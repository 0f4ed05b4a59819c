import DocaApps.Ipsec.PacketDecap

namespace DocaApps.Proofs.MbufChain
open Common.Pack Lib.Overwrite Lib.Command Ipsec.Rules Ipsec.Encap Ipsec.MbufChain
open Ipsec.PacketEncap Ipsec.PacketDecap

/-- A packet in one segment. -/
def single (buf : List Byte) (off len : Nat) (packetType : BitVec 32) : Mbuf :=
  ⟨[⟨buf, off, len⟩], len, packetType⟩

variable {lib : MbufLib} {buf a b b' c : List Byte} {off len pos n : Nat} {packetType : BitVec 32}

theorem data_single : (single buf off len packetType).data = slice buf off len := by
  simp [single, Mbuf.data, Segment.data]

theorem mtod_single :
    mtod 0 (single buf off len packetType) = .ok off (single buf off len packetType) := rfl

theorem pktLenNow_single :
    pktLenNow (single buf off len packetType) = .ok len (single buf off len packetType) := rfl

theorem segment_single : segment 0 (single buf off len packetType) =
    .ok ⟨buf, off, len⟩ (single buf off len packetType) := rfl

theorem load_single (h : pos + n ≤ buf.length) :
    load 0 pos n (single buf off len packetType) =
      .ok (slice buf pos n) (single buf off len packetType) := by
  rw [load, run_bind segment_single, if_pos h]
  rfl

theorem store_single {bytes : List Byte} (h : pos + bytes.length ≤ buf.length) :
    store 0 pos bytes (single buf off len packetType) =
      .ok () (single (overwrite buf pos bytes) off len packetType) := by
  rw [store, run_bind segment_single, if_pos h]
  rfl

theorem load_middle (ha : a.length = pos) (hb : b.length = n) :
    load 0 pos n (single (a ++ b ++ c) off len packetType) =
      .ok b (single (a ++ b ++ c) off len packetType) := by
  have hfit : pos + n ≤ (a ++ b ++ c).length := by
    simp only [List.length_append]
    omega
  rw [load_single hfit, slice_middle ha hb]

theorem store_middle (ha : a.length = pos) (hb : b.length = b'.length) :
    store 0 pos b' (single (a ++ b ++ c) off len packetType) =
      .ok () (single (a ++ b' ++ c) off len packetType) := by
  have hfit : pos + b'.length ≤ (a ++ b ++ c).length := by
    simp only [List.length_append]
    omega
  rw [store_single hfit, overwrite_middle ha hb]

theorem store_inside {bytes : List Byte} {i : Nat} (ha : a.length = pos)
    (hb : i + bytes.length ≤ b.length) :
    store 0 (pos + i) bytes (single (a ++ b ++ c) off len packetType) =
      .ok () (single (a ++ overwrite b i bytes ++ c) off len packetType) := by
  have hfit : pos + i + bytes.length ≤ (a ++ b ++ c).length := by
    simp only [List.length_append]
    omega
  rw [store_single hfit, overwrite_inside ha hb]

theorem prepend_single (hlib : lib.Documented) (hoff : n ≤ off) (hlen : len + n < 2 ^ 16) :
    pktmbufPrepend lib n (single buf off len packetType) =
      .ok (off - n) (single buf (off - n) (len + n) packetType) := by
  have hn : wrap16 n = n := Nat.mod_eq_of_lt (by omega)
  have h16 : wrap16 (len + n) = len + n := Nat.mod_eq_of_lt hlen
  have h32 : wrap32 (len + n) = len + n := Nat.mod_eq_of_lt (by omega)
  have hcall : lib.prepend (single buf off len packetType) (wrap16 n) =
      some (single buf (off - n) (len + n) packetType) := by
    simp only [single, hn, hlib.prepend_eq, h16, h32, if_neg (Nat.not_lt.mpr hoff)]
  simp only [pktmbufPrepend, bind, EStateM.bind, get, getThe, MonadStateOf.get, EStateM.get, hcall,
    set, EStateM.set, mtod_single]

theorem adj_single (hlib : lib.Documented) (hn : n ≤ len) (hlen : off + len < 2 ^ 16) :
    pktmbufAdj lib n (single buf off len packetType) =
      .ok (off + n) (single buf (off + n) (len - n) packetType) := by
  have hn16 : wrap16 n = n := Nat.mod_eq_of_lt (by omega)
  have h16 : wrap16 (off + n) = off + n := Nat.mod_eq_of_lt (by omega)
  have h32 : sub32 len n = len - n := by
    unfold sub32
    omega
  have hcall : lib.adj (single buf off len packetType) (wrap16 n) =
      some (single buf (off + n) (len - n) packetType) := by
    simp only [single, hn16, hlib.adj_eq, h16, h32, if_neg (Nat.not_lt.mpr hn)]
  simp only [pktmbufAdj, bind, EStateM.bind, get, getThe, MonadStateOf.get, EStateM.get, hcall,
    set, EStateM.set, mtod_single]

theorem trim_single (hlib : lib.Documented) (hn : n ≤ len) (hlen : len < 2 ^ 16) :
    pktmbufTrim lib n (single buf off len packetType) =
      .ok () (single buf off (len - n) packetType) := by
  have hn16 : wrap16 n = n := Nat.mod_eq_of_lt (by omega)
  have h32 : sub32 len n = len - n := by
    unfold sub32
    omega
  have hcall : lib.trim (single buf off len packetType) (wrap16 n) =
      some (single buf off (len - n) packetType) := by
    have htrim := hlib.trim_eq [] ⟨buf, off, len⟩ len packetType n
    simpa only [single, hn16, h32, if_neg (Nat.not_lt.mpr hn), List.nil_append] using htrim
  simp only [pktmbufTrim, modify, modifyGet, MonadStateOf.modifyGet, EStateM.modifyGet, hcall,
    Option.getD_some]

theorem appendTail_single (hlen : len + n < 2 ^ 16) :
    appendTail n (single buf off len packetType) =
      .ok (0, off + len) (single buf off (len + n) packetType) := by
  have h16 : wrap16 (len + n) = len + n := Nat.mod_eq_of_lt hlen
  have h32 : wrap32 (len + n) = len + n := Nat.mod_eq_of_lt (by omega)
  have hrun : appendTail n (single buf off len packetType) =
      .ok (0, off + len) ⟨[⟨buf, off, wrap16 (len + n)⟩], wrap32 (len + n), packetType⟩ := rfl
  rw [hrun, h16, h32]
  rfl

/-- The copy from the end moves the bytes as they were, since it goes upwards. -/
theorem copyBack_single {np op : Nat} (hnp : op ≤ np) : ∀ {n : Nat} {buf : List Byte},
    np + n ≤ buf.length →
    copyBack 0 np op n (single buf off len packetType) =
      .ok () (single (overwrite buf np (slice buf op n)) off len packetType)
  | 0, buf, h => by
    have hnil : overwrite buf np (slice buf op 0) = buf := by simp [overwrite, slice]
    rw [hnil]
    rfl
  | n + 1, buf, h => by
    have hone : (slice buf (op + n) 1).length = 1 := length_slice (by omega)
    have hn : (slice buf op n).length = n := length_slice (by omega)
    have hn1 : (slice buf op (n + 1)).length = n + 1 := length_slice (by omega)
    have hmove : memmove 0 (np + n) (op + n) 1 (single buf off len packetType) =
        .ok () (single (overwrite buf (np + n) (slice buf (op + n) 1)) off len packetType) := by
      rw [memmove, run_bind (load_single (by omega)), store_single (by omega)]
    have hlen1 : (overwrite buf (np + n) (slice buf (op + n) 1)).length = buf.length :=
      length_overwrite (by omega)
    have hkeep : slice (overwrite buf (np + n) (slice buf (op + n) 1)) op n = slice buf op n := by
      apply List.ext_getElem?
      intro i
      simp only [getElem?_slice]
      by_cases hi : i < n
      · rw [if_pos hi, if_pos hi, getElem?_overwrite (by omega), if_neg (by omega)]
      · rw [if_neg hi, if_neg hi]
    rw [copyBack, run_bind hmove, copyBack_single hnp (by omega), hkeep]
    have hbuf : overwrite (overwrite buf (np + n) (slice buf (op + n) 1)) np (slice buf op n) =
        overwrite buf np (slice buf op (n + 1)) := by
      apply List.ext_getElem?
      intro i
      rw [getElem?_overwrite (by omega), getElem?_overwrite (by omega),
        getElem?_overwrite (by omega), hn, hone, hn1]
      simp only [getElem?_slice]
      by_cases hlo : np ≤ i ∧ i < np + n
      · rw [if_pos hlo, if_pos (by omega), if_pos (by omega), if_pos (by omega)]
      · by_cases hi : i = np + n
        · subst hi
          rw [if_neg hlo, if_pos (by omega), if_pos (by omega), if_pos (by omega), if_pos (by omega)]
          congr 1
          omega
        · rw [if_neg hlo, if_neg (by omega), if_neg (by omega)]
    rw [hbuf]

end DocaApps.Proofs.MbufChain
