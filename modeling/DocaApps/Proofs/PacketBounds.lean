import DocaApps.SimpleFwd.Packet
import DocaApps.Lib.Fallible

namespace DocaApps.Proofs.PacketBounds
open Lib.Fallible SimpleFwd.FlowTable SimpleFwd.Packet

variable {α : Type} {data : Bytes} {off base l4 : Nat}

/-- A reading of some bytes: they lie inside the packet, or the parsing ends there. -/
def Reads (x : Except Stop α) (last : Prop) (value : α) : Prop :=
  (last → x = .ok value) ∧ (¬ last → x = .error .outside)

theorem byteAt_reads (data : Bytes) (off : Nat) :
    Reads (byteAt data off) (off < data.length) (peek data off) := by
  unfold Reads byteAt peek
  constructor
  · intro h
    simp [List.getElem?_eq_getElem h]
  · intro h
    simp [List.getElem?_eq_none (Nat.le_of_not_lt h)]

theorem load16_reads (data : Bytes) (off : Nat) :
    Reads (load16 data off) (off + 2 ≤ data.length) (peek16 data off) := by
  obtain ⟨hok0, hout0⟩ := byteAt_reads data off
  obtain ⟨hok1, hout1⟩ := byteAt_reads data (off + 1)
  unfold load16
  constructor
  · intro h
    rw [hok0 (by omega), hok1 (by omega)]
    rfl
  · intro h
    by_cases h0 : off < data.length
    · rw [hok0 h0, hout1 (by omega)]
      rfl
    · rw [hout0 h0]
      rfl

theorem load32_reads (data : Bytes) (off : Nat) :
    Reads (load32 data off) (off + 4 ≤ data.length) (peek32 data off) := by
  obtain ⟨hok0, hout0⟩ := load16_reads data off
  obtain ⟨hok1, hout1⟩ := load16_reads data (off + 2)
  unfold load32
  constructor
  · intro h
    rw [hok0 (by omega), hok1 (by omega)]
    rfl
  · intro h
    by_cases h0 : off + 2 ≤ data.length
    · rw [hok0 h0, hout1 (by omega)]
      rfl
    · rw [hout0 h0]
      rfl

/-- What follows a reading leaves the packet where the reading does or it does itself. -/
theorem Reads.bind_outside {B : Type} {x : Except Stop α} {last : Prop} {value : α}
    (h : Reads x last value) (k : α → Except Stop B) :
    (x >>= k) = .error .outside ↔ ¬ last ∨ k value = .error .outside ∧ last := by
  by_cases hl : last
  · rw [h.1 hl]
    simp [hl, bind, Except.bind]
  · rw [h.2 hl]
    simp [hl, bind, Except.bind]

theorem Reads.bind_ok {B : Type} {x : Except Stop α} {last : Prop} {value : α}
    (h : Reads x last value) (k : α → Except Stop B) (b : B) :
    (x >>= k) = .ok b ↔ last ∧ k value = .ok b := by
  by_cases hl : last
  · rw [h.1 hl]
    simp [hl, bind, Except.bind]
  · rw [h.2 hl]
    simp [hl, bind, Except.bind]

theorem Reads.bind_refused {B : Type} {x : Except Stop α} {last : Prop} {value : α}
    (h : Reads x last value) (k : α → Except Stop B) :
    (x >>= k) = .error .refused ↔ last ∧ k value = .error .refused := by
  by_cases hl : last
  · rw [h.1 hl]
    simp [hl, bind, Except.bind]
  · rw [h.2 hl]
    simp [hl, bind, Except.bind]

theorem refuse_outside {c : Prop} [Decidable c] {x : Except Stop α} :
    (if c then .error .refused else x) = .error .outside ↔ ¬ c ∧ x = .error .outside := by
  by_cases hc : c <;> simp [hc]

theorem refuse_ok {c : Prop} [Decidable c] {x : Except Stop α} {a : α} :
    (if c then .error .refused else x) = .ok a ↔ ¬ c ∧ x = .ok a := by
  by_cases hc : c <;> simp [hc]

/-- Where the IP header of a level begins. -/
def l3At (base : Nat) (l2 : Bool) : Nat := if l2 then base + 14 else base

def IpFrame (data : Bytes) (base : Nat) (l2 : Bool) : Prop :=
  l2 = true → rteBeToCpu16 (peek16 data (base + 12)) = etherTypeIpv4

def version (data : Bytes) (l3 : Nat) : BitVec 8 := peek data l3 >>> 4
def srcAddr (data : Bytes) (l3 : Nat) : BitVec 32 := peek32 data (l3 + 12)
def dstAddr (data : Bytes) (l3 : Nat) : BitVec 32 := peek32 data (l3 + 16)
def proto (data : Bytes) (l3 : Nat) : BitVec 8 := peek data (l3 + 9)

/-- Where the header length of the IP header puts the transport header. -/
def l4At (data : Bytes) (l3 : Nat) : Nat := l3 + rteIpv4HdrLen (peek data l3)

def tcpLen (data : Bytes) (l4 : Nat) : Nat := ((peek data (l4 + 12) &&& 0xf0) >>> 2).toNat

/-- The fields of an IP header and its transport header that are read lie inside the packet:
each is read only where the fields before it do not refuse the packet. -/
def IpReads (data : Bytes) (l3 : Nat) : Prop :=
  l3 < data.length ∧ (version data l3 = 4 → l3 + 16 ≤ data.length ∧
    (srcAddr data l3 ≠ 0 → l3 + 20 ≤ data.length ∧
      (dstAddr data l3 ≠ 0 → proto data l3 = docaProtoTcp →
        l4At data l3 + 13 ≤ data.length)))

/-- The IP header is one of IPv4 with a protocol that is known, and the data of TCP and UDP
does not begin behind the packet. -/
structure IpAccepted (data : Bytes) (l3 : Nat) : Prop where
  version : version data l3 = 4
  src : srcAddr data l3 ≠ 0
  dst : dstAddr data l3 ≠ 0
  proto : (proto data l3 = docaProtoTcp ∧
      l4At data l3 + tcpLen data (l4At data l3) ≤ data.length) ∨
    (proto data l3 = docaProtoUdp ∧ l4At data l3 + 8 ≤ data.length) ∨
    proto data l3 = docaProtoGre ∨ proto data l3 = ipprotoIcmp

def LevelReads (data : Bytes) (base : Nat) (l2 : Bool) : Prop :=
  (l2 = true → base + 14 ≤ data.length) ∧
    (IpFrame data base l2 → IpReads data (l3At base l2))

def LevelAccepted (data : Bytes) (base : Nat) (l2 : Bool) : Prop :=
  IpFrame data base l2 ∧ IpAccepted data (l3At base l2)

def l7At (data : Bytes) (l4 : Nat) (proto : BitVec 8) : Option Nat :=
  if proto = docaProtoTcp then some (l4 + tcpLen data l4)
  else if proto = docaProtoUdp then some (l4 + 8)
  else none

def levelFormat (data : Bytes) (base : Nat) (l2 : Bool) : Format :=
  let l3 := l3At base l2
  ⟨base, l3, l4At data l3, ipv4, proto data l3, l7At data (l4At data l3) (proto data l3)⟩

variable {l2 : Bool} {n : Nat} {p : BitVec 8} {l7 : Option Nat} {f : Format} {len : Int}

theorem parseL2_outside :
    parseL2 data base l2 = .error .outside ↔ ¬ (l2 = true → base + 14 ≤ data.length) := by
  cases l2 with
  | false => simp [parseL2, pure, Except.pure]
  | true =>
    have hread := load16_reads data (base + 12)
    simp only [parseL2, if_true, hread.bind_outside]
    split <;> simp [pure, Except.pure]

theorem parseL2_ok : parseL2 data base l2 = .ok n ↔
    (l2 = true → base + 14 ≤ data.length) ∧ IpFrame data base l2 ∧ base + n = l3At base l2 := by
  cases l2 with
  | false =>
    simp [parseL2, IpFrame, l3At, pure, Except.pure, eq_comm]
  | true =>
    have hread := load16_reads data (base + 12)
    simp only [parseL2, if_true, hread.bind_ok, IpFrame, l3At, forall_const]
    split
    · next h => simp [h, pure, Except.pure, eq_comm]
    · next h => simp [h]

theorem parseL4_outside {l4Off : Nat} : parseL4 data base len l4Off p = .error .outside ↔
    p = docaProtoTcp ∧ ¬ base + l4Off + 13 ≤ data.length := by
  have hread := byteAt_reads data (base + l4Off + 12)
  unfold parseL4
  by_cases htcp : p = docaProtoTcp
  · simp only [htcp, if_true, hread.bind_outside, refuse_outside]
    simp [pure, Except.pure, Nat.lt_succ_iff]
  · simp only [htcp, if_false, false_and, iff_false]
    split
    · split <;> simp [pure, Except.pure]
    · split
      · simp [pure, Except.pure]
      · split <;> simp [pure, Except.pure]

theorem parseL4_ok {l4Off : Nat} (hlen : len = data.length - base) :
    parseL4 data base len l4Off p = .ok l7 ↔
      l7.map (base + ·) = l7At data (base + l4Off) p ∧
      ((p = docaProtoTcp ∧ base + l4Off + 13 ≤ data.length ∧
          base + l4Off + tcpLen data (base + l4Off) ≤ data.length) ∨
        (p = docaProtoUdp ∧ base + l4Off + 8 ≤ data.length) ∨
        p = docaProtoGre ∨ p = ipprotoIcmp) := by
  have hread := byteAt_reads data (base + l4Off + 12)
  have hmap : ∀ k, l7.map (base + ·) = some (base + k) ↔ l7 = some k := by
    intro k
    cases l7 <;> simp
  unfold parseL4 l7At
  by_cases htcp : p = docaProtoTcp
  · have hsmall : ∀ k, base + l4Off + k = base + (l4Off + k) := fun k => Nat.add_assoc ..
    have hudp : docaProtoTcp ≠ docaProtoUdp := by decide
    have hgre : docaProtoTcp ≠ docaProtoGre := by decide
    have hicmp : docaProtoTcp ≠ ipprotoIcmp := by decide
    simp only [htcp, if_true, hread.bind_ok, refuse_ok, pure_eq_ok, hudp, hgre, hicmp, false_and,
      or_false, true_and]
    rw [hsmall (tcpLen data (base + l4Off)), hmap, tcpLen, eq_comm (a := l7)]
    constructor
    · rintro ⟨hin, hle, rfl⟩
      exact ⟨rfl, by omega, by omega⟩
    · rintro ⟨rfl, hin, hle⟩
      exact ⟨by omega, by omega, rfl⟩
  · by_cases hudp : p = docaProtoUdp
    · have hgre : docaProtoUdp ≠ docaProtoGre := by decide
      have hicmp : docaProtoUdp ≠ ipprotoIcmp := by decide
      have hne : docaProtoUdp ≠ docaProtoTcp := by decide
      simp only [hudp, hne, if_true, if_false, refuse_ok, pure_eq_ok, hgre, hicmp, false_and,
        or_false, false_or, true_and]
      rw [Nat.add_assoc base l4Off 8, hmap, eq_comm (a := l7)]
      constructor
      · rintro ⟨hle, rfl⟩
        exact ⟨rfl, by omega⟩
      · rintro ⟨rfl, hle⟩
        exact ⟨by omega, rfl⟩
    · simp only [htcp, hudp, if_false, false_and, false_or, Option.map_eq_none_iff]
      by_cases hgre : p = docaProtoGre
      · simp [hgre, pure, Except.pure, eq_comm]
      · by_cases hicmp : p = ipprotoIcmp
        · simp [hicmp, pure, Except.pure, eq_comm, docaProtoGre, ipprotoIcmp]
        · simp [hgre, hicmp]

theorem parseIp_outside : parseIp data base len n = .error .outside ↔
    ¬ IpReads data (base + n) := by
  have hfirst := (byteAt_reads data (base + n)).bind_outside (B := Format)
  have hsrc := (load32_reads data (base + n + 12)).bind_outside (B := Format)
  have hdst := (load32_reads data (base + n + 16)).bind_outside (B := Format)
  have hproto := (byteAt_reads data (base + n + 9)).bind_outside (B := Format)
  unfold parseIp
  simp only [hfirst, hsrc, hdst, hproto, refuse_outside, bind_eq_error, parseL4_outside,
    ← Nat.add_assoc, IpReads, version, srcAddr, dstAddr, proto, l4At]
  have hpure : ∀ f : Format, (pure f : Except Stop Format) ≠ .error .outside := by simp [pure, Except.pure]
  simp only [hpure, and_false, exists_false, or_false]
  grind

theorem parseIp_ok (hlen : len = data.length - base) : parseIp data base len n = .ok f ↔
    IpReads data (base + n) ∧ IpAccepted data (base + n) ∧
      f = ⟨base, base + n, l4At data (base + n), ipv4, proto data (base + n),
        l7At data (l4At data (base + n)) (proto data (base + n))⟩ := by
  have hfirst := (byteAt_reads data (base + n)).bind_ok (B := Format)
  have hsrc := (load32_reads data (base + n + 12)).bind_ok (B := Format)
  have hdst := (load32_reads data (base + n + 16)).bind_ok (B := Format)
  have hproto := (byteAt_reads data (base + n + 9)).bind_ok (B := Format)
  unfold parseIp
  simp only [hfirst, hsrc, hdst, hproto, refuse_ok, bind_eq_ok, parseL4_ok hlen, pure_eq_ok,
    ← Nat.add_assoc]
  constructor
  · rintro ⟨hin, hv, hin', hs, hin'', hd, -, l7, ⟨hl7, hcase⟩, rfl⟩
    refine ⟨?_, ⟨not_not.mp hv, hs, hd, ?_⟩, by rw [hl7]; rfl⟩
    · refine ⟨hin, fun _ => ⟨hin', fun _ => ⟨hin'', fun _ htcp => ?_⟩⟩⟩
      rcases hcase with ⟨-, h, -⟩ | ⟨h, -⟩ | h | h
      · exact h
      all_goals exact absurd (htcp.symm.trans h) (by decide)
    · exact hcase.imp_left fun h => ⟨h.1, h.2.2⟩
  · rintro ⟨⟨hin, hrest⟩, ⟨hv, hs, hd, hcase⟩, rfl⟩
    obtain ⟨hin', hrest⟩ := hrest hv
    obtain ⟨hin'', htcp⟩ := hrest hs
    refine ⟨hin, not_not.mpr hv, hin', hs, hin'', hd, by omega, ?_⟩
    have hmap : ∃ l7 : Option Nat, l7.map (base + ·) =
        l7At data (l4At data (base + n)) (proto data (base + n)) := by
      have hle : base ≤ l4At data (base + n) := by unfold l4At; omega
      unfold l7At
      split
      · exact ⟨some (l4At data (base + n) + tcpLen data (l4At data (base + n)) - base), by
          simp; omega⟩
      · split
        · exact ⟨some (l4At data (base + n) + 8 - base), by simp; omega⟩
        · exact ⟨none, rfl⟩
    obtain ⟨l7, hl7⟩ := hmap
    refine ⟨l7, ⟨hl7, ?_⟩, by rw [← hl7]; rfl⟩
    exact hcase.imp_left fun h => ⟨h.1, htcp hd h.1, h.2⟩

/-- The parsing of a level leaves the packet exactly where a field that is read does. -/
theorem format_outside : simpleFwdParsePktFormat data base len l2 = .error .outside ↔
    ¬ LevelReads data base l2 := by
  unfold simpleFwdParsePktFormat LevelReads
  simp only [bind_eq_error, parseL2_outside, parseL2_ok, parseIp_outside]
  constructor
  · rintro (h | ⟨n, ⟨hin, hframe, hn⟩, h⟩)
    · exact fun hall => h hall.1
    · rw [hn] at h
      exact fun hall => h (hall.2 hframe)
  · intro h
    by_cases hin : l2 = true → base + 14 ≤ data.length
    · right
      obtain ⟨hframe, hip⟩ := Classical.not_imp.mp fun hip => h ⟨hin, hip⟩
      have hle : base ≤ l3At base l2 := by unfold l3At; split <;> omega
      have hn : base + (l3At base l2 - base) = l3At base l2 := by omega
      exact ⟨l3At base l2 - base, ⟨hin, hframe, hn⟩, by rwa [hn]⟩
    · exact Or.inl hin

theorem format_ok (hlen : len = data.length - base) :
    simpleFwdParsePktFormat data base len l2 = .ok f ↔
      LevelReads data base l2 ∧ LevelAccepted data base l2 ∧ f = levelFormat data base l2 := by
  unfold simpleFwdParsePktFormat LevelReads LevelAccepted
  simp only [bind_eq_ok, parseL2_ok, parseIp_ok hlen]
  constructor
  · rintro ⟨n, ⟨hin, hframe, hn⟩, hreads, haccepted, hf⟩
    rw [hn] at hreads haccepted hf
    exact ⟨⟨hin, fun _ => hreads⟩, ⟨hframe, haccepted⟩, hf⟩
  · rintro ⟨⟨hin, hreads⟩, ⟨hframe, haccepted⟩, hf⟩
    have hle : base ≤ l3At base l2 := by unfold l3At; split <;> omega
    have hn : base + (l3At base l2 - base) = l3At base l2 := by omega
    refine ⟨l3At base l2 - base, ⟨hin, hframe, hn⟩, ?_⟩
    rw [hn]
    exact ⟨hreads hframe, haccepted, hf⟩

def udpDstPort (data : Bytes) (l4 : Nat) : BitVec 16 := rteBeToCpu16 (peek16 data (l4 + 2))

/-- The fields of a tunnel's headers that are read lie inside the packet. -/
def TunReads (data : Bytes) (l4 : Nat) (proto : BitVec 8) : Prop :=
  (proto = docaProtoGre → l4 + 1 ≤ data.length ∧
    (peek data l4 &&& greC = 0 → l4 + 4 ≤ data.length ∧
      (peek data l4 &&& greK ≠ 0 → l4 + 8 ≤ data.length))) ∧
  (proto = docaProtoUdp → l4 + 4 ≤ data.length ∧
    (udpDstPort data l4 = docaVxlanDefaultPort → l4 + 9 ≤ data.length ∧
      (peek data (l4 + 8) &&& 0x08 ≠ 0 → l4 + 16 ≤ data.length)) ∧
    (udpDstPort data l4 = docaGtpuPort → l4 + 16 ≤ data.length))

/-- The headers of a tunnel behind the outer IP header: GRE with the key and the sequence
number it has, or UDP with VXLAN or GTP-U. -/
def tunLen (data : Bytes) (l4 : Nat) : TunType → Nat
  | .none => 0
  | .vxlan => 16
  | .gtpu => if peek data (l4 + 8) &&& 0x07 ≠ 0 then 20 else 16
  | .gre => 4 + ((if peek data l4 &&& greK ≠ 0 then 4 else 0) +
      if peek data l4 &&& greS ≠ 0 then 4 else 0)

def tunTypeAt (data : Bytes) (l4 : Nat) (proto : BitVec 8) : TunType :=
  if proto = docaProtoGre then if peek data l4 &&& greC ≠ 0 then .none else .gre
  else if proto = docaProtoUdp then
    if udpDstPort data l4 = docaVxlanDefaultPort then
      if peek data (l4 + 8) &&& 0x08 ≠ 0 then .vxlan else .none
    else if udpDstPort data l4 = docaGtpuPort then .gtpu
    else .none
  else .none

/-- The tunnel of a type as its fields describe it. -/
def tunAt (data : Bytes) (l4 : Nat) : TunType → Tun
  | .none => noTun
  | .vxlan => ⟨.vxlan, true, peek32 data (l4 + 12), 0⟩
  | .gtpu => ⟨.gtpu, false, (0 : BitVec 16) ++ (peek data (l4 + 8) ++ peek data (l4 + 9)),
      peek32 data (l4 + 12)⟩
  | .gre => ⟨.gre, peek data l4 &&& greK ≠ 0,
      if peek data l4 &&& greK ≠ 0 then peek32 data (l4 + 4) else 0,
      (0 : BitVec 16) ++ peek16 data (l4 + 2)⟩

@[simp] theorem tunAt_type (t : TunType) : (tunAt data l4 t).type = t := by
  cases t <;> rfl

theorem parseGre_outside : parseGre data l4 = .error .outside ↔
    ¬ TunReads data l4 docaProtoGre := by
  have hflags := (byteAt_reads data l4).bind_outside (B := Int × Tun)
  have hproto := (load16_reads data (l4 + 2)).bind_outside (B := Int × Tun)
  have hkey := (load32_reads data (l4 + 4)).bind_outside (B := Int × Tun)
  have hne : docaProtoGre ≠ docaProtoUdp := by decide
  unfold parseGre TunReads
  simp only [hflags, BitVec.ofNat_eq_ofNat]
  by_cases hc : peek data l4 &&& greC = 0#8
  · by_cases hk : peek data l4 &&& greK = 0#8
    · simp only [hproto, hc, hk, ne_eq, not_true_eq_false, if_false, pure_bind]
      simp [pure, Except.pure, hne]
      omega
    · simp only [hproto, hkey, hc, hk, ne_eq, not_true_eq_false, not_false_eq_true, if_true,
        if_false]
      simp [pure, Except.pure, hne]
      omega
  · simp [pure, Except.pure, hne, hc, Nat.succ_le_iff]

theorem parseGre_refused : parseGre data l4 ≠ .error .refused := by
  have hflags := (byteAt_reads data l4).bind_refused (B := Int × Tun)
  have hproto := (load16_reads data (l4 + 2)).bind_refused (B := Int × Tun)
  have hkey := (load32_reads data (l4 + 4)).bind_refused (B := Int × Tun)
  unfold parseGre
  rw [ne_eq, hflags]
  split
  · simp [pure, Except.pure]
  · split
    · simp only [hproto, hkey]
      simp [pure, Except.pure]
    · simp only [pure_bind, hproto]
      simp [pure, Except.pure]

theorem parseGre_ok {off : Int} {tun : Tun} (h : parseGre data l4 = .ok (off, tun)) :
    tun = tunAt data l4 (tunTypeAt data l4 docaProtoGre) ∧ (tun.type = .none ∧ off < 0 ∨
      tun.type = .gre ∧ off = tunLen data l4 .gre) := by
  have hflags := (byteAt_reads data l4).bind_ok (B := Int × Tun)
  have hproto := (load16_reads data (l4 + 2)).bind_ok (B := Int × Tun)
  have hkey := (load32_reads data (l4 + 4)).bind_ok (B := Int × Tun)
  unfold parseGre at h
  simp only [hflags, BitVec.ofNat_eq_ofNat] at h
  simp only [tunTypeAt, BitVec.ofNat_eq_ofNat]
  by_cases hc : peek data l4 &&& greC = 0#8
  · by_cases hk : peek data l4 &&& greK = 0#8
    · simp only [hproto, hc, hk, ne_eq, not_true_eq_false, if_false, pure_bind, pure_eq_ok] at h
      obtain ⟨-, -, h⟩ := h
      cases h
      simp [tunAt, tunLen, hc, hk]
    · simp only [hproto, hkey, hc, hk, ne_eq, not_true_eq_false, not_false_eq_true, if_true,
        if_false, pure_eq_ok] at h
      obtain ⟨-, -, -, h⟩ := h
      cases h
      simp [tunAt, tunLen, hc, hk]
      split <;> rfl
  · simp only [hc, ne_eq, not_false_eq_true, if_true, pure_eq_ok] at h
    obtain ⟨-, h⟩ := h
    cases h
    simp [tunAt, hc, noTun]

theorem parseUdpTun_outside : parseUdpTun data l4 = .error .outside ↔
    ¬ TunReads data l4 docaProtoUdp := by
  have hport := (load16_reads data (l4 + 2)).bind_outside (B := Int × Tun)
  have hfirst := (byteAt_reads data (l4 + 8)).bind_outside (B := Int × Tun)
  have hsecond := (byteAt_reads data (l4 + 9)).bind_outside (B := Int × Tun)
  have hword := (load32_reads data (l4 + 12)).bind_outside (B := Int × Tun)
  have hne : docaProtoUdp ≠ docaProtoGre := by decide
  have hports : docaGtpuPort ≠ docaVxlanDefaultPort := by decide
  unfold parseUdpTun TunReads udpDstPort
  simp only [hport, BitVec.ofNat_eq_ofNat]
  by_cases hvxlan : rteBeToCpu16 (peek16 data (l4 + 2)) = docaVxlanDefaultPort
  · by_cases hflag : peek data (l4 + 8) &&& 8#8 = 0#8
    · simp only [hvxlan, hfirst, hflag, if_true]
      simp [pure, Except.pure, hne, hports.symm]
      omega
    · simp only [hvxlan, hfirst, hword, hflag, if_true, ne_eq, not_false_eq_true]
      simp [pure, Except.pure, hne, hports.symm]
      omega
  · by_cases hgtpu : rteBeToCpu16 (peek16 data (l4 + 2)) = docaGtpuPort
    · simp only [hgtpu, hports, hfirst, hsecond, hword, if_true, if_false]
      simp [pure, Except.pure, hne]
      omega
    · simp [pure, Except.pure, hne, hvxlan, hgtpu]

theorem parseUdpTun_refused : parseUdpTun data l4 ≠ .error .refused := by
  have hport := (load16_reads data (l4 + 2)).bind_refused (B := Int × Tun)
  have hfirst := (byteAt_reads data (l4 + 8)).bind_refused (B := Int × Tun)
  have hsecond := (byteAt_reads data (l4 + 9)).bind_refused (B := Int × Tun)
  have hword := (load32_reads data (l4 + 12)).bind_refused (B := Int × Tun)
  unfold parseUdpTun
  rw [ne_eq, hport]
  split
  · rw [hfirst]
    split
    · rw [hword]
      simp [pure, Except.pure]
    · simp [pure, Except.pure]
  · split
    · rw [hword, hsecond, hfirst]
      simp [pure, Except.pure]
    · simp [pure, Except.pure]

theorem parseUdpTun_ok {off : Int} {tun : Tun} (h : parseUdpTun data l4 = .ok (off, tun)) :
    tun = tunAt data l4 (tunTypeAt data l4 docaProtoUdp) ∧
      (tun.type = .none ∨ off = tunLen data l4 tun.type) ∧ tun.type ≠ .gre ∧ 0 ≤ off := by
  have hport := (load16_reads data (l4 + 2)).bind_ok (B := Int × Tun)
  have hfirst := (byteAt_reads data (l4 + 8)).bind_ok (B := Int × Tun)
  have hsecond := (byteAt_reads data (l4 + 9)).bind_ok (B := Int × Tun)
  have hword := (load32_reads data (l4 + 12)).bind_ok (B := Int × Tun)
  have hne : docaProtoUdp ≠ docaProtoGre := by decide
  have hports : docaGtpuPort ≠ docaVxlanDefaultPort := by decide
  unfold parseUdpTun at h
  simp only [hport, BitVec.ofNat_eq_ofNat] at h
  simp only [tunTypeAt, udpDstPort, BitVec.ofNat_eq_ofNat, hne, if_true, if_false]
  by_cases hvxlan : rteBeToCpu16 (peek16 data (l4 + 2)) = docaVxlanDefaultPort
  · by_cases hflag : peek data (l4 + 8) &&& 8#8 = 0#8
    · simp only [hvxlan, hfirst, hflag, if_true, ne_eq, not_true_eq_false, if_false, pure_eq_ok]
        at h
      obtain ⟨-, -, h⟩ := h
      cases h
      simp [tunAt, hvxlan, hflag, noTun]
    · simp only [hvxlan, hfirst, hword, hflag, if_true, ne_eq, not_false_eq_true, pure_eq_ok] at h
      obtain ⟨-, -, -, h⟩ := h
      cases h
      simp [tunAt, tunLen, hvxlan, hflag]
  · by_cases hgtpu : rteBeToCpu16 (peek16 data (l4 + 2)) = docaGtpuPort
    · simp only [hgtpu, hports, hfirst, hsecond, hword, if_true, if_false, pure_eq_ok] at h
      obtain ⟨-, -, -, -, h⟩ := h
      cases h
      by_cases hflag : peek data (l4 + 8) &&& 7#8 = 0#8
      · simp [tunAt, tunLen, hgtpu, hports, hflag]
      · simp [tunAt, tunLen, hgtpu, hports, hflag]
    · simp only [hvxlan, hgtpu, if_false, pure_eq_ok] at h
      obtain ⟨-, h⟩ := h
      cases h
      simp [tunAt, hvxlan, hgtpu, noTun]

variable {off : Int} {tun : Tun}

theorem isTun_outside (hip : f.l3Type = ipv4) :
    simpleFwdParseIsTun data f = .error .outside ↔ ¬ TunReads data f.l4 f.l4Type := by
  unfold simpleFwdParseIsTun
  rw [if_neg (not_not.mpr hip)]
  by_cases hgre : f.l4Type = docaProtoGre
  · rw [if_pos hgre, hgre]
    exact parseGre_outside
  · by_cases hudp : f.l4Type = docaProtoUdp
    · rw [if_neg hgre, if_pos hudp, hudp]
      exact parseUdpTun_outside
    · simp [hgre, hudp, TunReads, pure, Except.pure]

theorem isTun_refused : simpleFwdParseIsTun data f ≠ .error .refused := by
  unfold simpleFwdParseIsTun
  split
  · simp [pure, Except.pure]
  · split
    · exact parseGre_refused
    · split
      · exact parseUdpTun_refused
      · simp [pure, Except.pure]

/-- The tunnel that is found; where it is one, its length is that of its headers. -/
theorem isTun_ok (hip : f.l3Type = ipv4) (h : simpleFwdParseIsTun data f = .ok (off, tun)) :
    tun = tunAt data f.l4 (tunTypeAt data f.l4 f.l4Type) ∧
      (tun.type ≠ .none → off = tunLen data f.l4 tun.type) := by
  unfold simpleFwdParseIsTun at h
  rw [if_neg (not_not.mpr hip)] at h
  by_cases hgre : f.l4Type = docaProtoGre
  · rw [if_pos hgre] at h
    obtain ⟨htun, hcase⟩ := parseGre_ok h
    rw [hgre]
    refine ⟨htun, fun hne => ?_⟩
    rcases hcase with ⟨hnone, -⟩ | ⟨htype, hoff⟩
    · exact absurd hnone hne
    · rw [htype]
      exact hoff
  · by_cases hudp : f.l4Type = docaProtoUdp
    · rw [if_neg hgre, if_pos hudp] at h
      obtain ⟨htun, hoff, -⟩ := parseUdpTun_ok h
      rw [hudp]
      exact ⟨htun, fun hne => hoff.resolve_left hne⟩
    · rw [if_neg hgre, if_neg hudp, pure_eq_ok] at h
      cases h
      simp [tunTypeAt, hgre, hudp, tunAt, noTun]

def outerTun (data : Bytes) : TunType := tunTypeAt data (l4At data 14) (proto data 14)

/-- Where the packet in a tunnel begins; only VXLAN carries Ethernet frames. -/
def innerBase (data : Bytes) : Nat := l4At data 14 + tunLen data (l4At data 14) (outerTun data)

def innerL2 (data : Bytes) : Bool := outerTun data = .vxlan

/-- The fields that are read on the way through a packet lie inside it. -/
structure PacketReads (data : Bytes) : Prop where
  outer : LevelReads data 0 true
  tunnel : LevelAccepted data 0 true → TunReads data (l4At data 14) (proto data 14)
  inner : LevelAccepted data 0 true → outerTun data ≠ .none →
    LevelReads data (innerBase data) (innerL2 data)

structure PacketAccepted (data : Bytes) : Prop where
  outer : LevelAccepted data 0 true
  inner : outerTun data ≠ .none → LevelAccepted data (innerBase data) (innerL2 data)

def packetInfo (data : Bytes) : Pinfo where
  outer := levelFormat data 0 true
  tun := tunAt data (l4At data 14) (outerTun data)
  inner := if outerTun data = .none then none
    else some (levelFormat data (innerBase data) (innerL2 data))

/-- What follows the outer headers. -/
def parseInner (data : Bytes) (outer : Format) : Except Stop Pinfo := do
  let (off, tun) ← simpleFwdParseIsTun data outer
  if tun.type = .none ∨ off < 0 then pure ⟨outer, tun, none⟩
  else do
    let innerOff := outer.l4 + off.toNat
    let l2 := if tun.type = .gre then false else tun.l2
    let inner ← simpleFwdParsePktFormat data innerOff (data.length - innerOff) l2
    pure ⟨outer, tun, some inner⟩

theorem tunAt_l2 (data : Bytes) (l4 : Nat) (t : TunType) (ht : t ≠ .none) :
    (if t = .gre then false else (tunAt data l4 t).l2) = decide (t = .vxlan) := by
  cases t with
  | none => exact absurd rfl ht
  | vxlan => rfl
  | gtpu => rfl
  | gre => rfl

theorem parseInner_eq (hreads : TunReads data (l4At data 14) (proto data 14)) :
    parseInner data (levelFormat data 0 true) =
      if outerTun data = .none then .ok (packetInfo data)
      else simpleFwdParsePktFormat data (innerBase data) (data.length - innerBase data)
        (innerL2 data) >>= fun inner =>
          .ok { packetInfo data with inner := some inner } := by
  have hip : (levelFormat data 0 true).l3Type = ipv4 := rfl
  cases hres : simpleFwdParseIsTun data (levelFormat data 0 true) with
  | error e =>
    cases e with
    | outside => exact absurd hreads ((isTun_outside hip).mp hres)
    | refused => exact absurd hres isTun_refused
  | ok r =>
    obtain ⟨off, tun⟩ := r
    obtain ⟨htun, hoff⟩ := isTun_ok hip hres
    have htype : tun.type = outerTun data := by
      rw [htun, tunAt_type]
      rfl
    have htun' : tun = (packetInfo data).tun := htun
    unfold parseInner
    rw [hres]
    simp only [bind, Except.bind]
    by_cases hnone : outerTun data = .none
    · rw [if_pos (Or.inl (htype.trans hnone)), if_pos hnone, htun']
      simp [packetInfo, hnone, pure, Except.pure]
    · have hlen := hoff (htype ▸ hnone)
      rw [htype] at hlen
      have hpos : ¬ (tun.type = .none ∨ off < 0) := by
        rw [htype, not_or]
        exact ⟨hnone, by omega⟩
      have hbase : (levelFormat data 0 true).l4 + off.toNat = innerBase data := by
        rw [hlen, Int.toNat_natCast]
        rfl
      have hl2 : (if tun.type = .gre then false else tun.l2) = innerL2 data := by
        rw [htype, htun]
        exact tunAt_l2 _ _ _ hnone
      rw [if_neg hpos, if_neg hnone, hbase, hl2, htun']
      rfl

theorem parsePacket_eq : simpleFwdParsePacket data =
    simpleFwdParsePktFormat data 0 data.length true >>= parseInner data := rfl

theorem outer_ok : simpleFwdParsePktFormat data 0 data.length true = .ok f ↔
    LevelReads data 0 true ∧ LevelAccepted data 0 true ∧ f = levelFormat data 0 true :=
  format_ok (by simp)

/-- The parsing of a packet leaves it exactly where a field that is read does. -/
theorem parsePacket_outside : simpleFwdParsePacket data = .error .outside ↔
    ¬ PacketReads data := by
  simp only [parsePacket_eq, bind_eq_error, format_outside, outer_ok]
  have htun : ∀ h : ¬ TunReads data (l4At data 14) (proto data 14),
      parseInner data (levelFormat data 0 true) = .error .outside := by
    intro h
    have hres := (@isTun_outside data (levelFormat data 0 true) rfl).mpr h
    unfold parseInner
    rw [hres]
    rfl
  constructor
  · rintro (h | ⟨f, ⟨-, haccepted, rfl⟩, h⟩) hall
    · exact h hall.outer
    · rw [parseInner_eq (hall.tunnel haccepted)] at h
      split at h
      · cases h
      · next hnone =>
        rw [bind_eq_error, format_outside] at h
        rcases h with h | ⟨_, _, h⟩
        · exact h (hall.inner haccepted hnone)
        · cases h
  · intro h
    by_cases houter : LevelReads data 0 true
    · by_cases haccepted : LevelAccepted data 0 true
      · refine Or.inr ⟨_, ⟨houter, haccepted, rfl⟩, ?_⟩
        by_cases hreads : TunReads data (l4At data 14) (proto data 14)
        · rw [parseInner_eq hreads]
          by_cases hnone : outerTun data = .none
          · exact absurd ⟨houter, fun _ => hreads, fun _ hne => absurd hnone hne⟩ h
          · rw [if_neg hnone, bind_eq_error, format_outside]
            exact Or.inl fun hinner => h ⟨houter, fun _ => hreads, fun _ _ => hinner⟩
        · exact htun hreads
      · exact absurd ⟨houter, fun ha => absurd ha haccepted, fun ha => absurd ha haccepted⟩ h
    · exact Or.inl houter

theorem parsePacket_ok {p : Pinfo} : simpleFwdParsePacket data = .ok p ↔
    PacketReads data ∧ PacketAccepted data ∧ p = packetInfo data := by
  have hlen : ((data.length : Int) - innerBase data) = data.length - (innerBase data : Nat) := rfl
  simp only [parsePacket_eq, bind_eq_ok, outer_ok]
  constructor
  · rintro ⟨f, ⟨houter, haccepted, rfl⟩, h⟩
    have hreads : TunReads data (l4At data 14) (proto data 14) := by
      by_contra hout
      have hres := (@isTun_outside data (levelFormat data 0 true) rfl).mpr hout
      unfold parseInner at h
      rw [hres] at h
      cases h
    rw [parseInner_eq hreads] at h
    split at h
    · next hnone =>
      cases h
      exact ⟨⟨houter, fun _ => hreads, fun _ hne => absurd hnone hne⟩,
        ⟨haccepted, fun hne => absurd hnone hne⟩, rfl⟩
    · next hnone =>
      rw [bind_eq_ok] at h
      obtain ⟨f, hf, h⟩ := h
      obtain ⟨hinner, hinner', rfl⟩ := (format_ok hlen).mp hf
      cases h
      refine ⟨⟨houter, fun _ => hreads, fun _ _ => hinner⟩, ⟨haccepted, fun _ => hinner'⟩, ?_⟩
      simp [packetInfo, hnone]
  · rintro ⟨hreads, haccepted, rfl⟩
    refine ⟨_, ⟨hreads.outer, haccepted.outer, rfl⟩, ?_⟩
    rw [parseInner_eq (hreads.tunnel haccepted.outer)]
    split
    · rfl
    · next hnone =>
      rw [bind_eq_ok]
      refine ⟨_, (format_ok hlen).mpr
        ⟨hreads.inner haccepted.outer hnone, haccepted.inner hnone, rfl⟩, ?_⟩
      simp [packetInfo, hnone]

/-- The pointers of a level point into the packet or right behind it, and the IPv4, TCP, UDP
and GRE headers that it has lie completely inside. -/
structure FormatInside (data : Bytes) (f : Format) : Prop where
  l2 : f.l2 ≤ data.length
  l3 : f.l3 ≤ data.length
  l4 : f.l4 ≤ data.length
  l7 : ∀ l7, f.l7 = some l7 → f.l4 ≤ l7 ∧ l7 ≤ data.length
  ip : f.l3 + 20 ≤ data.length
  tcp : f.l4Type = docaProtoTcp → f.l4 + 20 ≤ data.length
  udp : f.l4Type = docaProtoUdp → f.l4 + 8 ≤ data.length
  gre : f.l4Type = docaProtoGre → f.l4 + 4 ≤ data.length

/-- All headers lie inside the packet, the outer ones in their order, and the inner ones
behind the headers of the tunnel. -/
structure HeadersInside (data : Bytes) (p : Pinfo) : Prop where
  outer : FormatInside data p.outer
  order : p.outer.l2 ≤ p.outer.l3 ∧ p.outer.l3 < p.outer.l4
  inner : ∀ f, p.inner = some f → FormatInside data f ∧
    p.outer.l4 + tunLen data p.outer.l4 p.tun.type ≤ f.l2 ∧ f.l2 ≤ f.l3 ∧ f.l3 ≤ f.l4

/-- No byte behind the packet is read, and what is accepted has its headers inside. -/
def StaysInside (data : Bytes) : Prop :=
  match simpleFwdParsePacket data with
  | .error .outside => False
  | .error .refused => True
  | .ok p => HeadersInside data p

/-- What the parser does not look at: the transport headers are complete. -/
structure L4Complete (data : Bytes) (l3 : Nat) : Prop where
  tcp : proto data l3 = docaProtoTcp → l4At data l3 + 20 ≤ data.length
  gre : proto data l3 = docaProtoGre → l4At data l3 + 4 ≤ data.length
  icmp : proto data l3 = ipprotoIcmp → l4At data l3 ≤ data.length

/-- In a packet that is accepted the outer header length is not zero and the transport headers
are complete. -/
structure PacketComplete (data : Bytes) : Prop where
  headerLength : rteIpv4HdrLen (peek data 14) ≠ 0
  outer : L4Complete data 14
  inner : outerTun data ≠ .none → L4Complete data (l3At (innerBase data) (innerL2 data))

theorem tcp_inside {l3 : Nat} (h : IpAccepted data l3) (hp : proto data l3 = docaProtoTcp) :
    l4At data l3 + tcpLen data (l4At data l3) ≤ data.length := by
  rcases h.proto with ⟨-, h⟩ | ⟨h, -⟩ | h | h
  · exact h
  all_goals exact absurd (hp.symm.trans h) (by decide)

theorem udp_inside {l3 : Nat} (h : IpAccepted data l3) (hp : proto data l3 = docaProtoUdp) :
    l4At data l3 + 8 ≤ data.length := by
  rcases h.proto with ⟨h, -⟩ | ⟨-, h⟩ | h | h
  · exact absurd (hp.symm.trans h) (by decide)
  · exact h
  all_goals exact absurd (hp.symm.trans h) (by decide)

theorem formatInside_iff (hreads : LevelReads data base l2)
    (haccepted : LevelAccepted data base l2) :
    FormatInside data (levelFormat data base l2) ↔ L4Complete data (l3At base l2) := by
  obtain ⟨hframe, hip⟩ := haccepted
  obtain ⟨-, hrest⟩ := hreads.2 hframe
  obtain ⟨-, hrest⟩ := hrest hip.version
  obtain ⟨hin, -⟩ := hrest hip.src
  have hle : base ≤ l3At base l2 := by unfold l3At; split <;> omega
  constructor
  · intro h
    exact ⟨h.tcp, h.gre, fun _ => h.l4⟩
  · intro h
    have hl4 : l4At data (l3At base l2) ≤ data.length := by
      rcases hip.proto with ⟨hp, -⟩ | ⟨-, hp⟩ | hp | hp
      · have := h.tcp hp
        omega
      · omega
      · have := h.gre hp
        omega
      · exact h.icmp hp
    refine ⟨by show base ≤ _; omega, by show l3At base l2 ≤ _; omega, hl4, ?_, hin, h.tcp,
      udp_inside hip, h.gre⟩
    intro l7 hl7
    replace hl7 : l7At data (l4At data (l3At base l2)) (proto data (l3At base l2)) = some l7 :=
      hl7
    show l4At data (l3At base l2) ≤ l7 ∧ l7 ≤ _
    unfold l7At at hl7
    split at hl7
    · next hp =>
      have := tcp_inside hip hp
      cases hl7
      omega
    · split at hl7
      · next hp =>
        have := udp_inside hip hp
        cases hl7
        omega
      · cases hl7

theorem headersInside_iff (hreads : PacketReads data) (haccepted : PacketAccepted data) :
    HeadersInside data (packetInfo data) ↔ PacketComplete data := by
  have houter := formatInside_iff hreads.outer haccepted.outer
  have hinner : ∀ hne : outerTun data ≠ .none,
      FormatInside data (levelFormat data (innerBase data) (innerL2 data)) ↔
        L4Complete data (l3At (innerBase data) (innerL2 data)) :=
    fun hne => formatInside_iff (hreads.inner haccepted.outer hne) (haccepted.inner hne)
  have hsome : ∀ f, (packetInfo data).inner = some f ↔
      outerTun data ≠ .none ∧ f = levelFormat data (innerBase data) (innerL2 data) := by
    intro f
    by_cases hnone : outerTun data = .none
    · simp [packetInfo, hnone]
    · simp [packetInfo, hnone, eq_comm]
  have hlen : l4At data 14 = 14 + rteIpv4HdrLen (peek data 14) := rfl
  constructor
  · intro h
    have hlt : 14 < l4At data 14 := h.order.2
    refine ⟨by omega, houter.mp h.outer, fun hne => ?_⟩
    exact (hinner hne).mp (h.inner _ ((hsome _).mpr ⟨hne, rfl⟩)).1
  · intro h
    have hpos := h.headerLength
    refine ⟨houter.mpr h.outer, ⟨Nat.zero_le _, by show 14 < l4At data 14; omega⟩, ?_⟩
    intro f hf
    obtain ⟨hne, rfl⟩ := (hsome f).mp hf
    refine ⟨(hinner hne).mpr (h.inner hne), ?_, ?_, ?_⟩
    · show l4At data 14 + tunLen data (l4At data 14) (tunAt data (l4At data 14)
        (outerTun data)).type ≤ innerBase data
      rw [tunAt_type]
      exact Nat.le_refl _
    · show innerBase data ≤ l3At _ _
      unfold l3At
      split <;> omega
    · show l3At _ _ ≤ l4At data _
      unfold l4At
      omega

/-- The parser stays inside the packet exactly when the fields that it reads on its way lie
inside, and what it accepts has an outer header length and complete transport headers. -/
theorem parse_stays_inside_iff (data : Bytes) :
    StaysInside data ↔ PacketReads data ∧ (PacketAccepted data → PacketComplete data) := by
  unfold StaysInside
  cases hres : simpleFwdParsePacket data with
  | error e =>
    cases e with
    | outside =>
      have hout := parsePacket_outside.mp hres
      simp [hout]
    | refused =>
      have hreads : PacketReads data := by
        by_contra hout
        have hbad := parsePacket_outside.mpr hout
        cases hres.symm.trans hbad
      have hno : ¬ PacketAccepted data := by
        intro haccepted
        have hok := parsePacket_ok.mpr ⟨hreads, haccepted, rfl⟩
        cases hres.symm.trans hok
      simp [hreads, hno]
  | ok p =>
    obtain ⟨hreads, haccepted, rfl⟩ := parsePacket_ok.mp hres
    simp only [hreads, haccepted, true_and, forall_const]
    exact headersInside_iff hreads haccepted

/-- An Ethernet header of IPv4, and an IP header that is cut off behind its first byte. -/
def cutFrame : Bytes := List.replicate 12 0 ++ [0x08, 0x00, 0x45]

/-- A TCP packet with an IP header length of 0, that is accepted. -/
def noHeaderLength : Bytes :=
  List.replicate 12 0 ++ [0x08, 0x00, 0x40, 0, 0, 40, 0, 0, 0, 0, 64, 6, 0, 0,
    10, 0, 0, 1, 10, 0, 0, 2]

/-- Of a packet of 15 bytes the source address is read, and a header length of 0 is
accepted with the transport header at the IP header. -/
theorem parse_leaves_packet :
    simpleFwdParsePacket cutFrame = .error .outside ∧ ¬ StaysInside cutFrame ∧
      ¬ StaysInside noHeaderLength := by
  have hcut : simpleFwdParsePacket cutFrame = .error .outside := by decide +kernel
  have hzero : simpleFwdParsePacket noHeaderLength =
      .ok ⟨⟨0, 14, 14, ipv4, docaProtoTcp, some 14⟩, noTun, none⟩ := by decide +kernel
  refine ⟨hcut, ?_, ?_⟩
  · simp [StaysInside, hcut]
  · simp only [StaysInside, hzero]
    intro h
    exact absurd h.order.2 (by decide)

end DocaApps.Proofs.PacketBounds
