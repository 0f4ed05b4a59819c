import DocaApps.Proofs.PacketChain
import DocaApps.Proofs.PacketRoundTrip

namespace DocaApps.Proofs.PacketPrepared
open Common.Pack Lib.Overwrite Lib.Command Ipsec.Rules Ipsec.Encap Ipsec.MbufChain
open Ipsec.PacketEncap Proofs.PacketParts Proofs.PacketChain Proofs.PacketRoundTrip
open Proofs.MbufChain

/-- The b from the start of a packet on, as far as its first segment has any. -/
def frame (m : Mbuf) : List Byte :=
  match m.segs with
  | [] => []
  | s :: _ => s.buf.drop s.dataOff

/-- The lengths that the IP header says. -/
def hdrLen (m : Mbuf) : Nat := ipHdrLen m.packetType (frame m)
def ipLength (m : Mbuf) : Nat := ipLen m.packetType (frame m)

/-- The headers that are read lie in the buffer of the first segment. -/
def HeadersInBuffer (m : Mbuf) : Prop :=
  ∃ s rest, m.segs = s :: rest ∧ s.dataOff + 34 ≤ s.buf.length ∧
    s.dataOff + (14 + hdrLen m) ≤ s.buf.length

/-- What a segment is but for the b in its buffer. -/
def shape (s : Segment) : Nat × Nat × Nat := (s.buf.length, s.dataOff, s.dataLen)

/-- Only b differ. -/
structure Same (m m' : Mbuf) : Prop where
  pktLen : m'.pktLen = m.pktLen
  packetType : m'.packetType = m.packetType
  segs : m'.segs.map shape = m.segs.map shape

variable {lib : MbufLib} {m m' m'' : Mbuf} {s : Segment} {rest front : List Segment}
  {k n p : Nat} {b : List Byte}

theorem Same.refl (m : Mbuf) : Same m m := ⟨rfl, rfl, rfl⟩

theorem Same.trans (h : Same m m') (h' : Same m' m'') : Same m m'' :=
  ⟨h'.pktLen.trans h.pktLen, h'.packetType.trans h.packetType, h'.segs.trans h.segs⟩

theorem Same.dataLen (h : Same m m') : dataLen m'.segs = dataLen m.segs := by
  have hlens : ∀ segs : List Segment, PacketChain.dataLen segs =
      ((segs.map shape).map fun t => t.2.2).sum := by
    intro segs
    rw [List.map_map]
    rfl
  rw [hlens, hlens, h.segs]

theorem Same.segment (h : Same m m') (hk : m.segs[k]? = some s) :
    ∃ t, m'.segs[k]? = some t ∧ shape t = shape s := by
  have hmap : (m'.segs.map shape)[k]? = some (shape s) := by
    rw [h.segs, List.getElem?_map, hk]
    rfl
  rw [List.getElem?_map] at hmap
  obtain ⟨t, ht, heq⟩ := Option.map_eq_some_iff.mp hmap
  exact ⟨t, ht, heq⟩

theorem store_same (hk : m.segs[k]? = some s) (h : p + b.length ≤ s.buf.length) :
    ∃ m', store k p b m = .ok () m' ∧ Same m m' := by
  refine ⟨_, store_run hk h, rfl, rfl, ?_⟩
  apply List.ext_getElem?
  intro i
  rw [List.getElem?_map, List.getElem?_map, List.getElem?_set]
  split
  · rename_i hi
    subst hi
    obtain ⟨hlt, -⟩ := List.getElem?_eq_some_iff.mp hk
    rw [if_pos hlt, hk]
    simp only [Option.map_some, shape, length_overwrite h]
  · rfl

/-- A store where one of the same shape would go. -/
theorem Same.store (h : Same m m') (hk : m.segs[k]? = some s)
    (hfit : p + b.length ≤ s.buf.length) :
    ∃ m'', store k p b m' = .ok () m'' ∧ Same m m'' := by
  obtain ⟨t, ht, heq⟩ := h.segment hk
  have hbuf : t.buf.length = s.buf.length := congrArg Prod.fst heq
  obtain ⟨m'', hrun, hsame⟩ := store_same (b := b) ht (p := p) (by omega)
  exact ⟨m'', hrun, h.trans hsame⟩

theorem Same.load (h : Same m m') (hk : m.segs[k]? = some s) (hfit : p + n ≤ s.buf.length) :
    ∃ bytes, load k p n m' = .ok bytes m' ∧ bytes.length = n := by
  obtain ⟨t, ht, heq⟩ := h.segment hk
  have hbuf : t.buf.length = s.buf.length := congrArg Prod.fst heq
  exact ⟨_, load_run ht (by omega), length_slice (by omega)⟩

section Zeros

theorem frame_eq (hsegs : m.segs = s :: rest) : frame m = s.buf.drop s.dataOff := by
  rw [frame, hsegs]

theorem first_segment (hsegs : m.segs = s :: rest) : m.segs[0]? = some s := by
  rw [hsegs]
  rfl

theorem l3Len_run (hsegs : m.segs = s :: rest) (h : s.dataOff + 14 < s.buf.length) :
    l3Len s.dataOff m = .ok (hdrLen m) m := by
  have hbyte : (frame m).getD 14 0 = s.buf.getD (s.dataOff + 14) 0 := by
    simp only [frame_eq hsegs, List.getD_eq_getElem?_getD, List.getElem?_drop]
  unfold hdrLen ipHdrLen
  by_cases h4 : isIpv4Hdr m.packetType = true
  · have hrun : l3Len s.dataOff m = (do
        let versionIhl ← loadByte 0 (s.dataOff + 14)
        return ipv4HdrLen versionIhl : PktCmd Nat) m := by
      exact congrFun (if_pos h4) _
    rw [hrun, run_bind (loadByte_run (first_segment hsegs) h), if_pos h4, hbyte]
    rfl
  · have hrun : l3Len s.dataOff m = (return ipv6HdrLen : PktCmd Nat) m := by
      exact congrFun (if_neg h4) _
    rw [hrun, if_neg h4]
    rfl

theorem payloadLenL3_run {l3HdrLen : Nat} (hsegs : m.segs = s :: rest)
    (h : s.dataOff + 20 ≤ s.buf.length) : payloadLenL3 s.dataOff l3HdrLen m =
      .ok (if isIpv4Hdr m.packetType = true then sub32 (ipLength m) l3HdrLen
        else ipLength m - 40) m := by
  have hfield : ∀ i, slice (frame m) i 2 = slice s.buf (s.dataOff + i) 2 := by
    intro i
    rw [frame_eq hsegs, slice, slice, List.drop_drop]
  unfold ipLength ipLen
  by_cases h4 : isIpv4Hdr m.packetType = true
  · have hrun : payloadLenL3 s.dataOff l3HdrLen m = (do
        let totalLength ← loadBe16 0 (s.dataOff + 16)
        return sub32 totalLength l3HdrLen : PktCmd Nat) m := by
      exact congrFun (if_pos h4) _
    rw [hrun, run_bind (loadBe16_run (first_segment hsegs) (by omega)), if_pos h4, if_pos h4,
      hfield]
    rfl
  · have hrun : payloadLenL3 s.dataOff l3HdrLen m = loadBe16 0 (s.dataOff + 18) m := by
      exact congrFun (if_neg h4) _
    rw [hrun, loadBe16_run (first_segment hsegs) (by omega), if_neg h4, if_neg h4, hfield,
      Nat.add_sub_cancel_left]

theorem ipLength_lt (m : Mbuf) : ipLength m < 2 ^ 16 + 40 := by
  unfold ipLength ipLen
  split
  · exact Nat.lt_of_lt_of_le (be16_lt _) (by omega)
  · have hlt := be16_lt (slice (frame m) 18 2)
    omega

theorem hdrLen_le (m : Mbuf) : hdrLen m ≤ 60 := by
  unfold hdrLen ipHdrLen
  split
  · have hlt : ((frame m).getD 14 0 &&& 0xf#8).toNat ≤ 15 := by
      rw [BitVec.toNat_and]
      exact Nat.and_le_right
    unfold ipv4HdrLen
    omega
  · omega

/-- The number of bytes that `remove_trailing_zeros` wants to remove. -/
def zeros (m : Mbuf) : Nat := wrap16 (sub32 m.pktLen (14 + ipLength m))

/-- The number of bytes that it does remove, with this last segment. -/
def cut (m : Mbuf) (s : Segment) : Nat := if zeros m ≤ s.dataLen then zeros m else 0

/-- The chain with so many bytes less. -/
def shorten (m : Mbuf) (front : List Segment) (s : Segment) (n : Nat) : Mbuf :=
  ⟨front ++ [{ s with dataLen := s.dataLen - n }], m.pktLen - n, m.packetType⟩

theorem sub32_lt (a b : Nat) : sub32 a b < 2 ^ 32 := Nat.mod_lt _ (by decide)

theorem trimIfLonger_run (hlib : lib.Documented) (hm : Chain m) (hsegs : m.segs = front ++ [s])
    (hn : n < 2 ^ 32) : trimIfLonger lib n m =
      .ok () (shorten m front s (if wrap16 n ≤ s.dataLen then wrap16 n else 0)) := by
  have hsame : shorten m front s 0 = m := by
    rw [shorten, Nat.sub_zero, Nat.sub_zero, ← hsegs]
  unfold trimIfLonger
  split
  · have hrun : pktmbufTrim lib n m = .ok () ((lib.trim m (wrap16 n)).getD m) := rfl
    rw [hrun]
    split
    · rename_i hroom
      rw [trim_eq hlib hm hsegs hroom]
      rfl
    · rename_i hshort
      rw [trim_none hlib hsegs (Nat.not_le.mp hshort), hsame]
      rfl
  · obtain rfl : n = 0 := by omega
    rw [show wrap16 0 = 0 from rfl, ite_self, hsame]
    rfl

theorem removeTrailingZeros_run (hlib : lib.Documented) (hm : Chain m) (hheaders : HeadersInBuffer m)
    (hsegs : m.segs = front ++ [s]) :
    removeTrailingZeros lib m = .ok () (shorten m front s (cut m s)) := by
  obtain ⟨first, rest, hfirst, hlong, hhdr⟩ := hheaders
  have hfits := hm.fits first (by rw [hfirst]; exact List.mem_cons_self)
  have hlt := hm.pktLen_lt
  have hip := ipLength_lt m
  have hle := hdrLen_le m
  have hextra : sub32 (sub32 m.pktLen (hdrLen m + etherHdrLen))
      (if isIpv4Hdr m.packetType = true then sub32 (ipLength m) (hdrLen m)
        else ipLength m - 40) = sub32 m.pktLen (14 + ipLength m) := by
    unfold etherHdrLen
    split
    · unfold sub32
      omega
    · rename_i h4
      have hsix : hdrLen m = 40 := if_neg h4
      have hipv6 : 40 ≤ ipLength m := by
        rw [ipLength, ipLen, if_neg h4]
        exact Nat.le_add_right _ _
      unfold sub32
      omega
  rw [removeTrailingZeros, run_bind (mtod_run (first_segment hfirst)),
    run_bind (l3Len_run hfirst (by omega)), run_bind (payloadLenL3_run hfirst (by omega)),
    run_bind pktLenNow_run, hextra]
  exact trimIfLonger_run hlib hm hsegs (sub32_lt _ _)

end Zeros

section Grow

variable {first : Segment}

/-- The chain with room for a header in front. -/
def grow (m : Mbuf) (first : Segment) (rest : List Segment) (n : Nat) : Mbuf :=
  ⟨{ first with dataOff := first.dataOff - n, dataLen := first.dataLen + n } :: rest, m.pktLen + n,
    m.packetType⟩

theorem prepend_short (hlib : lib.Documented) (hsegs : m.segs = first :: rest) (hn : n < 2 ^ 16)
    (hshort : first.dataOff < n) : pktmbufPrepend lib n m = .error (.doca .noMemory) m := by
  have hn16 : wrap16 n = n := Nat.mod_eq_of_lt hn
  have hcall : lib.prepend m (wrap16 n) = none := by
    have hprepend := hlib.prepend_eq first rest m.pktLen m.packetType n
    rw [if_pos hshort, ← hsegs] at hprepend
    rw [hn16]
    exact hprepend
  simp only [pktmbufPrepend, bind, EStateM.bind, get, getThe, MonadStateOf.get, EStateM.get, hcall,
    throw, throwThe, MonadExceptOf.throw, EStateM.throw]

theorem prepend_grow (hlib : lib.Documented) (hm : Chain m) (hsegs : m.segs = first :: rest)
    (hroom : n ≤ first.dataOff) :
    pktmbufPrepend lib n m = .ok (first.dataOff - n) (grow m first rest n) := by
  have hfits := hm.fits first (by rw [hsegs]; exact List.mem_cons_self)
  have hbuf := hm.buf first (by rw [hsegs]; exact List.mem_cons_self)
  have hlt := hm.pktLen_lt
  have hn16 : wrap16 n = n := Nat.mod_eq_of_lt (by omega)
  have h16 : wrap16 (first.dataLen + n) = first.dataLen + n := Nat.mod_eq_of_lt (by omega)
  have h32 : wrap32 (m.pktLen + n) = m.pktLen + n := Nat.mod_eq_of_lt (by omega)
  have hcall : lib.prepend m (wrap16 n) = some (grow m first rest n) := by
    have hprepend := hlib.prepend_eq first rest m.pktLen m.packetType n
    rw [if_neg (Nat.not_lt.mpr hroom), ← hsegs, h16, h32] at hprepend
    rw [hn16]
    exact hprepend
  simp only [pktmbufPrepend, bind, EStateM.bind, get, getThe, MonadStateOf.get, EStateM.get, hcall,
    set, EStateM.set]
  exact mtod_run (m := grow m first rest n) (k := 0) rfl

/-- How much of a header in front falls to the last segment. -/
def headShare (rest : List Segment) (n : Nat) : Nat := if rest = [] then n else 0

/-- The last segment ends where it did. -/
theorem grow_last (hsegs : m.segs = first :: rest) (hlast : m.segs = front ++ [s])
    (hroom : n ≤ first.dataOff) : ∃ front' s', (grow m first rest n).segs = front' ++ [s'] ∧
      s'.buf = s.buf ∧ s'.dataOff + s'.dataLen = s.dataOff + s.dataLen ∧
      s'.dataLen = s.dataLen + headShare rest n := by
  cases front with
  | nil =>
    rw [hsegs, List.nil_append] at hlast
    obtain ⟨rfl, rfl⟩ := List.cons.inj hlast
    refine ⟨[], _, rfl, rfl, ?_, ?_⟩
    · dsimp only
      omega
    · rw [headShare, if_pos rfl]
  | cons t front =>
    rw [hsegs, List.cons_append] at hlast
    obtain ⟨rfl, rfl⟩ := List.cons.inj hlast
    refine ⟨_ :: front, s, rfl, rfl, rfl, ?_⟩
    rw [headShare, if_neg (by simp), Nat.add_zero]

theorem grow_dataLen (hm : Chain m) (hsegs : m.segs = first :: rest) :
    dataLen (grow m first rest n).segs = m.pktLen + n := by
  have hsum := hm.pktLen
  rw [hsegs, dataLen_cons] at hsum
  rw [grow, dataLen_cons]
  dsimp only
  omega

end Grow

section Tail

/-- The chain with a longer last segment. -/
def lengthen (m : Mbuf) (front : List Segment) (s : Segment) (n : Nat) : Mbuf :=
  ⟨front ++ [{ s with dataLen := wrap16 (s.dataLen + n) }], wrap32 (m.pktLen + n), m.packetType⟩

theorem appendTail_run (hsegs : m.segs = front ++ [s]) :
    appendTail n m = .ok (front.length, s.dataOff + s.dataLen) (lengthen m front s n) := by
  have hlast : m.segs.length - 1 = front.length := by
    rw [hsegs, List.length_append, List.length_singleton, Nat.add_sub_cancel]
  have hget : m.segs[front.length]? = some s := by
    rw [hsegs, List.getElem?_append_right (Nat.le_refl _), Nat.sub_self]
    rfl
  have hset : ∀ t, m.segs.set front.length t = front ++ [t] := by
    intro t
    rw [hsegs, List.set_append_right _ _ (Nat.le_refl _), Nat.sub_self, List.set_cons_zero]
  have hrun : appendTail n m = (do
      let lastSeg ← segment (m.segs.length - 1)
      setSegment (m.segs.length - 1) { lastSeg with dataLen := wrap16 (lastSeg.dataLen + n) }
      modify fun m => { m with pktLen := wrap32 (m.pktLen + n) }
      return (m.segs.length - 1, lastSeg.dataOff + lastSeg.dataLen) : PktCmd (Nat × Nat)) m := rfl
  rw [hrun, hlast, run_bind (segment_run hget), lengthen, ← hset]
  rfl

theorem paddingLen_range (payloadLen : Nat) :
    2 ≤ paddingLen payloadLen ∧ paddingLen payloadLen ≤ 5 := by
  unfold paddingLen sub32 alignCeil wrap32 espTailLen paddingAlign
  omega

variable {padding : Nat} (next : Byte)

theorem writeTrailer_fits (hsame : Same m m') (hk : m.segs[k]? = some s) (hlo : 2 ≤ padding)
    (hhi : padding ≤ 5) (hfit : p + padding ≤ s.buf.length) :
    ∃ m'', writeTrailer k p padding next m' = .ok () m'' ∧ Same m m'' := by
  have hsub : sub32 padding espTailLen = padding - 2 := by
    unfold sub32 espTailLen
    omega
  have hpad : (espPadBytes.take (min (padding - 2) espPadBytes.length)).length = padding - 2 := by
    rw [List.length_take]
    simp only [espPadBytes, List.length_cons, List.length_nil]
    omega
  obtain ⟨m₁, hrun₁, hsame₁⟩ := hsame.store hk (p := p)
    (b := espPadBytes.take (min (padding - 2) espPadBytes.length)) (by omega)
  obtain ⟨m₂, hrun₂, hsame₂⟩ := hsame₁.store hk (p := p + (padding - 2))
    (b := [BitVec.ofNat 8 (padding - 2), next]) (by
      simp only [List.length_cons, List.length_nil]
      omega)
  refine ⟨m₂, ?_, hsame₂⟩
  rw [writeTrailer, hsub, run_bind hrun₁, hrun₂]

theorem writeTrailer_fault (hsame : Same m m') (hk : m.segs[k]? = some s) (hlo : 2 ≤ padding)
    (hhi : padding ≤ 5) (hfit : ¬ p + padding ≤ s.buf.length) :
    ∃ m'', writeTrailer k p padding next m' = .error .fault m'' := by
  have hsub : sub32 padding espTailLen = padding - 2 := by
    unfold sub32 espTailLen
    omega
  have hpad : (espPadBytes.take (min (padding - 2) espPadBytes.length)).length = padding - 2 := by
    rw [List.length_take]
    simp only [espPadBytes, List.length_cons, List.length_nil]
    omega
  have hrun : writeTrailer k p padding next = (do
      store k p (espPadBytes.take (min (padding - 2) espPadBytes.length))
      store k (p + (padding - 2)) [BitVec.ofNat 8 (padding - 2), next] : PktCmd Unit) := by
    rw [writeTrailer, hsub]
  have hfault : ∀ {m₁ : Mbuf} {bytes : List Byte} {i : Nat}, Same m m₁ →
      ¬ i + bytes.length ≤ s.buf.length → store k i bytes m₁ = .error .fault m₁ := by
    intro m₁ bytes i h₁ hout
    obtain ⟨t, ht, heq⟩ := h₁.segment hk
    have hbuf : t.buf.length = s.buf.length := congrArg Prod.fst heq
    exact store_fault ht (by omega)
  rw [hrun]
  by_cases hfirst : p + (padding - 2) ≤ s.buf.length
  · obtain ⟨m₁, hrun₁, hsame₁⟩ := hsame.store hk (p := p)
      (b := espPadBytes.take (min (padding - 2) espPadBytes.length)) (by omega)
    refine ⟨m₁, ?_⟩
    rw [run_bind hrun₁]
    refine hfault hsame₁ ?_
    simp only [List.length_cons, List.length_nil]
    omega
  · refine ⟨m', ?_⟩
    simp only [bind, EStateM.bind, hfault hsame (hpad ▸ hfirst)]

end Tail

section Headers

variable {rule : EncryptRule} {swSnInc : Bool} {first : Segment} {nh : Nat}

theorem Same.be16 (h : Same m m') (hk : m.segs[k]? = some s)
    (hfit : p + 2 ≤ s.buf.length) (v : Nat) :
    ∃ m'', storeBe16 k p v m' = .ok () m'' ∧ Same m m'' :=
  h.store hk hfit

theorem writeTunnelHeader_same (swSnInc : Bool) (hsame : Same m m') (hsegs : m.segs = first :: rest)
    (hfit : nh + (outerHdrLen rule + 16) + 14 ≤ first.buf.length) :
    ∃ m'', writeTunnelHeader rule swSnInc nh m' = .ok () m'' ∧ Same m m'' := by
  have hfirst : m.segs[0]? = some first := by
    rw [hsegs]
    rfl
  unfold outerHdrLen at hfit
  unfold writeTunnelHeader
  split
  · rename_i h4
    rw [if_pos h4] at hfit
    obtain ⟨m₁, hrun₁, hsame₁⟩ := hsame.store hfirst (p := nh)
      (b := createIpv4TunnelEncap rule swSnInc) (by rw [length_createIpv4TunnelEncap]; omega)
    obtain ⟨m₂, hrun₂, hsame₂⟩ := hsame₁.be16 hfirst
      (p := nh + etherHdrLen + ipv4TotalLengthOfs)
      (by unfold etherHdrLen ipv4TotalLengthOfs; omega) (sub32 m₁.pktLen etherHdrLen)
    refine ⟨m₂, ?_, hsame₂⟩
    rw [run_bind hrun₁, run_bind pktLenNow_run, hrun₂]
  · rename_i h4
    rw [if_neg h4] at hfit
    obtain ⟨m₁, hrun₁, hsame₁⟩ := hsame.store hfirst (p := nh)
      (b := createIpv6TunnelEncap rule swSnInc) (by rw [length_createIpv6TunnelEncap]; omega)
    obtain ⟨m₂, hrun₂, hsame₂⟩ := hsame₁.be16 hfirst
      (p := nh + etherHdrLen + ipv6PayloadLenOfs)
      (by unfold etherHdrLen ipv6PayloadLenOfs; omega)
      (sub32 (sub32 m₁.pktLen etherHdrLen) ipv6HdrLen)
    refine ⟨m₂, ?_, hsame₂⟩
    rw [run_bind hrun₁, run_bind pktLenNow_run, hrun₂]

/-- The protocol and the length of an IP header replaced, at these places. -/
theorem replaceFields_same {q : Byte} {i j v : Nat} (hsame : Same m m')
    (hsegs : m.segs = first :: rest) (hfit : nh + 34 ≤ first.buf.length) (hi : i < 20)
    (hj : j < 19) : ∃ next m₁ m₂, loadByte 0 (nh + etherHdrLen + i) m' = .ok next m' ∧
      store 0 (nh + etherHdrLen + i) [q] m' = .ok () m₁ ∧ m₁.pktLen = m'.pktLen ∧
      storeBe16 0 (nh + etherHdrLen + j) v m₁ = .ok () m₂ ∧ Same m m₂ := by
  have hfirst : m.segs[0]? = some first := by
    rw [hsegs]
    rfl
  have hether : etherHdrLen = 14 := rfl
  obtain ⟨bytes, hload, -⟩ := hsame.load hfirst (p := nh + etherHdrLen + i) (n := 1) (by omega)
  obtain ⟨m₁, hrun₁, hsame₁⟩ := hsame.store hfirst (p := nh + etherHdrLen + i)
    (b := [q]) (by rw [List.length_singleton]; omega)
  obtain ⟨m₂, hrun₂, hsame₂⟩ := hsame₁.be16 hfirst (p := nh + etherHdrLen + j)
    (by omega) v
  refine ⟨bytes.getD 0 0, m₁, m₂, ?_, hrun₁, hsame₁.pktLen.trans hsame.pktLen.symm, hrun₂, hsame₂⟩
  rw [loadByte, run_bind hload]
  rfl

theorem replaceProtocol_same {q : Byte} (hsame : Same m m')
    (hsegs : m.segs = first :: rest) (hfit : nh + 34 ≤ first.buf.length) :
    ∃ next m'', replaceProtocol nh q m' = .ok next m'' ∧ Same m m'' := by
  have hrun : replaceProtocol nh q m' = (if isIpv4Hdr m'.packetType = true then do
        let nextProtocol ← loadByte 0 (nh + etherHdrLen + ipv4NextProtoIdOfs)
        store 0 (nh + etherHdrLen + ipv4NextProtoIdOfs) [q]
        storeBe16 0 (nh + etherHdrLen + ipv4TotalLengthOfs) (sub32 (← pktLenNow) etherHdrLen)
        return nextProtocol
      else if isIpv6Hdr m'.packetType = true then do
        let nextProtocol ← loadByte 0 (nh + etherHdrLen + ipv6ProtoOfs)
        store 0 (nh + etherHdrLen + ipv6ProtoOfs) [q]
        storeBe16 0 (nh + etherHdrLen + ipv6PayloadLenOfs)
          (sub32 (sub32 (← pktLenNow) etherHdrLen) ipv6HdrLen)
        return nextProtocol
      else return 0 : PktCmd Byte) m' := rfl
  rw [hrun]
  split
  · obtain ⟨next, m₁, m₂, hload, hstore, hlen, hbe16, hsame₂⟩ := replaceFields_same
      (q := q) (i := ipv4NextProtoIdOfs) (j := ipv4TotalLengthOfs)
      (v := sub32 m'.pktLen etherHdrLen) hsame hsegs hfit (by decide) (by decide)
    refine ⟨next, m₂, ?_, hsame₂⟩
    rw [run_bind hload, run_bind hstore, run_bind pktLenNow_run, hlen, run_bind hbe16]
    rfl
  split
  · obtain ⟨next, m₁, m₂, hload, hstore, hlen, hbe16, hsame₂⟩ := replaceFields_same
      (q := q) (i := ipv6ProtoOfs) (j := ipv6PayloadLenOfs)
      (v := sub32 (sub32 m'.pktLen etherHdrLen) ipv6HdrLen) hsame hsegs hfit (by decide)
      (by decide)
    refine ⟨next, m₂, ?_, hsame₂⟩
    rw [run_bind hload, run_bind hstore, run_bind pktLenNow_run, hlen, run_bind hbe16]
    rfl
  · exact ⟨0, m', rfl, hsame⟩

theorem memmove_same {dst src : Nat} (hsame : Same m m') (hsegs : m.segs = first :: rest)
    (hsrc : src + n ≤ first.buf.length) (hdst : dst + n ≤ first.buf.length) :
    ∃ m'', memmove 0 dst src n m' = .ok () m'' ∧ Same m m'' := by
  have hfirst : m.segs[0]? = some first := by
    rw [hsegs]
    rfl
  obtain ⟨bytes, hload, hlength⟩ := hsame.load hfirst hsrc
  obtain ⟨m'', hrun, hsame'⟩ := hsame.store hfirst (p := dst) (b := bytes) (by omega)
  refine ⟨m'', ?_, hsame'⟩
  rw [memmove, run_bind hload, hrun]

end Headers

section Encap

variable {first : Segment} {rule : EncryptRule} {mode : Mode} {swSnInc : Bool} {t nh : Nat}

/-- A chain with room for a header of `n` bytes in front and for a tail of `t` bytes in segment
`k`. -/
structure Extended (m m' : Mbuf) (first s : Segment) (rest : List Segment) (n t k : Nat) :
    Prop where
  head : ∃ first' rest', m'.segs = first' :: rest' ∧ first'.buf = first.buf ∧
    first'.dataOff = first.dataOff - n
  last : ∃ s', m'.segs[k]? = some s' ∧ s'.buf = s.buf
  single : k = 0 → rest = []
  packetType : m'.packetType = m.packetType
  pktLen : m'.pktLen = m.pktLen + n + t
  sum : m'.pktLen = dataLen m'.segs ↔ s.dataLen + headShare rest n + t < 2 ^ 16

theorem appendTail_grow (hm : Chain m) (hsegs : m.segs = first :: rest)
    (hlast : m.segs = front ++ [s]) (hroom : n ≤ first.dataOff) (ht : t < 2 ^ 15) :
    ∃ k m', appendTail t (grow m first rest n) = .ok (k, s.dataOff + s.dataLen) m' ∧
      Extended m m' first s rest n t k := by
  have hfits := hm.fits first (by rw [hsegs]; exact List.mem_cons_self)
  have hbuf := hm.buf first (by rw [hsegs]; exact List.mem_cons_self)
  have hlt := hm.pktLen_lt
  obtain ⟨front', s', hsegs', hbuf', hend, hlen'⟩ := grow_last hsegs hlast hroom
  have hpktLen : wrap32 (m.pktLen + n + t) = m.pktLen + n + t := Nat.mod_eq_of_lt (by omega)
  have hrun := appendTail_run (n := t) hsegs'
  rw [hend] at hrun
  refine ⟨front'.length, _, hrun, ?_, ?_, ?_, rfl, hpktLen, ?_⟩
  · cases front' with
    | nil =>
      obtain ⟨rfl, -⟩ := List.cons.inj hsegs'
      exact ⟨_, [], rfl, rfl, rfl⟩
    | cons u front' =>
      obtain ⟨rfl, -⟩ := List.cons.inj hsegs'
      exact ⟨_, _, rfl, rfl, rfl⟩
  · refine ⟨{ s' with dataLen := wrap16 (s'.dataLen + t) }, ?_, hbuf'⟩
    rw [lengthen, List.getElem?_append_right (Nat.le_refl _), Nat.sub_self]
    rfl
  · intro hk
    rw [List.eq_nil_of_length_eq_zero hk] at hsegs'
    exact (List.cons.inj hsegs').2
  · have hsum := grow_dataLen (n := n) hm hsegs
    rw [hsegs', dataLen_append, dataLen_cons, dataLen_nil] at hsum
    rw [lengthen, dataLen_append, dataLen_cons, dataLen_nil, ← hlen']
    change wrap32 (m.pktLen + n + t) = _ ↔ _
    rw [hpktLen]
    dsimp only
    unfold wrap16
    omega

theorem headShare_congr {rest' : List Segment} (h : rest' = [] ↔ rest = []) :
    headShare rest' = headShare rest := by
  funext i
  simp only [headShare, h]

theorem front_nil_iff (hfirst : m.segs = first :: rest) (hlast : m.segs = front ++ [s]) :
    front = [] ↔ rest = [] := by
  have hlength : (first :: rest).length = (front ++ [s]).length := by rw [← hfirst, hlast]
  rw [List.length_cons, List.length_append, List.length_singleton] at hlength
  rw [← List.length_eq_zero_iff, ← List.length_eq_zero_iff]
  omega

theorem shorten_first (hsegs : m.segs = first :: rest) (hlast : m.segs = front ++ [s]) :
    ∃ first' rest', (shorten m front s n).segs = first' :: rest' ∧ first'.buf = first.buf ∧
      first'.dataOff = first.dataOff ∧ (rest' = [] ↔ rest = []) := by
  cases front with
  | nil =>
    rw [hsegs, List.nil_append] at hlast
    obtain ⟨rfl, rfl⟩ := List.cons.inj hlast
    exact ⟨_, [], rfl, rfl, rfl, Iff.rfl⟩
  | cons u front =>
    rw [hsegs, List.cons_append] at hlast
    obtain ⟨rfl, rfl⟩ := List.cons.inj hlast
    exact ⟨first, _, rfl, rfl, rfl, by simp⟩

/-- Padding, with the ESP tail, for a packet whose trailing zeros are gone. -/
def paddingOf (mode : Mode) (m : Mbuf) (s : Segment) : Nat :=
  paddingLen (sub32 (m.pktLen - cut m s) (payloadOfs mode m.packetType (frame m)))

theorem icv_range (icv : IcvLength) : icv.bytes ≤ 16 := by
  cases icv <;> decide

theorem outerHdrLen_range (rule : EncryptRule) : 20 ≤ outerHdrLen rule ∧ outerHdrLen rule ≤ 40 := by
  unfold outerHdrLen
  split <;> decide

theorem encapLen_range (mode : Mode) (rule : EncryptRule) :
    16 ≤ encapLen mode rule ∧ encapLen mode rule ≤ 56 := by
  have houter := outerHdrLen_range rule
  cases mode <;> simp only [encapLen] <;> omega

theorem cut_le (m : Mbuf) (s : Segment) : cut m s ≤ s.dataLen := by
  unfold cut
  split
  · assumption
  · exact Nat.zero_le _

section Steps

variable {m₁ m₂ m₃ : Mbuf} {first₁ first₃ : Segment} {rest₁ rest₃ : List Segment}
  {padding trailerPointer : Nat}

/-- The trailer of a packet that has everything else. -/
def finish (rule : EncryptRule) (k trailerPointer padding : Nat) (next : Byte) :
    PktCmd EncryptRule := do
  writeTrailer k trailerPointer padding next
  return { rule with currentSn := rule.currentSn + 1 }

/-- The headers of a packet in transport mode, in front of `l` bytes of L2 and L3 headers. -/
def putTransportHeaders (rule : EncryptRule) (swSnInc udpTransport : Bool) (nh oh l : Nat) :
    PktCmd Byte := do
  memmove 0 nh oh l
  store 0 (nh + l) (transportEncap udpTransport rule swSnInc)
  replaceProtocol nh (transportProtocol udpTransport)

/-- The headers put in front of a packet; the next protocol for its trailer is returned. -/
def putHeaders (mode : Mode) (rule : EncryptRule) (swSnInc : Bool) (nh oh l : Nat) :
    PktCmd Byte :=
  match mode with
  | .tunnel => do
    writeTunnelHeader rule swSnInc nh
    return if rule.l3Type = .ip4 then ipprotoIpip else ipprotoIpv6
  | .transport => putTransportHeaders rule swSnInc false nh oh l
  | .udpTransport => putTransportHeaders rule swSnInc true nh oh l

theorem store_transportEncap (udpTransport : Bool) (rule : EncryptRule) (swSnInc : Bool)
    (hsame : Same m m') (hsegs : m.segs = first :: rest)
    (hfit : p + (if udpTransport = true then 24 else 16) ≤ first.buf.length) :
    ∃ m'', store 0 p (transportEncap udpTransport rule swSnInc) m' = .ok () m'' ∧ Same m m'' := by
  refine hsame.store (first_segment hsegs) ?_
  rw [length_transportEncap]
  exact hfit

theorem tunnel_finish (swSnInc : Bool) (hzeros : removeTrailingZeros lib m = .ok () m₁)
    (hprepend : pktmbufPrepend lib (outerHdrLen rule + 16) m₁ = .ok nh m₂)
    (hpadding : padding = paddingLen (sub32 m₁.pktLen 14))
    (htail : appendTail (wrap32 (padding + rule.saAttrs.icvLength.bytes)) m₂ =
      .ok (k, trailerPointer) m₃)
    (hsegs : m₃.segs = first₃ :: rest₃)
    (hfit : nh + (outerHdrLen rule + 16) + 14 ≤ first₃.buf.length) (oh l : Nat) :
    ∃ next m₄, putHeaders .tunnel rule swSnInc nh oh l m₃ = .ok next m₄ ∧ Same m₃ m₄ ∧
      preparePacketTunnel lib swSnInc rule m = finish rule k trailerPointer padding next m₄ := by
  have hlen : (if rule.encapL3Type = .ip4 then 50 else 70) - etherHdrLen =
      outerHdrLen rule + 16 := by
    simp only [outerHdrLen, etherHdrLen]
    split <;> rfl
  have hether : etherHdrLen = 14 := rfl
  obtain ⟨m₄, hheads, hsame⟩ := writeTunnelHeader_same swSnInc (Same.refl m₃) hsegs hfit
  refine ⟨if rule.l3Type = .ip4 then ipprotoIpip else ipprotoIpv6, m₄, run_bind hheads, hsame, ?_⟩
  rw [preparePacketTunnel]
  dsimp only
  rw [run_bind hzeros, run_bind pktLenNow_run, hlen, run_bind hprepend, hether, ← hpadding,
    run_bind htail]
  dsimp only
  rw [run_bind hheads]
  rfl

theorem transport_finish (udpTransport swSnInc : Bool)
    (hzeros : removeTrailingZeros lib m = .ok () m₁)
    (hsegs₁ : m₁.segs = first₁ :: rest₁) (hbyte : first₁.dataOff + 14 < first₁.buf.length)
    (hprepend : pktmbufPrepend lib (if udpTransport = true then 24 else 16) m₁ = .ok nh m₂)
    (hpadding : padding = paddingLen (sub32 m₁.pktLen (14 + hdrLen m₁)))
    (htail : appendTail (wrap32 (padding + rule.saAttrs.icvLength.bytes)) m₂ =
      .ok (k, trailerPointer) m₃)
    (hsegs : m₃.segs = first₃ :: rest₃) (hnh : nh + 34 ≤ first₃.buf.length)
    (hoh : first₁.dataOff + (hdrLen m₁ + 14) ≤ first₃.buf.length)
    (hfit : nh + (hdrLen m₁ + 14) + (if udpTransport = true then 24 else 16) ≤ first₃.buf.length) :
    ∃ next m₄, putTransportHeaders rule swSnInc udpTransport nh first₁.dataOff (hdrLen m₁ + 14) m₃ =
        .ok next m₄ ∧ Same m₃ m₄ ∧ preparePacketTransport lib swSnInc rule udpTransport m =
          finish rule k trailerPointer padding next m₄ := by
  have hether : etherHdrLen = 14 := rfl
  obtain ⟨m₄, hmove, hsame₄⟩ := memmove_same (n := hdrLen m₁ + 14) (Same.refl m₃) hsegs
    hoh (Nat.le_of_add_right_le hfit)
  obtain ⟨m₅, hstore, hsame₅⟩ := store_transportEncap udpTransport rule swSnInc hsame₄ hsegs hfit
  obtain ⟨next, m₆, hreplace, hsame₆⟩ := replaceProtocol_same
    (q := transportProtocol udpTransport) hsame₅ hsegs hnh
  refine ⟨next, m₆, (run_bind hmove).trans ((run_bind hstore).trans hreplace), hsame₆, ?_⟩
  rw [preparePacketTransport]
  dsimp only
  rw [run_bind hzeros, run_bind (mtod_run (first_segment hsegs₁)), run_bind (l3Len_run hsegs₁ hbyte),
    run_bind pktLenNow_run, run_bind hprepend, hether, Nat.add_comm (hdrLen m₁) 14, ← hpadding,
    run_bind htail]
  dsimp only
  rw [Nat.add_comm 14, run_bind hmove]
  refine (run_bind hstore).trans ?_
  exact run_bind hreplace

end Steps

/-- Up to the trailer nothing goes wrong once there is room for the header. -/
theorem preparePacket_finish (mode : Mode) (rule : EncryptRule) (swSnInc : Bool)
    (hlib : lib.Documented) (hm : Chain m) (hheaders : HeadersInBuffer m)
    (hfirst : m.segs = first :: rest) (hlast : m.segs = front ++ [s])
    (hroom : encapLen mode rule ≤ first.dataOff) : ∃ k m₃ m₄ next,
      Extended (shorten m front s (cut m s)) m₃ first { s with dataLen := s.dataLen - cut m s } rest
        (encapLen mode rule) (paddingOf mode m s + rule.saAttrs.icvLength.bytes) k ∧
      putHeaders mode rule swSnInc (first.dataOff - encapLen mode rule) first.dataOff
        (hdrLen m + 14) m₃ = .ok next m₄ ∧ Same m₃ m₄ ∧
      preparePacket lib mode swSnInc rule m =
        finish rule k (s.dataOff + (s.dataLen - cut m s)) (paddingOf mode m s) next m₄ := by
  have hzeros := removeTrailingZeros_run hlib hm hheaders hlast
  have hm₁ : Chain (shorten m front s (cut m s)) := hm.trim hlast (cut_le m s)
  have hlast₁ : (shorten m front s (cut m s)).segs =
      front ++ [{ s with dataLen := s.dataLen - cut m s }] := rfl
  obtain ⟨first₁, rest₁, hfirst₁, hbuf₁, hoff₁, hsingle⟩ :=
    shorten_first (n := cut m s) hfirst hlast
  have hhdr : hdrLen (shorten m front s (cut m s)) = hdrLen m := by
    rw [hdrLen, hdrLen, frame_eq hfirst₁, frame_eq hfirst, hbuf₁, hoff₁]
    rfl
  obtain ⟨first', rest', hfirst', h34, hlong⟩ := hheaders
  obtain ⟨rfl, -⟩ := List.cons.inj (hfirst.symm.trans hfirst')
  have hfits := hm.fits first (by rw [hfirst]; exact List.mem_cons_self)
  have hencap := encapLen_range mode rule
  have hpadding : paddingOf mode m s ≤ 5 := (paddingLen_range _).2
  have hicv := icv_range rule.saAttrs.icvLength
  have h32 : wrap32 (paddingOf mode m s + rule.saAttrs.icvLength.bytes) =
      paddingOf mode m s + rule.saAttrs.icvLength.bytes := Nat.mod_eq_of_lt (by omega)
  obtain ⟨k, m₃, htail, hext⟩ := appendTail_grow (n := encapLen mode rule)
    (t := paddingOf mode m s + rule.saAttrs.icvLength.bytes) hm₁ hfirst₁ hlast₁ (by omega) (by omega)
  rw [← h32] at htail
  have hprepend := prepend_grow (n := encapLen mode rule) hlib hm₁ hfirst₁ (by omega)
  obtain ⟨first₃, rest₃, hfirst₃, hbuf₃, hoff₃⟩ := hext.head
  have hbuf : first₃.buf.length = first.buf.length := by rw [hbuf₃, hbuf₁]
  have hext' : Extended (shorten m front s (cut m s)) m₃ first
      { s with dataLen := s.dataLen - cut m s } rest (encapLen mode rule)
      (paddingOf mode m s + rule.saAttrs.icvLength.bytes) k := by
    refine ⟨⟨first₃, rest₃, hfirst₃, hbuf₃.trans hbuf₁, by rw [hoff₃, hoff₁]⟩, hext.last,
      fun hk => hsingle.mp (hext.single hk), hext.packetType, hext.pktLen, ?_⟩
    rw [← headShare_congr hsingle]
    exact hext.sum
  cases mode with
  | tunnel =>
    obtain ⟨next, m₄, hheads, hsame, hrun⟩ := tunnel_finish swSnInc hzeros hprepend rfl htail
      hfirst₃ (by simp only [encapLen] at hroom ⊢; omega) first.dataOff (hdrLen m + 14)
    rw [hoff₁] at hheads
    exact ⟨k, m₃, m₄, next, hext', hheads, hsame, hrun⟩
  | transport =>
    simp only [encapLen] at hroom
    obtain ⟨next, m₄, hheads, hsame, hrun⟩ := transport_finish false swSnInc hzeros hfirst₁
      (by rw [hbuf₁]; omega) hprepend (by rw [hhdr]; rfl) htail hfirst₃
      (by simp only [encapLen]; omega) (by omega)
      (by simp only [encapLen, Bool.false_eq_true, ↓reduceIte]; omega)
    rw [hoff₁, hhdr] at hheads
    exact ⟨k, m₃, m₄, next, hext', hheads, hsame, hrun⟩
  | udpTransport =>
    simp only [encapLen] at hroom
    obtain ⟨next, m₄, hheads, hsame, hrun⟩ := transport_finish true swSnInc hzeros hfirst₁
      (by rw [hbuf₁]; omega) hprepend (by rw [hhdr]; rfl) htail hfirst₃
      (by simp only [encapLen]; omega) (by omega)
      (by simp only [encapLen, ↓reduceIte]; omega)
    rw [hoff₁, hhdr] at hheads
    exact ⟨k, m₃, m₄, next, hext', hheads, hsame, hrun⟩

/-- The header does not fit in front of the packet. -/
def NoHeadroom (mode : Mode) (rule : EncryptRule) (m : Mbuf) : Prop :=
  ∃ first rest, m.segs = first :: rest ∧ first.dataOff < encapLen mode rule

theorem preparePacket_short (mode : Mode) (rule : EncryptRule) (swSnInc : Bool)
    (hlib : lib.Documented) (hm : Chain m) (hheaders : HeadersInBuffer m)
    (hfirst : m.segs = first :: rest) (hshort : first.dataOff < encapLen mode rule) :
    ∃ m', preparePacket lib mode swSnInc rule m = .error (.doca .noMemory) m' := by
  obtain ⟨front, s, hlast⟩ := hm.last
  have hzeros := removeTrailingZeros_run hlib hm hheaders hlast
  obtain ⟨first₁, rest₁, hfirst₁, hbuf₁, hoff₁, -⟩ := shorten_first (n := cut m s) hfirst hlast
  obtain ⟨first', rest', hfirst', h34, -⟩ := hheaders
  obtain ⟨rfl, -⟩ := List.cons.inj (hfirst.symm.trans hfirst')
  have hfits := hm.fits first (by rw [hfirst]; exact List.mem_cons_self)
  have hbyte : first₁.dataOff + 14 < first₁.buf.length := by
    rw [hbuf₁]
    omega
  have hencap := encapLen_range mode rule
  have hprepend : ∀ n, n = encapLen mode rule →
      pktmbufPrepend lib n (shorten m front s (cut m s)) =
        .error (.doca .noMemory) (shorten m front s (cut m s)) := by
    intro n hn
    exact prepend_short hlib hfirst₁ (by omega) (by omega)
  refine ⟨shorten m front s (cut m s), ?_⟩
  cases mode with
  | tunnel =>
    rw [preparePacket, preparePacketTunnel]
    dsimp only
    rw [run_bind hzeros, run_bind pktLenNow_run]
    refine run_bind_error (hprepend _ ?_)
    simp only [encapLen, outerHdrLen, etherHdrLen]
    split <;> rfl
  | transport =>
    rw [preparePacket, preparePacketTransport]
    dsimp only
    rw [run_bind hzeros, run_bind (mtod_run (first_segment hfirst₁)),
      run_bind (l3Len_run hfirst₁ hbyte), run_bind pktLenNow_run]
    exact run_bind_error (hprepend _ rfl)
  | udpTransport =>
    rw [preparePacket, preparePacketTransport]
    dsimp only
    rw [run_bind hzeros, run_bind (mtod_run (first_segment hfirst₁)),
      run_bind (l3Len_run hfirst₁ hbyte), run_bind pktLenNow_run]
    exact run_bind_error (hprepend _ rfl)

/-- With room in front the outcome depends on the room behind. -/
theorem preparePacket_outcome (mode : Mode) (rule : EncryptRule) (swSnInc : Bool)
    (hlib : lib.Documented) (hm : Chain m) (hheaders : HeadersInBuffer m)
    (hfirst : m.segs = first :: rest) (hlast : m.segs = front ++ [s])
    (hroom : encapLen mode rule ≤ first.dataOff) :
    (s.dataOff + (s.dataLen - cut m s) + paddingOf mode m s ≤ s.buf.length →
      ∃ r m', preparePacket lib mode swSnInc rule m = .ok r m' ∧
        m'.pktLen = m.pktLen - cut m s + encapLen mode rule +
          (paddingOf mode m s + rule.saAttrs.icvLength.bytes) ∧
        (m'.pktLen = dataLen m'.segs ↔ s.dataLen - cut m s + headShare front (encapLen mode rule) +
          (paddingOf mode m s + rule.saAttrs.icvLength.bytes) < 2 ^ 16)) ∧
    (¬ s.dataOff + (s.dataLen - cut m s) + paddingOf mode m s ≤ s.buf.length →
      ∃ m', preparePacket lib mode swSnInc rule m = .error .fault m') := by
  obtain ⟨k, m₃, m₄, next, hext, -, hsame, hrun⟩ :=
    preparePacket_finish mode rule swSnInc hlib hm hheaders hfirst hlast hroom
  obtain ⟨s₃, hlast₃, hbuf₃⟩ := hext.last
  obtain ⟨hlo, hhi⟩ := paddingLen_range
    (sub32 (m.pktLen - cut m s) (payloadOfs mode m.packetType (frame m)))
  rw [hrun, ← hbuf₃]
  constructor
  · intro hfit
    obtain ⟨m', hwrite, hsame'⟩ := writeTrailer_fits next hsame hlast₃ hlo hhi hfit
    refine ⟨{ rule with currentSn := rule.currentSn + 1 }, m', ?_, ?_, ?_⟩
    · rw [finish]
      exact run_bind hwrite
    · rw [hsame'.pktLen, hext.pktLen]
      rfl
    · rw [hsame'.pktLen, hsame'.dataLen, hext.sum, headShare_congr (front_nil_iff hfirst hlast)]
  · intro hfit
    obtain ⟨m', hwrite⟩ := writeTrailer_fault next hsame hlast₃ hlo hhi hfit
    exact ⟨m', run_bind_error hwrite⟩

end Encap

/-- An IPv4 packet of 60 bytes with this length in its header. -/
def ipv4Frame (totalLength : Byte) : List Byte :=
  List.replicate 12 0 ++ [0x08, 0x00, 0x45, 0, 0, totalLength] ++ List.replicate 42 0

end DocaApps.Proofs.PacketPrepared
