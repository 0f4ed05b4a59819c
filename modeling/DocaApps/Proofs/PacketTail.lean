import DocaApps.Proofs.PacketChain
import DocaApps.Proofs.PacketRoundTrip

namespace DocaApps.Proofs.PacketTail
open Common.Pack Lib.Overwrite Lib.Command Ipsec.MbufChain Ipsec.PacketDecap Proofs.PacketChain
open Proofs.PacketRoundTrip

/-- The byte in front of the next protocol of a packet that ends with an ESP tail and an
ICV. -/
def padLen (icvLen : Nat) (data : List Byte) : Nat :=
  (data.getD (data.length - (icvLen + espTailLen)) 0).toNat

/-- The padding, the ESP tail and the ICV are gone, and nothing else. -/
structure TailRemoved (icvLen : Nat) (old m : Mbuf) : Prop where
  payload : icvLen + espTailLen + padLen icvLen old.data ≤ old.pktLen
  pktLen : m.pktLen = old.pktLen - (icvLen + espTailLen + padLen icvLen old.data)
  sum : m.pktLen = dataLen m.segs
  data : m.data = old.data.take m.pktLen

/-- A call that removes the tail of a chain, or is refused and leaves it as it is. -/
def RemovesTail (icvLen : Nat) (old : Mbuf) (r : EStateM.Result Stop Mbuf Byte) : Prop :=
  match r with
  | .ok _ m => TailRemoved icvLen old m
  | .error (.doca _) m => m = old
  | .error .fault _ => False

/-- The padding, the ESP tail and the ICV are in one segment, and those behind it hold
nothing. -/
def TailInOneSegment (icvLen : Nat) (m : Mbuf) : Prop :=
  ∃ front s back, m.segs = front ++ s :: back ∧ dataLen back = 0 ∧
    icvLen + espTailLen + padLen icvLen s.data ≤ s.dataLen

variable {lib : MbufLib} {m old : Mbuf} {s : Segment} {segs front back : List Segment}
  {icvLen k ofs : Nat}

theorem segOfsLoop_eq (hlo : dataLen front ≤ ofs) (hhi : ofs < dataLen front + s.dataLen) :
    segOfsLoop (front ++ s :: back) k ofs = some (k + front.length, ofs - dataLen front) := by
  induction front generalizing k ofs with
  | nil =>
    rw [dataLen_nil, Nat.zero_add] at hhi
    simp [segOfsLoop, Nat.not_le.mpr hhi]
  | cons t front ih =>
    rw [dataLen_cons] at hlo hhi
    have hskip : t.dataLen ≤ ofs := by omega
    have hrest := @ih (k + 1) (ofs - t.dataLen) (by omega) (by omega)
    simp only [List.cons_append, segOfsLoop, if_pos hskip, hrest, List.length_cons, dataLen_cons]
    congr 2
    · omega
    · omega

/-- Every offset inside a chain is in one of its segments. -/
theorem exists_segment (h : ofs < dataLen segs) : ∃ front s back, segs = front ++ s :: back ∧
    dataLen front ≤ ofs ∧ ofs < dataLen front + s.dataLen := by
  induction segs generalizing ofs with
  | nil => simp at h
  | cons t segs ih =>
    rw [dataLen_cons] at h
    rcases Nat.lt_or_ge ofs t.dataLen with hhere | hlater
    · exact ⟨[], t, segs, rfl, by simp, by simpa using hhere⟩
    · obtain ⟨front, s, back, rfl, hlo, hhi⟩ := @ih (ofs - t.dataLen) (by omega)
      refine ⟨t :: front, s, back, rfl, ?_, ?_⟩
      · rw [dataLen_cons]
        omega
      · rw [dataLen_cons]
        omega

/-- The offset decides which segment it is. -/
theorem segment_unique {front' back' : List Segment} {s' : Segment}
    (heq : front ++ s :: back = front' ++ s' :: back') (hlo : dataLen front ≤ ofs)
    (hhi : ofs < dataLen front + s.dataLen) (hlo' : dataLen front' ≤ ofs)
    (hhi' : ofs < dataLen front' + s'.dataLen) : front = front' ∧ s = s' ∧ back = back' := by
  have hloop : segOfsLoop (front ++ s :: back) 0 ofs = _ := segOfsLoop_eq hlo hhi
  rw [heq, segOfsLoop_eq (k := 0) hlo' hhi'] at hloop
  have hlength : front.length = front'.length := by
    have hinj := congrArg Prod.fst (Option.some.inj hloop)
    dsimp only at hinj
    omega
  obtain ⟨hfront, hrest⟩ := List.append_inj heq hlength
  obtain ⟨hs, hback⟩ := List.cons.inj hrest
  exact ⟨hfront, hs, hback⟩

theorem mbufGetSegOfs_run (hpktLen : m.pktLen = dataLen m.segs)
    (hsegs : m.segs = front ++ s :: back)
    (hlo : dataLen front ≤ ofs) (hhi : ofs < dataLen front + s.dataLen) :
    mbufGetSegOfs ofs m = .ok (front.length, ofs - dataLen front) m := by
  have hin : ¬ ofs ≥ m.pktLen := by
    rw [hpktLen, hsegs, dataLen_append, dataLen_cons]
    omega
  rw [mbufGetSegOfs, run_get, if_neg hin, hsegs, segOfsLoop_eq hlo hhi, Nat.zero_add]
  rfl

theorem mbufGetSegOfs_beyond (h : m.pktLen ≤ ofs) :
    mbufGetSegOfs ofs m = .error (.doca .invalidValue) m := by
  have hrun : mbufGetSegOfs ofs m = (throw (.doca .invalidValue) : PktCmd (Nat × Nat)) m := by
    exact congrFun (if_pos h) _
  exact hrun

theorem padLen_lt (data : List Byte) : padLen icvLen data < 256 := by
  unfold padLen
  exact BitVec.isLt _

theorem length_data (h : s.dataOff + s.dataLen ≤ s.buf.length) : s.data.length = s.dataLen :=
  length_slice h

theorem getD_data {i : Nat} (hi : i < s.dataLen) :
    s.data.getD i 0 = s.buf.getD (s.dataOff + i) 0 := by
  simp only [List.getD_eq_getElem?_getD, Segment.data, getElem?_slice, if_pos hi]

/-- The bytes of a segment among those of its chain. -/
theorem getD_flatMap_data {i : Nat} (hfits : ∀ t ∈ front ++ s :: back,
    t.dataOff + t.dataLen ≤ t.buf.length) (hi : i < s.dataLen) :
    ((front ++ s :: back).flatMap Segment.data).getD (dataLen front + i) 0 =
      s.data.getD i 0 := by
  have hfront : (front.flatMap Segment.data).length = dataLen front :=
    length_flatMap_data fun t ht => hfits t (List.mem_append_left _ ht)
  have hs : s.data.length = s.dataLen :=
    length_data (hfits s (List.mem_append_right _ List.mem_cons_self))
  simp only [List.getD_eq_getElem?_getD, List.flatMap_append, List.flatMap_cons]
  rw [List.getElem?_append_right (by omega), List.getElem?_append_left (by omega), hfront,
    Nat.add_sub_cancel_left]

/-- Every offset of a packet leads to the segment that holds it, and to the same byte there. -/
theorem mbuf_get_seg_ofs_holds (m : Mbuf) (ofs : Nat) (hpktLen : m.pktLen = dataLen m.segs)
    (hofs : ofs < m.pktLen) :
    ∃ front s back, m.segs = front ++ s :: back ∧ dataLen front ≤ ofs ∧
      ofs < dataLen front + s.dataLen ∧
      mbufGetSegOfs ofs m = .ok (front.length, ofs - dataLen front) m ∧
      ((∀ t ∈ m.segs, t.dataOff + t.dataLen ≤ t.buf.length) →
        m.data.getD ofs 0 = s.data.getD (ofs - dataLen front) 0) := by
  obtain ⟨front, s, back, hsegs, hlo, hhi⟩ := exists_segment (hpktLen ▸ hofs)
  refine ⟨front, s, back, hsegs, hlo, hhi, mbufGetSegOfs_run hpktLen hsegs hlo hhi, ?_⟩
  intro hfits
  rw [hsegs] at hfits
  have hbyte := getD_flatMap_data (i := ofs - dataLen front) hfits (by omega)
  rw [← hsegs, Nat.add_sub_cancel' hlo] at hbyte
  exact hbyte

/-- An empty segment between two others. -/
def emptyBetween : Mbuf :=
  ⟨[⟨[1, 2], 0, 2⟩, ⟨[3], 0, 0⟩, ⟨[4, 5], 1, 1⟩], 3, 0⟩

theorem mbuf_get_seg_ofs_empty : ∃ front s back, emptyBetween.segs = front ++ s :: back ∧
    dataLen front ≤ 2 ∧ 2 < dataLen front + s.dataLen ∧
    mbufGetSegOfs 2 emptyBetween = .ok (front.length, 2 - dataLen front) emptyBetween ∧
    ((∀ t ∈ emptyBetween.segs, t.dataOff + t.dataLen ≤ t.buf.length) →
      emptyBetween.data.getD 2 0 = s.data.getD (2 - dataLen front) 0) :=
  mbuf_get_seg_ofs_holds emptyBetween 2 rfl (by decide)

/-- The packet as `remove_packet_tail` leaves it, with this byte before the next protocol. -/
def cutTail (old : Mbuf) (front : List Segment) (s : Segment) (back : List Segment)
    (trailerLen ofs pad : Nat) : Mbuf :=
  { old with
    segs := front ++ { s with dataLen := wrap16 (sub32 ofs pad) } :: back
    pktLen := sub32 old.pktLen (trailerLen + pad) }

section Cut

variable (hold : Chain old) (hsegs : old.segs = front ++ s :: back)
  (hlen : old.pktLen = dataLen front + ofs + (icvLen + espTailLen)) (hin : ofs < s.dataLen)
include hold hsegs hlen hin

/-- The same byte, seen from the segment that ends the packet. -/
theorem padLen_segment (hback : dataLen back = 0) :
    padLen icvLen s.data = padLen icvLen old.data ∧ s.dataLen = ofs + (icvLen + espTailLen) := by
  have hsum := hold.pktLen
  have hfits := hold.fits
  rw [hsegs] at hsum hfits
  rw [dataLen_append, dataLen_cons, hback] at hsum
  have hs : s.data.length = s.dataLen :=
    length_data (hfits s (List.mem_append_right _ List.mem_cons_self))
  have hend : s.dataLen = ofs + (icvLen + espTailLen) := by omega
  refine ⟨?_, hend⟩
  have hbyte := getD_flatMap_data hfits hin
  rw [← hsegs] at hbyte
  rw [padLen, padLen, hold.length_data, hs, hlen, Nat.add_sub_cancel, hend, Nat.add_sub_cancel]
  exact congrArg BitVec.toNat hbyte.symm

theorem tailRemoved_cut (hback : dataLen back = 0) (hpad : padLen icvLen old.data ≤ ofs) :
    TailRemoved icvLen old
      (cutTail old front s back (icvLen + espTailLen) ofs (padLen icvLen old.data)) := by
  obtain ⟨-, hend⟩ := padLen_segment hold hsegs hlen hin hback
  have hlt := hold.pktLen_lt
  have hfits := hold.fits
  have hmem : s ∈ old.segs := by
    rw [hsegs]
    exact List.mem_append_right _ List.mem_cons_self
  have hdata16 := hold.dataLen_lt s hmem
  rw [hsegs] at hfits
  generalize hp : padLen icvLen old.data = pad at hpad
  have hpktLen : sub32 old.pktLen (icvLen + espTailLen + pad) = dataLen front + (ofs - pad) := by
    unfold sub32
    omega
  have hdataLen : wrap16 (sub32 ofs pad) = ofs - pad := by
    unfold wrap16 sub32
    omega
  refine ⟨?_, ?_, ?_, ?_⟩
  · omega
  · rw [cutTail, hp]
    dsimp only
    omega
  · rw [cutTail]
    simp only [dataLen_append, dataLen_cons, hback, hdataLen, hpktLen, Nat.add_zero]
  · have hfront : (front.flatMap Segment.data).length = dataLen front :=
      length_flatMap_data fun t ht => hfits t (List.mem_append_left _ ht)
    have hs : s.data.length = s.dataLen :=
      length_data (hfits s (List.mem_append_right _ List.mem_cons_self))
    have hempty : back.flatMap Segment.data = [] := by
      apply List.eq_nil_of_length_eq_zero
      rw [length_flatMap_data fun t ht => hfits t
        (List.mem_append_right _ (List.mem_cons_of_mem s ht)), hback]
    have hold' : old.data = front.flatMap Segment.data ++ s.data := by
      rw [Mbuf.data, hsegs, List.flatMap_append, List.flatMap_cons, hempty, List.append_nil]
    have hnew : Segment.data { s with dataLen := ofs - pad } = s.data.take (ofs - pad) := by
      rw [Segment.data, Segment.data, take_slice (by omega)]
    rw [cutTail, hold', hpktLen, hdataLen, Mbuf.data, List.flatMap_append, List.flatMap_cons,
      hempty, List.append_nil, hnew]
    dsimp only
    rw [← hfront, List.take_length_add_append]

theorem of_tailRemoved_cut (h : TailRemoved icvLen old
      (cutTail old front s back (icvLen + espTailLen) ofs (padLen icvLen old.data))) :
    dataLen back = 0 ∧ padLen icvLen old.data ≤ ofs := by
  have hlt := hold.pktLen_lt
  have hbyte : padLen icvLen old.data < 256 := padLen_lt old.data
  have hmem : s ∈ old.segs := by
    rw [hsegs]
    exact List.mem_append_right _ List.mem_cons_self
  have hdata16 := hold.dataLen_lt s hmem
  have hpayload := h.payload
  have hpktLen := h.pktLen
  have hsum := h.sum
  rw [cutTail] at hpktLen hsum
  dsimp only at hpktLen hsum
  rw [hpktLen, dataLen_append, dataLen_cons] at hsum
  dsimp only at hsum
  unfold wrap16 sub32 at hsum
  omega

end Cut

section Remove

variable (hold : Chain old) (hicv : icvLen + espTailLen < 2 ^ 32)
  (hzeros : removeTrailingZeros lib m = .ok () old)
include hold hicv hzeros

theorem removePacketTail_short (h : old.pktLen < icvLen + espTailLen) :
    removePacketTail lib icvLen m = .error (.doca .invalidValue) old := by
  have hlt := hold.pktLen_lt
  have hofs : old.pktLen ≤ sub32 old.pktLen (icvLen + espTailLen) := by
    unfold sub32
    omega
  rw [removePacketTail, run_bind hzeros, run_bind pktLenNow_run]
  simp only [bind, EStateM.bind, mbufGetSegOfs_beyond hofs]

section Found

variable (hsegs : old.segs = front ++ s :: back)
  (hlen : old.pktLen = dataLen front + ofs + (icvLen + espTailLen)) (hin : ofs < s.dataLen)
include hsegs hlen hin

theorem removePacketTail_found : removePacketTail lib icvLen m = (do
    let espTail ← load front.length (s.dataOff + ofs) espTailLen
    let padLen := (espTail.getD 0 0).toNat
    modify fun m => { m with pktLen := sub32 m.pktLen (icvLen + espTailLen + padLen) }
    setSegment front.length { s with dataLen := wrap16 (sub32 ofs padLen) }
    return espTail.getD 1 0 : PktCmd Byte) old := by
  have hlt := hold.pktLen_lt
  have hget : old.segs[front.length]? = some s := by
    rw [hsegs, List.getElem?_append_right (Nat.le_refl _), Nat.sub_self]
    rfl
  have hofs : sub32 old.pktLen (icvLen + espTailLen) = dataLen front + ofs := by
    unfold sub32
    omega
  rw [removePacketTail, run_bind hzeros, run_bind pktLenNow_run, hofs,
    run_bind (mbufGetSegOfs_run hold.pktLen hsegs (by omega) (by omega)), Nat.add_sub_cancel_left]
  dsimp only
  rw [run_bind (segment_run hget)]

/-- The packet is cut where the offset falls, by the byte that is found there. -/
theorem removePacketTail_cut (hfit : s.dataOff + ofs + espTailLen ≤ s.buf.length) :
    removePacketTail lib icvLen m = .ok ((slice s.buf (s.dataOff + ofs) espTailLen).getD 1 0)
      (cutTail old front s back (icvLen + espTailLen) ofs (padLen icvLen old.data)) := by
  have hget : old.segs[front.length]? = some s := by
    rw [hsegs, List.getElem?_append_right (Nat.le_refl _), Nat.sub_self]
    rfl
  have hpad : (slice s.buf (s.dataOff + ofs) espTailLen).getD 0 0 =
      old.data.getD (old.data.length - (icvLen + espTailLen)) 0 := by
    have hfits := hold.fits
    rw [hsegs] at hfits
    have hbyte := getD_flatMap_data hfits hin
    rw [getD_data hin, ← hsegs] at hbyte
    rw [hold.length_data, hlen, Nat.add_sub_cancel]
    refine Eq.trans ?_ hbyte.symm
    simp only [List.getD_eq_getElem?_getD, getElem?_slice, espTailLen, Nat.zero_lt_two,
      ↓reduceIte, Nat.add_zero]
  have hset : ∀ t, old.segs.set front.length t = front ++ t :: back := by
    intro t
    rw [hsegs, List.set_append_right _ _ (Nat.le_refl _), Nat.sub_self, List.set_cons_zero]
  rw [removePacketTail_found hold hicv hzeros hsegs hlen hin, run_bind (load_run hget hfit)]
  rw [hpad, cutTail, ← hset]
  rfl

theorem removePacketTail_fault (hfit : ¬ s.dataOff + ofs + espTailLen ≤ s.buf.length) :
    removePacketTail lib icvLen m = .error .fault old := by
  have hget : old.segs[front.length]? = some s := by
    rw [hsegs, List.getElem?_append_right (Nat.le_refl _), Nat.sub_self]
    rfl
  rw [removePacketTail_found hold hicv hzeros hsegs hlen hin]
  simp only [bind, EStateM.bind, load_fault hget hfit]

end Found

end Remove

/-- The tail of a packet is removed exactly when it all lies in one segment, unless the packet
is too short to have one. -/
theorem removePacketTail_removes_iff (hlib : lib.Documented) (hm : Chain m)
    (hicv : icvLen + espTailLen < 2 ^ 32) (hzeros : removeTrailingZeros lib m = .ok () old) :
    RemovesTail icvLen old (removePacketTail lib icvLen m) ↔
      old.pktLen < icvLen + espTailLen ∨ TailInOneSegment icvLen old := by
  have hold := hm.zerosRemoved hlib hzeros
  rcases Nat.lt_or_ge old.pktLen (icvLen + espTailLen) with hshort | hlong
  · rw [removePacketTail_short hold hicv hzeros hshort]
    exact ⟨fun _ => .inl hshort, fun _ => rfl⟩
  have htail : 0 < icvLen + espTailLen := Nat.add_pos_right _ (by decide)
  have hinside : old.pktLen - (icvLen + espTailLen) < dataLen old.segs := by
    rw [← hold.pktLen]
    omega
  obtain ⟨front, s, back, hsegs, hlo, hhi⟩ := exists_segment hinside
  obtain ⟨ofs, hlen⟩ : ∃ ofs, old.pktLen = dataLen front + ofs + (icvLen + espTailLen) :=
    ⟨old.pktLen - (icvLen + espTailLen) - dataLen front, by omega⟩
  have hin : ofs < s.dataLen := by omega
  have hone : TailInOneSegment icvLen old ↔ dataLen back = 0 ∧ padLen icvLen old.data ≤ ofs := by
    constructor
    · rintro ⟨front', s', back', hsegs', hback', hpad'⟩
      have hsum := hold.pktLen
      rw [hsegs', dataLen_append, dataLen_cons, hback'] at hsum
      obtain ⟨rfl, rfl, rfl⟩ := segment_unique (hsegs.symm.trans hsegs') hlo hhi (by omega)
        (by omega)
      obtain ⟨hbyte, hend⟩ := padLen_segment hold hsegs hlen hin hback'
      rw [hbyte] at hpad'
      exact ⟨hback', by omega⟩
    · rintro ⟨hback, hpad⟩
      obtain ⟨hbyte, hend⟩ := padLen_segment hold hsegs hlen hin hback
      refine ⟨front, s, back, hsegs, hback, ?_⟩
      rw [hbyte]
      omega
  rw [hone]
  by_cases hfit : s.dataOff + ofs + espTailLen ≤ s.buf.length
  · rw [removePacketTail_cut hold hicv hzeros hsegs hlen hin hfit]
    constructor
    · intro h
      exact .inr (of_tailRemoved_cut hold hsegs hlen hin h)
    · rintro (hshort | ⟨hback, hpad⟩)
      · omega
      · exact tailRemoved_cut hold hsegs hlen hin hback hpad
  · rw [removePacketTail_fault hold hicv hzeros hsegs hlen hin hfit]
    constructor
    · intro h
      exact h.elim
    · rintro (hshort | ⟨hback, hpad⟩)
      · omega
      · obtain ⟨-, hend⟩ := padLen_segment hold hsegs hlen hin hback
        have hfits := hold.fits s (by rw [hsegs]; exact List.mem_append_right _ List.mem_cons_self)
        omega

/-- An ESP packet without a payload, with this padding length in its tail and an ICV of eight
bytes, as it lies in the first segment and in the second one. -/
def espFrame (padLen : Byte) (rest : List Byte) : List Byte × List Byte :=
  (List.replicate 14 0 ++ [0x45, 0, 0, 46] ++ List.replicate 32 0 ++ [padLen, 4] ++
    List.replicate (8 - rest.length) 0xcc, rest)

def espChain (frame : List Byte × List Byte) : Mbuf :=
  ⟨[⟨frame.1, 0, frame.1.length⟩, ⟨frame.2, 0, frame.2.length⟩], 60, 0x10#32⟩

set_option maxRecDepth 4096 in
theorem removePacketTail_removes_one_segment :
    RemovesTail 8 (espChain (espFrame 0 []))
      (removePacketTail inlineLib 8 (espChain (espFrame 0 []))) := by
  refine (removePacketTail_removes_iff inlineLib_documented ⟨by decide, by decide,
    by decide +kernel, by decide +kernel, by decide +kernel⟩ (by decide) rfl).mpr
    (.inr ⟨[], ⟨(espFrame 0 []).1, 0, 60⟩, _, rfl, ?_, ?_⟩)
  · decide
  · decide +kernel

/-- A packet without trailing zeros whose tail is not what is removed. -/
def TailLeft (m : Mbuf) : Prop :=
  Chain m ∧ removeTrailingZeros inlineLib m = .ok () m ∧
    ¬ RemovesTail 8 m (removePacketTail inlineLib 8 m)

set_option maxRecDepth 4096 in
/-- Half of the ICV stays when it is in a segment of its own, and a padding length larger than
the packet is accepted. -/
theorem tail_not_removed :
    TailLeft (espChain (espFrame 0 [1, 2, 3, 4])) ∧ TailLeft (espChain (espFrame 200 [])) := by
  constructor
  · refine ⟨⟨by decide, by decide, by decide +kernel, by decide +kernel, by decide +kernel⟩,
      rfl, ?_⟩
    intro h
    have hsum := @TailRemoved.sum 8 _ _ h
    exact absurd hsum (by decide +kernel)
  · refine ⟨⟨by decide, by decide, by decide +kernel, by decide +kernel, by decide +kernel⟩,
      rfl, ?_⟩
    intro h
    have hpayload := @TailRemoved.payload 8 _ _ h
    exact absurd hpayload (by decide +kernel)

end DocaApps.Proofs.PacketTail
