import DocaApps.Proofs.PacketPrepared

namespace DocaApps.Proofs.PacketInside
open Common.Pack Lib.Overwrite Lib.Command Ipsec.Rules Ipsec.MbufChain Ipsec.PacketEncap
open Proofs.MbufChain Proofs.PacketParts Proofs.PacketChain Proofs.PacketRoundTrip
open Proofs.PacketPrepared

/-- The first segment holds the Ethernet header and the IP header. -/
def HoldsHeaders (m : Mbuf) : Prop :=
  ∃ s rest, m.segs = s :: rest ∧ 34 ≤ s.dataLen ∧ 14 + hdrLen m ≤ s.dataLen

theorem HoldsHeaders.inBuffer {m : Mbuf} (h : HoldsHeaders m) (hm : Chain m) :
    HeadersInBuffer m := by
  obtain ⟨s, rest, hsegs, h34, hhdr⟩ := h
  have hfits := hm.fits s (by rw [hsegs]; exact List.mem_cons_self)
  exact ⟨s, rest, hsegs, by omega, by omega⟩

section Inside

/-- The subtractions of lengths that `remove_trailing_zeros` makes. -/
def zerosSubtractions (m : Mbuf) : List (Nat × Nat) :=
  if isIpv4Hdr m.packetType = true then
    [(ipLength m, hdrLen m), (m.pktLen, hdrLen m + etherHdrLen),
      (sub32 m.pktLen (hdrLen m + etherHdrLen), sub32 (ipLength m) (hdrLen m))]
  else
    [(m.pktLen, ipv6HdrLen + etherHdrLen),
      (sub32 m.pktLen (ipv6HdrLen + etherHdrLen), ipLength m - 40)]

/-- The header whose length is written has no part in the length. -/
def uncounted (mode : Mode) (rule : EncryptRule) (m : Mbuf) : Nat :=
  match mode with
  | .tunnel => if rule.encapL3Type = .ip4 then 0 else ipv6HdrLen
  | .transport | .udpTransport =>
    if isIpv4Hdr m.packetType = true then 0
    else if isIpv6Hdr m.packetType = true then ipv6HdrLen else 0

/-- Those of the functions that prepare a packet, from the chain without trailing zeros to the
one that is sent. -/
def encapSubtractions (mode : Mode) (rule : EncryptRule) (m m' : Mbuf) : List (Nat × Nat) :=
  let payloadLen := sub32 m.pktLen (payloadOfs mode m.packetType (frame m))
  [(m.pktLen, payloadOfs mode m.packetType (frame m)),
    (alignCeil (wrap32 (payloadLen + espTailLen)), payloadLen),
    (paddingLen payloadLen, espTailLen), (m'.pktLen, etherHdrLen),
    (sub32 m'.pktLen etherHdrLen, uncounted mode rule m)]

/-- No subtraction wraps, and what was removed lies behind the IP packet. -/
structure Prepared (lib : MbufLib) (mode : Mode) (rule : EncryptRule) (m m' : Mbuf) : Prop where
  sum : m'.pktLen = dataLen m'.segs
  zeros : ∀ p ∈ zerosSubtractions m, p.2 ≤ p.1
  removed : ∃ m₁, removeTrailingZeros lib m = .ok () m₁ ∧
    (∀ p ∈ encapSubtractions mode rule m₁ m', p.2 ≤ p.1) ∧
    m₁.data = m.data.take m₁.pktLen ∧ (m₁.pktLen < m.pktLen → 14 + ipLength m ≤ m₁.pktLen)

/-- A call that returns an error, or a chain that was prepared inside its buffers. -/
def StaysInside (lib : MbufLib) (mode : Mode) (swSnInc : Bool) (rule : EncryptRule) (m : Mbuf) :
    Prop :=
  match preparePacket lib mode swSnInc rule m with
  | .ok _ m' => Prepared lib mode rule m m'
  | .error (.doca _) _ => True
  | .error .fault _ => False

/-- The IP header speaks of a packet that holds the header and ends inside the chain. -/
def LengthsFit (m : Mbuf) : Prop := hdrLen m ≤ ipLength m ∧ 14 + ipLength m ≤ m.pktLen

/-- The padding fits behind the packet, and the length of the last segment its field. -/
def TailFits (mode : Mode) (rule : EncryptRule) (m : Mbuf) : Prop :=
  ∃ front s, m.segs = front ++ [s] ∧
    s.dataOff + (s.dataLen - cut m s) + paddingOf mode m s ≤ s.buf.length ∧
    s.dataLen - cut m s + headShare front (encapLen mode rule) +
      (paddingOf mode m s + rule.saAttrs.icvLength.bytes) < 2 ^ 16

variable {lib : MbufLib} {m m' : Mbuf} {s first : Segment} {rest front : List Segment} {n : Nat}
  {rule : EncryptRule} {mode : Mode} {swSnInc : Bool}

theorem data_shorten (hm : Chain m) (hlast : m.segs = front ++ [s]) (hn : n ≤ s.dataLen) :
    (shorten m front s n).data = m.data.take (shorten m front s n).pktLen := by
  have hfits : ∀ t ∈ front, t.dataOff + t.dataLen ≤ t.buf.length := by
    intro t ht
    exact hm.fits t (by rw [hlast]; exact List.mem_append_left _ ht)
  have hsum := hm.pktLen
  rw [hlast, dataLen_append, dataLen_cons, dataLen_nil] at hsum
  have hlen : (shorten m front s n).pktLen =
      (front.flatMap Segment.data).length + (s.dataLen - n) := by
    rw [length_flatMap_data hfits]
    change m.pktLen - n = _
    omega
  rw [hlen, Mbuf.data, Mbuf.data, hlast, shorten, List.flatMap_append, List.flatMap_append,
    List.take_length_add_append]
  congr 1
  simp only [List.flatMap_cons, List.flatMap_nil, List.append_nil, Segment.data, slice,
    List.take_take]
  congr 1
  omega

theorem zerosSubtractions_iff (hm : Chain m) :
    (∀ p ∈ zerosSubtractions m, p.2 ≤ p.1) ↔ LengthsFit m := by
  have hlt := hm.pktLen_lt
  have hip := ipLength_lt m
  have hle := hdrLen_le m
  unfold zerosSubtractions LengthsFit etherHdrLen ipv6HdrLen
  split
  · simp only [List.forall_mem_cons, List.not_mem_nil, IsEmpty.forall_iff, implies_true, and_true]
    unfold sub32
    omega
  · rename_i h4
    have hsix : hdrLen m = 40 := if_neg h4
    have hipv6 : 40 ≤ ipLength m := by
      rw [ipLength, ipLen, if_neg h4]
      exact Nat.le_add_right _ _
    simp only [List.forall_mem_cons, List.not_mem_nil, IsEmpty.forall_iff, implies_true, and_true]
    unfold sub32
    omega

/-- There is always a header as long as what is not counted. -/
theorem uncounted_le (mode : Mode) (rule : EncryptRule) {m m₁ : Mbuf}
    (htype : m₁.packetType = m.packetType) :
    uncounted mode rule m₁ ≤ ipLength m + encapLen mode rule := by
  have htransport : (if isIpv4Hdr m₁.packetType = true then 0
      else if isIpv6Hdr m₁.packetType = true then ipv6HdrLen else 0) ≤ ipLength m := by
    rw [htype]
    unfold ipLength ipLen
    split
    · exact Nat.zero_le _
    · split
      · exact Nat.le_add_right _ _
      · exact Nat.zero_le _
  cases mode with
  | tunnel =>
    simp only [uncounted, encapLen, outerHdrLen]
    split
    · exact Nat.zero_le _
    · unfold ipv6HdrLen
      omega
  | transport => exact htransport.trans (Nat.le_add_right _ _)
  | udpTransport => exact htransport.trans (Nat.le_add_right _ _)

theorem encapSubtractions_le {m₁ : Mbuf} (hm₁ : m₁.pktLen + 131070 < 2 ^ 32)
    (hofs : payloadOfs mode m₁.packetType (frame m₁) ≤ m₁.pktLen)
    (h14 : 14 + uncounted mode rule m₁ ≤ m'.pktLen) (hm' : m'.pktLen < 2 ^ 32) :
    ∀ p ∈ encapSubtractions mode rule m₁ m', p.2 ≤ p.1 := by
  have hpadding := paddingLen_range (sub32 m₁.pktLen (payloadOfs mode m₁.packetType (frame m₁)))
  have hsub : sub32 m₁.pktLen (payloadOfs mode m₁.packetType (frame m₁)) ≤ m₁.pktLen := by
    unfold sub32
    omega
  unfold encapSubtractions
  simp only [List.forall_mem_cons, List.not_mem_nil, IsEmpty.forall_iff, implies_true, and_true]
  refine ⟨hofs, ?_, hpadding.1, ?_, ?_⟩
  · unfold alignCeil wrap32 paddingAlign espTailLen
    omega
  · unfold etherHdrLen
    omega
  · unfold sub32 etherHdrLen
    omega

theorem prepared_of_fit (hlib : lib.Documented) (hm : Chain m) (hheaders : HeadersInBuffer m)
    (hlast : m.segs = front ++ [s]) (hfit : LengthsFit m)
    (hlen : m'.pktLen = m.pktLen - cut m s + encapLen mode rule +
      (paddingOf mode m s + rule.saAttrs.icvLength.bytes))
    (hsum : m'.pktLen = dataLen m'.segs) : Prepared lib mode rule m m' := by
  have hlt := hm.pktLen_lt
  have hencap := encapLen_range mode rule
  have hpadding : paddingOf mode m s ≤ 5 := (paddingLen_range _).2
  have hicv := icv_range rule.saAttrs.icvLength
  have hcut : cut m s ≤ m.pktLen - (14 + ipLength m) := by
    have hfit' := hfit.2
    have hzeros : zeros m ≤ m.pktLen - (14 + ipLength m) := by
      unfold zeros wrap16 sub32
      omega
    unfold cut
    split
    · exact hzeros
    · exact Nat.zero_le _
  obtain ⟨first, rest, hfirst, -, -⟩ := id hheaders
  obtain ⟨first₁, rest₁, hfirst₁, hbuf₁, hoff₁, -⟩ := shorten_first (n := cut m s) hfirst hlast
  have hframe : frame (shorten m front s (cut m s)) = frame m := by
    rw [frame_eq hfirst₁, frame_eq hfirst, hbuf₁, hoff₁]
  have hpktLen : (shorten m front s (cut m s)).pktLen = m.pktLen - cut m s := rfl
  have hip := hfit.2
  have hhdrs := hfit.1
  have hofs : payloadOfs mode (shorten m front s (cut m s)).packetType
      (frame (shorten m front s (cut m s))) ≤ (shorten m front s (cut m s)).pktLen := by
    rw [hframe, hpktLen]
    have hle : payloadOfs mode m.packetType (frame m) ≤ 14 + hdrLen m := by
      cases mode
      · exact Nat.le_add_right _ _
      all_goals exact Nat.le_refl _
    exact hle.trans (by omega)
  refine ⟨hsum, (zerosSubtractions_iff hm).mpr hfit, _,
    removeTrailingZeros_run hlib hm hheaders hlast, ?_,
    data_shorten hm hlast (cut_le m s), ?_⟩
  · refine encapSubtractions_le ?_ hofs ?_ ?_
    · rw [hpktLen]
      omega
    · have huncounted : uncounted mode rule (shorten m front s (cut m s)) ≤
          ipLength m + encapLen mode rule := uncounted_le mode rule rfl
      omega
    · omega
  · intro _
    rw [hpktLen]
    omega

/-- A packet is prepared inside its buffers, or refused, exactly when there is no room for the
header in front of it, or its header says lengths that fit the chain and there is room for the
padding behind it. -/
theorem preparePacket_staysInside_iff (hlib : lib.Documented) (hm : Chain m)
    (hheaders : HoldsHeaders m) : StaysInside lib mode swSnInc rule m ↔
      NoHeadroom mode rule m ∨ LengthsFit m ∧ TailFits mode rule m := by
  obtain ⟨front, s, hlast⟩ := hm.last
  obtain ⟨first, rest, hfirst, -, -⟩ := id hheaders
  have hinBuffer := hheaders.inBuffer hm
  by_cases hshort : first.dataOff < encapLen mode rule
  · obtain ⟨m', hrun⟩ := preparePacket_short mode rule swSnInc hlib hm hinBuffer hfirst hshort
    unfold StaysInside
    rw [hrun]
    exact iff_of_true trivial (.inl ⟨first, rest, hfirst, hshort⟩)
  have hroom : ¬ NoHeadroom mode rule m := by
    rintro ⟨first', rest', hfirst', hlt⟩
    obtain ⟨rfl, -⟩ := List.cons.inj (hfirst.symm.trans hfirst')
    exact hshort hlt
  have htail : TailFits mode rule m ↔
      s.dataOff + (s.dataLen - cut m s) + paddingOf mode m s ≤ s.buf.length ∧
      s.dataLen - cut m s + headShare front (encapLen mode rule) +
        (paddingOf mode m s + rule.saAttrs.icvLength.bytes) < 2 ^ 16 := by
    constructor
    · rintro ⟨front', s', hlast', hfit⟩
      obtain ⟨rfl, hs⟩ := List.append_inj' (hlast.symm.trans hlast') rfl
      obtain ⟨rfl, -⟩ := List.cons.inj hs
      exact hfit
    · intro hfit
      exact ⟨front, s, hlast, hfit⟩
  rw [or_iff_right hroom, htail]
  obtain ⟨hin, hout⟩ := preparePacket_outcome mode rule swSnInc hlib hm hinBuffer hfirst hlast
    (Nat.not_lt.mp hshort)
  by_cases hfit : s.dataOff + (s.dataLen - cut m s) + paddingOf mode m s ≤ s.buf.length
  · obtain ⟨r, m', hrun, hlen, hsum⟩ := hin hfit
    unfold StaysInside
    rw [hrun]
    constructor
    · intro h
      exact ⟨(zerosSubtractions_iff hm).mp h.zeros, hfit, hsum.mp h.sum⟩
    · intro h
      exact prepared_of_fit hlib hm hinBuffer hlast h.1 hlen (hsum.mpr h.2.2)
  · obtain ⟨m', hrun⟩ := hout hfit
    unfold StaysInside
    rw [hrun]
    exact iff_of_false id fun h => hfit h.2.1

set_option maxRecDepth 4096 in
theorem preparePacket_staysInside_udp_frame : StaysInside inlineLib .tunnel true udpRule
    (single (List.replicate 128 0 ++ udpFrame ++ List.replicate 64 0) 128 60 0x10#32) := by
  have hm : Chain (single (List.replicate 128 0 ++ udpFrame ++ List.replicate 64 0) 128 60
      0x10#32) :=
    ⟨by decide, by decide, by decide +kernel, by decide +kernel, by decide +kernel⟩
  refine (preparePacket_staysInside_iff inlineLib_documented hm
    ⟨_, [], rfl, by decide, by decide +kernel⟩).mpr (.inr ⟨?_, [], _, rfl, ?_, ?_⟩)
  · exact ⟨by decide +kernel, by decide +kernel⟩
  · decide +kernel
  · decide +kernel

/-- A packet that the preparation does not stay inside of. -/
def PreparedOutside (m : Mbuf) : Prop :=
  Chain m ∧ HoldsHeaders m ∧ ¬ StaysInside inlineLib .transport true udpRule m

set_option maxRecDepth 4096 in
/-- The padding is written behind a buffer that ends with the packet, and with a total length
of ten bytes the length of the payload wraps. -/
theorem prepared_outside : PreparedOutside (single (List.replicate 128 0 ++ ipv4Frame 46) 128 60
      0x10#32) ∧
    PreparedOutside (single (List.replicate 128 0 ++ ipv4Frame 10 ++ List.replicate 64 0) 128 60
      0x10#32) := by
  constructor
  · have hchain : Chain (single (List.replicate 128 0 ++ ipv4Frame 46) 128 60 0x10#32) :=
      ⟨by decide, by decide, by decide +kernel, by decide +kernel, by decide +kernel⟩
    have hheaders : HoldsHeaders (single (List.replicate 128 0 ++ ipv4Frame 46) 128 60 0x10#32) :=
      ⟨_, [], rfl, by decide, by decide +kernel⟩
    obtain ⟨m', hrun⟩ := (preparePacket_outcome .transport udpRule true
      inlineLib_documented hchain (hheaders.inBuffer hchain) rfl (List.nil_append _).symm
      (by decide)).2 (by decide +kernel)
    refine ⟨hchain, hheaders, ?_⟩
    unfold StaysInside
    rw [hrun]
    exact id
  · have hchain : Chain (single (List.replicate 128 0 ++ ipv4Frame 10 ++ List.replicate 64 0) 128 60
        0x10#32) :=
      ⟨by decide, by decide, by decide +kernel, by decide +kernel, by decide +kernel⟩
    have hheaders : HoldsHeaders (single (List.replicate 128 0 ++ ipv4Frame 10 ++
        List.replicate 64 0) 128 60 0x10#32) :=
      ⟨_, [], rfl, by decide, by decide +kernel⟩
    obtain ⟨r, m', hrun, -⟩ := (preparePacket_outcome .transport udpRule true
      inlineLib_documented hchain (hheaders.inBuffer hchain) rfl (List.nil_append _).symm
      (by decide)).1 (by decide +kernel)
    refine ⟨hchain, hheaders, ?_⟩
    unfold StaysInside
    rw [hrun]
    intro h
    have hzeros := h.zeros
    exact absurd hzeros (by decide +kernel)

end Inside

end DocaApps.Proofs.PacketInside
