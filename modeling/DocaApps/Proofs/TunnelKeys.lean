import DocaApps.Proofs.PacketBounds
import DocaApps.Proofs.FlowTable

namespace DocaApps.Proofs.TunnelKeys
open SimpleFwd.FlowTable SimpleFwd.Packet PacketBounds FlowTable

/-- The headers that a match is about in the end: the inner ones of a tunnel. -/
def innermost (m : EntryMatch) : MatchFormat := if m.tunType = .none then m.outer else m.inner

/-- The matches agree on the tunnel and on the addresses, protocol and ports of the innermost
headers. -/
structure Agree (m m' : EntryMatch) : Prop where
  tunType : m.tunType = m'.tunType
  tunId : m.tunId = m'.tunId
  innermost : innermost m = innermost m'

/-- The headers that the key of a packet is taken from. -/
def flowFields (data : Bytes) (p : Pinfo) : PktFormat :=
  if p.tun.type = .none then p.outer.fields data
  else p.inner.elim ⟨0, 0, 0, 0, 0, 0⟩ (Format.fields data)

/-- Two packets of one flow: addresses, protocol and ports are the same. -/
structure SameFlow (fmt fmt' : PktFormat) : Prop where
  src : fmt.srcAddr = fmt'.srcAddr
  dst : fmt.dstAddr = fmt'.dstAddr
  proto : fmt.l4Type = fmt'.l4Type
  srcPort : pinfoSrcPort fmt = pinfoSrcPort fmt'
  dstPort : pinfoDstPort fmt = pinfoDstPort fmt'

def gtpFlags (data : Bytes) (p : Pinfo) : BitVec 8 := peek data (p.outer.l4 + 8)
def gtpMsgType (data : Bytes) (p : Pinfo) : BitVec 8 := peek data (p.outer.l4 + 9)
def gtpTeid (data : Bytes) (p : Pinfo) : BitVec 32 := peek32 data (p.outer.l4 + 12)

variable {data data' : Bytes} {p p' : Pinfo} {port queue queue' : BitVec 16} {hash : UInt32}

theorem append_eq_iff {v w : Nat} {hi hi' : BitVec v} {lo lo' : BitVec w} :
    hi ++ lo = hi' ++ lo' ↔ hi = hi' ∧ lo = lo' := by
  refine ⟨fun h => ⟨?_, ?_⟩, fun ⟨hhi, hlo⟩ => by rw [hhi, hlo]⟩
  · rw [← BitVec.extractLsb'_append_eq_left (a := hi) (b := lo), h,
      BitVec.extractLsb'_append_eq_left]
  · rw [← BitVec.extractLsb'_append_eq_right (a := hi) (b := lo), h,
      BitVec.extractLsb'_append_eq_right]

/-- Equal keys are equal in all but the receive hash. -/
theorem keyEqual_fields {k k' : Key} : keyEqual k k' = true ↔
    (k.ipv42 = k'.ipv42 ∧ k.ipv41 = k'.ipv41) ∧
      (k.vni = k'.vni ∧ k.port2 = k'.port2 ∧ k.port1 = k'.port1) ∧
      k.portId = k'.portId ∧ k.tunType = k'.tunType ∧ k.protocol = k'.protocol := by
  have hports : k.port2 ++ k.port1 = k'.port2 ++ k'.port1 ↔
      k.port2 = k'.port2 ∧ k.port1 = k'.port1 := append_eq_iff
  have htypes : k.tunType ++ k.protocol = k'.tunType ++ k'.protocol ↔
      k.tunType = k'.tunType ∧ k.protocol = k'.protocol := append_eq_iff
  have hlow : k.portId ++ (k.tunType ++ k.protocol) = k'.portId ++ (k'.tunType ++ k'.protocol) ↔
      _ ∧ _ := append_eq_iff
  have h1 : k.words.1 = k'.words.1 ↔ _ ∧ _ := append_eq_iff (v := 32) (w := 32)
  have h2 : k.words.2.1 = k'.words.2.1 ↔ _ ∧ _ := append_eq_iff (v := 32) (w := 32)
  have h3 : k.words.2.2 = k'.words.2.2 ↔ _ ∧ _ := append_eq_iff (v := 32) (w := 32)
  rw [keyEqual_iff, Prod.ext_iff, Prod.ext_iff, h1, h2, h3, hports, hlow, htypes]
  simp only [true_and]

/-- The key of an accepted packet. -/
theorem keyFill_info (hip : p.outer.l3Type = ipv4) : keyFill (p.info data port queue hash) =
    some ⟨(flowFields data p).srcAddr, (flowFields data p).dstAddr,
      pinfoSrcPort (flowFields data p), pinfoDstPort (flowFields data p),
      if p.tun.type = .none then 0 else p.tun.first, (flowFields data p).l4Type,
      if p.tun.type = .none then 0 else p.tun.type.toByte, port, hash⟩ := by
  have hl3 : (p.info data port queue hash).outer.l3Type = ipv4 := hip
  unfold keyFill
  rw [if_neg (not_not.mpr hl3)]
  by_cases hnone : p.tun.type = .none
  · simp [Pinfo.info, flowFields, hnone]
  · simp [Pinfo.info, flowFields, hnone]

theorem match_innermost (data : Bytes) (p : Pinfo) :
    innermost (simpleFwdBuildEntryMatch data p) = matchFormat (flowFields data p) := by
  unfold innermost simpleFwdBuildEntryMatch simpleFwdMatchSetTun flowFields
  cases p.tun.type <;> simp

theorem match_tunType (data : Bytes) (p : Pinfo) :
    (simpleFwdBuildEntryMatch data p).tunType = p.tun.type := by
  unfold simpleFwdBuildEntryMatch simpleFwdMatchSetTun
  cases p.tun.type <;> simp

theorem match_tunId (data : Bytes) (p : Pinfo) : (simpleFwdBuildEntryMatch data p).tunId =
    if p.tun.type = .none then 0 else if p.tun.type = .gtpu then p.tun.second
      else p.tun.first := by
  unfold simpleFwdBuildEntryMatch simpleFwdMatchSetTun
  cases p.tun.type <;> simp

theorem matchFormat_of_sameFlow {fmt fmt' : PktFormat} (h : SameFlow fmt fmt') :
    matchFormat fmt = matchFormat fmt' := by
  unfold matchFormat
  rw [h.src, h.dst, h.proto, h.srcPort, h.dstPort]

/-- The words of the union that an accepted GTP-U packet has. -/
theorem gtpu_words (h : simpleFwdParsePacket data = .ok p) (htun : p.tun.type = .gtpu) :
    p.tun.first = (0 : BitVec 16) ++ (gtpFlags data p ++ gtpMsgType data p) ∧
      p.tun.second = gtpTeid data p := by
  obtain ⟨-, -, rfl⟩ := parsePacket_ok.mp h
  have htype : outerTun data = .gtpu := by
    rw [← htun]
    exact (tunAt_type _).symm
  simp only [packetInfo, htype]
  exact ⟨rfl, rfl⟩

theorem accepted_ipv4 (h : simpleFwdParsePacket data = .ok p) : p.outer.l3Type = ipv4 := by
  obtain ⟨-, -, rfl⟩ := parsePacket_ok.mp h
  rfl

/-- Equal keys mean equal matches. -/
def KeysSeparate (data : Bytes) (p : Pinfo) (data' : Bytes) (p' : Pinfo)
    (port queue queue' : BitVec 16) (hash : UInt32) : Prop :=
  ∀ k k', keyFill (p.info data port queue hash) = some k →
    keyFill (p'.info data' port queue' hash) = some k' → keyEqual k k' = true →
    Agree (simpleFwdBuildEntryMatch data p) (simpleFwdBuildEntryMatch data' p')

/-- The keys of two packets with the same tunnel type are equal when the packets are of one
flow and have the same first word in the union of the tunnel. -/
theorem keysSeparate_iff (hip : p.outer.l3Type = ipv4) (hip' : p'.outer.l3Type = ipv4)
    (htype : p.tun.type = p'.tun.type) : KeysSeparate data p data' p' port queue queue' hash ↔
      (SameFlow (flowFields data p) (flowFields data' p') →
        (p.tun.type ≠ .none → p.tun.first = p'.tun.first) →
        Agree (simpleFwdBuildEntryMatch data p) (simpleFwdBuildEntryMatch data' p')) := by
  unfold KeysSeparate
  rw [keyFill_info hip, keyFill_info hip', ← htype]
  constructor
  · intro h hflow hfirst
    refine h _ _ rfl rfl (keyEqual_fields.mpr ⟨⟨hflow.dst, hflow.src⟩,
      ⟨?_, hflow.dstPort, hflow.srcPort⟩, rfl, rfl, hflow.proto⟩)
    by_cases hnone : p.tun.type = .none
    · simp [hnone]
    · simp [hnone, hfirst hnone]
  · rintro h k k' hk hk' heq
    cases hk
    cases hk'
    obtain ⟨⟨hdst, hsrc⟩, ⟨hvni, hdport, hsport⟩, -, -, hproto⟩ := keyEqual_fields.mp heq
    refine h ⟨hsrc, hdst, hproto, hsport, hdport⟩ fun hne => ?_
    simpa [hne] using hvni

/-- Equal keys mean equal matches except for GTP-U: of its identifier the key has nothing, but
the type and the flags of the message in its place. -/
theorem keys_separate_unless_teids_differ (h : simpleFwdParsePacket data = .ok p)
    (h' : simpleFwdParsePacket data' = .ok p') (htype : p.tun.type = p'.tun.type)
    (port queue queue' : BitVec 16) (hash : UInt32) :
    KeysSeparate data p data' p' port queue queue' hash ↔
      ¬ (p.tun.type = .gtpu ∧ SameFlow (flowFields data p) (flowFields data' p') ∧
        gtpMsgType data p = gtpMsgType data' p' ∧ gtpFlags data p = gtpFlags data' p' ∧
        gtpTeid data p ≠ gtpTeid data' p') := by
  rw [keysSeparate_iff (accepted_ipv4 h) (accepted_ipv4 h') htype]
  have hagree : SameFlow (flowFields data p) (flowFields data' p') →
      (simpleFwdBuildEntryMatch data p).tunId = (simpleFwdBuildEntryMatch data' p').tunId →
      Agree (simpleFwdBuildEntryMatch data p) (simpleFwdBuildEntryMatch data' p') := by
    intro hflow hid
    refine ⟨?_, hid, ?_⟩
    · rw [match_tunType, match_tunType, htype]
    · rw [match_innermost, match_innermost, matchFormat_of_sameFlow hflow]
  by_cases hgtpu : p.tun.type = .gtpu
  · obtain ⟨hfirst, hsecond⟩ := gtpu_words h hgtpu
    obtain ⟨hfirst', hsecond'⟩ := gtpu_words h' (htype ▸ hgtpu)
    have hid : (simpleFwdBuildEntryMatch data p).tunId = gtpTeid data p := by
      rw [match_tunId, hgtpu, ← hsecond]
      rfl
    have hid' : (simpleFwdBuildEntryMatch data' p').tunId = gtpTeid data' p' := by
      rw [match_tunId, ← htype, hgtpu, ← hsecond']
      rfl
    have hwords : p.tun.first = p'.tun.first ↔
        gtpMsgType data p = gtpMsgType data' p' ∧ gtpFlags data p = gtpFlags data' p' := by
      rw [hfirst, hfirst', append_eq_iff, append_eq_iff]
      simp only [true_and]
      exact and_comm
    constructor
    · rintro hlaw ⟨-, hflow, hmsg, hflags, hteid⟩
      have hall := hlaw hflow fun _ => hwords.mpr ⟨hmsg, hflags⟩
      exact hteid (hid.symm.trans (hall.tunId.trans hid'))
    · intro hnot hflow hsame
      apply hagree hflow
      rw [hid, hid']
      obtain ⟨hmsg, hflags⟩ := hwords.mp (hsame (by simp [hgtpu]))
      by_contra hteid
      exact hnot ⟨hgtpu, hflow, hmsg, hflags, hteid⟩
  · refine iff_of_true (fun hflow hfirst => hagree hflow ?_) fun hall => hgtpu hall.1
    rw [match_tunId, match_tunId, ← htype]
    by_cases hnone : p.tun.type = .none
    · simp [hnone]
    · simp [hnone, hgtpu, hfirst hnone]

/-- An IPv4 header without options. -/
def ipHeader (proto last : BitVec 8) : Bytes :=
  [0x45, 0, 0, 0, 0, 0, 0, 0, 64, proto, 0, 0, 10, 0, 0, 1, 10, 0, 0, last]

/-- A TCP packet in a GTP-U tunnel with this identifier. -/
def gtpuPacket (teid : BitVec 8) : Bytes :=
  List.replicate 12 0 ++ [0x08, 0x00] ++ ipHeader docaProtoUdp 2 ++
    [0x08, 0x68, 0x08, 0x68, 0, 0, 0, 0] ++ [0x30, 0xff, 0, 0, 0, 0, 0, teid] ++
    ipHeader docaProtoTcp 3 ++
    [0x04, 0xd2, 0, 80, 0, 0, 0, 0, 0, 0, 0, 0, 0x50, 0, 0, 0, 0, 0, 0, 0]

def gtpuInfo (teid : BitVec 8) : Pinfo where
  outer := ⟨0, 14, 34, ipv4, docaProtoUdp, some 42⟩
  tun := ⟨.gtpu, false, 0x30ff, (teid ++ (0 : BitVec 24))⟩
  inner := some ⟨50, 50, 70, ipv4, docaProtoTcp, some 90⟩

theorem gtpuPacket_parsed :
    simpleFwdParsePacket (gtpuPacket 1) = .ok (gtpuInfo 1) ∧
      simpleFwdParsePacket (gtpuPacket 2) = .ok (gtpuInfo 2) := by
  decide +kernel

theorem gtpu_sameFlow : SameFlow (flowFields (gtpuPacket 1) (gtpuInfo 1))
    (flowFields (gtpuPacket 2) (gtpuInfo 2)) := by
  refine ⟨?_, ?_, ?_, ?_, ?_⟩ <;> decide +kernel

theorem keys_separate_gtpu : KeysSeparate (gtpuPacket 1) (gtpuInfo 1) (gtpuPacket 2) (gtpuInfo 2)
    0 0 0 7 ↔ ¬ ((gtpuInfo 1).tun.type = .gtpu ∧
      SameFlow (flowFields (gtpuPacket 1) (gtpuInfo 1)) (flowFields (gtpuPacket 2) (gtpuInfo 2)) ∧
      gtpMsgType (gtpuPacket 1) (gtpuInfo 1) = gtpMsgType (gtpuPacket 2) (gtpuInfo 2) ∧
      gtpFlags (gtpuPacket 1) (gtpuInfo 1) = gtpFlags (gtpuPacket 2) (gtpuInfo 2) ∧
      gtpTeid (gtpuPacket 1) (gtpuInfo 1) ≠ gtpTeid (gtpuPacket 2) (gtpuInfo 2)) :=
  keys_separate_unless_teids_differ gtpuPacket_parsed.1 gtpuPacket_parsed.2 rfl 0 0 0 7

/-- Two tunnels of one inner flow have one key, and matches with different identifiers. -/
theorem teids_share_key :
    simpleFwdParsePacket (gtpuPacket 1) = .ok (gtpuInfo 1) ∧
      simpleFwdParsePacket (gtpuPacket 2) = .ok (gtpuInfo 2) ∧
      ¬ KeysSeparate (gtpuPacket 1) (gtpuInfo 1) (gtpuPacket 2) (gtpuInfo 2) 0 0 0 7 := by
  refine ⟨gtpuPacket_parsed.1, gtpuPacket_parsed.2, ?_⟩
  intro h
  have htype : (gtpuInfo 1).tun.type = (gtpuInfo 2).tun.type := rfl
  have hagree := (keysSeparate_iff rfl rfl htype).mp h gtpu_sameFlow fun _ => rfl
  have hid := hagree.tunId
  revert hid
  decide +kernel

end DocaApps.Proofs.TunnelKeys
