import DocaApps.Ipsec.UnsecuredBurst
import DocaApps.Proofs.PacketPrepared

namespace DocaApps.Proofs.SequenceNumbers
open Common.Pack Lib.Overwrite Lib.Command Ipsec.Rules Ipsec.Encap Ipsec.MbufChain
open Ipsec.PacketEncap Ipsec.UnsecuredBurst Proofs.MbufChain Proofs.PacketParts
open Proofs.PacketChain Proofs.PacketRoundTrip Proofs.PacketPrepared

/-- Where the sequence number stands in a packet that is sent, by the length of the L3 header of
the packet that was received. -/
def snOfs (mode : Mode) (rule : EncryptRule) (l3HdrLen : Nat) : Nat :=
  match mode with
  | .tunnel =>
    if rule.encapL3Type = .ip4 then encapEspSnIdxTunnelIp4 else encapEspSnIdxTunnelIp6
  | .transport => l3HdrLen + etherHdrLen + encapEspSnIdxTransport
  | .udpTransport => l3HdrLen + etherHdrLen + encapEspSnIdxUdpTransport

/-- The sequence number in the ESP header of a packet that is sent. -/
def snField (mode : Mode) (rule : EncryptRule) (received sent : Mbuf) : List Byte :=
  slice (frame sent) (snOfs mode rule (hdrLen received)) 4

section Bytes

variable {m m' : Mbuf} {s first : Segment} {rest : List Segment} {k n p a nh : Nat}
  {b : List Byte} {rule : EncryptRule} {next : Byte}

/-- The buffer of the first segment. -/
def headBuf (m : Mbuf) : List Byte :=
  match m.segs with
  | [] => []
  | s :: _ => s.buf

/-- `n` bytes of it. -/
def headPart (a n : Nat) (m : Mbuf) : List Byte := slice (headBuf m) a n

theorem store_ok (h : store k p b m = .ok () m') : ∃ s, m.segs[k]? = some s ∧
    p + b.length ≤ s.buf.length ∧
      m' = { m with segs := m.segs.set k { s with buf := overwrite s.buf p b } } := by
  cases hk : m.segs[k]? with
  | none =>
    have hrun : store k p b m = .error .fault m := by
      refine run_bind_error ?_
      rw [Ipsec.MbufChain.segment, run_get, hk]
      rfl
    rw [hrun] at h
    cases h
  | some s =>
    by_cases hfit : p + b.length ≤ s.buf.length
    · rw [store_run hk hfit] at h
      injection h with _ h
      exact ⟨s, rfl, hfit, h.symm⟩
    · rw [store_fault hk hfit] at h
      cases h

theorem keeps_store (hapart : k ≠ 0 ∨ a + n ≤ p ∨ p + b.length ≤ a) :
    Keeps (headPart a n) (store k p b) := by
  constructor
  intro m _ m' h
  obtain ⟨s, hk, hfit, rfl⟩ := store_ok h
  obtain ⟨segs, pktLen, packetType⟩ := m
  cases segs with
  | nil => cases hk
  | cons first rest =>
    cases k with
    | zero =>
      cases hk
      exact slice_overwrite_apart hfit (hapart.resolve_left fun h => h rfl)
    | succ k => rfl

theorem store_here (h : store 0 p b m = .ok () m') : headPart p b.length m' = b := by
  obtain ⟨s, hk, hfit, rfl⟩ := store_ok h
  obtain ⟨segs, pktLen, packetType⟩ := m
  cases segs with
  | nil => cases hk
  | cons first rest =>
    cases hk
    exact slice_overwrite hfit

theorem keeps_storeBe16 {v : Nat} (hapart : a + n ≤ p ∨ p + 2 ≤ a) :
    Keeps (headPart a n) (storeBe16 k p v) :=
  keeps_store (.inr hapart)

theorem keeps_writeTrailer {padding : Nat} (hlo : 2 ≤ padding) (hhi : padding ≤ 5)
    (hapart : k ≠ 0 ∨ a + n ≤ p ∨ p + padding ≤ a) :
    Keeps (headPart a n) (writeTrailer k p padding next) := by
  have hsub : sub32 padding espTailLen = padding - 2 := by
    unfold sub32 espTailLen
    omega
  have hpad : (espPadBytes.take (min (padding - 2) espPadBytes.length)).length = padding - 2 := by
    rw [List.length_take]
    simp only [espPadBytes, List.length_cons, List.length_nil]
    omega
  unfold writeTrailer
  rw [hsub]
  refine Keeps.bind (keeps_store ?_) fun _ => keeps_store ?_
  · rw [hpad]
    omega
  · simp only [List.length_cons, List.length_nil]
    omega

end Bytes

section Headers

variable {m m' : Mbuf} {n p a nh oh l : Nat} {b b' : List Byte} {rule : EncryptRule} {next : Byte}

/-- A template with the sequence number put into one without. -/
theorem slice_putSn {i : Nat} (hb : putSn rule true i (putSn rule false i b) = b')
    (h : i + 4 ≤ b.length) : slice b' i 4 = packUint32 rule.currentSn := by
  rw [← hb]
  exact slice_overwrite h

/-- What was stored is read back from inside of it. -/
theorem headPart_inside {i : Nat} (h : headPart p b.length m = b) (hi : i + n ≤ b.length) :
    headPart (p + i) n m = slice b i n := by
  have hinside : slice (slice (headBuf m) p b.length) i n = slice (headBuf m) (p + i) n :=
    slice_slice hi
  rw [headPart] at h
  rw [h] at hinside
  exact hinside.symm

theorem writeTunnelHeader_sn (h : writeTunnelHeader rule true nh m = .ok () m') :
    headPart (nh + snOfs .tunnel rule l) 4 m' = packUint32 rule.currentSn := by
  unfold writeTunnelHeader at h
  simp only [snOfs]
  split at h
  · rename_i h4
    rw [if_pos h4]
    obtain ⟨_, m₁, hstore, h1⟩ := bind_eq_ok.mp h
    obtain ⟨len, m₂, hlen, h2⟩ := bind_eq_ok.mp h1
    have hfield := (keeps_storeBe16 (a := nh + encapEspSnIdxTunnelIp4) (n := 4) (.inr (by
      unfold etherHdrLen ipv4TotalLengthOfs encapEspSnIdxTunnelIp4
      omega))).run h2
    have hlater := ((keeps_pktLenNow (f := headPart (nh + encapEspSnIdxTunnelIp4) 4)).run hlen)
    rw [hfield, hlater, headPart_inside (store_here hstore)
      (by rw [length_createIpv4TunnelEncap]; decide)]
    exact slice_putSn (b := createIpv4TunnelEncap rule false) rfl
      (by rw [length_createIpv4TunnelEncap]; decide)
  · rename_i h4
    rw [if_neg h4]
    obtain ⟨_, m₁, hstore, h1⟩ := bind_eq_ok.mp h
    obtain ⟨len, m₂, hlen, h2⟩ := bind_eq_ok.mp h1
    have hfield := (keeps_storeBe16 (a := nh + encapEspSnIdxTunnelIp6) (n := 4) (.inr (by
      unfold etherHdrLen ipv6PayloadLenOfs encapEspSnIdxTunnelIp6
      omega))).run h2
    have hlater := ((keeps_pktLenNow (f := headPart (nh + encapEspSnIdxTunnelIp6) 4)).run hlen)
    rw [hfield, hlater, headPart_inside (store_here hstore)
      (by rw [length_createIpv6TunnelEncap]; decide)]
    exact slice_putSn (b := createIpv6TunnelEncap rule false) rfl
      (by rw [length_createIpv6TunnelEncap]; decide)

theorem keeps_packetType {k : Nat} : Keeps Mbuf.packetType (store k p b) := by
  constructor
  intro m _ m' h
  obtain ⟨s, hk, hfit, rfl⟩ := store_ok h
  rfl

/-- The fields that `prepare_packet_transport` sets in the IP header, all in front of the twenty-fourth
byte. -/
theorem replaceProtocol_keeps {q : Byte} (h : replaceProtocol nh q m = .ok next m')
    (h4 : isIpv4Hdr m.packetType = true → nh + 24 ≤ a ∨ nh + 18 ≤ a ∧ a + n ≤ nh + 23)
    (h6 : ¬ isIpv4Hdr m.packetType = true → nh + 24 ≤ a) :
    headPart a n m' = headPart a n m := by
  have hrun : replaceProtocol nh q m = (if isIpv4Hdr m.packetType = true then do
        let nextProtocol ← loadByte 0 (nh + etherHdrLen + ipv4NextProtoIdOfs)
        store 0 (nh + etherHdrLen + ipv4NextProtoIdOfs) [q]
        storeBe16 0 (nh + etherHdrLen + ipv4TotalLengthOfs) (sub32 (← pktLenNow) etherHdrLen)
        return nextProtocol
      else if isIpv6Hdr m.packetType = true then do
        let nextProtocol ← loadByte 0 (nh + etherHdrLen + ipv6ProtoOfs)
        store 0 (nh + etherHdrLen + ipv6ProtoOfs) [q]
        storeBe16 0 (nh + etherHdrLen + ipv6PayloadLenOfs)
          (sub32 (sub32 (← pktLenNow) etherHdrLen) ipv6HdrLen)
        return nextProtocol
      else return 0 : PktCmd Byte) m := rfl
  rw [hrun] at h
  have hether : etherHdrLen = 14 := rfl
  split at h
  · rename_i hv4
    have hapart := h4 hv4
    have hkeeps : Keeps (headPart a n) (do
        let nextProtocol ← loadByte 0 (nh + etherHdrLen + ipv4NextProtoIdOfs)
        store 0 (nh + etherHdrLen + ipv4NextProtoIdOfs) [q]
        storeBe16 0 (nh + etherHdrLen + ipv4TotalLengthOfs) (sub32 (← pktLenNow) etherHdrLen)
        return nextProtocol : PktCmd Byte) := by
      unfold ipv4NextProtoIdOfs ipv4TotalLengthOfs
      refine Keeps.bind keeps_loadByte fun _ => Keeps.bind (keeps_store (.inr ?_)) fun _ =>
        Keeps.bind keeps_pktLenNow fun _ => Keeps.bind (keeps_storeBe16 ?_) fun _ => Keeps.pure _
      · rw [List.length_singleton]
        omega
      · omega
    exact hkeeps.run h
  split at h
  · rename_i hv4 hv6
    have hapart := h6 hv4
    have hkeeps : Keeps (headPart a n) (do
        let nextProtocol ← loadByte 0 (nh + etherHdrLen + ipv6ProtoOfs)
        store 0 (nh + etherHdrLen + ipv6ProtoOfs) [q]
        storeBe16 0 (nh + etherHdrLen + ipv6PayloadLenOfs)
          (sub32 (sub32 (← pktLenNow) etherHdrLen) ipv6HdrLen)
        return nextProtocol : PktCmd Byte) := by
      unfold ipv6ProtoOfs ipv6PayloadLenOfs
      refine Keeps.bind keeps_loadByte fun _ => Keeps.bind (keeps_store (.inr ?_)) fun _ =>
        Keeps.bind keeps_pktLenNow fun _ => Keeps.bind (keeps_storeBe16 ?_) fun _ => Keeps.pure _
      · rw [List.length_singleton]
        omega
      · omega
    exact hkeeps.run h
  · cases h
    rfl

/-- In transport mode, unless the IP header is four bytes long: then the byte of its protocol is
in the sequence number. -/
theorem putTransportHeaders_sn {udpTransport : Bool}
    (h : putTransportHeaders rule true udpTransport nh oh l m = .ok next m')
    (hl : isIpv4Hdr m.packetType = true → l = 14 ∨ 22 ≤ l ∨ udpTransport = true ∧ 14 ≤ l)
    (hl6 : ¬ isIpv4Hdr m.packetType = true → 24 ≤ l) :
    headPart (nh + l + (if udpTransport = true then 12 else 4)) 4 m' =
      packUint32 rule.currentSn := by
  obtain ⟨_, m₁, hmove, h1⟩ := bind_eq_ok.mp h
  obtain ⟨_, m₂, hstore, h2⟩ := bind_eq_ok.mp h1
  have htype : m₂.packetType = m.packetType :=
    (keeps_packetType.run hstore).trans ((Keeps.bind keeps_load fun _ => keeps_packetType).run hmove)
  have hlen : (transportEncap udpTransport rule true).length =
      if udpTransport = true then 24 else 16 := length_transportEncap udpTransport rule true
  rw [replaceProtocol_keeps h2, headPart_inside (store_here hstore)]
  · cases udpTransport with
    | false =>
      have h16 : (createTransportEncap rule false).length = 16 := rfl
      exact slice_putSn (b := createTransportEncap rule false) rfl (by rw [h16]; decide)
    | true =>
      have h24 : (createUdpTransportEncap rule false).length = 24 := rfl
      exact slice_putSn (b := createUdpTransportEncap rule false) rfl (by rw [h24]; decide)
  · rw [hlen]
    split <;> decide
  · intro h4
    rw [htype] at h4
    have hcases := hl h4
    cases udpTransport with
    | false =>
      simp only [Bool.false_eq_true, false_and, or_false, ↓reduceIte] at hcases ⊢
      omega
    | true =>
      simp only [true_and, ↓reduceIte] at hcases ⊢
      omega
  · intro h6
    rw [htype] at h6
    have hlong := hl6 h6
    omega

end Headers

section Packet

variable {lib : MbufLib} {m m' : Mbuf} {rule : EncryptRule} {mode : Mode}

/-- The padding is written behind the packet inside the buffer, and in a packet of one segment not
over the sequence number twelve bytes in front of the payload. -/
def PaddingApart (mode : Mode) (m : Mbuf) : Prop :=
  ∃ front s, m.segs = front ++ [s] ∧
    s.dataOff + (s.dataLen - cut m s) + paddingOf mode m s ≤ s.buf.length ∧
    (front = [] → s.dataLen - cut m s + paddingOf mode m s + 12 ≤
        payloadOfs mode m.packetType (frame m) ∨
      payloadOfs mode m.packetType (frame m) ≤ s.dataLen - cut m s + 8)

/-- Nothing is written over the sequence number of a packet, or it is refused. -/
structure Untouched (mode : Mode) (rule : EncryptRule) (m : Mbuf) : Prop where
  headers : HeadersInBuffer m
  ihl : mode = .transport → hdrLen m ≠ 4
  room : NoHeadroom mode rule m ∨ PaddingApart mode m

theorem hdrLen_ipv4 (h : isIpv4Hdr m.packetType = true) : ∃ i, hdrLen m = 4 * i := by
  refine ⟨((frame m).getD 14 0 &&& 0xf#8).toNat, ?_⟩
  rw [hdrLen, ipHdrLen, if_pos h, ipv4HdrLen, Nat.mul_comm]

variable (m mode rule) in
theorem snOfs_eq : snOfs mode rule (hdrLen m) + 12 =
    payloadOfs mode m.packetType (frame m) + encapLen mode rule := by
  have hhdr : ipHdrLen m.packetType (frame m) = hdrLen m := rfl
  cases mode with
  | tunnel =>
    simp only [snOfs, payloadOfs, encapLen, outerHdrLen]
    split <;> rfl
  | transport =>
    simp only [snOfs, payloadOfs, encapLen, hhdr, etherHdrLen, encapEspSnIdxTransport]
    omega
  | udpTransport =>
    simp only [snOfs, payloadOfs, encapLen, hhdr, etherHdrLen, encapEspSnIdxUdpTransport]
    omega

theorem putHeaders_sn {nh oh : Nat} {next : Byte} {m₃ : Mbuf} (htype : m₃.packetType = m.packetType)
    (hihl : mode = .transport → hdrLen m ≠ 4)
    (h : putHeaders mode rule true nh oh (hdrLen m + 14) m₃ = .ok next m') :
    headPart (nh + snOfs mode rule (hdrLen m)) 4 m' = packUint32 rule.currentSn := by
  have h6 : ¬ isIpv4Hdr m₃.packetType = true → 24 ≤ hdrLen m + 14 := by
    intro hv6
    rw [htype] at hv6
    rw [hdrLen, ipHdrLen, if_neg hv6]
    decide
  cases mode with
  | tunnel =>
    obtain ⟨_, m₁, hheader, h1⟩ := bind_eq_ok.mp h
    injection h1 with _ h1
    subst h1
    exact writeTunnelHeader_sn hheader
  | transport =>
    refine putTransportHeaders_sn h ?_ h6
    intro h4
    rw [htype] at h4
    obtain ⟨i, hi⟩ := hdrLen_ipv4 h4
    have hne := hihl rfl
    omega
  | udpTransport =>
    exact putTransportHeaders_sn h (fun _ => .inr (.inr ⟨rfl, Nat.le_add_left _ _⟩)) h6

theorem slice_frame {t : Segment} {i n : Nat} (h : m.segs[0]? = some t) :
    slice (frame m) i n = headPart (t.dataOff + i) n m := by
  obtain ⟨segs, pktLen, packetType⟩ := m
  cases segs with
  | nil => cases h
  | cons first rest =>
    cases h
    rw [frame, headPart, headBuf, slice, slice, List.drop_drop]

/-- A packet is refused, or sent with the sequence number of its rule, which then counts on. -/
theorem preparePacket_sn (hlib : lib.Documented) (hm : Chain m) (h : Untouched mode rule m) :
    (∃ m', preparePacket lib mode true rule m = .error (.doca .noMemory) m') ∨
    ∃ m', preparePacket lib mode true rule m =
        .ok { rule with currentSn := rule.currentSn + 1 } m' ∧
      snField mode rule m m' = packUint32 rule.currentSn := by
  obtain ⟨first, rest, hfirst, -, -⟩ := h.headers
  by_cases hshort : first.dataOff < encapLen mode rule
  · exact .inl (preparePacket_short mode rule true hlib hm h.headers hfirst hshort)
  refine .inr ?_
  have hroom : ¬ NoHeadroom mode rule m := by
    rintro ⟨first', rest', hfirst', hlt⟩
    obtain ⟨rfl, -⟩ := List.cons.inj (hfirst.symm.trans hfirst')
    exact hshort hlt
  obtain ⟨front, s, hlast, hfit, hapart⟩ := h.room.resolve_left hroom
  obtain ⟨k, m₃, m₄, next, hext, hheads, hsame, hrun⟩ :=
    preparePacket_finish mode rule true hlib hm h.headers hfirst hlast (Nat.not_lt.mp hshort)
  obtain ⟨s₃, hlast₃, hbuf₃⟩ := hext.last
  obtain ⟨hlo, hhi⟩ : 2 ≤ paddingOf mode m s ∧ paddingOf mode m s ≤ 5 := paddingLen_range _
  rw [← hbuf₃] at hfit
  obtain ⟨m', hwrite, hsame'⟩ := writeTrailer_fits next hsame hlast₃ hlo hhi hfit
  refine ⟨m', hrun.trans (run_bind hwrite), ?_⟩
  have hofs := snOfs_eq m rule mode
  have hpayload : 14 ≤ payloadOfs mode m.packetType (frame m) := by
    cases mode
    · exact Nat.le_refl _
    all_goals exact Nat.le_add_right _ _
  obtain ⟨first₃, rest₃, hfirst₃, -, hoff₃⟩ := hext.head
  obtain ⟨t, ht, hshape⟩ := hsame'.segment (first_segment hfirst₃)
  have hoff : t.dataOff = first.dataOff - encapLen mode rule :=
    (congrArg (fun x => x.2.1) hshape).trans hoff₃
  rw [snField, slice_frame ht, hoff]
  refine ((keeps_writeTrailer hlo hhi ?_).run hwrite).trans
    (putHeaders_sn hext.packetType h.ihl hheads)
  by_cases hk : k = 0
  · have hrest := hext.single hk
    have hfront := (front_nil_iff hfirst hlast).mpr hrest
    have hone : s = first := by
      rw [hfirst, hrest, hfront, List.nil_append] at hlast
      exact (List.cons.inj hlast).1.symm
    have hcases := hapart hfront
    rw [hone] at hcases ⊢
    omega
  · exact .inl hk

end Packet

section Burst

/-- The packets of a rule that a burst sends, each as it was received and as it is sent. -/
def sentOf (i : Nat) (packets : List Packet) (processed : List (Nat × Mbuf)) :
    List (Mbuf × Mbuf) :=
  processed.filterMap fun entry => packets[entry.1]?.bind fun packet =>
    if ruleIdx packet.metadata = i then some (packet.mbuf, entry.2) else none

/-- Their sequence numbers. -/
def sentSns (mode : Mode) (rule : EncryptRule) (i : Nat) (packets : List Packet) (b : Burst) :
    List (List Byte) :=
  (sentOf i packets b.processed).map fun entry => snField mode rule entry.1 entry.2

/-- So many numbers, from the first one on. -/
def snsFrom (first n : Nat) : List (List Byte) :=
  (List.range n).map fun j => packUint32 (BitVec.ofNat 32 (first + j))

/-- The first packets of a burst are in one of the two arrays each, in order. -/
structure Split (n : Nat) (b : Burst) : Prop where
  processed : (b.processed.map Prod.fst).Pairwise (· < ·)
  unprocessed : (b.unprocessed.map Prod.fst).Pairwise (· < ·)
  all : (b.processed.map Prod.fst ++ b.unprocessed.map Prod.fst).Perm (List.range n)

/-- A rule that has counted `n` packets. -/
def after (rule : EncryptRule) (n : Nat) : EncryptRule :=
  { rule with currentSn := rule.currentSn + BitVec.ofNat 32 n }

/-- A rule that has sent `n` packets of a burst. -/
structure Counted (mode : Mode) (packets : List Packet) (b : Burst) (i : Nat) (rule : EncryptRule)
    (n : Nat) : Prop where
  bound : rule.currentSn.toNat + n < 2 ^ 32
  now : b.rules[i]? = some (after rule n)
  sns : sentSns mode rule i packets b = snsFrom rule.currentSn.toNat n

variable {ctx : CoreCtx} {mode : Mode} {packets : List Packet} {packet : Packet} {b b' : Burst}
  {rule : EncryptRule} {rules : List EncryptRule} {m : Mbuf} {i k n : Nat}

theorem snsFrom_succ (first n : Nat) :
    snsFrom first (n + 1) = snsFrom first n ++ [packUint32 (BitVec.ofNat 32 (first + n))] := by
  rw [snsFrom, List.range_succ, List.map_append]
  rfl

theorem snsFrom_add (first n k : Nat) :
    snsFrom first (n + k) = snsFrom first n ++ snsFrom (first + n) k := by
  rw [snsFrom, List.range_add, List.map_append, List.map_map, snsFrom, snsFrom]
  congr 1
  apply List.map_congr_left
  intro j _
  rw [Function.comp, Nat.add_assoc]

theorem Split.start (rules : List EncryptRule) : Split 0 ⟨rules, [], []⟩ :=
  ⟨List.Pairwise.nil, List.Pairwise.nil, List.Perm.refl _⟩

theorem pairwise_snoc {entries : List (Nat × Mbuf)}
    (h : (entries.map Prod.fst).Pairwise (· < ·)) (hlt : ∀ j ∈ entries.map Prod.fst, j < k) :
    ((entries ++ [(k, m)]).map Prod.fst).Pairwise (· < ·) := by
  rw [List.map_append, List.pairwise_append]
  refine ⟨h, List.pairwise_singleton _ _, ?_⟩
  intro j hj j' hj'
  rw [List.map_singleton, List.mem_singleton] at hj'
  rw [hj']
  exact hlt j hj

theorem Split.lt (h : Split k b) :
    ∀ j ∈ b.processed.map Prod.fst ++ b.unprocessed.map Prod.fst, j < k := by
  intro j hj
  exact List.mem_range.mp ((h.all.mem_iff).mp hj)

theorem Split.process (h : Split k b) (rules : List EncryptRule) :
    Split (k + 1) ⟨rules, b.processed ++ [(k, m)], b.unprocessed⟩ where
  processed := pairwise_snoc h.processed fun j hj => h.lt j (List.mem_append_left _ hj)
  unprocessed := h.unprocessed
  all := by
    rw [List.range_succ, List.map_append, List.append_assoc, List.map_singleton]
    refine (List.Perm.append_left _ List.perm_append_comm).trans ?_
    rw [← List.append_assoc]
    exact h.all.append_right _

theorem Split.addDropped (h : Split k b) : Split (k + 1) (b.addDropped k m) where
  processed := h.processed
  unprocessed := pairwise_snoc h.unprocessed fun j hj => h.lt j (List.mem_append_right _ hj)
  all := by
    rw [Burst.addDropped, List.range_succ, List.map_append, ← List.append_assoc,
      List.map_singleton]
    exact h.all.append_right _

theorem Counted.addDropped (h : Counted mode packets b i rule n) :
    Counted mode packets (b.addDropped k m) i rule n :=
  ⟨h.bound, h.now, h.sns⟩

theorem after_toNat (h : rule.currentSn.toNat + n < 2 ^ 32) :
    (after rule n).currentSn.toNat = rule.currentSn.toNat + n := by
  rw [after, BitVec.toNat_add, BitVec.toNat_ofNat, Nat.add_mod_mod, Nat.mod_eq_of_lt h]

variable (rule n) in
theorem after_currentSn :
    (after rule n).currentSn = BitVec.ofNat 32 (rule.currentSn.toNat + n) := by
  rw [BitVec.ofNat_add, BitVec.ofNat_toNat, BitVec.setWidth_eq]
  rfl

theorem after_succ : { after rule n with currentSn := (after rule n).currentSn + 1 } =
    after rule (n + 1) := by
  simp only [after, BitVec.ofNat_add, BitVec.add_assoc]
  rfl

theorem encapLen_after : encapLen mode (after rule n) = encapLen mode rule := by
  cases mode <;> rfl

theorem snField_after {received sent : Mbuf} :
    snField mode (after rule n) received sent = snField mode rule received sent := by
  cases mode <;> rfl

theorem Untouched.after (h : Untouched mode rule m) : Untouched mode (after rule n) m := by
  refine ⟨h.headers, h.ihl, ?_⟩
  rcases h.room with ⟨first, rest, hsegs, hlt⟩ | hapart
  · exact .inl ⟨first, rest, hsegs, by rw [encapLen_after]; exact hlt⟩
  · exact .inr hapart

/-- The packet just sent is the last of its rule, and none of another rule. -/
theorem sentSns_snoc (hk : packets[k]? = some packet) (rules' : List EncryptRule) :
    sentSns mode rule i packets ⟨rules', b.processed ++ [(k, m)], b.unprocessed⟩ =
      sentSns mode rule i packets b ++
        if ruleIdx packet.metadata = i then [snField mode rule packet.mbuf m] else [] := by
  simp only [sentSns, sentOf, List.filterMap_append, List.map_append]
  congr 1
  by_cases hi : ruleIdx packet.metadata = i
  · simp [hk, hi]
  · simp [hk, hi]

theorem Counted.send (h : Counted mode packets b i rule n)
    (hk : packets[k]? = some packet) (hi : ruleIdx packet.metadata = i)
    (hlast : (after rule n).currentSn ≠ uint32Max)
    (hsn : snField mode rule packet.mbuf m =
      packUint32 (after rule n).currentSn) :
    Counted mode packets ⟨b.rules.set i (after rule (n + 1)),
      b.processed ++ [(k, m)], b.unprocessed⟩ i rule (n + 1) where
  bound := by
    have hne : (after rule n).currentSn.toNat ≠ uint32Max.toNat :=
      fun heq => hlast (BitVec.eq_of_toNat_eq heq)
    have hbound := h.bound
    rw [after_toNat hbound] at hne
    have hmax : uint32Max.toNat = 2 ^ 32 - 1 := by decide
    omega
  now := by
    obtain ⟨hlt, -⟩ := List.getElem?_eq_some_iff.mp h.now
    rw [List.getElem?_set_self hlt]
  sns := by
    rw [sentSns_snoc hk, if_pos hi, h.sns, snsFrom_succ, hsn, after_currentSn]

theorem Counted.other {rule' : EncryptRule} (h : Counted mode packets b i rule n)
    (hk : packets[k]? = some packet) (hi : ruleIdx packet.metadata ≠ i) :
    Counted mode packets ⟨b.rules.set (ruleIdx packet.metadata) rule',
      b.processed ++ [(k, m)], b.unprocessed⟩ i rule n where
  bound := h.bound
  now := by
    rw [List.getElem?_set_ne hi]
    exact h.now
  sns := by
    rw [sentSns_snoc hk, if_neg hi, List.append_nil, h.sns]

/-- A burst after its first packets. -/
structure Begun (mode : Mode) (rules : List EncryptRule) (packets : List Packet) (k : Nat)
    (b : Burst) : Prop where
  split : Split k b
  counted : ∀ i rule, rules[i]? = some rule → ∃ n, Counted mode packets b i rule n

/-- A packet of one of the rules, sound as a chain, that keeps its sequence number. -/
structure Sendable (mode : Mode) (rules : List EncryptRule) (packet : Packet) : Prop where
  chain : Chain packet.mbuf
  untouched : ∃ rule, rules[ruleIdx packet.metadata]? = some rule ∧
    Untouched mode rule packet.mbuf

theorem Begun.addDropped (h : Begun mode rules packets k b) :
    Begun mode rules packets (k + 1) (b.addDropped k m) := by
  refine ⟨h.split.addDropped, ?_⟩
  intro i rule hrule
  obtain ⟨n, hn⟩ := h.counted i rule hrule
  exact ⟨n, hn.addDropped⟩

theorem Begun.send (h : Begun mode rules packets k b) (hk : packets[k]? = some packet)
    (hrule : rules[ruleIdx packet.metadata]? = some rule)
    (hn : Counted mode packets b (ruleIdx packet.metadata) rule n)
    (hlast : (after rule n).currentSn ≠ uint32Max)
    (hsn : snField mode rule packet.mbuf m = packUint32 (after rule n).currentSn) :
    Begun mode rules packets (k + 1) ⟨b.rules.set (ruleIdx packet.metadata) (after rule (n + 1)),
      b.processed ++ [(k, m)], b.unprocessed⟩ := by
  refine ⟨h.split.process _, ?_⟩
  intro i rule' hrule'
  by_cases hi : ruleIdx packet.metadata = i
  · subst hi
    obtain rfl := Option.some.inj (hrule.symm.trans hrule')
    exact ⟨n + 1, hn.send hk rfl hlast hsn⟩
  · obtain ⟨n', hn'⟩ := h.counted i rule' hrule'
    exact ⟨n', hn'.other hk hi⟩

section Step

variable (hlib : ctx.lib.Documented) (hinc : ctx.config.swSnIncEnable = true)
include hlib hinc

theorem handlePacket_begun (h : Begun ctx.config.mode rules packets k b)
    (hk : packets[k]? = some packet) (hsend : Sendable ctx.config.mode rules packet) :
    ∃ b', handlePacket ctx k packet b = some b' ∧
      Begun ctx.config.mode rules packets (k + 1) b' := by
  obtain ⟨rule, hrule, hsafe⟩ := hsend.untouched
  obtain ⟨n, hn⟩ := h.counted _ rule hrule
  unfold handlePacket
  split
  · exact ⟨_, rfl, h.addDropped⟩
  rw [hn.now]
  dsimp only
  have hcheck : checkIfLastSn ctx.config (after rule n) =
      if (after rule n).currentSn = uint32Max then .error .notPermitted else .ok () := by
    rw [checkIfLastSn, if_neg (by rw [hinc]; decide)]
  rw [hcheck]
  by_cases hlast : (after rule n).currentSn = uint32Max
  · rw [if_pos hlast]
    exact ⟨_, rfl, h.addDropped⟩
  rw [if_neg hlast, hinc]
  dsimp only
  rcases preparePacket_sn hlib hsend.chain hsafe.after with ⟨m', hrun⟩ | ⟨m', hrun, hsn⟩
  · rw [hrun]
    exact ⟨_, rfl, h.addDropped⟩
  · rw [hrun, after_succ]
    rw [snField_after] at hsn
    exact ⟨_, rfl, h.send hk hrule hn hlast hsn⟩

theorem handlePackets_begun {front back : List Packet} (hpackets : packets = front ++ back)
    (h : Begun ctx.config.mode rules packets front.length b)
    (hsend : ∀ packet ∈ back, Sendable ctx.config.mode rules packet) :
    ∃ b', handlePackets ctx front.length back b = some b' ∧
      Begun ctx.config.mode rules packets packets.length b' := by
  induction back generalizing front b with
  | nil =>
    rw [hpackets, List.append_nil]
    rw [hpackets, List.append_nil] at h
    exact ⟨b, rfl, h⟩
  | cons packet back ih =>
    have hk : packets[front.length]? = some packet := by
      rw [hpackets, List.getElem?_append_right (Nat.le_refl _), Nat.sub_self]
      rfl
    obtain ⟨b₁, hstep, h₁⟩ := handlePacket_begun hlib hinc h hk (hsend packet List.mem_cons_self)
    have hlength : (front ++ [packet]).length = front.length + 1 := List.length_append
    rw [← hlength] at h₁
    obtain ⟨b', hrest, h'⟩ := ih
      (show packets = (front ++ [packet]) ++ back by rw [hpackets, List.append_assoc]; rfl) h₁
      fun packet hp => hsend packet (List.mem_cons_of_mem _ hp)
    refine ⟨b', ?_, h'⟩
    rw [handlePackets, hstep, ← hlength]
    exact hrest

/-- A burst is split, and the rules count its packets. -/
theorem handleUnsecuredPacketsReceived_begun
    (hbound : ∀ packet ∈ packets, Sendable ctx.config.mode rules packet) :
    ∃ b, handleUnsecuredPacketsReceived ctx packets rules = some b ∧
      Begun ctx.config.mode rules packets packets.length b := by
  have hstart : Begun ctx.config.mode rules packets ([] : List Packet).length ⟨rules, [], []⟩ := by
    refine ⟨Split.start rules, ?_⟩
    intro i rule hrule
    refine ⟨0, rule.currentSn.isLt, ?_, rfl⟩
    rw [hrule, after, BitVec.add_zero]
  exact handlePackets_begun hlib hinc (List.nil_append packets).symm hstart hbound

end Step

end Burst

section Run

/-- The sequence numbers of a rule's packets in a run. -/
def runSns (mode : Mode) (rule : EncryptRule) (i : Nat) (bursts : List (List Packet))
    (bs : List Burst) : List (List Byte) :=
  (bursts.zip bs).flatMap fun burst => sentSns mode rule i burst.1 burst.2

variable {ctx : CoreCtx} {mode : Mode} {packets : List Packet} {packet : Packet} {b : Burst}
  {bursts : List (List Packet)} {rule : EncryptRule} {rules rules' : List EncryptRule} {i n k : Nat}

theorem after_add : after (after rule n) k = after rule (n + k) := by
  simp only [after, BitVec.ofNat_add, BitVec.add_assoc]

theorem sentSns_after :
    sentSns mode (after rule n) i packets b = sentSns mode rule i packets b := by
  unfold sentSns
  apply List.map_congr_left
  intro entry _
  exact snField_after

theorem runSns_after {bs : List Burst} :
    runSns mode (after rule n) i bursts bs = runSns mode rule i bursts bs := by
  simp only [runSns, sentSns_after]

/-- Only the counters of the rules have moved. -/
def Advanced (rules rules' : List EncryptRule) : Prop :=
  ∀ (i : Nat) (rule : EncryptRule), rules[i]? = some rule → ∃ n, rules'[i]? = some (after rule n)

/-- Counting changes nothing for the packets still to come. -/
theorem Sendable.counted (h : Sendable mode rules packet) (hrules : Advanced rules rules') :
    Sendable mode rules' packet := by
  obtain ⟨rule, hrule, hsafe⟩ := h.untouched
  obtain ⟨n, hn⟩ := hrules _ rule hrule
  exact ⟨h.chain, after rule n, hn, hsafe.after⟩

theorem processBursts_counted (hlib : ctx.lib.Documented) (hinc : ctx.config.swSnIncEnable = true)
    (hsend : ∀ packets ∈ bursts, ∀ packet ∈ packets, Sendable ctx.config.mode rules packet) :
    ∃ rules' bs, processBursts ctx bursts rules = some (rules', bs) ∧
      List.Forall₂ (fun packets b => Split packets.length b) bursts bs ∧
      ∀ (i : Nat) rule, rules[i]? = some rule → ∃ n, rule.currentSn.toNat + n < 2 ^ 32 ∧
        rules'[i]? = some (after rule n) ∧
        runSns ctx.config.mode rule i bursts bs = snsFrom rule.currentSn.toNat n := by
  induction bursts generalizing rules with
  | nil =>
    refine ⟨rules, [], rfl, List.Forall₂.nil, ?_⟩
    intro i rule hrule
    refine ⟨0, rule.currentSn.isLt, ?_, rfl⟩
    rw [hrule, after, BitVec.add_zero]
  | cons packets bursts ih =>
    obtain ⟨b, hburst, hbegun⟩ :=
      handleUnsecuredPacketsReceived_begun hlib hinc (hsend packets List.mem_cons_self)
    have hcounted : Advanced rules b.rules := by
      intro i rule hrule
      obtain ⟨n, hn⟩ := hbegun.counted i rule hrule
      exact ⟨n, hn.now⟩
    obtain ⟨rules', bs, hrun, hsplit, hsns⟩ := ih fun later hlater packet hpacket =>
      (hsend later (List.mem_cons_of_mem _ hlater) packet hpacket).counted hcounted
    refine ⟨rules', b :: bs, ?_, List.Forall₂.cons hbegun.split hsplit, ?_⟩
    · rw [processBursts, hburst]
      simp only [bind, Option.bind, hrun]
      rfl
    · intro i rule hrule
      obtain ⟨n, hn⟩ := hbegun.counted i rule hrule
      obtain ⟨n', hbound, hnow, hlater⟩ := hsns i _ hn.now
      rw [after_toNat hn.bound] at hbound hlater
      refine ⟨n + n', by omega, ?_, ?_⟩
      · rw [hnow, after_add]
      · rw [runSns_after] at hlater
        rw [snsFrom_add, ← hn.sns, ← hlater]
        rfl

/-- A rule that has come to the last number sends nothing more. -/
theorem Counted.exhausted (h : Counted mode packets b i rule n)
    (hmax : rule.currentSn = uint32Max) : sentOf i packets b.processed = [] := by
  have hbound := h.bound
  have hsns := h.sns
  have hlast : uint32Max.toNat = 2 ^ 32 - 1 := by decide
  rw [hmax, hlast] at hbound
  obtain rfl : n = 0 := by omega
  exact List.map_eq_nil_iff.mp hsns

/-- From the last number on every packet of a rule is dropped. -/
def DropsAtMax (ctx : CoreCtx) (bursts : List (List Packet)) (rules : List EncryptRule) : Prop :=
  ∀ front packets back, bursts = front ++ packets :: back → ∀ rules₁ bs b,
    processBursts ctx front rules = some (rules₁, bs) →
    handleUnsecuredPacketsReceived ctx packets rules₁ = some b →
    ∀ (i : Nat) rule, rules₁[i]? = some rule → rule.currentSn = uint32Max →
      sentOf i packets b.processed = []

theorem dropsAtMax (hlib : ctx.lib.Documented) (hinc : ctx.config.swSnIncEnable = true)
    (hsend : ∀ packets ∈ bursts, ∀ packet ∈ packets, Sendable ctx.config.mode rules packet) :
    DropsAtMax ctx bursts rules := by
  intro front packets back hbursts rules₁ bs b hfront hb i rule hrule hmax
  have hsplit : ∀ packets ∈ front, ∀ packet ∈ packets, Sendable ctx.config.mode rules packet := by
    intro packets hp
    exact hsend packets (by rw [hbursts]; exact List.mem_append_left _ hp)
  obtain ⟨rules₂, bs₂, hrun, -, hcounted⟩ := processBursts_counted hlib hinc hsplit
  obtain ⟨rfl, rfl⟩ := Prod.mk.inj (Option.some.inj (hrun.symm.trans hfront))
  have hadvanced : Advanced rules rules₂ := by
    intro i rule hrule
    obtain ⟨n, -, hnow, -⟩ := hcounted i rule hrule
    exact ⟨n, hnow⟩
  have hpackets : ∀ packet ∈ packets, Sendable ctx.config.mode rules₂ packet := by
    intro packet hp
    refine (hsend packets ?_ packet hp).counted hadvanced
    rw [hbursts]
    exact List.mem_append_right _ List.mem_cons_self
  obtain ⟨b₁, hb₁, hbegun⟩ := handleUnsecuredPacketsReceived_begun hlib hinc hpackets
  obtain rfl := Option.some.inj (hb₁.symm.trans hb)
  obtain ⟨n, hn⟩ := hbegun.counted i rule hrule
  exact hn.exhausted hmax

theorem parseSnInitial_lt {value : SnInitial} {snInitial : BitVec 64}
    (h : parseSnInitial value = .ok snInitial) : snInitial.toNat < 2 ^ 32 := by
  cases value with
  | missing =>
    cases h
    decide
  | other => cases h
  | int v =>
    simp only [parseSnInitial] at h
    split at h
    · cases h
    · rename_i hrange
      have hmax : uint32Max.toNat = 2 ^ 32 - 1 := by decide
      cases h
      rw [BitVec.toNat_ofInt]
      omega

/-- The rules start with the configured number. -/
theorem waitForTraffic_currentSn {snInitial : BitVec 64} {rules₀ : List EncryptRule}
    (hinc : ctx.config.swSnIncEnable = true) (hsmall : snInitial.toNat < 2 ^ 32)
    (hstart : waitForTraffic ctx.config snInitial rules₀ = some rules)
    (hrule : rules[i]? = some rule) : rule.currentSn.toNat = snInitial.toNat := by
  unfold waitForTraffic at hstart
  rw [if_pos hinc] at hstart
  split at hstart
  · cases hstart
  · cases hstart
    rw [List.getElem?_map] at hrule
    obtain ⟨rule₀, -, rfl⟩ := Option.map_eq_some_iff.mp hrule
    rw [BitVec.toNat_setWidth, Nat.mod_eq_of_lt hsmall]

/-- The sequence numbers of a rule follow each other from the configured one on and end before the
last; every burst is split into the packets to send and those to drop. -/
theorem sequence_numbers_in_order {value : SnInitial} {snInitial : BitVec 64}
    {rules₀ : List EncryptRule} (hlib : ctx.lib.Documented)
    (hinc : ctx.config.swSnIncEnable = true) (hparse : parseSnInitial value = .ok snInitial)
    (hstart : waitForTraffic ctx.config snInitial rules₀ = some rules)
    (hsend : ∀ packets ∈ bursts, ∀ packet ∈ packets, Sendable ctx.config.mode rules packet) :
    ∃ rules' bs, processBursts ctx bursts rules = some (rules', bs) ∧
      List.Forall₂ (fun packets b => Split packets.length b) bursts bs ∧
      (∀ (i : Nat) rule, rules[i]? = some rule → ∃ n, snInitial.toNat + n ≤ uint32Max.toNat ∧
        rules'[i]? = some { rule with currentSn := BitVec.ofNat 32 (snInitial.toNat + n) } ∧
        runSns ctx.config.mode rule i bursts bs = snsFrom snInitial.toNat n) ∧
      DropsAtMax ctx bursts rules := by
  have hsmall := parseSnInitial_lt hparse
  have hmax : uint32Max.toNat = 2 ^ 32 - 1 := by decide
  obtain ⟨rules', bs, hrun, hsplit, hcounted⟩ := processBursts_counted hlib hinc hsend
  refine ⟨rules', bs, hrun, hsplit, ?_, dropsAtMax hlib hinc hsend⟩
  intro i rule hrule
  obtain ⟨n, hbound, hnow, hsns⟩ := hcounted i rule hrule
  have hfirst := waitForTraffic_currentSn hinc hsmall hstart hrule
  rw [hfirst] at hbound hsns
  refine ⟨n, by omega, ?_, hsns⟩
  have hsn := after_currentSn rule n
  rw [hfirst] at hsn
  rw [hnow, ← hsn]
  rfl

/-- A core that puts packets into transport mode. -/
def transportCtx : CoreCtx := ⟨inlineLib, true, ⟨true, false, .transport, .vnf, .none⟩⟩

/-- A packet of the first rule, with room on both sides. -/
def roomyPacket (frame : List Byte) : Packet :=
  ⟨1#32 <<< 30, single (List.replicate 128 0 ++ frame ++ List.replicate 64 0) 128 60 0x10#32⟩

set_option maxRecDepth 4096 in
theorem sequence_numbers_in_order_udp_frame :
    ∃ rules' bs, processBursts transportCtx [[roomyPacket udpFrame], [roomyPacket udpFrame]]
        [{ udpRule with currentSn := 7 }] = some (rules', bs) ∧
      ∃ n, runSns .transport udpRule 0 [[roomyPacket udpFrame], [roomyPacket udpFrame]] bs =
        snsFrom 7 n := by
  have hsend : Sendable .transport [{ udpRule with currentSn := 7 }] (roomyPacket udpFrame) := by
    refine ⟨⟨by decide, by decide, by decide +kernel, by decide +kernel, by decide +kernel⟩,
      _, rfl, ⟨_, [], rfl, by decide, by decide +kernel⟩, fun _ => by decide +kernel,
      .inr ⟨[], _, rfl, by decide +kernel, fun _ => .inr (by decide +kernel)⟩⟩
  have hbursts : ∀ packets ∈ [[roomyPacket udpFrame], [roomyPacket udpFrame]],
      ∀ packet ∈ packets, Sendable .transport [{ udpRule with currentSn := 7 }] packet := by
    intro packets hpackets packet hpacket
    have hone : packets = [roomyPacket udpFrame] := by
      rcases List.mem_pair.mp hpackets with h | h <;> exact h
    rw [hone, List.mem_singleton] at hpacket
    rw [hpacket]
    exact hsend
  have hparse : parseSnInitial (.int 7) = .ok 7 := by decide
  have hstart : waitForTraffic transportCtx.config 7 [udpRule] =
      some [{ udpRule with currentSn := 7 }] := by decide
  obtain ⟨rules', bs, hrun, -, hsns, -⟩ :=
    sequence_numbers_in_order inlineLib_documented rfl hparse hstart hbursts
  obtain ⟨n, -, -, hsns⟩ := hsns 0 _ rfl
  exact ⟨rules', bs, hrun, n, hsns⟩

set_option maxRecDepth 4096 in
/-- With a total length of eight bytes in the IP header the trailer is written over the sequence
number, and both packets of a burst go out with the same one. -/
theorem sequence_number_reused : Chain (roomyPacket (ipv4Frame 8)).mbuf ∧
    parseSnInitial (.int 7) = .ok 7 ∧
    waitForTraffic transportCtx.config 7 [udpRule] = some [{ udpRule with currentSn := 7 }] ∧
    (processBursts transportCtx [[roomyPacket (ipv4Frame 8), roomyPacket (ipv4Frame 8)]]
        [{ udpRule with currentSn := 7 }]).map (fun r => runSns .transport udpRule 0
          [[roomyPacket (ipv4Frame 8), roomyPacket (ipv4Frame 8)]] r.2) =
      some [[1, 2, 2, 0], [1, 2, 2, 0]] := by
  refine ⟨⟨by decide, by decide, by decide +kernel, by decide +kernel, by decide +kernel⟩,
    by decide, by decide, ?_⟩
  decide +kernel

end Run

end DocaApps.Proofs.SequenceNumbers
