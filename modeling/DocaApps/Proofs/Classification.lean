import DocaApps.Proofs.FlowEncrypt

namespace DocaApps.Proofs.Classification
open Lib.Command Ipsec.Rules Ipsec.Encap Ipsec.FlowCommon Ipsec.FlowEncrypt Ipsec.Config
open Proofs.FlowCommon Proofs.FlowEncrypt

/-- What the hash table promises: no position is given twice, and a position is a
nonnegative `int32_t`. -/
structure HashOk (table : List (Ip6Addr × Nat)) : Prop where
  positions : (table.map Prod.snd).Nodup
  bounded : ∀ e ∈ table, e.2 < 2 ^ 31

/-- The hash library as its manual describes it. -/
def HashFresh (libs : Libs) : Prop :=
  ∀ table ip position, libs.hashPosition table ip = some position →
    position ∉ table.map Prod.snd ∧ position < 2 ^ 31

def Known (table : List (Ip6Addr × Nat)) (ip : Ip6Addr) : Prop := (table.lookup ip).isSome

variable {table : List (Ip6Addr × Nat)} {a b ip : Ip6Addr} {libs : Libs}

theorem mem_of_lookup {p : Nat} (h : table.lookup a = some p) : (a, p) ∈ table := by
  induction table with
  | nil => cases h
  | cons e table ih =>
    obtain ⟨k, q⟩ := e
    rw [List.lookup_cons] at h
    split at h
    · rename_i hk
      cases h
      rw [beq_iff_eq] at hk
      exact hk ▸ List.mem_cons_self ..
    · exact List.mem_cons_of_mem _ (ih h)

theorem HashOk.lookup_injective (h : HashOk table) {p : Nat} (ha : table.lookup a = some p)
    (hb : table.lookup b = some p) : a = b := by
  have heq := List.inj_on_of_nodup_map h.positions (mem_of_lookup ha) (mem_of_lookup hb) rfl
  exact (Prod.mk.inj heq).1

/-- The ids of two registered addresses differ in the metadata word too. -/
theorem HashOk.idOf_injective (h : HashOk table) (ha : Known table a) (hb : Known table b)
    (hid : idOf table a = idOf table b) : a = b := by
  obtain ⟨p, hp⟩ := Option.isSome_iff_exists.mp ha
  obtain ⟨q, hq⟩ := Option.isSome_iff_exists.mp hb
  have hpl := h.bounded _ (mem_of_lookup hp)
  have hql := h.bounded _ (mem_of_lookup hq)
  simp only [idOf, hp, hq, Option.getD_some] at hid
  have hn := congrArg BitVec.toNat hid
  rw [BitVec.toNat_ofNat, BitVec.toNat_ofNat] at hn
  have hpq : p = q := by
    dsimp only at hpl hql
    omega
  exact h.lookup_injective hp (hpq ▸ hq)

theorem addToIp6Table_spec (hfresh : HashFresh libs) {g t : Gateway}
    (h : addToIp6Table libs ip g = .ok () t) (hok : HashOk g.ip6Table) :
    HashOk t.ip6Table ∧ Known t.ip6Table ip ∧
      (∀ k, Known g.ip6Table k → Known t.ip6Table k) ∧ t.table = g.table := by
  obtain ⟨_, g1, h1, h⟩ := bind_eq_ok.mp h
  cases h1
  cases hl : g.ip6Table.lookup ip with
  | some p =>
    rw [hl] at h
    cases h
    exact ⟨hok, by rw [Known, hl]; rfl, fun _ hk => hk, rfl⟩
  | none =>
    rw [hl] at h
    cases hp : libs.hashPosition g.ip6Table ip with
    | none =>
      rw [hp] at h
      cases h
    | some p =>
      rw [hp] at h
      cases h
      obtain ⟨hnew, hlt⟩ := hfresh _ _ _ hp
      refine ⟨⟨List.nodup_cons.mpr ⟨hnew, hok.positions⟩, ?_⟩, ?_, ?_, rfl⟩
      · intro e he
        rcases List.mem_cons.mp he with rfl | he
        · exact hlt
        · exact hok.bounded e he
      · simp [Known]
      · intro k hk
        unfold Known at hk ⊢
        rw [List.lookup_cons]
        split
        · rfl
        · exact hk

theorem parseEncryptIpv6_spec (hfresh : HashFresh libs) {i : Nat} {g t : Gateway}
    (h : parseEncryptIpv6 libs (some a) (some b) i g = .ok () t) (hok : HashOk g.ip6Table) :
    HashOk t.ip6Table ∧ Known t.ip6Table b ∧
      (∀ k, Known g.ip6Table k → Known t.ip6Table k) ∧ t.table = g.table := by
  unfold parseEncryptIpv6 at h
  simp only [Option.elim, pure_bind] at h
  obtain ⟨_, g1, h1, hr1⟩ := bind_eq_ok.mp h
  obtain ⟨_, g2, h2, hr2⟩ := bind_eq_ok.mp hr1
  obtain ⟨_, g3, h3, h4⟩ := bind_eq_ok.mp hr2
  cases h1
  cases h2
  obtain ⟨hok3, _, hmono3, htable3⟩ := addToIp6Table_spec hfresh h3 hok
  obtain ⟨hok4, hdst, hmono4, htable4⟩ := addToIp6Table_spec hfresh h4 hok3
  exact ⟨hok4, hdst, fun k hk => hmono4 k (hmono3 k hk), htable4.trans htable3⟩

theorem parseEncryptIpv6Rules_spec (hfresh : HashFresh libs) (rules : List EncryptRule) :
    ∀ {i : Nat} {g t : Gateway}, parseEncryptIpv6Rules libs i rules g = .ok () t →
    HashOk g.ip6Table →
    HashOk t.ip6Table ∧ (∀ r ∈ rules, Known t.ip6Table r.ip6Dst) ∧
      (∀ k, Known g.ip6Table k → Known t.ip6Table k) ∧ t.table = g.table := by
  induction rules with
  | nil =>
    intro i g t h hok
    cases h
    exact ⟨hok, by simp, fun _ hk => hk, rfl⟩
  | cons rule rules ih =>
    intro i g t h hok
    obtain ⟨_, g1, h1, hrest⟩ := bind_eq_ok.mp h
    obtain ⟨hok1, hdst, hmono1, htable1⟩ := parseEncryptIpv6_spec hfresh h1 hok
    obtain ⟨hokt, hall, hmono, htable⟩ := ih hrest hok1
    refine ⟨hokt, ?_, fun k hk => hmono k (hmono1 k hk), htable.trans htable1⟩
    intro r hr
    rcases List.mem_cons.mp hr with rfl | hr
    · exact hmono _ hdst
    · exact hall r hr

/-- A packet as the two stages see it. -/
structure Packet where
  protocol : L4TypeExt
  src : Ip6Addr
  dst : Ip6Addr
  srcPort : BitVec 16
  dstPort : BitVec 16
  deriving DecidableEq, Repr

/-- The packet has the 5-tuple of the rule. The ports of a rule are plain integers. -/
def HasTuple (p : Packet) (r : EncryptRule) : Prop :=
  r.protocol = p.protocol ∧ r.ip6Src = p.src ∧ r.ip6Dst = p.dst ∧
    r.srcPort = p.srcPort.toNat ∧ r.dstPort = p.dstPort.toNat

def SameTuple (r s : EncryptRule) : Prop :=
  r.protocol = s.protocol ∧ r.ip6Src = s.ip6Src ∧ r.ip6Dst = s.ip6Dst ∧
    r.srcPort = s.srcPort ∧ r.dstPort = s.dstPort

def srcPipe (protocol : L4TypeExt) : Pipe :=
  if protocol = .tcp then .ipv6SrcTcp else .ipv6SrcUdp

def tuplePipe (protocol : L4TypeExt) : Pipe :=
  if protocol = .tcp then .ipv6Tcp else .ipv6Udp

/-- The two stages take the packet to the index `i`: an entry for its source sets an
id, and an entry for this id, its destination and its ports stamps `i`. -/
def LeadsTo (rows : List Entry) (p : Packet) (i : Nat) : Prop :=
  ∃ e ∈ rows, ∃ f ∈ rows, ∃ first second,
    e.pipe = srcPipe p.protocol ∧ e.matching.outerIp6Src = p.src ∧ e.actions = some first ∧
    f.pipe = tuplePipe p.protocol ∧ f.matching.metaU32 = first.metaU32 ∧
    f.matching.outerIp6Dst = p.dst ∧ f.matching.outerSrcPort = p.srcPort ∧
    f.matching.outerDstPort = p.dstPort ∧ f.actions = some second ∧
    (unsecuredRuleIdx second.pktMeta).toNat = i

/-- No two entries of one of the four IPv6 pipes match the same and act differently. -/
def Functional (rows : List Entry) : Prop :=
  ∀ e ∈ rows, ∀ f ∈ rows, e.pipe = f.pipe →
    e.pipe ∈ [Pipe.ipv6SrcTcp, .ipv6SrcUdp, .ipv6Tcp, .ipv6Udp] →
    e.matching = f.matching → e.actions = f.actions

/-- The classification the rules ask for. -/
def ClassifiesRight (rules : List EncryptRule) (rows : List Entry) : Prop :=
  Functional rows ∧ ∀ p : Packet, p.protocol = .tcp ∨ p.protocol = .udp → ∀ i,
    LeadsTo rows p i ↔ ∃ r, rules[i]? = some r ∧ HasTuple p r

/-- The rules of the JSON parser: IPv6, TCP or UDP. -/
def Ip6Rule (r : EncryptRule) : Prop :=
  r.l3Type = .ip6 ∧ (r.protocol = .tcp ∨ r.protocol = .udp)

/-- Both ports of the rule are ports. -/
def PortsValid (r : EncryptRule) : Prop :=
  (0 ≤ r.srcPort ∧ r.srcPort < 2 ^ 16) ∧ (0 ≤ r.dstPort ∧ r.dstPort < 2 ^ 16)

/-- Within one protocol a source has one destination and a destination one source. -/
def Paired (rules : List EncryptRule) : Prop :=
  ∀ r ∈ rules, ∀ s ∈ rules, r.protocol = s.protocol →
    (r.ip6Src = s.ip6Src ↔ r.ip6Dst = s.ip6Dst)

theorem encryptMeta_index {i : Nat} (hi : i < 2 ^ 30) :
    (unsecuredRuleIdx (encryptMeta i)).toNat = i := by
  have hmask : ∀ j < 32, ((1#32 <<< 31 ||| 1#32 <<< 30) - 1#32).getLsbD j = decide (j ≠ 30) := by
    decide
  have hidx : unsecuredRuleIdx (encryptMeta i) = BitVec.ofNat 32 i := by
    apply BitVec.eq_of_getLsbD_eq
    intro j hj
    have hbit : (1#32 <<< 30).getLsbD j = decide (j = 30) := by
      rw [← BitVec.twoPow_eq, BitVec.getLsbD_twoPow]
      simp [eq_comm]
    simp only [unsecuredRuleIdx, encryptMeta, BitVec.getLsbD_and, BitVec.getLsbD_or, hmask j hj,
      hbit]
    by_cases h30 : j = 30
    · subst h30
      have hlow : (BitVec.ofNat 32 i).getLsbD 30 = false := by
        rw [BitVec.getLsbD_ofNat, Nat.testBit_lt_two_pow hi, Bool.and_false]
      rw [hlow]
      rfl
    · simp [h30]
  rw [hidx, BitVec.toNat_ofNat]
  omega

variable {rules : List EncryptRule} {r s : EncryptRule} {cfg : Config} {e : Entry}
variable {protocol : L4TypeExt} {last : Actions} {i j : Nat}

theorem encryptPipe_cases (cfg : Config) (r : EncryptRule) :
    encryptPipe cfg r = .ipv4Encrypt ∨ encryptPipe cfg r = .ipv6Encrypt := by
  unfold encryptPipe
  split <;> split <;> simp

/-- An entry of the JSON rules is one of the classifier of its rule, or of an encrypt pipe. -/
theorem mem_jsonRows (he : e ∈ jsonRows cfg table i rules last) :
    ∃ j r, rules[j]? = some r ∧ (e ∈ classifierRows table r (i + j) ∨
      e.pipe = .ipv4Encrypt ∨ e.pipe = .ipv6Encrypt) := by
  induction rules generalizing i last with
  | nil => cases he
  | cons rule rules ih =>
    rcases List.mem_append.mp he with he | he
    · exact ⟨0, rule, rfl, .inl he⟩
    · rcases List.mem_cons.mp he with rfl | he
      · exact ⟨0, rule, rfl, .inr (encryptPipe_cases cfg rule)⟩
      · obtain ⟨j, r, hr, hrow⟩ := ih he
        rw [Nat.add_right_comm, Nat.add_assoc] at hrow
        exact ⟨j + 1, r, hr, hrow⟩

theorem classifierRows_subset (hr : rules[j]? = some r)
    (he : e ∈ classifierRows table r (i + j)) : e ∈ jsonRows cfg table i rules last := by
  induction rules generalizing i j last with
  | nil => cases hr
  | cons rule rules ih =>
    cases j with
    | zero =>
      cases hr
      exact List.mem_append_left _ he
    | succ j =>
      rw [← Nat.add_assoc, Nat.add_right_comm] at he
      exact List.mem_append_right _ (List.mem_cons_of_mem _ (ih hr he))

theorem classifierRows_ip6 (hr : Ip6Rule r) :
    classifierRows table r i = [srcIp6Row r (idOf table r.ip6Dst),
      fiveTupleRow r i (idOf table r.ip6Dst)] := by
  simp [classifierRows, firstStageRows, stageId, hr.1]

theorem pipe_srcIp6Row (r : EncryptRule) (id : BitVec 32) :
    (srcIp6Row r id).pipe = srcPipe r.protocol := rfl

theorem pipe_fiveTupleRow (hr : Ip6Rule r) (id : BitVec 32) :
    (fiveTupleRow r i id).pipe = tuplePipe r.protocol := by
  simp [fiveTupleRow, getPipeForRule, tuplePipe, hr.1]

theorem matching_fiveTupleRow (hr : Ip6Rule r) (id : BitVec 32) :
    (fiveTupleRow r i id).matching = { Match.zero with
      outerL4TypeExt := r.protocol, outerSrcPort := BitVec.ofInt 16 r.srcPort,
      outerDstPort := BitVec.ofInt 16 r.dstPort, metaU32 := id, outerIp6Dst := r.ip6Dst } := by
  simp only [fiveTupleRow, fiveTupleMatch, hr.1, Match.setL4Ports, hr.2, ↓reduceIte, reduceCtorEq]

theorem srcPipe_ne_tuplePipe (p q : L4TypeExt) : srcPipe p ≠ tuplePipe q := by
  unfold srcPipe tuplePipe
  split <;> split <;> simp

theorem srcPipe_injective {p q : L4TypeExt} (hp : p = .tcp ∨ p = .udp) (hq : q = .tcp ∨ q = .udp)
    (h : srcPipe p = srcPipe q) : p = q := by
  rcases hp with rfl | rfl <;> rcases hq with rfl | rfl <;> first | rfl | cases h

theorem tuplePipe_injective {p q : L4TypeExt} (hp : p = .tcp ∨ p = .udp)
    (hq : q = .tcp ∨ q = .udp) (h : tuplePipe p = tuplePipe q) : p = q := by
  rcases hp with rfl | rfl <;> rcases hq with rfl | rfl <;> first | rfl | cases h

/-- The entries of a source pipe are those of the rules of its protocol. -/
theorem src_row (hrules : ∀ r ∈ rules, Ip6Rule r) (hp : protocol = .tcp ∨ protocol = .udp)
    (he : e ∈ jsonRows cfg table i rules last) (hpipe : e.pipe = srcPipe protocol) :
    ∃ r ∈ rules, r.protocol = protocol ∧ e = srcIp6Row r (idOf table r.ip6Dst) := by
  obtain ⟨j, r, hr, hrow⟩ := mem_jsonRows he
  have hmem := List.mem_of_getElem? hr
  have hr6 := hrules r hmem
  rcases hrow with hrow | hrow | hrow
  · rw [classifierRows_ip6 hr6] at hrow
    rcases List.mem_cons.mp hrow with rfl | hrow
    · exact ⟨r, hmem, srcPipe_injective hr6.2 hp hpipe, rfl⟩
    · obtain rfl := List.mem_singleton.mp hrow
      rw [pipe_fiveTupleRow hr6] at hpipe
      exact absurd hpipe.symm (srcPipe_ne_tuplePipe _ _)
  · rcases hp with rfl | rfl <;> rw [hpipe] at hrow <;> cases hrow
  · rcases hp with rfl | rfl <;> rw [hpipe] at hrow <;> cases hrow

/-- The entries of a 5-tuple pipe are those of the rules of its protocol. -/
theorem tuple_row (hrules : ∀ r ∈ rules, Ip6Rule r) (hp : protocol = .tcp ∨ protocol = .udp)
    (he : e ∈ jsonRows cfg table 0 rules last) (hpipe : e.pipe = tuplePipe protocol) :
    ∃ j r, rules[j]? = some r ∧ r.protocol = protocol ∧
      e = fiveTupleRow r j (idOf table r.ip6Dst) := by
  obtain ⟨j, r, hr, hrow⟩ := mem_jsonRows he
  have hr6 := hrules r (List.mem_of_getElem? hr)
  rcases hrow with hrow | hrow | hrow
  · rw [classifierRows_ip6 hr6, Nat.zero_add] at hrow
    rcases List.mem_cons.mp hrow with rfl | hrow
    · exact absurd hpipe (srcPipe_ne_tuplePipe _ _)
    · obtain rfl := List.mem_singleton.mp hrow
      rw [pipe_fiveTupleRow hr6] at hpipe
      exact ⟨j, r, hr, tuplePipe_injective hr6.2 hp hpipe, rfl⟩
  · rcases hp with rfl | rfl <;> rw [hpipe] at hrow <;> cases hrow
  · rcases hp with rfl | rfl <;> rw [hpipe] at hrow <;> cases hrow

theorem rows_of_rule (hrules : ∀ r ∈ rules, Ip6Rule r) (hr : rules[j]? = some r) :
    srcIp6Row r (idOf table r.ip6Dst) ∈ jsonRows cfg table 0 rules last ∧
      fiveTupleRow r j (idOf table r.ip6Dst) ∈ jsonRows cfg table 0 rules last := by
  have hrow : classifierRows table r (0 + j) = [srcIp6Row r (idOf table r.ip6Dst),
      fiveTupleRow r (0 + j) (idOf table r.ip6Dst)] :=
    classifierRows_ip6 (hrules r (List.mem_of_getElem? hr))
  constructor
  · apply classifierRows_subset hr
    rw [hrow]
    exact List.mem_cons_self ..
  · apply classifierRows_subset hr
    rw [hrow, Nat.zero_add]
    exact List.mem_cons_of_mem _ (List.mem_cons_self ..)

/-- Where a packet goes: to rule `i` when its destination and ports are those of the
rule and some rule with its source has the same destination. -/
theorem leadsTo_iff (hrules : ∀ r ∈ rules, Ip6Rule r) (hmax : rules.length ≤ maxNbRules)
    (hok : HashOk table) (hknown : ∀ r ∈ rules, Known table r.ip6Dst) {p : Packet}
    (hp : p.protocol = .tcp ∨ p.protocol = .udp) :
    LeadsTo (jsonRows cfg table 0 rules last) p i ↔
      ∃ r, rules[i]? = some r ∧ r.protocol = p.protocol ∧ r.ip6Dst = p.dst ∧
        BitVec.ofInt 16 r.srcPort = p.srcPort ∧ BitVec.ofInt 16 r.dstPort = p.dstPort ∧
        ∃ s ∈ rules, s.protocol = p.protocol ∧ s.ip6Src = p.src ∧ s.ip6Dst = p.dst := by
  constructor
  · rintro ⟨e, he, f, hf, first, second, hep, hsrc, hfirst, hfp, hid, hdst, hsp, hdp, hsecond, hi⟩
    obtain ⟨s, hs, hsproto, rfl⟩ := src_row hrules hp he hep
    obtain ⟨j, r, hr, hrproto, rfl⟩ := tuple_row hrules hp hf hfp
    have hmem := List.mem_of_getElem? hr
    have hr6 := hrules r hmem
    cases hfirst
    cases hsecond
    rw [matching_fiveTupleRow hr6] at hid hdst hsp hdp
    have hlt := (List.getElem?_eq_some_iff.mp hr).1
    have hj : j = i := by
      rw [← hi]
      exact (encryptMeta_index (by unfold maxNbRules at hmax; omega)).symm
    subst hj
    have hds := hok.idOf_injective (hknown r hmem) (hknown s hs) hid
    exact ⟨r, hr, hrproto, hdst, hsp, hdp, s, hs, hsproto, hsrc, hds ▸ hdst⟩
  · rintro ⟨r, hr, hrproto, hdst, hsp, hdp, s, hs, hsproto, hsrc, hds⟩
    obtain ⟨k, hk⟩ := List.mem_iff_getElem?.mp hs
    have hr6 := hrules r (List.mem_of_getElem? hr)
    have hlt := (List.getElem?_eq_some_iff.mp hr).1
    refine ⟨_, (rows_of_rule hrules hk).1, _, (rows_of_rule hrules hr).2, _, _, ?_, hsrc, rfl,
      ?_, ?_, ?_, ?_, ?_, rfl, ?_⟩
    · rw [pipe_srcIp6Row, hsproto]
    · rw [pipe_fiveTupleRow hr6, hrproto]
    · rw [matching_fiveTupleRow hr6, hdst, hds]
    · rw [matching_fiveTupleRow hr6]
      exact hdst
    · rw [matching_fiveTupleRow hr6]
      exact hsp
    · rw [matching_fiveTupleRow hr6]
      exact hdp
    · exact encryptMeta_index (by unfold maxNbRules at hmax; omega)

theorem port_eq_iff {x : Int} {q : BitVec 16} (hx : 0 ≤ x ∧ x < 2 ^ 16) :
    BitVec.ofInt 16 x = q ↔ x = q.toNat := by
  have hq := q.isLt
  have hval : ((BitVec.ofInt 16 x).toNat : Int) = x := by
    rw [BitVec.toNat_ofInt]
    omega
  constructor
  · rintro rfl
    exact hval.symm
  · intro h
    apply BitVec.eq_of_toNat_eq
    omega

theorem port_valid {x : Int} (h : x = (BitVec.ofInt 16 x).toNat) : 0 ≤ x ∧ x < 2 ^ 16 := by
  have hlt := (BitVec.ofInt 16 x).isLt
  omega

/-- The packet of a rule, with the ports the hardware compares. -/
def packetOf (r : EncryptRule) (src : Ip6Addr) : Packet :=
  ⟨r.protocol, src, r.ip6Dst, BitVec.ofInt 16 r.srcPort, BitVec.ofInt 16 r.dstPort⟩

/-- Two rules with one 5-tuple are one rule. -/
theorem index_eq_of_sameTuple {k : Nat} (hdistinct : rules.Pairwise fun r s => ¬ SameTuple r s)
    (hj : rules[j]? = some r) (hk : rules[k]? = some s) (hsame : SameTuple r s) : j = k := by
  obtain ⟨hjl, rfl⟩ := List.getElem?_eq_some_iff.mp hj
  obtain ⟨hkl, rfl⟩ := List.getElem?_eq_some_iff.mp hk
  rw [List.pairwise_iff_getElem] at hdistinct
  rcases Nat.lt_trichotomy j k with hlt | heq | hgt
  · exact absurd hsame (hdistinct j k hjl hkl hlt)
  · exact heq
  · obtain ⟨h1, h2, h3, h4, h5⟩ := hsame
    exact absurd ⟨h1.symm, h2.symm, h3.symm, h4.symm, h5.symm⟩ (hdistinct k j hkl hjl hgt)

theorem functional_of_paired (hrules : ∀ r ∈ rules, Ip6Rule r)
    (hdistinct : rules.Pairwise fun r s => ¬ SameTuple r s)
    (hports : ∀ r ∈ rules, PortsValid r) (hpaired : Paired rules) :
    Functional (jsonRows cfg table 0 rules last) := by
  intro e he f hf hpipe hin hmatch
  have hcases : (∃ p, (p = L4TypeExt.tcp ∨ p = .udp) ∧ e.pipe = srcPipe p) ∨
      ∃ p, (p = L4TypeExt.tcp ∨ p = .udp) ∧ e.pipe = tuplePipe p := by
    simp only [List.mem_cons, List.not_mem_nil, or_false] at hin
    rcases hin with h | h | h | h
    · exact .inl ⟨.tcp, .inl rfl, h⟩
    · exact .inl ⟨.udp, .inr rfl, h⟩
    · exact .inr ⟨.tcp, .inl rfl, h⟩
    · exact .inr ⟨.udp, .inr rfl, h⟩
  rcases hcases with ⟨p, hp, hep⟩ | ⟨p, hp, hep⟩
  · obtain ⟨r, hr, hrp, rfl⟩ := src_row hrules hp he hep
    obtain ⟨s, hs, hsp, rfl⟩ := src_row hrules hp hf (hpipe ▸ hep)
    have hsrc : r.ip6Src = s.ip6Src := congrArg Match.outerIp6Src hmatch
    have hdst := (hpaired r hr s hs (hrp.trans hsp.symm)).mp hsrc
    rw [srcIp6Row, srcIp6Row, hdst]
  · obtain ⟨j, r, hj, hrp, rfl⟩ := tuple_row hrules hp he hep
    obtain ⟨k, s, hk, hsp, rfl⟩ := tuple_row hrules hp hf (hpipe ▸ hep)
    have hr := List.mem_of_getElem? hj
    have hs := List.mem_of_getElem? hk
    rw [matching_fiveTupleRow (hrules r hr), matching_fiveTupleRow (hrules s hs)] at hmatch
    have hdst : r.ip6Dst = s.ip6Dst := congrArg Match.outerIp6Dst hmatch
    have hsport := congrArg Match.outerSrcPort hmatch
    have hdport := congrArg Match.outerDstPort hmatch
    have hproto := hrp.trans hsp.symm
    have hsame : SameTuple r s := by
      refine ⟨hproto, (hpaired r hr s hs hproto).mpr hdst, hdst, ?_, ?_⟩
      · rw [(port_eq_iff (hports r hr).1).mp hsport]
        exact ((port_eq_iff (hports s hs).1).mp rfl).symm
      · rw [(port_eq_iff (hports r hr).2).mp hdport]
        exact ((port_eq_iff (hports s hs).2).mp rfl).symm
    rw [fiveTupleRow, fiveTupleRow, index_eq_of_sameTuple hdistinct hj hk hsame]

section
variable (hrules : ∀ r ∈ rules, Ip6Rule r) (hmax : rules.length ≤ maxNbRules)
variable (hok : HashOk table) (hknown : ∀ r ∈ rules, Known table r.ip6Dst)
include hrules hmax hok hknown

/-- A rule whose destination is shared by a rule with the source `src` gets the
packets from `src`, so these must be its own. -/
theorem ClassifiesRight.hasTuple
    (h : ClassifiesRight rules (jsonRows cfg table 0 rules last)) (hr : r ∈ rules) (hs : s ∈ rules)
    (hproto : s.protocol = r.protocol) (hdst : s.ip6Dst = r.ip6Dst) :
    HasTuple (packetOf r s.ip6Src) r := by
  obtain ⟨j, hj⟩ := List.mem_iff_getElem?.mp hr
  have hlead : LeadsTo (jsonRows cfg table 0 rules last) (packetOf r s.ip6Src) j :=
    (leadsTo_iff hrules hmax hok hknown (hrules r hr).2).mpr
      ⟨r, hj, rfl, rfl, rfl, rfl, s, hs, hproto, rfl, hdst⟩
  obtain ⟨r', hr', htuple⟩ := (h.2 _ (hrules r hr).2 j).mp hlead
  rw [hj] at hr'
  cases hr'
  exact htuple

theorem ClassifiesRight.portsValid
    (h : ClassifiesRight rules (jsonRows cfg table 0 rules last)) (hr : r ∈ rules) :
    PortsValid r := by
  obtain ⟨_, _, _, hsp, hdp⟩ := h.hasTuple hrules hmax hok hknown hr hr rfl rfl
  exact ⟨port_valid hsp, port_valid hdp⟩

theorem ClassifiesRight.paired
    (h : ClassifiesRight rules (jsonRows cfg table 0 rules last)) : Paired rules := by
  intro r hr s hs hproto
  constructor
  · intro hsrc
    obtain ⟨j, hj⟩ := List.mem_iff_getElem?.mp hr
    obtain ⟨k, hk⟩ := List.mem_iff_getElem?.mp hs
    have hact := h.1 _ (rows_of_rule hrules hj).1 _ (rows_of_rule hrules hk).1
      (by rw [pipe_srcIp6Row, pipe_srcIp6Row, hproto])
      (by rw [pipe_srcIp6Row]; unfold srcPipe; split <;> simp)
      (by rw [srcIp6Row, srcIp6Row, hsrc])
    have hid : idOf table r.ip6Dst = idOf table s.ip6Dst :=
      congrArg Actions.metaU32 (Option.some.inj hact)
    exact hok.idOf_injective (hknown r hr) (hknown s hs) hid
  · intro hdst
    exact (h.hasTuple hrules hmax hok hknown hr hs hproto.symm hdst.symm).2.1

theorem leadsTo_iff_of_paired (hports : ∀ r ∈ rules, PortsValid r) (hpaired : Paired rules)
    {p : Packet} (hp : p.protocol = .tcp ∨ p.protocol = .udp) :
    LeadsTo (jsonRows cfg table 0 rules last) p i ↔ ∃ r, rules[i]? = some r ∧ HasTuple p r := by
  rw [leadsTo_iff hrules hmax hok hknown hp]
  constructor
  · rintro ⟨r, hr, hproto, hdst, hsp, hdp, s, hs, hsproto, hsrc, hsdst⟩
    have hmem := List.mem_of_getElem? hr
    have hsrcs := (hpaired r hmem s hs (hproto.trans hsproto.symm)).mpr (hdst.trans hsdst.symm)
    exact ⟨r, hr, hproto, hsrcs.trans hsrc, hdst, (port_eq_iff (hports r hmem).1).mp hsp,
      (port_eq_iff (hports r hmem).2).mp hdp⟩
  · rintro ⟨r, hr, hproto, hsrc, hdst, hsp, hdp⟩
    have hmem := List.mem_of_getElem? hr
    exact ⟨r, hr, hproto, hdst, (port_eq_iff (hports r hmem).1).mpr hsp,
      (port_eq_iff (hports r hmem).2).mpr hdp, r, hmem, hproto, hsrc, hdst⟩

end

/-- The pipes after the rules of a JSON file were parsed and installed. -/
theorem installed_rows (hfresh : HashFresh libs) {g parsed installed : Gateway}
    (hrows : g.table = []) (hempty : g.ip6Table = [])
    (hparse : parseEncryptIpv6Rules libs 0 rules g = .ok () parsed)
    (hinstall : addEncryptEntries cfg rules parsed.ip6Table parsed = .ok () installed) :
    HashOk parsed.ip6Table ∧ (∀ r ∈ rules, Known parsed.ip6Table r.ip6Dst) ∧
      installed.table = jsonRows cfg parsed.ip6Table 0 rules .zero := by
  have hok0 : HashOk g.ip6Table := by
    rw [hempty]
    exact ⟨List.nodup_nil, by simp⟩
  obtain ⟨hok, hknown, _, htable⟩ := parseEncryptIpv6Rules_spec hfresh rules hparse hok0
  have hinst := (logs_addEncryptEntries cfg rules parsed.ip6Table).run hinstall
  rw [htable, hrows, List.nil_append] at hinst
  exact ⟨hok, hknown, hinst⟩

/-- The id of the first stage is looked up with the destination, so the two stages
classify right exactly when sources and destinations determine each other within a
protocol (and the ports of the rules are ports). -/
theorem ip6_classification_right_iff (libs : Libs) (hfresh : HashFresh libs) (cfg : Config)
    (rules : List EncryptRule) (hrules : ∀ r ∈ rules, Ip6Rule r)
    (hmax : rules.length ≤ maxNbRules) (hdistinct : rules.Pairwise fun r s => ¬ SameTuple r s)
    (g parsed installed : Gateway) (hrows : g.table = []) (hempty : g.ip6Table = [])
    (hparse : parseEncryptIpv6Rules libs 0 rules g = .ok () parsed)
    (hinstall : addEncryptEntries cfg rules parsed.ip6Table parsed = .ok () installed) :
    ClassifiesRight rules installed.table ↔ (∀ r ∈ rules, PortsValid r) ∧ Paired rules := by
  obtain ⟨hok, hknown, hinst⟩ := installed_rows hfresh hrows hempty hparse hinstall
  rw [hinst]
  constructor
  · intro h
    exact ⟨fun r hr => h.portsValid hrules hmax hok hknown hr, h.paired hrules hmax hok hknown⟩
  · rintro ⟨hports, hpaired⟩
    exact ⟨functional_of_paired hrules hdistinct hports hpaired,
      fun p hp i => leadsTo_iff_of_paired hrules hmax hok hknown hports hpaired hp⟩

/-- A hash that hands out the positions in turn. -/
def countingLibs : Libs where
  inetPton4 _ := none
  inetPton6 _ := none
  hashPosition table _ :=
    let position := (table.map fun e => e.2 + 1).foldr max 0
    if position < 2 ^ 31 then some position else none

theorem lt_foldr_max (table : List (Ip6Addr × Nat)) :
    ∀ n ∈ table.map Prod.snd, n < (table.map fun e => e.2 + 1).foldr max 0 := by
  induction table with
  | nil => simp
  | cons e table ih =>
    intro n hn
    rw [List.map_cons, List.foldr_cons]
    rcases List.mem_cons.mp hn with rfl | hn
    · exact Nat.lt_of_lt_of_le (Nat.lt_succ_self _) (Nat.le_max_left _ _)
    · exact Nat.lt_of_lt_of_le (ih n hn) (Nat.le_max_right _ _)

theorem hashFresh_countingLibs : HashFresh countingLibs := by
  intro table ip position h
  simp only [countingLibs] at h
  split at h
  · cases h
    exact ⟨fun hm => Nat.lt_irrefl _ (lt_foldr_max table _ hm), ‹_›⟩
  · cases h

/-- A TCP rule of the network 2001:db8::/32 between two hosts. -/
def hostRule (src dst : BitVec 32) : EncryptRule :=
  ⟨.ip6, .tcp, ⟨0xb80d0120, 0, 0, src⟩, ⟨0xb80d0120, 0, 0, dst⟩, 1000, 443, .ip6, zeroAddr, 9, 0,
    none, ⟨.icv16, .aesgcm128, List.replicate 32 1, 5, .egressEncrypt⟩⟩

def freshGateway : Gateway := ⟨[], [], .zero, .zero, .zero, [], [], [], 0, 0, 0⟩

def plainConfig : Config := ⟨false, false, .transport, .vnf, .none⟩

/-- Parsing and installing, as one command. -/
def parseAndInstall (rules : List EncryptRule) : Cmd Unit := do
  parseEncryptIpv6Rules countingLibs 0 rules
  addEncryptEntries plainConfig rules (← get).ip6Table

theorem parseAndInstall_run {rules : List EncryptRule} {installed : Gateway}
    (h : parseAndInstall rules freshGateway = .ok () installed) :
    ∃ parsed, parseEncryptIpv6Rules countingLibs 0 rules freshGateway = .ok () parsed ∧
      addEncryptEntries plainConfig rules parsed.ip6Table parsed = .ok () installed := by
  obtain ⟨_, parsed, hparse, hrest⟩ := bind_eq_ok.mp h
  obtain ⟨_, g, hget, hinstall⟩ := bind_eq_ok.mp hrest
  cases hget
  exact ⟨parsed, hparse, hinstall⟩

/-- Two pairs of hosts. -/
theorem ip6_classification_two_pairs :
    ∃ installed, parseAndInstall [hostRule 1 2, hostRule 3 4] freshGateway = .ok () installed ∧
      ClassifiesRight [hostRule 1 2, hostRule 3 4] installed.table := by
  have hrun : (rowsAfter (parseAndInstall [hostRule 1 2, hostRule 3 4]) freshGateway).any
      (fun _ => true) = true := by decide +kernel
  obtain ⟨installed, h, _⟩ := exists_of_rowsAfter hrun
  obtain ⟨parsed, hparse, hinstall⟩ := parseAndInstall_run h
  refine ⟨installed, h, ?_⟩
  refine (ip6_classification_right_iff countingLibs hashFresh_countingLibs plainConfig
    [hostRule 1 2, hostRule 3 4] ?_ (by decide) ?_ freshGateway parsed installed rfl rfl hparse
    hinstall).mpr ⟨?_, ?_⟩
  · simp [Ip6Rule, hostRule]
  · simp [SameTuple, hostRule]
  · simp [PortsValid, hostRule]
  · simp [Paired, hostRule]

/-- One host that talks to two others: the source pipe has two entries for it, with
the ids of the two destinations. -/
theorem ip6_classification_shared_source :
    ∃ installed, parseAndInstall [hostRule 1 2, hostRule 1 3] freshGateway = .ok () installed ∧
      ¬ ClassifiesRight [hostRule 1 2, hostRule 1 3] installed.table := by
  have hrun : (rowsAfter (parseAndInstall [hostRule 1 2, hostRule 1 3]) freshGateway).any
      (fun rows => (srcIp6Row (hostRule 1 2) 1 ∈ rows) && (srcIp6Row (hostRule 1 3) 2 ∈ rows)) =
      true := by decide +kernel
  obtain ⟨installed, h, hrows⟩ := exists_of_rowsAfter hrun
  rw [Bool.and_eq_true, decide_eq_true_eq, decide_eq_true_eq] at hrows
  refine ⟨installed, h, fun hright => ?_⟩
  have hact := hright.1 _ hrows.1 _ hrows.2 rfl (by decide) rfl
  revert hact
  decide

end DocaApps.Proofs.Classification
