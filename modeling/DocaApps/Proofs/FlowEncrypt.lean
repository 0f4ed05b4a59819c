import DocaApps.Ipsec.FlowEncrypt
import DocaApps.Ipsec.Config
import DocaApps.Proofs.FlowCommon

namespace DocaApps.Proofs.FlowEncrypt
open Lib.Command Lib.Endings Ipsec.Rules Ipsec.Encap Ipsec.FlowCommon Ipsec.FlowEncrypt Ipsec.Config
open Proofs.FlowCommon

/-- The row of the source pipe. -/
def srcIp6Row (rule : EncryptRule) (id : BitVec 32) : Entry :=
  ⟨getPipeForRule rule true, { Match.zero with outerIp6Src := rule.ip6Src },
    some { Actions.zero with metaU32 := id }⟩

/-- The row of the TCP or UDP pipe of rule `i`. -/
def fiveTupleRow (rule : EncryptRule) (i : Nat) (id : BitVec 32) : Entry :=
  ⟨getPipeForRule rule false, fiveTupleMatch rule id,
    some { Actions.zero with pktMeta := encryptMeta i }⟩

/-- The id of an address, as it stands in the metadata. -/
def idOf (table : List (Ip6Addr × Nat)) (ip : Ip6Addr) : BitVec 32 :=
  BitVec.ofNat 32 ((table.lookup ip).getD 0)

/-- The id in the second stage of a rule; only an IPv6 rule has a first stage. -/
def stageId (table : List (Ip6Addr × Nat)) (rule : EncryptRule) : BitVec 32 :=
  if rule.l3Type = .ip6 then idOf table rule.ip6Dst else 0

def firstStageRows (table : List (Ip6Addr × Nat)) (rule : EncryptRule) : List Entry :=
  if rule.l3Type = .ip6 then [srcIp6Row rule (idOf table rule.ip6Dst)] else []

def classifierRows (table : List (Ip6Addr × Nat)) (rule : EncryptRule) (i : Nat) : List Entry :=
  firstStageRows table rule ++ [fiveTupleRow rule i (stageId table rule)]

theorem logs_addSrcIp6Entry (port : Port) (rule : EncryptRule) (id : BitVec 32) :
    Logs Gateway.table (addSrcIp6Entry port rule id) [srcIp6Row rule id] := by
  refine Logs.skip Logs.get (fun _ => Logs.bind (logs_pipeAddEntry ..) (fun _ => ?_))
  refine Logs.skip (logs_enqueued ..) (fun _ => Logs.skip Logs.get (fun _ => ?_))
  exact logs_processIf ..

/-- Without an id for its destination an IPv6 rule is refused, so a rule that passes
has the row and the id of its destination. -/
theorem logs_srcIpIdFor (port : Port) (rule : EncryptRule) (table : List (Ip6Addr × Nat)) :
    Logs Gateway.table (srcIpIdFor port rule table) (firstStageRows table rule) := by
  unfold srcIpIdFor firstStageRows
  split
  · cases hid : table.lookup rule.ip6Dst with
    | none => exact Logs.throw _
    | some id =>
      have hof : idOf table rule.ip6Dst = BitVec.ofNat 32 id := by simp [idOf, hid]
      rw [hof]
      have hrow := Logs.bind (logs_addSrcIp6Entry port rule (BitVec.ofNat 32 id))
        (fun _ => Logs.pure (BitVec.ofNat 32 id))
      rwa [List.append_nil] at hrow
  · exact Logs.pure _

theorem returns_srcIpIdFor (port : Port) (rule : EncryptRule) (table : List (Ip6Addr × Nat)) :
    Returns (srcIpIdFor port rule table) (stageId table rule) := by
  constructor
  intro s a t h
  unfold srcIpIdFor at h
  unfold stageId
  split at h
  · rw [if_pos ‹_›]
    cases hid : table.lookup rule.ip6Dst with
    | none =>
      rw [hid] at h
      cases h
    | some id =>
      rw [hid] at h
      obtain ⟨_, _, _, h⟩ := bind_eq_ok.mp h
      cases h
      simp [idOf, hid]
  · rw [if_neg ‹_›]
    cases h
    rfl

theorem logs_addFiveTupleMatchEntry (port : Port) (rule : EncryptRule) (nb i : Nat)
    (table : List (Ip6Addr × Nat)) :
    Logs Gateway.table (addFiveTupleMatchEntry port rule nb i table)
      (classifierRows table rule i) := by
  refine Logs.bind_returns (logs_srcIpIdFor ..) (returns_srcIpIdFor ..) ?_
  refine Logs.skip Logs.get (fun _ => Logs.bind (logs_pipeAddEntry ..) (fun _ => ?_))
  refine Logs.skip (logs_enqueued ..) (fun _ => Logs.skip Logs.get (fun _ => ?_))
  exact logs_processIf ..

/-- The row of the encrypt pipe, with the actions of the row before it. -/
def encryptRow (cfg : Config) (rule : EncryptRule) (i : Nat) (last : Actions) : Entry :=
  ⟨encryptPipe cfg rule, { Match.zero with pktMeta := BitVec.ofNat 32 i },
    some (encryptActions cfg rule i last)⟩

theorem logs_addEncryptEntry (cfg : Config) (rule : EncryptRule) (i : Nat)
    {g t : Gateway} (h : addEncryptEntry cfg rule i g = .ok () t) :
    t.table = g.table ++ (classifierRows g.ip6Table rule i ++ [encryptRow cfg rule i .zero]) := by
  obtain ⟨_, g1, h1, h⟩ := bind_eq_ok.mp h
  obtain ⟨_, g2, h2, h⟩ := bind_eq_ok.mp h
  cases h2
  have htable : g1.table = g.table := by
    cases h1
    rfl
  have hip6 : g1.ip6Table = g.ip6Table := by
    cases h1
    rfl
  rw [← htable, ← hip6]
  refine Logs.run ?_ h
  refine Logs.bind (logs_addFiveTupleMatchEntry ..) (fun _ => ?_)
  refine Logs.skip (logs_createIpsecSharedObject ..) (fun _ => ?_)
  refine Logs.bind (logs_pipeAddEntry ..) (fun _ => Logs.skip (logs_enqueued ..) (fun _ => ?_))
  exact Logs.skip (logs_drain ..) (fun _ => logs_drain ..)

section
variable {inv : Gateway → Prop} (hinv : Tolerant inv)
include hinv

theorem maintains_addSrcIp6Entry (port : Port) (rule : EncryptRule) (id : BitVec 32) :
    Maintains inv (addSrcIp6Entry port rule id) := by
  refine Maintains.bind Maintains.get (fun _ => ?_)
  refine Maintains.bind (maintains_libCheck hinv rfl) (fun _ => ?_)
  refine Maintains.bind (maintains_enqueued hinv _ _) (fun _ => ?_)
  exact Maintains.bind Maintains.get (fun _ => maintains_processIf hinv ..)

theorem maintains_addFiveTupleMatchEntry (port : Port) (rule : EncryptRule) (nb i : Nat)
    (table : List (Ip6Addr × Nat)) :
    Maintains inv (addFiveTupleMatchEntry port rule nb i table) := by
  have hid : Maintains inv (srcIpIdFor port rule table) := by
    refine Maintains.ite ?_ (Maintains.pure _)
    cases table.lookup rule.ip6Dst with
    | none => exact Maintains.throw _
    | some id =>
      exact Maintains.bind (maintains_addSrcIp6Entry hinv ..) (fun _ => Maintains.pure _)
  refine Maintains.bind hid (fun _ => Maintains.bind Maintains.get (fun _ => ?_))
  refine Maintains.bind (maintains_libCheck hinv rfl) (fun _ => ?_)
  refine Maintains.bind (maintains_enqueued hinv _ _) (fun _ => ?_)
  exact Maintains.bind Maintains.get (fun _ => maintains_processIf hinv ..)

theorem maintains_addEncryptEntry (cfg : Config) (rule : EncryptRule) (i : Nat) :
    Maintains inv (addEncryptEntry cfg rule i) := by
  refine Maintains.bind (Maintains.modify (fun g h => ?_)) (fun _ => ?_)
  · exact hinv.status _ _ _ (hinv.status _ _ _ h)
  · refine Maintains.bind Maintains.get (fun _ => ?_)
    refine Maintains.bind (maintains_addFiveTupleMatchEntry hinv ..) (fun _ => ?_)
    refine Maintains.bind (maintains_createIpsecSharedObject hinv ..) (fun _ => ?_)
    refine Maintains.bind (maintains_libCheck hinv rfl) (fun _ => ?_)
    refine Maintains.bind (maintains_enqueued hinv _ _) (fun _ => ?_)
    exact Maintains.bind (maintains_drain hinv ..) (fun _ => maintains_drain hinv ..)

end

theorem steady_addEncryptEntry {δ : Type} {part : Gateway → δ} (hpart : Untouched part)
    (cfg : Config) (rule : EncryptRule) (i : Nat) : Steady part (addEncryptEntry cfg rule i) :=
  Steady.of_maintains (fun v => maintains_addEncryptEntry (hpart.tolerant v) cfg rule i)

/-- What `add_encrypt_entries` leaves in the pipes. -/
def jsonRows (cfg : Config) (table : List (Ip6Addr × Nat)) :
    Nat → List EncryptRule → Actions → List Entry
  | _, [], _ => []
  | i, rule :: rules, last =>
    classifierRows table rule i ++
      (encryptRow cfg rule i last :: jsonRows cfg table (i + 1) rules (encryptActions cfg rule i last))

theorem logs_addEncryptEntriesFrom (cfg : Config) (nb : Nat) (table : List (Ip6Addr × Nat))
    (rules : List EncryptRule) : ∀ i last,
    Logs Gateway.table (addEncryptEntriesFrom cfg nb table i rules last)
      (jsonRows cfg table i rules last) := by
  induction rules with
  | nil => exact fun _ _ => Logs.pure ()
  | cons rule rules ih =>
    intro i last
    refine Logs.skip (logs_createIpsecSa cfg _ (table_setEncryptSa _)) (fun sa => ?_)
    refine Logs.bind (logs_addFiveTupleMatchEntry ..) (fun _ => ?_)
    refine Logs.skip (logs_createIpsecSharedObject ..) (fun _ => Logs.skip Logs.get (fun _ => ?_))
    refine Logs.bind (logs_pipeAddEntry ..) (fun _ => ?_)
    refine Logs.skip (logs_enqueued ..) (fun _ => Logs.skip Logs.get (fun _ => ?_))
    exact Logs.skip (logs_processIf ..) (fun _ => ih _ _)

theorem logs_addEncryptEntries (cfg : Config) (rules : List EncryptRule)
    (table : List (Ip6Addr × Nat)) :
    Logs Gateway.table (addEncryptEntries cfg rules table) (jsonRows cfg table 0 rules .zero) := by
  refine Logs.skip (Logs.modify (fun _ => rfl)) (fun _ => ?_)
  have h := Logs.bind (logs_addEncryptEntriesFrom cfg rules.length table rules 0 .zero)
    (fun _ => Logs.skip (logs_drain (securedPort cfg) .encrypt)
      (fun _ => logs_drain (unsecuredPort cfg) .hairpin))
  rwa [List.append_nil] at h

end DocaApps.Proofs.FlowEncrypt
