import DocaApps.Firewall.Shell
import DocaApps.Proofs.FirewallDrop
import DocaApps.Proofs.MatchFields
import DocaApps.Proofs.ParamsParser
import DocaApps.Proofs.StructSplitting

namespace DocaApps.Proofs.FirewallShell
open Common.FlowParser Common.StructParser Common.ParamsParser Firewall.Shell
open Firewall.Core (RuleMatch bePort dropMatch)
open Common.FlowPipe (L4TypeExt)
open Common.StructFields (MatchField MatchMember L4Header zeroMatch parseFwMatchField store)
open Lib.Members Lib.Numerals Proofs.MatchFields Proofs.StructSplitting

variable {r : RuleMatch} {rules : List RuleMatch} {input : List Char} {inputs : List (List Char)}
  {m : Common.FlowPipe.Match} {ids : PortPipeIds} {unset pipeId : UInt64} {portId : UInt16}
  {a : Answers} {answers : Nat → Answers} {e : DocaError} {calls : List Called}
  {blocks : List (List Called)}

/-- The texts of a rule, as they stand in the file and are typed. -/
structure Texts where
  srcIp : List Char
  dstIp : List Char
  protocol : List Char
  srcPort : List Char
  dstPort : List Char

/-- The texts say what the rule holds. -/
structure Writes (t : Texts) (r : RuleMatch) : Prop where
  srcIp : parseIpv4Str t.srcIp = .ok r.srcIp
  dstIp : parseIpv4Str t.dstIp = .ok r.dstIp
  protocol : parseProtocolString t.protocol = .ok r.protocol
  srcPort : (strtol t.srcPort 0).1 = r.srcPort
  dstPort : (strtol t.dstPort 0).1 = r.dstPort

def ruleFields (header : L4Header) (t : Texts) : List (MatchField × List Char) :=
  [(.ipAddr .outer .src, t.srcIp), (.ipAddr .outer .dst, t.dstIp), (.l4TypeExt .outer, t.protocol),
    (.port .outer header .src, t.srcPort), (.port .outer header .dst, t.dstPort)]

/-- A line that gives the fields of a rule, in any order. -/
def Typed (r : RuleMatch) (input : List Char) : Prop :=
  ∃ (header : L4Header) (t : Texts) (L : List (MatchField × List Char)), Writes t r ∧
    L.Perm (ruleFields header t) ∧ Fields input (L.map fun p => ((fieldName p.1).toList, p.2)) ∧
    Short (L.map fun p => ((fieldName p.1).toList, p.2)) ∧ input.length < maxCmdlineInputLen

/-- What a field of a rule writes in the match of the shell. -/
def written (r : RuleMatch) : MatchField → Sigma MatchMember.Value
  | .ipAddr .outer .src => ⟨.ip4Addr .outer .src, r.srcIp⟩
  | .ipAddr .outer .dst => ⟨.ip4Addr .outer .dst, r.dstIp⟩
  | .l4TypeExt .outer => ⟨.l4TypeExt .outer, r.protocol⟩
  | .port .outer _ .src => ⟨.l4Port .outer .src, bePort r.srcPort⟩
  | .port .outer _ .dst => ⟨.l4Port .outer .dst, bePort r.dstPort⟩
  | _ => ⟨.l3Type .outer, .ip4⟩

/-- The match of the shell for a rule. -/
def shellMatch (r : RuleMatch) : Common.StructFields.Match :=
  assignAll zeroMatch
    [⟨.l3Type .outer, .ip4⟩, ⟨.ip4Addr .outer .src, r.srcIp⟩, ⟨.ip4Addr .outer .dst, r.dstIp⟩,
      ⟨.l4TypeExt .outer, r.protocol⟩, ⟨.l4Port .outer .src, bePort r.srcPort⟩,
      ⟨.l4Port .outer .dst, bePort r.dstPort⟩]

variable {header : L4Header} {t : Texts} {p : MatchField × List Char}
  {L : List (MatchField × List Char)}

/-- Each field of a rule sets the type of the addresses, and then writes its own member. -/
theorem parseFwMatchField_rule (h : Writes t r) (hp : p ∈ ruleFields header t)
    (s : Common.StructFields.Match) :
    parseFwMatchField (fieldName p.1) p.2 s =
      some (.ok (), assignAll s [⟨.l3Type .outer, .ip4⟩, written r p.1]) := by
  have hport : ∀ side text, parseFwMatchField (fieldName (.port .outer header side)) text s =
      some (.ok (), assignAll s [⟨.l3Type .outer, .ip4⟩,
        ⟨.l4Port .outer side, bePort (strtol text 0).1⟩]) := by
    intro side text
    cases header <;> cases side <;> rfl
  simp only [ruleFields, List.mem_cons, List.not_mem_nil, or_false] at hp
  rcases hp with rfl | rfl | rfl | rfl | rfl
  · simp [parseFwMatchField, fieldName, layerName, sideName, h.srcIp, store, written]
  · simp [parseFwMatchField, fieldName, layerName, sideName, h.dstIp, store, written]
  · simp [parseFwMatchField, fieldName, layerName, h.protocol, store, written]
  · rw [hport, h.srcPort]
    rfl
  · rw [hport, h.dstPort]
    rfl

theorem fillAll_rule (h : Writes t r) (hL : ∀ p ∈ L, p ∈ ruleFields header t)
    (s : Common.StructFields.Match) :
    fillAll (filling parseFwMatchField) (L.map fun p => ((fieldName p.1).toList, p.2)) (some s) =
      ⟨L.map fun p => ((fieldName p.1).toList, p.2),
        some (assignAll s (L.flatMap fun p => [⟨.l3Type .outer, .ip4⟩, written r p.1])),
        .returned (.ok ())⟩ := by
  induction L generalizing s with
  | nil => rfl
  | cons p L ih =>
    have hp := parseFwMatchField_rule h (hL p (by simp)) s
    simp only [List.map_cons, fillAll, filling, Option.bind_some, String.ofList_toList, hp]
    rw [ih fun q hq => hL q (by simp [hq])]
    rfl

theorem shellMatch_l3Type (r : RuleMatch) : shellMatch r (.l3Type .outer) = .ip4 := rfl

theorem shellMatch_written (r : RuleMatch) (hp : p ∈ ruleFields header t) :
    (written r p.1).2 = shellMatch r (written r p.1).1 := by
  simp only [ruleFields, List.mem_cons, List.not_mem_nil, or_false] at hp
  rcases hp with rfl | rfl | rfl | rfl | rfl <;> rfl

/-- The fields of a rule make its match in any order. -/
theorem assignAll_rule (hL : L.Perm (ruleFields header t)) :
    assignAll zeroMatch (L.flatMap fun p => [⟨.l3Type .outer, .ip4⟩, written r p.1]) =
      shellMatch r := by
  apply assignAll_of_agree
  · intro w hw
    obtain ⟨p, hp, hw⟩ := List.mem_flatMap.mp hw
    rcases List.mem_pair.mp hw with rfl | rfl
    · rfl
    · exact shellMatch_written r (hL.mem_iff.mp hp)
  · intro m hm
    symm
    apply assignAll_unwritten
    have hwritten : ∀ p ∈ ruleFields header t, (written r p.1).1 ≠ m := fun p hp =>
      hm _ (List.mem_flatMap.mpr ⟨p, hL.mem_iff.mpr hp, by simp⟩)
    have hfirst : (MatchMember.l3Type .outer) ≠ m :=
      hm ⟨.l3Type .outer, .ip4⟩ (List.mem_flatMap.mpr
        ⟨(.l4TypeExt .outer, t.protocol), hL.mem_iff.mpr (by simp [ruleFields]), by simp⟩)
    simp only [ruleFields, List.forall_mem_cons] at hwritten
    obtain ⟨h₁, h₂, h₃, h₄, h₅, -⟩ := hwritten
    simp only [List.forall_mem_cons]
    exact ⟨hfirst, h₁, h₂, h₃, h₄, h₅, by simp⟩

/-- Typing a rule makes its match. -/
theorem cmdFwCreateStructParsed_typed (h : Typed r input) :
    cmdFwCreateStructParsed input = some (shellMatch r) := by
  obtain ⟨header, t, L, hwrites, hperm, hfields, hshort, hlen⟩ := h
  have hfill := fillAll_rule hwrites (fun p hp => hperm.mem_iff.mp hp) zeroMatch
  rw [assignAll_rule hperm] at hfill
  rw [cmdFwCreateStructParsed, fields_parse hfields hshort hlen, hfill]

/-- The calls of one `add entry` command for a rule. -/
def typedCalls (ids : PortPipeIds) (portId : UInt16) (unset : UInt64) (r : RuleMatch)
    (a : Answers) : List Called :=
  pipeAddEntry ids portId (flowMatch (shellMatch r)) a unset

/-- The calls of a typed list of rules. -/
def typedLog (ids : PortPipeIds) (portId : UInt16) (unset : UInt64) :
    List RuleMatch → (Nat → Answers) → List (List Called)
  | [], _ => []
  | r :: rules, answers =>
    typedCalls ids portId unset r (answers 0) ::
      typedLog ids portId unset rules fun i => answers (i + 1)

theorem typeRules_eq {params : List Char} (h : List.Forall₂ Typed rules inputs)
    (hparams : parseFwAddEntryParams params = .ok portId) (answers : Nat → Answers) :
    typeRules ids params unset inputs answers = some (typedLog ids portId unset rules answers) := by
  induction h generalizing answers with
  | nil => rfl
  | cons hr _ ih =>
    simp only [typeRules, cmdFwCreateStructParsed_typed hr, cmdFwAddEntryParsed, hparams, ih]
    rfl

/-- An addition of an entry, with what a rule determines of it. -/
structure Addition where
  pipeQueue : UInt16
  pipeId : UInt64
  srcIp : BitVec 32
  dstIp : BitVec 32
  protocol : L4TypeExt
  srcPort : BitVec 16
  dstPort : BitVec 16
  deriving DecidableEq, Repr

def addition : Called → Option Addition
  | .pipeAddEntry e _ => some
    { pipeQueue := e.pipeQueue
      pipeId := e.pipeId
      srcIp := e.pattern.outer.srcIp
      dstIp := e.pattern.outer.dstIp
      protocol := e.pattern.outer.l4TypeExt
      srcPort := e.pattern.outer.l4SrcPort
      dstPort := e.pattern.outer.l4DstPort }
  | _ => none

def additions (log : List (List Called)) : List Addition := log.flatten.filterMap addition

/-- The calls for one rule on a port: an addition, the processing of the port and the queue it
was queued on, and a check of the entry, which is made only if the addition succeeded. -/
inductive Followed (portId : UInt16) : List Called → Prop where
  | refused {e : AddEntry} {err : DocaError} : Followed portId [.pipeAddEntry e (.error err)]
  | refusedProcessed {e : AddEntry} {err : DocaError} {answer : Except DocaError Unit} :
      Followed portId
        [.pipeAddEntry e (.error err), .entriesProcess portId e.pipeQueue answer]
  | unprocessed {e : AddEntry} {entryId : UInt64} {err : DocaError} :
      Followed portId
        [.pipeAddEntry e (.ok entryId), .entriesProcess portId e.pipeQueue (.error err)]
  | checked {e : AddEntry} {entryId : UInt64} {answer : Except DocaError Bool} :
      Followed portId
        [.pipeAddEntry e (.ok entryId), .entriesProcess portId e.pipeQueue (.ok ()),
          .pipeEntryGetStatus entryId answer]

/-- The server adds, processes and confirms the entry. -/
def Accepted (a : Answers) : Prop :=
  (∃ entryId, a.add = .ok entryId) ∧ a.process = .ok () ∧ a.status = .ok true

/-- The processing fails unless the addition succeeds. -/
def Guarded (a : Answers) : Prop := (∃ entryId, a.add = .ok entryId) ∨ ∃ e, a.process = .error e

theorem addDropEntry_followed (portId : UInt16) (pipeId : UInt64)
    (m : Common.FlowPipe.Match) (a : Answers) :
    Followed portId (addDropEntry portId pipeId m a).2 := by
  obtain ⟨add, process, status⟩ := a
  cases add with
  | error err => exact .refused
  | ok entryId =>
    cases process with
    | error e => exact .unprocessed
    | ok _ =>
      unfold addDropEntry
      dsimp only
      split <;> exact .checked

/-- The static mode follows up every addition as it should. -/
theorem addDropEntries_followed (portId : UInt16) (pipeId : UInt64) (rules : List RuleMatch)
    (m : Common.FlowPipe.Match) (answers : Nat → Answers) :
    ∀ calls ∈ (addDropEntries portId pipeId m rules answers).2, Followed portId calls := by
  induction rules generalizing m answers with
  | nil => simp [addDropEntries]
  | cons r rules ih =>
    have hfirst := addDropEntry_followed portId pipeId (dropMatch r m) (answers 0)
    unfold addDropEntries
    dsimp only
    split
    · rename_i heq
      rw [heq] at hfirst
      simpa using hfirst
    · rename_i heq
      rw [heq] at hfirst
      simp only [List.forall_mem_cons]
      exact ⟨hfirst, ih _ _⟩

/-- The shell processes queue `portId` of port 0, and checks an entry that was not added. -/
theorem typedCalls_followed (portId : UInt16) (r : RuleMatch) (a : Answers) :
    Followed portId (typedCalls ids portId unset r a) ↔ portId = 0 ∧ Guarded a := by
  obtain ⟨add, process, status⟩ := a
  constructor
  · intro h
    cases add with
    | error err =>
      cases process with
      | error e =>
        cases h
        exact ⟨rfl, Or.inr ⟨e, rfl⟩⟩
      | ok _ => cases h
    | ok entryId =>
      cases process with
      | error e =>
        cases h
        exact ⟨rfl, Or.inl ⟨entryId, rfl⟩⟩
      | ok _ =>
        cases h
        exact ⟨rfl, Or.inl ⟨entryId, rfl⟩⟩
  · rintro ⟨rfl, ⟨entryId, hadd⟩ | ⟨e, hprocess⟩⟩
    · obtain rfl : add = .ok entryId := hadd
      cases process with
      | error e => exact .unprocessed
      | ok _ => exact .checked
    · obtain rfl : process = .error e := hprocess
      cases add with
      | error err => exact .refusedProcessed
      | ok entryId => exact .unprocessed

/-- The addition of a match to a pipe, on queue 0. -/
def matchAddition (pipeId : UInt64) (m : Common.FlowPipe.Match) : Addition where
  pipeQueue := 0
  pipeId := pipeId
  srcIp := m.outer.srcIp
  dstIp := m.outer.dstIp
  protocol := m.outer.l4TypeExt
  srcPort := m.outer.l4SrcPort
  dstPort := m.outer.l4DstPort

theorem addDropEntry_additions (portId : UInt16) (pipeId : UInt64)
    (m : Common.FlowPipe.Match) (a : Answers) :
    (addDropEntry portId pipeId m a).2.filterMap addition = [matchAddition pipeId m] := by
  unfold addDropEntry
  dsimp only
  repeat' split
  all_goals rfl

/-- The static mode goes on after a rule exactly when the server has accepted it. -/
theorem addDropEntry_ok (portId : UInt16) (pipeId : UInt64) (m : Common.FlowPipe.Match)
    (a : Answers) : (addDropEntry portId pipeId m a).1 = .ok () ↔ Accepted a := by
  obtain ⟨add, process, status⟩ := a
  cases add with
  | error err => simp [addDropEntry, Accepted]
  | ok entryId =>
    cases process with
    | error e => simp [addDropEntry, Accepted]
    | ok _ =>
      cases status with
      | error e => simp [addDropEntry, Accepted]
      | ok stands => cases stands <;> simp [addDropEntry, Accepted]

theorem typedCalls_additions (portId : UInt16) (r : RuleMatch) (a : Answers) :
    (typedCalls ids portId unset r a).filterMap addition =
      [matchAddition (ids portId) (flowMatch (shellMatch r))] := by
  unfold typedCalls pipeAddEntry
  dsimp only
  split <;> rfl

theorem typedLog_additions (portId : UInt16) (rules : List RuleMatch) (answers : Nat → Answers) :
    additions (typedLog ids portId unset rules answers) =
      rules.map fun r => matchAddition (ids portId) (flowMatch (shellMatch r)) := by
  induction rules generalizing answers with
  | nil => rfl
  | cons r rules ih =>
    have hrest := ih fun i => answers (i + 1)
    unfold additions at hrest ⊢
    rw [typedLog, List.flatten_cons, List.filterMap_append, typedCalls_additions, hrest]
    rfl

/-- The two ports of the rule are the same number of sixteen bits. -/
def SamePorts (r : RuleMatch) : Prop := BitVec.ofInt 16 r.srcPort = BitVec.ofInt 16 r.dstPort

/-- The static mode exchanges the ports of a rule. -/
theorem matchAddition_eq_iff (pipeId : UInt64) (r : RuleMatch) (m : Common.FlowPipe.Match) :
    matchAddition pipeId (flowMatch (shellMatch r)) = matchAddition pipeId (dropMatch r m) ↔
      SamePorts r := by
  have hshell : matchAddition pipeId (flowMatch (shellMatch r)) =
      ⟨0, pipeId, r.srcIp, r.dstIp, r.protocol, bePort r.srcPort, bePort r.dstPort⟩ := rfl
  have hdrop : matchAddition pipeId (dropMatch r m) =
      ⟨0, pipeId, r.srcIp, r.dstIp, r.protocol, bePort r.dstPort, bePort r.srcPort⟩ := rfl
  rw [hshell, hdrop, SamePorts]
  constructor
  · intro h
    have hports : bePort r.srcPort = bePort r.dstPort := (Addition.mk.inj h).2.2.2.2.2.1
    unfold bePort at hports
    rw [← FlowPipe.rteCpuToBe16_involutive (BitVec.ofInt 16 r.srcPort), hports,
      FlowPipe.rteCpuToBe16_involutive]
  · intro h
    rw [bePort, bePort, h]

/-- Both modes add the same when the ports do not differ and the static mode comes to the last
rule. -/
theorem additions_eq_iff (portId : UInt16) (m : Common.FlowPipe.Match) (rules : List RuleMatch)
    (answers : Nat → Answers) :
    (rules.map fun r => matchAddition pipeId (flowMatch (shellMatch r))) =
        additions (addDropEntries portId pipeId m rules answers).2 ↔
      (∀ r ∈ rules, SamePorts r) ∧ ∀ i, i + 1 < rules.length → Accepted (answers i) := by
  induction rules generalizing m answers with
  | nil => simp [addDropEntries, additions]
  | cons r rules ih =>
    have hblock := addDropEntry_additions portId pipeId (dropMatch r m) (answers 0)
    have hresult := addDropEntry_ok portId pipeId (dropMatch r m) (answers 0)
    have hrest := ih (dropMatch r m) fun i => answers (i + 1)
    have hindex : (∀ i, i + 1 < (r :: rules).length → Accepted (answers i)) ↔
        (rules ≠ [] → Accepted (answers 0)) ∧
          ∀ i, i + 1 < rules.length → Accepted (answers (i + 1)) := by
      constructor
      · intro h
        refine ⟨fun hne => h 0 ?_, fun i hi => h (i + 1) (by simpa using hi)⟩
        simpa using List.length_pos_of_ne_nil hne
      · rintro ⟨hfirst, hothers⟩ i hi
        cases i with
        | zero =>
          apply hfirst
          rintro rfl
          simp at hi
        | succ i => exact hothers i (by simpa using hi)
    rw [List.forall_mem_cons, hindex, ← matchAddition_eq_iff pipeId r m]
    unfold addDropEntries
    dsimp only
    rcases heq : addDropEntry portId pipeId (dropMatch r m) (answers 0) with ⟨_ | _, calls⟩
    · -- the static mode stops here
      have hnot : ¬ Accepted (answers 0) := by
        rw [← hresult, heq]
        simp
      simp only [heq] at hblock
      simp only [additions, List.flatten_cons, List.flatten_nil, List.append_nil, hblock,
        List.map_cons, List.cons.injEq, List.map_eq_nil_iff, hnot, imp_false, not_not]
      constructor
      · rintro ⟨hsame, rfl⟩
        simp [hsame]
      · rintro ⟨⟨hsame, -⟩, hnil, -⟩
        exact ⟨hsame, hnil⟩
    · have hyes : Accepted (answers 0) := by
        rw [← hresult, heq]
      simp only [heq] at hblock
      simp only [additions, List.flatten_cons, List.filterMap_append, hblock, List.map_cons,
        List.singleton_append, List.cons.injEq, hyes, implies_true, true_and] at hrest ⊢
      rw [hrest, and_assoc]

/-- On a server that accepts every rule the static mode adds the entries of its drop pipe. -/
theorem additions_of_accepted (portId : UInt16) (m : Common.FlowPipe.Match)
    (rules : List RuleMatch) (answers : Nat → Answers)
    (h : ∀ i < rules.length, Accepted (answers i)) :
    additions (addDropEntries portId pipeId m rules answers).2 =
      rules.map fun r => matchAddition pipeId (FirewallDrop.dropEntry r).pattern := by
  induction rules generalizing m answers with
  | nil => rfl
  | cons r rules ih =>
    have hblock := addDropEntry_additions portId pipeId (dropMatch r m) (answers 0)
    have hok := (addDropEntry_ok portId pipeId (dropMatch r m) (answers 0)).mpr (h 0 (by simp))
    have hrest := ih (dropMatch r m) (fun i => answers (i + 1)) fun i hi => h (i + 1) (by simpa)
    rcases heq : addDropEntry portId pipeId (dropMatch r m) (answers 0) with ⟨_ | _, calls⟩
    · rw [heq] at hok
      cases hok
    · rw [heq] at hblock
      unfold additions at hrest ⊢
      unfold addDropEntries
      simp only [heq, List.flatten_cons, List.filterMap_append, hblock, hrest, List.map_cons]
      rfl

/-- What the static mode does on a port. -/
def staticLog (ids : PortPipeIds) (rules : List RuleMatch) (answers : UInt16 → Nat → Answers)
    (portId : UInt16) : List (List Called) :=
  ((firewallAddDropRules ids rules answers).2.lookup portId).getD []

/-- The typed rules do what the static mode does with the same rules on port `p`; a port that has
no pipe is rejected. -/
structure Agrees (ids : PortPipeIds) (rules : List RuleMatch) (answers : UInt16 → Nat → Answers)
    (p : Nat) (typed : List (List Called)) : Prop where
  additions : p < nbPorts → additions typed = additions (staticLog ids rules answers (.ofNat p))
  followed : p < nbPorts → ∀ calls ∈ typed, Followed (.ofNat p) calls
  static : ∀ portId, ∀ calls ∈ staticLog ids rules answers portId, Followed portId calls
  rejected : ¬ p < nbPorts → typed.flatten = []

/-- A port id as the shell takes it from its text. -/
def portOf (p : Nat) : UInt16 := .ofNat (clampUlong 1 p)

theorem portOf_of_lt {p : Nat} (h : p < nbPorts) : portOf p = .ofNat p := by
  have hsmall : p < 2 := h
  rw [portOf, ParamsParser.clampUlong_of_lt (by omega)]

theorem addDropRules_followed (ids : PortPipeIds) (rules : List RuleMatch)
    (answers : UInt16 → Nat → Answers) (ports : List UInt16) (portId : UInt16) :
    ∀ calls ∈ ((addDropRules ids rules answers ports).2.lookup portId).getD [],
      Followed portId calls := by
  induction ports with
  | nil => simp [addDropRules]
  | cons port ports ih =>
    have hfirst := addDropEntries_followed port (ids port) rules .zero (answers port)
    unfold addDropRules
    by_cases hport : portId = port
    · subst hport
      split <;> rename_i heq <;> simpa [heq] using hfirst
    · have hne : (portId == port) = false := by simpa using hport
      split
      · simp [List.lookup, hne]
      · simpa [List.lookup, hne] using ih

theorem staticLog_zero (ids : PortPipeIds) (rules : List RuleMatch)
    (answers : UInt16 → Nat → Answers) :
    staticLog ids rules answers 0 = (addDropEntries 0 (ids 0) .zero rules (answers 0)).2 := by
  have hports : (List.range nbPorts).map UInt16.ofNat = [0, 1] := by decide
  unfold staticLog firewallAddDropRules
  rw [hports, addDropRules]
  split <;> simp_all

theorem typedLog_ne_nil (portId : UInt16) (r : RuleMatch) (rules : List RuleMatch)
    (answers : Nat → Answers) :
    (typedLog ids portId unset (r :: rules) answers).flatten ≠ [] := by
  unfold typedLog typedCalls pipeAddEntry
  dsimp only
  split <;> simp

theorem typedLog_followed (portId : UInt16) (rules : List RuleMatch) (answers : Nat → Answers) :
    (∀ calls ∈ typedLog ids portId unset rules answers, Followed portId calls) ↔
      ∀ i < rules.length, portId = 0 ∧ Guarded (answers i) := by
  induction rules generalizing answers with
  | nil => simp [typedLog]
  | cons r rules ih =>
    rw [typedLog, List.forall_mem_cons, typedCalls_followed, ih]
    constructor
    · rintro ⟨hfirst, hrest⟩ i hi
      cases i with
      | zero => exact hfirst
      | succ i => exact hrest i (by simpa using hi)
    · intro h
      exact ⟨h 0 (by simp), fun i hi => h (i + 1) (by simpa using hi)⟩

/-- When the typed rules do what the static mode does: on port 0, for rules whose two ports are
the same number, on a server that accepts all rules but the last, and whose processing fails
unless the addition has succeeded. -/
def Agreeing (rules : List RuleMatch) (answers : UInt16 → Nat → Answers) (p : Nat) : Prop :=
  rules = [] ∨ p = 0 ∧ (∀ r ∈ rules, SamePorts r) ∧
    (∀ i, i + 1 < rules.length → Accepted (answers 0 i)) ∧
    ∀ i < rules.length, Guarded (answers 0 i)

theorem agrees_iff (ids : PortPipeIds) (rules : List RuleMatch)
    (answers : UInt16 → Nat → Answers) (p : Nat) (unset : UInt64) :
    Agrees ids rules answers p (typedLog ids (portOf p) unset rules (answers (portOf p))) ↔
      Agreeing rules answers p := by
  have hstatic : ∀ portId, ∀ calls ∈ staticLog ids rules answers portId,
      Followed portId calls := fun portId => addDropRules_followed ids rules answers _ portId
  cases rules with
  | nil =>
    refine ⟨fun _ => Or.inl rfl, fun _ => ⟨fun hp => ?_, ?_, hstatic, fun _ => rfl⟩⟩
    · have hsmall : p = 0 ∨ p = 1 := by
        have hlt : p < 2 := hp
        omega
      rcases hsmall with rfl | rfl <;> rfl
    · simp [typedLog]
  | cons r rules =>
    constructor
    · rintro ⟨hadditions, hfollowed, -, hrejected⟩
      have hp : p < nbPorts := by
        by_contra hnone
        exact typedLog_ne_nil _ _ _ _ (hrejected hnone)
      have hport := portOf_of_lt hp
      have hall := hfollowed hp
      rw [← hport, typedLog_followed] at hall
      have hfirst : portOf p = 0 := (hall 0 (by simp)).1
      have hzero : p = 0 := by
        have hlt : p < 2 := hp
        rw [hport] at hfirst
        have hnat := congrArg UInt16.toNat hfirst
        simp only [UInt16.toNat_ofNat', UInt16.toNat_zero] at hnat
        omega
      subst hzero
      have hsame := hadditions hp
      rw [typedLog_additions, hfirst] at hsame
      have hrun : staticLog ids (r :: rules) answers (.ofNat 0) = _ := staticLog_zero ids _ _
      rw [hrun, additions_eq_iff] at hsame
      refine Or.inr ⟨rfl, hsame.1, hsame.2, fun i hi => ?_⟩
      have hguarded := (hall i hi).2
      rwa [hfirst] at hguarded
    · rintro (hnil | ⟨rfl, hports, haccepted, hguarded⟩)
      · cases hnil
      · have hport : portOf 0 = 0 := by decide
        rw [hport]
        refine ⟨fun _ => ?_, fun _ => ?_, hstatic, fun h => absurd (by decide) h⟩
        · have hrun : staticLog ids (r :: rules) answers (.ofNat 0) = _ := staticLog_zero ids _ _
          rw [typedLog_additions, hrun, additions_eq_iff]
          exact ⟨hports, haccepted⟩
        · exact (typedLog_followed 0 _ _).mpr fun i hi => ⟨rfl, hguarded i hi⟩

/-- Typing the rules on a port does what the static mode does exactly in these cases. -/
theorem typed_agrees_iff {portText : List Char} {p : Nat} (h : List.Forall₂ Typed rules inputs)
    (hport : CNumber portText p) (hlen : portText.length < maxCmdlineInputLen)
    (ids : PortPipeIds) (answers : UInt16 → Nat → Answers) (unset : UInt64) :
    (∃ typed, typeRules ids ("port_id=".toList ++ portText) unset inputs (answers (portOf p)) =
        some typed ∧ Agrees ids rules answers p typed) ↔ Agreeing rules answers p := by
  have hparams := ParamsParser.parseFwAddEntryParams_number hport hlen
  rw [typeRules_eq h hparams, ← agrees_iff ids rules answers p unset]
  simp [portOf]

/-- A server that takes everything. -/
def accepting : UInt16 → Nat → Answers := fun _ i => ⟨.ok (.ofNat i), .ok (), .ok true⟩

def sampleRule (srcPort dstPort : Int) : RuleMatch :=
  ⟨.tcp, beIpv4Addr 1 2 3 4, beIpv4Addr 5 6 7 8, srcPort, dstPort⟩

def sampleTexts (srcPort dstPort : List Char) : Texts where
  srcIp := "1.2.3.4".toList
  dstIp := "5.6.7.8".toList
  protocol := "tcp".toList
  srcPort := srcPort
  dstPort := dstPort

def sampleLine (srcPort dstPort : List Char) : List Char :=
  "outer.src_ip_addr".toList ++ '=' :: ("1.2.3.4".toList ++ ',' ::
    ("outer.dst_ip_addr".toList ++ '=' :: ("5.6.7.8".toList ++ ',' ::
      ("outer.l4_type_ext".toList ++ '=' :: ("tcp".toList ++ ',' ::
        ("outer.tcp_src_port".toList ++ '=' :: (srcPort ++ ',' ::
          ("outer.tcp_dst_port".toList ++ '=' :: dstPort))))))))

theorem sampleLine_length (srcPort dstPort : List Char) :
    (sampleLine srcPort dstPort).length = 113 + srcPort.length + dstPort.length := by
  have hsrcName : "outer.src_ip_addr".toList.length = 17 := by decide
  have hdstName : "outer.dst_ip_addr".toList.length = 17 := by decide
  have hl4Name : "outer.l4_type_ext".toList.length = 17 := by decide
  have hsrcPort : "outer.tcp_src_port".toList.length = 18 := by decide
  have hdstPort : "outer.tcp_dst_port".toList.length = 18 := by decide
  have hsrcIp : "1.2.3.4".toList.length = 7 := by decide
  have hdstIp : "5.6.7.8".toList.length = 7 := by decide
  have hprotocol : "tcp".toList.length = 3 := by decide
  unfold sampleLine
  iterate 9 rw [List.length_append, List.length_cons]
  rw [hsrcName, hdstName, hl4Name, hsrcPort, hdstPort, hsrcIp, hdstIp, hprotocol]
  omega

theorem sampleLine_typed {srcPort dstPort : List Char} {src dst : Int}
    (hsrc : (strtol srcPort 0).1 = src) (hdst : (strtol dstPort 0).1 = dst)
    (hs : (srcPort ≠ [] ∧ ',' ∉ srcPort) ∧ srcPort.length < 8)
    (hd : (dstPort ≠ [] ∧ ',' ∉ dstPort) ∧ dstPort.length < 8) :
    Typed (sampleRule src dst) (sampleLine srcPort dstPort) := by
  have hpairs : (ruleFields .tcp (sampleTexts srcPort dstPort)).map
      (fun p => ((fieldName p.1).toList, p.2)) =
      [("outer.src_ip_addr".toList, "1.2.3.4".toList),
        ("outer.dst_ip_addr".toList, "5.6.7.8".toList), ("outer.l4_type_ext".toList, "tcp".toList),
        ("outer.tcp_src_port".toList, srcPort), ("outer.tcp_dst_port".toList, dstPort)] := by
    simp [ruleFields, sampleTexts, fieldName, layerName, sideName, l4HeaderName]
  have hsrcIp : parseIpv4Str "1.2.3.4".toList = .ok (beIpv4Addr 1 2 3 4) := by decide
  have hdstIp : parseIpv4Str "5.6.7.8".toList = .ok (beIpv4Addr 5 6 7 8) := by decide
  have hprotocol : parseProtocolString "tcp".toList = .ok .tcp := by decide
  refine ⟨.tcp, sampleTexts srcPort dstPort, ruleFields .tcp (sampleTexts srcPort dstPort),
    ⟨hsrcIp, hdstIp, hprotocol, hsrc, hdst⟩, List.Perm.refl _, ?_, ?_, ?_⟩
  · rw [hpairs]
    apply Fields.cons (by simp) (by simp)
    apply Fields.cons (by simp) (by simp)
    apply Fields.cons (by simp) (by simp)
    exact .cons (by simp) hs.1 (.last (by simp) hd.1)
  · have hsmall : maxFieldInputLen = 128 := rfl
    rw [hpairs]
    simp [Short, hsmall]
    omega
  · have hlength := sampleLine_length srcPort dstPort
    have hsmall : maxCmdlineInputLen = 512 := rfl
    omega

/-- A rule for port 80 is added for the source port 80 by one mode only, and a port without a
pipe is used. -/
theorem typed_disagrees :
    (∃ inputs, List.Forall₂ Typed [sampleRule 1234 80] inputs ∧
      ¬ ∃ typed, typeRules (fun _ => 0) "port_id=0".toList 0 inputs (accepting 0) = some typed ∧
        Agrees (fun _ => 0) [sampleRule 1234 80] accepting 0 typed) ∧
    ∃ inputs, List.Forall₂ Typed [sampleRule 80 80] inputs ∧
      ¬ ∃ typed, typeRules (fun _ => 0) "port_id=7".toList 0 inputs (accepting 7) = some typed ∧
        Agrees (fun _ => 0) [sampleRule 80 80] accepting 7 typed := by
  have hports : ¬ SamePorts (sampleRule 1234 80) := by
    unfold SamePorts
    decide
  refine ⟨⟨[sampleLine "1234".toList "80".toList], .cons ?_ .nil, ?_⟩,
    ⟨[sampleLine "80".toList "80".toList], .cons ?_ .nil, ?_⟩⟩
  · exact sampleLine_typed (by decide) (by decide) (by decide) (by decide)
  · rintro ⟨typed, hrun, hagrees⟩
    have htyped : Typed (sampleRule 1234 80) (sampleLine "1234".toList "80".toList) :=
      sampleLine_typed (by decide) (by decide) (by decide) (by decide)
    have hzero : portOf 0 = 0 := by decide
    have hparams : parseFwAddEntryParams "port_id=0".toList = .ok 0 := by decide
    rw [typeRules_eq (.cons htyped .nil) hparams] at hrun
    obtain rfl := Option.some.inj hrun
    rcases (agrees_iff _ _ accepting 0 0).mp (hzero ▸ hagrees) with hnil | ⟨-, hsame, -⟩
    · cases hnil
    · exact hports (hsame _ (by simp))
  · exact sampleLine_typed (by decide) (by decide) (by decide) (by decide)
  · rintro ⟨typed, hrun, hagrees⟩
    have htyped : Typed (sampleRule 80 80) (sampleLine "80".toList "80".toList) :=
      sampleLine_typed (by decide) (by decide) (by decide) (by decide)
    have hparams : parseFwAddEntryParams "port_id=7".toList = .ok 7 := by decide
    rw [typeRules_eq (.cons htyped .nil) hparams] at hrun
    obtain rfl := Option.some.inj hrun
    exact typedLog_ne_nil _ _ _ _ (hagrees.rejected (by decide))

theorem typed_agrees_echo :
    ∃ typed, typeRules (fun _ => 0) ("port_id=".toList ++ ['0']) 0
        [sampleLine ['7'] ['7']] (accepting (portOf 0)) = some typed ∧
      Agrees (fun _ => 0) [sampleRule 7 7] accepting 0 typed := by
  have htyped : Typed (sampleRule 7 7) (sampleLine ['7'] ['7']) :=
    sampleLine_typed (by decide) (by decide) (by decide) (by decide)
  have hport : CNumber ['0'] 0 := .octal ⟨by simp, by simp [isDigitOf, digitValue], rfl⟩
  have hlen : ['0'].length < maxCmdlineInputLen := by simp [maxCmdlineInputLen]
  apply (typed_agrees_iff (.cons htyped .nil) hport hlen (fun _ => 0) accepting 0).mpr
  refine Or.inr ⟨rfl, by simp [SamePorts, sampleRule], fun i hi => ?_, fun i _ => ?_⟩
  · simp at hi
  · exact Or.inl ⟨.ofNat i, rfl⟩

end DocaApps.Proofs.FirewallShell
