import DocaApps.Common.ParamsParser
import DocaApps.Common.StructFields
import DocaApps.Firewall.Core

namespace DocaApps.Firewall.Shell
open Common.FlowPipe Common.StructParser Common.ParamsParser Firewall.Core
open Common.StructFields (Filled zeroMatch parseFwMatchField)

/-- A match of the shell, as far as the pipes of the firewall look at it. -/
def flowMatch (m : Common.StructFields.Match) : Match where
  outerL3Type := .none
  outerL4Type := .none
  outer :=
    { l3Type := m (.l3Type .outer)
      srcIp := m (.ip4Addr .outer .src)
      dstIp := m (.ip4Addr .outer .dst)
      l4TypeExt := m (.l4TypeExt .outer)
      l4SrcPort := m (.l4Port .outer .src)
      l4DstPort := m (.l4Port .outer .dst) }

/-- The arguments of `doca_flow_grpc_pipe_add_entry`; neither mode gives a monitor or flags. -/
structure AddEntry where
  pipeQueue : UInt16
  pipeId : UInt64
  pattern : Match
  actions : Option Actions
  fwd : Option Fwd
  deriving DecidableEq, Repr

/-- A remote procedure call of the firewall, with its answer. -/
inductive Called where
  | pipeAddEntry (e : AddEntry) (answer : Except DocaError UInt64)
  | entriesProcess (portId pipeQueue : UInt16) (answer : Except DocaError Unit)
  | pipeEntryGetStatus (entryId : UInt64) (answer : Except DocaError Bool)
  deriving DecidableEq, Repr

/-- What the server answers to the calls for one rule; its status is whether the entry stands. -/
structure Answers where
  add : Except DocaError UInt64
  process : Except DocaError Unit
  status : Except DocaError Bool
  deriving DecidableEq, Repr

/-- One round of the loop of `add_drop_entries`. -/
def addDropEntry (portId : UInt16) (transportPipeId : UInt64) (m : Match) (a : Answers) :
    Except DocaError Unit × List Called :=
  let add := .pipeAddEntry ⟨0, transportPipeId, m, some .zero, some .drop⟩ a.add
  match a.add with
  | .error e => (.error e, [add])
  | .ok entryId =>
    let process := .entriesProcess portId 0 a.process
    match a.process with
    | .error e => (.error e, [add, process])
    | .ok () =>
      let status := .pipeEntryGetStatus entryId a.status
      match a.status with
      | .ok true => (.ok (), [add, process, status])
      | _ => (.error .badState, [add, process, status])

/-- The calls for each rule, until one fails. -/
def addDropEntries (portId : UInt16) (transportPipeId : UInt64) :
    Match → List RuleMatch → (Nat → Answers) → Except DocaError Unit × List (List Called)
  | _, [], _ => (.ok (), [])
  | m, r :: rules, answers =>
    let m := dropMatch r m
    match addDropEntry portId transportPipeId m (answers 0) with
    | (.error e, calls) => (.error e, [calls])
    | (.ok (), calls) =>
      let (result, rest) :=
        addDropEntries portId transportPipeId m rules fun i => answers (i + 1)
      (result, calls :: rest)

def nbPorts : Nat := 2

/-- The drop pipes of the ports; behind the end of the array, whatever stands there. -/
abbrev PortPipeIds := UInt16 → UInt64

/-- The calls for each port, until one fails. -/
def addDropRules (fwPortsPipesIds : PortPipeIds) (dropRules : List RuleMatch)
    (answers : UInt16 → Nat → Answers) :
    List UInt16 → Except DocaError Unit × List (UInt16 × List (List Called))
  | [] => (.ok (), [])
  | portId :: ports =>
    match addDropEntries portId (fwPortsPipesIds portId) .zero dropRules (answers portId) with
    | (.error e, calls) => (.error e, [(portId, calls)])
    | (.ok (), calls) =>
      let (result, rest) := addDropRules fwPortsPipesIds dropRules answers ports
      (result, (portId, calls) :: rest)

def firewallAddDropRules (fwPortsPipesIds : PortPipeIds) (dropRules : List RuleMatch)
    (answers : UInt16 → Nat → Answers) :
    Except DocaError Unit × List (UInt16 × List (List Called)) :=
  addDropRules fwPortsPipesIds dropRules answers ((List.range nbPorts).map UInt16.ofNat)

/-- `unset` is what stands in `entry_id` before a call has set it. The two arguments of the
processing are the other way round than in `add_drop_entries`. -/
def pipeAddEntry (fwPortsPipesIds : PortPipeIds) (portId : UInt16) (m : Match) (a : Answers)
    (unset : UInt64) : List Called :=
  let pipeQueue : UInt16 := 0
  let add := .pipeAddEntry ⟨pipeQueue, fwPortsPipesIds portId, m, none, none⟩ a.add
  let entryId := match a.add with
    | .ok entryId => entryId
    | .error _ => unset
  let process := .entriesProcess 0 portId a.process
  match a.process with
  | .error _ => [add, process]
  | .ok () => [add, process, .pipeEntryGetStatus entryId a.status]

/-- A callback for `parse_struct` that keeps to itself when a text was read behind its end. -/
def filling {S : Type} (fillStruct : String → List Char → S → Filled S) :
    FillStruct (Option S) :=
  fun fieldName value s =>
    match s.bind (fillStruct (String.ofList fieldName) value) with
    | some (result, s) => (result, some s)
    | none => (.error .unexpected, none)

/-- The entry match after a `create entry_match` command, unless a text is read behind its
end. -/
def cmdFwCreateStructParsed (flowStructInput : List Char) : Option Common.StructFields.Match :=
  let parsed := parseStruct (filling parseFwMatchField) flowStructInput (some zeroMatch)
  match parsed.ending with
  | .outside => none
  | .returned _ => parsed.structPtr

def cmdFwAddEntryParsed (fwPortsPipesIds : PortPipeIds) (entryMatch : Common.StructFields.Match)
    (params : List Char) (a : Answers) (unset : UInt64) : List Called :=
  match parseFwAddEntryParams params with
  | .error _ => []
  | .ok portId => pipeAddEntry fwPortsPipesIds portId (flowMatch entryMatch) a unset

/-- Each rule is typed: its match is created, and its entry added. -/
def typeRules (fwPortsPipesIds : PortPipeIds) (params : List Char) (unset : UInt64) :
    List (List Char) → (Nat → Answers) → Option (List (List Called))
  | [], _ => some []
  | input :: inputs, answers => do
    let entryMatch ← cmdFwCreateStructParsed input
    let calls := cmdFwAddEntryParsed fwPortsPipesIds entryMatch params (answers 0) unset
    let rest ← typeRules fwPortsPipesIds params unset inputs fun i => answers (i + 1)
    return calls :: rest

end DocaApps.Firewall.Shell
