import DocaApps.NatApp.Core

namespace DocaApps.NatApp.Insertion
open Common.FlowPipe Lib.CountedLoop NatApp.Core

inductive Flags where
  | noWait | waitForBatch
  deriving DecidableEq, Repr

/-- A call into the flow library while the rules are inserted: an entry with its flags and the
result, or a call of `doca_flow_entries_process` with what it was asked for and what it did. -/
inductive Call where
  | pipeAddEntry (name : PipeName) (e : Entry) (flags : Flags) (result : Option DocaError)
  | entriesProcess (asked completed : Int)
  deriving DecidableEq, Repr

/-- The state of an insertion with the calls it has made. -/
structure Inserting where
  building : Building
  calls : List Call
  deriving DecidableEq, Repr

def Inserting.start : Inserting := ⟨.start, []⟩

variable (lib : FlowLib)

/-- The flags of the last entry of a rule with `n` entries. -/
def flagsFor (n : Int) (s : Inserting) : Flags :=
  if s.building.nbEntries = queueDepth - n then .noWait else .waitForBatch

def addEntry (name : PipeName) (e : Entry) (flags : Flags) (s : Inserting) :
    Option DocaError × Inserting :=
  let (result, building) := pipeAddEntry lib name e s.building
  (result, ⟨building, s.calls ++ [.pipeAddEntry name e flags result]⟩)

def process (asked : Int) (s : Inserting) : Option DocaError × Inserting :=
  let (result, building) := entriesProcess lib asked s.building
  (result, ⟨building,
    s.calls ++ [.entriesProcess asked (building.nbProcessed - s.building.nbProcessed)]⟩)

/-- The processing when the queue is full. -/
def insertFull (s : Inserting) : Except DocaError Inserting :=
  if s.building.nbEntries = queueDepth then
    match process lib s.building.nbEntries s with
    | (some err, _) => .error err
    | (none, s) =>
      if s.building.isFailure ∨ s.building.nbProcessed = 0 then .error .badState
      else .ok { s with building := { s.building with
        nbEntries := s.building.nbEntries - s.building.nbProcessed, nbProcessed := 0 } }
  else .ok s

/-- The processing loop at the end. -/
def insertRest : Nat → Inserting → Outcome DocaError Inserting
  | 0, _ => none
  | fuel + 1, s =>
    if s.building.nbEntries - s.building.nbProcessed > 0 then
      match process lib (s.building.nbEntries - s.building.nbProcessed) s with
      | (some err, _) => some (.error err)
      | (none, s) =>
        if s.building.isFailure then some (.error .badState)
        else insertRest fuel s
    else some (.ok s)

def counted (n : Int) (s : Inserting) : Inserting :=
  { s with building := { s.building with nbEntries := s.building.nbEntries + n } }

def insertStaticRule (entry : NatRuleMatch → Entry) (natRules : List NatRuleMatch)
    (ruleid : BitVec 16) (s : Inserting) : Except DocaError Inserting :=
  match addEntry lib .static (entry (ruleAt natRules ruleid)) (flagsFor 1 s) s with
  | (some _, s) => .ok s
  | (none, s) => insertFull lib (counted 1 s)

def insertPatRule (tcpEntry : NatRuleMatch → Entry) (toUdp : NatRuleMatch → Entry → Entry)
    (natRules : List NatRuleMatch) (ruleid : BitVec 16) (s : Inserting) :
    Except DocaError Inserting :=
  let rule := ruleAt natRules ruleid
  let flags := flagsFor 2 s
  let s := (addEntry lib .tcp (tcpEntry rule) .waitForBatch s).2
  let s := (addEntry lib .udp (toUdp rule (tcpEntry rule)) flags s).2
  insertFull lib (counted 2 s)

def insertRules (insert : BitVec 16 → Inserting → Except DocaError Inserting)
    (natNumRules fuel : Nat) : Outcome DocaError Inserting :=
  Outcome.andThen (loop insert natNumRules fuel 0 .start) (insertRest lib fuel)

inductive Side where
  | lan | wan
  deriving DecidableEq, Repr

/-- The four pipe builders. -/
def buildPipe (side : Side) (mode : NatMode) :
    UInt16 → List NatRuleMatch → Nat → Outcome DocaError NatPort :=
  match side with
  | .lan => buildLocalPipe lib mode
  | .wan => buildGlobalPipe lib mode

/-- What each builder does for a rule. -/
def insertRule : Side → NatMode → List NatRuleMatch → BitVec 16 → Inserting →
    Except DocaError Inserting
  | .lan, .static => insertStaticRule lib staticLocalEntry
  | .wan, .static => insertStaticRule lib staticGlobalEntry
  | .lan, .pat => insertPatRule lib patLocalTcpEntry patLocalToUdp
  | .wan, .pat => insertPatRule lib patGlobalTcpEntry patGlobalToUdp

/-- The insertion that each builder does. -/
def insertion (side : Side) (mode : NatMode) (natRules : List NatRuleMatch) (fuel : Nat) :
    Outcome DocaError Inserting :=
  insertRules lib (insertRule lib side mode natRules) natRules.length fuel

end DocaApps.NatApp.Insertion
