import DocaApps.Doca
import DocaApps.Lib.FiniteTable

namespace DocaApps.Common.FlowPipesManager
open Lib.FiniteTable

/-- A pipe or an entry of DOCA Flow: where it lies, and the bytes there that
`generateID` reads. -/
structure Handle where
  ptr : UInt64
  head : Vector UInt8 8
  deriving DecidableEq, Repr

def fnvOffset : UInt64 := 0xcbf29ce484222325
def fnvPrime : UInt64 := 0x100000001b3

/-- The hash goes over the first bytes of the object, not over its address. -/
def generateID (h : Handle) : UInt64 :=
  h.head.toList.foldl (fun id byte => (byte.toUInt64 ^^^ id) * fnvPrime) fnvOffset

/-- The address of a pipes table. -/
abbrev TableRef := Nat

structure PipeInfo where
  pipe : Handle
  entriesTable : Table UInt64 Handle
  portIdToPipesTable : TableRef

/-- The manager's three tables, and the pipes tables of the ports where they lie in
memory. An entry's data is a pointer to the stored key of its pipe: the pipe id here. -/
structure Manager where
  pipeIdToPipeInfo : Table UInt64 PipeInfo
  entryIdToPipeId : Table UInt64 UInt64
  portIdToPipesId : Table UInt16 TableRef
  pipesTables : Table TableRef (Table UInt64 Unit)
  nextRef : TableRef

def createPipesManager : Manager := ⟨∅, ∅, ∅, ∅, 0⟩

variable (m : Manager)

/-- How many keys every table is created for. -/
def defaultEntriesNum : Nat := 128

/-- The name of every port's table of pipes. -/
def pipesTableName : String := "Pipe id's only"

/-- The name of every pipe's table of entries. -/
def entriesTableName : String := "Entries Table"

/-- The names of the hash tables that are live. -/
def Manager.tableNames : List String :=
  ["Pipe id to Pipe info Entries", "Entry id to Pipe id Table", "Port id to Pipe Entries Table"] ++
    (m.pipesTables.keys.map fun _ => pipesTableName) ++
    (m.pipeIdToPipeInfo.keys.map fun _ => entriesTableName)

def Manager.pipesTable (ref : TableRef) : Table UInt64 Unit :=
  (m.pipesTables.lookup ref).getD ∅

def Manager.hashCreate : Manager :=
  { m with pipesTables := m.pipesTables.insert m.nextRef ∅, nextRef := m.nextRef + 1 }

def Manager.hashFree (ref : TableRef) : Manager :=
  { m with pipesTables := m.pipesTables.erase ref }

def Manager.hashAddKey (ref : TableRef) (pipeId : UInt64) : Manager :=
  { m with pipesTables := m.pipesTables.insert ref ((m.pipesTable ref).insert pipeId ()) }

def Manager.hashDelKey (ref : TableRef) (pipeId : UInt64) : Manager :=
  { m with pipesTables := m.pipesTables.insert ref ((m.pipesTable ref).erase pipeId) }

/-- Which of the steps of `pipes_manager_pipe_create` that can fail do succeed. -/
structure CreateSteps where
  tableCreated : Bool
  keyAdded : Bool
  portAdded : Bool
  infoAllocated : Bool
  entriesCreated : Bool
  infoAdded : Bool
  deriving DecidableEq, Repr

/-- Taking a pipe id out of its port's table again, with the table when it is new. -/
def undoPipeKey (ref : TableRef) (pipeId : UInt64) (portId : UInt16) (isNewTable : Bool) :
    Manager :=
  let m := m.hashDelKey ref pipeId
  if isNewTable then
    Manager.hashFree { m with portIdToPipesId := m.portIdToPipesId.erase portId } ref
  else m

/-- The second half of `pipes_manager_pipe_create`, with the id in its port's table. -/
def addPipeInfo (pipe : Handle) (portId : UInt16) (ref : TableRef) (isNewTable : Bool)
    (steps : CreateSteps) : Except DocaError UInt64 × Manager :=
  let pipeId := generateID pipe
  if !(steps.infoAllocated && steps.entriesCreated) then
    (.error .noMemory, undoPipeKey m ref pipeId portId isNewTable)
  else if !steps.infoAdded then
    (.error .invalidValue, undoPipeKey m ref pipeId portId isNewTable)
  else
    (.ok pipeId, { m with pipeIdToPipeInfo := m.pipeIdToPipeInfo.insert pipeId ⟨pipe, ∅, ref⟩ })

def pipesManagerPipeCreate (pipe : Handle) (portId : UInt16) (steps : CreateSteps) :
    Except DocaError UInt64 × Manager :=
  let pipeId := generateID pipe
  if pipeId ∈ m.pipeIdToPipeInfo then (.error .invalidValue, m)
  else match m.portIdToPipesId.lookup portId with
    | none =>
      if !steps.tableCreated then (.error .noMemory, m)
      else
        let ref := m.nextRef
        let created := m.hashCreate
        if !steps.keyAdded then (.error .invalidValue, created.hashFree ref)
        else
          let added := created.hashAddKey ref pipeId
          if !steps.portAdded then
            (.error .invalidValue, (added.hashDelKey ref pipeId).hashFree ref)
          else
            addPipeInfo { added with portIdToPipesId := added.portIdToPipesId.insert portId ref }
              pipe portId ref true steps
    | some ref =>
      if !steps.keyAdded then (.error .invalidValue, m)
      else addPipeInfo (m.hashAddKey ref pipeId) pipe portId ref false steps

/-- Which insertions of `pipes_manager_pipe_add_entry` succeed, and where
`generateID` has put the id. -/
structure AddSteps where
  entryAdded : Bool
  pipeIdAdded : Bool
  idPtr : UInt64
  deriving DecidableEq, Repr

def Manager.setEntries (pipeId : UInt64) (info : PipeInfo) (entries : Table UInt64 Handle) :
    Manager :=
  { m with
    pipeIdToPipeInfo := m.pipeIdToPipeInfo.insert pipeId { info with entriesTable := entries } }

/-- The check for an id that exists already looks up the pointer to the id, not the id. -/
def pipesManagerPipeAddEntry (entry : Handle) (pipeId : UInt64) (steps : AddSteps) :
    Except DocaError UInt64 × Manager :=
  let entryId := generateID entry
  match m.pipeIdToPipeInfo.lookup pipeId with
  | none => (.error .invalidValue, m)
  | some info =>
    if steps.idPtr ∈ info.entriesTable then (.error .invalidValue, m)
    else if !steps.entryAdded then (.error .invalidValue, m)
    else
      let entries := info.entriesTable.insert entryId entry
      if !steps.pipeIdAdded then
        (.error .invalidValue, m.setEntries pipeId info (entries.erase entryId))
      else
        let added := m.setEntries pipeId info entries
        (.ok entryId,
          { added with entryIdToPipeId := added.entryIdToPipeId.insert entryId pipeId })

def pipesManagerGetPipe (pipeId : UInt64) : Except DocaError Handle :=
  match m.pipeIdToPipeInfo.lookup pipeId with
  | none => .error .notFound
  | some info => .ok info.pipe

def pipesManagerGetEntry (entryId : UInt64) : Except DocaError Handle :=
  match m.entryIdToPipeId.lookup entryId with
  | none => .error .notFound
  | some pipeId =>
    match m.pipeIdToPipeInfo.lookup pipeId with
    | none => .error .notFound
    | some info =>
      match info.entriesTable.lookup entryId with
      | none => .error .notFound
      | some entry => .ok entry

def pipesManagerPipeDestroy (pipeId : UInt64) : Except DocaError Unit × Manager :=
  match m.pipeIdToPipeInfo.lookup pipeId with
  | none => (.error .invalidValue, m)
  | some info =>
    if pipeId ∉ m.pipesTable info.portIdToPipesTable then (.error .notFound, m)
    else
      let m := m.hashDelKey info.portIdToPipesTable pipeId
      (.ok (), { m with
        entryIdToPipeId := eraseAll m.entryIdToPipeId info.entriesTable.keys
        pipeIdToPipeInfo := m.pipeIdToPipeInfo.erase pipeId })

def pipesManagerPipeRmEntry (entryId : UInt64) : Except DocaError Unit × Manager :=
  match m.entryIdToPipeId.lookup entryId with
  | none => (.error .invalidValue, m)
  | some pipeId =>
    match m.pipeIdToPipeInfo.lookup pipeId with
    | none => (.error .invalidValue, m)
    | some info =>
      let m := { m with entryIdToPipeId := m.entryIdToPipeId.erase entryId }
      if entryId ∉ info.entriesTable then (.error .notFound, m)
      else (.ok (), m.setEntries pipeId info (info.entriesTable.erase entryId))

/-- One round of the loop of `pipes_manager_pipes_flush`. -/
def flushPipe (pipeId : UInt64) : Manager :=
  match m.pipeIdToPipeInfo.lookup pipeId with
  | none => m
  | some info =>
    { m with
      entryIdToPipeId := eraseAll m.entryIdToPipeId info.entriesTable.keys
      pipeIdToPipeInfo := m.pipeIdToPipeInfo.erase pipeId }

def pipesManagerPipesFlush (portId : UInt16) : Except DocaError Unit × Manager :=
  match m.portIdToPipesId.lookup portId with
  | none => (.error .invalidValue, m)
  | some ref =>
    let m := (m.pipesTable ref).keys.foldl flushPipe m
    let m := m.hashFree ref
    (.ok (), { m with portIdToPipesId := m.portIdToPipesId.erase portId })

/-- A call of the manager, with the outcomes of its steps that can fail. -/
inductive Op where
  | pipeCreate (pipe : Handle) (portId : UInt16) (steps : CreateSteps)
  | pipeAddEntry (entry : Handle) (pipeId : UInt64) (steps : AddSteps)
  | pipeRmEntry (entryId : UInt64)
  | pipeDestroy (pipeId : UInt64)
  | pipesFlush (portId : UInt16)
  deriving DecidableEq, Repr

/-- Whether a call succeeds, and the manager after it. -/
def call (m : Manager) : Op → Except DocaError Unit × Manager
  | .pipeCreate pipe portId steps =>
    let r := pipesManagerPipeCreate m pipe portId steps
    (r.1.map fun _ => (), r.2)
  | .pipeAddEntry entry pipeId steps =>
    let r := pipesManagerPipeAddEntry m entry pipeId steps
    (r.1.map fun _ => (), r.2)
  | .pipeRmEntry entryId => pipesManagerPipeRmEntry m entryId
  | .pipeDestroy pipeId => pipesManagerPipeDestroy m pipeId
  | .pipesFlush portId => pipesManagerPipesFlush m portId

end DocaApps.Common.FlowPipesManager
