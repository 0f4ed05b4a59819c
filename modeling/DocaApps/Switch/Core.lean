import DocaApps.Common.FlowPipesManager

namespace DocaApps.Switch.Core
open Lib.FiniteTable Common.FlowPipesManager

inductive EntryStatus where
  | inProcess | success | error
  deriving DecidableEq, Repr

inductive EntryOp where
  | add | del | upd | aged
  deriving DecidableEq, Repr

structure Completion where
  op : EntryOp
  status : EntryStatus
  deriving DecidableEq, Repr

/-- What the entries process callback records for the entry being added. -/
structure EntriesStatus where
  failure : Bool
  nbProcessed : Int
  deriving DecidableEq, Repr

def checkForValidEntry (s : EntriesStatus) (c : Completion) : EntriesStatus :=
  if c.op ≠ .add then s
  else ⟨s.failure || c.status != .success, s.nbProcessed + 1⟩

/-- The live pipes, and the live entries with the pipe each is in. -/
structure Hardware where
  pipes : Table Handle Unit
  entries : Table Handle Handle

def Hardware.addPipe (hw : Hardware) (pipe : Handle) : Hardware :=
  { hw with pipes := hw.pipes.insert pipe () }

def Hardware.addEntry (hw : Hardware) (entry pipe : Handle) : Hardware :=
  { hw with entries := hw.entries.insert entry pipe }

/-- A call that removes something may fail, and then removes nothing. -/
def Hardware.rmEntry (hw : Hardware) (entry : Handle) (done : Bool) : Hardware :=
  if done then { hw with entries := hw.entries.erase entry } else hw

def Hardware.entriesOf (hw : Hardware) (pipe : Handle) : List Handle :=
  hw.entries.keys.filter fun e => hw.entries.lookup e = some pipe

def Hardware.destroyPipe (hw : Hardware) (pipe : Handle) (done : Bool) : Hardware :=
  if done then ⟨hw.pipes.erase pipe, eraseAll hw.entries (hw.entriesOf pipe)⟩ else hw

def Hardware.flush (hw : Hardware) (done : Bool) : Hardware :=
  if done then ⟨∅, ∅⟩ else hw

structure Switch where
  manager : Manager
  hardware : Hardware

/-- What `doca_flow_entries_process` returns: an error, or success after these
callbacks. -/
abbrev Processing := Option (List Completion)

/-- A forward to a pipe gives the pipe's id, any other forward gives none. -/
abbrev Fwd := Option UInt64

variable (s : Switch)

/-- The next pipe of a forward has to be registered. -/
def findFwd (fwd : Fwd) : Except DocaError Unit :=
  match fwd with
  | none => .ok ()
  | some id => (pipesManagerGetPipe s.manager id).map fun _ => ()

def switchModePortId : UInt16 := 0

/-- `hwPipe` is what `doca_flow_pipe_create` returns. -/
def pipeCreate (fwd fwdMiss : Fwd) (hwPipe : Option Handle) (steps : CreateSteps)
    (destroyed : Bool) : Switch :=
  match findFwd s fwd with
  | .error _ => s
  | .ok () =>
    match findFwd s fwdMiss with
    | .error _ => s
    | .ok () =>
      match hwPipe with
      | none => s
      | some pipe =>
        let hw := s.hardware.addPipe pipe
        match pipesManagerPipeCreate s.manager pipe switchModePortId steps with
        | (.error _, m) => ⟨m, hw.destroyPipe pipe destroyed⟩
        | (.ok _, m) => ⟨m, hw⟩

/-- Registering an entry that the hardware has, or removing it again. -/
def registerEntry (hw : Hardware) (entry : Handle) (pipeId : UInt64) (steps : AddSteps)
    (removed : Bool) : Switch :=
  match pipesManagerPipeAddEntry s.manager entry pipeId steps with
  | (.error _, m) => ⟨m, hw.rmEntry entry removed⟩
  | (.ok _, m) => ⟨m, hw⟩

/-- One entry was to be processed, and it was processed without a failure. -/
def processed (processing : Processing) : Bool :=
  match processing with
  | none => false
  | some completions =>
    let status := completions.foldl checkForValidEntry ⟨false, 0⟩
    !(status.nbProcessed != 1 || status.failure)

/-- `hwEntry` is what `doca_flow_pipe_add_entry` returns. -/
def pipeAddEntry (pipeId : UInt64) (fwd : Fwd) (hwEntry : Option Handle)
    (processing : Processing) (steps : AddSteps) (removed : Bool) : Switch :=
  match findFwd s fwd with
  | .error _ => s
  | .ok () =>
    match pipesManagerGetPipe s.manager pipeId with
    | .error _ => s
    | .ok pipe =>
      match hwEntry with
      | none => s
      | some entry =>
        let hw := s.hardware.addEntry entry pipe
        if !processed processing then ⟨s.manager, hw⟩
        else registerEntry s hw entry pipeId steps removed

/-- `hwEntry` is what `doca_flow_pipe_control_add_entry` returns. -/
def pipeControlAddEntry (pipeId : UInt64) (fwd : Fwd) (hwEntry : Option Handle)
    (steps : AddSteps) (removed : Bool) : Switch :=
  match findFwd s fwd with
  | .error _ => s
  | .ok () =>
    match pipesManagerGetPipe s.manager pipeId with
    | .error _ => s
    | .ok pipe =>
      match hwEntry with
      | none => s
      | some entry =>
        registerEntry s (s.hardware.addEntry entry pipe) entry pipeId steps removed

def pipeDestroy (pipeId : UInt64) (destroyed : Bool) : Switch :=
  match pipesManagerGetPipe s.manager pipeId with
  | .error _ => s
  | .ok pipe =>
    match pipesManagerPipeDestroy s.manager pipeId with
    | (.error _, m) => { s with manager := m }
    | (.ok (), m) => ⟨m, s.hardware.destroyPipe pipe destroyed⟩

def pipeRmEntry (entryId : UInt64) (removed : Bool) : Switch :=
  match pipesManagerGetEntry s.manager entryId with
  | .error _ => s
  | .ok entry =>
    match pipesManagerPipeRmEntry s.manager entryId with
    | (.error _, m) => { s with manager := m }
    | (.ok (), m) => ⟨m, s.hardware.rmEntry entry removed⟩

def portPipesFlush (portId : UInt16) (flushed : Bool) : Switch :=
  if portId ≠ switchModePortId then s
  else
    match pipesManagerPipesFlush s.manager switchModePortId with
    | (.error _, m) => { s with manager := m }
    | (.ok (), m) => ⟨m, s.hardware.flush flushed⟩

/-- A command of the shell with the outcomes of the hardware's and the manager's steps. -/
inductive Command where
  | pipeCreate (fwd fwdMiss : Fwd) (hwPipe : Option Handle) (steps : CreateSteps)
      (destroyed : Bool)
  | pipeAddEntry (pipeId : UInt64) (fwd : Fwd) (hwEntry : Option Handle)
      (processing : Processing) (steps : AddSteps) (removed : Bool)
  | pipeControlAddEntry (pipeId : UInt64) (fwd : Fwd) (hwEntry : Option Handle)
      (steps : AddSteps) (removed : Bool)
  | pipeDestroy (pipeId : UInt64) (destroyed : Bool)
  | pipeRmEntry (entryId : UInt64) (removed : Bool)
  | portPipesFlush (portId : UInt16) (flushed : Bool)
  deriving DecidableEq, Repr

def step (s : Switch) : Command → Switch
  | .pipeCreate fwd fwdMiss hwPipe steps destroyed =>
    pipeCreate s fwd fwdMiss hwPipe steps destroyed
  | .pipeAddEntry pipeId fwd hwEntry processing steps removed =>
    pipeAddEntry s pipeId fwd hwEntry processing steps removed
  | .pipeControlAddEntry pipeId fwd hwEntry steps removed =>
    pipeControlAddEntry s pipeId fwd hwEntry steps removed
  | .pipeDestroy pipeId destroyed => pipeDestroy s pipeId destroyed
  | .pipeRmEntry entryId removed => pipeRmEntry s entryId removed
  | .portPipesFlush portId flushed => portPipesFlush s portId flushed

def switchInit : Switch := ⟨createPipesManager, ⟨∅, ∅⟩⟩

end DocaApps.Switch.Core
