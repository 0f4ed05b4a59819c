import DocaApps.Doca
import DocaApps.Lib.Runs

namespace DocaApps.Common.FlowSkeleton
open DocaApps.Lib.Runs

/-- The values of `enum doca_flow_entry_op`. -/
inductive EntryOp where
  | add | del | upd | aged
  deriving DecidableEq, Repr

/-- The values of `enum doca_flow_pipe_type`; `other` stands for one that the switch lacks. -/
inductive PipeType where
  | basic | control | lpm | acl | orderedList | hash | other
  deriving DecidableEq, Repr

structure SkeletonEntry where
  op : EntryOp
  type : PipeType
  deriving DecidableEq, Repr

inductive Flag where
  | waitForBatch | noWait
  deriving DecidableEq, Repr

/-- An operation the library took and did not complete yet. -/
inductive Submitted where
  | add | del
  deriving DecidableEq, Repr

/-- One port's part of a queue: the skeleton's number for it, and the operations that the library
holds, those kept for a batch and those released to be completed. -/
structure PortQueue where
  queueState : BitVec 32 := 0
  waiting : List Submitted := []
  released : List Submitted := []
  deriving DecidableEq, Repr

def PortQueue.outstanding (q : PortQueue) : Nat := q.waiting.length + q.released.length

/-- An operation is taken: `DOCA_FLOW_NO_WAIT` releases those before it too. -/
def PortQueue.enqueue (q : PortQueue) (flag : Flag) (op : Submitted) : PortQueue :=
  match flag with
  | .waitForBatch => { q with waiting := q.waiting ++ [op] }
  | .noWait => { q with waiting := [], released := q.released ++ q.waiting ++ [op] }

/-- A released operation is completed. -/
def PortQueue.finish (q : PortQueue) (idx : Nat) : PortQueue :=
  { q with released := q.released.eraseIdx idx }

/-- What is noted down of a run: the number after an increment, the number and what is taken off
it, and the numbers with the operations outstanding after a call or an iteration. -/
inductive Mark where
  | counted (queueState : BitVec 32)
  | subtracting (queueState counter : BitVec 32)
  | settled (ports : Nat → PortQueue)

/-- The state behind one `pipe_queue`: its part of each port, `queue_counter`, and the marks,
which no function reads. -/
structure Queues where
  port : Nat → PortQueue := fun _ => {}
  counter : BitVec 32 := 0
  marks : List Mark := []

def Queues.set (s : Queues) (portId : Nat) (q : PortQueue) : Queues :=
  { s with port := Function.update s.port portId q }

def Queues.note (s : Queues) (mark : Mark) : Queues := { s with marks := s.marks ++ [mark] }

/-- What the library and the application's aging callback answer in a call of the callback. -/
structure Notice where
  success : Bool
  toRemove : Bool := false
  rmAccepted : Bool := false
  deriving DecidableEq, Repr

/-- `doca_flow_pipe_rm_entry` with `DOCA_FLOW_WAIT_FOR_BATCH`, as the callback calls it. -/
def rmEntry (portId : Nat) (accepted : Bool) (s : Queues) : Queues :=
  if accepted then s.set portId ((s.port portId).enqueue .waitForBatch .del) else s

def processCallback (portId : Nat) (op : EntryOp) (notice : Notice) (s : Queues) : Queues :=
  match op with
  | .add =>
    if notice.success then { s with counter := s.counter + 1 }
    else rmEntry portId notice.rmAccepted s
  | .del => if notice.success then { s with counter := s.counter + 1 } else s
  | .aged => if notice.toRemove then rmEntry portId notice.rmAccepted s else s
  | .upd => s

/-- The library completes one of the released operations. -/
structure Completion where
  idx : Nat
  notice : Notice
  deriving DecidableEq, Repr

def Submitted.entryOp : Submitted → EntryOp
  | .add => .add
  | .del => .del

def complete (portId : Nat) (s : Queues) (c : Completion) : Queues :=
  match (s.port portId).released[c.idx]? with
  | none => s
  | some op =>
    processCallback portId op.entryOp c.notice (s.set portId ((s.port portId).finish c.idx))

/-- `doca_flow_entries_process`. -/
def entriesProcess (portId : Nat) (completions : List Completion) (s : Queues) : Queues :=
  run (complete portId) s completions

/-- `doca_flow_aging_handle` reports aged entries. -/
def agingHandle (portId : Nat) (aged : List Notice) (s : Queues) : Queues :=
  run (fun s notice => processCallback portId .aged notice s) s aged

/-- The library's answer to a submission. An entry of a control pipe is added without a flag, and
`held` says whether the library keeps it for a batch. -/
structure Answer where
  accepted : Bool
  held : Bool := false
  deriving DecidableEq, Repr

/-- The flag an accepted entry is added with. -/
def addEntry (flag : Flag) (type : PipeType) (answer : Answer) : Option Flag :=
  match type with
  | .basic | .lpm | .acl | .orderedList | .hash => if answer.accepted then some flag else none
  | .control =>
    if answer.accepted then some (if answer.held then .waitForBatch else .noWait) else none
  | .other => none

/-- The submission of an entry of a batch; what is not taken is logged. -/
def submission (flag : Flag) (entry : SkeletonEntry) (answer : Answer) :
    Option (Flag × Submitted) :=
  match entry.op with
  | .add => (addEntry flag entry.type answer).map (·, .add)
  | .del => if answer.accepted then some (flag, .del) else none
  | .upd | .aged => none

/-- One turn of the loop of `add_batch_entries`. -/
def submitEntry (portId : Nat) (s : Queues) (x : Flag × SkeletonEntry × Answer) : Queues :=
  match submission x.1 x.2.1 x.2.2 with
  | none => s
  | some (flag, op) =>
    let q := (s.port portId).enqueue flag op
    (s.set portId { q with queueState := q.queueState + 1 }).note (.counted (q.queueState + 1))

/-- The entries of a batch with their flags: all but the last wait for it. -/
def flagged (batch : List (SkeletonEntry × Answer)) : List (Flag × SkeletonEntry × Answer) :=
  batch.dropLast.map (Flag.waitForBatch, ·) ++ batch.getLast?.toList.map (Flag.noWait, ·)

/-- The `queue_state -= queue_counter` of a port. -/
def subtractCounter (portId : Nat) (s : Queues) : Queues :=
  let q := s.port portId
  (s.set portId { q with queueState := q.queueState - s.counter }).note
    (.subtracting q.queueState s.counter)

def settle (s : Queues) : Queues := s.note (.settled s.port)

def addBatchEntries (portId : Nat) (batch : List (SkeletonEntry × Answer))
    (processed : List Completion) (s : Queues) : Queues :=
  let s := run (submitEntry portId) s (flagged batch)
  let s := entriesProcess portId processed s
  settle (subtractCounter portId s)

structure FlowCfg where
  queueDepth : BitVec 32
  deriving DecidableEq, Repr

structure SkeletonCfg where
  nbEntries : BitVec 32
  handleAging : Bool
  acquisitionCb : Bool
  initCb : Bool
  agingCb : Bool
  deriving DecidableEq, Repr

structure SkeletonCtx where
  queueDepth : BitVec 32
  cfg : SkeletonCfg
  deriving DecidableEq, Repr

/-- `DEFAULT_QUEUE_DEPTH` -/
def defaultQueueDepth : BitVec 32 := 128

/-- The checks of `flow_skeleton_init`; its allocations succeed. -/
def flowSkeletonInit (flowCfg : FlowCfg) (cfg : SkeletonCfg) : Except DocaError SkeletonCtx :=
  let queueDepth := if flowCfg.queueDepth = 0 then defaultQueueDepth else flowCfg.queueDepth
  if cfg.acquisitionCb = false then .error .invalidValue
  else if cfg.handleAging ∧ cfg.agingCb = false then .error .invalidValue
  else if queueDepth / 2 < cfg.nbEntries then .error .invalidValue
  else .ok ⟨queueDepth, cfg⟩

/-- What a port's turn meets: the batch of the application's callback with the library's answers,
the completions of the process of a full queue and of that of the batch, and the aged entries. -/
structure Visit where
  batch : List (SkeletonEntry × Answer)
  whenFull : List Completion := []
  processed : List Completion := []
  aged : List Notice := []
  deriving DecidableEq, Repr

def Queues.restart (s : Queues) : Queues := { s with counter := 0 }

/-- A port's turn of the initialization. -/
def initPort (s : Queues) (x : Nat × Visit) : Queues :=
  if x.2.batch = [] then s.restart
  else addBatchEntries x.1 x.2.batch x.2.processed s.restart

def queueFull (ctx : SkeletonCtx) (q : PortQueue) (nbEntries : Nat) : Prop :=
  ctx.queueDepth ≤ q.queueState + BitVec.ofNat 32 nbEntries

instance (ctx : SkeletonCtx) (q : PortQueue) (nbEntries : Nat) :
    Decidable (queueFull ctx q nbEntries) := by
  unfold queueFull
  infer_instance

/-- The queue of a port before its batch: a full one is processed once. -/
def makeRoom (ctx : SkeletonCtx) (s : Queues) (x : Nat × Visit) : Queues :=
  if queueFull ctx (s.port x.1) x.2.batch.length then entriesProcess x.1 x.2.whenFull s else s

/-- A port's turn of the main loop. -/
def visitPort (ctx : SkeletonCtx) (s : Queues) (x : Nat × Visit) : Queues :=
  if x.2.batch = [] then s.restart
  else
    let s := addBatchEntries x.1 x.2.batch x.2.processed (makeRoom ctx s.restart x)
    if ctx.cfg.handleAging then agingHandle x.1 x.2.aged s else s

/-- One visit for every port, in the order of the loops over the ports. -/
def overPorts (nbPorts : Nat) (visits : Nat → Visit) : List (Nat × Visit) :=
  (List.range nbPorts).map fun portId => (portId, visits portId)

structure ExitCall where
  error : Bool := false
  completions : List Completion := []
  deriving DecidableEq, Repr

/-- The process of one iteration of the exit loop. -/
def exitProcess (portId : Nat) (s : Queues) (call : ExitCall) : Queues :=
  entriesProcess portId call.completions s.restart

/-- The exit loop of a port, for as many iterations as there are calls, and whether it ended. -/
def emptyPort (portId : Nat) : List ExitCall → Queues → Bool × Queues
  | [], s => ((s.port portId).queueState = 0, s)
  | call :: calls, s =>
    if (s.port portId).queueState = 0 then (true, s)
    else if call.error then (true, settle (exitProcess portId s call))
    else emptyPort portId calls (settle (subtractCounter portId (exitProcess portId s call)))

/-- The exit loop over the ports; one that did not end leaves the next ports as they are. -/
def emptyPorts (calls : Nat → List ExitCall) : List Nat → Queues → Bool × Queues
  | [], s => (true, s)
  | portId :: ports, s =>
    match emptyPort portId (calls portId) s with
    | (true, s) => emptyPorts calls ports s
    | (false, s) => (false, s)

/-- A run of `flow_skeleton_main_loop`: its parameters, what the turns of the initialization and of
each round of the main loop meet, and the calls of the exit loop of each port. -/
structure MainLoop where
  initialization : Bool
  nbPorts : Nat
  initVisits : Nat → Visit
  rounds : List (Nat → Visit)
  calls : Nat → List ExitCall

/-- The turns of the initialization; without a callback it is left in its first one. -/
def initTurns (ctx : SkeletonCtx) (loop : MainLoop) : List (Nat × Visit) :=
  if loop.initialization ∧ ctx.cfg.initCb then overPorts loop.nbPorts loop.initVisits else []

def loopTurns (loop : MainLoop) : List (Nat × Visit) :=
  loop.rounds.flatMap (overPorts loop.nbPorts)

/-- The queues after the initialization. -/
def initialized (ctx : SkeletonCtx) (loop : MainLoop) : Queues :=
  run initPort {} (initTurns ctx loop)

/-- The queues when the exit was asked for. -/
def asked (ctx : SkeletonCtx) (loop : MainLoop) : Queues :=
  run (visitPort ctx) (initialized ctx loop) (loopTurns loop)

def flowSkeletonMainLoop (ctx : SkeletonCtx) (loop : MainLoop) : Bool × Queues :=
  emptyPorts loop.calls (List.range loop.nbPorts) (asked ctx loop)

end DocaApps.Common.FlowSkeleton
