import DocaApps.Allreduce.Daemon
import DocaApps.Allreduce.Client

namespace DocaApps.Allreduce.Events
open Allreduce.MemPool Allreduce.Core Allreduce.Daemon Allreduce.Client

variable {w : Nat}

/-- What can happen to a process: its own client loop goes on, or UCX reads a buffer,
completes a send or a receive, or hands over a message of a peer or of a client. Sends
and receives are named by their place in the list of the outstanding ones. -/
inductive Event (w : Nat) where
  | batchStart (vectors : Nat → Nat → BitVec w)
  | submit
  | transmit (i : Nat)
  | sendDone (i : Nat)
  | arrive (peer id len : Nat) (data : Nat → BitVec w) (rndv : Bool)
  | recvDone (i : Nat)
  | clientArrive (client id len : Nat) (data : Nat → BitVec w) (rndv : Bool)

/-- The callback of a completed operation. -/
def invoke (cfg : Config) : Callback → Cmd w Unit
  | .completeOperation addr => completeOperation cfg addr
  | .completeClientOperation request => daemonCompleteClientOperation request
  | .gather addr => gatherComplete cfg addr
  | .recvDataComplete request => recvDataComplete cfg request

def transmit (i : Nat) : Cmd w Unit := do
  let s ← get
  match s.sends[i]? with
  | none => throw .bounds
  | some send =>
    handOver send.dest send.id send.loc send.len
    modify fun s => { s with sends := s.sends.set i { send with transmitted := true } }

def sendDone (cfg : Config) (i : Nat) : Cmd w Unit := do
  let s ← get
  match s.sends[i]? with
  | none => throw .bounds
  | some send =>
    set { s with sends := s.sends.eraseIdx i }
    invoke cfg send.callback

def recvDone (cfg : Config) (i : Nat) : Cmd w Unit := do
  let s ← get
  match s.recvs[i]? with
  | none => throw .bounds
  | some recv =>
    set { s with recvs := s.recvs.eraseIdx i }
    setMem (.pool recv.vector) fun j =>
      if j < recv.len then recv.data j else s.mem (.pool recv.vector) j
    invoke cfg recv.callback

def handle (cfg : Config) : Event w → Cmd w Unit
  | .batchStart vectors => batchStart cfg vectors
  | .submit => batchSubmitNext cfg
  | .transmit i => transmit i
  | .sendDone i => sendDone cfg i
  | .arrive peer id len data rndv => gatherCallback cfg peer id len data rndv
  | .recvDone i => recvDone cfg i
  | .clientArrive client id len data rndv => recvCtrlCallback cfg client id len data rndv

/-- A vector of this sender for this operation is among the arrivals. -/
def Came (arrivals : List (Arrival w)) (sender id : Nat) : Prop :=
  ∃ a ∈ arrivals, a.sender = sender ∧ a.id = id

/-- When an event can happen. A batch starts when the last one was waited for; a send
completes after its buffer was read; a peer and a client send each id once. -/
def Enabled (cfg : Config) (s : Participant w) : Event w → Prop
  | .batchStart _ => cfg.role = .client ∧ s.remaining = 0 ∧ s.clientActive = 0
  | .submit => cfg.role = .client ∧ 0 < s.remaining
  | .transmit i => ∃ send, s.sends[i]? = some send ∧ send.transmitted = false
  | .sendDone i => ∃ send, s.sends[i]? = some send ∧ send.transmitted = true
  | .arrive peer id _ _ _ => peer ∈ cfg.connections ∧ ¬ Came s.log.arrivals peer id
  | .recvDone i => i < s.recvs.length
  | .clientArrive client id _ _ _ =>
    cfg.role = .daemon ∧ client < cfg.numClients ∧ ¬ Came s.log.clientArrivals client id

/-- A process before its first event, on any contents of memory. -/
def start (cfg : Config) (grants : List (Option Nat)) (mem : Loc → Nat → BitVec w)
    (posts : List Bool) : Participant w :=
  let (pools, heap) := initMempools cfg ⟨0, grants⟩
  { pools, heap, mem
    hash := [], requests := [], clientActive := 0, nextId := 0, remaining := 0
    batchVectorSize := 0, posts, sends := [], recvs := [], outbox := []
    log := ⟨[], [], [], [], [], []⟩ }

/-- The states of a process. `allowed` restricts the environment further. -/
inductive Reach (cfg : Config) (allowed : Event w → Prop) : Participant w → Prop where
  | start (grants : List (Option Nat)) (mem : Loc → Nat → BitVec w) (posts : List Bool) :
      Reach cfg allowed (start cfg grants mem posts)
  | step {s t : Participant w} {e : Event w} (hs : Reach cfg allowed s) (ha : allowed e)
      (he : Enabled cfg s e) (ht : handle cfg e s = .ok () t) : Reach cfg allowed t

end DocaApps.Allreduce.Events
