import DocaApps.Doca
import DocaApps.Allreduce.Client

namespace DocaApps.Allreduce.Offloaded
open Allreduce.MemPool Allreduce.Core Allreduce.Client

variable {w : Nat}

/-- The pools of an offloaded client: `allreduce_init_mempools` stops after the first. -/
def initMempoolsOffloaded (cfg : Config) (heap : Heap) : (PoolName → Mpool) × Heap :=
  let (superReqs, heap) := createMpool heap (2 * cfg.batchSize)
  (fun name => match name with
    | .superReqs => superReqs
    | .vecs | .bufs | .reqs => ⟨[], 0, false⟩, heap)

/-- A message of the daemon: the header's id, the length in bytes, the elements, and whether it
is a rendezvous. -/
structure CtrlMsg (w : Nat) where
  id : Nat
  length : Nat
  data : Nat → BitVec w
  rndv : Bool

/-- A started receive of a result: the callback's argument, and the buffer. -/
structure Answer (w : Nat) where
  superRequest : Nat
  buffer : Option Loc
  length : Nat
  data : Nat → BitVec w

/-- An offloaded client. `submitted` are the ids of the operations that were counted in and
whose answers did not come yet; no function reads it. -/
structure OffloadedClient (w : Nat) where
  proc : Participant w
  answers : List (Answer w)
  submitted : List Nat

abbrev ClientCmd (w : Nat) := EStateM Stop (OffloadedClient w)

/-- A command of the core, on the process of the client. -/
def onProc {α : Type} (c : Cmd w α) : ClientCmd w α := fun s =>
  match c s.proc with
  | .ok a proc => .ok a { s with proc }
  | .error e proc => .error e { s with proc }

def noteSubmitted (entry : List Nat → List Nat) : ClientCmd w Unit :=
  modify fun s => { s with submitted := entry s.submitted }

/-- `allreduce_offloaded_submit`; the callback of the send does nothing. -/
def offloadedSubmit (cfg : Config) (addr : Nat) : Cmd w Unit := do
  match cfg.connections with
  | [] => throw .bounds
  | daemon :: _ =>
    let sr ← superOf addr
    match sr.resultVector with
    | some loc => handOver (.peer daemon) sr.id loc sr.resultVectorSize
    | none => throw .bounds

/-- One turn of the loop of `allreduce_batch_submit`, with that submit function. -/
def batchSubmitNext (cfg : Config) : ClientCmd w Unit := do
  let s := (← get).proc
  onProc (set { s with nextId := s.nextId + 1, remaining := s.remaining - 1 })
  if cfg.batchSize = 0 then throw .divideByZero
  else do
    let slot := s.nextId % cfg.batchSize
    match ← onProc (superRequestGet cfg s.nextId s.batchVectorSize (some (.user slot))) with
    | none => pure ()
    | some addr =>
      onProc (setResultVector addr slot s.batchVectorSize)
      onProc (modify fun s => { s with clientActive := s.clientActive + 1 })
      noteSubmitted (· ++ [s.nextId])
      onProc (offloadedSubmit cfg addr)

/-- `client_am_recv_data_complete_callback`. -/
def clientRecvDataComplete (addr : Nat) : ClientCmd w Unit := do
  let sr ← onProc (superOf addr)
  onProc (clientDone sr.id)
  noteSubmitted (·.erase sr.id)

/-- The data of a message copied to where it goes; a null pointer takes no data. -/
def copyData (buffer : Option Loc) (length : Nat) (data : Nat → BitVec w) : Cmd w Unit := do
  match buffer with
  | none => if length = 0 then pure () else throw .bounds
  | some loc =>
    let s ← get
    setMem loc fun i => if i < length / (w / 8) then data i else s.mem loc i

/-- `client_am_recv_ctrl_callback`. -/
def clientRecvCtrl (cfg : Config) (msg : CtrlMsg w) : ClientCmd w (Except DocaError Unit) := do
  match ← onProc (superRequestGet cfg msg.id msg.length none) with
  | none => return .error .notFound
  | some addr =>
    let sr ← onProc (superOf addr)
    if msg.rndv = true then
      modify fun s => { s with
        answers := s.answers ++ [⟨addr, sr.resultVector, msg.length, msg.data⟩] }
      return .ok ()
    else
      onProc (copyData sr.resultVector msg.length msg.data)
      clientRecvDataComplete addr
      return .ok ()

/-- A receive is completed. -/
def answerDone (i : Nat) : ClientCmd w Unit := do
  match (← get).answers[i]? with
  | none => throw .bounds
  | some answer =>
    modify fun s => { s with answers := s.answers.eraseIdx i }
    onProc (copyData answer.buffer answer.length answer.data)
    clientRecvDataComplete answer.superRequest

/-- What can happen to the client. A batch is started when `allreduce_batch_wait` of the last
one has returned. -/
inductive Event (w : Nat) where
  | batchStart (vectors : Nat → Nat → BitVec w)
  | submit
  | message (msg : CtrlMsg w)
  | answerDone (i : Nat)

def Enabled (s : OffloadedClient w) : Event w → Prop
  | .batchStart _ => s.proc.remaining = 0 ∧ s.proc.clientActive = 0
  | .submit => 0 < s.proc.remaining
  | .message _ => True
  | .answerDone i => i < s.answers.length

def handle (cfg : Config) : Event w → ClientCmd w Unit
  | .batchStart vectors => onProc (batchStart cfg vectors)
  | .submit => batchSubmitNext cfg
  | .message msg => do
    let _ ← clientRecvCtrl cfg msg
    return ()
  | .answerDone i => answerDone i

/-- A client before its first event. -/
def start (cfg : Config) (grants : List (Option Nat)) (mem : Loc → Nat → BitVec w) :
    OffloadedClient w :=
  let (pools, heap) := initMempoolsOffloaded cfg ⟨0, grants⟩
  { proc :=
      { pools, heap, mem
        hash := [], requests := [], clientActive := 0, nextId := 0, remaining := 0
        batchVectorSize := 0, posts := [], sends := [], recvs := [], outbox := []
        log := ⟨[], [], [], [], [], []⟩ }
    answers := []
    submitted := [] }

end DocaApps.Allreduce.Offloaded
