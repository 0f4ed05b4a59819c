import DocaApps.Allreduce.Ucx

namespace DocaApps.Allreduce.Requests
open Ucx

/-- What a user asks of `am_send` or `allreduce_ucx_am_recv`. `userData` is what these give to UCX
beside the completion callback. -/
structure Operation where
  op : UcxOp
  connection : Nat
  userData : Nat
  callback : Option Nat
  arg : Option Nat
  logErr : Bool
  known : op ≠ .unknownOp

/-- An operation that was posted: what UCX returned, the status its completion callback was called
with, what `request_process` returned, and what has happened to its user and its request. -/
structure Posted where
  operation : Operation
  ptrStatus : StatusPtr
  completion : Option UcsStatus
  processed : Option (Option DocaError × Option Nat)
  waited : Bool
  calls : List Call
  frees : Nat

/-- `returning` are the functions that called a callback of the user and release a request when it
returns, the innermost first; each is an operation with its request. -/
structure System where
  memory : Memory
  posted : List Posted
  returning : List (Nat × Nat)

inductive Action where
  | post (operation : Operation) (ptrStatus : StatusPtr)
  | refuse (operation : Operation)
  | complete (i : Nat) (status : UcsStatus)
  | process (i : Nat)
  | callbackReturns
  | wait (i : Nat)

def initial : System := ⟨⟨fun _ => requestInit, ∅⟩, [], []⟩

/-- A function leaves a request to be released when its callback returns, if it calls one. -/
def System.leave (s : System) (i : Nat) (p : Posted) (a : After) : Option System :=
  match a.release, a.calls with
  | none, calls =>
    some ⟨a.memory, s.posted.set i { p with calls := p.calls ++ calls }, s.returning⟩
  | some k, [] => do
    let memory ← requestRelease a.memory k
    return ⟨memory, s.posted.set i { p with frees := p.frees + 1 }, s.returning⟩
  | some k, calls =>
    some ⟨a.memory, s.posted.set i { p with calls := p.calls ++ calls }, (i, k) :: s.returning⟩

/-- The steps that the user and UCX can take. UCX returns a request from its pool, calls the
completion callback of a request once, and the user waits once for an operation without a
callback. -/
def Enabled (s : System) : Action → Prop
  | .post _ ptrStatus => ∀ k, ptrStatus = .request k → k ∉ s.memory.taken
  | .refuse operation => operation.callback ≠ none
  | .complete i status => status ≠ .inProgress ∧
      ∃ p k, s.posted[i]? = some p ∧ p.ptrStatus = .request k ∧ p.completion = none
  | .process i => ∃ p, s.posted[i]? = some p ∧ p.processed = none
  | .callbackReturns => s.returning ≠ []
  | .wait i => ∃ p result k, s.posted[i]? = some p ∧ p.operation.callback = none ∧
      p.processed = some (result, some k) ∧ p.waited = false

def System.post (s : System) (operation : Operation) (ptrStatus : StatusPtr) : System :=
  let memory := match ptrStatus with
    | .request k => s.memory.take k
    | _ => s.memory
  { s with memory, posted := s.posted ++ [⟨operation, ptrStatus, none, none, false, [], 0⟩] }

/-- `UCS_ERR_UNREACHABLE`. -/
def unreachable : UcsStatus := .err 6

/-- `allreduce_ucx_am_send` on a connection that is not in the hash table: nothing is posted, and
the callback of the user is called. -/
def System.refuse (s : System) (operation : Operation) : System :=
  { s with posted := s.posted ++ [⟨operation, .err 6, none, some (some .notConnected, none), false,
    userRequestComplete operation.callback operation.arg unreachable, 0⟩] }

def System.complete (s : System) (i : Nat) (p : Posted) (status : UcsStatus) : Option System :=
  match p.ptrStatus with
  | .request k => do
    let o := p.operation
    let after ← commonRequestCallback k status o.userData o.op s.memory
    s.leave i { p with completion := some status } after
  | _ => some s

def System.process (s : System) (i : Nat) (p : Posted) : Option System := do
  let o := p.operation
  let done ← requestProcess o.connection o.op p.ptrStatus o.callback o.arg o.logErr s.memory
  s.leave i { p with processed := some (done.result, done.requestP) } done.toAfter

def System.callbackReturns (s : System) : Option System :=
  match s.returning with
  | [] => some s
  | (i, k) :: returning => do
    let memory ← requestRelease s.memory k
    return ⟨memory, s.posted.modify i (fun p => { p with frees := p.frees + 1 }), returning⟩

/-- One test of the loop of `allreduce_ucx_request_wait`, and the release behind it. -/
def System.wait (s : System) (i : Nat) (p : Posted) : Option System :=
  match p.processed with
  | some (_, some k) =>
    if (s.memory.request k).status = .inProgress then some s
    else do
      let memory ← requestRelease s.memory k
      return ⟨memory, s.posted.set i { p with waited := true, frees := p.frees + 1 }, s.returning⟩
  | _ => some s

/-- There is no result when an assertion fails or a request is used that was not handed out. -/
def step (s : System) : Action → Option System
  | .post operation ptrStatus => some (s.post operation ptrStatus)
  | .refuse operation => some (s.refuse operation)
  | .complete i status => match s.posted[i]? with
    | some p => s.complete i p status
    | none => some s
  | .process i => match s.posted[i]? with
    | some p => s.process i p
    | none => some s
  | .callbackReturns => s.callbackReturns
  | .wait i => match s.posted[i]? with
    | some p => s.wait i p
    | none => some s

/-- The systems that any order of steps leads to. -/
inductive Reached : System → Prop where
  | initial : Reached initial
  | step {s s' : System} {a : Action} (before : Reached s) (enabled : Enabled s a)
      (next : step s a = some s') : Reached s'

end DocaApps.Allreduce.Requests
