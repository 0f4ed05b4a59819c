import DocaApps.Doca
import Mathlib

namespace DocaApps.Allreduce.Ucx

/-- `ucs_status_t`, the errors with their codes. -/
inductive UcsStatus where
  | ok
  | inProgress
  | err (code : Nat)
  deriving DecidableEq, Repr

inductive UcxOp where
  | unknownOp | amSend | amRecvData
  deriving DecidableEq, Repr

/-- `struct allreduce_ucx_request`. Pointers are numbers, and `none` is `NULL`. -/
structure Request where
  callback : Option Nat
  arg : Option Nat
  connection : Option Nat
  logErr : Bool
  status : UcsStatus
  op : UcxOp
  deriving DecidableEq, Repr

/-- What `request_init` writes. -/
def requestInit : Request := ⟨none, none, none, true, .inProgress, .unknownOp⟩

/-- The memory of the requests, with the ones that UCX has handed out. -/
structure Memory where
  request : Nat → Request
  taken : Finset Nat

def Memory.write (m : Memory) (k : Nat) (r : Request) : Memory :=
  { m with request := Function.update m.request k r }

def Memory.take (m : Memory) (k : Nat) : Memory := { m with taken := insert k m.taken }

/-- `ucp_request_free` takes only a request that was handed out. -/
def requestRelease (m : Memory) (k : Nat) : Option Memory :=
  if k ∈ m.taken then some { m.write k requestInit with taken := m.taken.erase k } else none

/-- What a call of UCX returns: `NULL`, an error or a request. -/
inductive StatusPtr where
  | null
  | err (code : Nat)
  | request (k : Nat)
  deriving DecidableEq, Repr

/-- A call of a callback of the user. -/
structure Call where
  callback : Nat
  arg : Option Nat
  status : UcsStatus
  deriving DecidableEq, Repr

def userRequestComplete (callback arg : Option Nat) (status : UcsStatus) : List Call :=
  match callback with
  | some callback => [⟨callback, arg, status⟩]
  | none => []

/-- What a function leaves: the callbacks that it calls, and the request that it releases when
they have returned. -/
structure After where
  memory : Memory
  calls : List Call
  release : Option Nat

/-- `none` is `DOCA_SUCCESS`; `requestP` is what the user finds in `*request_p`. -/
structure Processed extends After where
  result : Option DocaError
  requestP : Option Nat

/-- The assertions hold and only a request that was handed out is looked at, or there is no
result. -/
def requestProcess (connection : Nat) (op : UcxOp) (ptrStatus : StatusPtr)
    (callback arg : Option Nat) (logErr : Bool) (m : Memory) : Option Processed :=
  match ptrStatus with
  | .null => some ⟨⟨m, userRequestComplete callback arg .ok, none⟩, none, none⟩
  | .err code => some ⟨⟨m, userRequestComplete callback arg (.err code), none⟩,
      some .unexpected, none⟩
  | .request k =>
    let r := m.request k
    if k ∉ m.taken then none
    else if r.status ≠ .inProgress then
      if r.op = op then
        some ⟨⟨m, userRequestComplete callback arg r.status, some k⟩,
          if r.status = .ok then none else some .unexpected, none⟩
      else none
    else if r.op = .unknownOp then
      some ⟨⟨m.write k ⟨callback, arg, some connection, logErr, r.status, op⟩, [], none⟩,
        none, some k⟩
    else none

def commonRequestCallback (k : Nat) (status : UcsStatus) (userData : Nat) (op : UcxOp)
    (m : Memory) : Option After :=
  let r := { m.request k with status }
  if k ∉ m.taken then none
  else if r.connection ≠ none then
    match r.callback with
    | some callback => some ⟨m.write k r, [⟨callback, r.arg, status⟩], some k⟩
    | none => some ⟨m.write k r, [], none⟩
  else if r.op = .unknownOp then
    some ⟨m.write k { r with connection := some userData, op }, [], none⟩
  else none

/-- The request that is released when the callback has returned. -/
def After.settle (a : After) : Option Memory :=
  match a.release with
  | some k => requestRelease a.memory k
  | none => some a.memory

variable {m m' : Memory} {k j : Nat} {r : Request} {connection userData : Nat} {op : UcxOp}
  {callback arg : Option Nat} {logErr : Bool} {status : UcsStatus} {a : After} {p : Processed}

@[simp] theorem write_request (m : Memory) (k : Nat) (r : Request) :
    (m.write k r).request k = r := Function.update_self ..

theorem write_request_of_ne (h : j ≠ k) : (m.write k r).request j = m.request j :=
  Function.update_of_ne h ..

@[simp] theorem write_taken (m : Memory) (k : Nat) (r : Request) :
    (m.write k r).taken = m.taken := rfl

@[simp] theorem take_request (m : Memory) (k : Nat) : (m.take k).request = m.request := rfl

@[simp] theorem take_taken (m : Memory) (k : Nat) : (m.take k).taken = insert k m.taken := rfl

theorem requestRelease_some (h : requestRelease m k = some m') :
    k ∈ m.taken ∧ m' = { m.write k requestInit with taken := m.taken.erase k } := by
  unfold requestRelease at h
  split at h
  · rename_i hk
    exact ⟨hk, (Option.some.inj h).symm⟩
  · cases h

/-- What the completion callback does with a request, by whether it was processed and whether
the user has a callback. -/
theorem commonRequestCallback_cases (h : commonRequestCallback k status userData op m = some a) :
    k ∈ m.taken ∧
      ((∃ c, (m.request k).connection ≠ none ∧ (m.request k).callback = some c ∧
          a = ⟨m.write k { m.request k with status }, [⟨c, (m.request k).arg, status⟩], some k⟩) ∨
        ((m.request k).connection ≠ none ∧ (m.request k).callback = none ∧
          a = ⟨m.write k { m.request k with status }, [], none⟩) ∨
        ((m.request k).connection = none ∧ (m.request k).op = .unknownOp ∧
          a = ⟨m.write k { m.request k with status, connection := some userData, op }, [],
            none⟩)) := by
  unfold commonRequestCallback at h
  by_cases htaken : k ∈ m.taken
  · simp only [not_true_eq_false, htaken, if_false] at h
    refine ⟨htaken, ?_⟩
    by_cases hconnection : (m.request k).connection = none
    · rw [if_neg (by simpa using hconnection)] at h
      split at h
      · rename_i hop
        exact Or.inr (Or.inr ⟨hconnection, hop, (Option.some.inj h).symm⟩)
      · cases h
    · rw [if_pos hconnection] at h
      split at h
      · rename_i c hcallback
        exact Or.inl ⟨c, hconnection, hcallback, (Option.some.inj h).symm⟩
      · rename_i hcallback
        exact Or.inr (Or.inl ⟨hconnection, hcallback, (Option.some.inj h).symm⟩)
  · simp [htaken] at h

/-- A request is processed after its completion, or before it. -/
theorem requestProcess_cases
    (h : requestProcess connection op (.request k) callback arg logErr m = some p) :
    k ∈ m.taken ∧
      (((m.request k).status ≠ .inProgress ∧ (m.request k).op = op ∧
          p = ⟨⟨m, userRequestComplete callback arg (m.request k).status, some k⟩,
            if (m.request k).status = .ok then none else some .unexpected, none⟩) ∨
        ((m.request k).status = .inProgress ∧ (m.request k).op = .unknownOp ∧
          p = ⟨⟨m.write k ⟨callback, arg, some connection, logErr, .inProgress, op⟩, [], none⟩,
            none, some k⟩)) := by
  unfold requestProcess at h
  by_cases htaken : k ∈ m.taken
  · simp only [not_true_eq_false, htaken, if_false] at h
    refine ⟨htaken, ?_⟩
    by_cases hstatus : (m.request k).status = .inProgress
    · rw [if_neg (not_not.mpr hstatus), hstatus] at h
      split at h
      · rename_i hop
        exact Or.inr ⟨hstatus, hop, (Option.some.inj h).symm⟩
      · cases h
    · rw [if_pos hstatus] at h
      split at h
      · rename_i hop
        exact Or.inl ⟨hstatus, hop, (Option.some.inj h).symm⟩
      · cases h
  · simp [htaken] at h

end DocaApps.Allreduce.Ucx
