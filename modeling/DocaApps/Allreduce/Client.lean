import DocaApps.Allreduce.Core

namespace DocaApps.Allreduce.Client
open Allreduce.MemPool Allreduce.Core

variable {w : Nat}

/-- A super-request that a peer's vector created has no result vector yet. -/
def setResultVector (addr slot vectorSize : Nat) : Cmd w Unit :=
  modifySuper addr fun sr =>
    if sr.resultVector = none then
      { sr with
        resultVector := some (.user slot)
        resultVectorOwner := false
        resultVectorSize := vectorSize }
    else sr

/-- One turn of the loop of `allreduce_batch_submit`, with `allreduce_non_offloaded_submit`
as the submit function. -/
def batchSubmitNext (cfg : Config) : Cmd w Unit := do
  let s ← get
  set { s with nextId := s.nextId + 1, remaining := s.remaining - 1 }
  if cfg.batchSize = 0 then throw .divideByZero
  else do
    let slot := s.nextId % cfg.batchSize
    match ← superRequestGet cfg s.nextId s.batchVectorSize (some (.user slot)) with
    | none => pure ()
    | some addr =>
      setResultVector addr slot s.batchVectorSize
      modify fun s => { s with clientActive := s.clientActive + 1 }
      scatter cfg addr

/-- The next call of `allreduce_batch_submit`: the barrier comes first, then batches of
whole vectors. The contents of `allreduce_vectors` may be anything. -/
def batchStart (cfg : Config) (vectors : Nat → Nat → BitVec w) : Cmd w Unit :=
  modify fun s => { s with
    remaining := if s.nextId = 0 then 1 else cfg.batchSize
    batchVectorSize := if s.nextId = 0 then 0 else cfg.vectorSize
    mem := fun loc => match loc with
      | .user slot => vectors slot
      | .pool vec => s.mem (.pool vec) }

end DocaApps.Allreduce.Client
