import DocaApps.Doca
import DocaApps.Lib.Overwrite

namespace DocaApps.Common.FileServer
open Lib.Overwrite

/-- What the calls of one receive loop gave: `DOCA_ERROR_AGAIN` so many times, and then an
answer. -/
structure Received where
  again : Nat
  answer : Except DocaError (List UInt8)

/-- A receive loop that gives up after a number of iterations. -/
def Received.waitFor (r : Received) (numOfIterations : Nat) (timedOut : DocaError) :
    Except DocaError (List UInt8) :=
  if 0 < numOfIterations ∧ numOfIterations ≤ r.again then .error timedOut else r.answer

/-- A number in network order. -/
def ntoh (bytes : List UInt8) : Nat := bytes.foldl (fun n b => 256 * n + b.toNat) 0

def ntohq (bytes : List UInt8) : UInt64 := UInt64.ofNat (ntoh bytes)

/-- The file after a `write` at this position: `none` is a failed one, otherwise so many of
the bytes have been written. -/
def writeAt (file : List UInt8) (pos : Nat) (bytes : List UInt8) : Option Nat → List UInt8
  | none => file
  | some n => overwrite file pos (bytes.take n)

/-- The result once the finish message has been sent, or has not. -/
def afterFinish (finishMsg : Option DocaError) (result : Option DocaError) : Option DocaError :=
  match result with
  | some err => some err
  | none => finishMsg

end DocaApps.Common.FileServer
