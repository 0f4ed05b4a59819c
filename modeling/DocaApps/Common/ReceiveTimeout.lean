import DocaApps.FileIntegrity.Server
import DocaApps.FileCompression.Server

namespace DocaApps.Common.ReceiveTimeout
open FileServer

def sleepInNanos : BitVec 32 := 10 * 1000

/-- The bound of the counting loops, in `int` arithmetic that wraps around. -/
def numOfIterations (timeout : BitVec 32) : BitVec 32 :=
  (timeout * 1000 * 1000).sdiv (sleepInNanos.sdiv 1000)

/-- What `doca_comm_channel_ep_recvfrom` answers, call after call. -/
abbrev Channel := Nat → Except DocaError (List UInt8)

/-- How a receive loop ended, and how often it slept before. -/
structure Waited where
  sleeps : Nat
  result : Except DocaError (List UInt8)
  deriving Repr

/-- A receive loop that counts its iterations in an `int`, from this counter and this number of
sleeps on, with the result that it leaves when the counter meets the bound. It gives `none` while
it is running. -/
def receive (channel : Channel) (numOfIterations : BitVec 32) (timedOut : DocaError) :
    Nat → BitVec 32 → Nat → Option Waited
  | 0, _, _ => none
  | fuel + 1, counter, sleeps =>
    match channel sleeps with
    | .error .again =>
      if counter + 1 = numOfIterations then some ⟨sleeps + 1, .error timedOut⟩
      else receive channel numOfIterations timedOut fuel (counter + 1) (sleeps + 1)
    | answer => some ⟨sleeps, answer⟩

/-- The iterations after which the counter, from zero on, meets the bound. -/
def rounds (numOfIterations : BitVec 32) : Nat :=
  if numOfIterations = 0 then 2 ^ 32 else numOfIterations.toNat

/-- What the calls gave, after one more `DOCA_ERROR_AGAIN`. -/
def Received.afterAgain (r : Received) : Received := { r with again := r.again + 1 }

/-- The answers of a channel from this call on, as far as so many iterations look at them. -/
def receivedFrom (channel : Channel) : Nat → Nat → Received
  | 0, call => ⟨0, channel call⟩
  | limit + 1, call =>
    match channel call with
    | .error .again => Received.afterAgain (receivedFrom channel limit (call + 1))
    | answer => ⟨0, answer⟩

/-- What the counting loops of a server are answered: that for the number of messages, and that
for each of the messages. -/
structure Channels where
  count : Channel
  data : Nat → Channel

end DocaApps.Common.ReceiveTimeout
