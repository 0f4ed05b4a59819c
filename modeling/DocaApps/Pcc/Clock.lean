import DocaApps.Pcc.RttTemplate
import DocaApps.Lib.Runs

namespace DocaApps.Pcc.Clock
open Lib.Runs RttTemplate

/-- An event at a time of the nanosecond clock. The device sees the low words of the times,
`sent` being the time at which the RTT request of an RTT event was sent. -/
structure TimedEvent where
  evType : EventType
  flags : UInt8
  time : Nat
  sent : Nat
  results : Results
  deriving DecidableEq, Repr

def TimedEvent.call (e : TimedEvent) : Call :=
  ⟨⟨e.evType, e.flags, UInt32.ofNat e.time, UInt32.ofNat e.sent⟩, e.results⟩

def TimedEvent.shift (k : Nat) (e : TimedEvent) : TimedEvent :=
  { e with time := e.time + k, sent := e.sent + k }

/-- A flow and the time that its `start_delay` is the low word of. -/
structure TimedFlow where
  flow : Flow
  started : Nat
  deriving DecidableEq, Repr

def TimedFlow.shift (k : Nat) (s : TimedFlow) : TimedFlow :=
  ⟨{ s.flow with ctxt := { s.flow.ctxt with startDelay := UInt32.ofNat (s.started + k) } },
    s.started + k⟩

/-- The flow holds the low word of the time. -/
def InTime (s : TimedFlow) : Prop := s.flow.ctxt.startDelay = UInt32.ofNat s.started

/-- The event sets `start_delay`. -/
def SetsStart (f : Flow) (c : Call) : Prop :=
  f.ctxt.curRate = 0 ∨
    (c.event.evType = .roceTx ∧ c.event.flags &&& txFlagRttReqSent ≠ 0 ∧ f.ctxt.rttMeasPsn = 0)

instance (f : Flow) (c : Call) : Decidable (SetsStart f c) :=
  inferInstanceAs (Decidable (_ ∨ (_ ∧ _)))

def timedStep (wide : WideShift) (p : Params) (s : TimedFlow) (e : TimedEvent) : TimedFlow :=
  ⟨rttTemplateAlgo wide p s.flow e.call, if SetsStart s.flow e.call then e.time else s.started⟩

/-- The flow after each event. -/
def states (wide : WideShift) (p : Params) : TimedFlow → List TimedEvent → List TimedFlow
  | _, [] => []
  | s, e :: events => timedStep wide p s e :: states wide p (timedStep wide p s e) events

/-- `rtt_till_now` in the TX handler. -/
def rttTillNow (ctxt : Ctxt) (timestamp : UInt32) : UInt32 :=
  let sinceStart := timestamp - ctxt.startDelay
  let sinceStart := if ctxt.startDelay > timestamp then sinceStart + uint32Max else sinceStart
  if ctxt.rttMeasPsn = 0 then 0 else sinceStart

/-- The times of a run are those of one clock. -/
structure OnClock (s : TimedFlow) (events : List TimedEvent) : Prop where
  sorted : (events.map TimedEvent.time).Pairwise (· ≤ ·)
  started : ∀ e ∈ events, s.started ≤ e.time
  sent : ∀ e ∈ events, e.sent ≤ e.time

end DocaApps.Pcc.Clock
