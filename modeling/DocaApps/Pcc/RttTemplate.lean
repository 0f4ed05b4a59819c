import Mathlib

namespace DocaApps.Pcc.RttTemplate

/-- The event types of the device library that the algorithm tells apart. -/
inductive EventType where
  | roceTx | rtt | roceCnp | roceNack | other
  deriving DecidableEq, Repr

structure Event where
  evType : EventType
  flags : UInt8
  timestamp : UInt32
  rttReqSendTimestamp : UInt32
  deriving DecidableEq, Repr

def txFlagRttReqSent : UInt8 := (1 : UInt8) <<< 2

structure Flags where
  wasNack : Bool
  wasCnp : Bool
  deriving DecidableEq, Repr

/-- The flow context of the algorithm. -/
structure Ctxt where
  curRate : UInt32
  startDelay : UInt32
  rtt : UInt32
  flags : Flags
  abortCnt : UInt8
  rttMeasPsn : UInt8
  rttReqToRttSent : UInt8
  deriving DecidableEq, Repr

def zeroed : Ctxt := ⟨0, 0, 0, ⟨false, false⟩, 0, 0, 0⟩

structure Results where
  rate : UInt32
  rttReq : UInt32
  deriving DecidableEq, Repr

structure Params where
  updateFactor : UInt32
  ai : UInt32
  baseRtt : UInt32
  newFlowRate : UInt32
  minRate : UInt32
  maxDelay : UInt32
  deriving DecidableEq, Repr

def Params.toList (p : Params) : List UInt32 :=
  [p.updateFactor, p.ai, p.baseRtt, p.newFlowRate, p.minRate, p.maxDelay]

/-- What `rtt_template_init` declares of a parameter. -/
structure ParamInit where
  defaultValue : UInt32
  maxValue : UInt32
  minValue : UInt32
  deriving DecidableEq, Repr

def uint32Max : UInt32 := 0xffffffff

def rttTemplateInit : List ParamInit :=
  [⟨(65536 * 10) / 100, 10 * 65536, 1⟩,
    ⟨(1048576 * 5) / 100, 1048576, 1⟩,
    ⟨13000, uint32Max, 1⟩,
    ⟨1048576, 1048576, 1⟩,
    ⟨64, 1048576, 1⟩,
    ⟨150000, uint32Max, 1⟩]

def WithinBounds (p : Params) : Prop :=
  List.Forall₂ (fun d v => d.minValue ≤ v ∧ v ≤ d.maxValue) rttTemplateInit p.toList

def maxRate : UInt32 := (1 : UInt32) <<< 20

def fxpMult (a b : UInt32) : UInt32 := ((a.toUInt64 * b.toUInt64) >>> 16).toUInt32

def decFactor (p : Params) : UInt32 := ((1 : UInt32) <<< 16) - p.updateFactor
def cnpDecFactor (p : Params) : UInt32 := ((1 : UInt32) <<< 16) - 2 * p.updateFactor
def nackDecFactor (p : Params) : UInt32 := ((1 : UInt32) <<< 16) - 5 * p.updateFactor
def abortTime : UInt32 := 300000

/-- The first part of `algorithm_core`: the rate before it is bounded. -/
def adjustRate (ctxt : Ctxt) (rtt curRate : UInt32) (p : Params) : UInt32 × Ctxt :=
  if ctxt.flags.wasNack ∧ rtt ≥ p.maxDelay then
    (fxpMult (nackDecFactor p) curRate,
      { ctxt with flags := { ctxt.flags with wasNack := false } })
  else if ctxt.flags.wasCnp ∨ rtt ≥ p.maxDelay then
    (fxpMult (cnpDecFactor p) curRate, { ctxt with flags := { ctxt.flags with wasCnp := false } })
  else if rtt > p.baseRtt then (fxpMult (decFactor p) curRate, ctxt)
  else (curRate + p.ai, ctxt)

def boundRate (curRate : UInt32) (p : Params) : UInt32 :=
  let curRate := if curRate > maxRate then maxRate else curRate
  if curRate < p.minRate then p.minRate else curRate

def algorithmCore (ctxt : Ctxt) (rtt curRate : UInt32) (p : Params) : UInt32 × Ctxt :=
  let r := adjustRate ctxt rtt curRate p
  (boundRate r.1 p, r.2)

/-- What a shift by the width or more gives is left open by C. -/
abbrev WideShift := UInt32 → UInt8 → UInt32

def shiftLeft (wide : WideShift) (x : UInt32) (n : UInt8) : UInt32 :=
  if n < 32 then x <<< n.toUInt32 else wide x n

/-- The part of the TX handler for a TX event that does not start a measurement. -/
def checkAbort (wide : WideShift) (ctxt : Ctxt) (timestamp : UInt32) : UInt32 × Ctxt :=
  let sinceStart := timestamp - ctxt.startDelay
  let sinceStart := if ctxt.startDelay > timestamp then sinceStart + uint32Max else sinceStart
  let rttTillNow := if ctxt.rttMeasPsn = 0 then 0 else sinceStart
  let ctxt := if ctxt.rttMeasPsn = 0 then
    { ctxt with rttReqToRttSent := ctxt.rttReqToRttSent + 1 } else ctxt
  let late := rttTillNow > shiftLeft wide abortTime ctxt.abortCnt
  if late ∨ ctxt.rttReqToRttSent > 2 then
    (1, { ctxt with
      abortCnt := if late then ctxt.abortCnt + 1 else ctxt.abortCnt
      rttReqToRttSent := 1 })
  else (0, ctxt)

def handleRoceTx (wide : WideShift) (event : Event) (curRate : UInt32) (ctxt : Ctxt) :
    Ctxt × Results :=
  let r : UInt32 × Ctxt :=
    if event.flags &&& txFlagRttReqSent ≠ 0 ∧ ctxt.rttMeasPsn = 0 then
      (0, { ctxt with rttMeasPsn := 1, rttReqToRttSent := 0, startDelay := event.timestamp })
    else checkAbort wide ctxt event.timestamp
  ({ r.2 with curRate := curRate }, ⟨curRate, r.1⟩)

/-- The RTT of a measurement, without time synchronisation between the nodes. -/
def measuredRtt (event : Event) : UInt32 :=
  let startRtt := event.rttReqSendTimestamp
  let endRtt := event.timestamp
  let rtt := endRtt - startRtt
  if endRtt < startRtt then rtt + uint32Max else rtt

def handleRoceRtt (event : Event) (curRate : UInt32) (p : Params) (ctxt : Ctxt) :
    Ctxt × Results :=
  if ctxt.rttMeasPsn = 0 ∧ ctxt.rttReqToRttSent = 0 then (ctxt, ⟨curRate, 0⟩)
  else
    let rtt := measuredRtt event
    let ctxt := { ctxt with rttMeasPsn := 0, abortCnt := 0, rtt := rtt }
    let r := algorithmCore ctxt rtt curRate p
    ({ r.2 with rttReqToRttSent := 1, curRate := r.1 }, ⟨r.1, 1⟩)

def handleRoceCnp (curRate : UInt32) (ctxt : Ctxt) : Ctxt × Results :=
  ({ ctxt with flags := { ctxt.flags with wasCnp := true }, curRate := curRate }, ⟨curRate, 0⟩)

/-- The request bit of the results is not written here. -/
def handleRoceNack (curRate : UInt32) (ctxt : Ctxt) (results : Results) : Ctxt × Results :=
  ({ ctxt with flags := { ctxt.flags with wasNack := true }, curRate := curRate },
    { results with rate := curRate })

def handleNewFlow (event : Event) (p : Params) (ctxt : Ctxt) : Ctxt × Results :=
  ({ ctxt with
      curRate := p.newFlowRate
      startDelay := event.timestamp
      rttMeasPsn := 0
      rttReqToRttSent := 1
      abortCnt := 0
      flags := { ctxt.flags with wasNack := false } },
    ⟨p.newFlowRate, 1⟩)

/-- The counters of handled events, when the caller keeps them. -/
structure Counters where
  txEvent : UInt32
  rttEvent : UInt32
  deriving DecidableEq, Repr

/-- A flow between two events. -/
structure Flow where
  ctxt : Ctxt
  results : Results
  counter : Option Counters
  deriving DecidableEq, Repr

/-- An event and the results buffer the caller passes with it. -/
structure Call where
  event : Event
  results : Results
  deriving DecidableEq, Repr

def rttTemplateAlgo (wide : WideShift) (p : Params) (f : Flow) (c : Call) : Flow :=
  let curRate := f.ctxt.curRate
  if curRate = 0 then
    let r := handleNewFlow c.event p f.ctxt
    ⟨r.1, r.2, f.counter⟩
  else match c.event.evType with
    | .roceTx =>
      let r := handleRoceTx wide c.event curRate f.ctxt
      ⟨r.1, r.2, f.counter.map fun n => { n with txEvent := n.txEvent + 1 }⟩
    | .rtt =>
      let r := handleRoceRtt c.event curRate p f.ctxt
      ⟨r.1, r.2, f.counter.map fun n => { n with rttEvent := n.rttEvent + 1 }⟩
    | .roceCnp =>
      let r := handleRoceCnp curRate f.ctxt
      ⟨r.1, r.2, f.counter⟩
    | .roceNack =>
      let r := handleRoceNack curRate f.ctxt c.results
      ⟨r.1, r.2, f.counter⟩
    | .other => ⟨f.ctxt, ⟨curRate, 0⟩, f.counter⟩

end DocaApps.Pcc.RttTemplate
