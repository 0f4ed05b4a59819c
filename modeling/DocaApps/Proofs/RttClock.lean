import DocaApps.Pcc.Clock
import DocaApps.Proofs.RttTemplate

namespace DocaApps.Proofs.RttClock
open Lib.Runs Pcc.RttTemplate Pcc.Clock Proofs.RttTemplate

variable {wide : WideShift} {p : Params} {s : TimedFlow} {e : TimedEvent} {k : Nat}
  {events : List TimedEvent}

/-- A TX event during a measurement. -/
def Checked (f : Flow) (c : Call) : Prop :=
  c.event.evType = .roceTx ∧ f.ctxt.curRate ≠ 0 ∧ f.ctxt.rttMeasPsn ≠ 0

/-- The elapsed times of a step are the true ones, where 32 bits hold them. -/
structure ExactAt (wide : WideShift) (p : Params) (s : TimedFlow) (e : TimedEvent) : Prop where
  rtt : Accepted s.flow e.call → e.time - e.sent < 2 ^ 32 →
    (timedStep wide p s e).flow.ctxt.rtt.toNat = e.time - e.sent
  tillNow : Checked s.flow e.call → e.time - s.started < 2 ^ 32 →
    (rttTillNow s.flow.ctxt e.call.event.timestamp).toNat = e.time - s.started

/-- The low word of the clock is not lower at the end of an interval than at its start. -/
def SameTurn (start time : Nat) : Prop := start % 2 ^ 32 ≤ time % 2 ^ 32

instance (start time : Nat) : Decidable (SameTurn start time) :=
  inferInstanceAs (Decidable (_ ≤ _))

/-- No interval that is measured at the step crosses the wrap of the low word. -/
structure Unwrapped (s : TimedFlow) (e : TimedEvent) : Prop where
  rtt : Accepted s.flow e.call → SameTurn e.sent e.time
  tillNow : Checked s.flow e.call → SameTurn s.started e.time

/-- The same of the intervals that 32 bits hold. -/
structure ShortUnwrapped (s : TimedFlow) (e : TimedEvent) : Prop where
  rtt : Accepted s.flow e.call → e.time - e.sent < 2 ^ 32 → SameTurn e.sent e.time
  tillNow : Checked s.flow e.call → e.time - s.started < 2 ^ 32 → SameTurn s.started e.time

theorem checkAbort_rttTillNow (wide : WideShift) (ctxt : Ctxt) (timestamp : UInt32) :
    checkAbort wide ctxt timestamp =
      let ctxt' := if ctxt.rttMeasPsn = 0 then
        { ctxt with rttReqToRttSent := ctxt.rttReqToRttSent + 1 } else ctxt
      let late := rttTillNow ctxt timestamp > shiftLeft wide abortTime ctxt'.abortCnt
      if late ∨ ctxt'.rttReqToRttSent > 2 then
        (1, { ctxt' with
          abortCnt := if late then ctxt'.abortCnt + 1 else ctxt'.abortCnt
          rttReqToRttSent := 1 })
      else (0, ctxt') := rfl

/-- The difference of two timestamps, with the correction that the code makes. -/
def corrected (start time : UInt32) : UInt32 :=
  if start > time then time - start + uint32Max else time - start

theorem measuredRtt_eq (event : Event) :
    measuredRtt event = corrected event.rttReqSendTimestamp event.timestamp := rfl

theorem rttTillNow_eq {ctxt : Ctxt} (hpsn : ctxt.rttMeasPsn ≠ 0) (timestamp : UInt32) :
    rttTillNow ctxt timestamp = corrected ctxt.startDelay timestamp := by
  unfold rttTillNow
  dsimp only
  rw [if_neg hpsn]
  rfl

theorem ofNat_gt {start time : Nat} :
    UInt32.ofNat start > UInt32.ofNat time ↔ ¬ SameTurn start time := by
  rw [gt_iff_lt, UInt32.lt_iff_toNat_lt, UInt32.toNat_ofNat', UInt32.toNat_ofNat', SameTurn,
    Nat.not_le]

/-- Without a wrap the correction is not made. -/
theorem corrected_of_sameTurn {start time : Nat} (h : SameTurn start time) :
    corrected (UInt32.ofNat start) (UInt32.ofNat time) =
      UInt32.ofNat time - UInt32.ofNat start := by
  rw [corrected, if_neg (fun hgt => ofNat_gt.mp hgt h)]

/-- Across the wrap the corrected difference is one too small. -/
theorem corrected_toNat {start time : Nat} (hle : start ≤ time) (hlt : time - start < 2 ^ 32) :
    (corrected (UInt32.ofNat start) (UInt32.ofNat time)).toNat = time - start ↔
      SameTurn start time := by
  have hsub : (UInt32.ofNat time - UInt32.ofNat start).toNat = time - start := by
    rw [UInt32.toNat_sub, UInt32.toNat_ofNat', UInt32.toNat_ofNat']
    omega
  by_cases hturn : SameTurn start time
  · rw [corrected_of_sameTurn hturn, hsub]
    simp only [hturn]
  · rw [corrected, if_pos (ofNat_gt.mpr hturn), UInt32.toNat_add, hsub]
    have hmax : uint32Max.toNat = 4294967295 := rfl
    have hne : start ≠ time := by
      rintro rfl
      exact hturn (Nat.le_refl _)
    simp only [hturn, iff_false]
    omega

theorem algorithmCore_kept (ctxt : Ctxt) (rtt curRate : UInt32) (p : Params) :
    (algorithmCore ctxt rtt curRate p).2.rtt = ctxt.rtt ∧
      (algorithmCore ctxt rtt curRate p).2.startDelay = ctxt.startDelay := by
  unfold algorithmCore adjustRate
  dsimp only
  split
  · exact ⟨rfl, rfl⟩
  split
  · exact ⟨rfl, rfl⟩
  split <;> exact ⟨rfl, rfl⟩

theorem rtt_of_accepted {f : Flow} {c : Call} (h : Accepted f c) :
    (rttTemplateAlgo wide p f c).ctxt.rtt = measuredRtt c.event := by
  obtain ⟨htype, hrate, hacc⟩ := h
  unfold rttTemplateAlgo
  rw [if_neg hrate, htype]
  dsimp only
  unfold handleRoceRtt
  rw [if_neg hacc]
  exact (algorithmCore_kept ..).1

theorem checkAbort_startDelay (ctxt : Ctxt) (timestamp : UInt32) :
    (checkAbort wide ctxt timestamp).2.startDelay = ctxt.startDelay := by
  rw [checkAbort_rttTillNow]
  dsimp only
  split <;> split <;> rfl

theorem startDelay_algo (f : Flow) (c : Call) :
    (rttTemplateAlgo wide p f c).ctxt.startDelay =
      if SetsStart f c then c.event.timestamp else f.ctxt.startDelay := by
  unfold rttTemplateAlgo
  by_cases hrate : f.ctxt.curRate = 0
  · have hset : SetsStart f c := .inl hrate
    rw [if_pos hrate, if_pos hset]
    rfl
  rw [if_neg hrate]
  by_cases htype : c.event.evType = .roceTx
  · simp only [htype]
    unfold handleRoceTx
    by_cases hfirst : c.event.flags &&& txFlagRttReqSent ≠ 0 ∧ f.ctxt.rttMeasPsn = 0
    · have hset : SetsStart f c := .inr ⟨htype, hfirst⟩
      rw [if_pos hfirst, if_pos hset]
    · have hset : ¬ SetsStart f c := fun h => h.elim hrate (fun h => hfirst h.2)
      rw [if_neg hfirst, if_neg hset]
      exact checkAbort_startDelay ..
  · have hset : ¬ SetsStart f c := fun h => h.elim hrate (fun h => htype h.1)
    rw [if_neg hset]
    cases hother : c.event.evType with
    | roceTx => exact absurd hother htype
    | rtt =>
      dsimp only
      unfold handleRoceRtt
      split
      · rfl
      · exact (algorithmCore_kept ..).2
    | _ => rfl

theorem inTime_step (h : InTime s) : InTime (timedStep wide p s e) := by
  unfold InTime timedStep
  rw [startDelay_algo]
  split
  · rfl
  · exact h

/-- One step measures exactly when it crosses no wrap. -/
theorem exactAt_iff (hs : InTime s) (hstarted : s.started ≤ e.time) (hsent : e.sent ≤ e.time) :
    ExactAt wide p s e ↔ ShortUnwrapped s e := by
  have hrtt : Accepted s.flow e.call → (timedStep wide p s e).flow.ctxt.rtt =
      corrected (UInt32.ofNat e.sent) (UInt32.ofNat e.time) := fun h => rtt_of_accepted h
  have htill : Checked s.flow e.call → rttTillNow s.flow.ctxt e.call.event.timestamp =
      corrected (UInt32.ofNat s.started) (UInt32.ofNat e.time) := by
    intro h
    rw [rttTillNow_eq h.2.2, hs]
    rfl
  constructor
  · rintro ⟨h1, h2⟩
    refine ⟨fun hacc hlt => ?_, fun hchk hlt => ?_⟩
    · have hexact := h1 hacc hlt
      rw [hrtt hacc] at hexact
      exact (corrected_toNat hsent hlt).mp hexact
    · have hexact := h2 hchk hlt
      rw [htill hchk] at hexact
      exact (corrected_toNat hstarted hlt).mp hexact
  · rintro ⟨h1, h2⟩
    refine ⟨fun hacc hlt => ?_, fun hchk hlt => ?_⟩
    · rw [hrtt hacc]
      exact (corrected_toNat hsent hlt).mpr (h1 hacc hlt)
    · rw [htill hchk]
      exact (corrected_toNat hstarted hlt).mpr (h2 hchk hlt)

theorem onClock_next (h : OnClock s (e :: events)) : OnClock (timedStep wide p s e) events := by
  obtain ⟨hsorted, hstarted, hsent⟩ := h
  rw [List.map_cons, List.pairwise_cons] at hsorted
  refine ⟨hsorted.2, fun d hd => ?_, fun d hd => hsent d (List.mem_cons_of_mem _ hd)⟩
  unfold timedStep
  dsimp only
  split
  · exact hsorted.1 d.time (List.mem_map_of_mem hd)
  · exact hstarted d (List.mem_cons_of_mem _ hd)

theorem exact_run_iff (hs : InTime s) (h : OnClock s events) :
    Along (timedStep wide p) (ExactAt wide p) s events ↔
      Along (timedStep wide p) ShortUnwrapped s events := by
  induction events generalizing s with
  | nil => exact Iff.rfl
  | cons e events ih =>
    exact and_congr (exactAt_iff hs (h.started e List.mem_cons_self) (h.sent e List.mem_cons_self))
      (ih (inTime_step hs) (onClock_next h))

/-- The same difference at another time. -/
theorem corrected_shift {start time : Nat} (h : SameTurn start time)
    (hk : SameTurn (start + k) (time + k)) :
    corrected (UInt32.ofNat (start + k)) (UInt32.ofNat (time + k)) =
      corrected (UInt32.ofNat start) (UInt32.ofNat time) := by
  rw [corrected_of_sameTurn h, corrected_of_sameTurn hk, ← UInt32.toNat_inj, UInt32.toNat_sub,
    UInt32.toNat_sub]
  simp only [UInt32.toNat_ofNat']
  omega

/-- The flow with another start time. -/
def withStart (f : Flow) (d : UInt32) : Flow := { f with ctxt := { f.ctxt with startDelay := d } }

/-- The call with other timestamps. -/
def withTimes (c : Call) (timestamp sent : UInt32) : Call :=
  { c with event := { c.event with timestamp := timestamp, rttReqSendTimestamp := sent } }

theorem algorithmCore_withStart (ctxt : Ctxt) (d rtt curRate : UInt32) (p : Params) :
    algorithmCore { ctxt with startDelay := d } rtt curRate p =
      ((algorithmCore ctxt rtt curRate p).1,
        { (algorithmCore ctxt rtt curRate p).2 with startDelay := d }) := by
  unfold algorithmCore adjustRate
  dsimp only
  split
  · rfl
  split
  · rfl
  split <;> rfl

theorem checkAbort_withStart {ctxt : Ctxt} {d timestamp timestamp' : UInt32}
    (h : rttTillNow { ctxt with startDelay := d } timestamp' = rttTillNow ctxt timestamp) :
    checkAbort wide { ctxt with startDelay := d } timestamp' =
      ((checkAbort wide ctxt timestamp).1,
        { (checkAbort wide ctxt timestamp).2 with startDelay := d }) := by
  rw [checkAbort_rttTillNow, checkAbort_rttTillNow, h]
  dsimp only
  split <;> split <;> rfl

/-- The algorithm uses times only through the elapsed ones. -/
theorem algo_withStart {f : Flow} {c : Call} {d timestamp sent : UInt32}
    (hrtt : Accepted f c →
      measuredRtt (withTimes c timestamp sent).event = measuredRtt c.event)
    (htill : ¬ SetsStart f c → c.event.evType = .roceTx →
      rttTillNow { f.ctxt with startDelay := d } timestamp =
        rttTillNow f.ctxt c.event.timestamp) :
    rttTemplateAlgo wide p (withStart f d) (withTimes c timestamp sent) =
      withStart (rttTemplateAlgo wide p f c) (if SetsStart f c then timestamp else d) := by
  unfold rttTemplateAlgo
  by_cases hrate : f.ctxt.curRate = 0
  · have hset : SetsStart f c := .inl hrate
    rw [if_pos hrate, if_pos hset]
    have hrate' : (withStart f d).ctxt.curRate = 0 := hrate
    rw [if_pos hrate']
    rfl
  have hrate' : ¬ (withStart f d).ctxt.curRate = 0 := hrate
  rw [if_neg hrate, if_neg hrate']
  have htypes : (withTimes c timestamp sent).event.evType = c.event.evType := rfl
  rw [htypes]
  cases htype : c.event.evType with
  | roceTx =>
    dsimp only
    unfold handleRoceTx
    by_cases hfirst : c.event.flags &&& txFlagRttReqSent ≠ 0 ∧ f.ctxt.rttMeasPsn = 0
    · have hset : SetsStart f c := .inr ⟨htype, hfirst⟩
      have hfirst' : (withTimes c timestamp sent).event.flags &&& txFlagRttReqSent ≠ 0 ∧
        (withStart f d).ctxt.rttMeasPsn = 0 := hfirst
      rw [if_pos hfirst, if_pos hfirst', if_pos hset]
      rfl
    · have hset : ¬ SetsStart f c := fun h => h.elim hrate (fun h => hfirst h.2)
      have hfirst' : ¬ ((withTimes c timestamp sent).event.flags &&& txFlagRttReqSent ≠ 0 ∧
        (withStart f d).ctxt.rttMeasPsn = 0) := hfirst
      rw [if_neg hfirst, if_neg hfirst', if_neg hset]
      have habort : checkAbort wide (withStart f d).ctxt (withTimes c timestamp sent).event.timestamp
          = _ := checkAbort_withStart (htill hset htype)
      rw [habort]
      rfl
  | rtt =>
    have hset : ¬ SetsStart f c := fun h => h.elim hrate (fun h => by rw [htype] at h; cases h.1)
    rw [if_neg hset]
    dsimp only
    unfold handleRoceRtt
    by_cases hnone : f.ctxt.rttMeasPsn = 0 ∧ f.ctxt.rttReqToRttSent = 0
    · have hnone' : (withStart f d).ctxt.rttMeasPsn = 0 ∧
        (withStart f d).ctxt.rttReqToRttSent = 0 := hnone
      rw [if_pos hnone, if_pos hnone']
      rfl
    · have hnone' : ¬ ((withStart f d).ctxt.rttMeasPsn = 0 ∧
        (withStart f d).ctxt.rttReqToRttSent = 0) := hnone
      rw [if_neg hnone, if_neg hnone', hrtt ⟨htype, hrate, hnone⟩]
      have hcore := algorithmCore_withStart
        { f.ctxt with rttMeasPsn := 0, abortCnt := 0, rtt := measuredRtt c.event } d
        (measuredRtt c.event) f.ctxt.curRate p
      dsimp only [withStart] at hcore ⊢
      rw [hcore]
  | _ =>
    have hset : ¬ SetsStart f c := fun h => h.elim hrate (fun h => by rw [htype] at h; cases h.1)
    rw [if_neg hset]
    rfl

theorem step_shift (hs : InTime s) (h : Unwrapped s e)
    (hk : Unwrapped (s.shift k) (e.shift k)) :
    timedStep wide p (s.shift k) (e.shift k) = (timedStep wide p s e).shift k := by
  have hflow : (s.shift k).flow = withStart s.flow (UInt32.ofNat (s.started + k)) := rfl
  have hcall : (e.shift k).call =
    withTimes e.call (UInt32.ofNat (e.time + k)) (UInt32.ofNat (e.sent + k)) := rfl
  have hsets : SetsStart (s.shift k).flow (e.shift k).call ↔ SetsStart s.flow e.call := Iff.rfl
  have hrtt : Accepted s.flow e.call → measuredRtt (e.shift k).call.event =
      measuredRtt e.call.event := fun hacc => corrected_shift (h.rtt hacc) (hk.rtt hacc)
  have htill : ¬ SetsStart s.flow e.call → e.call.event.evType = .roceTx →
      rttTillNow (s.shift k).flow.ctxt (UInt32.ofNat (e.time + k)) =
        rttTillNow s.flow.ctxt e.call.event.timestamp := by
    intro hset htype
    by_cases hpsn : s.flow.ctxt.rttMeasPsn = 0
    · simp only [rttTillNow, hflow, withStart, hpsn, if_true]
    · have hchk : Checked s.flow e.call := ⟨htype, fun hzero => hset (.inl hzero), hpsn⟩
      have hpsn' : ¬ (s.shift k).flow.ctxt.rttMeasPsn = 0 := hpsn
      rw [rttTillNow_eq hpsn, rttTillNow_eq hpsn', hs]
      exact corrected_shift (h.tillNow hchk) (hk.tillNow hchk)
  have halgo : rttTemplateAlgo wide p (s.shift k).flow (e.shift k).call =
      withStart (rttTemplateAlgo wide p s.flow e.call)
        (if SetsStart s.flow e.call then UInt32.ofNat (e.time + k)
          else UInt32.ofNat (s.started + k)) := algo_withStart hrtt htill
  unfold timedStep
  rw [halgo]
  by_cases hset : SetsStart s.flow e.call
  · rw [if_pos hset, if_pos (hsets.mpr hset), if_pos hset]
    rfl
  · rw [if_neg hset, if_neg (mt hsets.mp hset), if_neg hset]
    rfl

/-- A run at other times goes through the same states, but for their start times. -/
theorem states_shift (hs : InTime s) (h : Along (timedStep wide p) Unwrapped s events)
    (hk : Along (timedStep wide p) Unwrapped (s.shift k) (events.map (TimedEvent.shift k))) :
    states wide p (s.shift k) (events.map (TimedEvent.shift k)) =
      (states wide p s events).map (TimedFlow.shift k) := by
  induction events generalizing s with
  | nil => rfl
  | cons e events ih =>
    have hstep : timedStep wide p (s.shift k) (e.shift k) = _ := step_shift hs h.1 hk.1
    have hrest : Along (timedStep wide p) Unwrapped ((timedStep wide p s e).shift k)
        (events.map (TimedEvent.shift k)) := hstep ▸ hk.2
    rw [List.map_cons, states, states, hstep, ih (inTime_step hs) h.2 hrest]
    rfl

/-- The rate and the request after each event. -/
def outputs (wide : WideShift) (p : Params) (s : TimedFlow) (events : List TimedEvent) :
    List Results := (states wide p s events).map fun t => t.flow.results

/-- In a run that measures no interval across the wrap of the low word the elapsed times are
the true ones, and nothing changes when the run is shifted to where it measures none either.
For the intervals that 32 bits hold the condition is also necessary. -/
theorem elapsed_times (wide : WideShift) (p : Params) (s : TimedFlow) (events : List TimedEvent)
    (hs : InTime s) (hclock : OnClock s events) :
    (Along (timedStep wide p) (ExactAt wide p) s events ↔
      Along (timedStep wide p) ShortUnwrapped s events) ∧
    ∀ k, Along (timedStep wide p) Unwrapped s events →
      Along (timedStep wide p) Unwrapped (s.shift k) (events.map (TimedEvent.shift k)) →
        outputs wide p (s.shift k) (events.map (TimedEvent.shift k)) = outputs wide p s events := by
  refine ⟨exact_run_iff hs hclock, fun k h hk => ?_⟩
  rw [outputs, outputs, states_shift hs h hk, List.map_map]
  rfl

/-- A new flow, its first RTT request and the answer to it. -/
def oneMeasurement (first sent answered : Nat) : List TimedEvent :=
  [⟨.other, 0, first, 0, ⟨0, 0⟩⟩, ⟨.roceTx, txFlagRttReqSent, sent, 0, ⟨0, 0⟩⟩,
    ⟨.rtt, 0, answered, sent, ⟨0, 0⟩⟩]

def newFlow : TimedFlow := ⟨⟨zeroed, ⟨0, 0⟩, none⟩, 0⟩

theorem onClock_oneMeasurement {first sent answered : Nat} (hfirst : first ≤ sent)
    (hsent : sent ≤ answered) : OnClock newFlow (oneMeasurement first sent answered) := by
  constructor
  · simp [oneMeasurement]
    omega
  · intro _ _
    exact Nat.zero_le _
  · simp [oneMeasurement, hsent]

theorem elapsed_times_one :
    outputs (fun _ _ => 0) defaultParams (newFlow.shift 5)
        ((oneMeasurement 1000 2000 15000).map (TimedEvent.shift 5)) =
      outputs (fun _ _ => 0) defaultParams newFlow (oneMeasurement 1000 2000 15000) := by
  refine (elapsed_times _ _ newFlow _ rfl (onClock_oneMeasurement (by decide) (by decide))).2 5
    ⟨?_, ?_, ?_, trivial⟩ ⟨?_, ?_, ?_, trivial⟩
  all_goals exact ⟨fun _ => by decide +kernel, fun _ => by decide +kernel⟩

/-- A measurement across the wrap is one nanosecond too short, here just enough for the rate
to go up where it goes down one nanosecond later. -/
theorem wrapped_measurement :
    OnClock newFlow (oneMeasurement 1000 4294967295 4294980296) ∧
      ¬ Along (timedStep (fun _ _ => 0) defaultParams) (ExactAt (fun _ _ => 0) defaultParams)
        newFlow (oneMeasurement 1000 4294967295 4294980296) ∧
      outputs (fun _ _ => 0) defaultParams (newFlow.shift 1)
          ((oneMeasurement 1000 4294967295 4294980296).map (TimedEvent.shift 1)) ≠
        outputs (fun _ _ => 0) defaultParams newFlow
          (oneMeasurement 1000 4294967295 4294980296) := by
  refine ⟨onClock_oneMeasurement (by decide) (by decide), ?_, by decide +kernel⟩
  rintro ⟨-, -, h, -⟩
  have hrtt := h.rtt (by unfold Accepted; decide +kernel) (by decide +kernel)
  revert hrtt
  decide +kernel

end DocaApps.Proofs.RttClock
