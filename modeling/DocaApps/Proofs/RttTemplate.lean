import DocaApps.Pcc.RttTemplate
import DocaApps.Lib.Runs

namespace DocaApps.Proofs.RttTemplate
open Lib.Runs Pcc.RttTemplate

variable {wide : WideShift} {p : Params} {f : Flow} {c : Call}

/-- The flow after these calls, from a zeroed context. -/
def after (wide : WideShift) (p : Params) (results : Results) (counter : Option Counters)
    (calls : List Call) : Flow :=
  run (rttTemplateAlgo wide p) ⟨zeroed, results, counter⟩ calls

/-- The states of a measurement: a request is to be sent, is overdue by one TX event, has
been sent, or has been sent again. -/
def measurements : List (UInt8 × UInt8) := [(0, 1), (0, 2), (1, 0), (1, 1)]

/-- What holds after every event. -/
structure Steady (f : Flow) : Prop where
  rate_ne : f.ctxt.curRate ≠ 0
  results_rate : f.results.rate = f.ctxt.curRate
  measurement : (f.ctxt.rttMeasPsn, f.ctxt.rttReqToRttSent) ∈ measurements

theorem newFlowRate_ne (hp : WithinBounds p) : p.newFlowRate ≠ 0 := by
  simp only [WithinBounds, rttTemplateInit, Params.toList, List.forall₂_cons] at hp
  obtain ⟨-, -, -, ⟨hmin, -⟩, -⟩ := hp
  rintro hzero
  rw [hzero] at hmin
  exact absurd hmin (by decide)

theorem minRate_ne (hp : WithinBounds p) : p.minRate ≠ 0 := by
  simp only [WithinBounds, rttTemplateInit, Params.toList, List.forall₂_cons] at hp
  obtain ⟨-, -, -, -, ⟨hmin, -⟩, -⟩ := hp
  rintro hzero
  rw [hzero] at hmin
  exact absurd hmin (by decide)

theorem boundRate_bounds (curRate : UInt32) (p : Params) :
    p.minRate.toNat ≤ (boundRate curRate p).toNat ∧
      (boundRate curRate p).toNat ≤ max p.minRate.toNat maxRate.toNat := by
  unfold boundRate
  dsimp only
  generalize hcut : (if curRate > maxRate then maxRate else curRate) = cut
  have hle : cut.toNat ≤ maxRate.toNat := by
    rw [← hcut]
    split
    · exact Nat.le_refl _
    · next h => exact Nat.not_lt.mp h
  split
  · exact ⟨Nat.le_refl _, Nat.le_max_left _ _⟩
  · next h => exact ⟨Nat.not_lt.mp h, Nat.le_trans hle (Nat.le_max_right _ _)⟩

theorem boundRate_ne (hp : WithinBounds p) (curRate : UInt32) : boundRate curRate p ≠ 0 := by
  intro hzero
  have hle := (boundRate_bounds curRate p).1
  rw [hzero] at hle
  exact minRate_ne hp (UInt32.toNat_inj.mp (Nat.le_zero.mp hle))

/-- A TX event while a request is waited for counts, and the third one asks again. -/
theorem checkAbort_waiting {ctxt : Ctxt} (hpsn : ctxt.rttMeasPsn = 0) (timestamp : UInt32) :
    checkAbort wide ctxt timestamp =
      if ctxt.rttReqToRttSent + 1 > 2 then (1, { ctxt with rttReqToRttSent := 1 })
      else (0, { ctxt with rttReqToRttSent := ctxt.rttReqToRttSent + 1 }) := by
  have hnever : ∀ x : UInt32, ¬ (0 : UInt32) > x := fun x h => Nat.not_lt_zero _ h
  unfold checkAbort
  simp only [hpsn, if_true, hnever, false_or, if_false]

/-- A TX event during a measurement may ask again, and does not end it. -/
theorem checkAbort_measuring (wide : WideShift) {ctxt : Ctxt} (hpsn : ctxt.rttMeasPsn ≠ 0)
    (timestamp : UInt32) :
    (checkAbort wide ctxt timestamp).2.rttMeasPsn = ctxt.rttMeasPsn ∧
      ((checkAbort wide ctxt timestamp).2.rttReqToRttSent = 1 ∨
        (checkAbort wide ctxt timestamp).2.rttReqToRttSent = ctxt.rttReqToRttSent) := by
  unfold checkAbort
  simp only [hpsn, if_false]
  generalize (if ctxt.startDelay > timestamp then _ else _ : UInt32) = since
  split
  · exact ⟨rfl, Or.inl rfl⟩
  · exact ⟨rfl, Or.inr rfl⟩

theorem checkAbort_measurement {ctxt : Ctxt}
    (hm : (ctxt.rttMeasPsn, ctxt.rttReqToRttSent) ∈ measurements) (timestamp : UInt32) :
    ((checkAbort wide ctxt timestamp).2.rttMeasPsn,
      (checkAbort wide ctxt timestamp).2.rttReqToRttSent) ∈ measurements := by
  simp only [measurements, List.mem_cons, Prod.mk.injEq, List.not_mem_nil, or_false] at hm ⊢
  rcases hm with ⟨hpsn, hsent⟩ | ⟨hpsn, hsent⟩ | ⟨hpsn, hsent⟩ | ⟨hpsn, hsent⟩
  · rw [checkAbort_waiting hpsn, hsent, if_neg (by decide)]
    exact Or.inr (Or.inl ⟨hpsn, rfl⟩)
  · rw [checkAbort_waiting hpsn, hsent, if_pos (by decide)]
    exact Or.inl ⟨hpsn, rfl⟩
  · obtain ⟨hkept, hone | hsame⟩ :=
      checkAbort_measuring wide (hpsn ▸ by decide : ctxt.rttMeasPsn ≠ 0) timestamp
    · exact Or.inr (Or.inr (Or.inr ⟨hkept.trans hpsn, hone⟩))
    · exact Or.inr (Or.inr (Or.inl ⟨hkept.trans hpsn, hsame.trans hsent⟩))
  · obtain ⟨hkept, hone | hsame⟩ :=
      checkAbort_measuring wide (hpsn ▸ by decide : ctxt.rttMeasPsn ≠ 0) timestamp
    · exact Or.inr (Or.inr (Or.inr ⟨hkept.trans hpsn, hone⟩))
    · exact Or.inr (Or.inr (Or.inr ⟨hkept.trans hpsn, hsame.trans hsent⟩))

theorem handleRoceTx_measurement {ctxt : Ctxt} {event : Event} {curRate : UInt32}
    (hm : (ctxt.rttMeasPsn, ctxt.rttReqToRttSent) ∈ measurements) :
    ((handleRoceTx wide event curRate ctxt).1.rttMeasPsn,
      (handleRoceTx wide event curRate ctxt).1.rttReqToRttSent) ∈ measurements := by
  unfold handleRoceTx
  dsimp only
  split
  · simp [measurements]
  · exact checkAbort_measurement hm event.timestamp

/-- After the first event every RTT event is accepted. -/
theorem accepted (hm : (f.ctxt.rttMeasPsn, f.ctxt.rttReqToRttSent) ∈ measurements) :
    ¬ (f.ctxt.rttMeasPsn = 0 ∧ f.ctxt.rttReqToRttSent = 0) := by
  rintro ⟨hpsn, hsent⟩
  rw [hpsn, hsent] at hm
  exact absurd hm (by decide)

/-- An accepted RTT event asks for the next measurement and sets a bounded rate. -/
theorem handleRoceRtt_accepted (p : Params) (event : Event) (curRate : UInt32) {ctxt : Ctxt}
    (hacc : ¬ (ctxt.rttMeasPsn = 0 ∧ ctxt.rttReqToRttSent = 0)) :
    ∃ rate, (handleRoceRtt event curRate p ctxt).1.curRate = boundRate rate p ∧
      (handleRoceRtt event curRate p ctxt).1.rttMeasPsn = 0 ∧
      (handleRoceRtt event curRate p ctxt).1.rttReqToRttSent = 1 ∧
      (handleRoceRtt event curRate p ctxt).2 = ⟨boundRate rate p, 1⟩ := by
  unfold handleRoceRtt
  rw [if_neg hacc]
  dsimp only [algorithmCore]
  refine ⟨_, rfl, ?_, rfl, rfl⟩
  unfold adjustRate
  split
  · rfl
  split
  · rfl
  split <;> rfl

/-- The first event of a flow starts it. -/
theorem new_flow (hf : f.ctxt.curRate = 0) (hp : WithinBounds p) :
    Steady (rttTemplateAlgo wide p f c) := by
  unfold rttTemplateAlgo
  rw [if_pos hf]
  exact ⟨newFlowRate_ne hp, rfl, List.mem_cons_self⟩

theorem step_steady (hp : WithinBounds p) (hf : Steady f) :
    Steady (rttTemplateAlgo wide p f c) := by
  obtain ⟨hrate, -, hm⟩ := hf
  unfold rttTemplateAlgo
  rw [if_neg hrate]
  cases c.event.evType with
  | roceTx => exact ⟨hrate, rfl, handleRoceTx_measurement hm⟩
  | rtt =>
    obtain ⟨rate, hcur, hpsn, hsent, hres⟩ :=
      handleRoceRtt_accepted p c.event f.ctxt.curRate (accepted hm)
    refine ⟨?_, ?_, ?_⟩
    · show (handleRoceRtt c.event f.ctxt.curRate p f.ctxt).1.curRate ≠ 0
      rw [hcur]
      exact boundRate_ne hp rate
    · show (handleRoceRtt c.event f.ctxt.curRate p f.ctxt).2.rate = _
      rw [hcur, hres]
    · show ((handleRoceRtt c.event f.ctxt.curRate p f.ctxt).1.rttMeasPsn, _) ∈ _
      rw [hpsn, hsent]
      exact List.mem_cons_self
  | roceCnp => exact ⟨hrate, rfl, hm⟩
  | roceNack => exact ⟨hrate, rfl, hm⟩
  | other => exact ⟨hrate, rfl, hm⟩

theorem after_steady (hp : WithinBounds p) (results : Results) (counter : Option Counters)
    {calls : List Call} (hne : calls ≠ []) : Steady (after wide p results counter calls) := by
  cases calls with
  | nil => exact absurd rfl hne
  | cons c calls =>
    have hfirst : Steady (rttTemplateAlgo wide p ⟨zeroed, results, counter⟩ c) := new_flow rfl hp
    have hstep : ∀ f c, Steady f → Steady (rttTemplateAlgo wide p f c) :=
      fun _ _ hf => step_steady hp hf
    exact run_preserves hstep hfirst calls

/-- The event is an RTT event that the algorithm takes as a measurement. -/
def Accepted (f : Flow) (c : Call) : Prop :=
  c.event.evType = .rtt ∧ f.ctxt.curRate ≠ 0 ∧
    ¬ (f.ctxt.rttMeasPsn = 0 ∧ f.ctxt.rttReqToRttSent = 0)

theorem accepted_bounds (hacc : Accepted f c) :
    p.minRate.toNat ≤ (rttTemplateAlgo wide p f c).results.rate.toNat ∧
      (rttTemplateAlgo wide p f c).results.rate.toNat ≤ max p.minRate.toNat maxRate.toNat := by
  obtain ⟨htype, hrate, hacc⟩ := hacc
  obtain ⟨rate, -, -, -, hres⟩ := handleRoceRtt_accepted p c.event f.ctxt.curRate hacc
  unfold rttTemplateAlgo
  rw [if_neg hrate, htype]
  dsimp only
  rw [hres]
  exact boundRate_bounds rate p

def isTx (c : Call) : Bool := c.event.evType == .roceTx

/-- A TX event for a packet with the requested RTT measurement. -/
def RttReqSent (c : Call) : Prop :=
  c.event.evType = .roceTx ∧ c.event.flags &&& txFlagRttReqSent ≠ 0

/-- One of the calls is a TX or RTT event that asks for an RTT request, at the latest the
`n`th TX event among them. -/
def AsksBy (wide : WideShift) (p : Params) (f : Flow) (calls : List Call) (n : Nat) : Prop :=
  ∃ before c rest, calls = before ++ c :: rest ∧
    (c.event.evType = .roceTx ∨ c.event.evType = .rtt) ∧
    (rttTemplateAlgo wide p (run (rttTemplateAlgo wide p) f before) c).results.rttReq = 1 ∧
    (before ++ [c]).countP isTx ≤ n

theorem AsksBy.first {calls : List Call} {n : Nat} (hn : 1 ≤ n)
    (htype : c.event.evType = .roceTx ∨ c.event.evType = .rtt)
    (hreq : (rttTemplateAlgo wide p f c).results.rttReq = 1) :
    AsksBy wide p f (c :: calls) n := by
  refine ⟨[], c, calls, rfl, htype, hreq, ?_⟩
  have hle : [c].countP isTx ≤ [c].length := List.countP_le_length
  exact Nat.le_trans hle hn

theorem AsksBy.mono {calls : List Call} {n k : Nat} (h : AsksBy wide p f calls n) (hnk : n ≤ k) :
    AsksBy wide p f calls k := by
  obtain ⟨before, c, rest, heq, htype, hreq, hcount⟩ := h
  exact ⟨before, c, rest, heq, htype, hreq, Nat.le_trans hcount hnk⟩

theorem AsksBy.later {calls : List Call} {n : Nat}
    (h : AsksBy wide p (rttTemplateAlgo wide p f c) calls n) :
    AsksBy wide p f (c :: calls) (n + [c].countP isTx) := by
  obtain ⟨before, d, rest, rfl, htype, hreq, hcount⟩ := h
  refine ⟨c :: before, d, rest, rfl, htype, hreq, ?_⟩
  have hsplit : (c :: before ++ [d]).countP isTx =
      [c].countP isTx + (before ++ [d]).countP isTx := by
    rw [← List.countP_append]
    rfl
  rw [hsplit]
  omega

/-- While no request is sent, the count of TX events since the last one runs out. -/
theorem asks_when_waiting {calls : List Call} {n : Nat} (hf : Steady f)
    (hpsn : f.ctxt.rttMeasPsn = 0)
    (hn : f.ctxt.rttReqToRttSent = 1 ∧ n = 2 ∨ f.ctxt.rttReqToRttSent = 2 ∧ n = 1)
    (hno : ∀ c ∈ calls, ¬ RttReqSent c) (hcount : n ≤ calls.countP isTx) (hp : WithinBounds p) :
    AsksBy wide p f calls n := by
  induction calls generalizing f n with
  | nil =>
    simp only [List.countP_nil] at hcount
    omega
  | cons c calls ih =>
    have hrest : ∀ d ∈ calls, ¬ RttReqSent d := fun d hd => hno d (List.mem_cons_of_mem c hd)
    have hnext : Steady (rttTemplateAlgo wide p f c) := step_steady hp hf
    have hskip : c.event.evType ≠ .roceTx →
        (rttTemplateAlgo wide p f c).ctxt.rttMeasPsn = f.ctxt.rttMeasPsn →
        (rttTemplateAlgo wide p f c).ctxt.rttReqToRttSent = f.ctxt.rttReqToRttSent →
        AsksBy wide p f (c :: calls) n := by
      intro htype hpsn' hsent'
      have hzero : [c].countP isTx = 0 := by simp [isTx, htype]
      rw [List.countP_cons_of_neg (by simp [isTx, htype])] at hcount
      have hlater := (ih hnext (hpsn'.trans hpsn) (hsent' ▸ hn) hrest hcount).later
      rwa [hzero] at hlater
    cases htype : c.event.evType with
    | roceTx =>
      have hflag : ¬ (c.event.flags &&& txFlagRttReqSent ≠ 0 ∧ f.ctxt.rttMeasPsn = 0) :=
        fun h => hno c List.mem_cons_self ⟨htype, h.1⟩
      have hstep : rttTemplateAlgo wide p f c =
          ⟨{ (checkAbort wide f.ctxt c.event.timestamp).2 with curRate := f.ctxt.curRate },
            ⟨f.ctxt.curRate, (checkAbort wide f.ctxt c.event.timestamp).1⟩,
            f.counter.map fun k => { k with txEvent := k.txEvent + 1 }⟩ := by
        unfold rttTemplateAlgo
        rw [if_neg hf.rate_ne, htype]
        simp only [handleRoceTx, if_neg hflag]
      rw [checkAbort_waiting hpsn] at hstep
      rcases hn with ⟨hsent, rfl⟩ | ⟨hsent, rfl⟩
      · rw [hsent, if_neg (by decide)] at hstep
        have hone : [c].countP isTx = 1 := by simp [isTx, htype]
        rw [List.countP_cons_of_pos (by simp [isTx, htype])] at hcount
        have hleft : 1 ≤ calls.countP isTx := by omega
        have hpsn' : (rttTemplateAlgo wide p f c).ctxt.rttMeasPsn = 0 := by
          rw [hstep]
          exact hpsn
        have hsent' : (rttTemplateAlgo wide p f c).ctxt.rttReqToRttSent = 2 := by
          rw [hstep]
          rfl
        have hlater := (ih hnext hpsn' (Or.inr ⟨hsent', rfl⟩) hrest hleft).later
        rwa [hone] at hlater
      · rw [hsent, if_pos (by decide)] at hstep
        refine AsksBy.first (Nat.le_refl 1) (Or.inl htype) ?_
        rw [hstep]
    | rtt =>
      refine AsksBy.first (by omega) (Or.inr htype) ?_
      obtain ⟨rate, -, -, -, hres⟩ :=
        handleRoceRtt_accepted p c.event f.ctxt.curRate (accepted hf.measurement)
      unfold rttTemplateAlgo
      rw [if_neg hf.rate_ne, htype]
      dsimp only
      rw [hres]
    | roceCnp =>
      refine hskip (by simp [htype]) ?_ ?_ <;>
        simp [rttTemplateAlgo, hf.rate_ne, htype, handleRoceCnp]
    | roceNack =>
      refine hskip (by simp [htype]) ?_ ?_ <;>
        simp [rttTemplateAlgo, hf.rate_ne, htype, handleRoceNack]
    | other =>
      refine hskip (by simp [htype]) ?_ ?_ <;> simp [rttTemplateAlgo, hf.rate_ne, htype]

/-- A call with this event, at this time. -/
def callOf (evType : EventType) (flags : UInt8) (timestamp : UInt32) : Call :=
  ⟨⟨evType, flags, timestamp, 0⟩, ⟨0, 0⟩⟩

/-- Calls that lead to each of the states of a measurement. -/
def reaching : List (List Call) :=
  [[callOf .roceTx 0 0],
    [callOf .roceTx 0 0, callOf .roceTx 0 0],
    [callOf .roceTx 0 0, callOf .roceTx txFlagRttReqSent 0],
    [callOf .roceTx 0 0, callOf .roceTx txFlagRttReqSent 0, callOf .roceTx 0 400000]]

theorem measurements_reached (wide : WideShift) (hp : WithinBounds p) (results : Results)
    (counter : Option Counters) :
    reaching.map (fun calls => ((after wide p results counter calls).ctxt.rttMeasPsn,
      (after wide p results counter calls).ctxt.rttReqToRttSent)) = measurements := by
  have hrate := newFlowRate_ne hp
  have hflag : txFlagRttReqSent ≠ 0 := by decide
  have hlate : abortTime < 400000 := by decide
  simp [reaching, after, run, rttTemplateAlgo, zeroed, handleNewFlow, handleRoceTx, checkAbort,
    callOf, measurements, shiftLeft, hrate, hflag, hlate]

/-- The controller over every run from a zeroed context: the rate is never zero again
and is what the results say, accepted RTT events set bounded rates, a measurement is in
one of four states, and a request that is not sent is asked for again by the second TX
event. -/
theorem rtt_template_controller (wide : WideShift) (p : Params) (hp : WithinBounds p)
    (results : Results) (counter : Option Counters) :
    (∀ calls, calls ≠ [] →
      let f := after wide p results counter calls
      f.ctxt.curRate ≠ 0 ∧ f.results.rate = f.ctxt.curRate ∧
      (∀ c, Accepted f c →
        p.minRate.toNat ≤ (rttTemplateAlgo wide p f c).results.rate.toNat ∧
        (rttTemplateAlgo wide p f c).results.rate.toNat ≤ max p.minRate.toNat maxRate.toNat) ∧
      (f.ctxt.rttMeasPsn = 0 → ∀ later, (∀ c ∈ later, ¬ RttReqSent c) →
        2 ≤ later.countP isTx → AsksBy wide p f later 2)) ∧
    ∀ psn sent, (psn, sent) ∈ measurements ↔ ∃ calls, calls ≠ [] ∧
      (after wide p results counter calls).ctxt.rttMeasPsn = psn ∧
      (after wide p results counter calls).ctxt.rttReqToRttSent = sent := by
  refine ⟨?_, ?_⟩
  · intro calls hne
    have hf : Steady (after wide p results counter calls) := after_steady hp results counter hne
    refine ⟨hf.rate_ne, hf.results_rate, fun c hacc => accepted_bounds hacc, ?_⟩
    intro hpsn later hno hcount
    have hm := hf.measurement
    simp only [measurements, List.mem_cons, Prod.mk.injEq, hpsn, List.not_mem_nil, or_false] at hm
    rcases hm with ⟨-, hsent⟩ | ⟨-, hsent⟩ | ⟨hone, -⟩ | ⟨hone, -⟩
    · exact asks_when_waiting hf hpsn (Or.inl ⟨hsent, rfl⟩) hno hcount hp
    · have hcount' : 1 ≤ later.countP isTx := by omega
      exact (asks_when_waiting hf hpsn (Or.inr ⟨hsent, rfl⟩) hno hcount' hp).mono (by omega)
    · exact absurd hone (by decide)
    · exact absurd hone (by decide)
  · intro psn sent
    constructor
    · intro hmem
      rw [← measurements_reached wide hp results counter] at hmem
      obtain ⟨calls, hcalls, heq⟩ := List.mem_map.mp hmem
      obtain ⟨rfl, rfl⟩ := Prod.mk.inj heq
      refine ⟨calls, ?_, rfl, rfl⟩
      rintro rfl
      exact absurd hcalls (by decide)
    · rintro ⟨calls, hne, rfl, rfl⟩
      exact (after_steady hp results counter hne).measurement

def defaultParams : Params := ⟨6553, 52428, 13000, 1048576, 64, 150000⟩

theorem defaults_declared : rttTemplateInit.map ParamInit.defaultValue = defaultParams.toList := by
  decide

theorem defaults_within_bounds : WithinBounds defaultParams := by
  simp only [WithinBounds, rttTemplateInit, Params.toList, List.forall₂_cons, List.forall₂_nil_left_iff,
    defaultParams]
  decide

theorem rtt_template_controller_defaults :
    WithinBounds defaultParams ∧
      (after (fun x _ => x) defaultParams ⟨0, 0⟩ none
        [callOf .roceTx 0 0, callOf .rtt 0 20000]).ctxt.curRate ≠ 0 :=
  ⟨defaults_within_bounds,
    ((rtt_template_controller (fun x _ => x) defaultParams defaults_within_bounds ⟨0, 0⟩ none).1
      [callOf .roceTx 0 0, callOf .rtt 0 20000] (by simp)).1⟩

end DocaApps.Proofs.RttTemplate
