import DocaApps.Proofs.RttTemplate

namespace DocaApps.Proofs.RttResults
open Lib.Runs Pcc.RttTemplate Proofs.RttTemplate

variable {wide : WideShift} {p : Params} {ctxt : Ctxt} {f : Flow} {e : Event}
  {events : List Event}

/-- The context and the results after each call. -/
def outcomes (wide : WideShift) (p : Params) : Flow → List Call → List (Ctxt × Results)
  | _, [] => []
  | f, c :: calls =>
    let f' := rttTemplateAlgo wide p f c
    (f'.ctxt, f'.results) :: outcomes wide p f' calls

/-- What the calls leave depends on the events, not on the buffers that come with them. -/
def FlowOnly (wide : WideShift) (p : Params) (f : Flow) (events : List Event) : Prop :=
  ∀ calls calls', calls.map Call.event = events → calls'.map Call.event = events →
    outcomes wide p f calls = outcomes wide p f calls'

/-- The context after an event. -/
def nextCtxt (wide : WideShift) (p : Params) (ctxt : Ctxt) (e : Event) : Ctxt :=
  (rttTemplateAlgo wide p ⟨ctxt, ⟨0, 0⟩, none⟩ ⟨e, ⟨0, 0⟩⟩).ctxt

/-- The NACK handler does not get the event. -/
def NotNacked (ctxt : Ctxt) (e : Event) : Prop := e.evType = .roceNack → ctxt.curRate = 0

instance (ctxt : Ctxt) (e : Event) : Decidable (NotNacked ctxt e) :=
  inferInstanceAs (Decidable (_ → _))

theorem ctxt_algo (f : Flow) (c : Call) :
    (rttTemplateAlgo wide p f c).ctxt = nextCtxt wide p f.ctxt c.event := by
  unfold nextCtxt rttTemplateAlgo
  dsimp only
  split
  · rfl
  · cases c.event.evType <;> rfl

/-- Outside the NACK handler the results are written in full. -/
theorem results_algo {f g : Flow} {c d : Call} (hctxt : f.ctxt = g.ctxt)
    (hevent : c.event = d.event) (h : NotNacked f.ctxt c.event) :
    (rttTemplateAlgo wide p f c).results = (rttTemplateAlgo wide p g d).results := by
  unfold rttTemplateAlgo
  rw [hctxt, hevent] at *
  dsimp only
  split
  · rfl
  · rename_i hrate
    cases htype : d.event.evType with
    | roceNack => exact absurd (h htype) hrate
    | _ => rfl

theorem outcomes_eq {f g : Flow} {calls calls' : List Call} (hctxt : f.ctxt = g.ctxt)
    (hcalls : calls.map Call.event = events) (hcalls' : calls'.map Call.event = events)
    (h : Along (nextCtxt wide p) NotNacked f.ctxt events) :
    outcomes wide p f calls = outcomes wide p g calls' := by
  induction events generalizing f g calls calls' with
  | nil =>
    rw [List.map_eq_nil_iff.mp hcalls, List.map_eq_nil_iff.mp hcalls']
    rfl
  | cons e events ih =>
    obtain ⟨c, cs, rfl, rfl, hcs⟩ := List.map_eq_cons_iff.mp hcalls
    obtain ⟨d, ds, rfl, hd, hds⟩ := List.map_eq_cons_iff.mp hcalls'
    have hnext : (rttTemplateAlgo wide p f c).ctxt = (rttTemplateAlgo wide p g d).ctxt := by
      rw [ctxt_algo, ctxt_algo, hctxt, hd]
    have hrest : Along (nextCtxt wide p) NotNacked (rttTemplateAlgo wide p f c).ctxt events := by
      rw [ctxt_algo]
      exact h.2
    rw [outcomes, outcomes, hnext, results_algo hctxt hd.symm h.1, ih hnext hcs hds hrest]

/-- The NACK handler leaves the request as the buffer has it. -/
theorem nack_rttReq {results : Results} (hrate : f.ctxt.curRate ≠ 0)
    (htype : e.evType = .roceNack) :
    (rttTemplateAlgo wide p f ⟨e, results⟩).results.rttReq = results.rttReq := by
  unfold rttTemplateAlgo
  rw [if_neg hrate]
  simp only [htype]
  rfl

theorem notNacked_of_flowOnly (h : FlowOnly wide p f (e :: events)) : NotNacked f.ctxt e := by
  intro htype
  by_contra hrate
  have hmap : ∀ r : Results, ((⟨e, r⟩ : Call) :: events.map fun e => ⟨e, ⟨0, 0⟩⟩).map Call.event =
      e :: events := by
    intro r
    simp [Function.comp_def]
  have hsame := h _ _ (hmap ⟨0, 0⟩) (hmap ⟨0, 1⟩)
  rw [outcomes, outcomes] at hsame
  have hreq := congrArg (fun x => x.2.rttReq) (List.cons.inj hsame).1
  simp only [nack_rttReq hrate htype] at hreq
  exact absurd hreq (by decide)

theorem FlowOnly.next (h : FlowOnly wide p f (e :: events)) :
    FlowOnly wide p (rttTemplateAlgo wide p f ⟨e, ⟨0, 0⟩⟩) events := by
  intro calls calls' hcalls hcalls'
  have hsame := h (⟨e, ⟨0, 0⟩⟩ :: calls) (⟨e, ⟨0, 0⟩⟩ :: calls')
    (by rw [List.map_cons, hcalls]) (by rw [List.map_cons, hcalls'])
  rw [outcomes, outcomes] at hsame
  exact (List.cons.inj hsame).2

/-- The results depend on the flow alone exactly when the run hands no event to the NACK
handler. -/
theorem flow_only_iff (wide : WideShift) (p : Params) (f : Flow) (events : List Event) :
    FlowOnly wide p f events ↔ Along (nextCtxt wide p) NotNacked f.ctxt events := by
  constructor
  · intro h
    induction events generalizing f with
    | nil => trivial
    | cons e events ih =>
      have hrest := ih _ (FlowOnly.next h)
      rw [ctxt_algo] at hrest
      exact ⟨notNacked_of_flowOnly h, hrest⟩
  · intro h calls calls' hcalls hcalls'
    exact outcomes_eq rfl hcalls hcalls' h

/-- A NACK after the first event of a flow. -/
theorem nack_leaves_request :
    ¬ FlowOnly (fun _ _ => 0) defaultParams ⟨zeroed, ⟨0, 0⟩, none⟩
      [⟨.roceTx, 0, 1000, 0⟩, ⟨.roceNack, 0, 2000, 0⟩] := by
  intro h
  have hsame := h
    [⟨⟨.roceTx, 0, 1000, 0⟩, ⟨0, 0⟩⟩, ⟨⟨.roceNack, 0, 2000, 0⟩, ⟨0, 0⟩⟩]
    [⟨⟨.roceTx, 0, 1000, 0⟩, ⟨0, 0⟩⟩, ⟨⟨.roceNack, 0, 2000, 0⟩, ⟨0, 1⟩⟩] rfl rfl
  revert hsame
  decide +kernel

end DocaApps.Proofs.RttResults
