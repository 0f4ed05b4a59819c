import DocaApps.Ipsec.BulkInsertion
import DocaApps.Proofs.FlowCommon

namespace DocaApps.Proofs.BulkTracking
open Lib.Endings Lib.EntryQueue Ipsec.Rules Ipsec.Encap Ipsec.FlowCommon Ipsec.BulkInsertion
open Proofs.FlowCommon

variable {cfg : Config} {answers : List Outcome} {g t : Gateway} {α β : Type}

abbrev Counters := StatusCtx → EntriesStatus

/-- A condition on the queues and the counters of the program. -/
abbrev Cond := Queues Port StatusCtx → Counters → Prop

/-- The answers have lasted, the library kept to its documentation and no queue has
overflowed. -/
structure Alive (cfg : Config) (answers : List Outcome) (g : Gateway) : Prop where
  answered : g.trace.length ≤ answers.length
  documented : documented cfg answers g
  within : within cfg answers g

/-- As long as the run is alive the condition holds of its queues and counters; a safe
run only stops being alive through the library. -/
structure Tracks (cfg : Config) (safe : Prop) (answers : List Outcome) (J : Cond) (g : Gateway) :
    Prop where
  bounded : safe → documented cfg answers g → within cfg answers g
  rest : Alive cfg answers g → g.outcomes = answers.drop g.trace.length
  cond : Alive cfg answers g → J (after .empty (events cfg answers g)) g.status

theorem zip_snoc {γ δ : Type} (xs : List γ) (x : γ) (ys : List δ) (h : xs.length < ys.length) :
    (xs ++ [x]).zip ys = xs.zip ys ++ [(x, ys[xs.length])] := by
  induction xs generalizing ys with
  | nil =>
    cases ys with
    | nil => simp at h
    | cons y ys => simp
  | cons z xs ih =>
    cases ys with
    | nil => simp at h
    | cons y ys =>
      simp only [List.length_cons, Nat.add_lt_add_iff_right] at h
      simp [ih ys h]

theorem zip_snoc_of_le {γ δ : Type} (xs : List γ) (x : γ) (ys : List δ)
    (h : ys.length ≤ xs.length) : (xs ++ [x]).zip ys = xs.zip ys := by
  induction xs generalizing ys with
  | nil =>
    obtain rfl : ys = [] := List.eq_nil_of_length_eq_zero (by simpa using h)
    rfl
  | cons z xs ih =>
    cases ys with
    | nil => rfl
    | cons y ys =>
      simp only [List.length_cons, Nat.add_le_add_iff_right] at h
      simp [ih ys h]

/-- One more call, answered from the list. -/
theorem events_snoc {c : LibCall} {r : Option DocaError} (ht : t.trace = g.trace ++ [(c, r)])
    (h : g.trace.length < answers.length) :
    events cfg answers t = events cfg answers g ++ [eventOf cfg (c, answers[g.trace.length])] := by
  have hlen : (g.trace.map Prod.fst).length < answers.length := by rwa [List.length_map]
  rw [events, ht, List.map_append, List.map_singleton, zip_snoc _ _ _ hlen, List.map_append]
  simp only [List.map_cons, List.map_nil, List.length_map]
  rfl

theorem events_snoc_of_le {c : LibCall} {r : Option DocaError} (ht : t.trace = g.trace ++ [(c, r)])
    (h : answers.length ≤ g.trace.length) : events cfg answers t = events cfg answers g := by
  rw [events, ht, List.map_append, List.map_singleton,
    zip_snoc_of_le _ _ _ (by rwa [List.length_map])]
  rfl

variable {safe : Prop} {J : Cond} {R : Cond}

/-- What a library call leaves, from what the condition says about the next event. -/
theorem tracks_libCall {K : Outcome → Cond} (c : LibCall) (h : Tracks cfg safe answers J g)
    (hJ : ∀ q st a, J q st → Fits depth q → a ∈ answers → Allowed q (eventOf cfg (c, a)) →
      (safe → Fits depth (step q (eventOf cfg (c, a)))) ∧
        (Fits depth (step q (eventOf cfg (c, a))) → K a (step q (eventOf cfg (c, a))) st)) :
    Ends (libCall c) (fun a t => Tracks cfg safe answers (K a) t) (fun _ _ => False) g := by
  refine ends_libCall.mpr ?_
  obtain ⟨t, hdef⟩ : ∃ t : Gateway, t = { g with
    trace := g.trace ++ [(c, (nextAnswer g).error)], outcomes := g.outcomes.tail } := ⟨_, rfl⟩
  have ht : t.trace = g.trace ++ [(c, (nextAnswer g).error)] := by rw [hdef]
  rw [← hdef]
  by_cases hlt : g.trace.length < answers.length
  · have hev : events cfg answers t = _ := events_snoc ht hlt
    have hnext : Alive cfg answers g → nextAnswer g = answers[g.trace.length] := by
      intro halive
      rw [nextAnswer, h.rest halive, List.drop_eq_getElem_cons hlt]
      rfl
    have hstep : documented cfg answers t → within cfg answers g → Alive cfg answers g ∧
        Allowed (after .empty (events cfg answers g))
          (eventOf cfg (c, answers[g.trace.length])) := by
      intro hdoc hwithin
      rw [documented, hev, documented_snoc] at hdoc
      exact ⟨⟨hlt.le, hdoc.1, hwithin⟩, hdoc.2⟩
    have hone := fun (halive : Alive cfg answers g) => hJ _ _ answers[g.trace.length]
      (h.cond halive) halive.within.fits (List.getElem_mem hlt)
    refine ⟨fun hsafe hdoc => ?_, fun halive => ?_, fun halive => ?_⟩
    · have hdoc' : documented cfg answers g := by
        rw [documented, hev, documented_snoc] at hdoc
        exact hdoc.1
      obtain ⟨halive, hallowed⟩ := hstep hdoc (h.bounded hsafe hdoc')
      rw [within, hev, within_snoc]
      exact ⟨halive.within, (hone halive hallowed).1 hsafe⟩
    · have hwithin : within cfg answers g := by
        have hw := halive.within
        rw [within, hev, within_snoc] at hw
        exact hw.1
      obtain ⟨halive', -⟩ := hstep halive.documented hwithin
      rw [hdef]
      simp only [h.rest halive', List.length_append, List.length_cons, List.length_nil,
        List.tail_drop]
    · have hw := halive.within
      rw [within, hev, within_snoc] at hw
      obtain ⟨halive', hallowed⟩ := hstep halive.documented hw.1
      rw [hev, after_snoc, hnext halive']
      have hstatus : t.status = g.status := by rw [hdef]; rfl
      rw [hstatus]
      exact (hone halive' hallowed).2 hw.2
  · have hev : events cfg answers t = events cfg answers g :=
      events_snoc_of_le ht (Nat.le_of_not_lt hlt)
    have hdead : ¬ Alive cfg answers t := by
      intro halive
      have hlen := halive.answered
      rw [ht, List.length_append, List.length_cons, List.length_nil] at hlen
      omega
    refine ⟨fun hsafe hdoc => ?_, fun halive => absurd halive hdead,
      fun halive => absurd halive hdead⟩
    rw [documented, hev] at hdoc
    rw [within, hev]
    exact h.bounded hsafe hdoc

theorem Tracks.mono {K : Cond} (h : Tracks cfg safe answers J g)
    (hJK : ∀ q st, J q st → Fits depth q → K q st) : Tracks cfg safe answers K g :=
  ⟨h.bounded, h.rest, fun halive => hJK _ _ (h.cond halive) halive.within.fits⟩

/-- A command that leads from one condition to another, or fails with a third. -/
structure Leads (cfg : Config) (safe : Prop) (answers : List Outcome) (R : Cond) (J : Cond)
    (c : Cmd α) (K : α → Cond) : Prop where
  run : ∀ g, Tracks cfg safe answers J g →
    Ends c (fun a t => Tracks cfg safe answers (K a) t) (fun _ t => Tracks cfg safe answers R t) g

variable {c : Cmd α} {K : α → Cond} {L : β → Cond} {f : α → Cmd β}

theorem Leads.pure (a : α) (h : ∀ q st, J q st → Fits depth q → K a q st) :
    Leads cfg safe answers R J (pure a) K := ⟨fun _ hg => (ends_pure a).mpr (hg.mono h)⟩

theorem Leads.throw (e : DocaError) (h : ∀ q st, J q st → Fits depth q → R q st) :
    Leads cfg safe answers R J (throw e : Cmd α) K := ⟨fun _ hg => (ends_throw e).mpr (hg.mono h)⟩

theorem Leads.bind (hc : Leads cfg safe answers R J c K)
    (hf : ∀ a, Leads cfg safe answers R (K a) (f a) L) :
    Leads cfg safe answers R J (c >>= f) L :=
  ⟨fun g hg => (hc.run g hg).bind fun a t ht => (hf a).run t ht⟩

/-- A read of the state is of the counters the condition speaks of. -/
theorem Leads.get_bind {f : Gateway → Cmd β}
    (hf : ∀ g, Leads cfg safe answers R (fun q st => J q st ∧ st = g.status) (f g) L) :
    Leads cfg safe answers R J (get >>= f) L := by
  constructor
  intro g hg
  rw [ends_bind, ends_get]
  exact (hf g).run g ⟨hg.bounded, hg.rest, fun halive => ⟨hg.cond halive, rfl⟩⟩

theorem Leads.pre {J' : Cond} (hc : Leads cfg safe answers R J c K)
    (h : ∀ q st, J' q st → Fits depth q → J q st) : Leads cfg safe answers R J' c K :=
  ⟨fun g hg => hc.run g (hg.mono h)⟩

theorem Leads.post {K' : α → Cond} (hc : Leads cfg safe answers R J c K)
    (h : ∀ a q st, K a q st → Fits depth q → K' a q st) : Leads cfg safe answers R J c K' :=
  ⟨fun g hg => (hc.run g hg).mono (fun a _ ht => ht.mono (h a)) (fun _ _ ht => ht)⟩

/-- A state with the same calls. -/
theorem Tracks.frame {u : Gateway} {K : Cond} (h : Tracks cfg safe answers J g)
    (htrace : u.trace = g.trace) (hout : u.outcomes = g.outcomes)
    (hJK : ∀ q, J q g.status → K q u.status) : Tracks cfg safe answers K u := by
  have hev : events cfg answers u = events cfg answers g := by rw [events, htrace]; rfl
  have halive : Alive cfg answers u → Alive cfg answers g := by
    rintro ⟨hlen, hdoc, hwithin⟩
    rw [documented, hev] at hdoc
    rw [within, hev] at hwithin
    exact ⟨htrace ▸ hlen, hdoc, hwithin⟩
  refine ⟨?_, fun ha => ?_, fun ha => ?_⟩
  · rw [documented, within, hev]
    exact h.bounded
  · rw [hout, htrace]
    exact h.rest (halive ha)
  · rw [hev]
    exact hJK _ (h.cond (halive ha))

/-- A change of the state outside its calls. -/
theorem Leads.modify {f : Gateway → Gateway} {K : PUnit → Cond}
    (hf : ∀ g, (f g).trace = g.trace ∧ (f g).outcomes = g.outcomes)
    (h : ∀ q g, J q g.status → K ⟨⟩ q (f g).status) :
    Leads cfg safe answers R J (modify f) K :=
  ⟨fun g hg => ends_modify.mpr (hg.frame (hf g).1 (hf g).2 (fun q => h q g))⟩

/-- Where a failing call leaves the condition. -/
def ErrorsTo (answers : List Outcome) (J R : Cond) : Prop :=
  ∀ a ∈ answers, a.error ≠ none → ∀ q st, J q st → R q st

theorem leads_libCheck {K : Unit → Cond} {call : LibCall}
    (hJ : ∀ q st a, J q st → Fits depth q → a ∈ answers → Allowed q (eventOf cfg (call, a)) →
      (safe → Fits depth (step q (eventOf cfg (call, a)))) ∧
        (Fits depth (step q (eventOf cfg (call, a))) →
          if a.error = none then K () (step q (eventOf cfg (call, a))) st
          else R (step q (eventOf cfg (call, a))) st)) :
    Leads cfg safe answers R J (libCheck call) K := by
  constructor
  intro g hg
  unfold libCheck
  refine ends_bind.mpr ((tracks_libCall (K := fun a q st => if a.error = none then K () q st
    else R q st) call hg hJ).mono (fun a t ht => ?_) (fun _ _ h => h.elim))
  cases he : a.error with
  | none =>
    rw [ends_pure]
    exact ht.mono (fun q st h _ => by rwa [if_pos he] at h)
  | some e =>
    rw [ends_throw]
    exact ht.mono (fun q st h _ => by rwa [if_neg (he ▸ Option.some_ne_none e)] at h)

/-- A call that no queue sees. -/
theorem leads_unseen {call : LibCall} (hother : ∀ a, eventOf cfg (call, a) = .other)
    (hR : ErrorsTo answers J R) : Leads cfg safe answers R J (libCheck call) (fun _ => J) := by
  refine leads_libCheck (fun q st a h hfits ha _ => ?_)
  rw [hother]
  refine ⟨fun _ => hfits, fun _ => ?_⟩
  split
  · exact h
  · exact hR a ha ‹_› q st h

/-- The queues with one entry more. -/
def added (cfg : Config) (pipe : Pipe) (flags : Flags) (ctx : StatusCtx)
    (q : Queues Port StatusCtx) : Queues Port StatusCtx :=
  Function.update q (portOf cfg pipe) ((q (portOf cfg pipe)).add ctx (flags = .waitForBatch))

theorem leads_pipeAddEntry {K : Unit → Cond} {pipe : Pipe} {m : Match} {actions : Option Actions}
    {flags : Flags} {ctx : StatusCtx}
    (hJ : ∀ q st, J q st → Fits depth q → (safe → Fits depth (added cfg pipe flags ctx q)) ∧
      (Fits depth (added cfg pipe flags ctx q) → K () (added cfg pipe flags ctx q) st))
    (hR : ErrorsTo answers J R) :
    Leads cfg safe answers R J (pipeAddEntry pipe m actions flags ctx) K := by
  refine leads_libCheck (fun q st a h hfits ha _ => ?_)
  cases he : a.error with
  | none =>
    simp only [eventOf, he, ↓reduceIte]
    exact hJ q st h hfits
  | some e =>
    simp only [eventOf, he, reduceCtorEq, ↓reduceIte]
    exact ⟨fun _ => hfits, fun _ => hR a ha (he ▸ Option.some_ne_none e) q st h⟩

theorem status_setStatus (g : Gateway) (ctx : StatusCtx) (st : EntriesStatus) :
    (g.setStatus ctx st).status = Function.update g.status ctx st := by
  funext ctx'
  cases ctx <;> cases ctx' <;> rfl

theorem outcomes_setStatus (g : Gateway) (ctx : StatusCtx) (st : EntriesStatus) :
    (g.setStatus ctx st).outcomes = g.outcomes := by
  cases ctx <;> rfl

/-- The counters after these callbacks. -/
def completed (st : Counters) (cs : List (StatusCtx × Bool)) : Counters :=
  cs.foldl (fun st (ctx, success) => Function.update st ctx (checkForValidEntry success (st ctx))) st

theorem completed_entries (st : Counters) (cs : List (StatusCtx × Bool)) (ctx : StatusCtx) :
    (completed st cs ctx).entriesInQueue =
      (st ctx).entriesInQueue - ((cs.map Prod.fst).count ctx : Int) := by
  induction cs generalizing st with
  | nil => simp [completed]
  | cons c cs ih =>
    obtain ⟨ctx', success⟩ := c
    have hih := ih (Function.update st ctx' (checkForValidEntry success (st ctx')))
    rw [completed, List.foldl_cons, ← completed, hih, List.map_cons, List.count_cons]
    by_cases heq : ctx' = ctx
    · subst heq
      simp [checkForValidEntry]
      omega
    · simp [heq, Function.update_of_ne (Ne.symm heq)]

theorem callbacks_gateway (cs : List (StatusCtx × Bool)) (g : Gateway) :
    (cs.foldl (fun g (ctx, success) =>
      g.setStatus ctx (checkForValidEntry success (g.status ctx))) g).trace = g.trace ∧
    (cs.foldl (fun g (ctx, success) =>
      g.setStatus ctx (checkForValidEntry success (g.status ctx))) g).outcomes = g.outcomes ∧
    (cs.foldl (fun g (ctx, success) =>
      g.setStatus ctx (checkForValidEntry success (g.status ctx))) g).status =
        completed g.status cs := by
  induction cs generalizing g with
  | nil => exact ⟨rfl, rfl, rfl⟩
  | cons c cs ih =>
    obtain ⟨ctx, success⟩ := c
    obtain ⟨htrace, hout, hstatus⟩ := ih (g.setStatus ctx (checkForValidEntry success (g.status ctx)))
    refine ⟨htrace.trans (trace_setStatus ..), hout.trans (outcomes_setStatus ..), ?_⟩
    rw [List.foldl_cons, hstatus, status_setStatus]
    rfl

/-- The queues after a processing call has completed these entries. -/
def processed (port : Port) (a : Outcome) (q : Queues Port StatusCtx) : Queues Port StatusCtx :=
  Function.update q port ((q port).complete (a.completions.map Prod.fst))

theorem fits_processed {port : Port} {a : Outcome} {q : Queues Port StatusCtx}
    (h : Fits depth q) : Fits depth (processed port a q) := by
  intro port'
  unfold processed
  by_cases heq : port' = port
  · rw [heq, Function.update_self]
    exact card_complete_le.trans (h port)
  · rw [Function.update_of_ne heq]
    exact h port'

/-- `process_entries`: the call may fail, or the check of the counters after it. -/
theorem leads_processEntries {K : Unit → Cond} {port : Port} {ctx : StatusCtx}
    (hJ : ∀ q st a, J q st → Fits depth q → a ∈ answers →
      ((a.completions.map Prod.fst : List StatusCtx) : Multiset StatusCtx) ≤ (q port).released →
      if a.error = none ∧ ¬ ((completed st a.completions ctx).failure = true ∨
          (completed st a.completions ctx).entriesInQueue = queueDepth) then
        K () (processed port a q) (completed st a.completions)
      else R (processed port a q) (completed st a.completions)) :
    Leads cfg safe answers R J (processEntries port ctx) K := by
  refine Leads.get_bind (fun g0 => Leads.bind
    (K := fun _ q st => if ¬ ((st ctx).failure = true ∨ (st ctx).entriesInQueue = queueDepth) then
      K () q st else R q st) ?_ (fun _ => Leads.get_bind (fun g1 => ?_)))
  · constructor
    intro g hg
    unfold entriesProcess
    refine ends_bind.mpr ((tracks_libCall (K := fun a q st =>
      if a.error = none ∧ ¬ ((completed st a.completions ctx).failure = true ∨
          (completed st a.completions ctx).entriesInQueue = queueDepth) then
        K () q (completed st a.completions)
      else R q (completed st a.completions)) _ hg ?_).mono (fun a t ht => ?_) (fun _ _ h => h.elim))
    · rintro q st a ⟨h, -⟩ hfits ha hallowed
      exact ⟨fun _ => fits_processed hfits, fun _ => hJ q st a h hfits ha hallowed⟩
    · obtain ⟨htrace, hout, hstatus⟩ := callbacks_gateway a.completions t
      rw [ends_bind, ends_modify]
      cases he : a.error with
      | none =>
        rw [ends_pure]
        refine ht.frame htrace hout (fun q hq => ?_)
        rw [hstatus]
        simpa only [he, true_and] using hq
      | some e =>
        rw [ends_throw]
        refine ht.frame htrace hout (fun q hq => ?_)
        rw [hstatus]
        simpa only [he, reduceCtorEq, false_and, ↓reduceIte] using hq
  · dsimp only
    split
    · rename_i hbad
      refine Leads.throw _ ?_
      rintro q st ⟨h, rfl⟩ -
      rwa [if_neg (not_not_intro hbad)] at h
    · rename_i hgood
      refine Leads.pure _ ?_
      rintro q st ⟨h, rfl⟩ -
      rwa [if_pos hgood] at h

theorem leads_processIf {K : Unit → Cond} {port : Port} {ctx : StatusCtx} {full : Prop}
    [Decidable full] (hfull : full → Leads cfg safe answers R J (processEntries port ctx) K)
    (hnot : ¬ full → ∀ q st, J q st → Fits depth q → K () q st) :
    Leads cfg safe answers R J (processIf full port ctx) K := by
  unfold processIf
  split
  · exact hfull ‹_›
  · exact Leads.pure _ (hnot ‹_›)

/-- A final loop keeps what one processing call keeps. -/
theorem leads_drain {port : Port} {ctx : StatusCtx}
    (h : Leads cfg safe answers R J (processEntries port ctx) (fun _ => J)) :
    Leads cfg safe answers R J (drain port ctx) (fun _ => J) := by
  have hloop : ∀ n, Leads cfg safe answers R J (drainLoop port ctx n) (fun _ => J) := by
    intro n
    induction n with
    | zero => exact h
    | succ n ih =>
      refine Leads.bind h (fun _ => Leads.get_bind (fun g => ?_))
      split
      · exact ih.pre (fun _ _ hJ _ => hJ.1)
      · exact Leads.pure _ (fun _ _ hJ _ => hJ.1)
  exact Leads.get_bind (fun g => (hloop _).pre (fun _ _ hJ _ => hJ.1))

theorem leads_createIpsecSharedObject {port : Port} {sa : Sa} {id : BitVec 32}
    (hR : ErrorsTo answers J R) :
    Leads cfg safe answers R J (createIpsecSharedObject port sa id) (fun _ => J) :=
  Leads.bind (leads_unseen (fun _ => rfl) hR) (fun _ => leads_unseen (fun _ => rfl) hR)

/-- The creation of an SA goes past the queues. -/
theorem leads_createIpsecSa {attrs : SaAttrs} {store : Sa → Gateway → Gateway}
    (hstore : ∀ sa g, (store sa g).trace = g.trace ∧ (store sa g).outcomes = g.outcomes ∧
      (store sa g).status = g.status) (hR : ErrorsTo answers J R) :
    Leads cfg safe answers R J (createIpsecSa cfg attrs store) (fun _ => J) := by
  unfold createIpsecSa
  refine Leads.bind (leads_unseen (fun _ => rfl) hR) (fun _ => ?_)
  refine Leads.bind (leads_unseen (fun _ => rfl) hR) (fun _ => ?_)
  constructor
  intro g hg
  refine ends_bind.mpr ((tracks_libCall (K := fun a q st => if a.error = none then J q st
    else R q st) .taskGetStatus hg (fun q st a h hfits ha _ => ⟨fun _ => hfits, fun _ => ?_⟩)).mono
    (fun a t ht => ?_) (fun _ _ h => h.elim))
  · split
    · exact h
    · exact hR a ha ‹_› q st h
  · obtain ⟨htrace, hout, hstatus⟩ := hstore a.sa t
    rw [ends_bind, ends_modify]
    cases he : a.error with
    | none =>
      rw [ends_pure]
      exact ht.frame htrace hout (fun q hq => by rw [hstatus]; rwa [if_pos he] at hq)
    | some e =>
      rw [ends_throw]
      exact ht.frame htrace hout
        (fun q hq => by rw [hstatus]; rwa [if_neg (he ▸ Option.some_ne_none e)] at hq)

/-- The counters with `n` entries more. -/
def enlarged (n : Int) (ctx : StatusCtx) (st : Counters) : Counters :=
  Function.update st ctx { st ctx with entriesInQueue := (st ctx).entriesInQueue + n }

theorem leads_enqueued {K : Unit → Cond} {n : Int} {ctx : StatusCtx}
    (h : ∀ q st, J q st → K () q (enlarged n ctx st)) :
    Leads cfg safe answers R J (enqueued n ctx) K := by
  refine Leads.modify (fun g => ⟨trace_setStatus .., outcomes_setStatus ..⟩) (fun q g hJ => ?_)
  rw [status_setStatus]
  exact h q g.status hJ

/-- A fresh gateway tracks any condition of empty queues. -/
theorem tracks_awaiting (h : J .empty g.status) :
    Tracks cfg safe answers J (awaiting answers g) :=
  ⟨fun _ _ _ => Nat.zero_le _, fun _ => rfl, fun _ => h⟩

end DocaApps.Proofs.BulkTracking
