import Mathlib

namespace DocaApps.Lib.Runs

variable {σ ω : Type} {step : σ → ω → σ} {ok : σ → ω → Prop} {s : σ} {ops : List ω}

/-- Taking the steps of a list one after the other. -/
def run (step : σ → ω → σ) (s : σ) (ops : List ω) : σ := ops.foldl step s

/-- Every step of the run meets the condition in the state it starts from. -/
def Along (step : σ → ω → σ) (ok : σ → ω → Prop) : σ → List ω → Prop
  | _, [] => True
  | s, op :: ops => ok s op ∧ Along step ok (step s op) ops

instance Along.decidable [∀ s op, Decidable (ok s op)] :
    ∀ (s : σ) (ops : List ω), Decidable (Along step ok s ops)
  | _, [] => inferInstanceAs (Decidable True)
  | s, op :: ops =>
    have := Along.decidable (step s op) ops
    inferInstanceAs (Decidable (ok s op ∧ Along step ok (step s op) ops))

/-- A run whose steps meet two conditions meets what follows from them. -/
theorem Along.and_imp {ok' both : σ → ω → Prop} (h : Along step ok s ops)
    (h' : Along step ok' s ops) (himp : ∀ s op, ok s op → ok' s op → both s op) :
    Along step both s ops := by
  induction ops generalizing s with
  | nil => trivial
  | cons op ops ih => exact ⟨himp s op h.1 h'.1, ih h.2 h'.2⟩

/-- What every step that meets the condition preserves holds after every run of such steps. -/
theorem run_invariant {Inv : σ → Prop} (hstep : ∀ s op, Inv s → ok s op → Inv (step s op))
    (hs : Inv s) (hops : Along step ok s ops) : Inv (run step s ops) := by
  induction ops generalizing s with
  | nil => exact hs
  | cons op ops ih => exact ih (hstep s op hs hops.1) hops.2

/-- Under an invariant that the steps keep, a run that meets one condition meets another that
follows from it in the states of the invariant. -/
theorem Along.under {Inv : σ → Prop} {ok' : σ → ω → Prop}
    (hstep : ∀ s op, Inv s → ok s op → Inv (step s op))
    (himp : ∀ s op, Inv s → ok s op → ok' s op) (hs : Inv s) (h : Along step ok s ops) :
    Along step ok' s ops := by
  induction ops generalizing s with
  | nil => trivial
  | cons op ops ih => exact ⟨himp s op hs h.1, ih (hstep s op hs h.1) h.2⟩

/-- What every step preserves holds after every run. -/
theorem run_preserves {Inv : σ → Prop} (hstep : ∀ s op, Inv s → Inv (step s op)) (hs : Inv s)
    (ops : List ω) : Inv (run step s ops) := by
  induction ops generalizing s with
  | nil => exact hs
  | cons op ops ih => exact ih (hstep s op hs)

/-- A condition on the steps alone, met by every one of them, is met along the run. -/
theorem Along.of_forall {allowed : ω → Prop} (h : ∀ op ∈ ops, allowed op) :
    Along step (fun _ op => allowed op) s ops := by
  induction ops generalizing s with
  | nil => trivial
  | cons op ops ih =>
    exact ⟨h op List.mem_cons_self, ih fun op' hop => h op' (List.mem_cons_of_mem op hop)⟩

/-- Where the steps that keep a state good are the ones that meet a condition, every state of a
run is good exactly when every step of it meets the condition. -/
theorem good_iff_along {Inv Good : σ → Prop} {allowed : σ → ω → Prop}
    (hstep : ∀ s op, Inv s → allowed s op → Good (step s op) → Inv (step s op))
    (hgood : ∀ s op, Inv s → allowed s op → Good s → (Good (step s op) ↔ ok s op))
    (hs : Inv s) (hg : Good s) (hall : Along step allowed s ops) :
    (∀ k, Good (run step s (ops.take k))) ↔ Along step ok s ops := by
  induction ops generalizing s with
  | nil => simpa [Along, run] using hg
  | cons op ops ih =>
    obtain ⟨hop, hops⟩ := hall
    have hfirst := hgood s op hs hop hg
    constructor
    · intro h
      have hnext : Good (step s op) := by simpa [run] using h 1
      refine ⟨hfirst.mp hnext, (ih (hstep s op hs hop hnext) hnext hops).mp fun k => ?_⟩
      simpa [run] using h (k + 1)
    · intro h k
      have hnext := hfirst.mpr h.1
      cases k with
      | zero => exact hg
      | succ k =>
        have hrest := (ih (hstep s op hs hop hnext) hnext hops).mpr h.2 k
        simpa [run] using hrest

end DocaApps.Lib.Runs
