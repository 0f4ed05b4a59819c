import Mathlib

namespace DocaApps.Lib.Command

variable {ε σ α β γ δ : Type}

/-- A sequence succeeds when both parts do, the second from where the first ended. -/
theorem bind_eq_ok {x : EStateM ε σ α} {f : α → EStateM ε σ β} {s t : σ} {b : β} :
    (x >>= f) s = .ok b t ↔ ∃ a s', x s = .ok a s' ∧ f a s' = .ok b t := by
  constructor
  · intro h
    simp only [bind, EStateM.bind] at h
    cases hx : x s with
    | ok a s' => exact ⟨a, s', rfl, by simpa only [hx] using h⟩
    | error e s' =>
      rw [hx] at h
      cases h
  · rintro ⟨a, s', hx, hf⟩
    simp only [bind, EStateM.bind, hx, hf]

/-- Running the first command of a sequence. -/
theorem run_bind {x : EStateM ε σ α} {f : α → EStateM ε σ β} {s t : σ} {a : α}
    (h : x s = .ok a t) : (x >>= f) s = f a t := by
  simp only [bind, EStateM.bind, h]

/-- A sequence that begins by looking at the state. -/
theorem run_get {f : σ → EStateM ε σ α} {s : σ} : (get >>= f) s = f s s := rfl

/-- A failed first command ends the sequence. -/
theorem run_bind_error {x : EStateM ε σ α} {f : α → EStateM ε σ β} {s t : σ} {e : ε}
    (h : x s = .error e t) : (x >>= f) s = .error e t := by
  simp only [bind, EStateM.bind, h]

theorem tryCatch_ok {x : EStateM ε σ α} {handle : ε → EStateM ε σ α} {s t : σ} {a : α}
    (h : x s = .ok a t) : tryCatch x handle s = .ok a t := by
  simp only [tryCatch, tryCatchThe, MonadExceptOf.tryCatch, EStateM.tryCatch, h]

theorem tryCatch_error {x : EStateM ε σ α} {handle : ε → EStateM ε σ α} {s t : σ} {e : ε}
    (h : x s = .error e t) : tryCatch x handle s = handle e t := by
  simp only [tryCatch, tryCatchThe, MonadExceptOf.tryCatch, EStateM.tryCatch, h]
  rfl

/-- Whether a command succeeds, for a caller that goes on with the answer. -/
def succeeded (x : EStateM ε σ Unit) : EStateM ε σ Bool :=
  tryCatch (do x; return true) fun _ => return false

theorem succeeded_ok {x : EStateM ε σ Unit} {s t : σ} (h : x s = .ok () t) :
    succeeded x s = .ok true t := tryCatch_ok (run_bind h)

theorem succeeded_error {x : EStateM ε σ Unit} {s t : σ} {e : ε} (h : x s = .error e t) :
    succeeded x s = .ok false t := tryCatch_error (run_bind_error h)

/-- A command that only extends a log kept in the state, by these entries whenever
it succeeds. -/
structure Logs (log : σ → List γ) (c : EStateM ε σ α) (es : List γ) : Prop where
  run : ∀ {s a t}, c s = .ok a t → log t = log s ++ es

/-- A command that leaves a part of the state alone whenever it succeeds. -/
structure Keeps (part : σ → δ) (c : EStateM ε σ α) : Prop where
  run : ∀ {s a t}, c s = .ok a t → part t = part s

/-- A command that can only succeed with this value. -/
structure Returns (c : EStateM ε σ α) (v : α) : Prop where
  run : ∀ {s a t}, c s = .ok a t → a = v

variable {log : σ → List γ} {part : σ → δ} {es fs : List γ}

theorem Logs.pure (a : α) : Logs log (pure a : EStateM ε σ α) [] := by
  constructor
  intro s a t h
  cases h
  simp

theorem Logs.throw (e : ε) : Logs log (throw e : EStateM ε σ α) es := by
  constructor
  intro s a t h
  cases h

theorem Logs.bind {x : EStateM ε σ α} {f : α → EStateM ε σ β} (hx : Logs log x es)
    (hf : ∀ a, Logs log (f a) fs) : Logs log (x >>= f) (es ++ fs) := by
  constructor
  intro s b t h
  obtain ⟨a, s', hs, ht⟩ := bind_eq_ok.mp h
  rw [(hf a).run ht, hx.run hs, List.append_assoc]

/-- The value of the first step may decide what the second one logs. -/
theorem Logs.bind_returns {x : EStateM ε σ α} {f : α → EStateM ε σ β} {v : α}
    (hx : Logs log x es) (hv : Returns x v) (hf : Logs log (f v) fs) :
    Logs log (x >>= f) (es ++ fs) := by
  constructor
  intro s b t h
  obtain ⟨a, s', hs, ht⟩ := bind_eq_ok.mp h
  obtain rfl := hv.run hs
  rw [hf.run ht, hx.run hs, List.append_assoc]

/-- A first step that logs nothing, such as a read of the state. -/
theorem Logs.skip {x : EStateM ε σ α} {f : α → EStateM ε σ β} (hx : Logs log x [])
    (hf : ∀ a, Logs log (f a) es) : Logs log (x >>= f) es := Logs.bind hx hf

theorem Logs.ite {p : Prop} [Decidable p] {c d : EStateM ε σ α} (hc : p → Logs log c es)
    (hd : ¬ p → Logs log d es) : Logs log (if p then c else d) es := by
  split
  · exact hc ‹_›
  · exact hd ‹_›

theorem Logs.get : Logs log (get : EStateM ε σ σ) [] := by
  constructor
  intro s a t h
  cases h
  simp

theorem Logs.modify {f : σ → σ} (hf : ∀ s, log (f s) = log s) :
    Logs log (modify f : EStateM ε σ PUnit) [] := by
  constructor
  intro s a t h
  cases h
  simp [hf]

theorem Keeps.bind {x : EStateM ε σ α} {f : α → EStateM ε σ β} (hx : Keeps part x)
    (hf : ∀ a, Keeps part (f a)) : Keeps part (x >>= f) := by
  constructor
  intro s b t h
  obtain ⟨a, s', hs, ht⟩ := bind_eq_ok.mp h
  rw [(hf a).run ht, hx.run hs]

theorem Keeps.pure (a : α) : Keeps part (pure a : EStateM ε σ α) := by
  constructor
  intro s a t h
  cases h
  rfl

theorem Keeps.throw (e : ε) : Keeps part (throw e : EStateM ε σ α) := by
  constructor
  intro s a t h
  cases h

theorem Keeps.ite {p : Prop} [Decidable p] {c d : EStateM ε σ α} (hc : Keeps part c)
    (hd : Keeps part d) : Keeps part (if p then c else d) := by
  split
  · exact hc
  · exact hd

theorem Keeps.get : Keeps part (get : EStateM ε σ σ) := by
  constructor
  intro s a t h
  cases h
  rfl

theorem Keeps.modify {f : σ → σ} (hf : ∀ s, part (f s) = part s) :
    Keeps part (modify f : EStateM ε σ PUnit) := by
  constructor
  intro s a t h
  cases h
  exact hf s

end DocaApps.Lib.Command
