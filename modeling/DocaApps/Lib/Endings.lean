import DocaApps.Lib.Command

namespace DocaApps.Lib.Endings

variable {ε σ α β δ : Type}

/-- From `s` the command ends in `q` with its value, or in `r` with its error. -/
structure Ends (c : EStateM ε σ α) (q : α → σ → Prop) (r : ε → σ → Prop) (s : σ) : Prop where
  ok : ∀ {a t}, c s = .ok a t → q a t
  error : ∀ {e t}, c s = .error e t → r e t

/-- From `s` the command ends in `p`, whether it succeeds or not. -/
def Settles (c : EStateM ε σ α) (p : σ → Prop) (s : σ) : Prop :=
  Ends c (fun _ => p) (fun _ => p) s

/-- A command that leaves a part of the state alone, whether it succeeds or not. -/
structure Steady (part : σ → δ) (c : EStateM ε σ α) : Prop where
  settles : ∀ s, Settles c (fun t => part t = part s) s

/-- A command that keeps an invariant, whether it succeeds or not. -/
structure Maintains (inv : σ → Prop) (c : EStateM ε σ α) : Prop where
  settles : ∀ s, inv s → Settles c inv s

/-- A command that only appends to a log, at most `n` entries. -/
structure Grows (log : σ → List δ) (n : Nat) (c : EStateM ε σ α) : Prop where
  settles : ∀ s, Settles c (fun t => ∃ new, log t = log s ++ new ∧ new.length ≤ n) s

variable {c d : EStateM ε σ α} {f : α → EStateM ε σ β} {q q' : α → σ → Prop}
  {r r' : ε → σ → Prop} {p : σ → Prop} {part : σ → δ} {s t : σ}

/-- Only the ends that can be reached matter. -/
theorem Ends.mono (h : Ends c q r s) (hq : ∀ a t, q a t → q' a t) (hr : ∀ e t, r e t → r' e t) :
    Ends c q' r' s := ⟨fun hc => hq _ _ (h.ok hc), fun hc => hr _ _ (h.error hc)⟩

theorem Ends.and (h : Ends c q r s) (h' : Ends c q' r' s) :
    Ends c (fun a t => q a t ∧ q' a t) (fun e t => r e t ∧ r' e t) s :=
  ⟨fun hc => ⟨h.ok hc, h'.ok hc⟩, fun hc => ⟨h.error hc, h'.error hc⟩⟩

theorem ends_of_ok {a : α} (hc : c s = .ok a t) : Ends c q r s ↔ q a t := by
  constructor
  · intro h
    exact h.ok hc
  · intro h
    constructor
    · intro a' t' hc'
      rw [hc] at hc'
      cases hc'
      exact h
    · intro e t' hc'
      rw [hc] at hc'
      cases hc'

theorem ends_of_error {e : ε} (hc : c s = .error e t) : Ends c q r s ↔ r e t := by
  constructor
  · intro h
    exact h.error hc
  · intro h
    constructor
    · intro a t' hc'
      rw [hc] at hc'
      cases hc'
    · intro e' t' hc'
      rw [hc] at hc'
      cases hc'
      exact h

/-- A command that cannot fail from here. -/
theorem Ends.succeeds (h : Ends c q (fun _ _ => False) s) : ∃ a t, c s = .ok a t ∧ q a t := by
  cases hc : c s with
  | ok a t => exact ⟨a, t, rfl, h.ok hc⟩
  | error e t => exact (h.error hc).elim

@[simp] theorem ends_pure (a : α) : Ends (pure a : EStateM ε σ α) q r s ↔ q a s :=
  ends_of_ok rfl

@[simp] theorem ends_throw (e : ε) : Ends (throw e : EStateM ε σ α) q r s ↔ r e s :=
  ends_of_error rfl

@[simp] theorem ends_get {q : σ → σ → Prop} : Ends (get : EStateM ε σ σ) q r s ↔ q s s :=
  ends_of_ok rfl

@[simp] theorem ends_modify {g : σ → σ} {q : PUnit → σ → Prop} :
    Ends (modify g : EStateM ε σ PUnit) q r s ↔ q ⟨⟩ (g s) := ends_of_ok rfl

@[simp] theorem ends_bind {q : β → σ → Prop} :
    Ends (c >>= f) q r s ↔ Ends c (fun a t => Ends (f a) q r t) r s := by
  cases hc : c s with
  | ok a t =>
    rw [ends_of_ok hc]
    have hrun : (c >>= f) s = f a t := Command.run_bind hc
    exact ⟨fun h => ⟨fun h' => h.ok (hrun.trans h'), fun h' => h.error (hrun.trans h')⟩,
      fun h => ⟨fun h' => h.ok (hrun.symm.trans h'), fun h' => h.error (hrun.symm.trans h')⟩⟩
  | error e t => rw [ends_of_error hc, ends_of_error (Command.run_bind_error hc)]

@[simp] theorem ends_ite {b : Prop} [Decidable b] :
    Ends (if b then c else d) q r s ↔ if b then Ends c q r s else Ends d q r s := by
  split <;> exact Iff.rfl

/-- A command whose answer is only looked at: it never fails. -/
theorem Ends.succeeded {c : EStateM ε σ Unit} {p : Bool → σ → Prop} {r : ε → σ → Prop}
    (h : Ends c (fun _ => p true) (fun _ => p false) s) : Ends (Command.succeeded c) p r s := by
  cases hc : c s with
  | ok u t => exact (ends_of_ok (Command.succeeded_ok hc)).mpr (h.ok hc)
  | error e t => exact (ends_of_ok (Command.succeeded_error hc)).mpr (h.error hc)

/-- A sequence, by what its first part is known to reach. -/
theorem Ends.bind {q : β → σ → Prop} {m : α → σ → Prop} (hc : Ends c m r s)
    (hf : ∀ a t, m a t → Ends (f a) q r t) : Ends (c >>= f) q r s :=
  ends_bind.mpr (hc.mono hf (fun _ _ h => h))

theorem Settles.and {p' : σ → Prop} (h : Settles c p s) (h' : Settles c p' s) :
    Settles c (fun t => p t ∧ p' t) s := Ends.and h h'

/-- A sequence whose first part may be the last one that runs. -/
theorem Settles.bind {p' : σ → Prop} (h : Settles c p' s) (hf : ∀ a t, p' t → Settles (f a) p t)
    (hp : ∀ t, p' t → p t) : Settles (c >>= f) p s :=
  Ends.bind (Ends.mono h (fun _ _ ht => ht) (fun _ t ht => hp t ht)) hf

/-- Every command ends somewhere. -/
theorem Settles.reached (h : Settles c p s) : ∃ t, p t := by
  cases hc : c s with
  | ok a t => exact ⟨t, Ends.ok h hc⟩
  | error e t => exact ⟨t, Ends.error h hc⟩

theorem Steady.run {a : α} (h : Steady part c) (hc : c s = .ok a t) : part t = part s :=
  Ends.ok (h.settles s) hc

/-- What follows a steady command starts from a state with the same part. -/
theorem Steady.andThen {q : β → σ → Prop} (hc : Steady part c)
    (hf : ∀ a t, part t = part s → Ends (f a) q r t) (hr : ∀ e t, part t = part s → r e t) :
    Ends (c >>= f) q r s := ends_bind.mpr ((hc.settles s).mono hf hr)

theorem Steady.pure (a : α) : Steady part (pure a : EStateM ε σ α) :=
  ⟨fun s => (ends_pure (s := s) a).mpr rfl⟩

theorem Steady.throw (e : ε) : Steady part (throw e : EStateM ε σ α) :=
  ⟨fun s => (ends_throw (s := s) e).mpr rfl⟩

theorem Steady.get : Steady part (get : EStateM ε σ σ) :=
  ⟨fun _ => ends_get.mpr rfl⟩

theorem Steady.modify {g : σ → σ} (hg : ∀ s, part (g s) = part s) :
    Steady part (modify g : EStateM ε σ PUnit) :=
  ⟨fun s => ends_modify.mpr (hg s)⟩

theorem Steady.bind (hc : Steady part c) (hf : ∀ a, Steady part (f a)) :
    Steady part (c >>= f) := by
  constructor
  intro s
  refine ends_bind.mpr ((hc.settles s).mono (fun a t ht => ?_) (fun _ _ h => h))
  exact ((hf a).settles t).mono (fun _ _ h => h.trans ht) (fun _ _ h => h.trans ht)

theorem Steady.ite {b : Prop} [Decidable b] (hc : Steady part c) (hd : Steady part d) :
    Steady part (if b then c else d) := by
  split
  · exact hc
  · exact hd

variable {inv : σ → Prop}

/-- A part is left alone when each of its values is. -/
theorem Steady.of_maintains (h : ∀ v, Maintains (fun s => part s = v) c) : Steady part c :=
  ⟨fun s => (h (part s)).settles s rfl⟩

theorem Maintains.pure (a : α) : Maintains inv (pure a : EStateM ε σ α) :=
  ⟨fun _ h => (ends_pure a).mpr h⟩

theorem Maintains.throw (e : ε) : Maintains inv (throw e : EStateM ε σ α) :=
  ⟨fun _ h => (ends_throw e).mpr h⟩

theorem Maintains.get : Maintains inv (get : EStateM ε σ σ) := ⟨fun _ h => ends_get.mpr h⟩

theorem Maintains.modify {g : σ → σ} (hg : ∀ s, inv s → inv (g s)) :
    Maintains inv (modify g : EStateM ε σ PUnit) := ⟨fun s h => ends_modify.mpr (hg s h)⟩

theorem Maintains.bind (hc : Maintains inv c) (hf : ∀ a, Maintains inv (f a)) :
    Maintains inv (c >>= f) :=
  ⟨fun s h => Ends.bind (hc.settles s h) (fun a t ht => (hf a).settles t ht)⟩

/-- What follows a command that keeps an invariant starts from it. -/
theorem Maintains.andThen {f : α → EStateM ε σ β} (hc : Maintains inv c) (h : inv s)
    (hf : ∀ a t, inv t → Settles (f a) p t) (hp : ∀ t, inv t → p t) : Settles (c >>= f) p s :=
  (hc.settles s h).bind hf hp

theorem Maintains.ite {b : Prop} [Decidable b] (hc : Maintains inv c) (hd : Maintains inv d) :
    Maintains inv (if b then c else d) := by
  split
  · exact hc
  · exact hd

theorem Maintains.handled {handle : ε → EStateM ε σ α} (hc : Maintains inv c)
    (hh : ∀ e, Maintains inv (handle e)) : Maintains inv (tryCatch c handle) := by
  constructor
  intro s h
  cases hrun : c s with
  | ok a t => exact (ends_of_ok (Command.tryCatch_ok hrun)).mpr ((hc.settles s h).ok hrun)
  | error e t =>
    have ht := (hh e).settles t ((hc.settles s h).error hrun)
    have hcatch : tryCatch c handle s = handle e t := Command.tryCatch_error hrun
    exact ⟨fun ha => ht.ok (hcatch.symm.trans ha), fun he => ht.error (hcatch.symm.trans he)⟩

theorem Maintains.succeeded {c : EStateM ε σ Unit} (hc : Maintains inv c) :
    Maintains inv (Command.succeeded c) :=
  (hc.bind fun _ => .pure true).handled fun _ => .pure false

theorem Maintains.forM {κ : Type} {body : κ → EStateM ε σ PUnit} {ks : List κ}
    (h : ∀ k, Maintains inv (body k)) : Maintains inv (ks.forM body) := by
  induction ks with
  | nil => exact ⟨fun _ hs => (ends_pure _).mpr hs⟩
  | cons k ks ih => exact (h k).bind fun _ => ih

variable {log : σ → List δ} {k m n : Nat}

theorem Grows.mono (hc : Grows log m c) (h : m ≤ n) : Grows log n c := by
  constructor
  intro s
  refine (hc.settles s).mono (fun _ t ht => ?_) (fun _ t ht => ?_)
  all_goals
    obtain ⟨new, hnew, hlen⟩ := ht
    exact ⟨new, hnew, hlen.trans h⟩

/-- A command that leaves the log alone. -/
theorem Steady.grows (hc : Steady log c) : Grows log n c := by
  constructor
  intro s
  refine (hc.settles s).mono (fun _ t ht => ?_) (fun _ t ht => ?_)
  all_goals exact ⟨[], by rw [ht, List.append_nil], Nat.zero_le _⟩

theorem Grows.bind (hc : Grows log m c) (hf : ∀ a, Grows log n (f a)) (h : m + n ≤ k) :
    Grows log k (c >>= f) := by
  constructor
  intro s
  refine ends_bind.mpr ((hc.settles s).mono (fun a t ht => ?_) (fun _ t ht => ?_))
  · obtain ⟨new, hnew, hlen⟩ := ht
    refine ((hf a).settles t).mono (fun _ u hu => ?_) (fun _ u hu => ?_)
    all_goals
      obtain ⟨new', hnew', hlen'⟩ := hu
      refine ⟨new ++ new', ?_, ?_⟩
      · rw [hnew', hnew, List.append_assoc]
      · rw [List.length_append]
        omega
  · obtain ⟨new, hnew, hlen⟩ := ht
    exact ⟨new, hnew, by omega⟩

theorem Steady.grows_bind (hc : Steady log c) (hf : ∀ a, Grows log n (f a)) :
    Grows log n (c >>= f) := Grows.bind hc.grows hf (Nat.zero_add n).le

theorem Grows.get_bind {f : σ → EStateM ε σ β} (hf : ∀ s, Grows log n (f s)) :
    Grows log n (get >>= f) := Steady.get.grows_bind hf

end DocaApps.Lib.Endings
