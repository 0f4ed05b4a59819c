import Mathlib

namespace DocaApps.Lib.CountedLoop

variable {σ ε : Type} {w bound fuel : Nat} {step : BitVec w → σ → Except ε σ} {s s' : σ}

/-- What a call that may still be running has come to. -/
abbrev Outcome (ε α : Type) := Option (Except ε α)

def Outcome.andThen {α β : Type} (x : Outcome ε α) (f : α → Outcome ε β) : Outcome ε β :=
  match x with
  | none => none
  | some (.error e) => some (.error e)
  | some (.ok a) => f a

theorem andThen_eq_ok {α β : Type} {x : Outcome ε α} {f : α → Outcome ε β} {b : β} :
    x.andThen f = some (.ok b) ↔ ∃ a, x = some (.ok a) ∧ f a = some (.ok b) := by
  rcases x with _ | ⟨e | a⟩ <;> simp [Outcome.andThen]

/-- A loop that counts up to a bound in a counter of `w` bits and leaves at the first
error. It gives `none` while it is running. -/
def loop (step : BitVec w → σ → Except ε σ) (bound : Nat) :
    Nat → BitVec w → σ → Outcome ε σ
  | 0, _, _ => none
  | fuel + 1, i, s =>
    if i.toNat < bound then
      match step i s with
      | .error e => some (.error e)
      | .ok s => loop step bound fuel (i + 1) s
    else some (.ok s)

section Reached

variable {Inv : Nat → σ → Prop} {i : Nat}

theorem loop_next (hbound : bound < 2 ^ w) (hlt : i < bound)
    (hok : step (BitVec.ofNat w i) s = .ok s') :
    loop step bound (fuel + 1) (BitVec.ofNat w i) s =
      loop step bound fuel (BitVec.ofNat w (i + 1)) s' := by
  have hnat : (BitVec.ofNat w i).toNat = i :=
    (BitVec.toNat_ofNat i w).trans (Nat.mod_eq_of_lt (by omega))
  have hnext : BitVec.ofNat w i + 1 = BitVec.ofNat w (i + 1) := (BitVec.ofNat_add i 1).symm
  rw [loop, hnat, if_pos hlt, hok, hnext]

theorem loop_end (hbound : bound < 2 ^ w) :
    loop step bound (fuel + 1) (BitVec.ofNat w bound) s = some (.ok s) := by
  have hnat : (BitVec.ofNat w bound).toNat = bound :=
    (BitVec.toNat_ofNat bound w).trans (Nat.mod_eq_of_lt hbound)
  rw [loop, hnat, if_neg (Nat.lt_irrefl bound)]

/-- When no step fails, what the loop gives satisfies the invariant at the bound. -/
theorem loop_inv {r : Except ε σ} (hbound : bound < 2 ^ w)
    (hstep : ∀ i s, i < bound → Inv i s →
      ∃ s', step (BitVec.ofNat w i) s = .ok s' ∧ Inv (i + 1) s')
    (hi : i ≤ bound) (hs : Inv i s) (hloop : loop step bound fuel (BitVec.ofNat w i) s = some r) :
    ∃ s', r = .ok s' ∧ Inv bound s' := by
  induction fuel generalizing i s with
  | zero => contradiction
  | succ fuel ih =>
    rcases hi.lt_or_eq with hlt | rfl
    · obtain ⟨s₁, hok, hinv⟩ := hstep i s hlt hs
      rw [loop_next hbound hlt hok] at hloop
      exact ih hlt hinv hloop
    · rw [loop_end hbound] at hloop
      exact ⟨s, (Option.some.inj hloop).symm, hs⟩

/-- A bound that the counter can hold is reached. -/
theorem loop_finishes (hbound : bound < 2 ^ w)
    (hstep : ∀ i s, i < bound → Inv i s →
      ∃ s', step (BitVec.ofNat w i) s = .ok s' ∧ Inv (i + 1) s')
    (hi : i ≤ bound) (hs : Inv i s) (hfuel : bound - i < fuel) :
    ∃ r, loop step bound fuel (BitVec.ofNat w i) s = some r := by
  induction fuel generalizing i s with
  | zero => contradiction
  | succ fuel ih =>
    rcases hi.lt_or_eq with hlt | rfl
    · obtain ⟨s₁, hok, hinv⟩ := hstep i s hlt hs
      rw [loop_next hbound hlt hok]
      exact ih hlt hinv (by omega)
    · exact ⟨.ok s, loop_end hbound⟩

end Reached

/-- A loop on a state that shows another one shows the loop on that. -/
theorem loop_map {τ : Type} {step' : BitVec w → τ → Except ε τ} {f : τ → σ}
    (h : ∀ i t, (step' i t).map f = step i (f t)) (bound fuel : Nat) (i : BitVec w) (t : τ) :
    (loop step' bound fuel i t).map (Except.map f) = loop step bound fuel i (f t) := by
  induction fuel generalizing i t with
  | zero => rfl
  | succ fuel ih =>
    unfold loop
    split
    · rw [← h]
      cases step' i t with
      | error e => rfl
      | ok t' => exact ih (i + 1) t'
    · rfl

/-- A bound beyond the counter is never reached. -/
theorem loop_never_ok (hbound : 2 ^ w ≤ bound) (i : BitVec w) (s : σ) :
    loop step bound fuel i s ≠ some (.ok s') := by
  induction fuel generalizing i s with
  | zero => exact fun h => nomatch h
  | succ fuel ih =>
    unfold loop
    rw [if_pos (by have := i.isLt; omega)]
    cases step i s with
    | error e => exact fun h => nomatch h
    | ok s₁ => exact ih (i + 1) s₁

end DocaApps.Lib.CountedLoop
