import Mathlib

namespace DocaApps.Lib.Splitting

variable {α β : Type} {step : Nat → α → β → Option β} {left right : β → List Nat}
  {i : Nat} {as : List α} {b b' : β}

/-- The elements of a list taken one by one, each with its number. -/
def forEach (step : Nat → α → β → Option β) : Nat → List α → β → Option β
  | _, [], b => some b
  | i, a :: as, b => (step i a b).bind (forEach step (i + 1) as)

/-- A step puts the number it is given into exactly one of two lists. -/
structure Splits (step : Nat → α → β → Option β) (left right : β → List Nat) : Prop where
  one : ∀ {i a b b'}, step i a b = some b' →
    left b' = left b ++ [i] ∧ right b' = right b ∨ left b' = left b ∧ right b' = right b ++ [i]

/-- All numbers end up in one of the two lists, and in one only. -/
theorem Splits.forEach_perm (h : Splits step left right) (hrun : forEach step i as b = some b') :
    (left b' ++ right b').Perm (left b ++ right b ++ List.range' i as.length) := by
  induction as generalizing i b with
  | nil =>
    cases hrun
    simp
  | cons a as ih =>
    obtain ⟨b₁, hstep, hrest⟩ := Option.bind_eq_some_iff.mp hrun
    have hrange : List.range' i (a :: as).length = i :: List.range' (i + 1) as.length := by
      rw [List.length_cons, List.range'_succ]
    rw [hrange]
    refine (ih hrest).trans ?_
    rcases h.one hstep with ⟨hleft, hright⟩ | ⟨hleft, hright⟩
    · rw [hleft, hright]
      have hmove : (left b ++ [i] ++ right b).Perm (left b ++ right b ++ [i]) := by
        rw [List.append_assoc, List.append_assoc]
        exact List.perm_append_comm.append_left _
      refine (hmove.append_right _).trans ?_
      rw [List.append_assoc]
      rfl
    · rw [hleft, hright, ← List.append_assoc, List.append_assoc _ [i]]
      rfl

end DocaApps.Lib.Splitting
