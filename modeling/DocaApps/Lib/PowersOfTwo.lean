import Mathlib

namespace DocaApps.Lib.PowersOfTwo

variable {w x y : Nat}

/-- A bit of `y` is set when one of `x` is set among the `w` from its place on. -/
def Smears (w x y : Nat) : Prop :=
  ∀ i, y.testBit i = true ↔ ∃ j < w, x.testBit (i + j) = true

theorem Smears.one (x : Nat) : Smears 1 x x := by
  intro i
  simp

/-- Or-ing a number with itself, moved by as many places as it is smeared, smears it twice as
far. -/
theorem Smears.double (h : Smears w x y) : Smears (2 * w) x (y ||| y >>> w) := by
  intro i
  rw [Nat.testBit_or, Nat.testBit_shiftRight, Bool.or_eq_true, h i, h (w + i)]
  constructor
  · rintro (⟨j, hj, hbit⟩ | ⟨j, hj, hbit⟩)
    · exact ⟨j, by omega, hbit⟩
    · have hplace : i + (w + j) = w + i + j := by omega
      exact ⟨w + j, by omega, by rwa [hplace]⟩
  · rintro ⟨j, hj, hbit⟩
    by_cases hlow : j < w
    · exact .inl ⟨j, hlow, hbit⟩
    · have hplace : w + i + (j - w) = i + j := by omega
      exact .inr ⟨j - w, by omega, by rwa [hplace]⟩

/-- Smeared over its whole width, a number has all bits set up to its highest one. -/
theorem Smears.full (h : Smears w x y) (hx : x ≠ 0) (hw : x < 2 ^ w) :
    y + 1 = 2 ^ (x.log2 + 1) := by
  have hlog : x.log2 < w := (Nat.log2_lt hx).mpr hw
  have hy : y = 2 ^ (x.log2 + 1) - 1 := by
    apply Nat.eq_of_testBit_eq
    intro i
    rw [Nat.testBit_two_pow_sub_one, Bool.eq_iff_iff, h i, decide_eq_true_eq]
    constructor
    · rintro ⟨j, -, hbit⟩
      have hle := Nat.ge_two_pow_of_testBit hbit
      have hij : i + j ≤ x.log2 := (Nat.le_log2 hx).mpr hle
      omega
    · intro hi
      have hplace : i + (x.log2 - i) = x.log2 := by omega
      exact ⟨x.log2 - i, by omega, by rw [hplace]; exact Nat.testBit_log2 hx⟩
  have hpos := Nat.two_pow_pos (x.log2 + 1)
  omega

end DocaApps.Lib.PowersOfTwo
