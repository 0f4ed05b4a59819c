import Mathlib

namespace DocaApps.Lib.BitWindow

/-- Bit `i` of `bits` says whether the number `base + i` is in the set. Nothing
is said about numbers outside the window. -/
def Represents {w : Nat} (bits : BitVec w) (base : Nat) (mem : Nat → Prop) : Prop :=
  ∀ i < w, bits.getLsbD i = true ↔ mem (base + i)

variable {w base : Nat} {bits : BitVec w} {mem mem' : Nat → Prop}

theorem bit_getLsbD (d i : Nat) (hi : i < w) :
    (1#w <<< d).getLsbD i = true ↔ i = d := by
  rw [← BitVec.twoPow_eq, BitVec.getLsbD_twoPow]
  simp only [Bool.and_eq_true, decide_eq_true_eq]
  omega

theorem and_bit_ne_zero (d : Nat) (hd : d < w) :
    bits &&& (1#w <<< d) ≠ 0#w ↔ bits.getLsbD d = true := by
  rw [← BitVec.twoPow_eq, BitVec.and_twoPow]
  cases hb : bits.getLsbD d with
  | false => simp
  | true =>
    simp only [↓reduceIte, ne_eq, iff_true]
    intro h
    have := congrArg (fun x => BitVec.getLsbD x d) h
    simp [hd] at this

theorem Represents.empty (h : ∀ i < w, ¬ mem (base + i)) : Represents (0#w) base mem := by
  intro i hi
  simp [h i hi]

theorem Represents.congr (hr : Represents bits base mem)
    (h : ∀ i < w, mem (base + i) ↔ mem' (base + i)) : Represents bits base mem' :=
  fun i hi => (hr i hi).trans (h i hi)

/-- Setting the bit of a number in the window adds that number and no other. -/
theorem Represents.insert (hr : Represents bits base mem) (d : Nat) :
    Represents (bits ||| (1#w <<< d)) base (fun n => n = base + d ∨ mem n) := by
  intro i hi
  rw [BitVec.getLsbD_or, Bool.or_eq_true, hr i hi, bit_getLsbD d i hi, or_comm]
  simp

/-- Sliding the window up by `d` shifts the bitmap down by `d`; the numbers that
enter at the top are absent, so the set must not hold them. -/
theorem Represents.slide (hr : Represents bits base mem) (d : Nat)
    (hnew : ∀ i < w, w ≤ d + i → ¬ mem (base + d + i)) :
    Represents (bits >>> d) (base + d) mem := by
  intro i hi
  rw [BitVec.getLsbD_ushiftRight]
  by_cases hd : d + i < w
  · rw [hr (d + i) hd, Nat.add_assoc]
  · rw [BitVec.getLsbD_of_ge _ _ (Nat.le_of_not_lt hd)]
    simp [hnew i hi (Nat.le_of_not_lt hd)]

end DocaApps.Lib.BitWindow
