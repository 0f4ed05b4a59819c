import Mathlib

namespace DocaApps.Lib.Segments

variable {α : Type} {k n i : Nat} {as s : List α}

/-- So many segments, of `k` elements as long as there are any. -/
def segments (k : Nat) : Nat → List α → List (List α)
  | 0, _ => []
  | n + 1, as => as.take k :: segments k n (as.drop k)

@[simp] theorem length_segments : (segments k n as).length = n := by
  induction n generalizing as with
  | zero => rfl
  | succ n ih => simp [segments, ih]

theorem flatten_segments : (segments k n as).flatten = as.take (k * n) := by
  induction n generalizing as with
  | zero => simp [segments]
  | succ n ih =>
    rw [segments, List.flatten_cons, ih, ← List.take_add]
    congr 1
    ring

/-- Enough segments give the whole list back. -/
theorem flatten_segments_of_le (h : as.length ≤ k * n) : (segments k n as).flatten = as := by
  rw [flatten_segments, List.take_of_length_le h]

theorem getElem_segments (h : i < (segments k n as).length) :
    (segments k n as)[i] = (as.drop (k * i)).take k := by
  induction n generalizing as i with
  | zero => simp [segments] at h
  | succ n ih =>
    cases i with
    | zero => simp [segments]
    | succ i =>
      have hrest : i < (segments k n (as.drop k)).length := by simpa using h
      simp only [segments, List.getElem_cons_succ, ih hrest, List.drop_drop]
      congr 2
      ring

theorem length_getElem_segments (h : i < (segments k n as).length) :
    ((segments k n as)[i]).length = min k (as.length - k * i) := by
  rw [getElem_segments, List.length_take, List.length_drop]

theorem length_le_of_mem (h : s ∈ segments k n as) : s.length ≤ k := by
  obtain ⟨i, hi, rfl⟩ := List.mem_iff_getElem.mp h
  rw [length_getElem_segments]
  omega

/-- With no segment too many, none of them is empty. -/
theorem length_pos_of_mem (hk : 0 < k) (hlen : k * (n - 1) < as.length)
    (h : s ∈ segments k n as) : 0 < s.length := by
  obtain ⟨i, hi, rfl⟩ := List.mem_iff_getElem.mp h
  have hle : k * i ≤ k * (n - 1) := by
    apply Nat.mul_le_mul_left
    rw [length_segments] at hi
    omega
  rw [length_getElem_segments]
  omega

/-- With no segment too many, all of them but the last are full. -/
theorem length_of_not_last (hlen : k * (n - 1) < as.length) (h : i < (segments k n as).length)
    (hlast : i + 1 < n) : ((segments k n as)[i]).length = k := by
  have hle : k * (i + 1) ≤ k * (n - 1) := by
    apply Nat.mul_le_mul_left
    omega
  rw [Nat.mul_succ] at hle
  rw [length_getElem_segments]
  omega

/-- How many segments there are, when the division rounds up. -/
def count (k len : Nat) : Nat := (len + k - 1) / k

theorem count_eq {len : Nat} (hk : 0 < k) (hlen : 0 < len) : count k len = 1 + (len - 1) / k := by
  have hsum : len + k - 1 = len - 1 + k := by omega
  rw [count, hsum, Nat.add_div_right _ hk, Nat.add_comm]

/-- It is just enough of them. -/
theorem count_bounds {len : Nat} (hk : 0 < k) (hlen : 0 < len) :
    k * (count k len - 1) < len ∧ len ≤ k * count k len := by
  rw [count_eq hk hlen, Nat.add_sub_cancel_left]
  have hdiv := Nat.div_add_mod (len - 1) k
  have hmod := Nat.mod_lt (len - 1) hk
  rw [Nat.mul_add]
  omega

theorem count_le {len m : Nat} (hk : 0 < k) (hlen : 0 < len) (h : len ≤ k * m) :
    count k len ≤ m := by
  have hlast := (count_bounds hk hlen).1
  have hlt : count k len - 1 < m := Nat.lt_of_mul_lt_mul_left (hlast.trans_le h)
  omega

end DocaApps.Lib.Segments
