import Mathlib

namespace DocaApps.Lib.KeyedList

variable {α κ : Type} [DecidableEq κ] {key : α → κ} {xs : List α} {a b : α} {k : κ}

/-- In a list whose keys differ an element is found by its key. -/
theorem find_key (hnodup : (xs.map key).Nodup) (ha : a ∈ xs) :
    xs.find? (fun x => key x = key a) = some a := by
  induction xs with
  | nil => cases ha
  | cons x xs ih =>
    rw [List.map_cons, List.nodup_cons] at hnodup
    rw [List.find?_cons]
    by_cases hx : key x = key a
    · rw [decide_eq_true hx]
      rcases List.mem_cons.mp ha with rfl | hmem
      · rfl
      · exact absurd (hx ▸ List.mem_map_of_mem hmem) hnodup.1
    · rw [decide_eq_false hx]
      exact ih hnodup.2 (List.mem_of_ne_of_mem (fun h => hx (h ▸ rfl)) ha)

theorem find_none (h : k ∉ xs.map key) : xs.find? (fun x => key x = k) = none := by
  apply List.find?_eq_none.mpr
  intro x hx
  simp only [decide_eq_true_eq]
  intro hk
  exact h (hk ▸ List.mem_map_of_mem hx)

theorem key_injective (hnodup : (xs.map key).Nodup) (ha : a ∈ xs) (hb : b ∈ xs)
    (h : key a = key b) : a = b := by
  have hfind := find_key hnodup ha
  simp only [h] at hfind
  exact Option.some.inj (hfind.symm.trans (find_key hnodup hb))

/-- An element and the others. -/
theorem perm_cons_filter (hnodup : (xs.map key).Nodup) (ha : a ∈ xs) :
    xs.Perm (a :: xs.filter fun x => key x ≠ key a) := by
  induction xs with
  | nil => cases ha
  | cons x xs ih =>
    rw [List.map_cons, List.nodup_cons] at hnodup
    rcases List.mem_cons.mp ha with rfl | hmem
    · have hall : xs.filter (fun x => key x ≠ key a) = xs := by
        apply List.filter_eq_self.mpr
        intro x hx
        simp only [decide_eq_true_eq]
        intro hk
        exact hnodup.1 (hk ▸ List.mem_map_of_mem hx)
      rw [List.filter_cons_of_neg (by simp), hall]
    · have hne : key x ≠ key a := fun h => hnodup.1 (h ▸ List.mem_map_of_mem hmem)
      rw [List.filter_cons_of_pos (by simpa using hne)]
      exact ((ih hnodup.2 hmem).cons x).trans (List.Perm.swap a x _)

end DocaApps.Lib.KeyedList
