import Mathlib

namespace DocaApps.Lib.Members

variable {M : Type} [DecidableEq M] {V : M → Type} {ws ws' : List (Sigma V)} {w : Sigma V}
  {r zero target : (m : M) → V m} {m : M}

/-- One assignment to a member of a record. -/
def assign (r : (m : M) → V m) (w : Sigma V) : (m : M) → V m := Function.update r w.1 w.2

def assignAll (r : (m : M) → V m) (ws : List (Sigma V)) : (m : M) → V m := ws.foldl assign r

@[simp] theorem assignAll_nil : assignAll r [] = r := rfl

@[simp] theorem assignAll_cons : assignAll r (w :: ws) = assignAll (assign r w) ws := rfl

theorem assignAll_append : assignAll r (ws ++ ws') = assignAll (assignAll r ws) ws' :=
  List.foldl_append

theorem value_eq {v v' : V m} (h : (⟨m, v⟩ : Sigma V) = ⟨m, v'⟩) : v = v' :=
  eq_of_heq (Sigma.mk.inj h).2

theorem assign_self : assign r w w.1 = w.2 := Function.update_self ..

theorem assign_of_ne (h : w.1 ≠ m) : assign r w m = r m := Function.update_of_ne (Ne.symm h) ..

/-- A member that is never assigned keeps its value. -/
theorem assignAll_unwritten (h : ∀ w ∈ ws, w.1 ≠ m) : assignAll r ws m = r m := by
  induction ws generalizing r with
  | nil => rfl
  | cons w ws ih =>
    rw [assignAll_cons, ih fun w' hw' => h w' (by simp [hw'])]
    exact assign_of_ne (h w (by simp))

/-- The last assignment to a member is the one that counts. -/
theorem assignAll_concat : assignAll r (ws ++ [w]) w.1 = w.2 := by
  rw [assignAll_append, assignAll_cons, assignAll_nil, assign_self]

/-- A member to which the same is always assigned holds it. -/
theorem assignAll_of_constant (h : ∀ w ∈ ws, ∀ hm : w.1 = m, hm ▸ w.2 = r m) :
    assignAll r ws m = r m := by
  induction ws generalizing r with
  | nil => rfl
  | cons w ws ih =>
    have hfirst : assign r w m = r m := by
      by_cases hm : w.1 = m
      · subst hm
        rw [assign_self]
        exact h w (by simp) rfl
      · exact assign_of_ne hm
    rw [assignAll_cons, ih, hfirst]
    intro w' hw' hm
    rw [hfirst]
    exact h w' (by simp [hw']) hm

/-- Assignments of what a target holds lead to the target where it is not already reached. -/
theorem assignAll_of_agree (hw : ∀ w ∈ ws, w.2 = target w.1)
    (hr : ∀ m, (∀ w ∈ ws, w.1 ≠ m) → r m = target m) : assignAll r ws = target := by
  induction ws generalizing r with
  | nil =>
    funext m
    exact hr m (by simp)
  | cons w ws ih =>
    apply ih fun w' hw' => hw w' (by simp [hw'])
    intro m hm
    by_cases hfirst : w.1 = m
    · subst hfirst
      rw [assign_self]
      exact hw w (by simp)
    · rw [assign_of_ne hfirst]
      apply hr
      simpa [hfirst] using hm

/-- A record with what the named members are given and nothing else. -/
structure Lands (zero : (m : M) → V m) (ws : List (Sigma V)) (r : (m : M) → V m) : Prop where
  named : ∀ w ∈ ws, r w.1 = w.2
  others : ∀ m, (∀ w ∈ ws, w.1 ≠ m) → r m = zero m

theorem Lands.unique {r' : (m : M) → V m} (h : Lands zero ws r) (h' : Lands zero ws r') :
    r = r' := by
  funext m
  by_cases hm : ∃ w ∈ ws, w.1 = m
  · obtain ⟨w, hw, rfl⟩ := hm
    rw [h.named w hw, h'.named w hw]
  · have hnone : ∀ w ∈ ws, w.1 ≠ m := fun w hw heq => hm ⟨w, hw, heq⟩
    rw [h.others m hnone, h'.others m hnone]

/-- A member that is always given one value ends up with it. -/
theorem assignAll_written (hw : w ∈ ws) (h : ∀ w' ∈ ws, w'.1 = w.1 → w' = w) :
    assignAll r ws w.1 = w.2 := by
  obtain ⟨before, after, rfl⟩ := List.append_of_mem hw
  rw [assignAll_append, assignAll_cons, assignAll_of_constant]
  · exact assign_self
  · intro w' hw' hm
    obtain rfl := h w' (by simp [hw']) hm
    exact assign_self.symm

/-- What holds of a record and of all that is assigned holds of the result. -/
theorem assignAll_forall {P : (m : M) → V m → Prop} (hr : ∀ m, P m (r m))
    (hw : ∀ w ∈ ws, P w.1 w.2) : ∀ m, P m (assignAll r ws m) := by
  induction ws generalizing r with
  | nil => exact hr
  | cons w ws ih =>
    apply ih _ fun w' hw' => hw w' (by simp [hw'])
    intro m
    by_cases hm : w.1 = m
    · subst hm
      rw [assign_self]
      exact hw w (by simp)
    · rw [assign_of_ne hm]
      exact hr m

/-- Members that are given one value each end up with it. -/
theorem lands_of_consistent (h : ∀ w ∈ ws, ∀ w' ∈ ws, w.1 = w'.1 → w = w') :
    Lands zero ws (assignAll zero ws) :=
  ⟨fun w hw => assignAll_written hw fun w' hw' hm => h w' hw' w hw hm,
    fun _ hm => assignAll_unwritten hm⟩

/-- What is assigned for each named value fits what is named: it is the value of the member that
it goes to, or leaves a member that is not named as it is, and what is never assigned was there
from the start. -/
structure Fits (zero : (m : M) → V m) (stored : Sigma V → Sigma V) (ws : List (Sigma V)) :
    Prop where
  consistent : ∀ w ∈ ws, ∀ w' ∈ ws, w.1 = w'.1 → w = w'
  named : ∀ w ∈ ws, ∀ w' ∈ ws, w'.1 = (stored w).1 → w' = stored w
  unnamed : ∀ w ∈ ws, (∀ w' ∈ ws, w'.1 ≠ (stored w).1) → (stored w).2 = zero (stored w).1
  missing : ∀ w ∈ ws, (∀ w' ∈ ws, (stored w').1 ≠ w.1) → w.2 = zero w.1

/-- Whatever the order, the named values land, when an assignment that is not the named one can
also come last. -/
theorem lands_iff {stored : Sigma V → Sigma V} {orders : List (Sigma V) → Prop}
    (hmem : ∀ ws', orders ws' → ∀ w, w ∈ ws' ↔ w ∈ ws) (hself : orders ws)
    (hlast : ∀ w ∈ ws, stored w = w ∨ ∃ ws', orders (ws' ++ [w])) :
    (∃ r, (∀ ws', orders ws' → assignAll zero (ws'.map stored) = r) ∧ Lands zero ws r) ↔
      Fits zero stored ws := by
  constructor
  · rintro ⟨r, hrun, hlands⟩
    have hheld : ∀ w ∈ ws, stored w ≠ w → r (stored w).1 = (stored w).2 := by
      intro w hw hne
      obtain ⟨ws', horder⟩ := (hlast w hw).resolve_left hne
      rw [← hrun _ horder, List.map_append]
      exact assignAll_concat
    have hconsistent : ∀ w ∈ ws, ∀ w' ∈ ws, w.1 = w'.1 → w = w' := by
      rintro ⟨m, v⟩ hw ⟨m', v'⟩ hw' hm
      obtain rfl : m = m' := hm
      have hv : v = v' := (hlands.named _ hw).symm.trans (hlands.named _ hw')
      rw [hv]
    constructor
    · exact hconsistent
    · intro w hw w' hw' hm
      by_cases hsame : stored w = w
      · rw [hsame] at hm ⊢
        exact hconsistent w' hw' w hw hm
      · have hv := hheld w hw hsame
        have hv' := hlands.named w' hw'
        obtain ⟨m', v'⟩ := w'
        obtain rfl : m' = (stored w).1 := hm
        have heq : v' = (stored w).2 := hv'.symm.trans hv
        rw [heq]
    · intro w hw hnone
      by_cases hsame : stored w = w
      · exact absurd (by rw [hsame]) (hnone w hw)
      · rw [← hheld w hw hsame]
        exact hlands.others _ hnone
    · intro w hw hnone
      rw [← hlands.named w hw, ← hrun ws hself]
      apply assignAll_unwritten
      intro w' hw' heq
      obtain ⟨w₀, hw₀, rfl⟩ := List.mem_map.mp hw'
      exact hnone w₀ hw₀ heq
  · intro h
    have hlands : Lands zero ws (assignAll zero ws) := lands_of_consistent h.consistent
    refine ⟨_, ?_, hlands⟩
    intro ws' horder
    apply assignAll_of_agree
    · intro w' hw'
      obtain ⟨w, hw, rfl⟩ := List.mem_map.mp hw'
      have hw := (hmem ws' horder w).mp hw
      by_cases hnamed : ∃ w' ∈ ws, w'.1 = (stored w).1
      · obtain ⟨w', hw', hm⟩ := hnamed
        rw [← h.named w hw w' hw' hm]
        exact (hlands.named w' hw').symm
      · have hnone : ∀ w' ∈ ws, w'.1 ≠ (stored w).1 := fun w' hw' hm => hnamed ⟨w', hw', hm⟩
        rw [h.unnamed w hw hnone, hlands.others _ hnone]
    · intro m hm
      by_cases hnamed : ∃ w ∈ ws, w.1 = m
      · obtain ⟨w, hw, rfl⟩ := hnamed
        rw [hlands.named w hw, h.missing w hw]
        intro w' hw' heq
        exact hm (stored w') (List.mem_map_of_mem ((hmem ws' horder w').mpr hw')) heq
      · exact (hlands.others m fun w hw heq => hnamed ⟨w, hw, heq⟩).symm

end DocaApps.Lib.Members
