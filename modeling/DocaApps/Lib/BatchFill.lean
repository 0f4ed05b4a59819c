import Mathlib

namespace DocaApps.Lib.BatchFill

variable {w depth : Nat} {completed : Nat → Nat} {n : Nat}

/-- The level of a queue and the number of its flushes after some steps. A step adds `w`, and a
queue that is exactly full is flushed: flush `j` completes `completed j`. -/
def fill (w depth : Nat) (completed : Nat → Nat) : Nat → Nat × Nat
  | 0 => (0, 0)
  | n + 1 =>
    let before := fill w depth completed n
    if before.1 + w = depth then (depth - completed before.2, before.2 + 1)
    else (before.1 + w, before.2)

/-- The step after `n` steps fills the queue exactly. -/
def Flushes (w depth : Nat) (completed : Nat → Nat) (n : Nat) : Prop :=
  (fill w depth completed n).1 + w = depth

instance : Decidable (Flushes w depth completed n) := inferInstanceAs (Decidable (_ = _))

/-- What the first flushes complete together. -/
def completedBy (completed : Nat → Nat) (j : Nat) : Nat := ((List.range j).map completed).sum

theorem completedBy_succ (completed : Nat → Nat) (j : Nat) :
    completedBy completed (j + 1) = completedBy completed j + completed j := by
  simp [completedBy, List.range_succ]

theorem completedBy_mono (completed : Nat → Nat) {i j : Nat} (h : i ≤ j) :
    completedBy completed i ≤ completedBy completed j := by
  induction h with
  | refl => exact Nat.le_refl _
  | step h ih =>
    rw [completedBy_succ]
    exact ih.trans (Nat.le_add_right _ _)

theorem fill_flush (h : Flushes w depth completed n) :
    fill w depth completed (n + 1) =
      (depth - completed (fill w depth completed n).2, (fill w depth completed n).2 + 1) :=
  if_pos h

theorem fill_rest (h : ¬ Flushes w depth completed n) :
    fill w depth completed (n + 1) =
      ((fill w depth completed n).1 + w, (fill w depth completed n).2) :=
  if_neg h

theorem flushes_le_succ (w depth : Nat) (completed : Nat → Nat) (n : Nat) :
    (fill w depth completed n).2 ≤ (fill w depth completed (n + 1)).2 := by
  by_cases h : Flushes w depth completed n
  · rw [fill_flush h]
    exact Nat.le_succ _
  · rw [fill_rest h]

/-- What was added is in the queue or completed. -/
theorem fill_balance (hle : ∀ j, completed j ≤ depth) (n : Nat) :
    (fill w depth completed n).1 + completedBy completed (fill w depth completed n).2 = w * n := by
  induction n with
  | zero => rfl
  | succ n ih =>
    by_cases h : Flushes w depth completed n
    · have hlevel : (fill w depth completed n).1 + w = depth := h
      have := hle (fill w depth completed n).2
      rw [fill_flush h, completedBy_succ, Nat.mul_succ]
      dsimp only
      omega
    · rw [fill_rest h, Nat.mul_succ]
      dsimp only
      omega

/-- When flush `j` happened the queue had been given its depth more than was completed. -/
theorem flush_reached (hle : ∀ j, completed j ≤ depth) {j : Nat}
    (h : j < (fill w depth completed n).2) : ∃ m ≤ n, w * m = depth + completedBy completed j := by
  induction n with
  | zero => cases h
  | succ n ih =>
    by_cases hflush : Flushes w depth completed n
    · rw [fill_flush hflush] at h
      rcases Nat.lt_succ_iff_lt_or_eq.mp h with h | rfl
      · obtain ⟨m, hm, heq⟩ := ih h
        exact ⟨m, hm.trans (Nat.le_succ n), heq⟩
      · have hbalance := fill_balance (w := w) hle n
        have hlevel : (fill w depth completed n).1 + w = depth := hflush
        refine ⟨n + 1, Nat.le_refl _, ?_⟩
        rw [Nat.mul_succ]
        omega
    · rw [fill_rest hflush] at h
      obtain ⟨m, hm, heq⟩ := ih h
      exact ⟨m, hm.trans (Nat.le_succ n), heq⟩

/-- While the flushes complete multiples of the step, the level is one too and stays below the
depth. -/
theorem level_lt (hw : w ∣ depth) (hdepth : 0 < depth)
    (hc : ∀ j, 0 < completed j ∧ completed j ≤ depth)
    (h : ∀ j < (fill w depth completed n).2, w ∣ completed j) :
    (fill w depth completed n).1 < depth ∧ w ∣ (fill w depth completed n).1 := by
  induction n with
  | zero => exact ⟨hdepth, Nat.dvd_zero w⟩
  | succ n ih =>
    obtain ⟨hlt, hdvd⟩ :=
      ih fun j hj => h j (hj.trans_le (flushes_le_succ w depth completed n))
    by_cases hflush : Flushes w depth completed n
    · rw [fill_flush hflush] at h ⊢
      have hlast := hc (fill w depth completed n).2
      exact ⟨by dsimp only; omega, Nat.dvd_sub hw (h _ (Nat.lt_succ_self _))⟩
    · rw [fill_rest hflush]
      have hroom := Nat.le_of_dvd (Nat.sub_pos_of_lt hlt) (Nat.dvd_sub hw hdvd)
      have hnext : (fill w depth completed n).1 + w ≤ depth := by omega
      exact ⟨Nat.lt_of_le_of_ne hnext hflush, Nat.dvd_add hdvd (Nat.dvd_refl w)⟩

/-- The step fills the queue exactly just when the whole that was added is the depth and what the
flushes before it completed, each of them a multiple of the step. -/
theorem flushes_iff (hw : w ∣ depth) (hdepth : 0 < depth)
    (hc : ∀ j, 0 < completed j ∧ completed j ≤ depth) :
    Flushes w depth completed n ↔ ∃ j, w * (n + 1) = depth + completedBy completed j ∧
      ∀ i < j, w ∣ completed i := by
  have hle : ∀ j, completed j ≤ depth := fun j => (hc j).2
  have hbalance := fill_balance (w := w) hle n
  have hwpos : 0 < w := Nat.pos_of_dvd_of_pos hw hdepth
  constructor
  · intro h
    have hlevel : (fill w depth completed n).1 + w = depth := h
    have hwhole : w * (n + 1) =
        depth + completedBy completed (fill w depth completed n).2 := by
      rw [Nat.mul_succ]
      omega
    have hdvd : ∀ i ≤ (fill w depth completed n).2, w ∣ completedBy completed i := by
      intro i hi
      rcases hi.lt_or_eq with hi | rfl
      · obtain ⟨m, -, hm⟩ := flush_reached hle hi
        exact (Nat.dvd_add_right hw).mp (hm ▸ Nat.dvd_mul_right w m)
      · exact (Nat.dvd_add_right hw).mp (hwhole ▸ Nat.dvd_mul_right w (n + 1))
    refine ⟨_, hwhole, fun i hi => ?_⟩
    have hnext := hdvd (i + 1) hi
    rw [completedBy_succ] at hnext
    exact (Nat.dvd_add_right (hdvd i hi.le)).mp hnext
  · rintro ⟨j, hwhole, hdvd⟩
    have hnot : (fill w depth completed n).2 ≤ j := by
      by_contra hlt
      obtain ⟨m, hm, heq⟩ := flush_reached hle (Nat.lt_of_not_le hlt)
      rw [← hwhole] at heq
      have := Nat.eq_of_mul_eq_mul_left hwpos heq
      omega
    obtain ⟨hlt, hlevel⟩ := level_lt hw hdepth hc fun i hi => hdvd i (hi.trans_le hnot)
    have hroom := Nat.le_of_dvd (Nat.sub_pos_of_lt hlt) (Nat.dvd_sub hw hlevel)
    rcases hnot.lt_or_eq with hless | heq
    · have hmono := completedBy_mono completed (Nat.succ_le_of_lt hless)
      have hlast := (hc (fill w depth completed n).2).1
      rw [completedBy_succ] at hmono
      rw [Nat.mul_succ] at hwhole
      omega
    · unfold Flushes
      rw [← heq, Nat.mul_succ] at hwhole
      omega

end DocaApps.Lib.BatchFill
