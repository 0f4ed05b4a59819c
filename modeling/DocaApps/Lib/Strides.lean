import Mathlib

namespace DocaApps.Lib.Strides

variable {start stop step len n g i x y : Nat}

/-- Every `step`-th number from `start` on that is below `stop`. -/
def strided (start stop step : Nat) : List Nat :=
  List.range' start ((stop - start + step - 1) / step) step

theorem mem_strided (hstep : 0 < step) :
    i ∈ strided start stop step ↔ start ≤ i ∧ i < stop ∧ step ∣ i - start := by
  have hcount : ∀ k, k < (stop - start + step - 1) / step ↔ step * k < stop - start := by
    intro k
    rw [Nat.lt_iff_add_one_le, Nat.le_div_iff_mul_le hstep, Nat.add_mul, Nat.mul_comm k]
    omega
  rw [strided, List.mem_range']
  constructor
  · intro h
    obtain ⟨k, hk, rfl⟩ := h
    have hbelow := (hcount k).mp hk
    exact ⟨by omega, by omega, by simp⟩
  · intro h
    obtain ⟨hstart, hstop, k, hk⟩ := h
    exact ⟨k, (hcount k).mpr (by omega), by omega⟩

theorem nodup_strided (hstep : 0 < step) : (strided start stop step).Nodup :=
  List.nodup_range' step hstep

theorem strided_nil (h : stop ≤ start) (hstep : 0 < step) : strided start stop step = [] := by
  rw [List.eq_nil_iff_forall_not_mem]
  intro i hi
  have hmem := (mem_strided hstep).mp hi
  omega

theorem strided_cons (h : start < stop) (hstep : 0 < step) :
    strided start stop step = start :: strided (start + step) stop step := by
  have hcount : (stop - start + step - 1) / step =
      (stop - (start + step) + step - 1) / step + 1 := by
    rcases Nat.lt_or_ge stop (start + step) with hlast | hmore
    · have hone : (stop - start + step - 1) / step = 1 := by
        apply Nat.div_eq_of_lt_le <;> omega
      have hzero : (stop - (start + step) + step - 1) / step = 0 := by
        apply Nat.div_eq_of_lt
        omega
      rw [hone, hzero]
    · have hsplit : stop - start + step - 1 = stop - (start + step) + step - 1 + step := by omega
      rw [hsplit, Nat.add_div_right _ hstep]
  rw [strided, hcount, List.range'_succ]
  rfl

theorem strided_one : strided start stop 1 = List.range' start (stop - start) := by
  rw [strided, Nat.add_sub_cancel, Nat.div_one]

/-- The numbers of an interval fall into as many classes as a step is wide. -/
theorem strides_perm (hstep : 0 < step) :
    ((List.range step).flatMap fun t => strided (start + t) stop step).Perm
      (List.range' start (stop - start)) := by
  have hnodup : ((List.range step).flatMap fun t => strided (start + t) stop step).Nodup := by
    rw [List.nodup_flatMap]
    refine ⟨fun t _ => nodup_strided hstep, ?_⟩
    refine List.nodup_range.imp_of_mem fun {t u} ht hu hne i hi hj => hne ?_
    obtain ⟨hti, -, hdvd⟩ := (mem_strided hstep).mp hi
    obtain ⟨huj, -, hdvd'⟩ := (mem_strided hstep).mp hj
    rw [List.mem_range] at ht hu
    have hmod : (i - start) % step = t := by
      obtain ⟨k, hk⟩ := hdvd
      have hsum : i - start = t + step * k := by omega
      rw [hsum, Nat.add_mul_mod_self_left, Nat.mod_eq_of_lt ht]
    have hmod' : (i - start) % step = u := by
      obtain ⟨k, hk⟩ := hdvd'
      have hsum : i - start = u + step * k := by omega
      rw [hsum, Nat.add_mul_mod_self_left, Nat.mod_eq_of_lt hu]
    exact hmod.symm.trans hmod'
  refine (List.perm_ext_iff_of_nodup hnodup List.nodup_range').mpr fun i => ?_
  rw [List.mem_flatMap, List.mem_range'_1]
  constructor
  · intro h
    obtain ⟨t, ht, hi⟩ := h
    have hmem := (mem_strided hstep).mp hi
    omega
  · intro h
    refine ⟨(i - start) % step, List.mem_range.mpr (Nat.mod_lt _ hstep), ?_⟩
    have hle := Nat.mod_le (i - start) step
    refine (mem_strided hstep).mpr ⟨by omega, by omega, ?_⟩
    rw [← Nat.sub_sub]
    exact Nat.dvd_sub_mod (i - start)

/-- The pieces of one length that an interval is cut into, the last ones being shorter or empty. -/
theorem pieces_perm (h : n ≤ g * len) :
    ((List.range g).flatMap fun b =>
      List.range' (b * len) (min n (b * len + len) - b * len)).Perm (List.range n) := by
  have hmem : ∀ b i, i ∈ List.range' (b * len) (min n (b * len + len) - b * len) ↔
      i < n ∧ 0 < len ∧ i / len = b := by
    intro b i
    rw [List.mem_range'_1]
    constructor
    · intro hi
      have hlen : 0 < len := by omega
      refine ⟨by omega, hlen, ?_⟩
      rw [Nat.div_eq_iff hlen]
      omega
    · intro hi
      obtain ⟨hn, hlen, hdiv⟩ := hi
      rw [Nat.div_eq_iff hlen] at hdiv
      omega
  have hnodup : ((List.range g).flatMap fun b =>
      List.range' (b * len) (min n (b * len + len) - b * len)).Nodup := by
    rw [List.nodup_flatMap]
    refine ⟨fun b _ => List.nodup_range', ?_⟩
    refine List.nodup_range.imp fun {b b'} hne i hi hj => hne ?_
    exact ((hmem b i).mp hi).2.2.symm.trans ((hmem b' i).mp hj).2.2
  refine (List.perm_ext_iff_of_nodup hnodup List.nodup_range).mpr fun i => ?_
  rw [List.mem_flatMap, List.mem_range]
  constructor
  · intro hi
    obtain ⟨b, -, hi⟩ := hi
    exact ((hmem b i).mp hi).1
  · intro hi
    have hlen : 0 < len := by
      rcases Nat.eq_zero_or_pos len with rfl | hpos
      · rw [Nat.mul_zero] at h
        omega
      · exact hpos
    have hpiece : i / len < g := by
      rw [Nat.div_lt_iff_lt_mul hlen]
      omega
    exact ⟨i / len, List.mem_range.mpr hpiece, (hmem _ i).mpr ⟨hi, hlen, rfl⟩⟩

/-- The numbering of the cells of a table, row by row. -/
theorem table_range (x y : Nat) :
    ((List.range x).flatMap fun row => (List.range y).map fun col => row * y + col) =
      List.range (x * y) := by
  induction x with
  | zero => simp
  | succ x ih =>
    rw [List.range_succ, List.flatMap_append, ih, Nat.succ_mul, List.range_add,
      List.flatMap_singleton]

end DocaApps.Lib.Strides
