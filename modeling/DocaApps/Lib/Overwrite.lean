import Mathlib

namespace DocaApps.Lib.Overwrite

variable {α : Type}

/-- Writing `bytes` into an array from index `idx` on. -/
def overwrite (data : List α) (idx : Nat) (bytes : List α) : List α :=
  data.take idx ++ bytes ++ data.drop (idx + bytes.length)

/-- `n` elements of an array from index `idx` on. -/
def slice (data : List α) (idx n : Nat) : List α := (data.drop idx).take n

variable {data bytes a b b' c : List α} {idx i n : Nat}

theorem length_overwrite (h : idx + bytes.length ≤ data.length) :
    (overwrite data idx bytes).length = data.length := by
  simp only [overwrite, List.length_append, List.length_take, List.length_drop]
  omega

theorem overwrite_zero : overwrite data 0 bytes = bytes ++ data.drop bytes.length := by
  rw [overwrite, List.take_zero, List.nil_append, Nat.zero_add]

/-- The bytes are all that is left when the array was no longer than they are. -/
theorem overwrite_zero_eq_iff : overwrite data 0 bytes = bytes ↔ data.length ≤ bytes.length := by
  rw [overwrite_zero, List.append_right_eq_self, List.drop_eq_nil_iff]

/-- Two writes, the second right behind the first. -/
theorem overwrite_behind (h : idx ≤ data.length) :
    overwrite (overwrite data idx a) (idx + a.length) b = overwrite data idx (a ++ b) := by
  have hfront : (data.take idx ++ a).length = idx + a.length := by simp [h]
  have hrest : (data.take idx ++ a ++ data.drop (idx + a.length)).drop
      (idx + a.length + b.length) = data.drop (idx + a.length + b.length) := by
    rw [← List.drop_drop, List.drop_left' hfront, List.drop_drop]
  simp only [overwrite]
  rw [List.take_left' hfront, hrest, List.length_append, List.append_assoc (data.take idx) a b,
    Nat.add_assoc]

/-- Replacing the middle part of three. -/
theorem overwrite_middle (ha : a.length = idx) (hb : b.length = b'.length) :
    overwrite (a ++ b ++ c) idx b' = a ++ b' ++ c := by
  subst ha
  rw [overwrite, ← hb, List.append_assoc a b c, List.take_left, ← List.length_append,
    ← List.append_assoc a b c, List.drop_left]

theorem slice_middle (ha : a.length = idx) (hb : b.length = n) :
    slice (a ++ b ++ c) idx n = b := by
  subst ha hb
  rw [slice, List.append_assoc, List.drop_left, List.take_left]

theorem length_slice (h : idx + n ≤ data.length) : (slice data idx n).length = n := by
  rw [slice, List.length_take, List.length_drop]
  omega

theorem take_append_slice : data.take idx ++ slice data idx n = data.take (idx + n) :=
  List.take_add.symm

theorem slice_append_slice {m : Nat} :
    slice data idx m ++ slice data (idx + m) n = slice data idx (m + n) := by
  rw [slice, slice, slice, List.take_add, List.drop_drop]

theorem take_slice {m : Nat} (h : n ≤ m) : (slice data idx m).take n = slice data idx n := by
  rw [slice, slice, List.take_take, Nat.min_eq_left h]

theorem slice_slice {m : Nat} (h : i + n ≤ m) :
    slice (slice data idx m) i n = slice data (idx + i) n := by
  rw [slice, slice, slice, List.drop_take, List.drop_drop, List.take_take,
    Nat.min_eq_left (by omega)]

theorem getElem?_slice : (slice data idx n)[i]? = if i < n then data[idx + i]? else none := by
  rw [slice, List.getElem?_take]
  split
  · rw [List.getElem?_drop]
  · rfl

theorem getElem?_overwrite (h : idx + bytes.length ≤ data.length) :
    (overwrite data idx bytes)[i]? =
      if idx ≤ i ∧ i < idx + bytes.length then bytes[i - idx]? else data[i]? := by
  have htake : (data.take idx).length = idx := by
    rw [List.length_take]
    omega
  rw [overwrite, List.append_assoc, List.getElem?_append, htake]
  by_cases hlo : i < idx
  · rw [if_pos hlo, if_neg (by omega), List.getElem?_take, if_pos hlo]
  · rw [if_neg hlo, List.getElem?_append]
    by_cases hhi : i < idx + bytes.length
    · rw [if_pos (by omega), if_pos ⟨by omega, hhi⟩]
    · rw [if_neg (by omega), if_neg (by omega), List.getElem?_drop]
      congr 1
      omega

/-- A write inside the middle part of three. -/
theorem overwrite_inside (ha : a.length = n) (h : idx + bytes.length ≤ b.length) :
    overwrite (a ++ b ++ c) (n + idx) bytes = a ++ overwrite b idx bytes ++ c := by
  have hb : b = b.take idx ++ slice b idx bytes.length ++ b.drop (idx + bytes.length) := by
    rw [slice, List.append_assoc, ← List.drop_drop, List.take_append_drop, List.take_append_drop]
  have hsplit : a ++ b ++ c = (a ++ b.take idx) ++ slice b idx bytes.length ++
      (b.drop (idx + bytes.length) ++ c) := by
    conv_lhs => rw [hb]
    simp only [List.append_assoc]
  have htake : (a ++ b.take idx).length = n + idx := by
    rw [List.length_append, List.length_take, ha]
    omega
  rw [hsplit, overwrite_middle htake (length_slice h), overwrite]
  simp only [List.append_assoc]

theorem slice_overwrite (h : idx + bytes.length ≤ data.length) :
    slice (overwrite data idx bytes) idx bytes.length = bytes := by
  rw [overwrite, slice_middle (by rw [List.length_take]; omega) rfl]

/-- A write leaves what it does not meet. -/
theorem slice_overwrite_apart (h : idx + bytes.length ≤ data.length)
    (hapart : i + n ≤ idx ∨ idx + bytes.length ≤ i) :
    slice (overwrite data idx bytes) i n = slice data i n := by
  apply List.ext_getElem?
  intro j
  rw [getElem?_slice, getElem?_slice]
  split
  · rw [getElem?_overwrite h, if_neg (by omega)]
  · rfl

/-- Two writes are undone by writing back what was there. -/
theorem overwrite_restore {j : Nat} (hi : idx + b.length ≤ data.length)
    (hj : j + c.length ≤ data.length) :
    overwrite (overwrite (overwrite (overwrite data idx b) j c) idx (slice data idx b.length)) j
      (slice data j c.length) = data := by
  have hb : (slice data idx b.length).length = b.length := length_slice hi
  have hc : (slice data j c.length).length = c.length := length_slice hj
  have h1 : (overwrite data idx b).length = data.length := length_overwrite hi
  have h2 : (overwrite (overwrite data idx b) j c).length = data.length := by
    rw [length_overwrite (by omega), h1]
  have h3 : (overwrite (overwrite (overwrite data idx b) j c) idx
      (slice data idx b.length)).length = data.length := by
    rw [length_overwrite (by omega), h2]
  apply List.ext_getElem?
  intro i
  rw [getElem?_overwrite (by omega), getElem?_overwrite (by omega), getElem?_overwrite (by omega),
    getElem?_overwrite (by omega), hb, hc]
  simp only [getElem?_slice]
  by_cases hin : j ≤ i ∧ i < j + c.length
  · rw [if_pos hin, if_pos (by omega), Nat.add_sub_cancel' hin.1]
  · rw [if_neg hin, if_neg hin]
    by_cases hin' : idx ≤ i ∧ i < idx + b.length
    · rw [if_pos hin', if_pos (by omega), Nat.add_sub_cancel' hin'.1]
    · rw [if_neg hin', if_neg hin']

end DocaApps.Lib.Overwrite
