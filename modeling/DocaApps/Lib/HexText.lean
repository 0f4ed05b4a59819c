import Mathlib

namespace DocaApps.Lib.HexText

variable {b : BitVec 8} {bs text : List (BitVec 8)}

/-- The value of a hexadecimal digit of either case. -/
def hexValue (c : BitVec 8) : Option Nat :=
  if 0x30 ≤ c.toNat ∧ c.toNat ≤ 0x39 then some (c.toNat - 0x30)
  else if 0x61 ≤ c.toNat ∧ c.toNat ≤ 0x66 then some (c.toNat - 0x61 + 10)
  else if 0x41 ≤ c.toNat ∧ c.toNat ≤ 0x46 then some (c.toNat - 0x41 + 10)
  else none

/-- A text writes bytes, the high half of each before its low half. -/
inductive Writes : List (BitVec 8) → List (BitVec 8) → Prop where
  | nil : Writes [] []
  | cons {b hi lo : BitVec 8} {bs text : List (BitVec 8)}
      (high : hexValue hi = some (b.toNat / 16)) (low : hexValue lo = some (b.toNat % 16))
      (rest : Writes bs text) : Writes (b :: bs) (hi :: lo :: text)

theorem hexValue_lt {c : BitVec 8} {v : Nat} (h : hexValue c = some v) : v < 16 := by
  unfold hexValue at h
  split at h
  · injection h with h
    omega
  · split at h
    · injection h with h
      omega
    · split at h
      · injection h with h
        omega
      · cases h

theorem Writes.length (h : Writes bs text) : text.length = 2 * bs.length := by
  induction h with
  | nil => rfl
  | cons high low rest ih =>
    simp only [List.length_cons, ih]
    omega

theorem Writes.hex (h : Writes bs text) : ∀ c ∈ text, (hexValue c).isSome := by
  induction h with
  | nil => simp
  | cons high low rest ih =>
    intro c hc
    simp only [List.mem_cons] at hc
    rcases hc with rfl | rfl | hc
    · rw [high]
      rfl
    · rw [low]
      rfl
    · exact ih c hc

/-- Every text of an even number of digits writes some bytes. -/
theorem exists_writes (n : Nat) (hlen : text.length = 2 * n)
    (hhex : ∀ c ∈ text, (hexValue c).isSome) : ∃ bs, Writes bs text := by
  induction n generalizing text with
  | zero =>
    obtain rfl : text = [] := List.length_eq_zero_iff.mp hlen
    exact ⟨[], .nil⟩
  | succ n ih =>
    match text with
    | [] => simp at hlen
    | [_] =>
      simp only [List.length_cons, List.length_nil] at hlen
      omega
    | hi :: lo :: rest =>
      obtain ⟨vh, hvh⟩ := Option.isSome_iff_exists.mp (hhex hi (by simp))
      obtain ⟨vl, hvl⟩ := Option.isSome_iff_exists.mp (hhex lo (by simp))
      have hh := hexValue_lt hvh
      have hl := hexValue_lt hvl
      have hrest : rest.length = 2 * n := by
        simp only [List.length_cons] at hlen
        omega
      obtain ⟨bs, hbs⟩ := ih hrest fun c hc => hhex c (by simp [hc])
      have hb : (BitVec.ofNat 8 (16 * vh + vl)).toNat = 16 * vh + vl := by
        rw [BitVec.toNat_ofNat]
        omega
      refine ⟨BitVec.ofNat 8 (16 * vh + vl) :: bs, .cons ?_ ?_ hbs⟩
      · rw [hvh, hb]
        congr 1
        omega
      · rw [hvl, hb]
        congr 1
        omega

end DocaApps.Lib.HexText
