import Mathlib

namespace DocaApps.Lib.Numerals

variable {base bound n : Nat} {sep c : Char} {text rest : List Char} {values : List Nat}

/-- What a character counts for in a number: a digit or a letter of either case. -/
def digitValue (c : Char) : Option Nat :=
  if 48 ≤ c.toNat ∧ c.toNat ≤ 57 then some (c.toNat - 48)
  else if 97 ≤ c.toNat ∧ c.toNat ≤ 122 then some (c.toNat - 97 + 10)
  else if 65 ≤ c.toNat ∧ c.toNat ≤ 90 then some (c.toNat - 65 + 10)
  else none

def isDigitOf (base : Nat) (c : Char) : Bool := (digitValue c).any (· < base)

def numberOf (base : Nat) (text : List Char) : Nat :=
  text.foldl (fun n c => base * n + (digitValue c).getD 0) 0

/-- A text that writes a number in a base. -/
structure Numeral (base : Nat) (text : List Char) (n : Nat) : Prop where
  nonempty : text ≠ []
  digits : ∀ c ∈ text, isDigitOf base c
  value : numberOf base text = n

/-- Numbers below a bound, one separator between each two. -/
inductive Literal (base bound : Nat) (sep : Char) : List Char → List Nat → Prop where
  | last {text : List Char} {n : Nat} (number : Numeral base text n) (range : n < bound) :
      Literal base bound sep text [n]
  | cons {text rest : List Char} {n : Nat} {values : List Nat} (number : Numeral base text n)
      (range : n < bound) (tail : Literal base bound sep rest values) :
      Literal base bound sep (text ++ sep :: rest) (n :: values)

/-- A number in decimal, in octal behind a zero, or in hexadecimal behind `0x`. -/
inductive CNumber : List Char → Nat → Prop where
  | decimal {text : List Char} {n : Nat} (number : Numeral 10 text n)
      (first : text.head? ≠ some '0') : CNumber text n
  | octal {text : List Char} {n : Nat} (number : Numeral 8 ('0' :: text) n) :
      CNumber ('0' :: text) n
  | hex {text : List Char} {n : Nat} {x : Char} (number : Numeral 16 text n)
      (mark : x = 'x' ∨ x = 'X') : CNumber ('0' :: x :: text) n

/-- A number in hexadecimal, with or without `0x` in front. -/
inductive HexNumber : List Char → Nat → Prop where
  | plain {text : List Char} {n : Nat} (number : Numeral 16 text n) : HexNumber text n
  | marked {text : List Char} {n : Nat} {x : Char} (number : Numeral 16 text n)
      (mark : x = 'x' ∨ x = 'X') : HexNumber ('0' :: x :: text) n

theorem Numeral.sep_notMem (h : Numeral base text n) (hsep : isDigitOf base sep = false) :
    sep ∉ text := by
  intro hmem
  have hdigit := h.digits sep hmem
  rw [hsep] at hdigit
  contradiction

theorem Numeral.takeWhile_eq (h : Numeral base text n)
    (hrest : rest.takeWhile (isDigitOf base) = []) :
    (text ++ rest).takeWhile (isDigitOf base) = text := by
  rw [List.takeWhile_append_of_pos h.digits, hrest, List.append_nil]

theorem Numeral.unmarked {x : Char} (h : Numeral base ('0' :: x :: text) n) (hbase : base ≤ 16) :
    x ≠ 'x' ∧ x ≠ 'X' := by
  have hdigit := h.digits x (by simp)
  constructor
  · rintro rfl
    have hvalue : digitValue 'x' = some 33 := rfl
    simp only [isDigitOf, hvalue, Option.any_some, decide_eq_true_eq] at hdigit
    omega
  · rintro rfl
    have hvalue : digitValue 'X' = some 33 := rfl
    simp only [isDigitOf, hvalue, Option.any_some, decide_eq_true_eq] at hdigit
    omega

theorem CNumber.unique {m : Nat} (h : CNumber text n) (h' : CNumber text m) : n = m := by
  cases h with
  | decimal number first =>
    cases h' with
    | decimal number' _ => exact number.value.symm.trans number'.value
    | octal _ => exact absurd rfl first
    | hex _ _ => exact absurd rfl first
  | octal number =>
    cases h' with
    | decimal _ first => exact absurd rfl first
    | octal number' => exact number.value.symm.trans number'.value
    | hex _ mark =>
      obtain ⟨hx, hX⟩ := number.unmarked (by decide)
      exact absurd mark (not_or.mpr ⟨hx, hX⟩)
  | hex number mark =>
    cases h' with
    | decimal _ first => exact absurd rfl first
    | octal number' =>
      obtain ⟨hx, hX⟩ := number'.unmarked (by decide)
      exact absurd mark (not_or.mpr ⟨hx, hX⟩)
    | hex number' _ => exact number.value.symm.trans number'.value

theorem HexNumber.unique {m : Nat} (h : HexNumber text n) (h' : HexNumber text m) : n = m := by
  cases h with
  | plain number =>
    cases h' with
    | plain number' => exact number.value.symm.trans number'.value
    | marked _ mark =>
      obtain ⟨hx, hX⟩ := number.unmarked (by decide)
      exact absurd mark (not_or.mpr ⟨hx, hX⟩)
  | marked number mark =>
    cases h' with
    | plain number' =>
      obtain ⟨hx, hX⟩ := number'.unmarked (by decide)
      exact absurd mark (not_or.mpr ⟨hx, hX⟩)
    | marked number' _ => exact number.value.symm.trans number'.value

theorem Literal.values_ne_nil (h : Literal base bound sep text values) : values ≠ [] := by
  cases h <;> simp

theorem Literal.bounded (h : Literal base bound sep text values) : ∀ n ∈ values, n < bound := by
  induction h with
  | last number range => simpa using range
  | cons number range tail ih => simpa using ⟨range, ih⟩

/-- A literal has one separator less than numbers. -/
theorem Literal.count_sep (h : Literal base bound sep text values)
    (hsep : isDigitOf base sep = false) : text.count sep + 1 = values.length := by
  induction h with
  | last number range =>
    simp [List.count_eq_zero_of_not_mem (number.sep_notMem hsep)]
  | cons number range tail ih =>
    simp [List.count_eq_zero_of_not_mem (number.sep_notMem hsep), ih]

/-- A text writes one row of numbers only. -/
theorem Literal.unique {values' : List Nat} (h : Literal base bound sep text values)
    (h' : Literal base bound sep text values') (hsep : isDigitOf base sep = false) :
    values = values' := by
  induction h generalizing values' with
  | last number range =>
    cases h' with
    | last number' range' => rw [← number.value, ← number'.value]
    | cons number' range' tail' =>
      exact absurd (List.mem_append_right _ List.mem_cons_self) (number.sep_notMem hsep)
  | @cons text rest n values number range tail ih =>
    generalize hwhole : text ++ sep :: rest = whole at h'
    have hstop : ∀ rest : List Char, (sep :: rest).takeWhile (isDigitOf base) = [] := by
      intro rest
      exact List.takeWhile_cons_of_neg (by simp [hsep])
    cases h' with
    | last number' range' =>
      subst hwhole
      exact absurd (List.mem_append_right _ List.mem_cons_self) (number'.sep_notMem hsep)
    | @cons text' rest' n' values' number' range' tail' =>
      have htext : text = text' := by
        rw [← number.takeWhile_eq (hstop rest), hwhole, number'.takeWhile_eq (hstop rest')]
      subst htext
      have hrest := (List.cons.inj (List.append_cancel_left hwhole)).2
      subst hrest
      rw [ih tail', ← number.value, ← number'.value]

theorem isDigitOf_ten : isDigitOf 10 c = c.isDigit := by
  have hiff : isDigitOf 10 c = true ↔ c.isDigit = true := by
    rw [Char.isDigit_iff_toNat]
    have hzero : '0'.toNat = 48 := rfl
    have hnine : '9'.toNat = 57 := rfl
    unfold isDigitOf digitValue
    split
    · simp only [Option.any_some, decide_eq_true_eq]
      omega
    · split
      · simp only [Option.any_some, decide_eq_true_eq]
        omega
      · split
        · simp only [Option.any_some, decide_eq_true_eq]
          omega
        · simp only [Option.any_none, Bool.false_eq_true, false_iff]
          omega
  exact Bool.eq_iff_iff.mpr hiff

theorem digitValue_isDigit (h : c.isDigit = true) : digitValue c = some (c.toNat - 48) := by
  have hrange := Char.isDigit_iff_toNat.mp h
  have hzero : '0'.toNat = 48 := rfl
  have hnine : '9'.toNat = 57 := rfl
  rw [digitValue, if_pos (by omega)]

theorem numberOf_concat : numberOf base (text ++ [c]) =
    base * numberOf base text + (digitValue c).getD 0 := by
  simp [numberOf]

theorem numeral_digit (h : digitValue c = some n) (hn : n < base) : Numeral base [c] n where
  nonempty := by simp
  digits := by simp [isDigitOf, h, hn]
  value := by simp [numberOf, h]

/-- The digits that print a number write it. -/
theorem numeral_toDigits (n : Nat) : Numeral 10 (Nat.toDigits 10 n) n where
  nonempty := Nat.toDigits_ne_nil
  digits := by
    intro c hc
    rw [isDigitOf_ten]
    exact Nat.isDigit_of_mem_toDigits (by decide) (by decide) hc
  value := by
    have hdigit : ∀ d < 10, (digitValue d.digitChar).getD 0 = d := by decide
    induction n using Nat.strong_induction_on with
    | h n ih =>
      rcases Nat.lt_or_ge n 10 with hlt | hge
      · rw [Nat.toDigits_of_lt_base hlt]
        simp [numberOf, hdigit n hlt]
      · rw [Nat.toDigits_of_base_le (by decide) hge, numberOf_concat, ih (n / 10) (by omega),
          hdigit (n % 10) (by omega)]
        omega

end DocaApps.Lib.Numerals
