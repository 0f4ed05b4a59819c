import DocaApps.Proofs.AddressTexts

namespace DocaApps.Proofs.Strtol
open Common.FlowParser Lib.Numerals Proofs.FlowParser Proofs.AddressTexts

variable {text rest : List Char} {n : Nat} {c : Char}

/-- What follows a number and is no part of it: nothing, or a character that is no digit in any
base. -/
def Ends (rest : List Char) : Prop := ∀ c ∈ rest.head?, isDigitOf 36 c = false

theorem isDigitOf_smaller {base base' : Nat} (h : isDigitOf base' c = false) (hle : base ≤ base') :
    isDigitOf base c = false := by
  unfold isDigitOf at h ⊢
  cases hv : digitValue c with
  | none => rfl
  | some v =>
    simp only [hv, Option.any_some, decide_eq_false_iff_not] at h ⊢
    omega

theorem Ends.takeWhile {base : Nat} (h : Ends rest) (hbase : base ≤ 36) :
    rest.takeWhile (isDigitOf base) = [] ∧ rest.dropWhile (isDigitOf base) = rest := by
  cases rest with
  | nil => exact ⟨rfl, rfl⟩
  | cons c cs =>
    have hc := isDigitOf_smaller (h c rfl) hbase
    exact ⟨List.takeWhile_cons_of_neg (by simp [hc]), List.dropWhile_cons_of_neg (by simp [hc])⟩

theorem Ends.unmarked {cs : List Char} (h : Ends (c :: cs)) : c ≠ 'x' ∧ c ≠ 'X' := by
  have hc := h c rfl
  constructor <;> rintro rfl <;> exact absurd hc (by decide)

theorem numberBase_decimal {s : List Char} (h : s.head? ≠ some '0') :
    strtol.numberBase 0 s = (10, s) := by
  unfold strtol.numberBase
  split
  · simp at h
  · simp at h
  · rfl

theorem numberBase_octal (h : ∀ x c rest', rest = x :: c :: rest' → (x = 'x' ∨ x = 'X') →
    isDigitOf 16 c = false) : strtol.numberBase 0 ('0' :: rest) = (8, '0' :: rest) := by
  match rest with
  | [] => rfl
  | [x] => rfl
  | x :: c :: rest =>
    by_cases hmark : x = 'x' ∨ x = 'X'
    · simp [strtol.numberBase, h x c rest rfl hmark]
    · simp [strtol.numberBase, hmark]

/-- The base of a number as it is written, and its digits, whatever follows it. -/
theorem numberBase_number (h : CNumber text n) (hrest : Ends rest) :
    ∃ base digits, strtol.numberBase 0 (text ++ rest) = (base, digits ++ rest) ∧ base ≤ 36 ∧
      Numeral base digits n := by
  cases h with
  | decimal number first =>
    refine ⟨10, text, numberBase_decimal ?_, by decide, number⟩
    obtain ⟨c, cs, rfl⟩ := List.exists_cons_of_ne_nil number.nonempty
    simpa using first
  | @octal cs n number =>
    refine ⟨8, '0' :: cs, numberBase_octal ?_, by decide, number⟩
    rintro x c rest' heq hmark
    exfalso
    cases cs with
    | nil =>
      have hrest' : rest = x :: c :: rest' := heq
      subst hrest'
      exact absurd hmark (not_or.mpr hrest.unmarked)
    | cons y cs =>
      obtain rfl : y = x := (List.cons.inj heq).1
      exact absurd hmark (not_or.mpr (number.unmarked (by decide)))
  | @hex digits n x number mark =>
    obtain ⟨c, cs, rfl⟩ := List.exists_cons_of_ne_nil number.nonempty
    have hc := number.digits c (by simp)
    exact ⟨16, c :: cs, by simp [strtol.numberBase, mark, hc], by decide, number⟩

theorem number_head (h : CNumber text n) : ∃ c cs, text = c :: cs ∧ c.isDigit = true := by
  cases h with
  | decimal number _ =>
    obtain ⟨c, cs, rfl⟩ := List.exists_cons_of_ne_nil number.nonempty
    refine ⟨c, cs, rfl, ?_⟩
    rw [← isDigitOf_ten]
    exact number.digits c (by simp)
  | octal _ => exact ⟨'0', _, rfl, by decide⟩
  | hex _ _ => exact ⟨'0', _, rfl, by decide⟩

/-- A number has no space and no sign in front. -/
theorem signed_number (h : CNumber text n) :
    strtol.signed ((text ++ rest).dropWhile isSpace) = (1, text ++ rest) := by
  obtain ⟨c, cs, rfl, hdigit⟩ := number_head h
  obtain ⟨hspace, hminus, hplus, -⟩ := digit_not_space hdigit
  rw [List.cons_append, List.dropWhile_cons_of_neg (by rw [hspace]; decide)]
  unfold strtol.signed
  split
  · rename_i heq
    exact absurd (List.cons.inj heq).1 hminus
  · rename_i heq
    exact absurd (List.cons.inj heq).1 hplus
  · rfl

theorem scan_number {base : Nat} {digits : List Char} (number : Numeral base digits n)
    (hbase : base ≤ 36) (hrest : Ends rest) :
    (digits ++ rest).takeWhile (isDigitOf base) = digits ∧
      (digits ++ rest).dropWhile (isDigitOf base) = rest := by
  obtain ⟨htake, hdrop⟩ := hrest.takeWhile hbase
  refine ⟨number.takeWhile_eq htake, ?_⟩
  rw [List.dropWhile_append_of_pos number.digits, hdrop]

/-- A number is read as it is written, up to where it ends. -/
theorem strtol_eq (h : CNumber text n) (hrest : Ends rest) :
    strtol (text ++ rest) 0 = (clampLong n, rest) := by
  obtain ⟨base, digits, hbase, hle, number⟩ := numberBase_number h hrest
  obtain ⟨htake, hdrop⟩ := scan_number number hle hrest
  rw [strtol, if_neg (by decide)]
  simp only [signed_number h, hbase, htake, hdrop]
  cases digits with
  | nil => exact absurd rfl number.nonempty
  | cons d ds => simp [number.value]

theorem clampLong_natCast (hn : n < 2 ^ 63) : clampLong n = n := by
  unfold clampLong
  omega

/-- `strtol` in base 0 reads a number as it is written. -/
theorem strtol_number (h : CNumber text n) (hn : n < 2 ^ 63) : (strtol text 0).1 = n := by
  have hread : strtol (text ++ []) 0 = (clampLong n, []) := strtol_eq h (by simp [Ends])
  rw [List.append_nil] at hread
  rw [hread, clampLong_natCast hn]

/-- The number that stands at the start of a text, behind spaces and a sign: the longest one. No
number counts as zero. -/
inductive NumberAt (s : List Char) : Int → Prop where
  | number {sign : Int} {text rest : List Char} {n : Nat}
      (lead : strtol.signed (s.dropWhile isSpace) = (sign, text ++ rest))
      (number : CNumber text n)
      (longest : ∀ more, more <+: rest → more ≠ [] → ∀ m, ¬ CNumber (text ++ more) m) :
      NumberAt s (clampLong (sign * n))
  | nothing
      (none : ∀ sign text rest n, strtol.signed (s.dropWhile isSpace) = (sign, text ++ rest) →
        ¬ CNumber text n) : NumberAt s 0

theorem longest_eq {text' rest' : List Char} {m : Nat} (h : text ++ rest = text' ++ rest')
    (longest : ∀ more, more <+: rest → more ≠ [] → ∀ m, ¬ CNumber (text ++ more) m)
    (number : CNumber text' m) : text'.length ≤ text.length := by
  by_contra hlt
  obtain ⟨more, rfl⟩ : text <+: text' :=
    List.prefix_of_prefix_length_le ⟨rest, rfl⟩ ⟨rest', h.symm⟩ (by omega)
  have hrest : rest = more ++ rest' := by simpa using h
  refine longest more ⟨rest', hrest.symm⟩ ?_ m number
  rintro rfl
  simp at hlt

theorem NumberAt.unique {s : List Char} {v v' : Int} (h : NumberAt s v) (h' : NumberAt s v') :
    v = v' := by
  cases h with
  | number lead number longest =>
    cases h' with
    | number lead' number' longest' =>
      obtain ⟨rfl, htext⟩ := Prod.mk.inj (lead.symm.trans lead')
      have hlen := Nat.le_antisymm (longest_eq htext.symm longest' number)
        (longest_eq htext longest number')
      obtain ⟨rfl, -⟩ := List.append_inj htext hlen
      rw [number.unique number']
    | nothing none => exact absurd number (none _ _ _ _ lead)
  | nothing none =>
    cases h' with
    | number lead' number' _ => exact absurd number' (none _ _ _ _ lead')
    | nothing _ => rfl

/-- How the base of a number is chosen: by `0x` in front of a digit, by a zero, or else it is
ten. -/
theorem numberBase_cases (s : List Char) :
    (∃ x c rest, s = '0' :: x :: c :: rest ∧ (x = 'x' ∨ x = 'X') ∧ isDigitOf 16 c = true ∧
      strtol.numberBase 0 s = (16, c :: rest)) ∨
    (∃ rest, s = '0' :: rest ∧ strtol.numberBase 0 s = (8, s) ∧
      ∀ x c rest', rest = x :: c :: rest' → (x = 'x' ∨ x = 'X') → isDigitOf 16 c = false) ∨
    (s.head? ≠ some '0' ∧ strtol.numberBase 0 s = (10, s)) := by
  by_cases hzero : s.head? = some '0'
  · obtain ⟨rest, rfl⟩ := List.head?_eq_some_iff.mp hzero
    by_cases hhex : ∃ x c rest', rest = x :: c :: rest' ∧ (x = 'x' ∨ x = 'X') ∧
        isDigitOf 16 c = true
    · obtain ⟨x, c, rest', rfl, hmark, hc⟩ := hhex
      exact Or.inl ⟨x, c, rest', rfl, hmark, hc, by simp [strtol.numberBase, hmark, hc]⟩
    · have hnone : ∀ x c rest', rest = x :: c :: rest' → (x = 'x' ∨ x = 'X') →
          isDigitOf 16 c = false := fun x c rest' heq hmark =>
        Bool.eq_false_iff.mpr fun hc => hhex ⟨x, c, rest', heq, hmark, hc⟩
      exact Or.inr (Or.inl ⟨rest, rfl, numberBase_octal hnone, hnone⟩)
  · exact Or.inr (Or.inr ⟨hzero, numberBase_decimal hzero⟩)

/-- What is left behind the longest run of digits does not go on with one. -/
theorem dropWhile_head {p : Char → Bool} {s more : List Char} (h : more <+: s.dropWhile p)
    (hne : more ≠ []) : ∃ c cs, more = c :: cs ∧ p c = false := by
  obtain ⟨c, cs, rfl⟩ := List.exists_cons_of_ne_nil hne
  obtain ⟨rest, hrest⟩ := h
  refine ⟨c, cs, rfl, ?_⟩
  have hhead := List.head?_dropWhile_not p s
  rw [← hrest] at hhead
  simpa using hhead

/-- The digits of a base at the start of a text, which make a number that goes no further. -/
theorem numeral_takeWhile {base : Nat} {s digits : List Char}
    (h : s.takeWhile (isDigitOf base) = digits) (hne : digits ≠ []) :
    Numeral base digits (numberOf base digits) := by
  refine ⟨hne, fun c hc => ?_, rfl⟩
  rw [← h] at hc
  exact List.mem_takeWhile_imp hc

theorem numeral_more {base m : Nat} {s text more : List Char}
    (hmore : more <+: s.dropWhile (isDigitOf base)) (hne : more ≠ []) :
    ¬ Numeral base (text ++ more) m := by
  obtain ⟨c, cs, rfl, hc⟩ := dropWhile_head hmore hne
  intro number
  have hdigit := number.digits c (by simp)
  rw [hc] at hdigit
  contradiction

theorem head_octal : isDigitOf 8 '0' = true := by decide

section Scanned

variable {digits mark ds : List Char} {sign : Int} {base : Nat} {d : Char}

/-- What is scanned in the base that was chosen is the number, when no longer text is one. -/
theorem numberAt_scanned {s : List Char}
    (hlead : strtol.signed (s.dropWhile isSpace) = (sign, mark ++ digits))
    (hbase : strtol.numberBase 0 (mark ++ digits) = (base, digits))
    (htake : digits.takeWhile (isDigitOf base) = d :: ds)
    (hnumber : CNumber (mark ++ d :: ds) (numberOf base (d :: ds)))
    (longest : ∀ more, more <+: digits.dropWhile (isDigitOf base) → more ≠ [] →
      ∀ m, ¬ CNumber (mark ++ d :: ds ++ more) m) : NumberAt s (strtol s 0).1 := by
  have hread : (strtol s 0).1 = clampLong (sign * numberOf base (d :: ds)) := by
    rw [strtol, if_neg (by decide)]
    simp only [hlead, hbase, htake]
  have hsplit := List.takeWhile_append_dropWhile (p := isDigitOf base) (l := digits)
  rw [htake] at hsplit
  have hlead' : strtol.signed (s.dropWhile isSpace) =
      (sign, mark ++ d :: ds ++ digits.dropWhile (isDigitOf base)) := by
    rw [hlead, List.append_assoc, hsplit]
  rw [hread]
  exact .number hlead' hnumber longest

theorem longest_hex {x : Char} (hmark : x = 'x' ∨ x = 'X') {more : List Char}
    (hmore : more <+: digits.dropWhile (isDigitOf 16)) (hne : more ≠ []) (m : Nat) :
    ¬ CNumber ('0' :: x :: d :: ds ++ more) m := by
  intro hlong
  cases hlong with
  | decimal number first => simp at first
  | octal number => exact absurd hmark (not_or.mpr (number.unmarked (by decide)))
  | hex number mark => exact numeral_more hmore hne number

theorem longest_octal {rest : List Char}
    (hnone : ∀ x c rest', rest = x :: c :: rest' → (x = 'x' ∨ x = 'X') → isDigitOf 16 c = false)
    (htake : ('0' :: rest).takeWhile (isDigitOf 8) = '0' :: ds) {more : List Char}
    (hmore : more <+: ('0' :: rest).dropWhile (isDigitOf 8)) (hne : more ≠ []) (m : Nat) :
    ¬ CNumber ('0' :: ds ++ more) m := by
  have hsplit := List.takeWhile_append_dropWhile (p := isDigitOf 8) (l := '0' :: rest)
  obtain ⟨t, ht⟩ := hmore
  have hall : ds ++ more ++ t = rest := by
    rw [htake, ← ht] at hsplit
    simpa using hsplit
  intro hlong
  generalize htext : '0' :: ds ++ more = text at hlong
  cases hlong with
  | decimal number first =>
    rw [← htext] at first
    simp at first
  | octal number =>
    rw [← htext] at number
    exact numeral_more ⟨t, ht⟩ hne number
  | @hex digits m x number mark =>
    -- a mark behind the zero would have chosen base 16
    obtain ⟨c, cs, rfl⟩ := List.exists_cons_of_ne_nil number.nonempty
    have hmarked : ds ++ more = x :: c :: cs := (List.cons.inj htext).2
    have hc := number.digits c (by simp)
    rw [hmarked] at hall
    rw [hnone x c (cs ++ t) (by rw [← hall]; rfl) mark] at hc
    contradiction

theorem longest_decimal (hfirst : d ≠ '0') {more : List Char}
    (hmore : more <+: digits.dropWhile (isDigitOf 10)) (hne : more ≠ []) (m : Nat) :
    ¬ CNumber (d :: ds ++ more) m := by
  intro hlong
  generalize htext : d :: ds ++ more = text at hlong
  cases hlong with
  | decimal number first =>
    rw [← htext] at number
    exact numeral_more hmore hne number
  | octal number => exact hfirst (List.cons.inj htext).1
  | hex number mark => exact hfirst (List.cons.inj htext).1

end Scanned

/-- `strtol` reads the number that stands at the start of its text. -/
theorem numberAt_strtol (s : List Char) : NumberAt s (strtol s 0).1 := by
  obtain ⟨sign, body, hlead⟩ : ∃ sign body, strtol.signed (s.dropWhile isSpace) = (sign, body) :=
    ⟨_, _, rfl⟩
  rcases numberBase_cases body with ⟨x, c, rest, rfl, hmark, hc, hbase⟩ |
    ⟨rest, rfl, hbase, hnone⟩ | ⟨hhead, hbase⟩
  · cases htake : (c :: rest).takeWhile (isDigitOf 16) with
    | nil => simp [hc] at htake
    | cons d ds =>
      have hnumber : CNumber (['0', x] ++ d :: ds) (numberOf 16 (d :: ds)) :=
        .hex (numeral_takeWhile htake (by simp)) hmark
      exact numberAt_scanned hlead hbase htake hnumber fun more => longest_hex hmark
  · cases htake : ('0' :: rest).takeWhile (isDigitOf 8) with
    | nil => simp [head_octal] at htake
    | cons d ds =>
      have hsplit := List.takeWhile_append_dropWhile (p := isDigitOf 8) (l := '0' :: rest)
      rw [htake] at hsplit
      obtain rfl : d = '0' := (List.cons.inj hsplit).1
      have hnumber : CNumber ([] ++ '0' :: ds) (numberOf 8 ('0' :: ds)) :=
        .octal (numeral_takeWhile htake (by simp))
      exact numberAt_scanned hlead hbase htake hnumber fun more => longest_octal hnone htake
  · cases htake : body.takeWhile (isDigitOf 10) with
    | nil =>
      have hread : (strtol s 0).1 = 0 := by
        rw [strtol, if_neg (by decide)]
        simp only [hlead, hbase, htake]
      rw [hread]
      refine .nothing fun sign' text rest n hlead' number => ?_
      obtain ⟨-, rfl⟩ := Prod.mk.inj (hlead.symm.trans hlead')
      obtain ⟨c, cs, rfl, hdigit⟩ := number_head number
      rw [List.cons_append, List.takeWhile_cons_of_pos (by rwa [isDigitOf_ten])] at htake
      cases htake
    | cons d ds =>
      have hsplit := List.takeWhile_append_dropWhile (p := isDigitOf 10) (l := body)
      rw [htake] at hsplit
      have hfirst : d ≠ '0' := by
        rintro rfl
        rw [← hsplit] at hhead
        simp at hhead
      have hnumber : CNumber ([] ++ d :: ds) (numberOf 10 (d :: ds)) :=
        .decimal (numeral_takeWhile htake (by simp)) (by simpa using hfirst)
      exact @numberAt_scanned body [] ds sign 10 d s hlead hbase htake hnumber
        fun more => longest_decimal hfirst

theorem NumberAt.eq_strtol {s : List Char} {v : Int} (h : NumberAt s v) : v = (strtol s 0).1 :=
  h.unique (numberAt_strtol s)

end DocaApps.Proofs.Strtol
