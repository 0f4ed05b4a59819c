import DocaApps.Common.FlowParser

namespace DocaApps.Proofs.FlowParser
open Common.FlowPipe Common.FlowParser Lib.Numerals

variable {rest : List Char}

def dottedQuad (a b c d : BitVec 8) : List Char :=
  Nat.toDigits 10 a.toNat ++ '.' :: (Nat.toDigits 10 b.toNat ++ '.' ::
    (Nat.toDigits 10 c.toNat ++ '.' :: Nat.toDigits 10 d.toNat))

theorem leadingDigits_eq (s : List Char) :
    leadingDigits s = numberOf 10 (s.takeWhile Char.isDigit) := by
  have hfold : ∀ (text : List Char) (n : Nat), (∀ c ∈ text, c.isDigit = true) →
      text.foldl (fun (n : Int) c => 10 * n + (c.toNat - 48 : Int)) n =
        (text.foldl (fun n c => 10 * n + (digitValue c).getD 0) n : Nat) := by
    intro text
    induction text with
    | nil => simp
    | cons c text ih =>
      intro n hdigits
      have hvalue := digitValue_isDigit (hdigits c (by simp))
      have hrange := Char.isDigit_iff_toNat.mp (hdigits c (by simp))
      have hzero : '0'.toNat = 48 := rfl
      have hstep : 10 * (n : Int) + (c.toNat - 48 : Int) =
          (10 * n + (digitValue c).getD 0 : Nat) := by
        rw [hvalue, Option.getD_some]
        omega
      rw [List.foldl_cons, List.foldl_cons, hstep]
      exact ih _ fun d hd => hdigits d (by simp [hd])
  exact hfold _ 0 fun c hc => List.mem_takeWhile_imp hc

theorem digit_not_space {c : Char} (h : c.isDigit = true) :
    isSpace c = false ∧ c ≠ '-' ∧ c ≠ '+' ∧ c ≠ '.' := by
  have hrange := Char.isDigit_iff_toNat.mp h
  have hzero : '0'.toNat = 48 := rfl
  have hnine : '9'.toNat = 57 := rfl
  refine ⟨?_, ?_, ?_, ?_⟩
  · simp only [isSpace, decide_eq_false_iff_not]
    rintro (rfl | hspace)
    · contradiction
    · omega
  · rintro rfl
    contradiction
  · rintro rfl
    contradiction
  · rintro rfl
    contradiction

theorem takeWhile_isDigit (s : List Char) :
    s.takeWhile Char.isDigit = s.takeWhile (isDigitOf 10) := by
  congr 1
  funext c
  exact isDigitOf_ten.symm

theorem atoi_numeral {text : List Char} {n : Nat} (h : Numeral 10 text n) (hn : n < 2 ^ 63)
    (hrest : rest.takeWhile Char.isDigit = []) : atoi (text ++ rest) = n := by
  have hvalue : leadingDigits (text ++ rest) = n := by
    rw [takeWhile_isDigit] at hrest
    rw [leadingDigits_eq, takeWhile_isDigit, h.takeWhile_eq hrest, h.value]
  obtain ⟨c, cs, rfl⟩ := List.exists_cons_of_ne_nil h.nonempty
  have hdigit : c.isDigit = true := by
    rw [← isDigitOf_ten]
    exact h.digits c (by simp)
  obtain ⟨hspace, hminus, hplus, -⟩ := digit_not_space hdigit
  have hclamp : clampLong n = n := by
    unfold clampLong
    omega
  rw [List.cons_append] at hvalue ⊢
  unfold atoi
  rw [List.dropWhile_cons_of_neg (by rw [hspace]; decide)]
  split
  · rename_i heq
    exact absurd (List.cons.inj heq).1 hminus
  · rename_i heq
    exact absurd (List.cons.inj heq).1 hplus
  · rw [hvalue, hclamp]

theorem afterDot_eq (s : List Char) :
    afterDot s = match afterChar s '.' with
      | none => .error .invalidValue
      | some rest => .ok rest := by
  unfold afterDot afterChar
  cases s.dropWhile (· ≠ '.') <;> rfl

theorem afterChar_append {c : Char} {text : List Char} (h : c ∉ text) :
    afterChar (text ++ c :: rest) c = some rest := by
  have hskip : ∀ d ∈ text, decide (d ≠ c) = true := by
    intro d hd
    apply decide_eq_true
    rintro rfl
    exact h hd
  rw [afterChar, List.dropWhile_append_of_pos hskip, List.dropWhile_cons_of_neg (by simp)]

/-- A literal is read as the numbers it writes. -/
theorem parseIpv4Str_literal {s : List Char} {a b c d : Nat}
    (h : Literal 10 256 '.' s [a, b, c, d]) :
    parseIpv4Str s = .ok (rteCpuToBe32 (BitVec.ofNat 32
      (a * 2 ^ 24 + b * 2 ^ 16 + c * 2 ^ 8 + d))) := by
  have hsep : isDigitOf 10 '.' = false := by decide
  have hne : s ≠ uint32ChangeableField := by
    rintro rfl
    have hcount := h.count_sep hsep
    have hnone : uint32ChangeableField.count '.' = 0 := by decide
    rw [hnone] at hcount
    simp at hcount
  have hrange := h.bounded
  simp only [List.mem_cons, List.not_mem_nil, or_false, forall_eq_or_imp, forall_eq] at hrange
  obtain ⟨ha, hb, hc, hd⟩ := hrange
  rcases h with _ | ⟨na, -, h⟩
  rcases h with _ | ⟨nb, -, h⟩
  rcases h with _ | ⟨nc, -, h⟩
  rcases h with ⟨nd, -⟩ | ⟨-, -, h⟩
  · have hdot : ∀ rest : List Char, ('.' :: rest).takeWhile Char.isDigit = [] := by
      intro rest
      exact List.takeWhile_cons_of_neg (by decide)
    have hlast : atoi (_ ++ []) = d := atoi_numeral nd (by omega) rfl
    rw [List.append_nil] at hlast
    have hsum : beIpv4Addr a b c d = rteCpuToBe32 (BitVec.ofNat 32
        (a * 2 ^ 24 + b * 2 ^ 16 + c * 2 ^ 8 + d)) := by
      unfold beIpv4Addr
      congr 1
      apply BitVec.eq_of_toNat_eq
      simp only [BitVec.ofInt_natCast, BitVec.toNat_add, BitVec.toNat_shiftLeft,
        BitVec.toNat_ofNat, Nat.shiftLeft_eq]
      omega
    have hafter : ∀ {text rest : List Char} {n : Nat}, Numeral 10 text n →
        afterDot (text ++ '.' :: rest) = .ok rest := by
      intro text rest n hn
      rw [afterDot_eq, afterChar_append (hn.sep_notMem hsep)]
    rw [parseIpv4Str, if_neg hne, hafter na, atoi_numeral na (by omega) (hdot _)]
    change (afterDot _ >>= fun ptr₂ => afterDot ptr₂ >>= _) = _
    rw [hafter nb, atoi_numeral nb (by omega) (hdot _)]
    change (afterDot _ >>= _) = _
    rw [hafter nc, atoi_numeral nc (by omega) (hdot _)]
    change Except.ok (beIpv4Addr _ _ _ (atoi _)) = _
    rw [hlast, hsum]
  · cases h

theorem dottedQuad_literal (a b c d : BitVec 8) :
    Literal 10 256 '.' (dottedQuad a b c d) [a.toNat, b.toNat, c.toNat, d.toNat] :=
  .cons (numeral_toDigits _) a.isLt (.cons (numeral_toDigits _) b.isLt
    (.cons (numeral_toDigits _) c.isLt (.last (numeral_toDigits _) d.isLt)))

/-- The address that four bytes in decimal write is the one with these bytes, the first in
front. -/
theorem parseIpv4Str_dottedQuad (a b c d : BitVec 8) :
    parseIpv4Str (dottedQuad a b c d) = .ok (rteCpuToBe32 (BitVec.ofNat 32
      (a.toNat * 2 ^ 24 + b.toNat * 2 ^ 16 + c.toNat * 2 ^ 8 + d.toNat))) :=
  parseIpv4Str_literal (dottedQuad_literal a b c d)

end DocaApps.Proofs.FlowParser
