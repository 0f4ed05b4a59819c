import DocaApps.Common.FwdFields
import DocaApps.Proofs.Strtol

namespace DocaApps.Proofs.RssQueues
open Common.FlowParser Common.FwdFields Lib.Numerals Proofs.Strtol

variable {allocates : Nat → Bool} {text : List Char} {i left k m : Nat}

/-- A pointer to a character of a text, or to its end. -/
def pointer (text : List Char) (k : Nat) : Cursor :=
  if k ≤ text.length then some (text.drop k) else none

theorem pointer_next (text : List Char) (k : Nat) : (pointer text k).next = pointer text (k + 1) := by
  unfold pointer
  rcases Nat.lt_trichotomy k text.length with hk | hk | hk
  · rw [if_pos (by omega), if_pos (by omega), List.drop_eq_getElem_cons hk]
    rfl
  · rw [if_pos (by omega), if_neg (by omega), List.drop_of_length_le (by omega)]
    rfl
  · rw [if_neg (by omega), if_neg (by omega)]
    rfl

theorem strtolAt_pointer (text : List Char) (k : Nat) (h : k ≤ text.length) :
    ∃ rest, strtolAt (pointer text k) 0 = some ((strtol (text.drop k) 0).1, rest) := by
  simp [pointer, h, strtolAt]

theorem strtolAt_outside (h : text.length < k) : strtolAt (pointer text k) 0 = none := by
  simp [pointer, Nat.not_le.mpr h, strtolAt]

/-- The queue that is stored in a place of the array: what stands at twice its index. -/
def queueAt (text : List Char) (i : Nat) : BitVec 16 :=
  BitVec.ofInt 16 (strtol (text.drop (2 * i)) 0).1

/-- The array with its first queues stored. -/
def filled (text : List Char) (i k : Nat) : List (BitVec 16) :=
  (List.range i).map (queueAt text) ++ List.replicate k 0

theorem storeQueue_filled (text : List Char) (i k : Nat) :
    storeQueue (filled text i (k + 1)) i (strtol (text.drop (2 * i)) 0).1 =
      some (filled text (i + 1) k) := by
  have hlen : (filled text i (k + 1)).length = i + (k + 1) := by simp [filled]
  rw [storeQueue, if_pos (by omega)]
  simp only [Int.toNat_natCast, Option.some.injEq]
  unfold filled
  rw [List.set_append_right _ _ (by simp), List.range_succ, List.map_append]
  simp [queueAt, List.replicate_succ]

theorem rssQueuesLoop_filled (h : left = 0 ∨ 2 * (i + left - 1) ≤ text.length) :
    rssQueuesLoop left i (pointer text (2 * i)) (filled text i (left + k)) =
      some (pointer text (2 * (i + left)), filled text (i + left) k) := by
  induction left generalizing i with
  | zero => simp [rssQueuesLoop]
  | succ left ih =>
    obtain ⟨rest, hread⟩ := strtolAt_pointer text (2 * i) (by omega)
    have hstore := storeQueue_filled text i (left + k)
    have hsize : left + 1 + k = left + k + 1 := by omega
    have hnext := ih (i := i + 1) (by omega)
    have hstep : 2 * i + 1 + 1 = 2 * (i + 1) := by omega
    have hend : i + 1 + left = i + (left + 1) := by omega
    rw [hend] at hnext
    simp only [rssQueuesLoop, hread, hsize, hstore, pointer_next, hstep, Option.bind_eq_bind,
      Option.bind_some]
    exact hnext

/-- However the loop ends, the text has moved on by two characters for each queue. -/
theorem rssQueuesLoop_pointer {rssQueues rssQueues' : List (BitVec 16)} {c : Cursor}
    (h : rssQueuesLoop left i (pointer text (2 * k)) rssQueues = some (c, rssQueues')) :
    c = pointer text (2 * (k + left)) := by
  induction left generalizing i k rssQueues with
  | zero =>
    simp only [rssQueuesLoop, Option.some.injEq, Prod.mk.injEq] at h
    exact h.1.symm
  | succ left ih =>
    simp only [rssQueuesLoop, Option.bind_eq_bind, Option.bind_eq_some_iff] at h
    obtain ⟨read, -, stored, -, hrest⟩ := h
    have hstep : 2 * k + 1 + 1 = 2 * (k + 1) := by omega
    rw [pointer_next, pointer_next, hstep] at hrest
    rw [ih hrest]
    congr 1
    omega

theorem rssQueuesSize_natCast (hm : m < 2 ^ 31) : rssQueuesSize m = 2 * m := by
  unfold rssQueuesSize
  omega

theorem pointer_zero (text : List Char) : some text = pointer text (2 * 0) := by simp [pointer]

/-- For each queue the number is taken that stands at twice its index in the text. -/
theorem parseRssQueues_filled (hm : m + 1 < 2 ^ 31)
    (halloc : allocates (2 * (m + 1)) = true) (hlen : 2 * m ≤ text.length) :
    parseRssQueues allocates text (m + 1 : Nat) =
      some (.ok ((List.range (m + 1)).map (queueAt text))) := by
  have hsize := rssQueuesSize_natCast hm
  have hhalf : 2 * (m + 1) / 2 = m + 1 := by omega
  have hlast : ((m + 1 : Nat) : Int) - 1 = m := by omega
  have hempty : List.replicate (m + 1) 0 = filled text 0 (m + 1) := rfl
  have hloop : rssQueuesLoop m 0 (pointer text (2 * 0)) (filled text 0 (m + 1)) = _ :=
    rssQueuesLoop_filled (by omega)
  obtain ⟨rest, hread⟩ := strtolAt_pointer text (2 * m) hlen
  have hstore := storeQueue_filled text m 0
  rw [Nat.zero_add] at hloop
  rw [parseRssQueues, hsize, if_pos halloc, hhalf, hlast, Int.toNat_natCast, hempty,
    pointer_zero text]
  simp only [hloop, hread, Option.bind_eq_bind, Option.bind_some, hstore]
  simp [filled]

theorem parseRssQueues_none_of_last {m : Nat} (halloc : allocates (rssQueuesSize m) = true)
    (hlen : text.length < 2 * (m - 1)) : parseRssQueues allocates text m = none := by
  have hlast : ((m : Int) - 1).toNat = m - 1 := by omega
  rw [parseRssQueues, if_pos halloc, hlast, pointer_zero text]
  cases hloop : rssQueuesLoop (m - 1) 0 (pointer text (2 * 0))
      (List.replicate (rssQueuesSize m / 2) 0) with
  | none => simp only [hloop, Option.bind_eq_bind, Option.bind_none]
  | some x =>
    obtain ⟨c, rssQueues⟩ := x
    obtain rfl := rssQueuesLoop_pointer hloop
    have hnone : strtolAt (pointer text (2 * (0 + (m - 1)))) 0 = none :=
      strtolAt_outside (by omega)
    simp only [hloop, hnone, Option.bind_eq_bind, Option.bind_some, Option.bind_none]

/-- Without a queue the one behind the loop is stored in front of the array. -/
theorem parseRssQueues_none_of_empty {n : Int} (halloc : allocates (rssQueuesSize n) = true)
    (hn : n ≤ 0) : parseRssQueues allocates text n = none := by
  have hlast : (n - 1).toNat = 0 := by omega
  have hstore : ∀ queues v, storeQueue queues (n - 1) v = none := by
    intro queues v
    rw [storeQueue, if_neg (by omega)]
  rw [parseRssQueues, if_pos halloc, hlast]
  simp [rssQueuesLoop, hstore, strtolAt]

/-- The array and the text are left exactly when no queue is asked for, or so many that the last
would be read behind the end of the text. -/
theorem parseRssQueues_inside (m : BitVec 32) :
    parseRssQueues allocates text m.toInt ≠ none ↔
      allocates (rssQueuesSize m.toInt) = false ∨
        1 ≤ m.toInt ∧ 2 * (m.toInt - 1) ≤ text.length := by
  have hrange : m.toInt < 2 ^ 31 := m.toInt_lt
  cases halloc : allocates (rssQueuesSize m.toInt) with
  | false => simp [parseRssQueues, halloc]
  | true =>
    simp only [Bool.true_eq_false, false_or]
    by_cases hm : 1 ≤ m.toInt
    · obtain ⟨n, hn⟩ : ∃ n : Nat, m.toInt = (n + 1 : Nat) := ⟨m.toInt.toNat - 1, by omega⟩
      rw [hn] at halloc hrange ⊢
      have hsmall : n + 1 < 2 ^ 31 := by omega
      by_cases hlen : 2 * n ≤ text.length
      · rw [rssQueuesSize_natCast hsmall] at halloc
        rw [parseRssQueues_filled hsmall halloc hlen]
        simp
        omega
      · rw [parseRssQueues_none_of_last halloc (by omega)]
        simp
        omega
    · rw [parseRssQueues_none_of_empty halloc (by omega)]
      simp [hm]

variable {sep : Char} {q : List Nat} {n : Nat}

/-- The numbers of a list in decimal, joined by the separator. -/
def queuesText (sep : Char) (q : List Nat) : List Char :=
  [sep].intercalate (q.map (Nat.toDigits 10))

/-- Exactly the list is stored. -/
def Stores (allocates : Nat → Bool) (sep : Char) (q : List Nat) : Prop :=
  parseRssQueues allocates (queuesText sep q) q.length = some (.ok (q.map (BitVec.ofNat 16)))

/-- The number that stands at every second character of a text is the one of the list. -/
def NumbersAt (text : List Char) (q : List Nat) : Prop :=
  ∀ i (h : i < q.length), ∃ v, NumberAt (text.drop (2 * i)) v ∧ v % 2 ^ 16 = q[i]

/-- Every number but the last has one digit, and no zero has a mark of base 16 behind it. -/
def OneDigit (sep : Char) (q : List Nat) : Prop :=
  ∀ n ∈ q.dropLast, n < 10 ∧ (n = 0 → sep ≠ 'x' ∧ sep ≠ 'X')

theorem queuesText_cons (sep : Char) (n : Nat) (q : List Nat) (hne : q ≠ []) :
    queuesText sep (n :: q) = Nat.toDigits 10 n ++ sep :: queuesText sep q := by
  obtain ⟨m, q, rfl⟩ := List.exists_cons_of_ne_nil hne
  simp [queuesText, List.intercalate]

theorem queuesText_single (sep : Char) (n : Nat) : queuesText sep [n] = Nat.toDigits 10 n := by
  simp [queuesText, List.intercalate]

theorem queuesText_length (sep : Char) (q : List Nat) : 2 * q.length ≤ (queuesText sep q).length + 1 := by
  induction q with
  | nil => simp
  | cons n q ih =>
    have hdigits := List.length_pos_of_ne_nil (Nat.toDigits_ne_nil (n := n) (b := 10))
    by_cases hne : q = []
    · subst hne
      rw [queuesText_single]
      simp
      omega
    · rw [queuesText_cons sep n q hne]
      simp
      omega

theorem stores_iff (hne : q ≠ []) (hrange : ∀ n ∈ q, n < 2 ^ 16) (hlen : q.length < 2 ^ 31)
    (halloc : allocates (2 * q.length) = true) :
    Stores allocates sep q ↔ NumbersAt (queuesText sep q) q := by
  obtain ⟨m, hm⟩ : ∃ m, q.length = m + 1 := ⟨q.length - 1, by
    have := List.length_pos_of_ne_nil hne
    omega⟩
  have htext := queuesText_length sep q
  rw [Stores, hm, parseRssQueues_filled (by omega) (by rwa [← hm]) (by omega)]
  have hqueue : ∀ i (h : i < q.length), queueAt (queuesText sep q) i = BitVec.ofNat 16 q[i] ↔
      ∃ v, NumberAt ((queuesText sep q).drop (2 * i)) v ∧ v % 2 ^ 16 = q[i] := by
    intro i h
    have hsmall := hrange q[i] (List.getElem_mem h)
    have hread := numberAt_strtol ((queuesText sep q).drop (2 * i))
    have hvalue : ∀ v : Int, BitVec.ofInt 16 v = BitVec.ofNat 16 q[i] ↔ v % 2 ^ 16 = q[i] := by
      intro v
      rw [← BitVec.toNat_inj, BitVec.toNat_ofInt, BitVec.toNat_ofNat]
      omega
    rw [queueAt, hvalue]
    constructor
    · intro heq
      exact ⟨_, hread, heq⟩
    · rintro ⟨v, hv, heq⟩
      rwa [← hv.unique hread]
  simp only [Option.some.injEq, Except.ok.injEq]
  rw [List.ext_getElem_iff]
  simp only [List.length_map, List.length_range, List.getElem_map, List.getElem_range, hm,
    true_and]
  constructor
  · intro h i hi
    exact (hqueue i hi).mp (h i (by omega) (by omega))
  · intro h i _ hi
    exact (hqueue i (by omega)).mpr (h i (by omega))

theorem toDigits_head (n : Nat) (hn : n ≠ 0) : (Nat.toDigits 10 n).head? ≠ some '0' := by
  induction n using Nat.strong_induction_on with
  | h n ih =>
    rcases Nat.lt_or_ge n 10 with hlt | hge
    · have hall : ∀ d < 10, d ≠ 0 → d.digitChar ≠ '0' := by decide
      simpa [Nat.toDigits_of_lt_base hlt] using hall n hlt hn
    · rw [Nat.toDigits_of_base_le (by decide) hge, List.head?_append_of_ne_nil _ Nat.toDigits_ne_nil]
      exact ih (n / 10) (by omega) (by omega)

theorem toDigits_number (n : Nat) : CNumber (Nat.toDigits 10 n) n := by
  by_cases hn : n = 0
  · subst hn
    exact .octal ⟨by simp, by simp [isDigitOf, digitValue], rfl⟩
  · exact .decimal (numeral_toDigits n) (toDigits_head n hn)

/-- A number in decimal stands where it begins, whatever follows its separator. -/
theorem numberAt_toDigits (hn : n < 2 ^ 16) (hsep : isDigitOf 10 sep = false)
    {rest : List Char}
    (hrest : rest = [] ∨ (n = 0 → sep ≠ 'x' ∧ sep ≠ 'X') ∧ ∃ t, rest = sep :: t) :
    NumberAt (Nat.toDigits 10 n ++ rest) n := by
  have hvalue : clampLong (1 * n) = n := by
    rw [one_mul]
    exact clampLong_natCast (by omega)
  rw [← hvalue]
  refine .number (signed_number (toDigits_number n)) (toDigits_number n) ?_
  rintro more ⟨t, rfl⟩ hne m hlong
  obtain ⟨cs, rfl, hmark⟩ :
      ∃ cs, more = sep :: cs ∧ (n = 0 → sep ≠ 'x' ∧ sep ≠ 'X') := by
    obtain ⟨c, cs, rfl⟩ := List.exists_cons_of_ne_nil hne
    rcases hrest with hnil | ⟨hmark, t', heq⟩
    · simp at hnil
    · exact ⟨cs, by rw [(List.cons.inj heq).1], hmark⟩
  have hoctal : isDigitOf 8 sep = false := isDigitOf_smaller hsep (by decide)
  generalize htext : Nat.toDigits 10 n ++ sep :: cs = text at hlong
  cases hlong with
  | decimal number _ =>
    have hdigit := number.digits sep (by simp [← htext])
    rw [hsep] at hdigit
    contradiction
  | octal number =>
    have hdigit := number.digits sep (by simp [← htext])
    rw [hoctal] at hdigit
    contradiction
  | hex number mark =>
    by_cases hzero : n = 0
    · subst hzero
      obtain ⟨-, heq⟩ := List.cons.inj htext
      rw [← (List.cons.inj heq).1] at mark
      exact absurd mark (not_or.mpr (hmark rfl))
    · apply toDigits_head n hzero
      have hhead := congrArg List.head? htext
      rwa [List.head?_append_of_ne_nil _ Nat.toDigits_ne_nil] at hhead

theorem numbersAt_head (hn : n < 2 ^ 16) (hsep : isDigitOf 10 sep = false)
    {rest : List Char}
    (hrest : rest = [] ∨ (n = 0 → sep ≠ 'x' ∧ sep ≠ 'X') ∧ ∃ t, rest = sep :: t) :
    ∃ v, NumberAt (Nat.toDigits 10 n ++ rest) v ∧ v % 2 ^ 16 = n :=
  ⟨n, numberAt_toDigits hn hsep hrest, by omega⟩

/-- With one digit for each number but the last, every number stands at twice its index. -/
theorem numbersAt_of_oneDigit (hrange : ∀ n ∈ q, n < 2 ^ 16) (hsep : isDigitOf 10 sep = false)
    (h : OneDigit sep q) : NumbersAt (queuesText sep q) q := by
  induction q with
  | nil =>
    intro i hi
    simp at hi
  | cons n q ih =>
    have hn := hrange n (by simp)
    by_cases hne : q = []
    · subst hne
      intro i hi
      obtain rfl : i = 0 := by simpa using hi
      simpa [queuesText_single] using numbersAt_head hn hsep (.inl rfl)
    · have hsplit : (n :: q).dropLast = n :: q.dropLast := List.dropLast_cons_of_ne_nil hne
      have hdigit := h n (by simp [hsplit])
      have htail := ih (fun m hm => hrange m (by simp [hm])) (fun m hm => h m (by simp [hsplit, hm]))
      intro i hi
      rw [queuesText_cons sep n q hne]
      cases i with
      | zero => simpa using numbersAt_head hn hsep (.inr ⟨hdigit.2, _, rfl⟩)
      | succ i =>
        have hdrop : 2 * (i + 1) = 2 * i + 1 + 1 := by omega
        rw [Nat.toDigits_of_lt_base hdigit.1, hdrop]
        simpa using htail i (by simpa using hi)

/-- A list is stored exactly when each of its numbers stands at twice its index in the text, as it
does when all but the last have one digit; and the array and the text are left exactly for a count
that is not positive or more than the text has pairs of characters for. -/
theorem rssQueues_iff (allocates : Nat → Bool) (sep : Char) (q : List Nat) (text : List Char)
    (m : BitVec 32) (hne : q ≠ []) (hrange : ∀ n ∈ q, n < 2 ^ 16) (hlen : q.length < 2 ^ 31)
    (hsep : isDigitOf 10 sep = false) (_hcomma : sep ≠ ',')
    (halloc : allocates (2 * q.length) = true) :
    (Stores allocates sep q ↔ NumbersAt (queuesText sep q) q) ∧
      (OneDigit sep q → Stores allocates sep q) ∧
      (parseRssQueues allocates text m.toInt ≠ none ↔
        allocates (rssQueuesSize m.toInt) = false ∨
          1 ≤ m.toInt ∧ 2 * (m.toInt - 1) ≤ text.length) := by
  have hstores : Stores allocates sep q ↔ NumbersAt (queuesText sep q) q :=
    stores_iff hne hrange hlen halloc
  refine ⟨hstores, ?_, parseRssQueues_inside m⟩
  intro hone
  exact hstores.mpr (numbersAt_of_oneDigit hrange hsep hone)

theorem rssQueues_three_twelve :
    (fun _ : Nat => true) (2 * [3, 12].length) = true ∧ Stores (fun _ => true) ';' [3, 12] :=
  ⟨rfl, (rssQueues_iff (fun _ => true) ';' [3, 12] [] 0 (by simp) (by simp) (by simp)
    (by decide) (by decide) rfl).2.1 (by simp [OneDigit])⟩

/-- Two numbers of two digits are not stored as they are written, no queue at all is stored in
front of the array, and a second one is read behind the end of a text with one. -/
theorem rssQueues_wide :
    ¬ Stores (fun _ => true) ';' [12, 34] ∧
      parseRssQueues (fun _ => true) ['1'] 0 = none ∧
      parseRssQueues (fun _ => true) ['1'] 2 = none := by
  refine ⟨?_, by decide, by decide⟩
  unfold Stores
  decide

end DocaApps.Proofs.RssQueues
