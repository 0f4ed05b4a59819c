import DocaApps.Ipsec.Key
import DocaApps.Lib.HexText

namespace DocaApps.Proofs.KeyParsing
open Common.Pack Lib.HexText Ipsec.Rules Ipsec.Key

/-- An upper case letter among the hexadecimal digits. -/
def IsUpper (c : Byte) : Prop := 0x41#8 ≤ c ∧ c ≤ 0x46#8

instance (c : Byte) : Decidable (IsUpper c) := inferInstanceAs (Decidable (_ ∧ _))

section Digits

variable {c hi lo b : Byte} {v : Nat}

/-- The value of an upper case letter is short of its numeric value by the distance of the
two cases. -/
theorem digitOf_eq (c : Byte) : digitOf c =
    (hexValue c).map fun v => BitVec.ofNat 8 v + if IsUpper c then 0xe0 else 0 := by
  revert c
  decide +kernel

theorem digitOf_hex (h : hexValue c = some v) :
    digitOf c = some (BitVec.ofNat 8 v + if IsUpper c then 0xe0 else 0) := by
  rw [digitOf_eq, h]
  rfl

theorem digitOf_eq_none_iff : digitOf c = none ↔ hexValue c = none := by
  rw [digitOf_eq]
  simp only [Option.map_eq_none_iff]

/-- What two digits leave in a byte that was zero. -/
def storedByte (b lo : Byte) : Byte := if IsUpper lo then b + 0xe0 else b

theorem storedByte_eq_iff : storedByte b lo = b ↔ ¬ IsUpper lo := by
  unfold storedByte
  split
  · next h =>
    simp only [h, not_true_eq_false, iff_false]
    bv_omega
  · next h => simp [h]

/-- The digit that was shifted keeps nothing of its case. -/
theorem shift_high (a : Byte) : (a + 0xe0) <<< 4 = a <<< 4 := by
  revert a
  decide +kernel

theorem halves (b : Byte) :
    (BitVec.ofNat 8 (b.toNat / 16)) <<< 4 + BitVec.ofNat 8 (b.toNat % 16) = b := by
  revert b
  decide +kernel

theorem pair_stored (hhi : hexValue hi = some (b.toNat / 16))
    (hlo : hexValue lo = some (b.toNat % 16)) : ∃ dh dl, digitOf hi = some dh ∧
      digitOf lo = some dl ∧ ((0 : Byte) <<< 4 + dh) <<< 4 + dl = storedByte b lo := by
  refine ⟨_, _, digitOf_hex hhi, digitOf_hex hlo, ?_⟩
  have hhigh : ((0 : Byte) <<< 4 +
      (BitVec.ofNat 8 (b.toNat / 16) + if IsUpper hi then 0xe0 else 0)) <<< 4 =
        (BitVec.ofNat 8 (b.toNat / 16)) <<< 4 := by
    have hzero : (0 : Byte) <<< 4 = 0 := by decide
    rw [hzero, zero_add]
    split
    · exact shift_high _
    · rw [add_zero]
  rw [hhigh, ← BitVec.add_assoc, halves]
  unfold storedByte
  split
  · rfl
  · rw [add_zero]

end Digits

section Loop

variable {bs text done key : List Byte} {keyType : KeyType} {i room : Nat}

/-- What a text leaves in the bytes of a key that were zero. -/
def storedBytes : List Byte → List Byte → List Byte
  | b :: bs, _ :: lo :: text => storedByte b lo :: storedBytes bs text
  | _, _ => []

/-- No upper case letter stands for the low half of a byte. -/
def LowDigitsLower (text : List Byte) : Prop :=
  ∀ i c, text[2 * i + 1]? = some c → ¬ IsUpper c

theorem lowDigitsLower_cons {hi lo : Byte} :
    LowDigitsLower (hi :: lo :: text) ↔ ¬ IsUpper lo ∧ LowDigitsLower text := by
  constructor
  · intro h
    exact ⟨h 0 lo rfl, fun i c hc => h (i + 1) c hc⟩
  · rintro ⟨hlo, hrest⟩ i c hc
    cases i with
    | zero =>
      cases hc
      exact hlo
    | succ i => exact hrest i c hc

theorem storedBytes_eq_iff (h : Writes bs text) :
    storedBytes bs text = bs ↔ LowDigitsLower text := by
  induction h with
  | nil =>
    simp only [storedBytes, true_iff]
    intro i c hc
    cases hc
  | cons high low rest ih =>
    simp only [storedBytes, List.cons.injEq, storedByte_eq_iff, ih, lowDigitsLower_cons]

theorem storedBytes_length (h : Writes bs text) : (storedBytes bs text).length = bs.length := by
  induction h with
  | nil => rfl
  | cons high low rest ih => simp only [storedBytes, List.length_cons, ih]

theorem modify_here (done : List Byte) (k : Byte) (rest : List Byte) (f : Byte → Byte) :
    (done ++ k :: rest).modify done.length f = done ++ f k :: rest := by
  induction done with
  | nil => rfl
  | cons d done ih => simpa using ih

/-- The loop over a text fills the key byte by byte. -/
theorem parseDigits_writes (h : Writes bs text) (done : List Byte) (hroom : bs.length ≤ room) :
    parseDigits (2 * done.length) text (done ++ List.replicate room 0) =
      (none, done ++ storedBytes bs text ++ List.replicate (room - bs.length) 0) := by
  induction h generalizing done room with
  | nil => simp [parseDigits, storedBytes]
  | @cons b hi lo bs text high low rest ih =>
    obtain ⟨dh, dl, hdh, hdl, hstored⟩ := pair_stored high low
    obtain ⟨room, rfl⟩ := Nat.exists_eq_add_of_le' (Nat.one_le_of_lt hroom)
    have hhigh : 2 * done.length / 2 = done.length := by omega
    have hlow : (2 * done.length + 1) / 2 = done.length := by omega
    have hlength : (done ++ [storedByte b lo]).length = done.length + 1 := by simp
    have hnext : 2 * done.length + 1 + 1 = 2 * (done ++ [storedByte b lo]).length := by
      rw [hlength]
      ring
    have hrest : bs.length ≤ room := by
      simp only [List.length_cons] at hroom
      omega
    have hkey : done ++ storedByte b lo :: List.replicate room 0 =
        done ++ [storedByte b lo] ++ List.replicate room 0 := by simp
    simp only [parseDigits, hdh, hdl, List.replicate_succ, hhigh, hlow, modify_here, hstored,
      hnext, hkey]
    rw [ih _ hrest]
    simp [storedBytes]

/-- The loop fails at the first character that is no digit, and only there. -/
theorem parseDigits_error (i : Nat) (text key : List Byte) : (parseDigits i text key).1 =
    if ∀ c ∈ text, (hexValue c).isSome then none else some .invalidValue := by
  induction text generalizing i key with
  | nil => simp [parseDigits]
  | cons c text ih =>
    unfold parseDigits
    cases hc : digitOf c with
    | none => simp [digitOf_eq_none_iff.mp hc]
    | some digit =>
      have hhex : (hexValue c).isSome := by
        rw [Option.isSome_iff_ne_none]
        intro hnone
        rw [digitOf_eq_none_iff.mpr hnone] at hc
        cases hc
      simp only [ih, List.forall_mem_cons, hhex, true_and]

end Loop

section Key

variable {bs text key : List Byte} {keyType : KeyType}

/-- The bytes of a key of the type. -/
def keySize (keyType : KeyType) : Nat := if keyType = .aesgcm128 then 16 else 32

theorem maxKeySize_eq (keyType : KeyType) : maxKeySize keyType = 2 * keySize keyType := by
  cases keyType <;> rfl

theorem keySize_le (keyType : KeyType) : keySize keyType ≤ maxKeyLen := by
  cases keyType <;> decide

/-- A text of the right length that has only digits. -/
def Admitted (keyType : KeyType) (text : List Byte) : Prop :=
  text.length ≤ 2 * keySize keyType ∧ text.length % 2 = 0 ∧ ∀ c ∈ text, (hexValue c).isSome

instance (keyType : KeyType) (text : List Byte) : Decidable (Admitted keyType text) :=
  inferInstanceAs (Decidable (_ ∧ _ ∧ _))

theorem admitted_iff_writes :
    Admitted keyType text ↔ ∃ bs, Writes bs text ∧ bs.length ≤ keySize keyType := by
  constructor
  · rintro ⟨hlength, heven, hhex⟩
    obtain ⟨bs, hbs⟩ := exists_writes (text.length / 2) (by omega) hhex
    have := hbs.length
    exact ⟨bs, hbs, by omega⟩
  · rintro ⟨bs, hbs, hfits⟩
    have := hbs.length
    exact ⟨by omega, by omega, hbs.hex⟩

theorem take_cString (n : Nat) (text : List Byte) (hn : n = (cString text).length) :
    text.take n = cString text := by
  subst hn
  exact (List.prefix_iff_eq_take.mp (List.takeWhile_prefix _)).symm

/-- What `create_key` does with a string, by its characters before the first zero. -/
theorem createKey_string (text : List Byte) (keyType : KeyType) (key : List Byte) :
    createKey (.string text) keyType key =
      if (cString text).length ≤ 2 * keySize keyType ∧ (cString text).length % 2 = 0 then
        parseDigits 0 (cString text) key
      else (some .invalidValue, key) := by
  have hmax := maxKeySize_eq keyType
  simp only [createKey]
  by_cases hlength : (cString text).length ≤ 2 * keySize keyType
  · have hmin : strnlen text (maxKeySize keyType + 1) = (cString text).length :=
      Nat.min_eq_left (by omega)
    rw [hmin, if_neg (by omega)]
    by_cases heven : (cString text).length % 2 = 0
    · rw [if_neg (not_not_intro heven), if_pos ⟨hlength, heven⟩]
      unfold parseHexToBytes
      rw [take_cString _ text rfl]
    · rw [if_pos heven, if_neg fun h => heven h.2]
  · have hmin : strnlen text (maxKeySize keyType + 1) = maxKeySize keyType + 1 :=
      Nat.min_eq_right (by omega)
    rw [hmin, if_pos rfl, if_neg fun h => hlength h.1]

/-- The text is refused unless what is before its first zero is admitted. -/
theorem createKey_error (text : List Byte) (keyType : KeyType) (key : List Byte) :
    (createKey (.string text) keyType key).1 =
      if Admitted keyType (cString text) then none else some .invalidValue := by
  rw [createKey_string]
  by_cases h : (cString text).length ≤ 2 * keySize keyType ∧ (cString text).length % 2 = 0
  · rw [if_pos h, parseDigits_error]
    by_cases hhex : ∀ c ∈ cString text, (hexValue c).isSome
    · rw [if_pos hhex, if_pos ⟨h.1, h.2, hhex⟩]
    · rw [if_neg hhex, if_neg fun hadmitted => hhex hadmitted.2.2]
  · rw [if_neg h, if_neg fun hadmitted => h ⟨hadmitted.1, hadmitted.2.1⟩]

theorem createKey_stored (text : List Byte) (h : Writes bs (cString text)) (hfits : bs.length ≤ keySize keyType) :
    createKey (.string text) keyType zeroKey = (none, storedBytes bs (cString text) ++
      List.replicate (maxKeyLen - bs.length) 0) := by
  obtain ⟨hlength, heven, -⟩ := admitted_iff_writes.mpr ⟨bs, h, hfits⟩
  rw [createKey_string, if_pos ⟨hlength, heven⟩]
  exact parseDigits_writes h [] (hfits.trans (keySize_le keyType))

/-- Digits in either case give the bytes they write, and every other text is refused. -/
def KeyParsed (keyType : KeyType) (text : List Byte) : Prop :=
  (∀ bs, bs.length ≤ keySize keyType → Writes bs text →
    createKey (.string text) keyType zeroKey =
      (none, bs ++ List.replicate (maxKeyLen - bs.length) 0)) ∧
  ((∃ c ∈ text, hexValue c = none) ∨ text.length % 2 = 1 ∨ 2 * keySize keyType < text.length →
    (createKey (.string text) keyType zeroKey).1 ≠ none)

theorem not_admitted_iff : ¬ Admitted keyType text ↔ (∃ c ∈ text, hexValue c = none) ∨
    text.length % 2 = 1 ∨ 2 * keySize keyType < text.length := by
  have hhex : (¬ ∀ c ∈ text, (hexValue c).isSome) ↔ ∃ c ∈ text, hexValue c = none := by
    simp only [not_forall, Option.not_isSome_iff_eq_none, exists_prop]
  unfold Admitted
  rw [← hhex, not_and_or, not_and_or]
  constructor
  · rintro (h | h | h)
    · exact .inr (.inr (by omega))
    · exact .inr (.inl (by omega))
    · exact .inl h
  · rintro (h | h | h)
    · exact .inr (.inr h)
    · exact .inr (.inl (by omega))
    · exact .inl (by omega)

theorem hexValue_zero : hexValue 0 = none := by decide

/-- A text of digits has no zero. -/
theorem Admitted.cString (h : Admitted keyType text) : Ipsec.Key.cString text = text := by
  refine List.takeWhile_eq_self_iff.mpr ?_
  intro c hc
  have hhex := h.2.2 c hc
  rw [decide_eq_true_eq]
  rintro rfl
  rw [hexValue_zero] at hhex
  cases hhex

/-- A key is parsed as it should be unless its text has an upper case letter for the low half of
a byte, or is cut at a zero after digits that alone would make a key. -/
theorem key_parsed_iff (keyType : KeyType) (text : List Byte) :
    KeyParsed keyType text ↔
      (Admitted keyType (cString text) → cString text = text ∧ LowDigitsLower text) := by
  constructor
  · rintro ⟨hstored, hrefused⟩ hadmitted
    have haccepted : (createKey (.string text) keyType zeroKey).1 = none := by
      rw [createKey_error, if_pos hadmitted]
    have htext : Admitted keyType text := by
      by_contra hnot
      exact hrefused (not_admitted_iff.mp hnot) haccepted
    obtain ⟨bs, hbs, hfits⟩ := admitted_iff_writes.mp htext
    have hwhole := htext.cString
    refine ⟨hwhole, (storedBytes_eq_iff hbs).mp ?_⟩
    have hgot := createKey_stored text (hwhole.symm ▸ hbs) hfits
    rw [hstored bs hfits hbs, hwhole] at hgot
    exact (List.append_inj_left (congrArg Prod.snd hgot) (storedBytes_length hbs).symm).symm
  · intro h
    constructor
    · intro bs hfits hbs
      have htext : Admitted keyType text := admitted_iff_writes.mpr ⟨bs, hbs, hfits⟩
      have hwhole := htext.cString
      have hlower := (h (hwhole.symm ▸ htext)).2
      have hgot := createKey_stored text (hwhole.symm ▸ hbs) hfits
      rw [hgot, hwhole, (storedBytes_eq_iff hbs).mpr hlower]
    · intro hbad haccepted
      rw [createKey_error] at haccepted
      have hadmitted : Admitted keyType (cString text) := by
        by_contra hnot
        rw [if_neg hnot] at haccepted
        cases haccepted
      have hwhole := (h hadmitted).1
      rw [hwhole] at hadmitted
      exact not_admitted_iff.mpr hbad hadmitted

/-- The text "1A" gives the byte fa. -/
theorem upper_low_digit_misread :
    createKey (.string [0x31, 0x41]) .aesgcm128 zeroKey = (none, 0xfa :: List.replicate 31 0) ∧
      ¬ KeyParsed .aesgcm128 [0x31, 0x41] := by
  have hwrites : Writes [0x1a] [0x31, 0x41] := .cons (by decide) (by decide) .nil
  have hgot : createKey (.string [0x31, 0x41]) .aesgcm128 zeroKey =
      (none, 0xfa :: List.replicate 31 0) := by decide +kernel
  refine ⟨hgot, ?_⟩
  rintro ⟨hstored, -⟩
  have hwanted := hstored [0x1a] (by decide) hwrites
  rw [hgot] at hwanted
  exact absurd hwanted (by decide +kernel)

end Key

end DocaApps.Proofs.KeyParsing
