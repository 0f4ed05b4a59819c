import DocaApps.Lib.CStrings
import DocaApps.Lib.Numerals
import DocaApps.Pcc.Core
import DocaApps.Proofs.FlowParser

namespace DocaApps.Proofs.PccThreads
open Lib.CStrings (tokens tokens_append tokens_of_notMem tokens_separators)
open Common.FlowParser (leadingDigits)
open Pcc.Core Lib.Numerals Proofs.FlowParser

section Words
variable {s t rest sp a b : List Char} {c : Char} {ts : List (List Char)} {n : Nat}

structure Token (t : List Char) : Prop where
  nonempty : t ≠ []
  noSpace : ' ' ∉ t

/-- A text of spaces, or with a token behind its spaces, which the text ends with or a space
follows. -/
inductive Words : List Char → List (List Char) → Prop where
  | blank {sp : List Char} (spaces : ∀ c ∈ sp, c = ' ') : Words sp []
  | last {sp t : List Char} (spaces : ∀ c ∈ sp, c = ' ') (token : Token t) : Words (sp ++ t) [t]
  | cons {sp t rest : List Char} {ts : List (List Char)} (spaces : ∀ c ∈ sp, c = ' ')
      (token : Token t) (tail : Words rest ts) : Words (sp ++ t ++ ' ' :: rest) (t :: ts)

theorem exists_words (s : List Char) : ∃ ts, Words s ts := by
  induction hlen : s.length using Nat.strong_induction_on generalizing s with
  | _ n ih =>
    subst hlen
    have hspaces : ∀ c ∈ s.takeWhile (· = ' '), c = ' ' := fun c hc => by
      simpa using List.mem_takeWhile_imp hc
    have hsplit : s = s.takeWhile (· = ' ') ++ s.dropWhile (· = ' ') :=
      List.takeWhile_append_dropWhile.symm
    cases hdrop : s.dropWhile (· = ' ') with
    | nil =>
      rw [hdrop, List.append_nil] at hsplit
      exact ⟨[], hsplit ▸ .blank hspaces⟩
    | cons c r =>
      have hc : c ≠ ' ' := by
        have hhead := List.head?_dropWhile_not (· = ' ') s
        rw [hdrop] at hhead
        simpa using hhead
      have htoken : Token ((c :: r).takeWhile (· ≠ ' ')) :=
        ⟨by simp [hc], fun hmem => by simpa using List.mem_takeWhile_imp hmem⟩
      have hcut : c :: r = (c :: r).takeWhile (· ≠ ' ') ++ (c :: r).dropWhile (· ≠ ' ') :=
        List.takeWhile_append_dropWhile.symm
      generalize (c :: r).takeWhile (· ≠ ' ') = t at htoken hcut
      cases hback : (c :: r).dropWhile (· ≠ ' ') with
      | nil =>
        rw [hback, List.append_nil] at hcut
        rw [hdrop, hcut] at hsplit
        exact ⟨[t], hsplit ▸ .last hspaces htoken⟩
      | cons d rest =>
        have hd : d = ' ' := by
          have hhead := List.head?_dropWhile_not (· ≠ ' ') (c :: r)
          rw [hback] at hhead
          simpa using hhead
        subst hd
        rw [hdrop, hcut, hback, ← List.append_assoc] at hsplit
        have hshort : rest.length < s.length := by
          rw [hsplit]
          simp
          omega
        obtain ⟨ts, hts⟩ := ih rest.length hshort rest rfl
        exact ⟨t :: ts, hsplit ▸ .cons hspaces htoken hts⟩

theorem Words.tokens_eq (h : Words s ts) : tokens s ' ' = ts := by
  induction h with
  | @blank sp hsp =>
    have hempty := tokens_separators hsp []
    rw [List.append_nil] at hempty
    exact hempty
  | last hsp token =>
    rw [tokens_separators hsp, tokens_of_notMem token.nonempty token.noSpace]
  | cons hsp token tail ih =>
    rw [tokens_append, tokens_separators hsp, tokens_of_notMem token.nonempty token.noSpace, ih]
    rfl

theorem words_tokens (s : List Char) : Words s (tokens s ' ') := by
  obtain ⟨ts, hts⟩ := exists_words s
  rwa [hts.tokens_eq]

/-- There are no more tokens than characters. -/
theorem Words.length_le (h : Words s ts) : ts.length ≤ s.length := by
  induction h with
  | blank hsp => simp
  | last hsp token =>
    have hpos := List.length_pos_iff.mpr token.nonempty
    simp
    omega
  | cons hsp token tail ih =>
    simp
    omega

end Words

section Reads
variable {p : Char → Bool} {a b : List Char} {c d : Char} {n : Nat}

theorem span_stop (h : ∀ x ∈ a, p x = true) (hc : p c = false) :
    span p (a ++ c :: b) = some a.length := by
  induction a with
  | nil => simp [span, hc]
  | cons x a ih =>
    have hx := h x List.mem_cons_self
    have hrest := ih fun y hy => h y (List.mem_cons_of_mem x hy)
    simp [span, hx, hrest]

theorem strnlen_stop (h : nul ∉ a) (n : Nat) :
    strnlen (a ++ nul :: b) n = some (min a.length n) := by
  induction a generalizing n with
  | nil =>
    cases n with
    | zero => rfl
    | succ n => simp [strnlen]
  | cons x a ih =>
    cases n with
    | zero => rfl
    | succ n =>
      have hx : x ≠ nul := fun heq => h (heq ▸ List.mem_cons_self)
      have hrest := ih (fun hmem => h (List.mem_cons_of_mem x hmem)) n
      simp [strnlen, hx, hrest, Nat.add_min_add_right]

theorem nul_not_digit : nul.isDigit = false := rfl

/-- The digits of a token are looked at, and no more than the character behind it. -/
theorem allDigits_stop (h : nul ∉ a) (n : Nat) :
    allDigits n (a ++ nul :: b) = some (decide (n ≤ a.length ∧ (a.take n).all Char.isDigit)) := by
  induction a generalizing n with
  | nil =>
    cases n with
    | zero => rfl
    | succ n => simp [allDigits, nul_not_digit]
  | cons x a ih =>
    cases n with
    | zero => rfl
    | succ n =>
      have hrest := ih (fun hmem => h (List.mem_cons_of_mem x hmem)) n
      cases hx : x.isDigit with
      | false => simp [allDigits, hx]
      | true => simp [allDigits, hx, hrest]

theorem textAt_stop (h : nul ∉ a) : textAt (a ++ nul :: b) = some a := by
  have hall : ∀ x ∈ a, decide (x ≠ nul) = true := fun x hx =>
    decide_eq_true fun heq => h (heq ▸ hx)
  rw [textAt, span_stop hall (by simp)]
  simp

end Reads

section Strtok
variable {pre sp t back : List Char} {saved str : Option Nat} {c : Char}

theorem strtok_eq (hstart : str.or saved = some pre.length) (hsp : ∀ x ∈ sp, x = ' ')
    (ht : ∀ x ∈ t, x ≠ ' ' ∧ x ≠ nul) (hc : c = nul ∨ c = ' ' ∧ t ≠ []) :
    strtok ' ' str ⟨pre ++ (sp ++ (t ++ c :: back)), saved⟩ =
      if t.length = 0 then some (none, ⟨pre ++ (sp ++ (t ++ c :: back)), none⟩)
      else if c = nul then
        some (some (pre ++ sp).length, ⟨pre ++ (sp ++ (t ++ c :: back)), none⟩)
      else some (some (pre ++ sp).length,
        ⟨pre ++ (sp ++ (t ++ nul :: back)), some ((pre ++ sp).length + t.length + 1)⟩) := by
  have hskip : span (· = ' ') (sp ++ (t ++ c :: back)) = some sp.length := by
    have hspaces : ∀ x ∈ sp, decide (x = ' ') = true := fun x hx => decide_eq_true (hsp x hx)
    cases t with
    | nil =>
      have hnul : c = nul := hc.resolve_right fun h => h.2 rfl
      exact span_stop hspaces (by rw [hnul]; decide)
    | cons x t => exact span_stop hspaces (by simpa using (ht x List.mem_cons_self).1)
  have hend : decide (c ≠ ' ' ∧ c ≠ nul) = false := by
    rcases hc with rfl | ⟨rfl, -⟩ <;> simp
  have htoken : span (fun c => c ≠ ' ' ∧ c ≠ nul) (t ++ c :: back) = some t.length :=
    span_stop (fun x hx => decide_eq_true (ht x hx)) hend
  have hmem : pre ++ (sp ++ (t ++ c :: back)) = (pre ++ sp) ++ (t ++ c :: back) :=
    (List.append_assoc ..).symm
  have hplace : (pre ++ (sp ++ (t ++ c :: back)))[(pre ++ sp).length + t.length]? = some c := by
    rw [hmem, List.getElem?_append_right (by omega)]
    simp
  have hset : (pre ++ (sp ++ (t ++ c :: back))).set ((pre ++ sp).length + t.length) nul =
      pre ++ (sp ++ (t ++ nul :: back)) := by
    rw [hmem, List.set_append_right _ _ (by omega), Nat.add_sub_cancel_left,
      List.set_append_right _ _ le_rfl, Nat.sub_self, List.append_assoc]
    rfl
  have hdrop : (pre ++ (sp ++ (t ++ c :: back))).drop (pre ++ sp).length = t ++ c :: back := by
    rw [hmem, List.drop_left]
  have hlen : pre.length + sp.length = (pre ++ sp).length := List.length_append.symm
  unfold strtok
  rw [hstart]
  simp only [List.drop_left, hskip, Option.bind_eq_bind, Option.bind_some, hlen, hdrop, htoken,
    hplace, hset, Option.some.injEq]

end Strtok

section Walk
variable {unfit : Unfit} {len fuel : Nat} {s pre t rest back front mid : List Char}
  {ts : List (List Char)} {saved : Option Nat} {cfg : PccConfig}

/-- The test that a token is put to. -/
def Passed (unfit : Unfit) (len : Nat) (t : List Char) : Prop :=
  len ≤ t.length ∧ (t.take len).all Char.isDigit = true ∧ 0 ≤ (atoi unfit t).toInt

instance (unfit : Unfit) (len : Nat) (t : List Char) : Decidable (Passed unfit len t) :=
  inferInstanceAs (Decidable (_ ∧ _ ∧ _))

/-- The walk through the tokens of a text, so many characters of each being looked at. -/
def walkTokens (unfit : Unfit) (len : Nat) :
    List (List Char) → PccConfig → Except DocaError Unit × PccConfig
  | [], cfg => (.ok (), cfg)
  | t :: ts, cfg =>
    if Passed unfit len t then walkTokens unfit len ts (cfg.store (atoi unfit t))
    else (.error .invalidValue, cfg)

/-- One token, of which as many characters are looked at as the memory has in front of its first
`nul`. -/
theorem walkThreads_token (hfront : pre ++ (t ++ nul :: back) = front ++ nul :: mid)
    (hnul : nul ∉ front) (hshort : front.length < maxArgSize) (ht : nul ∉ t)
    (hnum : cfg.pccThreadsNum.toNat < maxArgSize) :
    walkThreads unfit (fuel + 1) (some pre.length) ⟨pre ++ (t ++ nul :: back), saved⟩ cfg =
      if Passed unfit front.length t then
        (strtok ' ' none ⟨pre ++ (t ++ nul :: back), saved⟩).bind fun r =>
          walkThreads unfit fuel r.1 r.2 (cfg.store (atoi unfit t))
      else some (.error .invalidValue, cfg) := by
  have hlen : strnlen (pre ++ (t ++ nul :: back)) maxArgSize = some front.length := by
    rw [hfront, strnlen_stop hnul, Nat.min_eq_left hshort.le]
  have happend : cfg.append (atoi unfit t) = some (cfg.store (atoi unfit t)) := if_pos hnum
  rw [walkThreads]
  simp only [hlen, List.drop_left, Option.bind_eq_bind, Option.bind_some, allDigits_stop ht,
    textAt_stop ht, happend]
  by_cases hdigits : front.length ≤ t.length ∧ (t.take front.length).all Char.isDigit
  · by_cases hneg : (atoi unfit t).toInt < 0
    · have hfail : ¬ Passed unfit front.length t := fun h => absurd h.2.2 (by omega)
      rw [if_neg hfail, decide_eq_true hdigits]
      simp [hneg]
    · have hpass : Passed unfit front.length t := ⟨hdigits.1, hdigits.2, by omega⟩
      rw [if_pos hpass, decide_eq_true hdigits]
      simp [hneg]
  · have hfail : ¬ Passed unfit front.length t := fun h => hdigits ⟨h.1, h.2.1⟩
    rw [if_neg hfail, decide_eq_false hdigits]
    rfl

theorem store_num (hnum : cfg.pccThreadsNum.toNat + 1 ≤ maxArgSize) (v : BitVec 32) :
    (cfg.store v).pccThreadsNum.toNat = cfg.pccThreadsNum.toNat + 1 := by
  have hsize : maxArgSize = 257 := rfl
  have hone : (1 : BitVec 32).toNat = 1 := rfl
  simp only [PccConfig.store, BitVec.toNat_add, hone]
  omega

theorem tokenChars (token : Token t) (hnul : nul ∉ t) : ∀ x ∈ t, x ≠ ' ' ∧ x ≠ nul :=
  fun _ hx => ⟨fun heq => token.noSpace (heq ▸ hx), fun heq => hnul (heq ▸ hx)⟩

/-- The walk from behind a token that was cut off, the text looked at being in front of it. -/
theorem walkThreads_rest (h : Words rest ts) (hnul : nul ∉ front)
    (hshort : front.length < maxArgSize) (hrest : nul ∉ rest)
    (hfront : ∃ mid, pre = front ++ nul :: mid) (hfuel : ts.length ≤ fuel)
    (hnum : cfg.pccThreadsNum.toNat + ts.length ≤ maxArgSize) :
    ((strtok ' ' none ⟨pre ++ (rest ++ [nul]), some pre.length⟩).bind fun r =>
      walkThreads unfit fuel r.1 r.2 cfg) = some (walkTokens unfit front.length ts cfg) := by
  obtain ⟨mid, rfl⟩ := hfront
  induction h generalizing mid fuel cfg with
  | @blank sp hsp =>
    have hcut : strtok ' ' none ⟨(front ++ nul :: mid) ++ (sp ++ ([] ++ nul :: [])),
        some (front ++ nul :: mid).length⟩ = some (none, _) :=
      (strtok_eq rfl hsp (by simp) (.inl rfl)).trans (if_pos rfl)
    rw [List.nil_append] at hcut
    rw [hcut, Option.bind_some]
    cases fuel <;> rfl
  | @last sp t hsp token =>
    have ht := tokenChars token fun hmem => hrest (List.mem_append_right _ hmem)
    have hfuel' : 0 < fuel := (Nat.succ_pos _).trans_le hfuel
    have hpos : t.length ≠ 0 := fun h0 => token.nonempty (List.length_eq_zero_iff.mp h0)
    have hcut : strtok ' ' none ⟨(front ++ nul :: mid) ++ (sp ++ (t ++ nul :: [])),
        some (front ++ nul :: mid).length⟩ = some (some _, _) :=
      (strtok_eq rfl hsp ht (.inl rfl)).trans ((if_neg hpos).trans (if_pos rfl))
    obtain ⟨fuel, rfl⟩ := Nat.exists_eq_succ_of_ne_zero (n := fuel) (Nat.ne_of_gt hfuel')
    have hmem : (front ++ nul :: mid) ++ (sp ++ (t ++ nul :: [])) =
        ((front ++ nul :: mid) ++ sp) ++ (t ++ nul :: []) := (List.append_assoc ..).symm
    rw [List.append_assoc sp t, hcut, Option.bind_some, hmem]
    have hfront : ((front ++ nul :: mid) ++ sp) ++ (t ++ nul :: []) =
        front ++ nul :: (mid ++ (sp ++ (t ++ [nul]))) := by simp
    have hroom : cfg.pccThreadsNum.toNat < maxArgSize := by simpa using hnum
    rw [walkThreads_token hfront hnul hshort (fun hmem => (ht _ hmem).2 rfl) hroom, walkTokens]
    split
    · cases fuel <;> rfl
    · rfl
  | @cons sp t rest ts hsp token tail ih =>
    have ht := tokenChars token fun hmem =>
      hrest (List.mem_append_left _ (List.mem_append_right _ hmem))
    have hfuel' : 0 < fuel := (Nat.succ_pos _).trans_le hfuel
    have hpos : t.length ≠ 0 := fun h0 => token.nonempty (List.length_eq_zero_iff.mp h0)
    have hcut : strtok ' ' none ⟨(front ++ nul :: mid) ++ (sp ++ (t ++ ' ' :: (rest ++ [nul]))),
        some (front ++ nul :: mid).length⟩ = some (some _, _) :=
      (strtok_eq rfl hsp ht (.inr ⟨rfl, token.nonempty⟩)).trans
        ((if_neg hpos).trans (if_neg (by decide)))
    obtain ⟨fuel, rfl⟩ := Nat.exists_eq_succ_of_ne_zero (n := fuel) (Nat.ne_of_gt hfuel')
    have hmem : (front ++ nul :: mid) ++ (sp ++ (t ++ nul :: (rest ++ [nul]))) =
        ((front ++ nul :: mid) ++ sp) ++ (t ++ nul :: (rest ++ [nul])) :=
      (List.append_assoc ..).symm
    have hshape : sp ++ t ++ ' ' :: rest ++ [nul] = sp ++ (t ++ ' ' :: (rest ++ [nul])) := by simp
    rw [hshape, hcut, Option.bind_some, hmem]
    have hfront : ((front ++ nul :: mid) ++ sp) ++ (t ++ nul :: (rest ++ [nul])) =
        front ++ nul :: (mid ++ (sp ++ (t ++ nul :: (rest ++ [nul])))) := by simp
    have hroom : cfg.pccThreadsNum.toNat < maxArgSize := by
      simp only [List.length_cons] at hnum
      omega
    rw [walkThreads_token hfront hnul hshort (fun hmem => (ht _ hmem).2 rfl) hroom, walkTokens]
    split
    · have hmem' : ((front ++ nul :: mid) ++ sp) ++ (t ++ nul :: (rest ++ [nul])) =
          (front ++ nul :: (mid ++ sp ++ t ++ [nul])) ++ (rest ++ [nul]) := by simp
      have hplace : ((front ++ nul :: mid) ++ sp).length + t.length + 1 =
          (front ++ nul :: (mid ++ sp ++ t ++ [nul])).length := by
        simp
        omega
      have hstored := store_num hroom (atoi unfit t)
      rw [hmem', hplace]
      refine ih (fun hmem => hrest (by simp [hmem])) (by simpa using hfuel) ?_ _
      simp only [List.length_cons] at hnum
      omega
    · rfl

/-- What `strnlen` finds once the first token was cut off. -/
def checkedLen (s : List Char) : Nat :=
  (s.takeWhile (· = ' ')).length + ((s.dropWhile (· = ' ')).takeWhile (· ≠ ' ')).length

theorem checkedLen_eq {sp : List Char} (hsp : ∀ c ∈ sp, c = ' ') (token : Token t)
    (hrest : rest = [] ∨ ∃ rest', rest = ' ' :: rest') :
    checkedLen (sp ++ (t ++ rest)) = (sp ++ t).length := by
  obtain ⟨x, t, rfl⟩ := List.exists_cons_of_ne_nil token.nonempty
  have hx : x ≠ ' ' := fun heq => token.noSpace (heq ▸ List.mem_cons_self)
  have hspaces : ∀ c ∈ sp, decide (c = ' ') = true := fun c hc => decide_eq_true (hsp c hc)
  have htoken : ∀ c ∈ x :: t, decide (c ≠ ' ') = true := fun c hc =>
    decide_eq_true fun heq => token.noSpace (heq ▸ hc)
  have hback : rest.takeWhile (· ≠ ' ') = [] := by
    rcases hrest with rfl | ⟨rest', rfl⟩ <;> simp
  have hfront : (sp ++ (x :: t ++ rest)).takeWhile (· = ' ') = sp := by
    rw [List.takeWhile_append_of_pos hspaces, List.cons_append, List.takeWhile_cons_of_neg
      (by simpa using hx), List.append_nil]
  have hdrop : (sp ++ (x :: t ++ rest)).dropWhile (· = ' ') = x :: t ++ rest := by
    rw [List.dropWhile_append_of_pos hspaces, List.cons_append, List.dropWhile_cons_of_neg
      (by simpa using hx)]
  rw [checkedLen, hfront, hdrop, List.takeWhile_append_of_pos htoken, hback, List.append_nil,
    List.length_append]

theorem callback_long (hlong : maxArgSize ≤ s.length) (hnul : nul ∉ s) (cfg : PccConfig) :
    pccThreadsListCallback unfit s cfg = some (.error .invalidValue, cfg) := by
  have hlen : strnlen (s ++ [nul]) maxArgSize = some maxArgSize := by
    rw [strnlen_stop hnul, Nat.min_eq_right hlong]
  simp [pccThreadsListCallback, hlen]

/-- A shorter text is walked through token by token. -/
theorem callback_short (hshort : s.length < maxArgSize) (hnul : nul ∉ s) (cfg : PccConfig) :
    pccThreadsListCallback unfit s cfg = some (if tokens s ' ' = [] then
        (.error .invalidValue, { cfg with pccThreadsNum := 0 })
      else walkTokens unfit (checkedLen s) (tokens s ' ') { cfg with pccThreadsNum := 0 }) := by
  have hlen : strnlen (s ++ [nul]) maxArgSize = some s.length := by
    rw [strnlen_stop hnul, Nat.min_eq_left hshort.le]
  have hroom : (0 : BitVec 32).toNat < maxArgSize := by decide
  have hwords := words_tokens s
  generalize tokens s ' ' = ts at hwords
  simp only [pccThreadsListCallback, hlen, Option.bind_eq_bind, Option.bind_some,
    if_neg hshort.ne]
  cases hwords with
  | blank hsp =>
    have hcut : strtok ' ' (some 0) ⟨[] ++ (s ++ ([] ++ nul :: [])), none⟩ = some (none, _) :=
      (strtok_eq rfl hsp (by simp) (.inl rfl)).trans (if_pos rfl)
    rw [List.nil_append, List.nil_append] at hcut
    rw [hcut]
    rfl
  | @last sp t hsp token =>
    have htnul : nul ∉ t := fun hmem => hnul (List.mem_append_right _ hmem)
    have hpos : t.length ≠ 0 := fun h0 => token.nonempty (List.length_eq_zero_iff.mp h0)
    have hcut : strtok ' ' (some 0) ⟨[] ++ (sp ++ (t ++ nul :: [])), none⟩ = some (some _, _) :=
      (strtok_eq rfl hsp (tokenChars token htnul) (.inl rfl)).trans
        ((if_neg hpos).trans (if_pos rfl))
    have hchecked : checkedLen (sp ++ t) = (sp ++ t).length := by
      have hend := checkedLen_eq hsp token (.inl (Eq.refl []))
      rwa [List.append_nil] at hend
    have hlenpos : (sp ++ t).length ≠ 0 := by
      rw [List.length_append]
      omega
    obtain ⟨fuel, hfuel⟩ := Nat.exists_eq_succ_of_ne_zero hlenpos
    have hfront : sp ++ (t ++ nul :: []) = (sp ++ t) ++ nul :: [] := (List.append_assoc ..).symm
    have hstep : walkThreads unfit (fuel + 1) (some sp.length) ⟨sp ++ (t ++ nul :: []), none⟩
        { cfg with pccThreadsNum := 0 } = _ :=
      walkThreads_token hfront hnul hshort htnul hroom
    rw [← Nat.succ_eq_add_one, ← hfuel, hfront] at hstep
    rw [List.nil_append, hfront] at hcut
    rw [hcut, Option.bind_some, hchecked, if_neg (List.cons_ne_nil _ _), walkTokens]
    refine hstep.trans ?_
    split
    · cases fuel <;> rfl
    · rfl
  | @cons sp t rest ts hsp token tail =>
    have htnul : nul ∉ t := fun hmem => hnul (by simp [hmem])
    have hrest : nul ∉ rest := fun hmem => hnul (by simp [hmem])
    have hstart : nul ∉ sp ++ t := fun hmem => hnul (List.mem_append_left _ hmem)
    have hpos : t.length ≠ 0 := fun h0 => token.nonempty (List.length_eq_zero_iff.mp h0)
    have hcut : strtok ' ' (some 0) ⟨[] ++ (sp ++ (t ++ ' ' :: (rest ++ [nul]))), none⟩ =
        some (some _, _) :=
      (strtok_eq rfl hsp (tokenChars token htnul) (.inr ⟨rfl, token.nonempty⟩)).trans
        ((if_neg hpos).trans (if_neg (by decide)))
    have hshape : sp ++ t ++ ' ' :: rest ++ [nul] = sp ++ (t ++ ' ' :: (rest ++ [nul])) := by simp
    have hchecked : checkedLen (sp ++ t ++ ' ' :: rest) = (sp ++ t).length := by
      rw [List.append_assoc]
      exact checkedLen_eq hsp token (.inr ⟨rest, rfl⟩)
    have hcount := tail.length_le
    have hlenpos : (sp ++ t ++ ' ' :: rest).length ≠ 0 := by simp
    obtain ⟨fuel, hfuel⟩ := Nat.exists_eq_succ_of_ne_zero hlenpos
    have hfront : sp ++ (t ++ nul :: (rest ++ [nul])) = (sp ++ t) ++ nul :: (rest ++ [nul]) :=
      (List.append_assoc ..).symm
    have hless : (sp ++ t).length < maxArgSize := by
      simp only [List.length_append] at hshort ⊢
      omega
    have hstep : walkThreads unfit (fuel + 1) (some sp.length)
        ⟨sp ++ (t ++ nul :: (rest ++ [nul])), some (sp.length + t.length + 1)⟩
        { cfg with pccThreadsNum := 0 } = _ :=
      walkThreads_token hfront hstart hless htnul hroom
    rw [← Nat.succ_eq_add_one, ← hfuel] at hstep
    rw [List.nil_append] at hcut
    rw [hshape, hcut, Option.bind_some, hchecked, if_neg (List.cons_ne_nil _ _), walkTokens]
    refine hstep.trans ?_
    split
    · have hmem : sp ++ (t ++ nul :: (rest ++ [nul])) =
          (sp ++ t ++ nul :: []) ++ (rest ++ [nul]) := by simp
      have hplace : sp.length + t.length + 1 = (sp ++ t ++ nul :: []).length := by
        simp only [List.length_append, List.length_singleton]
      have hcount : ts.length ≤ fuel := by
        simp at hfuel
        omega
      have hstored :
          (PccConfig.store { cfg with pccThreadsNum := 0 } (atoi unfit t)).pccThreadsNum.toNat = 1 :=
        rfl
      rw [hmem, hplace]
      refine walkThreads_rest tail hstart hless hrest ⟨[], rfl⟩ hcount ?_
      rw [hstored]
      simp at hshort
      omega
    · rfl

end Walk

section Lists
variable {unfit : Unfit} {len n : Nat} {s t : List Char} {ts : List (List Char)} {ns : List Nat}
  {cfg : PccConfig}

theorem walkTokens_ok_iff :
    (walkTokens unfit len ts cfg).1 = .ok () ↔ ∀ t ∈ ts, Passed unfit len t := by
  induction ts generalizing cfg with
  | nil => simp [walkTokens]
  | cons t ts ih =>
    rw [walkTokens, List.forall_mem_cons]
    split
    · rename_i hpass
      rw [ih, and_iff_right hpass]
    · rename_i hfail
      simp [hfail]

/-- The numbers of tokens that all pass are in the list, in their order. -/
theorem walkTokens_stored (hpass : ∀ t ∈ ts, Passed unfit len t)
    (hnum : cfg.pccThreadsNum.toNat + ts.length ≤ maxArgSize) :
    (walkTokens unfit len ts cfg).2.pccThreadsNum.toNat = cfg.pccThreadsNum.toNat + ts.length ∧
      (walkTokens unfit len ts cfg).2.pccThreadsList.take (cfg.pccThreadsNum.toNat + ts.length) =
        cfg.pccThreadsList.take cfg.pccThreadsNum.toNat ++ ts.map (atoi unfit) := by
  induction ts generalizing cfg with
  | nil => simp [walkTokens]
  | cons t ts ih =>
    rw [List.forall_mem_cons] at hpass
    rw [List.length_cons] at hnum ⊢
    have hroom : cfg.pccThreadsNum.toNat + 1 ≤ maxArgSize := by omega
    have hstored := store_num hroom (atoi unfit t)
    have hrest : (cfg.store (atoi unfit t)).pccThreadsNum.toNat + ts.length ≤ maxArgSize := by
      omega
    obtain ⟨hlast, hlist⟩ := ih hpass.2 hrest
    have hfront : (cfg.store (atoi unfit t)).pccThreadsList.take (cfg.pccThreadsNum.toNat + 1) =
        cfg.pccThreadsList.take cfg.pccThreadsNum.toNat ++ [atoi unfit t] := by
      have hin : cfg.pccThreadsNum.toNat < cfg.pccThreadsList.length := by
        rw [cfg.size]
        omega
      simp only [PccConfig.store]
      rw [List.take_add_one, List.take_set_of_le le_rfl, List.getElem?_set_self hin]
      rfl
    rw [walkTokens, if_pos hpass.1]
    rw [hstored] at hlast hlist
    refine ⟨by omega, ?_⟩
    rw [hfront, List.append_assoc] at hlist
    rw [← Nat.add_assoc, Nat.add_right_comm]
    exact hlist

theorem atoi_toDigits (hn : n < 2 ^ 31) : atoi unfit (Nat.toDigits 10 n) = BitVec.ofNat 32 n := by
  have hnumeral := numeral_toDigits n
  have hvalue : leadingDigits (Nat.toDigits 10 n) = n := by
    have htake : (Nat.toDigits 10 n ++ []).takeWhile (isDigitOf 10) = Nat.toDigits 10 n :=
      hnumeral.takeWhile_eq rfl
    rw [List.append_nil] at htake
    rw [leadingDigits_eq, takeWhile_isDigit, htake, hnumeral.value]
  obtain ⟨c, cs, hcs⟩ := List.exists_cons_of_ne_nil hnumeral.nonempty
  have hdigit : c.isDigit = true := by
    rw [← isDigitOf_ten]
    exact hnumeral.digits c (by rw [hcs]; exact List.mem_cons_self)
  obtain ⟨hspace, hminus, hplus, -⟩ := digit_not_space hdigit
  have hsigned : signedDigits (c :: cs) = n := by
    rw [← hcs, ← hvalue, hcs]
    unfold signedDigits
    split
    · rename_i heq
      exact absurd (List.cons.inj heq).1 hminus
    · rename_i heq
      exact absurd (List.cons.inj heq).1 hplus
    · rfl
  have hrange : -2 ^ 31 ≤ (n : Int) ∧ (n : Int) < 2 ^ 31 := by omega
  rw [hcs, atoi, List.dropWhile_cons_of_neg (by rw [hspace]; decide), hsigned, if_pos hrange]
  rfl

/-- Numbers in decimal, one or more spaces between each two. -/
inductive Listing : List Nat → List Char → Prop where
  | one (n : Nat) : Listing [n] (Nat.toDigits 10 n)
  | cons (n spaces : Nat) {ns : List Nat} {s : List Char} (tail : Listing ns s) :
      Listing (n :: ns) (Nat.toDigits 10 n ++ ' ' :: (List.replicate spaces ' ' ++ s))

theorem token_toDigits (n : Nat) : Token (Nat.toDigits 10 n) := by
  have hnumeral := numeral_toDigits n
  refine ⟨hnumeral.nonempty, fun hmem => ?_⟩
  exact absurd (hnumeral.digits _ hmem) (by decide)

theorem Listing.tokens_eq (h : Listing ns s) : tokens s ' ' = ns.map (Nat.toDigits 10) := by
  induction h with
  | one n => exact tokens_of_notMem (token_toDigits n).nonempty (token_toDigits n).noSpace
  | cons n spaces tail ih =>
    have hspaces : ∀ c ∈ List.replicate spaces ' ', c = ' ' := fun c hc =>
      List.eq_of_mem_replicate hc
    rw [tokens_append, tokens_of_notMem (token_toDigits n).nonempty (token_toDigits n).noSpace,
      tokens_separators hspaces, ih]
    rfl

/-- As many characters of each token are looked at as the first number has digits. -/
theorem Listing.checkedLen_eq (h : Listing (n :: ns) s) :
    checkedLen s = (Nat.toDigits 10 n).length := by
  have hblank : ∀ c ∈ ([] : List Char), c = ' ' := by simp
  cases h with
  | one =>
    have hend := PccThreads.checkedLen_eq hblank (token_toDigits n) (.inl (Eq.refl []))
    rwa [List.append_nil] at hend
  | cons _ spaces tail =>
    exact PccThreads.checkedLen_eq hblank (token_toDigits n) (.inr ⟨_, rfl⟩)

theorem Listing.noNul (h : Listing ns s) : nul ∉ s := by
  have hdigits : ∀ n, nul ∉ Nat.toDigits 10 n := fun n hmem =>
    absurd ((numeral_toDigits n).digits _ hmem) (by decide)
  have hspace : nul ≠ ' ' := by decide
  induction h with
  | one n => exact hdigits n
  | cons n spaces tail ih =>
    simp [hdigits n, hspace, ih]

theorem passed_toDigits_iff (hn : n < 2 ^ 31) :
    Passed unfit len (Nat.toDigits 10 n) ↔ len ≤ (Nat.toDigits 10 n).length := by
  have hdigits : ((Nat.toDigits 10 n).take len).all Char.isDigit = true := by
    rw [List.all_eq_true]
    intro c hc
    rw [← isDigitOf_ten]
    exact (numeral_toDigits n).digits c (List.mem_of_mem_take hc)
  have hpositive : 0 ≤ (atoi unfit (Nat.toDigits 10 n)).toInt := by
    have hvalue : (BitVec.ofNat 32 n).toNat = n := by
      rw [BitVec.toNat_ofNat]
      omega
    rw [atoi_toDigits hn, BitVec.toInt_eq_toNat_of_lt (by omega)]
    omega
  exact ⟨fun h => h.1, fun h => ⟨h, hdigits, hpositive⟩⟩

/-- What is asked of the callback for a text. -/
structure Meets (unfit : Unfit) (s : List Char) (cfg : PccConfig) : Prop where
  accepts : ∀ ns, Listing ns s → (∀ n ∈ ns, n < 2 ^ 31) → s.length < maxArgSize →
    ∃ cfg', pccThreadsListCallback unfit s cfg = some (.ok (), cfg') ∧
      cfg'.pccThreadsNum.toNat = ns.length ∧
      cfg'.pccThreadsList.take ns.length = ns.map (BitVec.ofNat 32)
  rejects : (∃ t ∈ tokens s ' ', t.all Char.isDigit = false) →
    ∃ e cfg', pccThreadsListCallback unfit s cfg = some (.error e, cfg')
  inside : pccThreadsListCallback unfit s cfg ≠ none

theorem callback_inside (hnul : nul ∉ s) (unfit : Unfit) (cfg : PccConfig) :
    ∃ r, pccThreadsListCallback unfit s cfg = some r := by
  rcases Nat.lt_or_ge s.length maxArgSize with hshort | hlong
  · exact ⟨_, callback_short hshort hnul cfg⟩
  · exact ⟨_, callback_long hlong hnul cfg⟩

/-- A text is accepted when it is short enough, has a token and all its tokens pass. -/
theorem callback_ok_iff (hnul : nul ∉ s) (cfg : PccConfig) :
    (∃ cfg', pccThreadsListCallback unfit s cfg = some (.ok (), cfg')) ↔
      s.length < maxArgSize ∧ tokens s ' ' ≠ [] ∧
        ∀ t ∈ tokens s ' ', Passed unfit (checkedLen s) t := by
  rcases Nat.lt_or_ge s.length maxArgSize with hshort | hlong
  · rw [callback_short hshort hnul cfg, and_iff_right hshort]
    by_cases hnone : tokens s ' ' = []
    · rw [if_pos hnone]
      simp [hnone]
    · have hpass : (walkTokens unfit (checkedLen s) (tokens s ' ')
          { cfg with pccThreadsNum := 0 }).1 = .ok () ↔
          ∀ t ∈ tokens s ' ', Passed unfit (checkedLen s) t := walkTokens_ok_iff
      rw [if_neg hnone, and_iff_right hnone, ← hpass]
      constructor
      · intro hok
        obtain ⟨cfg', heq⟩ := hok
        rw [Option.some.inj heq]
      · intro hok
        exact ⟨_, congrArg some (Prod.ext hok rfl)⟩
  · rw [callback_long hlong hnul cfg]
    constructor
    · intro hok
      obtain ⟨cfg', heq⟩ := hok
      cases heq
    · intro h
      omega

theorem listing_stored (h : Listing ns s) (hrange : ∀ n ∈ ns, n < 2 ^ 31)
    (hshort : s.length < maxArgSize)
    (hpass : ∀ t ∈ tokens s ' ', Passed unfit (checkedLen s) t) (cfg : PccConfig) :
    ∃ cfg', pccThreadsListCallback unfit s cfg = some (.ok (), cfg') ∧
      cfg'.pccThreadsNum.toNat = ns.length ∧
      cfg'.pccThreadsList.take ns.length = ns.map (BitVec.ofNat 32) := by
  have htokens := h.tokens_eq
  have hcount : (tokens s ' ').length ≤ s.length := (words_tokens s).length_le
  have hne : tokens s ' ' ≠ [] := by
    rw [htokens]
    cases h <;> simp
  have hok : (walkTokens unfit (checkedLen s) (tokens s ' ')
      { cfg with pccThreadsNum := 0 }).1 = .ok () := walkTokens_ok_iff.mpr hpass
  have hzero : (0 : BitVec 32).toNat = 0 := rfl
  have hnum : ({ cfg with pccThreadsNum := 0 } : PccConfig).pccThreadsNum.toNat +
      (tokens s ' ').length ≤ maxArgSize := by
    rw [hzero]
    omega
  obtain ⟨hlast, hlist⟩ := walkTokens_stored hpass hnum
  refine ⟨(walkTokens unfit (checkedLen s) (tokens s ' ') { cfg with pccThreadsNum := 0 }).2,
    ?_, ?_, ?_⟩
  · rw [callback_short hshort h.noNul cfg, if_neg hne]
    exact congrArg some (Prod.ext hok rfl)
  · rw [hlast, hzero, htokens]
    simp
  · rw [hzero, Nat.zero_add, List.take_zero, List.nil_append, htokens, List.length_map,
      List.map_map] at hlist
    rw [htokens, hlist]
    exact List.map_congr_left fun n hn => atoi_toDigits (hrange n hn)

/-- The callback does what is asked exactly when no number of a list is shorter than its first,
and a text with a wrong token has one that does not pass. -/
theorem threads_list_iff (unfit : Unfit) (s : List Char) (cfg : PccConfig) (hnul : nul ∉ s) :
    Meets unfit s cfg ↔
      (∀ n ns, Listing (n :: ns) s → (∀ m ∈ n :: ns, m < 2 ^ 31) → s.length < maxArgSize →
        ∀ m ∈ ns, (Nat.toDigits 10 n).length ≤ (Nat.toDigits 10 m).length) ∧
      ((∃ t ∈ tokens s ' ', t.all Char.isDigit = false) → s.length < maxArgSize →
        ∃ t ∈ tokens s ' ', ¬ Passed unfit (checkedLen s) t) := by
  have hok : (∃ cfg', pccThreadsListCallback unfit s cfg = some (.ok (), cfg')) ↔ _ :=
    callback_ok_iff hnul cfg
  constructor
  · intro h
    refine ⟨fun n ns hlisting hrange hshort m hm => ?_, fun hbad hshort => ?_⟩
    · obtain ⟨cfg', haccept, -⟩ := h.accepts (n :: ns) hlisting hrange hshort
      have hpass := (hok.mp ⟨cfg', haccept⟩).2.2
      rw [hlisting.tokens_eq, hlisting.checkedLen_eq] at hpass
      exact (hpass _ (List.mem_map_of_mem (List.mem_cons_of_mem n hm))).1
    · obtain ⟨e, cfg', hreject⟩ := h.rejects hbad
      obtain ⟨t, ht, -⟩ := hbad
      by_contra hall
      push Not at hall
      obtain ⟨cfg'', haccept⟩ := hok.mpr ⟨hshort, List.ne_nil_of_mem ht, hall⟩
      rw [hreject] at haccept
      cases haccept
  · rintro ⟨hlengths, hwrong⟩
    constructor
    · intro ns hlisting hrange hshort
      refine listing_stored hlisting hrange hshort ?_ cfg
      cases hns : ns with
      | nil =>
        subst hns
        cases hlisting
      | cons n ns =>
        subst hns
        rw [hlisting.tokens_eq, hlisting.checkedLen_eq]
        intro t ht
        obtain ⟨m, hm, rfl⟩ := List.mem_map.mp ht
        refine (passed_toDigits_iff (hrange m hm)).mpr ?_
        rcases List.mem_cons.mp hm with rfl | hrest
        · exact le_rfl
        · exact hlengths n ns hlisting hrange hshort m hrest
    · intro hbad
      obtain ⟨⟨result, cfg'⟩, hrun⟩ := callback_inside hnul unfit cfg
      cases result with
      | error e => exact ⟨e, cfg', hrun⟩
      | ok u =>
        obtain ⟨hshort, -, hpass⟩ := hok.mp ⟨cfg', hrun⟩
        obtain ⟨t, ht, hfail⟩ := hwrong hbad hshort
        exact absurd (hpass t ht) hfail
    · obtain ⟨r, hrun⟩ := callback_inside hnul unfit cfg
      simp [hrun]

/-- Nothing is in the list before. -/
def emptyConfig : PccConfig := ⟨0, List.replicate maxArgSize 0, List.length_replicate⟩

theorem threads_list_one_two :
    nul ∉ "1 2".toList ∧ (Meets (fun _ => 0) "1 2".toList emptyConfig ↔
      (∀ n ns, Listing (n :: ns) "1 2".toList → (∀ m ∈ n :: ns, m < 2 ^ 31) →
        "1 2".toList.length < maxArgSize →
        ∀ m ∈ ns, (Nat.toDigits 10 n).length ≤ (Nat.toDigits 10 m).length) ∧
      ((∃ t ∈ tokens "1 2".toList ' ', t.all Char.isDigit = false) →
        "1 2".toList.length < maxArgSize →
        ∃ t ∈ tokens "1 2".toList ' ',
          ¬ Passed (fun _ => 0) (checkedLen "1 2".toList) t)) := by
  have hnul : nul ∉ "1 2".toList := by decide
  exact ⟨hnul, threads_list_iff (fun _ => 0) "1 2".toList emptyConfig hnul⟩

/-- A list whose second number is shorter than its first is refused, and a second token with a
letter behind its first digit is stored. -/
theorem threads_list_lengths :
    ¬ Meets (fun _ => 0) "12 3".toList emptyConfig ∧
      ¬ Meets (fun _ => 0) "1 2x".toList emptyConfig := by
  constructor
  · intro h
    have hlisting : Listing [12, 3] "12 3".toList := .cons 12 0 (.one 3)
    have hrefused : pccThreadsListCallback (fun _ => 0) "12 3".toList emptyConfig =
        some (.error .invalidValue, emptyConfig.store 12) := by
      rw [callback_short (by decide) (by decide)]
      rfl
    obtain ⟨cfg', haccept, -⟩ := h.accepts [12, 3] hlisting (by decide) (by decide)
    rw [hrefused] at haccept
    cases haccept
  · intro h
    have hstored : pccThreadsListCallback (fun _ => 0) "1 2x".toList emptyConfig =
        some (.ok (), (emptyConfig.store 1).store 2) := by
      rw [callback_short (by decide) (by decide)]
      rfl
    obtain ⟨e, cfg', hreject⟩ := h.rejects ⟨"2x".toList, by decide, by decide⟩
    rw [hstored] at hreject
    cases hreject

end Lists

end DocaApps.Proofs.PccThreads
