import Mathlib

namespace DocaApps.Lib.CStrings

variable {d : Char} {s t rest : List Char}

/-- `strlcpy` into a buffer of `size` characters, the last of them for the end of the text. -/
def strlcpy (src : List Char) (size : Nat) : List Char := src.take (size - 1)

/-- What the first call of `strtok` returns: the text between the separators in front and the
next one. -/
def strtok (s : List Char) (delim : Char) : Option (List Char) :=
  match (s.dropWhile (· = delim)).takeWhile (· ≠ delim) with
  | [] => none
  | token => some token

/-- What `strtok` returns when it is called again and again. -/
def tokens (s : List Char) (delim : Char) : List (List Char) :=
  (s.splitOn delim).filter (· ≠ [])

@[simp] theorem length_strlcpy (s : List Char) (size : Nat) :
    (strlcpy s size).length = min (size - 1) s.length := List.length_take

theorem strlcpy_of_short {size : Nat} (h : s.length < size) : strlcpy s size = s :=
  List.take_of_length_le (by omega)

theorem strtok_nil : strtok [] d = none := rfl

theorem strtok_some (h : strtok s d = some t) :
    t = (s.dropWhile (· = d)).takeWhile (· ≠ d) ∧ t ≠ [] := by
  unfold strtok at h
  split at h
  · cases h
  · rename_i hne
    cases h
    exact ⟨rfl, hne⟩

theorem strtok_ne_nil (h : strtok s d = some t) : t ≠ [] := (strtok_some h).2

theorem strtok_notMem (h : strtok s d = some t) : d ∉ t := by
  obtain ⟨rfl, -⟩ := strtok_some h
  intro hd
  simpa using List.mem_takeWhile_imp hd

theorem strtok_length (h : strtok s d = some t) : t.length ≤ s.length := by
  obtain ⟨rfl, -⟩ := strtok_some h
  exact (List.takeWhile_sublist _).length_le.trans (List.dropWhile_sublist _).length_le

/-- A text that begins with no separator is split at the first one. -/
theorem strtok_token (hne : t ≠ []) (hd : d ∉ t) (hrest : rest.takeWhile (· ≠ d) = []) :
    strtok (t ++ rest) d = some t := by
  obtain ⟨c, cs, rfl⟩ := List.exists_cons_of_ne_nil hne
  have hc : c ≠ d := by
    rintro rfl
    simp at hd
  have hall : ∀ x ∈ c :: cs, decide (x ≠ d) = true := by
    intro x hx
    apply decide_eq_true
    rintro rfl
    exact hd hx
  have htake : (((c :: cs) ++ rest).dropWhile (· = d)).takeWhile (· ≠ d) = c :: cs := by
    rw [List.cons_append, List.dropWhile_cons_of_neg (by simpa using hc), ← List.cons_append,
      List.takeWhile_append_of_pos hall, hrest, List.append_nil]
  rw [strtok, htake]

theorem strtok_append (hne : t ≠ []) (hd : d ∉ t) : strtok (t ++ d :: rest) d = some t :=
  strtok_token hne hd (List.takeWhile_cons_of_neg (by simp))

theorem strtok_of_notMem (hne : t ≠ []) (hd : d ∉ t) : strtok t d = some t := by
  have h : strtok (t ++ []) d = some t := strtok_token hne hd rfl
  rwa [List.append_nil] at h

/-- Texts that are joined with the separator are the tokens again. -/
theorem tokens_intercalate {texts : List (List Char)} (h : ∀ t ∈ texts, t ≠ [] ∧ d ∉ t) :
    tokens ([d].intercalate texts) d = texts := by
  by_cases hnil : texts = []
  · subst hnil
    rfl
  · rw [tokens, List.splitOn_intercalate d (fun t ht => (h t ht).2) hnil, List.filter_eq_self]
    intro t ht
    simpa using (h t ht).1

theorem tokens_append (s rest : List Char) (d : Char) :
    tokens (s ++ d :: rest) d = tokens s d ++ tokens rest d := by
  rw [tokens, List.splitOn_append_cons_self, List.filter_append]
  rfl

theorem tokens_of_notMem (hne : t ≠ []) (hd : d ∉ t) : tokens t d = [t] := by
  rw [tokens, List.splitOn_eq_singleton hd]
  simp [hne]

/-- Separators in front give no token. -/
theorem tokens_separators (h : ∀ c ∈ t, c = d) (s : List Char) :
    tokens (t ++ s) d = tokens s d := by
  induction t with
  | nil => rfl
  | cons c t ih =>
    obtain rfl := h c List.mem_cons_self
    exact (tokens_append [] (t ++ s) c).trans (ih fun x hx => h x (List.mem_cons_of_mem _ hx))

end DocaApps.Lib.CStrings
