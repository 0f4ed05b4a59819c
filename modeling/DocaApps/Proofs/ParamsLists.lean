import DocaApps.Common.ParamsLists
import DocaApps.Proofs.ParamsParser

namespace DocaApps.Proofs.ParamsLists
open Common.ParamsLists Common.StructParser

/-- What becomes of an item, by the text behind its key: it is read through `NULL`, refused, or
left with the rest of the text. -/
inductive Reading where
  | null
  | refused
  | left (rest : List Char)
  deriving DecidableEq, Repr

variable {K σ : Type}

/-- What a branch does is what becomes of the item, and the state it leaves is as it should be. -/
def Does (taken : Taken σ) (good : σ → Prop) : Reading → Prop
  | .null => taken = none
  | .refused => ∃ e st', taken = some (.error e, st')
  | .left rest => ∃ st', taken = some (.ok rest, st') ∧ good st'

/-- What is left of an item ends the list or goes on with the next one. -/
def Follows (rest : List Char) : Prop := rest = [] ∨ ∃ t, rest = ',' :: t

/-- An item of a parameter list: its key, the text behind it and the value that this writes. -/
structure Item (Value : K → Type) where
  key : K
  text : List Char
  value : Value key

/-- A command with parameters: what their texts write and where their values are kept, and how
far the reading goes at each. `kept` is what is kept of a written value, at the keys that are
`regular`; `noted` are the keys whose state tells whether they were read. -/
structure Command (K σ : Type) where
  params : Params K σ
  Value : K → Type
  Written : (k : K) → List Char → Value k → Prop
  view : σ → (k : K) → Value k
  start : σ
  reading : List K → K → List Char → Reading
  kept : (k : K) → Value k → Value k
  regular : K → Prop
  noted : List K
  mandatory_nonempty : params.mandatory ≠ []
  mandatory_noted : ∀ k ∈ params.mandatory, k ∈ noted
  start_noted : ∀ k ∈ noted, params.has start k = false
  finds : ∀ k text, params.keys.find? (fun k' => (params.text k').isPrefixOf
    (params.text k ++ text)) = some k
  reads : ∀ read k text st, (params.text k ++ text).length < maxCmdlineInputLen →
    (∀ m ∈ noted, params.has st m = true ↔ m ∈ read) →
    Does (params.take k (params.text k ++ text) st)
      (fun st' => ∀ m ∈ noted, params.has st' m = true ↔ m ∈ k :: read) (reading read k text)
  takes : ∀ k text v rest st, Written k text v → regular k → view st k = view start k →
    Follows rest → (params.text k ++ (text ++ rest)).length < maxCmdlineInputLen →
    ∃ st', params.take k (params.text k ++ (text ++ rest)) st = some (.ok rest, st') ∧
      view st' k = kept k v ∧ ∀ k', k' ≠ k → view st' k' = view st k'

variable {c : Command K σ} {s rest : List Char} {st st' : σ} {read : List K} {k m : K}

namespace Command

/-- The keys that were read are those the state tells of. -/
def Knows (c : Command K σ) (read : List K) (st : σ) : Prop :=
  ∀ m ∈ c.noted, c.params.has st m = true ↔ m ∈ read

/-- A text whose reading comes to a dead end: to a place where no key stands, to an item that is
refused, or to the end of the list before all mandatory keys were read. -/
inductive DeadEnd (c : Command K σ) : List K → List Char → Prop where
  | noKey {read : List K} {s : List Char} (none : ∀ k, ¬ c.params.text k <+: s) : DeadEnd c read s
  | refused {read : List K} {k : K} {text : List Char} (item : c.reading read k text = .refused) :
      DeadEnd c read (c.params.text k ++ text)
  | incomplete {read : List K} {k m : K} {text rest : List Char}
      (item : c.reading read k text = .left rest) (stop : rest.head? ≠ some ',')
      (mandatory : m ∈ c.params.mandatory) (missing : m ∉ k :: read) :
      DeadEnd c read (c.params.text k ++ text)
  | next {read : List K} {k : K} {text rest : List Char}
      (item : c.reading read k text = .left (',' :: rest)) (tail : DeadEnd c (k :: read) rest) :
      DeadEnd c read (c.params.text k ++ text)

theorem round_key (c : Command K σ) (k : K) (text : List Char) (st : σ) :
    c.params.round (c.params.text k ++ text) st = c.params.take k (c.params.text k ++ text) st := by
  unfold Params.round
  rw [c.finds]

theorem loop_error {e : DocaError} (h : c.params.round s st = some (.error e, st')) :
    c.params.loop s st = some (.error e, st') := by
  rw [Params.loop]
  split <;> simp_all

theorem loop_null (h : c.params.round s st = none) : c.params.loop s st = none := by
  rw [Params.loop]
  split <;> simp_all

theorem loop_stop (h : c.params.round s st = some (.ok rest, st')) (hstop : rest.head? ≠ some ',') :
    c.params.loop s st = some (.ok (), st') := by
  rw [Params.loop]
  cases rest with
  | nil => split <;> simp_all
  | cons tmpChar rest =>
    have hcomma : tmpChar ≠ ',' := by simpa using hstop
    split <;> simp_all

theorem loop_next (h : c.params.round s st = some (.ok (',' :: rest), st')) :
    c.params.loop s st = c.params.loop rest st' := by
  rw [Params.loop]
  split <;> simp_all

theorem parse_error {e : DocaError} (h : c.params.loop s st = some (.error e, st')) :
    c.params.parse s st = some (.error e, st') := by
  simp [Params.parse, h]

theorem parse_null (h : c.params.loop s st = none) : c.params.parse s st = none := by
  simp [Params.parse, h]

theorem parse_ok (h : c.params.loop s st = some (.ok (), st')) :
    c.params.parse s st =
      if c.params.mandatory.all (c.params.has st') then some (.ok (), st')
      else some (.error .invalidValue, st') := by
  simp [Params.parse, h]

theorem parse_next (h : c.params.round s st = some (.ok (',' :: rest), st')) :
    c.params.parse s st = c.params.parse rest st' := by
  simp only [Params.parse, loop_next h]

/-- The list is refused, in its reading or because a mandatory key was not given. -/
def Rejects (c : Command K σ) (s : List Char) (st : σ) : Prop :=
  ∃ e st', c.params.parse s st = some (.error e, st')

theorem rejects_of_error (h : ∃ e st', c.params.round s st = some (.error e, st')) :
    c.Rejects s st := by
  obtain ⟨e, st', hround⟩ := h
  exact ⟨e, st', parse_error (loop_error hround)⟩

theorem not_rejects_of_null (h : c.params.round s st = none) : ¬ c.Rejects s st := by
  rintro ⟨e, st', hparse⟩
  rw [parse_null (loop_null h)] at hparse
  cases hparse

/-- Behind the last item the list is refused exactly when a mandatory key is missing. -/
theorem rejects_stop (h : c.params.round s st = some (.ok rest, st')) (hstop : rest.head? ≠ some ',')
    (hknows : c.Knows read st') :
    c.Rejects s st ↔ ∃ m ∈ c.params.mandatory, m ∉ read := by
  have hall : c.params.mandatory.all (c.params.has st') = true ↔
      ∀ m ∈ c.params.mandatory, m ∈ read := by
    rw [List.all_eq_true]
    constructor
    · intro hgiven m hm
      exact (hknows m (c.mandatory_noted m hm)).mp (hgiven m hm)
    · intro hread m hm
      exact (hknows m (c.mandatory_noted m hm)).mpr (hread m hm)
  unfold Rejects
  rw [parse_ok (loop_stop h hstop)]
  split
  · rename_i hgiven
    simpa using hall.mp hgiven
  · rename_i hgiven
    rw [hall] at hgiven
    simpa using hgiven

theorem rejects_next (h : c.params.round s st = some (.ok (',' :: rest), st')) :
    c.Rejects s st ↔ c.Rejects rest st' := by
  unfold Rejects
  rw [parse_next h]

theorem noKey_iff (c : Command K σ) (s : List Char) :
    (∀ k, ¬ c.params.text k <+: s) ↔
      c.params.keys.find? (fun k => (c.params.text k).isPrefixOf s) = none := by
  rw [List.find?_eq_none]
  constructor
  · intro h k hk
    simpa [List.isPrefixOf_iff_prefix] using h k
  · rintro h k ⟨text, rfl⟩
    exact h k (List.mem_of_find?_eq_some (c.finds k text)) (by simp [List.isPrefixOf_iff_prefix])

theorem rejects_of_deadEnd (h : c.DeadEnd read s) (hlen : s.length < maxCmdlineInputLen)
    (hknows : c.Knows read st) : c.Rejects s st := by
  induction h generalizing st with
  | @noKey read s none =>
    apply rejects_of_error
    rw [noKey_iff] at none
    exact ⟨.invalidValue, st, by simp [Params.round, none]⟩
  | @refused read k text item =>
    have hread := c.reads read k text st hlen hknows
    rw [item] at hread
    apply rejects_of_error
    rw [round_key]
    exact hread
  | @incomplete read k m text rest item stop mandatory missing =>
    have hread := c.reads read k text st hlen hknows
    rw [item] at hread
    obtain ⟨st', htake, hknows'⟩ := hread
    rw [← round_key] at htake
    exact (rejects_stop htake stop hknows').mpr ⟨m, mandatory, missing⟩
  | @next read k text rest item tail ih =>
    have hread := c.reads read k text st hlen hknows
    rw [item] at hread
    obtain ⟨st', htake, hknows'⟩ := hread
    rw [← round_key] at htake
    have honward := c.params.round_onward htake
    rw [List.length_cons] at honward
    exact (rejects_next htake).mpr (ih (by omega) hknows')

theorem deadEnd_of_rejects (h : c.Rejects s st) (hlen : s.length < maxCmdlineInputLen)
    (hknows : c.Knows read st) : c.DeadEnd read s := by
  induction hn : s.length using Nat.strong_induction_on generalizing s st read with
  | h n ih =>
    by_cases hkey : ∃ k, c.params.text k <+: s
    · obtain ⟨k, text, rfl⟩ := hkey
      have hread := c.reads read k text st hlen hknows
      cases hitem : c.reading read k text with
      | null =>
        rw [hitem, ← round_key] at hread
        exact absurd h (not_rejects_of_null hread)
      | refused => exact .refused hitem
      | left rest =>
        rw [hitem] at hread
        obtain ⟨st', htake, hknows'⟩ := hread
        rw [← round_key] at htake
        by_cases hcomma : rest.head? = some ','
        · obtain ⟨rest, rfl⟩ := List.head?_eq_some_iff.mp hcomma
          have honward := c.params.round_onward htake
          rw [List.length_cons] at honward
          rw [rejects_next htake] at h
          exact .next hitem (ih rest.length (by omega) h (by omega) hknows' rfl)
        · obtain ⟨m, hm, hmissing⟩ := (rejects_stop htake hcomma hknows').mp h
          exact .incomplete hitem hcomma hm hmissing
    · exact .noKey (not_exists.mp hkey)

/-- A list is refused exactly when its reading comes to a dead end. -/
theorem rejects_iff (hlen : s.length < maxCmdlineInputLen) (hknows : c.Knows read st) :
    c.Rejects s st ↔ c.DeadEnd read s :=
  ⟨fun h => deadEnd_of_rejects h hlen hknows, fun h => rejects_of_deadEnd h hlen hknows⟩

variable {i : Item c.Value} {items items' : List (Item c.Value)}

/-- The items as they are typed, with commas between them. -/
def join (c : Command K σ) (items : List (Item c.Value)) : List Char :=
  [','].intercalate (items.map fun i => c.params.text i.key ++ i.text)

/-- A list of items with different keys, each with a value, and all that are mandatory. -/
structure WellFormed (c : Command K σ) (s : List Char) (items : List (Item c.Value)) : Prop where
  joined : s = c.join items
  written : ∀ i ∈ items, c.Written i.key i.text i.value
  distinct : (items.map Item.key).Nodup
  complete : ∀ k ∈ c.params.mandatory, k ∈ items.map Item.key

theorem join_single (c : Command K σ) (i : Item c.Value) :
    c.join [i] = c.params.text i.key ++ (i.text ++ []) := by
  simp [join, List.intercalate]

theorem join_cons (c : Command K σ) (i j : Item c.Value) (items : List (Item c.Value)) :
    c.join (i :: j :: items) = c.params.text i.key ++ (i.text ++ ',' :: c.join (j :: items)) := by
  simp [join, List.intercalate]

/-- One item is taken, whatever follows it. -/
theorem round_item (hw : c.Written i.key i.text i.value) (hreg : c.regular i.key)
    (hfresh : c.view st i.key = c.view c.start i.key) (hrest : Follows rest)
    (hknows : c.Knows read st)
    (hlen : (c.params.text i.key ++ (i.text ++ rest)).length < maxCmdlineInputLen) :
    ∃ st', c.params.round (c.params.text i.key ++ (i.text ++ rest)) st = some (.ok rest, st') ∧
      c.view st' i.key = c.kept i.key i.value ∧
      (∀ k, k ≠ i.key → c.view st' k = c.view st k) ∧ c.Knows (i.key :: read) st' := by
  obtain ⟨st', htake, hview, hframe⟩ := c.takes _ _ _ _ _ hw hreg hfresh hrest hlen
  have hread := c.reads read i.key (i.text ++ rest) st hlen hknows
  rw [round_key]
  cases hitem : c.reading read i.key (i.text ++ rest) with
  | null => simp [hitem, htake, Does] at hread
  | refused => simp [hitem, htake, Does] at hread
  | left left =>
    simp only [hitem, htake, Does, Option.some.injEq, Prod.mk.injEq, Except.ok.injEq] at hread
    obtain ⟨_, ⟨-, rfl⟩, hknows'⟩ := hread
    exact ⟨st', htake, hview, hframe, hknows'⟩

theorem loop_items (hne : items ≠ []) (hw : ∀ i ∈ items, c.Written i.key i.text i.value)
    (hreg : ∀ i ∈ items, c.regular i.key) (hdistinct : (items.map Item.key).Nodup)
    (hfresh : ∀ i ∈ items, c.view st i.key = c.view c.start i.key) (hknows : c.Knows read st)
    (hlen : (c.join items).length < maxCmdlineInputLen) :
    ∃ st', c.params.loop (c.join items) st = some (.ok (), st') ∧
      (∀ i ∈ items, c.view st' i.key = c.kept i.key i.value) ∧
      (∀ k, k ∉ items.map Item.key → c.view st' k = c.view st k) ∧
      c.Knows ((items.map Item.key).reverse ++ read) st' := by
  induction items generalizing st read with
  | nil => exact absurd rfl hne
  | cons i items ih =>
    have hhead := hw i (by simp)
    have hreg₁ := hreg i (by simp)
    have hfresh₁ := hfresh i (by simp)
    rw [List.map_cons, List.nodup_cons] at hdistinct
    cases items with
    | nil =>
      rw [join_single] at hlen ⊢
      obtain ⟨st', hround, hview, hframe, hknows'⟩ :=
        round_item hhead hreg₁ hfresh₁ (.inl rfl) hknows hlen
      refine ⟨st', loop_stop hround (by simp), by simpa using hview, ?_, by simpa using hknows'⟩
      intro k hk
      exact hframe k (by simpa using hk)
    | cons j items =>
      rw [join_cons] at hlen ⊢
      obtain ⟨st₁, hround, hview, hframe, hknows₁⟩ :=
        round_item hhead hreg₁ hfresh₁ (.inr ⟨_, rfl⟩) hknows hlen
      have hother : ∀ i' ∈ j :: items, i'.key ≠ i.key := by
        intro i' hi' heq
        exact hdistinct.1 (heq ▸ List.mem_map_of_mem hi')
      have htail : ∀ i' ∈ j :: items, c.view st₁ i'.key = c.view c.start i'.key := by
        intro i' hi'
        rw [hframe _ (hother i' hi')]
        exact hfresh i' (by simp [List.mem_cons.mp hi'])
      obtain ⟨st', hloop, hview', hframe', hknows'⟩ :=
        ih (by simp) (fun i' hi' => hw i' (List.mem_cons_of_mem _ hi'))
          (fun i' hi' => hreg i' (List.mem_cons_of_mem _ hi')) hdistinct.2 htail hknows₁
          (by simp at hlen ⊢; omega)
      refine ⟨st', by rw [loop_next hround, hloop], ?_, ?_, by simpa using hknows'⟩
      · intro i' hi'
        rcases List.mem_cons.mp hi' with rfl | hi'
        · rw [hframe' _ hdistinct.1, hview]
        · exact hview' i' hi'
      · intro k hk
        rw [List.map_cons, List.mem_cons, not_or] at hk
        rw [hframe' k hk.2, hframe k hk.1]

theorem join_length (hne : items ≠ []) :
    (c.join items).length + 1 =
      (items.map fun i => (c.params.text i.key ++ i.text).length + 1).sum := by
  induction items with
  | nil => exact absurd rfl hne
  | cons i items ih =>
    cases items with
    | nil => simp [join_single]
    | cons j items =>
      have htail := ih (by simp)
      rw [join_cons, List.map_cons, List.sum_cons, ← htail]
      simp
      omega

theorem WellFormed.nonempty (h : c.WellFormed s items) : items ≠ [] := by
  rintro rfl
  obtain ⟨k, hk⟩ := List.exists_mem_of_ne_nil _ c.mandatory_nonempty
  simpa using h.complete k hk

theorem WellFormed.perm (h : c.WellFormed s items) (hperm : items'.Perm items) :
    c.WellFormed (c.join items') items' where
  joined := rfl
  written := fun i hi => h.written i (hperm.mem_iff.mp hi)
  distinct := (hperm.map _).nodup_iff.mpr h.distinct
  complete := fun k hk => (hperm.map _).mem_iff.mpr (h.complete k hk)

theorem WellFormed.perm_length (h : c.WellFormed s items) (hperm : items'.Perm items) :
    (c.join items').length = s.length := by
  have hne' : items' ≠ [] := by
    rintro rfl
    exact h.nonempty (List.nil_perm.mp hperm)
  have hlen := join_length h.nonempty
  have hlen' := join_length hne'
  rw [(hperm.map _).sum_eq] at hlen'
  rw [h.joined]
  omega

/-- What a caller gets: the result and the values. -/
def outcome (c : Command K σ) (s : List Char) : Option (Except DocaError Unit × ∀ k, c.Value k) :=
  (c.params.parse s c.start).map fun r => (r.1, c.view r.2)

/-- The values of the items, and those that the caller put there for the other keys. -/
structure Taken (c : Command K σ) (items : List (Item c.Value)) (w : ∀ k, c.Value k) : Prop where
  given : ∀ i ∈ items, w i.key = i.value
  others : ∀ k, k ∉ items.map Item.key → w k = c.view c.start k

theorem Taken.unique {w w' : ∀ k, c.Value k} (h : c.Taken items w) (h' : c.Taken items' w')
    (hperm : items'.Perm items) : w = w' := by
  funext k
  by_cases hk : k ∈ items.map Item.key
  · obtain ⟨i, hi, rfl⟩ := List.mem_map.mp hk
    rw [h.given i hi, h'.given i (hperm.mem_iff.mpr hi)]
  · rw [h.others k hk, h'.others k (fun hk' => hk ((hperm.map _).mem_iff.mp hk'))]

/-- A parameter list is read completely and in any order, and nothing else is accepted. -/
structure ReadsAll (c : Command K σ) (s : List Char) : Prop where
  takes : ∀ items, c.WellFormed s items →
    ∃ w, c.outcome s = some (.ok (), w) ∧ c.Taken items w
  anyOrder : ∀ items items', c.WellFormed s items → items'.Perm items →
    c.outcome (c.join items') = c.outcome s
  rejects : (∀ items, ¬ c.WellFormed s items) → ∃ e w, c.outcome s = some (.error e, w)

/-- The value of an item is kept as it is written. -/
def Kept (c : Command K σ) (i : Item c.Value) : Prop :=
  c.regular i.key ∧ c.kept i.key i.value = i.value

theorem outcome_wellFormed (h : c.WellFormed s items) (hreg : ∀ i ∈ items, c.regular i.key)
    (hlen : s.length < maxCmdlineInputLen) :
    ∃ w, c.outcome s = some (.ok (), w) ∧ (∀ i ∈ items, w i.key = c.kept i.key i.value) ∧
      ∀ k, k ∉ items.map Item.key → w k = c.view c.start k := by
  have hknows : c.Knows [] c.start := by
    intro m hm
    simp [c.start_noted m hm]
  have hjoined := h.joined
  obtain ⟨st', hloop, hview, hframe, hknows'⟩ := loop_items h.nonempty h.written hreg h.distinct
    (fun _ _ => rfl) hknows (by rwa [← hjoined])
  have hall : c.params.mandatory.all (c.params.has st') = true := by
    rw [List.all_eq_true]
    intro m hm
    exact (hknows' m (c.mandatory_noted m hm)).mpr (by simpa using h.complete m hm)
  refine ⟨c.view st', ?_, hview, hframe⟩
  rw [outcome, hjoined, parse_ok hloop, if_pos hall]
  rfl

theorem outcome_kept (h : c.WellFormed s items) (hkept : ∀ i ∈ items, c.Kept i)
    (hlen : s.length < maxCmdlineInputLen) :
    ∃ w, c.outcome s = some (.ok (), w) ∧ c.Taken items w := by
  obtain ⟨w, hout, hview, hothers⟩ := outcome_wellFormed h (fun i hi => (hkept i hi).1) hlen
  refine ⟨w, hout, ?_, hothers⟩
  intro i hi
  rw [hview i hi, (hkept i hi).2]

theorem outcome_error_iff (hlen : s.length < maxCmdlineInputLen) :
    (∃ e w, c.outcome s = some (.error e, w)) ↔ c.DeadEnd [] s := by
  have hknows : c.Knows [] c.start := by
    intro m hm
    simp [c.start_noted m hm]
  rw [← rejects_iff hlen hknows]
  simp [outcome, Rejects]

/-- When the reading of a text is what it should be: the text is a list of which every value is
kept, or it is no list and its reading comes to a dead end. -/
def Readable (c : Command K σ) (s : List Char) : Prop :=
  ((∃ items, c.WellFormed s items) ∧ ∀ items, c.WellFormed s items → ∀ i ∈ items, c.Kept i) ∨
    (∀ items, ¬ c.WellFormed s items) ∧ c.DeadEnd [] s

theorem kept_of_readsAll (h : c.ReadsAll s) (hwf : c.WellFormed s items)
    (hreg : ∀ i ∈ items, c.regular i.key) (hlen : s.length < maxCmdlineInputLen) :
    ∀ i ∈ items, c.Kept i := by
  intro i hi
  obtain ⟨w, hout, hview, -⟩ := outcome_wellFormed hwf hreg hlen
  obtain ⟨w', hout', htaken⟩ := h.takes items hwf
  obtain rfl : w = w' := by simpa [hout] using hout'
  exact ⟨hreg i hi, by rw [← hview i hi, htaken.given i hi]⟩

theorem readsAll_of_kept (hne : ∃ items, c.WellFormed s items)
    (hkept : ∀ items, c.WellFormed s items → ∀ i ∈ items, c.Kept i)
    (hlen : s.length < maxCmdlineInputLen) : c.ReadsAll s where
  takes := fun items hwf => outcome_kept hwf (hkept items hwf) hlen
  anyOrder := by
    intro items items' hwf hperm
    obtain ⟨w, hout, htaken⟩ := outcome_kept hwf (hkept items hwf) hlen
    obtain ⟨w', hout', htaken'⟩ := outcome_kept (hwf.perm hperm)
      (fun i hi => hkept items hwf i (hperm.mem_iff.mp hi)) (by rwa [hwf.perm_length hperm])
    rw [hout, hout', htaken.unique htaken' hperm]
  rejects := by
    intro hnone
    obtain ⟨items, hwf⟩ := hne
    exact absurd hwf (hnone items)

theorem readsAll_iff (hlen : s.length < maxCmdlineInputLen)
    (hirregular : ∀ items, c.WellFormed s items → (∃ i ∈ items, ¬ c.regular i.key) →
      ¬ c.ReadsAll s) : c.ReadsAll s ↔ c.Readable s := by
  constructor
  · intro h
    by_cases hne : ∃ items, c.WellFormed s items
    · refine .inl ⟨hne, ?_⟩
      intro items hwf
      apply kept_of_readsAll h hwf _ hlen
      by_contra hirr
      rw [not_forall] at hirr
      obtain ⟨i, hi⟩ := hirr
      rw [Classical.not_imp] at hi
      exact hirregular items hwf ⟨i, hi⟩ h
    · rw [not_exists] at hne
      exact .inr ⟨hne, (outcome_error_iff hlen).mp (h.rejects hne)⟩
  · rintro (⟨hne, hkept⟩ | ⟨hnone, hdead⟩)
    · exact readsAll_of_kept hne hkept hlen
    · refine ⟨?_, ?_, fun _ => (outcome_error_iff hlen).mpr hdead⟩
      · intro items hwf
        exact absurd hwf (hnone items)
      · intro items _ hwf
        exact absurd hwf (hnone items)

end Command

end DocaApps.Proofs.ParamsLists
