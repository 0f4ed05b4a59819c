import DocaApps.Common.StructParser

namespace DocaApps.Proofs.StructSplitting
open Common.StructParser Lib.CStrings

variable {σ : Type} {fillStruct : FillStruct σ} {structPtr structPtr' : σ} {e : DocaError}
  {s fieldName value rest : List Char} {pairs : List (List Char × List Char)}

theorem parseStruct_invalid (hcut : cutField s = .invalid) :
    parseStruct fillStruct s structPtr = ⟨[], structPtr, .returned (.error .invalidValue)⟩ := by
  rw [parseStruct]
  split
  · rfl
  · simp_all
  · simp_all

theorem parseStruct_outside (hcut : cutField s = .outside) :
    parseStruct fillStruct s structPtr = ⟨[], structPtr, .outside⟩ := by
  rw [parseStruct]
  split
  · simp_all
  · rfl
  · simp_all

theorem parseStruct_failed (hcut : cutField s = .field fieldName value rest)
    (hfill : fillStruct fieldName value structPtr = (.error e, structPtr')) :
    parseStruct fillStruct s structPtr =
      ⟨[(fieldName, value)], structPtr', .returned (.error e)⟩ := by
  rw [parseStruct]
  split
  · simp_all
  · simp_all
  · rename_i heq
    rw [hcut] at heq
    cases heq
    rw [hfill]

theorem parseStruct_again (hcut : cutField s = .field fieldName value (',' :: rest))
    (hfill : fillStruct fieldName value structPtr = (.ok (), structPtr')) :
    parseStruct fillStruct s structPtr =
      (parseStruct fillStruct rest structPtr').called fieldName value := by
  rw [parseStruct]
  split
  · simp_all
  · simp_all
  · rename_i heq
    rw [hcut] at heq
    cases heq
    simp [hfill]

theorem parseStruct_done (hcut : cutField s = .field fieldName value rest)
    (hfill : fillStruct fieldName value structPtr = (.ok (), structPtr'))
    (hrest : rest.head? ≠ some ',') :
    parseStruct fillStruct s structPtr =
      ⟨[(fieldName, value)], structPtr', .returned (.ok ())⟩ := by
  rw [parseStruct]
  split
  · simp_all
  · simp_all
  · rename_i heq
    rw [hcut] at heq
    cases heq
    simp [hfill, hrest]

/-- An input of the form `f1=v1,...,fn=vn`. -/
inductive Fields : List Char → List (List Char × List Char) → Prop where
  | last {fieldName value : List Char} (name : fieldName ≠ [] ∧ '=' ∉ fieldName)
      (val : value ≠ [] ∧ ',' ∉ value) :
      Fields (fieldName ++ '=' :: value) [(fieldName, value)]
  | cons {fieldName value rest : List Char} {pairs : List (List Char × List Char)}
      (name : fieldName ≠ [] ∧ '=' ∉ fieldName) (val : value ≠ [] ∧ ',' ∉ value)
      (tail : Fields rest pairs) :
      Fields (fieldName ++ '=' :: (value ++ ',' :: rest)) ((fieldName, value) :: pairs)

/-- The pairs are filled in, in their order, until one cannot be. -/
def fillAll (fillStruct : FillStruct σ) : List (List Char × List Char) → σ → Parsed σ
  | [], structPtr => ⟨[], structPtr, .returned (.ok ())⟩
  | (fieldName, value) :: pairs, structPtr =>
    match fillStruct fieldName value structPtr with
    | (.error e, structPtr) => ⟨[(fieldName, value)], structPtr, .returned (.error e)⟩
    | (.ok (), structPtr) => (fillAll fillStruct pairs structPtr).called fieldName value

/-- What the splitting of one input is for, whatever is to be filled. -/
structure Splits (s : List Char) : Prop where
  inside : ∀ (σ : Type) (fillStruct : FillStruct σ) (structPtr : σ),
    ∃ result, (parseStruct fillStruct s structPtr).ending = .returned result
  fills : ∀ pairs, Fields s pairs → ∀ (σ : Type) (fillStruct : FillStruct σ) (structPtr : σ),
    parseStruct fillStruct s structPtr = fillAll fillStruct pairs structPtr
  rejects : (∀ pairs, ¬ Fields s pairs) → ∀ (σ : Type) (fillStruct : FillStruct σ) (structPtr : σ),
    ∃ e, (parseStruct fillStruct s structPtr).ending = .returned (.error e)

/-- No name and no value is longer than the buffers hold. -/
def Short (pairs : List (List Char × List Char)) : Prop :=
  ∀ f ∈ pairs, f.1.length < maxFieldInputLen ∧ f.2.length < maxFieldInputLen

/-- An input whose reading comes to a place where no name or no value is left. Separators in
front of a name or a value do not count, and as many characters are taken as the buffers hold
of it, with one more behind a name. -/
inductive DeadEnd : List Char → Prop where
  | noName {s : List Char} (name : strtok s '=' = none) : DeadEnd s
  | noValue {s name : List Char} (hname : strtok s '=' = some name)
      (within : min 127 name.length < s.length)
      (value : strtok (s.drop (min 127 name.length + 1)) ',' = none) : DeadEnd s
  | next {s name value rest : List Char} (hname : strtok s '=' = some name)
      (within : min 127 name.length < s.length)
      (hvalue : strtok (s.drop (min 127 name.length + 1)) ',' = some value)
      (comma : (s.drop (min 127 name.length + 1)).drop (min 127 value.length) = ',' :: rest)
      (tail : DeadEnd rest) : DeadEnd s

theorem cutField_nameless (hlen : s.length < maxCmdlineInputLen)
    (hname : strtok s '=' = none) : cutField s = .invalid := by
  simp only [cutField, strlcpy_of_short hlen, hname]

theorem cutField_of_name {name : List Char} (hlen : s.length < maxCmdlineInputLen)
    (hname : strtok s '=' = some name) :
    cutField s =
      if s.length < min 127 name.length + 1 then .outside
      else match strtok (s.drop (min 127 name.length + 1)) ',' with
        | none => .invalid
        | some value => .field (name.take 127) (value.take 127)
            ((s.drop (min 127 name.length + 1)).drop (min 127 value.length)) := by
  have hdrop : ∀ n, strlcpy (s.drop n) maxCmdlineInputLen = s.drop n := by
    intro n
    apply strlcpy_of_short
    rw [List.length_drop]
    omega
  have hsize : maxFieldInputLen - 1 = 127 := rfl
  simp only [cutField, strlcpy_of_short hlen, hname, length_strlcpy, hsize, hdrop]
  congr 1

/-- A name and a value that the buffers hold are cut out as they are. -/
theorem cutField_field (hlen : (fieldName ++ '=' :: s).length < maxCmdlineInputLen)
    (name : fieldName ≠ [] ∧ '=' ∉ fieldName) (hname : fieldName.length < maxFieldInputLen)
    (hval : strtok s ',' = some value) (hvalue : value.length < maxFieldInputLen) :
    cutField (fieldName ++ '=' :: s) = .field fieldName value (s.drop value.length) := by
  have hsize : maxFieldInputLen = 128 := rfl
  have hmin : min 127 fieldName.length = fieldName.length := by omega
  have hmin' : min 127 value.length = value.length := by omega
  have hdrop : (fieldName ++ '=' :: s).drop (fieldName.length + 1) = s := by
    rw [List.drop_append, List.drop_eq_nil_of_le (by omega)]
    simp
  have hin : ¬ (fieldName ++ '=' :: s).length < fieldName.length + 1 := by
    simp only [List.length_append, List.length_cons]
    omega
  rw [cutField_of_name hlen (strtok_append name.1 name.2), hmin, if_neg hin, hdrop, hval]
  simp only [hmin', List.take_of_length_le (show fieldName.length ≤ 127 by omega),
    List.take_of_length_le (show value.length ≤ 127 by omega)]

theorem strtok_value (val : value ≠ [] ∧ ',' ∉ value) : strtok value ',' = some value :=
  strtok_of_notMem val.1 val.2

theorem strtok_value_comma (val : value ≠ [] ∧ ',' ∉ value) :
    strtok (value ++ ',' :: rest) ',' = some value := strtok_append val.1 val.2

theorem Fields.unique {pairs' : List (List Char × List Char)} (h : Fields s pairs)
    (h' : Fields s pairs') : pairs = pairs' := by
  have hsplit : ∀ {f f' t t' : List Char}, f ≠ [] ∧ '=' ∉ f → f' ≠ [] ∧ '=' ∉ f' →
      f ++ '=' :: t = f' ++ '=' :: t' → f = f' ∧ t = t' := by
    intro f f' t t' hf hf' heq
    have hname : some f = some f' := by
      rw [← strtok_append hf.1 hf.2, heq, strtok_append hf'.1 hf'.2]
    obtain rfl := Option.some.inj hname
    exact ⟨rfl, (List.cons.inj (List.append_cancel_left heq)).2⟩
  induction h generalizing pairs' with
  | @last f v name val =>
    generalize hwhole : f ++ '=' :: v = whole at h'
    cases h' with
    | last name' val' =>
      obtain ⟨rfl, rfl⟩ := hsplit name name' hwhole
      rfl
    | cons name' val' tail' =>
      obtain ⟨rfl, rfl⟩ := hsplit name name' hwhole
      exact absurd (List.mem_append_right _ List.mem_cons_self) val.2
  | @cons f v rest pairs name val tail ih =>
    generalize hwhole : f ++ '=' :: (v ++ ',' :: rest) = whole at h'
    cases h' with
    | last name' val' =>
      obtain ⟨rfl, rfl⟩ := hsplit name name' hwhole
      exact absurd (List.mem_append_right _ List.mem_cons_self) val'.2
    | cons name' val' tail' =>
      obtain ⟨rfl, hrest⟩ := hsplit name name' hwhole
      have hvalue : strtok (_ ++ ',' :: rest) ',' = some _ := strtok_value_comma val
      rw [hrest, strtok_value_comma val'] at hvalue
      obtain rfl := Option.some.inj hvalue
      obtain rfl := (List.cons.inj (List.append_cancel_left hrest)).2
      rw [ih tail']

theorem fields_parse (h : Fields s pairs) (hshort : Short pairs)
    (hlen : s.length < maxCmdlineInputLen) (structPtr : σ) :
    parseStruct fillStruct s structPtr = fillAll fillStruct pairs structPtr := by
  induction h generalizing structPtr with
  | @last f v name val =>
    obtain ⟨hname, hvalue⟩ := hshort (f, v) (by simp)
    have hcut := cutField_field hlen name hname (strtok_value val) hvalue
    rw [List.drop_length] at hcut
    rcases hfill : fillStruct f v structPtr with ⟨_ | _, structPtr'⟩
    · rw [parseStruct_failed hcut hfill, fillAll, hfill]
    · rw [parseStruct_done hcut hfill (by simp), fillAll, hfill]
      rfl
  | @cons f v rest pairs name val tail ih =>
    obtain ⟨hname, hvalue⟩ := hshort (f, v) (by simp)
    have hcut := cutField_field hlen name hname (strtok_value_comma val) hvalue
    rw [List.drop_append, List.drop_length, Nat.sub_self, List.nil_append, List.drop_zero] at hcut
    have hlen' : rest.length < maxCmdlineInputLen := by
      simp only [List.length_append, List.length_cons] at hlen
      omega
    rcases hfill : fillStruct f v structPtr with ⟨_ | _, structPtr'⟩
    · rw [parseStruct_failed hcut hfill, fillAll, hfill]
    · rw [parseStruct_again hcut hfill, fillAll, hfill]
      simp only
      rw [ih (fun g hg => hshort g (by simp [hg])) hlen']

theorem fillAll_returned (pairs : List (List Char × List Char)) (structPtr : σ) :
    ∃ result, (fillAll fillStruct pairs structPtr).ending = .returned result := by
  induction pairs generalizing structPtr with
  | nil => exact ⟨_, rfl⟩
  | cons f pairs ih =>
    rcases hfill : fillStruct f.1 f.2 structPtr with ⟨_ | _, structPtr'⟩
    · rw [fillAll, hfill]
      exact ⟨_, rfl⟩
    · rw [fillAll, hfill]
      exact ih structPtr'

/-- A dead end is an error whatever has been filled in before. -/
theorem deadEnd_rejected (h : DeadEnd s) (hlen : s.length < maxCmdlineInputLen) (structPtr : σ) :
    ∃ e, (parseStruct fillStruct s structPtr).ending = .returned (.error e) := by
  induction h generalizing structPtr with
  | noName name =>
    rw [parseStruct_invalid (cutField_nameless hlen name)]
    exact ⟨_, rfl⟩
  | noValue hname within value =>
    have hcut := cutField_of_name hlen hname
    rw [if_neg (by omega), value] at hcut
    rw [parseStruct_invalid hcut]
    exact ⟨_, rfl⟩
  | @next s name value rest hname within hvalue comma tail ih =>
    have hcut := cutField_of_name hlen hname
    rw [if_neg (by omega), hvalue] at hcut
    simp only [comma] at hcut
    have hlen' : rest.length < maxCmdlineInputLen := by
      have hrest := cutField_rest hcut
      rw [List.length_cons] at hrest
      omega
    rcases hfill : fillStruct (name.take 127) (value.take 127) structPtr with ⟨_ | _, structPtr'⟩
    · rw [parseStruct_failed hcut hfill]
      exact ⟨_, rfl⟩
    · rw [parseStruct_again hcut hfill]
      exact ih hlen' structPtr'

/-- A callback that takes every field. -/
def fillNothing : FillStruct Unit := fun _ _ structPtr => (.ok (), structPtr)

/-- Only a dead end is an error when every field is taken. -/
theorem deadEnd_of_rejected (hlen : s.length < maxCmdlineInputLen)
    (h : (parseStruct fillNothing s ()).ending = .returned (.error e)) : DeadEnd s := by
  induction hn : s.length using Nat.strong_induction_on generalizing s with
  | h n ih =>
    subst hn
    cases hname : strtok s '=' with
    | none => exact .noName hname
    | some name =>
      have hcut := cutField_of_name hlen hname
      by_cases hin : s.length < min 127 name.length + 1
      · rw [if_pos hin] at hcut
        rw [parseStruct_outside hcut] at h
        cases h
      · rw [if_neg hin] at hcut
        cases hvalue : strtok (s.drop (min 127 name.length + 1)) ',' with
        | none => exact .noValue hname (by omega) hvalue
        | some value =>
          rw [hvalue] at hcut
          simp only at hcut
          by_cases hcomma : ((s.drop (min 127 name.length + 1)).drop
              (min 127 value.length)).head? = some ','
          · obtain ⟨rest, hrest⟩ := List.head?_eq_some_iff.mp hcomma
            rw [hrest] at hcut
            have hlt := cutField_rest hcut
            rw [List.length_cons] at hlt
            rw [parseStruct_again hcut rfl] at h
            exact .next hname (by omega) hvalue hrest (ih rest.length (by omega) (by omega) h rfl)
          · rw [parseStruct_done hcut rfl hcomma] at h
            cases h

theorem cutField_short (hcut : cutField s = .field fieldName value rest) :
    fieldName.length < maxFieldInputLen ∧ value.length < maxFieldInputLen := by
  have hsize : maxFieldInputLen = 128 := rfl
  simp only [cutField] at hcut
  split at hcut
  · cases hcut
  · split at hcut
    · cases hcut
    · split at hcut
      · cases hcut
      · cases hcut
        simp only [length_strlcpy, hsize]
        omega

/-- Whatever is called has passed through the buffers. -/
theorem calls_short (s : List Char) : Short (parseStruct fillNothing s ()).calls := by
  induction hn : s.length using Nat.strong_induction_on generalizing s with
  | h n ih =>
    subst hn
    cases hcut : cutField s with
    | invalid =>
      rw [parseStruct_invalid hcut]
      simp [Short]
    | outside =>
      rw [parseStruct_outside hcut]
      simp [Short]
    | field fieldName value rest =>
      have hsizes := cutField_short hcut
      by_cases hcomma : rest.head? = some ','
      · obtain ⟨rest', rfl⟩ := List.head?_eq_some_iff.mp hcomma
        have hlt := cutField_rest hcut
        rw [List.length_cons] at hlt
        rw [parseStruct_again hcut rfl]
        intro f hf
        rcases List.mem_cons.mp hf with rfl | hf
        · exact hsizes
        · exact ih rest'.length (by omega) rest' rfl f hf
      · rw [parseStruct_done hcut rfl hcomma]
        intro f hf
        obtain rfl := List.mem_singleton.mp hf
        exact hsizes

theorem fillAll_nothing (pairs : List (List Char × List Char)) :
    (fillAll fillNothing pairs ()).calls = pairs := by
  induction pairs with
  | nil => rfl
  | cons f pairs ih => exact congrArg (List.cons f) ih

/-- An input is split as it should be when every name and value fits its buffer, and rejected as
it should be when its reading comes to a dead end. -/
theorem parse_struct_splits_iff (hlen : s.length < maxCmdlineInputLen) :
    Splits s ↔ (∃ pairs, Fields s pairs ∧ Short pairs) ∨
      ((∀ pairs, ¬ Fields s pairs) ∧ DeadEnd s) := by
  constructor
  · intro h
    by_cases hfields : ∃ pairs, Fields s pairs
    · obtain ⟨pairs, hpairs⟩ := hfields
      have hshort := calls_short s
      rw [h.fills pairs hpairs, fillAll_nothing] at hshort
      exact Or.inl ⟨pairs, hpairs, hshort⟩
    · have hnone : ∀ pairs, ¬ Fields s pairs := fun pairs hpairs => hfields ⟨pairs, hpairs⟩
      obtain ⟨e, he⟩ := h.rejects hnone Unit fillNothing ()
      exact Or.inr ⟨hnone, deadEnd_of_rejected hlen he⟩
  · rintro (⟨pairs, hpairs, hshort⟩ | ⟨hnone, hdead⟩)
    · constructor
      · intro σ fillStruct structPtr
        rw [fields_parse hpairs hshort hlen]
        exact fillAll_returned pairs structPtr
      · intro pairs' hpairs' σ fillStruct structPtr
        rw [← hpairs.unique hpairs', fields_parse hpairs hshort hlen]
      · intro hnone
        exact absurd hpairs (hnone pairs)
    · constructor
      · intro σ fillStruct structPtr
        obtain ⟨e, he⟩ := deadEnd_rejected hdead hlen structPtr
        exact ⟨_, he⟩
      · intro pairs hpairs
        exact absurd hpairs (hnone pairs)
      · intro _ σ fillStruct structPtr
        exact deadEnd_rejected hdead hlen structPtr

theorem parse_struct_splits_one : Splits ['a', '=', 'b'] := by
  have hfields : Fields (['a'] ++ '=' :: ['b']) [(['a'], ['b'])] := .last (by decide) (by decide)
  apply (parse_struct_splits_iff (by decide)).mpr
  refine Or.inl ⟨_, hfields, ?_⟩
  simp [Short, maxFieldInputLen]

/-- An input without an equals sign is read past its end, and a name of 128 characters is cut. -/
theorem cut_and_overread :
    ¬ Splits ['a'] ∧ ¬ Splits (List.replicate 128 'a' ++ ['=', 'b']) := by
  constructor
  · intro h
    obtain ⟨result, hresult⟩ := h.inside Unit fillNothing ()
    rw [parseStruct_outside rfl] at hresult
    cases hresult
  · intro h
    have hfields : Fields (List.replicate 128 'a' ++ '=' :: ['b'])
        [(List.replicate 128 'a', ['b'])] := by
      refine .last ⟨by simp, ?_⟩ (by decide)
      intro hmem
      exact absurd (List.eq_of_mem_replicate hmem) (by decide)
    have hshort := calls_short (List.replicate 128 'a' ++ ['=', 'b'])
    rw [h.fills _ hfields, fillAll_nothing] at hshort
    have hlong := (hshort _ (List.mem_singleton.mpr rfl)).1
    rw [List.length_replicate] at hlong
    exact absurd hlong (by decide)

end DocaApps.Proofs.StructSplitting
