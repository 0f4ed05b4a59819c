import DocaApps.Proofs.ParamsItems

namespace DocaApps.Proofs.ParamsCommands
open Common.StructParser Common.ParamsLists Lib.Numerals Proofs.Strtol
open Proofs.ParamsLists Proofs.ParamsItems

variable {s : List Char}

theorem createPipe_outcome (port : BitVec 16) (s : List Char) :
    (createPipe port).outcome s =
      (parseCreatePipeParams s { pipePortId := port }).map fun r => (r.1, createPipeView r.2) :=
  rfl

theorem addEntry_outcome (s : List Char) :
    addEntry.outcome s = (parseAddEntryParams s {}).map fun r => (r.1, addEntryView r.2) := rfl

theorem controlEntry_outcome (s : List Char) :
    controlEntry.outcome s =
      (parseAddControlPipeEntryParams s {}).map fun r => (r.1, controlEntryView r.2) := rfl

theorem entry_outcome (queueGiven : Bool) (s : List Char) :
    (entry queueGiven).outcome s =
      (parseEntryParams s queueGiven queueGiven {}).map fun r => (r.1, entryView r.2) := rfl

/-- A query that names the queue first ends behind its key. -/
theorem query_deadEnd {text rest : List Char} {n : Nat} (hnumber : CNumber text n) :
    (entry false).DeadEnd [] (EntryKey.pipeQueue.text ++ (text ++ rest)) := by
  obtain ⟨c, cs, rfl, hdigit⟩ := number_head hnumber
  have hcomma : c ≠ ',' := by
    rintro rfl
    simp at hdigit
  have hleft : (entry false).reading [] .pipeQueue (c :: cs ++ rest) = .left (c :: cs ++ rest) :=
    rfl
  exact .incomplete hleft (by simpa using hcomma) (m := .entryId) (by simp [entry, entryParams])
    (by simp)

theorem query_irregular {items : List (Item (entry false).Value)}
    (hlen : s.length < maxCmdlineInputLen) (hwf : (entry false).WellFormed s items)
    (hirr : ∃ i ∈ items, ¬ (entry false).regular i.key) : ¬ (entry false).ReadsAll s := by
  rintro h
  obtain ⟨i, hi, hkey⟩ := hirr
  have hqueue : i.key = .pipeQueue := by simpa [entry] using hkey
  obtain ⟨before, after, rfl⟩ := List.append_of_mem hi
  have hperm : (i :: (before ++ after)).Perm (before ++ i :: after) := List.perm_middle.symm
  have hjoin : ∃ rest, (entry false).join (i :: (before ++ after)) =
      EntryKey.pipeQueue.text ++ (i.text ++ rest) := by
    cases before ++ after with
    | nil => exact ⟨[], by rw [Command.join_single, hqueue]; rfl⟩
    | cons j items => exact ⟨_, by rw [Command.join_cons, hqueue]; rfl⟩
  obtain ⟨rest, hrest⟩ := hjoin
  have hnumber : ∃ n, CNumber i.text n := by
    have hwritten := hwf.written i hi
    obtain ⟨key, text, value⟩ := i
    obtain rfl : key = .pipeQueue := hqueue
    exact ⟨_, hwritten⟩
  obtain ⟨n, hnumber⟩ := hnumber
  have hlen' : ((entry false).join (i :: (before ++ after))).length < maxCmdlineInputLen := by
    rwa [hwf.perm_length hperm]
  obtain ⟨e, w, herror⟩ := (Command.outcome_error_iff hlen').mpr (by
    rw [hrest]
    exact query_deadEnd hnumber)
  obtain ⟨w', hok, -⟩ := h.takes _ hwf
  rw [h.anyOrder _ _ hwf hperm, hok] at herror
  cases herror

/-- The parameters of each command are read completely, in any order and nothing else, exactly
when the text is readable. -/
theorem params_read_iff (s : List Char) (port : BitVec 16) (hlen : s.length < maxCmdlineInputLen) :
    ((createPipe port).ReadsAll s ↔ (createPipe port).Readable s) ∧
      (addEntry.ReadsAll s ↔ addEntry.Readable s) ∧
      (controlEntry.ReadsAll s ↔ controlEntry.Readable s) ∧
      ((entry true).ReadsAll s ↔ (entry true).Readable s) ∧
      ((entry false).ReadsAll s ↔ (entry false).Readable s) := by
  refine ⟨?_, ?_, ?_, ?_, ?_⟩
  · apply Command.readsAll_iff hlen
    rintro items - ⟨i, -, hirr⟩
    exact absurd trivial hirr
  · apply Command.readsAll_iff hlen
    rintro items - ⟨i, -, hirr⟩
    exact absurd trivial hirr
  · apply Command.readsAll_iff hlen
    rintro items - ⟨i, -, hirr⟩
    exact absurd trivial hirr
  · apply Command.readsAll_iff hlen
    rintro items - ⟨i, -, hirr⟩
    exact absurd (.inl rfl) hirr
  · apply Command.readsAll_iff hlen
    intro items hwf hirr
    exact query_irregular hlen hwf hirr

theorem item_length {K σ : Type} {c : Command K σ} {items : List (Item c.Value)}
    (h : c.WellFormed s items) {i : Item c.Value} (hi : i ∈ items) :
    (c.params.text i.key ++ i.text).length ≤ s.length := by
  have hsum := Command.join_length (c := c) h.nonempty
  have hle : (c.params.text i.key ++ i.text).length + 1 ≤
      (items.map fun i => (c.params.text i.key ++ i.text).length + 1).sum :=
    List.single_le_sum (by simp) _ (List.mem_map.mpr ⟨i, hi, rfl⟩)
  rw [h.joined]
  omega

theorem number_three : CNumber ['3'] 3 :=
  .decimal ⟨by simp, by simp [isDigitOf, digitValue], rfl⟩ (by simp)

theorem params_read_query : "entry_id=3".toList.length < maxCmdlineInputLen ∧
    (entry false).ReadsAll "entry_id=3".toList := by
  have hlen : "entry_id=3".toList.length < maxCmdlineInputLen := by decide
  refine ⟨hlen, (params_read_iff _ 0 hlen).2.2.2.2.mpr (.inl ⟨?_, ?_⟩)⟩
  · refine ⟨[⟨.entryId, ['3'], (3 : BitVec 64)⟩], by decide, ?_, by simp, by simp [entry, entryParams]⟩
    intro i hi
    obtain rfl := List.mem_singleton.mp hi
    exact number_three
  · intro items hwf i hi
    refine ⟨.inr ?_, rfl⟩
    intro hqueue
    have hle := item_length hwf hi
    have hkey : ((entry false).params.text .pipeQueue).length = 11 := by decide
    have htext : "entry_id=3".toList.length = 10 := by decide
    rw [hqueue, List.length_append, hkey, htext] at hle
    omega

theorem join_notMem {K σ : Type} {c : Command K σ} {items : List (Item c.Value)} {d : Char}
    (hcomma : d ≠ ',') (h : ∀ i ∈ items, d ∉ c.params.text i.key ++ i.text) :
    d ∉ c.join items := by
  induction items with
  | nil => simp [Command.join]
  | cons i items ih =>
    have hhead := h i (by simp)
    have htail := ih (fun j hj => h j (List.mem_cons_of_mem _ hj))
    cases items with
    | nil => simpa [Command.join_single] using hhead
    | cons j items =>
      rw [Command.join_cons]
      simp only [List.mem_append, List.mem_cons, not_or] at hhead ⊢
      exact ⟨hhead.1, hhead.2, hcomma, htail⟩

theorem entry_semicolon {queueGiven : Bool} {items : List (Item (entry queueGiven).Value)}
    (h : (entry queueGiven).WellFormed s items) : ';' ∉ s := by
  rw [h.joined]
  apply join_notMem (by decide)
  rintro ⟨key, text, value⟩ hi
  have hwritten := h.written _ hi
  rw [List.mem_append, not_or]
  cases key with
  | pipeQueue => exact ⟨(by decide : ';' ∉ EntryKey.pipeQueue.text), number_notMem hwritten (by decide)⟩
  | entryId => exact ⟨(by decide : ';' ∉ EntryKey.entryId.text), number_notMem hwritten (by decide)⟩

/-- What follows another separator is ignored, and a query fails that names the queue first. -/
theorem params_misread :
    ¬ (entry true).ReadsAll "pipe_queue=1,entry_id=3;x".toList ∧
      ¬ (entry false).ReadsAll "pipe_queue=5,entry_id=3".toList := by
  constructor
  · intro h
    obtain ⟨e, w, herror⟩ := h.rejects (fun items hwf => entry_semicolon hwf (by decide))
    have hfirst : (entry true).params.round "pipe_queue=1,entry_id=3;x".toList {} =
        some (.ok (',' :: "entry_id=3;x".toList), { pipeQueue := 1, hasPipeQueue := true }) := by
      decide
    have hsecond : (entry true).params.round "entry_id=3;x".toList
          { pipeQueue := 1, hasPipeQueue := true } =
        some (.ok ";x".toList,
          { pipeQueue := 1, entryId := 3, hasPipeQueue := true, hasEntryId := true }) := by
      decide
    have hparse : (entry true).params.parse "pipe_queue=1,entry_id=3;x".toList {} =
        some (.ok (), { pipeQueue := 1, entryId := 3, hasPipeQueue := true, hasEntryId := true }) := by
      rw [Command.parse_next hfirst, Command.parse_ok (Command.loop_stop hsecond (by decide))]
      rfl
    have hout : (entry true).outcome "pipe_queue=1,entry_id=3;x".toList = some (.ok (), _) :=
      congrArg (Option.map _) hparse
    rw [hout] at herror
    cases herror
  · have hthree := number_three
    have hfive : CNumber ['5'] 5 :=
      .decimal ⟨by simp, by simp [isDigitOf, digitValue], rfl⟩ (by simp)
    have hwf : (entry false).WellFormed "pipe_queue=5,entry_id=3".toList
        [⟨.pipeQueue, ['5'], (5 : BitVec 16)⟩, ⟨.entryId, ['3'], (3 : BitVec 64)⟩] := by
      refine ⟨by decide, ?_, by simp, by simp [entry, entryParams]⟩
      intro i hi
      rcases List.mem_cons.mp hi with rfl | hi
      · exact hfive
      · obtain rfl := List.mem_singleton.mp hi
        exact hthree
    exact query_irregular (by decide) hwf ⟨_, List.mem_cons_self, by simp [entry]⟩

end DocaApps.Proofs.ParamsCommands
