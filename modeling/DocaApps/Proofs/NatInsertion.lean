import DocaApps.NatApp.Insertion
import DocaApps.Lib.BatchFill
import DocaApps.Proofs.NatRoundTrip

namespace DocaApps.Proofs.NatInsertion
open Common.FlowPipe Lib.CountedLoop Lib.BatchFill NatApp.Core NatApp.Insertion
open Proofs.NatRoundTrip

variable {lib : FlowLib} {natRules : List NatRuleMatch} {fuel : Nat} {s s' : Inserting}

section Shown

theorem process_shown (asked : Int) (s : Inserting) :
    ((process lib asked s).1, (process lib asked s).2.building) =
      entriesProcess lib asked s.building := rfl

theorem insertFull_shown (s : Inserting) :
    (insertFull lib s).map Inserting.building = processFull lib s.building := by
  unfold insertFull processFull
  split
  · simp only [process, entriesProcess]
    cases (lib.entriesProcess s.building.processes s.building.nbEntries).result with
    | some err => rfl
    | none =>
      dsimp only
      split <;> rfl
  · rfl

theorem insertStaticRule_shown (entry : NatRuleMatch → Entry) (ruleid : BitVec 16)
    (s : Inserting) : (insertStaticRule lib entry natRules ruleid s).map Inserting.building =
      addStaticRule lib entry natRules ruleid s.building := by
  unfold insertStaticRule addStaticRule
  simp only [addEntry, pipeAddEntry]
  cases lib.addEntry s.building.adds with
  | some err => rfl
  | none => exact insertFull_shown _

theorem insertPatRule_shown (tcpEntry : NatRuleMatch → Entry)
    (toUdp : NatRuleMatch → Entry → Entry) (ruleid : BitVec 16) (s : Inserting) :
    (insertPatRule lib tcpEntry toUdp natRules ruleid s).map Inserting.building =
      addPatRule lib tcpEntry toUdp natRules ruleid s.building :=
  insertFull_shown _

theorem insertRest_shown (fuel : Nat) (s : Inserting) :
    (insertRest lib fuel s).map (Except.map Inserting.building) =
      processRest lib fuel s.building := by
  induction fuel generalizing s with
  | zero => rfl
  | succ fuel ih =>
    unfold insertRest processRest
    split
    · simp only [process, entriesProcess]
      cases (lib.entriesProcess s.building.processes
          (s.building.nbEntries - s.building.nbProcessed)).result with
      | some err => rfl
      | none =>
        dsimp only
        split
        · rfl
        · exact ih _
    · rfl

/-- An insertion has the accounts of the builders' loops. -/
theorem insertRules_shown {insert : BitVec 16 → Inserting → Except DocaError Inserting}
    {add : BitVec 16 → Building → Except DocaError Building} (n : Nat)
    (h : ∀ i s, (insert i s).map Inserting.building = add i s.building) :
    (insertRules lib insert n fuel).map (Except.map Inserting.building) =
      addRules lib add n fuel := by
  unfold insertRules addRules
  have hloop := loop_map h n fuel 0 Inserting.start
  rw [show Building.start = Inserting.start.building from rfl, ← hloop]
  cases loop insert n fuel 0 Inserting.start with
  | none => rfl
  | some r =>
    cases r with
    | error e => rfl
    | ok s => exact insertRest_shown fuel s

end Shown

section Calls

variable {calls : List Call} {c : Call}

/-- What a call adds to the entries that are outstanding. -/
def change : Call → Int
  | .pipeAddEntry _ _ _ none => 1
  | .pipeAddEntry _ _ _ (some _) => 0
  | .entriesProcess _ completed => -completed

def outstanding (calls : List Call) : Int := (calls.map change).sum

def flagsOf : Call → Option Flags
  | .pipeAddEntry _ _ flags none => some flags
  | _ => none

/-- The flags of the most recently added entry. -/
def lastFlags (calls : List Call) : Option Flags := (calls.filterMap flagsOf).getLast?

/-- The queue never holds more entries than its depth. -/
def Bounded (calls : List Call) : Prop := ∀ front, front <+: calls → outstanding front ≤ queueDepth

/-- The last entry before every call of `doca_flow_entries_process` releases the batch. -/
def Flushed (calls : List Call) : Prop :=
  ∀ front asked completed, front ++ [.entriesProcess asked completed] <+: calls →
    lastFlags front = some .noWait

theorem outstanding_concat : outstanding (calls ++ [c]) = outstanding calls + change c := by
  simp [outstanding]

theorem bounded_concat :
    Bounded (calls ++ [c]) ↔ Bounded calls ∧ outstanding (calls ++ [c]) ≤ queueDepth := by
  constructor
  · intro h
    exact ⟨fun front hfront => h front (hfront.trans (List.prefix_append _ _)),
      h _ List.prefix_rfl⟩
  · rintro ⟨hcalls, hlast⟩ front hfront
    rcases List.prefix_concat_iff.mp hfront with rfl | hfront
    · exact hlast
    · exact hcalls front hfront

theorem flushed_add {name : PipeName} {e : Entry} {flags : Flags} {result : Option DocaError} :
    Flushed (calls ++ [.pipeAddEntry name e flags result]) ↔ Flushed calls := by
  constructor
  · intro h front asked completed hfront
    exact h front asked completed (hfront.trans (List.prefix_append _ _))
  · intro h front asked completed hfront
    rcases List.prefix_concat_iff.mp hfront with heq | hfront
    · have := (List.append_inj' heq rfl).2
      cases this
    · exact h front asked completed hfront

theorem flushed_process {asked completed : Int} :
    Flushed (calls ++ [.entriesProcess asked completed]) ↔
      Flushed calls ∧ lastFlags calls = some .noWait := by
  constructor
  · intro h
    exact ⟨fun front a n hfront => h front a n (hfront.trans (List.prefix_append _ _)),
      h calls asked completed List.prefix_rfl⟩
  · rintro ⟨hcalls, hlast⟩ front a n hfront
    rcases List.prefix_concat_iff.mp hfront with heq | hfront
    · rw [(List.append_inj' heq rfl).1]
      exact hlast
    · exact hcalls front a n hfront

theorem lastFlags_add {name : PipeName} {e : Entry} {flags : Flags} :
    lastFlags (calls ++ [.pipeAddEntry name e flags none]) = some flags := by
  simp [lastFlags, flagsOf]

theorem lastFlags_process {asked completed : Int} :
    lastFlags (calls ++ [.entriesProcess asked completed]) = lastFlags calls := by
  simp [lastFlags, flagsOf]

end Calls

/-- Every call succeeds, and one that processes entries completes at least one and at most all
of them. -/
structure Completes (lib : FlowLib) : Prop where
  pipeCreate : ∀ n, lib.pipeCreate n = none
  addEntry : ∀ n, lib.addEntry n = none
  controlAddEntry : ∀ n, lib.controlAddEntry n = none
  entriesProcess : ∀ n asked, 0 < asked → ∃ count : Nat,
    lib.entriesProcess n asked = ⟨none, count, false⟩ ∧ 0 < count ∧ (count : Int) ≤ asked

/-- What the call completes that finds the queue full and is the `j`-th one. -/
def completed (lib : FlowLib) (j : Nat) : Nat := (lib.entriesProcess j queueDepth).count.toNat

def depth : Nat := 256

theorem queueDepth_eq : queueDepth = (depth : Int) := rfl

section Steps

variable {w : Nat} {entries : List (PipeName × Entry)}

theorem Completes.full (h : Completes lib) (j : Nat) :
    lib.entriesProcess j queueDepth = ⟨none, completed lib j, false⟩ ∧
      0 < completed lib j ∧ completed lib j ≤ depth := by
  obtain ⟨count, hcall, hpos, hle⟩ := h.entriesProcess j queueDepth (by decide)
  have hcount : completed lib j = count := by
    unfold completed
    rw [hcall]
    rfl
  rw [hcount]
  exact ⟨hcall, hpos, by rw [queueDepth_eq] at hle; exact_mod_cast hle⟩

/-- The entries of a rule were added, and counted. -/
structure Stepped (w : Nat) (entries : List (PipeName × Entry)) (s s₁ : Inserting) : Prop where
  added : s₁.building.added = s.building.added ++ entries
  level : s₁.building.nbEntries = s.building.nbEntries + w
  failure : s₁.building.isFailure = s.building.isFailure
  processed : s₁.building.nbProcessed = s.building.nbProcessed
  processes : s₁.building.processes = s.building.processes
  waiting : outstanding s₁.calls = outstanding s.calls + w
  flushed : Flushed s₁.calls ↔ Flushed s.calls
  bounded : Bounded s.calls → outstanding s.calls + w ≤ queueDepth → Bounded s₁.calls
  last : lastFlags s₁.calls = some (flagsFor w s)

theorem insertStaticRule_stepped (h : Completes lib) (entry : NatRuleMatch → Entry)
    (ruleid : BitVec 16) (s : Inserting) :
    ∃ s₁, insertStaticRule lib entry natRules ruleid s = insertFull lib s₁ ∧
      Stepped 1 [(.static, entry (ruleAt natRules ruleid))] s s₁ := by
  unfold insertStaticRule addEntry pipeAddEntry
  rw [h.addEntry]
  refine ⟨_, rfl, rfl, rfl, rfl, rfl, rfl, ?_, flushed_add, ?_, lastFlags_add⟩
  · exact outstanding_concat
  · intro hbounded hroom
    refine bounded_concat.mpr ⟨hbounded, ?_⟩
    rw [outstanding_concat]
    exact hroom

theorem insertPatRule_stepped (h : Completes lib) (tcpEntry : NatRuleMatch → Entry)
    (toUdp : NatRuleMatch → Entry → Entry) (ruleid : BitVec 16) (s : Inserting) :
    ∃ s₁, insertPatRule lib tcpEntry toUdp natRules ruleid s = insertFull lib s₁ ∧
      Stepped 2 [(.tcp, tcpEntry (ruleAt natRules ruleid)),
        (.udp, toUdp (ruleAt natRules ruleid) (tcpEntry (ruleAt natRules ruleid)))] s s₁ := by
  unfold insertPatRule addEntry pipeAddEntry
  simp only [h.addEntry]
  refine ⟨_, rfl, ?_, rfl, rfl, rfl, rfl, ?_, ?_, ?_, lastFlags_add⟩
  · exact List.append_assoc _ _ _
  · change outstanding (s.calls ++ [_] ++ [_]) = _
    rw [outstanding_concat, outstanding_concat]
    exact add_assoc _ _ _
  · exact flushed_add.trans flushed_add
  · intro hbounded hroom
    refine bounded_concat.mpr ⟨bounded_concat.mpr ⟨hbounded, ?_⟩, ?_⟩
    · rw [outstanding_concat]
      change outstanding s.calls + 1 ≤ queueDepth
      push_cast at hroom
      omega
    · rw [outstanding_concat, outstanding_concat]
      change outstanding s.calls + 1 + 1 ≤ queueDepth
      push_cast at hroom
      omega

/-- The entry that fills the queue is followed by the processing. -/
theorem insertFull_full (h : Completes lib) (hfull : s.building.nbEntries = queueDepth)
    (hfailure : s.building.isFailure = false) (hprocessed : s.building.nbProcessed = 0) :
    ∃ s', insertFull lib s = .ok s' ∧ s'.building.added = s.building.added ∧
      s'.building.isFailure = false ∧ s'.building.nbProcessed = 0 ∧
      s'.building.nbEntries = queueDepth - completed lib s.building.processes ∧
      s'.building.processes = s.building.processes + 1 ∧
      s'.calls = s.calls ++
        [.entriesProcess queueDepth (completed lib s.building.processes)] := by
  obtain ⟨hcall, hpos, -⟩ := h.full s.building.processes
  unfold insertFull
  rw [if_pos hfull, hfull]
  simp only [process, entriesProcess, hcall, hfailure, hprocessed, Bool.or_self, zero_add]
  rw [if_neg (by
    rintro (hcontra | hcontra)
    · cases hcontra
    · omega)]
  refine ⟨_, rfl, rfl, rfl, rfl, ?_, rfl, ?_⟩
  · exact congrArg (· - _) hfull
  · exact congrArg (fun n => s.calls ++ [Call.entriesProcess queueDepth n]) (sub_zero _)

theorem insertFull_rest (hrest : s.building.nbEntries ≠ queueDepth) :
    insertFull lib s = .ok s :=
  if_neg hrest

end Steps

section Loop

variable {w i : Nat} {entries : NatRuleMatch → List (PipeName × Entry)}

/-- The first `i` rules are in the queue or completed. -/
structure Inserted (lib : FlowLib) (w : Nat) (entries : NatRuleMatch → List (PipeName × Entry))
    (natRules : List NatRuleMatch) (i : Nat) (s : Inserting) : Prop where
  added : s.building.added = (natRules.take i).flatMap entries
  failure : s.building.isFailure = false
  processed : s.building.nbProcessed = 0
  level : s.building.nbEntries = (fill w depth (completed lib) i).1
  processes : s.building.processes = (fill w depth (completed lib) i).2
  waiting : outstanding s.calls = s.building.nbEntries
  flushed : Flushed s.calls
  last : ∀ j, i = j + 1 →
    (lastFlags s.calls = some .noWait ↔ Flushes w depth (completed lib) j)
  bounded : (∀ j < (fill w depth (completed lib) (i - 1)).2, w ∣ completed lib j) →
    Bounded s.calls

theorem Inserted.start (lib : FlowLib) (w : Nat)
    (entries : NatRuleMatch → List (PipeName × Entry)) (natRules : List NatRuleMatch) :
    Inserted lib w entries natRules 0 .start where
  added := rfl
  failure := rfl
  processed := rfl
  level := rfl
  processes := rfl
  waiting := rfl
  flushed := by
    intro front asked completed hfront
    have := List.prefix_nil.mp hfront
    simp at this
  last := by
    intro j hj
    cases hj
  bounded := by
    intro _ front hfront
    rw [List.prefix_nil.mp hfront]
    decide

/-- One more rule. -/
theorem Inserted.step (h : Completes lib) (hw : w ∣ depth) (hi : i < natRules.length)
    {s₁ : Inserting} (hs : Inserted lib w entries natRules i s)
    (hstep : Stepped w (entries natRules[i]) s s₁) :
    ∃ s', insertFull lib s₁ = .ok s' ∧ Inserted lib w entries natRules (i + 1) s' := by
  have hadded : s₁.building.added = (natRules.take (i + 1)).flatMap entries := by
    rw [hstep.added, hs.added, take_flatMap hi]
  have hfailure : s₁.building.isFailure = false := hstep.failure.trans hs.failure
  have hprocessed : s₁.building.nbProcessed = 0 := hstep.processed.trans hs.processed
  have hlevel : s₁.building.nbEntries =
      ((fill w depth (completed lib) i).1 + w : Nat) := by
    rw [hstep.level, hs.level]
    push_cast
    rfl
  have hprocesses : s₁.building.processes = (fill w depth (completed lib) i).2 :=
    hstep.processes.trans hs.processes
  have hcalls : outstanding s₁.calls = s₁.building.nbEntries := by
    rw [hstep.waiting, hs.waiting, hstep.level]
  have hflushed : Flushed s₁.calls := hstep.flushed.mpr hs.flushed
  have hlast : lastFlags s₁.calls = some .noWait ↔ Flushes w depth (completed lib) i := by
    rw [hstep.last]
    unfold flagsFor Flushes
    rw [hs.level, queueDepth_eq]
    split
    · simp only [true_iff]
      omega
    · simp only [Option.some.injEq, reduceCtorEq, false_iff]
      omega
  have hbounded : (∀ j < (fill w depth (completed lib) i).2, w ∣ completed lib j) →
      Bounded s₁.calls := by
    intro hdvd
    obtain ⟨hlt, hlevelDvd⟩ := level_lt hw (by decide) (fun j => (h.full j).2) hdvd
    have hroom := Nat.le_of_dvd (Nat.sub_pos_of_lt hlt) (Nat.dvd_sub hw hlevelDvd)
    have hmono : (fill w depth (completed lib) (i - 1)).2 ≤
        (fill w depth (completed lib) i).2 := by
      cases i with
      | zero => exact Nat.le_refl _
      | succ i => exact flushes_le_succ w depth (completed lib) i
    refine hstep.bounded (hs.bounded fun j hj => hdvd j (hj.trans_le hmono)) ?_
    rw [hs.waiting, hs.level, queueDepth_eq]
    omega
  by_cases hfull : Flushes w depth (completed lib) i
  · have hfill : (fill w depth (completed lib) i).1 + w = depth := hfull
    have hdepth : s₁.building.nbEntries = queueDepth := by
      rw [hlevel, hfill]
      rfl
    obtain ⟨s', hok, hadded', hfailure', hprocessed', hlevel', hprocesses', hcalls'⟩ :=
      insertFull_full h hdepth hfailure hprocessed
    rw [hprocesses] at hlevel' hprocesses' hcalls'
    obtain ⟨-, hpos, hle⟩ := h.full (fill w depth (completed lib) i).2
    refine ⟨s', hok, hadded'.trans hadded, hfailure', hprocessed', ?_, ?_, ?_, ?_, ?_, ?_⟩
    · rw [hlevel', fill_flush hfull, queueDepth_eq]
      dsimp only
      omega
    · rw [hprocesses', fill_flush hfull]
    · rw [hcalls', outstanding_concat, hcalls, hlevel', hdepth]
      rfl
    · rw [hcalls', flushed_process]
      exact ⟨hflushed, hlast.mpr hfull⟩
    · intro j hj
      obtain rfl := Nat.succ.inj hj
      rw [hcalls', lastFlags_process]
      exact hlast
    · intro hdvd
      rw [hcalls', bounded_concat]
      refine ⟨hbounded hdvd, ?_⟩
      rw [outstanding_concat, hcalls, hdepth]
      change queueDepth - _ ≤ _
      omega
  · have hdepth : s₁.building.nbEntries ≠ queueDepth := by
      intro heq
      rw [hlevel, queueDepth_eq] at heq
      exact hfull (by exact_mod_cast heq)
    refine ⟨s₁, insertFull_rest hdepth, hadded, hfailure, hprocessed, ?_, ?_, hcalls, hflushed,
      ?_, ?_⟩
    · rw [hlevel, fill_rest hfull]
    · rw [hprocesses, fill_rest hfull]
    · intro j hj
      obtain rfl := Nat.succ.inj hj
      exact hlast
    · exact hbounded

end Loop

section Rest

theorem insertRest_ok (h : Completes lib) (hfailure : s.building.isFailure = false)
    (hcalls : outstanding s.calls = s.building.nbEntries - s.building.nbProcessed)
    {r : Except DocaError Inserting} (hr : insertRest lib fuel s = some r) :
    ∃ s', r = .ok s' ∧ s'.building.added = s.building.added ∧
      (Bounded s.calls → Bounded s'.calls) ∧
      (Flushed s'.calls ↔ Flushed s.calls ∧
        (outstanding s.calls ≤ 0 ∨ lastFlags s.calls = some .noWait)) := by
  induction fuel generalizing s with
  | zero => cases hr
  | succ fuel ih =>
    unfold insertRest at hr
    split at hr
    · next hmore =>
      obtain ⟨count, hcall, hpos, hle⟩ := h.entriesProcess s.building.processes _ hmore
      simp only [process, entriesProcess, hcall, hfailure, Bool.or_self, Bool.false_eq_true,
        if_false] at hr
      obtain ⟨s', heq, hadded, hbounded, hflushed⟩ := ih rfl (by
        dsimp only
        rw [outstanding_concat, hcalls]
        dsimp only [change]
        omega) hr
      dsimp only at hadded hbounded hflushed
      refine ⟨s', heq, hadded, fun hb => hbounded (bounded_concat.mpr ⟨hb, ?_⟩), ?_⟩
      · have hwhole := hb s.calls List.prefix_rfl
        rw [outstanding_concat]
        dsimp only [change]
        omega
      · rw [hflushed, flushed_process, lastFlags_process, hcalls]
        constructor
        · rintro ⟨⟨hf, hl⟩, -⟩
          exact ⟨hf, .inr hl⟩
        · rintro ⟨hf, hl | hl⟩
          · omega
          · exact ⟨⟨hf, hl⟩, .inr hl⟩
    · next hdone =>
      refine ⟨s, (Option.some.inj hr).symm, rfl, id, ?_⟩
      rw [hcalls]
      constructor
      · exact fun hf => ⟨hf, .inl (by omega)⟩
      · exact fun hf => hf.1

theorem insertRest_finishes (h : Completes lib) (hfailure : s.building.isFailure = false)
    (hfuel : (s.building.nbEntries - s.building.nbProcessed).toNat < fuel) :
    ∃ r, insertRest lib fuel s = some r := by
  induction fuel generalizing s with
  | zero => omega
  | succ fuel ih =>
    unfold insertRest
    split
    · next hmore =>
      obtain ⟨count, hcall, hpos, hle⟩ := h.entriesProcess s.building.processes _ hmore
      simp only [process, entriesProcess, hcall, hfailure, Bool.or_self, Bool.false_eq_true,
        if_false]
      exact ih rfl (by dsimp only; omega)
    · exact ⟨_, rfl⟩

end Rest

section Rules

variable {w : Nat} {entries : NatRuleMatch → List (PipeName × Entry)}
  {insert : BitVec 16 → Inserting → Except DocaError Inserting}

/-- The rules are a whole number of batches: their entries fill the queue with the last one, after
flushes that each completed a multiple of the entries of a rule. -/
def LastFills (lib : FlowLib) (w : Nat) (natRules : List NatRuleMatch) : Prop :=
  natRules = [] ∨ ∃ j, w * natRules.length = depth + completedBy (completed lib) j ∧
    ∀ i < j, w ∣ completed lib i

theorem lastFills_iff (h : Completes lib) (hw : w ∣ depth) :
    LastFills lib w natRules ↔ natRules.length = 0 ∨
      ∃ j, natRules.length = j + 1 ∧ Flushes w depth (completed lib) j := by
  have hflushes : ∀ n, Flushes w depth (completed lib) n ↔
      ∃ j, w * (n + 1) = depth + completedBy (completed lib) j ∧ ∀ i < j, w ∣ completed lib i :=
    fun n => flushes_iff hw (by decide) fun j => (h.full j).2
  unfold LastFills
  rw [List.length_eq_zero_iff]
  constructor
  · rintro (hnil | hfills)
    · exact .inl hnil
    · cases hlength : natRules.length with
      | zero => exact .inl (List.length_eq_zero_iff.mp hlength)
      | succ n =>
        rw [hlength] at hfills
        exact .inr ⟨n, rfl, (hflushes n).mpr hfills⟩
  · rintro (hnil | ⟨n, hlength, hflush⟩)
    · exact .inl hnil
    · rw [hlength]
      exact .inr ((hflushes n).mp hflush)

/-- All rules are in order, and the calls are as they should be just when the last entry fills
the queue. -/
theorem insertRules_ok (h : Completes lib) (hw : w ∣ depth) (hlength : natRules.length < 2 ^ 16)
    (hinsert : ∀ i s, (hi : i < natRules.length) → ∃ s₁,
      insert (BitVec.ofNat 16 i) s = insertFull lib s₁ ∧ Stepped w (entries natRules[i]) s s₁)
    (hs : insertRules lib insert natRules.length fuel = some (.ok s)) :
    s.building.added = natRules.flatMap entries ∧
      (Bounded s.calls ∧ Flushed s.calls ↔ LastFills lib w natRules) := by
  have hstep : ∀ i s, i < natRules.length → Inserted lib w entries natRules i s →
      ∃ s', insert (BitVec.ofNat 16 i) s = .ok s' ∧
        Inserted lib w entries natRules (i + 1) s' := by
    intro i s hi hinserted
    obtain ⟨s₁, heq, hstepped⟩ := hinsert i s hi
    rw [heq]
    exact hinserted.step h hw hi hstepped
  obtain ⟨s₁, hloop, hrest⟩ := andThen_eq_ok.mp hs
  obtain ⟨s₂, heq, hinserted⟩ := loop_inv hlength hstep (Nat.zero_le _)
    (Inserted.start lib w entries natRules) hloop
  obtain rfl := Except.ok.inj heq
  obtain ⟨s₃, heq', hadded, hbounded, hflushed⟩ := insertRest_ok h hinserted.failure
    (by rw [hinserted.waiting, hinserted.processed, sub_zero]) hrest
  obtain rfl := Except.ok.inj heq'
  refine ⟨by rw [hadded, hinserted.added, List.take_length], ?_⟩
  have hfills : Flushed s.calls ↔ LastFills lib w natRules := by
    rw [hflushed, lastFills_iff h hw, hinserted.waiting, hinserted.level]
    constructor
    · rintro ⟨-, hlast⟩
      cases hlen : natRules.length with
      | zero => exact .inl rfl
      | succ n =>
        refine .inr ⟨n, rfl, ?_⟩
        rcases hlast with hempty | hlast
        · by_contra hnot
          have hwpos := Nat.pos_of_dvd_of_pos hw (by decide)
          rw [hlen, fill_rest hnot] at hempty
          dsimp only at hempty
          omega
        · exact (hinserted.last n hlen).mp hlast
    · rintro (hzero | ⟨n, hlen, hflush⟩)
      · refine ⟨hinserted.flushed, .inl ?_⟩
        rw [hzero]
        exact Int.le_refl _
      · exact ⟨hinserted.flushed, .inr ((hinserted.last n hlen).mpr hflush)⟩
  rw [hfills, and_iff_right_iff_imp]
  intro hlast
  refine hbounded (hinserted.bounded ?_)
  rcases (lastFills_iff h hw).mp hlast with hzero | ⟨n, hlen, hflush⟩
  · rw [hzero]
    intro j hj
    cases hj
  · rw [hlen, Nat.add_sub_cancel]
    obtain ⟨j, hwhole, hdvd⟩ := (flushes_iff hw (by decide) fun j => (h.full j).2).mp hflush
    have hbalance := fill_balance (w := w) (fun j => (h.full j).2.2) n
    have hlevel : (fill w depth (completed lib) n).1 + w = depth := hflush
    intro k hk
    refine hdvd k (lt_of_not_ge fun hge => ?_)
    have hmono := completedBy_mono (completed lib) (Nat.succ_le_of_lt (hge.trans_lt hk))
    have hpos := (h.full j).2.1
    rw [completedBy_succ] at hmono
    rw [Nat.mul_succ] at hwhole
    omega

theorem insertRules_finishes (h : Completes lib) (hw : w ∣ depth)
    (hlength : natRules.length < 2 ^ 16)
    (hinsert : ∀ i s, (hi : i < natRules.length) → ∃ s₁,
      insert (BitVec.ofNat 16 i) s = insertFull lib s₁ ∧ Stepped w (entries natRules[i]) s s₁) :
    ∃ fuel s, insertRules lib insert natRules.length fuel = some (.ok s) := by
  have hstep : ∀ i s, i < natRules.length → Inserted lib w entries natRules i s →
      ∃ s', insert (BitVec.ofNat 16 i) s = .ok s' ∧
        Inserted lib w entries natRules (i + 1) s' := by
    intro i s hi hinserted
    obtain ⟨s₁, heq, hstepped⟩ := hinsert i s hi
    rw [heq]
    exact hinserted.step h hw hi hstepped
  have hbalance := fill_balance (w := w) (fun j => (h.full j).2.2) natRules.length
  have hstart := Inserted.start lib w entries natRules
  have hfuel : natRules.length - 0 < w * natRules.length + natRules.length + 1 := by omega
  obtain ⟨r, hloop⟩ := loop_finishes hlength hstep (Nat.zero_le _) hstart hfuel
  obtain ⟨s₁, rfl, hinserted⟩ := loop_inv hlength hstep (Nat.zero_le _) hstart hloop
  have hlevel : (s₁.building.nbEntries - s₁.building.nbProcessed).toNat <
      w * natRules.length + natRules.length + 1 := by
    rw [hinserted.processed, hinserted.level]
    omega
  obtain ⟨r, hrest⟩ := insertRest_finishes h hinserted.failure hlevel
  obtain ⟨s₂, rfl, -⟩ := insertRest_ok h hinserted.failure
    (by rw [hinserted.waiting, hinserted.processed, sub_zero]) hrest
  exact ⟨_, s₂, andThen_eq_ok.mpr ⟨s₁, hloop, hrest⟩⟩

end Rules

section Builders

variable {side : Side} {mode : NatMode} {portId : UInt16}

/-- The entries of a rule, in the order in which they are added. -/
def entriesFor : Side → NatMode → NatRuleMatch → List (PipeName × Entry)
  | .lan, .static, r => [(.static, staticLocalEntry r)]
  | .wan, .static, r => [(.static, staticGlobalEntry r)]
  | .lan, .pat, r => [(.tcp, patLocalTcpEntry r), (.udp, patLocalToUdp r (patLocalTcpEntry r))]
  | .wan, .pat, r => [(.tcp, patGlobalTcpEntry r), (.udp, patGlobalToUdp r (patGlobalTcpEntry r))]

/-- The number of entries of a rule. -/
def width : NatMode → Nat
  | .static => 1
  | .pat => 2

theorem width_dvd (mode : NatMode) : width mode ∣ depth := by
  cases mode <;> decide

theorem insertRule_stepped (h : Completes lib) (hlength : natRules.length < 2 ^ 16) (i : Nat)
    (s : Inserting) (hi : i < natRules.length) :
    ∃ s₁, insertRule lib side mode natRules (BitVec.ofNat 16 i) s = insertFull lib s₁ ∧
      Stepped (width mode) (entriesFor side mode natRules[i]) s s₁ := by
  rw [← ruleAt_ofNat hi hlength]
  cases side <;> cases mode
  · exact insertStaticRule_stepped h staticLocalEntry _ s
  · exact insertPatRule_stepped h patLocalTcpEntry patLocalToUdp _ s
  · exact insertStaticRule_stepped h staticGlobalEntry _ s
  · exact insertPatRule_stepped h patGlobalTcpEntry patGlobalToUdp _ s

/-- The builder ends well when its insertion does. -/
theorem buildPipe_ok (h : Completes lib)
    (hs : insertion lib side mode natRules fuel = some (.ok s)) :
    ∃ port, buildPipe lib side mode portId natRules fuel = some (.ok port) := by
  have hshown : ∀ {insert : BitVec 16 → Inserting → Except DocaError Inserting}
      {add : BitVec 16 → Building → Except DocaError Building},
      (∀ i s, (insert i s).map Inserting.building = add i s.building) →
      insertRules lib insert natRules.length fuel = some (.ok s) →
      addRules lib add natRules.length fuel = some (.ok s.building) := by
    intro insert add hstep hinsert
    rw [← insertRules_shown _ hstep, hinsert]
    rfl
  have hstatic : ∀ (pattern : Match) (actions : Actions) (entry : NatRuleMatch → Entry),
      insertRules lib (insertStaticRule lib entry natRules) natRules.length fuel =
        some (.ok s) →
      ∃ port, buildStaticPipe lib pattern actions entry portId natRules fuel = some (.ok port) := by
    intro pattern actions entry hinsert
    unfold buildStaticPipe
    rw [h.pipeCreate, hshown (insertStaticRule_shown entry) hinsert]
    exact ⟨_, rfl⟩
  have hpat : ∀ (template : Entry) (toUdpTemplate : Entry → Entry)
      (tcpEntry : NatRuleMatch → Entry) (toUdp : NatRuleMatch → Entry → Entry),
      insertRules lib (insertPatRule lib tcpEntry toUdp natRules) natRules.length fuel =
        some (.ok s) →
      ∃ port, buildPatPipe lib template toUdpTemplate tcpEntry toUdp portId natRules fuel =
        some (.ok port) := by
    intro template toUdpTemplate tcpEntry toUdp hinsert
    unfold buildPatPipe addControlPipeEntries
    simp only [h.pipeCreate, h.controlAddEntry, hshown (insertPatRule_shown tcpEntry toUdp) hinsert]
    exact ⟨_, rfl⟩
  cases side <;> cases mode
  · exact hstatic _ _ _ hs
  · exact hpat _ _ _ _ hs
  · exact hstatic _ _ _ hs
  · exact hpat _ _ _ _ hs

/-- The builder ends, its entries are those of the rules in order, the queue is never overfull, and
every batch is released before it is processed. -/
def BuiltRight (lib : FlowLib) (side : Side) (mode : NatMode) (portId : UInt16)
    (natRules : List NatRuleMatch) : Prop :=
  ∃ fuel port s, buildPipe lib side mode portId natRules fuel = some (.ok port) ∧
    insertion lib side mode natRules fuel = some (.ok s) ∧
    s.building.added = natRules.flatMap (entriesFor side mode) ∧
    Bounded s.calls ∧ Flushed s.calls

theorem BuiltRight.counted (h : BuiltRight lib side mode portId natRules) :
    natRules.length < 2 ^ 16 := by
  obtain ⟨fuel, port, s, -, hs, -⟩ := h
  by_contra hlong
  obtain ⟨s₁, hloop, -⟩ := andThen_eq_ok.mp hs
  exact loop_never_ok (Nat.le_of_not_lt hlong) _ _ hloop

theorem BuiltRight.lastFills (hlib : Completes lib) (h : BuiltRight lib side mode portId natRules) :
    LastFills lib (width mode) natRules := by
  have hlength := h.counted
  obtain ⟨fuel, port, s, -, hs, -, hcalls⟩ := h
  exact (insertRules_ok hlib (width_dvd mode) hlength
    (fun i s hi => insertRule_stepped hlib hlength i s hi) hs).2.mp hcalls

/-- Each of the four builders inserts as it should just when its counter can reach the number of
rules and the last entry of the last rule fills the queue. -/
theorem nat_insertion_right_iff (h : Completes lib) (side : Side) (mode : NatMode)
    (portId : UInt16) (natRules : List NatRuleMatch) :
    BuiltRight lib side mode portId natRules ↔
      natRules.length < 2 ^ 16 ∧ LastFills lib (width mode) natRules := by
  constructor
  · intro hright
    exact ⟨hright.counted, hright.lastFills h⟩
  · rintro ⟨hlength, hfills⟩
    have hinsert : ∀ i s, (hi : i < natRules.length) → ∃ s₁,
        insertRule lib side mode natRules (BitVec.ofNat 16 i) s = insertFull lib s₁ ∧
          Stepped (width mode) (entriesFor side mode natRules[i]) s s₁ :=
      fun i s hi => insertRule_stepped h hlength i s hi
    obtain ⟨fuel, s, hs⟩ := insertRules_finishes h (width_dvd mode) hlength hinsert
    obtain ⟨hadded, hcalls⟩ := insertRules_ok h (width_dvd mode) hlength hinsert hs
    obtain ⟨port, hport⟩ := buildPipe_ok h hs
    exact ⟨fuel, port, s, hport, hs, hadded, hcalls.mpr hfills⟩

theorem workingLib_completes : Completes workingLib where
  pipeCreate _ := rfl
  addEntry _ := rfl
  controlAddEntry _ := rfl
  entriesProcess n asked hasked := by
    refine ⟨asked.toNat, ?_, by omega, by omega⟩
    rw [Int.toNat_of_nonneg hasked.le]
    rfl

theorem nat_insertion_right_one_batch :
    BuiltRight workingLib .lan .pat 0 (List.replicate 128 (webRule 80 8080)) :=
  (nat_insertion_right_iff workingLib_completes .lan .pat 0 _).mpr
    ⟨by rw [List.length_replicate]; decide,
      .inr ⟨0, by rw [List.length_replicate]; rfl, fun i hi => absurd hi (Nat.not_lt_zero i)⟩⟩

/-- The entry of a single rule waits for a batch that never ends, and is processed. -/
theorem single_rule_not_released :
    (∃ s, insertion workingLib .lan .static [webRule 80 8080] 3 = some (.ok s) ∧
      s.calls = [.pipeAddEntry .static (staticLocalEntry (webRule 80 8080)) .waitForBatch none,
        .entriesProcess 1 1]) ∧
    ¬ BuiltRight workingLib .lan .static 0 [webRule 80 8080] := by
  refine ⟨⟨_, rfl, by decide +kernel⟩, fun h => ?_⟩
  rcases h.lastFills workingLib_completes with hnil | ⟨j, hwhole, -⟩
  · cases hnil
  · have hone : width .static * [webRule 80 8080].length = 1 := rfl
    rw [hone] at hwhole
    unfold depth at hwhole
    omega

end Builders

end DocaApps.Proofs.NatInsertion
