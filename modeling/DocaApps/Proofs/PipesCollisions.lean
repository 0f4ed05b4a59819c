import DocaApps.Proofs.FlowPipesManager

namespace DocaApps.Proofs.PipesCollisions
open Lib.FiniteTable Lib.Runs Common.FlowPipesManager FlowPipesManager

/-- The id of the new object is the id of a pipe, or of an entry of some pipe, that is
registered. -/
def Collides (m : Manager) : Op → Prop
  | .pipeCreate pipe _ _ => generateID pipe ∈ m.pipeIdToPipeInfo
  | .pipeAddEntry entry _ _ => ∃ p info, m.pipeIdToPipeInfo.lookup p = some info ∧
      generateID entry ∈ info.entriesTable
  | _ => False

def Refused (m : Manager) (op : Op) : Prop :=
  (∃ err, (call m op).1 = .error err) ∧ tables (call m op).2 = tables m

/-- A pipe is always turned away. An entry is only when its pipe is not registered, when the
address of the new id happens to be an id of the pipe, or when an insertion fails; the
second failure takes the id out of the pipe's table, whoever had it there. -/
def TurnedAway (m : Manager) : Op → Prop
  | .pipeAddEntry entry p steps => ∀ info, m.pipeIdToPipeInfo.lookup p = some info →
      steps.idPtr ∈ info.entriesTable ∨ steps.entryAdded = false ∨
        (steps.pipeIdAdded = false ∧ generateID entry ∉ info.entriesTable)
  | _ => True

/-- The calls of a run that collide are turned away. -/
def Guarded (w : World) (op : Op) : Prop := Collides w.manager op → TurnedAway w.manager op

variable {m : Manager} {p id : UInt64} {w : World} {op : Op}

theorem collides_entry {entry : Handle} {steps : AddSteps} :
    Collides m (.pipeAddEntry entry p steps) ↔
      ∃ q e, (tables m).entry q (generateID entry) = some e := by
  simp only [Collides, tables, Option.bind_eq_some_iff, mem_iff_lookup]
  constructor
  · rintro ⟨q, info, hinfo, e, he⟩
    exact ⟨q, e, info, hinfo, he⟩
  · rintro ⟨q, e, info, hinfo, he⟩
    exact ⟨q, info, hinfo, e, he⟩

/-- A pipe that is not registered already has no information. -/
theorem create_refused {pipe : Handle} {portId : UInt16} {steps : CreateSteps}
    (h : generateID pipe ∈ m.pipeIdToPipeInfo) :
    call m (.pipeCreate pipe portId steps) = (.error .invalidValue, m) := by
  simp [call, pipesManagerPipeCreate, h, Except.map]

/-- Taking out an id that has just been put in leaves the tables alone exactly when the id
was not there before. -/
theorem tables_insert_erase {info : PipeInfo} (hinfo : m.pipeIdToPipeInfo.lookup p = some info)
    (entry : Handle) :
    tables (m.setEntries p info ((info.entriesTable.insert id entry).erase id)) = tables m ↔
      id ∉ info.entriesTable := by
  rw [tables_setEntries hinfo]
  constructor
  · intro heq hid
    obtain ⟨e, he⟩ := mem_iff_lookup.mp hid
    have hnone := congrFun (congrFun (congrArg Tables.entry heq) p) id
    simp [entry_of_info hinfo, he] at hnone
  · intro hid
    refine Tables.ext rfl ?_ rfl rfl rfl
    funext q i
    dsimp only
    split
    · next hq =>
      subst hq
      have hnone : info.entriesTable.lookup id = none := AList.lookup_eq_none.mpr hid
      rw [entry_of_info hinfo, lookup_erase, lookup_insert]
      split
      · next hi =>
        subst hi
        exact hnone.symm
      · rfl
    · rfl

theorem addEntry_refused {entry : Handle} {steps : AddSteps} :
    Refused m (.pipeAddEntry entry p steps) ↔ TurnedAway m (.pipeAddEntry entry p steps) := by
  simp only [Refused, TurnedAway, call, pipesManagerPipeAddEntry]
  cases hinfo : m.pipeIdToPipeInfo.lookup p with
  | none => simp [Except.map]
  | some info =>
    by_cases hptr : steps.idPtr ∈ info.entriesTable
    · simp [hptr, Except.map]
    · cases hadd : steps.entryAdded with
      | false => simp [hptr, Except.map]
      | true =>
        cases hid : steps.pipeIdAdded with
        | false => simp [hptr, Except.map, tables_insert_erase hinfo]
        | true => simp [hptr, Except.map]

/-- A call that collides is refused exactly when it is turned away. -/
theorem refused_iff (h : Collides m op) : Refused m op ↔ TurnedAway m op := by
  cases op with
  | pipeCreate pipe portId steps => simp [Refused, TurnedAway, create_refused h]
  | pipeAddEntry entry p steps => exact addEntry_refused
  | pipeRmEntry id => exact h.elim
  | pipeDestroy p => exact h.elim
  | pipesFlush portId => exact h.elim

theorem addEntry_nextRef (entry : Handle) (steps : AddSteps) :
    (pipesManagerPipeAddEntry m entry p steps).2.nextRef = m.nextRef := by
  unfold pipesManagerPipeAddEntry
  dsimp only
  split
  · rfl
  · split
    · rfl
    · split
      · rfl
      · split <;> rfl

/-- A call that does not collide adds a new entry. -/
theorem newEntry_of_not_collides (hl : Linked (tables m)) (h : ¬ Collides m op) :
    NewEntry m op := by
  cases op with
  | pipeAddEntry entry p steps =>
    intro _
    cases hq : (tables m).pipeOf (generateID entry) with
    | none => rfl
    | some q => exact absurd (collides_entry.mpr ⟨q, hl.pipeOf.mp hq⟩) h
  | _ => trivial

/-- A call that is refused does not add to the registry either. -/
theorem step_refused (hw : Sound w) (hc : Collides w.manager op)
    (hr : Refused w.manager op) : Sound (step w op) ∧ (step w op).registry = w.registry := by
  obtain ⟨⟨err, herr⟩, hsame⟩ := hr
  have hrefs : RefsBelow (call w.manager op).2 := by
    cases op with
    | pipeCreate pipe portId steps =>
      rw [create_refused hc]
      exact hw.refs
    | pipeAddEntry entry p steps =>
      exact hw.refs.of_port (addEntry_nextRef entry steps) (by simp [hsame])
    | pipeRmEntry id => exact hc.elim
    | pipeDestroy p => exact hc.elim
    | pipesFlush portId => exact hc.elim
  refine ⟨step_of_error hw herr hsame hrefs, ?_⟩
  unfold step
  cases hres : call w.manager op with
  | mk res m =>
    rw [hres] at herr
    obtain rfl : res = .error err := herr
    rfl

theorem step_guarded (hw : Sound w) (hg : Guarded w op) : Sound (step w op) := by
  by_cases hc : Collides w.manager op
  · exact (step_refused hw hc ((refused_iff hc).mpr (hg hc))).1
  · exact step_new hw (newEntry_of_not_collides hw.linked hc)

/-- The lookups and the removal act on the registered objects. -/
structure ActsOnRegistered (w : World) : Prop where
  answers : Answers w.manager w.registry
  removal : ∀ id e p, w.registry.entries id = some (e, p) →
    (pipesManagerPipeRmEntry w.manager id).1 = .ok () ∧
      tables (pipesManagerPipeRmEntry w.manager id).2 = (tables w.manager).rmEntry p id

/-- Whatever is registered under an id after the call is what was registered under it
before, where there was something. -/
structure FirstStays (r r' : Registry) : Prop where
  pipes : ∀ {p x y}, r.pipes p = some x → r'.pipes p = some y → y = x
  entries : ∀ {id x y}, r.entries id = some x → r'.entries id = some y → y = x

theorem FirstStays.refl (r : Registry) : FirstStays r r :=
  ⟨fun hx hy => Option.some.inj (hy.symm.trans hx), fun hx hy => Option.some.inj (hy.symm.trans hx)⟩

theorem acts_on_registered (hw : Sound w) : ActsOnRegistered w := by
  refine ⟨hw.answers, ?_⟩
  intro id e p hid
  have hof : (tables w.manager).pipeOf id = some p :=
    hw.linked.pipeOf.mpr ⟨e, (hw.reads.entries id e p).mp hid⟩
  rcases pipeRmEntry_cases hw.linked id with ⟨hnone, -⟩ | ⟨q, hq, hok, htab, -⟩
  · exact absurd (hof.symm.trans hnone) (by simp)
  · obtain rfl : p = q := Option.some.inj (hof.symm.trans hq)
    exact ⟨hok, htab⟩

/-- A registered object collides with a new one of the same id. -/
theorem after_firstStays (hw : Sound w) (hc : ¬ Collides w.manager op) :
    FirstStays w.registry (w.registry.after op) := by
  cases op with
  | pipeCreate pipe portId steps =>
    refine ⟨?_, (FirstStays.refl w.registry).entries⟩
    intro p x y hx hy
    by_cases hp : p = generateID pipe
    · subst hp
      obtain ⟨ref, hpipe, -⟩ := (hw.reads.pipes _ x.1 x.2).mp hx
      obtain ⟨info, hinfo, -⟩ := Option.map_eq_some_iff.mp hpipe
      exact absurd (mem_of_lookup hinfo) hc
    · simp only [Registry.after, Function.update_of_ne hp] at hy
      exact Option.some.inj (hy.symm.trans hx)
  | pipeAddEntry entry q steps =>
    refine ⟨(FirstStays.refl w.registry).pipes, ?_⟩
    intro id x y hx hy
    by_cases hid : id = generateID entry
    · subst hid
      exact absurd (collides_entry.mpr ⟨x.2, x.1, (hw.reads.entries _ x.1 x.2).mp hx⟩) hc
    · simp only [Registry.after, Function.update_of_ne hid] at hy
      exact Option.some.inj (hy.symm.trans hx)
  | pipeRmEntry i =>
    refine ⟨(FirstStays.refl w.registry).pipes, ?_⟩
    intro id x y hx hy
    by_cases hid : id = i
    · simp [Registry.after, hid] at hy
    · simp only [Registry.after, Function.update_of_ne hid] at hy
      exact Option.some.inj (hy.symm.trans hx)
  | pipeDestroy q =>
    refine ⟨?_, ?_⟩
    · intro p x y hx hy
      by_cases hp : p = q
      · simp [Registry.after, hp] at hy
      · simp only [Registry.after, Function.update_of_ne hp] at hy
        exact Option.some.inj (hy.symm.trans hx)
    · intro id x y hx hy
      exact Option.some.inj ((Option.filter_eq_some_iff.mp hy).1.symm.trans hx)
  | pipesFlush portId =>
    refine ⟨?_, ?_⟩
    · intro p x y hx hy
      exact Option.some.inj ((Option.filter_eq_some_iff.mp hy).1.symm.trans hx)
    · intro id x y hx hy
      exact Option.some.inj ((Option.filter_eq_some_iff.mp hy).1.symm.trans hx)

theorem step_firstStays (hw : Sound w) (hg : Guarded w op) :
    FirstStays w.registry (step w op).registry := by
  by_cases hc : Collides w.manager op
  · rw [(step_refused hw hc ((refused_iff hc).mpr (hg hc))).2]
    exact FirstStays.refl w.registry
  · unfold step
    cases hres : call w.manager op with
    | mk res m =>
      cases res with
      | ok u => exact after_firstStays hw hc
      | error err => exact FirstStays.refl w.registry

theorem run_guarded {ops : List Op} (hops : Along step Guarded start ops) :
    Sound (run step start ops) :=
  run_invariant (fun _ _ hw hg => step_guarded hw hg) start_sound hops

/-- In every state of a run, a call that collides is refused exactly when it is turned away.
Where the calls of the run that collide are, the lookups and the removal keep acting on
the object first registered under an id. -/
theorem collisions_refused_when_turned_away (ops : List Op) :
    (∀ op, Collides (run step start ops).manager op →
      (Refused (run step start ops).manager op ↔ TurnedAway (run step start ops).manager op)) ∧
    (Along step Guarded start ops → ActsOnRegistered (run step start ops) ∧
      ∀ op, Guarded (run step start ops) op → ActsOnRegistered (step (run step start ops) op) ∧
        FirstStays (run step start ops).registry (step (run step start ops) op).registry) := by
  refine ⟨fun op hc => refused_iff hc, ?_⟩
  intro hops
  have hw := run_guarded hops
  refine ⟨acts_on_registered hw, ?_⟩
  intro op hg
  exact ⟨acts_on_registered (step_guarded hw hg), step_firstStays hw hg⟩

/-- Another entry with the first bytes of `someEntry`. -/
def twinEntry : Handle := ⟨0x5000, someEntry.head⟩

def addTwin : Op := .pipeAddEntry twinEntry (generateID secondPipe) added

theorem addedOnce_guarded : Along step Guarded start addedOnce := by
  refine ⟨fun _ => trivial, fun _ => trivial, ?_, trivial⟩
  intro hc
  have hw : Sound (run step start (addedOnce.take 2)) :=
    run_guarded ⟨fun _ => trivial, fun _ => trivial, trivial⟩
  have hnone : (run step start (addedOnce.take 2)).registry.entries = fun _ => none := rfl
  obtain ⟨q, e, he⟩ := collides_entry.mp hc
  have hid := (hw.reads.entries _ e q).mpr he
  rw [hnone] at hid
  cases hid

theorem collisions_added_once :
    Along step Guarded start addedOnce ∧ ActsOnRegistered (run step start addedOnce) :=
  ⟨addedOnce_guarded, ((collisions_refused_when_turned_away addedOnce).2 addedOnce_guarded).1⟩

/-- The id of the twin is that of an entry of the first pipe. It goes into the second pipe
all the same, and the lookup and the removal now act on it. -/
theorem collision_accepted :
    let w := run step start addedOnce
    Collides w.manager addTwin ∧ (call w.manager addTwin).1 = .ok () ∧
      pipesManagerGetEntry w.manager (generateID twinEntry) = .ok someEntry ∧
      pipesManagerGetEntry (step w addTwin).manager (generateID twinEntry) = .ok twinEntry ∧
      ¬ Refused w.manager addTwin := by
  have hok : (call (run step start addedOnce).manager addTwin).1 = .ok () := by decide +kernel
  refine ⟨?_, hok, by decide +kernel, by decide +kernel, ?_⟩
  · exact ⟨generateID firstPipe,
      ⟨firstPipe, AList.singleton (generateID someEntry) someEntry, 0⟩, rfl, by decide +kernel⟩
  · rintro ⟨⟨err, herr⟩, -⟩
    cases hok.symm.trans herr

end DocaApps.Proofs.PipesCollisions
