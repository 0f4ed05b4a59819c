import DocaApps.Common.FlowPipesManager
import DocaApps.Lib.Runs

namespace DocaApps.Proofs.FlowPipesManager
open Lib.FiniteTable Lib.Runs Common.FlowPipesManager

/-- What the tables of the manager say, whatever order their keys are in. -/
@[ext] structure Tables where
  pipe : UInt64 → Option (Handle × TableRef)
  entry : UInt64 → UInt64 → Option Handle
  pipeOf : UInt64 → Option UInt64
  port : UInt16 → Option TableRef
  listed : UInt16 → UInt64 → Prop

def Listed (m : Manager) (portId : UInt16) (pipeId : UInt64) : Prop :=
  ∃ ref, m.portIdToPipesId.lookup portId = some ref ∧ pipeId ∈ m.pipesTable ref

def tables (m : Manager) : Tables where
  pipe p := (m.pipeIdToPipeInfo.lookup p).map fun info => (info.pipe, info.portIdToPipesTable)
  entry p id := (m.pipeIdToPipeInfo.lookup p).bind fun info => info.entriesTable.lookup id
  pipeOf := m.entryIdToPipeId.lookup
  port := m.portIdToPipesId.lookup
  listed := Listed m

/-- The addresses of the ports' tables have been given out. -/
def RefsBelow (m : Manager) : Prop :=
  ∀ port ref, m.portIdToPipesId.lookup port = some ref → ref < m.nextRef

variable {m : Manager} {p id : UInt64} {ref : TableRef}

theorem pipesTable_hashAddKey (m : Manager) (ref r : TableRef) (p : UInt64) :
    (m.hashAddKey ref p).pipesTable r =
      if r = ref then (m.pipesTable ref).insert p () else m.pipesTable r := by
  unfold Manager.hashAddKey Manager.pipesTable
  simp only [lookup_insert]
  split <;> rfl

theorem pipesTable_hashDelKey (m : Manager) (ref r : TableRef) (p : UInt64) :
    (m.hashDelKey ref p).pipesTable r =
      if r = ref then (m.pipesTable ref).erase p else m.pipesTable r := by
  unfold Manager.hashDelKey Manager.pipesTable
  simp only [lookup_insert]
  split <;> rfl

theorem pipesTable_hashCreate (m : Manager) (r : TableRef) :
    m.hashCreate.pipesTable r = if r = m.nextRef then ∅ else m.pipesTable r := by
  unfold Manager.hashCreate Manager.pipesTable
  simp only [lookup_insert]
  split <;> rfl

theorem pipesTable_hashFree (m : Manager) (ref r : TableRef) :
    (m.hashFree ref).pipesTable r = if r = ref then ∅ else m.pipesTable r := by
  unfold Manager.hashFree Manager.pipesTable
  simp only [lookup_erase]
  split <;> rfl

/-- The four tables point at one another: ports have tables of their own, a port's
table lists the pipes whose information points to it, and the entry table has the
entries of the registered pipes. -/
structure Linked (t : Tables) : Prop where
  port_inj : ∀ {a b ref}, t.port a = some ref → t.port b = some ref → a = b
  pipe_port : ∀ {p h ref}, t.pipe p = some (h, ref) → ∃ port, t.port port = some ref
  listed : ∀ {port p}, t.listed port p ↔ ∃ h ref, t.pipe p = some (h, ref) ∧ t.port port = some ref
  pipeOf : ∀ {id p}, t.pipeOf id = some p ↔ ∃ e, t.entry p id = some e
  entry_pipe : ∀ {p id e}, t.entry p id = some e → ∃ x, t.pipe p = some x

/-- A pipe is listed on one port only. -/
theorem Linked.listed_port {t : Tables} (hl : Linked t) {a b : UInt16} (ha : t.listed a p)
    (hb : t.listed b p) : a = b := by
  obtain ⟨h, r, hp, ha⟩ := hl.listed.mp ha
  obtain ⟨h', r', hp', hb⟩ := hl.listed.mp hb
  cases hp.symm.trans hp'
  exact hl.port_inj ha hb

theorem not_mem_pipesTable (hl : Linked (tables m)) {port : UInt16}
    (hport : m.portIdToPipesId.lookup port = some ref) (hp : p ∉ m.pipeIdToPipeInfo) :
    p ∉ m.pipesTable ref := by
  intro hmem
  obtain ⟨h, r, hpipe, -⟩ := hl.listed.mp (show (tables m).listed port p from ⟨ref, hport, hmem⟩)
  obtain ⟨info, hinfo, -⟩ := Option.map_eq_some_iff.mp hpipe
  exact hp (mem_of_lookup hinfo)

/-- Taking the key out again restores what the tables say. -/
theorem tables_undo_old (hl : Linked (tables m)) {port : UInt16}
    (hport : m.portIdToPipesId.lookup port = some ref) (hp : p ∉ m.pipeIdToPipeInfo) :
    tables (undoPipeKey (m.hashAddKey ref p) ref p port false) = tables m := by
  have hout := not_mem_pipesTable hl hport hp
  have hlisted : Listed (undoPipeKey (m.hashAddKey ref p) ref p port false) = Listed m := by
    funext a q
    refine propext (exists_congr fun r => and_congr_right fun _ => ?_)
    show q ∈ ((m.hashAddKey ref p).hashDelKey ref p).pipesTable r ↔ q ∈ m.pipesTable r
    rw [pipesTable_hashDelKey, pipesTable_hashAddKey, pipesTable_hashAddKey]
    by_cases hr : r = ref
    · subst hr
      rw [if_pos rfl, if_pos rfl, mem_erase, mem_insert]
      constructor
      · rintro ⟨hne, heq | hq⟩
        · exact absurd heq hne
        · exact hq
      · intro hq
        exact ⟨fun heq => hout (heq ▸ hq), Or.inr hq⟩
    · rw [if_neg hr, if_neg hr]
  exact Tables.ext rfl rfl rfl rfl hlisted

/-- Work on a table whose address is new leaves what the tables say alone. -/
theorem tables_scratch {m' : Manager} (hr : RefsBelow m)
    (hinfo : m'.pipeIdToPipeInfo = m.pipeIdToPipeInfo)
    (hentry : m'.entryIdToPipeId = m.entryIdToPipeId)
    (hport : ∀ a, m'.portIdToPipesId.lookup a = m.portIdToPipesId.lookup a)
    (htab : ∀ r, r ≠ m.nextRef → m'.pipesTable r = m.pipesTable r) : tables m' = tables m := by
  have hlisted : Listed m' = Listed m := by
    funext a q
    refine propext (exists_congr fun r => ?_)
    rw [hport a]
    refine and_congr_right fun ha => ?_
    rw [htab r (Nat.ne_of_lt (hr a r ha))]
  refine Tables.ext ?_ ?_ ?_ (funext hport) hlisted
  · simp only [tables, hinfo]
  · simp only [tables, hinfo]
  · simp only [tables, hentry]

/-- The second half of the creation fails only through its undo. -/
theorem addPipeInfo_error {pipe : Handle} {port : UInt16} {isNewTable : Bool}
    {steps : CreateSteps} {e : DocaError}
    (h : (addPipeInfo m pipe port ref isNewTable steps).1 = .error e) :
    (addPipeInfo m pipe port ref isNewTable steps).2 =
      undoPipeKey m ref (generateID pipe) port isNewTable := by
  unfold addPipeInfo at h ⊢
  dsimp only at h ⊢
  split
  · rfl
  · split
    · rfl
    · next h1 h2 =>
      rw [if_neg h1, if_neg h2] at h
      cases h

/-- A call of `pipes_manager_pipe_create` that fails at any of its steps takes back
what it did. -/
theorem pipeCreate_error (hl : Linked (tables m)) (hr : RefsBelow m) {pipe : Handle}
    {port : UInt16} {steps : CreateSteps} {e : DocaError}
    (h : (pipesManagerPipeCreate m pipe port steps).1 = .error e) :
    tables (pipesManagerPipeCreate m pipe port steps).2 = tables m ∧
      RefsBelow (pipesManagerPipeCreate m pipe port steps).2 := by
  unfold pipesManagerPipeCreate at h ⊢
  dsimp only at h ⊢
  by_cases hp : generateID pipe ∈ m.pipeIdToPipeInfo
  · rw [if_pos hp]
    exact ⟨rfl, hr⟩
  rw [if_neg hp] at h ⊢
  cases hport : m.portIdToPipesId.lookup port with
  | some ref =>
    simp only [hport] at h ⊢
    cases hk : steps.keyAdded with
    | false => exact ⟨rfl, hr⟩
    | true =>
      simp only [hk, Bool.not_true, Bool.false_eq_true, if_false] at h ⊢
      rw [addPipeInfo_error h]
      exact ⟨tables_undo_old hl hport hp, hr⟩
  | none =>
    simp only [hport] at h ⊢
    have hback : ∀ a, ((m.portIdToPipesId.insert port m.nextRef).erase port).lookup a =
        m.portIdToPipesId.lookup a := by
      intro a
      rw [lookup_erase, lookup_insert]
      split
      · next ha => rw [ha, hport]
      · rfl
    have hbelow : ∀ a r, m.portIdToPipesId.lookup a = some r → r < m.nextRef + 1 :=
      fun a r ha => Nat.lt_succ_of_lt (hr a r ha)
    cases ht : steps.tableCreated with
    | false => exact ⟨rfl, hr⟩
    | true =>
      simp only [ht, Bool.not_true, Bool.false_eq_true, if_false] at h ⊢
      cases hk : steps.keyAdded with
      | false =>
        refine ⟨tables_scratch hr rfl rfl (fun _ => rfl) fun r hne => ?_, hbelow⟩
        show (m.hashCreate.hashFree m.nextRef).pipesTable r = _
        rw [pipesTable_hashFree, if_neg hne, pipesTable_hashCreate, if_neg hne]
      | true =>
        simp only [hk, Bool.not_true, Bool.false_eq_true, if_false] at h ⊢
        have hadded : ∀ r, r ≠ m.nextRef →
            (m.hashCreate.hashAddKey m.nextRef (generateID pipe)).pipesTable r =
              m.pipesTable r := by
          intro r hne
          rw [pipesTable_hashAddKey, if_neg hne, pipesTable_hashCreate, if_neg hne]
        cases ha : steps.portAdded with
        | false =>
          refine ⟨tables_scratch hr rfl rfl (fun _ => rfl) fun r hne => ?_, hbelow⟩
          show (((m.hashCreate.hashAddKey m.nextRef (generateID pipe)).hashDelKey m.nextRef
            (generateID pipe)).hashFree m.nextRef).pipesTable r = _
          rw [pipesTable_hashFree, if_neg hne, pipesTable_hashDelKey, if_neg hne, hadded r hne]
        | true =>
          simp only [ha, Bool.not_true, Bool.false_eq_true, if_false] at h ⊢
          rw [addPipeInfo_error h]
          refine ⟨tables_scratch hr rfl rfl hback fun r hne => ?_, fun a r hport' => ?_⟩
          · unfold undoPipeKey
            rw [if_pos rfl, pipesTable_hashFree, if_neg hne]
            show (Manager.hashDelKey _ m.nextRef (generateID pipe)).pipesTable r = _
            rw [pipesTable_hashDelKey, if_neg hne]
            exact hadded r hne
          · exact hbelow a r ((hback a).symm.trans hport')

/-- What the tables say once a pipe is registered. -/
def Tables.addPipe (t : Tables) (p : UInt64) (h : Handle) (port : UInt16) (ref : TableRef) :
    Tables where
  pipe q := if q = p then some (h, ref) else t.pipe q
  entry q id := if q = p then none else t.entry q id
  pipeOf := t.pipeOf
  port a := if a = port then some ref else t.port a
  listed a q := t.listed a q ∨ (a = port ∧ q = p)

/-- The second half of the creation succeeds by registering the pipe's information. -/
theorem addPipeInfo_ok {pipe : Handle} {port : UInt16} {isNewTable : Bool}
    {steps : CreateSteps}
    (h : (addPipeInfo m pipe port ref isNewTable steps).1 = .ok id) :
    id = generateID pipe ∧ steps.entriesCreated = true ∧
      (addPipeInfo m pipe port ref isNewTable steps).2 =
        { m with pipeIdToPipeInfo :=
          m.pipeIdToPipeInfo.insert (generateID pipe) ⟨pipe, ∅, ref⟩ } := by
  unfold addPipeInfo at h ⊢
  dsimp only at h ⊢
  split
  · next h1 =>
    rw [if_pos h1] at h
    cases h
  · next h1 =>
    rw [if_neg h1] at h
    have hboth : steps.infoAllocated = true ∧ steps.entriesCreated = true := by simpa using h1
    split
    · next h2 =>
      rw [if_pos h2] at h
      cases h
    · next h2 =>
      rw [if_neg h2] at h
      cases h
      exact ⟨rfl, hboth.2, rfl⟩

/-- Registering a pipe whose id has just been put into the table of its port. -/
theorem tables_addPipe {m' : Manager} {pipe : Handle} {port : UInt16}
    (hinfo : m'.pipeIdToPipeInfo = m.pipeIdToPipeInfo.insert p ⟨pipe, ∅, ref⟩)
    (hentry : m'.entryIdToPipeId = m.entryIdToPipeId)
    (hport : ∀ a, m'.portIdToPipesId.lookup a =
      if a = port then some ref else m.portIdToPipesId.lookup a)
    (hlisted : ∀ a q, Listed m' a q ↔ Listed m a q ∨ (a = port ∧ q = p)) :
    tables m' = (tables m).addPipe p pipe port ref := by
  refine Tables.ext ?_ ?_ ?_ (funext hport) (funext fun a => funext fun q => propext (hlisted a q))
  · funext q
    simp only [tables, Tables.addPipe, hinfo, lookup_insert]
    split <;> rfl
  · funext q id
    simp only [tables, Tables.addPipe, hinfo, lookup_insert]
    split <;> rfl
  · simp only [tables, Tables.addPipe, hentry]

/-- The port's table has one more id and the tables of other ports are as before. -/
theorem listed_addKey {m' : Manager} {port : UInt16}
    (hport : ∀ a, m'.portIdToPipesId.lookup a =
      if a = port then some ref else m.portIdToPipesId.lookup a)
    (hown : ∀ q, q ∈ m'.pipesTable ref ↔ q = p ∨ Listed m port q)
    (hother : ∀ a r, m.portIdToPipesId.lookup a = some r → a ≠ port →
      m'.pipesTable r = m.pipesTable r) (a : UInt16) (q : UInt64) :
    Listed m' a q ↔ Listed m a q ∨ (a = port ∧ q = p) := by
  by_cases ha : a = port
  · subst ha
    have hl : Listed m' a q ↔ q ∈ m'.pipesTable ref := by
      simp only [Listed, hport a, if_true, Option.some.injEq, exists_eq_left']
    rw [hl, hown q]
    simp only [true_and]
    exact Or.comm
  · have hl : Listed m' a q ↔ Listed m a q := by
      refine exists_congr fun r => ?_
      rw [hport a, if_neg ha]
      refine and_congr_right fun hr => ?_
      rw [hother a r hr ha]
    rw [hl]
    simp only [ha, false_and, or_false]

/-- How a call of `pipes_manager_pipe_create` succeeds: with an id that is not registered, on
the table of the port or on a new one, and only when all its steps do. -/
theorem pipeCreate_cases {pipe : Handle} {port : UInt16} {steps : CreateSteps}
    (h : (pipesManagerPipeCreate m pipe port steps).1 = .ok id) :
    id = generateID pipe ∧ generateID pipe ∉ m.pipeIdToPipeInfo ∧
      steps.entriesCreated = true ∧
      ((∃ ref, m.portIdToPipesId.lookup port = some ref ∧
          (pipesManagerPipeCreate m pipe port steps).2 =
            { m.hashAddKey ref (generateID pipe) with
              pipeIdToPipeInfo :=
                m.pipeIdToPipeInfo.insert (generateID pipe) ⟨pipe, ∅, ref⟩ }) ∨
        (m.portIdToPipesId.lookup port = none ∧ steps.tableCreated = true ∧
          (pipesManagerPipeCreate m pipe port steps).2 =
            { m.hashCreate.hashAddKey m.nextRef (generateID pipe) with
              portIdToPipesId := m.portIdToPipesId.insert port m.nextRef
              pipeIdToPipeInfo :=
                m.pipeIdToPipeInfo.insert (generateID pipe) ⟨pipe, ∅, m.nextRef⟩ })) := by
  unfold pipesManagerPipeCreate at h ⊢
  dsimp only at h ⊢
  by_cases hp : generateID pipe ∈ m.pipeIdToPipeInfo
  · rw [if_pos hp] at h
    cases h
  rw [if_neg hp] at h ⊢
  cases hport : m.portIdToPipesId.lookup port with
  | some ref =>
    simp only [hport] at h ⊢
    cases hk : steps.keyAdded with
    | false =>
      rw [hk] at h
      cases h
    | true =>
      simp only [hk, Bool.not_true, Bool.false_eq_true, if_false] at h ⊢
      obtain ⟨rfl, he, hm⟩ := addPipeInfo_ok h
      exact ⟨rfl, hp, he, Or.inl ⟨ref, rfl, hm⟩⟩
  | none =>
    simp only [hport] at h ⊢
    cases ht : steps.tableCreated with
    | false =>
      rw [ht] at h
      cases h
    | true =>
      simp only [ht, Bool.not_true, Bool.false_eq_true, if_false] at h ⊢
      cases hk : steps.keyAdded with
      | false =>
        rw [hk] at h
        cases h
      | true =>
        simp only [hk, Bool.not_true, Bool.false_eq_true, if_false] at h ⊢
        cases ha : steps.portAdded with
        | false =>
          rw [ha] at h
          cases h
        | true =>
          simp only [ha, Bool.not_true, Bool.false_eq_true, if_false] at h ⊢
          obtain ⟨rfl, he, hm⟩ := addPipeInfo_ok h
          exact ⟨rfl, hp, he, Or.inr ⟨trivial, trivial, hm⟩⟩

/-- A call of `pipes_manager_pipe_create` that succeeds registers a new id, on the
table of the port or on a new one. -/
theorem pipeCreate_ok (hl : Linked (tables m)) (hr : RefsBelow m) {pipe : Handle} {port : UInt16}
    {steps : CreateSteps} (h : (pipesManagerPipeCreate m pipe port steps).1 = .ok id) :
    id = generateID pipe ∧ (tables m).pipe id = none ∧
      RefsBelow (pipesManagerPipeCreate m pipe port steps).2 ∧
      ∃ ref, ((tables m).port port = some ref ∨
          ((tables m).port port = none ∧ ∀ a, (tables m).port a ≠ some ref)) ∧
        tables (pipesManagerPipeCreate m pipe port steps).2 =
          (tables m).addPipe id pipe port ref := by
  obtain ⟨rfl, hp, -, hcase⟩ := pipeCreate_cases h
  have hnone : (tables m).pipe (generateID pipe) = none :=
    Option.map_eq_none_iff.mpr (AList.lookup_eq_none.mpr hp)
  rcases hcase with ⟨ref, hport, hm⟩ | ⟨hport, -, hm⟩
  · rw [hm]
    have hports : ∀ a, m.portIdToPipesId.lookup a =
        if a = port then some ref else m.portIdToPipesId.lookup a := by
      intro a
      split
      · next ha => rw [ha, hport]
      · rfl
    refine ⟨rfl, hnone, hr, ref, Or.inl hport, tables_addPipe rfl rfl hports
      (listed_addKey hports (fun q => ?_) fun a r ha hne => ?_)⟩
    · show q ∈ (m.hashAddKey ref (generateID pipe)).pipesTable ref ↔ _
      rw [pipesTable_hashAddKey, if_pos rfl, mem_insert]
      simp only [Listed, hport, Option.some.injEq, exists_eq_left']
    · show (m.hashAddKey ref (generateID pipe)).pipesTable r = _
      have hrr : r ≠ ref := fun heq => hne (hl.port_inj ha (heq ▸ hport))
      rw [pipesTable_hashAddKey, if_neg hrr]
  · rw [hm]
    have hnew : ∀ a, (tables m).port a ≠ some m.nextRef :=
      fun a hport' => Nat.lt_irrefl _ (hr a _ hport')
    have hports : ∀ a, (m.portIdToPipesId.insert port m.nextRef).lookup a =
        if a = port then some m.nextRef else m.portIdToPipesId.lookup a :=
      fun a => lookup_insert ..
    refine ⟨rfl, hnone, fun a r hport' => ?_, m.nextRef, Or.inr ⟨hport, hnew⟩,
      tables_addPipe rfl rfl hports (listed_addKey hports (fun q => ?_) fun a r ha hne => ?_)⟩
    · have hcase := (hports a).symm.trans hport'
      show r < m.nextRef + 1
      split at hcase
      · cases hcase
        exact Nat.lt_succ_self _
      · exact Nat.lt_succ_of_lt (hr a r hcase)
    · show q ∈ (m.hashCreate.hashAddKey m.nextRef (generateID pipe)).pipesTable m.nextRef ↔ _
      rw [pipesTable_hashAddKey, if_pos rfl, mem_insert, pipesTable_hashCreate, if_pos rfl]
      simp only [Listed, hport, reduceCtorEq, false_and, exists_false, AList.notMem_empty]
    · show (m.hashCreate.hashAddKey m.nextRef (generateID pipe)).pipesTable r = _
      have hrr : r ≠ m.nextRef := Nat.ne_of_lt (hr a r ha)
      rw [pipesTable_hashAddKey, if_neg hrr, pipesTable_hashCreate, if_neg hrr]

/-- What the tables say once an entry is registered. -/
def Tables.addEntry (t : Tables) (p id : UInt64) (e : Handle) : Tables where
  pipe := t.pipe
  entry q i := if q = p ∧ i = id then some e else t.entry q i
  pipeOf i := if i = id then some p else t.pipeOf i
  port := t.port
  listed := t.listed

/-- What the tables say once an entry of a pipe is removed. -/
def Tables.rmEntry (t : Tables) (p id : UInt64) : Tables where
  pipe := t.pipe
  entry q i := if q = p ∧ i = id then none else t.entry q i
  pipeOf i := if i = id then none else t.pipeOf i
  port := t.port
  listed := t.listed

/-- Giving a registered pipe another entries table changes its entries only. -/
theorem tables_setEntries {info : PipeInfo} (hinfo : m.pipeIdToPipeInfo.lookup p = some info)
    (entries : Table UInt64 Handle) :
    tables (m.setEntries p info entries) =
      { tables m with
        entry := fun q i => if q = p then entries.lookup i else (tables m).entry q i } := by
  refine Tables.ext ?_ ?_ rfl rfl rfl
  · funext q
    simp only [tables, Manager.setEntries, lookup_insert]
    split
    · next hq => rw [hq, hinfo]; rfl
    · rfl
  · funext q i
    simp only [tables, Manager.setEntries, lookup_insert]
    split <;> rfl

theorem entry_of_info {info : PipeInfo} (hinfo : m.pipeIdToPipeInfo.lookup p = some info) :
    (tables m).entry p = info.entriesTable.lookup := by
  funext i
  simp only [tables, hinfo, Option.bind_some]

/-- A failed insertion of an entry whose id is new leaves the tables alone. -/
theorem pipeAddEntry_error {entry : Handle} {steps : AddSteps} {e : DocaError}
    (hnew : (tables m).entry p (generateID entry) = none)
    (h : (pipesManagerPipeAddEntry m entry p steps).1 = .error e) :
    tables (pipesManagerPipeAddEntry m entry p steps).2 = tables m ∧
      (pipesManagerPipeAddEntry m entry p steps).2.nextRef = m.nextRef := by
  unfold pipesManagerPipeAddEntry at h ⊢
  dsimp only at h ⊢
  cases hinfo : m.pipeIdToPipeInfo.lookup p with
  | none => exact ⟨rfl, rfl⟩
  | some info =>
    simp only [hinfo] at h ⊢
    split
    · exact ⟨rfl, rfl⟩
    · next hptr =>
      rw [if_neg hptr] at h
      split
      · exact ⟨rfl, rfl⟩
      · next hadd =>
        rw [if_neg hadd] at h
        split
        · refine ⟨?_, rfl⟩
          rw [tables_setEntries hinfo]
          refine Tables.ext rfl ?_ rfl rfl rfl
          funext q i
          dsimp only
          split
          · next hq =>
            subst hq
            rw [entry_of_info hinfo] at hnew ⊢
            rw [lookup_erase, lookup_insert]
            split
            · next hi => rw [hi, hnew]
            · rfl
          · rfl
        · next hid =>
          rw [if_neg hid] at h
          cases h

theorem pipeAddEntry_ok {entry : Handle} {steps : AddSteps}
    (h : (pipesManagerPipeAddEntry m entry p steps).1 = .ok id) :
    id = generateID entry ∧ (∃ x, (tables m).pipe p = some x) ∧
      tables (pipesManagerPipeAddEntry m entry p steps).2 = (tables m).addEntry p id entry ∧
      (pipesManagerPipeAddEntry m entry p steps).2.nextRef = m.nextRef := by
  unfold pipesManagerPipeAddEntry at h ⊢
  dsimp only at h ⊢
  cases hinfo : m.pipeIdToPipeInfo.lookup p with
  | none =>
    rw [hinfo] at h
    cases h
  | some info =>
    simp only [hinfo] at h ⊢
    split
    · next hptr =>
      rw [if_pos hptr] at h
      cases h
    · next hptr =>
      rw [if_neg hptr] at h
      split
      · next hadd =>
        rw [if_pos hadd] at h
        cases h
      · next hadd =>
        rw [if_neg hadd] at h
        split
        · next hid =>
          rw [if_pos hid] at h
          cases h
        · next hid =>
          rw [if_neg hid] at h
          cases h
          have hset := tables_setEntries hinfo (info.entriesTable.insert (generateID entry) entry)
          refine ⟨rfl, ⟨(info.pipe, info.portIdToPipesTable), ?_⟩, ?_, rfl⟩
          · simp only [tables, hinfo, Option.map_some]
          · refine Tables.ext ?_ ?_ ?_ rfl rfl
            · have hpipe := congrArg Tables.pipe hset
              exact hpipe
            · have hentry := congrArg Tables.entry hset
              refine hentry.trans ?_
              funext q i
              simp only [Tables.addEntry]
              by_cases hq : q = p
              · subst hq
                rw [entry_of_info hinfo]
                simp only [if_true, true_and, lookup_insert]
              · simp only [hq, if_false, false_and]
            · funext i
              exact lookup_insert ..

/-- Removing an entry fails only when its id is not registered. -/
theorem pipeRmEntry_cases (hl : Linked (tables m)) (id : UInt64) :
    ((tables m).pipeOf id = none ∧
      pipesManagerPipeRmEntry m id = (.error .invalidValue, m)) ∨
    ∃ p, (tables m).pipeOf id = some p ∧
      (pipesManagerPipeRmEntry m id).1 = .ok () ∧
      tables (pipesManagerPipeRmEntry m id).2 = (tables m).rmEntry p id ∧
      (pipesManagerPipeRmEntry m id).2.nextRef = m.nextRef := by
  unfold pipesManagerPipeRmEntry
  cases hid : m.entryIdToPipeId.lookup id with
  | none => exact Or.inl ⟨hid, rfl⟩
  | some p =>
    refine Or.inr ⟨p, hid, ?_⟩
    obtain ⟨e, he⟩ := hl.pipeOf.mp hid
    obtain ⟨info, hinfo, hlook⟩ := Option.bind_eq_some_iff.mp he
    have hmem : ¬ id ∉ info.entriesTable := not_not.mpr (mem_of_lookup hlook)
    simp only [hinfo, if_neg hmem, true_and]
    refine ⟨?_, rfl⟩
    have hset := tables_setEntries hinfo (info.entriesTable.erase id)
    refine Tables.ext ?_ ?_ ?_ rfl rfl
    · have hpipe := congrArg Tables.pipe hset
      exact hpipe
    · have hentry := congrArg Tables.entry hset
      refine hentry.trans ?_
      funext q i
      simp only [Tables.rmEntry]
      by_cases hq : q = p
      · subst hq
        rw [entry_of_info hinfo]
        simp only [if_true, true_and, lookup_erase]
      · simp only [hq, if_false, false_and]
    · funext i
      exact lookup_erase ..

/-- What the tables say once the pipes of a list are gone, with their entries. -/
def Tables.without (t : Tables) (ks : List UInt64) : Tables where
  pipe q := if q ∈ ks then none else t.pipe q
  entry q i := if q ∈ ks then none else t.entry q i
  pipeOf i := (t.pipeOf i).filter fun q => q ∉ ks
  port := t.port
  listed a q := t.listed a q ∧ q ∉ ks

/-- The entry table has exactly the entries of the pipes. -/
def Owned (t : Tables) : Prop := ∀ {id p}, t.pipeOf id = some p ↔ ∃ e, t.entry p id = some e

/-- Deleting a pipe's entries from the entry table leaves those of the other pipes. -/
theorem eraseAll_entries (ho : Owned (tables m)) {info : PipeInfo}
    (hinfo : m.pipeIdToPipeInfo.lookup p = some info) (i : UInt64) :
    (eraseAll m.entryIdToPipeId info.entriesTable.keys).lookup i =
      ((tables m).pipeOf i).filter fun q => q ∉ [p] := by
  rw [lookup_eraseAll]
  have hkeys : i ∈ info.entriesTable.keys ↔ (tables m).pipeOf i = some p := by
    rw [ho, entry_of_info hinfo]
    exact mem_iff_lookup
  by_cases hi : i ∈ info.entriesTable.keys
  · rw [if_pos hi, hkeys.mp hi]
    simp [Option.filter]
  · rw [if_neg hi]
    have hne : (tables m).pipeOf i ≠ some p := fun h => hi (hkeys.mpr h)
    show (tables m).pipeOf i = _
    cases hq : (tables m).pipeOf i with
    | none => rfl
    | some q =>
      have hqp : q ≠ p := fun h => hne (h ▸ hq)
      simp [Option.filter, hqp]

theorem flushPipe_tables (ho : Owned (tables m)) (p : UInt64) :
    tables (flushPipe m p) =
      { (tables m).without [p] with listed := (tables m).listed } := by
  unfold flushPipe
  cases hinfo : m.pipeIdToPipeInfo.lookup p with
  | none =>
    refine Tables.ext ?_ ?_ ?_ rfl rfl
    · funext q
      simp only [Tables.without, List.mem_singleton]
      split
      · next hq => simp only [tables, hq, hinfo, Option.map_none]
      · rfl
    · funext q i
      simp only [Tables.without, List.mem_singleton]
      split
      · next hq => simp only [tables, hq, hinfo, Option.bind_none]
      · rfl
    · funext i
      show (tables m).pipeOf i = ((tables m).pipeOf i).filter _
      cases hq : (tables m).pipeOf i with
      | none => rfl
      | some q =>
        have hqp : q ≠ p := by
          rintro rfl
          obtain ⟨e, he⟩ := ho.mp hq
          simp only [tables, hinfo, Option.bind_none, reduceCtorEq] at he
        simp [Option.filter, hqp]
  | some info =>
    refine Tables.ext ?_ ?_ (funext (eraseAll_entries ho hinfo)) rfl rfl
    · funext q
      simp only [tables, Tables.without, List.mem_singleton, lookup_erase]
      split <;> rfl
    · funext q i
      simp only [tables, Tables.without, List.mem_singleton, lookup_erase]
      split <;> rfl

theorem Owned.without {t : Tables} (ho : Owned t) (ks : List UInt64) : Owned (t.without ks) := by
  intro id p
  simp only [Tables.without, Option.filter_eq_some_iff, decide_eq_true_eq]
  split
  · next hp => simp [hp]
  · next hp =>
    simp only [hp, not_false_eq_true, and_true]
    exact ho

theorem flush_loop (ho : Owned (tables m)) (ks : List UInt64) :
    tables (ks.foldl flushPipe m) =
      { (tables m).without ks with listed := (tables m).listed } := by
  induction ks generalizing m with
  | nil =>
    refine Tables.ext ?_ ?_ ?_ rfl rfl
    · simp [Tables.without]
    · simp [Tables.without]
    · funext i
      cases hi : (tables m).pipeOf i <;> simp [Tables.without, Option.filter, hi]
  | cons k ks ih =>
    have hround := flushPipe_tables ho k
    have ho' : Owned (tables (flushPipe m k)) := by
      rw [hround]
      exact ho.without [k]
    rw [List.foldl_cons, ih ho', hround]
    refine Tables.ext ?_ ?_ ?_ rfl rfl
    · funext q
      simp only [Tables.without, List.mem_cons, List.not_mem_nil, or_false]
      by_cases hk : q = k <;> by_cases hks : q ∈ ks <;> simp [hk, hks]
    · funext q i
      simp only [Tables.without, List.mem_cons, List.not_mem_nil, or_false]
      by_cases hk : q = k <;> by_cases hks : q ∈ ks <;> simp [hk, hks]
    · funext i
      simp only [Tables.without, List.mem_cons, List.not_mem_nil, or_false, Option.filter_filter]
      congr 1
      funext q
      by_cases hk : q = k <;> by_cases hks : q ∈ ks <;> simp [hk, hks]

/-- Destroying a pipe fails only when its id is not registered. -/
theorem pipeDestroy_cases (hl : Linked (tables m)) (p : UInt64) :
    ((tables m).pipe p = none ∧
      pipesManagerPipeDestroy m p = (.error .invalidValue, m)) ∨
    ((∃ x, (tables m).pipe p = some x) ∧
      (pipesManagerPipeDestroy m p).1 = .ok () ∧
      tables (pipesManagerPipeDestroy m p).2 = (tables m).without [p] ∧
      (pipesManagerPipeDestroy m p).2.nextRef = m.nextRef) := by
  unfold pipesManagerPipeDestroy
  cases hinfo : m.pipeIdToPipeInfo.lookup p with
  | none => exact Or.inl ⟨Option.map_eq_none_iff.mpr hinfo, rfl⟩
  | some info =>
    have hpipe : (tables m).pipe p = some (info.pipe, info.portIdToPipesTable) := by
      simp only [tables, hinfo, Option.map_some]
    obtain ⟨port, hport⟩ := hl.pipe_port hpipe
    obtain ⟨r, hr, hmem⟩ := hl.listed.mpr ⟨_, _, hpipe, hport⟩
    obtain rfl : r = info.portIdToPipesTable := Option.some.inj (hr.symm.trans hport)
    simp only [hmem, not_true_eq_false, if_false, true_and]
    refine Or.inr ⟨⟨_, hpipe⟩, ?_, rfl⟩
    refine Tables.ext ?_ ?_ (funext (eraseAll_entries hl.pipeOf hinfo)) rfl ?_
    · funext q
      simp only [tables, Tables.without, List.mem_singleton, Manager.hashDelKey, lookup_erase]
      split <;> rfl
    · funext q i
      simp only [tables, Tables.without, List.mem_singleton, Manager.hashDelKey, lookup_erase]
      split <;> rfl
    · funext a q
      refine propext ⟨?_, ?_⟩
      · rintro ⟨r, ha, hq⟩
        replace hq : q ∈ (m.hashDelKey info.portIdToPipesTable p).pipesTable r := hq
        rw [pipesTable_hashDelKey] at hq
        split at hq
        · next heq =>
          subst heq
          obtain ⟨hne, hq⟩ := mem_erase.mp hq
          exact ⟨⟨_, ha, hq⟩, by simpa using hne⟩
        · next hne =>
          refine ⟨⟨r, ha, hq⟩, ?_⟩
          intro hqp
          obtain rfl := List.mem_singleton.mp hqp
          obtain ⟨h, ref, hp, ha'⟩ := hl.listed.mp (show (tables m).listed a q from ⟨r, ha, hq⟩)
          rw [hpipe] at hp
          cases hp
          exact hne (Option.some.inj (ha.symm.trans ha'))
      · rintro ⟨⟨r, ha, hq⟩, hne⟩
        have hqp : q ≠ p := by simpa using hne
        refine ⟨r, ha, ?_⟩
        show q ∈ (m.hashDelKey info.portIdToPipesTable p).pipesTable r
        rw [pipesTable_hashDelKey]
        split
        · next heq => exact mem_erase.mpr ⟨hqp, heq ▸ hq⟩
        · exact hq

/-- What the tables say once a port is gone with the pipes its table lists. -/
def Tables.flush (t : Tables) (port : UInt16) (ks : List UInt64) : Tables :=
  { t.without ks with port := fun a => if a = port then none else t.port a }

theorem fold_flushPipe_ports (ks : List UInt64) (m : Manager) :
    (ks.foldl flushPipe m).portIdToPipesId = m.portIdToPipesId ∧
      (ks.foldl flushPipe m).pipesTables = m.pipesTables ∧
      (ks.foldl flushPipe m).nextRef = m.nextRef := by
  induction ks generalizing m with
  | nil => exact ⟨rfl, rfl, rfl⟩
  | cons k ks ih =>
    have hround : (flushPipe m k).portIdToPipesId = m.portIdToPipesId ∧
        (flushPipe m k).pipesTables = m.pipesTables ∧ (flushPipe m k).nextRef = m.nextRef := by
      unfold flushPipe
      split <;> exact ⟨rfl, rfl, rfl⟩
    obtain ⟨h1, h2, h3⟩ := ih (flushPipe m k)
    exact ⟨h1.trans hround.1, h2.trans hround.2.1, h3.trans hround.2.2⟩

/-- Flushing a port fails only when it has no table. -/
theorem pipesFlush_cases (hl : Linked (tables m)) (port : UInt16) :
    ((tables m).port port = none ∧
      pipesManagerPipesFlush m port = (.error .invalidValue, m)) ∨
    ∃ ks, (∃ r, (tables m).port port = some r) ∧
      (∀ q, q ∈ ks ↔ (tables m).listed port q) ∧
      (pipesManagerPipesFlush m port).1 = .ok () ∧
      tables (pipesManagerPipesFlush m port).2 = (tables m).flush port ks ∧
      (pipesManagerPipesFlush m port).2.nextRef = m.nextRef := by
  unfold pipesManagerPipesFlush
  cases hport : m.portIdToPipesId.lookup port with
  | none => exact Or.inl ⟨hport, rfl⟩
  | some ref =>
    have hkeys : ∀ q, q ∈ (m.pipesTable ref).keys ↔ (tables m).listed port q := by
      intro q
      show q ∈ m.pipesTable ref ↔ Listed m port q
      simp only [Listed, hport, Option.some.injEq, exists_eq_left']
    have hloop := flush_loop hl.pipeOf (m.pipesTable ref).keys
    obtain ⟨hports, hall, hnext⟩ := fold_flushPipe_ports (m.pipesTable ref).keys m
    have htabs : ∀ r, ((m.pipesTable ref).keys.foldl flushPipe m).pipesTable r = m.pipesTable r :=
      fun r => by rw [Manager.pipesTable, hall, Manager.pipesTable]
    refine Or.inr ⟨(m.pipesTable ref).keys, ⟨ref, hport⟩, hkeys, rfl, ?_, hnext⟩
    dsimp only
    refine Tables.ext ?_ ?_ ?_ ?_ ?_
    · have hpipe := congrArg Tables.pipe hloop
      exact hpipe
    · have hentry := congrArg Tables.entry hloop
      exact hentry
    · have hpipeOf := congrArg Tables.pipeOf hloop
      exact hpipeOf
    · funext a
      show ((List.foldl flushPipe m (m.pipesTable ref).keys).portIdToPipesId.erase port).lookup a
        = _
      rw [hports]
      exact lookup_erase ..
    · funext a q
      refine propext ⟨?_, ?_⟩
      · rintro ⟨r, ha, hq⟩
        replace ha : ((List.foldl flushPipe m (m.pipesTable ref).keys).portIdToPipesId.erase
          port).lookup a = some r := ha
        replace hq : q ∈ ((List.foldl flushPipe m (m.pipesTable ref).keys).hashFree
          ref).pipesTable r := hq
        rw [hports, lookup_erase] at ha
        rw [pipesTable_hashFree] at hq
        split at ha
        · cases ha
        · next hne =>
          split at hq
          · exact absurd hq (AList.notMem_empty q)
          · rw [htabs r] at hq
            refine ⟨⟨r, ha, hq⟩, fun hk => hne ?_⟩
            exact hl.listed_port ⟨r, ha, hq⟩ ((hkeys q).mp hk)
      · rintro ⟨⟨r, ha, hq⟩, hk⟩
        have hne : a ≠ port := by
          rintro rfl
          exact hk ((hkeys q).mpr ⟨r, ha, hq⟩)
        have hrr : r ≠ ref := fun heq => hne (hl.port_inj ha (heq ▸ hport))
        refine ⟨r, ?_, ?_⟩
        · show ((List.foldl flushPipe m (m.pipesTable ref).keys).portIdToPipesId.erase
            port).lookup a = some r
          rw [hports, lookup_erase, if_neg hne]
          exact ha
        · show q ∈ ((List.foldl flushPipe m (m.pipesTable ref).keys).hashFree ref).pipesTable r
          rw [pipesTable_hashFree, if_neg hrr, htabs r]
          exact hq

variable {t : Tables} {port : UInt16} {h e : Handle} {ks : List UInt64}

theorem Linked.addPipe (hl : Linked t) (hp : t.pipe p = none)
    (href : t.port port = some ref ∨ (t.port port = none ∧ ∀ a, t.port a ≠ some ref)) :
    Linked (t.addPipe p h port ref) := by
  have hentry : ∀ i, t.entry p i = none := by
    intro i
    cases hi : t.entry p i with
    | none => rfl
    | some e =>
      obtain ⟨x, hx⟩ := hl.entry_pipe hi
      exact absurd (hp.symm.trans hx) (by simp)
  obtain ⟨hinj, hport, hlisted, hown, hpipe⟩ := hl
  constructor
  · intro a b r
    simp only [Tables.addPipe]
    grind
  · intro q h r
    simp only [Tables.addPipe]
    grind
  · intro a q
    simp only [Tables.addPipe, hlisted]
    by_cases hq : q = p
    · subst hq
      simp only [hp, reduceCtorEq, false_and, exists_false, and_true, false_or, if_true,
        Option.some.injEq, Prod.mk.injEq, and_assoc, exists_and_left, exists_eq_left']
      by_cases ha : a = port
      · simp [ha]
      · simp only [ha, if_false, false_iff]
        rintro hr
        rcases href with href | ⟨-, href⟩
        · exact ha (hinj hr href)
        · exact href a hr
    · simp only [hq, and_false, or_false, if_false]
      grind
  · intro i q
    simp only [Tables.addPipe]
    grind
  · intro q i e
    simp only [Tables.addPipe]
    grind

theorem Linked.addEntry (hl : Linked t) (hp : ∃ x, t.pipe p = some x) (hid : t.pipeOf id = none) :
    Linked (t.addEntry p id e) := by
  refine ⟨hl.port_inj, hl.pipe_port, hl.listed, ?_, ?_⟩
  · intro i q
    simp only [Tables.addEntry]
    by_cases hi : i = id
    · subst hi
      by_cases hq : q = p
      · simp [hq]
      · have hnone : ∀ e, t.entry q i ≠ some e := by
          intro e he
          exact absurd (hid.symm.trans (hl.pipeOf.mpr ⟨e, he⟩)) (by simp)
        simp [hq, Ne.symm hq, hnone]
    · simp only [hi, and_false, if_false]
      exact hl.pipeOf
  · intro q i e'
    simp only [Tables.addEntry]
    split
    · next heq => exact fun _ => heq.1 ▸ hp
    · exact hl.entry_pipe

theorem Linked.rmEntry (hl : Linked t) (hid : t.pipeOf id = some p) :
    Linked (t.rmEntry p id) := by
  refine ⟨hl.port_inj, hl.pipe_port, hl.listed, ?_, ?_⟩
  · intro i q
    simp only [Tables.rmEntry]
    by_cases hi : i = id
    · subst hi
      have hother : q ≠ p → ∀ e, t.entry q i ≠ some e := by
        intro hq e he
        have hboth := hid.symm.trans (hl.pipeOf.mpr ⟨e, he⟩)
        exact hq (Option.some.inj hboth).symm
      by_cases hq : q = p
      · simp [hq]
      · simp [hq, hother hq]
    · simp only [hi, and_false, if_false]
      exact hl.pipeOf
  · intro q i e'
    simp only [Tables.rmEntry]
    split
    · intro he
      cases he
    · exact hl.entry_pipe

theorem Linked.without (hl : Linked t) (ks : List UInt64) : Linked (t.without ks) := by
  refine ⟨hl.port_inj, ?_, ?_, Owned.without hl.pipeOf ks, ?_⟩
  · intro q h r
    simp only [Tables.without]
    split
    · intro hq
      cases hq
    · exact hl.pipe_port
  · intro a q
    simp only [Tables.without]
    split
    · next hq => simp [hq]
    · next hq =>
      simp only [hq, not_false_eq_true, and_true]
      exact hl.listed
  · intro q i e
    simp only [Tables.without]
    split
    · intro hq
      cases hq
    · exact hl.entry_pipe

theorem Linked.flush (hl : Linked t) (hks : ∀ q, q ∈ ks ↔ t.listed port q) :
    Linked (t.flush port ks) := by
  have hw := hl.without ks
  refine ⟨?_, ?_, ?_, hw.pipeOf, hw.entry_pipe⟩
  · intro a b r
    simp only [Tables.flush]
    split
    · intro ha
      cases ha
    · split
      · intro _ hb
        cases hb
      · exact hl.port_inj
  · intro q h r hq
    obtain ⟨a, ha⟩ := hw.pipe_port hq
    refine ⟨a, ?_⟩
    have hne : a ≠ port := by
      rintro rfl
      obtain ⟨-, hout⟩ := hw.listed.mpr ⟨h, r, hq, ha⟩
      simp only [Tables.flush, Tables.without] at hq
      rw [if_neg hout] at hq
      exact hout ((hks q).mpr (hl.listed.mpr ⟨h, r, hq, ha⟩))
    simp only [Tables.flush, if_neg hne]
    exact ha
  · intro a q
    constructor
    · intro hq
      have hne : a ≠ port := by
        rintro rfl
        exact hq.2 ((hks q).mpr hq.1)
      obtain ⟨h, r, hp, ha⟩ := hw.listed.mp hq
      refine ⟨h, r, hp, ?_⟩
      simp only [Tables.flush, if_neg hne]
      exact ha
    · rintro ⟨h, r, hp, ha⟩
      simp only [Tables.flush] at ha
      split at ha
      · cases ha
      · exact hw.listed.mpr ⟨h, r, hp, ha⟩

/-- What the manager is for: the pipes created and not since destroyed or flushed, with
their ports, and the entries added and not since removed, with their pipes. -/
structure Registry where
  pipes : UInt64 → Option (Handle × UInt16)
  entries : UInt64 → Option (Handle × UInt64)

/-- What a successful call does to the registry. -/
def Registry.after (r : Registry) : Op → Registry
  | .pipeCreate pipe port _ =>
    { r with pipes := Function.update r.pipes (generateID pipe) (some (pipe, port)) }
  | .pipeAddEntry entry p _ =>
    { r with entries := Function.update r.entries (generateID entry) (some (entry, p)) }
  | .pipeRmEntry id => { r with entries := Function.update r.entries id none }
  | .pipeDestroy p =>
    { pipes := Function.update r.pipes p none
      entries := fun id => (r.entries id).filter fun x => x.2 ≠ p }
  | .pipesFlush port =>
    { pipes := fun p => (r.pipes p).filter fun x => x.2 ≠ port
      entries := fun id => (r.entries id).filter fun x => (r.pipes x.2).all fun y => y.2 ≠ port }

/-- The manager with the registry that its successful calls have built so far. -/
structure World where
  manager : Manager
  registry : Registry

def start : World := ⟨createPipesManager, fun _ => none, fun _ => none⟩

def step (w : World) (op : Op) : World :=
  match call w.manager op with
  | (.ok (), m) => ⟨m, w.registry.after op⟩
  | (.error _, m) => ⟨m, w.registry⟩

/-- Handles that are live have distinct ids. -/
def DistinctIds (w : World) : Op → Prop
  | .pipeCreate pipe _ _ => ∀ p h port, w.registry.pipes p = some (h, port) → h ≠ pipe →
      generateID h ≠ generateID pipe
  | .pipeAddEntry entry _ _ => ∀ id e p, w.registry.entries id = some (e, p) → e ≠ entry →
      generateID e ≠ generateID entry
  | _ => True

/-- No entry that is registered is added again to a registered pipe. -/
def NotAddedTwice (w : World) : Op → Prop
  | .pipeAddEntry entry p _ => ∀ id q, w.registry.entries id = some (entry, q) →
      w.registry.pipes p = none
  | _ => True

/-- The four tables are consistent. -/
structure Consistent (m : Manager) : Prop where
  entries : ∀ id p, m.entryIdToPipeId.lookup id = some p ↔
    ∃ info, m.pipeIdToPipeInfo.lookup p = some info ∧ id ∈ info.entriesTable
  pipes : ∀ p info, m.pipeIdToPipeInfo.lookup p = some info →
    ∃ port, m.portIdToPipesId.lookup port = some info.portIdToPipesTable ∧
      ∀ a, Listed m a p ↔ a = port
  listed : ∀ port p, Listed m port p → p ∈ m.pipeIdToPipeInfo

/-- The lookups return the registered handles and nothing else. -/
structure Answers (m : Manager) (r : Registry) : Prop where
  pipe : ∀ p, pipesManagerGetPipe m p =
    match r.pipes p with | some (h, _) => .ok h | none => .error .notFound
  entry : ∀ id, pipesManagerGetEntry m id =
    match r.entries id with | some (e, _) => .ok e | none => .error .notFound

/-- The registry reads the tables. -/
structure Reads (t : Tables) (r : Registry) : Prop where
  pipes : ∀ p h port, r.pipes p = some (h, port) ↔
    ∃ ref, t.pipe p = some (h, ref) ∧ t.port port = some ref
  entries : ∀ id e p, r.entries id = some (e, p) ↔ t.entry p id = some e
  keys : ∀ id e p, r.entries id = some (e, p) → generateID e = id

/-- What holds in every state of a run. -/
structure Sound (w : World) : Prop where
  linked : Linked (tables w.manager)
  refs : RefsBelow w.manager
  reads : Reads (tables w.manager) w.registry

theorem Linked.consistent (hl : Linked (tables m)) : Consistent m := by
  refine ⟨?_, ?_, ?_⟩
  · intro id p
    refine Iff.trans hl.pipeOf ?_
    simp only [tables, Option.bind_eq_some_iff, mem_iff_lookup]
    exact ⟨fun ⟨e, info, hi, he⟩ => ⟨info, hi, e, he⟩, fun ⟨info, hi, e, he⟩ => ⟨e, info, hi, he⟩⟩
  · intro p info hinfo
    have hpipe : (tables m).pipe p = some (info.pipe, info.portIdToPipesTable) := by
      simp only [tables, hinfo, Option.map_some]
    obtain ⟨port, hport⟩ := hl.pipe_port hpipe
    have hown : Listed m port p := hl.listed.mpr ⟨_, _, hpipe, hport⟩
    refine ⟨port, hport, fun a => ⟨fun ha => hl.listed_port ha hown, ?_⟩⟩
    rintro rfl
    exact hown
  · intro port p hlisted
    obtain ⟨h, ref, hp, -⟩ := hl.listed.mp hlisted
    obtain ⟨info, hinfo, -⟩ := Option.map_eq_some_iff.mp hp
    exact mem_of_lookup hinfo

theorem Sound.answers {w : World} (hw : Sound w) : Answers w.manager w.registry := by
  obtain ⟨hl, -, hr⟩ := hw
  refine ⟨?_, ?_⟩
  · intro p
    unfold pipesManagerGetPipe
    cases hp : w.registry.pipes p with
    | some x =>
      obtain ⟨ref, hpipe, -⟩ := (hr.pipes p x.1 x.2).mp hp
      obtain ⟨info, hinfo, heq⟩ := Option.map_eq_some_iff.mp hpipe
      rw [hinfo]
      exact congrArg Except.ok (congrArg Prod.fst heq)
    | none =>
      cases hinfo : w.manager.pipeIdToPipeInfo.lookup p with
      | none => rfl
      | some info =>
        have hpipe : (tables w.manager).pipe p = some (info.pipe, info.portIdToPipesTable) := by
          simp only [tables, hinfo, Option.map_some]
        obtain ⟨port, hport⟩ := hl.pipe_port hpipe
        have hsome := (hr.pipes p _ _).mpr ⟨_, hpipe, hport⟩
        exact absurd (hp.symm.trans hsome) (by simp)
  · intro id
    unfold pipesManagerGetEntry
    cases hid : w.registry.entries id with
    | some x =>
      have hentry := (hr.entries id x.1 x.2).mp hid
      have hof : w.manager.entryIdToPipeId.lookup id = some x.2 := hl.pipeOf.mpr ⟨_, hentry⟩
      obtain ⟨info, hinfo, hlook⟩ := Option.bind_eq_some_iff.mp hentry
      simp only [hof, hinfo, hlook]
    | none =>
      cases hof : w.manager.entryIdToPipeId.lookup id with
      | none => rfl
      | some p =>
        obtain ⟨e, he⟩ := hl.pipeOf.mp hof
        have hsome := (hr.entries id e p).mpr he
        exact absurd (hid.symm.trans hsome) (by simp)

variable {r : Registry}

theorem Reads.addPipe (hl : Linked t) (hr : Reads t r) (hp : t.pipe p = none)
    (href : t.port port = some ref ∨ (t.port port = none ∧ ∀ a, t.port a ≠ some ref)) :
    Reads (t.addPipe p h port ref) { r with pipes := Function.update r.pipes p (some (h, port)) }
    := by
  refine ⟨?_, ?_, hr.keys⟩
  · intro q h' port'
    by_cases hq : q = p
    · subst hq
      simp only [Function.update_self, Tables.addPipe, if_true, Option.some.injEq, Prod.mk.injEq]
      constructor
      · rintro ⟨rfl, rfl⟩
        exact ⟨ref, ⟨rfl, rfl⟩, by simp⟩
      · rintro ⟨r', ⟨rfl, rfl⟩, hport⟩
        refine ⟨rfl, ?_⟩
        split at hport
        · next heq => exact heq.symm
        · rcases href with href | ⟨-, href⟩
          · exact hl.port_inj href hport
          · exact absurd hport (href port')
    · simp only [Function.update_of_ne hq, Tables.addPipe, if_neg hq]
      rw [hr.pipes]
      refine exists_congr fun r' => and_congr_right fun hpipe => ?_
      split
      · next heq =>
        subst heq
        rcases href with href | ⟨hnone, href⟩
        · rw [href]
        · obtain ⟨a, ha⟩ := hl.pipe_port hpipe
          simp only [hnone, reduceCtorEq, Option.some.injEq, false_iff]
          rintro rfl
          exact href a ha
      · rfl
  · intro id e q
    simp only [Tables.addPipe]
    rw [hr.entries]
    split
    · next hq =>
      simp only [reduceCtorEq, iff_false]
      intro he
      obtain ⟨x, hx⟩ := hl.entry_pipe he
      rw [hq, hp] at hx
      cases hx
    · rfl

theorem Reads.addEntry (hl : Linked t) (hr : Reads t r) (hid : t.pipeOf id = none)
    (hgen : generateID e = id) :
    Reads (t.addEntry p id e) { r with entries := Function.update r.entries id (some (e, p)) }
    := by
  refine ⟨hr.pipes, ?_, ?_⟩
  · intro i e' q
    by_cases hi : i = id
    · subst hi
      have hnone : t.entry q i ≠ some e' := by
        intro he
        exact absurd (hid.symm.trans (hl.pipeOf.mpr ⟨e', he⟩)) (by simp)
      simp only [Function.update_self, Tables.addEntry, and_true, Option.some.injEq, Prod.mk.injEq]
      by_cases hq : q = p
      · simp [hq]
      · simp [hq, Ne.symm hq, hnone]
    · simp only [Function.update_of_ne hi, Tables.addEntry, hi, and_false, if_false]
      exact hr.entries i e' q
  · intro i e' q hi
    by_cases heq : i = id
    · subst heq
      simp only [Function.update_self, Option.some.injEq, Prod.mk.injEq] at hi
      rw [← hi.1, hgen]
    · simp only [Function.update_of_ne heq] at hi
      exact hr.keys i e' q hi

theorem Reads.rmEntry (hl : Linked t) (hr : Reads t r) (hid : t.pipeOf id = some p) :
    Reads (t.rmEntry p id) { r with entries := Function.update r.entries id none } := by
  refine ⟨hr.pipes, ?_, ?_⟩
  · intro i e' q
    by_cases hi : i = id
    · subst hi
      simp only [Function.update_self, Tables.rmEntry, and_true, reduceCtorEq, false_iff]
      split
      · simp
      · next hq =>
        intro he
        have hboth := hid.symm.trans (hl.pipeOf.mpr ⟨e', he⟩)
        exact hq (Option.some.inj hboth).symm
    · simp only [Function.update_of_ne hi, Tables.rmEntry, hi, and_false, if_false]
      exact hr.entries i e' q
  · intro i e' q hi
    by_cases heq : i = id
    · subst heq
      simp at hi
    · simp only [Function.update_of_ne heq] at hi
      exact hr.keys i e' q hi

theorem Reads.destroy (hr : Reads t r) (p : UInt64) :
    Reads (t.without [p]) { pipes := Function.update r.pipes p none
                            entries := fun id => (r.entries id).filter fun x => x.2 ≠ p } := by
  refine ⟨?_, ?_, ?_⟩
  · intro q h port
    by_cases hq : q = p
    · simp [hq, Tables.without]
    · simp only [Function.update_of_ne hq, Tables.without, List.mem_singleton, if_neg hq]
      exact hr.pipes q h port
  · intro id e q
    simp only [Tables.without, List.mem_singleton, Option.filter_eq_some_iff, decide_eq_true_eq]
    split
    · next hq => simp [hq]
    · next hq =>
      simp only [hq, ne_eq, not_false_eq_true, and_true]
      exact hr.entries id e q
  · intro id e q hid
    exact hr.keys id e q (Option.filter_eq_some_iff.mp hid).1

theorem Reads.flush (hl : Linked t) (hr : Reads t r) (hks : ∀ q, q ∈ ks ↔ t.listed port q) :
    Reads (t.flush port ks)
      { pipes := fun p => (r.pipes p).filter fun x => x.2 ≠ port
        entries := fun id =>
          (r.entries id).filter fun x => (r.pipes x.2).all fun y => y.2 ≠ port } := by
  have hgone : ∀ q, q ∈ ks ↔ ∃ h, r.pipes q = some (h, port) := by
    intro q
    simp only [hks q, hl.listed, hr.pipes]
  have hport : ∀ {q h a}, r.pipes q = some (h, a) → (q ∈ ks ↔ a = port) := by
    intro q h a hq
    rw [hgone, hq]
    simp [eq_comm]
  refine ⟨?_, ?_, ?_⟩
  · intro q h a
    simp only [Option.filter_eq_some_iff, decide_eq_true_eq, ne_eq]
    constructor
    · rintro ⟨hq, hne⟩
      obtain ⟨ref, hpipe, ha⟩ := (hr.pipes q h a).mp hq
      have hout : q ∉ ks := fun hk => hne ((hport hq).mp hk)
      refine ⟨ref, ?_, ?_⟩
      · simp only [Tables.flush, Tables.without, if_neg hout]
        exact hpipe
      · simp only [Tables.flush, if_neg hne]
        exact ha
    · rintro ⟨ref, hpipe, ha⟩
      simp only [Tables.flush, Tables.without] at hpipe ha
      split at hpipe
      · cases hpipe
      · split at ha
        · cases ha
        · next hne => exact ⟨(hr.pipes q h a).mpr ⟨ref, hpipe, ha⟩, hne⟩
  · intro id e q
    simp only [Option.filter_eq_some_iff, Tables.flush, Tables.without]
    have hall : (r.pipes q).all (fun y => y.2 ≠ port) = true ↔ q ∉ ks := by
      cases hq : r.pipes q with
      | none => simp [hgone, hq]
      | some x => simp [hport (a := x.2) hq]
    rw [hall]
    split
    · next hk => simp [hk]
    · next hk =>
      simp only [hk, not_false_eq_true, and_true]
      exact hr.entries id e q
  · intro id e q hid
    exact hr.keys id e q (Option.filter_eq_some_iff.mp hid).1

theorem start_sound : Sound start := by
  refine ⟨⟨?_, ?_, ?_, ?_, ?_⟩, ?_, ⟨?_, ?_, ?_⟩⟩ <;>
    simp [start, createPipesManager, tables, RefsBelow, Listed]

/-- No registered entry has the id of an entry that is added to a registered pipe. -/
def NewEntry (m : Manager) : Op → Prop
  | .pipeAddEntry entry p _ => (∃ x, (tables m).pipe p = some x) →
      (tables m).pipeOf (generateID entry) = none
  | _ => True

/-- In a state of a run, the id of an entry that may be added to a pipe is new. -/
theorem Sound.newEntry {w : World} {op : Op} (hw : Sound w) (hd : DistinctIds w op)
    (hn : NotAddedTwice w op) : NewEntry w.manager op := by
  cases op with
  | pipeAddEntry entry p steps =>
    intro hp
    cases hq : (tables w.manager).pipeOf (generateID entry) with
    | none => rfl
    | some q =>
      obtain ⟨e, he⟩ := hw.linked.pipeOf.mp hq
      have hreg := (hw.reads.entries _ e q).mpr he
      by_cases heq : e = entry
      · obtain ⟨⟨h, ref⟩, hpipe⟩ := hp
        obtain ⟨port, hport⟩ := hw.linked.pipe_port hpipe
        have hsome := (hw.reads.pipes p h port).mpr ⟨ref, hpipe, hport⟩
        exact absurd ((hn _ q (heq ▸ hreg)).symm.trans hsome) (by simp)
      · exact absurd (hw.reads.keys _ e q hreg) (hd _ e q hreg heq)
  | _ => trivial

theorem RefsBelow.of_port {m' : Manager} (hr : RefsBelow m) (hnext : m'.nextRef = m.nextRef)
    (hport : ∀ a ref, (tables m').port a = some ref → (tables m).port a = some ref) :
    RefsBelow m' := by
  intro a ref ha
  rw [hnext]
  exact hr a ref (hport a ref ha)

/-- A call that fails leaves what the tables say unchanged, whichever step failed. -/
theorem call_error {w : World} {op : Op} (hw : Sound w) (hnew : NewEntry w.manager op)
    {err : DocaError} (h : (call w.manager op).1 = .error err) :
    tables (call w.manager op).2 = tables w.manager ∧ RefsBelow (call w.manager op).2 := by
  cases op with
  | pipeCreate pipe port steps =>
    simp only [call] at h ⊢
    cases hres : (pipesManagerPipeCreate w.manager pipe port steps).1 with
    | ok id =>
      rw [hres] at h
      cases h
    | error err => exact pipeCreate_error hw.linked hw.refs hres
  | pipeAddEntry entry p steps =>
    simp only [call] at h ⊢
    cases hres : (pipesManagerPipeAddEntry w.manager entry p steps).1 with
    | ok id =>
      rw [hres] at h
      cases h
    | error err =>
      have hnone : (tables w.manager).entry p (generateID entry) = none := by
        cases he : (tables w.manager).entry p (generateID entry) with
        | none => rfl
        | some e =>
          have hid := hw.linked.pipeOf.mpr ⟨e, he⟩
          exact absurd (hid.symm.trans (hnew (hw.linked.entry_pipe he))) (by simp)
      obtain ⟨htab, hnext⟩ := pipeAddEntry_error hnone hres
      exact ⟨htab, hw.refs.of_port hnext (by simp [htab])⟩
  | pipeRmEntry id =>
    simp only [call] at h ⊢
    rcases pipeRmEntry_cases hw.linked id with ⟨-, hres⟩ | ⟨p, -, hres, -⟩
    · rw [hres]
      exact ⟨rfl, hw.refs⟩
    · rw [hres] at h
      cases h
  | pipeDestroy p =>
    simp only [call] at h ⊢
    rcases pipeDestroy_cases hw.linked p with ⟨-, hres⟩ | ⟨-, hres, -⟩
    · rw [hres]
      exact ⟨rfl, hw.refs⟩
    · rw [hres] at h
      cases h
  | pipesFlush port =>
    simp only [call] at h ⊢
    rcases pipesFlush_cases hw.linked port with ⟨-, hres⟩ | ⟨ks, -, -, hres, -⟩
    · rw [hres]
      exact ⟨rfl, hw.refs⟩
    · rw [hres] at h
      cases h

/-- A call that succeeds does to the tables what it does to the registry. -/
theorem call_ok {w : World} {op : Op} (hw : Sound w) (hnew : NewEntry w.manager op)
    (h : (call w.manager op).1 = .ok ()) :
    Sound ⟨(call w.manager op).2, w.registry.after op⟩ := by
  cases op with
  | pipeCreate pipe port steps =>
    simp only [call] at h ⊢
    cases hres : (pipesManagerPipeCreate w.manager pipe port steps).1 with
    | error err =>
      rw [hres] at h
      cases h
    | ok id =>
      obtain ⟨rfl, hp, hrefs, ref, href, htab⟩ := pipeCreate_ok hw.linked hw.refs hres
      refine ⟨?_, hrefs, ?_⟩
      · rw [htab]
        exact hw.linked.addPipe hp href
      · rw [htab]
        exact Reads.addPipe hw.linked hw.reads hp href
  | pipeAddEntry entry p steps =>
    simp only [call] at h ⊢
    cases hres : (pipesManagerPipeAddEntry w.manager entry p steps).1 with
    | error err =>
      rw [hres] at h
      cases h
    | ok id =>
      obtain ⟨rfl, hp, htab, hnext⟩ := pipeAddEntry_ok hres
      refine ⟨?_, hw.refs.of_port hnext (by simp [htab, Tables.addEntry]), ?_⟩
      · rw [htab]
        exact hw.linked.addEntry hp (hnew hp)
      · rw [htab]
        exact Reads.addEntry hw.linked hw.reads (hnew hp) rfl
  | pipeRmEntry id =>
    simp only [call] at h ⊢
    rcases pipeRmEntry_cases hw.linked id with ⟨-, hres⟩ | ⟨p, hid, -, htab, hnext⟩
    · rw [hres] at h
      cases h
    · refine ⟨?_, hw.refs.of_port hnext (by simp [htab, Tables.rmEntry]), ?_⟩
      · rw [htab]
        exact hw.linked.rmEntry hid
      · rw [htab]
        exact Reads.rmEntry hw.linked hw.reads hid
  | pipeDestroy p =>
    simp only [call] at h ⊢
    rcases pipeDestroy_cases hw.linked p with ⟨-, hres⟩ | ⟨-, -, htab, hnext⟩
    · rw [hres] at h
      cases h
    · refine ⟨?_, hw.refs.of_port hnext (by simp [htab, Tables.without]), ?_⟩
      · rw [htab]
        exact hw.linked.without [p]
      · rw [htab]
        exact hw.reads.destroy p
  | pipesFlush port =>
    simp only [call] at h ⊢
    rcases pipesFlush_cases hw.linked port with ⟨-, hres⟩ | ⟨ks, -, hks, -, htab, hnext⟩
    · rw [hres] at h
      cases h
    · refine ⟨?_, hw.refs.of_port hnext (fun a ref ha => ?_), ?_⟩
      · rw [htab]
        exact hw.linked.flush hks
      · rw [htab] at ha
        simp only [Tables.flush] at ha
        split at ha
        · cases ha
        · exact ha
      · rw [htab]
        exact Reads.flush hw.linked hw.reads hks

/-- A call whose failure leaves the tables alone. -/
theorem step_of_error {w : World} {op : Op} (hw : Sound w) {err : DocaError}
    (h : (call w.manager op).1 = .error err)
    (hsame : tables (call w.manager op).2 = tables w.manager)
    (hrefs : RefsBelow (call w.manager op).2) : Sound (step w op) := by
  unfold step
  cases hres : call w.manager op with
  | mk res m =>
    rw [hres] at h hsame hrefs
    obtain rfl : res = .error err := h
    refine ⟨?_, hrefs, ?_⟩
    · rw [hsame]
      exact hw.linked
    · rw [hsame]
      exact hw.reads

theorem step_new {w : World} {op : Op} (hw : Sound w) (hnew : NewEntry w.manager op) :
    Sound (step w op) := by
  cases hres : (call w.manager op).1 with
  | ok u =>
    have hok := call_ok hw hnew hres
    unfold step
    cases hcall : call w.manager op with
    | mk res m =>
      rw [hcall] at hres hok
      obtain rfl : res = .ok () := hres
      exact hok
  | error err =>
    obtain ⟨htab, hrefs⟩ := call_error hw hnew hres
    exact step_of_error hw hres htab hrefs

theorem step_sound {w : World} {op : Op} (hw : Sound w)
    (hop : DistinctIds w op ∧ NotAddedTwice w op) : Sound (step w op) :=
  step_new hw (hw.newEntry hop.1 hop.2)

theorem run_sound {ops : List Op}
    (hops : Along step (fun w op => DistinctIds w op ∧ NotAddedTwice w op) start ops) :
    Sound (run step start ops) :=
  run_invariant (fun _ _ hw hop => step_sound hw hop) start_sound hops

/-- In every run that adds no entry twice, the tables are consistent, the lookups
answer with what is registered, and a call that fails changes nothing. -/
theorem tables_consistent_unless_added_twice (ops : List Op)
    (hops : Along step (fun w op => DistinctIds w op ∧ NotAddedTwice w op) start ops) :
    let w := run step start ops
    Consistent w.manager ∧ Answers w.manager w.registry ∧
      ∀ op err, DistinctIds w op → NotAddedTwice w op → (call w.manager op).1 = .error err →
        tables (call w.manager op).2 = tables w.manager := by
  have hw := run_sound hops
  refine ⟨hw.linked.consistent, hw.answers, ?_⟩
  intro op err hd hn herr
  exact (call_error hw (hw.newEntry hd hn) herr).1

def firstPipe : Handle := ⟨0x1000, #v[1, 0, 0, 0, 0, 0, 0, 0]⟩
def secondPipe : Handle := ⟨0x2000, #v[2, 0, 0, 0, 0, 0, 0, 0]⟩
def someEntry : Handle := ⟨0x3000, #v[3, 0, 0, 0, 0, 0, 0, 0]⟩

/-- Every step of the call succeeds. -/
def created : CreateSteps := ⟨true, true, true, true, true, true⟩
def added : AddSteps := ⟨true, true, 0x4000⟩

def addedOnce : List Op :=
  [.pipeCreate firstPipe 0 created, .pipeCreate secondPipe 0 created,
    .pipeAddEntry someEntry (generateID firstPipe) added]

/-- The registry once the entry has been added. -/
theorem addedOnce_entries : (run step start addedOnce).registry.entries =
    Function.update (fun _ => none) (generateID someEntry)
      (some (someEntry, generateID firstPipe)) := by
  rfl

theorem addedOnce_admissible :
    Along step (fun w op => DistinctIds w op ∧ NotAddedTwice w op) start addedOnce := by
  refine ⟨⟨?_, trivial⟩, ⟨?_, trivial⟩, ⟨?_, ?_⟩, trivial⟩
  · intro p h port hp
    cases hp
  · intro p h port hp _
    replace hp : Function.update (fun _ => none) (generateID firstPipe) (some (firstPipe, 0)) p =
      some (h, port) := hp
    rw [Function.update_apply] at hp
    split at hp
    · cases hp
      decide +kernel
    · cases hp
  · intro id e p hid
    cases hid
  · intro id p hid
    cases hid

theorem tables_consistent_added_once :
    Along step (fun w op => DistinctIds w op ∧ NotAddedTwice w op) start addedOnce ∧
      Consistent (run step start addedOnce).manager :=
  ⟨addedOnce_admissible, (tables_consistent_unless_added_twice addedOnce addedOnce_admissible).1⟩

/-- The same entry goes into a second pipe: the check for an id that exists does not
see it, and it is now in the entries of both pipes. -/
theorem added_twice_inconsistent :
    let again : Op := .pipeAddEntry someEntry (generateID secondPipe) added
    Along step DistinctIds start (addedOnce ++ [again]) ∧
      (call (run step start addedOnce).manager again).1 = .ok () ∧
      ¬ Consistent (run step start (addedOnce ++ [again])).manager := by
  refine ⟨?_, ?_, ?_⟩
  · obtain ⟨h1, h2, h3, -⟩ := addedOnce_admissible
    refine ⟨h1.1, h2.1, h3.1, ?_, trivial⟩
    intro id e p hid hne
    replace hid : (run step start addedOnce).registry.entries id = some (e, p) := hid
    rw [addedOnce_entries, Function.update_apply] at hid
    split at hid
    · cases hid
      exact absurd rfl hne
    · cases hid
  · decide +kernel
  · intro hc
    have hfirst : ∃ info, (run step start (addedOnce ++ [.pipeAddEntry someEntry
        (generateID secondPipe) added])).manager.pipeIdToPipeInfo.lookup (generateID firstPipe) =
          some info ∧ generateID someEntry ∈ info.entriesTable :=
      ⟨⟨firstPipe, AList.singleton (generateID someEntry) someEntry, 0⟩, rfl, by decide +kernel⟩
    have hsecond : (run step start (addedOnce ++ [.pipeAddEntry someEntry
        (generateID secondPipe) added])).manager.entryIdToPipeId.lookup (generateID someEntry) =
          some (generateID secondPipe) := rfl
    have hboth := hsecond.symm.trans ((hc.entries _ _).mpr hfirst)
    revert hboth
    decide +kernel

end DocaApps.Proofs.FlowPipesManager
