import DocaApps.Proofs.PipesCollisions

namespace DocaApps.Proofs.PipesCapacity
open Lib.FiniteTable Lib.Runs Common.FlowPipesManager FlowPipesManager PipesCollisions

/-- The manager with what is live. A port is from the first pipe that is created on it until
it is flushed. -/
structure Live where
  world : World
  ports : Finset UInt16

def portsAfter (ports : Finset UInt16) : Op → Finset UInt16
  | .pipeCreate _ portId _ => insert portId ports
  | .pipesFlush portId => ports.erase portId
  | _ => ports

def Succeeds (s : Live) (op : Op) : Prop := (call s.world.manager op).1 = .ok ()

instance (s : Live) (op : Op) : Decidable (Succeeds s op) :=
  inferInstanceAs (Decidable ((call s.world.manager op).1 = .ok ()))

def liveStep (s : Live) (op : Op) : Live where
  world := step s.world op
  ports := if Succeeds s op then portsAfter s.ports op else s.ports

def liveStart : Live := ⟨start, ∅⟩

def livePipes (r : Registry) : Set UInt64 := {p | ∃ x, r.pipes p = some x}

def liveEntries (r : Registry) : Set UInt64 := {id | ∃ x, r.entries id = some x}

/-- New objects have ids that no live one has and leave at most as many live as a table is
created for, and only what is live is removed, destroyed or flushed. -/
def Admissible (s : Live) : Op → Prop
  | .pipeCreate pipe portId _ =>
    (∀ p h a, s.world.registry.pipes p = some (h, a) → generateID h ≠ generateID pipe) ∧
      (livePipes s.world.registry).ncard < defaultEntriesNum ∧
      (portId ∈ s.ports ∨ s.ports.card < defaultEntriesNum)
  | .pipeAddEntry entry p _ =>
    (∃ x, s.world.registry.pipes p = some x) ∧
      (∀ id e q, s.world.registry.entries id = some (e, q) →
        generateID e ≠ generateID entry) ∧
      (liveEntries s.world.registry).ncard < defaultEntriesNum
  | .pipeRmEntry id => ∃ x, s.world.registry.entries id = some x
  | .pipeDestroy p => ∃ x, s.world.registry.pipes p = some x
  | .pipesFlush portId => portId ∈ s.ports

/-- The table that holds the pipes of a port, a new one where it has none. -/
def portTable (m : Manager) (portId : UInt16) : Table UInt64 Unit :=
  (m.portIdToPipesId.lookup portId).elim ∅ m.pipesTable

variable {κ ν : Type}

def HasRoom (t : Table κ ν) : Prop := t.keys.length < defaultEntriesNum

/-- Memory never runs out, a table is created unless a live one has its name, and a table
takes as many keys as it is created for. -/
def Provided (m : Manager) : Op → Prop
  | .pipeCreate _ portId steps =>
    (steps.tableCreated = true ↔ pipesTableName ∉ m.tableNames) ∧
      (steps.entriesCreated = true ↔ entriesTableName ∉ m.tableNames) ∧
      steps.infoAllocated = true ∧
      (HasRoom (portTable m portId) → steps.keyAdded = true) ∧
      (HasRoom m.portIdToPipesId → steps.portAdded = true) ∧
      (HasRoom m.pipeIdToPipeInfo → steps.infoAdded = true)
  | .pipeAddEntry _ p steps =>
    (∀ info, m.pipeIdToPipeInfo.lookup p = some info → HasRoom info.entriesTable →
      steps.entryAdded = true) ∧
      (HasRoom m.entryIdToPipeId → steps.pipeIdAdded = true)
  | _ => True

/-- A pipe is the only one, on the only port; the address of an entry's new id is not the id
of an entry of its pipe. -/
def Alone (s : Live) : Op → Prop
  | .pipeCreate _ portId _ =>
    (∀ p, s.world.registry.pipes p = none) ∧ (portId ∈ s.ports ∨ s.ports = ∅)
  | .pipeAddEntry _ p steps => ∀ e, s.world.registry.entries steps.idPtr ≠ some (e, p)
  | _ => True

/-- The live pipes tables are those of the ports. -/
def Own (m : Manager) : Prop :=
  ∀ ref, ref ∈ m.pipesTables ↔ ∃ portId, m.portIdToPipesId.lookup portId = some ref

structure Inv (s : Live) : Prop where
  sound : Sound s.world
  own : Own s.world.manager
  ports : ∀ a, a ∈ s.ports ↔ ∃ ref, s.world.manager.portIdToPipesId.lookup a = some ref

variable {m : Manager} {p id : UInt64} {ref r : TableRef} {w : World} {s : Live} {op : Op}

theorem mem_hashAddKey : r ∈ (m.hashAddKey ref p).pipesTables ↔ r = ref ∨ r ∈ m.pipesTables :=
  mem_insert

theorem mem_hashDelKey : r ∈ (m.hashDelKey ref p).pipesTables ↔ r = ref ∨ r ∈ m.pipesTables :=
  mem_insert

theorem mem_hashCreate : r ∈ m.hashCreate.pipesTables ↔ r = m.nextRef ∨ r ∈ m.pipesTables :=
  mem_insert

theorem mem_hashFree : r ∈ (m.hashFree ref).pipesTables ↔ r ≠ ref ∧ r ∈ m.pipesTables :=
  mem_erase

theorem Own.congr {m' : Manager} (ho : Own m)
    (hmem : ∀ r, r ∈ m'.pipesTables ↔ r ∈ m.pipesTables)
    (hport : ∀ a, m'.portIdToPipesId.lookup a = m.portIdToPipesId.lookup a) : Own m' := by
  intro r
  simp only [hmem, hport]
  exact ho r

theorem Own.nextRef_not_mem (ho : Own m) (hr : RefsBelow m) : m.nextRef ∉ m.pipesTables := by
  intro h
  obtain ⟨a, ha⟩ := (ho _).mp h
  exact Nat.lt_irrefl _ (hr a _ ha)

/-- The second half of the creation registers the pipe's information or undoes the first. -/
theorem addPipeInfo_after (m : Manager) (pipe : Handle) (portId : UInt16) (ref : TableRef)
    (isNewTable : Bool) (steps : CreateSteps) :
    (addPipeInfo m pipe portId ref isNewTable steps).2 =
        undoPipeKey m ref (generateID pipe) portId isNewTable ∨
      (addPipeInfo m pipe portId ref isNewTable steps).2 =
        { m with
          pipeIdToPipeInfo := m.pipeIdToPipeInfo.insert (generateID pipe) ⟨pipe, ∅, ref⟩ } := by
  cases hres : (addPipeInfo m pipe portId ref isNewTable steps).1 with
  | ok id => exact Or.inr (addPipeInfo_ok hres).2.2
  | error err => exact Or.inl (addPipeInfo_error hres)

/-- Whatever step fails, a table that is created is the port's afterwards or is freed. -/
theorem pipeCreate_own (ho : Own m) (hr : RefsBelow m) (pipe : Handle) (portId : UInt16)
    (steps : CreateSteps) : Own (pipesManagerPipeCreate m pipe portId steps).2 := by
  unfold pipesManagerPipeCreate
  dsimp only
  split
  · exact ho
  have hfresh : m.nextRef ∉ m.pipesTables := ho.nextRef_not_mem hr
  cases hport : m.portIdToPipesId.lookup portId with
  | some ref =>
    have hin : ref ∈ m.pipesTables := (ho ref).mpr ⟨portId, hport⟩
    cases steps.keyAdded with
    | false => exact ho
    | true =>
      simp only [Bool.not_true, Bool.false_eq_true, if_false]
      rcases addPipeInfo_after (m.hashAddKey ref (generateID pipe)) pipe portId ref false steps
        with hm | hm
      · rw [hm]
        apply ho.congr
        · intro r
          simp only [undoPipeKey, Bool.false_eq_true, if_false, mem_hashDelKey, mem_hashAddKey]
          grind
        · exact fun _ => rfl
      · rw [hm]
        apply ho.congr
        · intro r
          refine Iff.trans mem_hashAddKey ?_
          grind
        · exact fun _ => rfl
  | none =>
    cases steps.tableCreated with
    | false => exact ho
    | true =>
      simp only [Bool.not_true, Bool.false_eq_true, if_false]
      cases steps.keyAdded with
      | false =>
        apply ho.congr
        · intro r
          simp only [Bool.not_false, if_true, mem_hashFree, mem_hashCreate]
          grind
        · exact fun _ => rfl
      | true =>
        simp only [Bool.not_true, Bool.false_eq_true, if_false]
        cases steps.portAdded with
        | false =>
          apply ho.congr
          · intro r
            simp only [Bool.not_false, if_true, mem_hashFree, mem_hashDelKey, mem_hashAddKey,
              mem_hashCreate]
            grind
          · exact fun _ => rfl
        | true =>
          simp only [Bool.not_true, Bool.false_eq_true, if_false]
          have hback : ∀ a, ((m.portIdToPipesId.insert portId m.nextRef).erase portId).lookup a =
              m.portIdToPipesId.lookup a := by
            intro a
            rw [lookup_erase, lookup_insert]
            split
            · next ha => rw [ha, hport]
            · rfl
          let added := m.hashCreate.hashAddKey m.nextRef (generateID pipe)
          rcases addPipeInfo_after
            { added with portIdToPipesId := added.portIdToPipesId.insert portId m.nextRef }
            pipe portId m.nextRef true steps with hm | hm
          · rw [hm]
            apply ho.congr
            · intro r
              simp only [undoPipeKey, if_true, mem_hashFree, mem_hashDelKey]
              refine Iff.trans (and_congr_right fun _ => or_congr_right mem_hashAddKey) ?_
              simp only [mem_hashCreate]
              grind
            · exact hback
          · rw [hm]
            intro r
            refine Iff.trans mem_hashAddKey ?_
            simp only [mem_hashCreate, ho r]
            show _ ↔ ∃ a, (m.portIdToPipesId.insert portId m.nextRef).lookup a = some r
            simp only [lookup_insert]
            grind

theorem call_own (hw : Sound w) (ho : Own w.manager) (op : Op) : Own (call w.manager op).2 := by
  cases op with
  | pipeCreate pipe portId steps => exact pipeCreate_own ho hw.refs pipe portId steps
  | pipeAddEntry entry p steps =>
    simp only [call, pipesManagerPipeAddEntry]
    repeat' split
    all_goals exact ho
  | pipeRmEntry id =>
    simp only [call, pipesManagerPipeRmEntry]
    repeat' split
    all_goals exact ho
  | pipeDestroy p =>
    simp only [call, pipesManagerPipeDestroy]
    cases hinfo : w.manager.pipeIdToPipeInfo.lookup p with
    | none => exact ho
    | some info =>
      dsimp only
      split
      · exact ho
      · have hpipe : (tables w.manager).pipe p = some (info.pipe, info.portIdToPipesTable) := by
          simp [tables, hinfo]
        obtain ⟨portId, hport⟩ := hw.linked.pipe_port hpipe
        apply ho.congr
        · intro r
          refine Iff.trans mem_hashDelKey ?_
          have hin := (ho _).mpr ⟨portId, hport⟩
          grind
        · exact fun _ => rfl
  | pipesFlush portId =>
    simp only [call, pipesManagerPipesFlush]
    cases hport : w.manager.portIdToPipesId.lookup portId with
    | none => exact ho
    | some ref =>
      obtain ⟨hports, hall, -⟩ :=
        fold_flushPipe_ports (w.manager.pipesTable ref).keys w.manager
      intro r
      have hinj : ∀ a b, w.manager.portIdToPipesId.lookup a = some r →
          w.manager.portIdToPipesId.lookup b = some r → a = b :=
        fun a b ha hb => hw.linked.port_inj ha hb
      refine Iff.trans mem_hashFree ?_
      simp only [hall, ho r]
      simp only [Manager.hashFree, hports, lookup_erase]
      grind

theorem step_manager (w : World) (op : Op) : (step w op).manager = (call w.manager op).2 := by
  unfold step
  split
  · next h => rw [h]
  · next h => rw [h]

/-- A successful call gives a port its table or takes it away as it makes the port live or
not. -/
theorem call_ports (hs : Inv s) (h : Succeeds s op) (a : UInt16) :
    a ∈ portsAfter s.ports op ↔ ∃ ref, (tables (call s.world.manager op).2).port a = some ref := by
  have hold : a ∈ s.ports ↔ ∃ ref, (tables s.world.manager).port a = some ref := hs.ports a
  obtain ⟨hl, hr, -⟩ := hs.sound
  cases op with
  | pipeCreate pipe portId steps =>
    simp only [Succeeds, call, Except.map] at h ⊢
    cases hres : (pipesManagerPipeCreate s.world.manager pipe portId steps).1 with
    | error err =>
      rw [hres] at h
      cases h
    | ok id =>
      obtain ⟨-, -, -, ref, -, htab⟩ := pipeCreate_ok hl hr hres
      simp only [portsAfter, htab, Tables.addPipe, Finset.mem_insert, hold]
      split
      · next ha => simp [ha]
      · next ha => simp [ha]
  | pipeAddEntry entry p steps =>
    simp only [Succeeds, call, Except.map] at h ⊢
    cases hres : (pipesManagerPipeAddEntry s.world.manager entry p steps).1 with
    | error err =>
      rw [hres] at h
      cases h
    | ok id =>
      obtain ⟨-, -, htab, -⟩ := pipeAddEntry_ok hres
      simp only [htab]
      exact hold
  | pipeRmEntry id =>
    rcases pipeRmEntry_cases hl id with ⟨-, hres⟩ | ⟨p, -, -, htab, -⟩
    · simp [Succeeds, call, hres] at h
    · simp only [call, htab]
      exact hold
  | pipeDestroy p =>
    rcases pipeDestroy_cases hl p with ⟨-, hres⟩ | ⟨-, -, htab, -⟩
    · simp [Succeeds, call, hres] at h
    · simp only [call, htab]
      exact hold
  | pipesFlush portId =>
    rcases pipesFlush_cases hl portId with ⟨-, hres⟩ | ⟨ks, -, -, -, htab, -⟩
    · simp [Succeeds, call, hres] at h
    · simp only [portsAfter, call, htab, Tables.flush, Finset.mem_erase, hold]
      split
      · next ha => simp [ha]
      · next ha => simp [ha]

theorem newEntry_of_admissible (hw : Sound s.world) (hop : Admissible s op) :
    NewEntry s.world.manager op := by
  cases op with
  | pipeAddEntry entry p steps =>
    intro _
    cases hq : (tables s.world.manager).pipeOf (generateID entry) with
    | none => rfl
    | some q =>
      obtain ⟨e, he⟩ := hw.linked.pipeOf.mp hq
      have hid := (hw.reads.entries _ e q).mpr he
      exact absurd (hw.reads.keys _ e q hid) (hop.2.1 _ e q hid)
  | _ => trivial

theorem liveStep_inv (hs : Inv s) (hop : Admissible s op) : Inv (liveStep s op) := by
  have hnew := newEntry_of_admissible hs.sound hop
  refine ⟨step_new hs.sound hnew, ?_, ?_⟩
  · simp only [liveStep, step_manager]
    exact call_own hs.sound hs.own op
  · intro a
    simp only [liveStep, step_manager]
    split
    · next h => exact call_ports hs h a
    · next h =>
      cases hres : (call s.world.manager op).1 with
      | ok u => exact absurd hres h
      | error err =>
        have htab := (call_error hs.sound hnew hres).1
        have hport : (call s.world.manager op).2.portIdToPipesId.lookup a =
            s.world.manager.portIdToPipesId.lookup a := congrFun (congrArg Tables.port htab) a
        rw [hport]
        exact hs.ports a

theorem mem_pipes (hw : Sound w) :
    p ∈ w.manager.pipeIdToPipeInfo ↔ p ∈ livePipes w.registry := by
  rw [mem_iff_lookup]
  constructor
  · rintro ⟨info, hinfo⟩
    have hpipe : (tables w.manager).pipe p = some (info.pipe, info.portIdToPipesTable) := by
      simp [tables, hinfo]
    obtain ⟨a, ha⟩ := hw.linked.pipe_port hpipe
    exact ⟨_, (hw.reads.pipes p _ a).mpr ⟨_, hpipe, ha⟩⟩
  · rintro ⟨x, hx⟩
    obtain ⟨ref, hpipe, -⟩ := (hw.reads.pipes p x.1 x.2).mp hx
    obtain ⟨info, hinfo, -⟩ := Option.map_eq_some_iff.mp hpipe
    exact ⟨info, hinfo⟩

theorem lookup_entry (hw : Sound w) {info : PipeInfo} {e : Handle}
    (hinfo : w.manager.pipeIdToPipeInfo.lookup p = some info) :
    info.entriesTable.lookup id = some e ↔ w.registry.entries id = some (e, p) := by
  rw [hw.reads.entries, entry_of_info hinfo]

theorem mem_entries (hw : Sound w) :
    id ∈ w.manager.entryIdToPipeId ↔ id ∈ liveEntries w.registry := by
  rw [mem_iff_lookup]
  constructor
  · rintro ⟨p, hp⟩
    obtain ⟨e, he⟩ := hw.linked.pipeOf.mp hp
    exact ⟨_, (hw.reads.entries id e p).mpr he⟩
  · rintro ⟨x, hx⟩
    exact ⟨x.2, hw.linked.pipeOf.mpr ⟨x.1, (hw.reads.entries id x.1 x.2).mp hx⟩⟩

theorem room_pipes (hw : Sound w) (h : (livePipes w.registry).ncard < defaultEntriesNum) :
    HasRoom w.manager.pipeIdToPipeInfo :=
  Nat.lt_of_le_of_lt (length_keys_le _ (Set.toFinite _) fun _ => (mem_pipes hw).mp) h

theorem room_entries (hw : Sound w) (h : (liveEntries w.registry).ncard < defaultEntriesNum) :
    HasRoom w.manager.entryIdToPipeId :=
  Nat.lt_of_le_of_lt (length_keys_le _ (Set.toFinite _) fun _ => (mem_entries hw).mp) h

/-- A pipe has no more entries than are live. -/
theorem room_entriesTable (hw : Sound w) {info : PipeInfo}
    (h : (liveEntries w.registry).ncard < defaultEntriesNum)
    (hinfo : w.manager.pipeIdToPipeInfo.lookup p = some info) : HasRoom info.entriesTable := by
  refine Nat.lt_of_le_of_lt (length_keys_le _ (Set.toFinite (liveEntries w.registry)) ?_) h
  intro id hid
  obtain ⟨e, he⟩ := mem_iff_lookup.mp hid
  exact ⟨(e, p), (lookup_entry hw hinfo).mp he⟩

/-- A port has no more pipes than are live. -/
theorem room_portTable (hw : Sound w) (h : (livePipes w.registry).ncard < defaultEntriesNum)
    (portId : UInt16) : HasRoom (portTable w.manager portId) := by
  refine Nat.lt_of_le_of_lt (length_keys_le _ (Set.toFinite (livePipes w.registry)) ?_) h
  intro p hp
  cases hport : w.manager.portIdToPipesId.lookup portId with
  | none => simp [portTable, hport] at hp
  | some ref =>
    simp only [portTable, hport, Option.elim_some] at hp
    obtain ⟨x, a, hx, -⟩ := hw.linked.listed.mp
      (show (tables w.manager).listed portId p from ⟨ref, hport, hp⟩)
    obtain ⟨info, hinfo, -⟩ := Option.map_eq_some_iff.mp hx
    exact (mem_pipes hw).mp (mem_of_lookup hinfo)

theorem room_ports (hs : Inv s) (h : s.ports.card < defaultEntriesNum) :
    HasRoom s.world.manager.portIdToPipesId := by
  rw [← Set.ncard_coe_finset] at h
  refine Nat.lt_of_le_of_lt (length_keys_le _ (Finset.finite_toSet s.ports) ?_) h
  intro a ha
  exact Finset.mem_coe.mpr ((hs.ports a).mpr (mem_iff_lookup.mp ha))

theorem pipesTableName_mem : pipesTableName ∈ m.tableNames ↔ ∃ ref, ref ∈ m.pipesTables := by
  have hne : entriesTableName ≠ pipesTableName := by decide
  simp only [Manager.tableNames, List.mem_append, List.mem_map, hne, and_false, and_true]
  simp [pipesTableName, AList.mem_keys]

theorem entriesTableName_mem :
    entriesTableName ∈ m.tableNames ↔ ∃ p, p ∈ m.pipeIdToPipeInfo := by
  have hne : pipesTableName ≠ entriesTableName := by decide
  simp only [Manager.tableNames, List.mem_append, List.mem_map, hne, and_false, and_true]
  simp [entriesTableName, AList.mem_keys]

/-- A creation whose steps succeed does. -/
theorem pipeCreate_succeeds {pipe : Handle} {portId : UInt16} {steps : CreateSteps}
    (hp : generateID pipe ∉ m.pipeIdToPipeInfo) (hk : steps.keyAdded = true)
    (hport : m.portIdToPipesId.lookup portId = none →
      steps.tableCreated = true ∧ steps.portAdded = true)
    (hi : steps.infoAllocated = true) (he : steps.entriesCreated = true)
    (ha : steps.infoAdded = true) :
    (pipesManagerPipeCreate m pipe portId steps).1 = .ok (generateID pipe) := by
  unfold pipesManagerPipeCreate
  cases hlook : m.portIdToPipesId.lookup portId with
  | some ref => simp [hp, hk, addPipeInfo, hi, he, ha]
  | none =>
    obtain ⟨ht, hadd⟩ := hport hlook
    simp [hp, hk, ht, hadd, addPipeInfo, hi, he, ha]

/-- The tables of one pipe take the names that those of another need. -/
theorem create_succeeds_iff (hs : Inv s) {pipe : Handle} {portId : UInt16} {steps : CreateSteps}
    (hop : Admissible s (.pipeCreate pipe portId steps))
    (hprov : Provided s.world.manager (.pipeCreate pipe portId steps)) :
    Succeeds s (.pipeCreate pipe portId steps) ↔ Alone s (.pipeCreate pipe portId steps) := by
  obtain ⟨hids, hroom, hports⟩ := hop
  obtain ⟨htable, hentries, hinfo, hkey, hport, hadd⟩ := hprov
  have hnone : (∀ p, s.world.registry.pipes p = none) ↔ steps.entriesCreated = true := by
    rw [hentries, entriesTableName_mem, not_exists]
    refine forall_congr' fun p => ?_
    rw [mem_pipes hs.sound, Option.eq_none_iff_forall_ne_some]
    exact not_exists.symm
  have hempty : s.ports = ∅ ↔ steps.tableCreated = true := by
    rw [htable, pipesTableName_mem, Finset.eq_empty_iff_forall_notMem]
    simp only [hs.own _, hs.ports, not_exists]
    exact ⟨fun h r a => h a r, fun h a r => h r a⟩
  constructor
  · intro h
    simp only [Succeeds, call, Except.map] at h
    cases hres : (pipesManagerPipeCreate s.world.manager pipe portId steps).1 with
    | error err =>
      rw [hres] at h
      cases h
    | ok id =>
      obtain ⟨-, -, hc, ⟨ref, hlook, -⟩ | ⟨-, ht, -⟩⟩ := pipeCreate_cases hres
      · exact ⟨hnone.mpr hc, Or.inl ((hs.ports portId).mpr ⟨ref, hlook⟩)⟩
      · exact ⟨hnone.mpr hc, Or.inr (hempty.mpr ht)⟩
  · rintro ⟨hpipes, hlive⟩
    have hp : generateID pipe ∉ s.world.manager.pipeIdToPipeInfo := by
      rw [mem_pipes hs.sound]
      rintro ⟨x, hx⟩
      exact absurd ((hpipes _).symm.trans hx) (by simp)
    have hnew : s.world.manager.portIdToPipesId.lookup portId = none →
        steps.tableCreated = true ∧ steps.portAdded = true := by
      intro hlook
      have hout : portId ∉ s.ports := by
        rw [hs.ports, hlook]
        simp
      exact ⟨hempty.mp (hlive.resolve_left hout),
        hport (room_ports hs (hports.resolve_left hout))⟩
    have hok := pipeCreate_succeeds hp (hkey (room_portTable hs.sound hroom portId)) hnew hinfo
      (hnone.mp hpipes) (hadd (room_pipes hs.sound hroom))
    simp [Succeeds, call, Except.map, hok]

/-- An entry is taken unless the address of its id happens to be the id of another one. -/
theorem addEntry_succeeds_iff (hs : Inv s) {entry : Handle} {steps : AddSteps}
    (hop : Admissible s (.pipeAddEntry entry p steps))
    (hprov : Provided s.world.manager (.pipeAddEntry entry p steps)) :
    Succeeds s (.pipeAddEntry entry p steps) ↔ Alone s (.pipeAddEntry entry p steps) := by
  obtain ⟨hlive, -, hroom⟩ := hop
  obtain ⟨info, hinfo⟩ := mem_iff_lookup.mp ((mem_pipes hs.sound).mpr hlive)
  have hadded := hprov.1 info hinfo (room_entriesTable hs.sound hroom hinfo)
  have hid := hprov.2 (room_entries hs.sound hroom)
  have halone : Alone s (.pipeAddEntry entry p steps) ↔ steps.idPtr ∉ info.entriesTable := by
    simp only [Alone, mem_iff_lookup, lookup_entry hs.sound hinfo, not_exists]
  rw [halone]
  by_cases hptr : steps.idPtr ∈ info.entriesTable
  · simp [Succeeds, call, pipesManagerPipeAddEntry, hinfo, hptr, Except.map]
  · simp [Succeeds, call, pipesManagerPipeAddEntry, hinfo, hptr, hadded, hid, Except.map]

theorem rmEntry_succeeds (hs : Inv s) (hop : Admissible s (.pipeRmEntry id)) :
    Succeeds s (.pipeRmEntry id) := by
  obtain ⟨p, hp⟩ := mem_iff_lookup.mp ((mem_entries hs.sound).mpr hop)
  rcases pipeRmEntry_cases hs.sound.linked id with ⟨hnone, -⟩ | ⟨-, -, hok, -⟩
  · exact absurd (hnone.symm.trans hp) (by simp)
  · exact hok

theorem destroy_succeeds (hs : Inv s) (hop : Admissible s (.pipeDestroy p)) :
    Succeeds s (.pipeDestroy p) := by
  obtain ⟨info, hinfo⟩ := mem_iff_lookup.mp ((mem_pipes hs.sound).mpr hop)
  rcases pipeDestroy_cases hs.sound.linked p with ⟨hnone, -⟩ | ⟨-, hok, -⟩
  · simp [tables, hinfo] at hnone
  · exact hok

theorem flush_succeeds (hs : Inv s) {portId : UInt16}
    (hop : Admissible s (.pipesFlush portId)) : Succeeds s (.pipesFlush portId) := by
  obtain ⟨ref, href⟩ := (hs.ports portId).mp hop
  rcases pipesFlush_cases hs.sound.linked portId with ⟨hnone, -⟩ | ⟨-, -, -, hok, -⟩
  · exact absurd (hnone.symm.trans href) (by simp)
  · exact hok

theorem succeeds_iff (hs : Inv s) (hop : Admissible s op)
    (hprov : Provided s.world.manager op) : Succeeds s op ↔ Alone s op := by
  cases op with
  | pipeCreate pipe portId steps => exact create_succeeds_iff hs hop hprov
  | pipeAddEntry entry p steps => exact addEntry_succeeds_iff hs hop hprov
  | pipeRmEntry id => exact iff_of_true (rmEntry_succeeds hs hop) trivial
  | pipeDestroy p => exact iff_of_true (destroy_succeeds hs hop) trivial
  | pipesFlush portId => exact iff_of_true (flush_succeeds hs hop) trivial

theorem liveStart_inv : Inv liveStart := by
  refine ⟨start_sound, ?_, ?_⟩
  · intro r
    simp [liveStart, start, createPipesManager]
  · intro a
    simp [liveStart, start, createPipesManager]

/-- Every call of an admissible run succeeds exactly when its pipe is the only one, on the
only port, and the address of its entry's id is the id of no other entry. -/
theorem succeed_exactly_when_alone (ops : List Op)
    (hops : Along liveStep (fun s op => Admissible s op ∧ Provided s.world.manager op)
      liveStart ops) :
    Along liveStep (fun s op => Succeeds s op ↔ Alone s op) liveStart ops :=
  hops.under (fun _ _ hs hop => liveStep_inv hs hop.1)
    (fun _ _ hs hop => succeeds_iff hs hop.1 hop.2) liveStart_inv

/-- Two pipes on one port. The names that the tables of the second need are taken. -/
def twoPipes : List Op :=
  [.pipeCreate firstPipe 0 created,
    .pipeCreate secondPipe 0 ⟨false, true, true, true, false, true⟩]

theorem firstPipe_pipes : (run liveStep liveStart (twoPipes.take 1)).world.registry.pipes =
    Function.update (fun _ => none) (generateID firstPipe) (some (firstPipe, 0)) := rfl

theorem firstPipe_ncard :
    (livePipes (run liveStep liveStart (twoPipes.take 1)).world.registry).ncard ≤ 1 := by
  have hsub : livePipes (run liveStep liveStart (twoPipes.take 1)).world.registry ⊆
      {generateID firstPipe} := by
    rintro p ⟨x, hx⟩
    rw [firstPipe_pipes, Function.update_apply] at hx
    split at hx
    · next hp => exact hp
    · cases hx
  have hle := Set.ncard_le_ncard hsub (Set.finite_singleton _)
  rwa [Set.ncard_singleton] at hle

theorem twoPipes_admissible :
    Along liveStep (fun s op => Admissible s op ∧ Provided s.world.manager op) liveStart twoPipes
    := by
  refine ⟨⟨⟨?_, ?_, ?_⟩, ?_⟩, ⟨⟨?_, ?_, ?_⟩, ?_⟩, trivial⟩
  · intro p h a hp
    cases hp
  · have hnone : livePipes liveStart.world.registry = ∅ := by
      simp [livePipes, liveStart, start]
    rw [hnone, Set.ncard_empty]
    decide
  · exact Or.inr (by decide)
  · refine ⟨by decide +kernel, by decide +kernel, rfl, fun _ => rfl, fun _ => rfl, fun _ => rfl⟩
  · intro p h a hp
    replace hp := (congrFun firstPipe_pipes p).symm.trans hp
    rw [Function.update_apply] at hp
    split at hp
    · cases hp
      decide +kernel
    · cases hp
  · exact Nat.lt_of_le_of_lt firstPipe_ncard (by decide)
  · exact Or.inl (by decide +kernel)
  · refine ⟨by decide +kernel, by decide +kernel, rfl, fun _ => rfl, fun _ => rfl, fun _ => rfl⟩

theorem succeed_two_pipes :
    Along liveStep (fun s op => Succeeds s op ↔ Alone s op) liveStart twoPipes :=
  succeed_exactly_when_alone twoPipes twoPipes_admissible

/-- A second pipe cannot be created while the first is live. -/
theorem second_pipe_fails :
    Along liveStep (fun s op => Admissible s op ∧ Provided s.world.manager op) liveStart twoPipes ∧
      ¬ Along liveStep Succeeds liveStart twoPipes :=
  ⟨twoPipes_admissible, by decide +kernel⟩

end DocaApps.Proofs.PipesCapacity
