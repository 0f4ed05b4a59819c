import DocaApps.L2Reflector.Setup
import DocaApps.Lib.Endings

namespace DocaApps.Proofs.ReflectorSetup
open Lib Lib.Handles Lib.Command Lib.Endings L2Reflector.Setup

variable {drv : Driver} {s t : Config} {α : Type}

/-- The device cannot be set up: it is not there, or cannot be opened, or has no protection
domain. -/
def IbvFails (drv : Driver) : Prop :=
  (∀ names, drv.devices = some names → drv.deviceName ∉ names) ∨
    drv.fails (.acquire .ibvCtx) = true ∨ drv.fails (.acquire .pd) = true

/-- The device is open. -/
def Open (s : Config) : Prop := Handle.ibvCtx ∈ s.live

theorem handles_open {f : Table Handle → Table Handle}
    (hf : ∀ t, Handle.ibvCtx ∈ t.live → Handle.ibvCtx ∈ (f t).live) :
    Maintains Open (handles f) := .modify fun s h => hf s.toTable h

/-- The pointers say nothing about what is open. -/
theorem setTable_open (i : Steering) (b : Bool) : Maintains Open (setTable i b) :=
  .modify fun _ h => h

theorem setDrTable_open (i : Steering) (b : Bool) : Maintains Open (setDrTable i b) :=
  .modify fun _ h => h

theorem setDrMatcher_open (i : Steering) (b : Bool) : Maintains Open (setDrMatcher i b) :=
  .modify fun _ h => h

theorem setRule_open (i : Steering) (b : Bool) : Maintains Open (setRule i b) :=
  .modify fun _ h => h

theorem setDrAction_open (i : Steering) (b : Bool) : Maintains Open (setDrAction i b) :=
  .modify fun _ h => h

theorem setDrRule_open (i : Steering) (b : Bool) : Maintains Open (setDrRule i b) :=
  .modify fun _ h => h

theorem setDomain_open (d : Domain) : Maintains Open (setDomain d) := .modify fun _ h => h

theorem destroy_open {h : Handle} (hne : Handle.ibvCtx ≠ h) : Maintains Open (destroy h) :=
  handles_open fun _ ht => Table.mem_release hne ht

theorem use_open (hs : List Handle) : Maintains Open (handles (Table.use hs)) :=
  handles_open fun _ ht => ht

theorem ifSet_open {pointer : Config → Bool} {x : SetupM Unit} (hx : Maintains Open x) :
    Maintains Open (ifSet pointer x) := by
  apply Maintains.get.bind
  intro s
  split
  · exact hx
  · exact .pure ()

theorem orElse_open {x cleanup : SetupM Unit} (hx : Maintains Open x)
    (hcleanup : Maintains Open cleanup) : Maintains Open (orElse x cleanup) :=
  hx.handled fun err => hcleanup.bind fun _ => .throw err

theorem call_open (drv : Driver) (c : Call) (hs : List Handle) (err : DocaError) :
    Maintains Open (call drv c hs err) := by
  apply (use_open hs).bind
  intro _
  exact (Maintains.throw err).ite (.pure ())

theorem acquire_open (drv : Driver) (h : Handle) (hs : List Handle) (err : DocaError) :
    Maintains Open (acquire drv h hs err) := by
  apply (call_open drv _ hs err).bind
  intro _
  exact handles_open fun _ ht => List.mem_cons_of_mem h ht

theorem setupDevice_open (drv : Driver) : Maintains Open (setupDevice drv) :=
  (acquire_open ..).bind fun _ => acquire_open ..

theorem allocateCqMemory_open (drv : Driver) (side : Side) :
    Maintains Open (allocateCqMemory drv side) := by
  have hfree : Maintains Open (destroy (.cqRingSrc side)) := destroy_open (by simp)
  apply (acquire_open ..).bind
  intro _
  apply (acquire_open ..).bind
  intro _
  apply (orElse_open (acquire_open ..) hfree).bind
  intro _
  exact hfree

theorem allocateSq_open (drv : Driver) : Maintains Open (allocateSq drv) := by
  apply (allocateCqMemory_open drv .sq).bind
  intro _
  apply (acquire_open ..).bind
  intro _
  refine Maintains.bind ?_ fun _ => ?_
  · apply (acquire_open ..).bind
    intro _
    exact (acquire_open ..).bind fun _ => acquire_open ..
  · exact (acquire_open ..).bind fun _ => acquire_open ..

theorem initDpaRqRing_open (drv : Driver) : Maintains Open (initDpaRqRing drv) := by
  have hfree : Maintains Open (destroy .rxWqes) := destroy_open (by simp)
  apply (acquire_open ..).bind
  intro _
  exact (orElse_open (call_open ..) hfree).bind fun _ => hfree

theorem allocateRq_open (drv : Driver) : Maintains Open (allocateRq drv) := by
  apply (allocateCqMemory_open drv .rq).bind
  intro _
  apply (acquire_open ..).bind
  intro _
  apply (acquire_open ..).bind
  intro _
  apply (acquire_open ..).bind
  intro _
  apply (acquire_open ..).bind
  intro _
  apply (acquire_open ..).bind
  intro _
  apply (initDpaRqRing_open drv).bind
  intro _
  exact (acquire_open ..).bind fun _ => call_open ..

theorem wqDestroy_open (side : Side) : Maintains Open (wqDestroy side) := by
  apply (destroy_open (by simp)).bind
  intro _
  apply (destroy_open (by simp)).bind
  intro _
  apply (destroy_open (by simp)).bind
  intro _
  exact (destroy_open (by simp)).bind fun _ => destroy_open (by simp)

theorem cqDestroy_open (side : Side) : Maintains Open (cqDestroy side) := by
  apply (destroy_open (by simp)).bind
  intro _
  exact (destroy_open (by simp)).bind fun _ => destroy_open (by simp)

theorem devQueuesDestroy_open : Maintains Open devQueuesDestroy := by
  apply (wqDestroy_open .rq).bind
  intro _
  apply (wqDestroy_open .sq).bind
  intro _
  exact (cqDestroy_open .rq).bind fun _ => cqDestroy_open .sq

theorem allocateDeviceResources_open (drv : Driver) :
    Maintains Open (allocateDeviceResources drv) := by
  apply (allocateSq_open drv).bind
  intro _
  apply (allocateRq_open drv).bind
  intro _
  apply (orElse_open (acquire_open ..) devQueuesDestroy_open).bind
  intro _
  apply orElse_open (acquire_open ..)
  exact devQueuesDestroy_open.bind fun _ => destroy_open (by simp)

theorem createFlowTable_open (drv : Driver) (table : Steering) :
    Maintains Open (createFlowTable drv table) := by
  apply (acquire_open ..).bind
  intro _
  apply (setDrTable_open ..).bind
  intro _
  apply (setDrMatcher_open ..).bind
  intro _
  refine (orElse_open ?_ ?_).bind fun _ => setTable_open ..
  · apply (acquire_open ..).bind
    intro _
    apply (setDrTable_open ..).bind
    intro _
    exact (acquire_open ..).bind fun _ => setDrMatcher_open ..
  · apply (ifSet_open (destroy_open (by simp))).bind
    intro _
    exact (ifSet_open (destroy_open (by simp))).bind fun _ => destroy_open (by simp)

theorem destroyTable_open (table : Steering) : Maintains Open (destroyTable table) := by
  apply ifSet_open
  apply (use_open _).bind
  intro _
  apply (ifSet_open (destroy_open (by simp))).bind
  intro _
  exact (ifSet_open (destroy_open (by simp))).bind fun _ => destroy_open (by simp)

theorem destroyRule_open (rule : Steering) : Maintains Open (destroyRule rule) := by
  apply ifSet_open
  apply (use_open _).bind
  intro _
  apply (ifSet_open (destroy_open (by simp))).bind
  intro _
  exact (ifSet_open (destroy_open (by simp))).bind fun _ => destroy_open (by simp)

/-- Destroying a rule or a table, and clearing the pointer to it or to another. -/
theorem clearRule_open (rule pointer : Steering) :
    Maintains Open (do destroyRule rule; setRule pointer false) :=
  (destroyRule_open rule).bind fun _ => setRule_open ..

theorem clearTable_open (table : Steering) :
    Maintains Open (do destroyTable table; setTable table false) :=
  (destroyTable_open table).bind fun _ => setTable_open ..

theorem createRule_open (drv : Driver) (rule : Steering) (target : List Handle) :
    Maintains Open (createRule drv rule target) := by
  apply (acquire_open ..).bind
  intro _
  apply (setRule_open ..).bind
  intro _
  apply (setDrAction_open ..).bind
  intro _
  apply (setDrRule_open ..).bind
  intro _
  apply (acquire_open ..).bind
  intro _
  apply (setDrAction_open ..).bind
  intro _
  exact (acquire_open ..).bind fun _ => setDrRule_open ..

theorem createDomain_open (drv : Driver) (d : Domain) : Maintains Open (createDomain drv d) :=
  (orElse_open (acquire_open ..) (destroy_open (by simp))).bind fun _ => setDomain_open d

theorem createSteeringRuleRx_open (drv : Driver) : Maintains Open (createSteeringRuleRx drv) := by
  have hmask : Maintains Open (destroy .matchMask) := destroy_open (by simp)
  have hdomain : Maintains Open (destroy (.domain .rx)) := destroy_open (by simp)
  apply (acquire_open ..).bind
  intro _
  apply (createDomain_open drv .rx).bind
  intro _
  apply (orElse_open (createFlowTable_open drv .rx) (hdomain.bind fun _ => hmask)).bind
  intro _
  refine (orElse_open (createRule_open drv .rx _) ?_).bind fun _ => hmask
  apply hmask.bind
  intro _
  apply (ifSet_open (clearRule_open .rx .rx)).bind
  intro _
  apply (destroyTable_open .rx).bind
  intro _
  exact (setTable_open .rx false).bind fun _ => hdomain

theorem createSteeringRuleTx_open (drv : Driver) : Maintains Open (createSteeringRuleTx drv) := by
  have hmask : Maintains Open (destroy .matchMask) := destroy_open (by simp)
  have hdomain : Maintains Open (destroy (.domain .fdb)) := destroy_open (by simp)
  apply (acquire_open ..).bind
  intro _
  apply (createDomain_open drv .fdb).bind
  intro _
  apply (orElse_open (createFlowTable_open drv .txRoot) (hdomain.bind fun _ => hmask)).bind
  intro _
  refine (orElse_open (createFlowTable_open drv .tx) ?_).bind fun _ => ?_
  · apply (destroyTable_open .txRoot).bind
    intro _
    apply (setTable_open .txRoot false).bind
    intro _
    exact hdomain.bind fun _ => hmask
  · refine (orElse_open ?_ ?_).bind fun _ => hmask
    · exact (createRule_open ..).bind fun _ => createRule_open ..
    · apply hmask.bind
      intro _
      apply (ifSet_open (clearRule_open .txRoot .txRoot)).bind
      intro _
      apply (ifSet_open (clearRule_open .rx .tx)).bind
      intro _
      apply (destroyTable_open .txRoot).bind
      intro _
      apply (setTable_open .txRoot false).bind
      intro _
      apply (destroyTable_open .tx).bind
      intro _
      exact (setTable_open .tx false).bind fun _ => hdomain

theorem steeringRulesDestroy_open : Maintains Open steeringRulesDestroy := by
  apply (Maintains.forM fun rule => ifSet_open (clearRule_open rule rule)).bind
  intro _
  apply (Maintains.forM fun table => ifSet_open (clearTable_open table)).bind
  intro _
  exact .forM fun d => ifSet_open (destroy_open (by simp))

theorem deviceResourcesDestroy_open : Maintains Open deviceResourcesDestroy := by
  apply devQueuesDestroy_open.bind
  intro _
  exact (destroy_open (by simp)).bind fun _ => destroy_open (by simp)

theorem ibvDeviceCleanup_open : Maintains Open ibvDeviceCleanup := by
  apply (destroy_open (h := .pd) (by simp)).bind
  intro _
  exact (destroy_open (by simp)).bind fun _ => .pure _

theorem deviceCleanup_open : Maintains Open deviceCleanup :=
  (destroy_open (by simp)).bind fun _ => ibvDeviceCleanup_open

theorem deviceResourcesCleanup_open : Maintains Open deviceResourcesCleanup :=
  deviceResourcesDestroy_open.bind fun _ => deviceCleanup_open

theorem ruleCleanup_open : Maintains Open ruleCleanup :=
  steeringRulesDestroy_open.bind fun _ => deviceResourcesCleanup_open

/-- A part of `main` that leaves the device open when it ends in failure. -/
structure FailsOpen (x : SetupM ExitStatus) : Prop where
  ends : ∀ s, Open s → Ends x (fun status t => status = .failure → Open t) (fun _ _ => True) s

theorem Maintains.failsOpen {x : SetupM ExitStatus} (h : Maintains Open x) : FailsOpen x :=
  ⟨fun s hs => (h.settles s hs).mono (fun _ _ ht _ => ht) fun _ _ _ => trivial⟩

/-- A step of `main`, with what follows it and the label it jumps to. -/
theorem FailsOpen.step {x : SetupM Unit} {next label : SetupM ExitStatus} (hx : Maintains Open x)
    (hnext : FailsOpen next) (hlabel : Maintains Open label) :
    FailsOpen (do if ← succeeded x then next else label) := by
  constructor
  intro s hs
  have hanswer := (hx.succeeded.settles s hs).mono (fun _ _ ht => ht) fun _ _ _ => trivial
  refine Ends.bind hanswer fun b t ht => ?_
  cases b with
  | true => exact hnext.ends t ht
  | false => exact (Maintains.failsOpen hlabel).ends t ht

theorem steer_failsOpen (drv : Driver) : FailsOpen (steer drv) := by
  refine .step (createSteeringRuleRx_open drv) ?_ deviceResourcesCleanup_open
  refine .step (createSteeringRuleTx_open drv) ?_ ruleCleanup_open
  refine .step (call_open ..) ?_ ruleCleanup_open
  constructor
  intro s hs
  refine Ends.bind (m := fun _ _ => True) ⟨fun _ => trivial, fun _ => trivial⟩ fun _ t _ => ?_
  exact (ends_pure _).mpr fun h => nomatch h

theorem runDevice_failsOpen (drv : Driver) : FailsOpen (runDevice drv) := by
  refine .step (setupDevice_open drv) ?_ ibvDeviceCleanup_open
  refine .step (allocateDeviceResources_open drv) ?_ deviceCleanup_open
  exact .step (call_open ..) (steer_failsOpen drv) deviceResourcesCleanup_open

theorem acquire_ok {h : Handle} {hs : List Handle} {err : DocaError}
    (hok : drv.fails (.acquire h) = false) : acquire drv h hs err s =
      .ok () { s with toTable := (s.toTable.use hs).create h } := by
  unfold acquire call
  rw [hok]
  rfl

theorem acquire_error {h : Handle} {hs : List Handle} {err : DocaError}
    (hfails : drv.fails (.acquire h) = true) : acquire drv h hs err s =
      .error err { s with toTable := s.toTable.use hs } := by
  unfold acquire call
  rw [hfails]
  rfl

theorem orElse_ok {x cleanup : SetupM Unit} (hx : x s = .ok () t) : orElse x cleanup s = .ok () t :=
  tryCatch_ok hx

theorem orElse_error {x cleanup : SetupM Unit} {err : DocaError} {u : Config}
    (hx : x s = .error err t) (hcleanup : cleanup t = .ok () u) :
    orElse x cleanup s = .error err u :=
  (tryCatch_error hx).trans (run_bind hcleanup)

theorem destroy_eq (h : Handle) (s : Config) :
    destroy h s = .ok () { s with toTable := s.toTable.release (dependents h) h } := rfl

/-- The configuration with the device open, and nothing more. -/
def opened : Config := { Config.initial with live := [.ibvCtx, .argp] }

theorem openIbvDevice_ok {names : List String} (hdevices : drv.devices = some names)
    (hname : drv.deviceName ∈ names) (hopen : drv.fails (.acquire .ibvCtx) = false) :
    openIbvDevice drv .initial = .ok () opened := by
  unfold openIbvDevice
  rw [hdevices]
  dsimp only
  rw [if_pos hname]
  have hcreate : handles (Table.create .devList) .initial =
      .ok () { Config.initial with live := [.devList, .argp] } := rfl
  rw [run_bind hcreate, run_bind (orElse_ok (acquire_ok hopen)), destroy_eq]
  simp [opened, dependents, Config.initial, Table.empty]

theorem openIbvDevice_error (h : (∀ names, drv.devices = some names → drv.deviceName ∉ names) ∨
    drv.fails (.acquire .ibvCtx) = true) :
    ∃ err, openIbvDevice drv .initial = .error err .initial := by
  unfold openIbvDevice
  cases hdevices : drv.devices with
  | none => exact ⟨_, rfl⟩
  | some names =>
    dsimp only
    have hcreate : handles (Table.create .devList) .initial =
        .ok () { Config.initial with live := [.devList, .argp] } := rfl
    rw [run_bind hcreate]
    by_cases hname : drv.deviceName ∈ names
    · rw [if_pos hname]
      have hfails : drv.fails (.acquire .ibvCtx) = true :=
        h.resolve_left fun hnone => hnone names hdevices hname
      rw [run_bind_error (orElse_error (acquire_error hfails) (destroy_eq ..))]
      exact ⟨.initialization, by simp [dependents, Config.initial, Table.empty]⟩
    · rw [if_neg hname, run_bind (destroy_eq ..)]
      exact ⟨.initialization, by simp [dependents, Config.initial, Table.empty]; rfl⟩

/-- What `l2_reflector_setup_ibv_device` comes to: nothing, or an open device. -/
theorem setupIbvDevice_ended (drv : Driver) :
    (IbvFails drv ∧ ∃ err, setupIbvDevice drv .initial = .error err .initial) ∨
      ¬ IbvFails drv ∧ ∃ t, setupIbvDevice drv .initial = .ok () t ∧ Open t := by
  unfold setupIbvDevice
  by_cases hearly : (∀ names, drv.devices = some names → drv.deviceName ∉ names) ∨
      drv.fails (.acquire .ibvCtx) = true
  · obtain ⟨err, hrun⟩ := openIbvDevice_error hearly
    exact .inl ⟨hearly.elim .inl fun h => .inr (.inl h), err, run_bind_error hrun⟩
  · have hname : ∃ names, drv.devices = some names ∧ drv.deviceName ∈ names := by
      by_contra hnone
      exact hearly (.inl fun names hdevices hmem => hnone ⟨names, hdevices, hmem⟩)
    obtain ⟨names, hdevices, hmem⟩ := hname
    have hopen : drv.fails (.acquire .ibvCtx) = false :=
      Bool.not_eq_true _ ▸ fun h => hearly (.inr h)
    rw [run_bind (openIbvDevice_ok hdevices hmem hopen)]
    cases hpd : drv.fails (.acquire .pd) with
    | true =>
      rw [orElse_error (acquire_error hpd) (destroy_eq ..)]
      refine .inl ⟨.inr (.inr hpd), .driver, ?_⟩
      simp [opened, dependents, Config.initial, Table.empty]
    | false =>
      rw [orElse_ok (acquire_ok hpd)]
      refine .inr ⟨?_, _, rfl, by simp [Open, opened]⟩
      rintro (h | h | h)
      · exact hearly (.inl h)
      · exact hearly (.inr h)
      · rw [hpd] at h
        cases h

/-- A set-up that fails releases everything just when it fails before the device is open. -/
theorem setupReleases_iff (hmain : main drv .initial = .ok .failure t) :
    t.toTable.Settled ↔ IbvFails drv := by
  unfold main at hmain
  rcases setupIbvDevice_ended drv with ⟨hfails, err, hrun⟩ | ⟨hfails, u, hrun, hopen⟩
  · rw [run_bind (succeeded_error hrun), if_neg Bool.false_ne_true,
      run_bind (destroy_eq ..)] at hmain
    cases hmain
    refine iff_of_true ?_ hfails
    constructor
    · rfl
    · rfl
  · rw [run_bind (succeeded_ok hrun), if_pos rfl] at hmain
    refine iff_of_false ?_ hfails
    intro hsettled
    have hstays : Open t := ((runDevice_failsOpen drv).ends u hopen).ok hmain rfl
    rw [Open, hsettled.released] at hstays
    cases hstays

/-- A driver that has the device but cannot create the process. -/
def noProcess : Driver :=
  { devices := some ["mlx5_0"]
    deviceName := "mlx5_0"
    fails := fun c => decide (c = .acquire .process) }

theorem setupReleases_no_process : ∃ t, main noProcess .initial = .ok .failure t ∧
    (t.toTable.Settled ↔ IbvFails noProcess) := ⟨_, rfl, setupReleases_iff rfl⟩

/-- The device stays open. -/
theorem device_left_open : ∃ t, main noProcess .initial = .ok .failure t ∧ ¬ t.toTable.Settled := by
  refine ⟨_, rfl, ?_⟩
  intro h
  cases h.released

end DocaApps.Proofs.ReflectorSetup
