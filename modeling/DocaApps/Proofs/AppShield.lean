import DocaApps.AppShield.Agent
import DocaApps.Lib.Endings

namespace DocaApps.Proofs.AppShield
open Lib Lib.Handles Lib.Command DocaApps.AppShield

variable {lib : Library} {pid : Int} {scans : List Scan} {s t : Agent} {α β : Type}

@[simp] theorem pure_run (a : α) : (pure a : AgentM α) s = .ok a s := rfl

@[simp] theorem throw_run (err : DocaError) : (throw err : AgentM α) s = .error err s := rfl

@[simp] theorem get_run : (get : AgentM Agent) s = .ok s s := rfl

@[simp] theorem modify_run (f : Agent → Agent) : (modify f : AgentM Unit) s = .ok () (f s) := rfl

@[simp] theorem handles_run (f : Table Handle → Table Handle) :
    handles f s = .ok () { s with toTable := f s.toTable } := rfl

@[simp] theorem write_run (entry : Entry) :
    write entry s = .ok () { s with log := s.log ++ [entry] } := rfl

@[simp] theorem bind_run (x : AgentM α) (f : α → AgentM β) : (x >>= f) s =
    match x s with
    | .ok a t => f a t
    | .error e t => .error e t := by
  cases hx : x s with
  | ok a t => exact Command.run_bind hx
  | error e t => exact Command.run_bind_error hx

@[simp] theorem map_run (x : AgentM α) (f : α → β) : (f <$> x) s =
    match x s with
    | .ok a t => .ok (f a) t
    | .error e t => .error e t := by
  rw [← bind_pure_comp, bind_run]
  rfl

@[simp] theorem tryCatch_run (x : AgentM α) (handle : DocaError → AgentM α) :
    tryCatch x handle s =
      match x s with
      | .ok a t => .ok a t
      | .error e t => handle e t := by
  cases hx : x s with
  | ok a t => exact Command.tryCatch_ok hx
  | error e t => exact Command.tryCatch_error hx

/-- An agent before its scans that holds these handles, and has the pointers of the context and of
the system, each with its device. -/
@[simp] def holding (live started : List Handle) (ctx sys : Bool) : Agent :=
  { live, started, misused := false, ctx, sys, systemDevice := sys, dmaDevice := ctx, log := [] }

/-- The agent with only what the command line needed, and as it comes to hold more. -/
def base : Agent := holding [.argp] [] false false

def withCtx : Agent := holding [.dmaDevice, .ctx, .argp] [.ctx] true false

def withSys : Agent :=
  holding [.sys, .systemDevice, .dmaDevice, .ctx, .argp] [.sys, .ctx] true true

def withProcesses : Agent :=
  holding [.processes, .sys, .systemDevice, .dmaDevice, .ctx, .argp] [.sys, .ctx] true true

def ctxCalls : List Call := [.apshCreate, .dmaDeviceOpen, .dmaDevSet, .apshStart]

def sysCalls : List Call := [.osSymbolMapSet, .memRegionSet, .sysDevSet, .osTypeSet, .systemStart]

attribute [simp] callOr call orCleanUp ifSet appShieldAgentCleanup

theorem apshCtxInit_ended (lib : Library) :
    (apshCtxInit lib base = .ok () withCtx ∧ ∀ c ∈ ctxCalls, lib.fails c = false) ∨
      (∃ err, apshCtxInit lib base = .error err base) ∧ ∃ c ∈ ctxCalls, lib.fails c = true := by
  unfold apshCtxInit Library.fails ctxCalls
  cases hcreate : lib.result .apshCreate with
  | some err => simp [hcreate, Library.fails]
  | none =>
  cases hopen : lib.result .dmaDeviceOpen with
  | some err => simp [hcreate, hopen, Library.fails, base]
  | none =>
  cases hset : lib.result .dmaDevSet with
  | some err => simp [hcreate, hopen, hset, Library.fails, base]
  | none =>
  cases hstart : lib.result .apshStart with
  | some err => simp [hcreate, hopen, hset, hstart, Library.fails, base]
  | none =>
    simp [hcreate, hopen, hset, hstart, Library.fails, base, withCtx]


/-- What the set-up of the system leaves when no system can be created: success, and nothing of
the library. -/
theorem apshSystemInit_ended
    (hcreate : lib.fails .systemDeviceOpen = false → lib.fails .systemCreate = false) :
    (apshSystemInit lib withCtx = .ok () withSys ∧
        ∀ c ∈ Call.systemDeviceOpen :: sysCalls, lib.fails c = false) ∨
      (∃ err, apshSystemInit lib withCtx = .error err base) ∧
        ∃ c ∈ Call.systemDeviceOpen :: sysCalls, lib.fails c = true := by
  unfold apshSystemInit sysCalls
  cases hopen : lib.result .systemDeviceOpen with
  | some err => simp [Library.fails, hopen, withCtx, base]
  | none =>
  rw [hcreate (by rw [Library.fails, hopen]; rfl)]
  unfold Library.fails
  cases hmap : lib.result .osSymbolMapSet with
  | some err => simp [hopen, hmap, withCtx, base]
  | none =>
  cases hmem : lib.result .memRegionSet with
  | some err => simp [hopen, hmap, hmem, withCtx, base]
  | none =>
  cases hdev : lib.result .sysDevSet with
  | some err => simp [hopen, hmap, hmem, hdev, withCtx, base]
  | none =>
  cases hos : lib.result .osTypeSet with
  | some err => simp [hopen, hmap, hmem, hdev, hos, withCtx, base]
  | none =>
  cases hstart : lib.result .systemStart with
  | some err =>
    simp [hopen, hmap, hmem, hdev, hos, hstart, withCtx, base]
  | none =>
    simp [hopen, hmap, hmem, hdev, hos, hstart, withCtx, withSys, base]

theorem apshSystemInit_lost (hopen : lib.fails .systemDeviceOpen = false)
    (hcreate : lib.fails .systemCreate = true) : apshSystemInit lib withCtx = .ok () base := by
  have hnone : lib.result .systemDeviceOpen = none := by simpa [Library.fails] using hopen
  simp [apshSystemInit, hcreate, hnone, withCtx, base]

theorem getProcessByPid_ended (lib : Library) (pid : Int) :
    (getProcessByPid lib pid withSys = .ok () withProcesses ∧ lib.fails .processesGet = false ∧
        pid ∈ lib.processIds) ∨
      (∃ err, getProcessByPid lib pid withSys = .error err base) ∧
        (lib.fails .processesGet = true ∨ pid ∉ lib.processIds) := by
  unfold getProcessByPid Library.fails
  cases hget : lib.result .processesGet with
  | some err => simp [hget, withSys, base]
  | none =>
    by_cases hpid : pid ∈ lib.processIds
    · simp [hget, hpid, withProcesses, withSys]
    · simp [hget, hpid, withSys, base]

def withSchema : Agent := holding
  [.schema, .processes, .sys, .systemDevice, .dmaDevice, .ctx, .argp] [.sys, .ctx] true true

def withType : Agent := holding
  [.type, .schema, .processes, .sys, .systemDevice, .dmaDevice, .ctx, .argp] [.sys, .ctx] true true

/-- The agent with its telemetry, when it could be started. -/
def withTelemetry (enabled : Bool) : Agent :=
  if enabled then holding
    [.source, .schema, .processes, .sys, .systemDevice, .dmaDevice, .ctx, .argp]
    [.source, .schema, .sys, .ctx] true true
  else withProcesses

theorem addField_ended (lib : Library) (idx : Nat) : addField lib idx withType = .ok () withType ∨
    ∃ err, addField lib idx withType = .error err withSchema := by
  unfold addField
  cases hcreate : lib.result (.fieldCreate idx) with
  | some err => simp [hcreate, withType, withSchema]
  | none =>
  cases hadd : lib.result (.addField idx) with
  | some err => simp [hcreate, hadd, withType, withSchema]
  | none => simp [hcreate, hadd, withType, withSchema]

theorem addFields_ended (lib : Library) (ks : List Nat) :
    ks.forM (addField lib) withType = .ok () withType ∨
      ∃ err, ks.forM (addField lib) withType = .error err withSchema := by
  induction ks with
  | nil => exact .inl rfl
  | cons k ks ih =>
    rw [List.forM_eq_forM, List.forM_cons, bind_run]
    rcases addField_ended lib k with hk | ⟨err, hk⟩
    · rw [hk]
      exact ih
    · rw [hk]
      exact .inr ⟨err, rfl⟩

theorem telemetryRegister_ended (lib : Library) :
    telemetryRegisterAttestEvent lib withSchema = .ok () withSchema ∨
      ∃ err, telemetryRegisterAttestEvent lib withSchema = .error err withSchema := by
  unfold telemetryRegisterAttestEvent
  cases htype : lib.result .typeCreate with
  | some err => simp [htype, withSchema]
  | none =>
    have hcall : call lib .typeCreate [] withSchema = .ok () withSchema := by simp [htype]
    have htyped : handles (Table.create .type) withSchema = .ok () withType := rfl
    rw [Command.run_bind hcall, Command.run_bind htyped]
    rcases addFields_ended lib (List.range nbFields) with hfields | ⟨err, hfields⟩
    · rw [Command.run_bind hfields]
      cases hadd : lib.result .addType with
      | some err => simp [hadd, withType, withSchema]
      | none => simp [hadd, withType, withSchema]
    · rw [Command.run_bind_error hfields]
      exact .inr ⟨err, rfl⟩

/-- Telemetry is either there with all it needs, or has left nothing. -/
theorem telemetryStart_ended (lib : Library) :
    telemetryStart lib withProcesses = .ok () (withTelemetry true) ∨
      ∃ err, telemetryStart lib withProcesses = .error err (withTelemetry false) := by
  unfold telemetryStart
  cases hinit : lib.result .schemaInit with
  | some err => simp [hinit, withTelemetry]
  | none =>
  have hcall : call lib .schemaInit [] withProcesses = .ok () withProcesses := by simp [hinit]
  have hschema : handles (Table.create .schema) withProcesses = .ok () withSchema := rfl
  rw [Command.run_bind hcall, Command.run_bind hschema]
  rcases telemetryRegister_ended lib with hregister | ⟨err, hregister⟩
  · have hregistered : orSchemaError (telemetryRegisterAttestEvent lib) withSchema =
        .ok () withSchema := Command.tryCatch_ok hregister
    rw [Command.run_bind hregistered]
    unfold orSchemaError orSourceError
    cases hstart : lib.result .schemaStart with
    | some err => simp [hstart, withTelemetry, withSchema, withProcesses]
    | none =>
    cases hsource : lib.result .sourceCreate with
    | some err => simp [hstart, hsource, withTelemetry, withSchema, withProcesses]
    | none =>
    cases hname : lib.result .gethostname with
    | some err =>
      simp [hstart, hsource, hname, Library.fails, withTelemetry, withSchema, withProcesses]
    | none =>
    cases hconnect : lib.result .sourceStart with
    | some err =>
      simp [hstart, hsource, hname, hconnect, Library.fails, withTelemetry, withSchema,
        withProcesses]
    | none => simp [hstart, hsource, hname, hconnect, Library.fails, withTelemetry, withSchema]
  · refine .inr ⟨err, ?_⟩
    have hclean : orSchemaError (telemetryRegisterAttestEvent lib) withSchema =
        .error err withProcesses := by
      refine (Command.tryCatch_error hregister).trans ?_
      simp [withSchema, withProcesses]
    rw [Command.run_bind_error hclean]
    rfl

/-- The agent in its scans, with what it has logged. -/
def attesting (enabled : Bool) (log : List Entry) : Agent := { withTelemetry enabled with
  live := .attestation :: (withTelemetry enabled).live
  log }

def ended (log : List Entry) : Agent :=
  { holding [] [] false false with log }

theorem telemetryCleanup_eq (enabled : Bool) (status : ExitStatus) (log : List Entry) :
    telemetryCleanup enabled status { withTelemetry enabled with log } =
      .ok (.exited status) (ended log) := by
  cases enabled with
  | true => simp [telemetryCleanup, telemetryDestroy, apshCleanup, ended, withTelemetry]
  | false => simp [telemetryCleanup, apshCleanup, ended, withTelemetry, withProcesses]

/-- The refresh succeeds, and every file has as many matching hashes as pages present. -/
def Passes (scan : Scan) : Prop :=
  scan.refreshed = true ∧ ∀ file ∈ scan.files, file.1 = file.2

instance (scan : Scan) : Decidable (Passes scan) := inferInstanceAs (Decidable (_ ∧ _))

theorem attFailure_iff (scan : Scan) : attFailure scan = true ↔ ¬ Passes scan := by
  unfold attFailure Passes
  cases scan.refreshed <;> simp

def passed (log : List Entry) : Nat := log.count .attestationPass

theorem attesting_use (enabled : Bool) (log : List Entry) :
    handles (Table.use [.attestation]) (attesting enabled log) =
      .ok () (attesting enabled log) := by
  cases enabled <;> rfl

/-- The report of a scan leaves the handles as they are. -/
theorem sendTelemetry_eq (enabled reported : Bool) (event : AttestationEvent) (log : List Entry) :
    ∃ log', sendTelemetry enabled reported event (attesting enabled log) =
      .ok () (attesting enabled log') ∧ passed log' = passed log := by
  cases enabled with
  | false => exact ⟨log, rfl, rfl⟩
  | true =>
    cases reported with
    | false => exact ⟨log, rfl, rfl⟩
    | true => exact ⟨log ++ [.report event], rfl, by simp [passed]⟩

theorem attest_fails {scan : Scan} (h : ¬ Passes scan) (scans : List Scan) (enabled : Bool)
    (event : AttestationEvent) (log : List Entry) : ∃ log',
      attest enabled event (scan :: scans) (attesting enabled log) =
        .ok (.exited .failure) (ended log') ∧ passed log' = passed log := by
  obtain ⟨log', hsend, hpassed⟩ := sendTelemetry_eq enabled scan.reported (event.scanned scan) log
  have hfails : attFailure scan = true := (attFailure_iff scan).mpr h
  refine ⟨log' ++ [.attestationFailed], ?_, by simpa [passed] using hpassed⟩
  have hwrite : write .attestationFailed (attesting enabled log') =
      .ok () (attesting enabled (log' ++ [.attestationFailed])) := rfl
  have hrelease : handles (Table.release [] .attestation)
      (attesting enabled (log' ++ [.attestationFailed])) =
        .ok () { withTelemetry enabled with log := log' ++ [.attestationFailed] } := by
    cases enabled <;> rfl
  unfold attest
  rw [Command.run_bind (attesting_use enabled log), Command.run_bind hsend, if_pos hfails,
    Command.run_bind hwrite, Command.run_bind hrelease]
  exact telemetryCleanup_eq ..

theorem attest_passes {scan : Scan} (h : Passes scan) (scans : List Scan) (enabled : Bool)
    (event : AttestationEvent) (log : List Entry) : ∃ event' log',
      attest enabled event (scan :: scans) (attesting enabled log) =
        attest enabled event' scans (attesting enabled log') ∧ passed log' = passed log + 1 := by
  obtain ⟨log', hsend, hpassed⟩ := sendTelemetry_eq enabled scan.reported (event.scanned scan) log
  have hpasses : ¬ attFailure scan = true := fun hfails => (attFailure_iff scan).mp hfails h
  have hwrite : write .attestationPass (attesting enabled log') =
      .ok () (attesting enabled (log' ++ [.attestationPass])) := rfl
  refine ⟨(event.scanned scan).counted enabled, log' ++ [.attestationPass], ?_, ?_⟩
  swap
  · simpa [passed] using hpassed
  conv_lhs => unfold attest
  rw [Command.run_bind (attesting_use enabled log), Command.run_bind hsend, if_neg hpasses,
    Command.run_bind hwrite]

/-- The scans before the first that fails are those that are logged as passed, and that one ends
the agent. -/
theorem attest_ended (enabled : Bool) (event : AttestationEvent) (scans : List Scan)
    (log : List Entry) :
    ∃ ending t, attest enabled event scans (attesting enabled log) = .ok ending t ∧
      t.misused = false ∧
      passed t.log = passed log + (scans.takeWhile fun scan => decide (Passes scan)).length ∧
      if ∀ scan ∈ scans, Passes scan then ending = .running
      else ending = .exited .failure ∧ t.live = [] := by
  induction scans generalizing event log with
  | nil =>
    refine ⟨.running, attesting enabled log, rfl, ?_, rfl, ?_⟩
    · cases enabled <;> rfl
    · simp
  | cons scan scans ih =>
    by_cases hscan : Passes scan
    · obtain ⟨event', log', hrun, hpassed⟩ := attest_passes hscan scans enabled event log
      obtain ⟨ending, t, hend, hproper, hcount, hstatus⟩ := ih event' log'
      refine ⟨ending, t, hrun.trans hend, hproper, ?_, ?_⟩
      · rw [hcount, hpassed, List.takeWhile_cons_of_pos (by simpa using hscan), List.length_cons]
        omega
      · simpa [hscan] using hstatus
    · obtain ⟨log', hrun, hpassed⟩ := attest_fails hscan scans enabled event log
      refine ⟨_, _, hrun, rfl, ?_, ?_⟩
      · rw [List.takeWhile_cons_of_neg (by simpa using hscan)]
        exact hpassed
      · simp [hscan, ended]

def commandCalls : List Call :=
  [.logStandard, .logSdk, .logSetLevel, .argpInit, .registerParams, .argpStart]

/-- The steps before a system is created, and those before the name of the process is read. -/
def firstCalls : List Call := commandCalls ++ ctxCalls ++ [.systemDeviceOpen]

def nextCalls : List Call := firstCalls ++ .systemCreate :: sysCalls ++ [.processesGet]

/-- All that the agent needs before its first scan. -/
structure Prepared (lib : Library) (pid : Int) : Prop where
  calls : ∀ c ∈ nextCalls ++ [.attestationGet], lib.fails c = false
  process : pid ∈ lib.processIds

/-- What a run must have come to after these scans. -/
structure FailsClosed (lib : Library) (pid : Int) (scans : List Scan) (ending : Ending)
    (t : Agent) : Prop where
  proper : t.misused = false
  pass : ∀ k < passed t.log,
    Prepared lib pid ∧ k < scans.length ∧ ∀ scan ∈ scans.take (k + 1), Passes scan
  onFirst : Prepared lib pid →
    passed t.log = (scans.takeWhile fun scan => decide (Passes scan)).length
  goesOn : Prepared lib pid → (∀ scan ∈ scans, Passes scan) → ending = .running
  status : ¬ (Prepared lib pid ∧ ∀ scan ∈ scans, Passes scan) → ending = .exited .failure
  released : ∀ status, ending = .exited status → t.live = []

/-- When a system is asked for it can be created, and the name of the process is there when it is
read. -/
structure NothingMissing (lib : Library) (pid : Int) : Prop where
  system : (∀ c ∈ firstCalls, lib.fails c = false) → lib.fails .systemCreate = false
  comm : (∀ c ∈ nextCalls, lib.fails c = false) → pid ∈ lib.processIds → lib.processComm ≠ none


/-- A call was given a handle that was not there. -/
def Misused (s : Agent) : Prop := s.misused = true

theorem handles_misused {f : Table Handle → Table Handle}
    (hf : ∀ t, t.misused = true → (f t).misused = true) : Endings.Maintains Misused (handles f) :=
  .modify fun s h => hf s.toTable h

theorem release_misused (ds : List Handle) (h : Handle) :
    Endings.Maintains Misused (handles (Table.release ds h)) := by
  apply handles_misused
  intro t ht
  unfold Table.release
  split
  · rfl
  · split <;> exact ht

theorem use_misused (hs : List Handle) : Endings.Maintains Misused (handles (Table.use hs)) :=
  handles_misused fun t ht => by simp [ht]

theorem create_misused (h : Handle) : Endings.Maintains Misused (handles (Table.create h)) :=
  handles_misused fun t ht => by simp [ht]

theorem start_misused (h : Handle) : Endings.Maintains Misused (handles (Table.start h)) :=
  handles_misused fun t ht => by simp [ht]

theorem useStarted_misused (h : Handle) :
    Endings.Maintains Misused (handles (Table.useStarted h)) :=
  handles_misused fun t ht => by simp [ht]

theorem handOver_misused (owner h : Handle) :
    Endings.Maintains Misused (handles (Table.handOver owner h)) :=
  handles_misused fun t ht => by
    simp only [Table.handOver, Table.release]
    split <;> simp [ht]

theorem call_misused (lib : Library) (c : Call) (hs : List Handle) :
    Endings.Maintains Misused (call lib c hs) := by
  apply (use_misused hs).bind
  intro _
  split
  · exact .throw _
  · exact .pure ()

theorem callOr_misused (lib : Library) (c : Call) (err : DocaError) :
    Endings.Maintains Misused (callOr lib c err) := by
  unfold callOr
  split
  · exact .throw _
  · exact .pure ()

theorem ifSet_misused {pointer : Agent → Bool} {x : AgentM Unit}
    (hx : Endings.Maintains Misused x) : Endings.Maintains Misused (ifSet pointer x) := by
  apply Endings.Maintains.get.bind
  intro s
  split
  · exact hx
  · exact .pure ()

/-- Releasing a resource and clearing its pointer. -/
theorem free_misused {ds : List Handle} {h : Handle} {f : Agent → Agent}
    (hf : ∀ s, Misused s → Misused (f s)) :
    Endings.Maintains Misused (do handles (Table.release ds h); modify f) :=
  (release_misused ds h).bind fun _ => .modify hf

theorem cleanup_misused : Endings.Maintains Misused appShieldAgentCleanup := by
  refine (ifSet_misused (free_misused ?_)).bind fun _ =>
    (ifSet_misused (free_misused ?_)).bind fun _ =>
      (ifSet_misused (free_misused ?_)).bind fun _ => ifSet_misused (free_misused ?_)
  all_goals
    intro s h
    exact h

theorem addField_misused (lib : Library) (idx : Nat) :
    Endings.Maintains Misused (addField lib idx) := by
  have hundo : Endings.Maintains Misused (handles (Table.release [] .type)) := release_misused _ _
  apply ((call_misused lib _ _).handled fun err => hundo.bind fun _ => .throw err).bind
  intro _
  apply (create_misused _).bind
  intro _
  apply ((call_misused lib _ _).handled fun err =>
    (release_misused _ _).bind fun _ => hundo.bind fun _ => .throw err).bind
  intro _
  exact handOver_misused _ _

theorem orSchemaError_misused {x : AgentM Unit} (hx : Endings.Maintains Misused x) :
    Endings.Maintains Misused (orSchemaError x) :=
  hx.handled fun err => (release_misused _ _).bind fun _ => .throw err

theorem orSourceError_misused {x : AgentM Unit} (hx : Endings.Maintains Misused x) :
    Endings.Maintains Misused (orSourceError x) :=
  hx.handled fun err =>
    (release_misused _ _).bind fun _ => (release_misused _ _).bind fun _ => .throw err

theorem telemetryRegister_misused (lib : Library) :
    Endings.Maintains Misused (telemetryRegisterAttestEvent lib) := by
  apply (call_misused lib _ _).bind
  intro _
  apply (create_misused _).bind
  intro _
  apply (Endings.Maintains.forM (addField_misused lib)).bind
  intro _
  apply ((call_misused lib _ _).handled fun err =>
    (release_misused _ _).bind fun _ => .throw err).bind
  intro _
  exact handOver_misused _ _

theorem telemetryStart_misused (lib : Library) :
    Endings.Maintains Misused (telemetryStart lib) := by
  apply (call_misused lib _ _).bind
  intro _
  apply (create_misused _).bind
  intro _
  apply (orSchemaError_misused (telemetryRegister_misused lib)).bind
  intro _
  apply (orSchemaError_misused (call_misused lib _ _)).bind
  intro _
  apply (start_misused _).bind
  intro _
  apply (useStarted_misused _).bind
  intro _
  apply (orSchemaError_misused (call_misused lib _ _)).bind
  intro _
  apply (create_misused _).bind
  intro _
  apply (orSourceError_misused (callOr_misused lib _ _)).bind
  intro _
  apply (orSourceError_misused (call_misused lib _ _)).bind
  intro _
  exact start_misused _

theorem apshCleanup_misused (status : ExitStatus) :
    Endings.Maintains Misused (apshCleanup status) :=
  cleanup_misused.bind fun _ => (release_misused _ _).bind fun _ => .pure _

theorem telemetryCleanup_misused (enabled : Bool) (status : ExitStatus) :
    Endings.Maintains Misused (telemetryCleanup enabled status) := by
  have hdestroy : Endings.Maintains Misused telemetryDestroy :=
    (release_misused _ _).bind fun _ => release_misused _ _
  have hrest : Endings.Maintains Misused (do
      handles (Table.release [.attestation] .processes)
      apshCleanup status) := (release_misused _ _).bind fun _ => apshCleanup_misused status
  unfold telemetryCleanup
  split
  · exact hdestroy.bind fun _ => hrest
  · exact hrest

theorem attest_misused (enabled : Bool) (event : AttestationEvent) (scans : List Scan) :
    Endings.Maintains Misused (attest enabled event scans) := by
  have hwrite : ∀ entry, Endings.Maintains Misused (write entry) := fun _ => .modify fun _ h => h
  induction scans generalizing event with
  | nil => exact .pure _
  | cons scan scans ih =>
    apply (use_misused _).bind
    intro _
    refine Endings.Maintains.bind ?_ fun _ => ?_
    · unfold sendTelemetry
      split
      · apply (useStarted_misused _).bind
        intro _
        exact (hwrite _).ite (.pure ())
      · exact .pure ()
    · apply Endings.Maintains.ite
      · apply (hwrite _).bind
        intro _
        apply (release_misused _ _).bind
        intro _
        exact telemetryCleanup_misused enabled .failure
      · apply (hwrite _).bind
        intro _
        exact ih _

theorem inspect_misused (lib : Library) (pid : Int) (scans : List Scan) :
    Endings.Maintains Misused (inspect lib pid scans) := by
  apply (telemetryStart_misused lib).succeeded.bind
  intro enabled
  apply (use_misused _).bind
  intro _
  split
  · exact .pure _
  · apply (call_misused lib _ _).succeeded.bind
    intro attested
    apply Endings.Maintains.ite
    · exact (create_misused _).bind fun _ => attest_misused ..
    · exact telemetryCleanup_misused enabled .failure

/-- Looking for the process without a system gives the library a handle that is not there. -/
theorem getProcessByPid_lost (lib : Library) (pid : Int) :
    Endings.Settles (getProcessByPid lib pid) Misused base := by
  have hcleaned : ∀ {x : AgentM Unit}, Endings.Maintains Misused x →
      Endings.Maintains Misused (orCleanUp x) := fun hx =>
    hx.handled fun err => cleanup_misused.bind fun _ => .throw err
  refine Endings.ends_bind.mpr ((Endings.ends_of_ok (handles_run _)).mpr ?_)
  refine Endings.Maintains.settles ?_ _ rfl
  apply (hcleaned (call_misused lib _ _)).bind
  intro _
  apply (create_misused _).bind
  intro _
  apply Endings.Maintains.ite
  · exact .pure ()
  · apply (release_misused _ _).bind
    intro _
    exact cleanup_misused.bind fun _ => .throw _

theorem runAgent_lost (lib : Library) (pid : Int) (scans : List Scan)
    (hinit : appShieldAgentInit lib base = .ok () base) :
    Endings.Settles (runAgent lib pid scans) Misused base := by
  refine Endings.ends_bind.mpr ((Endings.ends_of_ok (succeeded_ok hinit)).mpr ?_)
  rw [if_pos rfl]
  have hlost := getProcessByPid_lost lib pid
  cases hrun : getProcessByPid lib pid base with
  | ok _ t =>
    refine Endings.ends_bind.mpr ((Endings.ends_of_ok (succeeded_ok hrun)).mpr ?_)
    rw [if_pos rfl]
    exact (inspect_misused lib pid scans).settles t (hlost.ok hrun)
  | error err t =>
    refine Endings.ends_bind.mpr ((Endings.ends_of_ok (succeeded_error hrun)).mpr ?_)
    rw [if_neg Bool.false_ne_true]
    exact (apshCleanup_misused .failure).settles t (hlost.error hrun)

/-- What the agent comes to once its process is known. -/
theorem inspect_ended (lib : Library) (pid : Int) (scans : List Scan) :
    ∃ ending t, inspect lib pid scans withProcesses = .ok ending t ∧
      if lib.processComm = none then ending = .aborted
      else t.misused = false ∧
        if lib.fails .attestationGet then ending = .exited .failure ∧ t.live = [] ∧ passed t.log = 0
        else passed t.log = (scans.takeWhile fun scan => decide (Passes scan)).length ∧
          if ∀ scan ∈ scans, Passes scan then ending = .running
          else ending = .exited .failure ∧ t.live = [] := by
  obtain ⟨enabled, htelemetry⟩ : ∃ enabled,
      succeeded (telemetryStart lib) withProcesses = .ok enabled (withTelemetry enabled) := by
    rcases telemetryStart_ended lib with hrun | ⟨err, hrun⟩
    · exact ⟨true, succeeded_ok hrun⟩
    · exact ⟨false, succeeded_error hrun⟩
  have huse : handles (Table.use [.processes]) (withTelemetry enabled) =
      .ok () (withTelemetry enabled) := by cases enabled <;> rfl
  unfold inspect
  rw [Command.run_bind htelemetry, Command.run_bind huse]
  cases hcomm : lib.processComm with
  | none => exact ⟨_, _, rfl, by simp⟩
  | some comm =>
    dsimp only
    cases hget : lib.result .attestationGet with
    | some err =>
      have hcall : call lib .attestationGet [.processes] (withTelemetry enabled) =
          .error err (withTelemetry enabled) := by
        cases enabled <;> simp [hget, withTelemetry, withProcesses]
      rw [Command.run_bind (succeeded_error hcall), if_neg Bool.false_ne_true]
      have hcleanup := telemetryCleanup_eq enabled .failure []
      have hlog : ({ withTelemetry enabled with log := [] } : Agent) = withTelemetry enabled := by
        cases enabled <;> rfl
      rw [hlog] at hcleanup
      refine ⟨_, _, hcleanup, ?_⟩
      simp [Library.fails, hget, ended, passed]
    | none =>
      have hcall : call lib .attestationGet [.processes] (withTelemetry enabled) =
          .ok () (withTelemetry enabled) := by
        cases enabled <;> simp [hget, withTelemetry, withProcesses]
      have hcreate : handles (Table.create .attestation) (withTelemetry enabled) =
          .ok () (attesting enabled []) := by cases enabled <;> rfl
      rw [Command.run_bind (succeeded_ok hcall), if_pos rfl, Command.run_bind hcreate]
      obtain ⟨ending, t, hend, hproper, hcount, hstatus⟩ := attest_ended enabled
        { timestamp := none, pid, result := false, scanCount := 0, path := comm.take maxPathLen }
        scans []
      refine ⟨ending, t, hend, ?_⟩
      simpa [Library.fails, hget, hproper, passed] using And.intro hcount hstatus

theorem main_refused (h : ∃ c ∈ commandCalls, lib.fails c = true) (pid : Int) (scans : List Scan) :
    main lib pid scans .initial = .ok (.exited .failure) .initial := by
  simp only [commandCalls, List.exists_mem_cons_iff, List.not_mem_nil, false_and, exists_false,
    or_false] at h
  unfold main
  cases hfront : lib.fails .logStandard || lib.fails .logSdk || lib.fails .logSetLevel ||
      lib.fails .argpInit with
  | true => rfl
  | false =>
    simp only [Bool.or_eq_false_iff] at hfront
    have hparams : (lib.fails .registerParams || lib.fails .argpStart) = true := by
      simpa [hfront] using h
    simp [hparams, Agent.initial, Table.empty]

theorem main_started (h : ∀ c ∈ commandCalls, lib.fails c = false) (pid : Int) (scans : List Scan) :
    main lib pid scans .initial = runAgent lib pid scans base := by
  simp only [commandCalls, List.forall_mem_cons] at h
  simp [main, h, base, Agent.initial, Table.empty]

/-- A run that could not be prepared, and has given everything back. -/
theorem failsClosed_of_failed (h : ¬ Prepared lib pid) (scans : List Scan) {t : Agent}
    (hproper : t.misused = false) (hlive : t.live = []) (hlog : passed t.log = 0) :
    FailsClosed lib pid scans (.exited .failure) t where
  proper := hproper
  pass k hk := by
    rw [hlog] at hk
    exact absurd hk (Nat.not_lt_zero k)
  onFirst hprepared := absurd hprepared h
  goesOn hprepared := absurd hprepared h
  status _ := rfl
  released _ _ := hlive

/-- The agent fails closed, over these scans of a run. -/
def AgentFailsClosed (lib : Library) (pid : Int) (scans : List Scan) : Prop :=
  ∃ ending t, main lib pid scans .initial = .ok ending t ∧ FailsClosed lib pid scans ending t

theorem not_prepared {c : Call} (hmem : c ∈ nextCalls ++ [.attestationGet])
    (hc : lib.fails c = true) : ¬ Prepared lib pid := by
  intro h
  have hok := h.calls c hmem
  rw [hc] at hok
  cases hok

/-- Nothing was asked for after a step that failed early. -/
theorem nothingMissing_of_first {c : Call} (hmem : c ∈ firstCalls) (hc : lib.fails c = true) :
    NothingMissing lib pid := by
  have hnot : ¬ ∀ c ∈ firstCalls, lib.fails c = false := by
    intro h
    rw [h c hmem] at hc
    cases hc
  refine ⟨fun h => absurd h hnot, fun h _ => absurd ?_ hnot⟩
  intro c hfirst
  apply h c
  simp [nextCalls, hfirst]

theorem runAgent_refused {err : DocaError} (h : appShieldAgentInit lib base = .error err base)
    (pid : Int) (scans : List Scan) :
    runAgent lib pid scans base = .ok (.exited .failure) (ended []) := by
  unfold runAgent
  rw [Command.run_bind (succeeded_error h), if_neg Bool.false_ne_true]
  rfl

theorem runAgent_found (hinit : appShieldAgentInit lib base = .ok () withSys)
    (hfound : getProcessByPid lib pid withSys = .ok () withProcesses) :
    runAgent lib pid scans base = inspect lib pid scans withProcesses := by
  unfold runAgent
  rw [Command.run_bind (succeeded_ok hinit), if_pos rfl, Command.run_bind (succeeded_ok hfound),
    if_pos rfl]

theorem runAgent_notFound {err : DocaError} (hinit : appShieldAgentInit lib base = .ok () withSys)
    (hfound : getProcessByPid lib pid withSys = .error err base) :
    runAgent lib pid scans base = .ok (.exited .failure) (ended []) := by
  unfold runAgent
  rw [Command.run_bind (succeeded_ok hinit), if_pos rfl, Command.run_bind (succeeded_error hfound),
    if_neg Bool.false_ne_true]
  rfl

/-- A run that got as far as its scans. -/
theorem failsClosed_of_prepared (h : Prepared lib pid) {ending : Ending} {t : Agent}
    (hproper : t.misused = false)
    (hcount : passed t.log = (scans.takeWhile fun scan => decide (Passes scan)).length)
    (hstatus : if ∀ scan ∈ scans, Passes scan then ending = .running
      else ending = .exited .failure ∧ t.live = []) : FailsClosed lib pid scans ending t where
  proper := hproper
  pass k hk := by
    rw [hcount] at hk
    have hprefix := List.takeWhile_prefix (fun scan => decide (Passes scan)) (l := scans)
    refine ⟨h, hk.trans_le hprefix.length_le, ?_⟩
    intro scan hscan
    have htake : scans.take (k + 1) <+: scans.takeWhile fun scan => decide (Passes scan) :=
      List.prefix_of_prefix_length_le (List.take_prefix _ _) hprefix
        ((List.length_take_le ..).trans hk)
    simpa using List.mem_takeWhile_imp (htake.subset hscan)
  onFirst _ := hcount
  goesOn _ hall := by rwa [if_pos hall] at hstatus
  status hnot := by
    rw [if_neg fun hall => hnot ⟨h, hall⟩] at hstatus
    exact hstatus.1
  released status hexit := by
    split at hstatus
    · rw [hstatus] at hexit
      cases hexit
    · exact hstatus.2

/-- After the command line: nothing is missing, or the agent does not fail closed. -/
theorem runAgent_iff (hcommand : ∀ c ∈ commandCalls, lib.fails c = false) (pid : Int)
    (scans : List Scan) : (∃ ending t, runAgent lib pid scans base = .ok ending t ∧
      FailsClosed lib pid scans ending t) ↔ NothingMissing lib pid := by
  rcases apshCtxInit_ended lib with ⟨hctx, hctxCalls⟩ | ⟨⟨err, hctx⟩, c, hc, hfails⟩
  · by_cases hlost : lib.fails .systemDeviceOpen = false ∧ lib.fails .systemCreate = true
    · have hinit : appShieldAgentInit lib base = .ok () base :=
        (Command.run_bind hctx).trans (apshSystemInit_lost hlost.1 hlost.2)
      refine iff_of_false ?_ ?_
      · rintro ⟨ending, t, hrun, hclosed⟩
        have hmisused : t.misused = true := (runAgent_lost lib pid scans hinit).ok hrun
        rw [hclosed.proper] at hmisused
        cases hmisused
      · intro h
        have hfirst : ∀ c ∈ firstCalls, lib.fails c = false := by
          simp only [firstCalls, List.forall_mem_append, List.forall_mem_singleton]
          exact ⟨⟨hcommand, hctxCalls⟩, hlost.1⟩
        have hcreate := h.system hfirst
        rw [hlost.2] at hcreate
        cases hcreate
    have hkept : lib.fails .systemDeviceOpen = false → lib.fails .systemCreate = false := by
      intro hopen
      simpa [hopen] using hlost
    have hsystem : (∀ c ∈ firstCalls, lib.fails c = false) → lib.fails .systemCreate = false :=
      fun h => hkept (h _ (by simp [firstCalls]))
    rcases apshSystemInit_ended hkept with ⟨hsys, hsysCalls⟩ | ⟨⟨err, hsys⟩, c, hc, hfails⟩
    · have hinit : appShieldAgentInit lib base = .ok () withSys :=
        (Command.run_bind hctx).trans hsys
      have hopen := hsysCalls _ List.mem_cons_self
      rcases getProcessByPid_ended lib pid with ⟨hfound, hget, hpid⟩ | ⟨⟨err, hfound⟩, hnone⟩
      · have hnext : ∀ c ∈ nextCalls, lib.fails c = false := by
          simp only [nextCalls, firstCalls, List.forall_mem_append, List.forall_mem_cons,
            List.not_mem_nil, false_implies, implies_true, and_true]
          exact ⟨⟨⟨⟨hcommand, hctxCalls⟩, hopen⟩, hkept hopen,
            fun c hc => hsysCalls c (List.mem_cons_of_mem _ hc)⟩, hget⟩
        rw [runAgent_found hinit hfound]
        obtain ⟨ending, t, hrun, hend⟩ := inspect_ended lib pid scans
        by_cases hcomm : lib.processComm = none
        · rw [if_pos hcomm] at hend
          refine iff_of_false ?_ fun h => h.comm hnext hpid hcomm
          rintro ⟨ending', t', hrun', hclosed⟩
          rw [hrun] at hrun'
          cases hrun'
          by_cases hall : Prepared lib pid ∧ ∀ scan ∈ scans, Passes scan
          · exact nomatch hend.symm.trans (hclosed.goesOn hall.1 hall.2)
          · exact nomatch hend.symm.trans (hclosed.status hall)
        · rw [if_neg hcomm] at hend
          refine iff_of_true ⟨ending, t, hrun, ?_⟩ ⟨hsystem, fun _ _ => hcomm⟩
          obtain ⟨hproper, hend⟩ := hend
          cases hattest : lib.fails .attestationGet with
          | true =>
            rw [hattest, if_pos rfl] at hend
            obtain ⟨rfl, hlive, hlog⟩ := hend
            exact failsClosed_of_failed (not_prepared (by simp) hattest) scans hproper hlive hlog
          | false =>
            rw [hattest, if_neg Bool.false_ne_true] at hend
            refine failsClosed_of_prepared ⟨?_, hpid⟩ hproper hend.1 hend.2
            simpa only [List.forall_mem_append, List.forall_mem_singleton] using ⟨hnext, hattest⟩
      · refine iff_of_true ⟨_, _, runAgent_notFound hinit hfound, ?_⟩ ⟨hsystem, ?_⟩
        · refine failsClosed_of_failed ?_ scans rfl rfl rfl
          rcases hnone with hfails | hpid
          · exact not_prepared (by simp [nextCalls]) hfails
          · exact fun h => hpid h.process
        · intro hnext hpid
          rcases hnone with hfails | hnot
          · have hget := hnext .processesGet (by simp [nextCalls])
            rw [hfails] at hget
            cases hget
          · exact absurd hpid hnot
    · have hinit : appShieldAgentInit lib base = .error err base :=
        (Command.run_bind hctx).trans hsys
      have hmem : c ∈ nextCalls := by
        rcases List.mem_cons.mp hc with rfl | hc
        · simp [nextCalls, firstCalls]
        · simp [nextCalls, hc]
      refine iff_of_true ⟨_, _, runAgent_refused hinit pid scans, ?_⟩ ⟨hsystem, ?_⟩
      · have hnot : ¬ Prepared lib pid := not_prepared (List.mem_append_left _ hmem) hfails
        exact failsClosed_of_failed hnot scans rfl rfl rfl
      · intro hnext
        have hok := hnext c hmem
        rw [hfails] at hok
        cases hok
  · have hinit : appShieldAgentInit lib base = .error err base := Command.run_bind_error hctx
    have hmem : c ∈ firstCalls := by simp [firstCalls, hc]
    refine iff_of_true ⟨_, _, runAgent_refused hinit pid scans, ?_⟩
      (nothingMissing_of_first hmem hfails)
    exact failsClosed_of_failed (not_prepared (by simp [nextCalls, hmem]) hfails) scans rfl rfl rfl

theorem agentFailsClosed_iff (lib : Library) (pid : Int) (scans : List Scan) :
    AgentFailsClosed lib pid scans ↔ NothingMissing lib pid := by
  unfold AgentFailsClosed
  by_cases hcommand : ∀ c ∈ commandCalls, lib.fails c = false
  · rw [main_started hcommand]
    exact runAgent_iff hcommand pid scans
  · simp only [not_forall, Bool.not_eq_false] at hcommand
    obtain ⟨c, hc, hfails⟩ := hcommand
    have hmem : c ∈ firstCalls := by simp [firstCalls, hc]
    refine iff_of_true ⟨_, _, main_refused ⟨c, hc, hfails⟩ pid scans, ?_⟩
      (nothingMissing_of_first hmem hfails)
    exact failsClosed_of_failed (not_prepared (by simp [nextCalls, hmem]) hfails) scans rfl rfl rfl

/-- A library that cannot create a system, and does everything else. -/
def noSystem : Library :=
  { result := fun c => if c = .systemCreate then some .unexpected else none
    processIds := [7]
    processComm := some [97] }

theorem lost_handles_used : ¬ AgentFailsClosed noSystem 7 [] := by
  rintro ⟨ending, t, hrun, hclosed⟩
  have hmain : ∃ t, main noSystem 7 [] .initial = .ok .running t ∧ t.misused = true := ⟨_, rfl, rfl⟩
  obtain ⟨t', hrun', hmisused⟩ := hmain
  rw [hrun] at hrun'
  cases hrun'
  rw [hclosed.proper] at hmisused
  cases hmisused

end DocaApps.Proofs.AppShield
