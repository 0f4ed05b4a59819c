import DocaApps.Doca
import DocaApps.Lib.FirstStop
import DocaApps.Lib.Handles

namespace DocaApps.AppShield
open Lib.Handles Lib.Command

def maxPathLen : Nat := 260

/-- What the agent and the libraries under it hand out. -/
inductive Handle where
  | argp | ctx | dmaDevice | systemDevice | sys | processes | attestation
  | schema | type | field (idx : Nat) | source
  deriving DecidableEq, Repr

/-- The calls that can fail before the first scan. -/
inductive Call where
  | logStandard | logSdk | logSetLevel | argpInit | registerParams | argpStart
  | apshCreate | dmaDeviceOpen | dmaDevSet | apshStart
  | systemDeviceOpen | systemCreate | osSymbolMapSet | memRegionSet | sysDevSet | osTypeSet
  | systemStart | processesGet | attestationGet
  | schemaInit | typeCreate | fieldCreate (idx : Nat) | addField (idx : Nat) | addType
  | schemaStart | sourceCreate | gethostname | sourceStart
  deriving DecidableEq, Repr

/-- How the calls before the first scan end: the processes found, with their ids, and the name
given for the process under test, which may be missing. -/
structure Library where
  result : Call → Option DocaError
  processIds : List Int
  processComm : Option (List UInt8)

def Library.fails (lib : Library) (c : Call) : Bool := (lib.result c).isSome

/-- One scan: whether the refresh succeeded, the present pages and the matching hashes of each file,
and how the calls for telemetry end. -/
structure Scan where
  refreshed : Bool
  files : List (Nat × Nat)
  timestamp : Option Nat
  reported : Bool

/-- `struct attestation_event`. -/
structure AttestationEvent where
  timestamp : Option Nat
  pid : Int
  result : Bool
  scanCount : Nat
  path : List UInt8
  deriving DecidableEq, Repr

inductive Entry where
  | attestationPass | attestationFailed
  | report (event : AttestationEvent)
  deriving DecidableEq, Repr

/-- The handles, which pointers of `struct apsh_resources` are not `NULL`, and what the agent has
logged and reported. -/
structure Agent extends Table Handle where
  ctx : Bool
  sys : Bool
  systemDevice : Bool
  dmaDevice : Bool
  log : List Entry
  deriving DecidableEq, Repr

def Agent.initial : Agent :=
  { Table.empty with
    ctx := false, sys := false, systemDevice := false, dmaDevice := false, log := [] }

inductive ExitStatus where
  | success | failure
  deriving DecidableEq, Repr

/-- Where a run stands after the scans it was given. -/
inductive Ending where
  | running
  | exited (status : ExitStatus)
  | aborted
  deriving DecidableEq, Repr

abbrev AgentM := EStateM DocaError Agent

def handles (f : Table Handle → Table Handle) : AgentM Unit :=
  modify fun s => { s with toTable := f s.toTable }

def write (entry : Entry) : AgentM Unit := modify fun s => { s with log := s.log ++ [entry] }

variable (lib : Library)

/-- A call on these handles. -/
def call (c : Call) (hs : List Handle) : AgentM Unit := do
  handles (Table.use hs)
  match lib.result c with
  | some err => throw err
  | none => return

/-- A call that only tells that it failed. -/
def callOr (c : Call) (err : DocaError) : AgentM Unit := do
  if lib.fails c then throw err

/-- Only a pointer that is not `NULL` is released. -/
def ifSet (pointer : Agent → Bool) (x : AgentM Unit) : AgentM Unit := do
  if pointer (← get) then x

def appShieldAgentCleanup : AgentM Unit := do
  ifSet Agent.sys do
    handles (Table.release [.processes, .attestation] .sys)
    modify fun s => { s with sys := false }
  ifSet Agent.ctx do
    handles (Table.release [.sys] .ctx)
    modify fun s => { s with ctx := false }
  ifSet Agent.dmaDevice do
    handles (Table.release [.ctx, .sys] .dmaDevice)
    modify fun s => { s with dmaDevice := false }
  ifSet Agent.systemDevice do
    handles (Table.release [.sys] .systemDevice)
    modify fun s => { s with systemDevice := false }

/-- A step of the initialisation: its failure frees everything. -/
def orCleanUp (x : AgentM Unit) : AgentM Unit :=
  tryCatch x fun err => do
    appShieldAgentCleanup
    throw err

def apshCtxInit : AgentM Unit := do
  callOr lib .apshCreate .initialization
  handles (Table.create .ctx)
  modify fun s => { s with ctx := true }
  orCleanUp (call lib .dmaDeviceOpen [])
  handles (Table.create .dmaDevice)
  modify fun s => { s with dmaDevice := true }
  orCleanUp (call lib .dmaDevSet [.ctx, .dmaDevice])
  orCleanUp (call lib .apshStart [.ctx])
  handles (Table.start .ctx)

/-- When no system can be created the function returns the result of the call before, which is
`DOCA_SUCCESS`. -/
def apshSystemInit : AgentM Unit := do
  orCleanUp (call lib .systemDeviceOpen [.dmaDevice])
  handles (Table.create .systemDevice)
  modify fun s => { s with systemDevice := true }
  handles (Table.useStarted .ctx)
  if lib.fails .systemCreate then
    appShieldAgentCleanup
    return
  handles (Table.create .sys)
  modify fun s => { s with sys := true }
  orCleanUp (call lib .osSymbolMapSet [.sys])
  orCleanUp (call lib .memRegionSet [.sys])
  orCleanUp (call lib .sysDevSet [.sys, .systemDevice])
  orCleanUp (call lib .osTypeSet [.sys])
  orCleanUp (call lib .systemStart [.sys])
  handles (Table.start .sys)

def appShieldAgentInit : AgentM Unit := do
  apshCtxInit lib
  apshSystemInit lib

def getProcessByPid (pid : Int) : AgentM Unit := do
  handles (Table.useStarted .sys)
  orCleanUp (call lib .processesGet [])
  handles (Table.create .processes)
  if lib.processIds.contains pid then return
  handles (Table.release [.attestation] .processes)
  appShieldAgentCleanup
  throw .notFound

/-- The fields of the attestation event, by their number. -/
def nbFields : Nat := 5

def addField (idx : Nat) : AgentM Unit := do
  tryCatch (call lib (.fieldCreate idx) []) fun err => do
    handles (Table.release [] .type)
    throw err
  handles (Table.create (.field idx))
  tryCatch (call lib (.addField idx) [.type, .field idx]) fun err => do
    handles (Table.release [] (.field idx))
    handles (Table.release [] .type)
    throw err
  handles (Table.handOver .type (.field idx))

def telemetryRegisterAttestEvent : AgentM Unit := do
  call lib .typeCreate []
  handles (Table.create .type)
  (List.range nbFields).forM (addField lib)
  tryCatch (call lib .addType [.schema, .type]) fun err => do
    handles (Table.release [] .type)
    throw err
  handles (Table.handOver .schema .type)

/-- The label `schema_error`. -/
def orSchemaError (x : AgentM Unit) : AgentM Unit :=
  tryCatch x fun err => do
    handles (Table.release [.source] .schema)
    throw err

/-- The label `source_error`, above the other. -/
def orSourceError (x : AgentM Unit) : AgentM Unit :=
  tryCatch x fun err => do
    handles (Table.release [] .source)
    handles (Table.release [.source] .schema)
    throw err

def telemetryStart : AgentM Unit := do
  call lib .schemaInit []
  handles (Table.create .schema)
  orSchemaError (telemetryRegisterAttestEvent lib)
  orSchemaError (call lib .schemaStart [.schema])
  handles (Table.start .schema)
  handles (Table.useStarted .schema)
  orSchemaError (call lib .sourceCreate [.schema])
  handles (Table.create .source)
  orSourceError (callOr lib .gethostname .operatingSystem)
  orSourceError (call lib .sourceStart [.source])
  handles (Table.start .source)

def telemetryDestroy : AgentM Unit := do
  handles (Table.release [] .source)
  handles (Table.release [.source] .schema)

/-- The label `apsh_cleanup`. -/
def apshCleanup (status : ExitStatus) : AgentM Ending := do
  appShieldAgentCleanup
  handles (Table.release [] .argp)
  return .exited status

/-- The label `telemetry_cleanup`. -/
def telemetryCleanup (telemetryEnabled : Bool) (status : ExitStatus) : AgentM Ending := do
  if telemetryEnabled then telemetryDestroy
  handles (Table.release [.attestation] .processes)
  apshCleanup status

/-- Whether a scan fails: no later file is looked at after the first that does not match. -/
def attFailure (scan : Scan) : Bool :=
  !scan.refreshed || scan.files.any fun file => file.1 != file.2

/-- A report is lost when the library refuses it. -/
def sendTelemetry (telemetryEnabled reported : Bool) (event : AttestationEvent) : AgentM Unit := do
  if telemetryEnabled then
    handles (Table.useStarted .source)
    if reported then write (.report event)

/-- A timestamp that cannot be taken leaves the one before. -/
def AttestationEvent.scanned (event : AttestationEvent) (scan : Scan) : AttestationEvent :=
  { event with timestamp := scan.timestamp <|> event.timestamp, result := attFailure scan }

def AttestationEvent.counted (event : AttestationEvent) (telemetryEnabled : Bool) :
    AttestationEvent :=
  if telemetryEnabled then { event with scanCount := (event.scanCount + 1) % 2 ^ 64 } else event

/-- The loop of `main`, over the scans of a part of a run. -/
def attest (telemetryEnabled : Bool) (event : AttestationEvent) : List Scan → AgentM Ending
  | [] => return .running
  | scan :: scans => do
    handles (Table.use [.attestation])
    let event := event.scanned scan
    sendTelemetry telemetryEnabled scan.reported event
    if attFailure scan then
      write .attestationFailed
      handles (Table.release [] .attestation)
      telemetryCleanup telemetryEnabled .failure
    else
      write .attestationPass
      attest telemetryEnabled (event.counted telemetryEnabled) scans

/-- `main` from the telemetry on, once the process is known. -/
def inspect (pid : Int) (scans : List Scan) : AgentM Ending := do
  let telemetryEnabled ← succeeded (telemetryStart lib)
  handles (Table.use [.processes])
  match lib.processComm with
  | none => return .aborted
  | some comm =>
    let event : AttestationEvent :=
      { timestamp := none, pid, result := false, scanCount := 0, path := comm.take maxPathLen }
    if ← succeeded (call lib .attestationGet [.processes]) then
      handles (Table.create .attestation)
      attest telemetryEnabled event scans
    else telemetryCleanup telemetryEnabled .failure

/-- `main` after the command line. -/
def runAgent (pid : Int) (scans : List Scan) : AgentM Ending := do
  if ← succeeded (appShieldAgentInit lib) then
    if ← succeeded (getProcessByPid lib pid) then inspect lib pid scans
    else apshCleanup .failure
  else
    handles (Table.release [] .argp)
    return .exited .failure

def main (pid : Int) (scans : List Scan) : AgentM Ending := do
  if lib.fails .logStandard || lib.fails .logSdk || lib.fails .logSetLevel ||
      lib.fails .argpInit then
    return .exited .failure
  handles (Table.create .argp)
  if lib.fails .registerParams || lib.fails .argpStart then
    handles (Table.release [] .argp)
    return .exited .failure
  runAgent lib pid scans

end DocaApps.AppShield
