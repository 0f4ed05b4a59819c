import Mathlib

namespace DocaApps.Grpc.Orchestrator

/-- `LIFETIME_CHECK_NUM_RETRIES` -/
def lifetimeCheckNumRetries : Nat := 3

/-- `k_DocaFlow`, the one value of `NAME_TO_PORT` -/
def docaFlowPort : Nat := 53000

/-- What the configuration gives one server: its address, the programs it may start, and the path
of every known program. -/
structure Config where
  ipAddr : String
  programs : List String
  path : String → String

structure Args where
  programName : String
  cmdline : String
  port : Nat
  deriving DecidableEq, Repr

inductive Request where
  | create (args : Args)
  | destroy (uid : String)
  deriving DecidableEq, Repr

structure Status where
  isError : Bool
  errorMsg : String
  deriving DecidableEq, Repr

structure RichStatus where
  uid : String
  errStatus : Status
  deriving DecidableEq, Repr

def nameToPort (programName : String) : Option Nat :=
  if programName = "doca_flow_grpc" then some docaFlowPort else none

def processUid (cfg : Config) (port : Nat) : String := cfg.ipAddr ++ ":" ++ toString port

/-- The command line of the process, with its address unless it is given a json file. -/
def cmdArgs (cfg : Config) (args : Args) (uid : String) : List String :=
  let requestArgs := args.cmdline.splitOn " "
  let json := requestArgs.length = 2 ∧ requestArgs.head? ∈ [some "-j", some "--json"]
  cfg.path args.programName :: requestArgs ++ if json then [] else ["--grpc-address", uid]

/-- The uid of the process that a request asks for, or why there is none. -/
def requestedUid (cfg : Config) (args : Args) : Except String String :=
  if args.programName ∉ cfg.programs then
    .error ("Unknown program name: " ++ args.programName)
  else if args.port = 0 then
    match nameToPort args.programName with
    | none => .error ("No known default network port for: " ++ args.programName)
    | some port => .ok (processUid cfg port)
  else .ok (processUid cfg args.port)

/-- An entry of `clients_db`: the address that the stub connects to, and the process. -/
structure Client where
  stub : String
  proc : Nat
  deriving DecidableEq, Repr

structure Process where
  uid : String
  args : List String
  running : Bool
  deriving DecidableEq, Repr

/-- Where a worker is: the access or the call it makes next. -/
inductive Task where
  | idle
  | createCheck (uid : String) (args : List String)
  | createSpawn (uid : String) (args : List String)
  | createHealth (uid : String) (proc attempt : Nat)
  | createStore (uid : String) (proc : Nat)
  | createPoll (uid : String) (proc attempt : Nat)
  | destroyCheck (uid : String)
  | destroyRead (uid : String)
  | destroyPop (uid : String) (client : Client)
  | destroyCall (uid : String) (client : Client)
  | destroyWait (uid : String) (proc attempt : Nat) (errorMsg : Option String)
  | destroyPoll (uid : String) (proc : Nat) (errorMsg : Option String)
  deriving DecidableEq, Repr

/-- How a request ended: with an answer and the process it spawned or took, or with an exception
of the spawn or of a missing key. -/
inductive Answer where
  | created (status : RichStatus) (proc : Option Nat)
  | destroyed (status : Status) (proc : Option Nat)
  | spawnError (uid : String)
  | keyError (uid : String)
  deriving DecidableEq, Repr

/-- A `pop` of a Destroy: what it had read, and the entry it removed. -/
structure Take where
  uid : String
  client : Client
  entry : Client
  deriving DecidableEq, Repr

/-- A server instance with its workers and the processes it spawned, by their number. The
answers, the stored processes and the pops are noted down; no function reads them. -/
structure Instance (W : Type) where
  clientsDb : String → Option Client := fun _ => none
  procs : List Process := []
  worker : W → Task := fun _ => .idle
  answers : List Answer := []
  registered : List Nat := []
  takes : List Take := []

variable {W : Type} [DecidableEq W]

/-- `proc.poll()` finds no return code. -/
def Instance.running (s : Instance W) (proc : Nat) : Prop :=
  (s.procs[proc]?.map Process.running) = some true

instance (s : Instance W) (proc : Nat) : Decidable (s.running proc) :=
  inferInstanceAs (Decidable (_ = _))

def Instance.goto (s : Instance W) (w : W) (task : Task) : Instance W :=
  { s with worker := Function.update s.worker w task }

def Instance.finish (s : Instance W) (w : W) (answer : Answer) : Instance W :=
  { s.goto w .idle with answers := s.answers ++ [answer] }

def Instance.spawn (s : Instance W) (uid : String) (args : List String) : Instance W :=
  { s with procs := s.procs ++ [⟨uid, args, true⟩] }

def Instance.store (s : Instance W) (uid : String) (proc : Nat) : Instance W :=
  { s with
    clientsDb := Function.update s.clientsDb uid (some ⟨uid, proc⟩)
    registered := s.registered ++ [proc] }

def Instance.pop (s : Instance W) (uid : String) (client entry : Client) : Instance W :=
  { s with
    clientsDb := Function.update s.clientsDb uid none
    takes := s.takes ++ [⟨uid, client, entry⟩] }

/-- A request reaches a worker that has none. -/
def take (cfg : Config) (w : W) (request : Request) (s : Instance W) : Instance W :=
  match s.worker w, request with
  | .idle, .create args =>
    match requestedUid cfg args with
    | .error msg => s.finish w (.created ⟨"", true, msg⟩ none)
    | .ok uid => s.goto w (.createCheck uid (cmdArgs cfg args uid))
  | .idle, .destroy uid => s.goto w (.destroyCheck uid)
  | _, _ => s

/-- The next access or call of a worker; `ok` says whether the spawn or the remote call
succeeds. -/
def act (w : W) (ok : Bool) (s : Instance W) : Instance W :=
  match s.worker w with
  | .idle => s
  | .createCheck uid args =>
    match s.clientsDb uid with
    | some _ =>
      s.finish w (.created ⟨"", true, "Process UID " ++ uid ++ " already exists"⟩ none)
    | none => s.goto w (.createSpawn uid args)
  | .createSpawn uid args =>
    if ok then (s.spawn uid args).goto w (.createHealth uid s.procs.length 0)
    else s.finish w (.spawnError uid)
  | .createHealth uid proc attempt =>
    if ok then s.goto w (.createStore uid proc) else s.goto w (.createPoll uid proc attempt)
  | .createStore uid proc =>
    (s.store uid proc).finish w (.created ⟨uid, false, ""⟩ (some proc))
  | .createPoll uid proc attempt =>
    if s.running proc ∧ attempt + 1 < lifetimeCheckNumRetries then
      s.goto w (.createHealth uid proc (attempt + 1))
    else s.finish w (.created ⟨uid, true, "Failed to spawn " ++ uid ++ "!"⟩ (some proc))
  | .destroyCheck uid =>
    match s.clientsDb uid with
    | none => s.finish w (.destroyed ⟨true, "Unknown Process UID: " ++ uid⟩ none)
    | some _ => s.goto w (.destroyRead uid)
  | .destroyRead uid =>
    match s.clientsDb uid with
    | none => s.finish w (.keyError uid)
    | some client => s.goto w (.destroyPop uid client)
  | .destroyPop uid client =>
    match s.clientsDb uid with
    | none => s.finish w (.keyError uid)
    | some entry => (s.pop uid client entry).goto w (.destroyCall uid client)
  | .destroyCall uid client =>
    s.goto w (.destroyWait uid client.proc 0
      (if ok then none else some ("Failed to destroy " ++ uid ++ ". Is it really running?")))
  | .destroyWait uid proc attempt errorMsg =>
    if s.running proc ∧ attempt + 1 < 2 then s.goto w (.destroyWait uid proc (attempt + 1) errorMsg)
    else s.goto w (.destroyPoll uid proc errorMsg)
  | .destroyPoll uid proc errorMsg =>
    let errorMsg := if s.running proc then some ("Failed to destroy " ++ uid ++ "!") else errorMsg
    s.finish w (.destroyed ⟨errorMsg.isSome, errorMsg.getD ""⟩ (some proc))

inductive Event (W : Type) where
  | take (w : W) (request : Request)
  | act (w : W) (ok : Bool)
  | exit (proc : Nat)

/-- A process exits: by itself, because it obeys `Destroy`, or because it is terminated. -/
def exit (proc : Nat) (s : Instance W) : Instance W :=
  { s with procs := s.procs.modify proc fun p => { p with running := false } }

def step (cfg : Config) (s : Instance W) : Event W → Instance W
  | .take w request => take cfg w request s
  | .act w ok => act w ok s
  | .exit proc => exit proc s

end DocaApps.Grpc.Orchestrator
