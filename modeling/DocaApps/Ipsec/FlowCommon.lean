import DocaApps.Lib.Command
import DocaApps.Ipsec.Encap

namespace DocaApps.Ipsec.FlowCommon
open Common.Pack Rules Encap

/-- `QUEUE_DEPTH`. -/
def queueDepth : Int := 512

/-- The pipes of `struct encrypt_pipes` and `struct decrypt_pipes` that get entries. -/
inductive Pipe where
  | ipv4Encrypt | ipv6Encrypt | ipv4Tcp | ipv4Udp | ipv6Tcp | ipv6Udp | ipv6SrcTcp | ipv6SrcUdp
  | decryptIpv4 | decryptIpv6 | syndromeIpv4 | syndromeIpv6 | badSyndromeIpv4 | badSyndromeIpv6
  deriving DecidableEq, Repr

/-- The fields of `struct doca_flow_match` that the gateway sets. The ports are those
of the TCP or UDP header, whichever `outerL4TypeExt` names; they and the SPI are kept
in host order. -/
structure Match where
  pktMeta : BitVec 32
  metaU32 : BitVec 32
  ipsecSyndrome : BitVec 8
  outerL3Type : L3Type
  outerL4TypeExt : L4TypeExt
  outerSrcPort : BitVec 16
  outerDstPort : BitVec 16
  outerIp4Src : BitVec 32
  outerIp4Dst : BitVec 32
  outerIp6Src : Ip6Addr
  outerIp6Dst : Ip6Addr
  tunEsp : Bool
  tunEspSpi : BitVec 32
  deriving DecidableEq, Repr

def Match.zero : Match :=
  ⟨0, 0, 0, .none, .none, 0, 0, 0, 0, zeroAddr, zeroAddr, false, 0⟩

/-- The fields of `struct doca_flow_actions` that the gateway sets. -/
structure Actions where
  actionIdx : Nat
  pktMeta : BitVec 32
  metaU32 : BitVec 32
  cryptoId : BitVec 32
  cryptoEncap : CryptoEncap
  deriving DecidableEq, Repr

def Actions.zero : Actions := ⟨0, 0, 0, 0, ⟨[], 0, 0⟩⟩

/-- `SET_L4_PORT`: nothing is set for any other transport. -/
def Match.setL4Ports (m : Match) (src dst : BitVec 16) : Match :=
  if m.outerL4TypeExt = .tcp ∨ m.outerL4TypeExt = .udp then
    { m with outerSrcPort := src, outerDstPort := dst }
  else m

/-- A row of a pipe; a null actions pointer is `none`. -/
structure Entry where
  pipe : Pipe
  matching : Match
  actions : Option Actions
  deriving DecidableEq, Repr

inductive Flags where
  | noWait | waitForBatch
  deriving DecidableEq, Repr

/-- The `struct entries_status` variable an entry reports to. -/
inductive StatusCtx where
  | hairpin | encrypt | decrypt
  deriving DecidableEq, Repr

structure EntriesStatus where
  failure : Bool
  nbProcessed : Int
  entriesInQueue : Int
  deriving DecidableEq, Repr

def EntriesStatus.zero : EntriesStatus := ⟨false, 0, 0⟩

/-- `check_for_valid_entry` for one added entry. -/
def checkForValidEntry (success : Bool) (st : EntriesStatus) : EntriesStatus :=
  { failure := st.failure || !success
    nbProcessed := st.nbProcessed + 1
    entriesInQueue := st.entriesInQueue - 1 }

inductive Port where
  | secured | unsecured | switch
  deriving DecidableEq, Repr

/-- A call into the libraries below the gateway. -/
inductive LibCall where
  | pipeAddEntry (entry : Entry) (flags : Flags) (ctx : StatusCtx)
  | entriesProcess (port : Port) (maxProcessed : Int)
  | sharedResourceCfg (id : BitVec 32) (sa : Sa)
  | sharedResourcesBind (id : BitVec 32) (port : Port)
  | saCreateAllocateInit (attrs : SaAttrs) (fullOffload : Bool)
  | taskSubmit
  | taskGetStatus
  deriving DecidableEq, Repr

/-- What a library answers to one call: its result, the entries whose callback it ran
(for a processing call) and the new SA (for a finished creation). -/
structure Outcome where
  error : Option DocaError
  completions : List (StatusCtx × Bool)
  sa : Sa
  deriving DecidableEq, Repr

/-- The part of the running gateway the rule installation works on. `trace` holds the
library calls with their results; `outcomes` are the answers to the next calls, and
when it is used up every call succeeds and completes all it can. -/
structure Gateway where
  trace : List (LibCall × Option DocaError)
  outcomes : List Outcome
  hairpinStatus : EntriesStatus
  encryptStatus : EntriesStatus
  decryptStatus : EntriesStatus
  ip6Table : List (Ip6Addr × Nat)
  encryptRules : List EncryptRule
  decryptRules : List DecryptRule
  nbEncryptedRules : Nat
  nbDecryptedRules : Nat
  nbRules : Nat
  deriving DecidableEq, Repr

abbrev Cmd := EStateM DocaError Gateway

def Gateway.status (g : Gateway) : StatusCtx → EntriesStatus
  | .hairpin => g.hairpinStatus
  | .encrypt => g.encryptStatus
  | .decrypt => g.decryptStatus

def Gateway.setStatus (g : Gateway) (ctx : StatusCtx) (st : EntriesStatus) : Gateway :=
  match ctx with
  | .hairpin => { g with hairpinStatus := st }
  | .encrypt => { g with encryptStatus := st }
  | .decrypt => { g with decryptStatus := st }

/-- The rows a successful call added, oldest first. -/
def addedEntry : LibCall × Option DocaError → Option Entry
  | (.pipeAddEntry entry _ _, none) => some entry
  | _ => none

/-- The contents of all pipes. -/
def Gateway.table (g : Gateway) : List Entry := g.trace.filterMap addedEntry

/-- One library call; its answer is read off `outcomes`. -/
def libCall (c : LibCall) : Cmd Outcome := fun g =>
  let completeAll := fun (ctx : StatusCtx) =>
    List.replicate (g.status ctx).entriesInQueue.toNat (ctx, true)
  let answer := g.outcomes.headD
    ⟨none, completeAll .hairpin ++ completeAll .encrypt ++ completeAll .decrypt,
      some g.trace.length⟩
  .ok answer { g with trace := g.trace ++ [(c, answer.error)], outcomes := g.outcomes.tail }

/-- A call of which only the result is used. -/
def libCheck (c : LibCall) : Cmd Unit := do
  let answer ← libCall c
  match answer.error with
  | some e => throw e
  | none => pure ()

/-- `doca_flow_pipe_add_entry`. -/
def pipeAddEntry (pipe : Pipe) (m : Match) (actions : Option Actions) (flags : Flags)
    (ctx : StatusCtx) : Cmd Unit :=
  libCheck (.pipeAddEntry ⟨pipe, m, actions⟩ flags ctx)

def enqueued (n : Int) (ctx : StatusCtx) : Cmd Unit :=
  modify fun g =>
    g.setStatus ctx { g.status ctx with entriesInQueue := (g.status ctx).entriesInQueue + n }

/-- `doca_flow_entries_process`: the callbacks run before the result is returned. -/
def entriesProcess (port : Port) (maxProcessed : Int) : Cmd Unit := do
  let answer ← libCall (.entriesProcess port maxProcessed)
  modify fun g => answer.completions.foldl
    (fun g (ctx, success) => g.setStatus ctx (checkForValidEntry success (g.status ctx))) g
  match answer.error with
  | some e => throw e
  | none => pure ()

/-- `process_entries`. -/
def processEntries (port : Port) (ctx : StatusCtx) : Cmd Unit := do
  entriesProcess port ((← get).status ctx).entriesInQueue
  let st := (← get).status ctx
  if st.failure = true ∨ st.entriesInQueue = queueDepth then throw .badState

/-- The call of `process_entries` that the loops make when the queue is full. -/
def processIf (full : Prop) [Decidable full] (port : Port) (ctx : StatusCtx) : Cmd Unit :=
  if full then processEntries port ctx else pure ()

/-- `do process_entries while (entries_in_queue > 0)`, bounded by the answers left:
after the last of them a call completes everything. -/
def drainLoop (port : Port) (ctx : StatusCtx) : Nat → Cmd Unit
  | 0 => processEntries port ctx
  | n + 1 => do
    processEntries port ctx
    if ((← get).status ctx).entriesInQueue > 0 then drainLoop port ctx n

def drain (port : Port) (ctx : StatusCtx) : Cmd Unit := do
  drainLoop port ctx (← get).outcomes.length

/-- `create_ipsec_encrypt_shared_object` and `create_ipsec_decrypt_shared_object`, which
differ only in the domain they set. -/
def createIpsecSharedObject (port : Port) (sa : Sa) (ipsecId : BitVec 32) : Cmd Unit := do
  libCheck (.sharedResourceCfg ipsecId sa)
  libCheck (.sharedResourcesBind ipsecId port)

/-- `ipsec_security_gw_create_ipsec_sa`. The pointer is stored even when the task
failed. -/
def createIpsecSa (cfg : Config) (attrs : SaAttrs) (store : Sa → Gateway → Gateway) :
    Cmd Sa := do
  let fullOffload :=
    (attrs.direction = .ingressDecrypt ∧ cfg.swAntireplay = false) ∨
    (attrs.direction = .egressEncrypt ∧ cfg.swSnIncEnable = false)
  libCheck (.saCreateAllocateInit attrs (decide fullOffload))
  libCheck .taskSubmit
  let answer ← libCall .taskGetStatus
  modify (store answer.sa)
  match answer.error with
  | some e => throw e
  | none => pure answer.sa

def securedPort (cfg : Config) : Port := if cfg.flowMode = .switch then .switch else .secured

def unsecuredPort (cfg : Config) : Port := if cfg.flowMode = .switch then .switch else .unsecured

def setEncryptSa (i : Nat) (sa : Sa) (g : Gateway) : Gateway :=
  { g with encryptRules := g.encryptRules.modify i (fun r => { r with sa }) }

def setDecryptSa (i : Nat) (sa : Sa) (g : Gateway) : Gateway :=
  { g with decryptRules := g.decryptRules.modify i (fun r => { r with sa }) }

end DocaApps.Ipsec.FlowCommon
