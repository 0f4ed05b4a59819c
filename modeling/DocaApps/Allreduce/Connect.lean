import DocaApps.Allreduce.Ucx

namespace DocaApps.Allreduce.Connect
open Ucx

def docaResult : Option DocaError → Int
  | none => 0
  | some .notPermitted => 2
  | some .notSupported => 4
  | some .again => 5
  | some .invalidValue => 6
  | some .noMemory => 7
  | some .initialization => 8
  | some .timeOut => 9
  | some .notConnected => 14
  | some .notFound => 16
  | some .ioFailed => 17
  | some .badState => 18
  | some .operatingSystem => 20
  | some .driver => 21
  | some .unexpected => 22

/-- `struct allreduce_ucx_connection`: its endpoint, and whether it keeps the address to connect
to again. -/
structure Connection where
  ep : Nat
  destinationAddress : Bool
  deriving DecidableEq, Repr

/-- An operation that was posted to UCX; `status` is `none` until it has completed. -/
structure Posted where
  op : UcxOp
  userData : Nat
  ep : Nat
  amId : Nat
  request : Option Nat
  status : Option UcsStatus
  deriving DecidableEq, Repr

def Posted.flying (k : Nat) (p : Posted) : Prop := p.request = some k ∧ p.status = none

instance (k : Nat) (p : Posted) : Decidable (p.flying k) :=
  inferInstanceAs (Decidable (_ ∧ _))

def Posted.complete (k : Nat) (status : UcsStatus) (p : Posted) : Posted :=
  if p.flying k then { p with status := some status } else p

/-- A connection that is not there was freed, and is in no hash table. -/
structure World where
  memory : Memory
  connections : Nat → Option Connection
  posted : List Posted

/-- What may happen inside a call of UCX: an operation completes, or a connection breaks and is
connected again, at `ep` if that works. -/
inductive Event where
  | completes (k : Nat) (status : UcsStatus)
  | breaks (connection : Nat) (ep : Option Nat)
  deriving DecidableEq, Repr

/-- The completion callback of a request runs. -/
def World.completes (w : World) (k : Nat) (status : UcsStatus) : Option World := do
  let p ← w.posted.find? (·.flying k)
  if status = .inProgress then none
  else do
    let after ← commonRequestCallback k status p.userData p.op w.memory
    let memory ← after.settle
    return { w with memory, posted := w.posted.map (·.complete k status) }

def errorCallback (w : World) (connection : Nat) (ep : Option Nat) : World :=
  match w.connections connection with
  | none => w
  | some c =>
    let again := if c.destinationAddress then ep.map (⟨·, true⟩) else none
    { w with connections := Function.update w.connections connection again }

def World.event (w : World) : Event → Option World
  | .completes k status => w.completes k status
  | .breaks connection ep => some (errorCallback w connection ep)

def World.events (w : World) : List Event → Option World
  | [] => some w
  | e :: es => do (← w.event e).events es

/-- What UCX does with a message: it is sent at once, it fails at once, or a request stands for
it, which may have completed before the call returns. -/
inductive Reply where
  | null
  | err (code : Nat)
  | request (k : Nat) (early : Option UcsStatus)
  deriving DecidableEq, Repr

/-- A call of `ucp_am_send_nbx`: what happens inside, and how it ends. -/
structure Post where
  events : List Event
  reply : Reply
  deriving DecidableEq, Repr

/-- There is no result when the connection was freed, or when UCX does not act so. -/
def ucpAmSendNbx (w : World) (connection amId : Nat) (post : Post) : Option (StatusPtr × World) :=
  match w.connections connection with
  | none => none
  | some c => do
    let w ← w.events post.events
    let sent request status : Posted := ⟨.amSend, connection, c.ep, amId, request, status⟩
    match post.reply with
    | .null => return (.null, { w with posted := w.posted ++ [sent none (some .ok)] })
    | .err code => return (.err code, { w with posted := w.posted ++ [sent none (some (.err code))] })
    | .request k early =>
      if k ∈ w.memory.taken then none
      else
        let w := { w with memory := w.memory.take k, posted := w.posted ++ [sent (some k) none] }
        match early with
        | none => return (.request k, w)
        | some status => return (.request k, ← w.completes k status)

/-- `am_send` without a callback. -/
def amSend (w : World) (connection amId : Nat) (logErr : Bool) (post : Post) :
    Option (Option DocaError × Option Nat × World) := do
  let (ptr, w) ← ucpAmSendNbx w connection amId post
  let processed ← requestProcess connection .amSend ptr none none logErr w.memory
  let memory ← processed.toAfter.settle
  return (processed.result, processed.requestP, { w with memory })

/-- `allreduce_ucx_am_send` without a callback, which it calls nevertheless when the connection
is not in the hash table. -/
def allreduceUcxAmSend (w : World) (connection amId : Nat) (post : Post) :
    Option (Option DocaError × Option Nat × World) :=
  match w.connections connection with
  | none => none
  | some _ => amSend w connection amId true post

/-- The loop of `allreduce_ucx_request_wait`; each element of `rounds` is what happens in one
call of `allreduce_ucx_progress`. -/
def waitLoop (k : Nat) (w : World) (rounds : List (List Event)) : Option World :=
  if (w.memory.request k).status ≠ .inProgress then some w
  else match rounds with
    | [] => none
    | round :: rounds =>
      match (w.memory.request k).connection.bind w.connections with
      | none => none
      | some _ => do waitLoop k (← w.events round) rounds

def allreduceUcxRequestWait (ret : Int) (request : Option Nat) (w : World)
    (rounds : List (List Event)) : Option (Int × World) :=
  match request with
  | none => some (ret, w)
  | some k =>
    if ret < 0 then some (ret, w)
    else do
      let w ← waitLoop k w rounds
      let ret := if (w.memory.request k).status ≠ .ok then -1 else ret
      let memory ← requestRelease w.memory k
      return (ret, { w with memory })

/-- What UCX does in one turn of the loop of `allreduce_ucx_connect`. -/
structure Attempt where
  post : Post
  rounds : List (List Event)
  deriving DecidableEq, Repr

/-- One turn of the loop: a connection check message is sent and waited for. -/
def connectionCheck (w : World) (connection maxAmId : Nat) (a : Attempt) : Option (Int × World) := do
  let (result, request, w) ← amSend w connection (maxAmId + 1) false a.post
  if docaResult result = 0 then allreduceUcxRequestWait (docaResult result) request w a.rounds
  else return (docaResult result, w)

/-- The run of the loop whose turns are the attempts, where there is one. -/
def connectLoop (connection maxAmId : Nat) : World → List Attempt → Option (Int × World)
  | _, [] => none
  | w, a :: attempts => do
    let (result, w) ← connectionCheck w connection maxAmId a
    if result < 0 then connectLoop connection maxAmId w attempts
    else if attempts = [] then return (result, w)
    else none

/-- What `inet_pton` answers for either family. -/
def setSockaddr (inetPton4 inetPton6 : Bool) : Int :=
  if inetPton4 then 0 else if inetPton6 then 0 else -1

/-- The new connection and its endpoint, where both can be made. -/
def sockaddrConnect (w : World) : Option (Nat × Nat) → Int × World
  | none => (-1, w)
  | some (connection, ep) =>
    (0, { w with connections := Function.update w.connections connection (some ⟨ep, true⟩) })

/-- `made` is the connection with its endpoint, as `malloc` and `ucp_ep_create` give them. -/
def allreduceUcxConnect (w : World) (maxAmId : Nat) (inetPton4 inetPton6 : Bool)
    (made : Option (Nat × Nat)) (attempts : List Attempt) : Option (Int × World) :=
  if setSockaddr inetPton4 inetPton6 < 0 then some (setSockaddr inetPton4 inetPton6, w)
  else match made with
    | none => some ((sockaddrConnect w none).1, w)
    | some (connection, ep) =>
      connectLoop connection maxAmId (sockaddrConnect w (some (connection, ep))).2 attempts

def handshakeMaxMsgLen : Int := 1024

def allreduceHandshakeAmId : Nat := 2

/-- The loop over the connections, each with what UCX does when its message is sent and while
it is waited for. -/
def handshakeLoop : World → List (Nat × Attempt) → Option (Int × World)
  | w, [] => some (0, w)
  | w, (connection, a) :: rest => do
    let (result, request, w) ← allreduceUcxAmSend w connection allreduceHandshakeAmId a.post
    if docaResult result ≠ 0 then do
      let (ret, w) ← allreduceUcxRequestWait (docaResult result) request w a.rounds
      if ret < 0 then return (-1, w) else handshakeLoop w rest
    else handshakeLoop w rest

/-- `handshakeMsgLen` is what `snprintf` returns. -/
def allreduceOutgoingHandshake (w : World) (handshakeMsgLen : Int) (sends : List (Nat × Attempt)) :
    Option (Int × World) :=
  if handshakeMsgLen < 0 ∨ handshakeMaxMsgLen ≤ handshakeMsgLen then some (-1, w)
  else handshakeLoop w sends

end DocaApps.Allreduce.Connect
