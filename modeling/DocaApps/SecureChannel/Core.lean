import DocaApps.Doca

namespace DocaApps.SecureChannel

/-- What a call answers: success, or its error. -/
abbrev Answer := Except DocaError Unit

inductive ScMode where
  | host | dpu
  deriving DecidableEq, Repr

structure ScConfig where
  mode : ScMode
  sendMsgNb : Nat

inductive Thread where
  | sendto | recvfrom
  deriving DecidableEq, Repr

inductive Signal where
  | sigint | sigusr1
  deriving DecidableEq, Repr

/-- The signals both interrupt descriptors of `init_signaling_polling` report. -/
def signalMask : List Signal := [.sigint, .sigusr1]

/-- Where the send thread stands in `sendto_channel`: at the call it makes next. -/
inductive SendPc where
  | notStarted | sigemptyset | sigaddset | epollCtl | loop | sigwait | lock | sendto
  | unlock (result : Answer) | armSend | epollWait
  | finished | failed | interrupted | cancelled
  deriving DecidableEq, Repr

/-- Where the receive thread stands in `recvfrom_channel`. -/
inductive RecvPc where
  | notStarted | epollCtl | lock | recvfrom | unlock (result : Answer) | armRecv | epollWait
  | publish | kill
  | failed | interrupted
  deriving DecidableEq, Repr

structure Sender where
  pc : SendPc := .notStarted
  msgNb : Nat
  sentCount : Nat := 0
  deriving DecidableEq, Repr

structure Receiver where
  pc : RecvPc := .notStarted
  channelCreated : Bool := false
  recvCount : Nat := 0
  deriving DecidableEq, Repr

/-- The calls `sc_start` makes before it starts the threads, in their order. -/
inductive SetupCall where
  | initThreadSync | initCc | sigmask | epollCreate (t : Thread) | signalfd (t : Thread)
  | epollCtl (t : Thread)
  deriving DecidableEq, Repr

def setupCalls : List SetupCall :=
  [.initThreadSync, .initCc, .sigmask, .epollCreate .sendto, .epollCreate .recvfrom,
    .signalfd .sendto, .epollCtl .sendto, .signalfd .recvfrom, .epollCtl .recvfrom]

/-- The error `sc_start` returns when a call before the threads fails. -/
def SetupCall.error : SetupCall → DocaError → DocaError
  | .initThreadSync, _ => .badState
  | .initCc, e => e
  | .sigmask, _ => .badState
  | .epollCreate _, _ => .ioFailed
  | .signalfd _, _ => .ioFailed
  | .epollCtl _, _ => .ioFailed

/-- Where `sc_start` itself stands. -/
inductive StartPc where
  | setup (call : SetupCall) (left : List SetupCall)
  | createSendto | createRecvfrom | joinSendto | joinRecvfrom
  | returned (result : Answer)
  deriving DecidableEq, Repr

structure State where
  start : StartPc
  sender : Sender
  receiver : Receiver := {}
  /-- `ctx->peer` is not `NULL`. -/
  peer : Bool := false
  mutex : Option Thread := none
  sendtoResult : Answer := .ok ()
  recvfromResult : Answer := .ok ()
  /-- A `SIGINT` sent to the process; no thread consumes it. -/
  sigint : Bool := false
  /-- A `SIGUSR1` sent to the send thread and not consumed by its `sigwait`. -/
  sigusr1 : Bool := false
  /-- `pthread_cancel` was called on the send thread. -/
  cancel : Bool := false
  deriving DecidableEq, Repr

def init (cfg : ScConfig) : State where
  start := .setup .initThreadSync setupCalls.tail
  sender := { msgNb := cfg.sendMsgNb }

def pendingFor (s : State) : Thread → Signal → Bool
  | _, .sigint => s.sigint
  | .sendto, .sigusr1 => s.sigusr1
  | .recvfrom, .sigusr1 => false

/-- The interrupt descriptor in a thread's epoll set has something to read. -/
def intrReadable (s : State) (t : Thread) : Bool := signalMask.any (pendingFor s t)

def Sender.goto (x : Sender) (pc : SendPc) : Sender := { x with pc }
def Receiver.goto (x : Receiver) (pc : RecvPc) : Receiver := { x with pc }

/-- The send thread records an error and ends. -/
def sendFails (s : State) (e : DocaError) : State :=
  { s with sendtoResult := .error e, sender := s.sender.goto .failed }

/-- The receive thread records an error and ends. -/
def recvFails (s : State) (e : DocaError) : State :=
  { s with recvfromResult := .error e, receiver := s.receiver.goto .failed }

/-- The send thread's next step; `answer` is what the call it makes there answers. -/
def sendtoChannel (cfg : ScConfig) (s : State) (answer : Answer) : State :=
  let goto pc := { s with sender := s.sender.goto pc }
  match s.sender.pc, answer with
  | .sigemptyset, .ok _ => goto .sigaddset
  | .sigemptyset, .error _ => sendFails s .operatingSystem
  | .sigaddset, .ok _ => goto .epollCtl
  | .sigaddset, .error _ => sendFails s .operatingSystem
  | .epollCtl, .ok _ => goto .loop
  | .epollCtl, .error _ =>
    -- the error goes to the result of the other thread
    { goto .failed with recvfromResult := .error .operatingSystem }
  | .loop, _ =>
    if s.sender.msgNb = 0 then goto .finished
    else if s.peer = false ∧ cfg.mode = .dpu then goto .sigwait
    else goto .lock
  | .sigwait, .ok _ =>
    if s.cancel then goto .cancelled
    else if s.sigusr1 then { goto .lock with sigusr1 := false }
    else s
  | .sigwait, .error _ => sendFails s .operatingSystem
  | .lock, .ok _ =>
    if s.mutex = none then { goto .sendto with mutex := some .sendto } else s
  | .lock, .error _ => sendFails s .operatingSystem
  | .sendto, result => goto (.unlock result)
  | .unlock (.error .again), .ok _ => { goto .armSend with mutex := none }
  | .unlock (.error _), .ok _ =>
    { s with mutex := none, sender := { s.sender with pc := .loop, msgNb := s.sender.msgNb - 1 } }
  | .unlock (.ok _), .ok _ =>
    { s with
      mutex := none
      sender := { pc := .loop, msgNb := s.sender.msgNb - 1, sentCount := s.sender.sentCount + 1 } }
  | .unlock _, .error _ => sendFails s .operatingSystem
  | .armSend, .ok _ => goto .epollWait
  | .armSend, .error _ => sendFails s .ioFailed
  | .epollWait, .ok _ =>
    if s.cancel then goto .cancelled
    else if intrReadable s .sendto then { goto .interrupted with cancel := true }
    else goto .loop
  | .epollWait, .error _ => sendFails s .ioFailed
  | .notStarted, _ | .finished, _ | .failed, _ | .interrupted, _ | .cancelled, _ => s

/-- The receive thread's next step. -/
def recvfromChannel (cfg : ScConfig) (s : State) (answer : Answer) : State :=
  let goto pc := { s with receiver := s.receiver.goto pc }
  match s.receiver.pc, answer with
  | .epollCtl, .ok _ => goto .lock
  | .epollCtl, .error _ => recvFails s .operatingSystem
  | .lock, .ok _ =>
    if s.mutex = none then { goto .recvfrom with mutex := some .recvfrom } else s
  | .lock, .error _ => recvFails s .operatingSystem
  | .recvfrom, result => goto (.unlock result)
  | .unlock (.error .again), .ok _ => { goto .armRecv with mutex := none }
  | .unlock (.error _), .ok _ => { goto .lock with mutex := none }
  | .unlock (.ok _), .ok _ =>
    if s.receiver.channelCreated = false ∧ cfg.mode = .dpu then
      { s with
        mutex := none
        receiver := { s.receiver with pc := .publish, channelCreated := true } }
    else
      { s with
        mutex := none
        receiver := { s.receiver with pc := .lock, recvCount := s.receiver.recvCount + 1 } }
  | .unlock _, .error _ => recvFails s .operatingSystem
  | .armRecv, .ok _ => goto .epollWait
  | .armRecv, .error _ => recvFails s .ioFailed
  | .epollWait, .ok _ =>
    if intrReadable s .recvfrom then
      { goto .interrupted with cancel := s.cancel || !s.receiver.channelCreated }
    else goto .lock
  | .epollWait, .error _ => recvFails s .ioFailed
  | .publish, _ => { goto .kill with peer := true }
  | .kill, .ok _ =>
    { s with
      sigusr1 := true
      receiver := { s.receiver with pc := .lock, recvCount := s.receiver.recvCount + 1 } }
  | .kill, .error _ => recvFails s .operatingSystem
  | .notStarted, _ | .failed, _ | .interrupted, _ => s

def SendPc.ended : SendPc → Bool
  | .finished | .failed | .interrupted | .cancelled => true
  | _ => false

def RecvPc.ended : RecvPc → Bool
  | .failed | .interrupted => true
  | _ => false

/-- The result of `sc_start` once both threads have ended: `result` is read from the send
thread's result, and then overwritten with the receive thread's. -/
def mergedResult (s : State) : Answer := s.recvfromResult

/-- The next step of `sc_start`. -/
def scStart (cfg : ScConfig) (s : State) (answer : Answer) : State :=
  match s.start, answer with
  | .setup call left, .ok _ =>
    let s := if call = .initCc ∧ cfg.mode = .host then { s with peer := true } else s
    match left with
    | [] => { s with start := .createSendto }
    | next :: left => { s with start := .setup next left }
  | .setup call _, .error e => { s with start := .returned (.error (call.error e)) }
  | .createSendto, .ok _ =>
    { s with start := .createRecvfrom, sender := s.sender.goto .sigemptyset }
  | .createSendto, .error _ => { s with start := .returned (.error .badState) }
  | .createRecvfrom, .ok _ =>
    { s with start := .joinSendto, receiver := s.receiver.goto .epollCtl }
  | .createRecvfrom, .error _ => { s with start := .returned (.error .badState) }
  | .joinSendto, _ => if s.sender.pc.ended then { s with start := .joinRecvfrom } else s
  | .joinRecvfrom, _ =>
    if s.receiver.pc.ended then { s with start := .returned (mergedResult s) } else s
  | .returned _, _ => s

/-- Whose turn it is, with the answer of the call it makes. -/
inductive Event where
  | sigint
  | start (answer : Answer)
  | sendto (answer : Answer)
  | recvfrom (answer : Answer)
  deriving DecidableEq, Repr

def step (cfg : ScConfig) (s : State) : Event → State
  | .sigint => { s with sigint := true }
  | .start answer => scStart cfg s answer
  | .sendto answer => sendtoChannel cfg s answer
  | .recvfrom answer => recvfromChannel cfg s answer

end DocaApps.SecureChannel
