import DocaApps.Common.Pack

namespace DocaApps.DpaAllToAll.Core
open Common.Pack

/-- The run of the application: its ranks, the threads of a kernel, the count and the extent that
the ranks pass in each call, and whether a call is the blocking one. Buffers of that many elements
are in memory. -/
structure Setup where
  numRanks : Nat
  numThreads : Nat
  count : Nat → Nat
  extent : Nat → Nat
  blocking : Bool
  threadsPos : 0 < numThreads
  inMemory : ∀ k, numRanks * (count k * extent k) < 2 ^ 64

/-- A buffer of a rank, of a size in bytes. -/
structure BufHandle where
  rank : Nat
  buffer : Nat
  size : Nat
  deriving DecidableEq, Repr

/-- A kernel event of a rank, made for the request of a call. -/
structure EventHandle where
  rank : Nat
  request : Nat
  index : Nat
  deriving DecidableEq, Repr

/-- What is posted on an RDMA connection. -/
inductive RdmaOp where
  | write (dst : BufHandle) (dstOfs : Nat) (src : BufHandle) (srcOfs length : Nat)
  | signalSet (event : EventHandle) (value : Nat)
  deriving DecidableEq, Repr

/-- `struct a2a_resources`. `request` is the call that made them; `rdmas` holds what is posted on
the connection to each rank and did not take effect yet. -/
structure Resources where
  request : Nat
  sendbuf : Nat
  recvbuf : Nat
  mesgCount : Nat
  extent : Nat
  a2aSeqNum : Nat := 0
  compEvent : Nat := 0
  kernelEvents : Nat → Nat := fun _ => 0
  recvbufs : Nat → BufHandle := fun _ => ⟨0, 0, 0⟩
  rpKernelEvents : Nat → EventHandle := fun _ => ⟨0, 0, 0⟩
  rdmas : Nat → List RdmaOp := fun _ => []

def bufSize (cfg : Setup) (x : Resources) : Nat := x.extent * x.mesgCount * cfg.numRanks

/-- Where a rank is: outside of a call, or in its initialization, before its launch, before its
completion event, or before its barrier. -/
inductive HostPc where
  | outside | initializing | launching | waiting | barrier
  deriving DecidableEq, Repr

/-- Where a thread of the kernel is in its two loops. -/
inductive KernelPc where
  | write (i : Nat)
  | signal (i : Nat)
  | wait (i : Nat)
  | synchronize (i : Nat)
  | ended
  deriving DecidableEq, Repr

/-- The buffers that a rank passes to a call, and what the send buffer holds then. -/
structure Passed where
  sendbuf : Nat
  recvbuf : Nat
  data : Nat → Byte

/-- The memory of every rank, and where each rank is. What the ranks passed, how many writes and
signals of a rank took effect at another, and the writes are noted down; no function reads them. -/
structure World where
  mem : Nat → Nat → Nat → Byte
  calls : Nat → Nat := fun _ => 0
  host : Nat → HostPc := fun _ => .outside
  resources : Nat → Option Resources := fun _ => none
  thread : Nat → Nat → KernelPc := fun _ _ => .ended
  passed : Nat → Nat → Passed := fun _ _ => ⟨0, 0, fun _ => 0⟩
  written : Nat → Nat → Nat := fun _ _ => 0
  signalled : Nat → Nat → Nat := fun _ _ => 0
  writes : List RdmaOp := []

def put {α : Type} (f : Nat → Nat → α) (a b : Nat) (v : α) : Nat → Nat → α :=
  Function.update f a (Function.update (f a) b v)

def World.setHost (s : World) (r : Nat) (pc : HostPc) : World :=
  { s with host := Function.update s.host r pc }

def World.setResources (s : World) (r : Nat) (x : Option Resources) : World :=
  { s with resources := Function.update s.resources r x }

def World.setThread (s : World) (r t : Nat) (pc : KernelPc) : World :=
  { s with thread := put s.thread r t pc }

/-- Every rank gets one block of every rank. -/
def mpiIallgather {α : Type} (send : Nat → α) : Nat → Nat → α := fun _ j => send j

/-- Rank `r` gets block `r` of every rank. -/
def mpiIalltoall {α : Type} (send : Nat → Nat → α) : Nat → Nat → α := fun r j => send j r

def recvMmapExport (cfg : Setup) (s : World) (j : Nat) : BufHandle :=
  match s.resources j with
  | some x => ⟨j, x.recvbuf, bufSize cfg x⟩
  | none => ⟨j, 0, 0⟩

def kernelEventExport (request j i : Nat) : EventHandle := ⟨j, request, i⟩

/-- A rank enters its next call. -/
def World.enter (s : World) (r sendbuf recvbuf : Nat) : World :=
  { s with
    calls := Function.update s.calls r (s.calls r + 1)
    passed := put s.passed (s.calls r + 1) r ⟨sendbuf, recvbuf, s.mem r sendbuf⟩ }

/-- The resources that `dpa_ialltoall` allocates. -/
def newResources (cfg : Setup) (k sendbuf recvbuf : Nat) : Resources :=
  { request := k, sendbuf, recvbuf, mesgCount := cfg.count k, extent := cfg.extent k }

/-- The start of `dpa_ialltoall`: without resources it makes them. -/
def call (cfg : Setup) (r sendbuf recvbuf : Nat) (s : World) : World :=
  match s.resources r with
  | none =>
    ((s.enter r sendbuf recvbuf).setResources r
      (some (newResources cfg (s.calls r + 1) sendbuf recvbuf))).setHost r .initializing
  | some _ => (s.enter r sendbuf recvbuf).setHost r .launching

/-- Every rank takes part in the collectives of the initialization. -/
def allJoined (cfg : Setup) (s : World) (request : Nat) : Prop :=
  ∀ j < cfg.numRanks, (s.resources j).map Resources.request = some request

instance (cfg : Setup) (s : World) (request : Nat) : Decidable (allJoined cfg s request) :=
  inferInstanceAs (Decidable (∀ _ < _, _))

/-- The exchange of `prepare_dpa_a2a_memory`. -/
def exchange (cfg : Setup) (r : Nat) (x : Resources) (s : World) : World :=
  (s.setResources r (some
    { x with
      recvbufs := mpiIallgather (recvMmapExport cfg s) r
      rpKernelEvents := mpiIalltoall (kernelEventExport x.request) r })).setHost r .launching

/-- The launch of the kernel by `dpa_ialltoall`. -/
def launch (r : Nat) (x : Resources) (s : World) : World :=
  { (s.setResources r (some { x with a2aSeqNum := x.a2aSeqNum + 1 })).setHost r .waiting with
    thread := Function.update s.thread r fun t => .write t }

/-- An offset of the kernel, in 64 bits. -/
def offset (count rank typeLength : Nat) : Nat := count * rank * typeLength % 2 ^ 64

def rdmaWrite (cfg : Setup) (count r i : Nat) (x : Resources) : RdmaOp :=
  .write (x.recvbufs i) (offset count r x.extent) ⟨r, x.sendbuf, bufSize cfg x⟩
    (offset count i x.extent) (x.extent * count % 2 ^ 64)

def rdmaSignalSet (i : Nat) (x : Resources) : RdmaOp :=
  .signalSet (x.rpKernelEvents i) x.a2aSeqNum

def Resources.post (x : Resources) (i : Nat) (op : RdmaOp) : Resources :=
  { x with rdmas := Function.update x.rdmas i (x.rdmas i ++ [op]) }

/-- The next step of a thread of `alltoall_kernel`. -/
def kernelStep (cfg : Setup) (r t : Nat) (x : Resources) (s : World) : World :=
  match s.thread r t with
  | .write i =>
    if i < cfg.numRanks then
      (s.setResources r (some (x.post i (rdmaWrite cfg (cfg.count (s.calls r)) r i x)))).setThread
        r t (.signal i)
    else s.setThread r t (.wait t)
  | .signal i =>
    (s.setResources r (some (x.post i (rdmaSignalSet i x)))).setThread r t
      (.write (i + cfg.numThreads))
  | .wait i =>
    if i < cfg.numRanks then
      if x.a2aSeqNum - 1 < x.kernelEvents i then s.setThread r t (.synchronize i) else s
    else s.setThread r t .ended
  | .synchronize i =>
    if x.rdmas i = [] then s.setThread r t (.wait (i + cfg.numThreads)) else s
  | .ended => s

/-- The completion event is set after all threads of the kernel ended. -/
def complete (r : Nat) (x : Resources) (s : World) : World :=
  s.setResources r (some { x with compEvent := x.a2aSeqNum })

/-- Every rank is in the barrier of the call, or was. -/
def allWaited (cfg : Setup) (s : World) (k : Nat) : Prop :=
  ∀ j < cfg.numRanks, k < s.calls j ∨ (s.calls j = k ∧ s.host j ∈ [.barrier, .outside])

instance (cfg : Setup) (s : World) (k : Nat) : Decidable (allWaited cfg s k) :=
  inferInstanceAs (Decidable (∀ _ < _, _))

/-- The barrier of `dpa_alltoall` lets a rank through, which destroys its resources. -/
def finalize (r : Nat) (s : World) : World := (s.setResources r none).setHost r .outside

def copyBytes (src : Nat → Byte) (srcOfs : Nat) (dst : Nat → Byte) (dstOfs length : Nat) :
    Nat → Byte :=
  fun o => if dstOfs ≤ o ∧ o < dstOfs + length then src (srcOfs + (o - dstOfs)) else dst o

def setEvent (event : EventHandle) (value : Nat) (s : World) : World :=
  match s.resources event.rank with
  | some y =>
    if y.request = event.request then
      s.setResources event.rank
        (some { y with kernelEvents := Function.update y.kernelEvents event.index value })
    else s
  | none => s

/-- What was posted first on a connection takes effect. -/
def takeEffect (a b : Nat) (op : RdmaOp) (s : World) : World :=
  match op with
  | .write dst dstOfs src srcOfs length =>
    { s with
      mem := put s.mem dst.rank dst.buffer
        (copyBytes (s.mem src.rank src.buffer) srcOfs (s.mem dst.rank dst.buffer) dstOfs length)
      written := put s.written a b (s.written a b + 1)
      writes := s.writes ++ [op] }
  | .signalSet event value =>
    { setEvent event value s with signalled := put s.signalled a b (s.signalled a b + 1) }

def deliver (a b : Nat) (x : Resources) (s : World) : World :=
  match x.rdmas b with
  | [] => s
  | op :: ops =>
    takeEffect a b op
      (s.setResources a (some { x with rdmas := Function.update x.rdmas b ops }))

/-- Outside of its calls a rank fills a buffer, but not the one it last received into. -/
def fill (r buffer : Nat) (data : Nat → Byte) (s : World) : World :=
  { s with mem := put s.mem r buffer data }

inductive Event where
  | call (r sendbuf recvbuf : Nat)
  | exchange (r : Nat)
  | launch (r : Nat)
  | kernel (r t : Nat)
  | deliver (a b : Nat)
  | complete (r : Nat)
  | wait (r : Nat)
  | barrier (r : Nat)
  | fill (r buffer : Nat) (data : Nat → Byte)

/-- The completion event passed the number that `dpa_a2a_req_wait` waits for. -/
def completed (x : Resources) : Prop := x.a2aSeqNum - 1 < x.compEvent

instance (x : Resources) : Decidable (completed x) := inferInstanceAs (Decidable (_ < _))

def allEnded (cfg : Setup) (s : World) (r : Nat) : Prop :=
  ∀ t < cfg.numThreads, s.thread r t = .ended

instance (cfg : Setup) (s : World) (r : Nat) : Decidable (allEnded cfg s r) :=
  inferInstanceAs (Decidable (∀ _ < _, _))

/-- A buffer that the application may fill: not the one of its last call's result. -/
def mayFill (s : World) (r buffer : Nat) : Prop :=
  s.calls r = 0 ∨ buffer ≠ (s.passed (s.calls r) r).recvbuf

instance (s : World) (r buffer : Nat) : Decidable (mayFill s r buffer) :=
  inferInstanceAs (Decidable (_ ∨ _))

/-- A step of a rank that is at some point of its call. -/
def atPc (cfg : Setup) (r : Nat) (pc : HostPc) (f : Resources → World → World) (s : World) :
    World :=
  match s.resources r with
  | some x => if r < cfg.numRanks ∧ s.host r = pc then f x s else s
  | none => s

/-- One step of the run; an event that is not possible changes nothing. -/
def step (cfg : Setup) (s : World) : Event → World
  | .call r sendbuf recvbuf =>
    if r < cfg.numRanks ∧ s.host r = .outside ∧ sendbuf ≠ recvbuf then
      call cfg r sendbuf recvbuf s
    else s
  | .exchange r =>
    atPc cfg r .initializing
      (fun x s => if allJoined cfg s x.request then exchange cfg r x s else s) s
  | .launch r => atPc cfg r .launching (launch r) s
  | .kernel r t =>
    atPc cfg r .waiting (fun x s => if t < cfg.numThreads then kernelStep cfg r t x s else s) s
  | .deliver a b =>
    match s.resources a with
    | some x => if a < cfg.numRanks ∧ b < cfg.numRanks then deliver a b x s else s
    | none => s
  | .complete r =>
    atPc cfg r .waiting (fun x s => if allEnded cfg s r then complete r x s else s) s
  | .wait r =>
    atPc cfg r .waiting
      (fun x s => if completed x then s.setHost r (if cfg.blocking then .barrier else .outside)
        else s) s
  | .barrier r =>
    atPc cfg r .barrier (fun _ s => if allWaited cfg s (s.calls r) then finalize r s else s) s
  | .fill r buffer data =>
    if r < cfg.numRanks ∧ s.host r = .outside ∧ mayFill s r buffer then fill r buffer data s
    else s

end DocaApps.DpaAllToAll.Core
