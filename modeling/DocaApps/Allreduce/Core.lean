import DocaApps.Allreduce.MemPool
import DocaApps.Lib.Command

namespace DocaApps.Allreduce.Core
open MemPool

inductive Role where
  | client | daemon
  deriving DecidableEq, Repr

inductive Operation where
  | sum | prod
  deriving DecidableEq, Repr

/-- The integer datatypes. -/
inductive Datatype where
  | byte | int
  deriving DecidableEq, Repr

def Datatype.bits : Datatype → Nat
  | .byte => 8
  | .int => 32

/-- The parts of `struct allreduce_config` the core reads. `connections` are the peers
in the order of the array of that name. -/
structure Config where
  role : Role
  connections : List Nat
  numClients : Nat
  vectorSize : Nat
  batchSize : Nat
  operation : Operation
  deriving DecidableEq, Repr

/-- `dest_addresses.num`. -/
def Config.numPeers (cfg : Config) : Nat := cfg.connections.length

/-- The pools of `allreduce_mem_pool.c` in the CPU build. -/
inductive PoolName where
  | vecs | bufs | reqs | superReqs
  deriving DecidableEq, Repr

/-- A vector in memory: an element of `vecs_pool` or one of `allreduce_vectors`. -/
inductive Loc where
  | pool (vec : Nat)
  | user (slot : Nat)
  deriving DecidableEq, Repr

/-- `struct allreduce_super_request` at the address `addr`. `recvArray` are the entries of
the array `recv_vectors` points to, as far as they were written. -/
structure SuperRequest where
  addr : Nat
  id : Nat
  requestsList : List Nat
  numAllreduceRequests : Nat
  numAllreduceOperations : Nat
  resultVectorOwner : Bool
  resultVector : Option Loc
  peerResultVector : Option Nat
  recvVectorIter : Nat
  recvVectors : Option Nat
  recvArray : List Nat
  resultVectorSize : Nat
  deriving DecidableEq, Repr

/-- `struct allreduce_request` at the address `addr`. -/
structure Request where
  addr : Nat
  id : Nat
  vector : Option Nat
  vectorSize : Nat
  connection : Nat
  superRequest : Option Nat
  deriving DecidableEq, Repr

inductive Dest where
  | peer (q : Nat)
  | client (c : Nat)
  deriving DecidableEq, Repr

/-- The completion callbacks of the core, with their argument: the address of a
super-request or of a request. -/
inductive Callback where
  | completeOperation (superRequest : Nat)
  | completeClientOperation (request : Nat)
  | gather (superRequest : Nat)
  | recvDataComplete (request : Nat)
  deriving DecidableEq, Repr

/-- A posted send that is not completed; `transmitted` once its buffer was read. -/
structure Send where
  dest : Dest
  id : Nat
  loc : Loc
  len : Nat
  callback : Callback
  transmitted : Bool
  deriving DecidableEq, Repr

variable {w : Nat}

/-- A vector message. -/
structure Msg (w : Nat) where
  dest : Dest
  id : Nat
  len : Nat
  data : Nat → BitVec w

/-- A started receive that is not completed. -/
structure Recv (w : Nat) where
  vector : Nat
  len : Nat
  data : Nat → BitVec w
  callback : Callback

/-- A vector that came from a peer or from a client. -/
structure Arrival (w : Nat) where
  sender : Nat
  id : Nat
  data : Nat → BitVec w

/-- The contents of the result vector of an operation at some moment. -/
structure Snapshot (w : Nat) where
  id : Nat
  vector : Nat → BitVec w

/-- What is written down about a run: the vectors that arrived from peers and from
clients, the vector each scatter started from, the calls of the reducer, the result at
each completion and the ids taken out of the hash table. No function reads it. -/
structure Log (w : Nat) where
  arrivals : List (Arrival w)
  clientArrivals : List (Arrival w)
  scatters : List (Snapshot w)
  reductions : List (Loc × Loc)
  completions : List (Snapshot w)
  finished : List Nat

/-- One process: the global variables of the application, the objects it allocated, and
what UCX holds for it. `posts` says of the next sends whether they complete inside the
post; when it is used up they do not. `remaining` and `batchVectorSize` are the loop of a
running `allreduce_batch_submit`. -/
structure Participant (w : Nat) where
  pools : PoolName → Mpool
  heap : Heap
  mem : Loc → Nat → BitVec w
  hash : List SuperRequest
  requests : List Request
  clientActive : Nat
  nextId : Nat
  remaining : Nat
  batchVectorSize : Nat
  posts : List Bool
  sends : List Send
  recvs : List (Recv w)
  outbox : List (Msg w)
  log : Log w

abbrev Cmd (w : Nat) := EStateM Stop (Participant w)

def note (entry : Log w → Log w) : Cmd w Unit :=
  modify fun s => { s with log := entry s.log }

/-- `allreduce_aloc_vec_<name>`. -/
def alocVecFrom (name : PoolName) : Cmd w (Option Nat) := fun s =>
  match alocVec (s.pools name) s.heap with
  | .ok (vec, mp, heap) =>
    .ok vec { s with pools := Function.update s.pools name mp, heap := heap }
  | .error e => .error e s

/-- `allreduce_free_vecs_<name>`. -/
def freeVecsTo (name : PoolName) (vecs : List Nat) : Cmd w Unit := fun s =>
  match freeVecs (s.pools name) vecs with
  | .ok mp => .ok () { s with pools := Function.update s.pools name mp }
  | .error e => .error e s

/-- `allreduce_free_vec_<name>`. -/
def freeVecTo (name : PoolName) (vec : Nat) : Cmd w Unit := freeVecsTo name [vec]

/-- The super-request behind a pointer. -/
def superOf (addr : Nat) : Cmd w SuperRequest := do
  match (← get).hash.find? (fun sr => sr.addr = addr) with
  | some sr => pure sr
  | none => throw .freed

def modifySuper (addr : Nat) (f : SuperRequest → SuperRequest) : Cmd w Unit :=
  modify fun s => { s with hash := s.hash.map fun sr => if sr.addr = addr then f sr else sr }

/-- The request behind a pointer. -/
def requestOf (addr : Nat) : Cmd w Request := do
  match (← get).requests.find? (fun r => r.addr = addr) with
  | some r => pure r
  | none => throw .freed

def modifyRequest (addr : Nat) (f : Request → Request) : Cmd w Unit :=
  modify fun s => { s with requests := s.requests.map fun r => if r.addr = addr then f r else r }

def setMem (loc : Loc) (content : Nat → BitVec w) : Cmd w Unit :=
  modify fun s => { s with mem := Function.update s.mem loc content }

def Operation.apply (op : Operation) (x y : BitVec w) : BitVec w :=
  match op with
  | .sum => x + y
  | .prod => x * y

/-- `allreduce_reduce`: nothing is read or written when the vectors are empty. -/
def reduce (cfg : Config) (addr : Nat) (src : Loc) (isPeer : Bool) : Cmd w Unit := do
  let sr ← superOf addr
  match if isPeer = true then sr.peerResultVector.map Loc.pool else sr.resultVector with
  | none => if sr.resultVectorSize = 0 then pure () else throw .bounds
  | some dst =>
    note fun log => { log with reductions := log.reductions ++ [(dst, src)] }
    let s ← get
    setMem dst fun i =>
      if i < sr.resultVectorSize then cfg.operation.apply (s.mem dst i) (s.mem src i)
      else s.mem dst i

def reduceFrom (cfg : Config) (addr : Nat) : List Nat → Cmd w Unit
  | [] => pure ()
  | vec :: vecs => do
    reduce cfg addr (.pool vec) true
    reduceFrom cfg addr vecs

/-- `allreduce_reduce_all` for the vectors of the peers. -/
def reduceAll (cfg : Config) (addr : Nat) : Cmd w Unit := do
  let sr ← superOf addr
  reduceFrom cfg addr (sr.recvArray.take sr.recvVectorIter)

/-- `allreduce_request_destroy`. -/
def requestDestroy (request : Nat) : Cmd w Unit := do
  let r ← requestOf request
  freeVecsTo .vecs r.vector.toList
  freeVecTo .reqs request
  modify fun s => { s with requests := s.requests.filter fun r => r.addr ≠ request }

def destroyRequests : List Nat → Cmd w Unit
  | [] => pure ()
  | request :: requests => do
    requestDestroy request
    destroyRequests requests

/-- The result vector goes back to the pool when the super-request owns it. -/
def freeResultVector (sr : SuperRequest) : Cmd w Unit :=
  match sr.resultVectorOwner, sr.resultVector with
  | true, some (.pool vec) => freeVecTo .vecs vec
  | true, some (.user _) => throw .bounds
  | _, _ => pure ()

/-- `allreduce_super_request_destroy`. -/
def superRequestDestroy (sr : SuperRequest) : Cmd w Unit := do
  freeResultVector sr
  freeVecsTo .vecs sr.peerResultVector.toList
  freeVecsTo .bufs sr.recvVectors.toList
  destroyRequests (if sr.numAllreduceRequests > 0 then sr.requestsList else [])
  freeVecTo .superReqs sr.addr

/-- `allreduce_super_request_finish`: the hash table destroys what it removes. -/
def superRequestFinish (id : Nat) : Cmd w Unit := do
  match (← get).hash.find? (fun sr => sr.id = id) with
  | none => pure ()
  | some sr =>
    modify fun s => { s with hash := s.hash.filter fun sr => sr.id ≠ id }
    note fun log => { log with finished := log.finished ++ [id] }
    superRequestDestroy sr

/-- The buffer for the vectors of the other peers; it is only taken when there are two
peers or more. `none` stands for a failed allocation. -/
def alocRecvVectors (cfg : Config) : Cmd w (Option (Option Nat)) :=
  if cfg.numPeers ≤ 1 then pure (some none)
  else do
    let buf ← alocVecFrom .bufs
    return buf.map some

/-- `allreduce_super_request_allocate`. -/
def superRequestAllocate (cfg : Config) (id length : Nat) (resultVector : Option Loc) :
    Cmd w (Option SuperRequest) := do
  match ← alocVecFrom .superReqs with
  | none => pure none
  | some addr =>
    match ← alocRecvVectors cfg with
    | none =>
      freeVecTo .superReqs addr
      pure none
    | some recvVectors =>
      pure (some
        { addr, id
          requestsList := []
          numAllreduceRequests := 0
          numAllreduceOperations := 2 * cfg.numPeers + 1
          resultVectorOwner := resultVector.isNone
          resultVector
          peerResultVector := none
          recvVectorIter := 0
          recvVectors
          recvArray := []
          resultVectorSize := length })

/-- `allreduce_super_request_get`: the address of the super-request, `none` when there is
no memory for one. -/
def superRequestGet (cfg : Config) (id length : Nat) (resultVector : Option Loc) :
    Cmd w (Option Nat) := do
  match (← get).hash.find? (fun sr => sr.id = id) with
  | some sr => pure (some sr.addr)
  | none =>
    match ← superRequestAllocate cfg id length resultVector with
    | none => pure none
    | some sr =>
      modify fun s => { s with hash := sr :: s.hash }
      pure (some sr.addr)

/-- `allreduce_request_allocate`: the new request with its vector. -/
def requestAllocate (connection id length : Nat) : Cmd w (Option (Nat × Nat)) := do
  match ← alocVecFrom .reqs with
  | none => pure none
  | some addr =>
    match ← alocVecFrom .vecs with
    | none =>
      freeVecTo .reqs addr
      pure none
    | some vec =>
      modify fun s => { s with
        requests := ⟨addr, id, some vec, length, connection, none⟩ :: s.requests }
      pure (some (addr, vec))

/-- Whether the next post completes at once. -/
def nextPost : Cmd w Bool := do
  let s ← get
  set { s with posts := s.posts.tail }
  return s.posts.headD false

/-- The vector a super-request sends. -/
def resultLoc (sr : SuperRequest) : Cmd w Loc :=
  match sr.resultVector with
  | some loc => pure loc
  | none => throw .bounds

/-- UCX reads a buffer and takes the message over. -/
def handOver (dest : Dest) (id : Nat) (loc : Loc) (len : Nat) : Cmd w Unit :=
  modify fun s => { s with outbox := s.outbox ++ [⟨dest, id, len, s.mem loc⟩] }

/-- `allreduce_ucx_am_send`, with the callback as UCX keeps it and as it runs when the
send completes inside the post. -/
def amSend (dest : Dest) (id : Nat) (loc : Loc) (len : Nat) (callback : Callback)
    (run : Cmd w Unit) : Cmd w Unit := do
  let immediate ← nextPost
  if immediate = true then
    handOver dest id loc len
    run
  else
    modify fun s => { s with sends := s.sends ++ [⟨dest, id, loc, len, callback, false⟩] }

/-- `allreduce_ucx_am_recv`. A rendezvous receive completes later. -/
def amRecv (vec len : Nat) (data : Nat → BitVec w) (callback : Callback) (run : Cmd w Unit)
    (rndv : Bool) : Cmd w Unit :=
  if rndv = true then
    modify fun s => { s with recvs := s.recvs ++ [⟨vec, len, data, callback⟩] }
  else do
    let s ← get
    setMem (.pool vec) fun i => if i < len then data i else s.mem (.pool vec) i
    run

/-- `--num_allreduce_requests`, and the end of the super-request with the last one. -/
def requestAnswered (addr : Nat) : Cmd w Unit := do
  let sr ← superOf addr
  if sr.numAllreduceRequests = 0 then throw .underflow
  else do
    modifySuper addr fun sr => { sr with numAllreduceRequests := sr.numAllreduceRequests - 1 }
    if sr.numAllreduceRequests - 1 = 0 then superRequestFinish sr.id else pure ()

/-- `daemon_allreduce_complete_client_operation_callback`. -/
def daemonCompleteClientOperation (request : Nat) : Cmd w Unit := do
  let r ← requestOf request
  requestDestroy request
  match r.superRequest with
  | none => throw .bounds
  | some addr => requestAnswered addr

/-- The loop over the requests that `allreduce_complete_operation_callback` answers. -/
def sendResults (addr : Nat) : List Nat → Cmd w Unit
  | [] => pure ()
  | request :: requests => do
    let sr ← superOf addr
    modifySuper addr fun sr => { sr with requestsList := sr.requestsList.erase request }
    let r ← requestOf request
    let loc ← resultLoc sr
    amSend (.client r.connection) sr.id loc sr.resultVectorSize (.completeClientOperation request)
      (daemonCompleteClientOperation request)
    sendResults addr requests

/-- The two sub-results put together. -/
def reducePeerResult (cfg : Config) (addr : Nat) (peerResultVector : Option Nat) : Cmd w Unit :=
  match peerResultVector with
  | none => pure ()
  | some vec => do
    reduce cfg addr (.pool vec) false
    freeVecTo .vecs vec
    modifySuper addr fun sr => { sr with peerResultVector := none }

def clientDone (id : Nat) : Cmd w Unit := do
  let s ← get
  if s.clientActive = 0 then throw .underflow
  else do
    set { s with clientActive := s.clientActive - 1 }
    superRequestFinish id

/-- The part of `allreduce_complete_operation_callback` behind the last operation. -/
def allComplete (cfg : Config) (addr : Nat) : Cmd w Unit := do
  let sr ← superOf addr
  reducePeerResult cfg addr sr.peerResultVector
  freeVecsTo .vecs (sr.recvArray.take sr.recvVectorIter)
  let loc ← resultLoc sr
  let s ← get
  note fun log => { log with completions := log.completions ++ [⟨sr.id, s.mem loc⟩] }
  match cfg.role with
  | .client => clientDone sr.id
  | .daemon => sendResults addr sr.requestsList

/-- `allreduce_complete_operation_callback`. -/
def completeOperation (cfg : Config) (addr : Nat) : Cmd w Unit := do
  let sr ← superOf addr
  if sr.numAllreduceOperations = 0 then throw .underflow
  else do
    modifySuper addr fun sr => { sr with numAllreduceOperations := sr.numAllreduceOperations - 1 }
    if sr.numAllreduceOperations - 1 > 0 then pure () else allComplete cfg addr

/-- The posts of `allreduce_scatter`. -/
def scatterTo (cfg : Config) (addr : Nat) : List Nat → Cmd w Unit
  | [] => pure ()
  | peer :: peers => do
    let sr ← superOf addr
    let loc ← resultLoc sr
    amSend (.peer peer) sr.id loc sr.resultVectorSize (.completeOperation addr)
      (completeOperation cfg addr)
    scatterTo cfg addr peers

/-- `allreduce_scatter`. -/
def scatter (cfg : Config) (addr : Nat) : Cmd w Unit := do
  let sr ← superOf addr
  let loc ← resultLoc sr
  let s ← get
  note fun log => { log with scatters := log.scatters ++ [⟨sr.id, s.mem loc⟩] }
  scatterTo cfg addr cfg.connections
  completeOperation cfg addr

/-- The test of `_allreduce_gather_callback`. -/
def reduceAllIfLast (cfg : Config) (addr : Nat) : Cmd w Unit := do
  let sr ← superOf addr
  if sr.recvVectorIter + 1 = cfg.numPeers ∧ sr.recvVectorIter > 0 then reduceAll cfg addr
  else pure ()

/-- `_allreduce_gather_callback`. -/
def gatherComplete (cfg : Config) (addr : Nat) : Cmd w Unit := do
  reduceAllIfLast cfg addr
  completeOperation cfg addr

/-- The vector kept for the reduction, with the assertion in front of it. -/
def saveVector (cfg : Config) (addr vec : Nat) : Cmd w Unit := do
  let sr ← superOf addr
  if sr.recvVectorIter < cfg.numPeers then
    match sr.peerResultVector, sr.recvVectors with
    | none, _ => modifySuper addr fun sr => { sr with peerResultVector := some vec }
    | some _, none => throw .bounds
    | some _, some _ => modifySuper addr fun sr => { sr with
        recvArray := sr.recvArray.take sr.recvVectorIter ++ [vec]
        recvVectorIter := sr.recvVectorIter + 1 }
  else throw .bounds

/-- `allreduce_gather_callback`. -/
def gatherCallback (cfg : Config) (peer id len : Nat) (data : Nat → BitVec w) (rndv : Bool) :
    Cmd w Unit := do
  note fun log => { log with arrivals := log.arrivals ++ [⟨peer, id, data⟩] }
  match ← superRequestGet cfg id len none with
  | none => throw .exit
  | some addr =>
    match ← alocVecFrom .vecs with
    | none => throw .exit
    | some vec =>
      saveVector cfg addr vec
      amRecv vec len data (.gather addr) (gatherComplete cfg addr) rndv

/-- `allreduce_init_mempools` for a process that is no offloaded client. -/
def initMempools (cfg : Config) (heap : Heap) : (PoolName → Mpool) × Heap :=
  let (superReqs, heap) := createMpool heap (2 * cfg.batchSize)
  let (vecs, heap) := createMpool heap (2 * (cfg.numClients + cfg.numPeers) * cfg.batchSize)
  let (bufs, heap) := createMpool heap (if cfg.numPeers > 1 then 2 * cfg.batchSize else 0)
  let (reqs, heap) :=
    createMpool heap (if cfg.role = .daemon then 2 * cfg.batchSize * cfg.numClients else 0)
  (fun name => match name with
    | .superReqs => superReqs
    | .vecs => vecs
    | .bufs => bufs
    | .reqs => reqs, heap)

end DocaApps.Allreduce.Core
