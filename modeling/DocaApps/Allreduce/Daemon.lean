import DocaApps.Allreduce.Core

namespace DocaApps.Allreduce.Daemon
open Allreduce.MemPool Allreduce.Core

variable {w : Nat}

/-- The vector of a client joined to the result of its super-request. -/
def takeVector (cfg : Config) (addr request : Nat) : Cmd w Unit := do
  let sr ← superOf addr
  let r ← requestOf request
  match sr.resultVector, r.vector with
  | _, none => throw .bounds
  | some _, some vec =>
    reduce cfg addr (.pool vec) false
    freeVecTo .vecs vec
  | none, some vec => modifySuper addr fun sr => { sr with resultVector := some (.pool vec) }

/-- Vectors beyond the number of clients only draw a warning. -/
def scatterIfAll (cfg : Config) (addr : Nat) : Cmd w Unit := do
  let sr ← superOf addr
  if sr.numAllreduceRequests = cfg.numClients then scatter cfg addr else pure ()

/-- A request attached to its super-request. -/
def attachRequest (cfg : Config) (addr request : Nat) : Cmd w Unit := do
  modifyRequest request fun r => { r with superRequest := some addr }
  modifySuper addr fun sr => { sr with
    numAllreduceRequests := sr.numAllreduceRequests + 1
    requestsList := sr.requestsList ++ [request] }
  takeVector cfg addr request
  modifyRequest request fun r => { r with vector := none }
  scatterIfAll cfg addr

/-- `daemon_am_recv_data_complete_callback`. -/
def recvDataComplete (cfg : Config) (request : Nat) : Cmd w Unit := do
  let r ← requestOf request
  match ← superRequestGet cfg r.id r.vectorSize none with
  | none =>
    requestDestroy request
    throw .exit
  | some addr => attachRequest cfg addr request

/-- `daemon_am_recv_ctrl_callback`. -/
def recvCtrlCallback (cfg : Config) (client id len : Nat) (data : Nat → BitVec w) (rndv : Bool) :
    Cmd w Unit := do
  note fun log => { log with clientArrivals := log.clientArrivals ++ [⟨client, id, data⟩] }
  match ← requestAllocate client id len with
  | none => throw .exit
  | some (request, vec) =>
    amRecv vec len data (.recvDataComplete request) (recvDataComplete cfg request) rndv

end DocaApps.Allreduce.Daemon
