import DocaApps.Doca

namespace DocaApps.Common.Telemetry

variable {τ ρ : Type} [DecidableEq τ]

def netflowQueueSize : Nat := 1024

/-- A ring of the size of the queue holds one element less, first in first out. -/
abbrev Ring := List Nat

/-- `rte_ring_enqueue_bulk`: all of the slots, or none of them. -/
def enqueueBulk (ring : Ring) (slots : List Nat) : Option Ring :=
  if ring.length + slots.length ≤ netflowQueueSize - 1 then some (ring ++ slots) else none

def enqueue (ring : Ring) (slot : Nat) : Option Ring := enqueueBulk ring [slot]

/-- `rte_ring_dequeue_bulk`: exactly so many slots, or none of them. -/
def dequeueBulk (ring : Ring) (n : Nat) : List Nat × Ring :=
  if n ≤ ring.length then (ring.take n, ring.drop n) else ([], ring)

/-- A call of `enqueue_netflow_record_to_ring` that has taken a slot from the free list, and has
copied its record there, or has not. -/
structure Call (τ ρ : Type) where
  thread : τ
  record : ρ
  slot : Nat
  copied : Bool
  deriving Repr

/-- Where the one thread in `send_netflow_record` stands: it has the count of the pending ring,
or has taken the records and sent so many of them. -/
inductive Sender where
  | idle
  | counted (ringCount : Nat)
  | sending (records : List Nat) (recordsSent : Nat)
  deriving DecidableEq, Repr

/-- The rings, the records in their slots, each with the thread that wrote it, and the calls that
are running. The last three fields record what was accepted, what was sent, and what the calls of
`send_netflow_record` returned. -/
structure State (τ ρ : Type) where
  freelist : Ring
  pending : Ring
  dataToSend : Nat → Option (τ × ρ)
  calls : List (Call τ ρ)
  sender : Sender
  accepted : List (τ × ρ)
  sent : List (Option (τ × ρ))
  results : List (Option DocaError)

/-- The rings after a successful `init_netflow_schema_and_source`. -/
def initNetflow : Option (State τ ρ) :=
  (enqueueBulk [] ((List.range netflowQueueSize).take (netflowQueueSize - 1))).map fun freelist =>
    { freelist, pending := [], dataToSend := fun _ => none, calls := [], sender := .idle,
      accepted := [], sent := [], results := [] }

/-- What happens next. A call of a producer is known by its place in the list of calls. -/
inductive Event (τ ρ : Type) where
  | dequeue (thread : τ) (record : ρ)
  | copy (i : Nat)
  | enqueue (i : Nat)
  | ringCount
  | dequeueBulk
  | send (sent : Except DocaError Nat)
  | giveBack

variable (s : State τ ρ)

/-- A call begins, and ends at once when the free list is empty. -/
def startCall (thread : τ) (record : ρ) : State τ ρ :=
  if s.calls.any fun c => c.thread = thread then s
  else
    match s.freelist with
    | [] => s
    | slot :: freelist => { s with freelist, calls := ⟨thread, record, slot, false⟩ :: s.calls }

def copyRecord (i : Nat) : State τ ρ :=
  match s.calls[i]? with
  | none => s
  | some c => { s with
      dataToSend := Function.update s.dataToSend c.slot (some (c.thread, c.record))
      calls := { c with copied := true } :: s.calls.eraseIdx i }

/-- The call ends, also when the pending ring is full. -/
def endCall (i : Nat) : State τ ρ :=
  match s.calls[i]? with
  | none => s
  | some c =>
    if !c.copied then s
    else
      match enqueue s.pending c.slot with
      | none => { s with calls := s.calls.eraseIdx i }
      | some pending => { s with
          pending
          calls := s.calls.eraseIdx i
          accepted := s.accepted ++ [(c.thread, c.record)] }

def countRing : State τ ρ :=
  match s.sender with
  | .idle =>
    if s.pending.length = 0 then { s with results := s.results ++ [none] }
    else { s with sender := .counted s.pending.length }
  | _ => s

def takeRecords : State τ ρ :=
  match s.sender with
  | .counted n =>
    let (records, pending) := dequeueBulk s.pending n
    { s with pending, sender := .sending records 0 }
  | _ => s

/-- One call of `doca_telemetry_netflow_send` with the records that are left: it fails, or sends
the first of them. -/
def sendRecords (answer : Except DocaError Nat) : State τ ρ :=
  match s.sender with
  | .sending records recordsSent =>
    if recordsSent < records.length then
      match answer with
      | .error err => { s with sender := .idle, results := s.results ++ [some err] }
      | .ok n =>
        let successfullySent := (records.drop recordsSent).take n
        { s with
          sender := .sending records (recordsSent + successfullySent.length)
          sent := s.sent ++ successfullySent.map s.dataToSend }
    else s
  | _ => s

/-- All the records are sent, and their slots go back to the free list. -/
def giveBack : State τ ρ :=
  match s.sender with
  | .sending records recordsSent =>
    if recordsSent < records.length then s
    else
      match enqueueBulk s.freelist (records.take recordsSent) with
      | none => { s with sender := .idle, results := s.results ++ [some .driver] }
      | some freelist => { s with freelist, sender := .idle, results := s.results ++ [none] }
  | _ => s

def step : Event τ ρ → State τ ρ
  | .dequeue thread record => startCall s thread record
  | .copy i => copyRecord s i
  | .enqueue i => endCall s i
  | .ringCount => countRing s
  | .dequeueBulk => takeRecords s
  | .send answer => sendRecords s answer
  | .giveBack => giveBack s

end DocaApps.Common.Telemetry
