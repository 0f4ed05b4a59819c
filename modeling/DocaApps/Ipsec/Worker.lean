import DocaApps.Ipsec.SecuredBurst

namespace DocaApps.Ipsec.Worker
open Common.Pack Rules AntiReplay UnsecuredBurst SecuredBurst

def packetBurst : Nat := 32
def nbTxBurstTries : Int := 5

/-- The least value of an `int`. -/
def intMin : Int := -2 ^ 31

/-- `uint16_t` subtraction. -/
def sub16 (a b : Nat) : Nat := (a + (2 ^ 16 - b % 2 ^ 16)) % 2 ^ 16

/-- What the worker is started with. -/
structure WorkerCtx where
  core : CoreCtx
  unsecuredPortId : Nat
  nbPorts : Nat

/-- What a visit to a port meets: the rules and states as the cores have left them, the burst
that is received, and how many packets each attempt to transmit can take. -/
structure Visit where
  encryptRules : List EncryptRule
  decryptRules : List DecryptRule
  antireplayStates : List AntireplayState
  packets : List Packet
  tx : Nat → Nat
  burst : packets.length ≤ packetBurst

/-- A received mbuf: the number of its burst and its place in it. -/
structure Handle where
  burst : Nat
  place : Nat
  deriving DecidableEq, Repr

/-- The attempts of one burst. -/
structure Sent where
  accepted : List Handle
  nbPkts : Nat
  attempts : Nat
  numOfTries : Int
  deriving DecidableEq, Repr

/-- What became of the packets of a burst that the handlers had processed. -/
structure Transmission where
  toPort : Nat
  processed : Nat
  accepted : Nat
  attempts : Nat
  deriving DecidableEq, Repr

/-- The variables of `process_queue_packets`, and the mbufs that came in, were accepted by the
transmit queue and were freed. -/
structure Worker where
  numOfTries : Int
  processedPackets : List Handle
  packetsToDrop : List Handle
  bursts : Nat
  received : List Handle
  accepted : List Handle
  freed : List Handle
  transmissions : List Transmission
  deriving DecidableEq, Repr

def Worker.start : Worker := ⟨nbTxBurstTries, [], [], 0, [], [], [], []⟩

/-- The places that the handler of a port puts into its two arrays. -/
def handleBurst (ctx : WorkerCtx) (portId : Nat) (v : Visit) : Option (List Nat × List Nat) :=
  if portId = ctx.unsecuredPortId then
    (handleUnsecuredPacketsReceived ctx.core v.packets v.encryptRules).map fun b =>
      (b.processed.map Prod.fst, b.unprocessed.map Prod.fst)
  else
    (handleSecuredPacketsReceived ⟨ctx.core, v.decryptRules⟩ v.packets v.antireplayStates).map
      fun b => (b.processed.map Prod.fst, b.unprocessed.map Prod.fst)

/-- An array after its first slots were written. -/
def writeFront (slots handles : List Handle) : List Handle := handles ++ slots.drop handles.length

/-- The `do` loop. `rte_eth_tx_burst` accepts the first packets it is offered. There is no
result when the counter of the tries overflows. -/
def txLoop (tx : Nat → Nat) (packets : List Handle) (nbProcessed : Nat) :
    Nat → Sent → Option Sent
  | 0, _ => none
  | fuel + 1, s =>
    if s.numOfTries = intMin then none
    else
      let n := min (tx s.attempts) (nbProcessed - s.nbPkts)
      let s := { s with
        accepted := s.accepted ++ (packets.drop s.nbPkts).take n
        nbPkts := s.nbPkts + n
        attempts := s.attempts + 1
        numOfTries := s.numOfTries - 1 }
      if nbProcessed > s.nbPkts ∧ s.numOfTries > 0 then txLoop tx packets nbProcessed fuel s
      else some s

/-- The attempts that the counter leaves a burst. -/
def triesLeft (numOfTries : Int) : Nat := max 1 numOfTries.toNat

/-- One port of the `for` loop. -/
def visitPort (ctx : WorkerCtx) (w : Worker) (portId : Nat) (v : Visit) : Option Worker :=
  if v.packets.length = 0 then some w
  else do
    let (processed, unprocessed) ← handleBurst ctx portId v
    let nbProcessed := processed.length
    let processedPackets := writeFront w.processedPackets (processed.map (Handle.mk w.bursts))
    let packetsToDrop := writeFront w.packetsToDrop (unprocessed.map (Handle.mk w.bursts))
    let sent ← txLoop v.tx processedPackets nbProcessed (triesLeft w.numOfTries)
      ⟨[], 0, 0, w.numOfTries⟩
    let nbPacketsToDrop := sub16 v.packets.length nbProcessed
    return {
      numOfTries := sent.numOfTries
      processedPackets
      packetsToDrop
      bursts := w.bursts + 1
      received := w.received ++ (List.range v.packets.length).map (Handle.mk w.bursts)
      accepted := w.accepted ++ sent.accepted
      freed := w.freed ++ packetsToDrop.take nbPacketsToDrop
      transmissions := w.transmissions ++
        [⟨portId ^^^ 1, nbProcessed, sent.nbPkts, sent.attempts⟩] }

/-- The visits of some turns of the `while` loop, port after port. -/
def visits (ctx : WorkerCtx) (turns : List (Nat → Visit)) : List (Nat × Visit) :=
  turns.flatMap fun turn => (List.range ctx.nbPorts).map fun portId => (portId, turn portId)

def step (ctx : WorkerCtx) (w : Option Worker) (v : Nat × Visit) : Option Worker :=
  w.bind fun w => visitPort ctx w v.1 v.2

end DocaApps.Ipsec.Worker
