import DocaApps.SimpleFwd.Packet

namespace DocaApps.SimpleFwd.Lcores
open FlowTable Packet

/-- The parameters of a core, for the first and the second port. -/
structure PerCoreParams where
  ports : Nat × Nat
  queues : Nat × Nat
  used : Bool
  deriving DecidableEq, Repr

abbrev CoreParamsArr := Nat → PerCoreParams

/-- The loop over the cores from `i` on. -/
def mapQueueLoop (enabled : Nat → Bool) (nbQueues : Nat) :
    Nat → Nat → Nat → CoreParamsArr → CoreParamsArr
  | 0, _, _, arr => arr
  | left + 1, i, queueIdx, arr =>
    if !enabled i then mapQueueLoop enabled nbQueues left (i + 1) queueIdx arr
    else
      let arr := Function.update arr i ⟨(0, 1), (queueIdx, queueIdx), true⟩
      if queueIdx + 1 ≥ nbQueues then arr
      else mapQueueLoop enabled nbQueues left (i + 1) (queueIdx + 1) arr

def simpleFwdMapQueue (rteMaxLcore : Nat) (enabled : Nat → Bool) (nbQueues : BitVec 16) :
    CoreParamsArr :=
  mapQueueLoop enabled nbQueues.toNat rteMaxLcore 0 0 fun _ => ⟨(0, 0), (0, 0), false⟩

structure Mbuf where
  addr : Nat
  port : Nat
  data : Bytes
  rssHash : UInt32
  deriving DecidableEq, Repr

/-- `rte_pktmbuf_adj` by the distance of the outer header from the start of the data. -/
def vnfAdjustMbuf (m : Mbuf) (pinfo : Pinfo) : Mbuf :=
  if pinfo.outer.l2 ≤ m.data.length then { m with data := m.data.drop pinfo.outer.l2 } else m

/-- A packet that is not parsed is left as it is; so is one whose headers reach behind its end,
whatever is read there. -/
def simpleFwdProcessOffload (ft : Ft) (mbuf : Mbuf) (queueId : Nat) (clock : Clock)
    (offload : Offload) : Ft × Mbuf :=
  match simpleFwdParsePacket mbuf.data with
  | .error _ => (ft, mbuf)
  | .ok pinfo =>
    if pinfo.outer.l3Type ≠ ipv4 then (ft, mbuf)
    else
      let info := pinfo.info mbuf.data (BitVec.ofNat 16 mbuf.port) (BitVec.ofNat 16 queueId)
        mbuf.rssHash
      (simpleFwdHandlePacket ft info clock offload, vnfAdjustMbuf mbuf pinfo)

structure Config where
  hwOffload : Bool
  rxOnly : Bool
  ageThread : Bool
  deriving DecidableEq, Repr

/-- A packet that `rte_eth_rx_burst` hands over, with what its handling meets: the clock, the
offload, and whether `rte_eth_tx_burst` accepts it. -/
structure Arrival where
  addr : Nat
  data : Bytes
  rssHash : UInt32
  clock : Clock
  offload : Offload
  accepted : Bool

/-- What a core did so far: the packets it received, those it freed, and those that were accepted
for transmission, with the port. -/
structure Worker where
  ft : Ft
  received : List Mbuf
  freed : List Mbuf
  sent : List (Nat × Mbuf)

def Arrival.mbuf (a : Arrival) (portId : Nat) : Mbuf := ⟨a.addr, portId, a.data, a.rssHash⟩

def processPkt (cfg : Config) (portId queueId : Nat) (w : Worker) (a : Arrival) : Worker :=
  let mbuf := a.mbuf portId
  let w := { w with received := w.received ++ [mbuf] }
  let (ft, mbuf) :=
    if cfg.hwOffload then simpleFwdProcessOffload w.ft mbuf queueId a.clock a.offload
    else (w.ft, mbuf)
  let w := { w with ft }
  if cfg.rxOnly then { w with freed := w.freed ++ [mbuf] }
  else if a.accepted then { w with sent := w.sent ++ [(portId ^^^ 1, mbuf)] }
  else w

/-- A burst on one port, and what the aging that follows it does to the flows. -/
structure Burst where
  arrivals : List Arrival
  aged : List Event

def processBurst (cfg : Config) (portId queueId : Nat) (w : Worker) (burst : Burst) : Worker :=
  let w := burst.arrivals.foldl (processPkt cfg portId queueId) w
  if cfg.ageThread then { w with ft := burst.aged.foldl step w.ft } else w

/-- A round of the loop: the result of dumping the statistics where they are due, and the bursts
of the two ports. -/
structure Round where
  dumpStats : Option Int
  first : Burst
  second : Burst

def processRounds (cfg : Config) (params : PerCoreParams) : Worker → List Round → Worker
  | w, [] => w
  | w, round :: rounds =>
    if (round.dumpStats.getD 0) ≠ 0 then w
    else
      let w := processBurst cfg 0 params.queues.1 w round.first
      let w := processBurst cfg 1 params.queues.2 w round.second
      processRounds cfg params w rounds

/-- The rounds until `force_quit` is set. -/
def simpleFwdProcessPkts (cfg : Config) (params : PerCoreParams) (ft : Ft) (rounds : List Round) :
    Worker :=
  let w : Worker := ⟨ft, [], [], []⟩
  if !params.used then w else processRounds cfg params w rounds

end DocaApps.SimpleFwd.Lcores
