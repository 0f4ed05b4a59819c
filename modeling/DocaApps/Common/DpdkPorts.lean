import DocaApps.Doca
import DocaApps.Lib.FirstStop

namespace DocaApps.Common.DpdkPorts
open Lib.FirstStop

def rteMaxEthports : Nat := 32

def numMbufs : Nat := 8 * 1024

/-- `struct application_port_config` and the one around it. -/
structure DpdkConfig where
  nbPorts : Int
  nbQueues : Nat
  nbHairpinQ : Int
  enableMbufMetadata : Bool
  selfHairpin : Bool
  rssSupport : Bool
  lpbkSupport : Bool
  isolatedMode : Bool
  reserveMainThread : Bool

/-- The queues of a port whose peers are asked for: with 1 those that send, with 0 those that
receive. -/
inductive Direction where
  | tx | rx
  deriving DecidableEq, Repr

/-- The sending port and the receiving one. -/
def Direction.pair : Direction → Nat → Nat → Nat × Nat
  | .tx, port, peer => (port, peer)
  | .rx, port, peer => (peer, port)

/-- The calls of the set-up that can fail. A call that binds is known by the port being bound, and
by its place in the list of that port's peers. -/
inductive Call where
  | poolCreate (totalNbMbufs : Nat)
  | metadataRegister
  | devInfoGet (port : Nat)
  | devConfigure (port nbRxQueue nbTxQueue : Nat) (rss lpbk : Bool)
  | promiscuousEnable (port : Nat)
  | rxQueueSetup (port queue : Nat)
  | txQueueSetup (port queue : Nat)
  | txHairpinQueueSetup (port peer queue : Nat)
  | rxHairpinQueueSetup (port peer queue : Nat)
  | flowIsolate (port : Nat) (isolated : Bool)
  | devStart (port : Nat)
  | getPeerPorts (port : Nat) (dir : Direction)
  | hairpinBind (port : Nat) (dir : Direction) (index peer : Nat)
  deriving DecidableEq, Repr

/-- What the application finds: the valid ports, how many of them it may take, the cores, the
answers about peers, and the calls that fail. -/
structure Ethdev where
  isValidPort : Nat → Bool
  valid_lt : ∀ port, isValidPort port = true → port < rteMaxEthports
  countAvail : Nat
  countAvail_le : countAvail ≤ ((List.range rteMaxEthports).filter isValidPort).length
  lcoreCount : Nat
  peers : Direction → Nat → List Nat
  fails : Call → Bool

/-- The ports and the pool, and what has been done to them. The names of the ports given to calls
are kept in the order of the calls. -/
structure Ports where
  started : Finset Nat
  bound : Finset (Nat × Nat)
  mbufPool : Bool
  everStarted : Finset Nat
  unbound : List Nat
  stopped : List Nat
  closed : List Nat
  poolsCreated : Nat
  poolsFreed : Nat
  deriving DecidableEq

def Ports.initial : Ports :=
  { started := ∅, bound := ∅, mbufPool := false, everStarted := ∅, unbound := [], stopped := [],
    closed := [], poolsCreated := 0, poolsFreed := 0 }

/-- A set-up stops with an error, or at an assertion. -/
inductive Stop where
  | failed (err : DocaError)
  | aborted
  deriving DecidableEq, Repr

abbrev Dpdk := EStateM Stop Ports

inductive Step where
  | call (c : Call)
  | assert (holds : Bool)

def Call.effect : Call → Ports → Ports
  | .poolCreate _, s => { s with mbufPool := true, poolsCreated := s.poolsCreated + 1 }
  | .devStart port, s => { s with
      started := insert port s.started
      everStarted := insert port s.everStarted }
  | .hairpinBind port dir _ peer, s => { s with bound := insert (dir.pair port peer) s.bound }
  | _, s => s

def Step.effect : Step → Ports → Ports
  | .call c, s => c.effect s
  | .assert _, s => s

variable (drv : Ethdev) (cfg : DpdkConfig)

/-- How a step ends the set-up, if it does. -/
def Step.stop : Step → Option Stop
  | .call c => if drv.fails c then some (.failed .driver) else none
  | .assert holds => if holds then none else some .aborted

def perform (step : Step) : Dpdk PUnit :=
  match step.stop drv with
  | some stop => throw stop
  | none => modify step.effect

/-- The steps of `bind_hairpin_queues`, where each list of peers is asked for before it is used. -/
def bindSteps (port : Nat) : List Step :=
  [.tx, .rx].flatMap fun dir => .call (.getPeerPorts port dir) ::
    (drv.peers dir port).mapIdx fun index peer => .call (.hairpinBind port dir index peer)

def bindHairpinQueues (port : Nat) : Dpdk PUnit := (bindSteps drv port).forM (perform drv)

def unbindHairpinQueues (port : Nat) : Dpdk PUnit := do
  [Direction.tx, .rx].forM fun dir => (drv.peers dir port).forM fun peer =>
    modify fun s => { s with bound := s.bound.erase (dir.pair port peer) }
  modify fun s => { s with unbound := s.unbound ++ [port] }

def setupHairpinQueues (port peer : Nat) (hairpinQueues : List Nat) : List Step :=
  hairpinQueues.flatMap fun queue =>
    [.call (.txHairpinQueueSetup port peer queue), .call (.rxHairpinQueueSetup port peer queue)]

def disableHairpinQueues (nbPorts : Nat) : Dpdk PUnit :=
  ((List.range nbPorts).filter drv.isValidPort).forM (unbindHairpinQueues drv)

def enableHairpinQueues (nbPorts : Nat) : Dpdk PUnit :=
  visit drv.isValidPort nbPorts (fun port =>
    tryCatch (bindHairpinQueues drv port) fun stop => do
      disableHairpinQueues drv port
      throw stop) 0 (List.range rteMaxEthports)

/-- The hairpin queues of `port_init`: to the port itself and to its peer, or to one of them. -/
def hairpinSteps (port : Nat) : List Step :=
  let nbHairpinQueues := (cfg.nbHairpinQ % 2 ^ 16).toNat
  if nbHairpinQueues ≠ 0 ∧ cfg.selfHairpin ∧ drv.isValidPort (port ^^^ 1) then
    let queues := List.range (nbHairpinQueues / 2)
    .assert (nbHairpinQueues % 2 = 0) ::
      setupHairpinQueues port port (queues.map fun i => (cfg.nbQueues + i * 2) % 2 ^ 16) ++
      setupHairpinQueues port (port ^^^ 1) (queues.map fun i => (cfg.nbQueues + i * 2 + 1) % 2 ^ 16)
  else if nbHairpinQueues ≠ 0 then
    let queues := (List.range nbHairpinQueues).map fun i => (cfg.nbQueues + i) % 2 ^ 16
    if drv.isValidPort (port ^^^ 1) then setupHairpinQueues port (port ^^^ 1) queues
    else setupHairpinQueues port port queues
  else []

/-- The steps of `port_init` before the port starts. -/
def prepareSteps (port : Nat) : List Step :=
  let nbHairpinQueues := (cfg.nbHairpinQ % 2 ^ 16).toNat
  let rings := cfg.nbQueues
  let rss := cfg.rssSupport && decide (1 < cfg.nbQueues)
  [.call (.devInfoGet port),
    .call (.devConfigure port (rings + nbHairpinQueues) (rings + nbHairpinQueues) rss
      cfg.lpbkSupport),
    .call (.promiscuousEnable port)] ++
  (List.range rings).map (fun q => .call (.rxQueueSetup port q)) ++
  (List.range rings).map (fun q => .call (.txQueueSetup port q)) ++
  hairpinSteps drv cfg port ++
  [.call (.flowIsolate port cfg.isolatedMode)]

def portInitSteps (port : Nat) : List Step :=
  prepareSteps drv cfg port ++ [.call (.devStart port)]

def portInit (port : Nat) : Dpdk PUnit := (portInitSteps drv cfg port).forM (perform drv)

/-- The ports are stopped and closed downwards from this id, and the pool is freed. -/
def dpdkPortsFini (nbPorts : Nat) : Dpdk PUnit := do
  visit drv.isValidPort cfg.nbPorts (fun port => modify fun s => { s with
    started := s.started.erase port
    stopped := s.stopped ++ [port]
    closed := s.closed ++ [port] }) 0 (List.range (nbPorts + 1)).reverse
  modify fun s => { s with
    poolsFreed := if s.mbufPool then s.poolsFreed + 1 else s.poolsFreed }

/-- Only an error is cleaned up after. -/
def cleanUp (clean : Dpdk PUnit) : Stop → Dpdk PUnit
  | .failed err => do
    clean
    throw (.failed err)
  | .aborted => throw .aborted

def totalNbMbufs : Nat :=
  (cfg.nbQueues * (cfg.nbPorts % 2 ^ 16).toNat * numMbufs) % 2 ^ 32

def dpdkPortsInit : Dpdk PUnit := do
  perform drv (.call (.poolCreate (totalNbMbufs cfg)))
  if cfg.enableMbufMetadata then perform drv (.call .metadataRegister)
  visit drv.isValidPort (cfg.nbPorts % 2 ^ 16) (fun port =>
    tryCatch (portInit drv cfg port) (cleanUp (dpdkPortsFini drv cfg port)))
    0 (List.range rteMaxEthports)

/-- The configuration with the number of queues that the cores allow. -/
def DpdkConfig.withQueues : DpdkConfig :=
  let nbQueues := drv.lcoreCount % 2 ^ 16
  { cfg with
    nbQueues := if cfg.reserveMainThread then (nbQueues + (2 ^ 16 - 1)) % 2 ^ 16 else nbQueues }

def dpdkQueuesAndPortsInit : Dpdk DpdkConfig := do
  if 0 < cfg.nbPorts ∧ (drv.countAvail : Int) < cfg.nbPorts then throw (.failed .driver)
  if 0 < cfg.nbQueues ∧ drv.lcoreCount < cfg.nbQueues then throw (.failed .driver)
  let cfg := cfg.withQueues drv
  if 0 < cfg.nbPorts then dpdkPortsInit drv cfg
  if 0 < cfg.nbHairpinQ then
    tryCatch (enableHairpinQueues drv (cfg.nbPorts % 2 ^ 8).toNat)
      (cleanUp (dpdkPortsFini drv cfg rteMaxEthports))
  return cfg

def dpdkQueuesAndPortsFini : Dpdk PUnit := do
  disableHairpinQueues drv rteMaxEthports
  dpdkPortsFini drv cfg rteMaxEthports

end DocaApps.Common.DpdkPorts
