import DocaApps.Doca
import DocaApps.Lib.Command
import DocaApps.Lib.Handles

namespace DocaApps.L2Reflector.Setup
open Lib.Handles Lib.Command

inductive Side where
  | sq | rq
  deriving DecidableEq, Repr

inductive Domain where
  | rx | fdb
  deriving DecidableEq, Repr

/-- The flow tables, and the rules, by their names in `struct l2_reflector_config`. -/
inductive Steering where
  | rx | txRoot | tx
  deriving DecidableEq, Repr

/-- All that the application acquires: device memory by what it is for, heap blocks by the pointer
to them. -/
inductive Handle where
  | argp | devList | ibvCtx | pd | process | eventHandler
  | cqDbr (side : Side) | cqRingSrc (side : Side) | cqRing (side : Side) | cq (side : Side)
  | wqd (side : Side) | wqRing (side : Side) | wqDbr (side : Side) | wq (side : Side)
  | mkey (side : Side) | rxWqes | devData | devDataDaddr
  | matchMask | domain (d : Domain)
  | tbl (t : Steering) | drTable (t : Steering) | drMatcher (t : Steering)
  | ruleBlock (r : Steering) | drAction (r : Steering) | drRule (r : Steering)
  deriving DecidableEq, Repr

def Steering.domain : Steering → Domain
  | .rx => .rx
  | .txRoot => .fdb
  | .tx => .fdb

/-- What a handle's release has to wait for. -/
def dependents : Handle → List Handle
  | .ibvCtx => [.pd, .process, .domain .rx, .domain .fdb]
  | .pd => [.wq .sq, .wq .rq, .mkey .sq, .mkey .rq]
  | .process => [.eventHandler, .cq .sq, .cq .rq, .wq .sq, .wq .rq, .mkey .sq, .mkey .rq,
      .cqDbr .sq, .cqDbr .rq, .cqRing .sq, .cqRing .rq, .wqd .sq, .wqd .rq, .wqRing .sq,
      .wqRing .rq, .wqDbr .sq, .wqDbr .rq, .devDataDaddr]
  | .eventHandler => [.cq .rq]
  | .cqDbr side => [.cq side]
  | .cqRing side => [.cq side]
  | .cq side => [.wq side]
  | .wqd side => [.mkey side]
  | .wqRing side => [.wq side]
  | .wqDbr side => [.wq side]
  | .wq .rq => [.drAction .rx]
  | .domain .rx => [.drTable .rx]
  | .domain .fdb => [.drTable .txRoot, .drTable .tx, .drAction .tx]
  | .drTable .tx => [.drMatcher .tx, .drAction .txRoot]
  | .drTable t => [.drMatcher t]
  | .drMatcher t => [.drRule t]
  | .drAction r => [.drRule r]
  | _ => []

/-- The steps that can fail: an acquisition, or a call that acquires nothing. -/
inductive Call where
  | acquire (h : Handle)
  | initRqRing | setRqDbr | deviceInit | eventHandlerRun
  deriving DecidableEq, Repr

/-- The devices that are listed, if they are, the one to be opened, and the steps that fail. -/
structure Driver where
  devices : Option (List String)
  deviceName : String
  fails : Call → Bool

/-- The handles, and which pointers are set: those of the configuration, and those in the blocks of
the tables and rules. -/
structure Config extends Table Handle where
  domains : Domain → Bool
  tables : Steering → Bool
  rules : Steering → Bool
  drTables : Steering → Bool
  drMatchers : Steering → Bool
  drActions : Steering → Bool
  drRules : Steering → Bool

/-- After the command line was parsed. -/
def Config.initial : Config :=
  { Table.empty.create .argp with
    domains := fun _ => false, tables := fun _ => false, rules := fun _ => false,
    drTables := fun _ => false, drMatchers := fun _ => false, drActions := fun _ => false,
    drRules := fun _ => false }

abbrev SetupM := EStateM DocaError Config

def handles (f : Table Handle → Table Handle) : SetupM Unit :=
  modify fun s => { s with toTable := f s.toTable }

def destroy (h : Handle) : SetupM Unit := handles (Table.release (dependents h) h)

/-- A pointer is followed, or the call made, only when it is set. -/
def ifSet (pointer : Config → Bool) (x : SetupM Unit) : SetupM Unit := do
  if pointer (← get) then x

/-- On an error the clean-up is done and the error returned. -/
def orElse (x cleanup : SetupM Unit) : SetupM Unit :=
  tryCatch x fun err => do
    cleanup
    throw err

def setTable (t : Steering) (set : Bool) : SetupM Unit :=
  modify fun s => { s with tables := Function.update s.tables t set }

def setDrTable (t : Steering) (set : Bool) : SetupM Unit :=
  modify fun s => { s with drTables := Function.update s.drTables t set }

def setDrMatcher (t : Steering) (set : Bool) : SetupM Unit :=
  modify fun s => { s with drMatchers := Function.update s.drMatchers t set }

def setRule (r : Steering) (set : Bool) : SetupM Unit :=
  modify fun s => { s with rules := Function.update s.rules r set }

def setDrAction (r : Steering) (set : Bool) : SetupM Unit :=
  modify fun s => { s with drActions := Function.update s.drActions r set }

def setDrRule (r : Steering) (set : Bool) : SetupM Unit :=
  modify fun s => { s with drRules := Function.update s.drRules r set }

def setDomain (d : Domain) : SetupM Unit :=
  modify fun s => { s with domains := Function.update s.domains d true }

variable (drv : Driver)

def call (c : Call) (hs : List Handle) (err : DocaError) : SetupM Unit := do
  handles (Table.use hs)
  if drv.fails c then throw err

def acquire (h : Handle) (hs : List Handle) (err : DocaError) : SetupM Unit := do
  call drv (.acquire h) hs err
  handles (Table.create h)

def openIbvDevice : SetupM Unit := do
  match drv.devices with
  | none => throw .initialization
  | some names =>
    handles (Table.create .devList)
    if drv.deviceName ∈ names then
      orElse (acquire drv .ibvCtx [.devList] .initialization) (destroy .devList)
      destroy .devList
    else
      destroy .devList
      throw .initialization

def setupIbvDevice : SetupM Unit := do
  openIbvDevice drv
  orElse (acquire drv .pd [.ibvCtx] .driver) (destroy .ibvCtx)

def setupDevice : SetupM Unit := do
  acquire drv .process [.ibvCtx] .driver
  acquire drv .eventHandler [.process] .driver

def allocateCqMemory (side : Side) : SetupM Unit := do
  acquire drv (.cqDbr side) [.process] .driver
  acquire drv (.cqRingSrc side) [] .noMemory
  orElse (acquire drv (.cqRing side) [.process, .cqRingSrc side] .driver)
    (destroy (.cqRingSrc side))
  destroy (.cqRingSrc side)

def allocateSqMemory : SetupM Unit := do
  acquire drv (.wqd .sq) [.process] .driver
  acquire drv (.wqRing .sq) [.process] .driver
  acquire drv (.wqDbr .sq) [.process] .driver

def allocateSq : SetupM Unit := do
  allocateCqMemory drv .sq
  acquire drv (.cq .sq) [.process, .ibvCtx, .cqDbr .sq, .cqRing .sq] .driver
  allocateSqMemory drv
  acquire drv (.wq .sq) [.process, .pd, .cq .sq, .wqRing .sq] .driver
  acquire drv (.mkey .sq) [.process, .pd, .wqd .sq] .driver

def initDpaRqRing : SetupM Unit := do
  acquire drv .rxWqes [] .noMemory
  orElse (call drv .initRqRing [.process, .rxWqes, .wqRing .rq] .driver) (destroy .rxWqes)
  destroy .rxWqes

def allocateRq : SetupM Unit := do
  allocateCqMemory drv .rq
  acquire drv (.cq .rq) [.process, .eventHandler, .cqDbr .rq, .cqRing .rq] .driver
  acquire drv (.wqd .rq) [.process] .driver
  acquire drv (.wqRing .rq) [.process] .driver
  acquire drv (.wqDbr .rq) [.process] .driver
  acquire drv (.mkey .rq) [.process, .pd, .wqd .rq] .driver
  initDpaRqRing drv
  acquire drv (.wq .rq) [.process, .pd, .cq .rq, .wqDbr .rq, .wqRing .rq] .driver
  call drv .setRqDbr [.process, .wqDbr .rq] .driver

/-- `l2_reflector_rq_destroy` and `l2_reflector_sq_destroy`. -/
def wqDestroy (side : Side) : SetupM Unit := do
  destroy (.wq side)
  destroy (.mkey side)
  destroy (.wqDbr side)
  destroy (.wqRing side)
  destroy (.wqd side)

def cqDestroy (side : Side) : SetupM Unit := do
  destroy (.cq side)
  destroy (.cqRing side)
  destroy (.cqDbr side)

def devQueuesDestroy : SetupM Unit := do
  wqDestroy .rq
  wqDestroy .sq
  cqDestroy .rq
  cqDestroy .sq

def allocateDeviceResources : SetupM Unit := do
  allocateSq drv
  allocateRq drv
  orElse (acquire drv .devData [] .noMemory) devQueuesDestroy
  orElse (acquire drv .devDataDaddr [.process, .devData] .driver) do
    devQueuesDestroy
    destroy .devData

/-- The pointers in the block are those of the table. -/
def createFlowTable (t : Steering) : SetupM Unit := do
  acquire drv (.tbl t) [] .noMemory
  setDrTable t false
  setDrMatcher t false
  orElse (do
      acquire drv (.drTable t) [.domain t.domain] .driver
      setDrTable t true
      acquire drv (.drMatcher t) [.drTable t, .matchMask] .driver
      setDrMatcher t true)
    (do
      ifSet (fun s => s.drMatchers t) (destroy (.drMatcher t))
      ifSet (fun s => s.drTables t) (destroy (.drTable t))
      destroy (.tbl t))
  setTable t true

/-- The table is destroyed before its matcher. -/
def destroyTable (t : Steering) : SetupM Unit :=
  ifSet (fun s => s.tables t) do
    handles (Table.use [.tbl t])
    ifSet (fun s => s.drTables t) (destroy (.drTable t))
    ifSet (fun s => s.drMatchers t) (destroy (.drMatcher t))
    destroy (.tbl t)

/-- The action is destroyed before its rule. -/
def destroyRule (r : Steering) : SetupM Unit :=
  ifSet (fun s => s.rules r) do
    handles (Table.use [.ruleBlock r])
    ifSet (fun s => s.drActions r) (destroy (.drAction r))
    ifSet (fun s => s.drRules r) (destroy (.drRule r))
    destroy (.ruleBlock r)

/-- A rule with its action: the block, the action on these handles, and the rule for a matcher. -/
def createRule (r : Steering) (target : List Handle) : SetupM Unit := do
  acquire drv (.ruleBlock r) [] .noMemory
  setRule r true
  setDrAction r false
  setDrRule r false
  acquire drv (.drAction r) target .driver
  setDrAction r true
  acquire drv (.drRule r) [.drMatcher r, .drAction r, .matchMask] .driver
  setDrRule r true

def createDomain (d : Domain) : SetupM Unit := do
  orElse (acquire drv (.domain d) [.ibvCtx] .driver) (destroy .matchMask)
  setDomain d

def createSteeringRuleRx : SetupM Unit := do
  acquire drv .matchMask [] .noMemory
  createDomain drv .rx
  orElse (createFlowTable drv .rx) do
    destroy (.domain .rx)
    destroy .matchMask
  orElse (createRule drv .rx [.wq .rq]) do
    destroy .matchMask
    ifSet (fun s => s.rules .rx) do
      destroyRule .rx
      setRule .rx false
    destroyTable .rx
    setTable .rx false
    destroy (.domain .rx)
  destroy .matchMask

/-- After an error the rule of the other direction is destroyed in place of the second one. -/
def createSteeringRuleTx : SetupM Unit := do
  acquire drv .matchMask [] .noMemory
  createDomain drv .fdb
  orElse (createFlowTable drv .txRoot) do
    destroy (.domain .fdb)
    destroy .matchMask
  orElse (createFlowTable drv .tx) do
    destroyTable .txRoot
    setTable .txRoot false
    destroy (.domain .fdb)
    destroy .matchMask
  orElse (do
      createRule drv .txRoot [.drTable .tx]
      createRule drv .tx [.domain .fdb])
    (do
      destroy .matchMask
      ifSet (fun s => s.rules .txRoot) do
        destroyRule .txRoot
        setRule .txRoot false
      ifSet (fun s => s.rules .tx) do
        destroyRule .rx
        setRule .tx false
      destroyTable .txRoot
      setTable .txRoot false
      destroyTable .tx
      setTable .tx false
      destroy (.domain .fdb))
  destroy .matchMask

def deviceResourcesDestroy : SetupM Unit := do
  devQueuesDestroy
  destroy .devDataDaddr
  destroy .devData

def steeringRulesDestroy : SetupM Unit := do
  [Steering.rx, .tx, .txRoot].forM fun r => ifSet (fun s => s.rules r) do
    destroyRule r
    setRule r false
  [Steering.rx, .tx, .txRoot].forM fun t => ifSet (fun s => s.tables t) do
    destroyTable t
    setTable t false
  [Domain.rx, .fdb].forM fun d => ifSet (fun s => s.domains d) (destroy (.domain d))

def deviceDestroy : SetupM Unit := destroy .eventHandler

def ibvDeviceDestroy : SetupM Unit := destroy .pd

def l2ReflectorDestroy : SetupM Unit := do
  steeringRulesDestroy
  deviceResourcesDestroy
  deviceDestroy
  ibvDeviceDestroy
  destroy .process
  destroy .ibvCtx

inductive ExitStatus where
  | success | failure
  deriving DecidableEq, Repr

/-- The labels at the end of `main`, from the last one up. -/
def ibvDeviceCleanup : SetupM ExitStatus := do
  ibvDeviceDestroy
  destroy .argp
  return .failure

def deviceCleanup : SetupM ExitStatus := do
  deviceDestroy
  ibvDeviceCleanup

def deviceResourcesCleanup : SetupM ExitStatus := do
  deviceResourcesDestroy
  deviceCleanup

def ruleCleanup : SetupM ExitStatus := do
  steeringRulesDestroy
  deviceResourcesCleanup

/-- The rules and the event handler, and the end of the application after a signal. -/
def steer : SetupM ExitStatus := do
  if ← succeeded (createSteeringRuleRx drv) then
    if ← succeeded (createSteeringRuleTx drv) then
      if ← succeeded (call drv .eventHandlerRun [.eventHandler] .driver) then
        l2ReflectorDestroy
        return .success
      else ruleCleanup
    else ruleCleanup
  else deviceResourcesCleanup

def runDevice : SetupM ExitStatus := do
  if ← succeeded (setupDevice drv) then
    if ← succeeded (allocateDeviceResources drv) then
      if ← succeeded (call drv .deviceInit [.process, .devDataDaddr] .driver) then steer drv
      else deviceResourcesCleanup
    else deviceCleanup
  else ibvDeviceCleanup

/-- `main` after the command line. -/
def main : SetupM ExitStatus := do
  if ← succeeded (setupIbvDevice drv) then runDevice drv
  else
    destroy .argp
    return .failure

end DocaApps.L2Reflector.Setup
