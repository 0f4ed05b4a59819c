import DocaApps.Common.FwdFields
import DocaApps.Common.ParamsLists
import DocaApps.Firewall.Shell
import DocaApps.Lib.Runs

namespace DocaApps.Common.FlowShell
open Common.FlowParser Common.StructParser Common.ParamsParser Common.ParamsLists
open Common.StructFields
open Common.FlowSkeleton (PipeType)
open Firewall.Shell (filling)

inductive FwdType where
  | none | rss | port | pipe | drop
  deriving DecidableEq, Repr

def parseFwdType (fwdStr : List Char) : Except DocaError FwdType :=
  if fwdStr = "rss".toList then .ok .rss
  else if fwdStr = "port".toList then .ok .port
  else if fwdStr = "pipe".toList then .ok .pipe
  else if fwdStr = "drop".toList then .ok .drop
  else .error .invalidValue

/-- `struct doca_flow_monitor`, a resource type as whether it is the one that is not shared. -/
structure Monitor where
  nonSharedMeter : Bool := false
  nonSharedCounter : Bool := false
  agingEnabled : Bool := false
  cir : BitVec 64 := 0
  cbs : BitVec 64 := 0
  agingSec : BitVec 32 := 0
  deriving DecidableEq, Repr

def parseMonitorField (fieldName : String) (value : List Char) (s : Monitor) : Filled Monitor :=
  match fieldName with
  | "flags" =>
    let flags := BitVec.ofInt 8 (strtol value 0).1
    some (.ok (), { s with
      nonSharedMeter := s.nonSharedMeter || flags.getLsbD 1
      nonSharedCounter := s.nonSharedCounter || flags.getLsbD 2
      agingEnabled := s.agingEnabled || flags.getLsbD 3 })
  | "cir" => some (.ok (), { s with cir := BitVec.ofNat 64 (strtoull value 0).1 })
  | "cbs" => some (.ok (), { s with cbs := BitVec.ofNat 64 (strtoull value 0).1 })
  | "aging_sec" => some (.ok (), { s with agingSec := BitVec.ofInt 32 (strtol value 0).1 })
  | _ => some (.error .invalidValue, s)

/-- The two forward structures. -/
inductive Forward where
  | fwd | fwdMiss
  deriving DecidableEq, Repr

/-- `struct doca_flow_fwd`: its queues are the number of a block, or `NULL`. -/
structure Fwd where
  type : FwdType := .none
  rssOuterFlags : BitVec 32 := 0
  rssInnerFlags : BitVec 32 := 0
  rssQueues : Option Nat := none
  numOfQueues : BitVec 32 := 0
  deriving DecidableEq, Repr

/-- The port is stored where the outer flags are, in their low half. -/
def Fwd.setPortId (f : Fwd) (portId : BitVec 16) : Fwd :=
  { f with rssOuterFlags := (f.rssOuterFlags &&& 0xffff0000) ||| portId.setWidth 32 }

/-- The global variables of the parser, and the blocks of queues that were ever allocated, each with
what is in it until it is freed. -/
structure Globals where
  pipeMatch : Match := zeroMatch
  entryMatch : Match := zeroMatch
  matchMask : Match := zeroMatch
  actions : Actions := zeroActions
  monitor : Monitor := {}
  fwds : Forward → Fwd := fun _ => {}
  pipePortId : BitVec 16 := 0
  nextPipeIds : Forward → BitVec 64 := fun _ => 0
  rssQueues : Option Nat := none
  blocks : List (Option (List (BitVec 16))) := []

def Globals.setFwd (g : Globals) (d : Forward) (f : Fwd) : Globals :=
  { g with fwds := Function.update g.fwds d f }

def Globals.setNextPipeId (g : Globals) (d : Forward) (id : BitVec 64) : Globals :=
  { g with nextPipeIds := Function.update g.nextPipeIds d id }

def Globals.freeQueues (g : Globals) : Globals :=
  match g.rssQueues with
  | none => g
  | some b => { g with blocks := g.blocks.set b none }

variable (allocates : Nat → Bool)

/-- The queues of the last call are freed, whichever structure they are in. -/
def parseRssQueues (rssQueuesStr : List Char) (numOfQueues : BitVec 32) (g : Globals) :
    Filled Globals :=
  (FwdFields.parseRssQueues allocates rssQueuesStr numOfQueues.toInt).map fun
    | .error e => (.error e, { g.freeQueues with rssQueues := none })
    | .ok queues => (.ok (),
        { g.freeQueues with
          rssQueues := some g.blocks.length
          blocks := g.freeQueues.blocks ++ [some queues] })

/-- The two forward structures are filled in the same way. The id of the next pipe is in neither. -/
def parseForwardField (d : Forward) (fieldName : String) (value : List Char) (g : Globals) :
    Filled Globals :=
  let f := g.fwds d
  match fieldName with
  | "type" =>
    match parseFwdType value with
    | .error e => some (.error e, g)
    | .ok type => some (.ok (), g.setFwd d { f with type })
  | "rss_outer_flags" =>
    some (.ok (), g.setFwd d { f with rssOuterFlags := BitVec.ofInt 32 (strtol value 0).1 })
  | "rss_inner_flags" =>
    some (.ok (), g.setFwd d { f with rssInnerFlags := BitVec.ofInt 32 (strtol value 0).1 })
  | "rss_queues" =>
    (parseRssQueues allocates value f.numOfQueues g).map fun
      | (.error e, g) => (.error e, g)
      | (.ok (), g) => (.ok (), g.setFwd d { f with rssQueues := g.rssQueues })
  | "num_of_queues" =>
    some (.ok (), g.setFwd d { f with numOfQueues := BitVec.ofInt 32 (strtol value 0).1 })
  | "port_id" => some (.ok (), g.setFwd d (f.setPortId (BitVec.ofInt 16 (strtol value 0).1)))
  | "next_pipe_id" => some (.ok (), g.setNextPipeId d (BitVec.ofNat 64 (strtoull value 0).1))
  | _ => some (.error .invalidValue, g)

def parseFwdField : String → List Char → Globals → Filled Globals :=
  parseForwardField allocates .fwd

def parseFwdMissField : String → List Char → Globals → Filled Globals :=
  parseForwardField allocates .fwdMiss

inductive Struct where
  | pipeMatch | entryMatch | matchMask | actions | monitor
  | forward (d : Forward)
  deriving DecidableEq, Repr

/-- What `parse_struct` leaves, unless it reads behind the end of a text or writes outside an
array. -/
def filled {S : Type} (fillStruct : String → List Char → S → Filled S) (input : List Char) (s : S) :
    Option S :=
  let parsed := parseStruct (filling fillStruct) input (some s)
  match parsed.ending with
  | .outside => none
  | .returned _ => parsed.structPtr

def cmdCreateStructParsed (flowStruct : Struct) (flowStructInput : List Char) (g : Globals) :
    Option Globals :=
  match flowStruct with
  | .pipeMatch =>
    (filled parseMatchField flowStructInput zeroMatch).map fun m => { g with pipeMatch := m }
  | .entryMatch =>
    (filled parseMatchField flowStructInput zeroMatch).map fun m => { g with entryMatch := m }
  | .matchMask =>
    (filled parseMatchField flowStructInput zeroMatch).map fun m => { g with matchMask := m }
  | .actions =>
    (filled parseActionsField flowStructInput zeroActions).map fun a => { g with actions := a }
  | .monitor =>
    (filled parseMonitorField flowStructInput {}).map fun m => { g with monitor := m }
  | .forward .fwd => filled (parseFwdField allocates) flowStructInput (g.setFwd .fwd {})
  | .forward .fwdMiss =>
    filled (parseFwdMissField allocates) flowStructInput (g.setFwd .fwdMiss {})

/-- A forward structure as a callback reads it: its queues are `NULL`, were freed, or are there. -/
structure FwdArg where
  type : FwdType
  rssOuterFlags : BitVec 32
  rssInnerFlags : BitVec 32
  numOfQueues : BitVec 32
  rssQueues : Option (Option (List (BitVec 16)))
  deriving DecidableEq, Repr

def Globals.fwdArg (g : Globals) (d : Forward) : FwdArg :=
  let f := g.fwds d
  { type := f.type, rssOuterFlags := f.rssOuterFlags, rssInnerFlags := f.rssInnerFlags
    numOfQueues := f.numOfQueues
    rssQueues := f.rssQueues.map fun b => g.blocks[b]?.join }

/-- What the callbacks are given, behind their pointers. -/
inductive Call where
  | createPipe (name : Option (List Char)) (isRoot : Bool) (type : PipeType)
      (pipeMatch : Option Match) (actions : Option Actions) (monitor : Option Monitor)
      (matchMask : Option Match) (pipePortId : BitVec 16) (fwd : Option FwdArg)
      (fwdNextPipeId : BitVec 64) (fwdMiss : Option FwdArg) (fwdMissNextPipeId : BitVec 64)
  | addEntry (pipeQueue : BitVec 16) (pipeId : BitVec 64) (entryMatch : Match) (actions : Actions)
      (monitor : Option Monitor) (fwd : Option FwdArg) (fwdNextPipeId : BitVec 64)
  | addControlPipeEntry (pipeQueue : BitVec 16) (priority : BitVec 8) (pipeId : BitVec 64)
      (entryMatch : Match) (matchMask : Option Match) (fwd : Option FwdArg)
      (fwdNextPipeId : BitVec 64)

/-- What a pointer is set to when the command asks for it. -/
def given {α : Type} (asked : Bool) (a : α) : Option α := if asked then some a else none

def cmdCreatePipeParsed (params : List Char) (g : Globals) : Option (Globals × Option Call) :=
  (parseCreatePipeParams params { pipePortId := g.pipePortId }).map fun (result, cfg) =>
    let g := { g with pipePortId := cfg.pipePortId }
    match result with
    | .error _ => (g, none)
    | .ok () => (g, some (.createPipe cfg.name cfg.isRoot cfg.type
        (given (cfg.type ≠ .control) g.pipeMatch) (given (cfg.type ≠ .control) g.actions)
        (given cfg.monitor g.monitor) (given cfg.matchMask g.matchMask) g.pipePortId
        (given cfg.fwdAction (g.fwdArg .fwd)) (g.nextPipeIds .fwd)
        (given cfg.fwdMissAction (g.fwdArg .fwdMiss)) (g.nextPipeIds .fwdMiss)))

def cmdAddEntryParsed (params : List Char) (g : Globals) : Option (Globals × Option Call) :=
  (parseAddEntryParams params {}).map fun (result, st) =>
    match result with
    | .error _ => (g, none)
    | .ok () => (g, some (.addEntry (st.pipeQueue.setWidth 16) st.pipeId g.entryMatch g.actions
        (given st.monitorAction g.monitor) (given st.fwdAction (g.fwdArg .fwd))
        (g.nextPipeIds .fwd)))

def cmdAddControlPipeEntryParsed (params : List Char) (g : Globals) :
    Option (Globals × Option Call) :=
  (parseAddControlPipeEntryParams params {}).map fun (result, st) =>
    match result with
    | .error _ => (g, none)
    | .ok () => (g, some (.addControlPipeEntry st.pipeQueue st.priority st.pipeId g.entryMatch
        (given st.matchMaskAction g.matchMask) (given st.fwdAction (g.fwdArg .fwd))
        (g.nextPipeIds .fwd)))

inductive Command where
  | createStruct (flowStruct : Struct) (flowStructInput : List Char)
  | createPipe (params : List Char)
  | addEntry (params : List Char)
  | addControlPipeEntry (params : List Char)

def command (c : Command) (g : Globals) : Option (Globals × Option Call) :=
  match c with
  | .createStruct flowStruct input =>
    (cmdCreateStructParsed allocates flowStruct input g).map fun g => (g, none)
  | .createPipe params => cmdCreatePipeParsed params g
  | .addEntry params => cmdAddEntryParsed params g
  | .addControlPipeEntry params => cmdAddControlPipeEntryParsed params g

/-- The shell, until a command leaves its memory. The last input for each structure is noted down;
no command reads it. -/
structure Shell where
  globals : Option Globals := some {}
  latest : Struct → Option (List Char) := fun _ => none

def Shell.note (s : Shell) : Command → Struct → Option (List Char)
  | .createStruct flowStruct input => Function.update s.latest flowStruct (some input)
  | _ => s.latest

def Shell.step (s : Shell) (c : Command) : Shell :=
  { globals := (s.globals.bind (command allocates c)).map Prod.fst
    latest := s.note c }

/-- The call that a command makes, if it makes one. -/
def Shell.call (s : Shell) (c : Command) : Option (Option Call) :=
  (s.globals.bind (command allocates c)).map Prod.snd

/-- After a history of commands. -/
def Shell.after (h : List Command) : Shell := Lib.Runs.run (Shell.step allocates) {} h

end DocaApps.Common.FlowShell
