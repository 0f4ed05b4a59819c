import DocaApps.Common.FlowParser

namespace DocaApps.Firewall.Core
open Common.FlowPipe Common.FlowParser

/-- A JSON object, as the library gives it. -/
inductive Json where
  | null
  | boolean (value : Bool)
  | double
  | int (value : Int)
  | string (text : List Char)
  | array (items : List Json)
  | object (members : List (String × Json))

def objectGetEx : Json → String → Option Json
  | .object members, key => members.lookup key
  | _, _ => none

/-- `json_object_get_int` keeps within the range of an `int`. -/
def objectGetInt (value : Int) : Int := max (-2 ^ 31) (min (2 ^ 31 - 1) value)

/-- A C string ends at its first zero. -/
def cString (text : List Char) : List Char := text.takeWhile (·.toNat ≠ 0)

structure RuleMatch where
  protocol : L4TypeExt
  srcIp : BitVec 32
  dstIp : BitVec 32
  srcPort : Int
  dstPort : Int
  deriving DecidableEq, Repr

def createString {α : Type} (key : String) (parse : List Char → Except DocaError α)
    (curRule : Json) : Except DocaError α :=
  match objectGetEx curRule key with
  | some (.string text) => parse (cString text)
  | _ => .error .invalidValue

def createPort (key : String) (curRule : Json) : Except DocaError Int :=
  match objectGetEx curRule key with
  | some (.int value) => .ok (objectGetInt value)
  | _ => .error .invalidValue

def createProtocol : Json → Except DocaError L4TypeExt := createString "protocol" parseProtocolString
def createSrcIp : Json → Except DocaError (BitVec 32) := createString "src-ip" parseIpv4Str
def createDstIp : Json → Except DocaError (BitVec 32) := createString "dst-ip" parseIpv4Str
def createSrcPort : Json → Except DocaError Int := createPort "src-port"
def createDstPort : Json → Except DocaError Int := createPort "dst-port"

def createRule (curRule : Json) : Except DocaError RuleMatch := do
  let protocol ← createProtocol curRule
  let srcIp ← createSrcIp curRule
  let dstIp ← createDstIp curRule
  let srcPort ← createSrcPort curRule
  let dstPort ← createDstPort curRule
  return ⟨protocol, srcIp, dstIp, srcPort, dstPort⟩

/-- The rules of the array; `allocated` tells whether there is memory for them. -/
def createDropRules (allocated : Bool) (rules : List Json) : Except DocaError (List RuleMatch) :=
  if allocated then rules.mapM createRule else .error .noMemory

/-- The flow server: its pipes by their ids, and the calls it has answered. -/
structure Server where
  pipes : List Pipe
  calls : Nat
  deriving DecidableEq, Repr

/-- How the calls to the server turn out, counted from the first. -/
abbrev Replies := Nat → Option DocaError

variable (replies : Replies)

def call (s : Server) : Except DocaError Server :=
  match replies s.calls with
  | some err => .error err
  | none => .ok { s with calls := s.calls + 1 }

def pipeCreate (pipe : Pipe) (s : Server) : Except DocaError (Nat × Server) := do
  let s ← call replies s
  return (s.pipes.length, { s with pipes := s.pipes ++ [pipe] })

def pipeAddEntry (pipeId : Nat) (e : Entry) (s : Server) : Except DocaError Server := do
  let s ← call replies s
  return { s with pipes := s.pipes.modify pipeId fun pipe =>
    { pipe with entries := pipe.entries ++ [e] } }

/-- Waiting for the entry that was added. -/
def awaitEntry (s : Server) : Except DocaError Server := do
  let s ← call replies s
  match call replies s with
  | .error _ => .error .badState
  | .ok s => return s

def buildHairpinPipe (portId : UInt16) (s : Server) : Except DocaError (Nat × Server) := do
  let (pipeId, s) ← pipeCreate replies ⟨.zero, .zero, .port (portId ^^^ 1), .drop, []⟩ s
  let s ← pipeAddEntry replies pipeId ⟨.zero, .zero⟩ s
  let s ← awaitEntry replies s
  return (pipeId, s)

def dropPattern : Match where
  outerL3Type := .ipv4
  outerL4Type := .none
  outer :=
    let outer : HeaderFormat := { HeaderFormat.zero with
      l3Type := .ip4, dstIp := 0xffffffff, srcIp := 0xffffffff, l4TypeExt := .transport }
    (outer.setTransportSrcPort 0xffff).setTransportDstPort 0xffff

def buildDropPipe (nextPipeId : Nat) (s : Server) : Except DocaError (Nat × Server) :=
  pipeCreate replies ⟨dropPattern, .zero, .drop, .pipe nextPipeId, []⟩ s

/-- `rte_cpu_to_be_16` of an `int`. -/
def bePort (port : Int) : BitVec 16 := rteCpuToBe16 (BitVec.ofInt 16 port)

/-- The match of a rule, written over the one of the rule before. -/
def dropMatch (r : RuleMatch) (m : Match) : Match :=
  let outer := { m.outer with l4TypeExt := r.protocol, dstIp := r.dstIp, srcIp := r.srcIp }
  let outer := outer.setTransportSrcPort (bePort r.dstPort)
  let outer := outer.setTransportDstPort (bePort r.srcPort)
  { m with outer := outer }

def addDropEntries (transportPipeId : Nat) : Match → List RuleMatch → Server →
    Except DocaError Server
  | _, [], s => .ok s
  | m, r :: rules, s => do
    let m := dropMatch r m
    let s ← pipeAddEntry replies transportPipeId ⟨m, .zero⟩ s
    let s ← awaitEntry replies s
    addDropEntries transportPipeId m rules s

/-- The drop pipe of a port, over its hairpin pipe. -/
def portPipesInit (portId : UInt16) (s : Server) : Except DocaError (Nat × Server) := do
  let (hairpinPipeId, s) ← buildHairpinPipe replies portId s
  buildDropPipe replies hairpinPipeId s

/-- The ids of the drop pipes of the two ports. -/
def firewallPipesInit (s : Server) : Except DocaError ((Nat × Nat) × Server) := do
  let (id₀, s) ← portPipesInit replies 0 s
  let (id₁, s) ← portPipesInit replies 1 s
  return ((id₀, id₁), s)

def firewallAddDropRules (ids : Nat × Nat) (dropRules : List RuleMatch) (s : Server) :
    Except DocaError Server := do
  let s ← addDropEntries replies ids.1 .zero dropRules s
  addDropEntries replies ids.2 .zero dropRules s

/-- Static mode, from the start of the server to the rules in place. -/
def firewallStatic (allocated : Bool) (rules : List Json) :
    Except DocaError ((Nat × Nat) × Server) := do
  let (ids, s) ← firewallPipesInit replies ⟨[], 0⟩
  let dropRules ← createDropRules allocated rules
  let s ← firewallAddDropRules replies ids dropRules s
  return (ids, s)

/-- A packet on its way through the pipes, from the one with this id. -/
def Server.follow (s : Server) : Nat → Nat → Packet → List (Fwd × Packet)
  | 0, _, _ => []
  | fuel + 1, pipeId, p =>
    match s.pipes[pipeId]? with
    | none => [(.drop, p)]
    | some pipe => (pipe.process p).flatMap fun (fwd, q) =>
      match fwd with
      | .pipe next => s.follow fuel next q
      | fwd => [(fwd, q)]

def Server.process (s : Server) : Nat → Packet → List (Fwd × Packet) := s.follow s.pipes.length

end DocaApps.Firewall.Core
