import DocaApps.Doca

namespace DocaApps.Common.FlowPipe

inductive L3Type where
  | none | ip4 | ip6
  deriving DecidableEq, Repr

inductive L4TypeExt where
  | none | tcp | udp | transport
  deriving DecidableEq, Repr

/-- What the parser of the hardware found in a packet. -/
inductive L3Meta where
  | none | ipv4 | ipv6
  deriving DecidableEq, Repr

inductive L4Meta where
  | none | tcp | udp
  deriving DecidableEq, Repr

/-- A header as matches and actions describe it. The TCP, UDP and transport headers share
their storage, and each begins with the two ports. -/
structure HeaderFormat where
  l3Type : L3Type
  srcIp : BitVec 32
  dstIp : BitVec 32
  l4TypeExt : L4TypeExt
  l4SrcPort : BitVec 16
  l4DstPort : BitVec 16
  deriving DecidableEq, Repr

def HeaderFormat.zero : HeaderFormat := ⟨.none, 0, 0, .none, 0, 0⟩

namespace HeaderFormat

variable (h : HeaderFormat) (port : BitVec 16)

def setTcpSrcPort : HeaderFormat := { h with l4SrcPort := port }
def setTcpDstPort : HeaderFormat := { h with l4DstPort := port }
def setUdpSrcPort : HeaderFormat := { h with l4SrcPort := port }
def setUdpDstPort : HeaderFormat := { h with l4DstPort := port }
def setTransportSrcPort : HeaderFormat := { h with l4SrcPort := port }
def setTransportDstPort : HeaderFormat := { h with l4DstPort := port }

end HeaderFormat

structure Match where
  outerL3Type : L3Meta
  outerL4Type : L4Meta
  outer : HeaderFormat
  deriving DecidableEq, Repr

def Match.zero : Match := ⟨.none, .none, .zero⟩

structure Actions where
  outer : HeaderFormat
  deriving DecidableEq, Repr

def Actions.zero : Actions := ⟨.zero⟩

/-- A packet, with its addresses and ports as they stand on the wire. -/
structure Packet where
  l3 : L3Meta
  l4 : L4Meta
  srcIp : BitVec 32
  dstIp : BitVec 32
  srcPort : BitVec 16
  dstPort : BitVec 16
  deriving DecidableEq, Repr

inductive Fwd where
  | drop
  | port (portId : UInt16)
  | pipe (pipeId : Nat)
  deriving DecidableEq, Repr

structure Entry where
  pattern : Match
  actions : Actions
  deriving DecidableEq, Repr

/-- A pipe: the fields that its match leaves zero are ignored, those that are all ones are
given by each entry, the others are fixed. -/
structure Pipe where
  pattern : Match
  actions : Actions
  fwd : Fwd
  missFwd : Fwd
  entries : List Entry
  deriving DecidableEq, Repr

def fieldMatches {n : Nat} (template entry value : BitVec n) : Bool :=
  if template = 0 then true
  else if template = BitVec.allOnes n then value == entry
  else value == template

def L3Type.accepts : L3Type → L3Meta → Bool
  | .none, _ => true
  | .ip4, l3 => l3 == .ipv4
  | .ip6, l3 => l3 == .ipv6

def L4TypeExt.accepts : L4TypeExt → L4Meta → Bool
  | .none, _ => true
  | .tcp, l4 => l4 == .tcp
  | .udp, l4 => l4 == .udp
  | .transport, l4 => l4 == .tcp || l4 == .udp

def L3Meta.accepts : L3Meta → L3Meta → Bool
  | .none, _ => true
  | m, l3 => l3 == m

def L4Meta.accepts : L4Meta → L4Meta → Bool
  | .none, _ => true
  | m, l4 => l4 == m

def Match.accepts (template entry : Match) (p : Packet) : Bool :=
  template.outerL3Type.accepts p.l3 && template.outerL4Type.accepts p.l4 &&
    template.outer.l3Type.accepts p.l3 && template.outer.l4TypeExt.accepts p.l4 &&
    fieldMatches template.outer.srcIp entry.outer.srcIp p.srcIp &&
    fieldMatches template.outer.dstIp entry.outer.dstIp p.dstIp &&
    fieldMatches template.outer.l4SrcPort entry.outer.l4SrcPort p.srcPort &&
    fieldMatches template.outer.l4DstPort entry.outer.l4DstPort p.dstPort

def setField {n : Nat} (template entry value : BitVec n) : BitVec n :=
  if template = 0 then value
  else if template = BitVec.allOnes n then entry
  else template

def Actions.apply (template entry : Actions) (p : Packet) : Packet :=
  { p with
    srcIp := setField template.outer.srcIp entry.outer.srcIp p.srcIp
    dstIp := setField template.outer.dstIp entry.outer.dstIp p.dstIp
    srcPort := setField template.outer.l4SrcPort entry.outer.l4SrcPort p.srcPort
    dstPort := setField template.outer.l4DstPort entry.outer.l4DstPort p.dstPort }

/-- The entries that a packet hits. -/
def Pipe.hits (pipe : Pipe) (p : Packet) : List Entry :=
  pipe.entries.filter fun e => pipe.pattern.accepts e.pattern p

/-- Where a packet can go, and what it has become: a packet that hits several entries
follows one of them. -/
def Pipe.process (pipe : Pipe) (p : Packet) : List (Fwd × Packet) :=
  match pipe.hits p with
  | [] => [(pipe.missFwd, p)]
  | hits => hits.map fun e => (pipe.fwd, pipe.actions.apply e.actions p)

/-- Nothing else can come out. -/
def Only {α : Type} (outcomes : List α) (x : α) : Prop :=
  outcomes ≠ [] ∧ ∀ o ∈ outcomes, o = x

def rteCpuToBe16 (x : BitVec 16) : BitVec 16 := x.extractLsb' 0 8 ++ x.extractLsb' 8 8

def rteCpuToBe32 (x : BitVec 32) : BitVec 32 :=
  x.extractLsb' 0 8 ++ (x.extractLsb' 8 8 ++ (x.extractLsb' 16 8 ++ x.extractLsb' 24 8))

end DocaApps.Common.FlowPipe
