import DocaApps.Common.FlowPipe
import DocaApps.Lib.CountedLoop

namespace DocaApps.NatApp.Core
open Common.FlowPipe Lib.CountedLoop

/-- The modes that build pipes. -/
inductive NatMode where
  | static | pat
  deriving DecidableEq, Repr

/-- The addresses are in network order, the ports are not. -/
structure NatRuleMatch where
  localIp : BitVec 32
  localPort : Int
  globalIp : BitVec 32
  globalPort : Int
  deriving DecidableEq, Repr

def queueDepth : Int := 256

/-- What a call of `doca_flow_entries_process` did. -/
structure Processed where
  result : Option DocaError
  count : Int
  failed : Bool
  deriving DecidableEq, Repr

/-- How the calls of the flow library turn out, each counted from the first. -/
structure FlowLib where
  pipeCreate : Nat → Option DocaError
  addEntry : Nat → Option DocaError
  entriesProcess : Nat → Int → Processed
  controlAddEntry : Nat → Option DocaError

inductive PipeName where
  | static | tcp | udp
  deriving DecidableEq, Repr

/-- The entries added so far, and the accounts of `entries_status`. -/
structure Building where
  added : List (PipeName × Entry)
  nbEntries : Int
  isFailure : Bool
  nbProcessed : Int
  adds : Nat
  processes : Nat
  deriving DecidableEq, Repr

def Building.start : Building := ⟨[], 0, false, 0, 0, 0⟩

def Building.entriesOf (s : Building) (name : PipeName) : List Entry :=
  (s.added.filter fun e => e.1 = name).map Prod.snd

variable (lib : FlowLib)

def pipeAddEntry (name : PipeName) (e : Entry) (s : Building) : Option DocaError × Building :=
  match lib.addEntry s.adds with
  | some err => (some err, { s with adds := s.adds + 1 })
  | none => (none, { s with adds := s.adds + 1, added := s.added ++ [(name, e)] })

def entriesProcess (asked : Int) (s : Building) : Option DocaError × Building :=
  let r := lib.entriesProcess s.processes asked
  (r.result, { s with
    isFailure := s.isFailure || r.failed
    nbProcessed := s.nbProcessed + r.count
    processes := s.processes + 1 })

/-- Making space for the next entries when the queue is full. -/
def processFull (s : Building) : Except DocaError Building :=
  if s.nbEntries = queueDepth then
    match entriesProcess lib s.nbEntries s with
    | (some err, _) => .error err
    | (none, s) =>
      if s.isFailure ∨ s.nbProcessed = 0 then .error .badState
      else .ok { s with nbEntries := s.nbEntries - s.nbProcessed, nbProcessed := 0 }
  else .ok s

/-- The processing loop at the end. -/
def processRest : Nat → Building → Outcome DocaError Building
  | 0, _ => none
  | fuel + 1, s =>
    if s.nbEntries - s.nbProcessed > 0 then
      match entriesProcess lib (s.nbEntries - s.nbProcessed) s with
      | (some err, _) => some (.error err)
      | (none, s) =>
        if s.isFailure then some (.error .badState)
        else processRest fuel s
    else some (.ok s)

def ruleAt (natRules : List NatRuleMatch) (ruleid : BitVec 16) : NatRuleMatch :=
  natRules.getD ruleid.toNat ⟨0, 0, 0, 0⟩

def addStaticRule (entry : NatRuleMatch → Entry) (natRules : List NatRuleMatch)
    (ruleid : BitVec 16) (s : Building) : Except DocaError Building :=
  match pipeAddEntry lib .static (entry (ruleAt natRules ruleid)) s with
  | (some _, s) => .ok s
  | (none, s) => processFull lib { s with nbEntries := s.nbEntries + 1 }

/-- The UDP entry is the TCP one, edited in place. -/
def addPatRule (tcpEntry : NatRuleMatch → Entry) (toUdp : NatRuleMatch → Entry → Entry)
    (natRules : List NatRuleMatch) (ruleid : BitVec 16) (s : Building) :
    Except DocaError Building :=
  let rule := ruleAt natRules ruleid
  let s := (pipeAddEntry lib .tcp (tcpEntry rule) s).2
  let s := (pipeAddEntry lib .udp (toUdp rule (tcpEntry rule)) s).2
  processFull lib { s with nbEntries := s.nbEntries + 2 }

/-- The loop over the rules, whose counter is a `uint16_t`, and the processing after it. -/
def addRules (add : BitVec 16 → Building → Except DocaError Building) (natNumRules fuel : Nat) :
    Outcome DocaError Building :=
  Outcome.andThen (loop add natNumRules fuel 0 .start) (processRest lib fuel)

/-- The pipes of a port: one root pipe, or a control pipe that tells TCP from UDP. -/
inductive NatPort where
  | static (pipe : Pipe)
  | pat (control : List (Match × PipeName)) (natTcpPipe natUdpPipe : Pipe)
  deriving DecidableEq, Repr

def NatPort.process : NatPort → Packet → List (Fwd × Packet)
  | .static pipe, p => pipe.process p
  | .pat control tcpPipe udpPipe, p =>
    match control.filter fun c => c.1.accepts c.1 p with
    | [] => [(.drop, p)]
    | hits => hits.flatMap fun c =>
      if c.2 = .udp then udpPipe.process p else tcpPipe.process p

def checked (err : Option DocaError) : Outcome DocaError Unit :=
  match err with
  | some err => some (.error err)
  | none => some (.ok ())

def buildStaticPipe (pattern : Match) (actions : Actions) (entry : NatRuleMatch → Entry)
    (portId : UInt16) (natRules : List NatRuleMatch) (fuel : Nat) : Outcome DocaError NatPort :=
  (checked (lib.pipeCreate 0)).andThen fun _ =>
  (addRules lib (addStaticRule lib entry natRules) natRules.length fuel).andThen fun s =>
  some (.ok (.static ⟨pattern, actions, .port (portId ^^^ 1), .drop, s.entriesOf .static⟩))

def addControlPipeEntries : Outcome DocaError (List (Match × PipeName)) :=
  let udp : Match := { Match.zero with outerL3Type := .ipv4, outerL4Type := .udp }
  (checked (lib.controlAddEntry 0)).andThen fun _ =>
  let tcp : Match := { udp with outerL3Type := .ipv4, outerL4Type := .tcp }
  (checked (lib.controlAddEntry 1)).andThen fun _ =>
  some (.ok [(udp, .udp), (tcp, .tcp)])

/-- The template of the UDP pipe is the one of the TCP pipe, edited in place. -/
def buildPatPipe (tcpTemplate : Entry) (toUdpTemplate : Entry → Entry)
    (tcpEntry : NatRuleMatch → Entry) (toUdp : NatRuleMatch → Entry → Entry)
    (portId : UInt16) (natRules : List NatRuleMatch) (fuel : Nat) : Outcome DocaError NatPort :=
  (checked (lib.pipeCreate 0)).andThen fun _ =>
  (checked (lib.pipeCreate 1)).andThen fun _ =>
  (addRules lib (addPatRule lib tcpEntry toUdp natRules) natRules.length fuel).andThen fun s =>
  (checked (lib.pipeCreate 2)).andThen fun _ =>
  (addControlPipeEntries lib).andThen fun control =>
  let pipe (template : Entry) (name : PipeName) : Pipe :=
    ⟨template.pattern, template.actions, .port (portId ^^^ 1), .drop, s.entriesOf name⟩
  some (.ok (.pat control (pipe tcpTemplate .tcp) (pipe (toUdpTemplate tcpTemplate) .udp)))

def changeable32 : BitVec 32 := 0xffffffff
def changeable16 : BitVec 16 := 0xffff

/-- `rte_cpu_to_be_16` of an `int`. -/
def bePort (port : Int) : BitVec 16 := rteCpuToBe16 (BitVec.ofInt 16 port)

def staticLocalEntry (r : NatRuleMatch) : Entry where
  pattern := { Match.zero with outer := { HeaderFormat.zero with srcIp := r.localIp } }
  actions := ⟨{ HeaderFormat.zero with srcIp := r.globalIp }⟩

def buildStaticLocalPipe : UInt16 → List NatRuleMatch → Nat → Outcome DocaError NatPort :=
  buildStaticPipe lib
    ⟨.ipv4, .none, { HeaderFormat.zero with srcIp := changeable32, l3Type := .ip4 }⟩
    ⟨{ HeaderFormat.zero with l3Type := .ip4, srcIp := changeable32 }⟩
    staticLocalEntry

def staticGlobalEntry (r : NatRuleMatch) : Entry where
  pattern := { Match.zero with outer := { HeaderFormat.zero with dstIp := r.globalIp } }
  actions := ⟨{ HeaderFormat.zero with dstIp := r.localIp }⟩

def buildStaticGlobalPipe : UInt16 → List NatRuleMatch → Nat → Outcome DocaError NatPort :=
  buildStaticPipe lib
    ⟨.ipv4, .none, { HeaderFormat.zero with dstIp := changeable32, l3Type := .ip4 }⟩
    ⟨{ HeaderFormat.zero with l3Type := .ip4, dstIp := changeable32 }⟩
    staticGlobalEntry

/-- An edit of the outer headers of a match and of its actions. -/
def edit (e : Entry) (pattern actions : HeaderFormat → HeaderFormat) : Entry where
  pattern := { e.pattern with outer := pattern e.pattern.outer }
  actions := { e.actions with outer := actions e.actions.outer }

def patLocalTemplate : Entry :=
  let outer : HeaderFormat := { HeaderFormat.zero with
    l3Type := .ip4, srcIp := changeable32, l4TypeExt := .tcp }
  let outer := outer.setTcpSrcPort changeable16
  ⟨{ Match.zero with outer := outer }, ⟨outer⟩⟩

def patLocalToUdpTemplate (e : Entry) : Entry :=
  let toUdp (h : HeaderFormat) : HeaderFormat :=
    let h := h.setTcpSrcPort 0
    let h := { h with l4TypeExt := .udp }
    h.setUdpSrcPort changeable16
  edit e toUdp toUdp

def patLocalTcpEntry (r : NatRuleMatch) : Entry where
  pattern := { Match.zero with outer :=
    { HeaderFormat.zero with srcIp := r.localIp }.setTcpSrcPort (bePort r.localPort) }
  actions := ⟨{ HeaderFormat.zero with srcIp := r.globalIp }.setTcpSrcPort (bePort r.globalPort)⟩

def patLocalToUdp (r : NatRuleMatch) (e : Entry) : Entry :=
  edit e (·.setUdpSrcPort (bePort r.localPort)) (·.setUdpSrcPort (bePort r.globalPort))

def buildPatLocalPipe : UInt16 → List NatRuleMatch → Nat → Outcome DocaError NatPort :=
  buildPatPipe lib patLocalTemplate patLocalToUdpTemplate patLocalTcpEntry patLocalToUdp

def patGlobalTemplate : Entry :=
  let outer : HeaderFormat := { HeaderFormat.zero with
    l3Type := .ip4, dstIp := changeable32, l4TypeExt := .tcp }
  let outer := outer.setTcpDstPort changeable16
  ⟨{ Match.zero with outer := outer }, ⟨outer⟩⟩

def patGlobalToUdpTemplate (e : Entry) : Entry :=
  let toUdp (h : HeaderFormat) : HeaderFormat :=
    let h := h.setTcpDstPort 0
    let h := { h with l4TypeExt := .udp }
    h.setUdpDstPort changeable16
  edit e toUdp toUdp

def patGlobalTcpEntry (r : NatRuleMatch) : Entry where
  pattern := { Match.zero with outer :=
    { HeaderFormat.zero with dstIp := r.globalIp }.setTcpDstPort (bePort r.globalPort) }
  actions := ⟨{ HeaderFormat.zero with dstIp := r.localIp }.setTcpDstPort (bePort r.localPort)⟩

def patGlobalToUdp (r : NatRuleMatch) (e : Entry) : Entry :=
  edit e (·.setUdpDstPort (bePort r.localPort)) (·.setUdpDstPort (bePort r.globalPort))

def buildPatGlobalPipe : UInt16 → List NatRuleMatch → Nat → Outcome DocaError NatPort :=
  buildPatPipe lib patGlobalTemplate patGlobalToUdpTemplate patGlobalTcpEntry patGlobalToUdp

def buildLocalPipe : NatMode → UInt16 → List NatRuleMatch → Nat → Outcome DocaError NatPort
  | .static => buildStaticLocalPipe lib
  | .pat => buildPatLocalPipe lib

def buildGlobalPipe : NatMode → UInt16 → List NatRuleMatch → Nat → Outcome DocaError NatPort
  | .static => buildStaticGlobalPipe lib
  | .pat => buildPatGlobalPipe lib

end DocaApps.NatApp.Core
