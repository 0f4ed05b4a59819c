import DocaApps.Ipsec.AntiReplay
import DocaApps.Ipsec.PacketDecap
import DocaApps.Ipsec.UnsecuredBurst

namespace DocaApps.Ipsec.SecuredBurst
open Common.Pack Rules MbufChain PacketEncap PacketDecap AntiReplay UnsecuredBurst

/-- What a core works with on the secured side. -/
structure SecuredCtx where
  core : CoreCtx
  decryptRules : List DecryptRule

/-- The 30 lowest bits. -/
def securedMetaMask : BitVec 32 := (1#32 <<< 30) - 1#32

def securedRuleIdx (metadata : BitVec 32) : Nat := (metadata &&& securedMetaMask).toNat

/-- Where the sequence number stands in an ESP header. -/
def espSeqOfs : Nat := 4

/-- `get_esp_sn`. -/
def getEspSn (mode : Mode) : PktCmd (BitVec 32) := do
  let oh ← mtod 0
  let l2L3Len := (← l3Len oh) + etherHdrLen
  let espOfs := if mode = .udpTransport then l2L3Len + udpHdrLen else l2L3Len
  let seq ← load 0 (oh + espOfs + espSeqOfs) 4
  return (unpackUint32 seq).elim 0 Prod.fst

/-- The anti-replay states and the two arrays that a burst fills. -/
structure Burst where
  antireplayStates : List AntireplayState
  processed : List (Nat × Mbuf)
  unprocessed : List (Nat × Mbuf)
  deriving DecidableEq, Repr

/-- `add_dropped`. -/
def Burst.addDropped (b : Burst) (currentPacket : Nat) (m : Mbuf) : Burst :=
  { b with unprocessed := b.unprocessed ++ [(currentPacket, m)] }

def Burst.addProcessed (b : Burst) (currentPacket : Nat) (m : Mbuf) : Burst :=
  { b with processed := b.processed ++ [(currentPacket, m)] }

/-- The anti-replay check of a packet, and whether to drop it. -/
def checkReplay (config : Config) (ruleIdx : Nat) (m : Mbuf) (states : List AntireplayState) :
    Option (List AntireplayState × Bool) :=
  if config.swAntireplay = false then some (states, false)
  else
    match getEspSn config.mode m, states[ruleIdx]? with
    | .ok sn _, some state =>
      (antiReplay sn state).map fun (state', drop) => (states.set ruleIdx state', drop)
    | _, _ => none

/-- The decapsulation of a packet and the array that it goes to. -/
def decapInto (ctx : SecuredCtx) (currentPacket ruleIdx : Nat) (m : Mbuf) (b : Burst) :
    Option Burst :=
  match ctx.decryptRules[ruleIdx]? with
  | none => none
  | some rule =>
    match decapPacket ctx.core.lib ctx.core.config.mode rule.saAttrs.icvLength.bytes m with
    | .ok () m' => some (b.addProcessed currentPacket m')
    | .error (.doca _) m' => some (b.addDropped currentPacket m')
    | .error .fault _ => none

/-- One packet of the loop; nothing comes of an access outside an array. -/
def handleSecuredPacket (ctx : SecuredCtx) (currentPacket : Nat) (packet : Packet) (b : Burst) :
    Option Burst :=
  if ctx.core.metadataAvail = false then some (b.addDropped currentPacket packet.mbuf)
  else
    let ruleIdx := securedRuleIdx packet.metadata
    match checkReplay ctx.core.config ruleIdx packet.mbuf b.antireplayStates with
    | none => none
    | some (states, drop) =>
      let b := { b with antireplayStates := states }
      if drop = true then some (b.addDropped currentPacket packet.mbuf)
      else decapInto ctx currentPacket ruleIdx packet.mbuf b

def handleSecuredPackets (ctx : SecuredCtx) : Nat → List Packet → Burst → Option Burst
  | _, [], b => some b
  | currentPacket, packet :: packets, b => do
    let b' ← handleSecuredPacket ctx currentPacket packet b
    handleSecuredPackets ctx (currentPacket + 1) packets b'

def handleSecuredPacketsReceived (ctx : SecuredCtx) (packets : List Packet)
    (states : List AntireplayState) : Option Burst :=
  handleSecuredPackets ctx 0 packets ⟨states, [], []⟩

end DocaApps.Ipsec.SecuredBurst
