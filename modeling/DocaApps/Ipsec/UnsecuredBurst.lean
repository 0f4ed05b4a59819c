import DocaApps.Ipsec.PacketEncap

namespace DocaApps.Ipsec.UnsecuredBurst
open Common.Pack Rules MbufChain PacketEncap

def uint32Max : BitVec 32 := 0xffffffff

/-- The entry `sn-initial` of the configuration file. -/
inductive SnInitial where
  | missing
  | other
  | int (value : Int)
  deriving DecidableEq, Repr

/-- `parse_sn_initial`; the field is zero before. -/
def parseSnInitial : SnInitial → Except DocaError (BitVec 64)
  | .missing => .ok 0
  | .other => .error .invalidValue
  | .int snInit =>
    if snInit < 0 ∨ snInit > uint32Max.toNat then .error .invalidValue
    else .ok (BitVec.ofInt 64 snInit)

/-- The encryption rules as `ipsec_security_gw_wait_for_traffic` hands them to the packet
functions, which it does not start when the hardware does everything. -/
def waitForTraffic (config : Config) (snInitial : BitVec 64) (rules : List EncryptRule) :
    Option (List EncryptRule) :=
  if config.offload = .both then none
  else if config.swSnIncEnable = true then
    some (rules.map fun rule => { rule with currentSn := snInitial.setWidth 32 })
  else some rules

/-- A packet of a burst. -/
structure Packet where
  metadata : BitVec 32
  mbuf : Mbuf
  deriving DecidableEq, Repr

/-- What a core works with besides the rules. -/
structure CoreCtx where
  lib : MbufLib
  metadataAvail : Bool
  config : Config

/-- Two bits set, and one less. -/
def metaMask : BitVec 32 := ((1#32 <<< 31) ||| (1#32 <<< 30)) - 1#32

def ruleIdx (metadata : BitVec 32) : Nat := (metadata &&& metaMask).toNat

def checkIfLastSn (config : Config) (rule : EncryptRule) : Except DocaError Unit :=
  if config.swSnIncEnable = false then .ok ()
  else if rule.currentSn = uint32Max then .error .notPermitted
  else .ok ()

/-- The rules and the two arrays that a burst fills: the places of the packets in the burst,
each with the chain that the call leaves of it. -/
structure Burst where
  rules : List EncryptRule
  processed : List (Nat × Mbuf)
  unprocessed : List (Nat × Mbuf)
  deriving DecidableEq, Repr

/-- `add_dropped`. -/
def Burst.addDropped (b : Burst) (currentPacket : Nat) (m : Mbuf) : Burst :=
  { b with unprocessed := b.unprocessed ++ [(currentPacket, m)] }

/-- One packet of the loop; nothing comes of an access outside an array. -/
def handlePacket (ctx : CoreCtx) (currentPacket : Nat) (packet : Packet) (b : Burst) :
    Option Burst :=
  if ctx.metadataAvail = false then some (b.addDropped currentPacket packet.mbuf)
  else
    match b.rules[ruleIdx packet.metadata]? with
    | none => none
    | some rule =>
      match checkIfLastSn ctx.config rule with
      | .error _ => some (b.addDropped currentPacket packet.mbuf)
      | .ok () =>
        match preparePacket ctx.lib ctx.config.mode ctx.config.swSnIncEnable rule packet.mbuf with
        | .ok rule' m => some { b with
            rules := b.rules.set (ruleIdx packet.metadata) rule'
            processed := b.processed ++ [(currentPacket, m)] }
        | .error (.doca _) m => some (b.addDropped currentPacket m)
        | .error .fault _ => none

def handlePackets (ctx : CoreCtx) : Nat → List Packet → Burst → Option Burst
  | _, [], b => some b
  | currentPacket, packet :: packets, b => do
    let b' ← handlePacket ctx currentPacket packet b
    handlePackets ctx (currentPacket + 1) packets b'

def handleUnsecuredPacketsReceived (ctx : CoreCtx) (packets : List Packet)
    (rules : List EncryptRule) : Option Burst :=
  handlePackets ctx 0 packets ⟨rules, [], []⟩

/-- The bursts that a core receives, one after the other. -/
def processBursts (ctx : CoreCtx) :
    List (List Packet) → List EncryptRule → Option (List EncryptRule × List Burst)
  | [], rules => some (rules, [])
  | packets :: bursts, rules => do
    let b ← handleUnsecuredPacketsReceived ctx packets rules
    let (rules', bs) ← processBursts ctx bursts b.rules
    return (rules', b :: bs)

end DocaApps.Ipsec.UnsecuredBurst
