import DocaApps.SimpleFwd.FlowTable

namespace DocaApps.SimpleFwd.Packet
open FlowTable

abbrev Bytes := List (BitVec 8)

/-- Why parsing ends early: a byte behind the packet is to be read, or the packet is
refused. -/
inductive Stop where
  | outside | refused
  deriving DecidableEq, Repr

def byteAt (data : Bytes) (off : Nat) : Except Stop (BitVec 8) :=
  match data[off]? with
  | some b => .ok b
  | none => .error .outside

/-- Words as a little-endian load gives them. -/
def load16 (data : Bytes) (off : Nat) : Except Stop (BitVec 16) := do
  let b0 ← byteAt data off
  let b1 ← byteAt data (off + 1)
  pure (b1 ++ b0)

def load32 (data : Bytes) (off : Nat) : Except Stop (BitVec 32) := do
  let h0 ← load16 data off
  let h1 ← load16 data (off + 2)
  pure (h1 ++ h0)

def rteBeToCpu16 (x : BitVec 16) : BitVec 16 := x.extractLsb' 0 8 ++ x.extractLsb' 8 8

/-- The pointers of `simple_fwd_pkt_format` as offsets in the packet; `l7` is set for TCP and
UDP only. -/
structure Format where
  l2 : Nat
  l3 : Nat
  l4 : Nat
  l3Type : BitVec 8
  l4Type : BitVec 8
  l7 : Option Nat
  deriving DecidableEq, Repr

def etherTypeIpv4 : BitVec 16 := 0x0800
def ipprotoIcmp : BitVec 8 := 1

/-- The offset of the IP header; other Ethernet types are refused. -/
def parseL2 (data : Bytes) (base : Nat) (l2 : Bool) : Except Stop Nat :=
  if l2 then do
    let etherType ← load16 data (base + 12)
    if rteBeToCpu16 etherType = etherTypeIpv4 then pure 14 else .error .refused
  else pure 0

def rteIpv4HdrLen (versionIhl : BitVec 8) : Nat := (versionIhl &&& 0x0f).toNat * 4

/-- The offset of the data of the transport protocol, where it is set. -/
def parseL4 (data : Bytes) (base : Nat) (len : Int) (l4Off : Nat) (proto : BitVec 8) :
    Except Stop (Option Nat) :=
  if proto = docaProtoTcp then do
    let dataOff ← byteAt data (base + l4Off + 12)
    let l7Off := l4Off + ((dataOff &&& 0xf0) >>> 2).toNat
    if (l7Off : Int) > len then .error .refused else pure (some l7Off)
  else if proto = docaProtoUdp then
    let l7Off := l4Off + 8
    if (l7Off : Int) > len then .error .refused else pure (some l7Off)
  else if proto = docaProtoGre then pure none
  else if proto = ipprotoIcmp then pure none
  else .error .refused

def parseIp (data : Bytes) (base : Nat) (len : Int) (l3Off : Nat) : Except Stop Format := do
  let versionIhl ← byteAt data (base + l3Off)
  if versionIhl >>> 4 ≠ 4 then .error .refused
  else do
    let srcAddr ← load32 data (base + l3Off + 12)
    if srcAddr = 0 then .error .refused
    else do
      let dstAddr ← load32 data (base + l3Off + 16)
      if dstAddr = 0 then .error .refused
      else do
        let l4Off := l3Off + rteIpv4HdrLen versionIhl
        let proto ← byteAt data (base + l3Off + 9)
        let l7Off ← parseL4 data base len l4Off proto
        pure ⟨base, base + l3Off, base + l4Off, ipv4, proto, l7Off.map (base + ·)⟩

def simpleFwdParsePktFormat (data : Bytes) (base : Nat) (len : Int) (l2 : Bool) :
    Except Stop Format := do
  let l3Off ← parseL2 data base l2
  parseIp data base len l3Off

/-- The tunnel of a packet, with the two words of the union in `simple_fwd_pkt_tun_format`. -/
structure Tun where
  type : TunType
  l2 : Bool
  first : BitVec 32
  second : BitVec 32
  deriving DecidableEq, Repr

/-- The tunnel of a zeroed packet info. -/
def noTun : Tun := ⟨.none, false, 0, 0⟩

def greC : BitVec 8 := 0x80
def greK : BitVec 8 := 0x20
def greS : BitVec 8 := 0x10

def parseGre (data : Bytes) (l4 : Nat) : Except Stop (Int × Tun) := do
  let flags ← byteAt data l4
  if flags &&& greC ≠ 0 then pure (-1, noTun)
  else do
    let key ← if flags &&& greK ≠ 0 then load32 data (l4 + 4) else pure 0
    let proto ← load16 data (l4 + 2)
    let keyOff := if flags &&& greK ≠ 0 then 4 else 0
    let optionalOff := if flags &&& greS ≠ 0 then keyOff + 4 else keyOff
    pure (4 + optionalOff, ⟨.gre, flags &&& greK ≠ 0, key, (0 : BitVec 16) ++ proto⟩)

def docaVxlanDefaultPort : BitVec 16 := 4789
def docaGtpuPort : BitVec 16 := 2152

def parseUdpTun (data : Bytes) (l4 : Nat) : Except Stop (Int × Tun) := do
  let dstPort ← load16 data (l4 + 2)
  if rteBeToCpu16 dstPort = docaVxlanDefaultPort then do
    let vxFlags ← byteAt data (l4 + 8)
    if vxFlags &&& 0x08 ≠ 0 then do
      let vni ← load32 data (l4 + 12)
      pure (16, ⟨.vxlan, true, vni, 0⟩)
    else pure (16, noTun)
  else if rteBeToCpu16 dstPort = docaGtpuPort then do
    let teid ← load32 data (l4 + 12)
    let msgType ← byteAt data (l4 + 9)
    let flags ← byteAt data (l4 + 8)
    pure (if flags &&& 0x07 ≠ 0 then 20 else 16,
      ⟨.gtpu, false, (0 : BitVec 16) ++ (flags ++ msgType), teid⟩)
  else pure (0, noTun)

/-- The length of the tunnel's headers behind the outer IP header, and the tunnel. -/
def simpleFwdParseIsTun (data : Bytes) (outer : Format) : Except Stop (Int × Tun) :=
  if outer.l3Type ≠ ipv4 then pure (0, noTun)
  else if outer.l4Type = docaProtoGre then parseGre data outer.l4
  else if outer.l4Type = docaProtoUdp then parseUdpTun data outer.l4
  else pure (0, noTun)

structure Pinfo where
  outer : Format
  tun : Tun
  inner : Option Format
  deriving DecidableEq, Repr

def simpleFwdParsePacket (data : Bytes) : Except Stop Pinfo := do
  let outer ← simpleFwdParsePktFormat data 0 data.length true
  let (off, tun) ← simpleFwdParseIsTun data outer
  if tun.type = .none ∨ off < 0 then pure ⟨outer, tun, none⟩
  else do
    let innerOff := outer.l4 + off.toNat
    let l2 := if tun.type = .gre then false else tun.l2
    let inner ← simpleFwdParsePktFormat data innerOff (data.length - innerOff) l2
    pure ⟨outer, tun, some inner⟩

/-- What a packet holds at an offset inside it. -/
def peek (data : Bytes) (off : Nat) : BitVec 8 := data.getD off 0

def peek16 (data : Bytes) (off : Nat) : BitVec 16 := peek data (off + 1) ++ peek data off

def peek32 (data : Bytes) (off : Nat) : BitVec 32 := peek16 data (off + 2) ++ peek16 data off

/-- What the accessors of a packet info read through its pointers. The ports are looked at for
TCP and UDP only. -/
def Format.fields (data : Bytes) (f : Format) : PktFormat :=
  ⟨f.l3Type, f.l4Type, peek32 data (f.l3 + 12), peek32 data (f.l3 + 16), peek16 data f.l4,
    peek16 data (f.l4 + 2)⟩

/-- The packet info that the flow table gets; all tunnels share the first word of the union. -/
def Pinfo.info (data : Bytes) (p : Pinfo) (origPortId pipeQueue : BitVec 16) (rssHash : UInt32) :
    PktInfo where
  origPortId := origPortId
  pipeQueue := pipeQueue
  rssHash := rssHash
  outer := p.outer.fields data
  tunType := p.tun.type
  vni := p.tun.first
  inner := p.inner.elim ⟨0, 0, 0, 0, 0, 0⟩ (Format.fields data)

inductive L4TypeExt where
  | none | tcp | udp
  deriving DecidableEq, Repr

def simpleFwdL3TypeTransfer (pktL4Type : BitVec 8) : L4TypeExt :=
  if pktL4Type = docaProtoTcp then .tcp
  else if pktL4Type = docaProtoUdp then .udp
  else .none

/-- The headers of one level in a match; ports are set for TCP and UDP only. -/
structure MatchFormat where
  l3Ip4 : Bool
  dstIp : BitVec 32
  srcIp : BitVec 32
  l4TypeExt : L4TypeExt
  srcPort : BitVec 16
  dstPort : BitVec 16
  deriving DecidableEq, Repr

def setL4Port (l4TypeExt : L4TypeExt) (value : BitVec 16) : BitVec 16 :=
  if l4TypeExt = .none then 0 else value

def matchFormat (fmt : PktFormat) : MatchFormat :=
  let ext := simpleFwdL3TypeTransfer fmt.l4Type
  ⟨true, fmt.dstAddr, fmt.srcAddr, ext, setL4Port ext (pinfoSrcPort fmt),
    setL4Port ext (pinfoDstPort fmt)⟩

/-- A match, as far as it is built; the identifiers of all tunnels are one word. -/
structure EntryMatch where
  dstMac : Bytes
  srcMac : Bytes
  outer : MatchFormat
  tunType : TunType
  tunId : BitVec 32
  inner : MatchFormat
  deriving DecidableEq, Repr

def simpleFwdMatchSetTun (tun : Tun) : TunType × BitVec 32 :=
  match tun.type with
  | .none => (.none, 0)
  | .vxlan => (.vxlan, tun.first)
  | .gre => (.gre, tun.first)
  | .gtpu => (.gtpu, tun.second)

def simpleFwdBuildEntryMatch (data : Bytes) (p : Pinfo) : EntryMatch :=
  let dstMac := (List.range 6).map fun i => peek data (p.outer.l2 + i)
  let srcMac := (List.range 6).map fun i => peek data (p.outer.l2 + 6 + i)
  let outer := matchFormat (p.outer.fields data)
  let unset : MatchFormat := ⟨false, 0, 0, .none, 0, 0⟩
  if p.tun.type = .none then ⟨dstMac, srcMac, outer, .none, 0, unset⟩
  else
    let tun := simpleFwdMatchSetTun p.tun
    let inner := p.inner.elim ⟨0, 0, 0, 0, 0, 0⟩ (Format.fields data)
    ⟨dstMac, srcMac, outer, tun.1, tun.2, matchFormat inner⟩

end DocaApps.SimpleFwd.Packet
