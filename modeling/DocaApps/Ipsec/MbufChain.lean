import DocaApps.Doca
import DocaApps.Common.Pack
import DocaApps.Lib.Overwrite
import DocaApps.Lib.Command

namespace DocaApps.Ipsec.MbufChain
open Common.Pack Lib.Overwrite

/-- Arithmetic of the C types: lengths are `uint32_t`, the fields of a segment
`uint16_t`. -/
def wrap16 (n : Nat) : Nat := n % 2 ^ 16
def wrap32 (n : Nat) : Nat := n % 2 ^ 32
def sub32 (a b : Nat) : Nat := (a + (2 ^ 32 - b % 2 ^ 32)) % 2 ^ 32

/-- One segment of a chain: its buffer and the window of it that holds data. -/
structure Segment where
  buf : List Byte
  dataOff : Nat
  dataLen : Nat
  deriving DecidableEq, Repr

/-- `struct rte_mbuf` with the segments it is linked to, itself first. -/
structure Mbuf where
  segs : List Segment
  pktLen : Nat
  packetType : BitVec 32
  deriving DecidableEq, Repr

def Segment.data (s : Segment) : List Byte := slice s.buf s.dataOff s.dataLen

/-- The bytes of the packet. -/
def Mbuf.data (m : Mbuf) : List Byte := m.segs.flatMap Segment.data

/-- How a packet function ends early: an access outside a buffer or the chain, or an
error it returns. -/
inductive Stop where
  | fault
  | doca (e : DocaError)
  deriving DecidableEq, Repr

abbrev PktCmd := EStateM Stop Mbuf

/-- The operations of the packet library that move the ends of a packet. A null
pointer or a negative result is `none`. -/
structure MbufLib where
  prepend : Mbuf → Nat → Option Mbuf
  adj : Mbuf → Nat → Option Mbuf
  trim : Mbuf → Nat → Option Mbuf

/-- What the library says of them: the first two work on the first segment and the last
on the last one, and each fails without a change when its segment has no room. -/
structure MbufLib.Documented (lib : MbufLib) : Prop where
  prepend_eq : ∀ s rest pktLen packetType len,
    lib.prepend ⟨s :: rest, pktLen, packetType⟩ len =
      if s.dataOff < len then none
      else some ⟨{ s with dataOff := s.dataOff - len, dataLen := wrap16 (s.dataLen + len) } :: rest,
        wrap32 (pktLen + len), packetType⟩
  adj_eq : ∀ s rest pktLen packetType len,
    lib.adj ⟨s :: rest, pktLen, packetType⟩ len =
      if s.dataLen < len then none
      else some ⟨{ s with dataOff := wrap16 (s.dataOff + len), dataLen := s.dataLen - len } :: rest,
        sub32 pktLen len, packetType⟩
  trim_eq : ∀ front s pktLen packetType len,
    lib.trim ⟨front ++ [s], pktLen, packetType⟩ len =
      if s.dataLen < len then none
      else some ⟨front ++ [{ s with dataLen := s.dataLen - len }], sub32 pktLen len, packetType⟩

def segment (k : Nat) : PktCmd Segment := do
  match (← get).segs[k]? with
  | some s => pure s
  | none => throw .fault

def setSegment (k : Nat) (s : Segment) : PktCmd Unit :=
  modify fun m => { m with segs := m.segs.set k s }

/-- `n` bytes of the buffer of segment `k`, from position `pos` of the buffer on. -/
def load (k pos n : Nat) : PktCmd (List Byte) := do
  let s ← segment k
  if pos + n ≤ s.buf.length then pure (slice s.buf pos n) else throw .fault

def store (k pos : Nat) (bytes : List Byte) : PktCmd Unit := do
  let s ← segment k
  if pos + bytes.length ≤ s.buf.length then
    setSegment k { s with buf := overwrite s.buf pos bytes }
  else throw .fault

def loadByte (k pos : Nat) : PktCmd Byte := do
  let bytes ← load k pos 1
  return bytes.getD 0 0

def be16 (bytes : List Byte) : Nat := (bytes.getD 0 0).toNat * 256 + (bytes.getD 1 0).toNat

/-- `rte_be_to_cpu_16` of a header field. -/
def loadBe16 (k pos : Nat) : PktCmd Nat := do
  let bytes ← load k pos 2
  return be16 bytes

/-- A header field set to `rte_cpu_to_be_16` of a value. -/
def storeBe16 (k pos n : Nat) : PktCmd Unit := store k pos (packUint16 (BitVec.ofNat 16 n))

def memmove (k dst src n : Nat) : PktCmd Unit := do
  let bytes ← load k src n
  store k dst bytes

/-- `for (i = n - 1; i >= 0; i--) np[i] = op[i]`. -/
def copyBack (k np op : Nat) : Nat → PktCmd Unit
  | 0 => pure ()
  | i + 1 => do
    memmove k (np + i) (op + i) 1
    copyBack k np op i

/-- `rte_pktmbuf_mtod`: where the data of a segment starts in its buffer. -/
def mtod (k : Nat) : PktCmd Nat := do
  let s ← segment k
  return s.dataOff

def pktLenNow : PktCmd Nat := do
  return (← get).pktLen

/-- `rte_pktmbuf_prepend`, and the test of its result. -/
def pktmbufPrepend (lib : MbufLib) (len : Nat) : PktCmd Nat := do
  match lib.prepend (← get) (wrap16 len) with
  | none => throw (.doca .noMemory)
  | some m =>
    set m
    mtod 0

/-- `rte_pktmbuf_adj`, and the test of its result. -/
def pktmbufAdj (lib : MbufLib) (len : Nat) : PktCmd Nat := do
  match lib.adj (← get) (wrap16 len) with
  | none => throw (.doca .invalidValue)
  | some m =>
    set m
    mtod 0

/-- `rte_pktmbuf_trim`; its result is not tested. -/
def pktmbufTrim (lib : MbufLib) (len : Nat) : PktCmd Unit :=
  modify fun m => (lib.trim m (wrap16 len)).getD m

/-- `RTE_ETH_IS_IPV4_HDR`. -/
def isIpv4Hdr (packetType : BitVec 32) : Bool := packetType &&& 0x10#32 != 0#32

/-- `RTE_ETH_IS_IPV6_HDR`. -/
def isIpv6Hdr (packetType : BitVec 32) : Bool := packetType &&& 0x40#32 != 0#32

/-- `rte_ipv4_hdr_len`. -/
def ipv4HdrLen (versionIhl : Byte) : Nat := (versionIhl &&& 0xf#8).toNat * 4

def etherHdrLen : Nat := 14
def ipv6HdrLen : Nat := 40
def espHdrLen : Nat := 8
def udpHdrLen : Nat := 8
def espTailLen : Nat := 2

/-- The places of the fields in an IPv4 and an IPv6 header. -/
def ipv4TotalLengthOfs : Nat := 2
def ipv4NextProtoIdOfs : Nat := 9
def ipv6PayloadLenOfs : Nat := 4
def ipv6ProtoOfs : Nat := 6

/-- The length of the L3 header behind the Ethernet header at `oh`. -/
def l3Len (oh : Nat) : PktCmd Nat := do
  if isIpv4Hdr (← get).packetType = true then
    let versionIhl ← loadByte 0 (oh + etherHdrLen)
    return ipv4HdrLen versionIhl
  else return ipv6HdrLen

/-- What the L3 header says its payload is long. -/
def payloadLenL3 (oh l3HdrLen : Nat) : PktCmd Nat := do
  if isIpv4Hdr (← get).packetType = true then
    let totalLength ← loadBe16 0 (oh + etherHdrLen + ipv4TotalLengthOfs)
    return sub32 totalLength l3HdrLen
  else loadBe16 0 (oh + etherHdrLen + ipv6PayloadLenOfs)

def trimIfLonger (lib : MbufLib) (extra : Nat) : PktCmd Unit :=
  if extra > 0 then pktmbufTrim lib extra else pure ()

/-- `remove_trailing_zeros`. -/
def removeTrailingZeros (lib : MbufLib) : PktCmd Unit := do
  let oh ← mtod 0
  let l3HdrLen ← l3Len oh
  let payloadLenOfL3 ← payloadLenL3 oh l3HdrLen
  let payloadLen := sub32 (← pktLenNow) (l3HdrLen + etherHdrLen)
  trimIfLonger lib (sub32 payloadLen payloadLenOfL3)

end DocaApps.Ipsec.MbufChain
