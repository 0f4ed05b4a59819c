import DocaApps.Ipsec.MbufChain
import DocaApps.Ipsec.Encap

namespace DocaApps.Ipsec.PacketEncap
open Common.Pack Rules Encap MbufChain

def paddingAlign : Nat := 4

/-- `RTE_ALIGN_CEIL(v, PADDING_ALIGN)` of a `uint32_t`. -/
def alignCeil (v : Nat) : Nat := wrap32 (v + (paddingAlign - 1)) / paddingAlign * paddingAlign

/-- `esp_pad_bytes`. -/
def espPadBytes : List Byte := [1, 2, 3, 4, 5, 6, 7, 8, 9, 10, 11, 12, 13, 14, 15]

def ipprotoUdp : Byte := 17
def ipprotoEsp : Byte := 50
def ipprotoIpip : Byte := 4
def ipprotoIpv6 : Byte := 41

/-- The padding, with the ESP tail, behind a payload. -/
def paddingLen (payloadLen : Nat) : Nat :=
  sub32 (alignCeil (wrap32 (payloadLen + espTailLen))) payloadLen

/-- The tail appended to the last segment; the segment and where the tail starts in
its buffer are returned. -/
def appendTail (trailerLen : Nat) : PktCmd (Nat × Nat) := do
  let last := (← get).segs.length - 1
  let lastSeg ← segment last
  setSegment last { lastSeg with dataLen := wrap16 (lastSeg.dataLen + trailerLen) }
  modify fun m => { m with pktLen := wrap32 (m.pktLen + trailerLen) }
  return (last, lastSeg.dataOff + lastSeg.dataLen)

/-- The padding bytes and the ESP tail; `padding` counts the tail. -/
def writeTrailer (lastSeg trailerPointer padding : Nat) (nextProto : Byte) : PktCmd Unit := do
  let padLen := sub32 padding espTailLen
  store lastSeg trailerPointer (espPadBytes.take (min padLen espPadBytes.length))
  store lastSeg (trailerPointer + padLen) [BitVec.ofNat 8 padLen, nextProto]

/-- The new headers of a tunnel packet, with the length of the packet in them. -/
def writeTunnelHeader (rule : EncryptRule) (swSnInc : Bool) (nh : Nat) : PktCmd Unit := do
  if rule.encapL3Type = .ip4 then
    store 0 nh (createIpv4TunnelEncap rule swSnInc)
    storeBe16 0 (nh + etherHdrLen + ipv4TotalLengthOfs) (sub32 (← pktLenNow) etherHdrLen)
  else
    store 0 nh (createIpv6TunnelEncap rule swSnInc)
    storeBe16 0 (nh + etherHdrLen + ipv6PayloadLenOfs)
      (sub32 (sub32 (← pktLenNow) etherHdrLen) ipv6HdrLen)

/-- `prepare_packet_tunnel`, on the rule the packet belongs to; the rule is returned as
the call leaves it. -/
def preparePacketTunnel (lib : MbufLib) (swSnInc : Bool) (rule : EncryptRule) :
    PktCmd EncryptRule := do
  let reformatEncapDataLen := if rule.encapL3Type = .ip4 then 50 else 70
  removeTrailingZeros lib
  let payloadLen := sub32 (← pktLenNow) etherHdrLen
  let padding := paddingLen payloadLen
  let nh ← pktmbufPrepend lib (reformatEncapDataLen - etherHdrLen)
  let (lastSeg, trailerPointer) ← appendTail (wrap32 (padding + rule.saAttrs.icvLength.bytes))
  writeTunnelHeader rule swSnInc nh
  let nextProto := if rule.l3Type = .ip4 then ipprotoIpip else ipprotoIpv6
  writeTrailer lastSeg trailerPointer padding nextProto
  return { rule with currentSn := rule.currentSn + 1 }

/-- The next protocol and the length of the IP header at `nh` replaced; the old protocol
is returned, 0 for a packet of no IP version. -/
def replaceProtocol (nh : Nat) (protocol : Byte) : PktCmd Byte := do
  let packetType := (← get).packetType
  if isIpv4Hdr packetType = true then
    let nextProtocol ← loadByte 0 (nh + etherHdrLen + ipv4NextProtoIdOfs)
    store 0 (nh + etherHdrLen + ipv4NextProtoIdOfs) [protocol]
    storeBe16 0 (nh + etherHdrLen + ipv4TotalLengthOfs) (sub32 (← pktLenNow) etherHdrLen)
    return nextProtocol
  else if isIpv6Hdr packetType = true then
    let nextProtocol ← loadByte 0 (nh + etherHdrLen + ipv6ProtoOfs)
    store 0 (nh + etherHdrLen + ipv6ProtoOfs) [protocol]
    storeBe16 0 (nh + etherHdrLen + ipv6PayloadLenOfs)
      (sub32 (sub32 (← pktLenNow) etherHdrLen) ipv6HdrLen)
    return nextProtocol
  else return 0

/-- `prepare_packet_transport`. -/
def preparePacketTransport (lib : MbufLib) (swSnInc : Bool) (rule : EncryptRule)
    (udpTransport : Bool) : PktCmd EncryptRule := do
  let encapData :=
    if udpTransport = true then createUdpTransportEncap rule swSnInc
    else createTransportEncap rule swSnInc
  let espLen := if udpTransport = true then 24 else 16
  let protocol := if udpTransport = true then ipprotoUdp else ipprotoEsp
  removeTrailingZeros lib
  let oh ← mtod 0
  let l2L3Len := (← l3Len oh) + etherHdrLen
  let payloadLen := sub32 (← pktLenNow) l2L3Len
  let padding := paddingLen payloadLen
  let nh ← pktmbufPrepend lib espLen
  let (lastSeg, trailerPointer) ← appendTail (wrap32 (padding + rule.saAttrs.icvLength.bytes))
  memmove 0 nh oh l2L3Len
  store 0 (nh + l2L3Len) encapData
  let nextProtocol ← replaceProtocol nh protocol
  writeTrailer lastSeg trailerPointer padding nextProtocol
  return { rule with currentSn := rule.currentSn + 1 }

/-- The choice that `handle_unsecured_packets_received` makes for a packet. -/
def preparePacket (lib : MbufLib) (mode : Mode) (swSnInc : Bool) (rule : EncryptRule) :
    PktCmd EncryptRule :=
  match mode with
  | .transport => preparePacketTransport lib swSnInc rule false
  | .udpTransport => preparePacketTransport lib swSnInc rule true
  | .tunnel => preparePacketTunnel lib swSnInc rule

end DocaApps.Ipsec.PacketEncap
