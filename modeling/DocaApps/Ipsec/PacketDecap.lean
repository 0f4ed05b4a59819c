import DocaApps.Ipsec.MbufChain
import DocaApps.Ipsec.PacketEncap

namespace DocaApps.Ipsec.PacketDecap
open Common.Pack Rules MbufChain PacketEncap

def ivLen : Nat := 8

/-- The loop of `mbuf_get_seg_ofs` over the rest of the chain, whose first segment has
index `k`; `none` when the chain ends before the offset. -/
def segOfsLoop : List Segment → Nat → Nat → Option (Nat × Nat)
  | [], _, _ => none
  | s :: segs, k, offset =>
    if s.dataLen ≤ offset then segOfsLoop segs (k + 1) (offset - s.dataLen) else some (k, offset)

/-- `mbuf_get_seg_ofs`: the index of the segment and the offset in it. -/
def mbufGetSegOfs (offset : Nat) : PktCmd (Nat × Nat) := do
  let m ← get
  if offset ≥ m.pktLen then throw (.doca .invalidValue)
  else
    match segOfsLoop m.segs 0 offset with
    | none => throw .fault
    | some found => pure found

/-- `remove_packet_tail`; the next protocol is returned. -/
def removePacketTail (lib : MbufLib) (icvLen : Nat) : PktCmd Byte := do
  removeTrailingZeros lib
  let trailerLen := icvLen + espTailLen
  let (ml, espTailSegOffset) ← mbufGetSegOfs (sub32 (← pktLenNow) trailerLen)
  let s ← segment ml
  let espTail ← load ml (s.dataOff + espTailSegOffset) espTailLen
  let padLen := (espTail.getD 0 0).toNat
  modify fun m => { m with pktLen := sub32 m.pktLen (trailerLen + padLen) }
  setSegment ml { s with dataLen := wrap16 (sub32 espTailSegOffset padLen) }
  return espTail.getD 1 0

/-- The Ethernet type of the inner packet. -/
def etherTypeOf (proto : Byte) : List Byte :=
  if proto = ipprotoIpv6 then [0x86, 0xdd] else [0x08, 0x00]

/-- `decap_packet_tunnel`. -/
def decapPacketTunnel (lib : MbufLib) (icvLen : Nat) : PktCmd Unit := do
  let proto ← removePacketTail lib icvLen
  let op ← mtod 0
  let l3HdrLen ← l3Len op
  let np ← pktmbufAdj lib (l3HdrLen + espHdrLen + ivLen)
  copyBack 0 np op etherHdrLen
  store 0 (np + 12) (etherTypeOf proto)

/-- The next protocol and the length of the IP header at `op` put back. -/
def restoreProtocol (op : Nat) (proto : Byte) : PktCmd Unit := do
  if isIpv4Hdr (← get).packetType = true then
    store 0 (op + etherHdrLen + ipv4NextProtoIdOfs) [proto]
    storeBe16 0 (op + etherHdrLen + ipv4TotalLengthOfs) (sub32 (← pktLenNow) etherHdrLen)
  else
    store 0 (op + etherHdrLen + ipv6ProtoOfs) [proto]
    storeBe16 0 (op + etherHdrLen + ipv6PayloadLenOfs)
      (sub32 (sub32 (← pktLenNow) etherHdrLen) ipv6HdrLen)

/-- `decap_packet_transport`. -/
def decapPacketTransport (lib : MbufLib) (icvLen : Nat) (udpTransport : Bool) : PktCmd Unit := do
  let proto ← removePacketTail lib icvLen
  let op ← mtod 0
  let l2L3Len := (← l3Len op) + etherHdrLen
  let headerLen :=
    if udpTransport = true then espHdrLen + udpHdrLen + ivLen else espHdrLen + ivLen
  let np ← pktmbufAdj lib headerLen
  restoreProtocol op proto
  copyBack 0 np op l2L3Len

/-- The choice that `handle_secured_packets_received` makes for a packet. -/
def decapPacket (lib : MbufLib) (mode : Mode) (icvLen : Nat) : PktCmd Unit :=
  match mode with
  | .transport => decapPacketTransport lib icvLen false
  | .udpTransport => decapPacketTransport lib icvLen true
  | .tunnel => decapPacketTunnel lib icvLen

end DocaApps.Ipsec.PacketDecap
