import DocaApps.Lib.Overwrite
import DocaApps.Ipsec.Rules

namespace DocaApps.Ipsec.Encap
open Common.Pack Lib.Overwrite Rules

/-- An address that is already in network order, byte 0 first. -/
def addrBytes (v : BitVec 32) : List Byte :=
  [getByte v 0, getByte v 1, getByte v 2, getByte v 3]

def encapDstIpIdxIp4 : Nat := 30
def encapDstIpIdxIp6 : Nat := 38
def encapDstUdpPortIdx : Nat := 2
def encapEspSpiIdxTunnelIp4 : Nat := 34
def encapEspSpiIdxTunnelIp6 : Nat := 54
def encapEspSpiIdxTransport : Nat := 0
def encapEspSpiIdxUdpTransport : Nat := 8
def encapEspSnIdxTunnelIp4 : Nat := 38
def encapEspSnIdxTunnelIp6 : Nat := 58
def encapEspSnIdxTransport : Nat := 4
def encapEspSnIdxUdpTransport : Nat := 12

/-- The last step of every template: the sequence number, when software counts it. -/
def putSn (rule : EncryptRule) (swSnInc : Bool) (idx : Nat) (data : List Byte) : List Byte :=
  if swSnInc = true then overwrite data idx (packUint32 rule.currentSn) else data

def createTransportEncap (rule : EncryptRule) (swSnInc : Bool) : List Byte :=
  let reformatEncapData := List.replicate 16 0#8
  putSn rule swSnInc encapEspSnIdxTransport
    (overwrite reformatEncapData encapEspSpiIdxTransport (packUint32 rule.espSpi))

def createUdpTransportEncap (rule : EncryptRule) (swSnInc : Bool) : List Byte :=
  let udpDstPort := 4500#16
  let reformatEncapData : List Byte :=
    [0x30, 0x39, 0x00, 0x00, 0x00, 0xa4, 0x00, 0x00] ++ List.replicate 16 0#8
  putSn rule swSnInc encapEspSnIdxUdpTransport
    (overwrite
      (overwrite reformatEncapData encapEspSpiIdxUdpTransport (packUint32 rule.espSpi))
      encapDstUdpPortIdx (packUint16 udpDstPort))

def createIpv4TunnelEncap (rule : EncryptRule) (swSnInc : Bool) : List Byte :=
  let reformatEncapData : List Byte :=
    [0xaa, 0xbb, 0xcc, 0xdd, 0xee, 0xff, 0x11, 0x22, 0x33, 0x44, 0x55, 0x66, 0x08, 0x00,
      0x45, 0x00, 0x00, 0x00, 0x00, 0x00, 0x00, 0x00, 0x00, 0x32, 0x00, 0x00,
      0x02, 0x02, 0x02, 0x02, 0x00, 0x00, 0x00, 0x00] ++ List.replicate 16 0#8
  putSn rule swSnInc encapEspSnIdxTunnelIp4
    (overwrite
      (overwrite reformatEncapData encapDstIpIdxIp4 (addrBytes rule.encapDstIp4))
      encapEspSpiIdxTunnelIp4 (packUint32 rule.espSpi))

def createIpv6TunnelEncap (rule : EncryptRule) (swSnInc : Bool) : List Byte :=
  let reformatEncapData : List Byte :=
    [0xaa, 0xbb, 0xcc, 0xdd, 0xee, 0xff, 0x11, 0x22, 0x33, 0x44, 0x55, 0x66, 0x86, 0xdd,
      0x60, 0x00, 0x00, 0x00, 0x00, 0x00, 0x32, 0x40] ++ List.replicate 16 2#8 ++
      List.replicate 16 1#8 ++ List.replicate 16 0#8
  let dst := rule.encapDstIp6
  putSn rule swSnInc encapEspSnIdxTunnelIp6
    (overwrite
      (overwrite reformatEncapData encapDstIpIdxIp6
        (addrBytes dst.w0 ++ addrBytes dst.w1 ++ addrBytes dst.w2 ++ addrBytes dst.w3))
      encapEspSpiIdxTunnelIp6 (packUint32 rule.espSpi))

/-- `struct doca_flow_crypto_encap_action`: the copied bytes stand in front of whatever
an earlier copy left beyond `dataSize`. -/
structure CryptoEncap where
  encapData : List Byte
  dataSize : Nat
  icvSize : Nat
  deriving DecidableEq, Repr

def CryptoEncap.copy (c : CryptoEncap) (data : List Byte) : CryptoEncap :=
  { c with encapData := data ++ c.encapData.drop data.length, dataSize := data.length }

def createIpsecEncryptSharedObjectTransport (c : CryptoEncap) (rule : EncryptRule) : CryptoEncap :=
  c.copy (createTransportEncap rule false)

def createIpsecEncryptSharedObjectTransportOverUdp (c : CryptoEncap) (rule : EncryptRule) :
    CryptoEncap :=
  c.copy (createUdpTransportEncap rule false)

def createIpsecEncryptSharedObjectTunnel (c : CryptoEncap) (rule : EncryptRule) : CryptoEncap :=
  if rule.encapL3Type = .ip4 then c.copy (createIpv4TunnelEncap rule false)
  else c.copy (createIpv6TunnelEncap rule false)

/-- `create_ipsec_decrypt_shared_object_tunnel`: the Ethernet header put back by a
hardware decapsulation. -/
def createIpsecDecryptSharedObjectTunnel (c : CryptoEncap) (innerL3Type : L3Type) : CryptoEncap :=
  let mac : List Byte := [0xaa, 0xbb, 0xcc, 0xdd, 0xee, 0xff, 0x11, 0x22, 0x33, 0x44, 0x55, 0x66]
  if innerL3Type = .ip4 then c.copy (mac ++ [0x08, 0x00]) else c.copy (mac ++ [0x86, 0xdd])

end DocaApps.Ipsec.Encap
