import DocaApps.Doca
import DocaApps.Common.Pack

namespace DocaApps.Ipsec.Rules
open Common.Pack

/-- `MAX_NB_RULES`. -/
def maxNbRules : Nat := 1024

inductive L3Type where
  | none | ip4 | ip6
  deriving DecidableEq, Repr

inductive L4TypeExt where
  | none | tcp | udp
  deriving DecidableEq, Repr

inductive Mode where
  | tunnel | transport | udpTransport
  deriving DecidableEq, Repr

inductive FlowMode where
  | vnf | switch
  deriving DecidableEq, Repr

inductive EspOffload where
  | both | encap | decap | none
  deriving DecidableEq, Repr

inductive IcvLength where
  | icv8 | icv12 | icv16
  deriving DecidableEq, Repr

/-- The value of the enumeration is the length in bytes. -/
def IcvLength.bytes : IcvLength → Nat
  | .icv8 => 8
  | .icv12 => 12
  | .icv16 => 16

inductive KeyType where
  | aesgcm128 | aesgcm256
  deriving DecidableEq, Repr

inductive SaDirection where
  | ingressDecrypt | egressEncrypt
  deriving DecidableEq, Repr

/-- The parts of `struct ipsec_security_gw_config` that no command changes. -/
structure Config where
  swSnIncEnable : Bool
  swAntireplay : Bool
  mode : Mode
  flowMode : FlowMode
  offload : EspOffload
  deriving DecidableEq, Repr

/-- `doca_be32_t [4]`. -/
structure Ip6Addr where
  w0 : BitVec 32
  w1 : BitVec 32
  w2 : BitVec 32
  w3 : BitVec 32
  deriving DecidableEq, Repr

/-- `struct ipsec_security_gw_sa_attrs`. -/
structure SaAttrs where
  icvLength : IcvLength
  keyType : KeyType
  encKeyData : List Byte
  salt : BitVec 32
  direction : SaDirection
  deriving DecidableEq, Repr

/-- A `struct doca_ipsec_sa *`; the null pointer is `none`. -/
abbrev Sa := Option Nat

/-- `struct decrypt_rule`. The two forms of the destination address share memory:
`dstIp4` is the first word of `dstIp6`. -/
structure DecryptRule where
  l3Type : L3Type
  dstIp6 : Ip6Addr
  espSpi : BitVec 32
  innerL3Type : L3Type
  sa : Sa
  saAttrs : SaAttrs
  deriving DecidableEq, Repr

def DecryptRule.dstIp4 (r : DecryptRule) : BitVec 32 := r.dstIp6.w0

/-- `struct encrypt_rule`. In the address union `ip4.src_ip` and `ip4.dst_ip` are the
first two words of `ip6.src_ip`, and `encap_dst_ip4` is the first of `encap_dst_ip6`. -/
structure EncryptRule where
  l3Type : L3Type
  protocol : L4TypeExt
  ip6Src : Ip6Addr
  ip6Dst : Ip6Addr
  srcPort : Int
  dstPort : Int
  encapL3Type : L3Type
  encapDstIp6 : Ip6Addr
  espSpi : BitVec 32
  currentSn : BitVec 32
  sa : Sa
  saAttrs : SaAttrs
  deriving DecidableEq, Repr

def EncryptRule.ip4Src (r : EncryptRule) : BitVec 32 := r.ip6Src.w0
def EncryptRule.ip4Dst (r : EncryptRule) : BitVec 32 := r.ip6Src.w1
def EncryptRule.encapDstIp4 (r : EncryptRule) : BitVec 32 := r.encapDstIp6.w0

def zeroAddr : Ip6Addr := ⟨0, 0, 0, 0⟩

end DocaApps.Ipsec.Rules
