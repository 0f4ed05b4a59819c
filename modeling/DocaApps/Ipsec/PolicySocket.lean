import DocaApps.Doca
import DocaApps.Common.Pack
import DocaApps.Lib.CutStream

namespace DocaApps.Ipsec.PolicySocket
open Common.Pack Lib.CutStream

/-- `struct ipsec_security_gw_ipsec_policy`. The arrays are lists: 47 bytes for an
address text and 32 for the key. -/
structure IpsecPolicy where
  srcPort : BitVec 16
  dstPort : BitVec 16
  l3Protocol : Byte
  l4Protocol : Byte
  outerL3Protocol : Byte
  policyDirection : Byte
  policyMode : Byte
  esn : Byte
  icvLength : Byte
  keyType : Byte
  spi : BitVec 32
  salt : BitVec 32
  encKeyData : List Byte
  srcIpAddr : List Byte
  dstIpAddr : List Byte
  outerSrcIp : List Byte
  outerDstIp : List Byte
  deriving DecidableEq, Repr

def maxIpAddrLen : Nat := 46
def maxKeyLen : Nat := 32
def policyRecordMinSize : BitVec 32 := 224#32
def policyRecordMaxSize : BitVec 32 := 240#32

/-- The `memset` before every read. -/
def IpsecPolicy.zero : IpsecPolicy :=
  let noAddr := List.replicate (maxIpAddrLen + 1) 0#8
  ⟨0, 0, 0, 0, 0, 0, 0, 0, 0, 0, 0, 0, List.replicate maxKeyLen 0#8, noAddr, noAddr, noAddr,
    noAddr⟩

/-- `unpack_policy_buffer`. The last byte of each address text is overwritten, and
a short key leaves the rest of the key array as it was. -/
def unpackPolicyBuffer (nbBytes : BitVec 32) (policy : IpsecPolicy) : Unpack IpsecPolicy := do
  let srcPort ← unpackUint16
  let dstPort ← unpackUint16
  let l3Protocol ← unpackUint8
  let l4Protocol ← unpackUint8
  let outerL3Protocol ← unpackUint8
  let policyDirection ← unpackUint8
  let policyMode ← unpackUint8
  let esn ← unpackUint8
  let icvLength ← unpackUint8
  let keyType ← unpackUint8
  let spi ← unpackUint32
  let salt ← unpackUint32
  let srcIpAddr ← unpackBlob (maxIpAddrLen + 1)
  let dstIpAddr ← unpackBlob (maxIpAddrLen + 1)
  let outerSrcIp ← unpackBlob (maxIpAddrLen + 1)
  let outerDstIp ← unpackBlob (maxIpAddrLen + 1)
  let key ← unpackBlob (if nbBytes = policyRecordMaxSize then 32 else 16)
  return {
    srcPort, dstPort, l3Protocol, l4Protocol, outerL3Protocol, policyDirection, policyMode, esn,
    icvLength, keyType, spi, salt
    srcIpAddr := srcIpAddr.set maxIpAddrLen 0
    dstIpAddr := dstIpAddr.set maxIpAddrLen 0
    outerSrcIp := outerSrcIp.set maxIpAddrLen 0
    outerDstIp := outerDstIp.set maxIpAddrLen 0
    encKeyData := key ++ policy.encKeyData.drop key.length }

/-- Why a `recv` returns no byte: `EAGAIN`, the value 0, or another `errno`. -/
inductive RecvStop where
  | again | closed | failed
  deriving DecidableEq, Repr

/-- What the successive `recv` calls find on the connection. Once the list is used
up nothing more arrives and every call is told to try again. -/
abbrev Socket := List (Piece Byte RecvStop)

/-- `recv(fd, buf, n, 0)`: at most `n` bytes of what is there, the rest stays. -/
def recv (n : Nat) : Socket → Except RecvStop (List Byte) × Socket
  | [] => (.error .again, [])
  | .stop e :: s => (.error e, s)
  | .data b bs :: s => (.ok ((b :: bs).take n), push ((b :: bs).drop n) s)

/-- `fill_buffer_from_socket`. What the loop had already received when it gives up
is on no side any more: not in the socket, and the caller drops its buffer. -/
def fillBufferFromSocket (bytesToRead : Nat) (fd : Socket) :
    Except DocaError (List Byte) × Socket :=
  match recv bytesToRead fd with
  | (.error .again, fd') => (.error .again, fd')
  | (.error .closed, fd') => (.error .again, fd')
  | (.error .failed, fd') => (.error .ioFailed, fd')
  | (.ok [], fd') => (.error .again, fd')
  | (.ok (b :: bs), fd') =>
    if bs.length + 1 < bytesToRead then
      match fillBufferFromSocket (bytesToRead - (bs.length + 1)) fd' with
      | (.ok rest, fd'') => (.ok ((b :: bs) ++ rest), fd'')
      | (.error e, fd'') => (.error e, fd'')
    else
      (.ok (b :: bs), fd')
termination_by bytesToRead

/-- `read_message_length`, with its zeroed buffer of 8 bytes. -/
def readMessageLength (fd : Socket) : Option (Except DocaError (BitVec 32) × Socket) :=
  match fillBufferFromSocket 4 fd with
  | (.error e, fd') => some (.error e, fd')
  | (.ok bytes, fd') =>
    (unpackUint32 (bytes ++ List.replicate (8 - bytes.length) 0#8)).map fun (policyLength, _) =>
      if policyLength ≠ policyRecordMinSize ∧ policyLength ≠ policyRecordMaxSize then
        (.error .ioFailed, fd')
      else
        (.ok policyLength, fd')

/-- `read_message_from_socket`, with its zeroed buffer of 1024 bytes. There is no
result if a read leaves one of the two buffers. -/
def readMessageFromSocket (policy : IpsecPolicy) (fd : Socket) :
    Option (Except DocaError IpsecPolicy × Socket) :=
  (readMessageLength fd).bind fun
    | (.error e, fd') => some (.error e, fd')
    | (.ok policyLength, fd') =>
      match fillBufferFromSocket policyLength.toNat fd' with
      | (.error e, fd'') => some (.error e, fd'')
      | (.ok bytes, fd'') =>
        (unpackPolicyBuffer policyLength policy
          (bytes ++ List.replicate (1024 - bytes.length) 0#8)).map fun (p, _) => (.ok p, fd'')

structure Polled where
  policies : List IpsecPolicy
  fd : Socket
  exit : Option DocaError
  deriving DecidableEq, Repr

/-- The reads of the first `n` rounds of the loop of
`ipsec_security_gw_wait_for_traffic`: an `AGAIN` is tried again, any other error
ends the loop. -/
def pollPolicies : Nat → Socket → Option Polled
  | 0, fd => some ⟨[], fd, none⟩
  | n + 1, fd =>
    (readMessageFromSocket .zero fd).bind fun
      | (.ok p, fd') =>
        (pollPolicies n fd').map fun r => { r with policies := p :: r.policies }
      | (.error .again, fd') => pollPolicies n fd'
      | (.error e, fd') => some ⟨[], fd', some e⟩

/-- A text as policy.h wants it: padded with zeroes to 47 bytes, so the last is one. -/
structure AddrText where
  bytes : List Byte
  length_eq : bytes.length = maxIpAddrLen + 1
  last_zero : bytes.set maxIpAddrLen 0 = bytes

/-- A well-formed policy message of policy.h, with a key of 16 or of 32 bytes. -/
structure Message where
  srcPort : BitVec 16
  dstPort : BitVec 16
  l3Protocol : Byte
  l4Protocol : Byte
  outerL3Protocol : Byte
  direction : Byte
  layerMode : Byte
  esn : Byte
  icvLength : Byte
  keyType : Byte
  spi : BitVec 32
  salt : BitVec 32
  srcIpAddr : AddrText
  dstIpAddr : AddrText
  outerSrcIp : AddrText
  outerDstIp : AddrText
  encKey : List Byte
  key_length : encKey.length = 16 ∨ encKey.length = 32

/-- The record as the table of policy.h lays it out. -/
def Message.record (m : Message) : List Byte :=
  packUint16 m.srcPort ++ (packUint16 m.dstPort ++
  (packUint8 m.l3Protocol ++ (packUint8 m.l4Protocol ++ (packUint8 m.outerL3Protocol ++
  (packUint8 m.direction ++ (packUint8 m.layerMode ++ (packUint8 m.esn ++
  (packUint8 m.icvLength ++ (packUint8 m.keyType ++
  (packUint32 m.spi ++ (packUint32 m.salt ++
  (m.srcIpAddr.bytes ++ (m.dstIpAddr.bytes ++ (m.outerSrcIp.bytes ++ (m.outerDstIp.bytes ++
  m.encKey)))))))))))))))

/-- The record after its length in four bytes. -/
def Message.frame (m : Message) : List Byte :=
  packUint32 (BitVec.ofNat 32 m.record.length) ++ m.record

/-- The policy a message asks for; a short key is followed by zeroes. -/
def Message.policy (m : Message) : IpsecPolicy :=
  ⟨m.srcPort, m.dstPort, m.l3Protocol, m.l4Protocol, m.outerL3Protocol, m.direction, m.layerMode,
    m.esn, m.icvLength, m.keyType, m.spi, m.salt,
    m.encKey ++ List.replicate (maxKeyLen - m.encKey.length) 0#8,
    m.srcIpAddr.bytes, m.dstIpAddr.bytes, m.outerSrcIp.bytes, m.outerDstIp.bytes⟩

def frames (msgs : List Message) : List Byte := msgs.flatMap Message.frame

end DocaApps.Ipsec.PolicySocket
