import DocaApps.Ipsec.Policy

namespace DocaApps.Ipsec.PolicyRecord
open Common.Pack Rules FlowCommon PolicySocket Config Policy

def byteAt (record : List Byte) (i : Nat) : Byte := record.getD i 0

/-- An address text: its first 46 bytes, then the zero that ends it. -/
def textAt (record : List Byte) (i : Nat) : List Byte :=
  (record.drop i).take maxIpAddrLen ++ [0]

def policyModeTransport : Byte := 0
def policyL3TypeIpv6 : Byte := 6
def policyL4TypeTcp : Byte := 6
def policyKeyType256 : Byte := 1

/-- The outer header of a policy counts in tunnel mode, its own or the gateway's. -/
def InTunnel (cfg : Config) (p : IpsecPolicy) : Prop :=
  p.policyMode = policyModeTunnel ∨ cfg.mode = .tunnel

/-- The text is an address of the family that a protocol byte selects. -/
def ValidAddress (libs : Libs) (l3Protocol : Byte) (text : List Byte) : Prop :=
  if l3Protocol = policyL3TypeIpv4 then (libs.inetPton4 text).isSome
  else (libs.inetPton6 text).isSome

instance (libs : Libs) (l3Protocol : Byte) (text : List Byte) :
    Decidable (ValidAddress libs l3Protocol text) :=
  inferInstanceAs (Decidable (if l3Protocol = policyL3TypeIpv4 then (libs.inetPton4 text).isSome
    else (libs.inetPton6 text).isSome))

def ValidIcv (p : IpsecPolicy) : Prop := p.icvLength = 8 ∨ p.icvLength = 12 ∨ p.icvLength = 16

/-- Every field of the record is in the set that policy.h documents for it. -/
structure WellFormed (libs : Libs) (cfg : Config) (record : List Byte) (p : IpsecPolicy) : Prop where
  l3 : p.l3Protocol = policyL3TypeIpv4 ∨ p.l3Protocol = policyL3TypeIpv6
  outerL3 : InTunnel cfg p →
    p.outerL3Protocol = policyL3TypeIpv4 ∨ p.outerL3Protocol = policyL3TypeIpv6
  l4 : p.l4Protocol = policyL4TypeUdp ∨ p.l4Protocol = policyL4TypeTcp
  direction : p.policyDirection = policyDirIn ∨ p.policyDirection = policyDirOut
  layerMode : p.policyMode = policyModeTransport ∨ p.policyMode = policyModeTunnel
  icv : ValidIcv p
  key : (p.keyType = policyKeyType128 ∧ record.length = 224) ∨
    (p.keyType = policyKeyType256 ∧ record.length = 240)
  src : ValidAddress libs p.l3Protocol p.srcIpAddr
  dst : ValidAddress libs p.l3Protocol p.dstIpAddr
  outerSrc : InTunnel cfg p → ValidAddress libs p.outerL3Protocol p.outerSrcIp
  outerDst : InTunnel cfg p → ValidAddress libs p.outerL3Protocol p.outerDstIp

/-- The protocol and the text of the destination that ingress traffic has on the wire. -/
def wireDst (cfg : Config) (p : IpsecPolicy) : Byte × List Byte :=
  if cfg.mode = .tunnel then (p.outerL3Protocol, p.outerDstIp) else (p.l3Protocol, p.dstIpAddr)

/-- The table once it knows the address, unless the hash library refuses it. -/
def learn (libs : Libs) (table : List (Ip6Addr × Nat)) (ip : Ip6Addr) :
    Option (List (Ip6Addr × Nat)) :=
  match table.lookup ip with
  | some _ => some table
  | none => (libs.hashPosition table ip).map fun position => (ip, position) :: table

/-- What the encrypt parser asks of the inner addresses. -/
def InnerParsed (libs : Libs) (table : List (Ip6Addr × Nat)) (p : IpsecPolicy) : Prop :=
  if p.l3Protocol = policyL3TypeIpv4 then
    (libs.inetPton4 p.srcIpAddr).isSome ∧ (libs.inetPton4 p.dstIpAddr).isSome
  else ∃ src dst table', libs.inetPton6 p.srcIpAddr = some src ∧ learn libs table src = some table' ∧
    libs.inetPton6 p.dstIpAddr = some dst ∧ (learn libs table' dst).isSome

/-- What the encrypt parser asks of a policy. -/
def EncryptParsed (libs : Libs) (table : List (Ip6Addr × Nat)) (p : IpsecPolicy) : Prop :=
  InnerParsed libs table p ∧
    (p.policyMode = policyModeTunnel → ValidAddress libs p.outerL3Protocol p.outerDstIp) ∧
    ValidIcv p

/-- What the decrypt parser asks of a policy. -/
def DecryptParsed (libs : Libs) (cfg : Config) (p : IpsecPolicy) : Prop :=
  ValidAddress libs (wireDst cfg p).1 (wireDst cfg p).2 ∧ ValidIcv p

/-- The parser of the policy's direction accepts it. -/
def Parsed (libs : Libs) (cfg : Config) (table : List (Ip6Addr × Nat)) (p : IpsecPolicy) : Prop :=
  if p.policyDirection = policyDirOut then EncryptParsed libs table p else DecryptParsed libs cfg p

/-- The address is not in the table and the hash library takes it. -/
def IsNew (libs : Libs) (table : List (Ip6Addr × Nat)) (ip : Ip6Addr) : Prop :=
  table.lookup ip = none ∧ (libs.hashPosition table ip).isSome

/-- The source is a new IPv6 address, or the source is known and the destination is new. -/
def NewAddress (libs : Libs) (table : List (Ip6Addr × Nat)) (p : IpsecPolicy) : Prop :=
  p.l3Protocol ≠ policyL3TypeIpv4 ∧ ∃ src, libs.inetPton6 p.srcIpAddr = some src ∧
    (IsNew libs table src ∨ (table.lookup src).isSome ∧
      ∃ dst, libs.inetPton6 p.dstIpAddr = some dst ∧ IsNew libs table dst)

end DocaApps.Ipsec.PolicyRecord
