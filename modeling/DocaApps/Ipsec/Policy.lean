import DocaApps.Ipsec.FlowEncrypt
import DocaApps.Ipsec.FlowDecrypt
import DocaApps.Ipsec.PolicySocket
import DocaApps.Ipsec.Config

namespace DocaApps.Ipsec.Policy
open Common.Pack Rules Encap FlowCommon FlowEncrypt FlowDecrypt PolicySocket Config

def policyDirIn : Byte := 0
def policyDirOut : Byte := 1
def policyModeTunnel : Byte := 1
def policyL3TypeIpv4 : Byte := 4
def policyL4TypeUdp : Byte := 17
def policyKeyType128 : Byte := 0

/-- `convert_to_doca_icv`. -/
def convertToDocaIcv (icvLength : Byte) : Except DocaError IcvLength :=
  if icvLength = 8 then .ok .icv8
  else if icvLength = 12 then .ok .icv12
  else if icvLength = 16 then .ok .icv16
  else .error .notSupported

def convertToDocaKeyType (keyType : Byte) : KeyType :=
  if keyType = policyKeyType128 then .aesgcm128 else .aesgcm256

/-- `parse_sa_attrs`: nothing is stored when the ICV length is not supported. The
direction is set by the caller. -/
def parseSaAttrs (policy : IpsecPolicy) (direction : SaDirection) : Cmd SaAttrs :=
  match convertToDocaIcv policy.icvLength with
  | .error e => throw e
  | .ok icvLength =>
    pure ⟨icvLength, convertToDocaKeyType policy.keyType, policy.encKeyData, policy.salt, direction⟩

def l3TypeOf (l3Protocol : Byte) : L3Type :=
  if l3Protocol = policyL3TypeIpv4 then .ip4 else .ip6

def setDecryptRule (slot : Nat) (f : DecryptRule → DecryptRule) : Cmd Unit :=
  modify fun g => { g with decryptRules := g.decryptRules.modify slot f }

/-- The inner addresses of an encrypt policy. -/
def parseInnerAddresses (libs : Libs) (policy : IpsecPolicy) (slot : Nat) : Cmd Unit :=
  if l3TypeOf policy.l3Protocol = .ip4 then do
    let src ← parseIpv4Str libs policy.srcIpAddr
    setEncryptRule slot fun r => { r with ip6Src := { r.ip6Src with w0 := src } }
    let dst ← parseIpv4Str libs policy.dstIpAddr
    setEncryptRule slot fun r => { r with ip6Src := { r.ip6Src with w1 := dst } }
  else do
    let src ← parseIpv6Str libs policy.srcIpAddr
    setEncryptRule slot fun r => { r with ip6Src := src }
    addToIp6Table libs src
    let dst ← parseIpv6Str libs policy.dstIpAddr
    setEncryptRule slot fun r => { r with ip6Dst := dst }
    addToIp6Table libs dst

/-- The outer destination of an encrypt policy. -/
def parseOuterAddress (libs : Libs) (policy : IpsecPolicy) (slot : Nat) : Cmd Unit :=
  if l3TypeOf policy.outerL3Protocol = .ip4 then do
    let dst ← parseIpv4Str libs policy.outerDstIp
    setEncryptRule slot fun r => { r with encapDstIp6 := { r.encapDstIp6 with w0 := dst } }
  else do
    let dst ← parseIpv6Str libs policy.outerDstIp
    setEncryptRule slot fun r => { r with encapDstIp6 := dst }

/-- The outer header is only looked at in tunnel mode. -/
def parseEncap (libs : Libs) (policy : IpsecPolicy) (slot : Nat) : Cmd Unit :=
  if policy.policyMode = policyModeTunnel then do
    setEncryptRule slot fun r => { r with encapL3Type := l3TypeOf policy.outerL3Protocol }
    parseOuterAddress libs policy slot
  else pure ()

/-- `ipsec_security_gw_policy_encrypt_parse`, into the slot of the new rule. -/
def policyEncryptParse (libs : Libs) (policy : IpsecPolicy) (slot : Nat) : Cmd Unit := do
  setEncryptRule slot fun r => { r with
    espSpi := policy.spi
    l3Type := l3TypeOf policy.l3Protocol
    protocol := if policy.l4Protocol = policyL4TypeUdp then .udp else .tcp
    srcPort := policy.srcPort.toNat
    dstPort := policy.dstPort.toNat }
  parseInnerAddresses libs policy slot
  parseEncap libs policy slot
  let saAttrs ← parseSaAttrs policy .egressEncrypt
  setEncryptRule slot fun r => { r with saAttrs }

/-- The destination of a decrypt rule, of the type its traffic has on the wire. -/
def parseDstAddress (libs : Libs) (l3Type : L3Type) (dstIp : List Byte) (slot : Nat) : Cmd Unit :=
  if l3Type = .ip4 then do
    let dst ← parseIpv4Str libs dstIp
    setDecryptRule slot fun r => { r with dstIp6 := { r.dstIp6 with w0 := dst } }
  else do
    let dst ← parseIpv6Str libs dstIp
    setDecryptRule slot fun r => { r with dstIp6 := dst }

/-- `ipsec_security_gw_policy_decrypt_parse`. -/
def policyDecryptParse (libs : Libs) (cfg : Config) (policy : IpsecPolicy) (slot : Nat) :
    Cmd Unit := do
  let outerL3Type := l3TypeOf policy.outerL3Protocol
  let innerL3Type := l3TypeOf policy.l3Protocol
  let l3Type := if cfg.mode = .tunnel then outerL3Type else innerL3Type
  let dstIp := if cfg.mode = .tunnel then policy.outerDstIp else policy.dstIpAddr
  setDecryptRule slot fun r => { r with innerL3Type, l3Type }
  parseDstAddress libs l3Type dstIp slot
  setDecryptRule slot fun r => { r with espSpi := policy.spi }
  let saAttrs ← parseSaAttrs policy .ingressDecrypt
  setDecryptRule slot fun r => { r with saAttrs }

/-- A slot of the array; the bound is checked before the slot is taken. -/
def slotOf {α : Type} (rules : List α) (slot : Nat) : Cmd α :=
  match rules[slot]? with
  | some r => pure r
  | none => throw .unexpected

/-- The part of `ipsec_security_gw_handle_decrypt_policy` after the parsing. -/
def installDecryptRule (cfg : Config) (rule : DecryptRule) (slot ruleId : Nat) : Cmd Unit := do
  let sa ← createIpsecSa cfg rule.saAttrs (setDecryptSa slot)
  addDecryptEntry cfg { rule with sa } ruleId

/-- `ipsec_security_gw_handle_encrypt_policy`. -/
def handleEncryptPolicy (libs : Libs) (cfg : Config) (policy : IpsecPolicy) (slot : Nat) :
    Cmd Unit := do
  policyEncryptParse libs policy slot
  let rule ← slotOf (← get).encryptRules slot
  let sa ← createIpsecSa cfg rule.saAttrs (setEncryptSa slot)
  addEncryptEntry cfg { rule with sa } (← get).nbRules
  modify fun g => { g with nbEncryptedRules := g.nbEncryptedRules + 1, nbRules := g.nbRules + 1 }

/-- `ipsec_security_gw_handle_decrypt_policy`. -/
def handleDecryptPolicy (libs : Libs) (cfg : Config) (policy : IpsecPolicy) (slot : Nat) :
    Cmd Unit := do
  policyDecryptParse libs cfg policy slot
  let rule ← slotOf (← get).decryptRules slot
  installDecryptRule cfg rule slot (← get).nbRules
  modify fun g => { g with nbDecryptedRules := g.nbDecryptedRules + 1, nbRules := g.nbRules + 1 }

/-- One policy in the loop of `ipsec_security_gw_wait_for_traffic`. A policy of
another direction is passed over. -/
def handlePolicy (libs : Libs) (cfg : Config) (policy : IpsecPolicy) : Cmd Unit := do
  let g ← get
  if policy.policyDirection = policyDirOut then
    if g.nbEncryptedRules ≥ maxNbRules then throw .badState
    else handleEncryptPolicy libs cfg policy g.nbEncryptedRules
  else if policy.policyDirection = policyDirIn then
    if g.nbDecryptedRules ≥ maxNbRules then throw .badState
    else handleDecryptPolicy libs cfg policy g.nbDecryptedRules

/-- The policies read so far, one after another; an error ends the loop. -/
def handlePolicies (libs : Libs) (cfg : Config) : List IpsecPolicy → Cmd Unit
  | [] => pure ()
  | policy :: policies => do
    handlePolicy libs cfg policy
    handlePolicies libs cfg policies

/-- Decrypt rules handed over one by one, with no encrypt rule before or between. -/
def installDecryptRules (cfg : Config) : Nat → List DecryptRule → Cmd Unit
  | _, [] => pure ()
  | i, rule :: rules => do
    installDecryptRule cfg rule i i
    installDecryptRules cfg (i + 1) rules

end DocaApps.Ipsec.Policy
