import DocaApps.Ipsec.FlowCommon

namespace DocaApps.Ipsec.Config
open Common.Pack Rules FlowCommon

/-- The C library's `inet_pton` on a zero-terminated text, and the position the hash
library gives to a new key (`none` when it refuses the key). -/
structure Libs where
  inetPton4 : List Byte → Option (BitVec 32)
  inetPton6 : List Byte → Option Ip6Addr
  hashPosition : List (Ip6Addr × Nat) → Ip6Addr → Option Nat

def parseIpv4Str (libs : Libs) (text : List Byte) : Cmd (BitVec 32) :=
  match libs.inetPton4 text with
  | none => throw .invalidValue
  | some ip => pure ip

def parseIpv6Str (libs : Libs) (text : List Byte) : Cmd Ip6Addr :=
  match libs.inetPton6 text with
  | none => throw .invalidValue
  | some ip => pure ip

/-- The lookup and the insertion that both parsers do for an IPv6 address. -/
def addToIp6Table (libs : Libs) (ip : Ip6Addr) : Cmd Unit := do
  let table := (← get).ip6Table
  match table.lookup ip with
  | some _ => pure ()
  | none =>
    match libs.hashPosition table ip with
    | none => throw .driver
    | some position => modify fun g => { g with ip6Table := (ip, position) :: table }

def setEncryptRule (slot : Nat) (f : EncryptRule → EncryptRule) : Cmd Unit :=
  modify fun g => { g with encryptRules := g.encryptRules.modify slot f }

/-- `parse_encrypt_ipv6` for rule `i` of the JSON file; an address is `none` when its
text is missing or malformed. -/
def parseEncryptIpv6 (libs : Libs) (srcIp dstIp : Option Ip6Addr) (i : Nat) : Cmd Unit := do
  let src ← srcIp.elim (throw .invalidValue) pure
  setEncryptRule i fun r => { r with ip6Src := src }
  let dst ← dstIp.elim (throw .invalidValue) pure
  setEncryptRule i fun r => { r with ip6Dst := dst }
  addToIp6Table libs src
  addToIp6Table libs dst

/-- The IPv6 addresses of the rules of a JSON file, from rule `i` on. -/
def parseEncryptIpv6Rules (libs : Libs) : Nat → List EncryptRule → Cmd Unit
  | _, [] => pure ()
  | i, rule :: rules => do
    parseEncryptIpv6 libs (some rule.ip6Src) (some rule.ip6Dst) i
    parseEncryptIpv6Rules libs (i + 1) rules

end DocaApps.Ipsec.Config
