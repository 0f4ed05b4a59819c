import DocaApps.Ipsec.FlowCommon

namespace DocaApps.Ipsec.FlowDecrypt
open Rules Encap FlowCommon

/-- `NUM_OF_SYNDROMES`. -/
def numOfSyndromes : Int := 4

/-- The metadata of decrypt rule `i`. -/
def decryptMeta (i : Nat) : BitVec 32 := (1#32 <<< 31) ||| BitVec.ofNat 32 i

/-- `add_bad_syndrome_pipe_entry`. -/
def addBadSyndromePipeEntry (pipe : Pipe) (ruleId : Nat) (flags : Flags) : Cmd Unit := do
  let m := { Match.zero with pktMeta := decryptMeta ruleId }
  pipeAddEntry pipe { m with ipsecSyndrome := 1, metaU32 := 0 } none .waitForBatch .decrypt
  pipeAddEntry pipe { m with ipsecSyndrome := 2, metaU32 := 0 } none .waitForBatch .decrypt
  pipeAddEntry pipe { m with ipsecSyndrome := 0, metaU32 := 1 } none .waitForBatch .decrypt
  pipeAddEntry pipe { m with ipsecSyndrome := 0, metaU32 := 2 } none flags .decrypt

/-- The match on the destination and the SPI, over the one of the rule before. -/
def decryptMatch (rule : DecryptRule) (last : Match) : Match :=
  let m := { last with outerL3Type := rule.l3Type, tunEspSpi := rule.espSpi }
  if rule.l3Type = .ip4 then { m with outerIp4Dst := rule.dstIp4 }
  else { m with outerIp6Dst := rule.dstIp6 }

def decryptPipe (rule : DecryptRule) : Pipe :=
  if rule.l3Type = .ip4 then .decryptIpv4 else .decryptIpv6

def syndromePipe (rule : DecryptRule) : Pipe :=
  if rule.l3Type = .ip4 then .syndromeIpv4 else .syndromeIpv6

def badSyndromePipe (rule : DecryptRule) : Pipe :=
  if rule.l3Type = .ip4 then .badSyndromeIpv4 else .badSyndromeIpv6

/-- The actions of the decrypt entry of a policy. The index is left out when the
packets do not come up to software. -/
def policyActions (cfg : Config) (ruleId : Nat) : Actions :=
  let actions := { Actions.zero with actionIdx := 0, cryptoId := BitVec.ofNat 32 ruleId }
  if cfg.flowMode = .switch ∨ cfg.offload = .none ∨ cfg.offload = .encap then
    { actions with pktMeta := decryptMeta ruleId }
  else actions

/-- `add_decrypt_entry`, for one policy of the socket. -/
def addDecryptEntry (cfg : Config) (rule : DecryptRule) (ruleId : Nat) : Cmd Unit := do
  modify fun g => g.setStatus .decrypt .zero
  createIpsecSharedObject (securedPort cfg) rule.sa (BitVec.ofNat 32 ruleId)
  pipeAddEntry (decryptPipe rule) (decryptMatch rule { Match.zero with tunEsp := true })
    (some (policyActions cfg ruleId)) .noWait .decrypt
  enqueued 1 .decrypt
  drain (securedPort cfg) .decrypt

/-- The loop of `add_decrypt_entries` from rule `i` on. The match and the actions are
not cleared between two rules. -/
def addDecryptEntriesFrom (cfg : Config) (nbRules nbEncryptRules : Nat) :
    Nat → List DecryptRule → Match → Actions → Cmd Unit
  | _, [], _, _ => pure ()
  | i, rule :: rules, lastMatch, lastActions => do
    let flags := if (i : Int) = nbRules - 1 ∨
        (← get).decryptStatus.entriesInQueue = queueDepth - 8 then Flags.noWait
      else Flags.waitForBatch
    let sa ← createIpsecSa cfg rule.saAttrs (setDecryptSa i)
    createIpsecSharedObject (securedPort cfg) sa (BitVec.ofNat 32 (nbEncryptRules + i))
    let m := decryptMatch rule lastMatch
    let actions := { lastActions with
      actionIdx := 0
      cryptoId := BitVec.ofNat 32 (nbEncryptRules + i)
      pktMeta := decryptMeta i }
    pipeAddEntry (decryptPipe rule) m (some actions) .waitForBatch .decrypt
    enqueued 1 .decrypt
    let encap := if cfg.mode = .tunnel then
        createIpsecDecryptSharedObjectTunnel actions.cryptoEncap rule.innerL3Type
      else actions.cryptoEncap
    let actions := { actions with
      cryptoEncap := { encap with icvSize := rule.saAttrs.icvLength.bytes } }
    let syndromeMatch := { Match.zero with ipsecSyndrome := 0, metaU32 := 0, pktMeta := decryptMeta i }
    pipeAddEntry (syndromePipe rule) syndromeMatch (some actions) .waitForBatch .decrypt
    enqueued 1 .decrypt
    addBadSyndromePipeEntry (badSyndromePipe rule) i flags
    enqueued numOfSyndromes .decrypt
    processIf ((← get).decryptStatus.entriesInQueue ≥ queueDepth - 8) (securedPort cfg) .decrypt
    addDecryptEntriesFrom cfg nbRules nbEncryptRules (i + 1) rules m actions

/-- `add_decrypt_entries`, for the rules of the JSON file. -/
def addDecryptEntries (cfg : Config) (rules : List DecryptRule) (nbEncryptRules : Nat) :
    Cmd Unit := do
  modify fun g => g.setStatus .decrypt .zero
  addDecryptEntriesFrom cfg rules.length nbEncryptRules 0 rules
    { Match.zero with tunEsp := true } .zero
  drain (securedPort cfg) .decrypt

/-- The rule index that `handle_secured_packets_received` reads off a packet. -/
def securedRuleIdx (pktMeta : BitVec 32) : BitVec 32 :=
  let metaMask := (1#32 <<< 30) - 1#32
  pktMeta &&& metaMask

end DocaApps.Ipsec.FlowDecrypt
