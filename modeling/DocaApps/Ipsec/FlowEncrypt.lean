import DocaApps.Ipsec.FlowCommon

namespace DocaApps.Ipsec.FlowEncrypt
open Rules Encap FlowCommon

/-- `get_pipe_for_rule`. -/
def getPipeForRule (rule : EncryptRule) (srcIp6 : Bool) : Pipe :=
  if srcIp6 = false then
    if rule.l3Type = .ip4 then
      if rule.protocol = .tcp then .ipv4Tcp else .ipv4Udp
    else
      if rule.protocol = .tcp then .ipv6Tcp else .ipv6Udp
  else
    if rule.protocol = .tcp then .ipv6SrcTcp else .ipv6SrcUdp

/-- `add_src_ip6_entry`. -/
def addSrcIp6Entry (port : Port) (rule : EncryptRule) (srcIpId : BitVec 32) : Cmd Unit := do
  let pipe := getPipeForRule rule true
  let m := { Match.zero with outerIp6Src := rule.ip6Src }
  let actions := { Actions.zero with metaU32 := srcIpId }
  let flags := if (← get).hairpinStatus.entriesInQueue = queueDepth - 1 then Flags.noWait
    else Flags.waitForBatch
  pipeAddEntry pipe m (some actions) flags .hairpin
  enqueued 1 .hairpin
  processIf ((← get).hairpinStatus.entriesInQueue = queueDepth) port .hairpin

/-- The first half of `add_five_tuple_match_entry`. The id of the source is looked up
with the destination as the key. -/
def srcIpIdFor (port : Port) (rule : EncryptRule) (ip6Table : List (Ip6Addr × Nat)) :
    Cmd (BitVec 32) :=
  if rule.l3Type = .ip6 then
    match ip6Table.lookup rule.ip6Dst with
    | none => throw .notFound
    | some id => do
      addSrcIp6Entry port rule (BitVec.ofNat 32 id)
      pure (BitVec.ofNat 32 id)
  else pure 0

def fiveTupleMatch (rule : EncryptRule) (srcIpId : BitVec 32) : Match :=
  let m := { Match.zero with outerL4TypeExt := rule.protocol }
  let m := m.setL4Ports (BitVec.ofInt 16 rule.srcPort) (BitVec.ofInt 16 rule.dstPort)
  if rule.l3Type = .ip4 then { m with outerIp4Dst := rule.ip4Dst, outerIp4Src := rule.ip4Src }
  else { m with metaU32 := srcIpId, outerIp6Dst := rule.ip6Dst }

/-- The metadata of encrypt rule `i`. -/
def encryptMeta (i : Nat) : BitVec 32 := (1#32 <<< 30) ||| BitVec.ofNat 32 i

/-- `add_five_tuple_match_entry`. -/
def addFiveTupleMatchEntry (port : Port) (rule : EncryptRule) (nbRules i : Nat)
    (ip6Table : List (Ip6Addr × Nat)) : Cmd Unit := do
  let srcIpId ← srcIpIdFor port rule ip6Table
  let flags := if (i : Int) = nbRules - 1 ∨
      (← get).hairpinStatus.entriesInQueue = queueDepth - 1 then Flags.noWait
    else Flags.waitForBatch
  pipeAddEntry (getPipeForRule rule false) (fiveTupleMatch rule srcIpId)
    (some { Actions.zero with pktMeta := encryptMeta i, actionIdx := 0 }) flags .hairpin
  enqueued 1 .hairpin
  processIf ((← get).hairpinStatus.entriesInQueue = queueDepth) port .hairpin

/-- The choice of the encrypt pipe at the head of both installation functions. -/
def encryptPipe (cfg : Config) (rule : EncryptRule) : Pipe :=
  if cfg.mode = .tunnel ∧ (cfg.offload = .none ∨ cfg.offload = .decap) then
    if rule.encapL3Type = .ip4 then .ipv4Encrypt else .ipv6Encrypt
  else
    if rule.l3Type = .ip4 then .ipv4Encrypt else .ipv6Encrypt

/-- The actions of the encrypt entry of rule `i`. The encapsulation bytes go over those
of the entry before. -/
def encryptActions (cfg : Config) (rule : EncryptRule) (i : Nat) (last : Actions) : Actions :=
  let actions := { last with actionIdx := 0, cryptoId := BitVec.ofNat 32 i }
  let actions := match cfg.mode with
    | .tunnel =>
      { actions with
        cryptoEncap := createIpsecEncryptSharedObjectTunnel actions.cryptoEncap rule
        actionIdx := if rule.encapL3Type = L3Type.ip4 then 0 else 1 }
    | .transport =>
      { actions with
        cryptoEncap := createIpsecEncryptSharedObjectTransport actions.cryptoEncap rule }
    | .udpTransport =>
      { actions with
        cryptoEncap := createIpsecEncryptSharedObjectTransportOverUdp actions.cryptoEncap rule }
  { actions with
    cryptoEncap := { actions.cryptoEncap with icvSize := rule.saAttrs.icvLength.bytes } }

/-- `add_encrypt_entry`, for one policy of the socket. -/
def addEncryptEntry (cfg : Config) (rule : EncryptRule) (ruleId : Nat) : Cmd Unit := do
  modify fun g => (g.setStatus .hairpin .zero).setStatus .encrypt .zero
  addFiveTupleMatchEntry (unsecuredPort cfg) rule (ruleId + 1) ruleId (← get).ip6Table
  createIpsecSharedObject (securedPort cfg) rule.sa (BitVec.ofNat 32 ruleId)
  pipeAddEntry (encryptPipe cfg rule) { Match.zero with pktMeta := BitVec.ofNat 32 ruleId }
    (some (encryptActions cfg rule ruleId .zero)) .noWait .encrypt
  enqueued 1 .encrypt
  drain (securedPort cfg) .encrypt
  drain (unsecuredPort cfg) .hairpin

/-- The loop of `add_encrypt_entries` from rule `i` on. -/
def addEncryptEntriesFrom (cfg : Config) (nbRules : Nat) (ip6Table : List (Ip6Addr × Nat)) :
    Nat → List EncryptRule → Actions → Cmd Unit
  | _, [], _ => pure ()
  | i, rule :: rules, last => do
    let sa ← createIpsecSa cfg rule.saAttrs (setEncryptSa i)
    addFiveTupleMatchEntry (unsecuredPort cfg) rule nbRules i ip6Table
    createIpsecSharedObject (securedPort cfg) sa (BitVec.ofNat 32 i)
    let m := { Match.zero with pktMeta := BitVec.ofNat 32 i }
    let actions := encryptActions cfg rule i last
    let flags := if (i : Int) = nbRules - 1 ∨
        (← get).encryptStatus.entriesInQueue = queueDepth - 1 then Flags.noWait
      else Flags.waitForBatch
    pipeAddEntry (encryptPipe cfg rule) m (some actions) flags .encrypt
    enqueued 1 .encrypt
    processIf ((← get).encryptStatus.entriesInQueue = queueDepth) (securedPort cfg) .encrypt
    addEncryptEntriesFrom cfg nbRules ip6Table (i + 1) rules actions

/-- `add_encrypt_entries`, for the rules of the JSON file. -/
def addEncryptEntries (cfg : Config) (rules : List EncryptRule)
    (ip6Table : List (Ip6Addr × Nat)) : Cmd Unit := do
  modify fun g => (g.setStatus .hairpin .zero).setStatus .encrypt .zero
  addEncryptEntriesFrom cfg rules.length ip6Table 0 rules .zero
  drain (securedPort cfg) .encrypt
  drain (unsecuredPort cfg) .hairpin

/-- The rule index that `handle_unsecured_packets_received` reads off a packet. -/
def unsecuredRuleIdx (pktMeta : BitVec 32) : BitVec 32 :=
  let metaMask := ((1#32 <<< 31) ||| (1#32 <<< 30)) - 1#32
  pktMeta &&& metaMask

end DocaApps.Ipsec.FlowEncrypt
