import DocaApps.Lib.Endings
import DocaApps.Lib.EntryQueue
import DocaApps.Ipsec.FlowEncrypt
import DocaApps.Ipsec.FlowDecrypt

namespace DocaApps.Ipsec.BulkInsertion
open Lib.Endings Lib.EntryQueue Rules FlowCommon FlowEncrypt FlowDecrypt

/-- `QUEUE_DEPTH`, as a number of entries. -/
def depth : Nat := 512

/-- The port whose queue holds the entries of a pipe. -/
def portOf (cfg : Config) : Pipe → Port
  | .ipv4Tcp | .ipv4Udp | .ipv6Tcp | .ipv6Udp | .ipv6SrcTcp | .ipv6SrcUdp => unsecuredPort cfg
  | _ => securedPort cfg

/-- What the queues see of a library call and its answer. -/
def eventOf (cfg : Config) : LibCall × Outcome → Event Port StatusCtx
  | (.pipeAddEntry entry flags ctx, answer) =>
    match answer.error with
    | none => .add (portOf cfg entry.pipe) ctx (flags = .waitForBatch)
    | some _ => .other
  | (.entriesProcess port _, answer) => .process port (answer.completions.map Prod.fst)
  | _ => .other

/-- The events of the calls that were answered from this list. -/
def events (cfg : Config) (answers : List Outcome) (g : Gateway) : List (Event Port StatusCtx) :=
  ((g.trace.map Prod.fst).zip answers).map (eventOf cfg)

/-- A gateway with no call made yet, whose next ones get these answers. -/
def awaiting (answers : List Outcome) (g : Gateway) : Gateway :=
  { g with trace := [], outcomes := answers }

def documented (cfg : Config) (answers : List Outcome) (g : Gateway) : Prop :=
  Documented .empty (events cfg answers g)

def within (cfg : Config) (answers : List Outcome) (g : Gateway) : Prop :=
  Within depth .empty (events cfg answers g)

/-- An insertion and the loop it starts with respect the queues: whatever the calls
answer, as long as only released entries complete, no queue gets more entries than it
holds, and no entry is held back any more when the loop is done. -/
structure Respects (cfg : Config) (loop insertion : Cmd Unit) : Prop where
  bounded : ∀ answers g, Settles insertion
    (fun t => documented cfg answers t → within cfg answers t) (awaiting answers g)
  released : ∀ answers g, Ends loop
    (fun _ t => t.trace.length ≤ answers.length → documented cfg answers t →
      ∀ port, (after .empty (events cfg answers t) port).held = 0)
    (fun _ _ => True) (awaiting answers g)

/-- `add_encrypt_entries` up to its two final loops. -/
def encryptLoop (cfg : Config) (rules : List EncryptRule) (ip6Table : List (Ip6Addr × Nat)) :
    Cmd Unit := do
  modify fun g => (g.setStatus .hairpin .zero).setStatus .encrypt .zero
  addEncryptEntriesFrom cfg rules.length ip6Table 0 rules .zero

/-- `add_decrypt_entries` up to its final loop. -/
def decryptLoop (cfg : Config) (rules : List DecryptRule) (nbEncryptRules : Nat) : Cmd Unit := do
  modify fun g => g.setStatus .decrypt .zero
  addDecryptEntriesFrom cfg rules.length nbEncryptRules 0 rules
    { Match.zero with tunEsp := true } .zero

/-- The rules before the first one whose IPv6 destination has no id. -/
def installable (ip6Table : List (Ip6Addr × Nat)) (rules : List EncryptRule) : List EncryptRule :=
  rules.takeWhile fun r => r.l3Type ≠ .ip6 || (ip6Table.lookup r.ip6Dst).isSome

/-- The entries of an encrypt rule. -/
def encryptEntries (rule : EncryptRule) : Nat := if rule.l3Type = .ip6 then 3 else 2

end DocaApps.Ipsec.BulkInsertion
