import DocaApps.Ipsec.Rules

namespace DocaApps.Ipsec.BadSyndrome
open Common.Pack Rules

/-- `NUM_OF_SYNDROMES`. -/
abbrev numOfSyndromes : Nat := 4

def syndromeList : Fin numOfSyndromes → String :=
  ![ "Authentication failed",
    "Trailer length exceeded ESP payload",
    "Replay protection failed",
    "IPsec offload context reached its hard lifetime threshold" ]

/-- The part of `struct bad_syndrome_entry` that is kept between two dumps. -/
structure BadSyndromeEntry where
  previousStats : BitVec 32
  deriving DecidableEq, Repr

/-- `struct decrypt_rule` with its bad syndrome entries. -/
structure SyndromeRule where
  rule : DecryptRule
  entries : Fin numOfSyndromes → BadSyndromeEntry

/-- The destination as a dump shows it. -/
inductive Destination where
  | ip4 (octets : List Byte)
  | ip6 (address : Ip6Addr)
  deriving DecidableEq, Repr

def destination (rule : DecryptRule) : Destination :=
  if rule.l3Type = .ip4 then
    .ip4 [getByte rule.dstIp4 0, getByte rule.dstIp4 1, getByte rule.dstIp4 2,
      getByte rule.dstIp4 3]
  else .ip6 rule.dstIp6

/-- The two lines of a dump. -/
structure Report where
  spi : BitVec 32
  ip : Destination
  badSyndrome : String
  hits : BitVec 64
  deriving DecidableEq, Repr

/-- What the flow library answers to the queries of the entries of a rule. -/
abbrev Answers := Fin numOfSyndromes → Except DocaError (BitVec 64)

/-- One turn of the loop. The remembered value has 32 bits and is compared with all 64. -/
def queryEntry (rule : DecryptRule) (syndrome : String) (answer : Except DocaError (BitVec 64))
    (e : BadSyndromeEntry) : BadSyndromeEntry × Option Report :=
  match answer with
  | .error _ => (e, none)
  | .ok totalPkts =>
    if totalPkts ≠ e.previousStats.setWidth 64 then
      ({ e with previousStats := totalPkts.setWidth 32 },
        some ⟨rule.espSpi, destination rule, syndrome, totalPkts - e.previousStats.setWidth 64⟩)
    else (e, none)

def queryBadSyndrome (answers : Answers) (r : SyndromeRule) :
    SyndromeRule × (Fin numOfSyndromes → Option Report) :=
  let queried i := queryEntry r.rule (syndromeList i) (answers i) (r.entries i)
  ({ r with entries := fun i => (queried i).1 }, fun i => (queried i).2)

/-- The reports of successive dumps. -/
def dump : SyndromeRule → List Answers → List (Fin numOfSyndromes → Option Report)
  | _, [] => []
  | r, answers :: dumps =>
    let (r', reports) := queryBadSyndrome answers r
    reports :: dump r' dumps

end DocaApps.Ipsec.BadSyndrome
