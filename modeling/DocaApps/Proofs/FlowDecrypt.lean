import DocaApps.Ipsec.Policy
import DocaApps.Proofs.FlowCommon

namespace DocaApps.Proofs.FlowDecrypt
open Lib.Command Lib.Endings Ipsec.Rules Ipsec.Encap Ipsec.FlowCommon Ipsec.FlowDecrypt Ipsec.Policy
open Proofs.FlowCommon

/-- The rows of the four bad syndromes of rule `i`. -/
def badSyndromeRows (pipe : Pipe) (i : Nat) : List Entry :=
  let m := { Match.zero with pktMeta := decryptMeta i }
  [⟨pipe, { m with ipsecSyndrome := 1 }, none⟩, ⟨pipe, { m with ipsecSyndrome := 2 }, none⟩,
    ⟨pipe, { m with metaU32 := 1 }, none⟩, ⟨pipe, { m with metaU32 := 2 }, none⟩]

/-- What `add_decrypt_entries` leaves in the pipes, with the match and the actions that
run through its loop. -/
def jsonRows (cfg : Config) (nbEncryptRules : Nat) :
    Nat → List DecryptRule → Match → Actions → List Entry
  | _, [], _, _ => []
  | i, rule :: rules, lastMatch, lastActions =>
    let m := decryptMatch rule lastMatch
    let actions := { lastActions with
      actionIdx := 0
      cryptoId := BitVec.ofNat 32 (nbEncryptRules + i)
      pktMeta := decryptMeta i }
    let encap := if cfg.mode = .tunnel then
        createIpsecDecryptSharedObjectTunnel actions.cryptoEncap rule.innerL3Type
      else actions.cryptoEncap
    let next := { actions with
      cryptoEncap := { encap with icvSize := rule.saAttrs.icvLength.bytes } }
    ⟨decryptPipe rule, m, some actions⟩ ::
      ⟨syndromePipe rule, { Match.zero with pktMeta := decryptMeta i }, some next⟩ ::
      (badSyndromeRows (badSyndromePipe rule) i ++
        jsonRows cfg nbEncryptRules (i + 1) rules m next)

/-- What a decrypt policy with rule id `i` leaves in the pipes. -/
def policyRow (cfg : Config) (i : Nat) (rule : DecryptRule) : Entry :=
  ⟨decryptPipe rule, decryptMatch rule { Match.zero with tunEsp := true },
    some (policyActions cfg i)⟩

theorem logs_addBadSyndromePipeEntry (pipe : Pipe) (i : Nat) (flags : Flags) :
    Logs Gateway.table (addBadSyndromePipeEntry pipe i flags) (badSyndromeRows pipe i) := by
  refine Logs.bind (logs_pipeAddEntry ..) (fun _ => ?_)
  refine Logs.bind (logs_pipeAddEntry ..) (fun _ => ?_)
  refine Logs.bind (logs_pipeAddEntry ..) (fun _ => ?_)
  exact logs_pipeAddEntry ..

theorem logs_addDecryptEntriesFrom (cfg : Config) (nb nbEncryptRules : Nat)
    (rules : List DecryptRule) : ∀ i m actions,
    Logs Gateway.table (addDecryptEntriesFrom cfg nb nbEncryptRules i rules m actions)
      (jsonRows cfg nbEncryptRules i rules m actions) := by
  induction rules with
  | nil => exact fun _ _ _ => Logs.pure ()
  | cons rule rules ih =>
    intro i m actions
    refine Logs.skip Logs.get (fun _ => ?_)
    refine Logs.skip (logs_createIpsecSa cfg _ (table_setDecryptSa _)) (fun sa => ?_)
    refine Logs.skip (logs_createIpsecSharedObject ..) (fun _ => ?_)
    refine Logs.bind (logs_pipeAddEntry ..) (fun _ => ?_)
    refine Logs.skip (logs_enqueued ..) (fun _ => ?_)
    refine Logs.bind (logs_pipeAddEntry ..) (fun _ => ?_)
    refine Logs.skip (logs_enqueued ..) (fun _ => ?_)
    refine Logs.bind (logs_addBadSyndromePipeEntry ..) (fun _ => ?_)
    refine Logs.skip (logs_enqueued ..) (fun _ => Logs.skip Logs.get (fun _ => ?_))
    exact Logs.skip (logs_processIf ..) (fun _ => ih _ _ _)

theorem logs_addDecryptEntries (cfg : Config) (rules : List DecryptRule) (nbEncryptRules : Nat) :
    Logs Gateway.table (addDecryptEntries cfg rules nbEncryptRules)
      (jsonRows cfg nbEncryptRules 0 rules { Match.zero with tunEsp := true } .zero) := by
  refine Logs.skip (Logs.modify (fun _ => rfl)) (fun _ => ?_)
  have h := Logs.bind (logs_addDecryptEntriesFrom cfg rules.length nbEncryptRules rules 0
    { Match.zero with tunEsp := true } .zero) (fun _ => logs_drain (securedPort cfg) .decrypt)
  rwa [List.append_nil] at h

theorem logs_addDecryptEntry (cfg : Config) (rule : DecryptRule) (i : Nat) :
    Logs Gateway.table (addDecryptEntry cfg rule i) [policyRow cfg i rule] := by
  refine Logs.skip (Logs.modify (fun _ => rfl)) (fun _ => ?_)
  refine Logs.skip (logs_createIpsecSharedObject ..) (fun _ => ?_)
  refine Logs.bind (logs_pipeAddEntry ..) (fun _ => ?_)
  exact Logs.skip (logs_enqueued ..) (fun _ => logs_drain ..)

theorem maintains_addDecryptEntry {inv : Gateway → Prop} (hinv : Tolerant inv) (cfg : Config)
    (rule : DecryptRule) (i : Nat) : Maintains inv (addDecryptEntry cfg rule i) := by
  refine Maintains.bind (Maintains.modify (fun g h => hinv.status g _ _ h)) (fun _ => ?_)
  refine Maintains.bind (maintains_createIpsecSharedObject hinv ..) (fun _ => ?_)
  refine Maintains.bind (maintains_libCheck hinv rfl) (fun _ => ?_)
  exact Maintains.bind (maintains_enqueued hinv _ _) (fun _ => maintains_drain hinv ..)

theorem steady_addDecryptEntry {δ : Type} {part : Gateway → δ} (hpart : Untouched part)
    (cfg : Config) (rule : DecryptRule) (i : Nat) : Steady part (addDecryptEntry cfg rule i) :=
  Steady.of_maintains (fun v => maintains_addDecryptEntry (hpart.tolerant v) cfg rule i)

theorem logs_installDecryptRule (cfg : Config) (rule : DecryptRule) (slot i : Nat) :
    Logs Gateway.table (installDecryptRule cfg rule slot i) [policyRow cfg i rule] :=
  Logs.skip (logs_createIpsecSa cfg _ (table_setDecryptSa _))
    (fun sa => logs_addDecryptEntry cfg { rule with sa } i)

theorem logs_installDecryptRules (cfg : Config) (rules : List DecryptRule) : ∀ i,
    Logs Gateway.table (installDecryptRules cfg i rules)
      ((rules.zipIdx i).map fun (rule, j) => policyRow cfg j rule) := by
  induction rules with
  | nil => exact fun _ => Logs.pure ()
  | cons rule rules ih =>
    intro i
    exact Logs.bind (logs_installDecryptRule cfg rule i i) (fun _ => ih (i + 1))

theorem jsonRows_length (cfg : Config) (nb : Nat) (rules : List DecryptRule) :
    ∀ i m actions, (jsonRows cfg nb i rules m actions).length = 6 * rules.length := by
  induction rules with
  | nil => exact fun _ _ _ => rfl
  | cons rule rules ih =>
    intro i m actions
    simp only [jsonRows, badSyndromeRows, List.length_cons, List.length_append, List.length_nil, ih]
    omega

/-- A row without the bytes beyond the size its encapsulation data declares. -/
def visible (e : Entry) : Entry :=
  { e with actions := e.actions.map fun a => { a with cryptoEncap :=
      { a.cryptoEncap with encapData := a.cryptoEncap.encapData.take a.cryptoEncap.dataSize } } }

/-- The same rows in any order, up to bytes no one reads. -/
def SameEntries (t u : List Entry) : Prop := (t.map visible).Perm (u.map visible)

/-- A policy only gets the row of the decrypt pipe, a rule of the JSON file also the
rows of the five syndrome matches: the two ways agree on the empty list alone. -/
theorem decrypt_installations_agree_iff (cfg : Config) (rules : List DecryptRule)
    (g g' json ipc : Gateway) (hg : g.table = []) (hg' : g'.table = [])
    (hjson : addDecryptEntries cfg rules 0 g = .ok () json)
    (hipc : installDecryptRules cfg 0 rules g' = .ok () ipc) :
    SameEntries json.table ipc.table ↔ rules = [] := by
  have htj := (logs_addDecryptEntries cfg rules 0).run hjson
  have hti := (logs_installDecryptRules cfg rules 0).run hipc
  rw [hg, List.nil_append] at htj
  rw [hg', List.nil_append] at hti
  constructor
  · intro hsame
    have hlen := hsame.length_eq
    rw [htj, hti, List.length_map, List.length_map, jsonRows_length, List.length_map,
      List.length_zipIdx] at hlen
    exact List.eq_nil_of_length_eq_zero (by omega)
  · rintro rfl
    rw [htj, hti]
    exact List.Perm.refl _

/-- A gateway with empty arrays whose libraries answer every call with success. -/
def idleGateway : Gateway :=
  ⟨[], [], .zero, .zero, .zero, [], [], [], 0, 0, 0⟩

def plainConfig : Config := ⟨false, false, .tunnel, .vnf, .none⟩

def plainRule : DecryptRule :=
  ⟨.ip4, ⟨0x0100000a, 0, 0, 0⟩, 7, .ip4, none,
    ⟨.icv16, .aesgcm128, List.replicate 32 1, 5, .ingressDecrypt⟩⟩

theorem decrypt_installations_agree_empty :
    ∃ json ipc, addDecryptEntries plainConfig [] 0 idleGateway = .ok () json ∧
      installDecryptRules plainConfig 0 [] idleGateway = .ok () ipc ∧
      SameEntries json.table ipc.table := by
  obtain ⟨json, hjson, _⟩ :=
    exists_of_rowsAfter (c := addDecryptEntries plainConfig [] 0) (g := idleGateway)
      (p := fun _ => true) (by decide +kernel)
  exact ⟨json, idleGateway, hjson, rfl, (decrypt_installations_agree_iff plainConfig [] idleGateway
    idleGateway json idleGateway rfl rfl hjson rfl).mpr rfl⟩

/-- One rule: six rows from the JSON file, one from the policy. -/
theorem decrypt_installations_differ :
    ∃ json ipc, addDecryptEntries plainConfig [plainRule] 0 idleGateway = .ok () json ∧
      installDecryptRules plainConfig 0 [plainRule] idleGateway = .ok () ipc ∧
      ¬ SameEntries json.table ipc.table := by
  obtain ⟨json, hjson, hrows⟩ :=
    exists_of_rowsAfter (c := addDecryptEntries plainConfig [plainRule] 0) (g := idleGateway)
      (p := fun rows => rows.length == 6) (by decide +kernel)
  obtain ⟨ipc, hipc, hrow⟩ :=
    exists_of_rowsAfter (c := installDecryptRules plainConfig 0 [plainRule]) (g := idleGateway)
      (p := fun rows => rows.length == 1) (by decide +kernel)
  refine ⟨json, ipc, hjson, hipc, fun hsame => ?_⟩
  have hlen := hsame.length_eq
  rw [List.length_map, List.length_map, beq_iff_eq.mp hrows, beq_iff_eq.mp hrow] at hlen
  cases hlen

end DocaApps.Proofs.FlowDecrypt
