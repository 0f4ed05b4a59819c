import DocaApps.Proofs.RecordFields
import DocaApps.Proofs.PolicyParse
import DocaApps.Proofs.IdleGateway

namespace DocaApps.Proofs.PolicyRecord
open Common.Pack Lib.Endings Ipsec.Rules Ipsec.FlowCommon Ipsec.FlowEncrypt Ipsec.FlowDecrypt
open Ipsec.Config Ipsec.Policy Ipsec.PolicySocket Ipsec.PolicyRecord
open Proofs.FlowCommon Proofs.FlowEncrypt Proofs.PolicyRun Proofs.PolicyParse Proofs.IdleGateway
open Proofs.RecordFields

/-- The states the gateway is in between two policies, since the start. -/
def Reached (libs : Libs) (cfg : Config) (g : Gateway) : Prop :=
  ∃ policies answers,
    handlePolicies libs cfg policies { callocGateway with outcomes := answers } = .ok () g

variable {libs : Libs} {cfg : Config} {p : IpsecPolicy} {g t : Gateway} {slot : Nat}
  {T : List (Ip6Addr × Nat)} {record : List Byte}

/-- The rules without their SA pointers, and the table: what the libraries and the SA
creation leave alone. -/
def bareRules (g : Gateway) : List EncryptRule × List DecryptRule × List (Ip6Addr × Nat) :=
  (g.encryptRules.map fun r => { r with sa := none },
    g.decryptRules.map fun r => { r with sa := none }, g.ip6Table)

theorem untouched_bareRules : Untouched bareRules :=
  ⟨fun _ _ _ => rfl, fun _ ctx _ => by cases ctx <;> rfl⟩

theorem map_modify {α β : Type} (l : List α) (i : Nat) {f : α → α} {h : α → β}
    (hf : ∀ a, h (f a) = h a) : (l.modify i f).map h = l.map h := by
  induction l generalizing i with
  | nil => simp
  | cons a l ih =>
    cases i with
    | zero => simp [hf]
    | succ i => simpa using ih i

theorem bareRules_setEncryptSa (slot : Nat) (sa : Sa) (g : Gateway) :
    bareRules (setEncryptSa slot sa g) = bareRules g := by
  rw [bareRules, setEncryptSa]
  dsimp only
  rw [map_modify]
  · rfl
  · exact fun _ => rfl

theorem bareRules_setDecryptSa (slot : Nat) (sa : Sa) (g : Gateway) :
    bareRules (setDecryptSa slot sa g) = bareRules g := by
  rw [bareRules, setDecryptSa]
  dsimp only
  rw [map_modify]
  · rfl
  · exact fun _ => rfl

/-- What the installation of a parsed rule leaves alone before its last step. -/
def kept (g : Gateway) := (counters g, bareRules g)

theorem untouched_kept : Untouched kept :=
  ⟨fun _ _ _ => rfl, fun _ ctx _ => by cases ctx <;> rfl⟩

theorem kept_setEncryptSa (slot : Nat) (sa : Sa) (g : Gateway) :
    kept (setEncryptSa slot sa g) = kept g := by
  rw [kept, bareRules_setEncryptSa]
  rfl

theorem kept_setDecryptSa (slot : Nat) (sa : Sa) (g : Gateway) :
    kept (setDecryptSa slot sa g) = kept g := by
  rw [kept, bareRules_setDecryptSa]
  rfl

theorem encryptAt_self {r : EncryptRule} (h : g.encryptRules[slot]? = some r) :
    encryptAt g slot r g.ip6Table = g := by
  obtain ⟨hlt, hget⟩ := List.getElem?_eq_some_iff.mp h
  rw [encryptAt, ← hget, List.set_getElem_self]

theorem decryptAt_self {r : DecryptRule} (h : g.decryptRules[slot]? = some r) :
    decryptAt g slot r = g := by
  obtain ⟨hlt, hget⟩ := List.getElem?_eq_some_iff.mp h
  rw [decryptAt, ← hget, List.set_getElem_self]

theorem encryptParse_ends {r : EncryptRule} (hslot : g.encryptRules[slot]? = some r) :
    Ends (policyEncryptParse libs p slot)
      (fun _ t => ∃ r' T', t = encryptAt g slot r' T' ∧ EncryptStored libs p r' ∧
        (p.l3Protocol ≠ policyL3TypeIpv4 → (T'.lookup r'.ip6Dst).isSome) ∧
        EncryptParsed libs g.ip6Table p ∧ Moved libs g.ip6Table p T')
      (fun _ t => ∃ r' T', t = encryptAt g slot r' T' ∧ r'.l3Type = l3TypeOf p.l3Protocol ∧
        ¬ EncryptParsed libs g.ip6Table p ∧ Moved libs g.ip6Table p T') g := by
  have hself := encryptAt_self hslot
  conv => arg 4; rw [← hself]
  exact policyEncryptParse_ends

/-- An encrypt policy that has a slot: what it writes there, and how it ends. -/
theorem handleEncryptPolicy_ends {r : EncryptRule} (hslot : g.encryptRules[slot]? = some r) :
    Ends (handleEncryptPolicy libs cfg p slot)
      (fun _ t => EncryptParsed libs g.ip6Table p ∧
        counters t = (g.nbEncryptedRules + 1, g.nbDecryptedRules, g.nbRules + 1) ∧
        ∃ r' T', bareRules t = bareRules (encryptAt g slot r' T') ∧ EncryptStored libs p r' ∧
          Moved libs g.ip6Table p T')
      (fun _ t => ∃ r' T', bareRules t = bareRules (encryptAt g slot r' T') ∧
        r'.l3Type = l3TypeOf p.l3Protocol ∧ Moved libs g.ip6Table p T')
      g := by
  unfold handleEncryptPolicy
  refine ends_bind.mpr ((encryptParse_ends hslot).mono ?_ ?_)
  · rintro _ t ⟨r', T', rfl, hstored, -, hparsed, hmoved⟩
    have hfailed : ∀ t, kept t = kept (encryptAt g slot r' T') →
        ∃ r' T', bareRules t = bareRules (encryptAt g slot r' T') ∧
          r'.l3Type = l3TypeOf p.l3Protocol ∧ Moved libs g.ip6Table p T' :=
      fun t ht => ⟨r', T', (Prod.mk.inj ht).2, hstored.l3Type, hmoved⟩
    rw [ends_bind, ends_get]
    refine (steady_slotOf _ _).andThen (fun rule t1 h1 => ?_) (fun _ t1 h1 => hfailed t1 h1)
    refine (steady_createIpsecSa untouched_kept cfg _ (kept_setEncryptSa slot)).andThen
      (fun sa t2 h2 => ?_) (fun _ t2 h2 => hfailed t2 (h2.trans h1))
    rw [ends_bind, ends_get]
    refine (steady_addEncryptEntry untouched_kept cfg _ _).andThen
      (fun _ t3 h3 => ?_) (fun _ t3 h3 => hfailed t3 (h3.trans (h2.trans h1)))
    obtain ⟨hcounters, hbare⟩ := Prod.mk.inj (h3.trans (h2.trans h1))
    obtain ⟨he, hd, hn⟩ : t3.nbEncryptedRules = g.nbEncryptedRules ∧
        t3.nbDecryptedRules = g.nbDecryptedRules ∧ t3.nbRules = g.nbRules := by
      simpa [counters, encryptAt] using hcounters
    rw [ends_modify]
    refine ⟨hparsed, ?_, r', T', hbare, hstored, hmoved⟩
    simp only [counters, he, hd, hn]
  · rintro _ t ⟨r', T', rfl, hl3, -, hmoved⟩
    exact ⟨r', T', rfl, hl3, hmoved⟩

theorem decryptParse_ends {r : DecryptRule} (hslot : g.decryptRules[slot]? = some r) :
    Ends (policyDecryptParse libs cfg p slot)
      (fun _ t => ∃ r', t = decryptAt g slot r' ∧ DecryptStored libs cfg p r' ∧
        DecryptParsed libs cfg p)
      (fun _ t => ∃ r', t = decryptAt g slot r' ∧ r'.l3Type = l3TypeOf (wireDst cfg p).1 ∧
        ¬ DecryptParsed libs cfg p) g := by
  have hself := decryptAt_self hslot
  conv => arg 4; rw [← hself]
  exact policyDecryptParse_ends

theorem steady_installDecryptRule (rule : DecryptRule) (slot i : Nat) :
    Steady kept (installDecryptRule cfg rule slot i) :=
  Steady.bind (steady_createIpsecSa untouched_kept cfg _ (kept_setDecryptSa slot))
    (fun _ => FlowDecrypt.steady_addDecryptEntry untouched_kept cfg _ _)

/-- A decrypt policy that has a slot. -/
theorem handleDecryptPolicy_ends {r : DecryptRule} (hslot : g.decryptRules[slot]? = some r) :
    Ends (handleDecryptPolicy libs cfg p slot)
      (fun _ t => DecryptParsed libs cfg p ∧
        counters t = (g.nbEncryptedRules, g.nbDecryptedRules + 1, g.nbRules + 1) ∧
        ∃ r', bareRules t = bareRules (decryptAt g slot r') ∧ DecryptStored libs cfg p r')
      (fun _ t => ∃ r', bareRules t = bareRules (decryptAt g slot r') ∧
        r'.l3Type = l3TypeOf (wireDst cfg p).1)
      g := by
  unfold handleDecryptPolicy
  refine ends_bind.mpr ((decryptParse_ends hslot).mono ?_ ?_)
  · rintro _ t ⟨r', rfl, hstored, hparsed⟩
    have hfailed : ∀ t, kept t = kept (decryptAt g slot r') →
        ∃ r', bareRules t = bareRules (decryptAt g slot r') ∧
          r'.l3Type = l3TypeOf (wireDst cfg p).1 :=
      fun t ht => ⟨r', (Prod.mk.inj ht).2, hstored.l3Type⟩
    rw [ends_bind, ends_get]
    refine (steady_slotOf _ _).andThen (fun rule t1 h1 => ?_) (fun _ t1 h1 => hfailed t1 h1)
    rw [ends_bind, ends_get]
    refine (steady_installDecryptRule _ _ _).andThen (fun _ t2 h2 => ?_)
      (fun _ t2 h2 => hfailed t2 (h2.trans h1))
    obtain ⟨hcounters, hbare⟩ := Prod.mk.inj (h2.trans h1)
    obtain ⟨he, hd, hn⟩ : t2.nbEncryptedRules = g.nbEncryptedRules ∧
        t2.nbDecryptedRules = g.nbDecryptedRules ∧ t2.nbRules = g.nbRules := by
      simpa [counters, decryptAt] using hcounters
    rw [ends_modify]
    refine ⟨hparsed, ?_, r', hbare, hstored⟩
    simp only [counters, he, hd, hn]
  · rintro _ t ⟨r', rfl, hl3, -⟩
    exact ⟨r', rfl, hl3⟩

/-- The slots that no counter reaches are still as `calloc` left them. -/
structure Fresh (g : Gateway) : Prop where
  encrypt : ∀ i < maxNbRules, g.nbEncryptedRules ≤ i →
    (g.encryptRules.map EncryptRule.l3Type)[i]? = some .none
  decrypt : ∀ i < maxNbRules, g.nbDecryptedRules ≤ i →
    (g.decryptRules.map DecryptRule.l3Type)[i]? = some .none

theorem Fresh.encryptSlot (h : Fresh g) (hlt : ¬ g.nbEncryptedRules ≥ maxNbRules) :
    ∃ r, g.encryptRules[g.nbEncryptedRules]? = some r ∧ r.l3Type = .none := by
  have hslot := h.encrypt g.nbEncryptedRules (Nat.lt_of_not_le hlt) (Nat.le_refl _)
  rwa [List.getElem?_map, Option.map_eq_some_iff] at hslot

theorem Fresh.decryptSlot (h : Fresh g) (hlt : ¬ g.nbDecryptedRules ≥ maxNbRules) :
    ∃ r, g.decryptRules[g.nbDecryptedRules]? = some r ∧ r.l3Type = .none := by
  have hslot := h.decrypt g.nbDecryptedRules (Nat.lt_of_not_le hlt) (Nat.le_refl _)
  rwa [List.getElem?_map, Option.map_eq_some_iff] at hslot

/-- Equal rules up to their SA pointers have equal types. -/
theorem types_of_bareRules {u : Gateway} (h : bareRules t = bareRules u) :
    t.encryptRules.map EncryptRule.l3Type = u.encryptRules.map EncryptRule.l3Type ∧
      t.decryptRules.map DecryptRule.l3Type = u.decryptRules.map DecryptRule.l3Type := by
  obtain ⟨he, hrest⟩ := Prod.mk.inj h
  obtain ⟨hd, -⟩ := Prod.mk.inj hrest
  have he := congrArg (List.map EncryptRule.l3Type) he
  have hd := congrArg (List.map DecryptRule.l3Type) hd
  rw [List.map_map, List.map_map] at he hd
  exact ⟨he, hd⟩

theorem ends_handlePolicy {q : Unit → Gateway → Prop} {e : DocaError → Gateway → Prop} :
    Ends (handlePolicy libs cfg p) q e g ↔
      if p.policyDirection = policyDirOut then
        if g.nbEncryptedRules ≥ maxNbRules then e .badState g
        else Ends (handleEncryptPolicy libs cfg p g.nbEncryptedRules) q e g
      else if p.policyDirection = policyDirIn then
        if g.nbDecryptedRules ≥ maxNbRules then e .badState g
        else Ends (handleDecryptPolicy libs cfg p g.nbDecryptedRules) q e g
      else q () g := by
  simp only [handlePolicy, ends_bind, ends_get, ends_ite, ends_throw, ends_pure]

theorem handlePolicy_fresh (h : Fresh g) :
    Ends (handlePolicy libs cfg p) (fun _ t => Fresh t) (fun _ _ => True) g := by
  rw [ends_handlePolicy]
  split
  · split
    · trivial
    · rename_i hlt
      obtain ⟨r, hslot, -⟩ := h.encryptSlot hlt
      refine (handleEncryptPolicy_ends hslot).mono ?_ (fun _ _ _ => trivial)
      rintro _ t ⟨-, hcounters, r', T', hbare, -⟩
      obtain ⟨he, hd, -⟩ : t.nbEncryptedRules = _ ∧ t.nbDecryptedRules = _ ∧ t.nbRules = _ := by
        simpa [counters] using hcounters
      obtain ⟨hte, htd⟩ := types_of_bareRules hbare
      refine ⟨fun i hi hle => ?_, fun i hi hle => ?_⟩
      · rw [hte, encryptAt, List.map_set, List.getElem?_set_ne (by omega)]
        exact h.encrypt i hi (by omega)
      · rw [htd]
        exact h.decrypt i hi (by omega)
  · split
    · split
      · trivial
      · rename_i hlt
        obtain ⟨r, hslot, -⟩ := h.decryptSlot hlt
        refine (handleDecryptPolicy_ends hslot).mono ?_ (fun _ _ _ => trivial)
        rintro _ t ⟨-, hcounters, r', hbare, -⟩
        obtain ⟨he, hd, -⟩ : t.nbEncryptedRules = _ ∧ t.nbDecryptedRules = _ ∧ t.nbRules = _ := by
          simpa [counters] using hcounters
        obtain ⟨hte, htd⟩ := types_of_bareRules hbare
        refine ⟨fun i hi hle => ?_, fun i hi hle => ?_⟩
        · rw [hte]
          exact h.encrypt i hi (by omega)
        · rw [htd, decryptAt, List.map_set, List.getElem?_set_ne (by omega)]
          exact h.decrypt i hi (by omega)
    · exact h

theorem handlePolicies_fresh (policies : List IpsecPolicy) : ∀ {g t : Gateway}, Fresh g →
    handlePolicies libs cfg policies g = .ok () t → Fresh t := by
  induction policies with
  | nil =>
    intro g t hg h
    cases h
    exact hg
  | cons policy policies ih =>
    intro g t hg h
    obtain ⟨_, g1, h1, h2⟩ := Lib.Command.bind_eq_ok.mp h
    exact ih ((handlePolicy_fresh hg).ok h1) h2

theorem Reached.fresh (h : Reached libs cfg g) : Fresh g := by
  obtain ⟨policies, answers, hrun⟩ := h
  refine handlePolicies_fresh policies ⟨fun i hi _ => ?_, fun i hi _ => ?_⟩ hrun
  · simp only [callocGateway, List.map_replicate, List.getElem?_replicate, if_pos hi]
  · simp only [callocGateway, List.map_replicate, List.getElem?_replicate, if_pos hi]

end DocaApps.Proofs.PolicyRecord
