import DocaApps.Ipsec.SaRelease
import DocaApps.Proofs.PolicyParse

namespace DocaApps.Proofs.SaRelease
open Lib.Command Lib.Endings Ipsec.Rules Ipsec.Encap Ipsec.FlowCommon Ipsec.FlowEncrypt
open Ipsec.FlowDecrypt Ipsec.Config Ipsec.Policy Ipsec.PolicySocket Ipsec.SaRelease
open Proofs.FlowCommon Proofs.FlowEncrypt Proofs.FlowDecrypt Proofs.PolicyRun Proofs.PolicyParse

/-- The SA that comes with the answer to call `k`. -/
def answeredSa (answers : List Outcome) (k : Nat) : Sa := (answers[k]?).elim (some k) Outcome.sa

/-- What can be read off the calls of a run: their number, the context that the last creation
names, and the SAs whose creation succeeded, with whether that context was the full-offload one. -/
structure Ledger where
  calls : Nat
  fullOffload : Bool
  created : List (Nat × Bool)

def Ledger.note (answers : List Outcome) (l : Ledger) : LibCall × Option DocaError → Ledger
  | (.saCreateAllocateInit _ fullOffload, _) => { l with calls := l.calls + 1, fullOffload }
  | (.taskGetStatus, none) =>
    { l with
      calls := l.calls + 1
      created := l.created ++ ((answeredSa answers l.calls).map (·, l.fullOffload)).toList }
  | _ => { l with calls := l.calls + 1 }

def ledger (answers : List Outcome) (trace : List (LibCall × Option DocaError)) : Ledger :=
  trace.foldl (Ledger.note answers) ⟨0, false, []⟩

/-- The SAs created so far. -/
def created (answers : List Outcome) (trace : List (LibCall × Option DocaError)) :
    List (Nat × Bool) := (ledger answers trace).created

/-- A creation gives an SA exactly when it succeeds. -/
def Documented (answers : List Outcome) : Prop :=
  ∀ a ∈ answers, a.sa.isSome = a.error.isNone

variable {cfg : Config} {answers : List Outcome} {base : List (Nat × Bool)} {e d : Nat}
  {g t : Gateway} {trace : List (LibCall × Option DocaError)}

theorem ledger_snoc (c : LibCall × Option DocaError) :
    ledger answers (trace ++ [c]) = (ledger answers trace).note answers c := by
  rw [ledger, List.foldl_append]
  rfl

theorem ledger_calls (answers : List Outcome) : (ledger answers trace).calls = trace.length := by
  induction trace using List.reverseRecOn with
  | nil => rfl
  | append_singleton trace c ih =>
    rw [ledger_snoc, List.length_append, ← ih]
    unfold Ledger.note
    split <;> rfl

theorem created_other {c : LibCall} (hc : createsSa c = false) (r : Option DocaError) :
    created answers (trace ++ [(c, r)]) = created answers trace := by
  unfold created
  rw [ledger_snoc]
  cases c with
  | saCreateAllocateInit | taskSubmit | taskGetStatus => cases hc
  | pipeAddEntry | entriesProcess | sharedResourceCfg | sharedResourcesBind => rfl

/-- The SAs of the rules and their contexts, as the clean-up works them out. -/
def owned (fullOffload : Bool) (sas : List Sa) : List (Nat × Bool) :=
  sas.filterMap fun sa => sa.map (·, fullOffload)

def encryptSas (g : Gateway) : List Sa := g.encryptRules.map EncryptRule.sa

def decryptSas (g : Gateway) : List Sa := g.decryptRules.map DecryptRule.sa

/-- The SAs that a run created are those of `base` and those in the rules, and only the first
`e` encrypt rules and the first `d` decrypt rules have one. -/
structure Accounted (cfg : Config) (answers : List Outcome) (base : List (Nat × Bool)) (e d : Nat)
    (g : Gateway) : Prop where
  synced : g.outcomes = answers.drop g.trace.length
  balance : (created answers g.trace).Perm (base ++
    (owned (!cfg.swSnIncEnable) (encryptSas g) ++ owned (!cfg.swAntireplay) (decryptSas g)))
  encryptFresh : ∀ sa ∈ (encryptSas g).drop e, sa = none
  decryptFresh : ∀ sa ∈ (decryptSas g).drop d, sa = none

theorem Accounted.mono {e' d' : Nat} (h : Accounted cfg answers base e d g) (he : e ≤ e')
    (hd : d ≤ d') : Accounted cfg answers base e' d' g where
  synced := h.synced
  balance := h.balance
  encryptFresh sa hsa := h.encryptFresh sa ((List.drop_sublist_drop_left _ he).mem hsa)
  decryptFresh sa hsa := h.decryptFresh sa ((List.drop_sublist_drop_left _ hd).mem hsa)

theorem owned_append (fullOffload : Bool) (xs ys : List Sa) :
    owned fullOffload (xs ++ ys) = owned fullOffload xs ++ owned fullOffload ys :=
  List.filterMap_append

theorem owned_fresh {fullOffload : Bool} {sas : List Sa} (h : ∀ sa ∈ sas, sa = none) :
    owned fullOffload sas = [] := by
  refine List.filterMap_eq_nil_iff.mpr (fun sa hsa => ?_)
  rw [h sa hsa]
  rfl

/-- An SA put where there was none. -/
theorem owned_set (fullOffload : Bool) {sas : List Sa} {i : Nat} (hi : i < sas.length)
    (hfresh : ∀ sa ∈ sas.drop i, sa = none) (sa : Sa) :
    (owned fullOffload (sas.set i sa)).Perm (owned fullOffload [sa] ++ owned fullOffload sas) ∧
      ∀ sa' ∈ (sas.set i sa).drop (i + 1), sa' = none := by
  have hrest : ∀ sa' ∈ sas.drop (i + 1), sa' = none :=
    fun sa' h => hfresh sa' ((List.drop_sublist_drop_left _ (Nat.le_succ i)).mem h)
  have hset : owned fullOffload (sas.set i sa) =
      owned fullOffload (sas.take i) ++ owned fullOffload [sa] := by
    rw [List.set_eq_take_append_cons_drop, if_pos hi, owned_append, ← List.singleton_append,
      owned_append, owned_fresh hrest, List.append_nil]
  have hold : owned fullOffload sas = owned fullOffload (sas.take i) := by
    conv_lhs => rw [← List.take_append_drop i sas]
    rw [owned_append, owned_fresh hfresh, List.append_nil]
  constructor
  · rw [hset, hold]
    exact List.perm_append_comm
  · rwa [List.drop_set_of_lt (Nat.lt_succ_self i)]

/-- The calls and the answers of a state agree with those of the run. -/
def Synced (answers : List Outcome) (g : Gateway) : Prop :=
  g.outcomes = answers.drop g.trace.length

theorem nextAnswer_documented (hdoc : Documented answers) (h : Synced answers g) :
    (nextAnswer g).sa.isSome = (nextAnswer g).error.isNone := by
  unfold nextAnswer
  cases hout : g.outcomes with
  | nil => rfl
  | cons a rest =>
    refine hdoc a (List.mem_of_mem_drop (i := g.trace.length) ?_)
    rw [← show g.outcomes = answers.drop g.trace.length from h, hout]
    exact List.mem_cons_self

theorem nextAnswer_sa (h : Synced answers g) :
    (nextAnswer g).sa = answeredSa answers g.trace.length := by
  unfold nextAnswer answeredSa
  rw [show g.outcomes = answers.drop g.trace.length from h, List.headD_eq_head?_getD,
    List.head?_drop]
  cases answers[g.trace.length]? <;> rfl

/-- The state after one more call. -/
def called (c : LibCall) (g : Gateway) : Gateway :=
  { g with trace := g.trace ++ [(c, (nextAnswer g).error)], outcomes := g.outcomes.tail }

theorem Synced.called (h : Synced answers g) (c : LibCall) : Synced answers (called c g) := by
  change g.outcomes.tail = answers.drop (g.trace ++ [(c, (nextAnswer g).error)]).length
  rw [show g.outcomes = answers.drop g.trace.length from h, List.tail_drop, List.length_append]
  rfl

theorem ends_called {c : LibCall} {q : Outcome → Gateway → Prop}
    {r : DocaError → Gateway → Prop} : Ends (libCall c) q r g ↔ q (nextAnswer g) (called c g) :=
  ends_libCall

theorem ends_libCheck {c : LibCall} {q : Unit → Gateway → Prop} {r : DocaError → Gateway → Prop} :
    Ends (libCheck c) q r g ↔ ((nextAnswer g).error = none → q () (called c g)) ∧
      ∀ e, (nextAnswer g).error = some e → r e (called c g) := by
  rw [libCheck, ends_bind, ends_called]
  cases (nextAnswer g).error with
  | none => simp
  | some e => simp

/-- What a creation leaves: the SA that was created, if any, is the one in the answer, and it
belongs to the context that was named. -/
structure Answered (answers : List Outcome) (fullOffload : Bool) (g : Gateway) (sa : Sa)
    (t : Gateway) : Prop where
  frame : ∃ trace outcomes, t = { g with trace, outcomes }
  synced : Synced answers t
  created : created answers t.trace = created answers g.trace ++ owned fullOffload [sa]

theorem answered_none {fullOffload : Bool}
    (hframe : ∃ trace outcomes, t = { g with trace, outcomes }) (hsynced : Synced answers t)
    (hcreated : created answers t.trace = created answers g.trace) :
    Answered answers fullOffload g none t where
  frame := hframe
  synced := hsynced
  created := hcreated.trans (List.append_nil _).symm

theorem owned_singleton (fullOffload : Bool) (sa : Sa) :
    owned fullOffload [sa] = (sa.map (·, fullOffload)).toList := by
  cases sa <;> rfl

/-- The three calls of a creation, whatever is done with the answer. -/
theorem creation_ends {attrs : SaAttrs} {fullOffload : Bool} {r : DocaError → Gateway → Prop}
    {q : Outcome → Gateway → Prop} (hdoc : Documented answers) (h : Synced answers g)
    (hrefused : ∀ e t, Answered answers fullOffload g none t → r e t)
    (hanswer : ∀ a t, Answered answers fullOffload g a.sa t → a.sa.isSome = a.error.isNone →
      q a t) :
    Ends (libCheck (.saCreateAllocateInit attrs fullOffload))
      (fun _ t => Ends (libCheck .taskSubmit)
        (fun _ t => Ends (libCall .taskGetStatus) q r t) r t) r g := by
  have hfirst : ∀ r, ledger answers (g.trace ++ [(.saCreateAllocateInit attrs fullOffload, r)]) =
      ⟨g.trace.length + 1, fullOffload, created answers g.trace⟩ := by
    intro r
    rw [ledger_snoc, ← ledger_calls answers]
    rfl
  have hsecond : ∀ r r', ledger answers (g.trace ++
      [(.saCreateAllocateInit attrs fullOffload, r)] ++ [(.taskSubmit, r')]) =
      ⟨g.trace.length + 2, fullOffload, created answers g.trace⟩ := by
    intro r r'
    rw [ledger_snoc, hfirst]
    rfl
  refine ends_libCheck.mpr ⟨fun _ => ends_libCheck.mpr ⟨fun _ => ends_called.mpr ?_, ?_⟩, ?_⟩
  · have hsynced := (h.called (.saCreateAllocateInit attrs fullOffload)).called .taskSubmit
    have hdocumented := nextAnswer_documented hdoc hsynced
    refine hanswer _ _ ⟨⟨_, _, rfl⟩, hsynced.called _, ?_⟩ hdocumented
    have hsa := nextAnswer_sa hsynced
    have hlength : (called .taskSubmit (called (.saCreateAllocateInit attrs fullOffload)
        g)).trace.length = g.trace.length + 2 := by simp [called]
    rw [owned_singleton, hsa, hlength]
    rw [hsa, hlength] at hdocumented
    unfold created
    rw [called, ledger_snoc]
    cases herr : (nextAnswer (called .taskSubmit
        (called (.saCreateAllocateInit attrs fullOffload) g))).error with
    | none =>
      change ((ledger answers (g.trace ++ [(.saCreateAllocateInit attrs fullOffload, _)] ++
        [(.taskSubmit, _)])).note answers (.taskGetStatus, none)).created = _
      rw [hsecond]
      rfl
    | some e =>
      rw [herr] at hdocumented
      change ((ledger answers (g.trace ++ [(.saCreateAllocateInit attrs fullOffload, _)] ++
        [(.taskSubmit, _)])).note answers (.taskGetStatus, some e)).created = _
      have hnone : answeredSa answers (g.trace.length + 2) = none :=
        Option.isSome_eq_false_iff.mp hdocumented |> Option.isNone_iff_eq_none.mp
      rw [hsecond, hnone]
      exact (List.append_nil _).symm
  · intro e _
    refine hrefused e _ (answered_none ⟨_, _, rfl⟩ ((h.called _).called _) ?_)
    change (ledger answers (g.trace ++ [(_, _)] ++ [(_, _)])).created = _
    rw [hsecond]
  · intro e _
    refine hrefused e _ (answered_none ⟨_, _, rfl⟩ (h.called _) ?_)
    change (ledger answers (g.trace ++ [(_, _)])).created = _
    rw [hfirst]

/-- Whether the full-offload context is the one for SAs of a direction. -/
def fullOffload (cfg : Config) : SaDirection → Bool
  | .ingressDecrypt => !cfg.swAntireplay
  | .egressEncrypt => !cfg.swSnIncEnable

theorem decide_fullOffload (cfg : Config) (direction : SaDirection) :
    decide ((direction = .ingressDecrypt ∧ cfg.swAntireplay = false) ∨
      (direction = .egressEncrypt ∧ cfg.swSnIncEnable = false)) = fullOffload cfg direction := by
  cases direction with
  | ingressDecrypt => cases h : cfg.swAntireplay <;> simp [fullOffload, h]
  | egressEncrypt => cases h : cfg.swSnIncEnable <;> simp [fullOffload, h]

theorem createIpsecSa_settles {attrs : SaAttrs} {store : Sa → Gateway → Gateway}
    {p : Gateway → Prop} (hdoc : Documented answers) (h : Synced answers g)
    (hrefused : ∀ t, Answered answers (fullOffload cfg attrs.direction) g none t → p t)
    (hstored : ∀ sa t, Answered answers (fullOffload cfg attrs.direction) g sa t → p (store sa t)) :
    Settles (createIpsecSa cfg attrs store) p g := by
  unfold Settles createIpsecSa
  dsimp only
  rw [decide_fullOffload]
  simp only [ends_bind, ends_modify]
  refine creation_ends hdoc h (fun _ t ht => hrefused t ht) (fun a t ht _ => ?_)
  cases a.error with
  | some e => exact (ends_throw e).mpr (hstored _ _ ht)
  | none => exact (ends_pure _).mpr (hstored _ _ ht)

/-- A field of the entries of an array of which one is written. -/
theorem map_modify {α β : Type} {p : α → β} {f : α → α} {b : β} (h : ∀ a, p (f a) = b)
    (l : List α) (i : Nat) : (l.modify i f).map p = (l.map p).set i b := by
  induction l generalizing i with
  | nil => simp
  | cons a l ih =>
    cases i with
    | zero => simp [h]
    | succ i => simpa using ih i

theorem encryptSas_setEncryptSa (i : Nat) (sa : Sa) (g : Gateway) :
    encryptSas (setEncryptSa i sa g) = (encryptSas g).set i sa :=
  map_modify (by intro; rfl) g.encryptRules i

theorem decryptSas_setDecryptSa (i : Nat) (sa : Sa) (g : Gateway) :
    decryptSas (setDecryptSa i sa g) = (decryptSas g).set i sa :=
  map_modify (by intro; rfl) g.decryptRules i

theorem tolerant_accounted : Tolerant (Accounted cfg answers base e d) where
  call g c r hc h := by
    refine ⟨?_, ?_, h.encryptFresh, h.decryptFresh⟩
    · change g.outcomes.tail = _
      rw [h.synced, List.tail_drop, List.length_append]
      rfl
    · change (created answers (g.trace ++ [(c, r)])).Perm _
      rw [created_other hc]
      exact h.balance
  status g ctx st h := by
    cases ctx <;> exact ⟨h.synced, h.balance, h.encryptFresh, h.decryptFresh⟩

theorem Accounted.answered {full : Bool} (h : Accounted cfg answers base e d g)
    (ht : Answered answers full g none t) : Accounted cfg answers base e d t := by
  have hsynced := ht.synced
  have hcreated := ht.created
  obtain ⟨trace, outcomes, rfl⟩ := ht.frame
  exact ⟨hsynced, (List.Perm.of_eq (hcreated.trans (List.append_nil _))).trans h.balance,
    h.encryptFresh, h.decryptFresh⟩

/-- A created SA that is stored in the next encrypt rule. -/
theorem Accounted.setEncryptSa {sa : Sa} (h : Accounted cfg answers base e d g)
    (he : e < g.encryptRules.length)
    (ht : Answered answers (fullOffload cfg .egressEncrypt) g sa t) :
    Accounted cfg answers base (e + 1) d (setEncryptSa e sa t) := by
  have hsynced := ht.synced
  have hcreated := ht.created
  obtain ⟨trace, outcomes, rfl⟩ := ht.frame
  have hsize : e < (encryptSas g).length := by rwa [encryptSas, List.length_map]
  obtain ⟨hperm, hfresh⟩ := owned_set (!cfg.swSnIncEnable) hsize h.encryptFresh sa
  refine ⟨hsynced, ?_, ?_, h.decryptFresh⟩
  · rw [encryptSas_setEncryptSa]
    refine (List.Perm.of_eq hcreated).trans ((h.balance.append_right _).trans ?_)
    rw [List.append_assoc base]
    refine List.Perm.append_left base (List.perm_append_comm.trans ?_)
    rw [← List.append_assoc]
    exact hperm.symm.append_right _
  · rw [encryptSas_setEncryptSa]
    exact hfresh

/-- A created SA that is stored in the next decrypt rule. -/
theorem Accounted.setDecryptSa {sa : Sa} (h : Accounted cfg answers base e d g)
    (hd : d < g.decryptRules.length)
    (ht : Answered answers (fullOffload cfg .ingressDecrypt) g sa t) :
    Accounted cfg answers base e (d + 1) (setDecryptSa d sa t) := by
  have hsynced := ht.synced
  have hcreated := ht.created
  obtain ⟨trace, outcomes, rfl⟩ := ht.frame
  have hsize : d < (decryptSas g).length := by rwa [decryptSas, List.length_map]
  obtain ⟨hperm, hfresh⟩ := owned_set (!cfg.swAntireplay) hsize h.decryptFresh sa
  refine ⟨hsynced, ?_, h.encryptFresh, ?_⟩
  · rw [decryptSas_setDecryptSa]
    refine (List.Perm.of_eq hcreated).trans ((h.balance.append_right _).trans ?_)
    rw [List.append_assoc base, List.append_assoc]
    refine List.Perm.append_left base (List.Perm.append_left _ ?_)
    exact List.perm_append_comm.trans hperm.symm
  · rw [decryptSas_setDecryptSa]
    exact hfresh

theorem map_modify_same {α β : Type} {p : α → β} {f : α → α} (h : ∀ a, p (f a) = p a)
    (l : List α) (i : Nat) : (l.modify i f).map p = l.map p := by
  induction l generalizing i with
  | nil => simp
  | cons a l ih =>
    cases i with
    | zero => simp [h]
    | succ i => simpa using ih i

/-- A part of the state that neither a library call nor a stored SA changes. -/
structure Lasting {δ : Type} (part : Gateway → δ) : Prop where
  untouched : Untouched part
  encrypt : ∀ i sa g, part (setEncryptSa i sa g) = part g
  decrypt : ∀ i sa g, part (setDecryptSa i sa g) = part g

/-- The accounts, with a part of the state that stays. -/
def Kept {δ : Type} (cfg : Config) (answers : List Outcome) (base : List (Nat × Bool))
    (part : Gateway → δ) (v : δ) (e d : Nat) (g : Gateway) : Prop :=
  Accounted cfg answers base e d g ∧ part g = v

section
variable {δ : Type} {part : Gateway → δ} {v : δ}

theorem Kept.mono {e' d' : Nat} (h : Kept cfg answers base part v e d g) (he : e ≤ e')
    (hd : d ≤ d') : Kept cfg answers base part v e' d' g := ⟨h.1.mono he hd, h.2⟩

variable (hpart : Lasting part)
include hpart

theorem tolerant_kept : Tolerant (Kept cfg answers base part v e d) where
  call g c r hc h :=
    ⟨tolerant_accounted.call g c r hc h.1, (hpart.untouched.tolerant v).call g c r hc h.2⟩
  status g ctx st h :=
    ⟨tolerant_accounted.status g ctx st h.1, (hpart.untouched.tolerant v).status g ctx st h.2⟩

theorem Kept.part_answered {full : Bool} {sa : Sa} (h : Kept cfg answers base part v e d g)
    (ht : Answered answers full g sa t) : part t = v := by
  obtain ⟨trace, outcomes, rfl⟩ := ht.frame
  exact (hpart.untouched.call g _ _).trans h.2

theorem createEncryptSa_settles {attrs : SaAttrs} (hdoc : Documented answers)
    (h : Kept cfg answers base part v e d g) (he : e < g.encryptRules.length)
    (hdirection : attrs.direction = .egressEncrypt) :
    Settles (createIpsecSa cfg attrs (setEncryptSa e)) (Kept cfg answers base part v (e + 1) d)
      g := by
  refine createIpsecSa_settles hdoc h.1.synced (fun t ht => ?_) (fun sa t ht => ?_)
  · exact Kept.mono ⟨h.1.answered ht, h.part_answered hpart ht⟩ (Nat.le_succ e) (Nat.le_refl d)
  · rw [hdirection] at ht
    exact ⟨h.1.setEncryptSa he ht, (hpart.encrypt ..).trans (h.part_answered hpart ht)⟩

theorem createDecryptSa_settles {attrs : SaAttrs} (hdoc : Documented answers)
    (h : Kept cfg answers base part v e d g) (hd : d < g.decryptRules.length)
    (hdirection : attrs.direction = .ingressDecrypt) :
    Settles (createIpsecSa cfg attrs (setDecryptSa d)) (Kept cfg answers base part v e (d + 1))
      g := by
  refine createIpsecSa_settles hdoc h.1.synced (fun t ht => ?_) (fun sa t ht => ?_)
  · exact Kept.mono ⟨h.1.answered ht, h.part_answered hpart ht⟩ (Nat.le_refl e) (Nat.le_succ d)
  · rw [hdirection] at ht
    exact ⟨h.1.setDecryptSa hd ht, (hpart.decrypt ..).trans (h.part_answered hpart ht)⟩

end

/-- What the insertion of the rules of the JSON file leaves alone: how many there are, and the
attributes of their SAs. -/
def plan (g : Gateway) : (Nat × Nat × Nat) × List SaAttrs × List SaAttrs :=
  (counters g, g.encryptRules.map EncryptRule.saAttrs, g.decryptRules.map DecryptRule.saAttrs)

variable {p : (Nat × Nat × Nat) × List SaAttrs × List SaAttrs}

theorem encryptSize_of_plan (h : plan g = p) : g.encryptRules.length = p.2.1.length := by
  rw [← h, plan, List.length_map]

theorem decryptSize_of_plan (h : plan g = p) : g.decryptRules.length = p.2.2.length := by
  rw [← h, plan, List.length_map]

/-- How many rules there are, and the sizes of the two arrays. -/
def shape (g : Gateway) : (Nat × Nat × Nat) × Nat × Nat :=
  (counters g, g.encryptRules.length, g.decryptRules.length)

theorem lasting_shape : Lasting shape where
  untouched := ⟨fun _ _ _ => rfl, fun _ ctx _ => by cases ctx <;> rfl⟩
  encrypt i sa g := by simp [shape, counters, setEncryptSa]
  decrypt i sa g := by simp [shape, counters, setDecryptSa]

/-- What parsing a policy leaves alone. -/
def saView (g : Gateway) :
    (List (LibCall × Option DocaError) × List Outcome) × List Sa × List Sa ×
      (Nat × Nat × Nat) × Nat × Nat :=
  ((g.trace, g.outcomes), encryptSas g, decryptSas g, shape g)

theorem unparsed_saView : Unparsed saView where
  encrypt g slot f hf := by
    have hsas : (g.encryptRules.modify slot f).map EncryptRule.sa = encryptSas g :=
      map_modify_same hf g.encryptRules slot
    simp only [saView, shape, counters, encryptSas, List.length_modify] at hsas ⊢
    rw [hsas]
    rfl
  decrypt g slot f hf := by
    have hsas : (g.decryptRules.modify slot f).map DecryptRule.sa = decryptSas g :=
      map_modify_same hf g.decryptRules slot
    simp only [saView, shape, counters, decryptSas, List.length_modify] at hsas ⊢
    rw [hsas]
    rfl
  table _ _ := rfl

theorem Accounted.parsed (h : Accounted cfg answers base e d g) (ht : saView t = saView g) :
    Accounted cfg answers base e d t := by
  obtain ⟨⟨htrace, houtcomes⟩, hencrypt, hdecrypt, -⟩ :
      (t.trace = g.trace ∧ t.outcomes = g.outcomes) ∧ encryptSas t = encryptSas g ∧
        decryptSas t = decryptSas g ∧ shape t = shape g := by
    simpa only [saView, Prod.mk.injEq] using ht
  refine ⟨?_, ?_, hencrypt ▸ h.encryptFresh, hdecrypt ▸ h.decryptFresh⟩
  · rw [houtcomes, htrace]
    exact h.synced
  · rw [htrace, hencrypt, hdecrypt]
    exact h.balance

/-- Between two policies every SA is in one of the rules that are counted. -/
structure Balanced (cfg : Config) (answers : List Outcome) (base : List (Nat × Bool))
    (g : Gateway) : Prop where
  accounted : Accounted cfg answers base g.nbEncryptedRules g.nbDecryptedRules g
  encryptSize : g.encryptRules.length = maxNbRules
  decryptSize : g.decryptRules.length = maxNbRules

/-- At most one SA is in a rule that is not counted. -/
def AtMostOne (cfg : Config) (answers : List Outcome) (base : List (Nat × Bool)) (g : Gateway) :
    Prop :=
  ∃ e d, Accounted cfg answers base e d g ∧ g.nbEncryptedRules ≤ e ∧ g.nbDecryptedRules ≤ d ∧
    e + d ≤ g.nbEncryptedRules + g.nbDecryptedRules + 1

variable {libs : Libs} {policy : IpsecPolicy}

theorem Balanced.atMostOne (h : Balanced cfg answers base g) : AtMostOne cfg answers base g :=
  ⟨_, _, h.accounted, Nat.le_refl _, Nat.le_refl _, Nat.le_succ _⟩

theorem counts_of_shape (h : shape t = shape g) :
    (t.nbEncryptedRules = g.nbEncryptedRules ∧ t.nbDecryptedRules = g.nbDecryptedRules) ∧
      t.encryptRules.length = g.encryptRules.length ∧
      t.decryptRules.length = g.decryptRules.length := by
  simp only [shape, counters, Prod.mk.injEq] at h
  exact ⟨⟨h.1.1, h.1.2.1⟩, h.2⟩

/-- The slot of an encrypt rule after its policy was parsed. -/
theorem policyEncryptParse_direction {slot : Nat} (hslot : slot < g.encryptRules.length) :
    Ends (policyEncryptParse libs policy slot)
      (fun _ t => saView t = saView g ∧ ∃ rule, t.encryptRules[slot]? = some rule ∧
        rule.saAttrs.direction = .egressEncrypt)
      (fun _ t => saView t = saView g) g := by
  have hself : encryptAt g slot (g.encryptRules[slot]) g.ip6Table = g := by
    simp only [encryptAt, List.set_getElem_self]
  have hparse : Ends (policyEncryptParse libs policy slot) _ _
    (encryptAt g slot (g.encryptRules[slot]) g.ip6Table) := policyEncryptParse_ends
  rw [hself] at hparse
  have hsteady : Steady saView (policyEncryptParse libs policy slot) :=
    steady_policyEncryptParse unparsed_saView policy slot
  refine (Ends.and hparse (hsteady.settles g)).mono ?_ (fun _ _ h => h.2)
  rintro _ t ⟨⟨rule, table, rfl, hstored, -⟩, ht⟩
  refine ⟨ht, rule, ?_, hstored.sa.direction⟩
  simp [encryptAt, hslot]

/-- The slot of a decrypt rule after its policy was parsed. -/
theorem policyDecryptParse_direction {slot : Nat} (hslot : slot < g.decryptRules.length) :
    Ends (policyDecryptParse libs cfg policy slot)
      (fun _ t => saView t = saView g ∧ ∃ rule, t.decryptRules[slot]? = some rule ∧
        rule.saAttrs.direction = .ingressDecrypt)
      (fun _ t => saView t = saView g) g := by
  have hself : decryptAt g slot (g.decryptRules[slot]) = g := by
    simp only [decryptAt, List.set_getElem_self]
  have hparse : Ends (policyDecryptParse libs cfg policy slot) _ _
    (decryptAt g slot (g.decryptRules[slot])) := policyDecryptParse_ends
  rw [hself] at hparse
  have hsteady : Steady saView (policyDecryptParse libs cfg policy slot) :=
    steady_policyDecryptParse unparsed_saView policy slot
  refine (Ends.and hparse (hsteady.settles g)).mono ?_ (fun _ _ h => h.2)
  rintro _ t ⟨⟨rule, rfl, hstored, -⟩, ht⟩
  refine ⟨ht, rule, ?_, hstored.sa.direction⟩
  simp [decryptAt, hslot]

/-- The accounts of the policies, with the counters as they were before the current one. -/
abbrev Shaped (cfg : Config) (answers : List Outcome) (base : List (Nat × Bool)) (g : Gateway) :
    Nat → Nat → Gateway → Prop := Kept cfg answers base shape (shape g)

theorem Shaped.atMostOne {e d : Nat} (ht : Shaped cfg answers base g e d t)
    (he : g.nbEncryptedRules ≤ e) (hd : g.nbDecryptedRules ≤ d)
    (hsum : e + d ≤ g.nbEncryptedRules + g.nbDecryptedRules + 1) :
    AtMostOne cfg answers base t := by
  obtain ⟨⟨hne, hnd⟩, -⟩ := counts_of_shape ht.2
  exact ⟨e, d, ht.1, hne ▸ he, hnd ▸ hd, by rwa [hne, hnd]⟩

/-- A policy parsed into the next encrypt rule, whose SA is created and whose entries are
added. -/
theorem handleEncryptPolicy_ends (hdoc : Documented answers) (h : Balanced cfg answers base g)
    (hroom : g.nbEncryptedRules < maxNbRules) :
    Ends (handleEncryptPolicy libs cfg policy g.nbEncryptedRules)
      (fun _ => Balanced cfg answers base) (fun _ => AtMostOne cfg answers base) g := by
  have hslot : g.nbEncryptedRules < g.encryptRules.length := h.encryptSize.symm ▸ hroom
  have hsame : ∀ {t}, saView t = saView g →
      Shaped cfg answers base g g.nbEncryptedRules g.nbDecryptedRules t := by
    intro t ht
    refine ⟨h.accounted.parsed ht, ?_⟩
    exact (Prod.mk.inj (Prod.mk.inj (Prod.mk.inj ht).2).2).2
  have hone : ∀ {t}, Shaped cfg answers base g (g.nbEncryptedRules + 1) g.nbDecryptedRules t →
      AtMostOne cfg answers base t :=
    fun ht => Shaped.atMostOne ht (Nat.le_succ _) (Nat.le_refl _) (by omega)
  unfold handleEncryptPolicy
  refine Ends.bind ((policyEncryptParse_direction hslot).mono (fun _ _ ht => ht) fun _ t ht =>
    Shaped.atMostOne (hsame ht) (Nat.le_refl _) (Nat.le_refl _) (Nat.le_succ _)) ?_
  rintro _ t ⟨ht, rule, hrule, hdirection⟩
  rw [ends_bind, ends_get, slotOf, hrule, ends_bind, ends_pure]
  have hsize : g.nbEncryptedRules < t.encryptRules.length := by
    rw [(counts_of_shape (hsame ht).2).2.1]
    exact hslot
  have hcreate := createEncryptSa_settles lasting_shape hdoc (hsame ht) hsize hdirection
  refine Ends.bind (Ends.mono hcreate (fun _ _ hu => hu) (fun _ _ hu => hone hu)) ?_
  intro sa u hu
  have hadd : Maintains (Shaped cfg answers base g (g.nbEncryptedRules + 1) g.nbDecryptedRules)
      (addEncryptEntry cfg { rule with sa } u.nbRules) :=
    maintains_addEncryptEntry (tolerant_kept lasting_shape) ..
  rw [ends_bind, ends_get]
  refine Ends.bind (Ends.mono (hadd.settles u hu) (fun _ _ hw => hw) (fun _ _ hw => hone hw)) ?_
  intro _ w hw
  rw [ends_modify]
  obtain ⟨⟨hne, hnd⟩, hencrypt, hdecrypt⟩ := counts_of_shape hw.2
  refine ⟨?_, hencrypt.trans h.encryptSize, hdecrypt.trans h.decryptSize⟩
  have haccounted := hw.1
  rw [← hne, ← hnd] at haccounted
  exact ⟨haccounted.synced, haccounted.balance, haccounted.encryptFresh, haccounted.decryptFresh⟩

/-- The same for a decrypt policy. -/
theorem handleDecryptPolicy_ends (hdoc : Documented answers) (h : Balanced cfg answers base g)
    (hroom : g.nbDecryptedRules < maxNbRules) :
    Ends (handleDecryptPolicy libs cfg policy g.nbDecryptedRules)
      (fun _ => Balanced cfg answers base) (fun _ => AtMostOne cfg answers base) g := by
  have hslot : g.nbDecryptedRules < g.decryptRules.length := h.decryptSize.symm ▸ hroom
  have hsame : ∀ {t}, saView t = saView g →
      Shaped cfg answers base g g.nbEncryptedRules g.nbDecryptedRules t := by
    intro t ht
    refine ⟨h.accounted.parsed ht, ?_⟩
    exact (Prod.mk.inj (Prod.mk.inj (Prod.mk.inj ht).2).2).2
  have hone : ∀ {t}, Shaped cfg answers base g g.nbEncryptedRules (g.nbDecryptedRules + 1) t →
      AtMostOne cfg answers base t :=
    fun ht => Shaped.atMostOne ht (Nat.le_refl _) (Nat.le_succ _) (by omega)
  unfold handleDecryptPolicy
  refine Ends.bind ((policyDecryptParse_direction hslot).mono (fun _ _ ht => ht) fun _ t ht =>
    Shaped.atMostOne (hsame ht) (Nat.le_refl _) (Nat.le_refl _) (Nat.le_succ _)) ?_
  rintro _ t ⟨ht, rule, hrule, hdirection⟩
  rw [ends_bind, ends_get, slotOf, hrule, ends_bind, ends_pure, ends_bind, ends_get]
  have hsize : g.nbDecryptedRules < t.decryptRules.length := by
    rw [(counts_of_shape (hsame ht).2).2.2]
    exact hslot
  have hcreate := createDecryptSa_settles lasting_shape hdoc (hsame ht) hsize hdirection
  have hadd : ∀ sa n, Maintains
      (Shaped cfg answers base g g.nbEncryptedRules (g.nbDecryptedRules + 1))
      (addDecryptEntry cfg { rule with sa } n) :=
    fun sa n => maintains_addDecryptEntry (tolerant_kept lasting_shape) ..
  have hinstall : Settles (installDecryptRule cfg rule g.nbDecryptedRules t.nbRules)
      (Shaped cfg answers base g g.nbEncryptedRules (g.nbDecryptedRules + 1)) t :=
    hcreate.bind (fun sa u hu => (hadd sa _).settles u hu) (fun _ hu => hu)
  refine Ends.bind (Ends.mono hinstall (fun _ _ hw => hw) (fun _ _ hw => hone hw)) ?_
  intro _ w hw
  rw [ends_modify]
  obtain ⟨⟨hne, hnd⟩, hencrypt, hdecrypt⟩ := counts_of_shape hw.2
  refine ⟨?_, hencrypt.trans h.encryptSize, hdecrypt.trans h.decryptSize⟩
  have haccounted := hw.1
  rw [← hne, ← hnd] at haccounted
  exact ⟨haccounted.synced, haccounted.balance, haccounted.encryptFresh, haccounted.decryptFresh⟩

section application
variable {app : App} {inv : App → Prop}

section
variable (hinv : ∀ app steps, inv app → inv { app with steps })
include hinv

end

/-- The dummy SAs. -/
def dummies (cfg : Config) (app : App) : List (Nat × Bool) :=
  owned (!cfg.swSnIncEnable) [app.dummyEncryptSa] ++ owned (!cfg.swAntireplay) [app.dummyDecryptSa]

/-- The accounts of the application while it inserts the rules of the JSON file; `decryptSa` is
the dummy SA of the other direction. -/
structure Inserting (cfg : Config) (answers : List Outcome)
    (p : (Nat × Nat × Nat) × List SaAttrs × List SaAttrs) (e d : Nat) (app : App) : Prop where
  kept : Kept cfg answers (dummies cfg app) plan p e d app.gateway
  destroys : app.destroys = []

theorem Inserting.mono {e' d' : Nat} (h : Inserting cfg answers p e d app) (he : e ≤ e')
    (hd : d ≤ d') : Inserting cfg answers p e' d' app := ⟨h.kept.mono he hd, h.destroys⟩

/-- The rules of the JSON file have SAs of their direction and fit into the arrays. -/
structure Parsed (p : (Nat × Nat × Nat) × List SaAttrs × List SaAttrs) : Prop where
  encrypt : ∀ a ∈ p.2.1.take p.1.1, a.direction = .egressEncrypt
  decrypt : ∀ a ∈ p.2.2.take p.1.2.1, a.direction = .ingressDecrypt
  encryptSize : p.2.1.length = maxNbRules
  decryptSize : p.2.2.length = maxNbRules

/-- The accounts once all rules of the JSON file are inserted. -/
structure Running (cfg : Config) (answers : List Outcome) (app : App) : Prop where
  balanced : Balanced cfg answers (dummies cfg app) app.gateway
  destroys : app.destroys = []

/-- The accounts when the clean-up begins. -/
structure Stopped (cfg : Config) (answers : List Outcome) (app : App) : Prop where
  atMostOne : AtMostOne cfg answers (dummies cfg app) app.gateway
  destroys : app.destroys = []

theorem Running.stopped (h : Running cfg answers app) : Stopped cfg answers app :=
  ⟨h.balanced.atMostOne, h.destroys⟩

theorem Inserting.running (hp : Parsed p) (h : Inserting cfg answers p p.1.1 p.1.2.1 app) :
    Running cfg answers app := by
  have hplan : plan app.gateway = p := h.kept.2
  have hencrypt : app.gateway.nbEncryptedRules = p.1.1 := by rw [← hplan, plan, counters]
  have hdecrypt : app.gateway.nbDecryptedRules = p.1.2.1 := by rw [← hplan, plan, counters]
  refine ⟨⟨?_, (encryptSize_of_plan hplan).trans hp.encryptSize,
    (decryptSize_of_plan hplan).trans hp.decryptSize⟩, h.destroys⟩
  rw [hencrypt, hdecrypt]
  exact h.kept.1

/-- Where the gateway stops: only a policy can leave an SA in a rule that is not counted. -/
def Ended (cfg : Config) (answers : List Outcome) (socketConf : Bool) (app : App) : Prop :=
  Stopped cfg answers app ∧ (socketConf = false → Running cfg answers app)

theorem Running.ended {socketConf : Bool} (h : Running cfg answers app) :
    Ended cfg answers socketConf app := ⟨h.stopped, fun _ => h⟩

theorem Running.steps (app : App) (steps : List (Option DocaError)) (h : Running cfg answers app) :
    Running cfg answers { app with steps } := ⟨h.balanced, h.destroys⟩

/-- The gateway when its DOCA Flow ports run: no SA yet, and the rules of the JSON file, if any,
in the arrays. -/
structure Loaded (app : App) : Prop where
  trace : app.gateway.trace = []
  encryptFresh : ∀ sa ∈ encryptSas app.gateway, sa = none
  decryptFresh : ∀ sa ∈ decryptSas app.gateway, sa = none
  dummyEncrypt : app.dummyEncryptSa = none
  dummyDecrypt : app.dummyDecryptSa = none
  destroys : app.destroys = []
  parsed : Parsed (plan app.gateway)

/-- The clean-up has asked for the destruction of these SAs. -/
structure Destroyed (app : App) (sas : List (Nat × Bool)) (t : App) : Prop where
  gateway : t.gateway = app.gateway
  destroys : t.destroys = app.destroys ++ sas

theorem Destroyed.trans {t u : App} {sas sas' : List (Nat × Bool)} (h : Destroyed app sas t)
    (hu : Destroyed t sas' u) : Destroyed app (sas ++ sas') u := by
  refine ⟨hu.gateway.trans h.gateway, ?_⟩
  rw [hu.destroys, h.destroys, List.append_assoc]

/-- What the clean-up destroys. -/
def released (cfg : Config) (app : App) : List (Nat × Bool) :=
  dummies cfg app ++
    (owned (!cfg.swSnIncEnable) ((encryptSas app.gateway).take app.gateway.nbEncryptedRules) ++
      owned (!cfg.swAntireplay) ((decryptSas app.gateway).take app.gateway.nbDecryptedRules))

/-- The rules that are not counted. -/
def uncounted (cfg : Config) (g : Gateway) : List (Nat × Bool) :=
  owned (!cfg.swSnIncEnable) ((encryptSas g).drop g.nbEncryptedRules) ++
    owned (!cfg.swAntireplay) ((decryptSas g).drop g.nbDecryptedRules)

theorem Accounted.released (h : Accounted cfg answers (dummies cfg app) e d app.gateway) :
    (SaRelease.created answers app.gateway.trace).Perm
      (SaRelease.released cfg app ++ uncounted cfg app.gateway) := by
  have hsplit : ∀ full (sas : List Sa) n,
      owned full sas = owned full (sas.take n) ++ owned full (sas.drop n) := by
    intro full sas n
    rw [← owned_append, List.take_append_drop]
  refine h.balance.trans ?_
  rw [hsplit _ (encryptSas app.gateway) app.gateway.nbEncryptedRules,
    hsplit _ (decryptSas app.gateway) app.gateway.nbDecryptedRules]
  simp only [SaRelease.released, uncounted, List.append_assoc]
  exact List.Perm.append_left _ (List.Perm.append_left _ (List.perm_append_comm_assoc ..))

end application

end DocaApps.Proofs.SaRelease
