import DocaApps.Ipsec.Policy
import DocaApps.Proofs.FlowEncrypt
import DocaApps.Proofs.FlowDecrypt
import DocaApps.Proofs.Classification

namespace DocaApps.Proofs.PolicyRun
open Lib.Command Lib.Endings Ipsec.Rules Ipsec.Encap Ipsec.FlowCommon Ipsec.FlowEncrypt Ipsec.FlowDecrypt
open Ipsec.Config Ipsec.Policy Ipsec.PolicySocket Proofs.FlowCommon Proofs.FlowEncrypt

/-- The index that software reads back from the metadata an entry stamps. The two
marks are bits 30 and 31; an entry with neither stamps no index. -/
def stampedIdx (e : Entry) : Option (BitVec 32) :=
  match e.actions with
  | none => none
  | some a =>
    if a.pktMeta.getLsbD 30 = true then some (unsecuredRuleIdx a.pktMeta)
    else if a.pktMeta.getLsbD 31 = true then some (securedRuleIdx a.pktMeta)
    else none

/-- The entries that the step from `g` to `t` added stamp the index of the slot, and
the slot is one of the array. -/
def StepAgrees (g t : Gateway) (slot : Nat) : Prop :=
  ∀ e ∈ t.table.drop g.table.length, ∀ idx, stampedIdx e = some idx →
    idx.toNat = slot ∧ slot < maxNbRules

inductive Direction where
  | encrypt | decrypt
  deriving DecidableEq, Repr

def direction (policy : IpsecPolicy) : Option Direction :=
  if policy.policyDirection = policyDirOut then some .encrypt
  else if policy.policyDirection = policyDirIn then some .decrypt
  else none

/-- The slot the next rule of a direction goes to. -/
def nextSlot (g : Gateway) : Direction → Nat
  | .encrypt => g.nbEncryptedRules
  | .decrypt => g.nbDecryptedRules

/-- Along the run of the policies from `g`, every policy that installs a rule stamps
the index of the slot it stores the rule in. -/
def IndexAgreement (libs : Libs) (cfg : Config) (g : Gateway) (policies : List IpsecPolicy) :
    Prop :=
  ∀ before policy after, policies = before ++ policy :: after →
    ∀ mid next, handlePolicies libs cfg before g = .ok () mid →
      handlePolicy libs cfg policy mid = .ok () next →
        ∀ d, direction policy = some d → StepAgrees mid next (nextSlot mid d)

/-- A decrypt policy has its index stamped. -/
def DecryptStamped (cfg : Config) : Prop :=
  cfg.flowMode = .switch ∨ cfg.offload = .none ∨ cfg.offload = .encap

instance (cfg : Config) : Decidable (DecryptStamped cfg) :=
  inferInstanceAs (Decidable (_ ∨ _ ∨ _))

/-- No decrypt policy comes before an encrypt one, and none after one either when
decrypt indices are stamped. -/
def Separated (cfg : Config) (policies : List IpsecPolicy) : Prop :=
  (policies.filterMap direction).Pairwise fun a b =>
    a = b ∨ (a = .encrypt ∧ b = .decrypt ∧ ¬ DecryptStamped cfg)

def counters (g : Gateway) : Nat × Nat × Nat :=
  (g.nbEncryptedRules, g.nbDecryptedRules, g.nbRules)

theorem untouched_counters : Untouched counters :=
  ⟨fun _ _ _ => rfl, fun _ ctx _ => by cases ctx <;> rfl⟩

/-- A part of the state that parsing does not reach: it fills rules but not their SAs. -/
structure Unparsed {δ : Type} (part : Gateway → δ) : Prop where
  encrypt : ∀ g slot f, (∀ r, (f r).sa = r.sa) →
    part { g with encryptRules := g.encryptRules.modify slot f } = part g
  decrypt : ∀ g slot f, (∀ r, (f r).sa = r.sa) →
    part { g with decryptRules := g.decryptRules.modify slot f } = part g
  table : ∀ g ip6Table, part { g with ip6Table } = part g

variable {libs : Libs} {cfg : Config} {policy : IpsecPolicy} {g t : Gateway} {slot : Nat}

section
variable {δ : Type} {part : Gateway → δ} (hpart : Unparsed part)

theorem steady_parseIpv4Str (text : List Common.Pack.Byte) :
    Steady part (parseIpv4Str libs text) := by
  unfold parseIpv4Str
  cases libs.inetPton4 text with
  | none => exact Steady.throw _
  | some ip => exact Steady.pure ip

theorem steady_parseIpv6Str (text : List Common.Pack.Byte) :
    Steady part (parseIpv6Str libs text) := by
  unfold parseIpv6Str
  cases libs.inetPton6 text with
  | none => exact Steady.throw _
  | some ip => exact Steady.pure ip

theorem steady_parseSaAttrs (policy : IpsecPolicy) (d : SaDirection) :
    Steady part (parseSaAttrs policy d) := by
  unfold parseSaAttrs
  cases convertToDocaIcv policy.icvLength with
  | error e => exact Steady.throw e
  | ok icv => exact Steady.pure _

include hpart

theorem steady_setEncryptRule (slot : Nat) {f : EncryptRule → EncryptRule}
    (hf : ∀ r, (f r).sa = r.sa) : Steady part (setEncryptRule slot f) :=
  Steady.modify (fun g => hpart.encrypt g slot f hf)

theorem steady_setDecryptRule (slot : Nat) {f : DecryptRule → DecryptRule}
    (hf : ∀ r, (f r).sa = r.sa) : Steady part (setDecryptRule slot f) :=
  Steady.modify (fun g => hpart.decrypt g slot f hf)

theorem steady_addToIp6Table (ip : Ip6Addr) : Steady part (addToIp6Table libs ip) := by
  refine Steady.bind Steady.get (fun g => ?_)
  dsimp only
  cases g.ip6Table.lookup ip with
  | some _ => exact Steady.pure ()
  | none =>
    cases libs.hashPosition g.ip6Table ip with
    | none => exact Steady.throw _
    | some _ => exact Steady.modify (fun g => hpart.table g _)

theorem steady_policyEncryptParse (policy : IpsecPolicy) (slot : Nat) :
    Steady part (policyEncryptParse libs policy slot) := by
  have hinner : Steady part (parseInnerAddresses libs policy slot) := by
    refine Steady.ite ?_ ?_
    · refine Steady.bind (steady_parseIpv4Str _) (fun _ => ?_)
      refine Steady.bind (steady_setEncryptRule hpart _ (fun _ => rfl)) (fun _ => ?_)
      exact Steady.bind (steady_parseIpv4Str _) (fun _ => steady_setEncryptRule hpart _ (fun _ => rfl))
    · refine Steady.bind (steady_parseIpv6Str _) (fun _ => ?_)
      refine Steady.bind (steady_setEncryptRule hpart _ (fun _ => rfl)) (fun _ => ?_)
      refine Steady.bind (steady_addToIp6Table hpart _) (fun _ => ?_)
      refine Steady.bind (steady_parseIpv6Str _) (fun _ => ?_)
      exact Steady.bind (steady_setEncryptRule hpart _ (fun _ => rfl)) (fun _ => steady_addToIp6Table hpart _)
  have houter : Steady part (parseEncap libs policy slot) := by
    refine Steady.ite (Steady.bind (steady_setEncryptRule hpart _ (fun _ => rfl)) (fun _ => ?_)) (Steady.pure _)
    refine Steady.ite ?_ ?_
    · exact Steady.bind (steady_parseIpv4Str _) (fun _ => steady_setEncryptRule hpart _ (fun _ => rfl))
    · exact Steady.bind (steady_parseIpv6Str _) (fun _ => steady_setEncryptRule hpart _ (fun _ => rfl))
  refine Steady.bind (steady_setEncryptRule hpart _ (fun _ => rfl)) (fun _ => Steady.bind hinner (fun _ => ?_))
  refine Steady.bind houter (fun _ => Steady.bind (steady_parseSaAttrs ..) (fun _ => ?_))
  exact steady_setEncryptRule hpart _ (fun _ => rfl)

theorem steady_policyDecryptParse (policy : IpsecPolicy) (slot : Nat) :
    Steady part (policyDecryptParse libs cfg policy slot) := by
  have hdst : ∀ l3Type dstIp, Steady part (parseDstAddress libs l3Type dstIp slot) := by
    intro l3Type dstIp
    refine Steady.ite ?_ ?_
    · exact Steady.bind (steady_parseIpv4Str _) (fun _ => steady_setDecryptRule hpart _ (fun _ => rfl))
    · exact Steady.bind (steady_parseIpv6Str _) (fun _ => steady_setDecryptRule hpart _ (fun _ => rfl))
  refine Steady.bind (steady_setDecryptRule hpart _ (fun _ => rfl)) (fun _ => Steady.bind (hdst _ _) (fun _ => ?_))
  refine Steady.bind (steady_setDecryptRule hpart _ (fun _ => rfl)) (fun _ => ?_)
  exact Steady.bind (steady_parseSaAttrs ..) (fun _ => steady_setDecryptRule hpart _ (fun _ => rfl))

end

/-- What a step that only parses leaves alone. -/
def parseView (g : Gateway) : List Entry × Nat × Nat × Nat := (g.table, counters g)

theorem unparsed_parseView : Unparsed parseView :=
  ⟨fun _ _ _ _ => rfl, fun _ _ _ _ => rfl, fun _ _ => rfl⟩

theorem steady_slotOf {α δ : Type} {part : Gateway → δ} (rules : List α) (slot : Nat) :
    Steady part (slotOf rules slot) := by
  unfold slotOf
  cases rules[slot]? with
  | none => exact Steady.throw _
  | some r => exact Steady.pure r

theorem counters_setEncryptSa (slot : Nat) (sa : Sa) (g : Gateway) :
    counters (setEncryptSa slot sa g) = counters g := rfl

theorem counters_setDecryptSa (slot : Nat) (sa : Sa) (g : Gateway) :
    counters (setDecryptSa slot sa g) = counters g := rfl

/-- An encrypt policy that is accepted adds the rows of its rule, stamped with the
total number of rules. -/
theorem handleEncryptPolicy_spec (h : handleEncryptPolicy libs cfg policy slot g = .ok () t) :
    (∃ rule table, t.table = g.table ++
      (classifierRows table rule g.nbRules ++ [encryptRow cfg rule g.nbRules .zero])) ∧
    counters t = (g.nbEncryptedRules + 1, g.nbDecryptedRules, g.nbRules + 1) := by
  obtain ⟨_, g1, h1, r1⟩ := bind_eq_ok.mp h
  obtain ⟨_, g2, h2, r2⟩ := bind_eq_ok.mp r1
  cases h2
  obtain ⟨rule, g3, h3, r3⟩ := bind_eq_ok.mp r2
  obtain ⟨sa, g4, h4, r4⟩ := bind_eq_ok.mp r3
  obtain ⟨_, g5, h5, r5⟩ := bind_eq_ok.mp r4
  cases h5
  obtain ⟨_, g6, h6, r6⟩ := bind_eq_ok.mp r5
  cases r6
  have hview : parseView g3 = parseView g :=
    ((steady_slotOf _ _).run h3).trans ((steady_policyEncryptParse unparsed_parseView policy slot).run h1)
  obtain ⟨ht3, hc3⟩ := Prod.mk.inj hview
  have hc4 : counters g4 = counters g := ((steady_createIpsecSa untouched_counters cfg _
    (counters_setEncryptSa slot)).run h4).trans hc3
  have ht4 := (logs_createIpsecSa cfg _ (table_setEncryptSa slot)).run h4
  have hc6 : counters g6 = counters g :=
    ((steady_addEncryptEntry untouched_counters cfg _ _).run h6).trans hc4
  have ht6 := logs_addEncryptEntry cfg _ _ h6
  obtain ⟨he6, hd6, hn6⟩ : g6.nbEncryptedRules = g.nbEncryptedRules ∧
      g6.nbDecryptedRules = g.nbDecryptedRules ∧ g6.nbRules = g.nbRules := by
    simpa [counters] using hc6
  have hn4 : g4.nbRules = g.nbRules := (Prod.mk.inj (Prod.mk.inj hc4).2).2
  rw [ht4, ht3, hn4, List.append_nil] at ht6
  refine ⟨⟨_, _, ht6⟩, ?_⟩
  simp only [counters, he6, hd6, hn6]

/-- A decrypt policy that is accepted adds one row. -/
theorem handleDecryptPolicy_spec (h : handleDecryptPolicy libs cfg policy slot g = .ok () t) :
    (∃ rule, t.table = g.table ++ [FlowDecrypt.policyRow cfg g.nbRules rule]) ∧
    counters t = (g.nbEncryptedRules, g.nbDecryptedRules + 1, g.nbRules + 1) := by
  obtain ⟨_, g1, h1, r1⟩ := bind_eq_ok.mp h
  obtain ⟨_, g2, h2, r2⟩ := bind_eq_ok.mp r1
  cases h2
  obtain ⟨rule, g3, h3, r3⟩ := bind_eq_ok.mp r2
  obtain ⟨_, g4, h4, r4⟩ := bind_eq_ok.mp r3
  cases h4
  obtain ⟨_, g5, h5, r5⟩ := bind_eq_ok.mp r4
  cases r5
  have hview : parseView g3 = parseView g :=
    ((steady_slotOf _ _).run h3).trans ((steady_policyDecryptParse unparsed_parseView policy slot).run h1)
  obtain ⟨ht3, hc3⟩ := Prod.mk.inj hview
  have ht5 := (FlowDecrypt.logs_installDecryptRule cfg rule slot g3.nbRules).run h5
  have hc5 : counters g5 = counters g := by
    obtain ⟨sa, g6, h6, h7⟩ := bind_eq_ok.mp h5
    exact ((FlowDecrypt.steady_addDecryptEntry untouched_counters cfg _ _).run h7).trans
      (((steady_createIpsecSa untouched_counters cfg _ (counters_setDecryptSa slot)).run h6).trans
        hc3)
  obtain ⟨he5, hd5, hn5⟩ : g5.nbEncryptedRules = g.nbEncryptedRules ∧
      g5.nbDecryptedRules = g.nbDecryptedRules ∧ g5.nbRules = g.nbRules := by
    simpa [counters] using hc5
  have hn3 : g3.nbRules = g.nbRules := (Prod.mk.inj (Prod.mk.inj hc3).2).2
  rw [ht3, hn3] at ht5
  refine ⟨⟨rule, ht5⟩, ?_⟩
  simp only [counters, he5, hd5, hn5]

theorem stampedIdx_of_zero {e : Entry} {a : Actions} (ha : e.actions = some a)
    (hz : a.pktMeta = 0#32) : stampedIdx e = none := by
  simp [stampedIdx, ha, hz]

theorem stampedIdx_srcIp6Row (rule : EncryptRule) (id : BitVec 32) :
    stampedIdx (srcIp6Row rule id) = none := stampedIdx_of_zero rfl rfl

theorem stampedIdx_encryptRow (cfg : Config) (rule : EncryptRule) (i : Nat) :
    stampedIdx (encryptRow cfg rule i .zero) = none := by
  apply stampedIdx_of_zero rfl
  unfold encryptActions
  cases cfg.mode <;> rfl

theorem stampedIdx_fiveTupleRow (rule : EncryptRule) (i : Nat) (id : BitVec 32) :
    stampedIdx (fiveTupleRow rule i id) = some (unsecuredRuleIdx (encryptMeta i)) := by
  have hmark : (encryptMeta i).getLsbD 30 = true := by
    rw [encryptMeta, BitVec.getLsbD_or]
    rfl
  simp only [stampedIdx, fiveTupleRow, hmark, ↓reduceIte]

theorem low_bits {i j : Nat} (hi : i < 2 ^ 30) (hj : 30 ≤ j) :
    (BitVec.ofNat 32 i).getLsbD j = false := by
  have hpow : i < 2 ^ j := Nat.lt_of_lt_of_le hi (Nat.pow_le_pow_right (by omega) hj)
  rw [BitVec.getLsbD_ofNat, Nat.testBit_lt_two_pow hpow, Bool.and_false]

theorem decryptMeta_index {i : Nat} (hi : i < 2 ^ 30) :
    (securedRuleIdx (decryptMeta i)).toNat = i := by
  have hmask : ∀ j < 32, ((1#32 <<< 30) - 1#32).getLsbD j = decide (j < 30) := by
    decide
  have hidx : securedRuleIdx (decryptMeta i) = BitVec.ofNat 32 i := by
    apply BitVec.eq_of_getLsbD_eq
    intro j hj
    have hbit : (1#32 <<< 31).getLsbD j = decide (j = 31) := by
      rw [← BitVec.twoPow_eq, BitVec.getLsbD_twoPow]
      simp [eq_comm]
    simp only [securedRuleIdx, decryptMeta, BitVec.getLsbD_and, BitVec.getLsbD_or, hmask j hj,
      hbit]
    by_cases hlow : j < 30
    · have hne : j ≠ 31 := by omega
      simp only [hlow, hne, decide_true, decide_false, Bool.false_or, Bool.and_true]
    · rw [low_bits hi (by omega)]
      simp [hlow]
  rw [hidx, BitVec.toNat_ofNat]
  omega

theorem stampedIdx_policyRow (rule : DecryptRule) {i : Nat} (hi : i < 2 ^ 30) :
    stampedIdx (FlowDecrypt.policyRow cfg i rule) =
      if DecryptStamped cfg then some (securedRuleIdx (decryptMeta i)) else none := by
  by_cases hs : DecryptStamped cfg
  · have hact : (policyActions cfg i).pktMeta = decryptMeta i :=
      congrArg Actions.pktMeta (if_pos hs)
    have h30 : (decryptMeta i).getLsbD 30 = false := by
      rw [decryptMeta, BitVec.getLsbD_or, low_bits hi (by omega)]
      rfl
    have h31 : (decryptMeta i).getLsbD 31 = true := by
      rw [decryptMeta, BitVec.getLsbD_or]
      rfl
    simp only [stampedIdx, FlowDecrypt.policyRow, hact, h30, h31, hs, ↓reduceIte,
      Bool.false_eq_true]
  · have hact : (policyActions cfg i).pktMeta = 0#32 := congrArg Actions.pktMeta (if_neg hs)
    rw [if_neg hs]
    exact stampedIdx_of_zero rfl hact

theorem stepAgrees_encrypt {rule : EncryptRule} {table : List (Ip6Addr × Nat)}
    (hn : g.nbRules < 2 ^ 30) (ht : t.table = g.table ++
      (classifierRows table rule g.nbRules ++ [encryptRow cfg rule g.nbRules .zero])) :
    StepAgrees g t slot ↔ g.nbRules = slot ∧ slot < maxNbRules := by
  unfold StepAgrees
  rw [ht, List.drop_left]
  constructor
  · intro h
    have hrow := h (fiveTupleRow rule g.nbRules (stageId table rule)) (by simp [classifierRows]) _
      (stampedIdx_fiveTupleRow ..)
    rwa [Classification.encryptMeta_index hn] at hrow
  · intro h e he idx hidx
    rcases List.mem_append.mp he with he | he
    · rcases List.mem_append.mp he with he | he
      · unfold firstStageRows at he
        split at he
        · obtain rfl := List.mem_singleton.mp he
          rw [stampedIdx_srcIp6Row] at hidx
          cases hidx
        · cases he
      · obtain rfl := List.mem_singleton.mp he
        rw [stampedIdx_fiveTupleRow] at hidx
        cases hidx
        rwa [Classification.encryptMeta_index hn]
    · obtain rfl := List.mem_singleton.mp he
      rw [stampedIdx_encryptRow] at hidx
      cases hidx

theorem stepAgrees_decrypt {rule : DecryptRule} (hn : g.nbRules < 2 ^ 30)
    (ht : t.table = g.table ++ [FlowDecrypt.policyRow cfg g.nbRules rule]) :
    StepAgrees g t slot ↔ (DecryptStamped cfg → g.nbRules = slot ∧ slot < maxNbRules) := by
  unfold StepAgrees
  rw [ht, List.drop_left]
  simp only [List.mem_singleton, forall_eq, stampedIdx_policyRow rule hn]
  by_cases hs : DecryptStamped cfg
  · simp [hs, decryptMeta_index hn]
  · simp [hs]

/-- The counters of a gateway that has only seen policies. -/
structure Counted (g : Gateway) : Prop where
  total : g.nbRules = g.nbEncryptedRules + g.nbDecryptedRules
  encrypted : g.nbEncryptedRules ≤ maxNbRules
  decrypted : g.nbDecryptedRules ≤ maxNbRules

/-- What one accepted policy does to the counters, and when its stamp is right. -/
inductive PolicyStep (cfg : Config) (g t : Gateway) : Option Direction → Prop where
  | other (h : t = g) : PolicyStep cfg g t none
  | encrypt (hc : counters t = (g.nbEncryptedRules + 1, g.nbDecryptedRules, g.nbRules + 1))
      (hlt : g.nbEncryptedRules < maxNbRules)
      (ha : StepAgrees g t g.nbEncryptedRules ↔ g.nbDecryptedRules = 0) :
      PolicyStep cfg g t (some .encrypt)
  | decrypt (hc : counters t = (g.nbEncryptedRules, g.nbDecryptedRules + 1, g.nbRules + 1))
      (hlt : g.nbDecryptedRules < maxNbRules)
      (ha : StepAgrees g t g.nbDecryptedRules ↔ (DecryptStamped cfg → g.nbEncryptedRules = 0)) :
      PolicyStep cfg g t (some .decrypt)

theorem handlePolicy_step (hg : Counted g) (h : handlePolicy libs cfg policy g = .ok () t) :
    PolicyStep cfg g t (direction policy) := by
  obtain ⟨htotal, henc, hdec⟩ := hg
  have hn : g.nbRules < 2 ^ 30 := by
    unfold maxNbRules at henc hdec
    omega
  obtain ⟨_, g', hget, h⟩ := bind_eq_ok.mp h
  cases hget
  unfold direction
  by_cases hout : policy.policyDirection = policyDirOut
  · rw [if_pos hout] at h ⊢
    split at h
    · cases h
    · rename_i hlt
      obtain ⟨⟨rule, table, ht⟩, hc⟩ := handleEncryptPolicy_spec h
      refine .encrypt hc (Nat.lt_of_not_le hlt) ?_
      rw [stepAgrees_encrypt hn ht]
      omega
  · rw [if_neg hout] at h ⊢
    by_cases hin : policy.policyDirection = policyDirIn
    · rw [if_pos hin] at h ⊢
      split at h
      · cases h
      · rename_i hlt
        obtain ⟨⟨rule, ht⟩, hc⟩ := handleDecryptPolicy_spec h
        refine .decrypt hc (Nat.lt_of_not_le hlt) ?_
        rw [stepAgrees_decrypt hn ht]
        refine imp_congr_right (fun _ => ?_)
        omega
    · rw [if_neg hin] at h ⊢
      cases h
      exact .other rfl

theorem PolicyStep.counted {d : Option Direction} (h : PolicyStep cfg g t d) (hg : Counted g) :
    Counted t := by
  obtain ⟨htotal, henc, hdec⟩ := hg
  cases h with
  | other h => exact h ▸ ⟨htotal, henc, hdec⟩
  | encrypt hc hlt _ =>
    obtain ⟨he, hd, hn⟩ : t.nbEncryptedRules = _ ∧ t.nbDecryptedRules = _ ∧ t.nbRules = _ := by
      simpa [counters] using hc
    exact ⟨by omega, by omega, by omega⟩
  | decrypt hc hlt _ =>
    obtain ⟨he, hd, hn⟩ : t.nbEncryptedRules = _ ∧ t.nbDecryptedRules = _ ∧ t.nbRules = _ := by
      simpa [counters] using hc
    exact ⟨by omega, by omega, by omega⟩

/-- The agreement of a run is that of its first step and of the rest. -/
theorem indexAgreement_cons {policies : List IpsecPolicy}
    (h : handlePolicy libs cfg policy g = .ok () t) :
    IndexAgreement libs cfg g (policy :: policies) ↔
      (∀ d, direction policy = some d → StepAgrees g t (nextSlot g d)) ∧
        IndexAgreement libs cfg t policies := by
  constructor
  · intro hall
    refine ⟨hall [] policy policies rfl g t rfl h, ?_⟩
    rintro before p after rfl mid next hbefore hp d hd
    exact hall (policy :: before) p after rfl mid next (bind_eq_ok.mpr ⟨(), t, h, hbefore⟩) hp d hd
  · rintro ⟨hfirst, hrest⟩ before p after heq mid next hbefore hp
    cases before with
    | nil =>
      obtain ⟨rfl, rfl⟩ := List.cons.inj heq
      cases hbefore
      rw [h] at hp
      cases hp
      exact hfirst
    | cons q before =>
      obtain ⟨rfl, rfl⟩ := List.cons.inj heq
      obtain ⟨_, t', hq, hbefore⟩ := bind_eq_ok.mp hbefore
      rw [h] at hq
      cases hq
      exact hrest before p after rfl mid next hbefore hp

theorem forall_mem_encrypt {ds : List Direction} :
    (∀ b ∈ ds, Direction.encrypt = b ∨
      (Direction.encrypt = .encrypt ∧ b = .decrypt ∧ ¬ DecryptStamped cfg)) ↔
        (DecryptStamped cfg → .decrypt ∉ ds) := by
  constructor
  · intro h hs hmem
    rcases h _ hmem with heq | ⟨_, _, hns⟩
    · cases heq
    · exact hns hs
  · intro h b hb
    cases b with
    | encrypt => exact .inl rfl
    | decrypt => exact .inr ⟨rfl, rfl, fun hs => h hs hb⟩

theorem forall_mem_decrypt {ds : List Direction} :
    (∀ b ∈ ds, Direction.decrypt = b ∨
      (Direction.decrypt = .encrypt ∧ b = .decrypt ∧ ¬ DecryptStamped cfg)) ↔ .encrypt ∉ ds := by
  constructor
  · intro h hmem
    rcases h _ hmem with heq | ⟨heq, _⟩
    · cases heq
    · cases heq
  · intro h b hb
    cases b with
    | encrypt => exact absurd hb h
    | decrypt => exact .inl rfl

/-- Agreement of the rest of a run, given the rules of either direction installed so
far: no encrypt rule may follow a decrypt one, nor the other way round when decrypt
indices are stamped. -/
theorem indexAgreement_from (policies : List IpsecPolicy) : ∀ {g t : Gateway}, Counted g →
    handlePolicies libs cfg policies g = .ok () t →
    (IndexAgreement libs cfg g policies ↔ Separated cfg policies ∧
      (0 < g.nbDecryptedRules → .encrypt ∉ policies.filterMap direction) ∧
      (0 < g.nbEncryptedRules → DecryptStamped cfg → .decrypt ∉ policies.filterMap direction)) := by
  induction policies with
  | nil =>
    intro g t _ _
    simp [IndexAgreement, Separated]
  | cons policy policies ih =>
    intro g t hg h
    obtain ⟨_, g1, h1, h2⟩ := bind_eq_ok.mp h
    have hstep := handlePolicy_step hg h1
    have hih := ih (hstep.counted hg) h2
    rw [indexAgreement_cons h1, hih]
    unfold Separated
    cases hd : direction policy with
    | none =>
      rw [hd] at hstep
      cases hstep with
      | other h => simp [hd, h]
    | some d =>
      rw [List.filterMap_cons_some hd, List.pairwise_cons]
      rw [hd] at hstep
      cases hstep with
      | encrypt hc _ ha =>
        obtain ⟨he, hdn, _⟩ : g1.nbEncryptedRules = _ ∧ g1.nbDecryptedRules = _ ∧ _ := by
          simpa [counters] using hc
        rw [forall_mem_encrypt]
        simp only [Option.some.injEq, forall_eq', nextSlot, ha, he, hdn, List.mem_cons,
          Nat.zero_lt_succ, true_or, not_true_eq_false, reduceCtorEq, false_or, imp_false]
        grind
      | decrypt hc _ ha =>
        obtain ⟨he, hdn, _⟩ : g1.nbEncryptedRules = _ ∧ g1.nbDecryptedRules = _ ∧ _ := by
          simpa [counters] using hc
        rw [forall_mem_decrypt]
        simp only [Option.some.injEq, forall_eq', nextSlot, ha, he, hdn, List.mem_cons,
          Nat.zero_lt_succ, true_or, not_true_eq_false, reduceCtorEq, false_or, imp_false]
        grind

/-- Entries stamp the total number of rules while slots are numbered per direction, so
the two agree in an accepted run exactly when the directions do not mix. -/
theorem index_agreement_iff_separated (libs : Libs) (cfg : Config) (policies : List IpsecPolicy)
    (g t : Gateway) (hstart : counters g = (0, 0, 0))
    (hrun : handlePolicies libs cfg policies g = .ok () t) :
    IndexAgreement libs cfg g policies ↔ Separated cfg policies := by
  obtain ⟨he, hd, hn⟩ : g.nbEncryptedRules = 0 ∧ g.nbDecryptedRules = 0 ∧ g.nbRules = 0 := by
    simpa [counters] using hstart
  have hg : Counted g := ⟨by omega, by omega, by omega⟩
  rw [indexAgreement_from policies hg hrun]
  simp [he, hd]

/-- The text `10.0.0.1` in an address field. -/
def hostText : List Common.Pack.Byte :=
  [0x31, 0x30, 0x2e, 0x30, 0x2e, 0x30, 0x2e, 0x31] ++ List.replicate 39 0

/-- `inet_pton` as far as the one text goes. -/
def hostLibs : Libs where
  inetPton4 text := if text = hostText then some 0x0100000a else none
  inetPton6 _ := none
  hashPosition _ _ := none

/-- The arrays as `calloc` leaves them. -/
def callocGateway : Gateway :=
  let attrs (d : SaDirection) : SaAttrs := ⟨.icv8, .aesgcm128, List.replicate 32 0, 0, d⟩
  ⟨[], [], .zero, .zero, .zero, [],
    List.replicate maxNbRules
      ⟨.none, .none, zeroAddr, zeroAddr, 0, 0, .none, zeroAddr, 0, 0, none, attrs .egressEncrypt⟩,
    List.replicate maxNbRules
      ⟨.none, zeroAddr, 0, .none, none, attrs .ingressDecrypt⟩, 0, 0, 0⟩

/-- An IPv4 policy of one direction, with ICV 16. -/
def ip4Policy (dir : Common.Pack.Byte) (spi : BitVec 32) : IpsecPolicy :=
  { IpsecPolicy.zero with
    srcPort := 1000, dstPort := 443, l3Protocol := 4, l4Protocol := 6, outerL3Protocol := 4
    policyDirection := dir, icvLength := 16, spi := spi
    srcIpAddr := hostText, dstIpAddr := hostText }

theorem index_agreement_encrypt_twice :
    ∃ t, handlePolicies hostLibs Classification.plainConfig
        [ip4Policy policyDirOut 5, ip4Policy policyDirOut 6] callocGateway = .ok () t ∧
      IndexAgreement hostLibs Classification.plainConfig callocGateway
        [ip4Policy policyDirOut 5, ip4Policy policyDirOut 6] := by
  have hany : (rowsAfter (handlePolicies hostLibs Classification.plainConfig
      [ip4Policy policyDirOut 5, ip4Policy policyDirOut 6]) callocGateway).any
      (fun _ => true) = true := by decide +kernel
  obtain ⟨t, hrun, _⟩ := exists_of_rowsAfter hany
  refine ⟨t, hrun, (index_agreement_iff_separated _ _ _ _ t rfl hrun).mpr ?_⟩
  simp [Separated, direction, ip4Policy]

/-- A decrypt policy and then an encrypt one: the encrypt rule is in slot 0 and its
entry stamps 1. -/
theorem index_agreement_fails_after_decrypt :
    ∃ t, handlePolicies hostLibs Classification.plainConfig
        [ip4Policy policyDirIn 5, ip4Policy policyDirOut 6] callocGateway = .ok () t ∧
      ¬ IndexAgreement hostLibs Classification.plainConfig callocGateway
        [ip4Policy policyDirIn 5, ip4Policy policyDirOut 6] := by
  have hany : (rowsAfter (handlePolicies hostLibs Classification.plainConfig
      [ip4Policy policyDirIn 5, ip4Policy policyDirOut 6]) callocGateway).any
      (fun _ => true) = true := by decide +kernel
  obtain ⟨t, hrun, _⟩ := exists_of_rowsAfter hany
  refine ⟨t, hrun, fun hagree => ?_⟩
  have hg : Counted callocGateway := ⟨rfl, Nat.zero_le _, Nat.zero_le _⟩
  have hsep := ((indexAgreement_from _ hg hrun).mp hagree).1
  simp [Separated, direction, ip4Policy, policyDirIn, policyDirOut] at hsep

end DocaApps.Proofs.PolicyRun
