import DocaApps.Proofs.BulkCalls
import DocaApps.Proofs.BulkDecryption
import DocaApps.Proofs.FlowDecrypt

namespace DocaApps.Proofs.BulkOverflow
open Lib.Endings Lib.EntryQueue Ipsec.Rules Ipsec.Encap Ipsec.FlowCommon Ipsec.FlowEncrypt
open Ipsec.FlowDecrypt Ipsec.BulkInsertion Proofs.FlowCommon Proofs.BulkTracking
open Proofs.BulkCalls Proofs.BulkInsertion Proofs.BulkDecryption

variable {cfg : Config} {answers : List Outcome} {g t : Gateway} {c : Cmd Unit} {α : Type}

/-- A library that accepts every call and never completes an entry. -/
def silent (n : Nat) : List Outcome := List.replicate n ⟨none, [], some 0⟩

theorem mem_silent {n : Nat} {a : Outcome} (h : a ∈ silent n) : a = ⟨none, [], some 0⟩ :=
  List.eq_of_mem_replicate h

theorem errorsTo_silent {n : Nat} {J R : Cond} : ErrorsTo (silent n) J R := by
  intro a ha herror
  rw [mem_silent ha] at herror
  exact absurd rfl herror

/-- Such a library does what is documented. -/
theorem documented_silent (n : Nat) (g : Gateway) : documented cfg (silent n) g := by
  have hall : ∀ (xs : List (LibCall × Outcome)) qs, (∀ x ∈ xs, x.2 ∈ silent n) →
      Documented qs (xs.map (eventOf cfg)) := by
    intro xs
    induction xs with
    | nil => exact fun _ _ => trivial
    | cons x xs ih =>
      intro qs hxs
      refine ⟨?_, ih _ (fun y hy => hxs y (List.mem_cons_of_mem _ hy))⟩
      have hx := mem_silent (hxs x List.mem_cons_self)
      obtain ⟨call, a⟩ := x
      obtain rfl : a = ⟨none, [], some 0⟩ := hx
      cases call <;> simp [eventOf, Allowed]
  exact hall _ _ (fun x hx => (List.of_mem_zip hx).2)

theorem zip_longer {γ δ : Type} (xs ys : List γ) (as : List δ) :
    xs.zip as <+: (xs ++ ys).zip as := by
  induction xs generalizing as with
  | nil => exact List.nil_prefix
  | cons x xs ih =>
    cases as with
    | nil => exact List.nil_prefix
    | cons a as =>
      obtain ⟨zs, hzs⟩ := ih as
      exact ⟨zs, by simp [← hzs]⟩

/-- An overflow is not undone by later calls. -/
theorem within_of_longer (h : g.trace <+: t.trace) (hwithin : within cfg answers t) :
    within cfg answers g := by
  obtain ⟨new, hnew⟩ := h
  have hev : events cfg answers g <+: events cfg answers t := by
    rw [events, events, ← hnew, List.map_append]
    exact (zip_longer _ _ _).map _
  obtain ⟨es, hes⟩ := hev
  rw [within, ← hes] at hwithin
  exact within_of_append hwithin

/-- Exactly `n` entries are on the secured port, and the counters are as said. -/
def Exact (cfg : Config) (n : Nat) (counts : (StatusCtx → Int) → Prop) : Cond := fun q st =>
  (q (securedPort cfg)).all.card = n ∧ counts (fun ctx => (st ctx).entriesInQueue) ∧
    ∀ ctx, (st ctx).failure = false

/-- Exactly `n` entries are on the secured port. -/
def Filled (cfg : Config) (n : Nat) : Cond := fun q _ => (q (securedPort cfg)).all.card = n

variable {R : Cond} {n N : Nat} {ctx : StatusCtx} {counts counts' : (StatusCtx → Int) → Prop}

theorem exact_add {pipe : Pipe} {m : Match} {actions : Option Actions} {flags : Flags}
    (hpipe : portOf cfg pipe = securedPort cfg) :
    Leads cfg False (silent N) R (Exact cfg n counts) (pipeAddEntry pipe m actions flags ctx)
      (fun _ => Exact cfg (n + 1) counts) := by
  refine leads_pipeAddEntry (fun q st h _ => ⟨False.elim, fun _ => ⟨?_, h.2⟩⟩) errorsTo_silent
  rw [added, hpipe, Function.update_self, card_add, h.1]

theorem exact_note {k : Int}
    (hcounts : ∀ load, counts load → counts' (Function.update load ctx (load ctx + k))) :
    Leads cfg False (silent N) R (Exact cfg n counts) (enqueued k ctx)
      (fun _ => Exact cfg n counts') := by
  refine leads_enqueued (fun q st h => ⟨h.1, ?_, fun ctx' => ?_⟩)
  · have hload : (fun ctx' => (enlarged k ctx st ctx').entriesInQueue) =
        Function.update (fun ctx' => (st ctx').entriesInQueue) ctx
          ((st ctx).entriesInQueue + k) := by
      funext ctx'
      unfold enlarged
      by_cases heq : ctx' = ctx
      · subst heq
        rw [Function.update_self, Function.update_self]
      · rw [Function.update_of_ne heq, Function.update_of_ne heq]
    rw [hload]
    exact hcounts _ h.2.1
  · unfold enlarged
    by_cases heq : ctx' = ctx
    · subst heq
      rw [Function.update_self]
      exact h.2.2 ctx'
    · rw [Function.update_of_ne heq]
      exact h.2.2 ctx'

/-- Processing changes nothing, as long as the counter is not at the depth. -/
theorem exact_process {full : Prop} [Decidable full] {port : Port}
    (hload : ∀ load, counts load → n ≤ 512 → load ctx ≠ 512) :
    Leads cfg False (silent N) R (Exact cfg n counts) (processIf full port ctx)
      (fun _ => Exact cfg n counts) := by
  refine leads_processIf (fun _ => leads_processEntries (fun q st a h hfits ha _ => ?_))
    (fun _ _ _ h _ => h)
  rw [mem_silent ha]
  obtain ⟨hcard, hcounts, hfailure⟩ := h
  have hfew : n ≤ 512 := hcard ▸ hfits (securedPort cfg)
  have hgood : ¬ ((st ctx).failure = true ∨ (st ctx).entriesInQueue = queueDepth) := by
    rintro (hfail | hdepth)
    · rw [hfailure ctx] at hfail
      cases hfail
    · exact hload _ hcounts hfew hdepth
  have hsame : processed port ⟨none, [], some 0⟩ q = q := by
    unfold processed
    rw [Function.update_eq_self_iff, Queue.complete]
    simp
  rw [if_pos ⟨rfl, hgood⟩, hsame]
  exact ⟨hcard, hcounts, hfailure⟩

/-- One entry with its counter, and the processing call after it. -/
theorem exact_insert {pipe : Pipe} {m : Match} {actions : Option Actions} {flags : Flags}
    {full : Gateway → Prop} [∀ g, Decidable (full g)] {port : Port}
    (hpipe : portOf cfg pipe = securedPort cfg)
    (hcounts : ∀ load, counts load → counts' (Function.update load ctx (load ctx + 1)))
    (hload : ∀ load, counts' load → n + 1 ≤ 512 → load ctx ≠ 512) :
    Leads cfg False (silent N) R (Exact cfg n counts)
      (do
        pipeAddEntry pipe m actions flags ctx
        enqueued 1 ctx
        let g ← get
        processIf (full g) port ctx)
      (fun _ => Exact cfg (n + 1) counts') := by
  refine Leads.bind (exact_add hpipe) (fun _ => Leads.bind (exact_note hcounts) (fun _ => ?_))
  exact Leads.get_bind (fun g => (exact_process hload).pre (fun _ _ h _ => h.1))

/-- The counters of an encrypt insertion on one port with `n` entries, `k` of which are the
hairpin ones of the current rule. -/
structure Mixed (n k : Nat) (load : StatusCtx → Int) : Prop where
  total : load .hairpin + load .encrypt = n
  encrypt : 0 ≤ load .encrypt
  ahead : load .encrypt + k ≤ load .hairpin
  behind : load .hairpin ≤ 2 * load .encrypt + k

variable {k : Nat} {load : StatusCtx → Int}

theorem Mixed.addHairpin (h : Mixed n k load) :
    Mixed (n + 1) (k + 1) (Function.update load .hairpin (load .hairpin + 1)) := by
  obtain ⟨htotal, hencrypt, hahead, hbehind⟩ := h
  have hne : StatusCtx.encrypt ≠ .hairpin := nofun
  constructor <;> simp only [Function.update_self, Function.update_of_ne hne] <;> omega

theorem Mixed.addEncrypt (h : Mixed n k load) (hk : k = 1 ∨ k = 2) :
    Mixed (n + 1) 0 (Function.update load .encrypt (load .encrypt + 1)) := by
  obtain ⟨htotal, hencrypt, hahead, hbehind⟩ := h
  have hne : StatusCtx.hairpin ≠ .encrypt := nofun
  constructor <;> simp only [Function.update_self, Function.update_of_ne hne] <;> omega

theorem Mixed.hairpin_ne (h : Mixed n k load) (hk : k ≤ 2) (hn : n ≤ 512) :
    load .hairpin ≠ 512 := by
  have htotal := h.total
  have hencrypt := h.encrypt
  have hbehind := h.behind
  omega

theorem Mixed.encrypt_ne (h : Mixed n k load) (hn : n ≤ 512) : load .encrypt ≠ 512 := by
  have htotal := h.total
  have hahead := h.ahead
  omega

theorem exact_addSrcIp6Entry (hmode : unsecuredPort cfg = securedPort cfg) (rule : EncryptRule)
    (id : BitVec 32) :
    Leads cfg False (silent N) R (Exact cfg n (Mixed n 0))
      (addSrcIp6Entry (unsecuredPort cfg) rule id)
      (fun _ => Exact cfg (n + 1) (Mixed (n + 1) 1)) :=
  Leads.get_bind (fun _ => (exact_insert ((portOf_getPipeForRule rule true).trans hmode)
    (fun _ => Mixed.addHairpin) (fun _ h => h.hairpin_ne (by omega))).pre (fun _ _ h _ => h.1))

theorem exact_srcIpIdFor (hmode : unsecuredPort cfg = securedPort cfg) {rule : EncryptRule}
    {table : List (Ip6Addr × Nat)}
    (hgood : rule.l3Type = .ip6 → (table.lookup rule.ip6Dst).isSome) :
    Leads cfg False (silent N) R (Exact cfg n (Mixed n 0))
      (srcIpIdFor (unsecuredPort cfg) rule table)
      (fun _ => Exact cfg (n + (encryptEntries rule - 2))
        (Mixed (n + (encryptEntries rule - 2)) (encryptEntries rule - 2))) := by
  unfold srcIpIdFor
  by_cases h6 : rule.l3Type = .ip6
  · have hentries : encryptEntries rule = 3 := if_pos h6
    obtain ⟨id, hid⟩ := Option.isSome_iff_exists.mp (hgood h6)
    rw [if_pos h6, hid, hentries]
    exact Leads.bind (exact_addSrcIp6Entry hmode rule _) (fun _ => Leads.pure _ (fun _ _ h _ => h))
  · have hentries : encryptEntries rule = 2 := if_neg h6
    rw [if_neg h6, hentries]
    exact Leads.pure _ (fun _ _ h _ => h)

theorem encryptEntries_cases (rule : EncryptRule) :
    encryptEntries rule = 2 ∨ encryptEntries rule = 3 := by
  unfold encryptEntries
  split
  · exact .inr rfl
  · exact .inl rfl

theorem exact_addFiveTupleMatchEntry (hmode : unsecuredPort cfg = securedPort cfg)
    {rule : EncryptRule} {table : List (Ip6Addr × Nat)} (nbRules i : Nat)
    (hgood : rule.l3Type = .ip6 → (table.lookup rule.ip6Dst).isSome) :
    Leads cfg False (silent N) R (Exact cfg n (Mixed n 0))
      (addFiveTupleMatchEntry (unsecuredPort cfg) rule nbRules i table)
      (fun _ => Exact cfg (n + (encryptEntries rule - 1))
        (Mixed (n + (encryptEntries rule - 1)) (encryptEntries rule - 1))) := by
  have hcases := encryptEntries_cases rule
  have hone : encryptEntries rule - 1 = encryptEntries rule - 2 + 1 := by omega
  rw [hone, ← Nat.add_assoc]
  refine Leads.bind (exact_srcIpIdFor hmode hgood) (fun id => Leads.get_bind (fun g => ?_))
  exact (exact_insert ((portOf_getPipeForRule rule false).trans hmode)
    (fun _ => Mixed.addHairpin) (fun _ h => h.hairpin_ne (by omega))).pre (fun _ _ h _ => h.1)

/-- All entries of the rules end up on the port when nothing completes. -/
theorem exact_addEncryptEntriesFrom (hmode : unsecuredPort cfg = securedPort cfg) (nbRules : Nat)
    (table : List (Ip6Addr × Nat)) (rules : List EncryptRule) (i : Nat) (last : Actions) :
    Leads cfg False (silent N) (Filled cfg (n + encryptTotal table rules))
      (Exact cfg n (Mixed n 0)) (addEncryptEntriesFrom cfg nbRules table i rules last)
      (fun _ => Filled cfg (n + encryptTotal table rules)) := by
  induction rules generalizing n i last with
  | nil => exact Leads.pure _ (fun _ _ h _ => h.1)
  | cons rule rules ih =>
    have hsa : Leads cfg False (silent N) (Filled cfg (n + encryptTotal table (rule :: rules)))
        (Exact cfg n (Mixed n 0)) (createIpsecSa cfg rule.saAttrs (setEncryptSa i))
        (fun _ => Exact cfg n (Mixed n 0)) :=
      leads_createIpsecSa (fun _ _ => ⟨rfl, rfl, rfl⟩) errorsTo_silent
    refine Leads.bind hsa (fun sa => ?_)
    by_cases hgood : rule.l3Type = .ip6 → (table.lookup rule.ip6Dst).isSome
    · rw [encryptTotal_cons rules hgood, ← Nat.add_assoc]
      have hcases := encryptEntries_cases rule
      have hone : n + encryptEntries rule = n + (encryptEntries rule - 1) + 1 := by omega
      refine Leads.bind (exact_addFiveTupleMatchEntry hmode nbRules i hgood) (fun _ => ?_)
      refine Leads.bind (leads_createIpsecSharedObject errorsTo_silent)
        (fun _ => Leads.get_bind (fun g => ?_))
      rw [hone]
      refine Leads.bind ((exact_add (portOf_encryptPipe rule)).pre (fun _ _ h _ => h.1))
        (fun _ => ?_)
      refine Leads.bind (exact_note (fun _ h => h.addEncrypt (by omega))) (fun _ => ?_)
      refine Leads.get_bind (fun g => Leads.bind ((exact_process
        (fun _ h => h.encrypt_ne)).pre (fun _ _ h _ => h.1)) (fun _ => ?_))
      exact ih (i + 1) _
    · rw [Classical.not_imp] at hgood
      have hnone := Option.not_isSome_iff_eq_none.mp hgood.2
      have htotal : encryptTotal table (rule :: rules) = 0 := by
        simp [encryptTotal, installable, hgood.1, hnone]
      rw [addFiveTupleMatchEntry_unknown hgood.1 hnone, htotal]
      exact Leads.throw DocaError.notFound (fun _ _ h _ => h.1)

/-- The counter of a decrypt insertion. -/
def Only (n : Nat) (load : StatusCtx → Int) : Prop := load .decrypt = n

theorem Only.note {m : Nat} {k : Int} (h : Only n load) (hm : (n : Int) + k = m) :
    Only m (Function.update load .decrypt (load .decrypt + k)) := by
  rw [Only, Function.update_self, h, hm]

theorem exact_addBadSyndromePipeEntry {pipe : Pipe} {i : Nat} {flags : Flags}
    (hpipe : portOf cfg pipe = securedPort cfg) :
    Leads cfg False (silent N) R (Exact cfg n counts) (addBadSyndromePipeEntry pipe i flags)
      (fun _ => Exact cfg (n + 4) counts) := by
  refine Leads.bind (exact_add hpipe) (fun _ => Leads.bind (exact_add hpipe) (fun _ => ?_))
  exact Leads.bind (exact_add hpipe) (fun _ => exact_add hpipe)

theorem exact_addDecryptEntriesFrom (nbRules nb : Nat) (rules : List DecryptRule) (i : Nat)
    (last : Match) (lastActions : Actions) :
    Leads cfg False (silent N) R (Exact cfg (6 * i) (Only (6 * i)))
      (addDecryptEntriesFrom cfg nbRules nb i rules last lastActions)
      (fun _ => Filled cfg (6 * (i + rules.length))) := by
  induction rules generalizing i last lastActions with
  | nil => exact Leads.pure _ (fun _ _ h _ => h.1)
  | cons rule rules ih =>
    have hlen : i + (rule :: rules).length = i + 1 + rules.length := by
      rw [List.length_cons]
      omega
    rw [hlen]
    have hsa : Leads cfg False (silent N) R (Exact cfg (6 * i) (Only (6 * i)))
        (createIpsecSa cfg rule.saAttrs (setDecryptSa i))
        (fun _ => Exact cfg (6 * i) (Only (6 * i))) :=
      leads_createIpsecSa (fun _ _ => ⟨rfl, rfl, rfl⟩) errorsTo_silent
    refine Leads.get_bind (fun g => ?_)
    refine Leads.bind (hsa.pre (fun _ _ h _ => h.1)) (fun sa => ?_)
    refine Leads.bind (leads_createIpsecSharedObject errorsTo_silent) (fun _ => ?_)
    refine Leads.bind (exact_add (portOf_decryptPipe rule)) (fun _ => ?_)
    refine Leads.bind (exact_note (fun _ (h : Only (6 * i) _) => h.note (Nat.cast_succ _).symm))
      (fun _ => ?_)
    refine Leads.bind (exact_add (portOf_syndromePipe rule)) (fun _ => ?_)
    refine Leads.bind (exact_note (fun _ (h : Only (6 * i + 1) _) => h.note
      (Nat.cast_succ _).symm)) (fun _ => ?_)
    refine Leads.bind (exact_addBadSyndromePipeEntry (portOf_badSyndromePipe rule))
      (fun _ => ?_)
    have hnote : Leads cfg False (silent N) R (Exact cfg (6 * (i + 1)) (Only (6 * i + 1 + 1)))
        (enqueued numOfSyndromes .decrypt)
        (fun _ => Exact cfg (6 * (i + 1)) (Only (6 * (i + 1)))) :=
      exact_note (fun _ h => h.note (by rw [numOfSyndromes]; omega))
    refine Leads.bind hnote (fun _ => Leads.get_bind (fun g' => ?_))
    refine Leads.bind ((exact_process (fun load h _ => ?_)).pre (fun _ _ h _ => h.1))
      (fun _ => ih (i + 1) _ _)
    have hload : load .decrypt = (6 * (i + 1) : Nat) := h
    omega

/-- Nothing was ever counted. -/
def Clear : Cond := fun q st => q = .empty ∧ ∀ ctx, st ctx = .zero

theorem clear_exact {st : Counters} (hst : ∀ ctx, st ctx = .zero)
    (hcounts : counts (fun _ => 0)) : Exact cfg 0 counts .empty st := by
  refine ⟨rfl, ?_, fun ctx => by rw [hst]; rfl⟩
  have hzero : (fun ctx => (st ctx).entriesInQueue) = fun _ => 0 := by
    funext ctx
    rw [hst]
    rfl
  rwa [hzero]

theorem exact_encryptLoop (hmode : unsecuredPort cfg = securedPort cfg)
    (rules : List EncryptRule) (table : List (Ip6Addr × Nat)) :
    Leads cfg False (silent N) (Filled cfg (encryptTotal table rules)) Clear
      (encryptLoop cfg rules table) (fun _ => Filled cfg (encryptTotal table rules)) := by
  rw [← Nat.zero_add (encryptTotal table rules)]
  refine Leads.bind (Leads.modify (K := fun _ => Exact cfg 0 (Mixed 0 0)) (fun g => ⟨rfl, rfl⟩)
    ?_) (fun _ => exact_addEncryptEntriesFrom hmode rules.length table rules 0 .zero)
  rintro q g ⟨rfl, hst⟩
  refine clear_exact (fun ctx => ?_) ⟨rfl, le_refl _, le_refl _, le_refl _⟩
  cases ctx with
  | decrypt => exact hst .decrypt
  | _ => rfl

theorem exact_decryptLoop (rules : List DecryptRule) (nb : Nat) :
    Leads cfg False (silent N) (Filled cfg (6 * rules.length)) Clear
      (decryptLoop cfg rules nb) (fun _ => Filled cfg (6 * rules.length)) := by
  have hloop : Leads cfg False (silent N) (Filled cfg (6 * rules.length))
      (Exact cfg (6 * 0) (Only (6 * 0))) (addDecryptEntriesFrom cfg rules.length nb 0 rules
        { Match.zero with tunEsp := true } .zero)
      (fun _ => Filled cfg (6 * (0 + rules.length))) := exact_addDecryptEntriesFrom ..
  rw [Nat.zero_add] at hloop
  refine Leads.bind (Leads.modify (K := fun _ => Exact cfg (6 * 0) (Only (6 * 0)))
    (fun g => ⟨rfl, rfl⟩) ?_) (fun _ => hloop)
  rintro q g ⟨rfl, hst⟩
  refine clear_exact (fun ctx => ?_) rfl
  cases ctx with
  | hairpin => exact hst .hairpin
  | encrypt => exact hst .encrypt
  | decrypt => rfl

/-- A loop that puts too many entries on a port overflows it. -/
theorem overflows {loop : Cmd Unit} {calls total : Nat} (hgrows : Grows Gateway.trace calls loop)
    (hloop : Leads cfg False (silent calls) (Filled cfg total) Clear loop
      (fun _ => Filled cfg total)) (htotal : 512 < total) (hg : ∀ ctx, g.status ctx = .zero) :
    Settles loop (fun t => ¬ within cfg (silent calls) t) (awaiting (silent calls) g) := by
  have hends : ∀ t, Tracks cfg False (silent calls) (Filled cfg total) t →
      (∃ new, t.trace = [] ++ new ∧ new.length ≤ calls) → ¬ within cfg (silent calls) t := by
    intro t htracks hcalls hwithin
    obtain ⟨new, hnew, hlen⟩ := hcalls
    have halive : Alive cfg (silent calls) t := by
      refine ⟨?_, documented_silent calls t, hwithin⟩
      rw [hnew, List.nil_append, silent, List.length_replicate]
      exact hlen
    have hcard : _ = total := htracks.cond halive
    have hfits := hwithin.fits (securedPort cfg)
    rw [hcard, depth] at hfits
    omega
  exact ((hloop.run _ (tracks_awaiting ⟨rfl, hg⟩)).and (hgrows.settles _)).mono
    (fun _ t h => hends t h.1 h.2) (fun _ t h => hends t h.1 h.2)

theorem overflow_drain {port : Port} (h : ¬ within cfg answers g) :
    Settles (drain port ctx) (fun t => ¬ within cfg answers t) g :=
  (longer_drain port ctx g).mono (fun _ _ hlonger hw => h (within_of_longer hlonger hw))
    (fun _ _ hlonger hw => h (within_of_longer hlonger hw))

theorem not_respects {loop insertion : Cmd Unit} {n : Nat}
    (h : Settles insertion (fun t => ¬ within cfg (silent n) t) (awaiting (silent n) g)) :
    ¬ Respects cfg loop insertion := by
  intro hrespects
  obtain ⟨t, hbounded, hover⟩ := ((hrespects.bounded (silent n) g).and h).reached
  exact hover (hbounded (documented_silent n t))

/-- In switch mode the entries of the two kinds share one queue. -/
theorem encrypt_overflows {rules : List EncryptRule} {table : List (Ip6Addr × Nat)}
    (hroom : ¬ Room cfg (encryptTotal table rules)) :
    ¬ Respects cfg (encryptLoop cfg rules table) (addEncryptEntries cfg rules table) := by
  rw [Room, not_or, Nat.not_le] at hroom
  obtain ⟨hvnf, htotal⟩ := hroom
  have hmode : unsecuredPort cfg = securedPort cfg := by
    cases hflow : cfg.flowMode with
    | vnf => exact absurd hflow hvnf
    | switch => simp [unsecuredPort, securedPort, hflow]
  have hloop := overflows (g := FlowDecrypt.idleGateway) (grows_encryptLoop rules table)
    (exact_encryptLoop hmode rules table) htotal (fun ctx => by cases ctx <;> rfl)
  have hall : Settles (addEncryptEntries cfg rules table)
      (fun t => ¬ within cfg (silent (11 * rules.length)) t)
      (awaiting (silent (11 * rules.length)) FlowDecrypt.idleGateway) := by
    rw [addEncryptEntries_eq]
    refine Ends.bind hloop (fun _ t ht => Ends.bind (overflow_drain ht) (fun _ u hu => ?_))
    exact overflow_drain hu
  exact not_respects hall

/-- The test on the counter comes too late for a queue that holds 510 entries. -/
theorem decrypt_overflows {rules : List DecryptRule} (nb : Nat) (hmany : 85 < rules.length) :
    ¬ Respects cfg (decryptLoop cfg rules nb) (addDecryptEntries cfg rules nb) := by
  have hgrows : Grows Gateway.trace (12 * rules.length) (decryptLoop cfg rules nb) :=
    grows_decryptLoop rules nb
  have hloop := overflows (g := FlowDecrypt.idleGateway) hgrows (exact_decryptLoop rules nb)
    (by omega) (fun ctx => by cases ctx <;> rfl)
  have hall : Settles (addDecryptEntries cfg rules nb)
      (fun t => ¬ within cfg (silent (12 * rules.length)) t)
      (awaiting (silent (12 * rules.length)) FlowDecrypt.idleGateway) := by
    rw [addDecryptEntries_eq]
    exact Ends.bind hloop (fun _ t ht => overflow_drain ht)
  exact not_respects hall

/-- The insertions respect the queues exactly when the entries of an encrypt insertion on a
shared port all fit, and those of a decrypt insertion do. -/
theorem insertion_respects_iff (cfg : Config) (rules : List EncryptRule)
    (table : List (Ip6Addr × Nat)) (rules' : List DecryptRule) (nb : Nat) :
    (Respects cfg (encryptLoop cfg rules table) (addEncryptEntries cfg rules table) ↔
      cfg.flowMode = .vnf ∨ ((installable table rules).map encryptEntries).sum ≤ 512) ∧
    (Respects cfg (decryptLoop cfg rules' nb) (addDecryptEntries cfg rules' nb) ↔
      rules'.length ≤ 85) := by
  constructor
  · constructor
    · intro h
      by_contra hroom
      exact encrypt_overflows hroom h
    · exact encrypt_respects rules table
  · constructor
    · intro h
      by_contra hmany
      exact decrypt_overflows nb (Nat.lt_of_not_le hmany) h
    · exact decrypt_respects rules' nb

def switchConfig : Config := ⟨false, false, .transport, .switch, .both⟩

def tcpRule : EncryptRule :=
  ⟨.ip4, .tcp, ⟨1, 2, 0, 0⟩, zeroAddr, 10, 20, .none, zeroAddr, 5, 0, none,
    ⟨.icv16, .aesgcm128, List.replicate 32 1, 0, .egressEncrypt⟩⟩

/-- 257 encrypt rules on the switch port, or 86 decrypt rules. -/
theorem many_rules_overflow :
    ¬ Respects switchConfig (encryptLoop switchConfig (List.replicate 257 tcpRule) [])
        (addEncryptEntries switchConfig (List.replicate 257 tcpRule) []) ∧
      ¬ Respects switchConfig
        (decryptLoop switchConfig (List.replicate 86 FlowDecrypt.plainRule) 0)
        (addDecryptEntries switchConfig (List.replicate 86 FlowDecrypt.plainRule) 0) := by
  refine ⟨encrypt_overflows ?_, decrypt_overflows 0 (by simp)⟩
  rw [Room, not_or]
  exact ⟨nofun, by decide +kernel⟩

end DocaApps.Proofs.BulkOverflow
