import DocaApps.Proofs.BulkTracking

namespace DocaApps.Proofs.BulkInsertion
open Lib.Endings Lib.EntryQueue Ipsec.Rules Ipsec.Encap Ipsec.FlowCommon Ipsec.FlowEncrypt
open Ipsec.FlowDecrypt Ipsec.BulkInsertion Proofs.FlowCommon Proofs.BulkTracking

variable {cfg : Config} {answers : List Outcome} {q : Queues Port StatusCtx} {st : Counters}

/-- The port that the entries of a status variable are on. -/
def home (cfg : Config) : StatusCtx → Port
  | .hairpin => unsecuredPort cfg
  | .encrypt => securedPort cfg
  | .decrypt => securedPort cfg

/-- Each status variable has this many entries outstanding, all on its port. -/
def Counted (cfg : Config) (load : StatusCtx → Int) (q : Queues Port StatusCtx) : Prop :=
  ∀ ctx port, ((q port).all.count ctx : Int) = if port = home cfg ctx then load ctx else 0

theorem card_eq_counts (s : Multiset StatusCtx) :
    s.card = s.count .hairpin + s.count .encrypt + s.count .decrypt := by
  induction s using Multiset.induction with
  | empty => rfl
  | cons ctx s ih =>
    rw [Multiset.card_cons, ih]
    cases ctx <;> simp <;> omega

theorem Counted.nonneg {load : StatusCtx → Int} (h : Counted cfg load q) (ctx : StatusCtx) :
    0 ≤ load ctx := by
  have hhome := h ctx (home cfg ctx)
  rw [if_pos rfl] at hhome
  omega

theorem Counted.card_le {load : StatusCtx → Int} (h : Counted cfg load q) (port : Port) :
    ((q port).all.card : Int) ≤ load .hairpin + load .encrypt + load .decrypt := by
  have hle : ∀ ctx, ((q port).all.count ctx : Int) ≤ load ctx := by
    intro ctx
    rw [h ctx port]
    split
    · exact le_refl _
    · exact h.nonneg ctx
  have hh := hle .hairpin
  have he := hle .encrypt
  have hd := hle .decrypt
  rw [card_eq_counts]
  omega

theorem counted_added {load : StatusCtx → Int} {pipe : Pipe} {flags : Flags} {ctx : StatusCtx}
    (hpipe : portOf cfg pipe = home cfg ctx) (h : Counted cfg load q) :
    Counted cfg (Function.update load ctx (load ctx + 1)) (added cfg pipe flags ctx q) := by
  intro ctx' port
  have hold := h ctx' port
  unfold added
  by_cases hport : port = portOf cfg pipe
  · rw [hport, Function.update_self, count_add]
    rw [hport] at hold
    by_cases hctx : ctx' = ctx
    · rw [hctx, if_pos rfl, if_pos hpipe, Function.update_self]
      rw [hctx, if_pos hpipe] at hold
      omega
    · rw [if_neg hctx, Function.update_of_ne hctx]
      exact hold
  · rw [Function.update_of_ne hport, hold]
    by_cases hctx : ctx' = ctx
    · rw [hctx, if_neg (fun h => hport (h.trans hpipe.symm)),
        if_neg (fun h => hport (h.trans hpipe.symm))]
    · rw [Function.update_of_ne hctx]

theorem counted_processed {load : StatusCtx → Int} {port : Port} {a : Outcome}
    (hdone : ((a.completions.map Prod.fst : List StatusCtx) : Multiset StatusCtx) ≤
      (q port).released) (h : Counted cfg load q) :
    Counted cfg (fun ctx => load ctx - ((a.completions.map Prod.fst).count ctx : Int))
      (processed port a q) := by
  intro ctx port'
  have hold := h ctx port
  have hcount := count_complete hdone ctx
  rw [Multiset.coe_count] at hcount
  unfold processed
  by_cases hport : port' = port
  · rw [hport, Function.update_self]
    split at hold
    · rw [if_pos ‹_›]
      dsimp only
      omega
    · rw [if_neg ‹_›]
      omega
  · rw [Function.update_of_ne hport, h ctx port']
    by_cases hhome : port' = home cfg ctx
    · rw [if_pos hhome, if_pos hhome]
      rw [if_neg (fun h => hport (hhome.trans h.symm))] at hold
      dsimp only
      omega
    · rw [if_neg hhome, if_neg hhome]

theorem held_added {pipe : Pipe} {ctx : StatusCtx} {port : Port}
    (h : portOf cfg pipe = port ∨ (q port).held = 0) :
    (added cfg pipe .noWait ctx q port).held = 0 := by
  unfold added
  by_cases hport : port = portOf cfg pipe
  · rw [hport, Function.update_self]
    rfl
  · rw [Function.update_of_ne hport]
    exact h.resolve_left (fun heq => hport heq.symm)

@[simp] theorem held_processed {a : Outcome} {port port' : Port} :
    (processed port a q port').held = (q port').held := by
  unfold processed
  by_cases hport : port' = port
  · rw [hport, Function.update_self, held_complete]
  · rw [Function.update_of_ne hport]

/-- The entries outstanding during an encrypt insertion. -/
def encryptLoad (st : Counters) : StatusCtx → Int
  | .hairpin => (st .hairpin).entriesInQueue
  | .encrypt => (st .encrypt).entriesInQueue
  | .decrypt => 0

/-- The queues hold what the counters say, at most `n` entries, and nothing is held back
on the ports that are flushed. -/
structure Sync (cfg : Config) (n : Nat) (unsecured secured : Prop) (load : StatusCtx → Int)
    (q : Queues Port StatusCtx) : Prop where
  counted : Counted cfg load q
  decrypt : load .decrypt = 0
  total : load .hairpin + load .encrypt ≤ n
  unsecuredFree : unsecured → (q (unsecuredPort cfg)).held = 0
  securedFree : secured → (q (securedPort cfg)).held = 0

/-- The insertion has room: the two kinds of entries are on different ports, or all fit
on one. -/
def Room (cfg : Config) (n : Nat) : Prop := cfg.flowMode = .vnf ∨ n ≤ 512

theorem Room.mono {m n : Nat} (h : Room cfg n) (hle : m ≤ n) : Room cfg m :=
  h.imp_right (fun hn => hle.trans hn)

variable {n : Nat} {fu fs : Prop} {load : StatusCtx → Int} {ctx : StatusCtx}

theorem Sync.fits (h : Sync cfg n fu fs load q) (hroom : Room cfg n)
    (hload : ∀ ctx, load ctx ≤ 512) : Fits depth q := by
  intro port
  rcases hroom with hmode | hn
  · have hh := h.counted .hairpin port
    have he := h.counted .encrypt port
    have hd := h.counted .decrypt port
    have hhl := hload .hairpin
    have hel := hload .encrypt
    have hhn := h.counted.nonneg .hairpin
    have hen := h.counted.nonneg .encrypt
    simp only [home, unsecuredPort, securedPort, hmode, reduceCtorEq, ↓reduceIte, h.decrypt,
      ite_self] at hh he hd
    rw [card_eq_counts, depth]
    cases port with
    | secured =>
      rw [if_neg nofun] at hh
      rw [if_pos rfl] at he
      omega
    | unsecured =>
      rw [if_pos rfl] at hh
      rw [if_neg nofun] at he
      omega
    | switch =>
      rw [if_neg nofun] at hh he
      omega
  · have hcard := h.counted.card_le port
    have htotal := h.total
    rw [h.decrypt] at hcard
    rw [depth]
    omega

/-- Between two entries both counters are below the depth of a queue. -/
def AtRest (cfg : Config) (n : Nat) (unsecured secured : Prop) : Cond := fun q st =>
  Sync cfg n unsecured secured (encryptLoad st) q ∧ ∀ ctx, encryptLoad st ctx < 512

/-- An entry was added that the counter does not know yet. -/
def Unnoted (cfg : Config) (n : Nat) (unsecured secured : Prop) (ctx : StatusCtx) : Cond :=
  fun q st => Sync cfg n unsecured secured
    (Function.update (encryptLoad st) ctx (encryptLoad st ctx + 1)) q ∧
      ∀ ctx, encryptLoad st ctx < 512

/-- The counter of one kind of entry may have reached the depth. -/
def Noted (cfg : Config) (n : Nat) (unsecured secured : Prop) (ctx : StatusCtx) : Cond :=
  fun q st => Sync cfg n unsecured secured (encryptLoad st) q ∧
    (∀ ctx' ≠ ctx, encryptLoad st ctx' < 512) ∧ encryptLoad st ctx ≤ 512

/-- A failure of the insertion leaves nothing to show. -/
def anyCond : Cond := fun _ _ => True

theorem errorsTo_any {J : Cond} : ErrorsTo answers J anyCond := fun _ _ _ _ _ _ => trivial

theorem Sync.added {pipe : Pipe} {flags : Flags} {fu' fs' : Prop}
    (hpipe : portOf cfg pipe = home cfg ctx) (hctx : ctx ≠ .decrypt)
    (hu : fu' → flags = .noWait ∧ (portOf cfg pipe = unsecuredPort cfg ∨ fu))
    (hs : fs' → flags = .noWait ∧ (portOf cfg pipe = securedPort cfg ∨ fs))
    (h : Sync cfg n fu fs load q) :
    Sync cfg (n + 1) fu' fs' (Function.update load ctx (load ctx + 1))
      (added cfg pipe flags ctx q) := by
  have htotal := h.total
  refine ⟨counted_added hpipe h.counted, ?_, ?_, fun hfree => ?_, fun hfree => ?_⟩
  · rw [Function.update_of_ne (Ne.symm hctx), h.decrypt]
  · cases ctx with
    | hairpin =>
      rw [Function.update_self, Function.update_of_ne (by decide)]
      push_cast
      omega
    | encrypt =>
      rw [Function.update_self, Function.update_of_ne (by decide)]
      push_cast
      omega
    | decrypt => exact absurd rfl hctx
  · obtain ⟨rfl, hport⟩ := hu hfree
    exact held_added (hport.imp_right h.unsecuredFree)
  · obtain ⟨rfl, hport⟩ := hs hfree
    exact held_added (hport.imp_right h.securedFree)

/-- One entry, as long as there is room for it. -/
theorem leads_add {pipe : Pipe} {m : Match} {actions : Option Actions} {flags : Flags}
    {fu' fs' : Prop} (hpipe : portOf cfg pipe = home cfg ctx) (hctx : ctx ≠ .decrypt)
    (hroom : Room cfg (n + 1))
    (hu : fu' → flags = .noWait ∧ (portOf cfg pipe = unsecuredPort cfg ∨ fu))
    (hs : fs' → flags = .noWait ∧ (portOf cfg pipe = securedPort cfg ∨ fs)) :
    Leads cfg True answers anyCond (AtRest cfg n fu fs) (pipeAddEntry pipe m actions flags ctx)
      (fun _ => Unnoted cfg (n + 1) fu' fs' ctx) := by
  refine leads_pipeAddEntry (fun q st h _ => ?_) errorsTo_any
  obtain ⟨hsync, hlt⟩ := h
  have hadded := hsync.added hpipe hctx hu hs
  refine ⟨fun _ => hadded.fits hroom (fun ctx' => ?_), fun _ => ⟨hadded, hlt⟩⟩
  by_cases heq : ctx' = ctx
  · rw [heq, Function.update_self]
    exact hlt ctx
  · rw [Function.update_of_ne heq]
    exact (hlt ctx').le

theorem encryptLoad_enlarged (hctx : ctx ≠ .decrypt) :
    encryptLoad (enlarged 1 ctx st) =
      Function.update (encryptLoad st) ctx (encryptLoad st ctx + 1) := by
  funext ctx'
  cases ctx <;> cases ctx' <;> first | rfl | exact absurd rfl hctx

theorem leads_note (hctx : ctx ≠ .decrypt) :
    Leads cfg True answers anyCond (Unnoted cfg n fu fs ctx) (enqueued 1 ctx)
      (fun _ => Noted cfg n fu fs ctx) := by
  refine leads_enqueued (fun q st h => ?_)
  obtain ⟨hsync, hlt⟩ := h
  refine ⟨?_, fun ctx' hne => ?_, ?_⟩
  · rw [encryptLoad_enlarged hctx]
    exact hsync
  · rw [encryptLoad_enlarged hctx, Function.update_of_ne hne]
    exact hlt ctx'
  · rw [encryptLoad_enlarged hctx, Function.update_self]
    exact hlt ctx

theorem Sync.processed {a : Outcome} {port : Port}
    (hdone : ((a.completions.map Prod.fst : List StatusCtx) : Multiset StatusCtx) ≤
      (q port).released) (h : Sync cfg n fu fs (encryptLoad st) q) :
    Sync cfg n fu fs (encryptLoad (completed st a.completions)) (processed port a q) ∧
      ∀ ctx, encryptLoad (completed st a.completions) ctx ≤ encryptLoad st ctx := by
  have hcounted := counted_processed hdone h.counted
  have hnone : (a.completions.map Prod.fst).count .decrypt = 0 := by
    have hle := hcounted.nonneg .decrypt
    have hd := h.decrypt
    omega
  have hload : (fun ctx => encryptLoad st ctx - ((a.completions.map Prod.fst).count ctx : Int)) =
      encryptLoad (completed st a.completions) := by
    funext ctx
    cases ctx with
    | hairpin => exact (completed_entries ..).symm
    | encrypt => exact (completed_entries ..).symm
    | decrypt =>
      rw [hnone]
      rfl
  have hle : ∀ ctx, encryptLoad (completed st a.completions) ctx ≤ encryptLoad st ctx := by
    intro ctx
    rw [← hload]
    exact Int.sub_le_self _ (Int.natCast_nonneg _)
  rw [hload] at hcounted
  have hh := hle .hairpin
  have he := hle .encrypt
  have htotal := h.total
  refine ⟨⟨hcounted, rfl, by omega, fun hu => ?_, fun hs => ?_⟩, hle⟩
  · rw [held_processed, h.unsecuredFree hu]
  · rw [held_processed, h.securedFree hs]

/-- The call that is made when a counter is at the depth brings it below, or fails. -/
theorem leads_flush {port : Port} (hctx : ctx ≠ .decrypt) (g : Gateway) :
    Leads cfg True answers anyCond (fun q st => Noted cfg n fu fs ctx q st ∧ st = g.status)
      (processIf ((g.status ctx).entriesInQueue = queueDepth) port ctx)
      (fun _ => AtRest cfg n fu fs) := by
  have hload : ∀ st, encryptLoad st ctx = (st ctx).entriesInQueue := by
    intro st
    cases ctx with
    | hairpin => rfl
    | encrypt => rfl
    | decrypt => exact absurd rfl hctx
  refine leads_processIf (fun _ => leads_processEntries ?_) ?_
  · rintro q st a ⟨⟨hsync, hother, hle⟩, -⟩ - - hdone
    obtain ⟨hsync', hle'⟩ := hsync.processed hdone
    split
    · rename_i hgood
      refine ⟨hsync', fun ctx' => ?_⟩
      by_cases heq : ctx' = ctx
      · rw [heq, hload]
        have hle1 := (hle' ctx).trans hle
        rw [hload] at hle1
        exact lt_of_le_of_ne hle1 (fun h => hgood.2 (.inr h))
      · exact lt_of_le_of_lt (hle' ctx') (hother ctx' heq)
    · trivial
  · rintro hnot q st ⟨⟨hsync, hother, hle⟩, rfl⟩ -
    refine ⟨hsync, fun ctx' => ?_⟩
    by_cases heq : ctx' = ctx
    · rw [heq, hload]
      rw [hload] at hle
      exact lt_of_le_of_ne hle hnot
    · exact hother ctx' heq

theorem AtRest.weaken {m : Nat} {fu' fs' : Prop} (h : AtRest cfg m fu fs q st) (hle : m ≤ n)
    (hu : fu' → fu) (hs : fs' → fs) : AtRest cfg n fu' fs' q st := by
  obtain ⟨hsync, hlt⟩ := h
  have htotal := hsync.total
  exact ⟨⟨hsync.counted, hsync.decrypt, by omega, fun h => hsync.unsecuredFree (hu h),
    fun h => hsync.securedFree (hs h)⟩, hlt⟩

/-- A port that is neither of the two has no entries at all. -/
theorem Sync.free (h : Sync cfg n True True load q) (port : Port) : (q port).held = 0 := by
  by_cases hu : port = unsecuredPort cfg
  · rw [hu]
    exact h.unsecuredFree trivial
  by_cases hs : port = securedPort cfg
  · rw [hs]
    exact h.securedFree trivial
  have hcount : ∀ ctx, (q port).all.count ctx = 0 := by
    intro ctx
    have hc := h.counted ctx port
    have hhome : port ≠ home cfg ctx := by
      cases ctx with
      | hairpin => exact hu
      | encrypt => exact hs
      | decrypt => exact hs
    rw [if_neg hhome] at hc
    exact_mod_cast hc
  have hcard : (q port).all.card = 0 := by
    rw [card_eq_counts, hcount, hcount, hcount]
  have hall := Multiset.card_eq_zero.mp hcard
  rw [Queue.all, add_eq_zero] at hall
  exact hall.1

theorem portOf_getPipeForRule (rule : EncryptRule) (srcIp6 : Bool) :
    portOf cfg (getPipeForRule rule srcIp6) = unsecuredPort cfg := by
  unfold getPipeForRule
  repeat' split
  all_goals rfl

theorem portOf_encryptPipe (rule : EncryptRule) :
    portOf cfg (encryptPipe cfg rule) = securedPort cfg := by
  unfold encryptPipe
  repeat' split
  all_goals rfl

theorem leads_addSrcIp6Entry (rule : EncryptRule) (id : BitVec 32) (hroom : Room cfg (n + 1)) :
    Leads cfg True answers anyCond (AtRest cfg n False False)
      (addSrcIp6Entry (unsecuredPort cfg) rule id)
      (fun _ => AtRest cfg (n + 1) False False) := by
  have hctx : StatusCtx.hairpin ≠ .decrypt := nofun
  unfold addSrcIp6Entry
  refine Leads.get_bind (fun g => Leads.bind ((leads_add (portOf_getPipeForRule rule true) hctx
    hroom False.elim False.elim).pre (fun _ _ h _ => h.1)) (fun _ => ?_))
  exact Leads.bind (leads_note hctx) (fun _ => Leads.get_bind (fun g => leads_flush hctx g))

theorem leads_srcIpIdFor (rule : EncryptRule) (table : List (Ip6Addr × Nat))
    (hroom : Room cfg (n + encryptEntries rule)) :
    Leads cfg True answers anyCond (AtRest cfg n False False)
      (srcIpIdFor (unsecuredPort cfg) rule table)
      (fun _ => AtRest cfg (n + (encryptEntries rule - 2)) False False) := by
  unfold srcIpIdFor
  by_cases h6 : rule.l3Type = .ip6
  · have hentries : encryptEntries rule = 3 := if_pos h6
    rw [if_pos h6, hentries]
    rw [hentries] at hroom
    split
    · exact Leads.throw _ (fun _ _ _ _ => trivial)
    · exact Leads.bind (leads_addSrcIp6Entry rule _ (hroom.mono (by omega)))
        (fun _ => Leads.pure _ (fun _ _ h _ => h))
  · have hentries : encryptEntries rule = 2 := if_neg h6
    rw [if_neg h6, hentries]
    exact Leads.pure _ (fun _ _ h _ => h)

theorem two_le_encryptEntries (rule : EncryptRule) : 2 ≤ encryptEntries rule := by
  unfold encryptEntries
  split <;> omega

theorem leads_addFiveTupleMatchEntry (rule : EncryptRule) (nbRules i : Nat)
    (table : List (Ip6Addr × Nat)) (hroom : Room cfg (n + encryptEntries rule)) :
    Leads cfg True answers anyCond (AtRest cfg n False False)
      (addFiveTupleMatchEntry (unsecuredPort cfg) rule nbRules i table)
      (fun _ => AtRest cfg (n + (encryptEntries rule - 1)) (i + 1 = nbRules) False) := by
  have htwo := two_le_encryptEntries rule
  have hone : n + (encryptEntries rule - 1) = n + (encryptEntries rule - 2) + 1 := by omega
  have hctx : StatusCtx.hairpin ≠ .decrypt := nofun
  have hpipe : portOf cfg (getPipeForRule rule false) = unsecuredPort cfg :=
    portOf_getPipeForRule rule false
  rw [hone]
  refine Leads.bind (leads_srcIpIdFor rule table hroom) (fun id => Leads.get_bind (fun g => ?_))
  have hflags : i + 1 = nbRules → (if (i : Int) = nbRules - 1 ∨
      g.hairpinStatus.entriesInQueue = queueDepth - 1 then Flags.noWait
      else Flags.waitForBatch) = .noWait := fun hlast => if_pos (.inl (by omega))
  refine Leads.bind ((leads_add hpipe hctx (hroom.mono (by omega))
    (fun hlast => ⟨hflags hlast, .inl hpipe⟩) False.elim).pre (fun _ _ h _ => h.1)) (fun _ => ?_)
  exact Leads.bind (leads_note hctx) (fun _ => Leads.get_bind (fun g => leads_flush hctx g))

/-- One rule; the last one leaves nothing held back. -/
theorem leads_encryptRule {rest : Cmd Unit} {K : Unit → Cond} (rule : EncryptRule)
    (nbRules i : Nat) (table : List (Ip6Addr × Nat)) (last : Actions)
    (hroom : Room cfg (n + encryptEntries rule))
    (hrest : Leads cfg True answers anyCond
      (AtRest cfg (n + encryptEntries rule) (i + 1 = nbRules) (i + 1 = nbRules)) rest K) :
    Leads cfg True answers anyCond (AtRest cfg n False False)
      (do
        let sa ← createIpsecSa cfg rule.saAttrs (setEncryptSa i)
        addFiveTupleMatchEntry (unsecuredPort cfg) rule nbRules i table
        createIpsecSharedObject (securedPort cfg) sa (BitVec.ofNat 32 i)
        let m := { Match.zero with pktMeta := BitVec.ofNat 32 i }
        let actions := encryptActions cfg rule i last
        let flags := if (i : Int) = nbRules - 1 ∨
            (← get).encryptStatus.entriesInQueue = queueDepth - 1 then Flags.noWait
          else Flags.waitForBatch
        pipeAddEntry (encryptPipe cfg rule) m (some actions) flags .encrypt
        enqueued 1 .encrypt
        processIf ((← get).encryptStatus.entriesInQueue = queueDepth) (securedPort cfg) .encrypt
        rest) K := by
  have htwo := two_le_encryptEntries rule
  have hone : n + encryptEntries rule = n + (encryptEntries rule - 1) + 1 := by omega
  rw [hone] at hrest
  have hctx : StatusCtx.encrypt ≠ .decrypt := nofun
  have hpipe : portOf cfg (encryptPipe cfg rule) = securedPort cfg := portOf_encryptPipe rule
  refine Leads.bind (leads_createIpsecSa (fun _ _ => ⟨rfl, rfl, rfl⟩) errorsTo_any)
    (fun sa => ?_)
  refine Leads.bind (leads_addFiveTupleMatchEntry rule nbRules i table hroom) (fun _ => ?_)
  refine Leads.bind (leads_createIpsecSharedObject errorsTo_any) (fun _ => ?_)
  refine Leads.get_bind (fun g => ?_)
  have hflags : i + 1 = nbRules → (if (i : Int) = nbRules - 1 ∨
      g.encryptStatus.entriesInQueue = queueDepth - 1 then Flags.noWait
      else Flags.waitForBatch) = .noWait := fun hlast => if_pos (.inl (by omega))
  refine Leads.bind ((leads_add hpipe hctx (hroom.mono (by omega))
    (fun hlast => ⟨hflags hlast, .inr hlast⟩)
    (fun hlast => ⟨hflags hlast, .inl hpipe⟩)).pre (fun _ _ h _ => h.1)) (fun _ => ?_)
  refine Leads.bind (leads_note hctx) (fun _ => Leads.get_bind (fun g => ?_))
  exact Leads.bind (leads_flush hctx g) (fun _ => hrest)

/-- The entries of a rule list. -/
def encryptTotal (table : List (Ip6Addr × Nat)) (rules : List EncryptRule) : Nat :=
  ((installable table rules).map encryptEntries).sum

theorem encryptTotal_cons {table : List (Ip6Addr × Nat)} {rule : EncryptRule}
    (rules : List EncryptRule) (h : rule.l3Type = .ip6 → (table.lookup rule.ip6Dst).isSome) :
    encryptTotal table (rule :: rules) = encryptEntries rule + encryptTotal table rules := by
  have hgood : (decide (rule.l3Type ≠ .ip6) || (table.lookup rule.ip6Dst).isSome) = true := by
    by_cases h6 : rule.l3Type = .ip6
    · rw [h h6, Bool.or_true]
    · rw [decide_eq_true h6, Bool.true_or]
  rw [encryptTotal, installable, List.takeWhile_cons, hgood]
  rfl

theorem addFiveTupleMatchEntry_unknown {port : Port} {rule : EncryptRule} {nbRules i : Nat}
    {table : List (Ip6Addr × Nat)} {f : Unit → Cmd Unit} (h6 : rule.l3Type = .ip6)
    (hnone : table.lookup rule.ip6Dst = none) :
    (addFiveTupleMatchEntry port rule nbRules i table >>= f) = throw .notFound := by
  unfold addFiveTupleMatchEntry srcIpIdFor
  rw [if_pos h6, hnone]
  rfl

theorem leads_addEncryptEntriesFrom (nbRules : Nat) (table : List (Ip6Addr × Nat))
    (rules : List EncryptRule) (i : Nat) (last : Actions) (hi : i + rules.length = nbRules)
    (hroom : Room cfg (n + encryptTotal table rules)) :
    Leads cfg True answers anyCond (AtRest cfg n (rules = []) (rules = []))
      (addEncryptEntriesFrom cfg nbRules table i rules last)
      (fun _ => AtRest cfg (n + encryptTotal table rules) True True) := by
  induction rules generalizing n i last with
  | nil => exact Leads.pure _ (fun _ _ h _ => h.weaken (Nat.le_add_right ..) (fun _ => rfl)
      (fun _ => rfl))
  | cons rule rules ih =>
    by_cases hgood : rule.l3Type = .ip6 → (table.lookup rule.ip6Dst).isSome
    · rw [encryptTotal_cons rules hgood, ← Nat.add_assoc] at hroom ⊢
      rw [List.length_cons] at hi
      have hlast : i + 1 = nbRules ↔ rules = [] := by
        rw [← List.length_eq_zero_iff]
        omega
      refine (leads_encryptRule rule nbRules i table last (hroom.mono (Nat.le_add_right ..))
        ?_).pre (fun _ _ h _ => h.weaken (le_refl _) False.elim False.elim)
      exact (ih (i + 1) _ (by omega) hroom).pre (fun _ _ h _ => h.weaken (le_refl _)
        hlast.mpr hlast.mpr)
    · rw [Classical.not_imp] at hgood
      refine Leads.bind (leads_createIpsecSa (fun _ _ => ⟨rfl, rfl, rfl⟩) errorsTo_any)
        (fun sa => ?_)
      rw [addFiveTupleMatchEntry_unknown hgood.1 (Option.not_isSome_iff_eq_none.mp hgood.2)]
      exact Leads.throw DocaError.notFound (fun _ _ _ _ => trivial)

/-- The insertion is safe when there is room for the entries of its rules. -/
theorem leads_encryptLoop (rules : List EncryptRule) (table : List (Ip6Addr × Nat))
    (hroom : Room cfg (encryptTotal table rules)) :
    Leads cfg True answers anyCond (fun q _ => q = .empty) (encryptLoop cfg rules table)
      (fun _ => AtRest cfg (encryptTotal table rules) True True) := by
  unfold encryptLoop
  rw [← Nat.zero_add (encryptTotal table rules)] at hroom ⊢
  refine Leads.bind (Leads.modify (K := fun _ => AtRest cfg 0 True True)
    (fun g => ⟨rfl, rfl⟩) ?_) (fun _ => ?_)
  · rintro q g rfl
    refine ⟨⟨fun ctx port => ?_, rfl, le_refl _, fun _ => rfl, fun _ => rfl⟩, fun ctx => ?_⟩
    · cases ctx <;> simp [Queues.empty, Queue.all, encryptLoad, Gateway.status,
        Gateway.setStatus, EntriesStatus.zero]
    · cases ctx <;> simp [encryptLoad, Gateway.status, Gateway.setStatus, EntriesStatus.zero]
  · exact (leads_addEncryptEntriesFrom rules.length table rules 0 .zero (Nat.zero_add _) hroom).pre
      (fun _ _ h _ => h.weaken (le_refl _) (fun _ => trivial) (fun _ => trivial))

theorem leads_processEntries_any {J : Cond} {port : Port} :
    Leads cfg True answers anyCond J (processEntries port ctx) (fun _ => anyCond) :=
  leads_processEntries (fun _ _ _ _ _ _ _ => by split <;> trivial)

theorem leads_drain_any {J : Cond} {port : Port} :
    Leads cfg True answers anyCond J (drain port ctx) (fun _ => anyCond) :=
  (leads_drain leads_processEntries_any).pre (fun _ _ _ _ => trivial)

theorem addEncryptEntries_eq (rules : List EncryptRule) (table : List (Ip6Addr × Nat)) :
    addEncryptEntries cfg rules table = (do
      encryptLoop cfg rules table
      drain (securedPort cfg) .encrypt
      drain (unsecuredPort cfg) .hairpin) := by
  simp only [addEncryptEntries, encryptLoop, bind_assoc]

theorem encrypt_respects (rules : List EncryptRule) (table : List (Ip6Addr × Nat))
    (hroom : Room cfg (encryptTotal table rules)) :
    Respects cfg (encryptLoop cfg rules table) (addEncryptEntries cfg rules table) := by
  constructor
  · intro answers g
    have hleads : Leads cfg True answers anyCond (fun q _ => q = .empty)
        (addEncryptEntries cfg rules table) (fun _ => anyCond) := by
      rw [addEncryptEntries_eq]
      exact Leads.bind (leads_encryptLoop rules table hroom)
        (fun _ => Leads.bind leads_drain_any (fun _ => leads_drain_any))
    exact (hleads.run _ (tracks_awaiting rfl)).mono (fun _ _ h => h.bounded trivial)
      (fun _ _ h => h.bounded trivial)
  · intro answers g
    refine ((leads_encryptLoop rules table hroom).run _ (tracks_awaiting rfl)).mono
      (fun _ t h hlen hdoc port => ?_) (fun _ _ _ => trivial)
    exact (h.cond ⟨hlen, hdoc, h.bounded trivial hdoc⟩).1.free port

end DocaApps.Proofs.BulkInsertion
