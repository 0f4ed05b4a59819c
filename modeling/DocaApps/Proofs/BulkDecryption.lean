import DocaApps.Proofs.BulkInsertion

namespace DocaApps.Proofs.BulkDecryption
open Lib.Endings Lib.EntryQueue Ipsec.Rules Ipsec.Encap Ipsec.FlowCommon Ipsec.FlowDecrypt
open Ipsec.BulkInsertion Proofs.FlowCommon Proofs.BulkTracking Proofs.BulkInsertion

variable {cfg : Config} {answers : List Outcome} {q : Queues Port StatusCtx} {st : Counters}
  {n : Nat} {free free' : Prop} {ctx : StatusCtx}

/-- At most `n` entries are outstanding, all on the secured port, and none of them is held
back when it is free. -/
structure Loaded (cfg : Config) (n : Nat) (free : Prop) (q : Queues Port StatusCtx) : Prop where
  few : ∀ port, (q port).all.card ≤ n
  elsewhere : ∀ port, port ≠ securedPort cfg → (q port).held = 0
  released : free → (q (securedPort cfg)).held = 0

theorem Loaded.weaken (h : Loaded cfg n free q) (hf : free' → free) : Loaded cfg n free' q :=
  ⟨h.few, h.elsewhere, fun h' => h.released (hf h')⟩

theorem Loaded.added {pipe : Pipe} {flags : Flags} (hpipe : portOf cfg pipe = securedPort cfg)
    (hflags : free' → flags = .noWait) (h : Loaded cfg n free q) :
    Loaded cfg (n + 1) free' (added cfg pipe flags ctx q) := by
  unfold BulkTracking.added
  rw [hpipe]
  refine ⟨fun port => ?_, fun port hport => ?_, fun hfree => ?_⟩
  · by_cases hport : port = securedPort cfg
    · rw [hport, Function.update_self, card_add]
      exact Nat.add_le_add_right (h.few _) 1
    · rw [Function.update_of_ne hport]
      exact (h.few port).trans (Nat.le_succ n)
  · rw [Function.update_of_ne hport]
    exact h.elsewhere port hport
  · rw [hflags hfree, Function.update_self]
    rfl

theorem Loaded.processed {port : Port} {a : Outcome} (h : Loaded cfg n free q) :
    Loaded cfg n free (processed port a q) := by
  refine ⟨fun port' => ?_, fun port' hport => ?_, fun hfree => ?_⟩
  · unfold BulkTracking.processed
    by_cases hport : port' = port
    · rw [hport, Function.update_self]
      exact card_complete_le.trans (h.few port)
    · rw [Function.update_of_ne hport]
      exact h.few port'
  · rw [held_processed]
    exact h.elsewhere port' hport
  · rw [held_processed]
    exact h.released hfree

theorem leads_load {pipe : Pipe} {m : Match} {actions : Option Actions} {flags : Flags}
    (hpipe : portOf cfg pipe = securedPort cfg) (hn : n + 1 ≤ 512)
    (hflags : free' → flags = .noWait) :
    Leads cfg True answers anyCond (fun q _ => Loaded cfg n free q)
      (pipeAddEntry pipe m actions flags ctx) (fun _ q _ => Loaded cfg (n + 1) free' q) := by
  refine leads_pipeAddEntry (fun q st h _ => ?_) errorsTo_any
  have hadded : Loaded cfg (n + 1) free' (BulkTracking.added cfg pipe flags ctx q) :=
    h.added hpipe hflags
  exact ⟨fun _ port => (hadded.few port).trans hn, fun _ => hadded⟩

theorem leads_enqueued_loaded {k : Int} :
    Leads cfg True answers anyCond (fun q _ => Loaded cfg n free q) (enqueued k ctx)
      (fun _ q _ => Loaded cfg n free q) := leads_enqueued (fun _ _ h => h)

theorem leads_process_loaded {full : Prop} [Decidable full] {port : Port} :
    Leads cfg True answers anyCond (fun q _ => Loaded cfg n free q) (processIf full port ctx)
      (fun _ q _ => Loaded cfg n free q) := by
  refine leads_processIf (fun _ => leads_processEntries (fun q st a h _ _ _ => ?_))
    (fun _ _ _ h _ => h)
  split
  · exact h.processed
  · trivial

theorem leads_addBadSyndromePipeEntry {pipe : Pipe} {i : Nat} {flags : Flags}
    (hpipe : portOf cfg pipe = securedPort cfg) (hn : n + 4 ≤ 512)
    (hflags : free' → flags = .noWait) :
    Leads cfg True answers anyCond (fun q _ => Loaded cfg n False q)
      (addBadSyndromePipeEntry pipe i flags) (fun _ q _ => Loaded cfg (n + 4) free' q) := by
  refine Leads.bind (leads_load hpipe (by omega) False.elim) (fun _ => ?_)
  refine Leads.bind (leads_load hpipe (by omega) False.elim) (fun _ => ?_)
  refine Leads.bind (leads_load hpipe (by omega) False.elim) (fun _ => ?_)
  exact leads_load hpipe hn hflags

theorem portOf_decryptPipe (rule : DecryptRule) :
    portOf cfg (decryptPipe rule) = securedPort cfg := by
  unfold decryptPipe
  split <;> rfl

theorem portOf_syndromePipe (rule : DecryptRule) :
    portOf cfg (syndromePipe rule) = securedPort cfg := by
  unfold syndromePipe
  split <;> rfl

theorem portOf_badSyndromePipe (rule : DecryptRule) :
    portOf cfg (badSyndromePipe rule) = securedPort cfg := by
  unfold badSyndromePipe
  split <;> rfl

/-- Six entries for each rule; the last rule leaves nothing held back. -/
theorem leads_addDecryptEntriesFrom (nbRules nb : Nat) (rules : List DecryptRule) (i : Nat)
    (last : Match) (lastActions : Actions) (hi : i + rules.length = nbRules)
    (hfew : nbRules ≤ 85) :
    Leads cfg True answers anyCond (fun q _ => Loaded cfg (6 * i) (rules = []) q)
      (addDecryptEntriesFrom cfg nbRules nb i rules last lastActions)
      (fun _ q _ => Loaded cfg (6 * nbRules) True q) := by
  induction rules generalizing i last lastActions with
  | nil =>
    obtain rfl : i = nbRules := hi
    exact Leads.pure _ (fun _ _ h _ => h.weaken (fun _ => rfl))
  | cons rule rules ih =>
    rw [List.length_cons] at hi
    have hlast : rules = [] → i + 1 = nbRules := by
      rintro rfl
      exact hi
    refine Leads.get_bind (fun g => ?_)
    have hflags : rules = [] → (if (i : Int) = nbRules - 1 ∨
        g.decryptStatus.entriesInQueue = queueDepth - 8 then Flags.noWait
        else Flags.waitForBatch) = .noWait := fun h => if_pos (.inl (by have := hlast h; omega))
    have hsa : Leads cfg True answers anyCond (fun q _ => Loaded cfg (6 * i) False q)
        (createIpsecSa cfg rule.saAttrs (setDecryptSa i))
        (fun _ q _ => Loaded cfg (6 * i) False q) :=
      leads_createIpsecSa (fun _ _ => ⟨rfl, rfl, rfl⟩) errorsTo_any
    refine Leads.bind (hsa.pre (fun _ _ h _ => h.1.weaken False.elim)) (fun sa => ?_)
    refine Leads.bind (leads_createIpsecSharedObject errorsTo_any) (fun _ => ?_)
    refine Leads.bind (leads_load (portOf_decryptPipe rule) (by omega) False.elim) (fun _ => ?_)
    refine Leads.bind leads_enqueued_loaded (fun _ => ?_)
    refine Leads.bind (leads_load (portOf_syndromePipe rule) (by omega) False.elim) (fun _ => ?_)
    refine Leads.bind leads_enqueued_loaded (fun _ => ?_)
    refine Leads.bind (leads_addBadSyndromePipeEntry (portOf_badSyndromePipe rule) (by omega)
      hflags) (fun _ => ?_)
    refine Leads.bind leads_enqueued_loaded (fun _ => ?_)
    refine Leads.get_bind (fun g' => Leads.bind (leads_process_loaded.pre
      (fun _ _ h _ => h.1)) (fun _ => ?_))
    exact ih (i + 1) _ _ (by omega)

theorem leads_decryptLoop (rules : List DecryptRule) (nb : Nat) (hfew : rules.length ≤ 85) :
    Leads cfg True answers anyCond (fun q _ => q = .empty) (decryptLoop cfg rules nb)
      (fun _ q _ => Loaded cfg (6 * rules.length) True q) := by
  unfold decryptLoop
  refine Leads.bind (Leads.modify (K := fun _ q _ => Loaded cfg (6 * 0) True q)
    (fun g => ⟨rfl, rfl⟩) ?_) (fun _ => ?_)
  · rintro q g rfl
    exact ⟨fun _ => le_refl _, fun _ _ => rfl, fun _ => rfl⟩
  · exact (leads_addDecryptEntriesFrom rules.length nb rules 0 _ _ (Nat.zero_add _) hfew).pre
      (fun _ _ h _ => h.weaken (fun _ => trivial))

theorem addDecryptEntries_eq (rules : List DecryptRule) (nb : Nat) :
    addDecryptEntries cfg rules nb = (do
      decryptLoop cfg rules nb
      drain (securedPort cfg) .decrypt) := by
  simp only [addDecryptEntries, decryptLoop, bind_assoc]

theorem decrypt_respects (rules : List DecryptRule) (nb : Nat) (hfew : rules.length ≤ 85) :
    Respects cfg (decryptLoop cfg rules nb) (addDecryptEntries cfg rules nb) := by
  constructor
  · intro answers g
    have hleads : Leads cfg True answers anyCond (fun q _ => q = .empty)
        (addDecryptEntries cfg rules nb) (fun _ => anyCond) := by
      rw [addDecryptEntries_eq]
      exact Leads.bind (leads_decryptLoop rules nb hfew) (fun _ => leads_drain_any)
    exact (hleads.run _ (tracks_awaiting rfl)).mono (fun _ _ h => h.bounded trivial)
      (fun _ _ h => h.bounded trivial)
  · intro answers g
    refine ((leads_decryptLoop rules nb hfew).run _ (tracks_awaiting rfl)).mono
      (fun _ t h hlen hdoc port => ?_) (fun _ _ _ => trivial)
    have hloaded := h.cond ⟨hlen, hdoc, h.bounded trivial hdoc⟩
    by_cases hport : port = securedPort cfg
    · rw [hport]
      exact hloaded.released trivial
    · exact hloaded.elsewhere port hport

end DocaApps.Proofs.BulkDecryption
