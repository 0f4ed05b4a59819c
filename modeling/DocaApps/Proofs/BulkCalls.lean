import DocaApps.Proofs.BulkTracking

namespace DocaApps.Proofs.BulkCalls
open Lib.Endings Ipsec.Rules Ipsec.Encap Ipsec.FlowCommon Ipsec.FlowEncrypt Ipsec.FlowDecrypt
open Ipsec.BulkInsertion Proofs.FlowCommon Proofs.BulkTracking

variable {cfg : Config}

/-- A call is one entry of the trace. -/
theorem grows_libCall (call : LibCall) : Grows Gateway.trace 1 (libCall call) :=
  ⟨fun _ => ends_libCall.mpr ⟨_, rfl, le_refl _⟩⟩

theorem trace_untouched (cs : List (StatusCtx × Bool)) (g : Gateway) :
    (cs.foldl (fun g (ctx, success) =>
      g.setStatus ctx (checkForValidEntry success (g.status ctx))) g).trace = g.trace :=
  (callbacks_gateway cs g).1

theorem grows_answer (e : Option DocaError) : Grows Gateway.trace 0
    (match e with
      | some e => throw e
      | none => pure () : Cmd Unit) := by
  cases e with
  | none => exact (Steady.pure _).grows
  | some e => exact (Steady.throw e).grows

theorem grows_libCheck (call : LibCall) : Grows Gateway.trace 1 (libCheck call) :=
  Grows.bind (grows_libCall call) (fun a => grows_answer a.error) (le_refl _)

theorem grows_pipeAddEntry (pipe : Pipe) (m : Match) (actions : Option Actions) (flags : Flags)
    (ctx : StatusCtx) : Grows Gateway.trace 1 (pipeAddEntry pipe m actions flags ctx) :=
  grows_libCheck _

theorem steady_enqueued (k : Int) (ctx : StatusCtx) : Steady Gateway.trace (enqueued k ctx) :=
  Steady.modify (fun _ => trace_setStatus ..)

theorem grows_processEntries (port : Port) (ctx : StatusCtx) :
    Grows Gateway.trace 1 (processEntries port ctx) := by
  refine Grows.get_bind (fun g => Grows.bind (m := 1) (n := 0) ?_
    (fun _ => Grows.get_bind (fun g => ?_)) (le_refl _))
  · exact Grows.bind (grows_libCall _) (fun a => Steady.grows_bind
      (Steady.modify (trace_untouched a.completions)) (fun _ => grows_answer a.error)) (le_refl _)
  · exact (Steady.ite (Steady.throw _) (Steady.pure _)).grows

theorem grows_processIf (full : Prop) [Decidable full] (port : Port) (ctx : StatusCtx) :
    Grows Gateway.trace 1 (processIf full port ctx) := by
  unfold processIf
  split
  · exact grows_processEntries port ctx
  · exact (Steady.pure _).grows

theorem grows_drainLoop (port : Port) (ctx : StatusCtx) (n : Nat) :
    Grows Gateway.trace (n + 1) (drainLoop port ctx n) := by
  induction n with
  | zero => exact grows_processEntries port ctx
  | succ n ih =>
    refine Grows.bind (n := n + 1) (grows_processEntries port ctx)
      (fun _ => Grows.get_bind (fun g => ?_)) (by omega)
    split
    · exact ih
    · exact (Steady.pure _).grows

theorem longer_drain (port : Port) (ctx : StatusCtx) (g : Gateway) :
    Settles (drain port ctx) (fun t => g.trace <+: t.trace) g := by
  refine ends_bind.mpr (ends_get.mpr ?_)
  refine ((grows_drainLoop port ctx g.outcomes.length).settles g).mono (fun _ t h => ?_)
    (fun _ t h => ?_)
  all_goals
    obtain ⟨new, hnew, -⟩ := h
    exact ⟨new, hnew.symm⟩

theorem grows_createIpsecSharedObject (port : Port) (sa : Sa) (id : BitVec 32) :
    Grows Gateway.trace 2 (createIpsecSharedObject port sa id) :=
  Grows.bind (grows_libCheck _) (fun _ => grows_libCheck _) (le_refl _)

theorem grows_createIpsecSa (attrs : SaAttrs) {store : Sa → Gateway → Gateway}
    (hstore : ∀ sa g, (store sa g).trace = g.trace) :
    Grows Gateway.trace 3 (createIpsecSa cfg attrs store) := by
  refine Grows.bind (n := 2) (grows_libCheck _) (fun _ => ?_) (le_refl _)
  refine Grows.bind (n := 1) (grows_libCheck _) (fun _ => ?_) (le_refl _)
  refine Grows.bind (n := 0) (grows_libCall _) (fun a => ?_) (le_refl _)
  refine Steady.grows_bind (Steady.modify (hstore a.sa)) (fun _ => ?_)
  cases a.error with
  | none => exact (Steady.pure _).grows
  | some e => exact (Steady.throw e).grows

theorem grows_addSrcIp6Entry (port : Port) (rule : EncryptRule) (id : BitVec 32) :
    Grows Gateway.trace 2 (addSrcIp6Entry port rule id) := by
  refine Grows.get_bind (fun g => Grows.bind (n := 1) (grows_pipeAddEntry ..) (fun _ => ?_)
    (le_refl _))
  exact Steady.grows_bind (steady_enqueued ..) (fun _ => Grows.get_bind
    (fun g => grows_processIf ..))

theorem grows_srcIpIdFor (port : Port) (rule : EncryptRule) (table : List (Ip6Addr × Nat)) :
    Grows Gateway.trace 2 (srcIpIdFor port rule table) := by
  unfold srcIpIdFor
  split
  · split
    · exact (Steady.throw _).grows
    · exact Grows.bind (n := 0) (grows_addSrcIp6Entry ..) (fun _ => (Steady.pure _).grows)
        (le_refl _)
  · exact (Steady.pure _).grows

theorem grows_addFiveTupleMatchEntry (port : Port) (rule : EncryptRule) (nbRules i : Nat)
    (table : List (Ip6Addr × Nat)) :
    Grows Gateway.trace 4 (addFiveTupleMatchEntry port rule nbRules i table) := by
  refine Grows.bind (n := 2) (grows_srcIpIdFor ..) (fun _ => Grows.get_bind (fun g => ?_))
    (le_refl _)
  refine Grows.bind (n := 1) (grows_pipeAddEntry ..) (fun _ => ?_) (le_refl _)
  exact Steady.grows_bind (steady_enqueued ..) (fun _ => Grows.get_bind
    (fun g => grows_processIf ..))

theorem grows_addEncryptEntriesFrom (nbRules : Nat) (table : List (Ip6Addr × Nat))
    (rules : List EncryptRule) (i : Nat) (last : Actions) :
    Grows Gateway.trace (11 * rules.length)
      (addEncryptEntriesFrom cfg nbRules table i rules last) := by
  induction rules generalizing i last with
  | nil => exact (Steady.pure _).grows
  | cons rule rules ih =>
    rw [List.length_cons, Nat.mul_succ]
    refine Grows.bind (n := 11 * rules.length + 8) (grows_createIpsecSa _ (fun _ _ => rfl))
      (fun sa => ?_) (by omega)
    refine Grows.bind (n := 11 * rules.length + 4) (grows_addFiveTupleMatchEntry ..)
      (fun _ => ?_) (by omega)
    refine Grows.bind (n := 11 * rules.length + 2) (grows_createIpsecSharedObject ..)
      (fun _ => Grows.get_bind (fun g => ?_)) (by omega)
    refine Grows.bind (n := 11 * rules.length + 1) (grows_pipeAddEntry ..) (fun _ => ?_)
      (by omega)
    refine Steady.grows_bind (steady_enqueued ..) (fun _ => Grows.get_bind (fun g => ?_))
    exact Grows.bind (grows_processIf ..) (fun _ => ih (i + 1) _) (by omega)

theorem grows_addBadSyndromePipeEntry (pipe : Pipe) (i : Nat) (flags : Flags) :
    Grows Gateway.trace 4 (addBadSyndromePipeEntry pipe i flags) := by
  refine Grows.bind (n := 3) (grows_pipeAddEntry ..) (fun _ => ?_) (le_refl _)
  refine Grows.bind (n := 2) (grows_pipeAddEntry ..) (fun _ => ?_) (le_refl _)
  exact Grows.bind (n := 1) (grows_pipeAddEntry ..) (fun _ => grows_pipeAddEntry ..) (le_refl _)

theorem grows_addDecryptEntriesFrom (nbRules nb : Nat) (rules : List DecryptRule) (i : Nat)
    (last : Match) (lastActions : Actions) :
    Grows Gateway.trace (12 * rules.length)
      (addDecryptEntriesFrom cfg nbRules nb i rules last lastActions) := by
  induction rules generalizing i last lastActions with
  | nil => exact (Steady.pure _).grows
  | cons rule rules ih =>
    rw [List.length_cons, Nat.mul_succ]
    refine Grows.get_bind (fun g => ?_)
    refine Grows.bind (n := 12 * rules.length + 9) (grows_createIpsecSa _ (fun _ _ => rfl))
      (fun sa => ?_) (by omega)
    refine Grows.bind (n := 12 * rules.length + 7) (grows_createIpsecSharedObject ..)
      (fun _ => ?_) (by omega)
    refine Grows.bind (n := 12 * rules.length + 6) (grows_pipeAddEntry ..)
      (fun _ => Steady.grows_bind (steady_enqueued ..) (fun _ => ?_)) (by omega)
    refine Grows.bind (n := 12 * rules.length + 5) (grows_pipeAddEntry ..)
      (fun _ => Steady.grows_bind (steady_enqueued ..) (fun _ => ?_)) (by omega)
    refine Grows.bind (n := 12 * rules.length + 1) (grows_addBadSyndromePipeEntry ..)
      (fun _ => Steady.grows_bind (steady_enqueued ..) (fun _ => ?_)) (by omega)
    exact Grows.get_bind (fun g => Grows.bind (grows_processIf ..) (fun _ => ih (i + 1) _ _)
      (by omega))

theorem grows_encryptLoop (rules : List EncryptRule) (table : List (Ip6Addr × Nat)) :
    Grows Gateway.trace (11 * rules.length) (encryptLoop cfg rules table) :=
  Steady.grows_bind (Steady.modify (fun _ => rfl)) (fun _ => grows_addEncryptEntriesFrom ..)

theorem grows_decryptLoop (rules : List DecryptRule) (nb : Nat) :
    Grows Gateway.trace (12 * rules.length) (decryptLoop cfg rules nb) :=
  Steady.grows_bind (Steady.modify (fun _ => rfl)) (fun _ => grows_addDecryptEntriesFrom ..)

end DocaApps.Proofs.BulkCalls
