import DocaApps.Lib.Endings
import DocaApps.Ipsec.FlowCommon

namespace DocaApps.Proofs.FlowCommon
open Lib.Command Lib.Endings Ipsec.Rules Ipsec.FlowCommon

@[simp] theorem trace_setStatus (g : Gateway) (ctx : StatusCtx) (st : EntriesStatus) :
    (g.setStatus ctx st).trace = g.trace := by
  cases ctx <;> rfl

@[simp] theorem table_setStatus (g : Gateway) (ctx : StatusCtx) (st : EntriesStatus) :
    (g.setStatus ctx st).table = g.table := by
  simp [Gateway.table]

theorem logs_libCall {c : LibCall} (hc : ∀ r, addedEntry (c, r) = none) :
    Logs Gateway.table (libCall c) [] := by
  constructor
  intro g a t h
  cases h
  simp [Gateway.table, hc]

/-- A checked call that succeeds logs the row it stands for, if it stands for one. -/
theorem logs_libCheck (c : LibCall) :
    Logs Gateway.table (libCheck c) (addedEntry (c, none)).toList := by
  constructor
  intro g a t h
  obtain ⟨answer, g', hcall, ht⟩ := bind_eq_ok.mp h
  cases hcall
  cases he : (g.outcomes.headD _).error with
  | some e =>
    rw [he] at ht
    cases ht
  | none =>
    rw [he] at ht
    cases ht
    cases ha : addedEntry (c, none) with
    | none => simp [Gateway.table, ha]
    | some e => simp [Gateway.table, ha]

theorem logs_pipeAddEntry (pipe : Pipe) (m : Match) (actions : Option Actions) (flags : Flags)
    (ctx : StatusCtx) :
    Logs Gateway.table (pipeAddEntry pipe m actions flags ctx) [⟨pipe, m, actions⟩] :=
  logs_libCheck _

theorem logs_enqueued (n : Int) (ctx : StatusCtx) : Logs Gateway.table (enqueued n ctx) [] :=
  Logs.modify (fun g => table_setStatus g _ _)

theorem table_completions (cs : List (StatusCtx × Bool)) (g : Gateway) :
    (cs.foldl (fun g (ctx, success) =>
      g.setStatus ctx (checkForValidEntry success (g.status ctx))) g).table = g.table := by
  induction cs generalizing g with
  | nil => rfl
  | cons c cs ih =>
    obtain ⟨ctx, success⟩ := c
    rw [List.foldl_cons, ih, table_setStatus]

theorem logs_entriesProcess (port : Port) (n : Int) :
    Logs Gateway.table (entriesProcess port n) [] := by
  refine Logs.skip (logs_libCall (fun _ => rfl)) (fun answer => ?_)
  refine Logs.skip (Logs.modify (table_completions _)) (fun _ => ?_)
  cases answer.error with
  | some e => exact Logs.throw e
  | none => exact Logs.pure ()

theorem logs_processEntries (port : Port) (ctx : StatusCtx) :
    Logs Gateway.table (processEntries port ctx) [] := by
  refine Logs.skip Logs.get (fun _ => Logs.skip (logs_entriesProcess _ _) (fun _ => ?_))
  refine Logs.skip Logs.get (fun _ => ?_)
  exact Logs.ite (fun _ => Logs.throw _) (fun _ => Logs.pure _)

theorem logs_processIf (full : Prop) [Decidable full] (port : Port) (ctx : StatusCtx) :
    Logs Gateway.table (processIf full port ctx) [] :=
  Logs.ite (fun _ => logs_processEntries port ctx) (fun _ => Logs.pure _)

theorem logs_drainLoop (port : Port) (ctx : StatusCtx) (n : Nat) :
    Logs Gateway.table (drainLoop port ctx n) [] := by
  induction n with
  | zero => exact logs_processEntries port ctx
  | succ n ih =>
    refine Logs.skip (logs_processEntries port ctx) (fun _ => Logs.skip Logs.get (fun _ => ?_))
    exact Logs.ite (fun _ => ih) (fun _ => Logs.pure _)

theorem logs_drain (port : Port) (ctx : StatusCtx) : Logs Gateway.table (drain port ctx) [] :=
  Logs.skip Logs.get (fun _ => logs_drainLoop port ctx _)

theorem logs_createIpsecSharedObject (port : Port) (sa : Sa) (id : BitVec 32) :
    Logs Gateway.table (createIpsecSharedObject port sa id) [] :=
  Logs.skip (logs_libCheck _) (fun _ => logs_libCheck _)

theorem table_setEncryptSa (slot : Nat) (sa : Sa) (g : Gateway) :
    (setEncryptSa slot sa g).table = g.table := rfl

theorem table_setDecryptSa (slot : Nat) (sa : Sa) (g : Gateway) :
    (setDecryptSa slot sa g).table = g.table := rfl

theorem logs_createIpsecSa (cfg : Config) (attrs : SaAttrs) {store : Sa → Gateway → Gateway}
    (hstore : ∀ sa g, (store sa g).table = g.table) :
    Logs Gateway.table (createIpsecSa cfg attrs store) [] := by
  refine Logs.skip (logs_libCheck _) (fun _ => Logs.skip (logs_libCheck _) (fun _ => ?_))
  refine Logs.skip (logs_libCall (fun _ => rfl)) (fun answer => ?_)
  refine Logs.skip (Logs.modify (hstore _)) (fun _ => ?_)
  cases answer.error with
  | some e => exact Logs.throw e
  | none => exact Logs.pure _

/-- The answer to the next library call. -/
def nextAnswer (g : Gateway) : Outcome :=
  g.outcomes.headD
    ⟨none, List.replicate (g.status .hairpin).entriesInQueue.toNat (.hairpin, true) ++
      List.replicate (g.status .encrypt).entriesInQueue.toNat (.encrypt, true) ++
      List.replicate (g.status .decrypt).entriesInQueue.toNat (.decrypt, true),
      some g.trace.length⟩

theorem ends_libCall {c : LibCall} {g : Gateway} {q : Outcome → Gateway → Prop}
    {e : DocaError → Gateway → Prop} :
    Ends (libCall c) q e g ↔ q (nextAnswer g)
      { g with trace := g.trace ++ [(c, (nextAnswer g).error)], outcomes := g.outcomes.tail } :=
  ends_of_ok rfl

/-- The calls that create an SA. -/
def createsSa : LibCall → Bool
  | .saCreateAllocateInit .. | .taskSubmit | .taskGetStatus => true
  | _ => false

/-- An invariant that the calls of an insertion and their callbacks do not break. -/
structure Tolerant (inv : Gateway → Prop) : Prop where
  call : ∀ g c r, createsSa c = false → inv g →
    inv { g with trace := g.trace ++ [(c, r)], outcomes := g.outcomes.tail }
  status : ∀ g ctx st, inv g → inv (g.setStatus ctx st)

section
variable {inv : Gateway → Prop} (hinv : Tolerant inv)
include hinv

theorem maintains_libCall {c : LibCall} (hc : createsSa c = false) :
    Maintains inv (libCall c) :=
  ⟨fun g h => ends_libCall.mpr (hinv.call g c _ hc h)⟩

theorem maintains_libCheck {c : LibCall} (hc : createsSa c = false) :
    Maintains inv (libCheck c) := by
  refine Maintains.bind (maintains_libCall hinv hc) (fun answer => ?_)
  cases answer.error with
  | some e => exact Maintains.throw e
  | none => exact Maintains.pure ()

theorem maintains_enqueued (n : Int) (ctx : StatusCtx) : Maintains inv (enqueued n ctx) :=
  Maintains.modify (fun g h => hinv.status g _ _ h)

theorem maintains_completions (cs : List (StatusCtx × Bool)) (g : Gateway) (h : inv g) :
    inv (cs.foldl (fun g (ctx, success) =>
      g.setStatus ctx (checkForValidEntry success (g.status ctx))) g) := by
  induction cs generalizing g with
  | nil => exact h
  | cons c cs ih => exact ih _ (hinv.status g _ _ h)

theorem maintains_processEntries (port : Port) (ctx : StatusCtx) :
    Maintains inv (processEntries port ctx) := by
  have hprocess : ∀ n, Maintains inv (entriesProcess port n) := by
    intro n
    refine Maintains.bind (maintains_libCall hinv rfl) (fun answer => ?_)
    refine Maintains.bind (Maintains.modify (maintains_completions hinv _)) (fun _ => ?_)
    cases answer.error with
    | some e => exact Maintains.throw e
    | none => exact Maintains.pure ()
  refine Maintains.bind Maintains.get (fun _ => Maintains.bind (hprocess _) (fun _ => ?_))
  exact Maintains.bind Maintains.get
    (fun _ => Maintains.ite (Maintains.throw _) (Maintains.pure _))

theorem maintains_processIf (full : Prop) [Decidable full] (port : Port) (ctx : StatusCtx) :
    Maintains inv (processIf full port ctx) :=
  Maintains.ite (maintains_processEntries hinv port ctx) (Maintains.pure _)

theorem maintains_drain (port : Port) (ctx : StatusCtx) : Maintains inv (drain port ctx) := by
  have hloop : ∀ n, Maintains inv (drainLoop port ctx n) := by
    intro n
    induction n with
    | zero => exact maintains_processEntries hinv port ctx
    | succ n ih =>
      refine Maintains.bind (maintains_processEntries hinv port ctx) (fun _ => ?_)
      exact Maintains.bind Maintains.get (fun _ => Maintains.ite ih (Maintains.pure _))
  exact Maintains.bind Maintains.get (fun _ => hloop _)

theorem maintains_createIpsecSharedObject (port : Port) (sa : Sa) (id : BitVec 32) :
    Maintains inv (createIpsecSharedObject port sa id) :=
  Maintains.bind (maintains_libCheck hinv rfl) (fun _ => maintains_libCheck hinv rfl)

end

/-- A part of the state that the library calls and their callbacks do not reach. -/
structure Untouched {δ : Type} (part : Gateway → δ) : Prop where
  call : ∀ g trace outcomes, part { g with trace, outcomes } = part g
  status : ∀ g ctx st, part (g.setStatus ctx st) = part g

variable {δ : Type} {part : Gateway → δ}

theorem Untouched.tolerant (hpart : Untouched part) (v : δ) : Tolerant (fun g => part g = v) :=
  ⟨fun g _ _ _ h => (hpart.call g _ _).trans h, fun g ctx st h => (hpart.status g ctx st).trans h⟩

theorem steady_createIpsecSa (hpart : Untouched part) (cfg : Config) (attrs : SaAttrs)
    {store : Sa → Gateway → Gateway} (hstore : ∀ sa g, part (store sa g) = part g) :
    Steady part (createIpsecSa cfg attrs store) := by
  have hcall : ∀ c, Steady part (libCall c) :=
    fun c => ⟨fun g => ends_libCall.mpr (hpart.call g _ _)⟩
  have hcheck : ∀ c, Steady part (libCheck c) := by
    intro c
    refine Steady.bind (hcall c) (fun answer => ?_)
    cases answer.error with
    | some e => exact Steady.throw e
    | none => exact Steady.pure ()
  refine Steady.bind (hcheck _) (fun _ => Steady.bind (hcheck _) (fun _ => ?_))
  refine Steady.bind (hcall _) (fun answer => Steady.bind (Steady.modify (hstore _)) (fun _ => ?_))
  cases answer.error with
  | some e => exact Steady.throw e
  | none => exact Steady.pure _

/-- The rows after a run, when it succeeds. -/
def rowsAfter (c : Cmd Unit) (g : Gateway) : Option (List Entry) :=
  match c g with
  | .ok _ t => some t.table
  | .error _ _ => none

theorem exists_of_rowsAfter {c : Cmd Unit} {g : Gateway} {p : List Entry → Bool}
    (h : (rowsAfter c g).any p = true) : ∃ t, c g = .ok () t ∧ p t.table = true := by
  unfold rowsAfter at h
  cases hc : c g with
  | ok u t =>
    rw [hc] at h
    exact ⟨t, rfl, h⟩
  | error e t =>
    rw [hc] at h
    cases h

end DocaApps.Proofs.FlowCommon
