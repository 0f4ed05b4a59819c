import DocaApps.Common.FlowSkeleton

namespace DocaApps.Proofs.FlowSkeleton
open DocaApps.Lib.Runs Common.FlowSkeleton

/-- The number was within the depth when it went up, did not wrap when it went down, and was the
number of the operations outstanding on every port when a call or an iteration ended. -/
def Mark.Right (depth : BitVec 32) : Mark → Prop
  | .counted queueState => queueState ≤ depth
  | .subtracting queueState counter => counter ≤ queueState
  | .settled ports => ∀ p, (ports p).queueState.toNat = (ports p).outstanding

/-- A completion that the skeleton counts, or that it answers with a removal that is taken. -/
def CompletionCounted (portId : Nat) (s : Queues) (c : Completion) : Prop :=
  match (s.port portId).released[c.idx]? with
  | none => True
  | some .add => c.notice.success = true ∨ c.notice.rmAccepted = true
  | some .del => c.notice.success = true

/-- An entry is taken only while the queue of the port is below its depth. -/
def Fits (depth : BitVec 32) (portId : Nat) (s : Queues) (x : Flag × SkeletonEntry × Answer) :
    Prop :=
  (submission x.1 x.2.1 x.2.2).isSome → (s.port portId).queueState < depth

structure BatchCounted (ctx : SkeletonCtx) (portId : Nat) (visit : Visit) (s : Queues) : Prop where
  fits : Along (submitEntry portId) (Fits ctx.queueDepth portId) s (flagged visit.batch)
  processed : Along (complete portId) (CompletionCounted portId)
    (run (submitEntry portId) s (flagged visit.batch)) visit.processed

def InitCounted (ctx : SkeletonCtx) (s : Queues) (x : Nat × Visit) : Prop :=
  x.2.batch ≠ [] → BatchCounted ctx x.1 x.2 s.restart

structure BusyVisitCounted (ctx : SkeletonCtx) (s : Queues) (x : Nat × Visit) : Prop where
  whenFull : queueFull ctx (s.restart.port x.1) x.2.batch.length →
    Along (complete x.1) (CompletionCounted x.1) s.restart x.2.whenFull
  batch : BatchCounted ctx x.1 x.2 (makeRoom ctx s.restart x)
  aged : ctx.cfg.handleAging = true →
    ∀ notice ∈ x.2.aged, notice.toRemove = true → notice.rmAccepted = false

def VisitCounted (ctx : SkeletonCtx) (s : Queues) (x : Nat × Visit) : Prop :=
  x.2.batch ≠ [] → BusyVisitCounted ctx s x

/-- A process of the exit loop; one that fails completed nothing that was counted. -/
structure CallCounted (portId : Nat) (s : Queues) (call : ExitCall) : Prop where
  completions : Along (complete portId) (CompletionCounted portId) s.restart call.completions
  error : call.error = true → ∀ c ∈ call.completions, c.notice.success = false

/-- Every call that the exit loop of a port makes meets a condition. -/
def PortCalls (P : Queues → ExitCall → Prop) (portId : Nat) : List ExitCall → Queues → Prop
  | [], _ => True
  | call :: calls, s => (s.port portId).queueState ≠ 0 → P s call ∧ (call.error = false →
      PortCalls P portId calls (settle (subtractCounter portId (exitProcess portId s call))))

/-- Every call that the exit loop makes meets the condition of its port. -/
def ExitCalls (P : Nat → Queues → ExitCall → Prop) (calls : Nat → List ExitCall) :
    List Nat → Queues → Prop
  | [], _ => True
  | portId :: ports, s => PortCalls (P portId) portId (calls portId) s ∧
      ((emptyPort portId (calls portId) s).1 = true →
        ExitCalls P calls ports (emptyPort portId (calls portId) s).2)

/-- Every step of a run of the main loop is counted. -/
structure LoopCounted (ctx : SkeletonCtx) (loop : MainLoop) : Prop where
  init : Along initPort (InitCounted ctx) {} (initTurns ctx loop)
  turns : Along (visitPort ctx) (VisitCounted ctx) (initialized ctx loop) (loopTurns loop)
  exit : ExitCalls CallCounted loop.calls (List.range loop.nbPorts) (asked ctx loop)

/-- The process completes all operations that are released. -/
def CompletesAll (portId : Nat) (s : Queues) (call : ExitCall) : Prop :=
  ((exitProcess portId s call).port portId).released = []

/-- No entry fails to be added in the process. -/
def AddsSucceed (portId : Nat) (s : Queues) (call : ExitCall) : Prop :=
  Along (complete portId) (fun s c => (s.port portId).released[c.idx]? = some .add →
    c.notice.success = true) s.restart call.completions

section queues

variable {s : Queues} {p : Nat} {q : PortQueue} {flag : Flag} {op : Submitted} {mark : Mark}

theorem set_port : (s.set p q).port = Function.update s.port p q := rfl

@[simp] theorem set_port_same : (s.set p q).port p = q := by
  simp [set_port]

@[simp] theorem set_set (q' : PortQueue) : (s.set p q).set p q' = s.set p q' := by
  simp [Queues.set]

@[simp] theorem set_counter : (s.set p q).counter = s.counter := rfl

@[simp] theorem set_marks : (s.set p q).marks = s.marks := rfl

@[simp] theorem note_port : (s.note mark).port = s.port := rfl

@[simp] theorem note_counter : (s.note mark).counter = s.counter := rfl

@[simp] theorem restart_port : s.restart.port = s.port := rfl

@[simp] theorem enqueue_queueState : (q.enqueue flag op).queueState = q.queueState := by
  cases flag <;> rfl

@[simp] theorem enqueue_outstanding : (q.enqueue flag op).outstanding = q.outstanding + 1 := by
  cases flag with
  | waitForBatch =>
    simp [PortQueue.enqueue, PortQueue.outstanding]
    omega
  | noWait =>
    simp [PortQueue.enqueue, PortQueue.outstanding]
    omega

@[simp] theorem finish_queueState {i : Nat} : (q.finish i).queueState = q.queueState := rfl

theorem finish_outstanding {i : Nat} (h : q.released[i]? = some op) :
    (q.finish i).outstanding + 1 = q.outstanding := by
  have hi : i < q.released.length := (List.getElem?_eq_some_iff.mp h).1
  simp only [PortQueue.finish, PortQueue.outstanding, List.length_eraseIdx, if_pos hi]
  omega

theorem toNat_succ {a : BitVec 32} (h : a.toNat + 1 < 2 ^ 32) : (a + 1).toNat = a.toNat + 1 :=
  BitVec.toNat_add_of_lt h

end queues

/-- During the turn of a port, its number also counts the completions that were not taken off it
yet. -/
structure Balanced (depth : BitVec 32) (cur : Nat) (s : Queues) : Prop where
  state : ∀ p, (s.port p).queueState.toNat =
    (s.port p).outstanding + if p = cur then s.counter.toNat else 0
  within : ∀ p, (s.port p).queueState ≤ depth
  marks : ∀ mark ∈ s.marks, Mark.Right depth mark

/-- Between the turns, the number of a port is that of its operations outstanding. -/
structure Settled (depth : BitVec 32) (s : Queues) : Prop where
  state : ∀ p, (s.port p).queueState.toNat = (s.port p).outstanding
  within : ∀ p, (s.port p).queueState ≤ depth
  marks : ∀ mark ∈ s.marks, Mark.Right depth mark

section steps

variable {depth : BitVec 32} {cur : Nat} {s : Queues} {c : Completion}

theorem Settled.restart (h : Settled depth s) (cur : Nat) : Balanced depth cur s.restart := by
  refine ⟨fun p => ?_, h.within, h.marks⟩
  rw [restart_port, h.state p]
  simp [Queues.restart]

theorem Settled.balanced (h : Settled depth s) (hc : s.counter = 0) : Balanced depth cur s := by
  refine ⟨fun p => ?_, h.within, h.marks⟩
  rw [h.state p, hc]
  simp

theorem Balanced.settled (h : Balanced depth cur s) (hc : s.counter = 0) : Settled depth s := by
  refine ⟨fun p => ?_, h.within, h.marks⟩
  have hp := h.state p
  rw [hc] at hp
  simpa using hp

/-- Replacing the queue of the current port keeps the balance when the port's own does. -/
theorem Balanced.replace {q : PortQueue} (counter : BitVec 32) (h : Balanced depth cur s)
    (hstate : q.queueState.toNat = q.outstanding + counter.toNat) (hwithin : q.queueState ≤ depth) :
    Balanced depth cur { s.set cur q with counter } := by
  refine ⟨fun p => ?_, fun p => ?_, h.marks⟩
  · by_cases hp : p = cur
    · subst hp
      simpa [set_port] using hstate
    · have hold := h.state p
      simpa [set_port, hp] using hold
  · by_cases hp : p = cur
    · subst hp
      simpa [set_port] using hwithin
    · simpa [set_port, hp] using h.within p

theorem Balanced.note {mark : Mark} (h : Balanced depth cur s) (hmark : Mark.Right depth mark) :
    Balanced depth cur (s.note mark) := by
  refine ⟨h.state, h.within, fun m hm => ?_⟩
  rcases List.mem_append.mp hm with hm | hm
  · exact h.marks m hm
  · rw [List.mem_singleton.mp hm]
    exact hmark

theorem Settled.note {mark : Mark} (h : Settled depth s) (hmark : Mark.Right depth mark) :
    Settled depth (s.note mark) := by
  refine ⟨h.state, h.within, fun m hm => ?_⟩
  rcases List.mem_append.mp hm with hm | hm
  · exact h.marks m hm
  · rw [List.mem_singleton.mp hm]
    exact hmark

theorem Settled.settle (h : Settled depth s) : Settled depth (settle s) := h.note h.state

/-- A counted completion keeps the balance. -/
theorem complete_balanced (h : Balanced depth cur s) (hc : CompletionCounted cur s c) :
    Balanced depth cur (complete cur s c) := by
  have hstate := h.state cur
  rw [if_pos rfl] at hstate
  have hbound := (s.port cur).queueState.isLt
  unfold complete
  unfold CompletionCounted at hc
  cases hget : (s.port cur).released[c.idx]? with
  | none => exact h
  | some op =>
    have hout := finish_outstanding hget
    have hup : Balanced depth cur
        { s.set cur ((s.port cur).finish c.idx) with counter := s.counter + 1 } := by
      refine h.replace (s.counter + 1) ?_ (h.within cur)
      rw [toNat_succ (by omega), finish_queueState]
      omega
    rw [hget] at hc
    cases op with
    | add =>
      cases hs : c.notice.success with
      | true => simpa [processCallback, Submitted.entryOp, hs] using hup
      | false =>
        have hrm : c.notice.rmAccepted = true := hc.resolve_left (by simp [hs])
        simp only [processCallback, Submitted.entryOp, hs, rmEntry, hrm, if_true, set_port_same,
          set_set, Bool.false_eq_true, if_false]
        refine h.replace s.counter ?_ ?_
        · rw [enqueue_queueState, enqueue_outstanding, finish_queueState]
          omega
        · rw [enqueue_queueState]
          exact h.within cur
    | del =>
      have hs : c.notice.success = true := hc
      simpa [processCallback, Submitted.entryOp, hs] using hup

theorem entriesProcess_balanced {completions : List Completion} (h : Balanced depth cur s)
    (hc : Along (complete cur) (CompletionCounted cur) s completions) :
    Balanced depth cur (entriesProcess cur completions s) :=
  run_invariant (fun _ _ => complete_balanced) h hc

/-- An entry that is taken while there is room keeps the balance. -/
theorem submitEntry_balanced {x : Flag × SkeletonEntry × Answer} (h : Balanced depth cur s)
    (hfits : Fits depth cur s x) : Balanced depth cur (submitEntry cur s x) := by
  have hstate := h.state cur
  rw [if_pos rfl] at hstate
  unfold submitEntry
  unfold Fits at hfits
  cases hsub : submission x.1 x.2.1 x.2.2 with
  | none => exact h
  | some taken =>
    obtain ⟨flag, op⟩ := taken
    have hroom : (s.port cur).queueState < depth := hfits (by rw [hsub]; rfl)
    have hdepth := depth.isLt
    have hlt := BitVec.lt_def.mp hroom
    have hcount := toNat_succ (a := (s.port cur).queueState) (by omega)
    have hle : (s.port cur).queueState + 1 ≤ depth := by
      rw [BitVec.le_def, hcount]
      exact hlt
    simp only [enqueue_queueState]
    refine Balanced.note (h.replace s.counter ?_ hle) hle
    change ((s.port cur).queueState + 1).toNat = ((s.port cur).enqueue flag op).outstanding + _
    rw [hcount, enqueue_outstanding]
    omega

/-- Taking the counter off the number of its port settles the queues. -/
theorem subtractCounter_settled (h : Balanced depth cur s) :
    Settled depth (subtractCounter cur s) := by
  have hstate := h.state cur
  rw [if_pos rfl] at hstate
  have hle : s.counter ≤ (s.port cur).queueState := by
    rw [BitVec.le_def]
    omega
  have hsub := BitVec.toNat_sub_of_le hle
  have hold := BitVec.le_def.mp (h.within cur)
  refine Settled.note ⟨fun p => ?_, fun p => ?_, h.marks⟩ hle
  · by_cases hp : p = cur
    · subst hp
      simp only [set_port_same, hsub]
      change _ = (s.port p).outstanding
      omega
    · have hother := h.state p
      simpa [set_port, hp] using hother
  · by_cases hp : p = cur
    · subst hp
      simp only [set_port_same]
      rw [BitVec.le_def, hsub]
      omega
    · simpa [set_port, hp] using h.within p

/-- A removal of an aged entry that is taken is the one thing that aging could change. -/
theorem agingHandle_eq {aged : List Notice}
    (h : ∀ notice ∈ aged, notice.toRemove = true → notice.rmAccepted = false) :
    agingHandle cur aged s = s := by
  induction aged generalizing s with
  | nil => rfl
  | cons notice aged ih =>
    have hsame : processCallback cur .aged notice s = s := by
      simp only [processCallback]
      cases hr : notice.toRemove with
      | false => rfl
      | true =>
        have hrefused := h notice (List.mem_cons_self ..) hr
        simp [rmEntry, hrefused]
    have htail := ih (s := s) fun n hn => h n (List.mem_cons_of_mem _ hn)
    rw [agingHandle, run, List.foldl_cons, hsame]
    exact htail

end steps

section runs

variable {ctx : SkeletonCtx} {s : Queues} {x : Nat × Visit} {portId : Nat} {call : ExitCall}

theorem addBatchEntries_settled (h : Balanced ctx.queueDepth portId s)
    (hcounted : BatchCounted ctx portId x.2 s) :
    Settled ctx.queueDepth (addBatchEntries portId x.2.batch x.2.processed s) := by
  have hsubmitted : Balanced ctx.queueDepth portId
      (run (submitEntry portId) s (flagged x.2.batch)) :=
    run_invariant (fun _ _ => submitEntry_balanced) h hcounted.fits
  have hprocessed := entriesProcess_balanced hsubmitted hcounted.processed
  exact (subtractCounter_settled hprocessed).settle

theorem initPort_settled (h : Settled ctx.queueDepth s) (hcounted : InitCounted ctx s x) :
    Settled ctx.queueDepth (initPort s x) := by
  unfold initPort
  split
  · exact (h.restart 0).settled rfl
  · next hbatch => exact addBatchEntries_settled (h.restart x.1) (hcounted hbatch)

theorem makeRoom_balanced (h : Settled ctx.queueDepth s) (hcounted : BusyVisitCounted ctx s x) :
    Balanced ctx.queueDepth x.1 (makeRoom ctx s.restart x) := by
  unfold makeRoom
  split
  · next hfull => exact entriesProcess_balanced (h.restart x.1) (hcounted.whenFull hfull)
  · exact h.restart x.1

theorem visitPort_settled (h : Settled ctx.queueDepth s) (hcounted : VisitCounted ctx s x) :
    Settled ctx.queueDepth (visitPort ctx s x) := by
  unfold visitPort
  split
  · exact (h.restart 0).settled rfl
  · next hbatch =>
    have hbusy := hcounted hbatch
    have hadded := addBatchEntries_settled (makeRoom_balanced h hbusy) hbusy.batch
    simp only
    split
    · next haging => rwa [agingHandle_eq (hbusy.aged haging)]
    · exact hadded

theorem asked_settled {loop : MainLoop} (h : LoopCounted ctx loop) :
    Settled ctx.queueDepth (asked ctx loop) := by
  have hstart : Settled ctx.queueDepth {} :=
    ⟨fun _ => rfl, fun _ => BitVec.le_def.mpr (Nat.zero_le _), fun mark hmark => by cases hmark⟩
  have hinit : Settled ctx.queueDepth (initialized ctx loop) :=
    run_invariant (fun _ _ => initPort_settled) hstart h.init
  exact run_invariant (fun _ _ => visitPort_settled) hinit h.turns

end runs

section exit

variable {depth : BitVec 32} {s s' : Queues} {p portId : Nat} {c : Completion} {call : ExitCall}
  {calls : List ExitCall} {cs : List Completion}

theorem complete_counter (hc : c.notice.success = false) :
    (complete portId s c).counter = s.counter := by
  unfold complete
  cases (s.port portId).released[c.idx]? with
  | none => rfl
  | some op =>
    cases op with
    | add =>
      simp only [processCallback, Submitted.entryOp, hc, rmEntry, Bool.false_eq_true, if_false]
      split <;> rfl
    | del => simp [processCallback, Submitted.entryOp, hc]

theorem entriesProcess_counter (hc : ∀ c ∈ cs, c.notice.success = false) :
    (entriesProcess portId cs s).counter = s.counter := by
  induction cs generalizing s with
  | nil => rfl
  | cons c cs ih =>
    have hrest := ih (s := complete portId s c) fun d hd => hc d (List.mem_cons_of_mem _ hd)
    rw [complete_counter (hc c (List.mem_cons_self ..))] at hrest
    exact hrest

theorem exitProcess_balanced (h : Settled depth s) (hcall : CallCounted portId s call) :
    Balanced depth portId (exitProcess portId s call) :=
  entriesProcess_balanced (h.restart portId) hcall.completions

/-- A failed process that completed nothing counted leaves the queues settled. -/
theorem exitProcess_settled (h : Settled depth s) (hcall : CallCounted portId s call)
    (herror : call.error = true) : Settled depth (exitProcess portId s call) := by
  refine (exitProcess_balanced h hcall).settled ?_
  exact entriesProcess_counter (hcall.error herror)

/-- An iteration of the exit loop leaves the queues settled. -/
theorem exitIteration_settled (h : Settled depth s) (hcall : CallCounted portId s call) :
    Settled depth (settle (subtractCounter portId (exitProcess portId s call))) :=
  (subtractCounter_settled (exitProcess_balanced h hcall)).settle

theorem emptyPort_zero (h : (s.port portId).queueState = 0) :
    emptyPort portId calls s = (true, s) := by
  cases calls with
  | nil => simp [emptyPort, h]
  | cons call calls => simp [emptyPort, h]

theorem emptyPort_settled (h : Settled depth s)
    (hcalls : PortCalls (CallCounted portId) portId calls s) :
    Settled depth (emptyPort portId calls s).2 := by
  induction calls generalizing s with
  | nil => exact h
  | cons call calls ih =>
    by_cases hzero : (s.port portId).queueState = 0
    · rw [emptyPort_zero hzero]
      exact h
    · obtain ⟨hcall, hrest⟩ := hcalls hzero
      rw [emptyPort, if_neg hzero]
      cases herror : call.error with
      | true => exact (exitProcess_settled h hcall herror).settle
      | false => exact ih (exitIteration_settled h hcall) (hrest herror)

theorem emptyPorts_settled {calls : Nat → List ExitCall} {ports : List Nat} (h : Settled depth s)
    (hcalls : ExitCalls CallCounted calls ports s) :
    Settled depth (emptyPorts calls ports s).2 := by
  induction ports generalizing s with
  | nil => exact h
  | cons portId ports ih =>
    have hport := emptyPort_settled h hcalls.1
    have hrest := hcalls.2
    rw [emptyPorts]
    cases hr : emptyPort portId (calls portId) s with
    | mk ended s' =>
      rw [hr] at hport hrest
      cases ended with
      | true => exact ih hport (hrest rfl)
      | false => exact hport

/-- The completions of a port leave the others alone. -/
theorem complete_other (hp : p ≠ portId) : (complete portId s c).port p = s.port p := by
  unfold complete
  cases (s.port portId).released[c.idx]? with
  | none => rfl
  | some op =>
    cases op <;> simp only [processCallback, Submitted.entryOp, rmEntry] <;>
      (repeat' split) <;> simp [set_port, hp]

theorem exitProcess_other (hp : p ≠ portId) : (exitProcess portId s call).port p = s.port p := by
  have hstep : ∀ (t : Queues) (c : Completion), t.port p = s.port p →
      (complete portId t c).port p = s.port p := fun _ _ h => (complete_other hp).trans h
  have hstart : s.restart.port p = s.port p := rfl
  exact run_preserves hstep hstart call.completions

theorem subtractCounter_other (hp : p ≠ portId) : (subtractCounter portId s).port p = s.port p := by
  simp [subtractCounter, set_port, hp]

theorem emptyPort_other (hp : p ≠ portId) : (emptyPort portId calls s).2.port p = s.port p := by
  induction calls generalizing s with
  | nil => rfl
  | cons call calls ih =>
    unfold emptyPort
    split
    · rfl
    · split
      · exact exitProcess_other hp
      · exact ih.trans ((subtractCounter_other hp).trans (exitProcess_other hp))

theorem emptyPorts_other {calls : Nat → List ExitCall} {ports : List Nat} (hp : p ∉ ports) :
    (emptyPorts calls ports s).2.port p = s.port p := by
  induction ports generalizing s with
  | nil => rfl
  | cons portId ports ih =>
    obtain ⟨hne, hrest⟩ := not_or.mp (List.mem_cons.not.mp hp)
    have hport : (emptyPort portId (calls portId) s).2.port p = s.port p := emptyPort_other hne
    rw [emptyPorts]
    cases hr : emptyPort portId (calls portId) s with
    | mk ended s' =>
      rw [hr] at hport
      cases ended with
      | true => exact (ih hrest).trans hport
      | false => exact hport

/-- A counted completion leaves nothing waiting if and only if nothing waited and it is not that of
an entry that was not added. -/
theorem complete_waiting (hc : CompletionCounted portId s c) :
    ((complete portId s c).port portId).waiting = [] ↔ (s.port portId).waiting = [] ∧
      ((s.port portId).released[c.idx]? = some .add → c.notice.success = true) := by
  unfold complete
  unfold CompletionCounted at hc
  cases hget : (s.port portId).released[c.idx]? with
  | none => simp
  | some op =>
    rw [hget] at hc
    cases op with
    | add =>
      cases hs : c.notice.success with
      | true => simp [processCallback, Submitted.entryOp, hs, PortQueue.finish, set_port]
      | false =>
        have hrm : c.notice.rmAccepted = true := hc.resolve_left (by simp [hs])
        simp [processCallback, Submitted.entryOp, hs, rmEntry, hrm, PortQueue.enqueue]
    | del =>
      have hs : c.notice.success = true := hc
      simp [processCallback, Submitted.entryOp, hs, PortQueue.finish, set_port]

theorem entriesProcess_waiting (hc : Along (complete portId) (CompletionCounted portId) s cs) :
    ((entriesProcess portId cs s).port portId).waiting = [] ↔ (s.port portId).waiting = [] ∧
      Along (complete portId) (fun s c => (s.port portId).released[c.idx]? = some .add →
        c.notice.success = true) s cs := by
  induction cs generalizing s with
  | nil => simp [entriesProcess, run, Along]
  | cons c cs ih =>
    obtain ⟨hfirst, hrest⟩ := hc
    have htail := ih hrest
    rw [complete_waiting hfirst, and_assoc] at htail
    exact htail

theorem exitProcess_waiting (hcall : CallCounted portId s call) :
    ((exitProcess portId s call).port portId).waiting = [] ↔
      (s.port portId).waiting = [] ∧ AddsSucceed portId s call :=
  entriesProcess_waiting hcall.completions

@[simp] theorem subtractCounter_outstanding :
    ((subtractCounter portId s).port p).outstanding = (s.port p).outstanding := by
  by_cases hp : p = portId
  · subst hp
    simp [subtractCounter, PortQueue.outstanding]
  · rw [subtractCounter_other hp]

@[simp] theorem subtractCounter_waiting :
    ((subtractCounter portId s).port p).waiting = (s.port p).waiting := by
  by_cases hp : p = portId
  · subst hp
    simp [subtractCounter]
  · rw [subtractCounter_other hp]

theorem portCalls_zero {P : Queues → ExitCall → Prop} (h : (s.port portId).queueState = 0) :
    PortCalls P portId calls s := by
  cases calls with
  | nil => trivial
  | cons call calls => exact fun hne => absurd h hne

/-- A settled port with nothing outstanding has the number zero, and the other way round. -/
theorem Settled.zero_iff (h : Settled depth s) :
    (s.port p).queueState = 0 ↔ (s.port p).outstanding = 0 := by
  rw [← h.state p]
  exact BitVec.toNat_inj.symm

theorem outstanding_zero_iff {q : PortQueue} :
    q.outstanding = 0 ↔ q.waiting = [] ∧ q.released = [] := by
  simp [PortQueue.outstanding]

/-- What waits at the start of the exit loop of a port waits at its end. -/
theorem emptyPort_waiting (hcalls : PortCalls (CallCounted portId) portId calls s)
    (h : ((emptyPort portId calls s).2.port portId).waiting = []) :
    (s.port portId).waiting = [] := by
  induction calls generalizing s with
  | nil => exact h
  | cons call calls ih =>
    by_cases hzero : (s.port portId).queueState = 0
    · rwa [emptyPort_zero hzero] at h
    · obtain ⟨hcall, hrest⟩ := hcalls hzero
      rw [emptyPort, if_neg hzero] at h
      refine ((exitProcess_waiting hcall).mp ?_).1
      cases herror : call.error with
      | true =>
        rw [herror] at h
        exact h
      | false =>
        rw [herror] at h
        have hsub := ih (hrest herror) h
        exact subtractCounter_waiting.symm.trans hsub

/-- When its calls complete what is released, the exit loop of a port ends with nothing
outstanding if and only if nothing waits for a batch and no entry fails to be added in it. -/
theorem emptyPort_ends_iff (h : Settled depth s)
    (hcalls : PortCalls (CallCounted portId) portId calls s)
    (hall : PortCalls (CompletesAll portId) portId calls s) (hne : calls ≠ []) :
    ((emptyPort portId calls s).1 = true ∧
        ((emptyPort portId calls s).2.port portId).outstanding = 0) ↔
      (s.port portId).waiting = [] ∧ PortCalls (AddsSucceed portId) portId calls s := by
  by_cases hzero : (s.port portId).queueState = 0
  · have hout := h.zero_iff.mp hzero
    rw [emptyPort_zero hzero]
    exact ⟨fun _ => ⟨(outstanding_zero_iff.mp hout).1, portCalls_zero hzero⟩,
      fun _ => ⟨rfl, hout⟩⟩
  · obtain ⟨call, calls, rfl⟩ := List.exists_cons_of_ne_nil hne
    obtain ⟨hcall, hrest⟩ := hcalls hzero
    have hreleased : ((exitProcess portId s call).port portId).released = [] := (hall hzero).1
    have hwaits := exitProcess_waiting hcall
    have hsettled := exitIteration_settled h hcall
    constructor
    · rintro ⟨-, hout⟩
      have hwaiting := (outstanding_zero_iff.mp hout).1
      rw [emptyPort, if_neg hzero] at hwaiting
      have hempty : ((exitProcess portId s call).port portId).waiting = [] := by
        cases herror : call.error with
        | true =>
          rw [herror] at hwaiting
          exact hwaiting
        | false =>
          rw [herror] at hwaiting
          have hsub := emptyPort_waiting (hrest herror) hwaiting
          exact subtractCounter_waiting.symm.trans hsub
      obtain ⟨hbefore, hadds⟩ := hwaits.mp hempty
      refine ⟨hbefore, fun _ => ⟨hadds, fun _ => portCalls_zero (hsettled.zero_iff.mpr ?_)⟩⟩
      exact subtractCounter_outstanding.trans (outstanding_zero_iff.mpr ⟨hempty, hreleased⟩)
    · rintro ⟨hbefore, hadds⟩
      have hempty := hwaits.mpr ⟨hbefore, (hadds hzero).1⟩
      have hout : ((exitProcess portId s call).port portId).outstanding = 0 :=
        outstanding_zero_iff.mpr ⟨hempty, hreleased⟩
      rw [emptyPort, if_neg hzero]
      cases herror : call.error with
      | true => exact ⟨rfl, hout⟩
      | false =>
        have hafter : ((settle (subtractCounter portId
            (exitProcess portId s call))).port portId).outstanding = 0 :=
          subtractCounter_outstanding.trans hout
        simp only [Bool.false_eq_true, if_false]
        rw [emptyPort_zero (hsettled.zero_iff.mpr hafter)]
        exact ⟨rfl, hafter⟩

/-- The same over the ports, one after the other. -/
theorem emptyPorts_ends_iff {calls : Nat → List ExitCall} {ports : List Nat}
    (h : Settled depth s) (hcalls : ExitCalls CallCounted calls ports s)
    (hall : ExitCalls CompletesAll calls ports s) (hne : ∀ p ∈ ports, calls p ≠ [])
    (hnodup : ports.Nodup) :
    ((emptyPorts calls ports s).1 = true ∧
        ∀ p ∈ ports, ((emptyPorts calls ports s).2.port p).outstanding = 0) ↔
      (∀ p ∈ ports, (s.port p).waiting = []) ∧ ExitCalls AddsSucceed calls ports s := by
  induction ports generalizing s with
  | nil => simp [emptyPorts, ExitCalls]
  | cons portId ports ih =>
    obtain ⟨hfresh, hnodup⟩ := List.nodup_cons.mp hnodup
    have hport := emptyPort_ends_iff h hcalls.1 hall.1 (hne portId (List.mem_cons_self ..))
    have hsettled := emptyPort_settled h hcalls.1
    have hrest := ih hsettled (s := (emptyPort portId (calls portId) s).2)
    have hothers : ∀ p ∈ ports, (emptyPort portId (calls portId) s).2.port p = s.port p :=
      fun p hp => emptyPort_other fun heq => hfresh (heq ▸ hp)
    have hlast : ((emptyPorts calls ports (emptyPort portId (calls portId) s).2).2.port portId) =
        (emptyPort portId (calls portId) s).2.port portId := emptyPorts_other hfresh
    have hcallsRest := hcalls.2
    have hallRest := hall.2
    simp only [ExitCalls, List.forall_mem_cons]
    rw [emptyPorts]
    cases hr : emptyPort portId (calls portId) s with
    | mk ended s' =>
      rw [hr] at hport hrest hothers hlast hcallsRest hallRest
      cases ended with
      | false =>
        simp only [Bool.false_eq_true, false_and, false_iff] at hport ⊢
        exact fun hcontra => hport ⟨hcontra.1.1, hcontra.2.1⟩
      | true =>
        have htail := hrest (hcallsRest rfl) (hallRest rfl)
          (fun p hp => hne p (List.mem_cons_of_mem _ hp)) hnodup
        have hwaits : (∀ p ∈ ports, (s'.port p).waiting = []) ↔
            ∀ p ∈ ports, (s.port p).waiting = [] :=
          forall₂_congr fun p hp => by rw [hothers p hp]
        simp only [hlast, true_implies]
        simp only [true_and] at hport
        rw [hwaits] at htail
        tauto

end exit

/-- In every run whose steps are counted, the number of a port is right whenever it is noted; and
if every process of the exit loop completes all released operations, the loop ends with nothing
outstanding exactly when nothing waited for a batch and no entry failed to be added in it. -/
theorem queue_accounted_when_counted {ctx : SkeletonCtx} {loop : MainLoop}
    (h : LoopCounted ctx loop) :
    (∀ mark ∈ (flowSkeletonMainLoop ctx loop).2.marks, Mark.Right ctx.queueDepth mark) ∧
    ((∀ p < loop.nbPorts, loop.calls p ≠ []) →
      ExitCalls CompletesAll loop.calls (List.range loop.nbPorts) (asked ctx loop) →
      (((flowSkeletonMainLoop ctx loop).1 = true ∧ ∀ p < loop.nbPorts,
          ((flowSkeletonMainLoop ctx loop).2.port p).outstanding = 0) ↔
        (∀ p < loop.nbPorts, ((asked ctx loop).port p).waiting = []) ∧
          ExitCalls AddsSucceed loop.calls (List.range loop.nbPorts) (asked ctx loop))) := by
  have hasked := asked_settled h
  refine ⟨(emptyPorts_settled hasked h.exit).marks, fun hne hall => ?_⟩
  have hends := emptyPorts_ends_iff hasked h.exit hall
    (fun p hp => hne p (List.mem_range.mp hp)) List.nodup_range
  simp only [List.mem_range] at hends
  exact hends

/-- A context that `flow_skeleton_init` makes. -/
def smallCtx : SkeletonCtx := ⟨8, ⟨2, true, true, false, true⟩⟩

/-- A run on one port without an initialization. -/
def onePort (visits : List Visit) (calls : List ExitCall) : MainLoop where
  initialization := false
  nbPorts := 1
  initVisits := fun _ => ⟨[], [], [], []⟩
  rounds := visits.map fun visit _ => visit
  calls := fun _ => calls

def addOne : SkeletonEntry × Answer := (⟨.add, .basic⟩, ⟨true, false⟩)

/-- An entry is added, and its addition is completed by the exit loop. -/
def addedAtExit : MainLoop :=
  onePort [{ batch := [addOne] }] [{ completions := [⟨0, ⟨true, false, false⟩⟩] }]

theorem addedAtExit_counted : LoopCounted smallCtx addedAtExit := by
  refine ⟨trivial, ⟨fun _ => ⟨fun hfull => absurd hfull (by decide), ⟨⟨?_, trivial⟩, trivial⟩, ?_⟩,
    trivial⟩, ⟨fun _ => ⟨⟨⟨?_, trivial⟩, ?_⟩, fun _ => trivial⟩, fun _ => trivial⟩⟩
  · intro _
    decide
  · intro _ notice hnotice
    cases hnotice
  · exact Or.inl rfl
  · intro herror
    cases herror

theorem queue_accounted_added_at_exit :
    LoopCounted smallCtx addedAtExit ∧
      (flowSkeletonMainLoop smallCtx addedAtExit).1 = true ∧
      ∀ p < 1, ((flowSkeletonMainLoop smallCtx addedAtExit).2.port p).outstanding = 0 := by
  refine ⟨addedAtExit_counted, ?_⟩
  refine ((queue_accounted_when_counted addedAtExit_counted).2 (fun _ _ => List.cons_ne_nil _ _) ?_).mpr
    ⟨?_, ?_⟩
  · exact ⟨fun _ => ⟨rfl, fun _ => trivial⟩, fun _ => trivial⟩
  · intro p hp
    cases Nat.lt_one_iff.mp hp
    rfl
  · exact ⟨fun _ => ⟨⟨fun _ => rfl, trivial⟩, fun _ => trivial⟩, fun _ => trivial⟩

/-- The removal of an entry fails. -/
def failedRemoval : MainLoop :=
  onePort [{ batch := [(⟨.del, .basic⟩, ⟨true, false⟩)],
             processed := [⟨0, ⟨false, false, false⟩⟩] }] []

/-- An aged entry is removed, and the next batch releases and completes the removal. -/
def agedRemoval : MainLoop :=
  onePort
    [{ batch := [addOne], processed := [⟨0, ⟨true, false, false⟩⟩], aged := [⟨true, true, true⟩] },
     { batch := [addOne],
       processed := [⟨0, ⟨true, false, false⟩⟩, ⟨0, ⟨true, false, false⟩⟩] }] []

/-- The last entry of the only batch is refused, and so many calls are made at exit. -/
def refusedLast (n : Nat) : MainLoop :=
  onePort [{ batch := [addOne, (⟨.add, .basic⟩, ⟨false, false⟩)] }] (List.replicate n {})

/-- With nothing released and a number above zero, the exit loop never ends. -/
theorem emptyPort_stuck {s : Queues} (n : Nat) (hone : (s.port 0).queueState = 1)
    (hnone : (s.port 0).released = []) :
    PortCalls (CompletesAll 0) 0 (List.replicate n {}) s ∧
      (emptyPort 0 (List.replicate n {}) s).1 = false := by
  induction n generalizing s with
  | zero => exact ⟨trivial, by simp [emptyPort, hone]⟩
  | succ n ih =>
    have hnext := ih (s := settle (subtractCounter 0 (exitProcess 0 s {})))
      (by simp [settle, subtractCounter, exitProcess, entriesProcess, run, Queues.restart, hone])
      (by simp [settle, subtractCounter, exitProcess, entriesProcess, run, Queues.restart, hnone])
    rw [List.replicate_succ, emptyPort, if_neg (by rw [hone]; decide)]
    exact ⟨fun _ => ⟨hnone, fun _ => hnext.1⟩, hnext.2⟩

theorem emptyPorts_stuck {calls : Nat → List ExitCall} {p : Nat} {ports : List Nat} {s : Queues}
    (h : (emptyPort p (calls p) s).1 = false) : (emptyPorts calls (p :: ports) s).1 = false := by
  rw [emptyPorts]
  cases hr : emptyPort p (calls p) s with
  | mk ended s' =>
    rw [hr] at h
    cases h
    rfl

/-- A failed removal stays in the number of its port, an aged one takes the number below zero, and
a batch whose releasing entry was refused keeps the exit loop for ever. -/
theorem queue_number_drifts :
    flowSkeletonInit ⟨8⟩ ⟨2, true, true, false, true⟩ = .ok smallCtx ∧
    (∃ ports, .settled ports ∈ (flowSkeletonMainLoop smallCtx failedRemoval).2.marks ∧
      (ports 0).queueState = 1 ∧ (ports 0).outstanding = 0) ∧
    .subtracting 1 2 ∈ (flowSkeletonMainLoop smallCtx agedRemoval).2.marks ∧
    ∀ n, ExitCalls CompletesAll (refusedLast n).calls [0] (asked smallCtx (refusedLast n)) ∧
      (flowSkeletonMainLoop smallCtx (refusedLast n)).1 = false := by
  refine ⟨rfl, ⟨_, List.mem_cons_of_mem _ (List.mem_cons_of_mem _ (List.mem_cons_self ..)),
    rfl, rfl⟩, List.mem_of_getElem? (i := 4) rfl, fun n => ?_⟩
  have hasked : asked smallCtx (refusedLast n) = asked smallCtx (refusedLast 0) := rfl
  obtain ⟨hcalls, hstuck⟩ := emptyPort_stuck (s := asked smallCtx (refusedLast n)) n
    (by rw [hasked]; decide) (by rw [hasked]; decide)
  refine ⟨⟨hcalls, fun hended => ?_⟩, emptyPorts_stuck hstuck⟩
  exact absurd (hstuck.symm.trans hended) Bool.false_ne_true

end DocaApps.Proofs.FlowSkeleton
