import DocaApps.Proofs.AgingBuckets

namespace DocaApps.Proofs.IdleFlows
open Lib.Runs SimpleFwd.FlowTable SimpleFwd.Aging FlowTable AgingBuckets

/-- The flow table with the packet counters of the hardware entries, now and when the pass
before read them. -/
structure World where
  ft : Ft
  counters : Nat → UInt64
  previous : Nat → UInt64

/-- What happens between passes, and a pass with the calls for each bucket. -/
inductive Op where
  | packet (pinfo : PktInfo) (clock : Clock) (offload : Offload)
  | find (pinfo : PktInfo) (clock : Clock)
  | addNew (pinfo : PktInfo) (clock : Clock) (allocated : Bool)
  | destroy (idx : UInt32) (addr : Nat)
  | traffic (counters : Nat → UInt64)
  | pass (calls : UInt32 → Nat → Sweep)

/-- More calls than any bucket needs. -/
def rounds (ft : Ft) : Nat := ((Ft.indices ft).map fun i => (ft.buckets i).length).sum + 1

def step (w : World) : Op → World
  | .packet pinfo clock offload => { w with ft := simpleFwdHandlePacket w.ft pinfo clock offload }
  | .find pinfo clock => { w with ft := (simpleFwdFtFind w.ft pinfo clock).2 }
  | .addNew pinfo clock allocated => { w with ft := (simpleFwdFtAddNew w.ft pinfo clock allocated).2 }
  | .destroy idx addr => { w with ft := destroyEntry w.ft idx addr }
  | .traffic counters => { w with counters := counters }
  | .pass calls =>
    if noEntries w.ft then w
    else match agingMain (queries w.counters) (rounds w.ft) calls w.ft with
      | none => w
      | some ft => ⟨ft, w.counters, w.counters⟩

def startWorld (ft : Ft) (counters : Nat → UInt64) : World := ⟨ft, counters, fun _ => 0⟩

/-- Counters do not decrease. -/
def Admissible (w : World) : Op → Prop
  | .traffic counters => ∀ addr, w.counters addr ≤ counters addr
  | _ => True

/-- No bucket has a due entry whose counter has grown since the pass before in front of a due
entry whose counter has not grown since it was last read. -/
def AllSheltered (w : World) (calls : UInt32 → Nat → Sweep) : Prop :=
  ∀ i ∈ Ft.indices w.ft, Sheltered w.counters w.previous (calls i) (w.ft.buckets i)

/-- The pass ends, and it removes an entry only if its age is enabled, its time is up at a
call and its counter has not grown since the pass before; all others stay. -/
def RemovesIdle (w : World) (calls : UInt32 → Nat → Sweep) : Prop :=
  ∃ ft removed, (∀ fuel, rounds w.ft ≤ fuel →
      agingMain (queries w.counters) fuel calls w.ft = some ft) ∧
    ft.history = w.ft.history ++ removed ∧
    (∀ c ∈ removed, ∃ i, ∃ e ∈ w.ft.buckets i, c = removal e ∧ DueIn (calls i) e ∧
      w.counters e.addr = w.previous e.addr) ∧
    ∀ i, ∀ e ∈ w.ft.buckets i, removal e ∈ removed ∨ ∃ e' ∈ ft.buckets i, tag e' = tag e

variable {counters previous : Nat → UInt64} {ft : Ft} {calls : UInt32 → Nat → Sweep}
  {fuel : Nat} {i j : UInt32} {x : UInt32 → List FtEntry × List FtEntry} {w : World} {op : Op}

theorem indices_nodup (ft : Ft) : (Ft.indices ft).Nodup := by
  apply List.Nodup.map_on _ List.nodup_range
  intro a ha b hb hab
  rw [List.mem_range] at ha hb
  have hlt := ft.size.toNat_lt
  have hnat := congrArg UInt32.toNat hab
  simp only [UInt32.toNat_ofNat'] at hnat
  omega

/-- The table when the buckets of a list have been swept. -/
def afterSweeps (ft : Ft) (x : UInt32 → List FtEntry × List FtEntry) (is : List UInt32) : Ft :=
  is.foldl (fun ft i => afterSweep ft i (x i)) ft

theorem afterSweeps_cons (is : List UInt32) :
    afterSweeps ft x (i :: is) = afterSweeps (afterSweep ft i (x i)) x is := rfl

theorem afterSweep_buckets : (afterSweep ft i (x i)).buckets j =
    if j = i then (x i).2 else ft.buckets j := by
  simp [afterSweep, setBucket, Function.update_apply]

theorem afterSweeps_buckets (is : List UInt32) :
    (afterSweeps ft x is).buckets j = if j ∈ is then (x j).2 else ft.buckets j := by
  induction is generalizing ft with
  | nil => simp [afterSweeps]
  | cons i is ih =>
    rw [afterSweeps_cons, ih, afterSweep_buckets]
    by_cases hj : j ∈ is
    · simp [hj]
    · by_cases hi : j = i
      · simp [hi]
      · simp [hj, hi]

theorem afterSweeps_history (is : List UInt32) : (afterSweeps ft x is).history =
    ft.history ++ is.flatMap fun i => (x i).1.map removal := by
  induction is generalizing ft with
  | nil => simp [afterSweeps]
  | cons i is ih =>
    rw [afterSweeps_cons, ih, List.flatMap_cons, ← List.append_assoc]
    rfl

/-- The buckets of a pass do not touch one another. -/
theorem sweep_buckets {is : List UInt32} (hnodup : is.Nodup)
    (hx : ∀ i ∈ is, sweepNodes counters fuel (calls i) (ft.buckets i) = some (x i)) :
    is.foldlM (fun ft i => agingBucket (queries counters) i fuel (calls i) ft) ft =
      some (afterSweeps ft x is) := by
  induction is generalizing ft with
  | nil => rfl
  | cons i is ih =>
    obtain ⟨hout, hnodup⟩ := List.nodup_cons.mp hnodup
    rw [List.foldlM_cons, agingBucket_eq, hx i List.mem_cons_self, afterSweeps_cons]
    apply ih hnodup
    intro k hk
    have hne : k ≠ i := fun heq => hout (heq ▸ hk)
    rw [afterSweep_buckets, if_neg hne]
    exact hx k (List.mem_cons_of_mem _ hk)

theorem length_lt_rounds (hi : i ∈ Ft.indices ft) : (ft.buckets i).length < rounds ft :=
  Nat.lt_succ_of_le (List.le_sum_of_mem (List.mem_map_of_mem hi))

/-- What the calls for a bucket remove, and what they leave. -/
def swept (w : World) (calls : UInt32 → Nat → Sweep) (i : UInt32) :
    List FtEntry × List FtEntry :=
  (sweepNodes w.counters (rounds w.ft) (calls i) (w.ft.buckets i)).getD ([], w.ft.buckets i)

theorem swept_eq (hi : i ∈ Ft.indices w.ft) :
    sweepNodes w.counters (rounds w.ft) (calls i) (w.ft.buckets i) = some (swept w calls i) := by
  obtain ⟨x, hx⟩ : ∃ x, sweepNodes w.counters (rounds w.ft) (calls i) (w.ft.buckets i) = some x :=
    sweepNodes_ends (calls i) (length_lt_rounds hi)
  rw [swept, hx]
  rfl

theorem agingMain_eq (hne : noEntries w.ft = false) (hfuel : rounds w.ft ≤ fuel) :
    agingMain (queries w.counters) fuel calls w.ft =
      some (afterSweeps w.ft (swept w calls) (Ft.indices w.ft)) := by
  unfold agingMain
  simp only [hne, Bool.false_eq_true, if_false]
  apply sweep_buckets (indices_nodup w.ft)
  intro i hi
  exact sweepNodes_mono (swept_eq hi) hfuel

/-- No counter has gone down, and no entry has a counter that the pass before did not see. -/
structure Counted (w : World) : Prop where
  last : ∀ i, ∀ e ∈ w.ft.buckets i, e.lastCounter ≤ w.previous e.addr
  previous : ∀ addr, w.previous addr ≤ w.counters addr

theorem unread_of_grown (hw : Counted w) {e : FtEntry} (he : e ∈ w.ft.buckets i)
    (hg : Grown w.counters w.previous e) : Unread w.counters e := by
  intro heq
  have hlast := hw.last i e he
  rw [← heq] at hlast
  exact hg (UInt64.le_antisymm hlast (hw.previous e.addr))

theorem removal_of_tag {r e : FtEntry} (h : tag r = tag e) : removal r = removal e := by
  obtain ⟨haddr, hkey⟩ := Prod.mk.inj h
  rw [removal, removal, haddr, hkey]

theorem removesIdle_of_sheltered (hw : Counted w) (h : AllSheltered w calls) :
    RemovesIdle w calls := by
  cases hne : noEntries w.ft with
  | true =>
    refine ⟨w.ft, [], fun fuel _ => by simp [agingMain, hne], by simp, by simp, ?_⟩
    intro i e he
    exact Or.inr ⟨e, he, rfl⟩
  | false =>
    refine ⟨_, _, fun fuel hfuel => agingMain_eq hne hfuel, afterSweeps_history _, ?_, ?_⟩
    · intro c hc
      obtain ⟨i, hi, hc⟩ := List.mem_flatMap.mp hc
      obtain ⟨r, hr, rfl⟩ := List.mem_map.mp hc
      obtain ⟨e, he, htag, hdue, hg⟩ := sweepNodes_idle (swept_eq hi) (fun _ h => h)
        (fun e he hg => unread_of_grown hw he hg) (h i hi) r hr
      exact ⟨i, e, he, removal_of_tag htag.symm, hdue, not_not.mp hg⟩
    · intro i e he
      by_cases hi : i ∈ Ft.indices w.ft
      · rcases sweepNodes_kept (swept_eq hi) e he with ⟨r, hr, htag⟩ | hleft
        · refine Or.inl (List.mem_flatMap.mpr ⟨i, hi, ?_⟩)
          rw [← removal_of_tag htag]
          exact List.mem_map_of_mem hr
        · rw [afterSweeps_buckets, if_pos hi]
          exact Or.inr hleft
      · rw [afterSweeps_buckets, if_neg hi]
        exact Or.inr ⟨e, he, rfl⟩

/-- All calls of the pass get their locks and no entry's time comes up during it. -/
def SteadyPass (w : World) (calls : UInt32 → Nat → Sweep) : Prop :=
  ∀ i, Steady (calls i) (w.ft.buckets i)

theorem due_of_dueIn {nodes : List FtEntry} {calls : Nat → Sweep} {e : FtEntry}
    (h : Steady calls nodes) (he : e ∈ nodes) (hdue : DueIn calls e) : Due (calls 0).t e := by
  obtain ⟨k, -, hk⟩ := hdue
  exact (h.due e he k).mp hk

theorem sheltered_of_removesIdle (hne : noEntries w.ft = false) (hsteady : SteadyPass w calls)
    (h : RemovesIdle w calls) : AllSheltered w calls := by
  obtain ⟨ft, removed, hend, hhistory, hidle, -⟩ := h
  intro i hi e f hpair he hf hg hgone
  have hin : ∀ g ∈ [e, f], g ∈ w.ft.buckets i := fun g hg => hpair.subset hg
  obtain ⟨r, hr, htag⟩ := sweepNodes_exposed (swept_eq hi) (hsteady i) hpair
    (due_of_dueIn (hsteady i) (hin e (by simp)) he)
    (due_of_dueIn (hsteady i) (hin f (by simp)) hf) (fun hne => hne hgone)
  have hft := (hend _ (Nat.le_refl _)).symm.trans (agingMain_eq hne (Nat.le_refl _))
  obtain rfl := Option.some.inj hft
  have hremoved : removal e ∈ removed := by
    rw [List.append_cancel_left (hhistory.symm.trans (afterSweeps_history _)),
      ← removal_of_tag htag]
    exact List.mem_flatMap.mpr ⟨i, hi, List.mem_map_of_mem hr⟩
  obtain ⟨j, e', -, hsame, -, hidle⟩ := hidle _ hremoved
  have haddr : e.addr = e'.addr := (Change.removed.inj hsame).2
  rw [← haddr] at hidle
  exact hg hidle

/-- The counters that the entries of a table have read are at most those of the pass before. -/
def LastBelow (previous : Nat → UInt64) (ft : Ft) : Prop :=
  ∀ i, ∀ e ∈ ft.buckets i, e.lastCounter ≤ previous e.addr

variable {nodes : List FtEntry} {addr : Nat}

theorem below_setBucket (h : LastBelow previous ft)
    (hnodes : ∀ e ∈ nodes, e.lastCounter ≤ previous e.addr) :
    LastBelow previous (setBucket ft i nodes) := by
  intro j e he
  simp only [setBucket, Function.update_apply] at he
  split at he
  · exact hnodes e he
  · exact h j e he

theorem below_updateEntry (h : LastBelow previous ft) {f : FtEntry → FtEntry}
    (hf : ∀ e, (f e).addr = e.addr ∧ (f e).lastCounter = e.lastCounter) :
    LastBelow previous (updateEntry ft i addr f) := by
  apply below_setBucket h
  intro e' he'
  obtain ⟨e, he, rfl⟩ := List.mem_map.mp he'
  split
  · rw [(hf e).1, (hf e).2]
    exact h i e he
  · exact h i e he

theorem updateExpiration_last (e : FtEntry) (clock : Clock) :
    (updateExpiration e clock).addr = e.addr ∧
      (updateExpiration e clock).lastCounter = e.lastCounter := by
  unfold updateExpiration
  split <;> exact ⟨rfl, rfl⟩

theorem findNode_last (key : Key) (clock : Clock)
    (h : ∀ e ∈ nodes, e.lastCounter ≤ previous e.addr) :
    ∀ e ∈ (findNode key clock nodes).2, e.lastCounter ≤ previous e.addr := by
  induction nodes with
  | nil => exact h
  | cons node rest ih =>
    obtain ⟨hnode, hrest⟩ := List.forall_mem_cons.mp h
    unfold findNode
    split
    · refine List.forall_mem_cons.mpr ⟨?_, hrest⟩
      rw [(updateExpiration_last node clock).1, (updateExpiration_last node clock).2]
      exact hnode
    · exact List.forall_mem_cons.mpr ⟨hnode, ih hrest⟩

theorem below_find (h : LastBelow previous ft) (pinfo : PktInfo) (clock : Clock) :
    LastBelow previous (simpleFwdFtFind ft pinfo clock).2 := by
  unfold simpleFwdFtFind
  cases keyFill pinfo with
  | none => exact h
  | some key =>
    have hset := below_setBucket (i := key.rssHash &&& ft.mask) h
      (findNode_last key clock (h (key.rssHash &&& ft.mask)))
    dsimp only
    split <;> exact hset

theorem below_addNew (h : LastBelow previous ft) (pinfo : PktInfo) (clock : Clock)
    (allocated : Bool) : LastBelow previous (simpleFwdFtAddNew ft pinfo clock allocated).2 := by
  unfold simpleFwdFtAddNew
  cases keyFill pinfo with
  | none => exact h
  | some key =>
    cases allocated with
    | false => exact h
    | true =>
      refine below_setBucket h (List.forall_mem_cons.mpr ⟨?_, h _⟩)
      rw [(updateExpiration_last _ clock).2]
      exact UInt64.zero_le

theorem below_destroy (h : LastBelow previous ft) (i : UInt32) (addr : Nat) :
    LastBelow previous (destroyEntry ft i addr) := by
  unfold destroyEntry
  split
  · exact h
  · exact below_setBucket h fun e he => h i e (List.mem_of_mem_eraseP he)

theorem below_newFlow (h : LastBelow previous ft) (pinfo : PktInfo) (clock : Clock)
    (offload : Offload) : LastBelow previous (simpleFwdHandleNewFlow ft pinfo clock offload).2 := by
  have hadd := below_addNew h pinfo clock offload.allocated
  unfold simpleFwdHandleNewFlow
  split
  · next heq => rwa [heq] at hadd
  · next ctx ft' heq =>
    rw [heq] at hadd
    split
    · apply below_destroy
      apply below_updateEntry hadd
      exact fun _ => ⟨rfl, rfl⟩
    · apply below_updateEntry
      · apply below_updateEntry hadd
        exact fun _ => ⟨rfl, rfl⟩
      · exact fun e => updateExpiration_last { e with ageSec := offload.ageSec } clock

theorem below_packet (h : LastBelow previous ft) (pinfo : PktInfo) (clock : Clock)
    (offload : Offload) : LastBelow previous (simpleFwdHandlePacket ft pinfo clock offload) := by
  have hfind := below_find h pinfo clock
  unfold simpleFwdHandlePacket
  split
  · exact h
  · split
    · next heq =>
      rw [heq] at hfind
      apply below_updateEntry hfind
      exact fun _ => ⟨rfl, rfl⟩
    · next ft' heq =>
      rw [heq] at hfind
      have hnew := below_newFlow hfind pinfo clock offload
      split
      · next heq' => rwa [heq'] at hnew
      · next heq' =>
        rw [heq'] at hnew
        apply below_updateEntry hnew
        exact fun _ => ⟨rfl, rfl⟩

/-- A pass reads counters as they are, so that it is the pass before for the next. -/
theorem pass_counted (hw : Counted w) (calls : UInt32 → Nat → Sweep) :
    Counted (step w (.pass calls)) := by
  simp only [step]
  cases hne : noEntries w.ft with
  | true => exact hw
  | false =>
    rw [agingMain_eq hne (Nat.le_refl _)]
    refine ⟨?_, fun _ => UInt64.le_refl _⟩
    intro i e' he'
    have hold : ∀ e ∈ w.ft.buckets i, e.lastCounter ≤ w.counters e.addr :=
      fun e he => UInt64.le_trans (hw.last i e he) (hw.previous e.addr)
    simp only [Bool.false_eq_true, if_false, afterSweeps_buckets] at he' ⊢
    split at he'
    · next hi =>
      obtain ⟨e, he, haddr, hlast | hlast⟩ := sweepNodes_left (swept_eq hi) e' he'
      · rw [haddr, hlast]
        exact hold e he
      · rw [haddr, hlast]
        exact UInt64.le_refl _
    · exact hold e' he'

theorem step_counted (hw : Counted w) (hop : Admissible w op) : Counted (step w op) := by
  have hlast : LastBelow w.previous w.ft := hw.last
  cases op with
  | packet pinfo clock offload => exact ⟨below_packet hlast pinfo clock offload, hw.previous⟩
  | find pinfo clock => exact ⟨below_find hlast pinfo clock, hw.previous⟩
  | addNew pinfo clock allocated => exact ⟨below_addNew hlast pinfo clock allocated, hw.previous⟩
  | destroy idx addr => exact ⟨below_destroy hlast idx addr, hw.previous⟩
  | traffic counters => exact ⟨hw.last, fun a => UInt64.le_trans (hw.previous a) (hop a)⟩
  | pass calls => exact pass_counted hw calls

theorem start_counted {nbFlows : Int} {allocated : Bool}
    (hft : simpleFwdFtCreate nbFlows allocated = some ft) (counters : Nat → UInt64) :
    Counted (startWorld ft counters) := by
  have hempty : ∀ i, ft.buckets i = [] := by
    unfold simpleFwdFtCreate at hft
    split at hft
    · cases hft
    · dsimp only at hft
      split at hft
      · obtain rfl := Option.some.inj hft
        exact fun _ => rfl
      · cases hft
  refine ⟨?_, fun _ => UInt64.zero_le⟩
  intro i e he
  rw [show (startWorld ft counters).ft.buckets i = [] from hempty i] at he
  exact absurd he (by simp)

def ShelteredOp (w : World) : Op → Prop
  | .pass calls => AllSheltered w calls
  | _ => True

def IdleOp (w : World) : Op → Prop
  | .pass calls => RemovesIdle w calls
  | _ => True

/-- In every run, a pass removes only idle flows when no growing flow stands in front of a
stale one; and where the locks are free and no time comes up during a pass, only then. -/
theorem aging_removes_idle_when_sheltered {nbFlows : Int} {allocated : Bool}
    (hft : simpleFwdFtCreate nbFlows allocated = some ft) (counters : Nat → UInt64)
    (ops : List Op) (hops : Along step Admissible (startWorld ft counters) ops) :
    Along step (fun w op => ShelteredOp w op → IdleOp w op) (startWorld ft counters) ops ∧
      ∀ calls, noEntries (run step (startWorld ft counters) ops).ft = false →
        SteadyPass (run step (startWorld ft counters) ops) calls →
        (RemovesIdle (run step (startWorld ft counters) ops) calls ↔
          AllSheltered (run step (startWorld ft counters) ops) calls) := by
  have hstart := start_counted hft counters
  refine ⟨?_, ?_⟩
  · apply hops.under (fun _ _ => step_counted) _ hstart
    intro w op hw _ hshelter
    cases op with
    | pass calls => exact removesIdle_of_sheltered hw hshelter
    | _ => trivial
  · intro calls hne hsteady
    have hw := run_invariant (fun _ _ => step_counted) hstart hops
    exact ⟨sheltered_of_removesIdle hne hsteady, removesIdle_of_sheltered hw⟩

/-- A flow of the bucket 0, with this source port. -/
def flowPacket (srcPort : BitVec 16) : PktInfo where
  origPortId := 0
  pipeQueue := 0
  rssHash := 0
  outer := ⟨ipv4, docaProtoTcp, 0x0a000001, 0x0a000002, srcPort, 80⟩
  tunType := .none
  vni := 0
  inner := ⟨0, 0, 0, 0, 0, 0⟩

def smallTable : Ft := ⟨2, 1, 0, 0, 0, fun _ => [], 0, []⟩

theorem simpleFwd_smallTable : simpleFwdFtCreate 1 true = some smallTable := rfl

def callsAt (t : UInt64) : UInt32 → Nat → Sweep := fun _ _ => ⟨t, true⟩

/-- Two flows of one bucket, a pass before their time is up, and five packets of the newer. -/
def oneGrows : List Op :=
  [.packet (flowPacket 1) ⟨0, 1⟩ offloaded, .packet (flowPacket 2) ⟨0, 1⟩ offloaded,
    .pass (callsAt 1), .traffic fun addr => if addr = 1 then 5 else 0]

theorem oneGrows_admissible :
    Along step Admissible (startWorld smallTable fun _ => 0) oneGrows :=
  ⟨trivial, trivial, trivial, fun _ => UInt64.zero_le, trivial⟩

theorem aging_removes_idle_one_grows :
    Along step (fun w op => ShelteredOp w op → IdleOp w op) (startWorld smallTable fun _ => 0)
      oneGrows :=
  (aging_removes_idle_when_sheltered simpleFwd_smallTable _ oneGrows oneGrows_admissible).1

/-- Both flows are due: the first call reads the counter of the newer and removes the older,
and the second finds the newer read and removes it too. -/
theorem growing_flow_removed :
    Along step Admissible (startWorld smallTable fun _ => 0) oneGrows ∧
      ¬ RemovesIdle (run step (startWorld smallTable fun _ => 0) oneGrows) (callsAt 100) := by
  refine ⟨oneGrows_admissible, ?_⟩
  rintro ⟨ft, removed, hend, hhistory, hidle, -⟩
  have hrun : (agingMain (queries (run step (startWorld smallTable fun _ => 0) oneGrows).counters)
      3 (callsAt 100) (run step (startWorld smallTable fun _ => 0) oneGrows).ft).map Ft.history =
        some ((run step (startWorld smallTable fun _ => 0) oneGrows).ft.history ++
          [.removed ((keyFill (flowPacket 1)).get rfl) 0,
            .removed ((keyFill (flowPacket 2)).get rfl) 1]) := by
    decide +kernel
  rw [hend 3 (by decide +kernel), Option.map_some, hhistory] at hrun
  have hremoved := List.append_cancel_left (Option.some.inj hrun)
  obtain ⟨i, e, -, hsame, -, hsame'⟩ := hidle (.removed ((keyFill (flowPacket 2)).get rfl) 1)
    (by rw [hremoved]; simp)
  have haddr : (1 : Nat) = e.addr := (Change.removed.inj hsame).2
  rw [← haddr] at hsame'
  revert hsame'
  decide +kernel

end DocaApps.Proofs.IdleFlows
