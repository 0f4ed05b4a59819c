import DocaApps.SimpleFwd.FlowTable
import DocaApps.Proofs.FlowTable

namespace DocaApps.Proofs.AgingBuckets
open SimpleFwd.FlowTable SimpleFwd.Aging FlowTable

/-- The queries of a pass: none fails, and no packet comes in meanwhile. -/
def queries (counters : Nat → UInt64) : Query := fun addr => some (counters addr)

/-- The age of the entry is enabled and its time is up. -/
def Due (t : UInt64) (e : FtEntry) : Prop := e.ageSec ≠ 0 ∧ e.expiration < t

instance (t : UInt64) (e : FtEntry) : Decidable (Due t e) :=
  inferInstanceAs (Decidable (e.ageSec ≠ 0 ∧ e.expiration < t))

/-- The counter of the entry has grown since it was last read. -/
def Unread (counters : Nat → UInt64) (e : FtEntry) : Prop := counters e.addr ≠ e.lastCounter

instance (counters : Nat → UInt64) (e : FtEntry) : Decidable (Unread counters e) :=
  inferInstanceAs (Decidable (counters e.addr ≠ e.lastCounter))

/-- What a walk does to an entry that it goes past. -/
def readAt (counters : Nat → UInt64) (t : UInt64) (e : FtEntry) : FtEntry :=
  if Due t e then { e with lastCounter := counters e.addr } else e

variable {counters : Nat → UInt64} {t t' : UInt64} {e f : FtEntry} {nodes : List FtEntry}

theorem readAt_addr : (readAt counters t e).addr = e.addr := by
  unfold readAt
  split <;> rfl

theorem tag_readAt : tag (readAt counters t e) = tag e := by
  unfold readAt
  split <;> rfl

theorem due_readAt : Due t' (readAt counters t e) ↔ Due t' e := by
  unfold readAt
  split <;> rfl

/-- Once a due entry has been read, it has nothing new. -/
theorem not_unread_readAt (h : Due t e) : ¬ Unread counters (readAt counters t e) := by
  simp [Unread, readAt, h]

theorem readAt_of_not_due (h : ¬ Due t e) : readAt counters t e = e := if_neg h

/-- A walk reads the due entries up to the first that has nothing new, and removes it. -/
theorem agingNodes_cases (counters : Nat → UInt64) (t : UInt64) (nodes : List FtEntry) :
    (agingNodes t (queries counters) nodes = (none, nodes.map (readAt counters t)) ∧
      ∀ e ∈ nodes, Due t e → Unread counters e) ∨
    ∃ left r right, nodes = left ++ r :: right ∧
      agingNodes t (queries counters) nodes =
        (some r, left.map (readAt counters t) ++ right) ∧
      Due t r ∧ ¬ Unread counters r ∧ ∀ e ∈ left, Due t e → Unread counters e := by
  induction nodes with
  | nil => exact Or.inl ⟨rfl, fun e he => absurd he (by simp)⟩
  | cons node rest ih =>
    have hsub : counters node.addr - node.lastCounter ≠ 0 ↔ Unread counters node := by
      simp [Unread, sub_eq_zero]
    by_cases hread : Due t node → Unread counters node
    · -- the walk goes past this node
      have hstep : agingNodes t (queries counters) (node :: rest) =
          ((agingNodes t (queries counters) rest).1,
            readAt counters t node :: (agingNodes t (queries counters) rest).2) := by
        conv_lhs => rw [agingNodes]
        by_cases hdue : Due t node
        · have hgrew := hsub.mpr (hread hdue)
          simp [queries, readAt, hdue, hdue.1, hdue.2, hgrew]
        · have hskip : ¬ (node.ageSec ≠ 0 ∧ node.expiration < t) := hdue
          simp only [hskip, if_false, readAt_of_not_due hdue]
      rcases ih with ⟨hnone, hall⟩ | ⟨left, r, right, rfl, hsome, hr, hgone, hleft⟩
      · refine Or.inl ⟨?_, ?_⟩
        · rw [hstep, hnone]
          rfl
        · intro e he
          rcases List.mem_cons.mp he with rfl | he
          · exact hread
          · exact hall e he
      · refine Or.inr ⟨node :: left, r, right, rfl, ?_, hr, hgone, ?_⟩
        · rw [hstep, hsome]
          rfl
        · intro e he
          rcases List.mem_cons.mp he with rfl | he
          · exact hread
          · exact hleft e he
    · obtain ⟨hdue, hgone⟩ := Classical.not_imp.mp hread
      refine Or.inr ⟨[], node, rest, rfl, ?_, hdue, hgone, fun e he => absurd he (by simp)⟩
      have hsame : ¬ counters node.addr - node.lastCounter ≠ 0 := fun h => hgone (hsub.mp h)
      unfold agingNodes
      simp [queries, hdue.1, hdue.2, not_not.mp hsame]

/-- The calls for one bucket as they are on its list: what they remove, and what is left. -/
def sweepNodes (counters : Nat → UInt64) :
    Nat → (Nat → Sweep) → List FtEntry → Option (List FtEntry × List FtEntry)
  | 0, _, _ => none
  | fuel + 1, calls, nodes =>
    if (calls 0).locked then
      match agingNodes (calls 0).t (queries counters) nodes with
      | (none, nodes) => some ([], nodes)
      | (some r, nodes) =>
        (sweepNodes counters fuel (fun k => calls (k + 1)) nodes).map fun x => (r :: x.1, x.2)
    else some ([], nodes)

def removal (e : FtEntry) : Change := .removed e.key e.addr

/-- The table when a bucket has been swept. -/
def afterSweep (ft : Ft) (i : UInt32) (x : List FtEntry × List FtEntry) : Ft :=
  { setBucket ft i x.2 with
    rm := ft.rm + UInt64.ofNat x.1.length
    history := ft.history ++ x.1.map removal }

theorem afterSweep_nil (ft : Ft) (i : UInt32) (nodes : List FtEntry) :
    afterSweep ft i ([], nodes) = setBucket ft i nodes := by
  simp [afterSweep, setBucket]

theorem afterSweep_cons (ft : Ft) (i : UInt32) (r : FtEntry) (mid : List FtEntry)
    (x : List FtEntry × List FtEntry) :
    afterSweep (afterSweep ft i ([r], mid)) i x = afterSweep ft i (r :: x.1, x.2) := by
  simp only [afterSweep, setBucket, Function.update_idem, List.length_cons, List.map_cons,
    List.append_assoc, List.map_nil, List.singleton_append, Ft.mk.injEq, true_and, and_true]
  rw [List.length_nil, UInt64.add_assoc, ← UInt64.ofNat_add, Nat.add_comm]

theorem setBucket_same (ft : Ft) (i : UInt32) : setBucket ft i (ft.buckets i) = ft := by
  simp [setBucket]

theorem agingBucket_eq (ft : Ft) (i : UInt32) (fuel : Nat) (calls : Nat → Sweep) :
    agingBucket (queries counters) i fuel calls ft =
      (sweepNodes counters fuel calls (ft.buckets i)).map (afterSweep ft i) := by
  induction fuel generalizing ft calls with
  | zero => rfl
  | succ fuel ih =>
    unfold agingBucket sweepNodes stillAging agingFtEntry
    cases hlock : (calls 0).locked with
    | false => simp [afterSweep_nil, setBucket_same]
    | true =>
      cases hwalk : agingNodes (calls 0).t (queries counters) (ft.buckets i) with
      | mk found nodes =>
        cases found with
        | none => simp [afterSweep_nil]
        | some r =>
          have hfirst : ({ setBucket ft i nodes with
              rm := ft.rm + 1, history := ft.history ++ [.removed r.key r.addr] } : Ft) =
                afterSweep ft i ([r], nodes) := by simp [afterSweep, setBucket, removal]
          simp only [Bool.true_and, Option.isSome_some, if_true, Bool.not_true,
            Bool.false_eq_true, if_false]
          refine Eq.trans (congrArg _ hfirst) ?_
          rw [ih]
          have hnodes : (afterSweep ft i ([r], nodes)).buckets i = nodes := by
            simp [afterSweep, setBucket]
          rw [hnodes, Option.map_map]
          congr 1
          funext x
          exact afterSweep_cons ft i r nodes x

variable {calls : Nat → Sweep} {fuel : Nat} {x : List FtEntry × List FtEntry}

/-- The age of the entry is enabled and its time is up at a call that gets the lock. -/
def DueIn (calls : Nat → Sweep) (e : FtEntry) : Prop :=
  ∃ k, (calls k).locked = true ∧ Due (calls k).t e

theorem DueIn.of_rest (h : DueIn (fun k => calls (k + 1)) e) : DueIn calls e := by
  obtain ⟨k, hk⟩ := h
  exact ⟨k + 1, hk⟩

theorem dueIn_readAt : DueIn calls (readAt counters t e) ↔ DueIn calls e := by
  unfold DueIn
  simp only [due_readAt]

/-- How the calls for a bucket go on: a call removes nothing and is the last, or it removes
the first due entry with nothing new and the others follow. -/
theorem sweepNodes_succ (h : sweepNodes counters (fuel + 1) calls nodes = some x) :
    ((calls 0).locked = false ∧ x = ([], nodes)) ∨
    ((calls 0).locked = true ∧ x = ([], nodes.map (readAt counters (calls 0).t)) ∧
      ∀ e ∈ nodes, Due (calls 0).t e → Unread counters e) ∨
    ∃ left r right rs, (calls 0).locked = true ∧ nodes = left ++ r :: right ∧
      Due (calls 0).t r ∧ ¬ Unread counters r ∧
      (∀ e ∈ left, Due (calls 0).t e → Unread counters e) ∧ x.1 = r :: rs ∧
      sweepNodes counters fuel (fun k => calls (k + 1))
        (left.map (readAt counters (calls 0).t) ++ right) = some (rs, x.2) := by
  unfold sweepNodes at h
  cases hlock : (calls 0).locked with
  | false =>
    simp only [hlock, Bool.false_eq_true, if_false, Option.some.injEq] at h
    exact Or.inl ⟨rfl, h.symm⟩
  | true =>
    simp only [hlock, if_true] at h
    rcases agingNodes_cases counters (calls 0).t nodes with
      ⟨hnone, hall⟩ | ⟨left, r, right, rfl, hsome, hr, hgone, hleft⟩
    · rw [hnone] at h
      exact Or.inr (Or.inl ⟨rfl, (Option.some.inj h).symm, hall⟩)
    · rw [hsome] at h
      obtain ⟨y, hy, rfl⟩ := Option.map_eq_some_iff.mp h
      exact Or.inr (Or.inr ⟨left, r, right, y.1, rfl, rfl, hr, hgone, hleft, rfl, hy⟩)

/-- Every call but the last removes an entry. -/
theorem sweepNodes_ends (calls : Nat → Sweep) (h : nodes.length < fuel) :
    ∃ x, sweepNodes counters fuel calls nodes = some x := by
  induction fuel generalizing nodes calls with
  | zero => omega
  | succ fuel ih =>
    unfold sweepNodes
    cases (calls 0).locked with
    | false => exact ⟨_, rfl⟩
    | true =>
      simp only [if_true]
      rcases agingNodes_cases counters (calls 0).t nodes with
        ⟨hnone, -⟩ | ⟨left, r, right, rfl, hsome, -⟩
      · rw [hnone]
        exact ⟨_, rfl⟩
      · rw [hsome]
        simp only [List.length_append, List.length_cons] at h
        have hlen : (left.map (readAt counters (calls 0).t) ++ right).length < fuel := by
          simp
          omega
        obtain ⟨y, hy⟩ := ih (fun k => calls (k + 1)) hlen
        refine ⟨(r :: y.1, y.2), ?_⟩
        simp only [hy, Option.map_some]

/-- More calls than are needed change nothing. -/
theorem sweepNodes_mono {fuel' : Nat} (h : sweepNodes counters fuel calls nodes = some x)
    (hle : fuel ≤ fuel') : sweepNodes counters fuel' calls nodes = some x := by
  induction fuel generalizing nodes calls x fuel' with
  | zero => cases h
  | succ fuel ih =>
    obtain ⟨fuel', rfl⟩ : ∃ n, fuel' = n + 1 := ⟨fuel' - 1, by omega⟩
    unfold sweepNodes at h ⊢
    split at h
    · next hlock =>
      rw [if_pos hlock]
      split at h
      · exact h
      · obtain ⟨y, hy, rfl⟩ := Option.map_eq_some_iff.mp h
        rw [ih hy (by omega)]
        rfl
    · next hlock =>
      rw [if_neg hlock]
      exact h

/-- What was in the bucket has been removed or is still there. -/
theorem sweepNodes_kept (h : sweepNodes counters fuel calls nodes = some x) :
    ∀ e ∈ nodes, (∃ r ∈ x.1, tag r = tag e) ∨ ∃ e' ∈ x.2, tag e' = tag e := by
  induction fuel generalizing nodes calls x with
  | zero => cases h
  | succ fuel ih =>
    intro e he
    rcases sweepNodes_succ h with ⟨-, rfl⟩ | ⟨-, rfl, -⟩ |
      ⟨left, r, right, rs, -, rfl, -, -, -, hx, hrest⟩
    · exact Or.inr ⟨e, he, rfl⟩
    · exact Or.inr ⟨_, List.mem_map_of_mem he, tag_readAt⟩
    · have hnext : e = r ∨ ∃ e' ∈ left.map (readAt counters (calls 0).t) ++ right,
          tag e' = tag e := by
        rcases List.mem_append.mp he with he | he
        · exact Or.inr ⟨_, List.mem_append_left _ (List.mem_map_of_mem he), tag_readAt⟩
        · rcases List.mem_cons.mp he with rfl | he
          · exact Or.inl rfl
          · exact Or.inr ⟨e, List.mem_append_right _ he, rfl⟩
      rcases hnext with rfl | ⟨e', he', htag⟩
      · exact Or.inl ⟨e, by rw [hx]; exact List.mem_cons_self, rfl⟩
      · rcases ih hrest e' he' with ⟨r', hr', heq⟩ | ⟨e'', he'', heq⟩
        · exact Or.inl ⟨r', by rw [hx]; exact List.mem_cons_of_mem _ hr', heq.trans htag⟩
        · exact Or.inr ⟨e'', he'', heq.trans htag⟩

/-- An entry that is left has been read or has the counter that it had. -/
theorem sweepNodes_left (h : sweepNodes counters fuel calls nodes = some x) :
    ∀ e' ∈ x.2, ∃ e ∈ nodes, e'.addr = e.addr ∧
      (e'.lastCounter = e.lastCounter ∨ e'.lastCounter = counters e.addr) := by
  have hread : ∀ t e, (readAt counters t e).lastCounter = e.lastCounter ∨
      (readAt counters t e).lastCounter = counters e.addr := by
    intro t e
    unfold readAt
    split
    · exact Or.inr rfl
    · exact Or.inl rfl
  induction fuel generalizing nodes calls x with
  | zero => cases h
  | succ fuel ih =>
    intro e' he'
    rcases sweepNodes_succ h with ⟨-, rfl⟩ | ⟨-, rfl, -⟩ |
      ⟨left, r, right, rs, -, rfl, -, -, -, -, hrest⟩
    · exact ⟨e', he', rfl, Or.inl rfl⟩
    · obtain ⟨e, he, rfl⟩ := List.mem_map.mp he'
      exact ⟨e, he, readAt_addr, hread _ e⟩
    · obtain ⟨e, he, haddr, hlast⟩ := ih hrest e' he'
      rcases List.mem_append.mp he with he | he
      · obtain ⟨e, hmem, rfl⟩ := List.mem_map.mp he
        rw [readAt_addr] at haddr hlast
        refine ⟨e, List.mem_append_left _ hmem, haddr, ?_⟩
        rcases hlast with hlast | hlast
        · rw [hlast]
          exact hread _ e
        · exact Or.inr hlast
      · exact ⟨e, List.mem_append_right _ (List.mem_cons_of_mem _ he), haddr, hlast⟩

theorem pair_append {α : Type} {a b : α} {l m : List α} (h : [a, b].Sublist (l ++ m)) :
    [a, b].Sublist l ∨ (a ∈ l ∧ b ∈ m) ∨ [a, b].Sublist m := by
  obtain ⟨l₁, l₂, heq, h₁, h₂⟩ := List.sublist_append_iff.mp h
  match l₁, heq with
  | [], heq => exact Or.inr (Or.inr (by rwa [show l₂ = [a, b] from heq.symm] at h₂))
  | [_], heq =>
    simp only [List.singleton_append, List.cons.injEq] at heq
    obtain ⟨rfl, rfl⟩ := heq
    exact Or.inr (Or.inl ⟨List.singleton_sublist.mp h₁, List.singleton_sublist.mp h₂⟩)
  | [_, _], heq =>
    simp only [List.cons_append, List.nil_append, List.cons.injEq] at heq
    obtain ⟨rfl, rfl, -⟩ := heq
    exact Or.inl h₁
  | _ :: _ :: _ :: _, heq => simp at heq

variable {previous : Nat → UInt64} {all : Nat → Sweep}

/-- The counter of the entry has grown since the pass before. -/
def Grown (counters previous : Nat → UInt64) (e : FtEntry) : Prop :=
  counters e.addr ≠ previous e.addr

/-- Behind an entry that is due and has grown, no due entry has nothing new. -/
def Sheltered (counters previous : Nat → UInt64) (calls : Nat → Sweep) (nodes : List FtEntry) :
    Prop :=
  ∀ e f, [e, f].Sublist nodes → DueIn calls e → DueIn calls f → Grown counters previous e →
    Unread counters f

/-- The calls remove idle entries only. The invariant: what is due and has grown has not been
read since, nor has anything due that stands behind it. -/
theorem sweepNodes_idle (h : sweepNodes counters fuel calls nodes = some x)
    (hall : ∀ e, DueIn calls e → DueIn all e)
    (hread : ∀ e ∈ nodes, Grown counters previous e → Unread counters e)
    (hshelter : Sheltered counters previous all nodes) :
    ∀ r ∈ x.1, ∃ e ∈ nodes, tag e = tag r ∧ DueIn all e ∧ ¬ Grown counters previous e := by
  induction fuel generalizing nodes calls x with
  | zero => cases h
  | succ fuel ih =>
    rcases sweepNodes_succ h with ⟨-, rfl⟩ | ⟨-, rfl, -⟩ |
      ⟨left, r, right, rs, hlock, rfl, hdue, hgone, -, hx, hrest⟩
    · simp
    · simp
    · have hr : DueIn all r := hall r ⟨0, hlock, hdue⟩
      have hin : r ∈ left ++ r :: right := by simp
      have hidle : ¬ Grown counters previous r := fun hg => hgone (hread r hin hg)
      -- no entry in front of the removed one has grown
      have hleft : ∀ e ∈ left, DueIn all e → ¬ Grown counters previous e := by
        intro e he hd hg
        refine hgone (hshelter e r ?_ hd hr hg)
        exact List.Sublist.append (List.singleton_sublist.mpr he)
          (List.singleton_sublist.mpr List.mem_cons_self)
      have hmapped : ∀ e' ∈ left.map (readAt counters (calls 0).t), DueIn all e' →
          ¬ Grown counters previous e' := by
        intro e' he' hd
        obtain ⟨e, he, rfl⟩ := List.mem_map.mp he'
        unfold Grown
        rw [readAt_addr]
        exact hleft e he (dueIn_readAt.mp hd)
      have hread' : ∀ e' ∈ left.map (readAt counters (calls 0).t) ++ right,
          Grown counters previous e' → Unread counters e' := by
        intro e' he' hg
        rcases List.mem_append.mp he' with hin' | hin'
        · obtain ⟨e, he, rfl⟩ := List.mem_map.mp hin'
          by_cases hd : Due (calls 0).t e
          · exact absurd hg (hmapped _ hin' (dueIn_readAt.mpr (hall e ⟨0, hlock, hd⟩)))
          · rw [readAt_of_not_due hd] at hg ⊢
            exact hread e (List.mem_append_left _ he) hg
        · exact hread e' (List.mem_append_right _ (List.mem_cons_of_mem _ hin')) hg
      have hshelter' : Sheltered counters previous all
          (left.map (readAt counters (calls 0).t) ++ right) := by
        intro e' f' hpair hde hdf hg
        rcases pair_append hpair with hpair | ⟨he', -⟩ | hpair
        · exact absurd hg (hmapped e' (hpair.subset (by simp)) hde)
        · exact absurd hg (hmapped e' he' hde)
        · refine hshelter e' f' ?_ hde hdf hg
          exact hpair.trans ((List.sublist_cons_self r right).trans
            (List.sublist_append_right left _))
      intro r' hr'
      rw [hx] at hr'
      rcases List.mem_cons.mp hr' with rfl | hr'
      · exact ⟨r', hin, rfl, hr, hidle⟩
      · obtain ⟨e, he, htag, hd, hg⟩ :=
          ih hrest (fun e he => hall e he.of_rest) hread' hshelter' r' hr'
        rcases List.mem_append.mp he with he | he
        · obtain ⟨e, hmem, rfl⟩ := List.mem_map.mp he
          rw [tag_readAt] at htag
          rw [Grown, readAt_addr] at hg
          exact ⟨e, List.mem_append_left _ hmem, htag, dueIn_readAt.mp hd, hg⟩
        · exact ⟨e, List.mem_append_right _ (List.mem_cons_of_mem _ he), htag, hd, hg⟩

/-- All calls get the lock and no entry's time comes up between them. -/
structure Steady (calls : Nat → Sweep) (nodes : List FtEntry) : Prop where
  locked : ∀ k, (calls k).locked = true
  due : ∀ e ∈ nodes, ∀ k, Due (calls k).t e ↔ Due (calls 0).t e

theorem Steady.rest {left right : List FtEntry} {r : FtEntry}
    (h : Steady calls (left ++ r :: right)) :
    Steady (fun k => calls (k + 1)) (left.map (readAt counters (calls 0).t) ++ right) := by
  refine ⟨fun k => h.locked (k + 1), ?_⟩
  have hdue : ∀ e ∈ left ++ r :: right, ∀ k,
      Due (calls (k + 1)).t e ↔ Due (calls (0 + 1)).t e :=
    fun e he k => (h.due e he (k + 1)).trans (h.due e he 1).symm
  intro e he k
  rcases List.mem_append.mp he with he | he
  · obtain ⟨e, hmem, rfl⟩ := List.mem_map.mp he
    rw [due_readAt, due_readAt]
    exact hdue e (List.mem_append_left _ hmem) k
  · exact hdue e (List.mem_append_right _ (List.mem_cons_of_mem _ he)) k

/-- A due entry with nothing new is removed in the end. -/
theorem sweepNodes_stale (h : sweepNodes counters fuel calls nodes = some x)
    (hsteady : Steady calls nodes) (he : e ∈ nodes) (hdue : Due (calls 0).t e)
    (hgone : ¬ Unread counters e) : ∃ r ∈ x.1, tag r = tag e := by
  induction fuel generalizing nodes calls x with
  | zero => cases h
  | succ fuel ih =>
    rcases sweepNodes_succ h with ⟨hlock, -⟩ | ⟨-, -, hall⟩ |
      ⟨left, r, right, rs, -, rfl, -, -, hleft, hx, hrest⟩
    · exact absurd ((hsteady.locked 0).symm.trans hlock) (by simp)
    · exact absurd (hall e he hdue) hgone
    · rw [hx]
      rcases List.mem_append.mp he with hin | hin
      · exact absurd (hleft e hin hdue) hgone
      · rcases List.mem_cons.mp hin with rfl | hin
        · exact ⟨e, List.mem_cons_self, rfl⟩
        · obtain ⟨r', hr', htag⟩ := ih hrest hsteady.rest (List.mem_append_right _ hin)
            ((hsteady.due e he 1).mpr hdue)
          exact ⟨r', List.mem_cons_of_mem _ hr', htag⟩

/-- A due entry with a due one behind it that has nothing new is removed in the end: once
that one has been, the next walk finds the first one read. -/
theorem sweepNodes_exposed (h : sweepNodes counters fuel calls nodes = some x)
    (hsteady : Steady calls nodes) (hpair : [e, f].Sublist nodes) (he : Due (calls 0).t e)
    (hf : Due (calls 0).t f) (hgone : ¬ Unread counters f) : ∃ r ∈ x.1, tag r = tag e := by
  induction fuel generalizing nodes calls x with
  | zero => cases h
  | succ fuel ih =>
    have hmem : ∀ g ∈ [e, f], g ∈ nodes := fun g hg => hpair.subset hg
    rcases sweepNodes_succ h with ⟨hlock, -⟩ | ⟨-, -, hall⟩ |
      ⟨left, r, right, rs, -, rfl, -, -, hleft, hx, hrest⟩
    · exact absurd ((hsteady.locked 0).symm.trans hlock) (by simp)
    · exact absurd (hall f (hmem f (by simp)) hf) hgone
    · rw [hx]
      have hnext : ∀ g ∈ [e, f], Due (calls 0).t g → Due (calls 1).t g :=
        fun g hg hd => (hsteady.due g (hmem g hg) 1).mpr hd
      rcases pair_append hpair with hpair | ⟨hin, -⟩ | hpair
      · exact absurd (hleft f (hpair.subset (by simp)) hf) hgone
      · obtain ⟨r', hr', htag⟩ := sweepNodes_stale hrest hsteady.rest
          (List.mem_append_left _ (List.mem_map_of_mem hin))
          (due_readAt.mpr (hnext e (by simp) he)) (not_unread_readAt he)
        exact ⟨r', List.mem_cons_of_mem _ hr', htag.trans tag_readAt⟩
      · cases hpair with
        | cons _ hpair =>
          obtain ⟨r', hr', htag⟩ := ih hrest hsteady.rest
            (hpair.trans (List.sublist_append_right _ _)) (hnext e (by simp) he)
            (hnext f (by simp) hf)
          exact ⟨r', List.mem_cons_of_mem _ hr', htag⟩
        | cons_cons _ _ => exact ⟨e, List.mem_cons_self, rfl⟩

end DocaApps.Proofs.AgingBuckets
