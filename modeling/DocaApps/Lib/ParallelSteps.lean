import Mathlib

namespace DocaApps.Lib.ParallelSteps

/-- One place in memory being combined with another, `dst op= src`. -/
structure Step (L : Type) where
  dst : L
  src : L
  deriving DecidableEq, Repr

variable {L α : Type} [DecidableEq L] {op : α → α → α} {mem : L → α} {s : Step L}
  {steps steps' : List (Step L)} {x : L}

def Step.run (op : α → α → α) (mem : L → α) (s : Step L) : L → α :=
  Function.update mem s.dst (op (mem s.dst) (mem s.src))

def runAll (op : α → α → α) (mem : L → α) (steps : List (Step L)) : L → α :=
  steps.foldl (Step.run op) mem

/-- No place is written twice, and none is written that another step reads. -/
structure RaceFree (steps : List (Step L)) : Prop where
  once : (steps.map Step.dst).Nodup
  apart : ∀ s ∈ steps, ∀ s' ∈ steps, s.dst ≠ s'.src

omit [DecidableEq L] in
theorem RaceFree.perm (h : RaceFree steps) (hperm : steps'.Perm steps) : RaceFree steps' :=
  ⟨(hperm.map Step.dst).nodup_iff.mpr h.once, fun s hs s' hs' =>
    h.apart s (hperm.mem_iff.mp hs) s' (hperm.mem_iff.mp hs')⟩

omit [DecidableEq L] in
theorem RaceFree.tail (h : RaceFree (s :: steps)) : RaceFree steps :=
  ⟨(List.nodup_cons.mp h.once).2, fun t ht t' ht' =>
    h.apart t (List.mem_cons_of_mem s ht) t' (List.mem_cons_of_mem s ht')⟩

/-- Only the places that a step names are written. -/
theorem runAll_other (h : ∀ s ∈ steps, s.dst ≠ x) : runAll op mem steps x = mem x := by
  induction steps generalizing mem with
  | nil => rfl
  | cons s steps ih =>
    rw [List.forall_mem_cons] at h
    have hrest : runAll op (s.run op mem) steps x = s.run op mem x := ih h.2
    exact hrest.trans (Function.update_of_ne h.1.symm _ _)

/-- What is never read does not matter to the other places. -/
theorem runAll_unread {mem' : L → α} (h : ∀ s ∈ steps, s.src ≠ x)
    (hmem : ∀ y, y ≠ x → mem y = mem' y) :
    ∀ y, y ≠ x → runAll op mem steps y = runAll op mem' steps y := by
  induction steps generalizing mem mem' with
  | nil => exact hmem
  | cons s steps ih =>
    rw [List.forall_mem_cons] at h
    refine ih h.2 fun y hy => ?_
    rw [Step.run, Step.run]
    by_cases hdst : y = s.dst
    · rw [hdst, Function.update_self, Function.update_self, hmem _ (hdst ▸ hy), hmem _ h.1]
    · rw [Function.update_of_ne hdst, Function.update_of_ne hdst, hmem y hy]

/-- In whatever order the steps are taken, each combines what was there before them. -/
theorem RaceFree.runAll_dst (h : RaceFree steps) (hs : s ∈ steps) :
    runAll op mem steps s.dst = op (mem s.dst) (mem s.src) := by
  induction steps generalizing mem with
  | nil => simp at hs
  | cons t steps ih =>
    rcases List.mem_cons.mp hs with rfl | hrest
    · have hlater : ∀ t ∈ steps, t.dst ≠ s.dst := fun t ht heq =>
        (List.nodup_cons.mp h.once).1 (heq ▸ List.mem_map_of_mem ht)
      have hother : runAll op (s.run op mem) steps s.dst = s.run op mem s.dst :=
        runAll_other hlater
      exact hother.trans (Function.update_self _ _ _)
    · have hdst : s.dst ≠ t.dst := fun heq =>
        (List.nodup_cons.mp h.once).1 (heq ▸ List.mem_map_of_mem hrest)
      have hsrc : s.src ≠ t.dst := (h.apart t List.mem_cons_self s hs).symm
      have hstep : runAll op (t.run op mem) steps s.dst =
          op (t.run op mem s.dst) (t.run op mem s.src) := ih h.tail hrest
      rw [Step.run, Function.update_of_ne hdst, Function.update_of_ne hsrc] at hstep
      exact hstep

theorem runAll_append : runAll op mem (steps ++ steps') = runAll op (runAll op mem steps) steps' :=
  List.foldl_append

/-- The order of steps without a race does not matter. -/
theorem RaceFree.runAll_perm (h : RaceFree steps) (hperm : steps'.Perm steps) :
    runAll op mem steps' = runAll op mem steps := by
  funext x
  by_cases hx : ∃ s ∈ steps, s.dst = x
  · obtain ⟨s, hs, rfl⟩ := hx
    rw [h.runAll_dst hs, (h.perm hperm).runAll_dst (hperm.mem_iff.mpr hs)]
  · have hother : ∀ s ∈ steps, s.dst ≠ x := fun s hs heq => hx ⟨s, hs, heq⟩
    rw [runAll_other hother, runAll_other fun s hs => hother s (hperm.mem_iff.mp hs)]

omit [DecidableEq L] in
theorem RaceFree.append (h : RaceFree steps) (h' : RaceFree steps')
    (hdst : ∀ s ∈ steps, ∀ s' ∈ steps', s.dst ≠ s'.dst ∧ s.dst ≠ s'.src ∧ s'.dst ≠ s.src) :
    RaceFree (steps ++ steps') := by
  constructor
  · rw [List.map_append]
    refine List.Nodup.append h.once h'.once (fun x hx hx' => ?_)
    obtain ⟨s, hs, rfl⟩ := List.mem_map.mp hx
    obtain ⟨s', hs', heq⟩ := List.mem_map.mp hx'
    exact (hdst s hs s' hs').1 heq.symm
  · intro s hs s' hs'
    rcases List.mem_append.mp hs with hs | hs <;> rcases List.mem_append.mp hs' with hs' | hs'
    · exact h.apart s hs s' hs'
    · exact (hdst s hs s' hs').2.1
    · exact (hdst s' hs' s hs).2.2
    · exact h'.apart s hs s' hs'

/-- The steps of threads that meet at barriers: between two of them in any order. -/
def InPhases (phases : List (List (Step L))) (order : List (Step L)) : Prop :=
  ∃ orders, List.Forall₂ List.Perm orders phases ∧ order = orders.flatten

theorem InPhases.runAll_eq {phases : List (List (Step L))} {order : List (Step L)}
    (h : InPhases phases order) (hfree : ∀ phase ∈ phases, RaceFree phase) :
    runAll op mem order = runAll op mem phases.flatten := by
  obtain ⟨orders, hperm, rfl⟩ := h
  induction hperm generalizing mem with
  | nil => rfl
  | cons hfirst hrest ih =>
    rw [List.forall_mem_cons] at hfree
    rw [List.flatten_cons, List.flatten_cons, runAll_append, runAll_append,
      hfree.1.runAll_perm hfirst, ih hfree.2]

omit [DecidableEq L] in
theorem InPhases.perm {phases : List (List (Step L))} {order : List (Step L)}
    (h : InPhases phases order) : order.Perm phases.flatten := by
  obtain ⟨orders, hperm, rfl⟩ := h
  induction hperm with
  | nil => exact List.Perm.refl _
  | cons hfirst hrest ih => exact hfirst.append ih

section Lanes
variable {ι : Type} [DecidableEq ι] {lane : L → ι}

/-- No step goes from one lane to another. -/
def InLanes (lane : L → ι) (steps : List (Step L)) : Prop :=
  ∀ s ∈ steps, lane s.src = lane s.dst

/-- What is in a lane depends on the steps of this lane only. -/
theorem runAll_lane (h : InLanes lane steps) (i : ι) : ∀ {mem mem' : L → α},
    (∀ x, lane x = i → mem x = mem' x) → ∀ x, lane x = i →
      runAll op mem steps x =
        runAll op mem' (steps.filter fun s => decide (lane s.dst = i)) x := by
  induction steps with
  | nil => exact fun hmem x hx => hmem x hx
  | cons s steps ih =>
    intro mem mem' hmem x hx
    rw [InLanes, List.forall_mem_cons] at h
    by_cases hs : lane s.dst = i
    · rw [List.filter_cons_of_pos (by simpa using hs)]
      refine ih h.2 (fun y hy => ?_) x hx
      rw [Step.run, Step.run]
      by_cases hyd : y = s.dst
      · rw [hyd, Function.update_self, Function.update_self, hmem _ hs, hmem _ (h.1.trans hs)]
      · rw [Function.update_of_ne hyd, Function.update_of_ne hyd, hmem y hy]
    · rw [List.filter_cons_of_neg (by simpa using hs)]
      refine ih h.2 (fun y hy => ?_) x hx
      have hys : y ≠ s.dst := fun heq => hs (heq ▸ hy)
      rw [Step.run, Function.update_of_ne hys, hmem y hy]

end Lanes

/-- Steps whose sources are never written add up what was there. -/
theorem runAll_collect (h : ∀ s ∈ steps, ∀ s' ∈ steps, s.dst ≠ s'.src) (x : L) :
    runAll op mem steps x =
      ((steps.filter fun s => decide (s.dst = x)).map fun s => mem s.src).foldl op (mem x) := by
  induction steps generalizing mem with
  | nil => rfl
  | cons s steps ih =>
    have hrest : runAll op (s.run op mem) steps x = _ :=
      ih fun t ht t' ht' => h t (List.mem_cons_of_mem s ht) t' (List.mem_cons_of_mem s ht')
    have hsrc : ∀ l : List (Step L), l ⊆ steps →
        (l.map fun t => s.run op mem t.src) = l.map fun t => mem t.src := by
      intro l hl
      refine List.map_congr_left fun t ht => Function.update_of_ne ?_ _ _
      exact (h s List.mem_cons_self t (List.mem_cons_of_mem s (hl ht))).symm
    change runAll op (s.run op mem) steps x = _
    rw [hrest, hsrc _ (List.filter_subset_self _)]
    by_cases hs : s.dst = x
    · rw [List.filter_cons_of_pos (by simpa using hs), List.map_cons, List.foldl_cons, Step.run, hs,
        Function.update_self]
    · rw [List.filter_cons_of_neg (by simpa using hs), Step.run,
        Function.update_of_ne fun heq => hs heq.symm]

/-- The steps of several blocks of threads, each of which goes through its own phases. -/
structure Interleaved (blocks : List (List (List (Step L)))) (order : List (Nat × Step L)) :
    Prop where
  inside : ∀ e ∈ order, e.1 < blocks.length
  phases : ∀ b (hb : b < blocks.length),
    InPhases blocks[b] ((order.filter fun e => decide (e.1 = b)).map Prod.snd)

section Blocks
variable {ι : Type} [DecidableEq ι] {lane : L → ι} {blocks : List (List (List (Step L)))}
  {order : List (Nat × Step L)} {b : Nat} {i : ι}

/-- A lane that only one block works on holds what this block leaves there. -/
theorem runAll_own (hlanes : InLanes lane (order.map Prod.snd))
    (hown : ∀ e ∈ order, lane e.2.dst = i → e.1 = b) (hx : lane x = i) :
    runAll op mem (order.map Prod.snd) x =
      runAll op mem ((order.filter fun e => decide (e.1 = b)).map Prod.snd) x := by
  have hblock : InLanes lane ((order.filter fun e => decide (e.1 = b)).map Prod.snd) := by
    intro s hs
    obtain ⟨e, he, rfl⟩ := List.mem_map.mp hs
    exact hlanes e.2 (List.mem_map_of_mem (List.mem_of_mem_filter he))
  have hsame : (order.map Prod.snd).filter (fun s => decide (lane s.dst = i)) =
      ((order.filter fun e => decide (e.1 = b)).map Prod.snd).filter
        fun s => decide (lane s.dst = i) := by
    rw [List.filter_map, List.filter_map, List.filter_filter]
    congr 1
    refine List.filter_congr fun e he => ?_
    by_cases hi : lane e.2.dst = i
    · simp [hi, hown e he hi]
    · simp [hi]
  rw [runAll_lane hlanes i (fun _ _ => rfl) x hx, hsame,
    ← runAll_lane hblock i (fun _ _ => rfl) x hx]

/-- What is tagged with one of the numbers of a list. -/
theorem filter_tagged {β : Type} {f : Nat → List β} {ns : List Nat} {b : Nat} (hns : ns.Nodup)
    (hb : b ∈ ns) :
    (ns.flatMap fun c => (f c).map fun s => (c, s)).filter (fun e => decide (e.1 = b)) =
      (f b).map fun s => (b, s) := by
  induction ns with
  | nil => simp at hb
  | cons c ns ih =>
    rw [List.nodup_cons] at hns
    rw [List.flatMap_cons, List.filter_append]
    rcases List.mem_cons.mp hb with rfl | hb
    · have hhere : ((f b).map fun s => (b, s)).filter (fun e => decide (e.1 = b)) =
          (f b).map fun s => (b, s) := by simp
      have hrest : (ns.flatMap fun c => (f c).map fun s => (c, s)).filter
          (fun e => decide (e.1 = b)) = [] := by
        rw [List.filter_eq_nil_iff]
        intro e he heq
        obtain ⟨c, hc, he⟩ := List.mem_flatMap.mp he
        obtain ⟨s, -, rfl⟩ := List.mem_map.mp he
        exact hns.1 (of_decide_eq_true heq ▸ hc)
      rw [hhere, hrest, List.append_nil]
    · have hne : c ≠ b := fun heq => hns.1 (heq ▸ hb)
      have hnone : ((f c).map fun s => (c, s)).filter (fun e => decide (e.1 = b)) = [] := by
        simp [hne]
      rw [hnone, ih hns.2 hb, List.nil_append]

omit [DecidableEq L] in
/-- Blocks can always run one after another. -/
theorem exists_interleaved (blocks : List (List (List (Step L)))) :
    ∃ order, Interleaved blocks order := by
  refine ⟨(List.range blocks.length).flatMap fun b =>
    (blocks.getD b []).flatten.map fun s => (b, s), ?_, ?_⟩
  · intro e he
    obtain ⟨b, hb, he⟩ := List.mem_flatMap.mp he
    obtain ⟨s, -, rfl⟩ := List.mem_map.mp he
    exact List.mem_range.mp hb
  · intro b hb
    rw [filter_tagged List.nodup_range (List.mem_range.mpr hb), List.getD_eq_getElem _ _ hb,
      List.map_map]
    exact ⟨blocks[b], List.forall₂_same.mpr fun _ _ => .refl _, by simp⟩

omit [DecidableEq L] in
/-- The steps of an interleaving are those of the blocks. -/
theorem Interleaved.mem_block (h : Interleaved blocks order) {e : Nat × Step L} (he : e ∈ order) :
    ∃ hb : e.1 < blocks.length, e.2 ∈ blocks[e.1].flatten := by
  refine ⟨h.inside e he, (h.phases e.1 (h.inside e he)).perm.mem_iff.mp ?_⟩
  exact List.mem_map_of_mem (List.mem_filter.mpr ⟨he, by simp⟩)

end Blocks

end DocaApps.Lib.ParallelSteps
