import DocaApps.Allreduce.GpuKernels
import DocaApps.Proofs.TreeReduction

namespace DocaApps.Proofs.GpuReduction
open Allreduce.GpuReducer Allreduce.GpuKernels Lib.ParallelSteps Lib.Strides
open Proofs.IndexPartition Proofs.TreeReduction

/-- Combining with a combination is combining with its members, one after another. -/
theorem foldl_value {α : Type} (op : α → α → α) [Std.Associative op] (f : Nat → α)
    (c : Combination) (a : α) : op a (c.value op f) = (c.members.map f).foldl op a := by
  induction c generalizing a with
  | one n => rfl
  | both b c ihb ihc =>
    rw [Combination.members, List.map_append, List.foldl_append, ← ihb, ← ihc]
    have hassoc : ∀ x y z, op (op x y) z = op x (op y z) := Std.Associative.assoc
    exact (hassoc _ _ _).symm

section Groups
variable {V : Type} {T q g fuel start stop : Nat} {dstVec : V} {vectors : Nat → V}

/-- The vectors of a group and the reduction of the group. -/
def groupAt (T : Nat) (dstVec : V) (vectors : Nat → V) (start stop g : Nat) : Block V :=
  blockAt T dstVec (fun i => vectors (g * (2 * T + 1) + i)) start stop

theorem groupsFrom_eq (hT : 0 < T) (hrange : start ≤ stop) (hsize : stop + T ≤ 2 ^ 64)
    (hg : g < q) (hfuel : q ≤ g + fuel) :
    groupsFrom T dstVec vectors (q * (2 * T + 1)) start stop fuel (g * (2 * T + 1)) =
      some ((List.range' g (q - g)).map (groupAt T dstVec vectors start stop)) := by
  induction fuel generalizing g with
  | zero => omega
  | succ fuel ih =>
    have hnext : g * (2 * T + 1) + (2 * T + 1) = (g + 1) * (2 * T + 1) := (Nat.succ_mul ..).symm
    rw [groupsFrom, reduceAllForManyVecsAlgo_eq hT hrange hsize, hnext]
    have hcount : q - g = q - (g + 1) + 1 := by omega
    rw [hcount, List.range'_succ, List.map_cons]
    simp only [Option.bind_eq_bind, Option.bind_some]
    split
    · rename_i hlt
      have hmore : g + 1 < q := Nat.lt_of_mul_lt_mul_right hlt
      rw [ih hmore (by omega)]
      rfl
    · rename_i hlast
      have hend : q = g + 1 := by
        have hle : q ≤ g + 1 := Nat.le_of_mul_le_mul_right (Nat.not_lt.mp hlast) (by omega)
        omega
      rw [hend, Nat.sub_self]
      rfl

/-- The groups that the vectors are taken in: a number of them that is too small for a group is
taken for one. -/
inductive Groups (T nbVecs : Nat) : Nat → Prop where
  | whole {q : Nat} (hq : 0 < q) (h : nbVecs = q * (2 * T + 1)) : Groups T nbVecs q
  | short (h : nbVecs < 2 * T + 1) : Groups T nbVecs 1

theorem Groups.groupsFrom_eq {nbVecs : Nat} (h : Groups T nbVecs q) (hT : 0 < T)
    (hrange : start ≤ stop) (hsize : stop + T ≤ 2 ^ 64) :
    groupsFrom T dstVec vectors (nbVecs - nbVecs % (2 * T + 1)) start stop (nbVecs + 1) 0 =
      some ((List.range' 0 q).map (groupAt T dstVec vectors start stop)) := by
  cases h with
  | whole hq h =>
    have hfuel : q ≤ nbVecs := h ▸ Nat.le_mul_of_pos_right q (by omega)
    have hgroups : groupsFrom T dstVec vectors (q * (2 * T + 1)) start stop (nbVecs + 1)
        (0 * (2 * T + 1)) =
          some ((List.range' 0 (q - 0)).map (groupAt T dstVec vectors start stop)) :=
      GpuReduction.groupsFrom_eq hT hrange hsize hq (by omega)
    rw [Nat.zero_mul, Nat.sub_zero] at hgroups
    rw [h, Nat.mul_mod_left, Nat.sub_zero, ← h]
    exact h ▸ hgroups
  | short h =>
    rw [Nat.mod_eq_of_lt h, Nat.sub_self, groupsFrom, reduceAllForManyVecsAlgo_eq hT hrange hsize]
    simp [groupAt]

/-- What a group does, round by round. -/
def groupSteps (b : Block V) : List (Step (V × Nat)) :=
  (b.rounds.map Round.steps).flatten ++ b.last.flatten

theorem phasesOf_flatten (left : List (Step (V × Nat))) (bs : List (Block V)) :
    (phasesOf left bs).flatten = left ++ bs.flatMap groupSteps := by
  induction bs generalizing left with
  | nil => simp [phasesOf]
  | cons b bs ih =>
    unfold phasesOf
    rw [List.flatMap_cons, groupSteps]
    cases b.rounds with
    | nil => simp [ih]
    | cons r rs => simp [ih]

/-- What the additions of the groups before do: they write to the destination only. -/
structure LeftOver (dstVec : V) (vectors : Nat → V) (n : Nat) (left : List (Step (V × Nat))) :
    Prop where
  free : RaceFree left
  dst : ∀ s ∈ left, s.dst.1 = dstVec
  src : ∀ s ∈ left, ∃ j < n, s.src.1 = vectors j

theorem leftOver_nil (n : Nat) : LeftOver dstVec vectors n [] :=
  ⟨⟨List.nodup_nil, by simp⟩, by simp, by simp⟩

theorem groupAt_last (hT : 0 < T) : (groupAt T dstVec vectors start stop g).last.flatten.Perm
    ((List.range' start (stop - start)).map fun i =>
      ⟨(dstVec, i), (vectors (g * (2 * T + 1)), i)⟩) := blockAt_last hT

theorem mem_last {b : Nat} {s : Step (V × Nat)} (hT : 0 < T) :
    s ∈ (groupAt T dstVec vectors start stop b).last.flatten ↔
      ∃ i, start ≤ i ∧ i < stop ∧ s = ⟨(dstVec, i), (vectors (b * (2 * T + 1)), i)⟩ := by
  rw [(groupAt_last hT).mem_iff, List.mem_map]
  constructor
  · rintro ⟨i, hi, rfl⟩
    rw [List.mem_range'_1] at hi
    exact ⟨i, hi.1, by omega, rfl⟩
  · rintro ⟨i, hstart, hstop, rfl⟩
    exact ⟨i, List.mem_range'_1.mpr ⟨hstart, by omega⟩, rfl⟩

theorem leftOver_last (hT : 0 < T) (hdst : ∀ j, vectors j ≠ dstVec) :
    LeftOver dstVec vectors ((g + 1) * (2 * T + 1))
      (groupAt T dstVec vectors start stop g).last.flatten := by
  refine ⟨⟨?_, ?_⟩, ?_, ?_⟩
  · rw [((groupAt_last hT).map Step.dst).nodup_iff, List.map_map]
    exact List.Nodup.map (fun i j h => (Prod.mk.inj h).2) List.nodup_range'
  · intro s hs s' hs' heq
    obtain ⟨i, -, -, rfl⟩ := (mem_last hT).mp hs
    obtain ⟨j, -, -, rfl⟩ := (mem_last hT).mp hs'
    exact hdst _ (congrArg Prod.fst heq).symm
  · intro s hs
    obtain ⟨i, -, -, rfl⟩ := (mem_last hT).mp hs
    rfl
  · intro s hs
    obtain ⟨i, -, -, rfl⟩ := (mem_last hT).mp hs
    exact ⟨g * (2 * T + 1), Nat.mul_lt_mul_of_pos_right (Nat.lt_succ_self g) (by omega), rfl⟩

/-- The rounds of a group name no vector before it, and not the destination. -/
theorem mem_round {k : Nat} {s : Step (V × Nat)}
    (hs : s ∈ (roundAt T start stop (fun i => vectors (g * (2 * T + 1) + i)) k).steps) :
    ∃ i a b, start ≤ i ∧ i < stop ∧ a < 2 * T + 1 ∧ b < 2 * T + 1 ∧
      s = ⟨(vectors (g * (2 * T + 1) + a), i), (vectors (g * (2 * T + 1) + b), i)⟩ := by
  rw [roundAt_steps] at hs
  obtain ⟨t, -, hs⟩ := List.mem_flatMap.mp hs
  obtain ⟨hin, i, hstart, hstop, rfl⟩ := mem_callAt.mp hs
  have hle : 2 * t * 2 ^ k ≤ (2 * t + 1) * 2 ^ k := Nat.mul_le_mul_right _ (Nat.le_succ _)
  exact ⟨i, _, _, hstart, hstop, Nat.lt_of_le_of_lt hle hin, hin, rfl⟩

/-- The first round of a group can be mixed with the additions of the group before. -/
theorem raceFree_mixed {left : List (Step (V × Nat))} (hinj : Function.Injective vectors)
    (hdst : ∀ j, vectors j ≠ dstVec) (hleft : LeftOver dstVec vectors (g * (2 * T + 1)) left)
    (k : Nat) : RaceFree
      (left ++ (roundAt T start stop (fun i => vectors (g * (2 * T + 1) + i)) k).steps) := by
  have hround : RaceFree
      (roundAt T start stop (fun i => vectors (g * (2 * T + 1) + i)) k).steps :=
    raceFree_roundAt fun i j h => Nat.add_left_cancel (hinj h)
  refine hleft.free.append hround fun s hs s' hs' => ?_
  obtain ⟨i, a, b, -, -, -, -, rfl⟩ := mem_round hs'
  obtain ⟨j, hj, hsrc⟩ := hleft.src s hs
  refine ⟨fun heq => ?_, fun heq => ?_, fun heq => ?_⟩
  · exact hdst _ ((congrArg Prod.fst heq).symm.trans (hleft.dst s hs))
  · exact hdst _ ((congrArg Prod.fst heq).symm.trans (hleft.dst s hs))
  · have hsame := hinj ((congrArg Prod.fst heq).trans hsrc)
    omega

/-- Between two barriers no two threads of a block meet. -/
theorem raceFree_phases (hT : 0 < T) (hinj : Function.Injective vectors)
    (hdst : ∀ j, vectors j ≠ dstVec) (n : Nat) : ∀ (g : Nat) (left : List (Step (V × Nat))),
    LeftOver dstVec vectors (g * (2 * T + 1)) left →
    ∀ phase ∈ phasesOf left ((List.range' g n).map (groupAt T dstVec vectors start stop)),
      RaceFree phase := by
  induction n with
  | zero =>
    intro g left hleft phase hphase
    rw [List.range'_zero, List.map_nil, phasesOf, List.mem_singleton] at hphase
    exact hphase ▸ hleft.free
  | succ n ih =>
    intro g left hleft phase hphase
    rw [List.range'_succ, List.map_cons] at hphase
    have hpos : 0 < Nat.clog 2 (2 * T + 1) := lt_clog_iff.mpr (by rw [Nat.pow_zero]; omega)
    obtain ⟨k, hk⟩ : ∃ k, Nat.clog 2 (2 * T + 1) = k + 1 := ⟨_, (Nat.succ_pred_eq_of_pos hpos).symm⟩
    have hrounds : (groupAt T dstVec vectors start stop g).rounds =
        roundAt T start stop (fun i => vectors (g * (2 * T + 1) + i)) 0 ::
          (List.range' 1 k).map (roundAt T start stop fun i => vectors (g * (2 * T + 1) + i)) := by
      rw [groupAt, blockAt, hk, List.range'_succ, List.map_cons]
    unfold phasesOf at hphase
    rw [hrounds] at hphase
    rcases List.mem_cons.mp hphase with rfl | hphase
    · exact raceFree_mixed hinj hdst hleft 0
    · rcases List.mem_append.mp hphase with hphase | hphase
      · obtain ⟨r, hr, rfl⟩ := List.mem_map.mp hphase
        obtain ⟨j, -, rfl⟩ := List.mem_map.mp hr
        exact raceFree_roundAt fun i j h => Nat.add_left_cancel (hinj h)
      · exact ih (g + 1) _ (leftOver_last hT hdst) phase hphase

variable [DecidableEq V] {α : Type} {op : α → α → α} {mem : V × Nat → α} {i : Nat}

theorem runAll_flatten (orders : List (List (Step (V × Nat)))) :
    runAll op mem orders.flatten = orders.foldl (runAll op) mem := by
  induction orders generalizing mem with
  | nil => rfl
  | cons order orders ih => rw [List.flatten_cons, runAll_append, ih, List.foldl_cons]

/-- A group is combined into the destination, and the vectors behind it are left alone. -/
theorem group_reduced (op : α → α → α) (mem : V × Nat → α) (g : Nat) (hT : 0 < T) (hinj : Function.Injective vectors)
    (hdst : ∀ j, vectors j ≠ dstVec) (hstart : start ≤ i) (hstop : i < stop)
    [Std.Associative op] :
    runAll op mem (groupSteps (groupAt T dstVec vectors start stop g)) (dstVec, i) =
        ((List.range (2 * T + 1)).map fun j => mem (vectors (g * (2 * T + 1) + j), i)).foldl op
          (mem (dstVec, i)) ∧
      ∀ j, (g + 1) * (2 * T + 1) ≤ j →
        runAll op mem (groupSteps (groupAt T dstVec vectors start stop g)) (vectors j, i) =
          mem (vectors j, i) := by
  have hlater : ∀ x : V × Nat, (∀ a, a < 2 * T + 1 → x.1 ≠ vectors (g * (2 * T + 1) + a)) →
      runAll op mem ((groupAt T dstVec vectors start stop g).rounds.map Round.steps).flatten x =
        mem x := by
    intro x hx
    refine runAll_other fun s hs heq => ?_
    obtain ⟨order, horder, hs⟩ := List.mem_flatten.mp hs
    obtain ⟨r, hr, rfl⟩ := List.mem_map.mp horder
    obtain ⟨k, -, rfl⟩ := List.mem_map.mp hr
    obtain ⟨j, a, b, -, -, ha, -, rfl⟩ := mem_round hs
    exact hx a ha (congrArg Prod.fst heq).symm
  have hfree : RaceFree (groupAt T dstVec vectors start stop g).last.flatten :=
    (leftOver_last hT hdst).free
  rw [groupSteps, runAll_append]
  constructor
  · have hroot : runAll op mem
        ((groupAt T dstVec vectors start stop g).rounds.map Round.steps).flatten
        (vectors (g * (2 * T + 1)), i) =
        (subtree (2 * T + 1) (Nat.clog 2 (2 * T + 1)) 0).value op
          fun j => mem (vectors (g * (2 * T + 1) + j), i) := by
      rw [runAll_flatten]
      exact blockAt_root (fun a b h => Nat.add_left_cancel (hinj h))
        (List.forall₂_map_left_iff.mpr (List.forall₂_same.mpr fun r _ => List.Perm.refl _))
        hstart hstop
    have hstep : (⟨(dstVec, i), (vectors (g * (2 * T + 1)), i)⟩ : Step (V × Nat)) ∈
        (groupAt T dstVec vectors start stop g).last.flatten :=
      (mem_last hT).mpr ⟨i, hstart, hstop, rfl⟩
    have hadd : runAll op (runAll op mem
        ((groupAt T dstVec vectors start stop g).rounds.map Round.steps).flatten)
        (groupAt T dstVec vectors start stop g).last.flatten (dstVec, i) = _ :=
      hfree.runAll_dst hstep
    rw [hlater (dstVec, i) fun a _ => (hdst _).symm, hroot, foldl_value op,
      members_root] at hadd
    exact hadd
  · intro j hj
    rw [runAll_other, hlater]
    · intro a ha heq
      have hsame := hinj heq
      rw [Nat.add_mul] at hj
      omega
    · intro s hs heq
      obtain ⟨k, -, -, rfl⟩ := (mem_last hT).mp hs
      exact hdst j (congrArg Prod.fst heq).symm

/-- The groups of a block are combined into the destination, one after another. -/
theorem groups_reduced (hT : 0 < T) (hinj : Function.Injective vectors)
    (hdst : ∀ j, vectors j ≠ dstVec) (hstart : start ≤ i) (hstop : i < stop)
    [Std.Associative op] (n : Nat) :
    runAll op mem (((List.range' g n).map (groupAt T dstVec vectors start stop)).flatMap groupSteps)
        (dstVec, i) =
      ((List.range' (g * (2 * T + 1)) (n * (2 * T + 1))).map fun j => mem (vectors j, i)).foldl op
        (mem (dstVec, i)) := by
  induction n generalizing g mem with
  | zero =>
    rw [Nat.zero_mul]
    rfl
  | succ n ih =>
    obtain ⟨hfirst, hlater⟩ :=
      group_reduced op mem g hT hinj hdst hstart hstop
    have hrest : ((List.range' ((g + 1) * (2 * T + 1)) (n * (2 * T + 1))).map fun j =>
        runAll op mem (groupSteps (groupAt T dstVec vectors start stop g)) (vectors j, i)) =
        (List.range' ((g + 1) * (2 * T + 1)) (n * (2 * T + 1))).map fun j => mem (vectors j, i) :=
      List.map_congr_left fun j hj => hlater j (List.mem_range'_1.mp hj).1
    have hsplit : List.range' (g * (2 * T + 1)) ((n + 1) * (2 * T + 1)) =
        (List.range (2 * T + 1)).map (g * (2 * T + 1) + ·) ++
          List.range' ((g + 1) * (2 * T + 1)) (n * (2 * T + 1)) := by
      rw [← List.range'_eq_map_range, Nat.succ_mul g, List.range'_append_1, Nat.succ_mul n,
        Nat.add_comm (2 * T + 1)]
    rw [List.range'_succ, List.map_cons, List.flatMap_cons, runAll_append, ih, hrest, hfirst,
      hsplit, List.map_append, List.foldl_append, List.map_map]
    rfl

end Groups

section Kernels
variable {V : Type} {l : Launch} {dstVec : V} {vectors : Nat → V} {q T lo hi first count n : Nat}

/-- A step at one index of a range, which reads one of the vectors that are to be combined and
writes to one of them or to the destination. -/
structure Confined (dstVec : V) (vectors : Nat → V) (first count lo hi : Nat)
    (s : Step (V × Nat)) : Prop where
  index : s.src.2 = s.dst.2
  lower : lo ≤ s.dst.2
  upper : s.dst.2 < hi
  dst : s.dst.1 = dstVec ∨ ∃ j, first ≤ j ∧ j < first + count ∧ s.dst.1 = vectors j
  src : ∃ j, first ≤ j ∧ j < first + count ∧ s.src.1 = vectors j

theorem confined_group {g : Nat} {s : Step (V × Nat)} (hT : 0 < T) (hg : g < q)
    (hs : s ∈ groupSteps (groupAt T dstVec vectors lo hi g)) :
    Confined dstVec vectors 0 (q * (2 * T + 1)) lo hi s := by
  have hend : (g + 1) * (2 * T + 1) ≤ q * (2 * T + 1) := Nat.mul_le_mul_right _ hg
  rw [Nat.add_mul] at hend
  rcases List.mem_append.mp hs with hs | hs
  · obtain ⟨order, horder, hs⟩ := List.mem_flatten.mp hs
    obtain ⟨r, hr, rfl⟩ := List.mem_map.mp horder
    obtain ⟨k, -, rfl⟩ := List.mem_map.mp hr
    obtain ⟨i, a, b, hlo, hhi, ha, hb, rfl⟩ := mem_round hs
    exact ⟨rfl, hlo, hhi, .inr ⟨_, Nat.zero_le _, by omega, rfl⟩, _, Nat.zero_le _, by omega, rfl⟩
  · obtain ⟨i, hlo, hhi, rfl⟩ := (mem_last hT).mp hs
    exact ⟨rfl, hlo, hhi, .inl rfl, _, Nat.zero_le _, by omega, rfl⟩

/-- The phases of a block, of which there are none when it has no indices. -/
def manyVecsPhases (l : Launch) (dstVec : V) (vectors : Nat → V) (q n b : Nat) :
    List (List (Step (V × Nat))) :=
  let len := ceilDev n (l.gridDimX * l.gridDimY)
  if n ≤ b * len then []
  else phasesOf [] ((List.range' 0 q).map
    (groupAt l.blockDimX dstVec vectors (b * len) (pieceStop l n b)))

theorem blockRange_piece {x y : Nat} (hsize : n + l.gridDimX * l.gridDimY ≤ 2 ^ 64)
    (hx : x < l.gridDimX) (hy : y < l.gridDimY) :
    blockRange l n x y =
      if n ≤ (x * l.gridDimY + y) * ceilDev n (l.gridDimX * l.gridDimY) then none
      else some ((x * l.gridDimY + y) * ceilDev n (l.gridDimX * l.gridDimY),
        pieceStop l n (x * l.gridDimY + y)) := by
  have hfits := piece_fits (block_lt hx hy) hsize
  simp only [blockRange, pieceStop, ← Nat.add_mul]
  generalize x * l.gridDimY + y = b at hfits
  generalize ceilDev n (l.gridDimX * l.gridDimY) = len at hfits
  have hstart : sizeT (b * len) = b * len := by
    apply Nat.mod_eq_of_lt
    omega
  have hstop : sizeT (b * len + len) = b * len + len := by
    apply Nat.mod_eq_of_lt
    omega
  have hlast : (if n < b * len + len then n else b * len + len) = min n (b * len + len) := by
    split <;> omega
  rw [hstart, hstop, hlast]

theorem manyVecsKernel_eq {nbVecs : Nat} (hq : Groups l.blockDimX nbVecs q)
    (hsize : n + l.gridDimX * l.gridDimY + l.blockDimX ≤ 2 ^ 64) :
    manyVecsKernel l dstVec vectors nbVecs n =
      some ((List.range (l.gridDimX * l.gridDimY)).map (manyVecsPhases l dstVec vectors q n)) := by
  have hblocks : manyVecsKernel l dstVec vectors nbVecs n =
      some (l.blocks.map fun b =>
        manyVecsPhases l dstVec vectors q n (b.1 * l.gridDimY + b.2)) := by
    refine allOf_map fun b hb => ?_
    obtain ⟨hx, hy⟩ := mem_blocks.mp hb
    rw [blockRange_piece (by omega) hx hy]
    simp only [manyVecsPhases]
    by_cases hearly : n ≤ (b.1 * l.gridDimY + b.2) * ceilDev n (l.gridDimX * l.gridDimY)
    · rw [if_pos hearly, if_pos hearly]
    · have hpiece : (b.1 * l.gridDimY + b.2) * ceilDev n (l.gridDimX * l.gridDimY) ≤
          pieceStop l n (b.1 * l.gridDimY + b.2) := by
        rw [pieceStop]
        omega
      have hstop : pieceStop l n (b.1 * l.gridDimY + b.2) + l.blockDimX ≤ 2 ^ 64 := by
        rw [pieceStop]
        omega
      rw [if_neg hearly, if_neg hearly]
      exact congrArg (Option.map (phasesOf [])) (hq.groupsFrom_eq l.threads_pos hpiece hstop)
  rw [hblocks, ← blocks_numbers, List.map_map]
  rfl

variable [DecidableEq V] {α : Type} {op : α → α → α} {mem : V × Nat → α}
  {order : List (Nat × Step (V × Nat))} {blockPhases : Nat → List (List (Step (V × Nat)))}
  {g len : Nat}

omit [DecidableEq V] in
theorem Confined.widen {lo' hi' : Nat} {s : Step (V × Nat)}
    (h : Confined dstVec vectors first count lo hi s) (hlo : lo' ≤ lo) (hhi : hi ≤ hi') :
    Confined dstVec vectors first count lo' hi' s :=
  ⟨h.index, hlo.trans h.lower, h.upper.trans_le hhi, h.dst, h.src⟩

/-- The blocks of a kernel, each of which keeps to its own piece of the vectors. -/
def InPieces (dstVec : V) (vectors : Nat → V) (first count g len n : Nat)
    (blockPhases : Nat → List (List (Step (V × Nat)))) : Prop :=
  ∀ b < g, ∀ s ∈ (blockPhases b).flatten,
    Confined dstVec vectors first count (b * len) (min n (b * len + len)) s

omit [DecidableEq V] in
theorem InPieces.step (h : InPieces dstVec vectors first count g len n blockPhases)
    (hrun : Interleaved ((List.range g).map blockPhases) order) {e : Nat × Step (V × Nat)}
    (he : e ∈ order) :
    Confined dstVec vectors first count (e.1 * len) (min n (e.1 * len + len)) e.2 := by
  obtain ⟨hb, hs⟩ := hrun.mem_block he
  rw [List.length_map, List.length_range] at hb
  rw [List.getElem_map, List.getElem_range] at hs
  exact h e.1 hb e.2 hs

omit [DecidableEq V] in
theorem piece_index {b i : Nat} (hlo : b * len ≤ i) (hhi : i < min n (b * len + len)) :
    i / len = b := by
  have hlen : 0 < len := by omega
  rw [Nat.div_eq_iff hlen]
  omega

/-- What is at an index in the end is what the block of the index makes of it. -/
theorem InPieces.own (op : α → α → α) (mem : V × Nat → α)
    (h : InPieces dstVec vectors first count g len n blockPhases)
    (hrun : Interleaved ((List.range g).map blockPhases) order) (hcover : n ≤ g * len) {i : Nat}
    (hi : i < n) :
    ∃ b < g, b * len ≤ i ∧ i < min n (b * len + len) ∧ ∃ order', InPhases (blockPhases b) order' ∧
      runAll op mem (order.map Prod.snd) (dstVec, i) = runAll op mem order' (dstVec, i) := by
  have hlen : 0 < len := by
    rcases Nat.eq_zero_or_pos len with rfl | hpos
    · rw [Nat.mul_zero] at hcover
      omega
    · exact hpos
  have hb : i / len < g := by
    rw [Nat.div_lt_iff_lt_mul hlen]
    omega
  have hpiece : i / len * len ≤ i ∧ i < i / len * len + len := by
    have hmod := Nat.div_add_mod' i len
    have hlt := Nat.mod_lt i hlen
    omega
  have hphases := hrun.phases (i / len) (by rwa [List.length_map, List.length_range])
  rw [List.getElem_map, List.getElem_range] at hphases
  refine ⟨i / len, hb, hpiece.1, by omega, _, hphases, ?_⟩
  have hlanes : InLanes Prod.snd (order.map Prod.snd) := by
    intro s hs
    obtain ⟨e, he, rfl⟩ := List.mem_map.mp hs
    exact (h.step hrun he).index
  refine runAll_own hlanes (fun e he heq => ?_) rfl
  have hstep := h.step hrun he
  have hlower := hstep.lower
  have hupper := hstep.upper
  rw [show e.2.dst.2 = i from heq] at hlower hupper
  exact (piece_index hlower hupper).symm

omit [DecidableEq V] in
theorem inPieces_manyVecs (l : Launch) (dstVec : V) (vectors : Nat → V) (q n : Nat) :
    InPieces dstVec vectors 0 (q * (2 * l.blockDimX + 1)) (l.gridDimX * l.gridDimY)
      (ceilDev n (l.gridDimX * l.gridDimY)) n (manyVecsPhases l dstVec vectors q n) := by
  intro b _ s hs
  simp only [manyVecsPhases] at hs
  split at hs
  · simp at hs
  · rw [phasesOf_flatten, List.nil_append, List.flatMap_map] at hs
    obtain ⟨g, hg, hs⟩ := List.mem_flatMap.mp hs
    rw [List.mem_range'_1] at hg
    exact confined_group l.threads_pos (by omega) hs

/-- What a stream has to do with some of the vectors: in every run they are all combined into the
destination, at every index, and nothing else is written. -/
structure Reduces (op : α → α → α) (dstVec : V) (vectors : Nat → V) (first count n : Nat)
    (kernels : List (Kernel V)) : Prop where
  inside : ∀ orders, StreamRun kernels orders → ∀ order ∈ orders, ∀ e ∈ order,
    Confined dstVec vectors first count 0 n e.2
  value : ∀ (mem : V × Nat → α) orders, StreamRun kernels orders → ∀ i < n,
    afterStream op mem orders (dstVec, i) =
      ((List.range' first count).map fun j => mem (vectors j, i)).foldl op (mem (dstVec, i))

theorem Reduces.nil : Reduces op dstVec vectors first 0 n [] := by
  constructor
  · intro orders hrun order horder
    rw [List.forall₂_nil_left_iff.mp hrun] at horder
    simp at horder
  · intro mem orders hrun i hi
    rw [List.forall₂_nil_left_iff.mp hrun]
    rfl

/-- A kernel by itself, from what it does in each order of the steps of its blocks. -/
theorem Reduces.kernel {kernel : Kernel V}
    (hinside : ∀ order, Interleaved kernel order → ∀ e ∈ order,
      Confined dstVec vectors first count 0 n e.2)
    (hvalue : ∀ (mem : V × Nat → α) order, Interleaved kernel order → ∀ i < n,
      runAll op mem (order.map Prod.snd) (dstVec, i) =
        ((List.range' first count).map fun j => mem (vectors j, i)).foldl op (mem (dstVec, i))) :
    Reduces op dstVec vectors first count n [kernel] := by
  constructor
  · intro orders hrun order horder e he
    obtain ⟨order', _, hfirst, hnil, rfl⟩ := List.forall₂_cons_left_iff.mp hrun
    rw [List.forall₂_nil_left_iff.mp hnil, List.mem_singleton] at horder
    exact hinside order' hfirst e (horder ▸ he)
  · intro mem orders hrun i hi
    obtain ⟨order, _, hfirst, hnil, rfl⟩ := List.forall₂_cons_left_iff.mp hrun
    rw [List.forall₂_nil_left_iff.mp hnil]
    exact hvalue mem order hfirst i hi

/-- Two launches, of which the second takes the vectors that the first one left. -/
theorem Reduces.cons {kernel : Kernel V} {kernels : List (Kernel V)} {rest : Nat}
    (hinj : Function.Injective vectors) (hdst : ∀ j, vectors j ≠ dstVec)
    (h : Reduces op dstVec vectors first count n [kernel])
    (h' : Reduces op dstVec vectors (first + count) rest n kernels) :
    Reduces op dstVec vectors first (count + rest) n (kernel :: kernels) := by
  constructor
  · intro orders hrun order horder e he
    obtain ⟨order', orders', hfirst, hrest, rfl⟩ := List.forall₂_cons_left_iff.mp hrun
    rcases List.mem_cons.mp horder with rfl | horder
    · have hstep := h.inside [order] (.cons hfirst .nil) order List.mem_cons_self e he
      obtain ⟨j, hle, hlt, hsrc⟩ := hstep.src
      refine ⟨hstep.index, hstep.lower, hstep.upper, ?_, j, hle, by omega, hsrc⟩
      exact hstep.dst.imp_right fun hvec => hvec.imp fun j hj => ⟨hj.1, by omega, hj.2.2⟩
    · have hstep := h'.inside orders' hrest order horder e he
      obtain ⟨j, hle, hlt, hsrc⟩ := hstep.src
      refine ⟨hstep.index, hstep.lower, hstep.upper, ?_, j, by omega, by omega, hsrc⟩
      exact hstep.dst.imp_right fun hvec => hvec.imp fun j hj => ⟨by omega, by omega, hj.2.2⟩
  · intro mem orders hrun i hi
    obtain ⟨order, orders', hfirst, hrest, rfl⟩ := List.forall₂_cons_left_iff.mp hrun
    have hone : StreamRun [kernel] [order] := .cons hfirst .nil
    have hleft : ∀ j ∈ List.range' (first + count) rest,
        runAll op mem (order.map Prod.snd) (vectors j, i) = mem (vectors j, i) := by
      intro j hj
      rw [List.mem_range'_1] at hj
      refine runAll_other fun s hs heq => ?_
      obtain ⟨e, he, rfl⟩ := List.mem_map.mp hs
      have hstep := h.inside [order] hone order List.mem_cons_self e he
      have hvec : e.2.dst.1 = vectors j := congrArg Prod.fst heq
      rcases hstep.dst with hdst' | ⟨k, -, hk, hdst'⟩
      · exact hdst j (hvec.symm.trans hdst')
      · have hsame := hinj (hvec.symm.trans hdst')
        omega
    have hhere : runAll op mem (order.map Prod.snd) (dstVec, i) = _ := h.value mem [order] hone i hi
    have hthere := h'.value (runAll op mem (order.map Prod.snd)) orders' hrest i hi
    rw [hhere, List.map_congr_left hleft, ← List.foldl_append, ← List.map_append,
      List.range'_append_1] at hthere
    exact hthere

theorem manyVecs_reduces (op : α → α → α) [Std.Associative op] (l : Launch) (n : Nat)
    {nbVecs : Nat} (hq : Groups l.blockDimX nbVecs q)
    (hinj : Function.Injective vectors) (hdst : ∀ j, vectors j ≠ dstVec)
    (hsize : n + l.gridDimX * l.gridDimY + l.blockDimX ≤ 2 ^ 64) :
    ∃ kernel, manyVecsKernel l dstVec vectors nbVecs n = some kernel ∧
      Reduces op dstVec vectors 0 (q * (2 * l.blockDimX + 1)) n [kernel] := by
  have hpieces := inPieces_manyVecs l dstVec vectors q n
  have hcover := (ceilDev_bounds (l := l) (n := n) (by omega)).1
  refine ⟨_, manyVecsKernel_eq hq hsize, .kernel ?_ ?_⟩
  · intro order hrun e he
    exact (hpieces.step hrun he).widen (Nat.zero_le _) (Nat.min_le_left ..)
  · intro mem order hrun i hi
    obtain ⟨b, -, hlo, hhi, order', hphases, heq⟩ :=
      hpieces.own op mem hrun hcover hi
    have hpart : ¬ n ≤ b * ceilDev n (l.gridDimX * l.gridDimY) := by omega
    have hstop : i < pieceStop l n b := hhi
    rw [heq]
    simp only [manyVecsPhases, if_neg hpart] at hphases
    have hfree : ∀ phase ∈ phasesOf [] ((List.range' 0 q).map (groupAt l.blockDimX dstVec vectors
        (b * ceilDev n (l.gridDimX * l.gridDimY)) (pieceStop l n b))), RaceFree phase :=
      raceFree_phases l.threads_pos hinj hdst q 0 [] (leftOver_nil _)
    rw [hphases.runAll_eq hfree, phasesOf_flatten, List.nil_append,
      groups_reduced l.threads_pos hinj hdst hlo hstop, Nat.zero_mul]

omit [DecidableEq V] in
theorem mem_reduceBlock {b : Nat} {src : Vectors V} {s : Step (V × Nat)}
    (hsrc : src.taken = (List.range' first count).map vectors)
    (hs : s ∈ [((List.range l.blockDimX).map (threadSteps l dstVec src n b)).flatten].flatten) :
    ∃ i j, b * ceilDev n (l.gridDimX * l.gridDimY) ≤ i ∧ i < pieceStop l n b ∧ first ≤ j ∧
      j < first + count ∧ s = ⟨(dstVec, i), (vectors j, i)⟩ := by
  rw [List.flatten_singleton, ← List.flatMap_def] at hs
  obtain ⟨t, -, hs⟩ := List.mem_flatMap.mp hs
  obtain ⟨vec, hvec, hs⟩ := List.mem_flatMap.mp hs
  obtain ⟨i, hi, rfl⟩ := List.mem_map.mp hs
  obtain ⟨hlo, hhi, -⟩ := (mem_strided l.threads_pos).mp hi
  rw [hsrc] at hvec
  obtain ⟨j, hj, rfl⟩ := List.mem_map.mp hvec
  rw [List.mem_range'_1] at hj
  exact ⟨i, j, (Nat.le_add_right _ _).trans hlo, hhi, hj.1, hj.2, rfl⟩

omit [DecidableEq V] in
theorem inPieces_reduce (l : Launch) (dstVec : V) {src : Vectors V} (n : Nat)
    (hsrc : src.taken = (List.range' first count).map vectors) :
    InPieces dstVec vectors first count (l.gridDimX * l.gridDimY)
      (ceilDev n (l.gridDimX * l.gridDimY)) n
      (fun b => [((List.range l.blockDimX).map (threadSteps l dstVec src n b)).flatten]) := by
  intro b _ s hs
  obtain ⟨i, j, hlo, hhi, hj, hj', rfl⟩ := mem_reduceBlock hsrc hs
  exact ⟨rfl, hlo, hhi, .inl rfl, j, hj, hj', rfl⟩

/-- At one index there is one step for a vector. -/
theorem filter_index {vec : V} {indices : List Nat} {i : Nat} (hnodup : indices.Nodup)
    (hi : i ∈ indices) :
    ((indices.map fun i => (⟨(dstVec, i), (vec, i)⟩ : Step (V × Nat))).filter
      fun s => decide (s.dst = (dstVec, i))) = [⟨(dstVec, i), (vec, i)⟩] := by
  have hsame : ((fun s => decide (s.dst = (dstVec, i))) ∘ fun i =>
      (⟨(dstVec, i), (vec, i)⟩ : Step (V × Nat))) = fun j => j == i := by
    funext j
    simp only [Function.comp_apply, Prod.mk.injEq, true_and]
    rfl
  rw [List.filter_map, hsame, List.filter_beq, List.count_eq_one_of_mem hnodup hi]
  rfl

/-- The steps of a block at one of its indices: one for each vector. -/
theorem block_index {b i : Nat} {src : Vectors V} {order : List (Step (V × Nat))}
    (hlo : b * ceilDev n (l.gridDimX * l.gridDimY) ≤ i) (hhi : i < pieceStop l n b)
    (hrun : InPhases [((List.range l.blockDimX).map (threadSteps l dstVec src n b)).flatten]
      order) :
    (order.filter fun s => decide (s.dst = (dstVec, i))).Perm
      (src.taken.map fun vec => ⟨(dstVec, i), (vec, i)⟩) := by
  have hthreads : order.Perm (src.taken.flatMap fun vec =>
      (List.range' (b * ceilDev n (l.gridDimX * l.gridDimY))
        (pieceStop l n b - b * ceilDev n (l.gridDimX * l.gridDimY))).map
          fun i => ⟨(dstVec, i), (vec, i)⟩) := by
    refine hrun.perm.trans ?_
    rw [List.flatten_singleton, ← List.flatMap_def]
    refine (flatMap_swap _ _ _).trans (List.Perm.flatMap_left _ fun vec _ => ?_)
    rw [← List.map_flatMap]
    exact (strides_perm l.threads_pos).map _
  refine (hthreads.filter _).trans (List.Perm.of_eq ?_)
  rw [List.filter_flatMap, List.map_eq_flatMap]
  refine List.flatMap_congr fun vec _ => ?_
  exact filter_index List.nodup_range' (List.mem_range'_1.mpr ⟨hlo, by omega⟩)

theorem reduce_reduces [Std.Associative op] [Std.Commutative op] {src : Vectors V}
    (hdst : ∀ j, vectors j ≠ dstVec) (hsrc : src.taken = (List.range' first count).map vectors)
    (hsize : n + l.gridDimX * l.gridDimY + l.blockDimX ≤ 2 ^ 64) :
    ∃ kernels, gpuReduceAll l dstVec src n = some kernels ∧
      Reduces op dstVec vectors first count n kernels := by
  have hpieces := inPieces_reduce l dstVec n hsrc
  have hcover := (ceilDev_bounds (l := l) (n := n) (by omega)).1
  have hkernel : gpuReduceAll l dstVec src n = some [(List.range (l.gridDimX * l.gridDimY)).map
      fun b => [((List.range l.blockDimX).map (threadSteps l dstVec src n b)).flatten]] := by
    rw [gpuReduceAll, gpuReduceKernel, gpuReduce_eq hsize, Option.map_some, Option.map_some,
      List.map_map]
    rfl
  refine ⟨_, hkernel, .kernel ?_ ?_⟩
  · intro order hrun e he
    exact (hpieces.step hrun he).widen (Nat.zero_le _) (Nat.min_le_left ..)
  · intro mem order hrun i hi
    obtain ⟨b, -, hlo, hhi, order', hphases, heq⟩ :=
      hpieces.own op mem hrun hcover hi
    have hread : ∀ s ∈ order', ∀ s' ∈ order', s.dst ≠ s'.src := by
      intro s hs s' hs' hsame
      obtain ⟨i, j, -, -, -, -, rfl⟩ := mem_reduceBlock hsrc (hphases.perm.mem_iff.mp hs)
      obtain ⟨i', j', -, -, -, -, rfl⟩ := mem_reduceBlock hsrc (hphases.perm.mem_iff.mp hs')
      exact hdst j' (congrArg Prod.fst hsame).symm
    rw [heq, runAll_collect hread]
    have hperm := (block_index hlo hhi hphases).map fun s => mem s.src
    rw [hperm.foldl_op_eq, List.map_map, hsrc, List.map_map]
    rfl

omit [DecidableEq V] in
theorem Confined.shift {offset : Nat} {s : Step (V × Nat)}
    (h : Confined dstVec (fun i => vectors (offset + i)) first count lo hi s) :
    Confined dstVec vectors (offset + first) count lo hi s := by
  obtain ⟨j, hj, hj', hsrc⟩ := h.src
  refine ⟨h.index, h.lower, h.upper, ?_, offset + j, by omega, by omega, hsrc⟩
  refine h.dst.imp_right fun hvec => ?_
  obtain ⟨k, hk, hk', hdst⟩ := hvec
  exact ⟨offset + k, by omega, by omega, hdst⟩

theorem Reduces.shift {offset : Nat} {kernels : List (Kernel V)}
    (h : Reduces op dstVec (fun i => vectors (offset + i)) first count n kernels) :
    Reduces op dstVec vectors (offset + first) count n kernels := by
  constructor
  · exact fun orders hrun order horder e he => (h.inside orders hrun order horder e he).shift
  · intro mem orders hrun i hi
    rw [h.value mem orders hrun i hi, List.range'_eq_map_range, List.range'_eq_map_range,
      List.map_map, List.map_map]
    congr 2
    funext j
    simp [Nat.add_assoc]

end Kernels

section Stream
variable {V : Type} [DecidableEq V] {α : Type} {op : α → α → α} {l : Launch} {dim : Grid}
  {dstVec : V} {vectors : Nat → V} {maxThrdsPerBlk nbVecs left n : Nat}

/-- The vectors that are taken beyond the last one, when those that are left over are a group only
together with one more. -/
def overrun (left : Nat) : Nat := if 0 < left ∧ left % 2 = 0 then 1 else 0

/-- The vectors that are left over are taken as one group. -/
theorem leftover_reduces (op : α → α → α) [Std.Associative op] [Std.Commutative op] (l : Launch)
    (dim : Grid) (nbVecs : Nat) (hinj : Function.Injective vectors) (hdst : ∀ j, vectors j ≠ dstVec) (hmax : left < 2 ^ 32)
    (hl : l.blockDimX < 2 ^ 32) (hn : n ≤ 2 ^ 63) :
    ∃ kernels, leftoverKernels dim l dstVec vectors nbVecs left n = some kernels ∧
      Reduces op dstVec vectors (nbVecs - left) (left + overrun left) n kernels := by
  unfold leftoverKernels
  split
  · rename_i hmany
    have hthreads : 0 < left / 2 := by omega
    have hgroup : left + overrun left = 1 * (2 * (left / 2) + 1) := by
      rw [overrun]
      split <;> omega
    have hone : Groups (left / 2) left 1 := by
      rcases Nat.mod_two_eq_zero_or_one left with heven | hodd
      · exact .short (by omega)
      · exact .whole Nat.one_pos (by omega)
    have hfits := dim.fits
    have hsize : n + dim.x * dim.y + left / 2 ≤ 2 ^ 64 := by omega
    obtain ⟨kernel, hkernel, hred⟩ := manyVecs_reduces op
      ⟨dim.x, dim.y, left / 2, dim.blocks_pos, hthreads, hfits⟩ n hone
      (fun i j h => Nat.add_left_cancel (hinj h) :
        Function.Injective fun i => vectors (nbVecs - left + i)) (fun j => hdst _) hsize
    rw [← hgroup] at hred
    refine ⟨[kernel], ?_, hred.shift⟩
    simp [Grid.launch, hthreads, hkernel]
  · split
    · rename_i hone
      have hfits := l.fits
      rw [hone]
      refine reduce_reduces hdst ?_ (by omega)
      simp [Vectors.taken, overrun]
    · have hnone : left = 0 := by omega
      rw [hnone]
      exact ⟨[], rfl, .nil⟩

/-- How many vectors the last launch is for. -/
def nbLeftoverVecs (maxThrdsPerBlk nbVecs : Nat) : Nat :=
  if 2 * maxThrdsPerBlk + 1 < nbVecs then nbVecs % (2 * maxThrdsPerBlk + 1) else nbVecs

theorem manyVecs_stream [Std.Associative op] [Std.Commutative op]
    (hinj : Function.Injective vectors) (hdst : ∀ j, vectors j ≠ dstVec)
    (hmax : 0 < maxThrdsPerBlk) (hmax' : maxThrdsPerBlk < 2 ^ 31)
    (hl : l.blockDimX < 2 ^ 32) (hn : n ≤ 2 ^ 63) :
    ∃ kernels, reduceAllForManyVecs dim maxThrdsPerBlk l dstVec vectors nbVecs n = some kernels ∧
      Reduces op dstVec vectors 0 (nbVecs + overrun (nbLeftoverVecs maxThrdsPerBlk nbVecs)) n
        kernels := by
  unfold reduceAllForManyVecs nbLeftoverVecs
  split
  · rename_i hmany
    have hpos : 0 < nbVecs / (2 * maxThrdsPerBlk + 1) := Nat.div_pos hmany.le (by omega)
    have hmod := Nat.mod_lt nbVecs (show 0 < 2 * maxThrdsPerBlk + 1 by omega)
    have hdiv := Nat.div_add_mod' nbVecs (2 * maxThrdsPerBlk + 1)
    generalize nbVecs % (2 * maxThrdsPerBlk + 1) = left at hmod hdiv
    have hwhole : nbVecs - left = nbVecs / (2 * maxThrdsPerBlk + 1) * (2 * maxThrdsPerBlk + 1) := by
      omega
    have hfits := dim.fits
    have hsize : n + dim.x * dim.y + maxThrdsPerBlk ≤ 2 ^ 64 := by omega
    obtain ⟨kernel, hkernel, hfirst⟩ := manyVecs_reduces op
      ⟨dim.x, dim.y, maxThrdsPerBlk, dim.blocks_pos, hmax, hfits⟩ n (.whole hpos hwhole)
      hinj hdst hsize
    have hleft : left < 2 ^ 32 := by omega
    obtain ⟨rest, hrest, hsecond⟩ :=
      leftover_reduces op l dim nbVecs hinj hdst hleft hl hn
    rw [← hwhole] at hfirst
    refine ⟨kernel :: rest, ?_, ?_⟩
    · simp [Grid.launch, hmax, hkernel, hrest]
    · have hboth := hfirst.cons hinj hdst (by rwa [Nat.zero_add])
      have hcount : nbVecs - left + (left + overrun left) = nbVecs + overrun left := by omega
      rwa [hcount] at hboth
  · have hleft : nbVecs < 2 ^ 32 := by omega
    obtain ⟨kernels, hkernels, hred⟩ :=
      leftover_reduces op l dim nbVecs hinj hdst hleft hl hn
    rw [Nat.sub_self] at hred
    exact ⟨kernels, hkernels, hred⟩

/-- The vectors that the GPU build combines into the destination, and their number. -/
def takenVecs (c : Choices) (nbVecs : Nat) : (Nat → Vec) × Nat :=
  if 4 < nbVecs ∧ c.longEnough = true then
    (.entry, nbVecs + overrun (nbLeftoverVecs c.maxThrdsPerBlk nbVecs))
  else if 1 < nbVecs then (.entry, nbVecs)
  else (fun _ => .array, 1)

theorem takenVecs_ne (c : Choices) (nbVecs j : Nat) : (takenVecs c nbVecs).1 j ≠ .dst := by
  unfold takenVecs
  split_ifs <;> simp

theorem stream_reduces (op : α → α → α) [Std.Associative op] [Std.Commutative op] (c : Choices)
    (nbVecs : Nat) (hmax : 0 < c.maxThrdsPerBlk) (hmax' : c.maxThrdsPerBlk < 2 ^ 31)
    (hl : c.reduceLaunch.blockDimX < 2 ^ 32) (hpos : 0 < n) (hn : n ≤ 2 ^ 63) :
    ∃ kernels, allreduceReduceAll c nbVecs n = some kernels ∧
      Reduces op .dst (takenVecs c nbVecs).1 0 (takenVecs c nbVecs).2 n kernels := by
  have hne := takenVecs_ne c nbVecs
  have hfits := c.reduceLaunch.fits
  unfold takenVecs at hne ⊢
  rw [allreduceReduceAll, if_neg hpos.ne']
  split_ifs at hne ⊢ with hmany hsome
  · exact manyVecs_stream (fun _ _ h => Vec.entry.inj h) hne hmax hmax' hl hn
  · refine reduce_reduces hne ?_ (by omega)
    rw [Vectors.taken, if_pos hsome, List.range_eq_range']
  · refine reduce_reduces hne ?_ (by omega)
    rw [Vectors.taken, if_neg hsome]
    rfl

/-- When no vector is taken that was not given. -/
def Covered (c : Choices) (nbVecs : Nat) : Prop :=
  if 4 < nbVecs ∧ c.longEnough = true then
    nbLeftoverVecs c.maxThrdsPerBlk nbVecs = 0 ∨ nbLeftoverVecs c.maxThrdsPerBlk nbVecs % 2 = 1
  else 1 < nbVecs

theorem Covered.taken {c : Choices} (h : Covered c nbVecs) :
    takenVecs c nbVecs = (.entry, nbVecs) := by
  unfold Covered at h
  unfold takenVecs
  split_ifs at h ⊢
  · rw [overrun, if_neg (by omega)]
    rfl
  · rfl

/-- Otherwise one is: the memory behind the array, or the array itself. -/
theorem exists_taken {c : Choices} (h : ¬ Covered c nbVecs) :
    ∃ j < (takenVecs c nbVecs).2, ∀ k < nbVecs, (takenVecs c nbVecs).1 j ≠ .entry k := by
  unfold Covered at h
  unfold takenVecs
  split_ifs at h ⊢
  · rw [overrun, if_pos (by omega)]
    exact ⟨nbVecs, Nat.lt_succ_self _, fun k hk heq => hk.ne' (Vec.entry.inj heq)⟩
  · exact ⟨0, Nat.one_pos, fun k _ => by simp⟩

theorem cpuReduceAll_value {mem : V × Nat → α} (hdst : ∀ j, vectors j ≠ dstVec) {i : Nat}
    (hi : i < n) :
    runAll op mem (cpuReduceAll dstVec vectors nbVecs n) (dstVec, i) =
      ((List.range nbVecs).map fun j => mem (vectors j, i)).foldl op (mem (dstVec, i)) := by
  have hread : ∀ s ∈ cpuReduceAll dstVec vectors nbVecs n,
      ∀ s' ∈ cpuReduceAll dstVec vectors nbVecs n, s.dst ≠ s'.src := by
    intro s hs s' hs' heq
    obtain ⟨j, -, hs⟩ := List.mem_flatMap.mp hs
    obtain ⟨i, -, rfl⟩ := List.mem_map.mp hs
    obtain ⟨j', -, hs'⟩ := List.mem_flatMap.mp hs'
    obtain ⟨i', -, rfl⟩ := List.mem_map.mp hs'
    exact hdst j' (congrArg Prod.fst heq).symm
  have hone : ∀ j, (cpuApply dstVec (vectors j) n).filter (fun s => decide (s.dst = (dstVec, i))) =
      [⟨(dstVec, i), (vectors j, i)⟩] := fun j =>
    filter_index List.nodup_range (List.mem_range.mpr hi)
  rw [runAll_collect hread, cpuReduceAll, List.filter_flatMap]
  simp only [hone]
  rw [← List.map_eq_flatMap, List.map_map]
  rfl

/-- The run of a stream leaves in the destination what the CPU build leaves there, and neither
reads nor writes anything but the destination and the vectors. -/
def SameAsCpu (op : α → α → α) (kernels : List (Kernel Vec)) (nbVecs vecLen : Nat) : Prop :=
  ∀ orders, StreamRun kernels orders →
    (∀ order ∈ orders, ∀ e ∈ order, Confined .dst .entry 0 nbVecs 0 vecLen e.2) ∧
    ∀ mem, ∀ i < vecLen, afterStream op mem orders (.dst, i) =
      runAll op mem (cpuReduceAll .dst .entry nbVecs vecLen) (.dst, i)

theorem Reduces.sameAsCpu {op : α → α → α} {kernels : List (Kernel Vec)}
    (h : Reduces op .dst .entry 0 nbVecs n kernels) : SameAsCpu op kernels nbVecs n := by
  intro orders hrun
  refine ⟨h.inside orders hrun, fun mem i hi => ?_⟩
  rw [h.value mem orders hrun i hi, cpuReduceAll_value (fun _ => Vec.noConfusion) hi,
    List.range_eq_range']

theorem afterStream_unread (op : α → α → α) {mem mem' : V × Nat → α} {x : V × Nat}
    {orders : List (List (Nat × Step (V × Nat)))}
    (h : ∀ order ∈ orders, ∀ e ∈ order, e.2.src ≠ x) (hmem : ∀ y, y ≠ x → mem y = mem' y) :
    ∀ y, y ≠ x → afterStream op mem orders y = afterStream op mem' orders y := by
  induction orders generalizing mem mem' with
  | nil => exact hmem
  | cons order orders ih =>
    rw [List.forall_mem_cons] at h
    refine ih h.2 (runAll_unread (fun s hs => ?_) hmem)
    obtain ⟨e, he, rfl⟩ := List.mem_map.mp hs
    exact h.1 e he

omit [DecidableEq V] in
theorem exists_streamRun (kernels : List (Kernel V)) : ∃ orders, StreamRun kernels orders := by
  induction kernels with
  | nil => exact ⟨[], .nil⟩
  | cons kernel kernels ih =>
    obtain ⟨order, horder⟩ := exists_interleaved kernel
    obtain ⟨orders, horders⟩ := ih
    exact ⟨order :: orders, .cons horder horders⟩

/-- A vector that is taken is read at its first index. -/
theorem Reduces.reads {kernels : List (Kernel V)} {count j : Nat}
    (h : Reduces (fun a b : Nat => a + b) dstVec vectors 0 count n kernels) (hpos : 0 < n)
    (hdst : vectors j ≠ dstVec) (hj : j < count) {orders : List (List (Nat × Step (V × Nat)))}
    (hrun : StreamRun kernels orders) :
    ∃ order ∈ orders, ∃ e ∈ order, e.2.src = (vectors j, 0) := by
  by_contra hnone
  push Not at hnone
  have hother : ∀ y : V × Nat, y ≠ (vectors j, 0) →
      (fun _ => 0 : V × Nat → Nat) y = Function.update (fun _ => 0) (vectors j, 0) 1 y :=
    fun y hy => (Function.update_of_ne hy 1 fun _ => 0).symm
  have hne : (dstVec, 0) ≠ (vectors j, 0) := fun heq => hdst (congrArg Prod.fst heq).symm
  have hsame := afterStream_unread (fun a b : Nat => a + b) hnone hother (dstVec, 0) hne
  rw [h.value _ orders hrun 0 hpos, h.value _ orders hrun 0 hpos, Function.update_of_ne hne,
    ← List.sum_eq_foldl, ← List.sum_eq_foldl] at hsame
  have hmem : 1 ∈ (List.range' 0 count).map fun k =>
      Function.update (fun _ => 0 : V × Nat → Nat) (vectors j, 0) 1 (vectors k, 0) :=
    List.mem_map.mpr ⟨j, List.mem_range'_1.mpr ⟨Nat.zero_le j, by omega⟩,
      Function.update_self _ _ _⟩
  have hle := List.le_sum_of_mem hmem
  rw [← hsame] at hle
  simp at hle

/-- On a GPU the vectors come to what they come to on the CPU, in whatever order the blocks and
the threads run between two barriers, exactly when the vectors that are left over are no group
with one more, and there are at least two where they are not taken in groups. -/
theorem gpu_as_cpu (op : α → α → α) [Std.Associative op] [Std.Commutative op] (c : Choices)
    (nbVecs vecLen : Nat) (hmax : 0 < c.maxThrdsPerBlk ∧ c.maxThrdsPerBlk < 2 ^ 31)
    (hl : c.reduceLaunch.blockDimX < 2 ^ 32) (hlen : 0 < vecLen ∧ vecLen ≤ 2 ^ 63) :
    ∃ kernels, allreduceReduceAll c nbVecs vecLen = some kernels ∧
      (SameAsCpu op kernels nbVecs vecLen ↔ Covered c nbVecs) := by
  obtain ⟨kernels, hkernels, hred⟩ := stream_reduces op c nbVecs
    hmax.1 hmax.2 hl hlen.1 hlen.2
  refine ⟨kernels, hkernels, fun hsame => ?_, fun hcov => ?_⟩
  · by_contra hcov
    obtain ⟨kernels', hkernels', hsum⟩ := stream_reduces (fun a b : Nat => a + b)
      c nbVecs hmax.1 hmax.2 hl hlen.1 hlen.2
    rw [hkernels] at hkernels'
    rw [← Option.some.inj hkernels'] at hsum
    obtain ⟨j, hj, hnew⟩ := exists_taken hcov
    obtain ⟨orders, hrun⟩ := exists_streamRun kernels
    obtain ⟨order, horder, e, he, hsrc⟩ :=
      hsum.reads hlen.1 (takenVecs_ne c nbVecs j) hj hrun
    obtain ⟨k, -, hk, hvec⟩ := ((hsame orders hrun).1 order horder e he).src
    rw [hsrc] at hvec
    exact hnew k (by omega) hvec
  · rw [hcov.taken] at hred
    exact hred.sameAsCpu

end Stream

end DocaApps.Proofs.GpuReduction
