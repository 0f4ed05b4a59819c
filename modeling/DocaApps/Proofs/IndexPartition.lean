import DocaApps.Allreduce.GpuReducer
import DocaApps.Lib.Strides

namespace DocaApps.Proofs.IndexPartition
open Allreduce.GpuReducer Lib.ParallelSteps Lib.Strides

section Joined
variable {α β : Type} {f : α → Option β} {g : α → β} {as : List α}

theorem allOf_map (h : ∀ a ∈ as, f a = some (g a)) : allOf (as.map f) = some (as.map g) := by
  induction as with
  | nil => rfl
  | cons a as ih =>
    rw [List.forall_mem_cons] at h
    rw [List.map_cons, h.1, allOf, ih h.2]
    rfl

/-- It does not matter which of two loops is the outer one. -/
theorem flatMap_swap {γ : Type} (as : List α) (cs : List γ) (f : α → γ → List β) :
    (as.flatMap fun a => cs.flatMap (f a)).Perm
      (cs.flatMap fun c => as.flatMap fun a => f a c) := by
  induction cs with
  | nil => simp
  | cons c cs ih =>
    simp only [List.flatMap_cons]
    refine (List.flatMap_append_perm as _ _).symm.trans ?_
    exact ih.append_left _

theorem flatMap_filterMap (as : List α) (f : α → Option β) {γ : Type} (g : β → List γ) :
    (as.filterMap f).flatMap g = as.flatMap fun a => (f a).elim [] g := by
  induction as with
  | nil => rfl
  | cons a as ih =>
    rw [List.flatMap_cons, List.filterMap_cons, ← ih]
    cases f a with
    | none => rfl
    | some b => exact List.flatMap_cons

end Joined

section Loops
variable {V : Type} {dstVec vec : V} {start stop step fuel i n : Nat}

/-- The loop of the reductions ends, when its last index is not too large to be stepped from. -/
theorem passes_eq (hstep : 0 < step) (hsize : stop + step ≤ 2 ^ 64) (hfuel : stop ≤ i + fuel) :
    passes stop step fuel i = some (strided i stop step) := by
  induction fuel generalizing i with
  | zero =>
    rw [passes, if_neg (by omega), strided_nil (by omega) hstep]
  | succ fuel ih =>
    rw [passes]
    split
    · rename_i hlt
      have hnext : sizeT (i + step) = i + step := by
        apply Nat.mod_eq_of_lt
        omega
      rw [hnext, ih (by omega), strided_cons hlt hstep]
      rfl
    · rw [strided_nil (by omega) hstep]

theorem gpuApply_eq (hstep : 0 < step) (hsize : stop + step ≤ 2 ^ 64) :
    gpuApply dstVec vec start stop step =
      some ((strided start stop step).map fun i => ⟨(dstVec, i), (vec, i)⟩) := by
  rw [gpuApply, passes_eq hstep hsize (Nat.le_add_left stop start)]
  rfl

end Loops

section Pieces
variable {V : Type} {l : Launch} {dstVec : V} {src : Vectors V} {n x y t b : Nat}

/-- The length of the pieces, which reach over the whole vector and not much further. -/
theorem ceilDev_bounds (hsize : n + l.gridDimX * l.gridDimY ≤ 2 ^ 64) :
    n ≤ l.gridDimX * l.gridDimY * ceilDev n (l.gridDimX * l.gridDimY) ∧
      l.gridDimX * l.gridDimY * ceilDev n (l.gridDimX * l.gridDimY) <
        n + l.gridDimX * l.gridDimY := by
  have hpos := l.blocks_pos
  generalize l.gridDimX * l.gridDimY = g at hsize hpos
  have hwhole : sizeT (n + g - 1) = n + g - 1 := by
    apply Nat.mod_eq_of_lt
    omega
  have hlower := Nat.lt_mul_div_succ (n + g - 1) hpos
  have hupper := Nat.mul_div_le (n + g - 1) g
  rw [ceilDev, hwhole]
  rw [Nat.mul_add] at hlower
  constructor <;> omega

theorem block_lt (hx : x < l.gridDimX) (hy : y < l.gridDimY) :
    x * l.gridDimY + y < l.gridDimX * l.gridDimY := by
  have hrow : (x + 1) * l.gridDimY ≤ l.gridDimX * l.gridDimY := Nat.mul_le_mul_right _ hx
  rw [Nat.add_mul] at hrow
  omega

/-- The end of a piece, up to the end of the vector. -/
def pieceStop (l : Launch) (n b : Nat) : Nat :=
  let len := ceilDev n (l.gridDimX * l.gridDimY)
  min n (b * len + len)

theorem piece_fits (hb : b < l.gridDimX * l.gridDimY)
    (hsize : n + l.gridDimX * l.gridDimY ≤ 2 ^ 64) :
    b * ceilDev n (l.gridDimX * l.gridDimY) + ceilDev n (l.gridDimX * l.gridDimY) <
      n + l.gridDimX * l.gridDimY := by
  have hend : (b + 1) * ceilDev n (l.gridDimX * l.gridDimY) ≤
      l.gridDimX * l.gridDimY * ceilDev n (l.gridDimX * l.gridDimY) :=
    Nat.mul_le_mul_right _ hb
  have hbound := (ceilDev_bounds hsize).2
  rw [Nat.add_mul] at hend
  omega

/-- The indices of one thread of a block: those of the block that are in its class. -/
def threadIndices (l : Launch) (n b t : Nat) : List Nat :=
  strided (b * ceilDev n (l.gridDimX * l.gridDimY) + t) (pieceStop l n b) l.blockDimX

/-- What a thread does: all its indices for one vector after the other. -/
def threadSteps (l : Launch) (dstVec : V) (src : Vectors V) (n b t : Nat) : Thread V :=
  src.taken.flatMap fun vec => (threadIndices l n b t).map fun i => ⟨(dstVec, i), (vec, i)⟩

theorem gpuReduceThread_eq (hsize : n + l.gridDimX * l.gridDimY + l.blockDimX ≤ 2 ^ 64)
    (hx : x < l.gridDimX) (hy : y < l.gridDimY) (ht : t < l.blockDimX) :
    gpuReduceThread l dstVec src n x y t =
      some (threadSteps l dstVec src n (x * l.gridDimY + y) t) := by
  have hsize' : n + l.gridDimX * l.gridDimY ≤ 2 ^ 64 := by omega
  have hfits := piece_fits (block_lt hx hy) hsize'
  have hstep := l.threads_pos
  simp only [gpuReduceThread, threadSteps, threadIndices, pieceStop]
  generalize x * l.gridDimY + y = b at hfits
  generalize ceilDev n (l.gridDimX * l.gridDimY) = len at hfits
  have hstart : sizeT (b * len) = b * len := by
    apply Nat.mod_eq_of_lt
    omega
  have hstop : sizeT (b * len + len) = b * len + len := by
    apply Nat.mod_eq_of_lt
    omega
  have hthread : sizeT (b * len + t) = b * len + t := by
    apply Nat.mod_eq_of_lt
    omega
  have hlast : (if n < b * len + len then n else b * len + len) = min n (b * len + len) := by
    split <;> omega
  rw [hstart, hstop, hthread, hlast]
  split
  · rename_i hearly
    have hnone : strided (b * len + t) (min n (b * len + len)) l.blockDimX = [] :=
      strided_nil (by omega) hstep
    rw [hnone]
    simp
  · have hlimit : min n (b * len + len) + l.blockDimX ≤ 2 ^ 64 := by omega
    rw [allOf_map fun vec _ => gpuApply_eq hstep hlimit, List.flatMap_def]
    rfl

theorem mem_blocks {b : Nat × Nat} :
    b ∈ l.blocks ↔ b.1 < l.gridDimX ∧ b.2 < l.gridDimY := by
  obtain ⟨x, y⟩ := b
  simp [Launch.blocks]

/-- The blocks are numbered row by row. -/
theorem blocks_numbers :
    l.blocks.map (fun b => b.1 * l.gridDimY + b.2) = List.range (l.gridDimX * l.gridDimY) := by
  rw [← table_range, Launch.blocks, List.map_flatMap]
  simp only [List.map_map]
  rfl

theorem gpuReduce_eq (hsize : n + l.gridDimX * l.gridDimY + l.blockDimX ≤ 2 ^ 64) :
    gpuReduce l dstVec src n = some ((List.range (l.gridDimX * l.gridDimY)).map fun b =>
      (List.range l.blockDimX).map (threadSteps l dstVec src n b)) := by
  have hblocks : gpuReduce l dstVec src n = some (l.blocks.map fun b =>
      (List.range l.blockDimX).map (threadSteps l dstVec src n (b.1 * l.gridDimY + b.2))) := by
    refine allOf_map fun b hb => allOf_map fun t ht => ?_
    obtain ⟨hx, hy⟩ := mem_blocks.mp hb
    exact gpuReduceThread_eq hsize hx hy (List.mem_range.mp ht)
  rw [hblocks, ← blocks_numbers, List.map_map]
  rfl

/-- Over all blocks and threads, every index of the vector is taken once. -/
theorem threadIndices_perm (hsize : n + l.gridDimX * l.gridDimY ≤ 2 ^ 64) :
    ((List.range (l.gridDimX * l.gridDimY)).flatMap fun b =>
      (List.range l.blockDimX).flatMap (threadIndices l n b)).Perm (List.range n) :=
  (List.Perm.flatMap_left _ fun _ _ => strides_perm l.threads_pos).trans
    (pieces_perm (ceilDev_bounds hsize).1)

/-- What is asked of the index ranges of the two kernels. -/
structure Partitioned (l : Launch) (dstVec : V) (src : Vectors V) (n : Nat) : Prop where
  reduce : ∃ blocks, gpuReduce l dstVec src n = some blocks ∧
    blocks.flatten.flatten.Perm
      (src.taken.flatMap fun vec => (List.range n).map fun i => ⟨(dstVec, i), (vec, i)⟩)
  ranges : ((blockRanges l n).flatMap fun r => List.range' r.1 (r.2 - r.1)).Perm (List.range n)

theorem gpuReduce_perm (hsize : n + l.gridDimX * l.gridDimY + l.blockDimX ≤ 2 ^ 64) :
    ∃ blocks, gpuReduce l dstVec src n = some blocks ∧
      blocks.flatten.flatten.Perm (src.taken.flatMap fun vec =>
        (List.range n).map fun i => ⟨(dstVec, i), (vec, i)⟩) := by
  refine ⟨_, gpuReduce_eq hsize, ?_⟩
  rw [List.flatten_flatten, List.map_map, ← List.flatMap_def]
  have hblock : ∀ b ∈ List.range (l.gridDimX * l.gridDimY),
      ((List.flatten ∘ fun b => (List.range l.blockDimX).map (threadSteps l dstVec src n b))
        b).Perm (src.taken.flatMap fun vec => ((List.range l.blockDimX).flatMap
          (threadIndices l n b)).map fun i => ⟨(dstVec, i), (vec, i)⟩) := by
    intro b hb
    rw [Function.comp_apply, ← List.flatMap_def]
    simp only [List.map_flatMap]
    exact flatMap_swap _ _ _
  refine (List.Perm.flatMap_left _ hblock).trans ((flatMap_swap _ _ _).trans ?_)
  refine List.Perm.flatMap_left _ fun vec _ => ?_
  rw [← List.map_flatMap]
  exact (threadIndices_perm (by omega)).map _

theorem blockRange_eq (hsize : n + l.gridDimX * l.gridDimY ≤ 2 ^ 64) (hx : x < l.gridDimX)
    (hy : y < l.gridDimY) :
    (blockRange l n x y).elim [] (fun r => List.range' r.1 (r.2 - r.1)) =
      List.range' ((x * l.gridDimY + y) * ceilDev n (l.gridDimX * l.gridDimY))
        (pieceStop l n (x * l.gridDimY + y) -
          (x * l.gridDimY + y) * ceilDev n (l.gridDimX * l.gridDimY)) := by
  have hfits := piece_fits (block_lt hx hy) hsize
  simp only [blockRange, pieceStop, ← Nat.add_mul]
  generalize x * l.gridDimY + y = b at hfits
  generalize ceilDev n (l.gridDimX * l.gridDimY) = len at hfits
  have hstart : sizeT (b * len) = b * len := by
    apply Nat.mod_eq_of_lt
    omega
  have hstop : sizeT (b * len + len) = b * len + len := by
    apply Nat.mod_eq_of_lt
    omega
  have hlast : (if n < b * len + len then n else b * len + len) = min n (b * len + len) := by
    split <;> omega
  rw [hstart, hstop, hlast]
  split
  · rename_i hearly
    have hnone : min n (b * len + len) - b * len = 0 := by omega
    rw [hnone]
    rfl
  · rfl

theorem blockRanges_perm (hsize : n + l.gridDimX * l.gridDimY ≤ 2 ^ 64) :
    ((blockRanges l n).flatMap fun r => List.range' r.1 (r.2 - r.1)).Perm (List.range n) := by
  have hblocks : (blockRanges l n).flatMap (fun r => List.range' r.1 (r.2 - r.1)) =
      (List.range (l.gridDimX * l.gridDimY)).flatMap fun b =>
        List.range' (b * ceilDev n (l.gridDimX * l.gridDimY))
          (pieceStop l n b - b * ceilDev n (l.gridDimX * l.gridDimY)) := by
    rw [blockRanges, flatMap_filterMap, Launch.blocks, ← table_range]
    simp only [List.flatMap_assoc, List.flatMap_map]
    refine List.flatMap_congr fun x hx => List.flatMap_congr fun y hy => ?_
    exact blockRange_eq hsize (List.mem_range.mp hx) (List.mem_range.mp hy)
  rw [hblocks]
  exact pieces_perm (ceilDev_bounds hsize).1

theorem index_partition (l : Launch) (dstVec : V) (src : Vectors V) (n : Nat)
    (hsize : n + l.gridDimX * l.gridDimY + l.blockDimX ≤ 2 ^ 64) :
    Partitioned l dstVec src n :=
  ⟨gpuReduce_perm hsize, blockRanges_perm (by omega)⟩

/-- Two blocks of one thread each. -/
def twoBlocks : Launch := ⟨2, 1, 1, by decide, by decide, by decide⟩

theorem index_partition_five : Partitioned twoBlocks Vec.dst ⟨.entry, .entry 0, 1⟩ 5 :=
  index_partition twoBlocks Vec.dst ⟨.entry, .entry 0, 1⟩ 5 (by decide)

/-- The longest vector that a `size_t` can count is rounded up to pieces of no length. -/
theorem index_partition_longest :
    ¬ Partitioned twoBlocks Vec.dst ⟨.entry, .entry 0, 1⟩ (2 ^ 64 - 1) := by
  intro h
  have hnone : gpuReduce twoBlocks Vec.dst ⟨.entry, .entry 0, 1⟩ (2 ^ 64 - 1) =
      some [[[]], [[]]] := by decide
  obtain ⟨blocks, hblocks, hperm⟩ := h.reduce
  rw [hnone] at hblocks
  have hfirst : (⟨(.dst, 0), (.entry 0, 0)⟩ : Step (Vec × Nat)) ∈ blocks.flatten.flatten :=
    hperm.mem_iff.mpr (by simp [Vectors.taken])
  rw [← Option.some.inj hblocks] at hfirst
  simp at hfirst

end Pieces

end DocaApps.Proofs.IndexPartition
