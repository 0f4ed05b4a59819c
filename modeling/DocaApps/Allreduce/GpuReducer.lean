import DocaApps.Lib.ParallelSteps

namespace DocaApps.Allreduce.GpuReducer
open Lib.ParallelSteps

/-- What a `size_t` keeps of a number. -/
def sizeT (n : Nat) : Nat := n % 2 ^ 64

def ceilDev (n divisor : Nat) : Nat := sizeT (n + divisor - 1) / divisor

/-- The dimensions of a launch. The number of the blocks, which is computed with 32 bits, is no
larger than they hold. -/
structure Launch where
  gridDimX : Nat
  gridDimY : Nat
  blockDimX : Nat
  blocks_pos : 0 < gridDimX * gridDimY
  threads_pos : 0 < blockDimX
  fits : gridDimX * gridDimY < 2 ^ 32

def Launch.blocks (l : Launch) : List (Nat × Nat) :=
  (List.range l.gridDimX).flatMap fun x => (List.range l.gridDimY).map fun y => (x, y)

/-- What all of them do, when all of them come to an end. -/
def allOf {β : Type} : List (Option β) → Option (List β)
  | [] => some []
  | none :: _ => none
  | some b :: rest => (allOf rest).map (b :: ·)

/-- The destination, the vectors whose addresses are in an array, and the memory of this array
itself, when it is taken for a vector. -/
inductive Vec where
  | dst
  | entry (i : Nat)
  | array
  deriving DecidableEq, Repr

section Reduce
variable {V : Type}

/-- What one thread of a kernel does, step by step. -/
abbrev Thread (V : Type) := List (Step (V × Nat))

/-- The indices of the loop in `gpu_summation` and `gpu_product`, which may not make more than
`fuel` passes. -/
def passes (stop step : Nat) : Nat → Nat → Option (List Nat)
  | 0, i => if i < stop then none else some []
  | fuel + 1, i =>
    if i < stop then (passes stop step fuel (sizeT (i + step))).map (i :: ·) else some []

/-- `gpu_summation` or `gpu_product`, which differ only in how two elements are combined. -/
def gpuApply (dstVector srcVector : V) (start stop step : Nat) : Option (Thread V) :=
  (passes stop step stop start).map fun indices =>
    indices.map fun i => ⟨(dstVector, i), (srcVector, i)⟩

/-- `struct vectors`: what is read from the union under each of its two names. -/
structure Vectors (V : Type) where
  arr : Nat → V
  vec : V
  n : Nat

/-- The vectors that `_gpu_reduce` takes. -/
def Vectors.taken (src : Vectors V) : List V :=
  if 1 < src.n then (List.range src.n).map src.arr else [src.vec]

/-- One thread of `_gpu_reduce`. -/
def gpuReduceThread (l : Launch) (dstVec : V) (src : Vectors V) (vecLen x y threadIdxX : Nat) :
    Option (Thread V) :=
  let blockSubVecLen := ceilDev vecLen (l.gridDimX * l.gridDimY)
  let start := sizeT ((x * l.gridDimY + y) * blockSubVecLen)
  let stop := sizeT (start + blockSubVecLen)
  let start := sizeT (start + threadIdxX)
  if vecLen ≤ start then some []
  else
    let stop := if vecLen < stop then vecLen else stop
    (allOf (src.taken.map fun vec => gpuApply dstVec vec start stop l.blockDimX)).map List.flatten

/-- The threads of each block of `_gpu_reduce`. -/
def gpuReduce (l : Launch) (dstVec : V) (src : Vectors V) (vecLen : Nat) :
    Option (List (List (Thread V))) :=
  allOf (l.blocks.map fun b => allOf ((List.range l.blockDimX).map
    (gpuReduceThread l dstVec src vecLen b.1 b.2)))

end Reduce

/-- The range of a block of `_reduce_all_for_many_vecs`, unless it returns early. -/
def blockRange (l : Launch) (vecLen x y : Nat) : Option (Nat × Nat) :=
  let perThreadSegLen := ceilDev vecLen (l.gridDimX * l.gridDimY)
  let start := sizeT (x * l.gridDimY * perThreadSegLen + y * perThreadSegLen)
  let stop := sizeT (start + perThreadSegLen)
  if vecLen ≤ start then none else some (start, if vecLen < stop then vecLen else stop)

/-- The ranges of the blocks that do not return early. -/
def blockRanges (l : Launch) (vecLen : Nat) : List (Nat × Nat) :=
  l.blocks.filterMap fun b => blockRange l vecLen b.1 b.2

section Tree
variable {V : Type}

/-- The variables of a thread in `_reduce_all_for_many_vecs_algo`. A block has at most as many
threads as an `int` counts, so that none of them is ever too large for a `size_t`. -/
structure Cursor where
  lvecIdx : Nat
  rvecIdx : Nat
  minRvecIdx : Nat
  deriving DecidableEq, Repr

def Cursor.init (threadIdxX : Nat) : Cursor := ⟨2 * threadIdxX, 2 * threadIdxX + 1, 1⟩

/-- The vectors that a thread combines in a round. -/
def Cursor.call (blockDimX : Nat) (c : Cursor) : Option (Nat × Nat) :=
  if c.rvecIdx < 2 * blockDimX + 1 then some (c.lvecIdx, c.rvecIdx) else none

def Cursor.next (blockDimX : Nat) (c : Cursor) : Cursor :=
  if c.rvecIdx < 2 * blockDimX + 1 then ⟨c.lvecIdx * 2, c.rvecIdx * 2, c.minRvecIdx * 2⟩
  else { c with minRvecIdx := c.minRvecIdx * 2 }

/-- The calls of the threads between two barriers, and what each of them does. -/
structure Round (V : Type) where
  calls : List (Option (Nat × Nat))
  threads : List (Thread V)

def Round.steps (r : Round V) : List (Step (V × Nat)) := r.threads.flatten

def callSteps (vectors : Nat → V) (start stop : Nat) :
    Option (Nat × Nat) → Option (Thread V)
  | none => some []
  | some (lvecIdx, rvecIdx) => gpuApply (vectors lvecIdx) (vectors rvecIdx) start stop 1

/-- What the threads do before they come to the next barrier. -/
def roundOf (blockDimX : Nat) (vectors : Nat → V) (start stop : Nat) (cs : List Cursor) :
    Option (Round V) :=
  let calls := cs.map (Cursor.call blockDimX)
  (allOf (calls.map (callSteps vectors start stop))).map (⟨calls, ·⟩)

/-- The loop, of at most `fuel` rounds; a barrier that some threads never come to does not open. -/
def rounds (blockDimX : Nat) (vectors : Nat → V) (start stop : Nat) :
    Nat → List Cursor → Option (List (Round V))
  | fuel, cs =>
    if ∀ c ∈ cs, 2 * blockDimX + 1 ≤ c.minRvecIdx then some []
    else if ∀ c ∈ cs, c.minRvecIdx < 2 * blockDimX + 1 then
      match fuel with
      | 0 => none
      | fuel + 1 => do
        let first ← roundOf blockDimX vectors start stop cs
        let cs := cs.map (Cursor.next blockDimX)
        return first :: (← rounds blockDimX vectors start stop fuel cs)
    else none

/-- The rounds of a block, and what each thread does behind the last of them. -/
structure Block (V : Type) where
  rounds : List (Round V)
  last : List (Thread V)

def reduceAllForManyVecsAlgo (blockDimX : Nat) (dstVec : V) (vectors : Nat → V)
    (start stop : Nat) : Option (Block V) := do
  let threads := List.range blockDimX
  let rs ← rounds blockDimX vectors start stop (2 * blockDimX + 1) (threads.map Cursor.init)
  let last ← allOf (threads.map fun threadIdxX =>
    let start := sizeT (start + threadIdxX)
    if start < stop then gpuApply dstVec (vectors 0) start stop blockDimX else some [])
  return ⟨rs, last⟩

end Tree

end DocaApps.Allreduce.GpuReducer
