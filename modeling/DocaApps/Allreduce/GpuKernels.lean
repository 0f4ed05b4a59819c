import DocaApps.Allreduce.GpuReducer

namespace DocaApps.Allreduce.GpuKernels
open Lib.ParallelSteps GpuReducer

/-- A kernel as it runs: for each block, what its threads do between two barriers. -/
abbrev Kernel (V : Type) := List (List (List (Step (V × Nat))))

section Kernels
variable {V : Type}

/-- The `do` loop of `_reduce_all_for_many_vecs` from the vector `offset` on: a group of vectors is
reduced before it is looked whether one more group is left, and there are at most `fuel`. -/
def groupsFrom (blockDimX : Nat) (dstVec : V) (vectors : Nat → V) (endVecs start stop : Nat) :
    Nat → Nat → Option (List (Block V))
  | 0, _ => none
  | fuel + 1, offset => do
    let first ← reduceAllForManyVecsAlgo blockDimX dstVec (fun i => vectors (offset + i)) start stop
    let offset := offset + (2 * blockDimX + 1)
    if offset < endVecs then
      return first :: (← groupsFrom blockDimX dstVec vectors endVecs start stop fuel offset)
    else return [first]

/-- The phases of a block that reduces one group after another. There is no barrier between the
additions to the destination and the next group, so that what is `left` of one group and the first
round of the next one are in one phase. -/
def phasesOf (left : List (Step (V × Nat))) : List (Block V) → List (List (Step (V × Nat)))
  | [] => [left]
  | b :: bs =>
    match b.rounds with
    | [] => phasesOf (left ++ b.last.flatten) bs
    | r :: rs => (left ++ r.steps) :: (rs.map Round.steps ++ phasesOf b.last.flatten bs)

/-- `_reduce_all_for_many_vecs`: a block that has no indices returns at once. -/
def manyVecsKernel (l : Launch) (dstVec : V) (vectors : Nat → V) (nbVecs vecLen : Nat) :
    Option (Kernel V) :=
  let endVecs := nbVecs - nbVecs % (2 * l.blockDimX + 1)
  allOf (l.blocks.map fun b =>
    match blockRange l vecLen b.1 b.2 with
    | none => some []
    | some (start, stop) =>
      (groupsFrom l.blockDimX dstVec vectors endVecs start stop (nbVecs + 1) 0).map (phasesOf []))

/-- `_gpu_reduce`, which has no barrier. -/
def gpuReduceKernel (l : Launch) (dstVec : V) (src : Vectors V) (vecLen : Nat) :
    Option (Kernel V) :=
  (gpuReduce l dstVec src vecLen).map fun blocks => blocks.map fun threads => [threads.flatten]

/-- The two dimensions of a grid. -/
structure Grid where
  x : Nat
  y : Nat
  blocks_pos : 0 < x * y
  fits : x * y < 2 ^ 32

/-- A launch, which is refused when it has no thread. -/
def Grid.launch (g : Grid) (threads : Nat) : Option Launch :=
  if h : 0 < threads then some ⟨g.x, g.y, threads, g.blocks_pos, h, g.fits⟩ else none

/-- `gpu_reduce`, with the grid and the number of threads worked out from the limits of the GPU. -/
def gpuReduceAll (l : Launch) (dstVec : V) (src : Vectors V) (vecLen : Nat) :
    Option (List (Kernel V)) := (gpuReduceKernel l dstVec src vecLen).map fun kernel => [kernel]

/-- The launch for the vectors that are left over. -/
def leftoverKernels (dim : Grid) (l : Launch) (dstVec : V) (vectors : Nat → V)
    (nbVecs nbLeftoverVecs vecLen : Nat) : Option (List (Kernel V)) :=
  if 1 < nbLeftoverVecs then do
    let half ← dim.launch (nbLeftoverVecs / 2)
    let kernel ← manyVecsKernel half dstVec (fun i => vectors (nbVecs - nbLeftoverVecs + i))
      nbLeftoverVecs vecLen
    return [kernel]
  else if nbLeftoverVecs = 1 then
    gpuReduceAll l dstVec ⟨fun _ => vectors (nbVecs - 1), vectors (nbVecs - 1), 1⟩ vecLen
  else some []

/-- `reduce_all_for_many_vecs`, with the grid worked out from the limits of the GPU. -/
def reduceAllForManyVecs (dim : Grid) (maxThrdsPerBlk : Nat) (l : Launch) (dstVec : V)
    (vectors : Nat → V) (nbVecs vecLen : Nat) : Option (List (Kernel V)) :=
  if 2 * maxThrdsPerBlk + 1 < nbVecs then do
    let nbLeftoverVecs := nbVecs % (2 * maxThrdsPerBlk + 1)
    let full ← dim.launch maxThrdsPerBlk
    let kernel ← manyVecsKernel full dstVec vectors (nbVecs - nbLeftoverVecs) vecLen
    let rest ← leftoverKernels dim l dstVec vectors nbVecs nbLeftoverVecs vecLen
    return kernel :: rest
  else leftoverKernels dim l dstVec vectors nbVecs nbVecs vecLen

/-- What the choices of `allreduce_reduce_all` come to on a GPU: the dimensions of the launches,
and whether the vectors are long enough for the tree. -/
structure Choices where
  dim : Grid
  maxThrdsPerBlk : Nat
  reduceLaunch : Launch
  longEnough : Bool

/-- The kernels that the GPU build of `allreduce_reduce_all` puts into its stream. -/
def allreduceReduceAll (c : Choices) (nbVecs vecLen : Nat) : Option (List (Kernel Vec)) :=
  if vecLen = 0 then some []
  else if 4 < nbVecs ∧ c.longEnough = true then
    reduceAllForManyVecs c.dim c.maxThrdsPerBlk c.reduceLaunch .dst .entry nbVecs vecLen
  else gpuReduceAll c.reduceLaunch .dst ⟨.entry, .array, nbVecs⟩ vecLen

/-- A run of a stream: one kernel after another, the blocks of each in any order. -/
def StreamRun (kernels : List (Kernel V)) (orders : List (List (Nat × Step (V × Nat)))) : Prop :=
  List.Forall₂ Interleaved kernels orders

/-- The memory after such a run. -/
def afterStream [DecidableEq V] {α : Type} (op : α → α → α) (mem : V × Nat → α)
    (orders : List (List (Nat × Step (V × Nat)))) : V × Nat → α :=
  orders.foldl (fun mem order => runAll op mem (order.map Prod.snd)) mem

/-- `summation` or `product` of the CPU build. -/
def cpuApply (dstVector srcVector : V) (length : Nat) : List (Step (V × Nat)) :=
  (List.range length).map fun i => ⟨(dstVector, i), (srcVector, i)⟩

/-- `allreduce_reduce_all` of the CPU build. -/
def cpuReduceAll (dstVec : V) (vectors : Nat → V) (n length : Nat) : List (Step (V × Nat)) :=
  (List.range n).flatMap fun i => cpuApply dstVec (vectors i) length

end Kernels

end DocaApps.Allreduce.GpuKernels
