import Mathlib

namespace DocaApps.Allreduce.MemPool

/-- How a function of the application ends early: the process exits on an error it has
seen, it uses an object that is not live, it reads or writes outside an array or
through a null pointer, or a counter goes below zero. -/
inductive Stop where
  | exit
  | freed
  | bounds
  | underflow
  | divideByZero
  deriving DecidableEq, Repr

/-- The C heap as far as the pools see it: `next` is an address not handed out yet, and
`grants` are the answers to the next growths of a pool. `none` stands for a `realloc`
that fails, `some n` for at most `n` new elements. When `grants` is used up every growth
succeeds. -/
structure Heap where
  next : Nat
  grants : List (Option Nat)
  deriving DecidableEq, Repr

/-- `struct mpool`; its `size` is the length of `stack`. A `realloc` to no bytes frees the
stack, which is then left `dangling`. -/
structure Mpool where
  stack : List Nat
  head : Nat
  dangling : Bool
  deriving DecidableEq, Repr

def Mpool.size (mp : Mpool) : Nat := mp.stack.length

/-- The elements that are not taken out. -/
def Mpool.free (mp : Mpool) : List Nat := mp.stack.drop mp.head

/-- `*vec_p = mp->stack[mp->head++]`. -/
def Mpool.pop (mp : Mpool) : Except Stop (Nat × Mpool) :=
  match mp.stack[mp.head]? with
  | some vec => .ok (vec, { mp with head := mp.head + 1 })
  | none => .error .bounds

/-- The elements created by a growth that may make `n` of them. -/
def Mpool.extend (mp : Mpool) (heap : Heap) (n : Nat) : Mpool × Heap :=
  ({ mp with stack := mp.stack ++ List.range' heap.next n },
    ⟨heap.next + n, heap.grants.tail⟩)

/-- `allreduce_aloc_vec`; `none` stands for `DOCA_ERROR_NO_MEMORY`. -/
def alocVec (mp : Mpool) (heap : Heap) : Except Stop (Option Nat × Mpool × Heap) :=
  if mp.head = mp.size then
    if mp.size = 0 then
      if mp.dangling = true then .error .bounds
      else .ok (none, { mp with dangling := true }, heap)
    else
      match heap.grants.headD (some mp.size) with
      | none => .ok (none, mp, { heap with grants := heap.grants.tail })
      | some n =>
        let (grown, heap) := mp.extend heap (min n mp.size)
        if n < mp.size then .ok (none, grown, heap)
        else
          match grown.pop with
          | .ok (vec, mp) => .ok (some vec, mp, heap)
          | .error e => .error e
  else
    match mp.pop with
    | .ok (vec, mp) => .ok (some vec, mp, heap)
    | .error e => .error e

/-- `allreduce_free_vec`. -/
def freeVec (mp : Mpool) (vec : Nat) : Except Stop Mpool :=
  if mp.head = 0 then .error .bounds
  else .ok { mp with head := mp.head - 1, stack := mp.stack.set (mp.head - 1) vec }

/-- `allreduce_free_vecs`. -/
def freeVecs (mp : Mpool) : List Nat → Except Stop Mpool
  | [] => .ok mp
  | vec :: vecs =>
    match freeVec mp vec with
    | .ok mp => freeVecs mp vecs
    | .error e => .error e

/-- `allreduce_create_mpool` on elements that the heap has to give. -/
def createMpool (heap : Heap) (nbElems : Nat) : Mpool × Heap :=
  (⟨List.range' heap.next nbElems, 0, false⟩, { heap with next := heap.next + nbElems })

/-- What a `size_t` keeps of a number. -/
def sizeT (n : Nat) : Nat := n % 2 ^ 64

/-- Which of the calls for memory give any. -/
abbrev Gives := Nat → Bool

/-- The number of the calls so far, and of the elements that they made; the elements are numbered
as they are made. -/
structure Supply where
  calls : Nat
  made : Nat
  deriving DecidableEq, Repr

/-- `struct mpool` with the array that `stack` points to, unless `realloc` has freed it. A slot is
`none` while it holds no element. -/
structure PoolArray where
  stack : Option (List (Option Nat))
  size : Nat
  head : Nat
  deriving DecidableEq, Repr

/-- `stack[i] = elem`. -/
def PoolArray.write (p : PoolArray) (i : Nat) (elem : Option Nat) : Except Stop PoolArray :=
  match p.stack with
  | none => .error .freed
  | some slots =>
    if i < slots.length then .ok { p with stack := some (slots.set i elem) } else .error .bounds

/-- `_populate_mem_pool_range` for the `n` slots from `i` on, and whether it made an element for
each of them. -/
def populateMemPoolRange (gives : Gives) :
    Nat → Nat → PoolArray → Supply → Except Stop (Bool × PoolArray × Supply)
  | 0, _, p, supply => .ok (true, p, supply)
  | n + 1, i, p, supply =>
    if gives supply.calls then do
      let p ← p.write i (some supply.made)
      populateMemPoolRange gives n (i + 1) p ⟨supply.calls + 1, supply.made + 1⟩
    else do
      let p ← p.write i none
      .ok (false, { p with size := i }, { supply with calls := supply.calls + 1 })

/-- `allreduce_create_mpool`, where `malloc` makes room for whole slots. -/
def createArray (gives : Gives) (nbElems : Nat) : Except Stop (Bool × PoolArray × Supply) :=
  if gives 0 then
    populateMemPoolRange gives nbElems 0
      ⟨some (List.replicate (sizeT (nbElems * 8) / 8) none), nbElems, 0⟩ ⟨1, 0⟩
  else .ok (false, ⟨none, nbElems, 0⟩, ⟨1, 0⟩)

/-- `realloc` of the array. A request for no bytes frees it, and gives no slots if anything. -/
def PoolArray.realloc (gives : Gives) (bytes : Nat) (p : PoolArray) (supply : Supply) :
    Except Stop (Bool × PoolArray × Supply) :=
  match p.stack with
  | none => .error .freed
  | some slots =>
    let after := { supply with calls := supply.calls + 1 }
    if gives supply.calls then
      let slots := (slots ++ List.replicate (bytes / 8) none).take (bytes / 8)
      .ok (true, { p with stack := some slots }, after)
    else .ok (false, if bytes = 0 then { p with stack := none } else p, after)

/-- `*vec_p = mp->stack[mp->head++]`; a slot without an element gives nothing to use. -/
def PoolArray.pop (p : PoolArray) : Except Stop (Nat × PoolArray) :=
  match p.stack with
  | none => .error .freed
  | some slots =>
    match slots[p.head]? with
    | none => .error .bounds
    | some none => .error .freed
    | some (some vec) => .ok (vec, { p with head := p.head + 1 })

/-- `allreduce_aloc_vec` on the array. -/
def PoolArray.alocVec (gives : Gives) (p : PoolArray) (supply : Supply) :
    Except Stop (Option Nat × PoolArray × Supply) :=
  if p.head = p.size then do
    let (given, p, supply) ← p.realloc gives (sizeT (2 * p.size * 8)) supply
    if given = false then .ok (none, p, supply)
    else do
      let p := { p with size := sizeT (2 * p.size) }
      let (made, p, supply) ← populateMemPoolRange gives (p.size - p.head) p.head p supply
      if made = false then .ok (none, p, supply)
      else do
        let (vec, p) ← p.pop
        .ok (some vec, p, supply)
  else do
    let (vec, p) ← p.pop
    .ok (some vec, p, supply)

/-- `allreduce_free_vec` on the array; below zero `head` is far outside of it. -/
def PoolArray.freeVec (p : PoolArray) (vec : Nat) : Except Stop PoolArray :=
  if p.head = 0 then .error .bounds
  else PoolArray.write { p with head := p.head - 1 } (p.head - 1) (some vec)

/-- `allreduce_free_vecs` on the array. -/
def PoolArray.freeVecs (p : PoolArray) : List Nat → Except Stop PoolArray
  | [] => .ok p
  | vec :: vecs => do
    let p ← p.freeVec vec
    p.freeVecs vecs

inductive PoolCall where
  | alocVec
  | freeVec (vec : Nat)
  | freeVecs (vecs : List Nat)
  deriving DecidableEq, Repr

/-- A pool in use: the elements taken out of it and not returned, and whether the last call was an
allocation that failed. -/
structure PoolUse where
  pool : PoolArray
  supply : Supply
  out : Multiset Nat
  failed : Bool
  stop : Option Stop

def PoolUse.returned (s : PoolUse) (vecs : List Nat) : Except Stop PoolArray → PoolUse
  | .ok pool => { s with pool, out := s.out - ↑vecs, failed := false }
  | .error e => { s with stop := some e }

def PoolUse.step (gives : Gives) (s : PoolUse) : PoolCall → PoolUse
  | .alocVec =>
    match s.pool.alocVec gives s.supply with
    | .ok (some vec, pool, supply) => { s with pool, supply, out := vec ::ₘ s.out, failed := false }
    | .ok (none, pool, supply) => { s with pool, supply, failed := true }
    | .error e => { s with stop := some e }
  | .freeVec vec => s.returned [vec] (s.pool.freeVec vec)
  | .freeVecs vecs => s.returned vecs (s.pool.freeVecs vecs)

/-- The pool as it is created, when all its elements were made. -/
def PoolUse.start (gives : Gives) (nbElems : Nat) : Except Stop (Option PoolUse) := do
  let (made, pool, supply) ← createArray gives nbElems
  .ok (if made then some ⟨pool, supply, 0, false, none⟩ else none)

end DocaApps.Allreduce.MemPool
