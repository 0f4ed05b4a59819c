import DocaApps.Allreduce.MemPool
import DocaApps.Lib.Fallible
import DocaApps.Lib.Runs

namespace DocaApps.Proofs.MemPool
open Allreduce.MemPool DocaApps.Lib.Runs Lib.Fallible

/-- A pool whose elements outside are `out`: the free and the taken elements are all
different, and all of them were handed out by the heap before. -/
structure PoolOk (mp : Mpool) (next : Nat) (out : Multiset Nat) : Prop where
  head : mp.head = Multiset.card out
  le : mp.head ≤ mp.size
  nodup : (↑mp.free + out : Multiset Nat).Nodup
  below : ∀ vec ∈ (↑mp.free + out : Multiset Nat), vec < next
  intact : mp.dangling = false

variable {mp : Mpool} {heap : Heap} {next next' : Nat} {out : Multiset Nat}

theorem PoolOk.mono (h : PoolOk mp next out) (hle : next ≤ next') : PoolOk mp next' out :=
  ⟨h.head, h.le, h.nodup, fun vec hv => Nat.lt_of_lt_of_le (h.below vec hv) hle, h.intact⟩

/-- A pool with nothing outside has its head at the start and no element twice. -/
theorem PoolOk.all_returned (h : PoolOk mp next 0) : mp.head = 0 ∧ mp.stack.Nodup := by
  have hhead : mp.head = 0 := h.head.trans Multiset.card_zero
  have hnodup := h.nodup
  rw [add_zero, Mpool.free, hhead, List.drop_zero] at hnodup
  exact ⟨hhead, Multiset.coe_nodup.mp hnodup⟩

theorem pop_ok (h : PoolOk mp next out) (hlt : mp.head < mp.size) :
    ∃ vec, mp.pop = .ok (vec, { mp with head := mp.head + 1 }) ∧
      PoolOk { mp with head := mp.head + 1 } next (vec ::ₘ out) := by
  have hget : mp.stack[mp.head]? = some mp.stack[mp.head] := List.getElem?_eq_getElem hlt
  have hfree : mp.free = mp.stack[mp.head] :: mp.stack.drop (mp.head + 1) :=
    List.drop_eq_getElem_cons hlt
  have hsame : (↑(mp.stack.drop (mp.head + 1)) + (mp.stack[mp.head] ::ₘ out) : Multiset Nat) =
      ↑mp.free + out := by
    rw [hfree, ← Multiset.cons_coe, Multiset.add_cons, Multiset.cons_add]
  refine ⟨mp.stack[mp.head], ?_, ?_, hlt, ?_, ?_, h.intact⟩
  · simp only [Mpool.pop, hget]
  · rw [Multiset.card_cons, ← h.head]
  · rw [Mpool.free, hsame]
    exact h.nodup
  · rw [Mpool.free, hsame]
    exact h.below

theorem extend_ok (h : PoolOk mp heap.next out) (n : Nat) :
    PoolOk (mp.extend heap n).1 (mp.extend heap n).2.next out := by
  have hle := h.le
  have hfree : (mp.extend heap n).1.free = mp.free ++ List.range' heap.next n :=
    List.drop_append_of_le_length hle
  have hsum : (↑(mp.extend heap n).1.free + out : Multiset Nat) =
      ↑(List.range' heap.next n) + (↑mp.free + out) := by
    rw [hfree, ← Multiset.coe_add]
    abel
  refine ⟨h.head, ?_, ?_, ?_, h.intact⟩
  · simp only [Mpool.extend, Mpool.size, List.length_append] at hle ⊢
    omega
  · rw [hsum, Multiset.nodup_add]
    refine ⟨Multiset.coe_nodup.mpr List.nodup_range', h.nodup, ?_⟩
    rw [Multiset.disjoint_left]
    intro vec hnew hold
    have hlt := h.below vec hold
    have hge := (List.mem_range'_1.mp (Multiset.mem_coe.mp hnew)).1
    omega
  · intro vec hv
    rw [hsum, Multiset.mem_add] at hv
    rcases hv with hnew | hold
    · exact (List.mem_range'_1.mp (Multiset.mem_coe.mp hnew)).2
    · exact Nat.lt_of_lt_of_le (h.below vec hold) (Nat.le_add_right _ _)

/-- What an allocation does to a pool that was created with elements. It never shrinks,
and it does not change its size while it has a free element. -/
structure Taken (mp : Mpool) (heap : Heap) (out : Multiset Nat) (vec : Option Nat) (mp' : Mpool)
    (heap' : Heap) : Prop where
  ok : PoolOk mp' heap'.next (vec.elim out (· ::ₘ out))
  next : heap.next ≤ heap'.next
  size : mp.size ≤ mp'.size
  room : mp.head < mp.size → mp'.size = mp.size ∧ vec ≠ none

theorem alocVec_taken (h : PoolOk mp heap.next out) (hsize : 0 < mp.size) :
    ∃ vec mp' heap', alocVec mp heap = .ok (vec, mp', heap') ∧ Taken mp heap out vec mp' heap' := by
  have hle := h.le
  unfold alocVec
  by_cases hfull : mp.head = mp.size
  · rw [if_pos hfull, if_neg (by omega)]
    cases hgrant : heap.grants.headD (some mp.size) with
    | none => exact ⟨none, mp, _, rfl, h, Nat.le_refl _, Nat.le_refl _, by omega⟩
    | some n =>
      have hext := extend_ok h (min n mp.size)
      have hgrown : (mp.extend heap (min n mp.size)).1.size = mp.size + min n mp.size := by
        simp only [Mpool.extend, Mpool.size, List.length_append, List.length_range']
      by_cases hless : n < mp.size
      · refine ⟨none, (mp.extend heap (min n mp.size)).1, (mp.extend heap (min n mp.size)).2, ?_,
          hext, Nat.le_add_right _ _, by omega, by omega⟩
        simp only [if_pos hless]
      · have hlt : (mp.extend heap (min n mp.size)).1.head <
            (mp.extend heap (min n mp.size)).1.size := by
          rw [hgrown]
          exact Nat.lt_of_le_of_lt hle (by omega)
        obtain ⟨vec, hpop, hok⟩ := pop_ok hext hlt
        refine ⟨some vec, _, (mp.extend heap (min n mp.size)).2, ?_, hok, Nat.le_add_right _ _,
          ?_, by omega⟩
        · simp only [if_neg hless, hpop]
        · exact Nat.le_trans (Nat.le_add_right _ _) (Nat.le_of_eq hgrown.symm)
  · rw [if_neg hfull]
    obtain ⟨vec, hpop, hok⟩ := pop_ok h (by omega)
    exact ⟨some vec, _, heap, by simp only [hpop], hok, Nat.le_refl _, Nat.le_refl _,
      fun _ => ⟨rfl, Option.some_ne_none vec⟩⟩

/-- An empty pool gives nothing. -/
theorem alocVec_empty (h : PoolOk mp next out) (hsize : mp.size = 0) :
    alocVec mp heap = .ok (none, { mp with dangling := true }, heap) := by
  have hhead : mp.head = mp.size := by
    have hle := h.le
    omega
  rw [alocVec, if_pos hhead, if_pos hsize, if_neg (by rw [h.intact]; exact Bool.false_ne_true)]

theorem freeVec_ok {vec : Nat} (h : PoolOk mp next (vec ::ₘ out)) :
    ∃ mp', freeVec mp vec = .ok mp' ∧ PoolOk mp' next out ∧ mp'.size = mp.size := by
  have hhead : mp.head = Multiset.card out + 1 := h.head.trans (Multiset.card_cons vec out)
  have hle := h.le
  have hfree : (mp.stack.set (mp.head - 1) vec).drop (mp.head - 1) = vec :: mp.free := by
    have hlen : mp.head - 1 < (mp.stack.set (mp.head - 1) vec).length := by
      rw [List.length_set]
      exact Nat.lt_of_lt_of_le (by omega) hle
    rw [List.drop_eq_getElem_cons hlen, List.getElem_set_self, List.drop_set_of_lt (by omega),
      Nat.sub_add_cancel (by omega)]
    rfl
  have hsame : (↑(vec :: mp.free) + out : Multiset Nat) = ↑mp.free + (vec ::ₘ out) := by
    rw [← Multiset.cons_coe, Multiset.add_cons, Multiset.cons_add]
  refine ⟨_, if_neg (by omega), ⟨?_, ?_, ?_, ?_, h.intact⟩, List.length_set⟩
  · exact (congrArg (· - 1) hhead).trans (Nat.add_sub_cancel _ 1)
  · refine Nat.le_trans (Nat.sub_le _ _) (Nat.le_trans hle (Nat.le_of_eq ?_))
    exact List.length_set.symm
  · rw [Mpool.free, hfree, hsame]
    exact h.nodup
  · rw [Mpool.free, hfree, hsame]
    exact h.below

theorem freeVecs_ok (vecs : List Nat) : ∀ {mp : Mpool}, PoolOk mp next (↑vecs + out) →
    ∃ mp', freeVecs mp vecs = .ok mp' ∧ PoolOk mp' next out ∧ mp'.size = mp.size := by
  induction vecs with
  | nil =>
    intro mp h
    rw [Multiset.coe_nil, zero_add] at h
    exact ⟨mp, rfl, h, rfl⟩
  | cons vec vecs ih =>
    intro mp h
    rw [← Multiset.cons_coe, Multiset.cons_add] at h
    obtain ⟨mp1, hfree, h1, hsize1⟩ := freeVec_ok h
    obtain ⟨mp2, hrest, h2, hsize2⟩ := ih h1
    refine ⟨mp2, ?_, h2, hsize2.trans hsize1⟩
    simp only [freeVecs, hfree, hrest]

theorem createMpool_ok (heap : Heap) (n : Nat) :
    PoolOk (createMpool heap n).1 (createMpool heap n).2.next 0 := by
  refine ⟨rfl, Nat.zero_le _, ?_, ?_, rfl⟩
  · rw [add_zero]
    exact Multiset.coe_nodup.mpr List.nodup_range'
  · intro vec hv
    rw [add_zero] at hv
    exact (List.mem_range'_1.mp (Multiset.mem_coe.mp hv)).2

/-- The elements of the pool and those outside are all different, and they are all that were ever
made. -/
structure Partition (free : List Nat) (out : Multiset Nat) (made : Nat) : Prop where
  nodup : (↑free + out : Multiset Nat).Nodup
  all : ∀ vec, vec ∈ (↑free + out : Multiset Nat) ↔ vec < made

/-- When every call for memory gives some, an allocation succeeds. -/
def Serves (p : PoolArray) (supply : Supply) : Prop :=
  ∀ gives : Gives, (∀ n, gives n = true) →
    ∃ vec p' supply', p.alocVec gives supply = .ok (some vec, p', supply')

/-- The pool is in order, and an allocation that just failed may succeed later. -/
structure Sound (s : PoolUse) : Prop where
  running : s.stop = none
  le : s.pool.head ≤ s.pool.size
  head : s.pool.head = Multiset.card s.out
  stack : ∃ slots free, s.pool.stack = some slots ∧ s.pool.size ≤ slots.length ∧
    (slots.take s.pool.size).drop s.pool.head = free.map some ∧ Partition free s.out s.supply.made
  serves : s.failed = true → Serves s.pool s.supply

/-- Only what was taken out is returned, and nothing twice. -/
def Allowed (s : PoolUse) : PoolCall → Prop
  | .alocVec => True
  | .freeVec vec => vec ∈ s.out
  | .freeVecs vecs => (↑vecs : Multiset Nat) ≤ s.out

/-- An allocation that has to grow the pool finds elements in it, and twice as many slots are no
more bytes than a `size_t` counts. -/
def CanGrow (s : PoolUse) : PoolCall → Prop
  | .alocVec => s.pool.head = s.pool.size → 0 < s.pool.size ∧ 2 * s.pool.size * 8 < 2 ^ 64
  | _ => True

instance (s : PoolUse) : DecidablePred (Allowed s)
  | .alocVec => inferInstanceAs (Decidable True)
  | .freeVec vec => inferInstanceAs (Decidable (vec ∈ s.out))
  | .freeVecs vecs => inferInstanceAs (Decidable ((↑vecs : Multiset Nat) ≤ s.out))

instance (s : PoolUse) : DecidablePred (CanGrow s)
  | .alocVec => inferInstanceAs (Decidable (_ → _))
  | .freeVec _ => inferInstanceAs (Decidable True)
  | .freeVecs _ => inferInstanceAs (Decidable True)

section Array
variable {gives : Gives} {p : PoolArray} {supply : Supply} {slots : List (Option Nat)}
  {i n size head : Nat}

/-- Within the array the elements are put into the slots one after the other, until one of them
cannot be made. -/
theorem populate_spec (gives : Gives) (supply : Supply) (size head : Nat)
    (h : i + n ≤ slots.length) : ∃ k slots' supply',
    populateMemPoolRange gives n i ⟨some slots, size, head⟩ supply =
      .ok (decide (k = n), ⟨some slots', if k = n then size else i + k, head⟩, supply') ∧
    k ≤ n ∧ slots'.length = slots.length ∧ supply'.made = supply.made + k ∧
    slots'.take (i + k) = slots.take i ++ (List.range' supply.made k).map some ∧
    ((∀ m, gives m = true) → k = n) := by
  induction n generalizing i slots supply with
  | zero => exact ⟨0, slots, supply, by simp [populateMemPoolRange], by simp⟩
  | succ n ih =>
    have hi : i < slots.length := by omega
    cases hgives : gives supply.calls with
    | false =>
      refine ⟨0, slots.set i none, ⟨supply.calls + 1, supply.made⟩, ?_, by simp, by simp, rfl, ?_,
        ?_⟩
      · simp [populateMemPoolRange, hgives, PoolArray.write, hi, bind, Except.bind]
      · simp [List.take_set_of_le]
      · intro hall
        rw [hall] at hgives
        contradiction
    | true =>
      have hrest : i + 1 + n ≤ (slots.set i (some supply.made)).length := by
        simp
        omega
      obtain ⟨k, slots', supply', hrun, hk, hlen, hmade, htake, hall⟩ :=
        ih ⟨supply.calls + 1, supply.made + 1⟩ hrest
      simp only at hmade
      refine ⟨k + 1, slots', supply', ?_, by omega, by simpa using hlen, by omega, ?_, ?_⟩
      · have hplace : i + 1 + k = i + (k + 1) := by omega
        simp [populateMemPoolRange, hgives, PoolArray.write, hi, bind, Except.bind, hrun, hplace]
      · have hplace : i + 1 + k = i + (k + 1) := by omega
        have hfront : (slots.set i (some supply.made)).take (i + 1) =
            slots.take i ++ [some supply.made] := by
          rw [List.take_succ_eq_append_getElem (by simpa using hi), List.take_set_of_le le_rfl,
            List.getElem_set_self]
        rw [hplace, hfront] at htake
        simpa [List.range'_succ] using htake
      · intro h
        rw [hall h]

/-- Behind the array no element can be put anywhere, whether it is made or not. -/
theorem populate_outside (gives : Gives) (supply : Supply) (size head : Nat)
    (h : slots.length ≤ i) (hn : 0 < n) : ∃ e,
    populateMemPoolRange gives n i ⟨some slots, size, head⟩ supply = .error e := by
  obtain ⟨n, rfl⟩ := Nat.exists_eq_succ_of_ne_zero (Nat.ne_of_gt hn)
  have hi : ¬ i < slots.length := by omega
  refine ⟨.bounds, ?_⟩
  cases hgives : gives supply.calls with
  | false => simp [populateMemPoolRange, hgives, PoolArray.write, hi, bind, Except.bind]
  | true => simp [populateMemPoolRange, hgives, PoolArray.write, hi, bind, Except.bind]

/-- Where there are too few slots, all of them have to get an element before the next is put
outside. -/
theorem populate_short (gives : Gives) (supply : Supply) (size head : Nat)
    (hi : i ≤ slots.length) (hshort : slots.length < i + n) :
    ((∃ q, populateMemPoolRange gives n i ⟨some slots, size, head⟩ supply = .ok (false, q)) ↔
      ∃ j < slots.length - i, gives (supply.calls + j) = false) ∧
    ∀ q, populateMemPoolRange gives n i ⟨some slots, size, head⟩ supply ≠ .ok (true, q) := by
  induction n generalizing i slots supply with
  | zero => omega
  | succ n ih =>
    by_cases hend : slots.length = i
    · obtain ⟨e, he⟩ := populate_outside gives supply size head hend.le (Nat.succ_pos n)
      simp [he, hend]
    · have hin : i < slots.length := by omega
      cases hgives : gives supply.calls with
      | false =>
        have hrun : populateMemPoolRange gives (n + 1) i ⟨some slots, size, head⟩ supply =
            .ok (false, ⟨some (slots.set i none), i, head⟩, ⟨supply.calls + 1, supply.made⟩) := by
          simp [populateMemPoolRange, hgives, PoolArray.write, hin, bind, Except.bind]
        rw [hrun]
        refine ⟨⟨fun _ => ⟨0, by omega, hgives⟩, fun _ => ⟨_, rfl⟩⟩, by simp⟩
      | true =>
        have hrun : populateMemPoolRange gives (n + 1) i ⟨some slots, size, head⟩ supply =
            populateMemPoolRange gives n (i + 1)
              ⟨some (slots.set i (some supply.made)), size, head⟩
              ⟨supply.calls + 1, supply.made + 1⟩ := by
          simp [populateMemPoolRange, hgives, PoolArray.write, hin, bind, Except.bind]
        have hlow : i + 1 ≤ (slots.set i (some supply.made)).length := by simpa using hin
        have hhigh : (slots.set i (some supply.made)).length < i + 1 + n := by
          simp
          omega
        have hrest := ih ⟨supply.calls + 1, supply.made + 1⟩ hlow hhigh
        rw [hrun]
        refine ⟨hrest.1.trans ?_, hrest.2⟩
        rw [List.length_set]
        constructor
        · intro h
          obtain ⟨j, hj, hfalse⟩ := h
          exact ⟨j + 1, by omega, by rwa [Nat.add_assoc, Nat.add_comm 1 j] at hfalse⟩
        · intro h
          obtain ⟨j, hj, hfalse⟩ := h
          cases j with
          | zero => simp [hgives] at hfalse
          | succ j => exact ⟨j, by omega, by rwa [Nat.add_assoc, Nat.add_comm 1 j]⟩

theorem realloc_given {bytes : Nat} (hstack : p.stack = some slots)
    (hgives : gives supply.calls = true) : p.realloc gives bytes supply =
      .ok (true,
        ⟨some ((slots ++ List.replicate (bytes / 8) none).take (bytes / 8)), p.size, p.head⟩,
        ⟨supply.calls + 1, supply.made⟩) := by
  simp [PoolArray.realloc, hstack, hgives]

theorem realloc_refused {bytes : Nat} (hstack : p.stack = some slots)
    (hgives : gives supply.calls = false) : p.realloc gives bytes supply =
      .ok (false, if bytes = 0 then { p with stack := none } else p,
        ⟨supply.calls + 1, supply.made⟩) := by
  simp [PoolArray.realloc, hstack, hgives]

/-- A growth that gets memory goes outside the array, unless there are elements in the pool and
the number of the bytes fits into a `size_t`. -/
theorem alocVec_overrun (gives : Gives) (supply : Supply) (hstack : p.stack = some slots)
    (hfull : p.head = p.size)
    (hbad : ¬(0 < p.size ∧ 2 * p.size * 8 < 2 ^ 64)) (hgives : gives supply.calls = true) :
    ∃ e, p.alocVec gives supply = .error e := by
  have hcap : sizeT (2 * p.size * 8) / 8 ≤ p.size := by
    unfold sizeT
    omega
  have hlen : ((slots ++ List.replicate (sizeT (2 * p.size * 8) / 8) none).take
      (sizeT (2 * p.size * 8) / 8)).length ≤ p.head := by
    rw [hfull]
    exact (List.length_take_le _ _).trans hcap
  rw [PoolArray.alocVec, if_pos hfull, realloc_given hstack hgives]
  simp only [bind, Except.bind, Bool.true_eq_false, if_false]
  cases hroom : sizeT (2 * p.size) - p.head with
  | zero =>
    refine ⟨.bounds, ?_⟩
    simp [populateMemPoolRange, PoolArray.pop, List.getElem?_eq_none hlen]
  | succ n =>
    obtain ⟨e, he⟩ := populate_outside gives ⟨supply.calls + 1, supply.made⟩ (sizeT (2 * p.size))
      p.head hlen (Nat.succ_pos n)
    exact ⟨e, by rw [he]⟩

/-- The slots of the array up to its size hold the elements of the list. -/
structure Holds (p : PoolArray) (mp : Mpool) : Prop where
  stack : ∃ slots, p.stack = some slots ∧ p.size ≤ slots.length ∧
    slots.take p.size = mp.stack.map some
  head : p.head = mp.head

theorem Holds.size_eq (h : Holds p mp) : p.size = mp.size := by
  obtain ⟨slots, -, hle, htake⟩ := h.stack
  have hlen := congrArg List.length htake
  simpa [Mpool.size, hle] using hlen

theorem Holds.pop (h : Holds p mp) (hlt : p.head < p.size) : ∃ vec,
    p.pop = .ok (vec, { p with head := p.head + 1 }) ∧
      mp.pop = .ok (vec, { mp with head := mp.head + 1 }) := by
  obtain ⟨slots, hstack, -, htake⟩ := h.stack
  have hlt' : mp.head < mp.stack.length := by
    have hsize := h.size_eq
    rw [h.head, hsize] at hlt
    exact hlt
  have hlist : mp.stack[mp.head]? = some mp.stack[mp.head] := List.getElem?_eq_getElem hlt'
  have hslot : slots[p.head]? = some (some mp.stack[mp.head]) := by
    rw [← List.getElem?_take_of_lt hlt, htake, List.getElem?_map, h.head, hlist]
    rfl
  refine ⟨mp.stack[mp.head], ?_, ?_⟩
  · simp [PoolArray.pop, hstack, hslot]
  · simp [Mpool.pop, hlist]

theorem Holds.popped (h : Holds p mp) :
    Holds { p with head := p.head + 1 } { mp with head := mp.head + 1 } :=
  ⟨h.stack, congrArg (· + 1) h.head⟩

/-- What an allocation on the array does is what one on the list does, for an answer to its
growth. -/
structure Follows (mp : Mpool) (supply : Supply) (vec : Option Nat) (p' : PoolArray)
    (supply' : Supply) (mp' : Mpool) : Prop where
  run : ∃ grant heap', alocVec mp ⟨supply.made, [grant]⟩ = .ok (vec, mp', heap') ∧
    heap'.next = supply'.made
  holds : Holds p' mp'
  made : mp'.size + supply.made = mp.size + supply'.made
  full : vec = none → mp'.head = mp'.size → mp'.size = mp.size

theorem alocVec_pops (gives : Gives) (supply : Supply) (h : Holds p mp) (hlt : p.head < p.size) :
    ∃ vec p' supply' mp',
    p.alocVec gives supply = .ok (some vec, p', supply') ∧
      Follows mp supply (some vec) p' supply' mp' := by
  obtain ⟨vec, hpop, hlist⟩ := h.pop hlt
  have hfull : ¬ p.head = p.size := Nat.ne_of_lt hlt
  have hfull' : ¬ mp.head = mp.size := by rwa [← h.head, ← h.size_eq]
  refine ⟨vec, _, supply, _, ?_, ⟨none, ⟨supply.made, [none]⟩, ?_, rfl⟩, h.popped, rfl, by simp⟩
  · simp [PoolArray.alocVec, hfull, hpop, bind, Except.bind]
  · simp [alocVec, hfull', hlist]

theorem alocVec_refused (h : Holds p mp) (hfull : p.head = p.size) (hroom : 0 < p.size)
    (hfits : 2 * p.size * 8 < 2 ^ 64) (hgives : gives supply.calls = false) :
    p.alocVec gives supply = .ok (none, p, ⟨supply.calls + 1, supply.made⟩) ∧
      Follows mp supply none p ⟨supply.calls + 1, supply.made⟩ mp := by
  obtain ⟨slots, hstack, -, -⟩ := h.stack
  have hbytes : sizeT (2 * p.size * 8) ≠ 0 := by
    rw [sizeT, Nat.mod_eq_of_lt hfits]
    omega
  have hfull' : mp.head = mp.size := by rw [← h.head, ← h.size_eq, hfull]
  have hroom' : mp.size ≠ 0 := by rw [← h.size_eq]; omega
  refine ⟨?_, ⟨none, ⟨supply.made, []⟩, ?_, rfl⟩, h, rfl, fun _ _ => rfl⟩
  · rw [PoolArray.alocVec, if_pos hfull, realloc_refused hstack hgives]
    simp [hbytes, bind, Except.bind]
  · simp [alocVec, hfull', hroom']

/-- The array after a growth that got memory, and how many elements were made for it. -/
theorem populate_grown (h : Holds p mp) (hfull : p.head = p.size)
    (hfits : 2 * p.size * 8 < 2 ^ 64) (hgives : gives supply.calls = true) : ∃ k p' supply',
    k ≤ p.size ∧ supply'.made = supply.made + k ∧ p'.size = p.size + k ∧
    Holds p' (mp.extend ⟨supply.made, [some k]⟩ k).1 ∧
    (∀ vec p'', k = p.size → p'.pop = .ok (vec, p'') →
      p.alocVec gives supply = .ok (some vec, p'', supply')) ∧
    (k ≠ p.size → p.alocVec gives supply = .ok (none, p', supply')) ∧
    ((∀ n, gives n = true) → k = p.size) := by
  obtain ⟨slots, hstack, hlen, htake⟩ := h.stack
  have hsize : sizeT (2 * p.size) = 2 * p.size := Nat.mod_eq_of_lt (by omega)
  have hcap : sizeT (2 * p.size * 8) / 8 = 2 * p.size := by
    rw [sizeT, Nat.mod_eq_of_lt hfits, Nat.mul_div_cancel _ (by decide)]
  have hgrown : ((slots ++ List.replicate (2 * p.size) none).take (2 * p.size)).length =
      2 * p.size := by
    simp
  have hfront : ((slots ++ List.replicate (2 * p.size) none).take (2 * p.size)).take p.size =
      mp.stack.map some := by
    rw [List.take_take, Nat.min_eq_left (by omega), List.take_append_of_le_length hlen, htake]
  have hdouble : p.size + p.size ≤
      ((slots ++ List.replicate (2 * p.size) none).take (2 * p.size)).length := by
    rw [hgrown]
    omega
  obtain ⟨k, slots', supply', hrun, hk, hlen', hmade, htake', hall⟩ :=
    populate_spec gives ⟨supply.calls + 1, supply.made⟩ (2 * p.size) p.head hdouble
  have hend : (if k = p.size then 2 * p.size else p.size + k) = p.size + k := by
    split <;> omega
  rw [hend] at hrun
  have hcount : 2 * p.size - p.size = p.size := by omega
  generalize hsteps : p.alocVec gives supply = r
  rw [PoolArray.alocVec, if_pos hfull, realloc_given hstack hgives] at hsteps
  simp only [bind, Except.bind, Bool.true_eq_false, if_false, hsize, hcap, hfull, hcount]
    at hrun hsteps
  rw [hrun] at hsteps
  refine ⟨k, ⟨some slots', p.size + k, p.size⟩, supply', hk, hmade, rfl, ⟨⟨slots', rfl, ?_, ?_⟩,
    hfull.symm.trans h.head⟩, ?_, ?_, hall⟩
  · simp only
    omega
  · rw [htake', hfront, ← List.map_append]
    rfl
  · intro vec p'' hall hpop
    rw [hall] at hpop
    rw [← hsteps]
    simp [hall, hpop]
  · intro hless
    rw [← hsteps]
    simp [hless]

/-- An allocation that can grow the pool does what one on the list does, and succeeds when every
call gives memory. -/
theorem alocVec_follows (gives : Gives) (supply : Supply) (h : Holds p mp) (hle : p.head ≤ p.size)
    (hgrow : p.head = p.size → 0 < p.size ∧ 2 * p.size * 8 < 2 ^ 64) : ∃ vec p' supply' mp',
    p.alocVec gives supply = .ok (vec, p', supply') ∧ Follows mp supply vec p' supply' mp' ∧
      ((∀ n, gives n = true) → vec ≠ none) := by
  by_cases hfull : p.head = p.size
  · obtain ⟨hroom, hfits⟩ := hgrow hfull
    cases hgives : gives supply.calls with
    | false =>
      obtain ⟨hrun, hfollows⟩ := alocVec_refused h hfull hroom hfits hgives
      refine ⟨none, p, _, mp, hrun, hfollows, ?_⟩
      intro hall
      rw [hall] at hgives
      contradiction
    | true =>
      obtain ⟨k, p', supply', hk, hmade, hsize, hholds, htaken, hless, hall⟩ :=
        populate_grown h hfull hfits hgives
      have hfull' : mp.head = mp.size := by rw [← h.head, ← h.size_eq, hfull]
      have hroom' : mp.size ≠ 0 := by rw [← h.size_eq]; omega
      have hmin : min k mp.size = k := Nat.min_eq_left (by rw [← h.size_eq]; exact hk)
      have hsize' : (mp.extend ⟨supply.made, [some k]⟩ k).1.size = mp.size + k := by
        simp [Mpool.extend, Mpool.size]
      by_cases hk' : k = p.size
      · have hlt : p'.head < p'.size := by
          have hhead := hholds.head
          have hextend : (mp.extend ⟨supply.made, [some k]⟩ k).1.head = mp.head := rfl
          rw [hextend, ← h.head] at hhead
          omega
        obtain ⟨vec, hpop, hlist⟩ := hholds.pop hlt
        have hnot : ¬ k < mp.size := by rw [← h.size_eq]; omega
        refine ⟨some vec, _, supply', _, htaken vec _ hk' hpop, ⟨⟨some k, ⟨supply.made + k, []⟩, ?_,
          hmade.symm⟩, hholds.popped, ?_, by simp⟩, by simp⟩
        · simp [alocVec, hfull', hroom', hmin, hnot, hlist]
          rfl
        · simp only [Mpool.size] at hsize' ⊢
          omega
      · have hlt : k < mp.size := by rw [← h.size_eq]; omega
        refine ⟨none, p', supply', _, hless hk', ⟨⟨some k, ⟨supply.made + k, []⟩, ?_, hmade.symm⟩,
          hholds, by omega, ?_⟩, fun hall' => absurd (hall hall') hk'⟩
        · simp [alocVec, hfull', hroom', hmin, hlt]
          rfl
        · intro _ hend
          have hextend : (mp.extend ⟨supply.made, [some k]⟩ k).1.head = mp.head := rfl
          omega
  · obtain ⟨vec, p', supply', mp', hrun, hfollows⟩ :=
      alocVec_pops gives supply h (by omega)
    exact ⟨some vec, p', supply', mp', hrun, hfollows, by simp⟩

theorem freeVec_follows {vec : Nat} {mp' : Mpool} (h : Holds p mp) (hle : p.head ≤ p.size)
    (hfree : freeVec mp vec = .ok mp') :
    ∃ p', p.freeVec vec = .ok p' ∧ Holds p' mp' ∧ p'.head ≤ p'.size := by
  obtain ⟨slots, hstack, hlen, htake⟩ := h.stack
  by_cases hzero : mp.head = 0
  · rw [freeVec, if_pos hzero] at hfree
    contradiction
  · rw [freeVec, if_neg hzero, Except.ok.injEq] at hfree
    subst hfree
    have hzero' : p.head ≠ 0 := by rwa [h.head]
    have hin : p.head - 1 < slots.length := by omega
    refine ⟨⟨some (slots.set (p.head - 1) (some vec)), p.size, p.head - 1⟩, ?_,
      ⟨⟨_, rfl, ?_, ?_⟩, congrArg (· - 1) h.head⟩, (Nat.sub_le _ _).trans hle⟩
    · simp [PoolArray.freeVec, hzero', PoolArray.write, hstack, hin]
    · simpa using hlen
    · rw [List.take_set, htake, h.head, List.map_set]

theorem freeVecs_follows {vecs : List Nat} {mp' : Mpool} (h : Holds p mp) (hle : p.head ≤ p.size)
    (hfree : freeVecs mp vecs = .ok mp') :
    ∃ p', p.freeVecs vecs = .ok p' ∧ Holds p' mp' ∧ p'.head ≤ p'.size := by
  induction vecs generalizing p mp with
  | nil =>
    rw [freeVecs, Except.ok.injEq] at hfree
    exact ⟨p, rfl, hfree ▸ h, hle⟩
  | cons vec vecs ih =>
    cases hfirst : freeVec mp vec with
    | error e => simp [freeVecs, hfirst] at hfree
    | ok mp₁ =>
      obtain ⟨p₁, hrun₁, h₁, hle₁⟩ := freeVec_follows h hle hfirst
      have hrest : freeVecs mp₁ vecs = .ok mp' := by simpa [freeVecs, hfirst] using hfree
      obtain ⟨p', hrun, h', hle'⟩ := ih h₁ hle₁ hrest
      refine ⟨p', ?_, h', hle'⟩
      simp [PoolArray.freeVecs, hrun₁, hrun, bind, Except.bind]

end Array

section Use
variable {gives : Gives} {s : PoolUse} {call : PoolCall}

/-- The array of a pool in use holds a list that is in order, of all the elements ever made. -/
structure Ordered (s : PoolUse) : Prop where
  list : ∃ mp, Holds s.pool mp ∧ PoolOk mp s.supply.made s.out ∧ mp.size = s.supply.made
  running : s.stop = none

theorem PoolOk.partition (h : PoolOk mp next out) (hmade : mp.size = next) :
    Partition mp.free out next := by
  refine ⟨h.nodup, fun vec => ⟨h.below vec, fun hlt => ?_⟩⟩
  have hle : (↑mp.free + out : Multiset Nat) ≤ Multiset.range next :=
    (Multiset.le_iff_subset h.nodup).mpr fun v hv => Multiset.mem_range.mpr (h.below v hv)
  have hcard : Multiset.card (Multiset.range next) ≤
      Multiset.card (↑mp.free + out : Multiset Nat) := by
    have hhead := h.head
    have hsize := h.le
    simp [Mpool.free, Mpool.size] at hmade hsize ⊢
    omega
  rw [Multiset.eq_of_le_of_card_le hle hcard]
  exact Multiset.mem_range.mpr hlt

theorem Ordered.sound (h : Ordered s) (hserves : s.failed = true → Serves s.pool s.supply) :
    Sound s := by
  obtain ⟨mp, hholds, hok, hmade⟩ := h.list
  obtain ⟨slots, hstack, hlen, htake⟩ := hholds.stack
  refine ⟨h.running, ?_, hholds.head.trans hok.head, ⟨slots, mp.free, hstack, hlen, ?_,
    hok.partition hmade⟩, hserves⟩
  · rw [hholds.head, hholds.size_eq]
    exact hok.le
  · rw [htake, hholds.head, Mpool.free, List.map_drop]

theorem serves_of_canGrow (h : Ordered s) (hgrow : CanGrow s .alocVec) :
    Serves s.pool s.supply := by
  obtain ⟨mp, hholds, hok, -⟩ := h.list
  intro gives hall
  have hle : s.pool.head ≤ s.pool.size := by
    rw [hholds.head, hholds.size_eq]
    exact hok.le
  obtain ⟨vec, p', supply', mp', hrun, -, hsome⟩ :=
    alocVec_follows gives s.supply hholds hle hgrow
  obtain ⟨v, rfl⟩ := Option.ne_none_iff_exists'.mp (hsome hall)
  exact ⟨v, p', supply', hrun⟩

/-- An allocation that can grow the pool keeps it in order, and when it fails a later one may
succeed. -/
theorem alocVec_step (h : Ordered s) (hgrow : CanGrow s .alocVec) :
    Ordered (s.step gives .alocVec) ∧ Sound (s.step gives .alocVec) := by
  obtain ⟨mp, hholds, hok, hmade⟩ := h.list
  have hhead := hholds.head
  have hsize := hholds.size_eq
  have hle := hok.le
  have hgrow' : s.pool.head = s.pool.size → 0 < s.pool.size ∧ 2 * s.pool.size * 8 < 2 ^ 64 := hgrow
  have hroom : 0 < mp.size := by
    by_cases hfull : s.pool.head = s.pool.size
    · have hpos := (hgrow' hfull).1
      omega
    · omega
  obtain ⟨vec, p', supply', mp', hrun, hfollows, -⟩ :=
    alocVec_follows gives s.supply hholds (by omega) hgrow'
  obtain ⟨grant, heap', hlist, hnext⟩ := hfollows.run
  have hfresh : PoolOk mp (⟨s.supply.made, [grant]⟩ : Heap).next s.out := hok
  obtain ⟨vec', mp'', heap'', hlist', htaken⟩ := alocVec_taken hfresh hroom
  rw [hlist, Except.ok.injEq, Prod.mk.injEq, Prod.mk.injEq] at hlist'
  obtain ⟨rfl, rfl, rfl⟩ := hlist'
  have hok' := htaken.ok
  rw [hnext] at hok'
  have hmade' : mp'.size = supply'.made := by
    have hsum := hfollows.made
    omega
  cases vec with
  | some v =>
    have hstep : s.step gives .alocVec =
        { s with pool := p', supply := supply', out := v ::ₘ s.out, failed := false } := by
      simp [PoolUse.step, hrun]
    rw [hstep]
    have hordered : Ordered { s with
        pool := p', supply := supply', out := v ::ₘ s.out, failed := false } :=
      ⟨⟨mp', hfollows.holds, hok', hmade'⟩, h.running⟩
    exact ⟨hordered, hordered.sound (by simp)⟩
  | none =>
    have hstep : s.step gives .alocVec =
        { s with pool := p', supply := supply', failed := true } := by
      simp [PoolUse.step, hrun]
    rw [hstep]
    have hordered : Ordered { s with pool := p', supply := supply', failed := true } :=
      ⟨⟨mp', hfollows.holds, hok', hmade'⟩, h.running⟩
    refine ⟨hordered, hordered.sound fun _ => serves_of_canGrow hordered ?_⟩
    intro hfull
    have hhead' : p'.head = mp'.head := hfollows.holds.head
    have hsize' := hfollows.holds.size_eq
    have hfull' : p'.head = p'.size := hfull
    have hsame := hfollows.full rfl (by omega)
    have hcard : mp'.head = mp.head := hok'.head.trans hok.head.symm
    have hold := hgrow' (by omega)
    rw [show p'.size = s.pool.size by omega]
    exact hold

theorem alocVec_step_unsound (h : Ordered s) (hgrow : ¬ CanGrow s .alocVec) :
    ¬ Sound (s.step gives .alocVec) := by
  obtain ⟨mp, hholds, -, -⟩ := h.list
  obtain ⟨slots, hstack, -, -⟩ := hholds.stack
  simp only [CanGrow, Classical.not_imp] at hgrow
  obtain ⟨hfull, hbad⟩ := hgrow
  intro hsound
  cases hgives : gives s.supply.calls with
  | true =>
    obtain ⟨e, he⟩ := alocVec_overrun gives s.supply hstack hfull hbad hgives
    have hrunning := hsound.running
    simp [PoolUse.step, he] at hrunning
  | false =>
    have hrun : s.pool.alocVec gives s.supply = .ok (none,
        if sizeT (2 * s.pool.size * 8) = 0 then { s.pool with stack := none } else s.pool,
        ⟨s.supply.calls + 1, s.supply.made⟩) := by
      rw [PoolArray.alocVec, if_pos hfull, realloc_refused hstack hgives]
      simp [bind, Except.bind]
    have hserves := hsound.serves (by simp [PoolUse.step, hrun]) (fun _ => true) (fun _ => rfl)
    obtain ⟨vec, p', supply', hlater⟩ := hserves
    simp only [PoolUse.step, hrun] at hlater
    by_cases hbytes : sizeT (2 * s.pool.size * 8) = 0
    · rw [if_pos hbytes] at hlater
      simp [PoolArray.alocVec, hfull, PoolArray.realloc, bind, Except.bind] at hlater
    · rw [if_neg hbytes] at hlater
      obtain ⟨e, he⟩ := alocVec_overrun (fun _ => true) ⟨s.supply.calls + 1, s.supply.made⟩
        hstack hfull hbad rfl
      rw [he] at hlater
      contradiction

theorem returned_step {vecs : List Nat} (h : Ordered s) (hout : (↑vecs : Multiset Nat) ≤ s.out) :
    Ordered (s.returned vecs (s.pool.freeVecs vecs)) ∧
      Sound (s.returned vecs (s.pool.freeVecs vecs)) := by
  obtain ⟨mp, hholds, hok, hmade⟩ := h.list
  have hle : s.pool.head ≤ s.pool.size := by
    rw [hholds.head, hholds.size_eq]
    exact hok.le
  have hsplit : s.out = ↑vecs + (s.out - ↑vecs) := (add_tsub_cancel_of_le hout).symm
  rw [hsplit] at hok
  obtain ⟨mp', hfree, hok', hsize⟩ := freeVecs_ok vecs hok
  obtain ⟨p', hrun, hholds', -⟩ := freeVecs_follows hholds hle hfree
  rw [hrun]
  have hordered : Ordered (s.returned vecs (.ok p')) :=
    ⟨⟨mp', hholds', hok', hsize.trans hmade⟩, h.running⟩
  exact ⟨hordered, hordered.sound fun hfailed => Bool.noConfusion hfailed⟩

theorem freeVecs_singleton (p : PoolArray) (vec : Nat) : p.freeVecs [vec] = p.freeVec vec := by
  rw [PoolArray.freeVecs]
  cases p.freeVec vec <;> rfl

theorem step_sound (h : Ordered s) (hallowed : Allowed s call) (hgrow : CanGrow s call) :
    Ordered (s.step gives call) ∧ Sound (s.step gives call) := by
  cases call with
  | alocVec => exact alocVec_step h hgrow
  | freeVec vec =>
    have hout : (↑[vec] : Multiset Nat) ≤ s.out := Multiset.singleton_le.mpr hallowed
    have hstep := returned_step h hout
    rwa [freeVecs_singleton] at hstep
  | freeVecs vecs => exact returned_step h hallowed

theorem step_sound_iff (h : Ordered s) (hallowed : Allowed s call) :
    Sound (s.step gives call) ↔ CanGrow s call := by
  constructor
  · intro hsound
    cases call with
    | alocVec => exact by_contra fun hgrow => alocVec_step_unsound h hgrow hsound
    | freeVec vec => trivial
    | freeVecs vecs => trivial
  · exact fun hgrow => (step_sound h hallowed hgrow).2

/-- The bytes of the array fit into a `size_t`, or the memory is used up before its slots are. -/
def Fits (gives : Gives) (nbElems : Nat) : Prop :=
  nbElems * 8 < 2 ^ 64 ∨ ∃ n ≤ sizeT (nbElems * 8) / 8, gives n = false

theorem createArray_room (gives : Gives) {nbElems : Nat} (hfits : nbElems * 8 < 2 ^ 64) :
    ∃ made pool supply, createArray gives nbElems = .ok (made, pool, supply) ∧
      (made = true → Ordered ⟨pool, supply, 0, false, none⟩) := by
  cases hgives : gives 0 with
  | false => exact ⟨false, _, _, by rw [createArray, hgives]; rfl, by simp⟩
  | true =>
    have hcap : sizeT (nbElems * 8) / 8 = nbElems := by
      rw [sizeT, Nat.mod_eq_of_lt hfits, Nat.mul_div_cancel _ (by decide)]
    have hlen₀ : 0 + nbElems ≤ (List.replicate nbElems (none : Option Nat)).length := by simp
    obtain ⟨k, slots', supply', hrun, hk, hlen, hmade, htake, -⟩ :=
      populate_spec gives ⟨1, 0⟩ nbElems 0 hlen₀
    refine ⟨_, _, _, by rw [createArray, hgives, hcap]; exact hrun, ?_⟩
    intro hall
    have hk' : k = nbElems := of_decide_eq_true hall
    rw [if_pos hk']
    have hok := createMpool_ok ⟨0, []⟩ nbElems
    have hnext : (createMpool ⟨0, []⟩ nbElems).2.next = supply'.made := by
      simp [createMpool, hmade, hk']
    rw [hnext] at hok
    refine ⟨⟨_, ⟨⟨slots', rfl, ?_, ?_⟩, rfl⟩, hok, ?_⟩, rfl⟩
    · simp [hlen]
    · simpa [hk', createMpool] using htake
    · simp [createMpool, Mpool.size, hmade, hk']

/-- An array of too few slots is not filled: one of the elements cannot be made, or the next is put
outside. -/
theorem createArray_short (gives : Gives) {nbElems : Nat} (hfits : ¬ nbElems * 8 < 2 ^ 64) :
    ((∃ q, createArray gives nbElems = .ok (false, q)) ↔
      ∃ n ≤ sizeT (nbElems * 8) / 8, gives n = false) ∧
    ∀ q, createArray gives nbElems ≠ .ok (true, q) := by
  have hshort : sizeT (nbElems * 8) / 8 < nbElems := by
    unfold sizeT
    omega
  cases hgives : gives 0 with
  | false =>
    have hfails : ∃ n ≤ sizeT (nbElems * 8) / 8, gives n = false := ⟨0, Nat.zero_le _, hgives⟩
    simp [createArray, hgives, hfails]
  | true =>
    have hcreate : createArray gives nbElems = populateMemPoolRange gives nbElems 0
        ⟨some (List.replicate (sizeT (nbElems * 8) / 8) none), nbElems, 0⟩ ⟨1, 0⟩ := by
      rw [createArray, hgives]
      rfl
    have hshort' : (List.replicate (sizeT (nbElems * 8) / 8) (none : Option Nat)).length <
        0 + nbElems := by simpa using hshort
    obtain ⟨hiff, hnever⟩ := populate_short gives ⟨1, 0⟩ nbElems 0 (Nat.zero_le _) hshort'
    rw [hcreate, hiff, List.length_replicate, Nat.sub_zero]
    refine ⟨⟨fun h => ?_, fun h => ?_⟩, hnever⟩
    · obtain ⟨j, hj, hfalse⟩ := h
      exact ⟨1 + j, by omega, hfalse⟩
    · obtain ⟨n, hn, hfalse⟩ := h
      cases n with
      | zero => simp [hgives] at hfalse
      | succ n => exact ⟨n, by omega, by rwa [Nat.add_comm]⟩

theorem start_ok_iff {nbElems : Nat} :
    (∃ r, PoolUse.start gives nbElems = .ok r) ↔ Fits gives nbElems := by
  by_cases hfits : nbElems * 8 < 2 ^ 64
  · obtain ⟨made, pool, supply, hrun, -⟩ := createArray_room gives hfits
    have hfits' : Fits gives nbElems := .inl hfits
    simp [PoolUse.start, hrun, bind, Except.bind, hfits']
  · obtain ⟨hiff, hnever⟩ := createArray_short gives hfits
    rw [Fits, or_iff_right hfits, ← hiff]
    cases hrun : createArray gives nbElems with
    | error e => simp [PoolUse.start, hrun, bind, Except.bind]
    | ok r =>
      obtain ⟨made, q⟩ := r
      cases made with
      | false => simp [PoolUse.start, hrun, bind, Except.bind]
      | true => exact absurd hrun (hnever q)

theorem start_ordered {nbElems : Nat} (h : PoolUse.start gives nbElems = .ok (some s)) :
    Ordered s ∧ s.failed = false := by
  obtain ⟨⟨made, pool, supply⟩, hrun, hstart⟩ := bind_eq_ok.mp h
  cases made with
  | false => simp at hstart
  | true =>
    have hs : ⟨pool, supply, 0, false, none⟩ = s := by simpa using hstart
    have hfits : nbElems * 8 < 2 ^ 64 :=
      by_contra fun hfits => (createArray_short gives hfits).2 _ hrun
    obtain ⟨made', pool', supply', hrun', hordered⟩ := createArray_room gives hfits
    rw [hrun, Except.ok.injEq, Prod.mk.injEq, Prod.mk.injEq] at hrun'
    obtain ⟨rfl, rfl, rfl⟩ := hrun'
    rw [← hs]
    exact ⟨hordered rfl, rfl⟩

/-- The creation of a pool stays in its array, and when it succeeds every state of the calls that
follow is sound. -/
def SoundUse (gives : Gives) (nbElems : Nat) (calls : List PoolCall) : Prop :=
  ∃ r, PoolUse.start gives nbElems = .ok r ∧
    ∀ s, r = some s → ∀ k, Sound (run (PoolUse.step gives) s (calls.take k))

def AlongUse (gives : Gives) (nbElems : Nat) (ok : PoolUse → PoolCall → Prop)
    (calls : List PoolCall) : Prop :=
  ∀ s, PoolUse.start gives nbElems = .ok (some s) → Along (PoolUse.step gives) ok s calls

/-- A pool is used well exactly when its array has all the slots, and when every allocation that has
to grow it finds elements in it and no more of them than can be doubled. -/
theorem soundUse_iff {nbElems : Nat} {calls : List PoolCall}
    (hallowed : AlongUse gives nbElems Allowed calls) :
    SoundUse gives nbElems calls ↔
      Fits gives nbElems ∧ AlongUse gives nbElems CanGrow calls := by
  have hruns : ∀ s, PoolUse.start gives nbElems = .ok (some s) →
      ((∀ k, Sound (run (PoolUse.step gives) s (calls.take k))) ↔
        Along (PoolUse.step gives) CanGrow s calls) := by
    intro s hs
    obtain ⟨hordered, hfailed⟩ := start_ordered hs
    refine good_iff_along ?_ ?_ hordered
      (hordered.sound fun h => ?_) (hallowed s hs)
    · intro s call h hcall hsound
      exact (step_sound h hcall ((step_sound_iff h hcall).mp hsound)).1
    · intro s call h hcall _
      exact step_sound_iff h hcall
    · rw [hfailed] at h
      contradiction
  rw [← start_ok_iff]
  constructor
  · intro h
    obtain ⟨r, hr, hsound⟩ := h
    refine ⟨⟨r, hr⟩, fun s hs => (hruns s hs).mp ?_⟩
    rw [hr, Except.ok.injEq] at hs
    exact hsound s hs
  · intro h
    obtain ⟨⟨r, hr⟩, hgrow⟩ := h
    refine ⟨r, hr, fun s hs => ?_⟩
    rw [hs] at hr
    exact (hruns s hr).mpr (hgrow s hr)

/-- The growth of a pool of two elements stops after one of them was made, and everything is
returned later. -/
theorem soundUse_two : SoundUse (· ≠ 5) 2
    [.alocVec, .alocVec, .alocVec, .alocVec, .alocVec, .freeVecs [2, 0], .freeVec 1,
      .freeVec 3] := by
  refine (soundUse_iff ?_).mpr ⟨.inl (by decide), ?_⟩
  · intro s hs
    cases hs
    decide
  · intro s hs
    cases hs
    decide

/-- The first allocation from a pool of no elements has its array freed, and the next one hands the
freed array to `realloc`. -/
theorem soundUse_empty : AlongUse (· = 0) 0 Allowed [.alocVec, .alocVec] ∧
    ¬ SoundUse (· = 0) 0 [.alocVec, .alocVec] := by
  constructor
  · intro s hs
    cases hs
    decide
  · intro h
    obtain ⟨r, hr, hsound⟩ := h
    cases hr
    have hrunning := (hsound _ rfl 2).running
    exact absurd hrunning (by decide)

end Use

end DocaApps.Proofs.MemPool
