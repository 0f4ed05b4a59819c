import DocaApps.Proofs.IndexPartition

namespace DocaApps.Proofs.TreeReduction
open Allreduce.GpuReducer Lib.ParallelSteps Lib.Strides Proofs.IndexPartition

/-- The numbers of vectors, combined two by two. -/
inductive Combination where
  | one (n : Nat)
  | both (a b : Combination)

def Combination.members : Combination → List Nat
  | .one n => [n]
  | .both a b => a.members ++ b.members

def Combination.value {α : Type} (op : α → α → α) (f : Nat → α) : Combination → α
  | .one n => f n
  | .both a b => op (a.value op f) (b.value op f)

/-- What vector `m * 2 ^ k` of `n` vectors holds after `k` rounds. -/
def subtree (n : Nat) : Nat → Nat → Combination
  | 0, m => .one m
  | k + 1, m =>
    if (2 * m + 1) * 2 ^ k < n then .both (subtree n k (2 * m)) (subtree n k (2 * m + 1))
    else subtree n k (2 * m)

/-- Each vector up to the next one that is left is in it once. -/
theorem members_subtree (n k m : Nat) (h : m * 2 ^ k < n) :
    (subtree n k m).members = List.range' (m * 2 ^ k) (min n ((m + 1) * 2 ^ k) - m * 2 ^ k) := by
  induction k generalizing m with
  | zero =>
    have hone : min n ((m + 1) * 2 ^ 0) - m * 2 ^ 0 = 1 := by omega
    rw [hone]
    simp [subtree, Combination.members]
  | succ k ih =>
    have hleft : m * 2 ^ (k + 1) = 2 * m * 2 ^ k := by ring
    have hend : (m + 1) * 2 ^ (k + 1) = (2 * m + 1 + 1) * 2 ^ k := by ring
    have hmid : (2 * m + 1) * 2 ^ k = 2 * m * 2 ^ k + 2 ^ k := by ring
    have hstop : (2 * m + 1 + 1) * 2 ^ k = 2 * m * 2 ^ k + 2 ^ k + 2 ^ k := by ring
    rw [hleft] at h ⊢
    rw [hend, subtree]
    split
    · rename_i hboth
      rw [Combination.members, ih _ h, ih _ hboth]
      have hfull : min n ((2 * m + 1) * 2 ^ k) - 2 * m * 2 ^ k = 2 ^ k := by
        rw [Nat.min_eq_right hboth.le, hmid, Nat.add_sub_cancel_left]
      have hnext : (2 * m + 1) * 2 ^ k = 2 * m * 2 ^ k + 1 * 2 ^ k := by ring
      rw [hfull, hnext, List.range'_append]
      congr 1
      omega
    · rename_i hone
      rw [ih _ h]
      congr 1
      omega

section Threads
variable {T t k : Nat}

/-- The variables of a thread after `k` rounds. -/
def cursorAt (T t k : Nat) : Cursor := (Cursor.next T)^[k] (Cursor.init t)

theorem cursorAt_succ : cursorAt T t (k + 1) = (cursorAt T t k).next T :=
  Function.iterate_succ_apply' _ _ _

theorem cursorAt_minRvecIdx : (cursorAt T t k).minRvecIdx = 2 ^ k := by
  induction k with
  | zero => rfl
  | succ k ih =>
    rw [cursorAt_succ, Cursor.next, Nat.pow_succ]
    split <;> simp [ih]

/-- A thread has doubled its numbers in each round, as long as the right one was a vector. -/
theorem cursorAt_spec :
    ((2 * t + 1) * 2 ^ k < 2 * T + 1 →
      (cursorAt T t k).lvecIdx = 2 * t * 2 ^ k ∧
        (cursorAt T t k).rvecIdx = (2 * t + 1) * 2 ^ k) ∧
    (2 * T + 1 ≤ (2 * t + 1) * 2 ^ k → 2 * T + 1 ≤ (cursorAt T t k).rvecIdx) := by
  induction k with
  | zero =>
    constructor
    · intro h
      constructor <;> simp [cursorAt, Cursor.init]
    · intro h
      simpa [cursorAt, Cursor.init] using h
  | succ k ih =>
    have hdouble : (2 * t + 1) * 2 ^ (k + 1) = (2 * t + 1) * 2 ^ k * 2 := by ring
    have hdouble' : 2 * t * 2 ^ (k + 1) = 2 * t * 2 ^ k * 2 := by ring
    rw [cursorAt_succ, hdouble, hdouble', Cursor.next]
    rcases Nat.lt_or_ge ((2 * t + 1) * 2 ^ k) (2 * T + 1) with hin | hout
    · obtain ⟨hl, hr⟩ := ih.1 hin
      rw [if_pos (hr ▸ hin), hl, hr]
      simp
    · have hstopped := ih.2 hout
      rw [if_neg (Nat.not_lt.mpr hstopped)]
      constructor
      · intro h
        omega
      · intro h
        exact hstopped

theorem call_cursorAt : (cursorAt T t k).call T =
    if (2 * t + 1) * 2 ^ k < 2 * T + 1 then some (2 * t * 2 ^ k, (2 * t + 1) * 2 ^ k)
    else none := by
  rw [Cursor.call]
  rcases Nat.lt_or_ge ((2 * t + 1) * 2 ^ k) (2 * T + 1) with hin | hout
  · obtain ⟨hl, hr⟩ := cursorAt_spec.1 hin
    rw [hl, hr]
  · rw [if_neg (Nat.not_lt.mpr (cursorAt_spec.2 hout)), if_neg (Nat.not_lt.mpr hout)]

end Threads

section Rounds
variable {V : Type} {T k start stop fuel i m : Nat} {vectors : Nat → V}

def cursors (T k : Nat) : List Cursor := (List.range T).map (cursorAt T · k)

/-- What a thread does in round `k`. -/
def callAt (T k start stop : Nat) (vectors : Nat → V) (t : Nat) : Thread V :=
  if (2 * t + 1) * 2 ^ k < 2 * T + 1 then
    (List.range' start (stop - start)).map fun i =>
      ⟨(vectors (2 * t * 2 ^ k), i), (vectors ((2 * t + 1) * 2 ^ k), i)⟩
  else []

def roundAt (T start stop : Nat) (vectors : Nat → V) (k : Nat) : Round V :=
  ⟨(cursors T k).map (Cursor.call T), (List.range T).map (callAt T k start stop vectors)⟩

theorem roundAt_steps : (roundAt T start stop vectors k).steps =
    (List.range T).flatMap (callAt T k start stop vectors) := List.flatMap_def.symm

theorem callSteps_cursorAt (hsize : stop + 1 ≤ 2 ^ 64) (t : Nat) :
    callSteps vectors start stop ((cursorAt T t k).call T) =
      some (callAt T k start stop vectors t) := by
  rw [call_cursorAt, callAt]
  split
  · rw [callSteps, gpuApply_eq Nat.one_pos hsize, strided_one]
  · rfl

theorem roundOf_cursors (hsize : stop + 1 ≤ 2 ^ 64) :
    roundOf T vectors start stop (cursors T k) = some (roundAt T start stop vectors k) := by
  have hsteps : allOf (((cursors T k).map (Cursor.call T)).map (callSteps vectors start stop)) =
      some ((List.range T).map (callAt T k start stop vectors)) := by
    rw [cursors, List.map_map, List.map_map]
    exact allOf_map fun t _ => callSteps_cursorAt hsize t
  rw [roundOf, hsteps]
  rfl

theorem mem_cursors_minRvecIdx {c : Cursor} (hc : c ∈ cursors T k) : c.minRvecIdx = 2 ^ k := by
  obtain ⟨t, -, rfl⟩ := List.mem_map.mp hc
  exact cursorAt_minRvecIdx

theorem next_cursors : (cursors T k).map (Cursor.next T) = cursors T (k + 1) := by
  simp [cursors, cursorAt_succ]

theorem lt_clog_iff : k < Nat.clog 2 (2 * T + 1) ↔ 2 ^ k < 2 * T + 1 :=
  Nat.lt_clog_iff_pow_lt Nat.one_lt_two

theorem rounds_over (h : Nat.clog 2 (2 * T + 1) ≤ k) :
    rounds T vectors start stop fuel (cursors T k) = some [] := by
  have hmin : 2 * T + 1 ≤ 2 ^ k := by
    rw [← Nat.not_lt, ← lt_clog_iff]
    omega
  have hall : ∀ c ∈ cursors T k, 2 * T + 1 ≤ c.minRvecIdx := fun c hc => by
    rwa [mem_cursors_minRvecIdx hc]
  cases fuel <;> rw [rounds, if_pos hall]

/-- All threads leave the loop at the same barrier. -/
theorem rounds_cursors (hT : 0 < T) (hsize : stop + 1 ≤ 2 ^ 64)
    (hfuel : Nat.clog 2 (2 * T + 1) ≤ k + fuel) :
    rounds T vectors start stop fuel (cursors T k) =
      some ((List.range' k (Nat.clog 2 (2 * T + 1) - k)).map (roundAt T start stop vectors)) := by
  induction fuel generalizing k with
  | zero =>
    have hover : Nat.clog 2 (2 * T + 1) ≤ k := hfuel
    rw [rounds_over hover, Nat.sub_eq_zero_of_le hover]
    rfl
  | succ fuel ih =>
    rcases Nat.lt_or_ge k (Nat.clog 2 (2 * T + 1)) with hgo | hover
    · have hmin := lt_clog_iff.mp hgo
      have hall : ∀ c ∈ cursors T k, c.minRvecIdx < 2 * T + 1 := fun c hc => by
        rwa [mem_cursors_minRvecIdx hc]
      have hstay : ¬ ∀ c ∈ cursors T k, 2 * T + 1 ≤ c.minRvecIdx := by
        intro h
        have hfirst : cursorAt T 0 k ∈ cursors T k := List.mem_map_of_mem (List.mem_range.mpr hT)
        have hleave := h _ hfirst
        have hin := hall _ hfirst
        omega
      have hcount : Nat.clog 2 (2 * T + 1) - k = Nat.clog 2 (2 * T + 1) - (k + 1) + 1 := by omega
      have hfuel' : Nat.clog 2 (2 * T + 1) ≤ k + 1 + fuel := by omega
      rw [rounds, if_neg hstay, if_pos hall, hcount, List.range'_succ, List.map_cons]
      simp only [roundOf_cursors hsize, next_cursors, ih hfuel', Option.bind_eq_bind,
        Option.bind_some]
      rfl
    · rw [rounds_over hover, Nat.sub_eq_zero_of_le hover]
      rfl

theorem mem_callAt {t : Nat} {s : Step (V × Nat)} :
    s ∈ callAt T k start stop vectors t ↔ (2 * t + 1) * 2 ^ k < 2 * T + 1 ∧
      ∃ i, start ≤ i ∧ i < stop ∧
        s = ⟨(vectors (2 * t * 2 ^ k), i), (vectors ((2 * t + 1) * 2 ^ k), i)⟩ := by
  rw [callAt]
  split
  · rename_i hin
    rw [List.mem_map, and_iff_right hin]
    constructor
    · intro h
      obtain ⟨i, hi, rfl⟩ := h
      rw [List.mem_range'_1] at hi
      exact ⟨i, by omega, by omega, rfl⟩
    · intro h
      obtain ⟨i, hstart, hstop, rfl⟩ := h
      exact ⟨i, List.mem_range'_1.mpr (by omega), rfl⟩
  · rename_i hout
    simp [hout]

theorem level_inj {a b : Nat} (h : a * 2 ^ k = b * 2 ^ k) : a = b :=
  Nat.eq_of_mul_eq_mul_right (Nat.two_pow_pos k) h

/-- The left vectors of a round are even multiples of a power of two, the right ones odd. -/
theorem raceFree_roundAt (hinj : Function.Injective vectors) :
    RaceFree (roundAt T start stop vectors k).steps := by
  constructor
  · rw [roundAt_steps, List.map_flatMap, List.nodup_flatMap]
    constructor
    · intro t ht
      rw [callAt]
      split
      · rw [List.map_map]
        exact List.Nodup.map (fun i j hij => congrArg Prod.snd hij) List.nodup_range'
      · exact List.nodup_nil
    · refine List.nodup_range.imp fun {t u} hne x hx hy => hne ?_
      obtain ⟨s, hs, rfl⟩ := List.mem_map.mp hx
      obtain ⟨s', hs', heq⟩ := List.mem_map.mp hy
      obtain ⟨-, i, -, -, rfl⟩ := mem_callAt.mp hs
      obtain ⟨-, j, -, -, rfl⟩ := mem_callAt.mp hs'
      have hleft := level_inj (hinj (congrArg Prod.fst heq))
      omega
  · rw [roundAt_steps]
    intro s hs s' hs' heq
    obtain ⟨t, -, hs⟩ := List.mem_flatMap.mp hs
    obtain ⟨u, -, hs'⟩ := List.mem_flatMap.mp hs'
    obtain ⟨-, i, -, -, rfl⟩ := mem_callAt.mp hs
    obtain ⟨-, j, -, -, rfl⟩ := mem_callAt.mp hs'
    have hcross := level_inj (hinj (congrArg Prod.fst heq))
    omega

variable [DecidableEq V] {α : Type} {op : α → α → α} {mem₀ mem : V × Nat → α}
  {order : List (Step (V × Nat))} {orders : List (List (Step (V × Nat)))} {n : Nat}

/-- The vectors that are left at a level hold what was combined into them. -/
def Level (T start stop : Nat) (vectors : Nat → V) (op : α → α → α) (mem₀ mem : V × Nat → α)
    (k : Nat) : Prop :=
  ∀ m, m * 2 ^ k < 2 * T + 1 → ∀ i, start ≤ i → i < stop →
    mem (vectors (m * 2 ^ k), i) =
      (subtree (2 * T + 1) k m).value op fun j => mem₀ (vectors j, i)

/-- One round, its steps being taken in any order. -/
theorem Level.round (h : Level T start stop vectors op mem₀ mem k)
    (hinj : Function.Injective vectors)
    (horder : order.Perm (roundAt T start stop vectors k).steps) :
    Level T start stop vectors op mem₀ (runAll op mem order) (k + 1) := by
  have hfree : RaceFree order := (raceFree_roundAt hinj).perm horder
  rw [roundAt_steps] at horder
  intro m hm i hstart hstop
  have hleft : m * 2 ^ (k + 1) = 2 * m * 2 ^ k := by ring
  rw [hleft] at hm ⊢
  rw [subtree]
  split
  · rename_i hboth
    have hthread : m ∈ List.range T := by
      have hpos := Nat.two_pow_pos k
      have hle : 2 * m + 1 ≤ (2 * m + 1) * 2 ^ k := Nat.le_mul_of_pos_right _ hpos
      rw [List.mem_range]
      omega
    have hstep : (⟨(vectors (2 * m * 2 ^ k), i), (vectors ((2 * m + 1) * 2 ^ k), i)⟩ :
        Step (V × Nat)) ∈ order :=
      horder.mem_iff.mpr (List.mem_flatMap.mpr
        ⟨m, hthread, mem_callAt.mpr ⟨hboth, i, hstart, hstop, rfl⟩⟩)
    rw [hfree.runAll_dst hstep, h _ hm i hstart hstop, h _ hboth i hstart hstop]
    rfl
  · rename_i hone
    have hother : ∀ s ∈ order, s.dst ≠ (vectors (2 * m * 2 ^ k), i) := by
      intro s hs heq
      obtain ⟨t, -, hs⟩ := List.mem_flatMap.mp (horder.mem_iff.mp hs)
      obtain ⟨hin, j, -, -, rfl⟩ := mem_callAt.mp hs
      have hsame := level_inj (hinj (congrArg Prod.fst heq))
      exact hone (hsame ▸ hin)
    rw [runAll_other hother]
    exact h _ hm i hstart hstop

/-- A run of rounds, each from where the one before it ended. -/
theorem Level.rounds (h : Level T start stop vectors op mem₀ mem k)
    (hinj : Function.Injective vectors)
    (horders : List.Forall₂ (fun order r => order.Perm (Round.steps r)) orders
      ((List.range' k n).map (roundAt T start stop vectors))) :
    Level T start stop vectors op mem₀ (orders.foldl (runAll op) mem) (k + n) := by
  induction n generalizing k mem orders with
  | zero =>
    rw [List.range'_zero, List.map_nil, List.forall₂_nil_right_iff] at horders
    rwa [horders]
  | succ n ih =>
    rw [List.range'_succ, List.map_cons, List.forall₂_cons_right_iff] at horders
    obtain ⟨order, rest, horder, hrest, rfl⟩ := horders
    have hlast := ih (h.round hinj horder) hrest
    rwa [Nat.add_right_comm] at hlast

end Rounds

section Blocks
variable {T k start stop : Nat}

/-- No vector is written by one of two threads and read or written by the other. -/
def Separate (a b : Option (Nat × Nat)) : Prop :=
  ∀ v ∈ a, ∀ w ∈ b, v.1 ≠ w.1 ∧ v.1 ≠ w.2 ∧ w.1 ≠ v.2

theorem mem_call {t : Nat} {v : Nat × Nat} (hv : v ∈ (cursorAt T t k).call T) :
    (2 * t + 1) * 2 ^ k < 2 * T + 1 ∧ v = (2 * t * 2 ^ k, (2 * t + 1) * 2 ^ k) := by
  rw [call_cursorAt, Option.mem_def] at hv
  split at hv
  · rename_i hin
    exact ⟨hin, (Option.some.inj hv).symm⟩
  · cases hv

theorem separate_calls {t u : Nat} (hne : t ≠ u) :
    Separate ((cursorAt T t k).call T) ((cursorAt T u k).call T) := by
  intro v hv w hw
  obtain ⟨-, rfl⟩ := mem_call hv
  obtain ⟨-, rfl⟩ := mem_call hw
  refine ⟨fun h => ?_, fun h => ?_, fun h => ?_⟩
  · have hleft := level_inj h
    omega
  · have hcross := level_inj h
    omega
  · have hcross := level_inj h
    omega

theorem calls_inside {t : Nat} {v : Nat × Nat} (hv : v ∈ (cursorAt T t k).call T) :
    v.1 ≤ 2 * T ∧ v.2 ≤ 2 * T := by
  obtain ⟨hin, rfl⟩ := mem_call hv
  have hle : 2 * t * 2 ^ k ≤ (2 * t + 1) * 2 ^ k := Nat.mul_le_mul_right _ (Nat.le_succ _)
  constructor <;> simp only <;> omega

/-- What is asked of a block that reduces `2 * T + 1` vectors. -/
structure TreeReduced (T start stop : Nat) (b : Block Vec) : Prop where
  separate : ∀ r ∈ b.rounds, r.calls.Pairwise Separate
  inside : ∀ r ∈ b.rounds, ∀ call ∈ r.calls, ∀ v ∈ call, v.1 ≤ 2 * T ∧ v.2 ≤ 2 * T
  reduced : ∃ c : Combination, c.members = List.range (2 * T + 1) ∧
    ∀ {α : Type} (op : α → α → α) (mem : Vec × Nat → α) (orders : List (List (Step (Vec × Nat)))),
      List.Forall₂ (fun order r => order.Perm (Round.steps r)) orders b.rounds →
      ∀ i, start ≤ i → i < stop →
        orders.foldl (runAll op) mem (.entry 0, i) = c.value op fun j => mem (.entry j, i)
  last : b.last.flatten.Perm
    ((List.range' start (stop - start)).map fun i => ⟨(.dst, i), (.entry 0, i)⟩)

section Whole
variable {V : Type} {dstVec : V} {vectors : Nat → V}

theorem last_eq (hrange : start ≤ stop) (hsize : stop + T ≤ 2 ^ 64) {t : Nat} (ht : t < T) :
    (if sizeT (start + t) < stop then
        gpuApply dstVec (vectors 0) (sizeT (start + t)) stop T else some []) =
      some ((strided (start + t) stop T).map fun i => ⟨(dstVec, i), (vectors 0, i)⟩) := by
  have hpos : 0 < T := by omega
  have hstart : sizeT (start + t) = start + t := by
    apply Nat.mod_eq_of_lt
    omega
  rw [hstart]
  split
  · exact gpuApply_eq hpos hsize
  · rw [strided_nil (by omega) hpos]
    rfl

/-- The rounds of a block, one for each level, and the additions to the destination. -/
def blockAt (T : Nat) (dstVec : V) (vectors : Nat → V) (start stop : Nat) : Block V :=
  ⟨(List.range' 0 (Nat.clog 2 (2 * T + 1))).map (roundAt T start stop vectors),
    (List.range T).map fun t =>
      (strided (start + t) stop T).map fun i => ⟨(dstVec, i), (vectors 0, i)⟩⟩

theorem reduceAllForManyVecsAlgo_eq (hT : 0 < T) (hrange : start ≤ stop)
    (hsize : stop + T ≤ 2 ^ 64) :
    reduceAllForManyVecsAlgo T dstVec vectors start stop =
      some (blockAt T dstVec vectors start stop) := by
  have hfuel : Nat.clog 2 (2 * T + 1) ≤ 0 + (2 * T + 1) := by
    rw [Nat.zero_add]
    exact Nat.clog_le_of_le_pow Nat.lt_two_pow_self.le
  have hone : stop + 1 ≤ 2 ^ 64 := by omega
  have hrounds : rounds T vectors start stop (2 * T + 1) ((List.range T).map Cursor.init) =
      some (blockAt T dstVec vectors start stop).rounds := rounds_cursors hT hone hfuel
  have hlast : allOf ((List.range T).map fun t => if sizeT (start + t) < stop then
        gpuApply dstVec (vectors 0) (sizeT (start + t)) stop T else some []) =
      some (blockAt T dstVec vectors start stop).last :=
    allOf_map fun t ht => last_eq hrange hsize (List.mem_range.mp ht)
  simp only [reduceAllForManyVecsAlgo, hrounds, hlast, Option.bind_eq_bind, Option.bind_some]
  rfl

theorem blockAt_last (hT : 0 < T) :
    (blockAt T dstVec vectors start stop).last.flatten.Perm
      ((List.range' start (stop - start)).map fun i => ⟨(dstVec, i), (vectors 0, i)⟩) := by
  rw [blockAt, ← List.flatMap_def, ← List.map_flatMap]
  exact (strides_perm hT).map _

/-- All vectors, from the first to the last, are combined into the first. -/
theorem members_root (T : Nat) :
    (subtree (2 * T + 1) (Nat.clog 2 (2 * T + 1)) 0).members = List.range (2 * T + 1) := by
  have hwhole := Nat.le_pow_clog Nat.one_lt_two (2 * T + 1)
  have hroot : 0 * 2 ^ Nat.clog 2 (2 * T + 1) < 2 * T + 1 := by
    rw [Nat.zero_mul]
    omega
  rw [members_subtree _ _ _ hroot, Nat.zero_mul, Nat.zero_add, Nat.one_mul, Nat.sub_zero,
    Nat.min_eq_left hwhole, List.range_eq_range']

variable [DecidableEq V] {α : Type} {op : α → α → α} {mem : V × Nat → α} {i : Nat}
  {orders : List (List (Step (V × Nat)))}

theorem blockAt_root (hinj : Function.Injective vectors)
    (horders : List.Forall₂ (fun order r => order.Perm (Round.steps r)) orders
      (blockAt T dstVec vectors start stop).rounds) (hstart : start ≤ i) (hstop : i < stop) :
    orders.foldl (runAll op) mem (vectors 0, i) =
      (subtree (2 * T + 1) (Nat.clog 2 (2 * T + 1)) 0).value op fun j => mem (vectors j, i) := by
  have hlevel : Level T start stop vectors op mem mem 0 := by
    intro m hm i hstart hstop
    rw [Nat.pow_zero, Nat.mul_one]
    rfl
  have hend := hlevel.rounds hinj horders 0 (by omega) i hstart hstop
  rwa [Nat.zero_mul, Nat.zero_add] at hend

end Whole

theorem blockAt_calls {V : Type} {dstVec : V} {vectors : Nat → V} {r : Round V}
    (hr : r ∈ (blockAt T dstVec vectors start stop).rounds) :
    ∃ k, r.calls = (List.range T).map fun t => (cursorAt T t k).call T := by
  obtain ⟨k, -, rfl⟩ := List.mem_map.mp hr
  exact ⟨k, List.map_map⟩

/-- The rounds of a block combine every vector once into the first, which is added to the
destination once at every index. -/
theorem tree_reduction (T start stop : Nat) (hT : 0 < T) (hrange : start ≤ stop)
    (hsize : stop + T ≤ 2 ^ 64) :
    ∃ b, reduceAllForManyVecsAlgo T .dst .entry start stop = some b ∧
      TreeReduced T start stop b := by
  refine ⟨_, reduceAllForManyVecsAlgo_eq hT hrange hsize, ?_, ?_, ?_, blockAt_last hT⟩
  · intro r hr
    obtain ⟨k, hcalls⟩ := blockAt_calls hr
    rw [hcalls, List.pairwise_map]
    exact List.nodup_range.imp fun hne => separate_calls hne
  · intro r hr call hcall
    obtain ⟨k, hcalls⟩ := blockAt_calls hr
    rw [hcalls] at hcall
    obtain ⟨t, -, rfl⟩ := List.mem_map.mp hcall
    exact fun v hv => calls_inside hv
  · refine ⟨_, members_root T, fun op mem orders horders i hstart hstop => ?_⟩
    exact blockAt_root (fun _ _ h => Vec.entry.inj h) horders hstart hstop

theorem tree_reduction_three :
    (0 < 3 ∧ 0 ≤ 5 ∧ 5 + 3 ≤ 2 ^ 64) ∧
      ∃ b, reduceAllForManyVecsAlgo 3 .dst .entry 0 5 = some b ∧ TreeReduced 3 0 5 b :=
  ⟨by decide, tree_reduction 3 0 5 (by decide) (by decide) (by decide)⟩

end Blocks

end DocaApps.Proofs.TreeReduction
