import DocaApps.Ipsec.BadSyndrome

namespace DocaApps.Proofs.BadSyndrome
open Common.Pack Ipsec.Rules Ipsec.BadSyndrome

variable {r : SyndromeRule} {i : Fin numOfSyndromes} {dumps : List Answers}

/-- The counter in an answer. -/
def counter : Except DocaError (BitVec 64) → Option Nat
  | .error _ => none
  | .ok totalPkts => some totalPkts.toNat

/-- The values that the successful queries of an entry gave. -/
def values (i : Fin numOfSyndromes) (dumps : List Answers) : List Nat :=
  dumps.filterMap fun answers => counter (answers i)

/-- The value of the last successful query; the counter starts from zero. -/
def lastValue (i : Fin numOfSyndromes) (dumps : List Answers) : Nat := (values i dumps).getLastD 0

/-- The deltas that the dumps reported for an entry, zero where there was no report. -/
def deltas (i : Fin numOfSyndromes) (r : SyndromeRule) (dumps : List Answers) : List Nat :=
  (dump r dumps).map fun reports => (reports i).elim 0 fun report => report.hits.toNat

/-- The query of dump `k` succeeded and found more than the last successful one before it. -/
def GrewAt (i : Fin numOfSyndromes) (dumps : List Answers) (k : Nat) : Prop :=
  ∃ answers v, dumps[k]? = some answers ∧ counter (answers i) = some v ∧
    lastValue i (dumps.take k) < v

/-- A delta is reported just when the counter grew, and the deltas add up to the counter. -/
structure Accounted (i : Fin numOfSyndromes) (r : SyndromeRule) (dumps : List Answers) : Prop where
  grew : ∀ k, 0 < (deltas i r dumps).getD k 0 ↔ GrewAt i dumps k
  total : (deltas i r dumps).sum = lastValue i dumps

section Slot

variable {last v : Nat} {answer : Except DocaError (BitVec 64)}
  {answers : List (Except DocaError (BitVec 64))}

/-- The value that an entry remembers of a counter. -/
def remembered (last : Nat) : Nat := last % 2 ^ 32

/-- The last value after an answer. -/
def next (last : Nat) (answer : Except DocaError (BitVec 64)) : Nat := (counter answer).getD last

/-- The delta for an answer when the value before was `last`. -/
def delta (last : Nat) (answer : Except DocaError (BitVec 64)) : Nat :=
  (counter answer).elim 0 fun v => v - remembered last

/-- The deltas for the answers to the queries of one entry. -/
def slotDeltas : Nat → List (Except DocaError (BitVec 64)) → List Nat
  | _, [] => []
  | last, answer :: answers => delta last answer :: slotDeltas (next last answer) answers

theorem counter_lt (h : counter answer = some v) : v < 2 ^ 64 := by
  cases answer with
  | error e => cases h
  | ok totalPkts =>
    cases h
    exact totalPkts.isLt

/-- A counter that did not fall is told by its delta, and leaves what is remembered. -/
theorem queryEntry_eq (rule : DecryptRule) (syndrome : String) {e : BadSyndromeEntry}
    (hprevious : e.previousStats.toNat = remembered last)
    (hnext : ∀ v, counter answer = some v → last ≤ v) :
    (queryEntry rule syndrome answer e).1.previousStats.toNat = remembered (next last answer) ∧
      ((queryEntry rule syndrome answer e).2.elim 0 fun report => report.hits.toNat) =
        delta last answer := by
  cases answer with
  | error err => exact ⟨hprevious, rfl⟩
  | ok totalPkts =>
    have hle : remembered last ≤ totalPkts.toNat :=
      (Nat.mod_le last _).trans (hnext _ rfl)
    have hwide : (e.previousStats.setWidth 64).toNat = remembered last := by
      rw [BitVec.toNat_setWidth, hprevious]
      unfold remembered
      omega
    have hdelta : delta last (.ok totalPkts) = totalPkts.toNat - remembered last := rfl
    have hlast : remembered (next last (.ok totalPkts)) = totalPkts.toNat % 2 ^ 32 := rfl
    by_cases hsame : totalPkts = e.previousStats.setWidth 64
    · have heq : totalPkts.toNat = remembered last := by rw [hsame, hwide]
      simp only [queryEntry, hsame, ne_eq, not_true_eq_false, ↓reduceIte]
      rw [← hsame]
      refine ⟨?_, ?_⟩
      · rw [hlast, heq, hprevious]
        unfold remembered
        omega
      · rw [hdelta, heq, Nat.sub_self]
        rfl
    · simp only [queryEntry, ne_eq, hsame, not_false_eq_true, ↓reduceIte]
      refine ⟨?_, ?_⟩
      · rw [hlast, BitVec.toNat_setWidth]
      · rw [hdelta, ← hwide]
        refine BitVec.toNat_sub_of_le ?_
        rw [BitVec.le_def, hwide]
        exact hle

/-- The sum of the deltas is off by what was not remembered of the values in between. -/
theorem slotDeltas_sum (hmono : (last :: answers.filterMap counter).Pairwise (· ≤ ·)) :
    (slotDeltas last answers).sum +
      ((last :: answers.filterMap counter).dropLast.map remembered).sum =
        (answers.filterMap counter).sum := by
  induction answers generalizing last with
  | nil => rfl
  | cons answer answers ih =>
    cases hanswer : counter answer with
    | none =>
      rw [List.filterMap_cons_none hanswer] at hmono ⊢
      have hdelta : delta last answer = 0 := by simp only [delta, hanswer, Option.elim_none]
      have hnext : next last answer = last := by simp only [next, hanswer, Option.getD_none]
      simp only [slotDeltas, hdelta, hnext, List.sum_cons, Nat.zero_add]
      exact ih hmono
    | some v =>
      rw [List.filterMap_cons_some hanswer] at hmono ⊢
      have hdelta : delta last answer = v - remembered last := by
        simp only [delta, hanswer, Option.elim_some]
      have hnext : next last answer = v := by simp only [next, hanswer, Option.getD_some]
      have hle : remembered last ≤ v :=
        (Nat.mod_le last _).trans ((List.pairwise_cons.mp hmono).1 v List.mem_cons_self)
      have hrest := ih (List.pairwise_cons.mp hmono).2
      simp only [slotDeltas, hdelta, hnext, List.sum_cons, List.dropLast_cons_cons,
        List.map_cons]
      omega

/-- Answer `k` found more than the last value before it. -/
def SlotGrewAt (last : Nat) (answers : List (Except DocaError (BitVec 64))) (k : Nat) : Prop :=
  ∃ answer v, answers[k]? = some answer ∧ counter answer = some v ∧
    ((answers.take k).filterMap counter).getLastD last < v

theorem slotGrewAt_zero :
    SlotGrewAt last (answer :: answers) 0 ↔ ∃ v, counter answer = some v ∧ last < v := by
  constructor
  · rintro ⟨a, v, ha, hv, hlt⟩
    cases ha
    exact ⟨v, hv, hlt⟩
  · rintro ⟨v, hv, hlt⟩
    exact ⟨answer, v, rfl, hv, hlt⟩

theorem slotGrewAt_succ {k : Nat} :
    SlotGrewAt last (answer :: answers) (k + 1) ↔ SlotGrewAt (next last answer) answers k := by
  have hlast : (((answer :: answers).take (k + 1)).filterMap counter).getLastD last =
      ((answers.take k).filterMap counter).getLastD (next last answer) := by
    rw [List.take_succ_cons]
    unfold next
    cases hanswer : counter answer with
    | none =>
      rw [List.filterMap_cons_none hanswer]
      rfl
    | some v =>
      rw [List.filterMap_cons_some hanswer, List.getLastD_cons]
      rfl
  unfold SlotGrewAt
  rw [hlast, List.getElem?_cons_succ]

/-- Values that are remembered whole tell every growth. -/
theorem slotDeltas_grew (hmono : (last :: answers.filterMap counter).Pairwise (· ≤ ·))
    (hnarrow : ∀ u ∈ (last :: answers.filterMap counter).dropLast, u < 2 ^ 32) (k : Nat) :
    0 < (slotDeltas last answers).getD k 0 ↔ SlotGrewAt last answers k := by
  induction answers generalizing last k with
  | nil =>
    simp only [slotDeltas, List.getD_nil, Nat.lt_irrefl, false_iff]
    rintro ⟨_, _, ha, -⟩
    cases ha
  | cons answer answers ih =>
    cases hanswer : counter answer with
    | none =>
      rw [List.filterMap_cons_none hanswer] at hmono hnarrow
      have hnext : next last answer = last := by simp only [next, hanswer, Option.getD_none]
      cases k with
      | zero => simp [slotDeltas, delta, hanswer, slotGrewAt_zero]
      | succ k =>
        rw [slotGrewAt_succ, hnext, ← ih hmono hnarrow]
        simp only [slotDeltas, hnext, List.getD_cons_succ]
    | some v =>
      rw [List.filterMap_cons_some hanswer] at hmono hnarrow
      have hnext : next last answer = v := by simp only [next, hanswer, Option.getD_some]
      rw [List.dropLast_cons_cons] at hnarrow
      cases k with
      | zero =>
        have hwhole : remembered last = last :=
          Nat.mod_eq_of_lt (hnarrow last List.mem_cons_self)
        simp only [slotDeltas, delta, hanswer, Option.elim_some, hwhole, List.getD_cons_zero,
          slotGrewAt_zero, Option.some.injEq, exists_eq_left', Nat.sub_pos_iff_lt]
      | succ k =>
        rw [slotGrewAt_succ, hnext, ← ih (List.pairwise_cons.mp hmono).2
          fun u hu => hnarrow u (List.mem_cons_of_mem _ hu)]
        simp only [slotDeltas, hnext, List.getD_cons_succ]

end Slot

section Law

theorem values_cons_none {answers : Answers} (h : counter (answers i) = none) :
    values i (answers :: dumps) = values i dumps :=
  List.filterMap_cons_none (f := fun answers : Answers => counter (answers i)) h

theorem values_cons_some {answers : Answers} {v : Nat} (h : counter (answers i) = some v) :
    values i (answers :: dumps) = v :: values i dumps :=
  List.filterMap_cons_some (f := fun answers : Answers => counter (answers i)) h

/-- The dumps give an entry the deltas of its own answers. -/
theorem deltas_eq {last : Nat} (hprevious : (r.entries i).previousStats.toNat = remembered last)
    (hmono : (last :: values i dumps).Pairwise (· ≤ ·)) :
    deltas i r dumps = slotDeltas last (dumps.map fun answers => answers i) := by
  induction dumps generalizing r last with
  | nil => rfl
  | cons answers dumps ih =>
    have hbelow : ∀ v, counter (answers i) = some v → last ≤ v := by
      intro v hv
      refine (List.pairwise_cons.mp hmono).1 v ?_
      rw [values_cons_some hv]
      exact List.mem_cons_self
    obtain ⟨hstats, hdelta⟩ := queryEntry_eq r.rule (syndromeList i) hprevious hbelow
    have hrest : (next last (answers i) :: values i dumps).Pairwise (· ≤ ·) := by
      unfold next
      cases hv : counter (answers i) with
      | none =>
        rw [values_cons_none hv] at hmono
        exact hmono
      | some v =>
        rw [values_cons_some hv] at hmono
        exact (List.pairwise_cons.mp hmono).2
    exact congrArg₂ List.cons hdelta (ih hstats hrest)

theorem values_eq : values i dumps = (dumps.map fun answers => answers i).filterMap counter := by
  unfold values
  rw [List.filterMap_map]
  rfl

theorem grewAt_iff {k : Nat} :
    GrewAt i dumps k ↔ SlotGrewAt 0 (dumps.map fun answers => answers i) k := by
  unfold GrewAt SlotGrewAt lastValue
  rw [values_eq, List.map_take]
  simp only [List.getElem?_map, Option.map_eq_some_iff]
  constructor
  · rintro ⟨answers, v, hk, hv, hlt⟩
    exact ⟨answers i, v, ⟨answers, hk, rfl⟩, hv, hlt⟩
  · rintro ⟨_, v, ⟨answers, hk, rfl⟩, hv, hlt⟩
    exact ⟨answers, v, hk, hv, hlt⟩

theorem sum_remembered_eq_iff {us : List Nat} :
    (us.map remembered).sum = us.sum ↔ ∀ u ∈ us, u < 2 ^ 32 := by
  induction us with
  | nil => simp
  | cons u us ih =>
    have hle : (us.map remembered).sum ≤ us.sum := by
      have := List.sum_le_sum (l := us) (f := remembered) (g := id) fun u _ => Nat.mod_le u _
      rwa [List.map_id] at this
    have hu : remembered u ≤ u := Nat.mod_le u _
    have hiff : remembered u = u ↔ u < 2 ^ 32 := by
      unfold remembered
      omega
    simp only [List.map_cons, List.sum_cons, List.forall_mem_cons, ← hiff, ← ih]
    omega

/-- The deltas of an entry are right just when every value but the last fits in what is
remembered of it. -/
theorem bad_syndrome_accounted_iff (hstart : (r.entries i).previousStats = 0)
    (hmono : (values i dumps).Pairwise (· ≤ ·)) :
    Accounted i r dumps ↔ ∀ v ∈ (values i dumps).dropLast, v < 2 ^ 32 := by
  have hprevious : (r.entries i).previousStats.toNat = remembered 0 := by rw [hstart]; rfl
  have hmono' : (0 :: values i dumps).Pairwise (· ≤ ·) :=
    List.pairwise_cons.mpr ⟨fun v _ => Nat.zero_le v, hmono⟩
  have hdeltas := deltas_eq hprevious hmono'
  have hsum := slotDeltas_sum (values_eq ▸ hmono')
  rw [← values_eq, ← hdeltas] at hsum
  have hwhole : (0 :: values i dumps).sum =
      (0 :: values i dumps).dropLast.sum + lastValue i dumps := by
    conv_lhs => rw [← List.dropLast_append_getLast (List.cons_ne_nil 0 (values i dumps))]
    rw [List.sum_append, List.sum_singleton, List.getLast_eq_getLastD]
    rfl
  rw [List.sum_cons, Nat.zero_add] at hwhole
  have htotal : (deltas i r dumps).sum = lastValue i dumps ↔
      ∀ u ∈ (0 :: values i dumps).dropLast, u < 2 ^ 32 := by
    rw [← sum_remembered_eq_iff]
    omega
  have hnarrow : (∀ u ∈ (0 :: values i dumps).dropLast, u < 2 ^ 32) ↔
      ∀ v ∈ (values i dumps).dropLast, v < 2 ^ 32 := by
    cases values i dumps with
    | nil => simp
    | cons v vs => simp [List.dropLast_cons_cons]
  constructor
  · intro h
    exact hnarrow.mp (htotal.mp h.total)
  · intro h
    refine ⟨fun k => ?_, htotal.mpr (hnarrow.mpr h)⟩
    rw [hdeltas, grewAt_iff]
    refine slotDeltas_grew ?_ ?_ k
    · rw [← values_eq]
      exact hmono'
    · rw [← values_eq]
      exact hnarrow.mpr h

/-- A rule whose entries have not been queried yet. -/
def freshRule : SyndromeRule where
  rule := ⟨.ip4, zeroAddr, 7, .ip4, none, ⟨.icv16, .aesgcm128, [], 0, .ingressDecrypt⟩⟩
  entries _ := ⟨0⟩

/-- A dump in which every query has the same answer. -/
def same (answer : Except DocaError (BitVec 64)) : Answers := fun _ => answer

theorem bad_syndrome_accounted_once_over :
    Accounted 0 freshRule [same (.ok 3), same (.error .driver), same (.ok 0x100000005)] :=
  (bad_syndrome_accounted_iff rfl (by decide)).mpr (by decide)

/-- A counter at 2^32 that stands still is reported again and again. -/
theorem still_counter_reported :
    deltas 0 freshRule [same (.ok 0x100000000), same (.ok 0x100000000)] =
      [0x100000000, 0x100000000] ∧
    ¬ Accounted 0 freshRule [same (.ok 0x100000000), same (.ok 0x100000000)] := by
  have hdeltas : deltas 0 freshRule [same (.ok 0x100000000), same (.ok 0x100000000)] =
      [0x100000000, 0x100000000] := by decide +kernel
  refine ⟨hdeltas, fun h => ?_⟩
  have htotal := h.total
  rw [hdeltas] at htotal
  exact absurd htotal (by decide)

end Law

end DocaApps.Proofs.BadSyndrome
