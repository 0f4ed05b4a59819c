import DocaApps.SimpleFwd.Lcores

namespace DocaApps.Proofs.Lcores
open SimpleFwd.FlowTable SimpleFwd.Packet SimpleFwd.Lcores

variable {enabled : Nat → Bool} {nbQueues rteMaxLcore i j left queueIdx : Nat}
  {arr : CoreParamsArr}

/-- How many cores in front of one are enabled. -/
def before (enabled : Nat → Bool) (i : Nat) : Nat := Nat.count (fun j => enabled j = true) i

theorem before_succ (enabled : Nat → Bool) (i : Nat) :
    before enabled (i + 1) = before enabled i + if enabled i then 1 else 0 :=
  Nat.count_succ (fun j => enabled j = true) i

theorem before_lt (hi : enabled i = true) (hij : i < j) : before enabled i < before enabled j :=
  Nat.count_strict_mono hi hij

/-- A core gets the number of the enabled ones in front of it, while there are queues; the first
one gets a queue in any case. -/
theorem mapQueueLoop_eq (hqueue : queueIdx = before enabled i)
    (hsome : queueIdx = 0 ∨ queueIdx < nbQueues) (j : Nat) :
    mapQueueLoop enabled nbQueues left i queueIdx arr j =
      if i ≤ j ∧ j < i + left ∧ enabled j = true ∧
          (before enabled j = 0 ∨ before enabled j < nbQueues) then
        ⟨(0, 1), (before enabled j, before enabled j), true⟩
      else arr j := by
  induction left generalizing i queueIdx arr with
  | zero =>
    rw [mapQueueLoop, if_neg]
    omega
  | succ left ih =>
    have hnext := before_succ enabled i
    rw [mapQueueLoop]
    by_cases hi : enabled i = true
    · rw [if_pos hi] at hnext
      rw [if_neg (by simp [hi])]
      by_cases hj : j = i
      · subst hj
        have hcond : j ≤ j ∧ j < j + (left + 1) ∧ enabled j = true ∧
            (before enabled j = 0 ∨ before enabled j < nbQueues) :=
          ⟨le_rfl, by omega, hi, by omega⟩
        rw [if_pos hcond]
        split
        · simp [hqueue]
        · rw [ih (by omega) (by omega), if_neg (by omega)]
          simp [hqueue]
      · split
        · rw [Function.update_of_ne hj, if_neg]
          rintro ⟨hle, hlt, hen, hcount⟩
          have hmono := before_lt hi (by omega : i < j)
          omega
        · rw [ih (by omega) (by omega), Function.update_of_ne hj]
          congr 1
          simp only [eq_iff_iff]
          constructor
          · rintro ⟨hle, hlt, hrest⟩
            exact ⟨by omega, by omega, hrest⟩
          · rintro ⟨hle, hlt, hrest⟩
            exact ⟨by omega, by omega, hrest⟩
    · rw [if_neg hi] at hnext
      rw [if_pos (by simp [hi]), ih (by omega) (by omega)]
      congr 1
      simp only [eq_iff_iff]
      constructor
      · rintro ⟨hle, hlt, hrest⟩
        exact ⟨by omega, by omega, hrest⟩
      · rintro ⟨hle, hlt, hen, hcount⟩
        have hne : i ≠ j := by
          rintro rfl
          exact hi hen
        exact ⟨by omega, by omega, hen, hcount⟩

theorem simpleFwdMapQueue_eq (rteMaxLcore : Nat) (enabled : Nat → Bool) (nbQueues : BitVec 16)
    (j : Nat) :
    simpleFwdMapQueue rteMaxLcore enabled nbQueues j =
      if j < rteMaxLcore ∧ enabled j = true ∧
          (before enabled j = 0 ∨ before enabled j < nbQueues.toNat) then
        ⟨(0, 1), (before enabled j, before enabled j), true⟩
      else ⟨(0, 0), (0, 0), false⟩ := by
  have hzero : (0 : Nat) = before enabled 0 := rfl
  rw [simpleFwdMapQueue, mapQueueLoop_eq hzero (.inl rfl)]
  simp

/-- The used cores share no queue, use those that there are, and serve all of them when there are
enough cores. -/
structure Mapped (rteMaxLcore : Nat) (enabled : Nat → Bool) (nbQueues : Nat)
    (arr : CoreParamsArr) : Prop where
  distinct : ∀ i j, (arr i).used = true → (arr j).used = true → i ≠ j →
    (arr i).queues.1 ≠ (arr j).queues.1 ∧ (arr i).queues.2 ≠ (arr j).queues.2
  below : ∀ i, (arr i).used = true →
    (arr i).queues.1 < nbQueues ∧ (arr i).queues.2 < nbQueues
  served : nbQueues ≤ before enabled rteMaxLcore → ∀ q < nbQueues, ∃ i,
    (arr i).used = true ∧ (arr i).queues = (q, q)

theorem exists_before {q : Nat} (h : q < before enabled j) :
    ∃ i < j, enabled i = true ∧ before enabled i = q := by
  induction j with
  | zero => simp [before] at h
  | succ j ih =>
    have hnext := before_succ enabled j
    by_cases hq : q < before enabled j
    · obtain ⟨i, hi, hen, hcount⟩ := ih hq
      exact ⟨i, by omega, hen, hcount⟩
    · by_cases hj : enabled j = true
      · rw [if_pos hj] at hnext
        exact ⟨j, by omega, hj, by omega⟩
      · rw [if_neg hj] at hnext
        omega

/-- The cores are mapped as they should be exactly when there is a queue, or no core. -/
theorem mapped_iff (rteMaxLcore : Nat) (enabled : Nat → Bool) (nbQueues : BitVec 16) :
    Mapped rteMaxLcore enabled nbQueues.toNat (simpleFwdMapQueue rteMaxLcore enabled nbQueues) ↔
      nbQueues ≠ 0 ∨ ∀ i < rteMaxLcore, enabled i = false := by
  have heq := simpleFwdMapQueue_eq rteMaxLcore enabled nbQueues
  have hzero : nbQueues = 0 ↔ nbQueues.toNat = 0 := by
    rw [← BitVec.toNat_inj]
    rfl
  have hused : ∀ j, (simpleFwdMapQueue rteMaxLcore enabled nbQueues j).used = true ↔
      j < rteMaxLcore ∧ enabled j = true ∧
        (before enabled j = 0 ∨ before enabled j < nbQueues.toNat) := by
    intro j
    rw [heq]
    split <;> simp_all
  have hqueues : ∀ j, (simpleFwdMapQueue rteMaxLcore enabled nbQueues j).used = true →
      (simpleFwdMapQueue rteMaxLcore enabled nbQueues j).queues =
        (before enabled j, before enabled j) := by
    intro j hj
    rw [heq, if_pos ((hused j).mp hj)]
  constructor
  · intro h
    by_contra hnone
    rw [not_or, not_not, hzero] at hnone
    obtain ⟨hnb, hcores⟩ := hnone
    rw [not_forall] at hcores
    obtain ⟨i, hi⟩ := hcores
    rw [Classical.not_imp, Bool.not_eq_false] at hi
    have hpos : 0 < before enabled rteMaxLcore := by
      have hlt := before_lt hi.2 hi.1
      omega
    obtain ⟨k, hk, hen, hcount⟩ := exists_before hpos
    have hbelow := h.below k ((hused k).mpr ⟨hk, hen, .inl hcount⟩)
    omega
  · intro h
    have hlt : ∀ j, j < rteMaxLcore → enabled j = true → nbQueues.toNat ≠ 0 := by
      intro j hj hen
      rcases h with hnb | hnone
      · rwa [ne_eq, ← hzero]
      · exact absurd hen (by simp [hnone j hj])
    refine ⟨?_, ?_, ?_⟩
    · intro i j hi hj hij
      rw [hqueues i hi, hqueues j hj]
      have hne : before enabled i ≠ before enabled j := by
        rcases Nat.lt_or_gt_of_ne hij with hlt | hlt
        · exact (before_lt ((hused i).mp hi).2.1 hlt).ne
        · exact (before_lt ((hused j).mp hj).2.1 hlt).ne'
      exact ⟨hne, hne⟩
    · intro i hi
      obtain ⟨hmax, hen, hcount⟩ := (hused i).mp hi
      have hnb := hlt i hmax hen
      rw [hqueues i hi]
      constructor <;> dsimp only <;> omega
    · intro henough q hq
      obtain ⟨i, hi, hen, hcount⟩ := exists_before (by omega : q < before enabled rteMaxLcore)
      have hi' := (hused i).mpr ⟨hi, hen, .inr (by omega)⟩
      exact ⟨i, hi', by rw [hqueues i hi', hcount]⟩

variable {cfg : Config} {params : PerCoreParams} {w : Worker} {lost : List Mbuf}
  {portId queueId : Nat}

theorem parseIp_l2 {data : Bytes} {base l3Off : Nat} {len : Int} {f : Format}
    (h : parseIp data base len l3Off = .ok f) : f.l2 = base := by
  unfold parseIp at h
  simp only [bind, Except.bind] at h
  repeat' split at h
  all_goals cases h
  rfl

/-- The outer headers begin where the packet does. -/
theorem simpleFwdParsePacket_l2 {data : Bytes} {pinfo : Pinfo}
    (h : simpleFwdParsePacket data = .ok pinfo) : pinfo.outer.l2 = 0 := by
  have hformat : ∀ {f : Format}, simpleFwdParsePktFormat data 0 data.length true = .ok f →
      f.l2 = 0 := by
    intro f hf
    unfold simpleFwdParsePktFormat at hf
    simp only [bind, Except.bind] at hf
    split at hf
    · cases hf
    · exact parseIp_l2 hf
  unfold simpleFwdParsePacket at h
  simp only [bind, Except.bind] at h
  split at h
  · cases h
  · rename_i outer houter
    have hl2 := hformat houter
    repeat' split at h
    all_goals cases h
    all_goals exact hl2

/-- Offloading looks at a packet and does not change it. -/
theorem simpleFwdProcessOffload_mbuf (ft : Ft) (mbuf : Mbuf) (queueId : Nat) (clock : Clock)
    (offload : Offload) : (simpleFwdProcessOffload ft mbuf queueId clock offload).2 = mbuf := by
  unfold simpleFwdProcessOffload
  split
  · rfl
  · rename_i pinfo hparse
    split
    · rfl
    · simp [vnfAdjustMbuf, simpleFwdParsePacket_l2 hparse]

/-- Every received packet was freed, accepted on the other port, or is one of the lost ones. -/
structure Accounts (w : Worker) (lost : List Mbuf) : Prop where
  once : w.received.Perm (w.freed ++ w.sent.map Prod.snd ++ lost)
  otherPort : ∀ x ∈ w.sent, x.1 + x.2.port = 1

/-- The packets of a burst that nobody owns in the end. -/
def lostOf (cfg : Config) (portId : Nat) (arrivals : List Arrival) : List Mbuf :=
  (arrivals.filter fun a => !cfg.rxOnly && !a.accepted).map fun a => a.mbuf portId

theorem processPkt_accounts (h : Accounts w lost) (hport : portId = 0 ∨ portId = 1) (a : Arrival) :
    Accounts (processPkt cfg portId queueId w a) (lost ++ lostOf cfg portId [a]) := by
  have hmbuf : (if cfg.hwOffload then
      simpleFwdProcessOffload w.ft (a.mbuf portId) queueId a.clock a.offload
      else (w.ft, a.mbuf portId)).2 = a.mbuf portId := by
    split
    · exact simpleFwdProcessOffload_mbuf _ _ _ _ _
    · rfl
  have honce := List.perm_iff_count.mp h.once
  simp only [List.count_append] at honce
  have hother : ∀ x ∈ w.sent ++ [(portId ^^^ 1, a.mbuf portId)], x.1 + x.2.port = 1 := by
    intro x hx
    rcases List.mem_append.mp hx with hx | hx
    · exact h.otherPort x hx
    · obtain rfl := List.mem_singleton.mp hx
      rcases hport with rfl | rfl <;> rfl
  unfold processPkt
  simp only [hmbuf]
  cases hrx : cfg.rxOnly with
  | true =>
    have hlost : lostOf cfg portId [a] = [] := by simp [lostOf, hrx]
    refine ⟨List.perm_iff_count.mpr fun x => ?_, h.otherPort⟩
    have hx := honce x
    simp only [hlost, if_true, List.count_append, List.count_nil]
    omega
  | false =>
    cases haccepted : a.accepted with
    | true =>
      have hlost : lostOf cfg portId [a] = [] := by simp [lostOf, haccepted]
      refine ⟨List.perm_iff_count.mpr fun x => ?_, hother⟩
      have hx := honce x
      simp only [hlost, Bool.false_eq_true, if_false, if_true, List.map_append, List.map_cons,
        List.map_nil, List.count_append, List.count_nil]
      omega
    | false =>
      have hlost : lostOf cfg portId [a] = [a.mbuf portId] := by simp [lostOf, hrx, haccepted]
      refine ⟨List.perm_iff_count.mpr fun x => ?_, h.otherPort⟩
      have hx := honce x
      simp only [hlost, Bool.false_eq_true, if_false, List.count_append]
      omega

theorem lostOf_cons (cfg : Config) (portId : Nat) (a : Arrival) (arrivals : List Arrival) :
    lostOf cfg portId (a :: arrivals) = lostOf cfg portId [a] ++ lostOf cfg portId arrivals := by
  simp only [lostOf, ← List.map_append, ← List.filter_append]
  rfl

theorem processBurst_accounts (cfg : Config) (queueId : Nat) (burst : Burst)
    (h : Accounts w lost) (hport : portId = 0 ∨ portId = 1) :
    Accounts (processBurst cfg portId queueId w burst)
      (lost ++ lostOf cfg portId burst.arrivals) := by
  have hfold : ∀ (arrivals : List Arrival) (w : Worker) (lost : List Mbuf), Accounts w lost →
      Accounts (arrivals.foldl (processPkt cfg portId queueId) w)
        (lost ++ lostOf cfg portId arrivals) := by
    intro arrivals
    induction arrivals with
    | nil =>
      intro w lost h
      simpa [lostOf] using h
    | cons a arrivals ih =>
      intro w lost h
      rw [lostOf_cons, ← List.append_assoc]
      exact ih _ _ (processPkt_accounts h hport a)
  have hburst := hfold burst.arrivals w lost h
  unfold processBurst
  cases cfg.ageThread with
  | true => exact ⟨hburst.once, hburst.otherPort⟩
  | false => exact hburst

/-- The rounds that are gone through: up to one whose statistics cannot be dumped. -/
def goneThrough (rounds : List Round) : List Round :=
  rounds.takeWhile fun round => round.dumpStats.getD 0 = 0

/-- The packets of a run that nobody owns in the end. -/
def lostIn (cfg : Config) (rounds : List Round) : List Mbuf :=
  (goneThrough rounds).flatMap fun round =>
    lostOf cfg 0 round.first.arrivals ++ lostOf cfg 1 round.second.arrivals

theorem processRounds_accounts (cfg : Config) (params : PerCoreParams) (rounds : List Round)
    (h : Accounts w lost) :
    Accounts (processRounds cfg params w rounds) (lost ++ lostIn cfg rounds) := by
  induction rounds generalizing w lost with
  | nil => simpa [processRounds, lostIn, goneThrough] using h
  | cons round rounds ih =>
    by_cases hdump : round.dumpStats.getD 0 = 0
    · have hfirst := processBurst_accounts cfg params.queues.1 round.first h (.inl rfl)
      have hsecond := processBurst_accounts cfg params.queues.2 round.second hfirst (.inr rfl)
      have hrest := ih hsecond
      have hlost : lostIn cfg (round :: rounds) = lostOf cfg 0 round.first.arrivals ++
          lostOf cfg 1 round.second.arrivals ++ lostIn cfg rounds := by
        simp [lostIn, goneThrough, hdump]
      rw [processRounds, if_neg (not_not.mpr hdump), hlost]
      simpa only [List.append_assoc] using hrest
    · have hlost : lostIn cfg (round :: rounds) = [] := by simp [lostIn, goneThrough, hdump]
      rw [processRounds, if_pos hdump, hlost, List.append_nil]
      exact h

/-- Every received packet is exactly once freed or accepted for the other port, as it came in. -/
structure Conserved (w : Worker) : Prop where
  once : w.received.Perm (w.freed ++ w.sent.map Prod.snd)
  otherPort : ∀ x ∈ w.sent, x.1 + x.2.port = 1

theorem Accounts.conserved_iff (h : Accounts w lost) : Conserved w ↔ lost = [] := by
  constructor
  · intro hw
    have hlen := hw.once.length_eq
    rw [h.once.length_eq, List.length_append] at hlen
    exact List.eq_nil_of_length_eq_zero (by omega)
  · rintro rfl
    exact ⟨by simpa using h.once, h.otherPort⟩

/-- Every packet of the rounds that are gone through is accepted by the transmitter. -/
def AllAccepted (rounds : List Round) : Prop :=
  ∀ round ∈ goneThrough rounds, ∀ a ∈ round.first.arrivals ++ round.second.arrivals,
    a.accepted = true

theorem lostIn_eq_nil_iff (cfg : Config) (rounds : List Round) :
    lostIn cfg rounds = [] ↔ cfg.rxOnly = true ∨ AllAccepted rounds := by
  unfold lostIn lostOf AllAccepted
  cases cfg.rxOnly with
  | true => simp
  | false =>
    simp only [Bool.not_false, Bool.true_and, List.flatMap_eq_nil_iff, List.append_eq_nil_iff,
      List.map_eq_nil_iff, List.filter_eq_nil_iff, Bool.not_eq_true', Bool.not_eq_false,
      Bool.false_eq_true, false_or, List.mem_append]
    constructor
    · rintro h round hround a (ha | ha)
      · exact (h round hround).1 a ha
      · exact (h round hround).2 a ha
    · intro h round hround
      exact ⟨fun a ha => h round hround a (.inl ha), fun a ha => h round hround a (.inr ha)⟩

theorem conserved_iff (cfg : Config) (params : PerCoreParams) (ft : Ft) (rounds : List Round) :
    Conserved (simpleFwdProcessPkts cfg params ft rounds) ↔
      params.used = false ∨ cfg.rxOnly = true ∨ AllAccepted rounds := by
  have hstart : Accounts (⟨ft, [], [], []⟩ : Worker) [] := ⟨by simp, by simp⟩
  unfold simpleFwdProcessPkts
  cases params.used with
  | false => simpa using hstart.conserved_iff
  | true =>
    have haccounts := processRounds_accounts cfg params rounds hstart
    rw [List.nil_append] at haccounts
    simpa [lostIn_eq_nil_iff] using haccounts.conserved_iff

/-- The queues are shared out as they should be exactly when there is a queue or no core, and a
run keeps its packets exactly when it only receives or every packet is accepted. -/
theorem lcores_iff (rteMaxLcore : Nat) (enabled : Nat → Bool) (nbQueues : BitVec 16) (cfg : Config)
    (params : PerCoreParams) (ft : Ft) (rounds : List Round) :
    (Mapped rteMaxLcore enabled nbQueues.toNat
        (simpleFwdMapQueue rteMaxLcore enabled nbQueues) ↔
      nbQueues ≠ 0 ∨ ∀ i < rteMaxLcore, enabled i = false) ∧
    (Conserved (simpleFwdProcessPkts cfg params ft rounds) ↔
      params.used = false ∨ cfg.rxOnly = true ∨ AllAccepted rounds) :=
  ⟨mapped_iff rteMaxLcore enabled nbQueues, conserved_iff cfg params ft rounds⟩

/-- A packet that the transmitter does not take is neither freed nor sent. -/
theorem refused_packet_lost :
    ¬ ∀ rounds : List Round, Conserved (simpleFwdProcessPkts ⟨false, false, false⟩
      ⟨(0, 1), (0, 0), true⟩ ⟨2, 1, 0, 0, 0, fun _ => [], 0, []⟩ rounds) := by
  intro h
  have hlost := h [⟨none, ⟨[⟨1, [], 0, ⟨0, 1⟩, ⟨true, none, 0⟩, false⟩], []⟩, ⟨[], []⟩⟩]
  rw [conserved_iff] at hlost
  simp [AllAccepted, goneThrough] at hlost

end DocaApps.Proofs.Lcores
