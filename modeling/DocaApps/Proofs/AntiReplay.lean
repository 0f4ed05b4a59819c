import DocaApps.Lib.BitWindow
import DocaApps.Ipsec.AntiReplay

namespace DocaApps.Proofs.AntiReplay
open Ipsec.AntiReplay Lib.BitWindow

theorem windowTop_append (i n : Nat) (seen : List Nat) :
    windowTop i (seen ++ [n]) = max (windowTop i seen) n := by
  simp [windowTop]

theorem le_windowTop (i : Nat) (seen : List Nat) : i + 63 ≤ windowTop i seen := by
  induction seen using List.reverseRecOn with
  | nil => exact Nat.le_refl _
  | append_singleton seen n ih =>
    rw [windowTop_append]
    exact Nat.le_trans ih (Nat.le_max_left _ _)

theorem mem_le_windowTop {i n : Nat} {seen : List Nat} (hn : n ∈ seen) :
    n ≤ windowTop i seen := by
  induction seen using List.reverseRecOn with
  | nil => simp at hn
  | append_singleton seen m ih =>
    rw [windowTop_append]
    rcases List.mem_append.mp hn with hn | hn
    · exact Nat.le_trans (ih hn) (Nat.le_max_left _ _)
    · have he : n = m := by simpa using hn
      exact he ▸ Nat.le_max_right _ _

/-- The concrete state stands for an initial number and the set accepted since:
its end is the top of the abstract window and its bitmap the set inside it. -/
structure Tracks (i : Nat) (seen : List Nat) (s : AntireplayState) : Prop where
  size : s.windowSize = 64#32
  top : s.endWinSn.toNat = windowTop i seen
  bits : Represents s.bitmap (windowTop i seen - 63) (· ∈ seen)

variable {i : Nat} {seen : List Nat} {s : AntireplayState}

/-- The begin of the window is computed modulo `2^32` and still exact, also when
`endWinSn + 1` wraps to zero. -/
theorem Tracks.begWinSn (h : Tracks i seen s) :
    (s.endWinSn + 1#32 - s.windowSize).toNat = windowTop i seen - 63 := by
  have hl := le_windowTop i seen
  have ht := h.top
  have hlt := s.endWinSn.isLt
  rw [h.size, BitVec.toNat_sub, BitVec.toNat_add]
  simp only [BitVec.toNat_ofNat]
  omega

theorem initial_tracks {nb : Nat} {initialSn : BitVec 32} {states states' : List AntireplayState}
    (h : initAntiReplayStates nb initialSn states = .ok states')
    (hs : s ∈ states'.take nb) : Tracks initialSn.toNat [] s := by
  unfold initAntiReplayStates at h
  dsimp only at h
  split at h
  · cases h
  · rename_i hok
    cases h
    rw [List.take_append_of_le_length (by simp), List.take_of_length_le (by simp)] at hs
    obtain ⟨_, rfl⟩ := List.mem_replicate.mp hs
    have hlt := initialSn.isLt
    have hroom : initialSn.toNat + 64 < 2 ^ 32 := by
      rw [BitVec.lt_def, BitVec.toNat_sub, BitVec.toNat_allOnes] at hok
      have hw : windowSize.toNat = 64 := rfl
      omega
    have hend : (initialSn + windowSize - 1#32).toNat = initialSn.toNat + 63 := by
      have hw : windowSize.toNat = 64 := rfl
      have h1 : (1#32).toNat = 1 := rfl
      rw [BitVec.toNat_sub, BitVec.toNat_add, hw, h1]
      omega
    exact ⟨rfl, hend, Represents.empty (by simp)⟩

/-- Case (1): a number left of the window is dropped and nothing changes. -/
theorem step_left {sn : BitVec 32} (h : Tracks i seen s)
    (hsn : sn.toNat < windowTop i seen - 63) : antiReplay sn s = some (s, true) := by
  have hb : sn < s.endWinSn + 1#32 - s.windowSize := by
    rw [BitVec.lt_def, h.begWinSn]
    exact hsn
  simp only [antiReplay, hb, ↓reduceIte]

/-- Case (2): inside the window the verdict is the bit of the number. -/
theorem step_inside {sn : BitVec 32} (h : Tracks i seen s)
    (hlo : windowTop i seen - 63 ≤ sn.toNat) (hhi : sn.toNat ≤ windowTop i seen) :
    ∃ s' drop, antiReplay sn s = some (s', drop) ∧ (drop = false ↔ sn.toNat ∉ seen) ∧
      Tracks i (if drop then seen else seen ++ [sn.toNat]) s' := by
  have hb : ¬ sn < s.endWinSn + 1#32 - s.windowSize := by
    rw [BitVec.lt_def, h.begWinSn]
    omega
  have he : sn ≤ s.endWinSn := by
    rw [BitVec.le_def, h.top]
    exact hhi
  let d := sn.toNat - (windowTop i seen - 63)
  have hdiff : (sn - (s.endWinSn + 1#32 - s.windowSize)).toNat = d := by
    have hbeg := h.begWinSn
    have hlt := sn.isLt
    rw [BitVec.toNat_sub, hbeg]
    omega
  have hd : d < 64 := by omega
  have hbit : s.bitmap &&& (1#64 <<< d) ≠ 0#64 ↔ s.bitmap.getLsbD d = true :=
    and_bit_ne_zero d hd
  have hnum : windowTop i seen - 63 + d = sn.toNat := by omega
  rw [h.bits d hd, hnum] at hbit
  have hrun : antiReplay sn s =
      if s.bitmap &&& (1#64 <<< d) ≠ 0#64 then some (s, true)
      else some ({ s with bitmap := s.bitmap ||| (1#64 <<< d) }, false) := by
    unfold antiReplay
    dsimp only
    rw [if_neg hb, if_pos he, shiftLeft, hdiff, if_pos hd, Option.bind_some]
  by_cases hm : sn.toNat ∈ seen
  · refine ⟨s, true, ?_, by simp [hm], h⟩
    rw [hrun, if_pos (hbit.mpr hm)]
  · refine ⟨_, false, hrun.trans (if_neg (fun hx => hm (hbit.mp hx))), by simp [hm], ?_⟩
    have htop : windowTop i (seen ++ [sn.toNat]) = windowTop i seen := by
      rw [windowTop_append]
      omega
    refine ⟨h.size, by simpa [htop] using h.top, ?_⟩
    simp only [Bool.false_eq_true, ↓reduceIte, htop]
    apply (h.bits.insert d).congr
    intro j _
    simp [hnum, or_comm]

theorem shiftLeft_last : shiftLeft 1#64 (64#32 - 1#32) = some (1#64 <<< 63) := by
  simp [shiftLeft]

/-- Case (3): a number right of the window becomes its top, whether the jump is
shorter than the window or not. -/
theorem step_right {sn : BitVec 32} (h : Tracks i seen s)
    (hsn : windowTop i seen < sn.toNat) :
    ∃ s', antiReplay sn s = some (s', false) ∧ Tracks i (seen ++ [sn.toNat]) s' := by
  have hb : ¬ sn < s.endWinSn + 1#32 - s.windowSize := by
    rw [BitVec.lt_def, h.begWinSn]
    omega
  have he : ¬ sn ≤ s.endWinSn := by
    rw [BitVec.le_def, h.top]
    omega
  have hl := le_windowTop i seen
  have hdiff : (sn - s.endWinSn).toNat = sn.toNat - windowTop i seen := by
    have hlt := sn.isLt
    rw [BitVec.toNat_sub, h.top]
    omega
  have htop : windowTop i (seen ++ [sn.toNat]) = sn.toNat := by
    rw [windowTop_append]
    omega
  have hfresh : ∀ n ∈ seen, n ≤ windowTop i seen := fun n hn => mem_le_windowTop hn
  by_cases hj : 64 ≤ sn.toNat - windowTop i seen
  · refine ⟨{ s with bitmap := 1#64 <<< 63, endWinSn := sn }, ?_, h.size, htop.symm, ?_⟩
    · have hge : sn - s.endWinSn ≥ 64#32 := by
        rw [ge_iff_le, BitVec.le_def, hdiff]
        exact hj
      unfold antiReplay
      dsimp only
      rw [if_neg hb, if_neg he, h.size, shiftLeft_last, Option.bind_some, if_pos hge]
    · have hzero : Represents (0#64) (sn.toNat - 63) (· ∈ seen) :=
        Represents.empty (fun k _ hm => by have := hfresh _ hm; omega)
      have hset := hzero.insert 63
      rw [BitVec.zero_or] at hset
      rw [htop]
      apply hset.congr
      intro k _
      simp only [List.mem_append, List.mem_singleton]
      rw [or_comm, show sn.toNat - 63 + 63 = sn.toNat from by omega]
  · let d := sn.toNat - windowTop i seen
    refine ⟨{ s with bitmap := (s.bitmap >>> d) ||| (1#64 <<< 63), endWinSn := sn }, ?_,
      h.size, htop.symm, ?_⟩
    · have hlt : ¬ sn - s.endWinSn ≥ 64#32 := by
        rw [ge_iff_le, BitVec.le_def, hdiff]
        exact hj
      have hd : d < 64 := by omega
      unfold antiReplay
      dsimp only
      rw [if_neg hb, if_neg he, h.size, shiftLeft_last, Option.bind_some, if_neg hlt, shiftRight,
        hdiff, if_pos hd, Option.bind_some]
    · have hmove := h.bits.slide d (fun k hk hw hm => by have := hfresh _ hm; omega)
      have hset := hmove.insert 63
      have hbase : windowTop i seen - 63 + d = sn.toNat - 63 := by omega
      rw [hbase] at hset
      rw [htop]
      apply hset.congr
      intro k _
      simp only [List.mem_append, List.mem_singleton]
      rw [or_comm, show sn.toNat - 63 + 63 = sn.toNat from by omega]

/-- One call: it is defined, accepts exactly the numbers the abstract receiver
accepts, and the state tracks the enlarged set. -/
theorem antiReplay_step (h : Tracks i seen s) (sn : BitVec 32) :
    ∃ s' drop, antiReplay sn s = some (s', drop) ∧
      (drop = false ↔ windowTop i seen - 63 ≤ sn.toNat ∧ sn.toNat ∉ seen) ∧
      Tracks i (if drop then seen else seen ++ [sn.toNat]) s' := by
  by_cases hlo : windowTop i seen - 63 ≤ sn.toNat
  · by_cases hhi : sn.toNat ≤ windowTop i seen
    · obtain ⟨s', drop, hr, hd, ht⟩ := step_inside h hlo hhi
      exact ⟨s', drop, hr, by simp [hd, hlo], ht⟩
    · obtain ⟨s', hr, ht⟩ := step_right h (Nat.lt_of_not_le hhi)
      have hnew : sn.toNat ∉ seen := fun hm => hhi (mem_le_windowTop hm)
      exact ⟨s', false, hr, by simp [hlo, hnew], ht⟩
  · exact ⟨s, true, step_left h (Nat.lt_of_not_le hlo), by simp [hlo], h⟩

theorem accepted_cons (sn : BitVec 32) (sns : List (BitVec 32)) (drop : Bool) (drops : List Bool) :
    accepted (sn :: sns) (drop :: drops) =
      (if drop then [] else [sn.toNat]) ++ accepted sns drops := by
  cases drop <;> simp [accepted]

/-- A whole run from a state that already tracks `seen`. -/
theorem antiReplay_run (sns : List (BitVec 32)) :
    ∀ {seen : List Nat} {s : AntireplayState}, Tracks i seen s → seen.Nodup →
    ∃ last drops, antiReplayRun s sns = some (last, drops) ∧ drops.length = sns.length ∧
      (∀ k (hk : k < sns.length), drops[k]? = some false ↔
        windowTop i (seen ++ accepted (sns.take k) (drops.take k)) - 63 ≤ sns[k].toNat ∧
        sns[k].toNat ∉ seen ++ accepted (sns.take k) (drops.take k)) ∧
      (seen ++ accepted sns drops).Nodup ∧ Tracks i (seen ++ accepted sns drops) last := by
  induction sns with
  | nil =>
    intro seen s h hn
    exact ⟨s, [], rfl, rfl, by simp, by simpa [accepted] using hn, by simpa [accepted] using h⟩
  | cons sn sns ih =>
    intro seen s h hn
    obtain ⟨s', drop, hr, hd, ht⟩ := antiReplay_step h sn
    have hseen : (if drop then seen else seen ++ [sn.toNat]) =
        seen ++ (if drop then [] else [sn.toNat]) := by cases drop <;> simp
    rw [hseen] at ht
    have hn' : (seen ++ (if drop then [] else [sn.toNat])).Nodup := by
      cases drop with
      | true => simpa using hn
      | false =>
        have hnew := (hd.mp rfl).2
        simp only [Bool.false_eq_true, ↓reduceIte, List.nodup_append]
        refine ⟨hn, by simp, ?_⟩
        intro a ha b hb he
        have hb : b = sn.toNat := by simpa using hb
        exact hnew (hb ▸ he ▸ ha)
    obtain ⟨last, drops, hrun, hlen, hall, hnd, htr⟩ := ih ht hn'
    refine ⟨last, drop :: drops, ?_, by simp [hlen], ?_, ?_, ?_⟩
    · simp [antiReplayRun, hr, hrun]
    · intro k hk
      cases k with
      | zero => simpa [accepted] using hd
      | succ k =>
        have hk' : k < sns.length := by simpa using hk
        have hstep := hall k hk'
        simp only [List.append_assoc] at hstep
        simpa [accepted_cons] using hstep
    · simpa only [accepted_cons, List.append_assoc] using hnd
    · simpa only [accepted_cons, List.append_assoc] using htr

/-- The software receiver refines the set of received numbers. On every array
state set by the initialisation and every list of numbers the run is defined (no
shift reaches 64), the verdict on each number is the one of the set of numbers
accepted before it, no number is accepted twice, and the final end, begin and
bitmap are those of that set. -/
theorem antiReplay_refines_received_set (nb : Nat) (initialSn : BitVec 32)
    (states states' : List AntireplayState) (state : AntireplayState)
    (hinit : initAntiReplayStates nb initialSn states = .ok states')
    (hstate : state ∈ states'.take nb) (sns : List (BitVec 32)) :
    ∃ last drops, antiReplayRun state sns = some (last, drops) ∧ drops.length = sns.length ∧
      (∀ k (hk : k < sns.length), drops[k]? = some false ↔
        windowTop initialSn.toNat (accepted (sns.take k) (drops.take k)) - 63 ≤ sns[k].toNat ∧
        sns[k].toNat ∉ accepted (sns.take k) (drops.take k)) ∧
      (accepted sns drops).Nodup ∧
      last.endWinSn.toNat = windowTop initialSn.toNat (accepted sns drops) ∧
      (last.endWinSn + 1#32 - last.windowSize).toNat =
        windowTop initialSn.toNat (accepted sns drops) - 63 ∧
      ∀ b < 64, last.bitmap.getLsbD b = true ↔
        windowTop initialSn.toNat (accepted sns drops) - 63 + b ∈ accepted sns drops := by
  obtain ⟨last, drops, hrun, hlen, hall, hnd, htr⟩ :=
    antiReplay_run sns (initial_tracks hinit hstate) List.nodup_nil
  simp only [List.nil_append] at hall hnd htr
  exact ⟨last, drops, hrun, hlen, hall, hnd, htr.top, htr.begWinSn, htr.bits⟩

/-- A start at the largest accepted initial number, then the largest number there is. -/
theorem antiReplay_refines_at_limit :
    ∃ last drops, antiReplayRun ⟨64, 0xfffffffe, 0⟩ [0xffffffff, 0xffffffff, 0xffffffc0] =
      some (last, drops) ∧ last.endWinSn.toNat =
        windowTop 0xffffffbf (accepted [0xffffffff, 0xffffffff, 0xffffffc0] drops) := by
  obtain ⟨last, drops, hrun, _, _, _, htop, _⟩ :=
    antiReplay_refines_received_set 1 0xffffffbf [⟨0, 0, 0⟩] [⟨64, 0xfffffffe, 0⟩]
      ⟨64, 0xfffffffe, 0⟩ (by simp [initAntiReplayStates, windowSize]) (by simp) [0xffffffff, 0xffffffff, 0xffffffc0]
  exact ⟨last, drops, hrun, htop⟩

end DocaApps.Proofs.AntiReplay
