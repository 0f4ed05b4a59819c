import DocaApps.Proofs.RttClock

namespace DocaApps.Proofs.RttAborts
open Lib.Runs Pcc.RttTemplate Pcc.Clock Proofs.RttTemplate Proofs.RttClock

variable {wide : WideShift} {p : Params}

/-- The elapsed time above which the TX handler aborts. -/
def abortLimit (wide : WideShift) (ctxt : Ctxt) : UInt32 :=
  shiftLeft wide abortTime ctxt.abortCnt

/-- The TX handler aborts the request that is being measured. -/
def Aborts (wide : WideShift) (f : Flow) (c : Call) : Prop :=
  c.event.evType = .roceTx ∧ f.ctxt.curRate ≠ 0 ∧ f.ctxt.rttMeasPsn ≠ 0 ∧
    rttTillNow f.ctxt c.event.timestamp > abortLimit wide f.ctxt

instance (f : Flow) (c : Call) : Decidable (Aborts wide f c) :=
  inferInstanceAs (Decidable (_ ∧ _ ∧ _ ∧ _))

/-- A measurement is accepted, or the flow starts anew. -/
def Restarts (f : Flow) (c : Call) : Prop := f.ctxt.curRate = 0 ∨ Accepted f c

instance (f : Flow) (c : Call) : Decidable (Restarts f c) :=
  inferInstanceAs (Decidable (_ ∨ _ ∧ _ ∧ ¬ _))

/-- A flow and the number of aborts since its last accepted measurement. -/
structure AbortingFlow where
  flow : Flow
  aborts : Nat

def countedStep (wide : WideShift) (p : Params) (s : AbortingFlow) (c : Call) : AbortingFlow where
  flow := rttTemplateAlgo wide p s.flow c
  aborts := if Restarts s.flow c then 0 else if Aborts wide s.flow c then s.aborts + 1 else s.aborts

/-- A flow whose last request was just sent. -/
def freshlyAsked (f : Flow) : AbortingFlow :=
  ⟨{ f with ctxt := { f.ctxt with abortCnt := 0 } }, 0⟩

/-- The counter is the number of aborts, the shift is defined and the limit is the first one
doubled at each abort. -/
structure Doubled (wide : WideShift) (s : AbortingFlow) : Prop where
  counter : s.flow.ctxt.abortCnt.toNat = s.aborts
  shift : s.flow.ctxt.abortCnt < 32
  limit : (abortLimit wide s.flow.ctxt).toNat = 300000 * 2 ^ s.aborts

/-- The counter is the number of aborts, as far as eight bits hold it. -/
def CountedMod (s : AbortingFlow) : Prop := s.flow.ctxt.abortCnt.toNat = s.aborts % 256

theorem abortCnt_checkAbort (ctxt : Ctxt) (timestamp : UInt32) :
    (checkAbort wide ctxt timestamp).2.abortCnt =
      if ctxt.rttMeasPsn ≠ 0 ∧ rttTillNow ctxt timestamp > abortLimit wide ctxt then
        ctxt.abortCnt + 1
      else ctxt.abortCnt := by
  rw [checkAbort_rttTillNow]
  dsimp only [abortLimit]
  by_cases hpsn : ctxt.rttMeasPsn = 0
  · have htill : rttTillNow ctxt timestamp = 0 := by
      rw [rttTillNow]
      exact if_pos hpsn
    have hnever : ∀ x : UInt32, ¬ (0 : UInt32) > x := fun x h => Nat.not_lt_zero _ h
    simp only [hpsn, htill, hnever, if_true, if_false, false_or, ne_eq, not_true_eq_false,
      false_and]
    split <;> rfl
  · simp only [hpsn, if_false, ne_eq, not_false_eq_true, true_and]
    split
    · rfl
    · rename_i hnot
      rw [not_or] at hnot
      rw [if_neg hnot.1]

theorem algorithmCore_abortCnt (ctxt : Ctxt) (rtt curRate : UInt32) (p : Params) :
    (algorithmCore ctxt rtt curRate p).2.abortCnt = ctxt.abortCnt := by
  unfold algorithmCore adjustRate
  dsimp only
  split
  · rfl
  split
  · rfl
  split <;> rfl

theorem not_restarts {f : Flow} {c : Call} (hrate : f.ctxt.curRate ≠ 0)
    (htype : c.event.evType ≠ .rtt) : ¬ Restarts f c := by
  rintro (h | h)
  · exact hrate h
  · exact htype h.1

theorem not_aborts {f : Flow} {c : Call} (htype : c.event.evType ≠ .roceTx) :
    ¬ Aborts wide f c := fun h => htype h.1

/-- What an event does to the counter. -/
theorem abortCnt_algo (f : Flow) (c : Call) :
    (rttTemplateAlgo wide p f c).ctxt.abortCnt =
      if Restarts f c then 0
      else if Aborts wide f c then f.ctxt.abortCnt + 1 else f.ctxt.abortCnt := by
  unfold rttTemplateAlgo
  by_cases hrate : f.ctxt.curRate = 0
  · have hrestart : Restarts f c := .inl hrate
    rw [if_pos hrate, if_pos hrestart]
    rfl
  rw [if_neg hrate]
  cases htype : c.event.evType with
  | roceTx =>
    rw [if_neg (not_restarts hrate (by rw [htype]; decide))]
    dsimp only
    unfold handleRoceTx
    by_cases hfirst : c.event.flags &&& txFlagRttReqSent ≠ 0 ∧ f.ctxt.rttMeasPsn = 0
    · have habort : ¬ Aborts wide f c := fun h => h.2.2.1 hfirst.2
      rw [if_pos hfirst, if_neg habort]
    · rw [if_neg hfirst]
      refine (abortCnt_checkAbort ..).trans ?_
      by_cases habort : Aborts wide f c
      · rw [if_pos habort, if_pos habort.2.2]
      · rw [if_neg habort, if_neg (fun h => habort ⟨htype, hrate, h⟩)]
  | rtt =>
    rw [if_neg (not_aborts (by rw [htype]; decide))]
    dsimp only
    unfold handleRoceRtt
    by_cases hnone : f.ctxt.rttMeasPsn = 0 ∧ f.ctxt.rttReqToRttSent = 0
    · have hrestart : ¬ Restarts f c := fun h => h.elim hrate (fun h => h.2.2 hnone)
      rw [if_pos hnone, if_neg hrestart]
    · have hrestart : Restarts f c := .inr ⟨htype, hrate, hnone⟩
      rw [if_neg hnone, if_pos hrestart]
      exact algorithmCore_abortCnt ..
  | _ =>
    have hrestart : ¬ Restarts f c := not_restarts hrate (by rw [htype]; decide)
    have habort : ¬ Aborts wide f c := not_aborts (by rw [htype]; decide)
    exact ((if_neg hrestart).trans (if_neg habort)).symm

theorem countedMod_freshlyAsked (f : Flow) : CountedMod (freshlyAsked f) := rfl

theorem countedMod_step (s : AbortingFlow) (c : Call) (h : CountedMod s) :
    CountedMod (countedStep wide p s c) := by
  unfold CountedMod at h ⊢
  unfold countedStep
  dsimp only
  rw [abortCnt_algo]
  split
  · rfl
  split
  · rw [UInt8.toNat_add, h]
    simp
  · exact h

/-- The limit doubles up to the thirteenth abort. -/
theorem doubled_iff {s : AbortingFlow} (h : CountedMod s) :
    Doubled wide s ↔ s.aborts ≤ 13 := by
  constructor
  · intro hd
    by_contra hmany
    have hlimit := hd.limit
    have hlt := (abortLimit wide s.flow.ctxt).toNat_lt
    have hpow : 2 ^ 14 ≤ 2 ^ s.aborts := Nat.pow_le_pow_right (by decide) (by omega)
    omega
  · intro hfew
    have hcnt : s.flow.ctxt.abortCnt.toNat = s.aborts := by
      rw [h, Nat.mod_eq_of_lt (by omega)]
    have hshift : s.flow.ctxt.abortCnt < 32 := by
      rw [UInt8.lt_iff_toNat_lt, hcnt]
      exact lt_of_le_of_lt hfew (by decide)
    refine ⟨hcnt, hshift, ?_⟩
    have hpow : 2 ^ s.aborts ≤ 2 ^ 13 := Nat.pow_le_pow_right (by decide) hfew
    have htime : abortTime.toNat = 300000 := rfl
    have hamount : s.aborts % 32 = s.aborts := Nat.mod_eq_of_lt (by omega)
    rw [abortLimit, shiftLeft, if_pos hshift, UInt32.toNat_shiftLeft, UInt8.toNat_toUInt32, hcnt,
      hamount, Nat.shiftLeft_eq, htime, Nat.mod_eq_of_lt (by omega)]

/-- In every state that a run reaches, the back-off has doubled at each abort exactly when
there were at most thirteen. -/
theorem backoff_doubles_iff (wide : WideShift) (p : Params) (f : Flow) (calls : List Call) :
    Doubled wide (run (countedStep wide p) (freshlyAsked f) calls) ↔
      (run (countedStep wide p) (freshlyAsked f) calls).aborts ≤ 13 :=
  doubled_iff (run_preserves countedMod_step (countedMod_freshlyAsked f) calls)

/-- A request that is sent at once and never answered, and as many late TX events. -/
def unanswered (n : Nat) : List Call :=
  ⟨⟨.other, 0, 0, 0⟩, ⟨0, 0⟩⟩ :: ⟨⟨.roceTx, txFlagRttReqSent, 0, 0⟩, ⟨0, 0⟩⟩ ::
    List.replicate n ⟨⟨.roceTx, 0, 4294967295, 0⟩, ⟨0, 0⟩⟩

theorem fourteen_aborts :
    (run (countedStep (fun _ _ => 0) defaultParams) (freshlyAsked newFlow.flow)
      (unanswered 14)).aborts = 14 ∧
    abortLimit (fun _ _ => 0) (run (countedStep (fun _ _ => 0) defaultParams)
      (freshlyAsked newFlow.flow) (unanswered 14)).flow.ctxt = 620232704 ∧
    ¬ Doubled (fun _ _ => 0) (run (countedStep (fun _ _ => 0) defaultParams)
      (freshlyAsked newFlow.flow) (unanswered 14)) := by
  have haborts : (run (countedStep (fun _ _ => 0) defaultParams) (freshlyAsked newFlow.flow)
      (unanswered 14)).aborts = 14 := by decide +kernel
  refine ⟨haborts, by decide +kernel, fun h => ?_⟩
  have hlimit := h.limit
  rw [haborts] at hlimit
  revert hlimit
  decide +kernel

end DocaApps.Proofs.RttAborts
