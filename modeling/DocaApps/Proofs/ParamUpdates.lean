import DocaApps.Pcc.DevMain
import DocaApps.Lib.Overwrite
import DocaApps.Lib.Runs
import DocaApps.Proofs.RttTemplate

namespace DocaApps.Proofs.ParamUpdates
open Lib.Overwrite Lib.Runs Pcc.RttTemplate Pcc.DevMain Proofs.RttTemplate

variable {getAlgoIndex : UInt32 → UInt32 → UInt32} {portNum paramIdBase paramNum : UInt32}
  {newParamValues : Option (List UInt32)} {params : Option Params}

/-- All the changed parameters are declared, and their new values within the bounds. -/
def Legal (paramIdBase paramNum : UInt32) (values : List UInt32) : Prop :=
  ∀ i < paramNum.toNat, ∃ d v, rttTemplateInit[paramIdBase.toNat + i]? = some d ∧
    values[i]? = some v ∧ d.minValue ≤ v ∧ v ≤ d.maxValue

/-- An update that is made where it is legal, and else refused and without effect. -/
structure Checked (paramIdBase paramNum : UInt32) (newParamValues : Option (List UInt32))
    (params : Option Params) (r : Status × Option Params) : Prop where
  set : r.1 = .ok → ∃ values p p', newParamValues = some values ∧ params = some p ∧
    r.2 = some p' ∧ Legal paramIdBase paramNum values ∧
    p'.toList = overwrite p.toList paramIdBase.toNat (values.take paramNum.toNat)
  unchanged : r.1 ≠ .ok → r.1 = .fail ∧ r.2 = params

/-- What the update looks at. -/
def Refused (paramIdBase paramNum : UInt32) (newParamValues : Option (List UInt32))
    (params : Option Params) : Prop :=
  paramNum > rttTemplateParamNum ∨ paramIdBase ≥ rttTemplateParamNum ∨ newParamValues = none ∨
    params = none

theorem set_cases (hslot : getAlgoIndex portNum 0 = 0) :
    userSetAlgoParams getAlgoIndex portNum 0 paramIdBase paramNum newParamValues params =
      (.fail, params) ∧ Refused paramIdBase paramNum newParamValues params ∨
    userSetAlgoParams getAlgoIndex portNum 0 paramIdBase paramNum newParamValues params =
      (.ok, params) ∧ ¬ Refused paramIdBase paramNum newParamValues params := by
  unfold userSetAlgoParams rttTemplateSetAlgoParams Refused
  rw [if_pos rfl, if_pos hslot]
  by_cases hids : paramNum > rttTemplateParamNum ∨ paramIdBase ≥ rttTemplateParamNum
  · rw [if_pos hids]
    exact .inl ⟨rfl, by tauto⟩
  · rw [if_neg hids]
    by_cases hnull : newParamValues = none ∨ params = none
    · rw [if_pos hnull]
      exact .inl ⟨rfl, by tauto⟩
    · rw [if_neg hnull]
      exact .inr ⟨rfl, by tauto⟩

/-- No update changes a parameter. -/
theorem set_params (getAlgoIndex : UInt32 → UInt32 → UInt32)
    (portNum algoSlot paramIdBase paramNum : UInt32) (newParamValues : Option (List UInt32))
    (params : Option Params) : (userSetAlgoParams getAlgoIndex portNum algoSlot paramIdBase
      paramNum newParamValues params).2 = params := by
  unfold userSetAlgoParams rttTemplateSetAlgoParams
  split
  · split
    · split
      · rfl
      · split <;> rfl
    · rfl
  · rfl

theorem step_params (wide : WideShift) (getAlgoIndex : UInt32 → UInt32 → UInt32) (dev : Device)
    (input : Input) : (dev.step wide getAlgoIndex input).params = dev.params := by
  cases input with
  | setAlgoParams portNum algoSlot paramIdBase paramNum newParamValues given =>
    simp only [Device.step, set_params]
    cases given with
    | false => rfl
    | true => exact Function.update_eq_self ..
  | event portNum flow call => rfl

theorem run_params (wide : WideShift) (getAlgoIndex : UInt32 → UInt32 → UInt32) (dev : Device)
    (inputs : List Input) :
    (run (Device.step wide getAlgoIndex) dev inputs).params = dev.params := by
  have hstep : ∀ dev' input, dev'.params = dev.params →
      (Device.step wide getAlgoIndex dev' input).params = dev.params :=
    fun dev' input h => (step_params wide getAlgoIndex dev' input).trans h
  exact run_preserves hstep rfl inputs

/-- An update is checked and made exactly when it is refused, or legal and without a change, and
the parameters are within their bounds in every run. -/
theorem update_checked_iff (wide : WideShift) (getAlgoIndex : UInt32 → UInt32 → UInt32)
    (hslot : ∀ portNum, getAlgoIndex portNum 0 = 0) :
    (∀ portNum paramIdBase paramNum newParamValues params,
      Checked paramIdBase paramNum newParamValues params (userSetAlgoParams getAlgoIndex portNum 0
        paramIdBase paramNum newParamValues params) ↔
      Refused paramIdBase paramNum newParamValues params ∨
        ∃ values p, newParamValues = some values ∧ params = some p ∧
          Legal paramIdBase paramNum values ∧
          overwrite p.toList paramIdBase.toNat (values.take paramNum.toNat) = p.toList) ∧
    ∀ dev inputs, (∀ portNum, WithinBounds (dev.params portNum)) →
      ∀ portNum,
        WithinBounds ((run (Device.step wide getAlgoIndex) dev inputs).params portNum) := by
  refine ⟨?_, fun dev inputs hdev portNum => ?_⟩
  · intro portNum paramIdBase paramNum newParamValues params
    rcases set_cases (hslot portNum) with ⟨heq, hrefused⟩ | ⟨heq, haccepted⟩
    · rw [heq]
      exact ⟨fun _ => .inl hrefused, fun _ => ⟨fun hok => (nomatch hok), fun _ => ⟨rfl, rfl⟩⟩⟩
    · rw [heq]
      constructor
      · intro h
        obtain ⟨values, p, p', hvalues, hp, hp', hlegal, hset⟩ := h.set rfl
        obtain rfl : p = p' := Option.some.inj (hp.symm.trans hp')
        exact .inr ⟨values, p, hvalues, hp, hlegal, hset.symm⟩
      · intro h
        obtain ⟨values, p, hvalues, hp, hlegal, hsame⟩ := h.resolve_left haccepted
        exact ⟨fun _ => ⟨values, p, p, hvalues, hp, hp, hlegal, hsame.symm⟩,
          fun hne => absurd rfl hne⟩
  · rw [run_params]
    exact hdev portNum

theorem update_checked_algo_zero :
    (Checked 0 1 (some [6553]) (some defaultParams)
        (userSetAlgoParams (fun _ _ => 0) 0 0 0 1 (some [6553]) (some defaultParams)) ↔
      Refused 0 1 (some [6553]) (some defaultParams) ∨
        ∃ values p, some [6553] = some values ∧ some defaultParams = some p ∧
          Legal 0 1 values ∧ overwrite p.toList 0 (values.take 1) = p.toList) :=
  (update_checked_iff (fun x _ => x) (fun _ _ => 0) fun _ => rfl).1 0 0 1 (some [6553])
    (some defaultParams)

/-- An update factor of zero is accepted, and a legal one is not set. -/
theorem update_unchecked :
    ¬ Checked 0 1 (some [0]) (some defaultParams)
        (userSetAlgoParams (fun _ _ => 0) 0 0 0 1 (some [0]) (some defaultParams)) ∧
      ¬ Checked 0 1 (some [7]) (some defaultParams)
        (userSetAlgoParams (fun _ _ => 0) 0 0 0 1 (some [7]) (some defaultParams)) := by
  constructor
  · intro h
    obtain ⟨values, p, p', hvalues, -, -, hlegal, -⟩ := h.set (by decide)
    obtain rfl := Option.some.inj hvalues
    obtain ⟨d, v, hd, hv, hmin, -⟩ := hlegal 0 (by decide)
    obtain rfl := Option.some.inj hd
    obtain rfl := Option.some.inj hv
    exact absurd hmin (by decide)
  · intro h
    obtain ⟨values, p, p', hvalues, hp, hp', -, hset⟩ := h.set (by decide)
    obtain rfl := Option.some.inj hvalues
    obtain rfl := Option.some.inj hp
    obtain rfl : p' = defaultParams := Option.some.inj (hp'.symm.trans (by decide))
    exact absurd hset (by decide)

end DocaApps.Proofs.ParamUpdates
