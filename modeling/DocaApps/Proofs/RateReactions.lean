import DocaApps.Proofs.RttTemplate

namespace DocaApps.Proofs.RateReactions
open Pcc.RttTemplate Proofs.RttTemplate

variable {p : Params} {ctxt : Ctxt} {rtt rate a b : UInt32}

def TakesNack (p : Params) (ctxt : Ctxt) (rtt : UInt32) : Prop :=
  ctxt.flags.wasNack = true ∧ rtt ≥ p.maxDelay

def TakesCnp (p : Params) (ctxt : Ctxt) (rtt : UInt32) : Prop :=
  ¬ TakesNack p ctxt rtt ∧ (ctxt.flags.wasCnp = true ∨ rtt ≥ p.maxDelay)

def TakesRtt (p : Params) (ctxt : Ctxt) (rtt : UInt32) : Prop :=
  ¬ TakesNack p ctxt rtt ∧ ¬ (ctxt.flags.wasCnp = true ∨ rtt ≥ p.maxDelay) ∧ rtt > p.baseRtt

/-- The rate that the algorithm returns for a flow. -/
def newRate (p : Params) (ctxt : Ctxt) (rtt : UInt32) : UInt32 :=
  (algorithmCore ctxt rtt ctxt.curRate p).1

/-- The context has a rate that the parameters allow. -/
def Admissible (p : Params) (ctxt : Ctxt) : Prop :=
  p.minRate ≤ ctxt.curRate ∧ ctxt.curRate ≤ maxRate

/-- With these parameters no congestion reaction raises the rate, and of the three the one
to a NACK is the strongest and the one to a delay the weakest. -/
structure NeverRaises (p : Params) : Prop where
  lowered : ∀ ctxt rtt, Admissible p ctxt →
    TakesNack p ctxt rtt ∨ TakesCnp p ctxt rtt ∨ TakesRtt p ctxt rtt →
      newRate p ctxt rtt ≤ ctxt.curRate
  nack_le_cnp : ∀ nack cnp t s, Admissible p nack → nack.curRate = cnp.curRate →
    TakesNack p nack t → TakesCnp p cnp s → newRate p nack t ≤ newRate p cnp s
  cnp_le_rtt : ∀ cnp plain t s, Admissible p cnp → cnp.curRate = plain.curRate →
    TakesCnp p cnp t → TakesRtt p plain s → newRate p cnp t ≤ newRate p plain s

theorem newRate_nack (h : TakesNack p ctxt rtt) :
    newRate p ctxt rtt = boundRate (fxpMult (nackDecFactor p) ctxt.curRate) p := by
  have hnack : ctxt.flags.wasNack = true ∧ rtt ≥ p.maxDelay := h
  simp only [newRate, algorithmCore, adjustRate, if_pos hnack]

theorem newRate_cnp (h : TakesCnp p ctxt rtt) :
    newRate p ctxt rtt = boundRate (fxpMult (cnpDecFactor p) ctxt.curRate) p := by
  obtain ⟨hnack, hcnp⟩ := h
  unfold TakesNack at hnack
  simp only [newRate, algorithmCore, adjustRate, if_neg hnack, if_pos hcnp]

theorem newRate_rtt (h : TakesRtt p ctxt rtt) :
    newRate p ctxt rtt = boundRate (fxpMult (decFactor p) ctxt.curRate) p := by
  obtain ⟨hnack, hcnp, hrtt⟩ := h
  unfold TakesNack at hnack
  simp only [newRate, algorithmCore, adjustRate, if_neg hnack, if_neg hcnp, if_pos hrtt]

theorem fxpMult_toNat (a b : UInt32) :
    (fxpMult a b).toNat = a.toNat * b.toNat / 65536 % 2 ^ 32 := by
  have ha := a.toNat_lt
  have hb := b.toNat_lt
  have hmul : a.toNat * b.toNat < 2 ^ 64 := by
    calc a.toNat * b.toNat < 2 ^ 32 * 2 ^ 32 := Nat.mul_lt_mul'' ha hb
      _ = 2 ^ 64 := by norm_num
  unfold fxpMult
  simp only [UInt64.toNat_toUInt32, UInt64.toNat_shiftRight, UInt64.toNat_mul,
    UInt32.toNat_toUInt64]
  have hshift : UInt64.toNat 16 % 64 = 16 := rfl
  rw [Nat.mod_eq_of_lt hmul, hshift, Nat.shiftRight_eq_div_pow]

theorem boundRate_toNat (rate : UInt32) (p : Params) :
    (boundRate rate p).toNat = max (min rate.toNat maxRate.toNat) p.minRate.toNat := by
  unfold boundRate
  dsimp only
  split <;> split <;> rename_i hmax hmin <;> rw [gt_iff_lt, UInt32.lt_iff_toNat_lt] at hmax <;>
    rw [UInt32.lt_iff_toNat_lt] at hmin <;> omega

theorem boundRate_mono (h : a ≤ b) (p : Params) : boundRate a p ≤ boundRate b p := by
  rw [UInt32.le_iff_toNat_le, boundRate_toNat, boundRate_toNat]
  have hab := UInt32.le_iff_toNat_le.mp h
  omega

theorem boundRate_eq (hmin : p.minRate ≤ rate) (hmax : rate ≤ maxRate) :
    boundRate rate p = rate := by
  rw [UInt32.le_iff_toNat_le] at hmin hmax
  rw [← UInt32.toNat_inj, boundRate_toNat]
  omega

/-- A factor below one in fixed point lowers a rate. -/
theorem fxpMult_le (ha : a.toNat ≤ 65536) : fxpMult a rate ≤ rate := by
  rw [UInt32.le_iff_toNat_le, fxpMult_toNat]
  calc a.toNat * rate.toNat / 65536 % 2 ^ 32 ≤ a.toNat * rate.toNat / 65536 := Nat.mod_le _ _
    _ ≤ 65536 * rate.toNat / 65536 := Nat.div_le_div_right (Nat.mul_le_mul_right _ ha)
    _ = rate.toNat := Nat.mul_div_cancel_left _ (by decide)

/-- The smaller the factor, the lower the rate. -/
theorem fxpMult_mono (hab : a ≤ b) (hb : b.toNat ≤ 65536) : fxpMult a rate ≤ fxpMult b rate := by
  rw [UInt32.le_iff_toNat_le] at hab
  have hdiv : a.toNat * rate.toNat / 65536 ≤ b.toNat * rate.toNat / 65536 :=
    Nat.div_le_div_right (Nat.mul_le_mul_right _ hab)
  have hlt : b.toNat * rate.toNat / 65536 < 2 ^ 32 := by
    calc b.toNat * rate.toNat / 65536 ≤ 65536 * rate.toNat / 65536 :=
          Nat.div_le_div_right (Nat.mul_le_mul_right _ hb)
      _ = rate.toNat := Nat.mul_div_cancel_left _ (by decide)
      _ < 2 ^ 32 := rate.toNat_lt
  rw [UInt32.le_iff_toNat_le, fxpMult_toNat, fxpMult_toNat, Nat.mod_eq_of_lt hlt,
    Nat.mod_eq_of_lt (lt_of_le_of_lt hdiv hlt)]
  exact hdiv

theorem updateFactor_le (hp : WithinBounds p) : p.updateFactor.toNat ≤ 655360 := by
  simp only [WithinBounds, rttTemplateInit, Params.toList, List.forall₂_cons] at hp
  exact UInt32.le_iff_toNat_le.mp hp.1.2

theorem minRate_le (hp : WithinBounds p) : p.minRate ≤ maxRate := by
  simp only [WithinBounds, rttTemplateInit, Params.toList, List.forall₂_cons] at hp
  obtain ⟨-, -, -, -, ⟨-, hmax⟩, -⟩ := hp
  exact hmax

theorem one_sub_toNat (x : UInt32) :
    (((1 : UInt32) <<< 16) - x).toNat = (2 ^ 32 - x.toNat + 65536) % 2 ^ 32 := by
  have hone : ((1 : UInt32) <<< 16).toNat = 65536 := rfl
  rw [UInt32.toNat_sub, hone]

theorem decFactor_toNat (p : Params) :
    (decFactor p).toNat = (2 ^ 32 - p.updateFactor.toNat + 65536) % 2 ^ 32 := one_sub_toNat _

theorem cnpDecFactor_toNat (hp : WithinBounds p) :
    (cnpDecFactor p).toNat = (2 ^ 32 - 2 * p.updateFactor.toNat + 65536) % 2 ^ 32 := by
  have hle := updateFactor_le hp
  have htwo : (2 * p.updateFactor).toNat = 2 * p.updateFactor.toNat := by
    rw [UInt32.toNat_mul]
    exact Nat.mod_eq_of_lt (by simp; omega)
  rw [cnpDecFactor, one_sub_toNat, htwo]

theorem nackDecFactor_toNat (hp : WithinBounds p) :
    (nackDecFactor p).toNat = (2 ^ 32 - 5 * p.updateFactor.toNat + 65536) % 2 ^ 32 := by
  have hle := updateFactor_le hp
  have hfive : (5 * p.updateFactor).toNat = 5 * p.updateFactor.toNat := by
    rw [UInt32.toNat_mul]
    exact Nat.mod_eq_of_lt (by simp; omega)
  rw [nackDecFactor, one_sub_toNat, hfive]

theorem wrap_small {x : Nat} (h : x ≤ 65536) : (2 ^ 32 - x + 65536) % 2 ^ 32 = 65536 - x := by
  have hsum : 2 ^ 32 - x + 65536 = 2 ^ 32 + (65536 - x) := by omega
  rw [hsum, Nat.add_mod_left, Nat.mod_eq_of_lt (by omega)]

theorem wrap_large {x : Nat} (h : 65536 < x) (hle : x ≤ 2 ^ 32) :
    (2 ^ 32 - x + 65536) % 2 ^ 32 = 2 ^ 32 - x + 65536 := Nat.mod_eq_of_lt (by omega)

/-- The factors are in order as long as the largest subtraction does not wrap. -/
theorem factors_ordered (hp : WithinBounds p) (hu : 5 * p.updateFactor.toNat ≤ 65536) :
    nackDecFactor p ≤ cnpDecFactor p ∧ cnpDecFactor p ≤ decFactor p ∧
      (decFactor p).toNat ≤ 65536 := by
  simp only [UInt32.le_iff_toNat_le, nackDecFactor_toNat hp, cnpDecFactor_toNat hp,
    decFactor_toNat]
  rw [wrap_small hu, wrap_small (by omega), wrap_small (by omega)]
  omega

theorem neverRaises_of_small (hp : WithinBounds p) (hu : 5 * p.updateFactor.toNat ≤ 65536) :
    NeverRaises p := by
  obtain ⟨hnack, hcnp, hdec⟩ := factors_ordered hp hu
  have hcnp' : (cnpDecFactor p).toNat ≤ 65536 := (UInt32.le_iff_toNat_le.mp hcnp).trans hdec
  have hnack' : (nackDecFactor p).toNat ≤ 65536 := (UInt32.le_iff_toNat_le.mp hnack).trans hcnp'
  have hlow : ∀ {ctxt : Ctxt} {a : UInt32}, Admissible p ctxt → a.toNat ≤ 65536 →
      boundRate (fxpMult a ctxt.curRate) p ≤ ctxt.curRate := by
    intro ctxt a hctxt ha
    have hle : fxpMult a ctxt.curRate ≤ ctxt.curRate := fxpMult_le ha
    have hmono := boundRate_mono hle p
    rwa [boundRate_eq hctxt.1 hctxt.2] at hmono
  constructor
  · rintro ctxt rtt hctxt (h | h | h)
    · rw [newRate_nack h]
      exact hlow hctxt hnack'
    · rw [newRate_cnp h]
      exact hlow hctxt hcnp'
    · rw [newRate_rtt h]
      exact hlow hctxt hdec
  · intro nack cnp t s _ hrate hn hc
    rw [newRate_nack hn, newRate_cnp hc, hrate]
    exact boundRate_mono (fxpMult_mono hnack hcnp') p
  · intro cnp plain t s _ hrate hc hr
    rw [newRate_cnp hc, newRate_rtt hr, hrate]
    exact boundRate_mono (fxpMult_mono hcnp hdec) p

/-- With a single rate every reaction returns it. -/
theorem neverRaises_of_single (hmin : p.minRate = maxRate) : NeverRaises p := by
  have hbound : ∀ rate, boundRate rate p = maxRate := by
    intro rate
    rw [← UInt32.toNat_inj, boundRate_toNat, hmin]
    omega
  have hnew : ∀ ctxt rtt, newRate p ctxt rtt = maxRate := fun ctxt rtt => hbound _
  refine ⟨fun ctxt rtt hctxt _ => ?_, fun _ _ _ _ _ _ _ _ => ?_, fun _ _ _ _ _ _ _ _ => ?_⟩
  · rw [hnew, ← hmin]
    exact hctxt.1
  · rw [hnew, hnew]
    exact UInt32.le_refl _
  · rw [hnew, hnew]
    exact UInt32.le_refl _

/-- A flow one step below the highest rate that has got a NACK. -/
def nackedFlow : Ctxt := ⟨maxRate - 1, 0, 0, ⟨true, false⟩, 0, 0, 0⟩

/-- Once the subtraction wraps, a NACK takes this flow to the highest rate. -/
theorem nackedFlow_raised (hp : WithinBounds p) (hu : 65536 < 5 * p.updateFactor.toNat) :
    ¬ newRate p nackedFlow p.maxDelay ≤ nackedFlow.curRate := by
  have hle := updateFactor_le hp
  have htakes : TakesNack p nackedFlow p.maxDelay := ⟨rfl, UInt32.le_refl _⟩
  have hmax : maxRate.toNat = 1048576 := rfl
  have hrate : nackedFlow.curRate.toNat = 1048575 := rfl
  rw [newRate_nack htakes, UInt32.le_iff_toNat_le, boundRate_toNat, fxpMult_toNat,
    nackDecFactor_toNat hp, wrap_large hu (by omega), hmax, hrate]
  generalize hq : (2 ^ 32 - 5 * p.updateFactor.toNat + 65536) * 1048575 / 65536 = q
  have hlow : 64425558016 ≤ q := by
    rw [← hq]
    exact (Nat.le_div_iff_mul_le (by norm_num)).mpr (by omega)
  have hhigh : q < 68719476736 := by
    rw [← hq]
    apply Nat.div_lt_of_lt_mul
    calc (2 ^ 32 - 5 * p.updateFactor.toNat + 65536) * 1048575 ≤ 4294967296 * 1048575 :=
          Nat.mul_le_mul_right _ (by omega)
      _ < 65536 * 68719476736 := by norm_num
  have hmod : q % 2 ^ 32 = q - 64424509440 := by omega
  omega

/-- The reactions never raise a rate exactly when five times the update factor is at most
one in fixed point, or when there is only one rate. -/
theorem never_raises_iff (p : Params) (hp : WithinBounds p) :
    NeverRaises p ↔ 5 * p.updateFactor.toNat ≤ 65536 ∨ p.minRate = maxRate := by
  constructor
  · intro h
    by_contra hcond
    rw [not_or, Nat.not_le] at hcond
    obtain ⟨hu, hmin⟩ := hcond
    have hle := UInt32.le_iff_toNat_le.mp (minRate_le hp)
    have hne : p.minRate.toNat ≠ maxRate.toNat := fun heq => hmin (UInt32.toNat_inj.mp heq)
    have hmax : maxRate.toNat = 1048576 := rfl
    have hadm : Admissible p nackedFlow := by
      refine ⟨?_, by decide⟩
      have hrate : nackedFlow.curRate.toNat = 1048575 := rfl
      rw [UInt32.le_iff_toNat_le, hrate]
      omega
    exact nackedFlow_raised hp hu (h.lowered _ _ hadm (.inl ⟨rfl, UInt32.le_refl _⟩))
  · rintro (hu | hmin)
    · exact neverRaises_of_small hp hu
    · exact neverRaises_of_single hmin

theorem never_raises_defaults :
    WithinBounds defaultParams ∧ NeverRaises defaultParams :=
  ⟨defaults_within_bounds, (never_raises_iff defaultParams defaults_within_bounds).mpr
    (.inl (by decide))⟩

/-- An update factor of a fifth is declared to be allowed. -/
def fifthParams : Params := { defaultParams with updateFactor := 13108 }

theorem fifth_raises : WithinBounds fifthParams ∧ Admissible fifthParams nackedFlow ∧
    TakesNack fifthParams nackedFlow 150000 ∧
      nackedFlow.curRate < newRate fifthParams nackedFlow 150000 := by
  refine ⟨?_, ⟨by decide, by decide⟩, ⟨rfl, by decide⟩, by decide⟩
  simp only [WithinBounds, rttTemplateInit, Params.toList, List.forall₂_cons]
  decide

end DocaApps.Proofs.RateReactions
