import HybridOs.SiteUtils

/-!
# Limiting the ESS share of the site discharge

The aggregated asset limit leaves the ESS what solar and the uncontrolled ESS do
not use, and discharge prevention leaves it nothing at a low state of charge.
Both lower the potentials of the ESS and patch the total discharge limit of the
site.
-/

namespace HybridOs.SiteEssLimits

open SiteUtils

/-- The limits that both features edit, as they come in and go out. -/
structure EssLimits where
  /-- Maximum potential that the site manager keeps. -/
  siteManagerMaxPotentialEssKW : ℚ
  /-- Maximum potential of the asset command. -/
  assetCmdEssMaxPotentialKW : ℚ
  /-- Minimum potential that the site manager keeps. -/
  siteManagerMinPotentialEssKW : ℚ
  /-- Minimum potential of the asset command. -/
  assetCmdEssMinPotentialKW : ℚ
  /-- Discharge limit of all assets of the site. -/
  totalAssetKWDischargeLimit : ℚ
  deriving DecidableEq

/-- What `Aggregated_Asset_Limit` reads besides the limits. -/
structure AggregatedInputs where
  /-- Present power of the controllable solar. -/
  solarActualKW : ℚ
  /-- Present power of the solar out of control. -/
  uncontrolledSolarKW : ℚ
  /-- Present power of the ESS out of control. -/
  uncontrolledEssKW : ℚ
  /-- Discharge limit of the ESS, a part of that of the site. -/
  essTotalKWDischargeLimit : ℚ

/-- The power that the aggregate limit leaves to the ESS. -/
def essLimit (aggAssetLimitKW : ℚ) (inputs : AggregatedInputs) : ℚ :=
  let solarPower := inputs.solarActualKW + inputs.uncontrolledSolarKW
  zeroCheck (aggAssetLimitKW - solarPower - inputs.uncontrolledEssKW)

/-- `Aggregated_Asset_Limit::execute_helper`. -/
def aggregatedAssetLimit (aggAssetLimitKW : ℚ) (inputs : AggregatedInputs) (limits : EssLimits) :
    EssLimits :=
  let essLimit := essLimit aggAssetLimitKW inputs
  if essLimit < limits.assetCmdEssMaxPotentialKW then
    let maxPotential := zeroCheck essLimit
    let lowered := { limits with
      siteManagerMaxPotentialEssKW := maxPotential
      assetCmdEssMaxPotentialKW := maxPotential
      totalAssetKWDischargeLimit :=
        limits.totalAssetKWDischargeLimit - (inputs.essTotalKWDischargeLimit + essLimit) }
    if limits.assetCmdEssMinPotentialKW > maxPotential then
      { lowered with
        siteManagerMinPotentialEssKW := maxPotential
        assetCmdEssMinPotentialKW := maxPotential }
    else lowered
  else limits

/-- `ESS_Discharge_Prevention::execute_helper`. -/
def essDischargePrevention (edpSoc socAvgRunning essTotalKWDischargeLimit : ℚ)
    (limits : EssLimits) : EssLimits :=
  if socAvgRunning ≤ edpSoc then
    let stopped :=
      if limits.assetCmdEssMaxPotentialKW > 0 then
        { limits with
          siteManagerMaxPotentialEssKW := 0
          assetCmdEssMaxPotentialKW := 0
          totalAssetKWDischargeLimit :=
            limits.totalAssetKWDischargeLimit - essTotalKWDischargeLimit }
      else limits
    if limits.assetCmdEssMinPotentialKW > 0 then
      { stopped with siteManagerMinPotentialEssKW := 0, assetCmdEssMinPotentialKW := 0 }
    else stopped
  else limits

/-- The discharge limit of the ESS after the aggregate limit. -/
def newEssDischargeLimit (aggAssetLimitKW : ℚ) (inputs : AggregatedInputs) (limits : EssLimits) :
    ℚ :=
  if essLimit aggAssetLimitKW inputs < limits.assetCmdEssMaxPotentialKW then
    essLimit aggAssetLimitKW inputs
  else inputs.essTotalKWDischargeLimit

/-- The total exchanges the discharge limit of the ESS for the new one, and with nothing left
for the ESS the limits become those of discharge prevention. -/
structure ReplacesEssShare (aggAssetLimitKW : ℚ) (inputs : AggregatedInputs) (limits : EssLimits) :
    Prop where
  /-- The total without the old share and with the new one. -/
  total_eq : (aggregatedAssetLimit aggAssetLimitKW inputs limits).totalAssetKWDischargeLimit =
    limits.totalAssetKWDischargeLimit - inputs.essTotalKWDischargeLimit +
      newEssDischargeLimit aggAssetLimitKW inputs limits
  /-- Discharge prevention does the same where it acts. -/
  agrees : essLimit aggAssetLimitKW inputs = 0 →
    ∀ edpSoc socAvgRunning, socAvgRunning ≤ edpSoc →
      aggregatedAssetLimit aggAssetLimitKW inputs limits =
        essDischargePrevention edpSoc socAvgRunning inputs.essTotalKWDischargeLimit limits

variable {aggAssetLimitKW : ℚ} {inputs : AggregatedInputs} {limits : EssLimits}

/-- A lowered limit takes itself off the total as well. -/
theorem total_of_lowered (h : essLimit aggAssetLimitKW inputs < limits.assetCmdEssMaxPotentialKW) :
    (aggregatedAssetLimit aggAssetLimitKW inputs limits).totalAssetKWDischargeLimit =
      limits.totalAssetKWDischargeLimit -
        (inputs.essTotalKWDischargeLimit + essLimit aggAssetLimitKW inputs) := by
  unfold aggregatedAssetLimit
  rw [if_pos h]
  dsimp only
  split_ifs <;> rfl

theorem aggregated_of_not_lowered
    (h : ¬ essLimit aggAssetLimitKW inputs < limits.assetCmdEssMaxPotentialKW) :
    aggregatedAssetLimit aggAssetLimitKW inputs limits = limits := if_neg h

/-- With nothing left for an ESS that could discharge, the two features do the same. -/
theorem agrees_of_lowered (hzero : essLimit aggAssetLimitKW inputs = 0)
    (hmax : 0 < limits.assetCmdEssMaxPotentialKW) {edpSoc socAvgRunning : ℚ}
    (hsoc : socAvgRunning ≤ edpSoc) :
    aggregatedAssetLimit aggAssetLimitKW inputs limits =
      essDischargePrevention edpSoc socAvgRunning inputs.essTotalKWDischargeLimit limits := by
  have hcheck : zeroCheck 0 = 0 := by norm_num [zeroCheck]
  unfold aggregatedAssetLimit essDischargePrevention
  rw [hzero, if_pos hmax, if_pos hsoc, if_pos hmax]
  dsimp only
  rw [hcheck, add_zero]

/-- An ESS that could not discharge is left alone by the aggregate limit, while discharge
prevention stops one that must. -/
theorem agrees_of_not_lowered_iff (hmax : limits.assetCmdEssMaxPotentialKW ≤ 0)
    {edpSoc socAvgRunning essTotalKWDischargeLimit : ℚ} (hsoc : socAvgRunning ≤ edpSoc) :
    limits = essDischargePrevention edpSoc socAvgRunning essTotalKWDischargeLimit limits ↔
      limits.assetCmdEssMinPotentialKW ≤ 0 := by
  unfold essDischargePrevention
  rw [if_pos hsoc, if_neg (not_lt.mpr hmax)]
  dsimp only
  constructor
  · intro heq
    by_contra hmin
    rw [not_le] at hmin
    rw [if_pos hmin] at heq
    have hzero := congrArg EssLimits.assetCmdEssMinPotentialKW heq
    dsimp only at hzero
    linarith
  · intro hmin
    rw [if_neg (not_lt.mpr hmin)]

/-- The aggregate limit replaces the ESS share if and only if it lowers the ESS to nothing or
not at all, and an ESS that may not discharge need not either where nothing is left. -/
theorem replacesEssShare_iff (aggAssetLimitKW : ℚ) (inputs : AggregatedInputs)
    (limits : EssLimits) :
    ReplacesEssShare aggAssetLimitKW inputs limits ↔
      (essLimit aggAssetLimitKW inputs < limits.assetCmdEssMaxPotentialKW →
        essLimit aggAssetLimitKW inputs = 0) ∧
      (essLimit aggAssetLimitKW inputs = 0 → limits.assetCmdEssMaxPotentialKW ≤ 0 →
        limits.assetCmdEssMinPotentialKW ≤ 0) := by
  constructor
  · intro h
    constructor
    · intro hlowered
      have htotal := h.total_eq
      rw [total_of_lowered hlowered, newEssDischargeLimit, if_pos hlowered] at htotal
      linarith
    · intro hzero hmax
      have hkept : ¬ essLimit aggAssetLimitKW inputs < limits.assetCmdEssMaxPotentialKW := by
        rw [hzero]
        exact not_lt.mpr hmax
      have hagrees := h.agrees hzero 0 0 le_rfl
      rw [aggregated_of_not_lowered hkept] at hagrees
      exact (agrees_of_not_lowered_iff hmax le_rfl).mp hagrees
  · rintro ⟨hlimit, hmin⟩
    constructor
    · by_cases hlowered : essLimit aggAssetLimitKW inputs < limits.assetCmdEssMaxPotentialKW
      · rw [total_of_lowered hlowered, newEssDischargeLimit, if_pos hlowered, hlimit hlowered]
        ring
      · rw [aggregated_of_not_lowered hlowered, newEssDischargeLimit, if_neg hlowered]
        ring
    · intro hzero edpSoc socAvgRunning hsoc
      by_cases hmax : limits.assetCmdEssMaxPotentialKW ≤ 0
      · have hkept : ¬ essLimit aggAssetLimitKW inputs < limits.assetCmdEssMaxPotentialKW := by
          rw [hzero]
          exact not_lt.mpr hmax
        rw [aggregated_of_not_lowered hkept]
        exact (agrees_of_not_lowered_iff hmax hsoc).mpr (hmin hzero hmax)
      · exact agrees_of_lowered hzero (not_le.mp hmax) hsoc

/-- A site limit of 100 kW beside 60 kW of solar leaves the ESS 40 kW of its 80 kW, and a total
of 180 kW becomes 60 kW. -/
theorem fortyLeft_notReplaced : ¬ ReplacesEssShare 100 ⟨60, 0, 0, 80⟩ ⟨80, 80, -80, -80, 180⟩ := by
  intro h
  have htotal := h.total_eq
  norm_num [aggregatedAssetLimit, newEssDischargeLimit, essLimit, zeroCheck] at htotal

end HybridOs.SiteEssLimits
