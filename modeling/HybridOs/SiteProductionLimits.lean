import HybridOs.SiteActivePower

/-!
# The charge and discharge budgets of the site demand

The feature demand fixes the two budgets and the standalone modification is
added to one of them; what goes past zero on that side lands on the other. So
the signs survive and the sum stays the site demand, before and after the ESS
is told to serve load.
-/

namespace HybridOs.SiteProductionLimits

open SiteUtils SiteAssetCmd SiteActivePower

/-- The limits are a charge and a discharge that add up to the demand. -/
structure SplitsDemand (limits : SiteKWProductionLimits) (siteKWDemand : ℚ) : Prop where
  /-- Charge production is never a discharge. -/
  charge_nonpos : limits.siteKWChargeProduction ≤ 0
  /-- Discharge production is never a charge. -/
  discharge_nonneg : 0 ≤ limits.siteKWDischargeProduction
  /-- The two together are the demand. -/
  sum_eq : limits.siteKWChargeProduction + limits.siteKWDischargeProduction = siteKWDemand

theorem zeroCheck_nonneg (value : ℚ) : 0 ≤ zeroCheck value := by
  rw [zeroCheck_eq_max]
  exact le_max_left _ _

theorem lessThanZeroCheck_nonpos (value : ℚ) : lessThanZeroCheck value ≤ 0 := by
  rw [lessThanZeroCheck_eq_min]
  exact min_le_left _ _

/-- A value is its nonnegative part and its nonpositive part. -/
theorem zeroCheck_add_lessThanZeroCheck (value : ℚ) :
    zeroCheck value + lessThanZeroCheck value = value := by
  unfold zeroCheck lessThanZeroCheck
  split_ifs with hneg hpos <;> linarith

/-- Taking the discharge requested out of the demand leaves a charge, and
taking that charge out leaves a discharge. -/
theorem extraction_splits (featureKWDemand : ℚ) {requestedDischarge : ℚ}
    (hrequested : 0 ≤ requestedDischarge) :
    SplitsDemand ⟨lessThanZeroCheck (featureKWDemand - requestedDischarge),
      zeroCheck (featureKWDemand - lessThanZeroCheck (featureKWDemand - requestedDischarge))⟩
      featureKWDemand := by
  have hcharge := lessThanZeroCheck_nonpos (featureKWDemand - requestedDischarge)
  have hleft : 0 ≤ featureKWDemand - lessThanZeroCheck (featureKWDemand - requestedDischarge) := by
    unfold lessThanZeroCheck
    split_ifs with hpos <;> linarith
  have hdischarge : zeroCheck
      (featureKWDemand - lessThanZeroCheck (featureKWDemand - requestedDischarge)) =
      featureKWDemand - lessThanZeroCheck (featureKWDemand - requestedDischarge) := by
    rw [zeroCheck_eq_max, max_eq_right hleft]
  constructor
  · exact hcharge
  · exact zeroCheck_nonneg _
  · change _ + zeroCheck _ = _
    rw [hdischarge]
    ring

variable {charge discharge demand signChange additionalLoadCompensation : ℚ}
  {loadMethod : LoadCompensation}

/-- A change of the charge keeps the split; past zero it becomes discharge. -/
theorem SplitsDemand.change_charge (h : SplitsDemand ⟨charge, discharge⟩ demand) (change : ℚ) :
    SplitsDemand ⟨lessThanZeroCheck (charge + change),
      discharge + zeroCheck (charge + change)⟩ (demand + change) := by
  have hparts := zeroCheck_add_lessThanZeroCheck (charge + change)
  have hsum : charge + discharge = demand := h.sum_eq
  constructor
  · exact lessThanZeroCheck_nonpos _
  · exact add_nonneg h.discharge_nonneg (zeroCheck_nonneg _)
  · change lessThanZeroCheck (charge + change) + (discharge + zeroCheck (charge + change)) = _
    linarith

/-- A change of the discharge keeps the split; past zero it becomes charge. -/
theorem SplitsDemand.change_discharge (h : SplitsDemand ⟨charge, discharge⟩ demand) (change : ℚ) :
    SplitsDemand ⟨charge + lessThanZeroCheck (discharge + change),
      zeroCheck (discharge + change)⟩ (demand + change) := by
  have hparts := zeroCheck_add_lessThanZeroCheck (discharge + change)
  have hsum : charge + discharge = demand := h.sum_eq
  constructor
  · exact add_nonpos h.charge_nonpos (lessThanZeroCheck_nonpos _)
  · exact zeroCheck_nonneg _
  · change charge + lessThanZeroCheck (discharge + change) + zeroCheck (discharge + change) = _
    linarith

/-- Applying a sign change of at least zero adds it to the discharge. -/
theorem applySignChange_of_nonneg (limits : SiteKWProductionLimits) (h : 0 ≤ signChange) :
    (if signChange < 0 then
      {limits with siteKWChargeProduction := limits.siteKWChargeProduction + signChange}
    else if signChange > 0 then
      {limits with siteKWDischargeProduction := limits.siteKWDischargeProduction + signChange}
    else limits) = ⟨limits.siteKWChargeProduction, limits.siteKWDischargeProduction + signChange⟩ := by
  rw [if_neg (not_lt.mpr h)]
  by_cases hpos : signChange > 0
  · rw [if_pos hpos]
  · have hzero : signChange = 0 := le_antisymm (not_lt.mp hpos) h
    rw [if_neg hpos, hzero, add_zero]

/-- Applying a sign change of at most zero adds it to the charge. -/
theorem applySignChange_of_nonpos (limits : SiteKWProductionLimits) (h : signChange ≤ 0) :
    (if signChange < 0 then
      {limits with siteKWChargeProduction := limits.siteKWChargeProduction + signChange}
    else if signChange > 0 then
      {limits with siteKWDischargeProduction := limits.siteKWDischargeProduction + signChange}
    else limits) = ⟨limits.siteKWChargeProduction + signChange, limits.siteKWDischargeProduction⟩ := by
  by_cases hneg : signChange < 0
  · rw [if_pos hneg]
  · have hzero : signChange = 0 := le_antisymm h (not_lt.mp hneg)
    rw [if_neg hneg, if_neg (not_lt.mpr h), hzero, add_zero]

/-- Discharge the requests and the load minimum take out of the demand. -/
def requestedDischarge (essKWRequest genKWRequest solarKWRequest : ℚ)
    (loadMethod : LoadCompensation) (additionalLoadCompensation : ℚ) : ℚ :=
  zeroCheck essKWRequest + zeroCheck genKWRequest + zeroCheck solarKWRequest +
    (if loadMethod = .loadMinimum then additionalLoadCompensation else 0)

theorem requestedDischarge_nonneg (essKWRequest genKWRequest solarKWRequest : ℚ)
    (h : loadMethod = .loadMinimum → 0 ≤ additionalLoadCompensation) :
    0 ≤ requestedDischarge essKWRequest genKWRequest solarKWRequest loadMethod
      additionalLoadCompensation := by
  have hess := zeroCheck_nonneg essKWRequest
  have hgen := zeroCheck_nonneg genKWRequest
  have hsolar := zeroCheck_nonneg solarKWRequest
  unfold requestedDischarge
  split_ifs with hmethod
  · have hcompensation := h hmethod
    linarith
  · linarith

/-- The compensation only matters where load is a minimum. -/
theorem calculateSiteKWProductionLimits_splits (essKWRequest genKWRequest solarKWRequest : ℚ)
    (featureKWDemand siteKWDemand : ℚ)
    (h : loadMethod = .loadMinimum → 0 ≤ additionalLoadCompensation) :
    SplitsDemand (calculateSiteKWProductionLimits essKWRequest genKWRequest solarKWRequest
      loadMethod additionalLoadCompensation featureKWDemand siteKWDemand) siteKWDemand := by
  have hfeature := extraction_splits featureKWDemand
    (requestedDischarge_nonneg essKWRequest genKWRequest solarKWRequest h)
  have hdemand : featureKWDemand + (siteKWDemand - featureKWDemand) = siteKWDemand := by ring
  have hcharge := hfeature.change_charge (siteKWDemand - featureKWDemand)
  have hdischarge := hfeature.change_discharge (siteKWDemand - featureKWDemand)
  rw [hdemand] at hcharge hdischarge
  unfold requestedDischarge at hcharge hdischarge
  unfold calculateSiteKWProductionLimits
  by_cases hside : featureKWDemand < 0 ∨
      (featureKWDemand = 0 ∧ siteKWDemand - featureKWDemand < 0)
  · dsimp only
    rw [if_pos hside, applySignChange_of_nonneg _ (zeroCheck_nonneg _)]
    exact hcharge
  · dsimp only
    rw [if_neg hside, applySignChange_of_nonpos _ (lessThanZeroCheck_nonpos _)]
    exact hdischarge

/-- Telling the ESS to serve load changes no compensation. -/
theorem determineEssLoadRequirement_compensation (obj : AssetCmdObject) (assetPriority : ℤ) :
    (obj.determineEssLoadRequirement assetPriority).1.additionalLoadCompensation =
      obj.additionalLoadCompensation := by
  unfold AssetCmdObject.determineEssLoadRequirement
  dsimp only
  split_ifs <;> rfl

theorem calculateFeatureKWDemand_compensation (obj : AssetCmdObject) (assetPriority : ℤ) :
    (obj.calculateFeatureKWDemand assetPriority).additionalLoadCompensation =
      obj.additionalLoadCompensation :=
  determineEssLoadRequirement_compensation _ _

theorem productionLimits_splits {obj : AssetCmdObject} (h : 0 ≤ obj.additionalLoadCompensation) :
    SplitsDemand obj.productionLimits obj.siteKWDemand :=
  calculateSiteKWProductionLimits_splits _ _ _ _ _ fun _ => h

/-- POI power the two productions stand for. -/
def poiTarget (obj : AssetCmdObject) : ℚ :=
  obj.productionLimits.siteKWChargeProduction + obj.productionLimits.siteKWDischargeProduction -
    obj.getSiteKWLoadInclusion * obj.siteKWLoad

/-- In every state with a compensation of at least zero the two budgets have
their signs and add up to the site demand. The same holds once the feature's
demand has been gathered and once the ESS has been told to serve load, for
every priority, and the power the passes of the dispatch aim at the POI is the
demand less the load. -/
theorem budgets_split_demand (obj : AssetCmdObject) (assetPriority : ℤ)
    (h : 0 ≤ obj.additionalLoadCompensation) :
    SplitsDemand obj.productionLimits obj.siteKWDemand ∧
    SplitsDemand (obj.calculateFeatureKWDemand assetPriority).productionLimits
      (obj.calculateFeatureKWDemand assetPriority).siteKWDemand ∧
    SplitsDemand (obj.determineEssLoadRequirement assetPriority).1.productionLimits
      (obj.determineEssLoadRequirement assetPriority).1.siteKWDemand ∧
    poiTarget obj = obj.siteKWDemand - obj.getSiteKWLoadInclusion * obj.siteKWLoad := by
  have hfeature : 0 ≤ (obj.calculateFeatureKWDemand assetPriority).additionalLoadCompensation := by
    rw [calculateFeatureKWDemand_compensation]
    exact h
  have hload :
      0 ≤ (obj.determineEssLoadRequirement assetPriority).1.additionalLoadCompensation := by
    rw [determineEssLoadRequirement_compensation]
    exact h
  refine ⟨productionLimits_splits h, productionLimits_splits hfeature,
    productionLimits_splits hload, ?_⟩
  unfold poiTarget
  rw [(productionLimits_splits h).sum_eq]

/-- A site that charges 30 kW for its feature, corrected upwards by 50 kW. -/
def correctedSite : AssetCmdObject where
  essData := ⟨-30, 0, 0, false, false, -100, 100⟩
  feederData := ⟨0, 0, 0, false, false, 0, 200⟩
  genData := ⟨0, 0, 0, false, false, 0, 50⟩
  solarData := ⟨20, 0, 0, false, false, 0, 40⟩
  poiCmd := 0
  siteKWLoad := 10
  loadMethod := .loadMinimum
  additionalLoadCompensation := 10
  featureKWDemand := -30
  siteKWDemand := 20
  siteKWChargeProduction := 0
  siteKWDischargeProduction := 0

theorem budgets_split_demand_correctedSite :
    0 ≤ correctedSite.additionalLoadCompensation ∧
    SplitsDemand correctedSite.productionLimits 20 ∧ poiTarget correctedSite = 10 := by
  have hcompensation : 0 ≤ correctedSite.additionalLoadCompensation := by
    norm_num [correctedSite]
  obtain ⟨hsplits, -, -, hpoi⟩ := budgets_split_demand correctedSite 0 hcompensation
  refine ⟨hcompensation, hsplits, ?_⟩
  rw [hpoi, AssetCmdObject.getSiteKWLoadInclusion, if_neg (by decide)]
  norm_num [correctedSite]

end HybridOs.SiteProductionLimits
