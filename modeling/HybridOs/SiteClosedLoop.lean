import HybridOs.SiteProductionLimits
import HybridOs.SiteSlew

/-!
# Closing the loop on the active power

The regulator counts an offset up and down while the power at the POI is off the command, with a
timer for each direction. The offset times the step size is added to the site demand, within the
power that the rated values leave. Limits, step size and timers come from the configuration,
which is taken as it is.
-/

namespace HybridOs.SiteClosedLoop

open SiteUtils SiteAssetCmd SiteProductionLimits

/-- A number without its fractional part. -/
def toInt (x : ℚ) : ℤ := if x < 0 then ⌈x⌉ else ⌊x⌋

/-- `range_check` of integers. -/
def rangeCheckInt (value high low : ℤ) : ℤ :=
  if value < high then (if value > low then value else low) else high

/-! ## The regulator -/

/-- `COMPARISON_TYPE`. -/
inductive ComparisonType where
  | valueBelow
  | valueAbove
  deriving DecidableEq

/-- `Variable_Regulator`. -/
structure VariableRegulator where
  offset : ℤ
  defaultOffset : ℤ
  maxOffset : ℤ
  minOffset : ℤ
  defaultThreshold : ℚ
  defaultComparison : ComparisonType
  controlHighThreshold : ℚ
  decreaseTimerCount : ℤ
  decreaseTimerDuration : ℤ
  controlLowThreshold : ℚ
  increaseTimerCount : ℤ
  increaseTimerDuration : ℤ
  timerStarted : Bool
  prevTime : Timespec
  updatesPerSecond : ℚ

namespace VariableRegulator

/-- A new regulator. -/
def new (now : Timespec) : VariableRegulator where
  offset := 0
  defaultOffset := 0
  maxOffset := 0
  minOffset := 0
  defaultThreshold := 0
  defaultComparison := .valueBelow
  controlHighThreshold := 0
  decreaseTimerCount := 0
  decreaseTimerDuration := 0
  controlLowThreshold := 0
  increaseTimerCount := 0
  increaseTimerDuration := 0
  timerStarted := false
  prevTime := now
  updatesPerSecond := 10

/-- `set_decrease_timer_duration_ms`. -/
def setDecreaseTimerDurationMs (regulator : VariableRegulator) (durationInMs : ℤ) :
    VariableRegulator :=
  let duration := toInt (durationInMs * regulator.updatesPerSecond / 1000)
  {regulator with decreaseTimerDuration := duration, decreaseTimerCount := duration}

/-- `set_increase_timer_duration_ms`. -/
def setIncreaseTimerDurationMs (regulator : VariableRegulator) (durationInMs : ℤ) :
    VariableRegulator :=
  let duration := toInt (durationInMs * regulator.updatesPerSecond / 1000)
  {regulator with increaseTimerDuration := duration, increaseTimerCount := duration}

/-- `reset`, with `reset_timers`. -/
def reset (regulator : VariableRegulator) : VariableRegulator :=
  {regulator with
    offset := regulator.defaultOffset
    decreaseTimerCount := regulator.decreaseTimerDuration
    increaseTimerCount := regulator.increaseTimerDuration}

/-- `update_decrease_timer`. -/
def updateDecreaseTimer (regulator : VariableRegulator) (controlValue : ℚ) : VariableRegulator :=
  if regulator.offset ≤ regulator.minOffset then regulator
  else if controlValue > regulator.controlHighThreshold then
    if regulator.decreaseTimerCount > 0 then
      {regulator with decreaseTimerCount := regulator.decreaseTimerCount - 1}
    else if regulator.decreaseTimerCount = 0 then
      {regulator with
        offset := regulator.offset - 1
        decreaseTimerCount := regulator.decreaseTimerDuration}
    else regulator
  else if regulator.decreaseTimerCount < regulator.decreaseTimerDuration then
    {regulator with decreaseTimerCount := regulator.decreaseTimerCount + 1}
  else regulator

/-- `update_increase_timer`. -/
def updateIncreaseTimer (regulator : VariableRegulator) (controlValue : ℚ) : VariableRegulator :=
  if regulator.offset ≥ regulator.maxOffset then regulator
  else if controlValue < regulator.controlLowThreshold then
    if regulator.increaseTimerCount > 0 then
      {regulator with increaseTimerCount := regulator.increaseTimerCount - 1}
    else if regulator.increaseTimerCount = 0 then
      {regulator with
        offset := regulator.offset + 1
        increaseTimerCount := regulator.increaseTimerDuration}
    else regulator
  else if regulator.increaseTimerCount < regulator.increaseTimerDuration then
    {regulator with increaseTimerCount := regulator.increaseTimerCount + 1}
  else regulator

/-- The base case is satisfied: the regulator goes back to its default. -/
def isDefault (regulator : VariableRegulator) (baseCaseInput : ℚ) : Bool :=
  decide (baseCaseInput < regulator.defaultThreshold) &&
      decide (regulator.defaultComparison = .valueBelow) ||
    decide (baseCaseInput > regulator.defaultThreshold) &&
      decide (regulator.defaultComparison = .valueAbove)

/-- `regulate_variable_offset`: the regulator, and whether the command was acted upon. -/
def regulateVariableOffset (regulator : VariableRegulator) (currentTime : Timespec)
    (baseCaseInput regulationInput : ℚ) : VariableRegulator × Bool :=
  if regulator.timerStarted = false then
    ({regulator with timerStarted := true, prevTime := currentTime}, false)
  else
    -- The difference is an unsigned number.
    let deltaTimeUs : ℤ := SiteSlew.deltaMicros regulator.prevTime currentTime % 2 ^ 64
    if (deltaTimeUs : ℚ) < 1000000 / regulator.updatesPerSecond then (regulator, false)
    else
      let regulated := if regulator.isDefault baseCaseInput then regulator.reset
        else (regulator.updateDecreaseTimer regulationInput).updateIncreaseTimer regulationInput
      ({regulated with prevTime := currentTime}, true)

end VariableRegulator

/-! ## The feature -/

/-- The configured variables of the feature. -/
structure ClosedLoopConfig where
  defaultOffset : ℤ
  minOffset : ℤ
  maxOffset : ℤ
  stepSizeKW : ℚ
  zeroBypassEnable : Bool
  zeroBypassDeadbandKW : ℚ
  steadyStateDeadbandKW : ℚ
  regulationDeadbandKW : ℚ
  updateRateMs : ℤ
  decreaseTimerMs : ℤ
  increaseTimerMs : ℤ
  /-- Internal debug offset used only for testing. -/
  manualOffsetKW : ℚ

/-- `Active_Power_Closed_Loop_Control`, without the variables that it does not change. -/
structure ClosedLoop where
  stepSizeKW : ℚ
  regulator : VariableRegulator
  prevActivePowerFeatureCmd : ℚ

/-- `External_Inputs`. -/
structure ExternalInputs where
  siteKWDemand : ℚ
  additionalLoadCompensation : ℚ
  poiCmd : ℚ
  feederActualKW : ℚ
  essKWRequest : ℚ
  genKWRequest : ℚ
  solarKWRequest : ℚ
  loadMethod : LoadCompensation
  featureKWDemand : ℚ
  totalSiteKWRatedCharge : ℚ
  totalSiteKWRatedDischarge : ℚ
  feederMaxPotentialKW : ℚ

/-- `External_Outputs`. -/
structure ExternalOutputs where
  siteKWChargeProduction : ℚ
  siteKWDischargeProduction : ℚ
  totalCorrection : ℚ
  siteKWDemand : ℚ
  feederMaxPotentialKW : ℚ

/-- The charge and discharge production of the inputs. -/
def ExternalInputs.productionLimits (inputs : ExternalInputs) : SiteKWProductionLimits :=
  calculateSiteKWProductionLimits inputs.essKWRequest inputs.genKWRequest inputs.solarKWRequest
    inputs.loadMethod inputs.additionalLoadCompensation inputs.featureKWDemand inputs.siteKWDemand

/-- The command to close in on. -/
def ExternalInputs.currentCmd (inputs : ExternalInputs) : ℚ :=
  if inputs.poiCmd ≠ 0 then inputs.poiCmd
  else inputs.siteKWDemand - inputs.additionalLoadCompensation

/-- What is left for negative corrections. -/
def ExternalInputs.negativePowerAvailable (inputs : ExternalInputs) : ℚ :=
  lessThanZeroCheck
      (inputs.totalSiteKWRatedCharge - inputs.productionLimits.siteKWChargeProduction) -
    min inputs.totalSiteKWRatedDischarge inputs.productionLimits.siteKWDischargeProduction

/-- What is left for positive corrections. -/
def ExternalInputs.positivePowerAvailable (inputs : ExternalInputs) : ℚ :=
  zeroCheck
      (inputs.totalSiteKWRatedDischarge - inputs.productionLimits.siteKWDischargeProduction) -
    max inputs.totalSiteKWRatedCharge inputs.productionLimits.siteKWChargeProduction

/-- The update rate, with the fastest rate being 10 ms. -/
def ClosedLoopConfig.updateRate (config : ClosedLoopConfig) : ℤ := max config.updateRateMs 10

/-- The feature as the site manager initialises it. -/
def ClosedLoopConfig.init (config : ClosedLoopConfig) (now : Timespec) : ClosedLoop where
  stepSizeKW := config.stepSizeKW
  regulator :=
    let regulator := {VariableRegulator.new now with
      minOffset := config.minOffset
      maxOffset := config.maxOffset
      offset := config.defaultOffset
      defaultOffset := config.defaultOffset
      updatesPerSecond := 1000 / config.updateRate
      defaultThreshold := config.steadyStateDeadbandKW
      defaultComparison := .valueAbove
      controlHighThreshold := config.regulationDeadbandKW
      controlLowThreshold := -config.regulationDeadbandKW}
    (regulator.setDecreaseTimerDurationMs config.decreaseTimerMs).setIncreaseTimerDurationMs
      config.increaseTimerMs
  prevActivePowerFeatureCmd := 0

namespace ClosedLoop

/-- The step size that divides, which is never zero. -/
def divisor (stepSizeKW : ℚ) : ℚ := if stepSizeKW = 0 then 1 else stepSizeKW

/-- The regulator with the limits of this iteration. -/
def limited (config : ClosedLoopConfig) (loop : ClosedLoop) (inputs : ExternalInputs) :
    VariableRegulator :=
  let minAllowableOffset := toInt (inputs.negativePowerAvailable / divisor loop.stepSizeKW)
  let maxAllowableOffset := toInt (inputs.positivePowerAvailable / divisor loop.stepSizeKW)
  {loop.regulator with
    minOffset := if config.minOffset < minAllowableOffset then minAllowableOffset
      else config.minOffset
    maxOffset := if config.maxOffset > maxAllowableOffset then maxAllowableOffset
      else config.maxOffset}

/-- Whether the command is within the zero bypass. -/
def bypassed (config : ClosedLoopConfig) (inputs : ExternalInputs) : Bool :=
  config.zeroBypassEnable && decide (|inputs.currentCmd| ≤ |config.zeroBypassDeadbandKW|)

/-- `execute_helper`. -/
def execute (config : ClosedLoopConfig) (loop : ClosedLoop) (inputs : ExternalInputs)
    (currentTime : Timespec) : ClosedLoop × ExternalOutputs :=
  let currentCmd := inputs.currentCmd
  let poiValue := -1 * inputs.feederActualKW
  let limits := inputs.productionLimits
  if bypassed config inputs then
    ({loop with regulator := {loop.regulator with offset := 0}},
      { siteKWChargeProduction := limits.siteKWChargeProduction
        siteKWDischargeProduction := limits.siteKWDischargeProduction
        totalCorrection := 0
        siteKWDemand := inputs.siteKWDemand
        feederMaxPotentialKW := max inputs.feederMaxPotentialKW currentCmd })
  else
    let stepSizeKW := divisor loop.stepSizeKW
    let regulated := (loop.limited config inputs).regulateVariableOffset currentTime
      |currentCmd - loop.prevActivePowerFeatureCmd| (poiValue - currentCmd)
    let offset := rangeCheckInt regulated.1.offset regulated.1.maxOffset regulated.1.minOffset
    let totalCorrection := config.manualOffsetKW + offset * stepSizeKW
    ({ stepSizeKW
       regulator := {regulated.1 with offset}
       prevActivePowerFeatureCmd :=
        if regulated.2 then currentCmd else loop.prevActivePowerFeatureCmd },
      { siteKWChargeProduction := limits.siteKWChargeProduction
        siteKWDischargeProduction := limits.siteKWDischargeProduction
        totalCorrection
        siteKWDemand := inputs.siteKWDemand + totalCorrection
        feederMaxPotentialKW :=
          max inputs.feederMaxPotentialKW (currentCmd * -1 + zeroCheck (-1 * totalCorrection)) })

end ClosedLoop

/-- What the site manager does with the feature in an iteration. -/
inductive Iteration where
  /-- The feature is enabled. -/
  | enabled (inputs : ExternalInputs) (currentTime : Timespec)
  /-- The feature is not enabled: its regulator is reset. -/
  | disabled
  /-- The site is in its shutdown state: the offset is the default one. -/
  | shutdown

namespace ClosedLoop

/-- One iteration. -/
def iterate (config : ClosedLoopConfig) (loop : ClosedLoop) : Iteration → ClosedLoop
  | .enabled inputs currentTime => (loop.execute config inputs currentTime).1
  | .disabled => {loop with regulator := loop.regulator.reset}
  | .shutdown => {loop with regulator := {loop.regulator with offset := config.defaultOffset}}

/-- The offset is inside its configured limits, every timer between zero and its duration. -/
structure Bounded (config : ClosedLoopConfig) (loop : ClosedLoop) : Prop where
  offset_mem : config.minOffset ≤ loop.regulator.offset ∧ loop.regulator.offset ≤ config.maxOffset
  decrease_mem : 0 ≤ loop.regulator.decreaseTimerCount ∧
    loop.regulator.decreaseTimerCount ≤ loop.regulator.decreaseTimerDuration
  increase_mem : 0 ≤ loop.regulator.increaseTimerCount ∧
    loop.regulator.increaseTimerCount ≤ loop.regulator.increaseTimerDuration

/-- The corrected demand of an iteration is within the rated production. -/
def DemandRated (config : ClosedLoopConfig) (loop : ClosedLoop) : Iteration → Prop
  | .enabled inputs currentTime =>
    inputs.totalSiteKWRatedCharge ≤ (loop.execute config inputs currentTime).2.siteKWDemand ∧
      (loop.execute config inputs currentTime).2.siteKWDemand ≤ inputs.totalSiteKWRatedDischarge
  | .disabled => True
  | .shutdown => True

/-- A run keeps the bounds in every state, and the demand in every iteration. -/
def Keeps (config : ClosedLoopConfig) : ClosedLoop → List Iteration → Prop
  | loop, [] => loop.Bounded config
  | loop, iteration :: iterations =>
    loop.Bounded config ∧ loop.DemandRated config iteration ∧
      Keeps config (loop.iterate config iteration) iterations

end ClosedLoop

/-- The compensation of a load minimum is what is calculated for some load, demand and
requests. -/
def ExternalInputs.Compensated (inputs : ExternalInputs) : Prop :=
  inputs.loadMethod = .loadMinimum →
    ∃ siteKWLoad siteKWDemand essKWRequest genKWRequest solarKWRequest,
      inputs.additionalLoadCompensation = calculateAdditionalLoadCompensation .loadMinimum
        siteKWLoad siteKWDemand essKWRequest genKWRequest solarKWRequest

/-- Such a compensation is any that is not negative. -/
theorem ExternalInputs.compensated_iff (inputs : ExternalInputs) : inputs.Compensated ↔
    (inputs.loadMethod = .loadMinimum → 0 ≤ inputs.additionalLoadCompensation) := by
  refine imp_congr_right fun _ =>
    ⟨?_, fun hnonneg => ⟨inputs.additionalLoadCompensation, 0, 0, 0, 0, ?_⟩⟩
  · rintro ⟨siteKWLoad, siteKWDemand, essKWRequest, genKWRequest, solarKWRequest, heq⟩
    rw [heq]
    exact zeroCheck_nonneg _
  · simp [calculateAdditionalLoadCompensation, zeroCheck_eq_max, hnonneg]

/-- The productions are within their rated values, and the load is compensated. -/
def Iteration.Rated : Iteration → Prop
  | .enabled inputs _ =>
    inputs.Compensated ∧
      inputs.totalSiteKWRatedCharge ≤ inputs.productionLimits.siteKWChargeProduction ∧
      inputs.productionLimits.siteKWDischargeProduction ≤ inputs.totalSiteKWRatedDischarge
  | .disabled => True
  | .shutdown => True

/-- A configuration whose values fit together. -/
structure ClosedLoopConfig.Sane (config : ClosedLoopConfig) : Prop where
  minOffset_nonpos : config.minOffset ≤ 0
  maxOffset_nonneg : 0 ≤ config.maxOffset
  defaultOffset_mem : config.minOffset ≤ config.defaultOffset ∧
    config.defaultOffset ≤ config.maxOffset
  stepSizeKW_nonneg : 0 ≤ config.stepSizeKW
  decreaseTimerMs_gt : -config.updateRate < config.decreaseTimerMs
  increaseTimerMs_gt : -config.updateRate < config.increaseTimerMs

/-! ## Numbers -/

/-- A value up to zero is cut towards zero. -/
theorem toInt_of_nonpos {x : ℚ} (hx : x ≤ 0) : x ≤ toInt x ∧ toInt x ≤ 0 := by
  unfold toInt
  split
  · exact ⟨Int.le_ceil x, Int.ceil_le.mpr (by simpa using hx)⟩
  · rename_i hnonneg
    have hzero : x = 0 := le_antisymm hx (not_lt.mp hnonneg)
    simp [hzero]

/-- So is one from zero on. -/
theorem toInt_of_nonneg {x : ℚ} (hx : 0 ≤ x) : 0 ≤ toInt x ∧ toInt x ≤ x := by
  unfold toInt
  rw [if_neg (not_lt.mpr hx)]
  exact ⟨Int.floor_nonneg.mpr hx, Int.floor_le x⟩

/-- Above minus one nothing negative is left. -/
theorem toInt_nonneg_iff {x : ℚ} : 0 ≤ toInt x ↔ -1 < x := by
  by_cases hneg : x < 0
  · rw [toInt, if_pos hneg]
    have hceil : -1 < ⌈x⌉ ↔ ((-1 : ℤ) : ℚ) < x := Int.lt_ceil
    rw [show ((-1 : ℤ) : ℚ) = -1 by norm_num] at hceil
    rw [← hceil]
    omega
  · have hx : 0 ≤ x := not_lt.mp hneg
    constructor
    · intro _
      linarith
    · intro _
      exact (toInt_of_nonneg hx).1

/-- A range check gives a value in its range. -/
theorem rangeCheckInt_mem (value : ℤ) {high low : ℤ} (hle : low ≤ high) :
    low ≤ rangeCheckInt value high low ∧ rangeCheckInt value high low ≤ high := by
  unfold rangeCheckInt
  split
  · split
    · omega
    · omega
  · omega

/-! ## What the regulator keeps -/

namespace VariableRegulator

/-- Every timer is between zero and its duration. -/
structure TimersIn (regulator : VariableRegulator) : Prop where
  decrease : 0 ≤ regulator.decreaseTimerCount ∧
    regulator.decreaseTimerCount ≤ regulator.decreaseTimerDuration
  increase : 0 ≤ regulator.increaseTimerCount ∧
    regulator.increaseTimerCount ≤ regulator.increaseTimerDuration

/-- The limits and the default offset are the same. -/
structure SameLimits (regulator regulator' : VariableRegulator) : Prop where
  minOffset : regulator'.minOffset = regulator.minOffset
  maxOffset : regulator'.maxOffset = regulator.maxOffset
  defaultOffset : regulator'.defaultOffset = regulator.defaultOffset

variable {regulator : VariableRegulator}

/-- A regulator has its own limits. -/
theorem SameLimits.refl (regulator : VariableRegulator) : SameLimits regulator regulator :=
  ⟨rfl, rfl, rfl⟩

/-- A reset leaves the timers in their durations. -/
theorem TimersIn.reset (htimers : regulator.TimersIn) : regulator.reset.TimersIn := by
  obtain ⟨hdecrease, hincrease⟩ := htimers
  constructor
  · simp only [VariableRegulator.reset]
    omega
  · simp only [VariableRegulator.reset]
    omega

/-- So does the update of the decrease timer. -/
theorem TimersIn.updateDecreaseTimer (htimers : regulator.TimersIn) (controlValue : ℚ) :
    (regulator.updateDecreaseTimer controlValue).TimersIn := by
  have hdecrease := htimers.decrease
  have hincrease := htimers.increase
  unfold VariableRegulator.updateDecreaseTimer
  split
  · exact htimers
  split
  · split
    · exact ⟨by simp only; omega, hincrease⟩
    split
    · exact ⟨by simp only; omega, hincrease⟩
    · exact htimers
  split
  · exact ⟨by simp only; omega, hincrease⟩
  · exact htimers

/-- So does the update of the increase timer. -/
theorem TimersIn.updateIncreaseTimer (htimers : regulator.TimersIn) (controlValue : ℚ) :
    (regulator.updateIncreaseTimer controlValue).TimersIn := by
  have hdecrease := htimers.decrease
  have hincrease := htimers.increase
  unfold VariableRegulator.updateIncreaseTimer
  split
  · exact htimers
  split
  · split
    · exact ⟨hdecrease, by simp only; omega⟩
    split
    · exact ⟨hdecrease, by simp only; omega⟩
    · exact htimers
  split
  · exact ⟨hdecrease, by simp only; omega⟩
  · exact htimers

/-- The timers are no limits. -/
theorem sameLimits_updateDecreaseTimer (regulator : VariableRegulator) (controlValue : ℚ) :
    SameLimits regulator (regulator.updateDecreaseTimer controlValue) := by
  unfold updateDecreaseTimer
  split_ifs <;> constructor <;> simp only

/-- Neither is the other one. -/
theorem sameLimits_updateIncreaseTimer (regulator : VariableRegulator) (controlValue : ℚ) :
    SameLimits regulator (regulator.updateIncreaseTimer controlValue) := by
  unfold updateIncreaseTimer
  split_ifs <;> constructor <;> simp only

/-- Regulating keeps the timers within their durations, and the limits. -/
theorem regulateVariableOffset_keeps (htimers : regulator.TimersIn) (currentTime : Timespec)
    (baseCaseInput regulationInput : ℚ) :
    (regulator.regulateVariableOffset currentTime baseCaseInput regulationInput).1.TimersIn ∧
      SameLimits regulator
        (regulator.regulateVariableOffset currentTime baseCaseInput regulationInput).1 := by
  unfold regulateVariableOffset
  split
  · exact ⟨⟨htimers.decrease, htimers.increase⟩, ⟨rfl, rfl, rfl⟩⟩
  simp only
  split
  · exact ⟨htimers, SameLimits.refl regulator⟩
  simp only
  split
  · have hreset := htimers.reset
    exact ⟨⟨hreset.decrease, hreset.increase⟩, ⟨rfl, rfl, rfl⟩⟩
  · have hdown := sameLimits_updateDecreaseTimer regulator regulationInput
    have hup := sameLimits_updateIncreaseTimer (regulator.updateDecreaseTimer regulationInput)
      regulationInput
    have hcounted := (htimers.updateDecreaseTimer regulationInput).updateIncreaseTimer
      regulationInput
    refine ⟨⟨hcounted.decrease, hcounted.increase⟩, ?_⟩
    exact ⟨hup.minOffset.trans hdown.minOffset, hup.maxOffset.trans hdown.maxOffset,
      hup.defaultOffset.trans hdown.defaultOffset⟩

/-- A regulator that has not started keeps its offset. -/
theorem regulateVariableOffset_first (hstarted : regulator.timerStarted = false)
    (currentTime : Timespec) (baseCaseInput regulationInput : ℚ) :
    (regulator.regulateVariableOffset currentTime baseCaseInput regulationInput).1 =
      {regulator with timerStarted := true, prevTime := currentTime} := by
  rw [regulateVariableOffset, if_pos hstarted]

end VariableRegulator

/-! ## What the feature keeps -/

section Powers

variable {inputs : ExternalInputs} {currentTime : Timespec}

/-- Within rated productions, what is left is the distance of the demand to the rated values. -/
theorem Iteration.Rated.powers (hrated : (Iteration.enabled inputs currentTime).Rated) :
    inputs.negativePowerAvailable = inputs.totalSiteKWRatedCharge - inputs.siteKWDemand ∧
      inputs.positivePowerAvailable = inputs.totalSiteKWRatedDischarge - inputs.siteKWDemand ∧
      inputs.totalSiteKWRatedCharge ≤ inputs.siteKWDemand ∧
      inputs.siteKWDemand ≤ inputs.totalSiteKWRatedDischarge := by
  obtain ⟨hcompensation, hcharge, hdischarge⟩ := hrated
  have hsplits : SplitsDemand inputs.productionLimits inputs.siteKWDemand :=
    calculateSiteKWProductionLimits_splits inputs.essKWRequest inputs.genKWRequest
      inputs.solarKWRequest inputs.featureKWDemand inputs.siteKWDemand
      (inputs.compensated_iff.mp hcompensation)
  have hnonpos := hsplits.charge_nonpos
  have hnonneg := hsplits.discharge_nonneg
  have hsum := hsplits.sum_eq
  have hleft : lessThanZeroCheck (inputs.totalSiteKWRatedCharge -
      inputs.productionLimits.siteKWChargeProduction) =
      inputs.totalSiteKWRatedCharge - inputs.productionLimits.siteKWChargeProduction := by
    rw [lessThanZeroCheck_eq_min, min_eq_right]
    linarith
  have hright : zeroCheck (inputs.totalSiteKWRatedDischarge -
      inputs.productionLimits.siteKWDischargeProduction) =
      inputs.totalSiteKWRatedDischarge - inputs.productionLimits.siteKWDischargeProduction := by
    rw [zeroCheck_eq_max, max_eq_right]
    linarith
  refine ⟨?_, ?_, by linarith, by linarith⟩
  · rw [ExternalInputs.negativePowerAvailable, hleft, min_eq_right hdischarge]
    linarith
  · rw [ExternalInputs.positivePowerAvailable, hright, max_eq_right hcharge]
    linarith

end Powers

namespace ClosedLoop

/-- What holds in every state of a run. -/
structure Sound (config : ClosedLoopConfig) (loop : ClosedLoop) : Prop where
  offset_mem : config.minOffset ≤ loop.regulator.offset ∧ loop.regulator.offset ≤ config.maxOffset
  timers : loop.regulator.TimersIn
  defaultOffset : loop.regulator.defaultOffset = config.defaultOffset
  stepSizeKW_nonneg : 0 ≤ loop.stepSizeKW

variable {config : ClosedLoopConfig} {loop : ClosedLoop} {inputs : ExternalInputs}
  {currentTime : Timespec}

/-- The divisor is positive. -/
theorem divisor_pos {stepSizeKW : ℚ} (hnonneg : 0 ≤ stepSizeKW) : 0 < divisor stepSizeKW := by
  unfold divisor
  split
  · exact one_pos
  · rename_i hne
    exact lt_of_le_of_ne hnonneg (Ne.symm hne)

/-- The limits of an iteration are within the configured ones, and a correction within them stays
within the rated values. -/
theorem limited_mem (hsane : config.Sane) (hnonneg : 0 ≤ loop.stepSizeKW)
    (hrated : (Iteration.enabled inputs currentTime).Rated) :
    config.minOffset ≤ (loop.limited config inputs).minOffset ∧
      (loop.limited config inputs).minOffset ≤ 0 ∧
      0 ≤ (loop.limited config inputs).maxOffset ∧
      (loop.limited config inputs).maxOffset ≤ config.maxOffset ∧
      inputs.totalSiteKWRatedCharge ≤ inputs.siteKWDemand +
        (loop.limited config inputs).minOffset * divisor loop.stepSizeKW ∧
      inputs.siteKWDemand + (loop.limited config inputs).maxOffset * divisor loop.stepSizeKW ≤
        inputs.totalSiteKWRatedDischarge := by
  obtain ⟨hnegative, hpositive, hcharge, hdischarge⟩ := hrated.powers
  have hpos := divisor_pos hnonneg
  have hleft := toInt_of_nonpos (x := inputs.negativePowerAvailable / divisor loop.stepSizeKW)
    (div_nonpos_of_nonpos_of_nonneg (by linarith) hpos.le)
  have hright := toInt_of_nonneg (x := inputs.positivePowerAvailable / divisor loop.stepSizeKW)
    (div_nonneg (by linarith) hpos.le)
  have hleft' := (div_le_iff₀ hpos).mp hleft.1
  have hright' := (le_div_iff₀ hpos).mp hright.2
  have hmin := hsane.minOffset_nonpos
  have hmax := hsane.maxOffset_nonneg
  unfold limited
  simp only
  refine ⟨?_, ?_, ?_, ?_, ?_, ?_⟩
  · split <;> omega
  · split <;> omega
  · split <;> omega
  · split <;> omega
  · have hle : (toInt (inputs.negativePowerAvailable / divisor loop.stepSizeKW) : ℚ) ≤
        ((if config.minOffset < toInt (inputs.negativePowerAvailable / divisor loop.stepSizeKW)
          then toInt (inputs.negativePowerAvailable / divisor loop.stepSizeKW)
          else config.minOffset : ℤ) : ℚ) := by
      rw [Int.cast_le]
      split <;> omega
    have hscaled := mul_le_mul_of_nonneg_right hle hpos.le
    linarith
  · have hle : ((if config.maxOffset > toInt (inputs.positivePowerAvailable / divisor loop.stepSizeKW)
          then toInt (inputs.positivePowerAvailable / divisor loop.stepSizeKW)
          else config.maxOffset : ℤ) : ℚ) ≤
        toInt (inputs.positivePowerAvailable / divisor loop.stepSizeKW) := by
      rw [Int.cast_le]
      split <;> omega
    have hscaled := mul_le_mul_of_nonneg_right hle hpos.le
    linarith

/-- An iteration of the feature keeps what holds, and its demand is within the rated values. -/
theorem Sound.execute (hsound : loop.Sound config) (hsane : config.Sane)
    (hmanual : config.manualOffsetKW = 0) (hrated : (Iteration.enabled inputs currentTime).Rated) :
    (loop.execute config inputs currentTime).1.Sound config ∧
      loop.DemandRated config (.enabled inputs currentTime) := by
  obtain ⟨-, -, hcharge, hdischarge⟩ := hrated.powers
  have hmin := hsane.minOffset_nonpos
  have hmax := hsane.maxOffset_nonneg
  unfold DemandRated ClosedLoop.execute
  simp only
  split
  · refine ⟨⟨⟨hmin, hmax⟩, ⟨hsound.timers.decrease, hsound.timers.increase⟩,
      hsound.defaultOffset, hsound.stepSizeKW_nonneg⟩, hcharge, hdischarge⟩
  · have hpos := divisor_pos hsound.stepSizeKW_nonneg
    obtain ⟨hmin', hnonpos, hnonneg, hmax', hlow, hhigh⟩ :=
      limited_mem hsane hsound.stepSizeKW_nonneg hrated
    have htimers : (loop.limited config inputs).TimersIn :=
      ⟨hsound.timers.decrease, hsound.timers.increase⟩
    obtain ⟨hregulated, hlimits⟩ := VariableRegulator.regulateVariableOffset_keeps htimers
      currentTime |inputs.currentCmd - loop.prevActivePowerFeatureCmd|
      (-1 * inputs.feederActualKW - inputs.currentCmd)
    generalize hregulator : (loop.limited config inputs).regulateVariableOffset currentTime
      |inputs.currentCmd - loop.prevActivePowerFeatureCmd|
      (-1 * inputs.feederActualKW - inputs.currentCmd) = regulated at hregulated hlimits ⊢
    have hle : regulated.1.minOffset ≤ regulated.1.maxOffset := by
      rw [hlimits.minOffset, hlimits.maxOffset]
      omega
    have hmem := rangeCheckInt_mem regulated.1.offset hle
    have hdefault : regulated.1.defaultOffset = config.defaultOffset :=
      hlimits.defaultOffset.trans hsound.defaultOffset
    rw [hlimits.minOffset, hlimits.maxOffset] at hmem ⊢
    have hlow' : ((loop.limited config inputs).minOffset : ℚ) * divisor loop.stepSizeKW ≤
        rangeCheckInt regulated.1.offset (loop.limited config inputs).maxOffset
          (loop.limited config inputs).minOffset * divisor loop.stepSizeKW :=
      mul_le_mul_of_nonneg_right (by exact_mod_cast hmem.1) hpos.le
    have hhigh' : (rangeCheckInt regulated.1.offset (loop.limited config inputs).maxOffset
          (loop.limited config inputs).minOffset : ℚ) * divisor loop.stepSizeKW ≤
        (loop.limited config inputs).maxOffset * divisor loop.stepSizeKW :=
      mul_le_mul_of_nonneg_right (by exact_mod_cast hmem.2) hpos.le
    refine ⟨⟨⟨by simp only; omega, by simp only; omega⟩,
      ⟨hregulated.decrease, hregulated.increase⟩, hdefault, hpos.le⟩, ?_, ?_⟩
    · rw [hmanual]
      linarith
    · rw [hmanual]
      linarith

/-- An iteration keeps a sound loop sound and its demand rated. -/
theorem Sound.iterate (hsound : loop.Sound config) (hsane : config.Sane)
    (hmanual : config.manualOffsetKW = 0) {iteration : Iteration} (hrated : iteration.Rated) :
    (loop.iterate config iteration).Sound config ∧ loop.DemandRated config iteration := by
  cases iteration with
  | enabled inputs currentTime => exact hsound.execute hsane hmanual hrated
  | disabled =>
    refine ⟨⟨?_, hsound.timers.reset, hsound.defaultOffset, hsound.stepSizeKW_nonneg⟩, trivial⟩
    simp only [ClosedLoop.iterate, VariableRegulator.reset, hsound.defaultOffset]
    exact hsane.defaultOffset_mem
  | shutdown =>
    exact ⟨⟨hsane.defaultOffset_mem, ⟨hsound.timers.decrease, hsound.timers.increase⟩,
      hsound.defaultOffset, hsound.stepSizeKW_nonneg⟩, trivial⟩

/-- A sound loop is bounded. -/
theorem Sound.bounded (hsound : loop.Sound config) : loop.Bounded config :=
  ⟨hsound.offset_mem, hsound.timers.decrease, hsound.timers.increase⟩

/-- A sound loop keeps its bounds over a run. -/
theorem Sound.keeps (hsound : loop.Sound config) (hsane : config.Sane)
    (hmanual : config.manualOffsetKW = 0) {iterations : List Iteration}
    (hrated : ∀ iteration ∈ iterations, iteration.Rated) : loop.Keeps config iterations := by
  induction iterations generalizing loop with
  | nil => exact hsound.bounded
  | cons iteration iterations ih =>
    rw [List.forall_mem_cons] at hrated
    obtain ⟨hnext, hdemand⟩ := hsound.iterate hsane hmanual hrated.1
    exact ⟨hsound.bounded, hdemand, ih hnext hrated.2⟩

/-! ## Configurations -/

/-- The update rate is positive. -/
theorem updateRate_pos (config : ClosedLoopConfig) : (0 : ℚ) < config.updateRate := by
  have hle : (10 : ℤ) ≤ config.updateRate := le_max_right _ _
  have hcast : ((10 : ℤ) : ℚ) ≤ config.updateRate := by exact_mod_cast hle
  norm_num at hcast
  linarith

/-- The duration of a timer is not negative if its milliseconds are not beyond an update before
zero. -/
theorem duration_nonneg_iff (config : ClosedLoopConfig) (durationInMs : ℤ) :
    0 ≤ toInt (durationInMs * (1000 / (config.updateRate : ℚ)) / 1000) ↔
      -config.updateRate < durationInMs := by
  have hpos := updateRate_pos config
  have hquotient : (durationInMs : ℚ) * (1000 / (config.updateRate : ℚ)) / 1000 =
      durationInMs / config.updateRate := by
    field_simp
  rw [toInt_nonneg_iff, hquotient, lt_div_iff₀ hpos, neg_one_mul]
  exact_mod_cast Iff.rfl

/-- A sane configuration starts sound. -/
theorem sound_init (hsane : config.Sane) (now : Timespec) : (config.init now).Sound config := by
  have hdecrease := (duration_nonneg_iff config config.decreaseTimerMs).mpr
    hsane.decreaseTimerMs_gt
  have hincrease := (duration_nonneg_iff config config.increaseTimerMs).mpr
    hsane.increaseTimerMs_gt
  constructor
  · exact hsane.defaultOffset_mem
  · exact ⟨⟨hdecrease, le_refl _⟩, ⟨hincrease, le_refl _⟩⟩
  · rfl
  · exact hsane.stepSizeKW_nonneg

end ClosedLoop

/-! ## The exact condition -/

/-- A site without demand that is asked for a power at the POI beyond the zero bypass. -/
def idleSite (config : ClosedLoopConfig) (ratedDischarge : ℚ) : ExternalInputs where
  siteKWDemand := 0
  additionalLoadCompensation := 0
  poiCmd := |config.zeroBypassDeadbandKW| + 1
  feederActualKW := 0
  essKWRequest := 0
  genKWRequest := 0
  solarKWRequest := 0
  loadMethod := .noCompensation
  featureKWDemand := 0
  totalSiteKWRatedCharge := 0
  totalSiteKWRatedDischarge := ratedDischarge
  feederMaxPotentialKW := 0

namespace ClosedLoop

variable {config : ClosedLoopConfig} {ratedDischarge : ℚ}

/-- The idle site produces nothing. -/
theorem idleSite_productionLimits : (idleSite config ratedDischarge).productionLimits = ⟨0, 0⟩ := by
  simp [ExternalInputs.productionLimits, idleSite, calculateSiteKWProductionLimits, zeroCheck,
    lessThanZeroCheck]

/-- Its productions are rated. -/
theorem idleSite_rated (config : ClosedLoopConfig) (hnonneg : 0 ≤ ratedDischarge) (currentTime : Timespec) :
    (Iteration.enabled (idleSite config ratedDischarge) currentTime).Rated := by
  refine ⟨?_, ?_, ?_⟩
  · simp [ExternalInputs.Compensated, idleSite]
  · rw [idleSite_productionLimits]
    exact le_refl (0 : ℚ)
  · rw [idleSite_productionLimits]
    exact hnonneg

/-- Its command is not bypassed. -/
theorem idleSite_notBypassed : bypassed config (idleSite config ratedDischarge) = false := by
  have hnonneg := abs_nonneg config.zeroBypassDeadbandKW
  have hcmd : (idleSite config ratedDischarge).currentCmd = |config.zeroBypassDeadbandKW| + 1 := by
    rw [ExternalInputs.currentCmd, if_pos]
    · rfl
    · simp only [idleSite]
      linarith
  have hbeyond : ¬ |(idleSite config ratedDischarge).currentCmd| ≤ |config.zeroBypassDeadbandKW| := by
    rw [hcmd, abs_of_pos (by linarith)]
    linarith
  simp [bypassed, hbeyond]

/-- The limits of an idle site. -/
theorem idleSite_limited (config : ClosedLoopConfig) (hnonneg : 0 ≤ ratedDischarge) (loop : ClosedLoop) :
    loop.limited config (idleSite config ratedDischarge) = {loop.regulator with
      minOffset := max config.minOffset 0
      maxOffset := min config.maxOffset (toInt (ratedDischarge / divisor loop.stepSizeKW))} := by
  obtain ⟨hnegative, hpositive, -, -⟩ :=
    (idleSite_rated config hnonneg ⟨0, 0⟩).powers
  have hnegative' : (idleSite config ratedDischarge).negativePowerAvailable = 0 := by
    rw [hnegative]
    simp [idleSite]
  have hpositive' : (idleSite config ratedDischarge).positivePowerAvailable = ratedDischarge := by
    rw [hpositive]
    simp [idleSite]
  have hzero : toInt 0 = 0 := by simp [toInt]
  unfold limited
  rw [hnegative', hpositive', zero_div, hzero]
  have hmin : (if config.minOffset < 0 then 0 else config.minOffset) = max config.minOffset 0 := by
    split <;> omega
  have hmax : (if config.maxOffset > toInt (ratedDischarge / divisor loop.stepSizeKW)
      then toInt (ratedDischarge / divisor loop.stepSizeKW) else config.maxOffset) =
      min config.maxOffset (toInt (ratedDischarge / divisor loop.stepSizeKW)) := by
    split <;> omega
  simp only [hmin, hmax]

/-- The offset of an idle site after the first iteration. -/
def firstOffset (config : ClosedLoopConfig) (ratedDischarge : ℚ) : ℤ :=
  rangeCheckInt config.defaultOffset
    (min config.maxOffset (toInt (ratedDischarge / divisor config.stepSizeKW)))
    (max config.minOffset 0)

/-- The first iteration of an idle site. -/
theorem idleSite_first (config : ClosedLoopConfig) (hnonneg : 0 ≤ ratedDischarge) (now : Timespec) :
    ((config.init now).execute config (idleSite config ratedDischarge) now).1.regulator.offset =
        firstOffset config ratedDischarge ∧
      ((config.init now).execute config (idleSite config ratedDischarge) now).2.siteKWDemand =
        config.manualOffsetKW + firstOffset config ratedDischarge * divisor config.stepSizeKW := by
  have hlimited := idleSite_limited config hnonneg (config.init now)
  have hstarted : ((config.init now).limited config
      (idleSite config ratedDischarge)).timerStarted = false := by
    rw [hlimited]
    rfl
  unfold ClosedLoop.execute
  simp only [idleSite_notBypassed]
  rw [VariableRegulator.regulateVariableOffset_first hstarted, hlimited]
  constructor
  · rfl
  · simp only [idleSite, zero_add]
    rfl

end ClosedLoop

open ClosedLoop

/-- At any rated discharge power the first iteration of an idle site keeps the offset within its
limits and the demand within the rated power. -/
def FirstWithin (config : ClosedLoopConfig) : Prop :=
  ∀ ratedDischarge : ℚ, 0 ≤ ratedDischarge →
    (config.minOffset ≤ firstOffset config ratedDischarge ∧
      firstOffset config ratedDischarge ≤ config.maxOffset) ∧
    0 ≤ firstOffset config ratedDischarge * divisor config.stepSizeKW ∧
      firstOffset config ratedDischarge * divisor config.stepSizeKW ≤ ratedDischarge

variable {config : ClosedLoopConfig}

/-- A run that keeps the bounds keeps those of the first correction. -/
theorem firstWithin_of_keeps (hmanual : config.manualOffsetKW = 0) (now : Timespec)
    (hkeeps : ∀ iterations : List Iteration, (∀ iteration ∈ iterations, iteration.Rated) →
      (config.init now).Keeps config iterations) : FirstWithin config := by
  intro ratedDischarge hnonneg
  have hkept := hkeeps [.enabled (idleSite config ratedDischarge) now]
    (by simpa using idleSite_rated config hnonneg now)
  obtain ⟨hoffset, hdemand⟩ := idleSite_first config hnonneg now
  obtain ⟨-, hrated, hbounded⟩ := hkept
  have hmem := hbounded.offset_mem
  simp only [DemandRated, iterate] at hrated hmem
  rw [hdemand, hmanual, zero_add] at hrated
  rw [hoffset] at hmem
  exact ⟨hmem, hrated⟩

/-- Without rated power the first offset is the default one, held at zero where the limits are. -/
theorem firstOffset_zero (config : ClosedLoopConfig) : firstOffset config 0 =
    rangeCheckInt config.defaultOffset (min config.maxOffset 0) (max config.minOffset 0) := by
  simp [firstOffset, toInt]

/-- Then the minimum is at most zero. -/
theorem FirstWithin.minOffset_nonpos (h : FirstWithin config)
    (hdefault : config.minOffset ≤ config.defaultOffset ∧ config.defaultOffset ≤ config.maxOffset) :
    config.minOffset ≤ 0 := by
  by_contra hpos
  have hzero : firstOffset config 0 = 0 := by
    rw [firstOffset_zero, rangeCheckInt, if_neg (by omega)]
    omega
  have hmem := (h 0 (le_refl 0)).1.1
  omega

/-- The maximum is at least zero. -/
theorem FirstWithin.maxOffset_nonneg (h : FirstWithin config) : 0 ≤ config.maxOffset := by
  by_contra hneg
  obtain ⟨hmem, hlow, hhigh⟩ := h 0 (le_refl 0)
  have hdivisor : divisor config.stepSizeKW ≠ 0 := by
    unfold divisor
    split
    · exact one_ne_zero
    · assumption
  have hproduct : (firstOffset config 0 : ℚ) * divisor config.stepSizeKW = 0 :=
    le_antisymm hhigh hlow
  rcases mul_eq_zero.mp hproduct with hzero | hzero
  · have hzero' : firstOffset config 0 = 0 := by exact_mod_cast hzero
    omega
  · exact hdivisor hzero

/-- With a negative step size, a rated power of just beyond the least offset leaves the limits. -/
theorem FirstWithin.stepSize_nonneg (h : FirstWithin config)
    (hdefault : config.minOffset ≤ config.defaultOffset ∧ config.defaultOffset ≤ config.maxOffset) :
    0 ≤ config.stepSizeKW := by
  by_contra hneg
  have hmin := h.minOffset_nonpos hdefault
  have hmax := h.maxOffset_nonneg
  have hstep : config.stepSizeKW < 0 := not_le.mp hneg
  have hdivisor : divisor config.stepSizeKW = config.stepSizeKW := by
    rw [divisor, if_neg hstep.ne]
  have hroom : (0 : ℚ) ≤ ((config.minOffset - 1 : ℤ) : ℚ) * config.stepSizeKW := by
    apply mul_nonneg_of_nonpos_of_nonpos _ hstep.le
    exact_mod_cast (by omega : config.minOffset - 1 ≤ 0)
  have hmem := (h _ hroom).1.1
  have htoInt : toInt ((config.minOffset - 1 : ℤ) : ℚ) = config.minOffset - 1 := by
    unfold toInt
    split
    · exact Int.ceil_intCast _
    · exact Int.floor_intCast _
  have hoffset : firstOffset config (((config.minOffset - 1 : ℤ) : ℚ) * config.stepSizeKW) =
      config.minOffset - 1 := by
    rw [firstOffset, hdivisor, mul_div_assoc, div_self hstep.ne, mul_one, htoInt,
      rangeCheckInt, if_neg (by omega)]
    omega
  omega

/-- The bounds are kept in every run exactly if the configuration is sane. -/
theorem closedLoop_keeps_iff {config : ClosedLoopConfig} (hmanual : config.manualOffsetKW = 0)
    (now : Timespec) :
    (∀ iterations : List Iteration, (∀ iteration ∈ iterations, iteration.Rated) →
      (config.init now).Keeps config iterations) ↔ config.Sane := by
  constructor
  · intro hkeeps
    have hinit : (config.init now).Bounded config := hkeeps [] (by simp)
    have hdefault : config.minOffset ≤ config.defaultOffset ∧
        config.defaultOffset ≤ config.maxOffset := hinit.offset_mem
    have hfirst := firstWithin_of_keeps hmanual now hkeeps
    constructor
    · exact hfirst.minOffset_nonpos hdefault
    · exact hfirst.maxOffset_nonneg
    · exact hdefault
    · exact hfirst.stepSize_nonneg hdefault
    · exact (duration_nonneg_iff config config.decreaseTimerMs).mp hinit.decrease_mem.1
    · exact (duration_nonneg_iff config config.increaseTimerMs).mp hinit.increase_mem.1
  · intro hsane iterations hrated
    exact (sound_init hsane now).keeps hsane hmanual hrated

/-- A configuration with a default step size and timers of a second. -/
def sampleConfig (minOffset maxOffset : ℤ) : ClosedLoopConfig where
  defaultOffset := minOffset
  minOffset := minOffset
  maxOffset := maxOffset
  stepSizeKW := 10
  zeroBypassEnable := true
  zeroBypassDeadbandKW := 5
  steadyStateDeadbandKW := 100
  regulationDeadbandKW := 5
  updateRateMs := 100
  decreaseTimerMs := 1000
  increaseTimerMs := 1000
  manualOffsetKW := 0

theorem sampleConfig_keeps_iff :
    (∀ iterations : List Iteration, (∀ iteration ∈ iterations, iteration.Rated) →
      ((sampleConfig (-20) 20).init ⟨0, 0⟩).Keeps (sampleConfig (-20) 20) iterations) ↔
    (sampleConfig (-20) 20).Sane :=
  closedLoop_keeps_iff (by rfl) ⟨0, 0⟩

/-- A least offset above zero has the offset leave its limits when no power is left. -/
theorem positiveMinimum_leaves :
    ¬ ∀ iterations : List Iteration, (∀ iteration ∈ iterations, iteration.Rated) →
      ((sampleConfig 1 5).init ⟨0, 0⟩).Keeps (sampleConfig 1 5) iterations := by
  intro hkeeps
  have hkept := hkeeps [.enabled (idleSite (sampleConfig 1 5) 0) ⟨0, 0⟩]
    (by simpa using idleSite_rated (sampleConfig 1 5) (le_refl 0) ⟨0, 0⟩)
  have hmem := hkept.2.2.offset_mem.1
  simp only [iterate, (idleSite_first (sampleConfig 1 5) (le_refl 0) ⟨0, 0⟩).1] at hmem
  simp [firstOffset, sampleConfig, rangeCheckInt, toInt] at hmem

end HybridOs.SiteClosedLoop
