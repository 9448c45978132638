import HybridOs.SiteUtils

/-!
# The charge control request of the ESS manager

A state of charge region with hysteresis is kept between calls. Each call moves
the region by the current state of charge and the target asked for, then
requests charge below the target and discharge above it, ramped with the
distance inside the near regions. Amounts are exact rationals.
-/

namespace HybridOs.SiteChargeControl

/-- Where the state of charge lies relative to the target. -/
inductive SOCState
  | onTarget | belowTarget | farBelowTarget | aboveTarget | farAboveTarget
  deriving DecidableEq, Repr

/-- The configured ranges around the target. -/
structure Deadband where
  /-- Distance at which a region next to the target is left for it. -/
  enteringSocRange : ℚ
  /-- Distance at which the target region is left. -/
  leavingSocRange : ℚ
  /-- Distance from which a region is far. -/
  farSocRange : ℚ
  /-- Distance over which the request ramps. -/
  chargeControlDivisor : ℚ
  deriving DecidableEq, Repr

/-- Nested ranges and a divisor to divide by. -/
structure Deadband.Nested (band : Deadband) : Prop where
  /-- Distances are not negative. -/
  entering_nonneg : 0 ≤ band.enteringSocRange
  /-- The target is entered no further out than it is left. -/
  entering_le_leaving : band.enteringSocRange ≤ band.leavingSocRange
  /-- Near regions end no further in than the target region. -/
  leaving_le_far : band.leavingSocRange ≤ band.farSocRange
  /-- The ramp has a length. -/
  divisor_pos : 0 < band.chargeControlDivisor

/-- What one call reads besides the region. -/
structure ChargeControlCall where
  /-- Average state of charge of the controllable ESS. -/
  controllableEssAvgSoc : ℚ
  /-- Target asked for. -/
  targetSocDesired : ℚ
  /-- Charge the controllable ESS can take. -/
  essTotalChargeablePowerKW : ℚ
  /-- Discharge the controllable ESS can give. -/
  essTotalDischargeablePowerKW : ℚ
  /-- Whether charging is forbidden. -/
  chargeDisable : Bool
  /-- Whether discharging is forbidden. -/
  dischargeDisable : Bool
  deriving DecidableEq, Repr

/-- The region after a look at the state of charge. -/
def updateSocStatus (band : Deadband) (targetSoc currentSoc : ℚ) (status : SOCState) : SOCState :=
  let leavingTargetBelow := targetSoc - band.leavingSocRange
  let leavingTargetAbove := targetSoc + band.leavingSocRange
  let returningTargetBelow := targetSoc - band.enteringSocRange
  let returningTargetAbove := targetSoc + band.enteringSocRange
  let farBelowTarget := targetSoc - band.farSocRange
  let farAboveTarget := targetSoc + band.farSocRange
  match status with
  | .farAboveTarget =>
    if currentSoc < farBelowTarget then .farBelowTarget
    else if currentSoc < leavingTargetBelow then .belowTarget
    else if currentSoc < returningTargetAbove then .onTarget
    else if currentSoc < farAboveTarget then .aboveTarget
    else .farAboveTarget
  | .aboveTarget =>
    if currentSoc > farAboveTarget then .farAboveTarget
    else if currentSoc < farBelowTarget then .farBelowTarget
    else if currentSoc < leavingTargetBelow then .belowTarget
    else if currentSoc < returningTargetAbove then .onTarget
    else .aboveTarget
  | .onTarget =>
    if currentSoc > farAboveTarget then .farAboveTarget
    else if currentSoc > leavingTargetAbove then .aboveTarget
    else if currentSoc < farBelowTarget then .farBelowTarget
    else if currentSoc < leavingTargetBelow then .belowTarget
    else .onTarget
  | .belowTarget =>
    if currentSoc > farAboveTarget then .farAboveTarget
    else if currentSoc > leavingTargetAbove then .aboveTarget
    else if currentSoc > returningTargetBelow then .onTarget
    else if currentSoc < farBelowTarget then .farBelowTarget
    else .belowTarget
  | .farBelowTarget =>
    if currentSoc > farAboveTarget then .farAboveTarget
    else if currentSoc > leavingTargetAbove then .aboveTarget
    else if currentSoc > returningTargetBelow then .onTarget
    else if currentSoc > farBelowTarget then .belowTarget
    else .farBelowTarget

/-- A flag as the factor it is multiplied by: forbidden is zero. -/
def notDisabled (disable : Bool) : ℚ := if disable then 0 else 1

/-- The request made in a region. -/
def chargeRequest (band : Deadband) (call : ChargeControlCall) (status : SOCState) : ℚ :=
  let returningTargetBelow := call.targetSocDesired - band.enteringSocRange
  let returningTargetAbove := call.targetSocDesired + band.enteringSocRange
  match status with
  | .farAboveTarget => notDisabled call.dischargeDisable * call.essTotalDischargeablePowerKW
  | .aboveTarget =>
    let request := notDisabled call.dischargeDisable * call.essTotalDischargeablePowerKW *
      ((call.controllableEssAvgSoc - returningTargetBelow) / band.chargeControlDivisor)
    if request > call.essTotalDischargeablePowerKW then call.essTotalDischargeablePowerKW
    else request
  | .onTarget => 0
  | .belowTarget =>
    let request := notDisabled call.chargeDisable * (-1) * call.essTotalChargeablePowerKW *
      ((returningTargetAbove - call.controllableEssAvgSoc) / band.chargeControlDivisor)
    if request < -1 * call.essTotalChargeablePowerKW then -1 * call.essTotalChargeablePowerKW
    else request
  | .farBelowTarget => notDisabled call.chargeDisable * (-1) * call.essTotalChargeablePowerKW

/-- `ESS_Manager::charge_control`: the region kept for the next call and the
request answered. -/
def chargeControl (band : Deadband) (status : SOCState) (call : ChargeControlCall) :
    SOCState × ℚ :=
  let status := updateSocStatus band call.targetSocDesired call.controllableEssAvgSoc status
  (status, chargeRequest band call status)

/-- One call of a run with what it left behind. -/
structure Answered where
  /-- What the call read. -/
  call : ChargeControlCall
  /-- Region stored after the call. -/
  socStatus : SOCState
  /-- Request answered. -/
  request : ℚ

/-- A run of calls, each starting from the region the one before it stored. -/
def chargeControlRun (band : Deadband) : SOCState → List ChargeControlCall → List Answered
  | _, [] => []
  | status, call :: calls =>
    let answer := chargeControl band status call
    ⟨call, answer.1, answer.2⟩ :: chargeControlRun band answer.1 calls

/-! ## The region agrees with the state of charge -/

/-- What a region says about the state of charge. -/
def RegionAgrees (band : Deadband) (targetSoc currentSoc : ℚ) : SOCState → Prop
  | .farAboveTarget => targetSoc + band.farSocRange ≤ currentSoc
  | .aboveTarget => targetSoc + band.enteringSocRange ≤ currentSoc
  | .onTarget => |currentSoc - targetSoc| ≤ band.leavingSocRange
  | .belowTarget => currentSoc ≤ targetSoc - band.enteringSocRange
  | .farBelowTarget => currentSoc ≤ targetSoc - band.farSocRange

variable {band : Deadband} {power : ℚ}

/-- One call stores a region that agrees, whatever region it found. -/
theorem updateSocStatus_agrees (hband : band.Nested) (targetSoc currentSoc : ℚ)
    (status : SOCState) :
    RegionAgrees band targetSoc currentSoc (updateSocStatus band targetSoc currentSoc status) := by
  have hleaving := hband.entering_le_leaving
  cases status with
  | farAboveTarget | aboveTarget | onTarget | belowTarget | farBelowTarget =>
    simp only [updateSocStatus]
    split_ifs <;> simp only [RegionAgrees, abs_le] <;> first | linarith | constructor <;> linarith

/-! ## The request -/

/-- The direction a region asks for. -/
def RequestDirection (request : ℚ) : SOCState → Prop
  | .farAboveTarget | .aboveTarget => 0 ≤ request
  | .onTarget => request = 0
  | .belowTarget | .farBelowTarget => request ≤ 0

/-- What is promised of a request. -/
structure RequestInBounds (call : ChargeControlCall) (status : SOCState) (request : ℚ) : Prop where
  /-- No more charge than there is room for. -/
  ge_charge : -call.essTotalChargeablePowerKW ≤ request
  /-- No more discharge than there is. -/
  le_discharge : request ≤ call.essTotalDischargeablePowerKW
  /-- Charge below the target, discharge above. -/
  direction : RequestDirection request status
  /-- No charge while charging is forbidden. -/
  charge_disabled : call.chargeDisable = true → 0 ≤ request
  /-- No discharge while discharging is forbidden. -/
  discharge_disabled : call.dischargeDisable = true → request ≤ 0

theorem notDisabled_bounds (disable : Bool) : 0 ≤ notDisabled disable ∧ notDisabled disable ≤ 1 := by
  unfold notDisabled
  split_ifs <;> norm_num

theorem notDisabled_of_true {disable : Bool} (h : disable = true) : notDisabled disable = 0 :=
  if_pos h

/-- A masked part of a power of at least zero lies between zero and the power. -/
theorem masked_bounds (disable : Bool) (hpower : 0 ≤ power) :
    0 ≤ notDisabled disable * power ∧ notDisabled disable * power ≤ power := by
  obtain ⟨hlow, hhigh⟩ := notDisabled_bounds disable
  constructor
  · exact mul_nonneg hlow hpower
  · exact mul_le_of_le_one_left hpower hhigh

/-- A masked ramp, clipped at the power. -/
def clippedRamp (disable : Bool) (power ramp : ℚ) : ℚ :=
  min power (notDisabled disable * power * ramp)

theorem clippedRamp_bounds (disable : Bool) {ramp : ℚ} (hpower : 0 ≤ power) (hramp : 0 ≤ ramp) :
    0 ≤ clippedRamp disable power ramp ∧ clippedRamp disable power ramp ≤ power := by
  have hmasked := (masked_bounds disable hpower).1
  constructor
  · exact le_min hpower (mul_nonneg hmasked hramp)
  · exact min_le_left _ _

theorem clippedRamp_of_disabled {disable : Bool} (ramp : ℚ) (hpower : 0 ≤ power)
    (h : disable = true) : clippedRamp disable power ramp = 0 := by
  unfold clippedRamp
  rw [notDisabled_of_true h, zero_mul, zero_mul, min_eq_right hpower]

/-- The request in the region just above is a clipped ramp of the discharge. -/
theorem chargeRequest_aboveTarget (band : Deadband) (call : ChargeControlCall) :
    chargeRequest band call .aboveTarget =
      clippedRamp call.dischargeDisable call.essTotalDischargeablePowerKW
        ((call.controllableEssAvgSoc - (call.targetSocDesired - band.enteringSocRange)) /
          band.chargeControlDivisor) := by
  simp only [chargeRequest]
  split_ifs with h
  · exact (min_eq_left h.le).symm
  · exact (min_eq_right (not_lt.mp h)).symm

/-- The request in the region just below is a clipped ramp of the charge. -/
theorem chargeRequest_belowTarget (band : Deadband) (call : ChargeControlCall) :
    chargeRequest band call .belowTarget =
      -clippedRamp call.chargeDisable call.essTotalChargeablePowerKW
        ((call.targetSocDesired + band.enteringSocRange - call.controllableEssAvgSoc) /
          band.chargeControlDivisor) := by
  have hsign : ∀ mask power ramp : ℚ, mask * (-1) * power * ramp = -(mask * power * ramp) := by
    intro mask power ramp
    ring
  simp only [chargeRequest, clippedRamp, hsign, neg_one_mul, neg_lt_neg_iff]
  split_ifs with h
  · rw [min_eq_left h.le]
  · rw [min_eq_right (not_lt.mp h)]

/-- With powers of at least zero the request made in a region that agrees with
the state of charge keeps its promises. -/
theorem chargeRequest_inBounds (hband : band.Nested) {call : ChargeControlCall}
    (hcharge : 0 ≤ call.essTotalChargeablePowerKW)
    (hdischarge : 0 ≤ call.essTotalDischargeablePowerKW) {status : SOCState}
    (hagrees : RegionAgrees band call.targetSocDesired call.controllableEssAvgSoc status) :
    RequestInBounds call status (chargeRequest band call status) := by
  have hentering := hband.entering_nonneg
  cases status with
  | farAboveTarget =>
    obtain ⟨hlow, hhigh⟩ := masked_bounds call.dischargeDisable hdischarge
    refine ⟨?_, hhigh, hlow, fun _ => hlow, ?_⟩
    · exact (neg_nonpos.mpr hcharge).trans hlow
    · intro hdisable
      simp only [chargeRequest, notDisabled_of_true hdisable, zero_mul, le_refl]
  | aboveTarget =>
    have hramp : 0 ≤ (call.controllableEssAvgSoc -
        (call.targetSocDesired - band.enteringSocRange)) / band.chargeControlDivisor := by
      apply div_nonneg _ hband.divisor_pos.le
      simp only [RegionAgrees] at hagrees
      linarith
    obtain ⟨hlow, hhigh⟩ := clippedRamp_bounds call.dischargeDisable hdischarge hramp
    rw [chargeRequest_aboveTarget]
    refine ⟨?_, hhigh, hlow, fun _ => hlow, ?_⟩
    · exact (neg_nonpos.mpr hcharge).trans hlow
    · intro hdisable
      exact (clippedRamp_of_disabled _ hdischarge hdisable).le
  | onTarget =>
    exact ⟨neg_nonpos.mpr hcharge, hdischarge, rfl, fun _ => le_rfl, fun _ => le_rfl⟩
  | belowTarget =>
    have hramp : 0 ≤ (call.targetSocDesired + band.enteringSocRange -
        call.controllableEssAvgSoc) / band.chargeControlDivisor := by
      apply div_nonneg _ hband.divisor_pos.le
      simp only [RegionAgrees] at hagrees
      linarith
    obtain ⟨hlow, hhigh⟩ := clippedRamp_bounds call.chargeDisable hcharge hramp
    rw [chargeRequest_belowTarget]
    have hnonpos := neg_nonpos.mpr hlow
    refine ⟨neg_le_neg hhigh, hnonpos.trans hdischarge, hnonpos, ?_, fun _ => hnonpos⟩
    intro hdisable
    rw [clippedRamp_of_disabled _ hcharge hdisable, neg_zero]
  | farBelowTarget =>
    have hsign : chargeRequest band call .farBelowTarget =
        -(notDisabled call.chargeDisable * call.essTotalChargeablePowerKW) := by
      simp only [chargeRequest]
      ring
    obtain ⟨hlow, hhigh⟩ := masked_bounds call.chargeDisable hcharge
    rw [hsign]
    have hnonpos := neg_nonpos.mpr hlow
    refine ⟨neg_le_neg hhigh, hnonpos.trans hdischarge, hnonpos, ?_, fun _ => hnonpos⟩
    intro hdisable
    rw [notDisabled_of_true hdisable, zero_mul, neg_zero]

/-! ## Runs of calls -/

/-- What one answered call keeps. -/
def Answered.Kept (band : Deadband) (answered : Answered) : Prop :=
  RegionAgrees band answered.call.targetSocDesired answered.call.controllableEssAvgSoc
    answered.socStatus ∧
  (0 ≤ answered.call.essTotalChargeablePowerKW → 0 ≤ answered.call.essTotalDischargeablePowerKW →
    RequestInBounds answered.call answered.socStatus answered.request)

theorem chargeControl_kept (hband : band.Nested) (status : SOCState) (call : ChargeControlCall) :
    Answered.Kept band
      ⟨call, (chargeControl band status call).1, (chargeControl band status call).2⟩ := by
  have hagrees := updateSocStatus_agrees hband call.targetSocDesired call.controllableEssAvgSoc
    status
  constructor
  · exact hagrees
  · intro hcharge hdischarge
    exact chargeRequest_inBounds hband hcharge hdischarge hagrees

/-- Over a run of calls with arbitrary readings, from any stored region, every
call leaves a region that agrees with the state of charge, and every request
made with powers of at least zero keeps its promises. -/
theorem chargeControlRun_kept {band : Deadband} (hband : band.Nested) (status : SOCState)
    (calls : List ChargeControlCall) :
    ∀ answered ∈ chargeControlRun band status calls, answered.Kept band := by
  induction calls generalizing status with
  | nil => simp [chargeControlRun]
  | cons call calls ih =>
    intro answered hmem
    rcases List.mem_cons.mp hmem with heq | hmem
    · rw [heq]
      exact chargeControl_kept hband status call
    · exact ih _ answered hmem

/-- Ranges of one, two and three percent, ramping over ten. -/
def narrowDeadband : Deadband := ⟨1, 2, 3, 10⟩

theorem narrowDeadband_nested : narrowDeadband.Nested := by
  constructor <;> norm_num [narrowDeadband]

/-- A call whose state of charge is half a percent off its target. -/
def nearCall (chargeable dischargeable : ℚ) : ChargeControlCall :=
  ⟨99 / 2, 50, chargeable, dischargeable, false, false⟩

/-- The third call of a run finds the charge far above its target, after the target region and
the one far below it, and asks for all that can be discharged. -/
theorem chargeControlRun_kept_farAbove :
    (⟨⟨45, 10, 100, 80, false, false⟩, .farAboveTarget, 80⟩ : Answered).Kept narrowDeadband := by
  refine chargeControlRun_kept narrowDeadband_nested .onTarget
    [nearCall 100 80, ⟨45, 50, 100, 80, true, false⟩, ⟨45, 10, 100, 80, false, false⟩] _ ?_
  norm_num [chargeControlRun, chargeControl, updateSocStatus, chargeRequest, nearCall,
    narrowDeadband, notDisabled]

/-- A discharge total below zero leaves no request in its range: the request
on target is zero. -/
theorem chargeControl_nearCall_exceeds :
    ¬ (∀ (band : Deadband), band.Nested → ∀ (status : SOCState) (calls : List ChargeControlCall),
      ∀ answered ∈ chargeControlRun band status calls,
        RegionAgrees band answered.call.targetSocDesired answered.call.controllableEssAvgSoc
          answered.socStatus ∧
        RequestInBounds answered.call answered.socStatus answered.request) := by
  intro hall
  have hmem : (⟨nearCall 100 (-1), .onTarget, 0⟩ : Answered) ∈
      chargeControlRun narrowDeadband .onTarget [nearCall 100 (-1)] := by
    norm_num [chargeControlRun, chargeControl, updateSocStatus, chargeRequest, nearCall,
      narrowDeadband]
  have hle := (hall narrowDeadband narrowDeadband_nested _ _ _ hmem).2.le_discharge
  norm_num [nearCall] at hle

end HybridOs.SiteChargeControl
