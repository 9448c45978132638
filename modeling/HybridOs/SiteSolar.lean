import HybridOs.ClippedShares

/-!
# Solar power distribution of the site controller

`Solar_Manager::update_asset_data` over a fleet of any size. The fleet is read
after its assets have been processed: the limits and potentials of an inverter
are fields. Numbers are those of a field `K` and the square root is handed in;
the model has no result once the code divides by zero or takes the root of a
negative number, where the floats of the code go on with infinities.
-/

namespace HybridOs.SiteSolar

open ClippedShares

/-- `demandMode`. -/
inductive DemandMode where
  | uncontrolled
  | indirect
  | direct
  | manual
  deriving DecidableEq, Repr

/-- `solar_curtailment_states`. -/
inductive CurtailmentState where
  | noCurtailment
  | partialCurtailment
  | fullCurtailment
  deriving DecidableEq, Repr

/-- The part of `Asset_Solar` that the distribution reads and writes. -/
structure AssetSolar (K : Type*) where
  isAvail : Bool
  isRunning : Bool
  inStandby : Bool
  inMaintenance : Bool
  assetControl : DemandMode
  /-- The slew control of maintenance mode is configured. -/
  maintActivePowerSlewRateCtlConfigured : Bool
  maintActivePowerSetpoint : K
  maintReactivePowerSetpoint : K
  ratedActivePower : K
  ratedApparentPower : K
  /-- Measured active power. -/
  activePower : K
  potentialReactivePower : K
  maxLimitedActivePower : K
  minLimitedActivePower : K
  curtailedActivePowerLimit : K
  /-- Component control value of the active power set point. -/
  activePowerSetpoint : K
  /-- Component control value of the reactive power set point. -/
  reactivePowerSetpoint : K

namespace AssetSolar

variable {K : Type*}

def getDemandMode (asset : AssetSolar K) : DemandMode :=
  if asset.inMaintenance then .uncontrolled else asset.assetControl

def isControllable (asset : AssetSolar K) : Bool :=
  asset.isAvail && asset.isRunning && !asset.inStandby && asset.getDemandMode != .uncontrolled

def setPotentialActivePowerLimit (asset : AssetSolar K) (limit : K) : AssetSolar K :=
  {asset with curtailedActivePowerLimit := limit}

variable [LinearOrder K]

def setActivePowerSetpoint (asset : AssetSolar K) (setpoint : K) : AssetSolar K :=
  {asset with
    activePowerSetpoint :=
      clip setpoint asset.maxLimitedActivePower asset.minLimitedActivePower}

variable [Field K]

def setReactivePowerSetpoint (asset : AssetSolar K) (setpoint : K) : AssetSolar K :=
  {asset with
    reactivePowerSetpoint :=
      clip setpoint asset.potentialReactivePower (-1 * asset.potentialReactivePower)}

/-- Maintenance mode overrides the set points. -/
def updateAsset (asset : AssetSolar K) : AssetSolar K :=
  if asset.inMaintenance then
    let active :=
      if asset.maintActivePowerSlewRateCtlConfigured then
        min (max asset.maintActivePowerSetpoint asset.minLimitedActivePower)
          asset.maxLimitedActivePower
      else asset.maintActivePowerSetpoint
    (asset.setActivePowerSetpoint active).setReactivePowerSetpoint asset.maintReactivePowerSetpoint
  else asset

/-- A controllable inverter is not in maintenance, so its set points are not overridden. -/
theorem updateAsset_of_controllable {asset : AssetSolar K} (h : asset.isControllable = true) :
    asset.updateAsset = asset := by
  unfold updateAsset
  cases hmaint : asset.inMaintenance with
  | false => rfl
  | true => simp [isControllable, getDemandMode, hmaint] at h

end AssetSolar

/-- The part of `Solar_Manager` that the distribution reads and writes. The fleet
has as many inverters as `numParsed` counts, and an index into it is in range. -/
structure SolarManager (K : Type*) (numParsed : ℕ) where
  pSolar : Fin numParsed → AssetSolar K
  numSolarControllable : ℕ
  lastTotalActivePowerkW : K
  solarTotalActivePowerkW : K
  solarTotalPotentialReactivePower : K
  solarTotalRatedActivePower : K
  solarTotalRatedApparentPower : K
  solarTargetActivePowerkW : K
  solarTargetReactivePowerkVAR : K
  solarCurtailmentEnabled : Bool
  solarCurtailmentState : CurtailmentState
  /-- The prime inverter; none for the index `-1`. -/
  solarPrimeIndex : Option (Fin numParsed)
  curtailmentDeadbandPercentage : K

namespace SolarManager

variable {K : Type*} {n : ℕ}

/-- The inverters the distribution commands. -/
def controllable (manager : SolarManager K n) : Finset (Fin n) :=
  Finset.univ.filter fun i => (manager.pSolar i).isControllable = true

theorem mem_controllable {manager : SolarManager K n} {i : Fin n} :
    i ∈ manager.controllable ↔ (manager.pSolar i).isControllable = true := by
  simp [controllable]

variable [Field K] [LinearOrder K]

/-- `aggregate_solar_data`, for the totals that the distribution reads. -/
def aggregateSolarData (manager : SolarManager K n) : SolarManager K n :=
  {manager with
    numSolarControllable := manager.controllable.card
    solarTotalActivePowerkW := ∑ i ∈ manager.controllable, (manager.pSolar i).activePower
    solarTotalPotentialReactivePower :=
      ∑ i ∈ manager.controllable, (manager.pSolar i).potentialReactivePower
    solarTotalRatedActivePower := ∑ i ∈ manager.controllable, (manager.pSolar i).ratedActivePower
    solarTotalRatedApparentPower :=
      ∑ i ∈ manager.controllable, (manager.pSolar i).ratedApparentPower}

/-- Keep a controllable prime inverter, else take the first controllable one. An
index of `-1` is first reset to that of the first inverter. -/
def solarPrimeInverterSelection (manager : SolarManager K n) : Option (Fin n) :=
  let current := manager.solarPrimeIndex <|> (List.finRange n).head?
  match current with
  | none => none
  | some index =>
    if (manager.pSolar index).isControllable then some index
    else (List.finRange n).find? fun i => (manager.pSolar i).isControllable

/-- The next state of the curtailment machine, from the measured output and the command. -/
def findNextCurtailmentState (manager : SolarManager K n) (prime : Fin n) : CurtailmentState :=
  let deadbandPower := manager.curtailmentDeadbandPercentage * manager.solarTotalRatedActivePower
  let target := manager.solarTargetActivePowerkW
  match manager.solarCurtailmentState with
  | .noCurtailment =>
    if target < manager.solarTotalActivePowerkW - deadbandPower then .partialCurtailment
    else .noCurtailment
  | .partialCurtailment =>
    if target < (manager.pSolar prime).activePower then .fullCurtailment
    else if target > manager.solarTotalActivePowerkW - deadbandPower ∧
        manager.solarTotalActivePowerkW > manager.lastTotalActivePowerkW then .noCurtailment
    else .partialCurtailment
  | .fullCurtailment =>
    if target > (manager.pSolar prime).activePower + deadbandPower ∨
        target = (manager.pSolar prime).ratedActivePower then .partialCurtailment
    else .fullCurtailment

/-- One pass over the fleet, each inverter by its index. -/
def eachSolar (manager : SolarManager K n) (f : Fin n → AssetSolar K → Option (AssetSolar K)) :
    Option (SolarManager K n) :=
  (allSome fun i => f i (manager.pSolar i)).map fun fleet => {manager with pSolar := fleet}

/-- How much active power each inverter could be commanded to produce. -/
def calculateSolarTotalPotentialActivePower (manager : SolarManager K n) (prime : Fin n) :
    SolarManager K n :=
  let limit (i : Fin n) : K :=
    match manager.solarCurtailmentState with
    | .noCurtailment => (manager.pSolar i).activePower
    | .partialCurtailment =>
      if (manager.pSolar i).activePower < (manager.pSolar prime).activePower then
        (manager.pSolar prime).activePower
      else (manager.pSolar i).activePower * (1 + manager.curtailmentDeadbandPercentage)
    | .fullCurtailment => if i ≠ prime then 0 else (manager.pSolar prime).ratedActivePower
  {manager with
    pSolar := fun i =>
      if (manager.pSolar i).isControllable then
        (manager.pSolar i).setPotentialActivePowerLimit (limit i)
      else manager.pSolar i}

/-- The share of a curtailed inverter; where the others produce nothing the rest is
divided equally. -/
def weightedShare (targetPowerWithoutPrime totalPowerWithoutPrime numNonPrime activePower : K) :
    Option K :=
  if totalPowerWithoutPrime = 0 then quotient targetPowerWithoutPrime numNonPrime
  else (quotient activePower totalPowerWithoutPrime).map (targetPowerWithoutPrime * ·)

/-- Active power commands by curtailment state. -/
def calculateSolarTargetActivePower (manager : SolarManager K n) (prime : Fin n) :
    Option (SolarManager K n) :=
  match manager.solarCurtailmentState with
  | .noCurtailment =>
    manager.eachSolar fun _ inverter =>
      if inverter.isControllable then
        some (inverter.setActivePowerSetpoint inverter.ratedActivePower)
      else some inverter
  | .partialCurtailment =>
    let targetPowerWithoutPrime :=
      manager.solarTargetActivePowerkW - (manager.pSolar prime).activePower
    let totalPowerWithoutPrime :=
      manager.solarTotalActivePowerkW - (manager.pSolar prime).activePower
    let numNonPrime : K := manager.numSolarControllable - 1
    manager.eachSolar fun i inverter =>
      if i = prime then some (inverter.setActivePowerSetpoint inverter.ratedActivePower)
      else if inverter.isControllable then
        (weightedShare targetPowerWithoutPrime totalPowerWithoutPrime numNonPrime
          inverter.activePower).map inverter.setActivePowerSetpoint
      else some inverter
  | .fullCurtailment =>
    manager.eachSolar fun i inverter =>
      if i = prime then some (inverter.setActivePowerSetpoint manager.solarTargetActivePowerkW)
      else if inverter.isControllable then some (inverter.setActivePowerSetpoint 0)
      else some inverter

/-- The unbounded reactive command `spq` of the prime inverter, from its active command and
rating (`spp`, `sps`), those of the rest of the fleet (`bcp`, `brs`) and the total `tq`. -/
def balancedPrimeCommand (sqrt : K → K) (spp sps bcp brs tq : K) : Option K := do
  let primeLoad ← quotient spp sps
  let curtailedLoad ← quotient (← squareRoot sqrt (bcp ^ 2 + tq ^ 2)) brs
  -- inherent imbalance: the prime inverter is the more loaded side even without the total
  if primeLoad > curtailedLoad then some 0
  else do
    let primeWithAll ← quotient (← squareRoot sqrt (spp ^ 2 + tq ^ 2)) sps
    let curtailedWithNone ← quotient bcp brs
    if primeWithAll < curtailedWithNone then some tq
    else if sps ≠ brs then do
      let root ← squareRoot sqrt (brs ^ 2 * sps ^ 2 * spp ^ 2 + brs ^ 2 * sps ^ 2 * bcp ^ 2 +
        brs ^ 2 * sps ^ 2 * tq ^ 2 - brs ^ 4 * spp ^ 2 - sps ^ 4 * bcp ^ 2)
      quotient (sps ^ 2 * tq - root) (sps ^ 2 - brs ^ 2)
    else quotient (bcp ^ 2 + tq ^ 2 - spp ^ 2) (2 * tq)

/-- The reactive command of the prime inverter and that of every curtailed one, so that
the apparent power is balanced between them. -/
def calculateSolarReactivePowerCommands (sqrt : K → K) (manager : SolarManager K n)
    (prime : Fin n) : Option (K × K) := do
  let tq := |manager.solarTargetReactivePowerkVAR|
  let direction : Bool := manager.solarTargetReactivePowerkVAR < 0
  let spp := (manager.pSolar prime).activePower
  let sps := (manager.pSolar prime).ratedApparentPower
  let bcp := manager.solarTargetActivePowerkW - spp
  let brs := manager.solarTotalRatedApparentPower - sps
  let spq ← balancedPrimeCommand sqrt spp sps bcp brs tq
  let spq := if spq < 0 then 0 else if spq > tq then tq else spq
  let bcq := tq - spq
  let bnq ← quotient bcq (manager.numSolarControllable - 1)
  some (if direction then (-spq, -bnq) else (spq, bnq))

/-- The two reactive commands by curtailment state; a total that is not positive gives zeros. -/
def solarReactivePowerCommands (sqrt : K → K) (manager : SolarManager K n) (prime : Fin n) :
    Option (K × K) :=
  if manager.solarTargetReactivePowerkVAR > 0 then
    if manager.solarCurtailmentState = .noCurtailment then
      if manager.numSolarControllable > 0 then
        (quotient manager.solarTargetReactivePowerkVAR manager.numSolarControllable).map
          fun command => (command, command)
      else some (0, 0)
    else if manager.numSolarControllable ≤ 1 then some (manager.solarTargetReactivePowerkVAR, 0)
    else manager.calculateSolarReactivePowerCommands sqrt prime
  else some (0, 0)

/-- Hand the reactive commands to the prime inverter and to the curtailed ones. -/
def calculateSolarTargetReactivePower (sqrt : K → K) (manager : SolarManager K n)
    (prime : Fin n) : Option (SolarManager K n) := do
  let commands ← manager.solarReactivePowerCommands sqrt prime
  manager.eachSolar fun i inverter =>
    if i = prime then some (inverter.setReactivePowerSetpoint commands.1)
    else if inverter.isControllable then some (inverter.setReactivePowerSetpoint commands.2)
    else some inverter

/-- Divide the commands among the controllable inverters: the active one by rated power,
the reactive one by potential. -/
def distributeByRating (manager : SolarManager K n) : Option (SolarManager K n) :=
  manager.eachSolar fun _ asset =>
    if asset.isControllable then do
      let asset := asset.setPotentialActivePowerLimit asset.ratedActivePower
      let activePart ← quotient asset.ratedActivePower manager.solarTotalRatedActivePower
      let asset := asset.setActivePowerSetpoint (manager.solarTargetActivePowerkW * activePart)
      let reactivePart ←
        quotient asset.potentialReactivePower manager.solarTotalPotentialReactivePower
      some (asset.setReactivePowerSetpoint (manager.solarTargetReactivePowerkVAR * reactivePart))
    else some asset

/-- The curtailment algorithm, on a prime inverter selected once more. -/
def curtail (sqrt : K → K) (manager : SolarManager K n) : Option (SolarManager K n) :=
  let manager := {manager with solarPrimeIndex := manager.solarPrimeInverterSelection}
  match manager.solarPrimeIndex with
  | none => some manager
  | some prime =>
    if manager.numSolarControllable > 0 then do
      let manager := {manager with solarCurtailmentState := manager.findNextCurtailmentState prime}
      let manager := manager.calculateSolarTotalPotentialActivePower prime
      let manager ← manager.calculateSolarTargetActivePower prime
      manager.calculateSolarTargetReactivePower sqrt prime
    else some manager

/-- Update every asset and remember the total of this pass. -/
def updateAssets (manager : SolarManager K n) : SolarManager K n :=
  {manager with
    pSolar := fun i => (manager.pSolar i).updateAsset
    lastTotalActivePowerkW := manager.solarTotalActivePowerkW}

/-- `update_asset_data`; the assets are updated a second time after the distribution. -/
def updateAssetData (sqrt : K → K) (manager : SolarManager K n) : Option (SolarManager K n) := do
  let manager := {manager with solarPrimeIndex := manager.solarPrimeInverterSelection}
  let manager ←
    if manager.solarPrimeIndex.isSome ∧ manager.numSolarControllable > 0 then do
      let manager ←
        if manager.solarCurtailmentEnabled then manager.curtail sqrt
        else if manager.numSolarControllable > 0 then manager.distributeByRating
        else some manager
      some manager.updateAssets
    else some manager
  some manager.updateAssets

end SolarManager

/-!
## Totals of the solar power distribution

One pass of `update_asset_data` over an aggregated fleet. Each stage is read as
a list of shares that the inverters clip to their limits; the shares of a stage
add up to its command. The balance of apparent power needs the root of a
number that its two guards keep from being negative.
-/

section Balance

/-- Past its two guards the balance takes the root of a number that is not negative. -/
theorem discriminant_nonneg {spp sps bcp brs tq : ℝ} (hsps : 0 < sps) (hbrs : 0 < brs)
    (hspp : 0 ≤ spp) (hside : sps ≤ brs ∨ 0 ≤ bcp) (hprime : ¬spp / sps > √(bcp ^ 2 + tq ^ 2) / brs)
    (hcurtailed : ¬√(spp ^ 2 + tq ^ 2) / sps < bcp / brs) :
    0 ≤ brs ^ 2 * sps ^ 2 * spp ^ 2 + brs ^ 2 * sps ^ 2 * bcp ^ 2 + brs ^ 2 * sps ^ 2 * tq ^ 2 -
      brs ^ 4 * spp ^ 2 - sps ^ 4 * bcp ^ 2 := by
  have hsquare : (spp * brs) ^ 2 ≤ (bcp ^ 2 + tq ^ 2) * sps ^ 2 := by
    have hle : spp * brs ≤ √(bcp ^ 2 + tq ^ 2) * sps :=
      (div_le_div_iff₀ hsps hbrs).mp (not_lt.mp hprime)
    have hpow := pow_le_pow_left₀ (mul_nonneg hspp hbrs.le) hle 2
    rwa [mul_pow _ sps, Real.sq_sqrt (by positivity)] at hpow
  have hfactored : brs ^ 2 * sps ^ 2 * spp ^ 2 + brs ^ 2 * sps ^ 2 * bcp ^ 2 +
      brs ^ 2 * sps ^ 2 * tq ^ 2 - brs ^ 4 * spp ^ 2 - sps ^ 4 * bcp ^ 2 =
      (brs ^ 2 - sps ^ 2) * ((bcp ^ 2 + tq ^ 2) * sps ^ 2 - (spp * brs) ^ 2) +
        (sps ^ 2 * tq) ^ 2 := by
    ring
  by_cases horder : sps ≤ brs
  · -- the rest of the fleet is the larger side
    have hsq : sps ^ 2 ≤ brs ^ 2 := pow_le_pow_left₀ hsps.le horder 2
    rw [hfactored]
    positivity
  · have hbcp : 0 ≤ bcp := hside.resolve_left horder
    have hother : (bcp * sps) ^ 2 ≤ (spp ^ 2 + tq ^ 2) * brs ^ 2 := by
      have hle : bcp * sps ≤ √(spp ^ 2 + tq ^ 2) * brs :=
        (div_le_div_iff₀ hbrs hsps).mp (not_lt.mp hcurtailed)
      have hpow := pow_le_pow_left₀ (mul_nonneg hbcp hsps.le) hle 2
      rwa [mul_pow _ brs, Real.sq_sqrt (by positivity)] at hpow
    have hsq : brs ^ 2 ≤ sps ^ 2 := pow_le_pow_left₀ hbrs.le (by linarith) 2
    have hfactored' : brs ^ 2 * sps ^ 2 * spp ^ 2 + brs ^ 2 * sps ^ 2 * bcp ^ 2 +
        brs ^ 2 * sps ^ 2 * tq ^ 2 - brs ^ 4 * spp ^ 2 - sps ^ 4 * bcp ^ 2 =
        (sps ^ 2 - brs ^ 2) * ((spp ^ 2 + tq ^ 2) * brs ^ 2 - (bcp * sps) ^ 2) +
          (brs ^ 2 * tq) ^ 2 := by
      ring
    rw [hfactored']
    positivity

end Balance

/-- An inverter without what the distribution writes: its limit and its set points. -/
def AssetSolar.readings {K : Type*} [Zero K] (asset : AssetSolar K) : AssetSolar K :=
  {asset with
    curtailedActivePowerLimit := 0
    activePowerSetpoint := 0
    reactivePowerSetpoint := 0}

namespace SolarManager

section Stages

variable {K : Type*} {n : ℕ}

/-- What the distribution reads of the fleet: everything but what it writes. -/
def readings [Zero K] (manager : SolarManager K n) : SolarManager K n :=
  {manager with
    pSolar := fun i => (manager.pSolar i).readings
    solarCurtailmentState := .noCurtailment}

/-- The totals that the distribution reads are those of the fleet. -/
structure Aggregated [Field K] (manager : SolarManager K n) : Prop where
  count : manager.numSolarControllable = manager.controllable.card
  active : manager.solarTotalActivePowerkW =
    ∑ i ∈ manager.controllable, (manager.pSolar i).activePower
  potential : manager.solarTotalPotentialReactivePower =
    ∑ i ∈ manager.controllable, (manager.pSolar i).potentialReactivePower
  rated : manager.solarTotalRatedActivePower =
    ∑ i ∈ manager.controllable, (manager.pSolar i).ratedActivePower
  apparent : manager.solarTotalRatedApparentPower =
    ∑ i ∈ manager.controllable, (manager.pSolar i).ratedApparentPower

theorem aggregateSolarData_aggregated [Field K] (manager : SolarManager K n) :
    manager.aggregateSolarData.Aggregated := by
  constructor <;> rfl

theorem readings_aggregated [Field K] {manager : SolarManager K n} :
    manager.readings.Aggregated ↔ manager.Aggregated := by
  constructor
  · intro h
    exact ⟨h.count, h.active, h.potential, h.rated, h.apparent⟩
  · intro h
    exact ⟨h.count, h.active, h.potential, h.rated, h.apparent⟩

variable {before after : SolarManager K n} {i : Fin n}

/-- Totals stay those of the fleet while what the distribution reads stays the same. -/
theorem Aggregated.of_readings [Field K] (h : before.Aggregated)
    (hread : after.readings = before.readings) : after.Aggregated := by
  rw [← readings_aggregated, hread, readings_aggregated]
  exact h

variable {prime : Fin n} {g : Fin n → AssetSolar K → AssetSolar K}

/-- With a prime inverter the number of controllable ones is not zero. -/
theorem numSolarControllable_pos [Field K] {manager : SolarManager K n}
    (htotals : manager.Aggregated) (hprime : (manager.pSolar prime).isControllable = true) :
    manager.numSolarControllable > 0 := by
  rw [htotals.count]
  exact Finset.card_pos.mpr ⟨prime, mem_controllable.mpr hprime⟩

theorem isControllable_of_readings [Zero K] (hread : after.readings = before.readings)
    (h : (before.pSolar i).isControllable = true) : (after.pSolar i).isControllable = true := by
  have hcontrol := congrArg (fun manager => (manager.pSolar i).isControllable) hread
  exact hcontrol.trans h

variable {manager : SolarManager K n}

/-- A selected prime inverter is controllable. -/
theorem solarPrimeInverterSelection_controllable
    (h : manager.solarPrimeInverterSelection = some prime) :
    (manager.pSolar prime).isControllable = true := by
  unfold solarPrimeInverterSelection at h
  dsimp only at h
  split at h
  · contradiction
  · split_ifs at h with hkeep
    · rw [← Option.some.inj h]
      exact hkeep
    · exact List.find?_some (p := fun i => (manager.pSolar i).isControllable) h

/-- Without a prime inverter none is controllable. -/
theorem solarPrimeInverterSelection_eq_none
    (h : manager.solarPrimeInverterSelection = none) (i : Fin n) :
    ¬(manager.pSolar i).isControllable = true := by
  unfold solarPrimeInverterSelection at h
  dsimp only at h
  split at h
  · -- the fleet is empty
    rename_i hcurrent
    have hmem := List.mem_finRange i
    cases hfleet : List.finRange n with
    | nil => simp [hfleet] at hmem
    | cons first rest => cases hindex : manager.solarPrimeIndex <;> simp [hfleet] at hcurrent
  · split_ifs at h with hkeep
    exact List.find?_eq_none.mp h i (List.mem_finRange i)

/-- A controllable prime inverter stays the prime one. -/
theorem solarPrimeInverterSelection_keeps (hindex : manager.solarPrimeIndex = some prime)
    (hprime : (manager.pSolar prime).isControllable = true) :
    manager.solarPrimeInverterSelection = some prime := by
  simp [solarPrimeInverterSelection, hindex, hprime]

variable {f : Fin n → AssetSolar K → Option (AssetSolar K)}

/-- A pass in which every inverter has a result. -/
theorem eachSolar_eq {g : Fin n → AssetSolar K} (h : ∀ i, f i (manager.pSolar i) = some (g i)) :
    manager.eachSolar f = some {manager with pSolar := g} := by
  unfold eachSolar
  rw [allSome_eq_some h, Option.map_some]

/-- Replace every controllable inverter. -/
def onControllable (manager : SolarManager K n) (f : Fin n → AssetSolar K → AssetSolar K) :
    SolarManager K n :=
  {manager with
    pSolar := fun i =>
      if (manager.pSolar i).isControllable then f i (manager.pSolar i) else manager.pSolar i}

theorem onControllable_pSolar {f : Fin n → AssetSolar K → AssetSolar K}
    (h : i ∈ manager.controllable) :
    (manager.onControllable f).pSolar i = f i (manager.pSolar i) := by
  unfold onControllable
  dsimp only
  rw [if_pos (mem_controllable.mp h)]

/-- A change of limits and set points keeps everything that the distribution reads. -/
theorem onControllable_readings [Zero K] {manager : SolarManager K n}
    {f : Fin n → AssetSolar K → AssetSolar K}
    (h : ∀ i asset, (f i asset).readings = asset.readings) :
    (manager.onControllable f).readings = manager.readings := by
  unfold onControllable SolarManager.readings
  congr 1
  funext i
  dsimp only
  split_ifs
  · exact h i _
  · rfl

/-- Two changes of the commanded inverters, one after the other. -/
theorem onControllable_onControllable {f : Fin n → AssetSolar K → AssetSolar K}
    (h : ∀ i asset, (f i asset).isControllable = asset.isControllable) :
    (manager.onControllable f).onControllable g =
      manager.onControllable fun i asset => g i (f i asset) := by
  unfold onControllable
  congr 1
  funext i
  by_cases hcontrol : (manager.pSolar i).isControllable = true
  · have hkept : (f i (manager.pSolar i)).isControllable = true := by
      rw [h i, hcontrol]
    simp only [if_pos hcontrol, if_pos hkept]
  · simp only [if_neg hcontrol]

/-- Every pass that leaves the other inverters alone is such a replacement. -/
theorem eachSolar_eq_onControllable (hcontrol : ∀ i, (manager.pSolar i).isControllable = true →
      f i (manager.pSolar i) = some (g i (manager.pSolar i)))
    (hother : ∀ i, ¬(manager.pSolar i).isControllable = true →
      f i (manager.pSolar i) = some (manager.pSolar i)) :
    manager.eachSolar f = some (manager.onControllable g) := by
  unfold onControllable
  apply eachSolar_eq
  intro i
  split_ifs with h
  · exact hcontrol i h
  · exact hother i h

/-- A pass that treats the prime inverter by itself. -/
theorem eachSolar_prime {f : Fin n → AssetSolar K → Option (AssetSolar K)}
    (hprime : (manager.pSolar prime).isControllable = true)
    (hself : f prime (manager.pSolar prime) = some (g prime (manager.pSolar prime)))
    (hcurtailed : ∀ i ∈ manager.controllable.erase prime,
      f i (manager.pSolar i) = some (g i (manager.pSolar i)))
    (hother : ∀ i, i ≠ prime → ¬(manager.pSolar i).isControllable = true →
      f i (manager.pSolar i) = some (manager.pSolar i)) :
    manager.eachSolar f = some (manager.onControllable g) := by
  apply eachSolar_eq_onControllable
  · intro i hcontrol
    by_cases hi : i = prime
    · rw [hi]
      exact hself
    · exact hcurtailed i (Finset.mem_erase.mpr ⟨hi, mem_controllable.mpr hcontrol⟩)
  · intro i hcontrol
    have hi : i ≠ prime := by
      intro heq
      rw [heq] at hcontrol
      exact hcontrol hprime
    exact hother i hi hcontrol

end Stages

section Active

variable {K : Type*} [Field K] [LinearOrder K] [IsStrictOrderedRing K] {n : ℕ}

/-- What the active commands of a curtailment state add up to: the rated powers, the rest of
the command beside a prime inverter at rated power, or the command on the prime inverter. -/
def ActiveCommands (manager : SolarManager K n) (state : CurtailmentState) (prime : Fin n)
    (share : Fin n → K) : Prop :=
  match state with
  | .noCurtailment => ∀ i ∈ manager.controllable, share i = (manager.pSolar i).ratedActivePower
  | .partialCurtailment =>
    share prime = (manager.pSolar prime).ratedActivePower ∧
      ((manager.controllable.erase prime).Nonempty →
        ∑ i ∈ manager.controllable.erase prime, share i =
          manager.solarTargetActivePowerkW - (manager.pSolar prime).activePower)
  | .fullCurtailment =>
    share prime = manager.solarTargetActivePowerkW ∧
      ∀ i ∈ manager.controllable.erase prime, share i = 0

theorem readings_activeCommands {K : Type*} [Field K] {n : ℕ} {manager : SolarManager K n} {state : CurtailmentState}
    {prime : Fin n} {share : Fin n → K} :
    manager.readings.ActiveCommands state prime share ↔
      manager.ActiveCommands state prime share := by
  cases state <;> exact Iff.rfl

/-- The number of curtailed inverters as the code computes it. -/
theorem card_erase_prime {K : Type*} [Field K] {n : ℕ} {manager : SolarManager K n} {prime : Fin n}
    (hprime : (manager.pSolar prime).isControllable = true) (h : manager.Aggregated) :
    ((manager.controllable.erase prime).card : K) = (manager.numSolarControllable : K) - 1 := by
  have hmem := mem_controllable.mpr hprime
  rw [h.count, Finset.card_erase_of_mem hmem, Nat.cast_pred (Finset.card_pos.mpr ⟨prime, hmem⟩)]

/-- Every curtailed inverter has a share, and the shares add up to the rest of the command. -/
theorem weightedShare_sum {manager : SolarManager K n} {prime : Fin n}
    (hprime : (manager.pSolar prime).isControllable = true) (h : manager.Aggregated) (target : K) :
    ∃ share : Fin n → K,
      (∀ i ∈ manager.controllable.erase prime,
        weightedShare target (manager.solarTotalActivePowerkW - (manager.pSolar prime).activePower)
          (manager.numSolarControllable - 1) (manager.pSolar i).activePower = some (share i)) ∧
      ((manager.controllable.erase prime).Nonempty →
        ∑ i ∈ manager.controllable.erase prime, share i = target) := by
  have htotal : manager.solarTotalActivePowerkW - (manager.pSolar prime).activePower =
      ∑ i ∈ manager.controllable.erase prime, (manager.pSolar i).activePower := by
    rw [h.active, Finset.sum_erase_eq_sub (mem_controllable.mpr hprime)]
  rw [htotal, ← card_erase_prime hprime h]
  by_cases hzero : ∑ i ∈ manager.controllable.erase prime, (manager.pSolar i).activePower = 0
  · refine ⟨fun _ => target / ((manager.controllable.erase prime).card : K), ?_, ?_⟩
    · intro i hi
      have hcard : ((manager.controllable.erase prime).card : K) ≠ 0 := by
        have hpos := Finset.card_pos.mpr ⟨i, hi⟩
        exact Nat.cast_ne_zero.mpr (by omega)
      rw [weightedShare, if_pos hzero, quotient_of_ne target hcard]
    · intro hothers
      exact sum_equal _ target hothers
  · refine ⟨fun i => target * ((manager.pSolar i).activePower /
      ∑ j ∈ manager.controllable.erase prime, (manager.pSolar j).activePower), ?_, ?_⟩
    · intro i _
      rw [weightedShare, if_neg hzero, quotient_of_ne _ hzero, Option.map_some]
    · intro _
      exact sum_proportional _ _ target hzero

/-- The active power loop divides by no zero in any state, and its shares meet the state. -/
theorem calculateSolarTargetActivePower_eq {manager : SolarManager K n} {prime : Fin n}
    (hprime : (manager.pSolar prime).isControllable = true) (h : manager.Aggregated) :
    ∃ share : Fin n → K,
      manager.calculateSolarTargetActivePower prime =
        some (manager.onControllable fun i inverter => inverter.setActivePowerSetpoint (share i)) ∧
      manager.ActiveCommands manager.solarCurtailmentState prime share := by
  unfold calculateSolarTargetActivePower
  cases hstate : manager.solarCurtailmentState with
  | noCurtailment =>
    refine ⟨fun i => (manager.pSolar i).ratedActivePower, ?_, ?_⟩
    · apply eachSolar_eq_onControllable
      · intro i hcontrol
        rw [if_pos hcontrol]
      · intro i hother
        rw [if_neg hother]
    · intro i _
      rfl
  | partialCurtailment =>
    obtain ⟨share, hshare, hsum⟩ := weightedShare_sum hprime h
      (manager.solarTargetActivePowerkW - (manager.pSolar prime).activePower)
    refine ⟨fun i => if i = prime then (manager.pSolar prime).ratedActivePower else share i, ?_, ?_⟩
    · apply eachSolar_prime hprime
      · simp only [reduceIte]
      · intro i hi
        have hcontrol := mem_controllable.mp (Finset.mem_of_mem_erase hi)
        simp only [if_neg (Finset.ne_of_mem_erase hi), if_pos hcontrol, hshare i hi, Option.map_some]
      · intro i hi hother
        rw [if_neg hi, if_neg hother]
    · constructor
      · simp only [reduceIte]
      · intro hothers
        rw [← hsum hothers]
        apply Finset.sum_congr rfl
        intro i hi
        simp only [if_neg (Finset.ne_of_mem_erase hi)]
  | fullCurtailment =>
    refine ⟨fun i => if i = prime then manager.solarTargetActivePowerkW else 0, ?_, ?_⟩
    · apply eachSolar_prime hprime
      · simp only [reduceIte]
      · intro i hi
        have hcontrol := mem_controllable.mp (Finset.mem_of_mem_erase hi)
        simp only [if_neg (Finset.ne_of_mem_erase hi), if_pos hcontrol]
      · intro i hi hother
        rw [if_neg hi, if_neg hother]
    · constructor
      · simp only [reduceIte]
      · intro i hi
        simp only [if_neg (Finset.ne_of_mem_erase hi)]

end Active

section Reactive

variable {n : ℕ}

/-- The prime inverter and the rest of the fleet are rated, and the prime one produces no more
than the command where it is the larger side. -/
structure Balanceable (manager : SolarManager ℝ n) (prime : Fin n) : Prop where
  prime_rated : 0 < (manager.pSolar prime).ratedApparentPower
  rest_rated : 0 < manager.solarTotalRatedApparentPower -
    (manager.pSolar prime).ratedApparentPower
  producing : 0 ≤ (manager.pSolar prime).activePower
  side : (manager.pSolar prime).ratedApparentPower ≤
      manager.solarTotalRatedApparentPower - (manager.pSolar prime).ratedApparentPower ∨
    0 ≤ manager.solarTargetActivePowerkW - (manager.pSolar prime).activePower

variable {manager : SolarManager ℝ n} {prime : Fin n}

theorem readings_balanceable : manager.readings.Balanceable prime ↔ manager.Balanceable prime := by
  constructor
  · intro h
    exact ⟨h.prime_rated, h.rest_rated, h.producing, h.side⟩
  · intro h
    exact ⟨h.prime_rated, h.rest_rated, h.producing, h.side⟩

/-- The balance has a result: none of its divisors is zero and no root is negative. -/
theorem balancedPrimeCommand_isSome {spp sps bcp brs tq : ℝ} (hsps : 0 < sps) (hbrs : 0 < brs)
    (hspp : 0 ≤ spp) (hside : sps ≤ brs ∨ 0 ≤ bcp) (htq : 0 < tq) :
    ∃ spq, balancedPrimeCommand Real.sqrt spp sps bcp brs tq = some spq := by
  unfold balancedPrimeCommand
  rw [quotient_of_ne _ hsps.ne', squareRoot_of_nonneg _ (by positivity),
    squareRoot_of_nonneg _ (by positivity)]
  simp only [Option.bind_eq_bind, Option.bind_some, quotient_of_ne _ hsps.ne',
    quotient_of_ne _ hbrs.ne']
  split_ifs with hprime hcurtailed hratings
  · exact ⟨0, rfl⟩
  · exact ⟨tq, rfl⟩
  · have hroot := discriminant_nonneg hsps hbrs hspp hside hprime hcurtailed
    have hdivisor : sps ^ 2 - brs ^ 2 ≠ 0 := by
      have hfactor : sps ^ 2 - brs ^ 2 = (sps - brs) * (sps + brs) := by ring
      rw [hfactor]
      exact mul_ne_zero (sub_ne_zero.mpr hratings) (by linarith)
    rw [squareRoot_of_nonneg _ hroot, Option.bind_some, quotient_of_ne _ hdivisor]
    exact ⟨_, rfl⟩
  · rw [quotient_of_ne _ (by linarith)]
    exact ⟨_, rfl⟩

/-- The balanced commands of a positive total are not negative and add up to it. -/
theorem calculateSolarReactivePowerCommands_eq (h : manager.Balanceable prime)
    (hcount : 1 < manager.numSolarControllable) (hpos : 0 < manager.solarTargetReactivePowerkVAR) :
    ∃ commands : ℝ × ℝ,
      manager.calculateSolarReactivePowerCommands Real.sqrt prime = some commands ∧
      0 ≤ commands.1 ∧ 0 ≤ commands.2 ∧
      commands.1 + ((manager.numSolarControllable : ℝ) - 1) * commands.2 =
        manager.solarTargetReactivePowerkVAR := by
  obtain ⟨spq, hspq⟩ :=
    balancedPrimeCommand_isSome h.prime_rated h.rest_rated h.producing h.side hpos
  have hothers : (0 : ℝ) < manager.numSolarControllable - 1 := by
    have hcast : (1 : ℝ) < manager.numSolarControllable := by exact_mod_cast hcount
    linarith
  unfold calculateSolarReactivePowerCommands
  rw [abs_of_pos hpos]
  simp only [hspq, quotient_of_ne _ hothers.ne',
    decide_eq_true_eq, if_neg (not_lt.mpr hpos.le)]
  refine ⟨_, rfl, ?_, ?_, ?_⟩
  · dsimp only
    split_ifs with hlow hhigh
    · exact le_rfl
    · exact hpos.le
    · exact not_lt.mp hlow
  · apply div_nonneg _ hothers.le
    split_ifs with hlow hhigh
    · linarith
    · linarith
    · exact sub_nonneg.mpr (not_lt.mp hhigh)
  · dsimp only
    rw [mul_div_cancel₀ _ hothers.ne']
    ring

/-- The two commands of any state. -/
theorem solarReactivePowerCommands_eq (hcount : 0 < manager.numSolarControllable)
    (hbalance : 0 < manager.solarTargetReactivePowerkVAR →
      manager.solarCurtailmentState ≠ .noCurtailment → 1 < manager.numSolarControllable →
      manager.Balanceable prime) :
    ∃ commands : ℝ × ℝ, manager.solarReactivePowerCommands Real.sqrt prime = some commands ∧
      (0 ≤ manager.solarTargetReactivePowerkVAR →
        0 ≤ commands.1 ∧ 0 ≤ commands.2 ∧
        commands.1 + ((manager.numSolarControllable : ℝ) - 1) * commands.2 =
          manager.solarTargetReactivePowerkVAR) := by
  have hnum : (0 : ℝ) < manager.numSolarControllable := by exact_mod_cast hcount
  unfold solarReactivePowerCommands
  split_ifs with hpos hstate hsome
  · rw [quotient_of_ne _ hnum.ne', Option.map_some]
    refine ⟨_, rfl, ?_⟩
    intro hnonneg
    have hshare := div_nonneg hnonneg hnum.le
    refine ⟨hshare, hshare, ?_⟩
    dsimp only
    field_simp
    ring
  · refine ⟨_, rfl, ?_⟩
    intro hnonneg
    have hone : manager.numSolarControllable = 1 := by omega
    simp [hnonneg]
  · obtain ⟨commands, hcommands, hprime, hcurtailed, hsum⟩ :=
      calculateSolarReactivePowerCommands_eq (hbalance hpos hstate (by omega)) (by omega) hpos
    exact ⟨commands, hcommands, fun _ => ⟨hprime, hcurtailed, hsum⟩⟩
  · refine ⟨_, rfl, ?_⟩
    intro hnonneg
    have hzero : manager.solarTargetReactivePowerkVAR = 0 := le_antisymm (not_lt.mp hpos) hnonneg
    simp [hzero]

/-- The reactive power loop: shares that are not negative and add up to the command. -/
theorem calculateSolarTargetReactivePower_eq (hprime : (manager.pSolar prime).isControllable = true)
    (h : manager.Aggregated) (hbalance : 0 < manager.solarTargetReactivePowerkVAR →
      manager.solarCurtailmentState ≠ .noCurtailment → 1 < manager.numSolarControllable →
      manager.Balanceable prime) :
    ∃ share : Fin n → ℝ,
      manager.calculateSolarTargetReactivePower Real.sqrt prime =
        some (manager.onControllable fun i inverter =>
          inverter.setReactivePowerSetpoint (share i)) ∧
      (0 ≤ manager.solarTargetReactivePowerkVAR →
        (∀ i, 0 ≤ share i) ∧
        ∑ i ∈ manager.controllable, share i = manager.solarTargetReactivePowerkVAR) := by
  have hmem := mem_controllable.mpr hprime
  obtain ⟨commands, hcommands, htotal⟩ :=
    solarReactivePowerCommands_eq (numSolarControllable_pos h hprime) hbalance
  refine ⟨fun i => if i = prime then commands.1 else commands.2, ?_, ?_⟩
  · unfold calculateSolarTargetReactivePower
    rw [hcommands, Option.bind_eq_bind, Option.bind_some]
    apply eachSolar_prime hprime
    · simp only [reduceIte]
    · intro i hi
      have hcontrol := mem_controllable.mp (Finset.mem_of_mem_erase hi)
      simp only [if_neg (Finset.ne_of_mem_erase hi), if_pos hcontrol]
    · intro i hi hother
      rw [if_neg hi, if_neg hother]
  · intro hnonneg
    obtain ⟨hfirst, hsecond, hsum⟩ := htotal hnonneg
    constructor
    · intro i
      dsimp only
      split_ifs
      · exact hfirst
      · exact hsecond
    · rw [sum_distinguished hmem, ← h.count, hsum]

end Reactive

section Pass

variable {K : Type*} [Field K] [LinearOrder K] {n : ℕ}

/-- Hand every controllable inverter its limit and its two shares. -/
def command (manager : SolarManager K n) (limit active reactive : Fin n → K) :
    SolarManager K n :=
  manager.onControllable fun i asset =>
    ((asset.setPotentialActivePowerLimit (limit i)).setActivePowerSetpoint
      (active i)).setReactivePowerSetpoint (reactive i)

/-- The set points of the commanded inverters are their shares, clipped to their limits. -/
structure Commanded (before after : SolarManager K n) (active reactive : Fin n → K) : Prop where
  active_clip : ∀ i ∈ before.controllable, (after.pSolar i).activePowerSetpoint =
    clip (active i) (before.pSolar i).maxLimitedActivePower (before.pSolar i).minLimitedActivePower
  reactive_clip : ∀ i ∈ before.controllable, (after.pSolar i).reactivePowerSetpoint =
    clip (reactive i) (before.pSolar i).potentialReactivePower
      (-(before.pSolar i).potentialReactivePower)

/-- The update of the assets leaves a controllable inverter as it is. -/
theorem updateAssets_pSolar {manager : SolarManager K n} {i : Fin n}
    (h : (manager.pSolar i).isControllable = true) :
    manager.updateAssets.pSolar i = manager.pSolar i := by
  unfold updateAssets
  exact AssetSolar.updateAsset_of_controllable h

/-- The command of a pass, after the two updates of the assets that follow it. -/
theorem command_commanded (manager : SolarManager K n) (limit active reactive : Fin n → K) :
    manager.Commanded (manager.command limit active reactive).updateAssets.updateAssets
      active reactive := by
  have hafter : ∀ i ∈ manager.controllable,
      (manager.command limit active reactive).updateAssets.updateAssets.pSolar i =
        (((manager.pSolar i).setPotentialActivePowerLimit (limit i)).setActivePowerSetpoint
          (active i)).setReactivePowerSetpoint (reactive i) := by
    intro i hi
    have hcommand := onControllable_pSolar
      (f := fun i asset => ((asset.setPotentialActivePowerLimit (limit i)).setActivePowerSetpoint
        (active i)).setReactivePowerSetpoint (reactive i)) hi
    have hcontrol : ((manager.command limit active reactive).pSolar i).isControllable = true := by
      unfold command
      rw [hcommand]
      exact mem_controllable.mp hi
    have hfirst := updateAssets_pSolar hcontrol
    rw [updateAssets_pSolar (hfirst ▸ hcontrol), hfirst]
    exact hcommand
  constructor
  · intro i hi
    rw [hafter i hi]
    rfl
  · intro i hi
    rw [hafter i hi, ← neg_one_mul]
    rfl

/-- The share of an inverter by its rating, of the active command. -/
def ratedShare (manager : SolarManager K n) (i : Fin n) : K :=
  manager.solarTargetActivePowerkW *
    ((manager.pSolar i).ratedActivePower /
      ∑ j ∈ manager.controllable, (manager.pSolar j).ratedActivePower)

/-- The share of an inverter by its potential, of the reactive command. -/
def potentialShare (manager : SolarManager K n) (i : Fin n) : K :=
  manager.solarTargetReactivePowerkVAR *
    ((manager.pSolar i).potentialReactivePower /
      ∑ j ∈ manager.controllable, (manager.pSolar j).potentialReactivePower)

/-- The distribution by rating, where neither total is zero. -/
theorem distributeByRating_eq {manager : SolarManager K n} (h : manager.Aggregated)
    (hrated : ∑ i ∈ manager.controllable, (manager.pSolar i).ratedActivePower ≠ 0)
    (hpotential : ∑ i ∈ manager.controllable, (manager.pSolar i).potentialReactivePower ≠ 0) :
    manager.distributeByRating =
      some (manager.command (fun i => (manager.pSolar i).ratedActivePower) manager.ratedShare
        manager.potentialShare) := by
  unfold distributeByRating command
  rw [h.rated, h.potential]
  apply eachSolar_eq_onControllable
  · intro i hcontrol
    rw [if_pos hcontrol]
    simp only [quotient_of_ne _ hrated, quotient_of_ne _ hpotential]
    rfl
  · intro i hother
    rw [if_neg hother]

end Pass

section Curtailed

variable {n : ℕ} {manager : SolarManager ℝ n} {prime : Fin n}

/-- The curtailment algorithm on a controllable prime inverter. -/
theorem curtail_eq (h : manager.Aggregated) (hindex : manager.solarPrimeIndex = some prime)
    (hprime : (manager.pSolar prime).isControllable = true)
    (hbalance : 0 < manager.solarTargetReactivePowerkVAR →
      manager.findNextCurtailmentState prime ≠ .noCurtailment → 1 < manager.numSolarControllable →
      manager.Balanceable prime) :
    ∃ limit active reactive : Fin n → ℝ,
      manager.curtail Real.sqrt =
        some (({manager with
          solarPrimeIndex := some prime
          solarCurtailmentState := manager.findNextCurtailmentState prime}).command
            limit active reactive) ∧
      manager.ActiveCommands (manager.findNextCurtailmentState prime) prime active ∧
      (0 ≤ manager.solarTargetReactivePowerkVAR →
        (∀ i, 0 ≤ reactive i) ∧
        ∑ i ∈ manager.controllable, reactive i = manager.solarTargetReactivePowerkVAR) := by
  have hsome := numSolarControllable_pos h hprime
  let staged : SolarManager ℝ n :=
    {manager with
      solarPrimeIndex := some prime
      solarCurtailmentState := manager.findNextCurtailmentState prime}
  have hstaged : staged.readings = manager.readings := by
    unfold readings
    rw [hindex]
  -- the limits leave everything that the two loops read as it was
  obtain ⟨limit, hlimit⟩ : ∃ limit : Fin n → ℝ,
      staged.calculateSolarTotalPotentialActivePower prime =
        staged.onControllable fun i asset => asset.setPotentialActivePowerLimit (limit i) :=
    ⟨_, rfl⟩
  let limited := staged.onControllable fun i asset => asset.setPotentialActivePowerLimit (limit i)
  have hlimited : limited.readings = manager.readings :=
    (onControllable_readings fun _ _ => rfl : limited.readings = staged.readings).trans hstaged
  obtain ⟨active, hactive, hcommands⟩ := calculateSolarTargetActivePower_eq
    (isControllable_of_readings hlimited hprime) (h.of_readings hlimited)
  -- and so does the active loop for the reactive one
  let aimed := limited.onControllable fun i inverter => inverter.setActivePowerSetpoint (active i)
  have haimed : aimed.readings = manager.readings :=
    (onControllable_readings fun _ _ => rfl : aimed.readings = limited.readings).trans hlimited
  have haimedBalance : 0 < aimed.solarTargetReactivePowerkVAR →
      aimed.solarCurtailmentState ≠ .noCurtailment → 1 < aimed.numSolarControllable →
      aimed.Balanceable prime := by
    intro hpos hstate hseveral
    rw [← readings_balanceable, haimed, readings_balanceable]
    exact hbalance hpos hstate hseveral
  obtain ⟨reactive, hreactive, hsum⟩ := calculateSolarTargetReactivePower_eq
    (isControllable_of_readings haimed hprime) (h.of_readings haimed) haimedBalance
  refine ⟨limit, active, reactive, ?_, ?_, ?_⟩
  · have hcommand : aimed.onControllable (fun i inverter =>
        inverter.setReactivePowerSetpoint (reactive i)) = staged.command limit active reactive := by
      have hfirst : aimed = staged.onControllable fun i asset =>
          (asset.setPotentialActivePowerLimit (limit i)).setActivePowerSetpoint (active i) :=
        onControllable_onControllable fun _ _ => rfl
      rw [hfirst]
      exact onControllable_onControllable fun _ _ => rfl
    have hstages : (staged.calculateSolarTotalPotentialActivePower prime
        ).calculateSolarTargetActivePower prime = some aimed := by
      rw [hlimit]
      exact hactive
    unfold curtail
    simp only [solarPrimeInverterSelection_keeps hindex hprime, if_pos hsome]
    rw [← hcommand, ← hreactive]
    exact congrArg (fun stage => stage >>= fun next : SolarManager ℝ n =>
      next.calculateSolarTargetReactivePower Real.sqrt prime) hstages
  · rw [← readings_activeCommands, ← hlimited, readings_activeCommands]
    exact hcommands
  · intro hnonneg
    obtain ⟨hshare, htotal⟩ := hsum hnonneg
    have hcontrollable := congrArg controllable haimed
    refine ⟨hshare, ?_⟩
    exact (Finset.sum_congr hcontrollable.symm fun _ _ => rfl).trans htotal

/-- No divisor of the pass is zero: the totals by rating where curtailment is off, and with it
the balance of the curtailed states where there is a reactive command to balance. -/
structure Divisible (manager : SolarManager ℝ n) : Prop where
  rated : manager.solarCurtailmentEnabled = false → manager.controllable.Nonempty →
    ∑ i ∈ manager.controllable, (manager.pSolar i).ratedActivePower ≠ 0
  potential : manager.solarCurtailmentEnabled = false → manager.controllable.Nonempty →
    ∑ i ∈ manager.controllable, (manager.pSolar i).potentialReactivePower ≠ 0
  balanced : manager.solarCurtailmentEnabled = true →
    ∀ prime, manager.solarPrimeInverterSelection = some prime →
      0 < manager.solarTargetReactivePowerkVAR →
      manager.findNextCurtailmentState prime ≠ .noCurtailment →
      1 < manager.numSolarControllable → manager.Balanceable prime

/-- With curtailment off both commands are divided without a rest, and the clipped shares add up
to the clamped command where the limits are in proportion to the shares: the reactive potentials
always are, the active limits if every inverter has the same range of its rating. -/
structure ByRating (before after : SolarManager ℝ n) (active reactive : Fin n → ℝ) : Prop where
  active_sum : ∑ i ∈ before.controllable, active i = before.solarTargetActivePowerkW
  reactive_sum : ∑ i ∈ before.controllable, reactive i = before.solarTargetReactivePowerkVAR
  active_clamped : ∀ high low : ℝ, low ≤ high →
    (∀ i ∈ before.controllable, 0 ≤ (before.pSolar i).ratedActivePower ∧
      (before.pSolar i).maxLimitedActivePower = high * (before.pSolar i).ratedActivePower ∧
      (before.pSolar i).minLimitedActivePower = low * (before.pSolar i).ratedActivePower) →
    ∑ i ∈ before.controllable, (after.pSolar i).activePowerSetpoint =
      clip before.solarTargetActivePowerkW
        (high * ∑ i ∈ before.controllable, (before.pSolar i).ratedActivePower)
        (low * ∑ i ∈ before.controllable, (before.pSolar i).ratedActivePower)
  reactive_clamped : (∀ i ∈ before.controllable, 0 ≤ (before.pSolar i).potentialReactivePower) →
    ∑ i ∈ before.controllable, (after.pSolar i).reactivePowerSetpoint =
      clip before.solarTargetReactivePowerkVAR
        (∑ i ∈ before.controllable, (before.pSolar i).potentialReactivePower)
        (-∑ i ∈ before.controllable, (before.pSolar i).potentialReactivePower)

/-- With curtailment on the active shares are those of the new state, and a reactive command
that is not negative is divided without a rest. -/
structure ByCurtailment (before after : SolarManager ℝ n) (prime : Fin n)
    (active reactive : Fin n → ℝ) : Prop where
  state : after.solarCurtailmentState = before.findNextCurtailmentState prime
  active_state : before.ActiveCommands after.solarCurtailmentState prime active
  reactive_sum : 0 ≤ before.solarTargetReactivePowerkVAR →
    (∀ i, 0 ≤ reactive i) ∧
      ∑ i ∈ before.controllable, reactive i = before.solarTargetReactivePowerkVAR

/-- Clipped shares by rating. -/
theorem byRating_of_commanded {before after : SolarManager ℝ n}
    (hrated : ∑ i ∈ before.controllable, (before.pSolar i).ratedActivePower ≠ 0)
    (hpotential : ∑ i ∈ before.controllable, (before.pSolar i).potentialReactivePower ≠ 0)
    (h : before.Commanded after before.ratedShare before.potentialShare) :
    before.ByRating after before.ratedShare before.potentialShare := by
  constructor
  · exact sum_proportional _ _ _ hrated
  · exact sum_proportional _ _ _ hpotential
  · intro high low hrange hlimits
    rw [← sum_clip_proportional before.controllable
      (fun i => (before.pSolar i).ratedActivePower) before.solarTargetActivePowerkW hrange
      (fun i hi => (hlimits i hi).1) hrated]
    apply Finset.sum_congr rfl
    intro i hi
    obtain ⟨_, hmax, hmin⟩ := hlimits i hi
    rw [h.active_clip i hi, hmax, hmin]
    rfl
  · intro hnonneg
    have hclamped := sum_clip_proportional before.controllable
      (fun i => (before.pSolar i).potentialReactivePower) before.solarTargetReactivePowerkVAR
      (by norm_num : (-1 : ℝ) ≤ 1) hnonneg hpotential
    simp only [one_mul, neg_one_mul] at hclamped
    rw [← hclamped]
    apply Finset.sum_congr rfl
    intro i hi
    exact h.reactive_clip i hi

/-- A pass with a prime inverter distributes in one of the two ways and updates the assets. -/
theorem updateAssetData_of_stage {stage : SolarManager ℝ n}
    (hselection : manager.solarPrimeInverterSelection = some prime)
    (hsome : manager.numSolarControllable > 0) (hstage : (if manager.solarCurtailmentEnabled then
        ({manager with solarPrimeIndex := some prime}).curtail Real.sqrt
      else ({manager with solarPrimeIndex := some prime}).distributeByRating) = some stage) :
    manager.updateAssetData Real.sqrt = some stage.updateAssets.updateAssets := by
  unfold updateAssetData
  simp only [hselection, Option.isSome_some, hsome, and_self, if_true, Option.bind_eq_bind,
    Option.bind_some]
  split_ifs at hstage ⊢
  · rw [hstage, Option.bind_some]
  · rw [hstage, Option.bind_some]

/-- A pass over an aggregated fleet with curtailment off. -/
theorem updateAssetData_byRating (htotals : manager.Aggregated) (h : manager.Divisible)
    (hselection : manager.solarPrimeInverterSelection = some prime)
    (henabled : manager.solarCurtailmentEnabled = false) :
    ∃ after, manager.updateAssetData Real.sqrt = some after ∧
      ∃ active reactive : Fin n → ℝ, manager.Commanded after active reactive ∧
        manager.ByRating after active reactive := by
  have hprime := solarPrimeInverterSelection_controllable hselection
  have hrated := h.rated henabled ⟨prime, mem_controllable.mpr hprime⟩
  have hpotential := h.potential henabled ⟨prime, mem_controllable.mpr hprime⟩
  let started : SolarManager ℝ n := {manager with solarPrimeIndex := some prime}
  have hstarted : started.Aggregated :=
    ⟨htotals.count, htotals.active, htotals.potential, htotals.rated, htotals.apparent⟩
  have hstage := distributeByRating_eq hstarted hrated hpotential
  have hresult := updateAssetData_of_stage hselection (numSolarControllable_pos htotals hprime)
    ((if_neg (by rw [henabled]; decide)).trans hstage)
  have hcommanded := command_commanded started
    (fun i => (started.pSolar i).ratedActivePower) started.ratedShare started.potentialShare
  refine ⟨_, hresult, manager.ratedShare, manager.potentialShare,
    ⟨hcommanded.active_clip, hcommanded.reactive_clip⟩, ?_⟩
  exact byRating_of_commanded hrated hpotential ⟨hcommanded.active_clip, hcommanded.reactive_clip⟩

/-- A pass over an aggregated fleet with curtailment on. -/
theorem updateAssetData_byCurtailment (htotals : manager.Aggregated) (h : manager.Divisible)
    (hselection : manager.solarPrimeInverterSelection = some prime)
    (henabled : manager.solarCurtailmentEnabled = true) :
    ∃ after, manager.updateAssetData Real.sqrt = some after ∧
      ∃ active reactive : Fin n → ℝ, manager.Commanded after active reactive ∧
        manager.ByCurtailment after prime active reactive := by
  have hprime := solarPrimeInverterSelection_controllable hselection
  let started : SolarManager ℝ n := {manager with solarPrimeIndex := some prime}
  have hstarted : started.Aggregated :=
    ⟨htotals.count, htotals.active, htotals.potential, htotals.rated, htotals.apparent⟩
  have hbalance : 0 < started.solarTargetReactivePowerkVAR →
      started.findNextCurtailmentState prime ≠ .noCurtailment →
      1 < started.numSolarControllable → started.Balanceable prime := by
    intro hpos hstate hseveral
    have hbalanced := h.balanced henabled prime hselection hpos hstate hseveral
    exact ⟨hbalanced.prime_rated, hbalanced.rest_rated, hbalanced.producing, hbalanced.side⟩
  obtain ⟨limit, active, reactive, hstage, hactive, hreactive⟩ :=
    curtail_eq hstarted rfl hprime hbalance
  have hresult := updateAssetData_of_stage hselection (numSolarControllable_pos htotals hprime)
    ((if_pos henabled).trans hstage)
  have hcommanded := command_commanded manager limit active reactive
  exact ⟨_, hresult, active, reactive, ⟨hcommanded.active_clip, hcommanded.reactive_clip⟩,
    ⟨rfl, hactive, hreactive⟩⟩

/-- One pass over an aggregated fleet. -/
theorem updateAssetData_of_divisible (htotals : manager.Aggregated) (h : manager.Divisible) :
    ∃ after, manager.updateAssetData Real.sqrt = some after ∧
      (manager.solarPrimeInverterSelection = none →
        ∀ i, ¬(manager.pSolar i).isControllable = true ∧
          after.pSolar i = (manager.pSolar i).updateAsset) ∧
      ∀ prime, manager.solarPrimeInverterSelection = some prime →
        ∃ active reactive : Fin n → ℝ, manager.Commanded after active reactive ∧
          (manager.solarCurtailmentEnabled = false → manager.ByRating after active reactive) ∧
          (manager.solarCurtailmentEnabled = true →
            manager.ByCurtailment after prime active reactive) := by
  cases hselection : manager.solarPrimeInverterSelection with
  | none =>
    refine ⟨({manager with solarPrimeIndex := none} : SolarManager ℝ n).updateAssets, ?_, ?_, ?_⟩
    · unfold updateAssetData
      simp only [hselection, Option.isSome_none, Bool.false_eq_true, false_and, if_false,
        Option.bind_eq_bind, Option.bind_some]
    · intro _ i
      exact ⟨solarPrimeInverterSelection_eq_none hselection i, rfl⟩
    · intro prime hprime
      contradiction
  | some prime =>
    cases henabled : manager.solarCurtailmentEnabled with
    | false =>
      obtain ⟨after, hafter, active, reactive, hcommanded, hrating⟩ :=
        updateAssetData_byRating htotals h hselection henabled
      refine ⟨after, hafter, by simp, ?_⟩
      intro _ _
      exact ⟨active, reactive, hcommanded, fun _ => hrating, by simp⟩
    | true =>
      obtain ⟨after, hafter, active, reactive, hcommanded, hcurtailed⟩ :=
        updateAssetData_byCurtailment htotals h hselection henabled
      refine ⟨after, hafter, by simp, ?_⟩
      intro other hother
      rw [← Option.some.inj hother]
      exact ⟨active, reactive, hcommanded, by simp, fun _ => hcurtailed⟩

/-- `update_asset_data` on a fleet of any size, after its data is aggregated. Where no divisor
is zero there is a result; without a controllable inverter nothing is distributed, and with one
the set points are clipped shares, by rating or by curtailment state. -/
theorem updateAssetData_distributes (fleet : SolarManager ℝ n)
    (h : fleet.aggregateSolarData.Divisible) :
    ∃ after, fleet.aggregateSolarData.updateAssetData Real.sqrt = some after ∧
      (fleet.aggregateSolarData.solarPrimeInverterSelection = none →
        ∀ i, ¬(fleet.pSolar i).isControllable = true ∧
          after.pSolar i = (fleet.pSolar i).updateAsset) ∧
      ∀ prime, fleet.aggregateSolarData.solarPrimeInverterSelection = some prime →
        ∃ active reactive : Fin n → ℝ, fleet.aggregateSolarData.Commanded after active reactive ∧
          (fleet.solarCurtailmentEnabled = false →
            fleet.aggregateSolarData.ByRating after active reactive) ∧
          (fleet.solarCurtailmentEnabled = true →
            fleet.aggregateSolarData.ByCurtailment after prime active reactive) :=
  updateAssetData_of_divisible (aggregateSolarData_aggregated fleet) h

/-- A running inverter rated at 100 kW that produces 75 kW. -/
def sampleInverter {K : Type*} [Field K] : AssetSolar K where
  isAvail := true
  isRunning := true
  inStandby := false
  inMaintenance := false
  assetControl := .direct
  maintActivePowerSlewRateCtlConfigured := false
  maintActivePowerSetpoint := 0
  maintReactivePowerSetpoint := 0
  ratedActivePower := 100
  ratedApparentPower := 125
  activePower := 75
  potentialReactivePower := 50
  maxLimitedActivePower := 100
  minLimitedActivePower := 0
  curtailedActivePowerLimit := 100
  activePowerSetpoint := 75
  reactivePowerSetpoint := 0

/-- Two such inverters in partial curtailment, commanded to their output of 150 kW, which
has risen since the last pass. -/
def sampleFleet {K : Type*} [Field K] (enabled : Bool) : SolarManager K 2 where
  pSolar _ := sampleInverter
  numSolarControllable := 0
  lastTotalActivePowerkW := 140
  solarTotalActivePowerkW := 0
  solarTotalPotentialReactivePower := 0
  solarTotalRatedActivePower := 0
  solarTotalRatedApparentPower := 0
  solarTargetActivePowerkW := 150
  solarTargetReactivePowerkVAR := 130
  solarCurtailmentEnabled := enabled
  solarCurtailmentState := .partialCurtailment
  solarPrimeIndex := none
  curtailmentDeadbandPercentage := 1 / 20

theorem sampleInverter_controllable {K : Type*} [Field K] :
    (sampleInverter : AssetSolar K).isControllable = true := rfl

theorem sampleFleet_controllable (enabled : Bool) :
    (sampleFleet enabled : SolarManager ℝ 2).aggregateSolarData.controllable = Finset.univ := by
  ext i
  simp [mem_controllable, aggregateSolarData, sampleFleet, sampleInverter_controllable]

theorem sampleFleet_selection (enabled : Bool) :
    (sampleFleet enabled : SolarManager ℝ 2).aggregateSolarData.solarPrimeInverterSelection =
      some 0 := rfl

theorem sampleFleet_sum (enabled : Bool) (field : AssetSolar ℝ → ℝ) :
    ∑ i ∈ (sampleFleet enabled : SolarManager ℝ 2).aggregateSolarData.controllable,
      field ((sampleFleet enabled : SolarManager ℝ 2).aggregateSolarData.pSolar i) =
        field sampleInverter + field sampleInverter := by
  rw [sampleFleet_controllable, Fin.sum_univ_two]
  rfl

/-- The risen output releases the fleet. -/
theorem sampleFleet_released :
    (sampleFleet true : SolarManager ℝ 2).aggregateSolarData.findNextCurtailmentState 0 =
      .noCurtailment := by
  have htotals := aggregateSolarData_aggregated (sampleFleet true : SolarManager ℝ 2)
  have hactive := htotals.active.trans (sampleFleet_sum true AssetSolar.activePower)
  have hrated := htotals.rated.trans (sampleFleet_sum true AssetSolar.ratedActivePower)
  unfold findNextCurtailmentState
  rw [hactive, hrated]
  norm_num [aggregateSolarData, sampleFleet, sampleInverter]

/-- Released inverters are set to their rated powers, not to the command. -/
theorem released_exceeds_command :
    ∃ after, (sampleFleet true).aggregateSolarData.updateAssetData Real.sqrt = some after ∧
      ∑ i, (after.pSolar i).activePowerSetpoint = 200 ∧
      clip (sampleFleet true).solarTargetActivePowerkW
        (∑ i, ((sampleFleet true : SolarManager ℝ 2).pSolar i).maxLimitedActivePower)
        (∑ i, ((sampleFleet true).pSolar i).minLimitedActivePower) = 150 := by
  have hdivisible : (sampleFleet true : SolarManager ℝ 2).aggregateSolarData.Divisible := by
    constructor
    · intro hfalse
      contradiction
    · intro hfalse
      contradiction
    · intro _ prime hprime _ hstate _
      rw [← Option.some.inj ((sampleFleet_selection true).symm.trans hprime)] at hstate
      exact absurd sampleFleet_released hstate
  obtain ⟨after, hafter, _, hpass⟩ :=
    updateAssetData_of_divisible (aggregateSolarData_aggregated _) hdivisible
  obtain ⟨active, reactive, hcommanded, _, hcurtailed⟩ := hpass 0 (sampleFleet_selection true)
  obtain ⟨hstate, hactive, _⟩ := hcurtailed rfl
  rw [hstate, sampleFleet_released] at hactive
  have hsetpoint : ∀ i, (after.pSolar i).activePowerSetpoint = 100 := by
    intro i
    have hmem : i ∈ (sampleFleet true : SolarManager ℝ 2).aggregateSolarData.controllable := by
      rw [sampleFleet_controllable]
      exact Finset.mem_univ i
    rw [hcommanded.active_clip i hmem, hactive i hmem]
    norm_num [aggregateSolarData, sampleFleet, sampleInverter, clip]
  refine ⟨after, hafter, ?_, ?_⟩
  · rw [Fin.sum_univ_two, hsetpoint, hsetpoint]
    norm_num
  · norm_num [Fin.sum_univ_two, sampleFleet, sampleInverter, clip]

/-- The fleet at an output that has not risen, commanded to 120 kW and 40 kVAR. -/
def curtailedFleet {K : Type*} [Field K] : SolarManager K 2 :=
  {(sampleFleet true : SolarManager K 2) with
    lastTotalActivePowerkW := 150
    solarTargetActivePowerkW := 120
    solarTargetReactivePowerkVAR := 40}

/-- It stays in partial curtailment. -/
theorem curtailedFleet_partial :
    (curtailedFleet : SolarManager ℝ 2).aggregateSolarData.findNextCurtailmentState 0 =
      .partialCurtailment := by
  have htotals := aggregateSolarData_aggregated (curtailedFleet : SolarManager ℝ 2)
  have hactive := htotals.active.trans (sampleFleet_sum true AssetSolar.activePower)
  have hrated := htotals.rated.trans (sampleFleet_sum true AssetSolar.ratedActivePower)
  unfold findNextCurtailmentState
  rw [hactive, hrated]
  norm_num [aggregateSolarData, curtailedFleet, sampleFleet, sampleInverter]

/-- Its two inverters balance each other. -/
theorem curtailedFleet_divisible :
    (curtailedFleet : SolarManager ℝ 2).aggregateSolarData.Divisible := by
  constructor
  · intro hfalse
    contradiction
  · intro hfalse
    contradiction
  · intro _ prime hprime _ _ _
    obtain rfl := Option.some.inj ((sampleFleet_selection true).symm.trans hprime)
    have happarent := (aggregateSolarData_aggregated (curtailedFleet : SolarManager ℝ 2)).apparent.trans
      (sampleFleet_sum true AssetSolar.ratedApparentPower)
    constructor
    · norm_num [aggregateSolarData, curtailedFleet, sampleFleet, sampleInverter]
    · rw [happarent]
      norm_num [aggregateSolarData, curtailedFleet, sampleFleet, sampleInverter]
    · norm_num [aggregateSolarData, curtailedFleet, sampleFleet, sampleInverter]
    · rw [happarent]
      norm_num [aggregateSolarData, curtailedFleet, sampleFleet, sampleInverter]

/-- By rating 130 kVAR is clamped to the potential of 100 kVAR. In partial curtailment the prime
inverter is commanded to its rated power, the other one to the rest of the command beside its
output. -/
theorem updateAssetData_distributes_sample :
    (∃ after, (sampleFleet false).aggregateSolarData.updateAssetData Real.sqrt = some after ∧
      ∑ i, (after.pSolar i).activePowerSetpoint = 150 ∧
      ∑ i, (after.pSolar i).reactivePowerSetpoint = 100) ∧
    ∃ after, curtailedFleet.aggregateSolarData.updateAssetData Real.sqrt = some after ∧
      (after.pSolar 0).activePowerSetpoint = 100 ∧ (after.pSolar 1).activePowerSetpoint = 45 ∧
      ∑ i, (after.pSolar i).reactivePowerSetpoint = 40 := by
  constructor
  · have hrated := sampleFleet_sum false AssetSolar.ratedActivePower
    have hpotential := sampleFleet_sum false AssetSolar.potentialReactivePower
    have hdivisible : (sampleFleet false : SolarManager ℝ 2).aggregateSolarData.Divisible := by
      constructor
      · intro _ _
        rw [hrated]
        norm_num [sampleInverter]
      · intro _ _
        rw [hpotential]
        norm_num [sampleInverter]
      · intro htrue
        contradiction
    obtain ⟨after, hafter, _, hpass⟩ := updateAssetData_distributes (sampleFleet false) hdivisible
    obtain ⟨active, reactive, _, hrating, _⟩ := hpass 0 (sampleFleet_selection false)
    obtain ⟨_, _, hactive, hreactive⟩ := hrating rfl
    have hactive' := hactive 1 0 (by norm_num) (by
      intro i _
      norm_num [aggregateSolarData, sampleFleet, sampleInverter])
    have hreactive' := hreactive (by
      intro i _
      norm_num [aggregateSolarData, sampleFleet, sampleInverter])
    rw [hrated, sampleFleet_controllable] at hactive'
    rw [hpotential, sampleFleet_controllable] at hreactive'
    refine ⟨after, hafter, ?_, ?_⟩
    · rw [hactive']
      norm_num [aggregateSolarData, sampleFleet, sampleInverter, clip]
    · rw [hreactive']
      norm_num [aggregateSolarData, sampleFleet, sampleInverter, clip]
  · obtain ⟨after, hafter, _, hpass⟩ :=
      updateAssetData_distributes curtailedFleet curtailedFleet_divisible
    obtain ⟨active, reactive, hcommanded, _, hcurtailed⟩ := hpass 0 (sampleFleet_selection true)
    obtain ⟨hstate, hactive, hreactive⟩ := hcurtailed rfl
    rw [hstate, curtailedFleet_partial] at hactive
    obtain ⟨hprime, hothers⟩ := hactive
    have hcontrollable : (curtailedFleet : SolarManager ℝ 2).aggregateSolarData.controllable =
        Finset.univ :=
      sampleFleet_controllable true
    have hother : Finset.univ.erase (0 : Fin 2) = {1} := by decide
    rw [hcontrollable, hother, Finset.sum_singleton] at hothers
    have hrest := hothers (Finset.singleton_nonempty 1)
    obtain ⟨hnonneg, hsum⟩ := hreactive (by norm_num [aggregateSolarData, curtailedFleet])
    rw [hcontrollable, Fin.sum_univ_two] at hsum
    have hmem (i : Fin 2) :
        i ∈ (curtailedFleet : SolarManager ℝ 2).aggregateSolarData.controllable := by
      rw [hcontrollable]
      exact Finset.mem_univ i
    have htotal : reactive 0 + reactive 1 = 40 := hsum
    have hroom : ∀ i : Fin 2, reactive i ≤ 50 := by
      have hzero := hnonneg 0
      have hone := hnonneg 1
      exact Fin.forall_fin_two.mpr ⟨by linarith, by linarith⟩
    have hclip (i : Fin 2) : (after.pSolar i).reactivePowerSetpoint = reactive i := by
      rw [hcommanded.reactive_clip i (hmem i)]
      change clip (reactive i) 50 (-50) = reactive i
      exact clip_of_mem (by linarith [hnonneg i]) (hroom i)
    refine ⟨after, hafter, ?_, ?_, ?_⟩
    · rw [hcommanded.active_clip 0 (hmem 0), hprime]
      norm_num [aggregateSolarData, curtailedFleet, sampleFleet, sampleInverter, clip]
    · rw [hcommanded.active_clip 1 (hmem 1), hrest]
      norm_num [aggregateSolarData, curtailedFleet, sampleFleet, sampleInverter, clip]
    · rw [Fin.sum_univ_two, hclip, hclip]
      exact htotal

end Curtailed

end SolarManager

end HybridOs.SiteSolar
