import HybridOs.ClippedShares
import HybridOs.SiteSlew

/-!
# The dispatch of the reactive power

The demand of the site is limited for the POI and divided over the types of assets by their
potentials. The command of each type follows its part no faster than a slew lets it. The ESS
manager divides the command of the ESS over the units in the same way, with branches of its
own for no demand and for a full one.
-/

namespace HybridOs.SiteReactiveDispatch

open ClippedShares SiteSlew

/-- A value of each type of asset that takes reactive power. -/
structure KVAR where
  /-- All controllable ESS together. -/
  ess : ℚ
  /-- All generators together. -/
  gen : ℚ
  /-- All solar inverters together. -/
  solar : ℚ

/-- `calculate_total_potential_kVAR`. -/
def KVAR.total (data : KVAR) : ℚ := data.ess + data.gen + data.solar

/-- `Reactive_Power_POI_Limits::execute_helper`. -/
def limitSiteKVARDemand (minKVAR maxKVAR siteKVARDemand : ℚ) : ℚ :=
  clip siteKVARDemand maxKVAR minKVAR

/-- `dispatch_reactive_power`, on commands that have been reset. -/
def dispatchReactivePower (potential : KVAR) (siteKVARDemand : ℚ) : KVAR :=
  let totalPotentialKVAR := potential.total
  if totalPotentialKVAR = 0 ∨ siteKVARDemand = 0 then ⟨0, 0, 0⟩
  else
    let sign : ℚ := if siteKVARDemand < 0 then -1 else 1
    let percentCmd :=
      if totalPotentialKVAR > |siteKVARDemand| then
        sign * (|siteKVARDemand| / totalPotentialKVAR)
      else sign
    ⟨percentCmd * potential.ess, percentCmd * potential.gen, percentCmd * potential.solar⟩

/-- The slews of the reactive commands. -/
structure KVARSlews where
  /-- `ess_kVAR_cmd_slew`. -/
  ess : SlewObject
  /-- `gen_kVAR_cmd_slew`. -/
  gen : SlewObject
  /-- `solar_kVAR_cmd_slew`. -/
  solar : SlewObject

/-- The reactive commands of `set_asset_power_commands`. -/
def setAssetPowerCommands (slews : KVARSlews) (kVARCmd : KVAR) : KVAR where
  ess := slews.ess.getSlewTarget kVARCmd.ess
  gen := slews.gen.getSlewTarget kVARCmd.gen
  solar := slews.solar.getSlewTarget kVARCmd.solar

/-- An `Asset_ESS`, as far as its reactive power goes. -/
structure AssetEss where
  /-- Whether the unit takes commands. -/
  isControllable : Bool
  /-- Rated reactive power. -/
  ratedReactivePower : ℚ
  /-- Reactive power that is possible now. -/
  potentialReactivePower : ℚ
  /-- Setpoint that was set last. -/
  reactivePowerSetpoint : ℚ

/-- `set_reactive_power_setpoint`. -/
def AssetEss.setReactivePowerSetpoint (asset : AssetEss) (setpoint : ℚ) : AssetEss :=
  { asset with
    reactivePowerSetpoint :=
      clip setpoint asset.potentialReactivePower (-1 * asset.potentialReactivePower) }

section Manager

variable {n : ℕ} (pEss : Fin n → AssetEss)

/-- The units that take commands. -/
def controllable : Finset (Fin n) := {i | (pEss i).isControllable}

/-- Potential of the controllable units together. -/
def essTotalPotentialReactivePower : ℚ := ∑ i ∈ controllable pEss, (pEss i).potentialReactivePower

/-- Rating of the controllable units together. -/
def essTotalRatedReactivePower : ℚ := ∑ i ∈ controllable pEss, (pEss i).ratedReactivePower

/-- The setpoint that a controllable unit is to have. -/
def essSetpoint (essTargetReactivePowerKVAR : ℚ) (asset : AssetEss) : ℚ :=
  if essTargetReactivePowerKVAR = 0 ∨ essTotalPotentialReactivePower pEss = 0 then 0
  else if |essTargetReactivePowerKVAR| ≥ essTotalRatedReactivePower pEss then
    if essTargetReactivePowerKVAR > 0 then asset.ratedReactivePower
    else -1 * asset.ratedReactivePower
  else if asset.potentialReactivePower = 0 then 0
  else
    essTargetReactivePowerKVAR /
      (essTotalPotentialReactivePower pEss / asset.potentialReactivePower)

/-- `calculate_ess_reactive_power`. A setpoint that stays is not set again. -/
def calculateEssReactivePower (essTargetReactivePowerKVAR : ℚ) (i : Fin n) : AssetEss :=
  let setpoint := essSetpoint pEss essTargetReactivePowerKVAR (pEss i)
  if (pEss i).isControllable ∧ (pEss i).reactivePowerSetpoint ≠ setpoint then
    (pEss i).setReactivePowerSetpoint setpoint
  else pEss i

end Manager

/-! ## Shares -/

variable {n : ℕ} {pEss : Fin n → AssetEss} {target potential total : ℚ} {i : Fin n}

/-- A share of a target within the total is within the potential that it is for. -/
theorem abs_share_le (hpotential : 0 ≤ potential) (htarget : |target| ≤ total) :
    |target * (potential / total)| ≤ potential := by
  have htotal := (abs_nonneg target).trans htarget
  rw [abs_mul, abs_of_nonneg (div_nonneg hpotential htotal), mul_div_left_comm]
  exact mul_le_of_le_one_right hpotential (div_le_one_of_le₀ htarget htotal)

/-- The shares of a target within the total add up to it, also where the total is zero. -/
theorem mul_div_self_of_abs_le (htarget : |target| ≤ total) :
    target * (total / total) = target := by
  by_cases htotal : total = 0
  · rw [htotal, abs_nonpos_iff] at htarget
    rw [htarget, zero_mul]
  · rw [div_self htotal, mul_one]

/-- A demand clipped to a total on either side is within it. -/
theorem abs_clip_le (htotal : 0 ≤ total) (demand : ℚ) : |clip demand total (-total)| ≤ total := by
  rw [abs_le, clip]
  split_ifs <;> constructor <;> linarith

/-- Every type gets the part of its potential in the total. -/
theorem dispatchReactivePower_eq {data : KVAR} (htotal : 0 ≤ data.total) (demand : ℚ) :
    let command := clip demand data.total (-data.total)
    dispatchReactivePower data demand =
      ⟨command * (data.ess / data.total), command * (data.gen / data.total),
        command * (data.solar / data.total)⟩ := by
  rw [dispatchReactivePower, clip]
  rcases htotal.eq_or_lt with hzero | hpos
  · simp [← hzero]
  · have hne := hpos.ne'
    have habs := abs_cases demand
    split_ifs <;> grind

section Units

variable (hrated : ∀ i ∈ controllable pEss,
    (pEss i).potentialReactivePower ≤ (pEss i).ratedReactivePower)
  (htarget : |target| ≤ essTotalPotentialReactivePower pEss) (hi : i ∈ controllable pEss)
include hrated htarget hi

/-- Every branch gives a unit the part of its potential in the total: a full target is the total,
and then no unit has less than its rated power. -/
theorem essSetpoint_eq : essSetpoint pEss target (pEss i) =
    target * ((pEss i).potentialReactivePower / essTotalPotentialReactivePower pEss) := by
  have hfull (hge : |target| ≥ essTotalRatedReactivePower pEss) :
      |target| = essTotalPotentialReactivePower pEss ∧
        (pEss i).potentialReactivePower = (pEss i).ratedReactivePower := by
    have hle := Finset.sum_le_sum hrated
    exact ⟨htarget.antisymm (hle.trans hge),
      (Finset.sum_eq_sum_iff_of_le hrated).mp (hle.antisymm (hge.le.trans htarget)) i hi⟩
  rw [essSetpoint]
  split_ifs with hnone hge hpos hzero
  · rcases hnone with h | h <;> simp [h]
  · obtain ⟨habs, heq⟩ := hfull hge
    rw [abs_of_pos hpos] at habs
    rw [← habs, heq, mul_div_cancel₀ _ hpos.ne']
  · obtain ⟨habs, heq⟩ := hfull hge
    rw [abs_of_nonpos (not_lt.mp hpos)] at habs
    rw [← habs, heq, div_neg, mul_neg, mul_div_cancel₀ _ fun h => hnone (.inl h), neg_one_mul]
  · rw [hzero, zero_div, mul_zero]
  · rw [div_div_eq_mul_div, mul_div_assoc]

/-- A unit has its share after the manager has gone over it, set anew or as it was. -/
theorem calculateEssReactivePower_eq (hpotential : 0 ≤ (pEss i).potentialReactivePower) :
    (calculateEssReactivePower pEss target i).reactivePowerSetpoint =
      target * ((pEss i).potentialReactivePower / essTotalPotentialReactivePower pEss) := by
  have hcontrol : (pEss i).isControllable = true := by simpa [controllable] using hi
  have hshare := abs_le.mp (abs_share_le hpotential htarget)
  rw [calculateEssReactivePower, essSetpoint_eq hrated htarget hi]
  split_ifs with hset
  · exact clip_of_mem (by linarith) hshare.2
  · exact not_not.mp fun hne => hset ⟨hcontrol, hne⟩

end Units

/-! ## From the demand to the units -/

/-- A slew stands at a value within a potential, with the same room on both sides. -/
def StandsWithin (slew : SlewObject) (potential : ℚ) : Prop :=
  (∃ room, slew.HasRoom room) ∧ |slew.currentValue| ≤ potential

/-- What lies between two values within a potential is within it. -/
theorem abs_le_of_between {a b value : ℚ} (hbetween : Between a b value) (ha : |a| ≤ potential)
    (hb : |b| ≤ potential) : |value| ≤ potential := by
  rw [abs_le] at *
  have hlow := (le_min ha.1 hb.1).trans hbetween.1
  have hhigh := hbetween.2.trans (max_le ha.2 hb.2)
  exact ⟨hlow, hhigh⟩

/-- The slewed command lies between the last one and its target, and within the potential where
these do. -/
theorem StandsWithin.getSlewTarget {slew : SlewObject} (h : StandsWithin slew potential)
    (htarget : |target| ≤ potential) :
    Between slew.currentValue target (slew.getSlewTarget target) ∧
      |slew.getSlewTarget target| ≤ potential := by
  obtain ⟨⟨room, hroom⟩, hcurrent⟩ := h
  have hbetween := (hroom.getSlewTarget target).1
  exact ⟨hbetween, abs_le_of_between hbetween hcurrent htarget⟩

/-- A slew of a command at a value, which may change by thirty at once. -/
def kVARSlew (currentValue : ℚ) : SlewObject where
  slewRate := 1000
  currentValue := currentValue
  slewDeltaTime := 3 / 100
  slewMaxValue := currentValue + 30
  slewMinValue := currentValue - 30
  slewPrevTime := ⟨0, 0⟩

end HybridOs.SiteReactiveDispatch
