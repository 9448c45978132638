import HybridOs.SiteUtils
import HybridOs.WaterLevel

/-!
# The ESS manager's balancing of active power

The target is given out over the controllable ESS in proportion to a power of
their state of charge margin. An ESS whose part exceeds its limit gets the
limit and leaves the algorithm, and the rest is given out again. Amounts are
exact rationals; `powf` is a parameter.
-/

namespace HybridOs.SiteEssBalancing

open SiteUtils GreedyFill WaterLevel

/-! ## One ESS -/

/-- What the balancing reads and writes of an ESS. -/
structure AssetESS where
  /-- Whether the ESS can take a command. -/
  isControllable : Bool
  /-- State of charge in percent. -/
  soc : ℚ
  /-- Active power left beside the reactive power. -/
  activePowerLimit : ℚ
  /-- Charge the ESS can take. -/
  chargeablePower : ℚ
  /-- Discharge the ESS can give. -/
  dischargeablePower : ℚ
  /-- Lower strict limit, slews included. -/
  minLimitedActivePower : ℚ
  /-- Upper strict limit, slews included. -/
  maxLimitedActivePower : ℚ
  /-- Setpoint commanded. -/
  activePowerSetpoint : ℚ
  deriving DecidableEq, Repr

/-- Lower limit that accounts for reactive power, at most zero. -/
def AssetESS.getMinLimitedActivePower (ess : AssetESS) : ℚ :=
  -1 * min ess.activePowerLimit |ess.chargeablePower|

/-- Upper limit that accounts for reactive power. -/
def AssetESS.getMaxLimitedActivePower (ess : AssetESS) : ℚ :=
  min ess.activePowerLimit ess.dischargeablePower

/-- Command a setpoint, clipped at the strict limits or at what the ESS can
charge and discharge. -/
def AssetESS.setActivePowerSetpoint (ess : AssetESS) (setpoint : ℚ) (useStrictLimits : Bool) :
    AssetESS :=
  if useStrictLimits then
    {ess with activePowerSetpoint :=
      rangeCheck setpoint ess.maxLimitedActivePower ess.minLimitedActivePower}
  else
    {ess with activePowerSetpoint :=
      rangeCheck setpoint ess.dischargeablePower (-1 * ess.chargeablePower)}

/-! ## The algorithm -/

/-- An ESS in the algorithm; `ess` stands for the pointer to it. -/
structure SOCBalancingData where
  /-- The ESS. -/
  ess : ℕ
  /-- Weight of the ESS. -/
  contributionFactor : ℚ
  /-- Limit of the ESS in the direction of the target. -/
  powerLimit : ℚ
  deriving DecidableEq, Repr

/-- The ESS manager: pointers to its ESS and what the balancing is set to. -/
structure ESSManager where
  /-- Pointers to the ESS. -/
  pEss : List ℕ
  /-- Each ESS is listed once. -/
  distinct : pEss.Nodup
  /-- The ESS behind a pointer. -/
  ess : ℕ → AssetESS
  /-- Power to assign. -/
  essTargetActivePowerKW : ℚ
  /-- Exponent of the state of charge margin. -/
  socBalancingFactor : ℚ
  /-- Whether limits are balanced over the ESS. -/
  balancePowerDistribution : Bool

/-- Limit of an ESS in the direction of the power to assign. -/
def powerLimit (powerToAssign : ℚ) (ess : AssetESS) : ℚ :=
  if powerToAssign ≥ 0 then ess.getMaxLimitedActivePower else -1 * ess.getMinLimitedActivePower

/-- Margin to the end of the range the power drives towards; one percent at
the end of the range as long as there is power. -/
def socMargin (powerToAssign : ℚ) (ess : AssetESS) : ℚ :=
  let margin := if powerToAssign > 0 then ess.soc else 100 - ess.soc
  if margin = 0 ∧ powerLimit powerToAssign ess ≠ 0 then 1 else margin

/-- The entry of an ESS in the algorithm. -/
def balancingData (powf : ℚ → ℚ → ℚ) (socBalancingFactor powerToAssign : ℚ) (pointer : ℕ)
    (ess : AssetESS) : SOCBalancingData where
  ess := pointer
  contributionFactor := powf (socMargin powerToAssign ess) socBalancingFactor
  powerLimit := powerLimit powerToAssign ess

/-- Pointers to the ESS that can take a command. -/
def ESSManager.controllable (manager : ESSManager) : List ℕ :=
  manager.pEss.filter fun pointer => (manager.ess pointer).isControllable

/-- The entries of the controllable ESS. -/
def ESSManager.essAssetsToAssignPowerTo (manager : ESSManager) (powf : ℚ → ℚ → ℚ) :
    List SOCBalancingData :=
  manager.controllable.map fun pointer =>
    balancingData powf manager.socBalancingFactor manager.essTargetActivePowerKW pointer
      (manager.ess pointer)

/-- Sum of the contributions. -/
def aggregateContribution (data : List SOCBalancingData) : ℚ :=
  (data.map SOCBalancingData.contributionFactor).sum

/-- Power gain for which the parts add up to the power to assign. -/
def gain (data : List SOCBalancingData) (powerToAssign : ℚ) : ℚ :=
  if aggregateContribution data = 0 then 0 else powerToAssign / aggregateContribution data

/-- Command the ESS behind a pointer. -/
def setSetpoint (ess : ℕ → AssetESS) (pointer : ℕ) (setpoint : ℚ) : ℕ → AssetESS :=
  Function.update ess pointer ((ess pointer).setActivePowerSetpoint setpoint false)

/-- What one round leaves behind. -/
structure Round where
  /-- The ESS after the round. -/
  ess : ℕ → AssetESS
  /-- Power still to assign. -/
  powerToAssign : ℚ
  /-- Entries still in the algorithm. -/
  data : List SOCBalancingData
  /-- Whether a limit was violated. -/
  powerLimitViolated : Bool

/-- One round over the entries: each gets its part, up to the first whose part
exceeds its limit, which gets the limit and is erased. -/
def assignRound (balancePowerDistribution : Bool) (k powerToAssign : ℚ) :
    List SOCBalancingData → (ℕ → AssetESS) → Round
  | [], ess => ⟨ess, powerToAssign, [], false⟩
  | entry :: rest, ess =>
    let setpoint := k * entry.contributionFactor
    if balancePowerDistribution ∧ |setpoint| > entry.powerLimit then
      let signedPowerLimit :=
        if powerToAssign > 0 then entry.powerLimit else -1 * entry.powerLimit
      let ess := setSetpoint ess entry.ess signedPowerLimit
      ⟨ess, powerToAssign - (ess entry.ess).activePowerSetpoint, rest, true⟩
    else
      let round := assignRound balancePowerDistribution k powerToAssign rest
        (setSetpoint ess entry.ess setpoint)
      {round with data := entry :: round.data}

/-- Rounds until one violates no limit; `none` when more rounds are needed
than are allowed. -/
def assignRounds (balancePowerDistribution : Bool) :
    ℕ → ℚ → List SOCBalancingData → (ℕ → AssetESS) → Option (ℕ → AssetESS)
  | 0, _, _, _ => none
  | rounds + 1, powerToAssign, data, ess =>
    let round := assignRound balancePowerDistribution (gain data powerToAssign) powerToAssign
      data ess
    if round.powerLimitViolated then
      assignRounds balancePowerDistribution rounds round.powerToAssign round.data round.ess
    else some round.ess

/-- `ESS_Manager::calculate_ess_active_power`: the ESS after the balancing, if
the allowed rounds are enough. -/
def ESSManager.calculateEssActivePower (manager : ESSManager) (powf : ℚ → ℚ → ℚ)
    (rounds : ℕ) : Option (ℕ → AssetESS) :=
  assignRounds manager.balancePowerDistribution rounds manager.essTargetActivePowerKW
    (manager.essAssetsToAssignPowerTo powf) manager.ess

/-! ## One round -/

/-- Two states of an ESS that differ in the setpoint at most. -/
def SameUnit (ess ess' : AssetESS) : Prop :=
  ess' = {ess with activePowerSetpoint := ess'.activePowerSetpoint}

theorem SameUnit.refl (ess : AssetESS) : SameUnit ess ess := rfl

variable {ess' : AssetESS} {entry : SOCBalancingData} {k : ℚ}

theorem SameUnit.trans {ess ess'' : AssetESS} (h : SameUnit ess ess') (h' : SameUnit ess' ess'') :
    SameUnit ess ess'' := by
  unfold SameUnit at h h' ⊢
  rw [h', h]

theorem SameUnit.setActivePowerSetpoint (ess : AssetESS) (setpoint : ℚ) :
    SameUnit ess (ess.setActivePowerSetpoint setpoint false) := rfl

theorem SameUnit.dischargeablePower {ess : AssetESS} (h : SameUnit ess ess') :
    ess'.dischargeablePower = ess.dischargeablePower := by
  rw [h]

theorem SameUnit.chargeablePower {ess : AssetESS} (h : SameUnit ess ess') :
    ess'.chargeablePower = ess.chargeablePower := by
  rw [h]

theorem setSetpoint_same (ess : ℕ → AssetESS) (pointer : ℕ) (setpoint : ℚ) :
    setSetpoint ess pointer setpoint pointer =
      (ess pointer).setActivePowerSetpoint setpoint false :=
  Function.update_self ..

theorem setSetpoint_other (ess : ℕ → AssetESS) {pointer other : ℕ} (setpoint : ℚ)
    (h : other ≠ pointer) : setSetpoint ess pointer setpoint other = ess other :=
  Function.update_of_ne h ..

theorem setSetpoint_sameUnit (ess : ℕ → AssetESS) (pointer : ℕ) (setpoint : ℚ) (other : ℕ) :
    SameUnit (ess other) (setSetpoint ess pointer setpoint other) := by
  by_cases h : other = pointer
  · rw [h, setSetpoint_same]
    exact SameUnit.setActivePowerSetpoint _ _
  · rw [setSetpoint_other ess setpoint h]
    exact SameUnit.refl _

/-- Pointers of a list of entries. -/
def pointers (data : List SOCBalancingData) : List ℕ := data.map SOCBalancingData.ess

variable {data : List SOCBalancingData}

theorem mem_pointers (h : entry ∈ data) :
    entry.ess ∈ pointers data := List.mem_map_of_mem h

/-- A round only ever commands ESS of its entries. -/
theorem assignRound_frame (k powerToAssign : ℚ) (data : List SOCBalancingData)
    (ess : ℕ → AssetESS) (balance : Bool) (other : ℕ) :
    SameUnit (ess other) ((assignRound balance k powerToAssign data ess).ess other) ∧
    (other ∉ pointers data →
      (assignRound balance k powerToAssign data ess).ess other = ess other) := by
  induction data generalizing ess with
  | nil => exact ⟨SameUnit.refl _, fun _ => rfl⟩
  | cons entry rest ih =>
    simp only [assignRound]
    by_cases hexceeds : balance ∧ |k * entry.contributionFactor| > entry.powerLimit
    · rw [if_pos hexceeds]
      constructor
      · exact setSetpoint_sameUnit _ _ _ _
      · intro hother
        exact setSetpoint_other _ _ (List.ne_of_not_mem_cons hother)
    · rw [if_neg hexceeds]
      obtain ⟨hunit, hkept⟩ := ih (setSetpoint ess entry.ess (k * entry.contributionFactor))
      constructor
      · exact (setSetpoint_sameUnit _ _ _ _).trans hunit
      · intro hother
        dsimp only
        rw [hkept (List.not_mem_of_not_mem_cons hother),
          setSetpoint_other _ _ (List.ne_of_not_mem_cons hother)]

variable (powerToAssign : ℚ)

/-- The round ends at an entry whose part exceeds its limit. -/
theorem assignRound_cons_exceeds (rest : List SOCBalancingData) (ess : ℕ → AssetESS)
    (h : entry.powerLimit < |k * entry.contributionFactor|) :
    assignRound true k powerToAssign (entry :: rest) ess =
      let ess' := setSetpoint ess entry.ess
        (if powerToAssign > 0 then entry.powerLimit else -1 * entry.powerLimit)
      ⟨ess', powerToAssign - (ess' entry.ess).activePowerSetpoint, rest, true⟩ := by
  rw [assignRound]
  exact if_pos ⟨rfl, h⟩

/-- The round goes on past an entry whose part is inside its limit. -/
theorem assignRound_cons_within (rest : List SOCBalancingData) (ess : ℕ → AssetESS)
    (h : |k * entry.contributionFactor| ≤ entry.powerLimit) :
    assignRound true k powerToAssign (entry :: rest) ess =
      let round := assignRound true k powerToAssign rest
        (setSetpoint ess entry.ess (k * entry.contributionFactor))
      {round with data := entry :: round.data} := by
  rw [assignRound]
  exact if_neg fun hexceeds => not_lt.mpr h hexceeds.2

/-- A round that finds every part inside its limit commands the parts. -/
theorem assignRound_within (ess : ℕ → AssetESS) (hdistinct : (pointers data).Nodup)
    (hwithin : ∀ entry ∈ data, |k * entry.contributionFactor| ≤ entry.powerLimit) :
    (assignRound true k powerToAssign data ess).powerLimitViolated = false ∧
    ∀ entry ∈ data, (assignRound true k powerToAssign data ess).ess entry.ess =
      (ess entry.ess).setActivePowerSetpoint (k * entry.contributionFactor) false := by
  induction data generalizing ess with
  | nil => exact ⟨rfl, by simp⟩
  | cons entry rest ih =>
    obtain ⟨hnew, hrest⟩ := List.nodup_cons.mp hdistinct
    have hentry := hwithin entry (List.mem_cons_self ..)
    obtain ⟨hdone, hset⟩ := ih (setSetpoint ess entry.ess (k * entry.contributionFactor)) hrest
      (fun other hother => hwithin other (List.mem_cons_of_mem _ hother))
    rw [assignRound_cons_within powerToAssign rest ess hentry]
    constructor
    · exact hdone
    · intro other hother
      dsimp only
      rcases List.mem_cons.mp hother with heq | hother
      · rw [heq, (assignRound_frame _ _ _ _ _ _).2 hnew, setSetpoint_same]
      · have hne : other.ess ≠ entry.ess := fun h => hnew (h ▸ mem_pointers hother)
        rw [hset other hother, setSetpoint_other _ _ hne]

/-- A round erases the first entry whose part exceeds its limit and commands
it the limit. -/
theorem assignRound_exceeds (ess : ℕ → AssetESS) (hdistinct : (pointers data).Nodup)
    (hexceeds : ∃ entry ∈ data, entry.powerLimit < |k * entry.contributionFactor|) :
    ∃ entry rest, entry.powerLimit < |k * entry.contributionFactor| ∧ data.Perm (entry :: rest) ∧
      (assignRound true k powerToAssign data ess).powerLimitViolated = true ∧
      (assignRound true k powerToAssign data ess).data = rest ∧
      (assignRound true k powerToAssign data ess).powerToAssign = powerToAssign -
        ((assignRound true k powerToAssign data ess).ess entry.ess).activePowerSetpoint ∧
      (assignRound true k powerToAssign data ess).ess entry.ess =
        (ess entry.ess).setActivePowerSetpoint
          (if powerToAssign > 0 then entry.powerLimit else -1 * entry.powerLimit) false := by
  induction data generalizing ess with
  | nil => simp at hexceeds
  | cons head tail ih =>
    obtain ⟨hnew, htail⟩ := List.nodup_cons.mp hdistinct
    by_cases hhead : head.powerLimit < |k * head.contributionFactor|
    · rw [assignRound_cons_exceeds powerToAssign tail ess hhead]
      refine ⟨head, tail, hhead, List.Perm.refl _, rfl, rfl, rfl, ?_⟩
      exact setSetpoint_same _ _ _
    · rw [assignRound_cons_within powerToAssign tail ess (not_lt.mp hhead)]
      have hlater : ∃ entry ∈ tail, entry.powerLimit < |k * entry.contributionFactor| := by
        obtain ⟨entry, hmem, hentry⟩ := hexceeds
        rcases List.mem_cons.mp hmem with heq | hmem
        · rw [heq] at hentry
          exact absurd hentry hhead
        · exact ⟨entry, hmem, hentry⟩
      obtain ⟨entry, rest, hentry, hperm, hviolated, hdata, hpower, hset⟩ :=
        ih (setSetpoint ess head.ess (k * head.contributionFactor)) htail hlater
      have hmem : entry ∈ tail := hperm.symm.mem_iff.mp (List.mem_cons_self ..)
      have hne : entry.ess ≠ head.ess := fun h => hnew (h ▸ mem_pointers hmem)
      refine ⟨entry, head :: rest, hentry, ?_, hviolated, ?_, hpower, ?_⟩
      · exact (hperm.cons head).trans (List.Perm.swap entry head rest)
      · dsimp only
        rw [hdata]
      · dsimp only
        rw [hset, setSetpoint_other _ _ hne]

/-! ## The rounds fill to one level -/

/-- Entries whose limits and contributions suit a direction: parts up to the
limit pass the clip of the ESS, and only an ESS without room contributes
nothing. -/
structure Suits (direction : ℚ) (ess : ℕ → AssetESS) (entry : SOCBalancingData) : Prop where
  /-- Limits are magnitudes. -/
  limit_nonneg : 0 ≤ entry.powerLimit
  /-- Contributions are not negative. -/
  contribution_nonneg : 0 ≤ entry.contributionFactor
  /-- An ESS with room contributes. -/
  no_room : entry.contributionFactor = 0 → entry.powerLimit = 0
  /-- Parts up to the limit are commanded as they are. -/
  commanded : ∀ part, 0 ≤ part → part ≤ entry.powerLimit →
    rangeCheck (direction * part) (ess entry.ess).dischargeablePower
      (-1 * (ess entry.ess).chargeablePower) = direction * part

variable {direction : ℚ}

/-- The setpoint of a suited part. -/
theorem Suits.setpoint {ess ess' : ℕ → AssetESS} (h : Suits direction ess entry)
    (hunit : SameUnit (ess entry.ess) (ess' entry.ess)) {part : ℚ} (hpos : 0 ≤ part)
    (hle : part ≤ entry.powerLimit) :
    ((ess' entry.ess).setActivePowerSetpoint (direction * part) false).activePowerSetpoint =
      direction * part := by
  have hclip := h.commanded part hpos hle
  rw [← hunit.dischargeablePower, ← hunit.chargeablePower] at hclip
  exact hclip

/-- The gain is the fair level in the direction of the power. -/
theorem gain_eq (direction left : ℚ) (data : List SOCBalancingData) :
    gain data (direction * left) =
      direction * fairLevel SOCBalancingData.contributionFactor data left := by
  unfold gain fairLevel aggregateContribution capacity
  split_ifs
  · rw [mul_zero]
  · rw [mul_div_assoc]

/-- A part in a direction exceeds a limit when its magnitude does. -/
theorem abs_part (hdirection : |direction| = 1) {level contribution : ℚ} (hlevel : 0 ≤ level)
    (hcontribution : 0 ≤ contribution) :
    |direction * level * contribution| = level * contribution := by
  rw [mul_assoc, abs_mul, hdirection, one_mul, abs_of_nonneg (mul_nonneg hlevel hcontribution)]

/-- The signed limit points in the direction of the power. -/
theorem signedPowerLimit_eq {left : ℚ} (hdirection : direction = 1 ∨ direction = -1)
    (hleft : 0 < left) (limit : ℚ) :
    (if direction * left > 0 then limit else -1 * limit) = direction * limit := by
  rcases hdirection with hup | hdown
  · rw [hup, one_mul, one_mul, if_pos hleft]
  · have hneg : ¬ -1 * left > 0 := by linarith
    rw [hdown, if_neg hneg]

/-- A state of the rounds: the entries that are full carry their limits, the
amounts follow a filling, and only setpoints have changed since the start. -/
structure Progress (direction amount : ℚ) (ess₀ : ℕ → AssetESS)
    (full data : List SOCBalancingData) (left : ℚ) (ess : ℕ → AssetESS) : Prop where
  /-- Amounts follow a filling. -/
  filling : ∃ level, Filling SOCBalancingData.powerLimit SOCBalancingData.contributionFactor
    amount full data left level
  /-- Every ESS has one entry. -/
  distinct : (pointers (full ++ data)).Nodup
  /-- Entries in the algorithm suit the direction. -/
  suits : ∀ entry ∈ data, Suits direction ess₀ entry
  /-- Full entries are at their limits. -/
  full_set : ∀ entry ∈ full, (ess entry.ess).activePowerSetpoint = direction * entry.powerLimit
  /-- Nothing but setpoints has changed. -/
  units : ∀ pointer, SameUnit (ess₀ pointer) (ess pointer)
  /-- ESS outside the algorithm are left alone. -/
  others : ∀ pointer ∉ pointers (full ++ data), ess pointer = ess₀ pointer

/-- What the balancing leaves behind of the entries it started with. -/
structure Balanced (direction amount : ℚ) (entries : List SOCBalancingData)
    (ess ess' : ℕ → AssetESS) : Prop where
  /-- One level explains every setpoint. -/
  level : ∃ k, 0 ≤ k ∧
    (∀ entry ∈ entries, (ess' entry.ess).activePowerSetpoint =
      direction * min entry.powerLimit (k * entry.contributionFactor)) ∧
    (entries.map fun entry => (ess' entry.ess).activePowerSetpoint).sum =
      direction * min amount (entries.map SOCBalancingData.powerLimit).sum
  /-- Nothing but setpoints changes. -/
  units : ∀ pointer, SameUnit (ess pointer) (ess' pointer)
  /-- ESS outside the algorithm are left alone. -/
  others : ∀ pointer ∉ pointers entries, ess' pointer = ess pointer

variable {full : List SOCBalancingData} {amount : ℚ}

/-- Full entries have left the list the next round goes over. -/
theorem Progress.full_not_mem {left : ℚ} {ess₀ ess : ℕ → AssetESS}
    (h : Progress direction amount ess₀ full data left ess) (hentry : entry ∈ full) :
    entry.ess ∉ pointers data := by
  have hdistinct := h.distinct
  rw [pointers, List.map_append] at hdistinct
  exact fun hmem => (List.nodup_append.mp hdistinct).2.2 _ (mem_pointers hentry) _ hmem rfl

theorem Progress.data_distinct {left : ℚ} {ess₀ ess : ℕ → AssetESS}
    (h : Progress direction amount ess₀ full data left ess) : (pointers data).Nodup := by
  have hdistinct := h.distinct
  rw [pointers, List.map_append] at hdistinct
  exact (List.nodup_append.mp hdistinct).2.1

section Rounds

variable {direction amount left : ℚ} {ess₀ ess : ℕ → AssetESS} {full data : List SOCBalancingData}
  (hdirection : direction = 1 ∨ direction = -1)
  (h : Progress direction amount ess₀ full data left ess)
include hdirection h

theorem Progress.abs_part {entry : SOCBalancingData} (hentry : entry ∈ data) :
    |gain data (direction * left) * entry.contributionFactor| =
      fairLevel SOCBalancingData.contributionFactor data left * entry.contributionFactor := by
  have hunit : |direction| = 1 := by
    rcases hdirection with hup | hdown
    · rw [hup, abs_one]
    · rw [hdown, abs_neg, abs_one]
  have hcontribution := fun other hother => (h.suits other hother).contribution_nonneg
  obtain ⟨level, hfilling⟩ := h.filling
  rw [gain_eq]
  exact SiteEssBalancing.abs_part hunit
    (fairLevel_nonneg hcontribution (hfilling.left_nonneg hcontribution)) (hcontribution _ hentry)

/-- A round without a violation ends balanced. -/
theorem Progress.finish
    (hwithin : ∀ entry ∈ data,
      |gain data (direction * left) * entry.contributionFactor| ≤ entry.powerLimit) :
    (assignRound true (gain data (direction * left)) (direction * left) data
      ess).powerLimitViolated = false ∧
    Balanced direction amount (full ++ data) ess₀
      (assignRound true (gain data (direction * left)) (direction * left) data ess).ess := by
  obtain ⟨hdone, hset⟩ := assignRound_within (direction * left) ess h.data_distinct hwithin
  have hframe := assignRound_frame (gain data (direction * left)) (direction * left) data ess true
  have hfair : ∀ entry ∈ data,
      fairLevel SOCBalancingData.contributionFactor data left * entry.contributionFactor ≤
        entry.powerLimit := by
    intro entry hentry
    rw [← h.abs_part hdirection hentry]
    exact hwithin entry hentry
  have hcontribution := fun entry hentry => (h.suits entry hentry).contribution_nonneg
  obtain ⟨reached, hfilling⟩ := h.filling
  have hfairpos : 0 ≤ fairLevel SOCBalancingData.contributionFactor data left :=
    fairLevel_nonneg hcontribution (hfilling.left_nonneg hcontribution)
  obtain ⟨level, hlevel, hfull, hdata, hsum⟩ := hfilling.finish hcontribution
    (fun entry hentry => (h.suits entry hentry).no_room) hfair
  have hsetpoint : ∀ entry ∈ full ++ data,
      ((assignRound true (gain data (direction * left)) (direction * left) data
        ess).ess entry.ess).activePowerSetpoint = direction *
          part SOCBalancingData.powerLimit SOCBalancingData.contributionFactor level entry := by
    intro entry hentry
    rcases List.mem_append.mp hentry with hmem | hmem
    · rw [(hframe entry.ess).2 (h.full_not_mem hmem), h.full_set entry hmem, hfull entry hmem]
    · rw [hset entry hmem, hdata entry hmem, gain_eq, mul_assoc]
      apply (h.suits entry hmem).setpoint (h.units entry.ess)
      · exact mul_nonneg hfairpos (hcontribution entry hmem)
      · exact hfair entry hmem
  refine ⟨hdone, ⟨level, hlevel, hsetpoint, ?_⟩, ?_, ?_⟩
  · rw [List.map_congr_left hsetpoint, List.sum_map_mul_left, List.map_append, List.sum_append,
      List.map_append, List.sum_append]
    exact congrArg (direction * ·) hsum
  · intro pointer
    exact (h.units pointer).trans (hframe pointer).1
  · intro pointer hpointer
    have hnot : pointer ∉ pointers data := by
      intro hmem
      apply hpointer
      rw [pointers, List.map_append]
      exact List.mem_append_right _ hmem
    rw [(hframe pointer).2 hnot, h.others pointer hpointer]

/-- A round with a violation makes one entry full. -/
theorem Progress.leave
    (hexceeds : ∃ entry ∈ data,
      entry.powerLimit < |gain data (direction * left) * entry.contributionFactor|) :
    ∃ entry rest, data.Perm (entry :: rest) ∧
    (assignRound true (gain data (direction * left)) (direction * left) data
      ess).powerLimitViolated = true ∧
    (assignRound true (gain data (direction * left)) (direction * left) data ess).data = rest ∧
    (assignRound true (gain data (direction * left)) (direction * left) data
      ess).powerToAssign = direction * (left - entry.powerLimit) ∧
    Progress direction amount ess₀ (entry :: full) rest (left - entry.powerLimit)
      (assignRound true (gain data (direction * left)) (direction * left) data ess).ess := by
  obtain ⟨entry, rest, hentry, hperm, hviolated, hdata, hpower, hset⟩ :=
    assignRound_exceeds (direction * left) ess h.data_distinct hexceeds
  have hframe := assignRound_frame (gain data (direction * left)) (direction * left) data ess true
  have hmem : entry ∈ data := hperm.symm.mem_iff.mp (List.mem_cons_self ..)
  have hsuits := h.suits entry hmem
  have hcontribution := fun entry hentry => (h.suits entry hentry).contribution_nonneg
  rw [h.abs_part hdirection hmem] at hentry
  obtain ⟨reached, hfilling⟩ := h.filling
  have hleftpos : 0 < left := by
    rcases (hfilling.left_nonneg hcontribution).lt_or_eq with hpos | hzero
    · exact hpos
    · -- with nothing left no part exceeds a limit
      have hnone : fairLevel SOCBalancingData.contributionFactor data left = 0 := by
        rw [← hzero, fairLevel, zero_div, ite_self]
      rw [hnone, zero_mul] at hentry
      exact absurd hentry (not_lt.mpr hsuits.limit_nonneg)
  rw [signedPowerLimit_eq hdirection hleftpos] at hset
  have hsetpoint : ((assignRound true (gain data (direction * left)) (direction * left) data
      ess).ess entry.ess).activePowerSetpoint = direction * entry.powerLimit := by
    rw [hset]
    exact hsuits.setpoint (h.units entry.ess) hsuits.limit_nonneg le_rfl
  have hwhole : (full ++ data).Perm ((entry :: full) ++ rest) :=
    (hperm.append_left full).trans List.perm_middle
  refine ⟨entry, rest, hperm, hviolated, hdata, ?_, ?_⟩
  · rw [hpower, hsetpoint, mul_sub]
  · constructor
    · exact ⟨_, hfilling.leave hcontribution hperm hsuits.limit_nonneg hentry⟩
    · exact ((hwhole.map _).nodup_iff).mp h.distinct
    · intro other hother
      exact h.suits other (hperm.symm.mem_iff.mp (List.mem_cons_of_mem entry hother))
    · intro other hother
      rcases List.mem_cons.mp hother with heq | hother
      · rw [heq, hsetpoint]
      · rw [(hframe other.ess).2 (h.full_not_mem hother), h.full_set other hother]
    · intro pointer
      exact (h.units pointer).trans (hframe pointer).1
    · intro pointer hpointer
      have hbefore : pointer ∉ pointers (full ++ data) :=
        fun hin => hpointer ((hwhole.map _).mem_iff.mp hin)
      have hnot : pointer ∉ pointers data := by
        intro hin
        apply hbefore
        rw [pointers, List.map_append]
        exact List.mem_append_right _ hin
      rw [(hframe pointer).2 hnot, h.others pointer hbefore]

end Rounds

/-- Balanced entries may be listed in another order. -/
theorem Balanced.perm {entries entries' : List SOCBalancingData} {ess ess' : ℕ → AssetESS}
    (h : Balanced direction amount entries ess ess') (hperm : entries.Perm entries') :
    Balanced direction amount entries' ess ess' := by
  obtain ⟨k, hk, hset, hsum⟩ := h.level
  refine ⟨⟨k, hk, ?_, ?_⟩, h.units, ?_⟩
  · intro entry hentry
    exact hset entry (hperm.mem_iff.mpr hentry)
  · rw [← (hperm.map _).sum_eq, ← (hperm.map SOCBalancingData.powerLimit).sum_eq]
    exact hsum
  · intro pointer hpointer
    exact h.others pointer fun hin => hpointer ((hperm.map _).mem_iff.mp hin)

/-- More rounds than entries are enough, and they end balanced. -/
theorem Progress.rounds {left : ℚ} {ess₀ ess : ℕ → AssetESS}
    (hdirection : direction = 1 ∨ direction = -1)
    (h : Progress direction amount ess₀ full data left ess) :
    ∃ ess', (∀ rounds, data.length < rounds →
      assignRounds true rounds (direction * left) data ess = some ess') ∧
      Balanced direction amount (full ++ data) ess₀ ess' := by
  induction hn : data.length using Nat.strong_induction_on generalizing full data left ess with
  | _ n ih =>
    by_cases hexceeds : ∃ entry ∈ data,
        entry.powerLimit < |gain data (direction * left) * entry.contributionFactor|
    · obtain ⟨entry, rest, hperm, hviolated, hdata, hpower, hnext⟩ := h.leave hdirection hexceeds
      have hlength := hperm.length_eq
      rw [List.length_cons] at hlength
      obtain ⟨ess', hrun, hbalanced⟩ := ih rest.length (by omega) hnext rfl
      have hwhole : ((entry :: full) ++ rest).Perm (full ++ data) :=
        ((hperm.append_left full).trans List.perm_middle).symm
      refine ⟨ess', ?_, hbalanced.perm hwhole⟩
      intro rounds hrounds
      obtain ⟨later, hlater⟩ : ∃ later, rounds = later + 1 := ⟨rounds - 1, by omega⟩
      rw [hlater, assignRounds, if_pos hviolated, hpower, hdata]
      exact hrun later (by omega)
    · push Not at hexceeds
      obtain ⟨hdone, hbalanced⟩ := h.finish hdirection hexceeds
      refine ⟨_, ?_, hbalanced⟩
      intro rounds hrounds
      obtain ⟨later, hlater⟩ : ∃ later, rounds = later + 1 := ⟨rounds - 1, by omega⟩
      rw [hlater, assignRounds, hdone]
      rfl

/-! ## The balancing of the manager -/

/-- Limits of an ESS that are magnitudes, and a state of charge in percent. -/
structure AssetESS.InRange (ess : AssetESS) : Prop where
  /-- Active power left is not negative. -/
  activePowerLimit_nonneg : 0 ≤ ess.activePowerLimit
  /-- Charge is a magnitude. -/
  chargeable_nonneg : 0 ≤ ess.chargeablePower
  /-- Discharge is a magnitude. -/
  dischargeable_nonneg : 0 ≤ ess.dischargeablePower
  /-- Not below empty. -/
  soc_nonneg : 0 ≤ ess.soc
  /-- Not above full. -/
  soc_le : ess.soc ≤ 100

/-- What the balancing relies on of `powf` at its exponent: powers of margins
above zero are above zero, and the power of zero is not negative. -/
structure PowerOfMargin (powf : ℚ → ℚ → ℚ) (exponent : ℚ) : Prop where
  /-- Margins above zero contribute. -/
  pos : ∀ margin, 0 < margin → 0 < powf margin exponent
  /-- No margin never contributes less than nothing. -/
  zero_nonneg : 0 ≤ powf 0 exponent

namespace AssetESS.InRange

variable {ess : AssetESS} (h : ess.InRange)
include h

theorem maxLimited_nonneg : 0 ≤ ess.getMaxLimitedActivePower :=
  le_min h.activePowerLimit_nonneg h.dischargeable_nonneg

theorem minLimited_eq :
    -1 * ess.getMinLimitedActivePower = min ess.activePowerLimit ess.chargeablePower := by
  rw [AssetESS.getMinLimitedActivePower, abs_of_nonneg h.chargeable_nonneg]
  ring

theorem minLimited_nonpos : ess.getMinLimitedActivePower ≤ 0 := by
  have hmagnitude : 0 ≤ min ess.activePowerLimit ess.chargeablePower :=
    le_min h.activePowerLimit_nonneg h.chargeable_nonneg
  rw [← h.minLimited_eq] at hmagnitude
  linarith

theorem powerLimit_nonneg (target : ℚ) : 0 ≤ powerLimit target ess := by
  unfold powerLimit
  split_ifs
  · exact h.maxLimited_nonneg
  · have hnonpos := h.minLimited_nonpos
    linarith

/-- An ESS with room has a margin above zero. -/
theorem socMargin_pos {target : ℚ} (hroom : powerLimit target ess ≠ 0) :
    0 < socMargin target ess := by
  have hmargin : 0 ≤ if target > 0 then ess.soc else 100 - ess.soc := by
    split_ifs
    · exact h.soc_nonneg
    · exact sub_nonneg.mpr h.soc_le
  unfold socMargin
  by_cases hzero : (if target > 0 then ess.soc else 100 - ess.soc) = 0
  · rw [if_pos ⟨hzero, hroom⟩]
    exact one_pos
  · rw [if_neg fun hboth => hzero hboth.1]
    exact lt_of_le_of_ne hmargin (Ne.symm hzero)

theorem socMargin_nonneg (target : ℚ) : 0 ≤ socMargin target ess := by
  by_cases hroom : powerLimit target ess = 0
  · unfold socMargin
    rw [if_neg fun hboth => hboth.2 hroom]
    split_ifs
    · exact h.soc_nonneg
    · exact sub_nonneg.mpr h.soc_le
  · exact (h.socMargin_pos hroom).le

/-- A part up to the limit passes the clip of the ESS. -/
theorem commanded {target part : ℚ}
    (hdirection : 0 ≤ target ∧ direction = 1 ∨ target < 0 ∧ direction = -1) (hpos : 0 ≤ part)
    (hle : part ≤ powerLimit target ess) :
    rangeCheck (direction * part) ess.dischargeablePower (-1 * ess.chargeablePower) =
      direction * part := by
  have hcharge := h.chargeable_nonneg
  have hdischarge := h.dischargeable_nonneg
  rw [rangeCheck_eq_clamp (by linarith)]
  rcases hdirection with ⟨htarget, hup⟩ | ⟨htarget, hdown⟩
  · rw [powerLimit, if_pos htarget] at hle
    have hroom : part ≤ ess.dischargeablePower := hle.trans (min_le_right _ _)
    rw [hup, one_mul, max_eq_right (by linarith), min_eq_right hroom]
  · rw [powerLimit, if_neg (not_le.mpr htarget), h.minLimited_eq] at hle
    have hroom : part ≤ ess.chargeablePower := hle.trans (min_le_right _ _)
    rw [hdown, max_eq_right (by linarith), min_eq_right (by linarith)]

/-- The entry of an ESS in range suits the direction of the target. -/
theorem suits {powf : ℚ → ℚ → ℚ} {exponent target : ℚ} (hpowf : PowerOfMargin powf exponent)
    (hdirection : 0 ≤ target ∧ direction = 1 ∨ target < 0 ∧ direction = -1) {pointer : ℕ}
    {store : ℕ → AssetESS} (hstore : store pointer = ess) :
    Suits direction store (balancingData powf exponent target pointer ess) := by
  have hcontribution : 0 ≤ powf (socMargin target ess) exponent := by
    rcases (h.socMargin_nonneg target).lt_or_eq with hpos | hzero
    · exact (hpowf.pos _ hpos).le
    · rw [← hzero]
      exact hpowf.zero_nonneg
  constructor
  · exact h.powerLimit_nonneg target
  · exact hcontribution
  · intro hnone
    by_contra hroom
    exact absurd hnone (hpowf.pos _ (h.socMargin_pos hroom)).ne'
  · intro part hpos hle
    change rangeCheck (direction * part) (store pointer).dischargeablePower
      (-1 * (store pointer).chargeablePower) = direction * part
    rw [hstore]
    exact h.commanded hdirection hpos hle

end AssetESS.InRange

/-- Sum of the discharge limits of the controllable ESS. -/
def ESSManager.dischargeLimits (manager : ESSManager) : ℚ :=
  (manager.controllable.map fun pointer =>
    (manager.ess pointer).getMaxLimitedActivePower).sum

/-- Sum of the charge limits of the controllable ESS, as a magnitude. -/
def ESSManager.chargeLimits (manager : ESSManager) : ℚ :=
  (manager.controllable.map fun pointer =>
    -1 * (manager.ess pointer).getMinLimitedActivePower).sum

/-- Sum of the setpoints of the controllable ESS. -/
def ESSManager.assigned (manager : ESSManager) (ess : ℕ → AssetESS) : ℚ :=
  (manager.controllable.map fun pointer => (ess pointer).activePowerSetpoint).sum

/-- Sign of a number as a factor. -/
def signFactor (target : ℚ) : ℚ := if target > 0 then 1 else if target < 0 then -1 else 0

/-- What the balancing promises of the ESS it leaves behind. -/
structure FairlyAssigned (manager : ESSManager) (powf : ℚ → ℚ → ℚ) (ess' : ℕ → AssetESS) :
    Prop where
  /-- The setpoints add up to the target, clamped to what the ESS can do. -/
  sum_eq : manager.assigned ess' =
    max (-manager.chargeLimits) (min manager.dischargeLimits manager.essTargetActivePowerKW)
  /-- One level explains every setpoint. -/
  level : ∃ k, 0 ≤ k ∧ ∀ pointer ∈ manager.controllable,
    (ess' pointer).activePowerSetpoint = signFactor manager.essTargetActivePowerKW *
      min (powerLimit manager.essTargetActivePowerKW (manager.ess pointer))
        (k * powf (socMargin manager.essTargetActivePowerKW (manager.ess pointer))
          manager.socBalancingFactor)
  /-- No ESS exceeds its limits. -/
  within : ∀ pointer ∈ manager.controllable,
    (manager.ess pointer).getMinLimitedActivePower ≤ (ess' pointer).activePowerSetpoint ∧
      (ess' pointer).activePowerSetpoint ≤ (manager.ess pointer).getMaxLimitedActivePower
  /-- Nothing but setpoints changes. -/
  units : ∀ pointer, SameUnit (manager.ess pointer) (ess' pointer)
  /-- Only controllable ESS are commanded. -/
  others : ∀ pointer ∉ manager.controllable, ess' pointer = manager.ess pointer

section Manager

variable {manager : ESSManager} {powf : ℚ → ℚ → ℚ}
  (hpowf : PowerOfMargin powf manager.socBalancingFactor)
  (hrange : ∀ pointer ∈ manager.controllable, (manager.ess pointer).InRange)

theorem pointers_essAssetsToAssignPowerTo (manager : ESSManager) (powf : ℚ → ℚ → ℚ) :
    pointers (manager.essAssetsToAssignPowerTo powf) = manager.controllable := by
  unfold pointers ESSManager.essAssetsToAssignPowerTo
  rw [List.map_map]
  exact List.map_id' _

include hpowf hrange

/-- The first round starts from an empty filling. -/
theorem Progress.ofManager
    (hdirection : 0 ≤ manager.essTargetActivePowerKW ∧ direction = 1 ∨
      manager.essTargetActivePowerKW < 0 ∧ direction = -1) (hamount : 0 ≤ amount) :
    Progress direction amount manager.ess [] (manager.essAssetsToAssignPowerTo powf) amount
      manager.ess := by
  constructor
  · exact ⟨0, Filling.start _ _ hamount _⟩
  · rw [List.nil_append, pointers_essAssetsToAssignPowerTo]
    exact manager.distinct.filter _
  · intro entry hentry
    obtain ⟨pointer, hpointer, heq⟩ := List.mem_map.mp hentry
    rw [← heq]
    exact (hrange pointer hpointer).suits hpowf hdirection rfl
  · simp
  · exact fun pointer => SameUnit.refl _
  · exact fun pointer _ => rfl

/-- More rounds than controllable ESS are enough, and they end balanced. -/
theorem calculateEssActivePower_balanced (hbalance : manager.balancePowerDistribution = true)
    (hdirection : 0 ≤ manager.essTargetActivePowerKW ∧ direction = 1 ∨
      manager.essTargetActivePowerKW < 0 ∧ direction = -1) (hamount : 0 ≤ amount)
    (htarget : direction * amount = manager.essTargetActivePowerKW) :
    ∃ ess', (∀ rounds, manager.controllable.length < rounds →
      manager.calculateEssActivePower powf rounds = some ess') ∧
      Balanced direction amount (manager.essAssetsToAssignPowerTo powf) manager.ess ess' := by
  have hstart := Progress.ofManager hpowf hrange hdirection hamount
  have hsign : direction = 1 ∨ direction = -1 := hdirection.imp And.right And.right
  have hlength : (manager.essAssetsToAssignPowerTo powf).length = manager.controllable.length :=
    List.length_map _
  obtain ⟨ess', hrun, hbalanced⟩ := hstart.rounds hsign
  refine ⟨ess', ?_, hbalanced⟩
  intro rounds hrounds
  unfold ESSManager.calculateEssActivePower
  rw [hbalance, ← htarget]
  exact hrun rounds (by omega)

omit hpowf hrange in
/-- The direction of a target and its sides. -/
theorem direction_sides (target : ℚ) :
    0 ≤ target ∧ (if 0 ≤ target then (1 : ℚ) else -1) = 1 ∨
      target < 0 ∧ (if 0 ≤ target then (1 : ℚ) else -1) = -1 := by
  by_cases hside : 0 ≤ target
  · exact Or.inl ⟨hside, if_pos hside⟩
  · exact Or.inr ⟨not_le.mp hside, if_neg hside⟩

/-- Limits and contributions of the entries are not negative. -/
theorem entries_nonneg : ∀ entry ∈ manager.essAssetsToAssignPowerTo powf,
    0 ≤ entry.powerLimit ∧ 0 ≤ entry.contributionFactor := by
  intro entry hentry
  obtain ⟨pointer, hpointer, heq⟩ := List.mem_map.mp hentry
  have hsuits : Suits _ manager.ess _ := (hrange pointer hpointer).suits hpowf
    (direction_sides manager.essTargetActivePowerKW) (rfl : manager.ess pointer = _)
  rw [← heq]
  exact ⟨hsuits.limit_nonneg, hsuits.contribution_nonneg⟩

/-- Parts of one level that add up to nothing are all nothing. -/
theorem part_eq_zero {k : ℚ} (hk : 0 ≤ k)
    (hsum : capacity (fun entry : SOCBalancingData =>
      min entry.powerLimit (k * entry.contributionFactor))
        (manager.essAssetsToAssignPowerTo powf) = 0) :
    ∀ entry ∈ manager.essAssetsToAssignPowerTo powf,
      min entry.powerLimit (k * entry.contributionFactor) = 0 := by
  have hparts : ∀ entry ∈ manager.essAssetsToAssignPowerTo powf,
      0 ≤ min entry.powerLimit (k * entry.contributionFactor) := by
    intro entry hentry
    obtain ⟨hlimit, hcontribution⟩ := entries_nonneg hpowf hrange entry hentry
    exact le_min hlimit (mul_nonneg hk hcontribution)
  exact weight_eq_zero hparts hsum

omit hpowf hrange in
/-- The limits of the entries are those of the ESS in the direction of the target. -/
theorem entries_powerLimit_sum (manager : ESSManager) (powf : ℚ → ℚ → ℚ) :
    ((manager.essAssetsToAssignPowerTo powf).map SOCBalancingData.powerLimit).sum =
      if 0 ≤ manager.essTargetActivePowerKW then manager.dischargeLimits
      else manager.chargeLimits := by
  unfold ESSManager.essAssetsToAssignPowerTo ESSManager.dischargeLimits ESSManager.chargeLimits
  rw [List.map_map]
  split_ifs with hside
  · refine congrArg List.sum (List.map_congr_left fun pointer _ => ?_)
    exact if_pos hside
  · refine congrArg List.sum (List.map_congr_left fun pointer _ => ?_)
    exact if_neg hside

omit hpowf in
theorem dischargeLimits_nonneg : 0 ≤ manager.dischargeLimits := by
  unfold ESSManager.dischargeLimits
  exact capacity_nonneg fun pointer hpointer => (hrange pointer hpointer).maxLimited_nonneg

omit hpowf in
theorem chargeLimits_nonneg : 0 ≤ manager.chargeLimits := by
  unfold ESSManager.chargeLimits
  apply capacity_nonneg
  intro pointer hpointer
  have hnonpos := (hrange pointer hpointer).minLimited_nonpos
  linarith

omit hpowf in
/-- The amount given out in the direction of the target is the clamped target. -/
theorem clamped_target
    (hdirection : 0 ≤ manager.essTargetActivePowerKW ∧ direction = 1 ∨
      manager.essTargetActivePowerKW < 0 ∧ direction = -1) :
    direction * min |manager.essTargetActivePowerKW|
      (if 0 ≤ manager.essTargetActivePowerKW then manager.dischargeLimits
        else manager.chargeLimits) =
      max (-manager.chargeLimits) (min manager.dischargeLimits manager.essTargetActivePowerKW) := by
  have hcharge := chargeLimits_nonneg hrange
  have hdischarge := dischargeLimits_nonneg hrange
  rcases hdirection with ⟨htarget, hup⟩ | ⟨htarget, hdown⟩
  · have hlow : -manager.chargeLimits ≤
        min manager.dischargeLimits manager.essTargetActivePowerKW :=
      le_min (by linarith) (by linarith)
    rw [hup, one_mul, if_pos htarget, abs_of_nonneg htarget, max_eq_right hlow, min_comm]
  · have hhigh : min manager.dischargeLimits manager.essTargetActivePowerKW =
        manager.essTargetActivePowerKW := min_eq_right (by linarith)
    rw [hdown, if_neg (not_le.mpr htarget), abs_of_neg htarget, hhigh, neg_one_mul,
      ← max_neg_neg, neg_neg, max_comm]

/-- The setpoints of a balanced run, read for the ESS of the manager. -/
theorem Balanced.fairlyAssigned {ess' : ℕ → AssetESS}
    (hdirection : 0 ≤ manager.essTargetActivePowerKW ∧ direction = 1 ∨
      manager.essTargetActivePowerKW < 0 ∧ direction = -1)
    (h : Balanced direction |manager.essTargetActivePowerKW|
      (manager.essAssetsToAssignPowerTo powf) manager.ess ess') :
    FairlyAssigned manager powf ess' := by
  obtain ⟨k, hk, hset, hsum⟩ := h.level
  have hentry : ∀ pointer ∈ manager.controllable,
      balancingData powf manager.socBalancingFactor manager.essTargetActivePowerKW pointer
        (manager.ess pointer) ∈ manager.essAssetsToAssignPowerTo powf :=
    fun pointer hpointer => List.mem_map_of_mem hpointer
  have hsetpoint : ∀ pointer ∈ manager.controllable, (ess' pointer).activePowerSetpoint =
      direction * min (powerLimit manager.essTargetActivePowerKW (manager.ess pointer))
        (k * powf (socMargin manager.essTargetActivePowerKW (manager.ess pointer))
          manager.socBalancingFactor) :=
    fun pointer hpointer => hset _ (hentry pointer hpointer)
  have hnonneg : ∀ pointer ∈ manager.controllable,
      0 ≤ min (powerLimit manager.essTargetActivePowerKW (manager.ess pointer))
        (k * powf (socMargin manager.essTargetActivePowerKW (manager.ess pointer))
          manager.socBalancingFactor) := by
    intro pointer hpointer
    obtain ⟨hlimit, hcontribution⟩ := entries_nonneg hpowf hrange _ (hentry pointer hpointer)
    exact le_min hlimit (mul_nonneg hk hcontribution)
  constructor
  · rw [← clamped_target hrange hdirection, ← entries_powerLimit_sum manager powf, ← hsum]
    unfold ESSManager.assigned ESSManager.essAssetsToAssignPowerTo
    rw [List.map_map]
    rfl
  · refine ⟨k, hk, ?_⟩
    intro pointer hpointer
    rw [hsetpoint pointer hpointer]
    rcases hdirection with ⟨htarget, hup⟩ | ⟨htarget, hdown⟩
    · rcases htarget.lt_or_eq with hpos | hzero
      · rw [hup, signFactor, if_pos hpos]
      · -- a target of zero gives out nothing
        have hnone : capacity (fun entry : SOCBalancingData =>
            min entry.powerLimit (k * entry.contributionFactor))
              (manager.essAssetsToAssignPowerTo powf) = 0 := by
          have hparts := hsum
          rw [List.map_congr_left hset, List.sum_map_mul_left, hup, one_mul, one_mul, ← hzero,
            abs_zero, entries_powerLimit_sum, if_pos htarget,
            min_eq_left (dischargeLimits_nonneg hrange)] at hparts
          exact hparts
        have hpart := part_eq_zero hpowf hrange hk hnone _ (hentry pointer hpointer)
        change min (powerLimit manager.essTargetActivePowerKW (manager.ess pointer))
          (k * powf (socMargin manager.essTargetActivePowerKW (manager.ess pointer))
            manager.socBalancingFactor) = 0 at hpart
        rw [hpart, mul_zero, mul_zero]
    · rw [hdown, signFactor, if_neg (not_lt.mpr htarget.le), if_pos htarget]
  · intro pointer hpointer
    have hpart := hnonneg pointer hpointer
    have hlimit := min_le_left
      (powerLimit manager.essTargetActivePowerKW (manager.ess pointer))
      (k * powf (socMargin manager.essTargetActivePowerKW (manager.ess pointer))
        manager.socBalancingFactor)
    have hmax := (hrange pointer hpointer).maxLimited_nonneg
    have hmin := (hrange pointer hpointer).minLimited_nonpos
    rw [hsetpoint pointer hpointer]
    rcases hdirection with ⟨htarget, hup⟩ | ⟨htarget, hdown⟩
    · have hroom : powerLimit manager.essTargetActivePowerKW (manager.ess pointer) =
          (manager.ess pointer).getMaxLimitedActivePower := if_pos htarget
      rw [hup, one_mul]
      constructor <;> linarith
    · have hroom : powerLimit manager.essTargetActivePowerKW (manager.ess pointer) =
          -1 * (manager.ess pointer).getMinLimitedActivePower := if_neg (not_le.mpr htarget)
      rw [hdown, neg_one_mul]
      constructor <;> linarith
  · exact h.units
  · intro pointer hpointer
    apply h.others
    rw [pointers_essAssetsToAssignPowerTo]
    exact hpointer

/-- With the balancing enabled, more rounds than controllable ESS are enough,
and the setpoints they leave are fair and add up to the clamped target. -/
theorem calculateEssActivePower_fair (hbalance : manager.balancePowerDistribution = true) :
    ∃ ess', (∀ rounds, manager.controllable.length + 1 ≤ rounds →
      manager.calculateEssActivePower powf rounds = some ess') ∧
      FairlyAssigned manager powf ess' := by
  have hdirection := direction_sides manager.essTargetActivePowerKW
  have htarget : (if 0 ≤ manager.essTargetActivePowerKW then (1 : ℚ) else -1) *
      |manager.essTargetActivePowerKW| = manager.essTargetActivePowerKW := by
    split_ifs with hside
    · rw [one_mul, abs_of_nonneg hside]
    · rw [abs_of_neg (not_le.mp hside)]
      ring
  obtain ⟨ess', hrun, hbalanced⟩ := calculateEssActivePower_balanced hpowf hrange hbalance
    hdirection (abs_nonneg _) htarget
  exact ⟨ess', fun rounds hrounds => hrun rounds hrounds,
    hbalanced.fairlyAssigned hpowf hrange hdirection⟩

end Manager

/-- An ESS at half charge that can take and give 10 kW, limited to `limit`. -/
def halfFull (limit : ℚ) : AssetESS := ⟨true, 50, limit, 10, 10, -10, 10, 0⟩

/-- Two ESS at half charge, limited to 3 and 5 kW, to give 20 kW. -/
def twoHalfFull (balancePowerDistribution : Bool) : ESSManager where
  pEss := [0, 1]
  distinct := by decide
  ess pointer := if pointer = 0 then halfFull 3 else halfFull 5
  essTargetActivePowerKW := 20
  -- the calibration switches the balancing off and sets the factor to zero
  socBalancingFactor := if balancePowerDistribution then 2 else 0
  balancePowerDistribution := balancePowerDistribution

/-- What `powf` computes for the exponents zero and two. -/
def squareOrOne (margin exponent : ℚ) : ℚ := if exponent = 0 then 1 else margin * margin

/-- Its values are powers of margins. -/
theorem squareOrOne_powerOfMargin (exponent : ℚ) : PowerOfMargin squareOrOne exponent := by
  unfold squareOrOne
  constructor
  · intro margin hmargin
    split_ifs
    · exact one_pos
    · exact mul_pos hmargin hmargin
  · split_ifs <;> norm_num

theorem halfFull_inRange {limit : ℚ} (h : 0 ≤ limit) : (halfFull limit).InRange := by
  constructor
  · exact h
  all_goals norm_num [halfFull]

theorem twoHalfFull_inRange (balancePowerDistribution : Bool) :
    ∀ pointer ∈ (twoHalfFull balancePowerDistribution).controllable,
      ((twoHalfFull balancePowerDistribution).ess pointer).InRange := by
  intro pointer _
  unfold twoHalfFull
  dsimp only
  split_ifs
  · exact halfFull_inRange (by norm_num)
  · exact halfFull_inRange (by norm_num)

theorem calculateEssActivePower_fair_twoHalfFull :
    ∃ ess', (∀ rounds, (twoHalfFull true).controllable.length + 1 ≤ rounds →
      (twoHalfFull true).calculateEssActivePower squareOrOne rounds = some ess') ∧
      FairlyAssigned (twoHalfFull true) squareOrOne ess' :=
  calculateEssActivePower_fair (squareOrOne_powerOfMargin _) (twoHalfFull_inRange true) rfl

/-- With the balancing switched off each of the two is commanded half the
target, above its limit, and the setpoints do not add up to the clamped target. -/
theorem twoHalfFull_unbalanced :
    ¬ (∀ (manager : ESSManager) (powf : ℚ → ℚ → ℚ),
      PowerOfMargin powf manager.socBalancingFactor →
      (∀ pointer ∈ manager.controllable, (manager.ess pointer).InRange) →
      ∃ ess', (∀ rounds, manager.controllable.length + 1 ≤ rounds →
        manager.calculateEssActivePower powf rounds = some ess') ∧
        FairlyAssigned manager powf ess') := by
  intro hall
  obtain ⟨ess', hrun, hfair⟩ := hall (twoHalfFull false) squareOrOne
    (squareOrOne_powerOfMargin _) (twoHalfFull_inRange false)
  have hcontrollable : (twoHalfFull false).controllable = [0, 1] := by decide
  have hassigned : (ess' 0).activePowerSetpoint = 10 := by
    have hcommanded : ((twoHalfFull false).calculateEssActivePower squareOrOne 3).map
        (fun ess => (ess 0).activePowerSetpoint) = some 10 := by decide +kernel
    rw [hrun 3 (by rw [hcontrollable]; decide)] at hcommanded
    exact Option.some.inj hcommanded
  have hwithin := (hfair.within 0 (by rw [hcontrollable]; decide)).2
  rw [hassigned] at hwithin
  norm_num [twoHalfFull, halfFull, AssetESS.getMaxLimitedActivePower] at hwithin

end HybridOs.SiteEssBalancing
