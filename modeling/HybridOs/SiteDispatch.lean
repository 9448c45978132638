import HybridOs.GreedyFill
import HybridOs.SiteAssetCmd

/-!
# What the dispatch passes do to the commands

Each pass is a greedy fill: the assets are the slots, in priority order, and
their unused power is the room. The lemmas name the share every asset gets,
what happens to its request, and what a pass leaves alone; command bounds and
power conservation of the whole dispatch follow from the shares.
-/

namespace HybridOs.SiteDispatch

open SiteUtils SiteAssetCmd GreedyFill

variable (flags : ChargeDispatch) (data : AssetCmdData) (cmd : ℚ)

/-- What is unused is not negative. -/
theorem unusedDischg_nonneg : 0 ≤ data.calculateUnusedDischgKW := by
  unfold AssetCmdData.calculateUnusedDischgKW
  split_ifs
  · exact le_rfl
  · rw [zeroCheck_eq_max]
    exact le_max_left _ _

/-- A request after the asset worked off `share` of it. -/
def workedOff (kWRequest share : ℚ) : ℚ :=
  if kWRequest > 0 then max 0 (kWRequest - share) else kWRequest

/-- Nothing dispatched leaves the request. -/
theorem workedOff_zero (kWRequest : ℚ) : workedOff kWRequest 0 = kWRequest := by
  unfold workedOff
  split_ifs with h
  · rw [sub_zero, max_eq_right h.le]
  · rfl

/-- One contribution is the positive command capped by the unused power. -/
theorem contribution_eq :
    (data.calculateSourceKWContribution cmd).2 = min (max 0 cmd) data.calculateUnusedDischgKW := by
  have hu := unusedDischg_nonneg data
  unfold AssetCmdData.calculateSourceKWContribution
  dsimp only
  by_cases h : cmd ≤ 0 ∨ data.calculateUnusedDischgKW ≤ 0
  · rw [if_pos h]
    rcases h with h | h
    · rw [max_eq_left h, min_eq_left hu]
    · rw [le_antisymm h hu, min_eq_right (le_max_left _ _)]
  · rw [if_neg h, add_sub_cancel_left]
    rw [not_or, not_le, not_le] at h
    rw [max_eq_right h.1.le]
    by_cases hc : cmd > data.calculateUnusedDischgKW
    · rw [if_pos hc, min_eq_right hc.le]
    · rw [if_neg hc, min_eq_left (not_lt.mp hc)]

/-- A contribution moves the command and the request of the asset, and nothing
else the dispatch reads. -/
theorem contribution_data (data : AssetCmdData) (cmd : ℚ) :
    let share := min (max 0 cmd) data.calculateUnusedDischgKW
    (data.calculateSourceKWContribution cmd).1.kWCmd = data.kWCmd + share ∧
    (data.calculateSourceKWContribution cmd).1.kWRequest = workedOff data.kWRequest share ∧
    (data.calculateSourceKWContribution cmd).1.minPotentialKW = data.minPotentialKW ∧
    (data.calculateSourceKWContribution cmd).1.maxPotentialKW = data.maxPotentialKW := by
  have hc := contribution_eq data cmd
  rw [← hc]
  unfold AssetCmdData.calculateSourceKWContribution
  dsimp only
  by_cases h : cmd ≤ 0 ∨ data.calculateUnusedDischgKW ≤ 0
  · rw [if_pos h]
    exact ⟨(add_zero _).symm, (workedOff_zero _).symm, rfl, rfl⟩
  · rw [if_neg h]
    refine ⟨by rw [add_sub_cancel], ?_, rfl, rfl⟩
    rw [workedOff, zeroCheck_eq_max]

/-! ## Asset orders -/

variable (assetPriority : ℤ)

/-- Every priority orders the same four types. -/
theorem priorityOrder_perm : (priorityOrder assetPriority).Perm [.ess, .feeder, .gen, .solar] := by
  unfold priorityOrder
  split <;> decide

/-- No type is named twice. -/
theorem priorityOrder_nodup : (priorityOrder assetPriority).Nodup :=
  (priorityOrder_perm assetPriority).nodup_iff.mpr (by decide)

variable (asset : AssetType)

/-- Every type is named. -/
theorem mem_priorityOrder : asset ∈ priorityOrder assetPriority := by
  rw [(priorityOrder_perm assetPriority).mem_iff]
  cases asset <;> decide

variable {dataList slots : List AssetType} {obj' : AssetCmdObject} {given : AssetType → ℚ}
  {other : AssetType}

/-- A list without some types still names none twice. -/
theorem removeAssetTypes_nodup (h : dataList.Nodup) (assetTypes : List AssetType) :
    (removeAssetTypes dataList assetTypes).Nodup := by
  induction assetTypes generalizing dataList with
  | nil => exact h
  | cons asset rest ih => exact ih (h.erase asset)

/-- It names the types that are not excluded. -/
theorem mem_removeAssetTypes (h : dataList.Nodup) (assetTypes : List AssetType)
    (asset : AssetType) :
    asset ∈ removeAssetTypes dataList assetTypes ↔ asset ∈ dataList ∧ asset ∉ assetTypes := by
  induction assetTypes generalizing dataList with
  | nil => simp [removeAssetTypes]
  | cons other rest ih =>
    have hrec := ih (h.erase other)
    simp only [removeAssetTypes, List.foldl_cons] at hrec ⊢
    rw [hrec, h.mem_erase_iff, List.mem_cons, not_or]
    tauto

variable (obj : AssetCmdObject)

/-- The sorted list is a rearrangement of the order by priority. -/
theorem list_perm (assetPriority : ℤ) (exclusions : List AssetType) :
    (obj.listAssetsByDischargePriority assetPriority exclusions).Perm
      (removeAssetTypes (priorityOrder assetPriority) exclusions) := by
  unfold AssetCmdObject.listAssetsByDischargePriority
  dsimp only
  have hf : (fun asset => decide ((obj.get asset).kWRequest ≤ 0)) =
      fun asset => !decide ((obj.get asset).kWRequest > 0) := by
    funext asset
    rw [← decide_not]
    exact decide_eq_decide.mpr not_lt.symm
  rw [hf]
  exact List.filter_append_perm _ _

/-- The sorted list names no type twice. -/
theorem list_nodup (assetPriority : ℤ) (exclusions : List AssetType) :
    (obj.listAssetsByDischargePriority assetPriority exclusions).Nodup :=
  (list_perm obj assetPriority exclusions).nodup_iff.mpr
    (removeAssetTypes_nodup (priorityOrder_nodup _) _)

/-- It names the types that are not excluded. -/
theorem mem_list (assetPriority : ℤ) (exclusions : List AssetType) (asset : AssetType) :
    asset ∈ obj.listAssetsByDischargePriority assetPriority exclusions ↔ asset ∉ exclusions := by
  rw [(list_perm obj assetPriority exclusions).mem_iff,
    mem_removeAssetTypes (priorityOrder_nodup _)]
  simp [mem_priorityOrder]

/-- Without exclusions the order lists each asset type once. -/
theorem list_perm_all (assetPriority : ℤ) :
    (obj.listAssetsByDischargePriority assetPriority []).Perm [.ess, .feeder, .gen, .solar] :=
  (list_perm obj assetPriority []).trans (priorityOrder_perm assetPriority)

/-! ## The passes as fills -/

/-- Unused discharge power of each asset. -/
def unusedRoom (obj : AssetCmdObject) (asset : AssetType) : ℚ :=
  (obj.get asset).calculateUnusedDischgKW

/-- What a discharge pass may add to each asset. -/
def dischargeRoom (commandType : DischargeType) (obj : AssetCmdObject) (asset : AssetType) : ℚ :=
  if asset = .feeder ∧ commandType ≠ .load then 0
  else if commandType = .requests then
    if (obj.get asset).kWRequest > 0 then
      min (obj.get asset).kWRequest (unusedRoom obj asset)
    else 0
  else unusedRoom obj asset

/-- The unused room of a type is not negative. -/
theorem unusedRoom_nonneg (asset : AssetType) : 0 ≤ unusedRoom obj asset := unusedDischg_nonneg _

variable (commandType : DischargeType)

/-- Neither is its room in a pass. -/
theorem dischargeRoom_nonneg (obj : AssetCmdObject)
    (asset : AssetType) : 0 ≤ dischargeRoom commandType obj asset := by
  unfold dischargeRoom
  split_ifs with h1 h2 h3
  · exact le_rfl
  · exact le_min h3.le (unusedRoom_nonneg _ _)
  · exact le_rfl
  · exact unusedRoom_nonneg _ _

/-- A pass gives a type at most its unused potential. -/
theorem dischargeRoom_le_unused (obj : AssetCmdObject)
    (asset : AssetType) : dischargeRoom commandType obj asset ≤ unusedRoom obj asset := by
  unfold dischargeRoom
  split_ifs
  · exact unusedRoom_nonneg _ _
  · exact min_le_right _ _
  · exact unusedRoom_nonneg _ _
  · exact le_rfl

/-- The site-level amounts and the potentials, which a loop never touches. -/
structure SameSite (obj obj' : AssetCmdObject) : Prop where
  minPotential : ∀ asset, (obj'.get asset).minPotentialKW = (obj.get asset).minPotentialKW
  maxPotential : ∀ asset, (obj'.get asset).maxPotentialKW = (obj.get asset).maxPotentialKW
  poiCmd : obj'.poiCmd = obj.poiCmd
  siteKWLoad : obj'.siteKWLoad = obj.siteKWLoad
  loadMethod : obj'.loadMethod = obj.loadMethod
  additional : obj'.additionalLoadCompensation = obj.additionalLoadCompensation
  featureKWDemand : obj'.featureKWDemand = obj.featureKWDemand

/-- A site has its own potentials. -/
theorem SameSite.refl : SameSite obj obj :=
  ⟨fun _ => rfl, fun _ => rfl, rfl, rfl, rfl, rfl, rfl⟩

/-- Potentials that stay twice stay. -/
theorem SameSite.trans {a b c : AssetCmdObject} (h : SameSite a b) (h' : SameSite b c) :
    SameSite a c where
  minPotential asset := (h'.minPotential asset).trans (h.minPotential asset)
  maxPotential asset := (h'.maxPotential asset).trans (h.maxPotential asset)
  poiCmd := h'.poiCmd.trans h.poiCmd
  siteKWLoad := h'.siteKWLoad.trans h.siteKWLoad
  loadMethod := h'.loadMethod.trans h.loadMethod
  additional := h'.additional.trans h.additional
  featureKWDemand := h'.featureKWDemand.trans h.featureKWDemand

variable {asset : AssetType}

/-- Data with the same potentials keep the site. -/
theorem sameSite_set {obj : AssetCmdObject} {data : AssetCmdData}
    (hmin : data.minPotentialKW = (obj.get asset).minPotentialKW)
    (hmax : data.maxPotentialKW = (obj.get asset).maxPotentialKW) :
    SameSite obj (obj.set asset data) := by
  refine ⟨?_, ?_, ?_, ?_, ?_, ?_, ?_⟩
  · intro other
    by_cases h : other = asset
    · subst h
      rw [get_set_same, hmin]
    · rw [get_set_other _ _ h]
  · intro other
    by_cases h : other = asset
    · subst h
      rw [get_set_same, hmax]
    · rw [get_set_other _ _ h]
  all_goals cases asset <;> rfl

/-- A discharge loop hands out the given shares and works off requests. -/
structure Dispatched (obj obj' : AssetCmdObject) (given : AssetType → ℚ) : Prop where
  site : SameSite obj obj'
  siteKWDemand : obj'.siteKWDemand = obj.siteKWDemand
  chargeProduction : obj'.siteKWChargeProduction = obj.siteKWChargeProduction
  kWCmd : ∀ asset, (obj'.get asset).kWCmd = (obj.get asset).kWCmd + given asset
  kWRequest : ∀ asset, (obj'.get asset).kWRequest =
    workedOff (obj.get asset).kWRequest (given asset)

/-- Setting the data of a type leaves the site values. -/
theorem set_scalars (asset : AssetType) (data : AssetCmdData) :
    (obj.set asset data).siteKWDemand = obj.siteKWDemand ∧
    (obj.set asset data).siteKWChargeProduction = obj.siteKWChargeProduction ∧
    (obj.set asset data).siteKWDischargeProduction = obj.siteKWDischargeProduction := by
  cases asset <;> exact ⟨rfl, rfl, rfl⟩

/-- Nothing has been dispatched at the start. -/
theorem dispatched_none : Dispatched obj obj (fun _ => 0) where
  site := SameSite.refl obj
  siteKWDemand := rfl
  chargeProduction := rfl
  kWCmd _ := (add_zero _).symm
  kWRequest _ := (workedOff_zero _).symm

/-- The production is no potential. -/
theorem SameSite.withProduction {obj : AssetCmdObject} (h : SameSite obj obj') (production : ℚ) :
    SameSite obj {obj' with siteKWDischargeProduction := production} := by
  refine ⟨fun asset => ?_, fun asset => ?_, h.poiCmd, h.siteKWLoad, h.loadMethod, h.additional,
    h.featureKWDemand⟩
  · exact (by cases asset <;> rfl : _ = (obj'.get asset).minPotentialKW).trans (h.minPotential asset)
  · exact (by cases asset <;> rfl : _ = (obj'.get asset).maxPotentialKW).trans (h.maxPotential asset)

/-- The discharge production is no part of what a loop hands out. -/
theorem Dispatched.withProduction {obj : AssetCmdObject} (h : Dispatched obj obj' given)
    (production : ℚ) :
    Dispatched obj {obj' with siteKWDischargeProduction := production} given := by
  refine ⟨h.site.withProduction production, h.siteKWDemand, h.chargeProduction, fun asset => ?_,
    fun asset => ?_⟩
  · exact (by cases asset <;> rfl : _ = (obj'.get asset).kWCmd).trans (h.kWCmd asset)
  · exact (by cases asset <;> rfl : _ = (obj'.get asset).kWRequest).trans (h.kWRequest asset)

/-- A contribution at the head followed by a loop over the other assets. -/
theorem Dispatched.cons {obj obj' : AssetCmdObject} {asset : AssetType} {cmd : ℚ}
    {given : AssetType → ℚ} (hzero : given asset = 0)
    (h : Dispatched (obj.set asset ((obj.get asset).calculateSourceKWContribution cmd).1) obj'
      given) :
    Dispatched obj obj' (fun other => if other = asset then
      min (max 0 cmd) (unusedRoom obj asset) else given other) := by
  obtain ⟨hcmd, hreq, hmin, hmax⟩ := contribution_data (obj.get asset) cmd
  have hscalars := set_scalars obj asset ((obj.get asset).calculateSourceKWContribution cmd).1
  refine ⟨(sameSite_set hmin hmax).trans h.site, h.siteKWDemand.trans hscalars.1,
    h.chargeProduction.trans hscalars.2.1, ?_, ?_⟩
  · intro other
    by_cases ho : other = asset
    · subst ho
      rw [h.kWCmd, get_set_same, hzero, add_zero, if_pos rfl]
      exact hcmd
    · rw [h.kWCmd, get_set_other _ _ ho, if_neg ho]
  · intro other
    by_cases ho : other = asset
    · subst ho
      rw [h.kWRequest, get_set_same, hzero, workedOff_zero, if_pos rfl]
      exact hreq
    · rw [h.kWRequest, get_set_other _ _ ho, if_neg ho]

/-- The room of the other types stays. -/
theorem dischargeRoom_set {commandType : DischargeType} {obj : AssetCmdObject} {data : AssetCmdData}
    (h : other ≠ asset) :
    dischargeRoom commandType (obj.set asset data) other = dischargeRoom commandType obj other := by
  simp only [dischargeRoom, unusedRoom, get_set_other _ _ h]

/-- What is left of a command after one type has taken its part. -/
theorem max_sub_min (room : ℚ) :
    max 0 (cmd - min (max 0 cmd) room) = max 0 cmd - min (max 0 cmd) room ∨ room < 0 := by
  by_cases hr : room < 0
  · exact Or.inr hr
  left
  rcases le_total cmd 0 with hc | hc
  · rw [max_eq_left hc, min_eq_left (not_lt.mp hr), sub_zero, sub_zero, max_eq_left hc]
  · rw [max_eq_right hc, max_eq_right (sub_nonneg.mpr (min_le_left _ _))]

/-- What a discharge loop gives is the greedy fill of its rooms with the positive part of the
command; what is not shared out stays in the command. -/
structure Fills (commandType : DischargeType) (slots : List AssetType) (obj : AssetCmdObject)
    (cmd : ℚ) (result : AssetCmdObject × ℚ) : Prop where
  dispatched : Dispatched obj result.1 (share (dischargeRoom commandType obj) slots (max 0 cmd))
  production : result.1.siteKWDischargeProduction = obj.siteKWDischargeProduction
  command : result.2 = cmd - (max 0 cmd -
    leftover (dischargeRoom commandType obj) slots (max 0 cmd))

/-- A slot without room passes the command on unchanged. -/
theorem Fills.skip {rest : List AssetType} {obj : AssetCmdObject} {cmd : ℚ}
    {result : AssetCmdObject × ℚ} (hnot : asset ∉ rest)
    (hroom : dischargeRoom commandType obj asset = 0) (h : Fills commandType rest obj cmd result) :
    Fills commandType (asset :: rest) obj cmd result := by
  have hmin : min (max 0 cmd) (dischargeRoom commandType obj asset) = 0 := by
    rw [hroom, min_eq_right (le_max_left _ _)]
  have hshare : share (dischargeRoom commandType obj) (asset :: rest) (max 0 cmd) =
      share (dischargeRoom commandType obj) rest (max 0 cmd) := by
    funext other
    rw [share, hmin, sub_zero]
    split_ifs with ho
    · rw [ho, share_of_not_mem hnot]
    · rfl
  refine ⟨hshare ▸ h.dispatched, h.production, ?_⟩
  rw [leftover, hmin, sub_zero]
  exact h.command

/-- A slot with room takes a contribution of exactly its share. -/
theorem Fills.take {rest : List AssetType} {obj : AssetCmdObject} {cmd assetCmd : ℚ}
    {result : AssetCmdObject × ℚ} (hnot : asset ∉ rest)
    (hmin : min (max 0 assetCmd) (unusedRoom obj asset) =
      min (max 0 cmd) (dischargeRoom commandType obj asset))
    (h : Fills commandType rest
      (obj.set asset ((obj.get asset).calculateSourceKWContribution assetCmd).1)
      (cmd - min (max 0 cmd) (dischargeRoom commandType obj asset)) result) :
    Fills commandType (asset :: rest) obj cmd result := by
  have hnext := (max_sub_min cmd (dischargeRoom commandType obj asset)).resolve_right
    (not_lt.mpr (dischargeRoom_nonneg _ _ _))
  obtain ⟨hd, hp, hc⟩ := h
  rw [hnext] at hd hc
  set obj1 := obj.set asset ((obj.get asset).calculateSourceKWContribution assetCmd).1
  have hroom : ∀ b ∈ rest,
      dischargeRoom commandType obj1 b = dischargeRoom commandType obj b := fun b hb =>
    dischargeRoom_set (fun he : b = asset => hnot (he ▸ hb))
  have hcons := Dispatched.cons (share_of_not_mem hnot _) hd
  have hgiven : (fun other => if other = asset then min (max 0 assetCmd) (unusedRoom obj asset)
      else share (dischargeRoom commandType obj1) rest
        (max 0 cmd - min (max 0 cmd) (dischargeRoom commandType obj asset)) other) =
      share (dischargeRoom commandType obj) (asset :: rest) (max 0 cmd) := by
    funext other
    rw [share, hmin, share_congr hroom]
  rw [hgiven] at hcons
  refine ⟨hcons, hp.trans (set_scalars _ _ _).2.2, ?_⟩
  rw [hc, leftover, leftover_congr hroom]
  ring

/-- The loop fills the rooms in its order, by induction on the slots. -/
theorem dischargeLoop_spec (hn : slots.Nodup) (obj : AssetCmdObject) (cmd : ℚ) :
    Fills commandType slots obj cmd (dischargeLoop commandType slots obj cmd) := by
  induction slots generalizing obj cmd with
  | nil => exact ⟨dispatched_none obj, rfl, by simp [dischargeLoop, leftover]⟩
  | cons asset rest ih =>
    obtain ⟨hnot, hrest⟩ := List.nodup_cons.mp hn
    have hskip (hroom : dischargeRoom commandType obj asset = 0)
        (hloop : dischargeLoop commandType (asset :: rest) obj cmd =
          dischargeLoop commandType rest obj cmd) : Fills commandType (asset :: rest) obj cmd
        (dischargeLoop commandType (asset :: rest) obj cmd) := by
      rw [hloop]
      exact (ih hrest obj cmd).skip commandType hnot hroom
    have htake (assetCmd : ℚ) (hmin : min (max 0 assetCmd) (unusedRoom obj asset) =
          min (max 0 cmd) (dischargeRoom commandType obj asset))
        (hloop : dischargeLoop commandType (asset :: rest) obj cmd =
          dischargeLoop commandType rest
            (obj.set asset ((obj.get asset).calculateSourceKWContribution assetCmd).1)
            (cmd - ((obj.get asset).calculateSourceKWContribution assetCmd).2)) :
        Fills commandType (asset :: rest) obj cmd
          (dischargeLoop commandType (asset :: rest) obj cmd) := by
      rw [hloop, (contribution_eq _ _).trans hmin]
      exact (ih hrest _ _).take commandType hnot hmin
    by_cases hfeeder : asset = .feeder ∧ commandType ≠ .load
    · exact hskip (by rw [dischargeRoom, if_pos hfeeder]) (by rw [dischargeLoop.eq_def]; exact if_pos hfeeder)
    cases commandType with
    | requests =>
      by_cases hreq : (obj.get asset).kWRequest > 0
      · refine htake (min (obj.get asset).kWRequest cmd) ?_ ?_
        · have hroom : dischargeRoom .requests obj asset =
              min (obj.get asset).kWRequest (unusedRoom obj asset) := by
            rw [dischargeRoom, if_neg hfeeder, if_pos rfl, if_pos hreq]
          have hmax : max 0 (min (obj.get asset).kWRequest cmd) =
              min (obj.get asset).kWRequest (max 0 cmd) := by
            rw [max_min_distrib_left, max_eq_right hreq.le]
          rw [hroom, hmax]
          rw [min_comm (obj.get asset).kWRequest (max 0 cmd), min_assoc]
        · rw [dischargeLoop.eq_def]
          dsimp only
          rw [if_neg hfeeder, if_pos hreq]
      · refine hskip ?_ ?_
        · rw [dischargeRoom, if_neg hfeeder, if_pos rfl, if_neg hreq]
        · rw [dischargeLoop.eq_def]
          dsimp only
          rw [if_neg hfeeder, if_neg hreq]
    | load | demand =>
      refine htake cmd ?_ ?_
      · rw [dischargeRoom, if_neg hfeeder, if_neg (by decide)]
      · rw [dischargeLoop.eq_def]
        dsimp only
        rw [if_neg hfeeder]

/-! ## The discharge pass -/

/-- What a discharge pass pours over the assets: nothing inside the deadband. -/
def passAmount (cmd production : ℚ) : ℚ := if cmd < 1 / 1000 then 0 else max 0 (min cmd production)

/-- A pass dispatches no negative amount. -/
theorem passAmount_nonneg (production : ℚ) : 0 ≤ passAmount cmd production := by
  unfold passAmount
  split_ifs
  · exact le_rfl
  · exact le_max_left _ _

/-- The discharge power a pass can hand out over all assets. -/
def dischargeCapacity (commandType : DischargeType) (obj : AssetCmdObject) : ℚ :=
  capacity (dischargeRoom commandType obj) [.ess, .feeder, .gen, .solar]

/-- The capacity does not depend on the order. -/
theorem dischargeCapacity_order (obj : AssetCmdObject) (assetPriority : ℤ) :
    capacity (dischargeRoom commandType obj) (obj.listAssetsByDischargePriority assetPriority []) =
      dischargeCapacity commandType obj :=
  capacity_perm (list_perm_all obj assetPriority)

/-- The capacity is at most the aggregate of what is unused. -/
theorem dischargeCapacity_le_aggregate (obj : AssetCmdObject) (slots : List AssetType) :
    capacity (dischargeRoom commandType obj) slots ≤ obj.aggregateUnusedKW slots :=
  List.sum_le_sum fun asset _ => dischargeRoom_le_unused commandType obj asset

/-- A discharge pass hands its amount out greedily over the priority order and
takes the total off the discharge production. -/
theorem dispatchDischarge_spec (assetPriority : ℤ) (cmd : ℚ) (commandType : DischargeType) :
    let amount := passAmount cmd obj.siteKWDischargeProduction
    let total := min amount (dischargeCapacity commandType obj)
    let result := obj.dispatchSiteKWDischargeCmd assetPriority cmd commandType
    Dispatched obj result.1 (share (dischargeRoom commandType obj)
      (obj.listAssetsByDischargePriority assetPriority []) amount) ∧
    result.1.siteKWDischargeProduction = obj.siteKWDischargeProduction - total ∧
    result.2 = total := by
  have hroom : ∀ asset ∈ obj.listAssetsByDischargePriority assetPriority [],
      0 ≤ dischargeRoom commandType obj asset := fun asset _ => dischargeRoom_nonneg _ _ asset
  have hcap := dischargeCapacity_order commandType obj assetPriority
  have hcapacity : 0 ≤ dischargeCapacity commandType obj := hcap ▸ capacity_nonneg hroom
  dsimp only
  unfold AssetCmdObject.dispatchSiteKWDischargeCmd passAmount
  by_cases hsmall : cmd < 1 / 1000
  · rw [if_pos hsmall, if_pos ((lessThanOrNear_deadband cmd).mpr hsmall), min_eq_left hcapacity,
      sub_zero]
    refine ⟨?_, rfl, rfl⟩
    rw [show share (dischargeRoom commandType obj)
        (obj.listAssetsByDischargePriority assetPriority []) 0 = fun _ => 0 from
      funext (share_zero hroom)]
    exact dispatched_none obj
  · rw [if_neg hsmall, if_neg (fun h => hsmall ((lessThanOrNear_deadband cmd).mp h))]
    dsimp only
    set slots := obj.listAssetsByDischargePriority assetPriority [] with hslots
    set received := min (min cmd obj.siteKWDischargeProduction) (obj.aggregateUnusedKW slots)
      with hreceived
    set amount := max 0 (min cmd obj.siteKWDischargeProduction) with hamount
    have hbound := dischargeCapacity_le_aggregate commandType obj slots
    have haggregate : 0 ≤ obj.aggregateUnusedKW slots := (capacity_nonneg hroom).trans hbound
    have hpoured : max 0 received = min amount (obj.aggregateUnusedKW slots) := by
      rw [hreceived, max_min_distrib_left, max_eq_right haggregate]
    have hshare : share (dischargeRoom commandType obj) slots (max 0 received) =
        share (dischargeRoom commandType obj) slots amount := by
      rw [hpoured]
      exact funext (share_min hroom hbound amount)
    have htotal : max 0 received - leftover (dischargeRoom commandType obj) slots (max 0 received) =
        min amount (dischargeCapacity commandType obj) := by
      rw [leftover_eq hroom (le_max_left 0 received), sub_sub_cancel, hpoured, min_assoc,
        min_eq_right hbound, hcap]
    obtain ⟨hd, hp, hleft⟩ := dischargeLoop_spec commandType
      (list_nodup obj assetPriority []) obj received
    rw [← hslots, hshare] at hd
    rw [← hslots, htotal] at hleft
    rw [← hslots] at hp
    refine ⟨hd.withProduction _, ?_, ?_⟩
    · rw [hp, hleft, sub_sub_cancel]
    · rw [hleft, sub_sub_cancel]

/-! ## The charge pass -/

/-- A charge loop takes the given shares from its sources and puts their total
on the ESS. -/
structure Charged (obj obj' : AssetCmdObject) (given : AssetType → ℚ) (total : ℚ) : Prop where
  site : SameSite obj obj'
  siteKWDemand : obj'.siteKWDemand = obj.siteKWDemand
  chargeProduction : obj'.siteKWChargeProduction = obj.siteKWChargeProduction
  dischargeProduction : obj'.siteKWDischargeProduction = obj.siteKWDischargeProduction
  essCmd : obj'.essData.kWCmd = obj.essData.kWCmd - total
  kWCmd : ∀ asset, asset ≠ .ess → (obj'.get asset).kWCmd = (obj.get asset).kWCmd + given asset
  kWRequest : ∀ asset, (obj'.get asset).kWRequest = (obj.get asset).kWRequest

/-- No charge has been dispatched at the start. -/
theorem charged_none : Charged obj obj (fun _ => 0) 0 :=
  ⟨SameSite.refl obj, rfl, rfl, rfl, (sub_zero _).symm, fun _ _ => (add_zero _).symm,
    fun _ => rfl⟩

/-- Move `amount` from a source onto the ESS. -/
def chargeStep (obj : AssetCmdObject) (asset : AssetType) (amount : ℚ) : AssetCmdObject :=
  let charged := obj.set .ess {obj.get .ess with kWCmd := (obj.get .ess).kWCmd - amount}
  charged.set asset {charged.get asset with kWCmd := (charged.get asset).kWCmd + amount}

/-- One source charges the ESS with its amount. -/
theorem chargeStep_spec (h : asset ≠ .ess) (amount : ℚ) :
    Charged obj (chargeStep obj asset amount) (fun other => if other = asset then amount else 0)
      amount := by
  cases asset with
  | ess => exact absurd rfl h
  | feeder | gen | solar =>
    refine ⟨⟨fun other => ?_, fun other => ?_, rfl, rfl, rfl, rfl, rfl⟩, rfl, rfl, rfl, rfl,
      fun other ho => ?_, fun other => ?_⟩
    case refine_3 =>
      cases other with
      | ess => exact absurd rfl ho
      | feeder | gen | solar => first | rfl | exact (add_zero _).symm
    all_goals cases other <;> rfl

/-- Moving power onto the ESS leaves the room of every other source. -/
theorem chargeStep_unused (amount : ℚ) (hess : other ≠ .ess) (hother : other ≠ asset) :
    unusedRoom (chargeStep obj asset amount) other = unusedRoom obj other := by
  unfold unusedRoom chargeStep
  rw [get_set_other _ _ hother, get_set_other _ _ hess]

/-- A charge step after others adds its amount. -/
theorem Charged.trans_share {obj mid : AssetCmdObject} {amount total : ℚ} (hzero : given asset = 0)
    (h : Charged obj mid (fun other => if other = asset then amount else 0) amount)
    (h' : Charged mid obj' given total) :
    Charged obj obj' (fun other => if other = asset then amount else given other)
      (amount + total) := by
  refine ⟨h.site.trans h'.site, h'.siteKWDemand.trans h.siteKWDemand,
    h'.chargeProduction.trans h.chargeProduction,
    h'.dischargeProduction.trans h.dischargeProduction, ?_, fun other ho => ?_,
    fun other => (h'.kWRequest other).trans (h.kWRequest other)⟩
  · rw [h'.essCmd, h.essCmd, sub_sub]
  · rw [h'.kWCmd other ho, h.kWCmd other ho]
    by_cases he : other = asset
    · rw [if_pos he, if_pos he, he, hzero, add_zero]
    · rw [if_neg he, if_neg he, add_zero]

/-- The charge loop is the greedy fill of the unused power of its sources. -/
theorem chargeLoop_spec (hn : slots.Nodup) (hess : .ess ∉ slots) (obj : AssetCmdObject)
    {remainder : ℚ} (hr : 0 ≤ remainder) :
    Charged obj (chargeLoop slots obj remainder) (share (unusedRoom obj) slots remainder)
      (min remainder (capacity (unusedRoom obj) slots)) := by
  induction slots generalizing obj remainder with
  | nil =>
    rw [capacity_nil, min_eq_right hr]
    exact charged_none obj
  | cons asset rest ih =>
    obtain ⟨hnot, hrest⟩ := List.nodup_cons.mp hn
    have hasset : asset ≠ .ess := fun he => hess (he ▸ List.mem_cons_self ..)
    have hessRest : .ess ∉ rest := fun hm => hess (List.mem_cons_of_mem _ hm)
    have hroom : ∀ b ∈ asset :: rest, 0 ≤ unusedRoom obj b := fun b _ => unusedRoom_nonneg obj b
    have hcap : 0 ≤ capacity (unusedRoom obj) rest :=
      capacity_nonneg fun b _ => unusedRoom_nonneg obj b
    rw [chargeLoop]
    by_cases hdone : remainder ≤ 0
    · have hzero : remainder = 0 := le_antisymm hdone hr
      rw [if_pos hdone, hzero, min_eq_left (capacity_nonneg hroom),
        show share (unusedRoom obj) (asset :: rest) 0 = fun _ => 0 from funext (share_zero hroom)]
      exact charged_none obj
    rw [if_neg hdone]
    dsimp only
    change Charged obj (if min remainder (unusedRoom obj asset) ≤ 0 then
      chargeLoop rest obj remainder else
      chargeLoop rest (chargeStep obj asset (min remainder (unusedRoom obj asset)))
        (remainder - min remainder (unusedRoom obj asset))) _ _
    by_cases hskip : min remainder (unusedRoom obj asset) ≤ 0
    · have hmin : min remainder (unusedRoom obj asset) = 0 :=
        le_antisymm hskip (le_min hr (unusedRoom_nonneg _ _))
      have hempty : unusedRoom obj asset = 0 := by
        rcases min_choice remainder (unusedRoom obj asset) with h | h
        · exact absurd (h ▸ hskip) hdone
        · exact h ▸ hmin
      have hshare : share (unusedRoom obj) (asset :: rest) remainder =
          share (unusedRoom obj) rest remainder := by
        funext other
        rw [share, hmin, sub_zero]
        split_ifs with ho
        · rw [ho, share_of_not_mem hnot]
        · rfl
      rw [if_pos hskip, hshare, capacity_cons, hempty, zero_add]
      exact ih hrest hessRest obj hr
    · rw [if_neg hskip]
      set amount := min remainder (unusedRoom obj asset) with hamount
      have hsame : ∀ b ∈ rest, unusedRoom (chargeStep obj asset amount) b = unusedRoom obj b :=
        fun b hb => chargeStep_unused obj amount (fun he => hessRest (he ▸ hb))
          (fun he => hnot (he ▸ hb))
      have hnext : 0 ≤ remainder - amount := sub_nonneg.mpr (min_le_left _ _)
      have hloop := Charged.trans_share (share_of_not_mem hnot _)
        (chargeStep_spec obj hasset amount) (ih hrest hessRest (chargeStep obj asset amount) hnext)
      have hgiven : (fun other => if other = asset then amount else
          share (unusedRoom (chargeStep obj asset amount)) rest (remainder - amount) other) =
          share (unusedRoom obj) (asset :: rest) remainder := by
        funext other
        rw [share, share_congr hsame]
      have htotal : amount + min (remainder - amount)
            (capacity (unusedRoom (chargeStep obj asset amount)) rest) =
          min remainder (capacity (unusedRoom obj) (asset :: rest)) := by
        have hcongr : capacity (unusedRoom (chargeStep obj asset amount)) rest =
            capacity (unusedRoom obj) rest :=
          congrArg List.sum (List.map_congr_left hsame)
        rw [hcongr, capacity_cons, ← min_add_add_left, add_sub_cancel]
        rcases le_total remainder (unusedRoom obj asset) with hle | hle
        · rw [hamount, min_eq_left hle, min_eq_left (le_add_of_nonneg_right hcap),
            min_eq_left (hle.trans (le_add_of_nonneg_right hcap))]
        · rw [hamount, min_eq_right hle]
      rw [hgiven, htotal] at hloop
      exact hloop

/-- The charge pass goes past its early exit. -/
def Charging (obj : AssetCmdObject) : Prop :=
  obj.essData.kWCmd ≤ 0 ∧ obj.essData.minPotentialKW < 0 ∧ obj.siteKWChargeProduction < 0

instance (obj : AssetCmdObject) : Decidable (Charging obj) :=
  inferInstanceAs (Decidable (_ ∧ _ ∧ _))

/-- Charge production the ESS itself can take, as a nonnegative amount. -/
def chargeLimited (obj : AssetCmdObject) : ℚ :=
  if Charging obj then
    min (max 0 (-obj.siteKWChargeProduction)) (max 0 (-obj.essData.calculateUnusedChargeKW))
  else 0

/-- The sources of the charge pass in priority order. -/
def chargeSources (flags : ChargeDispatch) (assetPriority : ℤ) (obj : AssetCmdObject) :
    List AssetType :=
  obj.listAssetsByDischargePriority assetPriority
    (chargeExclusions flags.solarEnableFlag flags.genEnableFlag flags.feederEnableFlag)

/-- Charge the enabled sources can serve. -/
def chargeTotal (flags : ChargeDispatch) (assetPriority : ℤ) (obj : AssetCmdObject) : ℚ :=
  min (chargeLimited obj) (capacity (unusedRoom obj) (chargeSources flags assetPriority obj))

/-- The limited charge is not negative. -/
theorem chargeLimited_nonneg : 0 ≤ chargeLimited obj := by
  unfold chargeLimited
  split_ifs
  · exact le_min (le_max_left _ _) (le_max_left _ _)
  · exact le_rfl

/-- Neither is the total charge. -/
theorem chargeTotal_nonneg (assetPriority : ℤ) (obj : AssetCmdObject) :
    0 ≤ chargeTotal flags assetPriority obj :=
  le_min (chargeLimited_nonneg obj) (capacity_nonneg fun asset _ => unusedRoom_nonneg obj asset)

/-- The ESS does not charge itself. -/
theorem ess_not_mem_chargeSources (assetPriority : ℤ) (obj : AssetCmdObject) :
    .ess ∉ chargeSources flags assetPriority obj := by
  rw [chargeSources, mem_list, not_not]
  simp [chargeExclusions]

/-- What the charge pass does: the ESS takes what its sources give, the
discharge production pays what the ESS could take, and no positive request
changes. -/
structure ChargePass (obj obj' : AssetCmdObject) (given : AssetType → ℚ) (total limited : ℚ) :
    Prop where
  site : SameSite obj obj'
  dischargeProduction : obj'.siteKWDischargeProduction = obj.siteKWDischargeProduction - limited
  essCmd : obj'.essData.kWCmd = obj.essData.kWCmd - total
  kWCmd : ∀ asset, asset ≠ .ess → (obj'.get asset).kWCmd = (obj.get asset).kWCmd + given asset
  kWRequest : ∀ asset, max 0 (obj'.get asset).kWRequest = max 0 (obj.get asset).kWRequest

/-- The charge pass shares its total among the sources. -/
theorem chargeDispatchPass_spec (assetPriority : ℤ) (obj : AssetCmdObject) :
    ChargePass obj (chargeDispatchPass flags assetPriority obj).1
      (share (unusedRoom obj) (chargeSources flags assetPriority obj)
        (chargeTotal flags assetPriority obj))
      (chargeTotal flags assetPriority obj) (chargeLimited obj) := by
  have hroom : ∀ asset ∈ chargeSources flags assetPriority obj, 0 ≤ unusedRoom obj asset :=
    fun asset _ => unusedRoom_nonneg obj asset
  have hcap := capacity_nonneg hroom
  have hexit : (obj.essData.kWCmd > 0 ∨ obj.essData.minPotentialKW ≥ 0 ∨
      obj.siteKWChargeProduction ≥ 0) ↔ ¬ Charging obj := by
    rw [Charging, not_and_or, not_and_or, not_le, not_lt, not_lt]
  unfold chargeDispatchPass AssetCmdObject.dispatchSiteKWChargeCmd
  by_cases hc : Charging obj
  · rw [if_neg (not_not_intro hc ∘ hexit.mp)]
    dsimp only
    have hlimited : min (zeroCheck (-1 * obj.siteKWChargeProduction))
        (zeroCheck (-1 * obj.essData.calculateUnusedChargeKW)) = chargeLimited obj := by
      rw [chargeLimited, if_pos hc, zeroCheck_eq_max, zeroCheck_eq_max, neg_one_mul, neg_one_mul]
    have htotal : min (chargeLimited obj)
        (obj.aggregateUnusedKW (chargeSources flags assetPriority obj)) =
        chargeTotal flags assetPriority obj := rfl
    rw [hlimited]
    change ChargePass obj (chargeLoop (chargeSources flags assetPriority obj)
      {obj with
        siteKWChargeProduction := obj.siteKWChargeProduction + chargeTotal flags assetPriority obj
        siteKWDischargeProduction := obj.siteKWDischargeProduction - chargeLimited obj
        siteKWDemand := obj.siteKWDemand +
          (chargeLimited obj - chargeTotal flags assetPriority obj)}
      (chargeTotal flags assetPriority obj)) _ _ _
    set synced : AssetCmdObject := {obj with
      siteKWChargeProduction := obj.siteKWChargeProduction + chargeTotal flags assetPriority obj
      siteKWDischargeProduction := obj.siteKWDischargeProduction - chargeLimited obj
      siteKWDemand := obj.siteKWDemand +
        (chargeLimited obj - chargeTotal flags assetPriority obj)} with hsynced
    have hget : ∀ asset, synced.get asset = obj.get asset := by
      intro asset
      cases asset <;> rfl
    have hunused : unusedRoom synced = unusedRoom obj := by
      funext asset
      rw [unusedRoom, unusedRoom, hget]
    have hnodup : (chargeSources flags assetPriority obj).Nodup := list_nodup obj assetPriority _
    have hspec := chargeLoop_spec hnodup
      (ess_not_mem_chargeSources flags assetPriority obj) synced
      (chargeTotal_nonneg flags assetPriority obj)
    have hfits : chargeTotal flags assetPriority obj ≤
        capacity (unusedRoom obj) (chargeSources flags assetPriority obj) := min_le_right _ _
    rw [hunused, min_eq_left hfits] at hspec
    have hsite : SameSite obj synced :=
      ⟨fun asset => by rw [hget], fun asset => by rw [hget], rfl, rfl, rfl, rfl, rfl⟩
    refine ⟨hsite.trans hspec.site, hspec.dischargeProduction, hspec.essCmd,
      fun asset ho => ?_, fun asset => ?_⟩
    · rw [hspec.kWCmd asset ho, hget]
    · rw [hspec.kWRequest, hget]
  · have hlimited : chargeLimited obj = 0 := if_neg hc
    have htotal : chargeTotal flags assetPriority obj = 0 := by
      rw [chargeTotal, hlimited, min_eq_left hcap]
    have hshare : share (unusedRoom obj) (chargeSources flags assetPriority obj) 0 =
        fun _ => 0 := funext (share_zero hroom)
    rw [if_pos (hexit.mpr hc), htotal, hlimited, hshare]
    refine ⟨⟨fun asset => ?_, fun asset => ?_, rfl, rfl, rfl, rfl, rfl⟩, (sub_zero _).symm,
      (sub_zero _).symm, fun asset ho => ?_, fun asset => ?_⟩
    · cases asset <;> rfl
    · cases asset <;> rfl
    · rw [add_zero]
      cases asset with
      | ess => exact absurd rfl ho
      | feeder | gen | solar => rfl
    · cases asset with
      | ess =>
        change max 0 (obj.essData.kWRequest - lessThanZeroCheck obj.essData.kWRequest) =
          max 0 obj.essData.kWRequest
        rw [lessThanZeroCheck_eq_min]
        rcases le_total obj.essData.kWRequest 0 with hle | hle
        · rw [min_eq_right hle, sub_self, max_self, max_eq_left hle]
        · rw [min_eq_left hle, sub_zero]
      | feeder | gen | solar => rfl

end HybridOs.SiteDispatch

