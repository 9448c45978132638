import HybridOs.SiteDispatch

/-!
# Command bounds and conservation of the active power dispatch

The four passes run one after another on the same commands. Each keeps every
command inside its potentials; only the charge pass may take an asset below
zero, and what it takes from the enabled sources is exactly what it puts on
the ESS.
-/

namespace HybridOs.SiteActivePower

open SiteUtils SiteAssetCmd SiteDispatch GreedyFill

/-! ## The states between the passes -/

/-- Commands after the load pass. -/
def afterLoad (assetPriority : ℤ) (obj : AssetCmdObject) : AssetCmdObject :=
  (loadDispatch assetPriority obj.storeProductionLimits).1

/-- Commands after the charge pass. -/
def afterCharge (flags : ChargeDispatch) (assetPriority : ℤ) (obj : AssetCmdObject) :
    AssetCmdObject :=
  (chargeDispatchPass flags assetPriority (afterLoad assetPriority obj)).1

/-- Commands after the requests pass. -/
def afterRequests (flags : ChargeDispatch) (assetPriority : ℤ) (obj : AssetCmdObject) :
    AssetCmdObject :=
  (requestsDispatch assetPriority (afterCharge flags assetPriority obj)).1

/-- Commands after the whole dispatch. -/
def afterDispatch (flags : ChargeDispatch) (assetPriority : ℤ) (obj : AssetCmdObject) :
    AssetCmdObject :=
  (dispatchActivePower flags assetPriority obj).1

variable (flags : ChargeDispatch) (assetPriority : ℤ) (obj : AssetCmdObject)

/-- The demand is dispatched after the requests. -/
theorem afterDispatch_eq :
    afterDispatch flags assetPriority obj =
      (demandDispatch assetPriority (afterRequests flags assetPriority obj)).1 := by
  simp only [afterDispatch, afterRequests, afterCharge, afterLoad, dispatchActivePower]

variable (asset : AssetType)

/-- Storing the production limits leaves the data of the types. -/
theorem storeProductionLimits_get : obj.storeProductionLimits.get asset = obj.get asset := by
  cases asset <;> rfl

/-- It leaves the site. -/
theorem storeProductionLimits_sameSite : SameSite obj obj.storeProductionLimits :=
  ⟨fun asset => by rw [storeProductionLimits_get], fun asset => by rw [storeProductionLimits_get],
    rfl, rfl, rfl, rfl, rfl⟩

/-! ## Shares of a discharge pass -/

/-- The shares of one discharge pass. -/
def passShare (commandType : DischargeType) (assetPriority : ℤ) (cmd : ℚ) (obj : AssetCmdObject) :
    AssetType → ℚ :=
  share (dischargeRoom commandType obj) (obj.listAssetsByDischargePriority assetPriority [])
    (passAmount cmd obj.siteKWDischargeProduction)

variable (commandType : DischargeType)

/-- A share of a pass is between zero and the room of its type. -/
theorem passShare_bounds (assetPriority : ℤ) (cmd : ℚ) (obj : AssetCmdObject) (asset : AssetType) :
    0 ≤ passShare commandType assetPriority cmd obj asset ∧
      passShare commandType assetPriority cmd obj asset ≤ dischargeRoom commandType obj asset :=
  share_bounds (fun b _ => dischargeRoom_nonneg _ _ b) (passAmount_nonneg _ _)
    (dischargeRoom_nonneg _ _ asset)

/-- Outside the load pass the feeder gets nothing. -/
theorem passShare_feeder {commandType : DischargeType} (h : commandType ≠ .load)
    (assetPriority : ℤ) (cmd : ℚ) (obj : AssetCmdObject) :
    passShare commandType assetPriority cmd obj .feeder = 0 := by
  have hbounds := passShare_bounds commandType assetPriority cmd obj .feeder
  have hroom : dischargeRoom commandType obj .feeder = 0 := if_pos ⟨rfl, h⟩
  rw [hroom] at hbounds
  exact le_antisymm hbounds.2 hbounds.1

/-- An asset never gets more than its request from the requests pass. -/
theorem passShare_requests_le (cmd : ℚ) (obj : AssetCmdObject) (asset : AssetType) :
    passShare .requests assetPriority cmd obj asset ≤ max 0 (obj.get asset).kWRequest := by
  refine (passShare_bounds .requests assetPriority cmd obj asset).2.trans ?_
  unfold dischargeRoom
  split_ifs with h1 h2 h3
  · exact le_max_left _ _
  · exact (min_le_left _ _).trans (le_max_right _ _)
  · exact le_max_left _ _
  · exact absurd rfl h2

/-- A discharge pass gives each type its share. -/
theorem discharge_spec (assetPriority : ℤ) (cmd : ℚ) (obj : AssetCmdObject) :
    Dispatched obj (obj.dispatchSiteKWDischargeCmd assetPriority cmd commandType).1
      (passShare commandType assetPriority cmd obj) :=
  (dispatchDischarge_spec obj assetPriority cmd commandType).1

/-! ## Every pass keeps the commands inside the potentials -/

/-- Commands between zero and the potentials; only the ESS may charge. -/
structure WithinPotentials (obj : AssetCmdObject) : Prop where
  source : ∀ asset, asset ≠ .ess → 0 ≤ (obj.get asset).kWCmd
  charge : min 0 obj.essData.minPotentialKW ≤ obj.essData.kWCmd
  discharge : ∀ asset, (obj.get asset).kWCmd ≤ max 0 (obj.get asset).maxPotentialKW

/-- Adding no more than the unused power keeps a command below its potential. -/
theorem add_unused_le {data : AssetCmdData} {amount : ℚ}
    (h : data.kWCmd ≤ max 0 data.maxPotentialKW) (hle : amount ≤ data.calculateUnusedDischgKW) :
    data.kWCmd + amount ≤ max 0 data.maxPotentialKW := by
  rw [AssetCmdData.calculateUnusedDischgKW, zeroCheck_eq_max] at hle
  split_ifs at hle with hneg
  · linarith
  · rcases le_total (data.maxPotentialKW - data.kWCmd) 0 with hd | hd
    · rw [max_eq_left hd] at hle
      linarith
    · rw [max_eq_right hd] at hle
      exact (by linarith : data.kWCmd + amount ≤ data.maxPotentialKW).trans (le_max_right _ _)

/-- Shares within the rooms keep the commands within the potentials. -/
theorem dispatched_withinPotentials {obj obj' : AssetCmdObject} {given : AssetType → ℚ}
    (h : Dispatched obj obj' given)
    (hgiven : ∀ asset, 0 ≤ given asset ∧ given asset ≤ unusedRoom obj asset)
    (hw : WithinPotentials obj) : WithinPotentials obj' where
  source asset ho := by
    rw [h.kWCmd]
    exact add_nonneg (hw.source asset ho) (hgiven asset).1
  charge := by
    have hcmd := h.kWCmd .ess
    have hmin := h.site.minPotential .ess
    simp only [AssetCmdObject.get] at hcmd hmin
    rw [hcmd, hmin]
    exact hw.charge.trans (le_add_of_nonneg_right (hgiven .ess).1)
  discharge asset := by
    rw [h.kWCmd, h.site.maxPotential]
    exact add_unused_le (hw.discharge asset) (hgiven asset).2

/-- A discharge pass keeps the commands within the potentials. -/
theorem discharge_withinPotentials (assetPriority : ℤ) (cmd : ℚ)
    {obj : AssetCmdObject} (hw : WithinPotentials obj) :
    WithinPotentials (obj.dispatchSiteKWDischargeCmd assetPriority cmd commandType).1 :=
  dispatched_withinPotentials (discharge_spec commandType assetPriority cmd obj) (fun asset =>
    ⟨(passShare_bounds _ _ _ _ asset).1,
      (passShare_bounds _ _ _ _ asset).2.trans (dischargeRoom_le_unused _ _ _)⟩) hw

/-- The charge total stays inside what the ESS can still charge. -/
theorem chargeTotal_le_room {obj : AssetCmdObject}
    (h : min 0 obj.essData.minPotentialKW ≤ obj.essData.kWCmd) :
    min 0 obj.essData.minPotentialKW ≤ obj.essData.kWCmd - chargeTotal flags assetPriority obj := by
  have htotal : chargeTotal flags assetPriority obj ≤ chargeLimited obj := min_le_left _ _
  unfold chargeLimited at htotal
  split_ifs at htotal with hc
  · have hroom := htotal.trans (min_le_right _ _)
    obtain ⟨hcmd, hmin, -⟩ := hc
    rw [AssetCmdData.calculateUnusedChargeKW, if_neg (not_lt.mpr hcmd),
      lessThanZeroCheck_eq_min] at hroom
    rw [min_eq_right hmin.le] at h ⊢
    rw [min_eq_right (sub_nonpos.mpr h), neg_sub, max_eq_right (sub_nonneg.mpr h)] at hroom
    linarith
  · linarith

/-- No more is charged than the charge production. -/
theorem chargeTotal_le_production :
    chargeTotal flags assetPriority obj ≤ max 0 (-obj.siteKWChargeProduction) := by
  have htotal : chargeTotal flags assetPriority obj ≤ chargeLimited obj := min_le_left _ _
  refine htotal.trans ?_
  unfold chargeLimited
  split_ifs
  · exact min_le_left _ _
  · exact le_max_left _ _

/-- The shares the charge pass takes from its sources. -/
def chargeShare (flags : ChargeDispatch) (assetPriority : ℤ) (obj : AssetCmdObject) :
    AssetType → ℚ :=
  share (unusedRoom obj) (chargeSources flags assetPriority obj)
    (chargeTotal flags assetPriority obj)

/-- A source gives no more than it has left. -/
theorem chargeShare_bounds :
    0 ≤ chargeShare flags assetPriority obj asset ∧
      chargeShare flags assetPriority obj asset ≤ unusedRoom obj asset :=
  share_bounds (fun b _ => unusedRoom_nonneg obj b) (chargeTotal_nonneg _ _ _)
    (unusedRoom_nonneg obj asset)

/-- The charge pass keeps the commands within the potentials. -/
theorem chargePass_withinPotentials {obj : AssetCmdObject} (hw : WithinPotentials obj) :
    WithinPotentials (chargeDispatchPass flags assetPriority obj).1 where
  source asset ho := by
    rw [(chargeDispatchPass_spec flags assetPriority obj).kWCmd asset ho]
    exact add_nonneg (hw.source asset ho) (chargeShare_bounds _ _ _ asset).1
  charge := by
    have hmin := (chargeDispatchPass_spec flags assetPriority obj).site.minPotential .ess
    simp only [AssetCmdObject.get] at hmin
    rw [(chargeDispatchPass_spec flags assetPriority obj).essCmd, hmin]
    exact chargeTotal_le_room flags assetPriority hw.charge
  discharge asset := by
    rw [(chargeDispatchPass_spec flags assetPriority obj).site.maxPotential]
    by_cases ho : asset = .ess
    · subst ho
      have hcmd := (chargeDispatchPass_spec flags assetPriority obj).essCmd
      have hold := hw.discharge .ess
      simp only [AssetCmdObject.get] at hold ⊢
      rw [hcmd]
      exact (sub_le_self _ (chargeTotal_nonneg _ _ _)).trans hold
    · rw [(chargeDispatchPass_spec flags assetPriority obj).kWCmd asset ho]
      exact add_unused_le (hw.discharge asset) (chargeShare_bounds _ _ _ asset).2

/-- The dispatch for the load keeps the commands within the potentials. -/
theorem loadDispatch_withinPotentials {obj : AssetCmdObject}
    (hw : WithinPotentials obj) : WithinPotentials (loadDispatch assetPriority obj).1 := by
  unfold loadDispatch
  split_ifs
  · exact discharge_withinPotentials _ _ _ hw
  · exact hw

/-- Commands of zero are within the potentials. -/
theorem withinPotentials_of_zero {obj : AssetCmdObject}
    (h : ∀ asset, (obj.get asset).kWCmd = 0) : WithinPotentials obj where
  source asset _ := (h asset).ge
  charge := (min_le_left _ _).trans (h .ess).ge
  discharge asset := (h asset).le.trans (le_max_left _ _)

/-- The production limits are no commands. -/
theorem storeProductionLimits_withinPotentials {obj : AssetCmdObject} (hw : WithinPotentials obj) :
    WithinPotentials obj.storeProductionLimits where
  source asset ho := by
    rw [storeProductionLimits_get]
    exact hw.source asset ho
  charge := hw.charge
  discharge asset := by
    rw [storeProductionLimits_get]
    exact hw.discharge asset

/-- The whole dispatch keeps the commands inside the potentials. -/
theorem afterDispatch_withinPotentials {obj : AssetCmdObject} (hw : WithinPotentials obj) :
    WithinPotentials (afterDispatch flags assetPriority obj) := by
  have hload : WithinPotentials (afterLoad assetPriority obj) :=
    loadDispatch_withinPotentials assetPriority (storeProductionLimits_withinPotentials hw)
  have hcharge : WithinPotentials (afterCharge flags assetPriority obj) :=
    chargePass_withinPotentials flags assetPriority hload
  have hrequests : WithinPotentials (afterRequests flags assetPriority obj) :=
    discharge_withinPotentials _ _ _ hcharge
  rw [afterDispatch_eq]
  exact discharge_withinPotentials _ _ _ hrequests

/-! ## Conservation -/

/-- The four asset types, each once. -/
def allAssets : List AssetType := [.ess, .feeder, .gen, .solar]

/-- Sum of the four commands. -/
def netKWCmd (obj : AssetCmdObject) : ℚ := (allAssets.map fun asset => (obj.get asset).kWCmd).sum

/-- The asset types the flags let charge the ESS. -/
def isChargeSource (flags : ChargeDispatch) : AssetType → Bool
  | .ess => false
  | .feeder => flags.feederEnableFlag
  | .gen => flags.genEnableFlag
  | .solar => flags.solarEnableFlag

/-- The charge sources are those that the flags enable. -/
theorem mem_chargeSources :
    asset ∈ chargeSources flags assetPriority obj ↔ isChargeSource flags asset = true := by
  obtain ⟨solar, gen, feeder⟩ := flags
  rw [chargeSources, mem_list]
  cases asset <;> cases solar <;> cases gen <;> cases feeder <;>
    simp [chargeExclusions, isChargeSource]

/-- What the sources give up is the charge total. -/
theorem chargeShare_sum :
    (allAssets.map (chargeShare flags assetPriority obj)).sum =
      chargeTotal flags assetPriority obj := by
  have hnodup : (chargeSources flags assetPriority obj).Nodup := list_nodup obj assetPriority _
  have hsubset : chargeSources flags assetPriority obj ⊆ allAssets := by
    intro asset _
    cases asset <;> decide
  have hfits : chargeTotal flags assetPriority obj ≤
      capacity (unusedRoom obj) (chargeSources flags assetPriority obj) := min_le_right _ _
  unfold chargeShare
  rw [share_sum_of_subset _ hnodup (by decide) hsubset,
    share_sum hnodup (fun b _ => unusedRoom_nonneg obj b) (chargeTotal_nonneg _ _ _),
    min_eq_left hfits]

/-- What is no source gives nothing. -/
theorem chargeShare_not_source {asset : AssetType} (h : isChargeSource flags asset = false) :
    chargeShare flags assetPriority obj asset = 0 := by
  refine share_of_not_mem (fun hm => ?_) _
  rw [(mem_chargeSources flags assetPriority obj asset).mp hm] at h
  exact Bool.noConfusion h

/-- The charge pass moves power between the assets and adds none. -/
theorem chargePass_netKWCmd :
    netKWCmd (chargeDispatchPass flags assetPriority obj).1 = netKWCmd obj := by
  have hspec := chargeDispatchPass_spec flags assetPriority obj
  have hsum := chargeShare_sum flags assetPriority obj
  have hess := chargeShare_not_source flags assetPriority obj (rfl : isChargeSource flags .ess = _)
  have hcmd := hspec.essCmd
  have hfeeder := hspec.kWCmd .feeder (by decide)
  have hgen := hspec.kWCmd .gen (by decide)
  have hsolar := hspec.kWCmd .solar (by decide)
  simp only [allAssets, List.map_cons, List.map_nil, List.sum_cons, List.sum_nil] at hsum
  simp only [netKWCmd, allAssets, List.map_cons, List.map_nil, List.sum_cons,
    AssetCmdObject.get] at hfeeder hgen hsolar ⊢
  change _ = _ + chargeShare flags assetPriority obj .feeder at hfeeder
  change _ = _ + chargeShare flags assetPriority obj .gen at hgen
  change _ = _ + chargeShare flags assetPriority obj .solar at hsolar
  rw [hcmd, hfeeder, hgen, hsolar]
  linarith

/-- The charge the ESS takes is what the enabled sources give. -/
theorem chargePass_taken :
    ((allAssets.filter (isChargeSource flags)).map fun asset =>
      ((chargeDispatchPass flags assetPriority obj).1.get asset).kWCmd -
        (obj.get asset).kWCmd).sum =
      obj.essData.kWCmd - (chargeDispatchPass flags assetPriority obj).1.essData.kWCmd := by
  have hspec := chargeDispatchPass_spec flags assetPriority obj
  have hsource : ∀ asset ∈ allAssets.filter (isChargeSource flags),
      ((chargeDispatchPass flags assetPriority obj).1.get asset).kWCmd - (obj.get asset).kWCmd =
        chargeShare flags assetPriority obj asset := by
    intro asset hm
    have hflag := (List.mem_filter.mp hm).2
    have hess : asset ≠ .ess := by
      rintro rfl
      exact Bool.noConfusion hflag
    rw [hspec.kWCmd asset hess, add_sub_cancel_left]
    rfl
  have hsubset : chargeSources flags assetPriority obj ⊆
      allAssets.filter (isChargeSource flags) := by
    intro asset hm
    refine List.mem_filter.mpr ⟨?_, (mem_chargeSources flags assetPriority obj asset).mp hm⟩
    cases asset <;> decide
  have hnodup : (chargeSources flags assetPriority obj).Nodup := list_nodup obj assetPriority _
  have hfits : chargeTotal flags assetPriority obj ≤
      capacity (unusedRoom obj) (chargeSources flags assetPriority obj) := min_le_right _ _
  rw [List.map_congr_left hsource]
  unfold chargeShare
  rw [share_sum_of_subset _ hnodup ((by decide : allAssets.Nodup).filter _) hsubset,
    share_sum hnodup (fun b _ => unusedRoom_nonneg obj b) (chargeTotal_nonneg _ _ _),
    min_eq_left hfits, hspec.essCmd, sub_sub_cancel]

/-- Only a load minimum is dispatched for the load. -/
theorem loadDispatch_spec :
    ∃ given : AssetType → ℚ, Dispatched obj (loadDispatch assetPriority obj).1 given ∧
      (∀ asset, 0 ≤ given asset) ∧ (obj.loadMethod ≠ .loadMinimum → ∀ asset, given asset = 0) := by
  unfold loadDispatch
  by_cases h : obj.loadMethod = .loadMinimum
  · rw [if_pos h]
    exact ⟨_, discharge_spec .load assetPriority obj.siteKWLoad obj,
      fun asset => (passShare_bounds _ _ _ _ asset).1, fun hne => absurd h hne⟩
  · rw [if_neg h]
    exact ⟨_, dispatched_none obj, fun _ => le_rfl, fun _ _ => rfl⟩

/-- The requests pass gives each type its share. -/
theorem afterRequests_spec :
    Dispatched (afterCharge flags assetPriority obj) (afterRequests flags assetPriority obj)
      (passShare .requests assetPriority
        (afterCharge flags assetPriority obj).siteKWDischargeProduction
        (afterCharge flags assetPriority obj)) :=
  discharge_spec .requests assetPriority _ _

/-- The demand pass gives each type its share. -/
theorem afterDispatch_spec :
    Dispatched (afterRequests flags assetPriority obj) (afterDispatch flags assetPriority obj)
      (passShare .demand assetPriority
        (afterRequests flags assetPriority obj).siteKWDischargeProduction
        (afterRequests flags assetPriority obj)) := by
  rw [afterDispatch_eq]
  exact discharge_spec .demand assetPriority _ _

/-- The whole dispatch leaves the site. -/
theorem afterDispatch_sameSite : SameSite obj (afterDispatch flags assetPriority obj) := by
  obtain ⟨given, hload, -⟩ := loadDispatch_spec assetPriority obj.storeProductionLimits
  have hcharge := chargeDispatchPass_spec flags assetPriority (afterLoad assetPriority obj)
  exact (((storeProductionLimits_sameSite obj).trans hload.site).trans hcharge.site).trans
    ((afterRequests_spec flags assetPriority obj).site.trans
      (afterDispatch_spec flags assetPriority obj).site)

/-- From reset commands, one dispatch leaves every command inside its
potentials. The charge pass adds no net power: what the ESS takes, at most the
charge production, is what the enabled sources give. The other passes only
add, the requests pass at most the request of each asset, and the feeder
changes only in the load pass of a load minimum or as an enabled source. -/
theorem dispatchActivePower_bounds_conservation (flags : ChargeDispatch) (assetPriority : ℤ)
    (obj : AssetCmdObject) (hreset : ∀ asset, (obj.get asset).kWCmd = 0) :
    let load := afterLoad assetPriority obj
    let charge := afterCharge flags assetPriority obj
    let requests := afterRequests flags assetPriority obj
    let final := (dispatchActivePower flags assetPriority obj).1
    (∀ asset, asset ≠ .ess → 0 ≤ (final.get asset).kWCmd ∧
      (final.get asset).kWCmd ≤ max 0 (obj.get asset).maxPotentialKW) ∧
    (min 0 obj.essData.minPotentialKW ≤ final.essData.kWCmd ∧
      final.essData.kWCmd ≤ max 0 obj.essData.maxPotentialKW) ∧
    netKWCmd charge = netKWCmd load ∧
    ((allAssets.filter (isChargeSource flags)).map fun asset =>
      (charge.get asset).kWCmd - (load.get asset).kWCmd).sum =
        load.essData.kWCmd - charge.essData.kWCmd ∧
    0 ≤ load.essData.kWCmd - charge.essData.kWCmd ∧
    load.essData.kWCmd - charge.essData.kWCmd ≤ max 0 (-load.siteKWChargeProduction) ∧
    (∀ asset, asset ≠ .ess → (load.get asset).kWCmd ≤ (charge.get asset).kWCmd ∧
      (isChargeSource flags asset = false →
        (charge.get asset).kWCmd = (load.get asset).kWCmd)) ∧
    (∀ asset, 0 ≤ (load.get asset).kWCmd ∧
      (charge.get asset).kWCmd ≤ (requests.get asset).kWCmd ∧
      (requests.get asset).kWCmd ≤ (charge.get asset).kWCmd +
        max 0 (charge.get asset).kWRequest ∧
      (requests.get asset).kWCmd ≤ (final.get asset).kWCmd) ∧
    (obj.loadMethod ≠ .loadMinimum → load.feederData.kWCmd = 0) ∧
    (flags.feederEnableFlag = false → charge.feederData.kWCmd = load.feederData.kWCmd) ∧
    final.feederData.kWCmd = charge.feederData.kWCmd := by
  intro load charge requests final
  have hwithin := afterDispatch_withinPotentials flags assetPriority
    (withinPotentials_of_zero hreset)
  have hsite := afterDispatch_sameSite flags assetPriority obj
  have hcharge : ChargePass load charge (chargeShare flags assetPriority load)
      (chargeTotal flags assetPriority load) (chargeLimited load) :=
    chargeDispatchPass_spec flags assetPriority load
  have hrequests := afterRequests_spec flags assetPriority obj
  have hdemand := afterDispatch_spec flags assetPriority obj
  obtain ⟨given, hload, hpos, hnone⟩ := loadDispatch_spec assetPriority obj.storeProductionLimits
  have hloadCmd : ∀ asset, (load.get asset).kWCmd = given asset := by
    intro asset
    have hcmd := hload.kWCmd asset
    rwa [storeProductionLimits_get, hreset, zero_add] at hcmd
  have hmax : ∀ asset, (final.get asset).kWCmd ≤ max 0 (obj.get asset).maxPotentialKW := by
    intro asset
    rw [← hsite.maxPotential asset]
    exact hwithin.discharge asset
  have htaken : load.essData.kWCmd - charge.essData.kWCmd =
      chargeTotal flags assetPriority load := by
    rw [hcharge.essCmd, sub_sub_cancel]
  refine ⟨fun asset ho => ⟨hwithin.source asset ho, hmax asset⟩, ⟨?_, hmax .ess⟩,
    chargePass_netKWCmd flags assetPriority load, chargePass_taken flags assetPriority load,
    ?_, ?_, fun asset ho => ⟨?_, fun hflag => ?_⟩,
    fun asset => ⟨?_, ?_, ?_, ?_⟩, fun hmethod => ?_, fun hflag => ?_, ?_⟩
  · have hmin := hsite.minPotential .ess
    simp only [AssetCmdObject.get] at hmin
    rw [← hmin]
    exact hwithin.charge
  · rw [htaken]
    exact chargeTotal_nonneg flags assetPriority load
  · rw [htaken]
    exact chargeTotal_le_production flags assetPriority load
  · rw [hcharge.kWCmd asset ho]
    exact le_add_of_nonneg_right (chargeShare_bounds flags assetPriority load asset).1
  · rw [hcharge.kWCmd asset ho, chargeShare_not_source flags assetPriority load hflag, add_zero]
  · rw [hloadCmd]
    exact hpos asset
  · rw [hrequests.kWCmd asset]
    exact le_add_of_nonneg_right (passShare_bounds _ _ _ _ asset).1
  · rw [hrequests.kWCmd asset]
    exact add_le_add_right (passShare_requests_le _ _ _ asset) _
  · have hcmd := hdemand.kWCmd asset
    exact hcmd ▸ le_add_of_nonneg_right (passShare_bounds _ _ _ _ asset).1
  · exact (hloadCmd .feeder).trans (hnone hmethod .feeder)
  · have hcmd := hcharge.kWCmd .feeder (by decide)
    have hsource : isChargeSource flags .feeder = false := hflag
    rwa [chargeShare_not_source flags assetPriority load hsource, add_zero] at hcmd
  · have hfinal := hdemand.kWCmd .feeder
    rw [passShare_feeder (by decide), add_zero, hrequests.kWCmd, passShare_feeder (by decide),
      add_zero] at hfinal
    exact hfinal

/-- Asset data after the reset, with the given request and potentials. -/
def resetData (kWRequest minPotentialKW maxPotentialKW : ℚ) : AssetCmdData where
  kWRequest := kWRequest
  kWCmd := 0
  startFirstKW := 0
  startFirstFlag := false
  autoRestartFlag := false
  minPotentialKW := minPotentialKW
  maxPotentialKW := maxPotentialKW

/-- Solar at 800 kW with an ESS asking for 500 kW of charge, before the demand
of the two requests is aggregated. -/
def solarChargeSite (essMinPotentialKW : ℚ) : AssetCmdObject where
  essData := resetData (-500) essMinPotentialKW 200
  feederData := resetData 0 0 1000
  genData := resetData 0 0 0
  solarData := resetData 800 0 800
  poiCmd := 0
  siteKWLoad := 0
  loadMethod := .noCompensation
  additionalLoadCompensation := 0
  featureKWDemand := 0
  siteKWDemand := 0
  siteKWChargeProduction := 0
  siteKWDischargeProduction := 0

theorem dispatchActivePower_bounds_conservation_solarChargeSite :
    netKWCmd (afterCharge ⟨true, false, false⟩ 0
      ((solarChargeSite (-200)).calculateFeatureKWDemand 0)) =
    netKWCmd (afterLoad 0 ((solarChargeSite (-200)).calculateFeatureKWDemand 0)) :=
  (dispatchActivePower_bounds_conservation ⟨true, false, false⟩ 0
    ((solarChargeSite (-200)).calculateFeatureKWDemand 0)
    (fun asset => by cases asset <;> decide)).2.2.1

end HybridOs.SiteActivePower
