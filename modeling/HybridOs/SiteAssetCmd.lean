import HybridOs.SiteUtils

/-!
# The asset command object and its active power dispatch

Commands, requests and potentials of the four asset types, the split of the
site demand into a charge and a discharge production, and the two passes that
spend them. Amounts are exact rationals. Fields that no active power step
reads (measurements, reactive power, saved copies) are left out.
-/

namespace HybridOs.SiteAssetCmd

open SiteUtils

/-- The four asset types holding command data. -/
inductive AssetType
  | ess | feeder | gen | solar
  deriving DecidableEq, Repr

/-- What a discharge command is for. -/
inductive DischargeType
  /-- Discharging to account for load. -/
  | load
  /-- Discharging to account for specific asset type requests. -/
  | requests
  /-- Discharging to account for remaining demanded discharge. -/
  | demand
  deriving DecidableEq, Repr

/-- Types of load compensation available. -/
inductive LoadCompensation
  | noCompensation
  /-- Always increase discharge to offset load. -/
  | loadOffset
  /-- Only increase discharge if load is not met. -/
  | loadMinimum
  deriving DecidableEq, Repr

/-- Active power command data of one asset type. -/
structure AssetCmdData where
  /-- Power requested of this asset by the active power feature. -/
  kWRequest : ℚ
  /-- Power commanded of this asset after the dispatch. -/
  kWCmd : ℚ
  /-- Power above which the asset should be started. -/
  startFirstKW : ℚ
  /-- Result of the start check of the last contribution. -/
  startFirstFlag : Bool
  /-- Whether the asset may start at all. -/
  autoRestartFlag : Bool
  /-- Minimum possible instantaneous active power. -/
  minPotentialKW : ℚ
  /-- Maximum possible instantaneous active power. -/
  maxPotentialKW : ℚ
  deriving DecidableEq, Repr

/-- Charge an asset can still take on; none while it is discharging. -/
def AssetCmdData.calculateUnusedChargeKW (data : AssetCmdData) : ℚ :=
  if data.kWCmd > 0 then 0 else lessThanZeroCheck (data.minPotentialKW - data.kWCmd)

/-- Discharge an asset can still take on; none while it is charging. -/
def AssetCmdData.calculateUnusedDischgKW (data : AssetCmdData) : ℚ :=
  if data.kWCmd < 0 then 0 else zeroCheck (data.maxPotentialKW - data.kWCmd)

/-- Assign as much of the remaining command as the asset can source, and
return its share. A discharge request is worked off by the same amount. -/
def AssetCmdData.calculateSourceKWContribution (data : AssetCmdData) (cmd : ℚ) :
    AssetCmdData × ℚ :=
  let unusedKW := data.calculateUnusedDischgKW
  let data := {data with startFirstFlag := cmd ≥ data.startFirstKW && data.autoRestartFlag}
  if cmd ≤ 0 ∨ unusedKW ≤ 0 then (data, 0)
  else
    let oldKWCmd := data.kWCmd
    let kWCmd := data.kWCmd + (if cmd > unusedKW then unusedKW else cmd)
    let assetContribution := kWCmd - oldKWCmd
    let kWRequest := if data.kWRequest > 0 then zeroCheck (data.kWRequest - assetContribution)
      else data.kWRequest
    ({data with kWCmd := kWCmd, kWRequest := kWRequest}, assetContribution)

/-- The site's mutable command state, as far as active power goes. -/
structure AssetCmdObject where
  /-- Storage. -/
  essData : AssetCmdData
  /-- Grid feeder. -/
  feederData : AssetCmdData
  /-- Generators. -/
  genData : AssetCmdData
  /-- Solar. -/
  solarData : AssetCmdData
  /-- Command desired at the POI. -/
  poiCmd : ℚ
  /-- Site load, positive into the site. -/
  siteKWLoad : ℚ
  /-- Whether the feature production is accounting for load. -/
  loadMethod : LoadCompensation
  /-- Load compensation not in the initial requests or demand. -/
  additionalLoadCompensation : ℚ
  /-- Demand commanded from the active power feature. -/
  featureKWDemand : ℚ
  /-- Demand after standalone feature modifications. -/
  siteKWDemand : ℚ
  /-- Charge up to this (nonpositive) amount during dispatch. -/
  siteKWChargeProduction : ℚ
  /-- Discharge up to this amount during dispatch. -/
  siteKWDischargeProduction : ℚ
  deriving DecidableEq, Repr

/-- The record an asset pointer stands for. -/
def AssetCmdObject.get (obj : AssetCmdObject) : AssetType → AssetCmdData
  | .ess => obj.essData
  | .feeder => obj.feederData
  | .gen => obj.genData
  | .solar => obj.solarData

/-- Write the record behind an asset pointer. -/
def AssetCmdObject.set (obj : AssetCmdObject) (asset : AssetType) (data : AssetCmdData) :
    AssetCmdObject :=
  match asset with
  | .ess => {obj with essData := data}
  | .feeder => {obj with feederData := data}
  | .gen => {obj with genData := data}
  | .solar => {obj with solarData := data}

@[simp] theorem get_set_same (obj : AssetCmdObject) (asset : AssetType) (data : AssetCmdData) :
    (obj.set asset data).get asset = data := by cases asset <;> rfl

theorem get_set_other (obj : AssetCmdObject) {asset other : AssetType} (data : AssetCmdData)
    (h : other ≠ asset) : (obj.set asset data).get other = obj.get other := by
  cases asset <;> cases other <;> first | rfl | exact absurd rfl h

/-- Whether load is being tracked at all, as the factor the source multiplies by. -/
def AssetCmdObject.getSiteKWLoadInclusion (obj : AssetCmdObject) : ℚ :=
  if obj.loadMethod = .noCompensation then 0 else 1

/-- Charge and discharge amounts that make up a site demand. -/
structure SiteKWProductionLimits where
  /-- Nonpositive charge production. -/
  siteKWChargeProduction : ℚ
  /-- Nonnegative discharge production. -/
  siteKWDischargeProduction : ℚ
  deriving DecidableEq, Repr

/-- Load compensation a feature must add to its demand for its load method. -/
def calculateAdditionalLoadCompensation (loadMethod : LoadCompensation)
    (siteKWLoad siteKWDemand essKWRequest genKWRequest solarKWRequest : ℚ) : ℚ :=
  match loadMethod with
  | .noCompensation => 0
  | .loadOffset => siteKWLoad
  | .loadMinimum =>
    let featureDischargeRequest := zeroCheck siteKWDemand + zeroCheck essKWRequest +
      zeroCheck genKWRequest + zeroCheck solarKWRequest
    zeroCheck (siteKWLoad - featureDischargeRequest)

/-- Split the site demand: the feature demand fixes the two productions, and
the standalone modification goes to the side of its sign, spilling past zero
into the other side. -/
def calculateSiteKWProductionLimits (essKWRequest genKWRequest solarKWRequest : ℚ)
    (loadMethod : LoadCompensation)
    (additionalLoadCompensation featureKWDemand siteKWDemand : ℚ) : SiteKWProductionLimits :=
  let requestedDischarge := zeroCheck essKWRequest + zeroCheck genKWRequest +
    zeroCheck solarKWRequest +
    (if loadMethod = .loadMinimum then additionalLoadCompensation else 0)
  let charge := lessThanZeroCheck (featureKWDemand - requestedDischarge)
  let discharge := zeroCheck (featureKWDemand - charge)
  let standaloneModification := siteKWDemand - featureKWDemand
  let outputs : SiteKWProductionLimits × ℚ :=
    if featureKWDemand < 0 ∨ (featureKWDemand = 0 ∧ standaloneModification < 0) then
      (⟨lessThanZeroCheck (charge + standaloneModification), discharge⟩,
        zeroCheck (charge + standaloneModification))
    else
      (⟨charge, zeroCheck (discharge + standaloneModification)⟩,
        lessThanZeroCheck (discharge + standaloneModification))
  let signChange := outputs.2
  if signChange < 0 then
    {outputs.1 with
      siteKWChargeProduction := outputs.1.siteKWChargeProduction + signChange}
  else if signChange > 0 then
    {outputs.1 with
      siteKWDischargeProduction := outputs.1.siteKWDischargeProduction + signChange}
  else outputs.1

/-- The production limits of the current state. -/
def AssetCmdObject.productionLimits (obj : AssetCmdObject) : SiteKWProductionLimits :=
  calculateSiteKWProductionLimits obj.essData.kWRequest obj.genData.kWRequest
    obj.solarData.kWRequest obj.loadMethod obj.additionalLoadCompensation
    obj.featureKWDemand obj.siteKWDemand

/-- Store freshly computed production limits. -/
def AssetCmdObject.storeProductionLimits (obj : AssetCmdObject) : AssetCmdObject :=
  {obj with
    siteKWChargeProduction := obj.productionLimits.siteKWChargeProduction
    siteKWDischargeProduction := obj.productionLimits.siteKWDischargeProduction}

/-- The asset order of the priority enumeration; any other number falls back
to priority 0. -/
def priorityOrder (assetPriority : ℤ) : List AssetType :=
  match assetPriority with
  | 0 => [.solar, .gen, .ess, .feeder]
  | 1 => [.solar, .feeder, .ess, .gen]
  | 2 => [.gen, .ess, .solar, .feeder]
  | 3 => [.gen, .solar, .ess, .feeder]
  | 4 => [.ess, .solar, .gen, .feeder]
  | 5 => [.ess, .solar, .feeder, .gen]
  | 6 => [.solar, .gen, .feeder, .ess]
  | _ => [.solar, .gen, .ess, .feeder]

/-- Remove the given asset types, each at its first occurrence. -/
def removeAssetTypes (dataList assetTypes : List AssetType) : List AssetType :=
  assetTypes.foldl List.erase dataList

/-- The assets by priority, those with a discharge request first. -/
def AssetCmdObject.listAssetsByDischargePriority (obj : AssetCmdObject) (assetPriority : ℤ)
    (exclusions : List AssetType) : List AssetType :=
  let listByPriority := removeAssetTypes (priorityOrder assetPriority) exclusions
  listByPriority.filter (fun asset => (obj.get asset).kWRequest > 0) ++
    listByPriority.filter (fun asset => (obj.get asset).kWRequest ≤ 0)

/-- Unused discharge power across a list of assets. -/
def AssetCmdObject.aggregateUnusedKW (obj : AssetCmdObject) (dataList : List AssetType) : ℚ :=
  (dataList.map fun asset => (obj.get asset).calculateUnusedDischgKW).sum

/-- The contribution loop of the charge dispatch: each source in turn covers
what it can of the remainder, mirrored on the ESS command. -/
def chargeLoop : List AssetType → AssetCmdObject → ℚ → AssetCmdObject
  | [], obj, _ => obj
  | asset :: rest, obj, remainder =>
    if remainder ≤ 0 then obj
    else
      let contribution := min remainder (obj.get asset).calculateUnusedDischgKW
      if contribution ≤ 0 then chargeLoop rest obj remainder
      else
        let obj := obj.set .ess {obj.get .ess with kWCmd := (obj.get .ess).kWCmd - contribution}
        let obj := obj.set asset {obj.get asset with kWCmd := (obj.get asset).kWCmd + contribution}
        chargeLoop rest obj (remainder - contribution)

/-- The asset types that may not serve as a charge source. -/
def chargeExclusions (solarSourceFlag genSourceFlag feederSourceFlag : Bool) : List AssetType :=
  [AssetType.ess] ++ (if solarSourceFlag then [] else [.solar]) ++
    (if genSourceFlag then [] else [.gen]) ++ (if feederSourceFlag then [] else [.feeder])

/-- Dispatch the charge production over the allowed sources. Returns the
change of the ESS command. -/
def AssetCmdObject.dispatchSiteKWChargeCmd (obj : AssetCmdObject) (assetPriority : ℤ)
    (solarSourceFlag genSourceFlag feederSourceFlag : Bool) : AssetCmdObject × ℚ :=
  if obj.essData.kWCmd > 0 ∨ obj.essData.minPotentialKW ≥ 0 ∨ obj.siteKWChargeProduction ≥ 0 then
    ({obj with
      siteKWDemand := obj.siteKWDemand - lessThanZeroCheck obj.siteKWChargeProduction
      siteKWChargeProduction := 0
      essData := {obj.essData with
        kWRequest := obj.essData.kWRequest - lessThanZeroCheck obj.essData.kWRequest}}, 0)
  else
    let oldEssCmd := obj.essData.kWCmd
    let assetList := obj.listAssetsByDischargePriority assetPriority
      (chargeExclusions solarSourceFlag genSourceFlag feederSourceFlag)
    let essLimitedRequest := min (zeroCheck (-1 * obj.siteKWChargeProduction))
      (zeroCheck (-1 * obj.essData.calculateUnusedChargeKW))
    let dispatchChargeRemainder := min essLimitedRequest (obj.aggregateUnusedKW assetList)
    let obj := {obj with
      siteKWChargeProduction := obj.siteKWChargeProduction + dispatchChargeRemainder
      siteKWDischargeProduction := obj.siteKWDischargeProduction - essLimitedRequest
      siteKWDemand := obj.siteKWDemand + (essLimitedRequest - dispatchChargeRemainder)}
    let obj := chargeLoop assetList obj dispatchChargeRemainder
    (obj, obj.essData.kWCmd - oldEssCmd)

/-- The contribution loop of the discharge dispatch. The feeder only serves
load, and in the requests dispatch an asset serves its own request. -/
def dischargeLoop (commandType : DischargeType) :
    List AssetType → AssetCmdObject → ℚ → AssetCmdObject × ℚ
  | [], obj, cmd => (obj, cmd)
  | asset :: rest, obj, cmd =>
    if asset = .feeder ∧ commandType ≠ .load then dischargeLoop commandType rest obj cmd
    else
      match commandType with
      | .requests =>
        if (obj.get asset).kWRequest > 0 then
          let assetRequest := min (obj.get asset).kWRequest cmd
          let result := (obj.get asset).calculateSourceKWContribution assetRequest
          dischargeLoop commandType rest (obj.set asset result.1) (cmd - result.2)
        else dischargeLoop commandType rest obj cmd
      | .load | .demand =>
        let result := (obj.get asset).calculateSourceKWContribution cmd
        dischargeLoop commandType rest (obj.set asset result.1) (cmd - result.2)

/-- Distribute a discharge command to each asset type by priority order.
Returns the total amount of power dispatched. -/
def AssetCmdObject.dispatchSiteKWDischargeCmd (obj : AssetCmdObject) (assetPriority : ℤ)
    (cmd : ℚ) (commandType : DischargeType) : AssetCmdObject × ℚ :=
  if lessThanOrNear cmd 0 (1 / 1000) then (obj, 0)
  else
    let assetList := obj.listAssetsByDischargePriority assetPriority []
    let receivedCmd := min (min cmd obj.siteKWDischargeProduction)
      (obj.aggregateUnusedKW assetList)
    let result := dischargeLoop commandType assetList obj receivedCmd
    ({result.1 with
      siteKWDischargeProduction :=
        result.1.siteKWDischargeProduction - (receivedCmd - result.2)},
      receivedCmd - result.2)

/-- The enable flags of the charge dispatch feature. -/
structure ChargeDispatch where
  /-- Solar may feed the ESS. -/
  solarEnableFlag : Bool
  /-- Generators may feed the ESS. -/
  genEnableFlag : Bool
  /-- The grid may feed the ESS. -/
  feederEnableFlag : Bool
  deriving DecidableEq, Repr

/-- Load pass of the active power dispatch, only for load tracked as a minimum. -/
def loadDispatch (assetPriority : ℤ) (obj : AssetCmdObject) : AssetCmdObject × ℚ :=
  if obj.loadMethod = .loadMinimum then
    obj.dispatchSiteKWDischargeCmd assetPriority obj.siteKWLoad .load
  else (obj, 0)

/-- Charge pass of the active power dispatch. -/
def chargeDispatchPass (flags : ChargeDispatch) (assetPriority : ℤ) (obj : AssetCmdObject) :
    AssetCmdObject × ℚ :=
  obj.dispatchSiteKWChargeCmd assetPriority flags.solarEnableFlag flags.genEnableFlag
    flags.feederEnableFlag

/-- Requests pass of the active power dispatch. -/
def requestsDispatch (assetPriority : ℤ) (obj : AssetCmdObject) : AssetCmdObject × ℚ :=
  obj.dispatchSiteKWDischargeCmd assetPriority obj.siteKWDischargeProduction .requests

/-- Demand pass of the active power dispatch. -/
def demandDispatch (assetPriority : ℤ) (obj : AssetCmdObject) : AssetCmdObject × ℚ :=
  obj.dispatchSiteKWDischargeCmd assetPriority obj.siteKWDischargeProduction .demand

/-- `Site_Manager::dispatch_active_power`: refresh the production limits, then
serve load, charge, requests and demand in that order. Returns the commands
and the power the charge dispatch variable reports. -/
def dispatchActivePower (flags : ChargeDispatch) (assetPriority : ℤ) (obj : AssetCmdObject) :
    AssetCmdObject × ℚ :=
  let load := loadDispatch assetPriority obj.storeProductionLimits
  let charge := chargeDispatchPass flags assetPriority load.1
  let requests := requestsDispatch assetPriority charge.1
  let demand := demandDispatch assetPriority requests.1
  (demand.1, load.2 + charge.2 + requests.2 + demand.2)

/-- The walk of `determine_ess_load_requirement` over the assets: whether the
ESS is reached before the load has been accounted for. -/
def essNeededForLoad (obj : AssetCmdObject) : List AssetType → ℚ → Bool
  | [], _ => false
  | asset :: rest, uncompensatedLoad =>
    if uncompensatedLoad ≤ 0 then false
    else if asset = .ess then true
    else essNeededForLoad obj rest
      (uncompensatedLoad - (obj.get asset).calculateUnusedDischgKW)

/-- Determine if the ESS must compensate for load, in which case the charge in
the demands and the ESS request are removed. -/
def AssetCmdObject.determineEssLoadRequirement (obj : AssetCmdObject) (assetPriority : ℤ) :
    AssetCmdObject × Bool :=
  let obj := obj.storeProductionLimits
  if obj.loadMethod ≠ .loadMinimum ∨
      (obj.essData.kWRequest ≥ 0 ∧ obj.siteKWChargeProduction ≥ 0) then (obj, false)
  else if essNeededForLoad obj (obj.listAssetsByDischargePriority assetPriority [])
      obj.siteKWLoad then
    ({obj with
      featureKWDemand := obj.featureKWDemand - lessThanZeroCheck obj.siteKWChargeProduction
      siteKWDemand := obj.siteKWDemand - lessThanZeroCheck obj.siteKWChargeProduction
      essData := {obj.essData with kWRequest := 0}}, true)
  else (obj, false)

/-- Aggregate the feature's demand and asset requests into the two demands. -/
def AssetCmdObject.calculateFeatureKWDemand (obj : AssetCmdObject) (assetPriority : ℤ) :
    AssetCmdObject :=
  let demand := obj.siteKWDemand +
    (obj.essData.kWRequest + obj.genData.kWRequest + obj.solarData.kWRequest)
  ({obj with siteKWDemand := demand, featureKWDemand := demand}.determineEssLoadRequirement
    assetPriority).1

end HybridOs.SiteAssetCmd
