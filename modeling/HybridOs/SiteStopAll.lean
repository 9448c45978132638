import Mathlib

/-!
# Stopping all assets of a type

A stop command goes out when the throttle of the asset lets it. All generators
that can be controlled are to be stopped, and all solar assets. The loop over
the generators stops asking once a command has failed.
-/

namespace HybridOs.SiteStopAll

/-- `Write_Rate_Throttle`, as far as commands use it, in milliseconds. -/
structure WriteRateThrottle where
  /-- Time that must pass between two writes. -/
  throttleTimeout : ℤ
  /-- Time of the most recent write. -/
  statusTime : ℤ

/-- `command_trigger`: whether the time has passed, which begins again if so. -/
def WriteRateThrottle.commandTrigger (throttle : WriteRateThrottle) (controlTime : ℤ) :
    Bool × WriteRateThrottle :=
  if throttle.throttleTimeout < controlTime - throttle.statusTime then
    (true, { throttle with statusTime := controlTime })
  else (false, throttle)

/-- A message to a component. -/
structure Message where
  /-- Where the message goes. -/
  uri : String
  /-- The value that it sets. -/
  value : ℤ
  deriving DecidableEq

/-- What an asset needs to be stopped. -/
structure Asset where
  /-- Available. -/
  isAvail : Bool
  /-- Reports running. -/
  isRunning : Bool
  /-- In standby. -/
  inStandby : Bool
  /-- In maintenance. -/
  inMaintenance : Bool
  /-- The configured demand mode is `Uncontrolled`. -/
  uncontrolled : Bool
  /-- Of the primary controller. -/
  isPrimary : Bool
  /-- Under local control. -/
  inLocalMode : Bool
  /-- Throttle of the stop command. -/
  stopCommandThrottle : WriteRateThrottle
  /-- Value that stops the component. -/
  stopValue : ℤ
  /-- Where the component takes it, if it is configured. -/
  uriStop : String

namespace Asset

/-- `is_controllable`. -/
def isControllable (asset : Asset) : Bool :=
  asset.isAvail && asset.isRunning && !asset.inStandby &&
    !(asset.inMaintenance || asset.uncontrolled)

/-- `send_to_comp_uri`. A secondary controller and a component in local mode send nothing. -/
def sendToCompUri (asset : Asset) (value : ℤ) (uri : String) : Bool × List Message :=
  if uri = "" then (false, [])
  else (true, if !asset.isPrimary || asset.inLocalMode then [] else [⟨uri, value⟩])

/-- The throttle lets a stop command out, and there is a place for it to go. -/
def CanStop (asset : Asset) (controlTime : ℤ) : Prop :=
  asset.stopCommandThrottle.throttleTimeout <
    controlTime - asset.stopCommandThrottle.statusTime ∧ asset.uriStop ≠ ""

end Asset

/-- `Asset_Generator`, as far as it is stopped. -/
structure Generator extends Asset where
  /-- On its way up. -/
  isStarting : Bool
  /-- Ramping down before a stop command. -/
  isStopping : Bool
  /-- Sent a stop command, cooldown not over. -/
  coolingDown : Bool
  /-- Seconds of cooldown left. -/
  cooldownCountdown : ℤ
  /-- Off the static stop list. -/
  blockLdssStaticStops : Bool

/-- What a call of `stop` returns, leaves and sends. -/
structure Stopped (α : Type) where
  /-- Whether the command was sent. -/
  sent : Bool
  /-- The asset afterwards. -/
  asset : α
  /-- The messages to components. -/
  messages : List Message

/-- `Asset_Generator::stop`, with the cooldown time of the start-stop lists. -/
def Generator.stop (gen : Generator) (cooldownTime controlTime : ℤ) : Stopped Generator :=
  let (triggered, throttle) := gen.stopCommandThrottle.commandTrigger controlTime
  if triggered then
    let (sent, messages) := gen.sendToCompUri gen.stopValue gen.uriStop
    ⟨sent, { gen with
      stopCommandThrottle := throttle
      isStarting := false
      isStopping := false
      cooldownCountdown := cooldownTime
      coolingDown := true
      blockLdssStaticStops := true }, messages⟩
  else ⟨false, gen, []⟩

/-- `Asset_Solar::stop`. -/
def Asset.stopSolar (solar : Asset) (controlTime : ℤ) : Stopped Asset :=
  let (triggered, throttle) := solar.stopCommandThrottle.commandTrigger controlTime
  if triggered then
    let (sent, messages) := solar.sendToCompUri solar.stopValue solar.uriStop
    ⟨sent, { solar with stopCommandThrottle := throttle, inStandby := false }, messages⟩
  else ⟨false, solar, []⟩

/-- What a loop over assets returns, leaves of each with the answer of its stop if it was called,
and sends. -/
structure StopAll (α : Type) where
  /-- Whether all commands were sent. -/
  allCommandsSent : Bool
  /-- The assets afterwards, with the answers. -/
  assets : List (α × Option Bool)
  /-- The messages to components. -/
  messages : List Message

/-- The loop of `stop_all_gen`, over the generators with the time at which each is asked. -/
def stopAllGenFrom (cooldownTime : ℤ) (allCommandsSent : Bool) :
    List (ℤ × Generator) → StopAll Generator
  | [] => ⟨allCommandsSent, [], []⟩
  | (controlTime, gen) :: rest =>
    -- the second operand of && is not called once the first is false
    if gen.isControllable && allCommandsSent then
      let stopped := gen.stop cooldownTime controlTime
      let others := stopAllGenFrom cooldownTime stopped.sent rest
      ⟨others.allCommandsSent, (stopped.asset, some stopped.sent) :: others.assets,
        stopped.messages ++ others.messages⟩
    else
      let others := stopAllGenFrom cooldownTime allCommandsSent rest
      ⟨others.allCommandsSent, (gen, none) :: others.assets, others.messages⟩

/-- `Generator_Manager::stop_all_gen`. -/
def stopAllGen (cooldownTime : ℤ) (gens : List (ℤ × Generator)) : StopAll Generator :=
  stopAllGenFrom cooldownTime true gens

/-- The loop of `stop_all_solar`. -/
def stopAllSolarFrom (returnValue : Bool) : List (ℤ × Asset) → StopAll Asset
  | [] => ⟨returnValue, [], []⟩
  | (controlTime, solar) :: rest =>
    let stopped := solar.stopSolar controlTime
    let others := stopAllSolarFrom (stopped.sent && returnValue) rest
    ⟨others.allCommandsSent, (stopped.asset, some stopped.sent) :: others.assets,
      stopped.messages ++ others.messages⟩

/-- `Solar_Manager::stop_all_solar`. -/
def stopAllSolar (solar : List (ℤ × Asset)) : StopAll Asset := stopAllSolarFrom true solar

/-! ## Single stops -/

theorem Generator.stop_sent_iff (gen : Generator) (cooldownTime controlTime : ℤ) :
    (gen.stop cooldownTime controlTime).sent = true ↔ gen.CanStop controlTime := by
  unfold Generator.stop WriteRateThrottle.commandTrigger Asset.CanStop Asset.sendToCompUri
  by_cases htime : gen.stopCommandThrottle.throttleTimeout <
      controlTime - gen.stopCommandThrottle.statusTime
  · by_cases huri : gen.uriStop = ""
    · simp [htime, huri]
    · simp [htime, huri]
  · simp [htime]

/-! ## Stopping all -/

/-- A generator after it was stopped if it can be controlled, with the answer of its stop. -/
def stoppedGen (cooldownTime : ℤ) (entry : ℤ × Generator) : Generator × Option Bool :=
  if entry.2.isControllable then
    ((entry.2.stop cooldownTime entry.1).asset, some (entry.2.stop cooldownTime entry.1).sent)
  else (entry.2, none)

/-- Each generator that can be controlled is stopped, whatever the others answer, and the result
tells whether every one of these stops was sent. -/
structure StopsEvery (cooldownTime : ℤ) (gens : List (ℤ × Generator)) : Prop where
  /-- The generators are stopped. -/
  assets_eq : (stopAllGen cooldownTime gens).assets = gens.map (stoppedGen cooldownTime)
  /-- The result is right. -/
  sent_iff : (stopAllGen cooldownTime gens).allCommandsSent = true ↔
    ∀ entry ∈ gens, entry.2.isControllable = true →
      (entry.2.stop cooldownTime entry.1).sent = true

variable (cooldownTime : ℤ) (gens : List (ℤ × Generator))

/-- Once a command has failed, no generator is asked. -/
theorem stopAllGenFrom_false :
    (stopAllGenFrom cooldownTime false gens).allCommandsSent = false ∧
      (stopAllGenFrom cooldownTime false gens).assets = gens.map fun entry => (entry.2, none) := by
  induction gens with
  | nil => exact ⟨rfl, rfl⟩
  | cons entry rest ih =>
    obtain ⟨controlTime, gen⟩ := entry
    obtain ⟨hsent, hassets⟩ := ih
    rw [stopAllGenFrom, Bool.and_false, if_neg Bool.false_ne_true]
    constructor
    · exact hsent
    · rw [List.map_cons, ← hassets]

/-- The result is right even where the loop ends early. -/
theorem allCommandsSent_iff :
    (stopAllGenFrom cooldownTime true gens).allCommandsSent = true ↔
      ∀ entry ∈ gens, entry.2.isControllable = true →
        (entry.2.stop cooldownTime entry.1).sent = true := by
  induction gens with
  | nil => simp [stopAllGenFrom]
  | cons entry rest ih =>
    obtain ⟨controlTime, gen⟩ := entry
    rw [List.forall_mem_cons, stopAllGenFrom, Bool.and_true]
    by_cases hcontrol : gen.isControllable = true
    · rw [if_pos hcontrol]
      cases hsent : (gen.stop cooldownTime controlTime).sent with
      | true =>
        dsimp only
        rw [hsent, ih]
        simp
      | false =>
        dsimp only
        rw [hsent, (stopAllGenFrom_false cooldownTime rest).1]
        simp [hcontrol]
    · rw [if_neg hcontrol]
      dsimp only
      rw [ih]
      simp [hcontrol]

/-- The generators that are left alone after a failed command are those that cannot be
controlled if and only if none of them can. -/
theorem map_unasked_eq_iff :
    (gens.map fun entry => (entry.2, (none : Option Bool))) =
        gens.map (stoppedGen cooldownTime) ↔ ∀ entry ∈ gens, entry.2.isControllable = false := by
  rw [List.map_inj_left]
  refine forall₂_congr fun entry _ => ?_
  unfold stoppedGen
  by_cases hcontrol : entry.2.isControllable = true
  · simp
  · simp

/-- A loop stops every generator that can be controlled if and only if none whose stop fails
comes before another of them. -/
theorem assets_eq_iff :
    (stopAllGenFrom cooldownTime true gens).assets = gens.map (stoppedGen cooldownTime) ↔
      gens.Pairwise fun earlier later => earlier.2.isControllable = true →
        later.2.isControllable = true → earlier.2.CanStop earlier.1 := by
  induction gens with
  | nil => simp [stopAllGenFrom]
  | cons entry rest ih =>
    obtain ⟨controlTime, gen⟩ := entry
    rw [List.pairwise_cons, List.map_cons, stopAllGenFrom, Bool.and_true, ← ih]
    by_cases hcontrol : gen.isControllable = true
    · have hhead : stoppedGen cooldownTime (controlTime, gen) =
          ((gen.stop cooldownTime controlTime).asset,
            some (gen.stop cooldownTime controlTime).sent) := if_pos hcontrol
      rw [if_pos hcontrol, hhead]
      dsimp only
      rw [List.cons_inj_right]
      have hcan := gen.stop_sent_iff cooldownTime controlTime
      cases hsent : (gen.stop cooldownTime controlTime).sent with
      | true =>
        have hstops : gen.CanStop controlTime := hcan.mp hsent
        simp [hstops]
      | false =>
        have hcannot : ¬ gen.CanStop controlTime := by
          rw [← hcan, hsent]
          exact Bool.false_ne_true
        rw [(stopAllGenFrom_false cooldownTime rest).2, map_unasked_eq_iff]
        constructor
        · intro hnone
          constructor
          · intro later hlater _ hcontrolled
            rw [hnone later hlater] at hcontrolled
            cases hcontrolled
          · refine ih.mpr (List.pairwise_of_forall_mem_list fun earlier hearlier _ _ hcontrolled => ?_)
            rw [hnone earlier hearlier] at hcontrolled
            cases hcontrolled
        · rintro ⟨hlater, -⟩ entry hentry
          by_contra hcontrolled
          exact hcannot (hlater entry hentry hcontrol ((Bool.not_eq_false _).mp hcontrolled))
    · have hhead : stoppedGen cooldownTime (controlTime, gen) = (gen, none) := if_neg hcontrol
      rw [if_neg hcontrol, hhead]
      dsimp only
      rw [List.cons_inj_right]
      simp [hcontrol]

/-- All generators that can be controlled are stopped if and only if none whose stop fails comes
before another of them. -/
theorem stopsEvery_iff (cooldownTime : ℤ) (gens : List (ℤ × Generator)) :
    StopsEvery cooldownTime gens ↔ gens.Pairwise fun earlier later =>
      earlier.2.isControllable = true → later.2.isControllable = true →
        earlier.2.CanStop earlier.1 := by
  rw [← assets_eq_iff]
  constructor
  · intro h
    exact h.assets_eq
  · intro h
    exact ⟨h, allCommandsSent_iff cooldownTime gens⟩

/-- A generator that was just sent a stop command and one that was not, both under control. -/
def throttledFirst : List (ℤ × Generator) :=
  let gen : Generator :=
    { isAvail := true, isRunning := true, inStandby := false, inMaintenance := false
      uncontrolled := false, isPrimary := true, inLocalMode := false
      stopCommandThrottle := ⟨1000, 0⟩, stopValue := 0, uriStop := "/components/gen_1/stop"
      isStarting := false, isStopping := false, coolingDown := false, cooldownCountdown := 0
      blockLdssStaticStops := false }
  [(5000, { gen with stopCommandThrottle := ⟨1000, 4500⟩ }),
    (5000, { gen with uriStop := "/components/gen_2/stop" })]

/-- The second generator is not stopped. -/
theorem throttledFirst_notStopped : ¬ StopsEvery 60 throttledFirst := by
  intro h
  have hassets := congrArg (fun assets => assets.map Prod.snd) h.assets_eq
  revert hassets
  decide

/-! ## Solar -/

/-- An inverter after its stop, with the answer. -/
def stoppedSolar (entry : ℤ × Asset) : Asset × Option Bool :=
  ((entry.2.stopSolar entry.1).asset, some (entry.2.stopSolar entry.1).sent)

/-- Whatever the inverters before it have answered, the loop asks every inverter. -/
theorem stopAllSolarFrom_assets (returnValue : Bool) (solar : List (ℤ × Asset)) :
    (stopAllSolarFrom returnValue solar).assets = solar.map stoppedSolar := by
  induction solar generalizing returnValue with
  | nil => rfl
  | cons entry rest ih =>
    rw [stopAllSolarFrom, List.map_cons, ← ih ((entry.2.stopSolar entry.1).sent && returnValue)]
    rfl

/-- The loop returns whether nothing has failed before it and every stop was sent. -/
theorem stopAllSolarFrom_sent_iff (returnValue : Bool) (solar : List (ℤ × Asset)) :
    (stopAllSolarFrom returnValue solar).allCommandsSent = true ↔
      returnValue = true ∧ ∀ entry ∈ solar, (entry.2.stopSolar entry.1).sent = true := by
  induction solar generalizing returnValue with
  | nil => simp [stopAllSolarFrom]
  | cons entry rest ih =>
    rw [stopAllSolarFrom, ih, Bool.and_eq_true, List.forall_mem_cons]
    exact ⟨fun ⟨⟨hsent, hbefore⟩, hrest⟩ => ⟨hbefore, hsent, hrest⟩,
      fun ⟨hbefore, hsent, hrest⟩ => ⟨⟨hsent, hbefore⟩, hrest⟩⟩

/-- Stopping all solar asks every inverter, whichever stops fail, and tells whether all were
sent: the generators' loop is the only one that ends early. -/
theorem stopAllSolar_stopsEvery (solar : List (ℤ × Asset)) :
    (stopAllSolar solar).assets = solar.map stoppedSolar ∧
      ((stopAllSolar solar).allCommandsSent = true ↔
        ∀ entry ∈ solar, (entry.2.stopSolar entry.1).sent = true) := by
  refine ⟨stopAllSolarFrom_assets true solar, ?_⟩
  rw [stopAllSolar, stopAllSolarFrom_sent_iff]
  simp

end HybridOs.SiteStopAll
