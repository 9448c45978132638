import HybridOs.CheckedRun
import HybridOs.PriorityList
import Mathlib.Algebra.BigOperators.Fin
import Mathlib.Algebra.Order.BigOperators.Group.Finset
import Mathlib.Data.List.GetD

/-!
# The generator scheduler

Load-dependent start-stop keeps two lists of generators, one of those to start
and one of those to stop, each as a priority number on every generator: 1 is
next, 0 is off the list. Starting and stopping change the numbers of the other
generators. Whether load and state of charge ask for a start or a stop, what
the components report, and whether a command gets through, are inputs.
-/

namespace HybridOs.SiteLdss

open PriorityList

/-- Static or dynamic priorities. -/
inductive PrioritySetting
  | static | dynamic
  deriving DecidableEq, Repr

/-- Grid mode of a generator. -/
inductive GridMode
  | following | forming | undefined
  deriving DecidableEq, Repr

/-- The two priority lists. -/
inductive Side
  | start | stop
  deriving DecidableEq, Repr

/-- What a component reports. -/
structure Status where
  /-- Without faults, not in maintenance or local mode, and connected. -/
  isAvail : Bool
  /-- Reports running. -/
  isRunning : Bool
  /-- Reports stopped. -/
  isStopped : Bool
  /-- In maintenance mode. -/
  inMaintenance : Bool
  /-- Grid mode. -/
  gridMode : GridMode
  deriving DecidableEq, Repr

/-- A generator as the scheduler sees it. -/
structure Generator where
  /-- What the component reports. -/
  status : Status
  /-- Sent a start command, not running yet. -/
  isStarting : Bool
  /-- Ramping down before a stop command. -/
  isStopping : Bool
  /-- Sent a stop command, cooldown not over. -/
  coolingDown : Bool
  /-- Sent a start command, warmup not over. -/
  warmingUp : Bool
  /-- Seconds of cooldown left. -/
  cooldownCountdown : ℤ
  /-- Seconds of warmup left. -/
  warmupCountdown : ℤ
  /-- `static_start_priority` and `static_stop_priority`. -/
  staticPriority : Side → ℤ
  /-- `dynamic_start_priority` and `dynamic_stop_priority`. -/
  dynamicPriority : Side → ℤ
  /-- `block_ldss_static_starts` and `block_ldss_static_stops`. -/
  blockLdssStatic : Side → Bool
  /-- Observation only: the last command that went out is a stop. -/
  stopSent : Bool

/-- The scheduler and its generators. -/
structure Ldss (n : ℕ) where
  /-- In the order of the configuration. -/
  generators : Fin n → Generator
  /-- Which priorities choose the next generator. -/
  prioritySetting : PrioritySetting
  /-- Seconds a started generator stays off the stop list. -/
  warmupTime : ℤ
  /-- Seconds a stopped generator stays off the start list. -/
  cooldownTime : ℤ

/-! ## A generator -/

/-- Set one dynamic priority. -/
def Generator.setDynamicPriority (gen : Generator) (side : Side) (priority : ℤ) : Generator :=
  {gen with dynamicPriority := Function.update gen.dynamicPriority side priority}

/-- Set one static priority. -/
def Generator.setStaticPriority (gen : Generator) (side : Side) (priority : ℤ) : Generator :=
  {gen with staticPriority := Function.update gen.staticPriority side priority}

/-- Block or unblock a generator for static priorities. -/
def Generator.setBlockLdssStatic (gen : Generator) (side : Side) (block : Bool) : Generator :=
  {gen with blockLdssStatic := Function.update gen.blockLdssStatic side block}

/-- The effect of a start command that the throttle lets through. -/
def Generator.start (gen : Generator) (warmupTime : ℤ) (triggered : Bool) : Generator :=
  if triggered then
    {gen.setBlockLdssStatic .start true with
      isStarting := true
      isStopping := false
      warmupCountdown := warmupTime
      warmingUp := true
      stopSent := false}
  else gen

/-- The effect of a stop command that the throttle lets through. -/
def Generator.stop (gen : Generator) (cooldownTime : ℤ) (triggered : Bool) : Generator :=
  if triggered then
    {gen.setBlockLdssStatic .stop true with
      isStarting := false
      isStopping := false
      cooldownCountdown := cooldownTime
      coolingDown := true
      stopSent := true}
  else gen

/-- A generator whose cooldown is over may be started again. -/
def Generator.cooledDown (gen : Generator) : Generator :=
  {gen.setBlockLdssStatic .start false with coolingDown := false}

/-- A generator whose warmup is over may be stopped. -/
def Generator.warmedUp (gen : Generator) : Generator :=
  {gen.setBlockLdssStatic .stop false with warmingUp := false}

section

variable {n : ℕ}

/-- Apply a function to one generator. -/
def Ldss.modify (ldss : Ldss n) (i : Fin n) (f : Generator → Generator) : Ldss n :=
  {ldss with generators := Function.update ldss.generators i (f (ldss.generators i))}

/-- The dynamic priorities of one list. -/
def Ldss.rank (ldss : Ldss n) (side : Side) : Fin n → ℤ :=
  fun i => (ldss.generators i).dynamicPriority side

/-- Give one list new dynamic priorities. -/
def Ldss.withRank (ldss : Ldss n) (side : Side) (rank : Fin n → ℤ) : Ldss n :=
  {ldss with generators := fun i => (ldss.generators i).setDynamicPriority side (rank i)}

/-! ## The lists -/

/-- Decrement all priorities of a list at and after the one of a generator. -/
def Ldss.adjustDynamicPriorities (ldss : Ldss n) (side : Side) (i : Fin n) : Ldss n :=
  ldss.withRank side (moveUp (ldss.rank side) (ldss.rank side i))

/-- Called after a generator is started. -/
def Ldss.adjustDynamicStartPriorities (ldss : Ldss n) (startedGen : Fin n) : Ldss n :=
  ldss.adjustDynamicPriorities .start startedGen

/-- Called after a generator is stopped. -/
def Ldss.adjustDynamicStopPriorities (ldss : Ldss n) (stoppedGen : Fin n) : Ldss n :=
  ldss.adjustDynamicPriorities .stop stoppedGen

/-- Make a generator the next one, in the dynamic and the static list of a side. -/
def Ldss.moveGenToFront (ldss : Ldss n) (side : Side) (i : Fin n) : Ldss n :=
  let staticRank := fun j => (ldss.generators j).staticPriority side
  let ldss := ldss.withRank side (toFront (ldss.rank side) i)
  {ldss with generators := fun j =>
    (ldss.generators j).setStaticPriority side (toFront staticRank i j)}

/-- The Start Next button. -/
def Ldss.moveGenToFrontOfBothStartPriorityLists (ldss : Ldss n) (genToStartNext : Fin n) :
    Ldss n :=
  ldss.moveGenToFront .start genToStartNext

/-- The Stop Next button. -/
def Ldss.moveGenToFrontOfBothStopPriorityLists (ldss : Ldss n) (genToStopNext : Fin n) :
    Ldss n :=
  ldss.moveGenToFront .stop genToStopNext

/-- The largest priority among some generators, at least zero. -/
def maxPriority (rank : Fin n → ℤ) (gens : List (Fin n)) : ℤ :=
  gens.foldl (fun priority i => max priority (rank i)) 0

/-- A generator that has warmed up is the last one to stop. -/
def Ldss.moveGenToBackOfDynamicStopPriorityList (ldss : Ldss n) (warmedUpGen : Fin n) : Ldss n :=
  ldss.withRank .stop (Function.update (ldss.rank .stop) warmedUpGen
    (maxPriority (ldss.rank .stop) (List.finRange n) + 1))

/-- A generator that has cooled down is the last one to start; its own old
priority does not count. -/
def Ldss.moveGenToBackOfDynamicStartPriorityList (ldss : Ldss n) (cooledDownGen : Fin n) :
    Ldss n :=
  ldss.withRank .start (Function.update (ldss.rank .start) cooledDownGen
    (maxPriority (ldss.rank .start) ((List.finRange n).filter (· ≠ cooledDownGen)) + 1))

/-! ## Choosing a generator -/

/-- A generator that should not be on a list: starting or running for the start
list, stopped for the stop list. -/
def Generator.taken (gen : Generator) : Side → Bool
  | .start => gen.isStarting || gen.status.isRunning
  | .stop => gen.status.isStopped

/-- A generator that may be chosen from a list. -/
def Generator.choosable (gen : Generator) : Side → Bool
  | .start => gen.status.isAvail
  | .stop => !gen.status.inMaintenance

/-- The priority by which the next generator is chosen. -/
def Ldss.currentPriority (ldss : Ldss n) (side : Side) (i : Fin n) : ℤ :=
  match ldss.prioritySetting with
  | .static => if (ldss.generators i).blockLdssStatic side then 0
    else (ldss.generators i).staticPriority side
  | .dynamic => (ldss.generators i).dynamicPriority side

/-- The first generator that was started or stopped by other means. -/
def Ldss.firstTaken (ldss : Ldss n) (side : Side) : Option (Fin n) :=
  (List.finRange n).find? fun i =>
    decide (ldss.currentPriority side i > 0) && (ldss.generators i).taken side

/-- Account for such a generator. -/
def Ldss.takeOff (ldss : Ldss n) (side : Side) (i : Fin n) : Ldss n :=
  (ldss.modify i fun gen => gen.setBlockLdssStatic side true).adjustDynamicPriorities side i

/-- The iteration restarts after every such generator; the fuel bounds the
restarts. -/
def settle : ℕ → Ldss n → Side → Ldss n
  | 0, ldss, _ => ldss
  | fuel + 1, ldss, side =>
    match ldss.firstTaken side with
    | none => ldss
    | some i => settle fuel (ldss.takeOff side i) side

/-- A bound on the restarts. -/
def Ldss.restarts (ldss : Ldss n) (side : Side) : ℕ :=
  ∑ i, ((ldss.rank side i).toNat +
    if (ldss.generators i).blockLdssStatic side then 0 else 1)

/-- The lists after all restarts. -/
def Ldss.settled (ldss : Ldss n) (side : Side) : Ldss n :=
  settle (ldss.restarts side) ldss side

/-- The last iteration: the choosable generator of the smallest nonzero
priority, the first one among equals. -/
def Ldss.choose (ldss : Ldss n) (side : Side) : Option (Fin n) :=
  ((List.finRange n).foldl (fun (best : ℤ × Option (Fin n)) i =>
    if ldss.currentPriority side i < best.1 ∧ ldss.currentPriority side i ≠ 0 ∧
        (ldss.generators i).choosable side = true then
      (ldss.currentPriority side i, some i)
    else best) (2147483647, none)).2

/-- Settle a list and choose from it. -/
def Ldss.getGen (ldss : Ldss n) (side : Side) : Ldss n × Option (Fin n) :=
  (ldss.settled side, (ldss.settled side).choose side)

/-- The next generator to start. -/
def Ldss.getGenToStart (ldss : Ldss n) : Ldss n × Option (Fin n) := ldss.getGen .start

/-- The next generator to stop. -/
def Ldss.getGenToStop (ldss : Ldss n) : Ldss n × Option (Fin n) := ldss.getGen .stop

/-! ## Starting and stopping -/

/-- How a command fares. -/
structure Command where
  /-- The throttle lets it through. -/
  triggered : Bool
  /-- The component was reached. -/
  sent : Bool
  deriving DecidableEq, Repr

/-- Send a generator its start command. -/
def Ldss.startGen (ldss : Ldss n) (i : Fin n) (triggered : Bool) : Ldss n :=
  ldss.modify i fun gen => gen.start ldss.warmupTime triggered

/-- Send a generator its stop command. -/
def Ldss.stopGen (ldss : Ldss n) (i : Fin n) (triggered : Bool) : Ldss n :=
  ldss.modify i fun gen => gen.stop ldss.cooldownTime triggered

/-- Start the next generator of the start list. -/
def Ldss.startGenerator (ldss : Ldss n) (command : Command) : Ldss n :=
  match ldss.getGenToStart with
  | (ldss, none) => ldss
  | (ldss, some i) =>
    if command.triggered && command.sent then
      (ldss.startGen i true).adjustDynamicStartPriorities i
    else ldss.startGen i command.triggered

/-- Stop the next generator of the stop list: a grid following one ramps down
first, a grid forming one is stopped at once. -/
def Ldss.stopGenerator (ldss : Ldss n) (triggered : Bool) : Ldss n :=
  match ldss.getGenToStop with
  | (ldss, none) => ldss
  | (ldss, some i) =>
    match (ldss.generators i).status.gridMode with
    | .following => ldss.modify i fun gen => {gen with isStopping := true}
    | .forming => (ldss.stopGen i triggered).adjustDynamicStopPriorities i
    | .undefined => ldss

/-- One generator of the timer update. -/
def Ldss.updateTimers (ldss : Ldss n) (i : Fin n) : Ldss n :=
  let gen := ldss.generators i
  if gen.status.isStopped then
    if gen.cooldownCountdown > 0 then
      ldss.modify i fun gen => {gen with cooldownCountdown := gen.cooldownCountdown - 1}
    else if gen.coolingDown then
      (ldss.modify i Generator.cooledDown).moveGenToBackOfDynamicStartPriorityList i
    else ldss
  else if gen.status.isRunning then
    if gen.warmupCountdown > 0 then
      ldss.modify i fun gen => {gen with warmupCountdown := gen.warmupCountdown - 1}
    else if gen.warmingUp then
      (ldss.modify i Generator.warmedUp).moveGenToBackOfDynamicStopPriorityList i
    else ldss
  else ldss

/-- Tick the timers and put generators back on the lists. -/
def Ldss.updateCooldownAndWarmup (ldss : Ldss n) : Ldss n :=
  (List.finRange n).foldl Ldss.updateTimers ldss

/-- One generator of the power calculation: a stopping one that has ramped down
is stopped and taken off the stop list. -/
def Ldss.rampDown (rampedDown triggered : Fin n → Bool) (ldss : Ldss n) (i : Fin n) : Ldss n :=
  if rampedDown i && (ldss.generators i).isStopping then
    (ldss.stopGen i (triggered i)).adjustDynamicStopPriorities i
  else ldss

/-- The stopping generators of the power calculation. -/
def Ldss.calculateGenPower (ldss : Ldss n) (rampedDown triggered : Fin n → Bool) : Ldss n :=
  (List.finRange n).foldl (Ldss.rampDown rampedDown triggered) ldss

/-- The update of one generator: a faulted one that is not stopped is stopped,
and one that runs has started. -/
def Generator.updateAsset (gen : Generator) (cooldownTime : ℤ) (faulted triggered : Bool) :
    Generator :=
  let gen := if faulted && !gen.status.isStopped then gen.stop cooldownTime triggered else gen
  if gen.status.isRunning then {gen with isStarting := false} else gen

/-- Whether the priorities of the configuration are accepted. -/
def acceptedPriorities (n : ℕ) (priorities : List ℤ) : Bool :=
  decide (priorities.length = n) && priorities.all fun priority =>
    decide (1 ≤ priority) && decide (priority ≤ n)

/-- A generator as it is constructed and configured, in a fleet of a size. -/
def Generator.configured (n : ℕ) (status : Status) (priority : ℤ) : Generator where
  status := status
  isStarting := false
  isStopping := false
  coolingDown := false
  warmingUp := false
  cooldownCountdown := 0
  warmupCountdown := 0
  staticPriority := fun
    | .start => priority
    | .stop => n - priority + 1
  dynamicPriority := fun
    | .start => priority
    | .stop => 0
  blockLdssStatic := fun
    | .start => false
    | .stop => true
  stopSent := false

/-- Configure the priorities of each generator. -/
def configurePriorities (priorities : List ℤ) (status : Fin n → Status)
    (prioritySetting : PrioritySetting) (warmupTime cooldownTime : ℤ) : Option (Ldss n) :=
  if acceptedPriorities n priorities then
    some {
      generators := fun i => Generator.configured n (status i) (priorities.getD i 0)
      prioritySetting := prioritySetting
      warmupTime := warmupTime
      cooldownTime := cooldownTime }
  else none

/-! ## Runs -/

/-- What reaches the scheduler. -/
inductive Event (n : ℕ)
  /-- The components report. -/
  | processAssets (status : Fin n → Status)
  /-- The settings of the site. -/
  | updateSettings (prioritySetting : PrioritySetting) (warmupTime cooldownTime : ℤ)
  /-- A start is due, by load, by a fault of another generator or by a sequence. -/
  | startGenerator (command : Command)
  /-- A stop is due. -/
  | stopGenerator (triggered : Bool)
  /-- A second has passed. -/
  | updateCooldownAndWarmup
  /-- Power goes to the generators. -/
  | calculateGenPower (rampedDown triggered : Fin n → Bool)
  /-- The generators are updated. -/
  | updateAssets (faulted triggered : Fin n → Bool)
  /-- A start command of an operator or of a sequence. -/
  | start (i : Fin n) (triggered : Bool)
  /-- A stop command of an operator or of a sequence. -/
  | stop (i : Fin n) (triggered : Bool)
  /-- The Start Next or Stop Next button. -/
  | next (side : Side) (i : Fin n)
  /-- The summary is published, with the next generators to start and stop. -/
  | summary

/-- One event. -/
def Ldss.step (ldss : Ldss n) : Event n → Ldss n
  | .processAssets status =>
    {ldss with generators := fun i => {ldss.generators i with status := status i}}
  | .updateSettings prioritySetting warmupTime cooldownTime =>
    {ldss with
      prioritySetting := prioritySetting
      warmupTime := warmupTime
      cooldownTime := cooldownTime}
  | .startGenerator command => ldss.startGenerator command
  | .stopGenerator triggered => ldss.stopGenerator triggered
  | .updateCooldownAndWarmup => ldss.updateCooldownAndWarmup
  | .calculateGenPower rampedDown triggered => ldss.calculateGenPower rampedDown triggered
  | .updateAssets faulted triggered =>
    {ldss with generators := fun i =>
      (ldss.generators i).updateAsset ldss.cooldownTime (faulted i) (triggered i)}
  | .start i triggered => ldss.startGen i triggered
  | .stop i triggered => ldss.stopGen i triggered
  | .next .start i => ldss.moveGenToFrontOfBothStartPriorityLists i
  | .next .stop i => ldss.moveGenToFrontOfBothStopPriorityLists i
  | .summary => (ldss.getGenToStart).1.getGenToStop.1

end

/-!
## The priority lists over whole runs

The places of each list should stay distinct, and a generator that could be
chosen should not lose its place. Both hold along runs in which every generator
that leaves a list is at its head: nobody it could be chosen before is ahead of
it. Unavailable generators that are skipped, generators started or stopped by
other means, refused stop commands and the static setting break this.
-/

open PriorityList CheckedRun

/-- A generator that should stay on a list: stopped, available and not in
cooldown for the start list; running, available and not in warmup for the stop
list. One that has been sent the command of the list is on its way off. -/
def Generator.Eligible (gen : Generator) : Side → Prop
  | .start => gen.status.isAvail = true ∧ gen.status.isStopped = true ∧
      gen.status.isRunning = false ∧ gen.isStarting = false ∧ gen.coolingDown = false
  | .stop => gen.status.isAvail = true ∧ gen.status.isRunning = true ∧
      gen.status.isStopped = false ∧ gen.warmingUp = false ∧ gen.stopSent = false

instance (gen : Generator) : (side : Side) → Decidable (gen.Eligible side)
  | .start => inferInstanceAs (Decidable (_ ∧ _ ∧ _ ∧ _ ∧ _))
  | .stop => inferInstanceAs (Decidable (_ ∧ _ ∧ _ ∧ _ ∧ _))

/-- What eligibility depends on. -/
def Generator.flags (gen : Generator) : Status × Bool × Bool × Bool × Bool :=
  (gen.status, gen.isStarting, gen.coolingDown, gen.warmingUp, gen.stopSent)

/-- The flags decide who is eligible. -/
theorem eligible_congr {gen gen' : Generator} (h : gen'.flags = gen.flags) (side : Side) :
    gen'.Eligible side ↔ gen.Eligible side := by
  unfold Generator.flags at h
  simp only [Prod.mk.injEq] at h
  obtain ⟨hstatus, hstarting, hcooling, hwarming, hsent⟩ := h
  cases side <;> simp only [Generator.Eligible, hstatus, hstarting, hcooling, hwarming, hsent]

/-- They decide who is taken. -/
theorem taken_congr {gen gen' : Generator} (h : gen'.flags = gen.flags) (side : Side) :
    gen'.taken side = gen.taken side := by
  unfold Generator.flags at h
  simp only [Prod.mk.injEq] at h
  cases side <;> simp only [Generator.taken, h.1, h.2.1]

section

variable {n : ℕ}

/-- The generators that should stay on a list. -/
def Ldss.eligible (ldss : Ldss n) (side : Side) (i : Fin n) : Prop :=
  (ldss.generators i).Eligible side

instance (ldss : Ldss n) (side : Side) (i : Fin n) : Decidable (ldss.eligible side i) :=
  inferInstanceAs (Decidable ((ldss.generators i).Eligible side))

/-- The places of both lists are distinct, and a generator that should stay on a
list, before and after, has kept its place. -/
structure ListsKept (ldss ldss' : Ldss n) : Prop where
  distinct : ∀ side, Distinct (ldss'.rank side)
  kept : ∀ side, Keeps (fun i => ldss.eligible side i ∧ ldss'.eligible side i) (ldss.rank side)
    (ldss'.rank side)

variable {ldss : Ldss n} {side : Side} {i : Fin n} {ldss' a b c : Ldss n}

/-- Lists with the same ranks are kept. -/
theorem ListsKept.of_rank_eq (hdistinct : ∀ side, Distinct (ldss.rank side))
    (h : ∀ side, ldss'.rank side = ldss.rank side) : ListsKept ldss ldss' where
  distinct side := h side ▸ hdistinct side
  kept side := h side ▸ Keeps.refl _ _

/-- Lists kept twice are kept, where who is eligible in the end was so between. -/
theorem ListsKept.trans (h : ListsKept a b) (h' : ListsKept b c)
    (hmid : ∀ side i, a.eligible side i → c.eligible side i → b.eligible side i) :
    ListsKept a c where
  distinct := h'.distinct
  kept side i he hpos := h'.kept side i ⟨hmid side i he.1 he.2, he.2⟩
    (h.kept side i ⟨he.1, hmid side i he.1 he.2⟩ hpos)

/-! ## Reads and writes -/

/-- A list that is set is the one that was given. -/
theorem rank_withRank (ldss : Ldss n) (side : Side) (rank : Fin n → ℤ) :
    (ldss.withRank side rank).rank side = rank := by
  funext i
  simp [Ldss.rank, Ldss.withRank, Generator.setDynamicPriority]

/-- The other list stays. -/
theorem rank_withRank_other (ldss : Ldss n) {other : Side} (rank : Fin n → ℤ) (h : other ≠ side) :
    (ldss.withRank side rank).rank other = ldss.rank other := by
  funext i
  simp [Ldss.rank, Ldss.withRank, Generator.setDynamicPriority, Function.update_of_ne h]

/-- A change that leaves the priorities leaves the lists. -/
theorem rank_modify (ldss : Ldss n) (i : Fin n) (f : Generator → Generator)
    (h : ∀ gen, (f gen).dynamicPriority = gen.dynamicPriority) (side : Side) :
    (ldss.modify i f).rank side = ldss.rank side := by
  funext j
  unfold Ldss.rank Ldss.modify
  by_cases hj : j = i
  · subst hj
    simp [h]
  · simp [Function.update_of_ne hj]

/-- The generator is changed. -/
theorem generators_modify_self (ldss : Ldss n) (i : Fin n) (f : Generator → Generator) :
    (ldss.modify i f).generators i = f (ldss.generators i) := Function.update_self ..

/-- The others are not. -/
theorem generators_modify_other (ldss : Ldss n) {j : Fin n} (f : Generator → Generator) (h : j ≠ i) :
    (ldss.modify i f).generators j = ldss.generators j := Function.update_of_ne h ..

/-- Blocking leaves the lists. -/
theorem rank_block (ldss : Ldss n) (side : Side) (i : Fin n) (other : Side) :
    (ldss.modify i fun gen => gen.setBlockLdssStatic side true).rank other = ldss.rank other :=
  rank_modify ldss i (fun gen => gen.setBlockLdssStatic side true) (fun _ => rfl) other

/-- A change of one list of dynamic priorities and of static blocks only. -/
structure Adjusted (side : Side) (ldss ldss' : Ldss n) : Prop where
  setting : ldss'.prioritySetting = ldss.prioritySetting
  flags : ∀ i, (ldss'.generators i).flags = (ldss.generators i).flags
  other : ∀ other, other ≠ side → ldss'.rank other = ldss.rank other

/-- A state is adjusted to itself. -/
theorem Adjusted.refl (side : Side) (ldss : Ldss n) : Adjusted side ldss ldss :=
  ⟨rfl, fun _ => rfl, fun _ _ => rfl⟩

/-- Adjusting twice is adjusting. -/
theorem Adjusted.trans (h : Adjusted side a b) (h' : Adjusted side b c) : Adjusted side a c :=
  ⟨h'.setting.trans h.setting, fun i => (h'.flags i).trans (h.flags i),
    fun other ho => (h'.other other ho).trans (h.other other ho)⟩

/-- Adjusting leaves who is eligible. -/
theorem Adjusted.eligible (h : Adjusted side ldss ldss') : ldss'.eligible = ldss.eligible := by
  funext other i
  exact propext (eligible_congr (h.flags i) other)

/-- Setting one list adjusts it. -/
theorem adjusted_withRank (ldss : Ldss n) (side : Side) (rank : Fin n → ℤ) :
    Adjusted side ldss (ldss.withRank side rank) :=
  ⟨rfl, fun _ => rfl, fun _ ho => rank_withRank_other ldss rank ho⟩

/-- So does taking a generator off. -/
theorem adjusted_takeOff (ldss : Ldss n) (side : Side) (i : Fin n) :
    Adjusted side ldss (ldss.takeOff side i) := by
  refine Adjusted.trans ?_ (adjusted_withRank (ldss.modify i fun gen =>
    gen.setBlockLdssStatic side true) side _)
  refine ⟨rfl, fun j => ?_, fun other _ => rank_block ldss side i other⟩
  by_cases hj : j = i
  · subst hj
    rw [generators_modify_self]
    rfl
  · rw [generators_modify_other _ _ hj]

/-- Those behind a generator that is taken off move up. -/
theorem rank_takeOff (ldss : Ldss n) (side : Side) (i : Fin n) :
    (ldss.takeOff side i).rank side = moveUp (ldss.rank side) (ldss.rank side i) := by
  rw [Ldss.takeOff, Ldss.adjustDynamicPriorities, rank_withRank, rank_block]

/-- Where one list keeps its places and the rest stays, the lists are kept. -/
theorem Adjusted.listsKept {side : Side} {ldss ldss' : Ldss n} (h : Adjusted side ldss ldss')
    (hdistinct : ∀ side, Distinct (ldss.rank side)) (hside : Distinct (ldss'.rank side))
    (hkeeps : Keeps (ldss.eligible side) (ldss.rank side) (ldss'.rank side)) :
    ListsKept ldss ldss' := by
  constructor
  · intro other
    by_cases ho : other = side
    · subst ho
      exact hside
    · rw [h.other other ho]
      exact hdistinct other
  · intro other
    by_cases ho : other = side
    · subst ho
      exact hkeeps.mono fun _ he => he.1
    · rw [h.other other ho]
      exact Keeps.refl _ _

/-! ## Settling a list -/

/-- The first taken generator is on the list. -/
theorem firstTaken_some (h : ldss.firstTaken side = some i) :
    0 < ldss.currentPriority side i ∧ (ldss.generators i).taken side = true := by
  have hi := List.find?_some h
  rw [Bool.and_eq_true, decide_eq_true_eq] at hi
  exact hi

/-- Without one the taken generators are off the list. -/
theorem firstTaken_none (h : ldss.firstTaken side = none)
    (htaken : (ldss.generators i).taken side = true) : ldss.currentPriority side i ≤ 0 := by
  have hi := List.find?_eq_none.mp h i (List.mem_finRange i)
  by_contra hpos
  exact hi (by rw [Bool.and_eq_true, decide_eq_true_eq]; exact ⟨not_le.mp hpos, htaken⟩)

/-- A generator that is taken off is blocked. -/
theorem blockLdssStatic_takeOff (ldss : Ldss n) (side : Side) (i j : Fin n) :
    ((ldss.takeOff side i).generators j).blockLdssStatic side =
      if j = i then true else (ldss.generators j).blockLdssStatic side := by
  have hsame : ((ldss.takeOff side i).generators j).blockLdssStatic =
      ((ldss.modify i fun gen => gen.setBlockLdssStatic side true).generators
        j).blockLdssStatic := rfl
  rw [hsame]
  split_ifs with hj
  · rw [hj, generators_modify_self]
    simp [Generator.setBlockLdssStatic]
  · rw [generators_modify_other _ _ hj]

/-- The static priorities stay. -/
theorem staticPriority_takeOff (ldss : Ldss n) (side : Side) (i j : Fin n) :
    ((ldss.takeOff side i).generators j).staticPriority = (ldss.generators j).staticPriority := by
  change ((ldss.modify i fun gen => gen.setBlockLdssStatic side true).generators
    j).staticPriority = _
  by_cases hj : j = i
  · rw [hj, generators_modify_self]
    rfl
  · rw [generators_modify_other _ _ hj]

/-- Every restart brings the bound down. -/
theorem restarts_takeOff (h : ldss.firstTaken side = some i) :
    (ldss.takeOff side i).restarts side < ldss.restarts side := by
  have hblock := blockLdssStatic_takeOff ldss side i
  have hrank : ∀ j, ((ldss.takeOff side i).rank side j).toNat ≤ (ldss.rank side j).toNat := by
    intro j
    rw [rank_takeOff]
    exact Int.toNat_le_toNat (moveUp_le _ _ j)
  have hself : ((ldss.takeOff side i).rank side i).toNat = (ldss.rank side i - 1).toNat := by
    rw [rank_takeOff, moveUp_of_ge le_rfl]
  obtain ⟨hpos, -⟩ := firstTaken_some h
  unfold Ldss.restarts
  refine Finset.sum_lt_sum (fun j _ => ?_) ⟨i, Finset.mem_univ i, ?_⟩
  · have hj := hrank j
    rw [hblock]
    by_cases hji : j = i
    · rw [if_pos hji, if_pos rfl]
      exact hj.trans (Nat.le_add_right _ _)
    · rw [if_neg hji]
      exact Nat.add_le_add_right hj _
  · have hi := hrank i
    rw [hblock, if_pos rfl, if_pos rfl]
    unfold Ldss.currentPriority at hpos
    cases hsetting : ldss.prioritySetting with
    | dynamic =>
      rw [hsetting] at hpos
      have hpos' : 0 < ldss.rank side i := hpos
      omega
    | static =>
      rw [hsetting] at hpos
      split_ifs at hpos with hblocked
      · exact absurd hpos (lt_irrefl 0)
      · rw [if_neg hblocked]
        omega

/-- The bound suffices: once settled, no generator that should be off the list
is left on it. -/
theorem firstTaken_settle {fuel : ℕ} (h : ldss.restarts side ≤ fuel) :
    (settle fuel ldss side).firstTaken side = none := by
  induction fuel generalizing ldss with
  | zero =>
    cases hfirst : ldss.firstTaken side with
    | none => exact hfirst
    | some i =>
      have hless := restarts_takeOff hfirst
      omega
  | succ fuel ih =>
    rw [settle]
    cases hfirst : ldss.firstTaken side with
    | none => exact hfirst
    | some i =>
      have hless := restarts_takeOff hfirst
      exact ih (by omega)

/-- Settling a list adjusts it. -/
theorem adjusted_settle (fuel : ℕ) (ldss : Ldss n) (side : Side) :
    Adjusted side ldss (settle fuel ldss side) := by
  induction fuel generalizing ldss with
  | zero => exact Adjusted.refl side ldss
  | succ fuel ih =>
    rw [settle]
    cases ldss.firstTaken side with
    | none => exact Adjusted.refl side ldss
    | some i => exact (adjusted_takeOff ldss side i).trans (ih _)

/-- With static priorities every restart takes a generator off the dynamic list
once, wherever it is on it. -/
def SettlesStatic : ℕ → Ldss n → Side → Prop
  | 0, _, _ => True
  | fuel + 1, ldss, side => ∀ i, ldss.firstTaken side = some i →
      LeavesHead (ldss.rank side) (ldss.eligible side) i ∧
        SettlesStatic fuel (ldss.takeOff side i) side

/-- Settling a list keeps it: with dynamic priorities, every generator that
should stay on the list is behind all those that are taken off. -/
def Ldss.Settles (ldss : Ldss n) (side : Side) : Prop :=
  match ldss.prioritySetting with
  | .dynamic => Clear (fun i => (ldss.generators i).taken side = true) (ldss.eligible side)
      (ldss.rank side)
  | .static => SettlesStatic (ldss.restarts side) ldss side

/-- A clear dynamic list is kept while it settles. -/
theorem settle_dynamic (fuel : ℕ)
    (hdistinct : DistinctBehind (fun i => (ldss.generators i).taken side = true) (ldss.rank side))
    (hclear : Clear (fun i => (ldss.generators i).taken side = true) (ldss.eligible side)
      (ldss.rank side)) (hsetting : ldss.prioritySetting = .dynamic) :
    DistinctBehind (fun i => (ldss.generators i).taken side = true)
        ((settle fuel ldss side).rank side) ∧
      Keeps (ldss.eligible side) (ldss.rank side) ((settle fuel ldss side).rank side) := by
  induction fuel generalizing ldss with
  | zero => exact ⟨hdistinct, Keeps.refl _ _⟩
  | succ fuel ih =>
    rw [settle]
    cases hfirst : ldss.firstTaken side with
    | none => exact ⟨hdistinct, Keeps.refl _ _⟩
    | some i =>
      obtain ⟨hpos, htaken⟩ := firstTaken_some hfirst
      rw [Ldss.currentPriority, hsetting] at hpos
      obtain ⟨hclear', hkeeps⟩ := hclear.moveUp htaken hpos
      have hadjusted := adjusted_takeOff ldss side i
      have hsame : (fun j => ((ldss.takeOff side i).generators j).taken side = true) =
          fun j => (ldss.generators j).taken side = true := by
        funext j
        rw [taken_congr (hadjusted.flags j)]
      have hrest := @ih (ldss.takeOff side i)
      rw [hsame, hadjusted.eligible, rank_takeOff] at hrest
      obtain ⟨hfinal, hkept⟩ := hrest (hdistinct.moveUp htaken) hclear'
        (hadjusted.setting.trans hsetting)
      exact ⟨hfinal, hkeeps.trans hkept⟩

/-- So is a static one whose steps keep it. -/
theorem settle_static (fuel : ℕ) (hdistinct : Distinct (ldss.rank side))
    (hkept : SettlesStatic fuel ldss side) :
    Distinct ((settle fuel ldss side).rank side) ∧
      Keeps (ldss.eligible side) (ldss.rank side) ((settle fuel ldss side).rank side) := by
  induction fuel generalizing ldss with
  | zero => exact ⟨hdistinct, Keeps.refl _ _⟩
  | succ fuel ih =>
    rw [settle]
    cases hfirst : ldss.firstTaken side with
    | none => exact ⟨hdistinct, Keeps.refl _ _⟩
    | some i =>
      obtain ⟨hleaves, hrest⟩ := hkept i hfirst
      obtain ⟨hdistinct', hkeeps⟩ := (moveUp_iff hdistinct i).mpr hleaves
      rw [← rank_takeOff] at hdistinct' hkeeps
      obtain ⟨hfinal, hlater⟩ := ih hdistinct' hrest
      rw [(adjusted_takeOff ldss side i).eligible] at hlater
      exact ⟨hfinal, hkeeps.trans hlater⟩

/-- A settled list has been adjusted. -/
theorem adjusted_settled (ldss : Ldss n) (side : Side) : Adjusted side ldss (ldss.settled side) :=
  adjusted_settle _ ldss side

/-- Settling a list under its condition keeps the lists. -/
theorem listsKept_settled (hsettles : ldss.Settles side)
    (hdistinct : ∀ side, Distinct (ldss.rank side)) : ListsKept ldss (ldss.settled side) := by
  have hadjusted := adjusted_settled ldss side
  unfold Ldss.Settles at hsettles
  cases hsetting : ldss.prioritySetting with
  | static =>
    rw [hsetting] at hsettles
    obtain ⟨hside, hkeeps⟩ := settle_static _ (hdistinct side) hsettles
    exact hadjusted.listsKept hdistinct hside hkeeps
  | dynamic =>
    rw [hsetting] at hsettles
    obtain ⟨hbehind, hkeeps⟩ := settle_dynamic (ldss.restarts side)
      (hdistinct side).distinctBehind hsettles hsetting
    refine hadjusted.listsKept hdistinct (hbehind.distinct fun i htaken => ?_) hkeeps
    have hdone := firstTaken_settle (le_refl (ldss.restarts side))
    have htaken' : ((ldss.settled side).generators i).taken side = true := by
      rw [taken_congr (hadjusted.flags i)]
      exact htaken
    have hoff := firstTaken_none hdone htaken'
    rw [Ldss.currentPriority, show (settle (ldss.restarts side) ldss side).prioritySetting =
      .dynamic from hadjusted.setting.trans hsetting] at hoff
    exact hoff

end

/-!
## The generator that is chosen

Every restart takes a generator with a positive priority off its list, so the recursion ends. A
negative priority, left by restarts with static priorities, is never taken off, but it is the
smallest: a generator that runs may be chosen by it to be started.
-/

section

variable {n : ℕ} {ldss : Ldss n} {side : Side}

/-- Startable or stoppable: it may be chosen, and it should not be off the list. -/
def Ldss.Usable (ldss : Ldss n) (side : Side) (i : Fin n) : Prop :=
  (ldss.generators i).choosable side = true ∧ (ldss.generators i).taken side = false

/-- The recursion ends, no number of restarts beyond the bound changes anything, and a generator
that is returned is startable or stoppable. -/
structure Ldss.Chooses (ldss : Ldss n) (side : Side) : Prop where
  ends : (ldss.settled side).firstTaken side = none
  bound : ∀ fuel ≥ ldss.restarts side, settle fuel ldss side = ldss.settled side
  usable : ∀ i, (ldss.getGen side).2 = some i → ldss.Usable side i

/-- More fuel changes nothing. -/
theorem settle_of_le {fuel more : ℕ} (hfuel : ldss.restarts side ≤ fuel) (hle : fuel ≤ more) :
    settle more ldss side = settle fuel ldss side := by
  induction more generalizing ldss fuel with
  | zero => rw [Nat.le_zero.mp hle]
  | succ more ih =>
    cases fuel with
    | zero =>
      have hnone : ldss.firstTaken side = none := firstTaken_settle hfuel
      simp only [settle, hnone]
    | succ fuel =>
      rw [settle, settle]
      cases hfirst : ldss.firstTaken side with
      | none => rfl
      | some i =>
        have hless := restarts_takeOff hfirst
        exact ih (by omega) (by omega)

/-! ## Priorities that are not positive -/

/-- Taking a generator off moves positive priorities only, and none of them below zero. -/
theorem min_currentPriority_takeOff {i : Fin n} (h : ldss.firstTaken side = some i) (j : Fin n) :
    min ((ldss.takeOff side i).currentPriority side j) 0 = min (ldss.currentPriority side j) 0 := by
  have hpos := (firstTaken_some h).1
  have hsetting := (adjusted_takeOff ldss side i).setting
  rw [Ldss.currentPriority, hsetting, Ldss.currentPriority]
  rw [Ldss.currentPriority] at hpos
  cases hcase : ldss.prioritySetting with
  | dynamic =>
    rw [hcase] at hpos
    have hrank := congrFun (rank_takeOff ldss side i) j
    change min ((ldss.takeOff side i).rank side j) 0 = min (ldss.rank side j) 0
    change 0 < ldss.rank side i at hpos
    rw [hrank]
    by_cases hge : ldss.rank side j ≥ ldss.rank side i
    · rw [moveUp_of_ge hge]
      omega
    · rw [moveUp_of_lt (not_le.mp hge)]
  | static =>
    rw [hcase] at hpos
    simp only [blockLdssStatic_takeOff, staticPriority_takeOff]
    by_cases hj : j = i
    · subst hj
      simp only at hpos
      split_ifs at hpos with hblocked
      · exact absurd hpos (lt_irrefl 0)
      · simp [hblocked, hpos.le]
    · rw [if_neg hj]

/-- Settling leaves the priorities below zero. -/
theorem min_currentPriority_settle (ldss : Ldss n) (side : Side) (fuel : ℕ) (j : Fin n) :
    min ((settle fuel ldss side).currentPriority side j) 0 =
      min (ldss.currentPriority side j) 0 := by
  induction fuel generalizing ldss with
  | zero => rfl
  | succ fuel ih =>
    rw [settle]
    cases hfirst : ldss.firstTaken side with
    | none => rfl
    | some i => exact (ih _).trans (min_currentPriority_takeOff hfirst j)

/-- Settling leaves who is choosable. -/
theorem choosable_settled {i : Fin n} : ((ldss.settled side).generators i).choosable side =
    (ldss.generators i).choosable side := by
  have hstatus : ((ldss.settled side).generators i).status = (ldss.generators i).status :=
    congrArg Prod.fst ((adjusted_settled ldss side).flags i)
  cases side <;> simp only [Generator.choosable, hstatus]

/-- Settling leaves who is taken. -/
theorem taken_settled {i : Fin n} : ((ldss.settled side).generators i).taken side =
    (ldss.generators i).taken side := taken_congr ((adjusted_settled ldss side).flags i) side

/-! ## The smallest priority -/

/-- A generator that the choice considers. -/
def Ldss.Candidate (ldss : Ldss n) (side : Side) (i : Fin n) : Prop :=
  ldss.currentPriority side i ≠ 0 ∧ (ldss.generators i).choosable side = true

/-- A generator has a smaller priority, or the same and comes first. -/
def Ldss.Before (ldss : Ldss n) (side : Side) (i j : Fin n) : Prop :=
  ldss.currentPriority side i < ldss.currentPriority side j ∨
    ldss.currentPriority side i = ldss.currentPriority side j ∧ i < j

/-- Of two generators one is before the other. -/
theorem Ldss.before_or (ldss : Ldss n) (side : Side) (i j : Fin n) :
    i = j ∨ ldss.Before side i j ∨ ldss.Before side j i := by
  unfold Ldss.Before
  rcases lt_trichotomy i j with hlt | heq | hgt
  · omega
  · exact .inl heq
  · omega

/-- The restarts do not change what comes before a negative priority. -/
theorem before_settled {i j : Fin n} (hnegative : ldss.currentPriority side i < 0) :
    (ldss.settled side).Before side j i ↔ ldss.Before side j i := by
  have hi := min_currentPriority_settle ldss side (ldss.restarts side) i
  have hj := min_currentPriority_settle ldss side (ldss.restarts side) j
  change min ((ldss.settled side).currentPriority side i) 0 = _ at hi
  change min ((ldss.settled side).currentPriority side j) 0 = _ at hj
  unfold Ldss.Before
  constructor
  · rintro (hless | ⟨heq, hlt⟩)
    · exact .inl (by omega)
    · exact .inr ⟨by omega, hlt⟩
  · rintro (hless | ⟨heq, hlt⟩)
    · exact .inl (by omega)
    · exact .inr ⟨by omega, hlt⟩

/-- One generator of the last iteration. -/
def Ldss.chooseStep (ldss : Ldss n) (side : Side) (best : ℤ × Option (Fin n)) (i : Fin n) :
    ℤ × Option (Fin n) :=
  if ldss.currentPriority side i < best.1 ∧ ldss.currentPriority side i ≠ 0 ∧
      (ldss.generators i).choosable side = true then
    (ldss.currentPriority side i, some i)
  else best

/-- The loop keeps what it has if nothing is smaller, and finds the first smallest one else. -/
theorem foldl_chooseStep {gens : List (Fin n)} (hsorted : gens.Pairwise (· < ·))
    (best : ℤ × Option (Fin n)) :
    (gens.foldl (ldss.chooseStep side) best = best ∧
      ∀ j ∈ gens, ldss.Candidate side j → best.1 ≤ ldss.currentPriority side j) ∨
    ∃ i, gens.foldl (ldss.chooseStep side) best = (ldss.currentPriority side i, some i) ∧
      ldss.Candidate side i ∧ ldss.currentPriority side i < best.1 ∧
      ∀ j ∈ gens, ldss.Candidate side j → ¬ ldss.Before side j i := by
  induction gens generalizing best with
  | nil => exact .inl ⟨rfl, by simp⟩
  | cons first gens ih =>
    obtain ⟨hfirst, hsorted⟩ := List.pairwise_cons.mp hsorted
    simp only [List.foldl_cons, List.forall_mem_cons]
    by_cases hbetter : ldss.currentPriority side first < best.1 ∧
        ldss.currentPriority side first ≠ 0 ∧ (ldss.generators first).choosable side = true
    · rw [Ldss.chooseStep, if_pos hbetter]
      right
      rcases ih hsorted (ldss.currentPriority side first, some first) with
        ⟨hkept, hall⟩ | ⟨i, hfound, hcandidate, hless, hall⟩
      · refine ⟨first, hkept, hbetter.2, hbetter.1, ?_, ?_⟩
        · simp [Ldss.Before]
        · intro j hj hcandidate hbefore
          have hle := hall j hj hcandidate
          have hlt := hfirst j hj
          unfold Ldss.Before at hbefore
          omega
      · refine ⟨i, hfound, hcandidate, hless.trans hbetter.1, ?_, hall⟩
        intro _ hbefore
        unfold Ldss.Before at hbefore
        omega
    · rw [Ldss.chooseStep, if_neg hbetter]
      rcases ih hsorted best with ⟨hkept, hall⟩ | ⟨i, hfound, hcandidate, hless, hall⟩
      · refine .inl ⟨hkept, fun hcandidate => ?_, hall⟩
        exact not_lt.mp fun hlt => hbetter ⟨hlt, hcandidate⟩
      · refine .inr ⟨i, hfound, hcandidate, hless, fun hfirst hbefore => hbetter ⟨?_, hfirst⟩, hall⟩
        unfold Ldss.Before at hbefore
        omega

/-- What is chosen is the first smallest candidate; without one below the start of the search
nothing is chosen. -/
theorem choose_cases (ldss : Ldss n) (side : Side) :
    (ldss.choose side = none ∧
      ∀ j, ldss.Candidate side j → 2147483647 ≤ ldss.currentPriority side j) ∨
    ∃ i, ldss.choose side = some i ∧ ldss.Candidate side i ∧
      ∀ j, ldss.Candidate side j → ¬ ldss.Before side j i := by
  have hchoose : ldss.choose side =
      ((List.finRange n).foldl (ldss.chooseStep side) (2147483647, none)).2 := rfl
  rw [hchoose]
  rcases foldl_chooseStep (List.pairwise_lt_finRange n) (2147483647, none) with
    ⟨hkept, hall⟩ | ⟨i, hfound, hcandidate, -, hall⟩
  · exact .inl ⟨by rw [hkept], fun j => hall j (List.mem_finRange j)⟩
  · exact .inr ⟨i, by rw [hfound], hcandidate, fun j => hall j (List.mem_finRange j)⟩

/-- A generator stands at the head of a list: it may be chosen, its priority is below the
largest one, and no generator before it may be chosen. -/
def Ldss.AtHead (ldss : Ldss n) (side : Side) (i : Fin n) : Prop :=
  ldss.Candidate side i ∧ ldss.currentPriority side i < 2147483647 ∧
    ∀ j, ldss.Candidate side j → ¬ ldss.Before side j i

/-- What is chosen from a list is the generator at its head. -/
theorem choose_eq_some_iff (ldss : Ldss n) (side : Side) (i : Fin n) :
    ldss.choose side = some i ↔ ldss.AtHead side i := by
  have hchoose : ldss.choose side =
      ((List.finRange n).foldl (ldss.chooseStep side) (2147483647, none)).2 := rfl
  rw [hchoose]
  rcases foldl_chooseStep (List.pairwise_lt_finRange n) (2147483647, none) with
    ⟨hkept, hall⟩ | ⟨k, hfound, hcandidate, hless, hall⟩
  · rw [hkept]
    refine iff_of_false (by simp) fun ⟨hi, hlow, _⟩ => ?_
    exact absurd hlow (not_lt.mpr (hall i (List.mem_finRange i) hi))
  · rw [hfound, Option.some.injEq]
    constructor
    · rintro rfl
      exact ⟨hcandidate, hless, fun j => hall j (List.mem_finRange j)⟩
    · rintro ⟨hi, -, hfirst⟩
      rcases ldss.before_or side k i with heq | hbefore | hafter
      · exact heq
      · exact absurd hbefore (hfirst k hcandidate)
      · exact absurd hafter (hall i (List.mem_finRange i) hi)

/-- The recursion always ends, and what it returns is startable or stoppable exactly if no
generator that should be off the list is the first one of the smallest negative priority. -/
theorem chooses_iff (ldss : Ldss n) (side : Side) : ldss.Chooses side ↔
    ∀ i, (ldss.generators i).taken side = true → (ldss.generators i).choosable side = true →
      ldss.currentPriority side i < 0 →
        ∃ j, (ldss.generators j).choosable side = true ∧ ldss.Before side j i := by
  have hends : (ldss.settled side).firstTaken side = none := firstTaken_settle le_rfl
  have hmin (j : Fin n) : min ((ldss.settled side).currentPriority side j) 0 =
      min (ldss.currentPriority side j) 0 := min_currentPriority_settle ldss side _ j
  constructor
  · intro h i htaken hchoosable hnegative
    have hi := hmin i
    have hcandidate : (ldss.settled side).Candidate side i :=
      ⟨by omega, choosable_settled.trans hchoosable⟩
    rcases choose_cases (ldss.settled side) side with ⟨-, hall⟩ | ⟨k, hchosen, hk, hall⟩
    · have hle := hall i hcandidate
      omega
    · rcases (ldss.settled side).before_or side k i with rfl | hbefore | hafter
      · have husable := (h.usable k hchosen).2
        rw [htaken] at husable
        cases husable
      · exact ⟨k, choosable_settled.symm.trans hk.2, (before_settled hnegative).1 hbefore⟩
      · exact absurd hafter (hall i hcandidate)
  · intro h
    refine ⟨hends, fun fuel hfuel => settle_of_le le_rfl hfuel, fun k hchosen => ?_⟩
    rcases choose_cases (ldss.settled side) side with ⟨hnone, -⟩ | ⟨i, hsome, hi, hall⟩
    · cases hnone.symm.trans hchosen
    obtain rfl := Option.some.inj (hsome.symm.trans hchosen)
    refine ⟨choosable_settled.symm.trans hi.2, Bool.eq_false_iff.2 fun htaken => ?_⟩
    have hoff := firstTaken_none hends (taken_settled.trans htaken)
    have hne := hi.1
    have hmini := hmin i
    have hnegative : ldss.currentPriority side i < 0 := by omega
    obtain ⟨j, hchoosable, hbefore⟩ := h i htaken (choosable_settled.symm.trans hi.2) hnegative
    have hbefore' := (before_settled hnegative).2 hbefore
    refine hall j ⟨?_, choosable_settled.trans hchoosable⟩ hbefore'
    unfold Ldss.Before at hbefore'
    omega

end

/-- A running generator whose start priority is below zero. -/
def negativeFleet : Ldss 1 where
  generators := fun _ =>
    {Generator.configured 1 ⟨true, true, false, false, .following⟩ 1 with
      dynamicPriority := fun _ => -1}
  prioritySetting := .dynamic
  warmupTime := 0
  cooldownTime := 0

/-- It is returned as the generator to start. -/
theorem negativeFleet_not_chooses : ¬ negativeFleet.Chooses .start := by
  intro h
  exact absurd (h.usable 0 (by decide)).2 (by decide)

/-!
## Runs of the generator scheduler

What each event needs in order to keep the priority lists, and that a run whose
events all have it keeps them throughout.
-/

section

variable {n : ℕ}

/-! ## Taking one generator off -/

/-- The generator leaves the head of a list. -/
def Ldss.Leaves (ldss : Ldss n) (side : Side) (i : Fin n) : Prop :=
  LeavesHead (ldss.rank side) (ldss.eligible side) i

variable {ldss : Ldss n} {side : Side} {i : Fin n} {triggered : Bool}

/-- A generator that leaves the head leaves the lists kept. -/
theorem listsKept_adjust (hdistinct : ∀ side, Distinct (ldss.rank side))
    (hleaves : ldss.Leaves side i) : ListsKept ldss (ldss.adjustDynamicPriorities side i) := by
  obtain ⟨hside, hkeeps⟩ := (moveUp_iff (hdistinct side) i).mpr hleaves
  refine (adjusted_withRank ldss side _).listsKept hdistinct ?_ ?_
  · rw [rank_withRank]
    exact hside
  · rw [rank_withRank]
    exact hkeeps

/-- A start command leaves the lists. -/
theorem rank_startGen (ldss : Ldss n) (i : Fin n) (triggered : Bool) (side : Side) :
    (ldss.startGen i triggered).rank side = ldss.rank side := by
  refine rank_modify ldss i (fun gen => gen.start ldss.warmupTime triggered) (fun gen => ?_) side
  unfold Generator.start
  split_ifs <;> rfl

/-- A stop command leaves the priorities. -/
theorem dynamicPriority_stop (gen : Generator) (cooldownTime : ℤ) (triggered : Bool) :
    (gen.stop cooldownTime triggered).dynamicPriority = gen.dynamicPriority := by
  unfold Generator.stop
  split_ifs <;> rfl

/-- So does the update of an asset. -/
theorem dynamicPriority_updateAsset (gen : Generator) (cooldownTime : ℤ)
    (faulted triggered : Bool) :
    (gen.updateAsset cooldownTime faulted triggered).dynamicPriority = gen.dynamicPriority := by
  unfold Generator.updateAsset
  dsimp only
  split_ifs
  · exact dynamicPriority_stop gen cooldownTime triggered
  · exact dynamicPriority_stop gen cooldownTime triggered
  · rfl
  · rfl

/-- So a stop command leaves the lists. -/
theorem rank_stopGen (ldss : Ldss n) (i : Fin n) (triggered : Bool) (side : Side) :
    (ldss.stopGen i triggered).rank side = ldss.rank side := by
  exact rank_modify ldss i (fun gen => gen.stop ldss.cooldownTime triggered)
    (fun gen => dynamicPriority_stop gen ldss.cooldownTime triggered) side

/-- A stop command makes nothing eligible. -/
theorem eligible_of_stopGen {j : Fin n} (h : (ldss.stopGen i triggered).eligible side j) :
    ldss.eligible side j := by
  unfold Ldss.eligible Ldss.stopGen at *
  by_cases hj : j = i
  · subst hj
    rw [generators_modify_self, Generator.stop] at h
    split_ifs at h
    · cases side with
      | start | stop => exact Bool.noConfusion h.2.2.2.2
    · exact h
  · rw [generators_modify_other _ _ hj] at h
    exact h

/-! ## What the events need -/

/-- The generators that have ramped down leave the head of the stop list one
after another. -/
def RampsDown (rampedDown triggered : Fin n → Bool) : List (Fin n) → Ldss n → Prop
  | [], _ => True
  | i :: rest, ldss =>
    ((rampedDown i && (ldss.generators i).isStopping) = true →
      (ldss.stopGen i (triggered i)).Leaves .stop i) ∧
    RampsDown rampedDown triggered rest (ldss.rampDown rampedDown triggered i)

/-- What an event needs in order to keep the lists: a list that is consulted
settles, a generator that is started or stopped leaves the head of its list,
and one that is moved to the front was on the list. -/
def KeepsLists (ldss : Ldss n) : Event n → Prop
  | .startGenerator command =>
    ldss.Settles .start ∧ ∀ i, (ldss.settled .start).AtHead .start i →
      (command.triggered && command.sent) = true →
      ((ldss.settled .start).startGen i true).Leaves .start i
  | .stopGenerator triggered =>
    ldss.Settles .stop ∧ ∀ i, (ldss.settled .stop).AtHead .stop i →
      ((ldss.settled .stop).generators i).status.gridMode = .forming →
      ((ldss.settled .stop).stopGen i triggered).Leaves .stop i
  | .calculateGenPower rampedDown triggered =>
    RampsDown rampedDown triggered (List.finRange n) ldss
  | .next side i => ∀ j, j ≠ i → ldss.rank side j = 1 → 0 < ldss.rank side i
  | .summary => ldss.Settles .start ∧ (ldss.settled .start).Settles .stop
  | _ => True

/-! ## The events keep the lists -/

section

variable (hdistinct : ∀ side, Distinct (ldss.rank side))
include hdistinct

/-- A start keeps the lists. -/
theorem listsKept_startGenerator {command : Command}
    (h : KeepsLists ldss (.startGenerator command)) :
    ListsKept ldss (ldss.startGenerator command) := by
  obtain ⟨hsettles, hleaves⟩ := h
  have hsettled := listsKept_settled hsettles hdistinct
  unfold Ldss.startGenerator Ldss.getGenToStart Ldss.getGen
  cases hchosen : (ldss.settled .start).choose .start with
  | none => exact hsettled
  | some i =>
    have hhead := (choose_eq_some_iff _ _ i).mp hchosen
    dsimp only
    have hstarted : ∀ triggered, ListsKept (ldss.settled .start)
        ((ldss.settled .start).startGen i triggered) := fun triggered =>
      ListsKept.of_rank_eq hsettled.distinct (rank_startGen _ i triggered)
    have hsame : ∀ side j, ldss.eligible side j → (ldss.settled .start).eligible side j := by
      intro side j he
      rw [(adjusted_settled ldss .start).eligible]
      exact he
    split_ifs with hsent
    · have hadjust := listsKept_adjust (hstarted true).distinct (hleaves i hhead hsent)
      refine hsettled.trans ((hstarted true).trans hadjust fun side j _ he => ?_)
        fun side j he _ => hsame side j he
      rw [Ldss.adjustDynamicStartPriorities, Ldss.adjustDynamicPriorities,
        (adjusted_withRank _ _ _).eligible] at he
      exact he
    · exact hsettled.trans (hstarted command.triggered) fun side j he _ => hsame side j he

/-- A stop command and its adjustment keep them. -/
theorem listsKept_stopAdjust (hleaves : (ldss.stopGen i triggered).Leaves .stop i) :
    ListsKept ldss ((ldss.stopGen i triggered).adjustDynamicStopPriorities i) := by
  have hstopped : ListsKept ldss (ldss.stopGen i triggered) :=
    ListsKept.of_rank_eq hdistinct (rank_stopGen ldss i triggered)
  refine hstopped.trans (listsKept_adjust hstopped.distinct hleaves) fun side j _ he => ?_
  rw [Ldss.adjustDynamicStopPriorities, Ldss.adjustDynamicPriorities,
    (adjusted_withRank _ _ _).eligible] at he
  exact he

/-- So a stop does. -/
theorem listsKept_stopGenerator (h : KeepsLists ldss (.stopGenerator triggered)) :
    ListsKept ldss (ldss.stopGenerator triggered) := by
  obtain ⟨hsettles, hleaves⟩ := h
  have hsettled := listsKept_settled hsettles hdistinct
  unfold Ldss.stopGenerator Ldss.getGenToStop Ldss.getGen
  cases hchosen : (ldss.settled .stop).choose .stop with
  | none => exact hsettled
  | some i =>
    have hhead := (choose_eq_some_iff _ _ i).mp hchosen
    dsimp only
    have hsame : ∀ side j, ldss.eligible side j → (ldss.settled .stop).eligible side j := by
      intro side j he
      rw [(adjusted_settled ldss .stop).eligible]
      exact he
    cases hmode : ((ldss.settled .stop).generators i).status.gridMode with
    | following =>
      refine hsettled.trans (ListsKept.of_rank_eq hsettled.distinct ?_)
        fun side j he _ => hsame side j he
      exact rank_modify _ i (fun gen => {gen with isStopping := true}) (fun _ => rfl)
    | forming =>
      exact hsettled.trans (listsKept_stopAdjust hsettled.distinct (hleaves i hhead hmode))
        fun side j he _ => hsame side j he
    | undefined => exact hsettled

/-- So does the power calculation with its stops. -/
theorem listsKept_calculateGenPower {rampedDown triggered : Fin n → Bool}
    (h : KeepsLists ldss (.calculateGenPower rampedDown triggered)) :
    ListsKept ldss (ldss.calculateGenPower rampedDown triggered) := by
  change RampsDown rampedDown triggered (List.finRange n) ldss at h
  unfold Ldss.calculateGenPower
  have hfold : ∀ (gens : List (Fin n)) (start : Ldss n),
      (∀ side, Distinct (start.rank side)) → RampsDown rampedDown triggered gens start →
      ListsKept start (gens.foldl (Ldss.rampDown rampedDown triggered) start) ∧
      ∀ side j, (gens.foldl (Ldss.rampDown rampedDown triggered) start).eligible side j →
        start.eligible side j := by
    intro gens
    induction gens with
    | nil => exact fun start hstart _ =>
        ⟨ListsKept.of_rank_eq hstart fun _ => rfl, fun _ _ he => he⟩
    | cons i rest ih =>
      intro start hstart hramps
      obtain ⟨hfirst, hrest⟩ := hramps
      have hone : ListsKept start (start.rampDown rampedDown triggered i) ∧
          ∀ side j, (start.rampDown rampedDown triggered i).eligible side j →
            start.eligible side j := by
        unfold Ldss.rampDown
        split_ifs with hready
        · refine ⟨listsKept_stopAdjust hstart (hfirst hready), fun side j he => ?_⟩
          rw [Ldss.adjustDynamicStopPriorities, Ldss.adjustDynamicPriorities,
            (adjusted_withRank _ _ _).eligible] at he
          exact eligible_of_stopGen he
        · exact ⟨ListsKept.of_rank_eq hstart fun _ => rfl, fun _ _ he => he⟩
      obtain ⟨hkept, hlater⟩ := ih _ hone.1.distinct hrest
      exact ⟨hone.1.trans hkept fun side j _ he => hlater side j he,
        fun side j he => hone.2 side j (hlater side j he)⟩
  exact (hfold _ ldss hdistinct h).1

end

/-- The largest priority is at least zero and every priority it ranges over. -/
theorem le_maxPriority (rank : Fin n → ℤ) (gens : List (Fin n)) :
    0 ≤ maxPriority rank gens ∧ ∀ i ∈ gens, rank i ≤ maxPriority rank gens := by
  have hfold : ∀ (gens : List (Fin n)) (start : ℤ),
      start ≤ gens.foldl (fun priority i => max priority (rank i)) start ∧
      ∀ i ∈ gens, rank i ≤ gens.foldl (fun priority i => max priority (rank i)) start := by
    intro gens
    induction gens with
    | nil => exact fun start => ⟨le_refl start, by simp⟩
    | cons i rest ih =>
      intro start
      obtain ⟨hstart, hrest⟩ := ih (max start (rank i))
      refine ⟨(le_max_left _ _).trans hstart, fun j hj => ?_⟩
      rcases List.mem_cons.mp hj with rfl | hj
      · exact (le_max_right _ _).trans hstart
      · exact hrest j hj
  exact hfold gens 0

/-- Moving a generator behind all others keeps the lists. -/
theorem listsKept_toBack {place : ℤ} (hdistinct : ∀ side, Distinct (ldss.rank side))
    (hpos : 0 < place) (hback : ∀ j, j ≠ i → ldss.rank side j < place) :
    ListsKept ldss (ldss.withRank side (Function.update (ldss.rank side) i place)) := by
  refine (adjusted_withRank ldss side _).listsKept hdistinct ?_ ?_
  · rw [rank_withRank]
    exact distinct_toBack (hdistinct side) hback
  · rw [rank_withRank]
    exact keeps_toBack _ _ i hpos

/-- A change that makes one generator no more eligible makes none so. -/
theorem eligible_modify {f : Generator → Generator}
    (h : ∀ side, (ldss.generators i).Eligible side → (f (ldss.generators i)).Eligible side)
    (side : Side) (j : Fin n) (he : ldss.eligible side j) : (ldss.modify i f).eligible side j := by
  unfold Ldss.eligible
  by_cases hj : j = i
  · subst hj
    rw [generators_modify_self]
    exact h side he
  · rw [generators_modify_other _ _ hj]
    exact he

/-- A generator that finishes its cooldown or warmup was not eligible before. -/
theorem listsKept_updateTimers (i : Fin n) (hdistinct : ∀ side, Distinct (ldss.rank side)) :
    ListsKept ldss (ldss.updateTimers i) ∧
      ∀ side j, ldss.eligible side j → (ldss.updateTimers i).eligible side j := by
  have hmodify : ∀ f : Generator → Generator,
      (∀ gen, (f gen).dynamicPriority = gen.dynamicPriority) →
      (∀ side, (ldss.generators i).Eligible side → (f (ldss.generators i)).Eligible side) →
      ListsKept ldss (ldss.modify i f) ∧
        ∀ side j, ldss.eligible side j → (ldss.modify i f).eligible side j :=
    fun f hf he => ⟨ListsKept.of_rank_eq hdistinct (rank_modify ldss i f hf), eligible_modify he⟩
  have hback : ∀ (f : Generator → Generator) (side : Side) (place : ℤ),
      (∀ gen, (f gen).dynamicPriority = gen.dynamicPriority) →
      (∀ side, (ldss.generators i).Eligible side → (f (ldss.generators i)).Eligible side) →
      0 < place → (∀ j, j ≠ i → (ldss.modify i f).rank side j < place) →
      ListsKept ldss ((ldss.modify i f).withRank side
        (Function.update ((ldss.modify i f).rank side) i place)) ∧
      ∀ other j, ldss.eligible other j → ((ldss.modify i f).withRank side
        (Function.update ((ldss.modify i f).rank side) i place)).eligible other j := by
    intro f side place hf he hpos hbehind
    obtain ⟨hkept, hlater⟩ := hmodify f hf he
    refine ⟨hkept.trans (listsKept_toBack hkept.distinct hpos hbehind)
      fun other j ha _ => hlater other j ha, fun other j ha => ?_⟩
    rw [(adjusted_withRank _ _ _).eligible]
    exact hlater other j ha
  unfold Ldss.updateTimers
  dsimp only
  split_ifs with hstopped htimer hcooling hrunning hwarmup hwarming
  · refine hmodify (fun gen => {gen with cooldownCountdown := gen.cooldownCountdown - 1})
      (fun _ => rfl) fun side he => ?_
    exact (eligible_congr rfl side).mpr he
  · have hmax := le_maxPriority ((ldss.modify i Generator.cooledDown).rank .start)
      ((List.finRange n).filter (· ≠ i))
    refine hback Generator.cooledDown .start _ (fun _ => rfl) (fun side he => ?_) (by omega) fun j hj => ?_
    · cases side with
      | start => exact absurd (hcooling.symm.trans he.2.2.2.2) (by decide)
      | stop => exact absurd (hstopped.symm.trans he.2.2.1) (by decide)
    · have hle := hmax.2 j (List.mem_filter.mpr ⟨List.mem_finRange j, decide_eq_true hj⟩)
      exact Int.lt_add_one_of_le hle
  · exact ⟨ListsKept.of_rank_eq hdistinct fun _ => rfl, fun _ _ he => he⟩
  · refine hmodify (fun gen => {gen with warmupCountdown := gen.warmupCountdown - 1})
      (fun _ => rfl) fun side he => ?_
    exact (eligible_congr rfl side).mpr he
  · have hmax := le_maxPriority ((ldss.modify i Generator.warmedUp).rank .stop)
      (List.finRange n)
    refine hback Generator.warmedUp .stop _ (fun _ => rfl) (fun side he => ?_) (by omega) fun j _ => ?_
    · cases side with
      | start => exact absurd (hrunning.symm.trans he.2.2.1) (by decide)
      | stop => exact absurd (hwarming.symm.trans he.2.2.2.1) (by decide)
    · exact Int.lt_add_one_of_le (hmax.2 j (List.mem_finRange j))
  · exact ⟨ListsKept.of_rank_eq hdistinct fun _ => rfl, fun _ _ he => he⟩
  · exact ⟨ListsKept.of_rank_eq hdistinct fun _ => rfl, fun _ _ he => he⟩

section

variable (hdistinct : ∀ side, Distinct (ldss.rank side))
include hdistinct

/-- The timers keep the lists. -/
theorem listsKept_updateCooldownAndWarmup : ListsKept ldss ldss.updateCooldownAndWarmup := by
  unfold Ldss.updateCooldownAndWarmup
  generalize List.finRange n = gens
  induction gens generalizing ldss with
  | nil => exact ListsKept.of_rank_eq hdistinct fun _ => rfl
  | cons i rest ih =>
    obtain ⟨hone, hlater⟩ := listsKept_updateTimers i hdistinct
    exact hone.trans (ih hone.distinct) fun side j he _ => hlater side j he

/-- Moving a generator to the front keeps them if it was on the list. -/
theorem listsKept_moveGenToFront (h : ∀ j, j ≠ i → ldss.rank side j = 1 → 0 < ldss.rank side i) :
    ListsKept ldss (ldss.moveGenToFront side i) := by
  have hrank : ∀ other, (ldss.moveGenToFront side i).rank other =
      (ldss.withRank side (toFront (ldss.rank side) i)).rank other := fun _ => rfl
  refine @Adjusted.listsKept n side _ _ ⟨rfl, fun _ => rfl, fun other ho => ?_⟩ hdistinct ?_ ?_
  · rw [hrank, rank_withRank_other _ _ ho]
  · rw [hrank, rank_withRank]
    exact (distinct_toFront_iff (hdistinct side) i).mpr h
  · rw [hrank, rank_withRank]
    exact keeps_toFront _ _ i

/-- The summary keeps the lists that settle. -/
theorem listsKept_summary (h : KeepsLists ldss .summary) : ListsKept ldss (ldss.step .summary) := by
  have hstart := listsKept_settled h.1 hdistinct
  refine hstart.trans (listsKept_settled h.2 hstart.distinct) fun side j he _ => ?_
  rw [(adjusted_settled ldss .start).eligible]
  exact he

/-- An event with what it needs keeps the lists. -/
theorem listsKept_step {event : Event n} (h : KeepsLists ldss event) :
    ListsKept ldss (ldss.step event) := by
  cases event with
  | processAssets status => exact ListsKept.of_rank_eq hdistinct fun _ => rfl
  | updateSettings prioritySetting warmupTime cooldownTime =>
    exact ListsKept.of_rank_eq hdistinct fun _ => rfl
  | startGenerator command => exact listsKept_startGenerator hdistinct h
  | stopGenerator triggered => exact listsKept_stopGenerator hdistinct h
  | updateCooldownAndWarmup => exact listsKept_updateCooldownAndWarmup hdistinct
  | calculateGenPower rampedDown triggered => exact listsKept_calculateGenPower hdistinct h
  | updateAssets faulted triggered =>
    refine ListsKept.of_rank_eq hdistinct fun side => ?_
    funext i
    exact congrFun (dynamicPriority_updateAsset _ _ _ _) side
  | start i triggered => exact ListsKept.of_rank_eq hdistinct (rank_startGen ldss i triggered)
  | stop i triggered => exact ListsKept.of_rank_eq hdistinct (rank_stopGen ldss i triggered)
  | next side i =>
    cases side with
    | start | stop => exact listsKept_moveGenToFront hdistinct h
  | summary => exact listsKept_summary hdistinct h

end

/-! ## Runs -/

/-- One event as a step that cannot fail. -/
def ldssStep (ldss : Ldss n) (event : Event n) : Except Empty (Ldss n) := .ok (ldss.step event)

/-- Distinct configured priorities give distinct places. -/
theorem distinct_configured {priorities : List ℤ} {status : Fin n → Status}
    {prioritySetting : PrioritySetting} {warmupTime cooldownTime : ℤ}
    (hconfigured : configurePriorities priorities status prioritySetting warmupTime cooldownTime =
      some ldss) (hnodup : priorities.Nodup) (side : Side) : Distinct (ldss.rank side) := by
  unfold configurePriorities at hconfigured
  split_ifs at hconfigured with haccepted
  cases hconfigured
  unfold acceptedPriorities at haccepted
  rw [Bool.and_eq_true, decide_eq_true_eq] at haccepted
  intro i j hij hpos heq
  cases side with
  | stop => exact absurd hpos (lt_irrefl 0)
  | start =>
    have hi : (i : ℕ) < priorities.length := haccepted.1 ▸ i.isLt
    have hj : (j : ℕ) < priorities.length := haccepted.1 ▸ j.isLt
    have hget : priorities.getD i 0 = priorities.getD j 0 := heq
    rw [List.getD_eq_getElem _ _ hi, List.getD_eq_getElem _ _ hj] at hget
    exact hij (Fin.ext ((List.Nodup.getElem_inj_iff hnodup).mp hget))

/-- From distinct configured priorities, a run whose events have what they need
keeps the places of both lists distinct and every generator that should stay on
a list in its place. -/
theorem guarded_listsKept (priorities : List ℤ) (status : Fin n → Status)
    (prioritySetting : PrioritySetting) (warmupTime cooldownTime : ℤ) (ldss : Ldss n)
    (hconfigured : configurePriorities priorities status prioritySetting warmupTime cooldownTime =
      some ldss) (hnodup : priorities.Nodup) (events : List (Event n))
    (hkeeps : Guarded ldssStep KeepsLists ldss events) :
    (∀ side, Distinct (ldss.rank side)) ∧
      Guarded ldssStep (fun ldss event => ListsKept ldss (ldss.step event)) ldss events := by
  have hdistinct := distinct_configured hconfigured hnodup
  refine ⟨hdistinct, ?_⟩
  clear hconfigured
  induction events generalizing ldss with
  | nil => trivial
  | cons event rest ih =>
    have hstep := listsKept_step hdistinct hkeeps.1
    refine ⟨hstep, fun next hnext => ih next (hkeeps.2 next hnext) ?_⟩
    cases hnext
    exact hstep.distinct

end

/-! ## A generator started by other means -/

/-- A stopped generator that can be started. -/
def stoppedStatus : Status := ⟨true, false, true, false, .forming⟩

/-- A running generator. -/
def runningStatus : Status := ⟨true, true, false, false, .forming⟩

/-- Two generators in the order of their priorities. -/
def twoGenerators (status : Fin 2 → Status) : Ldss 2 where
  generators i := Generator.configured 2 (status i) (([1, 2] : List ℤ).getD i 0)
  prioritySetting := .dynamic
  warmupTime := 60
  cooldownTime := 60

theorem guarded_listsKept_twoGenerators :
    (∀ side, Distinct ((twoGenerators fun _ => stoppedStatus).rank side)) ∧
    Guarded ldssStep (fun ldss event => ListsKept ldss (ldss.step event))
      (twoGenerators fun _ => stoppedStatus) [.startGenerator ⟨true, true⟩] := by
  refine guarded_listsKept [1, 2] (fun _ => stoppedStatus) .dynamic 60 60
    (twoGenerators fun _ => stoppedStatus) rfl (by decide) [.startGenerator ⟨true, true⟩]
    ⟨⟨?_, fun i hhead _ => ?_⟩, fun _ _ => trivial⟩
  · change Clear _ _ _
    unfold Clear
    decide
  · have hchosen := (choose_eq_some_iff _ _ i).mpr hhead
    obtain rfl : i = 0 := Option.some_inj.mp (hchosen.symm.trans (by decide))
    exact ⟨by decide, by decide, by decide⟩

/-- The second generator is started by hand. The next summary takes it off the
list, and with it the first one, which is stopped and available. -/
theorem twoGenerators_not_listsKept :
    configurePriorities [1, 2] ![stoppedStatus, runningStatus] .dynamic 60 60 =
      some (twoGenerators ![stoppedStatus, runningStatus]) ∧
    ¬ Guarded ldssStep (fun ldss event => ListsKept ldss (ldss.step event))
      (twoGenerators ![stoppedStatus, runningStatus]) [.summary] := by
  refine ⟨rfl, fun h => ?_⟩
  have hkept := h.1.kept .start 0 (by decide) (by decide)
  exact absurd hkept (by decide)

end HybridOs.SiteLdss
