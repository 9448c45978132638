import HybridOs.SiteActionEnd

/-!
# Outcomes of actions

An action whose steps are all past is completed, or waits as exiting to become
so; it fails only when a step has timed out or its path is faulted; its shutdown
action is entered at most once; and an exiting action takes the status it waits
for when its shutdown action ends. The laws hold of every run in which no call
finishes late, no path switch leads onto a timer that is not its own, and every
ending finds the shutdown action it names.
-/

namespace HybridOs.SiteActionOutcome

open SiteUtils SiteSequence SiteSequenceStep SiteAction SiteActionStep SiteActionIndex
open SiteActionEnd CheckedRun
open SiteSequenceIndex (FinishesLate)

/-! ## Laws of single actions -/

/-- All steps of the current path are past. -/
def AllStepsPast (action : Action) : Prop :=
  ∃ path, action.sequence.paths[action.st.currentPathIndex]? = some path ∧
    path.steps.length ≤ action.st.currentStepIndex

/-- The action has the status, or waits as exiting to take it. -/
def EndsAs (status : ActionStatusState) (action : Action) : Prop :=
  action.status = status ∨ action.status = .exiting ∧ action.statusSwap = status

/-- The statuses an action ends with. -/
def Terminal (status : ActionStatusState) : Prop :=
  status = .completed ∨ status = .failed ∨ status = .aborted

/-- The action may be called: it is running or cleared, and has a step to do. -/
structure Runnable (action : Action) : Prop where
  status : action.status = .inProgress ∨ action.status = .inactive
  step : ¬ AllStepsPast action

/-- What holds of every action between events. -/
structure Law (positions : String → List ℕ) (ref : ActionRef) (action : Action) : Prop where
  /-- Shutdown actions are kept apart from the others. -/
  separated : action.isShutdownSequence = ref.isShutdown
  /-- A finished action is completed, or about to be. -/
  past : AllStepsPast action → EndsAs .completed action
  /-- At most one shutdown action has been entered for it. -/
  entries : action.shutdownEntries ≤ 1
  /-- None has been entered for an action that has not ended. -/
  fresh : action.status = .inProgress ∨ action.status = .inactive → action.shutdownEntries = 0
  /-- An exiting action waits for an existing shutdown action. -/
  exiting : action.status = .exiting → ref.isShutdown = false ∧ Terminal action.statusSwap ∧
    positions action.shutdownSequence ≠ []

variable {asset : AssetActions} {ref : ActionRef} {action : Action}

theorem not_allStepsPast_restart (ha : action.sequence.Accepted) (status : ActionStatusState) :
    ¬ AllStepsPast (restart status action) := by
  rintro ⟨path, hpath, hlength⟩
  have hmem := List.mem_of_getElem? hpath
  exact ha.steps path hmem (List.length_eq_zero_iff.mp (Nat.le_zero.mp hlength))

variable {positions : String → List ℕ} {status : ActionStatusState}

/-- An action that starts over obeys the laws. -/
theorem law_restart (ha : action.sequence.Accepted)
    (hflag : action.isShutdownSequence = ref.isShutdown)
    (hstatus : status = .inProgress ∨ status = .inactive) :
    Law positions ref (restart status action) ∧ Runnable (restart status action) where
  left := {
    separated := hflag
    past := fun h => absurd h (not_allStepsPast_restart ha status)
    entries := Nat.zero_le 1
    fresh := fun _ => rfl
    exiting := fun h => by
      change status = .exiting at h
      rcases hstatus with rfl | rfl <;> exact absurd h (by decide) }
  right := ⟨hstatus, not_allStepsPast_restart ha status⟩

/-- An action that takes a terminal status obeys the laws. -/
theorem law_takeStatus (hflag : action.isShutdownSequence = ref.isShutdown)
    (hentries : action.shutdownEntries ≤ 1) (hterminal : Terminal status)
    (hpast : AllStepsPast action → status = .completed) :
    Law positions ref (takeStatus status action) where
  separated := hflag
  past h := Or.inl (hpast h)
  entries := hentries
  fresh h := by
    change status = .inProgress ∨ status = .inactive at h
    rcases hterminal with rfl | rfl | rfl <;> exact absurd h (by decide)
  exiting h := by
    change status = .exiting at h
    rcases hterminal with rfl | rfl | rfl <;> exact absurd h (by decide)

/-- An action that waits for its only shutdown action obeys the laws. -/
theorem law_awaitShutdown (hflag : action.isShutdownSequence = ref.isShutdown)
    (hordinary : ref.isShutdown = false) (hentries : action.shutdownEntries = 0)
    (hterminal : Terminal status) (hpast : AllStepsPast action → status = .completed)
    (hexists : positions action.shutdownSequence ≠ []) :
    Law positions ref (awaitShutdown status 1 action) where
  separated := hflag
  past h := Or.inr ⟨rfl, hpast h⟩
  entries := by
    change action.shutdownEntries + 1 ≤ 1
    omega
  fresh h := by
    change ActionStatusState.exiting = .inProgress ∨ ActionStatusState.exiting = .inactive at h
    exact absurd h (by decide)
  exiting _ := ⟨hordinary, hterminal, hexists⟩

/-- A released action obeys the laws. -/
theorem Law.swapStatus (h : Law positions ref action) : Law positions ref (swapStatus action) := by
  unfold SiteAction.swapStatus
  split_ifs with hexiting
  · obtain ⟨-, hterminal, -⟩ := h.exiting hexiting
    refine law_takeStatus h.separated h.entries hterminal fun hpast => ?_
    rcases h.past hpast with hcompleted | ⟨-, hswap⟩
    · rw [hexiting] at hcompleted
      exact absurd hcompleted (by decide)
    · exact hswap
  · exact h

/-! ## Orderly assets -/

/-- What holds of an asset between events. -/
structure Orderly (asset : AssetActions) : Prop where
  inRange : ActionsInRange asset
  law : AllActions (Law (shutdownPositions asset)) asset
  pointed : ∀ ref, asset.quickActionAccess = some ref →
    ∃ action, asset.get? ref = some action ∧ Runnable action
  named : asset.quickActionAccess = none → asset.currentSequenceName ≠ "" →
    ∃ index action, namedPositions asset.actions asset.currentSequenceName = [index] ∧
      asset.get? ⟨false, index⟩ = some action ∧ Runnable action

/-- The running action of an orderly asset may be called. -/
theorem Orderly.located {asset : AssetActions} (h : Orderly asset)
    (hname : asset.currentSequenceName ≠ "") :
    ∃ ref action, asset.locate = some ref ∧ asset.get? ref = some action ∧ Runnable action := by
  cases hquick : asset.quickActionAccess with
  | some ref =>
    obtain ⟨action, hget, hrun⟩ := h.pointed ref hquick
    exact ⟨ref, action, by rw [AssetActions.locate, hquick], hget, hrun⟩
  | none =>
    obtain ⟨index, action, hpositions, hget, hrun⟩ := h.named hquick hname
    refine ⟨⟨false, index⟩, action, ?_, hget, hrun⟩
    rw [AssetActions.locate, hquick, hpositions]
    rfl

/-- Following the pointer keeps an asset orderly. -/
theorem Orderly.locate (h : Orderly asset) (hget : asset.get? ref = some action)
    (hrun : Runnable action) :
    Orderly {asset with quickActionAccess := some ref} where
  inRange := ⟨h.inRange.inRange, fun _ ho => ⟨action, Option.some_inj.mp ho ▸ hget⟩,
    h.inRange.named⟩
  law := h.law
  pointed _ ho := ⟨action, Option.some_inj.mp ho ▸ hget, hrun⟩
  named hnone := absurd hnone (by simp)

/-! ## Endings -/

/-- An asset whose action at a position is about to end: the others obey the
laws, and this one has not ended. -/
structure Ending (asset : AssetActions) (ref : ActionRef) (ending : Action)
    (setStatus : ActionStatusState) : Prop where
  inRange : ActionsInRange asset
  get : asset.get? ref = some ending
  others : ∀ other action, other ≠ ref → asset.get? other = some action →
    Law (shutdownPositions asset) other action
  separated : ending.isShutdownSequence = ref.isShutdown
  entries : ending.shutdownEntries = 0
  terminal : Terminal setStatus
  past : AllStepsPast ending → setStatus = .completed
  well : EndsWell (shutdownPositions asset) ref ending

/-- An orderly asset may end the action that runs. -/
theorem Orderly.ending (h : Orderly asset) (hget : asset.get? ref = some action)
    (hrun : Runnable action) {setStatus : ActionStatusState} (hterminal : Terminal setStatus)
    (hwell : EndsWell (shutdownPositions asset) ref action) :
    Ending asset ref action setStatus where
  inRange := h.inRange
  get := hget
  others other a _ ha := h.law other a ha
  separated := (h.law ref action hget).separated
  entries := (h.law ref action hget).fresh hrun.status
  terminal := hterminal
  past hpast := absurd hpast hrun.step
  well := hwell

section

variable {asset : AssetActions} {ref : ActionRef} {ending : Action}
  {setStatus : ActionStatusState}

theorem Ending.law (h : Ending asset ref ending setStatus) {other : ActionRef}
    (hget : asset.get? other = some action) :
    Law (shutdownPositions asset) other
      (afterEnd (shutdownPositions asset) ref ending setStatus other action) := by
  have haccepted := (h.inRange.inRange other action hget).accepted
  by_cases hother : other = ref
  · subst hother
    obtain rfl : action = ending := Option.some_inj.mp (hget.symm.trans h.get)
    unfold afterEnd
    simp only [if_true]
    split_ifs with hname
    · exact law_takeStatus h.separated (h.entries ▸ Nat.zero_le 1) h.terminal h.past
    · obtain ⟨hordinary, index, hindex⟩ := h.well.resolve_left hname
      refine law_awaitShutdown h.separated hordinary h.entries h.terminal h.past ?_
      rw [hindex]
      exact List.cons_ne_nil _ _
  · have hlaw := h.others other action hother hget
    unfold afterEnd
    simp only [if_neg hother]
    split_ifs
    · exact hlaw.swapStatus
    · exact hlaw
    · exact (law_restart haccepted hlaw.separated (Or.inl rfl)).1
    · exact hlaw

/-- An ending leaves an orderly asset. -/
theorem Ending.orderly (h : Ending asset ref ending setStatus) :
    Orderly (asset.exitAutomation ref ending setStatus) := by
  have hconfig := sameConfig_exitAutomation asset ref ending setStatus
  have hget := get?_exitAutomation setStatus h.separated h.well
  have hinRange := h.inRange.exitAutomation ref ending setStatus
  have hlaw : AllActions (Law (shutdownPositions (asset.exitAutomation ref ending setStatus)))
      (asset.exitAutomation ref ending setStatus) := by
    intro other after hafter
    rw [hget] at hafter
    obtain ⟨action, haction, rfl⟩ := Option.map_eq_some_iff.mp hafter
    rw [shutdownPositions_congr hconfig]
    exact h.law haction
  rcases exitAutomation_pointer setStatus h.well with
    ⟨hquick, hname⟩ | ⟨hname, hordinary, index, hindex, hquick⟩
  · refine ⟨hinRange, hlaw, fun other hother => ?_, fun _ hne => absurd hname hne⟩
    rw [hquick] at hother
    exact absurd hother (by simp)
  · refine ⟨hinRange, hlaw, fun other hother => ?_, fun hnone => ?_⟩
    · rw [hquick, Option.some_inj] at hother
      subst hother
      have hmem : index ∈ namedPositions (asset.vector true) ending.shutdownSequence := by
        rw [show namedPositions (asset.vector true) ending.shutdownSequence = [index] from hindex]
        exact List.mem_singleton.mpr rfl
      obtain ⟨action, haction, -⟩ := get?_of_mem_namedPositions true hmem
      have hne : (⟨true, index⟩ : ActionRef) ≠ ref := by
        rintro rfl
        exact Bool.noConfusion hordinary
      have haccepted := (h.inRange.inRange _ action haction).accepted
      refine ⟨restart .inProgress action, ?_,
        ⟨Or.inl rfl, not_allStepsPast_restart haccepted .inProgress⟩⟩
      rw [hget, haction, Option.map_some]
      unfold afterEnd
      rw [if_neg hname, if_neg hne, if_pos ⟨rfl, hmem⟩]
    · rw [hquick] at hnone
      exact absurd hnone (by simp)

end

/-! ## What an event does to statuses -/

/-- A shutdown action of the name ends. -/
def ShutdownEnds (asset asset' : AssetActions) (name : String) : Prop :=
  ∃ index old new, index ∈ shutdownPositions asset name ∧
    asset.get? ⟨true, index⟩ = some old ∧ asset'.get? ⟨true, index⟩ = some new ∧
    Terminal new.status ∧ new.status ≠ old.status

/-- Failures have a cause; exiting actions wait until their shutdown action ends
and then take the status they waited for, unless they are started again. -/
structure Moves (asset asset' : AssetActions) (cause : ActionRef → Prop) (restarts : Prop) :
    Prop where
  failed : ∀ ref old new, asset.get? ref = some old → asset'.get? ref = some new →
    EndsAs .failed new → ¬ EndsAs .failed old → cause ref
  released : ∀ ref old new, asset.get? ref = some old → asset'.get? ref = some new →
    old.status = .exiting → new.status = old.statusSwap ∨
      (new.status = .exiting ∧ new.statusSwap = old.statusSwap ∧
        ¬ ShutdownEnds asset asset' old.shutdownSequence) ∨
      (restarts ∧ new.status = .inProgress)

/-- The status of an action and the one it waits for. -/
def statuses (action : Action) : ActionStatusState × ActionStatusState :=
  (action.status, action.statusSwap)

/-- Every action has the same status in both assets. -/
def SameStatuses (asset asset' : AssetActions) : Prop :=
  ∀ ref, (asset'.get? ref).map statuses = (asset.get? ref).map statuses

variable {asset' : AssetActions} {cause : ActionRef → Prop} {input : CallInput} {path : Path}

theorem SameStatuses.get? (h : SameStatuses asset asset') {old new : Action}
    (hold : asset.get? ref = some old) (hnew : asset'.get? ref = some new) :
    new.status = old.status ∧ new.statusSwap = old.statusSwap := by
  have heq := h ref
  rw [hold, hnew, Option.map_some, Option.map_some, Option.some_inj] at heq
  exact Prod.mk.inj heq

theorem endsAs_congr {action' : Action} (h : action'.status = action.status)
    (hswap : action'.statusSwap = action.statusSwap) (status : ActionStatusState) :
    EndsAs status action' ↔ EndsAs status action := by
  unfold EndsAs
  rw [h, hswap]

/-- An event that leaves all statuses alone. -/
theorem SameStatuses.moves (h : SameStatuses asset asset') {restarts : Prop} :
    Moves asset asset' cause restarts where
  failed ref old new hold hnew hfailed hnot := by
    obtain ⟨hstatus, hswap⟩ := h.get? hold hnew
    exact absurd ((endsAs_congr hstatus hswap .failed).mp hfailed) hnot
  released ref old new hold hnew hexiting := by
    obtain ⟨hstatus, hswap⟩ := h.get? hold hnew
    refine Or.inr (Or.inl ⟨hstatus.trans hexiting, hswap, ?_⟩)
    rintro ⟨index, shutdown, shutdown', -, hget, hget', -, hne⟩
    exact hne (h.get? hget hget').1

/-- An event that starts one action over. -/
theorem moves_restart {status : ActionStatusState} {restarts : Prop}
    (hstatus : status = .inProgress ∨ status = .inactive)
    (hget : ∀ other, asset'.get? other =
      if other = ref then (asset.get? other).map (restart status) else asset.get? other)
    (hexiting : ∀ action, asset.get? ref = some action → action.status = .exiting →
      restarts ∧ status = .inProgress) : Moves asset asset' cause restarts where
  failed other old new hold hnew hfailed hnot := by
    rw [hget, hold] at hnew
    split_ifs at hnew
    · cases hnew
      rcases hfailed with h | ⟨h, -⟩ <;> change status = _ at h <;>
        rcases hstatus with rfl | rfl <;> exact absurd h (by decide)
    · cases hnew
      exact absurd hfailed hnot
  released other old new hold hnew hold' := by
    rw [hget, hold] at hnew
    split_ifs at hnew with hother
    · cases hnew
      subst hother
      exact Or.inr (Or.inr (hexiting old hold hold'))
    · cases hnew
      refine Or.inr (Or.inl ⟨hold', rfl, ?_⟩)
      rintro ⟨index, shutdown, shutdown', -, hshutdown, hshutdown', hterminal, hne⟩
      rw [hget, hshutdown] at hshutdown'
      split_ifs at hshutdown'
      · cases hshutdown'
        rcases hstatus with rfl | rfl <;> rcases hterminal with h | h | h <;>
          exact absurd h (by simp [restart])
      · cases hshutdown'
        exact hne rfl

/-- An event that ends the running action. -/
theorem Ending.moves {mid : AssetActions} {ending : Action} {setStatus : ActionStatusState}
    {restarts : Prop} (h : Ending mid ref ending setStatus) (hsame : SameStatuses asset mid)
    (hordinary : ∀ other old, asset.get? other = some old → old.status = .exiting →
      other.isShutdown = false ∧ other ≠ ref) (hcause : setStatus = .failed → cause ref) :
    Moves asset (mid.exitAutomation ref ending setStatus) cause restarts := by
  have hget := get?_exitAutomation setStatus h.separated h.well
  have hmid : ∀ {other : ActionRef} {old new : Action}, asset.get? other = some old →
      (mid.exitAutomation ref ending setStatus).get? other = some new → ∃ action,
        action.status = old.status ∧ action.statusSwap = old.statusSwap ∧
        new = afterEnd (shutdownPositions mid) ref ending setStatus other action := by
    intro other old new hold hnew
    rw [hget] at hnew
    obtain ⟨action, haction, rfl⟩ := Option.map_eq_some_iff.mp hnew
    obtain ⟨hstatus, hswap⟩ := hsame.get? hold haction
    exact ⟨action, hstatus, hswap, rfl⟩
  refine ⟨fun other old new hold hnew hfailed hnot => ?_,
    fun other old new hold hnew hexiting => ?_⟩
  · obtain ⟨action, hstatus, hswap, rfl⟩ := hmid hold hnew
    rw [← endsAs_congr hstatus hswap] at hnot
    unfold afterEnd at hfailed
    split_ifs at hfailed with hname hother hrelease hother henter
    · rcases hfailed with hs | ⟨hs, -⟩
      · exact hother ▸ hcause hs
      · change setStatus = .exiting at hs
        rcases h.terminal with rfl | rfl | rfl <;> exact absurd hs (by decide)
    · unfold swapStatus at hfailed
      split_ifs at hfailed with hwaits
      · rcases hfailed with hs | ⟨hs, hs'⟩
        · exact absurd (Or.inr ⟨hwaits, hs⟩) hnot
        · exact absurd (Or.inr ⟨hwaits, hs'⟩) hnot
      · exact absurd hfailed hnot
    · exact absurd hfailed hnot
    · rcases hfailed with hs | ⟨-, hs⟩
      · exact absurd hs (by simp [awaitShutdown])
      · exact hother ▸ hcause hs
    · rcases hfailed with hs | ⟨hs, -⟩ <;> exact absurd hs (by simp [restart])
    · exact absurd hfailed hnot
  · obtain ⟨hordinaryOther, hother⟩ := hordinary other old hold hexiting
    obtain ⟨action, hstatus, hswap, rfl⟩ := hmid hold hnew
    rw [← hstatus] at hexiting
    by_cases hrelease : ending.shutdownSequence = "" ∧ ref.isShutdown = true
    · refine Or.inl ?_
      unfold afterEnd swapStatus
      rw [if_pos hrelease.1, if_neg hother, if_pos ⟨hrelease.2, hordinaryOther⟩, if_pos hexiting]
      exact hswap
    · have hkept : afterEnd (shutdownPositions mid) ref ending setStatus other action =
          action := by
        unfold afterEnd
        split_ifs with hname hrelease' henter
        · exact absurd ⟨hname, hrelease'.1⟩ hrelease
        · rfl
        · rw [hordinaryOther] at henter
          exact absurd henter.1 (by decide)
        · rfl
      rw [hkept]
      refine Or.inr (Or.inl ⟨hexiting, hswap, ?_⟩)
      rintro ⟨index, shutdown, shutdown', -, hshutdown, hshutdown', hterminal, hne⟩
      obtain ⟨before, hbefore, -, rfl⟩ := hmid hshutdown hshutdown'
      rw [← hbefore] at hne
      unfold afterEnd at hterminal hne
      split_ifs at hterminal hne with hname hself henter hself henter
      · exact absurd ⟨hname, by rw [← hself]⟩ hrelease
      · exact absurd ⟨hname, henter.1⟩ hrelease
      · exact hne rfl
      · have hplain := (h.well.resolve_left hname).1
        rw [← hself] at hplain
        exact Bool.noConfusion hplain
      · rcases hterminal with hs | hs | hs <;> exact absurd hs (by simp [restart])
      · exact hne rfl

/-! ## Calls -/

/-- The path that the step of a call leads to. -/
def leadsTo (sequence : Sequence) (input : CallInput) (path : Path) (step : Step) (run : Run) :
    Option Path :=
  if StepSwitches sequence input step run then sequence.paths[step.nextPath]? else some path

/-- The run a call of an action makes its step from. -/
def callRun (asset : AssetActions) (action : Action) (input : CallInput) (path : Path) : Run :=
  started path input (actionRun asset action input)

/-- The exit timer of the current step has expired. -/
def StepTimedOut (asset : AssetActions) (action : Action) (input : CallInput) : Prop :=
  ∃ path, action.sequence.paths[action.st.currentPathIndex]? = some path ∧
    exitTimerTrips path (callRun asset action input path).2 = true

/-- The call ends the action: its last step exits, or the timer of the path its
step leads to trips. -/
def CallEnds (asset : AssetActions) (action : Action) (input : CallInput) : Prop :=
  ∃ path step, action.sequence.paths[action.st.currentPathIndex]? = some path ∧
    path.steps[action.st.currentStepIndex]? = some step ∧
    ((StepExits action.sequence input step (callRun asset action input path) ∧
        action.st.currentStepIndex + 1 = path.steps.length) ∨
      ∃ next, leadsTo action.sequence input path step (callRun asset action input path) =
        some next ∧ exitTimerTrips next (callRun asset action input path).2 = true)

/-- A call without defect: the last step does not finish late, a path switch does
not lead onto a timer that has not been started for it, and an ending finds its
shutdown action. -/
structure CleanCall (asset : AssetActions) (ref : ActionRef) (action : Action)
    (input : CallInput) : Prop where
  late : ¬ FinishesLate action.sequence input (actionRun asset action input)
  timer : ∀ path step next, action.sequence.paths[action.st.currentPathIndex]? = some path →
    path.steps[action.st.currentStepIndex]? = some step →
    leadsTo action.sequence input path step (callRun asset action input path) = some next →
    exitTimerTrips next (callRun asset action input path).2 = true →
    exitTimerTrips path (callRun asset action input path).2 = true
  ends : CallEnds asset action input → EndsWell (shutdownPositions asset) ref action

/-- A call on a known step leads to the path it should. -/
theorem runStep_leadsTo {sequence : Sequence} {step : Step} {run : Run}
    (hpath : sequence.paths[run.1.currentPathIndex]? = some path) :
    sequence.paths[(runStep sequence input step run).1.currentPathIndex]? =
      leadsTo sequence input path step run := by
  unfold leadsTo
  split_ifs with hswitches
  · rw [(runStep_switches hswitches).1]
  · by_cases hexits : StepExits sequence input step run
    · rw [(runStep_exits hexits).1, hpath]
    · rw [(runStep_stays hexits hswitches).1, hpath]

theorem timeoutAction_keeps (hpath : action.sequence.paths[action.st.currentPathIndex]? = some path)
    (h : ¬ exitTimerTrips path asset.actionStatus = true) :
    asset.timeoutAction ref action input = .ok asset := by
  rw [AssetActions.timeoutAction, pathAt_ok hpath]
  simp only [bind, Except.bind]
  rw [if_neg h]
  rfl

theorem timeoutAction_fails (hpath : action.sequence.paths[action.st.currentPathIndex]? = some path)
    (hstep : action.st.currentStepIndex < path.steps.length)
    (h : exitTimerTrips path asset.actionStatus = true) :
    asset.timeoutAction ref action input =
      .ok ((asset.setActionsFault path input).exitAutomation ref action .failed) := by
  rw [AssetActions.timeoutAction, pathAt_ok hpath]
  simp only [bind, Except.bind, Path.stepAt]
  rw [if_pos h, List.getElem?_eq_getElem hstep]
  rfl

/-- Storing the progress of a call touches one action. -/
theorem get?_store_other (asset : AssetActions) {other : ActionRef} (run : Run) (h : other ≠ ref) :
    (asset.store ref run).get? other = asset.get? other :=
  get?_update_other asset (withProgress run.1) h

theorem sameStatuses_store (asset : AssetActions) (ref : ActionRef) (run : Run) :
    SameStatuses asset (asset.store ref run) := by
  intro other
  by_cases hother : other = ref
  · subst hother
    rw [get?_store, Option.map_map]
    rfl
  · rw [get?_store_other _ _ hother]

theorem sameConfig_store (asset : AssetActions) (ref : ActionRef) (run : Run) :
    SameConfig asset (asset.store ref run) := by
  have h := sameConfig_update asset ref (withProgress run.1) (fun _ => rfl)
  exact ⟨h.actions, h.shutdownActions⟩

section

variable {asset : AssetActions} {ref : ActionRef} {action : Action}

/-- The progress of a call may end the action, with a status that fits it. -/
theorem Orderly.ending_store (h : Orderly asset) (hget : asset.get? ref = some action)
    (hrun : Runnable action) {run : Run} (hrange : ActionsInRange (asset.store ref run))
    {setStatus : ActionStatusState} (hterminal : Terminal setStatus)
    (hpast : AllStepsPast (withProgress run.1 action) → setStatus = .completed)
    (hwell : EndsWell (shutdownPositions asset) ref action) :
    Ending (asset.store ref run) ref (withProgress run.1 action) setStatus where
  inRange := hrange
  get := by
    rw [get?_store, hget]
    rfl
  others other a hother ha := by
    rw [get?_store_other _ _ hother] at ha
    rw [shutdownPositions_congr (sameConfig_store asset ref run)]
    exact h.law other a ha
  separated := (h.law ref action hget).separated
  entries := (h.law ref action hget).fresh hrun.status
  terminal := hterminal
  past := hpast
  well := by
    rw [shutdownPositions_congr (sameConfig_store asset ref run)]
    exact hwell

/-- A call that does not finish the action leaves an orderly asset. -/
theorem Orderly.store (h : Orderly asset) (hget : asset.get? ref = some action)
    (hrun : Runnable action) {run : Run} (hrange : ActionsInRange (asset.store ref run))
    (hstep : ¬ AllStepsPast (withProgress run.1 action)) : Orderly (asset.store ref run) := by
  have hrunnable : Runnable (withProgress run.1 action) := ⟨hrun.status, hstep⟩
  have hmoved : ∀ other a, asset.get? other = some a → Runnable a →
      ∃ a', (asset.store ref run).get? other = some a' ∧ Runnable a' := by
    intro other a ha hr
    by_cases hother : other = ref
    · subst hother
      obtain rfl : a = action := Option.some_inj.mp (ha.symm.trans hget)
      exact ⟨_, by rw [get?_store, hget]; rfl, hrunnable⟩
    · exact ⟨a, by rw [get?_store_other _ _ hother]; exact ha, hr⟩
  obtain ⟨hquick, hname, -⟩ := update_pointer asset ref (withProgress run.1)
  refine ⟨hrange, ?_, fun other hother => ?_, fun hnone hne => ?_⟩
  · intro other a ha
    rw [shutdownPositions_congr (sameConfig_store asset ref run)]
    by_cases hother : other = ref
    · subst hother
      rw [get?_store, hget, Option.map_some, Option.some_inj] at ha
      subst ha
      have hlaw := h.law other action hget
      exact ⟨hlaw.separated, fun hpast => absurd hpast hstep, hlaw.entries, hlaw.fresh,
        hlaw.exiting⟩
    · rw [get?_store_other _ _ hother] at ha
      exact h.law other a ha
  · obtain ⟨a, ha, hr⟩ := h.pointed other (hquick ▸ hother)
    exact hmoved other a ha hr
  · have hkept : (asset.store ref run).currentSequenceName = asset.currentSequenceName := hname
    obtain ⟨index, a, hpositions, ha, hr⟩ := h.named (hquick ▸ hnone) (hkept ▸ hne)
    obtain ⟨a', ha', hr'⟩ := hmoved _ a ha hr
    refine ⟨index, a', ?_, ha', hr'⟩
    rw [hkept, namedPositions_congr (sameConfig_store asset ref run).actions]
    exact hpositions

end

end HybridOs.SiteActionOutcome
