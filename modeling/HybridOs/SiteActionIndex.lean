import HybridOs.SiteActionStep
import HybridOs.SiteSequenceIndex

/-!
# Index safety of actions

Actions read their vectors in range as long as no call is made on an action
whose steps are already past, and no call finishes the last step late.
-/

namespace HybridOs.SiteActionIndex

open SiteUtils SiteSequence SiteSequenceStep SiteAction SiteActionStep CheckedRun
open SiteSequenceIndex (FinishesLate FinishesExpired InRange exitTimerTrips_congr)

/-- The configuration of an action is accepted, its current path exists and its
check index is at the current step or just past it. -/
structure PathInRange (action : Action) : Prop where
  accepted : action.sequence.Accepted
  path : action.st.currentPathIndex < action.sequence.paths.length
  check : CheckNext action.st

theorem statusClosed_pathInRange : StatusClosed fun _ action => PathInRange action where
  restart _ _ _ h := ⟨h.accepted, List.length_pos_of_ne_nil h.accepted.paths, Or.inl rfl⟩
  takeStatus _ _ _ h := ⟨h.accepted, h.path, h.check⟩
  awaitShutdown _ _ _ _ h := ⟨h.accepted, h.path, h.check⟩

/-- Every pointer and every name the asset follows leads to an action. -/
structure ActionsInRange (asset : AssetActions) : Prop where
  inRange : AllActions (fun _ action => PathInRange action) asset
  access : ∀ ref, asset.quickActionAccess = some ref → ∃ action, asset.get? ref = some action
  named : asset.currentSequenceName ≠ "" →
    namedPositions asset.actions asset.currentSequenceName ≠ [] ∨
    namedPositions asset.shutdownActions asset.currentSequenceName ≠ []

/-- A call that reads past the end: the steps of the action are already past, or
its last step finishes late and the action is not entered again. -/
def CallReadsPast (asset : AssetActions) (ref : ActionRef) (action : Action)
    (input : CallInput) : Prop :=
  (∃ path, action.sequence.paths[action.st.currentPathIndex]? = some path ∧
    path.steps.length ≤ action.st.currentStepIndex) ∨
  FinishesLate action.sequence input (actionRun asset action input) ∧
    ¬ EntersItself asset ref action

/-- A tick whose call reads past the end. -/
def ReadsPast (asset : AssetActions) : ActionEvent → Prop
  | .set _ _ _ => False
  | .tick input faulted inMaintMode =>
    ∃ ref action, asset.currentSequenceName ≠ "" ∧ inMaintMode = true ∧
      asset.locate = some ref ∧ asset.get? ref = some action ∧
      (faulted = true → action.isShutdownSequence = true) ∧
      CallReadsPast asset ref action input

variable {asset : AssetActions} {ref : ActionRef} {action : Action} {path : Path}

theorem get?_of_mem_namedPositions (isShutdown : Bool) {name : String} {index : ℕ}
    (h : index ∈ namedPositions (asset.vector isShutdown) name) :
    ∃ action, asset.get? ⟨isShutdown, index⟩ = some action ∧ action.sequence.sequenceName = name :=
  (mem_namedPositions _ _ _).mp h

/-- A running action is found. -/
theorem locate_isSome {asset : AssetActions} (h : ActionsInRange asset)
    (hname : asset.currentSequenceName ≠ "") :
    ∃ ref action, asset.locate = some ref ∧ asset.get? ref = some action := by
  unfold AssetActions.locate
  cases hquick : asset.quickActionAccess with
  | some ref =>
    obtain ⟨action, hget⟩ := h.access ref hquick
    exact ⟨ref, action, rfl, hget⟩
  | none =>
    cases hactions : (namedPositions asset.actions asset.currentSequenceName).getLast? with
    | some index =>
      obtain ⟨action, hget, -⟩ := get?_of_mem_namedPositions false
        (List.mem_of_getLast? hactions)
      exact ⟨_, action, rfl, hget⟩
    | none =>
      rw [List.getLast?_eq_none_iff] at hactions
      have hshutdown := (h.named hname).resolve_left (fun hne => hne hactions)
      obtain ⟨action, hget, -⟩ := get?_of_mem_namedPositions true
        (List.getLast_mem hshutdown)
      refine ⟨_, action, ?_, hget⟩
      rw [List.getLast?_eq_some_getLast hshutdown]
      rfl

/-! ## The operations keep the pointers and names -/

/-- A state of the same configuration follows its pointer and name as well. -/
theorem ActionsInRange.of_sameConfig {asset asset' : AssetActions} (h : ActionsInRange asset)
    (hconfig : SameConfig asset asset')
    (hall : AllActions (fun _ action => PathInRange action) asset')
    (hquick : ∀ ref, asset'.quickActionAccess = some ref → asset'.quickActionAccess =
      asset.quickActionAccess ∨ ∃ action, asset'.get? ref = some action)
    (hname : asset'.currentSequenceName = asset.currentSequenceName ∨
      asset'.currentSequenceName = "" ∨
      namedPositions asset'.actions asset'.currentSequenceName ≠ [] ∨
      namedPositions asset'.shutdownActions asset'.currentSequenceName ≠ []) :
    ActionsInRange asset' where
  inRange := hall
  access ref href := by
    rcases hquick ref href with hsame | hfound
    · obtain ⟨action, hget⟩ := h.access ref (hsame ▸ href)
      obtain ⟨action', hget', -⟩ := get?_isSome_of_sameConfig hconfig hget
      exact ⟨action', hget'⟩
    · exact hfound
  named hne := by
    rcases hname with hsame | hempty | hpositions
    · rw [hsame] at hne ⊢
      rw [namedPositions_congr hconfig.actions, namedPositions_congr hconfig.shutdownActions]
      exact h.named hne
    · exact absurd hempty hne
    · exact hpositions

section

variable (h : ActionsInRange asset)
include h

theorem ActionsInRange.exitAutomation (ref : ActionRef) (action : Action)
    (setStatus : ActionStatusState) :
    ActionsInRange (asset.exitAutomation ref action setStatus) := by
  have hconfig := sameConfig_exitAutomation asset ref action setStatus
  have hall := allActions_exitAutomation statusClosed_pathInRange ref action setStatus h.inRange
  by_cases hshutdown : action.shutdownSequence = ""
  · have hpointer : (asset.exitAutomation ref action setStatus).quickActionAccess = none ∧
        (asset.exitAutomation ref action setStatus).currentSequenceName = "" := by
      unfold AssetActions.exitAutomation
      rw [if_pos hshutdown]
      refine ⟨(update_pointer _ _ _).1.trans ?_, rfl⟩
      split_ifs <;> rfl
    refine h.of_sameConfig hconfig hall (fun other hother => ?_) (Or.inr (Or.inl hpointer.2))
    rw [hpointer.1] at hother
    exact absurd hother (by simp)
  · set entries := (namedPositions asset.decouple.shutdownActions action.shutdownSequence).length
    have hexit : asset.exitAutomation ref action setStatus =
        (asset.decouple.update ref (awaitShutdown setStatus entries)).enterShutdown
          action.shutdownSequence := if_neg hshutdown
    rcases enterShutdown_cases (asset.decouple.update ref (awaitShutdown setStatus entries))
      action.shutdownSequence with ⟨-, hnone⟩ | ⟨index, hindex, hname, hquick⟩
    · rw [hnone] at hexit
      refine h.of_sameConfig hconfig hall (fun other hother => ?_) (Or.inl ?_)
      · rw [hexit, (update_pointer _ _ _).1] at hother
        exact absurd hother (by simp [AssetActions.decouple])
      · rw [hexit, (update_pointer _ _ _).2.1]
        rfl
    · rw [← hexit] at hname hquick
      have hupdated : SameConfig asset
          (asset.decouple.update ref (awaitShutdown setStatus entries)) :=
        (sameConfig_decouple asset).trans
          (sameConfig_update asset.decouple ref (awaitShutdown setStatus entries) (fun _ => rfl))
      rw [namedPositions_congr hupdated.shutdownActions,
        ← namedPositions_congr hconfig.shutdownActions] at hindex
      refine h.of_sameConfig hconfig hall (fun other hother => Or.inr ?_)
        (Or.inr (Or.inr (Or.inr ?_)))
      · rw [hquick, Option.some_inj] at hother
        obtain ⟨found, hfound, -⟩ := get?_of_mem_namedPositions true hindex
        exact ⟨found, hother ▸ hfound⟩
      · rw [hname]
        exact List.ne_nil_of_mem hindex

theorem ActionsInRange.clearAction (ref : ActionRef) : ActionsInRange (asset.clearAction ref) := by
  have hconfig := sameConfig_update asset ref (restart .inactive) (fun _ => rfl)
  obtain ⟨hquick, hname, -⟩ := update_pointer asset ref (restart .inactive)
  exact h.of_sameConfig ⟨hconfig.actions, hconfig.shutdownActions⟩
    (allActions_update h.inRange fun a hget =>
      statusClosed_pathInRange.restart ref .inactive a (h.inRange _ a hget))
    (fun _ _ => Or.inl hquick) (Or.inl hname)

theorem ActionsInRange.startAction {index : ℕ} {actionId : String}
    (hmem : index ∈ namedPositions asset.actions actionId) :
    ActionsInRange (asset.startAction index actionId) := by
  have hconfig := sameConfig_startAction asset index actionId
  have hall : AllActions (fun _ action => PathInRange action)
      (asset.update ⟨false, index⟩ (restart .inProgress)) :=
    allActions_update h.inRange fun a hget =>
      statusClosed_pathInRange.restart ⟨false, index⟩ .inProgress a (h.inRange _ a hget)
  refine h.of_sameConfig hconfig hall (fun _ _ => Or.inl (update_pointer _ _ _).1)
    (Or.inr (Or.inr (Or.inl ?_)))
  rw [namedPositions_congr hconfig.actions]
  exact List.ne_nil_of_mem hmem

theorem ActionsInRange.handleActionsSet (actionId : String) (desiredAction : DesiredAction)
    (inMaintMode : Bool) :
    ActionsInRange (asset.handleActionsSet actionId desiredAction inMaintMode) := by
  have hpub : ActionsInRange asset.publish := ⟨h.inRange, h.access, h.named⟩
  unfold AssetActions.handleActionsSet
  cases hhead : (namedPositions asset.actions actionId).head? with
  | none => exact h
  | some index =>
    have hmem := List.mem_of_mem_head? hhead
    obtain ⟨action, hget, -⟩ := (mem_namedPositions _ _ _).mp hmem
    dsimp only
    rw [hget]
    cases desiredAction with
    | unsupported => exact hpub
    | clear =>
      dsimp only
      split_ifs
      · exact hpub
      · exact hpub.clearAction _
    | stop =>
      dsimp only
      split_ifs
      · exact hpub.exitAutomation _ _ _
      · exact hpub
    | start =>
      split_ifs
      · exact hpub
      · exact hpub.startAction hmem
      · exact hpub

/-! ## Calls in range -/

theorem ActionsInRange.actionCompleted {next : Path} {run : Run}
    (hget : asset.get? ref = some action)
    (hnext : action.sequence.paths[run.1.currentPathIndex]? = some next)
    (hcheck : CheckNext run.1) : ActionsInRange (actionCompleted asset ref action next run) := by
  have hconfig := sameConfig_update asset ref (withProgress run.1) (fun _ => rfl)
  obtain ⟨hquick, hname, -⟩ := update_pointer asset ref (withProgress run.1)
  have hall : AllActions (fun _ action => PathInRange action)
      (asset.update ref (withProgress run.1)) := by
    refine allActions_update h.inRange fun old hold => ?_
    obtain rfl : action = old := Option.some_inj.mp (hget.symm.trans hold)
    exact ⟨(h.inRange ref action hget).accepted, (List.getElem?_eq_some_iff.mp hnext).1, hcheck⟩
  have hstore : ActionsInRange (asset.store ref run) :=
    h.of_sameConfig ⟨hconfig.actions, hconfig.shutdownActions⟩ hall (fun _ _ => Or.inl hquick)
      (Or.inl hname)
  unfold SiteActionStep.actionCompleted AssetActions.completeAction
  split_ifs
  · exact hstore.exitAutomation ref action .completed
  · exact hstore

end

theorem exitTimerTrips_started {sequence : Sequence} {input : CallInput} {next : Path} {step : Step}
    {run : Run} {status : SequencesStatus}
    (htime : status.currentTime = (runStep sequence input step
      (started path input run)).2.currentTime)
    (htarget : status.exitTargetTime = (runStep sequence input step
      (started path input run)).2.exitTargetTime) :
    exitTimerTrips next status = exitTimerTrips next (started path input run).2 := by
  have hsame := sameCall_runStep sequence input step (started path input run)
  exact exitTimerTrips_congr next (htime.trans hsame.currentTime)
    (htarget.trans hsame.exitTargetTime)

/-- A call past the steps of the action reads past the end. -/
theorem callSequence_past (input : CallInput) (hcheck : CheckNext action.st)
    (hpath : action.sequence.paths[action.st.currentPathIndex]? = some path)
    (hpast : path.steps.length ≤ action.st.currentStepIndex) :
    asset.callSequence ref action input = .error .steps := by
  obtain ⟨hpathIndex, hstepIndex, hcheckIndex, -⟩ :=
    started_index path input (actionRun asset action input)
  have hstart : tryStepReset action.sequence input (actionRun asset action input) =
      .ok (started path input (actionRun asset action input)) := tryStepReset_eq input hpath
  have herror : callSequenceStep action.sequence input
      (started path input (actionRun asset action input)) = .error .steps :=
    callSequenceStep_past input (hpathIndex ▸ hpath) (hstepIndex ▸ hpast)
      (by rw [CheckNext, hstepIndex, hcheckIndex]; exact hcheck)
  unfold AssetActions.callSequence
  change (tryStepReset action.sequence input (actionRun asset action input) >>= _) = _
  rw [hstart]
  change (callSequenceStep action.sequence input
    (started path input (actionRun asset action input)) >>= _) = _
  rw [herror]
  rfl

/-- The timeout branch reads past the end exactly when the timer trips on a path
whose steps are past. -/
theorem timeoutAction_ok_iff (input : CallInput)
    (hpath : action.sequence.paths[action.st.currentPathIndex]? = some path) :
    (∃ after, asset.timeoutAction ref action input = .ok after) ↔
      ¬ (exitTimerTrips path asset.actionStatus = true ∧
        path.steps.length ≤ action.st.currentStepIndex) := by
  rw [AssetActions.timeoutAction, pathAt_ok hpath]
  simp only [bind, Except.bind, Path.stepAt]
  by_cases htrips : exitTimerTrips path asset.actionStatus = true
  · rw [if_pos htrips]
    by_cases hpast : path.steps.length ≤ action.st.currentStepIndex
    · rw [List.getElem?_eq_none hpast]
      simp [htrips, hpast]
    · rw [List.getElem?_eq_getElem (not_le.mp hpast)]
      exact ⟨fun _ h => hpast h.2, fun _ => ⟨_, rfl⟩⟩
  · rw [if_neg htrips]
    exact ⟨fun _ h => htrips h.1, fun _ => ⟨_, rfl⟩⟩

theorem ActionsInRange.timeoutAction {after : AssetActions} (h : ActionsInRange asset)
    {input : CallInput} (hafter : asset.timeoutAction ref action input = .ok after) :
    ActionsInRange after := by
  rw [AssetActions.timeoutAction] at hafter
  cases hpath : action.sequence.pathAt action.st.currentPathIndex with
  | error e =>
    rw [hpath] at hafter
    exact absurd hafter (by simp [bind, Except.bind])
  | ok path =>
    rw [hpath] at hafter
    simp only [bind, Except.bind] at hafter
    split_ifs at hafter
    · cases hstep : path.stepAt action.st.currentStepIndex with
      | error e =>
        rw [hstep] at hafter
        exact absurd hafter (by simp)
      | ok step =>
        rw [hstep] at hafter
        cases hafter
        have hfault : ActionsInRange (asset.setActionsFault path input) :=
          ⟨h.inRange, h.access, h.named⟩
        exact hfault.exitAutomation ref action .failed
    · cases hafter
      exact h

/-- From a state in range, a call of an action fails exactly when it reads past
the end; otherwise the next state is in range. -/
theorem callSequence_ok_iff (h : ActionsInRange asset) (input : CallInput)
    (hget : asset.get? ref = some action) :
    ((∃ after, asset.callSequence ref action input = .ok after) ↔
      ¬ CallReadsPast asset ref action input) ∧
    ∀ after, asset.callSequence ref action input = .ok after → ActionsInRange after := by
  obtain ⟨haccepted, hpathRange, hcheck⟩ := h.inRange ref action hget
  have hpath := List.getElem?_eq_getElem hpathRange
  set path := action.sequence.paths[action.st.currentPathIndex]
  by_cases hpast : path.steps.length ≤ action.st.currentStepIndex
  · have hpastCall : CallReadsPast asset ref action input := Or.inl ⟨path, hpath, hpast⟩
    rw [callSequence_past input hcheck hpath hpast]
    exact ⟨by simp [hpastCall], fun _ he => absurd he (by simp)⟩
  have hstep := List.getElem?_eq_getElem (not_le.mp hpast)
  set step := path.steps[action.st.currentStepIndex]
  obtain ⟨hpathIndex, hstepIndex, hcheckIndex, -⟩ :=
    started_index path input (actionRun asset action input)
  obtain ⟨next, hnext, hexit, hstay⟩ := runStep_next haccepted input
    (hpathIndex ▸ hpath : action.sequence.paths[(started path input
      (actionRun asset action input)).1.currentPathIndex]? = some path)
    (hstepIndex ▸ hstep : path.steps[(started path input
      (actionRun asset action input)).1.currentStepIndex]? = some step)
  have hstarted : CheckNext (started path input (actionRun asset action input)).1 := by
    rw [CheckNext, hstepIndex, hcheckIndex]
    exact hcheck
  have hcheckNext := checkNext_runStep action.sequence input step hstarted
  obtain ⟨after, hafter, hconfig, hprogress⟩ := actionCompleted_progress next
    (actionStep asset action input path step) hget
  have hsequence : after.sequence = action.sequence := congrArg Prod.fst hconfig
  have hcompleted := h.actionCompleted hget hnext hcheckNext
  rw [callSequence_known hpath hstep hnext hafter]
  refine ⟨?_, fun _ he => hcompleted.timeoutAction he⟩
  obtain ⟨htime, htarget⟩ := actionCompleted_times asset ref action next
    (actionStep asset action input path step)
  have htrips : exitTimerTrips next (actionCompleted asset ref action next
      (actionStep asset action input path step)).actionStatus =
      exitTimerTrips next (started path input (actionRun asset action input)).2 :=
    exitTimerTrips_started htime htarget
  by_cases hagain : next.steps.length ≤
      (actionStep asset action input path step).1.currentStepIndex ∧ EntersItself asset ref action
  · -- the action starts over, so the timeout names its first step
    rw [if_pos hagain] at hprogress
    have hafterRange := hcompleted.inRange ref after hafter
    have hnotPast : ¬ CallReadsPast asset ref action input := by
      rintro (⟨_, hpath', hpast'⟩ | ⟨-, hne⟩)
      · exact hpast (Option.some_inj.mp (hpath.symm.trans hpath') ▸ hpast')
      · exact hne hagain.2
    rw [timeoutAction_ok_iff input (List.getElem?_eq_getElem hafterRange.path)]
    refine ⟨fun _ => hnotPast, fun _ hlate => ?_⟩
    have hsteps := hafterRange.accepted.steps _ (List.getElem_mem hafterRange.path)
    have hzero : after.st.currentStepIndex = 0 := by rw [hprogress]; rfl
    rw [hzero, Nat.le_zero, List.length_eq_zero_iff] at hlate
    exact hsteps hlate.2
  · rw [if_neg hagain] at hprogress
    have hafterPath : after.sequence.paths[after.st.currentPathIndex]? = some next := by
      rw [hsequence, hprogress]
      exact hnext
    rw [timeoutAction_ok_iff input hafterPath, htrips, hprogress]
    refine not_congr ⟨fun ⟨hexpired, hlength⟩ => ?_, ?_⟩
    · have hexits : StepExits action.sequence input step
          (started path input (actionRun asset action input)) :=
        not_not.mp fun hne => absurd (hstay hne) (not_lt.mpr hlength)
      obtain ⟨rfl, hnextIndex⟩ := hexit hexits
      refine Or.inr ⟨⟨path, step, hpath, hstep, ?_, hexits, hexpired⟩,
        fun hself => hagain ⟨hlength, hself⟩⟩
      rw [actionStep, hnextIndex, hstepIndex] at hlength
      change action.st.currentStepIndex + 1 = path.steps.length
      change path.steps.length ≤ action.st.currentStepIndex + 1 at hlength
      omega
    · rintro (⟨_, hpath', hpast'⟩ | ⟨⟨path', step', hpath', hstep', hlast, hexits, hexpired⟩, -⟩)
      · exact absurd (Option.some_inj.mp (hpath.symm.trans hpath') ▸ hpast') hpast
      · obtain rfl : path = path' := Option.some_inj.mp (hpath.symm.trans hpath')
        obtain rfl : step = step' := Option.some_inj.mp (hstep.symm.trans hstep')
        obtain ⟨rfl, hnextIndex⟩ := hexit hexits
        refine ⟨hexpired, ?_⟩
        rw [actionStep, hnextIndex, hstepIndex]
        exact hlast.ge

/-- From a state in range, an event fails exactly when it reads past the end;
otherwise the next state is in range. -/
theorem step_ok_iff (h : ActionsInRange asset) (event : ActionEvent) :
    ((∃ after, asset.step event = .ok after) ↔ ¬ ReadsPast asset event) ∧
    ∀ after, asset.step event = .ok after → ActionsInRange after := by
  cases event with
  | set actionId desiredAction inMaintMode =>
    refine ⟨⟨fun _ hfalse => hfalse, fun _ => ⟨_, rfl⟩⟩, ?_⟩
    rintro after ⟨⟩
    exact h.handleActionsSet actionId desiredAction inMaintMode
  | tick input faulted inMaintMode =>
    change ((∃ after, asset.processAssetActions input faulted inMaintMode = .ok after) ↔ _) ∧
      ∀ after, asset.processAssetActions input faulted inMaintMode = .ok after → _
    unfold AssetActions.processAssetActions
    by_cases hname : asset.currentSequenceName = ""
    · simp only [if_pos hname]
      refine ⟨⟨fun _ hreads => ?_, fun _ => ⟨_, rfl⟩⟩, ?_⟩
      · obtain ⟨_, _, hne, -⟩ := hreads
        exact hne hname
      · rintro after ⟨⟩
        exact h
    obtain ⟨ref, action, hlocate, hget⟩ := locate_isSome h hname
    have hlocated : ActionsInRange {asset with quickActionAccess := some ref} :=
      ⟨h.inRange, fun other ho => ⟨action, Option.some_inj.mp ho ▸ hget⟩, h.named⟩
    have hgetLocated : ({asset with quickActionAccess := some ref} : AssetActions).get? ref =
      some action := hget
    simp only [if_neg hname, hlocate]
    cases inMaintMode with
    | false =>
      refine ⟨⟨fun _ hreads => ?_, fun _ => ⟨_, rfl⟩⟩, ?_⟩
      · obtain ⟨_, _, -, hmaint, -⟩ := hreads
        exact absurd hmaint (by decide)
      · rintro after ⟨⟩
        have hclear := hlocated.clearAction ref
        exact ⟨hclear.inRange, hclear.access, fun hne => absurd rfl hne⟩
    | true =>
      have hreads : ReadsPast asset (.tick input faulted true) ↔
          (faulted = true → action.isShutdownSequence = true) ∧
            CallReadsPast asset ref action input := by
        refine ⟨?_, fun hcall => ⟨ref, action, hname, rfl, hlocate, hget, hcall⟩⟩
        rintro ⟨ref', action', -, -, hlocate', hget', hcall⟩
        obtain rfl : ref = ref' := Option.some_inj.mp (hlocate.symm.trans hlocate')
        obtain rfl : action = action' := Option.some_inj.mp (hget.symm.trans hget')
        exact hcall
      simp only [if_true, AssetActions.process, hgetLocated, hreads]
      split_ifs with hfault
      · refine ⟨⟨fun _ hcall => ?_, fun _ => ⟨_, rfl⟩⟩, ?_⟩
        · rw [Bool.and_eq_true] at hfault
          rw [hcall.1 hfault.2] at hfault
          exact absurd hfault.1 (by decide)
        · rintro after ⟨⟩
          exact hlocated.exitAutomation ref action .failed
      · have hfaulted : faulted = true → action.isShutdownSequence = true := by
          intro hf
          rw [hf, Bool.and_true] at hfault
          simpa using hfault
        rw [and_iff_right hfaulted]
        exact callSequence_ok_iff hlocated input hgetLocated

/-! ## Runs -/

/-- An asset whose actions have just been configured. -/
structure Constructed (asset : AssetActions) : Prop where
  currentSequenceName : asset.currentSequenceName = ""
  quickActionAccess : asset.quickActionAccess = none
  action : ∀ ref action, asset.get? ref = some action → action.sequence.Accepted ∧
    action.status = .inactive ∧ ∃ targets, action.st = initialState targets

theorem Constructed.inRange (h : Constructed asset) : ActionsInRange asset where
  inRange ref action hget := by
    obtain ⟨haccepted, -, targets, hst⟩ := h.action ref action hget
    refine ⟨haccepted, ?_, ?_⟩
    · rw [hst]
      exact List.length_pos_of_ne_nil haccepted.paths
    · rw [hst]
      exact Or.inl rfl
  access ref hquick := by
    rw [h.quickActionAccess] at hquick
    exact absurd hquick (by simp)
  named hne := absurd h.currentSequenceName hne

/-- A run of calls of an accepted sequence reads in range exactly when no call
finishes a path late, and a run of events on configured actions exactly when no
tick calls an action past its steps or finishes one late. -/
theorem runs_in_range_iff (sequence : Sequence) (ha : sequence.Accepted)
    (targets : ℕ → ℕ → ℕ → Timespec) (status : SequencesStatus) (inputs : List CallInput)
    (asset : AssetActions) (hasset : Constructed asset) (events : List ActionEvent) :
    ((∃ last, run (sequenceStep sequence) (initialState targets, status) inputs = .ok last) ↔
      Guarded (sequenceStep sequence) (fun run input => ¬ FinishesExpired sequence input run)
        (initialState targets, status) inputs) ∧
    ((∃ last, run AssetActions.step asset events = .ok last) ↔
      Guarded AssetActions.step (fun asset event => ¬ ReadsPast asset event) asset events) := by
  constructor
  · have hcall : ∀ run input, (∃ last, sequenceStep sequence run input = .ok last) ↔
        ∃ result, callSequence sequence input run = .ok result := by
      intro run input
      unfold sequenceStep
      cases callSequence sequence input run with
      | error e | ok result => simp [Except.map]
    refine run_ok_iff (fun run : Run => InRange sequence run.1) (fun run input hr => ?_)
      (fun run input next hr hnext => ?_) inputs
      (SiteSequenceIndex.inRange_initialState ha targets)
    · rw [hcall]
      exact (SiteSequenceIndex.callSequence_ok_iff ha input hr).1
    · unfold sequenceStep at hnext
      cases hresult : callSequence sequence input run with
      | error e =>
        rw [hresult] at hnext
        exact absurd hnext (by simp [Except.map])
      | ok result =>
        rw [hresult] at hnext
        cases hnext
        exact (SiteSequenceIndex.callSequence_ok_iff ha input hr).2 result hresult
  · exact run_ok_iff ActionsInRange (fun _ event h => (step_ok_iff h event).1)
      (fun _ event after h hafter => (step_ok_iff h event).2 after hafter) events hasset.inRange

/-! ## A path that finishes late -/

/-- One path of one step that may take one second. -/
def lateSequence : Sequence where
  sequenceName := "Discharge"
  state := .startup
  sequenceType := .site
  paths := [{
    pathName := "main"
    returnState := .ready
    timeout := 1
    steps := [{
      stepName := "close breaker"
      entryActions := [⟨"/feeders/close", 0⟩]
      exitConditions := [⟨"/feeders/closed", 0⟩]
      pathSwitch := false
      nextPath := 0 }] }]

theorem lateSequence_accepted : lateSequence.Accepted where
  paths := by decide
  steps := by decide
  nextPath := by decide

/-- A call at a number of seconds, in which the exit condition gives `closed`. -/
def callAt (seconds : ℤ) (closed : Bool) : CallInput where
  sequenceReset := false
  currentTime := ⟨seconds, 0⟩
  resetClock := ⟨seconds, 0⟩
  debounceClock _ := ⟨seconds, 0⟩
  timeoutClock := ⟨seconds, 0⟩
  entryResult _ := true
  exitResult _ := closed

/-- The shared status at construction. -/
def lateStatus : SequencesStatus where
  currentState := .startup
  stepChange := false
  pathChange := false
  sequenceReset := false
  shouldPub := false
  currentTime := ⟨0, 0⟩
  exitTargetTime := ⟨0, 0⟩

/-- The breaker closes three seconds into the step. -/
def lateInputs : List CallInput := [callAt 0 false, callAt 3 true]

/-- An asset whose only action is the late sequence. -/
def lateAsset : AssetActions where
  actions := [{
    sequence := lateSequence
    st := initialState fun _ _ _ => ⟨0, 0⟩
    status := .inactive
    statusSwap := .inactive
    isShutdownSequence := false
    shutdownSequence := ""
    shutdownEntries := 0 }]
  shutdownActions := []
  actionStatus := lateStatus
  currentSequenceName := ""
  quickActionAccess := none
  actionsFault := false

theorem lateAsset_constructed : Constructed lateAsset where
  currentSequenceName := rfl
  quickActionAccess := rfl
  action := by
    rintro ⟨isShutdown, index⟩ action hget
    cases isShutdown with
    | true => exact absurd hget (by simp [AssetActions.get?, AssetActions.vector, lateAsset])
    | false =>
      cases index with
      | zero =>
        cases hget
        exact ⟨lateSequence_accepted, rfl, _, rfl⟩
      | succ index =>
        exact absurd hget (by simp [AssetActions.get?, AssetActions.vector, lateAsset])

theorem runs_in_range_iff_lateSequence :
    ((∃ last, run (sequenceStep lateSequence) (initialState fun _ _ _ => ⟨0, 0⟩, lateStatus)
        [callAt 0 false, callAt 1 true] = .ok last) ↔
      Guarded (sequenceStep lateSequence)
        (fun run input => ¬ FinishesExpired lateSequence input run)
        (initialState fun _ _ _ => ⟨0, 0⟩, lateStatus) [callAt 0 false, callAt 1 true]) ∧
    ((∃ last, run AssetActions.step lateAsset [.set "Discharge" .start true,
        .tick (callAt 0 true) false true] = .ok last) ↔
      Guarded AssetActions.step (fun asset event => ¬ ReadsPast asset event) lateAsset
        [.set "Discharge" .start true, .tick (callAt 0 true) false true]) :=
  runs_in_range_iff lateSequence lateSequence_accepted (fun _ _ _ => ⟨0, 0⟩) lateStatus
    [callAt 0 false, callAt 1 true] lateAsset lateAsset_constructed
    [.set "Discharge" .start true, .tick (callAt 0 true) false true]

/-- The second call advances past the only step and then names it for the
timeout event. -/
theorem lateSequence_reads_past_the_steps :
    lateSequence.Accepted ∧
    run (sequenceStep lateSequence) (initialState fun _ _ _ => ⟨0, 0⟩, lateStatus) lateInputs =
      .error .steps ∧
    Constructed lateAsset ∧
    run AssetActions.step lateAsset ((.set "Discharge" .start true) ::
      lateInputs.map fun input => .tick input false true) = .error .steps :=
  ⟨lateSequence_accepted, rfl, lateAsset_constructed, rfl⟩

end HybridOs.SiteActionIndex
