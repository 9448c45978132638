import HybridOs.SiteAction
import HybridOs.SiteSequenceStep

/-!
# What the operations on actions leave alone

Starting, ending and clearing an action change the progress and the status of
single actions; configurations, and so names and positions, stay. A call of an
action is its step, its completion and its timeout.
-/

namespace HybridOs.SiteActionStep

open SiteUtils SiteSequence SiteSequenceStep SiteAction

/-! ## Reads and writes through a pointer -/

/-- The configured part of an action. -/
def config (action : Action) : Sequence × Bool × String :=
  (action.sequence, action.isShutdownSequence, action.shutdownSequence)

variable (asset : AssetActions) (ref : ActionRef) (f : Action → Action)

/-- An update changes one action of one of the two vectors. -/
theorem vector_update (isShutdown : Bool) :
    (asset.update ref f).vector isShutdown =
      if isShutdown = ref.isShutdown then (asset.vector isShutdown).modify ref.index f
      else asset.vector isShutdown := by
  unfold AssetActions.update AssetActions.vector
  cases isShutdown <;> cases href : ref.isShutdown <;> simp

/-- The updated action is the old one edited. -/
theorem get?_update_same : (asset.update ref f).get? ref = (asset.get? ref).map f := by
  rw [AssetActions.get?, vector_update, if_pos rfl, List.getElem?_modify]
  simp [AssetActions.get?]

/-- The other actions stay. -/
theorem get?_update_other {ref other : ActionRef} (f : Action → Action)
    (h : other ≠ ref) : (asset.update ref f).get? other = asset.get? other := by
  rw [AssetActions.get?, vector_update, AssetActions.get?]
  split_ifs with hvector
  · have hindex : ref.index ≠ other.index := by
      intro he
      obtain ⟨isShutdown, index⟩ := ref
      obtain ⟨isShutdown', index'⟩ := other
      exact h (by rw [show isShutdown' = isShutdown from hvector, show index = index' from he])
    simp [hindex]
  · rfl

/-- The pointer to the running action and the status stay. -/
theorem update_pointer :
    (asset.update ref f).quickActionAccess = asset.quickActionAccess ∧
    (asset.update ref f).currentSequenceName = asset.currentSequenceName ∧
    (asset.update ref f).actionStatus = asset.actionStatus := by
  unfold AssetActions.update
  split_ifs <;> exact ⟨rfl, rfl, rfl⟩

/-- Two states of one configuration. -/
structure SameConfig (asset asset' : AssetActions) : Prop where
  actions : asset'.actions.map config = asset.actions.map config
  shutdownActions : asset'.shutdownActions.map config = asset.shutdownActions.map config

/-- An asset is configured as itself. -/
theorem SameConfig.refl : SameConfig asset asset := ⟨rfl, rfl⟩

/-- Configurations that stay twice stay. -/
theorem SameConfig.trans {a b c : AssetActions} (h : SameConfig a b) (h' : SameConfig b c) :
    SameConfig a c :=
  ⟨h'.actions.trans h.actions, h'.shutdownActions.trans h.shutdownActions⟩

/-- Each of the two vectors keeps its configurations. -/
theorem SameConfig.vector {asset asset' : AssetActions} (h : SameConfig asset asset')
    (isShutdown : Bool) :
    (asset'.vector isShutdown).map config = (asset.vector isShutdown).map config := by
  cases isShutdown
  · exact h.actions
  · exact h.shutdownActions

/-- A view that an edit does not change is the same after the edit. -/
theorem map_modify_of_fixed {α β : Type*} (g : α → β) {f : α → α} (h : ∀ a, g (f a) = g a)
    (l : List α) (index : ℕ) : (l.modify index f).map g = l.map g := by
  apply List.ext_getElem?
  intro k
  rw [List.getElem?_map, List.getElem?_map, List.getElem?_modify]
  split_ifs
  · cases l[k]? <;> simp [h]
  · simp

/-- An update that leaves the configuration of an action leaves all. -/
theorem sameConfig_update
    (h : ∀ action, config (f action) = config action) : SameConfig asset (asset.update ref f) := by
  unfold AssetActions.update
  split_ifs
  · exact ⟨rfl, map_modify_of_fixed config h _ _⟩
  · exact ⟨map_modify_of_fixed config h _ _, rfl⟩

/-- An action keeps its configuration. -/
theorem SameConfig.get? {asset asset' : AssetActions} (h : SameConfig asset asset')
    (ref : ActionRef) : (asset'.get? ref).map config = (asset.get? ref).map config := by
  rw [AssetActions.get?, AssetActions.get?, ← List.getElem?_map, ← List.getElem?_map, h.vector]

/-- An action stays there, with its configuration. -/
theorem get?_isSome_of_sameConfig {asset asset' : AssetActions} (h : SameConfig asset asset')
    {ref : ActionRef} {action : Action} (hget : asset.get? ref = some action) :
    ∃ action', asset'.get? ref = some action' ∧ config action' = config action := by
  have hmap := h.get? ref
  rw [hget] at hmap
  obtain ⟨action', hget', hconfig⟩ := Option.map_eq_some_iff.mp hmap
  exact ⟨action', hget', hconfig⟩

/-- Positions of names only depend on the configuration. -/
theorem namedPositions_congr {l l' : List Action} (h : l'.map config = l.map config)
    (name : String) : namedPositions l' name = namedPositions l name := by
  have hnames : ∀ l : List Action, l.map (fun action => action.sequence.sequenceName) =
      (l.map config).map fun c => c.1.sequenceName := by
    intro l
    rw [List.map_map]
    rfl
  rw [namedPositions, namedPositions, hnames, hnames, h]

/-- The positions of a name are those of the actions with a sequence of this name. -/
theorem mem_namedPositions (actions : List Action) (name : String) (index : ℕ) :
    index ∈ namedPositions actions name ↔
      ∃ action, actions[index]? = some action ∧ action.sequence.sequenceName = name := by
  simp [namedPositions, List.mem_zipIdx_iff_getElem?]

variable (action : Action) (name actionId : String) (index : ℕ) (setStatus : ActionStatusState)
  (run : Run)

/-- Entering automation leaves the configurations. -/
theorem sameConfig_enterAutomation : SameConfig asset (asset.enterAutomation ref actionId) := by
  have h := sameConfig_update asset ref (restart .inProgress) (fun _ => rfl)
  exact ⟨h.actions, h.shutdownActions⟩

/-- Entering a shutdown action leaves the configurations. -/
theorem sameConfig_enterShutdownAt : SameConfig asset (asset.enterShutdownAt name index) := by
  have h := sameConfig_enterAutomation asset ⟨true, index⟩ name
  exact ⟨h.actions, h.shutdownActions⟩

/-- Entering the shutdown actions of a name leaves the configurations. -/
theorem sameConfig_enterShutdown : SameConfig asset (asset.enterShutdown name) := by
  unfold AssetActions.enterShutdown
  generalize namedPositions asset.shutdownActions name = positions
  induction positions generalizing asset with
  | nil => exact SameConfig.refl asset
  | cons index rest ih => exact (sameConfig_enterShutdownAt asset name index).trans (ih _)

/-- The release of exiting actions leaves the configurations. -/
theorem sameConfig_releaseExiting : SameConfig asset asset.releaseExiting := by
  have hswap : ∀ action, config (swapStatus action) = config action := by
    intro action
    unfold swapStatus
    split_ifs <;> rfl
  refine ⟨?_, rfl⟩
  rw [AssetActions.releaseExiting, List.map_map]
  exact List.map_congr_left fun action _ => hswap action

/-- Decoupling leaves the configurations. -/
theorem sameConfig_decouple : SameConfig asset asset.decouple := ⟨rfl, rfl⟩

/-- Starting an action leaves the configurations. -/
theorem sameConfig_startAction (actionId : String) :
    SameConfig asset (asset.startAction index actionId) :=
  sameConfig_enterAutomation asset ⟨false, index⟩ actionId

/-- Leaving automation leaves the configurations. -/
theorem sameConfig_exitAutomation :
    SameConfig asset (asset.exitAutomation ref action setStatus) := by
  have hdecouple := sameConfig_decouple asset
  have htake : ∀ other : AssetActions, SameConfig other
      {other.update ref (takeStatus setStatus) with currentSequenceName := ""} := by
    intro other
    have h := sameConfig_update other ref (takeStatus setStatus) (fun _ => rfl)
    exact ⟨h.actions, h.shutdownActions⟩
  unfold AssetActions.exitAutomation
  split_ifs
  · exact hdecouple.trans ((sameConfig_releaseExiting _).trans (htake _))
  · exact hdecouple.trans (htake _)
  · exact hdecouple.trans ((sameConfig_update _ ref (awaitShutdown setStatus _)
      (fun _ => rfl)).trans (sameConfig_enterShutdown _ _))

/-! ## Properties of every action -/

/-- A property of all actions of an asset, by position. -/
def AllActions (P : ActionRef → Action → Prop) (asset : AssetActions) : Prop :=
  ∀ ref action, asset.get? ref = some action → P ref action

/-- The status operations keep a property. -/
structure StatusClosed (P : ActionRef → Action → Prop) : Prop where
  restart : ∀ ref status action, P ref action → P ref (restart status action)
  takeStatus : ∀ ref status action, P ref action → P ref (takeStatus status action)
  awaitShutdown : ∀ ref status entries action,
    P ref action → P ref (awaitShutdown status entries action)

variable {P : ActionRef → Action → Prop}

/-- A property of all actions is kept by an update that keeps it for the edited one. -/
theorem allActions_update {asset : AssetActions} {ref : ActionRef}
    {f : Action → Action} (h : AllActions P asset)
    (hf : ∀ action, asset.get? ref = some action → P ref (f action)) :
    AllActions P (asset.update ref f) := by
  intro other action hget
  by_cases ho : other = ref
  · subst ho
    rw [get?_update_same] at hget
    obtain ⟨old, hold, rfl⟩ := Option.map_eq_some_iff.mp hget
    exact hf old hold
  · rw [get?_update_other _ _ ho] at hget
    exact h other action hget

/-- The release swaps the status of the actions that are not shutdown actions. -/
theorem get?_releaseExiting :
    asset.releaseExiting.get? ref =
      (asset.get? ref).map fun action => if ref.isShutdown then action else swapStatus action := by
  obtain ⟨isShutdown, index⟩ := ref
  cases isShutdown
  · simp [AssetActions.get?, AssetActions.vector, AssetActions.releaseExiting]
  · simp [AssetActions.get?, AssetActions.vector, AssetActions.releaseExiting]

/-- The release keeps a property that no change of status ends. -/
theorem allActions_releaseExiting (hP : StatusClosed P) {asset : AssetActions}
    (h : AllActions P asset) : AllActions P asset.releaseExiting := by
  intro ref action hget
  rw [get?_releaseExiting] at hget
  obtain ⟨old, hold, rfl⟩ := Option.map_eq_some_iff.mp hget
  have hold := h ref old hold
  split_ifs
  · exact hold
  · unfold swapStatus
    split_ifs
    · exact hP.takeStatus _ _ _ hold
    · exact hold

/-- So does entering the shutdown actions of a name. -/
theorem allActions_enterShutdown (hP : StatusClosed P) {asset : AssetActions}
    (name : String) (h : AllActions P asset) : AllActions P (asset.enterShutdown name) := by
  unfold AssetActions.enterShutdown
  generalize namedPositions asset.shutdownActions name = positions
  induction positions generalizing asset with
  | nil => exact h
  | cons index rest ih =>
    have hfirst : AllActions P (asset.enterShutdownAt name index) :=
      allActions_update h fun action hget => hP.restart _ _ _ (h _ action hget)
    exact ih hfirst

/-- So does leaving automation. -/
theorem allActions_exitAutomation (hP : StatusClosed P) {asset : AssetActions}
    (ref : ActionRef) (action : Action) (setStatus : ActionStatusState) (h : AllActions P asset) :
    AllActions P (asset.exitAutomation ref action setStatus) := by
  have hdecouple : AllActions P asset.decouple := h
  have htake : ∀ other : AssetActions, AllActions P other →
      AllActions P {other.update ref (takeStatus setStatus) with currentSequenceName := ""} :=
    fun other ho => allActions_update ho fun a hget => hP.takeStatus _ _ _ (ho _ a hget)
  unfold AssetActions.exitAutomation
  split_ifs
  · exact htake _ (allActions_releaseExiting hP hdecouple)
  · exact htake _ hdecouple
  · exact allActions_enterShutdown hP _ (allActions_update hdecouple fun a hget =>
      hP.awaitShutdown _ _ _ _ (hdecouple _ a hget))

/-! ## The running action -/

/-- Entering a shutdown sequence points at the last action of the name, if any. -/
theorem enterShutdown_cases :
    (namedPositions asset.shutdownActions name = [] ∧ asset.enterShutdown name = asset) ∨
    ∃ index ∈ namedPositions asset.shutdownActions name,
      (asset.enterShutdown name).currentSequenceName = name ∧
      (asset.enterShutdown name).quickActionAccess = some ⟨true, index⟩ := by
  unfold AssetActions.enterShutdown
  rcases List.eq_nil_or_concat (namedPositions asset.shutdownActions name) with h | ⟨init, index, h⟩
  · rw [h]
    exact Or.inl ⟨rfl, rfl⟩
  · rw [h, List.concat_eq_append, List.foldl_append]
    exact Or.inr ⟨index, by simp, rfl, rfl⟩

/-- Entering automation restarts one action and leaves the others. -/
theorem get?_enterAutomation (other : ActionRef) (actionId : String) :
    (asset.enterAutomation ref actionId).get? other =
      if other = ref then (asset.get? other).map (restart .inProgress) else asset.get? other := by
  change (asset.update ref (restart .inProgress)).get? other = _
  split_ifs with h
  · rw [h, get?_update_same]
  · exact get?_update_other _ _ h

/-- Every shutdown action of the name is entered, no other action is. -/
theorem get?_enterShutdown (ref : ActionRef) :
    (asset.enterShutdown name).get? ref =
      if ref.isShutdown = true ∧ ref.index ∈ namedPositions asset.shutdownActions name then
        (asset.get? ref).map (restart .inProgress) else asset.get? ref := by
  unfold AssetActions.enterShutdown
  generalize namedPositions asset.shutdownActions name = positions
  induction positions generalizing asset with
  | nil => simp
  | cons index rest ih =>
    have hfirst : (asset.enterShutdownAt name index).get? ref =
        if ref = ⟨true, index⟩ then (asset.get? ref).map (restart .inProgress)
        else asset.get? ref := get?_enterAutomation asset ⟨true, index⟩ ref name
    have hagain : ((asset.get? ref).map (restart .inProgress)).map (restart .inProgress) =
        (asset.get? ref).map (restart .inProgress) := by
      rw [Option.map_map]
      rfl
    have href : ref = ⟨true, index⟩ ↔ ref.isShutdown = true ∧ ref.index = index := by
      obtain ⟨isShutdown, position⟩ := ref
      simp
    rw [List.foldl_cons, ih, hfirst]
    by_cases hhere : ref.isShutdown = true ∧ ref.index = index
    · rw [if_pos (href.mpr hhere), hagain, ite_self,
        if_pos ⟨hhere.1, List.mem_cons.mpr (Or.inl hhere.2)⟩]
    · rw [if_neg (fun h => hhere (href.mp h))]
      refine if_congr (and_congr_right fun hs => ?_) rfl rfl
      rw [List.mem_cons, or_iff_right fun he => hhere ⟨hs, he⟩]

/-- Ending the action enters it again, as its own shutdown action. -/
def EntersItself (asset : AssetActions) (ref : ActionRef) (action : Action) : Prop :=
  action.shutdownSequence ≠ "" ∧ ref.isShutdown = true ∧
    ref.index ∈ namedPositions asset.shutdownActions action.shutdownSequence

instance (asset : AssetActions) (ref : ActionRef) (action : Action) :
    Decidable (EntersItself asset ref action) := by
  unfold EntersItself
  infer_instance

/-- The progress of an action that ends stays, unless it is entered again. -/
theorem exitAutomation_progress {asset : AssetActions} {ref : ActionRef} {old : Action}
    (hget : asset.get? ref = some old) :
    ∃ after, (asset.exitAutomation ref action setStatus).get? ref = some after ∧
      config after = config old ∧
      after.st = if EntersItself asset ref action then enterProgress old.st else old.st := by
  obtain ⟨after, hafter, hconfig⟩ :=
    get?_isSome_of_sameConfig (sameConfig_exitAutomation asset ref action setStatus) hget
  refine ⟨after, hafter, hconfig, ?_⟩
  have hdecouple : asset.decouple.get? ref = some old := hget
  unfold AssetActions.exitAutomation at hafter
  dsimp only at hafter
  split_ifs at hafter with hshutdown hrelease
  · rw [if_neg fun h => h.1 hshutdown]
    change (asset.decouple.releaseExiting.update ref (takeStatus setStatus)).get? ref = _ at hafter
    rw [get?_update_same, get?_releaseExiting, hdecouple] at hafter
    cases hafter
    simp only [swapStatus]
    split_ifs <;> rfl
  · rw [if_neg fun h => h.1 hshutdown]
    change (asset.decouple.update ref (takeStatus setStatus)).get? ref = _ at hafter
    rw [get?_update_same, hdecouple] at hafter
    cases hafter
    rfl
  · set entries := (namedPositions asset.decouple.shutdownActions action.shutdownSequence).length
    have hconfig' := sameConfig_update asset.decouple ref (awaitShutdown setStatus entries)
      (fun _ => rfl)
    have hpositions : namedPositions (asset.decouple.update ref
        (awaitShutdown setStatus entries)).shutdownActions action.shutdownSequence =
        namedPositions asset.shutdownActions action.shutdownSequence :=
      namedPositions_congr hconfig'.shutdownActions _
    rw [get?_enterShutdown, hpositions, get?_update_same, hdecouple] at hafter
    by_cases hagain : EntersItself asset ref action
    · rw [if_pos hagain.2] at hafter
      cases hafter
      rw [if_pos hagain]
      rfl
    · rw [if_neg fun h => hagain ⟨hshutdown, h⟩] at hafter
      cases hafter
      rw [if_neg hagain]
      rfl

/-! ## A call of an action -/

/-- The run an action call starts from. -/
def actionRun (asset : AssetActions) (action : Action) (input : CallInput) : Run :=
  (action.st, {asset.actionStatus with currentTime := input.currentTime})

/-- The run after entry and exit of a known step. -/
def actionStep (asset : AssetActions) (action : Action) (input : CallInput) (path : Path)
    (step : Step) : Run :=
  runStep action.sequence input step (started path input (actionRun asset action input))

/-- The asset after the step and the completion of a call. -/
def actionCompleted (asset : AssetActions) (ref : ActionRef) (action : Action) (next : Path)
    (run : Run) : AssetActions :=
  (asset.store ref run).completeAction ref action next run

/-- A call in a path and a step that exist runs the sequence of this action. -/
theorem callSequence_known {asset : AssetActions} {ref : ActionRef} {action after : Action}
    {input : CallInput} {path next : Path} {step : Step}
    (hpath : action.sequence.paths[action.st.currentPathIndex]? = some path)
    (hstep : path.steps[action.st.currentStepIndex]? = some step)
    (hnext : action.sequence.paths[(actionStep asset action input path
      step).1.currentPathIndex]? = some next) (hafter : (actionCompleted asset ref action next
      (actionStep asset action input path step)).get? ref = some after) :
    asset.callSequence ref action input =
      (actionCompleted asset ref action next
        (actionStep asset action input path step)).timeoutAction ref after input := by
  obtain ⟨hpathIndex, hstepIndex, -⟩ :=
    started_index path input (actionRun asset action input)
  have hat : action.sequence.stepAt
      (started path input (actionRun asset action input)).1.currentPathIndex
      (started path input (actionRun asset action input)).1.currentStepIndex = .ok step := by
    rw [hpathIndex, hstepIndex]
    exact stepAt_ok hpath hstep
  have hstart : tryStepReset action.sequence input (actionRun asset action input) =
      .ok (started path input (actionRun asset action input)) := tryStepReset_eq input hpath
  unfold AssetActions.callSequence
  change (tryStepReset action.sequence input (actionRun asset action input) >>= _) = _
  rw [hstart]
  change (callSequenceStep action.sequence input
    (started path input (actionRun asset action input)) >>= _) = _
  rw [callSequenceStep_eq input hat]
  change (action.sequence.pathAt
    (actionStep asset action input path step).1.currentPathIndex >>= _) = _
  rw [pathAt_ok hnext]
  dsimp only [bind, Except.bind]
  split
  next hnone => exact absurd (hnone.symm.trans hafter) (by simp)
  next found hfound =>
    rw [Option.some_inj.mp (hfound.symm.trans hafter)]
    rfl

/-- Storing a run changes the progress of one action. -/
theorem get?_store : (asset.store ref run).get? ref = (asset.get? ref).map (withProgress run.1) :=
  get?_update_same asset ref (withProgress run.1)

/-- Leaving automation keeps the times of the status. -/
theorem exitAutomation_times :
    (asset.exitAutomation ref action setStatus).actionStatus.currentTime =
      asset.actionStatus.currentTime ∧
    (asset.exitAutomation ref action setStatus).actionStatus.exitTargetTime =
      asset.actionStatus.exitTargetTime := by
  have henter : ∀ (other : AssetActions) (name : String),
      (other.enterShutdown name).actionStatus.currentTime = other.actionStatus.currentTime ∧
      (other.enterShutdown name).actionStatus.exitTargetTime =
        other.actionStatus.exitTargetTime := by
    intro other name
    unfold AssetActions.enterShutdown
    generalize namedPositions other.shutdownActions name = positions
    induction positions generalizing other with
    | nil => exact ⟨rfl, rfl⟩
    | cons index rest ih =>
      obtain ⟨htime, htarget⟩ := ih (other.enterShutdownAt name index)
      exact ⟨htime, htarget⟩
  unfold AssetActions.exitAutomation
  dsimp only
  split_ifs
  · have h := (update_pointer asset.decouple.releaseExiting ref (takeStatus setStatus)).2.2
    have htime := congrArg SequencesStatus.currentTime h
    have htarget := congrArg SequencesStatus.exitTargetTime h
    exact ⟨htime, htarget⟩
  · have h := (update_pointer asset.decouple ref (takeStatus setStatus)).2.2
    have htime := congrArg SequencesStatus.currentTime h
    have htarget := congrArg SequencesStatus.exitTargetTime h
    exact ⟨htime, htarget⟩
  · obtain ⟨htime, htarget⟩ := henter (asset.decouple.update ref (awaitShutdown setStatus
      (namedPositions asset.decouple.shutdownActions action.shutdownSequence).length))
      action.shutdownSequence
    rw [(update_pointer _ _ _).2.2] at htime htarget
    exact ⟨htime, htarget⟩

/-- A completed action leaves the times of its run. -/
theorem actionCompleted_times (next : Path) (run : Run) :
    (actionCompleted asset ref action next run).actionStatus.currentTime = run.2.currentTime ∧
    (actionCompleted asset ref action next run).actionStatus.exitTargetTime =
      run.2.exitTargetTime := by
  unfold actionCompleted AssetActions.completeAction
  split_ifs
  · exact exitAutomation_times (asset.store ref run) ref action .completed
  · exact ⟨rfl, rfl⟩

/-- After a call an action has its new progress, unless it completed and
entered itself again. -/
theorem actionCompleted_progress {asset : AssetActions} {ref : ActionRef} {action : Action}
    (next : Path) (run : Run) (hget : asset.get? ref = some action) :
    ∃ after, (actionCompleted asset ref action next run).get? ref = some after ∧
      config after = config action ∧
      after.st = if next.steps.length ≤ run.1.currentStepIndex ∧ EntersItself asset ref action
        then enterProgress run.1 else run.1 := by
  have hstore : (asset.store ref run).get? ref = some (withProgress run.1 action) := by
    rw [get?_store, hget]
    rfl
  have hconfig := sameConfig_update asset ref (withProgress run.1) (fun _ => rfl)
  have hsame : EntersItself (asset.store ref run) ref action ↔ EntersItself asset ref action := by
    unfold EntersItself
    rw [show namedPositions (asset.store ref run).shutdownActions action.shutdownSequence =
      namedPositions asset.shutdownActions action.shutdownSequence from
        namedPositions_congr hconfig.shutdownActions _]
  unfold actionCompleted AssetActions.completeAction
  by_cases hdone : run.1.currentStepIndex ≥ next.steps.length
  · rw [if_pos hdone]
    obtain ⟨after, hafter, hafterConfig, hst⟩ :=
      exitAutomation_progress action .completed hstore
    refine ⟨after, hafter, hafterConfig, hst.trans ?_⟩
    simp only [hsame, and_iff_right hdone]
    rfl
  · rw [if_neg hdone]
    exact ⟨_, hstore, rfl, (if_neg fun h => hdone h.1).symm⟩

end HybridOs.SiteActionStep
