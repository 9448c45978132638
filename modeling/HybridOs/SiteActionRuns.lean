import HybridOs.SiteActionOutcome

/-!
# Outcomes over whole runs

One lemma an event: a clean event of an orderly asset succeeds, keeps it orderly
and moves statuses as the laws allow. A run of clean events from a configured
asset follows.
-/

namespace HybridOs.SiteActionRuns

open SiteUtils SiteSequence SiteSequenceStep SiteAction SiteActionStep SiteActionIndex
open SiteActionEnd SiteActionOutcome CheckedRun
open SiteSequenceIndex (FinishesLate)

/-! ## Calls -/

section

variable {asset : AssetActions} {ref : ActionRef} {action : Action}

/-- Exiting actions are ordinary ones and not the one that runs. -/
theorem exiting_other (h : Orderly asset) (hget : asset.get? ref = some action)
    (hrun : Runnable action) {other : ActionRef} {old : Action}
    (hold : asset.get? other = some old) (hexiting : old.status = .exiting) :
    other.isShutdown = false ∧ other ≠ ref := by
  refine ⟨((h.law other old hold).exiting hexiting).1, ?_⟩
  rintro rfl
  obtain rfl : old = action := Option.some_inj.mp (hold.symm.trans hget)
  rcases hrun.status with hs | hs <;> rw [hs] at hexiting <;> exact absurd hexiting (by decide)

/-- Ending the running action of an orderly asset. -/
theorem exitAutomation_outcome (h : Orderly asset) (hget : asset.get? ref = some action)
    (hrun : Runnable action) {setStatus : ActionStatusState} (hterminal : Terminal setStatus)
    (hwell : EndsWell (shutdownPositions asset) ref action) {cause : ActionRef → Prop}
    {restarts : Prop} (hcause : setStatus = .failed → cause ref) :
    Orderly (asset.exitAutomation ref action setStatus) ∧
      Moves asset (asset.exitAutomation ref action setStatus) cause restarts := by
  have hending := h.ending hget hrun hterminal hwell
  exact ⟨hending.orderly, hending.moves (fun _ => rfl)
    (fun _ _ hold hexiting => exiting_other h hget hrun hold hexiting) hcause⟩

/-- A clean call of the running action succeeds and obeys the laws; it fails the
action only if its step has timed out. -/
theorem callSequence_outcome (h : Orderly asset) (hget : asset.get? ref = some action)
    (hrun : Runnable action) {input : CallInput} (hclean : CleanCall asset ref action input)
    (restarts : Prop) :
    ∃ after, asset.callSequence ref action input = .ok after ∧ Orderly after ∧
      Moves asset after (fun other => other = ref ∧ StepTimedOut asset action input) restarts := by
  obtain ⟨haccepted, hpathRange, hcheck⟩ := h.inRange.inRange ref action hget
  have hpath := List.getElem?_eq_getElem hpathRange
  set path := action.sequence.paths[action.st.currentPathIndex]
  have hlt : action.st.currentStepIndex < path.steps.length :=
    not_le.mp fun hle => hrun.step ⟨path, hpath, hle⟩
  have hstep := List.getElem?_eq_getElem hlt
  set step := path.steps[action.st.currentStepIndex]
  obtain ⟨hpathIndex, hstepIndex, hcheckIndex, -⟩ :=
    started_index path input (actionRun asset action input)
  have hstartedPath : action.sequence.paths[(callRun asset action input path).1.currentPathIndex]? =
      some path := hpathIndex ▸ hpath
  obtain ⟨next, hnext, hexit, hstay⟩ := runStep_next haccepted input hstartedPath
    (hstepIndex ▸ hstep : path.steps[(callRun asset action input path).1.currentStepIndex]? =
      some step)
  have hleads : leadsTo action.sequence input path step (callRun asset action input path) =
      some next := (runStep_leadsTo hstartedPath).symm.trans hnext
  have hstarted : CheckNext (callRun asset action input path).1 := by
    rw [CheckNext, callRun, hstepIndex, hcheckIndex]
    exact hcheck
  set run := actionStep asset action input path step
  have hsame := sameCall_runStep action.sequence input step (callRun asset action input path)
  have hrange : ActionsInRange (asset.store ref run) := by
    obtain ⟨hquick, hname, -⟩ := update_pointer asset ref (withProgress run.1)
    have hall : AllActions (fun _ action => PathInRange action)
        (asset.update ref (withProgress run.1)) := by
      refine allActions_update h.inRange.inRange fun old hold => ?_
      obtain rfl : action = old := Option.some_inj.mp (hget.symm.trans hold)
      exact ⟨haccepted, (List.getElem?_eq_some_iff.mp hnext).1,
        checkNext_runStep action.sequence input step hstarted⟩
    exact h.inRange.of_sameConfig (sameConfig_store asset ref run) hall
      (fun _ _ => Or.inl hquick) (Or.inl hname)
  have hstored : (asset.store ref run).get? ref = some (withProgress run.1 action) := by
    rw [get?_store, hget]
    rfl
  have htrips : exitTimerTrips next run.2 = exitTimerTrips next (callRun asset action input path).2 :=
    SiteSequenceIndex.exitTimerTrips_congr next hsame.currentTime hsame.exitTargetTime
  have hcallPath : action.sequence.paths[run.1.currentPathIndex]? = some next := hnext
  have hconfig : config (withProgress run.1 action) = config action := rfl
  have hexiting : ∀ other old, asset.get? other = some old → old.status = .exiting →
      other.isShutdown = false ∧ other ≠ ref :=
    fun _ _ hold hs => exiting_other h hget hrun hold hs
  by_cases hdone : next.steps.length ≤ run.1.currentStepIndex
  · -- the last step exits, and its timer has not expired
    have hexits : StepExits action.sequence input step (callRun asset action input path) :=
      not_not.mp fun hne => absurd (hstay hne) (not_lt.mpr hdone)
    obtain ⟨rfl, hindex⟩ := hexit hexits
    have hlast : action.st.currentStepIndex + 1 = path.steps.length := by
      have hnextIndex : run.1.currentStepIndex = action.st.currentStepIndex + 1 :=
        hindex.trans (congrArg (· + 1) hstepIndex)
      omega
    have hwell := hclean.ends ⟨path, step, hpath, hstep, Or.inl ⟨hexits, hlast⟩⟩
    have hending : Ending (asset.store ref run) ref (withProgress run.1 action) .completed :=
      h.ending_store hget hrun hrange (Or.inl rfl) (fun _ => rfl) hwell
    have hcompleted : actionCompleted asset ref action path run =
        (asset.store ref run).exitAutomation ref (withProgress run.1 action) .completed := by
      rw [actionCompleted, AssetActions.completeAction, if_pos hdone]
      exact (exitAutomation_congr hconfig .completed).symm
    obtain ⟨after, hafter, hafterConfig, hprogress⟩ := actionCompleted_progress path run hget
    have hnotSelf : ¬ EntersItself asset ref action := by
      rintro ⟨hname, hshutdown, -⟩
      exact Bool.noConfusion (hshutdown.symm.trans (hwell.resolve_left hname).1)
    rw [if_neg fun hself => hnotSelf hself.2] at hprogress
    have hafterPath : after.sequence.paths[after.st.currentPathIndex]? = some path := by
      rw [show after.sequence = action.sequence from congrArg Prod.fst hafterConfig, hprogress]
      exact hcallPath
    obtain ⟨htime, htarget⟩ := actionCompleted_times asset ref action path run
    have hquiet : ¬ exitTimerTrips path
        (actionCompleted asset ref action path run).actionStatus = true := by
      rw [SiteSequenceIndex.exitTimerTrips_congr path htime htarget, htrips]
      exact fun htrip => hclean.late ⟨path, step, hpath, hstep, hlast, hexits, htrip⟩
    refine ⟨_, (callSequence_known hpath hstep hnext hafter).trans
      (timeoutAction_keeps hafterPath hquiet), ?_, ?_⟩
    · rw [hcompleted]
      exact hending.orderly
    · rw [hcompleted]
      exact hending.moves (sameStatuses_store asset ref run) hexiting (fun hs => absurd hs (by decide))
  · have hopen : ¬ AllStepsPast (withProgress run.1 action) := by
      rintro ⟨path', hpath', hle⟩
      obtain rfl : next = path' := Option.some_inj.mp (hcallPath.symm.trans hpath')
      exact hdone hle
    have hcompleted : actionCompleted asset ref action next run = asset.store ref run := by
      rw [actionCompleted, AssetActions.completeAction, if_neg hdone]
    have hcall := callSequence_known hpath hstep hnext (hcompleted ▸ hstored)
    rw [hcompleted] at hcall
    by_cases htrip : exitTimerTrips next (callRun asset action input path).2 = true
    · -- the timer of the step has expired
      have hwell := hclean.ends ⟨path, step, hpath, hstep, Or.inr ⟨next, hleads, htrip⟩⟩
      have hending : Ending (asset.store ref run) ref (withProgress run.1 action) .failed :=
        h.ending_store hget hrun hrange (Or.inr (Or.inl rfl)) (fun hpast => absurd hpast hopen)
          hwell
      have hfault : Ending ((asset.store ref run).setActionsFault next input) ref
          (withProgress run.1 action) .failed :=
        ⟨⟨hrange.inRange, hrange.access, hrange.named⟩, hending.get, hending.others,
          hending.separated, hending.entries, hending.terminal, hending.past, hending.well⟩
      refine ⟨_, hcall.trans (timeoutAction_fails hcallPath (not_le.mp hdone) (htrips.trans htrip)),
        hfault.orderly, hfault.moves (sameStatuses_store asset ref run) hexiting fun _ => ?_⟩
      exact ⟨rfl, path, hpath, hclean.timer path step next hpath hstep hleads htrip⟩
    · refine ⟨_, hcall.trans (timeoutAction_keeps hcallPath ?_), ?_, ?_⟩
      · change ¬ exitTimerTrips next run.2 = true
        rw [htrips]
        exact htrip
      · exact h.store hget hrun hrange hopen
      · exact (sameStatuses_store asset ref run).moves

end

/-! ## Restarts -/

theorem get?_clearAction (asset : AssetActions) (ref other : ActionRef) :
    (asset.clearAction ref).get? other =
      if other = ref then (asset.get? other).map (restart .inactive) else asset.get? other := by
  change (asset.update ref (restart .inactive)).get? other = _
  split_ifs with h
  · rw [h, get?_update_same]
  · exact get?_update_other _ _ h

variable {asset : AssetActions}

/-- Starting one action over, with the pointer and the name of an orderly asset,
or with the only action of a name to run. -/
theorem orderly_restart {asset after : AssetActions} {ref : ActionRef}
    {status : ActionStatusState} (h : Orderly asset) (hrange : ActionsInRange after)
    (hconfig : SameConfig asset after) (hstatus : status = .inProgress ∨ status = .inactive)
    (hget : ∀ other, after.get? other =
      if other = ref then (asset.get? other).map (restart status) else asset.get? other)
    (hquick : after.quickActionAccess = asset.quickActionAccess)
    (hname : after.currentSequenceName = asset.currentSequenceName ∨
      after.currentSequenceName = "" ∨ ref.isShutdown = false ∧ (∃ action, asset.get? ref = some action) ∧
        namedPositions asset.actions after.currentSequenceName = [ref.index]) : Orderly after := by
  have hmoved : ∀ other action, asset.get? other = some action →
      ∃ action', after.get? other = some action' ∧
        (other = ref ∨ Runnable action → Runnable action') ∧
        Law (shutdownPositions asset) other action' := by
    intro other action ha
    have haccepted := (h.inRange.inRange other action ha).accepted
    have hlaw := h.law other action ha
    by_cases hother : other = ref
    · obtain ⟨hrestarted, hrunnable⟩ := law_restart haccepted hlaw.separated hstatus
      exact ⟨_, by rw [hget, if_pos hother, ha]; rfl, fun _ => hrunnable, hrestarted⟩
    · exact ⟨action, by rw [hget, if_neg hother]; exact ha, fun hr => hr.resolve_left hother, hlaw⟩
  refine ⟨hrange, ?_, fun other hother => ?_, fun hnone hne => ?_⟩
  · intro other action' ha'
    rw [shutdownPositions_congr hconfig]
    obtain ⟨action, ha, -⟩ := get?_isSome_of_sameConfig
      ⟨hconfig.actions.symm, hconfig.shutdownActions.symm⟩ ha'
    obtain ⟨moved, hmoved', -, hlaw⟩ := hmoved other action ha
    obtain rfl : action' = moved := Option.some_inj.mp (ha'.symm.trans hmoved')
    exact hlaw
  · obtain ⟨action, ha, hr⟩ := h.pointed other (hquick ▸ hother)
    obtain ⟨action', ha', hr', -⟩ := hmoved other action ha
    exact ⟨action', ha', hr' (Or.inr hr)⟩
  · rw [namedPositions_congr hconfig.actions]
    rcases hname with hsame | hempty | ⟨hordinary, ⟨action, ha⟩, hpositions⟩
    · rw [hsame] at hne ⊢
      obtain ⟨index, action, hpositions, ha, hr⟩ := h.named (hquick ▸ hnone) hne
      obtain ⟨action', ha', hr', -⟩ := hmoved _ action ha
      exact ⟨index, action', hpositions, ha', hr' (Or.inr hr)⟩
    · exact absurd hempty hne
    · obtain ⟨action', ha', hr', -⟩ := hmoved ref action ha
      refine ⟨ref.index, action', hpositions, ?_, hr' (Or.inl rfl)⟩
      rw [← ha']
      exact congrArg after.get? (by rw [← hordinary])

/-- Clearing an action that is not exiting. -/
theorem clearAction_outcome {asset : AssetActions} {ref : ActionRef} {action : Action}
    (h : Orderly asset) (hget : asset.get? ref = some action) (hnot : action.status ≠ .exiting)
    {cause : ActionRef → Prop} {restarts : Prop} :
    Orderly (asset.clearAction ref) ∧ Moves asset (asset.clearAction ref) cause restarts := by
  have hconfig := sameConfig_update asset ref (restart .inactive) (fun _ => rfl)
  obtain ⟨hquick, hname, -⟩ := update_pointer asset ref (restart .inactive)
  refine ⟨orderly_restart h (h.inRange.clearAction ref)
    ⟨hconfig.actions, hconfig.shutdownActions⟩ (Or.inr rfl) (get?_clearAction asset ref) hquick
    (Or.inl hname), moves_restart (Or.inr rfl) (get?_clearAction asset ref) fun old hold hexiting => ?_⟩
  obtain rfl : old = action := Option.some_inj.mp (hold.symm.trans hget)
  exact absurd hexiting hnot

/-! ## Events -/

/-- Why an action may fail in an event: it runs, and its path is faulted or its
step has timed out. -/
def FailureCause (asset : AssetActions) (event : ActionEvent) (ref : ActionRef) : Prop :=
  match event with
  | .set _ _ _ => False
  | .tick input faulted _ => ∃ action, asset.locate = some ref ∧ asset.get? ref = some action ∧
    ((faulted = true ∧ action.isShutdownSequence = false) ∨ StepTimedOut asset action input)

/-- An operator starts an action. -/
def Starts : ActionEvent → Prop
  | .set _ .start _ => True
  | _ => False

/-- What an event does to every action of the asset. -/
structure OutcomeLaw (asset after : AssetActions) (event : ActionEvent) : Prop where
  /-- An action whose steps are all past is completed, or exiting to become so. -/
  completed : ∀ ref action, after.get? ref = some action → AllStepsPast action →
    EndsAs .completed action ∧ ¬ EndsAs .failed action
  /-- Failures have a cause, and exiting actions are released. -/
  moves : Moves asset after (FailureCause asset event) (Starts event)
  /-- At most one shutdown action has been entered for each start. -/
  once : ∀ ref action, after.get? ref = some action → action.shutdownEntries ≤ 1
  /-- An exiting action waits for a terminal status and an existing shutdown action. -/
  waits : ∀ ref action, after.get? ref = some action → action.status = .exiting →
    Terminal action.statusSwap ∧ shutdownPositions after action.shutdownSequence ≠ []

theorem not_endsAs_failed {action : Action} (h : EndsAs .completed action) :
    ¬ EndsAs .failed action := by
  rintro (hs | ⟨hs, hswap⟩)
  · rcases h with h | ⟨h, -⟩ <;> rw [hs] at h <;> exact absurd h (by decide)
  · rcases h with h | ⟨-, h⟩
    · rw [hs] at h
      exact absurd h (by decide)
    · rw [hswap] at h
      exact absurd h (by decide)

theorem outcomeLaw_of_orderly {after : AssetActions} {event : ActionEvent} (h : Orderly after)
    (hmoves : Moves asset after (FailureCause asset event) (Starts event)) :
    OutcomeLaw asset after event where
  completed ref action hget hpast :=
    ⟨(h.law ref action hget).past hpast, not_endsAs_failed ((h.law ref action hget).past hpast)⟩
  moves := hmoves
  once ref action hget := (h.law ref action hget).entries
  waits ref action hget hexiting := ((h.law ref action hget).exiting hexiting).2

/-- An event without defect: a start names a single action, and whatever ends an
action or calls it does so cleanly. -/
def CleanEvent (asset : AssetActions) : ActionEvent → Prop
  | .set actionId .start inMaintMode => asset.currentSequenceName = "" → inMaintMode = true →
      (namedPositions asset.actions actionId).length ≤ 1
  | .set actionId .stop _ => ∀ index action, (namedPositions asset.actions actionId).head? = some index →
      asset.actions[index]? = some action → asset.currentSequenceName = actionId →
      action.status = .inProgress → EndsWell (shutdownPositions asset) ⟨false, index⟩ action
  | .set _ _ _ => True
  | .tick input faulted inMaintMode => ∀ ref action, asset.currentSequenceName ≠ "" →
      inMaintMode = true → asset.locate = some ref → asset.get? ref = some action →
      if faulted = true ∧ action.isShutdownSequence = false then
        EndsWell (shutdownPositions asset) ref action
      else CleanCall asset ref action input

theorem orderly_publish (h : Orderly asset) : Orderly asset.publish :=
  ⟨⟨h.inRange.inRange, h.inRange.access, h.inRange.named⟩, h.law, h.pointed, h.named⟩

/-- A clean operator command. -/
theorem handleActionsSet_outcome (h : Orderly asset) {actionId : String}
    {desiredAction : DesiredAction} {inMaintMode : Bool}
    (hclean : CleanEvent asset (.set actionId desiredAction inMaintMode)) :
    Orderly (asset.handleActionsSet actionId desiredAction inMaintMode) ∧
      Moves asset (asset.handleActionsSet actionId desiredAction inMaintMode) (fun _ => False)
        (Starts (.set actionId desiredAction inMaintMode)) := by
  have hpub := orderly_publish h
  have hsame : ∀ restarts, Moves asset asset.publish (fun _ => False) restarts :=
    fun _ => (show SameStatuses asset asset.publish from fun _ => rfl).moves
  unfold AssetActions.handleActionsSet
  cases hhead : (namedPositions asset.actions actionId).head? with
  | none => exact ⟨h, SameStatuses.moves fun _ => rfl⟩
  | some index =>
    have hmem := List.mem_of_mem_head? hhead
    obtain ⟨action, hget, hname⟩ := (mem_namedPositions _ _ _).mp hmem
    have hgetRef : asset.publish.get? ⟨false, index⟩ = some action := hget
    dsimp only
    rw [hget]
    cases desiredAction with
    | unsupported => exact ⟨hpub, hsame _⟩
    | clear =>
      dsimp only
      split_ifs with hbusy
      · exact ⟨hpub, hsame _⟩
      · obtain ⟨hcleared, hmoves⟩ :=
          clearAction_outcome hpub hgetRef fun he => hbusy (Or.inr he)
        exact ⟨hcleared, hmoves.failed, hmoves.released⟩
    | stop =>
      dsimp only
      split_ifs with hstop
      · have hrun : Runnable action := ⟨Or.inl hstop.2, fun hpast => by
          rcases (h.law ⟨false, index⟩ action hget).past hpast with hs | ⟨hs, -⟩ <;>
            rw [hstop.2] at hs <;> exact absurd hs (by decide)⟩
        obtain ⟨hended, hmoves⟩ := exitAutomation_outcome hpub hgetRef hrun (Or.inr (Or.inr rfl))
          (hclean index action hhead hget hstop.1 hstop.2) (fun hs => absurd hs (by decide))
        exact ⟨hended, hmoves.failed, hmoves.released⟩
      · exact ⟨hpub, hsame _⟩
    | start =>
      dsimp only
      split_ifs with hbusy hmaint
      · exact ⟨hpub, hsame _⟩
      · have hidle := not_not.mp hbusy
        have hsingle : namedPositions asset.actions actionId = [index] := by
          obtain ⟨rest, hrest⟩ : ∃ rest, namedPositions asset.actions actionId = index :: rest :=
            List.head?_eq_some_iff.mp hhead
          have hlength := hclean hidle hmaint
          rw [hrest, List.length_cons] at hlength
          have hnil : rest = [] := List.length_eq_zero_iff.mp (by omega)
          rw [hrest, hnil]
        have hstarted := get?_enterAutomation asset.publish ⟨false, index⟩
        refine ⟨orderly_restart hpub (hpub.inRange.startAction hmem)
          (sameConfig_startAction asset.publish index actionId) (Or.inl rfl)
          (fun other => hstarted other actionId) (update_pointer _ _ _).1
          (Or.inr (Or.inr ⟨rfl, ⟨action, hgetRef⟩, hsingle⟩)),
          moves_restart (Or.inl rfl) (fun other => hstarted other actionId)
            (fun _ _ _ => ⟨trivial, rfl⟩)⟩
      · exact ⟨hpub, hsame _⟩

/-- A clean iteration. -/
theorem processAssetActions_outcome (h : Orderly asset) {input : CallInput}
    {faulted inMaintMode : Bool} (hclean : CleanEvent asset (.tick input faulted inMaintMode)) :
    ∃ after, asset.processAssetActions input faulted inMaintMode = .ok after ∧ Orderly after ∧
      Moves asset after (FailureCause asset (.tick input faulted inMaintMode)) False := by
  unfold AssetActions.processAssetActions
  by_cases hname : asset.currentSequenceName = ""
  · rw [if_pos hname]
    exact ⟨asset, rfl, h, SameStatuses.moves fun _ => rfl⟩
  obtain ⟨ref, action, hlocate, hget, hrun⟩ := h.located hname
  have hlocated := h.locate hget hrun
  rw [if_neg hname, hlocate]
  dsimp only
  cases inMaintMode with
  | false =>
    have hnot : action.status ≠ .exiting := by
      rcases hrun.status with hs | hs <;> rw [hs] <;> decide
    obtain ⟨hcleared, hmoves⟩ := @clearAction_outcome
      {asset with quickActionAccess := some ref} ref action hlocated hget hnot
      (FailureCause asset (.tick input faulted false)) False
    refine ⟨_, rfl, ⟨⟨hcleared.inRange.inRange, hcleared.inRange.access, fun hne => absurd rfl hne⟩,
      hcleared.law, hcleared.pointed, fun _ hne => absurd rfl hne⟩, hmoves.failed, hmoves.released⟩
  | true =>
    have hcall := hclean ref action hname rfl hlocate hget
    have hgetLocated : ({asset with quickActionAccess := some ref} : AssetActions).get? ref =
      some action := hget
    rw [if_pos rfl, AssetActions.process, hgetLocated]
    dsimp only
    by_cases hfault : faulted = true ∧ action.isShutdownSequence = false
    · rw [if_pos hfault] at hcall
      rw [if_pos (by rw [hfault.1, hfault.2]; rfl)]
      have hcause : ActionStatusState.failed = .failed →
          FailureCause asset (.tick input faulted true) ref :=
        fun _ => ⟨action, hlocate, hget, Or.inl hfault⟩
      obtain ⟨hended, hmoves⟩ := @exitAutomation_outcome _ _ _ hlocated hgetLocated hrun
        .failed (Or.inr (Or.inl rfl)) hcall _ False hcause
      exact ⟨_, rfl, hended, hmoves.failed, hmoves.released⟩
    · rw [if_neg hfault] at hcall
      rw [if_neg fun hboth => hfault (by simpa [and_comm] using hboth)]
      obtain ⟨after, hafter, hkept, hmoves⟩ := callSequence_outcome hlocated hgetLocated hrun
        (⟨hcall.late, hcall.timer, hcall.ends⟩ :
          CleanCall {asset with quickActionAccess := some ref} ref action input) False
      refine ⟨after, hafter, hkept, fun other old new hold hnew hfailed hnot => ?_, hmoves.released⟩
      obtain ⟨rfl, htimedOut⟩ := hmoves.failed other old new hold hnew hfailed hnot
      exact ⟨action, hlocate, hget, Or.inr htimedOut⟩

/-- A clean event succeeds, keeps the asset orderly and obeys the laws. -/
theorem step_outcome (h : Orderly asset) {event : ActionEvent} (hclean : CleanEvent asset event) :
    ∃ after, asset.step event = .ok after ∧ Orderly after ∧ OutcomeLaw asset after event := by
  cases event with
  | set actionId desiredAction inMaintMode =>
    obtain ⟨hkept, hmoves⟩ := handleActionsSet_outcome h hclean
    exact ⟨_, rfl, hkept, outcomeLaw_of_orderly hkept ⟨fun ref old new hold hnew hf hn =>
      (hmoves.failed ref old new hold hnew hf hn).elim, hmoves.released⟩⟩
  | tick input faulted inMaintMode =>
    obtain ⟨after, hafter, hkept, hmoves⟩ := processAssetActions_outcome h hclean
    exact ⟨after, hafter, hkept, outcomeLaw_of_orderly hkept hmoves⟩

/-! ## Runs -/

/-- An asset whose actions have just been parsed: the shutdown actions are kept
apart, and nothing has run. -/
structure Configured (asset : AssetActions) : Prop where
  constructed : Constructed asset
  separated : ∀ ref action, asset.get? ref = some action →
    action.isShutdownSequence = ref.isShutdown
  entries : ∀ ref action, asset.get? ref = some action → action.shutdownEntries = 0

theorem Configured.orderly (h : Configured asset) : Orderly asset where
  inRange := h.constructed.inRange
  law ref action hget := by
    obtain ⟨haccepted, hstatus, targets, hst⟩ := h.constructed.action ref action hget
    refine ⟨h.separated ref action hget, ?_, (h.entries ref action hget).le.trans (Nat.zero_le 1),
      fun _ => h.entries ref action hget, ?_⟩
    · rintro ⟨path, hpath, hlength⟩
      rw [hst] at hlength
      have hnil := List.length_eq_zero_iff.mp (Nat.le_zero.mp hlength)
      exact absurd hnil (haccepted.steps path (List.mem_of_getElem? hpath))
    · rw [hstatus]
      exact fun he => absurd he (by decide)
  pointed ref hquick := by
    rw [h.constructed.quickActionAccess] at hquick
    exact absurd hquick (by simp)
  named _ hne := absurd h.constructed.currentSequenceName hne

/-- In a run of clean events from a configured asset every event succeeds and
obeys the laws. -/
theorem guarded_outcomes (asset : AssetActions) (h : Configured asset) (events : List ActionEvent)
    (hclean : Guarded AssetActions.step CleanEvent asset events) :
    Guarded AssetActions.step (fun asset event =>
      ∃ after, asset.step event = .ok after ∧ OutcomeLaw asset after event) asset events := by
  refine guarded_law Orderly (fun asset event hs hg => ?_) h.orderly hclean
  obtain ⟨after, hafter, hkept, hlaw⟩ := step_outcome hs hg
  refine ⟨⟨after, hafter, hlaw⟩, fun other hother => ?_⟩
  rw [hafter, Except.ok.injEq] at hother
  exact hother ▸ hkept

/-! ## A shutdown action that does not exist -/

/-- A path of one step without a timeout. -/
def chargeSequence : Sequence where
  sequenceName := "Charge"
  state := .init
  sequenceType := .assetEss
  paths := [{
    pathName := "main"
    returnState := .init
    timeout := -1
    steps := [{
      stepName := "start"
      entryActions := [⟨"/start", 0⟩]
      exitConditions := [⟨"/get_soc", 0⟩]
      pathSwitch := false
      nextPath := 0 }] }]

theorem chargeSequence_accepted : chargeSequence.Accepted where
  paths := by decide
  steps := by decide
  nextPath := by decide

/-- An asset with one action that names a shutdown action. -/
def chargeAsset (shutdownSequence : String) : AssetActions where
  actions := [{
    sequence := chargeSequence
    st := initialState fun _ _ _ => ⟨0, 0⟩
    status := .inactive
    statusSwap := .inactive
    isShutdownSequence := false
    shutdownSequence := shutdownSequence
    shutdownEntries := 0 }]
  shutdownActions := []
  actionStatus := lateStatus
  currentSequenceName := ""
  quickActionAccess := none
  actionsFault := false

theorem chargeAsset_configured (shutdownSequence : String) :
    Configured (chargeAsset shutdownSequence) := by
  have hsingle : ∀ ref action, (chargeAsset shutdownSequence).get? ref = some action →
      ref.isShutdown = false ∧ (chargeAsset shutdownSequence).actions = [action] := by
    rintro ⟨isShutdown, index⟩ action hget
    cases isShutdown with
    | true => exact absurd hget (by simp [AssetActions.get?, AssetActions.vector, chargeAsset])
    | false =>
      cases index with
      | zero =>
        cases hget
        exact ⟨rfl, rfl⟩
      | succ index =>
        exact absurd hget (by simp [AssetActions.get?, AssetActions.vector, chargeAsset])
  refine ⟨⟨rfl, rfl, fun ref action hget => ?_⟩, fun ref action hget => ?_, fun ref action hget => ?_⟩
  · obtain ⟨-, hactions⟩ := hsingle ref action hget
    cases hactions
    exact ⟨chargeSequence_accepted, rfl, _, rfl⟩
  · obtain ⟨hordinary, hactions⟩ := hsingle ref action hget
    cases hactions
    exact hordinary.symm
  · obtain ⟨-, hactions⟩ := hsingle ref action hget
    cases hactions
    rfl

theorem guarded_outcomes_chargeAsset :
    Guarded AssetActions.step (fun asset event =>
      ∃ after, asset.step event = .ok after ∧ OutcomeLaw asset after event) (chargeAsset "")
      [.set "Charge" .start true, .set "Charge" .stop true] := by
  refine guarded_outcomes (chargeAsset "") (chargeAsset_configured "")
    [.set "Charge" .start true, .set "Charge" .stop true] ⟨fun _ _ => by decide, fun s hs => ?_⟩
  cases hs
  refine ⟨fun index action hindex haction _ _ => Or.inl ?_, fun _ _ => trivial⟩
  cases hindex
  cases haction
  rfl

/-- Stopped while no shutdown action has the name it gives, the action exits for
good: it waits to be aborted, and calls go on. -/
theorem chargeAsset_stays_exiting :
    Configured (chargeAsset "Idle") ∧ shutdownPositions (chargeAsset "Idle") "Idle" = [] ∧
    (run AssetActions.step (chargeAsset "Idle") [.set "Charge" .start true,
        .tick (callAt 0 false) false true, .set "Charge" .stop true,
        .tick (callAt 1 false) false true, .tick (callAt 2 false) false true]).map
      (fun asset => asset.actions.map statuses) = .ok [(.exiting, .aborted)] :=
  ⟨chargeAsset_configured "Idle", by decide, by decide⟩

end HybridOs.SiteActionRuns
