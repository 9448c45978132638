import HybridOs.SiteSequence

/-!
# One call of a sequence

What a call does when its current path and step are known: the resets, the
entry and exit of the step, the completion and the timeout, each as a function
without checks, and the equations that say a call is their composition.
-/

namespace HybridOs.SiteSequenceStep

open SiteUtils SiteSequence

/-! ## Clock arithmetic -/

/-- Seconds are a thousand million nanoseconds. -/
theorem nanos_addSeconds (time : Timespec) (seconds : ℤ) :
    (addSeconds time seconds).nanos = time.nanos + seconds * 1000000000 := by
  unfold addSeconds Timespec.nanos
  ring

/-- Adding seconds keeps a time valid. -/
theorem valid_addSeconds {time : Timespec} (h : time.Valid) (seconds : ℤ) :
    (addSeconds time seconds).Valid := h

/-! ## A call on a known step -/

/-- The run after the entry attempt of a call on a known step. -/
def entered (sequence : Sequence) (input : CallInput) (step : Step) (run : Run) : Run :=
  if run.1.checkCurrentStepIndex = run.1.currentStepIndex then enterStep sequence input step run
  else run

/-- Entry and exit of a call on a known step. -/
def runStep (sequence : Sequence) (input : CallInput) (step : Step) (run : Run) : Run :=
  let run := entered sequence input step (noteChange run)
  if run.1.checkCurrentStepIndex > run.1.currentStepIndex then exitStep sequence input step run
  else run

variable (run : Run)

/-- Noting a change leaves the state of the sequence. -/
theorem noteChange_fst : (noteChange run).1 = run.1 := by
  unfold noteChange
  split_ifs <;> rfl

variable (sequence : Sequence) (input : CallInput) (step : Step)

/-- Entering a step stays at the step. -/
theorem entered_index (run : Run) :
    (entered sequence input step run).1.currentPathIndex = run.1.currentPathIndex ∧
    (entered sequence input step run).1.currentStepIndex = run.1.currentStepIndex := by
  unfold entered
  split_ifs <;> exact ⟨rfl, rfl⟩

/-- At a step that exists the call runs it. -/
theorem callSequenceStep_eq {sequence : Sequence} {run : Run} {step : Step} (input : CallInput)
    (h : sequence.stepAt run.1.currentPathIndex run.1.currentStepIndex = .ok step) :
    callSequenceStep sequence input run = .ok (runStep sequence input step run) := by
  have hchange : checkPathStepChange sequence run = .ok (noteChange run) := by
    unfold checkPathStepChange
    rw [h]
    split_ifs with hflag
    · rfl
    · rw [noteChange, if_neg hflag]
      rfl
  have hentry : tryEntry sequence input (noteChange run) =
      .ok (entered sequence input step (noteChange run)) := by
    unfold tryEntry callSequenceEntry entered
    rw [noteChange_fst, h]
    split_ifs <;> rfl
  have hexit : tryExit sequence input (entered sequence input step (noteChange run)) =
      .ok (runStep sequence input step run) := by
    obtain ⟨hpath, hindex⟩ := entered_index sequence input step (noteChange run)
    rw [tryExit, runStep]
    split_ifs
    · rw [callSequenceExit, hpath, hindex, noteChange_fst, h]
      rfl
    · rfl
  rw [callSequenceStep, hchange]
  change (tryEntry sequence input (noteChange run) >>= _) = _
  rw [hentry]
  exact hexit

/-! ## What a call on a known step does -/

/-- The step exits in this call: its entry has succeeded and one of its exit
conditions contributes `true`. -/
def StepExits (sequence : Sequence) (input : CallInput) (step : Step) (run : Run) : Prop :=
  (entered sequence input step (noteChange run)).1.checkCurrentStepIndex >
    (entered sequence input step (noteChange run)).1.currentStepIndex ∧
  (exitLoop sequence input (entered sequence input step (noteChange run)).1 step).returnValue =
    true

instance (sequence : Sequence) (input : CallInput) (step : Step) (run : Run) :
    Decidable (StepExits sequence input step run) := inferInstanceAs (Decidable (_ ∧ _))

/-- The first failed exit of the step takes its path switch in this call: some
condition failed without waiting for its debounce timer. -/
def StepSwitches (sequence : Sequence) (input : CallInput) (step : Step) (run : Run) : Prop :=
  let st := (entered sequence input step (noteChange run)).1
  st.checkCurrentStepIndex > st.currentStepIndex ∧
  (exitLoop sequence input st step).returnValue = false ∧ st.initialExitAttempt = true ∧
  step.pathSwitch = true ∧
  ExitFailure.conditional ∈ (exitLoop sequence input st step).reasonForExitFailure

instance (sequence : Sequence) (input : CallInput) (step : Step) (run : Run) :
    Decidable (StepSwitches sequence input step run) :=
  inferInstanceAs (Decidable (_ ∧ _ ∧ _ ∧ _ ∧ _))

/-- The first attempt to exit may switch the path. -/
theorem handleInitialExitAttempt_eq (run : Run) (reasons : List ExitFailure) :
    handleInitialExitAttempt step run reasons =
      if step.pathSwitch = true ∧ ExitFailure.conditional ∈ reasons then ({run.1 with
          initialExitAttempt := false
          stepReset := true
          currentPathIndex := step.nextPath
          currentStepIndex := 0
          checkCurrentStepIndex := 0},
         {run.2 with pathChange := true, stepChange := true})
      else ({run.1 with initialExitAttempt := false}, run.2) := by
  induction reasons with
  | nil => simp [handleInitialExitAttempt]
  | cons reason rest ih =>
    cases reason with
    | debounce => simpa [handleInitialExitAttempt] using ih
    | conditional =>
      rw [handleInitialExitAttempt, ih]
      cases step.pathSwitch <;> simp

/-- A failed exit stays on the step or takes its path switch. -/
theorem handleInitialExitAttempt_cases (run : Run) (reasons : List ExitFailure) :
    (step.pathSwitch = true ∧ handleInitialExitAttempt step run reasons =
      ({run.1 with
        initialExitAttempt := false
        stepReset := true
        currentPathIndex := step.nextPath
        currentStepIndex := 0
        checkCurrentStepIndex := 0},
       {run.2 with pathChange := true, stepChange := true})) ∨
    handleInitialExitAttempt step run reasons =
      ({run.1 with initialExitAttempt := false}, run.2) := by
  rw [handleInitialExitAttempt_eq]
  split_ifs with h
  · exact Or.inl ⟨h.1, rfl⟩
  · exact Or.inr rfl

/-- What no entry or exit touches. -/
structure SameCall (run next : Run) : Prop where
  bypass : next.1.sequenceBypass = run.1.sequenceBypass
  currentState : next.2.currentState = run.2.currentState
  sequenceReset : next.2.sequenceReset = run.2.sequenceReset
  currentTime : next.2.currentTime = run.2.currentTime
  exitTargetTime : next.2.exitTargetTime = run.2.exitTargetTime

/-- Entering a step belongs to the same call. -/
theorem sameCall_entered (run : Run) :
    SameCall run (entered sequence input step (noteChange run)) := by
  unfold entered noteChange
  split_ifs <;> exact ⟨rfl, rfl, rfl, rfl, rfl⟩

/-- Entering a step leaves the reset flag. -/
theorem entered_stepReset (run : Run) :
    (entered sequence input step (noteChange run)).1.stepReset = run.1.stepReset := by
  unfold entered noteChange
  split_ifs <;> rfl

/-- Leaving a step belongs to the same call. -/
theorem sameCall_exitStep (run : Run) : SameCall run (exitStep sequence input step run) := by
  unfold exitStep
  dsimp only
  split_ifs
  · exact ⟨rfl, rfl, rfl, rfl, rfl⟩
  · rcases handleInitialExitAttempt_cases step
      (storeExitLoop run.1 (exitLoop sequence input run.1 step), run.2)
      (exitLoop sequence input run.1 step).reasonForExitFailure with ⟨-, h⟩ | h
    all_goals
      rw [h]
      exact ⟨rfl, rfl, rfl, rfl, rfl⟩
  · exact ⟨rfl, rfl, rfl, rfl, rfl⟩

/-- So does running it. -/
theorem sameCall_runStep (run : Run) : SameCall run (runStep sequence input step run) := by
  have hentered := sameCall_entered sequence input step run
  rw [runStep]
  split_ifs
  · have hexit := sameCall_exitStep sequence input step
      (entered sequence input step (noteChange run))
    exact ⟨hexit.bypass.trans hentered.bypass, hexit.currentState.trans hentered.currentState,
      hexit.sequenceReset.trans hentered.sequenceReset,
      hexit.currentTime.trans hentered.currentTime,
      hexit.exitTargetTime.trans hentered.exitTargetTime⟩
  · exact hentered

/-- The check index is at the current step, or just past it. -/
def CheckNext (st : SequenceState) : Prop :=
  st.checkCurrentStepIndex = st.currentStepIndex ∨
    st.checkCurrentStepIndex = st.currentStepIndex + 1

/-- Entering a step keeps what the next check looks at. -/
theorem checkNext_entered {run : Run}
    (h : CheckNext run.1) : CheckNext (entered sequence input step (noteChange run)).1 := by
  rw [← noteChange_fst run] at h
  unfold entered enterStep
  dsimp only
  split_ifs with hcheck
  · exact Or.inr (congrArg (· + 1) hcheck)
  · exact h
  · exact h

/-- So does running it. -/
theorem checkNext_runStep {run : Run}
    (h : CheckNext run.1) : CheckNext (runStep sequence input step run).1 := by
  have hentered := checkNext_entered sequence input step h
  rw [runStep]
  split_ifs with hpast
  · rw [exitStep]
    split_ifs
    · exact Or.inl (hentered.resolve_left hpast.ne')
    · rcases handleInitialExitAttempt_cases step
        (storeExitLoop (entered sequence input step (noteChange run)).1
          (exitLoop sequence input (entered sequence input step (noteChange run)).1 step),
          (entered sequence input step (noteChange run)).2)
        (exitLoop sequence input (entered sequence input step (noteChange run)).1
          step).reasonForExitFailure with ⟨-, hnext⟩ | hnext
      · rw [hnext]
        exact Or.inl rfl
      · rw [hnext]
        exact hentered
    · exact hentered
  · exact hentered

variable {run} {sequence} {input} {step}

/-- The index moves past the step exactly when the step exits. -/
theorem runStep_exits (h : StepExits sequence input step run) :
    (runStep sequence input step run).1.currentPathIndex = run.1.currentPathIndex ∧
    (runStep sequence input step run).1.currentStepIndex = run.1.currentStepIndex + 1 ∧
    (runStep sequence input step run).1.stepReset = true := by
  obtain ⟨hpast, hreturn⟩ := h
  obtain ⟨hpath, hindex⟩ := entered_index sequence input step (noteChange run)
  rw [noteChange_fst] at hpath hindex
  rw [runStep, if_pos hpast, exitStep]
  rw [if_pos hreturn]
  exact ⟨hpath, congrArg (· + 1) hindex, rfl⟩

/-- A path switch moves to the first step of the next path. -/
theorem runStep_switches (h : StepSwitches sequence input step run) :
    (runStep sequence input step run).1.currentPathIndex = step.nextPath ∧
    (runStep sequence input step run).1.currentStepIndex = 0 ∧
    (runStep sequence input step run).1.stepReset = true := by
  obtain ⟨hpast, hreturn, hinitial, hswitch, hreason⟩ := h
  rw [runStep, if_pos hpast, exitStep]
  have hstored : (storeExitLoop (entered sequence input step (noteChange run)).1
      (exitLoop sequence input (entered sequence input step
        (noteChange run)).1 step)).initialExitAttempt = true := hinitial
  rw [if_neg (by rw [hreturn]; decide), if_pos hstored, handleInitialExitAttempt_eq,
    if_pos ⟨hswitch, hreason⟩]
  exact ⟨rfl, rfl, rfl⟩

/-- A step that neither exits nor switches stays. -/
theorem runStep_stays (hexits : ¬ StepExits sequence input step run)
    (hswitches : ¬ StepSwitches sequence input step run) :
    (runStep sequence input step run).1.currentPathIndex = run.1.currentPathIndex ∧
    (runStep sequence input step run).1.currentStepIndex = run.1.currentStepIndex ∧
    (runStep sequence input step run).1.stepReset = run.1.stepReset := by
  obtain ⟨hpath, hindex⟩ := entered_index sequence input step (noteChange run)
  have hreset := entered_stepReset sequence input step run
  rw [noteChange_fst] at hpath hindex
  rw [runStep]
  split_ifs with hpast
  · have hreturn : ¬ (exitLoop sequence input
        (entered sequence input step (noteChange run)).1 step).returnValue = true :=
      fun hr => hexits ⟨hpast, hr⟩
    rw [exitStep]
    split_ifs with hinitial
    · rw [handleInitialExitAttempt_eq, if_neg fun h => hswitches
        ⟨hpast, Bool.eq_false_iff.mpr hreturn, hinitial, h.1, h.2⟩]
      exact ⟨hpath, hindex, hreset⟩
    · exact ⟨hpath, hindex, hreset⟩
  · exact ⟨hpath, hindex, hreset⟩

/-- A step that does not exit stays, or switches the path. -/
theorem runStep_not_exits (h : ¬ StepExits sequence input step run) :
    (step.pathSwitch = true ∧
      (runStep sequence input step run).1.currentPathIndex = step.nextPath ∧
      (runStep sequence input step run).1.currentStepIndex = 0 ∧
      (runStep sequence input step run).1.stepReset = true) ∨
    ((runStep sequence input step run).1.currentPathIndex = run.1.currentPathIndex ∧
      (runStep sequence input step run).1.currentStepIndex = run.1.currentStepIndex ∧
      (runStep sequence input step run).1.stepReset = run.1.stepReset) := by
  by_cases hswitches : StepSwitches sequence input step run
  · exact Or.inl ⟨hswitches.2.2.2.1, runStep_switches hswitches⟩
  · exact Or.inr (runStep_stays h hswitches)

variable {path : Path}

/-- In an accepted configuration a call on a known step leads to an existing
path, and past its end only by exiting the last step. -/
theorem runStep_next (ha : sequence.Accepted) (input : CallInput)
    (hpath : sequence.paths[run.1.currentPathIndex]? = some path)
    (hstep : path.steps[run.1.currentStepIndex]? = some step) :
    ∃ next, sequence.paths[(runStep sequence input step run).1.currentPathIndex]? = some next ∧
      (StepExits sequence input step run → next = path ∧
        (runStep sequence input step run).1.currentStepIndex = run.1.currentStepIndex + 1) ∧
      (¬ StepExits sequence input step run →
        (runStep sequence input step run).1.currentStepIndex < next.steps.length) := by
  by_cases hexits : StepExits sequence input step run
  · obtain ⟨hsamePath, hnextStep, -⟩ := runStep_exits hexits
    exact ⟨path, hsamePath ▸ hpath, fun _ => ⟨rfl, hnextStep⟩, fun h => absurd hexits h⟩
  · rcases runStep_not_exits hexits with ⟨hswitch, hswitchPath, hzero, -⟩ |
      ⟨hsamePath, hsameStep, -⟩
    · have hbound := ha.nextPath path (List.mem_of_getElem? hpath) step
        (List.mem_of_getElem? hstep) hswitch
      refine ⟨sequence.paths[step.nextPath], ?_, fun h => absurd h hexits, fun _ => ?_⟩
      · rw [hswitchPath]
        exact List.getElem?_eq_getElem hbound
      · rw [hzero]
        exact List.length_pos_of_ne_nil (ha.steps _ (List.getElem_mem hbound))
    · refine ⟨path, hsamePath ▸ hpath, fun h => absurd h hexits, fun _ => ?_⟩
      rw [hsameStep]
      exact (List.getElem?_eq_some_iff.mp hstep).1

/-! ## The whole call -/

/-- A path that exists is found. -/
theorem pathAt_ok {index : ℕ} (h : sequence.paths[index]? = some path) :
    sequence.pathAt index = .ok path := by
  rw [Sequence.pathAt, h]

/-- So is a step. -/
theorem stepAt_ok {pathIndex stepIndex : ℕ} (hpath : sequence.paths[pathIndex]? = some path)
    (hstep : path.steps[stepIndex]? = some step) :
    sequence.stepAt pathIndex stepIndex = .ok step := by
  rw [Sequence.stepAt, pathAt_ok hpath]
  change path.stepAt stepIndex = _
  rw [Path.stepAt, hstep]

/-- Once the steps are past, entry and exit read past the end. -/
theorem callSequenceStep_past (input : CallInput)
    (hpath : sequence.paths[run.1.currentPathIndex]? = some path)
    (hpast : path.steps.length ≤ run.1.currentStepIndex) (hcheck : CheckNext run.1) :
    callSequenceStep sequence input run = .error .steps := by
  have hat : sequence.stepAt run.1.currentPathIndex run.1.currentStepIndex = .error .steps := by
    rw [Sequence.stepAt, pathAt_ok hpath]
    change path.stepAt run.1.currentStepIndex = _
    rw [Path.stepAt, List.getElem?_eq_none hpast]
  rw [callSequenceStep, checkPathStepChange]
  split_ifs
  · rw [hat]
    rfl
  · change (tryEntry sequence input run >>= _) = _
    rw [tryEntry]
    split_ifs with hentry
    · rw [callSequenceEntry, hat]
      rfl
    · change tryExit sequence input run = _
      rw [tryExit, if_pos (by rcases hcheck with h | h <;> omega), callSequenceExit, hat]
      rfl

/-- The step reset on a known path. -/
def started (path : Path) (input : CallInput) (run : Run) : Run :=
  if run.1.stepReset then startStep path input run else run

/-- The run past the two resets, on a known path. -/
def prepared (path : Path) (input : CallInput) (run : Run) : Run :=
  started path input (trySequenceReset input run)

/-- Starting a path stays at its step. -/
theorem started_index (path : Path) (input : CallInput) (run : Run) :
    (started path input run).1.currentPathIndex = run.1.currentPathIndex ∧
    (started path input run).1.currentStepIndex = run.1.currentStepIndex ∧
    (started path input run).1.checkCurrentStepIndex = run.1.checkCurrentStepIndex ∧
    (started path input run).1.sequenceBypass = run.1.sequenceBypass ∧
    (started path input run).1.stepReset = false ∧
    (started path input run).2.currentTime = run.2.currentTime := by
  unfold started
  split_ifs with h
  · exact ⟨rfl, rfl, rfl, rfl, rfl, rfl⟩
  · exact ⟨rfl, rfl, rfl, rfl, Bool.eq_false_iff.mpr h, rfl⟩

/-- In a path that exists the step is started. -/
theorem tryStepReset_eq (input : CallInput)
    (h : sequence.paths[run.1.currentPathIndex]? = some path) :
    tryStepReset sequence input run = .ok (started path input run) := by
  unfold tryStepReset started resetStep
  rw [pathAt_ok h]
  split_ifs <;> rfl

/-- A call on a bypassed sequence only resets. -/
theorem callSequence_bypassed
    (hpath : sequence.paths[(trySequenceReset input run).1.currentPathIndex]? = some path)
    (hbypass : (trySequenceReset input run).1.sequenceBypass = true) :
    callSequence sequence input run = .ok (prepared path input run, false) := by
  have hprepared : (prepared path input run).1.sequenceBypass = true :=
    (started_index path input (trySequenceReset input run)).2.2.2.1.trans hbypass
  rw [callSequence, tryStepReset_eq input hpath]
  exact if_pos hprepared

/-- A call on an active sequence runs its step, completes and times out. -/
theorem callSequence_active {next : Path}
    (hpath : sequence.paths[(trySequenceReset input run).1.currentPathIndex]? = some path)
    (hbypass : (trySequenceReset input run).1.sequenceBypass = false)
    (hstep : path.steps[(trySequenceReset input run).1.currentStepIndex]? = some step)
    (hnext : sequence.paths[(runStep sequence input step
      (prepared path input run)).1.currentPathIndex]? = some next) :
    callSequence sequence input run = checkTimeout next input
      (completeSequence next (runStep sequence input step (prepared path input run))) := by
  obtain ⟨hpathIndex, hstepIndex, -, hsame, -, -⟩ :=
    started_index path input (trySequenceReset input run)
  have hprepared : ¬ (prepared path input run).1.sequenceBypass = true := by
    rw [prepared, hsame, hbypass]
    decide
  have hat : sequence.stepAt (prepared path input run).1.currentPathIndex
      (prepared path input run).1.currentStepIndex = .ok step := by
    rw [prepared, hpathIndex, hstepIndex]
    exact stepAt_ok hpath hstep
  rw [callSequence, tryStepReset_eq input hpath]
  change (if (prepared path input run).1.sequenceBypass = true then
    pure (prepared path input run, false)
    else callActiveSequence sequence input (prepared path input run)) = _
  rw [if_neg hprepared, callActiveSequence, callSequenceStep_eq input hat]
  change (sequence.pathAt _ >>= _) = _
  rw [pathAt_ok hnext]
  rfl

/-- A sequence reset leaves the state or starts the step anew. -/
theorem trySequenceReset_st (input : CallInput) (run : Run) :
    (trySequenceReset input run).1 = run.1 ∨
    (trySequenceReset input run).1.checkCurrentStepIndex =
        (trySequenceReset input run).1.currentStepIndex ∧
      (trySequenceReset input run).1.debounceTargetTime = run.1.debounceTargetTime := by
  unfold trySequenceReset
  dsimp only
  split_ifs
  · exact Or.inr ⟨rfl, rfl⟩
  · exact Or.inl rfl

/-- The sequence is active on a step of a path. -/
structure AtStep (sequence : Sequence) (st : SequenceState) (path : Path) (step : Step) :
    Prop where
  active : st.sequenceBypass = false
  pathAt : sequence.paths[st.currentPathIndex]? = some path
  stepAt : path.steps[st.currentStepIndex]? = some step

/-- A state is at one step. -/
theorem AtStep.unique {st : SequenceState} {path' : Path} {step' : Step}
    (h : AtStep sequence st path step) (h' : AtStep sequence st path' step') :
    path = path' ∧ step = step' := by
  obtain rfl : path = path' := Option.some_inj.mp (h.pathAt.symm.trans h'.pathAt)
  exact ⟨rfl, Option.some_inj.mp (h.stepAt.symm.trans h'.stepAt)⟩

/-- Completing a sequence moves no index. -/
theorem completeSequence_index (path : Path) (run : Run) :
    (completeSequence path run).1.currentPathIndex = run.1.currentPathIndex ∧
    (completeSequence path run).1.currentStepIndex = run.1.currentStepIndex ∧
    (completeSequence path run).1.stepReset = run.1.stepReset ∧
    (completeSequence path run).2.currentTime = run.2.currentTime ∧
    (completeSequence path run).2.exitTargetTime = run.2.exitTargetTime ∧
    (completeSequence path run).2.sequenceReset = run.2.sequenceReset := by
  unfold completeSequence
  split_ifs <;> exact ⟨rfl, rfl, rfl, rfl, rfl, rfl⟩

/-- A sequence is bypassed from then on if its path has ended. -/
theorem completeSequence_bypass (path : Path) (run : Run) :
    (completeSequence path run).1.sequenceBypass = true ↔
      run.1.sequenceBypass = true ∨ path.steps.length ≤ run.1.currentStepIndex := by
  unfold completeSequence
  split_ifs with h
  · exact ⟨fun _ => Or.inr h, fun _ => rfl⟩
  · exact ⟨Or.inl, fun hor => hor.resolve_right h⟩

end HybridOs.SiteSequenceStep
