import HybridOs.SiteExitLoop
import HybridOs.SiteSequenceIndex

/-!
# Debounce timers over whole runs

An observer notes for every exit condition since when it has been watched
without a false result: the later of the start of the exit phase and its last
false result. A debounced condition should contribute `true` only once it has
been watched for its timer. The code starts every timer from a shared flag and
in whole seconds, so it does this along runs in which no timer misses its
restart and no cut millisecond matters.
-/

namespace HybridOs.SiteDebounce

open SiteUtils SiteSequence SiteSequenceStep SiteSequenceIndex SiteExitLoop CheckedRun

/-! ## The observer -/

/-- Since when each exit condition has been watched without a false result. A
call that enters the step begins its exit phase. -/
def watch (input : CallInput) (st : SequenceState) (since : ℕ → Timespec) : ℕ → Timespec :=
  fun i =>
    if st.checkCurrentStepIndex = st.currentStepIndex ∨ input.exitResult i = false then
      input.debounceClock i
    else since i

/-- A run and what the observer has noted. -/
abbrev Watched := Run × (ℕ → Timespec)

/-- One call, observed. -/
def watchStep (sequence : Sequence) (watched : Watched) (input : CallInput) :
    Except BadRead Watched :=
  (sequenceStep sequence watched.1 input).map fun next =>
    (next, watch input (trySequenceReset input watched.1).1 watched.2)

/-! ## What a call should do and when it does -/

/-- The state in which a call on a known step tries the exit. -/
def exitState (sequence : Sequence) (input : CallInput) (path : Path) (step : Step)
    (run : Run) : SequenceState :=
  (entered sequence input step (noteChange (prepared path input run))).1

/-- The exit of the step is tried and evaluates a debounced condition as true. -/
structure EvaluatesTrue (sequence : Sequence) (input : CallInput) (run : Run) (path : Path)
    (step : Step) (i : ℕ) (action : StepAction) : Prop where
  atStep : AtStep sequence (trySequenceReset input run).1 path step
  tried : (exitState sequence input path step run).checkCurrentStepIndex >
    (exitState sequence input path step run).currentStepIndex
  condition : step.exitConditions[i]? = some action
  debounced : action.debounceTimerMs ≠ 0
  evaluated : Evaluated sequence.sequenceType step.exitConditions i
  result : input.exitResult i = true

/-- A debounced condition that contributes `true` to the exit has been watched
for all of its timer. -/
def WaitsFully (sequence : Sequence) (watched : Watched) (input : CallInput) : Prop :=
  ∀ path step i action, EvaluatesTrue sequence input watched.1 path step i action →
    checkExpiredTime input.currentTime ((exitLoop sequence input
      (exitState sequence input path step watched.1) step).debounceTargetTime i) = true →
    (watch input (trySequenceReset input watched.1).1 watched.2 i).nanos +
      action.debounceTimerMs * 1000000 ≤ input.currentTime.nanos

/-- The target the condition is tested against: the call that enters the step
restarts the first debounced timer. -/
def testedTarget (input : CallInput) (st : SequenceState) (step : Step) (i : ℕ)
    (action : StepAction) : Timespec :=
  if st.checkCurrentStepIndex = st.currentStepIndex ∧
      flagAt true step.exitConditions i = true then
    restartTarget input action i
  else storedTarget st i

/-- No timer misses its restart: a true debounced condition in a call that enters
the step is the first debounced one, or its stored target is no earlier than
the restarted one. No cut millisecond matters: where the timer is not in
whole seconds, its rest has passed too once the target has. -/
def KeepsTimers (sequence : Sequence) (run : Run) (input : CallInput) : Prop :=
  let st := (trySequenceReset input run).1
  ∀ path step i action, EvaluatesTrue sequence input run path step i action →
    (st.checkCurrentStepIndex = st.currentStepIndex → flagAt true step.exitConditions i = false →
      (restartTarget input action i).nanos ≤ (storedTarget st i).nanos) ∧
    (action.debounceTimerMs.tmod 1000 ≠ 0 →
      checkExpiredTime input.currentTime (testedTarget input st step i action) = true →
      (testedTarget input st step i action).nanos +
        action.debounceTimerMs.tmod 1000 * 1000000 ≤ input.currentTime.nanos)

/-! ## The timers of one call -/

/-- The whole seconds of a timer and its rest. -/
theorem debounceSeconds_add_rest (debounceTimerMs : ℤ) :
    debounceSeconds debounceTimerMs * 1000000000 + debounceTimerMs.tmod 1000 * 1000000 =
      debounceTimerMs * 1000000 := by
  have h := Int.tmod_add_mul_tdiv debounceTimerMs 1000
  unfold debounceSeconds
  omega

/-- The state in which the exit is tried: only a call that enters the step
changes the timers before, by setting the flag. -/
theorem exitState_timers (sequence : Sequence) (input : CallInput) (path : Path) (step : Step)
    (run : Run) :
    (exitState sequence input path step run).currentPathIndex =
        (trySequenceReset input run).1.currentPathIndex ∧
    (exitState sequence input path step run).currentStepIndex =
        (trySequenceReset input run).1.currentStepIndex ∧
    (exitState sequence input path step run).debounceTargetTime =
        (trySequenceReset input run).1.debounceTargetTime ∧
    (exitState sequence input path step run).debounceReset =
      if (trySequenceReset input run).1.checkCurrentStepIndex =
          (trySequenceReset input run).1.currentStepIndex then true
      else (trySequenceReset input run).1.debounceReset := by
  unfold exitState prepared
  generalize trySequenceReset input run = run
  obtain ⟨hpath, hstep, hcheck, -⟩ := started_index path input run
  have hstarted : (started path input run).1.debounceTargetTime = run.1.debounceTargetTime ∧
      (started path input run).1.debounceReset = run.1.debounceReset := by
    unfold started
    split_ifs <;> exact ⟨rfl, rfl⟩
  rw [← noteChange_fst (started path input run)] at hpath hstep hcheck hstarted
  unfold entered
  rw [hcheck, hstep]
  split_ifs
  · exact ⟨hpath, hstep, hstarted.1, rfl⟩
  · exact ⟨hpath, hstep, hstarted.1, hstarted.2⟩

/-- What the code keeps of the observed timers between two calls. -/
structure Timers (sequence : Sequence) (watched : Watched) : Prop where
  inRange : InRange sequence watched.1.1
  check : CheckNext watched.1.1
  valid : ∀ path step i, (watched.1.1.debounceTargetTime path step i).Valid
  started : ∀ path step i action, AtStep sequence watched.1.1 path step →
    watched.1.1.checkCurrentStepIndex ≠ watched.1.1.currentStepIndex →
    step.exitConditions[i]? = some action → action.debounceTimerMs ≠ 0 →
    Evaluated sequence.sequenceType step.exitConditions i →
    watched.1.1.debounceReset = false ∧
      (watched.2 i).nanos + debounceSeconds action.debounceTimerMs * 1000000000 ≤
        (storedTarget watched.1.1 i).nanos

section

variable {sequence : Sequence} {watched : Watched} {input : CallInput} {path : Path}
  {step : Step} {i : ℕ} {action : StepAction}

/-- After the loop the target of every evaluated condition lies its whole
seconds after the observed start; a true one was tested against its tested
target. -/
theorem exitLoop_timers (h : Timers sequence watched)
    (hkeeps : KeepsTimers sequence watched.1 input)
    (hat : AtStep sequence (trySequenceReset input watched.1).1 path step)
    (htried : (exitState sequence input path step watched.1).checkCurrentStepIndex >
      (exitState sequence input path step watched.1).currentStepIndex)
    (hget : step.exitConditions[i]? = some action) (htimer : action.debounceTimerMs ≠ 0)
    (heval : Evaluated sequence.sequenceType step.exitConditions i) :
    (watch input (trySequenceReset input watched.1).1 watched.2 i).nanos +
        debounceSeconds action.debounceTimerMs * 1000000000 ≤
      ((exitLoop sequence input (exitState sequence input path step watched.1)
        step).debounceTargetTime i).nanos ∧
    (input.exitResult i = true →
      (exitLoop sequence input (exitState sequence input path step watched.1)
        step).debounceTargetTime i =
      testedTarget input (trySequenceReset input watched.1).1 step i action) := by
  obtain ⟨hpathIndex, hstepIndex, htargets, hflag⟩ :=
    exitState_timers sequence input path step watched.1
  have hstored : storedTarget (exitState sequence input path step watched.1) i =
      storedTarget (trySequenceReset input watched.1).1 i := by
    rw [storedTarget, storedTarget, htargets, hpathIndex, hstepIndex]
  rw [exitLoop_target input _ hget htimer heval, hflag, hstored]
  unfold watch testedTarget
  have hrestart : (restartTarget input action i).nanos = (input.debounceClock i).nanos +
      debounceSeconds action.debounceTimerMs * 1000000000 := nanos_addSeconds _ _
  by_cases henters : (trySequenceReset input watched.1).1.checkCurrentStepIndex =
      (trySequenceReset input watched.1).1.currentStepIndex
  · rw [if_pos henters, if_pos (Or.inl henters)]
    cases hresult : input.exitResult i with
    | false => simp [hrestart]
    | true =>
      cases hfirst : flagAt true step.exitConditions i with
      | true => simp [hrestart, henters]
      | false =>
        have hlate := (hkeeps path step i action
          ⟨hat, htried, hget, htimer, heval, hresult⟩).1 henters hfirst
        simp only [Bool.not_true, Bool.or_self, Bool.false_eq_true, and_false]
        exact ⟨by rw [← hrestart]; exact hlate, fun _ => trivial⟩
  · have hsame : (trySequenceReset input watched.1).1 = watched.1.1 :=
      (trySequenceReset_st input watched.1).resolve_right fun h => henters h.1
    rw [hsame] at hat henters ⊢
    obtain ⟨hcleared, hstarted⟩ := h.started path step i action hat henters hget htimer heval
    rw [if_neg henters, hcleared]
    cases hresult : input.exitResult i with
    | false => simp [hrestart]
    | true =>
      simp only [flagAt, Bool.false_and, Bool.not_true, Bool.or_self, henters, false_and, Bool.false_eq_true]
      exact ⟨hstarted, fun _ => trivial⟩

end

/-- The loop only stores clock readings with whole seconds added. -/
theorem valid_handleExitAction {sequenceType : SequenceType} {input : CallInput}
    (hclock : ∀ i, (input.debounceClock i).Valid) (conditions : List StepAction) (index : ℕ)
    (loop : ExitLoop) (h : ∀ i, (loop.debounceTargetTime i).Valid) (i : ℕ) :
    ((handleExitAction sequenceType input conditions index loop).debounceTargetTime i).Valid := by
  induction conditions generalizing index loop with
  | nil => exact h i
  | cons action rest ih =>
    by_cases hends : (split action.route).isEmpty = true ∨ sequenceType.hasFunctions = false
    · rw [handleExitAction, if_pos hends]
      exact h i
    · rw [handleExitAction_cons hends]
      refine ih _ _ fun j => ?_
      by_cases hj : j = index
      · subst hj
        by_cases htimer : action.debounceTimerMs = 0
        · rw [exitCondition, if_pos htimer]
          exact h j
        · rw [exitCondition_target_same _ _ _ _ _ _ htimer]
          split_ifs
          · exact valid_addSeconds (hclock j) _
          · exact h j
      · rw [exitCondition_target_other _ _ _ _ _ hj]
        exact h j

theorem storeExitLoop_target (st : SequenceState) (loop : ExitLoop) (i : ℕ) :
    storedTarget (storeExitLoop st loop) i = loop.debounceTargetTime i :=
  if_pos ⟨rfl, rfl⟩

/-- A call that tries the exit either stands at the entry of a step afterwards,
or still waits for the exit with what the loop stored. -/
theorem runStep_waits (sequence : Sequence) (input : CallInput) (step : Step) {run : Run}
    (hcheck : CheckNext (entered sequence input step (noteChange run)).1)
    (htried : (entered sequence input step (noteChange run)).1.checkCurrentStepIndex >
      (entered sequence input step (noteChange run)).1.currentStepIndex) :
    (runStep sequence input step run).1.debounceTargetTime =
      (storeExitLoop (entered sequence input step (noteChange run)).1 (exitLoop sequence input
        (entered sequence input step (noteChange run)).1 step)).debounceTargetTime ∧
    ((runStep sequence input step run).1.checkCurrentStepIndex =
        (runStep sequence input step run).1.currentStepIndex ∨
      (runStep sequence input step run).1.currentPathIndex =
        (entered sequence input step (noteChange run)).1.currentPathIndex ∧
      (runStep sequence input step run).1.currentStepIndex =
        (entered sequence input step (noteChange run)).1.currentStepIndex ∧
      (runStep sequence input step run).1.debounceReset = (exitLoop sequence input
        (entered sequence input step (noteChange run)).1 step).debounceReset) := by
  rw [runStep, if_pos htried, exitStep]
  dsimp only
  split_ifs
  · exact ⟨rfl, Or.inl (hcheck.resolve_left htried.ne')⟩
  · rcases handleInitialExitAttempt_cases step
      (storeExitLoop (entered sequence input step (noteChange run)).1
        (exitLoop sequence input (entered sequence input step (noteChange run)).1 step),
        (entered sequence input step (noteChange run)).2)
      (exitLoop sequence input (entered sequence input step (noteChange run)).1
        step).reasonForExitFailure with ⟨-, hnext⟩ | hnext
    · rw [hnext]
      exact ⟨rfl, Or.inl rfl⟩
    · rw [hnext]
      exact ⟨rfl, Or.inr ⟨rfl, rfl, rfl⟩⟩
  · exact ⟨rfl, Or.inr ⟨rfl, rfl, rfl⟩⟩

/-- The clock readings of a call are normalized. -/
structure ValidClocks (input : CallInput) : Prop where
  currentTime : input.currentTime.Valid
  debounceClock : ∀ i, (input.debounceClock i).Valid

section

variable {sequence : Sequence} {watched : Watched} {input : CallInput}

section

variable (h : Timers sequence watched) (hclock : ValidClocks input)
include h hclock

theorem Timers.valid_exitLoop (path : Path) (step : Step) (i : ℕ) :
    ((exitLoop sequence input (exitState sequence input path step watched.1)
      step).debounceTargetTime i).Valid := by
  refine valid_handleExitAction hclock.debounceClock _ _ _ (fun j => ?_) i
  dsimp only
  rw [(exitState_timers sequence input path step watched.1).2.2.1]
  rcases trySequenceReset_st input watched.1 with hsame | ⟨-, htargets⟩
  · rw [hsame]
    exact h.valid _ _ j
  · rw [htargets]
    exact h.valid _ _ j

/-- A condition that contributes `true` has been watched for all of its timer. -/
theorem Timers.waitsFully (hkeeps : KeepsTimers sequence watched.1 input) :
    WaitsFully sequence watched input := by
  intro path step i action htrue hexpired
  obtain ⟨hat, htried, hget, htimer, heval, hresult⟩ := htrue
  obtain ⟨hstarted, htested⟩ := exitLoop_timers h hkeeps hat htried hget htimer heval
  have hvalid := h.valid_exitLoop hclock path step i
  have hsplit := debounceSeconds_add_rest action.debounceTimerMs
  have hpassed := nanos_lt_of_expired hclock.currentTime hvalid hexpired
  have hrest := (hkeeps path step i action ⟨hat, htried, hget, htimer, heval, hresult⟩).2
  rw [← htested hresult] at hrest
  by_cases hwhole : action.debounceTimerMs.tmod 1000 = 0
  · rw [hwhole] at hsplit
    omega
  · have hall := hrest hwhole hexpired
    omega

/-- What an active call leaves of the timers, before it completes. -/
theorem Timers.of_runStep (hkeeps : KeepsTimers sequence watched.1 input)
    (hresetCheck : CheckNext (trySequenceReset input watched.1).1) {path : Path} {step : Step}
    (hat : AtStep sequence (trySequenceReset input watched.1).1 path step) {after : SequenceState}
    (hafter : after = (runStep sequence input step (prepared path input watched.1)).1) :
    CheckNext after ∧ (∀ p s i, (after.debounceTargetTime p s i).Valid) ∧
    ∀ path' step' i action, AtStep sequence after path' step' →
      after.checkCurrentStepIndex ≠ after.currentStepIndex →
      step'.exitConditions[i]? = some action → action.debounceTimerMs ≠ 0 →
      Evaluated sequence.sequenceType step'.exitConditions i →
      after.debounceReset = false ∧
        (watch input (trySequenceReset input watched.1).1 watched.2 i).nanos +
            debounceSeconds action.debounceTimerMs * 1000000000 ≤ (storedTarget after i).nanos := by
  subst hafter
  have hprepared : CheckNext (prepared path input watched.1).1 := by
    obtain ⟨-, hstepIndex, hcheckIndex, -⟩ :=
      started_index path input (trySequenceReset input watched.1)
    rw [CheckNext, prepared, hstepIndex, hcheckIndex]
    exact hresetCheck
  have hexitCheck : CheckNext (exitState sequence input path step watched.1) :=
    checkNext_entered sequence input step hprepared
  obtain ⟨hpathIndex, hstepIndex, htargets, -⟩ :=
    exitState_timers sequence input path step watched.1
  have hexitValid : ∀ p s i,
      ((exitState sequence input path step watched.1).debounceTargetTime p s i).Valid := by
    intro p s i
    rw [htargets]
    rcases trySequenceReset_st input watched.1 with hsame | ⟨-, hsame⟩
    · rw [hsame]
      exact h.valid p s i
    · rw [hsame]
      exact h.valid p s i
  refine ⟨checkNext_runStep sequence input step hprepared, ?_⟩
  by_cases htried : (exitState sequence input path step watched.1).checkCurrentStepIndex >
      (exitState sequence input path step watched.1).currentStepIndex
  · obtain ⟨hstore, hwaits⟩ := runStep_waits sequence input step hexitCheck htried
    refine ⟨fun p s i => ?_, fun path' step' i action hat' hne hget htimer heval => ?_⟩
    · rw [hstore, storeExitLoop]
      dsimp only
      split_ifs
      · exact h.valid_exitLoop hclock path step i
      · exact hexitValid p s i
    · obtain ⟨hsamePath, hsameStep, hflag⟩ := hwaits.resolve_left hne
      have hatSame : AtStep sequence (trySequenceReset input watched.1).1 path' step' := by
        refine ⟨hat.active, ?_, ?_⟩
        · rw [← hpathIndex]
          exact (congrArg (sequence.paths[·]?) hsamePath).symm.trans hat'.pathAt
        · rw [← hstepIndex]
          exact (congrArg (path'.steps[·]?) hsameStep).symm.trans hat'.stepAt
      obtain ⟨rfl, rfl⟩ := hat.unique hatSame
      refine ⟨hflag.trans (exitLoop_debounceReset input _ hget htimer heval), ?_⟩
      have htarget : storedTarget (runStep sequence input step
          (prepared path input watched.1)).1 i = (exitLoop sequence input
            (exitState sequence input path step watched.1) step).debounceTargetTime i := by
        rw [← storeExitLoop_target (exitState sequence input path step watched.1)]
        unfold storedTarget
        rw [hsamePath, hsameStep, hstore]
        rfl
      rw [htarget]
      exact (exitLoop_timers h hkeeps hat htried hget htimer heval).1
  · have hstay : (runStep sequence input step
        (prepared path input watched.1)).1 = exitState sequence input path step watched.1 := by
      unfold exitState at htried ⊢
      rw [runStep, if_neg htried]
    rw [hstay]
    refine ⟨hexitValid, fun _ _ _ _ _ hne => absurd ?_ hne⟩
    rcases hexitCheck with heq | hpast
    · exact heq
    · omega

end

/-- A call keeps the timers in step with the observer. -/
theorem Timers.of_watchStep (ha : sequence.Accepted) (h : Timers sequence watched)
    (hclock : ValidClocks input) (hkeeps : KeepsTimers sequence watched.1 input)
    {next : Watched} (hnext : watchStep sequence watched input = .ok next) :
    Timers sequence next := by
  unfold watchStep sequenceStep at hnext
  cases hcall : callSequence sequence input watched.1 with
  | error e =>
    rw [hcall] at hnext
    exact absurd hnext (by simp [Except.map])
  | ok result =>
  rw [hcall] at hnext
  cases hnext
  have hrange := (callSequence_ok_iff ha input h.inRange).2 result hcall
  have hresetCheck : CheckNext (trySequenceReset input watched.1).1 := by
    rcases trySequenceReset_st input watched.1 with hsame | ⟨hcheck, -⟩
    · rw [hsame]
      exact h.check
    · exact Or.inl hcheck
  have hresetValid : ∀ p s i,
      ((trySequenceReset input watched.1).1.debounceTargetTime p s i).Valid := by
    intro p s i
    rcases trySequenceReset_st input watched.1 with hsame | ⟨-, htargets⟩
    · rw [hsame]
      exact h.valid p s i
    · rw [htargets]
      exact h.valid p s i
  rcases callSequence_cases ha h.inRange hcall with
    ⟨hbypass, path, rfl⟩ | ⟨path, step, nextPath, hat, hnextPath, hresult⟩
  · obtain ⟨-, hstepIndex, hcheckIndex, hbypassSame, -⟩ :=
      started_index path input (trySequenceReset input watched.1)
    have htargets : (prepared path input watched.1).1.debounceTargetTime =
        (trySequenceReset input watched.1).1.debounceTargetTime := by
      unfold prepared SiteSequenceStep.started
      split_ifs <;> rfl
    refine ⟨hrange, ?_, fun p s i => ?_, fun path' step' i action hat => ?_⟩
    · dsimp only
      rw [CheckNext, prepared, hstepIndex, hcheckIndex]
      exact hresetCheck
    · dsimp only
      rw [htargets]
      exact hresetValid p s i
    · have hactive := hat.active
      rw [prepared, hbypassSame, hbypass] at hactive
      exact absurd hactive (by decide)
  · obtain ⟨hcheck, hvalid, hstarted⟩ := h.of_runStep hclock hkeeps hresetCheck hat rfl
    rw [checkTimeout_fst hresult] at hrange
    refine ⟨by rw [checkTimeout_fst hresult]; exact hrange, ?_, ?_, ?_⟩
    all_goals
      rw [checkTimeout_fst hresult]
      unfold completeSequence
    · split_ifs
      · exact hcheck
      · exact hcheck
    · split_ifs
      · exact hvalid
      · exact hvalid
    · split_ifs
      · intro path' step' i action hat'
        exact Bool.noConfusion hat'.active
      · exact hstarted

end

/-! ## Runs -/

/-- What a sequence and its observer start with. -/
def watchedStart (targets : ℕ → ℕ → ℕ → Timespec) (status : SequencesStatus)
    (since : ℕ → Timespec) : Watched :=
  ((initialState targets, status), since)

theorem timers_watchedStart {sequence : Sequence} (ha : sequence.Accepted)
    {targets : ℕ → ℕ → ℕ → Timespec} (htargets : ∀ path step i, (targets path step i).Valid)
    (status : SequencesStatus) (since : ℕ → Timespec) :
    Timers sequence (watchedStart targets status since) where
  inRange := inRange_initialState ha targets
  check := Or.inl rfl
  valid := htargets
  started _ _ _ _ _ hne := absurd rfl hne

/-- Along a run whose calls keep their timers, a debounced condition contributes
`true` only once it has been watched without a false result for all of its
timer. -/
theorem guarded_waitsFully (sequence : Sequence) (ha : sequence.Accepted)
    (targets : ℕ → ℕ → ℕ → Timespec) (htargets : ∀ path step i, (targets path step i).Valid)
    (status : SequencesStatus) (since : ℕ → Timespec) (inputs : List CallInput)
    (hclock : ∀ input ∈ inputs, ValidClocks input)
    (hkeeps : Guarded (watchStep sequence) (fun watched => KeepsTimers sequence watched.1)
      (watchedStart targets status since) inputs) :
    Guarded (watchStep sequence) (WaitsFully sequence) (watchedStart targets status since)
      inputs := by
  have hstart := timers_watchedStart ha htargets status since
  generalize watchedStart targets status since = watched at hkeeps hstart
  induction inputs generalizing watched with
  | nil => trivial
  | cons input rest ih =>
    have hinput := hclock input (List.mem_cons_self ..)
    refine ⟨hstart.waitsFully hinput hkeeps.1, fun next hnext => ?_⟩
    exact ih (fun other hother => hclock other (List.mem_cons_of_mem _ hother)) next
      (hkeeps.2 next hnext) (hstart.of_watchStep ha hinput hkeeps.1 hnext)

/-- A step with at most one debounced exit condition, all timers in whole
seconds. -/
def OneWholeTimer (step : Step) : Prop :=
  ∀ i action, step.exitConditions[i]? = some action → action.debounceTimerMs ≠ 0 →
    flagAt true step.exitConditions i = true ∧ action.debounceTimerMs.tmod 1000 = 0

/-- Sequences of such steps keep their timers in every call. -/
theorem keepsTimers_of_oneWholeTimer {sequence : Sequence}
    (h : ∀ path ∈ sequence.paths, ∀ step ∈ path.steps, OneWholeTimer step) (run : Run)
    (input : CallInput) : KeepsTimers sequence run input := by
  intro path step i action htrue
  have hstep := h path (List.mem_of_getElem? htrue.atStep.pathAt) step
    (List.mem_of_getElem? htrue.atStep.stepAt)
  obtain ⟨hfirst, hwhole⟩ := hstep i action htrue.condition htrue.debounced
  refine ⟨fun _ hlater => ?_, fun hcut => absurd hwhole hcut⟩
  rw [hfirst] at hlater
  exact Bool.noConfusion hlater

/-! ## Two debounced conditions -/

/-- One step that waits for the exit conditions. -/
def waitingSequence (exitConditions : List StepAction) : Sequence where
  sequenceName := "Startup"
  state := .startup
  sequenceType := .site
  paths := [{
    pathName := "main"
    returnState := .ready
    timeout := -1
    steps := [{
      stepName := "close breakers"
      entryActions := [⟨"/feeders/close", 0⟩]
      exitConditions := exitConditions
      pathSwitch := false
      nextPath := 0 }] }]

theorem waitingSequence_accepted (exitConditions : List StepAction) :
    (waitingSequence exitConditions).Accepted where
  paths := by simp [waitingSequence]
  steps := by simp [waitingSequence]
  nextPath := by simp [waitingSequence]

/-- A call at a number of seconds: the first exit condition gives `first`, the
others are true. -/
def callAt (seconds : ℤ) (first : Bool) : CallInput where
  sequenceReset := false
  currentTime := ⟨seconds, 0⟩
  resetClock := ⟨seconds, 0⟩
  debounceClock _ := ⟨seconds, 0⟩
  timeoutClock := ⟨seconds, 0⟩
  entryResult _ := true
  exitResult i := if i = 0 then first else true

theorem validClocks_callAt (seconds : ℤ) (first : Bool) : ValidClocks (callAt seconds first) :=
  have hwhole : (⟨seconds, 0⟩ : Timespec).Valid := ⟨le_refl (0 : ℤ), by norm_num⟩
  ⟨hwhole, fun _ => hwhole⟩

/-- The shared status at construction. -/
def startStatus : SequencesStatus where
  currentState := .startup
  stepChange := false
  pathChange := false
  sequenceReset := false
  shouldPub := false
  currentTime := ⟨0, 0⟩
  exitTargetTime := ⟨0, 0⟩

theorem guarded_waitsFully_oneTimer :
    Guarded (watchStep (waitingSequence [⟨"/feeders/closed", 5000⟩]))
      (WaitsFully (waitingSequence [⟨"/feeders/closed", 5000⟩]))
      (watchedStart (fun _ _ _ => ⟨0, 0⟩) startStatus fun _ => ⟨0, 0⟩)
      [callAt 100 true, callAt 106 true] := by
  refine guarded_waitsFully (waitingSequence [⟨"/feeders/closed", 5000⟩])
    (waitingSequence_accepted _) (fun _ _ _ => ⟨0, 0⟩) (fun _ _ _ => by decide) startStatus
    (fun _ => ⟨0, 0⟩) [callAt 100 true, callAt 106 true] ?_
    (guarded_of_forall (fun (watched : Watched) input =>
      keepsTimers_of_oneWholeTimer ?_ watched.1 input) _ _)
  · intro input hinput
    rcases List.mem_pair.mp hinput with rfl | rfl
    · exact validClocks_callAt 100 true
    · exact validClocks_callAt 106 true
  · simp only [waitingSequence, List.mem_singleton, forall_eq]
    rintro (_ | i) action hget -
    · cases hget
      decide
    · exact absurd hget (by simp)

/-- The second of two conditions contributes `true` in the call that enters the
step, although its timer is five seconds. -/
theorem twoTimers_not_waitsFully :
    (waitingSequence [⟨"/feeders/closed", 5000⟩, ⟨"/ess/running", 5000⟩]).Accepted ∧
    ¬ Guarded (watchStep (waitingSequence [⟨"/feeders/closed", 5000⟩, ⟨"/ess/running", 5000⟩]))
      (WaitsFully (waitingSequence [⟨"/feeders/closed", 5000⟩, ⟨"/ess/running", 5000⟩]))
      (watchedStart (fun _ _ _ => ⟨0, 0⟩) startStatus fun _ => ⟨0, 0⟩) [callAt 100 false] := by
  refine ⟨waitingSequence_accepted _, fun h => ?_⟩
  have hwaits := h.1 _ _ 1 ⟨"/ess/running", 5000⟩ ⟨⟨rfl, rfl, rfl⟩, by decide, rfl, by decide,
    by intro action ha; fin_cases ha <;> decide, rfl⟩ (by decide)
  exact absurd hwaits (by decide)

end HybridOs.SiteDebounce
