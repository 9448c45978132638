import HybridOs.SiteSequenceIndex

/-!
# Step timeouts over whole runs

An observer notes since when the current step has been the current one: a clock
reading after the call that moved to it, or of the call that reset the
sequence. The timeout fault should only be raised in a call that stays on a
step which has been current for longer than the timeout of its path. A call
that leaves a step still tests the timer of that step, against the path it has
led to.
-/

namespace HybridOs.SiteSequenceTimeout

open SiteUtils SiteSequence SiteSequenceStep SiteSequenceIndex CheckedRun

/-! ## The observer -/

/-- The call leaves the current step, by its exit or by a path switch. -/
def leavesStep (sequence : Sequence) (input : CallInput) (run : Run) : Bool :=
  let st := (trySequenceReset input run).1
  match sequence.paths[st.currentPathIndex]? with
  | none => false
  | some path =>
    match path.steps[st.currentStepIndex]? with
    | none => false
    | some step => !st.sequenceBypass &&
        (decide (StepExits sequence input step (prepared path input run)) ||
          decide (StepSwitches sequence input step (prepared path input run)))

/-- Since when the step of a call has been current: a reset of the sequence
makes its first step current. -/
def stepSince (input : CallInput) (run : Run) (since : Timespec) : Timespec :=
  if run.2.sequenceReset || input.sequenceReset then input.resetClock else since

/-- Since when the step has been current after a call. -/
def sinceAfter (sequence : Sequence) (input : CallInput) (run : Run) (since : Timespec) :
    Timespec :=
  if leavesStep sequence input run then input.timeoutClock else stepSince input run since

/-- A run and since when its step has been current. -/
abbrev Timed := Run × Timespec

/-- One call, timed. -/
def timedStep (sequence : Sequence) (timed : Timed) (input : CallInput) : Except BadRead Timed :=
  (sequenceStep sequence timed.1 input).map fun next =>
    (next, sinceAfter sequence input timed.1 timed.2)

/-! ## What a call should do and when it does -/

/-- The call takes the timeout branch: it sets the fault, or reads past the end
for the name of the step. -/
def RaisesFault (sequence : Sequence) (input : CallInput) (run : Run) : Prop :=
  (∃ next, callSequence sequence input run = .ok (next, true)) ∨
    callSequence sequence input run = .error .steps

/-- A call that raises the fault stays on its step, which has been current for
longer than the timeout of its path. -/
def FaultsOnTime (sequence : Sequence) (timed : Timed) (input : CallInput) : Prop :=
  RaisesFault sequence input timed.1 →
    leavesStep sequence input timed.1 = false ∧
    ∃ path step, AtStep sequence (trySequenceReset input timed.1).1 path step ∧
      path.timeout ≠ -1 ∧
      (stepSince input timed.1 timed.2).nanos + path.timeout * 1000000000 <
        input.currentTime.nanos

/-- The path a call that leaves the step leads to. -/
def ledTo (sequence : Sequence) (input : CallInput) (path : Path) (step : Step) (run : Run) :
    Option Path :=
  if StepExits sequence input step (prepared path input run) then some path
  else sequence.paths[step.nextPath]?

/-- The call leaves the step for a path with a timeout, and the timer of the step
it leaves has run out; without a timeout that timer is the clock reading at the
start of the step. -/
def LeavesLate (sequence : Sequence) (run : Run) (input : CallInput) : Prop :=
  leavesStep sequence input run = true ∧
    ∃ path step next, AtStep sequence (trySequenceReset input run).1 path step ∧
      ledTo sequence input path step run = some next ∧
      exitTimerTrips next (prepared path input run).2 = true

/-- The readings of a run are normalized and never go back. -/
def ClockOrdered : Timespec → List CallInput → Prop
  | _, [] => True
  | last, input :: rest =>
    input.currentTime.Valid ∧ input.resetClock.Valid ∧ input.timeoutClock.Valid ∧
    last.nanos ≤ input.currentTime.nanos ∧ input.currentTime.nanos ≤ input.resetClock.nanos ∧
    input.resetClock.nanos ≤ input.timeoutClock.nanos ∧ ClockOrdered input.timeoutClock rest

/-! ## One call -/

variable {run : Run} {path : Path} {step : Step} {input : CallInput} {sequence : Sequence}

theorem leavesStep_iff (hat : AtStep sequence (trySequenceReset input run).1 path step) :
    leavesStep sequence input run = true ↔
      StepExits sequence input step (prepared path input run) ∨
        StepSwitches sequence input step (prepared path input run) := by
  unfold leavesStep
  simp only [hat.pathAt, hat.stepAt, hat.active, Bool.not_false, Bool.true_and, Bool.or_eq_true,
    decide_eq_true_eq]

/-- Where an active call leads, and how it leaves the reset flag of the step. -/
theorem runStep_ledTo {next : Path} (hat : AtStep sequence (trySequenceReset input run).1 path step)
    (hnext : sequence.paths[(runStep sequence input step
      (prepared path input run)).1.currentPathIndex]? = some next) :
    (if leavesStep sequence input run then ledTo sequence input path step run = some next
      else path = next) ∧
    (runStep sequence input step (prepared path input run)).1.stepReset =
      leavesStep sequence input run := by
  obtain ⟨hpathIndex, -, -, -, hreset, -⟩ := started_index path input (trySequenceReset input run)
  have hsame : sequence.paths[(prepared path input run).1.currentPathIndex]? = some path :=
    hpathIndex ▸ hat.pathAt
  by_cases hexits : StepExits sequence input step (prepared path input run)
  · have hleaves := (leavesStep_iff hat).mpr (Or.inl hexits)
    obtain ⟨hstays, -, hresetNext⟩ := runStep_exits hexits
    rw [if_pos hleaves, ledTo, if_pos hexits, hresetNext, hleaves]
    rw [hstays, hsame] at hnext
    exact ⟨hnext, rfl⟩
  by_cases hswitches : StepSwitches sequence input step (prepared path input run)
  · have hleaves := (leavesStep_iff hat).mpr (Or.inr hswitches)
    obtain ⟨hmoves, -, hresetNext⟩ := runStep_switches hswitches
    rw [if_pos hleaves, ledTo, if_neg hexits, hresetNext, hleaves]
    rw [hmoves] at hnext
    exact ⟨hnext, rfl⟩
  · have hleaves : leavesStep sequence input run = false :=
      Bool.eq_false_iff.mpr fun h => ((leavesStep_iff hat).mp h).elim hexits hswitches
    obtain ⟨hstays, -, hresetNext⟩ := runStep_stays hexits hswitches
    rw [hleaves, if_neg (by decide), hresetNext]
    rw [hstays, hsame] at hnext
    exact ⟨Option.some_inj.mp hnext, hreset⟩

/-- An active call raises the fault exactly when the timer that ran for its step
trips on the path it has led to. -/
theorem raisesFault_iff {next : Path}
    (hat : AtStep sequence (trySequenceReset input run).1 path step)
    (hnext : sequence.paths[(runStep sequence input step
      (prepared path input run)).1.currentPathIndex]? = some next) :
    RaisesFault sequence input run ↔ exitTimerTrips next (prepared path input run).2 = true := by
  have hsame := sameCall_runStep sequence input step (prepared path input run)
  obtain ⟨-, -, -, htime, htarget, -⟩ := completeSequence_index next
    (runStep sequence input step (prepared path input run))
  have htrips : exitTimerTrips next (completeSequence next
      (runStep sequence input step (prepared path input run))).2 =
      exitTimerTrips next (prepared path input run).2 :=
    exitTimerTrips_congr next (htime.trans hsame.currentTime) (htarget.trans hsame.exitTargetTime)
  unfold RaisesFault
  rw [callSequence_active hat.pathAt hat.active hat.stepAt hnext, checkTimeout, htrips]
  cases exitTimerTrips next (prepared path input run).2 with
  | false => simp [pure, Except.pure]
  | true =>
    rw [if_pos rfl, Path.stepAt]
    cases next.steps[(completeSequence next (runStep sequence input step
        (prepared path input run))).1.currentStepIndex]? with
    | none => exact ⟨fun _ => rfl, fun _ => Or.inr rfl⟩
    | some _ => exact ⟨fun _ => rfl, fun _ => Or.inl ⟨_, rfl⟩⟩

/-- A bypassed call raises nothing. -/
theorem not_raisesFault_of_bypassed (ha : sequence.Accepted) (hrange : InRange sequence run.1)
    (hbypass : (trySequenceReset input run).1.sequenceBypass = true) :
    ¬ RaisesFault sequence input run := by
  obtain ⟨path, hpath, -⟩ := inRange_trySequenceReset ha input hrange
  unfold RaisesFault
  rw [callSequence_bypassed hpath hbypass]
  simp

/-! ## The timer and the observer -/

/-- What the code keeps of the observed time between two calls. -/
structure OnTime (sequence : Sequence) (timed : Timed) (last : Timespec) : Prop where
  inRange : InRange sequence timed.1.1
  since : timed.2.nanos ≤ last.nanos
  target : ∀ path step, AtStep sequence timed.1.1 path step → timed.1.1.stepReset = false →
    timed.1.2.exitTargetTime.Valid ∧
      (path.timeout ≠ -1 → timed.2.nanos + path.timeout * 1000000000 ≤
        timed.1.2.exitTargetTime.nanos)

section

variable {sequence : Sequence} {timed : Timed} {input : CallInput} {last : Timespec}

theorem prepared_currentTime (path : Path) (input : CallInput) (run : Run) :
    (prepared path input run).2.currentTime = input.currentTime := by
  rw [prepared, (started_index path input (trySequenceReset input run)).2.2.2.2.2]
  unfold trySequenceReset
  dsimp only
  split_ifs <;> rfl

/-- The timer a call tests belongs to its step, and lies the timeout of the path
after the observed start of the step. -/
theorem OnTime.prepared_target (h : OnTime sequence timed last) (hreset : input.resetClock.Valid)
    (hlast : last.nanos ≤ input.resetClock.nanos) {path : Path} {step : Step}
    (hat : AtStep sequence (trySequenceReset input timed.1).1 path step) :
    (prepared path input timed.1).2.exitTargetTime.Valid ∧
      (path.timeout ≠ -1 →
        (stepSince input timed.1 timed.2).nanos + path.timeout * 1000000000 ≤
          (prepared path input timed.1).2.exitTargetTime.nanos) := by
  have hsince : (stepSince input timed.1 timed.2).nanos ≤ input.resetClock.nanos := by
    unfold stepSince
    split_ifs
    · exact le_refl _
    · exact h.since.trans hlast
  by_cases hstart : (trySequenceReset input timed.1).1.stepReset = true
  · rw [prepared, started, if_pos hstart, startStep]
    refine ⟨?_, fun htimeout => ?_⟩
    · split_ifs
      · exact valid_addSeconds hreset _
      · exact hreset
    · rw [if_pos htimeout, nanos_addSeconds]
      omega
  · rw [prepared, started, if_neg hstart]
    unfold trySequenceReset stepSince at *
    dsimp only at *
    split_ifs at * with hflag
    · exact absurd rfl hstart
    · exact h.target path step hat (Bool.eq_false_iff.mpr hstart)

/-- A call raises the fault on time unless it leaves its step late. -/
theorem OnTime.faultsOnTime_iff (ha : sequence.Accepted) (h : OnTime sequence timed last)
    (hcurrent : input.currentTime.Valid) (hreset : input.resetClock.Valid)
    (hlast : last.nanos ≤ input.resetClock.nanos) :
    FaultsOnTime sequence timed input ↔ ¬ LeavesLate sequence timed.1 input := by
  obtain ⟨path, hpath, hindex⟩ := inRange_trySequenceReset ha input h.inRange
  cases hbypass : (trySequenceReset input timed.1).1.sequenceBypass with
  | true =>
    refine ⟨fun _ hlate => ?_, fun _ hfault =>
      absurd hfault (not_raisesFault_of_bypassed ha h.inRange hbypass)⟩
    obtain ⟨-, path', step', -, hat, -⟩ := hlate
    have hactive := hat.active
    rw [hbypass] at hactive
    exact Bool.noConfusion hactive
  | false =>
    have hstep := List.getElem?_eq_getElem (hindex hbypass)
    have hbefore := hindex hbypass
    set step := path.steps[(trySequenceReset input timed.1).1.currentStepIndex]
    have hat : AtStep sequence (trySequenceReset input timed.1).1 path step :=
      ⟨hbypass, hpath, hstep⟩
    obtain ⟨hpathIndex, hstepIndex, -⟩ := started_index path input (trySequenceReset input timed.1)
    obtain ⟨next, hnext, -⟩ := runStep_next ha input
      (hpathIndex ▸ hpath : sequence.paths[(prepared path input timed.1).1.currentPathIndex]? =
        some path)
      (hstepIndex ▸ hstep : path.steps[(prepared path input timed.1).1.currentStepIndex]? =
        some step)
    obtain ⟨hled, -⟩ := runStep_ledTo hat hnext
    unfold FaultsOnTime
    rw [raisesFault_iff hat hnext]
    constructor
    · rintro hontime ⟨hleaves, path', step', next', hat', hled', htrips⟩
      obtain ⟨rfl, rfl⟩ := hat.unique hat'
      rw [if_pos hleaves, hled', Option.some_inj] at hled
      have hstays := (hontime (hled ▸ htrips)).1
      rw [hleaves] at hstays
      exact Bool.noConfusion hstays
    · intro hnotLate htrips
      have hstays : leavesStep sequence input timed.1 = false := by
        refine Bool.eq_false_iff.mpr fun hleaves => hnotLate ?_
        rw [if_pos hleaves] at hled
        exact ⟨hleaves, path, step, next, hat, hled, htrips⟩
      rw [hstays, if_neg (by decide)] at hled
      obtain ⟨hvalid, htarget⟩ := h.prepared_target hreset hlast hat
      rw [← hled, exitTimerTrips, Bool.and_eq_true, decide_eq_true_eq, prepared_currentTime]
        at htrips
      have hpassed := nanos_lt_of_expired hcurrent hvalid htrips.2
      exact ⟨hstays, path, step, hat, htrips.1, lt_of_le_of_lt (htarget htrips.1) hpassed⟩

/-- The timer after the timeout branch, on a path with a timeout. -/
theorem checkTimeout_target {path : Path} {run : Run} {result : Run × Bool}
    (h : checkTimeout path input run = .ok result) :
    result.1.2.exitTargetTime = addSeconds input.timeoutClock path.timeout ∨
      result.1.2.exitTargetTime = run.2.exitTargetTime := by
  unfold checkTimeout at h
  split_ifs at h
  · cases hstep : path.stepAt run.1.currentStepIndex with
    | error e =>
      rw [hstep] at h
      exact absurd h (by simp)
    | ok step =>
      rw [hstep] at h
      cases h
      exact Or.inl rfl
  · cases h
    exact Or.inr rfl

/-- A call keeps the timer in step with the observer. -/
theorem OnTime.of_timedStep (ha : sequence.Accepted) (h : OnTime sequence timed last)
    (hreset : input.resetClock.Valid) (htimeout : input.timeoutClock.Valid)
    (hlast : last.nanos ≤ input.resetClock.nanos)
    (horder : input.resetClock.nanos ≤ input.timeoutClock.nanos) {next : Timed}
    (hnext : timedStep sequence timed input = .ok next) :
    OnTime sequence next input.timeoutClock := by
  unfold timedStep sequenceStep at hnext
  cases hcall : callSequence sequence input timed.1 with
  | error e =>
    rw [hcall] at hnext
    exact absurd hnext (by simp [Except.map])
  | ok result =>
  rw [hcall] at hnext
  cases hnext
  have hstepSince : (stepSince input timed.1 timed.2).nanos ≤ input.timeoutClock.nanos := by
    unfold stepSince
    split_ifs
    · exact horder
    · exact (h.since.trans hlast).trans horder
  refine ⟨(callSequence_ok_iff ha input h.inRange).2 result hcall, ?_, ?_⟩
  · dsimp only
    unfold sinceAfter
    split_ifs
    · exact le_refl _
    · exact hstepSince
  intro path' step' hat' hstay
  rcases callSequence_cases ha h.inRange hcall with
    ⟨hbypass, path, rfl⟩ | ⟨path, step, nextPath, hat, hnextPath, hresult⟩
  · have hactive := hat'.active
    rw [prepared, (started_index path input _).2.2.2.1, hbypass] at hactive
    exact Bool.noConfusion hactive
  · obtain ⟨hpathIndex, -, hresetSame, -, htargetSame, -⟩ := completeSequence_index nextPath
      (runStep sequence input step (prepared path input timed.1))
    have hsame := sameCall_runStep sequence input step (prepared path input timed.1)
    obtain ⟨hled, hleaves⟩ := runStep_ledTo hat hnextPath
    rw [checkTimeout_fst hresult, hresetSame, hleaves] at hstay
    have hpathAt := hat'.pathAt
    rw [checkTimeout_fst hresult, hpathIndex, hnextPath, Option.some_inj] at hpathAt
    rw [hstay, if_neg (by decide)] at hled
    subst hpathAt hled
    dsimp only
    rw [sinceAfter, hstay, if_neg (by decide)]
    obtain ⟨hvalid, htarget⟩ := h.prepared_target hreset hlast hat
    rcases checkTimeout_target hresult with hrestarted | hkept
    · rw [hrestarted, nanos_addSeconds]
      exact ⟨valid_addSeconds htimeout _, fun _ => by omega⟩
    · rw [hkept, htargetSame, hsame.exitTargetTime]
      exact ⟨hvalid, htarget⟩

end

/-! ## Runs -/

/-- With a clock that never goes back, a run raises the timeout fault only in
calls that stay on a step which has been current for longer than the timeout of
its path, exactly when no call leaves its step late. -/
theorem guarded_faultsOnTime_iff (sequence : Sequence) (ha : sequence.Accepted)
    (targets : ℕ → ℕ → ℕ → Timespec) (status : SequencesStatus) (since : Timespec)
    (inputs : List CallInput) (hclock : ClockOrdered since inputs) :
    Guarded (timedStep sequence) (FaultsOnTime sequence) ((initialState targets, status), since)
        inputs ↔
      Guarded (timedStep sequence) (fun timed input => ¬ LeavesLate sequence timed.1 input)
        ((initialState targets, status), since) inputs := by
  have hstart : OnTime sequence ((initialState targets, status), since) since :=
    ⟨inRange_initialState ha targets, le_refl _, fun _ _ _ hreset => Bool.noConfusion hreset⟩
  generalize ((initialState targets, status), since) = timed at hstart
  generalize since = last at hclock hstart
  induction inputs generalizing timed last with
  | nil => exact Iff.rfl
  | cons input rest ih =>
    obtain ⟨hcurrent, hreset, htimeout, hfirst, hsecond, hthird, hrest⟩ := hclock
    have hlast := hfirst.trans hsecond
    refine and_congr (hstart.faultsOnTime_iff ha hcurrent hreset hlast) ?_
    refine forall_congr' fun next => forall_congr' fun hnext => ?_
    exact ih _ _ hrest (hstart.of_timedStep ha hreset htimeout hlast hthird hnext)

/-! ## A switch to a path with a timeout -/

/-- A path without a timeout whose only step switches to a path with one. -/
def switchingSequence : Sequence where
  sequenceName := "Startup"
  state := .startup
  sequenceType := .site
  paths := [{
    pathName := "main"
    returnState := .ready
    timeout := -1
    steps := [{
      stepName := "close breakers"
      entryActions := [⟨"/feeders/close", 0⟩]
      exitConditions := [⟨"/feeders/closed", 0⟩]
      pathSwitch := true
      nextPath := 1 }] }, {
    pathName := "alternate"
    returnState := .ready
    timeout := 60
    steps := [{
      stepName := "start ess"
      entryActions := [⟨"/ess/start", 0⟩]
      exitConditions := [⟨"/ess/running", 0⟩]
      pathSwitch := false
      nextPath := 0 }] }]

theorem switchingSequence_accepted : switchingSequence.Accepted where
  paths := by decide
  steps := by decide
  nextPath := by decide

/-- A call at a number of seconds in which the entries and exits give a result. -/
def callAt (seconds : ℤ) (entry exit : Bool) : CallInput where
  sequenceReset := false
  currentTime := ⟨seconds, 0⟩
  resetClock := ⟨seconds, 0⟩
  debounceClock _ := ⟨seconds, 0⟩
  timeoutClock := ⟨seconds, 0⟩
  entryResult _ := entry
  exitResult _ := exit

/-- The shared status at construction. -/
def startStatus : SequencesStatus where
  currentState := .startup
  stepChange := false
  pathChange := false
  sequenceReset := false
  shouldPub := false
  currentTime := ⟨0, 0⟩
  exitTargetTime := ⟨0, 0⟩

theorem guarded_faultsOnTime_iff_switchingSequence :
    Guarded (timedStep switchingSequence) (FaultsOnTime switchingSequence)
        ((initialState fun _ _ _ => ⟨0, 0⟩, startStatus), ⟨0, 0⟩)
        [callAt 1 false false, callAt 2 true true] ↔
      Guarded (timedStep switchingSequence)
        (fun timed input => ¬ LeavesLate switchingSequence timed.1 input)
        ((initialState fun _ _ _ => ⟨0, 0⟩, startStatus), ⟨0, 0⟩)
        [callAt 1 false false, callAt 2 true true] :=
  guarded_faultsOnTime_iff switchingSequence switchingSequence_accepted (fun _ _ _ => ⟨0, 0⟩)
    startStatus ⟨0, 0⟩ [callAt 1 false false, callAt 2 true true]
    (by simp only [ClockOrdered]; decide)

/-- The entry succeeds one second late and its exit fails at once: the call
switches to a path of one minute and raises the fault. -/
theorem switchingSequence_not_faultsOnTime :
    switchingSequence.Accepted ∧
    ClockOrdered ⟨0, 0⟩ [callAt 1 false false, callAt 2 true false] ∧
    ¬ Guarded (timedStep switchingSequence) (FaultsOnTime switchingSequence)
      ((initialState fun _ _ _ => ⟨0, 0⟩, startStatus), ⟨0, 0⟩)
      [callAt 1 false false, callAt 2 true false] := by
  refine ⟨switchingSequence_accepted, by simp only [ClockOrdered]; decide, fun h => ?_⟩
  have hsecond := (h.2 _ rfl).1 (Or.inl ⟨_, rfl⟩)
  exact absurd hsecond.1 (by decide)

end HybridOs.SiteSequenceTimeout
