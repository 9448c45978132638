import HybridOs.SiteUtils

/-!
# Sequences

A sequence walks the steps of one path: entry actions first, then exit
conditions, each with an optional debounce timer. A failed exit may switch to
another path, and a path may time its steps out. The configuration is kept
apart from what a call changes. Every read of a paths or steps vector is
checked, so that a read past the end shows. Clock readings, and the results of
the functions that routes name, are inputs of a call. Log lines, events and the
site status text are left out.
-/

namespace HybridOs.SiteSequence

open SiteUtils

/-- States used for site control. -/
inductive States
  | init | ready | startup | runMode1 | runMode2 | standby | shutdown | error
  deriving DecidableEq, Repr

/-- What a sequence is attached to. -/
inductive SequenceType
  | site | assetEss | assetSolar | assetGenerator | assetFeeder
  deriving DecidableEq, Repr

/-- The nonempty fragments of a route between its slashes. -/
def split (route : String) : List String :=
  ((route.toList.splitOn '/').filter (· ≠ [])).map String.ofList

/-- An entry action or exit condition. -/
structure StepAction where
  /-- Target asset and command. -/
  route : String
  /-- Time during which the value must match, in milliseconds; an `int`. -/
  debounceTimerMs : ℤ
  deriving DecidableEq, Repr

/-- One step of a path. -/
structure Step where
  /-- Name shown in events. -/
  stepName : String
  /-- Tried until one succeeds. -/
  entryActions : List StepAction
  /-- One of them leaves the step. -/
  exitConditions : List StepAction
  /-- Whether a failed exit moves to another path. -/
  pathSwitch : Bool
  /-- The path a failed exit moves to. -/
  nextPath : ℕ
  deriving DecidableEq, Repr

/-- One path of a sequence. -/
structure Path where
  /-- Name shown in events. -/
  pathName : String
  /-- Site state after the last step. -/
  returnState : States
  /-- Seconds a step may take; −1 for no limit. -/
  timeout : ℤ
  /-- Steps in order. -/
  steps : List Step
  deriving DecidableEq, Repr

/-- A configured sequence. -/
structure Sequence where
  /-- Name shown as site status. -/
  sequenceName : String
  /-- Site state the sequence belongs to. -/
  state : States
  /-- What the sequence is attached to. -/
  sequenceType : SequenceType
  /-- All paths; the first is entered first. -/
  paths : List Path
  deriving DecidableEq, Repr

/-- What `parse` and `configure_path` accept: no empty paths or steps vector;
every switch names an existing path. -/
structure Sequence.Accepted (sequence : Sequence) : Prop where
  paths : sequence.paths ≠ []
  steps : ∀ path ∈ sequence.paths, path.steps ≠ []
  nextPath : ∀ path ∈ sequence.paths, ∀ step ∈ path.steps,
    step.pathSwitch = true → step.nextPath < sequence.paths.length

/-- The mutable part of a sequence. -/
structure SequenceState where
  /-- A step has completed. -/
  stepReset : Bool
  /-- Restart the debounce timers. -/
  debounceReset : Bool
  /-- The sequence completed and no step is called again. -/
  sequenceBypass : Bool
  /-- The exit conditions of the step have not failed yet. -/
  initialExitAttempt : Bool
  /-- The current step. -/
  currentStepIndex : ℕ
  /-- Past the current step once its entry has succeeded. -/
  checkCurrentStepIndex : ℕ
  /-- The current path. -/
  currentPathIndex : ℕ
  /-- `debounce_target_time` of an exit condition, by path, step and condition. -/
  debounceTargetTime : ℕ → ℕ → ℕ → Timespec

/-- The status all sequences of a site share. -/
structure SequencesStatus where
  /-- Site state. -/
  currentState : States
  /-- A step changed. -/
  stepChange : Bool
  /-- A path changed. -/
  pathChange : Bool
  /-- The current sequence has changed. -/
  sequenceReset : Bool
  /-- An action has something to publish. -/
  shouldPub : Bool
  /-- Clock reading of the iteration. -/
  currentTime : Timespec
  /-- When the step times out. -/
  exitTargetTime : Timespec
  deriving DecidableEq, Repr

/-- What one call reads from outside. -/
structure CallInput where
  /-- The caller saw a new site state. -/
  sequenceReset : Bool
  /-- Clock reading of the iteration. -/
  currentTime : Timespec
  /-- Clock reading of the step reset. -/
  resetClock : Timespec
  /-- Clock reading at each exit condition. -/
  debounceClock : ℕ → Timespec
  /-- Clock reading of a timeout. -/
  timeoutClock : Timespec
  /-- Result of each entry action. -/
  entryResult : ℕ → Bool
  /-- Result of each exit condition. -/
  exitResult : ℕ → Bool

/-- A read past the end of a vector, or through a null action pointer. -/
inductive BadRead
  | paths | steps | nullAction | sequences
  deriving DecidableEq, Repr

/-- `paths[index]`. -/
def Sequence.pathAt (sequence : Sequence) (index : ℕ) : Except BadRead Path :=
  match sequence.paths[index]? with
  | some path => .ok path
  | none => .error .paths

/-- `steps[index]`. -/
def Path.stepAt (path : Path) (index : ℕ) : Except BadRead Step :=
  match path.steps[index]? with
  | some step => .ok step
  | none => .error .steps

/-- `paths[pathIndex].steps[stepIndex]`. -/
def Sequence.stepAt (sequence : Sequence) (pathIndex stepIndex : ℕ) : Except BadRead Step := do
  let path ← sequence.pathAt pathIndex
  path.stepAt stepIndex

/-- Whether the functions of this kind of sequence can be called at all. -/
def SequenceType.hasFunctions : SequenceType → Bool
  | .site | .assetEss => true
  | _ => false

/-- Whether any entry action succeeds. A route without fragments, or a sequence
type without functions, ends the loop. -/
def handleEntryAction (sequenceType : SequenceType) (input : CallInput) :
    List StepAction → ℕ → Bool → Bool
  | [], _, returnValue => returnValue
  | action :: rest, index, returnValue =>
    if (split action.route).isEmpty ∨ sequenceType.hasFunctions = false then returnValue
    else handleEntryAction sequenceType input rest (index + 1)
      (returnValue || input.entryResult index)

/-- Why an exit condition did not let the step exit. -/
inductive ExitFailure
  | conditional | debounce
  deriving DecidableEq, Repr

/-- What the loop over the exit conditions accumulates. -/
structure ExitLoop where
  /-- Whether some condition contributed `true`. -/
  returnValue : Bool
  /-- The flag shared by all conditions of the step. -/
  debounceReset : Bool
  /-- Debounce targets of the step, by condition. -/
  debounceTargetTime : ℕ → Timespec
  /-- Reasons of the conditions evaluated so far. -/
  reasonForExitFailure : List ExitFailure

/-- C++ integer division of a timer by 1000. -/
def debounceSeconds (debounceTimerMs : ℤ) : ℤ := debounceTimerMs.tdiv 1000

/-- Add seconds to a clock reading. -/
def addSeconds (time : Timespec) (seconds : ℤ) : Timespec :=
  {time with tvSec := time.tvSec + seconds}

/-- Evaluate one exit condition whose function gave `result`. -/
def exitCondition (currentTime clock : Timespec) (action : StepAction) (result : Bool)
    (index : ℕ) (loop : ExitLoop) : ExitLoop :=
  if action.debounceTimerMs = 0 then
    {loop with
      returnValue := loop.returnValue || result
      reasonForExitFailure := loop.reasonForExitFailure ++ [.conditional]}
  else
    -- reset target_time when a new step is entered or the value is not within range
    let loop := if loop.debounceReset || !result then
        {loop with
          debounceReset := false
          debounceTargetTime := Function.update loop.debounceTargetTime index
            (addSeconds clock (debounceSeconds action.debounceTimerMs))}
      else loop
    if !result then
      {loop with reasonForExitFailure := loop.reasonForExitFailure ++ [.conditional]}
    else if checkExpiredTime currentTime (loop.debounceTargetTime index) then
      {loop with
        returnValue := loop.returnValue || result
        reasonForExitFailure := loop.reasonForExitFailure ++ [.conditional]}
    else {loop with reasonForExitFailure := loop.reasonForExitFailure ++ [.debounce]}

/-- Evaluate the exit conditions in order. -/
def handleExitAction (sequenceType : SequenceType) (input : CallInput) :
    List StepAction → ℕ → ExitLoop → ExitLoop
  | [], _, loop => loop
  | action :: rest, index, loop =>
    if (split action.route).isEmpty ∨ sequenceType.hasFunctions = false then
      {loop with reasonForExitFailure := loop.reasonForExitFailure ++ [.conditional]}
    else handleExitAction sequenceType input rest (index + 1)
      (exitCondition input.currentTime (input.debounceClock index) action
        (input.exitResult index) index loop)

/-- The state of a sequence and the shared status. -/
abbrev Run := SequenceState × SequencesStatus

/-- Reset all counts, in case the sequence was interrupted before completion. -/
def resetSequence (run : Run) : Run :=
  ({run.1 with
    currentStepIndex := 0
    checkCurrentStepIndex := 0
    currentPathIndex := 0
    debounceReset := true
    stepReset := true
    initialExitAttempt := true
    sequenceBypass := false},
   {run.2 with sequenceReset := false})

/-- Restart the step timer. -/
def startStep (path : Path) (input : CallInput) (run : Run) : Run :=
  ({run.1 with stepReset := false, initialExitAttempt := true},
   {run.2 with exitTargetTime := if path.timeout ≠ -1 then
      addSeconds input.resetClock path.timeout
    else input.resetClock})

/-- The reset of a new step. -/
def resetStep (sequence : Sequence) (input : CallInput) (run : Run) : Except BadRead Run := do
  let path ← sequence.pathAt run.1.currentPathIndex
  return startStep path input run

/-- Clear the change flags, with something to publish if one was set. -/
def noteChange (run : Run) : Run :=
  if run.2.pathChange || run.2.stepChange then
    (run.1, {run.2 with shouldPub := true, pathChange := false, stepChange := false})
  else run

/-- Note a change of path or step; the messages name the current path and step. -/
def checkPathStepChange (sequence : Sequence) (run : Run) : Except BadRead Run :=
  if run.2.pathChange || run.2.stepChange then do
    let _ ← sequence.stepAt run.1.currentPathIndex run.1.currentStepIndex
    return noteChange run
  else return run

/-- Try the entry actions of the step; success moves the check index past it. -/
def enterStep (sequence : Sequence) (input : CallInput) (step : Step) (run : Run) : Run :=
  let entered := handleEntryAction sequence.sequenceType input step.entryActions 0 false
  ({run.1 with
    debounceReset := true
    checkCurrentStepIndex := if entered then run.1.checkCurrentStepIndex + 1
      else run.1.checkCurrentStepIndex}, run.2)

/-- The entry of the current step. -/
def callSequenceEntry (sequence : Sequence) (input : CallInput) (run : Run) :
    Except BadRead Run := do
  let step ← sequence.stepAt run.1.currentPathIndex run.1.currentStepIndex
  return enterStep sequence input step run

/-- The first failure of the exit conditions: the first one that did not wait
for its debounce timer takes the path switch. -/
def handleInitialExitAttempt (step : Step) (run : Run) : List ExitFailure → Run
  | [] => ({run.1 with initialExitAttempt := false}, run.2)
  | .debounce :: rest => handleInitialExitAttempt step run rest
  | .conditional :: rest =>
    if step.pathSwitch then
      ({run.1 with
        initialExitAttempt := false
        stepReset := true
        currentPathIndex := step.nextPath
        currentStepIndex := 0
        checkCurrentStepIndex := 0},
       {run.2 with pathChange := true, stepChange := true})
    else handleInitialExitAttempt step run rest

/-- The loop over the exit conditions of the current step. -/
def exitLoop (sequence : Sequence) (input : CallInput) (st : SequenceState) (step : Step) :
    ExitLoop :=
  handleExitAction sequence.sequenceType input step.exitConditions 0
    { returnValue := false
      debounceReset := st.debounceReset
      debounceTargetTime := st.debounceTargetTime st.currentPathIndex st.currentStepIndex
      reasonForExitFailure := [] }

/-- Store what the exit loop did to the debounce timers. -/
def storeExitLoop (st : SequenceState) (loop : ExitLoop) : SequenceState :=
  {st with
    debounceReset := loop.debounceReset
    debounceTargetTime := fun path step condition =>
      if path = st.currentPathIndex ∧ step = st.currentStepIndex then
        loop.debounceTargetTime condition
      else st.debounceTargetTime path step condition}

/-- Try the exit conditions of the step; success moves on to the next step. -/
def exitStep (sequence : Sequence) (input : CallInput) (step : Step) (run : Run) : Run :=
  let loop := exitLoop sequence input run.1 step
  let st := storeExitLoop run.1 loop
  if loop.returnValue then
    ({st with
      currentStepIndex := st.currentStepIndex + 1
      stepReset := true
      initialExitAttempt := true}, {run.2 with stepChange := true})
  else if st.initialExitAttempt then
    handleInitialExitAttempt step (st, run.2) loop.reasonForExitFailure
  else (st, run.2)

/-- The exit of the current step. -/
def callSequenceExit (sequence : Sequence) (input : CallInput) (run : Run) :
    Except BadRead Run := do
  let step ← sequence.stepAt run.1.currentPathIndex run.1.currentStepIndex
  return exitStep sequence input step run

/-- Perform the entry action until it has succeeded once. -/
def tryEntry (sequence : Sequence) (input : CallInput) (run : Run) : Except BadRead Run :=
  if run.1.checkCurrentStepIndex = run.1.currentStepIndex then
    callSequenceEntry sequence input run
  else return run

/-- Check the exit condition once the entry action has occurred. -/
def tryExit (sequence : Sequence) (input : CallInput) (run : Run) : Except BadRead Run :=
  if run.1.checkCurrentStepIndex > run.1.currentStepIndex then
    callSequenceExit sequence input run
  else return run

/-- Entry and exit of one call; a step whose entry succeeds tries its exit in
the same call. -/
def callSequenceStep (sequence : Sequence) (input : CallInput) (run : Run) :
    Except BadRead Run := do
  let run ← checkPathStepChange sequence run
  let run ← tryEntry sequence input run
  tryExit sequence input run

/-- Reset the whole sequence for a new site state. -/
def trySequenceReset (input : CallInput) (run : Run) : Run :=
  let run := (run.1, {run.2 with
    currentTime := input.currentTime
    sequenceReset := run.2.sequenceReset || input.sequenceReset})
  if run.2.sequenceReset then resetSequence run else run

/-- Restart the step timer of a new step. -/
def tryStepReset (sequence : Sequence) (input : CallInput) (run : Run) : Except BadRead Run :=
  if run.1.stepReset then resetStep sequence input run else return run

/-- Completion of the last step: return the state of the path. -/
def completeSequence (path : Path) (run : Run) : Run :=
  if run.1.currentStepIndex ≥ path.steps.length then
    ({run.1 with sequenceBypass := true},
     {run.2 with stepChange := true, pathChange := true, currentState := path.returnState})
  else run

/-- Whether the exit timer of the path trips. -/
def exitTimerTrips (path : Path) (status : SequencesStatus) : Bool :=
  path.timeout ≠ -1 && checkExpiredTime status.currentTime status.exitTargetTime

/-- Restart the exit timer of a path. -/
def restartTimer (path : Path) (input : CallInput) (run : Run) : Run :=
  (run.1, {run.2 with exitTargetTime := addSeconds input.timeoutClock path.timeout})

/-- The timeout branch: the event names the current step, the timer restarts.
Returns whether the fault was set. -/
def checkTimeout (path : Path) (input : CallInput) (run : Run) : Except BadRead (Run × Bool) :=
  if exitTimerTrips path run.2 then do
    let _ ← path.stepAt run.1.currentStepIndex
    return (restartTimer path input run, true)
  else return (run, false)

/-- A call past the resets and the bypass. -/
def callActiveSequence (sequence : Sequence) (input : CallInput) (run : Run) :
    Except BadRead (Run × Bool) := do
  let run ← callSequenceStep sequence input run
  let path ← sequence.pathAt run.1.currentPathIndex
  checkTimeout path input (completeSequence path run)

/-- `Sequence::call_sequence`. Returns whether the step timeout fault was set. -/
def callSequence (sequence : Sequence) (input : CallInput) (run : Run) :
    Except BadRead (Run × Bool) := do
  let run ← tryStepReset sequence input (trySequenceReset input run)
  if run.1.sequenceBypass then return (run, false)
  else callActiveSequence sequence input run

/-- One call of a sequence in a run. -/
def sequenceStep (sequence : Sequence) (run : Run) (input : CallInput) : Except BadRead Run :=
  (callSequence sequence input run).map Prod.fst

/-- The state a sequence is constructed with. -/
def initialState (debounceTargetTime : ℕ → ℕ → ℕ → Timespec) : SequenceState where
  stepReset := true
  debounceReset := true
  sequenceBypass := false
  initialExitAttempt := true
  currentStepIndex := 0
  checkCurrentStepIndex := 0
  currentPathIndex := 0
  debounceTargetTime := debounceTargetTime

end HybridOs.SiteSequence
