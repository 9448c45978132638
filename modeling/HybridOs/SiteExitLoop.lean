import HybridOs.SiteSequence

/-!
# The loop over the exit conditions

Each evaluated condition takes part on its own but for one flag: the first
debounced condition that the loop reaches while the flag is set restarts its
timer and clears the flag for all later ones. The loop returns `true` exactly
when some evaluated condition contributes it.
-/

namespace HybridOs.SiteExitLoop

open SiteUtils SiteSequence

/-- The loop does not end before the condition, or at it. -/
def Evaluated (sequenceType : SequenceType) (conditions : List StepAction) (i : ℕ) : Prop :=
  ∀ action ∈ conditions.take (i + 1),
    ¬ ((split action.route).isEmpty = true ∨ sequenceType.hasFunctions = false)

/-- Whether a flag set before the loop is still set when it reaches a condition. -/
def flagAt (debounceReset : Bool) (conditions : List StepAction) (i : ℕ) : Bool :=
  debounceReset && (conditions.take i).all fun action => action.debounceTimerMs = 0

/-- The target a restart of the timer stores. -/
def restartTarget (input : CallInput) (action : StepAction) (i : ℕ) : Timespec :=
  addSeconds (input.debounceClock i) (debounceSeconds action.debounceTimerMs)

/-! ## One condition -/

variable (currentTime clock : Timespec)

/-- A condition leaves the timers of the others. -/
theorem exitCondition_target_other (action : StepAction) (result : Bool) {index j : ℕ}
    (loop : ExitLoop) (h : j ≠ index) :
    (exitCondition currentTime clock action result index loop).debounceTargetTime j =
      loop.debounceTargetTime j := by
  unfold exitCondition
  dsimp only
  split_ifs <;> simp [Function.update_of_ne h]

/-- The first debounced condition clears the flag. -/
theorem exitCondition_debounceReset (action : StepAction) (result : Bool) (index : ℕ)
    (loop : ExitLoop) :
    (exitCondition currentTime clock action result index loop).debounceReset =
      (loop.debounceReset && decide (action.debounceTimerMs = 0)) := by
  unfold exitCondition
  dsimp only
  cases hflag : loop.debounceReset <;> cases result <;> split_ifs <;> simp_all

/-- A condition restarts its timer or keeps it. -/
theorem exitCondition_target_same (action : StepAction) (result : Bool) (index : ℕ)
    (loop : ExitLoop) (h : action.debounceTimerMs ≠ 0) :
    (exitCondition currentTime clock action result index loop).debounceTargetTime index =
      if loop.debounceReset || !result then
        addSeconds clock (debounceSeconds action.debounceTimerMs)
      else loop.debounceTargetTime index := by
  unfold exitCondition
  dsimp only
  rw [if_neg h]
  split_ifs <;> simp

/-! ## The loop -/

section

variable {sequenceType : SequenceType} {input : CallInput} {action : StepAction}
  {rest : List StepAction} {i : ℕ}

/-- A condition is handled before those after it. -/
theorem handleExitAction_cons
    (h : ¬ ((split action.route).isEmpty = true ∨ sequenceType.hasFunctions = false)) (index : ℕ)
    (loop : ExitLoop) :
    handleExitAction sequenceType input (action :: rest) index loop =
      handleExitAction sequenceType input rest (index + 1)
        (exitCondition input.currentTime (input.debounceClock index) action
          (input.exitResult index) index loop) := by
  rw [handleExitAction, if_neg h]

/-- An evaluated condition is not past the end of the loop. -/
theorem Evaluated.head (h : Evaluated sequenceType (action :: rest) i) :
    ¬ ((split action.route).isEmpty = true ∨ sequenceType.hasFunctions = false) :=
  h action (by simp)

/-- The next condition is evaluated where this one does not end the loop. -/
theorem evaluated_succ :
    Evaluated sequenceType (action :: rest) (i + 1) ↔
      ¬ ((split action.route).isEmpty = true ∨ sequenceType.hasFunctions = false) ∧
        Evaluated sequenceType rest i := by
  unfold Evaluated
  rw [List.take_succ_cons, List.forall_mem_cons]

/-- The targets of earlier conditions stay. -/
theorem handleExitAction_target_before (conditions : List StepAction) {index j : ℕ}
    (loop : ExitLoop) (h : j < index) :
    (handleExitAction sequenceType input conditions index loop).debounceTargetTime j =
      loop.debounceTargetTime j := by
  induction conditions generalizing index loop with
  | nil => rfl
  | cons action rest ih =>
    by_cases hends : (split action.route).isEmpty = true ∨ sequenceType.hasFunctions = false
    · rw [handleExitAction, if_pos hends]
    · rw [handleExitAction_cons hends, ih _ (Nat.lt_succ_of_lt h)]
      exact exitCondition_target_other _ _ _ _ _ h.ne

/-- The target of a debounced condition restarts while the flag is set or when
the condition is false. -/
theorem handleExitAction_target {conditions : List StepAction} (index : ℕ) (loop : ExitLoop)
    {i : ℕ} {action : StepAction} (hget : conditions[i]? = some action)
    (htimer : action.debounceTimerMs ≠ 0) (heval : Evaluated sequenceType conditions i) :
    (handleExitAction sequenceType input conditions index loop).debounceTargetTime (index + i) =
      if flagAt loop.debounceReset conditions i || !input.exitResult (index + i) then
        restartTarget input action (index + i) else loop.debounceTargetTime (index + i) := by
  induction conditions generalizing index loop i with
  | nil => simp at hget
  | cons first rest ih =>
    rw [handleExitAction_cons heval.head]
    cases i with
    | zero =>
      obtain rfl : first = action := by simpa using hget
      rw [Nat.add_zero index, handleExitAction_target_before rest _ (Nat.lt_add_one index),
        exitCondition_target_same _ _ _ _ _ _ htimer]
      simp [flagAt, restartTarget]
    | succ i =>
      have hrest := ih (index + 1) (exitCondition input.currentTime (input.debounceClock index)
        first (input.exitResult index) index loop) (by simpa using hget)
        (evaluated_succ.mp heval).2
      have hflag : flagAt (loop.debounceReset && decide (first.debounceTimerMs = 0)) rest i =
          flagAt loop.debounceReset (first :: rest) (i + 1) := by
        simp [flagAt, Bool.and_assoc]
      rw [exitCondition_debounceReset, hflag, exitCondition_target_other _ _ _ _ _ (by omega)]
        at hrest
      rw [show index + (i + 1) = index + 1 + i by omega]
      exact hrest

/-- A cleared flag stays cleared. -/
theorem handleExitAction_debounceReset_false (conditions : List StepAction) (index : ℕ)
    {loop : ExitLoop} (h : loop.debounceReset = false) :
    (handleExitAction sequenceType input conditions index loop).debounceReset = false := by
  induction conditions generalizing index loop with
  | nil => exact h
  | cons action rest ih =>
    by_cases hends : (split action.route).isEmpty = true ∨ sequenceType.hasFunctions = false
    · rw [handleExitAction, if_pos hends]
      exact h
    · rw [handleExitAction_cons hends]
      refine ih (index + 1) ?_
      rw [exitCondition_debounceReset, h, Bool.false_and]

/-- A debounced condition clears the flag. -/
theorem handleExitAction_debounceReset {conditions : List StepAction} (index : ℕ) (loop : ExitLoop)
    (hget : conditions[i]? = some action) (htimer : action.debounceTimerMs ≠ 0)
    (heval : Evaluated sequenceType conditions i) :
    (handleExitAction sequenceType input conditions index loop).debounceReset = false := by
  induction conditions generalizing index loop i with
  | nil => simp at hget
  | cons first rest ih =>
    rw [handleExitAction_cons heval.head]
    cases i with
    | zero =>
      obtain rfl : first = action := by simpa using hget
      refine handleExitAction_debounceReset_false rest _ ?_
      rw [exitCondition_debounceReset, decide_eq_false htimer, Bool.and_false]
    | succ i => exact ih _ _ (by simpa using hget) (evaluated_succ.mp heval).2

end

/-! ## The loop of a step -/

/-- The stored target of an exit condition of the current step. -/
def storedTarget (st : SequenceState) (i : ℕ) : Timespec :=
  st.debounceTargetTime st.currentPathIndex st.currentStepIndex i

section

variable {sequence : Sequence} (input : CallInput) (st : SequenceState) {step : Step} {i : ℕ}
  {action : StepAction} (hget : step.exitConditions[i]? = some action)
  (htimer : action.debounceTimerMs ≠ 0)
  (heval : Evaluated sequence.sequenceType step.exitConditions i)
include hget htimer heval

/-- The timer of each evaluated condition after the loop. -/
theorem exitLoop_target :
    (exitLoop sequence input st step).debounceTargetTime i =
      if flagAt st.debounceReset step.exitConditions i || !input.exitResult i then
        restartTarget input action i else storedTarget st i := by
  have h := @handleExitAction_target sequence.sequenceType input step.exitConditions 0
    { returnValue := false
      debounceReset := st.debounceReset
      debounceTargetTime := st.debounceTargetTime st.currentPathIndex st.currentStepIndex
      reasonForExitFailure := [] } i action hget htimer heval
  rw [Nat.zero_add] at h
  exact h

/-- After the loop the flag is clear. -/
theorem exitLoop_debounceReset : (exitLoop sequence input st step).debounceReset = false :=
  handleExitAction_debounceReset 0 _ hget htimer heval

end

end HybridOs.SiteExitLoop
