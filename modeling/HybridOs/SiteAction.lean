import HybridOs.SiteSequence

/-!
# Automated actions of an asset

An action is a sequence attached to an asset. The asset runs one action at a
time, found by name; an action that ends may hand over to a shutdown action,
itself an action, and waits as `exiting` until that one ends. Published texts
and the alarm counters are left out; whether a fault of the path is active is
an input.
-/

namespace HybridOs.SiteAction

open SiteUtils SiteSequence

/-- Status of an action. -/
inductive ActionStatusState
  | inactive | inProgress | completed | failed | aborted | exiting
  deriving DecidableEq, Repr

/-- An action of an asset. -/
structure Action where
  /-- Paths and steps; the sequence name is the action name. -/
  sequence : Sequence
  /-- Progress through the steps. -/
  st : SequenceState
  /-- Current status. -/
  status : ActionStatusState
  /-- Status to take once the shutdown sequence has ended. -/
  statusSwap : ActionStatusState
  /-- Whether this is a shutdown action. -/
  isShutdownSequence : Bool
  /-- Name of the shutdown action run on exit; empty for none. -/
  shutdownSequence : String
  /-- Observation only: shutdown actions entered for it since it was started. -/
  shutdownEntries : ℕ

/-- Which vector of the asset an action pointer points into, and where. -/
structure ActionRef where
  /-- The shutdown actions, or the actions. -/
  isShutdown : Bool
  /-- Position in the vector. -/
  index : ℕ
  deriving DecidableEq, Repr

/-- The action state of an asset. -/
structure AssetActions where
  /-- Actions an operator may start. -/
  actions : List Action
  /-- Actions run on exit. -/
  shutdownActions : List Action
  /-- Status shared by the actions. -/
  actionStatus : SequencesStatus
  /-- Name of the running action; empty for none. -/
  currentSequenceName : String
  /-- Pointer to the running action, once found. -/
  quickActionAccess : Option ActionRef
  /-- The step timeout bit of the action faults. -/
  actionsFault : Bool

/-- The vector an action pointer points into. -/
def AssetActions.vector (asset : AssetActions) (isShutdown : Bool) : List Action :=
  if isShutdown then asset.shutdownActions else asset.actions

/-- The action behind a pointer. -/
def AssetActions.get? (asset : AssetActions) (ref : ActionRef) : Option Action :=
  (asset.vector ref.isShutdown)[ref.index]?

/-- Write through an action pointer. -/
def AssetActions.update (asset : AssetActions) (ref : ActionRef) (f : Action → Action) :
    AssetActions :=
  if ref.isShutdown then
    {asset with shutdownActions := asset.shutdownActions.modify ref.index f}
  else {asset with actions := asset.actions.modify ref.index f}

/-- Progress of an action that starts over. -/
def enterProgress (st : SequenceState) : SequenceState :=
  {st with
    currentStepIndex := 0
    checkCurrentStepIndex := 0
    currentPathIndex := 0
    debounceReset := true
    stepReset := true
    initialExitAttempt := true
    sequenceBypass := false}

/-- The action at its start, with a status. -/
def restart (status : ActionStatusState) (action : Action) : Action :=
  {action with st := enterProgress action.st, status := status, shutdownEntries := 0}

/-- The action with a status. -/
def takeStatus (status : ActionStatusState) (action : Action) : Action :=
  {action with status := status}

/-- The action waiting to take a status while shutdown actions are entered for it. -/
def awaitShutdown (status : ActionStatusState) (entries : ℕ) (action : Action) : Action :=
  {action with
    status := .exiting
    statusSwap := status
    shutdownEntries := action.shutdownEntries + entries}

/-- The action with new progress. -/
def withProgress (st : SequenceState) (action : Action) : Action := {action with st := st}

/-- Put the action behind the pointer into progress under the given name. -/
def AssetActions.enterAutomation (asset : AssetActions) (ref : ActionRef) (actionId : String) :
    AssetActions :=
  {asset.update ref (restart .inProgress) with
    currentSequenceName := actionId
    actionStatus := {asset.actionStatus with stepChange := true}}

/-- Positions of the actions with a name, in order. -/
def namedPositions (actions : List Action) (name : String) : List ℕ :=
  ((actions.map fun action => action.sequence.sequenceName).zipIdx.filter (·.1 = name)).map
    Prod.snd

/-- Enter one shutdown action and point at it. -/
def AssetActions.enterShutdownAt (asset : AssetActions) (name : String) (index : ℕ) :
    AssetActions :=
  {asset.enterAutomation ⟨true, index⟩ name with quickActionAccess := some ⟨true, index⟩}

/-- Enter every shutdown action of the name; the last one is the one that runs. -/
def AssetActions.enterShutdown (asset : AssetActions) (name : String) : AssetActions :=
  (namedPositions asset.shutdownActions name).foldl
    (fun asset index => asset.enterShutdownAt name index) asset

/-- The status an exiting action was waiting to take. -/
def swapStatus (action : Action) : Action :=
  if action.status = .exiting then {action with status := action.statusSwap} else action

/-- Something to publish. -/
def AssetActions.publish (asset : AssetActions) : AssetActions :=
  {asset with actionStatus := {asset.actionStatus with shouldPub := true}}

/-- Something to publish, and no running action. -/
def AssetActions.decouple (asset : AssetActions) : AssetActions :=
  {asset.publish with quickActionAccess := none}

/-- Release the actions that wait for a shutdown action. -/
def AssetActions.releaseExiting (asset : AssetActions) : AssetActions :=
  {asset with actions := asset.actions.map swapStatus}

/-- End the action behind the pointer. Without a shutdown sequence it takes the
status at once, and a shutdown action releases the exiting ones; otherwise it
waits as exiting while the shutdown sequence runs. -/
def AssetActions.exitAutomation (asset : AssetActions) (ref : ActionRef) (action : Action)
    (setStatus : ActionStatusState) : AssetActions :=
  let asset := asset.decouple
  if action.shutdownSequence = "" then
    let asset := if action.isShutdownSequence then asset.releaseExiting else asset
    {asset.update ref (takeStatus setStatus) with currentSequenceName := ""}
  else
    let entries := (namedPositions asset.shutdownActions action.shutdownSequence).length
    (asset.update ref (awaitShutdown setStatus entries)).enterShutdown action.shutdownSequence

/-- Set the action behind the pointer back to its start. -/
def AssetActions.clearAction (asset : AssetActions) (ref : ActionRef) : AssetActions :=
  {asset.update ref (restart .inactive) with
    actionStatus := {asset.actionStatus with sequenceReset := false, shouldPub := true}}

/-- Store the progress of a call. -/
def AssetActions.store (asset : AssetActions) (ref : ActionRef) (run : Run) : AssetActions :=
  {asset.update ref (withProgress run.1) with actionStatus := run.2}

/-- Completion of the last step of an action. -/
def AssetActions.completeAction (asset : AssetActions) (ref : ActionRef) (action : Action)
    (path : Path) (run : Run) : AssetActions :=
  if run.1.currentStepIndex ≥ path.steps.length then
    asset.exitAutomation ref action .completed
  else asset

/-- Restart the timer and set the fault bit. -/
def AssetActions.setActionsFault (asset : AssetActions) (path : Path) (input : CallInput) :
    AssetActions :=
  {asset with
    actionStatus := {asset.actionStatus with
      exitTargetTime := addSeconds input.timeoutClock path.timeout}
    actionsFault := true}

/-- The timeout branch of an action: the event names the current step, the
timer restarts, the fault bit is set and the action fails. -/
def AssetActions.timeoutAction (asset : AssetActions) (ref : ActionRef) (action : Action)
    (input : CallInput) : Except BadRead AssetActions := do
  let path ← action.sequence.pathAt action.st.currentPathIndex
  if exitTimerTrips path asset.actionStatus then
    let _ ← path.stepAt action.st.currentStepIndex
    return (asset.setActionsFault path input).exitAutomation ref action .failed
  else return asset

/-- `Action::call_sequence` on the action behind the pointer. -/
def AssetActions.callSequence (asset : AssetActions) (ref : ActionRef) (action : Action)
    (input : CallInput) : Except BadRead AssetActions := do
  let run ← tryStepReset action.sequence input
    (action.st, {asset.actionStatus with currentTime := input.currentTime})
  let run ← callSequenceStep action.sequence input run
  let path ← action.sequence.pathAt run.1.currentPathIndex
  let asset := (asset.store ref run).completeAction ref action path run
  -- an action may have entered itself on completion, so its progress is read again
  match asset.get? ref with
  | none => .error .nullAction
  | some action => asset.timeoutAction ref action input

/-- One call of `Action::process`. -/
def AssetActions.process (asset : AssetActions) (ref : ActionRef) (input : CallInput)
    (faulted : Bool) : Except BadRead AssetActions :=
  match asset.get? ref with
  | none => .error .nullAction
  | some action =>
    if !action.isShutdownSequence && faulted then
      .ok (asset.exitAutomation ref action .failed)
    else asset.callSequence ref action input

/-- The running action: the pointer, else the last action of the name, else the
last shutdown action of the name. -/
def AssetActions.locate (asset : AssetActions) : Option ActionRef :=
  match asset.quickActionAccess with
  | some ref => some ref
  | none =>
    match (namedPositions asset.actions asset.currentSequenceName).getLast? with
    | some index => some ⟨false, index⟩
    | none => (namedPositions asset.shutdownActions asset.currentSequenceName).getLast?.map
        fun index => ⟨true, index⟩

/-- One iteration of the asset: process the running action, or clear it once the
asset has left maintenance mode. -/
def AssetActions.processAssetActions (asset : AssetActions) (input : CallInput)
    (faulted inMaintMode : Bool) : Except BadRead AssetActions :=
  if asset.currentSequenceName = "" then .ok asset
  else
    let located := {asset with quickActionAccess := asset.locate}
    match asset.locate with
    | none => if inMaintMode then .ok located else .error .nullAction
    | some ref =>
      if inMaintMode then located.process ref input faulted
      else .ok {located.clearAction ref with currentSequenceName := ""}

/-- Commands of an operator. -/
inductive DesiredAction
  | start | clear | stop | unsupported
  deriving DecidableEq, Repr

/-- Start an action on the operator's command. -/
def AssetActions.startAction (asset : AssetActions) (index : ℕ) (actionId : String) :
    AssetActions :=
  asset.enterAutomation ⟨false, index⟩ actionId

/-- An operator command on the first action of the name. -/
def AssetActions.handleActionsSet (asset : AssetActions) (actionId : String)
    (desiredAction : DesiredAction) (inMaintMode : Bool) : AssetActions :=
  match (namedPositions asset.actions actionId).head? with
  | none => asset
  | some index =>
    match asset.actions[index]? with
    | none => asset
    | some action =>
      let asset := asset.publish
      match desiredAction with
      | .start =>
        if asset.currentSequenceName ≠ "" then asset
        else if inMaintMode then asset.startAction index actionId
        else asset
      | .clear =>
        if action.status = .inProgress ∨ action.status = .exiting then asset
        else asset.clearAction ⟨false, index⟩
      | .stop =>
        if asset.currentSequenceName = actionId ∧ action.status = .inProgress then
          asset.exitAutomation ⟨false, index⟩ action .aborted
        else asset
      | .unsupported => asset

/-- What reaches the actions of an asset. -/
inductive ActionEvent
  /-- An operator command. -/
  | set (actionId : String) (desiredAction : DesiredAction) (inMaintMode : Bool)
  /-- An iteration. -/
  | tick (input : CallInput) (faulted inMaintMode : Bool)

/-- One event. -/
def AssetActions.step (asset : AssetActions) : ActionEvent → Except BadRead AssetActions
  | .set actionId desiredAction inMaintMode =>
    .ok (asset.handleActionsSet actionId desiredAction inMaintMode)
  | .tick input faulted inMaintMode => asset.processAssetActions input faulted inMaintMode

end HybridOs.SiteAction
