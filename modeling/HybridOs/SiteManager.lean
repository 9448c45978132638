import HybridOs.CheckedRun
import HybridOs.SiteSequenceStep

/-!
# The site manager

Between iterations operators set flags, faults and the state over messages. An
iteration reads the inputs, checks the state against faults and the disable
flag, runs the sequence of the state, dispatches the function of the state that
the sequence has left, and writes the outputs. Only what decides states, faults
and flags is kept: power features, alarms, events and outputs are left out.
-/

namespace HybridOs.SiteManager

open SiteUtils SiteSequence SiteSequenceStep CheckedRun

/-! ## State -/

/-- A boolean command variable with, if configured so, one value an input source. -/
structure InputFlag where
  /-- Present value. -/
  value : Bool
  /-- Whether each input source has a value of its own. -/
  multipleInputs : Bool
  /-- Values by input source. -/
  inputs : List Bool
  deriving DecidableEq, Repr

/-- `set_fims_bool` at the endpoint of one input source. -/
def InputFlag.setFimsBool (flag : InputFlag) (selection input : ℕ) (body : Bool) : InputFlag :=
  if flag.multipleInputs then
    if input < flag.inputs.length then
      {flag with
        value := if selection = input then body else flag.value
        inputs := flag.inputs.set input body}
    else flag
  else {flag with value := body}

/-- Take the value of the selected input source. -/
def InputFlag.updatePresentRegister (flag : InputFlag) (selection : ℕ) : InputFlag :=
  if flag.multipleInputs then
    match flag.inputs[selection]? with
    | some value => {flag with value := value}
    | none => flag
  else flag

/-- Set the present value and all inputs. -/
def InputFlag.setAll (flag : InputFlag) (value : Bool) : InputFlag :=
  {flag with value := value, inputs := flag.inputs.map fun _ => value}

/-- One sequence for each state but `Error`. -/
structure SiteConfig where
  /-- The sequence of a state. -/
  sequences : States → Sequence

/-- What the site manager keeps between iterations. -/
structure SiteState where
  /-- The sequence of each state. -/
  sequences : States → SequenceState
  /-- Status shared by the sequences, with the site state. -/
  status : SequencesStatus
  /-- Site state of the last check. -/
  checkCurrentState : States
  /-- Latched site faults. -/
  activeFaultArray : Fin 64 → Bool
  /-- Start command. -/
  enableFlag : InputFlag
  /-- Stop command. -/
  disableFlag : InputFlag
  /-- Standby command. -/
  standbyFlag : InputFlag
  /-- Clear faults command. -/
  clearFaultsFlag : InputFlag
  /-- The fault registers are to be cleared. -/
  clearFaultStatusFlags : Bool
  /-- When the fault registers are cleared. -/
  timeToClearFaultStatusFlags : Timespec

/-- The flags that messages set. -/
inductive FlagName
  | enable | disable | standby | clearFaults
  deriving DecidableEq, Repr

/-- A message that sets a flag or a debug variable. -/
inductive Command
  /-- Set one input of a flag while an input source is selected. -/
  | setFlag (name : FlagName) (selection input : ℕ) (body : Bool)
  /-- Set or clear the debug fault; a clear reads the clock. -/
  | debugFault (body : Bool) (clock : Timespec)
  /-- Set the state by number. -/
  | debugState (body : ℤ)
  deriving DecidableEq, Repr

/-- What one iteration reads from outside. -/
structure IterationInput where
  /-- Clock readings and function results of the sequence. -/
  call : CallInput
  /-- The selected input source. -/
  inputSelection : ℕ
  /-- Clock reading of a clear faults command. -/
  clearFaultsClock : Timespec
  /-- Site faults that the active alerts of the current path latch. -/
  pathFaults : List (Fin 64)
  /-- Clock reading of a sequence function that clears faults, if one is called. -/
  functionClearsFaults : Option Timespec

/-- What happens to the site manager. -/
inductive Event
  | command (command : Command)
  | iteration (input : IterationInput)

/-- What one iteration did. -/
structure Report where
  /-- The state whose function was dispatched. -/
  dispatched : States
  /-- A fault was latched at the dispatch. -/
  faulted : Bool
  /-- The disable flag was set at the dispatch. -/
  disabled : Bool
  /-- The sequence timed out and latched its fault. -/
  timedOut : Bool
  /-- The fault registers were cleared after the dispatch. -/
  cleared : Bool
  deriving DecidableEq, Repr

/-! ## Faults -/

/-- Latch a fault. -/
def setFaults (faultNumber : Fin 64) (st : SiteState) : SiteState :=
  {st with activeFaultArray := Function.update st.activeFaultArray faultNumber true}

/-- Whether any fault is latched. -/
def getFaults (st : SiteState) : Bool := decide (∃ i, st.activeFaultArray i = true)

/-- Add milliseconds to a clock reading, carrying into the seconds. -/
def incrementTimespecMs (time : Timespec) (msInc : ℤ) : Timespec :=
  let nsInc := msInc.tmod 1000 * 1000000
  let nsLeftInSec := 1000000000 - time.tvNsec
  if nsLeftInSec ≤ nsInc then ⟨time.tvSec + msInc.tdiv 1000 + 1, nsInc - nsLeftInSec⟩
  else ⟨time.tvSec + msInc.tdiv 1000, time.tvNsec + nsInc⟩

/-- Have the fault registers cleared in one second. -/
def clearFaults (clock : Timespec) (st : SiteState) : SiteState :=
  {st with
    clearFaultStatusFlags := true
    timeToClearFaultStatusFlags := incrementTimespecMs clock 1000}

/-- Clear all latched faults. -/
def clearFaultRegisters (st : SiteState) : SiteState :=
  {st with clearFaultStatusFlags := false, activeFaultArray := fun _ => false}

/-! ## Commands -/

/-- The cast of a number to a state; other numbers have no sequence either. -/
def stateOfInt : ℤ → States
  | 0 => .init
  | 1 => .ready
  | 2 => .startup
  | 3 => .runMode1
  | 4 => .runMode2
  | 5 => .standby
  | 6 => .shutdown
  | _ => .error

/-- Set the site state. -/
def setState (stateRequest : States) (st : SiteState) : SiteState :=
  {st with status := {st.status with currentState := stateRequest}}

/-- Set one input of a flag. -/
def setFlag (st : SiteState) (selection input : ℕ) (body : Bool) : FlagName → SiteState
  | .enable => {st with enableFlag := st.enableFlag.setFimsBool selection input body}
  | .disable => {st with disableFlag := st.disableFlag.setFimsBool selection input body}
  | .standby => {st with standbyFlag := st.standbyFlag.setFimsBool selection input body}
  | .clearFaults =>
    {st with clearFaultsFlag := st.clearFaultsFlag.setFimsBool selection input body}

/-- The sets of `fims_data_parse`. -/
def fimsDataParse (st : SiteState) : Command → SiteState
  | .setFlag name selection input body => setFlag st selection input body name
  | .debugFault body clock => if body then setFaults 0 st else clearFaults clock st
  | .debugState body => setState (stateOfInt body) st

/-! ## One iteration -/

/-- Take the selected inputs; any input may raise the clear faults flag. -/
def readSiteFeatureControls (selection : ℕ) (st : SiteState) : SiteState :=
  let clearFaultsFlag := st.clearFaultsFlag.updatePresentRegister selection
  {st with
    enableFlag := st.enableFlag.updatePresentRegister selection
    disableFlag := st.disableFlag.updatePresentRegister selection
    standbyFlag := st.standbyFlag.updatePresentRegister selection
    clearFaultsFlag := if clearFaultsFlag.inputs.any id then {clearFaultsFlag with value := true}
      else clearFaultsFlag}

/-- Read the clock and the inputs. -/
def getValues (input : IterationInput) (st : SiteState) : SiteState :=
  let st := readSiteFeatureControls input.inputSelection st
  {st with status := {st.status with currentTime := input.call.currentTime}}

/-- Obey the clear faults flag. -/
def obeyClearFaults (input : IterationInput) (st : SiteState) : SiteState :=
  if st.clearFaultsFlag.value then
    let st := clearFaults input.clearFaultsClock st
    {st with clearFaultsFlag := st.clearFaultsFlag.setAll false}
  else st

/-- `sequences[state]`. -/
def SiteConfig.sequenceAt (config : SiteConfig) (state : States) : Except BadRead Sequence :=
  if state = .error then .error .sequences else .ok (config.sequences state)

/-- The checks of the current path latch the faults of its active alerts. -/
def handleSiteCheckAlerts (input : IterationInput) (st : SiteState) : SiteState :=
  input.pathFaults.foldl (fun st fault => setFaults fault st) st

/-- Faults or the disable flag force the shutdown state, but not out of `Init`. -/
def forceShutdown (input : IterationInput) (st : SiteState) : SiteState :=
  if st.status.currentState ≠ .init then
    let st := handleSiteCheckAlerts input st
    if getFaults st || st.disableFlag.value then setState .shutdown st else st
  else st

/-- The state of a sequence that executes again at its next call. -/
def unbypass (st : SequenceState) : SequenceState := {st with sequenceBypass := false}

/-- A new state has the previous sequence execute again, and resets the new one. -/
def noteState (st : SiteState) : SiteState :=
  if st.checkCurrentState ≠ st.status.currentState then
    {st with
      sequences := Function.update st.sequences st.checkCurrentState
        (unbypass (st.sequences st.checkCurrentState))
      checkCurrentState := st.status.currentState
      status := {st.status with sequenceReset := true}}
  else st

/-- Determine which state to run. -/
def checkState (config : SiteConfig) (input : IterationInput) (st : SiteState) :
    Except BadRead SiteState := do
  let sequence ← config.sequenceAt st.status.currentState
  let _ ← sequence.pathAt (st.sequences st.status.currentState).currentPathIndex
  return noteState (forceShutdown input st)

/-- Store what a call did to the sequence of a state and the shared status. -/
def storeCall (state : States) (run : Run) (st : SiteState) : SiteState :=
  {st with sequences := Function.update st.sequences state run.1, status := run.2}

/-- What the functions and the timeout of a call do to the faults. -/
def storeFaults (input : IterationInput) (timedOut : Bool) (st : SiteState) : SiteState :=
  let st := match input.functionClearsFaults with
    | some clock => clearFaults clock st
    | none => st
  if timedOut then setFaults 2 st else st

/-- Run the sequence of the current state. Returns whether it timed out. -/
def runSequence (config : SiteConfig) (input : IterationInput) (st : SiteState) :
    Except BadRead (SiteState × Bool) := do
  let sequence ← config.sequenceAt st.status.currentState
  let result ← callSequence sequence {input.call with sequenceReset := false}
    (st.sequences st.status.currentState, st.status)
  return (storeFaults input result.2 (storeCall st.status.currentState result.1 st), result.2)

/-- Run once at boot. -/
def initState (st : SiteState) : SiteState := setState .ready st

/-- Waiting for the start command. -/
def readyState (st : SiteState) : SiteState :=
  if st.enableFlag.value && !st.disableFlag.value then setState .startup st else st

/-- The power features of grid following, and the way to standby. -/
def runmode1State (st : SiteState) : SiteState :=
  if st.standbyFlag.value then setState .standby st else st

/-- The way back from standby. -/
def standbyState (st : SiteState) : SiteState :=
  if !st.standbyFlag.value then setState .runMode1 st else st

/-- Ready once the shutdown sequence has completed. -/
def shutdownState (st : SiteState) : SiteState :=
  let st := if (st.sequences .shutdown).sequenceBypass then setState .ready st else st
  {st with clearFaultsFlag := st.clearFaultsFlag.setAll false}

/-- Run the function of the current state. -/
def dispatch (st : SiteState) : SiteState :=
  match st.status.currentState with
  | .init => initState st
  | .ready => readyState st
  | .startup => st
  | .runMode1 => runmode1State st
  | .runMode2 => st
  | .standby => standbyState st
  | .shutdown => shutdownState st
  | .error => st

/-- The enable flag survives only `Init`, and only without the disable flag. -/
def uiConfiguration (st : SiteState) : SiteState :=
  if st.disableFlag.value then {st with enableFlag := st.enableFlag.setAll false}
  else
    let enabled := st.enableFlag.value && decide (st.status.currentState = .init)
    {st with enableFlag := st.enableFlag.setAll enabled}

/-- Whether the fault registers are due. -/
def clearsRegisters (st : SiteState) : Bool :=
  st.clearFaultStatusFlags &&
    checkExpiredTime st.status.currentTime st.timeToClearFaultStatusFlags

/-- Write the outputs. -/
def setValues (st : SiteState) : SiteState :=
  uiConfiguration (if clearsRegisters st then clearFaultRegisters st else st)

/-- What an iteration reports at and after its dispatch. -/
def report (timedOut : Bool) (st : SiteState) : Report where
  dispatched := st.status.currentState
  faulted := getFaults st
  disabled := st.disableFlag.value
  timedOut := timedOut
  cleared := clearsRegisters (dispatch st)

/-- `Site_Manager::process_state`. -/
def processState (config : SiteConfig) (input : IterationInput) (st : SiteState) :
    Except BadRead (SiteState × Report) := do
  let st ← checkState config input (obeyClearFaults input (getValues input st))
  let (st, timedOut) ← runSequence config input st
  return (setValues (dispatch st), report timedOut st)

/-- One event. -/
def siteStep (config : SiteConfig) (st : SiteState) : Event → Except BadRead SiteState
  | .command command => .ok (fimsDataParse st command)
  | .iteration input => (processState config input st).map Prod.fst

/-- What construction and configuration leave to the environment. -/
structure Start where
  /-- Debounce targets of each sequence. -/
  debounceTargetTime : States → ℕ → ℕ → ℕ → Timespec
  /-- Clock reading of the constructor. -/
  clock : Timespec
  /-- Configured start command. -/
  enableFlag : InputFlag
  /-- Configured stop command. -/
  disableFlag : InputFlag
  /-- Configured standby command. -/
  standbyFlag : InputFlag
  /-- Configured clear faults command. -/
  clearFaultsFlag : InputFlag

/-- The state at the first event. -/
def constructed (start : Start) : SiteState where
  sequences state := initialState (start.debounceTargetTime state)
  status := {
    currentState := .init
    stepChange := true
    pathChange := true
    sequenceReset := false
    shouldPub := false
    currentTime := start.clock
    exitTargetTime := start.clock }
  checkCurrentState := .init
  activeFaultArray _ := false
  enableFlag := start.enableFlag
  disableFlag := start.disableFlag
  standbyFlag := start.standbyFlag
  clearFaultsFlag := start.clearFaultsFlag
  clearFaultStatusFlags := false
  timeToClearFaultStatusFlags := start.clock

end HybridOs.SiteManager
