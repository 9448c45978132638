import HybridOs.SiteManager

/-!
# Faults, the disable flag and the dispatched state

The check of an iteration forces the shutdown state on a latched fault or the
disable flag, and the shutdown sequence leaves it for `Ready` at most. A step
timeout latches its fault after the check, so the state function of that one
iteration still runs; the next check sees the fault. Latched faults last until
an iteration clears the registers.
-/

namespace HybridOs.SiteFaultGate

open SiteUtils SiteSequence SiteManager CheckedRun

/-- The states whose functions drive the site outside shutdown and ready. -/
def Active (state : States) : Prop :=
  state = .startup ∨ state = .standby ∨ state = .runMode1 ∨ state = .runMode2

instance (state : States) : Decidable (Active state) := inferInstanceAs (Decidable (_ ∨ _))

/-- The shutdown sequence returns to ready or stays in shutdown. -/
def ShutdownReturns (config : SiteConfig) : Prop :=
  ∀ path ∈ (config.sequences .shutdown).paths,
    path.returnState = .ready ∨ path.returnState = .shutdown

/-! ## Latched faults -/

theorem getFaults_iff (st : SiteState) :
    getFaults st = true ↔ ∃ i, st.activeFaultArray i = true := decide_eq_true_iff

variable {st next : SiteState} {config : SiteConfig} {input : IterationInput} {done : Report}

theorem getFaults_congr {st' : SiteState} (h : st'.activeFaultArray = st.activeFaultArray) :
    getFaults st' = getFaults st := by
  unfold getFaults
  rw [h]

theorem getFaults_setFaults (fault : Fin 64) (st : SiteState) :
    getFaults (setFaults fault st) = true :=
  (getFaults_iff _).mpr ⟨fault, Function.update_self ..⟩

/-- The checks of a path change nothing but the latched faults. -/
theorem handleSiteCheckAlerts_eq (input : IterationInput) (st : SiteState) :
    ∃ faults, handleSiteCheckAlerts input st = {st with activeFaultArray := faults} := by
  unfold handleSiteCheckAlerts
  induction input.pathFaults generalizing st with
  | nil => exact ⟨st.activeFaultArray, rfl⟩
  | cons fault rest ih =>
    obtain ⟨faults, h⟩ := ih (setFaults fault st)
    exact ⟨faults, h⟩

/-- After the checks a fault is latched exactly if one was, or an alert is active. -/
theorem getFaults_handleSiteCheckAlerts (input : IterationInput) (st : SiteState) :
    getFaults (handleSiteCheckAlerts input st) = true ↔
      getFaults st = true ∨ input.pathFaults ≠ [] := by
  unfold handleSiteCheckAlerts
  induction input.pathFaults generalizing st with
  | nil => simp
  | cons fault rest ih =>
    rw [List.foldl_cons, ih]
    simp [getFaults_setFaults]

/-! ## The check -/

/-- Out of `Init` the check either forces the shutdown state, or has found no
fault and no disable flag. -/
theorem forceShutdown_cases (input : IterationInput) (hinit : st.status.currentState ≠ .init) :
    (forceShutdown input st).status.currentState = .shutdown ∨
      (getFaults st = false ∧ input.pathFaults = [] ∧ st.disableFlag.value = false ∧
        forceShutdown input st = st) := by
  obtain ⟨faults, hfaults⟩ := handleSiteCheckAlerts_eq input st
  have hiff := getFaults_handleSiteCheckAlerts input st
  unfold forceShutdown
  rw [if_pos hinit]
  dsimp only
  by_cases h : (getFaults (handleSiteCheckAlerts input st) ||
      (handleSiteCheckAlerts input st).disableFlag.value) = true
  · rw [if_pos h]
    exact Or.inl rfl
  · have hdisable : (handleSiteCheckAlerts input st).disableFlag = st.disableFlag := by
      rw [hfaults]
    rw [Bool.or_eq_true, not_or, hiff, not_or, not_not, hdisable] at h
    obtain ⟨⟨hnone, hempty⟩, hoff⟩ := h
    have hsame : handleSiteCheckAlerts input st = st := by
      rw [handleSiteCheckAlerts, hempty, List.foldl_nil]
    rw [hsame, if_neg (by rw [Bool.or_eq_true, not_or]; exact ⟨hnone, hoff⟩)]
    exact Or.inr ⟨Bool.eq_false_iff.mpr hnone, hempty, Bool.eq_false_iff.mpr hoff, rfl⟩

theorem forceShutdown_faults (input : IterationInput) (h : getFaults st = true) :
    getFaults (forceShutdown input st) = true := by
  have hlatched := (getFaults_handleSiteCheckAlerts input st).mpr (Or.inl h)
  unfold forceShutdown
  dsimp only
  split_ifs
  · exact (getFaults_congr rfl).trans hlatched
  · exact hlatched
  · exact h

/-- Noting a new state keeps the state, the faults and the flags. -/
theorem noteState_same (st : SiteState) :
    (noteState st).status.currentState = st.status.currentState ∧
    (noteState st).activeFaultArray = st.activeFaultArray ∧
    (noteState st).disableFlag = st.disableFlag := by
  unfold noteState
  split_ifs <;> exact ⟨rfl, rfl, rfl⟩

/-- Reading the inputs keeps the state and the faults. -/
theorem obeyClearFaults_same (input : IterationInput) (st : SiteState) :
    (obeyClearFaults input (getValues input st)).status.currentState = st.status.currentState ∧
    (obeyClearFaults input (getValues input st)).activeFaultArray = st.activeFaultArray := by
  unfold obeyClearFaults
  split_ifs <;> exact ⟨rfl, rfl⟩

/-- The check succeeds only with what forcing the shutdown state and noting the
state give. -/
theorem checkState_ok {checked : SiteState} (h : checkState config input st = .ok checked) :
    checked = noteState (forceShutdown input st) := by
  obtain ⟨_, -, hrest⟩ := of_bind_ok h
  obtain ⟨_, -, hlast⟩ := of_bind_ok hrest
  exact (Except.ok.inj hlast).symm

/-! ## The sequence -/

/-- The steps of a call leave the site state alone. -/
theorem callSequenceStep_currentState {sequence : Sequence} {input : CallInput} {run next : Run}
    (h : callSequenceStep sequence input run = .ok next) :
    next.2.currentState = run.2.currentState := by
  obtain ⟨changed, hchange, hrest⟩ := of_bind_ok h
  obtain ⟨tried, hentry, hexit⟩ := of_bind_ok hrest
  have hchanged : changed.2.currentState = run.2.currentState := by
    unfold checkPathStepChange at hchange
    split_ifs at hchange
    · obtain ⟨_, -, hnote⟩ := of_bind_ok hchange
      cases hnote
      unfold noteChange
      split_ifs
      rfl
    · cases hchange
      rfl
  have htried : tried.2.currentState = changed.2.currentState := by
    unfold tryEntry at hentry
    split_ifs at hentry
    · obtain ⟨_, -, henter⟩ := of_bind_ok hentry
      cases henter
      rfl
    · cases hentry
      rfl
  have hexited : next.2.currentState = tried.2.currentState := by
    unfold tryExit at hexit
    split_ifs at hexit
    · obtain ⟨step, -, hleave⟩ := of_bind_ok hexit
      cases hleave
      unfold exitStep
      dsimp only
      split_ifs
      · rfl
      · rcases SiteSequenceStep.handleInitialExitAttempt_cases step
          (storeExitLoop tried.1 (exitLoop sequence input tried.1 step), tried.2)
          (exitLoop sequence input tried.1 step).reasonForExitFailure with ⟨-, hswitch⟩ | hstay
        · rw [hswitch]
        · rw [hstay]
      · rfl
    · cases hexit
      rfl
  exact hexited.trans (htried.trans hchanged)

/-- A call keeps the site state, or completes and returns that of a path. -/
theorem callSequence_currentState {sequence : Sequence} {input : CallInput} {run : Run}
    {result : Run × Bool} (h : callSequence sequence input run = .ok result) :
    result.1.2.currentState = run.2.currentState ∨
      ∃ path ∈ sequence.paths, result.1.2.currentState = path.returnState := by
  obtain ⟨ready, hreset, hcall⟩ := of_bind_ok h
  have hready : ready.2.currentState = run.2.currentState := by
    have hsequence : (trySequenceReset input run).2.currentState = run.2.currentState := by
      unfold trySequenceReset
      dsimp only
      split_ifs <;> rfl
    unfold tryStepReset at hreset
    split_ifs at hreset
    · obtain ⟨path, -, hstart⟩ := of_bind_ok hreset
      cases hstart
      exact hsequence
    · cases hreset
      exact hsequence
  split_ifs at hcall
  · cases hcall
    exact Or.inl hready
  obtain ⟨stepped, hstep, hrest⟩ := of_bind_ok hcall
  obtain ⟨path, hpath, htimeout⟩ := of_bind_ok hrest
  have hmem : path ∈ sequence.paths := by
    unfold Sequence.pathAt at hpath
    split at hpath
    · next hget =>
      cases hpath
      exact List.mem_of_getElem? hget
    · exact absurd hpath (by simp)
  have hstepped := (callSequenceStep_currentState hstep).trans hready
  have hresult : result.1.2.currentState =
      (completeSequence path stepped).2.currentState := by
    unfold checkTimeout at htimeout
    split_ifs at htimeout
    · obtain ⟨_, -, hrestart⟩ := of_bind_ok htimeout
      cases hrestart
      rfl
    · cases htimeout
      rfl
  rw [hresult]
  unfold completeSequence
  split_ifs
  · exact Or.inr ⟨path, hmem, rfl⟩
  · exact Or.inl hstepped

/-- The functions and the timeout of a call only latch the timeout fault. -/
theorem storeFaults_same (input : IterationInput) (timedOut : Bool) (st : SiteState) :
    (storeFaults input timedOut st).status = st.status ∧
    getFaults (storeFaults input timedOut st) = (getFaults st || timedOut) ∧
    (storeFaults input timedOut st).disableFlag = st.disableFlag := by
  have hclear : ∃ cleared : SiteState, cleared.status = st.status ∧
      cleared.activeFaultArray = st.activeFaultArray ∧ cleared.disableFlag = st.disableFlag ∧
      storeFaults input timedOut st = if timedOut then setFaults 2 cleared else cleared := by
    unfold storeFaults
    cases input.functionClearsFaults with
    | none => exact ⟨st, rfl, rfl, rfl, rfl⟩
    | some clock => exact ⟨clearFaults clock st, rfl, rfl, rfl, rfl⟩
  obtain ⟨cleared, hstatus, hfaults, hdisable, hstore⟩ := hclear
  rw [hstore]
  cases timedOut with
  | true => exact ⟨hstatus, by rw [if_pos rfl, getFaults_setFaults, Bool.or_true], hdisable⟩
  | false => exact ⟨hstatus, by rw [Bool.or_false]; exact getFaults_congr hfaults, hdisable⟩

/-- What the sequence of an iteration does to the state, the faults and the
disable flag. -/
structure RunsSequence (config : SiteConfig) (st next : SiteState) (timedOut : Bool) : Prop where
  currentState : next.status.currentState = st.status.currentState ∨
    ∃ path ∈ (config.sequences st.status.currentState).paths,
      next.status.currentState = path.returnState
  faults : getFaults next = (getFaults st || timedOut)
  disableFlag : next.disableFlag = st.disableFlag

theorem runSequence_ok {timedOut : Bool} (h : runSequence config input st = .ok (next, timedOut)) :
    RunsSequence config st next timedOut := by
  obtain ⟨sequence, hsequence, hrest⟩ := of_bind_ok h
  obtain ⟨result, hcall, hstore⟩ := of_bind_ok hrest
  have hconfig : sequence = config.sequences st.status.currentState := by
    unfold SiteConfig.sequenceAt at hsequence
    split_ifs at hsequence
    exact (Except.ok.inj hsequence).symm
  subst hconfig
  obtain ⟨rfl, rfl⟩ := Prod.mk.inj (Except.ok.inj hstore)
  obtain ⟨hstatus, hfaults, hdisable⟩ := storeFaults_same input result.2
    (storeCall st.status.currentState result.1 st)
  refine ⟨?_, hfaults, hdisable⟩
  rw [hstatus]
  exact callSequence_currentState hcall

/-! ## One iteration -/

/-- An iteration is its check, its sequence, its dispatch and its outputs. -/
theorem processState_ok (h : processState config input st = .ok (next, done)) :
    ∃ ran timedOut,
      RunsSequence config (noteState (forceShutdown input (obeyClearFaults input
        (getValues input st)))) ran timedOut ∧
      next = setValues (dispatch ran) ∧ done = report timedOut ran := by
  obtain ⟨checked, hcheck, hrest⟩ := of_bind_ok h
  obtain ⟨⟨ran, timedOut⟩, hrun, hlast⟩ := of_bind_ok hrest
  obtain ⟨hnext, hdone⟩ := Prod.mk.inj (Except.ok.inj hlast)
  refine ⟨ran, timedOut, ?_, hnext.symm, hdone.symm⟩
  rw [← checkState_ok hcheck]
  exact runSequence_ok hrun

/-- Out of `Init` an iteration either dispatches shutdown or ready, or it has
found no fault and no disable flag, and a fault at its dispatch is its own
timeout. -/
theorem processState_gated (hreturns : ShutdownReturns config)
    (h : processState config input st = .ok (next, done)) (hinit : st.status.currentState ≠ .init) :
    (done.dispatched = .ready ∨ done.dispatched = .shutdown) ∨
      (getFaults st = false ∧ input.pathFaults = [] ∧ done.disabled = false ∧
        done.faulted = done.timedOut) := by
  obtain ⟨ran, timedOut, hran, -, rfl⟩ := processState_ok h
  obtain ⟨hstate, hfaults⟩ := obeyClearFaults_same input st
  obtain ⟨hnotedState, hnotedFaults, hnotedDisable⟩ := noteState_same
    (forceShutdown input (obeyClearFaults input (getValues input st)))
  rw [← hstate] at hinit
  rcases forceShutdown_cases input hinit with hforced | ⟨hnone, hempty, hoff, hkept⟩
  · refine Or.inl ?_
    rw [hforced] at hnotedState
    rcases hran.currentState with hsame | ⟨path, hpath, hreturn⟩
    · exact Or.inr (hsame.trans hnotedState)
    · rw [hnotedState] at hpath
      exact (hreturns path hpath).imp hreturn.trans hreturn.trans
  · refine Or.inr ⟨(getFaults_congr hfaults).symm.trans hnone, hempty, ?_, ?_⟩
    · change ran.disableFlag.value = false
      rw [hran.disableFlag, hnotedDisable, hkept, hoff]
    · change getFaults ran = timedOut
      rw [hran.faults, getFaults_congr hnotedFaults, hkept, hnone, Bool.false_or]

/-- The state functions keep the faults. -/
theorem dispatch_faults (st : SiteState) :
    (dispatch st).activeFaultArray = st.activeFaultArray := by
  unfold dispatch readyState runmode1State standbyState shutdownState
  split
  case h_1 | h_3 | h_5 | h_8 => rfl
  all_goals split_ifs <;> rfl

/-- A latched fault outlives an iteration that does not clear the registers. -/
theorem processState_faults (h : processState config input st = .ok (next, done))
    (hfaults : getFaults st = true) (hkept : done.cleared = false) : getFaults next = true := by
  obtain ⟨ran, timedOut, hran, rfl, rfl⟩ := processState_ok h
  have hread := getFaults_congr (obeyClearFaults_same input st).2
  have hchecked := forceShutdown_faults input (hread.trans hfaults)
  have hran' : getFaults ran = true := by
    rw [hran.faults, getFaults_congr (noteState_same _).2.1, hchecked, Bool.true_or]
  have hdispatched := (getFaults_congr (dispatch_faults ran)).trans hran'
  have hset : (setValues (dispatch ran)).activeFaultArray = (dispatch ran).activeFaultArray := by
    unfold setValues
    rw [if_neg (by rw [show clearsRegisters (dispatch ran) = false from hkept]; decide)]
    unfold uiConfiguration
    split_ifs <;> rfl
  exact (getFaults_congr hset).trans hdispatched

/-- A command latches faults, or leaves them alone. -/
theorem fimsDataParse_faults (command : Command) (h : getFaults st = true) :
    getFaults (fimsDataParse st command) = true := by
  cases command with
  | setFlag name selection input body => cases name <;> exact h
  | debugFault body clock =>
    cases body with
    | true => exact getFaults_setFaults 0 st
    | false => exact h
  | debugState body => exact h

/-! ## Runs -/

/-- An event is an iteration that clears the fault registers. -/
def ClearsFaults (config : SiteConfig) (st : SiteState) (event : Event) : Prop :=
  ∃ input next done, event = .iteration input ∧
    processState config input st = .ok (next, done) ∧ done.cleared = true

theorem siteStep_faults {event : Event} (h : siteStep config st event = .ok next)
    (hfaults : getFaults st = true) (hkept : ¬ ClearsFaults config st event) :
    getFaults next = true := by
  cases event with
  | command command =>
    cases h
    exact fimsDataParse_faults command hfaults
  | iteration input =>
    cases hiteration : processState config input st with
    | error e =>
      rw [siteStep, hiteration] at h
      exact absurd h (by simp [Except.map])
    | ok result =>
      rw [siteStep, hiteration] at h
      cases h
      refine processState_faults hiteration hfaults (Bool.eq_false_iff.mpr fun hcleared => ?_)
      exact hkept ⟨input, result.1, result.2, rfl, hiteration, hcleared⟩

/-- Over a run a latched fault is gone only after an iteration that clears the
registers. -/
theorem run_clears {events : List Event} (h : run (siteStep config) st events = .ok next)
    (hfaults : getFaults st = true) (hgone : getFaults next = false) :
    ∃ before event after mid, events = before ++ event :: after ∧
      run (siteStep config) st before = .ok mid ∧ ClearsFaults config mid event := by
  refine exists_of_not_guarded fun hguard => ?_
  have hkept := @run_invariant _ _ _ _ _ (fun st => getFaults st = true)
    (fun _ _ _ hs hg hstep => siteStep_faults hstep hs hg) _ _ _ hfaults hguard h
  exact Bool.false_ne_true (hgone.symm.trans hkept)

/-- An iteration that starts out of `Init` with a latched fault, latches one in
its check or has the disable flag set dispatches ready or shutdown. One that
dispatches another running state has the disable flag off, carries no fault but
its own timeout, and every earlier fault has been cleared in between. -/
theorem run_gated (config : SiteConfig) (hreturns : ShutdownReturns config)
    (input : IterationInput) (events : List Event) {earlier st next : SiteState} {done : Report}
    (hrun : run (siteStep config) earlier events = .ok st)
    (hiteration : processState config input st = .ok (next, done))
    (hinit : st.status.currentState ≠ .init) :
    (getFaults st = true ∨ input.pathFaults ≠ [] ∨ done.disabled = true →
      done.dispatched = .ready ∨ done.dispatched = .shutdown) ∧
    (Active done.dispatched →
      done.disabled = false ∧ (done.faulted = true → done.timedOut = true) ∧
      (getFaults earlier = true → ∃ before event after mid, events = before ++ event :: after ∧
        run (siteStep config) earlier before = .ok mid ∧ ClearsFaults config mid event)) := by
  rcases processState_gated hreturns hiteration hinit with
    hside | ⟨hnone, hempty, hoff, htimeout⟩
  · refine ⟨fun _ => hside, fun hactive => ?_⟩
    rcases hside with hside | hside <;> rw [hside] at hactive <;> exact absurd hactive (by decide)
  · refine ⟨fun hfound => ?_, fun _ => ⟨hoff, fun h => htimeout ▸ h, fun hfaults => ?_⟩⟩
    · rw [hnone, hempty, hoff] at hfound
      simp at hfound
    · exact run_clears hrun hfaults hnone

/-! ## A step that times out -/

/-- A sequence of one step that leaves by itself. -/
def bypassSequence (name : String) (state returnState : States) : Sequence where
  sequenceName := name
  state := state
  sequenceType := .site
  paths := [{
    pathName := "main"
    returnState := returnState
    timeout := -1
    steps := [{
      stepName := "bypass"
      entryActions := [⟨"/bypass", 0⟩]
      exitConditions := [⟨"/bypass", 0⟩]
      pathSwitch := false
      nextPath := 0 }] }]

/-- A run mode of one step that must end in one second. -/
def timedSequence : Sequence where
  sequenceName := "Run Mode 1"
  state := .runMode1
  sequenceType := .site
  paths := [{
    pathName := "main"
    returnState := .runMode1
    timeout := 1
    steps := [{
      stepName := "start ess"
      entryActions := [⟨"/ess/start_all_ess", 0⟩]
      exitConditions := [⟨"/ess/get_num_ess_running", 0⟩]
      pathSwitch := false
      nextPath := 0 }] }]

/-- A site whose run mode may time out. -/
def timeoutSite : SiteConfig where
  sequences
    | .init => bypassSequence "Init" .init .ready
    | .ready => bypassSequence "Ready" .ready .ready
    | .startup => bypassSequence "Startup" .startup .runMode1
    | .runMode1 => timedSequence
    | .runMode2 => bypassSequence "Run Mode 2" .runMode2 .runMode2
    | .standby => bypassSequence "Standby" .standby .standby
    | .shutdown => bypassSequence "Shutdown" .shutdown .ready
    | .error => bypassSequence "Error" .error .error

theorem timeoutSite_shutdownReturns : ShutdownReturns timeoutSite := by
  unfold ShutdownReturns
  decide

/-- A flag without inputs of its own. -/
def plainFlag (value : Bool) : InputFlag := ⟨value, false, []⟩

/-- A site that is to start. -/
def start : Start where
  debounceTargetTime _ _ _ _ := ⟨0, 0⟩
  clock := ⟨0, 0⟩
  enableFlag := plainFlag true
  disableFlag := plainFlag false
  standbyFlag := plainFlag false
  clearFaultsFlag := plainFlag false

/-- An iteration at a number of seconds whose entries succeed. -/
def iterationAt (seconds : ℤ) (exit : Bool) : IterationInput where
  call := {
    sequenceReset := false
    currentTime := ⟨seconds, 0⟩
    resetClock := ⟨seconds, 0⟩
    debounceClock _ := ⟨seconds, 0⟩
    timeoutClock := ⟨seconds, 0⟩
    entryResult _ := true
    exitResult _ := exit }
  inputSelection := 0
  clearFaultsClock := ⟨seconds, 0⟩
  pathFaults := []
  functionClearsFaults := none

/-- A running site with the debug fault. -/
def faultedSite : SiteState :=
  fimsDataParse (setState .runMode1 (constructed start)) (.debugFault true ⟨0, 0⟩)

theorem run_gated_timeoutSite :
    ∃ next done, processState timeoutSite (iterationAt 1 true) faultedSite = .ok (next, done) ∧
      (done.dispatched = .ready ∨ done.dispatched = .shutdown) := by
  have hdispatched : (processState timeoutSite (iterationAt 1 true) faultedSite).map
      (fun result => result.2.dispatched) = .ok .ready := by decide +kernel
  cases hiteration : processState timeoutSite (iterationAt 1 true) faultedSite with
  | error e =>
    rw [hiteration] at hdispatched
    exact absurd hdispatched (by simp [Except.map])
  | ok result =>
    exact ⟨result.1, result.2, rfl, (run_gated timeoutSite timeoutSite_shutdownReturns
      (iterationAt 1 true) [.command (.debugState 3), .command (.debugFault true ⟨0, 0⟩)]
      (show run (siteStep timeoutSite) (constructed start) _ = .ok faultedSite from rfl) hiteration (by decide)).1 (Or.inl (by decide))⟩

/-- The run mode dispatches with the fault that its own timeout has latched. -/
theorem timeoutSite_dispatches_faulted :
    ShutdownReturns timeoutSite ∧
    (run (siteStep timeoutSite) (constructed start)
        [.iteration (iterationAt 0 true), .iteration (iterationAt 1 true),
          .iteration (iterationAt 2 false)] >>= fun st =>
      (processState timeoutSite (iterationAt 4 false) st).map fun result =>
        (st.status.currentState, result.2)) =
      .ok (.runMode1, {
        dispatched := .runMode1
        faulted := true
        disabled := false
        timedOut := true
        cleared := false }) := by
  refine ⟨timeoutSite_shutdownReturns, ?_⟩
  decide +kernel

end HybridOs.SiteFaultGate
