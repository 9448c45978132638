import HybridOs.SchedulerScadaBounds

/-!
# Commands of the register interface

A command takes the staged events to the time zones of their schedules and edits these one
after another. It comes back where every schedule that it reads has a time zone and every edit
comes back. In every run from a configuration on, this and the checks of indices decide which
requests are handled.
-/

namespace HybridOs.Scheduler

open Handled

/-! ## What commands need -/

/-- The schedule of a staged event that can be converted has a time zone. -/
def ScadaState.StagedFits (st : ScadaState) (staged : ScadaEvent) : Prop :=
  ∀ siteId, staged.site = some siteId → (st.modes.lookup staged.modeId).isSome →
    (st.timezoneOf siteId).isSome

/-- The edits of the schedules of a map come back. -/
def ScadaState.EditsComeBack (st : ScadaState) (now : ℤ) (fuel : ℕ) (method : EditingMethod)
    (eLists : List (Sigma fun _ : String => EventList)) : Prop :=
  ∀ edit ∈ eLists, ∀ sched, st.masterSchedule.lookup edit.1 = some sched →
    ∃ proc result, editSchedule (st.context now) fuel st.config.appendCanEdit method edit.2
      ⟨sched, now⟩ = some (proc, .done result)

/-- The staged events can be taken to their schedules, and the edits there come back. -/
structure ScadaState.EditFits (st : ScadaState) (now : ℤ) (fuel : ℕ) (method : EditingMethod) :
    Prop where
  staged : ∀ staged ∈ st.stage, st.StagedFits (staged.selectSite st.onlySchedule)
  edits : ∀ eLists, (st.convertStage st.onlySchedule st.stage ∅).2 = .replied eLists →
    st.EditsComeBack now fuel method eLists.entries

/-- The schedule that the only staged event selects has a time zone. -/
def ScadaState.LoadFits (st : ScadaState) : Prop :=
  ∀ staged siteId, st.stage = [staged] → staged.site = some siteId →
    (st.timezoneOf siteId).isSome

/-- The editing method of a command. -/
def editingMethod (command : ℤ) : Option EditingMethod :=
  if command = 1 then some .append
  else if command = 2 then some .overwrite
  else if command = 4 then some .delete
  else none

/-- A command finds what it needs. -/
structure ScadaState.CommandFits (st : ScadaState) (now : ℤ) (fuel : ℕ) (command : ℤ) : Prop where
  edit : ∀ method, editingMethod command = some method → st.EditFits now fuel method
  load : command = 3 → st.LoadFits

/-- A SET has a fourth fragment, gives no negative number to the mode of a staged event and
commands nothing that does not come back. -/
structure ScadaState.SetFits (st : ScadaState) (now : ℤ) (fuel : ℕ) (msg : ScadaMsg) : Prop where
  frags : 4 ≤ msg.frags.length
  command : msg.frags[3]? = some "command" → ∀ command,
    (unwrapVariable msg.body).castToInt = some command → st.CommandFits now fuel command
  stage : msg.frags[3]? ≠ some "command" →
    ¬ (st.writtenVar msg.frags = some "mode" ∧ NegativeNumber msg.body)

/-! ## From the stage to events -/

section Conversion

variable {st : ScadaState} {eScada : ScadaEvent} {cfg : ScadaConfiguration}
  {stage : List ScadaEvent}

/-- The slots that the mode's variables are read from are there. -/
theorem ScadaEvent.Sized.convertVariables (h : eScada.Sized cfg) (vars : SetpointList)
    {next : NextSlots} (hnext : next.Natural) (variableMap : VariableMap) :
    (eScada.convertVariables cfg vars next variableMap).Replies fun _ => True := by
  have hfloats := h.floats
  have hints := h.ints
  have hbools := h.bools
  have hstrings := h.strings
  induction vars generalizing next variableMap with
  | nil => exact replies_replied trivial
  | cons sp rest ih =>
    have hfloat := hnext.float
    have hint := hnext.int
    have hbool := hnext.bool
    have hstring := hnext.string
    rw [ScadaEvent.convertVariables]
    split
    · split_ifs with hfull
      · exact replies_replied trivial
      · exact (index_replies hfloat (by omega)).bind fun value _ => ih hnext.afterFloat _
    · split_ifs with hfull
      · exact replies_replied trivial
      · exact (index_replies hint (by omega)).bind fun value _ => ih hnext.afterInt _
    · split_ifs with hfull
      · exact replies_replied trivial
      · exact (index_replies hbool (by omega)).bind fun value _ => ih hnext.afterBool _
    · split_ifs with hfull
      · exact replies_replied trivial
      · exact (index_replies hstring (by omega)).bind fun value _ => ih hnext.afterString _
    · exact ih hnext _

/-- The conversion of an event comes back where its schedule has a time zone. -/
theorem ScadaEvent.Sized.convertToEvent (h : eScada.Sized st.config) (hfits : st.StagedFits eScada) :
    (eScada.convertToEvent st).Replies fun _ => True := by
  rw [ScadaEvent.convertToEvent]
  split
  next siteId m hsite hmode =>
    have hzone := hfits siteId hsite (by rw [hmode]; rfl)
    obtain ⟨loc, hloc⟩ := Option.isSome_iff_exists.mp hzone
    unfold ScadaEvent.getEventTime
    rw [hloc, Handled.replied_bind]
    exact (h.convertVariables _ ⟨le_rfl, le_rfl, le_rfl, le_rfl⟩ _).bind fun _ _ =>
      replies_replied trivial
  · exact replies_replied trivial

theorem ScadaEvent.convertToEvent_panicked (h : ¬ st.StagedFits eScada) :
    eScada.convertToEvent st = .panicked := by
  unfold ScadaState.StagedFits at h
  push Not at h
  obtain ⟨siteId, hsite, hmode, hzone⟩ := h
  obtain ⟨m, hm⟩ := Option.isSome_iff_exists.mp hmode
  have hnone : st.timezoneOf siteId = none := by simpa using hzone
  have hpanic : eScada.getEventTime none = .panicked := rfl
  rw [ScadaEvent.convertToEvent, hsite, hm]
  dsimp only
  rw [hnone, hpanic, Handled.panicked_bind]

theorem ScadaEvent.Sized.selectSite (h : eScada.Sized cfg) (site : Option String) :
    (eScada.selectSite site).Sized cfg := by
  unfold ScadaEvent.selectSite
  split
  · exact h
  · exact ⟨h.floats, h.ints, h.bools, h.strings⟩

/-- The stage that converting leaves has as many events of the same sizes. -/
theorem ScadaState.convertStage_sized (site : Option String)
    (hsized : ∀ staged ∈ stage, staged.Sized st.config)
    (eLists : AList fun _ : String => EventList) :
    (st.convertStage site stage eLists).1.length = stage.length ∧
      ∀ staged ∈ (st.convertStage site stage eLists).1, staged.Sized st.config := by
  induction stage generalizing eLists with
  | nil => simp [ScadaState.convertStage]
  | cons eScada rest ih =>
    have hhead := (hsized eScada List.mem_cons_self).selectSite site
    have hrest : ∀ staged ∈ rest, staged.Sized st.config := fun staged hstaged =>
      hsized staged (List.mem_cons_of_mem _ hstaged)
    rw [ScadaState.convertStage]
    dsimp only
    split
    · refine ⟨by simp [(ih hrest _).1], ?_⟩
      exact List.forall_mem_cons.mpr ⟨hhead, (ih hrest _).2⟩
    · refine ⟨by simp [(ih hrest _).1], ?_⟩
      exact List.forall_mem_cons.mpr ⟨hhead, (ih hrest _).2⟩
    · refine ⟨by simp [(ih hrest _).1], ?_⟩
      exact List.forall_mem_cons.mpr ⟨hhead, (ih hrest _).2⟩
    · refine ⟨by simp, ?_⟩
      exact List.forall_mem_cons.mpr ⟨hhead, hrest⟩

/-- The conversion of a stage comes back if and only if that of every event does. -/
theorem ScadaState.convertStage_replies_iff (site : Option String)
    (hsized : ∀ staged ∈ stage, staged.Sized st.config)
    (eLists : AList fun _ : String => EventList) :
    ((st.convertStage site stage eLists).2.Replies fun _ => True) ↔
      ∀ staged ∈ stage, st.StagedFits (staged.selectSite site) := by
  induction stage generalizing eLists with
  | nil => simp [ScadaState.convertStage, Handled.Replies]
  | cons eScada rest ih =>
    have hhead := (hsized eScada List.mem_cons_self).selectSite site
    have hrest : ∀ staged ∈ rest, staged.Sized st.config := fun staged hstaged =>
      hsized staged (List.mem_cons_of_mem _ hstaged)
    rw [List.forall_mem_cons, ScadaState.convertStage]
    by_cases hfits : st.StagedFits (eScada.selectSite site)
    · obtain ⟨converted, hconverted, -⟩ := hhead.convertToEvent hfits
      rw [hconverted]
      cases converted with
      | none | some eNew =>
        dsimp only
        rw [ih hrest]
        exact (and_iff_right hfits).symm
    · rw [ScadaEvent.convertToEvent_panicked hfits]
      simp [hfits, Handled.Replies]

end Conversion

/-! ## The edits of schedules -/

section Edits

variable {st : ScadaState} {now : ℤ} {fuel : ℕ} {method : EditingMethod}

/-- Where a local schedule is configured, the edit of a schedule does not panic. -/
theorem editSchedule_done {ctx : Context} (hlocal : ctx.hasLocalSchedule = true)
    {appendCanEdit : Bool} {eList : EventList} {proc proc' : Process}
    {result : Return (Except EditError Unit)}
    (h : editSchedule ctx fuel appendCanEdit method eList proc = some (proc', result)) :
    result ≠ .panicked := by
  cases method with
  | overwrite =>
    rw [editSchedule, Process.handleFullScheduleSet] at h
    split at h
    · cases h
      simp
    · exact Process.overwrite_done hlocal h
  | append =>
    rw [editSchedule] at h
    split_ifs at h
    · rw [Process.handleFullSchedulePatch] at h
      split at h
      · cases h
      · cases h
        simp
      · split at h
        · cases h
          simp
        · exact Process.overwrite_done hlocal h
    · rw [Process.handleFullSchedulePost] at h
      split at h
      · cases h
        simp
      · exact Process.overwrite_done hlocal h
  | delete =>
    rw [editSchedule, Process.deleteMultipleEvents] at h
    exact Process.overwrite_done hlocal h

/-- Where a local schedule is configured, the edits come back if they come to an end. -/
theorem ScadaState.editsComeBack_of_localSchedule (hlocal : st.hasLocalSchedule = true)
    {eLists : List (Sigma fun _ : String => EventList)}
    (hends : ∀ edit ∈ eLists, ∀ sched, st.masterSchedule.lookup edit.1 = some sched →
      (editSchedule (st.context now) fuel st.config.appendCanEdit method edit.2
        ⟨sched, now⟩).isSome) : st.EditsComeBack now fuel method eLists := by
  intro edit hedit sched hsched
  obtain ⟨⟨proc, result⟩, hresult⟩ := Option.isSome_iff_exists.mp (hends edit hedit sched hsched)
  have hconfigured : (st.context now).hasLocalSchedule = true := hlocal
  have hdone := editSchedule_done hconfigured hresult
  cases result with
  | done answer => exact ⟨proc, answer, hresult⟩
  | panicked => exact absurd rfl hdone

/-- A state that differs in the schedule of one site, the enumerated sites, the slots and the
stage. -/
structure ScadaState.SameBut (siteId : String) (st st' : ScadaState) : Prop where
  config : st'.config = st.config
  modes : st'.modes = st.modes
  hasLocalSchedule : st'.hasLocalSchedule = st.hasLocalSchedule
  masterSchedule : ∀ other, other ≠ siteId →
    st'.masterSchedule.lookup other = st.masterSchedule.lookup other

theorem ScadaState.setSchedule_sameBut (siteId : String) (sched : Schedule) :
    st.SameBut siteId (st.setSchedule siteId sched) :=
  ⟨rfl, rfl, rfl, fun _ hother => AList.lookup_insert_ne hother⟩

variable {eLists : List (Sigma fun _ : String => EventList)}

/-- The edits of the other schedules come back as before. -/
theorem ScadaState.SameBut.editsComeBack {siteId : String} {st' : ScadaState}
    (h : st.SameBut siteId st') (hother : siteId ∉ eLists.keys) :
    st'.EditsComeBack now fuel method eLists ↔ st.EditsComeBack now fuel method eLists := by
  have hctx : st'.context now = st.context now := by
    rw [ScadaState.context, ScadaState.context, h.modes, h.hasLocalSchedule]
  unfold ScadaState.EditsComeBack
  rw [hctx, h.config]
  refine forall₂_congr fun edit hedit => ?_
  have hne : edit.1 ≠ siteId := by
    rintro rfl
    exact hother (List.mem_keys_of_mem hedit)
  rw [h.masterSchedule _ hne]

/-- An edit that succeeds refreshes an allocated state. -/
theorem ScadaState.Allocated.refreshed (h : st.Allocated) (siteId : String) (sched : Schedule) :
    (st.setSchedule siteId sched).refreshSiteEnums.updateScadaRegs.Replies fun st' =>
      st'.Allocated ∧ st.SameBut siteId st' := by
  refine (h.setSchedule siteId sched).refreshSiteEnums.updateScadaRegs.mono fun st' hst' => ?_
  obtain ⟨hallocated, slots, rfl⟩ := hst'
  exact ⟨hallocated, rfl, rfl, rfl, fun _ hother => AList.lookup_insert_ne hother⟩

/-- Editing schedules keeps the state allocated, and comes back if and only if every edit
does. -/
theorem ScadaState.Allocated.editSchedules (h : st.Allocated) (now : ℤ) (fuel : ℕ)
    (method : EditingMethod) (hnodup : eLists.NodupKeys) :
    (∀ st' result, st.editSchedules now fuel method eLists = some (st', result) →
      st'.Allocated) ∧
    ((∃ st', st.editSchedules now fuel method eLists = some (st', .replied ())) ↔
      st.EditsComeBack now fuel method eLists) ∧
    ∀ st' err, st.editSchedules now fuel method eLists ≠ some (st', .failed err) := by
  induction eLists generalizing st with
  | nil =>
    refine ⟨fun st' result heq => ?_, ?_, fun st' err heq => ?_⟩
    · cases heq
      exact h
    · exact iff_of_true ⟨st, rfl⟩ fun edit hedit => absurd hedit List.not_mem_nil
    · cases heq
  | cons edit rest ih =>
    obtain ⟨siteId, inputEventList⟩ := edit
    obtain ⟨hfresh, hrest⟩ := List.nodupKeys_cons.mp hnodup
    have hsplit : st.EditsComeBack now fuel method (⟨siteId, inputEventList⟩ :: rest) ↔
        (∀ sched, st.masterSchedule.lookup siteId = some sched →
          ∃ proc result, editSchedule (st.context now) fuel st.config.appendCanEdit method
            inputEventList ⟨sched, now⟩ = some (proc, .done result)) ∧
        st.EditsComeBack now fuel method rest := List.forall_mem_cons
    rw [hsplit]
    unfold ScadaState.editSchedules
    cases hlookup : st.masterSchedule.lookup siteId with
    | none =>
      obtain ⟨hallocated, hcomes, hfails⟩ := ih h hrest
      refine ⟨hallocated, ?_, hfails⟩
      rw [hcomes]
      exact (and_iff_right (by simp)).symm
    | some sched =>
      dsimp only
      split
      next hnone => simp [hnone]
      next proc hpanic =>
        refine ⟨fun st' result heq => ?_, ?_, fun st' err heq => ?_⟩
        · cases heq
          exact h.setSchedule siteId proc.schedule
        · simp [hpanic]
        · cases heq
      next proc err hdone =>
        have hsame := st.setSchedule_sameBut siteId proc.schedule
        obtain ⟨hallocated, hcomes, hfails⟩ := ih (h.setSchedule siteId proc.schedule) hrest
        refine ⟨hallocated, ?_, hfails⟩
        rw [hcomes, hsame.editsComeBack hfresh]
        refine (and_iff_right fun other hother => ?_).symm
        cases hother
        exact ⟨proc, _, hdone⟩
      next proc hdone =>
        obtain ⟨refreshed, hrefreshed, hagain, hsame⟩ := h.refreshed siteId proc.schedule
        rw [hrefreshed]
        obtain ⟨hallocated, hcomes, hfails⟩ := ih hagain hrest
        refine ⟨hallocated, ?_, hfails⟩
        rw [hcomes, hsame.editsComeBack hfresh]
        refine (and_iff_right fun other hother => ?_).symm
        cases hother
        exact ⟨proc, _, hdone⟩

end Edits

/-! ## Commands -/

/-- A request came back: with a reply or with an error. -/
def CameBack {α : Type} (result : Option (ScadaState × Handled α)) : Prop :=
  ∃ st r, result = some (st, r) ∧ r ≠ .panicked

/-- A request that comes to an end leaves an allocated state. -/
def LeavesAllocated {α : Type} (result : Option (ScadaState × Handled α)) : Prop :=
  ∀ st r, result = some (st, r) → st.Allocated

@[simp] theorem cameBack_some {α : Type} {st : ScadaState} {r : Handled α} :
    CameBack (some (st, r)) ↔ r ≠ .panicked := by
  simp [CameBack]

@[simp] theorem leavesAllocated_some {α : Type} {st : ScadaState} {r : Handled α} :
    LeavesAllocated (some (st, r)) ↔ st.Allocated := by
  simp [LeavesAllocated]

section Commands

variable {st : ScadaState} {now : ℤ} {fuel : ℕ} {method : EditingMethod} {command : ℤ}

theorem ScadaState.Allocated.clearStage (h : st.Allocated) :
    st.clearStage.1.Allocated ∧ st.clearStage.2 ≠ .panicked := by
  have hcleared : st.clearStage.1.Allocated :=
    h.withStage _ (List.length_map _) fun staged hstaged => by
      obtain ⟨_, -, rfl⟩ := List.mem_map.mp hstaged
      exact ScadaEvent.reset_sized h.natural
  exact ⟨hcleared, hcleared.pubScadaStage.ne_panicked⟩

/-- An edit command keeps the state allocated, and comes back if and only if it fits. -/
theorem ScadaState.Allocated.scadaEdit (h : st.Allocated) :
    LeavesAllocated (st.scadaEdit now fuel method) ∧
      (CameBack (st.scadaEdit now fuel method) ↔ st.EditFits now fuel method) := by
  obtain ⟨hlength, hsized⟩ := st.convertStage_sized st.onlySchedule h.stage_sized ∅
  have hreplies := st.convertStage_replies_iff st.onlySchedule h.stage_sized ∅
  have hconverted := h.withStage _ hlength hsized
  unfold ScadaState.scadaEdit
  split
  next stage eLists hconvert =>
    rw [hconvert] at hreplies hconverted
    have hstaged := hreplies.mp (replies_replied trivial)
    have hfits : st.EditFits now fuel method ↔
        ({ st with stage } : ScadaState).EditsComeBack now fuel method eLists.entries := by
      constructor
      · intro hfits
        exact hfits.edits eLists (by rw [hconvert])
      · intro hedits
        refine ⟨hstaged, fun other hother => ?_⟩
        rw [hconvert] at hother
        cases hother
        exact hedits
    obtain ⟨hallocated, hcomes, hfails⟩ := hconverted.editSchedules now fuel method
      eLists.nodupKeys
    rw [hfits, ← hcomes]
    split
    next edited hedited =>
      have hcleared := (hallocated _ _ hedited).clearStage
      refine ⟨leavesAllocated_some.mpr hcleared.1, ?_⟩
      exact iff_of_true (cameBack_some.mpr hcleared.2) ⟨edited, hedited⟩
    next hnot =>
      refine ⟨hallocated, ?_⟩
      constructor
      · rintro ⟨edited, r, hedited, hr⟩
        cases r with
        | replied u => exact absurd hedited (hnot edited)
        | failed err => exact absurd hedited (hfails edited err)
        | panicked => exact absurd rfl hr
      · rintro ⟨edited, hedited⟩
        exact absurd hedited (hnot edited)
  next stage converted hnot hconvert =>
    rw [hconvert] at hreplies hconverted
    refine ⟨leavesAllocated_some.mpr hconverted, ?_⟩
    refine iff_of_false (by simp) fun hfits => ?_
    obtain ⟨eLists, heq, -⟩ := hreplies.mpr hfits.staged
    exact hnot eLists (by rw [← heq])

/-- Loading keeps the state allocated, and comes back if and only if the schedule that is
selected has a time zone. -/
theorem ScadaState.Allocated.loadStage (h : st.Allocated) :
    st.loadStage.1.Allocated ∧ (st.loadStage.2 ≠ .panicked ↔ st.LoadFits) := by
  unfold ScadaState.loadStage ScadaState.LoadFits
  split
  next hstage => exact ⟨h, by simp [hstage]⟩
  next staged hstage =>
    split
    next hsite =>
      refine ⟨h, iff_of_true (by simp) fun staged' siteId hstage' hsite' => ?_⟩
      rw [hstage] at hstage'
      cases hstage'
      rw [hsite] at hsite'
      cases hsite'
    next siteId hsite =>
      have hfits : (∀ staged' siteId', st.stage = [staged'] → staged'.site = some siteId' →
          (st.timezoneOf siteId').isSome) ↔ (st.timezoneOf siteId).isSome := by
        constructor
        · intro hfits
          exact hfits staged siteId hstage hsite
        · intro hzone staged' siteId' hstage' hsite'
          rw [hstage] at hstage'
          cases hstage'
          rw [hsite] at hsite'
          cases hsite'
          exact hzone
      rw [hfits]
      cases hzone : st.timezoneOf siteId with
      | none =>
        have hpanic : staged.getEventTime none = .panicked := rfl
        rw [hpanic]
        exact ⟨h, by simp⟩
      | some loc =>
        obtain ⟨startTime, htime⟩ : ∃ startTime, staged.getEventTime (some loc) =
          .replied startTime := ⟨_, rfl⟩
        rw [htime]
        dsimp only
        split
        · exact ⟨h, by simp⟩
        next e hfound =>
          obtain ⟨⟨filled, filledAll⟩, hfilled, hsized⟩ :=
            ScadaEvent.fillWithData_sized h.natural st.modes e siteId
          have hloaded := h.withStage [filled] (by rw [hstage]; rfl)
            (by simpa using hsized)
          rw [hfilled]
          cases filledAll with
          | false => exact ⟨hloaded, by simp⟩
          | true => exact ⟨hloaded, by simp [hloaded.pubScadaStage.ne_panicked]⟩
  next hnil hsingle =>
    refine ⟨h, iff_of_true (by simp) fun staged siteId hstage _ => ?_⟩
    exact absurd hstage (hsingle staged)

theorem ScadaState.Allocated.clearSchedules (h : st.Allocated) (siteIds : List String) :
    (siteIds.foldl ScadaState.clearSchedule st).Allocated := by
  induction siteIds generalizing st with
  | nil => exact h
  | cons siteId rest ih =>
    refine ih ?_
    unfold ScadaState.clearSchedule
    split
    · exact h.setSchedule _ _
    · exact h

theorem ScadaState.Allocated.clearMasterSchedule (h : st.Allocated) :
    st.clearMasterSchedule.1.Allocated ∧ st.clearMasterSchedule.2 ≠ .panicked := by
  obtain ⟨st', hupdated, hallocated, -⟩ :=
    (h.clearSchedules st.masterSchedule.keys).refreshSiteEnums.updateScadaRegs
  unfold ScadaState.clearMasterSchedule
  dsimp only
  rw [hupdated]
  exact ⟨hallocated, by simp⟩

/-- A command keeps the state allocated, and comes back if and only if it fits. -/
theorem ScadaState.Allocated.commandScada (h : st.Allocated) (now : ℤ) (fuel : ℕ) (command : ℤ) :
    LeavesAllocated (st.commandScada now fuel command) ∧
      (CameBack (st.commandScada now fuel command) ↔ st.CommandFits now fuel command) := by
  have hedit : ∀ method, editingMethod command = some method →
      (st.CommandFits now fuel command ↔ st.EditFits now fuel method) := by
    intro method hmethod
    constructor
    · intro hfits
      exact hfits.edit method hmethod
    · intro hfits
      refine ⟨fun other hother => ?_, fun hload => ?_⟩
      · rw [hmethod] at hother
        cases hother
        exact hfits
      · rw [hload] at hmethod
        cases hmethod
  have hnothing : editingMethod command = none → command ≠ 3 →
      st.CommandFits now fuel command := by
    intro hmethod hload
    refine ⟨fun other hother => ?_, fun heq => absurd heq hload⟩
    rw [hmethod] at hother
    cases hother
  unfold ScadaState.commandScada
  split_ifs with hnone happend hoverwrite hload hdelete hclearStage hclear
  · subst hnone
    exact ⟨leavesAllocated_some.mpr h,
      iff_of_true (cameBack_some.mpr (by simp)) (hnothing rfl (by decide))⟩
  · subst happend
    rw [hedit .append rfl]
    exact h.scadaEdit
  · subst hoverwrite
    rw [hedit .overwrite rfl]
    exact h.scadaEdit
  · subst hload
    have hfits : st.CommandFits now fuel 3 ↔ st.LoadFits := by
      constructor
      · intro hfits
        exact hfits.load rfl
      · intro hfits
        refine ⟨fun method hmethod => ?_, fun _ => hfits⟩
        cases hmethod
    rw [hfits]
    exact ⟨leavesAllocated_some.mpr h.loadStage.1, cameBack_some.trans h.loadStage.2⟩
  · subst hdelete
    rw [hedit .delete rfl]
    exact h.scadaEdit
  · subst hclearStage
    exact ⟨leavesAllocated_some.mpr h.clearStage.1,
      iff_of_true (cameBack_some.mpr h.clearStage.2) (hnothing rfl (by decide))⟩
  · subst hclear
    exact ⟨leavesAllocated_some.mpr h.clearMasterSchedule.1,
      iff_of_true (cameBack_some.mpr h.clearMasterSchedule.2) (hnothing rfl (by decide))⟩
  · have hmethod : editingMethod command = none := by
      rw [editingMethod, if_neg happend, if_neg hoverwrite, if_neg hdelete]
    exact ⟨leavesAllocated_some.mpr h,
      iff_of_true (cameBack_some.mpr (by simp)) (hnothing hmethod hload)⟩

theorem commandReply_cameBack_iff (result : Option (ScadaState × Handled Unit)) :
    CameBack (commandReply result) ↔ CameBack result := by
  unfold commandReply
  split <;> simp [CameBack]

theorem commandReply_leavesAllocated {result : Option (ScadaState × Handled Unit)}
    (h : LeavesAllocated result) : LeavesAllocated (commandReply result) := by
  intro st r heq
  unfold commandReply at heq
  split at heq
  all_goals
    cases heq
    try exact h _ _ rfl

/-- A SET keeps the state allocated, and comes back if and only if it is none to the stage or
fits. -/
theorem ScadaState.Allocated.handleScadaSet (h : st.Allocated) (msg : ScadaMsg) :
    LeavesAllocated (st.handleScadaSet now fuel msg) ∧
      (CameBack (st.handleScadaSet now fuel msg) ↔
        ("/scheduler/scada/write".toList <+: msg.uri.toList → st.SetFits now fuel msg)) := by
  unfold ScadaState.handleScadaSet
  split_ifs with hwrite
  · rw [forall_prop_of_true hwrite]
    by_cases hlength : 4 ≤ msg.frags.length
    · obtain ⟨frag, hfrag⟩ : ∃ frag, msg.frags[3]? = some frag :=
        ⟨msg.frags[3], List.getElem?_eq_getElem hlength⟩
      have hindex : index msg.frags 3 = .replied frag := by
        have hnat := index_ofNat hlength
        rw [List.getElem?_eq_getElem hlength, Option.some.injEq] at hfrag
        rw [hfrag] at hnat
        exact hnat
      rw [hindex]
      dsimp only
      split_ifs with hcommand
      · subst hcommand
        have hfits : st.SetFits now fuel msg ↔ ∀ command,
            (unwrapVariable msg.body).castToInt = some command →
              st.CommandFits now fuel command := by
          constructor
          · intro hfits
            exact hfits.command hfrag
          · intro hfits
            exact ⟨hlength, fun _ => hfits, fun hnot => absurd hfrag hnot⟩
        rw [hfits]
        split
        next hnone =>
          refine ⟨leavesAllocated_some.mpr h, iff_of_true (cameBack_some.mpr (by simp)) ?_⟩
          intro command hsome
          rw [hnone] at hsome
          cases hsome
        next command hsome =>
          obtain ⟨hallocated, hcomes⟩ := h.commandScada now fuel command
          refine ⟨commandReply_leavesAllocated hallocated, ?_⟩
          rw [commandReply_cameBack_iff, hcomes]
          simp [hsome]
      · have hfits : st.SetFits now fuel msg ↔
            ¬ (st.writtenVar msg.frags = some "mode" ∧ NegativeNumber msg.body) := by
          have hnot : msg.frags[3]? ≠ some "command" := by
            rw [hfrag]
            simpa using hcommand
          constructor
          · intro hfits
            exact hfits.stage hnot
          · intro hfits
            exact ⟨hlength, fun heq => absurd heq hnot, fun _ => hfits⟩
        have hedited := h.editStage msg frag
        obtain ⟨a, b, c, rest, hfrags⟩ : ∃ a b c rest, msg.frags = a :: b :: c :: frag :: rest := by
          rcases hmsg : msg.frags with _ | ⟨a, _ | ⟨b, _ | ⟨c, _ | ⟨d, rest⟩⟩⟩⟩
          all_goals rw [hmsg] at hfrag
          all_goals simp at hfrag
          exact ⟨a, b, c, rest, by rw [hfrag]⟩
        rw [publishStage_eq hedited, hfits, ← h.editStage_panicked_iff hfrags]
        exact ⟨leavesAllocated_some.mpr hedited, cameBack_some⟩
    · have hindex : index msg.frags 3 = .panicked := index_panicked (.inr (by omega))
      rw [hindex]
      refine ⟨leavesAllocated_some.mpr h, iff_of_false (by simp) fun hfits => ?_⟩
      exact hlength hfits.frags
  · refine ⟨leavesAllocated_some.mpr h, iff_of_true (cameBack_some.mpr (by simp)) ?_⟩
    exact fun hyes => absurd hyes hwrite

end Commands

/-! ## Runs -/

/-- A step of the interface: a SET, a change of the schedules and modes it shows, an update of
its slots, or a configuration that is accepted. -/
inductive ScadaState.Step : ScadaState → ScadaState → Prop where
  | set (now : ℤ) (fuel : ℕ) (msg : ScadaMsg) {st st' : ScadaState} {r : Handled GoValue} :
    st.handleScadaSet now fuel msg = some (st', r) → Step st st'
  | surroundings (siteEnums modeEnums : List String) (modes : ModeMap)
    (masterSchedule : AList fun _ : String => Schedule) (hasLocalSchedule : Bool)
    {st : ScadaState} :
    Step st { st with siteEnums, modeEnums, modes, masterSchedule, hasLocalSchedule }
  | update {st st' : ScadaState} : st.updateScadaRegs = .replied st' → Step st st'
  | reconfigure (newCfg : ScadaConfiguration) {st st' : ScadaState} :
    newCfg.validate = .ok () → st.reconfigureScadaInterface newCfg = .replied st' → Step st st'

theorem ScadaState.reconfigure_allocated {st st' : ScadaState} {newCfg : ScadaConfiguration}
    (hvalid : newCfg.validate = .ok ())
    (h : st.reconfigureScadaInterface newCfg = .replied st') : st'.Allocated := by
  have hnat := ScadaConfiguration.natural_of_validate hvalid
  obtain ⟨updated, hupdated, hallocated, -⟩ :=
    (ScadaState.allocate_allocated st hnat).updateScadaRegs
  rw [ScadaState.reconfigureScadaInterface, hupdated] at h
  cases h
  exact hallocated

theorem ScadaState.Step.allocated {st st' : ScadaState} (hstep : st.Step st')
    (h : st.Allocated) : st'.Allocated := by
  cases hstep with
  | set now fuel msg hset => exact (h.handleScadaSet msg).1 _ _ hset
  | surroundings siteEnums modeEnums modes masterSchedule hasLocalSchedule =>
    exact h.withSurroundings _ _ _ _ _
  | update hupdate =>
    obtain ⟨updated, hupdated, hallocated, -⟩ := h.updateScadaRegs
    rw [hupdated] at hupdate
    cases hupdate
    exact hallocated
  | reconfigure newCfg hvalid hreconfigured =>
    exact ScadaState.reconfigure_allocated hvalid hreconfigured

/-- In every run from an accepted configuration on the state is allocated. -/
theorem ScadaState.run_allocated {st start last : ScadaState} {cfg : ScadaConfiguration}
    (hvalid : cfg.validate = .ok ()) (hstart : st.reconfigureScadaInterface cfg = .replied start)
    (hrun : Relation.ReflTransGen ScadaState.Step start last) : last.Allocated := by
  induction hrun with
  | refl => exact ScadaState.reconfigure_allocated hvalid hstart
  | tail _ hstep ih => exact hstep.allocated ih

/-- A SET comes back, in as many steps as it takes. -/
def ScadaState.SetComesBack (st : ScadaState) (now : ℤ) (msg : ScadaMsg) : Prop :=
  ∃ fuel, CameBack (st.handleScadaSet now fuel msg)

/-- In every run of the interface, a GET comes back if and only if it does not read the slot
after the last one of a type, and a SET if and only if it is none to the stage or fits. -/
theorem ScadaState.comesBack_iff {st start last : ScadaState} {cfg : ScadaConfiguration}
    (hvalid : cfg.validate = .ok ()) (hstart : st.reconfigureScadaInterface cfg = .replied start)
    (hrun : Relation.ReflTransGen ScadaState.Step start last) :
    (∀ frags, last.handleScadaGet frags ≠ .panicked ↔ last.GetFits frags) ∧
      ∀ now msg, last.SetComesBack now msg ↔
        ("/scheduler/scada/write".toList <+: msg.uri.toList → ∃ fuel, last.SetFits now fuel msg) := by
  have h := ScadaState.run_allocated hvalid hstart hrun
  refine ⟨h.handleScadaGet_ne_panicked_iff, fun now msg => ?_⟩
  constructor
  · rintro ⟨fuel, hback⟩ hwrite
    exact ⟨fuel, (h.handleScadaSet msg).2.mp hback hwrite⟩
  · intro hfits
    by_cases hwrite : "/scheduler/scada/write".toList <+: msg.uri.toList
    · obtain ⟨fuel, hfuel⟩ := hfits hwrite
      exact ⟨fuel, (h.handleScadaSet msg).2.mpr fun _ => hfuel⟩
    · exact ⟨0, (h.handleScadaSet msg).2.mpr fun hyes => absurd hyes hwrite⟩

/-- One slot, which has one number, and a stage of one event. -/
def oneFloat : ScadaConfiguration where
  appendCanEdit := true
  stageSize := 1
  maxNumEvents := 1
  numFloats := 1
  numInts := 0
  numBools := 0
  numStrings := 0

/-- No schedules and no modes. -/
def emptyInterface : ScadaState where
  config := oneFloat
  slots := [⟨ScadaEvent.reset oneFloat, .unscheduled⟩]
  stage := [ScadaEvent.reset oneFloat]
  siteEnums := []
  modeEnums := []
  modes := ∅
  masterSchedule := ∅
  hasLocalSchedule := true

theorem emptyInterface_reconfigured :
    emptyInterface.reconfigureScadaInterface oneFloat = .replied emptyInterface := rfl

/-- A setpoint of a number. -/
def powerSetpoint : Setpoint where
  id := "power"
  name := "Power"
  unit := "kW"
  uri := "/power"
  varType := .float
  value := .float64 0
  isTemplate := false
  batchPrefix := ""
  batchRange := none
  batchValue := none

/-- A mode with one number. -/
def powerMode : Mode where
  modeVariables := [powerSetpoint]
  modeConstants := []
  colorCode := "red"
  icon := "plug"
  name := "Power"

/-- An event of an hour, every day at eight. -/
def dailyPower (id : Id) : Event where
  id := id
  startTime := ⟨1000 * day + 8 * hour, utc⟩
  duration := 60
  mode := "power"
  variableMap := (∅ : VariableMap).insert "power" (.float64 4617315517961601024)
  repeatSettings := { newNonRepeatingSeries with endCount := -1 }

/-- The schedule of the event. -/
def powerSchedule (id : Id) : Schedule where
  id := "site"
  timezone := some utc
  scheduledEvents := [dailyPower id]
  expiredEvents := []
  activeEvent := none
  cache := {id}
  randomSrc := fun _ => 0

/-- The interface after a mode and a schedule with an event of it have come. -/
def powerShown : ScadaState :=
  { emptyInterface with
    siteEnums := ["site"]
    modeEnums := ["power"]
    modes := (∅ : ModeMap).insert "power" powerMode
    masterSchedule := (∅ : AList fun _ : String => Schedule).insert "site" (powerSchedule 7) }

/-- A configured interface to which a mode and a schedule come. -/
theorem ScadaState.comesBack_iff_powerShown :
    (∀ frags, powerShown.handleScadaGet frags ≠ .panicked ↔ powerShown.GetFits frags) ∧
      ∀ now msg, powerShown.SetComesBack now msg ↔
        ("/scheduler/scada/write".toList <+: msg.uri.toList →
          ∃ fuel, powerShown.SetFits now fuel msg) :=
  ScadaState.comesBack_iff (by rfl) emptyInterface_reconfigured
    (.single (.surroundings ["site"] ["power"] _ _ true))

/-- A GET of the second number of a slot that has one panics. -/
theorem secondFloat_panics :
    ¬ ∀ (st start last : ScadaState) (cfg : ScadaConfiguration), cfg.validate = .ok () →
      st.reconfigureScadaInterface cfg = .replied start →
      Relation.ReflTransGen ScadaState.Step start last →
        (∀ frags, last.handleScadaGet frags ≠ .panicked) ∧ ∀ now msg, last.SetComesBack now msg := by
  intro hall
  obtain ⟨hget, -⟩ := hall _ _ _ oneFloat (by rfl) emptyInterface_reconfigured .refl
  exact hget ["scheduler", "scada", "read", "event_0", "float_2"] rfl

end HybridOs.Scheduler
