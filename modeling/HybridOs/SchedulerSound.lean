import HybridOs.SchedulerIds
import HybridOs.SchedulerRun

/-!
# Sound events

A sound event suits the map of modes, lasts less than a day and has repeat settings in order.
Validation accepts sound events and leaves sound ones, and a series that goes on stays sound
unless it is shifted to an occurrence at its own end time.
-/

namespace HybridOs.Scheduler

/-! ## Repeat settings in order -/

namespace Series

/-- Repeat settings in order, for an event that starts at a time. -/
structure Sound (ser : Series) (startTime : Time) : Prop where
  cycle : ∀ text, ser.cycle ≠ .other text
  dayMask : ser.cycle = .weekly → ser.dayMask &&& everyDayMask ≠ 0
  frequency : ser.frequency ≠ 0
  endCount : -1 ≤ ser.endCount
  endTime : ser.endCount = 0 → startTime.instant < ser.endTime.instant

/-- `addException` on the list. -/
def addTo (exceptions : List Time) (newException : Time) : List Time :=
  if exceptions.any (·.equal newException) then exceptions
  else sortExceptions (exceptions ++ [newException])

/-- One exception of `validateExceptions`. -/
def addAligned (startTime : Time) (kept : List Time) (exception : Time) : List Time :=
  if (applyNewDateToTime exception startTime).before startTime then kept
  else addTo kept (applyNewDateToTime exception startTime)

/-- `validateExceptions` on the list. -/
def alignExceptions (startTime : Time) (exceptions : List Time) : List Time :=
  exceptions.foldl (addAligned startTime) []

theorem addException_eq (ser : Series) (newException : Time) :
    ser.addException newException =
      { ser with exceptions := addTo ser.exceptions newException } := by
  rw [addException, hasException, addTo]
  split_ifs <;> rfl

/-- Validating exceptions changes the list of them only. -/
theorem validateExceptions_spec (ser : Series) (startTime : Time) :
    ser.validateExceptions startTime =
      { ser with exceptions := alignExceptions startTime ser.exceptions } := by
  have hfold : ∀ exceptions kept : List Time,
      exceptions.foldl (fun ser exception =>
        let alignedException := applyNewDateToTime exception startTime
        if alignedException.before startTime then ser else ser.addException alignedException)
        { ser with exceptions := kept } =
      { ser with exceptions := exceptions.foldl (addAligned startTime) kept } := by
    intro exceptions
    induction exceptions with
    | nil => exact fun kept => rfl
    | cons exception rest ih =>
      intro kept
      rw [List.foldl_cons, List.foldl_cons, addAligned]
      dsimp only
      split_ifs
      · exact ih kept
      · rw [addException_eq]
        exact ih _
  exact hfold ser.exceptions []

/-- The repeat settings that validation goes on with once the cycle and the day mask are in
order. -/
def completed (ser : Series) (startTime : Time) : Series :=
  (if ser.maskDays.dayMask = 0 then { ser.maskDays with dayMask := everyDayMask }
    else ser.maskDays).validateExceptions startTime

theorem completed_eq (ser : Series) (startTime : Time) : ∃ dayMask,
    ser.completed startTime = { ser with
      dayMask, exceptions := alignExceptions startTime ser.exceptions } ∧
      dayMask &&& everyDayMask = dayMask ∧ dayMask ≠ 0 := by
  rw [completed]
  split_ifs with hmask
  · exact ⟨everyDayMask, validateExceptions_spec _ _, by decide, by decide⟩
  · refine ⟨ser.dayMask &&& everyDayMask, validateExceptions_spec _ _, ?_, hmask⟩
    rw [UInt8.and_assoc, UInt8.and_self]

variable {ser : Series} {startTime : Time}

/-- Repeat settings for every day without exceptions are complete. -/
theorem completed_of_everyDay (startTime : Time) (hmask : ser.dayMask = everyDayMask)
    (hexceptions : ser.exceptions = []) : ser.completed startTime = ser := by
  have hmasked : ser.maskDays = ser := by
    simp only [maskDays, hmask, UInt8.and_self]
    rw [← hmask]
  have hnonzero : ¬ ser.dayMask = 0 := by
    rw [hmask]
    decide
  rw [completed, hmasked, if_neg hnonzero, validateExceptions, hexceptions, List.foldl_nil,
    ← hexceptions]

/-- Validation of repeat settings, step by step. -/
theorem validate_eq (startTime : Time) (hcycle : ∀ text, ser.cycle ≠ .other text) :
    ser.validate startTime =
      if ser.dayMask &&& everyDayMask = 0 ∧ ser.cycle = .weekly then .error .emptyDayMask
      else if ser.frequency = 0 then .error .zeroFrequency
      else if ser.endCount < -1 then .error .invalidEndCount else if ser.endCount ≠ 0 then
        .ok { ser.completed startTime with endTime := defaultSeriesEndTime }
      else if ser.endTime.instant ≤ startTime.instant then .error .endTimeNotAfterStartTime
      else .ok (ser.completed startTime) := by
  have hshape : ser.validate startTime = (do
      if ser.dayMask &&& everyDayMask = 0 ∧ ser.cycle = .weekly then throw .emptyDayMask
      if (ser.completed startTime).frequency = 0 then throw .zeroFrequency
      if (ser.completed startTime).endCount < -1 then throw .invalidEndCount
      if (ser.completed startTime).endCount ≠ 0 then
        return { ser.completed startTime with endTime := defaultSeriesEndTime }
      if !(ser.completed startTime).endTime.after startTime then throw .endTimeNotAfterStartTime
      return ser.completed startTime) := by
    unfold validate
    split
    next text htext => exact absurd htext (hcycle text)
    · rfl
  obtain ⟨dayMask, heq, -⟩ := ser.completed_eq startTime
  rw [hshape, heq]
  split_ifs <;> simp_all [Time.after] <;> rfl

/-- Repeat settings in order are accepted. -/
theorem Sound.validate (h : ser.Sound startTime) : ∃ ser', ser.validate startTime = .ok ser' := by
  have hmask : ¬ (ser.dayMask &&& everyDayMask = 0 ∧ ser.cycle = .weekly) := by
    rintro ⟨hzero, hweekly⟩
    exact h.dayMask hweekly hzero
  have hcount : ¬ ser.endCount < -1 := by
    have hle := h.endCount
    omega
  rw [validate_eq startTime h.cycle, if_neg hmask, if_neg h.frequency, if_neg hcount]
  split_ifs with hzero hend
  · exact ⟨_, rfl⟩
  · have hlt := h.endTime (by simpa using hzero)
    omega
  · exact ⟨_, rfl⟩

/-- Validation leaves repeat settings in order, and those it accepts were so. -/
theorem validate_sound {ser' : Series} (h : ser.validate startTime = .ok ser') :
    ser.Sound startTime ∧ ser'.Sound startTime := by
  have hcycle : ∀ text, ser.cycle ≠ .other text := by
    intro text hother
    unfold validate at h
    rw [hother] at h
    cases h
  obtain ⟨dayMask, heq, hmaskedDays, hnonzero⟩ := ser.completed_eq startTime
  have hdays : dayMask &&& everyDayMask ≠ 0 := by
    rw [hmaskedDays]
    exact hnonzero
  rw [validate_eq startTime hcycle, heq] at h
  split_ifs at h with hmask hfrequency hcount hzero hend
  · have hmasked : ser.cycle = .weekly → ser.dayMask &&& everyDayMask ≠ 0 := by
      intro hweekly hempty
      exact hmask ⟨hempty, hweekly⟩
    cases h
    refine ⟨⟨hcycle, hmasked, hfrequency, by omega, fun h => absurd h hzero⟩, hcycle,
      fun _ => hdays, hfrequency, ?_, fun h => absurd h hzero⟩
    change -1 ≤ ser.endCount
    omega
  · have hmasked : ser.cycle = .weekly → ser.dayMask &&& everyDayMask ≠ 0 := by
      intro hweekly hempty
      exact hmask ⟨hempty, hweekly⟩
    have hlt : startTime.instant < ser.endTime.instant := by omega
    cases h
    refine ⟨⟨hcycle, hmasked, hfrequency, by omega, fun _ => hlt⟩, hcycle,
      fun _ => hdays, hfrequency, ?_, fun _ => hlt⟩
    change -1 ≤ ser.endCount
    omega

/-- The repeat settings of an event that does not repeat are in order. -/
theorem newNonRepeatingSeries_sound (startTime : Time) : newNonRepeatingSeries.Sound startTime where
  cycle text := by simp [newNonRepeatingSeries]
  dayMask := by simp [newNonRepeatingSeries]
  frequency := by simp [newNonRepeatingSeries]
  endCount := by simp [newNonRepeatingSeries]
  endTime := by simp [newNonRepeatingSeries]

/-- Other exceptions leave repeat settings in order. -/
theorem Sound.withExceptions (h : ser.Sound startTime) (exceptions : List Time) :
    Sound { ser with exceptions } startTime :=
  ⟨h.cycle, h.dayMask, h.frequency, h.endCount, h.endTime⟩

end Series

/-! ## Sound events -/

namespace Event

/-- An event that validation accepts, for the variables of the modes. -/
structure Sound (mapOfVariables : String → Option SetpointList) (e : Event) : Prop where
  suits : ∃ modeVariables, mapOfVariables e.mode = some modeVariables ∧
    Suits modeVariables e.variableMap
  duration : e.timeDuration < 24 * hour
  repeatSettings : e.repeatSettings.Sound e.startTime

/-- A series that ends by its end time does not start at it. -/
def OffEnd (e : Event) : Prop :=
  e.repeatSettings.endCount = 0 → e.startTime.instant ≠ e.repeatSettings.endTime.instant

/-- The variables of all modes have distinct identifiers and known types. -/
def WellFormedModes (mapOfVariables : String → Option SetpointList) : Prop :=
  ∀ modeId modeVariables, mapOfVariables modeId = some modeVariables →
    WellFormedVariables modeVariables

section

variable {mapOfVariables : String → Option SetpointList} {e e' : Event}

/-- Validation accepts sound events. -/
theorem Sound.validate (h : e.Sound mapOfVariables) (hmodes : WellFormedModes mapOfVariables)
    (loc : Location) : ∃ e', e.validate (some loc) mapOfVariables = .ok e' := by
  obtain ⟨modeVariables, hmode, hsuits⟩ := h.suits
  obtain ⟨variableMap, hvariables⟩ :=
    validateVariables_of_suits hmode (hmodes _ _ hmode) hsuits
  have hrepeat : e.repeatSettings.Sound (e.startTime.inLocation loc) :=
    ⟨h.repeatSettings.cycle, h.repeatSettings.dayMask, h.repeatSettings.frequency,
      h.repeatSettings.endCount, h.repeatSettings.endTime⟩
  obtain ⟨repeatSettings, hsettings⟩ := hrepeat.validate
  have hduration : validateDuration e.timeDuration = .ok () := by
    have hlt := h.duration
    rw [validateDuration, if_neg (by omega)]
  refine ⟨{ e with startTime := e.startTime.inLocation loc, variableMap, repeatSettings }, ?_⟩
  rw [Event.validate, hduration, hvariables]
  simp only [pure_bind, hsettings]
  rfl

/-- Validation leaves sound events. -/
theorem validate_sound {timeZone : Option Location} (hmodes : WellFormedModes mapOfVariables)
    (h : e.validate timeZone mapOfVariables = .ok e') : e'.Sound mapOfVariables := by
  unfold Event.validate at h
  cases timeZone with
  | none => cases h
  | some loc =>
    obtain ⟨_, heq, h⟩ := CheckedRun.of_bind_ok h
    cases heq
    obtain ⟨_, hduration, h⟩ := CheckedRun.of_bind_ok h
    obtain ⟨variableMap, hvariables, h⟩ := CheckedRun.of_bind_ok h
    obtain ⟨repeatSettings, hrepeat, h⟩ := CheckedRun.of_bind_ok h
    cases h
    have hsettings : e.repeatSettings.validate (e.startTime.inLocation loc) = .ok repeatSettings := by
      cases hresult : e.repeatSettings.validate (e.startTime.inLocation loc) with
      | error err =>
        rw [hresult] at hrepeat
        cases hrepeat
      | ok repeatSettings' =>
        rw [hresult] at hrepeat
        cases hrepeat
        rfl
    cases hmode : mapOfVariables e.mode with
    | none =>
      rw [validateVariables, hmode] at hvariables
      cases hvariables
    | some modeVariables =>
      refine ⟨⟨modeVariables, hmode, ?_⟩, ?_, (Series.validate_sound hsettings).2⟩
      · exact validateVariables_suits hmode (hmodes _ _ hmode) hvariables
      · rw [validateDuration] at hduration
        split_ifs at hduration with hlong
        change e.timeDuration < 24 * hour
        omega

/-- The event on its own is sound at any start. -/
theorem Sound.oneOff (h : e.Sound mapOfVariables) (startTime : Time) :
    Sound mapOfVariables { e.oneOff with startTime } :=
  ⟨h.suits, h.duration, Series.newNonRepeatingSeries_sound startTime⟩

/-- The identifiers of an event do not matter. -/
theorem Sound.withId (h : e.Sound mapOfVariables) (id : Id) : (e.withId id).Sound mapOfVariables :=
  ⟨h.suits, h.duration, ⟨h.repeatSettings.cycle, h.repeatSettings.dayMask,
    h.repeatSettings.frequency, h.repeatSettings.endCount, h.repeatSettings.endTime⟩⟩

/-- An occurrence that is split from a sound series is sound. -/
theorem Sound.split (h : e.Sound mapOfVariables) {split : Event}
    (hsplit : e.shiftSeries.springForwardEvent = some split) : split.Sound mapOfVariables := by
  have heq : split = e.splitSpringForward e.nextStartTime := by
    unfold shiftSeries at hsplit
    dsimp only at hsplit
    split_ifs at hsplit
    split at hsplit <;> exact (Option.some.inj hsplit).symm
  have hone := h.oneOff e.nextStartTime
  rw [heq, splitSpringForward]
  split_ifs
  · rw [Series.addException]
    split_ifs
    · exact hone
    · exact ⟨hone.suits, hone.duration, hone.repeatSettings.withExceptions _⟩
  · exact hone

/-- An occurrence that is split from a series does not go on. -/
theorem split_over {split : Event} (hsplit : e.shiftSeries.springForwardEvent = some split) :
    split.shiftSeries.seriesOver = true := by
  have hcount := split_endCount hsplit
  have hlast : ∀ (ser : Series) (t : Time), ser.endCount = 1 → (ser.updateSeriesEnd t).2 = true := by
    intro ser t hone
    simp [Series.updateSeriesEnd, Series.isInfiniteSeries, hone]
  have hwithout (t : Time) : (split.withoutSpringForward t).repeatSettings.endCount = 1 := by
    rw [withoutSpringForward]
    split_ifs <;> exact hcount
  unfold shiftSeries
  dsimp only
  split_ifs
  · have hover := hlast _ split.nextStartTime (hwithout split.nextStartTime)
    split
    next => rfl
    next hfalse =>
      rw [hfalse] at hover
      cases hover
  · exact hlast _ _ hcount

/-- The series that goes on from a sound one is sound, if it does not start at its end time. -/
theorem Sound.shift (h : e.Sound mapOfVariables) (hgoes : e.shiftSeries.seriesOver = false)
    (hoff : e.shiftSeries.series.OffEnd) : e.shiftSeries.series.Sound mapOfVariables := by
  obtain ⟨startTime, exceptions, endCount, heq, hle, hend, -⟩ :=
    shiftSeries_goesOn hgoes h.repeatSettings.endCount
  rw [heq] at hoff ⊢
  refine ⟨h.suits, h.duration, h.repeatSettings.cycle, h.repeatSettings.dayMask,
    h.repeatSettings.frequency, hle, fun hzero => ?_⟩
  have hne := hoff hzero
  have hlast := (hend hzero).2
  change startTime.instant < e.repeatSettings.endTime.instant
  change startTime.instant ≠ e.repeatSettings.endTime.instant at hne
  omega

end

end Event

/-!
## Schedules of sound events

Checks, prunings and edits of a schedule keep its events sound, unless a series is shifted to an
occurrence at its own end time, a series that is over stays in the list, or an occurrence in the
skipped hour is trimmed to a day or more.
-/

namespace Schedule

/-- All events of a schedule have a property. -/
structure All (property : Event → Prop) (sched : Schedule) : Prop where
  expired : ∀ e ∈ sched.expiredEvents, property e
  scheduled : ∀ e ∈ sched.scheduledEvents, property e
  active : ∀ e, sched.activeEvent = some e → property e

/-- All events of a schedule are sound. -/
abbrev AllSound (mapOfVariables : String → Option SetpointList) (sched : Schedule) : Prop :=
  sched.All (Event.Sound mapOfVariables)

/-- The events of a schedule are those of its lists and the active one. -/
theorem mem_aggregateAllEvents {sched : Schedule} {e : Event} :
    e ∈ sched.aggregateAllEvents ↔ e ∈ sched.expiredEvents ∨ e ∈ sched.scheduledEvents ∨
      sched.activeEvent = some e := by
  have hmem : ∀ eList1 eList2 : EventList, e ∈ eList1.addList eList2 ↔ e ∈ eList1 ∨ e ∈ eList2 := by
    intro eList1 eList2
    induction eList2 generalizing eList1 with
    | nil => simp [EventList.addList]
    | cons e' rest ih =>
      have hrest := ih (eList1.add e')
      rw [EventList.addList] at hrest ⊢
      rw [List.foldl_cons, hrest, EventList.mem_add, List.mem_cons]
      tauto
  rw [aggregateAllEvents]
  cases hactive : sched.activeEvent with
  | none =>
    simp [hmem]
  | some active =>
    simp only [EventList.mem_add, hmem, List.not_mem_nil, false_or, Option.some.injEq]
    constructor
    · rintro (rfl | hexpired | hscheduled)
      · exact .inr (.inr rfl)
      · exact .inl hexpired
      · exact .inr (.inl hscheduled)
    · rintro (hexpired | hscheduled | rfl)
      · exact .inr (.inl hexpired)
      · exact .inr (.inr hscheduled)
      · exact .inl rfl

theorem all_iff {property : Event → Prop} {sched : Schedule} :
    sched.All property ↔ ∀ e ∈ sched.aggregateAllEvents, property e := by
  constructor
  · intro h e he
    rcases mem_aggregateAllEvents.mp he with hexpired | hscheduled | hactive
    · exact h.expired e hexpired
    · exact h.scheduled e hscheduled
    · exact h.active e hactive
  · intro h
    exact ⟨fun e he => h e (mem_aggregateAllEvents.mpr (.inl he)),
      fun e he => h e (mem_aggregateAllEvents.mpr (.inr (.inl he))),
      fun e he => h e (mem_aggregateAllEvents.mpr (.inr (.inr he)))⟩

section

variable {mapOfVariables : String → Option SetpointList}

/-! ## Organizing -/

/-- A series is shifted past its occurrences that have ended. -/
inductive ShiftsPast (now : ℤ) : Event → Event → Prop
  | refl (e : Event) : ShiftsPast now e e
  | step {e e' : Event} (passed : e.passedStartTime now = true) (ended : e.endTime.instant < now)
    (goesOn : e.shiftSeries.seriesOver = false) (rest : ShiftsPast now e.shiftSeries.series e') :
    ShiftsPast now e e'

/-- No occurrence that an event is shifted to by now starts at the end time of the series. -/
def SettlesOffEnd (now : ℤ) (e : Event) : Prop := ∀ e', ShiftsPast now e e' → e'.OffEnd

variable {eNew eOld series : Event} {property : Event → Prop} {mid : Schedule} {rest : EventList}

/-- Updating the active event by a sound one keeps it sound. -/
theorem updateVariables_sound {hasLocalSchedule : Bool} {modeVariables : SetpointList}
    (hmode : mapOfVariables eOld.mode = some modeVariables)
    (hnew : Suits modeVariables eNew.variableMap) (hold : eOld.Sound mapOfVariables)
    (updated : SetpointList) :
    (updateVariables hasLocalSchedule eNew updated eOld).1.Sound mapOfVariables := by
  induction updated generalizing eOld with
  | nil => exact hold
  | cons modeVar rest ih =>
    rw [updateVariables]
    split
    next oldVarVal newVarVal holdVal hnewVal =>
      split_ifs
      · exact hold
      · exact hold
      · refine ih hmode ⟨⟨modeVariables, hmode, ?_⟩, hold.duration, hold.repeatSettings⟩
        obtain ⟨modeVariables', hmode', hsuits⟩ := hold.suits
        cases hmode.symm.trans hmode'
        have hmem : modeVar.id ∈ eOld.variableMap := by
          rw [← AList.lookup_isSome, holdVal]
          rfl
        constructor
        · intro id
          rw [AList.mem_insert, ← hsuits.keys id]
          constructor
          · rintro (rfl | hid)
            · exact hmem
            · exact hid
          · exact .inr
        · intro v hv value hvalue
          by_cases hid : v.id = modeVar.id
          · rw [hid, AList.lookup_insert] at hvalue
            cases hvalue
            exact hnew.values v hv _ (by rw [hid]; exact hnewVal)
          · rw [AList.lookup_insert_ne hid] at hvalue
            exact hsuits.values v hv value hvalue
    · exact ih hmode hold

theorem updateActiveEvent_sound {ctx : Context} (hold : eOld.Sound ctx.mapOfVariables)
    (hnew : eNew.Sound ctx.mapOfVariables) :
    (updateActiveEvent ctx eOld eNew).1.Sound ctx.mapOfVariables := by
  rw [updateActiveEvent]
  split_ifs with hstart hmode
  · exact hold
  · exact hold
  · rw [not_not] at hmode
    have hsized : Event.Sound ctx.mapOfVariables { eOld with duration := eNew.duration } :=
      ⟨hold.suits, hnew.duration, hold.repeatSettings⟩
    split
    · exact hsized
    next modeVariables hvariables =>
      obtain ⟨modeVariables', hmode', hsuits⟩ := hnew.suits
      cases hvariables.symm.trans hmode'
      exact updateVariables_sound (by rw [← hvariables, ← hmode]) hsuits hsized modeVariables

variable {sched : Schedule}

/-- Tagging an event adds its identifier to the cache only. -/
theorem AllSound.assign (h : sched.AllSound mapOfVariables) (e : Event) :
    (sched.assignIdsToPeeledEvent e).1.AllSound mapOfVariables := by
  rw [assignIdsToPeeledEvent]
  split <;> exact ⟨h.expired, h.scheduled, h.active⟩

/-- A tagged event is the event, under another identifier. -/
theorem assignIdsToPeeledEvent_sound {e tagged : Event} (h : e.Sound mapOfVariables)
    (htagged : (sched.assignIdsToPeeledEvent e).2 = some tagged) : tagged.Sound mapOfVariables := by
  rw [assignIdsToPeeledEvent] at htagged
  split at htagged
  · cases htagged
    exact h.withId _
  · cases htagged

/-- Organizing sound events leaves sound events, where no series is shifted to its end time. -/
theorem sound_keptByOrganizing (ctx : Context) :
    KeptByOrganizing ctx (fun e => e.Sound ctx.mapOfVariables ∧ SettlesOffEnd ctx.now e)
      (AllSound ctx.mapOfVariables) where
  shift e := by
    rintro ⟨hsound, hoff⟩ hpassed hended hgoes
    refine ⟨hsound.shift hgoes (hoff _ (.step hpassed hended hgoes (.refl _))), ?_⟩
    intro e' hshifts
    exact hoff e' (.step hpassed hended hgoes hshifts)
  split e split := by
    rintro ⟨hsound, -⟩ hsplit
    have hsplitSound := hsound.split hsplit
    refine ⟨hsplitSound, fun e' hshifts => ?_⟩
    cases hshifts with
    | refl =>
      intro hzero heq
      have hlt := hsplitSound.repeatSettings.endTime hzero
      omega
    | step _ _ hgoes =>
      rw [Event.split_over hsplit] at hgoes
      cases hgoes
  saveExpired sched e := by
    rintro ⟨hsound, -⟩ hall
    have hassign := hall.assign e.oneOff
    rw [saveExpired]
    cases htagging : sched.assignIdsToPeeledEvent e.oneOff with
    | mk mid tagged =>
      rw [htagging] at hassign
      cases tagged with
      | none => exact hassign
      | some tagged =>
        have htagged : tagged.Sound ctx.mapOfVariables :=
          assignIdsToPeeledEvent_sound (hsound.oneOff e.startTime) (congrArg Prod.snd htagging)
        refine ⟨fun e' he' => ?_, hassign.scheduled, hassign.active⟩
        rcases EventList.mem_add.mp he' with rfl | hmem
        · exact htagged
        · exact hassign.expired e' hmem
  retroActive sched e := by
    rintro ⟨hsound, -⟩ hall
    refine ⟨hall.expired, hall.scheduled, fun e' he' => ?_⟩
    cases he'
    exact hsound
  update sched e eOld := by
    rintro ⟨hsound, -⟩ hall hactive
    refine ⟨hall.expired, hall.scheduled, fun e' he' => ?_⟩
    cases he'
    exact updateActiveEvent_sound (hall.active eOld hactive) hsound
  scheduled sched e := by
    rintro ⟨hsound, -⟩ hall
    refine ⟨hall.expired, fun e' he' => ?_, hall.active⟩
    rcases EventList.mem_add.mp he' with rfl | hmem
    · exact hsound
    · exact hall.scheduled e' hmem

/-! ## Checks -/

/-- Ending the active event keeps the events. -/
theorem All.endFinished (h : sched.All property) (now : ℤ) :
    (sched.endFinished now).1.All property := by
  unfold Schedule.endFinished
  split
  next active hactive =>
    split_ifs
    · refine ⟨fun e he => ?_, h.scheduled, fun e he => by cases he⟩
      rcases EventList.mem_add.mp he with rfl | hmem
      · exact h.active e hactive
      · exact h.expired e hmem
    · exact h
  · exact h

/-- A series is peeled soundly: one that is over is the first of the list and removed, one that
goes on does not start at its end time, and an occurrence in the skipped hour is trimmed to less
than a day. -/
structure PeelsSoundly (fuel : ℕ) (sched : Schedule) (series : Event) (rest : EventList) :
    Prop where
  removes : sched.RemovesEnded fuel series rest
  offEnd : series.shiftSeries.seriesOver = false → series.shiftSeries.series.OffEnd
  trims : ∀ split, sched.rescheduled fuel series rest = some split →
    split.timeDuration < 24 * hour

/-- Sound peeling keeps the events sound. -/
theorem AllSound.peel {fuel : ℕ} (h : sched.AllSound mapOfVariables)
    (hhead : sched.scheduledEvents = series :: rest) (hpeels : sched.PeelsSoundly fuel series rest)
    (hpeel : sched.peelOccurrence fuel series rest = some mid) : mid.AllSound mapOfVariables := by
  have hlist : ∀ e ∈ series :: rest, e.Sound mapOfVariables := hhead ▸ h.scheduled
  have hseries := hlist series List.mem_cons_self
  have hrest : ∀ e ∈ rest, e.Sound mapOfVariables :=
    fun e he => hlist e (List.mem_cons_of_mem _ he)
  have hsplit : ∀ split, sched.rescheduled fuel series rest = some split →
      split.Sound mapOfVariables := by
    intro split hrescheduled
    obtain ⟨occurrence, id, seriesId, duration, hoccurrence, rfl⟩ := rescheduled_eq hrescheduled
    have hsound := hseries.split hoccurrence
    have htagged := hsound.withId seriesId
    exact ⟨hsound.suits, hpeels.trims _ hrescheduled, htagged.repeatSettings⟩
  -- The list has the series and otherwise sound events.
  have hlisted : ∃ others : EventList,
      (sched.relisted fuel series rest).Perm (series.shiftSeries.series :: others) ∧
        ∀ e ∈ others, e.Sound mapOfVariables := by
    unfold relisted
    split
    next split hrescheduled =>
      refine ⟨split :: rest, (EventList.perm_add _ _).trans (List.Perm.swap _ _ _), ?_⟩
      intro e he
      rcases List.mem_cons.mp he with rfl | hmem
      · exact hsplit e hrescheduled
      · exact hrest e hmem
    · exact ⟨rest, List.Perm.refl _, hrest⟩
  obtain ⟨others, hperm, hothers⟩ := hlisted
  refine ⟨fun e he => ?_, fun e he => ?_, fun e he => ?_⟩
  · rw [(peelOccurrence_frame hpeel).2] at he
    exact h.expired e he
  · rw [peelOccurrence_scheduledEvents hpeel] at he
    split_ifs at he with hover
    · obtain ⟨left, hleft⟩ := List.head?_eq_some_iff.mp (hpeels.removes hover)
      rw [hleft] at he hperm
      exact hothers e (hperm.cons_inv.mem_iff.mp he)
    · have hgoes : series.shiftSeries.seriesOver = false := by simpa using hover
      rcases List.mem_cons.mp (hperm.mem_iff.mp he) with rfl | hmem
      · exact hseries.shift hgoes (hpeels.offEnd hgoes)
      · exact hothers e hmem
  · rw [(peelOccurrence_frame hpeel).1] at he
    exact h.active e he

/-- Every series that a check peels is peeled soundly. -/
def ChecksSoundly (now : ℤ) : ℕ → Schedule → Prop
  | 0, _ => True
  | fuel + 1, sched =>
    (sched.endFinished now).1.activeEvent = none → ∀ series rest,
      sched.scheduledEvents = series :: rest → series.readyToStart now = true →
        (sched.endFinished now).1.PeelsSoundly fuel series rest ∧
        ∀ mid, (sched.endFinished now).1.peelOccurrence fuel series rest = some mid →
          series.hasException series.startTime = true → ChecksSoundly now fuel mid

/-- A check that peels soundly keeps the events sound. -/
theorem AllSound.check {now : ℤ} {fuel : ℕ} {sched' : Schedule} {changed : Bool}
    (h : sched.AllSound mapOfVariables) (hchecks : sched.ChecksSoundly now fuel)
    (hcheck : sched.check now fuel = some (sched', changed)) : sched'.AllSound mapOfVariables := by
  induction fuel generalizing sched changed with
  | zero => cases hcheck
  | succ fuel ih =>
    have hended := All.endFinished h now
    rcases check_cases hcheck with ⟨-, rfl⟩ | ⟨hactive, ⟨rfl, -⟩ | ⟨series, rest, mid, hpeel⟩⟩
    · exact hended
    · exact hended
    · have hevents := (endFinished_scheduledEvents sched now).symm.trans hpeel.head
      obtain ⟨hsoundly, hagain⟩ := hchecks hactive series rest hevents hpeel.ready
      have hmid := AllSound.peel hended hpeel.head hsoundly hpeel.peel
      rcases hpeel.result with ⟨hexception, again, hnext⟩ | ⟨-, rfl⟩
      · rw [Event.shiftSeries_hasException] at hexception
        exact ih hmid (hagain mid hpeel.peel hexception) hnext
      · have hassign := hmid.assign series.oneOff
        have hseries : series.Sound mapOfVariables :=
          hended.scheduled series (by rw [hpeel.head]; exact List.mem_cons_self)
        refine ⟨hassign.expired, hassign.scheduled, fun e he => ?_⟩
        exact assignIdsToPeeledEvent_sound (hseries.oneOff series.startTime) he

/-! ## Deletions -/

/-- Deleting an event keeps the others. -/
theorem All.deleteEventWithId (h : sched.All property) (id : Id) :
    (sched.deleteEventWithId id).All property := by
  refine ⟨fun e he => h.expired e (List.mem_of_mem_eraseP he),
    fun e he => h.scheduled e (List.mem_of_mem_eraseP he), fun e he => h.active e ?_⟩
  exact (Option.filter_eq_some_iff.mp he).1

/-- Pruning keeps the events sound. -/
theorem AllSound.prune (h : sched.AllSound mapOfVariables) (now : ℤ) :
    (sched.pruneOldEventsAndExceptions now).1.AllSound mapOfVariables := by
  unfold pruneOldEventsAndExceptions
  split
  · exact h
  next loc _ =>
    have hdeleted : ∀ (old : EventList) (mid : Schedule), mid.AllSound mapOfVariables →
        (old.foldl (fun sched e => sched.deleteEventWithId e.id) mid).AllSound mapOfVariables := by
      intro old
      induction old with
      | nil => exact fun mid hmid => hmid
      | cons e rest ih => exact fun mid hmid => ih _ (All.deleteEventWithId hmid e.id)
    have hmid := hdeleted (sched.oldEvents (getMidnightInNDays 0 ⟨now, loc⟩)) sched h
    refine ⟨hmid.expired, fun e he => ?_, hmid.active⟩
    simp only [List.map_map, List.mem_map] at he
    obtain ⟨original, horiginal, rfl⟩ := he
    have hsound := hmid.scheduled original horiginal
    exact ⟨hsound.suits, hsound.duration, hsound.repeatSettings.withExceptions _⟩

end

end Schedule

/-! ## Edits -/

/-- Validating a list leaves sound events. -/
theorem EventList.validate_sound {mapOfVariables : String → Option SetpointList} {fuel : ℕ}
    {timeZone : Option Location} {eList valid : EventList}
    (hmodes : Event.WellFormedModes mapOfVariables)
    (h : eList.validate fuel timeZone mapOfVariables = some (.ok valid)) :
    ∀ e ∈ valid, e.Sound mapOfVariables := by
  have hmap : ∀ (eList eList' : EventList),
      eList.mapM (Event.validate timeZone mapOfVariables) = .ok eList' →
        ∀ e ∈ eList', e.Sound mapOfVariables := by
    intro eList
    induction eList with
    | nil =>
      intro eList' h
      cases h
      simp
    | cons e rest ih =>
      intro eList' h
      rw [List.mapM_cons] at h
      obtain ⟨e', he', h⟩ := CheckedRun.of_bind_ok h
      obtain ⟨rest', hrest', h⟩ := CheckedRun.of_bind_ok h
      cases h
      intro e'' he''
      rcases List.mem_cons.mp he'' with rfl | hmem
      · exact Event.validate_sound hmodes he'
      · exact ih rest' hrest' e'' hmem
  rw [validate] at h
  split at h
  · cases h
  next eList' hvalid =>
    split at h
    · cases h
    · cases h
    · cases h
      intro e he
      exact hmap eList eList' hvalid e (mem_sort.mp he)

namespace Process

variable {ctx : Context} {fuel : ℕ} {proc proc' : Process}

/-- Overwriting a schedule with a list whose series are not shifted to their end times keeps its
events sound. -/
theorem overwrite_allSound {inputs : EventList} {cache : IdCache} {external : Bool}
    {returned : Return (Except EditError Unit)} (hmodes : Event.WellFormedModes ctx.mapOfVariables)
    (hsound : proc.schedule.AllSound ctx.mapOfVariables)
    (hsettles : ∀ valid, inputs.validate fuel proc.schedule.timezone ctx.mapOfVariables =
      some (.ok valid) → ∀ e ∈ valid, Schedule.SettlesOffEnd ctx.now e)
    (h : proc.overwrite ctx fuel inputs cache external = some (proc', returned)) :
    proc'.schedule.AllSound ctx.mapOfVariables := by
  rcases overwrite_cases h with ⟨rfl, -⟩ | ⟨valid, schedule, result, hok, hintegrate, hschedule⟩
  · exact hsound
  · have hwiped : (proc.wiped cache).AllSound ctx.mapOfVariables :=
      ⟨by simp [wiped], by simp [wiped], hsound.active⟩
    have hvalid := EventList.validate_sound hmodes hok
    have hmid := (Schedule.sound_keptByOrganizing ctx).integrateEventList
      (fun e he => ⟨hvalid e he, hsettles valid hok e he⟩) hwiped hintegrate
    rw [hschedule]
    split_ifs
    · exact ⟨hmid.expired, hmid.scheduled, fun e he => by cases he⟩
    · exact hmid

/-- The list that an edit prepares has no series that is shifted to its end time. -/
def EditSettles (ctx : Context) (fuel : ℕ) (proc : Process) (request : EditRequest) : Prop :=
  ∀ edit inputs cache src, Asks ctx fuel proc request edit →
    edit.prepare proc.schedule = some (inputs, cache, src) →
    ∀ valid, inputs.validate fuel proc.schedule.timezone ctx.mapOfVariables =
      some (.ok valid) → ∀ e ∈ valid, Schedule.SettlesOffEnd ctx.now e

/-- A request whose edits settle keeps the events sound. -/
theorem Handled.allSound {request : EditRequest} (h : Handled ctx fuel proc request proc')
    (hmodes : Event.WellFormedModes ctx.mapOfVariables)
    (hsettles : proc.EditSettles ctx fuel request)
    (hsound : proc.schedule.AllSound ctx.mapOfVariables) :
    proc'.schedule.AllSound ctx.mapOfVariables := by
  cases h with
  | unchanged src => exact ⟨hsound.expired, hsound.scheduled, hsound.active⟩
  | cleared =>
    refine ⟨?_, ?_, ?_⟩ <;>
      simp [sendUpdatesAfterMasterScheduleEdit, Schedule.clear]
  | @edited edit inputs cache src _ _ asks prepare overwrites =>
    have hprepared : (proc.prepared edit src).schedule.AllSound ctx.mapOfVariables :=
      ⟨hsound.expired, hsound.scheduled, hsound.active⟩
    have hvalid : ∀ valid,
        inputs.validate fuel (proc.prepared edit src).schedule.timezone ctx.mapOfVariables =
          some (.ok valid) → ∀ e ∈ valid, Schedule.SettlesOffEnd ctx.now e :=
      hsettles edit inputs cache src asks prepare
    exact overwrite_allSound hmodes hprepared hvalid overwrites

/-- What an operation on a schedule meets: its checks peel soundly, and its edits settle. -/
def KeepsSound (proc : Process) (input : Input) : Prop :=
  match input.operation with
  | .check => proc.schedule.ChecksSoundly input.ctx.now input.fuel
  | .prune => True
  | .edit request => proc.EditSettles input.ctx input.fuel request

/-- One operation keeps the events sound. -/
theorem step_allSound {input : Input} (hmodes : Event.WellFormedModes input.ctx.mapOfVariables)
    (hsound : proc.schedule.AllSound input.ctx.mapOfVariables) (hkeeps : proc.KeepsSound input)
    (h : proc.step input = .ok proc') : proc'.schedule.AllSound input.ctx.mapOfVariables := by
  rw [KeepsSound] at hkeeps
  rw [step] at h
  split at h
  next hcheck =>
    rw [hcheck] at hkeeps
    split at h
    · cases h
    next schedule changed hchecked =>
      cases h
      exact Schedule.AllSound.check hsound hkeeps hchecked
  next =>
    cases h
    exact Schedule.AllSound.prune hsound input.ctx.now
  next request hedit =>
    rw [hedit] at hkeeps
    split at h
    · cases h
    next proc' returned hhandle =>
      cases h
      exact (handle_handled hhandle).allSound hmodes hkeeps hsound

end Process

end HybridOs.Scheduler
