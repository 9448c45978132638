import HybridOs.SchedulerSound
import HybridOs.SchedulerWeekly

/-!
# Validating a series that goes on

A schedule validates its events again with every edit. A series that has been shifted since it
was accepted is accepted again unless it ends by its end time and has come to start at it: the
shift goes on at the end time, and validation asks for an end time after the start.
-/

namespace HybridOs.Scheduler

namespace Series

/-- Repeat settings that shifting may leave: in order, but for a start at the end time. -/
structure Shifted (ser : Series) (startTime : Time) : Prop where
  cycle : ∀ text, ser.cycle ≠ .other text
  dayMask : ser.cycle = .weekly → ser.dayMask &&& everyDayMask ≠ 0
  frequency : ser.frequency ≠ 0
  endCount : -1 ≤ ser.endCount
  endTime : ser.endCount = 0 → startTime.instant ≤ ser.endTime.instant

theorem Sound.shifted {ser : Series} {startTime : Time} (h : ser.Sound startTime) :
    ser.Shifted startTime :=
  ⟨h.cycle, h.dayMask, h.frequency, h.endCount, fun hzero => (h.endTime hzero).le⟩

theorem Shifted.sound {ser : Series} {startTime : Time} (h : ser.Shifted startTime)
    (hoff : ser.endCount = 0 → startTime.instant ≠ ser.endTime.instant) : ser.Sound startTime := by
  refine ⟨h.cycle, h.dayMask, h.frequency, h.endCount, ?_⟩
  intro hzero
  have hle := h.endTime hzero
  have hne := hoff hzero
  omega

end Series

namespace Event

/-- What the validation of an event does to its start and its repeat settings. -/
theorem validate_settings {timeZone : Option Location}
    {mapOfVariables : String → Option SetpointList} {e valid : Event}
    (h : e.validate timeZone mapOfVariables = .ok valid) :
    ∃ loc, timeZone = some loc ∧ valid.startTime = e.startTime.inLocation loc ∧
      e.repeatSettings.validate (e.startTime.inLocation loc) = .ok valid.repeatSettings := by
  unfold Event.validate at h
  cases timeZone with
  | none => cases h
  | some loc =>
    obtain ⟨_, heq, h⟩ := CheckedRun.of_bind_ok h
    cases heq
    obtain ⟨_, _, h⟩ := CheckedRun.of_bind_ok h
    obtain ⟨_, _, h⟩ := CheckedRun.of_bind_ok h
    obtain ⟨repeatSettings, hrepeat, h⟩ := CheckedRun.of_bind_ok h
    cases h
    refine ⟨loc, rfl, rfl, ?_⟩
    cases hresult : e.repeatSettings.validate (e.startTime.inLocation loc) with
    | error err =>
      rw [hresult] at hrepeat
      cases hrepeat
    | ok repeatSettings' =>
      rw [hresult] at hrepeat
      cases hrepeat
      rfl

variable {mapOfVariables : String → Option SetpointList}

/-- An event that shifting may leave. -/
structure Shifted (mapOfVariables : String → Option SetpointList) (e : Event) : Prop where
  suits : ∃ modeVariables, mapOfVariables e.mode = some modeVariables ∧
    Suits modeVariables e.variableMap
  duration : e.timeDuration < 24 * hour
  repeatSettings : e.repeatSettings.Shifted e.startTime

theorem Sound.shifted {e : Event} (h : e.Sound mapOfVariables) : e.Shifted mapOfVariables :=
  ⟨h.suits, h.duration, h.repeatSettings.shifted⟩

/-- The shift of a series that goes on. -/
theorem Shifted.shift {e : Event} (h : e.Shifted mapOfVariables)
    (hgoes : e.shiftSeries.seriesOver = false) : e.shiftSeries.series.Shifted mapOfVariables := by
  obtain ⟨startTime, exceptions, endCount, heq, hle, hend, -⟩ :=
    shiftSeries_goesOn hgoes h.repeatSettings.endCount
  rw [heq]
  refine ⟨h.suits, h.duration, h.repeatSettings.cycle, h.repeatSettings.dayMask,
    h.repeatSettings.frequency, hle, ?_⟩
  intro hzero
  exact (hend hzero).2

/-- Shifts that go on leave such an event. -/
theorem Shifted.continues {e series : Event} (h : e.Shifted mapOfVariables)
    (hrun : Continues e series) : series.Shifted mapOfVariables := by
  induction hrun with
  | refl e => exact h
  | next goesOn rest ih => exact ih (h.shift goesOn)

/-- Validation accepts such an event exactly when it is off its end time. -/
theorem Shifted.validate_iff {e : Event} (h : e.Shifted mapOfVariables)
    (hmodes : WellFormedModes mapOfVariables) (loc : Location) :
    (∃ valid, e.validate (some loc) mapOfVariables = .ok valid) ↔ e.OffEnd := by
  constructor
  · rintro ⟨valid, hvalid⟩ hzero
    obtain ⟨loc', hloc, -, hsettings⟩ := validate_settings hvalid
    have hbefore := (Series.validate_sound hsettings).1.endTime hzero
    change e.startTime.instant < e.repeatSettings.endTime.instant at hbefore
    omega
  · intro hoff
    have hsound : e.Sound mapOfVariables := ⟨h.suits, h.duration, h.repeatSettings.sound hoff⟩
    exact hsound.validate hmodes loc

/-- After any number of shifts that report that the series goes on, the series of an accepted
event is accepted again if and only if it does not end by an end time at which it now starts. -/
theorem validate_continues_iff {timeZone : Option Location} {e valid series : Event}
    (hmodes : WellFormedModes mapOfVariables)
    (hvalid : e.validate timeZone mapOfVariables = .ok valid) (hrun : Continues valid series) :
    (∃ valid', series.validate timeZone mapOfVariables = .ok valid') ↔ series.OffEnd := by
  obtain ⟨loc, hloc, -, -⟩ := validate_settings hvalid
  have hshifted := (validate_sound hmodes hvalid).shifted.continues hrun
  rw [hloc]
  exact hshifted.validate_iff hmodes loc

/-- Modes without variables. -/
def plainModes (_mode : String) : Option SetpointList := some []

theorem plainModes_wellFormed : WellFormedModes plainModes := by
  intro modeId modeVariables h
  cases h
  exact ⟨List.nodup_nil, by simp⟩

/-- An hour at eight every day, up to an end time. -/
def dailyUntil (endTime : ℤ) : Event where
  id := 0
  startTime := ⟨8 * hour, utc⟩
  duration := 60
  mode := "default"
  variableMap := ∅
  repeatSettings := { newNonRepeatingSeries with endCount := 0, endTime := ⟨endTime, utc⟩ }

theorem dailyUntil_duration (endTime : ℤ) :
    validateDuration (dailyUntil endTime).timeDuration = .ok () := by
  have hwrap : wrapInt64 (60 * minute) = hour := by decide +kernel
  have hdur : (dailyUntil endTime).timeDuration = hour := hwrap
  rw [validateDuration, hdur, if_neg (by decide)]

theorem dailyUntil_settings {endTime : ℤ} (h : 8 * hour < endTime) :
    (dailyUntil endTime).repeatSettings.validate ((dailyUntil endTime).startTime.inLocation utc) =
      .ok (dailyUntil endTime).repeatSettings := by
  have hcompleted : (dailyUntil endTime).repeatSettings.completed
      ((dailyUntil endTime).startTime.inLocation utc) = (dailyUntil endTime).repeatSettings :=
    Series.completed_of_everyDay _ rfl rfl
  have hcycle : (dailyUntil endTime).repeatSettings.cycle = .daily := rfl
  have hcount : (dailyUntil endTime).repeatSettings.endCount = 0 := rfl
  have hfrequency : (dailyUntil endTime).repeatSettings.frequency = 1 := rfl
  have hend : ¬ (dailyUntil endTime).repeatSettings.endTime.instant ≤
      ((dailyUntil endTime).startTime.inLocation utc).instant := not_le.mpr h
  rw [Series.validate_eq _ (by rw [hcycle]; simp), hcompleted, hcycle, hcount, hfrequency,
    if_neg (by simp), if_neg (by decide), if_neg (by decide), if_neg (by simp), if_neg hend]

/-- Validation leaves the event as it is. -/
theorem dailyUntil_valid {endTime : ℤ} (h : 8 * hour < endTime) :
    (dailyUntil endTime).validate (some utc) plainModes = .ok (dailyUntil endTime) := by
  rw [Event.validate, dailyUntil_duration]
  have hsettings := dailyUntil_settings h
  simp only [pure_bind, hsettings]
  rfl

theorem dailyUntil_goesOn : (dailyUntil (40 * hour)).shiftSeries.seriesOver = false := by
  decide +kernel

/-- The second occurrence of an event that ends after it is looked at again. -/
theorem validate_continues_iff_dailyUntil :
    (∃ valid', (dailyUntil (40 * hour)).shiftSeries.series.validate (some utc) plainModes =
      .ok valid') ↔ (dailyUntil (40 * hour)).shiftSeries.series.OffEnd :=
  validate_continues_iff plainModes_wellFormed (dailyUntil_valid (by decide))
    (.next dailyUntil_goesOn (.refl _))

/-- A series that ends by its second occurrence goes on to it, and is then rejected. -/
theorem dailyUntil_rejected :
    ¬ ∀ (timeZone : Option Location) (mapOfVariables : String → Option SetpointList)
      (e valid series : Event), WellFormedModes mapOfVariables →
      e.validate timeZone mapOfVariables = .ok valid → Continues valid series →
      ∃ valid', series.validate timeZone mapOfVariables = .ok valid' := by
  intro hall
  have hgoes : (dailyUntil (32 * hour)).shiftSeries.seriesOver = false := by decide +kernel
  obtain ⟨valid', hvalid'⟩ := hall (some utc) plainModes _ _ _ plainModes_wellFormed
    (dailyUntil_valid (by decide)) (.next hgoes (.refl _))
  obtain ⟨loc, -, -, hsettings⟩ := validate_settings hvalid'
  have hstart : (dailyUntil (32 * hour)).shiftSeries.series.startTime.instant = 32 * hour := by
    decide +kernel
  have hcount : (dailyUntil (32 * hour)).shiftSeries.series.repeatSettings.endCount = 0 := by
    decide +kernel
  have hend : (dailyUntil (32 * hour)).shiftSeries.series.repeatSettings.endTime.instant =
      32 * hour := by decide +kernel
  have hbefore := (Series.validate_sound hsettings).1.endTime hcount
  rw [hend, Time.inLocation_instant, hstart] at hbefore
  exact absurd hbefore (lt_irrefl _)

end Event

/-!
## The occurrences of a series

A series occurs at its start and where shifting it leads, until a shift says that it is over.
An occurrence in the skipped hour counts as one of them. It is split from the series before the
end of the series is tested, so a series can occur once more than it should.
-/

namespace Series

/-- The count of occurrences left after one more. -/
def countAfter (endCount : ℤ) : ℤ := if 0 < endCount then endCount - 1 else endCount

/-- The series is over once its next occurrence is at a time. -/
def OverAt (ser : Series) (nextStartTime : Time) : Prop :=
  ser.endCount = 1 ∨ ser.endCount = 0 ∧ ser.endTime.instant < nextStartTime.instant

instance (ser : Series) (nextStartTime : Time) : Decidable (ser.OverAt nextStartTime) :=
  inferInstanceAs (Decidable (_ ∨ _))

/-- What the end of a series is after an occurrence. -/
theorem updateSeriesEnd_spec (ser : Series) (nextStartTime : Time) :
    ser.updateSeriesEnd nextStartTime =
      ({ ser with endCount := countAfter ser.endCount }, decide (ser.OverAt nextStartTime)) := by
  have hover : ser.OverAt nextStartTime ↔
      ser.endCount = 1 ∨ ser.endCount = 0 ∧ ser.endTime.instant < nextStartTime.instant := Iff.rfl
  rcases lt_trichotomy ser.endCount 0 with hneg | hzero | hpos
  · have hgoes : ¬ ser.OverAt nextStartTime := by
      rw [hover]
      omega
    have hcount : countAfter ser.endCount = ser.endCount := if_neg (by omega)
    simp [updateSeriesEnd, isInfiniteSeries, hneg, hgoes, hcount]
  · have hcount : countAfter ser.endCount = ser.endCount := if_neg (by omega)
    rw [hcount]
    change _ = (ser, _)
    simp [updateSeriesEnd, isInfiniteSeries, Time.after, hover, hzero]
  · have hcount : countAfter ser.endCount = ser.endCount - 1 := if_pos hpos
    have hone : ser.OverAt nextStartTime ↔ ser.endCount - 1 = 0 := by
      rw [hover]
      omega
    have hfinite : ¬ ser.endCount < 0 := by omega
    simp [updateSeriesEnd, isInfiniteSeries, hfinite, hpos, hone, hcount]

/-- The days that the scan of the mask counts. -/
theorem scannedDays_range : ∀ (dayMask : Fin 256) (weekday : Fin 7),
    1 ≤ (scannedDays (UInt8.ofNat dayMask) weekday).toNat ∧
      (scannedDays (UInt8.ofNat dayMask) weekday).toNat ≤ 7 := by
  intro dayMask weekday
  revert dayMask
  fin_cases weekday <;> decide +kernel

/-- The days between occurrences differ by less than a week. -/
theorem calculateDays_near (ser : Series) {weekday weekday' : ℕ} (h : weekday < 7)
    (h' : weekday' < 7) (hlong : 8 ≤ (ser.calculateDaysUntilNextOccurrence weekday).toNat)
    (hfits : (ser.calculateDaysUntilNextOccurrence weekday).toNat ≤ 106751) :
    (ser.calculateDaysUntilNextOccurrence weekday).toNat ≤
      (ser.calculateDaysUntilNextOccurrence weekday').toNat + 6 := by
  have hdays : ∀ weekday, ser.cycle = .weekly → ser.dayMask ≠ 0 →
      ser.calculateDaysUntilNextOccurrence weekday =
        scannedDays ser.dayMask weekday + (ser.frequency - 1) * 7 := by
    intro weekday hweekly hmask
    rw [calculateDaysUntilNextOccurrence, hweekly]
    dsimp only
    rw [if_neg hmask]
    rfl
  have hscan : ∀ weekday < 7, 1 ≤ (scannedDays ser.dayMask weekday).toNat ∧
      (scannedDays ser.dayMask weekday).toNat ≤ 7 := by
    intro weekday hlt
    have hrange := scannedDays_range ⟨ser.dayMask.toNat, ser.dayMask.toNat_lt⟩ ⟨weekday, hlt⟩
    simpa using hrange
  cases hcycle : ser.cycle with
  | daily =>
    have hsame : ser.calculateDaysUntilNextOccurrence weekday' =
        ser.calculateDaysUntilNextOccurrence weekday := by
      rw [calculateDaysUntilNextOccurrence, calculateDaysUntilNextOccurrence, hcycle]
    rw [hsame]
    omega
  | weekly =>
    by_cases hmask : ser.dayMask = 0
    · have hzero : ser.calculateDaysUntilNextOccurrence weekday = 0 := by
        rw [calculateDaysUntilNextOccurrence, hcycle]
        rw [if_pos hmask]
      rw [hzero] at hlong
      simp at hlong
    · rw [hdays weekday hcycle hmask] at hlong hfits ⊢
      rw [hdays weekday' hcycle hmask]
      have hrange := hscan weekday h
      have hrange' := hscan weekday' h'
      rw [UInt64.toNat_add] at hlong hfits ⊢
      rw [UInt64.toNat_add]
      omega
  | other text =>
    have hzero : ser.calculateDaysUntilNextOccurrence weekday = 0 := by
      rw [calculateDaysUntilNextOccurrence, hcycle]
    rw [hzero] at hlong
    simp at hlong

end Series

/-! ## The next occurrence -/

namespace Event

/-- Midnight before the next occurrence. -/
def midnightBeforeNext (e : Event) : Time :=
  getMidnightInNDays e.daysUntilNextOccurrence.toInt64.toInt e.startTime

/-- The clocks skip the event's time of day on the date of its next occurrence. -/
def SkipsNext (e : Event) : Prop :=
  e.startTime.loc.Skips (e.midnightBeforeNext.date * day + e.startTime.clock)

/-- The days from the event's start to the occurrence after its next one. -/
def daysUntilFollowing (e : Event) : UInt64 :=
  e.daysUntilNextOccurrence +
    e.repeatSettings.calculateDaysUntilNextOccurrence e.nextStartTime.weekday

/-- The start of that occurrence, where the next one is split from the series. -/
def followingStartTime (e : Event) : Time :=
  timeDate (getMidnightInNDays e.daysUntilFollowing.toInt64.toInt e.startTime).date
    e.startTime.clock e.startTime.loc

theorem nextStartTime_loc (e : Event) : e.nextStartTime.loc = e.startTime.loc :=
  applyNewDateToTime_loc _ _

/-- The occurrence that a shift splits from the series. -/
def splitStart (e : Event) : Option Time := e.shiftSeries.springForwardEvent.map Event.startTime

section Shift

variable {e : Event} {standard : ℤ} (hzone : e.startTime.loc.OneHourChanges standard)
include hzone

/-- A shift to an occurrence that the clocks show. -/
theorem shiftSeries_of_shown (hshown : ¬ e.SkipsNext) :
    e.splitStart = none ∧
      e.shiftSeries.seriesOver = decide (e.repeatSettings.OverAt e.nextStartTime) ∧
      e.shiftSeries.series.startTime = e.nextStartTime ∧
      ∃ exceptions, e.shiftSeries.series.repeatSettings = { e.repeatSettings with
        exceptions, endCount := Series.countAfter e.repeatSettings.endCount } := by
  have hwall := hzone.wall_applyNewDateToTime e.midnightBeforeNext hshown
  have hrange := e.startTime.clock_range
  have hclock := Time.clock_eq hwall hrange.1 hrange.2
  have hhour : e.nextStartTime.hourOfDay = e.startTime.hourOfDay := by
    rw [Time.hourOfDay, Time.hourOfDay]
    exact congrArg (· / hour) hclock
  unfold splitStart shiftSeries
  rw [if_neg (by simp [hhour]), Series.updateSeriesEnd_spec]
  exact ⟨rfl, rfl, rfl, e.repeatSettings.exceptions, rfl⟩

/-- The hour of an occurrence in the skipped hour is another one. -/
theorem hourOfDay_ne_of_skips (hskips : e.SkipsNext) :
    e.nextStartTime.hourOfDay ≠ e.startTime.hourOfDay :=
  (hzone.applyNewDateToTime_of_skips e.midnightBeforeNext hskips).1

/-- A shift past an occurrence in the skipped hour that is not the last one. -/
theorem shiftSeries_of_skips (hskips : e.SkipsNext)
    (hgoes : ¬ e.repeatSettings.OverAt e.nextStartTime) :
    e.splitStart = some e.nextStartTime ∧
      e.shiftSeries.seriesOver = decide (Series.OverAt { e.repeatSettings with
        endCount := Series.countAfter e.repeatSettings.endCount } e.followingStartTime) ∧
      e.shiftSeries.series.startTime = e.followingStartTime ∧
      ∃ exceptions, e.shiftSeries.series.repeatSettings = { e.repeatSettings with
        exceptions
        endCount := Series.countAfter (Series.countAfter e.repeatSettings.endCount) } := by
  have hwithout : ∃ exceptions, e.withoutSpringForward e.nextStartTime =
      { e with repeatSettings := { e.repeatSettings with exceptions } } := by
    rw [withoutSpringForward]
    split_ifs
    · exact ⟨_, rfl⟩
    · exact ⟨e.repeatSettings.exceptions, rfl⟩
  have hsplit : (e.splitSpringForward e.nextStartTime).startTime = e.nextStartTime := by
    obtain ⟨repeatSettings, heq⟩ := e.splitSpringForward_eq e.nextStartTime
    rw [heq]
  obtain ⟨exceptions, heq⟩ := hwithout
  have hfirst : decide (Series.OverAt { e.repeatSettings with exceptions } e.nextStartTime) =
      false := decide_eq_false hgoes
  unfold splitStart shiftSeries
  dsimp only
  rw [if_pos (hourOfDay_ne_of_skips hzone hskips), heq, Series.updateSeriesEnd_spec]
  rw [hfirst]
  dsimp only
  rw [Series.updateSeriesEnd_spec]
  exact ⟨congrArg some hsplit, rfl, rfl, exceptions, rfl⟩

end Shift

/-! ## Occurrences in order -/

/-- The days to an occurrence are some days and fit into a duration. -/
def Fits (days : UInt64) : Prop := 0 < days.toNat ∧ days.toNat ≤ 106751

/-- The event can be shifted in order. The days to its next occurrence fit into a duration. If
the clocks skip the next occurrence it is not past the end of the series, and the one after it
is later and its days fit too. -/
structure ShiftsInOrder (e : Event) : Prop where
  next : e.repeatSettings.endCount ≠ 1 → Fits e.daysUntilNextOccurrence
  within : e.SkipsNext → e.repeatSettings.endCount ≠ 1 ∧
    (e.repeatSettings.endCount = 0 → e.nextStartTime.instant ≤ e.repeatSettings.endTime.instant)
  following : e.SkipsNext → e.repeatSettings.endCount ≠ 2 →
    e.daysUntilNextOccurrence.toNat < e.daysUntilFollowing.toNat ∧ Fits e.daysUntilFollowing

section Dates

variable {e : Event} {standard : ℤ} (hzone : e.startTime.loc.OneHourChanges standard)
include hzone

theorem date_getMidnight {days : UInt64} (h : Fits days) :
    (getMidnightInNDays days.toInt64.toInt e.startTime).date = e.startTime.date + days.toNat := by
  obtain ⟨hpos, hfits⟩ := h
  have hint : days.toInt64.toInt = days.toNat := toInt_of_toNat_lt (by omega)
  rw [hint]
  exact (date_getMidnightInNDays hzone.two _).2 ⟨by omega, by omega⟩

/-- The next occurrence is on a later date. -/
theorem date_nextStartTime (hfits : Fits e.daysUntilNextOccurrence) :
    e.startTime.date < e.nextStartTime.date := by
  have hmidnight : e.midnightBeforeNext.date =
      e.startTime.date + e.daysUntilNextOccurrence.toNat := date_getMidnight hzone hfits
  obtain ⟨hpos, -⟩ := hfits
  by_cases hskips : e.SkipsNext
  · have hdate := hzone.date_applyNewDateToTime_of_skips e.midnightBeforeNext (by omega) hskips
    change e.nextStartTime.date = _ ∨ _ ∧ _ ≤ e.nextStartTime.date ∧ e.nextStartTime.date ≤ _
      at hdate
    omega
  · have hwall := hzone.wall_applyNewDateToTime e.midnightBeforeNext hskips
    have hrange := e.startTime.clock_range
    have hdate : e.nextStartTime.date = _ := Time.date_eq hwall hrange.1 hrange.2
    omega

/-- The occurrence after one in the skipped hour is on a date later still. -/
theorem date_followingStartTime (hskips : e.SkipsNext) (hfits : Fits e.daysUntilNextOccurrence)
    (hlater : e.daysUntilNextOccurrence.toNat < e.daysUntilFollowing.toNat)
    (hfollowing : Fits e.daysUntilFollowing) :
    e.nextStartTime.date < e.followingStartTime.date := by
  have hmidnight : e.midnightBeforeNext.date =
      e.startTime.date + e.daysUntilNextOccurrence.toNat := date_getMidnight hzone hfits
  have hmidnight' := date_getMidnight hzone hfollowing
  have hrange := e.startTime.clock_range
  have hdate := hzone.date_applyNewDateToTime_of_skips e.midnightBeforeNext
    (by have hpos := hfits.1; omega) hskips
  change e.nextStartTime.date = _ ∨ _ ∧ _ ≤ e.nextStartTime.date ∧ e.nextStartTime.date ≤ _
    at hdate
  have hdays : e.daysUntilFollowing.toNat = (e.daysUntilNextOccurrence.toNat +
      (e.repeatSettings.calculateDaysUntilNextOccurrence e.nextStartTime.weekday).toNat) %
        2 ^ 64 := UInt64.toNat_add _ _
  -- ten days to the next occurrence make several days to the one after it
  have hnear : 8 ≤ e.daysUntilNextOccurrence.toNat → e.daysUntilNextOccurrence.toNat ≤
      (e.repeatSettings.calculateDaysUntilNextOccurrence e.nextStartTime.weekday).toNat + 6 :=
    fun hlong => e.repeatSettings.calculateDays_near (weekdayOf_lt _) (weekdayOf_lt _) hlong
      hfits.2
  have hbound := (e.repeatSettings.calculateDaysUntilNextOccurrence
    e.nextStartTime.weekday).toNat_lt
  obtain ⟨hpos, hmost⟩ := hfits
  obtain ⟨hpos', hmost'⟩ := hfollowing
  have hfound := hzone.date_timeDate
    (getMidnightInNDays e.daysUntilFollowing.toInt64.toInt e.startTime).date hrange.1 hrange.2
  change e.followingStartTime.date = _ ∨ _ ∧ _ ≤ e.followingStartTime.date ∧
    e.followingStartTime.date ≤ _ at hfound
  rw [hmidnight'] at hfound
  rcases hfound with hfound | ⟨hskips', hfound⟩
  · omega
  · rw [SkipsNext, hmidnight] at hskips
    have hfar := hzone.skips_apart hskips hskips' (by
      simp only [day, hour, minute] at *
      omega)
    simp only [day, hour, minute] at hfar
    omega

end Dates

/-! ## Runs -/

/-- The occurrences that a number of shifts leads to, and whether the series is over. -/
def occurrences : ℕ → Event → List Time × Bool
  | 0, e => ([e.startTime], false)
  | n + 1, e =>
    let rest := if e.shiftSeries.seriesOver then ([], true) else occurrences n e.shiftSeries.series
    (e.startTime :: (e.splitStart.toList ++ rest.1), rest.2)

/-- The series occurs as its settings say: on ever later dates, as often as the count says or
not after the end time, and never after it is over. -/
structure OccursAsMeant (e : Event) : Prop where
  increasing : ∀ n, ((occurrences n e).1.map Time.date).Pairwise (· < ·)
  counted : 0 < e.repeatSettings.endCount → ∀ n, (occurrences n e).2 = true →
    (occurrences n e).1.length = e.repeatSettings.endCount
  inTime : e.repeatSettings.endCount = 0 → ∀ n, ∀ t ∈ (occurrences n e).1,
    t.instant ≤ e.repeatSettings.endTime.instant
  ends : 0 ≤ e.repeatSettings.endCount → ∃ n, (occurrences n e).2 = true
  nothingAfter : ∀ n m, (occurrences n e).2 = true → occurrences (n + m) e = occurrences n e

theorem occurrences_of_over {e : Event} (hover : e.shiftSeries.seriesOver = true) (n : ℕ) :
    occurrences (n + 1) e = (e.startTime :: e.splitStart.toList, true) := by
  rw [occurrences, hover, if_pos rfl, List.append_nil]

theorem occurrences_of_goesOn {e : Event} (hgoes : e.shiftSeries.seriesOver = false) (n : ℕ) :
    occurrences (n + 1) e =
      (e.startTime :: (e.splitStart.toList ++ (occurrences n e.shiftSeries.series).1),
        (occurrences n e.shiftSeries.series).2) := by
  rw [occurrences, hgoes]
  rfl

/-- The start comes first. -/
theorem occurrences_head (n : ℕ) (e : Event) :
    ∃ rest, (occurrences n e).1 = e.startTime :: rest := by
  cases n with
  | zero => exact ⟨[], rfl⟩
  | succ n => exact ⟨_, rfl⟩

/-- Once the series is over there is nothing more. -/
theorem occurrences_add {e : Event} {n : ℕ} (hover : (occurrences n e).2 = true) (m : ℕ) :
    occurrences (n + m) e = occurrences n e := by
  induction n generalizing e with
  | zero => simp [occurrences] at hover
  | succ n ih =>
    have hsucc : n + 1 + m = n + m + 1 := by omega
    rw [hsucc]
    cases hlast : e.shiftSeries.seriesOver with
    | true => rw [occurrences_of_over hlast, occurrences_of_over hlast]
    | false =>
      rw [occurrences_of_goesOn hlast] at hover ⊢
      rw [occurrences_of_goesOn hlast, ih hover]

/-- All shifts of a run are in order. -/
structure RunsInOrder (standard : ℤ) (e : Event) : Prop where
  zone : e.startTime.loc.OneHourChanges standard
  shifts : ∀ e', Continues e e' → e'.ShiftsInOrder

/-- What a shift in order does. -/
structure ShiftsTo (e : Event) : Prop where
  splits : e.splitStart = none ∨ e.splitStart = some e.nextStartTime
  next : e.repeatSettings.endCount ≠ 1 → e.splitStart = none →
    e.startTime.date < e.shiftSeries.series.startTime.date
  split : e.splitStart = some e.nextStartTime → e.startTime.date < e.nextStartTime.date ∧
    (e.shiftSeries.seriesOver = false →
      e.nextStartTime.date < e.shiftSeries.series.startTime.date)
  stops : 0 ≤ e.repeatSettings.endCount → e.shiftSeries.seriesOver = true →
    e.repeatSettings.endCount = 0 ∨
      e.repeatSettings.endCount = 1 + (e.splitStart.toList.length : ℤ)
  goesOn : e.shiftSeries.seriesOver = false → 0 < e.repeatSettings.endCount →
    0 < e.shiftSeries.series.repeatSettings.endCount ∧
      e.repeatSettings.endCount = 1 + (e.splitStart.toList.length : ℤ) +
        e.shiftSeries.series.repeatSettings.endCount
  inTime : e.repeatSettings.endCount = 0 →
    (∀ t ∈ e.splitStart, t.instant ≤ e.repeatSettings.endTime.instant) ∧
    (e.shiftSeries.seriesOver = false → e.shiftSeries.series.startTime.instant ≤
        e.repeatSettings.endTime.instant) ∧
      e.shiftSeries.series.repeatSettings.endCount = 0 ∧
        e.shiftSeries.series.repeatSettings.endTime = e.repeatSettings.endTime
  loc : e.shiftSeries.series.startTime.loc = e.startTime.loc

/-- A shift to an occurrence that the clocks show. -/
theorem ShiftsInOrder.shiftsTo_of_shown {e : Event} {standard : ℤ} (h : e.ShiftsInOrder)
    (hzone : e.startTime.loc.OneHourChanges standard) (hshown : ¬ e.SkipsNext) : e.ShiftsTo := by
  obtain ⟨hsplit, hover, hstart, exceptions, hsettings⟩ := shiftSeries_of_shown hzone hshown
  have hsplits : e.splitStart.toList.length = 0 := by
    rw [hsplit]
    rfl
  constructor
  · exact Or.inl hsplit
  · intro hcount _
    rw [hstart]
    exact date_nextStartTime hzone (h.next hcount)
  · intro hsome
    rw [hsplit] at hsome
    cases hsome
  · intro hcount hlast
    rw [hover, decide_eq_true_eq, Series.OverAt] at hlast
    omega
  · intro hgoes hcount
    rw [hover, decide_eq_false_iff_not, Series.OverAt] at hgoes
    have hafter : Series.countAfter e.repeatSettings.endCount =
        e.repeatSettings.endCount - 1 := if_pos hcount
    rw [hsettings, hsplits]
    dsimp only
    rw [hafter]
    omega
  · intro hcount
    have hafter : Series.countAfter e.repeatSettings.endCount = 0 := by
      rw [hcount]
      rfl
    refine ⟨by simp [hsplit], ?_, ?_, ?_⟩
    · intro hgoes
      rw [hover, decide_eq_false_iff_not, Series.OverAt] at hgoes
      rw [hstart]
      omega
    · rw [hsettings]
      exact hafter
    · rw [hsettings]
  · rw [hstart, nextStartTime_loc]

/-- A shift past an occurrence in the skipped hour. -/
theorem ShiftsInOrder.shiftsTo_of_skips {e : Event} {standard : ℤ} (h : e.ShiftsInOrder)
    (hzone : e.startTime.loc.OneHourChanges standard) (hskips : e.SkipsNext) : e.ShiftsTo := by
  obtain ⟨hcount, hend⟩ := h.within hskips
  have hfirst : ¬ e.repeatSettings.OverAt e.nextStartTime := by
    rw [Series.OverAt]
    omega
  obtain ⟨hsplit, hover, hstart, exceptions, hsettings⟩ :=
    shiftSeries_of_skips hzone hskips hfirst
  have hfits := h.next hcount
  have hsplits : e.splitStart.toList.length = 1 := by
    rw [hsplit]
    rfl
  constructor
  · exact Or.inr hsplit
  · intro _ hnone
    rw [hsplit] at hnone
    cases hnone
  · intro _
    refine ⟨date_nextStartTime hzone hfits, ?_⟩
    intro hgoes
    have htwo : e.repeatSettings.endCount ≠ 2 := by
      intro htwo
      rw [hover, decide_eq_false_iff_not, Series.OverAt, htwo] at hgoes
      exact hgoes (Or.inl rfl)
    obtain ⟨hlater, hfollowing⟩ := h.following hskips htwo
    rw [hstart]
    exact date_followingStartTime hzone hskips hfits hlater hfollowing
  · intro hpos hlast
    rw [hover, decide_eq_true_eq, Series.OverAt] at hlast
    dsimp only at hlast
    rw [hsplits]
    unfold Series.countAfter at hlast
    split_ifs at hlast <;> omega
  · intro hgoes hpos
    rw [hover, decide_eq_false_iff_not, Series.OverAt] at hgoes
    have hafter : Series.countAfter e.repeatSettings.endCount =
        e.repeatSettings.endCount - 1 := if_pos hpos
    dsimp only at hgoes
    rw [hafter] at hgoes
    have hafter' : Series.countAfter (e.repeatSettings.endCount - 1) =
        e.repeatSettings.endCount - 1 - 1 := if_pos (by omega)
    rw [hsettings, hsplits]
    dsimp only
    rw [hafter, hafter']
    omega
  · intro hzero
    have hafter : Series.countAfter e.repeatSettings.endCount = 0 := by
      rw [hzero]
      rfl
    refine ⟨?_, ?_, ?_, ?_⟩
    · intro t ht
      rw [hsplit] at ht
      cases ht
      exact hend hzero
    · intro hgoes
      rw [hover, decide_eq_false_iff_not, Series.OverAt] at hgoes
      dsimp only at hgoes
      rw [hafter] at hgoes
      rw [hstart]
      omega
    · rw [hsettings]
      rw [hafter]
      rfl
    · rw [hsettings]
  · rw [hstart]
    exact timeDate_loc _ _ _

namespace RunsInOrder

variable {standard : ℤ} {e : Event}

section

variable (h : e.RunsInOrder standard)
include h

theorem shiftsTo : e.ShiftsTo := by
  have hshift := h.shifts e (.refl e)
  by_cases hskips : e.SkipsNext
  · exact hshift.shiftsTo_of_skips h.zone hskips
  · exact hshift.shiftsTo_of_shown h.zone hskips

/-- A run goes on in order. -/
theorem shift (hgoes : e.shiftSeries.seriesOver = false) :
    e.shiftSeries.series.RunsInOrder standard := by
  refine ⟨?_, fun e' hrun => h.shifts e' (.next hgoes hrun)⟩
  rw [h.shiftsTo.loc]
  exact h.zone

/-- Each occurrence is on a later date than the one before. -/
theorem isChain_occurrences (n : ℕ) : (occurrences n e).1.IsChain (fun t u => t.date < u.date) := by
  induction n generalizing e with
  | zero => exact List.isChain_singleton _
  | succ n ih =>
    have hstep := h.shiftsTo
    cases hover : e.shiftSeries.seriesOver with
    | true =>
      rw [occurrences_of_over hover]
      rcases hstep.splits with hsplit | hsplit
      · rw [hsplit]
        exact List.isChain_singleton _
      · have hdate := (hstep.split hsplit).1
        rw [hsplit]
        exact List.isChain_pair.mpr hdate
    | false =>
      have hrest := ih (h.shift hover)
      obtain ⟨rest, hhead⟩ := occurrences_head n e.shiftSeries.series
      rw [occurrences_of_goesOn hover]
      rw [hhead] at hrest ⊢
      rcases hstep.splits with hsplit | hsplit
      · have hdate : e.startTime.date < e.shiftSeries.series.startTime.date := by
          refine hstep.next ?_ hsplit
          intro hone
          have hcount := (hstep.goesOn hover (by omega)).2
          have hleft := (hstep.goesOn hover (by omega)).1
          omega
        rw [hsplit]
        exact List.isChain_cons_cons.mpr ⟨hdate, hrest⟩
      · obtain ⟨hfirst, hsecond⟩ := hstep.split hsplit
        rw [hsplit]
        exact List.isChain_cons_cons.mpr ⟨hfirst, List.isChain_cons_cons.mpr
          ⟨hsecond hover, hrest⟩⟩

/-- A counted series is over after as many occurrences as it has left. -/
theorem length_occurrences (hcount : 0 < e.repeatSettings.endCount) (n : ℕ) :
    ((occurrences n e).2 = true → (occurrences n e).1.length = e.repeatSettings.endCount) ∧
      (e.repeatSettings.endCount ≤ n → (occurrences n e).2 = true) := by
  induction n generalizing e with
  | zero =>
    constructor
    · simp [occurrences]
    · intro hle
      push_cast at hle
      omega
  | succ n ih =>
    have hstep := h.shiftsTo
    cases hover : e.shiftSeries.seriesOver with
    | true =>
      have hlast := hstep.stops hcount.le hover
      rw [occurrences_of_over hover]
      refine ⟨fun _ => ?_, fun _ => rfl⟩
      rw [List.length_cons]
      push_cast
      omega
    | false =>
      obtain ⟨hleft, hsum⟩ := hstep.goesOn hover hcount
      obtain ⟨hlength, hends⟩ := ih (h.shift hover) hleft
      rw [occurrences_of_goesOn hover]
      dsimp only
      rw [List.length_cons, List.length_append]
      constructor
      · intro hlast
        have hrest := hlength hlast
        push_cast
        omega
      · intro hle
        push_cast at hle
        exact hends (by omega)

/-- A series that goes on is at a later date. -/
theorem date_lt_of_goesOn (hgoes : e.shiftSeries.seriesOver = false)
    (hcount : e.repeatSettings.endCount ≠ 1) :
    e.startTime.date < e.shiftSeries.series.startTime.date := by
  have hstep := h.shiftsTo
  rcases hstep.splits with hsplit | hsplit
  · exact hstep.next hcount hsplit
  · obtain ⟨hfirst, hsecond⟩ := hstep.split hsplit
    exact hfirst.trans (hsecond hgoes)

/-- A series that ends by its end time never occurs after it. -/
theorem occurrences_inTime (hcount : e.repeatSettings.endCount = 0)
    (hstart : e.startTime.instant ≤ e.repeatSettings.endTime.instant) (n : ℕ) :
    ∀ t ∈ (occurrences n e).1, t.instant ≤ e.repeatSettings.endTime.instant := by
  induction n generalizing e with
  | zero =>
    intro t ht
    rw [occurrences, List.mem_singleton] at ht
    rw [ht]
    exact hstart
  | succ n ih =>
    obtain ⟨hsplit, hnext, hcount', hend⟩ := h.shiftsTo.inTime hcount
    intro t ht
    rw [occurrences] at ht
    rw [List.mem_cons, List.mem_append, Option.mem_toList] at ht
    rcases ht with rfl | ht | ht
    · exact hstart
    · exact hsplit t ht
    · cases hover : e.shiftSeries.seriesOver with
      | true => simp [hover] at ht
      | false =>
        have hrest := ih (h.shift hover) hcount' (by rw [hend]; exact hnext hover)
        rw [hend] at hrest
        simp only [hover] at ht
        exact hrest t ht

end

/-- Not after the end time means not after the date that follows it. -/
theorem date_le_of_le {t u : Time} (hzone : t.loc.OneHourChanges standard)
    (hle : t.instant ≤ u.instant) : t.date ≤ (u.inLocation t.loc).date + 1 := by
  have hoffset := hzone.two t.instant
  have hoffset' := hzone.two u.instant
  simp only [Time.date, Time.wall, Time.inLocation]
  simp only [day, hour, minute] at *
  omega

/-- A series that ends by its end time is over some time. -/
theorem exists_over (h : e.RunsInOrder standard) (hcount : e.repeatSettings.endCount = 0)
    (hstart : e.startTime.instant ≤ e.repeatSettings.endTime.instant) (days : ℕ)
    (hdays : (e.repeatSettings.endTime.inLocation e.startTime.loc).date + 1 ≤
      e.startTime.date + days) : ∃ n, (occurrences n e).2 = true := by
  induction days generalizing e with
  | zero =>
    refine ⟨1, ?_⟩
    cases hover : e.shiftSeries.seriesOver with
    | true => rw [occurrences_of_over hover]
    | false =>
      obtain ⟨-, hnext, -, -⟩ := h.shiftsTo.inTime hcount
      have hlater := h.date_lt_of_goesOn hover (by omega)
      have hlast := date_le_of_le (h.shift hover).zone (hnext hover)
      rw [h.shiftsTo.loc] at hlast
      omega
  | succ days ih =>
    cases hover : e.shiftSeries.seriesOver with
    | true => exact ⟨1, by rw [occurrences_of_over hover]⟩
    | false =>
      obtain ⟨-, hnext, hcount', hend⟩ := h.shiftsTo.inTime hcount
      have hlater := h.date_lt_of_goesOn hover (by omega)
      have hrest : ∃ n, (occurrences n e.shiftSeries.series).2 = true := by
        refine ih (h.shift hover) hcount' (by rw [hend]; exact hnext hover) ?_
        rw [hend, h.shiftsTo.loc]
        omega
      obtain ⟨n, hn⟩ := hrest
      refine ⟨n + 1, ?_⟩
      rw [occurrences_of_goesOn hover]
      exact hn

/-- A run in order, from a start before the end time. -/
theorem occursAsMeant (h : e.RunsInOrder standard) (hend : e.repeatSettings.endCount = 0 →
      e.startTime.instant < e.repeatSettings.endTime.instant) : e.OccursAsMeant := by
  constructor
  · intro n
    rw [List.pairwise_map]
    have htrans : IsTrans Time (fun t u => t.date < u.date) := ⟨fun _ _ _ => lt_trans⟩
    exact List.isChain_iff_pairwise.mp (h.isChain_occurrences n)
  · intro hcount n hlast
    exact (h.length_occurrences hcount n).1 hlast
  · intro hcount
    exact h.occurrences_inTime hcount (hend hcount).le
  · intro hcount
    rcases hcount.lt_or_eq with hpos | hzero
    · refine ⟨e.repeatSettings.endCount.toNat, (h.length_occurrences hpos _).2 ?_⟩
      omega
    · refine h.exists_over hzero.symm (hend hzero.symm).le
        ((e.repeatSettings.endTime.inLocation e.startTime.loc).date + 1 -
          e.startTime.date).toNat ?_
      omega
  · intro n m hlast
    exact occurrences_add hlast m

end RunsInOrder

/-- A valid event in a zone with changes of one hour, all of whose shifts are in order, occurs as
its settings say. -/
theorem occursAsMeant_of_inOrder {loc : Location} {standard : ℤ}
    {mapOfVariables : String → Option SetpointList} {e valid : Event}
    (hzone : loc.OneHourChanges standard)
    (hvalid : e.validate (some loc) mapOfVariables = .ok valid)
    (hshifts : ∀ series, Continues valid series → series.ShiftsInOrder) : valid.OccursAsMeant := by
  obtain ⟨loc', hloc, hstart, hsettings⟩ := validate_settings hvalid
  cases hloc
  have hruns : valid.RunsInOrder standard := by
    refine ⟨?_, hshifts⟩
    rw [hstart]
    exact hzone
  refine hruns.occursAsMeant ?_
  rw [hstart]
  exact (Series.validate_sound hsettings).2.endTime

/-- The clocks of New York in 2024: an hour ahead from the tenth of March, seven o'clock universal
time, to the third of November, six o'clock. -/
def newYork2024 : Location where
  offset instant :=
    if 19792 * day + 7 * hour ≤ instant ∧ instant < 20030 * day + 6 * hour then -4 * hour
    else -5 * hour

theorem newYork2024_changes : newYork2024.OneHourChanges (-5 * hour) := by
  constructor
  · intro instant
    simp only [newYork2024]
    split_ifs
    · right
      decide
    · left
      rfl
  · intro t u v htu huv hnear
    simp only [newYork2024, day] at *
    split_ifs <;> omega

/-- Every day at half past two, from the day before the clocks skip that time. -/
def halfPastTwo (endCount : ℤ) : Event where
  id := 0
  startTime := ⟨19791 * day + 7 * hour + 30 * minute, newYork2024⟩
  duration := 60
  mode := "default"
  variableMap := ∅
  repeatSettings := { newNonRepeatingSeries with endCount }

/-- Validation leaves the event as it is. -/
theorem halfPastTwo_valid {endCount : ℤ} (hpos : 0 < endCount) :
    (halfPastTwo endCount).validate (some newYork2024) plainModes = .ok (halfPastTwo endCount) := by
  have hduration : validateDuration (halfPastTwo endCount).timeDuration = .ok () :=
    dailyUntil_duration 0
  have hcompleted : (halfPastTwo endCount).repeatSettings.completed
      ((halfPastTwo endCount).startTime.inLocation newYork2024) =
        (halfPastTwo endCount).repeatSettings :=
    Series.completed_of_everyDay _ rfl rfl
  have hcycle : (halfPastTwo endCount).repeatSettings.cycle = .daily := rfl
  have hcount : (halfPastTwo endCount).repeatSettings.endCount = endCount := rfl
  have hfrequency : (halfPastTwo endCount).repeatSettings.frequency = 1 := rfl
  have hsettings : (halfPastTwo endCount).repeatSettings.validate
      ((halfPastTwo endCount).startTime.inLocation newYork2024) =
        .ok (halfPastTwo endCount).repeatSettings := by
    rw [Series.validate_eq _ (by rw [hcycle]; simp), hcompleted, hcycle, hcount, hfrequency,
      if_neg (by simp), if_neg (by decide), if_neg (by omega), if_pos (by omega)]
    rfl
  rw [Event.validate, hduration]
  simp only [pure_bind, hsettings]
  rfl

theorem halfPastTwo_skips : (halfPastTwo 3).SkipsNext :=
  newYork2024_changes.skips_iff.mpr (by decide +kernel)

/-- All shifts of three occurrences are in order. -/
theorem halfPastTwo_inOrder {series : Event} (hrun : Continues (halfPastTwo 3) series) :
    series.ShiftsInOrder := by
  cases hrun with
  | refl =>
    constructor
    · intro _
      constructor <;> decide +kernel
    · intro _
      exact ⟨by decide, fun hzero => absurd hzero (by decide)⟩
    · intro _ _
      refine ⟨by decide +kernel, ?_, ?_⟩ <;> decide +kernel
  | next goesOn rest =>
    cases rest with
    | refl =>
      have hcount : (halfPastTwo 3).shiftSeries.series.repeatSettings.endCount = 1 := by
        decide +kernel
      have hloc : (halfPastTwo 3).shiftSeries.series.startTime.loc = newYork2024 := by
        obtain ⟨-, -, hstart, -⟩ := shiftSeries_of_skips newYork2024_changes halfPastTwo_skips
          (by decide +kernel)
        rw [hstart]
        rfl
      have hshown : ¬ (halfPastTwo 3).shiftSeries.series.SkipsNext := by
        rw [SkipsNext, hloc, newYork2024_changes.skips_iff]
        decide +kernel
      exact ⟨fun hne => absurd hcount hne, fun hskips => absurd hskips hshown,
        fun hskips => absurd hskips hshown⟩
    | next goesOn' _ =>
      have hover : (halfPastTwo 3).shiftSeries.series.shiftSeries.seriesOver = true := by
        decide +kernel
      rw [hover] at goesOn'
      cases goesOn'

/-- Three occurrences, the second in the skipped hour. -/
theorem occursAsMeant_of_inOrder_halfPastTwo : (halfPastTwo 3).OccursAsMeant :=
  occursAsMeant_of_inOrder newYork2024_changes (halfPastTwo_valid (by decide))
    (fun _ hrun => halfPastTwo_inOrder hrun)

/-- An event that does not repeat occurs a second time where the clocks skip its time of day on
the next date. -/
theorem halfPastTwo_twice :
    ¬ ∀ (loc : Location) (standard : ℤ) (mapOfVariables : String → Option SetpointList)
      (e valid : Event), loc.OneHourChanges standard →
      e.validate (some loc) mapOfVariables = .ok valid → valid.OccursAsMeant := by
  intro hall
  have hmeant := hall newYork2024 _ plainModes _ _ newYork2024_changes
    (halfPastTwo_valid (show (0 : ℤ) < 1 by decide))
  have hover : (occurrences 1 (halfPastTwo 1)).2 = true := by decide +kernel
  have hlength : (occurrences 1 (halfPastTwo 1)).1.length = 2 := by decide +kernel
  have hcounted := hmeant.counted (by decide) 1 hover
  rw [hlength] at hcounted
  exact absurd hcounted (by decide)

end Event

/-!
## Realigned exceptions

Validation moves every exception to the start's time of day on the exception's date, drops those
before the start and keeps one of each. The date is read where the exception was given, while the
occurrences have their dates in the location of the schedule.
-/

namespace Series

/-- Exceptions in order: all in one location, each later than the one before. -/
structure InOrder (loc : Location) (exceptions : List Time) : Prop where
  loc : ∀ x ∈ exceptions, x.loc = loc
  increasing : exceptions.Pairwise (fun x y => x.instant < y.instant)

variable {exceptions : List Time} {loc : Location} {startTime : Time}

/-- An exception is added to those that are there. -/
theorem mem_addTo {newException x : Time} (h : InOrder loc exceptions)
    (hloc : newException.loc = loc) :
    x ∈ addTo exceptions newException ↔ x ∈ exceptions ∨ x = newException := by
  rw [addTo]
  split_ifs with hany
  · rw [List.any_eq_true] at hany
    obtain ⟨y, hy, hequal⟩ := hany
    have hsame : y = newException := by
      have hyloc := (h.loc y hy).trans hloc.symm
      cases y
      cases newException
      simp_all
    constructor
    · exact Or.inl
    · rintro (hmem | rfl)
      · exact hmem
      · exact hsame ▸ hy
  · rw [sortExceptions, List.mem_insertionSort, List.mem_append, List.mem_singleton]

/-- Adding an exception keeps them in order. -/
theorem InOrder.addTo {newException : Time} (h : InOrder loc exceptions)
    (hloc : newException.loc = loc) : InOrder loc (addTo exceptions newException) := by
  refine ⟨?_, ?_⟩
  · intro x hx
    rcases (mem_addTo h hloc).mp hx with hmem | rfl
    · exact h.loc x hmem
    · exact hloc
  · rw [Series.addTo]
    split_ifs with hany
    · exact h.increasing
    · have hnew : ∀ y ∈ exceptions, y.instant ≠ newException.instant := by
        intro y hy heq
        exact hany (List.any_eq_true.mpr ⟨y, hy, Time.equal_iff.mpr heq⟩)
      have hdistinct : (exceptions ++ [newException]).Pairwise
          (fun x y => x.instant ≠ y.instant) := by
        rw [List.pairwise_append]
        refine ⟨h.increasing.imp fun hlt => hlt.ne, List.pairwise_singleton _ _, ?_⟩
        intro y hy z hz
        rw [List.mem_singleton] at hz
        rw [hz]
        exact hnew y hy
      have hsorted := List.pairwise_insertionSort (fun x y : Time => x.instant ≤ y.instant)
        (exceptions ++ [newException])
      have hperm := List.perm_insertionSort (fun x y : Time => x.instant ≤ y.instant)
        (exceptions ++ [newException])
      have hdistinct' := (hperm.pairwise_iff (fun h => h.symm)).mpr hdistinct
      exact hsorted.imp₂ (fun _ _ hle hne => lt_of_le_of_ne hle hne) hdistinct'

/-- What validation makes of an exception: it is dropped before the start. -/
def KeptAs (startTime exception kept : Time) : Prop :=
  kept = applyNewDateToTime exception startTime ∧ startTime.instant ≤ kept.instant

/-- Realigned exceptions are in order, and are those that were given and not dropped. -/
theorem alignExceptions_spec (startTime : Time) (exceptions : List Time) :
    InOrder startTime.loc (alignExceptions startTime exceptions) ∧
      ∀ y, y ∈ alignExceptions startTime exceptions ↔
        ∃ x ∈ exceptions, KeptAs startTime x y := by
  have hfold : ∀ exceptions kept : List Time, InOrder startTime.loc kept →
      InOrder startTime.loc (exceptions.foldl (addAligned startTime) kept) ∧
        ∀ y, y ∈ exceptions.foldl (addAligned startTime) kept ↔
          y ∈ kept ∨ ∃ x ∈ exceptions, KeptAs startTime x y := by
    intro exceptions
    induction exceptions with
    | nil =>
      intro kept hkept
      refine ⟨hkept, fun y => ?_⟩
      simp
    | cons exception rest ih =>
      intro kept hkept
      rw [List.foldl_cons, addAligned]
      have hloc : (applyNewDateToTime exception startTime).loc = startTime.loc :=
        applyNewDateToTime_loc _ _
      by_cases hbefore : (applyNewDateToTime exception startTime).before startTime = true
      · rw [if_pos hbefore]
        obtain ⟨horder, hmem⟩ := ih kept hkept
        refine ⟨horder, fun y => (hmem y).trans ?_⟩
        have hdropped : ¬ KeptAs startTime exception y := by
          rintro ⟨rfl, hle⟩
          rw [Time.before_iff] at hbefore
          omega
        simp [hdropped]
      · rw [if_neg hbefore]
        obtain ⟨horder, hmem⟩ := ih _ (hkept.addTo hloc)
        refine ⟨horder, fun y => (hmem y).trans ?_⟩
        rw [mem_addTo hkept hloc, Time.before_iff, not_lt] at *
        have hadded : KeptAs startTime exception y ↔
            y = applyNewDateToTime exception startTime := by
          constructor
          · exact And.left
          · rintro rfl
            exact ⟨rfl, hbefore⟩
        simp [hadded, or_assoc]
  obtain ⟨horder, hmem⟩ := hfold exceptions [] ⟨by simp, List.Pairwise.nil⟩
  refine ⟨horder, fun y => (hmem y).trans ?_⟩
  simp

/-- Lists of exceptions in order with the same members are the same. -/
theorem InOrder.eq {exceptions' : List Time} (h : InOrder loc exceptions)
    (h' : InOrder loc exceptions') (hmem : ∀ x, x ∈ exceptions ↔ x ∈ exceptions') :
    exceptions = exceptions' := by
  exact List.Pairwise.eq_of_mem_iff h.increasing h'.increasing hmem

/-- Realigning exceptions in order changes nothing if and only if each of them is what another
one is realigned to. As many exceptions cannot become more. -/
theorem InOrder.alignExceptions_eq_iff (h : InOrder startTime.loc exceptions)
    (hstart : ∀ x ∈ exceptions, startTime.instant ≤ x.instant) :
    alignExceptions startTime exceptions = exceptions ↔
      ∀ y ∈ exceptions, ∃ x ∈ exceptions, applyNewDateToTime x startTime = y := by
  obtain ⟨horder, hmem⟩ := alignExceptions_spec startTime exceptions
  constructor
  · intro hsame y hy
    rw [← hsame] at hy
    obtain ⟨x, hx, hkept⟩ := (hmem y).mp hy
    exact ⟨x, hx, hkept.1.symm⟩
  · intro honto
    refine horder.eq h fun y => ?_
    rw [hmem]
    constructor
    · rintro ⟨x, hx, rfl, -⟩
      classical
      have hsub : exceptions.toFinset ⊆
          (exceptions.map (applyNewDateToTime · startTime)).toFinset := by
        intro y hy
        rw [List.mem_toFinset] at hy
        rw [List.mem_toFinset, List.mem_map]
        exact honto y hy
      have hnodup : exceptions.Nodup := h.increasing.imp fun hlt heq => by
        rw [heq] at hlt
        exact lt_irrefl _ hlt
      have hcard : (exceptions.map (applyNewDateToTime · startTime)).toFinset.card ≤
          exceptions.toFinset.card := by
        rw [List.toFinset_card_of_nodup hnodup]
        exact (List.toFinset_card_le _).trans (List.length_map _).le
      have hall := Finset.eq_of_subset_of_card_le hsub hcard
      rw [← List.mem_toFinset, hall, List.mem_toFinset]
      exact List.mem_map_of_mem hx
    · intro hy
      obtain ⟨x, hx, heq⟩ := honto y hy
      exact ⟨x, hx, heq.symm, hstart y hy⟩

/-- What validation makes of repeat settings. -/
theorem validate_spec {ser valid : Series} (h : ser.validate startTime = .ok valid) :
    ∃ dayMask endTime, valid = { ser with
        dayMask, endTime, exceptions := alignExceptions startTime ser.exceptions } ∧
      dayMask &&& everyDayMask = dayMask ∧ dayMask ≠ 0 ∧
      (ser.endCount ≠ 0 → endTime = defaultSeriesEndTime) := by
  obtain ⟨hsound, -⟩ := validate_sound h
  obtain ⟨dayMask, heq, hmasked, hne⟩ := ser.completed_eq startTime
  rw [validate_eq startTime hsound.cycle, heq] at h
  split_ifs at h with _ _ _ hcount
  · cases h
    exact ⟨dayMask, defaultSeriesEndTime, rfl, hmasked, hne, fun _ => rfl⟩
  · cases h
    exact ⟨dayMask, ser.endTime, rfl, hmasked, hne, fun hcount' => absurd hcount' hcount⟩

/-- Repeat settings that were validated change in their exceptions only when they are validated
again. -/
theorem validate_again {ser valid : Series} (h : ser.validate startTime = .ok valid) :
    valid.validate startTime = .ok { valid with
      exceptions := alignExceptions startTime valid.exceptions } := by
  obtain ⟨-, hsound⟩ := validate_sound h
  obtain ⟨again, hagain⟩ := hsound.validate
  obtain ⟨dayMask, endTime, heq, hmasked, hne, hend⟩ := validate_spec h
  rw [hagain]
  have hmask : ¬ valid.maskDays.dayMask = 0 := by
    change ¬ valid.dayMask &&& everyDayMask = 0
    rw [heq, hmasked]
    exact hne
  have hsame : valid.maskDays = valid := by
    rw [maskDays, heq]
    rw [hmasked]
  have hcompleted : valid.completed startTime =
      { valid with exceptions := alignExceptions startTime valid.exceptions } := by
    rw [completed, if_neg hmask, hsame]
    exact validateExceptions_spec valid startTime
  rw [validate_eq startTime hsound.cycle, hcompleted] at hagain
  split_ifs at hagain with _ _ _ hcount
  · have hdefault : valid.endTime = defaultSeriesEndTime := by
      rw [heq] at hcount ⊢
      exact hend hcount
    rw [← hagain, ← hdefault]
  · exact hagain.symm

end Series

namespace Event

/-! ## Variables that were validated -/

/-- Variables with the same values. -/
def SameValues (variableMap variableMap' : VariableMap) : Prop :=
  ∀ id, variableMap.lookup id = variableMap'.lookup id

variable {variableMap : VariableMap} {loc : Location} {e valid : Event}
  {variableMap' again : VariableMap} {modeVariables : SetpointList}

/-- A variable that was validated changes nothing when it is validated again. -/
theorem validateVariable_again {v : Setpoint} (hknown : ∀ text, v.varType ≠ .other text)
    (h : validateVariable variableMap v = .ok variableMap')
    (hsame : again.lookup v.id = variableMap'.lookup v.id) :
    ∃ again', validateVariable again v = .ok again' ∧ SameValues again' again := by
  rw [validateVariable] at h
  split at h
  next entries hvalue =>
    split at h
    next hbool hslice =>
      cases h
      refine ⟨again, ?_, fun _ => rfl⟩
      rw [validateVariable, hsame, hvalue]
      simp [hbool, hslice]
    · cases h
    · cases h
  next hvalue htype =>
    cases h
    refine ⟨again, ?_, fun _ => rfl⟩
    rw [validateVariable, hsame, hvalue, htype]
  next hvalue htype =>
    cases h
    refine ⟨again, ?_, fun _ => rfl⟩
    rw [validateVariable, hsame, hvalue, htype]
  next hvalue htype =>
    cases h
    refine ⟨again, ?_, fun _ => rfl⟩
    rw [validateVariable, hsame, hvalue, htype]
  next htype =>
    split at h
    next n _ =>
      cases h
      have hint : again.lookup v.id = some (.int n) := by
        rw [hsame]
        exact AList.lookup_insert _
      refine ⟨again.insert v.id (.int n), ?_, ?_⟩
      · rw [validateVariable, hint, htype]
        rfl
      · intro id
        by_cases hid : id = v.id
        · rw [hid, AList.lookup_insert, hint]
        · rw [AList.lookup_insert_ne hid]
    · cases h
  next hother _ => exact absurd hother (hknown _)
  · cases h

/-- Validating variables again that pass one by one. -/
theorem foldlM_validateVariable_same
    (hpass : ∀ v ∈ modeVariables, ∀ again, SameValues again variableMap →
      ∃ again', validateVariable again v = .ok again' ∧ SameValues again' again)
    (hsame : SameValues again variableMap) :
    ∃ again', modeVariables.foldlM validateVariable again = .ok again' ∧
      SameValues again' variableMap := by
  induction modeVariables generalizing again with
  | nil => exact ⟨again, rfl, hsame⟩
  | cons v rest ih =>
    obtain ⟨mid, hmid, hvalues⟩ := hpass v List.mem_cons_self again hsame
    rw [List.foldlM_cons, hmid]
    exact ih (fun w hw => hpass w (List.mem_cons_of_mem _ hw))
      (fun id => (hvalues id).trans (hsame id))

/-- Validated variables pass one by one. -/
theorem foldlM_validateVariable_passes (hwell : WellFormedVariables modeVariables)
    (h : modeVariables.foldlM validateVariable variableMap = .ok variableMap') :
    ∀ v ∈ modeVariables, ∀ again, SameValues again variableMap' →
      ∃ again', validateVariable again v = .ok again' ∧ SameValues again' again := by
  intro v hv again hsame
  obtain ⟨before, after, hafter, hlookup⟩ := foldlM_validateVariable_at hwell h v hv
  exact validateVariable_again (hwell.known v hv) hafter (by rw [hsame v.id, hlookup])

/-! ## Validating an event again -/

variable {mapOfVariables : String → Option SetpointList}

/-- An event that was validated changes in its exceptions only when it is validated again. -/
theorem validate_again (hmodes : WellFormedModes mapOfVariables)
    (h : e.validate (some loc) mapOfVariables = .ok valid) :
    ∃ variableMap, SameValues variableMap valid.variableMap ∧
      valid.validate (some loc) mapOfVariables = .ok { valid with
        variableMap
        repeatSettings := { valid.repeatSettings with
          exceptions := Series.alignExceptions valid.startTime
            valid.repeatSettings.exceptions } } := by
  have hsound := validate_sound hmodes h
  obtain ⟨loc', hloc, hstart, hsettings⟩ := validate_settings h
  cases hloc
  obtain ⟨modeVariables, hmode, hsuits⟩ := hsound.suits
  have hwell := hmodes _ _ hmode
  have hvariables : ∃ variableMap, valid.validateVariables mapOfVariables = .ok variableMap ∧
      SameValues variableMap valid.variableMap := by
    have hmodeName : valid.mode = e.mode ∧ ∃ variableMap,
        e.validateVariables mapOfVariables = .ok variableMap ∧
          valid.variableMap = variableMap := by
      unfold Event.validate at h
      obtain ⟨_, heq, h⟩ := CheckedRun.of_bind_ok h
      obtain ⟨_, _, h⟩ := CheckedRun.of_bind_ok h
      obtain ⟨variableMap, hvariables, h⟩ := CheckedRun.of_bind_ok h
      obtain ⟨_, _, h⟩ := CheckedRun.of_bind_ok h
      cases h
      exact ⟨rfl, variableMap, hvariables, rfl⟩
    obtain ⟨hname, variableMap, hfirst, heq⟩ := hmodeName
    rw [hname] at hmode
    rw [validateVariables, hmode] at hfirst
    dsimp only at hfirst
    split_ifs at hfirst
    rw [validateVariables, hname, hmode]
    dsimp only
    rw [if_neg (by simpa using hsuits.length_eq hwell)]
    rw [heq] at *
    exact foldlM_validateVariable_same (foldlM_validateVariable_passes hwell hfirst)
      (fun _ => rfl)
  obtain ⟨variableMap, hvariables, hvalues⟩ := hvariables
  refine ⟨variableMap, hvalues, ?_⟩
  have hduration : validateDuration valid.timeDuration = .ok () := by
    have hlt := hsound.duration
    rw [validateDuration, if_neg (by omega)]
  have hsame : valid.startTime.inLocation loc = valid.startTime := by
    rw [hstart, Time.inLocation_inLocation]
  have hagain := Series.validate_again hsettings
  rw [← hstart] at hagain
  rw [Event.validate, hduration, hvariables]
  simp only [pure_bind, hsame, hagain]
  rfl

/-! ## What exceptions mean -/

/-- The start's time of day on a date. -/
def onDate (startTime : Time) (date : ℤ) : Time :=
  let newTime := timeDate date startTime.clock startTime.loc
  if newTime.hourOfDay ≠ startTime.hourOfDay then
    timeDate date (startTime.add hour).clock startTime.loc
  else newTime

theorem applyNewDateToTime_eq_onDate (newDate startTime : Time) :
    applyNewDateToTime newDate startTime = onDate startTime newDate.date := rfl

/-- The start's time of day on a date is an instant that is not before the start. -/
def MeetsOn (startTime : Time) (date instant : ℤ) : Prop :=
  startTime.instant ≤ instant ∧ (onDate startTime date).instant = instant

/-- The series occurs at a time. -/
def OccursAt (e : Event) (t : Time) : Prop := ∃ n, t ∈ (occurrences n e).1

/-- The exceptions that were given keep their meaning in the validated event: an occurrence is
excepted if an exception was on its date in the location of the event, and validating again
changes nothing. -/
structure KeepsExceptions (loc : Location) (mapOfVariables : String → Option SetpointList)
    (e valid : Event) : Prop where
  meant : ∀ t, valid.OccursAt t → (valid.hasException t = true ↔
    ∃ x ∈ e.repeatSettings.exceptions, (x.inLocation loc).date = t.date)
  stable : ∃ variableMap, SameValues variableMap valid.variableMap ∧
    valid.validate (some loc) mapOfVariables = .ok { valid with variableMap }

/-- A time is the start's time of day on its date, or what stands for it where the clocks skip
it, and not before the start. -/
def AtTimeOf (startTime t : Time) : Prop :=
  startTime.instant ≤ t.instant ∧ (onDate startTime t.date).instant = t.instant

/-- The dates of the exceptions that were given fit. At each occurrence one of them has its date in
the location of the event exactly where one was given with this date, and the series is at the
start's time of day there. -/
def DatesFit (loc : Location) (e valid : Event) : Prop :=
  ∀ t, valid.OccursAt t →
    (AtTimeOf valid.startTime t ∧ (∃ x ∈ e.repeatSettings.exceptions, x.date = t.date) ↔
      ∃ x ∈ e.repeatSettings.exceptions, (x.inLocation loc).date = t.date)

/-- The start's time of day on a date is on that date, unless the start is in the hour before the
clocks are set back. -/
theorem date_onDate {startTime : Time} {standard : ℤ}
    (hzone : startTime.loc.OneHourChanges standard)
    (hback : startTime.loc.offset startTime.instant = standard + hour →
      startTime.loc.offset (startTime.instant + hour) = standard + hour) (newDate : Time) :
    (onDate startTime newDate.date).date = newDate.date := by
  rw [← applyNewDateToTime_eq_onDate]
  by_cases hskips : startTime.loc.Skips (newDate.date * day + startTime.clock)
  · rcases (hzone.applyNewDateToTime_of_skips newDate hskips).2 with hdate | ⟨⟨hahead, hset⟩, -⟩
    · exact hdate
    · have hsame := hset.symm.trans (hback hahead)
      simp only [hour, minute] at hsame
      omega
  · have hwall := hzone.wall_applyNewDateToTime newDate hskips
    have hrange := startTime.clock_range
    exact Time.date_eq hwall hrange.1 hrange.2

/-- A shift stays in the location of the event. -/
theorem shiftSeries_loc (e : Event) : e.shiftSeries.series.startTime.loc = e.startTime.loc ∧
    ∀ t ∈ e.splitStart, t.loc = e.startTime.loc := by
  obtain ⟨repeatSettings, hsplit⟩ := e.splitSpringForward_eq e.nextStartTime
  obtain ⟨settings, hwithout⟩ := e.withoutSpringForward_eq e.nextStartTime
  unfold splitStart shiftSeries
  dsimp only
  rw [hsplit, hwithout]
  split_ifs
  · split
    · simp [nextStartTime_loc]
    · simp [nextStartTime_loc]
  · simp [nextStartTime_loc]

/-- All occurrences are in the location of the event. -/
theorem occurrences_loc (n : ℕ) (e : Event) :
    ∀ t ∈ (occurrences n e).1, t.loc = e.startTime.loc := by
  induction n generalizing e with
  | zero => simp [occurrences]
  | succ n ih =>
    obtain ⟨hseries, hsplit⟩ := e.shiftSeries_loc
    intro t ht
    rw [occurrences, List.mem_cons, List.mem_append, Option.mem_toList] at ht
    rcases ht with rfl | ht | ht
    · rfl
    · exact hsplit t ht
    · split_ifs at ht
      · exact absurd ht List.not_mem_nil
      · exact (ih _ t ht).trans hseries

/-- The exceptions of a validated event. -/
theorem validate_exceptions (h : e.validate (some loc) mapOfVariables = .ok valid) :
    valid.repeatSettings.exceptions =
      Series.alignExceptions valid.startTime e.repeatSettings.exceptions := by
  obtain ⟨loc', hloc, hstart, hsettings⟩ := validate_settings h
  cases hloc
  obtain ⟨_, _, heq, -⟩ := Series.validate_spec hsettings
  rw [heq, hstart]

/-- A validated event has an exception at a time where one that was given is realigned to it. -/
theorem hasException_iff (h : e.validate (some loc) mapOfVariables = .ok valid) (t : Time) :
    valid.hasException t = true ↔
      ∃ x ∈ e.repeatSettings.exceptions, MeetsOn valid.startTime x.date t.instant := by
  obtain ⟨-, hmem⟩ := Series.alignExceptions_spec valid.startTime e.repeatSettings.exceptions
  rw [hasException, Series.hasException, validate_exceptions h, List.any_eq_true]
  constructor
  · rintro ⟨y, hy, hequal⟩
    obtain ⟨x, hx, hkept, hstart⟩ := (hmem y).mp hy
    rw [Time.equal_iff] at hequal
    refine ⟨x, hx, ?_, ?_⟩
    · rw [← hequal]
      exact hstart
    · rw [← hequal, hkept, applyNewDateToTime_eq_onDate]
  · rintro ⟨x, hx, hstart, hinstant⟩
    refine ⟨onDate valid.startTime x.date, (hmem _).mpr ⟨x, hx, ?_, ?_⟩, ?_⟩
    · rw [applyNewDateToTime_eq_onDate]
    · rw [hinstant]
      exact hstart
    · exact Time.equal_iff.mpr hinstant

/-- A validated event has an exception at an occurrence that is at its time of day where one was
given with its date. -/
theorem hasException_occurrence_iff (h : e.validate (some loc) mapOfVariables = .ok valid)
    (hdates : ∀ x ∈ e.repeatSettings.exceptions, (onDate valid.startTime x.date).date = x.date)
    {t : Time} (ht : valid.OccursAt t) : valid.hasException t = true ↔
      AtTimeOf valid.startTime t ∧ ∃ x ∈ e.repeatSettings.exceptions, x.date = t.date := by
  obtain ⟨n, hoccurs⟩ := ht
  have hloc := occurrences_loc n valid t hoccurs
  rw [hasException_iff h]
  constructor
  · rintro ⟨x, hx, hstart, hinstant⟩
    have hsame : onDate valid.startTime x.date = t := by
      have hthere : (onDate valid.startTime x.date).loc = t.loc :=
        (applyNewDateToTime_loc x valid.startTime).trans hloc.symm
      cases t
      cases hon : onDate valid.startTime x.date
      simp_all
    have hdate : x.date = t.date := by
      rw [← hdates x hx, hsame]
    exact ⟨⟨hstart, by rw [← hdate, hinstant]⟩, x, hx, hdate⟩
  · rintro ⟨⟨hstart, hinstant⟩, x, hx, hdate⟩
    exact ⟨x, hx, hstart, by rw [hdate, hinstant]⟩

/-- Five hours behind universal time. -/
def fiveBehind : Location := ⟨fun _ => -5 * hour⟩

/-- Every day at eight in the evening, with its first occurrence as an exception that is given in
a location. -/
def atEight (given : Location) : Event where
  id := 0
  startTime := ⟨25 * hour, fiveBehind⟩
  duration := 60
  mode := "default"
  variableMap := ∅
  repeatSettings :=
    { newNonRepeatingSeries with endCount := -1, exceptions := [⟨25 * hour, given⟩] }

theorem atEight_valid (given : Location) :
    ∃ valid, (atEight given).validate (some fiveBehind) plainModes = .ok valid ∧
      valid.startTime = ⟨25 * hour, fiveBehind⟩ := by
  have hsound : (atEight given).Sound plainModes := by
    refine ⟨⟨[], rfl, ⟨?_, by simp⟩⟩, ?_, ?_, ?_, ?_, ?_, ?_⟩
    · intro id
      constructor
      · intro hid
        exact absurd hid (AList.notMem_empty _)
      · intro hid
        simp [SetpointList.ids] at hid
    · change (dailyUntil 0).timeDuration < 24 * hour
      decide +kernel
    · simp [atEight, newNonRepeatingSeries]
    · simp [atEight, newNonRepeatingSeries]
    · simp [atEight, newNonRepeatingSeries]
    · simp [atEight]
    · simp [atEight]
  obtain ⟨valid, hvalid⟩ := hsound.validate plainModes_wellFormed fiveBehind
  obtain ⟨loc, hloc, hstart, -⟩ := validate_settings hvalid
  cases hloc
  exact ⟨valid, hvalid, hstart⟩

end Event

end HybridOs.Scheduler
