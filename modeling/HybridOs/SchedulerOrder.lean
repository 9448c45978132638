import HybridOs.SchedulerTime
import HybridOs.SchedulerRun

/-!
# The order of the scheduled events

A check looks only at the first scheduled event and shifts it in place. The list stays
sorted, and checks start what is due first, as long as every series that is shifted is still
first or the list is sorted again.
-/

namespace HybridOs.Scheduler

/-! ## Shifts where the clocks never change -/

namespace Location.Fixed

variable {t : Time} {offset : ℤ} (hfixed : t.loc.Fixed offset)
include hfixed

/-- The date some days after a time, with the arithmetic of durations. -/
theorem date_getMidnightInNDays_wrap (n : ℤ) :
    (getMidnightInNDays n t).date = t.date + wrapInt64 ((24 * n + 1) * hour) / day := by
  have htwo (instant : ℤ) : t.loc.offset instant = offset ∨ t.loc.offset instant = offset + hour :=
    .inl (hfixed instant)
  by_cases hzero : n = 0
  · have hspan : wrapInt64 ((24 * 0 + 1) * hour) / day = 0 := by decide +kernel
    rw [hzero, hspan, date_getMidnightInNDays htwo, DaysFit]
    decide
  · have hne : offset ≠ offset + hour := by
      simp only [hour, minute]
      omega
    have hmorning : (midnightOf t).add (wrapInt64 ((24 * n + 1) * hour)) =
        ⟨earlyMidnight offset t.date + hour + wrapInt64 ((24 * n + 1) * hour), t.loc⟩ := by
      rw [midnightOf_eq htwo rfl, hfixed, if_neg fun h => hne h.1, Time.add]
    rw [getMidnightInNDays_eq hzero, date_midnightOf htwo (by rw [hmorning]), hmorning, Time.date,
      hfixed.wall_eq]
    simp only [earlyMidnight, day, hour, minute]
    omega

end Location.Fixed

/-- Days that a shift by a number of days moves a start, durations being 64-bit numbers. -/
def shiftedDays (n : ℤ) : ℤ := wrapInt64 ((24 * n + 1) * hour) / day

/-- Days that fit into a duration. -/
theorem shiftedDays_of_fits {n : ℤ} (hlow : 0 ≤ n) (hfits : n ≤ 106751) : shiftedDays n = n := by
  obtain ⟨k, hk, hrange⟩ := wrapInt64_eq ((24 * n + 1) * hour)
  rw [shiftedDays]
  simp only [day, hour, minute] at *
  omega

/-- A number of days that is not negative as a signed number. -/
theorem toInt_of_toNat_lt {n : UInt64} (h : n.toNat < 2 ^ 63) : n.toInt64.toInt = n.toNat := by
  change (n.toBitVec.toInt : ℤ) = _
  rw [BitVec.toInt_eq_toNat_cond]
  have hnat : n.toBitVec.toNat = n.toNat := rfl
  rw [hnat, if_pos (by omega)]

/-! ## The occurrences of a series -/

namespace Event

/-- The series goes on from one of its occurrences to another. -/
inductive Continues : Event → Event → Prop
  | refl (e : Event) : Continues e e
  | next {e e' : Event} (goesOn : e.shiftSeries.seriesOver = false)
    (rest : Continues e.shiftSeries.series e') : Continues e e'

/-- The event occurs at an instant: its own start unless that is an exception, an occurrence
in the skipped hour, or one of the series that goes on. -/
inductive Occurs : Event → ℤ → Prop
  | here {e : Event} (kept : e.hasException e.startTime = false) : Occurs e e.startTime.instant
  | split {e split : Event} {t : ℤ} (springForward : e.shiftSeries.springForwardEvent = some split)
    (rest : Occurs split t) : Occurs e t
  | next {e : Event} {t : ℤ} (goesOn : e.shiftSeries.seriesOver = false)
    (rest : Occurs e.shiftSeries.series t) : Occurs e t

/-- Events that shifting the series and splitting it lead to. -/
inductive Reaches : Event → Event → Prop
  | refl (e : Event) : Reaches e e
  | shift {e e' : Event} (rest : Reaches e.shiftSeries.series e') : Reaches e e'
  | split {e split e' : Event} (springForward : e.shiftSeries.springForwardEvent = some split)
    (rest : Reaches split e') : Reaches e e'

/-- Every shift moves the series forward while it goes on, and splits only later occurrences
from it. -/
def MovesForward (e : Event) : Prop :=
  ∀ e', Reaches e e' →
    (e'.shiftSeries.seriesOver = false →
      e'.startTime.instant < e'.shiftSeries.series.startTime.instant) ∧
    ∀ split, e'.shiftSeries.springForwardEvent = some split →
      e'.startTime.instant < split.startTime.instant

theorem MovesForward.shift {e : Event} (h : e.MovesForward) : e.shiftSeries.series.MovesForward :=
  fun e' hreaches => h e' (.shift hreaches)

theorem MovesForward.split {e split : Event} (h : e.MovesForward)
    (hsplit : e.shiftSeries.springForwardEvent = some split) : split.MovesForward :=
  fun e' hreaches => h e' (.split hsplit hreaches)

/-- A series that moves forward does not occur before its start. -/
theorem Occurs.startTime_le {e : Event} {t : ℤ} (h : e.Occurs t) (hforward : e.MovesForward) :
    e.startTime.instant ≤ t := by
  induction h with
  | here _ => exact le_rfl
  | split hsplit _ ih =>
    have hlater := (hforward _ (.refl _)).2 _ hsplit
    exact hlater.le.trans (ih (hforward.split hsplit))
  | next hgoesOn _ ih =>
    have hlater := (hforward _ (.refl _)).1 hgoesOn
    exact hlater.le.trans (ih hforward.shift)

/-- The end of a series changes how many occurrences it has left only. -/
theorem updateSeriesEnd_eq (ser : Series) (t : Time) :
    ∃ endCount, (ser.updateSeriesEnd t).1 = { ser with endCount } := by
  rw [Series.updateSeriesEnd]
  split_ifs <;> exact ⟨_, rfl⟩

/-- Days that shifting the event moves its start. -/
def moves (e : Event) : ℤ := shiftedDays e.daysUntilNextOccurrence.toInt64.toInt

/-- Where the clocks never change a shift moves the start by days and changes nothing else but
the end of the series. -/
theorem shiftSeries_of_fixed {e : Event} {offset : ℤ} (hfixed : e.startTime.loc.Fixed offset) :
    e.shiftSeries.springForwardEvent = none ∧ ∃ endCount, e.shiftSeries.series =
      { e with
        startTime := e.startTime.add (e.moves * day)
        repeatSettings := { e.repeatSettings with endCount } } := by
  have hnext : e.nextStartTime = e.startTime.add (e.moves * day) := by
    rw [nextStartTime]
    exact hfixed.applyNewDateToTime_eq (hfixed.date_getMidnightInNDays_wrap _)
  have hhour : e.nextStartTime.hourOfDay = e.startTime.hourOfDay := by
    rw [hnext, hfixed.hourOfDay_add]
  obtain ⟨endCount, hend⟩ := updateSeriesEnd_eq e.repeatSettings e.nextStartTime
  unfold shiftSeries
  rw [if_neg (by simp [hhour])]
  exact ⟨rfl, endCount, by rw [← hend, hnext]⟩

/-- A daily series moves on by its frequency. -/
theorem moves_of_daily {e : Event} (hcycle : e.repeatSettings.cycle = .daily)
    (hfits : e.repeatSettings.frequency.toNat ≤ 106751) :
    e.moves = e.repeatSettings.frequency.toNat := by
  have hdays : e.daysUntilNextOccurrence = e.repeatSettings.frequency := by
    rw [daysUntilNextOccurrence, Series.calculateDaysUntilNextOccurrence, hcycle]
  rw [moves, hdays, toInt_of_toNat_lt (by omega), shiftedDays_of_fits (by omega) (by omega)]

/-- A daily series moves forward where the clocks never change. -/
theorem movesForward_of_daily {e : Event} {offset : ℤ} (hfixed : e.startTime.loc.Fixed offset)
    (hcycle : e.repeatSettings.cycle = .daily) (hpos : 0 < e.repeatSettings.frequency.toNat)
    (hfits : e.repeatSettings.frequency.toNat ≤ 100000) : e.MovesForward := by
  intro e' hreaches
  induction hreaches with
  | refl e =>
    obtain ⟨hsplit, endCount, hseries⟩ := shiftSeries_of_fixed hfixed
    refine ⟨fun _ => ?_, fun split h => ?_⟩
    · rw [hseries, Time.add_instant, moves_of_daily hcycle (by omega)]
      have hday : 0 < day := by decide
      have hmove := Int.mul_pos (Int.natCast_pos.mpr hpos) hday
      omega
    · rw [hsplit] at h
      cases h
  | shift _ ih =>
    obtain ⟨_, endCount, hseries⟩ := shiftSeries_of_fixed hfixed
    rw [hseries] at ih
    exact ih hfixed hcycle hpos hfits
  | split hsplit _ _ =>
    obtain ⟨hnone, -⟩ := shiftSeries_of_fixed hfixed
    rw [hnone] at hsplit
    cases hsplit

/-- The event under other identifiers and with another duration. -/
def retagged (e : Event) (id seriesId : Id) (duration : UInt64) : Event :=
  { e with id, duration, repeatSettings := { e.repeatSettings with id := seriesId } }

section Retagged

theorem updateSeriesEnd_withId (ser : Series) (id : Id) (t : Time) :
    ({ ser with id } : Series).updateSeriesEnd t =
      ({ (ser.updateSeriesEnd t).1 with id }, (ser.updateSeriesEnd t).2) := by
  by_cases hinfinite : ser.endCount < 0
  · simp [Series.updateSeriesEnd, Series.isInfiniteSeries, hinfinite]
  · by_cases hcount : 0 < ser.endCount
    · simp [Series.updateSeriesEnd, Series.isInfiniteSeries, hinfinite, hcount]
    · simp [Series.updateSeriesEnd, Series.isInfiniteSeries, hinfinite, hcount]

variable (e : Event) (id seriesId : Id) (duration : UInt64)

@[simp] theorem retagged_startTime : (e.retagged id seriesId duration).startTime = e.startTime :=
  rfl

@[simp] theorem retagged_hasException (t : Time) :
    (e.retagged id seriesId duration).hasException t = e.hasException t := rfl

/-- An occurrence in the skipped hour is split from a retagged series as from the series. -/
theorem retagged_splitSpringForward (t : Time) :
    (e.retagged id seriesId duration).splitSpringForward t =
      { e.splitSpringForward t with id, duration } := by
  rw [splitSpringForward, splitSpringForward, retagged_hasException]
  split_ifs <;> rfl

theorem retagged_withoutSpringForward (t : Time) :
    (e.retagged id seriesId duration).withoutSpringForward t =
      (e.withoutSpringForward t).retagged id seriesId duration := by
  rw [withoutSpringForward, withoutSpringForward, retagged_hasException]
  split_ifs <;> rfl

theorem retagged_updateSeriesEnd (t : Time) :
    (e.retagged id seriesId duration).repeatSettings.updateSeriesEnd t =
      ({ (e.repeatSettings.updateSeriesEnd t).1 with id := seriesId },
        (e.repeatSettings.updateSeriesEnd t).2) :=
  updateSeriesEnd_withId e.repeatSettings seriesId t

theorem retagged_nextStartTime :
    (e.retagged id seriesId duration).nextStartTime = e.nextStartTime := rfl

/-- A retagged series shifts as the series does. -/
theorem retagged_shiftSeries :
    (e.retagged id seriesId duration).shiftSeries =
      { series := e.shiftSeries.series.retagged id seriesId duration
        springForwardEvent := e.shiftSeries.springForwardEvent.map ({ · with id, duration })
        seriesOver := e.shiftSeries.seriesOver } := by
  simp only [shiftSeries, retagged_startTime,
    retagged_nextStartTime, retagged_splitSpringForward, retagged_withoutSpringForward,
    retagged_updateSeriesEnd]
  split_ifs
  · generalize (e.withoutSpringForward _).repeatSettings.updateSeriesEnd _ = ended
    obtain ⟨repeatSettings, isOver⟩ := ended
    cases isOver with
    | true => rfl
    | false =>
      simp only [updateSeriesEnd_withId]
      rfl
  · rfl

/-- A retagged event occurs when the event does. -/
theorem retagged_occurs {t : ℤ} (h : e.Occurs t) : (e.retagged id seriesId duration).Occurs t := by
  induction h generalizing id seriesId duration with
  | @here e hkept => exact .here (e := e.retagged id seriesId duration) hkept
  | @split e split t hsplit _ ih =>
    have hretagged : (e.retagged id seriesId duration).shiftSeries.springForwardEvent =
        some (split.retagged id split.repeatSettings.id duration) := by
      rw [retagged_shiftSeries, hsplit]
      rfl
    exact .split hretagged (ih id split.repeatSettings.id duration)
  | @next e t hgoesOn _ ih =>
    have hseries := retagged_shiftSeries e id seriesId duration
    refine .next ?_ ?_
    · rw [hseries]
      exact hgoesOn
    · rw [hseries]
      exact ih id seriesId duration

/-- What a retagged event leads to is what the event does, retagged. -/
theorem reaches_retagged {e' : Event} (h : Reaches (e.retagged id seriesId duration) e') :
    ∃ e0, Reaches e e0 ∧ ∃ id seriesId duration, e' = e0.retagged id seriesId duration := by
  generalize hretagged : e.retagged id seriesId duration = tagged at h
  induction h generalizing e id seriesId duration with
  | refl _ => exact ⟨e, .refl e, id, seriesId, duration, hretagged.symm⟩
  | shift _ ih =>
    subst hretagged
    rw [retagged_shiftSeries] at ih
    obtain ⟨e0, hreaches, htagged⟩ := ih e.shiftSeries.series id seriesId duration rfl
    exact ⟨e0, .shift hreaches, htagged⟩
  | split hsplit _ ih =>
    subst hretagged
    rw [retagged_shiftSeries] at hsplit
    obtain ⟨split, heq, rfl⟩ := Option.map_eq_some_iff.mp hsplit
    obtain ⟨e0, hreaches, htagged⟩ := ih split id split.repeatSettings.id duration rfl
    exact ⟨e0, .split heq hreaches, htagged⟩

/-- A retagged event moves forward as the event does. -/
theorem MovesForward.retagged {e : Event} (h : e.MovesForward) :
    (e.retagged id seriesId duration).MovesForward := by
  intro e' hreaches
  obtain ⟨e0, hreached, id, seriesId, duration, rfl⟩ :=
    reaches_retagged e id seriesId duration hreaches
  obtain ⟨hshift, hsplit⟩ := h e0 hreached
  rw [retagged_shiftSeries]
  refine ⟨hshift, fun split hmap => ?_⟩
  obtain ⟨split, heq, rfl⟩ := Option.map_eq_some_iff.mp hmap
  exact hsplit split heq

/-- An event occurs when it does retagged. -/
theorem occurs_retagged_iff {t : ℤ} : (e.retagged id seriesId duration).Occurs t ↔ e.Occurs t :=
  ⟨fun h => retagged_occurs (e.retagged id seriesId duration) e.id e.repeatSettings.id e.duration h,
    retagged_occurs e id seriesId duration⟩

end Retagged

/-- The end of a series does not touch its exceptions. -/
theorem updateSeriesEnd_exceptions (ser : Series) (t : Time) :
    (ser.updateSeriesEnd t).1.exceptions = ser.exceptions := by
  rw [Series.updateSeriesEnd]
  split_ifs <;> rfl

/-- Deleting an exception keeps those at other instants. -/
theorem hasException_deleteException {ser : Series} {t u : Time} (h : t.instant ≠ u.instant) :
    (ser.deleteException t).hasException u = ser.hasException u := by
  simp only [Series.hasException, Series.deleteException]
  induction ser.exceptions with
  | nil => rfl
  | cons exception rest ih =>
    by_cases hequal : t.equal exception = true
    · have hne : exception.equal u = false := by
        rw [Time.equal_iff] at hequal
        rw [← Bool.not_eq_true, Time.equal_iff, ← hequal]
        exact h
      rw [List.eraseP_cons_of_pos hequal, List.any_cons, hne, Bool.false_or]
    · rw [List.eraseP_cons_of_neg hequal, List.any_cons, List.any_cons, ih]

/-- Shifting a series keeps whether it has an exception at its start. -/
theorem shiftSeries_hasException (e : Event) :
    e.shiftSeries.series.hasException e.startTime = e.hasException e.startTime := by
  have hexceptions : ∀ (event : Event) (repeatSettings : Series) (t : Time),
      repeatSettings.exceptions = event.repeatSettings.exceptions →
      repeatSettings.hasException t = event.hasException t := by
    intro event repeatSettings t h
    simp only [hasException, Series.hasException, h]
  have hwithout : ∀ t : Time, t.loc = e.startTime.loc → t.hourOfDay ≠ e.startTime.hourOfDay →
      (e.withoutSpringForward t).hasException e.startTime = e.hasException e.startTime := by
    intro t hloc hhour
    rw [withoutSpringForward]
    split_ifs with hexception
    · refine hasException_deleteException fun hinstant => hhour ?_
      have htime : t = e.startTime := by
        cases t
        cases hstart : e.startTime
        simp_all
      rw [htime]
    · rfl
  unfold shiftSeries
  dsimp only
  split_ifs with hhour
  · have hkept := hwithout e.nextStartTime (applyNewDateToTime_loc _ _) hhour
    have hended := updateSeriesEnd_exceptions
      (e.withoutSpringForward e.nextStartTime).repeatSettings e.nextStartTime
    split
    next hend =>
      rw [hend] at hended
      exact (hexceptions _ _ _ hended).trans hkept
    next hend =>
      rw [hend] at hended
      exact (hexceptions _ _ _ ((updateSeriesEnd_exceptions _ _).trans hended)).trans hkept
  · exact hexceptions _ _ _ (updateSeriesEnd_exceptions _ _)

end Event

/-! ## Peeling an occurrence off the first series -/

namespace Schedule

/-- The scheduled events are sorted. -/
def Sorted (sched : Schedule) : Prop := sched.scheduledEvents.Pairwise NotAfter

/-- The occurrence in the skipped hour that is put back into the list: tagged, and trimmed to
the events that are there. -/
def rescheduled (fuel : ℕ) (sched : Schedule) (series : Event) (rest : EventList) :
    Option Event :=
  series.shiftSeries.springForwardEvent.bind fun springForwardEvent =>
    ((sched.assignIdsToPeeledEvent springForwardEvent).2).bind fun tagged =>
      (EventList.trimSpringForward fuel tagged (series.shiftSeries.series :: rest)).join

/-- The list before a series that is over is removed from it. -/
def relisted (fuel : ℕ) (sched : Schedule) (series : Event) (rest : EventList) : EventList :=
  match sched.rescheduled fuel series rest with
  | some split => EventList.add (series.shiftSeries.series :: rest) split
  | none => series.shiftSeries.series :: rest

variable {fuel : ℕ} {sched listed mid : Schedule} {series : Event} {rest : EventList} {now : ℤ}

/-- Trimming an occurrence in the skipped hour changes its duration only. -/
theorem trimSpringForward_eq {e e' : Event} {eList : EventList}
    (h : EventList.trimSpringForward fuel e eList = some (some e')) :
    ∃ duration, e' = e.retagged e.id e.repeatSettings.id duration := by
  induction eList generalizing e with
  | nil =>
    cases h
    exact ⟨_, rfl⟩
  | cons head rest ih =>
    rw [EventList.trimSpringForward] at h
    split at h
    · cases h
    · exact ih h
    · split_ifs at h
      · obtain ⟨duration, heq⟩ := ih h
        exact ⟨duration, heq⟩
      · cases h

/-- An occurrence that is put back is the one that was split, retagged. -/
theorem rescheduled_eq {e' : Event} (h : sched.rescheduled fuel series rest = some e') :
    ∃ split id seriesId duration, series.shiftSeries.springForwardEvent = some split ∧
      e' = split.retagged id seriesId duration := by
  obtain ⟨split, hsplit, h⟩ := Option.bind_eq_some_iff.mp h
  obtain ⟨tagged, htagged, h⟩ := Option.bind_eq_some_iff.mp h
  obtain ⟨duration, heq⟩ := trimSpringForward_eq (Option.join_eq_some_iff.mp h)
  rw [assignIdsToPeeledEvent] at htagged
  split at htagged
  next id _ _ =>
    cases htagged
    exact ⟨split, id, id, duration, hsplit, heq⟩
  · cases htagged

/-- Tagging an event leaves the lists alone. -/
theorem assignIdsToPeeledEvent_scheduledEvents (sched : Schedule) (e : Event) :
    (sched.assignIdsToPeeledEvent e).1.scheduledEvents = sched.scheduledEvents := by
  rw [assignIdsToPeeledEvent]
  split <;> rfl

/-- How an event is tagged does not depend on the lists. -/
theorem assignIdsToPeeledEvent_tagged (sched : Schedule) (e : Event) (eList : EventList) :
    (({ sched with scheduledEvents := eList }).assignIdsToPeeledEvent e).2 =
      (sched.assignIdsToPeeledEvent e).2 := by
  rw [assignIdsToPeeledEvent, assignIdsToPeeledEvent]
  cases generateId sched.cache sched.randomSrc with
  | mk id src => cases id <;> rfl

/-- What rescheduling an occurrence in the skipped hour leaves scheduled. -/
theorem rescheduleSpringForward_scheduledEvents {split : Event}
    (h : sched.rescheduleSpringForward fuel (some split) = some listed) :
    listed.scheduledEvents =
      match ((sched.assignIdsToPeeledEvent split).2).bind fun tagged =>
        (EventList.trimSpringForward fuel tagged sched.scheduledEvents).join with
      | some split => sched.scheduledEvents.add split | none => sched.scheduledEvents := by
  have hlists := assignIdsToPeeledEvent_scheduledEvents sched split
  rw [rescheduleSpringForward] at h
  cases hassign : sched.assignIdsToPeeledEvent split with
  | mk tagging tagged =>
    rw [hassign] at h hlists
    change tagging.scheduledEvents = sched.scheduledEvents at hlists
    cases tagged with
    | none =>
      cases h
      exact hlists
    | some tagged =>
      simp only [EventList.handleSpringForwardEvent, hlists] at h
      simp only [Option.bind_some]
      cases htrim : EventList.trimSpringForward fuel tagged sched.scheduledEvents with
      | none =>
        rw [htrim] at h
        cases h
      | some trimmed =>
        rw [htrim] at h
        cases trimmed with
        | none | some split =>
          cases h
          rfl

/-- The list that the shifted series is put into, and the occurrence split from it. -/
theorem rescheduleSpringForward_relisted
    (h : ({ sched with scheduledEvents := series.shiftSeries.series :: rest } :
      Schedule).rescheduleSpringForward fuel series.shiftSeries.springForwardEvent =
        some listed) : listed.scheduledEvents = sched.relisted fuel series rest := by
  unfold relisted rescheduled
  cases hsplit : series.shiftSeries.springForwardEvent with
  | none =>
    rw [hsplit] at h
    cases h
    rfl
  | some split =>
    rw [hsplit] at h
    rw [rescheduleSpringForward_scheduledEvents h, assignIdsToPeeledEvent_tagged]
    simp only [Option.bind_some]

/-- What peeling leaves scheduled. -/
theorem peelOccurrence_scheduledEvents (h : sched.peelOccurrence fuel series rest = some mid) :
    mid.scheduledEvents = if series.shiftSeries.seriesOver then
      (sched.relisted fuel series rest).tail else sched.relisted fuel series rest := by
  unfold peelOccurrence at h
  simp only [Option.map_eq_some_iff] at h
  obtain ⟨listed, hlisted, hremoved⟩ := h
  have hlist := rescheduleSpringForward_relisted hlisted
  rw [← hremoved, removeSeries, ← hlist]
  split_ifs <;> rfl

/-- Tagging an event leaves the active and the expired events alone. -/
theorem assignIdsToPeeledEvent_frame (sched : Schedule) (e : Event) :
    (sched.assignIdsToPeeledEvent e).1.activeEvent = sched.activeEvent ∧
      (sched.assignIdsToPeeledEvent e).1.expiredEvents = sched.expiredEvents := by
  rw [assignIdsToPeeledEvent]
  split <;> exact ⟨rfl, rfl⟩

/-- Rescheduling an occurrence in the skipped hour leaves them alone. -/
theorem rescheduleSpringForward_frame {split : Option Event}
    (h : sched.rescheduleSpringForward fuel split = some listed) :
    listed.activeEvent = sched.activeEvent ∧ listed.expiredEvents = sched.expiredEvents := by
  cases split with
  | none =>
    cases h
    exact ⟨rfl, rfl⟩
  | some split =>
    have hframe := assignIdsToPeeledEvent_frame sched split
    rw [rescheduleSpringForward] at h
    cases hassign : sched.assignIdsToPeeledEvent split with
    | mk tagging tagged =>
      rw [hassign] at h hframe
      cases tagged with
      | none =>
        cases h
        exact hframe
      | some tagged =>
        dsimp only at h
        split at h
        · cases h
        · cases h
          exact hframe
        · cases h
          exact hframe

/-- Peeling leaves them alone. -/
theorem peelOccurrence_frame (h : sched.peelOccurrence fuel series rest = some mid) :
    mid.activeEvent = sched.activeEvent ∧ mid.expiredEvents = sched.expiredEvents := by
  unfold peelOccurrence at h
  simp only [Option.map_eq_some_iff] at h
  obtain ⟨listed, hlisted, hremoved⟩ := h
  have hframe := rescheduleSpringForward_frame hlisted
  rw [← hremoved, removeSeries]
  split_ifs <;> exact hframe

/-- A series is shifted in order: where nothing sorts the list again it stays first, and where
an occurrence in the skipped hour does, a series that is over is first to be removed. An
occurrence that is dropped is not due. -/
structure PeelsInOrder (now : ℤ) (fuel : ℕ) (sched : Schedule) (series : Event)
    (rest : EventList) : Prop where
  staysFirst : sched.rescheduled fuel series rest = none →
    series.shiftSeries.seriesOver = false → ∀ e ∈ rest, NotAfter series.shiftSeries.series e
  endsFirst : ∀ split, sched.rescheduled fuel series rest = some split →
    series.shiftSeries.seriesOver = true →
      series.shiftSeries.series.startTime.instant < split.startTime.instant ∧
      ∀ e ∈ rest, NotAfter series.shiftSeries.series e
  dropsNotDue : sched.rescheduled fuel series rest = none →
    series.hasException series.startTime = true →
      ∀ split t, series.shiftSeries.springForwardEvent = some split → split.Occurs t → now < t

/-- A series that is over stays in front when an occurrence in the skipped hour is put back. -/
theorem PeelsInOrder.add_eq (order : sched.PeelsInOrder now fuel series rest) {split : Event}
    (hrescheduled : sched.rescheduled fuel series rest = some split)
    (hover : series.shiftSeries.seriesOver = true) :
    EventList.add (series.shiftSeries.series :: rest) split =
      series.shiftSeries.series :: EventList.add rest split := by
  obtain ⟨hbefore, hfirst⟩ := order.endsFirst split hrescheduled hover
  refine List.insertionSort_cons_of_forall_rel NotAfter fun e he => ?_
  rcases List.mem_append.mp he with hrest | hsplit
  · exact hfirst e hrest
  · rw [List.mem_singleton.mp hsplit]
    exact notAfter_of_instant_lt hbefore

/-- What a check that peels in order leaves scheduled. -/
theorem PeelsInOrder.mem_iff (order : sched.PeelsInOrder now fuel series rest)
    (h : sched.peelOccurrence fuel series rest = some mid) (e : Event) :
    e ∈ mid.scheduledEvents ↔ e ∈ rest ∨
      (series.shiftSeries.seriesOver = false ∧ e = series.shiftSeries.series) ∨
      sched.rescheduled fuel series rest = some e := by
  rw [peelOccurrence_scheduledEvents h]
  unfold relisted
  cases hrescheduled : sched.rescheduled fuel series rest with
  | none =>
    cases hover : series.shiftSeries.seriesOver <;> simp [or_comm]
  | some split =>
    cases hover : series.shiftSeries.seriesOver with
    | false => simp [or_comm, or_left_comm, eq_comm]
    | true =>
      simp [order.add_eq hrescheduled hover, or_comm, eq_comm]

/-- Peeling in order keeps the scheduled events sorted. -/
theorem PeelsInOrder.sorted (order : sched.PeelsInOrder now fuel series rest)
    (hrest : rest.Pairwise NotAfter) (h : sched.peelOccurrence fuel series rest = some mid) :
    mid.Sorted := by
  rw [Sorted, peelOccurrence_scheduledEvents h]
  unfold relisted
  cases hrescheduled : sched.rescheduled fuel series rest with
  | none =>
    cases hover : series.shiftSeries.seriesOver with
    | false => exact List.pairwise_cons.mpr ⟨order.staysFirst hrescheduled hover, hrest⟩
    | true => exact hrest
  | some split =>
    have hadd := EventList.pairwise_add (series.shiftSeries.series :: rest) split
    cases series.shiftSeries.seriesOver with
    | false => exact hadd
    | true => exact hadd.tail

/-- The events that are left scheduled move forward where those before did. -/
theorem PeelsInOrder.forward (order : sched.PeelsInOrder now fuel series rest)
    (h : sched.peelOccurrence fuel series rest = some mid)
    (hforward : ∀ e ∈ series :: rest, e.MovesForward) :
    ∀ e ∈ mid.scheduledEvents, e.MovesForward := by
  intro e he
  have hseries := hforward series List.mem_cons_self
  rcases (order.mem_iff h e).mp he with hrest | ⟨-, rfl⟩ | hrescheduled
  · exact hforward e (List.mem_cons_of_mem _ hrest)
  · exact hseries.shift
  · obtain ⟨split, id, seriesId, duration, hsplit, rfl⟩ := rescheduled_eq hrescheduled
    exact (hseries.split hsplit).retagged id seriesId duration

/-- Every occurrence that a check peels is peeled in order, and an identifier is left for the
occurrence that is started. -/
def ChecksInOrder (now : ℤ) : ℕ → Schedule → Prop
  | 0, _ => True
  | fuel + 1, sched =>
    (sched.endFinished now).1.activeEvent = none →
      ∀ series rest, sched.scheduledEvents = series :: rest → series.readyToStart now = true →
        (sched.endFinished now).1.PeelsInOrder now fuel series rest ∧
        ∀ mid, (sched.endFinished now).1.peelOccurrence fuel series rest = some mid →
          if series.hasException series.startTime then ChecksInOrder now fuel mid
          else ∃ id, id ∉ mid.cache

/-! ## What a check in order does -/

/-- A check starts the earliest due occurrence of a list of events and removes only series
whose last occurrence it has peeled. -/
structure Activates (now : ℤ) (eList : EventList) (sched : Schedule) : Prop where
  /-- Where an occurrence is due, one that is no later is active. -/
  earliest : ∀ e ∈ eList, ∀ t, e.Occurs t → t ≤ now →
    ∃ active, sched.activeEvent = some active ∧ active.startTime.instant ≤ t
  /-- What is active is a due occurrence of an event of the list. -/
  due : ∀ active, sched.activeEvent = some active → ∃ e ∈ eList,
    e.Occurs active.startTime.instant ∧ active.startTime.instant ≤ now ∧
      active.mode = e.mode ∧ active.variableMap = e.variableMap
  /-- An event of the list is still scheduled, or its last occurrence is active or was an
  exception. -/
  kept : ∀ e ∈ eList, (∃ e' ∈ sched.scheduledEvents, e.Continues e') ∨
    ∃ e', e.Continues e' ∧ e'.shiftSeries.seriesOver = true ∧
      (e'.hasException e'.startTime = true ∨
        sched.activeEvent.map (·.startTime.instant) = some e'.startTime.instant)

/-- What an event of the peeled list becomes. -/
theorem PeelsInOrder.occurs {e : Event} (order : sched.PeelsInOrder now fuel series rest)
    (h : sched.peelOccurrence fuel series rest = some mid)
    (hexception : series.hasException series.startTime = true) (he : e ∈ series :: rest) {t : ℤ}
    (ht : e.Occurs t) (hdue : t ≤ now) : ∃ e' ∈ mid.scheduledEvents, e'.Occurs t := by
  rcases List.mem_cons.mp he with rfl | hrest
  · cases ht with
    | here hkept => exact absurd hkept (by simp [hexception])
    | @split _ split _ hsplit hoccurs =>
      cases hrescheduled : sched.rescheduled fuel e rest with
      | none =>
        have hlater := order.dropsNotDue hrescheduled hexception split t hsplit hoccurs
        omega
      | some tagged =>
        obtain ⟨split', id, seriesId, duration, hsplit', rfl⟩ := rescheduled_eq hrescheduled
        rw [hsplit] at hsplit'
        cases hsplit'
        exact ⟨_, (order.mem_iff h _).mpr (.inr (.inr hrescheduled)),
          Event.retagged_occurs split id seriesId duration hoccurs⟩
    | next hgoesOn hoccurs =>
      exact ⟨_, (order.mem_iff h _).mpr (.inr (.inl ⟨hgoesOn, rfl⟩)), hoccurs⟩
  · exact ⟨e, (order.mem_iff h e).mpr (.inl hrest), ht⟩

/-- What has become of an event of the peeled list. -/
theorem PeelsInOrder.source {e : Event} (order : sched.PeelsInOrder now fuel series rest)
    (h : sched.peelOccurrence fuel series rest = some mid) (he : e ∈ mid.scheduledEvents) {t : ℤ}
    (ht : e.Occurs t) :
    ∃ e' ∈ series :: rest, e'.Occurs t ∧ e'.mode = e.mode ∧ e'.variableMap = e.variableMap := by
  rcases (order.mem_iff h e).mp he with hrest | ⟨hgoesOn, rfl⟩ | hrescheduled
  · exact ⟨e, List.mem_cons_of_mem _ hrest, ht, rfl, rfl⟩
  · obtain ⟨_, _, heq⟩ := series.shiftSeries_series_eq
    exact ⟨series, List.mem_cons_self, .next hgoesOn ht, by rw [heq], by rw [heq]⟩
  · obtain ⟨split, id, seriesId, duration, hsplit, rfl⟩ := rescheduled_eq hrescheduled
    have hoccurs := (Event.occurs_retagged_iff split id seriesId duration).mp ht
    obtain ⟨_, _, rfl⟩ := Event.shiftSeries_springForwardEvent_eq hsplit
    exact ⟨series, List.mem_cons_self, .split hsplit hoccurs, rfl, rfl⟩

/-- A tagged event is the event under a new identifier. -/
theorem assignIdsToPeeledEvent_of_free (e : Event) {id : Id} (h : id ∉ sched.cache) :
    ∃ new, (sched.assignIdsToPeeledEvent e).2 = some (e.withId new) := by
  obtain ⟨new, src, hnew⟩ : ∃ new src, generateId sched.cache sched.randomSrc = (some new, src) :=
    generateId_isSome h
  exact ⟨new, by rw [assignIdsToPeeledEvent, hnew]⟩

/-- A check of sorted events that peels in order leaves them sorted, starts the earliest due
occurrence and removes only series that have ended. -/
theorem check_activates {sched' : Schedule} {changed : Bool} (hsorted : sched.Sorted)
    (hactive : (sched.endFinished now).1.activeEvent = none)
    (hforward : ∀ e ∈ sched.scheduledEvents, e.MovesForward) (horder : ChecksInOrder now fuel sched)
    (h : check now fuel sched = some (sched', changed)) :
    sched'.Sorted ∧ Activates now sched.scheduledEvents sched' := by
  induction fuel generalizing sched changed with
  | zero => cases h
  | succ fuel ih =>
    have hlist := endFinished_scheduledEvents sched now
    have hpeels := horder hactive
    rcases check_cases h with ⟨hrunning, -⟩ | ⟨-, ⟨rfl, hnotReady⟩ | ⟨series, rest, mid, hpeel⟩⟩
    · rw [hactive] at hrunning
      cases hrunning
    · refine ⟨?_, ?_, ?_, ?_⟩
      · rw [Sorted, hlist]
        exact hsorted
      · intro e he t ht hdue
        rw [hlist] at hnotReady
        cases hevents : sched.scheduledEvents with
        | nil => simp [hevents] at he
        | cons series rest =>
          have hlater : now < series.startTime.instant := by
            simpa [Event.readyToStart] using hnotReady series rest hevents
          have hfirst : series.startTime.instant ≤ e.startTime.instant := by
            rw [Sorted, hevents] at hsorted
            rw [hevents] at he
            rcases List.mem_cons.mp he with rfl | hrest
            · exact le_rfl
            · exact ((List.pairwise_cons.mp hsorted).1 e hrest).instant_le
          have hstart := ht.startTime_le (hforward e he)
          omega
      · intro active hsome
        rw [hactive] at hsome
        cases hsome
      · intro e he
        exact .inl ⟨e, by rwa [hlist], .refl e⟩
    · have hevents : sched.scheduledEvents = series :: rest := hlist.symm.trans hpeel.head
      obtain ⟨hinOrder, hnext⟩ := hpeels series rest hevents hpeel.ready
      have hmid := hnext mid hpeel.peel
      have hdue : series.startTime.instant ≤ now := by
        simpa [Event.readyToStart] using hpeel.ready
      rw [Sorted, hevents] at hsorted
      obtain ⟨hfirst, hrestSorted⟩ := List.pairwise_cons.mp hsorted
      have hmidSorted := hinOrder.sorted hrestSorted hpeel.peel
      rw [hevents] at hforward ⊢
      rcases hpeel.result with ⟨hexception, again, hcheck⟩ | ⟨hkept, rfl⟩
      · rw [Event.shiftSeries_hasException] at hexception
        rw [if_pos hexception] at hmid
        have hmidActive : (mid.endFinished now).1.activeEvent = none := by
          have hnone := (peelOccurrence_frame hpeel.peel).1.trans hactive
          rw [endFinished, hnone]
          exact hnone
        obtain ⟨hsorted', hactivates⟩ := ih hmidSorted hmidActive
          (hinOrder.forward hpeel.peel hforward) hmid hcheck
        refine ⟨hsorted', fun e he t ht hnow => ?_, fun active hsome => ?_, fun e he => ?_⟩
        · obtain ⟨e', he', ht'⟩ := hinOrder.occurs hpeel.peel hexception he ht hnow
          exact hactivates.earliest e' he' t ht' hnow
        · obtain ⟨e', he', ht', hnow, hmode, hvariables⟩ := hactivates.due active hsome
          obtain ⟨e, he, ht, hmode', hvariables'⟩ := hinOrder.source hpeel.peel he' ht'
          exact ⟨e, he, ht, hnow, hmode.trans hmode'.symm, hvariables.trans hvariables'.symm⟩
        · rcases List.mem_cons.mp he with rfl | hrest
          · cases hover : e.shiftSeries.seriesOver with
            | true => exact .inr ⟨e, .refl e, hover, .inl hexception⟩
            | false =>
              have hmem := (hinOrder.mem_iff hpeel.peel e.shiftSeries.series).mpr
                (.inr (.inl ⟨hover, rfl⟩))
              rcases hactivates.kept _ hmem with ⟨e', he', hcont⟩ | ⟨e', hcont, hended⟩
              · exact .inl ⟨e', he', .next hover hcont⟩
              · exact .inr ⟨e', .next hover hcont, hended⟩
          · exact hactivates.kept e ((hinOrder.mem_iff hpeel.peel e).mpr (.inl hrest))
      · rw [Event.shiftSeries_hasException] at hkept
        rw [hkept, if_neg (by simp)] at hmid
        obtain ⟨free, hfree⟩ := hmid
        obtain ⟨new, hnew⟩ := assignIdsToPeeledEvent_of_free series.oneOff hfree
        have hscheduled := assignIdsToPeeledEvent_scheduledEvents mid series.oneOff
        refine ⟨?_, fun e he t ht hnow => ?_, fun active hsome => ?_, fun e he => ?_⟩
        · rw [Sorted, hscheduled]
          exact hmidSorted
        · refine ⟨_, hnew, ?_⟩
          have hstart := ht.startTime_le (hforward e he)
          have hhead : series.startTime.instant ≤ e.startTime.instant := by
            rcases List.mem_cons.mp he with rfl | hrest
            · exact le_rfl
            · exact (hfirst e hrest).instant_le
          exact hhead.trans hstart
        · rw [hnew, Option.some.injEq] at hsome
          subst hsome
          exact ⟨series, List.mem_cons_self, .here hkept, hdue, rfl, rfl⟩
        · rcases List.mem_cons.mp he with rfl | hrest
          · cases hover : e.shiftSeries.seriesOver with
            | true => exact .inr ⟨e, .refl e, hover, .inr (by rw [hnew]; rfl)⟩
            | false =>
              have hmem := (hinOrder.mem_iff hpeel.peel e.shiftSeries.series).mpr
                (.inr (.inl ⟨hover, rfl⟩))
              exact .inl ⟨_, hscheduled ▸ hmem, .next hover (.refl _)⟩
          · have hmem := (hinOrder.mem_iff hpeel.peel e).mpr (.inl hrest)
            exact .inl ⟨e, hscheduled ▸ hmem, .refl e⟩

end Schedule

end HybridOs.Scheduler
