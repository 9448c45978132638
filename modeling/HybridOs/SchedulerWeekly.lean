import HybridOs.SchedulerOrder
import HybridOs.Successive

/-!
# The dates of a weekly series

A weekly series is meant to occur on the days of its mask in every so many weeks. The shift
scans the mask for the next day and adds the weeks to skip to every step, also to steps within
a week, so the dates are the intended ones only where no weeks are skipped or the mask has a
single day.
-/

namespace HybridOs.Scheduler

/-! ## Shifts where the clocks never change -/

/-- No duration reaches further. -/
theorem shiftedDays_le (n : ℤ) : shiftedDays n ≤ 106751 := by
  obtain ⟨k, hk, hrange⟩ := wrapInt64_eq ((24 * n + 1) * hour)
  rw [shiftedDays]
  simp only [day, hour, minute] at *
  omega

/-- Slightly more days turn a duration negative. -/
theorem shiftedDays_neg {n : ℤ} (hover : 106752 ≤ n) (hnear : n ≤ 200000) : shiftedDays n < 0 := by
  obtain ⟨k, hk, hrange⟩ := wrapInt64_eq ((24 * n + 1) * hour)
  rw [shiftedDays]
  simp only [day, hour, minute] at *
  have hwraps : k = -1 := by omega
  omega

namespace Event

/-- The event after a number of shifts. -/
def shifted : ℕ → Event → Event
  | 0, e => e
  | k + 1, e => shifted k e.shiftSeries.series

theorem shifted_succ (k : ℕ) (e : Event) : shifted (k + 1) e = (shifted k e).shiftSeries.series := by
  induction k generalizing e with
  | zero => rfl
  | succ k ih => exact ih e.shiftSeries.series

/-- The event at another start, with another count of occurrences left. -/
def movedTo (e : Event) (startTime : Time) (endCount : ℤ) : Event :=
  { e with startTime, repeatSettings := { e.repeatSettings with endCount } }

/-- Where the clocks never change shifts keep the time of day and the settings. -/
theorem shifted_of_fixed {e : Event} {offset : ℤ} (hfixed : e.startTime.loc.Fixed offset) (k : ℕ) :
    ∃ n endCount, shifted k e = e.movedTo (e.startTime.add (n * day)) endCount := by
  induction k with
  | zero =>
    refine ⟨0, e.repeatSettings.endCount, ?_⟩
    rw [Int.zero_mul, Time.add, Int.add_zero]
    rfl
  | succ k ih =>
    obtain ⟨n, endCount, heq⟩ := ih
    have hmoved : (shifted k e).startTime.loc.Fixed offset := by
      rw [heq]
      exact hfixed
    obtain ⟨-, endCount', hseries⟩ := shiftSeries_of_fixed hmoved
    refine ⟨n + (shifted k e).moves, endCount', ?_⟩
    rw [shifted_succ, hseries, heq]
    simp only [movedTo, Time.add, Int.add_mul, Int.add_assoc]

end Event

/-! ## Days of a mask -/

/-- The weekday of a date, counted from Sunday. -/
def weekdayOf (date : ℤ) : ℕ := ((date + 4) % 7).toNat

/-- The week of a date; weeks start on Sunday. -/
def weekOf (date : ℤ) : ℤ := (date + 4) / 7

theorem weekday_eq (t : Time) : t.weekday = weekdayOf t.date := rfl

/-- The weekday is in the mask. -/
def InMask (dayMask : UInt8) (weekday : ℕ) : Prop := weekdayEnumToMask weekday &&& dayMask ≠ 0

instance (dayMask : UInt8) (weekday : ℕ) : Decidable (InMask dayMask weekday) :=
  inferInstanceAs (Decidable (_ ≠ _))

/-- The date is on a day of the mask. -/
def OnMask (dayMask : UInt8) (date : ℤ) : Prop := InMask dayMask (weekdayOf date)

instance (dayMask : UInt8) (date : ℤ) : Decidable (OnMask dayMask date) :=
  inferInstanceAs (Decidable (InMask dayMask (weekdayOf date)))

theorem weekdayOf_lt (date : ℤ) : weekdayOf date < 7 := by
  unfold weekdayOf
  omega

theorem weekdayOf_add (date n : ℤ) (hn : 0 ≤ n) :
    weekdayOf (date + n) = (weekdayOf date + n.toNat) % 7 := by
  unfold weekdayOf
  omega

/-- The mask is the same every week. -/
theorem onMask_add_seven (dayMask : UInt8) (date weeks : ℤ) :
    OnMask dayMask (date + 7 * weeks) ↔ OnMask dayMask date := by
  have hsame : weekdayOf (date + 7 * weeks) = weekdayOf date := by
    unfold weekdayOf
    omega
  rw [OnMask, OnMask, hsame]

/-- The next day of the mask after a date is some days away. -/
structure NextMaskDay (dayMask : UInt8) (date days : ℤ) : Prop where
  pos : 1 ≤ days
  le_week : days ≤ 7
  onMask : OnMask dayMask (date + days)
  least : ∀ k, 0 < k → k < days → ¬ OnMask dayMask (date + k)

/-- The days that the scan of the mask counts. -/
def scannedDays (dayMask : UInt8) (weekday : ℕ) : UInt64 :=
  let thisWeek := daysThisWeek dayMask 8 (weekdayEnumToMask weekday) 0
  if thisWeek.1 = 0 then daysNextWeek dayMask (weekdayEnumToMask weekday) 8 sunday thisWeek.2
  else thisWeek.2

/-- What the scan of the mask finds, for every mask and weekday. -/
theorem scannedDays_finds : ∀ (dayMask : Fin 256) (weekday : Fin 7),
    InMask (UInt8.ofNat dayMask) weekday →
    ∃ days : Fin 8, 1 ≤ days.val ∧
      scannedDays (UInt8.ofNat dayMask) weekday = UInt64.ofNat days ∧
      InMask (UInt8.ofNat dayMask) ((weekday + days.val) % 7) ∧
      ∀ k : Fin 8, 0 < k.val → k < days →
        ¬ InMask (UInt8.ofNat dayMask) ((weekday.val + k.val) % 7) := by
  intro dayMask weekday
  revert dayMask
  fin_cases weekday <;> decide +kernel

/-- The days until the next occurrence of a weekly series: to the next day of the mask, and the
weeks that are skipped. -/
theorem daysUntilNextOccurrence_of_weekly {e : Event} (hweekly : e.repeatSettings.cycle = .weekly)
    (hmask : OnMask e.repeatSettings.dayMask e.startTime.date) :
    ∃ days : ℕ, NextMaskDay e.repeatSettings.dayMask e.startTime.date days ∧
      e.daysUntilNextOccurrence = UInt64.ofNat days + (e.repeatSettings.frequency - 1) * 7 := by
  obtain ⟨days, hpos, hscan, hin, hleast⟩ :=
    scannedDays_finds ⟨e.repeatSettings.dayMask.toNat, e.repeatSettings.dayMask.toNat_lt⟩
      ⟨weekdayOf e.startTime.date, weekdayOf_lt _⟩ (by rw [UInt8.ofNat_toNat]; exact hmask)
  have hmaskNat : UInt8.ofNat e.repeatSettings.dayMask.toNat = e.repeatSettings.dayMask := by simp
  dsimp only at hscan hin hleast
  rw [hmaskNat] at hscan hin hleast
  refine ⟨days, ⟨by exact_mod_cast hpos, by omega, ?_, ?_⟩, ?_⟩
  · rw [OnMask, weekdayOf_add _ _ (by omega)]
    simpa using hin
  · intro k hkpos hklt
    have hklt' : k.toNat < 8 := by omega
    have hnot := hleast ⟨k.toNat, hklt'⟩ (by change 0 < k.toNat; omega)
      (by change k.toNat < days.val; omega)
    rw [OnMask, weekdayOf_add _ _ (by omega)]
    exact hnot
  · have hnonzero : ¬ e.repeatSettings.dayMask = 0 := by
      intro hzero
      rw [OnMask, InMask, hzero] at hmask
      simp at hmask
    rw [Event.daysUntilNextOccurrence, Series.calculateDaysUntilNextOccurrence, hweekly]
    rw [if_neg hnonzero, weekday_eq]
    exact congrArg (· + (e.repeatSettings.frequency - 1) * 7) hscan

/-- The days of a step, with the weeks that are skipped. -/
theorem toInt_daysAndWeeks {frequency : UInt64} {days : ℕ} (hdays : days ≤ 7)
    (hpos : 0 < frequency.toNat) (hfits : frequency.toNat ≤ 20000) :
    (UInt64.ofNat days + (frequency - 1) * 7).toInt64.toInt =
      days + 7 * ((frequency.toNat : ℤ) - 1) := by
  have hone : (1 : UInt64) ≤ frequency := UInt64.le_iff_toNat_le.mpr hpos
  have hnat : (UInt64.ofNat days + (frequency - 1) * 7).toNat =
      days + 7 * (frequency.toNat - 1) := by
    have hseven : UInt64.toNat 7 = 7 := rfl
    have hfirst : UInt64.toNat 1 = 1 := rfl
    have hcount : (UInt64.ofNat days).toNat = days := by
      rw [UInt64.toNat_ofNat']
      omega
    rw [UInt64.toNat_add, UInt64.toNat_mul, UInt64.toNat_sub_of_le _ _ hone, hseven, hfirst, hcount]
    omega
  rw [toInt_of_toNat_lt (by omega), hnat]
  omega

namespace Event

/-- A shift of a weekly series on a day of its mask. -/
theorem moves_of_weekly {e : Event} (hweekly : e.repeatSettings.cycle = .weekly)
    (hmask : OnMask e.repeatSettings.dayMask e.startTime.date)
    (hpos : 0 < e.repeatSettings.frequency.toNat)
    (hfits : e.repeatSettings.frequency.toNat ≤ 20000) :
    ∃ days, NextMaskDay e.repeatSettings.dayMask e.startTime.date days ∧
      e.moves = shiftedDays (days + 7 * ((e.repeatSettings.frequency.toNat : ℤ) - 1)) := by
  obtain ⟨days, hnext, hdays⟩ := daysUntilNextOccurrence_of_weekly hweekly hmask
  refine ⟨days, hnext, ?_⟩
  have hle := hnext.le_week
  rw [moves, hdays, toInt_daysAndWeeks (by omega) hpos hfits]

/-- The dates a weekly series is meant for: the days of its mask in every so many weeks. -/
def intendedDates (e : Event) : Set ℤ :=
  {date | e.startTime.date ≤ date ∧ OnMask e.repeatSettings.dayMask date ∧
    (e.repeatSettings.frequency.toNat : ℤ) ∣ weekOf date - weekOf e.startTime.date}

/-- The dates of the event after each number of shifts. -/
def shiftedDates (e : Event) (k : ℕ) : ℤ := (shifted k e).startTime.date

/-- All days of the mask fall on the weekday of the start. -/
def SingleDay (e : Event) : Prop :=
  ∀ date, OnMask e.repeatSettings.dayMask date → 7 ∣ date - e.startTime.date

/-- A weekly series as validation leaves it, in a zone whose clocks never change, that starts on
a day of its mask. -/
structure PlainWeekly (offset : ℤ) (e : Event) : Prop where
  fixed : e.startTime.loc.Fixed offset
  weekly : e.repeatSettings.cycle = .weekly
  onMask : OnMask e.repeatSettings.dayMask e.startTime.date
  masked : e.repeatSettings.dayMask &&& everyDayMask = e.repeatSettings.dayMask
  frequency_pos : 0 < e.repeatSettings.frequency.toNat

/-- The days to the next day of a mask with a single day are a week. -/
theorem days_of_single {e : Event} (hsingle : e.SingleDay) {date days : ℤ}
    (hdate : OnMask e.repeatSettings.dayMask date)
    (hnext : NextMaskDay e.repeatSettings.dayMask date days) : days = 7 := by
  have hhere := hsingle date hdate
  have hthere := hsingle (date + days) hnext.onMask
  have hpos := hnext.pos
  have hle := hnext.le_week
  omega

/-- Where no weeks are skipped, the next day of the mask is the next intended date. -/
theorem next_of_everyWeek {e : Event}
    (hevery : e.repeatSettings.frequency.toNat = 1) {date days : ℤ} (hdate : date ∈ e.intendedDates)
    (hnext : NextMaskDay e.repeatSettings.dayMask date days) :
    date + days ∈ e.intendedDates ∧ ∀ y ∈ e.intendedDates, date < y → date + days ≤ y := by
  have hpos := hnext.pos
  constructor
  · refine ⟨?_, hnext.onMask, ?_⟩
    · have hle : e.startTime.date ≤ date := hdate.1
      omega
    · rw [hevery]
      simp
  · intro y hy hlt
    by_contra hbefore
    have hnot := hnext.least (y - date) (by omega) (by omega)
    rw [add_sub_cancel] at hnot
    exact hnot hy.2.1

section Weekly

variable {e : Event} {offset : ℤ} (h : e.PlainWeekly offset)
include h

theorem PlainWeekly.start_mem : e.startTime.date ∈ e.intendedDates :=
  ⟨le_rfl, h.onMask, by simp⟩

/-- Each shift moves the date by the days of that shift, and keeps the time of day. -/
theorem PlainWeekly.shiftedDates_succ (k : ℕ) :
    e.shiftedDates (k + 1) = e.shiftedDates k + (shifted k e).moves ∧
      (shifted k e).startTime.clock = e.startTime.clock := by
  obtain ⟨n, endCount, heq⟩ := shifted_of_fixed h.fixed k
  have hmoved : (shifted k e).startTime.loc.Fixed offset := by
    rw [heq]
    exact h.fixed
  obtain ⟨-, endCount', hseries⟩ := shiftSeries_of_fixed hmoved
  constructor
  · rw [shiftedDates, shifted_succ, hseries]
    exact hmoved.date_add _
  · rw [heq]
    exact h.fixed.clock_add n

/-- A shift from a day of the mask. -/
theorem PlainWeekly.moves {k : ℕ} (hmask : OnMask e.repeatSettings.dayMask (e.shiftedDates k))
    (hfits : e.repeatSettings.frequency.toNat ≤ 20000) :
    ∃ days, NextMaskDay e.repeatSettings.dayMask (e.shiftedDates k) days ∧
      (shifted k e).moves =
        shiftedDays (days + 7 * ((e.repeatSettings.frequency.toNat : ℤ) - 1)) := by
  obtain ⟨n, endCount, heq⟩ := shifted_of_fixed h.fixed k
  unfold shiftedDates at hmask ⊢
  rw [heq] at hmask ⊢
  have hweekly : (e.movedTo (e.startTime.add (n * day)) endCount).repeatSettings.cycle = .weekly :=
    h.weekly
  exact moves_of_weekly hweekly hmask h.frequency_pos hfits

/-- Where the mask has a single day, so many weeks later is the next intended date. -/
theorem PlainWeekly.next_of_single (hsingle : e.SingleDay) {date : ℤ}
    (hdate : date ∈ e.intendedDates) :
    date + 7 * e.repeatSettings.frequency.toNat ∈ e.intendedDates ∧
      ∀ y ∈ e.intendedDates, date < y → date + 7 * e.repeatSettings.frequency.toNat ≤ y := by
  obtain ⟨hle, hmask, hweeks⟩ := hdate
  have hpos := h.frequency_pos
  have hhere := hsingle date hmask
  constructor
  · refine ⟨by omega, (onMask_add_seven _ _ _).mpr hmask, ?_⟩
    have hweek : weekOf (date + 7 * e.repeatSettings.frequency.toNat) =
        weekOf date + e.repeatSettings.frequency.toNat := by
      unfold weekOf
      omega
    rw [hweek, add_sub_right_comm]
    exact dvd_add hweeks (dvd_refl _)
  · intro y hy hlt
    have hthere := hsingle y hy.2.1
    have hbetween : (e.repeatSettings.frequency.toNat : ℤ) ∣ weekOf y - weekOf date := by
      have hsub := dvd_sub hy.2.2 hweeks
      rwa [sub_sub_sub_cancel_right] at hsub
    have hlater : 0 < weekOf y - weekOf date := by
      unfold weekOf
      omega
    have hfar := Int.le_of_dvd hlater hbetween
    unfold weekOf at hfar
    omega

/-- The series keeps to its weeks: none are skipped, or the mask has a single day and the weeks
fit into a duration. -/
def KeepsWeeks (e : Event) : Prop :=
  e.repeatSettings.frequency.toNat = 1 ∨
    e.SingleDay ∧ e.repeatSettings.frequency.toNat ≤ 15250

/-- A shift of such a series from an intended date leads to the next one. -/
theorem PlainWeekly.next_of_keepsWeeks (hkeeps : e.KeepsWeeks) {k : ℕ}
    (hmem : e.shiftedDates k ∈ e.intendedDates) :
    e.shiftedDates (k + 1) ∈ e.intendedDates ∧ e.shiftedDates k < e.shiftedDates (k + 1) ∧
      ∀ y ∈ e.intendedDates, e.shiftedDates k < y → e.shiftedDates (k + 1) ≤ y := by
  have hpos := h.frequency_pos
  rw [(h.shiftedDates_succ k).1]
  rcases hkeeps with hevery | ⟨hsingle, hfits⟩
  · obtain ⟨days, hnext, hmoves⟩ := h.moves hmem.2.1 (by omega)
    have hdaysPos := hnext.pos
    have hdaysLe := hnext.le_week
    have hmoved : (shifted k e).moves = days := by
      rw [hmoves, hevery, shiftedDays_of_fits (by push_cast; omega) (by push_cast; omega)]
      omega
    obtain ⟨hin, hleast⟩ := next_of_everyWeek hevery hmem hnext
    rw [hmoved]
    exact ⟨hin, by omega, hleast⟩
  · obtain ⟨days, hnext, hmoves⟩ := h.moves hmem.2.1 (by omega)
    have hseven := days_of_single hsingle hmem.2.1 hnext
    have hmoved : (shifted k e).moves = 7 * e.repeatSettings.frequency.toNat := by
      rw [hmoves, hseven, shiftedDays_of_fits (by omega) (by omega)]
      omega
    obtain ⟨hin, hleast⟩ := h.next_of_single hsingle hmem
    rw [hmoved]
    exact ⟨hin, by omega, hleast⟩

/-- The shifts of such a series list the intended dates. -/
theorem PlainWeekly.lists_of_keepsWeeks (hkeeps : e.KeepsWeeks) :
    Successive.Lists e.intendedDates e.shiftedDates := by
  have hmem : ∀ k, e.shiftedDates k ∈ e.intendedDates := by
    intro k
    induction k with
    | zero => exact h.start_mem
    | succ k ih => exact (h.next_of_keepsWeeks hkeeps ih).1
  apply Successive.lists_of_next hmem
  · exact fun date hdate => hdate.1
  · exact fun k => (h.next_of_keepsWeeks hkeeps (hmem k)).2.1
  · exact fun k => (h.next_of_keepsWeeks hkeeps (hmem k)).2.2

/-! ### A series that skips weeks within a week -/

/-- The days of the mask in the week of the start. -/
def FirstWeek (e : Event) (date : ℤ) : Prop :=
  OnMask e.repeatSettings.dayMask date ∧ weekOf date = weekOf e.startTime.date

omit h in
/-- A day of the mask, moved into the week of the start. -/
theorem firstWeek_of_onMask {date : ℤ} (hmask : OnMask e.repeatSettings.dayMask date) :
    e.FirstWeek (date + 7 * (weekOf e.startTime.date - weekOf date)) := by
  refine ⟨(onMask_add_seven _ _ _).mpr hmask, ?_⟩
  unfold weekOf
  omega

/-- The first and the last day of the mask in the week of the start. -/
theorem PlainWeekly.exists_firstWeek_bounds : ∃ first last, e.FirstWeek first ∧ e.FirstWeek last ∧
    (∀ date, e.FirstWeek date → first ≤ date ∧ date ≤ last) := by
  have hstart : e.FirstWeek e.startTime.date := ⟨h.onMask, rfl⟩
  have hnear : ∀ date, e.FirstWeek date →
      e.startTime.date - 6 ≤ date ∧ date ≤ e.startTime.date + 6 := by
    intro date hdate
    have hweek := hdate.2
    unfold weekOf at hweek
    omega
  obtain ⟨first, hfirst, hleast⟩ := Int.exists_least_of_bdd
    ⟨e.startTime.date - 6, fun date hdate => (hnear date hdate).1⟩ ⟨_, hstart⟩
  obtain ⟨last, hlast, hgreatest⟩ := Int.exists_greatest_of_bdd
    ⟨e.startTime.date + 6, fun date hdate => (hnear date hdate).2⟩ ⟨_, hstart⟩
  exact ⟨first, last, hfirst, hlast, fun date hdate => ⟨hleast date hdate, hgreatest date hdate⟩⟩

/-- Days of the first week from some date on lie in the series' next week as many weeks later. -/
theorem PlainWeekly.nextWeek_mem {date : ℤ} (hdate : e.FirstWeek date) :
    date + 7 * e.repeatSettings.frequency.toNat ∈ e.intendedDates := by
  obtain ⟨hmask, hweek⟩ := hdate
  have hpos := h.frequency_pos
  refine ⟨?_, (onMask_add_seven _ _ _).mpr hmask, ?_⟩
  · unfold weekOf at hweek
    omega
  · have hlater : weekOf (date + 7 * e.repeatSettings.frequency.toNat) -
        weekOf e.startTime.date = e.repeatSettings.frequency.toNat := by
      unfold weekOf at hweek ⊢
      omega
    rw [hlater]

omit h in
/-- After the last day of the first week comes the first day of the next one. -/
theorem nextWeek_least {first last : ℤ}
    (hbounds : ∀ date, e.FirstWeek date → first ≤ date ∧ date ≤ last) {y : ℤ}
    (hy : y ∈ e.intendedDates) (hlt : last < y) :
    first + 7 * e.repeatSettings.frequency.toNat ≤ y := by
  obtain ⟨hle, hmask, hweeks⟩ := hy
  have hfirst := hbounds _ (firstWeek_of_onMask hmask)
  have hlater : 0 < weekOf y - weekOf e.startTime.date := by
    by_contra hsame
    omega
  have hfar := Int.le_of_dvd hlater hweeks
  omega

/-- A series whose shifts list the intended dates keeps to its weeks. -/
theorem PlainWeekly.keepsWeeks_of_lists
    (hlists : Successive.Lists e.intendedDates e.shiftedDates) : e.KeepsWeeks := by
  obtain ⟨first, last, hfirst, hlast, hbounds⟩ := h.exists_firstWeek_bounds
  have hpos := h.frequency_pos
  have hstart := hbounds e.startTime.date ⟨h.onMask, rfl⟩
  have hfirstWeek := hfirst.2
  have hlastWeek := hlast.2
  -- the step from the last day of the first week to the next week bounds the frequency
  have hlastMem : last ∈ e.intendedDates := by
    refine ⟨hstart.2, hlast.1, ?_⟩
    rw [hlastWeek, sub_self]
    exact dvd_zero _
  obtain ⟨k, hk⟩ := (hlists.mem_iff last).mp hlastMem
  have hjump : e.shiftedDates (k + 1) = first + 7 * e.repeatSettings.frequency.toNat := by
    apply hlists.next_eq (h.nextWeek_mem hfirst)
    · rw [hk]
      unfold weekOf at hfirstWeek hlastWeek
      omega
    · intro y hy hlt
      rw [hk] at hlt
      exact nextWeek_least hbounds hy hlt
  have hreach : (shifted k e).moves ≤ 106751 := shiftedDays_le _
  rw [(h.shiftedDates_succ k).1, hk] at hjump
  by_cases hevery : e.repeatSettings.frequency.toNat = 1
  · exact Or.inl hevery
  · by_cases hsingle : e.SingleDay
    · have hfirstDay := hsingle first hfirst.1
      have hlastDay := hsingle last hlast.1
      refine Or.inr ⟨hsingle, ?_⟩
      unfold weekOf at hfirstWeek hlastWeek
      omega
    · -- the step to the second day of the next week skips weeks that it should not
      exfalso
      unfold SingleDay at hsingle
      push Not at hsingle
      obtain ⟨date, hdate, hother⟩ := hsingle
      have hmoved := hbounds _ (firstWeek_of_onMask hdate)
      obtain ⟨j, hj⟩ := (hlists.mem_iff _).mp (h.nextWeek_mem hfirst)
      have hmask : OnMask e.repeatSettings.dayMask (e.shiftedDates j) := by
        rw [hj]
        exact (onMask_add_seven _ _ _).mpr hfirst.1
      have hfits : e.repeatSettings.frequency.toNat ≤ 15251 := by
        unfold weekOf at hfirstWeek hlastWeek
        omega
      obtain ⟨days, hnext, hmoves⟩ := h.moves hmask (by omega)
      have hdaysPos := hnext.pos
      have hwithin : days ≤ last - first := by
        by_contra hbeyond
        apply hnext.least (last - first) (by omega) (by omega)
        have hsame : e.shiftedDates j + (last - first) =
            last + 7 * e.repeatSettings.frequency.toNat := by
          rw [hj]
          ring
        rw [hsame]
        exact (onMask_add_seven _ _ _).mpr hlast.1
      have hsecond : first + days + 7 * e.repeatSettings.frequency.toNat ∈ e.intendedDates := by
        apply h.nextWeek_mem
        constructor
        · have hon := hnext.onMask
          rw [hj, add_right_comm] at hon
          exact (onMask_add_seven _ _ _).mp hon
        · unfold weekOf at hfirstWeek hlastWeek ⊢
          omega
      have hstep := hlists.next_le hsecond (by rw [hj]; omega)
      have hincreases := hlists.increases j
      rw [(h.shiftedDates_succ j).1] at hstep hincreases
      unfold weekOf at hfirstWeek hlastWeek
      by_cases hover : days + 7 * ((e.repeatSettings.frequency.toNat : ℤ) - 1) ≤ 106751
      · rw [hmoves, shiftedDays_of_fits (by omega) hover] at hstep
        omega
      · have hneg := shiftedDays_neg (n := days + 7 * ((e.repeatSettings.frequency.toNat : ℤ) - 1))
          (by omega) (by omega)
        omega

end Weekly

/-! ## The daily series of a weekly one -/

/-- Clearing the bit of a weekday leaves those of the other weekdays. -/
theorem bit_cleared : ∀ weekday other : Fin 7,
    weekdayEnumToMask other &&& ~~~(weekdayEnumToMask weekday) =
      if other = weekday then 0 else weekdayEnumToMask other := by
  decide +kernel

/-- Clearing the bit of a weekday takes it out of the mask. -/
theorem inMask_cleared (dayMask : UInt8) (weekday other : Fin 7) :
    InMask (dayMask &&& ~~~(weekdayEnumToMask weekday)) other ↔
      InMask dayMask other ∧ other ≠ weekday := by
  rw [InMask, InMask, UInt8.and_comm dayMask, ← UInt8.and_assoc, bit_cleared]
  split_ifs with hsame
  · simp [hsame]
  · simp [hsame]

/-- A mask without a day is zero. -/
theorem mask_eq_zero : ∀ dayMask : Fin 256,
    UInt8.ofNat dayMask &&& everyDayMask = UInt8.ofNat dayMask →
    (∀ weekday : Fin 7, ¬ InMask (UInt8.ofNat dayMask) weekday) → UInt8.ofNat dayMask = 0 := by
  decide +kernel

variable {dayMask : UInt8}

theorem onMask_cleared (hmasked : dayMask &&& everyDayMask = dayMask) (date other : ℤ) :
    (OnMask (dayMask &&& ~~~(weekdayEnumToMask (weekdayOf date))) other ↔
      OnMask dayMask other ∧ weekdayOf other ≠ weekdayOf date) ∧
    dayMask &&& ~~~(weekdayEnumToMask (weekdayOf date)) &&& everyDayMask =
      dayMask &&& ~~~(weekdayEnumToMask (weekdayOf date)) := by
  have hcleared := inMask_cleared dayMask ⟨weekdayOf date, weekdayOf_lt _⟩
    ⟨weekdayOf other, weekdayOf_lt _⟩
  constructor
  · rw [OnMask, OnMask]
    simpa using hcleared
  · rw [UInt8.and_assoc, UInt8.and_comm (~~~_), ← UInt8.and_assoc, hmasked]

theorem exists_onMask (hmasked : dayMask &&& everyDayMask = dayMask) (hnonzero : dayMask ≠ 0)
    (date : ℤ) : ∃ o, 0 ≤ o ∧ o < 7 ∧ OnMask dayMask (date + o) := by
  by_contra hnone
  push Not at hnone
  apply hnonzero
  have hzero := mask_eq_zero ⟨dayMask.toNat, dayMask.toNat_lt⟩
  have hnat : UInt8.ofNat dayMask.toNat = dayMask := UInt8.ofNat_toNat
  rw [hnat] at hzero
  refine hzero hmasked fun weekday hin => ?_
  apply hnone (((weekday.val : ℤ) - weekdayOf date) % 7) (by omega) (by omega)
  rw [OnMask, weekdayOf_add _ _ (by omega)]
  have hsame : (weekdayOf date + (((weekday.val : ℤ) - weekdayOf date) % 7).toNat) % 7 =
      weekday.val := by omega
  rw [hsame]
  exact hin

/-- Where the clocks never change a daily series occurs every so many days. -/
theorem shiftedDates_of_daily {e : Event} {offset : ℤ} (hfixed : e.startTime.loc.Fixed offset)
    (hdaily : e.repeatSettings.cycle = .daily)
    (hfits : e.repeatSettings.frequency.toNat ≤ 106751) (k : ℕ) :
    e.shiftedDates k = e.startTime.date + e.repeatSettings.frequency.toNat * k := by
  induction k with
  | zero => simp [shiftedDates, shifted]
  | succ k ih =>
    obtain ⟨n, endCount, heq⟩ := shifted_of_fixed hfixed k
    have hmoved : (shifted k e).startTime.loc.Fixed offset := by
      rw [heq]
      exact hfixed
    obtain ⟨-, endCount', hseries⟩ := shiftSeries_of_fixed hmoved
    have hmoves : (shifted k e).moves = e.repeatSettings.frequency.toNat := by
      rw [heq]
      exact moves_of_daily hdaily hfits
    have hdate : e.shiftedDates (k + 1) = e.shiftedDates k + (shifted k e).moves := by
      rw [shiftedDates, shifted_succ, hseries]
      exact hmoved.date_add _
    rw [hdate, ih, hmoves]
    push_cast
    ring

/-- The daily series that a weekly series is split into from some day of its first seven on. -/
structure SplitFrom (e : Event) (o : ℤ) (days : List Event) : Prop where
  dates : ∀ x, (∃ daySplit ∈ days, daySplit.startTime.date = x) ↔
    ∃ o', o ≤ o' ∧ o' < 7 ∧ OnMask e.repeatSettings.dayMask (e.startTime.date + o') ∧
      x = e.startTime.date + o'
  settings : ∀ daySplit ∈ days, daySplit.repeatSettings.cycle = .daily ∧
    daySplit.repeatSettings.frequency = e.repeatSettings.frequency * 7 ∧
    daySplit.startTime.loc = e.startTime.loc

/-- A daily series on a day of the mask, before those on the days after it. -/
theorem SplitFrom.cons {e daySplit : Event} {o next : ℤ} {days : List Event}
    (hrest : e.SplitFrom next days) (hlater : o < next) (hhigh : o < 7)
    (hon : OnMask e.repeatSettings.dayMask (e.startTime.date + o))
    (hafter : ∀ o', o' < 7 → OnMask e.repeatSettings.dayMask (e.startTime.date + o') →
      o < o' → next ≤ o') (hdate : daySplit.startTime.date = e.startTime.date + o)
    (hdaily : daySplit.repeatSettings.cycle = .daily)
    (hfrequency : daySplit.repeatSettings.frequency = e.repeatSettings.frequency * 7)
    (hloc : daySplit.startTime.loc = e.startTime.loc) : e.SplitFrom o (daySplit :: days) := by
  constructor
  · intro x
    constructor
    · rintro ⟨split, hmem, rfl⟩
      rcases List.mem_cons.mp hmem with heq | hmem
      · rw [heq]
        exact ⟨o, le_rfl, hhigh, hon, hdate⟩
      · obtain ⟨o', hle, hlt, hday, hx⟩ := (hrest.dates _).mp ⟨split, hmem, rfl⟩
        exact ⟨o', by omega, hlt, hday, hx⟩
    · rintro ⟨o', hle, hlt, hday, rfl⟩
      by_cases hsame : o' = o
      · rw [hsame]
        exact ⟨_, List.mem_cons_self .., hdate⟩
      · obtain ⟨split, hmem, hx⟩ := (hrest.dates _).mpr
          ⟨o', hafter o' hlt hday (by omega), hlt, hday, rfl⟩
        exact ⟨split, List.mem_cons_of_mem _ hmem, hx⟩
  · intro split hmem
    rcases List.mem_cons.mp hmem with heq | hmem
    · rw [heq]
      exact ⟨hdaily, hfrequency, hloc⟩
    · exact hrest.settings split hmem

/-- No days are left from the end of the seven on. -/
theorem SplitFrom.nil (e : Event) : e.SplitFrom 7 [] := by
  constructor
  · intro x
    constructor
    · rintro ⟨split, hmem, -⟩
      cases hmem
    · rintro ⟨o', hle, hlt, -⟩
      omega
  · intro split hmem
    cases hmem

/-- The days that are left of a mask are those of the series from some day of its first seven
on. -/
def Left (e : Event) (o : ℤ) (dayMask : UInt8) : Prop :=
  ∀ o', 0 ≤ o' → o' < 7 → (OnMask dayMask (e.startTime.date + o') ↔
    OnMask e.repeatSettings.dayMask (e.startTime.date + o') ∧ o ≤ o')

/-- Clearing the day leaves the days after it. -/
theorem Left.cleared {e : Event} {o : ℤ} (hleft : e.Left o dayMask)
    (hmasked : dayMask &&& everyDayMask = dayMask) (hlow : 0 ≤ o) (hhigh : o ≤ 6) :
    e.Left (o + 1) (dayMask &&& ~~~(weekdayEnumToMask (weekdayOf (e.startTime.date + o)))) := by
  intro o' hlow' hhigh'
  rw [(onMask_cleared hmasked _ _).1, hleft o' hlow' hhigh']
  have hweekday : weekdayOf (e.startTime.date + o') ≠ weekdayOf (e.startTime.date + o) ↔
      o' ≠ o := by
    unfold weekdayOf
    omega
  rw [hweekday]
  constructor
  · rintro ⟨⟨hday, hle⟩, hne⟩
    exact ⟨hday, by omega⟩
  · rintro ⟨hday, hlt⟩
    exact ⟨⟨hday, by omega⟩, by omega⟩

section Split

variable {e : Event} {offset : ℤ} (h : e.PlainWeekly offset) (hkeeps : e.KeepsWeeks)
include h hkeeps

/-- From a day of the mask with another one in the seven days after it a shift leads to the first
of these. -/
theorem PlainWeekly.shift_movedTo {o n : ℤ} (endCount : ℤ)
    (hon : OnMask e.repeatSettings.dayMask (e.startTime.date + o))
    (hlater : OnMask e.repeatSettings.dayMask (e.startTime.date + n)) (hlt : o < n)
    (hnear : n < o + 7) :
    ∃ next endCount', (e.movedTo (e.startTime.add (o * day)) endCount).shiftSeries.series =
        e.movedTo (e.startTime.add (next * day)) endCount' ∧
      o < next ∧ next ≤ n ∧ OnMask e.repeatSettings.dayMask (e.startTime.date + next) ∧
      ∀ o', OnMask e.repeatSettings.dayMask (e.startTime.date + o') → o < o' → next ≤ o' := by
  have hdate : (e.movedTo (e.startTime.add (o * day)) endCount).startTime.date =
      e.startTime.date + o := h.fixed.date_add o
  have hevery : e.repeatSettings.frequency.toNat = 1 := by
    rcases hkeeps with hevery | ⟨hsingle, -⟩
    · exact hevery
    · have hfirst := hsingle _ hlater
      have hsecond := hsingle _ hon
      omega
  have hweekly : (e.movedTo (e.startTime.add (o * day)) endCount).repeatSettings.cycle =
      .weekly := h.weekly
  have hmaskHere : OnMask (e.movedTo (e.startTime.add (o * day))
      endCount).repeatSettings.dayMask
      (e.movedTo (e.startTime.add (o * day)) endCount).startTime.date := by
    rw [hdate]
    exact hon
  obtain ⟨days, hnext, hmoves⟩ := moves_of_weekly hweekly hmaskHere h.frequency_pos
    (le_of_eq_of_le hevery (by omega))
  rw [hdate] at hnext
  have hdaysPos := hnext.pos
  have hdaysLe := hnext.le_week
  have hmoved : (e.movedTo (e.startTime.add (o * day)) endCount).moves = days := by
    have hfrequency : (e.movedTo (e.startTime.add (o * day))
        endCount).repeatSettings.frequency.toNat = 1 := hevery
    rw [hmoves, hfrequency, shiftedDays_of_fits (by push_cast; omega) (by push_cast; omega)]
    omega
  have hfixedHere : (e.movedTo (e.startTime.add (o * day)) endCount).startTime.loc.Fixed
      offset := h.fixed
  have hafter : ∀ o', OnMask e.repeatSettings.dayMask (e.startTime.date + o') → o < o' →
      o + days ≤ o' := by
    intro o' hday hlt'
    by_contra hbetween
    apply hnext.least (o' - o) (by omega) (by omega)
    have hsame : e.startTime.date + o + (o' - o) = e.startTime.date + o' := by ring
    rw [hsame]
    exact hday
  obtain ⟨-, endCount', hseries⟩ := shiftSeries_of_fixed hfixedHere
  refine ⟨o + days, endCount', ?_, by omega, hafter n hlater hlt, ?_, hafter⟩
  · rw [hseries, hmoved]
    simp only [movedTo, Time.add, Int.add_mul, Int.add_assoc]
  · rw [← Int.add_assoc]
    exact hnext.onMask

/-- What the split of a weekly series gives from some day of its first seven on. -/
theorem splitDays_spec (fuel : ℕ) {o : ℤ} (endCount : ℤ) (hlow : 0 ≤ o) (hhigh : o ≤ 6)
    (henough : 8 ≤ fuel + o) (hon : OnMask e.repeatSettings.dayMask (e.startTime.date + o))
    (hmasked : dayMask &&& everyDayMask = dayMask) (hleft : e.Left o dayMask) :
    ∃ days, splitDays fuel dayMask (e.movedTo (e.startTime.add (o * day)) endCount) = some days ∧
      e.SplitFrom o days := by
  induction fuel generalizing o dayMask endCount with
  | zero => omega
  | succ fuel ih =>
    have hdate : (e.movedTo (e.startTime.add (o * day)) endCount).startTime.date =
        e.startTime.date + o := h.fixed.date_add o
    have hnonzero : ¬ dayMask = 0 := by
      intro hzero
      have hhere := (hleft o hlow (by omega)).mpr ⟨hon, le_rfl⟩
      rw [OnMask, InMask, hzero] at hhere
      simp at hhere
    obtain ⟨-, hmasked'⟩ := onMask_cleared hmasked (e.startTime.date + o) 0
    have hleft' := hleft.cleared hmasked hlow hhigh
    rw [splitDays, if_neg hnonzero, weekday_eq, hdate]
    dsimp only
    by_cases hrest : dayMask &&& ~~~(weekdayEnumToMask (weekdayOf (e.startTime.date + o))) = 0
    · -- the day was the last of the mask
      obtain ⟨later, hlater⟩ : ∃ later, fuel = later + 1 := ⟨fuel - 1, by omega⟩
      have hlast : ∀ o', o' < 7 → OnMask e.repeatSettings.dayMask (e.startTime.date + o') →
          o < o' → 7 ≤ o' := by
        intro o' hhigh' hday hbeyond
        have hmore := (hleft' o' (by omega) hhigh').mpr ⟨hday, by omega⟩
        rw [hrest, OnMask, InMask] at hmore
        simp at hmore
      rw [hrest, hlater, splitDays, if_pos rfl]
      exact ⟨_, rfl, (SplitFrom.nil e).cons (by omega) (by omega) hon hlast hdate rfl rfl rfl⟩
    · -- the next day of the mask follows within the first seven days
      obtain ⟨n, hnlow, hnhigh, hn⟩ := exists_onMask hmasked' hrest e.startTime.date
      obtain ⟨hnday, hnlater⟩ := (hleft' n hnlow hnhigh).mp hn
      obtain ⟨next, endCount', hshifted, hlt, hle, honNext, hafter⟩ :=
        h.shift_movedTo hkeeps endCount hon hnday (by omega) (by omega)
      obtain ⟨splits, hsplits, hspec⟩ := ih endCount' (by omega) (by omega)
        (by push_cast at henough ⊢; omega) honNext hmasked' (by
          intro o' hlow' hhigh'
          rw [hleft' o' hlow' hhigh']
          constructor
          · rintro ⟨hday, hbeyond⟩
            exact ⟨hday, hafter o' hday (by omega)⟩
          · rintro ⟨hday, hbeyond⟩
            exact ⟨hday, by omega⟩)
      rw [hshifted, hsplits]
      exact ⟨_, rfl, hspec.cons hlt (by omega) hon (fun o' _ => hafter o') hdate rfl rfl rfl⟩

/-- The intended dates are days of the first seven, so many weeks later. -/
theorem intended_iff (x : ℤ) : x ∈ e.intendedDates ↔ ∃ (o : ℤ) (k : ℕ), 0 ≤ o ∧ o < 7 ∧
    OnMask e.repeatSettings.dayMask (e.startTime.date + o) ∧
    x = e.startTime.date + o + 7 * e.repeatSettings.frequency.toNat * k := by
  have hpos := h.frequency_pos
  rcases hkeeps with hevery | ⟨hsingle, -⟩
  · rw [hevery]
    constructor
    · rintro ⟨hle, hday, -⟩
      have hmove : x = e.startTime.date + (x - e.startTime.date) % 7 +
          7 * ((x - e.startTime.date) / 7) := by omega
      rw [hmove, onMask_add_seven] at hday
      exact ⟨(x - e.startTime.date) % 7, ((x - e.startTime.date) / 7).toNat, by omega, by omega,
        hday, by push_cast; omega⟩
    · rintro ⟨o, k, hlow, hhigh, hday, rfl⟩
      refine ⟨by omega, (onMask_add_seven _ _ _).mpr hday, ?_⟩
      rw [hevery]
      simp
  · constructor
    · rintro ⟨hle, hday, c, hc⟩
      have hhere := hsingle x hday
      have hx : x = e.startTime.date + 7 * (weekOf x - weekOf e.startTime.date) := by
        unfold weekOf
        omega
      have hcpos : 0 ≤ c := by
        by_contra hneg
        have hweeks : e.repeatSettings.frequency.toNat * c < 0 :=
          mul_neg_of_pos_of_neg (by omega) (by omega)
        omega
      refine ⟨0, c.toNat, le_rfl, by omega, ?_, ?_⟩
      · rw [Int.add_zero]
        exact h.onMask
      · rw [Int.toNat_of_nonneg hcpos, Int.add_zero, mul_assoc, ← hc]
        exact hx
    · rintro ⟨o, k, hlow, hhigh, hday, rfl⟩
      have hzero := hsingle _ hday
      have ho : o = 0 := by omega
      have hweeks : e.startTime.date + o + 7 * e.repeatSettings.frequency.toNat * k =
          e.startTime.date + 7 * (e.repeatSettings.frequency.toNat * k) := by
        rw [ho]
        ring
      have hnonneg : (0 : ℤ) ≤ e.repeatSettings.frequency.toNat * k := by positivity
      rw [hweeks]
      refine ⟨by omega, (onMask_add_seven _ _ _).mpr h.onMask, k, ?_⟩
      unfold weekOf
      omega

/-- The weekly series is split into daily series that together have the intended dates. -/
theorem splitWeeklyByDays_dates : ∃ fuel days, splitWeeklyByDays fuel e = some days ∧
    (∀ daySplit ∈ days, daySplit.repeatSettings.cycle = .daily ∧
      daySplit.repeatSettings.frequency.toNat = 7 * e.repeatSettings.frequency.toNat) ∧
    ∀ x, x ∈ e.intendedDates ↔ ∃ daySplit ∈ days, ∃ k, daySplit.shiftedDates k = x := by
  have hstart : e.movedTo (e.startTime.add (0 * day)) e.repeatSettings.endCount = e := by
    rw [Int.zero_mul, Time.add, Int.add_zero]
    rfl
  have honStart : OnMask e.repeatSettings.dayMask (e.startTime.date + 0) := by
    rw [Int.add_zero]
    exact h.onMask
  obtain ⟨days, hsplit, ⟨hdates, hsettings⟩⟩ := splitDays_spec h hkeeps 8
    e.repeatSettings.endCount le_rfl (by omega) (by omega) honStart h.masked
    (fun o' hlow _ => ⟨fun hday => ⟨hday, hlow⟩, And.left⟩)
  rw [hstart] at hsplit
  have hfits : e.repeatSettings.frequency.toNat ≤ 15250 := by
    rcases hkeeps with hevery | ⟨-, hle⟩
    · omega
    · exact hle
  have hfrequency : (e.repeatSettings.frequency * 7).toNat =
      7 * e.repeatSettings.frequency.toNat := by
    have hseven : UInt64.toNat 7 = 7 := rfl
    rw [UInt64.toNat_mul, hseven]
    omega
  have hoccurs : ∀ daySplit ∈ days, ∀ k : ℕ, daySplit.shiftedDates k =
      daySplit.startTime.date + 7 * e.repeatSettings.frequency.toNat * k := by
    intro daySplit hmem k
    obtain ⟨hdaily, hseven, hloc⟩ := hsettings daySplit hmem
    have hfixed : daySplit.startTime.loc.Fixed offset := by
      rw [hloc]
      exact h.fixed
    rw [shiftedDates_of_daily hfixed hdaily (by rw [hseven, hfrequency]; omega), hseven, hfrequency]
    push_cast
    ring
  refine ⟨8, days, ?_, ?_, ?_⟩
  · rw [splitWeeklyByDays, if_neg (by rw [h.weekly]; simp)]
    exact hsplit
  · intro daySplit hmem
    obtain ⟨hdaily, hseven, -⟩ := hsettings daySplit hmem
    rw [hseven]
    exact ⟨hdaily, hfrequency⟩
  · intro x
    rw [intended_iff h hkeeps]
    constructor
    · rintro ⟨o, k, hlow, hhigh, hday, hx⟩
      obtain ⟨daySplit, hmem, hdate⟩ := (hdates _).mpr ⟨o, hlow, hhigh, hday, rfl⟩
      refine ⟨daySplit, hmem, k, ?_⟩
      rw [hoccurs daySplit hmem k, hdate, hx]
    · rintro ⟨daySplit, hmem, k, hx⟩
      obtain ⟨o, hlow, hhigh, hday, hdate⟩ := (hdates _).mp ⟨daySplit, hmem, rfl⟩
      refine ⟨o, k, hlow, hhigh, hday, ?_⟩
      rw [← hx, hoccurs daySplit hmem k, hdate]

end Split

/-! ## When the shifts enumerate the intended dates -/

/-- The shifts list the intended dates, all at the original time of day, and these are the
dates of the daily series that the overlap check splits the series into. -/
structure EnumeratesWeeks (e : Event) : Prop where
  /-- The dates of the shifts are the intended ones, in increasing order. -/
  lists : Successive.Lists e.intendedDates e.shiftedDates
  /-- Every occurrence has the time of day of the start. -/
  clock : ∀ k, (shifted k e).startTime.clock = e.startTime.clock
  /-- The daily series have the same dates. -/
  split : ∃ fuel days, splitWeeklyByDays fuel e = some days ∧
    (∀ daySplit ∈ days, daySplit.repeatSettings.cycle = .daily ∧
      daySplit.repeatSettings.frequency.toNat = 7 * e.repeatSettings.frequency.toNat) ∧
    ∀ x, x ∈ e.intendedDates ↔ ∃ daySplit ∈ days, ∃ k, daySplit.shiftedDates k = x

/-- The shifts of a weekly series enumerate the intended dates if and only if it repeats every
week, or its mask has a single day and its weeks fit into a duration. -/
theorem enumeratesWeeks_iff {e : Event} {offset : ℤ} (h : e.PlainWeekly offset) :
    e.EnumeratesWeeks ↔ e.KeepsWeeks := by
  constructor
  · intro hall
    exact h.keepsWeeks_of_lists hall.lists
  · intro hkeeps
    exact ⟨h.lists_of_keepsWeeks hkeeps, fun k => (h.shiftedDates_succ k).2,
      splitWeeklyByDays_dates h hkeeps⟩

/-- Two hours on Mondays and Wednesdays every so many weeks, from a Monday on. -/
def mondayAndWednesday (weeks : UInt64) : Event where
  id := 0
  startTime := ⟨4 * day + 8 * hour, utc⟩
  duration := 120
  mode := "default"
  variableMap := ∅
  repeatSettings := { newNonRepeatingSeries with
    cycle := .weekly
    dayMask := weekdayEnumToMask 1 ||| weekdayEnumToMask 3
    frequency := weeks
    endCount := -1 }

theorem mondayAndWednesday_plain {weeks : UInt64} (hpos : 0 < weeks.toNat) :
    (mondayAndWednesday weeks).PlainWeekly 0 := by
  constructor
  · exact fun _ => rfl
  · rfl
  · have hon : OnMask (weekdayEnumToMask 1 ||| weekdayEnumToMask 3) 4 := by decide
    exact hon
  · have hmasked : (weekdayEnumToMask 1 ||| weekdayEnumToMask 3) &&& everyDayMask =
        weekdayEnumToMask 1 ||| weekdayEnumToMask 3 := by decide
    exact hmasked
  · exact hpos

/-- Every week. -/
theorem enumeratesWeeks_iff_mondayAndWednesday :
    (mondayAndWednesday 1).EnumeratesWeeks ↔ (mondayAndWednesday 1).KeepsWeeks :=
  enumeratesWeeks_iff (mondayAndWednesday_plain (by decide))

/-- Every other week, the Wednesday of the first week is skipped. -/
theorem mondayAndWednesday_skips :
    ¬ ∀ (e : Event) (offset : ℤ), e.PlainWeekly offset → e.EnumeratesWeeks := by
  intro hall
  have hplain : (mondayAndWednesday 2).PlainWeekly 0 := mondayAndWednesday_plain (by decide)
  have hlists := (hall _ _ hplain).lists
  have hwednesday : (6 : ℤ) ∈ (mondayAndWednesday 2).intendedDates := by
    have hon : OnMask (weekdayEnumToMask 1 ||| weekdayEnumToMask 3) 6 := by decide
    exact ⟨by decide, hon, 0, by decide⟩
  have hfirst : (mondayAndWednesday 2).shiftedDates 0 = 4 := by decide +kernel
  have hnext : (mondayAndWednesday 2).shiftedDates 1 = 13 := by decide +kernel
  have hbefore : (mondayAndWednesday 2).shiftedDates 0 < 6 := by omega
  have hle : (mondayAndWednesday 2).shiftedDates 1 ≤ 6 := hlists.next_le hwednesday hbefore
  omega

end Event

/-!
## Clock changes of one hour

A location shows standard time or is an hour ahead of it. In spring the clocks skip an hour;
what a time of day in that hour stands for is an hour early or late. The dates that the
scheduler finds are the right ones all the same.
-/

namespace Location

/-- The clocks show standard time or are an hour ahead, and are not changed twice within ten
days. -/
structure OneHourChanges (loc : Location) (standard : ℤ) : Prop where
  two : ∀ instant, loc.offset instant = standard ∨ loc.offset instant = standard + hour
  apart : ∀ {t u v : ℤ}, t ≤ u → u ≤ v → v ≤ t + 10 * day → loc.offset t = loc.offset v →
    loc.offset u = loc.offset t

/-- The clocks never show this. -/
def Skips (loc : Location) (wall : ℤ) : Prop := ∀ instant, Time.wall ⟨instant, loc⟩ ≠ wall

namespace OneHourChanges

variable {loc : Location} {standard : ℤ} (hzone : loc.OneHourChanges standard)
include hzone

/-- The clocks skip the hour that begins when they are changed to be ahead. -/
theorem skips_iff {wall : ℤ} : loc.Skips wall ↔
    loc.offset (wall - standard - hour) = standard ∧
      loc.offset (wall - standard) = standard + hour := by
  constructor
  · intro hskips
    have hlate := hskips (wall - standard)
    have hearly := hskips (wall - standard - hour)
    have hlateOffset := hzone.two (wall - standard)
    have hearlyOffset := hzone.two (wall - standard - hour)
    simp only [Time.wall] at hlate hearly
    omega
  · rintro ⟨hbefore, hafter⟩ instant hshown
    have hoffset := hzone.two instant
    simp only [Time.wall] at hshown
    rcases hoffset with hoffset | hoffset
    · have hinstant : instant = wall - standard := by omega
      rw [hinstant, hafter] at hoffset
      simp only [hour, minute] at hoffset
      omega
    · have hinstant : instant = wall - standard - hour := by omega
      rw [hinstant, hbefore] at hoffset
      simp only [hour, minute] at hoffset
      omega

/-- A time of day that the clocks show is found. -/
theorem wall_timeDate {date clock : ℤ} (hshown : ¬ loc.Skips (date * day + clock)) :
    (timeDate date clock loc).wall = date * day + clock := by
  rw [hzone.skips_iff] at hshown
  have hfirst := hzone.two (date * day + clock)
  simp only [timeDate, Time.wall]
  rcases hfirst with hfirst | hfirst
  · rw [hfirst]
    have hsecond := hzone.two (date * day + clock - standard)
    rcases hsecond with hsecond | hsecond
    · rw [hsecond, hsecond]
      omega
    · have hthird := hzone.two (date * day + clock - standard - hour)
      rw [hsecond, ← sub_sub]
      rcases hthird with hthird | hthird
      · exact absurd ⟨hthird, hsecond⟩ hshown
      · rw [hthird]
        omega
  · rw [hfirst, ← sub_sub]
    have hsecond := hzone.two (date * day + clock - standard - hour)
    rcases hsecond with hsecond | hsecond
    · have hthird := hzone.two (date * day + clock - standard)
      rw [hsecond]
      rcases hthird with hthird | hthird
      · rw [hthird]
        omega
      · exact absurd ⟨hsecond, hthird⟩ hshown
    · rw [hsecond, ← sub_sub, hsecond]
      omega

/-- For a time of day in the skipped hour an instant is found as if it had one of the
offsets. -/
theorem instant_timeDate (date clock : ℤ) :
    (timeDate date clock loc).instant = date * day + clock - standard ∨
      (timeDate date clock loc).instant = date * day + clock - standard - hour := by
  simp only [timeDate]
  have hsecond := hzone.two (date * day + clock - loc.offset (date * day + clock))
  rcases hsecond with hsecond | hsecond
  · left
    rw [hsecond]
  · right
    rw [hsecond]
    omega

/-- That instant is an hour late or early. -/
theorem wall_timeDate_of_skips {date clock : ℤ} (hskips : loc.Skips (date * day + clock)) :
    (timeDate date clock loc).wall = date * day + clock + hour ∨
      (timeDate date clock loc).wall = date * day + clock - hour := by
  obtain ⟨hbefore, hafter⟩ := hzone.skips_iff.mp hskips
  rw [Time.wall, timeDate_loc]
  rcases hzone.instant_timeDate date clock with hinstant | hinstant
  · left
    rw [hinstant, hafter]
    omega
  · right
    rw [hinstant, hbefore]
    omega

end OneHourChanges

end Location

/-! ## Dates and times of day -/

/-- The date of what the clocks show. -/
theorem Time.date_eq {t : Time} {date clock : ℤ} (hwall : t.wall = date * day + clock)
    (hlow : 0 ≤ clock) (hhigh : clock < day) : t.date = date := by
  rw [Time.date, hwall]
  simp only [day, hour, minute] at hhigh ⊢
  omega

theorem Time.clock_eq {t : Time} {date clock : ℤ} (hwall : t.wall = date * day + clock)
    (hlow : 0 ≤ clock) (hhigh : clock < day) : t.clock = clock := by
  rw [Time.clock, hwall]
  simp only [day, hour, minute] at hhigh ⊢
  omega

theorem Time.wall_eq (t : Time) : t.wall = t.date * day + t.clock :=
  (Int.ediv_mul_add_emod _ _).symm

theorem Time.clock_range (t : Time) : 0 ≤ t.clock ∧ t.clock < day :=
  ⟨Int.emod_nonneg _ (by decide), Int.emod_lt_of_pos _ (by decide)⟩

/-! ## A time of day on another date -/

namespace Location.OneHourChanges

/-- Between skipped hours lie more than ten days. -/
theorem skips_apart {loc : Location} {standard wall wall' : ℤ} (hzone : loc.OneHourChanges standard)
    (h : loc.Skips wall) (h' : loc.Skips wall') (hlater : wall + hour ≤ wall') :
    wall + 10 * day < wall' := by
  obtain ⟨-, hafter⟩ := hzone.skips_iff.mp h
  obtain ⟨hbefore', hafter'⟩ := hzone.skips_iff.mp h'
  by_contra hnear
  have hsame := hzone.apart (t := wall - standard) (u := wall' - standard - hour)
    (v := wall' - standard) (by omega) (by simp only [hour, minute]; omega) (by omega)
    (hafter.trans hafter'.symm)
  rw [hafter, hbefore'] at hsame
  simp only [hour, minute] at hsame
  omega

variable {t : Time} {standard : ℤ} (hzone : t.loc.OneHourChanges standard)
include hzone

/-- An hour later the clocks show the next hour, the same one or the one after the next. -/
theorem clock_add_hour :
    t.loc.offset t.instant = standard + hour ∧ t.loc.offset (t.instant + hour) = standard ∧
        (t.add hour).clock = t.clock ∨
      (t.add hour).clock = (t.clock + hour) % day ∨
        (t.add hour).clock = (t.clock + 2 * hour) % day := by
  have hnow := hzone.two t.instant
  have hnext := hzone.two (t.instant + hour)
  have hclock : t.clock = (t.instant + t.loc.offset t.instant) % day := rfl
  have hlater : (t.add hour).clock =
      (t.instant + hour + t.loc.offset (t.instant + hour)) % day := rfl
  rw [hclock, hlater]
  rcases hnow with hnow | hnow <;> rcases hnext with hnext | hnext <;> rw [hnow, hnext]
  · right; left
    rw [Int.emod_add_emod]
    congr 1
    omega
  · right; right
    rw [Int.emod_add_emod]
    congr 1
    omega
  · left
    refine ⟨rfl, rfl, ?_⟩
    congr 1
    omega
  · right; left
    rw [Int.emod_add_emod]
    congr 1
    omega

/-- The time of day on a date where the clocks show it. -/
theorem wall_applyNewDateToTime (newDate : Time)
    (hshown : ¬ t.loc.Skips (newDate.date * day + t.clock)) :
    (applyNewDateToTime newDate t).wall = newDate.date * day + t.clock := by
  have hwall := hzone.wall_timeDate hshown
  have hrange := t.clock_range
  have hclock := Time.clock_eq hwall hrange.1 hrange.2
  have hhour : (timeDate newDate.date t.clock t.loc).hourOfDay = t.hourOfDay := by
    rw [Time.hourOfDay, hclock, Time.hourOfDay]
  simp only [applyNewDateToTime, hhour, ne_eq]
  exact hwall

/-- The time of day on a date where the clocks skip it. The date is that date, or next to it where
the time was in the hour before the clocks were set back. -/
theorem applyNewDateToTime_of_skips (newDate : Time)
    (hskips : t.loc.Skips (newDate.date * day + t.clock)) :
    (applyNewDateToTime newDate t).hourOfDay ≠ t.hourOfDay ∧
      ((applyNewDateToTime newDate t).date = newDate.date ∨
        (t.loc.offset t.instant = standard + hour ∧ t.loc.offset (t.instant + hour) = standard) ∧
          newDate.date - 1 ≤ (applyNewDateToTime newDate t).date ∧
            (applyNewDateToTime newDate t).date ≤ newDate.date + 1) := by
  have hrange := t.clock_range
  have hwall := hzone.wall_timeDate_of_skips hskips
  have hmoved : (timeDate newDate.date t.clock t.loc).hourOfDay ≠ t.hourOfDay ∧
      newDate.date - 1 ≤ (timeDate newDate.date t.clock t.loc).date ∧
        (timeDate newDate.date t.clock t.loc).date ≤ newDate.date + 1 := by
    have hclock : (timeDate newDate.date t.clock t.loc).clock =
        (timeDate newDate.date t.clock t.loc).wall % day := rfl
    have hdate : (timeDate newDate.date t.clock t.loc).date =
        (timeDate newDate.date t.clock t.loc).wall / day := rfl
    rw [Time.hourOfDay, Time.hourOfDay, hclock, hdate]
    simp only [day, hour, minute] at *
    omega
  simp only [applyNewDateToTime, if_pos hmoved.1]
  rcases hzone.clock_add_hour with ⟨hahead, hback, hsame⟩ | hnext
  · rw [hsame]
    exact ⟨hmoved.1, Or.inr ⟨⟨hahead, hback⟩, hmoved.2⟩⟩
  · have hrange' := (t.add hour).clock_range
    have hshown : ¬ t.loc.Skips (newDate.date * day + (t.add hour).clock) := by
      intro hskips'
      rcases le_total t.clock (t.add hour).clock with hle | hle
      · have hapart : t.clock + hour ≤ (t.add hour).clock := by
          simp only [day, hour, minute] at *
          omega
        have hfar := hzone.skips_apart hskips hskips' (by omega)
        omega
      · have hapart : (t.add hour).clock + hour ≤ t.clock := by
          simp only [day, hour, minute] at *
          omega
        have hfar := hzone.skips_apart hskips' hskips (by omega)
        omega
    have hfound := hzone.wall_timeDate hshown
    have hfoundClock := Time.clock_eq hfound hrange'.1 hrange'.2
    refine ⟨?_, Or.inl (Time.date_eq hfound hrange'.1 hrange'.2)⟩
    rw [Time.hourOfDay, Time.hourOfDay, hfoundClock]
    simp only [day, hour, minute] at *
    omega

/-- On a later date, it is a date next to that date only ten or more days later. -/
theorem date_applyNewDateToTime_of_skips (newDate : Time) (hlater : t.date < newDate.date)
    (hskips : t.loc.Skips (newDate.date * day + t.clock)) :
    (applyNewDateToTime newDate t).date = newDate.date ∨
      t.date + 10 ≤ newDate.date ∧ newDate.date - 1 ≤ (applyNewDateToTime newDate t).date ∧
        (applyNewDateToTime newDate t).date ≤ newDate.date + 1 := by
  rcases (hzone.applyNewDateToTime_of_skips newDate hskips).2 with hdate | ⟨⟨hahead, hback⟩, hnear⟩
  · exact Or.inl hdate
  · -- the clocks are set back within the hour, and ahead again at the skipped hour
    refine Or.inr ⟨?_, hnear⟩
    obtain ⟨-, hafter⟩ := hzone.skips_iff.mp hskips
    have hnow : t.instant + (standard + hour) = t.date * day + t.clock := by
      rw [← hahead]
      exact t.wall_eq
    by_contra hsoon
    have hunchanged := hzone.apart (t := t.instant) (u := t.instant + hour)
      (v := newDate.date * day + t.clock - standard)
      (by simp only [hour, minute]; omega)
      (by simp only [day, hour, minute] at *; omega)
      (by simp only [day, hour, minute] at *; omega)
      (hahead.trans hafter.symm)
    rw [hback, hahead] at hunchanged
    simp only [hour, minute] at hunchanged
    omega

/-- A time of day on a date. -/
theorem date_timeDate (date : ℤ) {clock : ℤ} (hlow : 0 ≤ clock) (hhigh : clock < day) :
    (timeDate date clock t.loc).date = date ∨ t.loc.Skips (date * day + clock) ∧
      date - 1 ≤ (timeDate date clock t.loc).date ∧
        (timeDate date clock t.loc).date ≤ date + 1 := by
  by_cases hskips : t.loc.Skips (date * day + clock)
  · right
    have hwall := hzone.wall_timeDate_of_skips hskips
    have hdate : (timeDate date clock t.loc).date = (timeDate date clock t.loc).wall / day := rfl
    refine ⟨hskips, ?_⟩
    rw [hdate]
    simp only [day, hour, minute] at *
    omega
  · left
    exact Time.date_eq (hzone.wall_timeDate hskips) hlow hhigh

end Location.OneHourChanges

end HybridOs.Scheduler
