import HybridOs.CivilDate
import Mathlib.Algebra.Ring.Int.Defs
import Mathlib.Algebra.Ring.Nat

/-!
# Clock times

Instants are nanoseconds since the epoch. A location gives the offset in use at every
instant, and a time of day on a date stands for the instant that the library finds from
it. Durations are 64-bit numbers of nanoseconds and wrap.
-/

namespace HybridOs.Scheduler

/-- `time.Minute`. -/
def minute : ℤ := 60000000000

/-- `time.Hour`. -/
def hour : ℤ := 60 * minute

/-- The length of a day without a change of offset. -/
def day : ℤ := 24 * hour

/-- A result of 64-bit integer arithmetic. -/
def wrapInt64 (n : ℤ) : ℤ := n.bmod (2 ^ 64)

/-- A `time.Location`. -/
structure Location where
  /-- How far the clocks are ahead of the universal time at an instant. -/
  offset : ℤ → ℤ

/-- A `time.Time`. -/
structure Time where
  /-- Nanoseconds since the epoch. -/
  instant : ℤ
  /-- Whose clocks show it. -/
  loc : Location

namespace Time

/-- `Time.In`. -/
def inLocation (t : Time) (loc : Location) : Time := ⟨t.instant, loc⟩

/-- `Time.Add`. -/
def add (t : Time) (d : ℤ) : Time := ⟨t.instant + d, t.loc⟩

/-- `Time.Before`. -/
def before (t u : Time) : Bool := t.instant < u.instant

/-- `Time.After`. -/
def after (t u : Time) : Bool := u.instant < t.instant

/-- `Time.Equal`. -/
def equal (t u : Time) : Bool := t.instant = u.instant

/-- What the clocks show, as nanoseconds since midnight of the first of January 1970. -/
def wall (t : Time) : ℤ := t.instant + t.loc.offset t.instant

/-- The date, as a number of days. -/
def date (t : Time) : ℤ := t.wall / day

/-- The time of day. -/
def clock (t : Time) : ℤ := t.wall % day

/-- `Time.Hour`. -/
def hourOfDay (t : Time) : ℤ := t.clock / hour

/-- `Time.Minute`. -/
def minuteOfHour (t : Time) : ℤ := t.clock % hour / minute

/-- `Time.Weekday`, counted from Sunday. -/
def weekday (t : Time) : ℕ := ((t.date + 4) % 7).toNat

/-- `Time.Day`: the day of the month of the date, counted in years that start in March. -/
def dayOfMonth (t : Time) : ℤ :=
  let dayOfEra := (t.date + 719468) % 146097
  let yearOfEra :=
    (dayOfEra - dayOfEra / 1460 + dayOfEra / 36524 - dayOfEra / 146096) / 365
  let dayOfYear := dayOfEra - (365 * yearOfEra + yearOfEra / 4 - yearOfEra / 100)
  dayOfYear - (153 * ((5 * dayOfYear + 2) / 153) + 2) / 5 + 1

@[simp] theorem inLocation_instant (t : Time) (loc : Location) :
    (t.inLocation loc).instant = t.instant := rfl

@[simp] theorem inLocation_inLocation (t : Time) (loc loc' : Location) :
    (t.inLocation loc).inLocation loc' = t.inLocation loc' := rfl

@[simp] theorem add_instant (t : Time) (d : ℤ) : (t.add d).instant = t.instant + d := rfl

@[simp] theorem before_iff {t u : Time} : t.before u = true ↔ t.instant < u.instant :=
  decide_eq_true_iff

@[simp] theorem after_iff {t u : Time} : t.after u = true ↔ u.instant < t.instant :=
  decide_eq_true_iff

@[simp] theorem equal_iff {t u : Time} : t.equal u = true ↔ t.instant = u.instant :=
  decide_eq_true_iff

end Time

/-- `time.Date`: the offset at the time of day taken as universal time leads to an instant,
and the offset at that instant is used. -/
def timeDate (date clock : ℤ) (loc : Location) : Time :=
  let unix := date * day + clock
  ⟨unix - loc.offset (unix - loc.offset unix), loc⟩

/-! ## The helper functions of the scheduler -/

/-- Midnight of a date, or the hour after it where the clocks skip midnight. -/
def midnightOf (t : Time) : Time :=
  let midnight := timeDate t.date 0 t.loc
  if midnight.dayOfMonth ≠ t.dayOfMonth then midnight.add hour else midnight

/-- `flextime.GetMidnightInNDays`. -/
def getMidnightInNDays (days : ℤ) (currentTime : Time) : Time :=
  let midnightToday := midnightOf currentTime
  if 0 < days then
    midnightOf (midnightToday.add
      (wrapInt64 (wrapInt64 (wrapInt64 (24 * (days - 1)) * hour) + hour * 25)))
  else if days < 0 then
    midnightOf (midnightToday.add
      (wrapInt64 (wrapInt64 (wrapInt64 (24 * (days + 1)) * hour) - hour * 23)))
  else midnightToday

/-- `flextime.GetDayLength`. -/
def getDayLength (ref : Time) : ℤ :=
  (getMidnightInNDays 1 ref).instant - (getMidnightInNDays 0 ref).instant

/-- `flextime.TimeIsBeforeCurrentMinute`. -/
def timeIsBeforeCurrentMinute (now : ℤ) (t : Time) : Bool :=
  t.instant < now - now % minute

/-- `flextime.ApplyNewDateToTime`. -/
def applyNewDateToTime (newDate originalTime : Time) : Time :=
  let newTime := timeDate newDate.date originalTime.clock originalTime.loc
  if newTime.hourOfDay ≠ originalTime.hourOfDay then
    timeDate newDate.date (originalTime.add hour).clock originalTime.loc
  else newTime

/-- The time of day of a date lies in the location that it is asked for. -/
@[simp] theorem timeDate_loc (date clock : ℤ) (loc : Location) :
    (timeDate date clock loc).loc = loc := rfl

/-- A new date keeps the location. -/
@[simp] theorem applyNewDateToTime_loc (newDate originalTime : Time) :
    (applyNewDateToTime newDate originalTime).loc = originalTime.loc := by
  rw [applyNewDateToTime]
  split_ifs <;> rfl

/-! ## Locations with one offset -/

/-- A location whose offset never changes. -/
def Location.Fixed (loc : Location) (offset : ℤ) : Prop := ∀ instant, loc.offset instant = offset

variable {loc : Location} {offset : ℤ} {t : Time}

theorem Location.Fixed.timeDate_eq (hfixed : loc.Fixed offset) (date clock : ℤ) :
    timeDate date clock loc = ⟨date * day + clock - offset, loc⟩ := by
  simp only [timeDate, hfixed _]

theorem Location.Fixed.wall_eq (hfixed : loc.Fixed offset) (instant : ℤ) :
    Time.wall ⟨instant, loc⟩ = instant + offset := by
  simp only [Time.wall, hfixed _]

section

variable (hfixed : t.loc.Fixed offset)
include hfixed

theorem Location.Fixed.wall_add (d : ℤ) : (t.add d).wall = t.wall + d := by
  rw [Time.wall, Time.wall, Time.add]
  simp only [hfixed _]
  omega

/-- Days later it is that many dates later, in a location with one offset. -/
theorem Location.Fixed.date_add (n : ℤ) : (t.add (n * day)).date = t.date + n := by
  rw [Time.date, Time.date, hfixed.wall_add, Int.add_mul_ediv_right _ _ (by decide)]

/-- It is the same time of day then. -/
theorem Location.Fixed.clock_add (n : ℤ) : (t.add (n * day)).clock = t.clock := by
  rw [Time.clock, Time.clock, hfixed.wall_add, Int.add_mul_emod_self_right]

theorem Location.Fixed.hourOfDay_add (n : ℤ) : (t.add (n * day)).hourOfDay = t.hourOfDay := by
  rw [Time.hourOfDay, Time.hourOfDay, hfixed.clock_add]

/-- A time of day on the date some days after a time, in a location with one offset. -/
theorem Location.Fixed.applyNewDateToTime_eq {newDate : Time} {n : ℤ}
    (hdate : newDate.date = t.date + n) : applyNewDateToTime newDate t = t.add (n * day) := by
  have hsplit : t.date * day + t.clock = t.instant + offset := by
    rw [Time.date, Time.clock, ← hfixed.wall_eq t.instant]
    exact Int.ediv_mul_add_emod _ _
  have hinstant : timeDate newDate.date t.clock t.loc = t.add (n * day) := by
    rw [hfixed.timeDate_eq, hdate, Time.add, Int.add_mul]
    congr 1
    omega
  simp only [applyNewDateToTime, hinstant, hfixed.hourOfDay_add, ne_eq, not_true_eq_false, if_false]

end

/-!
## The first instants of days

Clocks that are set one hour ahead and back at any instants. A day begins at one of the two
instants that midnight can stand for, or where the clocks are set ahead between them.
-/

/-- The instant of midnight where the clocks are ahead, an hour before that of standard time. -/
def earlyMidnight (standard date : ℤ) : ℤ := date * day - standard - hour

/-- The library finds the first instant of a day: the earlier midnight where the clocks show it,
unless it takes the later one, and else the later one unless they are set ahead before. -/
def Location.FindsMidnight (loc : Location) (standard date : ℤ) : Prop :=
  if loc.offset (earlyMidnight standard date) = standard + hour then
    loc.offset (date * day) = standard + hour ∨
      loc.offset (earlyMidnight standard date + hour) = standard + hour
  else ∀ instant, earlyMidnight standard date ≤ instant →
    instant < earlyMidnight standard date + hour → loc.offset instant = standard

theorem dayOfMonth_eq (t : Time) : t.dayOfMonth = CivilDate.dayOf t.date := rfl

section Midnights

variable {loc : Location} {standard : ℤ}
  (htwo : ∀ instant, loc.offset instant = standard ∨ loc.offset instant = standard + hour)
include htwo

/-- When the clocks show a date. -/
theorem date_eq_iff (instant date : ℤ) : Time.date ⟨instant, loc⟩ = date ↔
    earlyMidnight standard date ≤ instant ∧ instant < earlyMidnight standard (date + 1) + hour ∧
      (instant < earlyMidnight standard date + hour → loc.offset instant = standard + hour) ∧
      (earlyMidnight standard (date + 1) ≤ instant → loc.offset instant = standard) := by
  have hoffset := htwo instant
  simp only [Time.date, Time.wall, earlyMidnight, day, hour, minute] at *
  omega

theorem date_earlyMidnight (date : ℤ) : Time.date ⟨earlyMidnight standard date, loc⟩ =
    if loc.offset (earlyMidnight standard date) = standard + hour then date else date - 1 := by
  have hoffset := htwo (earlyMidnight standard date)
  simp only [Time.date, Time.wall]
  split_ifs <;> simp only [earlyMidnight, day, hour, minute] at * <;> omega

theorem date_lateMidnight (date : ℤ) :
    Time.date ⟨earlyMidnight standard date + hour, loc⟩ = date := by
  rw [date_eq_iff htwo]
  simp only [earlyMidnight, day, hour, minute]
  omega

/-- Midnight of a date, by what the clocks show at the instants that it can stand for. -/
theorem midnightOf_eq {t : Time} (hloc : t.loc = loc) : midnightOf t =
    ⟨if loc.offset (earlyMidnight standard t.date) = standard + hour ∧
        (loc.offset (t.date * day) = standard + hour ∨
          loc.offset (earlyMidnight standard t.date + hour) = standard + hour)
      then earlyMidnight standard t.date else earlyMidnight standard t.date + hour, loc⟩ := by
  have hne : standard ≠ standard + hour := by
    simp only [hour, minute]
    omega
  have hahead : t.date * day - (standard + hour) = earlyMidnight standard t.date := by
    rw [earlyMidnight, sub_sub]
  have hbehind : t.date * day - standard = earlyMidnight standard t.date + hour := by
    rw [earlyMidnight, sub_add_cancel]
  have hearly := date_earlyMidnight htwo t.date
  have hlate := date_lateMidnight htwo t.date
  have hfound {instant : ℤ} (hdate : Time.date ⟨instant, loc⟩ = t.date) :
      (if Time.dayOfMonth ⟨instant, loc⟩ ≠ t.dayOfMonth then Time.add ⟨instant, loc⟩ hour
        else ⟨instant, loc⟩) = ⟨instant, loc⟩ := by
    rw [if_neg (not_not.2 (by rw [dayOfMonth_eq, dayOfMonth_eq, hdate]))]
  have hskipped (h : loc.offset (earlyMidnight standard t.date) = standard) :
      Time.dayOfMonth ⟨earlyMidnight standard t.date, loc⟩ ≠ t.dayOfMonth := by
    rw [h, if_neg hne] at hearly
    rw [dayOfMonth_eq, dayOfMonth_eq, hearly]
    exact CivilDate.dayOf_pred_ne _
  simp only [midnightOf, timeDate, add_zero, hloc]
  rcases htwo (t.date * day) with hutc | hutc
  · rw [hutc, hbehind]
    rcases htwo (earlyMidnight standard t.date + hour) with hbegun | hbegun
    · rw [hbegun, hbehind, hfound hlate]
      simp [hne]
    · rw [hbegun, hahead]
      rcases htwo (earlyMidnight standard t.date) with hfirst | hfirst
      · rw [if_pos (hskipped hfirst), hfirst]
        simp [hne, Time.add]
      · rw [if_pos hfirst] at hearly
        rw [hfound hearly, hfirst]
        simp
  · rw [hutc, hahead]
    rcases htwo (earlyMidnight standard t.date) with hfirst | hfirst
    · rw [hfirst, hbehind, hfound hlate]
      simp [hne]
    · rw [if_pos hfirst] at hearly
      rw [hfirst, hahead, hfound hearly]
      simp

theorem date_midnightOf {t : Time} (hloc : t.loc = loc) : (midnightOf t).date = t.date := by
  rw [midnightOf_eq htwo hloc]
  split_ifs with hfirst
  · rw [date_earlyMidnight htwo, if_pos hfirst.1]
  · exact date_lateMidnight htwo t.date

/-- Midnight is the first instant of its date exactly where the library finds that. -/
theorem isLeast_midnightOf {t : Time} (hloc : t.loc = loc) :
    IsLeast {instant | Time.date ⟨instant, loc⟩ = t.date} (midnightOf t).instant ↔
      loc.FindsMidnight standard t.date := by
  rw [midnightOf_eq htwo hloc, Location.FindsMidnight]
  have hpos : 0 < hour := by decide
  have hmem (instant : ℤ) (h : Time.date ⟨instant, loc⟩ = t.date) := (date_eq_iff htwo _ _).1 h
  by_cases hfirst : loc.offset (earlyMidnight standard t.date) = standard + hour
  · have hdate := date_earlyMidnight htwo t.date
    rw [if_pos hfirst] at hdate
    simp only [hfirst, if_true, true_and]
    split_ifs with hseen
    · exact iff_of_true ⟨hdate, fun instant h => (hmem instant h).1⟩ hseen
    · exact iff_of_false (fun h => absurd (h.2 hdate) (by omega)) hseen
  · rw [if_neg hfirst, if_neg fun h => hfirst h.1]
    constructor
    · intro h instant hlow hhigh
      refine (htwo instant).resolve_right fun hahead => ?_
      have hdate : Time.date ⟨instant, loc⟩ = t.date := by
        rw [date_eq_iff htwo]
        simp only [earlyMidnight, day, hour, minute] at *
        omega
      exact absurd (h.2 hdate) (not_le.2 hhigh)
    · intro h
      refine ⟨date_lateMidnight htwo t.date, fun instant hdate => ?_⟩
      by_contra hearly
      have hbounds := hmem instant hdate
      have hstandard := h instant hbounds.1 (not_le.1 hearly)
      have hahead := hbounds.2.2.1 (not_le.1 hearly)
      omega

end Midnights

/-! ## Days away -/

/-- A duration wraps by a multiple of the numbers there are. -/
theorem wrapInt64_eq (n : ℤ) :
    ∃ k, wrapInt64 n = n + k * 2 ^ 64 ∧ -2 ^ 63 ≤ wrapInt64 n ∧ wrapInt64 n < 2 ^ 63 := by
  have hsplit := Int.bmod_add_bdiv' n (2 ^ 64)
  have hlow := @Int.le_bmod n (2 ^ 64) (by decide)
  have hhigh := @Int.bmod_lt n (2 ^ 64) (by decide)
  refine ⟨-Int.bdiv n (2 ^ 64), ?_, ?_, ?_⟩ <;> rw [wrapInt64] <;> omega

/-- The duration to the morning some days away does not overflow. -/
def DaysFit (days : ℤ) : Prop := -106752 ≤ days ∧ days ≤ 106751

/-- The morning is looked for a day from midnight for each day and an hour, and wrapped. -/
theorem getMidnightInNDays_eq {days : ℤ} (hne : days ≠ 0) (t : Time) : getMidnightInNDays days t =
    midnightOf ((midnightOf t).add (wrapInt64 ((24 * days + 1) * hour))) := by
  rcases lt_or_gt_of_ne hne with hneg | hpos
  · have hspan : wrapInt64 (wrapInt64 (wrapInt64 (24 * (days + 1)) * hour) - hour * 23) =
        wrapInt64 ((24 * days + 1) * hour) := by
      unfold wrapInt64
      rw [Int.bmod_mul_bmod, Int.bmod_sub_bmod]
      congr 1
      ring
    rw [getMidnightInNDays, if_neg (not_lt.2 hneg.le), if_pos hneg, hspan]
  · have hspan : wrapInt64 (wrapInt64 (wrapInt64 (24 * (days - 1)) * hour) + hour * 25) =
        wrapInt64 ((24 * days + 1) * hour) := by
      unfold wrapInt64
      rw [Int.bmod_mul_bmod, Int.bmod_add_bmod]
      congr 1
      ring
    rw [getMidnightInNDays, if_pos hpos, hspan]

section Days

variable {t : Time} {standard : ℤ}
  (htwo : ∀ instant, t.loc.offset instant = standard ∨ t.loc.offset instant = standard + hour)
include htwo

/-- The morning lies on the date that many days away, unless the duration overflows. -/
theorem date_morning (days : ℤ) :
    ((midnightOf t).add (wrapInt64 ((24 * days + 1) * hour))).date = t.date + days ↔
      DaysFit days := by
  obtain ⟨k, hk, hlow, hhigh⟩ := wrapInt64_eq ((24 * days + 1) * hour)
  rw [midnightOf_eq htwo rfl, Time.add, date_eq_iff htwo, DaysFit]
  simp only [earlyMidnight, day, hour, minute] at *
  split_ifs <;> omega

/-- Midnight some days away is that of a time on that date exactly if the duration fits. -/
theorem exists_morning (days : ℤ) : ∃ morning : Time, morning.loc = t.loc ∧
    getMidnightInNDays days t = midnightOf morning ∧
      (morning.date = t.date + days ↔ DaysFit days) := by
  by_cases hzero : days = 0
  · rw [hzero, add_zero]
    exact ⟨t, rfl, rfl, iff_of_true rfl (by rw [DaysFit]; omega)⟩
  · refine ⟨_, ?_, getMidnightInNDays_eq hzero t, date_morning htwo days⟩
    rw [Time.add, midnightOf_eq htwo rfl]

theorem date_getMidnightInNDays (days : ℤ) :
    (getMidnightInNDays days t).date = t.date + days ↔ DaysFit days := by
  obtain ⟨morning, hloc, hmidnight, hdate⟩ := exists_morning htwo days
  rw [hmidnight, date_midnightOf htwo hloc, hdate]

theorem isLeast_getMidnightInNDays (days : ℤ) :
    IsLeast {instant | Time.date ⟨instant, t.loc⟩ = t.date + days}
        (getMidnightInNDays days t).instant ↔
      DaysFit days ∧ t.loc.FindsMidnight standard (t.date + days) := by
  obtain ⟨morning, hloc, hmidnight, hdate⟩ := exists_morning htwo days
  rw [hmidnight, ← hdate]
  by_cases hfits : morning.date = t.date + days
  · rw [and_iff_right hfits, ← hfits]
    exact isLeast_midnightOf htwo hloc
  · refine iff_of_false (fun h => hfits ?_) fun h => hfits h.1
    rw [← date_midnightOf htwo hloc, ← h.1, midnightOf_eq htwo hloc]

/-- A day is an hour shorter or longer where the clocks are set during it. -/
theorem getDayLength_cases : getDayLength t = 23 * hour ∨ getDayLength t = 24 * hour ∨
    getDayLength t = 25 * hour := by
  obtain ⟨today, htoday, hfirst, hdate⟩ := exists_morning htwo 0
  obtain ⟨tomorrow, htomorrow, hnext, hdate'⟩ := exists_morning htwo 1
  have hfits : DaysFit 0 ∧ DaysFit 1 := by
    rw [DaysFit, DaysFit]
    decide
  rw [getDayLength, hfirst, hnext, midnightOf_eq htwo htoday, midnightOf_eq htwo htomorrow,
    hdate.2 hfits.1, hdate'.2 hfits.2]
  split_ifs <;> simp only [earlyMidnight, day, hour, minute] <;> omega

end Days

/-- Midnight some days away is the first instant of its date exactly where the duration fits and
the library finds that, and a day is as long as from its first instant to the next one. -/
theorem midnights_first_iff {t : Time} {standard : ℤ} (htwo : ∀ instant,
    t.loc.offset instant = standard ∨ t.loc.offset instant = standard + hour) :
    (∀ days, IsLeast {instant | Time.date ⟨instant, t.loc⟩ = t.date + days}
        (getMidnightInNDays days t).instant ↔
      DaysFit days ∧ t.loc.FindsMidnight standard (t.date + days)) ∧
    (t.loc.FindsMidnight standard t.date → t.loc.FindsMidnight standard (t.date + 1) →
      ∃ first next, IsLeast {instant | Time.date ⟨instant, t.loc⟩ = t.date} first ∧
        IsLeast {instant | Time.date ⟨instant, t.loc⟩ = t.date + 1} next ∧
          getDayLength t = next - first ∧ (getDayLength t = 23 * hour ∨
            getDayLength t = 24 * hour ∨ getDayLength t = 25 * hour)) := by
  have hfirst := isLeast_getMidnightInNDays htwo
  refine ⟨hfirst, fun htoday htomorrow => ?_⟩
  have hfits : DaysFit 0 ∧ DaysFit 1 := by
    rw [DaysFit, DaysFit]
    decide
  have hzero := (hfirst 0).2 ⟨hfits.1, (add_zero t.date).symm ▸ htoday⟩
  rw [add_zero] at hzero
  exact ⟨_, _, hzero, (hfirst 1).2 ⟨hfits.2, htomorrow⟩, rfl, getDayLength_cases htwo⟩

/-- Clocks that are set back from one o'clock to midnight, so that midnight occurs twice. -/
def setBackAtOne : Location where
  offset instant := if instant < -2 * hour then 3 * hour else 2 * hour

theorem setBackAtOne_two (instant : ℤ) : setBackAtOne.offset instant = 2 * hour ∨
    setBackAtOne.offset instant = 2 * hour + hour := by
  simp only [setBackAtOne]
  split_ifs
  · right
    omega
  · exact .inl rfl

theorem midnights_first_set_back :
    IsLeast {instant | Time.date ⟨instant, setBackAtOne⟩ = Time.date ⟨0, setBackAtOne⟩ + 1}
      (getMidnightInNDays 1 ⟨0, setBackAtOne⟩).instant := by
  refine ((midnights_first_iff setBackAtOne_two).1 1).2 ⟨⟨by decide, by decide⟩, ?_⟩
  rw [Location.FindsMidnight, if_neg (by decide +kernel)]
  intro instant hlow _
  have hfirst : (-2 : ℤ) * hour ≤ earlyMidnight (2 * hour) (Time.date ⟨0, setBackAtOne⟩ + 1) := by
    decide +kernel
  exact if_neg (not_lt.2 (hfirst.trans hlow))

/-- The second of two midnights is found. -/
theorem midnight_found_second : (∀ instant, setBackAtOne.offset instant = 2 * hour ∨
      setBackAtOne.offset instant = 2 * hour + hour) ∧
    ¬ IsLeast {instant | Time.date ⟨instant, setBackAtOne⟩ = Time.date ⟨0, setBackAtOne⟩ + 0}
      (getMidnightInNDays 0 ⟨0, setBackAtOne⟩).instant := by
  refine ⟨setBackAtOne_two, fun h => ?_⟩
  have hfirst : Time.date ⟨-3 * hour, setBackAtOne⟩ = Time.date ⟨0, setBackAtOne⟩ + 0 := by
    decide +kernel
  exact absurd (h.2 hfirst) (by decide +kernel)

end HybridOs.Scheduler
