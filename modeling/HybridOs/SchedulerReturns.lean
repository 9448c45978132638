import HybridOs.SchedulerOrder

/-!
# Checks come to an end

The searches for overlaps and the peelings of a check are given a number of steps. Where the
scheduled series move forward some number is enough: a search passes what it is compared with,
a series with an end reaches it, and each peeling of an exception leaves fewer that are due.
-/

namespace HybridOs.Scheduler

/-- A search comes to an end: from some number of steps on it gives the same. -/
def Ends {α : Type} (search : ℕ → Option α) : Prop :=
  ∃ a n, ∀ fuel, n ≤ fuel → search fuel = some a

/-- A search that ends after one more step. -/
theorem ends_succ {α : Type} {search : ℕ → Option α} (n : ℕ) (a : α)
    (h : ∀ fuel, n ≤ fuel → search (fuel + 1) = some a) : Ends search := by
  refine ⟨a, n + 1, fun fuel hfuel => ?_⟩
  obtain ⟨fuel, rfl⟩ := Nat.exists_eq_add_of_le' (Nat.one_le_of_lt hfuel)
  exact h fuel (by omega)

/-- A search among alternatives comes to an end where each of them does. -/
theorem anyM_ends {α : Type} {p : ℕ → α → Option Bool} {alternatives : List α}
    (h : ∀ a ∈ alternatives, Ends (p · a)) : Ends fun fuel => anyM (p fuel) alternatives := by
  induction alternatives with
  | nil => exact ⟨false, 0, fun _ _ => rfl⟩
  | cons a rest ih =>
    obtain ⟨hfirst, hrest⟩ := List.forall_mem_cons.mp h
    obtain ⟨hit, n, hn⟩ := hfirst
    obtain ⟨hits, m, hm⟩ := ih hrest
    refine ⟨hit || hits, max n m, fun fuel hfuel => ?_⟩
    have hhit := hn fuel (by omega)
    have hhits := hm fuel (by omega)
    dsimp only at hhit hhits ⊢
    rw [anyM, hhit]
    cases hit with
    | true => rfl
    | false => exact hhits

namespace Series

variable {ser : Series}

/-- The count of a series that goes on after the next occurrence, and the occurrence where the
end time decides. -/
theorem updateSeriesEnd_goesOn {ser ser' : Series} {nextStartTime : Time}
    (h : ser.updateSeriesEnd nextStartTime = (ser', false)) (hcount : -1 ≤ ser.endCount) :
    ∃ endCount, ser' = { ser with endCount } ∧ -1 ≤ endCount ∧
      (endCount = 0 → ser.endCount = 0 ∧ nextStartTime.instant ≤ ser.endTime.instant) ∧
      (0 ≤ ser.endCount → 0 ≤ endCount ∧ endCount ≤ ser.endCount ∧
        (endCount = ser.endCount → endCount = 0)) := by
  rw [updateSeriesEnd] at h
  split_ifs at h with hinfinite hpos
  · cases h
    have hnegative : ser.endCount < 0 := by simpa [isInfiniteSeries] using hinfinite
    refine ⟨ser.endCount, rfl, hcount, fun hzero => ?_, fun hfinite => ?_⟩
    · omega
    · omega
  · rw [Prod.mk.injEq, decide_eq_false_iff_not] at h
    refine ⟨ser.endCount - 1, h.1.symm, by omega, fun hzero => absurd hzero h.2, fun _ => ?_⟩
    omega
  · rw [Prod.mk.injEq] at h
    obtain ⟨rfl, hover⟩ := h
    refine ⟨ser.endCount, rfl, hcount, fun hzero => ⟨hzero, ?_⟩, fun hfinite => ?_⟩
    · rw [← Bool.not_eq_true, Time.after_iff] at hover
      omega
    · omega

/-- A series without end goes on. -/
theorem updateSeriesEnd_infinite (hinfinite : ser.endCount < 0) (t : Time) :
    ser.updateSeriesEnd t = (ser, false) := by
  rw [updateSeriesEnd, if_pos (by simpa [isInfiniteSeries] using hinfinite)]

end Series

namespace Event

variable {e series : Event}

/-- How a shift changes the exceptions: one of an occurrence that it splits from the series is
taken out. -/
theorem shiftSeries_exceptions (e : Event) :
    (e.shiftSeries.springForwardEvent = none ∧
      e.shiftSeries.series.repeatSettings.exceptions = e.repeatSettings.exceptions) ∨
    (e.shiftSeries.springForwardEvent = some (e.splitSpringForward e.nextStartTime) ∧
      e.shiftSeries.series.repeatSettings.exceptions =
        (e.withoutSpringForward e.nextStartTime).repeatSettings.exceptions) := by
  unfold shiftSeries
  dsimp only
  split_ifs
  · right
    have hended := updateSeriesEnd_exceptions
      (e.withoutSpringForward e.nextStartTime).repeatSettings e.nextStartTime
    split
    next hend =>
      rw [hend] at hended
      exact ⟨rfl, hended⟩
    next hend =>
      rw [hend] at hended
      exact ⟨rfl, (updateSeriesEnd_exceptions _ _).trans hended⟩
  · exact .inl ⟨rfl, updateSeriesEnd_exceptions _ _⟩

/-- A series that goes on has another start, other exceptions and a lower count, and has not
passed its end time. -/
theorem shiftSeries_goesOn (hgoes : e.shiftSeries.seriesOver = false)
    (hcount : -1 ≤ e.repeatSettings.endCount) : ∃ startTime exceptions endCount,
      e.shiftSeries.series = { e with
        startTime, repeatSettings := { e.repeatSettings with exceptions, endCount } } ∧
      -1 ≤ endCount ∧ (endCount = 0 → e.repeatSettings.endCount = 0 ∧
        startTime.instant ≤ e.repeatSettings.endTime.instant) ∧
      (0 ≤ e.repeatSettings.endCount → 0 ≤ endCount ∧ endCount ≤ e.repeatSettings.endCount ∧
        (endCount = e.repeatSettings.endCount → endCount = 0)) := by
  have hwithout : ∃ exceptions, e.withoutSpringForward e.nextStartTime =
      { e with repeatSettings := { e.repeatSettings with exceptions } } := by
    rw [withoutSpringForward]
    split_ifs
    · exact ⟨_, rfl⟩
    · exact ⟨e.repeatSettings.exceptions, rfl⟩
  unfold shiftSeries at hgoes ⊢
  dsimp only at hgoes ⊢
  split_ifs at hgoes ⊢
  · obtain ⟨exceptions, heq⟩ := hwithout
    rw [heq] at hgoes ⊢
    split at hgoes
    · cases hgoes
    next repeatSettings hfirst =>
      obtain ⟨endCount, rfl, hle, hfirstEnd, hfirstCount⟩ :=
        Series.updateSeriesEnd_goesOn hfirst hcount
      dsimp only
      generalize hstart : timeDate _ _ _ = startTime at hgoes ⊢
      obtain ⟨count, hsecond, hle', hend, hsecondCount⟩ := Series.updateSeriesEnd_goesOn
        (Prod.ext rfl hgoes : Series.updateSeriesEnd _ startTime = (_, false)) hle
      refine ⟨startTime, exceptions, count, ?_, hle', fun hzero => ?_, fun hfinite => ?_⟩
      · exact congrArg (fun repeatSettings => ({ e with startTime, repeatSettings } : Event))
          hsecond
      · obtain ⟨hmid, hlast⟩ := hend hzero
        exact ⟨(hfirstEnd hmid).1, hlast⟩
      · obtain ⟨hmid, hmidLe, hmidZero⟩ := hfirstCount hfinite
        obtain ⟨hnat, hcountLe, hcountZero⟩ := hsecondCount hmid
        dsimp only at hmid hmidLe hmidZero hcountLe hcountZero
        omega
  · obtain ⟨count, hupdate, hle, hend⟩ := Series.updateSeriesEnd_goesOn
      (Prod.ext rfl hgoes : e.repeatSettings.updateSeriesEnd e.nextStartTime = (_, false)) hcount
    refine ⟨e.nextStartTime, e.repeatSettings.exceptions, count, ?_, hle, hend⟩
    exact congrArg
      (fun repeatSettings => ({ e with startTime := e.nextStartTime, repeatSettings } : Event))
      hupdate

/-- A series without end goes on without end. -/
theorem shiftSeries_infinite (hinfinite : e.repeatSettings.endCount < 0) :
    e.shiftSeries.seriesOver = false ∧
      e.shiftSeries.series.repeatSettings.endCount < 0 := by
  have hwithout : (e.withoutSpringForward e.nextStartTime).repeatSettings.endCount < 0 := by
    rw [withoutSpringForward]
    split_ifs <;> exact hinfinite
  unfold shiftSeries
  dsimp only
  split_ifs
  · rw [Series.updateSeriesEnd_infinite hwithout]
    dsimp only
    rw [Series.updateSeriesEnd_infinite hwithout]
    exact ⟨rfl, hwithout⟩
  · rw [Series.updateSeriesEnd_infinite hinfinite]
    exact ⟨rfl, hinfinite⟩

/-! ## Overlaps -/

/-- The occurrences that a series with an end can have left. -/
def stepsLeft (e : Event) : ℕ :=
  if e.repeatSettings.endCount = 0 then
    (e.repeatSettings.endTime.instant - e.startTime.instant).toNat
  else e.repeatSettings.endCount.toNat

/-- A series with an end that goes on has fewer occurrences left. -/
theorem stepsLeft_shift (hfinite : 0 ≤ e.repeatSettings.endCount)
    (hlater : e.startTime.instant < e.shiftSeries.series.startTime.instant)
    (hgoes : e.shiftSeries.seriesOver = false) :
    0 ≤ e.shiftSeries.series.repeatSettings.endCount ∧
      e.shiftSeries.series.stepsLeft < e.stepsLeft := by
  obtain ⟨startTime, exceptions, endCount, heq, -, hend, hcounts⟩ :=
    shiftSeries_goesOn hgoes (by omega)
  obtain ⟨hnat, hle, hsame⟩ := hcounts hfinite
  rw [heq] at hlater ⊢
  dsimp only at hlater
  refine ⟨hnat, ?_⟩
  by_cases hended : endCount = 0
  · obtain ⟨hcount, hlast⟩ := hend hended
    simp only [stepsLeft, hcount, hended, if_true]
    omega
  · have hcount : e.repeatSettings.endCount ≠ 0 := by omega
    simp only [stepsLeft, hcount, hended, if_false]
    omega

/-- Expanding a series with an end that moves forward comes to an end. -/
theorem expandFiniteSeries_ends (hfinite : 0 ≤ e.repeatSettings.endCount)
    (hforward : e.MovesForward) : Ends (expandFiniteSeries · e) := by
  induction hleft : e.stepsLeft using Nat.strong_induction_on generalizing e with
  | _ left ih =>
    have hlater := (hforward e (.refl e)).1
    obtain ⟨windows, hwindows⟩ : ∃ windows, ∀ fuel, expandFiniteSeries (fuel + 1) e =
        if e.shiftSeries.seriesOver then some windows
        else (expandFiniteSeries fuel e.shiftSeries.series).map (windows ++ ·) :=
      ⟨_, fun _ => rfl⟩
    cases hover : e.shiftSeries.seriesOver with
    | true => exact ends_succ 0 windows fun fuel _ => by rw [hwindows, if_pos hover]
    | false =>
      obtain ⟨hfinite', hlt⟩ := stepsLeft_shift hfinite (hlater hover) hover
      obtain ⟨others, n, hn⟩ := ih _ (hleft ▸ hlt) hfinite' hforward.shift rfl
      refine ends_succ n (windows ++ others) fun fuel hfuel => ?_
      have hothers := hn fuel hfuel
      dsimp only at hothers
      rw [hwindows, if_neg (by simp [hover]), hothers]
      rfl

/-- One step of the comparison. -/
theorem singleWindowOverlapsInfiniteSeries_succ (window : TimeWindow) (series : Event) (fuel : ℕ) :
    singleWindowOverlapsInfiniteSeries window (fuel + 1) series =
      if series.startTime.after (window.start.add window.dur) then some false
      else if !series.hasException series.startTime &&
          windowsOverlap window series.toTimeWindow then some true
      else
        match series.shiftSeries.springForwardEvent with
        | some springForwardEvent =>
          if springForwardEvent.startTime.after (window.start.add window.dur) then some false
          else if !series.shiftSeries.series.hasException springForwardEvent.startTime &&
              windowsOverlap window series.shiftSeries.series.toTimeWindow then some true
          else singleWindowOverlapsInfiniteSeries window fuel series.shiftSeries.series
        | none => singleWindowOverlapsInfiniteSeries window fuel series.shiftSeries.series :=
  (rfl)

/-- Comparing a window with a series gives a result at once, or is comparing it with the series
at its next occurrence. A series that starts after the window has passed it. -/
theorem singleWindowOverlaps_succ (window : TimeWindow) (series : Event) :
    (∃ hit, ∀ fuel, singleWindowOverlapsInfiniteSeries window (fuel + 1) series = some hit) ∨
    (series.startTime.after (window.start.add window.dur) = false ∧
      ∀ fuel, singleWindowOverlapsInfiniteSeries window (fuel + 1) series =
        singleWindowOverlapsInfiniteSeries window fuel series.shiftSeries.series) := by
  simp only [singleWindowOverlapsInfiniteSeries_succ]
  split_ifs with hpassed
  · exact .inl ⟨false, fun _ => rfl⟩
  · exact .inl ⟨true, fun _ => rfl⟩
  · rw [Bool.not_eq_true] at hpassed
    cases series.shiftSeries.springForwardEvent with
    | none => exact .inr ⟨hpassed, fun _ => rfl⟩
    | some split =>
      dsimp only
      split_ifs
      · exact .inl ⟨false, fun _ => rfl⟩
      · exact .inl ⟨true, fun _ => rfl⟩
      · exact .inr ⟨hpassed, fun _ => rfl⟩

/-- Comparing a window with a series without end that moves forward comes to an end: the series
passes the window. -/
theorem singleWindowOverlaps_ends (window : TimeWindow)
    (hinfinite : series.repeatSettings.endCount < 0) (hforward : series.MovesForward) :
    Ends (singleWindowOverlapsInfiniteSeries window · series) := by
  obtain ⟨left, hleft⟩ : ∃ left : ℕ, (window.start.add window.dur).instant <
      series.startTime.instant + left :=
    ⟨((window.start.add window.dur).instant + 1 - series.startTime.instant).toNat, by omega⟩
  induction left generalizing series with
  | zero =>
    rcases singleWindowOverlaps_succ window series with ⟨hit, hhit⟩ | ⟨hnot, -⟩
    · exact ends_succ 0 hit fun fuel _ => hhit fuel
    · rw [← Bool.not_eq_true, Time.after_iff] at hnot
      omega
  | succ left ih =>
    rcases singleWindowOverlaps_succ window series with ⟨hit, hhit⟩ | ⟨-, hnext⟩
    · exact ends_succ 0 hit fun fuel _ => hhit fuel
    · obtain ⟨hgoes, hinfinite'⟩ := shiftSeries_infinite hinfinite
      have hlater := (hforward series (.refl series)).1 hgoes
      obtain ⟨hit, n, hn⟩ := ih hinfinite' hforward.shift (by omega)
      exact ends_succ n hit fun fuel hfuel => (hnext fuel).trans (hn fuel hfuel)

/-- Comparing a series with an end with another one comes to an end where both move forward. -/
theorem overlaps_ends {e1 e2 : Event} (hfinite : 0 ≤ e1.repeatSettings.endCount)
    (hforward1 : e1.MovesForward) (hforward2 : e2.MovesForward) : Ends (overlaps · e1 e2) := by
  obtain ⟨windows, n, hn⟩ := expandFiniteSeries_ends hfinite hforward1
  have hfirst : e1.repeatSettings.isFiniteSeries = true := by
    simpa [Series.isFiniteSeries] using hfinite
  by_cases hsecond : 0 ≤ e2.repeatSettings.endCount
  · obtain ⟨others, m, hm⟩ := expandFiniteSeries_ends hsecond hforward2
    have hsecond' : e2.repeatSettings.isFiniteSeries = true := by
      simpa [Series.isFiniteSeries] using hsecond
    refine ⟨listOverlapsList windows others, max n m, fun fuel hfuel => ?_⟩
    have hwindows := hn fuel (by omega)
    have hothers := hm fuel (by omega)
    dsimp only at hwindows hothers ⊢
    rw [overlaps, hfirst, hsecond', if_pos (by rfl), hwindows, hothers]
  · have hsecond' : e2.repeatSettings.isFiniteSeries = false := by
      simpa [Series.isFiniteSeries] using hsecond
    have hwindow := fun window (_ : window ∈ windows) =>
      singleWindowOverlaps_ends window (not_le.mp hsecond) hforward2
    obtain ⟨hit, m, hm⟩ := anyM_ends hwindow
    refine ⟨hit, max n m, fun fuel hfuel => ?_⟩
    have hwindows := hn fuel (by omega)
    have hhit := hm fuel (by omega)
    dsimp only at hwindows hhit ⊢
    rw [overlaps, hfirst, hsecond', if_neg (by simp), if_neg (by simp), if_pos rfl,
      finiteSeriesOverlapsInfiniteSeries, hwindows]
    exact hhit

end Event

/-! ## Peelings -/

/-- Trimming an occurrence in the skipped hour comes to an end where all move forward. -/
theorem trimSpringForward_ends {e : Event} {eList : EventList}
    (hfinite : 0 ≤ e.repeatSettings.endCount) (hforward : e.MovesForward)
    (hall : ∀ x ∈ eList, x.MovesForward) : Ends (EventList.trimSpringForward · e eList) := by
  induction eList generalizing e with
  | nil => exact ⟨some e, 0, fun _ _ => rfl⟩
  | cons x rest ih =>
    obtain ⟨hx, hrest⟩ := List.forall_mem_cons.mp hall
    obtain ⟨hit, n, hn⟩ := Event.overlaps_ends hfinite hforward hx
    cases hit with
    | false =>
      obtain ⟨trimmed, m, hm⟩ := ih hfinite hforward hrest
      refine ⟨trimmed, max n m, fun fuel hfuel => ?_⟩
      have hhit := hn fuel (by omega)
      have htrimmed := hm fuel (by omega)
      dsimp only at hhit htrimmed ⊢
      rw [EventList.trimSpringForward, hhit]
      exact htrimmed
    | true =>
      by_cases hbefore : e.startTime.before x.startTime = true
      · obtain ⟨trimmed, m, hm⟩ := ih (e := e.retagged e.id e.repeatSettings.id
          (UInt64.ofInt ((x.startTime.instant - e.startTime.instant) / minute))) hfinite
          (hforward.retagged _ _ _) hrest
        refine ⟨trimmed, max n m, fun fuel hfuel => ?_⟩
        have hhit := hn fuel (by omega)
        have htrimmed := hm fuel (by omega)
        dsimp only at hhit htrimmed ⊢
        rw [EventList.trimSpringForward, hhit]
        dsimp only
        rw [if_pos hbefore]
        exact htrimmed
      · refine ⟨none, n, fun fuel hfuel => ?_⟩
        have hhit := hn fuel hfuel
        dsimp only at hhit ⊢
        rw [EventList.trimSpringForward, hhit]
        dsimp only
        rw [if_neg hbefore]

/-- An occurrence that is split from a series is its only one. -/
theorem Event.split_endCount {e split : Event}
    (hsplit : e.shiftSeries.springForwardEvent = some split) :
    split.repeatSettings.endCount = 1 := by
  rcases e.shiftSeries_exceptions with ⟨hnone, -⟩ | ⟨heq, -⟩
  · rw [hnone] at hsplit
    cases hsplit
  · rw [heq, Option.some.injEq] at hsplit
    rw [← hsplit, splitSpringForward]
    split_ifs
    · rw [Series.addException]
      split_ifs <;> rfl
    · rfl

namespace Schedule

variable {sched : Schedule} {series : Event} {rest : EventList} {now : ℤ}

/-- Rescheduling an occurrence in the skipped hour comes to an end where it has an end and all
events move forward. -/
theorem rescheduleSpringForward_ends {split : Event} (hfinite : 0 ≤ split.repeatSettings.endCount)
    (hforward : split.MovesForward) (hall : ∀ x ∈ sched.scheduledEvents, x.MovesForward) :
    Ends (sched.rescheduleSpringForward · (some split)) := by
  simp only [rescheduleSpringForward, assignIdsToPeeledEvent]
  cases generateId sched.cache sched.randomSrc with
  | mk id src =>
    cases id with
    | none => exact ⟨{ sched with randomSrc := src }, 0, fun _ _ => rfl⟩
    | some id =>
      have htagged : (split.withId id).MovesForward := hforward.retagged id id split.duration
      obtain ⟨trimmed, n, hn⟩ := trimSpringForward_ends (e := split.withId id) hfinite htagged hall
      cases trimmed with
      | none =>
        refine ⟨{ sched with
          cache := (insert id sched.cache).erase id
          randomSrc := src }, n, fun fuel hfuel => ?_⟩
        have htrimmed := hn fuel hfuel
        dsimp only at htrimmed ⊢
        rw [EventList.handleSpringForwardEvent, htrimmed]
        rfl
      | some trimmed =>
        refine ⟨{ sched with
          scheduledEvents := sched.scheduledEvents.add trimmed
          cache := insert id sched.cache
          randomSrc := src }, n, fun fuel hfuel => ?_⟩
        have htrimmed := hn fuel hfuel
        dsimp only at htrimmed ⊢
        rw [EventList.handleSpringForwardEvent, htrimmed]
        rfl

/-- Peeling an occurrence comes to an end where the series move forward. -/
theorem peelOccurrence_ends (hforward : ∀ e ∈ series :: rest, e.MovesForward) :
    Ends (sched.peelOccurrence · series rest) := by
  obtain ⟨hseries, hrest⟩ := List.forall_mem_cons.mp hforward
  have hlisted : ∀ x ∈ series.shiftSeries.series :: rest, x.MovesForward :=
    List.forall_mem_cons.mpr ⟨hseries.shift, hrest⟩
  obtain ⟨listed, n, hn⟩ : Ends fun fuel =>
      ({ sched with scheduledEvents := series.shiftSeries.series :: rest } :
        Schedule).rescheduleSpringForward fuel series.shiftSeries.springForwardEvent := by
    cases hsplit : series.shiftSeries.springForwardEvent with
    | none => exact ⟨_, 0, fun _ _ => rfl⟩
    | some split =>
      have hcount := Event.split_endCount hsplit
      exact rescheduleSpringForward_ends (by omega) (hseries.split hsplit) hlisted
  refine ⟨listed.removeSeries series.shiftSeries, n, fun fuel hfuel => ?_⟩
  have hlist := hn fuel hfuel
  dsimp only at hlist ⊢
  rw [peelOccurrence, hlist]
  rfl

end Schedule

/-! ## Due exceptions -/

namespace Event

variable {e split : Event} {now : ℤ}

/-- The exceptions of a series that are due, from its start on. -/
def dueExceptions (now : ℤ) (e : Event) : ℕ :=
  e.repeatSettings.exceptions.countP fun x => e.startTime.instant ≤ x.instant ∧ x.instant ≤ now

/-- The exceptions that are due after an instant. -/
def dueAfter (now instant : ℤ) (exceptions : List Time) : ℕ :=
  exceptions.countP fun x => instant < x.instant ∧ x.instant ≤ now

/-- The exception at the start of a series that is due is not after its start. -/
theorem dueAfter_lt (hexception : e.hasException e.startTime = true)
    (hdue : e.startTime.instant ≤ now) :
    dueAfter now e.startTime.instant e.repeatSettings.exceptions < e.dueExceptions now := by
  obtain ⟨x, hx, hequal⟩ := List.any_eq_true.mp hexception
  rw [Time.equal, decide_eq_true_eq] at hequal
  obtain ⟨before, after, hsplit⟩ := List.append_of_mem hx
  have hle : ∀ exceptions : List Time, dueAfter now e.startTime.instant exceptions ≤
      exceptions.countP fun x => e.startTime.instant ≤ x.instant ∧ x.instant ≤ now := by
    intro exceptions
    refine List.countP_mono_left fun y _ hy => ?_
    simp only [decide_eq_true_eq] at hy ⊢
    omega
  have hbefore := hle before
  have hafter := hle after
  simp only [dueAfter] at hbefore hafter
  simp only [dueExceptions, dueAfter, hsplit, List.countP_append, List.countP_cons, hequal,
    lt_irrefl, le_refl, hdue, false_and, true_and, decide_false, decide_true, Bool.false_eq_true,
    if_true, if_false]
  omega

/-- The due exceptions of a series that has moved on are after its former start. -/
theorem dueExceptions_le (now : ℤ) {series : Event} {instant : ℤ}
    (hlater : instant < series.startTime.instant) :
    series.dueExceptions now ≤ dueAfter now instant series.repeatSettings.exceptions := by
  refine List.countP_mono_left fun x _ hx => ?_
  simp only [decide_eq_true_eq] at hx ⊢
  omega

/-- An exception of an occurrence in the skipped hour moves from the series to it. -/
theorem dueExceptions_split (now : ℤ) (hsplit : e.shiftSeries.springForwardEvent = some split)
    (hlater : e.startTime.instant < split.startTime.instant) :
    split.dueExceptions now +
        dueAfter now e.startTime.instant e.shiftSeries.series.repeatSettings.exceptions ≤
      dueAfter now e.startTime.instant e.repeatSettings.exceptions := by
  rcases e.shiftSeries_exceptions with ⟨hnone, -⟩ | ⟨heq, hexceptions⟩
  · rw [hnone] at hsplit
    cases hsplit
  rw [heq, Option.some.injEq] at hsplit
  rw [hexceptions]
  subst hsplit
  by_cases hexception : e.hasException e.nextStartTime = true
  · obtain ⟨x, hx, hequal⟩ := List.any_eq_true.mp hexception
    have hfound : ∃ x ∈ e.repeatSettings.exceptions, e.nextStartTime.equal x = true := by
      refine ⟨x, hx, ?_⟩
      rw [Time.equal, decide_eq_true_eq] at hequal ⊢
      exact hequal.symm
    obtain ⟨x, hx, hequal⟩ := hfound
    obtain ⟨y, before, after, -, hy, hparts, herased⟩ := List.exists_of_eraseP hx hequal
    rw [Time.equal, decide_eq_true_eq] at hy
    have hstart : (e.splitSpringForward e.nextStartTime).startTime = e.nextStartTime := by
      rw [splitSpringForward, if_pos hexception]
    have hown : (e.splitSpringForward e.nextStartTime).repeatSettings.exceptions =
        [e.nextStartTime] := by
      rw [splitSpringForward, if_pos hexception]
      rfl
    have hleft : (e.withoutSpringForward e.nextStartTime).repeatSettings.exceptions =
        before ++ after := by
      rw [withoutSpringForward, if_pos hexception]
      exact herased
    rw [hstart] at hlater
    rw [hleft, dueExceptions, hown, hstart, dueAfter, dueAfter, hparts]
    simp only [List.countP_append, List.countP_cons, List.countP_nil, ← hy, hlater, le_refl,
      true_and]
    omega
  · have hown : (e.splitSpringForward e.nextStartTime).repeatSettings.exceptions = [] := by
      rw [splitSpringForward, if_neg hexception]
      rfl
    rw [dueExceptions, hown, withoutSpringForward, if_neg hexception, List.countP_nil, zero_add]

end Event

namespace Schedule

variable {sched mid : Schedule} {series : Event} {rest : EventList} {now : ℤ} {fuel : ℕ}

/-- The due exceptions of all events of a list. -/
def dueExceptions (now : ℤ) (eList : EventList) : ℕ := (eList.map (·.dueExceptions now)).sum

theorem dueExceptions_perm {eList1 eList2 : EventList} (h : eList1.Perm eList2) :
    dueExceptions now eList1 = dueExceptions now eList2 := (h.map _).sum_eq

/-- Peeling an exception in order leaves fewer that are due. -/
theorem PeelsInOrder.dueExceptions_lt (order : sched.PeelsInOrder now fuel series rest)
    (h : sched.peelOccurrence fuel series rest = some mid) (hforward : series.MovesForward)
    (hexception : series.hasException series.startTime = true)
    (hdue : series.startTime.instant ≤ now) :
    dueExceptions now mid.scheduledEvents < dueExceptions now (series :: rest) := by
  have hfewer := Event.dueAfter_lt hexception hdue
  obtain ⟨hgoesOn, hsplits⟩ := hforward series (.refl series)
  have hcons : ∀ e eList, dueExceptions now (e :: eList) =
      e.dueExceptions now + dueExceptions now eList := fun _ _ => List.sum_cons
  have hshifted : Event.dueAfter now series.startTime.instant
      series.shiftSeries.series.repeatSettings.exceptions ≤
        Event.dueAfter now series.startTime.instant series.repeatSettings.exceptions := by
    rcases series.shiftSeries_exceptions with ⟨-, heq⟩ | ⟨hsplit, -⟩
    · rw [heq]
    · have hmoved := Event.dueExceptions_split now hsplit (hsplits _ hsplit)
      omega
  rw [peelOccurrence_scheduledEvents h, hcons]
  cases hrescheduled : sched.rescheduled fuel series rest with
  | none =>
    have hlist : sched.relisted fuel series rest = series.shiftSeries.series :: rest := by
      unfold relisted
      rw [hrescheduled]
    rw [hlist]
    split_ifs with hover
    · rw [List.tail_cons]
      omega
    · have hmoved := Event.dueExceptions_le now (hgoesOn (by simpa using hover))
      rw [hcons]
      omega
  | some tagged =>
    obtain ⟨split, id, seriesId, duration, hsplit, htagged⟩ := rescheduled_eq hrescheduled
    have hmoved := Event.dueExceptions_split now hsplit (hsplits split hsplit)
    have hown : tagged.dueExceptions now = split.dueExceptions now := by rw [htagged]; rfl
    have hlist : sched.relisted fuel series rest =
        EventList.add (series.shiftSeries.series :: rest) tagged := by
      unfold relisted
      rw [hrescheduled]
    have hperm := EventList.perm_add (series.shiftSeries.series :: rest) tagged
    split_ifs with hover
    · have hback := EventList.perm_add rest tagged
      rw [hlist, order.add_eq hrescheduled hover, List.tail_cons, dueExceptions_perm hback, hcons]
      omega
    · have hlater := Event.dueExceptions_le now (hgoesOn (by simpa using hover))
      rw [hlist, dueExceptions_perm hperm, hcons, hcons]
      omega

/-- A check comes to an end where the scheduled series move forward and their occurrences are
peeled in order: the exceptions at the starts of the series that it peels are due, and each
peeling leaves fewer. -/
theorem check_ends {enough : ℕ} (hforward : ∀ e ∈ sched.scheduledEvents, e.MovesForward)
    (horder : ∀ fuel, enough ≤ fuel → sched.ChecksInOrder now fuel) :
    Ends (check now · sched) := by
  induction hleft : dueExceptions now sched.scheduledEvents using Nat.strong_induction_on
    generalizing sched enough with
  | _ left ih =>
    by_cases hactive : (sched.endFinished now).1.activeEvent.isSome = true
    · refine ends_succ 0 ((sched.endFinished now).1, false) fun fuel _ => ?_
      rw [check, if_pos hactive]
    have hlist := endFinished_scheduledEvents sched now
    have hnone : (sched.endFinished now).1.activeEvent = none := by simpa using hactive
    have hcheck : ∀ fuel, check now (fuel + 1) sched =
        startNext (check now fuel) now fuel (sched.endFinished now).1
          (sched.endFinished now).2 := by
      intro fuel
      rw [check, if_neg hactive]
    cases hevents : sched.scheduledEvents with
    | nil =>
      refine ends_succ 0 (sched.endFinished now) fun fuel _ => ?_
      rw [hcheck, startNext, hlist, hevents]
    | cons series rest =>
      by_cases hready : series.readyToStart now = true
      · rw [hevents] at hforward
        obtain ⟨mid, n, hn⟩ := (sched.endFinished now).1.peelOccurrence_ends hforward
        have hstart : ∀ fuel, n ≤ fuel → check now (fuel + 1) sched =
            startPeeled (check now fuel) series mid := by
          intro fuel hfuel
          have hpeel := hn fuel hfuel
          dsimp only at hpeel
          rw [hcheck, startNext, hlist, hevents]
          dsimp only
          rw [if_pos hready, hpeel, Option.bind_some]
        by_cases hexception : series.shiftSeries.series.hasException series.startTime = true
        · have hown := hexception
          rw [Event.shiftSeries_hasException] at hown
          have hmid : ∀ fuel, max enough n ≤ fuel →
              (sched.endFinished now).1.PeelsInOrder now fuel series rest ∧
                mid.ChecksInOrder now fuel := by
            intro fuel hfuel
            obtain ⟨hpeels, hnext⟩ := horder (fuel + 1) (by omega) hnone series rest hevents hready
            have hagain := hnext mid (hn fuel (by omega))
            rw [if_pos hown] at hagain
            exact ⟨hpeels, hagain⟩
          obtain ⟨hpeels, -⟩ := hmid _ le_rfl
          have hpeel := hn (max enough n) (by omega)
          have hdue : series.startTime.instant ≤ now := by
            simpa [Event.readyToStart] using hready
          have hfewer := hpeels.dueExceptions_lt hpeel (hforward series List.mem_cons_self) hown hdue
          rw [hevents] at hleft
          obtain ⟨result, m, hm⟩ := ih _ (hleft ▸ hfewer) (hpeels.forward hpeel hforward)
            (fun fuel hfuel => (hmid fuel hfuel).2) rfl
          refine ends_succ (max n m) (result.1, true) fun fuel hfuel => ?_
          have hresult := hm fuel (by omega)
          dsimp only at hresult ⊢
          rw [hstart fuel (by omega), startPeeled, if_pos hexception, hresult]
          rfl
        · refine ends_succ n ({ (mid.assignIdsToPeeledEvent series.oneOff).1 with
            activeEvent := (mid.assignIdsToPeeledEvent series.oneOff).2 }, true) fun fuel hfuel => ?_
          dsimp only
          rw [hstart fuel hfuel, startPeeled, if_neg hexception]
      · refine ends_succ 0 (sched.endFinished now) fun fuel _ => ?_
        rw [hcheck, startNext, hlist, hevents]
        dsimp only
        rw [if_neg hready]

end Schedule

end HybridOs.Scheduler
