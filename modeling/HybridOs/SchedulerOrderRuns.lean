import HybridOs.SchedulerReturns

/-!
# The order of the scheduled events along runs

Every edit sorts the list that it leaves, and deleting events does not disturb it. A run
whose checks peel in order and whose prunings keep the exceptions that are still scheduled
keeps the list sorted, and each of its checks comes to an end and starts the earliest due
occurrence.
-/

namespace HybridOs.Scheduler

namespace Schedule

/-- Organizing events keeps the scheduled events sorted. -/
theorem sorted_keptByOrganizing (ctx : Context) : KeptByOrganizing ctx (fun _ => True) Sorted where
  shift _ _ _ _ _ := trivial
  split _ _ _ _ := trivial
  saveExpired sched e _ hsorted := by
    have hlist := assignIdsToPeeledEvent_scheduledEvents sched e.oneOff
    rw [Sorted, ← hlist] at hsorted
    rw [saveExpired]
    split
    all_goals
      rename_i hassign
      rw [hassign] at hsorted
      exact hsorted
  retroActive _ _ _ hsorted := hsorted
  update _ _ _ _ hsorted _ := hsorted
  scheduled sched e _ _ := EventList.pairwise_add sched.scheduledEvents e

/-- Pruning drops no exception of a scheduled event at its own start. -/
def PrunesInOrder (now : ℤ) (sched : Schedule) : Prop :=
  ∀ loc, sched.timezone = some loc → ∀ e ∈ sched.scheduledEvents,
    (e.repeatSettings.deleteExceptionsBefore (getMidnightInNDays 0 ⟨now, loc⟩)).1.hasException
      e.startTime = e.hasException e.startTime

/-- Pruning leaves sorted events sorted, where it drops no exception at a start. -/
theorem Sorted.prune {now : ℤ} {sched : Schedule} (h : sched.Sorted)
    (hkept : sched.PrunesInOrder now) : (sched.pruneOldEventsAndExceptions now).1.Sorted := by
  unfold pruneOldEventsAndExceptions
  split
  · exact h
  next loc hloc =>
    have hdeleted : ∀ (old : EventList) (mid : Schedule),
        (old.foldl (fun sched e => sched.deleteEventWithId e.id) mid).scheduledEvents.Sublist
          mid.scheduledEvents := by
      intro old
      induction old with
      | nil => exact fun mid => List.Sublist.refl _
      | cons e rest ih => exact fun mid => (ih _).trans (List.eraseP_sublist ..)
    have hsub := hdeleted (sched.oldEvents (getMidnightInNDays 0 ⟨now, loc⟩)) sched
    have hpairwise := List.Pairwise.sublist hsub h
    have hkeys := hkept loc hloc
    simp only [Sorted, List.pairwise_map]
    refine hpairwise.imp_of_mem fun {a b} ha hb hab => ?_
    have hkeyA := hkeys a (hsub.subset ha)
    have hkeyB := hkeys b (hsub.subset hb)
    rw [notAfter_iff] at hab ⊢
    simp only [sortKey, Event.hasException, hkeyA, hkeyB] at hab ⊢
    exact hab

end Schedule

namespace Process

variable {fuel : ℕ} {proc : Process}

/-- An overwrite leaves sorted events sorted. -/
theorem overwrite_sorted {ctx : Context} {inputs : EventList} {cache : IdCache} {external : Bool}
    {proc' : Process} {returned : Return (Except EditError Unit)} (hsorted : proc.schedule.Sorted)
    (h : proc.overwrite ctx fuel inputs cache external = some (proc', returned)) :
    proc'.schedule.Sorted := by
  rcases overwrite_cases h with ⟨rfl, -⟩ | ⟨valid, schedule, result, -, hintegrate, hschedule⟩
  · exact hsorted
  · have hwiped : (proc.wiped cache).Sorted := List.Pairwise.nil
    have hmid := (Schedule.sorted_keptByOrganizing ctx).integrateEventList (fun _ _ => trivial)
      hwiped hintegrate
    rw [hschedule]
    split_ifs <;> exact hmid

/-- A request leaves sorted events sorted. -/
theorem Handled.sorted {ctx : Context} {proc' : Process} {request : EditRequest}
    (h : Handled ctx fuel proc request proc') (hsorted : proc.schedule.Sorted) :
    proc'.schedule.Sorted := by
  cases h with
  | unchanged src => exact hsorted
  | cleared => exact List.Pairwise.nil
  | edited _ _ overwrites => exact overwrite_sorted (by exact hsorted) overwrites

/-- What an operation on a schedule meets: at its checks without a running event the scheduled
series move forward and, in as many steps as it takes, are peeled in order, and its prunings
drop no exception of a scheduled event at its own start. -/
def InOrder (proc : Process) (input : Input) : Prop :=
  match input.operation with
  | .check => (proc.schedule.endFinished input.ctx.now).1.activeEvent = none →
      (∀ e ∈ proc.schedule.scheduledEvents, e.MovesForward) ∧
      ∀ fuel, input.fuel ≤ fuel → proc.schedule.ChecksInOrder input.ctx.now fuel
  | .prune => proc.schedule.PrunesInOrder input.ctx.now
  | .edit _ => True

/-- A check at which no active event is still running comes to an end, starts the earliest due
occurrence of all scheduled series, removes only series that have ended, and leaves no due event
behind a series that lies in the future. -/
def StartsEarliest (proc : Process) (input : Input) : Prop :=
  (proc.schedule.endFinished input.ctx.now).1.activeEvent = none →
    Ends (Schedule.check input.ctx.now · proc.schedule) ∧
    ∀ fuel schedule changed, input.fuel ≤ fuel →
      Schedule.check input.ctx.now fuel proc.schedule = some (schedule, changed) →
        Schedule.Activates input.ctx.now proc.schedule.scheduledEvents schedule ∧
        schedule.scheduledEvents.Pairwise fun e1 e2 =>
          e2.readyToStart input.ctx.now = true → e1.readyToStart input.ctx.now = true

/-- A check leaves sorted events sorted where it peels in order. -/
theorem check_sorted {now : ℤ} {sched sched' : Schedule} {changed : Bool} (hsorted : sched.Sorted)
    (horder : (sched.endFinished now).1.activeEvent = none →
      (∀ e ∈ sched.scheduledEvents, e.MovesForward) ∧ sched.ChecksInOrder now fuel)
    (h : sched.check now fuel = some (sched', changed)) : sched'.Sorted := by
  cases hactive : (sched.endFinished now).1.activeEvent with
  | none =>
    obtain ⟨hforward, hpeels⟩ := horder hactive
    exact (Schedule.check_activates hsorted hactive hforward hpeels h).1
  | some active =>
    cases fuel with
    | zero => cases h
    | succ fuel =>
      rw [Schedule.check, if_pos (by rw [hactive]; rfl)] at h
      cases h
      rw [Schedule.Sorted, Schedule.endFinished_scheduledEvents]
      exact hsorted

/-- One operation in order keeps the events sorted. -/
theorem step_sorted (proc : Process) (input : Input) (proc' : Process)
    (hsorted : proc.schedule.Sorted) (horder : proc.InOrder input)
    (h : proc.step input = .ok proc') : proc'.schedule.Sorted := by
  rw [InOrder] at horder
  rw [step] at h
  split at h
  next hcheck =>
    rw [hcheck] at horder
    split at h
    · cases h
    next schedule changed hchecked =>
      cases h
      refine check_sorted hsorted (fun hactive => ?_) hchecked
      obtain ⟨hforward, hpeels⟩ := horder hactive
      exact ⟨hforward, hpeels input.fuel le_rfl⟩
  next hprune =>
    rw [hprune] at horder
    cases h
    exact hsorted.prune horder
  next request _ =>
    split at h
    · cases h
    next proc' returned hhandle =>
      cases h
      exact (handle_handled hhandle).sorted hsorted

/-- A check in order of sorted events starts the earliest due occurrence. -/
theorem startsEarliest_of_inOrder {input : Input} (hsorted : proc.schedule.Sorted)
    (hcheck : input.operation = .check) (horder : proc.InOrder input) :
    proc.StartsEarliest input := by
  rw [InOrder, hcheck] at horder
  intro hactive
  obtain ⟨hforward, hpeels⟩ := horder hactive
  refine ⟨Schedule.check_ends hforward hpeels, fun fuel schedule changed hfuel hchecked => ?_⟩
  obtain ⟨hsorted', hactivates⟩ :=
    Schedule.check_activates hsorted hactive hforward (hpeels fuel hfuel) hchecked
  refine ⟨hactivates, hsorted'.imp fun {e1 e2} hnotAfter hready => ?_⟩
  have hstart := hnotAfter.instant_le
  simp only [Event.readyToStart, decide_eq_true_eq] at hready ⊢
  omega

/-- Along every run whose operations are in order, the scheduled events are sorted before each
operation and at the end, and every check starts the earliest due occurrence. -/
theorem run_sorted (id : String) (timezone : Option Location) (src : RandomSrc) (modified : ℤ)
    (inputs : List Input)
    (horder : CheckedRun.Guarded step InOrder (newSchedule id timezone src modified) inputs) :
    CheckedRun.Guarded step (fun proc input => proc.schedule.Sorted ∧
        (input.operation = .check → proc.StartsEarliest input))
      (newSchedule id timezone src modified) inputs ∧
    ∀ proc', CheckedRun.run step (newSchedule id timezone src modified) inputs = .ok proc' →
      proc'.schedule.Sorted := by
  have hnew : (newSchedule id timezone src modified).schedule.Sorted := List.Pairwise.nil
  refine ⟨?_, fun proc' => CheckedRun.run_invariant step_sorted hnew horder⟩
  refine CheckedRun.guarded_law (fun proc => proc.schedule.Sorted) ?_ hnew horder
  intro proc input hsorted hinOrder
  exact ⟨⟨hsorted, fun hcheck => startsEarliest_of_inOrder hsorted hcheck hinOrder⟩,
    fun proc' => step_sorted proc input proc' hsorted hinOrder⟩

/-! ## Daily series -/

/-- A day on which one mode has no variables. -/
def quietDay (now : ℤ) : Context :=
  ⟨now, fun mode => if mode = "default" then some [] else none, true⟩

/-- An hour of every day, without end. -/
def everyDayAt (start : ℤ) : Event where
  id := 0
  startTime := ⟨start, utc⟩
  duration := 60
  mode := "default"
  variableMap := ∅
  repeatSettings := { newNonRepeatingSeries with endCount := -1 }

/-- An empty schedule in universal time. -/
def emptySchedule : Process := newSchedule "site" (some utc) UInt16.ofNat 0

/-- A schedule is set to a list of events, and is checked at the given time. -/
def setAndCheck (eList : EventList) (now : ℤ) : List Input :=
  [⟨quietDay 0, 9, .edit (.fullScheduleSet eList)⟩, ⟨quietDay now, 9, .check⟩]

/-- A series is peeled in order where the clocks never change and it stays first. -/
theorem checksInOrder_of_fixed {now offset : ℤ} {sched : Schedule} {series : Event}
    {rest : EventList} (hevents : sched.scheduledEvents = series :: rest)
    (hfixed : series.startTime.loc.Fixed offset)
    (hstays : ∀ e ∈ rest, NotAfter series.shiftSeries.series e)
    (hkept : series.hasException series.startTime = false)
    (hfree : ∃ id, id ∉ (sched.endFinished now).1.cache) : sched.ChecksInOrder now (fuel + 1) := by
  intro hactive first others hhead hready
  obtain ⟨hnone, -⟩ := Event.shiftSeries_of_fixed hfixed
  rw [hevents, List.cons.injEq] at hhead
  obtain ⟨rfl, rfl⟩ := hhead
  have hrescheduled : (sched.endFinished now).1.rescheduled fuel series rest = none := by
    rw [Schedule.rescheduled, hnone]
    rfl
  refine ⟨⟨fun _ _ => hstays, ?_, ?_⟩, fun mid hmid => ?_⟩
  · intro split hsplit
    rw [hrescheduled] at hsplit
    cases hsplit
  · intro _ hexception
    rw [hkept] at hexception
    cases hexception
  · rw [hkept, if_neg (by simp)]
    obtain ⟨id, hid⟩ := hfree
    refine ⟨id, ?_⟩
    rw [Schedule.peelOccurrence, hnone, Schedule.rescheduleSpringForward, Option.map_some,
      Option.some.injEq] at hmid
    rw [← hmid, Schedule.removeSeries]
    split_ifs
    · exact mt Finset.mem_of_mem_erase hid
    · exact hid

/-- The check at the start of the first of two daily series shifts it to the next day and
leaves it in front of the other. -/
theorem setAndCheck_starts :
    (CheckedRun.run step emptySchedule
        (setAndCheck [everyDayAt (8 * hour), everyDayAt (9 * hour)] (8 * hour))).toOption.map
      (·.schedule.scheduledEvents.map (·.startTime.instant)) = some [32 * hour, 9 * hour] := by
  decide +kernel

/-- Not every run from an empty schedule keeps the scheduled events sorted. -/
theorem setAndCheck_unsorted : ¬ ∀ inputs proc',
    CheckedRun.run step emptySchedule inputs = .ok proc' → proc'.schedule.Sorted := by
  intro h
  obtain ⟨proc', hrun, hstarts⟩ := Option.map_eq_some_iff.mp setAndCheck_starts
  have hsorted := h _ proc' (CheckedRun.ok_of_toOption hrun)
  have hpairwise : (proc'.schedule.scheduledEvents.map (·.startTime.instant)).Pairwise (· ≤ ·) :=
    List.pairwise_map.mpr (hsorted.imp NotAfter.instant_le)
  rw [hstarts] at hpairwise
  exact absurd hpairwise (by decide)

/-- Two daily series, of which the second starts two days after the first. -/
def dailyPair : EventList := [everyDayAt (8 * hour), everyDayAt (57 * hour)]

/-- The two daily series under the identifiers that they get. -/
def taggedPair : EventList := [everyDayAt (8 * hour), (everyDayAt (57 * hour)).withId 1]

/-- The first series passes the validation as it is. -/
theorem firstDaily_valid : (everyDayAt (8 * hour)).validate (some utc)
    (quietDay 0).mapOfVariables = .ok (everyDayAt (8 * hour)) := by
  have hshort : ¬ 24 * hour ≤ (everyDayAt (8 * hour)).timeDuration := by decide
  rw [Event.validate, Event.validateDuration, if_neg hshort]
  rfl

/-- The second series passes the validation as it is. -/
theorem secondDaily_valid : ((everyDayAt (57 * hour)).withId 1).validate (some utc)
    (quietDay 0).mapOfVariables = .ok ((everyDayAt (57 * hour)).withId 1) := by
  have hshort : ¬ 24 * hour ≤ ((everyDayAt (57 * hour)).withId 1).timeDuration := by decide
  rw [Event.validate, Event.validateDuration, if_neg hshort]
  rfl

/-- The two series pass it as they are. -/
theorem taggedPair_valid : taggedPair.validate 9 (some utc) (quietDay 0).mapOfVariables =
    some (.ok taggedPair) := by
  have heach : taggedPair.mapM (Event.validate (some utc) (quietDay 0).mapOfVariables) =
      .ok taggedPair := CheckedRun.mapM_ok_iff.mpr
    (.cons firstDaily_valid (.cons secondDaily_valid .nil))
  have hapart : taggedPair.hasOverlaps 9 = some false := by decide +kernel
  rw [EventList.validate, heach]
  dsimp only
  rw [hapart]
  rfl

set_option maxRecDepth 4000 in
/-- Setting the empty schedule to two daily series schedules them. -/
theorem setDaily :
    step emptySchedule ⟨quietDay 0, 9, .edit (.fullScheduleSet dailyPair)⟩ =
      .ok { emptySchedule with schedule := { emptySchedule.schedule with
        scheduledEvents := taggedPair
        cache := {1, 0}
        randomSrc := fun n => UInt16.ofNat (n + 2) } } := rfl

/-- The first of two daily series is peeled in order until the second starts. -/
theorem run_sorted_setAndCheck :
    CheckedRun.Guarded step (fun proc input => proc.schedule.Sorted ∧
        (input.operation = .check → proc.StartsEarliest input))
      emptySchedule (setAndCheck dailyPair (8 * hour)) ∧
    ∀ proc', CheckedRun.run step emptySchedule (setAndCheck dailyPair (8 * hour)) = .ok proc' →
      proc'.schedule.Sorted := by
  refine run_sorted "site" (some utc) UInt16.ofNat 0 _ ?_
  have hfixed : utc.Fixed 0 := fun _ => rfl
  refine CheckedRun.guarded_cons trivial setDaily (CheckedRun.guarded_cons (fun _ => ?_) rfl trivial)
  refine ⟨List.forall_mem_cons.mpr ⟨?_, List.forall_mem_singleton.mpr ?_⟩, fun fuel hfuel => ?_⟩
  · exact Event.movesForward_of_daily hfixed rfl (by decide) (by decide)
  · exact Event.movesForward_of_daily hfixed rfl (by decide) (by decide)
  · obtain ⟨fuel, rfl⟩ := Nat.exists_eq_add_of_le' (Nat.one_le_of_lt hfuel)
    refine checksInOrder_of_fixed rfl hfixed ?_ rfl ⟨2, by decide⟩
    exact List.forall_mem_singleton.mpr (by decide +kernel)

end Process

end HybridOs.Scheduler
