import HybridOs.SchedulerEvent
import Mathlib.Data.Finset.Erase

/-!
# Schedules

A schedule holds the events to come, the events that have ended and the event that runs. A
check ends the running event and peels the next occurrence off the first series. An edit
validates a whole list of events and organizes it anew by the clock. What is sent to
setpoints, counterparts and interfaces is left out.
-/

namespace HybridOs.Scheduler

/-- `schedule`, with the random numbers that it will be given. -/
structure Schedule where
  id : String
  timezone : Option Location
  scheduledEvents : EventList
  expiredEvents : EventList
  activeEvent : Option Event
  cache : IdCache
  randomSrc : RandomSrc

/-- What the functions of a schedule read of the process. -/
structure Context where
  /-- `flextime.Now`. -/
  now : ℤ
  /-- `modes.buildMapOfVariables`. -/
  mapOfVariables : String → Option SetpointList
  /-- A local schedule is configured. -/
  hasLocalSchedule : Bool

/-- The classes of events with respect to a schedule. -/
inductive EventStatus where
  | expired | retroActive | active | scheduled
  deriving DecidableEq, Repr

/-- How a function of the source comes back: with a result, or by a panic. -/
inductive Return (α : Type) where
  | done (a : α)
  | panicked
  deriving DecidableEq, Repr

namespace Schedule

/-- `aggregateAllEvents`. -/
def aggregateAllEvents (sched : Schedule) : EventList :=
  let allEvents := (EventList.addList [] sched.expiredEvents).addList sched.scheduledEvents
  match sched.activeEvent with
  | some e => allEvents.add e
  | none => allEvents

/-- `assignIdsToPeeledEvent`, with the event as tagged. -/
def assignIdsToPeeledEvent (sched : Schedule) (e : Event) : Schedule × Option Event :=
  match generateId sched.cache sched.randomSrc with
  | (some id, src) =>
    ({ sched with cache := insert id sched.cache, randomSrc := src }, some (e.withId id))
  | (none, src) => ({ sched with randomSrc := src }, none)

/-! ## Checks -/

/-- The rescheduling of an occurrence in the skipped hour. It is discarded when it cannot be
tagged or overlaps an earlier event. -/
def rescheduleSpringForward (fuel : ℕ) (sched : Schedule) :
    Option Event → Option Schedule
  | none => some sched
  | some springForwardEvent =>
    match sched.assignIdsToPeeledEvent springForwardEvent with
    | (sched, none) => some sched
    | (sched, some tagged) =>
      match sched.scheduledEvents.handleSpringForwardEvent fuel tagged with
      | none => none
      | some (some scheduledEvents) => some { sched with scheduledEvents }
      | some none => some { sched with cache := sched.cache.erase tagged.id }

/-- The end of the active event, when it is done. -/
def endFinished (sched : Schedule) (now : ℤ) : Schedule × Bool :=
  match sched.activeEvent with
  | some e =>
    if e.isDone now then
      ({ sched with activeEvent := none, expiredEvents := sched.expiredEvents.add e }, true)
    else (sched, false)
  | none => (sched, false)

/-- The removal of a series that is over, which is taken to be the first event. -/
def removeSeries (sched : Schedule) (shift : Event.Shift) : Schedule :=
  if shift.seriesOver then
    { sched with
      cache := sched.cache.erase shift.series.id
      scheduledEvents := sched.scheduledEvents.tail }
  else sched

/-- The peeling of the next occurrence off the first series. -/
def peelOccurrence (fuel : ℕ) (sched : Schedule) (series : Event) (rest : EventList) :
    Option Schedule :=
  let shift := series.shiftSeries
  (({ sched with scheduledEvents := shift.series :: rest }).rescheduleSpringForward fuel
    shift.springForwardEvent).map (removeSeries · shift)

/-- The start of the peeled occurrence. An exception is not started, and there may be another
event at its time. -/
def startPeeled (checkAgain : Schedule → Option (Schedule × Bool)) (series : Event)
    (sched : Schedule) : Option (Schedule × Bool) :=
  if series.shiftSeries.series.hasException series.startTime then
    (checkAgain sched).map fun result => (result.1, true)
  else
    let tagging := sched.assignIdsToPeeledEvent series.oneOff
    some ({ tagging.1 with activeEvent := tagging.2 }, true)

/-- The part of a check that starts the next event, when it is ready. -/
def startNext (checkAgain : Schedule → Option (Schedule × Bool)) (now : ℤ) (fuel : ℕ)
    (sched : Schedule) (scheduleChanged : Bool) : Option (Schedule × Bool) :=
  match sched.scheduledEvents with
  | [] => some (sched, scheduleChanged)
  | series :: rest =>
    if series.readyToStart now then
      (sched.peelOccurrence fuel series rest).bind (startPeeled checkAgain series)
    else some (sched, scheduleChanged)

/-- `check`, and whether the schedule changed. -/
def check (now : ℤ) : ℕ → Schedule → Option (Schedule × Bool)
  | 0, _ => none
  | fuel + 1, sched =>
    let ended := sched.endFinished now
    if ended.1.activeEvent.isSome then some (ended.1, false)
    else startNext (check now fuel) now fuel ended.1 ended.2

/-- `deleteEventWithId`. -/
def deleteEventWithId (sched : Schedule) (id : Id) : Schedule :=
  { sched with
    cache := sched.cache.erase id
    expiredEvents := sched.expiredEvents.deleteEventWithId id
    scheduledEvents := sched.scheduledEvents.deleteEventWithId id
    activeEvent := sched.activeEvent.filter (·.id ≠ id) }

/-- The expired events that ended before midnight. -/
def oldEvents (sched : Schedule) (midnight : Time) : EventList :=
  sched.expiredEvents.filter (·.endTime.before midnight)

/-- `pruneOldEventsAndExceptions`, and whether the schedule changed. -/
def pruneOldEventsAndExceptions (sched : Schedule) (now : ℤ) : Schedule × Bool :=
  match sched.timezone with
  | none => (sched, false)
  | some loc =>
    let midnight := getMidnightInNDays 0 ⟨now, loc⟩
    let oldEvents := sched.oldEvents midnight
    let sched := oldEvents.foldl (fun sched e => sched.deleteEventWithId e.id) sched
    let pruned := sched.scheduledEvents.map fun e =>
      ({ e with repeatSettings := (e.repeatSettings.deleteExceptionsBefore midnight).1 },
        (e.repeatSettings.deleteExceptionsBefore midnight).2)
    ({ sched with scheduledEvents := pruned.map (·.1) },
      !oldEvents.isEmpty || pruned.any (·.2))

/-- `clear`. -/
def clear (sched : Schedule) : Schedule :=
  { sched with cache := ∅, expiredEvents := [], scheduledEvents := [], activeEvent := none }

/-- `getIdsOfEventsWithMode`. -/
def getIdsOfEventsWithMode (sched : Schedule) (targetMode : String) : List Id :=
  sched.expiredEvents.getIdsOfEventsWithMode targetMode ++
    sched.scheduledEvents.getIdsOfEventsWithMode targetMode ++
    EventList.getIdsOfEventsWithMode sched.activeEvent.toList targetMode

/-- `deleteEventsWithMode`. -/
def deleteEventsWithMode (sched : Schedule) (modeBeingDeleted : String) : Schedule :=
  (sched.getIdsOfEventsWithMode modeBeingDeleted).foldl deleteEventWithId sched

/-! ## What a check does -/

/-- Ending the active event leaves the scheduled events alone. -/
theorem endFinished_scheduledEvents (sched : Schedule) (now : ℤ) :
    (sched.endFinished now).1.scheduledEvents = sched.scheduledEvents := by
  unfold endFinished
  split
  · split_ifs <;> rfl
  · rfl

/-- A check that starts an occurrence, or goes on after one that is an exception. -/
structure Peels (now : ℤ) (fuel : ℕ) (sched : Schedule) (series : Event) (rest : EventList)
    (mid sched' : Schedule) : Prop where
  head : sched.scheduledEvents = series :: rest
  ready : series.readyToStart now = true
  peel : sched.peelOccurrence fuel series rest = some mid
  result : (series.shiftSeries.series.hasException series.startTime = true ∧
      ∃ changed, check now fuel mid = some (sched', changed)) ∨
    (series.shiftSeries.series.hasException series.startTime = false ∧
      sched' = { (mid.assignIdsToPeeledEvent series.oneOff).1 with
        activeEvent := (mid.assignIdsToPeeledEvent series.oneOff).2 })

variable {fuel : ℕ} {sched sched' : Schedule} {now : ℤ} {e : Event} {ctx : Context}
  {kind : Event → Prop} {kept : Schedule → Prop} {result : Return Bool}

/-- What a check does: an event is running, or nothing is ready to start, or it peels an
occurrence off the first series. -/
theorem check_cases {changed : Bool} (h : check now (fuel + 1) sched = some (sched', changed)) :
    ((sched.endFinished now).1.activeEvent.isSome = true ∧ sched' = (sched.endFinished now).1) ∨
    (sched.endFinished now).1.activeEvent = none ∧
      ((sched' = (sched.endFinished now).1 ∧ ∀ series rest,
        (sched.endFinished now).1.scheduledEvents = series :: rest →
          series.readyToStart now = false) ∨
      ∃ series rest mid, Peels now fuel (sched.endFinished now).1 series rest mid sched') := by
  rw [check] at h
  split_ifs at h with hactive
  · cases h
    exact .inl ⟨hactive, rfl⟩
  · refine .inr ⟨by simpa using hactive, ?_⟩
    unfold startNext at h
    split at h
    next hempty =>
      cases h
      exact .inl ⟨rfl, fun series rest hhead => by simp [hempty] at hhead⟩
    next series rest hhead =>
      split_ifs at h with hready
      · obtain ⟨mid, hpeel, hstart⟩ := Option.bind_eq_some_iff.mp h
        refine .inr ⟨series, rest, mid, hhead, hready, hpeel, ?_⟩
        unfold startPeeled at hstart
        split_ifs at hstart with hexception
        · obtain ⟨again, hagain, heq⟩ := Option.map_eq_some_iff.mp hstart
          cases heq
          exact .inl ⟨hexception, again.2, hagain⟩
        · cases hstart
          exact .inr ⟨by simpa using hexception, rfl⟩
      · cases h
        refine .inl ⟨rfl, fun series' rest' hhead' => ?_⟩
        rw [hhead] at hhead'
        cases hhead'
        simpa using hready

/-! ## Organizing a list of events -/

/-- `classifyEvent`. -/
def classifyEvent (sched : Schedule) (now : ℤ) (e : Event) : EventStatus :=
  if sched.activeEvent.any (·.startTime.equal e.startTime) then .active
  else if e.passedStartTime now then
    if e.endTime.instant < now then .expired else .retroActive
  else .scheduled

/-- The update of the values of the active event. It ends at the first value that stays the
same. Sending a value reads the configuration of the local schedule. -/
def updateVariables (hasLocalSchedule : Bool) (eNew : Event) :
    SetpointList → Event → Event × Return Unit
  | [], eOld => (eOld, .done ())
  | modeVar :: rest, eOld =>
    match eOld.variableMap.lookup modeVar.id, eNew.variableMap.lookup modeVar.id with
    | some oldVarVal, some newVarVal =>
      if oldVarVal.deepEqual newVarVal then (eOld, .done ())
      else if !hasLocalSchedule then (eOld, .panicked)
      else
        updateVariables hasLocalSchedule eNew rest
          { eOld with variableMap := eOld.variableMap.insert modeVar.id newVarVal }
    | _, _ => updateVariables hasLocalSchedule eNew rest eOld

/-- `updateActiveEvent`. -/
def updateActiveEvent (ctx : Context) (eOld eNew : Event) : Event × Return Unit :=
  if !eOld.startTime.equal eNew.startTime then (eOld, .done ())
  else if eOld.mode ≠ eNew.mode then (eOld, .done ())
  else
    let eOld := { eOld with duration := eNew.duration }
    match ctx.mapOfVariables eNew.mode with
    | none => (eOld, .done ())
    | some modeVariables => updateVariables ctx.hasLocalSchedule eNew modeVariables eOld

/-- The expired instance of an event, saved under an identifier of its own if there is one. -/
def saveExpired (sched : Schedule) (e : Event) : Schedule :=
  match sched.assignIdsToPeeledEvent e.oneOff with
  | (sched, some tagged) => { sched with expiredEvents := sched.expiredEvents.add tagged }
  | (sched, none) => sched

/-- What is organized of a series after its expired instance: the occurrence in the skipped
hour, and the series at its next occurrence unless it is over or the former is the active
event. -/
def organizeRest (organize : Schedule → Event → Option (Schedule × Return Bool))
    (shift : Event.Shift) (sched : Schedule) : Option (Schedule × Return Bool) :=
  match shift.springForwardEvent with
  | none => if shift.seriesOver then some (sched, .done false) else organize sched shift.series
  | some springForwardEvent =>
    match organize sched springForwardEvent with
    | none => none
    | some (sched, .panicked) => some (sched, .panicked)
    | some (sched, .done isActiveEvent) =>
      if shift.seriesOver || isActiveEvent then some (sched, .done isActiveEvent)
      else organize sched shift.series

/-- The update of the active event by an event that starts when it does. -/
def organizeActive (ctx : Context) (sched : Schedule) (e : Event) : Schedule × Return Bool :=
  match sched.activeEvent with
  | none => (sched, .done true)
  | some eOld =>
    match updateActiveEvent ctx eOld e with
    | (eOld, .done _) => ({ sched with activeEvent := some eOld }, .done true)
    | (eOld, .panicked) => ({ sched with activeEvent := some eOld }, .panicked)

/-- `organizeEvent`, and whether the event is the active one. -/
def organizeEvent (ctx : Context) : ℕ → Schedule → Event → Option (Schedule × Return Bool)
  | 0, _, _ => none
  | fuel + 1, sched, e =>
    match sched.classifyEvent ctx.now e with
    | .expired => organizeRest (organizeEvent ctx fuel) e.shiftSeries (sched.saveExpired e)
    | .retroActive => some ({ sched with activeEvent := some e }, .done true)
    | .active => some (sched.organizeActive ctx e)
    | .scheduled =>
      some ({ sched with scheduledEvents := sched.scheduledEvents.add e }, .done false)

/-- `integrateEventList`, and whether the active event is among the events. -/
def integrateEventList (ctx : Context) (fuel : ℕ) :
    EventList → Schedule → Bool → Option (Schedule × Return Bool)
  | [], sched, activeEventIncluded => some (sched, .done activeEventIncluded)
  | e :: rest, sched, activeEventIncluded =>
    match sched.organizeEvent ctx fuel e with
    | none => none
    | some (sched, .panicked) => some (sched, .panicked)
    | some (sched, .done isActiveEvent) =>
      integrateEventList ctx fuel rest sched (isActiveEvent || activeEventIncluded)

/-! ## What organizing keeps -/

/-- An event that is classified as expired has passed its start and its end. -/
theorem classifyEvent_expired (sched : Schedule) (h : sched.classifyEvent now e = .expired) :
    e.passedStartTime now = true ∧ e.endTime.instant < now := by
  rw [classifyEvent] at h
  split_ifs at h with hactive hpassed hended
  exact ⟨hpassed, hended⟩

/-- Where a local schedule is configured, the update of values does not panic. -/
theorem updateVariables_done (eNew : Event) (modeVariables : SetpointList) (eOld : Event) :
    (updateVariables true eNew modeVariables eOld).2 = .done () := by
  induction modeVariables generalizing eOld with
  | nil => rfl
  | cons modeVar rest ih =>
    rw [updateVariables]
    split
    · split_ifs with hequal hlocal
      · rfl
      · cases hlocal
      · exact ih _
    · exact ih eOld

/-- Where a local schedule is configured, the update of the active event does not panic. -/
theorem updateActiveEvent_done (hlocal : ctx.hasLocalSchedule = true) (eOld eNew : Event) :
    (updateActiveEvent ctx eOld eNew).2 = .done () := by
  rw [updateActiveEvent, hlocal]
  split_ifs
  · rfl
  · rfl
  · dsimp only
    split
    · rfl
    · exact updateVariables_done _ _ _

/-- Where a local schedule is configured, organizing an event does not panic. -/
theorem organizeEvent_done (hlocal : ctx.hasLocalSchedule = true)
    (h : sched.organizeEvent ctx fuel e = some (sched', result)) : result ≠ .panicked := by
  induction fuel generalizing sched sched' e result with
  | zero => cases h
  | succ fuel ih =>
    rw [organizeEvent] at h
    split at h
    · rw [organizeRest] at h
      split at h
      · split_ifs at h
        · cases h
          simp
        · exact ih h
      · split at h
        · cases h
        next hpanicked => exact absurd rfl (ih hpanicked)
        · split_ifs at h
          · cases h
            simp
          · exact ih h
    · cases h
      simp
    · rw [organizeActive, Option.some.injEq] at h
      split at h
      · cases h
        simp
      next eOld _ =>
        have hdone := updateActiveEvent_done hlocal eOld e
        split at h
        · cases h
          simp
        next hpanicked =>
          rw [hpanicked] at hdone
          cases hdone
    · cases h
      simp

/-- Where a local schedule is configured, organizing a list of events does not panic. -/
theorem integrateEventList_done (hlocal : ctx.hasLocalSchedule = true) {eList : EventList}
    {included : Bool} (h : integrateEventList ctx fuel eList sched included = some (sched', result)) :
    result ≠ .panicked := by
  induction eList generalizing sched included with
  | nil =>
    cases h
    simp
  | cons e rest ih =>
    rw [integrateEventList] at h
    split at h
    · cases h
    next hpanicked => exact absurd rfl (organizeEvent_done hlocal hpanicked)
    · exact ih h

/-- A property of schedules that organizing events of a kind keeps. -/
structure KeptByOrganizing (ctx : Context) (kind : Event → Prop) (kept : Schedule → Prop) :
    Prop where
  shift : ∀ e, kind e → e.passedStartTime ctx.now = true → e.endTime.instant < ctx.now →
    e.shiftSeries.seriesOver = false → kind e.shiftSeries.series
  split : ∀ e split, kind e → e.shiftSeries.springForwardEvent = some split → kind split
  saveExpired : ∀ sched e, kind e → kept sched → kept (sched.saveExpired e)
  retroActive : ∀ sched e, kind e → kept sched → kept { sched with activeEvent := some e }
  update : ∀ sched e eOld, kind e → kept sched → sched.activeEvent = some eOld →
    kept { sched with activeEvent := some (updateActiveEvent ctx eOld e).1 }
  scheduled : ∀ sched e, kind e → kept sched →
    kept { sched with scheduledEvents := sched.scheduledEvents.add e }

/-- Organizing an event keeps what its steps keep. -/
theorem KeptByOrganizing.organizeEvent (keeps : KeptByOrganizing ctx kind kept) (hkind : kind e)
    (hkept : kept sched) (h : sched.organizeEvent ctx fuel e = some (sched', result)) :
    kept sched' := by
  induction fuel generalizing sched sched' e result with
  | zero => cases h
  | succ fuel ih =>
    rw [Schedule.organizeEvent] at h
    split at h
    next hclass =>
      obtain ⟨hpassed, hended⟩ := sched.classifyEvent_expired hclass
      have hsaved := keeps.saveExpired sched e hkind hkept
      rw [organizeRest] at h
      split at h
      · split_ifs at h with hover
        · cases h
          exact hsaved
        · exact ih (keeps.shift e hkind hpassed hended (by simpa using hover)) hsaved h
      next split hsplit =>
        have hsplitKind := keeps.split e split hkind hsplit
        split at h
        · cases h
        next horganized =>
          cases h
          exact ih hsplitKind hsaved horganized
        next horganized =>
          have hmid := ih hsplitKind hsaved horganized
          split_ifs at h with hover
          · cases h
            exact hmid
          · rw [Bool.or_eq_true, not_or, Bool.not_eq_true] at hover
            exact ih (keeps.shift e hkind hpassed hended hover.1) hmid h
    · cases h
      exact keeps.retroActive sched e hkind hkept
    · rw [organizeActive, Option.some.injEq] at h
      split at h
      · cases h
        exact hkept
      next eOld hactive =>
        have hupdated := keeps.update sched e eOld hkind hkept hactive
        split at h
        all_goals
          rename_i hupdate
          cases h
          rw [hupdate] at hupdated
          exact hupdated
    · cases h
      exact keeps.scheduled sched e hkind hkept

/-- Organizing a list of events keeps what its steps keep. -/
theorem KeptByOrganizing.integrateEventList (keeps : KeptByOrganizing ctx kind kept)
    {eList : EventList} {included : Bool} (hkind : ∀ e ∈ eList, kind e) (hkept : kept sched)
    (h : Schedule.integrateEventList ctx fuel eList sched included = some (sched', result)) :
    kept sched' := by
  induction eList generalizing sched included with
  | nil =>
    cases h
    exact hkept
  | cons e rest ih =>
    have hhead := hkind e List.mem_cons_self
    rw [Schedule.integrateEventList] at h
    split at h
    · cases h
    next horganized =>
      cases h
      exact keeps.organizeEvent hhead hkept horganized
    next horganized =>
      exact ih (fun e he => hkind e (List.mem_cons_of_mem _ he))
        (keeps.organizeEvent hhead hkept horganized) h

end Schedule

end HybridOs.Scheduler
