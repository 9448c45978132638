import HybridOs.SchedulerSound

/-!
# Lists that are taken as they are

Overwriting a schedule organizes the events of a list by the clock. Where at most the first
event has started, and has not ended, and the others are to come, that event is the active one
or updates it, and the others are the scheduled ones.
-/

namespace HybridOs.Scheduler

namespace EventList

variable {eList eList1 eList2 : EventList} {e : Event}

/-- A sorted list is sorted as it is. -/
theorem sort_of_pairwise (h : eList.Pairwise NotAfter) : sort eList = eList := h.insertionSort_eq

/-- Adding the events of a list behind the others, where the whole is sorted. -/
theorem addList_of_pairwise (h : (eList1 ++ eList2).Pairwise NotAfter) :
    eList1.addList eList2 = eList1 ++ eList2 := by
  induction eList2 generalizing eList1 with
  | nil => exact (List.append_nil eList1).symm
  | cons e rest ih =>
    rw [List.append_cons] at h
    have hfirst : eList1.add e = eList1 ++ [e] := sort_of_pairwise (List.pairwise_append.mp h).1
    have hstep : eList1.addList (e :: rest) = (eList1.add e).addList rest := rfl
    rw [hstep, hfirst, ih h, ← List.append_cons eList1 e rest]

/-- An event that starts before those of a list is sorted to its front. -/
theorem sort_cons_of_before
    (hbefore : ∀ x ∈ eList, e.startTime.instant < x.startTime.instant) :
    sort (e :: eList) = e :: sort eList :=
  List.insertionSort_cons_of_forall_rel NotAfter fun x hx => notAfter_of_instant_lt (hbefore x hx)

/-- An event that starts before those of a sorted list is added to its front. -/
theorem add_of_before (hsorted : eList.Pairwise NotAfter)
    (hbefore : ∀ x ∈ eList, e.startTime.instant < x.startTime.instant) :
    eList.add e = e :: eList := by
  induction eList with
  | nil => rfl
  | cons x rest ih =>
    obtain ⟨hx, hrest⟩ := List.pairwise_cons.mp hsorted
    obtain ⟨hlt, hlater⟩ := List.forall_mem_cons.mp hbefore
    have hadd : EventList.add rest e = e :: rest := ih hrest hlater
    have hback : ¬ NotAfter x e := fun h => absurd h.instant_le (not_le.mpr hlt)
    have hstep : EventList.add (x :: rest) e =
        List.orderedInsert NotAfter x (EventList.add rest e) := rfl
    have hfront : List.orderedInsert NotAfter x rest = x :: rest := by
      have hsorted' := sort_of_pairwise hsorted
      rw [sort, List.insertionSort_cons] at hsorted'
      rw [hrest.insertionSort_eq] at hsorted'
      exact hsorted'
    rw [hstep, hadd, List.orderedInsert, if_neg hback, hfront]

/-- Validating a list validates its events one by one and sorts them, where no two overlap. -/
theorem validate_ok_iff {fuel : ℕ} {timeZone : Option Location}
    {mapOfVariables : String → Option SetpointList} {valid : EventList} :
    eList.validate fuel timeZone mapOfVariables = some (.ok valid) ↔
      ∃ each, List.Forall₂ (fun e e' => Event.validate timeZone mapOfVariables e = .ok e')
        eList each ∧ hasOverlaps fuel each = some false ∧ valid = sort each := by
  rw [validate]
  constructor
  · intro h
    split at h
    · cases h
    next each heach =>
      split at h
      · cases h
      · cases h
      next hapart =>
        cases h
        exact ⟨each, CheckedRun.mapM_ok_iff.mp heach, hapart, rfl⟩
  · rintro ⟨each, heach, hapart, rfl⟩
    rw [CheckedRun.mapM_ok_iff.mpr heach]
    dsimp only
    rw [hapart]

end EventList

namespace Schedule

variable {ctx : Context} {sched : Schedule} {e started : Event} {current active : Option Event}
  {toCome : EventList}

/-- All events of a schedule without expired ones, the active one first. -/
theorem aggregateAllEvents_arranged (hexpired : sched.expiredEvents = []) (hsorted : sched.Sorted)
    (hbefore : ∀ a ∈ sched.activeEvent, ∀ e ∈ sched.scheduledEvents,
      a.startTime.instant < e.startTime.instant) :
    sched.aggregateAllEvents = sched.activeEvent.toList ++ sched.scheduledEvents := by
  have hlisted : EventList.addList (EventList.addList [] []) sched.scheduledEvents =
      sched.scheduledEvents := EventList.addList_of_pairwise hsorted
  rw [aggregateAllEvents, hexpired, hlisted]
  cases hactive : sched.activeEvent with
  | none => rfl
  | some a => exact EventList.add_of_before hsorted (hbefore a hactive)

/-- An event that has started is organized as the active one: it updates the active event of
its start, or becomes the active event and has not ended. -/
def Starts (ctx : Context) (active : Option Event) (e started : Event) : Prop :=
  (∃ eOld, active = some eOld ∧ eOld.startTime.equal e.startTime = true ∧
    updateActiveEvent ctx eOld e = (started, .done ())) ∨
  (active.any (·.startTime.equal e.startTime) = false ∧ e.passedStartTime ctx.now = true ∧
    ctx.now ≤ e.endTime.instant ∧ started = e)

/-- An event that has started is the active one then. -/
theorem organizeEvent_starts (sched : Schedule) (fuel : ℕ)
    (h : Starts ctx sched.activeEvent e started) :
    sched.organizeEvent ctx (fuel + 1) e =
      some ({ sched with activeEvent := some started }, .done true) := by
  rw [organizeEvent]
  rcases h with ⟨eOld, hOld, hstart, hupdate⟩ | ⟨hnone, hpassed, hrunning, rfl⟩
  · have hclass : sched.classifyEvent ctx.now e = .active := by
      rw [classifyEvent, hOld, Option.any_some, if_pos hstart]
    simp only [hclass, organizeActive, hOld, hupdate]
  · have hclass : sched.classifyEvent ctx.now started = .retroActive := by
      rw [classifyEvent, hnone, if_neg (by simp), if_pos hpassed, if_neg (not_lt.mpr hrunning)]
    simp only [hclass]

/-- An event to come that starts after the active one is scheduled. -/
theorem organizeEvent_toCome (fuel : ℕ)
    (hbefore : ∀ a ∈ sched.activeEvent, a.startTime.instant < e.startTime.instant)
    (hlater : e.passedStartTime ctx.now = false) :
    sched.organizeEvent ctx (fuel + 1) e =
      some ({ sched with scheduledEvents := sched.scheduledEvents.add e }, .done false) := by
  have hnone : sched.activeEvent.any (·.startTime.equal e.startTime) = false := by
    cases hsome : sched.activeEvent with
    | none => rfl
    | some a => simp only [Option.any_some, Time.equal, (hbefore a hsome).ne, decide_false]
  have hclass : sched.classifyEvent ctx.now e = .scheduled := by
    rw [classifyEvent, hnone, if_neg (by simp), hlater, if_neg (by simp)]
  rw [organizeEvent]
  simp only [hclass]

/-- Events to come that start after the active one are scheduled. -/
theorem integrateEventList_toCome (sched : Schedule) (fuel : ℕ) (included : Bool)
    (hbefore : ∀ a ∈ sched.activeEvent, ∀ e ∈ toCome,
      a.startTime.instant < e.startTime.instant)
    (hlater : ∀ e ∈ toCome, e.passedStartTime ctx.now = false) :
    integrateEventList ctx (fuel + 1) toCome sched included =
      some ({ sched with scheduledEvents := sched.scheduledEvents.addList toCome },
        .done included) := by
  induction toCome generalizing sched with
  | nil => rfl
  | cons e rest ih =>
    obtain ⟨hfirst, hrest⟩ := List.forall_mem_cons.mp hlater
    have hnext := ih { sched with scheduledEvents := sched.scheduledEvents.add e }
      (fun a ha x hx => hbefore a ha x (List.mem_cons_of_mem _ hx)) hrest
    rw [integrateEventList,
      organizeEvent_toCome fuel (fun a ha => hbefore a ha e List.mem_cons_self) hfirst]
    dsimp only
    rw [Bool.false_or, hnext]
    rfl

/-- What has started as the active event starts before the events to come. -/
theorem Starts.before (h : Starts ctx active e started)
    (hbefore : ∀ a ∈ active, ∀ x ∈ toCome, a.startTime.instant < x.startTime.instant)
    (hlater : ∀ x ∈ toCome, x.passedStartTime ctx.now = false) :
    ∀ x ∈ toCome, started.startTime.instant < x.startTime.instant := by
  intro x hx
  rcases h with ⟨eOld, rfl, -, hupdate⟩ | ⟨-, hpassed, -, rfl⟩
  · obtain ⟨duration, variableMap, heq⟩ := updateActiveEvent_eq ctx eOld e
    rw [hupdate] at heq
    dsimp only at heq
    rw [heq]
    exact hbefore eOld rfl x hx
  · have hx' := hlater x hx
    simp only [Event.passedStartTime, decide_eq_true_eq, decide_eq_false_iff_not] at hpassed hx'
    omega

end Schedule

/-- Overwriting a schedule with a list of which at most the first event has started leaves
that one active and the others scheduled. -/
theorem Process.overwrite_arranged {ctx : Context} {fuel : ℕ} {proc : Process}
    {inputs toCome : EventList} {cache : IdCache} {external : Bool} (current : Option Event)
    {started : Option Event}
    (hvalid : inputs.validate fuel proc.schedule.timezone ctx.mapOfVariables =
      some (.ok (current.toList ++ toCome))) (hfuel : 0 < fuel)
    (hbefore : ∀ a ∈ proc.schedule.activeEvent, ∀ e ∈ toCome,
      a.startTime.instant < e.startTime.instant)
    (hstarts : Option.Rel (Schedule.Starts ctx proc.schedule.activeEvent) current started)
    (hlater : ∀ e ∈ toCome, e.passedStartTime ctx.now = false)
    (hsorted : toCome.Pairwise NotAfter) :
    proc.overwrite ctx fuel inputs cache external =
      some (sendUpdatesAfterMasterScheduleEdit ctx external { proc with
        schedule := { proc.schedule with
          cache
          scheduledEvents := toCome
          expiredEvents := []
          activeEvent := started } }, .done (.ok ())) := by
  obtain ⟨fuel, rfl⟩ := Nat.exists_eq_add_one.mpr hfuel
  have hadded : EventList.addList [] toCome = toCome := EventList.addList_of_pairwise hsorted
  rw [overwrite, hvalid]
  dsimp only
  cases hstarts with
  | none =>
    have horganized := Schedule.integrateEventList_toCome (proc.wiped cache) fuel false
      hbefore hlater
    rw [Option.toList_none, List.nil_append, horganized]
    simp only [wiped, hadded, Bool.false_eq_true, if_false]
  | @some e active hstart =>
    have hstarted := Schedule.organizeEvent_starts (proc.wiped cache) fuel hstart
    have hfirst : ∀ a ∈ some active, ∀ x ∈ toCome,
        a.startTime.instant < x.startTime.instant := by
      rintro a ⟨rfl⟩
      exact hstart.before hbefore hlater
    have horganized := Schedule.integrateEventList_toCome
      { proc.wiped cache with activeEvent := some active } fuel true hfirst hlater
    rw [Option.toList_some, List.singleton_append, Schedule.integrateEventList, hstarted]
    dsimp only
    rw [Bool.or_false, horganized]
    simp only [wiped, hadded, if_true]

end HybridOs.Scheduler
