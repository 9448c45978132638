import HybridOs.Ledger
import HybridOs.SchedulerOrderRuns

/-!
# The identifiers of a schedule

The cache of a schedule should hold the identifiers of its events and no others, and no two
events should share one. Checks and prunings keep it so, unless a series that is over is not
the first event when it is removed.
-/

namespace HybridOs.Scheduler

open Ledger

namespace EventList

/-- The identifiers of the events. -/
def ids (eList : EventList) : List Id := eList.map (·.id)

@[simp] theorem ids_nil : ids [] = [] := rfl

@[simp] theorem ids_cons (e : Event) (eList : EventList) : ids (e :: eList) = e.id :: ids eList :=
  rfl

theorem ids_sort (eList : EventList) : (sort eList).ids.Perm eList.ids :=
  (List.perm_insertionSort _ eList).map _

theorem ids_add (eList : EventList) (e : Event) : (eList.add e).ids.Perm (e.id :: eList.ids) :=
  (perm_add eList e).map _

theorem ids_addList (eList1 eList2 : EventList) :
    (eList1.addList eList2).ids.Perm (eList2.ids ++ eList1.ids) := by
  induction eList2 generalizing eList1 with
  | nil => exact List.Perm.refl _
  | cons e rest ih =>
    have hadd := (ids_add eList1 e).append_left (ids rest)
    exact ((ih (eList1.add e)).trans hadd).trans List.perm_middle

theorem ids_deleteEventWithId (eList : EventList) (id : Id) :
    (eList.deleteEventWithId id).ids = eList.ids.erase id := by
  induction eList with
  | nil => rfl
  | cons e rest ih =>
    by_cases hid : e.id = id
    · rw [deleteEventWithId, List.eraseP_cons_of_pos (by simpa using hid), ids_cons, hid,
        List.erase_cons_head]
    · have hrest : ids (deleteEventWithId rest id) = (ids rest).erase id := ih
      rw [deleteEventWithId, List.eraseP_cons_of_neg (by simpa using hid), ids_cons, ids_cons,
        List.erase_cons_tail (by simpa using hid)]
      exact congrArg _ hrest

/-- Replacing an event by one under the same identifier keeps the identifiers. -/
theorem ids_modifyFirst {p : Event → Bool} {updated : Event} {eList : EventList}
    (h : ∀ e, eList.find? p = some e → updated.id = e.id) :
    (eList.modifyFirst p fun _ => updated).ids = eList.ids := by
  induction eList with
  | nil => rfl
  | cons e rest ih =>
    rw [modifyFirst]
    split_ifs with hp
    · rw [ids_cons, ids_cons, h e (List.find?_cons_of_pos hp)]
    · rw [ids_cons, ids_cons, ih fun e' he' => h e' (by rwa [List.find?_cons_of_neg hp])]

end EventList

namespace Schedule

/-- The identifiers of the events in the two lists. -/
def listedIds (sched : Schedule) : List Id := sched.expiredEvents.ids ++ sched.scheduledEvents.ids

/-- The identifiers of all events. -/
def ids (sched : Schedule) : List Id := sched.listedIds ++ EventList.ids sched.activeEvent.toList

/-- The events in the lists and those that are still to be placed have distinct identifiers,
and the cache holds these and no others. -/
def Owes (sched : Schedule) (owed : List Id) : Prop := Balanced sched.cache (sched.listedIds ++ owed)

/-- All events have distinct identifiers, and the cache holds these and no others. -/
def WellTagged (sched : Schedule) : Prop := Balanced sched.cache sched.ids

variable {sched : Schedule} {owed : List Id} {fuel : ℕ}

/-- The identifiers that are owed may be permuted. -/
theorem Owes.perm {owed' : List Id} (h : sched.Owes owed) (hperm : owed.Perm owed') :
    sched.Owes owed' :=
  Balanced.perm h (hperm.append_left _)

/-- A tagged event has an identifier that was free. -/
theorem Owes.assign (h : sched.Owes owed) (e : Event) :
    (sched.assignIdsToPeeledEvent e).1.Owes
      (EventList.ids (sched.assignIdsToPeeledEvent e).2.toList ++ owed) := by
  rw [assignIdsToPeeledEvent]
  split
  next id src hid =>
    have htaken := Balanced.take h (generateId_notMem hid)
    exact htaken.perm List.perm_middle.symm
  · exact h

/-- An event is added to the expired events. -/
theorem Owes.expire {e : Event} (h : sched.Owes (e.id :: owed)) :
    Owes { sched with expiredEvents := sched.expiredEvents.add e } owed := by
  have hadd := (EventList.ids_add sched.expiredEvents e).append_right
    (sched.scheduledEvents.ids ++ owed)
  refine Balanced.perm h ?_
  simp only [listedIds, List.append_assoc] at hadd ⊢
  refine List.Perm.trans ?_ hadd.symm
  rw [← List.append_assoc, List.cons_append, ← List.append_assoc]
  exact List.perm_middle

/-- An event is added to the scheduled events. -/
theorem Owes.schedule {e : Event} (h : sched.Owes (e.id :: owed)) :
    Owes { sched with scheduledEvents := sched.scheduledEvents.add e } owed := by
  have hadd := ((EventList.ids_add sched.scheduledEvents e).append_right owed).append_left
    sched.expiredEvents.ids
  refine Balanced.perm h ?_
  simp only [listedIds, List.append_assoc] at hadd ⊢
  refine List.Perm.trans ?_ hadd.symm
  exact List.perm_middle.append_left _

/-- An identifier that is owed is freed. -/
theorem Owes.discard {id : Id} (h : sched.Owes (id :: owed)) :
    Owes { sched with cache := sched.cache.erase id } owed :=
  (Balanced.perm h List.perm_middle).release_head

/-! ## Checks -/

/-- Ending the active event keeps the identifiers. -/
theorem WellTagged.endFinished (h : sched.WellTagged) (now : ℤ) :
    (sched.endFinished now).1.WellTagged := by
  unfold Schedule.endFinished
  split
  next e hactive =>
    split_ifs
    · have howes : sched.Owes [e.id] := by
        rw [WellTagged, ids, hactive] at h
        exact h
      exact howes.expire
    · exact h
  · exact h

/-- Rescheduling an occurrence in the skipped hour tags it or discards its identifier. -/
theorem Owes.rescheduleSpringForward {listed : Schedule} {split : Option Event}
    (h : sched.Owes owed) (hlisted : sched.rescheduleSpringForward fuel split = some listed) :
    listed.Owes owed := by
  cases split with
  | none =>
    cases hlisted
    exact h
  | some split =>
    have htagged := h.assign split
    rw [Schedule.rescheduleSpringForward] at hlisted
    cases hassign : sched.assignIdsToPeeledEvent split with
    | mk tagging tagged =>
      rw [hassign] at hlisted htagged
      cases tagged with
      | none =>
        cases hlisted
        exact htagged
      | some tagged =>
        simp only [EventList.handleSpringForwardEvent] at hlisted
        cases htrim : EventList.trimSpringForward fuel tagged tagging.scheduledEvents with
        | none =>
          rw [htrim] at hlisted
          cases hlisted
        | some trimmed =>
          rw [htrim] at hlisted
          cases trimmed with
          | none =>
            cases hlisted
            exact htagged.discard
          | some trimmed =>
            obtain ⟨duration, rfl⟩ := trimSpringForward_eq htrim
            cases hlisted
            exact Owes.schedule (e := tagged.retagged tagged.id tagged.repeatSettings.id duration)
              htagged

/-- When a series that is peeled is over, it is the first event, which is removed. -/
def RemovesEnded (fuel : ℕ) (sched : Schedule) (series : Event) (rest : EventList) : Prop :=
  series.shiftSeries.seriesOver = true →
    (sched.relisted fuel series rest).head? = some series.shiftSeries.series

/-- Peeling keeps the identifiers, where it removes what has ended. -/
theorem Owes.peelOccurrence {mid : Schedule} {series : Event} {rest : EventList}
    (h : sched.Owes owed) (hhead : sched.scheduledEvents = series :: rest)
    (hremoves : sched.RemovesEnded fuel series rest)
    (hpeel : sched.peelOccurrence fuel series rest = some mid) : mid.Owes owed := by
  obtain ⟨_, _, hseries⟩ := series.shiftSeries_series_eq
  have hid : series.shiftSeries.series.id = series.id := by rw [hseries]
  unfold Schedule.peelOccurrence at hpeel
  simp only [Option.map_eq_some_iff] at hpeel
  obtain ⟨listed, hlisted, rfl⟩ := hpeel
  have hshifted : Owes { sched with scheduledEvents := series.shiftSeries.series :: rest } owed := by
    rw [Owes, listedIds, hhead] at h
    simp only [Owes, listedIds, EventList.ids_cons, hid] at h ⊢
    exact h
  have howes := hshifted.rescheduleSpringForward hlisted
  rw [removeSeries]
  split_ifs with hover
  · have hfirst := hremoves hover
    rw [← rescheduleSpringForward_relisted hlisted] at hfirst
    obtain ⟨others, hothers⟩ := List.head?_eq_some_iff.mp hfirst
    have hfreed : Owes { listed with scheduledEvents := listed.scheduledEvents.tail }
        (series.shiftSeries.series.id :: owed) := by
      refine Balanced.perm howes ?_
      simp only [listedIds, hothers, List.append_assoc]
      exact (List.perm_middle.symm).append_left _
    exact hfreed.discard
  · exact howes

/-- Every series that a check finds to be over is the first event when it is removed. -/
def ChecksRemoving (now : ℤ) : ℕ → Schedule → Prop
  | 0, _ => True
  | fuel + 1, sched =>
    (sched.endFinished now).1.activeEvent = none → ∀ series rest,
      sched.scheduledEvents = series :: rest → series.readyToStart now = true →
        (sched.endFinished now).1.RemovesEnded fuel series rest ∧
        ∀ mid, (sched.endFinished now).1.peelOccurrence fuel series rest = some mid →
          series.hasException series.startTime = true → ChecksRemoving now fuel mid

/-- A check keeps the identifiers, where it removes what has ended. -/
theorem WellTagged.check {now : ℤ} {sched' : Schedule} {changed : Bool} (h : sched.WellTagged)
    (hremoves : sched.ChecksRemoving now fuel)
    (hcheck : sched.check now fuel = some (sched', changed)) : sched'.WellTagged := by
  induction fuel generalizing sched changed with
  | zero => cases hcheck
  | succ fuel ih =>
    have hended := h.endFinished now
    rcases check_cases hcheck with ⟨-, rfl⟩ | ⟨hactive, ⟨rfl, -⟩ | ⟨series, rest, mid, hpeel⟩⟩
    · exact hended
    · exact hended
    · have hevents := (endFinished_scheduledEvents sched now).symm.trans hpeel.head
      obtain ⟨hfirst, hagain⟩ := hremoves hactive series rest hevents hpeel.ready
      have howes : (sched.endFinished now).1.Owes [] := by
        rw [WellTagged, ids, hactive] at hended
        exact hended
      have hmid := howes.peelOccurrence hpeel.head hfirst hpeel.peel
      have hmidActive : mid.activeEvent = none :=
        (peelOccurrence_frame hpeel.peel).1.trans hactive
      rcases hpeel.result with ⟨hexception, again, hnext⟩ | ⟨-, rfl⟩
      · rw [Event.shiftSeries_hasException] at hexception
        refine ih ?_ (hagain mid hpeel.peel hexception) hnext
        rw [WellTagged, ids, hmidActive]
        exact hmid
      · have htagged := hmid.assign series.oneOff
        rw [List.append_nil] at htagged
        exact htagged

/-! ## Deletions -/

/-- Deleting an event frees its identifier. -/
theorem WellTagged.deleteEventWithId (h : sched.WellTagged) (id : Id) :
    (sched.deleteEventWithId id).WellTagged := by
  have hfilter : ∀ active : Option Event, (EventList.ids active.toList).erase id =
      EventList.ids (active.filter (·.id ≠ id)).toList := by
    intro active
    cases active with
    | none => rfl
    | some e =>
      by_cases hid : e.id = id
      · simp [Option.filter, hid]
      · simp [Option.filter, hid]
  have hdistinct := h.nodup
  have hreleased := Balanced.release h id
  rw [ids, listedIds] at hdistinct hreleased
  rw [erase_append_of_nodup hdistinct, hfilter,
    erase_append_of_nodup hdistinct.of_append_left] at hreleased
  simp only [WellTagged, ids, listedIds, Schedule.deleteEventWithId,
    EventList.ids_deleteEventWithId]
  exact hreleased

/-- Pruning keeps the identifiers. -/
theorem WellTagged.prune (h : sched.WellTagged) (now : ℤ) :
    (sched.pruneOldEventsAndExceptions now).1.WellTagged := by
  unfold pruneOldEventsAndExceptions
  split
  · exact h
  next loc _ =>
    have hdeleted : ∀ (old : EventList) (mid : Schedule), mid.WellTagged →
        (old.foldl (fun sched e => sched.deleteEventWithId e.id) mid).WellTagged := by
      intro old
      induction old with
      | nil => exact fun mid hmid => hmid
      | cons e rest ih => exact fun mid hmid => ih _ (hmid.deleteEventWithId e.id)
    have hmid := hdeleted (sched.oldEvents (getMidnightInNDays 0 ⟨now, loc⟩)) sched h
    simp only [WellTagged, ids, listedIds, EventList.ids, List.map_map] at hmid ⊢
    exact hmid

end Schedule

/-!
## The identifiers of organized events

Organizing an event may leave nothing, one event or several under its identifier: an expired
instance gets a new identifier, and the catch-up goes on with the series and the occurrence
split from it. Where every event of a list leaves exactly one, organizing the list keeps the
identifiers distinct and those of the cache.
-/

/-! ## What organizing leaves under an identifier -/

namespace Schedule

/-- An event that is or becomes the active one. -/
def isCurrent (placed : EventStatus × Event) : Bool := placed.1 ≠ .scheduled

/-- What the catch-up of an expired event leaves under its identifier: the occurrence in the
skipped hour, and the series at its next occurrence. -/
def settledRest (settled : Event → List (EventStatus × Event)) (shift : Event.Shift) :
    List (EventStatus × Event) :=
  let split := shift.springForwardEvent.toList.flatMap settled
  if shift.seriesOver || split.any isCurrent then split else split ++ settled shift.series

/-- The events that organizing an event leaves under its identifier, with their classes. An
expired instance has a new identifier. -/
def settled (now : ℤ) (sched : Schedule) : ℕ → Event → List (EventStatus × Event)
  | 0, _ => []
  | fuel + 1, e =>
    match sched.classifyEvent now e with
    | .expired => settledRest (settled now sched fuel) e.shiftSeries
    | status => [(status, e)]

/-- The active event after an event has been placed. -/
def activeAfter (ctx : Context) (sched : Schedule) (placed : EventStatus × Event) : Option Event :=
  match placed.1 with
  | .retroActive => some placed.2
  | .active => sched.activeEvent.map fun eOld => (updateActiveEvent ctx eOld placed.2).1
  | _ => sched.activeEvent

/-- The update of the active event by an event of its start does not panic. -/
def UpdatesCalmly (ctx : Context) (sched : Schedule) (placed : EventStatus × Event) : Prop :=
  placed.1 = .active → ∀ eOld, sched.activeEvent = some eOld →
    (updateActiveEvent ctx eOld placed.2).2 ≠ .panicked

variable {sched sched' : Schedule} {owed : List Id} {ctx : Context} {result : Return Bool}
  {e : Event} {fuel : ℕ} {included : Bool} {now : ℤ} {mid : Schedule} {p : EventStatus × Event}
  {eList : EventList}

/-- Only the active event matters to how an event settles. -/
theorem settled_congr (h : sched'.activeEvent = sched.activeEvent) (fuel : ℕ) (e : Event) :
    sched'.settled now fuel e = sched.settled now fuel e := by
  induction fuel generalizing e with
  | zero => rfl
  | succ fuel ih =>
    have hclass : sched'.classifyEvent now e = sched.classifyEvent now e := by
      rw [classifyEvent, classifyEvent, h]
    have hsettled : sched'.settled now fuel = sched.settled now fuel := funext ih
    rw [settled, settled, hclass, hsettled]

/-- An expired instance gets a new identifier, or is lost. -/
theorem Owes.saveExpired (h : sched.Owes owed) (e : Event) : (sched.saveExpired e).Owes owed := by
  have htagged := h.assign e.oneOff
  rw [Schedule.saveExpired]
  split
  all_goals
    rename_i hassign
    rw [hassign] at htagged
  · exact htagged.expire
  · exact htagged

theorem saveExpired_activeEvent (sched : Schedule) (e : Event) :
    (sched.saveExpired e).activeEvent = sched.activeEvent := by
  have hactive := (assignIdsToPeeledEvent_frame sched e.oneOff).1
  rw [saveExpired]
  split
  all_goals
    rename_i hassign
    rw [hassign] at hactive
    exact hactive

/-- How organizing an event has settled it: the events that are not active are in the lists,
and the identifiers of the others are still owed. -/
structure Settles (ctx : Context) (sched sched' : Schedule) (placed : List (EventStatus × Event))
    (owed : List Id) (result : Return Bool) : Prop where
  result_eq : result = .done (placed.any isCurrent)
  owes : sched'.Owes (EventList.ids ((placed.filter isCurrent).map (·.2)) ++ owed)
  unchanged : placed.any isCurrent = false → sched'.activeEvent = sched.activeEvent
  active : ∀ p ∈ placed, isCurrent p = true → sched'.activeEvent = activeAfter ctx sched p

/-- Where an event has been settled from matters only by the active event. -/
theorem Settles.of_activeEvent {placed : List (EventStatus × Event)}
    (h : Settles ctx mid sched' placed owed result)
    (hactive : mid.activeEvent = sched.activeEvent) :
    Settles ctx sched sched' placed owed result where
  result_eq := h.result_eq
  owes := h.owes
  unchanged hnone := (h.unchanged hnone).trans hactive
  active p hp hcurrent := by
    rw [h.active p hp hcurrent, activeAfter, activeAfter, hactive]

/-- An event that leaves nothing under its identifier has settled at once. -/
theorem Settles.nil (h : sched.Owes owed) : Settles ctx sched sched [] owed (.done false) :=
  ⟨rfl, h, fun _ => rfl, fun _ hp => absurd hp List.not_mem_nil⟩

/-- An event that is or becomes the active one has settled at once. -/
theorem Settles.current {status : EventStatus} (hstatus : status ≠ .scheduled)
    (h : sched'.Owes (e.id :: owed))
    (hactive : sched'.activeEvent = activeAfter ctx sched (status, e)) :
    Settles ctx sched sched' [(status, e)] owed (.done true) := by
  have hcurrent : isCurrent (status, e) = true := by simpa [isCurrent] using hstatus
  refine ⟨by simp [hcurrent], ?_, fun hnone => ?_, fun p hp _ => ?_⟩
  · simp only [List.filter_cons, hcurrent]
    exact h
  · simp [hcurrent] at hnone
  · rw [List.mem_singleton.mp hp, hactive]

/-- Two events settle one after the other, where the first does not become active. -/
theorem Settles.append {first second : List (EventStatus × Event)} {result1 result2 : Return Bool}
    (hfirst : Settles ctx sched mid first (EventList.ids (second.map (·.2)) ++ owed) result1)
    (hnone : first.any isCurrent = false) (hsecond : Settles ctx mid sched' second owed result2) :
    Settles ctx sched sched' (first ++ second) owed result2 := by
  have hkept := hfirst.unchanged hnone
  have hsecond := hsecond.of_activeEvent hkept
  have hfilter : first.filter isCurrent = [] := by
    rw [List.filter_eq_nil_iff]
    exact List.any_eq_false.mp hnone
  refine ⟨?_, ?_, fun h => ?_, fun p hp hcurrent => ?_⟩
  · rw [hsecond.result_eq, List.any_append, hnone, Bool.false_or]
  · rw [List.filter_append, hfilter, List.nil_append]
    exact hsecond.owes
  · rw [List.any_append, hnone, Bool.false_or] at h
    exact hsecond.unchanged h
  · rcases List.mem_append.mp hp with hmem | hmem
    · exact absurd hcurrent (List.any_eq_false.mp hnone p hmem)
    · exact hsecond.active p hmem hcurrent

/-- How the catch-up of an expired event settles what it leaves, when organizing an event
settles it. -/
theorem organizeRest_settles {shift : Event.Shift}
    {organize : Schedule → Event → Option (Schedule × Return Bool)}
    (settled : Schedule → Event → List (EventStatus × Event))
    (hcongr : ∀ sched mid : Schedule, mid.activeEvent = sched.activeEvent →
      settled mid = settled sched) (hsettles : ∀ (sched sched' : Schedule) e owed result,
      sched.Owes (EventList.ids ((settled sched e).map (·.2)) ++ owed) →
      (∀ p ∈ settled sched e, sched.UpdatesCalmly ctx p) →
      organize sched e = some (sched', result) →
        Settles ctx sched sched' (settled sched e) owed result)
    (howes : sched.Owes (EventList.ids ((settledRest (settled sched) shift).map (·.2)) ++ owed))
    (hcalm : ∀ p ∈ settledRest (settled sched) shift, sched.UpdatesCalmly ctx p)
    (h : organizeRest organize shift sched = some (sched', result)) :
    Settles ctx sched sched' (settledRest (settled sched) shift) owed result := by
  rw [organizeRest] at h
  cases hsplit : shift.springForwardEvent with
  | none =>
    rw [hsplit] at h
    simp only [settledRest, hsplit, Option.toList_none, List.flatMap_nil, List.any_nil,
      Bool.or_false] at howes hcalm ⊢
    split_ifs at h howes hcalm ⊢
    · cases h
      exact Settles.nil howes
    · exact hsettles _ _ _ _ _ howes hcalm h
  | some split =>
    rw [hsplit] at h
    dsimp only at h
    simp only [settledRest, hsplit, Option.toList_some, List.flatMap_singleton] at howes hcalm ⊢
    cases horganized : organize sched split with
    | none =>
      rw [horganized] at h
      cases h
    | some organized =>
      obtain ⟨mid, result1⟩ := organized
      rw [horganized] at h
      split_ifs at howes hcalm ⊢ with hstop
      · have hfirst := hsettles _ _ _ _ _ howes hcalm horganized
        rw [hfirst.result_eq] at h
        simp only [hstop] at h
        cases h
        rw [← hfirst.result_eq]
        exact hfirst
      · have hnone : (settled sched split).any isCurrent = false := by
          rw [Bool.or_eq_true, not_or] at hstop
          exact Bool.eq_false_iff.mpr hstop.2
        rw [List.map_append, EventList.ids, List.map_append, List.append_assoc] at howes
        have hfirst := hsettles _ _ _ _ _ howes
          (fun p hp => hcalm p (List.mem_append_left _ hp)) horganized
        rw [hfirst.result_eq] at h
        simp only [hstop] at h
        have hactive := hfirst.unchanged hnone
        have hsame := congrFun (hcongr sched mid hactive) shift.series
        have hfilter : (settled sched split).filter isCurrent = [] := by
          rw [List.filter_eq_nil_iff]
          exact List.any_eq_false.mp hnone
        have howed := hfirst.owes
        rw [hfilter] at howed
        have hsecond := hsettles mid sched' shift.series owed result
          (by rw [hsame]; exact howed)
          (by
            intro p hp hclass eOld hOld
            rw [hsame] at hp
            exact hcalm p (List.mem_append_right _ hp) hclass eOld (hactive ▸ hOld)) h
        rw [hsame] at hsecond
        exact hfirst.append hnone hsecond

/-- How organizing an event settles it. -/
theorem organizeEvent_settles
    (howes : sched.Owes (EventList.ids ((sched.settled ctx.now fuel e).map (·.2)) ++ owed))
    (hcalm : ∀ p ∈ sched.settled ctx.now fuel e, sched.UpdatesCalmly ctx p)
    (h : sched.organizeEvent ctx fuel e = some (sched', result)) :
    Settles ctx sched sched' (sched.settled ctx.now fuel e) owed result := by
  induction fuel generalizing sched sched' e owed result with
  | zero => cases h
  | succ fuel ih =>
    rw [organizeEvent] at h
    rw [settled] at howes hcalm ⊢
    cases hclass : sched.classifyEvent ctx.now e with
    | expired =>
      rw [hclass] at h
      simp only [hclass] at howes hcalm ⊢
      have hactive := saveExpired_activeEvent sched e
      have hsame : (sched.saveExpired e).settled ctx.now fuel = sched.settled ctx.now fuel :=
        funext (settled_congr hactive fuel)
      rw [← hsame] at howes hcalm ⊢
      refine (organizeRest_settles (fun sched => sched.settled ctx.now fuel) ?_ ?_
        (howes.saveExpired e) ?_ h).of_activeEvent hactive
      · exact fun sched mid hmid => funext (settled_congr hmid fuel)
      · exact fun sched sched' e owed result => ih
      · intro p hp hstatus eOld hOld
        exact hcalm p hp hstatus eOld (hactive ▸ hOld)
    | retroActive =>
      rw [hclass] at h
      simp only [hclass] at howes hcalm ⊢
      cases h
      exact Settles.current (by simp) howes rfl
    | active =>
      rw [hclass] at h
      simp only [hclass] at howes hcalm ⊢
      have hsome : ∃ eOld, sched.activeEvent = some eOld := by
        rw [classifyEvent] at hclass
        split_ifs at hclass with hany
        · cases hactive : sched.activeEvent with
          | none => simp [hactive] at hany
          | some eOld => exact ⟨eOld, rfl⟩
      obtain ⟨eOld, hOld⟩ := hsome
      have hdone := hcalm (.active, e) List.mem_cons_self rfl eOld hOld
      simp only [organizeActive, hOld] at h
      cases hupdate : updateActiveEvent ctx eOld e with
      | mk updated returned =>
        rw [hupdate] at h hdone
        cases returned with
        | panicked => exact absurd rfl hdone
        | done _ =>
          cases h
          refine Settles.current (by simp) howes ?_
          simp only [activeAfter, hOld, Option.map_some, hupdate]
    | scheduled =>
      rw [hclass] at h
      simp only [hclass] at howes hcalm ⊢
      cases h
      refine ⟨rfl, Owes.schedule howes, fun _ => rfl, fun p hp hcurrent => ?_⟩
      rw [List.mem_singleton.mp hp] at hcurrent
      cases hcurrent

/-! ## Organizing a list -/

/-- An event has settled under the identifier of the event organized, and not as expired. -/
theorem mem_settled (h : p ∈ sched.settled now fuel e) :
    p.2.id = e.id ∧ p.1 = sched.classifyEvent now p.2 ∧ p.1 ≠ .expired := by
  induction fuel generalizing e with
  | zero => cases h
  | succ fuel ih =>
    rw [settled] at h
    split at h
    · have hparts : (∃ split, e.shiftSeries.springForwardEvent = some split ∧
          p ∈ sched.settled now fuel split) ∨ p ∈ sched.settled now fuel e.shiftSeries.series := by
        rw [settledRest] at h
        split_ifs at h
        · obtain ⟨split, hsplit, hmem⟩ := List.mem_flatMap.mp h
          exact .inl ⟨split, by simpa using hsplit, hmem⟩
        · rcases List.mem_append.mp h with hmem | hmem
          · obtain ⟨split, hsplit, hmem⟩ := List.mem_flatMap.mp hmem
            exact .inl ⟨split, by simpa using hsplit, hmem⟩
          · exact .inr hmem
      rcases hparts with ⟨split, hsplit, hmem⟩ | hmem
      · obtain ⟨_, _, heq⟩ := Event.shiftSeries_springForwardEvent_eq hsplit
        have hid : split.id = e.id := by rw [heq]
        exact hid ▸ ih hmem
      · obtain ⟨_, _, heq⟩ := e.shiftSeries_series_eq
        have hid : e.shiftSeries.series.id = e.id := by rw [heq]
        exact hid ▸ ih hmem
    next hstatus =>
      rw [List.mem_singleton.mp h]
      exact ⟨rfl, rfl, hstatus⟩

/-- Organizing an event leaves one event under its identifier, and at most one event of the
list is active. An active event that is updated has the identifier of the event that updates
it, and its update does not panic. -/
structure PlacesOne (ctx : Context) (fuel : ℕ) (sched : Schedule) (included : Bool) (e : Event)
    (p : EventStatus × Event) : Prop where
  alone : sched.settled ctx.now fuel e = [p]
  oneActive : isCurrent p = true → included = false
  sameId : p.1 = .active → ∀ eOld, sched.activeEvent = some eOld → eOld.id = e.id
  calm : sched.UpdatesCalmly ctx p

/-- Every event of a list leaves one event under its identifier when it is organized. -/
def OrganizesOnce (ctx : Context) (fuel : ℕ) : EventList → Schedule → Bool → Prop
  | [], _, _ => True
  | e :: rest, sched, included =>
    ∃ p, PlacesOne ctx fuel sched included e p ∧
      OrganizesOnce ctx fuel rest { sched with activeEvent := activeAfter ctx sched p }
        (isCurrent p || included)

/-- Only the active event matters to how a list is organized. -/
theorem OrganizesOnce.of_activeEvent (h : OrganizesOnce ctx fuel eList sched included)
    (hactive : sched'.activeEvent = sched.activeEvent) :
    OrganizesOnce ctx fuel eList sched' included := by
  induction eList generalizing sched sched' included with
  | nil => trivial
  | cons e rest ih =>
    obtain ⟨p, hone, hrest⟩ := h
    have hafter : activeAfter ctx sched' p = activeAfter ctx sched p := by
      rw [activeAfter, activeAfter, hactive]
    refine ⟨p, ⟨?_, hone.oneActive, ?_, ?_⟩, ih hrest hafter⟩
    · rw [settled_congr hactive]
      exact hone.alone
    · rw [hactive]
      exact hone.sameId
    · rw [UpdatesCalmly, hactive]
      exact hone.calm

/-- Updating the active event changes its duration and values only. -/
theorem updateActiveEvent_eq (ctx : Context) (eOld eNew : Event) : ∃ duration variableMap,
    (updateActiveEvent ctx eOld eNew).1 = { eOld with duration, variableMap } := by
  have hvalues : ∀ (modeVariables : SetpointList) (e : Event), ∃ variableMap,
      (updateVariables ctx.hasLocalSchedule eNew modeVariables e).1 = { e with variableMap } := by
    intro modeVariables
    induction modeVariables with
    | nil => exact fun e => ⟨e.variableMap, rfl⟩
    | cons modeVar rest ih =>
      intro e
      rw [updateVariables]
      split
      · split_ifs
        · exact ⟨e.variableMap, rfl⟩
        · exact ⟨e.variableMap, rfl⟩
        · exact ih _
      · exact ih e
  rw [updateActiveEvent]
  split_ifs
  · exact ⟨eOld.duration, eOld.variableMap, rfl⟩
  · exact ⟨eOld.duration, eOld.variableMap, rfl⟩
  · dsimp only
    split
    · exact ⟨eNew.duration, eOld.variableMap, rfl⟩
    · exact ⟨eNew.duration, hvalues _ _⟩

/-- Updating the active event keeps its identifier. -/
theorem updateActiveEvent_id (ctx : Context) (eOld eNew : Event) :
    (updateActiveEvent ctx eOld eNew).1.id = eOld.id := by
  obtain ⟨duration, variableMap, heq⟩ := updateActiveEvent_eq ctx eOld eNew
  rw [heq]

/-- The event that is placed as the active one has the identifier of the event organized. -/
theorem PlacesOne.activeAfter_id (h : PlacesOne ctx fuel sched included e p)
    (hcurrent : isCurrent p = true) : EventList.ids (activeAfter ctx sched p).toList = [e.id] := by
  have hmem : p ∈ sched.settled ctx.now fuel e := by
    rw [h.alone]
    exact List.mem_cons_self
  obtain ⟨hid, hclass, hstatus⟩ := mem_settled hmem
  cases hp : p.1 with
  | expired => exact absurd hp hstatus
  | scheduled => simp [isCurrent, hp] at hcurrent
  | retroActive =>
    simp only [activeAfter, hp, Option.toList_some, EventList.ids_cons, EventList.ids_nil, hid]
  | active =>
    rw [hp, classifyEvent] at hclass
    split_ifs at hclass with hany
    · obtain ⟨eOld, hOld⟩ : ∃ eOld, sched.activeEvent = some eOld := by
        cases hactive : sched.activeEvent with
        | none => simp [hactive] at hany
        | some eOld => exact ⟨eOld, rfl⟩
      simp only [activeAfter, hp, hOld, Option.map_some, Option.toList_some, EventList.ids_cons,
        EventList.ids_nil, updateActiveEvent_id, h.sameId hp eOld hOld]

/-- The identifier of the active event, where it is among the events organized. -/
def includedIds (sched : Schedule) (included : Bool) : List Id :=
  if included then EventList.ids sched.activeEvent.toList else []

/-- Organizing a list of events whose identifiers are owed, each once, leaves only the
identifier of the active event owed. -/
theorem Owes.integrateEventList (howes : sched.Owes (sched.includedIds included ++ eList.ids))
    (honce : OrganizesOnce ctx fuel eList sched included)
    (h : Schedule.integrateEventList ctx fuel eList sched included = some (sched', result)) :
    ∃ included', result = .done included' ∧ sched'.Owes (sched'.includedIds included') := by
  induction eList generalizing sched included with
  | nil =>
    cases h
    rw [EventList.ids_nil, List.append_nil] at howes
    exact ⟨included, rfl, howes⟩
  | cons e rest ih =>
    obtain ⟨p, hone, hrest⟩ := honce
    have hid : p.2.id = e.id := (mem_settled (by rw [hone.alone]; exact List.mem_cons_self)).1
    rw [Schedule.integrateEventList] at h
    cases horganized : sched.organizeEvent ctx fuel e with
    | none =>
      rw [horganized] at h
      cases h
    | some organized =>
      obtain ⟨mid, result1⟩ := organized
      rw [horganized] at h
      have hsettles : Settles ctx sched mid (sched.settled ctx.now fuel e)
          (sched.includedIds included ++ EventList.ids rest) result1 := organizeEvent_settles
        (by
          rw [hone.alone]
          have hfront : sched.Owes (e.id :: (sched.includedIds included ++ EventList.ids rest)) :=
            howes.perm List.perm_middle
          rw [← hid] at hfront
          exact hfront)
        (by
          rw [hone.alone]
          intro p' hp'
          rw [List.mem_singleton.mp hp']
          exact hone.calm) horganized
      rw [hone.alone] at hsettles
      have hresult := hsettles.result_eq
      simp only [List.any_cons] at hresult
      rw [hresult] at h
      have howed := hsettles.owes
      cases hcurrent : isCurrent p with
      | false =>
        have hkept : mid.activeEvent = sched.activeEvent :=
          hsettles.unchanged (by simp [hcurrent])
        have hafter : activeAfter ctx sched p = sched.activeEvent := by
          have hstatus : p.1 = .scheduled := by simpa [isCurrent] using hcurrent
          rw [activeAfter, hstatus]
        rw [hcurrent] at h hrest
        rw [List.filter_cons_of_neg (by simp [hcurrent])] at howed
        refine ih ?_ (hrest.of_activeEvent (hkept.trans hafter.symm)) h
        rw [includedIds, hkept]
        exact howed
      | true =>
        have hnew := hsettles.active p List.mem_cons_self hcurrent
        have hnewId := hone.activeAfter_id hcurrent
        rw [hone.oneActive hcurrent] at howed
        rw [hcurrent] at h hrest
        rw [List.filter_cons_of_pos hcurrent] at howed
        refine ih ?_ (hrest.of_activeEvent hnew) h
        rw [includedIds, Bool.true_or, if_pos rfl, hnew, hnewId]
        simp only [EventList.ids, List.map_cons, hid] at howed ⊢
        exact howed

end Schedule

/-!
## The identifiers along runs

An edit prepares a list of events and a cache and overwrites the schedule with them. The
identifiers stay distinct and those of the cache as long as the list that is prepared has
them so and every event of it leaves exactly one event under its identifier.
-/

/-! ## The lists that edits prepare -/

/-- Validating an event keeps its identifier. -/
theorem Event.validate_id {timeZone : Option Location}
    {mapOfVariables : String → Option SetpointList} {e e' : Event}
    (h : e.validate timeZone mapOfVariables = .ok e') : e'.id = e.id := by
  unfold Event.validate at h
  cases timeZone with
  | none => cases h
  | some loc =>
    obtain ⟨_, -, h⟩ := CheckedRun.of_bind_ok h
    obtain ⟨_, -, h⟩ := CheckedRun.of_bind_ok h
    obtain ⟨_, -, h⟩ := CheckedRun.of_bind_ok h
    obtain ⟨_, -, h⟩ := CheckedRun.of_bind_ok h
    cases h
    rfl

namespace EventList

/-- Validating a list keeps its identifiers. -/
theorem ids_validate {fuel : ℕ} {timeZone : Option Location}
    {mapOfVariables : String → Option SetpointList} {eList valid : EventList}
    (h : eList.validate fuel timeZone mapOfVariables = some (.ok valid)) :
    valid.ids.Perm eList.ids := by
  have hmap : ∀ (eList eList' : EventList),
      eList.mapM (Event.validate timeZone mapOfVariables) = .ok eList' → eList'.ids = eList.ids := by
    intro eList
    induction eList with
    | nil =>
      intro eList' h
      cases h
      rfl
    | cons e rest ih =>
      intro eList' h
      rw [List.mapM_cons] at h
      obtain ⟨e', he', h⟩ := CheckedRun.of_bind_ok h
      obtain ⟨rest', hrest', h⟩ := CheckedRun.of_bind_ok h
      cases h
      rw [ids_cons, ids_cons, Event.validate_id he', ih rest' hrest']
  rw [validate] at h
  split at h
  · cases h
  next eList' hvalid =>
    rw [← hmap eList eList' hvalid]
    split at h
    · cases h
    · cases h
    · cases h
      exact ids_sort eList'

end EventList

namespace Process

variable {cache : IdCache} {src : RandomSrc} {inputs : EventList} {ctx : Context}
  {timezone : Option Location} {e updated : Event} {body : Body} {uriFrags : List String}
  {proc : Process} {fuel : ℕ} {eList : EventList} {cache' : IdCache} {src' : RandomSrc}
  {isActive : Bool} {request : EditRequest} {edit : Edit} {proc' : Process}

/-- Identifiers that are generated for a list are taken from the cache. -/
theorem generateIds_balanced {tagged : EventList} {used : List Id} (h : Balanced cache used)
    (hids : generateIds eList cache src = (some (tagged, cache'), src')) :
    Balanced cache' (tagged.ids ++ used) := by
  induction eList generalizing tagged cache src used with
  | nil =>
    cases hids
    exact h
  | cons e rest ih =>
    rw [generateIds] at hids
    split at hids
    · cases hids
    next id src hid =>
      split at hids
      · cases hids
      next hrest =>
        cases hids
        exact (ih (h.take (generateId_notMem hid)) hrest).perm List.perm_middle

/-- All events of a schedule have the identifiers of the schedule. -/
theorem ids_aggregateAllEvents (sched : Schedule) : sched.aggregateAllEvents.ids.Perm sched.ids := by
  have hexpired := EventList.ids_addList [] sched.expiredEvents
  rw [EventList.ids_nil, List.append_nil] at hexpired
  have hlisted := (EventList.ids_addList (EventList.addList [] sched.expiredEvents)
    sched.scheduledEvents).trans (List.perm_append_comm.trans (hexpired.append_right _))
  rw [Schedule.aggregateAllEvents, Schedule.ids]
  cases sched.activeEvent with
  | none =>
    rw [Option.toList_none, EventList.ids_nil, List.append_nil]
    exact hlisted
  | some e =>
    refine (EventList.ids_add _ e).trans ?_
    exact (hlisted.cons e.id).trans (List.perm_append_singleton e.id _).symm

/-- Every input event of a patch that starts when an event does has the identifier of that
event. -/
def PatchesKeepIds : EventList → EventList → IdCache → RandomSrc → Prop
  | [], _, _, _ => True
  | inputEvent :: rest, eList, cache, src =>
    match eList.get inputEvent.startTime with
    | some existing => inputEvent.id = existing.id ∧
      PatchesKeepIds rest
        (eList.modifyFirst (·.startTime.equal inputEvent.startTime) fun _ => inputEvent) cache src
    | none =>
      match generateId cache src with
      | (none, _) => True
      | (some id, src) =>
        PatchesKeepIds rest (eList.add (inputEvent.withId id)) (insert id cache) src

/-- Patches that keep identifiers keep the balance. -/
theorem patchEvents_balanced {patched : EventList} (h : Balanced cache eList.ids)
    (hkeeps : PatchesKeepIds inputs eList cache src)
    (hpatched : patchEvents inputs eList cache src = (some (patched, cache'), src')) :
    Balanced cache' patched.ids := by
  induction inputs generalizing eList cache src with
  | nil =>
    cases hpatched
    exact h
  | cons inputEvent rest ih =>
    rw [patchEvents] at hpatched
    rw [PatchesKeepIds] at hkeeps
    cases hget : eList.get inputEvent.startTime with
    | some existing =>
      rw [hget] at hkeeps hpatched
      obtain ⟨hid, hrest⟩ := hkeeps
      refine ih ?_ hrest hpatched
      rw [EventList.ids_modifyFirst fun e he => ?_]
      · exact h
      · rw [EventList.get] at hget
        rw [hid, Option.some.inj (hget.symm.trans he)]
    | none =>
      rw [hget] at hkeeps hpatched
      cases hnew : generateId cache src with
      | mk id src2 =>
        rw [hnew] at hkeeps hpatched
        cases id with
        | none => cases hpatched
        | some id =>
          refine ih ?_ hkeeps hpatched
          exact (h.take (generateId_notMem hnew)).perm
            (EventList.ids_add eList (inputEvent.withId id)).symm

/-- Checking the settings that an edit leaves keeps the identifier. -/
theorem checkSettings_id (h : Event.checkSettings ctx timezone e = .ok updated) :
    updated.id = e.id := by
  rw [Event.checkSettings] at h
  cases hvalid : e.validate timezone ctx.mapOfVariables with
  | error err =>
    rw [hvalid] at h
    cases h
  | ok e' =>
    rw [hvalid] at h
    cases h
    exact Event.validate_id hvalid

/-- New settings keep the identifier. -/
theorem newSettings_id (h : Event.newSettings ctx timezone isActive e body = .ok updated) :
    updated.id = e.id := by
  rw [Event.newSettings] at h
  split at h
  · cases h
  · split at h
    · cases h
    next newSettings _ =>
      dsimp only at h
      generalize (if isActive = true then newSettings.endTime else newSettings.startTime) = limit at h
      split_ifs at h
      cases h
      rfl

/-- New values of the variables keep the identifier. -/
theorem handleVariablesSet_id (h : e.handleVariablesSet uriFrags body = .ok updated) :
    updated.id = e.id := by
  rw [Event.handleVariablesSet] at h
  split at h
  · split at h
    · cases h
      rfl
    · cases h
  · split_ifs at h
    split at h
    · cases h
      rfl
    · cases h

/-- A SET to an event keeps its identifier. -/
theorem handleSet_id (h : e.handleSet ctx timezone isActive uriFrags body = .ok updated) :
    updated.id = e.id := by
  rw [Event.handleSet] at h
  split at h
  · exact newSettings_id h
  · split at h
    · cases h
    · split_ifs at h
      have hid := checkSettings_id h
      exact hid
  · split at h
    · cases h
    · dsimp only at h
      split_ifs at h
      have hid := checkSettings_id h
      exact hid
  · split at h
    · cases h
    next hvariables => exact (checkSettings_id h).trans (handleVariablesSet_id hvariables)
  · split at h
    · cases h
    · have hid := checkSettings_id h
      exact hid
  · cases h

/-- A POST to an event keeps its identifier. -/
theorem handlePost_id (h : e.handlePost ctx timezone uriFrags body = .ok updated) :
    updated.id = e.id := by
  rw [Event.handlePost] at h
  split at h
  · split at h
    · cases h
    · have hid := checkSettings_id h
      exact hid
  · cases h

/-- A DEL to a field of an event keeps its identifier. -/
theorem handleDel_id (h : e.handleDel ctx timezone uriFrags = .ok updated) : updated.id = e.id := by
  rw [Event.handleDel] at h
  split at h
  · split at h
    · cases h
    · have hid := checkSettings_id h
      exact hid
  · cases h

/-- An edit of an event keeps its identifier. -/
theorem editEvent_id {method : Method} {msg : FimsMsg} {target : Event}
    (h : editEvent ctx method msg proc target = .ok (some updated)) : updated.id = target.id := by
  have hmap : ∀ {result : Except ErrorResponse Event},
      result.map some = .ok (some updated) → result = .ok updated := by
    intro result hresult
    cases result with
    | error err => cases hresult
    | ok e =>
      cases hresult
      rfl
  cases method with
  | set => exact handleSet_id (hmap h)
  | post => exact handlePost_id (hmap h)
  | del =>
    rw [editEvent] at h
    split_ifs at h
    · cases h
    · exact handleDel_id (hmap h)

/-- The identifiers that an edit brings along: patches keep those of the events that they
change, and the list of a counterpart has distinct ones. -/
def Edit.TagsApart (sched : Schedule) : Edit → Prop
  | .patch inputs => PatchesKeepIds inputs sched.aggregateAllEvents sched.cache sched.randomSrc
  | .sync inputs => inputs.ids.Nodup
  | _ => True

/-- An edit prepares a list with distinct identifiers and their cache. -/
theorem Asks.balanced (asks : Asks ctx fuel proc request edit) (h : proc.schedule.WellTagged)
    (hapart : edit.TagsApart proc.schedule)
    (hprepare : edit.prepare proc.schedule = some (inputs, cache, src)) :
    Balanced cache inputs.ids := by
  have hall : Balanced proc.schedule.cache proc.schedule.aggregateAllEvents.ids :=
    Balanced.perm h (ids_aggregateAllEvents proc.schedule).symm
  cases edit with
  | set eList =>
    rw [Edit.prepare] at hprepare
    split at hprepare
    next hids =>
      cases hprepare
      have htagged := generateIds_balanced Balanced.empty hids
      rw [List.append_nil] at htagged
      exact htagged
    · cases hprepare
  | post eList =>
    rw [Edit.prepare] at hprepare
    split at hprepare
    next hids =>
      cases hprepare
      exact (generateIds_balanced hall hids).perm (EventList.ids_addList _ _).symm
    · cases hprepare
  | patch eList =>
    rw [Edit.prepare] at hprepare
    split at hprepare
    next hpatched =>
      cases hprepare
      exact patchEvents_balanced hall hapart hpatched
    · cases hprepare
  | delete ids =>
    cases hprepare
    have hfold : ∀ (ids : List Id) (eList : EventList) (cache : IdCache),
        Balanced cache eList.ids → Balanced (ids.foldl Finset.erase cache)
          (EventList.ids (ids.foldl EventList.deleteEventWithId eList)) := by
      intro ids
      induction ids with
      | nil => exact fun eList cache hbalanced => hbalanced
      | cons id rest ih =>
        intro eList cache hbalanced
        refine ih _ _ ?_
        rw [EventList.ids_deleteEventWithId]
        exact hbalanced.release id
    exact hfold ids _ _ hall
  | write id updated =>
    cases hprepare
    cases asks with
    | write found edited =>
      rw [EventList.ids_modifyFirst fun e he => ?_]
      · exact hall
      · rw [EventList.getEventWithId] at found
        rw [editEvent_id edited, Option.some.inj (found.symm.trans he)]
  | deleteOne id =>
    cases hprepare
    rw [EventList.ids_deleteEventWithId]
    exact hall.release id
  | sync eList =>
    cases hprepare
    exact Balanced.of_nodup hapart

/-! ## Runs -/

/-- Overwriting a schedule with a valid list that is organized once each leaves the
identifiers distinct and those of the cache. -/
theorem overwrite_wellTagged {external : Bool} {returned : Return (Except EditError Unit)}
    (hbalanced : Balanced cache inputs.ids)
    (hvalid : ∀ valid, inputs.validate fuel proc.schedule.timezone ctx.mapOfVariables =
      some (.ok valid) → Schedule.OrganizesOnce ctx fuel valid (proc.wiped cache) false)
    (h : proc.overwrite ctx fuel inputs cache external = some (proc', returned)) :
    (proc' = proc ∧ ∃ err, inputs.validate fuel proc.schedule.timezone ctx.mapOfVariables =
      some (.error err)) ∨ proc'.schedule.WellTagged := by
  rcases overwrite_cases h with hfailed | ⟨valid, schedule, result, hok, hintegrate, hschedule⟩
  · exact .inl hfailed
  · have howes : (proc.wiped cache).Owes
        ((proc.wiped cache).includedIds false ++ valid.ids) :=
      hbalanced.perm (EventList.ids_validate hok).symm
    obtain ⟨included, rfl, howed⟩ := howes.integrateEventList (hvalid valid hok) hintegrate
    refine .inr ?_
    rw [hschedule]
    cases included with
    | false =>
      rw [if_pos rfl]
      exact howed
    | true =>
      rw [if_neg (by simp)]
      exact howed

/-- An edit that keeps the identifiers: it brings distinct ones along, every event of the list
that it prepares leaves one event under its identifier, and it does not delete an event while
the others fail validation. -/
def EditKeepsIds (ctx : Context) (fuel : ℕ) (proc : Process) (request : EditRequest) : Prop :=
  ∀ edit inputs cache src, Asks ctx fuel proc request edit →
    edit.prepare proc.schedule = some (inputs, cache, src) →
    edit.TagsApart proc.schedule ∧
    (∀ valid, inputs.validate fuel proc.schedule.timezone ctx.mapOfVariables =
      some (.ok valid) → Schedule.OrganizesOnce ctx fuel valid (proc.wiped cache) false) ∧
    ∀ id err, edit = .deleteOne id →
      inputs.validate fuel proc.schedule.timezone ctx.mapOfVariables ≠ some (.error err)

/-- A request whose edits keep the identifiers. -/
theorem Handled.wellTagged (h : Handled ctx fuel proc request proc')
    (hkeeps : proc.EditKeepsIds ctx fuel request) (htagged : proc.schedule.WellTagged) :
    proc'.schedule.WellTagged := by
  cases h with
  | unchanged src => exact htagged
  | cleared => exact Balanced.empty
  | @edited edit inputs cache src _ _ asks prepare overwrites =>
    obtain ⟨hapart, hvalid, hdeletes⟩ := hkeeps edit inputs cache src asks prepare
    have hbalanced := asks.balanced htagged hapart prepare
    have horganizes : ∀ valid,
        inputs.validate fuel (proc.prepared edit src).schedule.timezone ctx.mapOfVariables =
          some (.ok valid) →
        Schedule.OrganizesOnce ctx fuel valid ((proc.prepared edit src).wiped cache) false :=
      fun valid hok => (hvalid valid hok).of_activeEvent rfl
    rcases overwrite_wellTagged hbalanced horganizes overwrites with ⟨rfl, err, herr⟩ | hdone
    · cases edit with
      | deleteOne id => exact absurd herr (hdeletes id err rfl)
      | set _ | post _ | patch _ | delete _ | write _ _ | sync _ => exact htagged
    · exact hdone

/-- What an operation on a schedule meets: its checks remove what has ended, and its edits
keep the identifiers. -/
def KeepsIds (proc : Process) (input : Input) : Prop :=
  match input.operation with
  | .check => proc.schedule.ChecksRemoving input.ctx.now input.fuel
  | .prune => True
  | .edit request => proc.EditKeepsIds input.ctx input.fuel request

/-- One operation keeps the identifiers. -/
theorem step_wellTagged (proc : Process) (input : Input) (proc' : Process)
    (htagged : proc.schedule.WellTagged) (hkeeps : proc.KeepsIds input)
    (h : proc.step input = .ok proc') : proc'.schedule.WellTagged := by
  rw [KeepsIds] at hkeeps
  rw [step] at h
  split at h
  next hcheck =>
    rw [hcheck] at hkeeps
    split at h
    · cases h
    next schedule changed hchecked =>
      cases h
      exact htagged.check hkeeps hchecked
  next =>
    cases h
    exact htagged.prune input.ctx.now
  next request hedit =>
    rw [hedit] at hkeeps
    split at h
    · cases h
    next proc' returned hhandle =>
      cases h
      exact (handle_handled hhandle).wellTagged hkeeps htagged

/-- Along every run whose operations keep the identifiers, the identifiers of all events are
distinct and the cache holds these and no others, before each operation and at the end. -/
theorem run_wellTagged (id : String) (timezone : Option Location) (src : RandomSrc)
    (modified : ℤ) (inputs : List Input)
    (hkeeps : CheckedRun.Guarded step KeepsIds (newSchedule id timezone src modified) inputs) :
    CheckedRun.Guarded step (fun proc _ => proc.schedule.WellTagged)
      (newSchedule id timezone src modified) inputs ∧
    ∀ proc', CheckedRun.run step (newSchedule id timezone src modified) inputs = .ok proc' →
      proc'.schedule.WellTagged := by
  have hnew : (newSchedule id timezone src modified).schedule.WellTagged := Balanced.empty
  refine ⟨?_, fun proc' => CheckedRun.run_invariant step_wellTagged hnew hkeeps⟩
  refine CheckedRun.guarded_law (fun proc => proc.schedule.WellTagged) ?_ hnew hkeeps
  exact fun proc input htagged hkeep =>
    ⟨htagged, fun proc' => step_wellTagged proc input proc' htagged hkeep⟩

/-! ## A patch that copies an identifier -/

/-- A schedule is set to two daily series, and the second is patched by an event without an
identifier of its own. -/
def setAndPatch : List Input :=
  [⟨quietDay 0, 9, .edit (.fullScheduleSet [everyDayAt (8 * hour), everyDayAt (9 * hour)])⟩,
    ⟨quietDay 0, 9, .edit (.fullSchedulePatch [everyDayAt (9 * hour)])⟩]

/-- The patch gives the second series the identifier of the first. -/
theorem setAndPatch_ids :
    (CheckedRun.run step emptySchedule setAndPatch).toOption.map
      (·.schedule.scheduledEvents.ids) = some [0, 0] := by
  decide +kernel

/-- Not every run from an empty schedule keeps the identifiers distinct and those of the
cache. -/
theorem setAndPatch_shares : ¬ ∀ inputs proc',
    CheckedRun.run step emptySchedule inputs = .ok proc' → proc'.schedule.WellTagged := by
  intro h
  obtain ⟨proc', hrun, hids⟩ := Option.map_eq_some_iff.mp setAndPatch_ids
  have htagged := h _ proc' (CheckedRun.ok_of_toOption hrun)
  have hnodup := htagged.nodup.of_append_left.of_append_right
  rw [hids] at hnodup
  exact absurd hnodup (by decide)

/-- A SET of the whole schedule asks for that edit only. -/
theorem Asks.eq_set (h : Asks ctx fuel proc (.fullScheduleSet inputs) edit) :
    edit = .set inputs := by
  generalize hrequest : EditRequest.fullScheduleSet inputs = request at h
  cases h with
  | fullScheduleSet =>
    cases hrequest
    rfl
  | @write method _ _ _ _ _ _ => cases method <;> cases hrequest
  | _ => cases hrequest

/-- Setting a schedule to two daily series and checking it keeps the identifiers. -/
theorem run_wellTagged_setAndCheck :
    CheckedRun.Guarded step (fun proc _ => proc.schedule.WellTagged)
      emptySchedule (setAndCheck dailyPair (8 * hour)) ∧
    ∀ proc', CheckedRun.run step emptySchedule (setAndCheck dailyPair (8 * hour)) = .ok proc' →
      proc'.schedule.WellTagged := by
  refine run_wellTagged "site" (some utc) UInt16.ofNat 0 _ ?_
  refine CheckedRun.guarded_cons (fun edit inputs cache src asks prepare => ?_)
    setDaily (CheckedRun.guarded_cons ?_ rfl trivial)
  · rw [asks.eq_set] at prepare ⊢
    cases prepare
    refine ⟨trivial, fun valid hvalid => ?_, fun id err hdelete => by cases hdelete⟩
    cases hvalid.symm.trans taggedPair_valid
    exact ⟨(.scheduled, everyDayAt (8 * hour)),
      ⟨rfl, by simp [Schedule.isCurrent], by simp, by simp [Schedule.UpdatesCalmly]⟩,
      (.scheduled, (everyDayAt (57 * hour)).withId 1),
      ⟨rfl, by simp [Schedule.isCurrent], by simp, by simp [Schedule.UpdatesCalmly]⟩, trivial⟩
  · intro _ series rest hhead _
    cases hhead
    exact ⟨fun hover => absurd hover (by decide +kernel), fun mid _ hexception => by
      cases hexception⟩

end Process

end HybridOs.Scheduler
