import HybridOs.SchedulerRun
import HybridOs.SchedulerSound
import Mathlib

/-!
# Edits of the modes

An edit of the modes keeps the events of all schedules sound where it deletes every event that no
longer suits its mode: no event shares its identifier with one of another mode when all of the
mode are deleted, and all are scheduled when they lose a variable.
-/

namespace HybridOs.Scheduler

/-! ## Deleting the events of a mode -/

namespace EventList

/-- Deleting identifiers from a list takes the events of an identifier away one by one. -/
theorem filter_foldl_delete (ids : List Id) (eList : EventList) (id : Id) :
    (ids.foldl deleteEventWithId eList).filter (·.id = id) =
      (eList.filter (·.id = id)).drop (ids.count id) := by
  have hone : ∀ (deleted : Id) (eList : EventList),
      (eList.deleteEventWithId deleted).filter (·.id = id) =
        (eList.filter (·.id = id)).drop (if deleted = id then 1 else 0) := by
    intro deleted eList
    rw [deleteEventWithId]
    induction eList with
    | nil => simp
    | cons e rest ih =>
      by_cases hdeleted : e.id = deleted
      · rw [List.eraseP_cons_of_pos (by simpa using hdeleted)]
        by_cases hid : deleted = id
        · simp [hid, hdeleted.trans hid]
        · simp [hid, show e.id ≠ id from fun heq => hid (hdeleted.symm.trans heq)]
      · rw [List.eraseP_cons_of_neg (by simpa using hdeleted)]
        by_cases hid : e.id = id
        · have hne : ¬ deleted = id := fun heq => hdeleted (hid.trans heq.symm)
          simp only [hne] at ih ⊢
          simp [hid, ih]
        · simp only [List.filter_cons, hid, decide_false, Bool.false_eq_true, if_false, ih]
  induction ids generalizing eList with
  | nil => simp
  | cons deleted rest ih =>
    rw [List.foldl_cons, ih, hone, List.drop_drop, List.count_cons]
    simp only [beq_iff_eq]
    rw [Nat.add_comm]

/-- What deleting identifiers leaves was there. -/
theorem mem_of_mem_foldl_delete {ids : List Id} {eList : EventList} {e : Event}
    (h : e ∈ ids.foldl deleteEventWithId eList) : e ∈ eList := by
  induction ids generalizing eList with
  | nil => exact h
  | cons deleted rest ih => exact List.mem_of_mem_eraseP (ih h)

/-- No event of a mode shares its identifier with an event of another mode. -/
def ApartFrom (modeId : String) (eList : EventList) : Prop :=
  ∀ e ∈ eList, ∀ e' ∈ eList, e.id = e'.id → e.mode = modeId → e'.mode = modeId

/-- Deleting the identifiers of the events of a mode, and others, leaves no event of it. -/
theorem mode_of_mem_foldl_delete {modeId : String} {ids : List Id} {eList : EventList}
    (hapart : eList.ApartFrom modeId)
    (hids : ∀ id, (eList.getIdsOfEventsWithMode modeId).count id ≤ ids.count id) {e : Event}
    (h : e ∈ ids.foldl deleteEventWithId eList) : e.mode ≠ modeId := by
  intro hmode
  have hmem := mem_of_mem_foldl_delete h
  have hleft : e ∈ (ids.foldl deleteEventWithId eList).filter (·.id = e.id) :=
    List.mem_filter.mpr ⟨h, by simp⟩
  have hsame : ∀ e' ∈ eList, decide (e'.id = e.id) = true → decide (e'.mode = modeId) = true := by
    intro e' he' hid
    exact decide_eq_true (hapart e hmem e' he' (of_decide_eq_true hid).symm hmode)
  have hcount : (eList.filter (·.id = e.id)).length ≤ ids.count e.id := by
    refine le_trans (le_of_eq ?_) (hids e.id)
    rw [getIdsOfEventsWithMode, List.count_eq_length_filter, List.filter_map, List.length_map,
      List.filter_filter]
    congr 1
    refine List.filter_congr fun e' he' => ?_
    cases hid : decide (e'.id = e.id) with
    | false => simp_all
    | true =>
      simp_all
  rw [filter_foldl_delete, List.drop_eq_nil_of_le hcount] at hleft
  contradiction

end EventList

namespace Schedule

/-- Deleting identifiers from a schedule deletes them from its lists and the active event. -/
theorem foldl_delete_fields (ids : List Id) (sched : Schedule) :
    (ids.foldl deleteEventWithId sched).expiredEvents =
        ids.foldl EventList.deleteEventWithId sched.expiredEvents ∧
      (ids.foldl deleteEventWithId sched).scheduledEvents =
        ids.foldl EventList.deleteEventWithId sched.scheduledEvents ∧
      ∀ e, (ids.foldl deleteEventWithId sched).activeEvent = some e →
        sched.activeEvent = some e ∧ e.id ∉ ids := by
  induction ids generalizing sched with
  | nil => exact ⟨rfl, rfl, fun e he => ⟨he, List.not_mem_nil⟩⟩
  | cons id rest ih =>
    obtain ⟨hexpired, hscheduled, hactive⟩ := ih (sched.deleteEventWithId id)
    refine ⟨hexpired, hscheduled, fun e he => ?_⟩
    obtain ⟨hfiltered, hrest⟩ := hactive e he
    obtain ⟨hthere, hne⟩ := Option.filter_eq_some_iff.mp hfiltered
    refine ⟨hthere, fun hmem => ?_⟩
    rcases List.mem_cons.mp hmem with heq | hmem
    · simp [heq] at hne
    · exact hrest hmem

/-- In no list does an event of a mode share its identifier with one of another mode. -/
def ApartFrom (modeId : String) (sched : Schedule) : Prop :=
  sched.expiredEvents.ApartFrom modeId ∧ sched.scheduledEvents.ApartFrom modeId

/-- Deleting the events of a mode keeps the others. -/
theorem All.deleteEventsWithMode {property : Event → Prop} {sched : Schedule}
    (h : sched.All property) {modeId : String} (hapart : sched.ApartFrom modeId) :
    (sched.deleteEventsWithMode modeId).All fun e => property e ∧ e.mode ≠ modeId := by
  obtain ⟨hexpired, hscheduled, hactive⟩ :=
    foldl_delete_fields (sched.getIdsOfEventsWithMode modeId) sched
  rw [Schedule.deleteEventsWithMode]
  refine ⟨fun e he => ?_, fun e he => ?_, fun e he => ?_⟩
  · rw [hexpired] at he
    refine ⟨h.expired e (EventList.mem_of_mem_foldl_delete he), ?_⟩
    refine EventList.mode_of_mem_foldl_delete hapart.1 (fun id => ?_) he
    rw [getIdsOfEventsWithMode, List.count_append, List.count_append]
    omega
  · rw [hscheduled] at he
    refine ⟨h.scheduled e (EventList.mem_of_mem_foldl_delete he), ?_⟩
    refine EventList.mode_of_mem_foldl_delete hapart.2 (fun id => ?_) he
    rw [getIdsOfEventsWithMode, List.count_append, List.count_append]
    omega
  · obtain ⟨hthere, hkept⟩ := hactive e he
    refine ⟨h.active e hthere, fun hmode => hkept ?_⟩
    rw [getIdsOfEventsWithMode, hthere, List.mem_append]
    exact .inr (by simp [EventList.getIdsOfEventsWithMode, hmode])

end Schedule

/-! ## Carrying an edit of variables over to events -/

namespace ScheduleMap

/-- All events of all schedules have a property. -/
def All (property : Event → Prop) (schedules : ScheduleMap) : Prop :=
  ∀ id sched, schedules id = some sched → sched.All property

/-- In no list of a schedule does an event of a mode share its identifier with one of another
mode. -/
def ApartFrom (modeId : String) (schedules : ScheduleMap) : Prop :=
  ∀ id sched, schedules id = some sched → sched.ApartFrom modeId

/-- No expired event and no active event is of a mode. -/
def OnlyScheduled (modeId : String) (schedules : ScheduleMap) : Prop :=
  ∀ id sched, schedules id = some sched →
    (∀ e ∈ sched.expiredEvents, e.mode ≠ modeId) ∧
    ∀ e, sched.activeEvent = some e → e.mode ≠ modeId

variable {property : Event → Prop} {schedules schedules' : ScheduleMap} {modeId : String}
  {eList eList' : EventList}

theorem All.imp {property' : Event → Prop} (h : schedules.All property)
    (himp : ∀ e, property e → property' e) : schedules.All property' := by
  intro id sched hsched
  have hall := h id sched hsched
  exact ⟨fun e he => himp e (hall.expired e he), fun e he => himp e (hall.scheduled e he),
    fun e he => himp e (hall.active e he)⟩

theorem All.deleteEventsWithMode (h : schedules.All property)
    (hapart : schedules.ApartFrom modeId) :
    (schedules.deleteEventsWithMode modeId).All fun e => property e ∧ e.mode ≠ modeId := by
  intro id sched' hsched'
  obtain ⟨sched, hsched, rfl⟩ := Option.map_eq_some_iff.mp hsched'
  exact (h id sched hsched).deleteEventsWithMode (hapart id sched hsched)

/-- Delete variables of a mode, one after another. -/
def deleteVarsOfMode (modeId : String) (varIds : List String) (schedules : ScheduleMap) :
    ScheduleMap :=
  varIds.foldl (fun schedules varId => schedules.deleteVarOfMode varId modeId) schedules

/-- What deleting variables of a mode does to an event. -/
def loseVars (modeId : String) (varIds : List String) (e : Event) : Event :=
  if e.mode = modeId then
    { e with
      variableMap := varIds.foldl (fun variableMap varId => variableMap.erase varId)
        e.variableMap }
  else e

theorem loseVars_cons (modeId varId : String) (varIds : List String) (e : Event) :
    loseVars modeId varIds (loseVars modeId [varId] e) = loseVars modeId (varId :: varIds) e := by
  unfold loseVars
  split_ifs <;> rfl

/-- Deleting variables of a mode changes the scheduled events only. -/
theorem deleteVarsOfMode_apply (modeId : String) (varIds : List String) (schedules : ScheduleMap)
    (id : String) : schedules.deleteVarsOfMode modeId varIds id =
      (schedules id).map fun sched =>
        { sched with scheduledEvents := sched.scheduledEvents.map (loseVars modeId varIds) } := by
  induction varIds generalizing schedules with
  | nil =>
    have hnothing : loseVars modeId [] = fun e => e := by
      funext e
      rw [loseVars]
      split_ifs <;> rfl
    rw [hnothing, deleteVarsOfMode, List.foldl_nil]
    cases schedules id <;> simp
  | cons varId rest ih =>
    have hone : ∀ eList : EventList, eList.deleteVarOfMode varId modeId =
        eList.map (loseVars modeId [varId]) := fun eList => rfl
    have htail := ih (schedules.deleteVarOfMode varId modeId)
    rw [deleteVarsOfMode] at htail ⊢
    rw [List.foldl_cons, htail, ScheduleMap.deleteVarOfMode, Option.map_map]
    refine congrArg (Option.map · (schedules id)) (funext fun sched => ?_)
    simp only [Function.comp_apply, hone, List.map_map]
    congr 1
    refine List.map_congr_left fun e _ => ?_
    exact loseVars_cons modeId varId rest e

/-- A variable is in both lists under different types. -/
def Retypes (oldVariables newVariables : SetpointList) : Prop :=
  ∃ oldVar ∈ oldVariables, ∃ newVar, newVariables.find oldVar.id = some newVar ∧
    oldVar.varType ≠ newVar.varType

/-- The identifiers of the old variables that are no longer there. -/
def lostIds (oldVariables newVariables : SetpointList) : List String :=
  SetpointList.ids (oldVariables.filter fun oldVar => (newVariables.find oldVar.id).isNone)

/-- Where no variable changes its type, the lost ones are deleted. -/
theorem updateEventsOfVariables_lost {oldVariables newVariables : SetpointList} (modeId : String)
    (schedules : ScheduleMap) (h : ¬ Retypes oldVariables newVariables) :
    schedules.updateEventsOfVariables newVariables modeId oldVariables =
      schedules.deleteVarsOfMode modeId (lostIds oldVariables newVariables) := by
  induction oldVariables generalizing schedules with
  | nil => rfl
  | cons oldVar rest ih =>
    have hrest : ¬ Retypes rest newVariables := by
      rintro ⟨v, hv, hretyped⟩
      exact h ⟨v, List.mem_cons_of_mem _ hv, hretyped⟩
    rw [updateEventsOfVariables]
    split
    next hnone =>
      have hlost : lostIds (oldVar :: rest) newVariables =
          oldVar.id :: lostIds rest newVariables := by
        rw [lostIds, List.filter_cons_of_pos (by simp [hnone])]
        rfl
      rw [ih _ hrest, hlost]
      rfl
    next newVar hfound =>
      split_ifs with hne
      · exact absurd ⟨oldVar, List.mem_cons_self, newVar, hfound, hne⟩ h
      · have hlost : lostIds (oldVar :: rest) newVariables = lostIds rest newVariables := by
          rw [lostIds, List.filter_cons_of_neg (by simp [hfound])]
          rfl
        rw [ih _ hrest, hlost]

/-- Where a variable changes its type, all events of the mode are deleted in the end. -/
theorem updateEventsOfVariables_retyped {oldVariables newVariables : SetpointList}
    (modeId : String) (schedules : ScheduleMap) (h : Retypes oldVariables newVariables) :
    ∃ varIds, schedules.updateEventsOfVariables newVariables modeId oldVariables =
      (schedules.deleteVarsOfMode modeId varIds).deleteEventsWithMode modeId := by
  induction oldVariables generalizing schedules with
  | nil =>
    obtain ⟨v, hv, -⟩ := h
    contradiction
  | cons oldVar rest ih =>
    rw [updateEventsOfVariables]
    split
    next hnone =>
      have hrest : Retypes rest newVariables := by
        obtain ⟨v, hv, newVar, hfound, hne⟩ := h
        rcases List.mem_cons.mp hv with rfl | hmem
        · rw [hnone] at hfound
          cases hfound
        · exact ⟨v, hmem, newVar, hfound, hne⟩
      obtain ⟨varIds, heq⟩ := ih (schedules.deleteVarOfMode oldVar.id modeId) hrest
      exact ⟨oldVar.id :: varIds, heq⟩
    next newVar hfound =>
      split_ifs with hne
      · exact ⟨[], rfl⟩
      · have hrest : Retypes rest newVariables := by
          obtain ⟨v, hv, newVar', hfound', hne'⟩ := h
          rcases List.mem_cons.mp hv with rfl | hmem
          · cases hfound.symm.trans hfound'
            exact absurd hne' hne
          · exact ⟨v, hmem, newVar', hfound', hne'⟩
        exact ih schedules hrest

/-- The events of a list are among those of another, by identifier and mode. -/
def WithinList (eList eList' : EventList) : Prop :=
  ∀ e' ∈ eList', ∃ e ∈ eList, e.id = e'.id ∧ e.mode = e'.mode

/-- The events of schedules are among those of others, by identifier and mode. -/
def Within (schedules schedules' : ScheduleMap) : Prop :=
  ∀ id sched', schedules' id = some sched' → ∃ sched, schedules id = some sched ∧
    WithinList sched.expiredEvents sched'.expiredEvents ∧
    WithinList sched.scheduledEvents sched'.scheduledEvents ∧
    WithinList sched.activeEvent.toList sched'.activeEvent.toList

theorem WithinList.of_subset (h : eList' ⊆ eList) :
    WithinList eList eList' := fun e he => ⟨e, h he, rfl, rfl⟩

theorem WithinList.trans {eList'' : EventList} (h : WithinList eList eList')
    (h' : WithinList eList' eList'') : WithinList eList eList'' := by
  intro e'' he''
  obtain ⟨e', he', hid', hmode'⟩ := h' e'' he''
  obtain ⟨e, he, hid, hmode⟩ := h e' he'
  exact ⟨e, he, hid.trans hid', hmode.trans hmode'⟩

theorem Within.refl (schedules : ScheduleMap) : schedules.Within schedules := fun _ sched hsched =>
  ⟨sched, hsched, .of_subset (List.Subset.refl _), .of_subset (List.Subset.refl _),
    .of_subset (List.Subset.refl _)⟩

theorem Within.trans {schedules'' : ScheduleMap} (h : schedules.Within schedules')
    (h' : schedules'.Within schedules'') : schedules.Within schedules'' := by
  intro id sched'' hsched''
  obtain ⟨sched', hsched', hexpired', hscheduled', hactive'⟩ := h' id sched'' hsched''
  obtain ⟨sched, hsched, hexpired, hscheduled, hactive⟩ := h id sched' hsched'
  exact ⟨sched, hsched, hexpired.trans hexpired', hscheduled.trans hscheduled',
    hactive.trans hactive'⟩

theorem WithinList.apartFrom (h : WithinList eList eList') (hapart : eList.ApartFrom modeId) :
    eList'.ApartFrom modeId := by
  intro e₁ he₁ e₂ he₂ hid hmode
  obtain ⟨f₁, hf₁, hid₁, hmode₁⟩ := h e₁ he₁
  obtain ⟨f₂, hf₂, hid₂, hmode₂⟩ := h e₂ he₂
  rw [← hmode₂]
  exact hapart f₁ hf₁ f₂ hf₂ (hid₁.trans (hid.trans hid₂.symm)) (hmode₁.trans hmode)

theorem Within.apartFrom (h : schedules.Within schedules') (hapart : schedules.ApartFrom modeId) :
    schedules'.ApartFrom modeId := by
  intro id sched' hsched'
  obtain ⟨sched, hsched, hexpired, hscheduled, -⟩ := h id sched' hsched'
  obtain ⟨hexpiredApart, hscheduledApart⟩ := hapart id sched hsched
  exact ⟨hexpired.apartFrom hexpiredApart, hscheduled.apartFrom hscheduledApart⟩

theorem Within.onlyScheduled (h : schedules.Within schedules')
    (honly : schedules.OnlyScheduled modeId) : schedules'.OnlyScheduled modeId := by
  intro id sched' hsched'
  obtain ⟨sched, hsched, hexpired, -, hactive⟩ := h id sched' hsched'
  obtain ⟨hexpiredOnly, hactiveOnly⟩ := honly id sched hsched
  constructor
  · intro e' he'
    obtain ⟨e, he, -, hmode⟩ := hexpired e' he'
    rw [← hmode]
    exact hexpiredOnly e he
  · intro e' he'
    obtain ⟨e, he, -, hmode⟩ := hactive e' (by simp [he'])
    rw [← hmode]
    exact hactiveOnly e (by simpa using he)

theorem within_deleteEventsWithMode (schedules : ScheduleMap) (modeId : String) :
    schedules.Within (schedules.deleteEventsWithMode modeId) := by
  intro id sched' hsched'
  obtain ⟨sched, hsched, rfl⟩ := Option.map_eq_some_iff.mp hsched'
  obtain ⟨hexpired, hscheduled, hactive⟩ :=
    Schedule.foldl_delete_fields (sched.getIdsOfEventsWithMode modeId) sched
  refine ⟨sched, hsched, .of_subset fun e he => ?_, .of_subset fun e he => ?_,
    .of_subset fun e he => ?_⟩
  · rw [Schedule.deleteEventsWithMode, hexpired] at he
    exact EventList.mem_of_mem_foldl_delete he
  · rw [Schedule.deleteEventsWithMode, hscheduled] at he
    exact EventList.mem_of_mem_foldl_delete he
  · rw [Schedule.deleteEventsWithMode, Option.mem_toList] at he
    exact Option.mem_toList.mpr (hactive e he).1

theorem within_deleteVarsOfMode (schedules : ScheduleMap) (modeId : String)
    (varIds : List String) : schedules.Within (schedules.deleteVarsOfMode modeId varIds) := by
  intro id sched' hsched'
  rw [deleteVarsOfMode_apply] at hsched'
  obtain ⟨sched, hsched, rfl⟩ := Option.map_eq_some_iff.mp hsched'
  refine ⟨sched, hsched, .of_subset (List.Subset.refl _), fun e' he' => ?_,
    .of_subset (List.Subset.refl _)⟩
  obtain ⟨e, he, rfl⟩ := List.mem_map.mp he'
  refine ⟨e, he, ?_⟩
  rw [loseVars]
  split_ifs <;> exact ⟨rfl, rfl⟩

theorem within_updateEvents (schedules : ScheduleMap) (oldVariables newVariables : SetpointList)
    (modeId : String) : schedules.Within
      (schedules.updateEventsBasedOnVariableListEdit oldVariables newVariables modeId) := by
  rw [updateEventsBasedOnVariableListEdit]
  split_ifs
  · exact within_deleteEventsWithMode schedules modeId
  · by_cases hretypes : Retypes oldVariables newVariables
    · obtain ⟨varIds, heq⟩ := updateEventsOfVariables_retyped modeId schedules hretypes
      rw [heq]
      exact (within_deleteVarsOfMode schedules modeId varIds).trans
        (within_deleteEventsWithMode _ modeId)
    · rw [updateEventsOfVariables_lost modeId schedules hretypes]
      exact within_deleteVarsOfMode schedules modeId _

/-- Deleting variables of a mode keeps what holds of the events of other modes. -/
theorem All.deleteVarsOfMode {varIds : List String} (h : schedules.All property) :
    (schedules.deleteVarsOfMode modeId varIds).All fun e => e.mode ≠ modeId → property e := by
  intro id sched' hsched'
  rw [deleteVarsOfMode_apply] at hsched'
  obtain ⟨sched, hsched, rfl⟩ := Option.map_eq_some_iff.mp hsched'
  have hall := h id sched hsched
  refine ⟨fun e he _ => hall.expired e he, fun e he hmode => ?_, fun e he _ => hall.active e he⟩
  obtain ⟨original, hmem, rfl⟩ := List.mem_map.mp he
  rw [loseVars] at hmode ⊢
  split_ifs at hmode ⊢ with horiginal
  · exact absurd horiginal hmode
  · exact hall.scheduled original hmem

end ScheduleMap

namespace SetpointList

theorem find_isSome_iff {list : SetpointList} {id : String} :
    (list.find id).isSome = true ↔ id ∈ list.ids := by
  rw [find, List.find?_isSome, ids, List.mem_map]
  constructor
  · rintro ⟨v, hv, hid⟩
    exact ⟨v, hv, (of_decide_eq_true hid).symm⟩
  · rintro ⟨v, hv, hid⟩
    exact ⟨v, hv, decide_eq_true hid.symm⟩

/-- A setpoint of a list with distinct identifiers is the one that is found. -/
theorem find_of_mem {list : SetpointList} (hnodup : list.ids.Nodup) {v : Setpoint}
    (hv : v ∈ list) : list.find v.id = some v := by
  have hsome : (list.find v.id).isSome = true :=
    find_isSome_iff.mpr (List.mem_map_of_mem hv)
  obtain ⟨found, hfound⟩ := Option.isSome_iff_exists.mp hsome
  have hmem : found ∈ list := List.mem_of_find?_eq_some hfound
  rw [find] at hfound
  have hid : v.id = found.id := by simpa using List.find?_some hfound
  rw [find, hfound, List.inj_on_of_nodup_map hnodup hmem hv hid.symm]

end SetpointList

/-- What is left of values after variables have been erased. -/
theorem lookup_foldl_erase (varIds : List String) (variableMap : VariableMap) (id : String) :
    (varIds.foldl (fun variableMap varId => variableMap.erase varId) variableMap).lookup id =
      if id ∈ varIds then none else variableMap.lookup id := by
  induction varIds generalizing variableMap with
  | nil => simp
  | cons varId rest ih =>
    rw [List.foldl_cons, ih]
    by_cases hid : id = varId
    · rw [hid, AList.lookup_erase]
      simp
    · rw [AList.lookup_erase_ne hid]
      simp [hid]

/-- Values that suit the old variables suit the new ones once the lost variables are erased,
where no variable is gained or retyped. -/
theorem Suits.lose {oldVariables newVariables : SetpointList} {variableMap : VariableMap}
    (h : Suits oldVariables variableMap) (hnew : WellFormedVariables newVariables)
    (hmissing : oldVariables.isMissingSetpointsThatAreIn newVariables = false)
    (hretypes : ¬ ScheduleMap.Retypes oldVariables newVariables) :
    Suits newVariables ((ScheduleMap.lostIds oldVariables newVariables).foldl
      (fun variableMap varId => variableMap.erase varId) variableMap) := by
  have hthere : ∀ v ∈ newVariables, ∃ oldVar ∈ oldVariables, oldVar.id = v.id := by
    intro v hv
    have hsome : v.id ∈ oldVariables.ids := by
      rw [SetpointList.isMissingSetpointsThatAreIn, List.any_eq_false] at hmissing
      have hfound := hmissing v hv
      rw [Option.isNone_iff_eq_none, ← ne_eq, Option.ne_none_iff_isSome] at hfound
      exact SetpointList.find_isSome_iff.mp hfound
    exact List.mem_map.mp hsome
  have hlost : ∀ id, id ∈ ScheduleMap.lostIds oldVariables newVariables ↔
      id ∈ oldVariables.ids ∧ id ∉ newVariables.ids := by
    intro id
    simp only [ScheduleMap.lostIds, SetpointList.ids, List.mem_map, List.mem_filter]
    constructor
    · rintro ⟨v, ⟨hv, hnone⟩, rfl⟩
      refine ⟨⟨v, hv, rfl⟩, fun hmem => ?_⟩
      have hsome := SetpointList.find_isSome_iff.mpr (List.mem_map.mpr hmem)
      rw [Option.isNone_iff_eq_none.mp hnone] at hsome
      cases hsome
    · rintro ⟨⟨v, hv, rfl⟩, hgone⟩
      refine ⟨v, ⟨hv, ?_⟩, rfl⟩
      rw [Option.isNone_iff_eq_none, ← Option.not_isSome_iff_eq_none]
      intro hsome
      exact hgone (List.mem_map.mp (SetpointList.find_isSome_iff.mp hsome))
  constructor
  · intro id
    rw [← AList.lookup_isSome, lookup_foldl_erase]
    split_ifs with hgone
    · exact iff_of_false (by simp) ((hlost id).mp hgone).2
    · rw [AList.lookup_isSome, h.keys id]
      constructor
      · intro hold
        by_contra hnot
        exact hgone ((hlost id).mpr ⟨hold, hnot⟩)
      · intro hmem
        obtain ⟨v, hv, rfl⟩ := List.mem_map.mp hmem
        obtain ⟨oldVar, hold, hid⟩ := hthere v hv
        rw [← hid]
        exact List.mem_map_of_mem hold
  · intro v hv value hvalue
    rw [lookup_foldl_erase] at hvalue
    split_ifs at hvalue with hgone
    obtain ⟨oldVar, hold, hid⟩ := hthere v hv
    have hfound : newVariables.find oldVar.id = some v := by
      rw [hid]
      exact SetpointList.find_of_mem hnew.nodup hv
    have htype : oldVar.varType = v.varType := by
      by_contra hne
      exact hretypes ⟨oldVar, hold, v, hfound, hne⟩
    rw [← htype]
    exact h.values oldVar hold value (by rw [hid]; exact hvalue)

/-- Whether an event is sound depends on the variables of its mode only. -/
theorem Event.Sound.congr {mapOfVariables mapOfVariables' : String → Option SetpointList}
    {e : Event} (h : e.Sound mapOfVariables)
    (hmode : mapOfVariables' e.mode = mapOfVariables e.mode) : e.Sound mapOfVariables' := by
  obtain ⟨modeVariables, hvariables, hsuits⟩ := h.suits
  exact ⟨⟨modeVariables, hmode.trans hvariables, hsuits⟩, h.duration, h.repeatSettings⟩

namespace ScheduleMap

/-- The events of a mode whose variables are edited can be kept sound: where they are all
deleted, none shares its identifier with an event of another mode, and where they lose a
variable, they are all scheduled. -/
structure EditsCleanly (schedules : ScheduleMap) (modeId : String)
    (oldVariables newVariables : SetpointList) : Prop where
  deletes : oldVariables.isMissingSetpointsThatAreIn newVariables = true ∨
    Retypes oldVariables newVariables → schedules.ApartFrom modeId
  loses : oldVariables.isMissingSetpointsThatAreIn newVariables = false →
    ¬ Retypes oldVariables newVariables → lostIds oldVariables newVariables ≠ [] →
      schedules.OnlyScheduled modeId

/-- Carrying a clean edit of variables over to the events keeps them sound. -/
theorem All.updateEvents {mapOfVariables : String → Option SetpointList}
    {schedules : ScheduleMap} (h : schedules.All (Event.Sound mapOfVariables)) {modeId : String}
    {oldVariables newVariables : SetpointList} (hold : mapOfVariables modeId = some oldVariables)
    (hnew : WellFormedVariables newVariables)
    (hclean : schedules.EditsCleanly modeId oldVariables newVariables) :
    (schedules.updateEventsBasedOnVariableListEdit oldVariables newVariables modeId).All
      (Event.Sound (Function.update mapOfVariables modeId (some newVariables))) := by
  have hother : ∀ e : Event, e.Sound mapOfVariables → e.mode ≠ modeId →
      e.Sound (Function.update mapOfVariables modeId (some newVariables)) := by
    intro e hsound hmode
    exact hsound.congr (Function.update_of_ne hmode _ _)
  rw [updateEventsBasedOnVariableListEdit]
  split_ifs with hmissing
  · exact (h.deleteEventsWithMode (hclean.deletes (.inl hmissing))).imp fun e he =>
      hother e he.1 he.2
  · rw [Bool.not_eq_true] at hmissing
    by_cases hretypes : Retypes oldVariables newVariables
    · obtain ⟨varIds, heq⟩ := updateEventsOfVariables_retyped modeId schedules hretypes
      have hapart := (within_deleteVarsOfMode schedules modeId varIds).apartFrom
        (hclean.deletes (.inr hretypes))
      rw [heq]
      exact (h.deleteVarsOfMode.deleteEventsWithMode hapart).imp fun e he =>
        hother e (he.1 he.2) he.2
    · rw [updateEventsOfVariables_lost modeId schedules hretypes]
      intro id sched' hsched'
      rw [deleteVarsOfMode_apply] at hsched'
      obtain ⟨sched, hsched, rfl⟩ := Option.map_eq_some_iff.mp hsched'
      have hall := h id sched hsched
      have hlosing : ∀ e : Event, e.Sound mapOfVariables →
          (loseVars modeId (lostIds oldVariables newVariables) e).Sound
            (Function.update mapOfVariables modeId (some newVariables)) := by
        intro e hsound
        rw [loseVars]
        split_ifs with hmode
        · obtain ⟨modeVariables, hvariables, hsuits⟩ := hsound.suits
          rw [hmode, hold] at hvariables
          cases hvariables
          refine ⟨⟨newVariables, ?_, hsuits.lose hnew hmissing hretypes⟩, hsound.duration,
            hsound.repeatSettings⟩
          rw [hmode, Function.update_self]
        · exact hother e hsound hmode
      -- The other events keep their variables, so that none may be lost.
      have hkept : ∀ e : Event, (lostIds oldVariables newVariables ≠ [] → e.mode ≠ modeId) →
          e.Sound mapOfVariables →
            e.Sound (Function.update mapOfVariables modeId (some newVariables)) := by
        intro e hmode hsound
        by_cases hlost : lostIds oldVariables newVariables = []
        · have hsame := hlosing e hsound
          rw [hlost, loseVars] at hsame
          simpa using hsame
        · exact hother e hsound (hmode hlost)
      have honly := fun hlost => hclean.loses hmissing hretypes hlost id sched hsched
      refine ⟨fun e he => ?_, fun e he => ?_, fun e he => ?_⟩
      · exact hkept e (fun hlost => (honly hlost).1 e he) (hall.expired e he)
      · obtain ⟨original, hmem, rfl⟩ := List.mem_map.mp he
        exact hlosing original (hall.scheduled original hmem)
      · exact hkept e (fun hlost => (honly hlost).2 e he) (hall.active e he)

end ScheduleMap

/-! ## Edits of the modes -/

namespace ModeMap

theorem buildMapOfVariables_insert (mm : ModeMap) (modeId : String) (m : Mode) :
    buildMapOfVariables (mm.insert modeId m) =
      Function.update mm.buildMapOfVariables modeId (some m.modeVariables) := by
  funext id
  by_cases hid : id = modeId
  · rw [hid, Function.update_self, buildMapOfVariables, AList.lookup_insert]
    rfl
  · rw [Function.update_of_ne hid, buildMapOfVariables, AList.lookup_insert_ne hid]
    rfl

end ModeMap

namespace Master

/-- The modes have variables in order, and the events are sound. -/
structure Fits (master : Master) : Prop where
  wellFormed : Event.WellFormedModes master.modes.buildMapOfVariables
  events : master.schedules.All (Event.Sound master.modes.buildMapOfVariables)

variable {master : Master} {modeId : String} {newModes : ModeMap}

/-- Modes that keep the variables of the modes that are there keep the events sound. -/
theorem Fits.withModes (h : master.Fits) {modes : ModeMap}
    (hwell : Event.WellFormedModes modes.buildMapOfVariables)
    (hkept : ∀ modeId modeVariables, master.modes.buildMapOfVariables modeId = some modeVariables →
      modes.buildMapOfVariables modeId = some modeVariables) : Fits { master with modes } := by
  refine ⟨hwell, h.events.imp fun e he => he.congr ?_⟩
  obtain ⟨modeVariables, hvariables, -⟩ := he.suits
  exact (hkept _ _ hvariables).trans hvariables.symm

/-- A map of well-formed modes with one more is one. -/
theorem wellFormed_insert {modes : ModeMap} {m : Mode}
    (h : Event.WellFormedModes modes.buildMapOfVariables)
    (hm : WellFormedVariables m.modeVariables) :
    Event.WellFormedModes (ModeMap.buildMapOfVariables (modes.insert modeId m)) := by
  rw [ModeMap.buildMapOfVariables_insert]
  intro id modeVariables hvariables
  by_cases hid : id = modeId
  · rw [hid, Function.update_self, Option.some.injEq] at hvariables
    exact hvariables ▸ hm
  · rw [Function.update_of_ne hid] at hvariables
    exact h id modeVariables hvariables

/-- Overwriting a mode cleanly keeps the events sound. -/
theorem Fits.overwriteMode (h : master.Fits) {newSettings : Mode}
    (hnew : WellFormedVariables newSettings.modeVariables)
    (hclean : ∀ m, master.modes.lookup modeId = some m →
      master.schedules.EditsCleanly modeId m.modeVariables newSettings.modeVariables) :
    (master.overwriteMode modeId newSettings).Fits := by
  rw [Master.overwriteMode]
  split
  · exact h
  next m hm =>
    have hold : master.modes.buildMapOfVariables modeId = some m.modeVariables := by
      rw [ModeMap.buildMapOfVariables, hm]
      rfl
    refine ⟨wellFormed_insert h.wellFormed hnew, ?_⟩
    rw [ModeMap.buildMapOfVariables_insert]
    exact h.events.updateEvents hold hnew (hclean m hm)

/-- Deleting a mode keeps the events sound, where the right ones are deleted. -/
theorem Fits.deleteMode (h : master.Fits) (hapart : master.schedules.ApartFrom modeId) :
    (master.deleteMode modeId).Fits := by
  have hsame : ∀ id ≠ modeId, ModeMap.buildMapOfVariables (master.modes.erase modeId) id =
      master.modes.buildMapOfVariables id := by
    intro id hid
    rw [ModeMap.buildMapOfVariables, AList.lookup_erase_ne hid]
    rfl
  constructor
  · intro id modeVariables hvariables
    change ModeMap.buildMapOfVariables (master.modes.erase modeId) id = _ at hvariables
    by_cases hid : id = modeId
    · rw [hid, ModeMap.buildMapOfVariables, AList.lookup_erase] at hvariables
      cases hvariables
    · rw [hsame id hid] at hvariables
      exact h.wellFormed id modeVariables hvariables
  · exact (h.events.deleteEventsWithMode hapart).imp fun e he => he.1.congr (hsame e.mode he.2)

/-! ### Replacing all modes -/

/-- A mode is deleted or replaced cleanly when a map of modes takes the place of the old one. -/
def ReplacesCleanly (newModes : ModeMap) (master : Master) (modeId : String) : Prop :=
  ∀ m, master.modes.lookup modeId = some m →
    match newModes.lookup modeId with
    | none => master.schedules.ApartFrom modeId
    | some newSettings =>
      master.schedules.EditsCleanly modeId m.modeVariables newSettings.modeVariables

/-- What replacing a mode leaves under an identifier. -/
theorem replaceMode_lookup (newModes : ModeMap) (master : Master) (hmem : modeId ∈ master.modes)
    (id : String) :
    (replaceMode newModes master modeId).modes.lookup id =
      if id = modeId then newModes.lookup modeId else master.modes.lookup id := by
  rw [replaceMode]
  split
  next hnone =>
    rw [hnone, deleteMode]
    split_ifs with hid
    · rw [hid, AList.lookup_erase]
    · rw [AList.lookup_erase_ne hid]
  next newSettings hsome =>
    obtain ⟨m, hm⟩ := Option.isSome_iff_exists.mp (AList.lookup_isSome.mpr hmem)
    rw [hsome, overwriteMode, hm]
    dsimp only
    split_ifs with hid
    · rw [hid, AList.lookup_insert]
    · rw [AList.lookup_insert_ne hid]

/-- Replacing a mode only takes events away. -/
theorem replaceMode_within (newModes : ModeMap) (master : Master) (modeId : String) :
    master.schedules.Within (replaceMode newModes master modeId).schedules := by
  rw [replaceMode]
  split
  · exact ScheduleMap.within_deleteEventsWithMode _ modeId
  · rw [overwriteMode]
    split
    · exact .refl _
    · exact ScheduleMap.within_updateEvents _ _ _ modeId

/-- A mode is still replaced cleanly when others have been. -/
theorem ReplacesCleanly.within {master' : Master} (h : ReplacesCleanly newModes master modeId)
    (hlookup : master'.modes.lookup modeId = master.modes.lookup modeId)
    (hwithin : master.schedules.Within master'.schedules) :
    ReplacesCleanly newModes master' modeId := by
  intro m hm
  have hclean := h m (hlookup.symm.trans hm)
  split at hclean
  · exact hwithin.apartFrom hclean
  · exact ⟨fun hdeletes => hwithin.apartFrom (hclean.deletes hdeletes),
      fun hmissing hretypes hlost =>
        hwithin.onlyScheduled (hclean.loses hmissing hretypes hlost)⟩

theorem Fits.replaceMode (h : master.Fits)
    (hnew : Event.WellFormedModes newModes.buildMapOfVariables) (hmem : modeId ∈ master.modes)
    (hclean : ReplacesCleanly newModes master modeId) :
    (replaceMode newModes master modeId).Fits := by
  obtain ⟨m, hm⟩ := Option.isSome_iff_exists.mp (AList.lookup_isSome.mpr hmem)
  have hcleanMode := hclean m hm
  rw [Master.replaceMode]
  split
  next hnone =>
    rw [hnone] at hcleanMode
    exact h.deleteMode hcleanMode
  next newSettings hsome =>
    rw [hsome] at hcleanMode
    refine h.overwriteMode (hnew modeId _ (by rw [ModeMap.buildMapOfVariables, hsome]; rfl)) ?_
    intro m' hm'
    cases hm.symm.trans hm'
    exact hcleanMode

/-- Replacing modes one after another. -/
theorem Fits.foldl_replaceMode (hnew : Event.WellFormedModes newModes.buildMapOfVariables)
    {modeIds : List String} (hnodup : modeIds.Nodup) (h : master.Fits)
    (hmem : ∀ modeId ∈ modeIds, modeId ∈ master.modes)
    (hclean : ∀ modeId ∈ modeIds, ReplacesCleanly newModes master modeId) :
    (modeIds.foldl (Master.replaceMode newModes) master).Fits ∧
      ∀ id, (modeIds.foldl (Master.replaceMode newModes) master).modes.lookup id =
        if id ∈ modeIds then newModes.lookup id else master.modes.lookup id := by
  induction modeIds generalizing master with
  | nil => exact ⟨h, fun id => by simp⟩
  | cons modeId rest ih =>
    obtain ⟨hnotMem, hrest⟩ := List.nodup_cons.mp hnodup
    have hhead := hmem modeId List.mem_cons_self
    have hlookup := replaceMode_lookup newModes master hhead
    have hother : ∀ id ∈ rest, (Master.replaceMode newModes master modeId).modes.lookup id =
        master.modes.lookup id := by
      intro id hid
      rw [hlookup, if_neg]
      rintro rfl
      exact hnotMem hid
    have hfits := h.replaceMode hnew hhead (hclean modeId List.mem_cons_self)
    have hmem' : ∀ id ∈ rest, id ∈ (Master.replaceMode newModes master modeId).modes := by
      intro id hid
      rw [← AList.lookup_isSome, hother id hid, AList.lookup_isSome]
      exact hmem id (List.mem_cons_of_mem _ hid)
    have hclean' : ∀ id ∈ rest, ReplacesCleanly newModes (Master.replaceMode newModes master modeId) id :=
      fun id hid => (hclean id (List.mem_cons_of_mem _ hid)).within (hother id hid)
        (replaceMode_within newModes master modeId)
    obtain ⟨hdone, hlookups⟩ := ih hrest hfits hmem' hclean'
    refine ⟨hdone, fun id => ?_⟩
    rw [List.foldl_cons, hlookups, hlookup]
    by_cases hid : id = modeId
    · rw [hid, if_neg hnotMem, if_pos rfl, if_pos List.mem_cons_self]
    · simp [hid]

/-- What inserting modes one after another leaves under an identifier. -/
theorem lookup_foldl_insert {entries : List (Sigma fun _ : String => Mode)}
    (hnodup : entries.NodupKeys) (modes : ModeMap) (id : String) :
    AList.lookup id (entries.foldl (fun mm entry => mm.insert entry.1 entry.2) modes) =
      (List.dlookup id entries).or (modes.lookup id) := by
  induction entries generalizing modes with
  | nil => simp
  | cons entry rest ih =>
    obtain ⟨modeId, m⟩ := entry
    obtain ⟨hnotMem, hrest⟩ := List.nodupKeys_cons.mp hnodup
    rw [List.foldl_cons, ih hrest]
    by_cases hid : id = modeId
    · rw [hid, AList.lookup_insert, List.dlookup_cons_eq, List.dlookup_eq_none.mpr hnotMem]
      rfl
    · rw [AList.lookup_insert_ne hid, List.dlookup_cons_ne _ _ hid]

/-- Overwriting the map of modes cleanly keeps the events sound, and leaves the new modes. -/
theorem Fits.overwriteMap (h : master.Fits)
    (hnew : Event.WellFormedModes newModes.buildMapOfVariables)
    (hclean : ∀ modeId ∈ master.modes, ReplacesCleanly newModes master modeId) :
    (master.overwriteMap newModes).Fits ∧
      ∀ id, (master.overwriteMap newModes).modes.lookup id = newModes.lookup id := by
  obtain ⟨hfits, hlookups⟩ := h.foldl_replaceMode hnew master.modes.keys_nodup
    (fun modeId hid => hid) hclean
  have hreplaced : ∀ id, (master.modes.keys.foldl (Master.replaceMode newModes)
      master).modes.lookup id = if id ∈ master.modes then newModes.lookup id else none := by
    intro id
    rw [hlookups]
    simp only [AList.mem_keys]
    split_ifs with hid
    · rfl
    · exact AList.lookup_eq_none.mpr hid
  have hfinal : ∀ id, (master.overwriteMap newModes).modes.lookup id = newModes.lookup id := by
    intro id
    rw [Master.overwriteMap]
    rw [lookup_foldl_insert newModes.nodupKeys, hreplaced]
    change (newModes.lookup id).or _ = _
    cases newModes.lookup id <;> split_ifs <;> rfl
  refine ⟨hfits.withModes ?_ ?_, hfinal⟩
  · intro id modeVariables hvariables
    refine hnew id modeVariables ?_
    rw [← hvariables, ModeMap.buildMapOfVariables, ModeMap.buildMapOfVariables]
    exact congrArg _ (hfinal id).symm
  · intro id modeVariables hvariables
    rw [ModeMap.buildMapOfVariables, hreplaced] at hvariables
    split_ifs at hvariables
    · rw [← hvariables, ModeMap.buildMapOfVariables]
      exact congrArg _ (hfinal id)
    · cases hvariables

/-! ### Other edits -/

/-- Deleting all modes but the default one keeps the default one and adds none. -/
theorem lookup_foldl_erase_except (modeIds : List String) (modes : ModeMap) :
    (modeIds.foldl (fun mm modeId => if modeId ≠ defaultModeId then mm.erase modeId else mm)
        modes).lookup defaultModeId = modes.lookup defaultModeId ∧
      ∀ id m, (modeIds.foldl (fun mm modeId =>
          if modeId ≠ defaultModeId then mm.erase modeId else mm) modes).lookup id = some m →
        modes.lookup id = some m := by
  induction modeIds generalizing modes with
  | nil => exact ⟨rfl, fun id m hm => hm⟩
  | cons modeId rest ih =>
    rw [List.foldl_cons]
    obtain ⟨hdefault, hkept⟩ :=
      ih (if modeId ≠ defaultModeId then AList.erase modeId modes else modes)
    split_ifs at hdefault hkept ⊢ with hid
    · refine ⟨hdefault.trans (AList.lookup_erase_ne (Ne.symm hid)), fun id m hm => ?_⟩
      have hthere := hkept id m hm
      by_cases hsame : id = modeId
      · rw [hsame, AList.lookup_erase] at hthere
        cases hthere
      · rwa [AList.lookup_erase_ne hsame] at hthere
    · exact ⟨hdefault, hkept⟩

/-- Deleting all modes but the default one keeps the events sound, where all are of the default
mode. -/
theorem Fits.deleteAllModesExceptDefault (h : master.Fits)
    (hdefault : master.schedules.All fun e => e.mode = defaultModeId) :
    master.deleteAllModesExceptDefault.Fits := by
  obtain ⟨hkept, hsub⟩ := lookup_foldl_erase_except master.modes.keys master.modes
  constructor
  · intro id modeVariables hvariables
    obtain ⟨m, hm, rfl⟩ := Option.map_eq_some_iff.mp hvariables
    refine h.wellFormed id m.modeVariables ?_
    rw [ModeMap.buildMapOfVariables, hsub id m hm]
    rfl
  · intro id sched hsched
    have hsound := h.events id sched hsched
    have hmode := hdefault id sched hsched
    have hboth : ∀ e : Event, e.Sound master.modes.buildMapOfVariables → e.mode = defaultModeId →
        e.Sound master.deleteAllModesExceptDefault.modes.buildMapOfVariables := by
      intro e he hmode
      refine he.congr ?_
      rw [hmode]
      exact congrArg (Option.map (·.modeVariables)) hkept
    exact ⟨fun e he => hboth e (hsound.expired e he) (hmode.expired e he),
      fun e he => hboth e (hsound.scheduled e he) (hmode.scheduled e he),
      fun e he => hboth e (hsound.active e he) (hmode.active e he)⟩

/-- A mode under an identifier that was free, or with the variables of the mode that was there,
keeps the events sound. -/
theorem Fits.insertMode (h : master.Fits) {newMode : Mode}
    (hvariables : WellFormedVariables newMode.modeVariables)
    (hold : ∀ m, master.modes.lookup modeId = some m → newMode.modeVariables = m.modeVariables) :
    Fits { master with modes := master.modes.insert modeId newMode } := by
  refine h.withModes (wellFormed_insert h.wellFormed hvariables) ?_
  intro id modeVariables hthere
  rw [ModeMap.buildMapOfVariables_insert]
  by_cases hid : id = modeId
  · obtain ⟨m, hm, rfl⟩ := Option.map_eq_some_iff.mp hthere
    rw [hid] at hm
    rw [hid, Function.update_self, hold m hm]
  · rw [Function.update_of_ne hid]
    exact hthere

end Master

end HybridOs.Scheduler
