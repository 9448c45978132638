import HybridOs.SchedulerArranged
import HybridOs.SchedulerOccurrences
import HybridOs.SchedulerScadaRoundTrip

/-!
# Loading and appending

An APPEND that edits puts the staged event in the place of the first event that starts when it
does, and overwrites the schedule with the list. Where the schedule is calm, its other events
come through as they were: the schedule stays the same if the list is refused, if the event is
the active one, which keeps its identifier and series, or if the staged event is the same.
-/

namespace HybridOs.Scheduler

/-! ## The same events -/

theorem Event.Same.trans {e1 e2 e3 : Event} (h12 : e1.Same e2) (h23 : e2.Same e3) : e1.Same e3 where
  id := h23.id.trans h12.id
  startTime := h23.startTime.trans h12.startTime
  duration := h23.duration.trans h12.duration
  mode := h23.mode.trans h12.mode
  values id := (h23.values id).trans (h12.values id)
  repeatSettings := h23.repeatSettings.trans h12.repeatSettings

theorem Event.Same.symm {e e' : Event} (h : e.Same e') : e'.Same e where
  id := h.id.symm
  startTime := h.startTime.symm
  duration := h.duration.symm
  mode := h.mode.symm
  values id := (h.values id).symm
  repeatSettings := h.repeatSettings.symm

theorem Event.Same.sortKey_eq {e e' : Event} (h : e.Same e') : sortKey e' = sortKey e := by
  simp only [sortKey, Event.hasException, h.id, h.startTime, h.duration, h.mode, h.repeatSettings]

/-- Two schedules hold the same events, up to the order in which values are listed, and the
same identifiers. -/
structure Schedule.SameAs (sched sched' : Schedule) : Prop where
  id : sched'.id = sched.id
  timezone : sched'.timezone = sched.timezone
  scheduledEvents : List.Forall₂ Event.Same sched.scheduledEvents sched'.scheduledEvents
  expiredEvents : List.Forall₂ Event.Same sched.expiredEvents sched'.expiredEvents
  activeEvent : Option.Rel Event.Same sched.activeEvent sched'.activeEvent
  cache : sched'.cache = sched.cache

theorem Schedule.SameAs.refl (sched : Schedule) : sched.SameAs sched where
  id := rfl
  timezone := rfl
  scheduledEvents := List.forall₂_same.mpr fun e _ => Event.Same.refl e
  expiredEvents := List.forall₂_same.mpr fun e _ => Event.Same.refl e
  activeEvent := by
    cases sched.activeEvent with
    | none => exact .none
    | some a => exact .some (Event.Same.refl a)
  cache := rfl

namespace EventList

variable {eList eList' : EventList} {e eNew : Event} {p : Event → Bool}

/-- The same events give the same, where it does not depend on the order of values. -/
theorem map_eq_of_same {α : Type} {f : Event → α} (hf : ∀ e e', Event.Same e e' → f e' = f e)
    (hsame : List.Forall₂ Event.Same eList eList') : eList'.map f = eList.map f := by
  induction hsame with
  | nil => rfl
  | cons hhead _ ih => rw [List.map_cons, List.map_cons, hf _ _ hhead, ih]

/-- The events of a sorted list stay sorted. -/
theorem pairwise_of_same (hsame : List.Forall₂ Event.Same eList eList')
    (hsorted : eList.Pairwise NotAfter) : eList'.Pairwise NotAfter := by
  have hkeys := map_eq_of_same (fun _ _ => Event.Same.sortKey_eq) hsame
  have hmapped : ∀ l : EventList, l.Pairwise NotAfter ↔ (l.map sortKey).Pairwise (· ≤ ·) := by
    intro l
    rw [List.pairwise_map]
    exact List.Pairwise.iff fun _ _ => notAfter_iff
  rw [hmapped] at hsorted ⊢
  rw [hkeys]
  exact hsorted

/-- What is said of all starts of a list holds of those of the same events. -/
theorem forall_start_of_same {P : ℤ → Prop} (hsame : List.Forall₂ Event.Same eList eList')
    (h : ∀ x ∈ eList, P x.startTime.instant) : ∀ x ∈ eList', P x.startTime.instant := by
  have hstarts := map_eq_of_same (f := (·.startTime.instant))
    (fun _ _ hxx' => by rw [hxx'.startTime]) hsame
  rw [← List.forall_mem_map (f := fun x : Event => x.startTime.instant) (P := P)] at h ⊢
  rw [hstarts]
  exact h

/-- An event takes the place of the first one that meets a condition. -/
theorem modifyFirst_eq_of_find? (eNew : Event) (hfirst : eList.find? p = some e) :
    ∃ before after, eList = before ++ e :: after ∧ eList.eraseP p = before ++ after ∧
      eList.modifyFirst p (fun _ => eNew) = before ++ eNew :: after := by
  induction eList with
  | nil => cases hfirst
  | cons x rest ih =>
    by_cases hx : p x = true
    · rw [List.find?_cons_of_pos hx, Option.some.injEq] at hfirst
      subst hfirst
      refine ⟨[], rest, rfl, List.eraseP_cons_of_pos hx, ?_⟩
      rw [modifyFirst, if_pos hx]
      rfl
    · rw [List.find?_cons_of_neg hx] at hfirst
      obtain ⟨before, after, hparts, herased, hmodified⟩ := ih hfirst
      refine ⟨x :: before, after, by rw [hparts]; rfl, ?_, ?_⟩
      · rw [List.eraseP_cons_of_neg hx, herased]
        rfl
      · rw [modifyFirst, if_neg hx, hmodified]
        rfl

end EventList

/-! ## Overwriting a calm schedule -/

namespace Event

/-- The event on the stage is a later version of one of the schedule: it has its start,
duration, mode and values. -/
structure Restages (eNew e : Event) : Prop where
  start : eNew.startTime.instant = e.startTime.instant
  duration : eNew.duration = e.duration
  mode : eNew.mode = e.mode
  values : ∀ id, eNew.variableMap.lookup id = e.variableMap.lookup id

theorem Restages.of_same {eNew eNew' e : Event} (h : eNew.Restages e) (hsame : eNew.Same eNew') :
    eNew'.Restages e where
  start := by rw [hsame.startTime, h.start]
  duration := hsame.duration.trans h.duration
  mode := hsame.mode.trans h.mode
  values id := (hsame.values id).trans (h.values id)

theorem Same.restages {e e' : Event} (h : e.Same e') : e'.Restages e :=
  ⟨by rw [h.startTime], h.duration, h.mode, h.values⟩

end Event

section Update

variable {ctx : Context} {eOld eNew : Event}

/-- The values of an event can be stored again without a panic. -/
def Event.Storable (ctx : Context) (e : Event) : Prop :=
  ctx.hasLocalSchedule = true ∨
    ∀ id val, e.variableMap.lookup id = some val → val.deepEqual val = true

/-- The update of values by the same ones stores them again or stops. -/
theorem updateVariables_same (modeVariables : SetpointList) (hstorable : eOld.Storable ctx)
    (hvalues : ∀ id, eNew.variableMap.lookup id = eOld.variableMap.lookup id) :
    ∃ started, Schedule.updateVariables ctx.hasLocalSchedule eNew modeVariables eOld =
      (started, .done ()) ∧ eOld.Same started := by
  induction modeVariables generalizing eOld with
  | nil => exact ⟨eOld, rfl, .refl eOld⟩
  | cons modeVar rest ih =>
    rw [Schedule.updateVariables, hvalues]
    cases hval : eOld.variableMap.lookup modeVar.id with
    | none => exact ih hstorable hvalues
    | some val =>
      dsimp only
      split_ifs with hequal hlocal
      · exact ⟨eOld, rfl, .refl eOld⟩
      · rcases hstorable with hstored | hequals
        · rw [hstored] at hlocal
          cases hlocal
        · exact absurd (hequals _ _ hval) hequal
      · have hkept : ∀ id, (eOld.variableMap.insert modeVar.id val).lookup id =
            eOld.variableMap.lookup id := by
          intro id
          by_cases hid : id = modeVar.id
          · rw [hid, AList.lookup_insert, hval]
          · rw [AList.lookup_insert_ne hid]
        have hsame : eOld.Same
            { eOld with variableMap := eOld.variableMap.insert modeVar.id val } :=
          ⟨rfl, rfl, rfl, rfl, hkept, rfl⟩
        obtain ⟨started, hstarted, hrest⟩ :=
          @ih { eOld with variableMap := eOld.variableMap.insert modeVar.id val }
          (.inl (by simpa using hlocal)) fun id => (hvalues id).trans (hkept id).symm
        exact ⟨started, hstarted, hsame.trans hrest⟩

/-- The active event, updated by a later version of itself, stays the same. -/
theorem updateActiveEvent_same (hstorable : eOld.Storable ctx) (hnew : eNew.Restages eOld) :
    ∃ started, Schedule.updateActiveEvent ctx eOld eNew = (started, .done ()) ∧
      eOld.Same started := by
  have hstart : eOld.startTime.equal eNew.startTime = true := by
    rw [Time.equal, hnew.start]
    exact decide_eq_true rfl
  have hsame : ({ eOld with duration := eNew.duration } : Event) = eOld := by rw [hnew.duration]
  rw [Schedule.updateActiveEvent, hstart, if_neg (by simp), if_neg (by simp [hnew.mode]), hsame]
  dsimp only
  split
  · exact ⟨eOld, rfl, .refl eOld⟩
  · exact updateVariables_same _ hstorable hnew.values

end Update

/-- The schedule can be overwritten with its events, one of them anew, and the others stay
what and where they are: none has ended, the active one starts before those to come, its
values can be stored, and validation leaves the others as they are. -/
structure Schedule.Calm (ctx : Context) (loc : Location) (e : Event) (sched : Schedule) : Prop where
  /-- No event has expired. -/
  expired : sched.expiredEvents = []
  /-- The scheduled events are sorted. -/
  sorted : sched.Sorted
  /-- None of them has started. -/
  toCome : ∀ x ∈ sched.scheduledEvents, x.passedStartTime ctx.now = false
  /-- The active event starts before them. -/
  before : ∀ a ∈ sched.activeEvent, ∀ x ∈ sched.scheduledEvents,
    a.startTime.instant < x.startTime.instant
  /-- The values of the active event can be stored. -/
  storable : ∀ a ∈ sched.activeEvent, a.Storable ctx
  /-- Validation leaves the other events as they are. -/
  valid : ∀ x ∈ sched.aggregateAllEvents.eraseP (·.startTime.equal e.startTime),
    ∀ x', x.validate (some loc) ctx.mapOfVariables = .ok x' → x.Same x'

section Overwrite

variable {ctx : Context} {fuel : ℕ} {sched : Schedule} {loc : Location} {e eNew : Event}
  {eList each valid : EventList}

/-- Events that validation leaves as they are stay the same. -/
theorem EventList.same_of_validated {mapOfVariables : String → Option SetpointList}
    (hvalid : ∀ x ∈ eList, ∀ x', x.validate (some loc) mapOfVariables = .ok x' → x.Same x')
    (heach : List.Forall₂ (fun x x' => Event.validate (some loc) mapOfVariables x = .ok x')
      eList each) : List.Forall₂ Event.Same eList each := by
  induction heach with
  | nil => exact .nil
  | cons hhead _ ih =>
    obtain ⟨hx, hothers⟩ := List.forall_mem_cons.mp hvalid
    exact .cons (hx _ hhead) (ih hothers)

theorem EventList.same_trans {eList1 eList2 eList3 : EventList}
    (h12 : List.Forall₂ Event.Same eList1 eList2) (h23 : List.Forall₂ Event.Same eList2 eList3) :
    List.Forall₂ Event.Same eList1 eList3 := by
  induction h12 generalizing eList3 with
  | nil => exact h23
  | cons hhead _ ih =>
    cases h23 with
    | cons hhead' hrest => exact .cons (hhead.trans hhead') (ih hrest)

/-- A list with one event anew, validated and sorted, has the starts that it had, and the
same events if and only if the new one is the same. -/
theorem EventList.restaged {mapOfVariables : String → Option SetpointList}
    (hfirst : eList.get e.startTime = some e) (hnew : eNew.Restages e)
    (hvalid : ∀ x ∈ eList.eraseP (·.startTime.equal e.startTime),
      ∀ x', x.validate (some loc) mapOfVariables = .ok x' → x.Same x')
    (hsettled : ∀ x', eNew.validate (some loc) mapOfVariables = .ok x' → eNew.Same x')
    (hsorted : eList.Pairwise NotAfter)
    (heach : List.Forall₂ (fun x x' => Event.validate (some loc) mapOfVariables x = .ok x')
      (eList.modifyFirst (·.startTime.equal e.startTime) fun _ => eNew) each) :
    (∀ P : ℤ → Prop, (∀ x ∈ eList, P x.startTime.instant) → ∀ x ∈ each, P x.startTime.instant) ∧
      (List.Forall₂ Event.Same eList (sort each) ↔ e.Same eNew) := by
  obtain ⟨before, after, rfl, herased, hmodified⟩ := modifyFirst_eq_of_find? eNew hfirst
  rw [hmodified] at heach
  have hsame : List.Forall₂ Event.Same (before ++ eNew :: after) each := by
    refine same_of_validated (fun x hx => ?_) heach
    rw [herased] at hvalid
    have hcases : x ∈ before ++ after ∨ x = eNew := by
      rw [List.mem_append, List.mem_cons] at hx
      rw [List.mem_append]
      tauto
    rcases hcases with hother | rfl
    · exact hvalid x hother
    · exact hsettled
  constructor
  · intro P hall
    refine forall_start_of_same hsame fun x hx => ?_
    rw [List.mem_append, List.mem_cons] at hx
    rcases hx with hx | rfl | hx
    · exact hall x (List.mem_append_left _ hx)
    · rw [hnew.start]
      exact hall e (List.mem_append_right _ List.mem_cons_self)
    · exact hall x (List.mem_append_right _ (List.mem_cons_of_mem _ hx))
  · constructor
    · intro hall
      -- what is left of the two lists without the other events is the one and the other event
      let settings (x : Event) := (x.id, x.startTime, x.repeatSettings)
      have hsettings : ∀ x x' : Event, x.Same x' → settings x' = settings x := fun x x' hxx' => by
        simp only [settings, hxx'.id, hxx'.startTime, hxx'.repeatSettings]
      have hperm : ((before ++ eNew :: after).map settings).Perm
          ((before ++ e :: after).map settings) := by
        rw [← map_eq_of_same hsettings hall, ← map_eq_of_same hsettings hsame]
        exact (List.perm_insertionSort _ _).symm.map settings
      rw [List.map_append, List.map_append, List.perm_append_left_iff, List.map_cons,
        List.map_cons, ← Multiset.coe_eq_coe, ← Multiset.cons_coe, ← Multiset.cons_coe,
        Multiset.cons_inj_left] at hperm
      simp only [settings, Prod.mk.injEq] at hperm
      exact ⟨hperm.1, hperm.2.1, hnew.duration, hnew.mode, hnew.values, hperm.2.2⟩
    · intro hsameNew
      have hmid : List.Forall₂ Event.Same (before ++ e :: after) (before ++ eNew :: after) :=
        List.rel_append (List.forall₂_same.mpr fun x _ => .refl x)
          (.cons hsameNew (List.forall₂_same.mpr fun x _ => .refl x))
      have hall : List.Forall₂ Event.Same (before ++ e :: after) each :=
        same_trans hmid hsame
      rw [sort_of_pairwise (pairwise_of_same hall hsorted)]
      exact hall

/-- Overwriting a schedule whose active event, if it has one, comes first and anew, before the
events to come. -/
theorem Process.overwrite_restaged (proc : Process) {inputs : EventList} (cache : IdCache)
    (external : Bool) {current : Option Event}
    (hvalid : inputs.validate fuel proc.schedule.timezone ctx.mapOfVariables =
      some (.ok (EventList.sort (current.toList ++ each)))) (hfuel : 0 < fuel)
    (hcurrent : Option.Rel Event.Restages current proc.schedule.activeEvent)
    (hstorable : ∀ a ∈ proc.schedule.activeEvent, a.Storable ctx)
    (hbefore : ∀ a ∈ proc.schedule.activeEvent, ∀ x ∈ each,
      a.startTime.instant < x.startTime.instant)
    (hlater : ∀ x ∈ each, x.passedStartTime ctx.now = false) :
    ∃ active, Option.Rel Event.Same proc.schedule.activeEvent active ∧
      proc.overwrite ctx fuel inputs cache external =
        some (sendUpdatesAfterMasterScheduleEdit ctx external { proc with
          schedule := { proc.schedule with
            cache
            scheduledEvents := EventList.sort each
            expiredEvents := []
            activeEvent := active } }, .done (.ok ())) := by
  have hbefore' : ∀ a ∈ proc.schedule.activeEvent, ∀ x ∈ EventList.sort each,
      a.startTime.instant < x.startTime.instant := fun a ha x hx =>
    hbefore a ha x (EventList.mem_sort.mp hx)
  have hlater' : ∀ x ∈ EventList.sort each, x.passedStartTime ctx.now = false := fun x hx =>
    hlater x (EventList.mem_sort.mp hx)
  generalize hactive : proc.schedule.activeEvent = active at *
  cases hcurrent with
  | none =>
    refine ⟨none, .none, overwrite_arranged none hvalid hfuel ?_ ?_ hlater'
      (EventList.pairwise_sort each)⟩
    · rw [hactive]
      exact hbefore'
    · exact .none
  | @some eNew a hnew =>
    obtain ⟨started, hstarted, hsame⟩ := updateActiveEvent_same (hstorable a rfl) hnew
    have hsorted : EventList.sort (eNew :: each) = eNew :: EventList.sort each := by
      refine EventList.sort_cons_of_before fun x hx => ?_
      rw [hnew.start]
      exact hbefore a rfl x hx
    have hstart : a.startTime.equal eNew.startTime = true := by
      rw [Time.equal, hnew.start]
      exact decide_eq_true rfl
    rw [Option.toList_some, List.singleton_append, hsorted] at hvalid
    refine ⟨some started, .some hsame, overwrite_arranged (some eNew) hvalid hfuel ?_
      ?_ hlater' (EventList.pairwise_sort each)⟩
    · rw [hactive]
      exact hbefore'
    · rw [hactive]
      exact .some (.inl ⟨a, rfl, hstart, hstarted⟩)

/-- The events of a schedule, with another event in the place of the first at its start. -/
def Schedule.withEvent (sched : Schedule) (eNew : Event) : EventList :=
  sched.aggregateAllEvents.modifyFirst (·.startTime.equal eNew.startTime) fun _ => eNew

/-- Overwriting a calm schedule with its events, one of them anew, leaves it the same if and
only if that is the active one or stays the same. -/
theorem Schedule.Calm.overwrite (h : sched.Calm ctx loc e) (hzone : sched.timezone = some loc)
    (hfuel : 0 < fuel) (hfirst : sched.aggregateAllEvents.get e.startTime = some e)
    (hnew : eNew.Restages e)
    (hsettled : ∀ x', eNew.validate (some loc) ctx.mapOfVariables = .ok x' → eNew.Same x')
    (hvalid : (sched.withEvent eNew).validate fuel (some loc) ctx.mapOfVariables =
      some (.ok valid)) (now : ℤ) :
    ∃ proc, (⟨sched, now⟩ : Process).overwrite ctx fuel (sched.withEvent eNew) sched.cache true =
        some (proc, .done (.ok ())) ∧
      (sched.SameAs proc.schedule ↔ sched.activeEvent = some e ∨ e.Same eNew) := by
  have hall := sched.aggregateAllEvents_arranged h.expired h.sorted h.before
  have hequal : ∀ t : Time, t.equal eNew.startTime = t.equal e.startTime := by
    intro t
    rw [Time.equal, Time.equal, hnew.start]
  have hinputs : sched.withEvent eNew =
      sched.aggregateAllEvents.modifyFirst (·.startTime.equal e.startTime) fun _ => eNew := by
    rw [withEvent]
    simp only [hequal]
  obtain ⟨each, heach, -, rfl⟩ := EventList.validate_ok_iff.mp hvalid
  rw [← hzone] at hvalid
  have hothers := h.valid
  have hbefore := h.before
  have hstorable := h.storable
  rw [hinputs, hall] at heach
  rw [hall] at hfirst hothers
  -- the lists of the result, and what is left to say of them
  have hresult : ∀ (current : Option Event) (rest : EventList),
      each = current.toList ++ rest → Option.Rel Event.Restages current sched.activeEvent →
      (∀ P : ℤ → Prop, (∀ x ∈ sched.scheduledEvents, P x.startTime.instant) →
        ∀ x ∈ rest, P x.startTime.instant) →
      (List.Forall₂ Event.Same sched.scheduledEvents (EventList.sort rest) ↔
        sched.activeEvent = some e ∨ e.Same eNew) →
      ∃ proc, (⟨sched, now⟩ : Process).overwrite ctx fuel (sched.withEvent eNew) sched.cache true =
          some (proc, .done (.ok ())) ∧
        (sched.SameAs proc.schedule ↔ sched.activeEvent = some e ∨ e.Same eNew) := by
    rintro current rest rfl hcurrent hstarts hsame
    obtain ⟨active, hactive, hoverwritten⟩ := Process.overwrite_restaged ⟨sched, now⟩
      sched.cache true hvalid hfuel hcurrent hstorable
      (fun a ha => hstarts (a.startTime.instant < ·) (hbefore a ha))
      fun x hx => hstarts (fun start => decide (start + minute ≤ ctx.now) = false) h.toCome x hx
    refine ⟨_, hoverwritten, ?_⟩
    rw [← hsame]
    constructor
    · intro hsameAs
      exact hsameAs.scheduledEvents
    · intro hscheduled
      refine ⟨rfl, rfl, hscheduled, ?_, hactive, rfl⟩
      rw [h.expired]
      exact .nil
  cases hactive : sched.activeEvent with
  | none =>
    rw [hactive, Option.toList_none, List.nil_append] at heach hfirst hothers
    obtain ⟨hstarts, hsame⟩ := EventList.restaged hfirst hnew hothers hsettled h.sorted heach
    rw [hactive] at hresult
    refine hresult none _ rfl .none hstarts (hsame.trans ?_)
    simp
  | some a =>
    rw [hactive, Option.toList_some, List.singleton_append] at heach hfirst hothers
    rw [hactive] at hresult
    by_cases hstart : a.startTime.equal e.startTime = true
    · -- the edited event is the active one
      have heq : a = e := by
        rw [EventList.get, List.find?_cons_of_pos (by simpa using hstart)] at hfirst
        exact Option.some.inj hfirst
      rw [EventList.modifyFirst, if_pos (by simpa using hstart)] at heach
      rw [List.eraseP_cons_of_pos (by simpa using hstart)] at hothers
      cases heach with
      | @cons _ eNew' _ rest hhead hrest =>
        have hsame := EventList.same_of_validated hothers hrest
        have hsorted := EventList.pairwise_of_same hsame h.sorted
        refine hresult (some eNew') _ rfl
          (.some (heq ▸ hnew.of_same (hsettled _ hhead)))
          (fun P hP => EventList.forall_start_of_same hsame hP)
          (iff_of_true ?_ (.inl (by rw [heq])))
        rw [EventList.sort_of_pairwise hsorted]
        exact hsame
    · rw [EventList.get, List.find?_cons_of_neg (by simpa using hstart)] at hfirst
      rw [EventList.modifyFirst, if_neg (by simpa using hstart)] at heach
      rw [List.eraseP_cons_of_neg (by simpa using hstart)] at hothers
      obtain ⟨hfirstOther, hothers⟩ := List.forall_mem_cons.mp hothers
      cases heach with
      | @cons _ a' _ rest hhead hrest =>
        obtain ⟨hstarts, hsame⟩ := EventList.restaged hfirst hnew hothers hsettled h.sorted hrest
        refine hresult (some a') _ rfl (.some (hfirstOther _ hhead).restages) hstarts
          (hsame.trans ?_)
        refine (or_iff_right fun heq => hstart ?_).symm
        rw [Option.some.inj heq, Time.equal]
        exact decide_eq_true rfl

end Overwrite

/-! ## What is on the stage -/

/-- Validation leaves a series by default as it is, whether or not it ends. -/
theorem Series.validate_default (endless : Bool) (startTime : Time) :
    Series.validate { newNonRepeatingSeries with endCount := if endless then -1 else 1 } startTime =
      .ok { newNonRepeatingSeries with endCount := if endless then -1 else 1 } := by
  cases endless <;> rfl

namespace Event

variable {e : Event} {loc : Location} {vars : SetpointList}

/-- A conversion enters a value for each of a mode's variables. -/
theorem scadaCopy_slotValues (loc : Location) (hvalues : SlotValues vars e.variableMap) :
    SlotValues vars (e.scadaCopy loc vars).variableMap := by
  intro sp hsp
  obtain ⟨val, hval, htype⟩ := hvalues sp hsp
  refine ⟨val, ?_, htype⟩
  have hentered := lookup_enterValues hvalues ∅ sp.id
  have hmem : sp.id ∈ SetpointList.ids vars := List.mem_map_of_mem hsp
  rw [if_pos hmem, hval] at hentered
  exact hentered

/-- Validation leaves a converted event as it is. -/
theorem scadaCopy_validated {mapOfVariables : String → Option SetpointList} {valid : Event}
    (hmode : mapOfVariables e.mode = some vars) (hvalues : SlotValues vars e.variableMap)
    (h : (e.scadaCopy loc vars).validate (some loc) mapOfVariables = .ok valid) :
    (e.scadaCopy loc vars).Same valid := by
  obtain ⟨loc', hloc, hstart, hsettings⟩ := validate_settings h
  cases hloc
  have hentered := scadaCopy_slotValues loc hvalues
  unfold Event.validate at h
  obtain ⟨_, heq, h⟩ := CheckedRun.of_bind_ok h
  cases heq
  obtain ⟨_, _, h⟩ := CheckedRun.of_bind_ok h
  obtain ⟨variableMap, hvariables, h⟩ := CheckedRun.of_bind_ok h
  obtain ⟨repeatSettings, _, h⟩ := CheckedRun.of_bind_ok h
  cases h
  have hkept : SameValues variableMap (e.scadaCopy loc vars).variableMap := by
    have hmode' : mapOfVariables (e.scadaCopy loc vars).mode = some vars := hmode
    rw [validateVariables, hmode'] at hvariables
    dsimp only at hvariables
    split_ifs at hvariables
    have hpass : ∀ sp ∈ vars, ∀ again, SameValues again (e.scadaCopy loc vars).variableMap →
        ∃ again', validateVariable again sp = .ok again' ∧ SameValues again' again := by
      intro sp hsp again hagain
      obtain ⟨val, hval, htype⟩ := hentered sp hsp
      rw [← hagain] at hval
      unfold HasSlotType at htype
      split at htype
      next htype' => exact ⟨again, by rw [validateVariable, hval, htype'], fun _ => rfl⟩
      next n htype' =>
        refine ⟨again.insert sp.id (.int n), by rw [validateVariable, hval, htype']; rfl, ?_⟩
        intro id
        by_cases hid : id = sp.id
        · rw [hid, AList.lookup_insert, hval]
        · rw [AList.lookup_insert_ne hid]
      next htype' => exact ⟨again, by rw [validateVariable, hval, htype'], fun _ => rfl⟩
      next htype' => exact ⟨again, by rw [validateVariable, hval, htype'], fun _ => rfl⟩
      next => cases htype
    obtain ⟨again, hagain, hsame⟩ := foldlM_validateVariable_same hpass fun _ => rfl
    have heq : Except.ok variableMap = Except.ok (ε := EventError) again :=
      hvariables.symm.trans hagain
    cases heq
    exact hsame
  have hseries : (e.scadaCopy loc vars).repeatSettings = { newNonRepeatingSeries with
      endCount := if decide (e.repeatSettings.endCount = -1) then -1 else 1 } := by
    simp only [scadaCopy, decide_eq_true_eq]
  have hdefault : Except.ok repeatSettings =
      Except.ok (ε := SeriesError) (e.scadaCopy loc vars).repeatSettings := by
    rw [hseries] at hsettings ⊢
    exact hsettings.symm.trans (Series.validate_default _ _)
  cases hdefault
  exact ⟨rfl, rfl, rfl, rfl, hkept, rfl⟩

end Event

/-! ## Loading and appending -/

/-- A client of the interface names an event of a schedule by its start: it is the first one
that starts then, and the only staged event has this time. The stage can edit. -/
structure ScadaState.Names (st : ScadaState) (siteId : String) (sched : Schedule)
    (loc : Location) (e : Event) : Prop where
  /-- The slots are allocated. -/
  allocated : st.Allocated
  /-- APPEND may edit events. -/
  canEdit : st.config.appendCanEdit = true
  /-- The schedule is among those of the interface. -/
  schedule : st.masterSchedule.lookup siteId = some sched
  /-- It has a time zone. -/
  timezone : sched.timezone = some loc
  /-- The one staged event has the site and the start of the event. -/
  staged : ∃ staged startTime, st.stage = [staged] ∧ staged.site = some siteId ∧
    staged.getEventTime (some loc) = .replied startTime ∧ sched.eventAt startTime = some e
  /-- The event is the first of the schedule at its start. -/
  first : sched.aggregateAllEvents.get e.startTime = some e

/-- LOAD_STAGE and the APPEND after it come back, and the schedule is as it was. -/
def ScadaState.RestoresSchedule (st : ScadaState) (now : ℤ) (fuel : ℕ) (siteId : String)
    (sched : Schedule) : Prop :=
  st.loadStage.2 = .replied () ∧ ∃ st' sched',
    st.loadStage.1.scadaEdit now fuel .append = some (st', .replied ()) ∧
    st'.masterSchedule.lookup siteId = some sched' ∧ sched.SameAs sched'

/-- The event survives the interface: it is converted back with the same settings, and loading
and appending it leaves its schedule as it is. -/
structure ScadaState.RoundTrips (st : ScadaState) (now : ℤ) (fuel : ℕ) (siteId : String)
    (sched : Schedule) (e : Event) : Prop where
  /-- The conversion and the one back keep the settings. -/
  converts : ∃ filled eNew,
    ScadaEvent.fillWithData st.config st.modes e siteId = .replied (filled, true) ∧
    filled.convertToEvent st = .replied (some eNew) ∧ e.SameSettings eNew
  /-- The commands restore the schedule. -/
  restores : st.RestoresSchedule now fuel siteId sched

/-- The event has only settings that the interface has registers for: minutes that fit into a
duration, values that all go to slots, no exceptions and, without an end, every day. -/
structure Event.Plain (e : Event) (vars : SetpointList) : Prop where
  /-- The minutes fit into a duration. -/
  duration : MinutesFit e.duration
  /-- All values go to slots. -/
  inSlots : e.AllInSlots vars
  /-- Without an end it repeats every day. -/
  daily : e.repeatSettings.endCount ≠ 1 →
    e.repeatSettings.cycle = .daily ∧ e.repeatSettings.frequency = 1
  /-- There are no exceptions. -/
  exceptions : e.repeatSettings.exceptions = []

/-- An event that has nothing that the interface leaves out: the identifier zero, minutes that
fit into a duration, values that all go to slots, and a series by default but for its end. -/
structure Event.NothingLeftOut (e : Event) (loc : Location) (vars : SetpointList) : Prop where
  /-- The identifier is zero. -/
  id : e.id = 0
  /-- The start is in the zone of the schedule. -/
  startTime : e.startTime.loc = loc
  /-- The minutes fit into a duration. -/
  duration : MinutesFit e.duration
  /-- All values go to slots. -/
  inSlots : e.AllInSlots vars
  /-- The series is the default but for its end. -/
  repeatSettings : e.repeatSettings =
    { newNonRepeatingSeries with endCount := e.repeatSettings.endCount }

section Appending

variable {st : ScadaState} {siteId : String} {sched : Schedule} {loc : Location} {e : Event}

/-- The patch by an event that starts when one of the schedule's events does takes its
place. -/
theorem patchEvents_single {eNew : Event} (hstart : eNew.startTime.instant = e.startTime.instant)
    (hfirst : sched.aggregateAllEvents.get e.startTime = some e) :
    Process.patchEvents [eNew] sched.aggregateAllEvents sched.cache sched.randomSrc =
      (some (sched.withEvent eNew, sched.cache), sched.randomSrc) := by
  have hsame : ∀ t : Time, t.equal eNew.startTime = t.equal e.startTime := by
    intro t
    rw [Time.equal, Time.equal, hstart]
  have hfound : (sched.aggregateAllEvents.get eNew.startTime).isSome = true := by
    simp only [EventList.get, hsame] at hfirst ⊢
    rw [hfirst]
    rfl
  rw [Process.patchEvents, if_pos hfound, Process.patchEvents]
  rfl

/-- An APPEND that can edit overwrites the schedule with the patched events. -/
theorem editSchedule_append {ctx : Context} {fuel : ℕ} {now : ℤ} {eNew : Event}
    {events : EventList} {cache : IdCache}
    (hpatched : Process.patchEvents [eNew] sched.aggregateAllEvents sched.cache sched.randomSrc =
      (some (events, cache), sched.randomSrc)) :
    editSchedule ctx fuel true .append [eNew] ⟨sched, now⟩ =
      (⟨sched, now⟩ : Process).overwrite ctx fuel events cache true := by
  have hsingle : EventList.hasOverlaps fuel [eNew] = some false := rfl
  rw [editSchedule, if_pos rfl, Process.handleFullSchedulePatch, hsingle]
  dsimp only
  rw [hpatched]
  rfl

/-- Loading a named event whose values go to slots. -/
theorem ScadaState.Names.loadStage_eq (h : st.Names siteId sched loc e) {filled : ScadaEvent}
    (hfilled : ScadaEvent.fillWithData st.config st.modes e siteId = .replied (filled, true)) :
    st.loadStage = ({ st with stage := [filled] }, .replied ()) := by
  obtain ⟨staged, startTime, hstage, hsite, htime, hat⟩ := h.staged
  have hzone : st.timezoneOf siteId = some loc := by
    rw [ScadaState.timezoneOf, h.schedule]
    exact h.timezone
  have hsized : filled.Sized st.config := by
    obtain ⟨filled', hfilled', hsized⟩ :=
      ScadaEvent.fillWithData_sized h.allocated.natural st.modes e siteId
    rw [hfilled] at hfilled'
    cases hfilled'
    exact hsized
  have hloaded := h.allocated.withStage [filled] (by rw [hstage]; rfl)
    (by simpa using hsized)
  obtain ⟨_, hpublished, -⟩ := hloaded.pubScadaStage
  rw [ScadaState.loadStage, hstage]
  dsimp only
  rw [hsite]
  dsimp only
  rw [hzone, htime]
  dsimp only
  rw [h.schedule, Option.bind_some, hat]
  dsimp only
  rw [hfilled]
  dsimp only
  rw [hpublished]

/-- The edit of one schedule that comes back leaves that schedule in the map. -/
theorem ScadaState.Allocated.editSchedules_single (h : st.Allocated) (now : ℤ) {fuel : ℕ}
    {method : EditingMethod} {eList : EventList} {proc : Process} {result : Except EditError Unit}
    (hschedule : st.masterSchedule.lookup siteId = some sched)
    (hedited : editSchedule (st.context now) fuel st.config.appendCanEdit method eList
      ⟨sched, now⟩ = some (proc, .done result)) :
    ∃ st', st.editSchedules now fuel method [⟨siteId, eList⟩] = some (st', .replied ()) ∧
      st'.Allocated ∧ st'.masterSchedule.lookup siteId = some proc.schedule := by
  have hset := h.setSchedule siteId proc.schedule
  have hlookup : (st.setSchedule siteId proc.schedule).masterSchedule.lookup siteId =
      some proc.schedule := AList.lookup_insert _
  rw [ScadaState.editSchedules, hschedule]
  dsimp only
  rw [hedited]
  cases result with
  | error err => exact ⟨_, rfl, hset, hlookup⟩
  | ok u =>
    obtain ⟨refreshed, hrefreshed, hallocated, slots, rfl⟩ := hset.refreshSiteEnums.updateScadaRegs
    dsimp only
    rw [hrefreshed]
    exact ⟨_, rfl, hallocated, hlookup⟩

/-- An edit of the only event on the stage comes back with what its schedule becomes if and only
if the edit of that schedule does. -/
theorem ScadaState.Allocated.scadaEdit_single (h : st.Allocated) (now : ℤ) (fuel : ℕ)
    (method : EditingMethod) {stage : List ScadaEvent} {eNew : Event}
    (hschedule : st.masterSchedule.lookup siteId = some sched)
    (hconverted : st.convertStage st.onlySchedule st.stage ∅ =
      (stage, .replied ((∅ : AList fun _ : String => EventList).insert siteId [eNew])))
    (P : Schedule → Prop) :
    (∃ st' sched', st.scadaEdit now fuel method = some (st', .replied ()) ∧
        st'.masterSchedule.lookup siteId = some sched' ∧ P sched') ↔
      ∃ proc result, editSchedule (st.context now) fuel st.config.appendCanEdit method [eNew]
        ⟨sched, now⟩ = some (proc, .done result) ∧ P proc.schedule := by
  obtain ⟨hlength, hsized⟩ := st.convertStage_sized st.onlySchedule h.stage_sized ∅
  rw [hconverted] at hlength hsized
  have hstaged : ({ st with stage } : ScadaState).Allocated := h.withStage stage hlength hsized
  have hentries : ((∅ : AList fun _ : String => EventList).insert siteId [eNew]).entries =
      [⟨siteId, [eNew]⟩] := rfl
  have hcontext : ({ st with stage } : ScadaState).context now = st.context now := rfl
  rw [ScadaState.scadaEdit, hconverted]
  dsimp only
  rw [hentries]
  cases hedited : editSchedule (st.context now) fuel st.config.appendCanEdit method [eNew]
      ⟨sched, now⟩ with
  | none =>
    rw [ScadaState.editSchedules, hschedule]
    dsimp only
    rw [hcontext, hedited]
    simp
  | some returned =>
    obtain ⟨proc, result⟩ := returned
    cases result with
    | panicked =>
      rw [ScadaState.editSchedules, hschedule]
      dsimp only
      rw [hcontext, hedited]
      simp
    | done result =>
      obtain ⟨edited, heq, hallocated, hlookup⟩ :=
        hstaged.editSchedules_single now hschedule hedited
      obtain ⟨_, hpublished, -⟩ := hallocated.clearStage.1.pubScadaStage
      have hcleared : edited.clearStage = (edited.clearStage.1, .replied ()) :=
        Prod.ext rfl hpublished
      rw [heq]
      dsimp only
      rw [hcleared]
      constructor
      · rintro ⟨st', sched', hst', hsched', hP⟩
        cases hst'
        have hsame : some sched' = some proc.schedule := hsched'.symm.trans hlookup
        cases hsame
        exact ⟨proc, result, rfl, hP⟩
      · rintro ⟨proc', result', hdone, hP⟩
        cases hdone
        exact ⟨edited.clearStage.1, proc.schedule, rfl, hlookup, hP⟩

/-- Where the loaded event is converted to one that restages it, the schedule is restored if and
only if the edit leaves it the same. -/
theorem ScadaState.Names.restores_iff (h : st.Names siteId sched loc e) {mode : Mode}
    (hmode : st.modes.lookup e.mode = some mode) (haligned : e.startTime.instant % minute = 0)
    (hfits : FitsFrom st.config ⟨0, 0, 0, 0⟩ mode.modeVariables)
    (hvalues : SlotValues mode.modeVariables e.variableMap) {now : ℤ} {fuel : ℕ} :
    st.RestoresSchedule now fuel siteId sched ↔
      ∃ proc result, (⟨sched, now⟩ : Process).overwrite (st.context now) fuel
        (sched.withEvent (e.scadaCopy loc mode.modeVariables)) sched.cache true =
          some (proc, .done result) ∧ sched.SameAs proc.schedule := by
  have hzone : st.timezoneOf siteId = some loc := by
    rw [ScadaState.timezoneOf, h.schedule]
    exact h.timezone
  obtain ⟨filled, hfilled, hsite, hconverted⟩ := e.loaded_converted h.allocated.natural hmode
    hzone haligned hfits hvalues
  have hload := h.loadStage_eq hfilled
  have hloaded : ({ st with stage := [filled] } : ScadaState).Allocated := by
    have hallocated := h.allocated.loadStage.1
    rw [hload] at hallocated
    exact hallocated
  have hselected : filled.selectSite st.onlySchedule = filled := by
    rw [ScadaEvent.selectSite, hsite]
  have hstaged : ({ st with stage := [filled] } : ScadaState).convertStage st.onlySchedule
      [filled] ∅ = ([filled], .replied ((∅ : AList fun _ : String => EventList).insert siteId
        [e.scadaCopy loc mode.modeVariables])) := by
    have hagain : filled.convertToEvent { st with stage := [filled] } =
        .replied (some (e.scadaCopy loc mode.modeVariables)) := hconverted
    rw [ScadaState.convertStage, hselected]
    rw [hagain, hsite]
    rfl
  have hstart : (e.scadaCopy loc mode.modeVariables).startTime.instant = e.startTime.instant := rfl
  have hedit : editSchedule (st.context now) fuel true .append
      [e.scadaCopy loc mode.modeVariables] ⟨sched, now⟩ =
        (⟨sched, now⟩ : Process).overwrite (st.context now) fuel
          (sched.withEvent (e.scadaCopy loc mode.modeVariables)) sched.cache true :=
    editSchedule_append (patchEvents_single hstart h.first)
  have hresult := hloaded.scadaEdit_single now fuel .append h.schedule hstaged sched.SameAs
  rw [ScadaState.RestoresSchedule, hload, ← hedit, ← h.canEdit]
  exact (and_iff_right rfl).trans hresult

end Appending

/-! ## Which events round-trip -/

/-- The variables of a mode fit into the configured slots. -/
def ModeFits (cfg : ScadaConfiguration) (mode : Mode) : Prop :=
  FitsFrom cfg ⟨0, 0, 0, 0⟩ mode.modeVariables

section Settings

variable {e : Event} {loc : Location} {vars : SetpointList}

/-- What a conversion with the same values says about the values. -/
theorem Event.allInSlots_of_converted (loc : Location) (hvalues : SlotValues vars e.variableMap)
    (hsame : ∀ id, (e.scadaCopy loc vars).variableMap.lookup id = e.variableMap.lookup id) :
    e.AllInSlots vars := by
  refine ⟨hvalues, fun id hid => ?_⟩
  have hentered : (e.scadaCopy loc vars).variableMap.lookup id =
      if id ∈ SetpointList.ids vars then e.variableMap.lookup id
      else (∅ : VariableMap).lookup id := lookup_enterValues hvalues ∅ id
  rw [← hsame, hentered] at hid
  by_contra hnot
  have hout : id ∉ SetpointList.ids vars := hnot
  rw [if_neg hout] at hid
  simp at hid

/-- The end of a one-off or endless event comes back. -/
theorem Event.scadaCopy_endCount (loc : Location) (vars : SetpointList)
    (hends : e.repeatSettings.endCount = 1 ∨ e.repeatSettings.endCount = -1) :
    (e.scadaCopy loc vars).repeatSettings.endCount = e.repeatSettings.endCount := by
  have hcopied : (e.scadaCopy loc vars).repeatSettings.endCount =
      if e.repeatSettings.endCount = -1 then -1 else 1 := rfl
  rw [hcopied]
  split_ifs <;> omega

/-- A plain event comes back as a later version of itself. -/
theorem Event.Plain.restages (h : e.Plain vars) (loc : Location) :
    (e.scadaCopy loc vars).Restages e where
  start := rfl
  duration := (createEvent_duration_iff e.startTime e.duration e.mode).mpr h.duration
  mode := rfl
  values := h.inSlots.lookup_scadaCopy loc

/-- The settings of a one-off or endless event come back if and only if it is plain. -/
theorem Event.sameSettings_iff (hvalues : SlotValues vars e.variableMap)
    (hends : e.repeatSettings.endCount = 1 ∨ e.repeatSettings.endCount = -1) :
    e.SameSettings (e.scadaCopy loc vars) ↔ e.Plain vars := by
  constructor
  · intro h
    refine ⟨(createEvent_duration_iff e.startTime e.duration e.mode).mp h.duration,
      e.allInSlots_of_converted loc hvalues h.values, fun hendless => ?_, ?_⟩
    · exact ⟨(h.cycle hendless).symm, (h.frequency hendless).symm⟩
    · refine List.eq_nil_iff_forall_not_mem.mpr fun t ht => ?_
      have hnone : e.hasException t = false := (h.exceptions t).symm
      have hfound : e.hasException t = true :=
        List.any_eq_true.mpr ⟨t, ht, decide_eq_true rfl⟩
      exact absurd (hfound.symm.trans hnone) (by decide)
  · intro h
    have hnew := h.restages loc
    refine ⟨hnew.start, hnew.duration, hnew.mode, hnew.values,
      Event.scadaCopy_endCount loc vars hends, fun hendless => (h.daily hendless).1.symm,
      fun hendless => (h.daily hendless).2.symm,
      fun hendless hweekly => ?_, fun t => ?_⟩
    · rw [(h.daily hendless).1] at hweekly
      cases hweekly
    · rw [Event.hasException, Event.hasException, Series.hasException, Series.hasException,
        h.exceptions]
      rfl

/-- A plain event comes back the same if and only if it has nothing that is left out. -/
theorem Event.Plain.same_iff (h : e.Plain vars)
    (hends : e.repeatSettings.endCount = 1 ∨ e.repeatSettings.endCount = -1) :
    e.Same (e.scadaCopy loc vars) ↔ e.NothingLeftOut loc vars := by
  have hnew := h.restages loc
  have hcopied : (e.scadaCopy loc vars).repeatSettings =
      { newNonRepeatingSeries with endCount := e.repeatSettings.endCount } := by
    rw [← Event.scadaCopy_endCount loc vars hends]
    rfl
  constructor
  · intro hsame
    exact ⟨hsame.id.symm, (congrArg Time.loc hsame.startTime).symm, h.duration, h.inSlots,
      hsame.repeatSettings.symm.trans hcopied⟩
  · intro hall
    refine ⟨hall.id.symm, ?_, hnew.duration, hnew.mode, hnew.values,
      hcopied.trans hall.repeatSettings.symm⟩
    rw [Event.scadaCopy, ← hall.startTime]
    rfl

/-- An event that has nothing that is left out is plain. -/
theorem Event.NothingLeftOut.plain (h : e.NothingLeftOut loc vars) : e.Plain vars where
  duration := h.duration
  inSlots := h.inSlots
  daily _ := by
    rw [h.repeatSettings]
    exact ⟨rfl, rfl⟩
  exceptions := by
    rw [h.repeatSettings]
    rfl

end Settings

/-- An event round-trips if and only if it is plain and, where the list that holds it anew is
accepted, it is the active event or has nothing that is left out. -/
theorem ScadaState.Names.roundTrips_iff_plain {st : ScadaState} {siteId : String}
    {sched : Schedule} {loc : Location} {e : Event} {mode : Mode} {now : ℤ} {fuel : ℕ}
    (h : st.Names siteId sched loc e) (hmode : st.modes.lookup e.mode = some mode)
    (hwell : WellFormedVariables mode.modeVariables) (hfits : ModeFits st.config mode)
    (haligned : e.startTime.instant % minute = 0)
    (hends : e.repeatSettings.endCount = 1 ∨ e.repeatSettings.endCount = -1)
    (hcalm : sched.Calm (st.context now) loc e) (hfuel : 0 < fuel)
    (hchecked : ((sched.withEvent (e.scadaCopy loc mode.modeVariables)).validate fuel (some loc)
      (st.context now).mapOfVariables).isSome) :
    st.RoundTrips now fuel siteId sched e ↔ e.Plain mode.modeVariables ∧
      ((∃ valid, (sched.withEvent (e.scadaCopy loc mode.modeVariables)).validate fuel (some loc)
          (st.context now).mapOfVariables = some (.ok valid)) →
        sched.activeEvent = some e ∨ e.NothingLeftOut loc mode.modeVariables) := by
  have hzone : st.timezoneOf siteId = some loc := by
    rw [ScadaState.timezoneOf, h.schedule]
    exact h.timezone
  have hvariables : (st.context now).mapOfVariables e.mode = some mode.modeVariables := by
    have hlookup : (st.context now).mapOfVariables e.mode =
        (st.modes.lookup e.mode).map (·.modeVariables) := rfl
    rw [hlookup, hmode]
    rfl
  have hrestores : SlotValues mode.modeVariables e.variableMap → e.Plain mode.modeVariables →
      (st.RestoresSchedule now fuel siteId sched ↔
        ((∃ valid, (sched.withEvent (e.scadaCopy loc mode.modeVariables)).validate fuel (some loc)
            (st.context now).mapOfVariables = some (.ok valid)) →
          sched.activeEvent = some e ∨ e.NothingLeftOut loc mode.modeVariables)) := by
    intro hvalues hplain
    rw [h.restores_iff hmode haligned hfits hvalues, ← hplain.same_iff hends]
    obtain ⟨checked, hresult⟩ := Option.isSome_iff_exists.mp hchecked
    cases checked with
    | error err =>
      have hrefused : (⟨sched, now⟩ : Process).overwrite (st.context now) fuel
          (sched.withEvent (e.scadaCopy loc mode.modeVariables)) sched.cache true =
            some (⟨sched, now⟩, .done (.error (.invalidList err))) := by
        rw [Process.overwrite]
        dsimp only
        rw [h.timezone, hresult]
      refine iff_of_true ⟨_, _, hrefused, .refl sched⟩ ?_
      rintro ⟨valid, hvalid⟩
      rw [hresult] at hvalid
      cases hvalid
    | ok valid =>
      obtain ⟨proc, hoverwritten, hsame⟩ := hcalm.overwrite h.timezone hfuel h.first
        (hplain.restages loc) (fun _ => Event.scadaCopy_validated hvariables hvalues) hresult now
      rw [hoverwritten, forall_prop_of_true ⟨valid, hresult⟩, ← hsame]
      constructor
      · rintro ⟨proc', result, hdone, hkept⟩
        cases hdone
        exact hkept
      · intro hkept
        exact ⟨proc, _, rfl, hkept⟩
  constructor
  · rintro ⟨⟨filled, eNew, hfilled, hconverted, hsettings⟩, hrestored⟩
    have hload : ScadaEvent.fillVariables st.config e.variableMap mode.modeVariables ⟨0, 0, 0, 0⟩
        (ScadaEvent.flatten st.config e siteId) = .replied (filled, true) := by
      rw [ScadaEvent.fillWithData, hmode] at hfilled
      exact hfilled
    have hvalues := slotValues_of_fillVariables hwell.known hload
    obtain ⟨filled', hfilled', -, hconverted'⟩ := e.loaded_converted h.allocated.natural hmode
      hzone haligned hfits hvalues
    rw [hfilled] at hfilled'
    cases hfilled'
    rw [hconverted] at hconverted'
    cases hconverted'
    have hplain := (Event.sameSettings_iff hvalues hends).mp hsettings
    exact ⟨hplain, (hrestores hvalues hplain).mp hrestored⟩
  · rintro ⟨hplain, hkept⟩
    have hvalues := hplain.inSlots.values
    obtain ⟨filled, hfilled, -, hconverted⟩ := e.loaded_converted h.allocated.natural hmode hzone
      haligned hfits hvalues
    exact ⟨⟨filled, _, hfilled, hconverted, (Event.sameSettings_iff hvalues hends).mpr hplain⟩,
      (hrestores hvalues hplain).mpr hkept⟩

/-- The interface to the schedule, with the start of the event on its stage. -/
def powerInterface (id : Id) : ScadaState where
  config := oneFloat
  slots := [⟨ScadaEvent.reset oneFloat, .unscheduled⟩]
  stage := [ScadaEvent.flatten oneFloat (dailyPower id) "site"]
  siteEnums := ["site"]
  modeEnums := ["power"]
  modes := (∅ : ModeMap).insert "power" powerMode
  masterSchedule := (∅ : AList fun _ : String => Schedule).insert "site" (powerSchedule id)
  hasLocalSchedule := true

theorem oneFloat_natural : oneFloat.Natural := ScadaConfiguration.natural_of_validate (by rfl)

theorem powerInterface_allocated (id : Id) : (powerInterface id).Allocated := by
  have hreset := ScadaEvent.reset_sized oneFloat_natural
  have hstaged : (ScadaEvent.flatten oneFloat (dailyPower id) "site").Sized oneFloat :=
    ⟨hreset.floats, hreset.ints, hreset.bools, hreset.strings⟩
  constructor
  · exact oneFloat_natural
  · rfl
  · intro slot hslot
    rw [List.mem_singleton.mp hslot]
    exact hreset
  · rfl
  · intro staged hmem
    rw [List.mem_singleton.mp hmem]
    exact hstaged

theorem dailyPower_aligned (id : Id) : (dailyPower id).startTime.instant % minute = 0 := by
  have hstart : (dailyPower id).startTime.instant = 1000 * day + 8 * hour := rfl
  rw [hstart]
  decide

theorem powerInterface_names (id : Id) :
    (powerInterface id).Names "site" (powerSchedule id) utc (dailyPower id) := by
  have hat : (powerSchedule id).eventAt (dailyPower id).startTime = some (dailyPower id) := by
    have hfound : EventList.get [dailyPower id] (dailyPower id).startTime =
        some (dailyPower id) := List.find?_cons_of_pos (by simp)
    exact hfound
  constructor
  · exact powerInterface_allocated id
  · rfl
  · exact AList.lookup_insert _
  · rfl
  · exact ⟨_, _, rfl, rfl, getEventTime_flatten oneFloat (dailyPower_aligned id) "site" utc, hat⟩
  · have hall : (powerSchedule id).aggregateAllEvents = [dailyPower id] := rfl
    rw [hall]
    exact List.find?_cons_of_pos (by simp)

theorem powerMode_wellFormed : WellFormedVariables powerMode.modeVariables := by
  constructor
  · exact List.nodup_singleton _
  · intro v hv text
    rw [List.mem_singleton.mp hv]
    exact VarType.noConfusion

theorem powerMode_fits : ModeFits oneFloat powerMode := by
  constructor <;> decide

/-- The schedule of the event is calm before the event. -/
theorem powerSchedule_calm (id : Id) :
    (powerSchedule id).Calm ((powerInterface id).context 0) utc (dailyPower id) where
  expired := rfl
  sorted := List.pairwise_singleton _ _
  toCome x hx := by
    have hstart : (dailyPower id).startTime.instant = 1000 * day + 8 * hour := rfl
    have hnow : ((powerInterface id).context 0).now = 0 := rfl
    rw [List.mem_singleton.mp hx, Event.passedStartTime, hstart, hnow]
    decide
  before := by
    rintro a ⟨⟩
  storable := by
    rintro a ⟨⟩
  valid x hx := by
    have hnone : (powerSchedule id).aggregateAllEvents.eraseP
        (·.startTime.equal (dailyPower id).startTime) = [] := rfl
    rw [hnone] at hx
    cases hx

/-- The event, as it comes back, passes validation. -/
theorem dailyPower_validated (fuel : ℕ) :
    ∃ valid, ((powerSchedule 7).withEvent
      ((dailyPower 7).scadaCopy utc powerMode.modeVariables)).validate fuel (some utc)
        ((powerInterface 7).context 0).mapOfVariables = some (.ok valid) := by
  have hlist : (powerSchedule 7).withEvent
      ((dailyPower 7).scadaCopy utc powerMode.modeVariables) =
        [(dailyPower 7).scadaCopy utc powerMode.modeVariables] := rfl
  have haccepted : (((dailyPower 7).scadaCopy utc powerMode.modeVariables).validate (some utc)
      ((powerInterface 7).context 0).mapOfVariables).isOk = true := by decide
  cases hvalid : ((dailyPower 7).scadaCopy utc powerMode.modeVariables).validate (some utc)
      ((powerInterface 7).context 0).mapOfVariables with
  | error err =>
    rw [hvalid] at haccepted
    cases haccepted
  | ok valid =>
    rw [hlist]
    exact ⟨_, EventList.validate_ok_iff.mpr ⟨[valid], .cons hvalid .nil, rfl, rfl⟩⟩

end HybridOs.Scheduler
