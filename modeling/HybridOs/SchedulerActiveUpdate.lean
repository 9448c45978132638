import HybridOs.SchedulerRun

/-!
# The update of the active event and what it sends

The active event takes over the duration and the variable values of an edited event with the
same start and mode, and sends the values that are new. The loop over the mode's variables
ends at the first value that stays the same, so an update is complete exactly when no such
value stands before one that changes.
-/

namespace HybridOs.Scheduler

/-! ## Sent sets -/

/-- A `set` sent through FIMS. -/
structure FimsSet where
  /-- Where it is sent. -/
  uri : String
  /-- The value that is sent, clothed or not. -/
  body : GoValue

/-- What sending reads of the process. -/
structure Sender where
  /-- FIMS is connected. -/
  connected : Bool
  /-- `ClothedSetpoints` of the local schedule, where one is configured. -/
  clothedSetpoints : Option Bool

/-- `SendSet`. -/
def Setpoint.sendSet (sp : Setpoint) (connected : Bool) (val : GoValue) (clothed : Bool) :
    List FimsSet :=
  if !connected then []
  else [⟨sp.uri, if clothed then .map [("value", val)] else val⟩]

namespace Schedule

/-- The loop of `updateActiveEvent` over the mode's variables, with what it sends. -/
def sendUpdates (sender : Sender) (eNew : Event) :
    SetpointList → Event → (Event × Return Unit) × List FimsSet
  | [], eOld => ((eOld, .done ()), [])
  | modeVar :: rest, eOld =>
    match eOld.variableMap.lookup modeVar.id, eNew.variableMap.lookup modeVar.id with
    | some oldVarVal, some newVarVal =>
      if oldVarVal.deepEqual newVarVal then ((eOld, .done ()), [])
      else
        match sender.clothedSetpoints with
        | none => ((eOld, .panicked), [])
        | some clothed =>
          let later := sendUpdates sender eNew rest
            { eOld with variableMap := eOld.variableMap.insert modeVar.id newVarVal }
          (later.1, modeVar.sendSet sender.connected newVarVal clothed ++ later.2)
    | _, _ => sendUpdates sender eNew rest eOld

/-- What the loop does to the active event does not depend on what it sends. -/
theorem sendUpdates_fst (sender : Sender) (eNew : Event) (modeVariables : SetpointList)
    (eOld : Event) : (sendUpdates sender eNew modeVariables eOld).1 =
      updateVariables sender.clothedSetpoints.isSome eNew modeVariables eOld := by
  induction modeVariables generalizing eOld with
  | nil => rfl
  | cons modeVar rest ih =>
    rw [sendUpdates, updateVariables]
    cases eOld.variableMap.lookup modeVar.id with
    | none => exact ih eOld
    | some oldVarVal =>
      cases eNew.variableMap.lookup modeVar.id with
      | none => exact ih eOld
      | some newVarVal =>
        dsimp only
        by_cases hequal : oldVarVal.deepEqual newVarVal = true
        · rw [if_pos hequal, if_pos hequal]
        · rw [if_neg hequal, if_neg hequal]
          cases hclothed : sender.clothedSetpoints with
          | none => rfl
          | some clothed =>
            rw [hclothed] at ih
            exact ih _

/-- `updateActiveEvent`, with what it sends. -/
def sendActiveUpdate (ctx : Context) (sender : Sender) (eOld eNew : Event) :
    (Event × Return Unit) × List FimsSet :=
  if !eOld.startTime.equal eNew.startTime then ((eOld, .done ()), [])
  else if eOld.mode ≠ eNew.mode then ((eOld, .done ()), [])
  else
    let eOld := { eOld with duration := eNew.duration }
    match ctx.mapOfVariables eNew.mode with
    | none => ((eOld, .done ()), [])
    | some modeVariables => sendUpdates sender eNew modeVariables eOld

/-- The update leaves the active event as a schedule's own update does. -/
theorem sendActiveUpdate_fst {ctx : Context} {sender : Sender}
    (hlocal : ctx.hasLocalSchedule = sender.clothedSetpoints.isSome) (eOld eNew : Event) :
    (sendActiveUpdate ctx sender eOld eNew).1 = updateActiveEvent ctx eOld eNew := by
  rw [sendActiveUpdate, updateActiveEvent]
  split_ifs
  · rfl
  · rfl
  · cases ctx.mapOfVariables eNew.mode with
    | none => rfl
    | some modeVariables =>
      rw [hlocal]
      exact sendUpdates_fst sender eNew modeVariables _

/-! ## A complete update -/

section Update

variable (eNew : Event)

/-- The old and new value of a variable differ. -/
def Changed (eOld : Event) (v : Setpoint) : Prop :=
  ∃ oldVarVal newVarVal, eOld.variableMap.lookup v.id = some oldVarVal ∧
    eNew.variableMap.lookup v.id = some newVarVal ∧ oldVarVal.deepEqual newVarVal = false

/-- The new value of a variable, wherever it changes. -/
def changedValue (eOld : Event) (v : Setpoint) : Option GoValue :=
  match eOld.variableMap.lookup v.id, eNew.variableMap.lookup v.id with
  | some oldVarVal, some newVarVal =>
    if oldVarVal.deepEqual newVarVal then none else some newVarVal
  | _, _ => none

/-- A set for every variable that changes, in the mode's order. -/
def changedSets (clothed : Bool) (eOld : Event) (modeVariables : SetpointList) : List FimsSet :=
  modeVariables.flatMap fun v =>
    match changedValue eNew eOld v with
    | some newVarVal => v.sendSet true newVarVal clothed
    | none => []

/-- The stored value of a variable is that of the new settings. -/
def Takes (e : Event) (v : Setpoint) : Prop :=
  ∃ stored newVarVal, e.variableMap.lookup v.id = some stored ∧
    eNew.variableMap.lookup v.id = some newVarVal ∧
    (stored = newVarVal ∨ stored.deepEqual newVarVal = true)

/-- The outcome of a complete update of the variables. -/
def Complete (sender : Sender) (eOld : Event) (modeVariables : SetpointList)
    (result : (Event × Return Unit) × List FimsSet) : Prop :=
  result.1.2 = .done () ∧ (∀ v ∈ modeVariables, Takes eNew result.1.1 v) ∧
    result.2 = changedSets eNew (sender.clothedSetpoints.getD false) eOld modeVariables

/-- When an update is complete: every variable has an old value, those that change come first,
and a change can be sent. -/
structure CanComplete (sender : Sender) (eOld : Event) (modeVariables : SetpointList) : Prop where
  /-- The active event has a value for every variable of its mode. -/
  present : ∀ v ∈ modeVariables, v.id ∈ eOld.variableMap
  /-- No unchanged variable stands before a changed one. -/
  changed_first : modeVariables.Pairwise fun v w => Changed eNew eOld w → Changed eNew eOld v
  /-- A change needs a local schedule and a connection. -/
  sendable : (∃ v ∈ modeVariables, Changed eNew eOld v) →
    sender.clothedSetpoints.isSome = true ∧ sender.connected = true

variable {eNew} {eOld : Event}

theorem changed_iff {v : Setpoint} :
    Changed eNew eOld v ↔ (changedValue eNew eOld v).isSome = true := by
  unfold Changed changedValue
  cases hold : eOld.variableMap.lookup v.id with
  | none => simp
  | some oldVarVal =>
    cases hnew : eNew.variableMap.lookup v.id with
    | none => simp
    | some newVarVal =>
      by_cases hequal : oldVarVal.deepEqual newVarVal = true
      · simp
      · simp

/-- What changes only depends on the stored values. -/
theorem changedValue_congr {eOld' : Event} {v : Setpoint}
    (h : eOld'.variableMap.lookup v.id = eOld.variableMap.lookup v.id) :
    changedValue eNew eOld' v = changedValue eNew eOld v := by
  unfold changedValue
  rw [h]

variable {clothed : Bool} {modeVariables : SetpointList}

theorem changedSets_congr {eOld' : Event}
    (h : ∀ v ∈ modeVariables, eOld'.variableMap.lookup v.id = eOld.variableMap.lookup v.id) :
    changedSets eNew clothed eOld' modeVariables = changedSets eNew clothed eOld modeVariables := by
  unfold changedSets
  apply List.flatMap_congr
  intro v hv
  rw [changedValue_congr (h v hv)]

/-- Only changed variables are in the sets, and each is. -/
theorem changedSets_eq_nil (h : changedSets eNew clothed eOld modeVariables = []) :
    ∀ v ∈ modeVariables, ¬ Changed eNew eOld v := by
  intro v hv hchanged
  have hnone := List.flatMap_eq_nil_iff.mp h v hv
  obtain ⟨newVarVal, hvalue⟩ := Option.isSome_iff_exists.mp (changed_iff.mp hchanged)
  rw [hvalue] at hnone
  exact absurd hnone (by simp [Setpoint.sendSet])

theorem changedSets_of_unchanged (h : ∀ v ∈ modeVariables, ¬ Changed eNew eOld v) :
    changedSets eNew clothed eOld modeVariables = [] := by
  apply List.flatMap_eq_nil_iff.mpr
  intro v hv
  cases hvalue : changedValue eNew eOld v with
  | none => rfl
  | some newVarVal => exact absurd (changed_iff.mpr (by rw [hvalue]; rfl)) (h v hv)

/-- The update only writes values of the variables it goes over. -/
theorem sendUpdates_frame (sender : Sender) (modeVariables : SetpointList) (eOld : Event) :
    (sendUpdates sender eNew modeVariables eOld).1.1.duration = eOld.duration ∧
    ∀ id ∉ modeVariables.ids,
      (sendUpdates sender eNew modeVariables eOld).1.1.variableMap.lookup id =
        eOld.variableMap.lookup id := by
  induction modeVariables generalizing eOld with
  | nil => exact ⟨rfl, fun _ _ => rfl⟩
  | cons modeVar rest ih =>
    have hskip : ∀ id ∉ SetpointList.ids (modeVar :: rest), id ∉ SetpointList.ids rest :=
      fun id hid hmem => hid (List.mem_cons_of_mem _ hmem)
    rw [sendUpdates]
    cases hold : eOld.variableMap.lookup modeVar.id with
    | none => exact ⟨(ih eOld).1, fun id hid => (ih eOld).2 id (hskip id hid)⟩
    | some oldVarVal =>
      cases hnew : eNew.variableMap.lookup modeVar.id with
      | none => exact ⟨(ih eOld).1, fun id hid => (ih eOld).2 id (hskip id hid)⟩
      | some newVarVal =>
        dsimp only
        split_ifs with hequal
        · exact ⟨rfl, fun _ _ => rfl⟩
        · cases sender.clothedSetpoints with
          | none => exact ⟨rfl, fun _ _ => rfl⟩
          | some clothed =>
            obtain ⟨hduration, hlookup⟩ :=
              ih { eOld with variableMap := eOld.variableMap.insert modeVar.id newVarVal }
            refine ⟨hduration, ?_⟩
            intro id hid
            have hne : id ≠ modeVar.id := fun heq => hid (heq ▸ List.mem_cons_self ..)
            exact (hlookup id (hskip id hid)).trans (AList.lookup_insert_ne hne)

/-- Nothing is sent without a connection. -/
theorem sendUpdates_disconnected {sender : Sender} (h : sender.connected = false)
    (modeVariables : SetpointList) (eOld : Event) :
    (sendUpdates sender eNew modeVariables eOld).2 = [] := by
  induction modeVariables generalizing eOld with
  | nil => rfl
  | cons modeVar rest ih =>
    rw [sendUpdates]
    cases hold : eOld.variableMap.lookup modeVar.id with
    | none => exact ih eOld
    | some oldVarVal =>
      cases hnew : eNew.variableMap.lookup modeVar.id with
      | none => exact ih eOld
      | some newVarVal =>
        dsimp only
        split_ifs with hequal
        · rfl
        · cases sender.clothedSetpoints with
          | none => rfl
          | some clothed =>
            dsimp only
            rw [ih, List.append_nil, Setpoint.sendSet, h]
            rfl

/-! ## Exactly when the update is complete -/

section Cases

variable {sender : Sender} {modeVar : Setpoint} {rest : SetpointList} {eOld : Event}

/-- A variable without an old value is never given one. -/
theorem complete_iff_of_missing (hnodup : (SetpointList.ids (modeVar :: rest)).Nodup)
    (hold : eOld.variableMap.lookup modeVar.id = none) :
    Complete eNew sender eOld (modeVar :: rest)
        (sendUpdates sender eNew (modeVar :: rest) eOld) ↔
      CanComplete eNew sender eOld (modeVar :: rest) := by
  have hnot : modeVar.id ∉ SetpointList.ids rest := (List.nodup_cons.mp hnodup).1
  apply iff_of_false
  · rintro ⟨-, htakes, -⟩
    obtain ⟨stored, newVarVal, hstored, -, -⟩ := htakes modeVar (List.mem_cons_self ..)
    rw [sendUpdates, hold] at hstored
    dsimp only at hstored
    rw [(sendUpdates_frame sender rest eOld).2 _ hnot, hold] at hstored
    cases hstored
  · intro hcan
    have hpresent := hcan.present modeVar (List.mem_cons_self ..)
    rw [← AList.lookup_isSome, hold] at hpresent
    cases hpresent

variable {oldVarVal newVarVal : GoValue}
  (hold : eOld.variableMap.lookup modeVar.id = some oldVarVal)
  (hnew : eNew.variableMap.lookup modeVar.id = some newVarVal)
include hold hnew

/-- An unchanged variable ends the update, which is complete if nothing after it changes. -/
theorem complete_iff_of_unchanged (hrest : ∀ v ∈ rest, v.id ∈ eNew.variableMap)
    (hequal : oldVarVal.deepEqual newVarVal = true) :
    Complete eNew sender eOld (modeVar :: rest)
        (sendUpdates sender eNew (modeVar :: rest) eOld) ↔
      CanComplete eNew sender eOld (modeVar :: rest) := by
  have hunchanged : ¬ Changed eNew eOld modeVar := by
    rw [changed_iff, changedValue, hold, hnew]
    simp [hequal]
  rw [sendUpdates, hold, hnew]
  dsimp only
  rw [if_pos hequal]
  constructor
  · rintro ⟨-, htakes, hsets⟩
    have hnone := changedSets_eq_nil hsets.symm
    constructor
    · intro v hv
      obtain ⟨stored, _, hstored, -, -⟩ := htakes v hv
      rw [← AList.lookup_isSome, hstored]
      rfl
    · apply List.pairwise_of_forall_mem_list
      intro _ _ w hw hchanged
      exact absurd hchanged (hnone w hw)
    · rintro ⟨v, hv, hchanged⟩
      exact absurd hchanged (hnone v hv)
  · intro hcan
    have hnone : ∀ v ∈ modeVar :: rest, ¬ Changed eNew eOld v := by
      intro v hv
      rcases List.mem_cons.mp hv with heq | hv
      · rw [heq]
        exact hunchanged
      · exact fun hchanged =>
          hunchanged ((List.pairwise_cons.mp hcan.changed_first).1 v hv hchanged)
    refine ⟨rfl, ?_, (changedSets_of_unchanged hnone).symm⟩
    intro v hv
    have hpresent := hcan.present v hv
    rw [← AList.lookup_isSome] at hpresent
    obtain ⟨stored, hstored⟩ := Option.isSome_iff_exists.mp hpresent
    have hgiven : v.id ∈ eNew.variableMap := by
      rcases List.mem_cons.mp hv with heq | hv
      · rw [heq, ← AList.lookup_isSome, hnew]
        rfl
      · exact hrest v hv
    rw [← AList.lookup_isSome] at hgiven
    obtain ⟨given, hgiven⟩ := Option.isSome_iff_exists.mp hgiven
    refine ⟨stored, given, hstored, hgiven, Or.inr ?_⟩
    by_contra hdiffer
    exact hnone v hv ⟨stored, given, hstored, hgiven, Bool.not_eq_true _ ▸ hdiffer⟩

theorem changed_of_differ (hdiffer : oldVarVal.deepEqual newVarVal = false) :
    Changed eNew eOld modeVar := ⟨oldVarVal, newVarVal, hold, hnew, hdiffer⟩

/-- A changed variable that cannot be sent leaves the update incomplete. -/
theorem complete_iff_of_unsendable (hdiffer : oldVarVal.deepEqual newVarVal = false)
    (hsender : ¬ (sender.clothedSetpoints.isSome = true ∧ sender.connected = true)) :
    Complete eNew sender eOld (modeVar :: rest)
        (sendUpdates sender eNew (modeVar :: rest) eOld) ↔
      CanComplete eNew sender eOld (modeVar :: rest) := by
  have hchanged := changed_of_differ hold hnew hdiffer
  apply iff_of_false
  · rintro ⟨hdone, -, hsets⟩
    have hsome : ∀ clothed, changedSets eNew clothed eOld (modeVar :: rest) ≠ [] :=
      fun clothed hnil => changedSets_eq_nil hnil modeVar (List.mem_cons_self ..) hchanged
    cases hclothed : sender.clothedSetpoints with
    | none =>
      rw [sendUpdates, hold, hnew] at hdone
      dsimp only at hdone
      rw [hdiffer, hclothed] at hdone
      cases hdone
    | some clothed =>
      have hdisconnected : sender.connected = false := by
        rw [hclothed] at hsender
        simpa using hsender
      rw [sendUpdates_disconnected hdisconnected] at hsets
      exact hsome _ hsets.symm
  · intro hcan
    exact hsender (hcan.sendable ⟨modeVar, List.mem_cons_self .., hchanged⟩)

/-- After a changed variable has been sent the rest of the update goes on. -/
theorem sendUpdates_cons_changed {clothed : Bool} (hclothed : sender.clothedSetpoints = some clothed)
    (hconnected : sender.connected = true) (hdiffer : oldVarVal.deepEqual newVarVal = false) :
    sendUpdates sender eNew (modeVar :: rest) eOld =
      let later := sendUpdates sender eNew rest
        { eOld with variableMap := eOld.variableMap.insert modeVar.id newVarVal }
      (later.1, modeVar.sendSet true newVarVal clothed ++ later.2) := by
  rw [sendUpdates, hold, hnew]
  dsimp only
  rw [hdiffer, hclothed, hconnected]
  rfl

/-- The update is complete after a changed variable if the rest of it is. -/
theorem complete_iff_of_changed {clothed : Bool}
    (hclothed : sender.clothedSetpoints = some clothed) (hconnected : sender.connected = true)
    (hdiffer : oldVarVal.deepEqual newVarVal = false)
    (hnodup : (SetpointList.ids (modeVar :: rest)).Nodup) :
    Complete eNew sender eOld (modeVar :: rest)
        (sendUpdates sender eNew (modeVar :: rest) eOld) ↔
      Complete eNew sender
        { eOld with variableMap := eOld.variableMap.insert modeVar.id newVarVal } rest
        (sendUpdates sender eNew rest
          { eOld with variableMap := eOld.variableMap.insert modeVar.id newVarVal }) := by
  have hnot : modeVar.id ∉ SetpointList.ids rest := (List.nodup_cons.mp hnodup).1
  have hvalue : changedValue eNew eOld modeVar = some newVarVal := by
    rw [changedValue, hold, hnew]
    simp [hdiffer]
  have hsame : changedSets eNew clothed
      { eOld with variableMap := eOld.variableMap.insert modeVar.id newVarVal } rest =
        changedSets eNew clothed eOld rest := by
    apply changedSets_congr
    intro v hv
    exact AList.lookup_insert_ne fun heq => hnot (heq ▸ List.mem_map_of_mem hv)
  have hsets : changedSets eNew clothed eOld (modeVar :: rest) =
      modeVar.sendSet true newVarVal clothed ++ changedSets eNew clothed eOld rest := by
    unfold changedSets
    rw [List.flatMap_cons, hvalue]
  have hstored : (sendUpdates sender eNew rest
      { eOld with variableMap := eOld.variableMap.insert modeVar.id newVarVal }).1.1.variableMap.lookup
        modeVar.id = some newVarVal := by
    rw [(sendUpdates_frame sender rest _).2 _ hnot]
    exact AList.lookup_insert _
  rw [sendUpdates_cons_changed hold hnew hclothed hconnected hdiffer]
  dsimp only
  unfold Complete
  rw [hclothed, Option.getD_some, hsets, hsame]
  constructor
  · rintro ⟨hdone, htakes, hsent⟩
    exact ⟨hdone, fun v hv => htakes v (List.mem_cons_of_mem _ hv), List.append_cancel_left hsent⟩
  · rintro ⟨hdone, htakes, hsent⟩
    refine ⟨hdone, ?_, by rw [hsent]⟩
    intro v hv
    rcases List.mem_cons.mp hv with heq | hv
    · rw [heq]
      exact ⟨newVarVal, newVarVal, hstored, hnew, Or.inl rfl⟩
    · exact htakes v hv

/-- Whether an update can complete is left open by a changed variable that is sent. -/
theorem canComplete_iff_of_changed (hdiffer : oldVarVal.deepEqual newVarVal = false)
    (hsender : sender.clothedSetpoints.isSome = true ∧ sender.connected = true)
    (hnodup : (SetpointList.ids (modeVar :: rest)).Nodup) :
    CanComplete eNew sender eOld (modeVar :: rest) ↔
      CanComplete eNew sender
        { eOld with variableMap := eOld.variableMap.insert modeVar.id newVarVal } rest := by
  have hnot : modeVar.id ∉ SetpointList.ids rest := (List.nodup_cons.mp hnodup).1
  have hne : ∀ v ∈ rest, v.id ≠ modeVar.id :=
    fun v hv heq => hnot (heq ▸ List.mem_map_of_mem hv)
  have hchanges : ∀ v ∈ rest, (Changed eNew
      { eOld with variableMap := eOld.variableMap.insert modeVar.id newVarVal } v ↔
        Changed eNew eOld v) := by
    intro v hv
    rw [changed_iff, changed_iff, changedValue_congr (AList.lookup_insert_ne (hne v hv))]
  have hchanged := changed_of_differ hold hnew hdiffer
  constructor
  · intro hcan
    constructor
    · intro v hv
      exact (AList.mem_insert _).mpr (Or.inr (hcan.present v (List.mem_cons_of_mem _ hv)))
    · refine List.Pairwise.imp_of_mem ?_ (List.pairwise_cons.mp hcan.changed_first).2
      intro v w hv hw himp
      rw [hchanges v hv, hchanges w hw]
      exact himp
    · exact fun _ => hsender
  · intro hcan
    constructor
    · intro v hv
      rcases List.mem_cons.mp hv with heq | hv
      · rw [heq, ← AList.lookup_isSome, hold]
        rfl
      · rcases (AList.mem_insert _).mp (hcan.present v hv) with heq | hmem
        · exact absurd heq (hne v hv)
        · exact hmem
    · refine List.pairwise_cons.mpr ⟨fun _ _ _ => hchanged, ?_⟩
      refine List.Pairwise.imp_of_mem ?_ hcan.changed_first
      intro v w hv hw himp
      rw [hchanges v hv, hchanges w hw] at himp
      exact himp
    · exact fun _ => hsender

end Cases

variable {modeVariables : SetpointList}

/-- The update of the variables is complete exactly when it can be. -/
theorem complete_iff {sender : Sender} (hnodup : modeVariables.ids.Nodup)
    (hgiven : ∀ v ∈ modeVariables, v.id ∈ eNew.variableMap) (eOld : Event) :
    Complete eNew sender eOld modeVariables (sendUpdates sender eNew modeVariables eOld) ↔
      CanComplete eNew sender eOld modeVariables := by
  induction modeVariables generalizing eOld with
  | nil =>
    constructor
    · intro _
      exact ⟨by simp, List.Pairwise.nil, by simp⟩
    · intro _
      exact ⟨rfl, by simp, rfl⟩
  | cons modeVar rest ih =>
    have hrest : ∀ v ∈ rest, v.id ∈ eNew.variableMap :=
      fun v hv => hgiven v (List.mem_cons_of_mem _ hv)
    have hnewSome := hgiven modeVar (List.mem_cons_self ..)
    rw [← AList.lookup_isSome] at hnewSome
    obtain ⟨newVarVal, hnew⟩ := Option.isSome_iff_exists.mp hnewSome
    cases hold : eOld.variableMap.lookup modeVar.id with
    | none => exact complete_iff_of_missing hnodup hold
    | some oldVarVal =>
      cases hequal : oldVarVal.deepEqual newVarVal with
      | true => exact complete_iff_of_unchanged hold hnew hrest hequal
      | false =>
        by_cases hsender : sender.clothedSetpoints.isSome = true ∧ sender.connected = true
        · obtain ⟨clothed, hclothed⟩ := Option.isSome_iff_exists.mp hsender.1
          rw [complete_iff_of_changed hold hnew hclothed hsender.2 hequal hnodup,
            canComplete_iff_of_changed hold hnew hequal hsender hnodup]
          exact ih (List.nodup_cons.mp hnodup).2 hrest _
        · exact complete_iff_of_unsendable hold hnew hequal hsender

/-- Whether an update can complete only depends on the stored values. -/
theorem CanComplete.congr {sender : Sender} {eOld' : Event}
    (hsame : eOld'.variableMap = eOld.variableMap) (h : CanComplete eNew sender eOld modeVariables)
    :
    CanComplete eNew sender eOld' modeVariables := by
  have hchanges : ∀ v, Changed eNew eOld' v ↔ Changed eNew eOld v := by
    intro v
    unfold Changed
    rw [hsame]
  constructor
  · rw [hsame]
    exact h.present
  · simp only [hchanges]
    exact h.changed_first
  · simp only [hchanges]
    exact h.sendable

end Update

/-! ## The update of the active event -/

/-- The outcome of a complete update of the active event: the duration and every variable of
the mode are those of the new settings, and a set was sent for each variable that changed. -/
def UpdatesFully (ctx : Context) (sender : Sender) (eOld eNew : Event)
    (modeVariables : SetpointList) : Prop :=
  (sendActiveUpdate ctx sender eOld eNew).1.1.duration = eNew.duration ∧
  Complete eNew sender eOld modeVariables (sendActiveUpdate ctx sender eOld eNew)

/-- An active event with the start and the mode of the new settings takes all of them over,
and sends exactly what changes, if and only if the changed variables come first in the mode,
none is missing in the event and a change can be sent. -/
theorem updatesFully_iff {ctx : Context} (sender : Sender) {eOld eNew : Event}
    {modeVariables : SetpointList} (hstart : eOld.startTime.equal eNew.startTime = true)
    (hmode : eOld.mode = eNew.mode) (hvariables : ctx.mapOfVariables eNew.mode = some modeVariables)
    (hnodup : modeVariables.ids.Nodup) (hsuits : Suits modeVariables eNew.variableMap) :
    UpdatesFully ctx sender eOld eNew modeVariables ↔
      CanComplete eNew sender eOld modeVariables := by
  have hgiven : ∀ v ∈ modeVariables, v.id ∈ eNew.variableMap :=
    fun v hv => (hsuits.keys v.id).mpr (List.mem_map_of_mem hv)
  have hupdate : sendActiveUpdate ctx sender eOld eNew =
      sendUpdates sender eNew modeVariables { eOld with duration := eNew.duration } := by
    rw [sendActiveUpdate, hstart, hvariables]
    exact if_neg (not_not.mpr hmode)
  have hduration : (sendUpdates sender eNew modeVariables
      { eOld with duration := eNew.duration }).1.1.duration = eNew.duration :=
    (sendUpdates_frame sender modeVariables _).1
  have hsame : eOld.variableMap = { eOld with duration := eNew.duration }.variableMap := rfl
  unfold UpdatesFully
  rw [hupdate]
  constructor
  · rintro ⟨-, hcomplete⟩
    have hcan := (complete_iff hnodup hgiven { eOld with duration := eNew.duration }).mp hcomplete
    exact hcan.congr hsame
  · intro hcan
    have hsized := (complete_iff hnodup hgiven { eOld with duration := eNew.duration }).mpr
      (hcan.congr hsame.symm)
    exact ⟨hduration, hsized⟩

/-- A float variable. -/
def floatVariable (id : String) : Setpoint :=
  ⟨id, id, "", "/components/" ++ id, .float, .float64 0, false, "", none, none⟩

/-- A mode with a power and a reserve. -/
def twoVariables : SetpointList := [floatVariable "power", floatVariable "reserve"]

/-- An event with values for both. -/
def twoValues (power reserve : UInt64) : Event where
  id := 1
  startTime := ⟨8 * hour, utc⟩
  duration := 60
  mode := "peak"
  variableMap := (AList.singleton "power" (.float64 power)).insert "reserve" (.float64 reserve)
  repeatSettings := newNonRepeatingSeries

/-- A process with the mode and a local schedule. -/
def twoContext : Context where
  now := 9 * hour
  mapOfVariables mode := if mode = "peak" then some twoVariables else none
  hasLocalSchedule := true

variable (power reserve : UInt64)

theorem twoValues_lookup_power :
    (twoValues power reserve).variableMap.lookup "power" = some (.float64 power) := rfl

theorem twoValues_lookup_reserve :
    (twoValues power reserve).variableMap.lookup "reserve" = some (.float64 reserve) := rfl

theorem twoValues_suits : Suits twoVariables (twoValues power reserve).variableMap := by
  constructor
  · intro id
    rw [twoValues, AList.mem_insert, AList.mem_keys, AList.keys_singleton]
    simp [twoVariables, floatVariable, SetpointList.ids, or_comm]
  · intro v hv value hvalue
    rcases List.mem_cons.mp hv with hpower | hv
    · rw [hpower, floatVariable, twoValues_lookup_power] at hvalue
      cases hvalue
      rw [hpower]
      rfl
    · rw [List.mem_singleton.mp hv, floatVariable, twoValues_lookup_reserve] at hvalue
      cases hvalue
      rw [List.mem_singleton.mp hv]
      rfl

/-- Both values change. -/
theorem updatesFully_iff_twoValues :
    UpdatesFully twoContext ⟨true, some false⟩ (twoValues 0 0) (twoValues 1 1) twoVariables ↔
      CanComplete (twoValues 1 1) ⟨true, some false⟩ (twoValues 0 0) twoVariables :=
  updatesFully_iff _ rfl rfl rfl (by decide) (twoValues_suits 1 1)

/-- A reserve that changes behind a power that does not is neither stored nor sent. -/
theorem reserve_not_updated :
    ¬ ∀ (ctx : Context) (sender : Sender) (eOld eNew : Event) (modeVariables : SetpointList),
      sender.connected = true → sender.clothedSetpoints.isSome = true →
      eOld.startTime.equal eNew.startTime = true → eOld.mode = eNew.mode →
      ctx.mapOfVariables eNew.mode = some modeVariables → modeVariables.ids.Nodup →
      Suits modeVariables eOld.variableMap → Suits modeVariables eNew.variableMap →
      UpdatesFully ctx sender eOld eNew modeVariables := by
  intro hall
  obtain ⟨-, -, htakes, -⟩ := hall twoContext ⟨true, some false⟩ (twoValues 0 0) (twoValues 0 1)
    twoVariables rfl rfl rfl rfl rfl (by decide) (twoValues_suits 0 0) (twoValues_suits 0 1)
  obtain ⟨stored, newVarVal, hstored, hnew, hsame⟩ :=
    htakes (floatVariable "reserve") (by simp [twoVariables])
  have hkept : (sendActiveUpdate twoContext ⟨true, some false⟩ (twoValues 0 0)
      (twoValues 0 1)).1.1.variableMap.lookup "reserve" = some (.float64 0) := rfl
  rw [floatVariable, hkept] at hstored
  rw [floatVariable, twoValues_lookup_reserve] at hnew
  cases hstored
  cases hnew
  rcases hsame with heq | hequal
  · cases heq
  · exact absurd hequal (by decide)

end Schedule

end HybridOs.Scheduler
