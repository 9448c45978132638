import HybridOs.SchedulerModesEdits

/-!
# Modes along runs

Requests for modes ask for edits with variables in order. Along every run whose edits of modes
are clean and whose operations on schedules keep events sound, the default mode is there and
every event of every schedule names a mode and gives a value to exactly the mode's variables, so
that validation accepts it.
-/

namespace HybridOs.Scheduler

/-! ## What requests ask for -/

theorem orError_ok {α ε : Type} {err : ModeError} {x : Except ε α} {a : α}
    (h : orError err x = .ok a) : x = .ok a := by
  cases x with
  | error _ => cases h
  | ok _ =>
    cases h
    rfl

theorem decoded_ok {α : Type} {err : ModeError} {x : Option α} {a : α}
    (h : decoded err x = .ok a) : x = some a := by
  cases x with
  | none => cases h
  | some _ =>
    cases h
    rfl

theorem map_ok {α β ε : Type} {f : α → β} {x : Except ε α} {b : β} (h : x.map f = .ok b) :
    ∃ a, x = .ok a ∧ f a = b := by
  cases x with
  | error _ => cases h
  | ok a =>
    cases h
    exact ⟨a, rfl, rfl⟩

/-- Validating a setpoint keeps its identifier and its type, which is a known one. -/
theorem Setpoint.validate_ok {sp checked : Setpoint} (h : sp.validate = .ok checked) :
    checked.id = sp.id ∧ checked.varType = sp.varType ∧ ∀ text, checked.varType ≠ .other text := by
  have hfinish : ∀ {x : Except SetpointError Setpoint},
      (x >>= fun cast => do cast.validateTemplatingIfPresent; pure cast) = .ok checked →
        x = .ok checked := by
    intro x hx
    obtain ⟨cast, hcast, hx⟩ := CheckedRun.of_bind_ok hx
    obtain ⟨_, -, hx⟩ := CheckedRun.of_bind_ok hx
    cases hx
    exact hcast
  unfold Setpoint.validate at h
  split at h
  next htype _ =>
    cases hfinish h
    exact ⟨rfl, rfl, by simp [htype]⟩
  next htype =>
    split at h
    · cases hfinish h
      exact ⟨rfl, rfl, by simp [htype]⟩
    · cases hfinish h
  next htype _ =>
    cases hfinish h
    exact ⟨rfl, rfl, by simp [htype]⟩
  next htype _ =>
    cases hfinish h
    exact ⟨rfl, rfl, by simp [htype]⟩
  · cases hfinish h
  · cases hfinish h

namespace SetpointList

variable {list list' : SetpointList} {sp : Setpoint}

/-- A list that passes validation has distinct identifiers and known types. -/
theorem validate_ok (h : list.validate = .ok ()) : WellFormedVariables list := by
  have hgo : ∀ (idSet : List String) (list : SetpointList), validate.go idSet list = .ok () →
      WellFormedVariables list ∧ ∀ id ∈ list.ids, id ∉ idSet := by
    intro idSet list
    induction list generalizing idSet with
    | nil => exact fun _ => ⟨⟨List.nodup_nil, by simp⟩, by simp [ids]⟩
    | cons sp rest ih =>
      intro h
      rw [validate.go] at h
      split_ifs at h with hmem
      obtain ⟨checked, hchecked, h⟩ := CheckedRun.of_bind_ok h
      obtain ⟨hrest, hapart⟩ := ih (sp.id :: idSet) h
      obtain ⟨-, htype, hknown⟩ := sp.validate_ok hchecked
      rw [htype] at hknown
      refine ⟨⟨List.nodup_cons.mpr ⟨fun hid => ?_, hrest.nodup⟩, fun v hv => ?_⟩, fun id hid => ?_⟩
      · exact hapart sp.id hid List.mem_cons_self
      · rcases List.mem_cons.mp hv with rfl | hmem'
        · exact hknown
        · exact hrest.known v hmem'
      · rcases List.mem_cons.mp hid with rfl | hmem'
        · exact hmem
        · exact fun hold => hapart id hmem' (List.mem_cons_of_mem _ hold)
  exact (hgo [] list h).1

/-- Appending a setpoint of a known type keeps a list in order. -/
theorem append_ok (h : list.append sp = .ok list') (hwell : WellFormedVariables list)
    (hknown : ∀ text, sp.varType ≠ .other text) : WellFormedVariables list' := by
  rw [append] at h
  split_ifs at h with hthere
  cases h
  rw [Bool.not_eq_true, List.any_eq_false] at hthere
  refine ⟨?_, fun v hv => ?_⟩
  · rw [ids, List.map_append]
    refine hwell.nodup.append (List.nodup_singleton _) ?_
    intro id hid hlast
    obtain ⟨v, hv, rfl⟩ := List.mem_map.mp hid
    have hne := hthere v hv
    simp only [List.map_cons, List.map_nil, List.mem_singleton] at hlast
    simp [hlast] at hne
  · rcases List.mem_append.mp hv with hmem | hlast
    · exact hwell.known v hmem
    · rw [List.mem_singleton.mp hlast]
      exact hknown

/-- A part of a list in order is in order. -/
theorem wellFormed_sublist (h : List.Sublist list' list) (hwell : WellFormedVariables list) :
    WellFormedVariables list' :=
  ⟨hwell.nodup.sublist (h.map _), fun v hv => hwell.known v (h.subset hv)⟩

/-- A setpoint of the same identifier and a known type keeps a list in order. -/
theorem wellFormed_set {index : ℕ} {target : Setpoint} (htarget : list[index]? = some target)
    (hid : sp.id = target.id) (hknown : ∀ text, sp.varType ≠ .other text)
    (hwell : WellFormedVariables list) : WellFormedVariables (list.set index sp) := by
  constructor
  · have hsame : SetpointList.ids (list.set index sp) = list.ids := by
      rw [ids, List.map_set, hid, ids]
      refine List.ext_getElem? fun i => ?_
      rw [List.getElem?_set, List.length_map, List.getElem?_map]
      split_ifs with hi hlt
      · rw [← hi, htarget]
        rfl
      · rw [← hi, htarget]
        exact absurd (List.getElem?_eq_some_iff.mp htarget).1 hlt
      · rfl
    rw [hsame]
    exact hwell.nodup
  · intro v hv
    rcases List.mem_or_eq_of_mem_set hv with hmem | rfl
    · exact hwell.known v hmem
    · exact hknown

end SetpointList

namespace Mode

/-- A mode that passes validation has its variables in order. -/
theorem validate_ok {m : Mode} (h : m.validate = .ok ()) : WellFormedVariables m.modeVariables := by
  rw [validate] at h
  split_ifs at h
  obtain ⟨_, hvariables, -⟩ := CheckedRun.of_bind_ok h
  exact SetpointList.validate_ok (orError_ok hvariables)

variable {body : ModeBody}

/-- Editing a field of a setpoint keeps its identifier. -/
theorem editSetpoint_id {sp sp' : Setpoint} {endpoint : String}
    (h : editSetpoint sp endpoint body = .ok sp') : sp'.id = sp.id := by
  rw [editSetpoint.eq_def] at h
  split at h
  · obtain ⟨_, -, rfl⟩ := map_ok h
    rfl
  · obtain ⟨_, -, rfl⟩ := map_ok h
    rfl
  · obtain ⟨_, -, rfl⟩ := map_ok h
    rfl
  · obtain ⟨_, -, rfl⟩ := map_ok h
    rfl
  · cases h

/-- A SET to a list of setpoints leaves it in order. -/
theorem setSetpoints_ok {list list' : SetpointList} {frags : List String}
    (h : setSetpoints list frags body = .ok list') (hwell : WellFormedVariables list) :
    WellFormedVariables list' := by
  rw [setSetpoints] at h
  split at h
  · obtain ⟨newList, -, h⟩ := CheckedRun.of_bind_ok h
    obtain ⟨_, hvalid, h⟩ := CheckedRun.of_bind_ok h
    cases h
    exact SetpointList.validate_ok (orError_ok hvalid)
  next targetId _ =>
    split at h
    · cases h
    next targetIndex _ =>
      split at h
      · cases h
      next target htarget =>
        have hfinish : ∀ {x : Except ModeError Setpoint},
            (x >>= fun newSettings => do
              let newSettings ← orError .invalidData newSettings.validate
              return list.set targetIndex newSettings) = .ok list' →
            (∀ newSettings, x = .ok newSettings → newSettings.id = target.id) →
            WellFormedVariables list' := by
          intro x hx hid
          obtain ⟨newSettings, hnew, hx⟩ := CheckedRun.of_bind_ok hx
          obtain ⟨checked, hchecked, hx⟩ := CheckedRun.of_bind_ok hx
          cases hx
          obtain ⟨hsame, -, hknown⟩ := newSettings.validate_ok (orError_ok hchecked)
          exact SetpointList.wellFormed_set htarget (hsame.trans (hid newSettings hnew)) hknown hwell
        split at h
        · refine hfinish h fun newSettings hnew => ?_
          obtain ⟨sp, -, rfl⟩ := map_ok hnew
          rfl
        · exact hfinish h fun newSettings hnew => editSetpoint_id hnew

end Mode

/-- What edits that requests ask for bring along: well-formed modes, with the default one where
all are replaced, and no mode over another one with other variables. -/
def ModeEdit.Orderly (modes : ModeMap) : ModeEdit → Prop
  | .overwriteMap newModes =>
    defaultModeId ∈ newModes ∧ Event.WellFormedModes newModes.buildMapOfVariables
  | .addMode modeId newMode => modeId ∉ modes ∧ WellFormedVariables newMode.modeVariables
  | .deleteAllModesExceptDefault => True
  | .deleteMode _ => True
  | .overwrite _ newSettings => WellFormedVariables newSettings.modeVariables
  | .overwriteVariablesList _ newVariables => WellFormedVariables newVariables
  | .assign modeId newSettings =>
    WellFormedVariables newSettings.modeVariables ∧
      ∃ m, modes.lookup modeId = some m ∧ newSettings.modeVariables = m.modeVariables

section

variable {ctx : ModeContext} {modes : ModeMap} {msg : ModeMsg} {granted : Granted}

namespace Mode

variable {m : Mode} {modeId : String}

theorem handleSet_orderly (h : m.handleSet msg modeId = .ok granted)
    (hthere : modes.lookup modeId = some m) (hwell : WellFormedVariables m.modeVariables) :
    granted.edit.Orderly modes := by
  have hassign : ∀ {newSettings : Mode}, newSettings.modeVariables = m.modeVariables →
      (ModeEdit.assign modeId newSettings).Orderly modes := by
    intro newSettings hsame
    exact ⟨hsame ▸ hwell, m, hthere, hsame⟩
  unfold handleSet at h
  obtain ⟨-, h⟩ := CheckedRun.of_guard_ok h
  obtain ⟨-, h⟩ := CheckedRun.of_guard_ok h
  split at h
  · obtain ⟨newSettings, -, h⟩ := CheckedRun.of_bind_ok h
    obtain ⟨_, hvalid, h⟩ := CheckedRun.of_bind_ok h
    cases h
    exact validate_ok hvalid
  · obtain ⟨name, -, h⟩ := CheckedRun.of_bind_ok h
    cases h
    exact hassign rfl
  · obtain ⟨colorCode, -, h⟩ := CheckedRun.of_bind_ok h
    cases h
    exact hassign rfl
  · obtain ⟨icon, -, h⟩ := CheckedRun.of_bind_ok h
    cases h
    exact hassign rfl
  · obtain ⟨modeConstants, -, h⟩ := CheckedRun.of_bind_ok h
    cases h
    exact hassign rfl
  · obtain ⟨newVariables, hset, h⟩ := CheckedRun.of_bind_ok h
    cases h
    exact setSetpoints_ok hset hwell
  · cases h

theorem handlePost_orderly (h : m.handlePost ctx msg modeId = .ok granted)
    (hthere : modes.lookup modeId = some m) (hwell : WellFormedVariables m.modeVariables) :
    granted.edit.Orderly modes := by
  unfold handlePost at h
  obtain ⟨-, h⟩ := CheckedRun.of_guard_ok h
  obtain ⟨-, h⟩ := CheckedRun.of_guard_ok h
  obtain ⟨posted, -, h⟩ := CheckedRun.of_bind_ok h
  obtain ⟨newSetpoint, hvalid, h⟩ := CheckedRun.of_bind_ok h
  obtain ⟨-, -, hknown⟩ := Setpoint.validate_ok (orError_ok hvalid)
  split at h
  · obtain ⟨newVariables, happend, h⟩ := CheckedRun.of_bind_ok h
    cases h
    exact SetpointList.append_ok (orError_ok happend) hwell hknown
  · obtain ⟨modeConstants, -, h⟩ := CheckedRun.of_bind_ok h
    cases h
    exact ⟨hwell, m, hthere, rfl⟩
  · cases h

theorem handleDel_orderly (h : m.handleDel msg modeId = .ok granted)
    (hthere : modes.lookup modeId = some m) (hwell : WellFormedVariables m.modeVariables) :
    granted.edit.Orderly modes := by
  unfold handleDel at h
  obtain ⟨-, h⟩ := CheckedRun.of_guard_ok h
  split at h
  · cases h
    refine SetpointList.wellFormed_sublist ?_ hwell
    rw [deleteSetpoints]
    split
    · exact List.nil_sublist _
    · exact List.eraseP_sublist
  · cases h
    exact ⟨hwell, m, hthere, rfl⟩
  · cases h

end Mode

namespace ModeMap

/-- The modes behind the pointers of a map that passes validation. -/
theorem derefAll_ok {entries : List (Sigma fun _ : String => Option Mode)}
    {mm newModes : ModeMap} (h : derefAll entries mm = .ok newModes)
    (hwell : Event.WellFormedModes mm.buildMapOfVariables) :
    Event.WellFormedModes newModes.buildMapOfVariables ∧ (∀ id ∈ mm, id ∈ newModes) ∧
      ∀ entry ∈ entries, entry.1 ∈ newModes := by
  induction entries generalizing mm with
  | nil =>
    cases h
    exact ⟨hwell, fun id hid => hid, by simp⟩
  | cons entry rest ih =>
    obtain ⟨modeId, _ | m⟩ := entry
    · cases h
    · rw [derefAll] at h
      split_ifs at h
      obtain ⟨_, hvalid, h⟩ := CheckedRun.of_bind_ok h
      obtain ⟨hdone, hkept, hrest⟩ := ih h (Master.wellFormed_insert hwell (Mode.validate_ok hvalid))
      refine ⟨hdone, fun id hid => hkept id ((AList.mem_insert _).mpr (.inr hid)), ?_⟩
      intro entry hentry
      rcases List.mem_cons.mp hentry with rfl | hmem
      · exact hkept modeId ((AList.mem_insert _).mpr (.inl rfl))
      · exact hrest entry hmem

theorem validateInput_ok {input : Option (AList fun _ : String => Option Mode)}
    {newModes : ModeMap} (h : validateInput input = .ok newModes) :
    defaultModeId ∈ newModes ∧ Event.WellFormedModes newModes.buildMapOfVariables := by
  cases input with
  | none => cases h
  | some newMap =>
    rw [validateInput] at h
    split_ifs at h with hdefault
    have hempty : Event.WellFormedModes (ModeMap.buildMapOfVariables ∅) := by
      intro id modeVariables hvariables
      cases hvariables
    obtain ⟨hdone, -, hentries⟩ := derefAll_ok h hempty
    obtain ⟨entry, hentry, hid⟩ := List.mem_map.mp hdefault
    exact ⟨hid ▸ hentries entry hentry, hdone⟩

theorem handleMapSet_orderly {externalEditor : Bool}
    (h : handleMapSet body externalEditor = .ok granted) : granted.edit.Orderly modes := by
  unfold handleMapSet at h
  obtain ⟨-, h⟩ := CheckedRun.of_guard_ok h
  obtain ⟨newMap, -, h⟩ := CheckedRun.of_bind_ok h
  obtain ⟨newModes, hvalid, h⟩ := CheckedRun.of_bind_ok h
  cases h
  exact validateInput_ok hvalid

theorem handleNewModePost_orderly (h : handleNewModePost ctx modes body = .ok granted) :
    granted.edit.Orderly modes := by
  unfold handleNewModePost at h
  dsimp only at h
  obtain ⟨-, h⟩ := CheckedRun.of_guard_ok h
  obtain ⟨newMode, -, h⟩ := CheckedRun.of_bind_ok h
  obtain ⟨_, hvalid, h⟩ := CheckedRun.of_bind_ok h
  split_ifs at h with hthere
  · cases h
  · cases h
    exact ⟨hthere, Mode.validate_ok hvalid⟩

end ModeMap

/-- Requests ask for orderly edits. -/
theorem ModeRequest.orderly {request : ModeRequest}
    (hwell : Event.WellFormedModes modes.buildMapOfVariables)
    (h : request.granted ctx modes = .ok granted) : granted.edit.Orderly modes := by
  have hmode : ∀ {modeId : String} {m : Mode}, modes.lookup modeId = some m →
      WellFormedVariables m.modeVariables := by
    intro modeId m hm
    refine hwell modeId _ ?_
    rw [ModeMap.buildMapOfVariables, hm]
    rfl
  cases request with
  | webSocketSet body => exact ModeMap.handleMapSet_orderly h
  | fimsSet msg =>
    unfold ModeRequest.granted ModeMap.handleSet at h
    dsimp only at h
    obtain ⟨-, h⟩ := CheckedRun.of_guard_ok h
    obtain ⟨-, h⟩ := CheckedRun.of_guard_ok h
    split at h
    · exact ModeMap.handleMapSet_orderly h
    next modeId _ =>
      obtain ⟨m, hm, h⟩ := CheckedRun.of_bind_ok h
      have hthere := decoded_ok hm
      exact Mode.handleSet_orderly h hthere (hmode hthere)
  | fimsPost msg =>
    unfold ModeRequest.granted ModeMap.handlePost at h
    dsimp only at h
    obtain ⟨-, h⟩ := CheckedRun.of_guard_ok h
    obtain ⟨-, h⟩ := CheckedRun.of_guard_ok h
    split at h
    · exact ModeMap.handleNewModePost_orderly h
    next modeId _ =>
      obtain ⟨m, hm, h⟩ := CheckedRun.of_bind_ok h
      have hthere := decoded_ok hm
      exact Mode.handlePost_orderly h hthere (hmode hthere)
  | fimsDel msg =>
    unfold ModeRequest.granted ModeMap.handleDel at h
    dsimp only at h
    obtain ⟨-, h⟩ := CheckedRun.of_guard_ok h
    obtain ⟨-, h⟩ := CheckedRun.of_guard_ok h
    split at h
    · cases h
      trivial
    next modeId _ =>
      by_cases hwhole : msg.frags.length = 3
      · rw [if_pos hwhole] at h
        cases h
        trivial
      · rw [if_neg hwhole] at h
        obtain ⟨m, hm, h⟩ := CheckedRun.of_bind_ok h
        have hthere := decoded_ok hm
        exact Mode.handleDel_orderly h hthere (hmode hthere)

end

/-! ## Clean edits -/

/-- An edit of the modes after which every event still suits its mode: the default mode is not
deleted, a deleted mode's events do not share identifiers with others, the variables of modes are
edited cleanly, and the deletion of all modes but the default one finds no events of others. -/
def ModeEdit.Clean (master : Master) : ModeEdit → Prop
  | .overwriteMap newModes =>
    ∀ modeId ∈ master.modes, Master.ReplacesCleanly newModes master modeId
  | .addMode _ _ => True
  | .deleteAllModesExceptDefault => master.schedules.All fun e => e.mode = defaultModeId
  | .deleteMode modeId => modeId ≠ defaultModeId ∧ master.schedules.ApartFrom modeId
  | .overwrite modeId newSettings => ∀ m, master.modes.lookup modeId = some m →
    master.schedules.EditsCleanly modeId m.modeVariables newSettings.modeVariables
  | .overwriteVariablesList modeId newVariables => ∀ m, master.modes.lookup modeId = some m →
    master.schedules.EditsCleanly modeId m.modeVariables newVariables
  | .assign _ _ => True

namespace Master

/-- The default mode is there, the modes have variables in order, and the events are sound. -/
structure Sound (master : Master) : Prop extends Fits master where
  default : defaultModeId ∈ master.modes

variable {master : Master}

/-- Overwriting a mode leaves all modes there. -/
theorem mem_overwriteMode {modeId id : String} {newSettings : Mode} (h : id ∈ master.modes) :
    id ∈ (master.overwriteMode modeId newSettings).modes := by
  rw [overwriteMode]
  split
  · exact h
  · exact (AList.mem_insert _).mpr (.inr h)

/-- A clean, orderly edit of the modes keeps them and the events sound. -/
theorem Sound.applyModeEdit (h : master.Sound) {edit : ModeEdit}
    (horderly : edit.Orderly master.modes) (hclean : edit.Clean master) :
    (master.applyModeEdit edit).Sound := by
  cases edit with
  | overwriteMap newModes =>
    obtain ⟨hfits, hlookups⟩ := h.toFits.overwriteMap horderly.2 hclean
    refine ⟨hfits, ?_⟩
    change defaultModeId ∈ (master.overwriteMap newModes).modes
    rw [← AList.lookup_isSome, hlookups, AList.lookup_isSome]
    exact horderly.1
  | addMode modeId newMode =>
    refine ⟨h.toFits.insertMode horderly.2 fun m hm => ?_,
      (AList.mem_insert _).mpr (.inr h.default)⟩
    rw [AList.lookup_eq_none.mpr horderly.1] at hm
    cases hm
  | deleteAllModesExceptDefault =>
    refine ⟨h.toFits.deleteAllModesExceptDefault hclean, ?_⟩
    change defaultModeId ∈ master.deleteAllModesExceptDefault.modes
    rw [← AList.lookup_isSome, deleteAllModesExceptDefault,
      (lookup_foldl_erase_except master.modes.keys master.modes).1, AList.lookup_isSome]
    exact h.default
  | deleteMode modeId =>
    refine ⟨h.toFits.deleteMode hclean.2, ?_⟩
    exact (AList.mem_erase).mpr ⟨Ne.symm hclean.1, h.default⟩
  | overwrite modeId newSettings =>
    exact ⟨h.toFits.overwriteMode horderly hclean, mem_overwriteMode h.default⟩
  | overwriteVariablesList modeId newVariables =>
    rw [Master.applyModeEdit]
    split
    · exact h
    next m hm =>
      refine ⟨h.toFits.overwriteMode horderly fun m' hm' => ?_, mem_overwriteMode h.default⟩
      cases hm.symm.trans hm'
      exact hclean m hm
  | assign modeId newSettings =>
    obtain ⟨hwell, m, hm, hsame⟩ := horderly
    refine ⟨h.toFits.insertMode hwell fun m' hm' => ?_, (AList.mem_insert _).mpr (.inr h.default)⟩
    cases hm.symm.trans hm'
    exact hsame

/-! ## Runs -/

/-- What an operation meets: the edits of modes are clean, and the operations on schedules keep
events sound. -/
def Keeps (master : Master) : Operation → Prop
  | .schedule id input => ∀ schedule, master.schedules id = some schedule →
    Process.KeepsSound ⟨schedule, master.lastScheduleModification⟩ (master.scheduleInput input)
  | .modes ctx request => ∀ granted, request.granted ctx master.modes = .ok granted →
    granted.edit.Clean master

/-- One operation keeps the modes and the events sound. -/
theorem step_sound (master : Master) (operation : Operation) (master' : Master)
    (h : master.Sound) (hkeeps : master.Keeps operation)
    (hstep : master.step operation = .ok master') : master'.Sound := by
  cases operation with
  | schedule id input =>
    rw [step] at hstep
    split at hstep
    · cases hstep
      exact h
    next schedule hschedule =>
      split at hstep
      · cases hstep
      next proc hproc =>
        cases hstep
        have hsound := Process.step_allSound h.wellFormed (h.events id schedule hschedule)
          (hkeeps schedule hschedule) hproc
        refine ⟨⟨h.wellFormed, fun id' sched hsched => ?_⟩, h.default⟩
        by_cases hid : id' = id
        · rw [hid] at hsched
          change Function.update master.schedules id (some proc.schedule) id = some sched at hsched
          rw [Function.update_self, Option.some.injEq] at hsched
          exact hsched ▸ hsound
        · change Function.update master.schedules id (some proc.schedule) id' = some sched at hsched
          rw [Function.update_of_ne hid] at hsched
          exact h.events id' sched hsched
  | modes ctx request =>
    rw [step, handleModes] at hstep
    split at hstep
    · cases hstep
      exact h
    next granted hgranted =>
      have hedited := h.applyModeEdit (ModeRequest.orderly h.wellFormed hgranted)
        (hkeeps granted hgranted)
      split_ifs at hstep
      · cases hstep
        exact ⟨⟨hedited.wellFormed, hedited.events⟩, hedited.default⟩
      · cases hstep
        exact hedited

/-- The default mode is there, every event of every schedule names a mode and has exactly its
variables, and validation accepts every event in any location. -/
structure Consistent (master : Master) : Prop where
  default : defaultModeId ∈ master.modes
  named : ∀ id sched, master.schedules id = some sched → ∀ e ∈ sched.aggregateAllEvents,
    ∃ m, master.modes.lookup e.mode = some m ∧
      ∀ varId, varId ∈ e.variableMap ↔ varId ∈ m.modeVariables.ids
  accepted : ∀ id sched, master.schedules id = some sched → ∀ e ∈ sched.aggregateAllEvents,
    ∀ loc, ∃ e', e.validate (some loc) master.modes.buildMapOfVariables = .ok e'

theorem Sound.consistent (h : master.Sound) : master.Consistent := by
  refine ⟨h.default, fun id sched hsched e he => ?_, fun id sched hsched e he loc => ?_⟩
  · have hsound := Schedule.all_iff.mp (h.events id sched hsched) e he
    obtain ⟨modeVariables, hvariables, hsuits⟩ := hsound.suits
    obtain ⟨m, hm, rfl⟩ := Option.map_eq_some_iff.mp hvariables
    exact ⟨m, hm, hsuits.keys⟩
  · have hsound := Schedule.all_iff.mp (h.events id sched hsched) e he
    exact hsound.validate h.wellFormed loc

/-- Along every run from sound modes and schedules whose operations keep them, the default mode
is there, the events have the variables of their modes, and validation accepts them. -/
theorem run_consistent {master : Master} (h : master.Sound) (operations : List Operation)
    (hkeeps : CheckedRun.Guarded step Keeps master operations) :
    CheckedRun.Guarded step (fun master _ => master.Consistent) master operations ∧
      ∀ master', CheckedRun.run step master operations = .ok master' → master'.Consistent := by
  constructor
  · refine CheckedRun.guarded_law Sound (fun mid operation hsound hkeep => ?_) h hkeeps
    exact ⟨hsound.consistent, fun next => step_sound mid operation next hsound hkeep⟩
  · intro master' hrun
    exact (CheckedRun.run_invariant step_sound h hkeeps hrun).consistent

/-! ## Deleting all modes but the default one -/

/-- A mode without variables. -/
def plainMode (name : String) : Mode where
  modeVariables := []
  modeConstants := []
  colorCode := "red"
  icon := "bolt"
  name := name

/-- A daily event of a mode other than the default one. -/
def peakEvent : Event := { Process.everyDayAt (8 * hour) with mode := "peak" }

/-- The default mode, another one, and a schedule with an event of the other. -/
def peakMaster : Master where
  modes := (AList.insert "peak" (plainMode "Peak") ∅).insert defaultModeId (plainMode "Default")
  schedules id :=
    if id = "site" then
      some { id := "site", timezone := some utc, randomSrc := UInt16.ofNat
             scheduledEvents := [peakEvent], expiredEvents := [], activeEvent := none, cache := {0} }
    else none
  lastScheduleModification := 0

/-- A deletion without a body. -/
def deletion (frags : List String) : Operation :=
  .modes ⟨0, false, fun text => text⟩ (.fimsDel
    ⟨frags, ⟨true, none, none, none, none, fun _ => none, none⟩⟩)

theorem peakMaster_sound : peakMaster.Sound := by
  have hplain : ∀ id modeVariables, peakMaster.modes.buildMapOfVariables id = some modeVariables →
      modeVariables = [] := by
    intro id modeVariables hvariables
    obtain ⟨m, hm, rfl⟩ := Option.map_eq_some_iff.mp hvariables
    by_cases hdefault : id = defaultModeId
    · rw [hdefault, peakMaster, AList.lookup_insert] at hm
      cases hm
      rfl
    · by_cases hpeak : id = "peak"
      · rw [hpeak] at hm
        cases hm
        rfl
      · rw [peakMaster, AList.lookup_insert_ne hdefault, AList.lookup_insert_ne hpeak] at hm
        cases hm
  have hpeak : peakEvent.Sound peakMaster.modes.buildMapOfVariables := by
    refine ⟨⟨[], rfl, fun id => ?_, fun v hv => absurd hv List.not_mem_nil⟩, by decide +kernel, ?_⟩
    · exact iff_of_false (AList.notMem_empty id) List.not_mem_nil
    · exact ⟨fun text => by simp [peakEvent, Process.everyDayAt, newNonRepeatingSeries],
        by decide, by decide, by decide, by decide⟩
  refine ⟨⟨fun id modeVariables hvariables => ?_, fun id sched hsched => ?_⟩, by decide⟩
  · rw [hplain id modeVariables hvariables]
    exact ⟨List.nodup_nil, fun v hv => absurd hv List.not_mem_nil⟩
  · simp only [peakMaster] at hsched
    split_ifs at hsched
    cases hsched
    exact ⟨by simp, by simpa using hpeak, by simp⟩

/-- Not every run from sound modes and schedules leaves every event with a mode that is there. -/
theorem deletion_leavesEvents : ¬ ∀ (master : Master) (operations : List Operation)
    (master' : Master), master.Sound → CheckedRun.run step master operations = .ok master' →
      master'.Consistent := by
  intro h
  have hconsistent := h peakMaster [deletion ["scheduler", "modes"]] _ peakMaster_sound rfl
  obtain ⟨m, hm, -⟩ := hconsistent.named "site" _ rfl peakEvent
    (Schedule.mem_aggregateAllEvents.mpr (.inr (.inl List.mem_cons_self)))
  cases hm

/-- Deleting the other mode deletes its event, and a check finds nothing to do. -/
theorem run_consistent_deletion :
    CheckedRun.Guarded step (fun master _ => master.Consistent) peakMaster
        [deletion ["scheduler", "modes", "peak"], .schedule "site" ⟨Process.quietDay 0, 9, .check⟩] ∧
      ∀ master', CheckedRun.run step peakMaster [deletion ["scheduler", "modes", "peak"],
          .schedule "site" ⟨Process.quietDay 0, 9, .check⟩] = .ok master' → master'.Consistent := by
  refine run_consistent peakMaster_sound _ (CheckedRun.guarded_cons ?_ rfl
    (CheckedRun.guarded_cons ?_ rfl trivial))
  · intro granted hgranted
    cases hgranted
    refine ⟨by decide, fun id sched hsched => ?_⟩
    simp only [peakMaster] at hsched
    split_ifs at hsched
    cases hsched
    constructor
    · intro e he
      contradiction
    · intro e he e' he' _ hmode
      rw [List.mem_singleton.mp he']
      rfl
  · intro schedule hschedule
    cases hschedule
    intro _ series rest hhead
    cases hhead

end Master

end HybridOs.Scheduler
