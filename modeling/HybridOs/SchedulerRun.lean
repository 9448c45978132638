import HybridOs.CheckedRun
import HybridOs.SchedulerEdit

/-!
# Runs of a schedule

A schedule is checked, pruned and edited. Whatever a request looks like, it is refused, or it
empties the schedule, or it stands for one of a few edits, which prepare a list of events and
a cache of identifiers and overwrite the schedule with them.
-/

namespace HybridOs.Scheduler

namespace Process

/-! ## The edits behind requests -/

/-- The edits of a schedule. -/
inductive Edit where
  /-- Replace all events. -/
  | set (inputs : EventList)
  /-- Add events. -/
  | post (inputs : EventList)
  /-- Add events, or change those with the same starts. -/
  | patch (inputs : EventList)
  /-- Delete the events with some identifiers. -/
  | delete (ids : List Id)
  /-- Change the event with an identifier. -/
  | write (id : Id) (updated : Event)
  /-- Delete one event. -/
  | deleteOne (id : Id)
  /-- Take over the list of the counterpart. -/
  | sync (inputs : EventList)

/-- The list and the cache that an edit overwrites the schedule with, and the random numbers
that are left. -/
def Edit.prepare (sched : Schedule) : Edit → Option (EventList × IdCache × RandomSrc)
  | .set inputs =>
    match generateIds inputs ∅ sched.randomSrc with
    | (some (tagged, cache), src) => some (tagged, cache, src)
    | (none, _) => none
  | .post inputs =>
    match generateIds inputs sched.cache sched.randomSrc with
    | (some (tagged, cache), src) =>
      some (sched.aggregateAllEvents.addList tagged, cache, src)
    | (none, _) => none
  | .patch inputs =>
    match patchEvents inputs sched.aggregateAllEvents sched.cache sched.randomSrc with
    | (some (patched, cache), src) => some (patched, cache, src)
    | (none, _) => none
  | .delete ids =>
    some (ids.foldl EventList.deleteEventWithId sched.aggregateAllEvents,
      ids.foldl Finset.erase sched.cache, sched.randomSrc)
  | .write id updated =>
    some (sched.aggregateAllEvents.modifyFirst (·.id = id) fun _ => updated, sched.cache,
      sched.randomSrc)
  | .deleteOne id =>
    some (sched.aggregateAllEvents.deleteEventWithId id, sched.cache.erase id, sched.randomSrc)
  | .sync inputs => some (inputs, inputs.buildIdCache, sched.randomSrc)

/-- The edit comes from the counterpart of a site. -/
def Edit.fromCounterpart : Edit → Bool
  | .sync _ => true
  | _ => false

/-- A message with a method. -/
def request (method : Method) (msg : FimsMsg) : EditRequest :=
  match method with
  | .set => .fimsSet msg
  | .post => .fimsPost msg
  | .del => .fimsDel msg

/-- The part of the body of a SET that is for the schedule. -/
def inputOf (proc : Process) (msg : FimsMsg) : Option Body :=
  if msg.frags.length < 3 then msg.inputScheduleMap.bind (· proc.schedule.id) else some msg.body

/-- A request stands for an edit. -/
inductive Asks (ctx : Context) (fuel : ℕ) (proc : Process) : EditRequest → Edit → Prop
  | fullScheduleSet (inputs : EventList) : Asks ctx fuel proc (.fullScheduleSet inputs) (.set inputs)
  | fimsSet {msg : FimsMsg} {body : Body} {inputs : EventList} (short : msg.frags.length < 4)
    (input : proc.inputOf msg = some body)
    (parsed : parseEventList ctx fuel proc.schedule.timezone body = some (.ok inputs)) :
    Asks ctx fuel proc (.fimsSet msg) (.set inputs)
  | fullSchedulePost (inputs : EventList) :
    Asks ctx fuel proc (.fullSchedulePost inputs) (.post inputs)
  | fimsPost {msg : FimsMsg} {input : EventInput} {e : Event} (event : msg.body.event = some input)
    (valid : validateInput proc.schedule.timezone ctx.mapOfVariables (some input) = .ok e) :
    Asks ctx fuel proc (.fimsPost msg) (.post [e])
  | fullSchedulePatch (inputs : EventList) :
    Asks ctx fuel proc (.fullSchedulePatch inputs) (.patch inputs)
  | deleteMultipleEvents (ids : List Id) :
    Asks ctx fuel proc (.deleteMultipleEvents (some ids)) (.delete ids)
  | write {method : Method} {msg : FimsMsg} {id : Id} {target updated : Event}
    (found : proc.schedule.aggregateAllEvents.getEventWithId id = some target)
    (edited : editEvent ctx method msg proc target = .ok (some updated)) :
    Asks ctx fuel proc (request method msg) (.write id updated)
  | deleteOne {msg : FimsMsg} {id : Id} {target : Event}
    (found : proc.schedule.aggregateAllEvents.getEventWithId id = some target) :
    Asks ctx fuel proc (.fimsDel msg) (.deleteOne id)
  | webSocketEventsSet {input : Body} {inputs : EventList}
    (parsed : parseEventList ctx fuel proc.schedule.timezone input = some (.ok inputs)) :
    Asks ctx fuel proc (.webSocketEventsSet input) (.sync inputs)

/-- The process in which an edit has prepared a cache. Only the deletion of one event has
changed the cache that is in use. -/
def prepared (proc : Process) (edit : Edit) (src : RandomSrc) : Process :=
  { proc with
    schedule := { proc.schedule with
      cache := match edit with
        | .deleteOne id => proc.schedule.cache.erase id
        | _ => proc.schedule.cache
      randomSrc := src } }

/-- What a request does. -/
inductive Handled (ctx : Context) (fuel : ℕ) (proc : Process) (request : EditRequest) :
    Process → Prop
  /-- The request is refused or ignored. -/
  | unchanged (src : RandomSrc) : Handled ctx fuel proc request (proc.withRandomSrc src)
  /-- The schedule is emptied. -/
  | cleared : Handled ctx fuel proc request
      (sendUpdatesAfterMasterScheduleEdit ctx true { proc with schedule := proc.schedule.clear })
  /-- An edit overwrites the schedule, or fails to. -/
  | edited {edit : Edit} {inputs : EventList} {cache : IdCache} {src : RandomSrc}
    {proc' : Process} {result : Return (Except EditError Unit)} (asks : Asks ctx fuel proc request edit)
    (prepare : edit.prepare proc.schedule = some (inputs, cache, src))
    (overwrites : (proc.prepared edit src).overwrite ctx fuel inputs cache
      (!edit.fromCounterpart) = some (proc', result)) :
    Handled ctx fuel proc request proc'

/-- A result under other errors is of the same edit. -/
theorem of_mapError {ε : Type} {f : ε → RequestError} {result : Result ε} {proc : Process}
    {returned : Return (Except RequestError Unit)}
    (h : mapError f result = some (proc, returned)) : ∃ returned', result = some (proc, returned') := by
  rw [mapError.eq_def] at h
  split at h
  · cases h
  all_goals
    cases h
    exact ⟨_, rfl⟩

/-- An answer is of the same edit. -/
theorem of_answered {result : Result EditError} {proc : Process}
    {returned : Return (Except ErrorResponse Unit)}
    (h : answered result = some (proc, returned)) : ∃ returned', result = some (proc, returned') := by
  rw [answered.eq_def] at h
  split at h
  · cases h
  all_goals
    cases h
    exact ⟨_, rfl⟩

section

variable {ctx : Context} {fuel : ℕ} {proc proc' : Process} {request : EditRequest}

/-- A request that leaves the process as it is has done nothing. -/
theorem Handled.same : Handled ctx fuel proc request proc := .unchanged proc.schedule.randomSrc

/-- A request whose result is the old process has done nothing. -/
theorem Handled.of_same {ε : Type} {returned returned' : Return (Except ε Unit)}
    (h : some (proc, returned) = some (proc', returned')) : Handled ctx fuel proc request proc' := by
  cases h
  exact Handled.same

variable {inputs : EventList} {returned : Return (Except EditError Unit)} {msg : FimsMsg}

theorem handled_set (asks : Asks ctx fuel proc request (.set inputs))
    (h : proc.handleFullScheduleSet ctx fuel inputs = some (proc', returned)) :
    Handled ctx fuel proc request proc' := by
  rw [handleFullScheduleSet] at h
  split at h
  next src _ =>
    cases h
    exact .unchanged src
  next tagged cache src hids =>
    exact .edited asks (by rw [Edit.prepare, hids]) h

theorem handled_post (asks : Asks ctx fuel proc request (.post inputs))
    (h : proc.handleFullSchedulePost ctx fuel inputs = some (proc', returned)) :
    Handled ctx fuel proc request proc' := by
  rw [handleFullSchedulePost] at h
  split at h
  next src _ =>
    cases h
    exact .unchanged src
  next tagged cache src hids =>
    exact .edited asks (by rw [Edit.prepare, hids]) h

theorem handled_patch (asks : Asks ctx fuel proc request (.patch inputs))
    (h : proc.handleFullSchedulePatch ctx fuel inputs = some (proc', returned)) :
    Handled ctx fuel proc request proc' := by
  rw [handleFullSchedulePatch] at h
  split at h
  · cases h
  · exact Handled.of_same h
  · split at h
    next src _ =>
      cases h
      exact .unchanged src
    next patched cache src hids =>
      exact .edited asks (by rw [Edit.prepare, hids]) h

theorem handled_fimsSet {returned : Return (Except ErrorResponse Unit)}
    (short : msg.frags.length < 4)
    (h : proc.handleFimsSetToSchedule ctx fuel msg = some (proc', returned)) :
    Handled ctx fuel proc (.fimsSet msg) proc' := by
  rw [handleFimsSetToSchedule] at h
  split at h
  · exact Handled.of_same h
  · exact Handled.of_same h
  next body hbody =>
    have hinput : proc.inputOf msg = some body := by
      rw [inputOf]
      split_ifs at hbody ⊢
      · split at hbody
        · cases hbody
        next hmap =>
          rw [hmap]
          exact Except.ok.inj hbody
      · exact Except.ok.inj hbody
    split at h
    · cases h
    · exact Handled.of_same h
    next inputs hparse =>
      obtain ⟨_, hset⟩ := of_answered h
      exact handled_set (.fimsSet short hinput hparse) hset

theorem handled_fimsPost {returned : Return (Except ErrorResponse Unit)}
    (h : proc.handleFimsPostToSchedule ctx fuel msg = some (proc', returned)) :
    Handled ctx fuel proc (.fimsPost msg) proc' := by
  rw [handleFimsPostToSchedule] at h
  split_ifs at h
  · exact Handled.of_same h
  · split at h
    · exact Handled.of_same h
    next input hevent =>
      split at h
      · exact Handled.of_same h
      next e hvalid =>
        split_ifs at h
        · exact Handled.of_same h
        · obtain ⟨_, hpost⟩ := of_answered h
          exact handled_post (.fimsPost hevent hvalid) hpost

theorem handled_write {method : Method} {returned : Return (Except ErrorResponse Unit)}
    (h : proc.handleFimsWriteToEvent ctx fuel method msg = some (proc', returned)) :
    Handled ctx fuel proc (Process.request method msg) proc' := by
  rw [handleFimsWriteToEvent] at h
  split at h
  · exact Handled.of_same h
  next id _ =>
    split at h
    · exact Handled.of_same h
    next target hfound =>
      split_ifs at h
      · exact Handled.of_same h
      · split at h
        · exact Handled.of_same h
        next hedit =>
          obtain ⟨rfl, -⟩ := editEvent_eq_none_iff.mp hedit
          obtain ⟨_, hdelete⟩ := of_answered h
          have hid : target.id = id := by simpa using List.find?_some hfound
          rw [hid] at hdelete
          exact .edited (.deleteOne hfound) rfl hdelete
        next updated hedit =>
          obtain ⟨_, hwrite⟩ := of_answered h
          exact .edited (.write hfound hedit) rfl hwrite

/-- What a request does when it is handled. -/
theorem handle_handled {returned : Return (Except RequestError Unit)}
    (h : proc.handle ctx fuel request = some (proc', returned)) :
    Handled ctx fuel proc request proc' := by
  cases request with
  | fimsSet msg =>
    obtain ⟨_, h⟩ := of_mapError h
    rw [handleFimsSet] at h
    split_ifs at h with hshort
    · exact handled_fimsSet hshort h
    · exact handled_write h
  | fimsPost msg =>
    obtain ⟨_, h⟩ := of_mapError h
    rw [handleFimsPost] at h
    split_ifs at h
    · exact Handled.of_same h
    · exact handled_fimsPost h
    · exact handled_write h
  | fimsDel msg =>
    obtain ⟨_, h⟩ := of_mapError h
    rw [handleFimsDel] at h
    split_ifs at h
    · exact Handled.of_same h
    · cases h
      exact .cleared
    · exact handled_write h
  | fullScheduleSet inputs =>
    obtain ⟨_, h⟩ := of_mapError h
    exact handled_set (.fullScheduleSet inputs) h
  | fullSchedulePost inputs =>
    obtain ⟨_, h⟩ := of_mapError h
    exact handled_post (.fullSchedulePost inputs) h
  | fullSchedulePatch inputs =>
    obtain ⟨_, h⟩ := of_mapError h
    exact handled_patch (.fullSchedulePatch inputs) h
  | deleteMultipleEvents ids =>
    obtain ⟨_, h⟩ := of_mapError h
    cases ids with
    | none => exact Handled.of_same h
    | some ids => exact .edited (.deleteMultipleEvents ids) rfl h
  | webSocketEventsSet input =>
    obtain ⟨_, h⟩ := of_mapError h
    rw [handleWebSocketEventsSet] at h
    split at h
    · cases h
    · exact Handled.of_same h
    next inputs hparse =>
      obtain ⟨_, h⟩ := of_answered h
      exact .edited (.webSocketEventsSet hparse) rfl h

end

/-- What an overwrite does: it fails before all changes, or it leaves what organizing the
validated list from the emptied schedule gives. -/
theorem overwrite_cases {ctx : Context} {fuel : ℕ} {inputs : EventList} {cache : IdCache}
    {external : Bool} {proc proc' : Process} {returned : Return (Except EditError Unit)}
    (h : proc.overwrite ctx fuel inputs cache external = some (proc', returned)) :
    (proc' = proc ∧ ∃ err, inputs.validate fuel proc.schedule.timezone ctx.mapOfVariables =
      some (.error err)) ∨ ∃ valid schedule result,
      inputs.validate fuel proc.schedule.timezone ctx.mapOfVariables = some (.ok valid) ∧
      (proc.wiped cache).integrateEventList ctx fuel valid false = some (schedule, result) ∧
      proc'.schedule = if result = .done false then { schedule with activeEvent := none }
        else schedule := by
  rw [overwrite] at h
  split at h
  · cases h
  next err hvalid =>
    cases h
    exact .inl ⟨rfl, err, hvalid⟩
  next valid hvalid =>
    split at h
    · cases h
    next schedule hintegrate =>
      cases h
      exact .inr ⟨valid, schedule, _, hvalid, hintegrate, by simp⟩
    next schedule included hintegrate =>
      cases h
      refine .inr ⟨valid, schedule, _, hvalid, hintegrate, ?_⟩
      rw [sendUpdatesAfterMasterScheduleEdit]
      cases included <;> split_ifs <;> simp_all

/-! ## Runs -/

/-- What happens to a schedule. -/
inductive Operation where
  | check
  | prune
  | edit (request : EditRequest)

/-- An operation in its context, and a number of steps for its searches. -/
structure Input where
  ctx : Context
  fuel : ℕ
  operation : Operation

/-- One operation. It gives nothing where it does not come to an end. -/
def step (proc : Process) (input : Input) : Except Unit Process :=
  match input.operation with
  | .check =>
    match Schedule.check input.ctx.now input.fuel proc.schedule with
    | none => .error ()
    | some (schedule, _) => .ok { proc with schedule }
  | .prune =>
    .ok { proc with schedule := (proc.schedule.pruneOldEventsAndExceptions input.ctx.now).1 }
  | .edit request =>
    match proc.handle input.ctx input.fuel request with
    | none => .error ()
    | some (proc, _) => .ok proc

/-- `newSchedule`, in a process. -/
def newSchedule (id : String) (timezone : Option Location) (randomSrc : RandomSrc)
    (lastScheduleModification : ℤ) : Process where
  schedule :=
    { id, timezone, randomSrc, scheduledEvents := [], expiredEvents := [], activeEvent := none
      cache := ∅ }
  lastScheduleModification := lastScheduleModification

end Process

/-!
## Modes

Every event names a mode and gives a value to each of the mode's variables. Requests replace
the map of modes, add and delete modes, and edit their settings. An edit of a mode's variables
is carried over to the events of all schedules: they lose a variable with the mode, and are
deleted when the mode gains one or one changes its type.
-/

/-- `mode`. -/
structure Mode where
  /-- The setpoints for which every event gives a value. -/
  modeVariables : SetpointList
  /-- The setpoints whose value all events of the mode share. -/
  modeConstants : SetpointList
  colorCode : String
  icon : String
  name : String

/-- `modeMap`. -/
abbrev ModeMap := AList fun _ : String => Mode

/-- `scheduleMap`. -/
abbrev ScheduleMap := String → Option Schedule

/-- `defaultModeId`. -/
def defaultModeId : String := "default"

/-- The answers to requests for modes that fail. -/
inductive ModeError where
  | invalidUri | fleetConnected | invalidData | resourceNotFound | invalidJson
  | modeAlreadyExists | setpointAlreadyExists
  deriving DecidableEq, Repr

/-- The text of an answer. -/
def ModeError.text : ModeError → String
  | .invalidUri => "Invalid URI"
  | .fleetConnected => "Cannot Edit Modes As Fleet-Connected Site Controller"
  | .invalidData => "Invalid Data"
  | .resourceNotFound => "Resource Not Found"
  | .invalidJson => "Invalid JSON"
  | .modeAlreadyExists => "Mode Already Exists"
  | .setpointAlreadyExists => "Setpoint Already Exists"

/-- The body of a request for modes, by what decoding it gives where it succeeds. -/
structure ModeBody where
  /-- The body can be encoded again. -/
  marshals : Bool
  /-- A map of pointers to modes. The map itself may be nil. -/
  modeMap : Option (Option (AList fun _ : String => Option Mode))
  mode : Option Mode
  setpoint : Option Setpoint
  setpointList : Option SetpointList
  /-- A text, over the one that is there. -/
  text : String → Option String
  value : Option GoValue

/-- A message for modes. -/
structure ModeMsg where
  /-- The fragments of the address. -/
  frags : List String
  body : ModeBody

/-- What the requests for modes read of the process. -/
structure ModeContext where
  /-- `flextime.Now`. -/
  now : ℤ
  /-- A site controller that serves a fleet manager. -/
  fleetConnected : Bool
  /-- `strings.ToLower`. -/
  toLower : String → String

/-- The identifier made of a name, of a mode or of a setpoint. -/
def idOfName (toLower : String → String) (name : String) : String :=
  (toLower name).map fun c => if c = ' ' ∨ c = '/' then '_' else c

/-! ## What requests ask for -/

/-- The edits of modes. -/
inductive ModeEdit where
  /-- `modeMap.overwrite`. -/
  | overwriteMap (newModes : ModeMap)
  /-- Add a mode under a new identifier. -/
  | addMode (modeId : String) (newMode : Mode)
  /-- `deleteAllModesExceptDefault`. -/
  | deleteAllModesExceptDefault
  /-- `deleteMode`. -/
  | deleteMode (modeId : String)
  /-- `mode.overwrite`. -/
  | overwrite (modeId : String) (newSettings : Mode)
  /-- `overwriteVariablesList`. -/
  | overwriteVariablesList (modeId : String) (newVariables : SetpointList)
  /-- Change fields of a mode other than its variables. -/
  | assign (modeId : String) (newSettings : Mode)

/-- An edit that a request asks for, and whether it counts as a modification of the schedules,
in `sendUpdatesAfterMasterScheduleEdit`. -/
structure Granted where
  edit : ModeEdit
  externalEditor : Bool

/-- The check of a value whose error is answered in one way. -/
def orError {α ε : Type} (err : ModeError) : Except ε α → Except ModeError α
  | .ok a => .ok a
  | .error _ => .error err

/-- What decoding gives, or the answer where it fails. -/
def decoded {α : Type} (err : ModeError) : Option α → Except ModeError α
  | some a => .ok a
  | none => .error err

namespace Mode

/-- `mode.validate`. -/
def validate (m : Mode) : Except ModeError Unit :=
  if m.name = "" ∨ m.colorCode = "" ∨ m.icon = "" then .error .invalidData
  else do
    orError .invalidData (SetpointList.validate m.modeVariables)
    orError .invalidData (SetpointList.validate m.modeConstants)

/-- The edit of one field of a setpoint. -/
def editSetpoint (sp : Setpoint) (endpoint : String) (body : ModeBody) :
    Except ModeError Setpoint :=
  match endpoint with
  | "name" => (decoded .invalidData (body.text sp.name)).map fun name => { sp with name }
  | "unit" => (decoded .invalidData (body.text sp.unit)).map fun unit => { sp with unit }
  | "uri" => (decoded .invalidData (body.text sp.uri)).map fun uri => { sp with uri }
  | "value" => (decoded .invalidData body.value).map fun value => { sp with value }
  | _ => .error .invalidUri

/-- The list of setpoints that a SET to a list, to one of its setpoints or to a field of one
gives. -/
def setSetpoints (list : SetpointList) (frags : List String) (body : ModeBody) :
    Except ModeError SetpointList :=
  match frags[4]? with
  | none => do
    let newList ← decoded .invalidData body.setpointList
    orError .invalidData newList.validate
    return newList
  | some targetId =>
    match list.findIdx? (targetId = ·.id) with
    | none => .error .resourceNotFound
    | some targetIndex =>
      match list[targetIndex]? with
      | none => .error .resourceNotFound
      | some target => do
        let newSettings ← match frags[5]? with
          | none => (decoded .invalidData body.setpoint).map fun sp => { sp with id := target.id }
          | some endpoint => editSetpoint target endpoint body
        let newSettings ← orError .invalidData newSettings.validate
        return list.set targetIndex newSettings

/-- `mode.handleSet`. -/
def handleSet (m : Mode) (msg : ModeMsg) (modeId : String) : Except ModeError Granted := do
  if msg.frags.length < 3 then throw .invalidUri
  if !msg.body.marshals then throw .invalidJson
  match msg.frags[3]? with
  | none =>
    let newModeSettings ← decoded .invalidData msg.body.mode
    newModeSettings.validate
    return ⟨.overwrite modeId newModeSettings, true⟩
  | some "name" =>
    let name ← decoded .invalidData (msg.body.text m.name)
    return ⟨.assign modeId { m with name }, true⟩
  | some "color_code" =>
    let colorCode ← decoded .invalidData (msg.body.text m.colorCode)
    return ⟨.assign modeId { m with colorCode }, true⟩
  | some "icon" =>
    let icon ← decoded .invalidData (msg.body.text m.icon)
    return ⟨.assign modeId { m with icon }, true⟩
  | some "constants" =>
    let modeConstants ← setSetpoints m.modeConstants msg.frags msg.body
    return ⟨.assign modeId { m with modeConstants }, false⟩
  | some "variables" =>
    let newVariables ← setSetpoints m.modeVariables msg.frags msg.body
    return ⟨.overwriteVariablesList modeId newVariables, false⟩
  | some _ => throw .invalidUri

/-- `mode.handlePost`. -/
def handlePost (ctx : ModeContext) (m : Mode) (msg : ModeMsg) (modeId : String) :
    Except ModeError Granted := do
  if msg.frags.length < 4 then throw .invalidUri
  if !msg.body.marshals then throw .invalidJson
  let newSetpoint ← decoded .invalidData msg.body.setpoint
  let newSetpoint ← orError .invalidData
    { newSetpoint with id := idOfName ctx.toLower newSetpoint.name }.validate
  match msg.frags[3]? with
  | some "variables" =>
    let newVariables ← orError .setpointAlreadyExists (m.modeVariables.append newSetpoint)
    return ⟨.overwriteVariablesList modeId newVariables, true⟩
  | some "constants" =>
    let modeConstants ← orError .setpointAlreadyExists (m.modeConstants.append newSetpoint)
    return ⟨.assign modeId { m with modeConstants }, true⟩
  | _ => throw .invalidUri

/-- The list that a DEL to a list of setpoints or to one of its setpoints leaves. -/
def deleteSetpoints (list : SetpointList) (frags : List String) : SetpointList :=
  match frags[4]? with
  | none => []
  | some targetId => list.delete targetId

/-- `mode.handleDel`. -/
def handleDel (m : Mode) (msg : ModeMsg) (modeId : String) : Except ModeError Granted := do
  if msg.frags.length < 4 then throw .invalidUri
  match msg.frags[3]? with
  | some "variables" =>
    return ⟨.overwriteVariablesList modeId (deleteSetpoints m.modeVariables msg.frags), true⟩
  | some "constants" =>
    let modeConstants := deleteSetpoints m.modeConstants msg.frags
    return ⟨.assign modeId { m with modeConstants }, true⟩
  | _ => throw .invalidUri

end Mode

namespace ModeMap

/-- `buildMapOfVariables`. -/
def buildMapOfVariables (mm : ModeMap) (modeId : String) : Option SetpointList :=
  (mm.lookup modeId).map (·.modeVariables)

/-- The modes behind the pointers of a decoded map, without identifiers that are empty. -/
def derefAll : List (Sigma fun _ : String => Option Mode) → ModeMap → Except ModeError ModeMap
  | [], mm => .ok mm
  | ⟨_, none⟩ :: _, _ => .error .invalidData
  | ⟨modeId, some m⟩ :: rest, mm =>
    if modeId = "" then .error .invalidData
    else do
      m.validate
      derefAll rest (mm.insert modeId m)

/-- `modeMap.validate`, of a decoded map, with the modes behind its pointers. -/
def validateInput : Option (AList fun _ : String => Option Mode) → Except ModeError ModeMap
  | none => .error .invalidData
  | some newMap =>
    if defaultModeId ∈ newMap then derefAll newMap.entries ∅ else .error .invalidData

/-- `handleMapSet`. -/
def handleMapSet (body : ModeBody) (externalEditor : Bool) : Except ModeError Granted := do
  if !body.marshals then throw .invalidData
  let newMap ← decoded .invalidData body.modeMap
  let newModes ← validateInput newMap
  return ⟨.overwriteMap newModes, externalEditor⟩

/-- `handleNewModePost`. -/
def handleNewModePost (ctx : ModeContext) (mm : ModeMap) (body : ModeBody) :
    Except ModeError Granted := do
  if !body.marshals then throw .invalidJson
  let newMode ← decoded .invalidData body.mode
  newMode.validate
  let newModeId := idOfName ctx.toLower newMode.name
  if newModeId ∈ mm then throw .modeAlreadyExists
  return ⟨.addMode newModeId newMode, true⟩

/-- `modeMap.handleSet`. -/
def handleSet (ctx : ModeContext) (mm : ModeMap) (msg : ModeMsg) : Except ModeError Granted := do
  if msg.frags.length < 2 then throw .invalidUri
  if ctx.fleetConnected then throw .fleetConnected
  match msg.frags[2]? with
  | none => handleMapSet msg.body true
  | some targetModeId =>
    let targetMode ← decoded .resourceNotFound (mm.lookup targetModeId)
    targetMode.handleSet msg targetModeId

/-- `modeMap.handlePost`. -/
def handlePost (ctx : ModeContext) (mm : ModeMap) (msg : ModeMsg) :
    Except ModeError Granted := do
  if msg.frags.length < 2 then throw .invalidUri
  if ctx.fleetConnected then throw .fleetConnected
  match msg.frags[2]? with
  | none => handleNewModePost ctx mm msg.body
  | some targetModeId =>
    let targetMode ← decoded .resourceNotFound (mm.lookup targetModeId)
    targetMode.handlePost ctx msg targetModeId

/-- `modeMap.handleDel`. -/
def handleDel (ctx : ModeContext) (mm : ModeMap) (msg : ModeMsg) : Except ModeError Granted := do
  if msg.frags.length < 2 then throw .invalidUri
  if ctx.fleetConnected then throw .fleetConnected
  match msg.frags[2]? with
  | none => return ⟨.deleteAllModesExceptDefault, true⟩
  | some targetModeId =>
    if msg.frags.length = 3 then return ⟨.deleteMode targetModeId, true⟩
    let targetMode ← decoded .resourceNotFound (mm.lookup targetModeId)
    targetMode.handleDel msg targetModeId

end ModeMap

/-- Requests for modes. -/
inductive ModeRequest where
  | fimsSet (msg : ModeMsg)
  | fimsPost (msg : ModeMsg)
  | fimsDel (msg : ModeMsg)
  /-- The modes of the fleet manager. -/
  | webSocketSet (body : ModeBody)

/-- What a request for modes asks for, or the answer where it fails. -/
def ModeRequest.granted (ctx : ModeContext) (mm : ModeMap) : ModeRequest → Except ModeError Granted
  | .fimsSet msg => mm.handleSet ctx msg
  | .fimsPost msg => mm.handlePost ctx msg
  | .fimsDel msg => mm.handleDel ctx msg
  | .webSocketSet body => ModeMap.handleMapSet body false

/-! ## What edits do -/

namespace ScheduleMap

/-- `deleteEventsWithMode`. -/
def deleteEventsWithMode (schedules : ScheduleMap) (modeBeingDeleted : String) : ScheduleMap :=
  fun id => (schedules id).map (·.deleteEventsWithMode modeBeingDeleted)

/-- `deleteVarOfMode`: the variable is deleted from the scheduled events only. -/
def deleteVarOfMode (schedules : ScheduleMap) (varId changedMode : String) : ScheduleMap :=
  fun id => (schedules id).map fun sched =>
    { sched with scheduledEvents := sched.scheduledEvents.deleteVarOfMode varId changedMode }

/-- The loop of `updateEventsBasedOnVariableListEdit` over the old variables. -/
def updateEventsOfVariables (newVariables : SetpointList) (modeId : String) :
    SetpointList → ScheduleMap → ScheduleMap
  | [], schedules => schedules
  | oldVar :: rest, schedules =>
    match newVariables.find oldVar.id with
    | none => updateEventsOfVariables newVariables modeId rest
        (schedules.deleteVarOfMode oldVar.id modeId)
    | some newVar =>
      if oldVar.varType ≠ newVar.varType then schedules.deleteEventsWithMode modeId
      else updateEventsOfVariables newVariables modeId rest schedules

/-- `updateEventsBasedOnVariableListEdit`. -/
def updateEventsBasedOnVariableListEdit (schedules : ScheduleMap)
    (oldVariables newVariables : SetpointList) (modeId : String) : ScheduleMap :=
  if oldVariables.isMissingSetpointsThatAreIn newVariables then
    schedules.deleteEventsWithMode modeId
  else updateEventsOfVariables newVariables modeId oldVariables schedules

end ScheduleMap

/-- The modes and all schedules. -/
structure Master where
  /-- `modes`. -/
  modes : ModeMap
  /-- `masterSchedule`. -/
  schedules : ScheduleMap
  /-- `lastScheduleModification`. -/
  lastScheduleModification : ℤ

namespace Master

/-- `modeMap.deleteMode`. -/
def deleteMode (master : Master) (modeId : String) : Master :=
  { master with
    schedules := master.schedules.deleteEventsWithMode modeId
    modes := master.modes.erase modeId }

/-- `mode.overwrite`, of the mode of an identifier. -/
def overwriteMode (master : Master) (modeId : String) (newSettings : Mode) : Master :=
  match master.modes.lookup modeId with
  | none => master
  | some m =>
    { master with
      schedules := master.schedules.updateEventsBasedOnVariableListEdit m.modeVariables
        newSettings.modeVariables modeId
      modes := master.modes.insert modeId newSettings }

/-- One mode of `modeMap.overwrite`: it is deleted, or takes its new settings. -/
def replaceMode (newModes : ModeMap) (master : Master) (modeId : String) : Master :=
  match newModes.lookup modeId with
  | none => master.deleteMode modeId
  | some newModeSettings => master.overwriteMode modeId newModeSettings

/-- `modeMap.overwrite`. -/
def overwriteMap (master : Master) (newModes : ModeMap) : Master :=
  let replaced := master.modes.keys.foldl (replaceMode newModes) master
  { replaced with
    modes := newModes.entries.foldl (fun mm entry => mm.insert entry.1 entry.2) replaced.modes }

/-- `deleteAllModesExceptDefault`. -/
def deleteAllModesExceptDefault (master : Master) : Master :=
  { master with
    modes := master.modes.keys.foldl
      (fun mm modeId => if modeId ≠ defaultModeId then mm.erase modeId else mm) master.modes }

/-- Carry out an edit of the modes. -/
def applyModeEdit (master : Master) : ModeEdit → Master
  | .overwriteMap newModes => master.overwriteMap newModes
  | .addMode modeId newMode => { master with modes := master.modes.insert modeId newMode }
  | .deleteAllModesExceptDefault => master.deleteAllModesExceptDefault
  | .deleteMode modeId => master.deleteMode modeId
  | .overwrite modeId newSettings => master.overwriteMode modeId newSettings
  | .overwriteVariablesList modeId newVariables =>
    match master.modes.lookup modeId with
    | none => master
    | some m => master.overwriteMode modeId { m with modeVariables := newVariables }
  | .assign modeId newSettings => { master with modes := master.modes.insert modeId newSettings }

/-- Handle a request for modes. -/
def handleModes (ctx : ModeContext) (master : Master) (request : ModeRequest) :
    Master × Except ModeError Unit :=
  match request.granted ctx master.modes with
  | .error err => (master, .error err)
  | .ok granted =>
    let edited := master.applyModeEdit granted.edit
    if granted.externalEditor then ({ edited with lastScheduleModification := ctx.now }, .ok ())
    else (edited, .ok ())

/-! ## Runs -/

/-- An operation on one schedule, or a request for modes. -/
inductive Operation where
  | schedule (id : String) (input : Process.Input)
  | modes (ctx : ModeContext) (request : ModeRequest)

/-- The input of an operation on a schedule, which reads the variables of the modes. -/
def scheduleInput (master : Master) (input : Process.Input) : Process.Input :=
  { input with ctx :=
    { input.ctx with mapOfVariables := master.modes.buildMapOfVariables } }

/-- One operation. It gives nothing where it does not come to an end. -/
def step (master : Master) : Operation → Except Unit Master
  | .schedule id input =>
    match master.schedules id with
    | none => .ok master
    | some schedule =>
      match Process.step ⟨schedule, master.lastScheduleModification⟩
          (master.scheduleInput input) with
      | .error () => .error ()
      | .ok proc => .ok { master with
          schedules := Function.update master.schedules id (some proc.schedule)
          lastScheduleModification := proc.lastScheduleModification }
  | .modes ctx request => .ok (master.handleModes ctx request).1

end Master

/-!
## Events that suit their modes

An event suits a map of modes when its mode is there, its variables are those of the mode and
their values are of the right types. An event that also has settings in order is accepted by
validation; shifting, splitting and tagging keep it so, unless a series comes to lie on its
own end time.
-/

/-! ## The variables of an event -/

/-- The validation of an event accepts the value for a variable of the type. -/
def acceptsValue (varType : VarType) (value : GoValue) : Bool :=
  match value, varType with
  | .map entries, _ =>
    match entries.lookup "value", entries.lookup "batch_value" with
    | some (.bool _), some (.slice _) => true
    | _, _ => false
  | .float64 _, .float => true
  | .bool _, .bool => true
  | .string _, .string => true
  | value, .int => value.castToInt.isSome
  | _, _ => false

/-- The variables of a mode have distinct identifiers and types that are known. -/
structure WellFormedVariables (modeVariables : SetpointList) : Prop where
  nodup : modeVariables.ids.Nodup
  known : ∀ v ∈ modeVariables, ∀ text, v.varType ≠ .other text

/-- The values are those of the variables, each of the right type. -/
structure Suits (modeVariables : SetpointList) (variableMap : VariableMap) : Prop where
  keys : ∀ id, id ∈ variableMap ↔ id ∈ modeVariables.ids
  values : ∀ v ∈ modeVariables, ∀ value, variableMap.lookup v.id = some value →
    acceptsValue v.varType value = true

/-- The entries of an event that suits a mode are as many as the variables of the mode. -/
theorem Suits.length_eq {modeVariables : SetpointList}
    {variableMap : VariableMap} (h : Suits modeVariables variableMap)
    (hwell : WellFormedVariables modeVariables) :
    modeVariables.length = variableMap.entries.length := by
  have hperm : variableMap.keys.Perm modeVariables.ids :=
    (List.perm_ext_iff_of_nodup variableMap.nodupKeys hwell.nodup).mpr h.keys
  have hlength := hperm.length_eq
  simp only [AList.keys, List.keys, SetpointList.ids, List.length_map] at hlength
  exact hlength.symm

namespace Event

variable {variableMap variableMap' : VariableMap} {modeVariables : SetpointList} {v : Setpoint}
  {mapOfVariables : String → Option SetpointList} {e : Event}

/-- What the validation of a variable of a known type leaves. -/
theorem validateVariable_ok (hknown : ∀ text, v.varType ≠ .other text)
    (h : validateVariable variableMap v = .ok variableMap') :
    (∃ value, variableMap'.lookup v.id = some value ∧ acceptsValue v.varType value = true) ∧
    ∀ id ≠ v.id, variableMap'.lookup id = variableMap.lookup id := by
  rw [validateVariable] at h
  split at h
  next entries hvalue =>
    split at h
    next hbool hslice =>
      cases h
      refine ⟨⟨.map entries, hvalue, ?_⟩, fun id _ => rfl⟩
      cases hv : v.varType <;> simp [acceptsValue, hbool, hslice]
    · cases h
    · cases h
  next hvalue htype =>
    cases h
    exact ⟨⟨_, hvalue, by rw [htype]; rfl⟩, fun id _ => rfl⟩
  next hvalue htype =>
    cases h
    exact ⟨⟨_, hvalue, by rw [htype]; rfl⟩, fun id _ => rfl⟩
  next hvalue htype =>
    cases h
    exact ⟨⟨_, hvalue, by rw [htype]; rfl⟩, fun id _ => rfl⟩
  next hvalue htype =>
    split at h
    · cases h
      refine ⟨⟨_, AList.lookup_insert _, by rw [htype]; rfl⟩, fun id hid => ?_⟩
      rw [AList.lookup_insert_ne hid]
    · cases h
  next hother _ => exact absurd hother (hknown _)
  · cases h

/-- A value that is accepted passes the validation of its variable. -/
theorem validateVariable_of_accepts {value : GoValue}
    (hvalue : variableMap.lookup v.id = some value)
    (haccepts : acceptsValue v.varType value = true) :
    ∃ variableMap', validateVariable variableMap v = .ok variableMap' := by
  rw [validateVariable, hvalue]
  cases value with
  | map entries =>
    cases hv : v.varType <;> rw [hv, acceptsValue] at haccepts <;>
    · split at haccepts
      next hbool hslice => exact ⟨variableMap, by simp [hbool, hslice]⟩
      · cases haccepts
  | float64 bits | int n | bool b | string s | nil | slice elems =>
    cases hv : v.varType <;> simp_all [acceptsValue, GoValue.castToInt]

/-- Validating variables keeps the values of other variables and the keys. -/
theorem foldlM_validateVariable_frame
    (hknown : ∀ v ∈ modeVariables, ∀ text, v.varType ≠ .other text)
    (h : modeVariables.foldlM validateVariable variableMap = .ok variableMap') :
    (∀ id, id ∉ modeVariables.ids → variableMap'.lookup id = variableMap.lookup id) ∧
    ∀ id, id ∈ variableMap' ↔ id ∈ variableMap := by
  induction modeVariables generalizing variableMap with
  | nil =>
    cases h
    exact ⟨fun _ _ => rfl, fun _ => Iff.rfl⟩
  | cons v rest ih =>
    rw [List.foldlM_cons] at h
    obtain ⟨mid, hmid, h⟩ := CheckedRun.of_bind_ok h
    obtain ⟨hlookups, hkeys⟩ := ih (fun w hw => hknown w (List.mem_cons_of_mem _ hw)) h
    obtain ⟨-, hframe⟩ := validateVariable_ok (hknown v List.mem_cons_self) hmid
    refine ⟨fun id hid => ?_, fun id => (hkeys id).trans (validateVariable_keys hmid id)⟩
    rw [SetpointList.ids, List.map_cons, List.mem_cons, not_or] at hid
    rw [hlookups id hid.2, hframe id hid.1]

/-- Every variable is validated by itself, and the others leave its value. -/
theorem foldlM_validateVariable_at (hwell : WellFormedVariables modeVariables)
    (h : modeVariables.foldlM validateVariable variableMap = .ok variableMap') :
    ∀ v ∈ modeVariables, ∃ before after, validateVariable before v = .ok after ∧
      variableMap'.lookup v.id = after.lookup v.id := by
  induction modeVariables generalizing variableMap with
  | nil => simp
  | cons v rest ih =>
    rw [List.foldlM_cons] at h
    obtain ⟨mid, hmid, hfold⟩ := CheckedRun.of_bind_ok h
    have hnodup := List.nodup_cons.mp hwell.nodup
    have hknown := fun w hw => hwell.known w (List.mem_cons_of_mem _ hw)
    intro w hw
    rcases List.mem_cons.mp hw with rfl | hrest
    · exact ⟨_, _, hmid, (foldlM_validateVariable_frame hknown hfold).1 _ hnodup.1⟩
    · exact ih ⟨hnodup.2, hknown⟩ hfold w hrest

/-- Validating variables leaves accepted values. -/
theorem foldlM_validateVariable_values (hwell : WellFormedVariables modeVariables)
    (h : modeVariables.foldlM validateVariable variableMap = .ok variableMap') :
    ∀ v ∈ modeVariables, ∃ value, variableMap'.lookup v.id = some value ∧
      acceptsValue v.varType value = true := by
  intro v hv
  obtain ⟨before, after, hafter, hlookup⟩ := foldlM_validateVariable_at hwell h v hv
  rw [hlookup]
  exact (validateVariable_ok (hwell.known v hv) hafter).1

/-- Accepted values pass the validation of their variables. -/
theorem foldlM_validateVariable_of_accepts (hwell : WellFormedVariables modeVariables)
    (h : ∀ v ∈ modeVariables, ∃ value, variableMap.lookup v.id = some value ∧
      acceptsValue v.varType value = true) :
    ∃ variableMap', modeVariables.foldlM validateVariable variableMap = .ok variableMap' := by
  induction modeVariables generalizing variableMap with
  | nil => exact ⟨variableMap, rfl⟩
  | cons v rest ih =>
    have hnodup := List.nodup_cons.mp hwell.nodup
    obtain ⟨value, hvalue, haccepts⟩ := h v List.mem_cons_self
    obtain ⟨mid, hmid⟩ := validateVariable_of_accepts hvalue haccepts
    obtain ⟨-, hframe⟩ := validateVariable_ok (hwell.known v List.mem_cons_self) hmid
    rw [List.foldlM_cons, hmid]
    refine ih ⟨hnodup.2, fun w hw => hwell.known w (List.mem_cons_of_mem _ hw)⟩ fun w hw => ?_
    have hne : w.id ≠ v.id := by
      intro heq
      have hmem : w.id ∈ SetpointList.ids rest := List.mem_map_of_mem hw
      rw [heq] at hmem
      exact hnodup.1 hmem
    rw [hframe w.id hne]
    exact h w (List.mem_cons_of_mem _ hw)

/-- Validated variables suit the mode. -/
theorem validateVariables_suits (hmode : mapOfVariables e.mode = some modeVariables)
    (hwell : WellFormedVariables modeVariables)
    (h : e.validateVariables mapOfVariables = .ok variableMap) :
    Suits modeVariables variableMap := by
  rw [validateVariables, hmode] at h
  dsimp only at h
  split_ifs at h with hlength
  have hvalues := foldlM_validateVariable_values hwell h
  obtain ⟨-, hkeys⟩ := foldlM_validateVariable_frame hwell.known h
  have hsub : modeVariables.ids ⊆ e.variableMap.keys := by
    intro id hid
    obtain ⟨v, hv, rfl⟩ := List.mem_map.mp hid
    obtain ⟨value, hvalue, -⟩ := hvalues v hv
    have hmem : v.id ∈ variableMap := by
      rw [← AList.lookup_isSome, hvalue]
      rfl
    exact (hkeys v.id).mp hmem
  have hperm : modeVariables.ids.Perm e.variableMap.keys := by
    refine (List.subperm_of_subset hwell.nodup hsub).perm_of_length_le ?_
    simp only [AList.keys, List.keys, SetpointList.ids, List.length_map]
    omega
  refine ⟨fun id => (hkeys id).trans hperm.mem_iff.symm, fun v hv value hvalue => ?_⟩
  obtain ⟨value', hvalue', haccepts⟩ := hvalues v hv
  rw [hvalue', Option.some.injEq] at hvalue
  exact hvalue ▸ haccepts

/-- Variables that suit the mode pass validation. -/
theorem validateVariables_of_suits (hmode : mapOfVariables e.mode = some modeVariables)
    (hwell : WellFormedVariables modeVariables) (h : Suits modeVariables e.variableMap) :
    ∃ variableMap, e.validateVariables mapOfVariables = .ok variableMap := by
  rw [validateVariables, hmode]
  dsimp only
  rw [if_neg (by simpa using h.length_eq hwell)]
  refine foldlM_validateVariable_of_accepts hwell fun v hv => ?_
  have hmem : v.id ∈ e.variableMap := (h.keys v.id).mpr (List.mem_map_of_mem hv)
  obtain ⟨value, hvalue⟩ := Option.isSome_iff_exists.mp (AList.lookup_isSome.mpr hmem)
  exact ⟨value, hvalue, h.values v hv value hvalue⟩

end Event

end HybridOs.Scheduler
