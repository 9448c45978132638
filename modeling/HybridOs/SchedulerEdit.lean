import HybridOs.SchedulerCore

/-!
# Edits of a schedule

Requests replace, extend, patch or thin out the events of a schedule, or change one event or
one of its fields. Every edit prepares a list of events in copies and overwrites the schedule
with it. The body of a request is what decoding it into each type gives, which may depend on
the value that is decoded over.
-/

namespace HybridOs.Scheduler

/-! ## Requests -/

/-- The body of a request, by what decoding it into a value gives where it succeeds. -/
structure Body where
  /-- The body can be encoded again, which comes before all decoding. -/
  marshals : Bool
  /-- A list of pointers to events. The list itself may be nil. -/
  eventList : Option (Option (List (Option EventInput)))
  event : Option EventInput
  time : Option Time
  /-- An unsigned integer, over the one that is there. -/
  uint : UInt64 → Option UInt64
  variableMap : VariableMap → Option VariableMap
  value : Option GoValue
  series : Series → Option Series
  cycle : Cycle → Option Cycle
  dayMask : UInt8 → Option UInt8
  endCount : ℤ → Option ℤ
  endTime : Time → Option Time
  exceptions : List Time → Option (List Time)

/-- The methods of a message. -/
inductive Method where
  | set | post | del
  deriving DecidableEq, Repr

/-- `fims.FimsMsg`. -/
structure FimsMsg where
  /-- The fragments of the address. -/
  frags : List String
  body : Body
  /-- The parts of the body by schedule, where the body is a map. -/
  inputScheduleMap : Option (String → Option Body)

/-- The answers to requests that fail. -/
inductive ErrorResponse where
  | invalidUri | resourceNotFound | invalidJson | invalidData | scheduleIsFull
  | overlappingEvents | eventStartsInPast
  deriving DecidableEq, Repr

/-- The text of an answer. -/
def ErrorResponse.text : ErrorResponse → String
  | .invalidUri => "Invalid URI"
  | .resourceNotFound => "Resource Not Found"
  | .invalidJson => "Invalid JSON"
  | .invalidData => "Invalid Data"
  | .scheduleIsFull => "Schedule Is Full"
  | .overlappingEvents => "Overlapping Events"
  | .eventStartsInPast => "Event Starts In Past"

/-- The errors of an edit of the whole schedule. -/
inductive EditError where
  /-- `idcache.ErrFullCache`. -/
  | fullCache
  | invalidList (err : EventList.ListError)
  | overlappingInput
  | nilArray
  deriving DecidableEq, Repr

/-- The answer to an edit of the whole schedule that failed. -/
def EditError.response : EditError → ErrorResponse
  | .fullCache => .scheduleIsFull
  | _ => .overlappingEvents

/-- `strconv.ParseUint`, in base ten. -/
def parseUint (text : String) (bits : ℕ) : Option ℕ :=
  (Setpoint.digitsValue text.toList).filter (· < 2 ^ bits)

/-- `idcache.ParseIdFromString`. -/
def parseIdFromString (text : String) : Option Id := (parseUint text 16).map UInt16.ofNat

/-! ## Edits of one event -/

namespace Series

/-- `Series.handleSet`. -/
def handleSet (ser : Series) (uriFrags : List String) (body : Body) :
    Except ErrorResponse Series :=
  match uriFrags[5]? with
  | none =>
    match body.series { newNonRepeatingSeries with endCount := 0 } with
    | some newSettings => .ok { newSettings with id := ser.id }
    | none => .error .invalidData
  | some endpoint =>
    let updated : Option Series :=
      match endpoint with
      | "cycle" => (body.cycle ser.cycle).map fun cycle => { ser with cycle }
      | "day_mask" => (body.dayMask ser.dayMask).map fun dayMask => { ser with dayMask }
      | "end_count" => (body.endCount ser.endCount).map fun endCount =>
          { ser with endCount, endTime := defaultSeriesEndTime }
      | "end_time" => (body.endTime ser.endTime).map fun endTime =>
          { ser with endTime, endCount := 0 }
      | "exceptions" => (body.exceptions ser.exceptions).map fun exceptions =>
          { ser with exceptions }
      | "frequency" => (body.uint ser.frequency).map fun frequency => { ser with frequency }
      | _ => none
    match updated with
    | some ser => .ok ser
    | none =>
      if endpoint ∈ ["cycle", "day_mask", "end_count", "end_time", "exceptions", "frequency"]
        then .error .invalidData
      else .error .invalidUri

/-- `Series.handlePost`. -/
def handlePost (ser : Series) (uriFrags : List String) (body : Body) :
    Except ErrorResponse Series :=
  match uriFrags[5]? with
  | some "exceptions" =>
    match body.time with
    | some newException => .ok (ser.addException newException)
    | none => .error .invalidData
  | _ => .error .invalidUri

/-- `Series.handleDel`. -/
def handleDel (ser : Series) (uriFrags : List String) : Except ErrorResponse Series :=
  match uriFrags[5]? with
  | some "exceptions" =>
    match uriFrags[6]? with
    | none => .ok { ser with exceptions := [] }
    | some iExceptionString =>
      match (parseUint iExceptionString 32).bind (ser.exceptions[·]?) with
      | some exception => .ok (ser.deleteException exception)
      | none => .error .invalidData
  | _ => .error .invalidUri

end Series

namespace Event

/-- `handleVariablesSet`. -/
def handleVariablesSet (e : Event) (uriFrags : List String) (body : Body) :
    Except ErrorResponse Event :=
  match uriFrags[5]? with
  | none =>
    match body.variableMap e.variableMap with
    | some variableMap => .ok { e with variableMap }
    | none => .error .invalidData
  | some varId =>
    if varId ∈ e.variableMap then
      match body.value with
      | some newVarVal => .ok { e with variableMap := e.variableMap.insert varId newVarVal }
      | none => .error .invalidData
    else .error .invalidData

/-- The settings that a SET to the whole event gives it. -/
def newSettings (ctx : Context) (timezone : Option Location) (isActiveEvent : Bool) (e : Event)
    (body : Body) : Except ErrorResponse Event :=
  match body.event with
  | none => .error .invalidData
  | some input =>
    match validateInput timezone ctx.mapOfVariables (some input) with
    | .error _ => .error .invalidData
    | .ok newSettings =>
      let limit := if isActiveEvent then newSettings.endTime else newSettings.startTime
      if timeIsBeforeCurrentMinute ctx.now limit then .error .invalidData
      else .ok { newSettings with id := e.id }

/-- Validate the settings that an edit of a field leaves. -/
def checkSettings (ctx : Context) (timezone : Option Location) (e : Event) :
    Except ErrorResponse Event :=
  (e.validate timezone ctx.mapOfVariables).mapError fun _ => .invalidData

/-- `Event.HandleSet`. -/
def handleSet (ctx : Context) (timezone : Option Location) (isActiveEvent : Bool) (e : Event)
    (uriFrags : List String) (body : Body) : Except ErrorResponse Event :=
  match uriFrags[4]? with
  | none => newSettings ctx timezone isActiveEvent e body
  | some "start_time" =>
    match body.time with
    | none => .error .invalidData
    | some newStartTime =>
      if timeIsBeforeCurrentMinute ctx.now newStartTime then .error .invalidData
      else checkSettings ctx timezone { e with startTime := newStartTime }
  | some "duration" =>
    match body.uint 0 with
    | none => .error .invalidData
    | some newDuration =>
      let updated := { e with duration := newDuration }
      if timeIsBeforeCurrentMinute ctx.now updated.endTime then .error .invalidData
      else checkSettings ctx timezone updated
  | some "variables" =>
    match e.handleVariablesSet uriFrags body with
    | .error err => .error err
    | .ok e => checkSettings ctx timezone e
  | some "repeat" =>
    match e.repeatSettings.handleSet uriFrags body with
    | .error err => .error err
    | .ok repeatSettings => checkSettings ctx timezone { e with repeatSettings }
  | some _ => .error .invalidUri

/-- `Event.HandlePost`. -/
def handlePost (ctx : Context) (timezone : Option Location) (e : Event)
    (uriFrags : List String) (body : Body) : Except ErrorResponse Event :=
  match uriFrags[4]? with
  | some "repeat" =>
    match e.repeatSettings.handlePost uriFrags body with
    | .error err => .error err
    | .ok repeatSettings => checkSettings ctx timezone { e with repeatSettings }
  | _ => .error .invalidUri

/-- `Event.HandleDel`. -/
def handleDel (ctx : Context) (timezone : Option Location) (e : Event)
    (uriFrags : List String) : Except ErrorResponse Event :=
  match uriFrags[4]? with
  | some "repeat" =>
    match e.repeatSettings.handleDel uriFrags with
    | .error err => .error err
    | .ok repeatSettings => checkSettings ctx timezone { e with repeatSettings }
  | _ => .error .invalidUri

end Event

/-! ## Edits of a schedule -/

/-- A schedule, and when schedules were last modified. -/
structure Process where
  schedule : Schedule
  /-- `lastScheduleModification`. -/
  lastScheduleModification : ℤ

namespace Process

/-- The result of an edit, if it comes to an end: the new state, and how the edit comes
back. -/
abbrev Result (ε : Type) := Option (Process × Return (Except ε Unit))

/-- `sendUpdatesAfterMasterScheduleEdit`. -/
def sendUpdatesAfterMasterScheduleEdit (ctx : Context) (externalEditor : Bool) (proc : Process) :
    Process :=
  if externalEditor then { proc with lastScheduleModification := ctx.now } else proc

/-- The schedule with no events but the active one, before a list of events is organized. -/
def wiped (proc : Process) (inputCache : IdCache) : Schedule :=
  { proc.schedule with cache := inputCache, scheduledEvents := [], expiredEvents := [] }

/-- `overwrite`. -/
def overwrite (ctx : Context) (fuel : ℕ) (inputEventList : EventList) (inputCache : IdCache)
    (externalEditor : Bool) (proc : Process) : Result EditError :=
  match inputEventList.validate fuel proc.schedule.timezone ctx.mapOfVariables with
  | none => none
  | some (.error err) => some (proc, .done (.error (.invalidList err)))
  | some (.ok inputEventList) =>
    match (proc.wiped inputCache).integrateEventList ctx fuel inputEventList false with
    | none => none
    | some (schedule, .panicked) => some ({ proc with schedule }, .panicked)
    | some (schedule, .done activeEventIncluded) =>
      let schedule :=
        if activeEventIncluded then schedule else { schedule with activeEvent := none }
      some (sendUpdatesAfterMasterScheduleEdit ctx externalEditor { proc with schedule },
        .done (.ok ()))

/-- Where a local schedule is configured, overwriting a schedule does not panic. -/
theorem overwrite_done {ctx : Context} (hlocal : ctx.hasLocalSchedule = true) {fuel : ℕ}
    {inputEventList : EventList} {inputCache : IdCache} {externalEditor : Bool}
    {proc proc' : Process} {result : Return (Except EditError Unit)}
    (h : proc.overwrite ctx fuel inputEventList inputCache externalEditor =
      some (proc', result)) : result ≠ .panicked := by
  rw [overwrite] at h
  split at h
  · cases h
  · cases h
    simp
  · split at h
    · cases h
    next hpanicked => exact absurd rfl (Schedule.integrateEventList_done hlocal hpanicked)
    · cases h
      simp

/-- Give every event of a list a new identifier, as long as there are any. -/
def generateIds : EventList → IdCache → RandomSrc → Option (EventList × IdCache) × RandomSrc
  | [], cache, src => (some ([], cache), src)
  | e :: rest, cache, src =>
    match generateId cache src with
    | (none, src) => (none, src)
    | (some id, src) =>
      match generateIds rest (insert id cache) src with
      | (none, src) => (none, src)
      | (some (rest, cache), src) => (some (e.withId id :: rest, cache), src)

/-- The process after random numbers have been drawn. -/
def withRandomSrc (proc : Process) (src : RandomSrc) : Process :=
  { proc with schedule := { proc.schedule with randomSrc := src } }

/-- `handleFullScheduleSet`. -/
def handleFullScheduleSet (ctx : Context) (fuel : ℕ) (inputEventList : EventList)
    (proc : Process) : Result EditError :=
  match generateIds inputEventList ∅ proc.schedule.randomSrc with
  | (none, src) => some (proc.withRandomSrc src, .done (.error .fullCache))
  | (some (tagged, newCache), src) =>
    (proc.withRandomSrc src).overwrite ctx fuel tagged newCache true

/-- `handleFullSchedulePost`. -/
def handleFullSchedulePost (ctx : Context) (fuel : ℕ) (inputEventList : EventList)
    (proc : Process) : Result EditError :=
  match generateIds inputEventList proc.schedule.cache proc.schedule.randomSrc with
  | (none, src) => some (proc.withRandomSrc src, .done (.error .fullCache))
  | (some (tagged, newCache), src) =>
    (proc.withRandomSrc src).overwrite ctx fuel
      (proc.schedule.aggregateAllEvents.addList tagged) newCache true

/-- The patches of `handleFullSchedulePatch`: an event with the same start takes the settings
of the input event, and an input event without one is added under a new identifier. -/
def patchEvents : EventList → EventList → IdCache → RandomSrc →
    Option (EventList × IdCache) × RandomSrc
  | [], newSchedule, cache, src => (some (newSchedule, cache), src)
  | inputEvent :: rest, newSchedule, cache, src =>
    if (newSchedule.get inputEvent.startTime).isSome then
      patchEvents rest
        (newSchedule.modifyFirst (·.startTime.equal inputEvent.startTime) fun _ => inputEvent)
        cache src
    else
      match generateId cache src with
      | (none, src) => (none, src)
      | (some id, src) =>
        patchEvents rest (newSchedule.add (inputEvent.withId id)) (insert id cache) src

/-- `handleFullSchedulePatch`. -/
def handleFullSchedulePatch (ctx : Context) (fuel : ℕ) (inputEventList : EventList)
    (proc : Process) : Result EditError :=
  match inputEventList.hasOverlaps fuel with
  | none => none
  | some true => some (proc, .done (.error .overlappingInput))
  | some false =>
    match patchEvents inputEventList proc.schedule.aggregateAllEvents proc.schedule.cache
        proc.schedule.randomSrc with
    | (none, src) => some (proc.withRandomSrc src, .done (.error .fullCache))
    | (some (newSchedule, newCache), src) =>
      (proc.withRandomSrc src).overwrite ctx fuel newSchedule newCache true

/-- `deleteMultipleEvents`, of an array that may be nil. -/
def deleteMultipleEvents (ctx : Context) (fuel : ℕ) (idsOfEventsToDelete : Option (List Id))
    (proc : Process) : Result EditError :=
  match idsOfEventsToDelete with
  | none => some (proc, .done (.error .nilArray))
  | some ids =>
    proc.overwrite ctx fuel (ids.foldl EventList.deleteEventWithId proc.schedule.aggregateAllEvents)
      (ids.foldl Finset.erase proc.schedule.cache) true

/-- The answer to a request whose edit came back. -/
def answered : Result EditError → Result ErrorResponse
  | none => none
  | some (proc, .panicked) => some (proc, .panicked)
  | some (proc, .done (.ok ())) => some (proc, .done (.ok ()))
  | some (proc, .done (.error err)) => some (proc, .done (.error err.response))

/-- `parseEventList`. -/
def parseEventList (ctx : Context) (fuel : ℕ) (timeZone : Option Location) (input : Body) :
    Option (Except ErrorResponse EventList) :=
  match (if input.marshals then input.eventList else none) with
  | none => some (.error .invalidData)
  | some inputs =>
    (EventList.validateInputs fuel timeZone ctx.mapOfVariables inputs).map
      (·.mapError fun _ => .invalidData)

/-- `handleFimsSetToSchedule`. A part of a larger SET that does not name the schedule is
ignored. -/
def handleFimsSetToSchedule (ctx : Context) (fuel : ℕ) (msg : FimsMsg) (proc : Process) :
    Result ErrorResponse :=
  let input : Except ErrorResponse (Option Body) :=
    if msg.frags.length < 3 then
      match msg.inputScheduleMap with
      | none => .error .invalidData
      | some inputScheduleMap => .ok (inputScheduleMap proc.schedule.id)
    else .ok (some msg.body)
  match input with
  | .error err => some (proc, .done (.error err))
  | .ok none => some (proc, .done (.ok ()))
  | .ok (some input) =>
    match parseEventList ctx fuel proc.schedule.timezone input with
    | none => none
    | some (.error err) => some (proc, .done (.error err))
    | some (.ok inputEventList) => answered (proc.handleFullScheduleSet ctx fuel inputEventList)

/-- `handleFimsPostToSchedule`. -/
def handleFimsPostToSchedule (ctx : Context) (fuel : ℕ) (msg : FimsMsg) (proc : Process) :
    Result ErrorResponse :=
  if !msg.body.marshals then some (proc, .done (.error .invalidJson))
  else
    match msg.body.event with
    | none => some (proc, .done (.error .invalidData))
    | some input =>
      match validateInput proc.schedule.timezone ctx.mapOfVariables (some input) with
      | .error _ => some (proc, .done (.error .invalidData))
      | .ok inputEvent =>
        if timeIsBeforeCurrentMinute ctx.now inputEvent.startTime then
          some (proc, .done (.error .eventStartsInPast))
        else answered (proc.handleFullSchedulePost ctx fuel [inputEvent])

/-- The deletion of a whole event: the event is taken from the copies, and its identifier
from the cache that is in use. -/
def deleteEvent (ctx : Context) (fuel : ℕ) (targetId : Id) (proc : Process) :
    Result EditError :=
  let allEvents := proc.schedule.aggregateAllEvents.deleteEventWithId targetId
  let proc := { proc with
    schedule := { proc.schedule with cache := proc.schedule.cache.erase targetId } }
  proc.overwrite ctx fuel allEvents proc.schedule.cache true

/-- The edit of an event by a request to it or to one of its fields. Nothing stands for the
deletion of the whole event. -/
def editEvent (ctx : Context) (method : Method) (msg : FimsMsg) (proc : Process)
    (targetEvent : Event) : Except ErrorResponse (Option Event) :=
  let timezone := proc.schedule.timezone
  match method with
  | .set =>
    let targetEventIsActiveEvent := proc.schedule.activeEvent.any (·.id = targetEvent.id)
    (targetEvent.handleSet ctx timezone targetEventIsActiveEvent msg.frags msg.body).map some
  | .post => (targetEvent.handlePost ctx timezone msg.frags msg.body).map some
  | .del =>
    if msg.frags.length < 5 then .ok none
    else (targetEvent.handleDel ctx timezone msg.frags).map some

/-- `handleFimsWriteToEvent`. -/
def handleFimsWriteToEvent (ctx : Context) (fuel : ℕ) (method : Method) (msg : FimsMsg)
    (proc : Process) : Result ErrorResponse :=
  match (msg.frags[3]?).bind parseIdFromString with
  | none => some (proc, .done (.error .invalidUri))
  | some eventId =>
    match proc.schedule.aggregateAllEvents.getEventWithId eventId with
    | none => some (proc, .done (.error .resourceNotFound))
    | some targetEvent =>
      if !msg.body.marshals then some (proc, .done (.error .invalidJson))
      else
        match editEvent ctx method msg proc targetEvent with
        | .error err => some (proc, .done (.error err))
        | .ok none => answered (proc.deleteEvent ctx fuel targetEvent.id)
        | .ok (some updated) =>
          answered (proc.overwrite ctx fuel
            (proc.schedule.aggregateAllEvents.modifyFirst (·.id = eventId) fun _ => updated)
            proc.schedule.cache true)

/-- `handleFimsSet`. -/
def handleFimsSet (ctx : Context) (fuel : ℕ) (msg : FimsMsg) (proc : Process) :
    Result ErrorResponse :=
  if msg.frags.length < 4 then proc.handleFimsSetToSchedule ctx fuel msg
  else proc.handleFimsWriteToEvent ctx fuel .set msg

/-- `handleFimsPost`. -/
def handleFimsPost (ctx : Context) (fuel : ℕ) (msg : FimsMsg) (proc : Process) :
    Result ErrorResponse :=
  if msg.frags.length < 3 then some (proc, .done (.error .invalidUri))
  else if msg.frags.length = 3 then proc.handleFimsPostToSchedule ctx fuel msg
  else proc.handleFimsWriteToEvent ctx fuel .post msg

/-- `handleFimsDel`. -/
def handleFimsDel (ctx : Context) (fuel : ℕ) (msg : FimsMsg) (proc : Process) :
    Result ErrorResponse :=
  if msg.frags.length < 3 then some (proc, .done (.error .invalidUri))
  else if msg.frags.length = 3 then
    some (sendUpdatesAfterMasterScheduleEdit ctx true
      { proc with schedule := proc.schedule.clear }, .done (.ok ()))
  else proc.handleFimsWriteToEvent ctx fuel .del msg

/-- `handleWebSocketEventsSet`. -/
def handleWebSocketEventsSet (ctx : Context) (fuel : ℕ) (input : Body) (proc : Process) :
    Result ErrorResponse :=
  match parseEventList ctx fuel proc.schedule.timezone input with
  | none => none
  | some (.error err) => some (proc, .done (.error err))
  | some (.ok inputEventList) =>
    answered (proc.overwrite ctx fuel inputEventList inputEventList.buildIdCache false)

end Process

/-!
## Requests that fail

A request whose handler returns an error leaves the schedule as it was, with one exception:
the deletion of a whole event frees its identifier before the events that are left have been
validated.
-/

/-- The requests that edit a schedule: messages, edits of the whole schedule by the SCADA
interface, and lists from the counterpart of a site. -/
inductive EditRequest where
  | fimsSet (msg : FimsMsg)
  | fimsPost (msg : FimsMsg)
  | fimsDel (msg : FimsMsg)
  | fullScheduleSet (inputEventList : EventList)
  | fullSchedulePost (inputEventList : EventList)
  | fullSchedulePatch (inputEventList : EventList)
  | deleteMultipleEvents (idsOfEventsToDelete : Option (List Id))
  | webSocketEventsSet (input : Body)

/-- The errors of requests. -/
inductive RequestError where
  | answer (response : ErrorResponse)
  | edit (err : EditError)
  deriving DecidableEq, Repr

namespace Process

/-- A result under the errors of requests. -/
def mapError {ε : Type} (f : ε → RequestError) : Result ε → Result RequestError
  | none => none
  | some (proc, .panicked) => some (proc, .panicked)
  | some (proc, .done (.ok ())) => some (proc, .done (.ok ()))
  | some (proc, .done (.error err)) => some (proc, .done (.error (f err)))

/-- Handle a request. -/
def handle (ctx : Context) (fuel : ℕ) (proc : Process) : EditRequest → Result RequestError
  | .fimsSet msg => mapError .answer (proc.handleFimsSet ctx fuel msg)
  | .fimsPost msg => mapError .answer (proc.handleFimsPost ctx fuel msg)
  | .fimsDel msg => mapError .answer (proc.handleFimsDel ctx fuel msg)
  | .fullScheduleSet inputs => mapError .edit (proc.handleFullScheduleSet ctx fuel inputs)
  | .fullSchedulePost inputs => mapError .edit (proc.handleFullSchedulePost ctx fuel inputs)
  | .fullSchedulePatch inputs => mapError .edit (proc.handleFullSchedulePatch ctx fuel inputs)
  | .deleteMultipleEvents ids => mapError .edit (proc.deleteMultipleEvents ctx fuel ids)
  | .webSocketEventsSet input => mapError .answer (proc.handleWebSocketEventsSet ctx fuel input)

/-- Everything that a request may change is as before. -/
structure Unchanged (proc proc' : Process) : Prop where
  scheduledEvents : proc'.schedule.scheduledEvents = proc.schedule.scheduledEvents
  expiredEvents : proc'.schedule.expiredEvents = proc.schedule.expiredEvents
  activeEvent : proc'.schedule.activeEvent = proc.schedule.activeEvent
  cache : proc'.schedule.cache = proc.schedule.cache
  lastScheduleModification : proc'.lastScheduleModification = proc.lastScheduleModification

@[refl] theorem Unchanged.refl (proc : Process) : Unchanged proc proc := ⟨rfl, rfl, rfl, rfl, rfl⟩

/-- Drawing random numbers changes nothing else. -/
theorem unchanged_withRandomSrc (proc : Process) (src : RandomSrc) :
    Unchanged proc (proc.withRandomSrc src) := ⟨rfl, rfl, rfl, rfl, rfl⟩

/-- An edit that returns an error leaves the state unchanged. -/
def KeepsOnError {ε : Type} (proc : Process) (result : Result ε) : Prop :=
  ∀ proc' err, result = some (proc', .done (.error err)) → Unchanged proc proc'

variable {proc proc' : Process} {ctx : Context} {fuel : ℕ} {inputs : EventList} {cache : IdCache}
  {external : Bool}

/-- A request keeps the state on errors where its edit does. -/
theorem keepsOnError_mapError {ε : Type} {f : ε → RequestError} {result : Result ε} :
    KeepsOnError proc (mapError f result) ↔ KeepsOnError proc result := by
  constructor
  · intro h proc' err hresult
    exact h proc' (f err) (by rw [hresult]; rfl)
  · intro h proc' err hresult
    rw [mapError.eq_def] at hresult
    split at hresult <;> cases hresult
    exact h _ _ rfl

/-- An answer keeps the state on errors where its edit does. -/
theorem keepsOnError_answered {result : Result EditError} :
    KeepsOnError proc (answered result) ↔ KeepsOnError proc result := by
  constructor
  · intro h proc' err hresult
    exact h proc' err.response (by rw [hresult]; rfl)
  · intro h proc' err hresult
    rw [answered.eq_def] at hresult
    split at hresult <;> cases hresult
    exact h _ _ rfl

/-- An error that comes back with an unchanged state keeps the state. -/
theorem keepsOnError_error {ε : Type} {err : ε} (h : Unchanged proc proc') :
    KeepsOnError proc (some (proc', .done (.error err))) := by
  intro proc'' err' hresult
  rw [Option.some.injEq, Prod.mk.injEq] at hresult
  exact hresult.1 ▸ h

/-- Success keeps the state on errors. -/
theorem keepsOnError_ok {ε : Type} :
    KeepsOnError proc (some (proc', .done (.ok ())) : Result ε) := by
  intro proc'' err hresult
  cases hresult

/-- An edit that does not come to an end keeps the state on errors. -/
theorem keepsOnError_none {ε : Type} : KeepsOnError proc (none : Result ε) := by
  intro proc' err hresult
  cases hresult

/-- The errors of an overwrite come before all changes. -/
theorem overwrite_error {err : EditError}
    (h : proc.overwrite ctx fuel inputs cache external = some (proc', .done (.error err))) :
    proc' = proc ∧ ∃ cause, err = .invalidList cause ∧
      inputs.validate fuel proc.schedule.timezone ctx.mapOfVariables = some (.error cause) := by
  rw [overwrite] at h
  split at h
  · cases h
  next cause hvalidate =>
    cases h
    exact ⟨rfl, cause, rfl, hvalidate⟩
  · split at h
    · cases h
    · cases h
    · cases h

/-- An overwrite fails where the list does not pass validation. -/
theorem overwrite_of_invalid {cause : EventList.ListError}
    (h : inputs.validate fuel proc.schedule.timezone ctx.mapOfVariables = some (.error cause)) :
    proc.overwrite ctx fuel inputs cache external =
      some (proc, .done (.error (.invalidList cause))) := by
  rw [overwrite, h]

theorem overwrite_keepsOnError (h : Unchanged proc proc') :
    KeepsOnError proc (proc'.overwrite ctx fuel inputs cache external) := by
  intro proc'' err hresult
  rw [(overwrite_error hresult).1]
  exact h

/-- The edits of the whole schedule keep the state on errors. -/
theorem handleFullScheduleSet_keepsOnError (ctx : Context) (fuel : ℕ) (inputs : EventList)
    (proc : Process) : KeepsOnError proc (proc.handleFullScheduleSet ctx fuel inputs) := by
  rw [handleFullScheduleSet]
  split
  next src _ => exact keepsOnError_error (unchanged_withRandomSrc proc src)
  next src _ => exact overwrite_keepsOnError (unchanged_withRandomSrc proc src)

theorem handleFullSchedulePost_keepsOnError (ctx : Context) (fuel : ℕ) (inputs : EventList)
    (proc : Process) : KeepsOnError proc (proc.handleFullSchedulePost ctx fuel inputs) := by
  rw [handleFullSchedulePost]
  split
  next src _ => exact keepsOnError_error (unchanged_withRandomSrc proc src)
  next src _ => exact overwrite_keepsOnError (unchanged_withRandomSrc proc src)

theorem handleFullSchedulePatch_keepsOnError (ctx : Context) (fuel : ℕ) (inputs : EventList)
    (proc : Process) : KeepsOnError proc (proc.handleFullSchedulePatch ctx fuel inputs) := by
  rw [handleFullSchedulePatch]
  split
  · exact keepsOnError_none
  · exact keepsOnError_error (Unchanged.refl proc)
  · split
    next src _ => exact keepsOnError_error (unchanged_withRandomSrc proc src)
    next src _ => exact overwrite_keepsOnError (unchanged_withRandomSrc proc src)

theorem deleteMultipleEvents_keepsOnError (ctx : Context) (fuel : ℕ) (ids : Option (List Id))
    (proc : Process) : KeepsOnError proc (proc.deleteMultipleEvents ctx fuel ids) := by
  cases ids with
  | none => exact keepsOnError_error (Unchanged.refl proc)
  | some ids => exact overwrite_keepsOnError (Unchanged.refl proc)

theorem handleFimsSetToSchedule_keepsOnError (ctx : Context) (fuel : ℕ) (msg : FimsMsg)
    (proc : Process) : KeepsOnError proc (proc.handleFimsSetToSchedule ctx fuel msg) := by
  rw [handleFimsSetToSchedule]
  split
  · exact keepsOnError_error (Unchanged.refl proc)
  · exact keepsOnError_ok
  · split
    · exact keepsOnError_none
    · exact keepsOnError_error (Unchanged.refl proc)
    next inputs _ =>
      exact keepsOnError_answered.mpr (handleFullScheduleSet_keepsOnError ctx fuel inputs proc)

theorem handleFimsPostToSchedule_keepsOnError (ctx : Context) (fuel : ℕ) (msg : FimsMsg)
    (proc : Process) : KeepsOnError proc (proc.handleFimsPostToSchedule ctx fuel msg) := by
  rw [handleFimsPostToSchedule]
  split_ifs
  · exact keepsOnError_error (Unchanged.refl proc)
  · split
    · exact keepsOnError_error (Unchanged.refl proc)
    · split
      · exact keepsOnError_error (Unchanged.refl proc)
      next inputEvent _ =>
        split_ifs
        · exact keepsOnError_error (Unchanged.refl proc)
        · exact keepsOnError_answered.mpr
            (handleFullSchedulePost_keepsOnError ctx fuel [inputEvent] proc)

theorem handleWebSocketEventsSet_keepsOnError (ctx : Context) (fuel : ℕ) (input : Body)
    (proc : Process) : KeepsOnError proc (proc.handleWebSocketEventsSet ctx fuel input) := by
  rw [handleWebSocketEventsSet]
  split
  · exact keepsOnError_none
  · exact keepsOnError_error (Unchanged.refl proc)
  · exact keepsOnError_answered.mpr (overwrite_keepsOnError (Unchanged.refl proc))

/-! ## Deletions of whole events -/

/-- The events that are left without one do not pass validation. -/
def InvalidWithout (ctx : Context) (fuel : ℕ) (proc : Process) (id : Id) : Prop :=
  ∃ cause, (proc.schedule.aggregateAllEvents.deleteEventWithId id).validate fuel
    proc.schedule.timezone ctx.mapOfVariables = some (.error cause)

/-- The deletion of an event keeps the state on errors unless it frees an identifier and the
events that are left do not pass validation. -/
theorem deleteEvent_keepsOnError_iff (ctx : Context) (fuel : ℕ) (id : Id) (proc : Process) :
    KeepsOnError proc (proc.deleteEvent ctx fuel id) ↔
      ¬ (id ∈ proc.schedule.cache ∧ InvalidWithout ctx fuel proc id) := by
  constructor
  · intro hkeeps hinvalid
    obtain ⟨hmem, cause, hcause⟩ := hinvalid
    have hfails : proc.deleteEvent ctx fuel id = some ({ proc with
        schedule := { proc.schedule with cache := proc.schedule.cache.erase id } },
        .done (.error (.invalidList cause))) := overwrite_of_invalid hcause
    have hsame : proc.schedule.cache.erase id = proc.schedule.cache :=
      (hkeeps _ _ hfails).cache
    rw [← hsame] at hmem
    exact Finset.notMem_erase id proc.schedule.cache hmem
  · intro hvalid proc' err hresult
    obtain ⟨rfl, cause, -, hcause⟩ := overwrite_error hresult
    have hfree : id ∉ proc.schedule.cache := fun hmem => hvalid ⟨hmem, cause, hcause⟩
    exact ⟨rfl, rfl, rfl, Finset.erase_eq_of_notMem hfree, rfl⟩

/-- The message asks for the deletion of a whole event. -/
def TargetsEvent (msg : FimsMsg) (proc : Process) (id : Id) : Prop :=
  msg.frags.length = 4 ∧ msg.body.marshals = true ∧
    (msg.frags[3]?).bind parseIdFromString = some id ∧
    (proc.schedule.aggregateAllEvents.getEventWithId id).isSome = true

/-- The request deletes a whole event whose identifier is in use, from a schedule whose other
events do not pass validation. -/
def DeletesFromInvalid (ctx : Context) (fuel : ℕ) (proc : Process) : EditRequest → Prop
  | .fimsDel msg =>
    ∃ id, TargetsEvent msg proc id ∧ id ∈ proc.schedule.cache ∧ InvalidWithout ctx fuel proc id
  | _ => False

/-- An edit of an event stands for a deletion where the request is a deletion with no
fragment behind the event's. -/
theorem editEvent_eq_none_iff {method : Method} {msg : FimsMsg} {targetEvent : Event} :
    editEvent ctx method msg proc targetEvent = .ok none ↔
      method = .del ∧ msg.frags.length < 5 := by
  cases method with
  | set =>
    simp only [editEvent]
    cases targetEvent.handleSet ctx proc.schedule.timezone
      (proc.schedule.activeEvent.any (·.id = targetEvent.id)) msg.frags msg.body <;>
      simp [Except.map]
  | post =>
    simp only [editEvent]
    cases targetEvent.handlePost ctx proc.schedule.timezone msg.frags msg.body <;>
      simp [Except.map]
  | del =>
    simp only [editEvent]
    split_ifs with hshort
    · simp [hshort]
    · cases targetEvent.handleDel ctx proc.schedule.timezone msg.frags <;>
        simp [Except.map, hshort]

/-- A write to an event keeps the state on errors unless it is a deletion from events that do
not pass validation. -/
theorem handleFimsWriteToEvent_keepsOnError_iff (ctx : Context) (fuel : ℕ) (method : Method)
    (msg : FimsMsg) (proc : Process) (hfrags : 4 ≤ msg.frags.length) :
    KeepsOnError proc (proc.handleFimsWriteToEvent ctx fuel method msg) ↔
      ¬ (method = .del ∧ ∃ id, TargetsEvent msg proc id ∧ id ∈ proc.schedule.cache ∧
        InvalidWithout ctx fuel proc id) := by
  have htrivial : ∀ {P : Prop} {result : Result ErrorResponse}, KeepsOnError proc result →
      ¬ P → (KeepsOnError proc result ↔ ¬ P) := fun hkeeps hP => iff_of_true hkeeps hP
  rw [handleFimsWriteToEvent]
  split
  next hparse =>
    refine htrivial (keepsOnError_error (Unchanged.refl proc)) fun hdel => ?_
    obtain ⟨-, id, htarget, -⟩ := hdel
    exact absurd (hparse.symm.trans htarget.2.2.1) (by simp)
  next eventId hparse =>
    have hsame : ∀ {id}, TargetsEvent msg proc id → eventId = id := fun htarget =>
      Option.some.inj (hparse.symm.trans htarget.2.2.1)
    split
    next hmissing =>
      refine htrivial (keepsOnError_error (Unchanged.refl proc)) fun hdel => ?_
      obtain ⟨-, id, htarget, -⟩ := hdel
      have hfound := htarget.2.2.2
      rw [← hsame htarget, hmissing] at hfound
      exact absurd hfound (by simp)
    next targetEvent htarget =>
      have hid : targetEvent.id = eventId := by
        simpa using List.find?_some htarget
      split_ifs with hmarshals
      · refine htrivial (keepsOnError_error (Unchanged.refl proc)) fun hdel => ?_
        obtain ⟨-, id, htarget, -⟩ := hdel
        rw [htarget.2.1] at hmarshals
        exact absurd hmarshals (by simp)
      · split
        next err hedit =>
          refine htrivial (keepsOnError_error (Unchanged.refl proc)) fun hdel => ?_
          obtain ⟨rfl, id, htarget, -⟩ := hdel
          have hnone : editEvent ctx .del msg proc targetEvent = .ok none :=
            editEvent_eq_none_iff.mpr ⟨rfl, by have := htarget.1; omega⟩
          rw [hedit] at hnone
          exact absurd hnone (by simp)
        next hedit =>
          obtain ⟨rfl, hshort⟩ := editEvent_eq_none_iff.mp hedit
          rw [keepsOnError_answered, deleteEvent_keepsOnError_iff, hid, not_iff_not]
          constructor
          · intro h
            exact ⟨rfl, eventId, ⟨by omega, by simpa using hmarshals, hparse, by
              rw [htarget]; rfl⟩, h⟩
          · intro h
            obtain ⟨-, id, hid', h⟩ := h
            rw [hsame hid']
            exact h
        next updated hedit =>
          refine htrivial (keepsOnError_answered.mpr
            (overwrite_keepsOnError (Unchanged.refl proc))) fun hdel => ?_
          obtain ⟨rfl, id, htarget, -⟩ := hdel
          have hnone : editEvent ctx .del msg proc targetEvent = .ok none :=
            editEvent_eq_none_iff.mpr ⟨rfl, by have := htarget.1; omega⟩
          rw [hedit] at hnone
          exact absurd hnone (by simp)

/-- A request whose handler returns an error leaves the events, the cache and the time of the
last modification as they were, unless it deletes a whole event whose identifier is in use
from a schedule whose other events do not pass validation. -/
theorem handle_keepsOnError_iff (ctx : Context) (fuel : ℕ) (proc : Process)
    (request : EditRequest) :
    (∀ proc' err, proc.handle ctx fuel request = some (proc', .done (.error err)) →
      Unchanged proc proc') ↔ ¬ DeletesFromInvalid ctx fuel proc request := by
  change KeepsOnError proc (proc.handle ctx fuel request) ↔ _
  cases request with
  | fimsSet msg =>
    refine iff_of_true (keepsOnError_mapError.mpr ?_) not_false
    rw [handleFimsSet]
    split_ifs with hshort
    · exact handleFimsSetToSchedule_keepsOnError ctx fuel msg proc
    · rw [handleFimsWriteToEvent_keepsOnError_iff ctx fuel .set msg proc (by omega)]
      simp
  | fimsPost msg =>
    refine iff_of_true (keepsOnError_mapError.mpr ?_) not_false
    rw [handleFimsPost]
    split_ifs with hshort hthree
    · exact keepsOnError_error (Unchanged.refl proc)
    · exact handleFimsPostToSchedule_keepsOnError ctx fuel msg proc
    · rw [handleFimsWriteToEvent_keepsOnError_iff ctx fuel .post msg proc (by omega)]
      simp
  | fimsDel msg =>
    rw [handle, keepsOnError_mapError, handleFimsDel, DeletesFromInvalid]
    split_ifs with hshort hthree
    · refine iff_of_true (keepsOnError_error (Unchanged.refl proc)) fun hdel => ?_
      obtain ⟨id, htarget, -⟩ := hdel
      have hfour := htarget.1
      omega
    · refine iff_of_true keepsOnError_ok fun hdel => ?_
      obtain ⟨id, htarget, -⟩ := hdel
      have hfour := htarget.1
      omega
    · rw [handleFimsWriteToEvent_keepsOnError_iff ctx fuel .del msg proc (by omega)]
      simp
  | fullScheduleSet inputs =>
    exact iff_of_true
      (keepsOnError_mapError.mpr (handleFullScheduleSet_keepsOnError ctx fuel inputs proc))
      not_false
  | fullSchedulePost inputs =>
    exact iff_of_true
      (keepsOnError_mapError.mpr (handleFullSchedulePost_keepsOnError ctx fuel inputs proc))
      not_false
  | fullSchedulePatch inputs =>
    exact iff_of_true
      (keepsOnError_mapError.mpr (handleFullSchedulePatch_keepsOnError ctx fuel inputs proc))
      not_false
  | deleteMultipleEvents ids =>
    exact iff_of_true
      (keepsOnError_mapError.mpr (deleteMultipleEvents_keepsOnError ctx fuel ids proc))
      not_false
  | webSocketEventsSet input =>
    exact iff_of_true
      (keepsOnError_mapError.mpr (handleWebSocketEventsSet_keepsOnError ctx fuel input proc))
      not_false

/-! ## A deletion that fails and frees an identifier -/

/-- A body that decodes into nothing. -/
def emptyBody : Body where
  marshals := true
  eventList := none
  event := none
  time := none
  uint _ := none
  variableMap _ := none
  value := none
  series _ := none
  cycle _ := none
  dayMask _ := none
  endCount _ := none
  endTime _ := none
  exceptions _ := none

/-- The message that deletes the event with identifier 6. -/
def deleteSix : FimsMsg := ⟨["scheduler", "events", "site", "6"], emptyBody, none⟩

/-- A schedule with a daily series that has moved to its last occurrence, which falls on the
end time, and a second event. -/
def atEndTime : Process where
  schedule :=
    let series : Event :=
      { id := 5, startTime := ⟨day, utc⟩, duration := 60, mode := "default", variableMap := ∅
        repeatSettings := { newNonRepeatingSeries with endCount := 0, endTime := ⟨day, utc⟩ } }
    { id := "site"
      timezone := some utc
      scheduledEvents := [series, { series.oneOff with id := 6, startTime := ⟨2 * day, utc⟩ }]
      expiredEvents := []
      activeEvent := none
      cache := {5, 6}
      randomSrc := fun _ => 0 }
  lastScheduleModification := 0

/-- One mode without variables, in the afternoon of the first day. -/
def firstAfternoon : Context :=
  ⟨12 * hour, fun mode => if mode = "default" then some [] else none, true⟩

/-- The request that deletes the second event comes back with an error, since the series does
not pass validation any more, and has freed the identifier of the event. -/
theorem handle_deleteSix_frees : ¬ ∀ proc' err,
    atEndTime.handle firstAfternoon 1 (.fimsDel deleteSix) = some (proc', .done (.error err)) →
      Unchanged atEndTime proc' := by
  intro h
  have hcache := (h _ _ rfl).cache
  exact absurd hcache (by decide)

end Process
end HybridOs.Scheduler
