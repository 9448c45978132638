import HybridOs.GoValue
import HybridOs.SchedulerTime
import Mathlib.Data.Finset.Insert
import Mathlib.Data.List.AList
import Mathlib.Data.List.Nodup
import Mathlib.Data.List.Sort
import Mathlib.Data.Prod.Lex
import Mathlib.Data.String.Basic

/-!
# Events

An event starts at a time, lasts some minutes and carries the values of its mode's variables.
Its repeat settings make it a series: shifting the series moves the event to its next
occurrence. An occurrence that falls into the hour that the clocks skip is split from the
series as an event of its own.
-/

namespace HybridOs.Scheduler

/-! ## The identifiers in use -/

/-- `idcache.Id`. -/
abbrev Id := UInt16

/-- `idcache.IdCache`. -/
abbrev IdCache := Finset Id

/-- The random source: the identifiers that it will give. -/
abbrev RandomSrc := ℕ → Id

/-- The random draws of `GenerateId`, up to a number of tries. -/
def drawId (cache : IdCache) : ℕ → RandomSrc → Option Id × RandomSrc
  | 0, src => (none, src)
  | tries + 1, src =>
    if src 0 ∈ cache then drawId cache tries (fun n => src (n + 1))
    else (some (src 0), fun n => src (n + 1))

/-- The search of `GenerateId` through all identifiers. -/
def searchId (cache : IdCache) : Option Id :=
  ((List.range 65536).map UInt16.ofNat).find? (· ∉ cache)

/-- `GenerateId`, without adding the identifier to the cache. No identifier is left for a
full cache. -/
def generateId (cache : IdCache) (src : RandomSrc) : Option Id × RandomSrc :=
  match drawId cache 1000 src with
  | (some id, src) => (some id, src)
  | (none, src) => (searchId cache, src)

variable {cache : IdCache} {src : RandomSrc} {id : Id}

/-- A random draw is not in the cache. -/
theorem drawId_notMem {tries : ℕ} {src' : RandomSrc} (h : drawId cache tries src = (some id, src')) :
    id ∉ cache := by
  induction tries generalizing src with
  | zero => simp [drawId] at h
  | succ tries ih =>
    rw [drawId] at h
    split_ifs at h with hmem
    · exact ih h
    · rw [Prod.mk.injEq, Option.some.injEq] at h
      exact h.1 ▸ hmem

/-- A new identifier is not in the cache. -/
theorem generateId_notMem {src' : RandomSrc} (h : generateId cache src = (some id, src')) :
    id ∉ cache := by
  rw [generateId] at h
  split at h
  next drawn _ hdraw =>
    rw [Prod.mk.injEq, Option.some.injEq] at h
    exact h.1 ▸ drawId_notMem hdraw
  next =>
    rw [Prod.mk.injEq] at h
    have hfound := List.find?_some h.1
    exact of_decide_eq_true hfound

/-- An identifier is found unless all are in the cache. -/
theorem generateId_isSome (h : id ∉ cache) :
    ∃ new src', generateId cache src = (some new, src') := by
  rw [generateId]
  split
  next drawn src' _ => exact ⟨drawn, src', rfl⟩
  next src' _ =>
    have hmem : id ∈ (List.range 65536).map UInt16.ofNat := by
      refine List.mem_map.mpr ⟨id.toNat, List.mem_range.mpr id.toNat_lt, ?_⟩
      simp
    have hfound : (searchId cache).isSome := by
      rw [searchId, List.find?_isSome]
      exact ⟨id, hmem, by simpa using h⟩
    have hnew := Option.isSome_iff_exists.mp hfound
    exact ⟨hnew.choose, src', by rw [← hnew.choose_spec]⟩

/-! ## Repeat settings -/

/-- The cycles of a series. -/
inductive Cycle where
  /-- `DailyRepeat`. -/
  | daily
  /-- `WeeklyRepeat`. -/
  | weekly
  /-- Any other text. -/
  | other (text : String)
  deriving DecidableEq, Repr

/-- `events.Series`. -/
structure Series where
  id : Id
  cycle : Cycle
  /-- Sunday is the highest of the seven low bits, Saturday the lowest. -/
  dayMask : UInt8
  /-- Minus one for a series without end, zero where the end time decides, else the number
  of occurrences left. -/
  endCount : ℤ
  endTime : Time
  exceptions : List Time
  frequency : UInt64

/-- The location of universal time. -/
def utc : Location := ⟨fun _ => 0⟩

/-- `DefaultSeriesEndTime`: the first of January 2000. -/
def defaultSeriesEndTime : Time := ⟨10957 * day, utc⟩

/-- `EveryDayMask`. -/
def everyDayMask : UInt8 := 127

/-- `Sunday`. -/
def sunday : UInt8 := 64

/-- `NewNonRepeatingSeries`. -/
def newNonRepeatingSeries : Series where
  id := 0
  cycle := .daily
  dayMask := everyDayMask
  endCount := 1
  endTime := defaultSeriesEndTime
  exceptions := []
  frequency := 1

/-- `weekdayEnumToMask`. -/
def weekdayEnumToMask (weekday : ℕ) : UInt8 := sunday >>> UInt8.ofNat weekday

/-- The days up to the next set day of the same week, in at most as many steps as a byte has
bits. The day found is zero at the end of the week. -/
def daysThisWeek (dayMask : UInt8) : ℕ → UInt8 → UInt64 → UInt8 × UInt64
  | 0, weekday, days => (weekday, days)
  | bits + 1, weekday, days =>
    if weekday = 0 then (weekday, days)
    else if weekday >>> 1 &&& dayMask ≠ 0 then (weekday >>> 1, days + 1)
    else daysThisWeek dayMask bits (weekday >>> 1) (days + 1)

/-- The days from Sunday to the first set day of a week, or to the given day. -/
def daysNextWeek (dayMask current : UInt8) : ℕ → UInt8 → UInt64 → UInt64
  | 0, _, days => days
  | bits + 1, weekday, days =>
    if weekday = current ∨ weekday &&& dayMask ≠ 0 then days
    else daysNextWeek dayMask current bits (weekday >>> 1) (days + 1)

namespace Series

/-- `isInfiniteSeries`. -/
def isInfiniteSeries (ser : Series) : Bool := ser.endCount < 0

/-- `isFiniteSeries`. -/
def isFiniteSeries (ser : Series) : Bool := 0 ≤ ser.endCount

/-- `hasException`. -/
def hasException (ser : Series) (timestamp : Time) : Bool :=
  ser.exceptions.any (·.equal timestamp)

/-- `sortExceptions`, on the list. -/
def sortExceptions (exceptions : List Time) : List Time :=
  exceptions.insertionSort fun a b => a.instant ≤ b.instant

/-- `addException`. -/
def addException (ser : Series) (newException : Time) : Series :=
  if ser.hasException newException then ser
  else { ser with exceptions := sortExceptions (ser.exceptions ++ [newException]) }

/-- `deleteException`. -/
def deleteException (ser : Series) (timestamp : Time) : Series :=
  { ser with exceptions := ser.exceptions.eraseP (timestamp.equal ·) }

/-- `DeleteExceptionsBefore`, and whether it deleted any. -/
def deleteExceptionsBefore (ser : Series) (referenceTime : Time) : Series × Bool :=
  let newStartingIndex := ser.exceptions.countP (·.before referenceTime)
  ({ ser with exceptions := ser.exceptions.drop newStartingIndex }, newStartingIndex ≠ 0)

/-- `validateExceptions`. -/
def validateExceptions (ser : Series) (startTime : Time) : Series :=
  ser.exceptions.foldl (fun ser exception =>
    let alignedException := applyNewDateToTime exception startTime
    if alignedException.before startTime then ser else ser.addException alignedException)
    { ser with exceptions := [] }

/-- `updateSeriesEnd`, and whether the series is over. -/
def updateSeriesEnd (ser : Series) (nextStartTime : Time) : Series × Bool :=
  if ser.isInfiniteSeries then (ser, false)
  else if 0 < ser.endCount then
    ({ ser with endCount := ser.endCount - 1 }, ser.endCount - 1 = 0)
  else (ser, nextStartTime.after ser.endTime)

/-- `calculateDaysUntilNextOccurrence`. -/
def calculateDaysUntilNextOccurrence (ser : Series) (lastOccurrenceWeekday : ℕ) : UInt64 :=
  match ser.cycle with
  | .daily => ser.frequency
  | .weekly =>
    if ser.dayMask = 0 then 0
    else
      let currentWeekday := weekdayEnumToMask lastOccurrenceWeekday
      match daysThisWeek ser.dayMask 8 currentWeekday 0 with
      | (nextWeekday, days) =>
        (if nextWeekday = 0 then daysNextWeek ser.dayMask currentWeekday 8 sunday days
          else days) + (ser.frequency - 1) * 7
  | .other _ => 0

end Series

/-! ## Events -/

/-- The values of an event's variables. -/
abbrev VariableMap := AList fun _ : String => GoValue

/-- `events.Event`. -/
structure Event where
  id : Id
  startTime : Time
  /-- In minutes. -/
  duration : UInt64
  /-- The identifier of a mode. -/
  mode : String
  variableMap : VariableMap
  /-- `Repeat`. -/
  repeatSettings : Series

namespace Event

/-- `TimeDuration`. -/
def timeDuration (e : Event) : ℤ := wrapInt64 (e.duration.toNat * minute)

/-- The instant at which the event ends. -/
def endTime (e : Event) : Time := e.startTime.add e.timeDuration

/-- `HasException`. -/
def hasException (e : Event) (timestamp : Time) : Bool := e.repeatSettings.hasException timestamp

/-- `IsDone`. -/
def isDone (e : Event) (now : ℤ) : Bool := e.endTime.instant < now

/-- `PassedStartTime`. -/
def passedStartTime (e : Event) (now : ℤ) : Bool := e.startTime.instant + minute ≤ now

/-- `ReadyToStart`. -/
def readyToStart (e : Event) (now : ℤ) : Bool := e.startTime.instant ≤ now

/-- `HasOneOfStartTimes`. -/
def hasOneOfStartTimes (e : Event) (startTimes : List Time) : Bool :=
  startTimes.any (e.startTime.equal ·)

/-- The event on its own, not repeating. -/
def oneOff (e : Event) : Event := { e with repeatSettings := newNonRepeatingSeries }

/-- The event under a new identifier, also in its repeat settings. -/
def withId (e : Event) (id : Id) : Event :=
  { e with id := id, repeatSettings := { e.repeatSettings with id := id } }

variable (e : Event)

/-- What shifting a series gives. -/
structure Shift where
  /-- The series at its next occurrence. -/
  series : Event
  /-- The occurrence in the skipped hour, split from the series. -/
  springForwardEvent : Option Event
  seriesOver : Bool

/-- The occurrence of a series in the skipped hour, as an event of its own. An exception of
the series at that time becomes its own. -/
def splitSpringForward (e : Event) (nextStartTime : Time) : Event :=
  let split := { e.oneOff with startTime := nextStartTime }
  if e.hasException nextStartTime then
    { split with repeatSettings := split.repeatSettings.addException nextStartTime }
  else split

/-- The series from which an occurrence in the skipped hour has been split. -/
def withoutSpringForward (e : Event) (nextStartTime : Time) : Event :=
  if e.hasException nextStartTime then
    { e with repeatSettings := e.repeatSettings.deleteException nextStartTime }
  else e

/-- The days from the event's start to its next occurrence. -/
def daysUntilNextOccurrence (e : Event) : UInt64 :=
  e.repeatSettings.calculateDaysUntilNextOccurrence e.startTime.weekday

/-- The start of the next occurrence, which has another hour where the clocks skip it. -/
def nextStartTime (e : Event) : Time :=
  applyNewDateToTime (getMidnightInNDays e.daysUntilNextOccurrence.toInt64.toInt e.startTime)
    e.startTime

/-- `ShiftSeries`. -/
def shiftSeries (e : Event) : Shift :=
  if e.nextStartTime.hourOfDay ≠ e.startTime.hourOfDay then
    let springForwardEvent := e.splitSpringForward e.nextStartTime
    let series := e.withoutSpringForward e.nextStartTime
    match series.repeatSettings.updateSeriesEnd e.nextStartTime with
    | (repeatSettings, true) =>
      ⟨{ series with repeatSettings := repeatSettings }, some springForwardEvent, true⟩
    | (repeatSettings, false) =>
      let days := e.daysUntilNextOccurrence +
        repeatSettings.calculateDaysUntilNextOccurrence e.nextStartTime.weekday
      let midnightBeforeNext := getMidnightInNDays days.toInt64.toInt e.startTime
      let startTime := timeDate midnightBeforeNext.date e.startTime.clock e.startTime.loc
      match repeatSettings.updateSeriesEnd startTime with
      | (repeatSettings, seriesOver) =>
        ⟨{ series with startTime := startTime, repeatSettings := repeatSettings },
          some springForwardEvent, seriesOver⟩
  else
    match e.repeatSettings.updateSeriesEnd e.nextStartTime with
    | (repeatSettings, seriesOver) =>
      ⟨{ e with startTime := e.nextStartTime, repeatSettings := repeatSettings }, none,
        seriesOver⟩

/-- Splitting an occurrence from a series changes its start and repeat settings only. -/
theorem splitSpringForward_eq (t : Time) :
    ∃ repeatSettings, e.splitSpringForward t = { e with startTime := t, repeatSettings } := by
  rw [splitSpringForward]
  split_ifs <;> exact ⟨_, rfl⟩

/-- Taking an occurrence out of a series changes its repeat settings only. -/
theorem withoutSpringForward_eq (t : Time) :
    ∃ repeatSettings, e.withoutSpringForward t = { e with repeatSettings } := by
  rw [withoutSpringForward]
  split_ifs <;> exact ⟨_, rfl⟩

/-- Shifting a series changes its start and repeat settings only. -/
theorem shiftSeries_series_eq :
    ∃ startTime repeatSettings, e.shiftSeries.series = { e with startTime, repeatSettings } := by
  unfold shiftSeries
  dsimp only
  split_ifs
  · obtain ⟨repeatSettings, heq⟩ := e.withoutSpringForward_eq e.nextStartTime
    rw [heq]
    split <;> exact ⟨_, _, rfl⟩
  · exact ⟨_, _, rfl⟩

/-- An occurrence that shifting splits from a series differs from it in its start and repeat
settings only. -/
theorem shiftSeries_springForwardEvent_eq {e split : Event}
    (h : e.shiftSeries.springForwardEvent = some split) :
    ∃ startTime repeatSettings, split = { e with startTime, repeatSettings } := by
  unfold shiftSeries at h
  dsimp only at h
  split_ifs at h
  · have hsplit : e.splitSpringForward e.nextStartTime = split := by
      split at h <;> exact Option.some.inj h
    obtain ⟨repeatSettings, heq⟩ := e.splitSpringForward_eq e.nextStartTime
    exact ⟨_, _, hsplit ▸ heq⟩

end Event

/-!
## Setpoints

A mode lists the setpoints for which each of its events gives a value. A setpoint names the
type of that value; a setpoint with a template stands for one setpoint of each asset of a
batch.
-/

/-- The types of a setpoint. -/
inductive VarType where
  | float | int | bool | string
  /-- Any other text. -/
  | other (text : String)
  deriving DecidableEq, Repr

/-- `setpoint.Setpoint`. -/
structure Setpoint where
  id : String
  name : String
  unit : String
  uri : String
  varType : VarType
  value : GoValue
  isTemplate : Bool
  batchPrefix : String
  /-- The assets of the batch, where they are given. -/
  batchRange : Option (List GoValue)
  /-- The default assets of the batch, where they are given. -/
  batchValue : Option (List GoValue)
  deriving Repr

namespace Setpoint

/-- The errors of a setpoint's validation. -/
inductive SetpointError where
  /-- A value that is not of the named type. -/
  | wrongType (varType : VarType)
  | invalidType (text : String)
  | missingTemplateVariable
  | emptyBatch
  | invalidRange (text : String)
  | unsupportedBatchType
  | duplicateId (id : String)
  deriving DecidableEq, Repr

/-- The pieces of a text between two dots in a row. -/
def splitRange : List Char → List Char → List (List Char)
  | [], piece => [piece.reverse]
  | '.' :: '.' :: rest, piece => piece.reverse :: splitRange rest []
  | c :: rest, piece => splitRange rest (c :: piece)

/-- The value of a text of decimal digits. -/
def digitsValue (text : List Char) : Option ℕ :=
  if text ≠ [] ∧ text.all Char.isDigit then
    some (text.foldl (fun value c => 10 * value + (c.toNat - 48)) 0)
  else none

/-- `strconv.Atoi` accepts the text. -/
def atoiAccepts (text : List Char) : Bool :=
  match text with
  | '-' :: digits => (digitsValue digits).any (· ≤ 2 ^ 63)
  | '+' :: digits => (digitsValue digits).any (· < 2 ^ 63)
  | digits => (digitsValue digits).any (· < 2 ^ 63)

/-- `validateRange` accepts the text. -/
def validateRange (rangedVar : String) : Bool :=
  match splitRange rangedVar.toList [] with
  | [first, last] =>
    !first.contains '.' && !last.contains '.' && atoiAccepts first && atoiAccepts last
  | _ => false

/-- `checkForTemplatedVariables`. -/
def checkForTemplatedVariables (sp : Setpoint) : Except SetpointError Unit :=
  match sp.batchValue, sp.batchRange with
  | some batchValue, some batchRange =>
    if sp.batchPrefix = "" ∨ sp.isTemplate = false then .error .missingTemplateVariable
    else if batchValue = [] ∨ batchRange = [] then .error .emptyBatch
    else .ok ()
  | _, _ => .error .missingTemplateVariable

/-- The check of one entry of a batch. -/
def validateBatchEntry : GoValue → Except SetpointError Unit
  | .int _ => .ok ()
  | .float64 _ => .ok ()
  | .string text => if validateRange text then .ok () else .error (.invalidRange text)
  | _ => .error .unsupportedBatchType

/-- `validateTemplatingIfPresent`. With a batch value, too, it is the range that is
checked. -/
def validateTemplatingIfPresent (sp : Setpoint) : Except SetpointError Unit := do
  if sp.isTemplate then sp.checkForTemplatedVariables
  if sp.batchRange.isSome then
    sp.checkForTemplatedVariables
    (sp.batchRange.getD []).forM validateBatchEntry
  if sp.batchValue.isSome then
    sp.checkForTemplatedVariables
    (sp.batchRange.getD []).forM validateBatchEntry

/-- `Setpoint.Validate`, which casts the value of an integer. -/
def validate (sp : Setpoint) : Except SetpointError Setpoint := do
  let checked ← match sp.varType, sp.value with
    | .float, .float64 _ => .ok sp
    | .int, value =>
      match value.castToInt with
      | some n => .ok { sp with value := .int n }
      | none => .error (.wrongType .int)
    | .bool, .bool _ => .ok sp
    | .string, .string _ => .ok sp
    | .other text, _ => .error (.invalidType text)
    | varType, _ => .error (.wrongType varType)
  checked.validateTemplatingIfPresent
  return checked

end Setpoint

/-! ## Lists of setpoints -/

/-- `setpoint.List`. -/
abbrev SetpointList := List Setpoint

namespace SetpointList

/-- `Find`, as the setpoint found. -/
def find (list : SetpointList) (id : String) : Option Setpoint := list.find? (id = ·.id)

/-- `List.Validate`: the setpoints are validated in copies, so a cast value is not kept. -/
def validate (list : SetpointList) : Except Setpoint.SetpointError Unit :=
  go [] list
where
  /-- Validate the rest of the list, after setpoints of the given identifiers. -/
  go (idSet : List String) : SetpointList → Except Setpoint.SetpointError Unit
    | [] => .ok ()
    | sp :: rest =>
      if sp.id ∈ idSet then .error (.duplicateId sp.id)
      else do
        let _ ← sp.validate
        go (sp.id :: idSet) rest

/-- `Append`. -/
def append (list : SetpointList) (newSetpoint : Setpoint) :
    Except Setpoint.SetpointError SetpointList :=
  if list.any (·.id = newSetpoint.id) then .error (.duplicateId newSetpoint.id)
  else .ok (list ++ [newSetpoint])

/-- `IsMissingSetpointsThatAreIn`. -/
def isMissingSetpointsThatAreIn (existingList diffList : SetpointList) : Bool :=
  diffList.any fun sp => (existingList.find sp.id).isNone

/-- `Delete`. -/
def delete (list : SetpointList) (id : String) : SetpointList := list.eraseP (id = ·.id)

/-- The identifiers, in order. -/
def ids (list : SetpointList) : List String := list.map (·.id)

end SetpointList

/-!
## Validation of events

Every edit of a schedule validates all events that the schedule will hold. Validation brings
an event's start into the location of the schedule, checks its variables against its mode,
casts the values of integers and completes the repeat settings.
-/

/-- The errors of the validation of repeat settings. -/
inductive SeriesError where
  | invalidCycle (text : String)
  | emptyDayMask
  | zeroFrequency
  | invalidEndCount
  | endTimeNotAfterStartTime
  deriving DecidableEq, Repr

/-- The errors of the validation of an event. -/
inductive EventError where
  | nilPointer
  | timeZoneNil
  | invalidDuration
  | modeNotFound (mode : String)
  | variableCount
  /-- The value of a variable with its own batch is not a Boolean. -/
  | badValue
  /-- The batch of a variable is not a slice. -/
  | badBatchValue
  /-- The value of a variable is missing or not of the type of its setpoint. -/
  | badVariable (id : String) (varType : VarType)
  | invalidRepeat (err : SeriesError)
  deriving DecidableEq, Repr

namespace Series

/-- The day mask with the eighth bit lowered. -/
def maskDays (ser : Series) : Series := { ser with dayMask := ser.dayMask &&& everyDayMask }

/-- `Series.validate`. -/
def validate (ser : Series) (startTime : Time) : Except SeriesError Series := do
  match ser.cycle with
  | .other text => throw (.invalidCycle text)
  | _ => pure ()
  let ser := ser.maskDays
  if ser.dayMask = 0 ∧ ser.cycle = .weekly then throw .emptyDayMask
  let ser := if ser.dayMask = 0 then { ser with dayMask := everyDayMask } else ser
  let ser := ser.validateExceptions startTime
  if ser.frequency = 0 then throw .zeroFrequency
  if ser.endCount < -1 then throw .invalidEndCount
  if ser.endCount ≠ 0 then return { ser with endTime := defaultSeriesEndTime }
  if !ser.endTime.after startTime then throw .endTimeNotAfterStartTime
  return ser

end Series

namespace Event

/-- `validateDuration`. -/
def validateDuration (dur : ℤ) : Except EventError Unit :=
  if 24 * hour ≤ dur then .error .invalidDuration else .ok ()

/-- The check of the value of one of the mode's variables, which casts the value of an
integer. -/
def validateVariable (variableMap : VariableMap) (modeVar : Setpoint) :
    Except EventError VariableMap :=
  match variableMap.lookup modeVar.id, modeVar.varType with
  | some (.map entries), _ =>
    match entries.lookup "value", entries.lookup "batch_value" with
    | some (.bool _), some (.slice _) => .ok variableMap
    | some (.bool _), _ => .error .badBatchValue
    | _, _ => .error .badValue
  | some (.float64 _), .float => .ok variableMap
  | some (.bool _), .bool => .ok variableMap
  | some (.string _), .string => .ok variableMap
  | some value, .int =>
    match value.castToInt with
    | some n => .ok (variableMap.insert modeVar.id (.int n))
    | none => .error (.badVariable modeVar.id .int)
  | _, .other _ => .ok variableMap
  | _, varType => .error (.badVariable modeVar.id varType)

/-- The checks of the variables of an event against its mode. -/
def validateVariables (mapOfVariables : String → Option SetpointList) (e : Event) :
    Except EventError VariableMap :=
  match mapOfVariables e.mode with
  | none => .error (.modeNotFound e.mode)
  | some modeVariables =>
    if modeVariables.length ≠ e.variableMap.entries.length then .error .variableCount
    else modeVariables.foldlM validateVariable e.variableMap

/-- `Event.Validate`. -/
def validate (timeZone : Option Location) (mapOfVariables : String → Option SetpointList)
    (e : Event) : Except EventError Event := do
  let loc ← match timeZone with
    | none => throw .timeZoneNil
    | some loc => pure loc
  let startTime := e.startTime.inLocation loc
  validateDuration e.timeDuration
  let variableMap ← e.validateVariables mapOfVariables
  let repeatSettings ← (e.repeatSettings.validate startTime).mapError .invalidRepeat
  return { e with startTime, variableMap, repeatSettings }

end Event

/-- What decoding a JSON text into an event gives. -/
structure EventInput where
  id : Id
  startTime : Time
  duration : UInt64
  mode : String
  variableMap : VariableMap
  /-- The repeat settings, where the text has them. -/
  repeatSettings : Option Series

/-- An input event without repeat settings does not repeat. -/
def EventInput.toEvent (input : EventInput) : Event where
  id := input.id
  startTime := input.startTime
  duration := input.duration
  mode := input.mode
  variableMap := input.variableMap
  repeatSettings := input.repeatSettings.getD newNonRepeatingSeries

/-- `Event.Validate` of a pointer from a decoded list. -/
def validateInput (timeZone : Option Location) (mapOfVariables : String → Option SetpointList) :
    Option EventInput → Except EventError Event
  | none => .error .nilPointer
  | some input => input.toEvent.validate timeZone mapOfVariables

/-! ## What validation keeps -/

namespace Event

/-- Validation of a variable keeps the keys. -/
theorem validateVariable_keys {variableMap variableMap' : VariableMap} {modeVar : Setpoint}
    (h : validateVariable variableMap modeVar = .ok variableMap') (key : String) :
    key ∈ variableMap' ↔ key ∈ variableMap := by
  rw [validateVariable] at h
  split at h
  · split at h <;> cases h
    exact Iff.rfl
  · cases h
    exact Iff.rfl
  · cases h
    exact Iff.rfl
  · cases h
    exact Iff.rfl
  next hvalue _ =>
    split at h
    · cases h
      rw [AList.mem_insert]
      refine or_iff_right_of_imp fun hkey => ?_
      rw [hkey, ← AList.lookup_isSome, hvalue]
      rfl
    · cases h
  · cases h
    exact Iff.rfl
  · cases h

end Event

/-!
## Overlapping events

Two events overlap when the windows of two of their occurrences do. Finite series are
expanded to their windows, series without end are compared by their frequencies and clock
times. The searches of the source need not come to an end, so each is given a number of steps
and gives nothing when it uses them up.
-/

/-- `timeWindow`. -/
structure TimeWindow where
  start : Time
  dur : ℤ

/-- `windowsOverlap`. -/
def windowsOverlap (w1 w2 : TimeWindow) : Bool :=
  w1.start.equal w2.start ||
    (w1.start.before w2.start && (w1.start.add w1.dur).after w2.start) ||
    (w2.start.before w1.start && (w2.start.add w2.dur).after w1.start)

/-- `windowOverlapsList`. -/
def windowOverlapsList (singleWindow : TimeWindow) (windowList : List TimeWindow) : Bool :=
  windowList.any (windowsOverlap singleWindow)

/-- `listOverlapsList`. -/
def listOverlapsList (wList1 wList2 : List TimeWindow) : Bool :=
  wList1.any (windowOverlapsList · wList2)

/-- A search among alternatives in order: the first hit ends it, and it does not end where an
alternative before the first hit does not. -/
def anyM {α : Type} (p : α → Option Bool) : List α → Option Bool
  | [] => some false
  | a :: rest =>
    match p a with
    | none => none
    | some true => some true
    | some false => anyM p rest

namespace Event

/-- `toTimeWindow`. -/
def toTimeWindow (e : Event) : TimeWindow := ⟨e.startTime, e.timeDuration⟩

/-- `expandFiniteSeries`. -/
def expandFiniteSeries : ℕ → Event → Option (List TimeWindow)
  | 0, _ => none
  | fuel + 1, e =>
    let here := if e.hasException e.startTime then [] else [e.toTimeWindow]
    let shift := e.shiftSeries
    let split := match shift.springForwardEvent with
      | some springForwardEvent =>
        if shift.series.hasException springForwardEvent.startTime then []
        else [springForwardEvent.toTimeWindow]
      | none => []
    if shift.seriesOver then some (here ++ split)
    else (expandFiniteSeries fuel shift.series).map (here ++ split ++ ·)

/-- `splitWeeklyByDays`, from the days that are left. -/
def splitDays : ℕ → UInt8 → Event → Option (List Event)
  | 0, _, _ => none
  | fuel + 1, dayMask, weeklySer =>
    if dayMask = 0 then some []
    else
      let daySplit := { weeklySer with
        repeatSettings := { weeklySer.repeatSettings with
          cycle := .daily
          frequency := weeklySer.repeatSettings.frequency * 7 } }
      let rest := dayMask &&& ~~~(weekdayEnumToMask weeklySer.startTime.weekday)
      (splitDays fuel rest weeklySer.shiftSeries.series).map (daySplit :: ·)

/-- `splitWeeklyByDays`. -/
def splitWeeklyByDays (fuel : ℕ) (weeklySer : Event) : Option (List Event) :=
  if weeklySer.repeatSettings.cycle ≠ .weekly then some [weeklySer]
  else splitDays fuel weeklySer.repeatSettings.dayMask weeklySer

/-- `clockTimesOverlap`. -/
def clockTimesOverlap (e1 e2 : Event) : Bool :=
  let mins (e : Event) := e.startTime.hourOfDay * 60 + e.startTime.minuteOfHour
  let dur (e : Event) := e.duration.toInt64.toInt
  let (later, earlier) := if mins e1 ≤ mins e2 then (e2, e1) else (e1, e2)
  mins later + dur later > mins earlier ||
    mins earlier + dur earlier > mins later + 24 * 60

/-- `singleWindowOverlapsInfiniteSeries`. A window in the skipped hour is not itself compared,
it is the series after it that is. -/
def singleWindowOverlapsInfiniteSeries (loneDuration : TimeWindow) : ℕ → Event → Option Bool
  | 0, _ => none
  | fuel + 1, infSeries =>
    let loneEnd := loneDuration.start.add loneDuration.dur
    if infSeries.startTime.after loneEnd then some false
    else if !infSeries.hasException infSeries.startTime &&
        windowsOverlap loneDuration infSeries.toTimeWindow then some true
    else
      let shift := infSeries.shiftSeries
      match shift.springForwardEvent with
      | some springForwardEvent =>
        if springForwardEvent.startTime.after loneEnd then some false
        else if !shift.series.hasException springForwardEvent.startTime &&
            windowsOverlap loneDuration shift.series.toTimeWindow then some true
        else singleWindowOverlapsInfiniteSeries loneDuration fuel shift.series
      | none => singleWindowOverlapsInfiniteSeries loneDuration fuel shift.series

/-- `finiteSeriesOverlapsInfiniteSeries`. -/
def finiteSeriesOverlapsInfiniteSeries (fuel : ℕ) (finSeries infSeries : Event) : Option Bool :=
  match finSeries.expandFiniteSeries fuel with
  | none => none
  | some windows => anyM (singleWindowOverlapsInfiniteSeries · fuel infSeries) windows

/-- Shift a series until it starts no earlier than another event. -/
def shiftUpTo (e : Event) : ℕ → Event → Option Event
  | 0, _ => none
  | fuel + 1, ser =>
    if ser.startTime.before e.startTime then shiftUpTo e fuel ser.shiftSeries.series else some ser

/-- Shift a series past the days that are not as long as others. -/
def shiftToNormalDay : ℕ → Event → Option Event
  | 0, _ => none
  | fuel + 1, ser =>
    if getDayLength ser.startTime ≠ day then shiftToNormalDay fuel ser.shiftSeries.series
    else some ser

/-- Shift the more frequent series past the days that are not as long as others, and the less
frequent one whenever it has been passed. With the two series goes what the last shift has
split. -/
def shiftPairToNormalDay : ℕ → Event → Event → Option Event → Option (Event × Event × Option Event)
  | 0, _, _, _ => none
  | fuel + 1, smallN, bigN, springForwardEvent =>
    if getDayLength smallN.startTime ≠ day then
      let shift := smallN.shiftSeries
      if shift.series.startTime.after bigN.startTime then
        match shiftToNormalDay fuel bigN.shiftSeries.series with
        | none => none
        | some bigN => shiftPairToNormalDay fuel shift.series bigN shift.springForwardEvent
      else shiftPairToNormalDay fuel shift.series bigN shift.springForwardEvent
    else some (smallN, bigN, springForwardEvent)

/-- The comparison of two daily series without end, one of whose frequencies divides the
other. -/
def compareDailySeries : ℕ → Event → Event → Option Event → Option Bool
  | 0, _, _, _ => none
  | fuel + 1, smallN, bigN, springForwardEvent =>
    if windowsOverlap smallN.toTimeWindow bigN.toTimeWindow then some true
    else if smallN.startTime.after bigN.startTime && springForwardEvent.isNone then some false
    else
      let passed := if smallN.startTime.after bigN.startTime then
          shiftToNormalDay fuel bigN.shiftSeries.series
        else some bigN
      match passed with
      | none => none
      | some bigN =>
        let shift := smallN.shiftSeries
        match shiftPairToNormalDay fuel shift.series bigN shift.springForwardEvent with
        | none => none
        | some (smallN, bigN, springForwardEvent) =>
          compareDailySeries fuel smallN bigN springForwardEvent

/-- `infDailyOverlapsInfDaily`. -/
def infDailyOverlapsInfDaily (fuel : ℕ) (ser1 ser2 : Event) : Option Bool :=
  let f1 := ser1.repeatSettings.frequency
  let f2 := ser2.repeatSettings.frequency
  let areMultiples := f1 % f2 = 0 ∨ f2 % f1 = 0
  if f1 ≠ f2 ∧ ¬ areMultiples then some (clockTimesOverlap ser1 ser2)
  else
    let (bigN, smallN) := if f2 > f1 then (ser2, ser1) else (ser1, ser2)
    match shiftUpTo smallN fuel bigN with
    | none => none
    | some bigN =>
      match shiftToNormalDay fuel bigN with
      | none => none
      | some bigN => compareDailySeries fuel smallN bigN none

/-- `infDailyOverlapsInfWeekly`. -/
def infDailyOverlapsInfWeekly (fuel : ℕ) (dailySer weeklySer : Event) : Option Bool :=
  match splitWeeklyByDays fuel weeklySer with
  | none => none
  | some dailySplits => anyM (infDailyOverlapsInfDaily fuel dailySer) dailySplits

/-- The comparison of two weekly series without end. -/
def infWeeklyOverlapsInfWeekly (fuel : ℕ) (e1 e2 : Event) : Option Bool :=
  match splitWeeklyByDays fuel e1, splitWeeklyByDays fuel e2 with
  | some dailySplits1, some dailySplits2 =>
    anyM (fun d1 => anyM (infDailyOverlapsInfDaily fuel d1) dailySplits2) dailySplits1
  | _, _ => none

/-- `Overlaps`. -/
def overlaps (fuel : ℕ) (e1 e2 : Event) : Option Bool :=
  if e1.repeatSettings.isFiniteSeries && e2.repeatSettings.isFiniteSeries then
    match e1.expandFiniteSeries fuel, e2.expandFiniteSeries fuel with
    | some windows1, some windows2 => some (listOverlapsList windows1 windows2)
    | _, _ => none
  else if e2.repeatSettings.isFiniteSeries then finiteSeriesOverlapsInfiniteSeries fuel e2 e1
  else if e1.repeatSettings.isFiniteSeries then finiteSeriesOverlapsInfiniteSeries fuel e1 e2
  else
    match e1.repeatSettings.cycle, e2.repeatSettings.cycle with
    | .daily, .daily => infDailyOverlapsInfDaily fuel e1 e2
    | .daily, .weekly => infDailyOverlapsInfWeekly fuel e1 e2
    | .weekly, .daily => infDailyOverlapsInfWeekly fuel e2 e1
    | .weekly, .weekly => infWeeklyOverlapsInfWeekly fuel e1 e2
    | _, _ => some true

end Event

/-!
## Lists of events

A list of events is sorted by start, then by whether the event occurs at its start, then by
duration, mode and identifier. Adding an event sorts the list anew; removing one keeps the
order of the others.
-/

/-- `eventList`. -/
abbrev EventList := List Event

/-- `eventList.Less`, on the two events. -/
def less (event1 event2 : Event) : Bool :=
  if event1.startTime.before event2.startTime then true
  else if event1.startTime.after event2.startTime then false
  else
    let event1HasException := event1.hasException event1.startTime
    let event2HasException := event2.hasException event2.startTime
    if event1HasException ≠ event2HasException then !event1HasException
    else if event1.duration ≠ event2.duration then event1.duration < event2.duration
    else if event1.mode ≠ event2.mode then event1.mode < event2.mode
    else event1.id < event2.id

/-- The second of two events does not have to be sorted before the first. -/
def NotAfter (event1 event2 : Event) : Prop := less event2 event1 = false

instance : DecidableRel NotAfter := fun _ _ => inferInstanceAs (Decidable (_ = false))

namespace EventList

/-- `sort.Sort`. -/
def sort (eList : EventList) : EventList := eList.insertionSort NotAfter

/-- `add`. -/
def add (eList : EventList) (event : Event) : EventList := sort (eList ++ [event])

/-- `addList`. -/
def addList (eList1 eList2 : EventList) : EventList := eList2.foldl add eList1

/-- `get`: the event that starts at the given time. -/
def get (eList : EventList) (t : Time) : Option Event := eList.find? (·.startTime.equal t)

/-- `getEventWithId`, as the event found. -/
def getEventWithId (eList : EventList) (id : Id) : Option Event := eList.find? (·.id = id)

/-- `deleteEventWithId`. -/
def deleteEventWithId (eList : EventList) (id : Id) : EventList := eList.eraseP (·.id = id)

/-- Change the first event that meets a condition, as writing through the pointer to it
does. -/
def modifyFirst (p : Event → Bool) (f : Event → Event) : EventList → EventList
  | [] => []
  | e :: rest => if p e then f e :: rest else e :: modifyFirst p f rest

/-- `getIdsOfEventsWithMode`. -/
def getIdsOfEventsWithMode (eList : EventList) (targetMode : String) : List Id :=
  (eList.filter (·.mode = targetMode)).map (·.id)

/-- `deleteVarOfMode`. -/
def deleteVarOfMode (eList : EventList) (varId changedMode : String) : EventList :=
  eList.map fun e =>
    if e.mode = changedMode then { e with variableMap := e.variableMap.erase varId } else e

/-- `getStartTimes`. -/
def getStartTimes (eList : EventList) : List Time := eList.map (·.startTime)

/-- `handleSpringForwardEvent`, on what is left of the list: an event that it overlaps trims
it, or rejects it. -/
def trimSpringForward (fuel : ℕ) (springForwardEvent : Event) : EventList → Option (Option Event)
  | [] => some (some springForwardEvent)
  | e :: rest =>
    match springForwardEvent.overlaps fuel e with
    | none => none
    | some false => trimSpringForward fuel springForwardEvent rest
    | some true =>
      if springForwardEvent.startTime.before e.startTime then
        let gap := e.startTime.instant - springForwardEvent.startTime.instant
        trimSpringForward fuel
          { springForwardEvent with duration := UInt64.ofInt (gap / minute) } rest
      else some none

/-- `handleSpringForwardEvent`: the list with the event, unless it had to be rejected. -/
def handleSpringForwardEvent (fuel : ℕ) (eList : EventList) (springForwardEvent : Event) :
    Option (Option EventList) :=
  (trimSpringForward fuel springForwardEvent eList).map (·.map eList.add)

/-- `hasOverlaps`. -/
def hasOverlaps (fuel : ℕ) : EventList → Option Bool
  | [] => some false
  | e1 :: rest =>
    match anyM (e1.overlaps fuel) rest with
    | none => none
    | some true => some true
    | some false => hasOverlaps fuel rest

/-- The errors of the validation of a list. -/
inductive ListError where
  | nilSlice
  | invalidEvent (err : EventError)
  | overlappingEvents
  deriving DecidableEq, Repr

/-- `validate`. -/
def validate (fuel : ℕ) (timeZone : Option Location)
    (mapOfVariables : String → Option SetpointList) (eList : EventList) :
    Option (Except ListError EventList) :=
  match eList.mapM (Event.validate timeZone mapOfVariables) with
  | .error err => some (.error (.invalidEvent err))
  | .ok eList =>
    match hasOverlaps fuel eList with
    | none => none
    | some true => some (.error .overlappingEvents)
    | some false => some (.ok (sort eList))

/-- `validate` of a decoded list, which may be nil and hold nil pointers. -/
def validateInputs (fuel : ℕ) (timeZone : Option Location)
    (mapOfVariables : String → Option SetpointList) (inputs : Option (List (Option EventInput))) :
    Option (Except ListError EventList) :=
  match inputs with
  | none => some (.error .nilSlice)
  | some inputs =>
    match inputs.mapM (validateInput timeZone mapOfVariables) with
    | .error err => some (.error (.invalidEvent err))
    | .ok eList =>
      match hasOverlaps fuel eList with
      | none => none
      | some true => some (.error .overlappingEvents)
      | some false => some (.ok (sort eList))

/-- `buildIdCache`. -/
def buildIdCache (eList : EventList) : IdCache := (eList.map (·.id)).toFinset

end EventList

/-! ## The order of a list -/

/-- What events are sorted by. -/
def sortKey (e : Event) : ℤ ×ₗ Bool ×ₗ ℕ ×ₗ String ×ₗ ℕ :=
  toLex (e.startTime.instant, toLex (e.hasException e.startTime,
    toLex (e.duration.toNat, toLex (e.mode, e.id.toNat))))

variable {event1 event2 : Event}

/-- `eventList.Less` compares the keys. -/
theorem less_iff : less event1 event2 = true ↔ sortKey event1 < sortKey event2 := by
  simp only [sortKey, Prod.Lex.toLex_lt_toLex, less]
  split_ifs with hbefore hafter hexception hduration hmode
  · exact iff_of_true rfl (.inl (Time.before_iff.mp hbefore))
  · have hlt := Time.after_iff.mp hafter
    refine iff_of_false (by simp) ?_
    omega
  all_goals
    have hstart : event1.startTime.instant = event2.startTime.instant := by
      have h1 := mt Time.before_iff.mpr hbefore
      have h2 := mt Time.after_iff.mpr hafter
      omega
    simp only [hstart]
  · revert hexception
    generalize event1.hasException event1.startTime = a
    generalize event2.hasException event2.startTime = b
    cases a <;> cases b <;> simp
  all_goals
    simp only [not_not] at hexception
    simp only [hexception, lt_irrefl, true_and, false_or]
  · have hne : event1.duration.toNat ≠ event2.duration.toNat := fun h =>
      hduration (UInt64.toNat_inj.mp h)
    simp only [decide_eq_true_iff, UInt64.lt_iff_toNat_lt, hne, false_and, or_false]
  all_goals
    simp only [not_not] at hduration
    simp only [hduration, lt_irrefl, true_and, false_or]
  · simp only [decide_eq_true_iff, hmode, false_and, or_false]
  · simp only [not_not] at hmode
    simp only [decide_eq_true_iff, hmode, lt_irrefl, true_and, false_or, UInt16.lt_iff_toNat_lt]

/-- `NotAfter` compares the keys. -/
theorem notAfter_iff : NotAfter event1 event2 ↔ sortKey event1 ≤ sortKey event2 := by
  rw [NotAfter, ← not_lt, ← less_iff, Bool.not_eq_true]

instance : Std.Total NotAfter := ⟨fun a b => by
  simp only [notAfter_iff]
  exact le_total _ _⟩

instance : IsTrans Event NotAfter := ⟨fun a b c hab hbc => by
  simp only [notAfter_iff] at *
  exact hab.trans hbc⟩

theorem NotAfter.instant_le (h : NotAfter event1 event2) :
    event1.startTime.instant ≤ event2.startTime.instant := by
  by_contra hlt
  have hbefore : event2.startTime.before event1.startTime = true :=
    Time.before_iff.mpr (by omega)
  rw [NotAfter, less, if_pos hbefore] at h
  exact absurd h (by simp)

theorem notAfter_of_instant_lt (h : event1.startTime.instant < event2.startTime.instant) :
    NotAfter event1 event2 := by
  have hbefore : event2.startTime.before event1.startTime ≠ true := fun hb => by
    have := Time.before_iff.mp hb
    omega
  rw [NotAfter, less, if_neg hbefore, if_pos (Time.after_iff.mpr h)]

namespace EventList

theorem pairwise_sort (eList : EventList) : (sort eList).Pairwise NotAfter :=
  List.pairwise_insertionSort _ eList

@[simp] theorem mem_sort {e : Event} {eList : EventList} : e ∈ sort eList ↔ e ∈ eList :=
  List.mem_insertionSort _

theorem pairwise_add (eList : EventList) (e : Event) : (eList.add e).Pairwise NotAfter :=
  pairwise_sort _

theorem perm_add (eList : EventList) (e : Event) : (eList.add e).Perm (e :: eList) :=
  (List.perm_insertionSort _ _).trans (List.perm_append_singleton e eList)

@[simp] theorem mem_add {eList : EventList} {e e' : Event} :
    e' ∈ eList.add e ↔ e' = e ∨ e' ∈ eList := by
  rw [(perm_add eList e).mem_iff, List.mem_cons]

end EventList

end HybridOs.Scheduler
