import HybridOs.CivilDate
import HybridOs.GoText
import HybridOs.SchedulerRun

/-!
# The register interface

A client of the register interface reads the first events of all schedules in slots of a
fixed shape, fills in events on a stage of the same shape and commands what becomes of them.
Sites and modes are enumerated, times are flattened to the fields of universal time, and the
values of an event go to slots of their types in the order of its mode. What is published is
built and then left out.
-/

namespace HybridOs.Scheduler

/-! ## How handlers come back -/

/-- The answers to requests of the register interface that fail. -/
inductive ScadaError where
  | invalidUri | resourceNotFound | invalidData | requestFailed
  deriving DecidableEq, Repr

/-- The text of an answer. -/
def ScadaError.text : ScadaError → String
  | .invalidUri => "Invalid URI"
  | .resourceNotFound => "Resource Not Found"
  | .invalidData => "Invalid Data"
  | .requestFailed => "Request Failed"

/-- How a handler comes back: with what it replies, with an error, or by a panic. -/
inductive Handled (α : Type) where
  | replied (a : α)
  | failed (err : ScadaError)
  | panicked

namespace Handled

variable {α β : Type}

/-- Go on with what was replied. -/
def bind : Handled α → (α → Handled β) → Handled β
  | .replied a, f => f a
  | .failed err, _ => .failed err
  | .panicked, _ => .panicked

instance : Monad Handled where
  pure := .replied
  bind := Handled.bind

@[simp] theorem pure_eq (a : α) : (pure a : Handled α) = .replied a := rfl

@[simp] theorem replied_bind (a : α) (f : α → Handled β) : (Handled.replied a >>= f) = f a := rfl

@[simp] theorem failed_bind (err : ScadaError) (f : α → Handled β) :
    (Handled.failed err >>= f) = .failed err := rfl

@[simp] theorem panicked_bind (f : α → Handled β) : (Handled.panicked >>= f) = .panicked := rfl

end Handled

/-- The element of a slice at an index. -/
def index {α : Type} (slice : List α) (i : ℤ) : Handled α :=
  if i < 0 then .panicked
  else
    match slice[i.toNat]? with
    | some a => .replied a
    | none => .panicked

/-- The slice with the element at an index replaced. -/
def assign {α : Type} (slice : List α) (i : ℤ) (a : α) : Handled (List α) :=
  if 0 ≤ i ∧ i < slice.length then .replied (slice.set i.toNat a) else .panicked

/-! ## Events of the interface -/

/-- `scadaConfiguration`. -/
structure ScadaConfiguration where
  appendCanEdit : Bool
  stageSize : ℤ
  maxNumEvents : ℤ
  numFloats : ℤ
  numInts : ℤ
  numBools : ℤ
  numStrings : ℤ

/-- `scadaConfiguration.validate`. -/
def ScadaConfiguration.validate (cfg : ScadaConfiguration) : Except String Unit :=
  if cfg.stageSize < 0 then .error "stage_size cannot be negative"
  else if cfg.maxNumEvents < 0 then .error "max_num_events cannot be negative"
  else if cfg.numFloats < 0 then .error "num_floats cannot be negative"
  else if cfg.numInts < 0 then .error "num_ints cannot be negative"
  else if cfg.numBools < 0 then .error "num_bools cannot be negative"
  else if cfg.numStrings < 0 then .error "num_strings cannot be negative"
  else .ok ()

/-- `scadaEvent`. -/
structure ScadaEvent where
  /-- The schedule that is selected, by its identifier. -/
  site : Option String
  modeId : String
  year : ℤ
  month : ℤ
  day : ℤ
  hour : ℤ
  minute : ℤ
  duration : ℤ
  repeatDaily : Bool
  floatVars : List UInt64
  intVars : List ℤ
  boolVars : List Bool
  stringVars : List String

/-- `slotStatus`. -/
inductive SlotStatus where
  | unscheduled | scheduled | active
  deriving DecidableEq, Repr

/-- The number of a status. -/
def SlotStatus.number : SlotStatus → ℤ
  | .unscheduled => 0
  | .scheduled => 1
  | .active => 2

/-- `scadaSlot`. -/
structure ScadaSlot where
  event : ScadaEvent
  status : SlotStatus

/-- What the register interface reads and writes. -/
structure ScadaState where
  config : ScadaConfiguration
  /-- `scadaSchedule`. -/
  slots : List ScadaSlot
  /-- `scadaStage`. -/
  stage : List ScadaEvent
  siteEnums : List String
  modeEnums : List String
  modes : ModeMap
  masterSchedule : AList fun _ : String => Schedule
  /-- A local schedule is configured. -/
  hasLocalSchedule : Bool

/-- What schedules are edited in. -/
def ScadaState.context (st : ScadaState) (now : ℤ) : Context where
  now := now
  mapOfVariables := st.modes.buildMapOfVariables
  hasLocalSchedule := st.hasLocalSchedule

/-- A Boolean as clients want it. -/
def scadaBool (b : Bool) : GoValue := .int (if b then 1 else 0)

/-- `scadaEvent.reset`. -/
def ScadaEvent.reset (cfg : ScadaConfiguration) : ScadaEvent where
  site := none
  modeId := ""
  year := 0
  month := 0
  day := 0
  hour := 0
  minute := 0
  duration := 0
  repeatDaily := false
  floatVars := List.replicate cfg.numFloats.toNat 0
  intVars := List.replicate cfg.numInts.toNat 0
  boolVars := List.replicate cfg.numBools.toNat false
  stringVars := List.replicate cfg.numStrings.toNat ""

/-- The next free slot of each type. -/
structure NextSlots where
  float : ℤ
  int : ℤ
  bool : ℤ
  string : ℤ

/-- The slots of an event, with the values of a mode's variables from the next free slots on,
and whether all values could be read. Those that find no slot are left out. -/
def ScadaEvent.fillVariables (cfg : ScadaConfiguration) (variableMap : VariableMap) :
    SetpointList → NextSlots → ScadaEvent → Handled (ScadaEvent × Bool)
  | [], _, eScada => .replied (eScada, true)
  | sp :: rest, next, eScada =>
    match variableMap.lookup sp.id with
    | none => .replied (eScada, false)
    | some (.map _) => .replied (ScadaEvent.reset cfg, false)
    | some val =>
      match sp.varType, val with
      | .float, .float64 valFloat =>
        if next.float < cfg.numFloats then do
          let floatVars ← assign eScada.floatVars next.float valFloat
          fillVariables cfg variableMap rest { next with float := next.float + 1 }
            { eScada with floatVars }
        else fillVariables cfg variableMap rest next eScada
      | .int, .int valInt =>
        if next.int < cfg.numInts then do
          let intVars ← assign eScada.intVars next.int valInt
          fillVariables cfg variableMap rest { next with int := next.int + 1 }
            { eScada with intVars }
        else fillVariables cfg variableMap rest next eScada
      | .bool, .bool valBool =>
        if next.bool < cfg.numBools then do
          let boolVars ← assign eScada.boolVars next.bool valBool
          fillVariables cfg variableMap rest { next with bool := next.bool + 1 }
            { eScada with boolVars }
        else fillVariables cfg variableMap rest next eScada
      | .string, .string valString =>
        if next.string < cfg.numStrings then do
          let stringVars ← assign eScada.stringVars next.string valString
          fillVariables cfg variableMap rest { next with string := next.string + 1 }
            { eScada with stringVars }
        else fillVariables cfg variableMap rest next eScada
      | .other _, _ => fillVariables cfg variableMap rest next eScada
      | _, _ => .replied (ScadaEvent.reset cfg, false)

/-- The fields that an event takes from the time, the duration and the series of an event of a
schedule. -/
def ScadaEvent.flatten (cfg : ScadaConfiguration) (e : Event) (site : String) : ScadaEvent :=
  let startTimeUtc := e.startTime.inLocation utc
  { ScadaEvent.reset cfg with
    site := some site
    modeId := e.mode
    year := CivilDate.yearOf startTimeUtc.date
    month := CivilDate.monthOf startTimeUtc.date
    day := CivilDate.dayOf startTimeUtc.date
    hour := startTimeUtc.hourOfDay
    minute := startTimeUtc.minuteOfHour
    duration := e.duration.toInt64.toInt
    repeatDaily := e.repeatSettings.endCount = -1 }

/-- `fillWithData`, and whether it succeeds. -/
def ScadaEvent.fillWithData (cfg : ScadaConfiguration) (modes : ModeMap) (e : Event)
    (site : String) : Handled (ScadaEvent × Bool) :=
  match modes.lookup e.mode with
  | none => .replied (ScadaEvent.flatten cfg e site, false)
  | some mode =>
    ScadaEvent.fillVariables cfg e.variableMap mode.modeVariables ⟨0, 0, 0, 0⟩
      (ScadaEvent.flatten cfg e site)

/-- The entries of an object for the slots of one type. -/
def buildVars {α : Type} (name : String) (slots : List α) (num : ℤ) (value : α → GoValue) :
    Handled (List (String × GoValue)) :=
  (List.range num.toNat).mapM' fun j : ℕ => do
    let a ← index slots (j : ℤ)
    return (name ++ "_" ++ toString (j + 1), value a)

/-- The number of an identifier among the enumerated ones. -/
def enumNumber (enums : List String) (id : String) : ℤ :=
  match enums.idxOf? id with
  | some number => number
  | none => -1

/-- The entries of `scadaEvent.buildObj`. -/
def ScadaEvent.buildEntries (st : ScadaState) (e : ScadaEvent) :
    Handled (List (String × GoValue)) := do
  let floats ← buildVars "float" e.floatVars st.config.numFloats .float64
  let ints ← buildVars "int" e.intVars st.config.numInts .int
  let bools ← buildVars "bool" e.boolVars st.config.numBools scadaBool
  let strings ← buildVars "string" e.stringVars st.config.numStrings .string
  return [("site", .int (e.site.elim (-1) (enumNumber st.siteEnums))),
    ("mode", .int (enumNumber st.modeEnums e.modeId)), ("year", .int e.year),
    ("month", .int e.month), ("day", .int e.day), ("hour", .int e.hour),
    ("minute", .int e.minute), ("duration", .int e.duration),
    ("repeat_daily", scadaBool e.repeatDaily)] ++ floats ++ ints ++ bools ++ strings

/-- `scadaEvent.buildObj`. -/
def ScadaEvent.buildObj (st : ScadaState) (e : ScadaEvent) : Handled GoValue := do
  return .map (← e.buildEntries st)

/-- `scadaSlot.buildObj`. -/
def ScadaSlot.buildObj (st : ScadaState) (slot : ScadaSlot) : Handled GoValue := do
  let eventReg ← slot.event.buildEntries st
  return .map (eventReg ++ [("status", .int slot.status.number)])

/-! ## Reading -/

/-- `strconv.Atoi`. -/
def atoi (text : List Char) : Option ℤ :=
  match text with
  | '-' :: digits => ((Setpoint.digitsValue digits).filter (· ≤ 2 ^ 63)).map fun n => -(n : ℤ)
  | '+' :: digits => ((Setpoint.digitsValue digits).filter (· < 2 ^ 63)).map fun n => (n : ℤ)
  | digits => ((Setpoint.digitsValue digits).filter (· < 2 ^ 63)).map fun n => (n : ℤ)

/-- The value of one of the slots of a type. -/
def readVar {α : Type} (slots : List α) (i : ℤ) (value : α → GoValue) : Handled GoValue :=
  if slots.length < i then .failed .invalidUri
  else do return value (← index slots i)

/-- A GET of the value in a slot, by the type and the number of the slot. -/
def ScadaEvent.handleGetVar (e : ScadaEvent) (endpoint : String) : Handled GoValue :=
  match GoText.split ['_'] endpoint.toList with
  | [typeName, idText] =>
    match atoi idText with
    | none => .failed .invalidUri
    | some id =>
      if id < 1 then .failed .invalidUri
      else if typeName = "float".toList then readVar e.floatVars (id - 1) .float64
      else if typeName = "int".toList then readVar e.intVars (id - 1) .int
      else if typeName = "bool".toList then readVar e.boolVars (id - 1) scadaBool
      else if typeName = "string".toList then readVar e.stringVars (id - 1) .string
      else .failed .invalidUri
  | _ => .failed .invalidUri

/-- The number of an identifier, for a reply. -/
def replyEnum (enums : List String) (id : String) : Handled GoValue :=
  match enums.idxOf? id with
  | some number => .replied (.int number)
  | none => .failed .resourceNotFound

/-- `scadaEvent.handleGet`. -/
def ScadaEvent.handleGet (st : ScadaState) (e : ScadaEvent) (endpoint : String) :
    Handled GoValue :=
  match endpoint with
  | "site" =>
    match e.site with
    | none => .replied (.int (-1))
    | some site => replyEnum st.siteEnums site
  | "mode" => if e.modeId = "" then .replied (.int (-1)) else replyEnum st.modeEnums e.modeId
  | "year" => .replied (.int e.year)
  | "month" => .replied (.int e.month)
  | "day" => .replied (.int e.day)
  | "hour" => .replied (.int e.hour)
  | "minute" => .replied (.int e.minute)
  | "duration" => .replied (.int e.duration)
  | "repeat_daily" => .replied (scadaBool e.repeatDaily)
  | _ => e.handleGetVar endpoint

/-- `scadaSlot.handleGet`. -/
def ScadaSlot.handleGet (st : ScadaState) (slot : ScadaSlot) (endpoint : String) :
    Handled GoValue :=
  if endpoint = "status" then .replied (.int slot.status.number)
  else slot.event.handleGet st endpoint

/-- `scadaSlotList.buildObj`. -/
def ScadaState.buildSlots (st : ScadaState) : Handled GoValue := do
  let body ← (List.range st.config.maxNumEvents.toNat).mapM' fun i : ℕ => do
    let slot ← index st.slots (i : ℤ)
    slot.buildObj st
  return .slice body

/-- `buildScadaStage`. -/
def ScadaState.buildScadaStage (st : ScadaState) : Handled GoValue := do
  let obj ← match st.stage with
    | [eScada] => eScada.buildEntries st
    | stage => stage.zipIdx.mapM' fun staged : ScadaEvent × ℕ => do
        return ("event_" ++ toString (staged.2 + 1), ← staged.1.buildObj st)
  return .map (obj ++ [("command", .int 0)])

/-- `buildScadaObject`. -/
def ScadaState.buildScadaObject (st : ScadaState) : Handled GoValue := do
  let slots ← st.buildSlots
  let stage ← st.buildScadaStage
  return .map [("schedule", slots), ("stage", stage)]

/-- `parseEventIndex`. -/
def parseEventIndex (eventFrag : String) : Option ℤ :=
  if "event_".toList <+: eventFrag.toList ∧ 7 ≤ eventFrag.toList.length then
    atoi (eventFrag.toList.drop 6)
  else none

/-- `handleScadaReadGet`. -/
def ScadaState.handleScadaReadGet (st : ScadaState) (frags : List String) : Handled GoValue :=
  if frags.length < 4 then st.buildSlots
  else do
    match parseEventIndex (← index frags 3) with
    | none => .failed .invalidUri
    | some eventIndex =>
      if eventIndex < 0 then .failed .invalidUri
      else if st.slots.length ≤ eventIndex then .failed .invalidUri
      else do
        let eScada ← index st.slots eventIndex
        if frags.length = 4 then eScada.buildObj st
        else eScada.handleGet st (← index frags 4)

/-- `handleScadaWriteGet`. -/
def ScadaState.handleScadaWriteGet (st : ScadaState) (frags : List String) : Handled GoValue :=
  if frags.length = 3 then st.buildScadaStage
  else do
    let frag ← index frags 3
    if frag = "command" then .replied (.int 0)
    else if st.stage.length = 1 then do (← index st.stage 0).handleGet st frag
    else
      match parseEventIndex frag with
      | none => .failed .invalidUri
      | some eventIndex =>
        if eventIndex < 0 then .failed .invalidUri
        else if st.stage.length ≤ eventIndex then .failed .invalidUri
        else do
          let eScada ← index st.stage eventIndex
          if frags.length = 4 then eScada.buildObj st
          else eScada.handleGet st (← index frags 4)

/-- `handleScadaGet`, by the fragments of the address. -/
def ScadaState.handleScadaGet (st : ScadaState) (frags : List String) : Handled GoValue :=
  if frags.length < 3 then st.buildScadaObject
  else do
    let area ← index frags 2
    if area = "read" then st.handleScadaReadGet frags
    else if area = "write" then st.handleScadaWriteGet frags
    else .failed .invalidUri

/-!
## The stage of the register interface

A SET writes a register of an event on the stage, or commands what becomes of the stage: its
events are appended to their schedules, replace these, or name the events to be deleted, or
the stage is loaded from the event at its start. After each edit the slots are filled anew.
-/

/-! ## Filling the slots -/

/-- The events that the slots are for, by site. -/
def ScadaState.listed (st : ScadaState) : List (Event × String × SlotStatus) :=
  st.siteEnums.flatMap fun siteId =>
    match st.masterSchedule.lookup siteId with
    | none => []
    | some site =>
      site.activeEvent.toList.map (·, siteId, .active) ++
        site.scheduledEvents.map (·, siteId, .scheduled)

/-- Insert events from a slot on, and reset the slots after them. -/
def fillFrom (st : ScadaState) :
    List (Event × String × SlotStatus) → ℕ → List ScadaSlot → Handled (List ScadaSlot)
  | [], eventIndex, slots =>
    .replied (slots.take eventIndex ++
      (slots.drop eventIndex).map fun _ => ⟨ScadaEvent.reset st.config, .unscheduled⟩)
  | (e, siteId, status) :: rest, eventIndex, slots => do
    let filled ← ScadaEvent.fillWithData st.config st.modes e siteId
    let slots ← assign slots eventIndex ⟨filled.1, status⟩
    fillFrom st rest (eventIndex + 1) slots

/-- `scadaSlotList.fill`. -/
def ScadaState.fill (st : ScadaState) : Handled (List ScadaSlot) :=
  fillFrom st (st.listed.take st.config.maxNumEvents.toNat) 0 st.slots

/-- `updateScadaRegs`. -/
def ScadaState.updateScadaRegs (st : ScadaState) : Handled ScadaState := do
  let slots ← st.fill
  let st := { st with slots }
  let _ ← slots.mapM' (ScadaSlot.buildObj st)
  return st

/-- `refreshSiteEnums`. -/
def ScadaState.refreshSiteEnums (st : ScadaState) : ScadaState :=
  { st with siteEnums := st.masterSchedule.keys.insertionSort (· ≤ ·) }

/-- `reconfigureScadaInterface`, up to the update of the slots. -/
def ScadaState.allocate (st : ScadaState) (newCfg : ScadaConfiguration) : ScadaState :=
  { st with
    config := newCfg
    slots := List.replicate newCfg.maxNumEvents.toNat ⟨ScadaEvent.reset newCfg, .unscheduled⟩
    stage := List.replicate newCfg.stageSize.toNat (ScadaEvent.reset newCfg) }

/-- `reconfigureScadaInterface`. -/
def ScadaState.reconfigureScadaInterface (st : ScadaState) (newCfg : ScadaConfiguration) :
    Handled ScadaState := (st.allocate newCfg).updateScadaRegs

/-- `pubScadaStage`. -/
def ScadaState.pubScadaStage (st : ScadaState) : Handled Unit := do
  let _ ← st.buildScadaStage
  if st.config.stageSize = 1 then return ()
  else do
    let _ ← st.stage.mapM' (ScadaEvent.buildObj st)
    return ()

/-! ## Writing registers -/

/-- `parsemap.UnwrapVariable`. -/
def unwrapVariable (obj : GoValue) : GoValue :=
  match obj with
  | .map entries =>
    match entries.lookup "value" with
    | some v => v
    | none => obj
  | _ => obj

/-- `parseScadaBool`. -/
def parseScadaBool (value : GoValue) : Option Bool := value.castToInt.map fun n => n ≠ 0

/-- The slots of a type with a value written to the one of a number, if the value is of the
type. -/
def writeVar {α : Type} (slots : List α) (num setpointNumber : ℤ) (value : Option α) :
    Handled (List α) :=
  if num < setpointNumber then .failed .requestFailed
  else
    match value with
    | none => .failed .requestFailed
    | some value => assign slots (setpointNumber - 1) value

/-- A value that is a number, as its bits. -/
def asFloat : GoValue → Option UInt64
  | .float64 bits => some bits
  | _ => none

/-- A value that is a text. -/
def asString : GoValue → Option String
  | .string s => some s
  | _ => none

/-- A SET of the value in a slot, by the type and the number of the slot, and the reply. -/
def ScadaEvent.setVar (cfg : ScadaConfiguration) (eScada : ScadaEvent) (typeName : List Char)
    (setpointNumber : ℤ) (value : GoValue) : Handled (ScadaEvent × GoValue) :=
  if typeName = "float".toList then do
    let floatVars ← writeVar eScada.floatVars cfg.numFloats setpointNumber (asFloat value)
    return ({ eScada with floatVars }, value)
  else if typeName = "int".toList then do
    let intVars ← writeVar eScada.intVars cfg.numInts setpointNumber
      ((asFloat value).map GoValue.floatToInt)
    return ({ eScada with intVars }, value)
  else if typeName = "bool".toList then do
    let boolVars ← writeVar eScada.boolVars cfg.numBools setpointNumber (parseScadaBool value)
    return ({ eScada with boolVars }, scadaBool ((parseScadaBool value).getD false))
  else if typeName = "string".toList then do
    let stringVars ← writeVar eScada.stringVars cfg.numStrings setpointNumber (asString value)
    return ({ eScada with stringVars }, value)
  else .failed .requestFailed

/-- A SET of one of the registers that hold an integer. -/
def ScadaEvent.setRegister (st : ScadaState) (eScada : ScadaEvent) (varId : String) (value : ℤ) :
    Handled ScadaEvent :=
  match varId with
  | "site" =>
    if value < -1 ∨ st.siteEnums.length ≤ value then .failed .requestFailed
    else if value = -1 then .replied { eScada with site := none }
    else do
      let scheduleId ← index st.siteEnums value
      if (st.masterSchedule.lookup scheduleId).isSome then
        return { eScada with site := some scheduleId }
      else .failed .requestFailed
  | "year" => .replied { eScada with year := value }
  | "month" => .replied { eScada with month := value }
  | "day" => .replied { eScada with day := value }
  | "hour" => .replied { eScada with hour := value }
  | "minute" => .replied { eScada with minute := value }
  | "duration" => .replied { eScada with duration := value }
  | "mode" =>
    if value < st.modeEnums.length then do
      let modeId ← index st.modeEnums value
      return { eScada with modeId }
    else .failed .requestFailed
  | _ => .replied eScada

/-- `setVariable`, and the reply. -/
def ScadaEvent.setVariable (st : ScadaState) (eScada : ScadaEvent) (varId : String)
    (body : GoValue) : Handled (ScadaEvent × GoValue) :=
  let value := unwrapVariable body
  if varId = "repeat_daily" then
    match parseScadaBool value with
    | none => .failed .requestFailed
    | some repeatDaily => .replied ({ eScada with repeatDaily }, scadaBool repeatDaily)
  else
    match GoText.split ['_'] varId.toList with
    | [typeName, numberText] =>
      match atoi numberText with
      | none => .failed .requestFailed
      | some setpointNumber =>
        if setpointNumber < 1 then .failed .requestFailed
        else eScada.setVar st.config typeName setpointNumber value
    | _ =>
      match value.castToInt with
      | none => .failed .requestFailed
      | some n => do
        let eScada ← eScada.setRegister st varId n
        return (eScada, .int n)

/-! ## Events from the stage -/

/-- `getEventTime`, in the time zone of the selected schedule. A time cannot be taken to a
missing time zone. -/
def ScadaEvent.getEventTime (eScada : ScadaEvent) (timezone : Option Location) : Handled Time :=
  match timezone with
  | none => .panicked
  | some loc =>
    let startTimeUtc := timeDate (CivilDate.dateOf eScada.year eScada.month eScada.day)
      (eScada.hour * Scheduler.hour + eScada.minute * Scheduler.minute) utc
    .replied (startTimeUtc.inLocation loc)

/-- `CreateEvent`, for a duration that is a product of minutes, wrapped or not: its float of
minutes is never rounded up to a whole minute. -/
def createEvent (startTime : Time) (duration : ℤ) (mode : String) : Event where
  id := 0
  startTime := startTime
  duration := UInt64.ofInt (duration.tdiv minute)
  mode := mode
  variableMap := ∅
  repeatSettings := newNonRepeatingSeries

/-- The values that a mode's variables take from their slots, unless there are too few. -/
def ScadaEvent.convertVariables (cfg : ScadaConfiguration) (eScada : ScadaEvent) :
    SetpointList → NextSlots → VariableMap → Handled (Option VariableMap)
  | [], _, variableMap => .replied (some variableMap)
  | sp :: rest, next, variableMap =>
    match sp.varType with
    | .float =>
      if cfg.numFloats ≤ next.float then .replied none
      else do
        let value ← index eScada.floatVars next.float
        convertVariables cfg eScada rest { next with float := next.float + 1 }
          (variableMap.insert sp.id (.float64 value))
    | .int =>
      if cfg.numInts ≤ next.int then .replied none
      else do
        let value ← index eScada.intVars next.int
        convertVariables cfg eScada rest { next with int := next.int + 1 }
          (variableMap.insert sp.id (.int value))
    | .bool =>
      if cfg.numBools ≤ next.bool then .replied none
      else do
        let value ← index eScada.boolVars next.bool
        convertVariables cfg eScada rest { next with bool := next.bool + 1 }
          (variableMap.insert sp.id (.bool value))
    | .string =>
      if cfg.numStrings ≤ next.string then .replied none
      else do
        let value ← index eScada.stringVars next.string
        convertVariables cfg eScada rest { next with string := next.string + 1 }
          (variableMap.insert sp.id (.string value))
    | .other _ => convertVariables cfg eScada rest next variableMap

/-- The time zone of a schedule. -/
def ScadaState.timezoneOf (st : ScadaState) (siteId : String) : Option Location :=
  (st.masterSchedule.lookup siteId).bind (·.timezone)

/-- The event with a schedule selected, by default the given one. -/
def ScadaEvent.selectSite (eScada : ScadaEvent) (defaultSchedule : Option String) : ScadaEvent :=
  match eScada.site with
  | some _ => eScada
  | none => { eScada with site := defaultSchedule }

/-- `convertToEvent`, for an event with its schedule selected as far as it can be. Nothing
stands for an error. -/
def ScadaEvent.convertToEvent (st : ScadaState) (eScada : ScadaEvent) : Handled (Option Event) :=
  match eScada.site, st.modes.lookup eScada.modeId with
  | some siteId, some m => do
    let startTime ← eScada.getEventTime (st.timezoneOf siteId)
    let eNew := createEvent startTime (wrapInt64 (eScada.duration * Scheduler.minute)) eScada.modeId
    let eNew := if eScada.repeatDaily then
        { eNew with repeatSettings := { eNew.repeatSettings with endCount := -1 } }
      else eNew
    let variableMap ← eScada.convertVariables st.config m.modeVariables ⟨0, 0, 0, 0⟩
      eNew.variableMap
    return variableMap.map fun variableMap => { eNew with variableMap }
  | _, _ => .replied none

/-! ## Commands -/

/-- How the staged events change their schedules. -/
inductive EditingMethod where
  | append | overwrite | delete
  deriving DecidableEq, Repr

/-- `getIdsOfEventsWithStartTimes`. -/
def Schedule.getIdsOfEventsWithStartTimes (sched : Schedule) (startTimes : List Time) : List Id :=
  ((sched.expiredEvents ++ sched.scheduledEvents ++ sched.activeEvent.toList).filter
    (·.hasOneOfStartTimes startTimes)).map (·.id)

/-- The edit of a schedule by its staged events. -/
def editSchedule (ctx : Context) (fuel : ℕ) (appendCanEdit : Bool) (method : EditingMethod)
    (inputEventList : EventList) (proc : Process) : Process.Result EditError :=
  match method with
  | .overwrite => proc.handleFullScheduleSet ctx fuel inputEventList
  | .append =>
    if appendCanEdit then proc.handleFullSchedulePatch ctx fuel inputEventList
    else proc.handleFullSchedulePost ctx fuel inputEventList
  | .delete =>
    proc.deleteMultipleEvents ctx fuel
      (some (proc.schedule.getIdsOfEventsWithStartTimes inputEventList.getStartTimes))

/-- The staged events by schedule, and the stage with their schedules selected. -/
def ScadaState.convertStage (st : ScadaState) (onlySchedule : Option String) :
    List ScadaEvent → (AList fun _ : String => EventList) →
    List ScadaEvent × Handled (AList fun _ : String => EventList)
  | [], eLists => ([], .replied eLists)
  | eScada :: rest, eLists =>
    let eScada := eScada.selectSite onlySchedule
    match eScada.convertToEvent st with
    | .replied (some eNew) =>
      let siteId := eScada.site.getD ""
      let eList := ((eLists.lookup siteId).getD []).add eNew
      let converted := st.convertStage onlySchedule rest (eLists.insert siteId eList)
      (eScada :: converted.1, converted.2)
    | .replied none | .failed _ =>
      let converted := st.convertStage onlySchedule rest eLists
      (eScada :: converted.1, converted.2)
    | .panicked => (eScada :: rest, .panicked)

/-- Put a schedule back that was edited. -/
def ScadaState.setSchedule (st : ScadaState) (siteId : String) (sched : Schedule) : ScadaState :=
  { st with masterSchedule := st.masterSchedule.insert siteId sched }

/-- The edits of the schedules of a map, in any order. An edit that succeeds refreshes the
interface. -/
def ScadaState.editSchedules (now : ℤ) (fuel : ℕ) (method : EditingMethod) :
    List (Sigma fun _ : String => EventList) → ScadaState → Option (ScadaState × Handled Unit)
  | [], st => some (st, .replied ())
  | ⟨siteId, inputEventList⟩ :: rest, st =>
    match st.masterSchedule.lookup siteId with
    | none => st.editSchedules now fuel method rest
    | some sched =>
      match editSchedule (st.context now) fuel st.config.appendCanEdit method inputEventList
          ⟨sched, now⟩ with
      | none => none
      | some (proc, .panicked) => some (st.setSchedule siteId proc.schedule, .panicked)
      | some (proc, .done (.error _)) =>
        (st.setSchedule siteId proc.schedule).editSchedules now fuel method rest
      | some (proc, .done (.ok ())) =>
        match (st.setSchedule siteId proc.schedule).refreshSiteEnums.updateScadaRegs with
        | .replied st => st.editSchedules now fuel method rest
        | _ => some (st.setSchedule siteId proc.schedule, .panicked)

/-- `clearStage`. -/
def ScadaState.clearStage (st : ScadaState) : ScadaState × Handled Unit :=
  let st := { st with stage := st.stage.map fun _ => ScadaEvent.reset st.config }
  (st, st.pubScadaStage)

/-- The only schedule of the map, if it has just one. -/
def ScadaState.onlySchedule (st : ScadaState) : Option String :=
  match st.masterSchedule.keys with
  | [siteId] => some siteId
  | _ => none

/-- `scadaEdit`. -/
def ScadaState.scadaEdit (now : ℤ) (fuel : ℕ) (method : EditingMethod) (st : ScadaState) :
    Option (ScadaState × Handled Unit) :=
  match st.convertStage st.onlySchedule st.stage ∅ with
  | (stage, .replied eLists) =>
    match ({ st with stage } : ScadaState).editSchedules now fuel method eLists.entries with
    | some (st, .replied ()) => some st.clearStage
    | result => result
  | (stage, _) => some ({ st with stage }, .panicked)

/-- The event that the stage is to be loaded from. -/
def Schedule.eventAt (sched : Schedule) (startTime : Time) : Option Event :=
  match sched.activeEvent with
  | some e => if e.startTime.equal startTime then some e else sched.scheduledEvents.get startTime
  | none => sched.scheduledEvents.get startTime

/-- `loadStage`. -/
def ScadaState.loadStage (st : ScadaState) : ScadaState × Handled Unit :=
  match st.stage with
  | [] => (st, .failed .resourceNotFound)
  | [staged] =>
    match staged.site with
    | none => (st, .failed .resourceNotFound)
    | some siteId =>
      match staged.getEventTime (st.timezoneOf siteId) with
      | .replied startTime =>
        match (st.masterSchedule.lookup siteId).bind (·.eventAt startTime) with
        | none => (st, .failed .resourceNotFound)
        | some e =>
          match ScadaEvent.fillWithData st.config st.modes e siteId with
          | .replied (filled, true) =>
            let st := { st with stage := [filled] }
            (st, st.pubScadaStage)
          | .replied (filled, false) => ({ st with stage := [filled] }, .failed .resourceNotFound)
          | _ => (st, .panicked)
      | _ => (st, .panicked)
  | _ => (st, .failed .invalidUri)

/-- The state with the schedule of a site cleared. -/
def ScadaState.clearSchedule (st : ScadaState) (siteId : String) : ScadaState :=
  match st.masterSchedule.lookup siteId with
  | some sched => st.setSchedule siteId sched.clear
  | none => st

/-- `clearMasterSchedule`. -/
def ScadaState.clearMasterSchedule (st : ScadaState) : ScadaState × Handled Unit :=
  let cleared := st.masterSchedule.keys.foldl ScadaState.clearSchedule st
  match cleared.refreshSiteEnums.updateScadaRegs with
  | .replied st => (st, .replied ())
  | _ => (cleared, .panicked)

/-- `commandScada`. -/
def ScadaState.commandScada (now : ℤ) (fuel : ℕ) (command : ℤ) (st : ScadaState) :
    Option (ScadaState × Handled Unit) :=
  if command = 0 then some (st, .replied ())
  else if command = 1 then st.scadaEdit now fuel .append
  else if command = 2 then st.scadaEdit now fuel .overwrite
  else if command = 3 then some st.loadStage
  else if command = 4 then st.scadaEdit now fuel .delete
  else if command = 5 then some st.clearStage
  else if command = 6 then some st.clearMasterSchedule
  else some (st, .failed .invalidUri)

/-- A message of the register interface. -/
structure ScadaMsg where
  uri : String
  /-- The fragments of the address. -/
  frags : List String
  body : GoValue

/-- The reply to a command that succeeded. -/
def commandReply : Option (ScadaState × Handled Unit) → Option (ScadaState × Handled GoValue)
  | none => none
  | some (st, .replied ()) => some (st, .replied (.string "Success"))
  | some (st, .failed err) => some (st, .failed err)
  | some (st, .panicked) => some (st, .panicked)

/-- A SET of a register of the staged event of an index. -/
def ScadaState.setStaged (st : ScadaState) (eventIndex : ℤ) (varId : String) (body : GoValue) :
    ScadaState × Handled GoValue :=
  match index st.stage eventIndex with
  | .replied staged =>
    match staged.setVariable st varId body with
    | .replied (staged, replyObj) =>
      ({ st with stage := st.stage.set eventIndex.toNat staged }, .replied replyObj)
    | .failed err => (st, .failed err)
    | .panicked => (st, .panicked)
  | _ => (st, .panicked)

/-- A SET to the stage: of the event that the fourth fragment names, or of the only one. -/
def ScadaState.editStage (st : ScadaState) (msg : ScadaMsg) (frag : String) :
    ScadaState × Handled GoValue :=
  if msg.frags.length = 5 then
    if st.stage.length = 1 then (st, .failed .invalidUri)
    else
      match GoText.split ['_'] frag.toList with
      | [_, numberText] =>
        match atoi numberText with
        | none => (st, .failed .invalidUri)
        | some eventIndex =>
          if eventIndex < 0 then (st, .failed .invalidUri)
          else if st.stage.length ≤ eventIndex then (st, .failed .invalidUri)
          else
            match index msg.frags 4 with
            | .replied varId => st.setStaged eventIndex varId msg.body
            | _ => (st, .panicked)
      | _ => (st, .failed .invalidUri)
  else if msg.frags.length ≠ 4 then (st, .failed .invalidUri)
  else if st.stage.length < 1 then (st, .failed .invalidUri)
  else st.setStaged 0 frag msg.body

/-- The publication of the stage when a SET to it comes back. -/
def publishStage (edited : ScadaState × Handled GoValue) : ScadaState × Handled GoValue :=
  match edited.1.pubScadaStage with
  | .panicked => (edited.1, .panicked)
  | _ => edited

/-- `handleScadaSet`. -/
def ScadaState.handleScadaSet (now : ℤ) (fuel : ℕ) (msg : ScadaMsg) (st : ScadaState) :
    Option (ScadaState × Handled GoValue) :=
  if "/scheduler/scada/write".toList <+: msg.uri.toList then
    match index msg.frags 3 with
    | .replied frag =>
      if frag = "command" then
        match (unwrapVariable msg.body).castToInt with
        | none => some (st, .failed .invalidData)
        | some command => commandReply (st.commandScada now fuel command)
      else some (publishStage (st.editStage msg frag))
    | _ => some (st, .panicked)
  else some (st, .failed .invalidUri)

end HybridOs.Scheduler
