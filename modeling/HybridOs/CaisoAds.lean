import HybridOs.CheckedRun
import HybridOs.GoValue
import Mathlib.Data.List.Basic

/-!
# Dispatches of an ISO

A packet names a batch, a start time and a command. Its event goes to the scheduler of the one
site of the fleet. The feature keeps the batch and the start time, and answers queries with the
batch unless it is older than a day.
-/

namespace HybridOs.CaisoAds

/-- A `time.Time`: nanoseconds since some time, and the offset of its zone. -/
structure Time where
  nanoseconds : ℤ
  offset : ℤ
  deriving DecidableEq, Repr

/-- `time.Hour`. -/
def hour : ℤ := 3600 * 10 ^ 9

/-- `caisoAdsId`. -/
def caisoAdsId : String := "caiso_ads"

/-- `caisoAdsFeature`. -/
structure CaisoAdsFeature where
  schedulerMode : String
  commandId : String
  adsOnFlagId : String
  eventDurationMinutes : Int64
  lastId : String
  lastStartTime : Time

/-- What `CreateEvent` is given, and the variables of the event. -/
structure Event where
  startTime : Time
  /-- In nanoseconds. -/
  duration : Int64
  mode : String
  vars : List (String × GoValue)

/-- `AddVariable`. -/
def Event.addVariable (event : Event) (id : String) (value : GoValue) : Event :=
  { event with vars := event.vars.filter (fun entry => entry.1 ≠ id) ++ [(id, value)] }

/-- A FIMS message that is received, as far as the feature reads it. -/
structure FimsMsg where
  replyto : String
  body : GoValue

/-- A FIMS message that is sent. -/
inductive Sent where
  | set (uri : String) (body : GoValue)
  | post (uri replyto : String) (events : List Event)
  | backup (uri replyto : String) (feature : CaisoAdsFeature)

/-- What a packet meets: the sites of the fleet, and what sending its event returns. -/
structure World where
  fleet : List String
  sendAndVerify : Except String Unit

/-- What handling a packet returns, the feature after it and the messages that are sent. -/
structure Handled where
  result : Except String Unit
  caiso : CaisoAdsFeature
  sent : List Sent

/-! ## Extracting values -/

/-- The format `%T`. -/
def typeName : GoValue → String
  | .nil => "<nil>"
  | .float64 _ => "float64"
  | .int _ => "int"
  | .bool _ => "bool"
  | .string _ => "string"
  | .slice _ => "[]interface {}"
  | .map _ => "map[string]interface {}"

/-- `ExtractValueWithType`, for a type with its name and its type assertion. -/
def extractValueWithType {α : Type} (name : String) (assert : GoValue → Option α)
    (m : List (String × GoValue)) (k : String) : Except String α :=
  match m.lookup k with
  | none => .error ("key " ++ k ++ " not found in map")
  | some .nil => .error ("value associated with key " ++ k ++ " is nil")
  | some v =>
    match assert v with
    | some typedV => .ok typedV
    | none =>
      .error ("key " ++ k ++ " does not map to " ++ name ++ ". Instead, maps to type " ++ typeName v)

/-- The type assertion to a `string`. -/
def asString : GoValue → Option String
  | .string s => some s
  | _ => none

/-- The type assertion to a `float64`. -/
def asFloat64 : GoValue → Option UInt64
  | .float64 bits => some bits
  | _ => none

/-- The type assertion to a `map[string]interface{}`. -/
def asMap : GoValue → Option (List (String × GoValue))
  | .map entries => some entries
  | _ => none

/-- `ExtractValueWithType` with `STRING`. -/
def extractString : List (String × GoValue) → String → Except String String :=
  extractValueWithType "string" asString

/-- `ExtractValueWithType` with `FLOAT64`. -/
def extractFloat64 : List (String × GoValue) → String → Except String UInt64 :=
  extractValueWithType "float64" asFloat64

/-- `ExtractValueWithType` with `MAP_STRING_INTERFACE`. -/
def extractMap : List (String × GoValue) → String → Except String (List (String × GoValue)) :=
  extractValueWithType "map[string]interface{}" asMap

/-! ## Packets -/

namespace CaisoAdsFeature

/-- `scheduleAdsEvent`: what it returns, and the messages that it sends. -/
def scheduleAdsEvent (caiso : CaisoAdsFeature) (startTime : Time) (command : UInt64)
    (world : World) : Except String Unit × List Sent :=
  match world.fleet with
  | [site] =>
    let event := Event.mk startTime (caiso.eventDurationMinutes * 60000000000) caiso.schedulerMode []
    let event := event.addVariable caiso.commandId (.float64 command)
    let event := event.addVariable caiso.adsOnFlagId (.bool false)
    match world.sendAndVerify with
    | .ok () =>
      (.ok (), [.post ("/scheduler/" ++ site)
        ("/fleet/features/" ++ caisoAdsId ++ "/event_verification") [event]])
    | .error err => (.error ("failed sending CAISO event to scheduler: " ++ err), [])
  | sites =>
    (.error ("scheduleAdsEvent called, but it requires exactly 1 site in the fleet. There are " ++
      toString sites.length ++ " sites in the fleet"), [])

/-- `backupToDbi`. -/
def backupToDbi (caiso : CaisoAdsFeature) : Sent :=
  .backup ("/dbi/fleet_manager/features/features/" ++ caisoAdsId)
    ("/fleet/features/" ++ caisoAdsId ++ "/latest_batch_verification") caiso

/-- The part of `handleCaisoAdsPacket` that schedules a command. -/
def handleCommand (caiso : CaisoAdsFeature) (startTime : Time) (command : UInt64)
    (world : World) : Handled :=
  match caiso.scheduleAdsEvent startTime command world with
  | (.error err, sent) => ⟨.error ("failed to schedule ADS event: " ++ err), caiso, sent⟩
  | (.ok (), sent) => ⟨.ok (), caiso, sent ++ [caiso.backupToDbi]⟩

/-- The part of `handleCaisoAdsPacket` after the start time. -/
def handleData (caiso : CaisoAdsFeature) (varMap : List (String × GoValue)) (startTime : Time)
    (world : World) : Handled :=
  match extractMap varMap "data" with
  | .error err =>
    ⟨.error ("failed to extract washer data map from CAISO ADS packet: " ++ err), caiso, []⟩
  | .ok dataMap =>
    match extractFloat64 dataMap caiso.commandId with
    | .error err =>
      ⟨.error ("failed to extract " ++ caiso.commandId ++ " from CAISO ADS packet: " ++ err), caiso,
        []⟩
    | .ok command => caiso.handleCommand startTime command world

/-- The part of `handleCaisoAdsPacket` after the batch. -/
def handleStartTime (parseTime : String → Except String Time) (caiso : CaisoAdsFeature)
    (varMap : List (String × GoValue)) (world : World) : Handled :=
  match extractString varMap "start_time" with
  | .error err =>
    ⟨.error ("failed to extract start time from CAISO ADS packet: " ++ err), caiso, []⟩
  | .ok text =>
    match parseTime text with
    | .error err => ⟨.error err, caiso, []⟩
    | .ok startTime =>
      { caiso with lastStartTime := startTime }.handleData varMap startTime world

/-- The part of `handleCaisoAdsPacket` for a map of variables. -/
def handleVariables (parseTime : String → Except String Time) (caiso : CaisoAdsFeature)
    (varMap : List (String × GoValue)) (world : World) : Handled :=
  match extractString varMap "id" with
  | .error err => ⟨.error ("failed to extract id from CAISO ADS packet: " ++ err), caiso, []⟩
  | .ok batchId => { caiso with lastId := batchId }.handleStartTime parseTime varMap world

/-- `handleCaisoAdsPacket`. A packet with a URI to reply to is acknowledged and nothing else. -/
def handleCaisoAdsPacket (parseTime : String → Except String Time) (caiso : CaisoAdsFeature)
    (msg : FimsMsg) (world : World) : Handled :=
  if msg.replyto ≠ "" then ⟨.ok (), caiso, [.set msg.replyto (.bool true)]⟩
  else
    match msg.body with
    | .map varMap => caiso.handleVariables parseTime varMap world
    | body =>
      ⟨.error ("expected FIMS msg body to be type map[string]interface{}. Type of received FIMS msg " ++
        "body is " ++ typeName body), caiso, []⟩

/-- `sendLatestBatchResponse`: the feature after it, and the message that it sends. -/
def sendLatestBatchResponse (caiso : CaisoAdsFeature) (uri : String) (now : Time) :
    CaisoAdsFeature × Sent :=
  let caiso := if now.nanoseconds - caiso.lastStartTime.nanoseconds > hour * 24 then
    { caiso with lastId := "-1" } else caiso
  (caiso, .set uri (.string caiso.lastId))

end CaisoAdsFeature

/-! ## What a packet says -/

section Packets

variable (parseTime : String → Except String Time)

/-- The start time in the variables of a packet. -/
def startTimeIn (varMap : List (String × GoValue)) : Option Time :=
  (extractString varMap "start_time").toOption.bind fun text => (parseTime text).toOption

/-- The command in the variables of a packet. -/
def commandIn (commandId : String) (varMap : List (String × GoValue)) : Option UInt64 :=
  (extractMap varMap "data").toOption.bind fun dataMap =>
    (extractFloat64 dataMap commandId).toOption

/-- The variables of a packet. -/
def variablesOf : GoValue → Option (List (String × GoValue))
  | .map varMap => some varMap
  | _ => none

/-- The batch of a packet. -/
def batchOf (body : GoValue) : Option String :=
  (variablesOf body).bind fun varMap => (extractString varMap "id").toOption

/-- The start time of a packet that names a batch. -/
def startTimeOf (body : GoValue) : Option Time :=
  (batchOf body).bind fun _ => (variablesOf body).bind (startTimeIn parseTime)

/-- Whether all fields of a packet are there, with their types. -/
def Valid (commandId : String) (body : GoValue) : Prop :=
  (batchOf body).isSome ∧ (startTimeOf parseTime body).isSome ∧
    ((variablesOf body).bind (commandIn commandId)).isSome

/-- Whether an event can be scheduled: the fleet has one site, and sending succeeds. -/
def World.Schedules (world : World) : Prop := world.fleet.length = 1 ∧ world.sendAndVerify = .ok ()

/-- Whether a message goes to the scheduler. -/
def Sent.isPost : Sent → Bool
  | .post _ _ _ => true
  | _ => false

/-- How many events are posted. -/
def Handled.posts (handled : Handled) : ℕ := (handled.sent.filter Sent.isPost).length

variable {parseTime} {caiso : CaisoAdsFeature} {world : World}

open CaisoAdsFeature

/-- What handling the rest of a packet comes to: it posts an event and succeeds, or does neither. -/
structure Handled.Completes (handled : Handled) (completes : Prop) : Prop where
  posts : completes → handled.result = .ok () ∧ handled.posts = 1
  fails : ¬ completes → (∃ err, handled.result = .error err) ∧ handled.posts = 0

theorem completes_of_error {handled : Handled} {err : String} {completes : Prop}
    (h : handled.result = .error err) (hsent : handled.sent = []) (hnot : ¬ completes) :
    handled.Completes completes :=
  ⟨fun hcompletes => absurd hcompletes hnot, fun _ => ⟨⟨err, h⟩, by rw [Handled.posts, hsent]; rfl⟩⟩

theorem Handled.Completes.congr {handled : Handled} {completes completes' : Prop}
    (h : handled.Completes completes) (hiff : completes ↔ completes') :
    handled.Completes completes' :=
  ⟨fun hcompletes => h.posts (hiff.mpr hcompletes), fun hnot => h.fails (mt hiff.mp hnot)⟩

variable (varMap : List (String × GoValue)) (startTime : Time)

theorem handleCommand_completes (command : UInt64) :
    (caiso.handleCommand startTime command world).Completes world.Schedules := by
  obtain ⟨fleet, sendAndVerify⟩ := world
  match fleet, sendAndVerify with
  | [], _ => exact completes_of_error rfl rfl fun h => absurd h.1 (by simp)
  | [_], .error _ => exact completes_of_error rfl rfl fun h => nomatch h.2
  | [_], .ok () => exact ⟨fun _ => ⟨rfl, rfl⟩, fun h => absurd ⟨rfl, rfl⟩ h⟩
  | _ :: _ :: _, _ => exact completes_of_error rfl rfl fun h => absurd h.1 (by simp)

theorem handleCommand_caiso (command : UInt64) :
    (caiso.handleCommand startTime command world).caiso = caiso := by
  rw [handleCommand]
  split <;> rfl

theorem handleData_completes :
    (caiso.handleData varMap startTime world).Completes
      ((commandIn caiso.commandId varMap).isSome ∧ world.Schedules) := by
  rw [handleData, commandIn]
  cases extractMap varMap "data" with
  | error err => exact completes_of_error rfl rfl fun h => absurd h.1 Bool.false_ne_true
  | ok dataMap =>
    dsimp only [Except.toOption, Option.bind_some]
    cases extractFloat64 dataMap caiso.commandId with
    | error err => exact completes_of_error rfl rfl fun h => absurd h.1 Bool.false_ne_true
    | ok command => exact (handleCommand_completes startTime command).congr (by simp)

theorem handleData_caiso : (caiso.handleData varMap startTime world).caiso = caiso := by
  rw [handleData]
  split
  · rfl
  · split
    · rfl
    · exact handleCommand_caiso startTime _

theorem handleStartTime_completes :
    (caiso.handleStartTime parseTime varMap world).Completes
      ((startTimeIn parseTime varMap).isSome ∧ (commandIn caiso.commandId varMap).isSome ∧
        world.Schedules) := by
  rw [handleStartTime, startTimeIn]
  cases extractString varMap "start_time" with
  | error err => exact completes_of_error rfl rfl fun h => absurd h.1 Bool.false_ne_true
  | ok text =>
    dsimp only [Except.toOption, Option.bind_some]
    cases parseTime text with
    | error err => exact completes_of_error rfl rfl fun h => absurd h.1 Bool.false_ne_true
    | ok startTime => exact (handleData_completes varMap startTime).congr (by simp)

/-- The start time is kept as soon as it is parsed. -/
theorem handleStartTime_caiso :
    (caiso.handleStartTime parseTime varMap world).caiso =
      { caiso with lastStartTime := (startTimeIn parseTime varMap).getD caiso.lastStartTime } := by
  rw [handleStartTime, startTimeIn]
  cases extractString varMap "start_time" with
  | error err => rfl
  | ok text =>
    dsimp only [Except.toOption, Option.bind_some]
    cases parseTime text with
    | error err => rfl
    | ok startTime => exact handleData_caiso varMap startTime

variable {msg : FimsMsg}

/-- Whether a packet is valid and its event can be scheduled. -/
def FimsMsg.Completes (parseTime : String → Except String Time) (caiso : CaisoAdsFeature)
    (msg : FimsMsg) (world : World) : Prop :=
  Valid parseTime caiso.commandId msg.body ∧ world.Schedules

/-- A packet without a URI to reply to posts one event and succeeds, or posts none and fails. -/
theorem handleCaisoAdsPacket_completes (parseTime : String → Except String Time)
    (caiso : CaisoAdsFeature) (world : World) (hreplyto : msg.replyto = "") :
    (caiso.handleCaisoAdsPacket parseTime msg world).Completes
      (msg.Completes parseTime caiso world) := by
  obtain ⟨replyto, body⟩ := msg
  rw [handleCaisoAdsPacket, if_neg (not_not.mpr hreplyto), FimsMsg.Completes, Valid, startTimeOf,
    batchOf]
  cases body with
  | map varMap =>
    dsimp only [variablesOf, Option.bind_some]
    rw [handleVariables]
    cases extractString varMap "id" with
    | error err => exact completes_of_error rfl rfl fun h => absurd h.1.1 Bool.false_ne_true
    | ok batchId =>
      exact (handleStartTime_completes varMap).congr (by simp [Except.toOption, and_assoc])
  | _ => exact completes_of_error rfl rfl fun h => absurd h.1.1 Bool.false_ne_true

/-- The batch and the start time of a packet without a URI to reply to are kept as soon as they are
read. -/
theorem handleCaisoAdsPacket_caiso (parseTime : String → Except String Time)
    (caiso : CaisoAdsFeature) (world : World) (hreplyto : msg.replyto = "") :
    (caiso.handleCaisoAdsPacket parseTime msg world).caiso =
      { caiso with
        lastId := (batchOf msg.body).getD caiso.lastId
        lastStartTime := (startTimeOf parseTime msg.body).getD caiso.lastStartTime } := by
  obtain ⟨replyto, body⟩ := msg
  rw [handleCaisoAdsPacket, if_neg (not_not.mpr hreplyto), startTimeOf, batchOf]
  cases body with
  | map varMap =>
    dsimp only [variablesOf, Option.bind_some]
    rw [handleVariables]
    cases extractString varMap "id" with
    | error err => rfl
    | ok batchId => exact handleStartTime_caiso varMap
  | _ => rfl

end Packets

/-!
## Packets and queries over runs

The batch that the feature keeps is the last one whose event was posted, as long as no packet is
acknowledged instead of handled, and no packet fails after its batch is read.
-/

/-- What the feature is asked to do. -/
inductive Request where
  | packet (msg : FimsMsg) (world : World)
  /-- A query for the latest batch, with the URI to reply to. -/
  | query (uri : String) (now : Time)

/-- The feature in a run, with the last batch whose event was posted. -/
structure Served where
  caiso : CaisoAdsFeature
  posted : Option String

/-- The feature as it is configured: the batch that it has was posted, unless it is the reserved
one. -/
def CaisoAdsFeature.served (caiso : CaisoAdsFeature) : Served where
  caiso := caiso
  posted := if caiso.lastId = "-1" then none else some caiso.lastId

section Runs

variable (parseTime : String → Except String Time)

/-- One request. -/
def step (served : Served) : Request → Except Unit Served
  | .packet msg world =>
    let handled := served.caiso.handleCaisoAdsPacket parseTime msg world
    .ok ⟨handled.caiso, if 0 < handled.posts then batchOf msg.body else served.posted⟩
  | .query uri now => .ok ⟨(served.caiso.sendLatestBatchResponse uri now).1, served.posted⟩

/-- Whether a request is served right: a packet that ends in an error leaves the batch and the
start time, a valid packet whose event can be scheduled posts one event, and a query is answered
with the reserved batch or the last one that was posted. -/
def Right (served : Served) : Request → Prop
  | .packet msg world =>
    let handled := served.caiso.handleCaisoAdsPacket parseTime msg world
    (∀ err, handled.result = .error err → handled.caiso.lastId = served.caiso.lastId ∧
      handled.caiso.lastStartTime = served.caiso.lastStartTime) ∧
    (msg.Completes parseTime served.caiso world → handled.posts = 1)
  | .query uri now =>
    ∃ id, (served.caiso.sendLatestBatchResponse uri now).2 = .set uri (.string id) ∧
      (id = "-1" ∨ served.posted = some id)

/-- Whether a packet is harmless: with a URI to reply to, its event could not be posted anyway;
without one, it is valid and its event can be scheduled, or the batch and the start time that it
names are those that the feature has. -/
def Careful (served : Served) : Request → Prop
  | .packet msg world =>
    if msg.replyto ≠ "" then ¬ msg.Completes parseTime served.caiso world
    else msg.Completes parseTime served.caiso world ∨
      (∀ batchId ∈ batchOf msg.body, batchId = served.caiso.lastId) ∧
        ∀ startTime ∈ startTimeOf parseTime msg.body, startTime = served.caiso.lastStartTime
  | .query _ _ => True

/-- The batch that the feature keeps is the reserved one or the last one that was posted. -/
def Inv (served : Served) : Prop :=
  served.caiso.lastId = "-1" ∨ served.posted = some served.caiso.lastId

variable {parseTime} {served : Served} {request : Request}

theorem getD_eq_iff {α : Type} {o : Option α} {a : α} : o.getD a = a ↔ ∀ b ∈ o, b = a := by
  cases o with
  | none | some b => simp

/-- A packet is served right if and only if it is harmless. -/
theorem right_packet_iff (msg : FimsMsg) (world : World) :
    Right parseTime served (.packet msg world) ↔ Careful parseTime served (.packet msg world) := by
  rw [Right, Careful]
  by_cases hreplyto : msg.replyto = ""
  · rw [if_neg (not_not.mpr hreplyto)]
    have hcompletes := handleCaisoAdsPacket_completes parseTime served.caiso world hreplyto
    have hcaiso := handleCaisoAdsPacket_caiso parseTime served.caiso world hreplyto
    by_cases hcomplete : msg.Completes parseTime served.caiso world
    · obtain ⟨hok, hposts⟩ := hcompletes.posts hcomplete
      refine iff_of_true ⟨?_, fun _ => hposts⟩ (Or.inl hcomplete)
      intro err herr
      rw [hok] at herr
      cases herr
    · obtain ⟨⟨err, herr⟩, _⟩ := hcompletes.fails hcomplete
      rw [or_iff_right hcomplete, ← getD_eq_iff, ← getD_eq_iff, hcaiso]
      constructor
      · intro hright
        exact hright.1 err herr
      · intro hsame
        exact ⟨fun _ _ => hsame, fun h => absurd h hcomplete⟩
  · rw [if_pos hreplyto, CaisoAdsFeature.handleCaisoAdsPacket, if_pos hreplyto]
    constructor
    · intro hright hcomplete
      exact absurd (hright.2 hcomplete) Nat.zero_ne_one
    · intro hnot
      exact ⟨fun err herr => (by cases herr), fun hcomplete => absurd hcomplete hnot⟩

theorem right_query (hinv : Inv served) (uri : String) (now : Time) :
    Right parseTime served (.query uri now) := by
  rw [Right, CaisoAdsFeature.sendLatestBatchResponse]
  refine ⟨_, rfl, ?_⟩
  split_ifs
  · exact Or.inl rfl
  · exact hinv

theorem right_iff_careful (hinv : Inv served) :
    Right parseTime served request ↔ Careful parseTime served request := by
  cases request with
  | packet msg world => exact right_packet_iff msg world
  | query uri now => exact iff_of_true (right_query hinv uri now) trivial

/-- A request that is served right keeps a batch that was posted. -/
theorem inv_step (hinv : Inv served) (hright : Right parseTime served request) {next : Served}
    (hstep : step parseTime served request = .ok next) : Inv next := by
  cases request with
  | packet msg world =>
    cases hstep
    rw [Inv]
    by_cases hreplyto : msg.replyto = ""
    · have hcompletes := handleCaisoAdsPacket_completes parseTime served.caiso world hreplyto
      have hcaiso := handleCaisoAdsPacket_caiso parseTime served.caiso world hreplyto
      by_cases hcomplete : msg.Completes parseTime served.caiso world
      · obtain ⟨batchId, hbatch⟩ := Option.isSome_iff_exists.mp hcomplete.1.1
        rw [(hcompletes.posts hcomplete).2, hcaiso, hbatch]
        exact Or.inr rfl
      · obtain ⟨⟨err, herr⟩, hposts⟩ := hcompletes.fails hcomplete
        rw [(hright.1 err herr).1, hposts]
        exact hinv
    · rw [CaisoAdsFeature.handleCaisoAdsPacket, if_pos hreplyto]
      exact hinv
  | query uri now =>
    cases hstep
    rw [Inv, CaisoAdsFeature.sendLatestBatchResponse]
    split_ifs
    · exact Or.inl rfl
    · exact hinv

theorem inv_served (caiso : CaisoAdsFeature) : Inv caiso.served := by
  rw [Inv, CaisoAdsFeature.served]
  by_cases hreserved : caiso.lastId = "-1"
  · exact Or.inl hreserved
  · rw [if_neg hreserved]
    exact Or.inr rfl

/-- All requests of a run are served right if and only if all its packets are harmless. -/
theorem served_right_iff (parseTime : String → Except String Time) (caiso : CaisoAdsFeature)
    (requests : List Request) :
    CheckedRun.Guarded (step parseTime) (Right parseTime) caiso.served requests ↔
      CheckedRun.Guarded (step parseTime) (Careful parseTime) caiso.served requests := by
  constructor
  · apply CheckedRun.guarded_law Inv _ (inv_served caiso)
    intro served request hinv hright
    exact ⟨(right_iff_careful hinv).mp hright, fun next hstep => inv_step hinv hright hstep⟩
  · apply CheckedRun.guarded_law Inv _ (inv_served caiso)
    intro served request hinv hcareful
    have hright := (right_iff_careful hinv).mpr hcareful
    exact ⟨hright, fun next hstep => inv_step hinv hright hstep⟩

end Runs

/-! ## A packet without a command -/

/-- A feature that has scheduled the batch `A`. -/
def dispatched : CaisoAdsFeature := ⟨"caiso", "kw_cmd", "ads_on", 5, "A", ⟨0, 0⟩⟩

/-- A packet of the batch `B` without a command. -/
def withoutCommand : FimsMsg :=
  ⟨"", .map [("id", .string "B"), ("start_time", .string "1970-01-01T01:00:00Z"),
    ("data", .map [])]⟩

/-- The times of one hour after another, by their texts. -/
def parseHour (text : String) : Except String Time :=
  if text = "1970-01-01T01:00:00Z" then .ok ⟨hour, 0⟩ else .error "parsing time"

/-- The packet ends in an error, and a query an hour later is answered with its batch. -/
theorem served_right_fails :
    ¬ CheckedRun.Guarded (step parseHour) (Right parseHour) dispatched.served
      [.packet withoutCommand ⟨["site"], .ok ()⟩, .query "/iso" ⟨2 * hour, 0⟩] := by
  intro hguarded
  obtain ⟨hid, _⟩ := hguarded.1.1 _ rfl
  exact absurd hid (by decide)

end HybridOs.CaisoAds
