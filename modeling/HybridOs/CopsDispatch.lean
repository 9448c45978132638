import HybridOs.CopsC2C
import HybridOs.CopsModes
import HybridOs.GoText

/-!
# Dispatching controller-to-controller messages

A message is handed on by its keyword. Every handler splits the text in its own way: a mode
command at spaces, the settings at double dollar signs for their URI and body, and the whole
message at slashes for the process it goes to. A step that indexes past a text, reads a process
that was not found or asks for a buffer that cannot be made ends the program.
-/

namespace HybridOs.CopsDispatch

open BufferedReader DecimalText CopsC2C CopsNegotiator GoText

/-- An ASCII text as bytes. -/
def ascii (text : String) : List UInt8 := text.toList.map fun c => UInt8.ofNat c.toNat

/-- The bytes of a slash and a dot. -/
def slashByte : UInt8 := 47
def dotByte : UInt8 := 46

/-- `path.Join`. -/
def pathJoin (elements : List (List UInt8)) : List UInt8 := join slashByte dotByte elements

/-- `processInfo`, as far as messages use it. -/
structure ProcessInfo where
  name : List UInt8
  uri : List UInt8
  writeOutC2C : List (List UInt8)
  configRestart : Bool

/-- What the code takes from the standard library: the number of a text, and the object of a
JSON text. -/
structure Lib (Score Object : Type) where
  parseFloat : List UInt8 → Option Score
  unmarshal : List UInt8 → Option Object

/-- A controller with the processes it is configured for. -/
structure Controller (Score : Type) where
  /-- The part that negotiates. -/
  cops : Cops Score
  processJurisdiction : List ProcessInfo
  nodup_names : (processJurisdiction.map ProcessInfo.name).Nodup

/-- What a message makes a controller do. -/
inductive Effect (Score Object : Type) where
  /-- Messages to the other controller. -/
  | sendC2CMsg (messages : List (C2CMsg Score))
  /-- `lastModeConfirmationFromOther` is set. -/
  | modeConfirmed
  /-- The gets with their reply URIs that ask DBI for all settings. -/
  | getDBIUpdate (gets : List (List UInt8 × List UInt8))
  /-- A set of settings. -/
  | sendSet (uri : List UInt8) (body : Option Object)
  /-- A set that tells a process to get its settings. -/
  | sendDbiUpdate (uri : List UInt8)
  /-- `delayedkill`. -/
  | delayedkill (process : List UInt8)
  /-- An error is logged or returned. -/
  | error

section Handlers

variable {Score Object : Type}

/-- `getProcess`. -/
def getProcess (c : Controller Score) (name : List UInt8) : Option ProcessInfo :=
  c.processJurisdiction.find? (·.name = name)

/-- `extractUriFromC2CMsg`. -/
def extractUriFromC2CMsg (msg : List UInt8) : Option (List UInt8) :=
  let c2cFrags := split (ascii "$$") msg
  if c2cFrags.length ≠ 3 then none else c2cFrags[1]?

/-- `extractBodyFromC2CMsg`. -/
def extractBodyFromC2CMsg (msg : List UInt8) : Option (List UInt8) :=
  let c2cFrags := split (ascii "$$") msg
  if c2cFrags.length ≠ 3 then none else c2cFrags[2]?

/-- The name of the process in a URI, for which the handlers give the whole message. -/
def targetProcessName (uri : List UInt8) : Option (List UInt8) :=
  (split [slashByte] uri)[2]?

/-- `extractTargetProcessFromC2CUri`. -/
def extractTargetProcessFromC2CUri (c : Controller Score) (uri : List UInt8) :
    Option ProcessInfo :=
  (targetProcessName uri).bind (getProcess c)

/-- A slice of a text from an index on, which must not lie beyond the text. -/
def sliceFrom (n : ℕ) (text : List UInt8) : Option (List UInt8) :=
  if n ≤ text.length then some (text.drop n) else none

/-- `parseDBIMsg`. A URI or a body that is not extracted is empty, and the error is logged. -/
def parseDBIMsg (lib : Lib Score Object) (uriParse : Bool) (prefixURI msg : List UInt8) :
    Option (List UInt8 × Option Object) :=
  let fullUri := (extractUriFromC2CMsg msg).getD []
  let body := lib.unmarshal ((extractBodyFromC2CMsg msg).getD [])
  if uriParse then do
    let uri ← sliceFrom prefixURI.length fullUri
    if uri = [] then
      let source ← sliceFrom (ascii "/cops").length prefixURI
      return (source, body)
    else return (uri, body)
  else some (prefixURI, body)

/-- `sendDBIUpdate`. -/
def sendDBIUpdate (lib : Lib Score Object) (uriParse : Bool) (uri msg : List UInt8) :
    Option (List (Effect Score Object)) :=
  (parseDBIMsg lib uriParse uri msg).map fun parsed => [.sendSet parsed.1 parsed.2]

/-- `handleSetpoints`. -/
def handleSetpoints (lib : Lib Score Object) (c : Controller Score) (msg : List UInt8) :
    Option (List (Effect Score Object)) :=
  match extractUriFromC2CMsg msg with
  | none => some [.error]
  | some targetUri =>
    match extractTargetProcessFromC2CUri c msg with
    | none => some [.error]
    | some targetProcess =>
      match targetProcess.writeOutC2C.find? (contains targetUri ·) with
      | some writeOut => sendDBIUpdate lib true writeOut msg
      | none => some [.error]

/-- `handleDbiUpdateSet`. Errors of the first two steps are only logged, and the process is
read also where none was found. -/
def handleDbiUpdateSet (lib : Lib Score Object) (c : Controller Score) (msg : List UInt8) :
    Option (List (Effect Score Object)) :=
  let targetUri := (extractUriFromC2CMsg msg).getD []
  let logged : List (Effect Score Object) :=
    if (extractUriFromC2CMsg msg).isNone then [.error] else []
  match extractTargetProcessFromC2CUri c msg with
  | none => none
  | some targetProcess =>
    if contains targetUri (pathJoin [targetProcess.name, ascii "/dbi_update_complete"]) then
      if targetProcess.configRestart then some (logged ++ [.delayedkill targetProcess.name])
      else
        some (logged ++
          [.sendDbiUpdate (pathJoin [targetProcess.uri, ascii "/operation/dbi_update"])])
    else
      match targetProcess.writeOutC2C.find? fun writeOutUri =>
          contains targetUri (pathJoin [writeOutUri, ascii "/dbi_update"]) with
      | some writeOutUri =>
        (sendDBIUpdate lib false
          (pathJoin [ascii "/dbi", targetProcess.name, file slashByte writeOutUri]) msg).map
          (logged ++ ·)
      | none => some (logged ++ [.error])

/-- `getDBIUpdate`. -/
def getDBIUpdate (c : Controller Score) : List (List UInt8 × List UInt8) :=
  c.processJurisdiction.flatMap fun process =>
    process.writeOutC2C.map (fun writeOutUri =>
      (pathJoin [ascii "/dbi/", process.name, file slashByte writeOutUri],
        pathJoin [writeOutUri, ascii "/dbi_update"])) ++
    [(ascii "/dbi/update/complete",
      pathJoin [ascii "/cops/", process.name, ascii "/dbi_update_complete"])]

/-- The mode of a mode command; any other text asks for none. -/
def modeOf (modeCommand : List UInt8) : ControllerMode :=
  if modeCommand = ascii "Primary" then .primary
  else if modeCommand = ascii "Secondary" then .secondary
  else .update

/-- What messages begin with. -/
inductive Keyword where
  | modeQuery | modeCommand | setpoints | getDBIUpdate | setDBIUpdate
  deriving DecidableEq

/-- The keyword by which `processC2C` hands on a message. -/
def keyword (msg : List UInt8) : Option Keyword :=
  if ascii "ModeQuery" <+: msg then some .modeQuery
  else if ascii "ModeCommand" <+: msg then some .modeCommand
  else if ascii "Setpoints" <+: msg then some .setpoints
  else if ascii "GetDBIUpdate" <+: msg then some .getDBIUpdate
  else if ascii "SetDBIUpdate" <+: msg then some .setDBIUpdate
  else none

variable [LT Score] [DecidableLT Score]

/-- `processModeCommand` at a reading of the clock. -/
def processModeCommand (lib : Lib Score Object) (now : ℕ) (c : Controller Score)
    (msg : List UInt8) : Option (Controller Score × List (Effect Score Object)) := do
  let msgFrags := split [spaceByte] msg
  let modeCommand ← msgFrags[1]?
  let totalHealthScore ← msgFrags[2]?
  let processed := CopsNegotiator.processModeCommand now (modeOf modeCommand)
    (lib.parseFloat totalHealthScore) c.cops
  return ({c with cops := processed.1}, [.sendC2CMsg processed.2, .modeConfirmed])

/-- The handler of a message. -/
def dispatch (lib : Lib Score Object) (now : ℕ) (totalHealthScore : Option Score)
    (c : Controller Score) (msg : List UInt8) :
    Option (Controller Score × List (Effect Score Object)) :=
  match keyword msg with
  | some .modeQuery =>
    some (c, [.sendC2CMsg (replyToModeQueryMsg totalHealthScore c.cops)])
  | some .modeCommand => processModeCommand lib now c msg
  | some .setpoints => (handleSetpoints lib c msg).map (c, ·)
  | some .getDBIUpdate => some (c, [.getDBIUpdate (getDBIUpdate c)])
  | some .setDBIUpdate => (handleDbiUpdateSet lib c msg).map (c, ·)
  | none => some (c, [])

/-! ## Receiving -/

/-- The size that the next message on a connection declares. -/
def declaredSize (tcpConnection : Stream) : Option ℤ :=
  let startOfMsg := (⟨[], tcpConnection⟩ : Reader).peek bufferSize startWord.length
  if startOfMsg.1 = some startWord then
    ((startOfMsg.2.discard startWord.length).readString bufferSize spaceByte).1.bind fun text =>
      atoi (trim spaceByte text)
  else none

/-- One message of `processC2C` on a connection, where at most `maxAlloc` bytes can be asked
for at once. -/
def processC2C (lib : Lib Score Object) (maxAlloc : ℤ) (now : ℕ)
    (totalHealthScore : Option Score) (c : Controller Score) (tcpConnection : Stream) :
    Option (Controller Score × Stream × List (Effect Score Object)) :=
  if (declaredSize tcpConnection).any (maxAlloc < ·) then none
  else
    match readC2CMessage tcpConnection with
    | (.error .panic, _) => none
    | (.error _, left) => some (c, left, [.error])
    | (.ok msg, left) =>
      (dispatch lib now totalHealthScore c msg).map fun done => (done.1, left, done.2)

end Handlers

/-!
## Which messages are handled

A message is handled where it makes the controller act or report an error. One that is
malformed in the way its handler does not look for ends the program, and one without a keyword
is passed over.
-/

variable {Score Object : Type}

/-- The handler acts or reports an error. -/
def Acts (result : Option (List (Effect Score Object))) : Prop :=
  ∃ effects, result = some effects ∧ effects ≠ []

/-- The step acts or reports an error. -/
def Handled (result : Option (Controller Score × Stream × List (Effect Score Object))) : Prop :=
  ∃ c left effects, result = some (c, left, effects) ∧ effects ≠ []

/-- The URI of the message is a write-out of its process that is shorter than `/cops`, and no
write-out before it is found in the URI. -/
def ShortWriteOut (c : Controller Score) (msg : List UInt8) : Prop :=
  ∃ uri process, extractUriFromC2CMsg msg = some uri ∧
    extractTargetProcessFromC2CUri c msg = some process ∧
    process.writeOutC2C.find? (contains uri ·) = some uri ∧
    uri.length < (ascii "/cops").length

/-- The message has what its handler relies on. -/
def WellFormed (c : Controller Score) (msg : List UInt8) : Prop :=
  match keyword msg with
  | some .modeQuery => True
  | some .modeCommand => 2 ≤ msg.count spaceByte
  | some .setpoints => ¬ ShortWriteOut c msg
  | some .getDBIUpdate => True
  | some .setDBIUpdate =>
    ∃ process ∈ c.processJurisdiction, targetProcessName msg = some process.name
  | none => False

/-! ## Handlers -/

theorem acts_append {effects : List (Effect Score Object)}
    (logged : List (Effect Score Object)) (h : effects ≠ []) : Acts (some (logged ++ effects)) :=
  ⟨_, rfl, List.append_ne_nil_of_right_ne_nil _ h⟩

variable (lib : Lib Score Object) (c : Controller Score) (msg : List UInt8)

/-- A write-out that is found in a URI is cut off it, and only one that is the whole URI leaves
the question for its own suffix. -/
theorem sendDBIUpdate_acts {writeOut msg targetUri : List UInt8}
    (huri : extractUriFromC2CMsg msg = some targetUri)
    (hcontains : contains targetUri writeOut = true) :
    Acts (sendDBIUpdate lib true writeOut msg) ↔
      ¬ (writeOut = targetUri ∧ targetUri.length < (ascii "/cops").length) := by
  have hslice : sliceFrom writeOut.length targetUri = some (targetUri.drop writeOut.length) :=
    if_pos (length_le_of_contains hcontains)
  have hparsed : parseDBIMsg lib true writeOut msg =
      if targetUri.drop writeOut.length = [] then
        (sliceFrom (ascii "/cops").length writeOut).map
          (·, lib.unmarshal ((extractBodyFromC2CMsg msg).getD []))
      else
        some (targetUri.drop writeOut.length,
          lib.unmarshal ((extractBodyFromC2CMsg msg).getD [])) := by
    simp only [parseDBIMsg, huri, Option.getD_some, if_true, hslice, Option.bind_eq_bind,
      Option.bind_some]
    split_ifs
    · cases sliceFrom (ascii "/cops").length writeOut <;> rfl
    · rfl
  constructor
  · rintro ⟨effects, heffects, -⟩ ⟨rfl, hshort⟩
    rw [sendDBIUpdate, hparsed, if_pos (List.drop_length), sliceFrom, if_neg (by omega)]
      at heffects
    contradiction
  · intro hlong
    rw [sendDBIUpdate, hparsed]
    split_ifs with hnil
    · have hsame : writeOut = targetUri :=
        eq_of_contains hcontains (List.drop_eq_nil_iff.1 hnil)
      have hlength : (ascii "/cops").length ≤ writeOut.length := by
        rw [hsame]
        by_contra hshort
        exact hlong ⟨hsame, by omega⟩
      rw [sliceFrom, if_pos hlength]
      exact ⟨_, rfl, List.cons_ne_nil _ _⟩
    · exact ⟨_, rfl, List.cons_ne_nil _ _⟩

theorem handleSetpoints_acts : Acts (handleSetpoints lib c msg) ↔ ¬ ShortWriteOut c msg := by
  rw [handleSetpoints]
  cases huri : extractUriFromC2CMsg msg with
  | none =>
    constructor
    · rintro - ⟨uri, process, hshort, -⟩
      rw [huri] at hshort
      contradiction
    · intro _
      exact ⟨_, rfl, List.cons_ne_nil _ _⟩
  | some targetUri =>
    cases hprocess : extractTargetProcessFromC2CUri c msg with
    | none =>
      constructor
      · rintro - ⟨uri, process, -, hshort, -⟩
        rw [hprocess] at hshort
        contradiction
      · intro _
        exact ⟨_, rfl, List.cons_ne_nil _ _⟩
    | some targetProcess =>
      dsimp only
      cases hwriteOut : targetProcess.writeOutC2C.find? (contains targetUri ·) with
      | none =>
        constructor
        · rintro - ⟨uri, process, huri', hprocess', hshort, -⟩
          rw [huri, Option.some.injEq] at huri'
          rw [hprocess, Option.some.injEq] at hprocess'
          rw [← huri', ← hprocess', hwriteOut] at hshort
          contradiction
        · intro _
          exact ⟨_, rfl, List.cons_ne_nil _ _⟩
      | some writeOut =>
        rw [sendDBIUpdate_acts lib huri (List.find?_some hwriteOut), not_iff_not]
        constructor
        · rintro ⟨rfl, hshort⟩
          exact ⟨writeOut, targetProcess, huri, hprocess, hwriteOut, hshort⟩
        · rintro ⟨uri, process, huri', hprocess', hfound, hshort⟩
          rw [huri, Option.some.injEq] at huri'
          rw [hprocess, Option.some.injEq] at hprocess'
          rw [← huri', ← hprocess', hwriteOut, Option.some.injEq] at hfound
          rw [← huri'] at hshort
          exact ⟨hfound, hshort⟩

theorem getProcess_isSome_iff {c : Controller Score} {name : List UInt8} :
    (getProcess c name).isSome ↔ ∃ process ∈ c.processJurisdiction, process.name = name := by
  rw [getProcess, List.find?_isSome]
  simp only [decide_eq_true_eq]

theorem extractTargetProcess_isSome_iff {c : Controller Score} {msg : List UInt8} :
    (extractTargetProcessFromC2CUri c msg).isSome ↔
      ∃ process ∈ c.processJurisdiction, targetProcessName msg = some process.name := by
  rw [extractTargetProcessFromC2CUri]
  cases targetProcessName msg with
  | none => simp
  | some name =>
    rw [Option.bind_some, getProcess_isSome_iff]
    constructor
    · rintro ⟨process, hmem, rfl⟩
      exact ⟨process, hmem, rfl⟩
    · rintro ⟨process, hmem, hname⟩
      rw [Option.some.injEq] at hname
      exact ⟨process, hmem, hname.symm⟩

theorem handleDbiUpdateSet_acts :
    Acts (handleDbiUpdateSet lib c msg) ↔
      ∃ process ∈ c.processJurisdiction, targetProcessName msg = some process.name := by
  rw [← extractTargetProcess_isSome_iff, handleDbiUpdateSet]
  cases hprocess : extractTargetProcessFromC2CUri c msg with
  | none =>
    constructor
    · rintro ⟨effects, heffects, -⟩
      contradiction
    · intro hsome
      contradiction
  | some targetProcess =>
    constructor
    · intro _
      rfl
    · intro _
      dsimp only
      -- what was logged before does not matter
      generalize (if (extractUriFromC2CMsg msg).isNone = true then _ else _) = logged
      split_ifs
      · exact acts_append logged (List.cons_ne_nil _ _)
      · exact acts_append logged (List.cons_ne_nil _ _)
      · split
        · exact acts_append logged (List.cons_ne_nil _ _)
        · exact acts_append logged (List.cons_ne_nil _ _)

/-! ## Messages -/

variable [LT Score] [DecidableLT Score]

theorem processModeCommand_handled (now : ℕ) (c : Controller Score) (msg : List UInt8) :
    (∃ c' effects, processModeCommand lib now c msg = some (c', effects) ∧ effects ≠ []) ↔
      2 ≤ msg.count spaceByte := by
  have hlength := split_single_length spaceByte msg
  constructor
  · rintro ⟨c', effects, hprocessed, -⟩
    by_contra hfew
    have hnone : (split [spaceByte] msg)[2]? = none :=
      List.getElem?_eq_none (by omega)
    rw [processModeCommand, hnone] at hprocessed
    cases hmode : (split [spaceByte] msg)[1]? with
    | none | some mode =>
      rw [hmode] at hprocessed
      contradiction
  · intro hcount
    have hmode : (split [spaceByte] msg)[1]? = some (split [spaceByte] msg)[1] :=
      List.getElem?_eq_getElem (by omega)
    have hscore : (split [spaceByte] msg)[2]? = some (split [spaceByte] msg)[2] :=
      List.getElem?_eq_getElem (by omega)
    rw [processModeCommand, hmode, hscore]
    exact ⟨_, _, rfl, List.cons_ne_nil _ _⟩

/-- A message is handled exactly where it has what its handler relies on. -/
theorem dispatch_handled (now : ℕ) (totalHealthScore : Option Score) (c : Controller Score)
    (msg : List UInt8) :
    (∃ c' effects, dispatch lib now totalHealthScore c msg = some (c', effects) ∧
      effects ≠ []) ↔ WellFormed c msg := by
  have hmap (result : Option (List (Effect Score Object))) :
      (∃ c' effects, result.map (c, ·) = some (c', effects) ∧ effects ≠ []) ↔ Acts result := by
    cases result with
    | none | some effects => simp [Acts]
  rw [dispatch, WellFormed]
  cases keyword msg with
  | none => simp
  | some key =>
    cases key with
    | modeQuery | getDBIUpdate => simp
    | modeCommand => exact processModeCommand_handled lib now c msg
    | setpoints => exact (hmap _).trans (handleSetpoints_acts lib c msg)
    | setDBIUpdate => exact (hmap _).trans (handleDbiUpdateSet_acts lib c msg)

/-! ## Connections -/

omit [LT Score] [DecidableLT Score] in
/-- A buffer of negative length is asked for exactly where a negative size is declared. -/
theorem readC2CMessage_panic_iff (tcpConnection : Stream) :
    (readC2CMessage tcpConnection).1 = .error .panic ↔
      ∃ size, declaredSize tcpConnection = some size ∧ size < 0 := by
  rw [readC2CMessage, declaredSize]
  cases hstart : ((⟨[], tcpConnection⟩ : Reader).peek bufferSize startWord.length).1 with
  | none => simp
  | some start =>
    dsimp only
    split_ifs with hother hsame hsame
    · simp_all
    · simp
    · rw [parseC2CMsg]
      dsimp only
      cases (((⟨[], tcpConnection⟩ : Reader).peek bufferSize startWord.length).2.discard
          startWord.length |>.readString bufferSize spaceByte).1 with
      | none => simp
      | some text =>
        rw [Option.bind_some]
        cases hsize : atoi (trim spaceByte text) with
        | none => simp [hsize]
        | some size =>
          simp only [hsize]
          split_ifs with hneg
          · simp [hneg]
          · split <;> simp <;> omega
    · simp_all

/-- Whatever a connection delivers is handled exactly where the size it declares can be asked
for and the message it makes up has what its handler relies on. -/
theorem processC2C_handled_iff (lib : Lib Score Object) (maxAlloc : ℤ) (now : ℕ)
    (totalHealthScore : Option Score) (c : Controller Score) (tcpConnection : Stream) :
    Handled (processC2C lib maxAlloc now totalHealthScore c tcpConnection) ↔
      (∀ size, declaredSize tcpConnection = some size → 0 ≤ size ∧ size ≤ maxAlloc) ∧
      ∀ msg, (readC2CMessage tcpConnection).1 = .ok msg → WellFormed c msg := by
  have hpanic := readC2CMessage_panic_iff tcpConnection
  have hlarge : (declaredSize tcpConnection).any (maxAlloc < ·) = true ↔
      ∃ size, declaredSize tcpConnection = some size ∧ maxAlloc < size := by
    cases declaredSize tcpConnection with
    | none | some size => simp
  have hunasked : ¬ Handled
      (none : Option (Controller Score × Stream × List (Effect Score Object))) := by
    rintro ⟨c', left, effects, hnone, -⟩
    contradiction
  rw [processC2C]
  by_cases hover : (declaredSize tcpConnection).any (maxAlloc < ·) = true
  · obtain ⟨size, hsize, hless⟩ := hlarge.1 hover
    rw [if_pos hover]
    constructor
    · intro h
      exact absurd h hunasked
    · intro h
      have hbounds := h.1 size hsize
      omega
  · rw [if_neg hover]
    have hfits : ∀ size, declaredSize tcpConnection = some size → size ≤ maxAlloc := by
      intro size hsize
      by_contra hless
      exact hover (hlarge.2 ⟨size, hsize, by omega⟩)
    cases hread : readC2CMessage tcpConnection with
    | mk read left =>
      rw [hread] at hpanic
      cases read with
      | error e =>
        by_cases he : e = .panic
        · obtain ⟨size, hsize, hneg⟩ := hpanic.1 (by rw [he])
          rw [he]
          constructor
          · intro h
            exact absurd h hunasked
          · intro h
            have hbounds := h.1 size hsize
            omega
        · constructor
          · intro _
            constructor
            · intro size hsize
              constructor
              · by_contra hneg
                have hpanicked := hpanic.2 ⟨size, hsize, by omega⟩
                rw [Except.error.injEq] at hpanicked
                exact he hpanicked
              · exact hfits size hsize
            · intro msg hmsg
              contradiction
          · intro _
            cases e with
            | panic => exact absurd rfl he
            | connection | startWord start | messageSize | messageBuffer =>
              exact ⟨_, _, _, rfl, List.cons_ne_nil _ _⟩
      | ok msg =>
        have hsizes : ∀ size, declaredSize tcpConnection = some size →
            0 ≤ size ∧ size ≤ maxAlloc := by
          intro size hsize
          constructor
          · by_contra hneg
            have hpanicked := hpanic.2 ⟨size, hsize, by omega⟩
            contradiction
          · exact hfits size hsize
        have hdispatched : Handled ((dispatch lib now totalHealthScore c msg).map
            fun done => (done.1, left, done.2)) ↔
              ∃ c' effects, dispatch lib now totalHealthScore c msg = some (c', effects) ∧
                effects ≠ [] := by
          cases dispatch lib now totalHealthScore c msg with
          | none => simp [Handled]
          | some done => simp [Handled, Prod.ext_iff]
        rw [hdispatched, dispatch_handled]
        constructor
        · intro h
          constructor
          · exact hsizes
          · intro other hother
            rw [Except.ok.injEq] at hother
            rwa [← hother]
        · intro h
          exact h.2 msg rfl

/-- A mode command that says no mode. -/
def modeCommand : Body := ⟨ascii "ModeCommand", by decide⟩

/-- A secondary controller without processes. -/
def idleController : Controller ℕ where
  cops :=
    { amServerNotClient := false
      connected := true
      lastModeConfirmationFromOther := 0
      totalHealthThreshold := 1
      controllerMode := .secondary
      firstIteration := true
      querying := false }
  processJurisdiction := []
  nodup_names := List.nodup_nil

/-- A mode command without a mode ends the program. -/
theorem modeCommand_panics :
    ¬ ∀ (lib : Lib ℕ Unit) (maxAlloc : ℤ) (now : ℕ) (totalHealthScore : Option ℕ)
      (c : Controller ℕ) (tcpConnection : Stream),
      Handled (processC2C lib maxAlloc now totalHealthScore c tcpConnection) := by
  intro hall
  have hbytes : frame modeCommand ≠ [] := by decide
  have hcontent : content [⟨frame modeCommand, hbytes⟩] = frame modeCommand ++ [] := rfl
  obtain ⟨c', left, effects, hprocessed, -⟩ :=
    hall ⟨fun _ => none, fun _ => none⟩ (2 ^ 48) 0 none idleController
      [⟨frame modeCommand, hbytes⟩]
  rw [processC2C, (readC2CMessage_frame hcontent).1] at hprocessed
  split_ifs at hprocessed
  contradiction

/-!
## Setpoints from the primary controller

The primary controller joins the URI and the JSON text of a setpoint with double dollar signs,
and the secondary splits them again, looks up the process by the third part of the message
between slashes and cuts the first write-out URI off that is found in the setpoint's.
-/

/-- The byte of a dollar sign. -/
def dollarByte : UInt8 := 36

/-- What the code takes from `encoding/json`, for the bodies of messages: an object is read back
from its text, any other body is not an object, and no text begins with a dollar sign. -/
structure JsonBodies {Score Object : Type} (lib : Lib Score Object) (Body : Type) where
  /-- `json.Marshal`. -/
  marshal : Body → Option (List UInt8)
  /-- A body that is an object. -/
  object : Object → Body
  unmarshal_object : ∀ o json, marshal (object o) = some json → lib.unmarshal json = some o
  unmarshal_other : ∀ body json, marshal body = some json → (∀ o, body ≠ object o) →
    lib.unmarshal json = none
  unmarshal_dollar : ∀ json, lib.unmarshal (dollarByte :: json) = none

section Setpoints

variable {Score Object Body : Type} {lib : Lib Score Object}

/-- `fimsToC2C`. The message is empty where the body has no JSON text. -/
def fimsToC2C (json : JsonBodies lib Body) (keyword uri : List UInt8) (body : Body) :
    List UInt8 :=
  match json.marshal body with
  | none => []
  | some bodyJSON => keyword ++ ascii "$$" ++ uri ++ ascii "$$" ++ bodyJSON

/-- `handleSetpointWriteout`, with the message that it sends. -/
def handleSetpointWriteout (json : JsonBodies lib Body) (c : Controller Score)
    (uri : List UInt8) (body : Body) : Option (List UInt8) :=
  if c.cops.controllerMode = .primary then some (fimsToC2C json (ascii "Setpoints") uri body)
  else none

/-- The branch of `handleSet` for setpoints, with the message that it sends. -/
def handleSetWriteOut (json : JsonBodies lib Body) (c : Controller Score) (uri : List UInt8)
    (body : Body) : Option (List UInt8) :=
  match (targetProcessName uri).bind (getProcess c) with
  | none => none
  | some process =>
    if process.writeOutC2C.any (contains uri ·) then handleSetpointWriteout json c uri body
    else none

/-- The destination of a setpoint under a write-out URI: the suffix, or without one the write-out
URI behind `/cops`. -/
def destination (writeOut suffix : List UInt8) : List UInt8 :=
  if suffix = [] then writeOut.drop (ascii "/cops").length else suffix

/-- The handling of a message makes exactly the setpoint that was meant. -/
def Delivers (json : JsonBodies lib Body) (writeOut suffix : List UInt8) (body : Body)
    (handled : Option (List (Effect Score Object))) : Prop :=
  ∃ o, body = json.object o ∧ handled = some [.sendSet (destination writeOut suffix) (some o)]

/-- How many bytes are cut off a URI for a write-out URI that is found in it. -/
def cutLength (writeOut uri : List UInt8) : ℕ :=
  if writeOut.length = uri.length then (ascii "/cops").length else writeOut.length

/-- A setpoint is deliverable: its body is an object, no delimiter is in its URI with a dollar sign
behind it and none is in its body, and as many bytes are cut off for the first write-out URI that
is found in it, of the process that the message names, as for the one that it is under. -/
def Deliverable (json : JsonBodies lib Body) (c : Controller Score)
    (writeOut suffix : List UInt8) (body : Body) : Prop :=
  let uri := writeOut ++ suffix
  ∃ o bodyJSON, body = json.object o ∧ json.marshal body = some bodyJSON ∧
    ¬ ascii "$$" <:+: uri ++ [dollarByte] ∧ ¬ ascii "$$" <:+: bodyJSON ∧
    ∃ process found,
      extractTargetProcessFromC2CUri c (fimsToC2C json (ascii "Setpoints") uri body) =
        some process ∧
      process.writeOutC2C.find? (contains uri ·) = some found ∧
      cutLength found uri = cutLength writeOut uri ∧ cutLength found uri ≤ uri.length

/-! ## The parts of a message -/

theorem delimiter_eq : ascii "$$" = [dollarByte, dollarByte] := by decide

theorem delimiter_ne_nil : ascii "$$" ≠ [] := by decide

/-- The keyword of a setpoint message is its first part. -/
theorem split_keyword (rest : List UInt8) :
    split (ascii "$$") (ascii "Setpoints" ++ ascii "$$" ++ rest) =
      ascii "Setpoints" :: split (ascii "$$") rest := by
  refine split_first delimiter_ne_nil fun k hk hstarts => ?_
  have hnone : dollarByte ∉ ascii "Setpoints" := by decide
  rw [delimiter_eq, List.append_assoc, List.drop_append_of_le_length (by omega)] at hstarts
  cases hdrop : (ascii "Setpoints").drop k with
  | nil =>
    have hlength := congrArg List.length hdrop
    rw [List.length_drop, List.length_nil] at hlength
    omega
  | cons c left =>
    rw [hdrop, List.cons_append, List.cons_prefix_cons] at hstarts
    have hmem : c ∈ (ascii "Setpoints").drop k := by simp [hdrop]
    exact hnone (hstarts.1 ▸ List.mem_of_mem_drop hmem)

/-- A URI without a delimiter, also with a dollar sign behind it, is the second part. -/
theorem split_uri {uri : List UInt8} (h : ¬ ascii "$$" <:+: uri ++ [dollarByte])
    (bodyJSON : List UInt8) : split (ascii "$$") (uri ++ ascii "$$" ++ bodyJSON) =
      uri :: split (ascii "$$") bodyJSON := by
  refine split_first delimiter_ne_nil fun k hk hstarts => h ?_
  have hlong : (ascii "$$").length ≤ ((uri ++ [dollarByte]).drop k).length := by
    rw [delimiter_eq]
    simp only [List.length_drop, List.length_append, List.length_cons]
    omega
  have hsame : (uri ++ ascii "$$" ++ bodyJSON).drop k =
      (uri ++ [dollarByte]).drop k ++ dollarByte :: bodyJSON := by
    rw [← List.drop_append_of_le_length (by simp; omega), delimiter_eq]
    simp
  rw [hsame] at hstarts
  have hwithin : ascii "$$" <+: (uri ++ [dollarByte]).drop k :=
    List.prefix_of_prefix_length_le hstarts (List.prefix_append _ _) hlong
  exact hwithin.isInfix.trans (List.drop_suffix _ _).isInfix

/-- A message of three parts has the URI and the body in them, or a body with a dollar sign in
front. -/
theorem split_setpoints {uri bodyJSON : List UInt8}
    (h : (split (ascii "$$") (ascii "Setpoints" ++ ascii "$$" ++ uri ++ ascii "$$" ++
      bodyJSON)).length = 3) :
    (¬ ascii "$$" <:+: uri ++ [dollarByte] ∧ ¬ ascii "$$" <:+: bodyJSON) ∨
      ∃ before, split (ascii "$$") (ascii "Setpoints" ++ ascii "$$" ++ uri ++ ascii "$$" ++
        bodyJSON) = [ascii "Setpoints", before, dollarByte :: bodyJSON] := by
  have hassoc : ascii "Setpoints" ++ ascii "$$" ++ uri ++ ascii "$$" ++ bodyJSON =
      ascii "Setpoints" ++ ascii "$$" ++ (uri ++ ascii "$$" ++ bodyJSON) := by
    simp only [List.append_assoc]
  rw [hassoc, split_keyword] at h ⊢
  obtain ⟨before, after, heq, hfirst⟩ := exists_first
    (show ascii "$$" <:+: uri ++ ascii "$$" ++ bodyJSON from ⟨uri, bodyJSON, rfl⟩)
  have hsplit := split_first delimiter_ne_nil (heq ▸ hfirst)
  rw [heq, hsplit, List.length_cons, List.length_cons] at h
  have hafter : ¬ ascii "$$" <:+: after := by
    intro hinfix
    have htwo := two_le_length_split delimiter_ne_nil hinfix
    omega
  have hle : before.length ≤ uri.length := by
    by_contra hlt
    refine hfirst uri.length (by omega) ?_
    rw [List.append_assoc, List.drop_left]
    exact List.prefix_append _ _
  have hdrop : after = (uri ++ ascii "$$" ++ bodyJSON).drop (before.length + 2) := by
    rw [heq, delimiter_eq]
    simp
  rcases Nat.lt_trichotomy (before.length + 1) uri.length with hshort | hone | hwhole
  · refine absurd ?_ hafter
    rw [hdrop, List.append_assoc, List.drop_append_of_le_length (by omega)]
    exact ⟨uri.drop (before.length + 2), bodyJSON, by simp⟩
  · right
    refine ⟨before, ?_⟩
    have htail : after = dollarByte :: bodyJSON := by
      rw [hdrop, delimiter_eq, List.append_assoc, List.drop_append]
      rw [List.drop_eq_nil_of_le (by omega)]
      have hdiff : before.length + 2 - uri.length = 1 := by omega
      rw [hdiff]
      rfl
    rw [heq, hsplit, split_without hafter, htail]
  · left
    have hlength : before.length = uri.length := by omega
    have hbody : after = bodyJSON := by
      rw [hdrop, hlength, delimiter_eq, List.append_assoc, List.drop_append]
      simp
    refine ⟨fun hinfix => ?_, hbody ▸ hafter⟩
    obtain ⟨first, last, hlast⟩ := hinfix
    have hlong : first.length < uri.length := by
      have hlengths := congrArg List.length hlast
      rw [delimiter_eq] at hlengths
      simp only [List.length_append, List.length_cons] at hlengths
      omega
    refine hfirst first.length (by omega) ?_
    have htext : uri ++ ascii "$$" ++ bodyJSON =
        first ++ (ascii "$$" ++ (last ++ dollarByte :: bodyJSON)) := by
      have happend : uri ++ ascii "$$" ++ bodyJSON =
          (uri ++ [dollarByte]) ++ dollarByte :: bodyJSON := by
        rw [delimiter_eq]
        simp
      rw [happend, ← hlast]
      simp
    rw [htext, List.drop_left]
    exact List.prefix_append _ _

/-! ## Delivery -/

/-- What is set for a message whose URI and body are extracted. -/
theorem sendDBIUpdate_extracted {msg uri body found : List UInt8}
    (huri : extractUriFromC2CMsg msg = some uri) (hbody : extractBodyFromC2CMsg msg = some body)
    (hfound : contains uri found = true) :
    sendDBIUpdate lib true found msg =
      if cutLength found uri ≤ uri.length then
        some [.sendSet (uri.drop (cutLength found uri)) (lib.unmarshal body)] else none := by
  have hle := length_le_of_contains hfound
  have hslice : sliceFrom found.length uri = some (uri.drop found.length) := if_pos hle
  rw [sendDBIUpdate, parseDBIMsg, huri, hbody]
  simp only [Option.getD_some, hslice, Option.bind_eq_bind, Option.bind_some]
  by_cases hwhole : found.length = uri.length
  · have hnil : uri.drop found.length = [] := List.drop_eq_nil_of_le (by omega)
    have hsame : found = uri := eq_of_contains hfound (by omega)
    rw [if_pos hnil, cutLength, if_pos hwhole, hsame, sliceFrom]
    split_ifs <;> rfl
  · have hne : uri.drop found.length ≠ [] := by
      rw [ne_eq, List.drop_eq_nil_iff]
      omega
    rw [if_neg hne, cutLength, if_neg hwhole, if_pos hle]
    rfl

/-- The destination is what is left of the URI behind the bytes that are cut off. -/
theorem destination_eq (writeOut suffix : List UInt8) :
    destination writeOut suffix =
      (writeOut ++ suffix).drop (cutLength writeOut (writeOut ++ suffix)) := by
  rw [destination, cutLength, List.length_append]
  split_ifs with hnil hlength hlength
  · rw [hnil, List.append_nil]
  · rw [hnil] at hlength
    simp at hlength
  · have hpos := List.length_pos_of_ne_nil hnil
    omega
  · rw [List.drop_left]

/-- Where a write-out URI leads to the destination, as many bytes are cut off as for the one that
the setpoint is under. -/
theorem cutLength_eq_of_drop {found writeOut suffix : List UInt8}
    (hle : cutLength found (writeOut ++ suffix) ≤ (writeOut ++ suffix).length)
    (hdrop : (writeOut ++ suffix).drop (cutLength found (writeOut ++ suffix)) =
      destination writeOut suffix) :
    cutLength found (writeOut ++ suffix) = cutLength writeOut (writeOut ++ suffix) := by
  rw [destination_eq] at hdrop
  have hlengths := congrArg List.length hdrop
  rw [List.length_drop, List.length_drop] at hlengths
  unfold cutLength at hle hlengths ⊢
  rw [List.length_append] at *
  split_ifs at * <;> omega

/-- A message with the delimiter neither in its URI nor in its body has them as its parts. -/
theorem extract_of_clean {uri bodyJSON : List UInt8}
    (huri : ¬ ascii "$$" <:+: uri ++ [dollarByte]) (hbody : ¬ ascii "$$" <:+: bodyJSON) :
    extractUriFromC2CMsg (ascii "Setpoints" ++ ascii "$$" ++ uri ++ ascii "$$" ++ bodyJSON) =
        some uri ∧
      extractBodyFromC2CMsg (ascii "Setpoints" ++ ascii "$$" ++ uri ++ ascii "$$" ++ bodyJSON) =
        some bodyJSON := by
  have hsplit : split (ascii "$$")
      (ascii "Setpoints" ++ ascii "$$" ++ uri ++ ascii "$$" ++ bodyJSON) =
        [ascii "Setpoints", uri, bodyJSON] := by
    rw [show ascii "Setpoints" ++ ascii "$$" ++ uri ++ ascii "$$" ++ bodyJSON =
      ascii "Setpoints" ++ ascii "$$" ++ (uri ++ ascii "$$" ++ bodyJSON) by
        simp only [List.append_assoc], split_keyword, split_uri huri, split_without hbody]
  rw [extractUriFromC2CMsg, extractBodyFromC2CMsg, hsplit]
  exact ⟨rfl, rfl⟩

/-- A setpoint that the primary controller accepts under a write-out URI is delivered by the
secondary exactly where it is deliverable. -/
theorem handleSetpoints_delivers_iff (json : JsonBodies lib Body)
    {primary secondary : Controller Score} {writeOut suffix msg : List UInt8} {body : Body}
    (hsame : secondary.processJurisdiction = primary.processJurisdiction)
    (hsent : handleSetWriteOut json primary (writeOut ++ suffix) body = some msg) :
    Delivers json writeOut suffix body (handleSetpoints lib secondary msg) ↔
      Deliverable json primary writeOut suffix body := by
  have hmsg : msg = fimsToC2C json (ascii "Setpoints") (writeOut ++ suffix) body := by
    rw [handleSetWriteOut] at hsent
    split at hsent
    · cases hsent
    · split_ifs at hsent
      rw [handleSetpointWriteout] at hsent
      split_ifs at hsent
      exact (Option.some.inj hsent).symm
  have hprocess : extractTargetProcessFromC2CUri secondary msg =
      extractTargetProcessFromC2CUri primary msg := by
    have hget : getProcess secondary = getProcess primary := by
      funext name
      rw [getProcess, getProcess, hsame]
    rw [extractTargetProcessFromC2CUri, extractTargetProcessFromC2CUri, hget]
  subst hmsg
  constructor
  · rintro ⟨o, rfl, hhandled⟩
    rw [handleSetpoints] at hhandled
    split at hhandled
    · cases hhandled
    next targetUri huri =>
      split at hhandled
      · cases hhandled
      next process htarget =>
        rw [hprocess] at htarget
        split at hhandled
        next found hfind =>
          have hcontains : contains targetUri found = true := by
            simpa using List.find?_some hfind
          cases hmarshal : json.marshal (json.object o) with
          | none =>
            rw [fimsToC2C, hmarshal] at huri
            cases huri
          | some bodyJSON =>
            have htext : fimsToC2C json (ascii "Setpoints") (writeOut ++ suffix) (json.object o) =
                ascii "Setpoints" ++ ascii "$$" ++ (writeOut ++ suffix) ++ ascii "$$" ++
                  bodyJSON := by
              rw [fimsToC2C, hmarshal]
            rw [htext] at huri hhandled
            have hthree : (split (ascii "$$") (ascii "Setpoints" ++ ascii "$$" ++
                (writeOut ++ suffix) ++ ascii "$$" ++ bodyJSON)).length = 3 := by
              by_contra hother
              rw [extractUriFromC2CMsg, if_pos hother] at huri
              cases huri
            rcases split_setpoints hthree with ⟨hcleanUri, hcleanBody⟩ | ⟨before, hsplit⟩
            · obtain ⟨hextractUri, hextractBody⟩ := extract_of_clean hcleanUri hcleanBody
              cases hextractUri.symm.trans huri
              rw [sendDBIUpdate_extracted hextractUri hextractBody hcontains] at hhandled
              split_ifs at hhandled with hle
              have heffect := List.cons.inj (Option.some.inj hhandled)
              obtain ⟨hdrop, -⟩ := Effect.sendSet.inj heffect.1
              exact ⟨o, bodyJSON, rfl, hmarshal, hcleanUri, hcleanBody, process, found, htarget,
                hfind, cutLength_eq_of_drop hle hdrop, hle⟩
            · -- The body that is left begins with a dollar sign.
              have hbody : extractBodyFromC2CMsg (ascii "Setpoints" ++ ascii "$$" ++
                  (writeOut ++ suffix) ++ ascii "$$" ++ bodyJSON) =
                    some (dollarByte :: bodyJSON) := by
                rw [extractBodyFromC2CMsg, hsplit]
                rfl
              rw [sendDBIUpdate_extracted huri hbody hcontains, json.unmarshal_dollar] at hhandled
              split_ifs at hhandled
              have heffect := List.cons.inj (Option.some.inj hhandled)
              obtain ⟨-, hnone⟩ := Effect.sendSet.inj heffect.1
              cases hnone
        · cases hhandled
  · rintro ⟨o, bodyJSON, rfl, hmarshal, huri, hbody, process, found, htarget, hfind, hcut, hle⟩
    have htext : fimsToC2C json (ascii "Setpoints") (writeOut ++ suffix) (json.object o) =
        ascii "Setpoints" ++ ascii "$$" ++ (writeOut ++ suffix) ++ ascii "$$" ++ bodyJSON := by
      rw [fimsToC2C, hmarshal]
    obtain ⟨hextractUri, hextractBody⟩ := extract_of_clean huri hbody
    refine ⟨o, rfl, ?_⟩
    rw [handleSetpoints, hprocess, htarget]
    rw [htext] at *
    rw [hextractUri]
    dsimp only
    rw [hfind]
    dsimp only
    have hcontains : contains (writeOut ++ suffix) found = true := by
      simpa using List.find?_some hfind
    rw [sendDBIUpdate_extracted hextractUri hextractBody hcontains, if_pos hle, hcut,
      ← destination_eq, json.unmarshal_object o bodyJSON hmarshal]

end Setpoints

/-! ## A setpoint of the site controller -/

/-- Two objects and an array. -/
inductive SampleBody where
  | object (maintMode : Bool)
  | array

/-- The texts of the bodies. -/
def SampleBody.text : SampleBody → List UInt8
  | .object true => ascii "\x7b\"maint_mode\":true\x7d"
  | .object false => ascii "\x7b\"maint_mode\":false\x7d"
  | .array => ascii "[true]"

/-- A library that reads the two objects. -/
def sampleLib : Lib ℕ Bool where
  parseFloat _ := none
  unmarshal json :=
    if json = (SampleBody.object true).text then some true
    else if json = (SampleBody.object false).text then some false
    else none

def sampleJson : JsonBodies sampleLib SampleBody where
  marshal body := some body.text
  object := .object
  unmarshal_object o json h := by
    cases h
    cases o <;> rfl
  unmarshal_other body json h hother := by
    cases h
    cases body with
    | object o => exact absurd rfl (hother o)
    | array => decide
  unmarshal_dollar json := by
    have hhead : ∀ o : Bool, dollarByte :: json ≠ (SampleBody.object o).text := by
      intro o heq
      have hfirst := congrArg List.head? heq
      cases o <;> cases hfirst
    simp only [sampleLib]
    rw [if_neg (hhead true), if_neg (hhead false)]

/-- A controller with one process, in a mode. -/
def siteController (mode : ControllerMode) : Controller ℕ where
  cops :=
    { amServerNotClient := true
      connected := true
      lastModeConfirmationFromOther := 0
      totalHealthThreshold := 1
      controllerMode := mode
      firstIteration := false
      querying := false }
  processJurisdiction :=
    [⟨ascii "site_controller", ascii "/site", [ascii "/cops/site_controller/setpoints"], false⟩]
  nodup_names := by simp

/-- A setpoint that is an object is delivered. -/
theorem handleSetpoints_delivers_object :
    Delivers sampleJson (ascii "/cops/site_controller/setpoints") (ascii "/assets/ess")
        (.object true) (handleSetpoints sampleLib (siteController .secondary)
          (fimsToC2C sampleJson (ascii "Setpoints")
            (ascii "/cops/site_controller/setpoints" ++ ascii "/assets/ess") (.object true))) ↔
      Deliverable sampleJson (siteController .primary) (ascii "/cops/site_controller/setpoints")
        (ascii "/assets/ess") (.object true) :=
  handleSetpoints_delivers_iff sampleJson rfl (by decide +kernel)

/-- A setpoint that is an array becomes one without a body. -/
theorem array_losesBody :
    handleSetWriteOut sampleJson (siteController .primary)
        (ascii "/cops/site_controller/setpoints" ++ ascii "/assets/ess") .array =
      some (ascii "Setpoints$$/cops/site_controller/setpoints/assets/ess$$[true]") ∧
    handleSetpoints sampleLib (siteController .secondary)
        (ascii "Setpoints$$/cops/site_controller/setpoints/assets/ess$$[true]") =
      some [.sendSet (ascii "/assets/ess") none] ∧
    ¬ Delivers sampleJson (ascii "/cops/site_controller/setpoints") (ascii "/assets/ess") .array
      (handleSetpoints sampleLib (siteController .secondary)
        (ascii "Setpoints$$/cops/site_controller/setpoints/assets/ess$$[true]")) := by
  refine ⟨by decide +kernel, by rfl, ?_⟩
  rintro ⟨o, hbody, -⟩
  cases hbody

end HybridOs.CopsDispatch
