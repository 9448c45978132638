import HybridOs.GoValue

/-!
# Heartbeats and patrols

The supervisor sends every process a counter and asks for it back. A reply that echoes the
counter advances it and is recorded as a sign of life. A patrol visits the processes and
declares one hung whose last sign of life is longer ago than its allowance. Every clock
reading is later than the one before it by the time that an event names, so the clock of a
run does not go back.
-/

namespace HybridOs.CopsHeartbeat

/-! ## Configuration -/

/-- `Process`: an entry of the process list. -/
structure Process where
  name : String
  uri : String
  /-- `connectionStatus`: poll the connection status on patrol. -/
  enableConnectionStatus : Bool
  killOnHang : Bool
  requiredForHealthyStatus : Bool
  /-- Milliseconds, zero when the configuration has none. -/
  hangTimeAllowanceMS : Int64
  deriving DecidableEq, Repr

/-- `Config`, what the supervision reads of it. -/
structure Config where
  /-- `controllerName`. -/
  name : String
  heartbeatFrequencyMS : Int64
  patrolFrequencyMS : Int64
  briefingFrequencyMS : Int64
  c2cMsgFrequencyMS : Int64
  connectionHangtimeAllowance : Int64
  enableRedundantFailover : Bool
  processList : List Process

/-- Why a configuration is refused. -/
inductive ConfigError where
  /-- "process name not provided". -/
  | processName
  /-- "process %v: %w". -/
  | process (key : ℕ) (err : ConfigError)
  /-- An error of `validateFailoverConfig`. -/
  | failover (text : String)
  deriving Repr

/-- The process with the default allowance where it has none. -/
def Process.withDefaults (p : Process) : Process :=
  if p.hangTimeAllowanceMS = 0 then {p with hangTimeAllowanceMS := 3000} else p

/-- `Process.validate`, with the process as it leaves it. -/
def Process.validate (p : Process) : Except ConfigError Process :=
  if p.name = "" then .error .processName else .ok p.withDefaults

/-- The loop over the process list. It validates a copy of each process, and what this
sets in the copy is dropped. -/
def validateProcesses (key : ℕ) : List Process → Except ConfigError Unit
  | [] => .ok ()
  | process :: rest =>
    match process.validate with
    | .error err => .error (.process key err)
    | .ok _ => validateProcesses (key + 1) rest

/-- A value, or its default where it is zero. -/
def orDefault (value default : Int64) : Int64 := if value = 0 then default else value

/-- `Config.validate`, on the host's name. `validateFailoverConfig` is a parameter that
checks the failover settings and gives the name that they leave. -/
def Config.validate (hostname : String) (validateFailoverConfig : Config → Except ConfigError String)
    (c : Config) : Except ConfigError Config := do
  let c := {c with
    name := if c.name = "" ∧ c.enableRedundantFailover = false then hostname else c.name
    heartbeatFrequencyMS := orDefault c.heartbeatFrequencyMS 1000
    patrolFrequencyMS := orDefault c.patrolFrequencyMS 1000
    briefingFrequencyMS := orDefault c.briefingFrequencyMS 5000
    c2cMsgFrequencyMS := orDefault c.c2cMsgFrequencyMS 50
    connectionHangtimeAllowance := orDefault c.connectionHangtimeAllowance 3500}
  validateProcesses 0 c.processList
  if c.enableRedundantFailover then
    let name ← validateFailoverConfig c
    .ok {c with name}
  else .ok c

/-! ## The process table -/

/-- `processVersion`. -/
structure ProcessVersion where
  tag : String
  commit : String
  build : String
  deriving DecidableEq, Repr

/-- `processHealthStats`, what the heartbeats and patrols keep of it. -/
structure ProcessHealthStats where
  totalRestarts : ℤ
  copsRestarts : ℤ
  /-- Nanoseconds. -/
  lastConfirmedAlive : ℤ
  deriving DecidableEq, Repr

/-- `processInfo`. -/
structure ProcessInfo where
  name : String
  uri : String
  enableConnectionStatus : Bool
  /-- Current heartbeat value. -/
  heartbeat : UInt64
  pid : ℤ
  /-- The process identifier that `processPtr` refers to. -/
  processPtr : Option ℤ
  alive : Bool
  killOnHang : Bool
  requiredForHealthyStatus : Bool
  /-- Nanoseconds. -/
  hangTimeAllowance : Int64
  healthStats : ProcessHealthStats
  version : ProcessVersion
  deriving DecidableEq, Repr

/-- What the supervisor sends and does. -/
inductive Output where
  /-- SET of the heartbeat value at the process. -/
  | setHeartbeat (uri : String) (heartbeat : UInt64)
  /-- GET of the heartbeat value at the process. -/
  | getHeartbeat (uri : String) (name : String)
  /-- `sendPrimaryFlag`. -/
  | primaryFlag (uri : String) (v : Bool)
  /-- The alarm for a hung process. -/
  | hungAlarm (name : String) (lastConfirmedAlive : ℤ) (sendingKill : Bool)
  /-- A kill signal. -/
  | kill (name : String) (pid : ℤ)
  /-- The alarm on the outcome of a kill. -/
  | killAlarm (name : String) (success : Bool)
  deriving DecidableEq, Repr

/-- The state of the supervisor. -/
structure Supervisor where
  /-- The last clock reading, in nanoseconds. -/
  clock : ℤ
  processJurisdiction : String → Option ProcessInfo
  isDbusValid : Bool
  outputs : List Output

/-- The table with an entry replaced. -/
def Supervisor.put (st : Supervisor) (name : String) (process : ProcessInfo) : Supervisor :=
  {st with processJurisdiction := fun other =>
    if other = name then some process else st.processJurisdiction other}

/-- The state after some outputs. -/
def Supervisor.send (st : Supervisor) (sent : List Output) : Supervisor :=
  {st with outputs := st.outputs ++ sent}

/-- The entry that `configureCOPS` makes for a process. -/
def processEntry (beginningTime : ℤ) (process : Process) : ProcessInfo where
  name := process.name
  uri := process.uri
  enableConnectionStatus := process.enableConnectionStatus
  heartbeat := 0
  pid := 0
  processPtr := none
  alive := true
  killOnHang := process.killOnHang
  requiredForHealthyStatus := process.requiredForHealthyStatus
  hangTimeAllowance := process.hangTimeAllowanceMS * 1000000
  healthStats := {
    totalRestarts := -1
    copsRestarts := 0
    lastConfirmedAlive := beginningTime}
  version := ⟨"", "", ""⟩

/-- The process that a name is configured for, the last one of that name. -/
def Config.process? (c : Config) (name : String) : Option Process :=
  c.processList.reverse.find? fun process => process.name = name

/-- `configureCOPS`. -/
def configureCOPS (beginningTime : ℤ) (c : Config) : Supervisor where
  clock := beginningTime
  processJurisdiction name := (c.process? name).map (processEntry beginningTime)
  isDbusValid := true
  outputs := []

/-! ## Heartbeats -/

/-- `extractMapStringInterfaceValue`, without the conversion. -/
def extractField (body : GoValue) (fieldName : String) : Option GoValue :=
  match body with
  | .map entries => entries.lookup fieldName
  | _ => none

/-- `parseHeartbeat`. -/
def parseHeartbeat (body : GoValue) : Option UInt64 :=
  match extractField body "cops_heartbeat" with
  | some (.float64 bits) => some (GoValue.floatToUint bits)
  | some (.int n) => some (UInt64.ofInt n)
  | _ => none

/-- `parsePID`. -/
def parsePID (body : GoValue) : Option ℤ := (extractField body "pid").bind GoValue.castToInt

/-- `parseStringFromMap`. -/
def parseStringFromMap (key : String) (body : GoValue) : Option String :=
  match extractField body key with
  | some (.string s) => some s
  | _ => none

/-- `updateHeartbeat`, with `recordResponse` at the clock reading. -/
def ProcessInfo.updateHeartbeat (process : ProcessInfo) (receivedHeartbeat : UInt64)
    (now : ℤ) : ProcessInfo :=
  if process.heartbeat = receivedHeartbeat then
    {process with
      heartbeat := process.heartbeat + 1
      healthStats := {process.healthStats with lastConfirmedAlive := now}}
  else process

/-- `updatePID`: finding a process by its identifier does not fail. -/
def ProcessInfo.updatePID (process : ProcessInfo) (readPID : ℤ) : ProcessInfo :=
  if process.pid = readPID then process
  else {process with
    pid := readPID
    processPtr := some readPID
    healthStats := {process.healthStats with
      totalRestarts := process.healthStats.totalRestarts + 1}}

/-- The version fields, up to the first that is missing. -/
def ProcessInfo.updateVersion (process : ProcessInfo) (body : GoValue) : ProcessInfo :=
  match parseStringFromMap "version_tag" body with
  | none => process
  | some tag =>
    let process := {process with version := {process.version with tag}}
    match parseStringFromMap "version_commit" body with
    | none => process
    | some commit =>
      let process := {process with version := {process.version with commit}}
      match parseStringFromMap "version_build" body with
      | none => process
      | some build => {process with version := {process.version with build}}

/-- `handleHeartbeatReply` on the entry of the process. -/
def ProcessInfo.handleHeartbeatReply (process : ProcessInfo) (body : GoValue) (now : ℤ) :
    ProcessInfo :=
  match parseHeartbeat body with
  | none => process
  | some receivedHeartbeat =>
    let process := process.updateHeartbeat receivedHeartbeat now
    match parsePID body with
    | none => process
    | some readPID => (process.updatePID readPID).updateVersion body

/-- The primary flag that a reply with a new process identifier sends. -/
def replyOutputs (process : ProcessInfo) (body : GoValue) (primary : Bool) : List Output :=
  match parseHeartbeat body, parsePID body with
  | some _, some readPID =>
    if process.pid ≠ readPID ∧ primary then [.primaryFlag process.uri true] else []
  | _, _ => []

/-! ## Patrols -/

/-- `time.Since`. -/
def timeSince (now t : ℤ) : ℤ := min (now - t) (2 ^ 63 - 1)

/-- `isHungOrDead` at a clock reading. -/
def ProcessInfo.isHungOrDead (process : ProcessInfo) (now : ℤ) : Bool :=
  decide (process.hangTimeAllowance.toInt <
    timeSince now process.healthStats.lastConfirmedAlive)

/-- `isResurrected` at a clock reading. -/
def ProcessInfo.isResurrected (process : ProcessInfo) (now : ℤ) : Bool :=
  !process.isHungOrDead now && !process.alive

/-- `isStillHungOrDead` at a clock reading. -/
def ProcessInfo.isStillHungOrDead (process : ProcessInfo) (now : ℤ) : Bool :=
  process.isHungOrDead now && !process.alive

/-- What `updateStatus` meets. -/
inductive StatusOutcome where
  | updated
  | failed
  /-- There is no service manager to ask. -/
  | noDbus
  deriving DecidableEq, Repr

/-- One process of a patrol, with what the environment does during it. -/
structure Visit where
  name : String
  /-- Time until the clock reading of `isStillHungOrDead`. -/
  untilStillDead : ℕ
  /-- Time from there to the reading of `isResurrected`. -/
  untilResurrected : ℕ
  /-- Time from there to the reading of `isHungOrDead`. -/
  untilHung : ℕ
  /-- Whether the controller is the primary one. -/
  primary : Bool
  /-- Whether the kill signal is delivered. -/
  killDelivered : Bool
  status : StatusOutcome
  /-- Whether the connection status can be asked for. -/
  pollSent : Bool
  deriving DecidableEq, Repr

/-- What `kill` returns: it needs a process to signal. -/
def killed (process : ProcessInfo) (visit : Visit) : Bool :=
  process.processPtr.isSome && visit.killDelivered

/-- The outputs of `takeFailureAction`. -/
def failureOutputs (process : ProcessInfo) (visit : Visit) : List Output :=
  .hungAlarm process.name process.healthStats.lastConfirmedAlive process.killOnHang ::
    if process.killOnHang then
      (process.processPtr.elim [] fun pid => [.kill visit.name pid]) ++
        [.killAlarm process.name (killed process visit)]
    else []

/-- `takeFailureAction` on the entry of the process. -/
def ProcessInfo.takeFailureAction (process : ProcessInfo) (visit : Visit) : ProcessInfo :=
  {process with
    alive := false
    healthStats := {process.healthStats with
      copsRestarts := if process.killOnHang && killed process visit then
        process.healthStats.copsRestarts + 1 else process.healthStats.copsRestarts}}

/-- The first reading of a visit. -/
def Visit.stillDeadAt (visit : Visit) (clock : ℤ) : ℤ := clock + visit.untilStillDead

/-- The second reading of a visit. -/
def Visit.resurrectedAt (visit : Visit) (clock : ℤ) : ℤ :=
  visit.stillDeadAt clock + visit.untilResurrected

/-- The last reading of a visit. -/
def Visit.hungAt (visit : Visit) (clock : ℤ) : ℤ :=
  visit.resurrectedAt clock + visit.untilHung

/-- The health check of a patrol on one process. -/
def visitProcess (st : Supervisor) (visit : Visit) (process : ProcessInfo) : Supervisor :=
  let after := {st with clock := visit.hungAt st.clock}
  if process.isStillHungOrDead (visit.stillDeadAt st.clock) then after
  else if process.isResurrected (visit.resurrectedAt st.clock) then
    (after.put visit.name {process with alive := true}).send
      [.primaryFlag process.uri visit.primary]
  else if process.isHungOrDead (visit.hungAt st.clock) && process.requiredForHealthyStatus then
    (after.put visit.name (process.takeFailureAction visit)).send (failureOutputs process visit)
  else after

/-- Whether the status or the connection poll ends the patrol with an error. -/
def endsPatrol (st : Supervisor) (process : ProcessInfo) (visit : Visit) : Bool :=
  (st.isDbusValid && visit.status ≠ .updated) ||
    (process.enableConnectionStatus && !visit.pollSent)

/-- `updateStatus` notices that there is no service manager. -/
def noteDbus (st : Supervisor) (visit : Visit) : Supervisor :=
  if visit.status = .noDbus then {st with isDbusValid := false} else st

/-- `patrolProcesses` over the table in the order of its iteration. -/
def patrolProcesses (st : Supervisor) : List Visit → Supervisor
  | [] => st
  | visit :: rest =>
    match st.processJurisdiction visit.name with
    | none => patrolProcesses st rest
    | some process =>
      let visited := noteDbus (visitProcess st visit process) visit
      if endsPatrol st process visit then visited else patrolProcesses visited rest

/-! ## Runs -/

/-- What happens at the supervisor. -/
inductive Event where
  /-- Time passes. -/
  | pass (elapsed : ℕ)
  /-- `manageHeartbeats` over the table in the order of its iteration. -/
  | heartbeats (order : List String)
  /-- A message for the reply URI of a process. -/
  | reply (name : String) (body : GoValue) (elapsed : ℕ) (primary : Bool)
  /-- A patrol. -/
  | patrol (visits : List Visit)

/-- `manageHeartbeats`: all SETs, then the GETs of the required processes. -/
def manageHeartbeats (st : Supervisor) (order : List String) : List Output :=
  let processes := order.filterMap st.processJurisdiction
  (processes.map fun process => .setHeartbeat process.uri process.heartbeat) ++
    (processes.filter (·.requiredForHealthyStatus)).map fun process =>
      .getHeartbeat process.uri process.name

/-- One event. -/
def step (st : Supervisor) : Event → Supervisor
  | .pass elapsed => {st with clock := st.clock + elapsed}
  | .heartbeats order => st.send (manageHeartbeats st order)
  | .reply name body elapsed primary =>
    match st.processJurisdiction name with
    | none => {st with clock := st.clock + elapsed}
    | some process =>
      ({st with clock := st.clock + elapsed}.put name
        (process.handleHeartbeatReply body (st.clock + elapsed))).send
        (replyOutputs process body primary)
  | .patrol visits => patrolProcesses st visits

/-- A run of events. -/
def run (st : Supervisor) (events : List Event) : Supervisor := events.foldl step st

/-!
## One event of the supervision

What a visit does to the process it visits and leaves of the others, what a patrol keeps,
and what one event does to the settings, the heartbeat value and the last sign of life of a
process.
-/

/-! ## What a step leaves alone -/

/-- The settings that a judgement of a process uses. -/
def ProcessInfo.settings (p : ProcessInfo) : Bool × Int64 :=
  (p.requiredForHealthyStatus, p.hangTimeAllowance)

/-- The heartbeat value and the time of the last sign of life. -/
def ProcessInfo.pulse (p : ProcessInfo) : UInt64 × ℤ :=
  (p.heartbeat, p.healthStats.lastConfirmedAlive)

/-- A kill signal for a process. -/
def isKill (name : String) : Output → Bool
  | .kill target _ => target = name
  | _ => false

/-- The kill signals sent to a process. -/
def killsOf (name : String) (st : Supervisor) : ℕ := st.outputs.countP (isKill name)

variable (st : Supervisor) (name : String) (p : ProcessInfo)

@[simp] theorem put_same : (st.put name p).processJurisdiction name = some p := by
  simp [Supervisor.put]

theorem put_ne {name other : String} (p : ProcessInfo) (h : name ≠ other) :
    (st.put other p).processJurisdiction name = st.processJurisdiction name := by
  simp [Supervisor.put, h]

@[simp] theorem put_clock : (st.put name p).clock = st.clock := rfl

variable (visits : List Visit) (body : GoValue) (sent : List Output)

@[simp] theorem send_table : (st.send sent).processJurisdiction = st.processJurisdiction := rfl

@[simp] theorem send_clock : (st.send sent).clock = st.clock := rfl

@[simp] theorem killsOf_put (other : String) (st : Supervisor) (p : ProcessInfo) :
    killsOf name (st.put other p) = killsOf name st := rfl

theorem killsOf_send (st : Supervisor) (sent : List Output) :
    killsOf name (st.send sent) = killsOf name st + sent.countP (isKill name) := by
  simp [killsOf, Supervisor.send]

variable (visit : Visit)

theorem noteDbus_table : (noteDbus st visit).processJurisdiction = st.processJurisdiction := by
  unfold noteDbus
  split_ifs <;> rfl

theorem noteDbus_clock : (noteDbus st visit).clock = st.clock := by
  unfold noteDbus
  split_ifs <;> rfl

theorem killsOf_noteDbus (st : Supervisor) (visit : Visit) :
    killsOf name (noteDbus st visit) = killsOf name st := by
  unfold noteDbus
  split_ifs <;> rfl

/-- A failure action signals no process but the visited one, and that one once at most. -/
theorem countP_failureOutputs :
    (failureOutputs p visit).countP (isKill name) ≤ 1 ∧
      (name ≠ visit.name → (failureOutputs p visit).countP (isKill name) = 0) := by
  unfold failureOutputs
  cases hkill : p.killOnHang with
  | false => simp [isKill]
  | true =>
    cases p.processPtr with
    | none => simp [isKill]
    | some pid =>
      by_cases hname : visit.name = name
      · simp [isKill, hname]
      · simp [isKill, hname]

/-! ## One visit -/

/-- What the health check does to the process that it visits. -/
inductive Checked (st : Supervisor) (visit : Visit) (p : ProcessInfo) (next : Supervisor) :
    Prop where
  /-- A living process that is not required or not hung, or a dead one that stays dead. -/
  | unchanged (table : next.processJurisdiction visit.name = some p)
      (kills : killsOf visit.name next = killsOf visit.name st)
      (judged : p.alive = true → p.requiredForHealthyStatus = true →
        p.isHungOrDead (visit.hungAt st.clock) = false)
  | resurrected (table : next.processJurisdiction visit.name = some {p with alive := true})
      (kills : killsOf visit.name next = killsOf visit.name st)
      (wasDead : p.alive = false)
      (judged : p.isHungOrDead (visit.resurrectedAt st.clock) = false)
  | declared (table : next.processJurisdiction visit.name = some (p.takeFailureAction visit))
      (kills : killsOf visit.name next ≤ killsOf visit.name st + 1)
      (required : p.requiredForHealthyStatus = true)
      (judged : p.isHungOrDead (visit.hungAt st.clock) = true)
      (notStill : p.isHungOrDead (visit.stillDeadAt st.clock) = true → p.alive = true)

theorem visitProcess_checked {st : Supervisor} {visit : Visit} {p : ProcessInfo}
    (hp : st.processJurisdiction visit.name = some p) :
    Checked st visit p (visitProcess st visit p) := by
  unfold visitProcess
  split_ifs with hstill hback hhung
  · rw [ProcessInfo.isStillHungOrDead, Bool.and_eq_true, Bool.not_eq_true'] at hstill
    exact .unchanged hp rfl fun halive => absurd (halive.symm.trans hstill.2) (by simp)
  · rw [ProcessInfo.isResurrected, Bool.and_eq_true, Bool.not_eq_true',
      Bool.not_eq_true'] at hback
    refine .resurrected (by simp) ?_ hback.2 hback.1
    rw [killsOf_send, killsOf_put]
    rfl
  · rw [Bool.and_eq_true] at hhung
    refine .declared (by simp) ?_ hhung.2 hhung.1 fun hfirst => ?_
    · rw [killsOf_send, killsOf_put]
      have hcount := (countP_failureOutputs visit.name p visit).1
      have hsame : killsOf visit.name {st with clock := visit.hungAt st.clock} =
        killsOf visit.name st := rfl
      omega
    · rw [ProcessInfo.isStillHungOrDead, hfirst] at hstill
      simpa using hstill
  · refine .unchanged hp rfl fun _ hrequired => ?_
    rw [hrequired, Bool.and_true] at hhung
    simpa using hhung

theorem visitProcess_ne {visit : Visit} (p : ProcessInfo) {name : String} (h : name ≠ visit.name) :
    (visitProcess st visit p).processJurisdiction name = st.processJurisdiction name ∧
      killsOf name (visitProcess st visit p) = killsOf name st := by
  unfold visitProcess
  dsimp only
  split_ifs
  · exact ⟨rfl, rfl⟩
  · rw [send_table, put_ne _ _ h, killsOf_send, killsOf_put]
    exact ⟨rfl, rfl⟩
  · rw [send_table, put_ne _ _ h, killsOf_send, killsOf_put,
      (countP_failureOutputs name p visit).2 h]
    exact ⟨rfl, rfl⟩
  · exact ⟨rfl, rfl⟩

theorem visitProcess_clock (p : ProcessInfo) :
    (visitProcess st visit p).clock = visit.hungAt st.clock := by
  unfold visitProcess
  split_ifs <;> rfl

/-- The readings of a visit follow one another. -/
theorem readings_le (clock : ℤ) :
    clock ≤ visit.stillDeadAt clock ∧ visit.stillDeadAt clock ≤ visit.resurrectedAt clock ∧
      visit.resurrectedAt clock ≤ visit.hungAt clock := by
  simp only [Visit.hungAt, Visit.resurrectedAt, Visit.stillDeadAt]
  omega

/-! ## One patrol -/

/-- One visit, with the status update. -/
def visitOne (st : Supervisor) (visit : Visit) : Supervisor :=
  match st.processJurisdiction visit.name with
  | none => st
  | some p => noteDbus (visitProcess st visit p) visit

/-- The visits that a patrol makes before an error ends it. -/
def visited (st : Supervisor) : List Visit → List Visit
  | [] => []
  | visit :: rest =>
    match st.processJurisdiction visit.name with
    | none => visited st rest
    | some p => visit :: if endsPatrol st p visit then [] else visited (visitOne st visit) rest

theorem patrolProcesses_eq : patrolProcesses st visits = (visited st visits).foldl visitOne st := by
  induction visits generalizing st with
  | nil => rfl
  | cons visit rest ih =>
    cases hp : st.processJurisdiction visit.name with
    | none =>
      rw [patrolProcesses, visited, hp]
      exact ih st
    | some p =>
      have hone : visitOne st visit = noteDbus (visitProcess st visit p) visit := by
        rw [visitOne, hp]
      rw [patrolProcesses, visited, hp]
      dsimp only
      rw [List.foldl_cons, hone]
      split_ifs
      · rfl
      · exact ih _

/-- The clock readings of some visits, with the process that each is about. -/
def visitReadings (clock : ℤ) : List Visit → List (String × ℤ)
  | [] => []
  | visit :: rest =>
    (visit.name, visit.stillDeadAt clock) :: (visit.name, visit.resurrectedAt clock) ::
      (visit.name, visit.hungAt clock) :: visitReadings (visit.hungAt clock) rest

variable {reading : String × ℤ} {R : String × ℤ → Prop} {I : Supervisor → Prop} {event : Event}

/-- The readings of a first visit are among those of the visits. -/
theorem mem_visitReadings_cons {clock : ℤ} {visit : Visit} {rest : List Visit}
    (h : reading ∈ visitReadings clock [visit]) :
    reading ∈ visitReadings clock (visit :: rest) := by
  simp only [visitReadings, List.mem_cons, List.not_mem_nil, or_false] at h ⊢
  rcases h with h | h | h <;> simp [h]

theorem visitOne_checked {st : Supervisor} {visit : Visit} {p : ProcessInfo}
    (hp : st.processJurisdiction visit.name = some p) : Checked st visit p (visitOne st visit) := by
  rw [visitOne, hp]
  cases visitProcess_checked hp with
  | unchanged table kills judged =>
    exact .unchanged (by rw [noteDbus_table, table]) (by rw [killsOf_noteDbus, kills]) judged
  | resurrected table kills wasDead judged =>
    exact .resurrected (by rw [noteDbus_table, table]) (by rw [killsOf_noteDbus, kills])
      wasDead judged
  | declared table kills required judged notStill =>
    exact .declared (by rw [noteDbus_table, table]) (by rw [killsOf_noteDbus]; exact kills)
      required judged notStill

theorem visitOne_ne {visit : Visit} {name : String} (h : name ≠ visit.name) :
    (visitOne st visit).processJurisdiction name = st.processJurisdiction name ∧
      killsOf name (visitOne st visit) = killsOf name st := by
  unfold visitOne
  split
  · exact ⟨rfl, rfl⟩
  · rw [noteDbus_table, killsOf_noteDbus]
    exact visitProcess_ne st _ h

/-- Outputs are not taken back. -/
theorem killsOf_le_visitOne (st : Supervisor) (visit : Visit) :
    killsOf name st ≤ killsOf name (visitOne st visit) := by
  unfold visitOne
  split
  · exact Nat.le_refl _
  · rw [killsOf_noteDbus]
    unfold visitProcess
    split_ifs
    · exact Nat.le_refl _
    · rw [killsOf_send]
      exact Nat.le_add_right _ _
    · rw [killsOf_send]
      exact Nat.le_add_right _ _
    · exact Nat.le_refl _

theorem visitOne_clock {st : Supervisor} {visit : Visit} {p : ProcessInfo}
    (hp : st.processJurisdiction visit.name = some p) :
    (visitOne st visit).clock = visit.hungAt st.clock := by
  rw [visitOne, hp]
  exact (noteDbus_clock _ visit).trans (visitProcess_clock st visit p)

/-- What every visit whose readings are in order keeps, a patrol keeps. -/
theorem patrol_rule (hkeep : ∀ st visit p, I st → st.processJurisdiction visit.name = some p →
      (∀ reading ∈ visitReadings st.clock [visit], R reading) → I (visitOne st visit))
    {st : Supervisor} (visits : List Visit) (hI : I st)
    (hR : ∀ reading ∈ visitReadings st.clock (visited st visits), R reading) :
    I (patrolProcesses st visits) := by
  induction visits generalizing st with
  | nil => exact hI
  | cons visit rest ih =>
    cases hp : st.processJurisdiction visit.name with
    | none =>
      rw [visited, hp] at hR
      rw [patrolProcesses, hp]
      exact ih hI hR
    | some p =>
      have hone : visitOne st visit = noteDbus (visitProcess st visit p) visit := by
        rw [visitOne, hp]
      rw [visited, hp] at hR
      dsimp only at hR
      have hfirst : ∀ reading ∈ visitReadings st.clock [visit], R reading :=
        fun reading hreading => hR reading (mem_visitReadings_cons hreading)
      have hnext := hkeep st visit p hI hp hfirst
      rw [patrolProcesses, hp]
      dsimp only
      rw [← hone]
      split_ifs with hends
      · exact hnext
      · refine ih hnext fun reading hreading => hR reading ?_
        rw [if_neg hends]
        rw [visitOne_clock hp] at hreading
        simp only [visitReadings, List.mem_cons]
        exact Or.inr (Or.inr (Or.inr hreading))

/-- What a visit to a process brings about and every visit keeps holds after a patrol that
gets to the process. -/
theorem patrol_reaches {J : Supervisor → Prop} {name : String}
    (hkeep : ∀ st visit p, I st → st.processJurisdiction visit.name = some p →
      (∀ reading ∈ visitReadings st.clock [visit], R reading) → I (visitOne st visit))
    (hbring : ∀ st visit p, I st → st.processJurisdiction visit.name = some p →
      (∀ reading ∈ visitReadings st.clock [visit], R reading) → visit.name = name →
      J (visitOne st visit))
    (hkept : ∀ st visit p, J st → st.processJurisdiction visit.name = some p →
      (∀ reading ∈ visitReadings st.clock [visit], R reading) → J (visitOne st visit))
    {st : Supervisor} (visits : List Visit) (hI : I st)
    (hR : ∀ reading ∈ visitReadings st.clock (visited st visits), R reading)
    (hname : name ∈ (visited st visits).map Visit.name) : J (patrolProcesses st visits) := by
  induction visits generalizing st with
  | nil => simp [visited] at hname
  | cons visit rest ih =>
    cases hp : st.processJurisdiction visit.name with
    | none =>
      rw [visited, hp] at hR hname
      rw [patrolProcesses, hp]
      exact ih hI hR hname
    | some p =>
      have hone : visitOne st visit = noteDbus (visitProcess st visit p) visit := by
        rw [visitOne, hp]
      rw [visited, hp] at hR hname
      dsimp only at hR hname
      have hfirst : ∀ reading ∈ visitReadings st.clock [visit], R reading :=
        fun reading hreading => hR reading (mem_visitReadings_cons hreading)
      have hlater : endsPatrol st p visit ≠ true → ∀ reading ∈ visitReadings
          (visitOne st visit).clock (visited (visitOne st visit) rest), R reading := by
        intro hends reading hreading
        apply hR
        rw [if_neg hends]
        rw [visitOne_clock hp] at hreading
        simp only [visitReadings, List.mem_cons]
        exact Or.inr (Or.inr (Or.inr hreading))
      rw [patrolProcesses, hp]
      dsimp only
      rw [← hone]
      rw [List.map_cons, List.mem_cons] at hname
      by_cases hhere : visit.name = name
      · have hnow := hbring st visit p hI hp hfirst hhere
        split_ifs with hends
        · exact hnow
        · exact patrol_rule hkept rest hnow (hlater hends)
      · have hmem := hname.resolve_left fun heq => hhere heq.symm
        by_cases hends : endsPatrol st p visit = true
        · rw [if_pos hends] at hmem
          simp at hmem
        · rw [if_neg hends] at hmem
          rw [if_neg hends]
          exact ih (hkeep st visit p hI hp hfirst) (hlater hends) hmem

/-! ## One step -/

/-- The settings and the pulse of a process are still those. -/
def Steady (name : String) (p : ProcessInfo) (st : Supervisor) : Prop :=
  ∃ p', st.processJurisdiction name = some p' ∧ p'.settings = p.settings ∧ p'.pulse = p.pulse

theorem steady_visitOne {name : String} {p q : ProcessInfo} {st : Supervisor} {visit : Visit}
    (h : Steady name p st) (hq : st.processJurisdiction visit.name = some q) :
    Steady name p (visitOne st visit) := by
  obtain ⟨p', hp', hsettings, hpulse⟩ := h
  by_cases hname : name = visit.name
  · subst hname
    obtain rfl : p' = q := Option.some_inj.mp (hp'.symm.trans hq)
    cases visitOne_checked hq with
    | unchanged table => exact ⟨p', table, hsettings, hpulse⟩
    | resurrected table | declared table => exact ⟨_, table, hsettings, hpulse⟩
  · exact ⟨p', (visitOne_ne st hname).1.trans hp', hsettings, hpulse⟩

/-- A patrol leaves the settings and the pulse of every process. -/
theorem steady_patrol {name : String} {p : ProcessInfo} {st : Supervisor} (h : Steady name p st) :
    Steady name p (patrolProcesses st visits) :=
  patrol_rule (R := fun _ => True) (fun _ _ _ hsteady hq _ => steady_visitOne hsteady hq) visits h
    fun _ _ => trivial

/-- A patrol takes time. -/
theorem clock_le_patrol : st.clock ≤ (patrolProcesses st visits).clock := by
  refine patrol_rule (R := fun _ => True) (I := fun next => st.clock ≤ next.clock)
    (fun mid visit p hmid hp _ => ?_) visits (Int.le_refl _) fun _ _ => trivial
  have horder := readings_le visit mid.clock
  rw [visitOne_clock hp]
  omega

/-- The readings of a patrol come before its end. -/
theorem readings_le_patrol {st : Supervisor} {visits : List Visit}
    (h : reading ∈ visitReadings st.clock (visited st visits)) :
    reading.2 ≤ (patrolProcesses st visits).clock := by
  induction visits generalizing st with
  | nil => simp [visited, visitReadings] at h
  | cons visit rest ih =>
    cases hp : st.processJurisdiction visit.name with
    | none =>
      rw [visited, hp] at h
      rw [patrolProcesses, hp]
      exact ih h
    | some p =>
      have hone : visitOne st visit = noteDbus (visitProcess st visit p) visit := by
        rw [visitOne, hp]
      have hclock := visitOne_clock hp
      have horder := readings_le visit st.clock
      have hend := clock_le_patrol (visitOne st visit) rest
      rw [visited, hp] at h
      rw [patrolProcesses, hp]
      dsimp only at h ⊢
      rw [← hone]
      simp only [visitReadings, List.mem_cons] at h
      split_ifs at h ⊢
      · rcases h with rfl | rfl | rfl | h
        · dsimp only
          omega
        · dsimp only
          omega
        · dsimp only
          omega
        · simp [visitReadings] at h
      · rcases h with rfl | rfl | rfl | h
        · dsimp only
          omega
        · dsimp only
          omega
        · dsimp only
          omega
        · rw [← hclock] at h
          exact ih h

/-- The reply that echoes the current value of a process. -/
def Echoes (name : String) (p : ProcessInfo) : Event → Prop
  | .reply target body _ _ => target = name ∧ parseHeartbeat body = some p.heartbeat
  | _ => False

theorem updateVersion_same :
    (p.updateVersion body).settings = p.settings ∧ (p.updateVersion body).pulse = p.pulse ∧
      (p.updateVersion body).alive = p.alive := by
  unfold ProcessInfo.updateVersion
  split
  · exact ⟨rfl, rfl, rfl⟩
  · dsimp only
    split
    · exact ⟨rfl, rfl, rfl⟩
    · split <;> exact ⟨rfl, rfl, rfl⟩

theorem updatePID_same (readPID : ℤ) :
    (p.updatePID readPID).settings = p.settings ∧ (p.updatePID readPID).pulse = p.pulse ∧
      (p.updatePID readPID).alive = p.alive := by
  unfold ProcessInfo.updatePID
  split_ifs <;> exact ⟨rfl, rfl, rfl⟩

/-- A reply changes the pulse exactly when it echoes the current value, which it moves on. -/
theorem handleHeartbeatReply_same (now : ℤ) :
    (p.handleHeartbeatReply body now).settings = p.settings ∧
      (p.handleHeartbeatReply body now).alive = p.alive ∧
      (p.handleHeartbeatReply body now).pulse =
        if parseHeartbeat body = some p.heartbeat then (p.heartbeat + 1, now) else p.pulse := by
  unfold ProcessInfo.handleHeartbeatReply
  cases hparse : parseHeartbeat body with
  | none => simp
  | some receivedHeartbeat =>
    have hupdate : (p.updateHeartbeat receivedHeartbeat now).settings = p.settings ∧
        (p.updateHeartbeat receivedHeartbeat now).alive = p.alive ∧
        (p.updateHeartbeat receivedHeartbeat now).pulse =
          if some receivedHeartbeat = some p.heartbeat then (p.heartbeat + 1, now)
          else p.pulse := by
      unfold ProcessInfo.updateHeartbeat
      by_cases heq : p.heartbeat = receivedHeartbeat
      · rw [if_pos heq, if_pos (by rw [heq])]
        exact ⟨rfl, rfl, rfl⟩
      · rw [if_neg heq, if_neg fun h => heq (Option.some_inj.mp h).symm]
        exact ⟨rfl, rfl, rfl⟩
    dsimp only
    cases parsePID body with
    | none => exact hupdate
    | some readPID =>
      obtain ⟨hversion, hversionPulse, hversionAlive⟩ := updateVersion_same
        ((p.updateHeartbeat receivedHeartbeat now).updatePID readPID) body
      obtain ⟨hpid, hpidPulse, hpidAlive⟩ := updatePID_same
        (p.updateHeartbeat receivedHeartbeat now) readPID
      dsimp only
      rw [hversion, hversionPulse, hversionAlive, hpid, hpidPulse, hpidAlive]
      exact hupdate

theorem countP_replyOutputs (primary : Bool) :
    (replyOutputs p body primary).countP (isKill name) = 0 := by
  unfold replyOutputs
  split
  · split_ifs <;> simp [isKill]
  · rfl

theorem countP_manageHeartbeats (st : Supervisor) (order : List String) :
    (manageHeartbeats st order).countP (isKill name) = 0 := by
  simp [manageHeartbeats, isKill]

theorem clock_le_step (event : Event) : st.clock ≤ (step st event).clock := by
  cases event with
  | pass elapsed =>
    simp only [step]
    omega
  | heartbeats order => exact Int.le_refl _
  | reply name body elapsed primary =>
    simp only [step]
    split
    · dsimp only
      omega
    · simp only [send_clock, put_clock]
      omega
  | patrol visits => exact clock_le_patrol st visits

variable {st} {name} {p}

/-- A step keeps the settings of a process, and its pulse unless it is the reply that echoes
the current value. -/
theorem step_steady (hp : st.processJurisdiction name = some p) (event : Event)
    (hecho : ¬ Echoes name p event) : Steady name p (step st event) := by
  cases event with
  | pass elapsed | heartbeats order => exact ⟨p, hp, rfl, rfl⟩
  | patrol visits => exact steady_patrol visits ⟨p, hp, rfl, rfl⟩
  | reply target body elapsed primary =>
    by_cases hname : name = target
    · subst hname
      obtain ⟨hsettings, -, hpulse⟩ :=
        handleHeartbeatReply_same p body (st.clock + elapsed)
      rw [if_neg fun hparse => hecho ⟨rfl, hparse⟩] at hpulse
      refine ⟨_, ?_, hsettings, hpulse⟩
      simp only [step, hp, send_table, put_same]
    · refine ⟨p, ?_, rfl, rfl⟩
      simp only [step]
      split
      · exact hp
      · rw [send_table, put_ne _ _ hname]
        exact hp

/-- The reply that echoes the current value moves it on and is the last sign of life. -/
theorem step_echo (hp : st.processJurisdiction name = some p) (hecho : Echoes name p event) :
    ∃ p', (step st event).processJurisdiction name = some p' ∧ p'.settings = p.settings ∧
      p'.alive = p.alive ∧ p'.pulse = (p.heartbeat + 1, (step st event).clock) := by
  cases event with
  | pass elapsed | heartbeats order | patrol visits => exact absurd hecho id
  | reply target body elapsed primary =>
    obtain ⟨rfl, hparse⟩ := hecho
    obtain ⟨hsettings, halive, hpulse⟩ :=
      handleHeartbeatReply_same p body (st.clock + elapsed)
    rw [if_pos hparse] at hpulse
    refine ⟨_, ?_, hsettings, halive, hpulse.trans ?_⟩
    · simp only [step, hp, send_table, put_same]
    · simp [step, hp]

/-- A silent step keeps the alive flag, unless it is a patrol. -/
theorem step_alive {p' : ProcessInfo} (hp : st.processJurisdiction name = some p)
    (hp' : (step st event).processJurisdiction name = some p')
    (hpatrol : ∀ visits, event ≠ .patrol visits) :
    p'.alive = p.alive ∧ killsOf name (step st event) = killsOf name st := by
  cases event with
  | pass elapsed => exact ⟨congrArg _ (Option.some_inj.mp (hp'.symm.trans hp)), rfl⟩
  | heartbeats order =>
    refine ⟨congrArg _ (Option.some_inj.mp (hp'.symm.trans hp)), ?_⟩
    rw [step, killsOf_send, countP_manageHeartbeats, Nat.add_zero]
  | patrol visits => exact absurd rfl (hpatrol visits)
  | reply target body elapsed primary =>
    simp only [step] at hp' ⊢
    split at hp'
    · exact ⟨congrArg _ (Option.some_inj.mp (hp'.symm.trans hp)), rfl⟩
    next q hq =>
      rw [killsOf_send, killsOf_put, countP_replyOutputs, Nat.add_zero]
      refine ⟨?_, rfl⟩
      by_cases hname : name = target
      · subst hname
        rw [send_table, put_same, Option.some_inj] at hp'
        rw [← hp', (handleHeartbeatReply_same q body _).2.1]
        exact congrArg _ (Option.some_inj.mp (hq.symm.trans hp))
      · rw [send_table, put_ne _ _ hname] at hp'
        exact congrArg _ (Option.some_inj.mp (hp'.symm.trans hp))

theorem step_settings (hp : st.processJurisdiction name = some p) (event : Event) :
    ∃ p', (step st event).processJurisdiction name = some p' ∧ p'.settings = p.settings := by
  by_cases hecho : Echoes name p event
  · obtain ⟨p', hp', hsettings, -⟩ := step_echo hp hecho
    exact ⟨p', hp', hsettings⟩
  · obtain ⟨p', hp', hsettings, -⟩ := step_steady hp event hecho
    exact ⟨p', hp', hsettings⟩

/-!
## Whom a patrol visits

A patrol should decide for every process whether it is hung, whatever the service manager says
about the others. The first error in asking for the state or the connection of a process ends
the patrol, so it decides for all processes only where no process but the last one errs.
-/

/-- The status or the connection of a process cannot be had. -/
def errs (st : Supervisor) (visit : Visit) : Bool :=
  match st.processJurisdiction visit.name with
  | none => false
  | some process => endsPatrol st process visit

/-- The visits go through the table in some order. -/
structure InOrder (st : Supervisor) (visits : List Visit) : Prop where
  nodup : (visits.map Visit.name).Nodup
  mem_iff : ∀ name, name ∈ visits.map Visit.name ↔ (st.processJurisdiction name).isSome

/-- The clock after some visits. -/
def clockAfter (clock : ℤ) (visits : List Visit) : ℤ :=
  visits.foldl (fun clock visit => visit.hungAt clock) clock

/-- The patrol decides for every process, and a required one that is hung is marked dead. -/
structure DecidesAll (st : Supervisor) (visits : List Visit) : Prop where
  visited : visited st visits = visits
  markedDead : ∀ earlier visit later process, visits = earlier ++ visit :: later →
    st.processJurisdiction visit.name = some process → process.alive = true →
    process.requiredForHealthyStatus = true →
    process.isHungOrDead (visit.hungAt (clockAfter st.clock earlier)) = true →
    ∃ marked, (patrolProcesses st visits).processJurisdiction visit.name = some marked ∧
      marked.alive = false

/-! ## Errors -/

theorem visitProcess_isDbusValid (st : Supervisor) (visit : Visit) (p : ProcessInfo) :
    (visitProcess st visit p).isDbusValid = st.isDbusValid := by
  unfold visitProcess
  split_ifs <;> rfl

variable {st : Supervisor} {visit : Visit}

/-- A visit without an error leaves the service manager as it is. -/
theorem visitOne_isDbusValid (herrs : errs st visit = false) :
    (visitOne st visit).isDbusValid = st.isDbusValid := by
  unfold visitOne
  rw [errs] at herrs
  cases hp : st.processJurisdiction visit.name with
  | none => rfl
  | some p =>
    rw [hp] at herrs
    simp only [endsPatrol, Bool.or_eq_false_iff, Bool.and_eq_false_iff] at herrs
    simp only [noteDbus]
    split_ifs with hdbus
    · rcases herrs.1 with hinvalid | hupdated
      · exact hinvalid.symm
      · simp [hdbus] at hupdated
    · exact visitProcess_isDbusValid st visit p

/-- A visit without an error changes nothing about the errors of others. -/
theorem errs_visitOne {other : Visit} (herrs : errs st visit = false)
    (hname : other.name ≠ visit.name) : errs (visitOne st visit) other = errs st other := by
  have htable := (visitOne_ne st hname).1
  have hdbus := visitOne_isDbusValid herrs
  rw [errs, errs, htable]
  cases st.processJurisdiction other.name with
  | none => rfl
  | some p => simp only [endsPatrol, hdbus]

/-! ## Which visits are made -/

/-- Entries of the table are not removed. -/
theorem visitOne_isSome {name : String} (visit : Visit)
    (hsome : (st.processJurisdiction name).isSome = true) :
    ((visitOne st visit).processJurisdiction name).isSome = true := by
  by_cases hname : name = visit.name
  · subst hname
    obtain ⟨p, hp⟩ := Option.isSome_iff_exists.1 hsome
    cases visitOne_checked hp with
    | unchanged table | resurrected table | declared table => simp [table]
  · rw [(visitOne_ne st hname).1]
    exact hsome

/-- All visits are made exactly where none but the last one errs. -/
theorem visited_eq_iff (visits : List Visit) :
    ∀ st : Supervisor, (visits.map Visit.name).Nodup →
      (∀ visit ∈ visits, (st.processJurisdiction visit.name).isSome = true) →
      (visited st visits = visits ↔ ∀ visit ∈ visits.dropLast, errs st visit = false) := by
  induction visits with
  | nil =>
    intro st _ _
    simp [visited]
  | cons visit rest ih =>
    intro st hnodup hknown
    rw [List.map_cons, List.nodup_cons] at hnodup
    obtain ⟨p, hp⟩ := Option.isSome_iff_exists.1 (hknown visit List.mem_cons_self)
    have herrs : errs st visit = endsPatrol st p visit := by
      rw [errs, hp]
    rw [visited, hp]
    dsimp only
    rw [← herrs]
    cases rest with
    | nil =>
      simp [visited]
    | cons next others =>
      rw [List.dropLast_cons_of_ne_nil (List.cons_ne_nil next others), List.forall_mem_cons]
      cases hvisit : errs st visit with
      | true => simp
      | false =>
        have hnext := ih (visitOne st visit) hnodup.2 fun other hother =>
          visitOne_isSome visit (hknown other (List.mem_cons_of_mem visit hother))
        have hsame : ∀ other ∈ (next :: others).dropLast,
            errs (visitOne st visit) other = errs st other := by
          intro other hother
          apply errs_visitOne hvisit
          intro heq
          apply hnodup.1
          rw [← heq]
          exact List.mem_map_of_mem (List.dropLast_subset _ hother)
        simp only [Bool.false_eq_true, if_false, List.cons.injEq, true_and, hnext]
        exact forall₂_congr fun other hother => by rw [hsame other hother]

/-! ## Whom all visits mark dead -/

/-- Visits to others leave a process alone and only let time pass. -/
theorem foldl_visitOne_other (visits : List Visit) :
    ∀ st : Supervisor, ∀ name, name ∉ visits.map Visit.name →
      (∀ visit ∈ visits, (st.processJurisdiction visit.name).isSome = true) →
      (visits.foldl visitOne st).processJurisdiction name = st.processJurisdiction name ∧
        (visits.foldl visitOne st).clock = clockAfter st.clock visits := by
  induction visits with
  | nil =>
    intro st name _ _
    exact ⟨rfl, rfl⟩
  | cons visit rest ih =>
    intro st name hname hknown
    rw [List.map_cons, List.mem_cons, not_or] at hname
    obtain ⟨p, hp⟩ := Option.isSome_iff_exists.1 (hknown visit List.mem_cons_self)
    have hrest := ih (visitOne st visit) name hname.2 fun other hother =>
      visitOne_isSome visit (hknown other (List.mem_cons_of_mem visit hother))
    rw [(visitOne_ne st hname.1).1, visitOne_clock hp] at hrest
    exact hrest

/-- A living required process that is hung is declared dead by its visit. -/
theorem visitOne_marks {p : ProcessInfo} (hp : st.processJurisdiction visit.name = some p)
    (halive : p.alive = true) (hrequired : p.requiredForHealthyStatus = true)
    (hhung : p.isHungOrDead (visit.hungAt st.clock) = true) :
    (visitOne st visit).processJurisdiction visit.name = some (p.takeFailureAction visit) := by
  cases visitOne_checked hp with
  | unchanged table kills judged =>
    have hjudged := judged halive hrequired
    rw [hhung] at hjudged
    contradiction
  | resurrected table kills wasDead =>
    rw [halive] at wasDead
    contradiction
  | declared table => exact table

/-- Where all visits are made, every hung process is marked dead. -/
theorem markedDead_of_visited {visits : List Visit} (horder : InOrder st visits)
    (hvisited : visited st visits = visits) {earlier later : List Visit} {p : ProcessInfo}
    (hsplit : visits = earlier ++ visit :: later) (hp : st.processJurisdiction visit.name = some p)
    (halive : p.alive = true) (hrequired : p.requiredForHealthyStatus = true)
    (hhung : p.isHungOrDead (visit.hungAt (clockAfter st.clock earlier)) = true) :
    ∃ marked, (patrolProcesses st visits).processJurisdiction visit.name = some marked ∧
      marked.alive = false := by
  have hknown : ∀ other ∈ visits, (st.processJurisdiction other.name).isSome = true :=
    fun other hother => (horder.mem_iff other.name).1 (List.mem_map_of_mem hother)
  have hnodup := horder.nodup
  rw [hsplit, List.map_append, List.map_cons, List.nodup_append] at hnodup
  obtain ⟨-, hlast, hdisjoint⟩ := hnodup
  have hearlier : visit.name ∉ earlier.map Visit.name := fun hmem =>
    hdisjoint visit.name hmem visit.name List.mem_cons_self rfl
  have hlater : visit.name ∉ later.map Visit.name := (List.nodup_cons.1 hlast).1
  have hbefore := foldl_visitOne_other earlier st visit.name hearlier fun other hother =>
    hknown other (by rw [hsplit]; exact List.mem_append_left _ hother)
  have hmarks : (visitOne (earlier.foldl visitOne st) visit).processJurisdiction visit.name =
      some (p.takeFailureAction visit) := by
    apply visitOne_marks
    · rw [hbefore.1, hp]
    · exact halive
    · exact hrequired
    · rw [hbefore.2]
      exact hhung
  have hfold : ∀ (visits : List Visit) (st : Supervisor) (name : String),
      (st.processJurisdiction name).isSome = true →
        ((visits.foldl visitOne st).processJurisdiction name).isSome = true := by
    intro visits
    induction visits with
    | nil => exact fun _ _ hsome => hsome
    | cons visit rest ih => exact fun st name hsome => ih _ name (visitOne_isSome visit hsome)
  have hafter := foldl_visitOne_other later (visitOne (earlier.foldl visitOne st) visit)
    visit.name hlater fun other hother => visitOne_isSome visit (hfold earlier st other.name
      (hknown other (by
        rw [hsplit]
        exact List.mem_append_right _ (List.mem_cons_of_mem visit hother))))
  refine ⟨p.takeFailureAction visit, ?_, rfl⟩
  rw [patrolProcesses_eq, hvisited, hsplit, List.foldl_append, List.foldl_cons, hafter.1, hmarks]

/-- A patrol decides for all processes exactly where none but the last one of its order errs. -/
theorem decidesAll_iff {st : Supervisor} {visits : List Visit} (horder : InOrder st visits) :
    DecidesAll st visits ↔ ∀ visit ∈ visits.dropLast, errs st visit = false := by
  have hknown : ∀ visit ∈ visits, (st.processJurisdiction visit.name).isSome = true :=
    fun visit hvisit => (horder.mem_iff visit.name).1 (List.mem_map_of_mem hvisit)
  rw [← visited_eq_iff visits st horder.nodup hknown]
  constructor
  · exact fun hall => hall.visited
  · intro hvisited
    exact {
      visited := hvisited
      markedDead := fun _ _ _ _ hsplit hp halive hrequired hhung =>
        markedDead_of_visited horder hvisited hsplit hp halive hrequired hhung }

/-! ## Two processes -/

/-- A required process with an allowance of three seconds. -/
def requiredProcess (name : String) : Process where
  name := name
  uri := "/" ++ name
  enableConnectionStatus := false
  killOnHang := false
  requiredForHealthyStatus := true
  hangTimeAllowanceMS := 3000

/-- A configuration with some required processes. -/
def requiredConfig (names : List String) : Config where
  name := "controller"
  heartbeatFrequencyMS := 1000
  patrolFrequencyMS := 1000
  briefingFrequencyMS := 5000
  c2cMsgFrequencyMS := 50
  connectionHangtimeAllowance := 3500
  enableRedundantFailover := false
  processList := names.map requiredProcess

/-- A visit ten seconds after the one before, with what the service manager says. -/
def lateVisit (name : String) (status : StatusOutcome) : Visit where
  name := name
  untilStillDead := 10000000000
  untilResurrected := 0
  untilHung := 0
  primary := false
  killDelivered := false
  status := status
  pollSent := true

theorem twoProcesses_inOrder (status : StatusOutcome) :
    InOrder (configureCOPS 0 (requiredConfig ["ess", "site"]))
      [lateVisit "ess" status, lateVisit "site" .updated] where
  nodup := by simp [lateVisit]
  mem_iff := by
    intro name
    simp only [configureCOPS, Config.process?, requiredConfig, requiredProcess, lateVisit,
      List.map_cons]
    by_cases hsite : "site" = name
    · simp [hsite.symm]
    · by_cases hess : "ess" = name
      · simp [hess.symm]
      · have hsite' : name ≠ "site" := fun heq => hsite heq.symm
        have hess' : name ≠ "ess" := fun heq => hess heq.symm
        simp [hsite, hess, hsite', hess']

theorem decidesAll_iff_updated :
    DecidesAll (configureCOPS 0 (requiredConfig ["ess", "site"]))
      [lateVisit "ess" .updated, lateVisit "site" .updated] := by
  refine (decidesAll_iff (twoProcesses_inOrder .updated)).2 ?_
  intro visit hvisit
  simp only [List.dropLast, List.mem_singleton] at hvisit
  rw [hvisit]
  decide

/-- The state of the first process cannot be had, and the second one stays alive. -/
theorem hung_process_missed :
    ¬ ∀ (st : Supervisor) (visits : List Visit), InOrder st visits → DecidesAll st visits := by
  intro hall
  have hdecides := hall _ _ (twoProcesses_inOrder .failed)
  have hvisited := hdecides.visited
  revert hvisited
  decide

end HybridOs.CopsHeartbeat
