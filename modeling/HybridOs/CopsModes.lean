import HybridOs.CheckedRun

/-!
# Mode negotiation of two controllers

Two controllers poll each other over one connection: one that is not primary asks the other
what mode to run in, and the answer carries the other's health score. A controller takes
over when it is told to be primary, or when the other's score is below its threshold. The
restart of the other controller that goes with a takeover is not part of a step.
-/

namespace HybridOs.CopsNegotiator

/-! ## One controller -/

/-- The modes of a controller. -/
inductive ControllerMode where
  | primary | secondary | update
  deriving DecidableEq, Repr

/-- What controllers send each other. A health score is what its reader parses, if it
parses. -/
inductive C2CMsg (Score : Type) where
  | modeQuery
  | modeCommand (mode : ControllerMode) (totalHealthScore : Option Score)
  | setpoints
  | getDBIUpdate
  | setDBIUpdate
  deriving DecidableEq, Repr

/-- The part of a controller that negotiates. -/
structure Cops (Score : Type) where
  /-- `c2c.amServerNotClient`. -/
  amServerNotClient : Bool
  /-- `c2c.connected`. -/
  connected : Bool
  /-- `c2c.lastModeConfirmationFromOther`, in milliseconds. -/
  lastModeConfirmationFromOther : ℕ
  /-- `dr.totalHealthThreshold`. -/
  totalHealthThreshold : Score
  /-- `controllerMode`. -/
  controllerMode : ControllerMode
  /-- `firstIteration`. -/
  firstIteration : Bool
  /-- A poll that found the controller not primary has not sent its query yet. -/
  querying : Bool
  deriving DecidableEq, Repr

/-- `isIPLessThan`, on the numbers of the two addresses; equal ones are an error. -/
def isIPLessThan (ip1 ip2 : ℕ) : Option Bool :=
  if ip1 = ip2 then none else some (ip1 < ip2)

/-- Of two controllers exactly one is the server. -/
theorem isIPLessThan_swap {ip1 ip2 : ℕ} {server : Bool} (h : isIPLessThan ip1 ip2 = some server) :
    isIPLessThan ip2 ip1 = some !server := by
  rw [isIPLessThan] at h ⊢
  split_ifs at h with hsame
  rw [if_neg (Ne.symm hsame), ← Option.some.inj h]
  congr 1
  rw [← decide_not, decide_eq_decide]
  omega

/-- `replyFromOtherAllowableDelay`, in milliseconds. -/
def replyFromOtherAllowableDelay : ℕ := 3000

section Controller

variable {Score : Type}

/-- `sendC2CMsg`: messages go out while the connection stands. -/
def sendC2CMsg (c : Cops Score) (msg : C2CMsg Score) : List (C2CMsg Score) :=
  if c.connected then [msg] else []

/-- `otherControllerIsUnresponsive`. -/
def otherControllerIsUnresponsive (now : ℕ) (c : Cops Score) : Bool :=
  !c.connected || now - c.lastModeConfirmationFromOther > replyFromOtherAllowableDelay

/-- `takeOverAsPrimary`: its effect on the negotiation. -/
def takeOverAsPrimary (c : Cops Score) : Cops Score := { c with controllerMode := .primary }

/-- `checkControllerMode`, up to the sending of its query. -/
def checkControllerMode (now : ℕ) (c : Cops Score) : Cops Score :=
  if c.controllerMode ≠ .update ∧ otherControllerIsUnresponsive now c then takeOverAsPrimary c
  else { c with querying := true }

/-- One tick of `negotiateControllerMode`. -/
def negotiateControllerMode (now : ℕ) (c : Cops Score) : Cops Score :=
  if c.controllerMode ≠ .primary then checkControllerMode now c else c

/-- The mode `replyToModeQueryMsg` tells the other controller. -/
def modeForOther (c : Cops Score) : ControllerMode :=
  if c.controllerMode = .primary ∨ (c.amServerNotClient ∧ c.controllerMode ≠ .update) then
    .secondary
  else .primary

/-- `replyToModeQueryMsg`, with the score the other controller will read. -/
def replyToModeQueryMsg (totalHealthScore : Option Score) (c : Cops Score) :
    List (C2CMsg Score) :=
  sendC2CMsg c (.modeCommand (modeForOther c) totalHealthScore)

variable [LT Score] [DecidableLT Score]

/-- The health score of the other controller parses and is below the threshold. -/
def LowScore (c : Cops Score) (score : Option Score) : Prop :=
  ∃ s, score = some s ∧ s < c.totalHealthThreshold

instance (c : Cops Score) (score : Option Score) : Decidable (LowScore c score) :=
  match score with
  | none => isFalse fun h => by
      obtain ⟨_, hs, -⟩ := h
      exact Option.noConfusion rfl (heq_of_eq hs)
  | some s => decidable_of_iff (s < c.totalHealthThreshold)
      ⟨fun h => ⟨s, rfl, h⟩, fun ⟨_, hs, h⟩ => Option.some.inj hs ▸ h⟩

/-- `processModeCommand`. -/
def processModeCommand (now : ℕ) (modeCommand : ControllerMode) (score : Option Score)
    (c : Cops Score) : Cops Score × List (C2CMsg Score) :=
  let confirmed (c : Cops Score) : Cops Score := { c with lastModeConfirmationFromOther := now }
  if (modeCommand = .primary ∧ c.controllerMode = .secondary) ∨
      (c.controllerMode ≠ .update ∧ LowScore c score) then
    (confirmed (takeOverAsPrimary c), [])
  else if modeCommand = .secondary ∧ c.controllerMode = .secondary ∧ c.firstIteration then
    (confirmed { c with firstIteration := false }, sendC2CMsg c .getDBIUpdate)
  else (confirmed c, [])

/-- One message of `processC2C`; the handlers of settings do not negotiate. -/
def processC2C (now : ℕ) (totalHealthScore : Option Score) (msg : C2CMsg Score)
    (c : Cops Score) : Cops Score × List (C2CMsg Score) :=
  match msg with
  | .modeQuery => (c, replyToModeQueryMsg totalHealthScore c)
  | .modeCommand mode score => processModeCommand now mode score c
  | .setpoints => (c, [])
  | .getDBIUpdate => (c, [])
  | .setDBIUpdate => (c, [])

end Controller

/-! ## Two controllers and their link -/

/-- The two sides of the link. -/
inductive Side where
  | server | client
  deriving DecidableEq, Repr

/-- The other side. -/
def Side.other : Side → Side
  | .server => .client
  | .client => .server

/-- Two controllers, and the messages on their way to each. -/
structure Pair (Score : Type) where
  /-- The controllers. -/
  cops : Side → Cops Score
  /-- The messages in flight to a side, the oldest first. -/
  inbox : Side → List (C2CMsg Score)

/-- What happens at one side. -/
inductive Event (Score : Type) where
  /-- The poll timer fires. -/
  | tick (side : Side) (now : ℕ)
  /-- The query of a poll goes out. -/
  | sendQuery (side : Side)
  /-- The oldest message in flight is processed; the score is what a reply would carry. -/
  | receive (side : Side) (now : ℕ) (totalHealthScore : Option Score)
  /-- Settings are sent. -/
  | sendSettings (side : Side) (isUpdate : Bool)
  deriving DecidableEq, Repr

/-- Events that cannot happen. -/
inductive NotEnabled where
  | noQuery | noMessage
  deriving DecidableEq, Repr

section Link

variable {Score : Type}

/-- One side changes and sends messages to the other. -/
def Pair.act (p : Pair Score) (side : Side) (c : Cops Score) (sent : List (C2CMsg Score)) :
    Pair Score :=
  { cops := fun s => if s = side then c else p.cops s
    inbox := fun s => if s = side.other then p.inbox s ++ sent else p.inbox s }

/-- The oldest message to a side leaves the link. -/
def Pair.deliver (p : Pair Score) (side : Side) (rest : List (C2CMsg Score)) : Pair Score :=
  { p with inbox := fun s => if s = side then rest else p.inbox s }

variable [LT Score] [DecidableLT Score]

/-- One event. -/
def step (p : Pair Score) : Event Score → Except NotEnabled (Pair Score)
  | .tick side now => .ok (p.act side (negotiateControllerMode now (p.cops side)) [])
  | .sendQuery side =>
    if (p.cops side).querying then
      .ok (p.act side { p.cops side with querying := false }
        (sendC2CMsg (p.cops side) .modeQuery))
    else .error .noQuery
  | .receive side now totalHealthScore =>
    match p.inbox side with
    | [] => .error .noMessage
    | msg :: rest =>
      let processed := processC2C now totalHealthScore msg (p.cops side)
      .ok ((p.deliver side rest).act side processed.1 processed.2)
  | .sendSettings side isUpdate =>
    .ok (p.act side (p.cops side)
      (sendC2CMsg (p.cops side) (if isUpdate then .setDBIUpdate else .setpoints)))

/-- Both controllers start secondary on an empty link; the one with the lower address is its
server. -/
structure Started (ip : Side → ℕ) (p : Pair Score) : Prop where
  roles : ∀ side, isIPLessThan (ip side) (ip side.other) = some (p.cops side).amServerNotClient
  server : (p.cops .server).amServerNotClient = true
  connected : ∀ side, (p.cops side).connected = true
  secondary : ∀ side, (p.cops side).controllerMode = .secondary
  empty : ∀ side, p.inbox side = []

/-- The link stands and its replies came in time at every tick. -/
def Timely (p : Pair Score) : Event Score → Prop
  | .tick side now => otherControllerIsUnresponsive now (p.cops side) = false
  | _ => True

/-- Both controllers run as primary. -/
def BothPrimary (p : Pair Score) : Prop :=
  ∀ side, (p.cops side).controllerMode = .primary

end Link

/-!
## One primary controller

Neither controller becomes primary while the other is, and none is told to be primary while
the other is, as long as no controller takes over on the other's health score against a
primary or against an answer that is on its way.
-/

open CheckedRun

/-! ## Health takeovers -/

section Takeovers

variable {Score : Type} [LT Score] [DecidableLT Score]

/-- A controller that was not told to be primary takes over on the other's health score. -/
def HealthTakeover (p : Pair Score) (side : Side) : Event Score → Prop
  | .receive at_ _ _ => at_ = side ∧ (p.cops side).controllerMode = .secondary ∧
      ∃ mode score rest, p.inbox side = .modeCommand mode score :: rest ∧ mode ≠ .primary ∧
        LowScore (p.cops side) score
  | _ => False

/-- The other controller is primary, or an answer on its way tells it to be. -/
def Contested (p : Pair Score) (side : Side) : Prop :=
  (p.cops side.other).controllerMode = .primary ∨
    ∃ score, C2CMsg.modeCommand .primary score ∈ p.inbox side.other

/-- The event is in time, and no contested health takeover. -/
def Negotiated (p : Pair Score) (e : Event Score) : Prop :=
  Timely p e ∧ ∀ side, HealthTakeover p side e → ¬ Contested p side

end Takeovers

/-! ## The invariant -/

section Invariant

variable {Score : Type}

/-- What holds of two controllers that negotiate. -/
structure OnePrimary (p : Pair Score) : Prop where
  /-- The sides keep their roles. -/
  server : (p.cops .server).amServerNotClient = true
  client : (p.cops .client).amServerNotClient = false
  /-- Nothing puts a controller into update mode. -/
  notUpdate : ∀ side, (p.cops side).controllerMode ≠ .update
  /-- The client is never told to be primary. -/
  notTold : ∀ score, C2CMsg.modeCommand .primary score ∉ p.inbox .client
  /-- The server is not told to be primary once the client is. -/
  notToldLate : (p.cops .client).controllerMode = .primary →
    ∀ score, C2CMsg.modeCommand .primary score ∉ p.inbox .server
  /-- One of them is not primary. -/
  notBoth : ∀ side, (p.cops side).controllerMode = .primary →
    (p.cops side.other).controllerMode ≠ .primary

theorem Side.other_ne (side : Side) : side.other ≠ side := by
  cases side <;> decide

variable {p : Pair Score} {side : Side} {rest : List (C2CMsg Score)} {c : Cops Score}

theorem OnePrimary.not_bothPrimary (h : OnePrimary p) : ¬ BothPrimary p :=
  fun hboth => h.notBoth .server (hboth .server) (hboth .client)

theorem Started.onePrimary {ip : Side → ℕ} (h : Started ip p) : OnePrimary p := by
  have hmode : ∀ side, (p.cops side).controllerMode ≠ .primary := by
    intro side
    rw [h.secondary side]
    exact ControllerMode.noConfusion
  constructor
  · exact h.server
  · have hroles := isIPLessThan_swap (h.roles .server)
    rw [h.server] at hroles
    exact Option.some.inj ((h.roles .client).symm.trans hroles)
  · intro side
    rw [h.secondary side]
    exact ControllerMode.noConfusion
  · intro score
    rw [h.empty]
    exact List.not_mem_nil
  · exact fun hprimary => absurd hprimary (hmode _)
  · exact fun side hprimary => absurd hprimary (hmode _)

/-- Fewer messages in flight tell less. -/
theorem OnePrimary.deliver (h : OnePrimary p) {msg : C2CMsg Score}
    (hinbox : p.inbox side = msg :: rest) : OnePrimary (p.deliver side rest) := by
  have hsub : ∀ s m, m ∈ (p.deliver side rest).inbox s → m ∈ p.inbox s := by
    intro s m hm
    dsimp only [Pair.deliver] at hm
    split_ifs at hm with hs
    · rw [hs, hinbox]
      exact List.mem_cons_of_mem _ hm
    · exact hm
  exact ⟨h.server, h.client, h.notUpdate, fun score hm => h.notTold score (hsub _ _ hm),
    fun hprimary score hm => h.notToldLate hprimary score (hsub _ _ hm), h.notBoth⟩

/-- A side may act that keeps its role, becomes primary only when the other is not and is
not told to, and tells the other to be primary only as a client that is not. -/
theorem OnePrimary.act (h : OnePrimary p) {sent : List (C2CMsg Score)}
    (hrole : c.amServerNotClient = (p.cops side).amServerNotClient)
    (hupdate : c.controllerMode ≠ .update)
    (hprimary : c.controllerMode = .primary → ¬ Contested p side)
    (hsent : ∀ score, C2CMsg.modeCommand .primary score ∈ sent →
      side = .client ∧ c.controllerMode ≠ .primary) : OnePrimary (p.act side c sent) := by
  cases side with
  | server =>
    refine ⟨hrole.trans h.server, h.client, ?_, ?_, h.notToldLate, ?_⟩
    · intro s
      cases s
      · exact hupdate
      · exact h.notUpdate .client
    · intro score hm
      rcases List.mem_append.mp hm with hm | hm
      · exact h.notTold score hm
      · exact Side.noConfusion (hsent score hm).1
    · intro s hs
      cases s
      · exact fun hother => hprimary hs (Or.inl hother)
      · exact fun hother => hprimary hother (Or.inl hs)
  | client =>
    refine ⟨h.server, hrole.trans h.client, ?_, h.notTold, ?_, ?_⟩
    · intro s
      cases s
      · exact h.notUpdate .server
      · exact hupdate
    · intro hc score hm
      rcases List.mem_append.mp hm with hm | hm
      · exact hprimary hc (Or.inr ⟨score, hm⟩)
      · exact (hsent score hm).2 hc
    · intro s hs
      cases s
      · exact fun hother => hprimary hother (Or.inl hs)
      · exact fun hother => hprimary hs (Or.inl hother)

/-- Once a side is primary, nothing contests it. -/
theorem OnePrimary.not_contested (h : OnePrimary p)
    (hprimary : (p.cops side).controllerMode = .primary) : ¬ Contested p side := by
  rintro (hother | ⟨score, hm⟩)
  · exact h.notBoth side hprimary hother
  · cases side
    · exact h.notTold score hm
    · exact h.notToldLate hprimary score hm

/-- A side that keeps its role and mode and does not tell the other to be primary. -/
theorem OnePrimary.act_same (h : OnePrimary p) {sent : List (C2CMsg Score)}
    (hrole : c.amServerNotClient = (p.cops side).amServerNotClient)
    (hmode : c.controllerMode = (p.cops side).controllerMode)
    (hsent : ∀ score, C2CMsg.modeCommand .primary score ∈ sent →
      side = .client ∧ c.controllerMode ≠ .primary) : OnePrimary (p.act side c sent) :=
  h.act hrole (by rw [hmode]; exact h.notUpdate side)
    (fun hprimary => h.not_contested (by rw [← hmode]; exact hprimary)) hsent

/-! ## What each event does -/

theorem mem_sendC2CMsg {m msg : C2CMsg Score} (h : m ∈ sendC2CMsg c msg) : m = msg := by
  rw [sendC2CMsg] at h
  split_ifs at h
  · exact List.mem_singleton.mp h
  · exact absurd h List.not_mem_nil

/-- A tick in time changes no mode. -/
theorem negotiateControllerMode_timely {now : ℕ} (h : otherControllerIsUnresponsive now c = false) :
    (negotiateControllerMode now c).controllerMode = c.controllerMode ∧
      (negotiateControllerMode now c).amServerNotClient = c.amServerNotClient := by
  rw [negotiateControllerMode, checkControllerMode, h]
  simp only [Bool.false_eq_true, and_false, if_false]
  split_ifs <;> exact ⟨rfl, rfl⟩

/-- Who is told to be primary is told so by a client that is not. -/
theorem OnePrimary.reply (h : OnePrimary p) {answer score : Option Score}
    (hm : C2CMsg.modeCommand .primary score ∈ replyToModeQueryMsg answer (p.cops side)) :
    side = .client ∧ (p.cops side).controllerMode ≠ .primary := by
  have htold := mem_sendC2CMsg hm
  rw [C2CMsg.modeCommand.injEq, modeForOther] at htold
  have hnot : ¬ ((p.cops side).controllerMode = .primary ∨
      ((p.cops side).amServerNotClient ∧ (p.cops side).controllerMode ≠ .update)) := by
    intro hsecondary
    rw [if_pos hsecondary] at htold
    exact ControllerMode.noConfusion htold.1
  rw [not_or] at hnot
  refine ⟨?_, hnot.1⟩
  cases side
  · exact absurd ⟨h.server, h.notUpdate .server⟩ hnot.2
  · rfl

/-- A command on its way to a side is not contested when it tells the side to be
primary. -/
theorem OnePrimary.told (h : OnePrimary p) {score : Option Score}
    (hinbox : p.inbox side = .modeCommand .primary score :: rest) : ¬ Contested p side := by
  have hm : C2CMsg.modeCommand .primary score ∈ p.inbox side := by
    rw [hinbox]
    exact List.mem_cons_self
  cases side with
  | server =>
    rintro (hclient | ⟨other, hother⟩)
    · exact h.notToldLate hclient score hm
    · exact h.notTold other hother
  | client => exact absurd hm (h.notTold score)

/-- What a side receives does not change what contests it. -/
theorem contested_deliver (h : Contested (p.deliver side rest) side) : Contested p side := by
  rcases h with hother | ⟨score, hm⟩
  · exact Or.inl hother
  · refine Or.inr ⟨score, ?_⟩
    dsimp only [Pair.deliver] at hm
    rwa [if_neg side.other_ne] at hm

end Invariant

section Steps

variable {Score : Type} [LT Score] [DecidableLT Score]

/-- A command processed keeps the role, and is answered by a request at most. -/
theorem processModeCommand_frame (now : ℕ) (mode : ControllerMode) (score : Option Score)
    (c : Cops Score) :
    (processModeCommand now mode score c).1.amServerNotClient = c.amServerNotClient ∧
      ∀ m ∈ (processModeCommand now mode score c).2, m = .getDBIUpdate := by
  rw [processModeCommand]
  dsimp only
  split_ifs
  · exact ⟨rfl, fun m hm => absurd hm List.not_mem_nil⟩
  · exact ⟨rfl, fun m hm => mem_sendC2CMsg hm⟩
  · exact ⟨rfl, fun m hm => absurd hm List.not_mem_nil⟩

/-- A command changes the mode only of a secondary, which it tells to be primary or gives a
low score. -/
theorem processModeCommand_mode (now : ℕ) (mode : ControllerMode) (score : Option Score)
    {c : Cops Score} (hupdate : c.controllerMode ≠ .update) :
    (processModeCommand now mode score c).1.controllerMode = c.controllerMode ∨
      ((processModeCommand now mode score c).1.controllerMode = .primary ∧
        c.controllerMode = .secondary ∧ (mode = .primary ∨ LowScore c score)) := by
  rw [processModeCommand]
  dsimp only
  split_ifs with htakes hfirst
  · cases hmode : c.controllerMode with
    | primary => exact Or.inl rfl
    | secondary =>
      refine Or.inr ⟨rfl, rfl, ?_⟩
      rcases htakes with ⟨htold, -⟩ | ⟨-, hlow⟩
      · exact Or.inl htold
      · exact Or.inr hlow
    | update => exact absurd hmode hupdate
  · exact Or.inl rfl
  · exact Or.inl rfl

/-- Every negotiated event leaves one controller not primary. -/
theorem OnePrimary.step {p p' : Pair Score} {e : Event Score} (h : OnePrimary p)
    (hguard : Negotiated p e) (hstep : CopsNegotiator.step p e = .ok p') : OnePrimary p' := by
  cases e with
  | tick side now =>
    have hsame := negotiateControllerMode_timely hguard.1
    rw [← Except.ok.inj hstep]
    exact h.act_same hsame.2 hsame.1 fun _ hm => absurd hm List.not_mem_nil
  | sendQuery side =>
    rw [CopsNegotiator.step] at hstep
    split_ifs at hstep
    rw [← Except.ok.inj hstep]
    exact h.act_same rfl rfl fun _ hm => absurd (mem_sendC2CMsg hm) (by simp)
  | receive side now answer =>
    rw [CopsNegotiator.step] at hstep
    cases hinbox : p.inbox side with
    | nil =>
      rw [hinbox] at hstep
      exact absurd hstep (by simp)
    | cons msg rest =>
      rw [hinbox] at hstep
      rw [← Except.ok.inj hstep]
      have hrest := h.deliver hinbox
      cases msg with
      | modeQuery => exact hrest.act_same rfl rfl fun _ hm => h.reply hm
      | modeCommand mode score =>
        have hmode := processModeCommand_mode now mode score (h.notUpdate side)
        have hframe := processModeCommand_frame now mode score (p.cops side)
        refine hrest.act hframe.1 ?_ ?_ fun _ hm => absurd (hframe.2 _ hm) (by simp)
        · rcases hmode with hsame | ⟨hprimary, -, -⟩
          · rw [processC2C, hsame]
            exact h.notUpdate side
          · rw [processC2C, hprimary]
            exact ControllerMode.noConfusion
        · intro hprimary
          rw [processC2C] at hprimary
          rcases hmode with hsame | ⟨-, hsecondary, hwhy⟩
          · exact hrest.not_contested (by rw [← hprimary, hsame]; rfl)
          · refine fun hcontested => ?_
            by_cases htold : mode = .primary
            · subst htold
              exact h.told hinbox (contested_deliver hcontested)
            · have hlow := hwhy.resolve_left htold
              exact hguard.2 side ⟨rfl, hsecondary, mode, score, rest, hinbox, htold, hlow⟩
                (contested_deliver hcontested)
      | setpoints | getDBIUpdate | setDBIUpdate =>
        exact hrest.act_same rfl rfl fun _ hm => absurd hm List.not_mem_nil
  | sendSettings side isUpdate =>
    rw [← Except.ok.inj hstep]
    refine h.act_same rfl rfl fun _ hm => ?_
    have hmsg := mem_sendC2CMsg hm
    split_ifs at hmsg

/-- Two controllers that start secondary are never both primary in a run whose ticks are in
time and which has no contested health takeover. -/
theorem run_not_bothPrimary {ip : Side → ℕ} {p p' : Pair Score} {events : List (Event Score)}
    (hstart : Started ip p) (hguard : Guarded step Negotiated p events)
    (hrun : run step p events = .ok p') : ¬ BothPrimary p' :=
  (run_invariant (fun _ _ _ h hg hs => OnePrimary.step h hg hs) hstart.onePrimary hguard
    hrun).not_bothPrimary

end Steps

/-! ## A takeover from an unhealthy primary -/

/-- A controller with the threshold of the source, in tenths. -/
def freshCops (amServerNotClient : Bool) : Cops ℕ :=
  ⟨amServerNotClient, true, 0, 7, .secondary, true, false⟩

/-- Two controllers before their first poll. -/
def freshPair : Pair ℕ where
  cops := fun side => freshCops (side = .server)
  inbox := fun _ => []

/-- The server polls, and the healthy client tells it to be primary. -/
def serverPolls : List (Event ℕ) :=
  [.tick .server 1000, .sendQuery .server, .receive .client 1010 (some 10),
    .receive .server 1020 none]

/-- The client polls, and the server answers with a low score. -/
def clientPolls : List (Event ℕ) :=
  [.tick .client 2000, .sendQuery .client, .receive .server 2010 (some 5),
    .receive .client 2020 none]

/-- The numbers of the two addresses. -/
def freshIP : Side → ℕ
  | .server => 1
  | .client => 2

theorem freshPair_started : Started freshIP freshPair :=
  ⟨fun side => by cases side <;> rfl, rfl, fun _ => rfl, fun _ => rfl, fun _ => rfl⟩

/-- Every event of the first poll is negotiated. -/
theorem serverPolls_negotiated : Guarded step Negotiated freshPair serverPolls := by
  refine guarded_cons ⟨rfl, fun _ h => h.elim⟩ rfl ?_
  refine guarded_cons ⟨trivial, fun _ h => h.elim⟩ rfl ?_
  refine guarded_cons ⟨trivial, ?_⟩ rfl (guarded_cons ⟨trivial, ?_⟩ rfl trivial)
  · rintro side ⟨rfl, -, mode, score, rest, hinbox, -⟩
    exact absurd (List.cons.inj hinbox).1 (by simp)
  · rintro side ⟨rfl, -, mode, score, rest, hinbox, htold, -⟩
    exact absurd (C2CMsg.modeCommand.inj (List.cons.inj hinbox).1).1.symm htold

theorem run_not_bothPrimary_serverPolls :
    ∃ p, run step freshPair serverPolls = .ok p ∧ ¬ BothPrimary p :=
  ⟨_, rfl, run_not_bothPrimary freshPair_started serverPolls_negotiated rfl⟩

/-- Every tick of both polls is in time. -/
theorem polls_timely : Guarded step Timely freshPair (serverPolls ++ clientPolls) := by
  refine guarded_cons rfl rfl (guarded_cons trivial rfl (guarded_cons trivial rfl ?_))
  refine guarded_cons trivial rfl (guarded_cons rfl rfl (guarded_cons trivial rfl ?_))
  exact guarded_cons trivial rfl (guarded_cons trivial rfl trivial)

/-- A secondary takes over from a primary whose health score is low, and both are primary
until the restart takes effect. -/
theorem healthTakeover_bothPrimary :
    ¬ ∀ (ip : Side → ℕ) (p p' : Pair ℕ) (events : List (Event ℕ)), Started ip p →
      Guarded step Timely p events → run step p events = .ok p' → ¬ BothPrimary p' := by
  intro h
  have hnot := h freshIP freshPair _ (serverPolls ++ clientPolls) freshPair_started polls_timely rfl
  exact hnot fun side => by cases side <;> rfl

end HybridOs.CopsNegotiator
