import HybridOs.OrderedSet
import Mathlib.Algebra.Order.Ring.Int
import Mathlib.Data.List.Induction
import Mathlib.Data.Prod.Lex

/-!
# The timer set

Timers wait in a set ordered by their next run time. The timer thread takes the first one
that is due out of the set, calls back with the set unlocked, and puts a repeating timer
back. The other operations lock the set and take a timer out before they change its run
time. Numbers are ordered and never undefined; nothing is assumed of how the arithmetic
rounds but that a difference says which of two numbers is greater.
-/

namespace HybridOs.GcomTimer

open OrderedSet

/-- The arithmetic of times. -/
structure Arithmetic (T : Type*) [LinearOrder T] [Zero T] where
  add : T → T → T
  sub : T → T → T
  mul : T → T → T
  div : T → T → T
  ceil : T → T
  sub_nonpos : ∀ a b, sub a b ≤ 0 ↔ a ≤ b

variable {T : Type*} [LinearOrder T] [Zero T]

/-- `TimeObject`, without its callback. -/
structure TimeObject (T : Type*) where
  name : String
  runTime : T
  /-- Zero when there is none. -/
  stopTime : T
  repeatTime : T
  offsetTime : T
  lastRun : T
  /-- How often to run, zero for no limit. -/
  count : ℤ
  runs : ℤ
  sync : Bool
  run : Bool
  total_sync_time : T
  total_sync_count : ℤ
  syncPct : T
  id : ℕ

/-- What a caller passes to create a timer and add it. -/
structure NewTimer (T : Type*) where
  timer_name : String
  timer_runTime : T
  timer_stopTime : T
  timer_repeatTime : T
  timer_count : ℤ
  offset : T
  isSync : Bool

/-- `createTimeObject`, with the next identifier. -/
def createTimeObject (id : ℕ) (new : NewTimer T) : TimeObject T where
  name := new.timer_name
  runTime := new.timer_runTime
  stopTime := new.timer_stopTime
  repeatTime := new.timer_repeatTime
  offsetTime := 0
  lastRun := 0
  count := new.timer_count
  runs := 0
  sync := false
  run := false
  total_sync_time := 0
  total_sync_count := 0
  syncPct := 0
  id := id

/-- `CompareTimerSet`. -/
def CompareTimerSet (a b : TimeObject T) : Prop :=
  if a.runTime = b.runTime then a.id < b.id else a.runTime < b.runTime

instance : DecidableRel (CompareTimerSet (T := T)) := fun a b => by
  unfold CompareTimerSet
  exact inferInstance

/-- The timer whose callback is running, out of the set, with the interval it was taken out
with. -/
structure Firing (T : Type*) where
  tObj : ℕ
  interval : T

/-- The state of the module: `timerSet` holds references to the timer objects. -/
structure TimerModule (T : Type*) where
  timerSet : Store ℕ (TimeObject T)
  /-- `timerId`. -/
  timerId : ℕ
  firing : Option (Firing T)

/-- `setTimeObject` at a clock reading. -/
def setTimeObject (arith : Arithmetic T) (tNow offset : T) (isSync : Bool)
    (newObj : TimeObject T) : TimeObject T :=
  let obj := {newObj with
    offsetTime := offset
    sync := isSync}
  if 0 < obj.repeatTime ∧ obj.runTime ≤ tNow then
    let nextRepeatTime := arith.mul (arith.ceil (arith.div tNow obj.repeatTime)) obj.repeatTime
    {obj with runTime := arith.add nextRepeatTime obj.offsetTime}
  else {obj with runTime := arith.add obj.runTime obj.offsetTime}

/-- `_findTimerSetByName`: the first timer of the name in the order of the set. -/
def findTimerSetByName (st : TimerModule T) (name : String) : Option ℕ :=
  st.timerSet.elems.find? fun p => (st.timerSet.data p).name = name

/-- The new values of `modifyTimeObjectByName`; those not above zero are not taken. -/
def modified (newRunTime newStopTime newRepeatTime : T) (obj : TimeObject T) : TimeObject T :=
  {obj with
    runTime := if 0 < newRunTime then newRunTime else obj.runTime
    stopTime := if 0 < newStopTime then newStopTime else obj.stopTime
    repeatTime := if 0 < newRepeatTime then newRepeatTime else obj.repeatTime}

/-- The test with which `modifyTimeObjectByName` puts a timer back. -/
def keptByModify (obj : TimeObject T) : Prop :=
  0 < obj.repeatTime ∧ (obj.stopTime ≠ 0 ∧ obj.runTime < obj.stopTime)

instance (obj : TimeObject T) : Decidable (keptByModify obj) :=
  inferInstanceAs (Decidable (_ ∧ _))

/-- What `syncTimeObjectByName` changes while the timer is out of the set. -/
def synced (arith : Arithmetic T) (tNow late_margin_percent : T) (obj : TimeObject T) :
    TimeObject T :=
  let sTime := arith.sub tNow obj.lastRun
  let lTime := arith.mul obj.repeatTime late_margin_percent
  let obj := if lTime < sTime then
    {obj with
      runTime := arith.add tNow obj.repeatTime
      total_sync_time := arith.add obj.total_sync_time sTime
      total_sync_count := obj.total_sync_count + 1}
    else obj
  {obj with run := false}

/-- The test with which the timer thread puts a timer back after its callback. -/
def keptByThread (interval : T) (obj : TimeObject T) : Prop :=
  0 < interval ∧ (obj.stopTime = 0 ∨ obj.runTime < obj.stopTime) ∧
    (obj.count = 0 ∨ obj.runs < obj.count)

instance (interval : T) (obj : TimeObject T) : Decidable (keptByThread interval obj) :=
  inferInstanceAs (Decidable (_ ∧ _))

/-- What happens at the module. -/
inductive Event (T : Type*) where
  /-- `createTimeObject`, then `addTimeObject` at a clock reading. -/
  | add (new : NewTimer T) (tNow : T)
  /-- `modifyTimeObjectByName`. -/
  | modify (name : String) (newRunTime newStopTime newRepeatTime : T)
  /-- `syncTimeObjectByName` at a clock reading. -/
  | sync (name : String) (late_margin_percent tNow : T)
  /-- The timer thread looks at the set at a clock reading. -/
  | wake (tNow : T)
  /-- The callback of the timer thread returns. -/
  | callbackDone

/-- What `syncTimeObjectByName` does with the timer that it finds. -/
def syncActions (arith : Arithmetic T) (tNow late_margin_percent : T) (p : ℕ)
    (tObj : TimeObject T) : List (Action ℕ (TimeObject T)) :=
  let marked := {tObj with syncPct := late_margin_percent}
  [.write p marked, .erase p, .write p (synced arith tNow late_margin_percent marked), .insert p]

/-- What the timer thread notes of a run. -/
def ran (tNow : T) (tObj : TimeObject T) : TimeObject T :=
  {tObj with
    lastRun := tNow
    runs := tObj.runs + 1
    run := true}

/-- The timer with its next run time. -/
def advanced (arith : Arithmetic T) (tObj : TimeObject T) : TimeObject T :=
  {tObj with runTime := arith.add tObj.runTime tObj.repeatTime}

/-- What the timer thread does with the timer that it takes out. -/
def fireActions (arith : Arithmetic T) (tNow : T) (p : ℕ) (tObj : TimeObject T) :
    List (Action ℕ (TimeObject T)) :=
  [.write p (ran tNow tObj), .erase p, .write p (advanced arith (ran tNow tObj))]

/-- What an event does to the set and to the timers, in turn. -/
def actionsOf (arith : Arithmetic T) (st : TimerModule T) :
    Event T → List (Action ℕ (TimeObject T))
  | .add new tNow =>
    [.write st.timerId
      (setTimeObject arith tNow new.offset new.isSync (createTimeObject st.timerId new)),
      .insert st.timerId]
  | .modify name newRunTime newStopTime newRepeatTime =>
    match findTimerSetByName st name with
    | none => []
    | some p =>
      let tObj := modified newRunTime newStopTime newRepeatTime (st.timerSet.data p)
      [.erase p, .write p tObj] ++ if keptByModify tObj then [.insert p] else []
  | .sync name late_margin_percent tNow =>
    match findTimerSetByName st name with
    | none => []
    | some p =>
      if (st.timerSet.data p).sync then
        syncActions arith tNow late_margin_percent p (st.timerSet.data p)
      else []
  | .wake tNow =>
    match st.firing, st.timerSet.elems with
    | none, p :: _ =>
      if arith.sub (st.timerSet.data p).runTime tNow ≤ 0 then
        fireActions arith tNow p (st.timerSet.data p)
      else []
    | _, _ => []
  | .callbackDone =>
    match st.firing with
    | none => []
    | some fired =>
      if keptByThread fired.interval (st.timerSet.data fired.tObj) then [.insert fired.tObj]
      else []

/-- The timer whose callback is running after an event. -/
def firingAfter (arith : Arithmetic T) (st : TimerModule T) : Event T → Option (Firing T)
  | .wake tNow =>
    match st.firing, st.timerSet.elems with
    | none, p :: _ =>
      if arith.sub (st.timerSet.data p).runTime tNow ≤ 0 then
        some ⟨p, (st.timerSet.data p).repeatTime⟩
      else none
    | firing, _ => firing
  | .callbackDone => none
  | _ => st.firing

/-- The number of timers created after an event. -/
def timerIdAfter (st : TimerModule T) : Event T → ℕ
  | .add _ _ => st.timerId + 1
  | _ => st.timerId

/-- One event. -/
def step (arith : Arithmetic T) (st : TimerModule T) (event : Event T) : TimerModule T where
  timerSet := st.timerSet.execAll CompareTimerSet (actionsOf arith st event)
  timerId := timerIdAfter st event
  firing := firingAfter arith st event

/-- The module before its first event. -/
def started (T : Type*) [Zero T] : TimerModule T where
  timerSet := {
    data := fun id => createTimeObject id ⟨"", 0, 0, 0, 0, 0, false⟩
    elems := []}
  timerId := 0
  firing := none

/-- A run of events. -/
def run (arith : Arithmetic T) (events : List (Event T)) : TimerModule T :=
  events.foldl (step arith) (started T)

/-!
## One event of the timer module

Timers are ordered by run time and identifier. Every operation takes a timer out of the set
before it changes its run time, so the set stays in order, and what each operation does to
the members of the set and to the timers is said once.
-/

/-! ## The order of timers -/

section Order

omit [Zero T]

/-- Timers are compared by run time first, then by identifier. -/
theorem compareTimerSet_iff (a b : TimeObject T) :
    CompareTimerSet a b ↔ toLex (a.runTime, a.id) < toLex (b.runTime, b.id) := by
  rw [Prod.Lex.toLex_lt_toLex, CompareTimerSet]
  split_ifs with heq
  · simp [heq]
  · simp [heq]

/-- Timers are told apart by their identifiers. -/
theorem separates_of_id {data : ℕ → TimeObject T} (hid : ∀ p, (data p).id = p) :
    Separates CompareTimerSet data where
  irrefl p := by
    rw [compareTimerSet_iff]
    exact lt_irrefl _
  trans p q r := by
    simp only [compareTimerSet_iff]
    exact lt_trans
  trichotomous p q hpq hqp := by
    rw [compareTimerSet_iff] at hpq hqp
    have heq := toLex.injective (le_antisymm (not_lt.mp hqp) (not_lt.mp hpq))
    have hsame : (data p).id = (data q).id := congrArg Prod.snd heq
    rw [hid p, hid q] at hsame
    exact hsame

/-- The timers have their identifiers, and those in the set stand in order. -/
structure Neat (s : Store ℕ (TimeObject T)) : Prop where
  id : ∀ p, (s.data p).id = p
  ordered : Ordered (byData CompareTimerSet s.data) s.elems

section Actions

variable {s : Store ℕ (TimeObject T)} (h : Neat s)

include h

theorem Neat.nodup : s.elems.Nodup := by
  have : Std.Irrefl (byData CompareTimerSet s.data) := ⟨(separates_of_id h.id).irrefl⟩
  exact h.ordered.nodup

variable {p : ℕ}

theorem Neat.write {p : ℕ} {d : TimeObject T} (hid : d.id = p)
    (hallowed : (Action.write p d).Allowed CompareTimerSet s) :
    Neat (s.exec CompareTimerSet (.write p d)) where
  id q := by
    by_cases hq : q = p
    · subst hq
      simpa [Store.exec] using hid
    · simp only [Store.exec, Function.update_of_ne hq]
      exact h.id q
  ordered := ordered_write h.ordered hallowed

theorem Neat.erase (p : ℕ) : Neat (s.exec CompareTimerSet (.erase p)) ∧
    ∀ x, x ∈ (s.exec CompareTimerSet (.erase p)).elems ↔ x ∈ s.elems ∧ x ≠ p := by
  obtain ⟨hordered, hmem⟩ := exec_erase (separates_of_id h.id) h.ordered p
  exact ⟨⟨h.id, hordered⟩, hmem⟩

theorem Neat.insert (p : ℕ) : Neat (s.exec CompareTimerSet (.insert p)) ∧
    ∀ x, x ∈ (s.exec CompareTimerSet (.insert p)).elems ↔ x = p ∨ x ∈ s.elems := by
  obtain ⟨hordered, hmem⟩ := exec_insert (separates_of_id h.id) h.ordered p
  exact ⟨⟨h.id, hordered⟩, hmem⟩

end Actions

/-- A write that keeps run time and identifier is allowed in the set. -/
theorem allowed_of_same {s : Store ℕ (TimeObject T)} {d : TimeObject T}
    (hrunTime : d.runTime = (s.data p).runTime) (hid : d.id = (s.data p).id) :
    (Action.write p d).Allowed CompareTimerSet s := by
  intro _ e
  simp only [CompareTimerSet, hrunTime, hid, and_self]

/-- Taking a timer out to change it leaves the others, in order. -/
theorem Neat.takeOut {s : Store ℕ (TimeObject T)} (h : Neat s) {d : TimeObject T} (hid : d.id = p) :
    Disciplined CompareTimerSet s [.erase p, .write p d] ∧
      Neat (s.execAll CompareTimerSet [.erase p, .write p d]) ∧
      (∀ x, x ∈ (s.execAll CompareTimerSet [.erase p, .write p d]).elems ↔
        x ∈ s.elems ∧ x ≠ p) ∧
      (s.execAll CompareTimerSet [.erase p, .write p d]).data = Function.update s.data p d := by
  obtain ⟨herased, hmem⟩ := h.erase p
  have hallowed : (Action.write p d).Allowed CompareTimerSet
      (s.exec CompareTimerSet (.erase p)) := fun hp => absurd rfl ((hmem p).mp hp).2
  exact ⟨⟨trivial, hallowed, trivial⟩, herased.write hid hallowed, hmem, rfl⟩

end Order

/-- What an event does: every write is allowed, and the set stays in order. -/
structure Effect (arith : Arithmetic T) (st : TimerModule T) (event : Event T) : Prop where
  disciplined : Disciplined CompareTimerSet st.timerSet (actionsOf arith st event)
  neat : Neat (step arith st event).timerSet

/-- The invariant of the module. -/
structure Good (st : TimerModule T) : Prop where
  neat : Neat st.timerSet
  created : ∀ p ∈ st.timerSet.elems, p < st.timerId
  /-- The timer whose callback is running is out of the set. -/
  firing : ∀ fired, st.firing = some fired → fired.tObj < st.timerId ∧
    fired.tObj ∉ st.timerSet.elems ∧
    fired.interval = (st.timerSet.data fired.tObj).repeatTime

theorem good_started : Good (started T) where
  neat := ⟨fun _ => rfl, List.Pairwise.nil⟩
  created := by simp [started]
  firing := by simp [started]

omit [LinearOrder T] [Zero T] in
/-- A timer found by its name is in the set. -/
theorem mem_of_found {st : TimerModule T} {name : String} (h : findTimerSetByName st name = some p) :
    p ∈ st.timerSet.elems :=
  List.mem_of_find?_eq_some h

section Events

variable (arith : Arithmetic T) {st : TimerModule T} (h : Good st)

theorem setTimeObject_same (tNow offset : T) (isSync : Bool) (obj : TimeObject T) :
    (setTimeObject arith tNow offset isSync obj).id = obj.id ∧
      (setTimeObject arith tNow offset isSync obj).stopTime = obj.stopTime ∧
      (setTimeObject arith tNow offset isSync obj).repeatTime = obj.repeatTime ∧
      (setTimeObject arith tNow offset isSync obj).count = obj.count := by
  unfold setTimeObject
  dsimp only
  split_ifs <;> exact ⟨rfl, rfl, rfl, rfl⟩

theorem synced_same (tNow late_margin_percent : T) (obj : TimeObject T) :
    (synced arith tNow late_margin_percent obj).id = obj.id ∧
      (synced arith tNow late_margin_percent obj).stopTime = obj.stopTime ∧
      (synced arith tNow late_margin_percent obj).repeatTime = obj.repeatTime ∧
      (synced arith tNow late_margin_percent obj).count = obj.count := by
  unfold synced
  dsimp only
  split_ifs <;> exact ⟨rfl, rfl, rfl, rfl⟩

include h

/-- Adding puts the new timer into the set. -/
theorem add_spec (new : NewTimer T) (tNow : T) :
    Effect arith st (.add new tNow) ∧
      (∀ x, x ∈ (step arith st (.add new tNow)).timerSet.elems ↔
        x = st.timerId ∨ x ∈ st.timerSet.elems) ∧
      (step arith st (.add new tNow)).timerSet.data = Function.update st.timerSet.data st.timerId
        (setTimeObject arith tNow new.offset new.isSync (createTimeObject st.timerId new)) := by
  have hid := (setTimeObject_same arith tNow new.offset new.isSync
    (createTimeObject st.timerId new)).1
  have hallowed : (Action.write st.timerId (setTimeObject arith tNow new.offset new.isSync
      (createTimeObject st.timerId new))).Allowed CompareTimerSet st.timerSet :=
    fun hp => absurd (h.created _ hp) (Nat.lt_irrefl _)
  have hwritten := h.neat.write hid hallowed
  obtain ⟨hneat, hmem⟩ := hwritten.insert st.timerId
  exact ⟨⟨⟨hallowed, trivial, trivial⟩, hneat⟩, hmem, rfl⟩

/-- A modification takes the timer that it finds out of the set, and puts it back only with
a stop time to come. -/
theorem modify_spec {name : String} (hp : findTimerSetByName st name = some p)
    (newRunTime newStopTime newRepeatTime : T) :
    Effect arith st (.modify name newRunTime newStopTime newRepeatTime) ∧
      (∀ x, x ∈ (step arith st (.modify name newRunTime newStopTime newRepeatTime)).timerSet.elems ↔
        x ∈ st.timerSet.elems ∧ (x ≠ p ∨ keptByModify
          (modified newRunTime newStopTime newRepeatTime (st.timerSet.data p)))) ∧
      (step arith st (.modify name newRunTime newStopTime newRepeatTime)).timerSet.data =
        Function.update st.timerSet.data p
          (modified newRunTime newStopTime newRepeatTime (st.timerSet.data p)) := by
  have hid : (modified newRunTime newStopTime newRepeatTime (st.timerSet.data p)).id = p :=
    h.neat.id p
  obtain ⟨hdisciplined, hneat, hmem, hdata⟩ := h.neat.takeOut hid
  have hin := mem_of_found hp
  have hactions : actionsOf arith st (.modify name newRunTime newStopTime newRepeatTime) =
      [.erase p, .write p (modified newRunTime newStopTime newRepeatTime (st.timerSet.data p))] ++
        if keptByModify (modified newRunTime newStopTime newRepeatTime (st.timerSet.data p)) then
          [.insert p] else [] := by
    simp only [actionsOf, hp]
  by_cases hkept : keptByModify
      (modified newRunTime newStopTime newRepeatTime (st.timerSet.data p))
  · rw [if_pos hkept] at hactions
    obtain ⟨hneat', hmem'⟩ := hneat.insert p
    refine ⟨⟨?_, ?_⟩, fun x => ?_, ?_⟩
    · rw [hactions]
      exact ⟨hdisciplined.1, hdisciplined.2.1, trivial, trivial⟩
    · rw [step, hactions]
      exact hneat'
    · rw [step, hactions]
      refine (hmem' x).trans ?_
      rw [hmem]
      constructor
      · intro hx
        rcases hx with rfl | hx
        · exact ⟨hin, Or.inr hkept⟩
        · exact ⟨hx.1, Or.inl hx.2⟩
      · intro hx
        by_cases hxp : x = p
        · exact Or.inl hxp
        · exact Or.inr ⟨hx.1, hxp⟩
    · rw [step, hactions]
      exact hdata
  · rw [if_neg hkept, List.append_nil] at hactions
    refine ⟨⟨?_, ?_⟩, fun x => ?_, ?_⟩
    · rw [hactions]
      exact hdisciplined
    · rw [step, hactions]
      exact hneat
    · rw [step, hactions]
      simp only [hmem, hkept, or_false]
    · rw [step, hactions]
      exact hdata

omit [Zero T] h in
/-- Marking a timer with its late margin changes neither its run time nor its name. -/
theorem marked_allowed (late_margin_percent : T) (p : ℕ) :
    (Action.write p {st.timerSet.data p with syncPct := late_margin_percent}).Allowed
      CompareTimerSet st.timerSet := allowed_of_same rfl rfl

/-- A synchronisation puts the timer that it finds back. -/
theorem sync_spec {name : String} (hp : findTimerSetByName st name = some p)
    (hsync : (st.timerSet.data p).sync = true) (late_margin_percent tNow : T) :
    Effect arith st (.sync name late_margin_percent tNow) ∧
      (∀ x, x ∈ (step arith st (.sync name late_margin_percent tNow)).timerSet.elems ↔
        x ∈ st.timerSet.elems) ∧
      (step arith st (.sync name late_margin_percent tNow)).timerSet.data =
        Function.update st.timerSet.data p (synced arith tNow late_margin_percent
          {st.timerSet.data p with syncPct := late_margin_percent}) := by
  have hin := mem_of_found hp
  have hallowed : (Action.write p {st.timerSet.data p with syncPct := late_margin_percent}).Allowed
      CompareTimerSet st.timerSet := marked_allowed late_margin_percent p
  have hmarked := h.neat.write (d := {st.timerSet.data p with syncPct := late_margin_percent})
    (h.neat.id p) hallowed
  have hid : (synced arith tNow late_margin_percent
      {st.timerSet.data p with syncPct := late_margin_percent}).id = p :=
    (synced_same arith tNow late_margin_percent _).1.trans (h.neat.id p)
  obtain ⟨hdisciplined, hneat, hmem, hdata⟩ := hmarked.takeOut hid
  obtain ⟨hneat', hmem'⟩ := hneat.insert p
  have hactions : actionsOf arith st (.sync name late_margin_percent tNow) =
      syncActions arith tNow late_margin_percent p (st.timerSet.data p) := by
    simp only [actionsOf, hp, hsync, if_true]
  refine ⟨⟨?_, ?_⟩, fun x => ?_, ?_⟩
  · rw [hactions]
    exact ⟨hallowed, hdisciplined.1, hdisciplined.2.1, trivial, trivial⟩
  · rw [step, hactions]
    exact hneat'
  · rw [step, hactions]
    refine (hmem' x).trans ?_
    rw [hmem]
    constructor
    · intro hx
      rcases hx with rfl | hx
      · exact hin
      · exact hx.1
    · intro hx
      by_cases hxp : x = p
      · exact Or.inl hxp
      · exact Or.inr ⟨hx, hxp⟩
  · rw [step, hactions]
    refine hdata.trans ?_
    simp only [Store.exec, Function.update_idem]

/-- The timer thread takes out the first timer when it is due. -/
theorem fire_spec (hfiring : st.firing = none) {rest : List ℕ} (hp : st.timerSet.elems = p :: rest)
    {tNow : T} (hdue : arith.sub (st.timerSet.data p).runTime tNow ≤ 0) :
    Effect arith st (.wake tNow) ∧
      (∀ x, x ∈ (step arith st (.wake tNow)).timerSet.elems ↔ x ∈ st.timerSet.elems ∧ x ≠ p) ∧
      (step arith st (.wake tNow)).timerSet.data = Function.update st.timerSet.data p
        (advanced arith (ran tNow (st.timerSet.data p))) ∧
      (step arith st (.wake tNow)).firing = some ⟨p, (st.timerSet.data p).repeatTime⟩ := by
  have hallowed : (Action.write p (ran tNow (st.timerSet.data p))).Allowed CompareTimerSet
      st.timerSet := allowed_of_same rfl rfl
  have hran := h.neat.write (d := ran tNow (st.timerSet.data p)) (h.neat.id p) hallowed
  have hid : (advanced arith (ran tNow (st.timerSet.data p))).id = p := h.neat.id p
  obtain ⟨hdisciplined, hneat, hmem, hdata⟩ := hran.takeOut hid
  have hactions : actionsOf arith st (.wake tNow) =
      fireActions arith tNow p (st.timerSet.data p) := by
    simp only [actionsOf, hfiring, hp, if_pos hdue]
  refine ⟨⟨?_, ?_⟩, fun x => ?_, ?_, ?_⟩
  · rw [hactions]
    exact ⟨hallowed, hdisciplined.1, hdisciplined.2.1, trivial⟩
  · rw [step, hactions]
    exact hneat
  · rw [step, hactions]
    exact hmem x
  · rw [step, hactions]
    refine hdata.trans ?_
    simp only [Store.exec, Function.update_idem]
  · simp only [step, firingAfter, hfiring, hp, if_pos hdue]

/-- After its callback the timer thread puts a timer back that is still to run. -/
theorem callbackDone_spec {fired : Firing T} (hfiring : st.firing = some fired) :
    Effect arith st .callbackDone ∧
      (∀ x, x ∈ (step arith st .callbackDone).timerSet.elems ↔
        (x = fired.tObj ∧ keptByThread fired.interval (st.timerSet.data fired.tObj)) ∨
          x ∈ st.timerSet.elems) ∧
      (step arith st .callbackDone).timerSet.data = st.timerSet.data := by
  have hactions : actionsOf arith st .callbackDone =
      if keptByThread fired.interval (st.timerSet.data fired.tObj) then [.insert fired.tObj]
      else [] := by
    simp only [actionsOf, hfiring]
  by_cases hkept : keptByThread fired.interval (st.timerSet.data fired.tObj)
  · rw [if_pos hkept] at hactions
    obtain ⟨hneat, hmem⟩ := h.neat.insert fired.tObj
    refine ⟨⟨?_, ?_⟩, fun x => ?_, ?_⟩
    · rw [hactions]
      exact ⟨trivial, trivial⟩
    · rw [step, hactions]
      exact hneat
    · rw [step, hactions]
      simp only [hkept, and_true]
      exact hmem x
    · rw [step, hactions]
      rfl
  · rw [if_neg hkept] at hactions
    refine ⟨⟨?_, ?_⟩, fun x => ?_, ?_⟩
    · rw [hactions]
      trivial
    · rw [step, hactions]
      exact h.neat
    · rw [step, hactions]
      simp only [hkept, and_false, false_or]
      exact Iff.rfl
    · rw [step, hactions]
      rfl

/-- An event without actions leaves the set. -/
theorem idle_spec {event : Event T} (hactions : actionsOf arith st event = []) :
    Effect arith st event ∧ (step arith st event).timerSet = st.timerSet := by
  refine ⟨⟨?_, ?_⟩, ?_⟩
  · rw [hactions]
    trivial
  · rw [step, hactions]
    exact h.neat
  · rw [step, hactions]
    rfl

end Events

/-- The ways in which an event can go. -/
inductive Happens (arith : Arithmetic T) (st : TimerModule T) : Event T → Prop where
  | idle {event : Event T} (actions : actionsOf arith st event = [])
      (firing : firingAfter arith st event = st.firing)
      (timerId : timerIdAfter st event = st.timerId) : Happens arith st event
  | added (new : NewTimer T) (tNow : T) : Happens arith st (.add new tNow)
  | modified {name : String} {p : ℕ} (found : findTimerSetByName st name = some p)
      (newRunTime newStopTime newRepeatTime : T) :
      Happens arith st (.modify name newRunTime newStopTime newRepeatTime)
  | synced {name : String} {p : ℕ} (found : findTimerSetByName st name = some p)
      (sync : (st.timerSet.data p).sync = true) (late_margin_percent tNow : T) :
      Happens arith st (.sync name late_margin_percent tNow)
  | fired {p : ℕ} {rest : List ℕ} {tNow : T} (firing : st.firing = none)
      (first : st.timerSet.elems = p :: rest)
      (due : arith.sub (st.timerSet.data p).runTime tNow ≤ 0) : Happens arith st (.wake tNow)
  | returned {fired : Firing T} (firing : st.firing = some fired) :
      Happens arith st .callbackDone

theorem happens (arith : Arithmetic T) (st : TimerModule T) (event : Event T) :
    Happens arith st event := by
  cases event with
  | add new tNow => exact .added new tNow
  | modify name newRunTime newStopTime newRepeatTime =>
    cases hfound : findTimerSetByName st name with
    | none => exact .idle (by simp only [actionsOf, hfound]) rfl rfl
    | some p => exact .modified hfound newRunTime newStopTime newRepeatTime
  | sync name late_margin_percent tNow =>
    cases hfound : findTimerSetByName st name with
    | none => exact .idle (by simp only [actionsOf, hfound]) rfl rfl
    | some p =>
      by_cases hsync : (st.timerSet.data p).sync = true
      · exact .synced hfound hsync late_margin_percent tNow
      · exact .idle (by simp only [actionsOf, hfound, if_neg hsync]) rfl rfl
  | wake tNow =>
    cases hfiring : st.firing with
    | some fired =>
      exact .idle (by simp only [actionsOf, hfiring]) (by simp only [firingAfter, hfiring]) rfl
    | none =>
      cases hfirst : st.timerSet.elems with
      | nil =>
        exact .idle (by simp only [actionsOf, hfiring, hfirst])
          (by simp only [firingAfter, hfiring, hfirst]) rfl
      | cons p rest =>
        by_cases hdue : arith.sub (st.timerSet.data p).runTime tNow ≤ 0
        · exact .fired hfiring hfirst hdue
        · exact .idle (by simp only [actionsOf, hfiring, hfirst, if_neg hdue])
            (by simp only [firingAfter, hfiring, hfirst, if_neg hdue]) rfl
  | callbackDone =>
    cases hfiring : st.firing with
    | some fired => exact .returned hfiring
    | none => exact .idle (by simp only [actionsOf, hfiring]) (by rw [hfiring]; rfl) rfl

/-- A timer in the set, or out of it while its callback is running. -/
def Present (st : TimerModule T) (p : ℕ) : Prop :=
  p ∈ st.timerSet.elems ∨ ∃ fired, st.firing = some fired ∧ fired.tObj = p

omit [Zero T] in
/-- A timer in the set is not firing. -/
theorem Good.not_firing {st : TimerModule T} (h : Good st) (hp : p ∈ st.timerSet.elems)
    (fired : Firing T) (hfired : st.firing = some fired) :
    fired.tObj ≠ p := fun heq => (h.firing fired hfired).2.1 (heq ▸ hp)

/-- Every event keeps the invariant. -/
theorem good_step (arith : Arithmetic T) {st : TimerModule T} (h : Good st) (event : Event T) :
    Effect arith st event ∧ Good (step arith st event) := by
  cases happens arith st event with
  | idle actions firing timerId =>
    obtain ⟨heffect, hset⟩ := idle_spec arith h actions
    refine ⟨heffect, heffect.neat, fun p hp => ?_, fun fired hfired => ?_⟩
    · rw [hset] at hp
      exact Nat.lt_of_lt_of_eq (h.created p hp) timerId.symm
    · rw [hset]
      obtain ⟨hlt, hrest⟩ := h.firing fired (firing.symm.trans hfired)
      exact ⟨Nat.lt_of_lt_of_eq hlt timerId.symm, hrest⟩
  | added new tNow =>
    obtain ⟨heffect, hmem, hdata⟩ := add_spec arith h new tNow
    refine ⟨heffect, heffect.neat, fun p hp => ?_, fun fired hfired => ?_⟩
    · have hnext : (step arith st (.add new tNow)).timerId = st.timerId + 1 := rfl
      rcases (hmem p).mp hp with rfl | hp
      · omega
      · have hlt := h.created p hp
        omega
    · obtain ⟨hlt, hout, hinterval⟩ := h.firing fired hfired
      have hnext : (step arith st (.add new tNow)).timerId = st.timerId + 1 := rfl
      refine ⟨by omega, fun hin => ?_, ?_⟩
      · rcases (hmem _).mp hin with heq | hin
        · omega
        · exact hout hin
      · rw [hdata, Function.update_of_ne (by omega)]
        exact hinterval
  | modified found newRunTime newStopTime newRepeatTime =>
    obtain ⟨heffect, hmem, hdata⟩ := modify_spec arith h found newRunTime newStopTime newRepeatTime
    refine ⟨heffect, heffect.neat, fun p hp => h.created p ((hmem p).mp hp).1,
      fun fired hfired => ?_⟩
    obtain ⟨hlt, hout, hinterval⟩ := h.firing fired hfired
    refine ⟨hlt, fun hin => hout ((hmem _).mp hin).1, ?_⟩
    rw [hdata, Function.update_of_ne (h.not_firing (mem_of_found found) fired hfired)]
    exact hinterval
  | synced found sync late_margin_percent tNow =>
    obtain ⟨heffect, hmem, hdata⟩ := sync_spec arith h found sync late_margin_percent tNow
    refine ⟨heffect, heffect.neat, fun p hp => h.created p ((hmem p).mp hp),
      fun fired hfired => ?_⟩
    obtain ⟨hlt, hout, hinterval⟩ := h.firing fired hfired
    refine ⟨hlt, fun hin => hout ((hmem _).mp hin), ?_⟩
    rw [hdata, Function.update_of_ne (h.not_firing (mem_of_found found) fired hfired)]
    exact hinterval
  | fired firing first due =>
    obtain ⟨heffect, hmem, hdata, hfiring⟩ := fire_spec arith h firing first due
    refine ⟨heffect, heffect.neat, fun p hp => h.created p ((hmem p).mp hp).1,
      fun fired hfired => ?_⟩
    obtain rfl := Option.some_inj.mp (hfiring.symm.trans hfired)
    refine ⟨h.created _ (by rw [first]; exact List.mem_cons_self), fun hin => ?_, ?_⟩
    · exact absurd rfl ((hmem _).mp hin).2
    · rw [hdata, Function.update_self]
      rfl
  | returned firing =>
    obtain ⟨heffect, hmem, -⟩ := callbackDone_spec arith h firing
    refine ⟨heffect, heffect.neat, fun p hp => ?_, fun fired hfired => ?_⟩
    · rcases (hmem p).mp hp with hp | hp
      · rw [hp.1]
        exact (h.firing _ firing).1
      · exact h.created p hp
    · simp [step, firingAfter] at hfired

/-!
## Repeating timers over a run

The set stays in order over every run. The timer thread puts back a timer without a stop
time, the modification does not: a run keeps its repeating timers exactly when no
modification finds one without giving it a stop time.
-/

/-! ## Repeating timers -/

/-- A timer that repeats without a stop time and without a repeat count. -/
def Plain (obj : TimeObject T) : Prop :=
  0 < obj.repeatTime ∧ obj.stopTime = 0 ∧ obj.count = 0

/-- The modification takes a timer without a stop time out of the set and gives it none. -/
def Drops (st : TimerModule T) : Event T → Prop
  | .modify name _ newStopTime _ => ∃ p, findTimerSetByName st name = some p ∧
      Plain (st.timerSet.data p) ∧ ¬ 0 < newStopTime
  | _ => False

variable (arith : Arithmetic T) {st : TimerModule T} {p : ℕ} {event : Event T}

/-- An event leaves a created timer repeating without a count, and takes no stop time away. -/
theorem data_step (h : Good st) (event : Event T) (hp : p < st.timerId)
    (hrepeat : 0 < (st.timerSet.data p).repeatTime) (hcount : (st.timerSet.data p).count = 0) :
    0 < ((step arith st event).timerSet.data p).repeatTime ∧
      ((step arith st event).timerSet.data p).count = 0 ∧
      (((step arith st event).timerSet.data p).stopTime = 0 →
        (st.timerSet.data p).stopTime = 0) := by
  cases happens arith st event with
  | idle actions firing timerId =>
    rw [(idle_spec arith h actions).2]
    exact ⟨hrepeat, hcount, id⟩
  | added new tNow =>
    rw [(add_spec arith h new tNow).2.2, Function.update_of_ne (by omega)]
    exact ⟨hrepeat, hcount, id⟩
  | @modified _ q found newRunTime newStopTime newRepeatTime =>
    rw [(modify_spec arith h found newRunTime newStopTime newRepeatTime).2.2]
    by_cases hq : p = q
    · subst hq
      rw [Function.update_self]
      refine ⟨?_, hcount, fun hstop => ?_⟩
      · simp only [modified]
        split_ifs with hnew
        · exact hnew
        · exact hrepeat
      · simp only [modified] at hstop
        split_ifs at hstop with hnew
        · exact absurd hstop hnew.ne'
        · exact hstop
    · rw [Function.update_of_ne hq]
      exact ⟨hrepeat, hcount, id⟩
  | @synced _ q found sync late_margin_percent tNow =>
    rw [(sync_spec arith h found sync late_margin_percent tNow).2.2]
    by_cases hq : p = q
    · subst hq
      obtain ⟨-, hstop, hrepeat', hcount'⟩ := synced_same arith tNow late_margin_percent
        {st.timerSet.data p with syncPct := late_margin_percent}
      rw [Function.update_self, hrepeat', hcount', hstop]
      exact ⟨hrepeat, hcount, id⟩
    · rw [Function.update_of_ne hq]
      exact ⟨hrepeat, hcount, id⟩
  | @fired q _ tNow firing first due =>
    rw [(fire_spec arith h firing first due).2.2.1]
    by_cases hq : p = q
    · subst hq
      rw [Function.update_self]
      exact ⟨hrepeat, hcount, id⟩
    · rw [Function.update_of_ne hq]
      exact ⟨hrepeat, hcount, id⟩
  | returned firing =>
    rw [(callbackDone_spec arith h firing).2.2]
    exact ⟨hrepeat, hcount, id⟩

/-- An event that drops no timer keeps a repeating one that is still without a stop time. -/
theorem present_step (h : Good st) (hp : Present st p) (hplain : Plain (st.timerSet.data p))
    (hstop : ((step arith st event).timerSet.data p).stopTime = 0) (hdrops : ¬ Drops st event) :
    Present (step arith st event) p := by
  cases happens arith st event with
  | idle actions firing timerId =>
    have hset := (idle_spec arith h actions).2
    rcases hp with hin | ⟨fired, hfired, hobj⟩
    · exact Or.inl (hset ▸ hin)
    · exact Or.inr ⟨fired, firing.trans hfired, hobj⟩
  | added new tNow =>
    obtain ⟨-, hmem, -⟩ := add_spec arith h new tNow
    rcases hp with hin | hfired
    · exact Or.inl ((hmem p).mpr (Or.inr hin))
    · exact Or.inr hfired
  | @modified name q found newRunTime newStopTime newRepeatTime =>
    obtain ⟨-, hmem, hdata⟩ := modify_spec arith h found newRunTime newStopTime newRepeatTime
    rcases hp with hin | hfired
    · by_cases hq : p = q
      · subst hq
        have hnew : 0 < newStopTime := by
          by_contra hnot
          exact hdrops ⟨p, found, hplain, hnot⟩
        rw [hdata, Function.update_self, modified] at hstop
        rw [if_pos hnew] at hstop
        exact absurd hstop hnew.ne'
      · exact Or.inl ((hmem p).mpr ⟨hin, Or.inl hq⟩)
    · exact Or.inr hfired
  | synced found sync late_margin_percent tNow =>
    obtain ⟨-, hmem, -⟩ := sync_spec arith h found sync late_margin_percent tNow
    rcases hp with hin | hfired
    · exact Or.inl ((hmem p).mpr hin)
    · exact Or.inr hfired
  | @fired q _ tNow firing first due =>
    obtain ⟨-, hmem, -, hfiring⟩ := fire_spec arith h firing first due
    rcases hp with hin | ⟨fired, hfired, -⟩
    · by_cases hq : p = q
      · exact Or.inr ⟨_, hfiring, hq.symm⟩
      · exact Or.inl ((hmem p).mpr ⟨hin, hq⟩)
    · rw [firing] at hfired
      exact absurd hfired (by simp)
  | @returned fired firing =>
    obtain ⟨-, hmem, -⟩ := callbackDone_spec arith h firing
    rcases hp with hin | ⟨fired', hfired, hobj⟩
    · exact Or.inl ((hmem p).mpr (Or.inr hin))
    · obtain rfl := Option.some_inj.mp (firing.symm.trans hfired)
      refine Or.inl ((hmem p).mpr (Or.inl ⟨hobj.symm, ?_, ?_, ?_⟩))
      · rw [(h.firing fired firing).2.2, hobj]
        exact hplain.1
      · rw [hobj]
        exact Or.inl hplain.2.1
      · rw [hobj]
        exact Or.inl hplain.2.2

/-- A repeating timer that an event leaves present was so before, or the event adds it. -/
theorem plain_origin (h : Good st) (hp : Present (step arith st event) p)
    (hplain : Plain ((step arith st event).timerSet.data p)) :
    (Present st p ∧ Plain (st.timerSet.data p)) ∨
      ∃ new tNow, event = .add new tNow ∧ p = st.timerId ∧ 0 < new.timer_repeatTime ∧
        new.timer_stopTime = 0 ∧ new.timer_count = 0 := by
  cases happens arith st event with
  | idle actions firing timerId =>
    have hset := (idle_spec arith h actions).2
    rw [hset] at hplain
    refine Or.inl ⟨?_, hplain⟩
    rcases hp with hin | ⟨fired, hfired, hobj⟩
    · exact Or.inl (hset ▸ hin)
    · exact Or.inr ⟨fired, firing.symm.trans hfired, hobj⟩
  | added new tNow =>
    obtain ⟨-, hmem, hdata⟩ := add_spec arith h new tNow
    by_cases hnew : p = st.timerId
    · obtain ⟨-, hstop, hrepeat, hcount⟩ := setTimeObject_same arith tNow new.offset new.isSync
        (createTimeObject st.timerId new)
      rw [hdata, hnew, Function.update_self, Plain, hstop, hrepeat, hcount] at hplain
      exact Or.inr ⟨new, tNow, rfl, hnew, hplain⟩
    · rw [hdata, Function.update_of_ne hnew] at hplain
      refine Or.inl ⟨?_, hplain⟩
      rcases hp with hin | hfired
      · exact Or.inl (((hmem p).mp hin).resolve_left hnew)
      · exact Or.inr hfired
  | @modified name q found newRunTime newStopTime newRepeatTime =>
    obtain ⟨-, hmem, hdata⟩ := modify_spec arith h found newRunTime newStopTime newRepeatTime
    have hbefore : Present st p := hp.imp_left fun hin => ((hmem p).mp hin).1
    by_cases hq : p = q
    · subst hq
      rw [hdata, Function.update_self] at hplain
      rcases hp with hin | ⟨fired, hfired, hobj⟩
      · rcases ((hmem p).mp hin).2 with hne | hkept
        · exact absurd rfl hne
        · exact absurd hplain.2.1 hkept.2.1
      · exact absurd hobj (h.not_firing (mem_of_found found) fired hfired)
    · rw [hdata, Function.update_of_ne hq] at hplain
      exact Or.inl ⟨hbefore, hplain⟩
  | @synced name q found sync late_margin_percent tNow =>
    obtain ⟨-, hmem, hdata⟩ := sync_spec arith h found sync late_margin_percent tNow
    have hbefore : Present st p := hp.imp_left (hmem p).mp
    by_cases hq : p = q
    · subst hq
      obtain ⟨-, hstop, hrepeat, hcount⟩ := synced_same arith tNow late_margin_percent
        {st.timerSet.data p with syncPct := late_margin_percent}
      rw [hdata, Function.update_self, Plain, hstop, hrepeat, hcount] at hplain
      exact Or.inl ⟨hbefore, hplain⟩
    · rw [hdata, Function.update_of_ne hq] at hplain
      exact Or.inl ⟨hbefore, hplain⟩
  | @fired q _ tNow firing first due =>
    obtain ⟨-, hmem, hdata, hfiring⟩ := fire_spec arith h firing first due
    have hbefore : Present st p := by
      rcases hp with hin | ⟨fired, hfired, hobj⟩
      · exact Or.inl ((hmem p).mp hin).1
      · obtain rfl := Option.some_inj.mp (hfiring.symm.trans hfired)
        refine Or.inl ?_
        rw [first, ← hobj]
        exact List.mem_cons_self
    by_cases hq : p = q
    · subst hq
      rw [hdata, Function.update_self] at hplain
      exact Or.inl ⟨hbefore, hplain⟩
    · rw [hdata, Function.update_of_ne hq] at hplain
      exact Or.inl ⟨hbefore, hplain⟩
  | @returned fired firing =>
    obtain ⟨-, hmem, hdata⟩ := callbackDone_spec arith h firing
    rw [hdata] at hplain
    refine Or.inl ⟨?_, hplain⟩
    rcases hp with hin | ⟨fired', hfired, -⟩
    · rcases (hmem p).mp hin with hback | hin
      · exact Or.inr ⟨fired, firing, hback.1.symm⟩
      · exact Or.inl hin
    · simp [step, firingAfter] at hfired

/-! ## Runs -/

theorem run_concat (before : List (Event T)) (event : Event T) :
    run arith (before ++ [event]) = step arith (run arith before) event := by
  simp [run]

variable (events : List (Event T))

theorem run_good : Good (run arith events) := by
  induction events using List.reverseRecOn with
  | nil => exact good_started
  | append_singleton before event ih =>
    rw [run_concat]
    exact (good_step arith ih event).2

/-- The run adds the timer repeating, without a stop time and without a repeat count. -/
def AddedRepeating (arith : Arithmetic T) (events : List (Event T)) (p : ℕ) : Prop :=
  ∃ before new tNow after, events = before ++ .add new tNow :: after ∧
    p = (run arith before).timerId ∧ 0 < new.timer_repeatTime ∧ new.timer_stopTime = 0 ∧
    new.timer_count = 0

theorem AddedRepeating.append {arith : Arithmetic T} {events : List (Event T)}
    (h : AddedRepeating arith events p) (later : List (Event T)) :
    AddedRepeating arith (events ++ later) p := by
  obtain ⟨before, new, tNow, after, rfl, hnew⟩ := h
  exact ⟨before, new, tNow, after ++ later, by simp, hnew⟩

/-- What the last event of a run adds, or what was added before. -/
theorem AddedRepeating.of_concat {arith : Arithmetic T} {before : List (Event T)}
    (h : AddedRepeating arith (before ++ [event]) p) :
    AddedRepeating arith before p ∨ ∃ new tNow, event = .add new tNow ∧
      p = (run arith before).timerId ∧ 0 < new.timer_repeatTime ∧ new.timer_stopTime = 0 ∧
      new.timer_count = 0 := by
  obtain ⟨prior, new, tNow, after, hsplit, hnew⟩ := h
  rcases List.eq_nil_or_concat after with rfl | ⟨rest, last, rfl⟩
  · obtain ⟨rfl, hlast⟩ := List.append_inj' hsplit rfl
    exact Or.inr ⟨new, tNow, (List.cons.inj hlast).1, hnew⟩
  · rw [List.concat_eq_append, ← List.cons_append, ← List.append_assoc] at hsplit
    obtain ⟨rfl, -⟩ := List.append_inj' hsplit rfl
    exact Or.inl ⟨prior, new, tNow, rest, rfl, hnew⟩

/-- A timer that is present and repeats without a stop time was added so. -/
theorem added_of_plain (hp : Present (run arith events) p)
    (hplain : Plain ((run arith events).timerSet.data p)) : AddedRepeating arith events p := by
  induction events using List.reverseRecOn with
  | nil =>
    rcases hp with hin | ⟨fired, hfired, -⟩
    · simp [run, started] at hin
    · simp [run, started] at hfired
  | append_singleton before event ih =>
    rw [run_concat] at hp hplain
    rcases plain_origin arith (run_good arith before) hp hplain with hbefore | hadded
    · exact (ih hbefore.1 hbefore.2).append [event]
    · obtain ⟨new, tNow, rfl, hnew⟩ := hadded
      exact ⟨before, new, tNow, [], rfl, hnew⟩

/-- An added timer keeps repeating without a count. -/
theorem added_repeats (h : AddedRepeating arith events p) : p < (run arith events).timerId ∧
      0 < ((run arith events).timerSet.data p).repeatTime ∧
      ((run arith events).timerSet.data p).count = 0 := by
  induction events using List.reverseRecOn with
  | nil =>
    obtain ⟨before, new, tNow, after, hsplit, -⟩ := h
    simp at hsplit
  | append_singleton before event ih =>
    rw [run_concat]
    rcases h.of_concat with hbefore | ⟨new, tNow, rfl, rfl, hrepeat, -, hcount⟩
    · obtain ⟨hlt, hrepeat, hcount⟩ := ih hbefore
      obtain ⟨hrepeat', hcount', -⟩ :=
        data_step arith (run_good arith before) event hlt hrepeat hcount
      refine ⟨Nat.lt_of_lt_of_le hlt ?_, hrepeat', hcount'⟩
      cases event with
      | add new tNow => exact Nat.le_succ _
      | _ => exact Nat.le_refl _
    · obtain ⟨-, -, hrepeat', hcount'⟩ := setTimeObject_same arith tNow new.offset new.isSync
        (createTimeObject (run arith before).timerId new)
      rw [(add_spec arith (run_good arith before) new tNow).2.2, Function.update_self, hrepeat',
        hcount']
      exact ⟨Nat.lt_succ_self _, hrepeat, hcount⟩

/-- The timer stands in the set once, or is out of it while its callback is running. -/
def KeptOnce (st : TimerModule T) (p : ℕ) : Prop :=
  (st.timerSet.elems.count p = 1 ∧ ∀ fired, st.firing = some fired → fired.tObj ≠ p) ∨
    (st.timerSet.elems.count p = 0 ∧ ∃ fired, st.firing = some fired ∧ fired.tObj = p)

omit [Zero T] in
theorem keptOnce_iff (h : Good st) (p : ℕ) : KeptOnce st p ↔ Present st p := by
  constructor
  · intro hkept
    rcases hkept with hin | hout
    · exact Or.inl (List.count_pos_iff.mp (by omega))
    · exact Or.inr hout.2
  · intro hpresent
    by_cases hin : p ∈ st.timerSet.elems
    · exact Or.inl ⟨List.count_eq_one_of_mem h.neat.nodup hin, h.not_firing hin⟩
    · exact Or.inr ⟨List.count_eq_zero.mpr hin, hpresent.resolve_left hin⟩

/-- The law of the timer module over a run. -/
structure KeepsTimers (arith : Arithmetic T) (events : List (Event T)) : Prop where
  /-- The run time of a timer is written only while the timer is out of the set. -/
  writes : ∀ before event after, events = before ++ event :: after →
    Disciplined CompareTimerSet (run arith before).timerSet
      (actionsOf arith (run arith before) event)
  /-- The timers stand in the set by run time and identifier. -/
  ordered : ∀ before after, events = before ++ after →
    Ordered (byData CompareTimerSet (run arith before).timerSet.data)
      (run arith before).timerSet.elems
  /-- A timer added repeating is kept while it has no stop time. -/
  kept : ∀ before after p, events = before ++ after → AddedRepeating arith before p →
    ((run arith before).timerSet.data p).stopTime = 0 → KeptOnce (run arith before) p
  /-- While a timer of the set is due, the thread does not wait: it fires one no later. -/
  fired : ∀ before tNow after p, events = before ++ .wake tNow :: after →
    (run arith before).firing = none → p ∈ (run arith before).timerSet.elems →
    ((run arith before).timerSet.data p).runTime ≤ tNow →
    ∃ fired, (run arith (before ++ [.wake tNow])).firing = some fired ∧
      ((run arith before).timerSet.data fired.tObj).runTime ≤
        ((run arith before).timerSet.data p).runTime

/-- When a timer is due, the first of the set is due and fires. -/
theorem fires_first (h : Good st) (hfiring : st.firing = none) (hp : p ∈ st.timerSet.elems)
    {tNow : T} (hdue : (st.timerSet.data p).runTime ≤ tNow) :
    ∃ fired, (step arith st (.wake tNow)).firing = some fired ∧
      (st.timerSet.data fired.tObj).runTime ≤ (st.timerSet.data p).runTime := by
  cases hfirst : st.timerSet.elems with
  | nil => simp [hfirst] at hp
  | cons q rest =>
    have hle : (st.timerSet.data q).runTime ≤ (st.timerSet.data p).runTime := by
      have hordered := h.neat.ordered
      rw [hfirst] at hp hordered
      rcases List.mem_cons.mp hp with rfl | hrest
      · exact le_refl _
      · have hless := hordered.head_less hrest
        rw [byData, compareTimerSet_iff, Prod.Lex.toLex_lt_toLex] at hless
        rcases hless with hlt | ⟨heq, -⟩
        · exact hlt.le
        · exact heq.le
    have hsub : arith.sub (st.timerSet.data q).runTime tNow ≤ 0 :=
      (arith.sub_nonpos _ _).mpr (hle.trans hdue)
    exact ⟨_, (fire_spec arith h hfiring hfirst hsub).2.2.2, hle⟩

/-- While no modification drops a timer, the repeating timers are kept. -/
theorem run_present (hdrops : ∀ before event after, events = before ++ event :: after →
      ¬ Drops (run arith before) event) (hadded : AddedRepeating arith events p)
    (hstop : ((run arith events).timerSet.data p).stopTime = 0) : Present (run arith events) p := by
  induction events using List.reverseRecOn with
  | nil =>
    obtain ⟨before, new, tNow, after, hsplit, -⟩ := hadded
    simp at hsplit
  | append_singleton before event ih =>
    rw [run_concat] at hstop ⊢
    rcases hadded.of_concat with hbefore | ⟨new, tNow, rfl, rfl, -⟩
    · obtain ⟨hlt, hrepeat, hcount⟩ := added_repeats arith before hbefore
      have hgood := run_good arith before
      have hwas := (data_step arith hgood event hlt hrepeat hcount).2.2 hstop
      have hpresent := ih (fun b e a hsplit => hdrops b e (a ++ [event]) (by rw [hsplit]; simp))
        hbefore hwas
      exact present_step arith hgood hpresent ⟨hrepeat, hwas, hcount⟩ hstop
        (hdrops before event [] rfl)
    · exact Or.inl (((add_spec arith (run_good arith before) new tNow).2.1 _).mpr (Or.inl rfl))

/-- A dropped timer is neither in the set nor firing, and still has no stop time. -/
theorem drops_lost (h : Good st) (hdrops : Drops st event) :
    ∃ p, Present st p ∧ Plain (st.timerSet.data p) ∧
      ((step arith st event).timerSet.data p).stopTime = 0 ∧ ¬ Present (step arith st event) p := by
  cases event with
  | modify name newRunTime newStopTime newRepeatTime =>
    obtain ⟨p, hfound, hplain, hnot⟩ := hdrops
    obtain ⟨-, hmem, hdata⟩ := modify_spec arith h hfound newRunTime newStopTime newRepeatTime
    have hin := mem_of_found hfound
    have hstop : (modified newRunTime newStopTime newRepeatTime
        (st.timerSet.data p)).stopTime = 0 := by
      rw [modified, if_neg hnot]
      exact hplain.2.1
    refine ⟨p, Or.inl hin, hplain, ?_, fun hpresent => ?_⟩
    · rw [hdata, Function.update_self]
      exact hstop
    · rcases hpresent with hin' | ⟨fired, hfired, hobj⟩
      · rcases ((hmem p).mp hin').2 with hne | hkept
        · exact absurd rfl hne
        · exact absurd hstop hkept.2.1
      · exact absurd hobj (h.not_firing hin fired hfired)
  | _ => exact absurd hdrops id

/-- A run keeps its repeating timers in order exactly when no modification drops one. -/
theorem keepsTimers_iff (arith : Arithmetic T) (events : List (Event T)) :
    KeepsTimers arith events ↔ ∀ before event after, events = before ++ event :: after →
      ¬ Drops (run arith before) event := by
  constructor
  · intro hkeeps before event after hsplit hdrops
    obtain ⟨p, hpresent, hplain, hstop, hlost⟩ := drops_lost arith (run_good arith before) hdrops
    have hadded := (added_of_plain arith before hpresent hplain).append [event]
    rw [← run_concat] at hstop hlost
    have hkept := hkeeps.kept (before ++ [event]) after p (by rw [hsplit]; simp) hadded hstop
    exact hlost ((keptOnce_iff (run_good arith _) p).mp hkept)
  · intro hdrops
    refine ⟨fun before event after _ => ?_, fun before after _ => ?_,
      fun before after p hsplit hadded hstop => ?_, fun before tNow after p _ hfiring hp hdue => ?_⟩
    · exact (good_step arith (run_good arith before) event).1.disciplined
    · exact (run_good arith before).neat.ordered
    · refine (keptOnce_iff (run_good arith before) p).mpr
        (run_present arith before (fun b e a hb => ?_) hadded hstop)
      exact hdrops b e (a ++ after) (by rw [hsplit, hb]; simp)
    · rw [run_concat]
      exact fires_first arith (run_good arith before) hfiring hp hdue

/-- In every run the timers stand in the set in order and once each, below the next identifier,
and the one whose callback runs is out of the set and has its interval. -/
theorem run_ordered (arith : Arithmetic T) (events : List (Event T)) :
    let st := run arith events
    Ordered (byData CompareTimerSet st.timerSet.data) st.timerSet.elems ∧
      st.timerSet.elems.Nodup ∧ (∀ p ∈ st.timerSet.elems, p < st.timerId) ∧
      ∀ fired, st.firing = some fired → fired.tObj ∉ st.timerSet.elems ∧
        fired.interval = (st.timerSet.data fired.tObj).repeatTime := by
  have h := run_good arith events
  exact ⟨h.neat.ordered, h.neat.nodup, h.created, fun fired hfired => (h.firing fired hfired).2⟩

/-! ## A poll that is modified -/

/-- Whole seconds. -/
def seconds : Arithmetic ℤ where
  add := (· + ·)
  sub := (· - ·)
  mul := (· * ·)
  div := (· / ·)
  ceil := id
  sub_nonpos a b := by omega

/-- A poll every second, without a stop time and without a repeat count. -/
def poll : NewTimer ℤ where
  timer_name := "poll"
  timer_runTime := 1
  timer_stopTime := 0
  timer_repeatTime := 1
  timer_count := 0
  offset := 0
  isSync := false

/-- Setting the repeat time of a poll takes it out of the set for good. -/
theorem modify_losesPoll : ¬ KeepsTimers seconds [.add poll 0, .modify "poll" 0 0 2] := by
  intro hkeeps
  have hkept := hkeeps.kept [.add poll 0, .modify "poll" 0 0 2] [] 0 rfl
    ⟨[], poll, 0, [.modify "poll" 0 0 2], rfl, rfl, by decide⟩ (by decide)
  rcases hkept with hin | hout
  · exact absurd hin.1 (by decide)
  · obtain ⟨-, fired, hfired, -⟩ := hout
    have hnone : (run seconds [.add poll 0, .modify "poll" 0 0 2]).firing = none := rfl
    rw [hnone] at hfired
    exact absurd hfired (by simp)

end HybridOs.GcomTimer
