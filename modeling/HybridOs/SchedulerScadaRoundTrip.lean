import HybridOs.SchedulerScadaCommands

/-!
# Events on the stage

An event of a schedule is flattened for the stage and converted back. Its time and the values
of its variables come back as they were. The identifier and the series do not: a converted
event has the identifier zero and a series by default, and all that is left of the series is
whether it ends.
-/

namespace HybridOs.Scheduler

open Handled

/-! ## Values in slots -/

/-- The value goes to a slot of the type. -/
def HasSlotType (varType : VarType) (val : GoValue) : Bool :=
  match varType, val with
  | .float, .float64 _ => true
  | .int, .int _ => true
  | .bool, .bool _ => true
  | .string, .string _ => true
  | _, _ => false

/-- The map holds a value for each of a mode's variables, of the type of its slot. -/
def SlotValues (vars : SetpointList) (variableMap : VariableMap) : Prop :=
  ∀ sp ∈ vars, ∃ val, variableMap.lookup sp.id = some val ∧ HasSlotType sp.varType val = true

/-- The number of a mode's variables of a type. -/
def countOf (varType : VarType) (vars : SetpointList) : ℕ := vars.countP (·.varType = varType)

/-- The variables fit into the slots from the next free ones on. -/
structure FitsFrom (cfg : ScadaConfiguration) (next : NextSlots) (vars : SetpointList) : Prop where
  floats : next.float + countOf .float vars ≤ cfg.numFloats
  ints : next.int + countOf .int vars ≤ cfg.numInts
  bools : next.bool + countOf .bool vars ≤ cfg.numBools
  strings : next.string + countOf .string vars ≤ cfg.numStrings

/-- The values of a mode's variables, entered into a map. -/
def enterValues (variableMap : VariableMap) (vars : SetpointList) (entered : VariableMap) :
    VariableMap :=
  vars.foldl (fun entered sp =>
    match variableMap.lookup sp.id with
    | some val => entered.insert sp.id val
    | none => entered) entered

/-- The event has the fields of another one, and its slots before the next free ones. -/
structure ScadaEvent.Extends (next : NextSlots) (eScada filled : ScadaEvent) : Prop where
  fields : filled = { eScada with
    floatVars := filled.floatVars
    intVars := filled.intVars
    boolVars := filled.boolVars
    stringVars := filled.stringVars }
  floats : ∀ i : ℕ, (i : ℤ) < next.float → filled.floatVars[i]? = eScada.floatVars[i]?
  ints : ∀ i : ℕ, (i : ℤ) < next.int → filled.intVars[i]? = eScada.intVars[i]?
  bools : ∀ i : ℕ, (i : ℤ) < next.bool → filled.boolVars[i]? = eScada.boolVars[i]?
  strings : ∀ i : ℕ, (i : ℤ) < next.string → filled.stringVars[i]? = eScada.stringVars[i]?

theorem lookup_enterValues {variableMap : VariableMap} {vars : SetpointList}
    (hvalues : SlotValues vars variableMap) (entered : VariableMap) (id : String) :
    (enterValues variableMap vars entered).lookup id =
      if id ∈ vars.ids then variableMap.lookup id else entered.lookup id := by
  induction vars generalizing entered with
  | nil => simp [enterValues, SetpointList.ids]
  | cons sp rest ih =>
    obtain ⟨val, hval, -⟩ := hvalues sp List.mem_cons_self
    have hrest : SlotValues rest variableMap := fun sp' hsp' =>
      hvalues sp' (List.mem_cons_of_mem _ hsp')
    have hstep : enterValues variableMap (sp :: rest) entered =
        enterValues variableMap rest (entered.insert sp.id val) := by
      rw [enterValues, List.foldl_cons, hval]
      rfl
    rw [hstep, ih hrest]
    by_cases hlater : id ∈ SetpointList.ids rest
    · have hmem : id ∈ SetpointList.ids (sp :: rest) := List.mem_cons_of_mem _ hlater
      rw [if_pos hlater, if_pos hmem]
    · by_cases hhere : id = sp.id
      · subst hhere
        have hmem : sp.id ∈ SetpointList.ids (sp :: rest) := List.mem_cons_self
        rw [if_neg hlater, if_pos hmem, AList.lookup_insert, hval]
      · have hmem : id ∉ SetpointList.ids (sp :: rest) := by
          simp only [SetpointList.ids, List.map_cons, List.mem_cons, not_or]
          exact ⟨hhere, hlater⟩
        rw [if_neg hlater, if_neg hmem, AList.lookup_insert_ne hhere]

/-- What was written to a slot is read from it, where later writes keep it. -/
theorem index_written {α : Type} {slots filled : List α} {i : ℤ} {a : α} (hlow : 0 ≤ i)
    (hhigh : i < slots.length)
    (hkept : ∀ j : ℕ, (j : ℤ) < i + 1 → filled[j]? = (slots.set i.toNat a)[j]?) :
    index filled i = .replied a := by
  have hread : filled[i.toNat]? = some a := by
    rw [hkept i.toNat (by omega), List.getElem?_set_self (by omega)]
  rw [index, if_neg (by omega), hread]

theorem getElem?_set_before {α : Type} {slots : List α} {i : ℤ} {a : α} {j : ℕ} (h : (j : ℤ) < i) :
    (slots.set i.toNat a)[j]? = slots[j]? := by
  have hne : i.toNat ≠ j := by omega
  rw [List.getElem?_set_ne hne]

section RoundTrip

variable {cfg : ScadaConfiguration} {variableMap : VariableMap} {varType : VarType} {sp : Setpoint}
  {vars : SetpointList} {next : NextSlots} {eScada : ScadaEvent}

theorem countOf_cons_self (h : sp.varType = varType) (rest : SetpointList) :
    countOf varType (sp :: rest) = countOf varType rest + 1 := by
  simp [countOf, h]

theorem countOf_cons_ne (h : sp.varType ≠ varType) (rest : SetpointList) :
    countOf varType (sp :: rest) = countOf varType rest := by
  simp [countOf, h]

/-- Values that go to slots are filled in, and reading the slots in the same order enters them
again. Each step writes the next free slot of its type, which later ones leave alone. -/
theorem fillVariables_convertVariables (hvalues : SlotValues vars variableMap)
    (hnext : next.Natural) (hfits : FitsFrom cfg next vars) (hsized : eScada.Sized cfg)
    (entered : VariableMap) :
    ∃ filled, ScadaEvent.fillVariables cfg variableMap vars next eScada =
        .replied (filled, true) ∧ eScada.Extends next filled ∧
      filled.convertVariables cfg vars next entered =
        .replied (some (enterValues variableMap vars entered)) := by
  induction vars generalizing next eScada entered with
  | nil =>
    exact ⟨eScada, rfl, ⟨rfl, fun _ _ => rfl, fun _ _ => rfl, fun _ _ => rfl, fun _ _ => rfl⟩, rfl⟩
  | cons sp rest ih =>
    obtain ⟨val, hval, htype⟩ := hvalues sp List.mem_cons_self
    have hrest : SlotValues rest variableMap := fun sp' hsp' =>
      hvalues sp' (List.mem_cons_of_mem _ hsp')
    have hentered : enterValues variableMap (sp :: rest) entered =
        enterValues variableMap rest (entered.insert sp.id val) := by
      rw [enterValues, List.foldl_cons, hval]
      rfl
    have hfloat := hnext.float
    have hint := hnext.int
    have hbool := hnext.bool
    have hstring := hnext.string
    obtain ⟨hfloats, hints, hbools, hstrings⟩ := hfits
    have hsize := hsized
    unfold HasSlotType at htype
    split at htype
    next bits hsp =>
      rw [countOf_cons_self hsp, Nat.cast_add, Nat.cast_one] at hfloats
      rw [countOf_cons_ne (by rw [hsp]; decide)] at hints hbools hstrings
      have hfree : next.float < cfg.numFloats := by omega
      have hlength := hsize.floats
      have hset : ({ eScada with floatVars := eScada.floatVars.set next.float.toNat bits } : ScadaEvent).Sized cfg :=
        ⟨by rw [List.length_set]; exact hsize.floats, hsize.ints, hsize.bools, hsize.strings⟩
      obtain ⟨filled, hfilled, hextends, hconverted⟩ := ih hrest hnext.afterFloat
        ⟨by dsimp only; omega, hints, hbools, hstrings⟩ hset
        (entered.insert sp.id (.float64 bits))
      refine ⟨filled, ?_, ⟨hextends.fields, ?_, hextends.ints, hextends.bools, hextends.strings⟩, ?_⟩
      · rw [ScadaEvent.fillVariables, hval, hsp]
        dsimp only
        rw [if_pos hfree, assign_replies hfloat (by omega)]
        exact hfilled
      · intro i hi
        rw [hextends.floats i (Int.lt_add_one_of_le hi.le)]
        exact getElem?_set_before hi
      · rw [ScadaEvent.convertVariables, hsp]
        dsimp only
        rw [if_neg (by omega), index_written hfloat (by omega) hextends.floats, hentered]
        exact hconverted
    next n hsp =>
      rw [countOf_cons_self hsp, Nat.cast_add, Nat.cast_one] at hints
      rw [countOf_cons_ne (by rw [hsp]; decide)] at hfloats hbools hstrings
      have hfree : next.int < cfg.numInts := by omega
      have hlength := hsize.ints
      have hset : ({ eScada with intVars := eScada.intVars.set next.int.toNat n } : ScadaEvent).Sized cfg :=
        ⟨hsize.floats, by rw [List.length_set]; exact hsize.ints, hsize.bools, hsize.strings⟩
      obtain ⟨filled, hfilled, hextends, hconverted⟩ := ih hrest hnext.afterInt
        ⟨hfloats, by dsimp only; omega, hbools, hstrings⟩ hset
        (entered.insert sp.id (.int n))
      refine ⟨filled, ?_, ⟨hextends.fields, hextends.floats, ?_, hextends.bools, hextends.strings⟩, ?_⟩
      · rw [ScadaEvent.fillVariables, hval, hsp]
        dsimp only
        rw [if_pos hfree, assign_replies hint (by omega)]
        exact hfilled
      · intro i hi
        rw [hextends.ints i (Int.lt_add_one_of_le hi.le)]
        exact getElem?_set_before hi
      · rw [ScadaEvent.convertVariables, hsp]
        dsimp only
        rw [if_neg (by omega), index_written hint (by omega) hextends.ints, hentered]
        exact hconverted
    next b hsp =>
      rw [countOf_cons_self hsp, Nat.cast_add, Nat.cast_one] at hbools
      rw [countOf_cons_ne (by rw [hsp]; decide)] at hfloats hints hstrings
      have hfree : next.bool < cfg.numBools := by omega
      have hlength := hsize.bools
      have hset : ({ eScada with boolVars := eScada.boolVars.set next.bool.toNat b } : ScadaEvent).Sized cfg :=
        ⟨hsize.floats, hsize.ints, by rw [List.length_set]; exact hsize.bools, hsize.strings⟩
      obtain ⟨filled, hfilled, hextends, hconverted⟩ := ih hrest hnext.afterBool
        ⟨hfloats, hints, by dsimp only; omega, hstrings⟩ hset
        (entered.insert sp.id (.bool b))
      refine ⟨filled, ?_, ⟨hextends.fields, hextends.floats, hextends.ints, ?_, hextends.strings⟩, ?_⟩
      · rw [ScadaEvent.fillVariables, hval, hsp]
        dsimp only
        rw [if_pos hfree, assign_replies hbool (by omega)]
        exact hfilled
      · intro i hi
        rw [hextends.bools i (Int.lt_add_one_of_le hi.le)]
        exact getElem?_set_before hi
      · rw [ScadaEvent.convertVariables, hsp]
        dsimp only
        rw [if_neg (by omega), index_written hbool (by omega) hextends.bools, hentered]
        exact hconverted
    next text hsp =>
      rw [countOf_cons_self hsp, Nat.cast_add, Nat.cast_one] at hstrings
      rw [countOf_cons_ne (by rw [hsp]; decide)] at hfloats hints hbools
      have hfree : next.string < cfg.numStrings := by omega
      have hlength := hsize.strings
      have hset : ({ eScada with stringVars := eScada.stringVars.set next.string.toNat text } : ScadaEvent).Sized cfg :=
        ⟨hsize.floats, hsize.ints, hsize.bools, by rw [List.length_set]; exact hsize.strings⟩
      obtain ⟨filled, hfilled, hextends, hconverted⟩ := ih hrest hnext.afterString
        ⟨hfloats, hints, hbools, by dsimp only; omega⟩ hset
        (entered.insert sp.id (.string text))
      refine ⟨filled, ?_, ⟨hextends.fields, hextends.floats, hextends.ints, hextends.bools, ?_⟩, ?_⟩
      · rw [ScadaEvent.fillVariables, hval, hsp]
        dsimp only
        rw [if_pos hfree, assign_replies hstring (by omega)]
        exact hfilled
      · intro i hi
        rw [hextends.strings i (Int.lt_add_one_of_le hi.le)]
        exact getElem?_set_before hi
      · rw [ScadaEvent.convertVariables, hsp]
        dsimp only
        rw [if_neg (by omega), index_written hstring (by omega) hextends.strings, hentered]
        exact hconverted
    · cases htype

/-- Only values that go to slots are filled in without an error. -/
theorem slotValues_of_fillVariables {filled : ScadaEvent}
    (hknown : ∀ sp ∈ vars, ∀ text, sp.varType ≠ .other text)
    (h : ScadaEvent.fillVariables cfg variableMap vars next eScada = .replied (filled, true)) :
    SlotValues vars variableMap := by
  induction vars generalizing next eScada with
  | nil => exact fun sp hsp => absurd hsp List.not_mem_nil
  | cons sp rest ih =>
    have hrest : ∀ {next : NextSlots} {eScada : ScadaEvent},
        ScadaEvent.fillVariables cfg variableMap rest next eScada = .replied (filled, true) →
        SlotValues rest variableMap :=
      ih fun sp' hsp' => hknown sp' (List.mem_cons_of_mem _ hsp')
    have hcons : ∀ val, variableMap.lookup sp.id = some val →
        HasSlotType sp.varType val = true → SlotValues rest variableMap →
        SlotValues (sp :: rest) variableMap := fun val hval htype hvalues =>
      List.forall_mem_cons.mpr ⟨⟨val, hval, htype⟩, hvalues⟩
    rw [ScadaEvent.fillVariables] at h
    split at h
    · cases h
    · cases h
    next val hmap hval =>
      split at h
      case h_1 hsp | h_2 hsp | h_3 hsp | h_4 hsp =>
        refine hcons _ hval (by rw [hsp]; rfl) ?_
        split_ifs at h
        · obtain ⟨_, -, h⟩ := Handled.of_bind_replied h
          exact hrest h
        · exact hrest h
      next hsp => exact absurd hsp (hknown sp List.mem_cons_self _)
      · cases h

end RoundTrip

/-! ## Times and durations -/

/-- A number of minutes fits into a duration. -/
def MinutesFit (duration : UInt64) : Prop :=
  -153722867 ≤ duration.toInt64.toInt ∧ duration.toInt64.toInt ≤ 153722867

/-- Signed and unsigned numbers of the same bits. -/
theorem toInt_eq_iff {n : UInt64} {k : ℤ} (hlow : -2 ^ 63 ≤ k) (hhigh : k < 2 ^ 63) :
    UInt64.ofInt k = n ↔ n.toInt64.toInt = k := by
  have hbits : n.toInt64.toInt = n.toBitVec.toInt := rfl
  have hnat : n.toBitVec.toNat = n.toNat := rfl
  rw [hbits, BitVec.toInt_eq_toNat_cond, hnat, ← UInt64.toNat_inj]
  have hofInt : (UInt64.ofInt k).toNat = (k % 2 ^ 64).toNat := by
    rw [UInt64.ofInt, UInt64.toNat_ofNat']
    omega
  rw [hofInt]
  split_ifs <;> omega

/-- The whole minutes of a duration are as many as a duration can have. -/
theorem tdiv_minute_range (n : ℤ) : -153722867 ≤ (wrapInt64 n).tdiv minute ∧
    (wrapInt64 n).tdiv minute ≤ 153722867 := by
  have hlow : -2 ^ 63 ≤ wrapInt64 n := by
    have h := Int.le_bmod (x := n) (m := 2 ^ 64) (by decide)
    rw [wrapInt64]
    omega
  have hhigh : wrapInt64 n < 2 ^ 63 := by
    have h := Int.bmod_lt (x := n) (m := 2 ^ 64) (by decide)
    rw [wrapInt64]
    omega
  rcases le_total 0 (wrapInt64 n) with hpos | hneg
  · rw [Int.tdiv_eq_ediv_of_nonneg hpos, minute]
    omega
  · have hopposite : (wrapInt64 n).tdiv minute = -(-wrapInt64 n / minute) := by
      rw [← Int.tdiv_eq_ediv_of_nonneg (by omega), Int.neg_tdiv, Int.neg_neg]
    rw [hopposite, minute]
    omega

/-- Minutes come back from a duration if and only if they fit into one. -/
theorem createEvent_duration_iff (startTime : Time) (duration : UInt64) (mode : String) :
    (createEvent startTime (wrapInt64 (duration.toInt64.toInt * minute)) mode).duration =
      duration ↔ MinutesFit duration := by
  obtain ⟨hlow, hhigh⟩ := tdiv_minute_range (duration.toInt64.toInt * minute)
  have hkept : (createEvent startTime (wrapInt64 (duration.toInt64.toInt * minute)) mode).duration =
      duration ↔ duration.toInt64.toInt =
        (wrapInt64 (duration.toInt64.toInt * minute)).tdiv minute :=
    toInt_eq_iff (by omega) (by omega)
  rw [hkept]
  constructor
  · intro heq
    rw [MinutesFit, heq]
    exact ⟨hlow, hhigh⟩
  · intro hfits
    have hwhole : wrapInt64 (duration.toInt64.toInt * minute) = duration.toInt64.toInt * minute := by
      obtain ⟨hmin, hmax⟩ := hfits
      rw [wrapInt64, Int.bmod_eq_of_le] <;> simp only [minute] <;> omega
    rw [hwhole, Int.mul_tdiv_cancel _ (by decide)]

/-- The time of an event on the stage is that of the event it was loaded from, if that starts
at a full minute. -/
theorem getEventTime_flatten (cfg : ScadaConfiguration) {e : Event}
    (haligned : e.startTime.instant % minute = 0) (siteId : String) (loc : Location) :
    (ScadaEvent.flatten cfg e siteId).getEventTime (some loc) =
      .replied (e.startTime.inLocation loc) := by
  have hutc : utc.Fixed 0 := fun _ => rfl
  have hwall : (e.startTime.inLocation utc).wall = e.startTime.instant := Int.add_zero _
  have hdate : (e.startTime.inLocation utc).date = e.startTime.instant / day := by
    rw [Time.date, hwall]
  have hclock : (e.startTime.inLocation utc).clock = e.startTime.instant % day := by
    rw [Time.clock, hwall]
  have hinstant : e.startTime.instant / day * day +
      (e.startTime.instant % day / hour * hour +
        e.startTime.instant % day % hour / minute * minute) - 0 = e.startTime.instant := by
    simp only [day, hour, minute] at haligned ⊢
    omega
  unfold ScadaEvent.getEventTime
  simp only [ScadaEvent.flatten, CivilDate.dateOf_civil, hutc.timeDate_eq, Time.hourOfDay,
    Time.minuteOfHour, hdate, hclock, hinstant]
  rfl

/-! ## The event that comes back -/

/-- Two events have the same settings, as far as they show: the same start, duration, mode,
values and exceptions, and, where they repeat, the same series. -/
structure Event.SameSettings (e e' : Event) : Prop where
  start : e'.startTime.instant = e.startTime.instant
  duration : e'.duration = e.duration
  mode : e'.mode = e.mode
  values : ∀ id, e'.variableMap.lookup id = e.variableMap.lookup id
  endCount : e'.repeatSettings.endCount = e.repeatSettings.endCount
  cycle : e.repeatSettings.endCount ≠ 1 → e'.repeatSettings.cycle = e.repeatSettings.cycle
  frequency : e.repeatSettings.endCount ≠ 1 →
    e'.repeatSettings.frequency = e.repeatSettings.frequency
  dayMask : e.repeatSettings.endCount ≠ 1 → e.repeatSettings.cycle = .weekly →
    e'.repeatSettings.dayMask = e.repeatSettings.dayMask
  exceptions : ∀ t, e'.hasException t = e.hasException t

/-- Two events are the same, up to the order in which their values are listed. -/
structure Event.Same (e e' : Event) : Prop where
  id : e'.id = e.id
  startTime : e'.startTime = e.startTime
  duration : e'.duration = e.duration
  mode : e'.mode = e.mode
  values : ∀ id, e'.variableMap.lookup id = e.variableMap.lookup id
  repeatSettings : e'.repeatSettings = e.repeatSettings

theorem Event.Same.refl (e : Event) : e.Same e := ⟨rfl, rfl, rfl, rfl, fun _ => rfl, rfl⟩

/-- What converting an event on the stage gives for an event that it was loaded from. -/
def Event.scadaCopy (e : Event) (loc : Location) (vars : SetpointList) : Event where
  id := 0
  startTime := e.startTime.inLocation loc
  duration := (createEvent e.startTime (wrapInt64 (e.duration.toInt64.toInt * minute))
    e.mode).duration
  mode := e.mode
  variableMap := enterValues e.variableMap vars ∅
  repeatSettings := { newNonRepeatingSeries with
    endCount := if e.repeatSettings.endCount = -1 then -1 else 1 }

/-- All values of the event go to slots. -/
structure Event.AllInSlots (e : Event) (vars : SetpointList) : Prop where
  values : SlotValues vars e.variableMap
  keys : ∀ id, (e.variableMap.lookup id).isSome → id ∈ vars.map (·.id)

theorem Event.AllInSlots.lookup_scadaCopy {e : Event} {vars : SetpointList}
    (h : e.AllInSlots vars) (loc : Location) (id : String) :
    (e.scadaCopy loc vars).variableMap.lookup id = e.variableMap.lookup id := by
  have hentered := lookup_enterValues h.values ∅ id
  rw [Event.scadaCopy]
  rw [hentered]
  split_ifs with hmem
  · rfl
  · have hnone : e.variableMap.lookup id = none := by
      by_contra hsome
      exact hmem (h.keys id (Option.isSome_iff_ne_none.mpr hsome))
    rw [hnone]
    rfl

section Conversion

variable {st : ScadaState} {siteId : String} {e : Event} {mode : Mode} {loc : Location}

/-- An event whose values go to slots is loaded and converted. -/
theorem Event.loaded_converted (hnat : st.config.Natural) (hmode : st.modes.lookup e.mode = some mode)
    (hzone : st.timezoneOf siteId = some loc) (haligned : e.startTime.instant % minute = 0)
    (hfits : FitsFrom st.config ⟨0, 0, 0, 0⟩ mode.modeVariables)
    (hvalues : SlotValues mode.modeVariables e.variableMap) :
    ∃ filled, ScadaEvent.fillWithData st.config st.modes e siteId = .replied (filled, true) ∧
      filled.site = some siteId ∧
      filled.convertToEvent st = .replied (some (e.scadaCopy loc mode.modeVariables)) := by
  have hreset := ScadaEvent.reset_sized hnat
  have hsized : (ScadaEvent.flatten st.config e siteId).Sized st.config :=
    ⟨hreset.floats, hreset.ints, hreset.bools, hreset.strings⟩
  obtain ⟨filled, hfilled, hextends, hconverted⟩ := fillVariables_convertVariables hvalues
    ⟨le_rfl, le_rfl, le_rfl, le_rfl⟩ hfits hsized ∅
  have hload : ScadaEvent.fillWithData st.config st.modes e siteId = .replied (filled, true) := by
    rw [ScadaEvent.fillWithData, hmode]
    exact hfilled
  have hsite : filled.site = some siteId := by
    rw [hextends.fields]
    rfl
  have hmodeId : filled.modeId = e.mode := by
    rw [hextends.fields]
    rfl
  have htime : filled.getEventTime (some loc) = .replied (e.startTime.inLocation loc) := by
    rw [hextends.fields]
    exact getEventTime_flatten st.config haligned siteId loc
  have hduration : filled.duration = e.duration.toInt64.toInt := by
    rw [hextends.fields]
    rfl
  have hdaily : filled.repeatDaily = decide (e.repeatSettings.endCount = -1) := by
    rw [hextends.fields]
    rfl
  refine ⟨filled, hload, hsite, ?_⟩
  rw [ScadaEvent.convertToEvent, hsite, hmodeId, hmode]
  dsimp only
  rw [hzone, htime, Handled.replied_bind, hduration, hdaily]
  have hmap : (createEvent (e.startTime.inLocation loc)
      (wrapInt64 (e.duration.toInt64.toInt * minute)) e.mode).variableMap = ∅ := rfl
  by_cases hends : e.repeatSettings.endCount = -1
  · simp only [hends, decide_true, if_true, hmap, hconverted]
    rw [Event.scadaCopy, if_pos hends]
    rfl
  · simp only [hends, decide_false, Bool.false_eq_true, if_false, hmap, hconverted]
    rw [Event.scadaCopy, if_neg hends]
    rfl

end Conversion

end HybridOs.Scheduler
