import HybridOs.SchedulerScada

/-!
# The slots of the register interface

The slots, the stage and their events have the sizes of the configuration from a
reconfiguration on. No step of a message changes this, so that no function that goes by these
sizes indexes past a slice.
-/

namespace HybridOs.Scheduler

/-! ## Replies -/

namespace Handled

variable {α β : Type}

/-- The handler replies with a value of a kind. -/
def Replies (P : α → Prop) (h : Handled α) : Prop := ∃ a, h = .replied a ∧ P a

variable {P : α → Prop} {f : α → Handled β}

/-- Two steps reply where the second does on every reply of the first. -/
theorem Replies.bind {Q : β → Prop} {h : Handled α} (hfirst : h.Replies P)
    (hnext : ∀ a, P a → (f a).Replies Q) : (h >>= f).Replies Q := by
  obtain ⟨a, rfl, ha⟩ := hfirst
  exact hnext a ha

/-- A reply has what follows from its property. -/
theorem Replies.mono {Q : α → Prop} {h : Handled α} (hreplies : h.Replies P) (himp : ∀ a, P a → Q a) :
    h.Replies Q := by
  obtain ⟨a, heq, ha⟩ := hreplies
  exact ⟨a, heq, himp a ha⟩

/-- A value is a reply. -/
theorem replies_replied {a : α} (ha : P a) : (Handled.replied a).Replies P :=
  ⟨a, rfl, ha⟩

/-- A reply is no panic. -/
theorem Replies.ne_panicked {h : Handled α} (hreplies : h.Replies P) : h ≠ .panicked := by
  obtain ⟨a, rfl, -⟩ := hreplies
  simp

/-- A list is handled where each of its members is. -/
theorem replies_mapM' {P : β → Prop} {l : List α} (h : ∀ a ∈ l, (f a).Replies P) :
    (l.mapM' f).Replies fun bs => ∀ b ∈ bs, P b := by
  induction l with
  | nil => exact replies_replied (by simp)
  | cons a l ih =>
    have hhead := h a List.mem_cons_self
    have htail := ih fun b hb => h b (List.mem_cons_of_mem a hb)
    rw [List.mapM'_cons]
    refine hhead.bind fun b hb => htail.bind fun bs hbs => replies_replied ?_
    intro c hc
    rcases List.mem_cons.mp hc with rfl | hc
    · exact hb
    · exact hbs c hc

end Handled

open Handled

section Slices

variable {α : Type} {slice : List α} {i : ℤ}

/-- An index inside a slice gives a member. -/
theorem index_replies (hlow : 0 ≤ i) (hhigh : i < slice.length) :
    (index slice i).Replies (· ∈ slice) := by
  have hlt : i.toNat < slice.length := by omega
  rw [index, if_neg (by omega), List.getElem?_eq_getElem hlt]
  exact replies_replied (List.getElem_mem hlt)

/-- It gives the member at the index. -/
theorem index_ofNat {n : ℕ} (h : n < slice.length) : index slice n = .replied slice[n] := by
  rw [index, if_neg (by omega), Int.toNat_natCast, List.getElem?_eq_getElem h]

/-- An index outside panics. -/
theorem index_panicked (h : i < 0 ∨ slice.length ≤ i) : index slice i = .panicked := by
  rw [index]
  split_ifs with hneg
  · rfl
  · have hnone : slice[i.toNat]? = none := by
      rw [List.getElem?_eq_none_iff]
      omega
    rw [hnone]

/-- An assignment inside a slice sets the member. -/
theorem assign_replies {a : α} (hlow : 0 ≤ i) (hhigh : i < slice.length) :
    assign slice i a = .replied (slice.set i.toNat a) := if_pos ⟨hlow, hhigh⟩

end Slices

/-! ## Events of the configured sizes -/

/-- The configuration has no negative sizes. -/
structure ScadaConfiguration.Natural (cfg : ScadaConfiguration) : Prop where
  stageSize : 0 ≤ cfg.stageSize
  maxNumEvents : 0 ≤ cfg.maxNumEvents
  numFloats : 0 ≤ cfg.numFloats
  numInts : 0 ≤ cfg.numInts
  numBools : 0 ≤ cfg.numBools
  numStrings : 0 ≤ cfg.numStrings

/-- A configuration that is accepted has no negative number. -/
theorem ScadaConfiguration.natural_of_validate {cfg : ScadaConfiguration}
    (h : cfg.validate = .ok ()) : cfg.Natural := by
  rw [ScadaConfiguration.validate] at h
  split_ifs at h with hstage hevents hfloats hints hbools hstrings
  constructor <;> omega

/-- The event has as many slots of each type as are configured. -/
structure ScadaEvent.Sized (cfg : ScadaConfiguration) (e : ScadaEvent) : Prop where
  floats : (e.floatVars.length : ℤ) = cfg.numFloats
  ints : (e.intVars.length : ℤ) = cfg.numInts
  bools : (e.boolVars.length : ℤ) = cfg.numBools
  strings : (e.stringVars.length : ℤ) = cfg.numStrings

/-- The indices of the next free slots are not negative. -/
structure NextSlots.Natural (next : NextSlots) : Prop where
  float : 0 ≤ next.float
  int : 0 ≤ next.int
  bool : 0 ≤ next.bool
  string : 0 ≤ next.string

section NextSlots

variable {next : NextSlots} (h : next.Natural)

include h

/-- The next slots stay natural after a float. -/
theorem NextSlots.Natural.afterFloat : NextSlots.Natural { next with float := next.float + 1 } :=
  ⟨Int.add_nonneg h.float (by omega), h.int, h.bool, h.string⟩

/-- The next slots stay natural after an int. -/
theorem NextSlots.Natural.afterInt : NextSlots.Natural { next with int := next.int + 1 } :=
  ⟨h.float, Int.add_nonneg h.int (by omega), h.bool, h.string⟩

/-- The next slots stay natural after a bool. -/
theorem NextSlots.Natural.afterBool : NextSlots.Natural { next with bool := next.bool + 1 } :=
  ⟨h.float, h.int, Int.add_nonneg h.bool (by omega), h.string⟩

/-- The next slots stay natural after a string. -/
theorem NextSlots.Natural.afterString : NextSlots.Natural { next with string := next.string + 1 } :=
  ⟨h.float, h.int, h.bool, Int.add_nonneg h.string (by omega)⟩

end NextSlots

section Events

variable {cfg : ScadaConfiguration}

/-- An event that is reset has its configured slots. -/
theorem ScadaEvent.reset_sized (h : cfg.Natural) : (ScadaEvent.reset cfg).Sized cfg := by
  have hfloats := h.numFloats
  have hints := h.numInts
  have hbools := h.numBools
  have hstrings := h.numStrings
  constructor <;> simp only [ScadaEvent.reset, List.length_replicate] <;> omega

/-- Filling the slots in keeps their number, wherever it starts. -/
theorem ScadaEvent.fillVariables_sized (h : cfg.Natural) (variableMap : VariableMap)
    (vars : SetpointList) {next : NextSlots} {eScada : ScadaEvent} (hnext : next.Natural)
    (hsized : eScada.Sized cfg) :
    (ScadaEvent.fillVariables cfg variableMap vars next eScada).Replies (·.1.Sized cfg) := by
  induction vars generalizing next eScada with
  | nil => exact replies_replied hsized
  | cons sp rest ih =>
    have hfloat := hnext.float
    have hint := hnext.int
    have hbool := hnext.bool
    have hstring := hnext.string
    rw [ScadaEvent.fillVariables]
    split
    · exact replies_replied hsized
    · exact replies_replied (ScadaEvent.reset_sized h)
    · split
      · split_ifs with hfree
        · have hfloats := hsized.floats
          rw [assign_replies hfloat (by omega)]
          refine ih hnext.afterFloat ⟨?_, hsized.ints, hsized.bools, hsized.strings⟩
          rw [List.length_set]
          exact hfloats
        · exact ih hnext hsized
      · split_ifs with hfree
        · have hints := hsized.ints
          rw [assign_replies hint (by omega)]
          refine ih hnext.afterInt ⟨hsized.floats, ?_, hsized.bools, hsized.strings⟩
          rw [List.length_set]
          exact hints
        · exact ih hnext hsized
      · split_ifs with hfree
        · have hbools := hsized.bools
          rw [assign_replies hbool (by omega)]
          refine ih hnext.afterBool ⟨hsized.floats, hsized.ints, ?_, hsized.strings⟩
          rw [List.length_set]
          exact hbools
        · exact ih hnext hsized
      · split_ifs with hfree
        · have hstrings := hsized.strings
          rw [assign_replies hstring (by omega)]
          refine ih hnext.afterString ⟨hsized.floats, hsized.ints, hsized.bools, ?_⟩
          rw [List.length_set]
          exact hstrings
        · exact ih hnext hsized
      · exact ih hnext hsized
      · exact replies_replied (ScadaEvent.reset_sized h)

/-- An event is filled without a panic and keeps its slots. -/
theorem ScadaEvent.fillWithData_sized (h : cfg.Natural) (modes : ModeMap) (e : Event)
    (site : String) : (ScadaEvent.fillWithData cfg modes e site).Replies (·.1.Sized cfg) := by
  have hreset := ScadaEvent.reset_sized h
  have hflat : (ScadaEvent.flatten cfg e site).Sized cfg :=
    ⟨hreset.floats, hreset.ints, hreset.bools, hreset.strings⟩
  rw [ScadaEvent.fillWithData]
  split
  · exact replies_replied hflat
  · exact ScadaEvent.fillVariables_sized h _ _ ⟨le_rfl, le_rfl, le_rfl, le_rfl⟩ hflat

/-- Slots of the configured number are built. -/
theorem buildVars_replies {α : Type} {name : String} {slots : List α} {num : ℤ}
    {value : α → GoValue} (h : (slots.length : ℤ) = num) :
    (buildVars name slots num value).Replies fun _ => True := by
  have hall : (buildVars name slots num value).Replies fun entries => ∀ entry ∈ entries, True := by
    refine replies_mapM' fun j hj => ?_
    have hlt : j < num.toNat := List.mem_range.mp hj
    exact (index_replies (by omega) (by omega)).bind fun a _ => replies_replied trivial
  exact hall.mono fun _ _ => trivial

/-- The entries of an event are built. -/
theorem ScadaEvent.Sized.buildEntries {st : ScadaState} {e : ScadaEvent}
    (h : e.Sized st.config) : (e.buildEntries st).Replies fun _ => True :=
  (buildVars_replies h.floats).bind fun _ _ =>
    (buildVars_replies h.ints).bind fun _ _ =>
      (buildVars_replies h.bools).bind fun _ _ =>
        (buildVars_replies h.strings).bind fun _ _ => replies_replied trivial

/-- The object of an event is built. -/
theorem ScadaEvent.Sized.buildObj {st : ScadaState} {e : ScadaEvent} (h : e.Sized st.config) :
    (e.buildObj st).Replies fun _ => True :=
  h.buildEntries.bind fun _ _ => replies_replied trivial

/-- The object of a slot is built. -/
theorem ScadaSlot.buildObj_replies (st : ScadaState) {slot : ScadaSlot}
    (h : slot.event.Sized st.config) : (slot.buildObj st).Replies fun _ => True :=
  h.buildEntries.bind fun _ _ => replies_replied trivial

end Events

/-! ## Allocated states -/

/-- The slots and the stage have the configured sizes. -/
structure ScadaState.Allocated (st : ScadaState) : Prop where
  natural : st.config.Natural
  slots_length : (st.slots.length : ℤ) = st.config.maxNumEvents
  slots_sized : ∀ slot ∈ st.slots, slot.event.Sized st.config
  stage_length : (st.stage.length : ℤ) = st.config.stageSize
  stage_sized : ∀ staged ∈ st.stage, staged.Sized st.config

section States

variable {st : ScadaState}

/-- An allocated state has the slots of its configuration. -/
theorem ScadaState.allocate_allocated (st : ScadaState) {newCfg : ScadaConfiguration}
    (h : newCfg.Natural) : (st.allocate newCfg).Allocated := by
  have hstage := h.stageSize
  have hevents := h.maxNumEvents
  constructor
  · exact h
  · simp only [ScadaState.allocate, List.length_replicate]
    omega
  · intro slot hslot
    rw [List.eq_of_mem_replicate hslot]
    exact ScadaEvent.reset_sized h
  · simp only [ScadaState.allocate, List.length_replicate]
    omega
  · intro staged hstaged
    rw [List.eq_of_mem_replicate hstaged]
    exact ScadaEvent.reset_sized h

/-- Filling slots in from one on keeps their number and sizes, as long as there are enough. -/
theorem fillFrom_sized (h : st.config.Natural) (listed : List (Event × String × SlotStatus))
    {eventIndex : ℕ} {slots : List ScadaSlot} (hfits : eventIndex + listed.length ≤ slots.length)
    (hsized : ∀ slot ∈ slots, slot.event.Sized st.config) :
    (fillFrom st listed eventIndex slots).Replies fun filled =>
      filled.length = slots.length ∧ ∀ slot ∈ filled, slot.event.Sized st.config := by
  induction listed generalizing eventIndex slots with
  | nil =>
    refine replies_replied ⟨by simp; omega, ?_⟩
    intro slot hslot
    rcases List.mem_append.mp hslot with htaken | hreset
    · exact hsized slot (List.mem_of_mem_take htaken)
    · obtain ⟨_, -, rfl⟩ := List.mem_map.mp hreset
      exact ScadaEvent.reset_sized h
  | cons entry rest ih =>
    rw [List.length_cons] at hfits
    rw [fillFrom]
    refine (ScadaEvent.fillWithData_sized h _ _ _).bind fun filled hfilled => ?_
    rw [assign_replies (by omega) (by omega), Handled.replied_bind, Int.toNat_natCast]
    have hset : ∀ slot ∈ slots.set eventIndex ⟨filled.1, entry.2.2⟩,
        slot.event.Sized st.config := by
      intro slot hslot
      rcases List.mem_or_eq_of_mem_set hslot with hold | rfl
      · exact hsized slot hold
      · exact hfilled
    have hlater : eventIndex + 1 + rest.length ≤
        (slots.set eventIndex ⟨filled.1, entry.2.2⟩).length := by
      rw [List.length_set]
      omega
    have hrest := ih hlater hset
    rw [List.length_set] at hrest
    exact hrest

section

variable (h : st.Allocated)
include h

/-- An update fills the slots and changes nothing else. -/
theorem ScadaState.Allocated.updateScadaRegs :
    st.updateScadaRegs.Replies fun st' => st'.Allocated ∧ ∃ slots, st' = { st with slots } := by
  have hlength := h.slots_length
  have hfits : 0 + (st.listed.take st.config.maxNumEvents.toNat).length ≤ st.slots.length := by
    rw [List.length_take]
    omega
  have hfill := fillFrom_sized h.natural _ hfits h.slots_sized
  refine hfill.bind fun slots hslots => ?_
  have hpublished : (slots.mapM' (ScadaSlot.buildObj { st with slots })).Replies fun _ => True :=
    (replies_mapM' fun slot hslot =>
      ScadaSlot.buildObj_replies { st with slots } (hslots.2 slot hslot)).mono
        fun _ _ => trivial
  refine hpublished.bind fun _ _ => replies_replied ⟨?_, slots, rfl⟩
  exact ⟨h.natural, by rw [hslots.1]; exact hlength, hslots.2, h.stage_length, h.stage_sized⟩

/-- An allocated state builds its slots. -/
theorem ScadaState.Allocated.buildSlots : st.buildSlots.Replies fun _ => True := by
  have hlength := h.slots_length
  have hall : ((List.range st.config.maxNumEvents.toNat).mapM' fun i : ℕ => do
      let slot ← index st.slots (i : ℤ)
      slot.buildObj st).Replies fun _ => True := by
    refine (replies_mapM' (P := fun _ => True) fun i hi => ?_).mono fun _ _ => trivial
    have hlt := List.mem_range.mp hi
    exact (index_replies (by omega) (by omega)).bind fun slot hslot =>
      ScadaSlot.buildObj_replies st (h.slots_sized slot hslot)
  exact hall.bind fun _ _ => replies_replied trivial

/-- An allocated state builds its stage. -/
theorem ScadaState.Allocated.buildScadaStage : st.buildScadaStage.Replies fun _ => True := by
  rw [ScadaState.buildScadaStage]
  split
  next eScada hstage =>
    have hsized := h.stage_sized eScada (by rw [hstage]; exact List.mem_cons_self)
    exact hsized.buildEntries.bind fun _ _ => replies_replied trivial
  · have hall : (st.stage.zipIdx.mapM' fun staged : ScadaEvent × ℕ => do
        return ("event_" ++ toString (staged.2 + 1), ← staged.1.buildObj st)).Replies
          fun _ => True := by
      refine (replies_mapM' (P := fun _ => True) fun staged hstaged => ?_).mono fun _ _ => trivial
      have hmem := List.fst_mem_of_mem_zipIdx hstaged
      exact (h.stage_sized _ hmem).buildObj.bind fun _ _ => replies_replied trivial
    exact hall.bind fun _ _ => replies_replied trivial

/-- An allocated state publishes its stage. -/
theorem ScadaState.Allocated.pubScadaStage : st.pubScadaStage.Replies fun _ => True := by
  refine h.buildScadaStage.bind fun _ _ => ?_
  split_ifs
  · exact replies_replied trivial
  · have hall : (st.stage.mapM' (ScadaEvent.buildObj st)).Replies fun _ => True :=
      (replies_mapM' fun staged hstaged => (h.stage_sized staged hstaged).buildObj).mono
        fun _ _ => trivial
    exact hall.bind fun _ _ => replies_replied trivial

/-- A stage of as many events of the configured sizes keeps the state allocated. -/
theorem ScadaState.Allocated.withStage (stage : List ScadaEvent)
    (hlength : stage.length = st.stage.length) (hsized : ∀ staged ∈ stage, staged.Sized st.config) :
    ({ st with stage } : ScadaState).Allocated :=
  ⟨h.natural, h.slots_length, h.slots_sized, by
    change (stage.length : ℤ) = st.config.stageSize
    rw [hlength]
    exact h.stage_length, hsized⟩

/-- What schedules, modes and enumerations there are does not matter. -/
theorem ScadaState.Allocated.withSurroundings (siteEnums modeEnums : List String) (modes : ModeMap)
    (masterSchedule : AList fun _ : String => Schedule) (hasLocalSchedule : Bool) :
    ({ st with siteEnums, modeEnums, modes, masterSchedule, hasLocalSchedule } :
      ScadaState).Allocated :=
  ⟨h.natural, h.slots_length, h.slots_sized, h.stage_length, h.stage_sized⟩

/-- A changed schedule leaves it allocated. -/
theorem ScadaState.Allocated.setSchedule (siteId : String) (sched : Schedule) :
    (st.setSchedule siteId sched).Allocated := h.withSurroundings _ _ _ _ _

/-- So do refreshed enumerations. -/
theorem ScadaState.Allocated.refreshSiteEnums : st.refreshSiteEnums.Allocated :=
  h.withSurroundings _ _ _ _ _

end

end States

/-!
## Indices of the register interface

The handlers check the numbers in addresses and values by themselves. A GET lets the number one
past the last slot of a type pass. A SET reads a fourth fragment that need not be there, takes
a negative number for a mode and commands edits in schedules that have no time zone yet. In
every run of the interface these are the only requests that panic.
-/

/-! ## Reading -/

/-- The number of slots of a type, by its name. -/
def ScadaConfiguration.slotsOf (cfg : ScadaConfiguration) (typeName : List Char) : Option ℤ :=
  if typeName = "float".toList then some cfg.numFloats
  else if typeName = "int".toList then some cfg.numInts
  else if typeName = "bool".toList then some cfg.numBools
  else if typeName = "string".toList then some cfg.numStrings
  else none

/-- The field is the slot after the last one of its type. -/
def ScadaConfiguration.PastSlots (cfg : ScadaConfiguration) (endpoint : String) : Prop :=
  ∃ typeName numberText num, GoText.split ['_'] endpoint.toList = [typeName, numberText] ∧
    cfg.slotsOf typeName = some num ∧ atoi numberText = some (num + 1)

/-- The field of an event that exists which a GET reads. -/
def ScadaState.readField (st : ScadaState) (frags : List String) : Option String :=
  match frags with
  | _ :: _ :: "read" :: eventFrag :: field :: _ =>
    if (parseEventIndex eventFrag).any fun i : ℤ => 0 ≤ i ∧ i < st.slots.length then some field
    else none
  | _ :: _ :: "write" :: frag :: rest =>
    if frag = "command" then none
    else if st.stage.length = 1 then some frag
    else if (parseEventIndex frag).any fun i : ℤ => 0 ≤ i ∧ i < st.stage.length then rest.head?
    else none
  | _ => none

/-- The field that a GET reads is not the one after the last slot of a type. -/
def ScadaState.GetFits (st : ScadaState) (frags : List String) : Prop :=
  ∀ field, st.readField frags = some field → ¬ st.config.PastSlots field

section Reading

variable {st : ScadaState}

/-- A read panics exactly one past the slots. -/
theorem readVar_panicked_iff {α : Type} {slots : List α} {i num : ℤ} {value : α → GoValue}
    (hlength : (slots.length : ℤ) = num) (hlow : 0 ≤ i) :
    readVar slots i value = .panicked ↔ i = num := by
  rw [readVar]
  split_ifs with hpast
  · constructor
    · intro h
      cases h
    · omega
  · constructor
    · intro h
      by_contra hne
      have hreplies : (index slots i).Replies (· ∈ slots) := index_replies hlow (by omega)
      exact (hreplies.bind (Q := fun _ => True) fun a _ => replies_replied trivial).ne_panicked h
    · intro heq
      rw [index_panicked (.inr (by omega)), Handled.panicked_bind]

variable {cfg : ScadaConfiguration}

/-- No type has a negative number of slots. -/
theorem ScadaConfiguration.Natural.slotsOf_nonneg (h : cfg.Natural) {typeName : List Char} {num : ℤ}
    (hslots : cfg.slotsOf typeName = some num) : 0 ≤ num := by
  have hfloats := h.numFloats
  have hints := h.numInts
  have hbools := h.numBools
  have hstrings := h.numStrings
  rw [ScadaConfiguration.slotsOf] at hslots
  split_ifs at hslots <;> cases hslots <;> assumption

/-- The GET of a slot panics one past the last slot of a type. -/
theorem ScadaEvent.Sized.handleGetVar_panicked_iff (hnat : cfg.Natural) {e : ScadaEvent}
    (h : e.Sized cfg) (endpoint : String) :
    e.handleGetVar endpoint = .panicked ↔ cfg.PastSlots endpoint := by
  rw [ScadaEvent.handleGetVar, ScadaConfiguration.PastSlots]
  split
  next typeName idText hsplit =>
    split
    next hnone =>
      constructor
      · intro hpanic
        cases hpanic
      · rintro ⟨_, _, _, heq, -, hid⟩
        rw [hsplit] at heq
        cases heq
        rw [hnone] at hid
        cases hid
    next id hid =>
      have hpast : (∃ typeName' numberText num, [typeName, idText] = [typeName', numberText] ∧
          cfg.slotsOf typeName' = some num ∧ atoi numberText = some (num + 1)) ↔
          cfg.slotsOf typeName = some (id - 1) := by
        constructor
        · rintro ⟨_, _, num, heq, hslots, hnumber⟩
          cases heq
          rw [hid, Option.some.injEq] at hnumber
          rw [hslots, hnumber, Int.add_sub_cancel]
        · intro hslots
          refine ⟨typeName, idText, id - 1, rfl, hslots, ?_⟩
          rw [hid, Int.sub_add_cancel]
      rw [hsplit, hpast]
      split_ifs with hlow hfloat hint hbool hstring
      · constructor
        · intro hpanic
          cases hpanic
        · intro hslots
          have hnum := hnat.slotsOf_nonneg hslots
          omega
      · rw [readVar_panicked_iff h.floats (by omega), ScadaConfiguration.slotsOf, if_pos hfloat,
          Option.some.injEq, eq_comm]
      · rw [readVar_panicked_iff h.ints (by omega), ScadaConfiguration.slotsOf, if_neg hfloat,
          if_pos hint, Option.some.injEq, eq_comm]
      · rw [readVar_panicked_iff h.bools (by omega), ScadaConfiguration.slotsOf, if_neg hfloat,
          if_neg hint, if_pos hbool, Option.some.injEq, eq_comm]
      · rw [readVar_panicked_iff h.strings (by omega), ScadaConfiguration.slotsOf, if_neg hfloat,
          if_neg hint, if_neg hbool, if_pos hstring, Option.some.injEq, eq_comm]
      · rw [ScadaConfiguration.slotsOf, if_neg hfloat, if_neg hint, if_neg hbool, if_neg hstring]
        simp
  next hother =>
    constructor
    · intro hpanic
      cases hpanic
    · rintro ⟨typeName, idText, _, heq, -, -⟩
      exact absurd heq (hother typeName idText)

/-- A name that is not made of two parts is not one of a slot. -/
theorem not_pastSlots {endpoint : String} (h : (GoText.split ['_'] endpoint.toList).length ≠ 2) :
    ¬ cfg.PastSlots endpoint := by
  rintro ⟨typeName, numberText, num, hsplit, -, -⟩
  rw [hsplit] at h
  simp at h

/-- The repeat flag is no variable slot. -/
theorem not_pastSlots_repeatDaily : ¬ cfg.PastSlots "repeat_daily" := by
  have hsplit : GoText.split ['_'] "repeat_daily".toList = ["repeat".toList, "daily".toList] := by
    decide
  rintro ⟨typeName, numberText, num, heq, hslots, -⟩
  rw [hsplit] at heq
  cases heq
  have hnone : cfg.slotsOf "repeat".toList = none := rfl
  rw [hnone] at hslots
  cases hslots

/-- An enumeration is looked up without a panic. -/
theorem replyEnum_ne_panicked (enums : List String) (id : String) :
    replyEnum enums id ≠ .panicked := by
  rw [replyEnum]
  split <;> simp

/-- The GET of a field of an event panics at the slot after the last one of a type. -/
theorem ScadaEvent.Sized.handleGet_panicked_iff (hnat : st.config.Natural) {e : ScadaEvent}
    (h : e.Sized st.config) (endpoint : String) :
    e.handleGet st endpoint = .panicked ↔ st.config.PastSlots endpoint := by
  unfold ScadaEvent.handleGet
  split
  · have hnot : ¬ st.config.PastSlots "site" := not_pastSlots (by decide)
    split
    · simp [hnot]
    · simp [hnot, replyEnum_ne_panicked]
  · have hnot : ¬ st.config.PastSlots "mode" := not_pastSlots (by decide)
    split_ifs
    · simp [hnot]
    · simp [hnot, replyEnum_ne_panicked]
  · have hnot : ¬ st.config.PastSlots "year" := not_pastSlots (by decide)
    simp [hnot]
  · have hnot : ¬ st.config.PastSlots "month" := not_pastSlots (by decide)
    simp [hnot]
  · have hnot : ¬ st.config.PastSlots "day" := not_pastSlots (by decide)
    simp [hnot]
  · have hnot : ¬ st.config.PastSlots "hour" := not_pastSlots (by decide)
    simp [hnot]
  · have hnot : ¬ st.config.PastSlots "minute" := not_pastSlots (by decide)
    simp [hnot]
  · have hnot : ¬ st.config.PastSlots "duration" := not_pastSlots (by decide)
    simp [hnot]
  · simp [not_pastSlots_repeatDaily]
  · exact h.handleGetVar_panicked_iff hnat endpoint

/-- A GET of a slot panics exactly past its slots. -/
theorem ScadaSlot.handleGet_panicked_iff (hnat : st.config.Natural) {slot : ScadaSlot}
    (h : slot.event.Sized st.config) (endpoint : String) :
    slot.handleGet st endpoint = .panicked ↔ st.config.PastSlots endpoint := by
  rw [ScadaSlot.handleGet]
  split_ifs with hstatus
  · have hnot : ¬ st.config.PastSlots "status" := not_pastSlots (by decide)
    simp [hstatus, hnot]
  · exact h.handleGet_panicked_iff hnat endpoint

/-- A GET to a numbered event panics where the GET of its field does. -/
theorem numbered_panicked_iff {α : Type} {events : List α} {buildObj : α → Handled GoValue}
    {handleGet : α → String → Handled GoValue} {Past : String → Prop} (a b area frag : String)
    (rest : List String) (hbuild : ∀ e ∈ events, buildObj e ≠ .panicked)
    (hget : ∀ e ∈ events, ∀ field, handleGet e field = .panicked ↔ Past field) :
    (match parseEventIndex frag with
      | none => .failed .invalidUri
      | some eventIndex =>
        if eventIndex < 0 then .failed .invalidUri
        else if events.length ≤ eventIndex then .failed .invalidUri
        else do
          let eScada ← index events eventIndex
          if (a :: b :: area :: frag :: rest).length = 4 then buildObj eScada
          else handleGet eScada (← index (a :: b :: area :: frag :: rest) 4) : Handled GoValue) =
        .panicked ↔
      ∃ field, (if (parseEventIndex frag).any fun i : ℤ => 0 ≤ i ∧ i < events.length
        then rest.head? else none) = some field ∧ Past field := by
  split
  next hnone => simp [hnone]
  next eventIndex hparse =>
    by_cases hneg : eventIndex < 0
    · have hnot : ¬ 0 ≤ eventIndex := by omega
      rw [if_pos hneg]
      simp [hparse, hnot]
    by_cases hpast : (events.length : ℤ) ≤ eventIndex
    · have hnot : ¬ eventIndex < events.length := by omega
      rw [if_neg hneg, if_pos hpast]
      simp [hparse, hnot]
    · have hlow : 0 ≤ eventIndex := by omega
      have hhigh : eventIndex < events.length := by omega
      obtain ⟨eScada, hindex, hmem⟩ := index_replies hlow hhigh
      rw [if_neg hneg, if_neg hpast, hindex, Handled.replied_bind]
      cases rest with
      | nil =>
        have hlength : [a, b, area, frag].length = 4 := rfl
        rw [if_pos hlength]
        simp [hbuild eScada hmem]
      | cons field rest =>
        have hlength : ¬ (a :: b :: area :: frag :: field :: rest).length = 4 := by simp
        have hfield : index (a :: b :: area :: frag :: field :: rest) 4 = .replied field := rfl
        rw [if_neg hlength, hfield, Handled.replied_bind, hget eScada hmem]
        simp [hparse, hlow, hhigh]

/-- A GET to the slots panics where it reads past the slots of an event. -/
theorem ScadaState.Allocated.handleScadaReadGet_panicked_iff (h : st.Allocated) (a b : String)
    (rest : List String) :
    st.handleScadaReadGet (a :: b :: "read" :: rest) = .panicked ↔
      ∃ field, st.readField (a :: b :: "read" :: rest) = some field ∧
        st.config.PastSlots field := by
  cases rest with
  | nil =>
    have hreplies := h.buildSlots
    simp [ScadaState.handleScadaReadGet, ScadaState.readField, hreplies.ne_panicked]
  | cons eventFrag rest =>
    have hlong : ¬ (a :: b :: "read" :: eventFrag :: rest).length < 4 := by simp
    have hfrag : index (a :: b :: "read" :: eventFrag :: rest) 3 = .replied eventFrag := rfl
    rw [ScadaState.handleScadaReadGet, if_neg hlong, hfrag, Handled.replied_bind]
    refine (numbered_panicked_iff a b "read" eventFrag rest
      (fun slot hslot => (ScadaSlot.buildObj_replies st (h.slots_sized slot hslot)).ne_panicked)
      fun slot hslot => ScadaSlot.handleGet_panicked_iff h.natural (h.slots_sized slot hslot)).trans ?_
    cases rest <;> simp [ScadaState.readField]

/-- A GET to the stage panics where it reads past the slots of an event. -/
theorem ScadaState.Allocated.handleScadaWriteGet_panicked_iff (h : st.Allocated) (a b : String)
    (rest : List String) :
    st.handleScadaWriteGet (a :: b :: "write" :: rest) = .panicked ↔
      ∃ field, st.readField (a :: b :: "write" :: rest) = some field ∧
        st.config.PastSlots field := by
  cases rest with
  | nil =>
    have hlength : [a, b, "write"].length = 3 := rfl
    have hreplies := h.buildScadaStage
    rw [ScadaState.handleScadaWriteGet, if_pos hlength]
    simp [ScadaState.readField, hreplies.ne_panicked]
  | cons frag rest =>
    have hlong : ¬ (a :: b :: "write" :: frag :: rest).length = 3 := by simp
    have hfrag : index (a :: b :: "write" :: frag :: rest) 3 = .replied frag := rfl
    rw [ScadaState.handleScadaWriteGet, if_neg hlong, hfrag, Handled.replied_bind]
    by_cases hcommand : frag = "command"
    · rw [if_pos hcommand]
      simp [ScadaState.readField, hcommand]
    rw [if_neg hcommand]
    by_cases hsingle : st.stage.length = 1
    · obtain ⟨staged, hstaged, hmem⟩ : (index st.stage 0).Replies (· ∈ st.stage) :=
        index_replies le_rfl (by omega)
      rw [if_pos hsingle, hstaged, Handled.replied_bind,
        (h.stage_sized staged hmem).handleGet_panicked_iff h.natural]
      simp [ScadaState.readField, hcommand, hsingle]
    rw [if_neg hsingle, ScadaState.readField, if_neg hcommand, if_neg hsingle]
    exact numbered_panicked_iff a b "write" frag rest
      (fun staged hmem => (h.stage_sized staged hmem).buildObj.ne_panicked)
      fun staged hmem => (h.stage_sized staged hmem).handleGet_panicked_iff h.natural

/-- A GET panics where it reads past the slots of an event, and nowhere else. -/
theorem ScadaState.Allocated.handleScadaGet_ne_panicked_iff (h : st.Allocated)
    (frags : List String) : st.handleScadaGet frags ≠ .panicked ↔ st.GetFits frags := by
  have hfits : st.GetFits frags ↔
      ¬ ∃ field, st.readField frags = some field ∧ st.config.PastSlots field := by
    simp [ScadaState.GetFits]
  rw [hfits, not_iff_not]
  have hwhole : st.buildScadaObject ≠ .panicked :=
    (h.buildSlots.bind fun slots _ => h.buildScadaStage.bind fun stage _ =>
      replies_replied (P := fun _ => True) trivial).ne_panicked
  rcases frags with _ | ⟨a, _ | ⟨b, _ | ⟨area, rest⟩⟩⟩
  · simp [ScadaState.handleScadaGet, ScadaState.readField, hwhole]
  · simp [ScadaState.handleScadaGet, ScadaState.readField, hwhole]
  · simp [ScadaState.handleScadaGet, ScadaState.readField, hwhole]
  · have hlong : ¬ (a :: b :: area :: rest).length < 3 := by simp
    have harea : index (a :: b :: area :: rest) 2 = .replied area := rfl
    rw [ScadaState.handleScadaGet, if_neg hlong, harea, Handled.replied_bind]
    split_ifs with hread hwrite
    · rw [hread]
      exact h.handleScadaReadGet_panicked_iff a b rest
    · rw [hwrite]
      exact h.handleScadaWriteGet_panicked_iff a b rest
    · have hnone : st.readField (a :: b :: area :: rest) = none := by
        unfold ScadaState.readField
        split <;> simp_all
      simp [hnone]

end Reading

/-! ## Writing registers -/

/-- The index of the staged event that a fragment names. -/
def stagedIndex (eventFrag : String) : Option ℤ :=
  match GoText.split ['_'] eventFrag.toList with
  | [_, numberText] => atoi numberText
  | _ => none

/-- The register of a staged event that exists which a SET writes. -/
def ScadaState.writtenVar (st : ScadaState) (frags : List String) : Option String :=
  match frags with
  | [_, _, _, varId] => if st.stage.length < 1 then none else some varId
  | [_, _, _, eventFrag, varId] =>
    if st.stage.length = 1 then none
    else if (stagedIndex eventFrag).any fun i : ℤ => 0 ≤ i ∧ i < st.stage.length then some varId
    else none
  | _ => none

/-- The value is a negative number. -/
def NegativeNumber (body : GoValue) : Prop := ∃ n, (unwrapVariable body).castToInt = some n ∧ n < 0

section Writing

variable {st : ScadaState} {setpointNumber : ℤ} {cfg : ScadaConfiguration}
  {eScada eScada' : ScadaEvent}

/-- A write from the first slot on does not panic. -/
theorem writeVar_ne_panicked {α : Type} {slots : List α} {num : ℤ}
    (hlength : (slots.length : ℤ) = num) (hlow : 1 ≤ setpointNumber) (value : Option α) :
    writeVar slots num setpointNumber value ≠ .panicked := by
  unfold writeVar
  split_ifs with hpast
  · simp
  · split
    · simp
    · rw [assign_replies (by omega) (by omega)]
      simp

/-- A write keeps the number of slots. -/
theorem writeVar_length {α : Type} {slots slots' : List α} {num : ℤ} {value : Option α}
    (h : writeVar slots num setpointNumber value = .replied slots') :
    slots'.length = slots.length := by
  unfold writeVar at h
  split_ifs at h
  split at h
  · cases h
  · rw [assign] at h
    split_ifs at h
    cases h
    rw [List.length_set]

/-- Steps that do not panic do not together. -/
theorem Handled.bind_ne_panicked {α β : Type} {h : Handled α} {f : α → Handled β}
    (hfirst : h ≠ .panicked) (hnext : ∀ a, f a ≠ .panicked) : (h >>= f) ≠ .panicked := by
  cases h with
  | replied a => exact hnext a
  | failed err => simp
  | panicked => exact absurd rfl hfirst

/-- Where two steps reply, both do. -/
theorem Handled.of_bind_replied {α β : Type} {h : Handled α} {f : α → Handled β} {b : β}
    (hbind : (h >>= f) = .replied b) : ∃ a, h = .replied a ∧ f a = .replied b := by
  cases h with
  | replied a => exact ⟨a, rfl, hbind⟩
  | failed err | panicked => cases hbind

/-- A slot of a number that is checked against the configuration is there. -/
theorem ScadaEvent.Sized.setVar_ne_panicked (h : eScada.Sized cfg) (hlow : 1 ≤ setpointNumber)
    (typeName : List Char) (value : GoValue) :
    eScada.setVar cfg typeName setpointNumber value ≠ .panicked := by
  rw [ScadaEvent.setVar]
  split_ifs
  · exact Handled.bind_ne_panicked (writeVar_ne_panicked h.floats hlow _) fun _ => by simp
  · exact Handled.bind_ne_panicked (writeVar_ne_panicked h.ints hlow _) fun _ => by simp
  · exact Handled.bind_ne_panicked (writeVar_ne_panicked h.bools hlow _) fun _ => by simp
  · exact Handled.bind_ne_panicked (writeVar_ne_panicked h.strings hlow _) fun _ => by simp
  · simp

/-- Setting a variable keeps the slots. -/
theorem ScadaEvent.Sized.setVar (h : eScada.Sized cfg) {typeName : List Char}
    {value reply : GoValue}
    (hset : eScada.setVar cfg typeName setpointNumber value = .replied (eScada', reply)) :
    eScada'.Sized cfg := by
  rw [ScadaEvent.setVar] at hset
  split_ifs at hset
  all_goals
    obtain ⟨slots, hwrite, heq⟩ := Handled.of_bind_replied hset
    have hlength := writeVar_length hwrite
    cases heq
  · exact ⟨by rw [hlength]; exact h.floats, h.ints, h.bools, h.strings⟩
  · exact ⟨h.floats, by rw [hlength]; exact h.ints, h.bools, h.strings⟩
  · exact ⟨h.floats, h.ints, by rw [hlength]; exact h.bools, h.strings⟩
  · exact ⟨h.floats, h.ints, h.bools, by rw [hlength]; exact h.strings⟩

/-- Only the register of the mode takes a negative number as an index. -/
theorem ScadaEvent.setRegister_panicked_iff (st : ScadaState) (eScada : ScadaEvent)
    (varId : String) (value : ℤ) :
    eScada.setRegister st varId value = .panicked ↔ varId = "mode" ∧ value < 0 := by
  unfold ScadaEvent.setRegister
  split
  · split_ifs with hbounds hnone
    · simp
    · simp
    · obtain ⟨scheduleId, hindex, -⟩ : (index st.siteEnums value).Replies (· ∈ st.siteEnums) :=
        index_replies (by omega) (by omega)
      rw [hindex, Handled.replied_bind]
      split_ifs <;> simp
  · simp
  · simp
  · simp
  · simp
  · simp
  · simp
  · split_ifs with hhigh
    · by_cases hneg : value < 0
      · rw [index_panicked (.inl hneg), Handled.panicked_bind]
        simp [hneg]
      · obtain ⟨modeId, hindex, -⟩ : (index st.modeEnums value).Replies (· ∈ st.modeEnums) :=
          index_replies (by omega) hhigh
        rw [hindex, Handled.replied_bind]
        simp [hneg]
    · have hlow : ¬ value < 0 := by omega
      simp [hlow]
  next hmode =>
    constructor
    · intro h
      cases h
    · intro h
      exact absurd h.1 hmode

/-- Setting a register keeps the slots. -/
theorem ScadaEvent.Sized.setRegister (h : eScada.Sized cfg) {varId : String} {value : ℤ}
    (hset : eScada.setRegister st varId value = .replied eScada') : eScada'.Sized cfg := by
  unfold ScadaEvent.setRegister at hset
  split at hset
  · split_ifs at hset
    · cases hset
      exact ⟨h.floats, h.ints, h.bools, h.strings⟩
    · obtain ⟨scheduleId, -, heq⟩ := Handled.of_bind_replied hset
      split_ifs at heq
      cases heq
      exact ⟨h.floats, h.ints, h.bools, h.strings⟩
  all_goals try
    cases hset
    exact ⟨h.floats, h.ints, h.bools, h.strings⟩
  split_ifs at hset
  obtain ⟨modeId, -, heq⟩ := Handled.of_bind_replied hset
  cases heq
  exact ⟨h.floats, h.ints, h.bools, h.strings⟩

/-- A SET of a register of a staged event panics for a negative number of a mode. -/
theorem ScadaEvent.Sized.setVariable_panicked_iff (h : eScada.Sized st.config) (varId : String)
    (body : GoValue) :
    eScada.setVariable st varId body = .panicked ↔ varId = "mode" ∧ NegativeNumber body := by
  have hmode : GoText.split ['_'] "mode".toList = ["mode".toList] := by decide
  rw [ScadaEvent.setVariable]
  split_ifs with hdaily
  · have hnot : varId ≠ "mode" := by
      rw [hdaily]
      decide
    split <;> simp [hnot]
  · split
    next typeName numberText hsplit =>
      have hnot : varId ≠ "mode" := by
        rintro rfl
        rw [hmode] at hsplit
        simp at hsplit
      split
      · simp [hnot]
      next setpointNumber _ =>
        split_ifs with hlow
        · simp [hnot]
        · have hone : 1 ≤ setpointNumber := by omega
          simp [hnot, h.setVar_ne_panicked hone]
    · split
      next hnone => simp [NegativeNumber, hnone]
      next n hn =>
        have hcast : NegativeNumber body ↔ n < 0 := by
          simp [NegativeNumber, hn]
        rw [hcast, ← ScadaEvent.setRegister_panicked_iff st eScada]
        constructor
        · intro hpanic
          by_contra hset
          exact Handled.bind_ne_panicked hset (fun _ => by simp) hpanic
        · intro hset
          rw [hset, Handled.panicked_bind]

/-- Every SET of a field keeps the slots. -/
theorem ScadaEvent.Sized.setVariable (h : eScada.Sized cfg) (hcfg : st.config = cfg)
    {varId : String} {body reply : GoValue}
    (hset : eScada.setVariable st varId body = .replied (eScada', reply)) : eScada'.Sized cfg := by
  rw [ScadaEvent.setVariable] at hset
  split_ifs at hset
  · split at hset
    · cases hset
    · cases hset
      exact ⟨h.floats, h.ints, h.bools, h.strings⟩
  · split at hset
    · split at hset
      · cases hset
      · split_ifs at hset
        rw [hcfg] at hset
        exact h.setVar hset
    · split at hset
      · cases hset
      · obtain ⟨written, hwritten, heq⟩ := Handled.of_bind_replied hset
        cases heq
        exact h.setRegister hwritten

/-- A SET of a register keeps the state allocated. -/
theorem ScadaState.Allocated.setStaged (h : st.Allocated) (eventIndex : ℤ) (varId : String)
    (body : GoValue) : (st.setStaged eventIndex varId body).1.Allocated := by
  rw [ScadaState.setStaged]
  split
  next staged hindex =>
    split
    next staged' replyObj hset =>
      have hmem : staged ∈ st.stage := by
        rw [index] at hindex
        split_ifs at hindex
        split at hindex
        next hget =>
          cases hindex
          exact List.mem_of_getElem? hget
        · cases hindex
      refine h.withStage _ (List.length_set ..) fun other hother => ?_
      rcases List.mem_or_eq_of_mem_set hother with hold | rfl
      · exact h.stage_sized other hold
      · exact (h.stage_sized staged hmem).setVariable rfl hset
    · exact h
    · exact h
  · exact h

/-- A SET on the stage panics exactly for a mode below zero. -/
theorem ScadaState.Allocated.setStaged_panicked_iff (h : st.Allocated) {eventIndex : ℤ}
    (hlow : 0 ≤ eventIndex) (hhigh : eventIndex < st.stage.length) (varId : String)
    (body : GoValue) : (st.setStaged eventIndex varId body).2 = .panicked ↔
      varId = "mode" ∧ NegativeNumber body := by
  obtain ⟨staged, hindex, hmem⟩ := index_replies hlow hhigh
  rw [ScadaState.setStaged, hindex,
    ← (h.stage_sized staged hmem).setVariable_panicked_iff varId body]
  dsimp only
  split
  next hset => simp [hset]
  next hset => simp [hset]
  next hset => simp [hset]

/-- A SET to the stage keeps the state allocated. -/
theorem ScadaState.Allocated.editStage (h : st.Allocated) (msg : ScadaMsg) (frag : String) :
    (st.editStage msg frag).1.Allocated := by
  unfold ScadaState.editStage
  split_ifs
  · exact h
  · split
    · split
      · exact h
      · split_ifs
        · exact h
        · exact h
        · split
          · exact h.setStaged _ _ _
          · exact h
    · exact h
  · exact h
  · exact h
  · exact h.setStaged _ _ _

/-- A SET to the stage panics where it writes a negative number to the mode of an event. -/
theorem ScadaState.Allocated.editStage_panicked_iff (h : st.Allocated) {msg : ScadaMsg}
    {a b c frag : String} {rest : List String} (hfrags : msg.frags = a :: b :: c :: frag :: rest) :
    (st.editStage msg frag).2 = .panicked ↔
      st.writtenVar msg.frags = some "mode" ∧ NegativeNumber msg.body := by
  unfold ScadaState.editStage
  rw [hfrags]
  rcases rest with _ | ⟨varId, _ | ⟨further, rest⟩⟩
  · have hlength : ¬ [a, b, c, frag].length = 5 := by simp
    have hfour : ¬ [a, b, c, frag].length ≠ 4 := by simp
    rw [if_neg hlength, if_neg hfour]
    split_ifs with hempty
    · have hnil : st.stage = [] := List.length_eq_zero_iff.mp (by omega)
      simp [ScadaState.writtenVar, hnil]
    · have hlow : (0 : ℤ) < st.stage.length := by omega
      have hnonempty : st.stage ≠ [] := by
        rintro hnil
        simp [hnil] at hempty
      rw [h.setStaged_panicked_iff le_rfl hlow]
      simp [ScadaState.writtenVar, hnonempty]
  · have hlength : [a, b, c, frag, varId].length = 5 := rfl
    rw [if_pos hlength]
    split_ifs with hsingle
    · simp [ScadaState.writtenVar, hsingle]
    · split
      next name numberText hsplit =>
        have hindex : stagedIndex frag = atoi numberText := by
          unfold stagedIndex
          rw [hsplit]
        split
        next hnone => simp [ScadaState.writtenVar, hsingle, hindex, hnone]
        next eventIndex hnumber =>
          split_ifs with hneg hpast
          · have hnot : ¬ 0 ≤ eventIndex := by omega
            simp [ScadaState.writtenVar, hsingle, hindex, hnumber, hnot]
          · have hnot : ¬ eventIndex < st.stage.length := by omega
            simp [ScadaState.writtenVar, hsingle, hindex, hnumber, hnot]
          · have hlow : 0 ≤ eventIndex := by omega
            have hhigh : eventIndex < st.stage.length := by omega
            have hvar : index [a, b, c, frag, varId] 4 = .replied varId := rfl
            rw [hvar]
            dsimp only
            rw [h.setStaged_panicked_iff hlow hhigh]
            simp [ScadaState.writtenVar, hsingle, hindex, hnumber, hlow, hhigh]
      next hother =>
        have hnone : stagedIndex frag = none := by
          unfold stagedIndex
          split
          next hsplit => exact absurd hsplit (hother _ _)
          · rfl
        simp [ScadaState.writtenVar, hsingle, hnone]
  · have hlength : ¬ (a :: b :: c :: frag :: varId :: further :: rest).length = 5 := by simp
    have hfour : (a :: b :: c :: frag :: varId :: further :: rest).length ≠ 4 := by simp
    rw [if_neg hlength, if_pos hfour]
    simp [ScadaState.writtenVar]

/-- The publication of an allocated stage changes nothing. -/
theorem publishStage_eq {edited : ScadaState × Handled GoValue} (h : edited.1.Allocated) :
    publishStage edited = edited := by
  unfold publishStage
  obtain ⟨_, heq, -⟩ := h.pubScadaStage
  rw [heq]

end Writing

end HybridOs.Scheduler
