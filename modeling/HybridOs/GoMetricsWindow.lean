import HybridOs.GoMetricsFunctions

/-!
# Functions of metrics over a window of time

The functions keep the values of the last milliseconds in two arrays of the state that a
metric has. The array of times and the array of values begin with as many places as the
window has milliseconds; older points are cut off at the front, and an index says where the
next point goes. A call that reads or writes outside of an array does not return.
-/

namespace HybridOs.GoMetrics

variable {F : Type}

/-- The state of a metric, a map from names to lists of values. -/
abbrev State (F : Type) := String → Option (List (Union F))

/-- A pointer to a state: there may be no pointer, and it may lead to a nil map. -/
abbrev StateRef (F : Type) := Option (Option (State F))

/-- What a function with a state returns. -/
abbrev Stateful (F : Type) := Option (Returned (Union F) × StateRef F)

namespace State

/-- An empty map. -/
def empty : State F := fun _ => none

/-- `(*state)[key]`. -/
def entry (state : State F) (key : String) : List (Union F) := (state key).getD []

/-- `(*state)[key] = list`. -/
def put (state : State F) (key : String) (list : List (Union F)) : State F :=
  Function.update state key (some list)

/-- `(*state)[key][0].ui`. -/
def firstUi (state : State F) (key : String) : Option UInt64 :=
  (state.entry key).head?.map (·.ui)

/-- `(*state)[key][0].ui = ui`. -/
def setFirstUi (state : State F) (key : String) (ui : UInt64) : Option (State F) :=
  match state.entry key with
  | [] => none
  | first :: rest => some (state.put key ({ first with ui := ui } :: rest))

/-- An edit of `(*state)[key][index]`. -/
def editAt (state : State F) (key : String) (index : ℕ) (edit : Union F → Union F) :
    Option (State F) :=
  if index < (state.entry key).length then
    some (state.put key ((state.entry key).modify index edit))
  else none

end State

/-! ## The points of a window -/

variable [Float64 F]

/-- The arrays of a window where there are none yet. -/
def prepareWindow (indexKey : Option String) (timescale : Int64) (state : Option (State F)) :
    Option (State F) :=
  let state := state.getD .empty
  if state.entry "timestamps" = [] then
    if timescale < 0 then none
    else
      let space := List.replicate timescale.toInt.toNat Union.nil
      let state := ((state.put "timestamps" space).put "values" space).put "currentIndex"
        [Union.uint 0]
      some (indexKey.elim state fun key => state.put key [Union.uint 0])
  else some state

/-- Whether a point is older than the window. -/
def isOlder (currentTime timescale : Int64) (timestamp : Union F) : Bool :=
  timestamp.i != 0 && timestamp.i < currentTime - timescale

/-- `indexToTruncate + 1`: how many of the first points are older than the window. -/
def olderPoints (currentTime timescale : Int64) (timestamps : List (Union F)) : ℕ :=
  (timestamps.takeWhile (isOlder currentTime timescale)).length

/-- The removal of older points among the first `index + ahead`: how many there are, and the
state after it. -/
def removeOlder (ahead : ℕ) (currentTime timescale : Int64) (index : UInt64) (state : State F) :
    Option (ℕ × State F) :=
  let timestamps := state.entry "timestamps"
  let values := state.entry "values"
  if index.toNat + ahead ≤ timestamps.length then
    let older := olderPoints currentTime timescale (timestamps.take (index.toNat + ahead))
    if older ≤ values.length then
      some (older,
        (state.put "timestamps" (timestamps.drop older)).put "values" (values.drop older))
    else none
  else none

/-- The index after the removal of older points. -/
def moveIndex (index : UInt64) (older : ℕ) (state : State F) : Option (State F) :=
  if 0 < older then
    state.setFirstUi "currentIndex" (UInt64.ofInt ((index.toNat : ℤ) - older))
  else some state

/-- The addition of the current point. -/
def addPoint (currentTime : Int64) (input : Union F) (index : UInt64) (state : State F) :
    Option (State F) := do
  let state ← state.editAt "timestamps" index.toNat fun timestamp =>
    { timestamp with tag := .INT, i := currentTime }
  state.editAt "values" index.toNat fun _ => input

/-- The step of the index, with the test whether the arrays must grow. -/
def countPoint (state : State F) : Option (State F) := do
  let index ← state.firstUi "currentIndex"
  let state ← state.setFirstUi "currentIndex" (index + 1)
  if (index + 1).toNat > (state.entry "timestamps").length then
    let state := state.put "timestamps" (state.entry "timestamps" ++ [.nil])
    some (state.put "values" (state.entry "values" ++ [.nil]))
  else some state

/-! ## Averages, sums and changes -/

variable [Library F]

/-- What the functions over a window that compute from all its points differ in. -/
structure Aggregate (F : Type) where
  name : String
  /-- Why a type of input is rejected. -/
  rejects : DataType → Option String
  /-- What is returned for the values, the index of the current one, and the current one. -/
  compute : List (Union F) → ℕ → Union F → Returned (Union F)

/-- The work of a function on the points of its state. -/
def Aggregate.step (function : Aggregate F) (input : Union F) (timescale currentTime : Int64)
    (state : Option (State F)) : Option (Returned (Union F) × State F) := do
  let state ← prepareWindow none timescale state
  let index ← state.firstUi "currentIndex"
  let (older, state) ← removeOlder 1 currentTime timescale index state
  let state ← moveIndex index older state
  let index ← state.firstUi "currentIndex"
  let state ← addPoint currentTime input index state
  let returned := function.compute (state.entry "values") index.toNat input
  let state ← countPoint state
  return (returned, state)

/-- The functions over a window that compute from all its points. -/
def Aggregate.call (function : Aggregate F) (input timescale : Union F) (currentTime : Int64)
    (state : StateRef F) : Stateful F :=
  match function.rejects input.tag with
  | some text => some (failWith .nil text, state)
  | none =>
    match castUnionType timescale .INT with
    | .error err => some ((.nil, some err), state)
    | .ok timescale =>
      match state with
      | none =>
        some (failWith .nil ("do not have a defined state for " ++ function.name), state)
      | some state =>
        (function.step input timescale.i currentTime state).map fun result =>
          (result.1, some (some result.2))

/-- `AvgOverTimescale`. -/
def avgOverTimescale : Aggregate F where
  name := "AvgOverTimescale"
  rejects tag :=
    match tag with
    | .STRING => some "cannot find the average value of a set of strings"
    | .BOOL => some "cannot find the average value of a set of bools"
    | .NIL => some "cannot find the average value of a set of nil values"
    | _ => none
  compute values index _ := avg (values.take (index + 1))

/-- `SumOverTimescale`. -/
def sumOverTimescale : Aggregate F where
  name := "SumOverTimescale"
  rejects tag :=
    if tag = .STRING ∨ tag = .NIL then some "cannot find the sum of a set of strings" else none
  compute values index _ := add (values.take (index + 1))

/-- `ValueChangedOverTimescale`. -/
def valueChangedOverTimescale : Aggregate F where
  name := "ValueChangedOverTimescale"
  rejects _ := none
  compute values index input :=
    (.bool ((values.take index).any fun value => !value.same input), none)

/-! ## Maxima and minima -/

/-- What `MaxOverTimescale` and `MinOverTimescale` differ in. -/
structure Extremum (F : Type) where
  name : String
  rejection : String
  /-- The name of the remembered index. -/
  indexKey : String
  /-- How many places after the index are looked at for older points. -/
  ahead : ℕ
  /-- Whether a value replaces the best one, by the type of the input. -/
  replaces : DataType → Union F → Union F → Bool
  /-- The best value that a search begins with, where the remembered one was `best`. -/
  start : DataType → Union F → Union F

/-- The search for the best value: it, and its index. -/
def searchBest (replaces : Union F → Union F → Bool) :
    ℕ → Union F × ℕ → List (Union F) → Union F × ℕ
  | _, best, [] => best
  | i, best, value :: values =>
    searchBest replaces (i + 1) (if replaces value best.1 then (value, i) else best) values

/-- The remembered index after the removal of older points, and the best value. -/
def Extremum.rebase (function : Extremum F) (tag : DataType) (best : Union F)
    (index : UInt64) (older : ℕ) (state : State F) : Option (Union F × State F) :=
  if 0 < older then do
    let remembered ← state.firstUi function.indexKey
    if older - 1 ≤ remembered.toNat ∧ 0 < remembered.toNat then
      let state ← state.setFirstUi function.indexKey (remembered - UInt64.ofNat older)
      some (best, state)
    else if index.toNat + 1 ≤ (state.entry "values").length + older then
      let found := searchBest (function.replaces tag) 0 (function.start tag best, 0)
        ((state.entry "values").take (index.toNat + 1 - older))
      let state ← state.setFirstUi function.indexKey (UInt64.ofNat found.2)
      some (found.1, state)
    else none
  else some (best, state)

/-- The comparison of the current point with the best value. -/
def Extremum.compareCurrent (function : Extremum F) (input best : Union F) (index : UInt64)
    (state : State F) : Option (State F) :=
  if function.replaces input.tag input best then state.setFirstUi function.indexKey index
  else some state

/-- The work of a function on the points of its state. -/
def Extremum.step (function : Extremum F) (input : Union F) (timescale currentTime : Int64)
    (state : Option (State F)) : Option (Returned (Union F) × State F) := do
  let state ← prepareWindow (some function.indexKey) timescale state
  let index ← state.firstUi "currentIndex"
  let remembered ← state.firstUi function.indexKey
  let best ← (state.entry "values")[remembered.toNat]?
  let (older, state) ← removeOlder function.ahead currentTime timescale index state
  let state ← moveIndex index older state
  let (best, state) ← function.rebase input.tag best index older state
  let index ← state.firstUi "currentIndex"
  let state ← addPoint currentTime input index state
  let state ← function.compareCurrent input best index state
  let state ← countPoint state
  let remembered ← state.firstUi function.indexKey
  let returned ← (state.entry "values")[remembered.toNat]?
  return ((returned, none), state)

/-- `MaxOverTimescale` and `MinOverTimescale`. -/
def Extremum.call (function : Extremum F) (input timescale : Union F) (currentTime : Int64)
    (state : StateRef F) : Stateful F :=
  if input.tag = .STRING ∨ input.tag = .NIL then
    some (failWith .nil function.rejection, state)
  else
    match castUnionType timescale .INT with
    | .error err => some ((.nil, some err), state)
    | .ok timescale =>
      match state with
      | none =>
        some (failWith .nil ("do not have a defined state for " ++ function.name), state)
      | some state =>
        (function.step input timescale.i currentTime state).map fun result =>
          (result.1, some (some result.2))

/-- `MaxOverTimescale`. -/
def maxOverTimescale : Extremum F where
  name := "MaxOverTimescale"
  rejection := "cannot find the maximum value of a set of strings"
  indexKey := "indexOfMax"
  ahead := 0
  replaces tag value best :=
    match tag with
    | .BOOL => value.b
    | .UINT => best.ui ≤ value.ui
    | .INT => best.i ≤ value.i
    | .FLOAT => Float64.le best.f value.f
    | _ => false
  start tag best :=
    match tag with
    | .UINT => .uint 0
    | .INT => .int minInt64
    | .FLOAT => .float (-Float64.ofInt (2 ^ 63 - 1))
    | _ => best

/-- `MinOverTimescale`. -/
def minOverTimescale : Extremum F where
  name := "MinOverTimescale"
  rejection := "cannot find the minimum value of a set of strings"
  indexKey := "indexOfMin"
  ahead := 1
  replaces tag value best :=
    match tag with
    | .BOOL => !value.b
    | .UINT => value.ui ≤ best.ui
    | .INT => value.i ≤ best.i
    | .FLOAT => Float64.le value.f best.f
    | _ => false
  start tag best :=
    match tag with
    | .UINT => .uint maxUint64
    | .INT => .int maxInt64
    | .FLOAT => .float Float64.maxFloat64
    | _ => best

/-! ## Changes -/

/-- `ValueChanged`. -/
def valueChanged (input : Union F) (state : StateRef F) : Stateful F :=
  match state with
  | none => some (failWith .nil "do not have a defined state for ValueChanged", state)
  | some state =>
    let state := state.getD .empty
    match state.entry "previousValue" with
    | [] => some ((.bool false, none), some (some (state.put "previousValue" [input])))
    | previous :: rest =>
      if input.same previous then some ((.bool false, none), some (some state))
      else some ((.bool true, none), some (some (state.put "previousValue" (input :: rest))))

/-!
## The points of a window of time

The arrays of a window hold the points that are not older than the window, in front of places
that are still empty. Every call takes one of these places and none is ever added, so that a
window of so many milliseconds serves as many calls.
-/

variable {F : Type}

/-- A call of a function over a window: what the clock reads, and the input. -/
structure Call (F : Type) where
  at_ : Int64
  input : Union F

/-! ## The state of a window -/

namespace State

@[simp] theorem entry_put_self (state : State F) (key : String) (list : List (Union F)) :
    (state.put key list).entry key = list := by
  simp [entry, put]

variable {key : String}

theorem entry_put_of_ne (state : State F) {other : String} (list : List (Union F)) (h : other ≠ key) :
    (state.put key list).entry other = state.entry other := by
  simp [entry, put, Function.update_of_ne h]

/-- The names of the arrays of a window and of its index. -/
def windowKeys : List String := ["timestamps", "values", "currentIndex"]

/-- Two states differ in the arrays of a window and in its index only. -/
def SameBeside (before after : State F) : Prop :=
  ∀ key ∉ windowKeys, after.entry key = before.entry key

theorem SameBeside.trans {first second third : State F} (h : first.SameBeside second)
    (h' : second.SameBeside third) : first.SameBeside third := by
  intro key hkey
  rw [h' key hkey, h key hkey]

theorem sameBeside_put (state : State F) (list : List (Union F)) (h : key ∈ windowKeys) :
    state.SameBeside (state.put key list) := by
  intro other hother
  exact entry_put_of_ne state list fun heq => hother (heq ▸ h)

end State

variable [Float64 F]

/-- The time of a call as it stands in the array of times. -/
def Call.stamp (call : Call F) : Union F := .int call.at_

/-- The points of a window in front of empty places. -/
structure Points (free : ℕ) (points : List (Call F)) (state : State F) : Prop where
  timestamps : state.entry "timestamps" =
    points.map Call.stamp ++ List.replicate free Union.nil
  values : state.entry "values" =
    points.map Call.input ++ List.replicate free Union.nil
  index : state.entry "currentIndex" = [Union.uint (UInt64.ofNat points.length)]
  fits : points.length + free < 2 ^ 63

theorem toNat_ofNat_of_fits {n : ℕ} (h : n < 2 ^ 63) : (UInt64.ofNat n).toNat = n := by
  exact UInt64.toNat_ofNat_of_lt' (by simp only [UInt64.size]; omega)

theorem ofInt_natCast_sub {n k : ℕ} (h : k ≤ n) :
    UInt64.ofInt ((n : ℤ) - k) = UInt64.ofNat (n - k) := by
  rw [← Int.ofNat_sub h, UInt64.ofInt]
  apply UInt64.toNat_inj.1
  rw [UInt64.toNat_ofNat', UInt64.toNat_ofNat']
  omega

namespace State

variable {state : State F}

theorem firstUi_of_entry {ui : UInt64} (h : state.entry key = [Union.uint ui]) :
    state.firstUi key = some ui := by
  simp [firstUi, h, Union.uint]

theorem setFirstUi_of_entry {ui : UInt64} (h : state.entry key = [Union.uint ui]) (other : UInt64) :
    state.setFirstUi key other = some (state.put key [Union.uint other]) := by
  simp [setFirstUi, h, Union.uint]

end State

theorem modify_append_cons {α : Type} (front : List α) (a : α) (back : List α) (edit : α → α) :
    (front ++ a :: back).modify front.length edit = front ++ edit a :: back := by
  induction front with
  | nil => simp
  | cons b front ih => simpa using ih

namespace Points

variable {free : ℕ} {points : List (Call F)} {state : State F}

section

variable (h : Points free points state)
include h

theorem length_lt : points.length < 2 ^ 63 := by
  have hfits := h.fits
  omega

theorem toNat_length : (UInt64.ofNat points.length).toNat = points.length :=
  toNat_ofNat_of_fits h.length_lt

theorem firstUi_index : state.firstUi "currentIndex" = some (UInt64.ofNat points.length) :=
  State.firstUi_of_entry h.index

/-- States that agree on the arrays and the index of a window have the same points. -/
theorem congr {other : State F}
    (hsame : ∀ key ∈ State.windowKeys, other.entry key = state.entry key) :
    Points free points other := by
  have ht := hsame "timestamps" (by simp [State.windowKeys])
  have hv := hsame "values" (by simp [State.windowKeys])
  have hi := hsame "currentIndex" (by simp [State.windowKeys])
  constructor
  · rw [ht, h.timestamps]
  · rw [hv, h.values]
  · rw [hi, h.index]
  · exact h.fits

/-- What is put beside the arrays of a window does not change its points. -/
theorem put (list : List (Union F)) (hkey : key ∉ State.windowKeys) :
    Points free points (state.put key list) := by
  apply h.congr
  intro other hother
  exact State.entry_put_of_ne state list fun heq => hkey (heq ▸ hother)

end

end Points

/-! ## One call -/

/-- The arrays of a window that begins. -/
theorem prepareWindow_begins {timescale : Int64} (hpos : 0 < timescale)
    {before : Option (State F)} (hnone : (before.getD .empty).entry "timestamps" = [])
    (indexKey : Option String) (hkey : ∀ key ∈ indexKey, key ∉ State.windowKeys) :
    ∃ state : State F, prepareWindow indexKey timescale before = some state ∧
      Points timescale.toInt.toNat [] state ∧
      ∀ key ∈ indexKey, state.entry key = [Union.uint 0] := by
  have hnot : ¬ timescale < 0 := by
    rw [Int64.lt_iff_toInt_lt] at hpos ⊢
    omega
  have hfits : timescale.toInt.toNat < 2 ^ 63 := by
    have hlt := Int64.toInt_lt timescale
    omega
  have hbase : Points timescale.toInt.toNat []
      ((((before.getD .empty).put "timestamps"
        (List.replicate timescale.toInt.toNat Union.nil)).put "values"
        (List.replicate timescale.toInt.toNat Union.nil)).put "currentIndex" [Union.uint 0]) := by
    constructor
    · simp [State.entry_put_of_ne]
    · simp [State.entry_put_of_ne]
    · simp
    · simpa using hfits
  cases indexKey with
  | none =>
    refine ⟨_, ?_, hbase, by simp⟩
    simp only [prepareWindow, hnone, if_true, if_neg hnot, Option.elim]
  | some key =>
    refine ⟨_, ?_, hbase.put [Union.uint 0] (hkey key rfl), ?_⟩
    · simp only [prepareWindow, hnone, if_true, if_neg hnot, Option.elim]
    · intro other hother
      obtain rfl : key = other := by simpa using hother
      simp

variable {points : List (Call F)} {free : ℕ}

/-- The arrays of a window that holds points, or places for them, are kept. -/
theorem prepareWindow_some (h : Points free points state) (hspace : 0 < points.length + free)
    (indexKey : Option String) (timescale : Int64) :
    prepareWindow indexKey timescale (some state) = some state := by
  have hne : state.entry "timestamps" ≠ [] := by
    intro hnil
    have hlength := congrArg List.length (h.timestamps.symm.trans hnil)
    simp only [List.length_append, List.length_map, List.length_replicate,
      List.length_nil] at hlength
    omega
  simp [prepareWindow, hne]

/-- Whether a call is older than a window. -/
def Call.isOlder (currentTime timescale : Int64) (call : Call F) : Bool :=
  call.at_ != 0 && call.at_ < currentTime - timescale

/-- The older points among the first places of the array. -/
theorem olderPoints_take (points : List (Call F)) {ahead : ℕ} (hahead : ahead ≤ free)
    (currentTime timescale : Int64) :
    olderPoints currentTime timescale ((points.map Call.stamp ++
          List.replicate free (Union.nil : Union F)).take (points.length + ahead)) =
      (points.takeWhile (Call.isOlder currentTime timescale)).length := by
  have htake : (points.map Call.stamp ++
      List.replicate free (Union.nil : Union F)).take (points.length + ahead) =
      points.map Call.stamp ++ List.replicate ahead Union.nil := by
    simp [List.take_append, Nat.min_eq_left hahead]
  rw [htake]
  clear htake
  induction points with
  | nil =>
    cases ahead with
    | zero => simp [olderPoints]
    | succ ahead => simp [olderPoints, isOlder, Union.nil]
  | cons point points ih =>
    simp only [olderPoints] at ih
    simp only [olderPoints, List.map_cons, List.cons_append, List.takeWhile_cons]
    have hsame : HybridOs.GoMetrics.isOlder currentTime timescale point.stamp =
        point.isOlder currentTime timescale := rfl
    rw [hsame]
    split
    · simp only [List.length_cons, ih]
    · rfl

/-- The removal of older points keeps the others. -/
theorem removeOlder_points (h : Points free points state) {ahead : ℕ} (hahead : ahead ≤ free)
    (currentTime timescale : Int64) :
    ∃ cut moved : State F,
      removeOlder ahead currentTime timescale (UInt64.ofNat points.length) state =
        some ((points.takeWhile (Call.isOlder currentTime timescale)).length, cut) ∧
      moveIndex (UInt64.ofNat points.length)
        (points.takeWhile (Call.isOlder currentTime timescale)).length cut = some moved ∧
      Points free (points.dropWhile (Call.isOlder currentTime timescale)) moved ∧
      state.SameBeside moved := by
  obtain ⟨older, holder⟩ :
      ∃ n, n = (points.takeWhile (Call.isOlder currentTime timescale)).length := ⟨_, rfl⟩
  have hle : older ≤ points.length := holder ▸ (List.takeWhile_sublist _).length_le
  have hdrop : points.dropWhile (Call.isOlder currentTime timescale) = points.drop older := by
    have happend := List.takeWhile_append_dropWhile
      (p := Call.isOlder currentTime timescale) (l := points)
    rw [holder]
    conv_rhs => arg 2; rw [← happend]
    rw [List.drop_left]
  rw [← holder, hdrop]
  have hremove : removeOlder ahead currentTime timescale (UInt64.ofNat points.length) state =
      some (older, (state.put "timestamps" ((state.entry "timestamps").drop older)).put "values"
        ((state.entry "values").drop older)) := by
    have hbound : points.length + ahead ≤ (state.entry "timestamps").length := by
      simp only [h.timestamps, List.length_append, List.length_map, List.length_replicate]
      omega
    have hcount : olderPoints currentTime timescale
        ((state.entry "timestamps").take (points.length + ahead)) = older := by
      rw [h.timestamps, olderPoints_take points hahead, ← holder]
    have hvalues : older ≤ (state.entry "values").length := by
      simp only [h.values, List.length_append, List.length_map]
      omega
    simp only [removeOlder, h.toNat_length, if_pos hbound, hcount, if_pos hvalues]
  generalize hcut : (state.put "timestamps" ((state.entry "timestamps").drop older)).put "values"
    ((state.entry "values").drop older) = cut at hremove
  have hcutSame : state.SameBeside cut := by
    rw [← hcut]
    exact (State.sameBeside_put state _ (by simp [State.windowKeys])).trans
      (State.sameBeside_put _ _ (by simp [State.windowKeys]))
  have htimes : cut.entry "timestamps" =
      (points.drop older).map Call.stamp ++
        List.replicate free Union.nil := by
    rw [← hcut, State.entry_put_of_ne _ _ (by decide), State.entry_put_self, h.timestamps,
      List.drop_append_of_le_length (by simpa using hle), List.map_drop]
  have hvalues : cut.entry "values" =
      (points.drop older).map Call.input ++ List.replicate free Union.nil := by
    rw [← hcut, State.entry_put_self, h.values,
      List.drop_append_of_le_length (by simpa using hle), List.map_drop]
  have hindex : cut.entry "currentIndex" = [Union.uint (UInt64.ofNat points.length)] := by
    rw [← hcut, State.entry_put_of_ne _ _ (by decide), State.entry_put_of_ne _ _ (by decide),
      h.index]
  have hfits := h.fits
  have hlength : (points.drop older).length = points.length - older := List.length_drop ..
  rcases Nat.eq_zero_or_pos older with hzero | hpos
  · refine ⟨cut, cut, hremove, by simp [moveIndex, hzero], ?_, hcutSame⟩
    constructor
    · exact htimes
    · exact hvalues
    · rw [hindex, hlength, hzero, Nat.sub_zero]
    · omega
  · have hmoved : UInt64.ofInt (((UInt64.ofNat points.length).toNat : ℤ) - older) =
        UInt64.ofNat (points.drop older).length := by
      rw [h.toNat_length, hlength, ofInt_natCast_sub hle]
    refine ⟨cut, cut.put "currentIndex" [Union.uint (UInt64.ofNat (points.drop older).length)],
      hremove, ?_, ?_, ?_⟩
    · rw [moveIndex, if_pos hpos, State.setFirstUi_of_entry hindex, hmoved]
    · constructor
      · rw [State.entry_put_of_ne _ _ (by decide), htimes]
      · rw [State.entry_put_of_ne _ _ (by decide), hvalues]
      · rw [State.entry_put_self]
      · omega
    · exact hcutSame.trans (State.sameBeside_put _ _ (by simp [State.windowKeys]))

/-- The current point takes the first empty place. -/
theorem addPoint_points (h : Points (free + 1) points state) (call : Call F) :
    ∃ added : State F,
      addPoint call.at_ call.input (UInt64.ofNat points.length) state = some added ∧
      added.entry "timestamps" = (points ++ [call]).map Call.stamp ++
        List.replicate free Union.nil ∧
      added.entry "values" = (points ++ [call]).map Call.input ++ List.replicate free Union.nil ∧
      added.entry "currentIndex" = [Union.uint (UInt64.ofNat points.length)] ∧
      state.SameBeside added := by
  have htimes : points.length < (state.entry "timestamps").length := by
    simp [h.timestamps]
  have hvalues : points.length < (state.entry "values").length := by
    simp [h.values]
  obtain ⟨stamped, hstamped⟩ : ∃ stamped : State F, stamped = state.put "timestamps"
      ((state.entry "timestamps").modify points.length fun timestamp =>
        { timestamp with tag := .INT, i := call.at_ }) := ⟨_, rfl⟩
  have hkeep : stamped.entry "values" = state.entry "values" := by
    rw [hstamped, State.entry_put_of_ne _ _ (by decide)]
  refine ⟨stamped.put "values" ((state.entry "values").modify points.length fun _ => call.input),
    ?_, ?_, ?_, ?_, ?_⟩
  · simp only [addPoint, State.editAt, h.toNat_length, if_pos htimes, bind, Option.bind,
      ← hstamped, hkeep, if_pos hvalues]
  · rw [State.entry_put_of_ne _ _ (by decide), hstamped, State.entry_put_self, h.timestamps,
      List.replicate_succ]
    have hmodify := modify_append_cons (points.map Call.stamp)
      (Union.nil : Union F) (List.replicate free Union.nil)
      fun timestamp => { timestamp with tag := .INT, i := call.at_ }
    rw [List.length_map] at hmodify
    rw [hmodify]
    simp [Union.nil, Call.stamp, Union.int]
  · rw [State.entry_put_self, h.values, List.replicate_succ]
    have hmodify := modify_append_cons (points.map Call.input)
      (Union.nil : Union F) (List.replicate free Union.nil) fun _ => call.input
    rw [List.length_map] at hmodify
    rw [hmodify]
    simp
  · rw [State.entry_put_of_ne _ _ (by decide), hstamped, State.entry_put_of_ne _ _ (by decide),
      h.index]
  · rw [hstamped]
    exact (State.sameBeside_put state _ (by simp [State.windowKeys])).trans
      (State.sameBeside_put _ _ (by simp [State.windowKeys]))

/-- The index moves behind the current point, and the arrays never grow. -/
theorem countPoint_points {free : ℕ} {points : List (Call F)} {added : State F} {call : Call F}
    (hfits : points.length + (free + 1) < 2 ^ 63) (htimes : added.entry "timestamps" =
      (points ++ [call]).map Call.stamp ++ List.replicate free Union.nil)
    (hvalues : added.entry "values" =
      (points ++ [call]).map Call.input ++ List.replicate free Union.nil)
    (hindex : added.entry "currentIndex" = [Union.uint (UInt64.ofNat points.length)]) :
    ∃ counted : State F, countPoint added = some counted ∧
      Points free (points ++ [call]) counted ∧ added.SameBeside counted := by
  have hnext : UInt64.ofNat points.length + 1 = UInt64.ofNat (points ++ [call]).length := by
    rw [List.length_append, List.length_singleton, UInt64.ofNat_add]
    rfl
  have hlength : (points ++ [call]).length < 2 ^ 63 := by
    rw [List.length_append, List.length_singleton]
    omega
  obtain ⟨counted, hcounted⟩ : ∃ counted : State F, counted = added.put "currentIndex"
      [Union.uint (UInt64.ofNat (points ++ [call]).length)] := ⟨_, rfl⟩
  have htimes' : counted.entry "timestamps" = added.entry "timestamps" := by
    rw [hcounted, State.entry_put_of_ne _ _ (by decide)]
  refine ⟨counted, ?_, ?_, ?_⟩
  · have hroom : ¬ (UInt64.ofNat (points ++ [call]).length).toNat >
        (counted.entry "timestamps").length := by
      rw [toNat_ofNat_of_fits hlength, htimes', htimes]
      simp
    have hset := State.setFirstUi_of_entry hindex (UInt64.ofNat (points ++ [call]).length)
    rw [← hcounted] at hset
    simp only [countPoint, State.firstUi_of_entry hindex, bind, Option.bind, hnext, hset,
      if_neg hroom]
  · constructor
    · rw [htimes', htimes]
    · rw [hcounted, State.entry_put_of_ne _ _ (by decide), hvalues]
    · rw [hcounted, State.entry_put_self]
    · rw [List.length_append, List.length_singleton]
      omega
  · rw [hcounted]
    exact State.sameBeside_put _ _ (by simp [State.windowKeys])

/-! ## A window between two calls -/

/-- A window before its first call, or one that holds points in front of empty places. -/
def Holding (timescale : Int64) (free : ℕ) (points : List (Call F))
    (state : Option (State F)) : Prop :=
  (points = [] ∧ free = timescale.toInt.toNat ∧
    (state.getD .empty).entry "timestamps" = []) ∨
  ∃ held, state = some held ∧ 0 < points.length + free ∧ Points free points held

/-- A window is ready for a call: its points are held, and its remembered index is what it
was, or zero at the beginning. -/
theorem prepareWindow_holding {timescale : Int64} (hpos : 0 < timescale) {state : Option (State F)}
    (h : Holding timescale free points state) (indexKey : Option String)
    (hkey : ∀ key ∈ indexKey, key ∉ State.windowKeys) :
    ∃ ready : State F, prepareWindow indexKey timescale state = some ready ∧
      Points free points ready ∧
      ∀ key ∈ indexKey, (points = [] ∧ ready.entry key = [Union.uint 0]) ∨ state = some ready := by
  rcases h with ⟨hpoints, hfree, hnone⟩ | ⟨held, hstate, hspace, hheld⟩
  · obtain ⟨ready, hready, hholds, hindex⟩ :=
      prepareWindow_begins hpos hnone indexKey hkey
    subst hpoints hfree
    exact ⟨ready, hready, hholds, fun key hmem => Or.inl ⟨rfl, hindex key hmem⟩⟩
  · subst hstate
    exact ⟨held, prepareWindow_some hheld hspace indexKey timescale, hheld,
      fun _ _ => Or.inr rfl⟩

/-!
## Functions of metrics that read the clock or keep a state

The functions over a window of time are apart. A call that reads or writes outside of a list
of the state, or that divides by zero, does not return.
-/

variable {F : Type}

/-- A reading of the clock: `UnixMilli` and `Minute`. -/
structure Clock where
  unixMilli : Int64
  minute : Int64

/-- What a function that works on a map returns, with a pointer to the map. -/
def withMap (result : Option (Returned (Union F) × State F)) : Stateful F :=
  result.map fun result => (result.1, some (some result.2))

variable [Float64 F] [Library F]

/-! ## Times -/

/-- `CurrentTimeMilliseconds`. -/
def currentTimeMilliseconds (clock : Clock) : Returned (Union F) := (.int clock.unixMilli, none)

/-- The failure of `MillisecondsSince` whose text has the word overflow. -/
def millisecondsOverflow : Failure := .other "overflow error when finding milliseconds since"

/-- `MillisecondsSince`. -/
def millisecondsSince (clock : Clock) (input : Union F) : Returned (Union F) :=
  match castUnionType input .INT with
  | .error err => (.nil, some err)
  | .ok input =>
    if input.i < 0 && clock.unixMilli > maxInt64 + input.i then (.nil, some millisecondsOverflow)
    else (.int (clock.unixMilli - input.i), none)

/-- `MillisecondsToRFC3339`. -/
def millisecondsToRFC3339 (input : Union F) : Returned (Union F) :=
  match castUnionType input .INT with
  | .error err => (.nil, some err)
  | .ok input => (.string (Library.rfc3339 F input.i), none)

/-! ## Integration -/

/-- The arguments of `Integrate` after their casts. -/
def integrateArgs (input timescale minuteReset minuteOffset : Union F) :
    Except Failure (Union F × Union F × Union F × Union F) := do
  let input ← castUnionType input .FLOAT
  let timescale ← castUnionType timescale .FLOAT
  let minuteReset ← castUnionType minuteReset .INT
  let minuteOffset ← castUnionType minuteOffset .INT
  return (input, timescale, minuteReset, minuteOffset)

/-- The state of `Integrate` with a time and a minute. -/
def prepareIntegrate (clock : Clock) (state : State F) : State F :=
  if state.entry "timestamp" = [] then
    (state.put "timestamp" [.int clock.unixMilli]).put "minute" [.nil]
  else state

/-- Whether `Integrate` begins anew in this minute. -/
def integrateResets (clock : Clock) (minuteReset minuteOffset stateMinute : Int64) :
    Option Bool :=
  if minuteReset = -1 ∨ clock.minute = stateMinute then some false
  else if minuteReset = 0 then none
  else some (decide ((clock.minute - minuteOffset) % minuteReset = 0))

/-- The work of `Integrate` on its state. The value of the state is edited in place. -/
def integrateStep (clock : Clock) (dataType : DataType)
    (args : Union F × Union F × Union F × Union F) (state : State F) :
    Option (Returned (Union F) × State F) :=
  let (input, timescale, minuteReset, minuteOffset) := args
  let timescale_f := timescale.f * Float64.ofInt 3600 * Float64.ofInt 1000
  let state := prepareIntegrate clock state
  match castUnionType ((state.entry "value").head?.getD (.float 0)) .FLOAT with
  | .error err => some ((.nil, some err), state)
  | .ok prevValue => do
    let oldTimestamp ← (state.entry "timestamp").head?
    let stateMinute := (state.entry "minute").head?.getD .nil
    let elapsed := Float64.ofInt (clock.unixMilli - oldTimestamp.i).toInt
    let delta := input.f * elapsed / timescale_f
    let resets ← integrateResets clock minuteReset.i minuteOffset.i stateMinute.i
    let sum := if resets then delta else prevValue.f + delta
    let state ← state.editAt "timestamp" 0 fun _ => .int clock.unixMilli
    let state ← state.editAt "minute" 0 fun _ => .int clock.minute
    let returned := castArg dataType { prevValue with f := sum }
    let value := state.entry "value"
    let state := if value = [] then state
      else state.put "value" (value.modify 0 fun _ => returned.1)
    return (returned, state)

/-- `Integrate`. -/
def integrate (clock : Clock) (input timescale minuteReset minuteOffset : Union F)
    (state : StateRef F) : Stateful F :=
  match integrateArgs input timescale minuteReset minuteOffset with
  | .error err => some ((.nil, some err), state)
  | .ok args =>
    match state with
    | none => some (failWith .nil "do not have a defined state for Integrate", state)
    | some map => withMap (integrateStep clock input.tag args (map.getD .empty))

/-! ## Triggers -/

/-- The work of `Srff` on its state. -/
def srffStep (arg1 arg2 : Union F) (state : State F) :
    Option (Returned (Union F) × State F) := do
  let state := if (state "q").isNone then state.put "q" [.bool false] else state
  let set := (castInPlace arg1 .BOOL).b
  let reset := (castInPlace arg2 .BOOL).b
  let state ← if set then state.editAt "q" 0 fun _ => .bool true
    else if reset then state.editAt "q" 0 fun _ => .bool false
    else some state
  let q ← (state.entry "q").head?
  return ((q, none), state)

/-- `Srff`. -/
def srff (arg1 arg2 : Union F) (state : StateRef F) : Stateful F :=
  match state with
  | none => some (failWith .nil "do not have a defined state for SRFF", state)
  | some map =>
    if arg1.tag = .STRING ∨ arg2.tag = .STRING then
      some (failWith .nil "cannot use strings in SRFF", state)
    else withMap (srffStep arg1 arg2 (map.getD .empty))

/-- Whether a pulse goes on. -/
def inTriggerEvent (state : State F) : Option Bool :=
  match state "triggerEvent" with
  | none => some false
  | some inTrigger => inTrigger.head?.map (·.b)

/-- The work of `Pulse` on its state. -/
def pulseStep (clock : Clock) (trigger reset timeout : Union F) (state : State F) :
    Option (Returned (Union F) × State F) := do
  let inTrigger ← inTriggerEvent state
  if inTrigger then
    if reset.b then
      let state ← state.editAt "triggerEvent" 0 fun _ => .bool false
      return ((.bool false, none), state)
    else
      let ends ← (state.entry "timeout").head?
      if ends.i ≤ clock.unixMilli then
        let state ← state.editAt "triggerEvent" 0 fun _ => .bool false
        return ((.bool false, none), state)
      else return ((.bool true, none), state)
  else if reset.b then return ((.bool false, none), state)
  else if trigger.b then
    let state ← state.editAt "triggerEvent" 0 fun _ => .bool true
    let state ← state.editAt "timeout" 0 fun _ => .int (clock.unixMilli + timeout.i)
    return ((.bool true, none), state)
  else return ((.bool false, none), state)

/-- `Pulse`. -/
def pulse (clock : Clock) (trigger reset timeout : Union F) (state : StateRef F) : Stateful F :=
  match state with
  | none => some (failWith .nil "do not have a defined state for Pulse", state)
  | some map =>
    let map := map.getD ((State.empty.put "triggerEvent" [.nil]).put "timeout" [.nil])
    match castUnionType trigger .BOOL, castUnionType reset .BOOL, castUnionType timeout .INT with
    | .error _, _, _ => some (failWith .nil "trigger for pulse event must be bool", some (some map))
    | _, .error _, _ => some (failWith .nil "reset for pulse event must be bool", some (some map))
    | _, _, .error _ => some (failWith .nil "timeout for pulse event must be int", some (some map))
    | .ok trigger, .ok reset, .ok timeout => withMap (pulseStep clock trigger reset timeout map)

/-! ## Durations -/

/-- A list of the state, or a first value where there is none. -/
def State.ensure (state : State F) (key : String) (first : Union F) : State F :=
  if state.entry key = [] then state.put key [first] else state

/-- The result of `Duration` and its state before the previous value is written. -/
def durationResult (clock : Clock) (expressionResult : Bool) (durationSecs : F)
    (previousValue firstTriggered : String) (state : State F) :
    Option (Returned (Union F) × State F) :=
  if expressionResult then do
    let previous ← (state.entry previousValue).head?
    let state ← if previous.b then some state
      else state.editAt firstTriggered 0 fun _ => .int clock.unixMilli
    let triggered ← (state.entry firstTriggered).head?
    match millisecondsSince clock triggered with
    | (_, some err) =>
      let state ← if err = millisecondsOverflow then
          state.editAt firstTriggered 0 fun _ => .int clock.unixMilli
        else some state
      return (failWith .nil "error checking Duration", state)
    | (since, none) =>
      let seconds := Float64.ofInt since.i.toInt / Float64.ofInt 1000
      return ((.bool (Float64.lt durationSecs seconds), none), state)
  else some ((.bool false, none), state)

/-- The work of `Duration` on its state. -/
def durationStep (clock : Clock) (expressionResult : Bool) (durationSecs : F) (id : String)
    (state : State F) : Option (Returned (Union F) × State F) := do
  let previousValue := id ++ "previousValue"
  let firstTriggered := id ++ "firstTriggered"
  let state := (state.ensure previousValue (.bool false)).ensure firstTriggered (.int 0)
  let (returned, state) ← durationResult clock expressionResult durationSecs previousValue
    firstTriggered state
  let state ← state.editAt previousValue 0 fun _ => .bool expressionResult
  return (returned, state)

/-- `Duration`. A write to a nil map does not return. -/
def duration (clock : Clock) (expressionResult : Bool) (durationSecs : F) (id : String)
    (state : StateRef F) : Stateful F :=
  match state with
  | none => some (failWith .nil "do not have a defined state for Duration", state)
  | some none => none
  | some (some map) => withMap (durationStep clock expressionResult durationSecs id map)

end HybridOs.GoMetrics
