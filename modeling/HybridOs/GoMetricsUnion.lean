import Mathlib.Data.Rat.Floor

/-!
# Values of metrics

A value carries its type as a tag beside one field for each type. The floating-point numbers
are any type with the operations that the source performs on them; the rational numbers are
one such type. What the libraries for texts, times and functions on floating-point numbers
return is a parameter.
-/

namespace HybridOs.GoMetrics

/-- The operations on floating-point numbers. -/
class Float64 (F : Type) extends Zero F, Add F, Sub F, Mul F, Div F, Neg F where
  ofInt : ℤ → F
  lt : F → F → Bool
  le : F → F → Bool
  eq : F → F → Bool
  floor : F → F
  ceil : F → F
  round : F → F
  abs : F → F
  /-- The integer that a conversion of a number in range yields. -/
  truncate : F → ℤ
  maxFloat64 : F
  isNaN : F → Bool
  /-- Whether a number is the infinity of a sign, or of any sign for zero. -/
  isInf : F → ℤ → Bool

/-- The greatest `float64`. -/
def maxFloat64 : ℚ := (2 ^ 53 - 1) * 2 ^ 971

/-- Exact arithmetic. -/
scoped instance : Float64 ℚ where
  ofInt n := n
  lt a b := decide (a < b)
  le a b := decide (a ≤ b)
  eq a b := decide (a = b)
  floor x := (⌊x⌋ : ℤ)
  ceil x := (⌈x⌉ : ℤ)
  round x := if x < 0 then (⌈x - 1 / 2⌉ : ℤ) else (⌊x + 1 / 2⌋ : ℤ)
  abs x := if x < 0 then -x else x
  truncate x := if x < 0 then ⌈x⌉ else ⌊x⌋
  maxFloat64 := maxFloat64
  isNaN _ := false
  isInf _ _ := false

/-- What the packages `strconv`, `fmt`, `math`, `time` and `strings` return. -/
class Library (F : Type) where
  /-- `strconv.ParseFloat`: the number it returns and whether it does not fail. -/
  parseFloat : String → F × Bool
  /-- The format `%f`. -/
  sprintF : F → String
  /-- The format `%.2f`. -/
  sprintF2 : F → String
  sqrt : F → F
  pow : F → F → F
  min : F → F → F
  /-- `time.UnixMilli(ms).Format(time.RFC3339)`. -/
  rfc3339 : Int64 → String
  toLower : String → String

/-- The type of a value. -/
inductive DataType where
  | NIL
  | BOOL
  | INT
  | UINT
  | FLOAT
  | STRING
  deriving DecidableEq, Repr

/-- The text of a type. -/
def DataType.text : DataType → String
  | .STRING => "string"
  | .BOOL => "bool"
  | .INT => "int"
  | .UINT => "uint"
  | .FLOAT => "float"
  | .NIL => "nil"

/-- `isNumeric`. -/
def DataType.isNumeric (dataType : DataType) : Bool :=
  dataType = .INT ∨ dataType = .UINT ∨ dataType = .FLOAT

/-- A value of a metric. -/
structure Union (F : Type) where
  tag : DataType
  b : Bool
  i : Int64
  ui : UInt64
  f : F
  s : String

/-- Why a function of the source returns an error. -/
inductive Failure where
  | unrecognizedFunction (name : String)
  | argumentCount (text : String)
  | unsupported (text : String)
  | other (text : String)
  deriving DecidableEq

section Values

variable {F : Type} [Float64 F]

/-- `Union{}`. -/
def Union.nil : Union F := ⟨.NIL, false, 0, 0, 0, ""⟩

/-- `Union{tag: BOOL, b: b}`. -/
def Union.bool (b : Bool) : Union F := ⟨.BOOL, b, 0, 0, 0, ""⟩

/-- `Union{tag: INT, i: i}`. -/
def Union.int (i : Int64) : Union F := ⟨.INT, false, i, 0, 0, ""⟩

/-- `Union{tag: UINT, ui: ui}`. -/
def Union.uint (ui : UInt64) : Union F := ⟨.UINT, false, 0, ui, 0, ""⟩

/-- `Union{tag: FLOAT, f: f}`. -/
def Union.float (f : F) : Union F := ⟨.FLOAT, false, 0, 0, f, ""⟩

/-- `Union{tag: STRING, s: s}`. -/
def Union.string (s : String) : Union F := ⟨.STRING, false, 0, 0, 0, s⟩

/-- The comparison `==` of two values, field by field. -/
def Union.same (a b : Union F) : Bool :=
  a.tag = b.tag ∧ a.b = b.b ∧ a.i = b.i ∧ a.ui = b.ui ∧ Float64.eq a.f b.f ∧ a.s = b.s

/-- A value of an interface. -/
inductive Interface (F : Type) where
  | string (s : String)
  | bool (b : Bool)
  | uint64 (ui : UInt64)
  | int64 (i : Int64)
  | int (i : Int64)
  | float64 (f : F)
  | other

/-- `getUnionFromValue`. -/
def getUnionFromValue : Interface F → Union F
  | .string s => .string s
  | .bool b => .bool b
  | .uint64 ui => .uint ui
  | .int64 i => .int i
  | .float64 f => .float f
  | .int _ => .nil
  | .other => .nil

/-! ## Texts of numbers -/

/-- The format `%t`. -/
def sprintT (b : Bool) : String := if b then "true" else "false"

/-- The digits of a decimal number. -/
def parseDigits (digits : List Char) : Option ℕ :=
  if digits ≠ [] ∧ digits.all Char.isDigit then
    some (digits.foldl (fun number c => number * 10 + (c.toNat - 48)) 0)
  else none

/-- `strconv.ParseInt(s, 10, 64)`: the value it returns and whether it does not fail. -/
def parseInt (s : String) : Int64 × Bool :=
  let negative := s.toList.head? = some '-'
  let digits := if negative || s.toList.head? = some '+' then s.toList.tail else s.toList
  match parseDigits digits with
  | none => (0, false)
  | some number =>
    if negative then
      if number ≤ 2 ^ 63 then (Int64.ofInt (-number), true) else (Int64.minValue, false)
    else if number < 2 ^ 63 then (Int64.ofNat number, true) else (Int64.maxValue, false)

/-- `strconv.ParseUint(s, 10, 64)`: the value it returns and whether it does not fail. -/
def parseUint (s : String) : UInt64 × Bool :=
  match parseDigits s.toList with
  | none => (0, false)
  | some number =>
    if number < 2 ^ 64 then (UInt64.ofNat number, true) else (UInt64.ofNat (2 ^ 64 - 1), false)

/-- `strconv.ParseBool`. -/
def parseBool (s : String) : Option Bool :=
  if s ∈ ["1", "t", "T", "TRUE", "true", "True"] then some true
  else if s ∈ ["0", "f", "F", "FALSE", "false", "False"] then some false
  else none

variable [Library F]

/-- `unionValueToString`. -/
def unionValueToString (union : Union F) : String :=
  match union.tag with
  | .STRING => union.s
  | .BOOL => sprintT union.b
  | .INT => toString union.i.toInt
  | .UINT => toString union.ui.toNat
  | .FLOAT => Library.sprintF2 union.f
  | .NIL => "null"

/-! ## Casts -/

/-- The case of a text in `castUnionType`. -/
def castString (union : Union F) (newType : DataType) : Except Failure (Union F) :=
  match newType with
  | .BOOL =>
    let boolVal := (parseBool union.s).getD (decide (union.s ≠ ""))
    .ok { union with b := boolVal, s := "", tag := newType }
  | .INT =>
    let intVal := parseInt union.s
    if intVal.2 then .ok { union with i := intVal.1, s := "", tag := newType }
    else .error (.other "strconv.ParseInt")
  | .UINT =>
    let intVal := parseUint union.s
    if intVal.2 then .ok { union with ui := intVal.1, s := "", tag := newType }
    else .error (.other "strconv.ParseUint")
  | .FLOAT =>
    let floatVal := (Library.parseFloat union.s : F × Bool)
    if floatVal.2 then .ok { union with f := floatVal.1, s := "", tag := newType }
    else .error (.other "strconv.ParseFloat")
  | _ => .ok { union with s := "", tag := newType }

/-- The case of a signed integer in `castUnionType`. -/
def castInt (union : Union F) (newType : DataType) : Except Failure (Union F) :=
  match newType with
  | .BOOL => .ok { union with tag := newType, b := union.i ≠ 0, i := 0 }
  | .UINT =>
    if union.i < 0 then .error (.other "cannot convert negative int64 to uint64")
    else .ok { union with tag := newType, ui := union.i.toUInt64, i := 0 }
  | .FLOAT => .ok { union with tag := newType, f := Float64.ofInt union.i.toInt, i := 0 }
  | .STRING => .ok { union with tag := newType, s := toString union.i.toInt, i := 0 }
  | _ => .ok union

/-- The case of an unsigned integer in `castUnionType`. -/
def castUint (union : Union F) (newType : DataType) : Except Failure (Union F) :=
  match newType with
  | .BOOL => .ok { union with tag := newType, b := union.ui ≠ 0, ui := 0 }
  | .INT =>
    if union.ui > UInt64.ofNat (2 ^ 63 - 1) then
      .error (.other "uint64 value is too large to convert to int64")
    else .ok { union with tag := newType, i := union.ui.toInt64, ui := 0 }
  | .FLOAT => .ok { union with tag := newType, f := Float64.ofInt union.ui.toNat, ui := 0 }
  | .STRING => .ok { union with tag := newType, s := toString union.ui.toNat, ui := 0 }
  | _ => .ok union

/-- The case of a floating-point number in `castUnionType`. -/
def castFloat (union : Union F) (newType : DataType) : Except Failure (Union F) :=
  match newType with
  | .BOOL => .ok { union with tag := newType, b := !Float64.eq union.f 0, f := 0 }
  | .INT =>
    if Float64.le (Float64.ofInt (2 ^ 63 - 1)) union.f ||
        Float64.lt union.f (Float64.ofInt (-2 ^ 63)) then
      .error (.other "float64 value is too large to convert to int64")
    else
      let whole := if Float64.lt union.f 0 then -Float64.floor (Float64.abs union.f)
        else Float64.floor union.f
      .ok { union with tag := newType, i := Int64.ofInt (Float64.truncate whole), f := 0 }
  | .UINT =>
    if Float64.lt (Float64.ofInt (2 ^ 64 - 1)) union.f then
      .error (.other "float64 value is too large to convert to uint64")
    else if Float64.lt union.f 0 then
      .error (.other "cannot convert negative float64 to uint64")
    else
      let whole := Float64.floor union.f
      .ok { union with tag := newType, ui := UInt64.ofInt (Float64.truncate whole), f := 0 }
  | .STRING => .ok { union with tag := newType, s := Library.sprintF union.f, f := 0 }
  | _ => .ok union

/-- The case of a truth value in `castUnionType`. -/
def castBool (union : Union F) (newType : DataType) : Except Failure (Union F) :=
  match newType with
  | .STRING => .ok { union with tag := newType, s := sprintT union.b, b := false }
  | .FLOAT =>
    let f := if union.b then Float64.ofInt 1 else 0
    .ok { union with tag := newType, f := f, b := false }
  | .INT => .ok { union with tag := newType, i := if union.b then 1 else 0, b := false }
  | .UINT => .ok { union with tag := newType, ui := if union.b then 1 else 0, b := false }
  | _ => .ok union

/-- `castUnionType`: the value that is left when it succeeds. A failure leaves the value as it
was. -/
def castUnionType (union : Union F) (newType : DataType) : Except Failure (Union F) :=
  if union.tag = newType then .ok union
  else
    let union := if newType = .NIL then Union.nil else union
    match union.tag with
    | .STRING => castString union newType
    | .INT => castInt union newType
    | .UINT => castUint union newType
    | .FLOAT => castFloat union newType
    | .BOOL => castBool union newType
    | .NIL => .ok { (Union.nil : Union F) with tag := newType }

/-- The value after `castUnionType` whose error is not looked at. -/
def castInPlace (union : Union F) (newType : DataType) : Union F :=
  match castUnionType union newType with
  | .ok cast => cast
  | .error _ => union

/-- `getResultType`. -/
def getResultType (tag1 tag2 : DataType) : DataType :=
  if tag1 = .STRING ∨ tag2 = .STRING then .STRING
  else if tag1 = .FLOAT ∨ tag2 = .FLOAT then .FLOAT
  else if tag1 = .INT ∨ tag2 = .INT then .INT
  else if tag1 = .UINT ∨ tag2 = .UINT then .UINT
  else if tag1 = .BOOL ∨ tag2 = .BOOL then .BOOL
  else .NIL

/-- The case of a text in `castValueToUnionType`. -/
def valueToString : Interface F → Union F
  | .string x => .string x
  | .bool x => .string (sprintT x)
  | .int64 x => .string (toString x.toInt)
  | .int x => .string (toString x.toInt)
  | .uint64 x => .string (toString x.toNat)
  | .float64 x => .string (Library.sprintF x)
  | .other => .string ""

/-- The case of a truth value in `castValueToUnionType`. -/
def valueToBool : Interface F → Union F
  | .string x => .bool (decide (x ≠ "false") && decide (x ≠ ""))
  | .uint64 x => .bool (x ≠ 0)
  | .int64 x => .bool (x ≠ 0)
  | .int x => .bool (x ≠ 0)
  | .float64 x => .bool (!Float64.eq x 0)
  | .bool x => .bool x
  | .other => .bool false

/-- The case of a signed integer in `castValueToUnionType`. -/
def valueToInt : Interface F → Union F
  | .string x => .int (parseInt x).1
  | .uint64 x => .int (if x > UInt64.ofNat (2 ^ 63 - 1) then Int64.maxValue else x.toInt64)
  | .int64 x => .int x
  | .int x => .int x
  | .float64 x =>
    if Float64.lt (Float64.ofInt (2 ^ 63 - 1)) x then .int Int64.maxValue
    else if Float64.lt x (Float64.ofInt (-2 ^ 63)) then .int Int64.minValue
    else if Float64.lt x 0 then
      .int (Int64.ofInt (Float64.truncate (-Float64.floor (Float64.abs x))))
    else .int (Int64.ofInt (Float64.truncate (Float64.floor x)))
  | .bool x => .int (if x then 1 else 0)
  | .other => .int 0

/-- The case of an unsigned integer in `castValueToUnionType`. -/
def valueToUint : Interface F → Union F
  | .string x => .uint (parseUint x).1
  | .uint64 x => .uint x
  | .int64 x => .uint (if x < 0 then 0 else x.toUInt64)
  | .int x => .uint (if x < 0 then 0 else x.toUInt64)
  | .float64 x =>
    if Float64.lt x 0 then .uint 0
    else if Float64.lt (Float64.ofInt (2 ^ 64 - 1)) x then .uint (UInt64.ofNat (2 ^ 64 - 1))
    else .uint (UInt64.ofInt (Float64.truncate (Float64.floor x)))
  | .bool x => .uint (if x then 1 else 0)
  | .other => .uint 0

/-- The case of a floating-point number in `castValueToUnionType`. -/
def valueToFloat : Interface F → Union F
  | .string x => .float (Library.parseFloat x).1
  | .uint64 x => .float (Float64.ofInt x.toNat)
  | .int64 x => .float (Float64.ofInt x.toInt)
  | .int x => .float (Float64.ofInt x.toInt)
  | .float64 x => .float x
  | .bool x => .float (if x then Float64.ofInt 1 else 0)
  | .other => .float 0

/-- `castValueToUnionType`. -/
def castValueToUnionType (value : Interface F) (newType : DataType) : Union F :=
  match newType with
  | .STRING => valueToString value
  | .BOOL => valueToBool value
  | .INT => valueToInt value
  | .UINT => valueToUint value
  | .FLOAT => valueToFloat value
  | .NIL => .nil

/-- `unionListsMatch`. -/
def unionListsMatch : List (Union F) → List (Union F) → Bool
  | [], [] => true
  | union1 :: list1, union2 :: list2 => union1.same union2 && unionListsMatch list1 list2
  | _, _ => false

end Values

/-!
## Sequential templates

A sequential template counts from one number to another. Its guard admits counting down, but
the loop only counts up, and the counter wraps. How a number is formatted is a parameter.
-/

/-- A field of a template, as the parser of the configuration finds it. -/
inductive TemplateField where
  | absent
  | int (i : Int64)
  | text (s : String)
  | other

/-- The fields of a sequential template, and whether it names its type. -/
structure TemplateFields where
  typed : Bool
  From : TemplateField
  To : TemplateField
  Step : TemplateField

/-- `from` and `to`: a number or the text of one. -/
def TemplateField.required : TemplateField → Option Int64
  | .int i => some i
  | .text s => if (parseInt s).2 then some (parseInt s).1 else none
  | .absent | .other => none

/-- `step`, which defaults to one. A template without a type is dropped where its step is no
number. -/
def TemplateField.step (typed : Bool) : TemplateField → Option Int64
  | .absent => some 1
  | .int i => some (if i = 0 then 1 else i)
  | .text s =>
    if (parseInt s).2 then some (parseInt s).1 else if typed then some 1 else none
  | .other => if typed then some 1 else none

variable (format : ℤ → String)

/-- The loop of a template, so far as the fuel lasts. -/
def countUp (stop step : Int64) : ℕ → Int64 → Option (List String)
  | 0, _ => none
  | fuel + 1, p =>
    if p ≤ stop then (countUp stop step fuel (p + step)).map (format p.toInt :: ·) else some []

/-- The list of a template. -/
def sequentialList (start stop step : Int64) (fuel : ℕ) : Option (List String) :=
  if (start < stop ∧ step > 0) ∨ (start > stop ∧ step < 0) then countUp format stop step fuel start
  else some []

/-- The list of a template with such fields; nothing where the template is dropped. -/
def TemplateFields.list (fields : TemplateFields) (fuel : ℕ) : Option (Option (List String)) :=
  match fields.From.required, fields.To.required, fields.Step.step fields.typed with
  | some start, some stop, some step => some (sequentialList format start stop step fuel)
  | _, _, _ => none

/-! ## What is asked for -/

/-- The members of the sequence of a start and a step that lie between the start and the end. -/
def members (start stop step : ℤ) : List ℤ :=
  if 0 ≤ (stop - start) * step then
    (List.range (((stop - start).tdiv step).toNat + 1)).map fun i : ℕ => start + i * step
  else []

/-- The loop ends and leaves the members. -/
def Lists (start stop step : Int64) : Prop :=
  ∃ fuel, sequentialList format start stop step fuel =
    some ((members start.toInt stop.toInt step.toInt).map format)

/-- The step points away from the end, or it counts up and the number after the last member is
in range. -/
def CountsUp (start stop step : ℤ) : Prop :=
  (start < stop ∧ step < 0) ∨ (stop < start ∧ 0 < step) ∨
    (start < stop ∧ 0 < step ∧ start + ((stop - start) / step + 1) * step < 2 ^ 63)

/-! ## The loop -/

section Loop

variable {format} {stop step : Int64}

theorem toInt_add_of_lt {p step : Int64} (hpos : 0 ≤ step.toInt)
    (h : p.toInt + step.toInt < 2 ^ 63) : (p + step).toInt = p.toInt + step.toInt := by
  have hp := p.le_toInt
  rw [Int64.toInt_add]
  apply Int.bmod_eq_of_le <;> omega

theorem toInt_add_of_ge {p step : Int64} (h : 2 ^ 63 ≤ p.toInt + step.toInt) :
    (p + step).toInt = p.toInt + step.toInt - 2 ^ 64 := by
  have hp := p.toInt_lt
  have hstep := step.toInt_lt
  rw [Int64.toInt_add, ← Int.sub_bmod_right]
  apply Int.bmod_eq_of_le <;> omega

/-- The loop lists the members where the number after the last one is in range. -/
theorem countUp_lists (hstep : 0 < step.toInt) (n : ℕ) {p : Int64}
    (hlast : p.toInt + n * step.toInt ≤ stop.toInt) (hafter : stop.toInt < p.toInt + (n + 1) * step.toInt)
    (hrange : p.toInt + (n + 1) * step.toInt < 2 ^ 63) :
    countUp format stop step (n + 2) p =
      some ((List.range (n + 1)).map fun i : ℕ => format (p.toInt + i * step.toInt)) := by
  induction n generalizing p with
  | zero =>
    have hnext : (p + step).toInt = p.toInt + step.toInt :=
      toInt_add_of_lt hstep.le (by push_cast at hrange; linarith)
    have hle : p ≤ stop := Int64.le_iff_toInt_le.mpr (by push_cast at hlast; linarith)
    have hgt : ¬ p + step ≤ stop := by
      rw [Int64.le_iff_toInt_le, hnext]
      push_cast at hafter
      linarith
    rw [countUp, if_pos hle, countUp, if_neg hgt]
    simp
  | succ n ih =>
    push_cast at hlast hafter hrange
    have hmul : 0 ≤ (n : ℤ) * step.toInt := by positivity
    have hnext : (p + step).toInt = p.toInt + step.toInt := toInt_add_of_lt hstep.le (by linarith)
    have hle : p ≤ stop := Int64.le_iff_toInt_le.mpr (by linarith)
    have hrest := ih (p := p + step) (by rw [hnext]; linarith) (by rw [hnext]; linarith)
      (by rw [hnext]; linarith)
    rw [countUp, if_pos hle, hrest, Option.map_some, List.range_succ_eq_map (n := n + 1),
      List.map_cons, List.map_map]
    congr 1
    rw [hnext]
    simp only [Nat.cast_zero, zero_mul, add_zero, List.cons.injEq, true_and]
    apply List.map_congr_left
    intro i _
    rw [Function.comp_apply, Nat.cast_succ]
    congr 1
    ring

/-- The loop lists more than the members where it ends after the counter has wrapped. -/
theorem countUp_wraps (hstep : 0 < step.toInt) (n : ℕ) {p : Int64} {fuel : ℕ} {list : List String}
    (hlast : p.toInt + n * step.toInt ≤ stop.toInt)
    (hrange : 2 ^ 63 ≤ p.toInt + (n + 1) * step.toInt)
    (h : countUp format stop step fuel p = some list) : n + 1 < list.length := by
  induction n generalizing p fuel list with
  | zero =>
    push_cast at hlast hrange
    have hle : p ≤ stop := Int64.le_iff_toInt_le.mpr (by linarith)
    have hwrap : (p + step).toInt = p.toInt + step.toInt - 2 ^ 64 := toInt_add_of_ge (by linarith)
    have hagain : p + step ≤ stop := by
      have hlt := step.toInt_lt
      rw [Int64.le_iff_toInt_le, hwrap]
      omega
    rcases fuel with _ | _ | fuel
    · cases h
    · rw [countUp, if_pos hle, countUp] at h
      cases h
    · rw [countUp, if_pos hle, countUp, if_pos hagain, Option.map_map] at h
      obtain ⟨rest, -, rfl⟩ := Option.map_eq_some_iff.mp h
      simp
  | succ n ih =>
    push_cast at hlast hrange
    have hmul : 0 ≤ (n : ℤ) * step.toInt := by positivity
    have hstop := stop.toInt_lt
    have hle : p ≤ stop := Int64.le_iff_toInt_le.mpr (by linarith)
    have hnext : (p + step).toInt = p.toInt + step.toInt := toInt_add_of_lt hstep.le (by linarith)
    cases fuel with
    | zero => cases h
    | succ fuel =>
      rw [countUp, if_pos hle] at h
      obtain ⟨rest, hrest, rfl⟩ := Option.map_eq_some_iff.mp h
      have hlong := ih (by rw [hnext]; linarith) (by rw [hnext]; push_cast; linarith) hrest
      rw [List.length_cons]
      omega

end Loop

/-! ## The template -/

section Template

variable {format} {start stop step : Int64}

/-- A template that counts up has so many members. -/
theorem members_of_lt {start stop step : ℤ} (hlt : start < stop) (hstep : 0 < step) :
    members start stop step = (List.range (((stop - start) / step).toNat + 1)).map fun i : ℕ =>
      start + i * step := by
  have hmul : 0 ≤ (stop - start) * step := mul_nonneg (by omega) hstep.le
  rw [members, if_pos hmul, Int.tdiv_eq_ediv_of_nonneg (by omega)]

/-- The list of a template with a step is right exactly where it does not have to count down,
does not start at its end and does not wrap. -/
theorem lists_iff (hstep : step ≠ 0) :
    Lists format start stop step ↔ CountsUp start.toInt stop.toInt step.toInt := by
  have hne : step.toInt ≠ 0 := fun h => hstep (Int64.toInt_inj.mp h)
  rcases lt_trichotomy start.toInt stop.toInt with hlt | heq | hgt
  · rcases lt_or_gt_of_ne hne with hneg | hpos
    · have hguard : ¬ ((start < stop ∧ step > 0) ∨ (start > stop ∧ step < 0)) := by
        simp only [gt_iff_lt, Int64.lt_iff_toInt_lt, Int64.toInt_zero]
        omega
      have hempty : members start.toInt stop.toInt step.toInt = [] := by
        rw [members, if_neg (not_le.mpr (mul_neg_of_pos_of_neg (by omega) hneg))]
      exact iff_of_true ⟨0, by rw [sequentialList, if_neg hguard, hempty]; rfl⟩
        (Or.inl ⟨hlt, hneg⟩)
    · have hguard : (start < stop ∧ step > 0) ∨ (start > stop ∧ step < 0) :=
        Or.inl ⟨Int64.lt_iff_toInt_lt.mpr hlt, Int64.lt_iff_toInt_lt.mpr hpos⟩
      obtain ⟨n, hn⟩ : ∃ n : ℕ, (stop.toInt - start.toInt) / step.toInt = n :=
        Int.eq_ofNat_of_zero_le (Int.ediv_nonneg (by omega) hpos.le)
      have hmembers := members_of_lt hlt hpos
      have hrem := Int.emod_add_mul_ediv (stop.toInt - start.toInt) step.toInt
      have hremNonneg := Int.emod_nonneg (stop.toInt - start.toInt) hne
      have hremLt := Int.emod_lt_of_pos (stop.toInt - start.toInt) hpos
      rw [hn] at hmembers hrem
      rw [Int.toNat_natCast] at hmembers
      have hlast : start.toInt + n * step.toInt ≤ stop.toInt := by linarith [mul_comm step.toInt n]
      have hafter : stop.toInt < start.toInt + (n + 1) * step.toInt := by
        linarith [mul_comm step.toInt n]
      have hcounts : CountsUp start.toInt stop.toInt step.toInt ↔
          start.toInt + (n + 1) * step.toInt < 2 ^ 63 := by
        rw [CountsUp, hn]
        omega
      rw [hcounts, Lists, hmembers]
      simp only [sequentialList, if_pos hguard]
      constructor
      · rintro ⟨fuel, hfuel⟩
        by_contra hrange
        have hlong := countUp_wraps hpos n hlast (not_lt.mp hrange) hfuel
        simp at hlong
      · intro hrange
        refine ⟨n + 2, ?_⟩
        rw [countUp_lists hpos n hlast hafter hrange, List.map_map]
        rfl
  · have hguard : ¬ ((start < stop ∧ step > 0) ∨ (start > stop ∧ step < 0)) := by
      simp only [gt_iff_lt, Int64.lt_iff_toInt_lt]
      omega
    refine iff_of_false ?_ ?_
    · rintro ⟨fuel, hfuel⟩
      rw [sequentialList, if_neg hguard, heq, members, sub_self, zero_mul, if_pos le_rfl] at hfuel
      simp at hfuel
    · rw [CountsUp]
      omega
  · rcases lt_or_gt_of_ne hne with hneg | hpos
    · have hguard : (start < stop ∧ step > 0) ∨ (start > stop ∧ step < 0) :=
        Or.inr ⟨Int64.lt_iff_toInt_lt.mpr hgt, Int64.lt_iff_toInt_lt.mpr hneg⟩
      have hpass : ¬ start ≤ stop := by
        rw [Int64.le_iff_toInt_le]
        omega
      refine iff_of_false ?_ ?_
      · rintro ⟨fuel, hfuel⟩
        have hmul : 0 ≤ (stop.toInt - start.toInt) * step.toInt :=
          mul_nonneg_of_nonpos_of_nonpos (by omega) hneg.le
        rw [sequentialList, if_pos hguard, members, if_pos hmul] at hfuel
        cases fuel with
        | zero => cases hfuel
        | succ fuel =>
          rw [countUp, if_neg hpass] at hfuel
          simp at hfuel
      · rw [CountsUp]
        omega
    · have hguard : ¬ ((start < stop ∧ step > 0) ∨ (start > stop ∧ step < 0)) := by
        simp only [gt_iff_lt, Int64.lt_iff_toInt_lt, Int64.toInt_zero]
        omega
      have hempty : members start.toInt stop.toInt step.toInt = [] := by
        rw [members, if_neg (not_le.mpr (mul_neg_of_neg_of_pos (by omega) hpos))]
      exact iff_of_true ⟨0, by rw [sequentialList, if_neg hguard, hempty]; rfl⟩
        (Or.inr (Or.inl ⟨hgt, hpos⟩))

/-- The same of the list that the fields of a template ask for. -/
theorem template_lists_iff (format : ℤ → String) (fields : TemplateFields)
    (hstart : fields.From.required = some start) (hstop : fields.To.required = some stop)
    (hstep : fields.Step.step fields.typed = some step) (hne : step ≠ 0) :
    (∃ fuel, fields.list format fuel =
      some (some ((members start.toInt stop.toInt step.toInt).map format))) ↔
    CountsUp start.toInt stop.toInt step.toInt := by
  rw [← @lists_iff format _ _ _ hne, Lists]
  simp only [TemplateFields.list, hstart, hstop, hstep, Option.some.injEq]

/-- Counting from one to three. -/
theorem template_lists_iff_three :
    (∃ fuel, (TemplateFields.mk true (.int 1) (.text "3") .absent).list toString fuel =
      some (some ((members 1 3 1).map toString))) ↔ CountsUp 1 3 1 :=
  @template_lists_iff 1 3 1 toString ⟨true, .int 1, .text "3", .absent⟩ rfl (by decide +kernel)
    rfl (by decide)

/-- Counting down from three to one leaves nothing. -/
theorem template_lists_fails :
    ¬ ∃ fuel, (TemplateFields.mk true (.int 3) (.int 1) (.int (-1))).list toString fuel =
      some (some ((members 3 1 (-1)).map toString)) := by
  rintro ⟨fuel, hfuel⟩
  have hlist : sequentialList toString 3 1 (-1) fuel = some ((members 3 1 (-1)).map toString) :=
    Option.some.inj hfuel
  cases fuel with
  | zero => cases hlist
  | succ fuel =>
    have hempty : sequentialList toString 3 1 (-1) (fuel + 1) = some [] := rfl
    rw [hempty] at hlist
    exact absurd hlist (by decide +kernel)

end Template

end HybridOs.GoMetrics
