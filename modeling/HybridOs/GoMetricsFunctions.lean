import HybridOs.GoMetricsUnion

/-!
# Functions of metrics

The functions that compute a value from their arguments alone. Each returns a value and,
where it fails, an error beside it.
-/

namespace HybridOs.GoMetrics

variable {F : Type}

/-- What a function of the source returns. -/
abbrev Returned (α : Type) := α × Option Failure

/-- A function that returns an error. -/
def failWith {α : Type} (value : α) (text : String) : Returned α := (value, some (.other text))

/-- The greatest `int64`. -/
def maxInt64 : Int64 := Int64.maxValue

/-- The least `int64`. -/
def minInt64 : Int64 := Int64.minValue

/-- The greatest `uint64`. -/
def maxUint64 : UInt64 := UInt64.ofNat (2 ^ 64 - 1)

variable [Float64 F] [Library F]

/-- The type of a result over a list of arguments. -/
def resultTypeOf : List (Union F) → DataType
  | [] => .NIL
  | arg :: args =>
    (arg :: args).foldl (fun resultType arg => getResultType arg.tag resultType) arg.tag

/-- Arguments that are cast to a type one after the other, up to a first failure. -/
def castArgs (args : List (Union F)) (newType : DataType) : Except Failure (List (Union F)) :=
  args.mapM fun arg => castUnionType arg newType

/-! ## Addition, subtraction, multiplication and division -/

/-- The loop of `Add` over unsigned integers. -/
def addUint : UInt64 → List (Union F) → Returned (Union F)
  | sum, [] => (.uint sum, none)
  | sum, arg :: args =>
    let arg := castInPlace arg .UINT
    if sum > 0 && arg.ui > maxUint64 - sum then
      failWith .nil "overflow error when attempting to add numbers"
    else addUint (sum + arg.ui) args

/-- The loop of `Add` over signed integers. -/
def addInt : Int64 → List (Union F) → Returned (Union F)
  | sum, [] => (.int sum, none)
  | sum, arg :: args =>
    match castUnionType arg .INT with
    | .error err => (.nil, some err)
    | .ok arg =>
      if sum > 0 && arg.i > maxInt64 - sum then
        failWith .nil "overflow error when attempting to add numbers"
      else if sum < 0 && arg.i < minInt64 - sum then
        failWith .nil "overflow error when attempting to add negative numbers"
      else addInt (sum + arg.i) args

/-- The loop of `Add` over floating-point numbers. -/
def addFloat : F → List (Union F) → Returned (Union F)
  | sum, [] => (.float sum, none)
  | sum, arg :: args =>
    let arg := castInPlace arg .FLOAT
    if Float64.lt 0 sum && Float64.lt (Float64.maxFloat64 - sum) arg.f then
      failWith .nil "overflow error when attempting to add numbers"
    else if Float64.lt sum 0 && Float64.lt arg.f (-Float64.maxFloat64 - sum) then
      failWith .nil "overflow error when attempting to add negative numbers"
    else addFloat (sum + arg.f) args

/-- `Add`. -/
def add (args : List (Union F)) : Returned (Union F) :=
  if args = [] then (.nil, none)
  else
    match resultTypeOf args with
    | .STRING =>
      (.string (args.foldl (fun result arg => result ++ unionValueToString arg) ""), none)
    | .BOOL => (.bool (args.any (·.b)), none)
    | .UINT => addUint 0 args
    | .INT => addInt 0 args
    | .FLOAT => addFloat 0 args
    | .NIL => (.uint 0, none)

/-- `Sub`. -/
def sub (arg1 arg2 : Union F) : Returned (Union F) :=
  match getResultType arg1.tag arg2.tag with
  | .STRING => failWith (.string "") "cannot subtract strings"
  | .BOOL => (.bool (arg1.b != arg2.b), none)
  | .UINT =>
    let arg1 := castInPlace arg1 .UINT
    let arg2 := castInPlace arg2 .UINT
    if arg2.ui > 0 && arg1.ui < arg2.ui then
      if arg2.ui - arg1.ui > UInt64.ofNat (2 ^ 63 - 1) then
        failWith .nil "overflow error when attempting to subtract numbers"
      else (.int (-(arg2.ui - arg1.ui).toInt64), none)
    else (.uint (arg1.ui - arg2.ui), none)
  | .INT =>
    match castUnionType arg1 .INT, castUnionType arg2 .INT with
    | .error err, _ => (.nil, some err)
    | .ok _, .error err => (.nil, some err)
    | .ok arg1, .ok arg2 =>
      if arg2.i > 0 && arg1.i < minInt64 + arg2.i then
        failWith .nil "overflow error when attempting to subtract numbers"
      else if arg2.i < 0 && arg1.i > maxInt64 + arg2.i then
        failWith .nil "overflow error when attempting to subtract numbers"
      else (.int (arg1.i - arg2.i), none)
  | .FLOAT =>
    let arg1 := castInPlace arg1 .FLOAT
    let arg2 := castInPlace arg2 .FLOAT
    if Float64.lt 0 arg2.f && Float64.lt arg1.f (-Float64.maxFloat64 + arg2.f) then
      failWith .nil "overflow error when attempting to subtract numbers"
    else if Float64.lt arg2.f 0 && Float64.lt (Float64.maxFloat64 + arg2.f) arg1.f then
      failWith .nil "overflow error when attempting to subtract numbers"
    else (.float (arg1.f - arg2.f), none)
  | .NIL => failWith .nil "cannot subtract nil values"

/-- The loop of `Mult` over unsigned integers. -/
def multUint : UInt64 → List (Union F) → Returned (Union F)
  | prod, [] => (.uint prod, none)
  | prod, arg :: args =>
    let arg := castInPlace arg .UINT
    if arg.ui > 1 && prod != 0 && arg.ui > maxUint64 / prod then
      failWith .nil "overflow error when attempting to multiply numbers"
    else multUint (prod * arg.ui) args

/-- `math.Abs(float64(i))`. -/
def absFloat (i : Int64) : F := Float64.abs (Float64.ofInt i.toInt)

/-- The loop of `Mult` over signed integers. -/
def multInt : Int64 → List (Union F) → Returned (Union F)
  | prod, [] => (.int prod, none)
  | prod, arg :: args =>
    match castUnionType arg .INT with
    | .error err => (.nil, some err)
    | .ok arg =>
      if Float64.lt (Float64.ofInt 1 : F) (absFloat arg.i) && prod != 0 &&
          Float64.lt (absFloat (maxInt64 / prod) : F) (absFloat arg.i) then
        failWith .nil "overflow error when attempting to multiply numbers"
      else multInt (prod * arg.i) args

/-- The loop of `Mult` over floating-point numbers. -/
def multFloat : F → List (Union F) → Returned (Union F)
  | prod, [] => (.float prod, none)
  | prod, arg :: args =>
    let arg := castInPlace arg .FLOAT
    if Float64.lt (Float64.ofInt 1) (Float64.abs arg.f) && !Float64.eq prod 0 &&
        Float64.lt (Float64.abs (Float64.maxFloat64 / prod)) (Float64.abs arg.f) then
      failWith .nil "overflow error when attempting to multiply numbers"
    else multFloat (prod * arg.f) args

/-- `Mult`. -/
def mult (args : List (Union F)) : Returned (Union F) :=
  if args = [] then (.nil, none)
  else
    match resultTypeOf args with
    | .STRING => failWith (.string "") "cannot multiply strings"
    | .BOOL => (.bool (args.all (·.b)), none)
    | .UINT => multUint 1 args
    | .INT => multInt 1 args
    | .FLOAT => multFloat (Float64.ofInt 1) args
    | .NIL => failWith .nil "cannot multiply nil values"

/-- `Div`. -/
def div (arg1 arg2 : Union F) : Returned (Union F) :=
  match getResultType arg1.tag arg2.tag with
  | .STRING => failWith .nil "cannot divide strings"
  | .BOOL =>
    if !arg2.b then failWith .nil "attempted to divide by 0" else (.bool arg1.b, none)
  | .UINT =>
    let arg1 := castInPlace arg1 .UINT
    let arg2 := castInPlace arg2 .UINT
    if arg2.ui = 0 then failWith .nil "attempted to divide by 0"
    else (.uint (arg1.ui / arg2.ui), none)
  | .INT =>
    match castUnionType arg1 .INT, castUnionType arg2 .INT with
    | .error err, _ => (.nil, some err)
    | .ok _, .error err => (.nil, some err)
    | .ok arg1, .ok arg2 =>
      if arg2.i = 0 then failWith .nil "attempted to divide by 0"
      else (.int (arg1.i / arg2.i), none)
  | .FLOAT =>
    let arg1 := castInPlace arg1 .FLOAT
    let arg2 := castInPlace arg2 .FLOAT
    if Float64.eq arg2.f 0 then failWith .nil "attempted to divide by 0"
    else if Float64.lt (Float64.abs arg2.f) (Float64.ofInt 1) &&
        Float64.lt (Float64.abs (Float64.maxFloat64 * arg2.f)) (Float64.abs arg1.f) then
      failWith .nil "overflow error when attempting to divide numbers"
    else (.float (arg1.f / arg2.f), none)
  | .NIL => failWith .nil "cannot divide nil values"

/-- `Mod`. -/
def mod (arg1 arg2 : Union F) : Returned (Union F) :=
  match getResultType arg1.tag arg2.tag with
  | .STRING => failWith .nil "cannot take modulus of strings"
  | .FLOAT => failWith .nil "cannot take modulus of floats"
  | .BOOL => failWith .nil "cannot take modulus of bools"
  | .INT =>
    match castUnionType arg1 .INT, castUnionType arg2 .INT with
    | .error err, _ => (.nil, some err)
    | .ok _, .error err => (.nil, some err)
    | .ok arg1, .ok arg2 =>
      if arg2.i = 0 then failWith .nil "attempted to divide by 0"
      else (.int (arg1.i % arg2.i), none)
  | resultType =>
    let arg1 := castInPlace arg1 .UINT
    let arg2 := castInPlace arg2 .UINT
    if arg2.ui = 0 then failWith .nil "attempted to divide by 0"
    else ({ (.nil : Union F) with tag := resultType, ui := arg1.ui % arg2.ui }, none)

/-! ## Bits -/

/-- The loop of the bitwise functions over their further arguments. -/
def bitwiseLoop (resultType : DataType) (int : Int64 → Int64 → Int64)
    (uint : UInt64 → UInt64 → UInt64) (bool : Bool → Bool → Bool) :
    Union F → List (Union F) → Returned (Union F)
  | result, [] => (result, none)
  | result, arg :: args =>
    match castUnionType arg resultType with
    | .error err => (.nil, some err)
    | .ok arg =>
      let result :=
        if resultType = .INT then { result with i := int result.i arg.i }
        else if resultType = .UINT then { result with ui := uint result.ui arg.ui }
        else { result with b := bool result.b arg.b }
      bitwiseLoop resultType int uint bool result args

/-- The functions `BitwiseAnd`, `BitwiseOr` and `BitwiseXor`. -/
def bitwise (name : String) (int : Int64 → Int64 → Int64) (uint : UInt64 → UInt64 → UInt64)
    (bool : Bool → Bool → Bool) (args : List (Union F)) : Returned (Union F) :=
  match args with
  | [] => (.nil, none)
  | [arg] => (arg, none)
  | arg :: rest =>
    let resultType := resultTypeOf args
    if resultType = .STRING then
      failWith (.string "") ("cannot take " ++ name ++ " of strings")
    else if resultType = .FLOAT then
      failWith (.float 0) ("cannot take " ++ name ++ " of floats")
    else
      match castUnionType arg resultType with
      | .error err => (.nil, some err)
      | .ok result => bitwiseLoop resultType int uint bool result rest

/-- `BitwiseAnd`. -/
def bitwiseAnd : List (Union F) → Returned (Union F) :=
  bitwise "Bitwise And" (· &&& ·) (· &&& ·) (· && ·)

/-- `BitwiseOr`. -/
def bitwiseOr : List (Union F) → Returned (Union F) :=
  bitwise "Bitwise Or" (· ||| ·) (· ||| ·) (· || ·)

/-- `BitwiseXor`. -/
def bitwiseXor : List (Union F) → Returned (Union F) :=
  bitwise "Bitwise Xor" (· ^^^ ·) (· ^^^ ·) (· != ·)

/-- `1 << mid` as an `int64`. -/
def powerOfTwo (mid : ℕ) : Int64 := Int64.ofInt (2 ^ mid)

/-- The search of `LeftShift` for the most significant bit. -/
def mostSignificantBit (i : Int64) : ℕ → ℤ → ℤ → ℤ → ℤ
  | 0, _, _, msb => msb
  | fuel + 1, L, R, msb =>
    if L ≤ R then
      let mid := (L + R) / 2
      if (i ≥ 0 && powerOfTwo mid.toNat > i) || (i < 0 && powerOfTwo mid.toNat > -i) then
        mostSignificantBit i fuel L (mid - 1) (mid - 1)
      else mostSignificantBit i fuel (mid + 1) R msb
    else msb

/-- `LeftShift`. -/
def leftShift (arg1 arg2 : Union F) : Returned (Union F) :=
  match getResultType arg1.tag arg2.tag with
  | .STRING => failWith (.string "") "cannot take left shift of strings"
  | .FLOAT => failWith (.float 0) "cannot take left shift of floats"
  | .BOOL => failWith (.bool false) "cannot take left shift of two bools"
  | .INT =>
    match castUnionType arg1 .INT with
    | .error err => (.nil, some err)
    | .ok arg1 =>
      if arg1.i = 0 then (.int 0, none)
      else
        match castUnionType arg2 .INT with
        | .error err => (.nil, some err)
        | .ok arg2 =>
          if arg2.i < 0 then
            failWith .nil "cannot perform left shift when right operand is negative"
          else if arg2.i = 0 then (arg1, none)
          else if arg2.i > 62 && arg1.i != -1 then
            failWith .nil "cannot perform left shift when right operand is greater than 63"
          else if arg1.i = minInt64 then
            failWith .nil "performing left shift will overflow int64"
          else if arg1.i = -1 && arg2.i = 63 then (.int minInt64, none)
          else if arg2.i.toInt + mostSignificantBit arg1.i 64 0 63 (-1) > 62 then
            failWith .nil "performing left shift will overflow int64"
          else (.int (Int64.ofInt (arg1.i.toInt * 2 ^ arg2.i.toInt.toNat)), none)
  | resultType =>
    let arg1 := castInPlace arg1 .UINT
    if arg1.ui = 0 then (.uint 0, none)
    else
      let arg2 := castInPlace arg2 .UINT
      if arg2.ui > 63 then
        failWith .nil "cannot perform left shift when right operand is greater than 63"
      else if arg2.ui.toNat + Nat.log2 arg1.ui.toNat > 63 then
        failWith .nil "performing left shift will overflow int64"
      else
        let shifted := UInt64.ofNat (arg1.ui.toNat * 2 ^ arg2.ui.toNat)
        ({ (.nil : Union F) with tag := resultType, ui := shifted }, none)

/-- `RightShift`. -/
def rightShift (arg1 arg2 : Union F) : Returned (Union F) :=
  match getResultType arg1.tag arg2.tag with
  | .STRING => failWith (.string "") "cannot take right shift of strings"
  | .FLOAT => failWith (.float 0) "cannot take right shift of floats"
  | .BOOL => failWith (.bool false) "cannot take right shift of two bools"
  | .INT =>
    match castUnionType arg1 .INT, castUnionType arg2 .INT with
    | .error err, _ => (.nil, some err)
    | .ok _, .error err => (.nil, some err)
    | .ok arg1, .ok arg2 =>
      if arg2.i < 0 then
        failWith .nil "cannot perform right shift when right operand is negative"
      else (.int (Int64.ofInt (arg1.i.toInt / 2 ^ min arg2.i.toInt.toNat 63)), none)
  | resultType =>
    let arg1 := castInPlace arg1 .UINT
    let arg2 := castInPlace arg2 .UINT
    let shifted := UInt64.ofNat (arg1.ui.toNat / 2 ^ min arg2.ui.toNat 64)
    ({ (.nil : Union F) with tag := resultType, ui := shifted }, none)

/-- `BitwiseAndNot`. -/
def bitwiseAndNot (arg1 arg2 : Union F) : Returned (Union F) :=
  match getResultType arg1.tag arg2.tag with
  | .STRING => failWith (.string "") "cannot take bitwise and not of strings"
  | .FLOAT => failWith (.float 0) "cannot take bitwise and not of floats"
  | .INT =>
    match castUnionType arg1 .INT, castUnionType arg2 .INT with
    | .error err, _ => (.nil, some err)
    | .ok _, .error err => (.nil, some err)
    | .ok arg1, .ok arg2 => ({ arg1 with i := arg1.i &&& ~~~arg2.i }, none)
  | .UINT =>
    let arg1 := castInPlace arg1 .UINT
    let arg2 := castInPlace arg2 .UINT
    ({ arg1 with ui := arg1.ui &&& ~~~arg2.ui }, none)
  | _ => ({ arg1 with b := arg1.b && !arg2.b }, none)

/-! ## Logic and comparisons -/

/-- `And`. -/
def and (args : List (Union F)) : Returned (Union F) :=
  if args = [] then (.bool false, none)
  else (.bool (args.all fun arg => (castInPlace arg .BOOL).b), none)

/-- `Or`. -/
def or (args : List (Union F)) : Returned (Union F) :=
  if args = [] then (.bool false, none)
  else (.bool (args.any fun arg => (castInPlace arg .BOOL).b), none)

/-- `Not`. -/
def not (args : List (Union F)) : Returned (List (Union F)) :=
  (args.map fun arg =>
    let arg := castInPlace arg .BOOL
    { arg with b := !arg.b }, none)

/-- What a comparison does with a text beside something else. -/
inductive Mixed where
  | returnFalse
  | holds
  | fails (text : String)

/-- The loop of the comparisons over the neighbours in a list. -/
def compareNeighbours (mixed : Mixed) (strings : String → String → Bool)
    (numbers : F → F → Bool) : Bool → List (Union F) → Returned (Union F)
  | _, arg1 :: arg2 :: rest =>
    if getResultType arg1.tag arg2.tag = .STRING then
      if arg1.tag ≠ .STRING ∨ arg2.tag ≠ .STRING then
        match mixed with
        | .returnFalse => (.bool false, none)
        | .holds => compareNeighbours mixed strings numbers true (arg2 :: rest)
        | .fails text => failWith .nil text
      else if strings arg1.s arg2.s then
        compareNeighbours mixed strings numbers true (arg2 :: rest)
      else (.bool false, none)
    else if numbers (castInPlace arg1 .FLOAT).f (castInPlace arg2 .FLOAT).f then
      compareNeighbours mixed strings numbers true (arg2 :: rest)
    else (.bool false, none)
  | b, _ => (.bool b, none)

/-- The comparisons. -/
def compareWith (single : String) (mixed : Mixed) (strings : String → String → Bool)
    (numbers : F → F → Bool) (args : List (Union F)) : Returned (Union F) :=
  if args.length ≤ 1 then failWith .nil single
  else compareNeighbours mixed strings numbers false args

/-- `Equal`. -/
def equal : List (Union F) → Returned (Union F) :=
  compareWith "cannot compare a single value for equality" .returnFalse
    (fun s1 s2 => s1 = s2) (fun f1 f2 => Float64.eq f1 f2)

/-- `NotEqual`. -/
def notEqual : List (Union F) → Returned (Union F) :=
  compareWith "cannot compare a single value for inequality" .holds
    (fun s1 s2 => s1 ≠ s2) (fun f1 f2 => !Float64.eq f1 f2)

/-- `LessThan`. -/
def lessThan : List (Union F) → Returned (Union F) :=
  compareWith "cannot compare a single value for inequality"
    (.fails "cannot compare string and non-string using < operator")
    (fun s1 s2 => s1 < s2) (fun f1 f2 => Float64.lt f1 f2)

/-- `GreaterThan`. -/
def greaterThan : List (Union F) → Returned (Union F) :=
  compareWith "cannot compare a single value for inequality"
    (.fails "cannot compare string and non-string using > operator")
    (fun s1 s2 => s2 < s1) (fun f1 f2 => Float64.lt f2 f1)

/-- `LessThanOrEqual`. -/
def lessThanOrEqual : List (Union F) → Returned (Union F) :=
  compareWith "cannot compare a single value for inequality"
    (.fails "cannot compare string and non-string using <= operator")
    (fun s1 s2 => ¬ s2 < s1) (fun f1 f2 => Float64.le f1 f2)

/-- `GreaterThanOrEqual`. -/
def greaterThanOrEqual : List (Union F) → Returned (Union F) :=
  compareWith "cannot compare a single value for inequality"
    (.fails "cannot compare string and non-string using >= operator")
    (fun s1 s2 => ¬ s1 < s2) (fun f1 f2 => Float64.le f2 f1)

/-! ## Numbers -/

/-- `Root`. -/
def root (arg1 arg2 : Union F) : Returned (Union F) :=
  if getResultType arg1.tag arg2.tag = .STRING then
    failWith (.string "") "cannot take a root of a string"
  else
    let arg1 := castInPlace arg1 .FLOAT
    let arg2 := castInPlace arg2 .FLOAT
    if Float64.eq arg2.f 0 then failWith .nil "cannot take the 0th root of a number"
    else
      let resultVal := Library.pow arg1.f (Float64.ofInt 1 / arg2.f)
      if Float64.isInf resultVal 0 || Float64.isNaN resultVal then
        failWith .nil "overflow error when finding the root of a number"
      else (.float resultVal, none)

/-- `Pow`. -/
def pow (arg1 arg2 : Union F) : Returned (Union F) :=
  let resultType := getResultType arg1.tag arg2.tag
  if resultType = .STRING then failWith (.string "") "cannot raise a string to a power"
  else
    let resultVal := Library.pow (castInPlace arg1 .FLOAT).f (castInPlace arg2 .FLOAT).f
    if Float64.isInf resultVal 0 || Float64.isNaN resultVal then
      failWith .nil "overflow error when finding the power of a number"
    else (castValueToUnionType (.float64 resultVal) resultType, none)

/-- The loop of `Max` and of `Min`, which begin with an infinity: the argument that is best so
far, and the number it is cast to where one is better than the infinity. -/
def extremumLoop (better : F → F → Bool) (beatsInfinity : F → Bool) (text : String) :
    Option F → Union F → List (Union F) → Returned (Union F)
  | _, chosen, [] => (chosen, none)
  | best, chosen, arg :: args =>
    match castUnionType arg .FLOAT with
    | .error _ => failWith .nil text
    | .ok number =>
      if best.elim (beatsInfinity number.f) (better number.f) then
        extremumLoop better beatsInfinity text (some number.f) arg args
      else extremumLoop better beatsInfinity text best chosen args

/-- `Max`. -/
def max : List (Union F) → Returned (Union F)
  | [] => (.nil, none)
  | arg :: args =>
    extremumLoop (fun f1 f2 => Float64.lt f2 f1)
      (fun f => !Float64.isNaN f && !Float64.isInf f (-1))
      "cannot find the maximum of a list of strings" none arg (arg :: args)

/-- `Min`. -/
def min : List (Union F) → Returned (Union F)
  | [] => (.nil, none)
  | arg :: args =>
    extremumLoop (fun f1 f2 => Float64.lt f1 f2)
      (fun f => !Float64.isNaN f && !Float64.isInf f 1)
      "cannot find the minimum of a list of strings" none arg (arg :: args)

/-- `Avg`. -/
def avg (args : List (Union F)) : Returned (Union F) :=
  match args with
  | [] => (.nil, none)
  | [arg] => (arg, none)
  | _ =>
    let sum := (add args).1
    match sum.tag with
    | .STRING => failWith (.string "") "cannot find the average of a list of strings"
    | .FLOAT => (.float (sum.f / Float64.ofInt args.length), none)
    | .INT => (.int (sum.i / Int64.ofNat args.length), none)
    | .UINT => (.uint (sum.ui / UInt64.ofNat args.length), none)
    | _ => failWith (.bool false) "cannot find the average of a list of bools"

/-- A function that edits the floating-point numbers of a list and rejects texts. -/
def editFloats (text : String) (edit : F → F) (args : List (Union F)) :
    Returned (List (Union F)) :=
  let edited := args.map fun arg => if arg.tag = .FLOAT then { arg with f := edit arg.f } else arg
  if args.any (·.tag = .STRING) then failWith edited text else (edited, none)

/-- `Floor`. -/
def floor : List (Union F) → Returned (List (Union F)) :=
  editFloats "cannot find the floor of a string" Float64.floor

/-- `Ceil`. -/
def ceil : List (Union F) → Returned (List (Union F)) :=
  editFloats "cannot find the ceiling of a string" Float64.ceil

/-- `Round`. -/
def round : List (Union F) → Returned (List (Union F)) :=
  editFloats "cannot round a string" Float64.round

/-- The argument that `Sqrt` leaves in a place, and the error it sets there. -/
def sqrtArg (arg : Union F) : Returned (Union F) :=
  if arg.tag = .STRING then failWith arg "cannot take the square root of a string"
  else
    let number := castInPlace arg .FLOAT
    let resultVal := Library.sqrt number.f
    if Float64.isInf resultVal 0 || Float64.isNaN resultVal then
      failWith arg "overflow error when finding the power of a number"
    else ({ number with f := resultVal }, none)

/-- The argument that `Abs` leaves in a place, and the error it sets there. -/
def absArg (arg : Union F) : Returned (Union F) :=
  match arg.tag with
  | .STRING => failWith .nil "cannot take the absolute value of a string"
  | .INT =>
    if arg.i < 0 then
      if arg.i = minInt64 then failWith .nil "cannot perform type-safe Abs(MinInt64)"
      else ({ arg with i := -arg.i }, none)
    else (arg, none)
  | .FLOAT => ({ arg with f := Float64.abs arg.f }, none)
  | _ => (arg, none)

/-- The argument that a conversion leaves in a place, and the error it sets there. -/
def castArg (newType : DataType) (arg : Union F) : Returned (Union F) :=
  match castUnionType arg newType with
  | .ok cast => (cast, none)
  | .error err => (arg, some err)

/-- A function that edits every argument of a list; the last error stays. -/
def editArgs (edit : Union F → Returned (Union F)) (args : List (Union F)) :
    Returned (List (Union F)) :=
  (args.map fun arg => (edit arg).1, (args.filterMap fun arg => (edit arg).2).getLast?)

/-- `Sqrt`. -/
def sqrt : List (Union F) → Returned (List (Union F)) := editArgs sqrtArg

/-- `Abs`. -/
def abs : List (Union F) → Returned (List (Union F)) := editArgs absArg

/-- `Bool`. -/
def bool (args : List (Union F)) : Returned (List (Union F)) :=
  (args.map fun arg => castInPlace arg .BOOL, none)

/-- `Int`. -/
def int : List (Union F) → Returned (List (Union F)) := editArgs (castArg .INT)

/-- `UInt`. -/
def uint : List (Union F) → Returned (List (Union F)) := editArgs (castArg .UINT)

/-- `Float`. -/
def float : List (Union F) → Returned (List (Union F)) := editArgs (castArg .FLOAT)

/-- `String`. -/
def string (args : List (Union F)) : Returned (List (Union F)) :=
  (args.map fun arg => castInPlace arg .STRING, none)

/-- `Pct`. -/
def pct (arg1 arg2 : Union F) : Returned (Union F) :=
  let resultType := getResultType (getResultType arg1.tag arg2.tag) .UINT
  if resultType = .STRING then failWith .nil "cannot divide strings"
  else
    let arg1 := castInPlace arg1 .FLOAT
    let arg2 := castInPlace arg2 .FLOAT
    if Float64.eq arg2.f 0 then failWith .nil "attempted to divide by 0"
    else if Float64.lt (Float64.abs arg2.f) (Float64.ofInt 1) &&
        Float64.lt (Float64.abs (Float64.maxFloat64 * arg2.f)) (Float64.abs arg1.f) then
      failWith .nil "overflow error when attempting to divide numbers"
    else
      match mult [.float (arg1.f / arg2.f), .uint 100] with
      | (_, some err) => (.nil, some err)
      | (result, none) => castArg resultType result

/-- `FloorDiv`. -/
def floorDiv (arg1 arg2 : Union F) : Returned (Union F) :=
  match div arg1 arg2 with
  | (result, some err) => (result, some err)
  | (result, none) => ({ result with f := Float64.floor result.f }, none)

/-- The loop of `Rss`. -/
def rssLoop : F → List (Union F) → Returned (Union F)
  | sum, [] => (.float (Library.sqrt sum), none)
  | sum, arg :: args =>
    let arg := castInPlace arg .FLOAT
    if Float64.lt (Float64.ofInt 1) (Float64.abs arg.f) &&
        Float64.lt (Float64.abs (Float64.maxFloat64 / arg.f)) (Float64.abs arg.f) then
      failWith .nil "overflow error when attempting to multiply numbers"
    else if Float64.lt 0 sum && Float64.lt (Float64.maxFloat64 - sum) (arg.f * arg.f) then
      failWith .nil "overflow error when attempting to add numbers"
    else rssLoop (sum + arg.f * arg.f) args

/-- `Rss`. -/
def rss (args : List (Union F)) : Returned (Union F) :=
  if args = [] then (.nil, none)
  else if resultTypeOf args = .STRING then
    failWith .nil "cannot take residual sum of squares on strings"
  else rssLoop 0 args

/-! ## Selections -/

/-- `SelectN`. -/
def selectN (input : Union F) (enumNames : List (Union F)) : Returned (Union F) :=
  match castUnionType input .UINT with
  | .error err => (.nil, some err)
  | .ok input =>
    if input.ui.toNat = 0 then failWith .nil "invalid value for selectN"
    else
      match enumNames[input.ui.toNat - 1]? with
      | some name => (name, none)
      | none => failWith .nil "invalid value for selectN"

/-- The loop of `Enum` over pairs of a value and a name. -/
def enumLoop (input : Union F) : List (Union F) → Union F
  | value :: name :: rest => if (equal [input, value]).1.b then name else enumLoop input rest
  | _ => .string "Unknown"

/-- `Enum`. -/
def enum (input : Union F) (enumNames : List (Union F)) : Returned (Union F) :=
  match castUnionType input .INT with
  | .error err => (.nil, some err)
  | .ok input =>
    if enumNames.length % 2 ≠ 0 then failWith .nil "enum function requires 2n + 1 arguments"
    else (enumLoop input enumNames, none)

/-- `SelectorN`. -/
def selectorN (args : List (Union F)) : Returned (Union F) :=
  if args = [] then failWith .nil "selectoLetr N requires at least one argument"
  else
    match args.findIdx? fun arg => (castInPlace arg .BOOL).b with
    | some i => (.int (Int64.ofNat (i + 1)), none)
    | none => (.int (-1), none)

/-- The comparison that an operator of `Compare` names. -/
def comparisonOf : String → Option (List (Union F) → Returned (Union F))
  | "==" => some equal
  | "!=" => some notEqual
  | "<" => some lessThan
  | ">" => some greaterThan
  | "<=" => some lessThanOrEqual
  | ">=" => some greaterThanOrEqual
  | _ => none

/-- The loop of `Compare` over its arguments. -/
def compareLoop (comparison : List (Union F) → Returned (Union F)) (reference : Union F) :
    List (Union F) → Returned (List (Union F))
  | [] => ([], none)
  | arg :: args =>
    match comparison [arg, reference] with
    | (_, some err) => ([], some err)
    | (result, none) =>
      match compareLoop comparison reference args with
      | (_, some err) => ([], some err)
      | (results, none) => (result :: results, none)

/-- `Compare`. -/
def compare (operator reference : Union F) (args : List (Union F)) :
    Returned (List (Union F)) :=
  if operator.tag ≠ .STRING then
    failWith [] "comparison operator for Compare must be entered as a string"
  else
    match comparisonOf operator.s with
    | none => failWith [] ("unrecognized comparison operator " ++ operator.s)
    | some comparison => compareLoop comparison reference args

/-- The loop of `CompareOr` and of `CompareAnd`, which leaves at a first result and keeps the
arguments after it. -/
def compareUntil (leaves : Bool) (comparison : List (Union F) → Returned (Union F))
    (reference : Union F) : List (Union F) → Except Failure (List (Union F))
  | [] => .ok []
  | arg :: args =>
    match comparison [arg, reference] with
    | (_, some err) => .error err
    | (result, none) =>
      if result.b = leaves then .ok (result :: args)
      else
        match compareUntil leaves comparison reference args with
        | .error err => .error err
        | .ok results => .ok (result :: results)

/-- `CompareOr` and `CompareAnd`. -/
def compareFold (name : String) (leaves : Bool)
    (fold : List (Union F) → Returned (Union F)) (operator reference : Union F)
    (args : List (Union F)) : Returned (Union F) :=
  if operator.tag ≠ .STRING then
    failWith .nil ("comparison operator for " ++ name ++ " must be entered as a string")
  else
    match comparisonOf operator.s with
    | none => failWith .nil ("unrecognized comparison operator " ++ operator.s)
    | some comparison =>
      match compareUntil leaves comparison reference args with
      | .error err => (.nil, some err)
      | .ok results => fold results

/-- `CompareOr`. -/
def compareOr : Union F → Union F → List (Union F) → Returned (Union F) :=
  compareFold "CompareOr" true or

/-- `CompareAnd`. -/
def compareAnd : Union F → Union F → List (Union F) → Returned (Union F) :=
  compareFold "CompareAnd" false and

/-! ## Further functions -/

/-- `QuadToSigned`. -/
def quadToSigned (arg : Union F) : Returned (Union F) :=
  if arg.tag = .STRING ∨ arg.tag = .NIL then
    failWith .nil "cannot convert string to signed power factor"
  else
    let f := (castInPlace arg .FLOAT).f
    if Float64.lt f 0 || Float64.le (Float64.ofInt 4) f then (.float 0, none)
    else if Float64.lt f (Float64.ofInt 1) then (.float f, none)
    else if Float64.lt f (Float64.ofInt 2) then (.float (-(f - Float64.ofInt 1)), none)
    else if Float64.lt f (Float64.ofInt 3) then (.float (f - Float64.ofInt 2), none)
    else (.float (-(f - Float64.ofInt 3)), none)

/-- `SignedToQuad`. -/
def signedToQuad (arg : Union F) : Returned (Union F) :=
  if arg.tag = .STRING ∨ arg.tag = .NIL then
    failWith .nil "cannot convert string to signed power factor"
  else
    let f := (castInPlace arg .FLOAT).f
    if Float64.le f (Float64.ofInt (-1)) then (.float (Float64.ofInt (-1)), none)
    else if Float64.lt f 0 then (.float (Float64.ofInt 1 - f), none)
    else if Float64.lt f (Float64.ofInt 1) then (.float f, none)
    else (.float (Float64.ofInt 1), none)

/-- What `Runtime` returns for arguments that are cast. -/
def runtimeOf (chargeEnergy dischargeEnergy powerOutput gain : Union F) (upperLimit : Union F)
    (minP defaultP : Union F) : Union F :=
  if Float64.eq powerOutput.f 0 then upperLimit
  else if Float64.le (Float64.abs powerOutput.f) minP.f then
    if Float64.eq defaultP.f 0 then upperLimit
    else .float (Library.min ((gain.f * dischargeEnergy.f) / defaultP.f) upperLimit.f)
  else if Float64.lt 0 powerOutput.f then
    .float (Library.min ((gain.f * dischargeEnergy.f) / powerOutput.f) upperLimit.f)
  else .float (Library.min ((gain.f * chargeEnergy.f) / -powerOutput.f) upperLimit.f)

/-- `Runtime`. -/
def runtime (chargeEnergy dischargeEnergy powerOutput gain upperLimit minP defaultP : Union F) :
    Returned (Union F) :=
  match castArgs [chargeEnergy, dischargeEnergy, powerOutput, gain, upperLimit, minP, defaultP]
      .FLOAT with
  | .ok [chargeEnergy, dischargeEnergy, powerOutput, gain, upperLimit, minP, defaultP] =>
    (runtimeOf chargeEnergy dischargeEnergy powerOutput gain upperLimit minP defaultP, none)
  | .ok _ => (.nil, none)
  | .error err => (.nil, some err)

/-- What `Unicompare` returns for arguments that are cast. -/
def unicompareOf (resultType : DataType) (base compare balance : Union F) :
    Returned (Union F) :=
  match resultType with
  | .BOOL =>
    if !base.b then (base, none)
    else if balance.b then (.bool (base.b && !compare.b), none)
    else (compare, none)
  | .UINT =>
    if compare.ui > base.ui then
      if balance.b then (.uint 0, none) else (base, none)
    else if balance.b then (.uint (base.ui - compare.ui), none)
    else (.uint compare.ui, none)
  | .INT =>
    let base := if base.i < 0 then { base with i := 0 } else base
    if compare.i > base.i then
      if balance.b then (.int 0, none) else (base, none)
    else if balance.b then (.int (base.i - compare.i), none)
    else (.int compare.i, none)
  | .FLOAT =>
    let base := if Float64.lt base.f 0 then { base with f := 0 } else base
    if Float64.lt base.f compare.f then
      if balance.b then (.float 0, none) else (base, none)
    else if balance.b then (.float (base.f - compare.f), none)
    else (.float compare.f, none)
  | _ => failWith .nil "cannot perform unicompare on NIL unions"

/-- `Unicompare`. -/
def unicompare (base compare balance : Union F) : Returned (Union F) :=
  let resultType := getResultType base.tag compare.tag
  if resultType = .STRING then failWith .nil "cannot perform unicompare on strings"
  else
    match castUnionType base resultType, castUnionType compare resultType with
    | .error err, _ => (.nil, some err)
    | .ok _, .error err => (.nil, some err)
    | .ok base, .ok compare => unicompareOf resultType base compare (castInPlace balance .BOOL)

/-- `Count`. -/
def count (argVals : List (Union F)) : Returned (Union F) :=
  match argVals with
  | [arg] => if arg.tag = .NIL then (.uint 0, none) else (.uint 1, none)
  | _ => (.uint (UInt64.ofNat argVals.length), none)

/-- The step of `CombineBits` for a value. -/
def combineBit (bits : UInt64) (val : Union F) : UInt64 :=
  if val.tag = .STRING || val.tag = .NIL || Float64.lt val.f 0 || val.i < 0 then bits
  else
    let val := castInPlace val .UINT
    if val.ui < 64 && bits < maxUint64 - val.ui then
      bits + UInt64.ofNat (2 ^ val.ui.toNat)
    else bits

/-- `CombineBits`. -/
def combineBits (argVals : List (Union F)) : Returned (Union F) :=
  (.uint (argVals.foldl combineBit 0), none)

/-- `In`. -/
def isIn (compareVal : Union F) (argVals : List (Union F)) : Returned (Union F) :=
  if compareVal.tag = .NIL then
    failWith .nil "In() function requires the first argument to be a non-null entry"
  else (.bool (argVals.any fun val => compareVal.same val), none)

end HybridOs.GoMetrics
