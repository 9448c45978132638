import HybridOs.GoMetricsWindow
import HybridOs.GoText

/-!
# Expressions of metrics

The syntax that Go's parser yields for an expression, with the text of the source at each
node, and the functions that an expression may call, in the order of the evaluator.
-/

namespace HybridOs.GoMetrics

/-- The tokens of operators and of literals. -/
inductive Token where
  | ADD | SUB | MUL | QUO | REM
  | AND | OR | XOR | SHL | SHR | AND_NOT
  | LAND | LOR | EQL | LSS | GTR | NEQ | LEQ | GEQ | NOT
  | INT | FLOAT | STRING
  | other (text : String)
  deriving DecidableEq

/-- A node of an expression. A call has the address of its node. -/
inductive Node where
  | ident (name : String)
  | callExpr (text : String) (address : ℕ) (fn : Node) (args : List Node)
  | binaryExpr (text : String) (x : Node) (op : Token) (y : Node)
  | parenExpr (text : String) (x : Node)
  | unaryExpr (text : String) (op : Token) (x : Node)
  | basicLit (kind : Token) (value : String)
  | selectorExpr (text : String) (x : Node) (sel : String)
  | other (text : String)

/-- The name of an identifier. -/
def Node.identName : Node → Option String
  | .ident name => some name
  | _ => none

variable {F : Type}

/-- A value in a list of its own, with the error beside it. -/
def single (returned : Returned (Union F)) : Returned (List (Union F)) :=
  ([returned.1], returned.2)

/-- The functions that keep a state. -/
inductive StateFunction where
  | integrate
  | srff
  | pulse
  | maxOverTimescale
  | minOverTimescale
  | avgOverTimescale
  | sumOverTimescale
  | valueChanged
  | valueChangedOverTimescale
  | duration
  deriving DecidableEq

/-- What a function gets beside the number of arguments and their values. -/
inductive FunctionCall (F : Type) where
  | plain (call : ℕ → List (Union F) → Option (Returned (List (Union F))))
  | timed (call : Clock → List (Union F) → Option (Returned (List (Union F))))
  | stateful (function : StateFunction)

/-- A function that an expression may call. -/
structure Function (F : Type) where
  names : List String
  /-- The numbers of arguments that it is called with. -/
  accepts : ℕ → Bool
  /-- The error for any other number of arguments. -/
  countError : String
  call : FunctionCall F

/-- The beginning of most errors for a number of arguments. -/
def countErrorFor (name : String) : String := "incorrect number of arguments for " ++ name

/-! ## Calls with values -/

/-- `result, err = f(argVals...)`. -/
def FunctionCall.variadic (f : List (Union F) → Returned (Union F)) : FunctionCall F :=
  .plain fun _ argVals => some (single (f argVals))

/-- `return f(argVals...)`. -/
def FunctionCall.lists (f : List (Union F) → Returned (List (Union F))) : FunctionCall F :=
  .plain fun _ argVals => some (f argVals)

/-- `result, err = f(argVals[0])`. -/
def FunctionCall.unary (f : Union F → Returned (Union F)) : FunctionCall F :=
  .plain fun _ argVals => argVals[0]?.map fun arg => single (f arg)

/-- `result, err = f(argVals[0], argVals[1])`. -/
def FunctionCall.binary (f : Union F → Union F → Returned (Union F)) : FunctionCall F :=
  .plain fun _ argVals => do
    let arg1 ← argVals[0]?
    let arg2 ← argVals[1]?
    return single (f arg1 arg2)

/-- `result, err = f(argVals[0], argVals[1:]...)`. -/
def FunctionCall.headed (f : Union F → List (Union F) → Returned (Union F)) : FunctionCall F :=
  .plain fun _ argVals => argVals[0]?.map fun arg => single (f arg argVals.tail)

/-- `f(argVals[0], argVals[1], argVals[2:]...)`. -/
def FunctionCall.compares (f : Union F → Union F → List (Union F) → Returned (List (Union F))) :
    FunctionCall F :=
  .plain fun _ argVals => do
    let operator ← argVals[0]?
    let reference ← argVals[1]?
    return f operator reference (argVals.drop 2)

variable [Float64 F]

/-- The value at an index, or a value that stands for an argument that is not there. -/
def argOr (num_args index : ℕ) (missing : Union F) (argVals : List (Union F)) :
    Option (Union F) :=
  if num_args ≤ index then some missing else argVals[index]?

variable [Library F]

/-- The call of `Runtime` with three to seven arguments. -/
def FunctionCall.runtime : FunctionCall F :=
  .plain fun num_args argVals => do
    let chargeEnergy ← argVals[0]?
    let dischargeEnergy ← argVals[1]?
    let powerOutput ← argVals[2]?
    let gain ← argOr num_args 3 (.float (Float64.ofInt 1)) argVals
    let upperLimit ← argOr num_args 4 (.float Float64.maxFloat64) argVals
    let minP ← argOr num_args 5 (.float 0) argVals
    let defaultP ← argOr num_args 6 minP argVals
    return single (GoMetrics.runtime chargeEnergy dischargeEnergy powerOutput gain upperLimit minP
      defaultP)

/-- The call of `Unicompare` with one to three arguments. -/
def FunctionCall.unicompare : FunctionCall F :=
  .plain fun num_args argVals => do
    let base ← argVals[0]?
    let compare ← argOr num_args 1 (.bool false) argVals
    let balance ← argOr num_args 2 (.bool false) argVals
    return single (GoMetrics.unicompare base compare balance)

/-! ## Calls with a state -/

/-- The text of a pointer. -/
def sprintP (address : ℕ) : String := "0x" ++ String.ofList (Nat.toDigits 16 address)

/-- The call of `Integrate` with one to four arguments. -/
def callIntegrate (clock : Clock) (num_args : ℕ) (argVals : List (Union F))
    (state : StateRef F) : Option (Returned (Union F) × StateRef F) := do
  let input ← argVals[0]?
  let timescale ← argOr num_args 1 (.float (Float64.ofInt 1)) argVals
  let minuteReset ← argOr num_args 2 (.int (-1)) argVals
  let minuteOffset ← argOr num_args 3 (.int 0) argVals
  integrate clock input timescale minuteReset minuteOffset state

/-- The call of a function with two arguments and a state. -/
def callWithTwo (f : Union F → Union F → StateRef F → Stateful F) (argVals : List (Union F))
    (state : StateRef F) : Option (Returned (Union F) × StateRef F) := do
  let arg1 ← argVals[0]?
  let arg2 ← argVals[1]?
  f arg1 arg2 state

/-- The call of `Pulse`. -/
def callPulse (clock : Clock) (argVals : List (Union F)) (state : StateRef F) :
    Option (Returned (Union F) × StateRef F) := do
  let trigger ← argVals[0]?
  let reset ← argVals[1]?
  let timeout ← argVals[2]?
  pulse clock trigger reset timeout state

/-- The result of a function with a state as a list of values. -/
def singleStateful (result : Stateful F) : Option (Returned (List (Union F)) × StateRef F) :=
  result.map fun result => (single result.1, result.2)

/-- The call of `Duration`, with its own checks. An error returns no value. -/
def callDuration (clock : Clock) (address : ℕ) (argVals : List (Union F)) (state : StateRef F) :
    Option (Returned (List (Union F)) × StateRef F) :=
  match argVals with
  | [expressionResult, durationArg] =>
    match castUnionType expressionResult .BOOL, castUnionType durationArg .FLOAT with
    | .error _, _ =>
      some (failWith [] "incorrect type of expression for duration function", state)
    | _, .error _ => some (failWith [] "incorrect type of duration for duration function", state)
    | .ok expressionResult, .ok durationArg =>
      (duration clock expressionResult.b durationArg.f (sprintP address) state).map fun result =>
        match result.1.2 with
        | some _ => (failWith [] "failed to evaluate Duration function", result.2)
        | none => (single result.1, result.2)
  | _ =>
    some (([], some (.argumentCount (countErrorFor "duration function"))), state)

/-- The call of a function that keeps a state. -/
def StateFunction.call (function : StateFunction) (clock : Clock) (address num_args : ℕ)
    (argVals : List (Union F)) (state : StateRef F) :
    Option (Returned (List (Union F)) × StateRef F) :=
  match function with
  | .integrate => singleStateful (callIntegrate clock num_args argVals state)
  | .srff => singleStateful (callWithTwo GoMetrics.srff argVals state)
  | .pulse => singleStateful (callPulse clock argVals state)
  | .maxOverTimescale => singleStateful
      (callWithTwo (fun arg1 arg2 => GoMetrics.maxOverTimescale.call arg1 arg2 clock.unixMilli)
        argVals state)
  | .minOverTimescale => singleStateful
      (callWithTwo (fun arg1 arg2 => GoMetrics.minOverTimescale.call arg1 arg2 clock.unixMilli)
        argVals state)
  | .avgOverTimescale => singleStateful
      (callWithTwo (fun arg1 arg2 => GoMetrics.avgOverTimescale.call arg1 arg2 clock.unixMilli)
        argVals state)
  | .sumOverTimescale => singleStateful
      (callWithTwo (fun arg1 arg2 => GoMetrics.sumOverTimescale.call arg1 arg2 clock.unixMilli)
        argVals state)
  | .valueChanged => singleStateful
      (argVals[0]?.bind fun input => GoMetrics.valueChanged input state)
  | .valueChangedOverTimescale => singleStateful
      (callWithTwo
        (fun arg1 arg2 => GoMetrics.valueChangedOverTimescale.call arg1 arg2 clock.unixMilli)
        argVals state)
  | .duration => callDuration clock address argVals state

/-! ## The functions -/

/-- A number of arguments that is not looked at. -/
def anyCount (_ : ℕ) : Bool := true

/-- A number of arguments. -/
def exactly (count num_args : ℕ) : Bool := num_args = count

/-- A least number of arguments. -/
def orMore (count num_args : ℕ) : Bool := count ≤ num_args

/-- A least and a greatest number of arguments. -/
def between (least most num_args : ℕ) : Bool := least ≤ num_args ∧ num_args ≤ most

/-- The arithmetic functions of `evaluateCallExpr`. -/
def arithmeticFunctions : List (Function F) :=
  [⟨["sum", "add"], anyCount, "", .variadic add⟩,
   ⟨["subtract", "sub", "minus"], exactly 2, countErrorFor "subtract function", .binary sub⟩,
   ⟨["mult", "multiply", "product"], anyCount, "", .variadic mult⟩,
   ⟨["scale", "divide", "quo", "quotient", "div"], exactly 2, countErrorFor "divide function",
    .binary div⟩,
   ⟨["mod", "modulus", "modulo"], exactly 2, countErrorFor "mod function", .binary mod⟩,
   ⟨["bitwiseand", "bitwise_and"], anyCount, "", .variadic bitwiseAnd⟩,
   ⟨["bitwiseor", "bitwise_or"], anyCount, "", .variadic bitwiseOr⟩,
   ⟨["bitwisexor", "bitwise_xor"], anyCount, "", .variadic bitwiseXor⟩,
   ⟨["leftshift", "left_shift", "lsh"], exactly 2, countErrorFor "leftshift function",
    .binary leftShift⟩,
   ⟨["rightshift", "right_shift", "rsh"], exactly 2, countErrorFor "rightshift function",
    .binary rightShift⟩,
   ⟨["bitwiseandnot", "bitwise_and_not", "bitwise_andnot"], exactly 2,
    countErrorFor "bitwise &^ function", .binary bitwiseAndNot⟩]

/-- The logical functions of `evaluateCallExpr`. -/
def logicalFunctions : List (Function F) :=
  [⟨["and"], anyCount, "", .variadic and⟩,
   ⟨["or"], anyCount, "", .variadic or⟩,
   ⟨["not"], anyCount, "", .lists not⟩,
   ⟨["eq", "equ", "equal", "equalto", "isequal", "equal_to", "is_equal"], orMore 2,
    countErrorFor "equals function", .variadic equal⟩,
   ⟨["neq", "nequ", "nequal", "notequalto", "notequal", "not_equal_to", "not_equal"], orMore 2,
    countErrorFor "not equals function", .variadic notEqual⟩,
   ⟨["lt", "lessthan", "less_than"], orMore 2, countErrorFor "less than function",
    .variadic lessThan⟩,
   ⟨["gt", "greaterthan", "greater_than"], orMore 2, countErrorFor "greater than function",
    .variadic greaterThan⟩,
   ⟨["lte", "lessthanorequal", "less_than_or_equal"], orMore 2,
    countErrorFor "less than or equal function", .variadic lessThanOrEqual⟩,
   ⟨["gte", "greaterthanorequal", "greater_than_or_equal"], orMore 2,
    countErrorFor "greater than or equal function", .variadic greaterThanOrEqual⟩]

/-- The functions of `evaluateCallExpr` on numbers. The name `pctOf` has a capital letter and is
compared with a name without any. -/
def numberFunctions : List (Function F) :=
  [⟨["root", "rt"], exactly 2, countErrorFor "root function", .binary root⟩,
   ⟨["pow", "power", "exp"], exactly 2, countErrorFor "power function", .binary pow⟩,
   ⟨["max", "maximum"], anyCount, "", .variadic max⟩,
   ⟨["min", "minimum"], anyCount, "", .variadic min⟩,
   ⟨["avg", "average", "mean"], anyCount, "", .variadic avg⟩,
   ⟨["floor"], anyCount, "", .lists floor⟩,
   ⟨["ceil", "ceiling", "ciel", "cieling"], anyCount, "", .lists ceil⟩,
   ⟨["sqrt"], anyCount, "", .lists sqrt⟩,
   ⟨["pct", "pctOf", "percentof", "pct_of", "percent_of"], exactly 2,
    countErrorFor "percent function", .binary pct⟩,
   ⟨["fdiv", "floordiv", "fdivide", "floordivide", "floor_divide"], exactly 2,
    countErrorFor "floor division function", .binary floorDiv⟩,
   ⟨["abs", "absolutevalue", "absolute_value"], anyCount, "", .lists abs⟩,
   ⟨["round"], anyCount, "", .lists round⟩]

/-- The conversions of `evaluateCallExpr`. -/
def conversionFunctions : List (Function F) :=
  [⟨["bool", "boolean"], anyCount, "", .lists bool⟩,
   ⟨["int", "integer"], anyCount, "", .lists int⟩,
   ⟨["uint", "unsigned_int", "unsigned_integer"], anyCount, "", .lists uint⟩,
   ⟨["float"], anyCount, "", .lists float⟩,
   ⟨["string", "str", "tostring"], anyCount, "", .lists string⟩]

/-- The functions of `evaluateCallExpr` that read the clock or keep a state. -/
def timeFunctions : List (Function F) :=
  [⟨["integrate"], between 1 4, countErrorFor "integrate function", .stateful .integrate⟩,
   ⟨["currenttimemilliseconds"], exactly 0,
    "unexpected arguments for CurrentTimeMilliseconds function",
    .timed fun clock _ => some (single (currentTimeMilliseconds clock))⟩,
   ⟨["time"], exactly 0, "unexpected arguments for Time function",
    .timed fun clock _ => some (single (currentTimeMilliseconds clock))⟩,
   ⟨["millisecondssince"], exactly 1, countErrorFor "MillisecondsSince function",
    .timed fun clock argVals => argVals[0]?.map fun arg => single (millisecondsSince clock arg)⟩,
   ⟨["millisecondstorfc3339"], exactly 1, countErrorFor "MillisecondsToRFC3339 function",
    .unary millisecondsToRFC3339⟩,
   ⟨["rfc3339"], exactly 1, countErrorFor "MillisecondsToRFC3339 function",
    .unary millisecondsToRFC3339⟩,
   ⟨["srff"], exactly 2, countErrorFor "srff function", .stateful .srff⟩]

/-- The selections of `evaluateCallExpr`. -/
def selectionFunctions : List (Function F) :=
  [⟨["rss"], anyCount, "", .variadic rss⟩,
   ⟨["selectn"], orMore 2, countErrorFor "select N function", .headed selectN⟩,
   ⟨["enum"], fun num_args => 3 ≤ num_args ∧ (num_args - 1) % 2 = 0,
    countErrorFor "enum function", .headed enum⟩,
   ⟨["selectorn"], orMore 1, countErrorFor "selector N function", .variadic selectorN⟩,
   ⟨["pulse"], exactly 3, countErrorFor "pulse function", .stateful .pulse⟩,
   ⟨["compare"], orMore 3, countErrorFor "compare function", .compares compare⟩,
   ⟨["compareor"], orMore 3, countErrorFor "compareor function",
    .compares fun operator reference args => single (compareOr operator reference args)⟩,
   ⟨["compareand"], orMore 3, countErrorFor "compareand function",
    .compares fun operator reference args => single (compareAnd operator reference args)⟩]

/-- The functions of `evaluateCallExpr` over a window of time. -/
def windowFunctions : List (Function F) :=
  [⟨["maxovertimescale"], exactly 2, countErrorFor "MaxOverTimescale",
    .stateful .maxOverTimescale⟩,
   ⟨["minovertimescale"], exactly 2, countErrorFor "MinOverTimescale",
    .stateful .minOverTimescale⟩,
   ⟨["avgovertimescale"], exactly 2, countErrorFor "AvgOverTimescale",
    .stateful .avgOverTimescale⟩,
   ⟨["sumovertimescale"], exactly 2, countErrorFor "SumOverTimescale",
    .stateful .sumOverTimescale⟩,
   ⟨["valuechanged"], exactly 1, countErrorFor "valueChanged", .stateful .valueChanged⟩,
   ⟨["valuechangedovertimescale"], exactly 2, countErrorFor "ValueChangedOverTimescale",
    .stateful .valueChangedOverTimescale⟩]

/-- The remaining functions of `evaluateCallExpr`. -/
def furtherFunctions : List (Function F) :=
  [⟨["quadtosigned"], exactly 1, countErrorFor "QuadToSigned", .unary quadToSigned⟩,
   ⟨["signedtoquad"], exactly 1, countErrorFor "SignedToQuad", .unary signedToQuad⟩,
   ⟨["runtime"], between 3 7, countErrorFor "runtime function", .runtime⟩,
   ⟨["unicompare"], between 1 3, countErrorFor "unicompare function", .unicompare⟩,
   ⟨["count"], anyCount, "", .variadic count⟩,
   ⟨["combinebits"], anyCount, "", .variadic combineBits⟩,
   ⟨["in"], orMore 2, countErrorFor "In function", .headed isIn⟩,
   ⟨["duration"], anyCount, "", .stateful .duration⟩]

/-- The functions of `evaluateCallExpr`. -/
def functions : List (Function F) :=
  arithmeticFunctions ++ logicalFunctions ++ numberFunctions ++ conversionFunctions ++
    timeFunctions ++ selectionFunctions ++ windowFunctions ++ furtherFunctions

/-- The function that a name without capital letters stands for. -/
def functionNamed (name : String) : Option (Function F) :=
  functions.find? fun function => name ∈ function.names

/-- The names of the conditional. -/
def ifNames : List String :=
  ["if", "ifthen", "ifelse", "ifthenelse", "if_then", "if_else", "if_then_else"]

/-- The operation of a binary operator. -/
def Token.binaryOperation : Token → Option (Union F → Union F → Returned (Union F))
  | .ADD => some fun l r => add [l, r]
  | .SUB => some sub
  | .MUL => some fun l r => mult [l, r]
  | .QUO => some div
  | .REM => some mod
  | .AND => some fun l r => bitwiseAnd [l, r]
  | .OR => some fun l r => bitwiseOr [l, r]
  | .XOR => some fun l r => bitwiseXor [l, r]
  | .SHL => some leftShift
  | .SHR => some rightShift
  | .AND_NOT => some bitwiseAndNot
  | .LAND => some fun l r => and [l, r]
  | .LOR => some fun l r => or [l, r]
  | .EQL => some fun l r => equal [l, r]
  | .LSS => some fun l r => lessThan [l, r]
  | .GTR => some fun l r => greaterThan [l, r]
  | .NEQ => some fun l r => notEqual [l, r]
  | .LEQ => some fun l r => lessThanOrEqual [l, r]
  | .GEQ => some fun l r => greaterThanOrEqual [l, r]
  | _ => none

/-!
## The evaluation of expressions

The evaluator goes over the nodes of an expression and hands a state through. What it asks of
the state, the calls of functions that keep a state and the messages of subexpressions, is
gathered in a machine, so that one evaluator runs on the state of a metric and on others.
-/

variable {F S : Type}

/-- The values of the inputs, `InputScope`. -/
abbrev InputScope (F : Type) := String → Option (List (Union F))

/-- What an evaluation does to a state: values, an error and the state after it, or nothing where
it does not return. -/
abbrev Evaluation (F S : Type) := S → Option (Returned (List (Union F)) × S)

/-- What the evaluator asks of a state. -/
structure Machine (F S : Type) where
  call : StateFunction → ℕ → ℕ → List (Union F) → Evaluation F S
  /-- `trackActiveSubexpressions` for the text of a node and its values. -/
  track : String → List (Union F) → S → Option (Option Failure × S)

namespace Evaluation

/-- An evaluation that leaves the state as it is. -/
def returns (returned : Returned (List (Union F))) : Evaluation F S := fun state =>
  some (returned, state)

/-- An evaluation that fails without values. -/
def fails (failure : Failure) : Evaluation F S := returns ([], some failure)

/-- An evaluation, and another one with its values where it does not fail. -/
def thenWith (first : Evaluation F S) (next : List (Union F) → Evaluation F S) :
    Evaluation F S := fun state =>
  match first state with
  | none => none
  | some ((_, some err), state) => some (([], some err), state)
  | some ((values, none), state) => next values state

/-- An evaluation, and another one with its values and its error. -/
def andThen (first : Evaluation F S) (next : Returned (List (Union F)) → Evaluation F S) :
    Evaluation F S := fun state =>
  match first state with
  | none => none
  | some (returned, state) => next returned state

/-- The evaluation of an operand, which has one value. -/
def operand (name : String) (first : Evaluation F S) (next : Union F → Evaluation F S) :
    Evaluation F S :=
  first.thenWith fun values =>
    match values with
    | [] => fails (.other (name ++ " has length 0"))
    | [value] => next value
    | _ => fails (.other (name ++ " has more than one element"))

/-- The values of the arguments of a function, one list after the other. -/
def arguments : List (Evaluation F S) → (List (Union F) → Evaluation F S) → Evaluation F S
  | [], next => next []
  | arg :: args, next =>
    arg.thenWith fun vals => arguments args fun argVals => next (vals ++ argVals)

end Evaluation

variable [Float64 F]

/-! ## Identifiers, literals and operators -/

/-- The values of a variable of the scope. -/
def evaluateVariable (scope : InputScope F) (name : String) : Returned (List (Union F)) :=
  match scope name with
  | none => ([], some (.other ("could not find variable " ++ name ++ " in Scope")))
  | some [] => ([.nil], none)
  | some values => (values, none)

/-- `evaluateIdent`. -/
def evaluateIdent (scope : InputScope F) (name : String) : Returned (List (Union F)) :=
  if name = "true" then ([.bool true], none)
  else if name = "false" then ([.bool false], none)
  else if name = "nil" then ([.nil], none)
  else evaluateVariable scope name

/-- `evaluateSelector`: only an identifier may stand before the selector. -/
def evaluateSelector (scope : InputScope F) (x : Node) (sel : String) : Evaluation F S :=
  match x.identName with
  | none => fun _ => none
  | some name => .returns (evaluateVariable scope (name ++ "@" ++ sel))

/-- Whether an operator may stand beside texts. -/
def Token.takesStrings (op : Token) (lValue rValue : Union F) : Bool :=
  if lValue.tag = .STRING ∧ rValue.tag = .STRING then
    op ∈ [.ADD, .EQL, .LSS, .GTR, .NEQ, .LEQ, .GEQ, .LAND, .LOR]
  else op ∈ [.ADD, .EQL, .NEQ, .LAND, .LOR]

variable [Library F]

/-- A text without its quotation marks. -/
def withoutQuotes (text : String) : String :=
  String.ofList (text.toList.filter fun c => c ≠ Char.ofNat 34)

/-- `evaluateBasicLit`. -/
def evaluateBasicLit (kind : Token) (value : String) : Returned (List (Union F)) :=
  match kind with
  | .INT =>
    if (parseInt value).2 then ([.int (parseInt value).1], none)
    else ([], some (.other "strconv.ParseInt"))
  | .FLOAT =>
    let parsed := (Library.parseFloat value : F × Bool)
    if parsed.2 then ([.float parsed.1], none) else ([], some (.other "strconv.ParseFloat"))
  | .STRING => ([.string (withoutQuotes value)], none)
  | _ => ([], some (.other "error evaluating ast.BasicLit"))

/-- The value of a binary operation. -/
def binaryValue (op : Token) (lValue rValue : Union F) : Returned (List (Union F)) :=
  if (lValue.tag = .STRING ∨ rValue.tag = .STRING) ∧ op.takesStrings lValue rValue = false then
    ([], some (.other "cannot perform binary operation on strings"))
  else
    let operation : Option (Union F → Union F → Returned (Union F)) := op.binaryOperation
    match operation with
    | some operation => single (operation lValue rValue)
    | none => ([.nil], some (.unsupported "unsupported binary operation"))

/-- `evaluateBinary`. -/
def evaluateBinary (op : Token) (x y : Evaluation F S) : Evaluation F S :=
  x.operand "left operand of binary expression" fun lValue =>
    y.operand "right operand of binary expression" fun rValue =>
      .returns (binaryValue op lValue rValue)

/-- The value of a unary operation. -/
def unaryValue (op : Token) (rValue : Union F) : Returned (List (Union F)) :=
  if rValue.tag = .STRING ∧ op ≠ .NOT then
    ([], some (.other "cannot perform unary operation on string"))
  else
    match op with
    | .NOT => not [rValue]
    | .SUB => single (mult [rValue, .int (-1)])
    | _ => ([.nil], some (.unsupported "unsupported unary operation"))

/-- `evaluateUnary`. -/
def evaluateUnary (op : Token) (x : Evaluation F S) : Evaluation F S :=
  x.operand "operand of unary expression" fun rValue => .returns (unaryValue op rValue)

/-! ## Calls -/

/-- The values that a list of conditions chooses from one list or from the other. -/
def choosePairwise : List (Union F) → List (Union F) → List (Union F) → List (Union F)
  | val :: vals, value1 :: output1, value2 :: output2 =>
    (if val.b then value1 else value2) :: choosePairwise vals output1 output2
  | _, _, _ => []

/-- The values that a list of conditions keeps of a list. -/
def keepPairwise : List (Union F) → List (Union F) → List (Union F)
  | val :: vals, value :: output =>
    if val.b then value :: keepPairwise vals output else keepPairwise vals output
  | _, _ => []

/-- The error of a conditional over lists of different lengths. -/
def pairwiseError : Failure :=
  .other "cannot do variadic pairwise if statement if arguments don't match in size"

/-- A conditional with more than one condition and with two arguments. -/
def ifPairs (vals : List (Union F)) (then_ : Evaluation F S) : Evaluation F S :=
  then_.andThen fun output =>
    if output.1.length ≠ vals.length then .fails pairwiseError
    else .returns (keepPairwise vals output.1, output.2)

/-- A conditional with more than one condition and with three arguments. The error of the first
output is not looked at. -/
def ifElsePairs (vals : List (Union F)) (then_ else_ : Evaluation F S) : Evaluation F S :=
  then_.andThen fun output1 =>
    if output1.1.length ≠ vals.length then .fails pairwiseError
    else else_.andThen fun output2 =>
      if output2.1.length ≠ vals.length then .fails pairwiseError
      else .returns (choosePairwise vals output1.1 output2.1, output2.2)

/-- The call of a function of the list with the values of its arguments. -/
def Function.apply (function : Function F) (machine : Machine F S) (clock : Clock)
    (address num_args : ℕ) (argVals : List (Union F)) : Evaluation F S :=
  if function.accepts num_args then
    match function.call with
    | .plain call => fun state => (call num_args argVals).map fun returned => (returned, state)
    | .timed call => fun state => (call clock argVals).map fun returned => (returned, state)
    | .stateful stateFunction => machine.call stateFunction address num_args argVals
  else .fails (.argumentCount function.countError)

/-- The part of `evaluateCallExpr` after the conditional. -/
def evaluateFunction (machine : Machine F S) (clock : Clock) (name : String) (address : ℕ)
    (args : List (Evaluation F S)) : Evaluation F S :=
  Evaluation.arguments args fun argVals =>
    match functionNamed (Library.toLower F name) with
    | some function => function.apply machine clock address args.length argVals
    | none => .fails (.unrecognizedFunction name)

/-- The part of `evaluateCallExpr` for a conditional. With four arguments and with more than one
condition it goes on as any other call. -/
def evaluateIf (machine : Machine F S) (clock : Clock) (name : String) (address : ℕ)
    (args : List (Evaluation F S)) : Evaluation F S :=
  match args with
  | condition :: then_ :: rest =>
    condition.thenWith fun vals =>
      match vals, rest with
      | [], _ => .fails (.other "no condition given to 'if' statement")
      | [val], [else_] => if val.b then then_ else else_
      | [val], _ => if val.b then then_ else .returns ([], none)
      | _, [] => ifPairs vals then_
      | _, [else_] => ifElsePairs vals then_ else_
      | _, _ => evaluateFunction machine clock name address args
  | _ => .fails (.argumentCount "incorrect number of argments for function evaulation")

/-- `evaluateCallExpr`. -/
def evaluateCallExpr (machine : Machine F S) (clock : Clock) (fn : Node) (address : ℕ)
    (args : List (Evaluation F S)) : Evaluation F S :=
  match fn.identName with
  | none => .fails (.other "could not evaluate")
  | some name =>
    if Library.toLower F name ∈ ifNames then evaluateIf machine clock name address args
    else evaluateFunction machine clock name address args

/-! ## The evaluator -/

/-- An evaluation and the check of its values against the messages. An error of the check is
added to the text of an error before it. -/
def tracked (machine : Machine F S) (text : String) (evaluation : Evaluation F S) :
    Evaluation F S := fun state =>
  match evaluation state with
  | none => none
  | some ((values, err), state) =>
    (machine.track text values state).map fun result => ((values, err.or result.1), result.2)

mutual

/-- The method `evaluate` of an expression. -/
def Node.evaluate (machine : Machine F S) (scope : InputScope F) (clock : Clock) :
    Node → Evaluation F S
  | .ident name => tracked machine name (.returns (evaluateIdent scope name))
  | .callExpr text address fn args =>
    tracked machine text
      (evaluateCallExpr machine clock fn address (Node.evaluations machine scope clock args))
  | .binaryExpr text x op y =>
    tracked machine text
      (evaluateBinary op (x.evaluate machine scope clock) (y.evaluate machine scope clock))
  | .parenExpr text x => tracked machine text (x.evaluate machine scope clock)
  | .unaryExpr text op x => tracked machine text (evaluateUnary op (x.evaluate machine scope clock))
  | .basicLit kind value => tracked machine value (.returns (evaluateBasicLit kind value))
  | .selectorExpr text x sel => tracked machine text (evaluateSelector scope x sel)
  | .other text => tracked machine text (.fails (.unsupported "unsupported node"))

/-- The evaluations of the arguments of a call. -/
def Node.evaluations (machine : Machine F S) (scope : InputScope F) (clock : Clock) :
    List Node → List (Evaluation F S)
  | [] => []
  | arg :: args => arg.evaluate machine scope clock :: Node.evaluations machine scope clock args

end

/-- What `Evaluate` makes of the values of an expression. -/
def orNil (returned : Returned (List (Union F))) : Returned (List (Union F)) :=
  if returned.2.isSome ∨ returned.1 = [] then ([.nil], returned.2) else returned

/-! ## The state of a metric -/

/-- The replacement of variables in braces: the texts between a brace and the next closing one
are names. A variable without a value does not return. -/
def replaceVars (scope : InputScope F) : Option (List Char) → List Char → Option (List Char)
  | none, [] => some []
  | some name, [] => some ('{' :: name)
  | none, c :: rest =>
    if c = '{' then replaceVars scope (some []) rest
    else (replaceVars scope none rest).map fun after => c :: after
  | some name, c :: rest =>
    if c ≠ '}' then replaceVars scope (some (name ++ [c])) rest
    else if name = [] then (replaceVars scope none rest).map fun after => '{' :: '}' :: after
    else
      match scope (String.ofList name) with
      | none => (replaceVars scope none rest).map fun after => '{' :: name ++ '}' :: after
      | some [] => none
      | some (value :: _) =>
        (replaceVars scope none rest).map fun after => (unionValueToString value).toList ++ after

/-- `replaceMessageVarsWithInputValues`. -/
def replaceMessageVarsWithInputValues (scope : InputScope F) (messageString : String) :
    Option String :=
  (replaceVars scope none messageString.toList).map String.ofList

/-- The value and the time of a message that has become active or not active. -/
def setActive (index : ℕ) (message timestamp : String) (active : Bool) (state : State F) :
    Option (State F) := do
  let state ← state.editAt "activeMessages" index fun _ => .string message
  let state ← state.editAt "activeTimestamps" index fun _ => .string timestamp
  state.editAt "valueChanged" index fun value => { value with b := active }

/-- The step of `trackActiveSubexpressions` for a subexpression that is matched. -/
def trackMessage (scope : InputScope F) (clock : Clock) (index : ℕ) (expressionIsTrue : Union F)
    (state : State F) : Option (Option Failure × State F) :=
  match (state.entry "previousExpressionValues")[index]? with
  | none => some (some (.other "failed to get previous expression value"), state)
  | some previous =>
    let updated (state : State F) : Option (Option Failure × State F) :=
      (state.editAt "previousExpressionValues" index fun _ => expressionIsTrue).map fun state =>
        (none, state)
    if previous.tag = .NIL ∨ previous.b ≠ expressionIsTrue.b then
      if (state.entry "activeMessages").length ≤ index ∨
          (state.entry "messageStrings").length ≤ index ∨
          (state.entry "valueChanged").length ≤ index then
        some (some (.other "failed to get active messages"), state)
      else if expressionIsTrue.b then do
        let messageString ← (state.entry "messageStrings")[index]?
        let parsedMsg ← replaceMessageVarsWithInputValues scope messageString.s
        let state ← setActive index parsedMsg (Library.rfc3339 F clock.unixMilli) true state
        updated state
      else (setActive index "" "" false state).bind updated
    else
      (state.editAt "valueChanged" index fun value => { value with b := false }).bind updated

/-- The loop of `trackActiveSubexpressions` over the subexpressions. -/
def trackLoop (scope : InputScope F) (clock : Clock) (text : String) (expressionIsTrue : Union F) :
    ℕ → List (Union F) → State F → Option (Option Failure × State F)
  | _, [], state => some (none, state)
  | index, subexpression :: rest, state =>
    if text = subexpression.s then
      match trackMessage scope clock index expressionIsTrue state with
      | none => none
      | some (some err, state) => some (some err, state)
      | some (none, state) => trackLoop scope clock text expressionIsTrue (index + 1) rest state
    else trackLoop scope clock text expressionIsTrue (index + 1) rest state

/-- `trackActiveSubexpressions` on a map. -/
def trackMap (scope : InputScope F) (clock : Clock) (text : String) (values : List (Union F))
    (state : State F) : Option (Option Failure × State F) :=
  let subexpressions := state.entry "messageExpressions"
  if subexpressions = [] then some (none, state)
  else if subexpressions.length ≠ (state.entry "messageStrings").length then
    some (some (.other "mismatch between message configuration"), state)
  else
    match values with
    | [] => some (none, state)
    | value :: _ =>
      match castUnionType value .BOOL with
      | .error _ => some (some (.other "couldn't determine whether the expression is true"), state)
      | .ok expressionIsTrue => trackLoop scope clock text expressionIsTrue 0 subexpressions state

/-- `trackActiveSubexpressions`. -/
def trackActiveSubexpressions (scope : InputScope F) (clock : Clock) (text : String)
    (values : List (Union F)) (state : StateRef F) : Option (Option Failure × StateRef F) :=
  match state with
  | some (some map) =>
    (trackMap scope clock text values map).map fun result => (result.1, some (some result.2))
  | _ => some (none, state)

/-- The machine of the source, which works on the state of a metric. -/
def stateMachine (scope : InputScope F) (clock : Clock) : Machine F (StateRef F) where
  call function address num_args argVals := function.call clock address num_args argVals
  track := trackActiveSubexpressions scope clock

/-- `Evaluate`. -/
def evaluate (scope : InputScope F) (clock : Clock) (parsed : Node) : Evaluation F (StateRef F) :=
  fun state => (parsed.evaluate (stateMachine scope clock) scope clock state).map fun result =>
    (orNil result.1, result.2)

/-!
## The evaluations of a metric

A metric keeps a state from its configuration on. Every evaluation hands it to the expression,
casts the first value to the type of the metric and writes the values into the state.
-/

/-- `MetricsObject`, as far as its evaluation uses it. -/
structure MetricsObject where
  /-- `ParsedExpression.Ast`. -/
  ast : Node
  /-- `ParsedExpression.String`. -/
  expression : String
  resultType : DataType
  type : DataType
  alert : Bool
  /-- The messages with their expressions, in the order of the state. -/
  messages : List (String × String)

/-- `strings.Contains`. -/
def containsText (text part : String) : Bool := GoText.contains text.toList part.toList

/-- Whether a metric is evaluated without a change of its inputs. -/
def alwaysEvaluate (expression : String) : Bool :=
  ["Integrate", "Time", "Milliseconds", "Pulse", "Duration"].any (containsText expression)

section Evaluations

variable {F : Type} [Float64 F]

/-- The first value of the outputs of a metric. -/
def MetricsObject.outputUnion (metricsObject : MetricsObject) : Union F :=
  { Union.nil with
    tag := if metricsObject.type = .NIL then metricsObject.resultType else metricsObject.type }

/-- The lists of a state for the messages of an alert. -/
def MetricsObject.messageState (metricsObject : MetricsObject) (state : State F) : State F :=
  let messages := metricsObject.messages
  if metricsObject.alert then
    (((((state.put "activeMessages" (messages.map fun _ => .string "")).put "activeTimestamps"
      (messages.map fun _ => .string "")).put "previousExpressionValues"
        (messages.map fun _ => .nil)).put "messageExpressions"
          (messages.map fun message => .string message.1)).put "messageStrings"
            (messages.map fun message => .string message.2)).put "valueChanged"
              (messages.map fun _ => .bool false)
  else state

/-- The state that `configureStateAndOutputs` gives a metric. -/
def MetricsObject.configureState (metricsObject : MetricsObject) : State F :=
  metricsObject.messageState
    ((State.empty.put "alwaysEvaluate" [.bool (alwaysEvaluate metricsObject.expression)]).put
      "value" [metricsObject.outputUnion])

variable [Library F]

/-- The values of an evaluation after the cast to the type of the metric. A cast that fails
leaves the value. -/
def castOutput (originalType : DataType) (returned : Returned (List (Union F))) :
    List (Union F) :=
  match returned with
  | (value :: values, none) =>
    if value.tag ≠ .NIL ∧ originalType ≠ .NIL then castInPlace value originalType :: values
    else value :: values
  | (values, _) => values

/-- The evaluation of a metric in `EvaluateExpressions`: the values with the error, and its
state. -/
def MetricsObject.evaluate (metricsObject : MetricsObject) (scope : InputScope F) (clock : Clock)
    (state : State F) : Option (Returned (List (Union F)) × State F) :=
  match GoMetrics.evaluate scope clock metricsObject.ast (some (some state)) with
  | some (returned, some (some state)) =>
    let outputVals := castOutput metricsObject.type returned
    some ((outputVals, returned.2), state.put "value" outputVals)
  | _ => none

/-- What the evaluations of a metric return, one after another, up to one that does not. -/
def MetricsObject.run (metricsObject : MetricsObject) :
    State F → List (InputScope F × Clock) → List (Returned (List (Union F)))
  | _, [] => []
  | state, (scope, clock) :: steps =>
    match metricsObject.evaluate scope clock state with
    | none => []
    | some (returned, state) => returned :: metricsObject.run state steps

end Evaluations

end HybridOs.GoMetrics
