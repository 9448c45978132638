import Mathlib.Algebra.Ring.Int.Defs
import Mathlib.Algebra.Ring.Nat

/-!
# Values of the empty interface

The values that decoding a JSON text into an empty interface gives, together with the
integers that a program casts numbers to. A floating-point number is its 64-bit pattern.
-/

namespace HybridOs

/-- A value of the empty interface. -/
inductive GoValue where
  /-- The nil interface, JSON's null. -/
  | nil
  /-- A `float64`, by its bit pattern. -/
  | float64 (bits : UInt64)
  /-- An `int`. -/
  | int (n : ℤ)
  | bool (b : Bool)
  | string (s : String)
  /-- A `[]interface{}`. -/
  | slice (elems : List GoValue)
  /-- A `map[string]interface{}`, as its entries. -/
  | map (entries : List (String × GoValue))
  deriving Repr

namespace GoValue

/-- The exponent field of a 64-bit pattern. -/
def exponentBits (bits : UInt64) : ℕ := (bits.toNat / 2 ^ 52) % 2 ^ 11

/-- The fraction field of a 64-bit pattern. -/
def fractionBits (bits : UInt64) : ℕ := bits.toNat % 2 ^ 52

/-- The sign bit of a 64-bit pattern. -/
def isNegative (bits : UInt64) : Bool := decide (2 ^ 63 ≤ bits.toNat)

/-- A pattern that is not a number. -/
def isNaN (bits : UInt64) : Bool := exponentBits bits = 2047 ∧ fractionBits bits ≠ 0

/-- A pattern of one of the two zeros. -/
def isZero (bits : UInt64) : Bool := bits.toNat % 2 ^ 63 = 0

/-- Comparison of two floating-point numbers: the zeros are equal, and nothing equals what is
not a number. -/
def floatEq (a b : UInt64) : Bool :=
  !isNaN a && !isNaN b && (a == b || (isZero a && isZero b))

/-- The magnitude of a number without its fractional part. -/
def truncMagnitude (bits : UInt64) : ℕ :=
  let exponent := exponentBits bits
  let significand := if exponent = 0 then fractionBits bits else 2 ^ 52 + fractionBits bits
  if 1075 ≤ exponent then significand * 2 ^ (exponent - 1075)
  else significand / 2 ^ (1075 - exponent)

/-- The conversion of a `float64` to an `int`. A number out of range gives the least
integer. -/
def floatToInt (bits : UInt64) : ℤ :=
  let magnitude := truncMagnitude bits
  if exponentBits bits = 2047 ∨ 2 ^ 63 ≤ magnitude then -2 ^ 63
  else if isNegative bits then -(magnitude : ℤ) else magnitude

/-- The conversion of a `float64` to a `uint`: a number that fits keeps its value, a negative
one wraps and one out of range gives zero. -/
def floatToUint (bits : UInt64) : UInt64 :=
  let magnitude := truncMagnitude bits
  if isNegative bits = true ∨ magnitude < 2 ^ 63 then UInt64.ofInt (floatToInt bits)
  else if magnitude < 2 ^ 64 then UInt64.ofNat magnitude else 0

/-- The pattern of the number nearest to a natural number, of two equally near ones the even. -/
def floatOfNat (n : ℕ) : UInt64 :=
  if n = 0 then 0
  else
    let exponent := n.log2
    let shift := exponent - 52
    let significand := n * 2 ^ (52 - exponent) / 2 ^ shift
    let twiceRest := 2 * (n % 2 ^ shift)
    let up := 2 ^ shift < twiceRest ∨ twiceRest = 2 ^ shift ∧ significand % 2 = 1
    UInt64.ofNat ((1022 + exponent) * 2 ^ 52 + significand + if up then 1 else 0)

/-- The conversion of an `int` to a `float64`. -/
def floatOfInt (n : ℤ) : UInt64 :=
  if n < 0 then floatOfNat n.natAbs + UInt64.ofNat (2 ^ 63) else floatOfNat n.natAbs

mutual

/-- `reflect.DeepEqual` on these values. -/
def deepEqual : GoValue → GoValue → Bool
  | .nil, .nil => true
  | .float64 a, .float64 b => floatEq a b
  | .int a, .int b => a == b
  | .bool a, .bool b => a == b
  | .string a, .string b => a == b
  | .slice a, .slice b => deepEqualSlice a b
  | .map a, .map b => a.length == b.length && deepEqualMap a b
  | _, _ => false

/-- Equal slices are equal element by element. -/
def deepEqualSlice : List GoValue → List GoValue → Bool
  | [], [] => true
  | a :: as, b :: bs => deepEqual a b && deepEqualSlice as bs
  | _, _ => false

/-- Every entry has an equal one under its key in the other map. -/
def deepEqualMap : List (String × GoValue) → List (String × GoValue) → Bool
  | [], _ => true
  | (key, a) :: rest, other =>
    (match other.lookup key with
      | some b => deepEqual a b
      | none => false) && deepEqualMap rest other

end

/-- `parsemap.CastToInt`. -/
def castToInt : GoValue → Option ℤ
  | .float64 bits => some (floatToInt bits)
  | .int n => some n
  | _ => none

end GoValue

end HybridOs
