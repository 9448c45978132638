import HybridOs.GcomRegisters
import Mathlib.Tactic.Positivity

/-!
# The integer that is written

A value whose encoding fits the registers is written as an integer next to the encoding. Only
the lowest one of two signed registers is written as the integer above it.
-/

namespace HybridOs.GcomRegisters

/-! ## Conversions -/

@[simp] theorem truncate_intCast (value : ℤ) : truncate value = value := by
  simp [truncate]

theorem truncate_of_nonneg {value : ℚ} (h : 0 ≤ value) : truncate value = ⌊value⌋ := if_pos h

theorem abs_truncate_sub_le (value : ℚ) : |(truncate value : ℚ) - value| ≤ 1 := by
  rw [truncate, abs_le]
  split_ifs
  · have hle := Int.floor_le value
    have hlt := Int.lt_floor_add_one value
    constructor <;> linarith
  · have hle := Int.le_ceil value
    have hlt := Int.ceil_lt_add_one value
    constructor <;> linarith

theorem le_truncate {low : ℤ} {value : ℚ} (h : (low : ℚ) ≤ value) : low ≤ truncate value := by
  rw [truncate]
  split_ifs
  · exact Int.le_floor.2 h
  · exact Int.cast_le.1 (h.trans (Int.le_ceil value))

theorem truncate_le {high : ℤ} {value : ℚ} (h : value ≤ high) : truncate value ≤ high := by
  rw [truncate]
  split_ifs
  · exact Int.cast_le.1 ((Int.floor_le value).trans h)
  · exact Int.ceil_le.2 h

theorem limit_of_le {α : Type*} [LinearOrder α] {low lowest high value : α} (hlow : low ≤ value)
    (hhigh : value ≤ high) : limit low lowest high value = value := by
  rw [limit, if_neg (not_lt.2 hhigh), if_neg (not_lt.2 hlow)]

theorem limit_of_lt {α : Type*} [LinearOrder α] {low lowest high value : α} (hlow : value < low)
    (hhigh : value ≤ high) : limit low lowest high value = lowest := by
  rw [limit, if_neg (not_lt.2 hhigh), if_pos hlow]

theorem limit_of_gt {α : Type*} [LinearOrder α] {low lowest high value : α}
    (hhigh : high < value) : limit low lowest high value = high := if_pos hhigh

/-- Integers are limited as the numbers that they are. -/
theorem truncate_limit_intCast (low lowest high value : ℤ) :
    truncate (limit (low : ℚ) lowest high value) = limit low lowest high value := by
  rw [limit, limit]
  simp only [Int.cast_lt]
  split_ifs <;> rw [truncate_intCast]

theorem toUnsigned_lt (width : ℕ) (value : ℤ) : toUnsigned width value < 2 ^ width := by
  have hpos : (0 : ℤ) < 2 ^ width := by positivity
  have hnonneg := Int.emod_nonneg value hpos.ne'
  have hlt := Int.emod_lt_of_pos value hpos
  rw [toUnsigned]
  zify
  rw [Int.toNat_of_nonneg hnonneg]
  exact hlt

theorem cast_toUnsigned (width : ℕ) (value : ℤ) : (toUnsigned width value : ℤ) = value % 2 ^ width := by
  have hpos : (0 : ℤ) < 2 ^ width := by positivity
  rw [toUnsigned, Int.toNat_of_nonneg (Int.emod_nonneg value hpos.ne')]

/-! ## Values that fit -/

/-- The number that a value is. -/
def Scalar.number : Scalar → Option ℚ
  | .int32 value => some value.toInt
  | .int64 value => some value.toInt
  | .uint32 value => some value.toNat
  | .uint64 value => some value.toNat
  | .double value => some value
  | .bool _ | .other => none

variable (io_point : IoPoint)

/-- The bits that a value is shifted by. -/
def IoPoint.places : Scalar → ℕ
  | .double _ => 0
  | _ => io_point.starting_bit_pos

/-- The encoding of a number. -/
def IoPoint.encoding (val : Scalar) (number : ℚ) : ℚ :=
  io_point.scaled (number * 2 ^ io_point.places val - io_point.shift.toInt)

/-- The lowest integer of the registers. -/
def IoPoint.lowest : ℤ := if io_point.is_signed then -2 ^ (16 * io_point.size - 1) else 0

/-- The highest integer of the registers. -/
def IoPoint.highest : ℤ :=
  if io_point.is_signed then 2 ^ (16 * io_point.size - 1) - 1 else 2 ^ (16 * io_point.size) - 1

/-- The encoding fits the registers. -/
structure IoPoint.Fits (encoding : ℚ) : Prop where
  low : (io_point.lowest : ℚ) ≤ encoding
  high : encoding ≤ io_point.highest
  /-- Without a scale there are no fractions. -/
  exact : io_point.scale = 0 → (truncate encoding : ℚ) = encoding

/-- The error of the lowest integer of two signed registers. -/
def IoPoint.slip (encoding : ℚ) : ℤ :=
  if io_point.size = 2 ∧ io_point.is_signed ∧ encoding = -2 ^ 31 then 1 else 0

/-- The integer that is written for an encoding. -/
def IoPoint.written (encoding : ℚ) : ℤ :=
  if io_point.size = 1 then
    if io_point.is_signed then truncate (limit (-32767) (-32768) 32767 encoding)
    else truncate (limit 0 0 65535 encoding)
  else if io_point.size = 2 then
    if io_point.is_signed then truncate (limit (-2147483647) (-2147483647) 2147483647 encoding)
    else truncate (limit 0 0 4294967295 encoding)
  else if io_point.is_signed then
    if 2 ^ 63 < encoding then 2 ^ 63 - 1
    else if encoding < -2 ^ 63 then -(2 ^ 63 - 1)
    else truncate encoding
  else truncate (limit 0 0 (2 ^ 64) encoding)

/-- What is known of the integer that is written for an encoding. -/
structure IoPoint.Writes (encoding : ℚ) (value : ℤ) : Prop where
  low : io_point.lowest ≤ value
  high : value ≤ io_point.highest
  near : |(value : ℚ) - encoding| ≤ 1
  exact : (truncate encoding : ℚ) = encoding → (value : ℚ) = encoding + io_point.slip encoding
  floor : 0 ≤ encoding → value = truncate encoding

variable {io_point}

theorem IoPoint.lowest_nonpos (io_point : IoPoint) : io_point.lowest ≤ 0 := by
  rw [IoPoint.lowest]
  split_ifs
  · have hpos : (0 : ℤ) < 2 ^ (16 * io_point.size - 1) := by positivity
    omega
  · exact le_rfl

theorem IoPoint.highest_nonneg (io_point : IoPoint) : 0 ≤ io_point.highest := by
  rw [IoPoint.highest]
  split_ifs
  · have hpos : (0 : ℤ) < 2 ^ (16 * io_point.size - 1) := by positivity
    omega
  · have hpos : (0 : ℤ) < 2 ^ (16 * io_point.size) := by positivity
    omega

variable {encoding : ℚ}

/-- An encoding that is only truncated. -/
theorem writes_truncate (hlow : (io_point.lowest : ℚ) ≤ encoding)
    (hhigh : encoding ≤ io_point.highest) (hslip : io_point.slip encoding = 0) :
    io_point.Writes encoding (truncate encoding) where
  low := le_truncate hlow
  high := truncate_le hhigh
  near := abs_truncate_sub_le encoding
  exact := by
    intro hexact
    rw [hslip, hexact, Int.cast_zero, add_zero]
  floor := fun _ => rfl

/-- An integer with a lower neighbour that is too low. -/
theorem eq_of_lt_add_one (hexact : (truncate encoding : ℚ) = encoding) {low : ℤ}
    (hlow : (low : ℚ) ≤ encoding) (hless : encoding < low + 1) : encoding = low := by
  rw [← hexact] at hlow hless ⊢
  have hle : low ≤ truncate encoding := by exact_mod_cast hlow
  have hlt : truncate encoding < low + 1 := by exact_mod_cast hless
  have heq : truncate encoding = low := by omega
  rw [heq]

/-- The integer that is written is next to the encoding. -/
theorem IoPoint.Sized.writes (hsized : io_point.Sized) (hlow : (io_point.lowest : ℚ) ≤ encoding)
    (hhigh : encoding ≤ io_point.highest) :
    io_point.Writes encoding (io_point.written encoding) := by
  have hlow' := hlow
  have hhigh' := hhigh
  rcases hsized.size with hsize | hsize | hsize
  · have hslip : io_point.slip encoding = 0 := by simp [IoPoint.slip, hsize]
    rw [IoPoint.lowest, hsize] at hlow'
    rw [IoPoint.highest, hsize] at hhigh'
    rw [IoPoint.written, if_pos hsize]
    cases hsigned : io_point.is_signed with
    | false =>
      simp [hsigned] at hlow' hhigh'
      rw [if_neg (by simp), limit_of_le hlow' hhigh']
      exact writes_truncate hlow hhigh hslip
    | true =>
      simp [hsigned] at hlow' hhigh'
      rw [if_pos rfl]
      by_cases hless : encoding < -32767
      · rw [limit_of_lt hless (by linarith)]
        have htruncate : truncate (-32768 : ℚ) = -32768 := truncate_intCast (-32768)
        rw [htruncate]
        exact {
          low := by simp [IoPoint.lowest, hsize, hsigned]
          high := by simp [IoPoint.highest, hsize, hsigned]
          near := by
            rw [abs_le]
            push_cast
            constructor <;> linarith
          exact := by
            intro hexact
            have hlowest : encoding = ((-32768 : ℤ) : ℚ) := by
              refine eq_of_lt_add_one hexact ?_ ?_ <;> push_cast <;> linarith
            rw [hslip, hlowest]
            norm_num
          floor := by
            intro hnonneg
            linarith }
      · rw [limit_of_le (by linarith) (by linarith)]
        exact writes_truncate hlow hhigh hslip
  · rw [IoPoint.lowest, hsize] at hlow'
    rw [IoPoint.highest, hsize] at hhigh'
    rw [IoPoint.written, if_neg (by omega), if_pos hsize]
    cases hsigned : io_point.is_signed with
    | false =>
      have hslip : io_point.slip encoding = 0 := by simp [IoPoint.slip, hsigned]
      simp [hsigned] at hlow' hhigh'
      rw [if_neg (by simp), limit_of_le hlow' hhigh']
      exact writes_truncate hlow hhigh hslip
    | true =>
      simp [hsigned] at hlow' hhigh'
      rw [if_pos rfl]
      by_cases hless : encoding < -2147483647
      · rw [limit_of_lt hless (by linarith)]
        have htruncate : truncate (-2147483647 : ℚ) = -2147483647 := truncate_intCast (-2147483647)
        rw [htruncate]
        exact {
          low := by simp [IoPoint.lowest, hsize, hsigned]
          high := by simp [IoPoint.highest, hsize, hsigned]
          near := by
            rw [abs_le]
            push_cast
            constructor <;> linarith
          exact := by
            intro hexact
            have hlowest : encoding = ((-2147483648 : ℤ) : ℚ) := by
              refine eq_of_lt_add_one hexact ?_ ?_ <;> push_cast <;> linarith
            have hslip : io_point.slip encoding = 1 := by
              rw [IoPoint.slip, if_pos ⟨hsize, hsigned, by rw [hlowest]; norm_num⟩]
            rw [hslip, hlowest]
            norm_num
          floor := by
            intro hnonneg
            linarith }
      · have hslip : io_point.slip encoding = 0 := by
          refine if_neg fun hlowest => hless ?_
          rw [hlowest.2.2]
          norm_num
        rw [limit_of_le (by linarith) (by linarith)]
        exact writes_truncate hlow hhigh hslip
  · have hslip : io_point.slip encoding = 0 := by simp [IoPoint.slip, hsize]
    rw [IoPoint.lowest, hsize] at hlow'
    rw [IoPoint.highest, hsize] at hhigh'
    rw [IoPoint.written, if_neg (by omega), if_neg (by omega)]
    cases hsigned : io_point.is_signed with
    | false =>
      simp only [hsigned, Bool.false_eq_true, if_false, Int.cast_zero] at hlow' hhigh'
      norm_num at hhigh'
      rw [if_neg (by simp), limit_of_le hlow' (by norm_num; linarith)]
      exact writes_truncate hlow hhigh hslip
    | true =>
      simp only [hsigned] at hlow' hhigh'
      norm_num at hlow' hhigh'
      rw [if_pos rfl, if_neg (by norm_num; linarith), if_neg (by norm_num; linarith)]
      exact writes_truncate hlow hhigh hslip

section

variable (hsized : io_point.Sized) (hsigned : io_point.is_signed = true)
include hsized hsigned

/-- A signed encoding above 64 bits is written as the highest integer. -/
theorem IoPoint.Sized.written_of_gt (hhigh : 2 ^ 63 < encoding) :
    io_point.written encoding = io_point.highest := by
  have hcast16 : truncate (32767 : ℚ) = 32767 := truncate_intCast 32767
  have hcast32 : truncate (2147483647 : ℚ) = 2147483647 := truncate_intCast 2147483647
  rcases hsized.size with hsize | hsize | hsize
  · rw [IoPoint.written, if_pos hsize, if_pos hsigned, limit_of_gt (by norm_num at hhigh; linarith),
      hcast16]
    simp [IoPoint.highest, hsigned, hsize]
  · rw [IoPoint.written, if_neg (by omega), if_pos hsize, if_pos hsigned,
      limit_of_gt (by norm_num at hhigh; linarith), hcast32]
    simp [IoPoint.highest, hsigned, hsize]
  · rw [IoPoint.written, if_neg (by omega), if_neg (by omega), if_pos hsigned, if_pos hhigh]
    simp [IoPoint.highest, hsigned, hsize]

/-- A signed encoding below 64 bits is written as an integer next to the lowest one. -/
theorem IoPoint.Sized.written_of_lt (hlow : encoding < -2 ^ 63) :
    io_point.lowest ≤ io_point.written encoding ∧
      io_point.written encoding ≤ io_point.lowest + 1 := by
  have hcast16 : truncate (-32768 : ℚ) = -32768 := truncate_intCast (-32768)
  have hcast32 : truncate (-2147483647 : ℚ) = -2147483647 := truncate_intCast (-2147483647)
  rcases hsized.size with hsize | hsize | hsize
  · rw [IoPoint.written, if_pos hsize, if_pos hsigned,
      limit_of_lt (by norm_num at hlow; linarith) (by norm_num at hlow; linarith), hcast16]
    simp [IoPoint.lowest, hsigned, hsize]
  · rw [IoPoint.written, if_neg (by omega), if_pos hsize, if_pos hsigned,
      limit_of_lt (by norm_num at hlow; linarith) (by norm_num at hlow; linarith), hcast32]
    simp [IoPoint.lowest, hsigned, hsize]
  · rw [IoPoint.written, if_neg (by omega), if_neg (by omega), if_pos hsigned,
      if_neg (by linarith), if_pos hlow]
    simp [IoPoint.lowest, hsigned, hsize]

theorem IoPoint.Sized.lowest_of_signed : io_point.lowest ≤ -32768 := by
  rw [IoPoint.lowest, if_pos hsigned]
  rcases hsized.size with hsize | hsize | hsize <;> rw [hsize] <;> norm_num

end

theorem IoPoint.Sized.highest_ge (hsized : io_point.Sized) : 32767 ≤ io_point.highest := by
  rw [IoPoint.highest]
  rcases hsized.size with hsize | hsize | hsize <;> rw [hsize] <;> split_ifs <;> norm_num

/-! ## Encoding -/

/-- The point is set as a number. -/
structure IoPoint.IsSettable (io_point : IoPoint) : Prop extends io_point.Sized where
  is_float : io_point.is_float = false
  is_bit_field : io_point.is_bit_field = false
  is_enum : io_point.is_enum = false
  packed_register : io_point.packed_register = false

/-- The point is set and read as a number. -/
structure IoPoint.IsNumber (io_point : IoPoint) : Prop extends io_point.IsSettable where
  word_order : io_point.word_order = 0 ∨ IsWordOrder io_point.word_order

/-- The value is of an unsigned type. -/
def Scalar.isUnsigned : Scalar → Bool
  | .uint32 _ | .uint64 _ => true
  | _ => false

/-- An unsigned value that is below the shift, before it is scaled. -/
def IoPoint.Wraps (io_point : IoPoint) (val : Scalar) (number : ℚ) : Prop :=
  val.isUnsigned = true ∧ io_point.scale ≠ 0 ∧
    number * 2 ^ io_point.starting_bit_pos < io_point.shift.toInt

/-- The number that is sent for an integer. -/
def IoPoint.bitsOf (io_point : IoPoint) (value : ℤ) : ℕ :=
  toUnsigned (16 * io_point.size) value ^^^ (io_point.invert_mask % 2 ^ (16 * io_point.size))

theorem IoPoint.bitsOf_lt (io_point : IoPoint) (value : ℤ) : io_point.bitsOf value < 2 ^ (16 * io_point.size) :=
  Nat.xor_lt_two_pow (toUnsigned_lt _ _) (Nat.mod_lt _ (by positivity))

variable {floats : FloatBits} {val : Any} {encoding : ℚ}

/-- A number that is held as floating point. -/
theorem IoPoint.IsSettable.set_f64val (hset : io_point.IsSettable)
    (huint : ((io_point.read val.scalar).is_uint && io_point.scale == 0) = false)
    (hint : ((io_point.read val.scalar).is_int && io_point.scale == 0) = false)
    (hval : (io_point.read val.scalar).f64val = encoding) :
    set_any_to_uint64 floats io_point val = io_point.bitsOf (io_point.written encoding) := by
  rcases hset.size with hsize | hsize | hsize
  · cases hsigned : io_point.is_signed <;>
      simp [set_any_to_uint64, IoPoint.encode16, IoPoint.bitsOf, IoPoint.written,
        hset.is_bit_field, hset.is_enum, hset.packed_register, hsize, huint, hint, hval,
        hsigned]
  · cases hsigned : io_point.is_signed <;>
      simp [set_any_to_uint64, IoPoint.encode32, IoPoint.bitsOf, IoPoint.written, hset.is_float,
        hset.is_bit_field, hset.is_enum, hset.packed_register, hsize, huint, hint, hval,
        hsigned]
  · cases hsigned : io_point.is_signed with
    | false =>
      have hlimit : limit (0 : ℚ) 0 (2 ^ 64) (if encoding < 0 then 0 else encoding) =
          limit 0 0 (2 ^ 64) encoding := by
        rw [limit, limit]
        split_ifs <;> linarith
      simp [set_any_to_uint64, IoPoint.encode64, IoPoint.bitsOf, IoPoint.written,
        hset.is_float, hset.is_bit_field, hset.is_enum, hset.packed_register, hsize,
        huint, hint, hval, hsigned, hlimit]
    | true =>
      have hhighest : toUnsigned 64 9223372036854775807 = 9223372036854775807 := by decide
      simp only [set_any_to_uint64, IoPoint.encode64, IoPoint.bitsOf, IoPoint.written,
        hset.is_float, hset.is_bit_field, hset.is_enum, hset.packed_register, hsize,
        huint, hint, hval, hsigned]
      by_cases hhigh : 2 ^ 63 < encoding
      · simp [hhigh, hhighest]
      · by_cases hlow : encoding < -2 ^ 63 <;> simp [hhigh, hlow]

/-- A signed value without a scale. -/
theorem IoPoint.IsSettable.set_i64val (hset : io_point.IsSettable) (hscale : io_point.scale = 0)
    {value : ℤ} (huint : (io_point.read val.scalar).is_uint = false)
    (hint : (io_point.read val.scalar).is_int = true)
    (hval : (io_point.read val.scalar).i64val = value)
    (hsigned64 : io_point.is_signed = true → io_point.size = 4 → -2 ^ 63 ≤ value ∧ value ≤ 2 ^ 63)
    (hunsigned64 : io_point.is_signed = false → io_point.size = 4 → value ≤ 2 ^ 64) :
    set_any_to_uint64 floats io_point val = io_point.bitsOf (io_point.written value) := by
  rcases hset.size with hsize | hsize | hsize
  · have hsigned := truncate_limit_intCast (-32767) (-32768) 32767 value
    have hunsigned := truncate_limit_intCast 0 0 65535 value
    push_cast at hsigned hunsigned
    cases hcase : io_point.is_signed <;>
      simp [set_any_to_uint64, IoPoint.encode16, IoPoint.bitsOf, IoPoint.written,
        hset.is_bit_field, hset.is_enum, hset.packed_register, hsize, huint, hint, hval,
        hcase, hscale, hsigned, hunsigned]
  · have hsigned := truncate_limit_intCast (-2147483647) (-2147483647) 2147483647 value
    have hunsigned := truncate_limit_intCast 0 0 4294967295 value
    push_cast at hsigned hunsigned
    cases hcase : io_point.is_signed <;>
      simp [set_any_to_uint64, IoPoint.encode32, IoPoint.bitsOf, IoPoint.written, hset.is_float,
        hset.is_bit_field, hset.is_enum, hset.packed_register, hsize, huint, hint, hval,
        hcase, hscale, hsigned, hunsigned]
  · cases hcase : io_point.is_signed with
    | false =>
      have hle := hunsigned64 hcase hsize
      have hlimit := truncate_limit_intCast 0 0 (2 ^ 64) value
      have hinteger : limit 0 0 (2 ^ 64) value = if value < 0 then 0 else value := by
        rw [limit, if_neg (not_lt.2 hle)]
      rw [hinteger, Int.cast_zero, Int.cast_pow, Int.cast_ofNat] at hlimit
      simp [set_any_to_uint64, IoPoint.encode64, IoPoint.bitsOf, IoPoint.written,
        hset.is_float, hset.is_bit_field, hset.is_enum, hset.packed_register, hsize,
        huint, hint, hval, hcase, hscale, hlimit]
    | true =>
      obtain ⟨hlow, hhigh⟩ := hsigned64 hcase hsize
      have hlow' : ¬ (value : ℚ) < -2 ^ 63 := by
        rw [not_lt]
        exact_mod_cast hlow
      have hhigh' : ¬ (2 ^ 63 : ℚ) < value := by
        rw [not_lt]
        exact_mod_cast hhigh
      simp [set_any_to_uint64, IoPoint.encode64, IoPoint.bitsOf, IoPoint.written,
        hset.is_float, hset.is_bit_field, hset.is_enum, hset.packed_register, hsize,
        huint, hint, hval, hcase, hscale, hlow', hhigh']

/-- Fewer bits of 64 bits. -/
theorem toUnsigned_toUnsigned {width wide : ℕ} (hwidth : width ≤ wide) (value : ℤ) :
    toUnsigned width (toUnsigned wide value) = toUnsigned width value := by
  have hdvd : (2 ^ width : ℤ) ∣ 2 ^ wide := pow_dvd_pow 2 hwidth
  rw [toUnsigned, cast_toUnsigned, Int.emod_emod_of_dvd _ hdvd, toUnsigned]

/-- An unsigned value without a scale. -/
theorem IoPoint.IsSettable.set_u64val (hset : io_point.IsSettable) (hscale : io_point.scale = 0)
    {value : ℤ} (huint : (io_point.read val.scalar).is_uint = true)
    (hval : (io_point.read val.scalar).u64val = toUnsigned 64 value) :
    set_any_to_uint64 floats io_point val = io_point.bitsOf value := by
  have hbits : ∀ width ≤ 64, toUnsigned width (toUnsigned 64 value) = toUnsigned width value :=
    fun width hwidth => toUnsigned_toUnsigned hwidth value
  rcases hset.size with hsize | hsize | hsize
  · simp [set_any_to_uint64, IoPoint.encode16, IoPoint.bitsOf, hset.is_bit_field,
      hset.is_enum, hset.packed_register, hsize, huint, hval, hscale, hbits]
  · simp [set_any_to_uint64, IoPoint.encode32, IoPoint.bitsOf, hset.is_float,
      hset.is_bit_field, hset.is_enum, hset.packed_register, hsize, huint, hval, hscale,
      hbits]
  · simp [set_any_to_uint64, IoPoint.encode64, IoPoint.bitsOf, hset.is_float,
      hset.is_bit_field, hset.is_enum, hset.packed_register, hsize, huint, hval, hscale]

theorem IoPoint.scaled_zero (hscale : io_point.scale = 0) (value : ℚ) :
    io_point.scaled value = value := by
  simp [IoPoint.scaled, hscale]

theorem IoPoint.scaled_of_ne (hscale : io_point.scale ≠ 0) (value : ℚ) :
    io_point.scaled value = value * io_point.scale.toInt := by
  simp [IoPoint.scaled, hscale]

/-- A signed value that fits. -/
theorem IoPoint.IsSettable.set_readInt (hset : io_point.IsSettable) {value : ℤ}
    (hread : io_point.read val.scalar = io_point.readInt value) (hencoding : encoding =
      io_point.scaled ((value * 2 ^ io_point.starting_bit_pos - io_point.shift.toInt : ℤ) : ℚ))
    (hfits : io_point.Fits encoding) :
    set_any_to_uint64 floats io_point val = io_point.bitsOf (io_point.written encoding) := by
  by_cases hscale : io_point.scale = 0
  · rw [IoPoint.scaled_zero hscale] at hencoding
    have hlow := hfits.low
    have hhigh := hfits.high
    rw [hencoding] at hlow hhigh ⊢
    have hlow' := Int.cast_le.1 hlow
    have hhigh' := Int.cast_le.1 hhigh
    refine hset.set_i64val hscale ?_ ?_ ?_ ?_ ?_
    · rw [hread]
      rfl
    · rw [hread]
      rfl
    · rw [hread]
      rfl
    · intro hsigned hsize
      simp only [IoPoint.lowest, IoPoint.highest, hsigned, hsize, if_true] at hlow' hhigh'
      omega
    · intro hsigned hsize
      simp only [IoPoint.highest, hsize] at hhigh'
      omega
  · have hint : ((io_point.read val.scalar).is_int && io_point.scale == 0) = false := by
      simp [hscale]
    have huint : ((io_point.read val.scalar).is_uint && io_point.scale == 0) = false := by
      simp [hscale]
    refine hset.set_f64val huint hint ?_
    rw [hread, hencoding]
    rfl

theorem IoPoint.IsSettable.highest_lt (hset : io_point.IsSettable) :
    io_point.highest < 2 ^ 64 ∧ -2 ^ 63 ≤ io_point.lowest := by
  rw [IoPoint.highest, IoPoint.lowest]
  rcases hset.size with hsize | hsize | hsize <;> rw [hsize] <;> split_ifs <;> norm_num

theorem abs_mul_scale_ge {scale : Int32} (hscale : scale ≠ 0) (value : ℚ) :
    |value| ≤ |value * scale.toInt| := by
  have hne : scale.toInt ≠ 0 := int32_toInt_ne_zero.2 hscale
  have hone : (1 : ℚ) ≤ |(scale.toInt : ℚ)| := by
    exact_mod_cast Int.one_le_abs hne
  rw [abs_mul]
  exact le_mul_of_one_le_right (abs_nonneg value) hone

/-- The 64 bits of an unsigned value. -/
theorem u64val_readUint (io_point : IoPoint) (value : ℕ) :
    (io_point.readUint value).u64val =
      toUnsigned 64 (value * 2 ^ io_point.starting_bit_pos - io_point.shift.toInt) := by
  simp only [IoPoint.readUint]
  rw [toUnsigned, cast_toUnsigned, Int.emod_sub_emod, toUnsigned]

/-- An unsigned value that fits and is not below the shift. -/
theorem IoPoint.IsSettable.set_readUint (hset : io_point.IsSettable) {value : ℕ}
    (hread : io_point.read val.scalar = io_point.readUint value) (hencoding : encoding =
      io_point.scaled ((value * 2 ^ io_point.starting_bit_pos - io_point.shift.toInt : ℤ) : ℚ))
    (hfits : io_point.Fits encoding) (hwraps : io_point.scale ≠ 0 →
      io_point.shift.toInt ≤ value * 2 ^ io_point.starting_bit_pos) :
    set_any_to_uint64 floats io_point val = io_point.bitsOf (io_point.written encoding) := by
  have hnonneg : (0 : ℤ) ≤ value * 2 ^ io_point.starting_bit_pos := by positivity
  have hshift := Int32.toInt_lt io_point.shift
  have hu64val : (io_point.read val.scalar).u64val =
      toUnsigned 64 (value * 2 ^ io_point.starting_bit_pos - io_point.shift.toInt) := by
    rw [hread]
    exact u64val_readUint io_point value
  by_cases hscale : io_point.scale = 0
  · rw [IoPoint.scaled_zero hscale] at hencoding
    have hwrites := hset.writes hfits.low hfits.high
    have hslip : io_point.slip encoding = 0 := by
      refine if_neg fun hlowest => ?_
      have heq := hlowest.2.2
      rw [hencoding] at heq
      have hint : (value * 2 ^ io_point.starting_bit_pos - io_point.shift.toInt : ℤ) = -2 ^ 31 := by
        exact_mod_cast heq
      omega
    have hwritten := hwrites.exact (hfits.exact hscale)
    rw [hslip, Int.cast_zero, add_zero] at hwritten
    rw [hencoding, Int.cast_inj] at hwritten
    rw [hencoding, hwritten]
    refine hset.set_u64val hscale ?_ hu64val
    rw [hread]
    rfl
  · have hint : ((io_point.read val.scalar).is_int && io_point.scale == 0) = false := by
      simp [hscale]
    have huint : ((io_point.read val.scalar).is_uint && io_point.scale == 0) = false := by
      simp [hscale]
    refine hset.set_f64val huint hint ?_
    rw [IoPoint.scaled_of_ne hscale] at hencoding
    have hlarge := abs_mul_scale_ge hscale
      ((value * 2 ^ io_point.starting_bit_pos - io_point.shift.toInt : ℤ) : ℚ)
    rw [← hencoding] at hlarge
    have hbound : |encoding| < 2 ^ 64 := by
      have hlow : ((-2 ^ 63 : ℤ) : ℚ) ≤ encoding :=
        (Int.cast_le.2 hset.highest_lt.2).trans hfits.low
      have hhigh : encoding < ((2 ^ 64 : ℤ) : ℚ) :=
        hfits.high.trans_lt (Int.cast_lt.2 hset.highest_lt.1)
      rw [abs_lt]
      constructor
      · norm_num at hlow ⊢
        linarith
      · exact hhigh
    have hless : |(value * 2 ^ io_point.starting_bit_pos - io_point.shift.toInt : ℤ)| < 2 ^ 64 := by
      exact_mod_cast hlarge.trans_lt hbound
    rw [abs_lt] at hless
    have hmod : (toUnsigned 64 (value * 2 ^ io_point.starting_bit_pos - io_point.shift.toInt) : ℤ) =
        value * 2 ^ io_point.starting_bit_pos - io_point.shift.toInt := by
      rw [cast_toUnsigned]
      have hle := hwraps hscale
      exact Int.emod_eq_of_lt (by omega) hless.2
    have hf64val : (io_point.read val.scalar).f64val =
        io_point.scaled (io_point.read val.scalar).u64val := by
      rw [hread]
      rfl
    rw [hf64val, hu64val, IoPoint.scaled_of_ne hscale, hencoding]
    have hcast := congrArg (Int.cast (R := ℚ)) hmod
    rw [Int.cast_natCast] at hcast
    rw [hcast]

/-- What is sent for a number that fits. -/
theorem IoPoint.IsSettable.set_eq (hset : io_point.IsSettable) {number : ℚ}
    (hval : val.scalar.number = some number)
    (hfits : io_point.Fits (io_point.encoding val.scalar number))
    (hwraps : ¬ io_point.Wraps val.scalar number) :
    set_any_to_uint64 floats io_point val =
      io_point.bitsOf (io_point.written (io_point.encoding val.scalar number)) := by
  cases hscalar : val.scalar with
  | bool value | other =>
    rw [hscalar] at hval
    cases hval
  | int32 value | int64 value =>
    rw [hscalar] at hval hfits
    cases hval
    refine hset.set_readInt (by rw [hscalar]; rfl) ?_ hfits
    simp [IoPoint.encoding, IoPoint.places]
  | uint32 value | uint64 value =>
    rw [hscalar] at hval hfits hwraps
    cases hval
    refine hset.set_readUint (by rw [hscalar]; rfl) ?_ hfits ?_
    · simp [IoPoint.encoding, IoPoint.places]
    · intro hscale
      by_contra hless
      exact hwraps ⟨rfl, hscale, by exact_mod_cast not_le.1 hless⟩
  | double value =>
    rw [hscalar] at hval hfits
    cases hval
    refine hset.set_f64val ?_ ?_ ?_ <;> rw [hscalar] <;>
      simp [IoPoint.read, IoPoint.encoding, IoPoint.places]

end HybridOs.GcomRegisters
