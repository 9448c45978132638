import Mathlib

/-!
# Registers of a Modbus point

A value that is set is encoded into up to four registers of 16 bits, and the registers that
are read are decoded into a value. Numbers that the source holds as floating point are
rational numbers here, and signed integers do not overflow.
-/

namespace HybridOs.GcomRegisters

/-- The fields of a point in the configuration file, where they are there. -/
structure JsonIoPoint where
  size : Option ℕ
  shift : Option Int32
  starting_bit_pos : Option ℕ
  scale : Option Int32
  signed : Option Bool
  invert_mask : Option String
  float : Option Bool
  word_order : Option ℕ
  byte_swap : Option Bool
  enum : Option Bool
  random_enum : Option Bool
  individual_bits : Option Bool
  bit_field : Option Bool
  packed_register : Option Bool

/-- `io_point_struct`, as far as encoding and decoding read it. -/
structure IoPoint where
  size : ℕ
  starting_bit_pos : ℕ
  shift : Int32
  scale : Int32
  invert_mask : ℕ
  care_mask : ℕ
  uses_masks : Bool
  is_float : Bool
  is_signed : Bool
  word_order : ℕ
  is_byte_swap : Bool
  byte_index : Fin 4 → ℤ
  is_bit_field : Bool
  is_individual_bits : Bool
  packed_register : Bool
  is_enum : Bool
  is_random_enum : Bool
  is_forced : Bool
  forced_val : ℕ

/-! ## Configuration -/

/-- The value of a digit. -/
def digitValue (base : ℕ) (c : Char) : Option ℕ :=
  let value :=
    if '0' ≤ c ∧ c ≤ '9' then some (c.toNat - '0'.toNat)
    else if 'a' ≤ c ∧ c ≤ 'f' then some (c.toNat - 'a'.toNat + 10)
    else if 'A' ≤ c ∧ c ≤ 'F' then some (c.toNat - 'A'.toNat + 10)
    else none
  value.filter (· < base)

/-- The number of the digits that a text begins with. -/
def leadingNumber (base : ℕ) : ℕ → List Char → ℕ
  | number, [] => number
  | number, c :: rest =>
    match digitValue base c with
    | some digit => leadingNumber base (number * base + digit) rest
    | none => number

/-- `strtoull`. -/
def strtoull (text : List Char) (base : ℕ) : ℕ :=
  let text := text.dropWhile (·.isWhitespace)
  let negative := text.head? == some '-'
  let text := if negative || text.head? == some '+' then text.tail else text
  let hex := base == 16 && (text.take 2 == ['0', 'x'] || text.take 2 == ['0', 'X']) &&
    (((text.drop 2).head?.bind (digitValue 16)).isSome)
  let number := leadingNumber base 0 (if hex then text.drop 2 else text)
  if 2 ^ 64 ≤ number then 2 ^ 64 - 1
  else if negative then (2 ^ 64 - number) % 2 ^ 64
  else number

/-- The mask that a text says, where it is not `"0x0"`. -/
def invmask (invert_mask_str : String) : ℕ :=
  let text := invert_mask_str.toList
  if text.take 2 = ['0', 'x'] then strtoull (text.drop 2) 16
  else if text.take 2 = ['0', 'b'] then strtoull (text.drop 2) 2
  else 0

/-- The positions of the registers in an order such as 1234. -/
def orderIndex (word_order : ℕ) (i : Fin 4) : ℤ :=
  match i with
  | 0 => (word_order / 1000 : ℕ) - 1
  | 1 => (word_order % 1000 / 100 : ℕ) - 1
  | 2 => (word_order % 100 / 10 : ℕ) - 1
  | 3 => (word_order % 10 : ℕ) - 1

/-- The point that `extract_io_point_map` begins with. -/
def IoPoint.fresh (is_byte_swap : Bool) : IoPoint where
  size := 1
  starting_bit_pos := 0
  shift := 0
  scale := 0
  invert_mask := 0
  care_mask := 0
  uses_masks := false
  is_float := false
  is_signed := false
  word_order := 0
  is_byte_swap := is_byte_swap
  byte_index := fun _ => 0
  is_bit_field := false
  is_individual_bits := false
  packed_register := false
  is_enum := false
  is_random_enum := false
  is_forced := false
  forced_val := 0

/-- `extract_io_point`, for a new point. -/
def extract_io_point (json_io_point : JsonIoPoint) (io_point : IoPoint)
    (packed_io_point : Option IoPoint) : IoPoint :=
  let parent := packed_io_point.getD io_point
  let shift := json_io_point.shift.getD parent.shift
  let scale := json_io_point.scale.getD parent.scale
  let is_signed := if shift = 0 then json_io_point.signed.getD parent.is_signed else true
  let invert_mask_str := json_io_point.invert_mask.getD "0x0"
  let parent_mask := if packed_io_point.isSome then parent.invert_mask else 0
  let is_byte_swap := json_io_point.byte_swap.getD parent.is_byte_swap
  let word_order := json_io_point.word_order.getD parent.word_order
  let parent_enum := if packed_io_point.isSome then parent.is_enum else false
  let parent_random := if packed_io_point.isSome then parent.is_random_enum else false
  let parent_bits := if packed_io_point.isSome then parent.is_individual_bits else false
  let parent_float := if packed_io_point.isSome then parent.is_float else false
  let is_enum := json_io_point.enum.getD parent_enum
  let is_random_enum := json_io_point.random_enum.getD parent_random
  let is_individual_bits := json_io_point.individual_bits.getD parent_bits
  let is_bit_field := json_io_point.bit_field.getD false
  let bits := is_enum || is_random_enum || is_individual_bits || is_bit_field
  {io_point with
    size := json_io_point.size.getD parent.size
    starting_bit_pos := json_io_point.starting_bit_pos.getD parent.starting_bit_pos
    shift := if bits && decide (0 < shift) then 0 else shift
    scale := if bits then 0 else scale
    is_signed := if bits then false else is_signed
    invert_mask := if invert_mask_str = "0x0" then parent_mask else invmask invert_mask_str
    care_mask := 2 ^ 64 - 1
    is_float := json_io_point.float.getD parent_float
    word_order := word_order
    is_byte_swap := is_byte_swap
    byte_index :=
      if 0 < word_order then orderIndex word_order
      else if is_byte_swap then fun i => 3 - i
      else fun i => i
    is_enum := is_enum
    is_random_enum := is_random_enum
    is_individual_bits := is_individual_bits
    is_bit_field := is_bit_field
    forced_val := 0}

/-- The point that `extract_io_point_map` makes of its configuration. -/
def extract_new_io_point (json_io_point : JsonIoPoint) (is_byte_swap : Bool)
    (packed_io_point : Option IoPoint) : IoPoint :=
  {extract_io_point json_io_point (.fresh is_byte_swap) packed_io_point with
    packed_register := json_io_point.packed_register.getD false}

/-! ## Encoding -/

/-- What floating-point numbers are in memory. -/
structure FloatBits where
  bits32 : ℚ → ℕ
  value32 : ℕ → ℚ
  max32 : ℚ
  bits64 : ℚ → ℕ
  value64 : ℕ → ℚ

/-- A value that is no map. -/
inductive Scalar where
  | bool (value : Bool)
  | int32 (value : Int32)
  | int64 (value : Int64)
  | uint32 (value : UInt32)
  | uint64 (value : UInt64)
  | double (value : ℚ)
  | other

/-- A value that is set: naked, or a map that may have the field `value`. -/
inductive Any where
  | naked (value : Scalar)
  | clothed (value : Option Scalar)

/-- The value to be encoded. -/
def Any.scalar : Any → Scalar
  | .naked value => value
  | .clothed value => value.getD .other

/-- The variables of `set_any_to_uint64` when the value is read. -/
structure Vars where
  u64val : ℕ
  i64val : ℤ
  f64val : ℚ
  is_uint : Bool
  is_int : Bool

/-- The conversion to an unsigned type of some bits. -/
def toUnsigned (width : ℕ) (value : ℤ) : ℕ := (value % 2 ^ width).toNat

/-- The conversion of a floating-point number to an integer. -/
def truncate (value : ℚ) : ℤ := if 0 ≤ value then ⌊value⌋ else ⌈value⌉

/-- A value that is limited: to `high`, and to `lowest` where it is below `low`. -/
def limit {α : Type*} [LinearOrder α] (low lowest high value : α) : α :=
  if high < value then high else if value < low then lowest else value

/-- A number that is scaled where there is a scale. -/
def IoPoint.scaled (io_point : IoPoint) (f64val : ℚ) : ℚ :=
  if io_point.scale ≠ 0 then f64val * io_point.scale.toInt else f64val

/-- A signed value that is read. -/
def IoPoint.readInt (io_point : IoPoint) (value : ℤ) : Vars :=
  let i64val := value * 2 ^ io_point.starting_bit_pos - io_point.shift.toInt
  { u64val := 0
    i64val := i64val
    f64val := io_point.scaled i64val
    is_uint := false
    is_int := true }

/-- An unsigned value that is read. -/
def IoPoint.readUint (io_point : IoPoint) (value : ℕ) : Vars :=
  let u64val := toUnsigned 64
    (toUnsigned 64 (value * 2 ^ io_point.starting_bit_pos) - io_point.shift.toInt)
  { u64val := u64val
    i64val := 0
    f64val := io_point.scaled u64val
    is_uint := true
    is_int := false }

/-- The value is read, shifted and scaled. -/
def IoPoint.read (io_point : IoPoint) : Scalar → Vars
  | .bool value =>
    let i64val : ℤ := if value then 1 else 0
    let i64val := if io_point.scale < 0 then (if i64val > 0 then 0 else 1) else i64val
    { u64val := 0
      i64val := i64val
      f64val := if io_point.scale ≠ 0 then (i64val : ℚ) * io_point.scale.toInt else 0
      is_uint := false
      is_int := true }
  | .int32 value => io_point.readInt value.toInt
  | .int64 value => io_point.readInt value.toInt
  | .uint32 value => io_point.readUint value.toNat
  | .uint64 value => io_point.readUint value.toNat
  | .double value =>
    { u64val := 0
      i64val := 0
      f64val := io_point.scaled (value - io_point.shift.toInt)
      is_uint := false
      is_int := false }
  | .other =>
    { u64val := 0
      i64val := 0
      f64val := 0
      is_uint := false
      is_int := false }

/-- The branch of one register. -/
def IoPoint.encode16 (io_point : IoPoint) (vars : Vars) : ℕ :=
  let u16val :=
    if vars.is_uint && io_point.scale == 0 then toUnsigned 16 vars.u64val
    else if vars.is_int && io_point.scale == 0 then
      if io_point.is_signed then toUnsigned 16 (limit (-32767) (-32768) 32767 vars.i64val)
      else toUnsigned 16 (limit 0 0 65535 vars.i64val)
    else if !io_point.is_signed then toUnsigned 16 (truncate (limit 0 0 65535 vars.f64val))
    else toUnsigned 16 (truncate (limit (-32767) (-32768) 32767 vars.f64val))
  u16val ^^^ (io_point.invert_mask % 2 ^ 16)

/-- The branch of two registers. -/
def IoPoint.encode32 (floats : FloatBits) (io_point : IoPoint) (vars : Vars) : ℕ :=
  let u32val :=
    if vars.is_uint && io_point.scale == 0 then
      if !io_point.is_float then toUnsigned 32 vars.u64val
      else floats.bits32 vars.u64val
    else if vars.is_int && io_point.scale == 0 then
      if !io_point.is_float then
        if io_point.is_signed then
          toUnsigned 32 (limit (-2147483647) (-2147483647) 2147483647 vars.i64val)
        else toUnsigned 32 (limit 0 0 4294967295 vars.i64val)
      else floats.bits32 (limit (-floats.max32) (-floats.max32) floats.max32 vars.i64val)
    else if !io_point.is_float then
      if io_point.is_signed then
        toUnsigned 32 (truncate (limit (-2147483647) (-2147483647) 2147483647 vars.f64val))
      else toUnsigned 32 (truncate (limit 0 0 4294967295 vars.f64val))
    else floats.bits32 (limit (-floats.max32) (-(floats.max32 + 1)) floats.max32 vars.f64val)
  u32val ^^^ (io_point.invert_mask % 2 ^ 32)

/-- The branch of four registers. The limits of the integers are the floating-point numbers
next to them where they are compared with one. -/
def IoPoint.encode64 (floats : FloatBits) (io_point : IoPoint) (vars : Vars) : ℕ :=
  let u64val :=
    if vars.is_uint && io_point.scale == 0 then
      if !io_point.is_float then vars.u64val
      else floats.bits64 vars.u64val
    else if vars.is_int && io_point.scale == 0 then
      let i64val := if !io_point.is_signed && !io_point.is_float && decide (vars.i64val < 0) then 0
        else vars.i64val
      if !io_point.is_float then toUnsigned 64 i64val
      else floats.bits64 i64val
    else
      let f64val := if !io_point.is_signed && !io_point.is_float && decide (vars.f64val < 0) then 0
        else vars.f64val
      if io_point.is_float then floats.bits64 f64val
      else if !io_point.is_signed then toUnsigned 64 (truncate (limit 0 0 (2 ^ 64) f64val))
      else if 2 ^ 63 < f64val then 2 ^ 63 - 1
      else if f64val < -2 ^ 63 then toUnsigned 64 (-(2 ^ 63 - 1))
      else toUnsigned 64 (truncate f64val)
  u64val ^^^ (io_point.invert_mask % 2 ^ 64)

/-- `set_any_to_uint64`. -/
def set_any_to_uint64 (floats : FloatBits) (io_point : IoPoint) (val : Any) : ℕ :=
  let vars := io_point.read val.scalar
  if io_point.is_bit_field || io_point.is_enum || io_point.packed_register then 0
  else if io_point.size = 1 then io_point.encode16 vars
  else if io_point.size = 2 then io_point.encode32 floats vars
  else if io_point.size = 4 then io_point.encode64 floats vars
  else vars.u64val

/-- The 16 bits of a number from a position on. -/
def word (uval shift : ℕ) : ℕ := uval / 2 ^ shift % 2 ^ 16

/-- `set_reg16_from_uint64`. -/
def set_reg16_from_uint64 (io_point : IoPoint) (uval : ℕ) (regs16 : ℤ → ℕ) : ℤ → ℕ :=
  if io_point.size = 1 then Function.update regs16 0 (word uval 0)
  else if io_point.size = 2 then
    if !io_point.is_byte_swap then
      Function.update (Function.update regs16 0 (word uval 16)) 1 (word uval 0)
    else Function.update (Function.update regs16 0 (word uval 0)) 1 (word uval 16)
  else if io_point.size = 4 then
    let regs16 :=
      if !io_point.is_byte_swap then
        Function.update (Function.update (Function.update (Function.update regs16
          0 (word uval 48)) 1 (word uval 32)) 2 (word uval 16)) 3 (word uval 0)
      else
        Function.update (Function.update (Function.update (Function.update regs16
          3 (word uval 48)) 2 (word uval 32)) 1 (word uval 16)) 0 (word uval 0)
    if 0 < io_point.word_order then
      Function.update (Function.update (Function.update (Function.update regs16
        (io_point.byte_index 0) (word uval 48)) (io_point.byte_index 1) (word uval 32))
        (io_point.byte_index 2) (word uval 16)) (io_point.byte_index 3) (word uval 0)
    else regs16
  else regs16

/-! ## Decoding -/

/-- Inverted and cared for, where the point uses masks. -/
def IoPoint.masked (io_point : IoPoint) (current_unsigned_val : ℕ) : ℕ :=
  if io_point.uses_masks then
    (current_unsigned_val ^^^ io_point.invert_mask) &&& io_point.care_mask
  else current_unsigned_val

/-- The forced value, where the point is forced. -/
def IoPoint.forced (io_point : IoPoint) (current_unsigned_val : ℕ) : ℕ :=
  if io_point.is_forced then io_point.forced_val else current_unsigned_val

/-- The registers as one number, in their order. -/
def raw_data (io_point : IoPoint) (raw16 : ℤ → ℕ) : ℕ :=
  if io_point.size = 1 then raw16 0
  else if io_point.size = 2 then raw16 0 * 2 ^ 16 + raw16 1
  else raw16 0 * 2 ^ 48 + raw16 1 * 2 ^ 32 + raw16 2 * 2 ^ 16 + raw16 3

/-- The number in the registers. -/
def current_unsigned_val (io_point : IoPoint) (raw16 : ℤ → ℕ) : ℕ :=
  if io_point.size = 1 then io_point.forced (io_point.masked (raw_data io_point raw16))
  else if io_point.size = 2 then
    let current_unsigned_val :=
      if !io_point.is_byte_swap then raw_data io_point raw16
      else raw16 0 + raw16 1 * 2 ^ 16
    io_point.masked (io_point.forced current_unsigned_val)
  else
    let current_unsigned_val :=
      if 0 < io_point.word_order then
        raw16 (io_point.byte_index 0) + raw16 (io_point.byte_index 1) * 2 ^ 16 +
          raw16 (io_point.byte_index 2) * 2 ^ 32 + raw16 (io_point.byte_index 3) * 2 ^ 48
      else if !io_point.is_byte_swap then raw_data io_point raw16
      else raw16 0 + raw16 1 * 2 ^ 16 + raw16 2 * 2 ^ 32 + raw16 3 * 2 ^ 48
    io_point.forced (io_point.masked current_unsigned_val)

/-- The number in the registers, reinterpreted. -/
def current_signed_val (io_point : IoPoint) (raw16 : ℤ → ℕ) : ℤ :=
  let current_unsigned_val := current_unsigned_val io_point raw16
  if io_point.size = 1 then Int.bmod current_unsigned_val (2 ^ 16)
  else if io_point.size = 2 then Int.bmod current_unsigned_val (2 ^ 32)
  else Int.bmod current_unsigned_val (2 ^ 64)

/-- The floating-point number in the registers. -/
def current_float_val (floats : FloatBits) (io_point : IoPoint) (raw16 : ℤ → ℕ) : ℚ :=
  if io_point.is_signed || io_point.size = 1 then 0
  else if io_point.size = 2 then floats.value32 (current_unsigned_val io_point raw16)
  else floats.value64 (current_unsigned_val io_point raw16)

/-- `gcom_decode_any`: the output. -/
def gcom_decode_any (floats : FloatBits) (io_point : IoPoint) (raw16 : ℤ → ℕ) : ℚ :=
  let shift := io_point.shift.toInt
  if io_point.is_float then
    let current_float_val := current_float_val floats io_point raw16
    (if io_point.scale ≠ 0 then current_float_val / io_point.scale.toInt else current_float_val) +
      shift
  else if io_point.is_signed then
    let current_signed_val := current_signed_val io_point raw16
    if io_point.scale ≠ 0 then (current_signed_val : ℚ) / io_point.scale.toInt + shift
    else ((current_signed_val + shift) / 2 ^ io_point.starting_bit_pos : ℤ)
  else
    let current_unsigned_val := current_unsigned_val io_point raw16
    if io_point.scale ≠ 0 then (current_unsigned_val : ℚ) / io_point.scale.toInt + shift
    else (toUnsigned 64 (current_unsigned_val + shift) / 2 ^ io_point.starting_bit_pos : ℕ)

/-!
## Numbers in registers

What is decoded depends on the number in the registers alone. The number that is read back is
the one that was written, except that a word order reverses its four words.
-/

/-- There is a first of the four words. -/
theorem neZero_four : NeZero 4 := ⟨by decide⟩

/-! ## Points of a configuration -/

/-- What is known of a point that comes from a configuration. -/
structure IoPoint.Extracted (io_point : IoPoint) : Prop where
  uses_masks : io_point.uses_masks = false
  is_forced : io_point.is_forced = false
  /-- A shift makes a point signed, unless the point is a set of bits. -/
  unsigned : io_point.is_signed = false → io_point.shift.toInt = 0 ∨
    (io_point.shift.toInt < 0 ∧ io_point.scale = 0)
  byte_index : 0 < io_point.word_order → io_point.byte_index = orderIndex io_point.word_order

theorem int32_toInt_ne_zero {x : Int32} : x.toInt ≠ 0 ↔ x ≠ 0 := by
  rw [ne_eq, ne_eq, ← Int32.toInt_zero, Int32.toInt_inj]

theorem unsigned_shift (bits signed : Bool) (shift scale : Int32)
    (h : (if bits then false else (if shift = 0 then signed else true)) = false) :
    (if bits && decide (0 < shift) then 0 else shift).toInt = 0 ∨
      ((if bits && decide (0 < shift) then 0 else shift).toInt < 0 ∧
        (if bits then 0 else scale) = 0) := by
  cases bits with
  | false =>
    by_cases hzero : shift = 0
    · simp [hzero]
    · simp [hzero] at h
  | true =>
    by_cases hpositive : 0 < shift
    · simp [hpositive]
    · have hle : shift.toInt ≤ 0 := by
        rw [Int32.lt_iff_toInt_lt, Int32.toInt_zero] at hpositive
        omega
      simp only [hpositive, decide_false, Bool.and_false, Bool.false_eq_true, if_false, if_true,
        and_true]
      omega

/-- The points that the configuration gives are such. -/
theorem extract_new_io_point_extracted (json_io_point : JsonIoPoint) (is_byte_swap : Bool)
    (packed_io_point : Option IoPoint) :
    (extract_new_io_point json_io_point is_byte_swap packed_io_point).Extracted where
  uses_masks := rfl
  is_forced := rfl
  unsigned := unsigned_shift _ _ _ _
  byte_index := by
    intro horder
    exact if_pos horder

/-! ## Registers -/

/-- The order of the registers is a permutation of 1234. -/
def IsWordOrder (word_order : ℕ) : Prop :=
  [word_order / 1000, word_order % 1000 / 100, word_order % 100 / 10, word_order % 10].Perm
    [1, 2, 3, 4]

instance (word_order : ℕ) : Decidable (IsWordOrder word_order) :=
  inferInstanceAs (Decidable (List.Perm _ _))

/-- The four words of a number in the opposite order. -/
def reversed (uval : ℕ) : ℕ :=
  word uval 48 + word uval 32 * 2 ^ 16 + word uval 16 * 2 ^ 32 + word uval 0 * 2 ^ 48

theorem word_lt (uval shift : ℕ) : word uval shift < 2 ^ 16 := Nat.mod_lt _ (by decide)

/-- The words of a number made of four. -/
theorem word_of_words {a b c d : ℕ} (ha : a < 2 ^ 16) (hb : b < 2 ^ 16) (hc : c < 2 ^ 16)
    (hd : d < 2 ^ 16) :
    word (a + b * 2 ^ 16 + c * 2 ^ 32 + d * 2 ^ 48) 0 = a ∧
      word (a + b * 2 ^ 16 + c * 2 ^ 32 + d * 2 ^ 48) 16 = b ∧
      word (a + b * 2 ^ 16 + c * 2 ^ 32 + d * 2 ^ 48) 32 = c ∧
      word (a + b * 2 ^ 16 + c * 2 ^ 32 + d * 2 ^ 48) 48 = d := by
  simp only [word]
  omega

/-- A number is made of its four words. -/
theorem words_eq {uval : ℕ} (h : uval < 2 ^ 64) :
    word uval 0 + word uval 16 * 2 ^ 16 + word uval 32 * 2 ^ 32 + word uval 48 * 2 ^ 48 = uval := by
  simp only [word]
  omega

theorem reversed_reversed {uval : ℕ} (h : uval < 2 ^ 64) : reversed (reversed uval) = uval := by
  have hwords := word_of_words (word_lt uval 48) (word_lt uval 32) (word_lt uval 16)
    (word_lt uval 0)
  rw [reversed]
  simp only [reversed, hwords]
  exact words_eq h

/-- The number that is read back. -/
def IoPoint.sent (io_point : IoPoint) (uval : ℕ) : ℕ :=
  if io_point.size = 4 ∧ 0 < io_point.word_order then reversed uval else uval

theorem IsWordOrder.injective {word_order : ℕ} (h : IsWordOrder word_order) :
    Function.Injective (orderIndex word_order) := by
  have hnodup : [word_order / 1000, word_order % 1000 / 100, word_order % 100 / 10,
      word_order % 10].Nodup := h.nodup_iff.2 (by decide)
  have hget : ∀ i, orderIndex word_order i = ([word_order / 1000, word_order % 1000 / 100,
      word_order % 100 / 10, word_order % 10].get i : ℕ) - 1 := by
    intro i
    fin_cases i <;> rfl
  intro i j hij
  rw [hget, hget, sub_left_inj, Nat.cast_inj] at hij
  exact List.nodup_iff_injective_get.1 hnodup hij

/-- The point has a size that the interface knows. -/
structure IoPoint.Sized (io_point : IoPoint) : Prop where
  size : io_point.size = 1 ∨ io_point.size = 2 ∨ io_point.size = 4

/-- Four registers that are written in an order are read in the opposite one. -/
theorem read_word_order {byte_index : Fin 4 → ℤ} (hinjective : Function.Injective byte_index)
    (regs16 : ℤ → ℕ) (a b c d : ℕ) :
    let regs16 := Function.update (Function.update (Function.update (Function.update regs16
      (byte_index 0) a) (byte_index 1) b) (byte_index 2) c) (byte_index 3) d
    regs16 (byte_index 0) = a ∧ regs16 (byte_index 1) = b ∧ regs16 (byte_index 2) = c ∧
      regs16 (byte_index 3) = d := by
  have hne : ∀ i j : Fin 4, i ≠ j → byte_index i ≠ byte_index j := fun i j hij heq =>
    hij (hinjective heq)
  refine ⟨?_, ?_, ?_, ?_⟩
  · rw [Function.update_of_ne (hne 0 3 (by decide)), Function.update_of_ne (hne 0 2 (by decide)),
      Function.update_of_ne (hne 0 1 (by decide)), Function.update_self]
  · rw [Function.update_of_ne (hne 1 3 (by decide)), Function.update_of_ne (hne 1 2 (by decide)),
      Function.update_self]
  · rw [Function.update_of_ne (hne 2 3 (by decide)), Function.update_self]
  · rw [Function.update_self]

variable {io_point : IoPoint}

/-- The number that is written is read back, or its words in the opposite order. -/
theorem IoPoint.Extracted.unsigned_set (hpoint : io_point.Extracted) (hsized : io_point.Sized)
    (hperm : io_point.word_order = 0 ∨ IsWordOrder io_point.word_order)
    {uval : ℕ} (huval : uval < 2 ^ (16 * io_point.size)) (regs16 : ℤ → ℕ) :
    current_unsigned_val io_point (set_reg16_from_uint64 io_point uval regs16) =
      io_point.sent uval := by
  have hmasked : ∀ value, io_point.masked value = value := by
    intro value
    simp [IoPoint.masked, hpoint.uses_masks]
  have hforced : ∀ value, io_point.forced value = value := by
    intro value
    simp [IoPoint.forced, hpoint.is_forced]
  rcases hsized.size with hsize | hsize | hsize
  · rw [hsize] at huval
    simp only [current_unsigned_val, set_reg16_from_uint64, raw_data, IoPoint.sent, hsize, hmasked,
      hforced, word, if_true]
    norm_num
    omega
  · rw [hsize] at huval
    cases hswap : io_point.is_byte_swap <;>
      simp [current_unsigned_val, set_reg16_from_uint64, raw_data, IoPoint.sent, hsize, hmasked,
        hforced, word, hswap] <;> omega
  · rw [hsize] at huval
    by_cases horder : 0 < io_point.word_order
    · have hinjective : Function.Injective io_point.byte_index := by
        rw [hpoint.byte_index horder]
        rcases hperm with hzero | hperm
        · omega
        · exact hperm.injective
      simp only [current_unsigned_val, set_reg16_from_uint64, IoPoint.sent, hsize, hmasked,
        hforced, horder]
      norm_num
      obtain ⟨h0, h1, h2, h3⟩ := read_word_order hinjective
        (if io_point.is_byte_swap = false then
          Function.update (Function.update (Function.update (Function.update regs16
            0 (word uval 48)) 1 (word uval 32)) 2 (word uval 16)) 3 (word uval 0)
        else
          Function.update (Function.update (Function.update (Function.update regs16
            3 (word uval 48)) 2 (word uval 32)) 1 (word uval 16)) 0 (word uval 0))
        (word uval 48) (word uval 32) (word uval 16) (word uval 0)
      rw [h0, h1, h2]
      simp [reversed]
    · cases hswap : io_point.is_byte_swap <;>
        simp [current_unsigned_val, set_reg16_from_uint64, raw_data, IoPoint.sent, hsize, hmasked,
          hforced, word, hswap, horder] <;> omega

/-! ## Decoding -/

/-- The integer that a number in the registers stands for. -/
def IoPoint.reinterpret (io_point : IoPoint) (uval : ℕ) : ℤ :=
  if io_point.is_signed then Int.bmod uval (2 ^ (16 * io_point.size)) else uval

/-- The value that is decoded from an integer. -/
def IoPoint.output (io_point : IoPoint) (value : ℤ) : ℚ :=
  if io_point.scale ≠ 0 then (value : ℚ) / io_point.scale.toInt + io_point.shift.toInt
  else if io_point.is_signed then
    ((value + io_point.shift.toInt) / 2 ^ io_point.starting_bit_pos : ℤ)
  else (toUnsigned 64 (value + io_point.shift.toInt) / 2 ^ io_point.starting_bit_pos : ℕ)

theorem IoPoint.Sized.current_signed_val (hsized : io_point.Sized) (raw16 : ℤ → ℕ) :
    current_signed_val io_point raw16 =
      Int.bmod (current_unsigned_val io_point raw16) (2 ^ (16 * io_point.size)) := by
  rcases hsized.size with hsize | hsize | hsize <;> simp [GcomRegisters.current_signed_val, hsize]

/-- What is decoded of a number that is written. -/
theorem IoPoint.Extracted.decode_set (hpoint : io_point.Extracted) (hsized : io_point.Sized)
    (hperm : io_point.word_order = 0 ∨ IsWordOrder io_point.word_order)
    (floats : FloatBits) (hfloat : io_point.is_float = false) {uval : ℕ}
    (huval : uval < 2 ^ (16 * io_point.size)) (regs16 : ℤ → ℕ) :
    gcom_decode_any floats io_point (set_reg16_from_uint64 io_point uval regs16) =
      io_point.output (io_point.reinterpret (io_point.sent uval)) := by
  have hunsigned := hpoint.unsigned_set hsized hperm huval regs16
  have hsigned := hsized.current_signed_val (set_reg16_from_uint64 io_point uval regs16)
  rw [hunsigned] at hsigned
  rw [gcom_decode_any, IoPoint.output, IoPoint.reinterpret, hunsigned, hsigned, hfloat]
  cases io_point.is_signed <;> simp

/-!
## Forced points

A forced point should publish what registers that hold its forced value would publish, and a
request for the unforced value what its registers hold. The decoder takes the forced value for
either request, and applies the masks to it for two registers only.
-/

/-- A number in memory, as the registers that begin there. -/
def memoryWords (uval : ℕ) : ℤ → ℕ := fun i => word uval (16 * i.toNat)

/-- `gcom_modbus_decode_debug`: the value that is decoded for a point of the request, from the
registers of the point. -/
def gcom_modbus_decode (floats : FloatBits) (unforced : Bool) (io_point : IoPoint)
    (buf16 : ℤ → ℕ) : ℚ :=
  let bvar := if io_point.is_forced && !unforced then memoryWords io_point.forced_val else buf16
  gcom_decode_any floats io_point bvar

/-! ## What should be published -/

/-- The number that the registers hold, in the order of the point. -/
def IoPoint.numberIn (io_point : IoPoint) (raw16 : ℤ → ℕ) : ℕ :=
  current_unsigned_val {io_point with uses_masks := false, is_forced := false} raw16

/-- The point without its forced value. -/
def IoPoint.unforce (io_point : IoPoint) : IoPoint := {io_point with is_forced := false}

/-! ## Decoding a number -/

/-- The value of a number in the registers. -/
def IoPoint.valueOf (floats : FloatBits) (io_point : IoPoint) (number : ℕ) : ℚ :=
  let shift := io_point.shift.toInt
  if io_point.is_float then
    let current_float_val :=
      if io_point.is_signed || io_point.size = 1 then 0
      else if io_point.size = 2 then floats.value32 number
      else floats.value64 number
    (if io_point.scale ≠ 0 then current_float_val / io_point.scale.toInt else current_float_val) +
      shift
  else if io_point.is_signed then
    let current_signed_val :=
      if io_point.size = 1 then Int.bmod number (2 ^ 16)
      else if io_point.size = 2 then Int.bmod number (2 ^ 32)
      else Int.bmod number (2 ^ 64)
    if io_point.scale ≠ 0 then (current_signed_val : ℚ) / io_point.scale.toInt + shift
    else ((current_signed_val + shift) / 2 ^ io_point.starting_bit_pos : ℤ)
  else if io_point.scale ≠ 0 then (number : ℚ) / io_point.scale.toInt + shift
  else (toUnsigned 64 (number + shift) / 2 ^ io_point.starting_bit_pos : ℕ)

/-- The number that the decoder takes for the forced value. -/
def IoPoint.forcedNumber (io_point : IoPoint) : ℕ :=
  if io_point.size = 2 then io_point.masked io_point.forced_val else io_point.forced_val

/-- What a point publishes whose registers hold a number. -/
def IoPoint.reads (floats : FloatBits) (io_point : IoPoint) (number : ℕ) : ℚ :=
  io_point.valueOf floats (io_point.masked number)

/-- Whatever the registers are, a forced point publishes what registers that hold its forced
value would. A request for the unforced value gives the value of the registers. -/
structure IoPoint.PublishesRight (floats : FloatBits) (io_point : IoPoint) (raw16 : ℤ → ℕ) :
    Prop where
  forced : io_point.is_forced = true → ∀ other,
    gcom_modbus_decode floats false io_point other = io_point.reads floats io_point.forced_val
  unforced : gcom_modbus_decode floats true io_point raw16 =
    gcom_decode_any floats io_point.unforce raw16

variable (floats : FloatBits) {io_point : IoPoint}

theorem decode_eq_valueOf (io_point : IoPoint) (raw16 : ℤ → ℕ) :
    gcom_decode_any floats io_point raw16 =
      io_point.valueOf floats (current_unsigned_val io_point raw16) := rfl

theorem current_unsigned_val_unforce (io_point : IoPoint) (raw16 : ℤ → ℕ) :
    current_unsigned_val io_point.unforce raw16 = io_point.masked (io_point.numberIn raw16) := by
  by_cases hone : io_point.size = 1
  · simp [current_unsigned_val, IoPoint.numberIn, IoPoint.unforce, IoPoint.masked, IoPoint.forced,
      raw_data, hone]
  · by_cases htwo : io_point.size = 2
    · simp [current_unsigned_val, IoPoint.numberIn, IoPoint.unforce, IoPoint.masked,
        IoPoint.forced, raw_data, htwo]
    · simp [current_unsigned_val, IoPoint.numberIn, IoPoint.unforce, IoPoint.masked,
        IoPoint.forced, raw_data, hone, htwo]

theorem current_unsigned_val_forced (hforced : io_point.is_forced = true) (raw16 : ℤ → ℕ) :
    current_unsigned_val io_point raw16 = io_point.forcedNumber := by
  by_cases hone : io_point.size = 1
  · simp [current_unsigned_val, IoPoint.forcedNumber, IoPoint.forced, hone, hforced]
  · by_cases htwo : io_point.size = 2
    · simp [current_unsigned_val, IoPoint.forcedNumber, IoPoint.forced, htwo, hforced]
    · simp [current_unsigned_val, IoPoint.forcedNumber, IoPoint.forced, hone, hforced]

theorem decode_unforce (io_point : IoPoint) (raw16 : ℤ → ℕ) :
    gcom_decode_any floats io_point.unforce raw16 =
      io_point.reads floats (io_point.numberIn raw16) := by
  rw [decode_eq_valueOf, current_unsigned_val_unforce]
  rfl

/-- Either request gives the forced value of a forced point. -/
theorem decode_forced (hforced : io_point.is_forced = true) (unforced : Bool) (raw16 : ℤ → ℕ) :
    gcom_modbus_decode floats unforced io_point raw16 =
      io_point.valueOf floats io_point.forcedNumber := by
  rw [gcom_modbus_decode, decode_eq_valueOf, current_unsigned_val_forced hforced]

theorem decode_not_forced (hforced : io_point.is_forced = false) (unforced : Bool) (raw16 : ℤ → ℕ) :
    gcom_modbus_decode floats unforced io_point raw16 =
      gcom_decode_any floats io_point.unforce raw16 := by
  have hunforce : io_point.unforce = io_point := by
    rw [IoPoint.unforce, ← hforced]
  rw [hunforce]
  simp [gcom_modbus_decode, hforced]

/-! ## When the right value is published -/

/-- The masks leave the forced value as it is, where they are not applied to it. -/
def IoPoint.MasksKeep (floats : FloatBits) (io_point : IoPoint) : Prop :=
  io_point.size ≠ 2 →
    io_point.valueOf floats io_point.forced_val = io_point.reads floats io_point.forced_val

theorem IoPoint.masksKeep_iff (io_point : IoPoint) :
    io_point.MasksKeep floats ↔ io_point.valueOf floats io_point.forcedNumber =
      io_point.reads floats io_point.forced_val := by
  rw [IoPoint.MasksKeep, IoPoint.forcedNumber]
  by_cases htwo : io_point.size = 2
  · simp [htwo, IoPoint.reads]
  · simp [htwo]

/-- The right values are published exactly where the point is not forced, or the masks leave
the forced value as it is and the registers have the value that is forced. -/
theorem publishesRight_iff (io_point : IoPoint) (raw16 : ℤ → ℕ) :
    io_point.PublishesRight floats raw16 ↔
      (io_point.is_forced = true → io_point.MasksKeep floats ∧
        io_point.reads floats io_point.forced_val =
          io_point.reads floats (io_point.numberIn raw16)) := by
  rw [IoPoint.masksKeep_iff]
  constructor
  · intro hright hforced
    have hnormal := hright.forced hforced raw16
    have hunforced := hright.unforced
    rw [decode_forced floats hforced] at hnormal hunforced
    rw [decode_unforce] at hunforced
    exact ⟨hnormal, hnormal.symm.trans hunforced⟩
  · intro hright
    cases hforced : io_point.is_forced with
    | false =>
      constructor
      · intro hforced'
        rw [hforced] at hforced'
        contradiction
      · exact decode_not_forced floats hforced true raw16
    | true =>
      obtain ⟨hkeep, hvalue⟩ := hright hforced
      constructor
      · intro _ other
        rw [decode_forced floats hforced, hkeep]
      · rw [decode_forced floats hforced, decode_unforce, hkeep, hvalue]

/-- A register of 7 that is forced at 5. -/
def forcedPoint : IoPoint :=
  {IoPoint.fresh false with
    is_forced := true
    forced_val := 5}

/-- The request for the unforced value gets the forced one. -/
theorem unforced_request_forced :
    ¬ ∀ (floats : FloatBits) (io_point : IoPoint) (raw16 : ℤ → ℕ),
      io_point.PublishesRight floats raw16 := by
  intro hall
  have hright := (hall ⟨fun _ => 0, fun _ => 0, 0, fun _ => 0, fun _ => 0⟩ forcedPoint
    (fun _ => 7)).unforced
  rw [decode_forced _ rfl, decode_unforce] at hright
  norm_num [IoPoint.valueOf, IoPoint.reads, IoPoint.forcedNumber, IoPoint.masked,
    IoPoint.numberIn, forcedPoint, IoPoint.fresh, current_unsigned_val, raw_data,
    IoPoint.forced, toUnsigned, Int32.toInt_zero] at hright
  exact absurd hright (by decide)

/-!
## Raw values

The raw value of a point is meant to be the number in its registers that is published. With a
word order the raw value puts the registers into its words from the high end, where the decoder
takes the words from the registers from the low end.
-/

attribute [local instance] neZero_four

/-- The number that is in memory as four words. -/
def fromWords (uval : ℤ → ℕ) : ℕ :=
  uval 0 + uval 1 * 2 ^ 16 + uval 2 * 2 ^ 32 + uval 3 * 2 ^ 48

/-- `store_raw_data`: the raw value of a point from its registers. The words in memory are
`uval` before, and `raw_val` was the value. -/
def store_raw_data (io_point : IoPoint) (raw_val : ℕ) (uval : ℤ → ℕ) (buf16 : ℤ → ℕ) : ℕ :=
  if io_point.size = 1 then buf16 0
  else if io_point.size = 2 then
    let uval :=
      if io_point.is_byte_swap then Function.update (Function.update uval 0 (buf16 0)) 1 (buf16 1)
      else Function.update (Function.update uval 1 (buf16 0)) 0 (buf16 1)
    uval 0 + uval 1 * 2 ^ 16
  else if io_point.size = 4 then
    fromWords (Function.update (Function.update (Function.update (Function.update uval
      (io_point.byte_index 0) (buf16 3)) (io_point.byte_index 1) (buf16 2))
      (io_point.byte_index 2) (buf16 1)) (io_point.byte_index 3) (buf16 0))
  else raw_val

/-! ## Indices of a point -/

/-- The indices of the registers are the ones of the configuration. -/
structure IoPoint.Indexed (io_point : IoPoint) : Prop where
  byte_index : io_point.byte_index =
    if 0 < io_point.word_order then orderIndex io_point.word_order
    else if io_point.is_byte_swap then fun i => 3 - i
    else fun i => i

theorem extract_new_io_point_indexed (json_io_point : JsonIoPoint) (is_byte_swap : Bool)
    (packed_io_point : Option IoPoint) :
    (extract_new_io_point json_io_point is_byte_swap packed_io_point).Indexed where
  byte_index := rfl

/-- The position that an order gives to a register, counted from zero. -/
def orderPosition (word_order : ℕ) (i : Fin 4) : Fin 4 :=
  Fin.ofNat 4 (orderIndex word_order i).toNat

theorem IsWordOrder.bounds {word_order : ℕ} (horder : IsWordOrder word_order) (i : Fin 4) :
    0 ≤ orderIndex word_order i ∧ orderIndex word_order i < 4 := by
  have hmem : ∀ digit ∈ [word_order / 1000, word_order % 1000 / 100, word_order % 100 / 10,
      word_order % 10], 1 ≤ digit ∧ digit ≤ 4 := by
    intro digit hdigit
    have hfour := horder.mem_iff.1 hdigit
    simp only [List.mem_cons, List.not_mem_nil, or_false] at hfour
    omega
  simp only [List.mem_cons, forall_eq_or_imp] at hmem
  fin_cases i <;> simp [orderIndex] <;> omega

theorem IsWordOrder.orderIndex_eq {word_order : ℕ} (horder : IsWordOrder word_order)
    (i : Fin 4) : orderIndex word_order i = ((orderPosition word_order i : Fin 4) : ℕ) := by
  have hbounds := horder.bounds i
  have hsmall : (orderIndex word_order i).toNat < 4 := by omega
  rw [orderPosition, Fin.val_ofNat, Nat.mod_eq_of_lt hsmall]
  omega

theorem IsWordOrder.position_injective {word_order : ℕ} (horder : IsWordOrder word_order) :
    Function.Injective (orderPosition word_order) := by
  intro i j hij
  apply horder.injective
  rw [horder.orderIndex_eq, horder.orderIndex_eq, hij]

/-! ## Words -/

/-- Two numbers of four words are the same where their words are. -/
theorem fromWords_inj {uval other : ℤ → ℕ} (huval : ∀ i : Fin 4, uval (i : ℕ) < 2 ^ 16)
    (hother : ∀ i : Fin 4, other (i : ℕ) < 2 ^ 16) :
    fromWords uval = fromWords other ↔ ∀ i : Fin 4, uval (i : ℕ) = other (i : ℕ) := by
  simp only [Fin.forall_fin_succ] at huval hother ⊢
  simp [fromWords] at huval hother ⊢
  omega

variable {word_order : ℕ}

/-- The words that `store_raw_data` puts together. -/
def stored (word_order : ℕ) (uval buf16 : ℤ → ℕ) : ℤ → ℕ :=
  Function.update (Function.update (Function.update (Function.update uval
    (orderIndex word_order 0) (buf16 3)) (orderIndex word_order 1) (buf16 2))
    (orderIndex word_order 2) (buf16 1)) (orderIndex word_order 3) (buf16 0)

theorem stored_orderIndex (horder : IsWordOrder word_order) (uval buf16 : ℤ → ℕ) (i : Fin 4) :
    stored word_order uval buf16 (orderIndex word_order i) = buf16 (3 - (i : ℕ)) := by
  have hread := read_word_order horder.injective uval (buf16 3) (buf16 2) (buf16 1) (buf16 0)
  fin_cases i
  · exact hread.1
  · exact hread.2.1
  · exact hread.2.2.1
  · exact hread.2.2.2

/-- All four words come from registers. -/
theorem stored_at (horder : IsWordOrder word_order) (uval buf16 : ℤ → ℕ) (j : Fin 4) :
    ∃ i : Fin 4, orderPosition word_order i = j ∧
      stored word_order uval buf16 (j : ℕ) = buf16 (3 - (i : ℕ)) := by
  obtain ⟨i, hi⟩ := (Finite.injective_iff_surjective.1 horder.position_injective) j
  have hstored := stored_orderIndex horder uval buf16 i
  rw [horder.orderIndex_eq, hi] at hstored
  exact ⟨i, hi, hstored⟩

/-- The words that are stored are the ones that are decoded exactly where the order, taken
twice, turns the registers around. -/
theorem stored_eq_iff (horder : IsWordOrder word_order) (uval buf16 : ℤ → ℕ) :
    (∀ j : Fin 4, stored word_order uval buf16 (j : ℕ) = buf16 (orderIndex word_order j)) ↔
      ∀ i : Fin 4, buf16 (3 - (i : ℕ)) =
        buf16 (orderIndex word_order (orderPosition word_order i)) := by
  constructor
  · intro hwords i
    have hstored := stored_orderIndex horder uval buf16 i
    rw [horder.orderIndex_eq, hwords] at hstored
    exact hstored.symm
  · intro htwice j
    obtain ⟨i, hi, hstored⟩ := stored_at horder uval buf16 j
    rw [hstored, htwice, hi]

/-- The order, taken twice, turns four registers around. -/
def TurnsAround (word_order : ℕ) : Prop :=
  ∀ i : Fin 4, orderIndex word_order (orderPosition word_order i) = 3 - ((i : ℕ) : ℤ)

theorem square_turns : ∀ position : Fin 4 → Fin 4, (∀ i, position (position i) = 3 - i) →
    position = ![1, 3, 0, 2] ∨ position = ![2, 0, 3, 1] := by
  simp only [Fin.forall_fin_succ_pi, Fin.forall_fin_zero_pi]
  intro first
  fin_cases first <;> decide +kernel

theorem turnsAround_iff (horder : IsWordOrder word_order) :
    TurnsAround word_order ↔ word_order = 2413 ∨ word_order = 3142 := by
  constructor
  · intro hturns
    have hpositions : ∀ i : Fin 4,
        orderPosition word_order (orderPosition word_order i) = 3 - i := by
      intro i
      have hturn := hturns i
      rw [horder.orderIndex_eq] at hturn
      omega
    have hfirst := horder.orderIndex_eq 0
    have hsecond := horder.orderIndex_eq 1
    have hthird := horder.orderIndex_eq 2
    have hfourth := horder.orderIndex_eq 3
    rcases square_turns _ hpositions with hcycle | hcycle
    · rw [hcycle] at hfirst hsecond hthird hfourth
      simp [orderIndex] at hfirst hsecond hthird hfourth
      omega
    · rw [hcycle] at hfirst hsecond hthird hfourth
      simp [orderIndex] at hfirst hsecond hthird hfourth
      omega
  · rintro (rfl | rfl)
    · unfold TurnsAround
      decide
    · unfold TurnsAround
      decide

/-! ## The raw value and the decoded number -/

/-- With a word order, each register holds what is in the register that the order, taken twice,
gives to its counterpart. -/
def IoPoint.Matches (io_point : IoPoint) (buf16 : ℤ → ℕ) : Prop :=
  io_point.size = 4 → 0 < io_point.word_order → ∀ i : Fin 4, buf16 (3 - (i : ℕ)) =
    buf16 (orderIndex io_point.word_order (orderPosition io_point.word_order i))

/-- A point that is neither masked nor forced, as it is configured. -/
structure IoPoint.Bare (io_point : IoPoint) : Prop where
  indexed : io_point.Indexed
  sized : io_point.Sized
  uses_masks : io_point.uses_masks = false
  is_forced : io_point.is_forced = false
  word_order : io_point.word_order = 0 ∨ IsWordOrder io_point.word_order

variable {io_point : IoPoint}

theorem IoPoint.Bare.masked (hbare : io_point.Bare) (value : ℕ) :
    io_point.masked value = value := by
  simp [IoPoint.masked, hbare.uses_masks]

theorem IoPoint.Bare.forced (hbare : io_point.Bare) (value : ℕ) :
    io_point.forced value = value := by
  simp [IoPoint.forced, hbare.is_forced]

/-- One and two registers, and four without a word order. -/
theorem IoPoint.Bare.raw_val_unordered (hbare : io_point.Bare)
    (hunordered : io_point.size = 4 → io_point.word_order = 0) (raw_val : ℕ) (uval buf16 : ℤ → ℕ) :
    store_raw_data io_point raw_val uval buf16 = current_unsigned_val io_point buf16 := by
  have hindex := hbare.indexed.byte_index
  rcases hbare.sized.size with hsize | hsize | hsize
  · simp [store_raw_data, current_unsigned_val, raw_data, hsize, hbare.masked, hbare.forced]
  · cases hswap : io_point.is_byte_swap with
    | false =>
      simp [store_raw_data, current_unsigned_val, raw_data, hsize, hbare.masked, hbare.forced,
        hswap]
      omega
    | true =>
      simp [store_raw_data, current_unsigned_val, hsize, hbare.masked, hbare.forced, hswap]
  · have hzero := hunordered hsize
    cases hswap : io_point.is_byte_swap with
    | false =>
      simp [store_raw_data, current_unsigned_val, raw_data, hsize, hbare.masked, hbare.forced,
        hswap, hzero, hindex, fromWords]
      omega
    | true =>
      simp [store_raw_data, current_unsigned_val, hsize, hbare.masked, hbare.forced, hswap,
        hzero, hindex, fromWords]

/-- Four registers with a word order. -/
theorem IoPoint.Bare.raw_val_ordered (hbare : io_point.Bare) (hsize : io_point.size = 4)
    (horder : 0 < io_point.word_order) (raw_val : ℕ) (uval : ℤ → ℕ) {buf16 : ℤ → ℕ}
    (hbuf : ∀ i, buf16 i < 2 ^ 16) :
    store_raw_data io_point raw_val uval buf16 = current_unsigned_val io_point buf16 ↔
      io_point.Matches buf16 := by
  have hperm : IsWordOrder io_point.word_order := by
    rcases hbare.word_order with hzero | hperm
    · omega
    · exact hperm
  have hindex := hbare.indexed.byte_index
  rw [if_pos horder] at hindex
  have hstore : store_raw_data io_point raw_val uval buf16 =
      fromWords (stored io_point.word_order uval buf16) := by
    simp [store_raw_data, hsize, hindex, stored]
  let decoded : ℤ → ℕ := fun j =>
    if hj : 0 ≤ j ∧ j < 4 then buf16 (orderIndex io_point.word_order ⟨j.toNat, by omega⟩) else 0
  have hdecoded : ∀ j : Fin 4,
      decoded (j : ℕ) = buf16 (orderIndex io_point.word_order j) := by
    intro j
    have hj : 0 ≤ ((j : ℕ) : ℤ) ∧ ((j : ℕ) : ℤ) < 4 := by omega
    simp [decoded]
  have hdecode : current_unsigned_val io_point buf16 = fromWords decoded := by
    simp [current_unsigned_val, hsize, horder, hbare.masked, hbare.forced, hindex, fromWords,
      decoded]
  have hstored : ∀ j : Fin 4, stored io_point.word_order uval buf16 (j : ℕ) < 2 ^ 16 := by
    intro j
    obtain ⟨i, -, hi⟩ := stored_at hperm uval buf16 j
    rw [hi]
    exact hbuf _
  have hsmall : ∀ j : Fin 4, decoded (j : ℕ) < 2 ^ 16 := by
    intro j
    rw [hdecoded]
    exact hbuf _
  rw [hstore, hdecode, fromWords_inj hstored hsmall]
  simp only [hdecoded]
  rw [stored_eq_iff hperm]
  exact ⟨fun htwice _ _ => htwice, fun hmatches => hmatches hsize horder⟩

theorem IoPoint.Bare.raw_val_iff (hbare : io_point.Bare) (raw_val : ℕ) (uval : ℤ → ℕ)
    {buf16 : ℤ → ℕ} (hbuf : ∀ i, buf16 i < 2 ^ 16) :
    store_raw_data io_point raw_val uval buf16 = current_unsigned_val io_point buf16 ↔
      io_point.Matches buf16 := by
  by_cases hordered : io_point.size = 4 ∧ 0 < io_point.word_order
  · exact hbare.raw_val_ordered hordered.1 hordered.2 raw_val uval hbuf
  · have hmatches : io_point.Matches buf16 := fun hsize horder =>
      absurd ⟨hsize, horder⟩ hordered
    have hequal := hbare.raw_val_unordered (by omega) raw_val uval buf16
    exact ⟨fun _ => hmatches, fun _ => hequal⟩

/-- The registers hold their own positions. -/
def positions (i : ℤ) : ℕ := i.toNat % 2 ^ 16

/-- Any contents match where the order, taken twice, turns the registers around. -/
theorem IoPoint.matches_all_iff (hsize : io_point.size = 4)
    (hperm : IsWordOrder io_point.word_order) (horder : 0 < io_point.word_order) :
    (∀ buf16 : ℤ → ℕ, (∀ i, buf16 i < 2 ^ 16) → io_point.Matches buf16) ↔
      TurnsAround io_point.word_order := by
  constructor
  · intro hall i
    have hmatches := hall positions (fun i => Nat.mod_lt _ (by norm_num)) hsize horder i
    have hbounds := hperm.bounds (orderPosition io_point.word_order i)
    rw [positions, positions, Nat.mod_eq_of_lt (by omega), Nat.mod_eq_of_lt (by omega)] at hmatches
    omega
  · intro hturns buf16 _ _ _ i
    rw [hturns i]

/-- The raw value is the number that is decoded exactly where the registers match, and for all
contents exactly where there is no word order or one of two. -/
theorem raw_val_eq_decoded_iff (hbare : io_point.Bare) (raw_val : ℕ) (uval : ℤ → ℕ) :
    (∀ buf16 : ℤ → ℕ, (∀ i, buf16 i < 2 ^ 16) →
      (store_raw_data io_point raw_val uval buf16 = current_unsigned_val io_point buf16 ↔
        io_point.Matches buf16)) ∧
    ((∀ buf16 : ℤ → ℕ, (∀ i, buf16 i < 2 ^ 16) →
        store_raw_data io_point raw_val uval buf16 = current_unsigned_val io_point buf16) ↔
      io_point.size ≠ 4 ∨ io_point.word_order = 0 ∨ io_point.word_order = 2413 ∨
        io_point.word_order = 3142) := by
  constructor
  · intro buf16 hbuf
    exact hbare.raw_val_iff raw_val uval hbuf
  · have hmatches : (∀ buf16 : ℤ → ℕ, (∀ i, buf16 i < 2 ^ 16) →
        store_raw_data io_point raw_val uval buf16 = current_unsigned_val io_point buf16) ↔
        ∀ buf16 : ℤ → ℕ, (∀ i, buf16 i < 2 ^ 16) → io_point.Matches buf16 :=
      forall₂_congr fun buf16 hbuf => hbare.raw_val_iff raw_val uval hbuf
    rw [hmatches]
    by_cases hordered : io_point.size = 4 ∧ 0 < io_point.word_order
    · have hperm : IsWordOrder io_point.word_order := by
        rcases hbare.word_order with hzero | hperm
        · omega
        · exact hperm
      rw [IoPoint.matches_all_iff hordered.1 hperm hordered.2, turnsAround_iff hperm]
      omega
    · have hmatch : ∀ buf16 : ℤ → ℕ, (∀ i, buf16 i < 2 ^ 16) → io_point.Matches buf16 :=
        fun buf16 _ hsize horder => absurd ⟨hsize, horder⟩ hordered
      exact iff_of_true hmatch (by omega)

/-- A point of four registers in an order. -/
def orderedPoint (word_order : ℕ) : IoPoint :=
  extract_new_io_point ⟨some 4, none, none, none, none, none, none, some word_order, none, none,
    none, none, none, none⟩ false none

theorem orderedPoint_bare {word_order : ℕ} (horder : IsWordOrder word_order) :
    (orderedPoint word_order).Bare where
  indexed := extract_new_io_point_indexed _ _ _
  sized := ⟨Or.inr (Or.inr rfl)⟩
  uses_masks := rfl
  is_forced := rfl
  word_order := Or.inr horder

theorem raw_val_eq_decoded_iff_2413 :
    store_raw_data (orderedPoint 2413) 0 (fun _ => 0) positions =
      current_unsigned_val (orderedPoint 2413) positions :=
  (raw_val_eq_decoded_iff (orderedPoint_bare (by decide)) 0 (fun _ => 0)).2.2
    (Or.inr (Or.inr (Or.inl rfl))) positions (fun _ => Nat.mod_lt _ (by norm_num))

/-- With the order 1234 the words of the raw value are the decoded ones turned around. -/
theorem raw_val_1234 :
    ¬ ∀ (io_point : IoPoint) (raw_val : ℕ) (uval buf16 : ℤ → ℕ), io_point.Bare →
      (∀ i, buf16 i < 2 ^ 16) →
      store_raw_data io_point raw_val uval buf16 = current_unsigned_val io_point buf16 := by
  intro hall
  have hequal := hall (orderedPoint 1234) 0 (fun _ => 0) positions
    (orderedPoint_bare (by decide)) (fun _ => Nat.mod_lt _ (by norm_num))
  exact absurd hequal (by decide)

end HybridOs.GcomRegisters
