import HybridOs.GcomRegisters
import HybridOs.GcomRegistersRoundTrip

/-!
# The other encoding

A value is also encoded by a copy of the encoding that limits nothing, takes no bool as a number
and no unsigned value of 64 bits at all. Where the number of a value fits the registers, both
copies write the same registers, with few exceptions.
-/

namespace HybridOs.GcomRegisters

attribute [local instance] neZero_four

/-- The requests in the URI of a set. -/
structure UriReq where
  is_force_request : Bool
  is_unforce_request : Bool
  is_enable_request : Bool
  is_disable_request : Bool

/-- A point with the fields that only this encoding sets. -/
structure GetPoint where
  io_point : IoPoint
  is_enabled : Bool
  normal_set : Bool

/-- The integers of 64 bits. -/
def IsInt64 (value : ℤ) : Prop := -2 ^ 63 ≤ value ∧ value < 2 ^ 63

instance (value : ℤ) : Decidable (IsInt64 value) := inferInstanceAs (Decidable (_ ∧ _))

/-- The conversion of a floating-point number to an unsigned type, where it is defined. -/
def convertUnsigned (width : ℕ) (value : ℚ) : Option ℕ :=
  if 0 ≤ truncate value ∧ truncate value < 2 ^ width then
    some (toUnsigned width (truncate value))
  else none

/-- The conversion of a floating-point number to a signed type, where it is defined, as the bits
of the integer. -/
def convertSigned (width : ℕ) (value : ℚ) : Option ℕ :=
  if -2 ^ (width - 1) ≤ truncate value ∧ truncate value < 2 ^ (width - 1) then
    some (toUnsigned width (truncate value))
  else none

/-- A signed value that is read, where no integer overflows. -/
def IoPoint.getInt (io_point : IoPoint) (value : ℤ) : Option Vars :=
  if IsInt64 (value * 2 ^ io_point.starting_bit_pos) ∧
      IsInt64 (value * 2 ^ io_point.starting_bit_pos - io_point.shift.toInt) then
    some (io_point.readInt value)
  else none

/-- The variables of `get_any_to_uint64` when the value is read. A value of the type `uint64_t`
is cast to `int64_t`, which throws. -/
def IoPoint.getVars (io_point : IoPoint) : Scalar → Option Vars
  | .bool value => some
    { u64val := 0
      i64val := if value then 1 else 0
      f64val := 0
      is_uint := false
      is_int := false }
  | .int32 value => io_point.getInt value.toInt
  | .int64 value => io_point.getInt value.toInt
  | .uint32 value => some (io_point.readUint value.toNat)
  | .uint64 _ => none
  | .double value => some
    { u64val := 0
      i64val := 0
      f64val := io_point.scaled (value - io_point.shift.toInt)
      is_uint := false
      is_int := false }
  | .other => some
    { u64val := 0
      i64val := 0
      f64val := 0
      is_uint := false
      is_int := false }

/-- The branch of one register. -/
def IoPoint.get16 (io_point : IoPoint) (vars : Vars) : Option ℕ :=
  let u16val :=
    if vars.is_uint && io_point.scale == 0 then some (toUnsigned 16 vars.u64val)
    else if vars.is_int && io_point.scale == 0 then some (toUnsigned 16 vars.i64val)
    else if !io_point.is_signed then convertUnsigned 16 vars.f64val
    else convertSigned 16 vars.f64val
  u16val.map fun u16val => u16val ^^^ (io_point.invert_mask % 2 ^ 16)

/-- The branch of two registers. -/
def IoPoint.get32 (floats : FloatBits) (io_point : IoPoint) (vars : Vars) : Option ℕ :=
  let u32val :=
    if vars.is_uint && io_point.scale == 0 then
      if !io_point.is_float then some (toUnsigned 32 vars.u64val)
      else some (floats.bits32 vars.u64val)
    else if vars.is_int && io_point.scale == 0 then
      if !io_point.is_float then some (toUnsigned 32 vars.i64val)
      else some (floats.bits32 vars.i64val)
    else if io_point.is_float then some (floats.bits32 vars.f64val)
    else if !io_point.is_signed then convertUnsigned 32 vars.f64val
    else convertSigned 32 vars.f64val
  u32val.map fun u32val => u32val ^^^ (io_point.invert_mask % 2 ^ 32)

/-- The branch of four registers. -/
def IoPoint.get64 (floats : FloatBits) (io_point : IoPoint) (vars : Vars) : Option ℕ :=
  let u64val :=
    if vars.is_uint && io_point.scale == 0 then
      if !io_point.is_float then some vars.u64val
      else some (floats.bits64 vars.u64val)
    else if vars.is_int && io_point.scale == 0 then
      if !io_point.is_float then some (toUnsigned 64 vars.i64val)
      else some (floats.bits64 vars.i64val)
    else if io_point.is_float then some (floats.bits64 vars.f64val)
    else if !io_point.is_signed then convertUnsigned 64 vars.f64val
    else convertSigned 64 vars.f64val
  u64val.map fun u64val => u64val ^^^ (io_point.invert_mask % 2 ^ 64)

/-- The point is forced at the encoded value where that is requested. -/
def IoPoint.requestForce (uri : UriReq) (io_point : IoPoint) (uval : ℕ) : IoPoint :=
  if uri.is_force_request then {io_point with is_forced := true, forced_val := uval}
  else io_point

/-- The registers of a value of 16 bits. -/
def getRegs16 (u16val : ℕ) (regs16 : ℤ → ℕ) : ℤ → ℕ := Function.update regs16 0 u16val

/-- The registers of a value of 32 bits. -/
def getRegs32 (io_point : IoPoint) (u32val : ℕ) (regs16 : ℤ → ℕ) : ℤ → ℕ :=
  if !io_point.is_byte_swap then
    Function.update (Function.update regs16 0 (word u32val 16)) 1 (word u32val 0)
  else Function.update (Function.update regs16 0 (word u32val 0)) 1 (word u32val 16)

/-- The registers of a value of 64 bits. -/
def getRegs64 (io_point : IoPoint) (u64val : ℕ) (regs16 : ℤ → ℕ) : ℤ → ℕ :=
  let regs16 :=
    if !io_point.is_byte_swap then
      Function.update (Function.update (Function.update (Function.update regs16
        0 (word u64val 48)) 1 (word u64val 32)) 2 (word u64val 16)) 3 (word u64val 0)
    else
      Function.update (Function.update (Function.update (Function.update regs16
        0 (word u64val 0)) 1 (word u64val 16)) 2 (word u64val 32)) 3 (word u64val 48)
  if 0 < io_point.word_order then
    Function.update (Function.update (Function.update (Function.update regs16
      (io_point.byte_index 0) (word u64val 48)) (io_point.byte_index 1) (word u64val 32))
      (io_point.byte_index 2) (word u64val 16)) (io_point.byte_index 3) (word u64val 0)
  else regs16

/-- `get_any_to_uint64`: the point, the value and the registers, or nothing where it throws or
converts a number that does not fit the type. -/
def get_any_to_uint64 (floats : FloatBits) (point : GetPoint) (val : Any) (uri : UriReq)
    (regs16 : ℤ → ℕ) : Option (GetPoint × ℕ × (ℤ → ℕ)) :=
  let io_point :=
    if uri.is_unforce_request then {point.io_point with is_forced := false} else point.io_point
  let is_enabled := if uri.is_enable_request then true else point.is_enabled
  let is_enabled := if uri.is_disable_request then false else is_enabled
  if io_point.is_bit_field || io_point.is_enum || io_point.packed_register then
    some (⟨io_point, is_enabled, false⟩, 0, regs16)
  else
    (io_point.getVars val.scalar).bind fun vars =>
      if io_point.size = 1 then
        (io_point.get16 vars).map fun u16val =>
          let io_point := io_point.requestForce uri u16val
          let u16val := if io_point.is_forced then io_point.forced_val % 2 ^ 16 else u16val
          (⟨io_point, is_enabled, true⟩, u16val, getRegs16 u16val regs16)
      else if io_point.size = 2 then
        (io_point.get32 floats vars).map fun u32val =>
          let io_point := io_point.requestForce uri u32val
          let u32val := if io_point.is_forced then io_point.forced_val % 2 ^ 32 else u32val
          (⟨io_point, is_enabled, true⟩, u32val, getRegs32 io_point u32val regs16)
      else if io_point.size = 4 then
        (io_point.get64 floats vars).map fun u64val =>
          let io_point := io_point.requestForce uri u64val
          let u64val := if io_point.is_forced then io_point.forced_val else u64val
          (⟨io_point, is_enabled, true⟩, u64val, getRegs64 io_point u64val regs16)
      else some (⟨io_point, is_enabled, true⟩, vars.u64val, regs16)

/-! ## Registers -/

theorem getRegs16_eq {io_point : IoPoint} (hsize : io_point.size = 1) {u16val : ℕ}
    (hu16val : u16val < 2 ^ 16) (regs16 : ℤ → ℕ) :
    getRegs16 u16val regs16 = set_reg16_from_uint64 io_point u16val regs16 := by
  have hword : word u16val 0 = u16val := by
    rw [word, pow_zero, Nat.div_one, Nat.mod_eq_of_lt hu16val]
  rw [getRegs16, set_reg16_from_uint64, if_pos hsize, hword]

theorem getRegs32_eq {io_point : IoPoint} (hsize : io_point.size = 2) (u32val : ℕ)
    (regs16 : ℤ → ℕ) :
    getRegs32 io_point u32val regs16 = set_reg16_from_uint64 io_point u32val regs16 := by
  have hone : ¬ io_point.size = 1 := by omega
  rw [getRegs32, set_reg16_from_uint64, if_neg hone, if_pos hsize]

theorem getRegs64_eq {io_point : IoPoint} (hsize : io_point.size = 4) (u64val : ℕ)
    (regs16 : ℤ → ℕ) :
    getRegs64 io_point u64val regs16 = set_reg16_from_uint64 io_point u64val regs16 := by
  have hswapped : Function.update (Function.update (Function.update (Function.update regs16
      0 (word u64val 0)) 1 (word u64val 16)) 2 (word u64val 32)) 3 (word u64val 48) =
      Function.update (Function.update (Function.update (Function.update regs16
      3 (word u64val 48)) 2 (word u64val 32)) 1 (word u64val 16)) 0 (word u64val 0) := by
    funext i
    simp only [Function.update_apply]
    split_ifs <;> first | rfl | omega
  have hone : ¬ io_point.size = 1 := by omega
  have htwo : ¬ io_point.size = 2 := by omega
  rw [getRegs64, set_reg16_from_uint64, if_neg hone, if_neg htwo, if_pos hsize, hswapped]

/-! ## A request without forcing -/

/-- Neither forcing nor the end of it is requested. -/
structure UriReq.Plain (uri : UriReq) : Prop where
  is_force_request : uri.is_force_request = false
  is_unforce_request : uri.is_unforce_request = false

/-- The point is set as a number. -/
def IoPoint.normalSet (io_point : IoPoint) : Bool :=
  !(io_point.is_bit_field || io_point.is_enum || io_point.packed_register)

/-- The value that is encoded for the variables. -/
def IoPoint.getBits (floats : FloatBits) (io_point : IoPoint) (vars : Vars) : Option ℕ :=
  if io_point.size = 1 then io_point.get16 vars
  else if io_point.size = 2 then io_point.get32 floats vars
  else io_point.get64 floats vars

variable {floats : FloatBits} {point : GetPoint} {val : Any} {uri : UriReq} {regs16 : ℤ → ℕ}

theorem get16_lt {io_point : IoPoint} {vars : Vars} {u16val : ℕ}
    (hget : io_point.get16 vars = some u16val) : u16val < 2 ^ 16 := by
  have hmask : io_point.invert_mask % 2 ^ 16 < 2 ^ 16 := Nat.mod_lt _ (by norm_num)
  have hbits : ∀ value : ℤ, toUnsigned 16 value ^^^ io_point.invert_mask % 2 ^ 16 < 2 ^ 16 :=
    fun value => Nat.xor_lt_two_pow (toUnsigned_lt 16 value) hmask
  simp only [IoPoint.get16, convertUnsigned, convertSigned] at hget
  split_ifs at hget
  · simp only [Option.map_some, Option.some.injEq] at hget
    exact hget ▸ hbits _
  · simp only [Option.map_some, Option.some.injEq] at hget
    exact hget ▸ hbits _
  · simp only [Option.map_some, Option.some.injEq] at hget
    exact hget ▸ hbits _
  · simp at hget
  · simp only [Option.map_some, Option.some.injEq] at hget
    exact hget ▸ hbits _
  · simp at hget

/-- What is returned for a number, where nothing is forced. -/
theorem get_any_of_normal (hplain : uri.Plain) (hforced : point.io_point.is_forced = false)
    (hsized : point.io_point.Sized) (hnormal : point.io_point.normalSet = true) :
    (get_any_to_uint64 floats point val uri regs16).map Prod.snd =
      (point.io_point.getVars val.scalar).bind fun vars =>
        (point.io_point.getBits floats vars).map fun uval =>
          (uval, set_reg16_from_uint64 point.io_point uval regs16) := by
  have hset : (point.io_point.is_bit_field || point.io_point.is_enum ||
      point.io_point.packed_register) = false := by
    rw [IoPoint.normalSet] at hnormal
    simpa using hnormal
  rw [get_any_to_uint64]
  simp only [hplain.is_unforce_request, Bool.false_eq_true, if_false, hset,
    IoPoint.requestForce, hplain.is_force_request, hforced]
  cases hvars : point.io_point.getVars val.scalar with
  | none => rfl
  | some vars =>
    simp only [Option.bind_some]
    rcases hsized.size with hsize | hsize | hsize
    · rw [if_pos hsize, IoPoint.getBits, if_pos hsize]
      cases hget : point.io_point.get16 vars with
      | none => rfl
      | some u16val =>
        simp only [Option.map_some]
        rw [getRegs16_eq hsize (get16_lt hget)]
    · have hone : ¬ point.io_point.size = 1 := by omega
      rw [if_neg hone, if_pos hsize, IoPoint.getBits, if_neg hone, if_pos hsize]
      simp only [Option.map_map, Function.comp_def, getRegs32_eq hsize]
    · have hone : ¬ point.io_point.size = 1 := by omega
      have htwo : ¬ point.io_point.size = 2 := by omega
      rw [if_neg hone, if_neg htwo, if_pos hsize, IoPoint.getBits, if_neg hone, if_neg htwo]
      simp only [Option.map_map, Function.comp_def, getRegs64_eq hsize]

/-! ## The bits of a number -/

/-- The truncated number is one of the registers. -/
structure IoPoint.Holds (io_point : IoPoint) (encoding : ℚ) : Prop where
  low : io_point.lowest ≤ truncate encoding
  high : truncate encoding ≤ io_point.highest

variable {io_point : IoPoint} {vars : Vars}

/-- A number that is held as floating point. -/
theorem IoPoint.Sized.getBits_f64val (hsized : io_point.Sized) (hfloat : io_point.is_float = false)
    (huint : (vars.is_uint && io_point.scale == 0) = false)
    (hint : (vars.is_int && io_point.scale == 0) = false) :
    io_point.getBits floats vars =
      if io_point.lowest ≤ truncate vars.f64val ∧ truncate vars.f64val ≤ io_point.highest then
        some (io_point.bitsOf (truncate vars.f64val)) else none := by
  rcases hsized.size with hsize | hsize | hsize
  · cases hsigned : io_point.is_signed <;>
      simp only [IoPoint.getBits, IoPoint.get16, convertUnsigned, convertSigned, hsize, huint,
        hint, hsigned, IoPoint.lowest, IoPoint.highest, IoPoint.bitsOf] <;>
      simp [apply_ite] <;> split_ifs <;> omega
  · cases hsigned : io_point.is_signed <;>
      simp only [IoPoint.getBits, IoPoint.get32, convertUnsigned, convertSigned, hsize, huint,
        hint, hsigned, hfloat, IoPoint.lowest, IoPoint.highest, IoPoint.bitsOf] <;>
      simp [apply_ite] <;> split_ifs <;> omega
  · cases hsigned : io_point.is_signed <;>
      simp only [IoPoint.getBits, IoPoint.get64, convertUnsigned, convertSigned, hsize, huint,
        hint, hsigned, hfloat, IoPoint.lowest, IoPoint.highest, IoPoint.bitsOf] <;>
      simp [apply_ite] <;> split_ifs <;> omega

/-- A signed value without a scale. -/
theorem IoPoint.Sized.getBits_i64val (hsized : io_point.Sized) (hfloat : io_point.is_float = false)
    (hscale : io_point.scale = 0) (huint : vars.is_uint = false) (hint : vars.is_int = true) :
    io_point.getBits floats vars = some (io_point.bitsOf vars.i64val) := by
  rcases hsized.size with hsize | hsize | hsize
  · simp [IoPoint.getBits, IoPoint.get16, IoPoint.bitsOf, hsize, hscale, huint, hint]
  · simp [IoPoint.getBits, IoPoint.get32, IoPoint.bitsOf, hsize, hscale, huint, hint, hfloat]
  · simp [IoPoint.getBits, IoPoint.get64, IoPoint.bitsOf, hsize, hscale, huint, hint, hfloat]

variable {value : ℤ} {encoding : ℚ}

/-- An unsigned value without a scale. -/
theorem IoPoint.Sized.getBits_u64val (hsized : io_point.Sized) (hfloat : io_point.is_float = false)
    (hscale : io_point.scale = 0) (huint : vars.is_uint = true)
    (hvalue : vars.u64val = toUnsigned 64 value) :
    io_point.getBits floats vars = some (io_point.bitsOf value) := by
  have hbits : ∀ width ≤ 64, toUnsigned width (toUnsigned 64 value) = toUnsigned width value :=
    fun width hwidth => toUnsigned_toUnsigned hwidth value
  rcases hsized.size with hsize | hsize | hsize
  · simp [IoPoint.getBits, IoPoint.get16, IoPoint.bitsOf, hsize, hscale, huint, hvalue, hbits]
  · simp [IoPoint.getBits, IoPoint.get32, IoPoint.bitsOf, hsize, hscale, huint, hfloat, hvalue,
      hbits]
  · simp [IoPoint.getBits, IoPoint.get64, IoPoint.bitsOf, hsize, hscale, huint, hfloat, hvalue]

/-- Different integers of the registers have different bits. -/
theorem bitsOf_inj {other : ℤ} :
    io_point.bitsOf value = io_point.bitsOf other ↔
      toUnsigned (16 * io_point.size) value = toUnsigned (16 * io_point.size) other := by
  rw [IoPoint.bitsOf, IoPoint.bitsOf]
  exact Nat.xor_left_inj

/-- The integer that is written for a number that the registers hold is the truncated one,
unless the limits miss the range. -/
theorem IoPoint.Sized.bitsOf_written_iff (hsized : io_point.Sized)
    (hholds : io_point.Holds encoding) :
    io_point.bitsOf (truncate encoding) = io_point.bitsOf (io_point.written encoding) ↔
      ¬ io_point.Misses encoding := by
  have hlow := hholds.low
  have hhigh := hholds.high
  have hsaturated : max io_point.lowest (min io_point.highest (truncate encoding)) =
      truncate encoding := by omega
  constructor
  · intro hbits hmisses
    have hne := hsized.reinterpret_written_ne hmisses
    rw [hsaturated, ← bitsOf_inj.1 hbits, hsized.reinterpret_toUnsigned hlow hhigh] at hne
    exact hne rfl
  · intro hmisses
    rw [hsized.written_eq hmisses, hsaturated]

/-! ## Both encodings -/

/-- The number that a value is encoded as. A bool is inverted where the scale is negative. -/
def IoPoint.encoded (io_point : IoPoint) (val : Scalar) : Option ℚ :=
  match val with
  | .bool _ => (io_point.numeric val).map io_point.scaled
  | _ => val.number.map (io_point.encoding val)

/-- Both encodings return the same value and write the same registers. -/
def Same (floats : FloatBits) (point : GetPoint) (val : Any) (uri : UriReq) (regs16 : ℤ → ℕ) :
    Prop :=
  (get_any_to_uint64 floats point val uri regs16).map Prod.snd =
    some (set_any_to_uint64 floats point.io_point val,
      set_reg16_from_uint64 point.io_point (set_any_to_uint64 floats point.io_point val) regs16)

/-- A signed value that neither the starting bit nor the shift makes overflow. -/
def IoPoint.Keeps64 (io_point : IoPoint) (value : ℤ) : Prop :=
  IsInt64 (value * 2 ^ io_point.starting_bit_pos) ∧
    IsInt64 (value * 2 ^ io_point.starting_bit_pos - io_point.shift.toInt)

/-- When both encodings of a number that the registers hold are the same. -/
def IoPoint.SameWhen (io_point : IoPoint) (val : Scalar) (encoding : ℚ) : Prop :=
  match val with
  | .bool _ => encoding = 0
  | .int32 value => io_point.Keeps64 value.toInt ∧ ¬ io_point.Misses encoding
  | .int64 value => io_point.Keeps64 value.toInt ∧ ¬ io_point.Misses encoding
  | .uint32 value => io_point.scale = 0 ∨
      io_point.shift.toInt ≤ value.toNat * 2 ^ io_point.starting_bit_pos ∧
        ¬ io_point.Misses encoding
  | .uint64 _ => False
  | .double _ => ¬ io_point.Misses encoding
  | .other => False

/-- A request on a point that is set as a number. -/
structure Normal (point : GetPoint) (uri : UriReq) : Prop
    extends point.io_point.IsSettable where
  plain : uri.Plain
  is_forced : point.io_point.is_forced = false

section

variable (hnormal : Normal point uri)
include hnormal

theorem Normal.normalSet : point.io_point.normalSet = true := by
  simp [IoPoint.normalSet, hnormal.is_bit_field, hnormal.is_enum, hnormal.packed_register]

/-- Both encodings have their bits. -/
theorem Normal.same_iff_bits (hvars : point.io_point.getVars val.scalar = some vars) {uval : ℕ}
    (hbits : point.io_point.getBits floats vars = some uval) :
    Same floats point val uri regs16 ↔ uval = set_any_to_uint64 floats point.io_point val := by
  rw [Same, get_any_of_normal hnormal.plain hnormal.is_forced hnormal.toSized hnormal.normalSet,
    hvars, Option.bind_some, hbits, Option.map_some, Option.some.injEq, Prod.mk.injEq]
  constructor
  · exact fun hsame => hsame.1
  · intro hsame
    rw [hsame]
    exact ⟨rfl, rfl⟩

/-- The other encoding fails. -/
theorem Normal.not_same
    (hnone : (point.io_point.getVars val.scalar).bind (point.io_point.getBits floats) = none) :
    ¬ Same floats point val uri regs16 := by
  rw [Same, get_any_of_normal hnormal.plain hnormal.is_forced hnormal.toSized hnormal.normalSet]
  cases hvars : point.io_point.getVars val.scalar with
  | none => simp
  | some vars =>
    rw [hvars, Option.bind_some] at hnone
    rw [Option.bind_some, hnone]
    simp

/-- A number that both encodings hold as floating point. -/
theorem Normal.same_f64val (hholds : point.io_point.Holds encoding)
    (hvars : point.io_point.getVars val.scalar = some vars)
    (hread : point.io_point.read val.scalar = vars)
    (huint : (vars.is_uint && point.io_point.scale == 0) = false)
    (hint : (vars.is_int && point.io_point.scale == 0) = false) (hval : vars.f64val = encoding) :
    Same floats point val uri regs16 ↔ ¬ point.io_point.Misses encoding := by
  have hbits : point.io_point.getBits floats vars =
      some (point.io_point.bitsOf (truncate encoding)) := by
    rw [hnormal.getBits_f64val hnormal.is_float huint hint, hval,
      if_pos ⟨hholds.low, hholds.high⟩]
  have hset : set_any_to_uint64 floats point.io_point val =
      point.io_point.bitsOf (point.io_point.written encoding) := by
    apply hnormal.set_f64val
    · rw [hread, huint]
    · rw [hread, hint]
    · rw [hread, hval]
  rw [hnormal.same_iff_bits hvars hbits, hset, hnormal.bitsOf_written_iff hholds]

/-- A signed value. -/
theorem Normal.same_int (hvars : point.io_point.getVars val.scalar = point.io_point.getInt value)
    (hread : point.io_point.read val.scalar = point.io_point.readInt value)
    (hencoding : encoding = point.io_point.scaled
      ((value * 2 ^ point.io_point.starting_bit_pos - point.io_point.shift.toInt : ℤ) : ℚ))
    (hholds : point.io_point.Holds encoding) :
    Same floats point val uri regs16 ↔
      point.io_point.Keeps64 value ∧ ¬ point.io_point.Misses encoding := by
  by_cases hkeeps : point.io_point.Keeps64 value
  · have hget : point.io_point.getVars val.scalar = some (point.io_point.readInt value) := by
      rw [hvars, IoPoint.getInt]
      exact if_pos hkeeps
    rw [and_iff_right hkeeps]
    by_cases hscale : point.io_point.scale = 0
    · rw [IoPoint.scaled_zero hscale] at hencoding
      have htruncate : truncate encoding =
          value * 2 ^ point.io_point.starting_bit_pos - point.io_point.shift.toInt := by
        rw [hencoding, truncate_intCast]
      have hbits : point.io_point.getBits floats (point.io_point.readInt value) =
          some (point.io_point.bitsOf (truncate encoding)) := by
        rw [hnormal.getBits_i64val hnormal.is_float hscale rfl rfl, htruncate]
        rfl
      have hset : set_any_to_uint64 floats point.io_point val =
          point.io_point.bitsOf (point.io_point.written encoding) := by
        have hlow := hholds.low
        have hhigh := hholds.high
        rw [htruncate] at hlow hhigh
        rw [hencoding]
        refine hnormal.set_i64val hscale ?_ ?_ ?_ ?_ ?_
        · rw [hread]
          rfl
        · rw [hread]
          rfl
        · rw [hread]
          rfl
        · intro hsigned hsize
          simp only [IoPoint.lowest, IoPoint.highest, hsigned, hsize, if_true] at hlow hhigh
          omega
        · intro hsigned hsize
          simp only [IoPoint.highest, hsize] at hhigh
          omega
      rw [hnormal.same_iff_bits hget hbits, hset, hnormal.bitsOf_written_iff hholds]
    · exact hnormal.same_f64val hholds hget hread (by simp [hscale]) (by simp [hscale])
        hencoding.symm
  · have hget : point.io_point.getVars val.scalar = none := by
      rw [hvars, IoPoint.getInt]
      exact if_neg hkeeps
    refine iff_of_false (hnormal.not_same ?_) (fun hsame => hkeeps hsame.1)
    rw [hget, Option.bind_none]

end

theorem IoPoint.Sized.bounds (hsized : io_point.Sized) :
    -2 ^ 63 ≤ io_point.lowest ∧ io_point.highest < 2 ^ 64 ∧
      (io_point.is_signed = true → io_point.highest < 2 ^ 63) ∧
      (io_point.is_signed = false → io_point.lowest = 0) := by
  rw [IoPoint.lowest, IoPoint.highest]
  rcases hsized.size with hsize | hsize | hsize <;> rw [hsize] <;> cases io_point.is_signed <;>
    norm_num

/-- The numbers that registers hold are those of 64 bits. -/
theorem IoPoint.Sized.abs_lt_of_holds (hsized : io_point.Sized) (hholds : io_point.Holds encoding) :
    |encoding| < 2 ^ 64 := by
  have hbounds := hsized.bounds
  have hlow := hholds.low
  have hhigh := hholds.high
  rw [abs_lt]
  constructor
  · by_contra hless
    have hle : encoding ≤ ((-2 ^ 64 : ℤ) : ℚ) := by
      exact not_lt.1 hless
    have htruncate := truncate_le_of_le hle
    omega
  · by_contra hless
    have hge : ((2 ^ 64 : ℤ) : ℚ) ≤ encoding := by
      exact not_lt.1 hless
    have htruncate := le_truncate_of_le (by norm_num) hge
    omega

/-- An unsigned value below the shift is converted as one of 64 bits, which no registers hold
where they hold the number itself. -/
theorem IoPoint.Sized.not_holds_wrapped (hsized : io_point.Sized)
    (hscale : io_point.scale ≠ 0) {below : ℤ} (hlow : -2 ^ 31 ≤ below) (hneg : below < 0)
    (hholds : io_point.Holds (io_point.scaled below)) :
    ¬ io_point.Holds (io_point.scaled ((2 ^ 64 + below : ℤ) : ℚ)) := by
  intro hwrapped
  have hbounds := hsized.bounds
  have hone : io_point.scale.toInt ≠ 0 := int32_toInt_ne_zero.2 hscale
  have hcast : ∀ value : ℤ, io_point.scaled value = ((value * io_point.scale.toInt : ℤ) : ℚ) := by
    intro value
    rw [IoPoint.scaled_of_ne hscale, Int.cast_mul]
  have hlowest := hholds.low
  have hhighest := hholds.high
  have hlowest' := hwrapped.low
  have hhighest' := hwrapped.high
  rw [hcast, truncate_intCast] at hlowest hhighest hlowest' hhighest'
  rcases lt_or_gt_of_ne hone with hnegative | hpositive
  · have hproduct : (2 ^ 64 + below) * io_point.scale.toInt ≤ -(2 ^ 64 + below) := by nlinarith
    omega
  · have hproduct : 2 ^ 64 + below ≤ (2 ^ 64 + below) * io_point.scale.toInt := by nlinarith
    have hnegated : below * io_point.scale.toInt < 0 := by nlinarith
    cases hsigned : io_point.is_signed with
    | false =>
      have hzero := hbounds.2.2.2 hsigned
      omega
    | true =>
      have hsmall := hbounds.2.2.1 hsigned
      omega

/-- An unsigned value of 32 bits. -/
theorem Normal.same_uint (hnormal : Normal point uri) {value : ℕ}
    (hvars : point.io_point.getVars val.scalar = some (point.io_point.readUint value))
    (hread : point.io_point.read val.scalar = point.io_point.readUint value)
    (hencoding : encoding = point.io_point.scaled
      ((value * 2 ^ point.io_point.starting_bit_pos - point.io_point.shift.toInt : ℤ) : ℚ))
    (hholds : point.io_point.Holds encoding) :
    Same floats point val uri regs16 ↔
      (point.io_point.scale = 0 ∨
        point.io_point.shift.toInt ≤ value * 2 ^ point.io_point.starting_bit_pos ∧
          ¬ point.io_point.Misses encoding) := by
  by_cases hscale : point.io_point.scale = 0
  · have hu64val := u64val_readUint point.io_point value
    have hbits : point.io_point.getBits floats (point.io_point.readUint value) =
        some (point.io_point.bitsOf (value * 2 ^ point.io_point.starting_bit_pos -
          point.io_point.shift.toInt)) :=
      hnormal.getBits_u64val hnormal.is_float hscale rfl hu64val
    have hset : set_any_to_uint64 floats point.io_point val =
        point.io_point.bitsOf (value * 2 ^ point.io_point.starting_bit_pos -
          point.io_point.shift.toInt) := by
      apply hnormal.set_u64val hscale
      · rw [hread]
        rfl
      · rw [hread, hu64val]
    refine iff_of_true ?_ (Or.inl hscale)
    rw [hnormal.same_iff_bits hvars hbits, hset]
  · rw [or_iff_right hscale]
    have hf64val : (point.io_point.readUint value).f64val =
        point.io_point.scaled ((point.io_point.readUint value).u64val : ℕ) := rfl
    have habs := hnormal.abs_lt_of_holds hholds
    have hless : |((value * 2 ^ point.io_point.starting_bit_pos -
        point.io_point.shift.toInt : ℤ) : ℚ)| < 2 ^ 64 := by
      have hscaled := abs_mul_scale_ge hscale ((value * 2 ^ point.io_point.starting_bit_pos -
        point.io_point.shift.toInt : ℤ) : ℚ)
      rw [hencoding, IoPoint.scaled_of_ne hscale] at habs
      exact hscaled.trans_lt habs
    have hless' : |(value * 2 ^ point.io_point.starting_bit_pos -
        point.io_point.shift.toInt : ℤ)| < 2 ^ 64 := by exact_mod_cast hless
    rw [abs_lt] at hless'
    have hu64val := u64val_readUint point.io_point value
    by_cases hshift : point.io_point.shift.toInt ≤ value * 2 ^ point.io_point.starting_bit_pos
    · rw [and_iff_right hshift]
      apply hnormal.same_f64val hholds hvars hread
      · simp [hscale]
      · simp [hscale]
      · have hmod : (toUnsigned 64 (value * 2 ^ point.io_point.starting_bit_pos -
            point.io_point.shift.toInt) : ℤ) =
            value * 2 ^ point.io_point.starting_bit_pos - point.io_point.shift.toInt := by
          rw [cast_toUnsigned]
          exact Int.emod_eq_of_lt (by omega) hless'.2
        have hcast := congrArg (Int.cast (R := ℚ)) hmod
        rw [Int.cast_natCast] at hcast
        rw [hf64val, hu64val, hencoding, hcast]
    · have hnot : ¬ Same floats point val uri regs16 := by
        apply hnormal.not_same
        have hshift64 : point.io_point.shift.toInt < 2 ^ 31 := Int32.toInt_lt _
        have hpositive : (0 : ℤ) ≤ value * 2 ^ point.io_point.starting_bit_pos := by positivity
        have hmod : (toUnsigned 64 (value * 2 ^ point.io_point.starting_bit_pos -
            point.io_point.shift.toInt) : ℤ) = 2 ^ 64 +
            (value * 2 ^ point.io_point.starting_bit_pos - point.io_point.shift.toInt) := by
          rw [cast_toUnsigned, ← Int.add_emod_left]
          exact Int.emod_eq_of_lt (by omega) (by omega)
        have hwrapped := hnormal.not_holds_wrapped hscale (by omega) (by omega)
          (hencoding ▸ hholds)
        have hvalue : (point.io_point.readUint value).f64val = point.io_point.scaled
            ((2 ^ 64 + (value * 2 ^ point.io_point.starting_bit_pos -
              point.io_point.shift.toInt) : ℤ) : ℚ) := by
          have hcast := congrArg (Int.cast (R := ℚ)) hmod
          rw [Int.cast_natCast] at hcast
          rw [hf64val, hu64val, hcast]
        rw [hvars, Option.bind_some, hnormal.getBits_f64val hnormal.is_float (by simp [hscale])
          (by simp [hscale]), hvalue]
        exact if_neg fun hholds' => hwrapped ⟨hholds'.1, hholds'.2⟩
      exact iff_of_false hnot (fun hsame => hshift hsame.1)

/-- An integer that the registers hold has the bits of zero only where it is zero. -/
theorem IoPoint.Sized.zero_bits_iff (hsized : io_point.Sized) (hholds : io_point.Holds value) :
    io_point.bitsOf 0 = io_point.bitsOf (io_point.written value) ↔ (value : ℚ) = 0 := by
  have hlow := hholds.low
  have hhigh := hholds.high
  rw [truncate_intCast] at hlow hhigh
  have hwrites := hsized.writes (Int.cast_le.2 hlow) (Int.cast_le.2 hhigh)
  have hexact := hwrites.exact (by rw [truncate_intCast])
  have hlowest := io_point.lowest_nonpos
  have hhighest := io_point.highest_nonneg
  rw [bitsOf_inj]
  constructor
  · intro hbits
    have hzero := hsized.reinterpret_toUnsigned hlowest hhighest
    rw [hbits, hsized.reinterpret_toUnsigned hwrites.low hwrites.high] at hzero
    rw [hzero, IoPoint.slip, Int.cast_zero] at hexact
    split_ifs at hexact with hslip
    · rw [hslip.2.2] at hexact
      norm_num at hexact
    · rw [Int.cast_zero, add_zero] at hexact
      exact hexact.symm
  · intro hvalue
    have hslip : io_point.slip value = 0 := by
      refine if_neg fun hslips => ?_
      have hlowest := hslips.2.2
      rw [hvalue] at hlowest
      norm_num at hlowest
    rw [hslip, Int.cast_zero, add_zero] at hexact
    have hwritten : io_point.written value = 0 := by
      have hzero := hexact.trans hvalue
      exact_mod_cast hzero
    rw [hwritten]

/-- A bool, which the other encoding takes for zero. -/
theorem Normal.same_bool (hnormal : Normal point uri) {value : Bool}
    (hscalar : val.scalar = .bool value)
    (hencoding : point.io_point.encoded (.bool value) = some encoding)
    (hholds : point.io_point.Holds encoding) : Same floats point val uri regs16 ↔ encoding = 0 := by
  have hvars : point.io_point.getVars val.scalar = some
      { u64val := 0
        i64val := if value then 1 else 0
        f64val := 0
        is_uint := false
        is_int := false } := by
    rw [hscalar]
    rfl
  have hzero : truncate (0 : ℚ) = 0 := by
    have hcast := truncate_intCast 0
    rwa [Int.cast_zero] at hcast
  have hbits : point.io_point.getBits floats
      { u64val := 0
        i64val := if value then 1 else 0
        f64val := 0
        is_uint := false
        is_int := false } = some (point.io_point.bitsOf 0) := by
    rw [hnormal.getBits_f64val hnormal.is_float rfl rfl, hzero,
      if_pos ⟨point.io_point.lowest_nonpos, point.io_point.highest_nonneg⟩]
  let number : ℤ := if (if point.io_point.scale < 0 then !value else value) then 1 else 0
  have hnumber : encoding = point.io_point.scaled number := by
    simp only [IoPoint.encoded, IoPoint.numeric, Option.map_some, Option.some.injEq] at hencoding
    rw [← hencoding]
    by_cases htrue : (if point.io_point.scale < 0 then !value else value) = true
    · simp [number]
    · simp [number]
  have hi64val : (point.io_point.read val.scalar).i64val = number := by
    rw [hscalar]
    by_cases hscale : point.io_point.scale < 0 <;> cases value <;>
      simp [IoPoint.read, number, hscale]
  have hset : set_any_to_uint64 floats point.io_point val =
      point.io_point.bitsOf (point.io_point.written encoding) := by
    rw [hnumber]
    refine hnormal.set_signed ?_ ?_ hi64val ?_ (by omega) (by omega)
    · rw [hscalar]
      rfl
    · rw [hscalar]
      rfl
    · intro hscale
      rw [← hi64val, hscalar]
      simp [IoPoint.read, hscale, IoPoint.scaled]
  have hinteger : ∃ integer : ℤ, encoding = integer := by
    rw [hnumber, IoPoint.scaled]
    split_ifs
    · exact ⟨number * point.io_point.scale.toInt, by push_cast; rfl⟩
    · exact ⟨number, rfl⟩
  obtain ⟨integer, rfl⟩ := hinteger
  rw [hnormal.same_iff_bits hvars hbits, hset, hnormal.zero_bits_iff hholds]

/-- A point that is set as a number encodes a value the same way in both copies exactly where
none of the exceptions applies. -/
theorem Normal.same_iff (hnormal : Normal point uri)
    (hencoding : point.io_point.encoded val.scalar = some encoding)
    (hholds : point.io_point.Holds encoding) :
    Same floats point val uri regs16 ↔ point.io_point.SameWhen val.scalar encoding := by
  cases hscalar : val.scalar with
  | bool value =>
    rw [hscalar] at hencoding
    exact hnormal.same_bool hscalar hencoding hholds
  | int32 value | int64 value =>
    rw [hscalar] at hencoding
    cases hencoding
    refine hnormal.same_int ?_ ?_ ?_ hholds
    · rw [hscalar]
      rfl
    · rw [hscalar]
      rfl
    · simp [IoPoint.encoding, IoPoint.places]
  | uint32 value =>
    rw [hscalar] at hencoding
    cases hencoding
    refine hnormal.same_uint ?_ ?_ ?_ hholds
    · rw [hscalar]
      rfl
    · rw [hscalar]
      rfl
    · simp [IoPoint.encoding, IoPoint.places]
  | uint64 value =>
    refine iff_of_false (hnormal.not_same ?_) (fun hsame => hsame)
    rw [hscalar]
    rfl
  | double value =>
    rw [hscalar] at hencoding
    cases hencoding
    have hvars : point.io_point.getVars val.scalar = some (point.io_point.read val.scalar) := by
      rw [hscalar]
      rfl
    refine hnormal.same_f64val hholds hvars rfl ?_ ?_ ?_
    · rw [hscalar]
      rfl
    · rw [hscalar]
      rfl
    · rw [hscalar]
      simp [IoPoint.read, IoPoint.encoding, IoPoint.places]
  | other =>
    rw [hscalar] at hencoding
    cases hencoding

/-! ## Points that are not set as numbers -/

theorem IoPoint.Indexed.bounds (hindexed : io_point.Indexed)
    (horder : io_point.word_order = 0 ∨ IsWordOrder io_point.word_order) (i : Fin 4) :
    0 ≤ io_point.byte_index i ∧ io_point.byte_index i < 4 := by
  rw [hindexed.byte_index]
  split_ifs with hordered hswap
  · rcases horder with hzero | horder
    · omega
    · exact horder.bounds i
  · dsimp only
    omega
  · dsimp only
    omega

/-- The registers of zero. -/
theorem set_reg16_zero (hsized : io_point.Sized) (hindexed : io_point.Indexed)
    (horder : io_point.word_order = 0 ∨ IsWordOrder io_point.word_order) (regs16 : ℤ → ℕ) (i : ℤ) :
    set_reg16_from_uint64 io_point 0 regs16 i =
      if 0 ≤ i ∧ i < io_point.size then 0 else regs16 i := by
  have hword : ∀ shift, word 0 shift = 0 := by
    intro shift
    rw [word, Nat.zero_div, Nat.zero_mod]
  have hindex := fun j => hindexed.bounds horder j
  have h0 := hindex 0
  have h1 := hindex 1
  have h2 := hindex 2
  have h3 := hindex 3
  rcases hsized.size with hsize | hsize | hsize
  · simp only [set_reg16_from_uint64, hsize, if_true, hword, Function.update_apply]
    split_ifs <;> first | rfl | omega
  · have hone : ¬ io_point.size = 1 := by omega
    rw [set_reg16_from_uint64, if_neg hone, if_pos hsize, hsize]
    split_ifs <;> simp only [hword, Function.update_apply] <;> split_ifs <;> first | rfl | omega
  · have hone : ¬ io_point.size = 1 := by omega
    have htwo : ¬ io_point.size = 2 := by omega
    rw [set_reg16_from_uint64, if_neg hone, if_neg htwo, if_pos hsize, hsize]
    split_ifs <;> simp only [hword, Function.update_apply] <;> split_ifs <;> first | rfl | omega

/-- The other encoding leaves the registers of such a point alone. -/
theorem same_iff_zero (hplain : uri.Plain) (hnormal : point.io_point.normalSet = false)
    (hsized : point.io_point.Sized) (hindexed : point.io_point.Indexed)
    (horder : point.io_point.word_order = 0 ∨ IsWordOrder point.io_point.word_order) :
    Same floats point val uri regs16 ↔ ∀ i : ℤ, 0 ≤ i → i < point.io_point.size → regs16 i = 0 := by
  have hbits : (point.io_point.is_bit_field || point.io_point.is_enum ||
      point.io_point.packed_register) = true := by
    rw [IoPoint.normalSet, Bool.not_eq_false'] at hnormal
    exact hnormal
  have hget : (get_any_to_uint64 floats point val uri regs16).map Prod.snd = some (0, regs16) := by
    simp [get_any_to_uint64, hplain.is_unforce_request, hbits]
  have hset : set_any_to_uint64 floats point.io_point val = 0 := by
    rw [set_any_to_uint64]
    exact if_pos hbits
  rw [Same, hget, hset, Option.some.injEq, Prod.mk.injEq, and_iff_right rfl, funext_iff]
  constructor
  · intro hsame i hlow hhigh
    rw [hsame i, set_reg16_zero hsized hindexed horder, if_pos ⟨hlow, hhigh⟩]
  · intro hzero i
    rw [set_reg16_zero hsized hindexed horder]
    split_ifs with hregister
    · exact hzero i hregister.1 hregister.2
    · rfl

/-! ## Every value -/

/-- Both encodings of a number that the registers hold are the same exactly where none of the
exceptions applies, or where the point is not set as a number and its registers are zero. -/
theorem get_any_same_iff (hplain : uri.Plain) (hforced : point.io_point.is_forced = false)
    (hfloat : point.io_point.is_float = false) (hsized : point.io_point.Sized)
    (hindexed : point.io_point.Indexed)
    (horder : point.io_point.word_order = 0 ∨ IsWordOrder point.io_point.word_order)
    {encoding : ℚ} (hencoding : point.io_point.encoded val.scalar = some encoding)
    (hholds : point.io_point.Holds encoding) :
    Same floats point val uri regs16 ↔
      if point.io_point.normalSet then point.io_point.SameWhen val.scalar encoding
      else ∀ i : ℤ, 0 ≤ i → i < point.io_point.size → regs16 i = 0 := by
  cases hnormal : point.io_point.normalSet with
  | false =>
    rw [if_neg (by simp)]
    exact same_iff_zero hplain hnormal hsized hindexed horder
  | true =>
    have hset : point.io_point.is_bit_field = false ∧ point.io_point.is_enum = false ∧
        point.io_point.packed_register = false := by
      simpa [IoPoint.normalSet, and_assoc] using hnormal
    have hpoint : Normal point uri := {
      toSized := hsized
      is_float := hfloat
      is_bit_field := hset.1
      is_enum := hset.2.1
      packed_register := hset.2.2
      plain := hplain
      is_forced := hforced }
    rw [if_pos rfl]
    exact hpoint.same_iff hencoding hholds

/-- A request that asks for nothing. -/
def plainUri : UriReq where
  is_force_request := false
  is_unforce_request := false
  is_enable_request := false
  is_disable_request := false

/-- A point of one unsigned register. -/
def registerPoint : GetPoint where
  io_point := extract_new_io_point emptyJson false none
  is_enabled := true
  normal_set := true

theorem registerPoint_encoding (val : Scalar) (number : ℚ) :
    registerPoint.io_point.encoding val number = number := by
  have hscale : registerPoint.io_point.scale = 0 := rfl
  have hplaces : registerPoint.io_point.places val = 0 := by
    cases val <;> rfl
  have hshift : registerPoint.io_point.shift.toInt = 0 := rfl
  rw [IoPoint.encoding, IoPoint.scaled_zero hscale, hplaces, hshift]
  simp

theorem registerPoint_holds (value : ℤ) (hlow : 0 ≤ value) (hhigh : value < 65536) :
    registerPoint.io_point.Holds value where
  low := by
    rw [truncate_intCast]
    exact hlow
  high := by
    rw [truncate_intCast]
    change value ≤ 65535
    omega

theorem get_any_same_int32 :
    Same noFloats registerPoint (.naked (.int32 7)) plainUri (fun _ => 0) := by
  have hencoding : registerPoint.io_point.encoded (.int32 7) = some ((7 : ℤ) : ℚ) := by
    have hseven : registerPoint.io_point.encoded (.int32 7) =
        some (registerPoint.io_point.encoding (.int32 7) ((7 : ℤ) : ℚ)) := rfl
    rw [hseven, registerPoint_encoding]
  refine (get_any_same_iff ⟨rfl, rfl⟩ rfl rfl ⟨.inl rfl⟩
    (extract_new_io_point_indexed emptyJson false none) (.inl rfl) hencoding
    (registerPoint_holds 7 (by norm_num) (by norm_num))).2 ?_
  constructor
  · exact ⟨by decide, by decide⟩
  · intro hmisses
    exact absurd hmisses.1 (by decide)

/-- A bool that is set is one register of one, and of zero by the other encoding. -/
theorem bool_not_same :
    ¬ ∀ (floats : FloatBits) (point : GetPoint) (val : Any) (uri : UriReq) (regs16 : ℤ → ℕ)
      (encoding : ℚ), uri.Plain → point.io_point.is_forced = false →
      point.io_point.is_float = false → point.io_point.Sized → point.io_point.Indexed →
      (point.io_point.word_order = 0 ∨ IsWordOrder point.io_point.word_order) →
      point.io_point.encoded val.scalar = some encoding → point.io_point.Holds encoding →
      Same floats point val uri regs16 := by
  intro hall
  have hencoding : registerPoint.io_point.encoded (.bool true) = some ((1 : ℤ) : ℚ) := by
    have hscale : registerPoint.io_point.scale = 0 := rfl
    simp [IoPoint.encoded, IoPoint.numeric, IoPoint.scaled, hscale]
  have hsame := hall noFloats registerPoint (.naked (.bool true)) plainUri (fun _ => 0) _
    ⟨rfl, rfl⟩ rfl rfl ⟨.inl rfl⟩ (extract_new_io_point_indexed emptyJson false none) (.inl rfl)
    hencoding (registerPoint_holds 1 (by norm_num) (by norm_num))
  have hnormal : Normal registerPoint plainUri := {
    size := .inl rfl
    is_float := rfl
    is_bit_field := rfl
    is_enum := rfl
    packed_register := rfl
    plain := ⟨rfl, rfl⟩
    is_forced := rfl }
  have hzero := (hnormal.same_bool rfl hencoding
    (registerPoint_holds 1 (by norm_num) (by norm_num))).1 hsame
  norm_num at hzero

end HybridOs.GcomRegisters
