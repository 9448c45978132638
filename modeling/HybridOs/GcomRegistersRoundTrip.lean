import HybridOs.GcomRegistersEncode
import Mathlib

/-!
# Values that are written and read back

A point without an inverted bit and without a word order gives back exactly the values that
are kept. Any other point loses some value that fits.
-/

namespace HybridOs.GcomRegisters

/-! ## What is given back -/

/-- A decoded value is the number: exactly where there is no scale, and otherwise up to one
step of the scale. -/
def IoPoint.Near (io_point : IoPoint) (number output : ℚ) : Prop :=
  if io_point.scale = 0 then output = number
  else |output - number| ≤ 1 / |(io_point.scale.toInt : ℚ)|

/-- A value that is written to the registers is given back, whatever was in them. -/
def IoPoint.Returns (floats : FloatBits) (io_point : IoPoint) (val : Any) (number : ℚ) : Prop :=
  ∀ regs16, io_point.Near number (gcom_decode_any floats io_point
    (set_reg16_from_uint64 io_point (set_any_to_uint64 floats io_point val) regs16))

/-- The point inverts no bit of its registers and has no word order. -/
structure IoPoint.Plain (io_point : IoPoint) : Prop where
  invert_mask : io_point.invert_mask % 2 ^ (16 * io_point.size) = 0
  word_order : ¬ (io_point.size = 4 ∧ 0 < io_point.word_order)

/-- The value is given back by a plain point. -/
def IoPoint.Kept (io_point : IoPoint) (val : Scalar) (number : ℚ) : Prop :=
  if io_point.scale = 0 then
    (io_point.slip (io_point.encoding val number) = 0 ∨ 0 < io_point.places val) ∧
    (io_point.is_signed = true ∨ 0 ≤ number) ∧
    (io_point.places val = io_point.starting_bit_pos ∨ number = 0 ∨ number = -1)
  else
    ¬ io_point.Wraps val number ∧
    |number * (2 ^ io_point.places val - 1) * io_point.scale.toInt +
      io_point.slip (io_point.encoding val number)| ≤ 1

variable {io_point : IoPoint} {floats : FloatBits} {val : Any} {number : ℚ}

theorem near_output_of_scale (hscale : io_point.scale ≠ 0) (value : ℤ) :
    io_point.Near number (io_point.output value) ↔
      |(value : ℚ) - (number - io_point.shift.toInt) * io_point.scale.toInt| ≤ 1 := by
  have hne : (io_point.scale.toInt : ℚ) ≠ 0 := by
    exact_mod_cast int32_toInt_ne_zero.2 hscale
  have hpos : 0 < |(io_point.scale.toInt : ℚ)| := abs_pos.2 hne
  have hdiv : (value : ℚ) / io_point.scale.toInt + io_point.shift.toInt - number =
      ((value : ℚ) - (number - io_point.shift.toInt) * io_point.scale.toInt) /
        io_point.scale.toInt := by
    field_simp
    ring
  rw [IoPoint.Near, if_neg hscale, IoPoint.output, if_pos hscale, hdiv, abs_div,
    div_le_div_iff_of_pos_right hpos]

variable {value : ℤ} {places uval : ℕ} {encoding : ℚ}

/-- An integer of the registers is what its bits stand for. -/
theorem IoPoint.Sized.reinterpret_toUnsigned (hsized : io_point.Sized)
    (hlow : io_point.lowest ≤ value) (hhigh : value ≤ io_point.highest) :
    io_point.reinterpret (toUnsigned (16 * io_point.size) value) = value := by
  rw [IoPoint.lowest] at hlow
  rw [IoPoint.highest] at hhigh
  rw [IoPoint.reinterpret]
  split_ifs at hlow hhigh ⊢ with hsigned
  · rw [cast_toUnsigned]
    have hcast : (2 ^ (16 * io_point.size) : ℤ) = ((2 ^ (16 * io_point.size) : ℕ) : ℤ) := by
      push_cast
      rfl
    rw [hcast, Int.emod_bmod]
    refine Int.bmod_eq_of_le ?_ ?_ <;> rcases hsized.size with hsize | hsize | hsize <;>
      rw [hsize] at hlow hhigh ⊢ <;> norm_num at hlow hhigh ⊢ <;> omega
  · rw [cast_toUnsigned]
    exact Int.emod_eq_of_lt hlow (by omega)

/-- A plain point reads the integer that was written. -/
theorem IoPoint.IsNumber.reinterpret_bitsOf (hnumber : io_point.IsNumber) (hplain : io_point.Plain)
    (hlow : io_point.lowest ≤ value) (hhigh : value ≤ io_point.highest) :
    io_point.reinterpret (io_point.sent (io_point.bitsOf value)) = value := by
  rw [IoPoint.bitsOf, hplain.invert_mask, Nat.xor_zero, IoPoint.sent, if_neg hplain.word_order]
  exact hnumber.reinterpret_toUnsigned hlow hhigh

/-- What is given back depends on the bits that are sent. -/
theorem IoPoint.Extracted.returns_iff_near (hpoint : io_point.Extracted)
    (hnumber : io_point.IsNumber)
    (hset : set_any_to_uint64 floats io_point val = io_point.bitsOf value) :
    io_point.Returns floats val number ↔
      io_point.Near number
        (io_point.output (io_point.reinterpret (io_point.sent (io_point.bitsOf value)))) := by
  have hdecode := hpoint.decode_set hnumber.toSized hnumber.word_order floats hnumber.is_float
    (io_point.bitsOf_lt value)
  rw [IoPoint.Returns, hset]
  constructor
  · intro h
    have hnear := h (fun _ => 0)
    rw [hdecode] at hnear
    exact hnear
  · intro h regs16
    rw [hdecode]
    exact h

/-! ## Numbers -/

theorem places_cases (val : Scalar) :
    io_point.places val = io_point.starting_bit_pos ∨ io_point.places val = 0 := by
  cases val <;> simp [IoPoint.places]

/-- A number is an integer that is shifted, or a floating-point number that is not. -/
theorem number_cases (io_point : IoPoint) {val : Scalar} (hval : val.number = some number) :
    (∃ integer : ℤ, number = integer ∧ io_point.places val = io_point.starting_bit_pos) ∨
      (io_point.places val = 0 ∧ val.isUnsigned = false) := by
  cases val with
  | bool value | other => cases hval
  | int32 value | int64 value =>
    cases hval
    exact .inl ⟨value.toInt, rfl, rfl⟩
  | uint32 value | uint64 value =>
    cases hval
    exact .inl ⟨value.toNat, by simp, rfl⟩
  | double value => exact .inr ⟨rfl, rfl⟩

/-- Without a scale a number that fits is an integer. -/
theorem exists_integer (hscale : io_point.scale = 0) {val : Scalar}
    (hval : val.number = some number) (hfits : io_point.Fits (io_point.encoding val number)) :
    ∃ integer : ℤ, number = integer := by
  rcases number_cases io_point hval with ⟨integer, hinteger, _⟩ | ⟨hplaces, _⟩
  · exact ⟨integer, hinteger⟩
  · have hexact := hfits.exact hscale
    rw [IoPoint.encoding, IoPoint.scaled_zero hscale, hplaces, pow_zero, mul_one] at hexact
    refine ⟨truncate (number - io_point.shift.toInt) + io_point.shift.toInt, ?_⟩
    push_cast
    linarith

/-! ## Shifting back -/

theorem two_le_two_pow (hplaces : 0 < places) : (2 : ℤ) ≤ 2 ^ places := by
  calc (2 : ℤ) = 2 ^ 1 := rfl
    _ ≤ 2 ^ places := pow_le_pow_right₀ (by norm_num) hplaces

theorem ediv_two_pow_eq_self_iff (hplaces : 0 < places) (integer : ℤ) :
    integer / 2 ^ places = integer ↔ integer = 0 ∨ integer = -1 := by
  have htwo := two_le_two_pow hplaces
  rw [Int.ediv_eq_iff_of_pos (by positivity)]
  constructor
  · rintro ⟨hle, hlt⟩
    have hnonpos : integer ≤ 0 := by nlinarith
    have hge : -1 ≤ integer := by nlinarith
    omega
  · rintro (rfl | rfl)
    · constructor <;> linarith
    · constructor <;> linarith

/-- An integer that was shifted, perhaps with an error of one, is shifted back. -/
theorem shifted_back_iff {starting_bit_pos : ℕ} {integer slip : ℤ}
    (hplaces : places = starting_bit_pos ∨ places = 0) (hslip : slip = 0 ∨ slip = 1)
    (hnegative : slip = 1 → places = 0 → integer ≤ -1) :
    (integer * 2 ^ places + slip) / 2 ^ starting_bit_pos = integer ↔
      (slip = 0 ∨ 0 < places) ∧ (places = starting_bit_pos ∨ integer = 0 ∨ integer = -1) := by
  have hpos : (0 : ℤ) < 2 ^ starting_bit_pos := by positivity
  by_cases hsame : places = starting_bit_pos
  · subst hsame
    rw [Int.ediv_eq_iff_of_pos hpos]
    rcases hslip with rfl | rfl
    · simp
    · by_cases hzero : places = 0
      · subst hzero
        simp
      · have htwo := two_le_two_pow (Nat.pos_of_ne_zero hzero)
        simp only [Nat.pos_of_ne_zero hzero, or_true, true_or, and_self, iff_true]
        constructor <;> linarith
  · have hzero := hplaces.resolve_left hsame
    have hstart : 0 < starting_bit_pos := by omega
    subst hzero
    rw [pow_zero, mul_one]
    rcases hslip with rfl | rfl
    · rw [add_zero, ediv_two_pow_eq_self_iff hstart]
      simp [hsame]
    · have hle := hnegative rfl rfl
      have htwo := two_le_two_pow hstart
      have hne : (integer + 1) / 2 ^ starting_bit_pos ≠ integer := by
        rw [ne_eq, Int.ediv_eq_iff_of_pos hpos]
        rintro ⟨_, hlt⟩
        nlinarith
      simp [hne]

/-! ## Plain points -/

theorem slip_cases (io_point : IoPoint) (encoding : ℚ) :
    io_point.slip encoding = 0 ∨
      (io_point.slip encoding = 1 ∧ io_point.is_signed = true ∧ encoding = -2 ^ 31) := by
  rw [IoPoint.slip]
  split_ifs with h
  · exact .inr ⟨rfl, h.2⟩
  · exact .inl rfl

/-- Without a scale a plain point gives back the values that are kept. -/
theorem IoPoint.Extracted.near_iff_kept_of_zero (hpoint : io_point.Extracted)
    (hnumber : io_point.IsNumber) (hscale : io_point.scale = 0) {val : Scalar}
    (hval : val.number = some number) (hfits : io_point.Fits (io_point.encoding val number)) :
    io_point.Near number (io_point.output (io_point.written (io_point.encoding val number))) ↔
      io_point.Kept val number := by
  obtain ⟨integer, rfl⟩ := exists_integer hscale hval hfits
  have hwrites := hnumber.writes hfits.low hfits.high
  have hexact := hwrites.exact (hfits.exact hscale)
  have hencoding : io_point.encoding val integer =
      ((integer * 2 ^ io_point.places val - io_point.shift.toInt : ℤ) : ℚ) := by
    rw [IoPoint.encoding, IoPoint.scaled_zero hscale]
    push_cast
    rfl
  have hshift := Int32.toInt_lt io_point.shift
  have hslip := slip_cases io_point (io_point.encoding val integer)
  have hwritten : io_point.written (io_point.encoding val integer) + io_point.shift.toInt =
      integer * 2 ^ io_point.places val + io_point.slip (io_point.encoding val integer) := by
    have hcast : (io_point.written (io_point.encoding val integer) : ℚ) =
        ((integer * 2 ^ io_point.places val - io_point.shift.toInt +
          io_point.slip (io_point.encoding val integer) : ℤ) : ℚ) := by
      rw [hexact]
      nth_rewrite 1 [hencoding]
      push_cast
      rfl
    have hint := Int.cast_inj.1 hcast
    omega
  have hminus : (integer : ℚ) = -1 ↔ integer = -1 := by
    have hinj := @Int.cast_inj ℚ _ _ integer (-1)
    push_cast at hinj
    exact hinj
  rw [IoPoint.Near, if_pos hscale, IoPoint.output, if_neg (not_not.2 hscale), IoPoint.Kept,
    if_pos hscale, hwritten]
  cases hsigned : io_point.is_signed with
  | true =>
    rw [if_pos rfl, Int.cast_inj, shifted_back_iff (places_cases val) (by tauto)]
    · simp [hminus]
    · intro hone hzero
      rcases hslip with hslip | ⟨_, _, hlowest⟩
      · omega
      · rw [hencoding, hzero, pow_zero, mul_one] at hlowest
        have hint : integer - io_point.shift.toInt = -2 ^ 31 := by exact_mod_cast hlowest
        omega
  | false =>
    have hnone : io_point.slip (io_point.encoding val integer) = 0 := by
      rcases hslip with hslip | ⟨_, htrue, _⟩
      · exact hslip
      · rw [hsigned] at htrue
        cases htrue
    rw [hnone, add_zero] at hwritten ⊢
    have hlow := hwrites.low
    have hhigh := hwrites.high
    have hmost := hnumber.highest_lt.1
    rw [IoPoint.lowest, hsigned, if_neg (by simp)] at hlow
    have hnonpos : io_point.shift.toInt ≤ 0 := by
      rcases hpoint.unsigned hsigned with hzero | ⟨hless, _⟩ <;> omega
    have hcast : ((toUnsigned 64 (integer * 2 ^ io_point.places val) /
        2 ^ io_point.starting_bit_pos : ℕ) : ℚ) = integer ↔
        (integer * 2 ^ io_point.places val % 2 ^ 64) / 2 ^ io_point.starting_bit_pos = integer := by
      rw [← cast_toUnsigned, ← Int.cast_natCast, Int.cast_inj]
      push_cast
      rfl
    rw [if_neg (by simp), hcast]
    by_cases hnonneg : 0 ≤ integer
    · have hmul : 0 ≤ integer * 2 ^ io_point.places val := by positivity
      have hmod : integer * 2 ^ io_point.places val % 2 ^ 64 =
          integer * 2 ^ io_point.places val + 0 := by
        rw [add_zero]
        exact Int.emod_eq_of_lt hmul (by omega)
      have hnonneg' : (0 : ℚ) ≤ integer := by exact_mod_cast hnonneg
      rw [hmod, shifted_back_iff (places_cases val) (.inl rfl) (by simp)]
      simp [hminus, hnonneg]
    · have hneg : ¬ (0 : ℚ) ≤ integer := by exact_mod_cast hnonneg
      have hdiv : 0 ≤ integer * 2 ^ io_point.places val % 2 ^ 64 / 2 ^ io_point.starting_bit_pos :=
        Int.ediv_nonneg (Int.emod_nonneg _ (by norm_num)) (by positivity)
      refine iff_of_false (fun heq => ?_) (fun hkept => ?_)
      · omega
      · exact hneg (hkept.2.1.resolve_left (by simp))

/-- With a scale a plain point gives back the values that are kept. -/
theorem IoPoint.IsNumber.near_iff_kept_of_scale (hnumber : io_point.IsNumber)
    (hscale : io_point.scale ≠ 0) {val : Scalar} (hval : val.number = some number)
    (hfits : io_point.Fits (io_point.encoding val number)) (hwraps : ¬ io_point.Wraps val number) :
    io_point.Near number (io_point.output (io_point.written (io_point.encoding val number))) ↔
      io_point.Kept val number := by
  have hwrites := hnumber.writes hfits.low hfits.high
  have hencoding : io_point.encoding val number =
      (number * 2 ^ io_point.places val - io_point.shift.toInt) * io_point.scale.toInt := by
    rw [IoPoint.encoding, IoPoint.scaled_of_ne hscale]
  rw [near_output_of_scale hscale, IoPoint.Kept, if_neg hscale, and_iff_right hwraps]
  rcases number_cases io_point hval with ⟨integer, rfl, hplaces⟩ | ⟨hplaces, _⟩
  · have hinteger : ((integer * 2 ^ io_point.places val - io_point.shift.toInt) *
        io_point.scale.toInt : ℤ) = io_point.encoding val integer := by
      rw [hencoding]
      push_cast
      rfl
    have hexact := hwrites.exact (by rw [← hinteger, truncate_intCast])
    have hdiff : (io_point.written (io_point.encoding val integer) : ℚ) -
        (integer - io_point.shift.toInt) * io_point.scale.toInt =
        integer * (2 ^ io_point.places val - 1) * io_point.scale.toInt +
          io_point.slip (io_point.encoding val integer) := by
      rw [hexact]
      nth_rewrite 1 [hencoding]
      ring
    rw [hdiff]
  · have hnear := hwrites.near
    have hslip : |(io_point.slip (io_point.encoding val number) : ℚ)| ≤ 1 := by
      rcases slip_cases io_point (io_point.encoding val number) with hslip |
        ⟨hslip, _⟩ <;> rw [hslip] <;> simp
    rw [hplaces, pow_zero, mul_one] at hencoding
    rw [hplaces, pow_zero, sub_self, mul_zero, zero_mul, zero_add, ← hencoding]
    exact iff_of_true hnear hslip

/-! ## Values below the shift -/

/-- An unsigned value below the shift is written as a limit of the registers. -/
theorem IoPoint.Extracted.set_wraps (hpoint : io_point.Extracted) (hnumber : io_point.IsNumber)
    {value : ℕ} (hread : io_point.read val.scalar = io_point.readUint value)
    (hscale : io_point.scale ≠ 0)
    (hless : (value * 2 ^ io_point.starting_bit_pos : ℤ) < io_point.shift.toInt) :
    ∃ limit : ℤ, set_any_to_uint64 floats io_point val = io_point.bitsOf limit ∧
      io_point.lowest ≤ limit ∧ limit ≤ io_point.highest ∧
      (0 < io_point.scale.toInt → 1 ≤ limit) ∧ (io_point.scale.toInt < 0 → limit ≤ -1) := by
  have hnonneg : (0 : ℤ) ≤ value * 2 ^ io_point.starting_bit_pos := by positivity
  have hshift := Int32.toInt_lt io_point.shift
  have hsigned : io_point.is_signed = true := by
    by_contra hunsigned
    rw [Bool.not_eq_true] at hunsigned
    rcases hpoint.unsigned hunsigned with hzero | ⟨hneg, _⟩ <;> omega
  have hlowest := hnumber.lowest_of_signed hsigned
  have hhighest := hnumber.highest_ge
  have hmod : (toUnsigned 64 (value * 2 ^ io_point.starting_bit_pos - io_point.shift.toInt) : ℤ) =
      value * 2 ^ io_point.starting_bit_pos - io_point.shift.toInt + 2 ^ 64 := by
    rw [cast_toUnsigned]
    omega
  have hbig : (2 ^ 63 + 1 : ℤ) ≤
      toUnsigned 64 (value * 2 ^ io_point.starting_bit_pos - io_point.shift.toInt) := by
    rw [hmod]
    omega
  have hbig' : (2 ^ 63 : ℚ) <
      toUnsigned 64 (value * 2 ^ io_point.starting_bit_pos - io_point.shift.toInt) := by
    exact_mod_cast (by omega : (2 ^ 63 : ℤ) <
      toUnsigned 64 (value * 2 ^ io_point.starting_bit_pos - io_point.shift.toInt))
  have hset : set_any_to_uint64 floats io_point val = io_point.bitsOf (io_point.written
      (io_point.scaled (io_point.read val.scalar).u64val)) :=
    hnumber.set_f64val (by simp [hscale]) (by simp [hscale]) (by rw [hread]; rfl)
  rw [hread, u64val_readUint, IoPoint.scaled_of_ne hscale] at hset
  refine ⟨_, hset, ?_⟩
  rcases lt_or_gt_of_ne (int32_toInt_ne_zero.2 hscale) with hneg | hpos
  · have hscale' : (io_point.scale.toInt : ℚ) ≤ -1 := by exact_mod_cast (by omega : _ ≤ (-1 : ℤ))
    have hlow : (toUnsigned 64 (value * 2 ^ io_point.starting_bit_pos - io_point.shift.toInt) : ℚ) *
        io_point.scale.toInt < -2 ^ 63 := by nlinarith
    have hlimit := hnumber.written_of_lt hsigned hlow
    refine ⟨hlimit.1, ?_, ?_, ?_⟩ <;> omega
  · have hscale' : (1 : ℚ) ≤ io_point.scale.toInt := by exact_mod_cast (by omega : (1 : ℤ) ≤ _)
    have hhigh : (2 ^ 63 : ℚ) <
        (toUnsigned 64 (value * 2 ^ io_point.starting_bit_pos - io_point.shift.toInt) : ℚ) *
          io_point.scale.toInt := by nlinarith
    have hlimit := hnumber.written_of_gt hsigned hhigh
    rw [hlimit]
    refine ⟨?_, ?_, ?_, ?_⟩ <;> omega

/-- A value below the shift is not given back by a plain point. -/
theorem IoPoint.Extracted.not_returns_of_wraps (hpoint : io_point.Extracted)
    (hnumber : io_point.IsNumber) (hplain : io_point.Plain) {value : ℕ}
    (hread : io_point.read val.scalar = io_point.readUint value)
    (hwraps : io_point.Wraps val.scalar value) : ¬ io_point.Returns floats val value := by
  obtain ⟨_, hscale, hless⟩ := hwraps
  have hless' : (value * 2 ^ io_point.starting_bit_pos : ℤ) < io_point.shift.toInt := by
    exact_mod_cast hless
  obtain ⟨limit, hset, hlow, hhigh, hpositive, hnegative⟩ :=
    hpoint.set_wraps hnumber hread hscale hless'
  have hpow : (1 : ℤ) ≤ 2 ^ io_point.starting_bit_pos := one_le_pow₀ (by norm_num)
  have hvalue : (value : ℤ) < io_point.shift.toInt := by nlinarith
  rw [hpoint.returns_iff_near hnumber hset, hnumber.reinterpret_bitsOf hplain hlow hhigh,
    near_output_of_scale hscale, abs_le]
  rintro ⟨hge, hle⟩
  have hge' : -1 ≤ limit - (value - io_point.shift.toInt) * io_point.scale.toInt := by
    exact_mod_cast hge
  have hle' : limit - (value - io_point.shift.toInt) * io_point.scale.toInt ≤ 1 := by
    exact_mod_cast hle
  rcases lt_or_gt_of_ne (int32_toInt_ne_zero.2 hscale) with hneg | hpos
  · have hlimit := hnegative hneg
    nlinarith
  · have hlimit := hpositive hpos
    nlinarith

/-- A plain point gives back exactly the values that are kept. -/
theorem IoPoint.Extracted.returns_iff_kept (hpoint : io_point.Extracted)
    (hnumber : io_point.IsNumber) (hplain : io_point.Plain) (hval : val.scalar.number = some number)
    (hfits : io_point.Fits (io_point.encoding val.scalar number)) :
    io_point.Returns floats val number ↔ io_point.Kept val.scalar number := by
  by_cases hwraps : io_point.Wraps val.scalar number
  · have hkept : ¬ io_point.Kept val.scalar number := by
      rw [IoPoint.Kept, if_neg hwraps.2.1]
      exact fun h => h.1 hwraps
    refine iff_of_false ?_ hkept
    cases hscalar : val.scalar with
    | uint32 value | uint64 value =>
      rw [hscalar] at hval hwraps
      cases hval
      refine hpoint.not_returns_of_wraps hnumber hplain ?_ ?_
      · rw [hscalar]
        rfl
      · rw [hscalar]
        exact hwraps
    | _ =>
      rw [hscalar] at hwraps
      cases hwraps.1
  · have hset : set_any_to_uint64 floats io_point val =
        io_point.bitsOf (io_point.written (io_point.encoding val.scalar number)) :=
      hnumber.set_eq hval hfits hwraps
    have hwrites := hnumber.writes hfits.low hfits.high
    rw [hpoint.returns_iff_near hnumber hset,
      hnumber.reinterpret_bitsOf hplain hwrites.low hwrites.high]
    by_cases hscale : io_point.scale = 0
    · exact hpoint.near_iff_kept_of_zero hnumber hscale hval hfits
    · exact hnumber.near_iff_kept_of_scale hscale hval hfits hwraps

/-! ## Other points -/

theorem reinterpret_eq_of_nonneg (huval : uval < 2 ^ (16 * io_point.size))
    (hvalue : io_point.reinterpret uval = value) (hnonneg : 0 ≤ value) : (uval : ℤ) = value := by
  rw [IoPoint.reinterpret] at hvalue
  split_ifs at hvalue
  · rw [Int.bmod_def] at hvalue
    have hmod : (uval : ℤ) % ((2 ^ (16 * io_point.size) : ℕ) : ℤ) = uval :=
      Int.emod_eq_of_lt (by omega) (by exact_mod_cast huval)
    rw [hmod] at hvalue
    split_ifs at hvalue
    · exact hvalue
    · have hlt : (uval : ℤ) < ((2 ^ (16 * io_point.size) : ℕ) : ℤ) := by exact_mod_cast huval
      omega
  · exact hvalue

theorem IoPoint.sent_lt (huval : uval < 2 ^ (16 * io_point.size)) :
    io_point.sent uval < 2 ^ (16 * io_point.size) := by
  rw [IoPoint.sent]
  split_ifs with horder
  · rw [horder.1, reversed]
    have h0 := word_lt uval 0
    have h16 := word_lt uval 16
    have h32 := word_lt uval 32
    have h48 := word_lt uval 48
    omega
  · exact huval

/-- The bits of two numbers show whether a point is plain. -/
theorem IoPoint.IsNumber.plain_of_sent (hnumber : io_point.IsNumber)
    (hzero : io_point.sent (io_point.bitsOf 0) = 0 ∨ io_point.sent (io_point.bitsOf 0) = 1)
    (hone : io_point.sent (io_point.bitsOf 1) = 1 ∨ io_point.sent (io_point.bitsOf 1) = 2) :
    io_point.Plain := by
  have hunsigned0 : toUnsigned (16 * io_point.size) 0 = 0 := by simp [toUnsigned]
  have hunsigned1 : toUnsigned (16 * io_point.size) 1 = 1 := by
    rcases hnumber.size with hsize | hsize | hsize <;> rw [hsize] <;> decide
  have hlt : io_point.invert_mask % 2 ^ (16 * io_point.size) < 2 ^ (16 * io_point.size) :=
    Nat.mod_lt _ (by positivity)
  simp only [IoPoint.bitsOf, hunsigned0, hunsigned1, Nat.zero_xor] at hzero hone
  by_cases horder : io_point.size = 4 ∧ 0 < io_point.word_order
  · exfalso
    rw [horder.1] at hlt
    simp only [IoPoint.sent, horder, and_self, if_true] at hzero hone
    have hback := reversed_reversed hlt
    rcases hzero with hzero | hzero
    · have hmask : io_point.invert_mask % 2 ^ (16 * 4) = 0 := by
        rw [← hback, hzero]
        decide
      rw [hmask] at hone
      revert hone
      decide
    · have hmask : io_point.invert_mask % 2 ^ (16 * 4) = 2 ^ 48 := by
        rw [← hback, hzero]
        decide
      rw [hmask] at hone
      revert hone
      decide
  · simp only [IoPoint.sent, if_neg horder] at hzero hone
    rcases hzero with hzero | hzero
    · exact ⟨hzero, horder⟩
    · exfalso
      rw [hzero] at hone
      revert hone
      decide

/-- The floating-point number with an encoding. -/
def IoPoint.numberOf (io_point : IoPoint) (encoding : ℚ) : ℚ :=
  (if io_point.scale = 0 then encoding else encoding / io_point.scale.toInt) +
    io_point.shift.toInt

theorem encoding_numberOf (io_point : IoPoint) (encoding : ℚ) :
    io_point.encoding (.double (io_point.numberOf encoding)) (io_point.numberOf encoding) =
      encoding := by
  rw [IoPoint.encoding, IoPoint.places, pow_zero, mul_one, IoPoint.numberOf, add_sub_cancel_right]
  by_cases hscale : io_point.scale = 0
  · rw [if_pos hscale, IoPoint.scaled_zero hscale]
  · have hne : (io_point.scale.toInt : ℚ) ≠ 0 := by exact_mod_cast int32_toInt_ne_zero.2 hscale
    rw [if_neg hscale, IoPoint.scaled_of_ne hscale, div_mul_cancel₀ _ hne]

theorem fits_small (hnumber : io_point.IsNumber) (hlow : 0 ≤ encoding) (hhigh : encoding ≤ 32767)
    (hexact : io_point.scale = 0 → (truncate encoding : ℚ) = encoding) :
    io_point.Fits encoding where
  low := (Int.cast_le.2 io_point.lowest_nonpos).trans (by rw [Int.cast_zero]; exact hlow)
  high := by
    have hhighest : ((32767 : ℤ) : ℚ) ≤ io_point.highest := Int.cast_le.2 hnumber.highest_ge
    push_cast at hhighest
    linarith
  exact := hexact

theorem IoPoint.IsNumber.written_of_floor (hnumber : io_point.IsNumber)
    (hfits : io_point.Fits encoding) (hnonneg : 0 ≤ encoding) (hfloor : ⌊encoding⌋ = value) :
    io_point.written encoding = value := by
  have hwrites := hnumber.writes hfits.low hfits.high
  rw [hwrites.floor hnonneg, truncate_of_nonneg hnonneg, hfloor]

theorem IoPoint.IsNumber.reinterpret_le (hnumber : io_point.IsNumber)
    (huval : uval < 2 ^ (16 * io_point.size)) :
    io_point.lowest ≤ io_point.reinterpret uval ∧ io_point.reinterpret uval ≤ io_point.highest := by
  rw [IoPoint.lowest, IoPoint.highest, IoPoint.reinterpret]
  split_ifs
  · rcases hnumber.size with hsize | hsize | hsize <;> rw [hsize] at huval ⊢ <;>
      rw [Int.bmod_def] <;> norm_num at huval ⊢ <;> omega
  · have hlt : (uval : ℤ) < 2 ^ (16 * io_point.size) := by exact_mod_cast huval
    omega

theorem fits_intCast (hlow : io_point.lowest ≤ value) (hhigh : value ≤ io_point.highest) :
    io_point.Fits value where
  low := Int.cast_le.2 hlow
  high := Int.cast_le.2 hhigh
  exact := fun _ => by rw [truncate_intCast]

/-- What is decoded of an integer of the registers without a scale. -/
theorem output_eq_iff (hscale : io_point.scale = 0)
    (hshift : io_point.is_signed = true ∨ io_point.shift.toInt = 0) (integer : ℤ)
    (hlow : io_point.lowest ≤ value) (hhigh : value < 2 ^ 64) :
    io_point.output value = (integer : ℚ) ↔
      (value + io_point.shift.toInt) / 2 ^ io_point.starting_bit_pos = integer := by
  rw [IoPoint.output, if_neg (not_not.2 hscale)]
  cases hsigned : io_point.is_signed with
  | true => rw [if_pos rfl, Int.cast_inj]
  | false =>
    rw [hsigned] at hshift
    have hzero := hshift.resolve_left (by simp)
    rw [IoPoint.lowest, hsigned, if_neg (by simp)] at hlow
    rw [if_neg (by simp), hzero, add_zero, ← Int.cast_natCast, Int.cast_inj]
    push_cast
    rw [cast_toUnsigned, Int.emod_eq_of_lt hlow hhigh]

section

variable (hpoint : io_point.Extracted) (hnumber : io_point.IsNumber)
  (hall : ∀ (val : Any) (number : ℚ), val.scalar.number = some number →
    io_point.Fits (io_point.encoding val.scalar number) → io_point.Returns floats val number)
include hpoint hnumber hall

/-- What is decoded where every floating-point number that fits is given back. -/
theorem IoPoint.Extracted.near_numberOf
    (hfits : io_point.Fits encoding) :
    io_point.Near (io_point.numberOf encoding) (io_point.output (io_point.reinterpret
      (io_point.sent (io_point.bitsOf (io_point.written encoding))))) := by
  have hencoding := encoding_numberOf io_point encoding
  have hfits' : io_point.Fits (io_point.encoding
      (Any.scalar (.naked (.double (io_point.numberOf encoding)))) (io_point.numberOf encoding)) := by
    change io_point.Fits (io_point.encoding (.double (io_point.numberOf encoding))
      (io_point.numberOf encoding))
    rw [hencoding]
    exact hfits
  have hreturns := hall (.naked (.double (io_point.numberOf encoding)))
    (io_point.numberOf encoding) rfl hfits'
  have hset : set_any_to_uint64 floats io_point (.naked (.double (io_point.numberOf encoding))) =
      io_point.bitsOf (io_point.written (io_point.encoding
        (.double (io_point.numberOf encoding)) (io_point.numberOf encoding))) :=
    hnumber.set_eq rfl hfits' (by simp [IoPoint.Wraps, Any.scalar, Scalar.isUnsigned])
  rw [hencoding] at hset
  exact (hpoint.returns_iff_near hnumber hset).1 hreturns

/-- With a scale only a plain point gives back every value that fits. -/
theorem IoPoint.Extracted.plain_of_scale (hscale : io_point.scale ≠ 0) : io_point.Plain := by
  have hnear : ∀ encoding : ℚ, 0 ≤ encoding → encoding ≤ 32767 → ∀ value : ℤ, ⌊encoding⌋ = value →
      |(io_point.reinterpret (io_point.sent (io_point.bitsOf value)) : ℚ) - encoding| ≤ 1 := by
    intro encoding hlow hhigh value hfloor
    have hfits := fits_small hnumber hlow hhigh (fun hzero => absurd hzero hscale)
    have hreturns := hpoint.near_numberOf hnumber hall hfits
    have hne : (io_point.scale.toInt : ℚ) ≠ 0 := by exact_mod_cast int32_toInt_ne_zero.2 hscale
    rw [hnumber.written_of_floor hfits hlow hfloor, near_output_of_scale hscale, IoPoint.numberOf,
      if_neg hscale, add_sub_cancel_right, div_mul_cancel₀ _ hne] at hreturns
    exact hreturns
  have hsent : ∀ value, io_point.sent (io_point.bitsOf value) < 2 ^ (16 * io_point.size) :=
    fun value => io_point.sent_lt (io_point.bitsOf_lt value)
  have h0 := abs_le.1 (hnear 0 (by norm_num) (by norm_num) 0 (by norm_num))
  have hhalf := abs_le.1 (hnear (1 / 2) (by norm_num) (by norm_num) 0 (by norm_num))
  have h1 := abs_le.1 (hnear 1 (by norm_num) (by norm_num) 1 (by norm_num))
  have hthree := abs_le.1 (hnear (3 / 2) (by norm_num) (by norm_num) 1 (by norm_num))
  refine hnumber.plain_of_sent ?_ ?_
  · have hle : io_point.reinterpret (io_point.sent (io_point.bitsOf 0)) ≤ 1 := by
      have h := h0.2
      rw [sub_zero] at h
      exact_mod_cast h
    have hge : 0 ≤ io_point.reinterpret (io_point.sent (io_point.bitsOf 0)) := by
      have h : (-1 : ℚ) < io_point.reinterpret (io_point.sent (io_point.bitsOf 0)) := by
        linarith [hhalf.1]
      have h' : (-1 : ℤ) < io_point.reinterpret (io_point.sent (io_point.bitsOf 0)) := by
        exact_mod_cast h
      omega
    have heq := reinterpret_eq_of_nonneg (hsent 0) rfl hge
    omega
  · have hle : io_point.reinterpret (io_point.sent (io_point.bitsOf 1)) ≤ 2 := by
      have h : (io_point.reinterpret (io_point.sent (io_point.bitsOf 1)) : ℚ) ≤ 2 := by
        linarith [h1.2]
      exact_mod_cast h
    have hge : 1 ≤ io_point.reinterpret (io_point.sent (io_point.bitsOf 1)) := by
      have h : (0 : ℚ) < io_point.reinterpret (io_point.sent (io_point.bitsOf 1)) := by
        linarith [hthree.1]
      have h' : (0 : ℤ) < io_point.reinterpret (io_point.sent (io_point.bitsOf 1)) := by
        exact_mod_cast h
      omega
    have heq := reinterpret_eq_of_nonneg (hsent 1) rfl (by omega)
    omega

/-- Without a scale only a plain point without a starting bit gives back every value. -/
theorem IoPoint.Extracted.plain_of_zero (hscale : io_point.scale = 0) : io_point.Plain := by
  have hlowest := io_point.lowest_nonpos
  have hhighest := hnumber.highest_ge
  have hmost := hnumber.highest_lt.1
  have hsent : ∀ value, io_point.sent (io_point.bitsOf value) < 2 ^ (16 * io_point.size) :=
    fun value => io_point.sent_lt (io_point.bitsOf_lt value)
  have hnear : ∀ integer : ℤ, io_point.lowest ≤ integer → integer ≤ io_point.highest →
      io_point.output (io_point.reinterpret (io_point.sent (io_point.bitsOf
        (io_point.written integer)))) = (integer + io_point.shift.toInt : ℤ) := by
    intro integer hlow hhigh
    have hreturns := hpoint.near_numberOf hnumber hall (fits_intCast hlow hhigh)
    rw [IoPoint.Near, if_pos hscale, IoPoint.numberOf, if_pos hscale] at hreturns
    rw [hreturns]
    push_cast
    rfl
  have hshift : io_point.is_signed = true ∨ io_point.shift.toInt = 0 := by
    cases hsigned : io_point.is_signed with
    | true => exact .inl rfl
    | false =>
      refine .inr ?_
      rcases hpoint.unsigned hsigned with hzero | ⟨hneg, _⟩
      · exact hzero
      · have h := hnear 0 hlowest (by omega)
        rw [IoPoint.output, if_neg (not_not.2 hscale), hsigned, if_neg (by simp), zero_add,
          ← Int.cast_natCast, Int.cast_inj] at h
        rw [← h] at hneg
        exact absurd hneg (not_lt.2 (Int.natCast_nonneg _))
  have hdiv : ∀ integer : ℤ, io_point.lowest ≤ integer → integer ≤ io_point.highest →
      (io_point.reinterpret (io_point.sent (io_point.bitsOf (io_point.written integer))) +
        io_point.shift.toInt) / 2 ^ io_point.starting_bit_pos =
          integer + io_point.shift.toInt := by
    intro integer hlow hhigh
    have hbounds := hnumber.reinterpret_le (hsent (io_point.written integer))
    exact (output_eq_iff hscale hshift _ hbounds.1 (by omega)).1 (hnear integer hlow hhigh)
  by_cases hstart : io_point.starting_bit_pos = 0
  · have hback : ∀ integer : ℤ, 0 ≤ integer → integer ≤ io_point.highest →
        (io_point.sent (io_point.bitsOf integer) : ℤ) = integer := by
      intro integer hlow hhigh
      have hfits : io_point.Fits integer := fits_intCast (hlowest.trans hlow) hhigh
      have hwritten : io_point.written integer = integer :=
        hnumber.written_of_floor hfits (by exact_mod_cast hlow) (Int.floor_intCast integer)
      have h := hdiv integer (hlowest.trans hlow) hhigh
      rw [hstart, pow_zero, Int.ediv_one, hwritten] at h
      exact reinterpret_eq_of_nonneg (hsent integer) (by omega) hlow
    have h0 := hback 0 le_rfl (by omega)
    have h1 := hback 1 (by omega) (by omega)
    exact hnumber.plain_of_sent (by omega) (by omega)
  · exfalso
    have htwo := two_le_two_pow (Nat.pos_of_ne_zero hstart)
    have hpos : (0 : ℤ) < 2 ^ io_point.starting_bit_pos := by positivity
    have hhigh := hdiv io_point.highest (by omega) le_rfl
    have hlow := hdiv io_point.lowest le_rfl (by omega)
    have hhigh' := (hnumber.reinterpret_le (hsent (io_point.written io_point.highest))).2
    have hlow' := (hnumber.reinterpret_le (hsent (io_point.written io_point.lowest))).1
    rw [Int.ediv_eq_iff_of_pos hpos] at hhigh hlow
    have hnonpos : io_point.highest + io_point.shift.toInt ≤ 0 := by nlinarith [hhigh.1]
    have hge : -1 ≤ io_point.lowest + io_point.shift.toInt := by nlinarith [hlow.2]
    omega

end

/-! ## Every point -/

/-- A point of a configuration gives back every value that fits exactly if it is plain and every
value is kept; and a plain point gives back exactly the values that are kept. -/
theorem set_then_decode_iff (floats : FloatBits) (json_io_point : JsonIoPoint)
    (is_byte_swap : Bool) (packed_io_point : Option IoPoint)
    (hnumber : (extract_new_io_point json_io_point is_byte_swap packed_io_point).IsNumber) :
    let io_point := extract_new_io_point json_io_point is_byte_swap packed_io_point
    ((∀ (val : Any) (number : ℚ), val.scalar.number = some number →
        io_point.Fits (io_point.encoding val.scalar number) →
          io_point.Returns floats val number) ↔
      io_point.Plain ∧ ∀ (val : Any) (number : ℚ), val.scalar.number = some number →
        io_point.Fits (io_point.encoding val.scalar number) → io_point.Kept val.scalar number) ∧
    (io_point.Plain → ∀ (val : Any) (number : ℚ), val.scalar.number = some number →
      io_point.Fits (io_point.encoding val.scalar number) →
        (io_point.Returns floats val number ↔ io_point.Kept val.scalar number)) := by
  intro io_point
  have hpoint : io_point.Extracted :=
    extract_new_io_point_extracted json_io_point is_byte_swap packed_io_point
  have hkept : io_point.Plain → ∀ (val : Any) (number : ℚ), val.scalar.number = some number →
      io_point.Fits (io_point.encoding val.scalar number) →
        (io_point.Returns floats val number ↔ io_point.Kept val.scalar number) :=
    fun hplain val number hval hfits => hpoint.returns_iff_kept hnumber hplain hval hfits
  refine ⟨⟨fun hall => ?_, fun h val number hval hfits => ?_⟩, hkept⟩
  · have hplain : io_point.Plain := by
      by_cases hscale : io_point.scale = 0
      · exact hpoint.plain_of_zero hnumber hall hscale
      · exact hpoint.plain_of_scale hnumber hall hscale
    exact ⟨hplain, fun val number hval hfits =>
      (hkept hplain val number hval hfits).1 (hall val number hval hfits)⟩
  · exact (hkept h.1 val number hval hfits).2 (h.2 val number hval hfits)

/-! ## Two points -/

/-- Floating-point numbers that no point here uses. -/
def noFloats : FloatBits where
  bits32 := fun _ => 0
  value32 := fun _ => 0
  max32 := 0
  bits64 := fun _ => 0
  value64 := fun _ => 0

/-- A configuration with nothing in it. -/
def emptyJson : JsonIoPoint where
  size := none
  shift := none
  starting_bit_pos := none
  scale := none
  signed := none
  invert_mask := none
  float := none
  word_order := none
  byte_swap := none
  enum := none
  random_enum := none
  individual_bits := none
  bit_field := none
  packed_register := none

/-- Two registers with a shift and a scale. -/
def scaledJson : JsonIoPoint :=
  {emptyJson with
    size := some 2
    shift := some 5
    scale := some 10}

/-- Four registers with a word order. -/
def orderedJson : JsonIoPoint :=
  {emptyJson with
    size := some 4
    word_order := some 1234}

theorem set_then_decode_scaled :
    (extract_new_io_point scaledJson true none).Returns noFloats (.naked (.int64 7)) 7 := by
  have hnumber : (extract_new_io_point scaledJson true none).IsNumber := {
    size := by decide
    word_order := by decide
    is_float := rfl
    is_bit_field := rfl
    is_enum := rfl
    packed_register := rfl }
  have hplain : (extract_new_io_point scaledJson true none).Plain := {
    invert_mask := by decide
    word_order := by decide }
  have hscale : (extract_new_io_point scaledJson true none).scale ≠ 0 := by decide
  have hencoding : (extract_new_io_point scaledJson true none).encoding (.int64 7) 7 = 20 := by
    rw [IoPoint.encoding, IoPoint.scaled_of_ne hscale]
    change ((7 : ℚ) * 2 ^ 0 - ((5 : ℤ) : ℚ)) * ((10 : ℤ) : ℚ) = 20
    norm_num
  have hfits : (extract_new_io_point scaledJson true none).Fits
      ((extract_new_io_point scaledJson true none).encoding (.int64 7) 7) := by
    rw [hencoding]
    exact fits_small hnumber (by norm_num) (by norm_num) (fun hzero => absurd hzero hscale)
  refine ((set_then_decode_iff noFloats scaledJson true none hnumber).2 hplain (.naked (.int64 7)) 7
    rfl hfits).2 ?_
  rw [IoPoint.Kept, if_neg hscale]
  refine ⟨fun hwraps => absurd hwraps.1 (by decide), ?_⟩
  change |(7 : ℚ) * (2 ^ 0 - 1) * _ + ((extract_new_io_point scaledJson true none).slip
    ((extract_new_io_point scaledJson true none).encoding (.int64 7) 7) : ℚ)| ≤ 1
  rw [hencoding, IoPoint.slip, if_neg (by norm_num)]
  norm_num

/-- With a word order the words are read in the opposite order. -/
theorem set_then_decode_word_order :
    (extract_new_io_point orderedJson false none).IsNumber ∧
      (extract_new_io_point orderedJson false none).Fits
        ((extract_new_io_point orderedJson false none).encoding (.uint64 1) 1) ∧
      ¬ (extract_new_io_point orderedJson false none).Returns noFloats (.naked (.uint64 1)) 1 := by
  have hpoint := extract_new_io_point_extracted orderedJson false none
  have hnumber : (extract_new_io_point orderedJson false none).IsNumber := {
    size := by decide
    word_order := by decide
    is_float := rfl
    is_bit_field := rfl
    is_enum := rfl
    packed_register := rfl }
  have hscale : (extract_new_io_point orderedJson false none).scale = 0 := rfl
  have hencoding : (extract_new_io_point orderedJson false none).encoding (.uint64 1) 1 = 1 := by
    rw [IoPoint.encoding, IoPoint.scaled_zero hscale]
    change (1 : ℚ) * 2 ^ 0 - ((0 : ℤ) : ℚ) = 1
    norm_num
  have hone : (extract_new_io_point orderedJson false none).Fits 1 :=
    fits_small hnumber (by norm_num) (by norm_num) (fun _ => by
      have htruncate := truncate_intCast 1
      push_cast at htruncate
      rw [htruncate]
      norm_num)
  have hfits : (extract_new_io_point orderedJson false none).Fits
      ((extract_new_io_point orderedJson false none).encoding (.uint64 1) 1) := by
    rw [hencoding]
    exact hone
  refine ⟨hnumber, hfits, fun hreturns => ?_⟩
  have hwritten : (extract_new_io_point orderedJson false none).written 1 = 1 :=
    hnumber.written_of_floor hone (by norm_num) (by norm_num)
  have hset : set_any_to_uint64 noFloats (extract_new_io_point orderedJson false none)
      (.naked (.uint64 1)) = (extract_new_io_point orderedJson false none).bitsOf
        ((extract_new_io_point orderedJson false none).written
          ((extract_new_io_point orderedJson false none).encoding (.uint64 1) 1)) :=
    hnumber.set_eq rfl hfits (fun hwraps => hwraps.2.1 hscale)
  rw [hencoding, hwritten] at hset
  have hnear := (hpoint.returns_iff_near hnumber hset).1 hreturns
  rw [IoPoint.Near, if_pos hscale] at hnear
  have hinteger := (output_eq_iff hscale (.inr (by decide)) 1 (by decide)
    (by decide)).1 (hnear.trans Int.cast_one.symm)
  revert hinteger
  decide

/-!
## Limits of the registers

A value that does not fit the registers should be limited to their range. It is, except next
to the lowest integer of one and of two signed registers, beyond the range of four registers,
and where an unsigned value has no scale.
-/

/-! ## Truncation -/

variable {value : ℚ}

theorem truncate_mono {other : ℚ} (h : value ≤ other) : truncate value ≤ truncate other := by
  rw [truncate, truncate]
  split_ifs with hvalue hother hother
  · exact Int.floor_le_floor h
  · linarith
  · exact (Int.ceil_le.2 (by rw [Int.cast_zero]; linarith)).trans (Int.floor_nonneg.2 hother)
  · exact Int.ceil_le_ceil h

variable {high low : ℤ} {encoding : ℚ}

theorem le_truncate_of_le (hhigh : 0 ≤ high) (h : (high : ℚ) ≤ value) : high ≤ truncate value := by
  have hnonneg : (0 : ℚ) ≤ value := (Int.cast_nonneg hhigh).trans h
  rw [truncate_of_nonneg hnonneg]
  exact Int.le_floor.2 h

theorem truncate_le_of_le (h : value ≤ low) : truncate value ≤ low := by
  calc truncate value ≤ truncate (low : ℚ) := truncate_mono h
    _ = low := truncate_intCast low

theorem truncate_lt (hhigh : 0 < high) (h : value < high) : truncate value < high := by
  rw [truncate]
  split_ifs with hvalue
  · exact Int.floor_lt.2 h
  · have hle : ⌈value⌉ ≤ 0 := Int.ceil_le.2 (by rw [Int.cast_zero]; linarith)
    omega

theorem lt_truncate (hlow : low < 0) (h : (low : ℚ) < value) : low < truncate value := by
  rw [truncate]
  split_ifs with hvalue
  · have hge : 0 ≤ ⌊value⌋ := Int.floor_nonneg.2 hvalue
    omega
  · exact Int.lt_ceil.2 h

/-- A number that is limited and truncated. -/
theorem truncate_limit (low high : ℤ) (hlow : low ≤ 0) (hhigh : 0 ≤ high) (value : ℚ) :
    truncate (limit (low : ℚ) low high value) = max low (min high (truncate value)) := by
  by_cases habove : (high : ℚ) < value
  · have hle := le_truncate_of_le hhigh habove.le
    rw [limit_of_gt habove, truncate_intCast]
    omega
  · by_cases hbelow : value < low
    · have hle := truncate_le_of_le hbelow.le
      rw [limit_of_lt hbelow (not_lt.1 habove), truncate_intCast]
      omega
    · have hge := le_truncate (not_lt.1 hbelow)
      have hle := truncate_le (not_lt.1 habove)
      rw [limit_of_le (not_lt.1 hbelow) (not_lt.1 habove)]
      omega

/-! ## What should be written -/

/-- The number that a value is. A bool is inverted where the scale is negative. -/
def IoPoint.numeric (io_point : IoPoint) : Scalar → Option ℚ
  | .bool value => some (if (if io_point.scale < 0 then !value else value) then 1 else 0)
  | val => val.number

/-- The number, scaled, truncated and limited to the range of the registers. -/
def IoPoint.saturated (io_point : IoPoint) (number : ℚ) : ℤ :=
  max io_point.lowest (min io_point.highest (truncate (io_point.scaled number)))

/-- The registers stand for the number that is limited. -/
def IoPoint.Saturates (floats : FloatBits) (io_point : IoPoint) (val : Any) (number : ℚ) : Prop :=
  io_point.reinterpret (set_any_to_uint64 floats io_point val) = io_point.saturated number

/-- The limits in the source miss the range of the registers. -/
def IoPoint.Misses (io_point : IoPoint) (encoding : ℚ) : Prop :=
  if io_point.is_signed then
    (io_point.size = 1 ∧ -32768 < encoding ∧ encoding < -32767) ∨
    (io_point.size = 2 ∧ encoding ≤ -2 ^ 31) ∨
    (io_point.size = 4 ∧ (encoding < -2 ^ 63 ∨ encoding = 2 ^ 63))
  else io_point.size = 4 ∧ 2 ^ 64 ≤ encoding

/-- When the registers stand for the number that is limited. -/
def IoPoint.SaturatesWhen (io_point : IoPoint) (val : Scalar) (number : ℚ) : Prop :=
  if io_point.is_bit_field || io_point.is_enum || io_point.packed_register then
    io_point.saturated number = 0
  else if io_point.scale = 0 ∧ val.isUnsigned then
    number ≤ io_point.highest ∨ truncate number % 2 ^ (16 * io_point.size) = io_point.highest
  else ¬ io_point.Misses (io_point.scaled number)

theorem IoPoint.lowest_le_saturated (io_point : IoPoint) (number : ℚ) :
    io_point.lowest ≤ io_point.saturated number := le_max_left _ _

theorem IoPoint.saturated_le_highest (io_point : IoPoint) (number : ℚ) :
    io_point.saturated number ≤ io_point.highest := by
  have hlowest := io_point.lowest_nonpos
  have hhighest := io_point.highest_nonneg
  rw [IoPoint.saturated]
  omega

/-- The integer that is written is limited, unless the limits miss the range. -/
theorem IoPoint.Sized.written_eq (hsized : io_point.Sized) (hmisses : ¬ io_point.Misses encoding) :
    io_point.written encoding =
      max io_point.lowest (min io_point.highest (truncate encoding)) := by
  rw [IoPoint.Misses] at hmisses
  cases hsigned : io_point.is_signed with
  | false =>
    rw [hsigned, if_neg (by simp)] at hmisses
    rw [IoPoint.lowest, IoPoint.highest, IoPoint.written, hsigned]
    simp only [Bool.false_eq_true, if_false]
    rcases hsized.size with hsize | hsize | hsize
    · have hlimit := truncate_limit 0 65535 le_rfl (by norm_num) encoding
      rw [if_pos hsize, hsize]
      exact_mod_cast hlimit
    · have hlimit := truncate_limit 0 4294967295 le_rfl (by norm_num) encoding
      rw [if_neg (by omega), if_pos hsize, hsize]
      exact_mod_cast hlimit
    · have hless : encoding < ((2 ^ 64 : ℤ) : ℚ) := by
        exact not_le.1 fun hle => hmisses ⟨hsize, by exact_mod_cast hle⟩
      have htruncate := truncate_lt (by norm_num) hless
      have hlimit := truncate_limit 0 (2 ^ 64) le_rfl (by norm_num) encoding
      rw [Int.cast_zero, Int.cast_pow, Int.cast_ofNat] at hlimit
      rw [if_neg (by omega), if_neg (by omega), hsize, hlimit]
      omega
  | true =>
    rw [hsigned, if_pos rfl] at hmisses
    rw [IoPoint.lowest, IoPoint.highest, IoPoint.written, hsigned]
    simp only [if_true]
    rcases hsized.size with hsize | hsize | hsize
    · rw [if_pos hsize, hsize]
      by_cases hlow : encoding ≤ -32768
      · have hcast : truncate (-32768 : ℚ) = -32768 := truncate_intCast (-32768)
        have htruncate : truncate encoding ≤ -32768 :=
          truncate_le_of_le (by exact_mod_cast hlow)
        rw [limit_of_lt (by linarith) (by linarith), hcast]
        omega
      · have hge : -32767 ≤ encoding := by
          by_contra hless
          exact hmisses (.inl ⟨hsize, not_le.1 hlow, not_le.1 hless⟩)
        have htruncate : -32767 ≤ truncate encoding :=
          le_truncate (by exact_mod_cast hge)
        have hlimit := truncate_limit (-32767) 32767 (by norm_num) (by norm_num) encoding
        have hsame : limit (-32767 : ℚ) (-32768) 32767 encoding =
            limit (-32767) (-32767) 32767 encoding := by
          rw [limit, limit, if_neg (not_lt.2 hge), if_neg (not_lt.2 hge)]
        push_cast at hlimit
        rw [hsame, hlimit]
        omega
    · have hgt : ((-2147483648 : ℤ) : ℚ) < encoding := by
        refine not_le.1 fun hle => hmisses (.inr (.inl ⟨hsize, ?_⟩))
        exact hle
      have htruncate := lt_truncate (by norm_num) hgt
      have hlimit := truncate_limit (-2147483647) 2147483647 (by norm_num) (by norm_num) encoding
      push_cast at hlimit
      rw [if_neg (by omega), if_pos hsize, hsize, hlimit]
      omega
    · have hlow : ¬ encoding < -2 ^ 63 := fun hless => hmisses (.inr (.inr ⟨hsize, .inl hless⟩))
      have hne : encoding ≠ 2 ^ 63 := fun heq => hmisses (.inr (.inr ⟨hsize, .inr heq⟩))
      rw [if_neg (by omega), if_neg (by omega), hsize]
      have hge : -2 ^ 63 ≤ truncate encoding :=
        le_truncate (by push_cast; exact not_lt.1 hlow)
      by_cases hhigh : 2 ^ 63 < encoding
      · have hle : 2 ^ 63 ≤ truncate encoding :=
          le_truncate_of_le (by norm_num) (by push_cast; exact hhigh.le)
        rw [if_pos hhigh]
        omega
      · have hless : encoding < ((2 ^ 63 : ℤ) : ℚ) := by
          exact lt_of_le_of_ne (not_lt.1 hhigh) hne
        have hlt := truncate_lt (by norm_num) hless
        rw [if_neg hhigh, if_neg hlow]
        omega

/-- Where the limits miss the range, the registers do not stand for the limited number. -/
theorem IoPoint.Sized.reinterpret_written_ne (hsized : io_point.Sized)
    (hmisses : io_point.Misses encoding) :
    io_point.reinterpret (toUnsigned (16 * io_point.size) (io_point.written encoding)) ≠
      max io_point.lowest (min io_point.highest (truncate encoding)) := by
  rw [IoPoint.Misses] at hmisses
  cases hsigned : io_point.is_signed with
  | false =>
    rw [hsigned, if_neg (by simp)] at hmisses
    obtain ⟨hsize, hge⟩ := hmisses
    have htruncate : 2 ^ 64 ≤ truncate encoding :=
      le_truncate_of_le (by norm_num) (by push_cast; exact_mod_cast hge)
    have hlimit := truncate_limit 0 (2 ^ 64) le_rfl (by norm_num) encoding
    rw [Int.cast_zero, Int.cast_pow, Int.cast_ofNat] at hlimit
    have hwritten : io_point.written encoding = 2 ^ 64 := by
      rw [IoPoint.written, if_neg (by omega), if_neg (by omega), hsigned, if_neg (by simp), hlimit]
      omega
    have hzero : toUnsigned (16 * 4) (2 ^ 64) = 0 := by decide
    rw [hwritten, hsize, hzero, IoPoint.reinterpret, IoPoint.lowest, IoPoint.highest, hsigned,
      hsize]
    simp only [Bool.false_eq_true, if_false]
    omega
  | true =>
    rw [hsigned, if_pos rfl] at hmisses
    rcases hmisses with ⟨hsize, hlow, hhigh⟩ | ⟨hsize, hle⟩ | ⟨hsize, hless | heq⟩
    · have hcast : truncate (-32768 : ℚ) = -32768 := truncate_intCast (-32768)
      have hwritten : io_point.written encoding = -32768 := by
        rw [IoPoint.written, if_pos hsize, if_pos hsigned, limit_of_lt hhigh (by linarith), hcast]
      have htruncate : -32768 < truncate encoding :=
        lt_truncate (by norm_num) (by exact_mod_cast hlow)
      rw [hwritten, hsized.reinterpret_toUnsigned] <;>
        simp only [IoPoint.lowest, IoPoint.highest, hsigned, hsize, if_true] <;> omega
    · have hcast : truncate (-2147483647 : ℚ) = -2147483647 := truncate_intCast (-2147483647)
      have hle' : encoding ≤ -2147483648 := by
        exact hle
      have hwritten : io_point.written encoding = -2147483647 := by
        rw [IoPoint.written, if_neg (by omega), if_pos hsize, if_pos hsigned,
          limit_of_lt (by linarith) (by linarith), hcast]
      have htruncate : truncate encoding ≤ -2147483648 :=
        truncate_le_of_le (by exact_mod_cast hle')
      rw [hwritten, hsized.reinterpret_toUnsigned] <;>
        simp only [IoPoint.lowest, IoPoint.highest, hsigned, hsize, if_true] <;> omega
    · have hwritten : io_point.written encoding = -(2 ^ 63 - 1) := by
        rw [IoPoint.written, if_neg (by omega), if_neg (by omega), if_pos hsigned,
          if_neg (by linarith), if_pos hless]
      have htruncate : truncate encoding ≤ -2 ^ 63 :=
        truncate_le_of_le (by push_cast; exact hless.le)
      rw [hwritten, hsized.reinterpret_toUnsigned] <;>
        simp only [IoPoint.lowest, IoPoint.highest, hsigned, hsize, if_true] <;> omega
    · have hcast : truncate encoding = 2 ^ 63 := by
        have hinteger := truncate_intCast (2 ^ 63)
        rw [Int.cast_pow, Int.cast_ofNat] at hinteger
        rw [heq, hinteger]
      have hwritten : io_point.written encoding = 2 ^ 63 := by
        rw [IoPoint.written, if_neg (by omega), if_neg (by omega), if_pos hsigned,
          if_neg (by linarith), if_neg (by linarith), hcast]
      rw [hwritten, hcast, IoPoint.reinterpret, IoPoint.lowest, IoPoint.highest, hsigned, hsize]
      decide

/-- A point without a mask stands for its bits. -/
theorem bitsOf_of_mask (hmask : io_point.invert_mask = 0) (value : ℤ) :
    io_point.bitsOf value = toUnsigned (16 * io_point.size) value := by
  rw [IoPoint.bitsOf, hmask, Nat.zero_mod, Nat.xor_zero]

/-- An unsigned value without a scale is only cut off. -/
theorem IoPoint.Sized.reinterpret_natCast_iff (hsized : io_point.Sized)
    (hscale : io_point.scale = 0) (value : ℕ) :
    io_point.reinterpret (toUnsigned (16 * io_point.size) value) = io_point.saturated value ↔
      (value : ℚ) ≤ io_point.highest ∨
        truncate (value : ℚ) % 2 ^ (16 * io_point.size) = io_point.highest := by
  have hlowest := io_point.lowest_nonpos
  have hhighest := io_point.highest_nonneg
  have hcast : truncate (value : ℚ) = value := by
    have h := truncate_intCast value
    rw [Int.cast_natCast] at h
    exact h
  have hle : (value : ℚ) ≤ io_point.highest ↔ (value : ℤ) ≤ io_point.highest := by
    rw [← Int.cast_natCast, Int.cast_le]
  rw [IoPoint.saturated, IoPoint.scaled_zero hscale, hcast, hle, ← cast_toUnsigned]
  by_cases hfits : (value : ℤ) ≤ io_point.highest
  · rw [hsized.reinterpret_toUnsigned (by omega) hfits]
    refine iff_of_true ?_ (.inl hfits)
    omega
  · have hmax : max io_point.lowest (min io_point.highest (value : ℤ)) = io_point.highest := by
      omega
    rw [hmax, or_iff_right hfits]
    constructor
    · intro hread
      exact reinterpret_eq_of_nonneg (toUnsigned_lt _ _) hread hhighest
    · intro hbits
      have hback : io_point.reinterpret (toUnsigned (16 * io_point.size) io_point.highest) =
          io_point.highest := hsized.reinterpret_toUnsigned (by omega) le_rfl
      have hsame : toUnsigned (16 * io_point.size) value =
          toUnsigned (16 * io_point.size) io_point.highest := by
        have hmod : io_point.highest % 2 ^ (16 * io_point.size) = io_point.highest := by
          rw [← hbits, cast_toUnsigned, Int.emod_emod_of_dvd _ dvd_rfl]
        rw [← Int.natCast_inj, hbits, cast_toUnsigned, hmod]
      rw [hsame]
      exact hback

/-! ## Every value -/

theorem IoPoint.IsSettable.saturates_iff (hsettable : io_point.IsSettable)
    (hmask : io_point.invert_mask = 0)
    (hset : set_any_to_uint64 floats io_point val =
      io_point.bitsOf (io_point.written (io_point.scaled number))) :
    io_point.Saturates floats val number ↔ ¬ io_point.Misses (io_point.scaled number) := by
  rw [IoPoint.Saturates, hset, bitsOf_of_mask hmask]
  constructor
  · intro heq hmisses
    exact hsettable.reinterpret_written_ne hmisses heq
  · intro hmisses
    rw [hsettable.written_eq hmisses]
    exact hsettable.reinterpret_toUnsigned (io_point.lowest_le_saturated number)
      (io_point.saturated_le_highest number)

/-- A signed value of 64 bits. -/
theorem IoPoint.IsSettable.set_signed (hsettable : io_point.IsSettable) {value : ℤ}
    (hint : (io_point.read val.scalar).is_int = true)
    (huint : (io_point.read val.scalar).is_uint = false)
    (hi64val : (io_point.read val.scalar).i64val = value)
    (hf64val : io_point.scale ≠ 0 → (io_point.read val.scalar).f64val = io_point.scaled value)
    (hlow : -2 ^ 63 ≤ value) (hhigh : value < 2 ^ 63) :
    set_any_to_uint64 floats io_point val =
      io_point.bitsOf (io_point.written (io_point.scaled value)) := by
  by_cases hscale : io_point.scale = 0
  · rw [IoPoint.scaled_zero hscale]
    exact hsettable.set_i64val hscale huint hint hi64val (fun _ _ => ⟨hlow, hhigh.le⟩)
      (fun _ _ => by omega)
  · exact hsettable.set_f64val (by simp [hscale]) (by simp [hscale]) (hf64val hscale)

theorem readInt_of_zero (hshift : io_point.shift = 0) (hstart : io_point.starting_bit_pos = 0)
    (value : ℤ) :
    io_point.readInt value =
      { u64val := 0
        i64val := value
        f64val := io_point.scaled value
        is_uint := false
        is_int := true } := by
  simp [IoPoint.readInt, hshift, hstart]

theorem readUint_of_zero (hshift : io_point.shift = 0) (hstart : io_point.starting_bit_pos = 0)
    {value : ℕ} (hvalue : value < 2 ^ 64) :
    io_point.readUint value =
      { u64val := value
        i64val := 0
        f64val := io_point.scaled value
        is_uint := true
        is_int := false } := by
  have hmod : toUnsigned 64 value = value := by
    rw [toUnsigned, Int.emod_eq_of_lt (by omega) (by omega), Int.toNat_natCast]
  simp [IoPoint.readUint, hshift, hstart, hmod]

section

variable (hsettable : io_point.IsSettable) (hmask : io_point.invert_mask = 0)
  (hshift : io_point.shift = 0) (hstart : io_point.starting_bit_pos = 0)
include hsettable hmask hshift hstart

/-- A signed value is limited, unless the limits miss the range. -/
theorem IoPoint.IsSettable.saturates_int {value : ℤ}
    (hread : io_point.read val.scalar = io_point.readInt value) (hlow : -2 ^ 63 ≤ value)
    (hhigh : value < 2 ^ 63) :
    io_point.Saturates floats val value ↔ ¬ io_point.Misses (io_point.scaled value) := by
  rw [readInt_of_zero hshift hstart] at hread
  refine hsettable.saturates_iff hmask (hsettable.set_signed ?_ ?_ ?_ ?_ hlow hhigh)
  · rw [hread]
  · rw [hread]
  · rw [hread]
  · intro _
    rw [hread]

/-- An unsigned value is limited where there is a scale, and otherwise cut off. -/
theorem IoPoint.IsSettable.saturates_uint {value : ℕ}
    (hread : io_point.read val.scalar = io_point.readUint value) (hvalue : value < 2 ^ 64) :
    io_point.Saturates floats val value ↔
      if io_point.scale = 0 then
        (value : ℚ) ≤ io_point.highest ∨
          truncate (value : ℚ) % 2 ^ (16 * io_point.size) = io_point.highest
      else ¬ io_point.Misses (io_point.scaled value) := by
  rw [readUint_of_zero hshift hstart hvalue] at hread
  split_ifs with hscale
  · have hset : set_any_to_uint64 floats io_point val = io_point.bitsOf value := by
      refine hsettable.set_u64val hscale ?_ ?_
      · rw [hread]
      · rw [hread, toUnsigned, Int.emod_eq_of_lt (by omega) (by omega), Int.toNat_natCast]
    rw [IoPoint.Saturates, hset, bitsOf_of_mask hmask]
    exact hsettable.reinterpret_natCast_iff hscale value
  · refine hsettable.saturates_iff hmask (hsettable.set_f64val ?_ ?_ ?_)
    · simp [hscale]
    · simp [hscale]
    · rw [hread]

/-- A settable point limits a value exactly when it should. -/
theorem IoPoint.IsSettable.saturates_iff_when (hval : io_point.numeric val.scalar = some number) :
    io_point.Saturates floats val number ↔ io_point.SaturatesWhen val.scalar number := by
  rw [IoPoint.SaturatesWhen, hsettable.is_bit_field, hsettable.is_enum,
    hsettable.packed_register, if_neg (by simp)]
  cases hscalar : val.scalar with
  | other =>
    rw [hscalar] at hval
    cases hval
  | bool value =>
    rw [hscalar] at hval
    rw [if_neg (by simp [Scalar.isUnsigned])]
    have hi64val : (io_point.read val.scalar).i64val =
        if (if io_point.scale < 0 then !value else value) then 1 else 0 := by
      rw [hscalar]
      by_cases hscale : io_point.scale < 0 <;> cases value <;> simp [IoPoint.read, hscale]
    have hnumber : number =
        ((if (if io_point.scale < 0 then !value else value) then 1 else 0 : ℤ) : ℚ) := by
      simp only [IoPoint.numeric, Option.some.injEq] at hval
      rw [← hval]
      push_cast
      rfl
    rw [hnumber]
    refine hsettable.saturates_iff hmask (hsettable.set_signed ?_ ?_ hi64val ?_ ?_ ?_)
    · rw [hscalar]
      rfl
    · rw [hscalar]
      rfl
    · intro hscale
      rw [← hi64val, IoPoint.scaled_of_ne hscale, hscalar]
      simp [IoPoint.read, hscale]
    · split_ifs <;> norm_num
    · split_ifs <;> norm_num
  | int32 value =>
    rw [hscalar] at hval
    cases hval
    have hlow := value.le_toInt
    have hhigh := value.toInt_lt
    rw [if_neg (by simp [Scalar.isUnsigned])]
    exact hsettable.saturates_int hmask hshift hstart (by rw [hscalar]; rfl) (by omega) (by omega)
  | int64 value =>
    rw [hscalar] at hval
    cases hval
    rw [if_neg (by simp [Scalar.isUnsigned])]
    exact hsettable.saturates_int hmask hshift hstart (by rw [hscalar]; rfl) value.le_toInt
      value.toInt_lt
  | uint32 value =>
    rw [hscalar] at hval
    cases hval
    have hvalue := value.toNat_lt
    simp only [Scalar.isUnsigned, and_true]
    exact hsettable.saturates_uint hmask hshift hstart (by rw [hscalar]; rfl) (by omega)
  | uint64 value =>
    rw [hscalar] at hval
    cases hval
    simp only [Scalar.isUnsigned, and_true]
    exact hsettable.saturates_uint hmask hshift hstart (by rw [hscalar]; rfl) value.toNat_lt
  | double value =>
    rw [hscalar] at hval
    cases hval
    rw [if_neg (by simp [Scalar.isUnsigned])]
    refine hsettable.saturates_iff hmask (hsettable.set_f64val ?_ ?_ ?_) <;> rw [hscalar] <;>
      simp [IoPoint.read, hshift]

end

/-- The limited number is monotone where the scale is not negative. -/
theorem saturated_monotone (hscale : 0 ≤ io_point.scale.toInt) : Monotone io_point.saturated := by
  intro number other hle
  have hscaled : io_point.scaled number ≤ io_point.scaled other := by
    rw [IoPoint.scaled, IoPoint.scaled]
    split_ifs
    · exact mul_le_mul_of_nonneg_right hle (Int.cast_nonneg hscale)
    · exact hle
  have htruncate := truncate_mono hscaled
  rw [IoPoint.saturated, IoPoint.saturated]
  omega

/-- A point without a mask, a shift and a starting bit limits exactly the values that it should,
and the limited number is the number where this fits, and is monotone where the scale is not
negative. -/
theorem set_any_saturates_iff (floats : FloatBits) (io_point : IoPoint) (hsized : io_point.Sized)
    (hfloat : io_point.is_float = false) (hmask : io_point.invert_mask = 0)
    (hshift : io_point.shift = 0) (hstart : io_point.starting_bit_pos = 0) :
    (∀ (val : Any) (number : ℚ), io_point.numeric val.scalar = some number →
      (io_point.Saturates floats val number ↔ io_point.SaturatesWhen val.scalar number)) ∧
    (∀ number, io_point.lowest ≤ truncate (io_point.scaled number) →
      truncate (io_point.scaled number) ≤ io_point.highest →
        io_point.saturated number = truncate (io_point.scaled number)) ∧
    (0 ≤ io_point.scale.toInt → Monotone io_point.saturated) := by
  refine ⟨fun val number hval => ?_, fun number hlow hhigh => ?_, saturated_monotone⟩
  · by_cases hbits : (io_point.is_bit_field || io_point.is_enum || io_point.packed_register) = true
    · have hset : set_any_to_uint64 floats io_point val = 0 := by
        rw [set_any_to_uint64, if_pos hbits]
      have hzero : io_point.reinterpret 0 = 0 := by simp [IoPoint.reinterpret]
      rw [IoPoint.Saturates, hset, hzero, IoPoint.SaturatesWhen, if_pos hbits]
      exact eq_comm
    · simp only [Bool.or_eq_true, not_or, Bool.not_eq_true] at hbits
      have hsettable : io_point.IsSettable := {
        toSized := hsized
        is_float := hfloat
        is_bit_field := hbits.1.1
        is_enum := hbits.1.2
        packed_register := hbits.2 }
      exact hsettable.saturates_iff_when hmask hshift hstart hval
  · rw [IoPoint.saturated]
    omega

/-! ## One register -/

/-- One signed register without a scale. -/
def signedJson : JsonIoPoint :=
  {emptyJson with
    signed := some true}

theorem set_any_saturates_register :
    (extract_new_io_point signedJson false none).Saturates noFloats (.naked (.int32 (-40000)))
      (-40000) := by
  have hscale : (extract_new_io_point signedJson false none).scale = 0 := rfl
  have hsaturates := (set_any_saturates_iff noFloats (extract_new_io_point signedJson false none)
    ⟨by decide⟩ rfl rfl rfl rfl).1 (.naked (.int32 (-40000))) (-40000) (by
      change some (((-40000 : ℤ)) : ℚ) = some (-40000)
      norm_num)
  refine hsaturates.2 ?_
  rw [IoPoint.SaturatesWhen, if_neg (by decide), if_neg (by simp [Any.scalar, Scalar.isUnsigned]),
    IoPoint.scaled_zero hscale, IoPoint.Misses, if_pos (by decide)]
  rintro (⟨_, hlow, _⟩ | ⟨hsize, _⟩ | ⟨hsize, _⟩)
  · norm_num at hlow
  · revert hsize
    decide
  · revert hsize
    decide

/-- An unsigned value that is too high for one register is cut off. -/
theorem set_any_cuts_off :
    (extract_new_io_point emptyJson false none).numeric (.uint32 65536) = some 65536 ∧
      ¬ (extract_new_io_point emptyJson false none).Saturates noFloats (.naked (.uint32 65536))
        65536 := by
  have hset : set_any_to_uint64 noFloats (extract_new_io_point emptyJson false none)
      (.naked (.uint32 65536)) = 0 := by decide
  have hscale : (extract_new_io_point emptyJson false none).scale = 0 := rfl
  have hcast : truncate (65536 : ℚ) = 65536 := truncate_intCast 65536
  refine ⟨?_, fun hsaturates => ?_⟩
  · change some ((65536 : ℕ) : ℚ) = some 65536
    norm_num
  · rw [IoPoint.Saturates, hset, IoPoint.saturated, IoPoint.scaled_zero hscale, hcast] at hsaturates
    revert hsaturates
    decide

end HybridOs.GcomRegisters
