import Mathlib.Algebra.Order.Field.Power
import Mathlib.Algebra.Order.Round
import Mathlib.Data.Int.Log
import Mathlib.Tactic.Positivity
import Mathlib.Tactic.Ring

/-!
# Rounding to significant bits

A number is written as a multiple of a power of two that leaves room for a
given count of bits, and the multiple is rounded to the nearest integer, of two
nearest ones to the even one. The rounding keeps the order and fixes every
number that the bits can hold. Exponents have no bounds.
-/

namespace HybridOs.SpacedBits

variable {K : Type*} [Field K] [LinearOrder K] [FloorRing K]

/-! ## The nearest integer -/

/-- The nearest integer, and of two nearest ones the even one. -/
def nearest (x : K) : ℤ :=
  if x - ⌊x⌋ < ((2 : ℕ) : K)⁻¹ ∨ x - ⌊x⌋ = ((2 : ℕ) : K)⁻¹ ∧ ⌊x⌋ % 2 = 0 then ⌊x⌋ else ⌊x⌋ + 1

/-- The nearest integer by the floor, ties to even. -/
theorem nearest_eq (x : K) : nearest x =
    if x - ⌊x⌋ < 1 / 2 ∨ x - ⌊x⌋ = 1 / 2 ∧ ⌊x⌋ % 2 = 0 then ⌊x⌋ else ⌊x⌋ + 1 := by
  rw [nearest, Nat.cast_ofNat, one_div]

/-- The nearest integer is at least the floor. -/
theorem floor_le_nearest (x : K) : ⌊x⌋ ≤ nearest x := by
  rw [nearest_eq]
  split_ifs
  · exact le_rfl
  · exact le_of_lt (lt_add_one _)

/-- It is at most the next integer. -/
theorem nearest_le_floor_add_one (x : K) : nearest x ≤ ⌊x⌋ + 1 := by
  rw [nearest_eq]
  split_ifs
  · exact le_of_lt (lt_add_one _)
  · exact le_rfl

variable [IsStrictOrderedRing K]

/-- Integers stay as they are. -/
theorem nearest_intCast (n : ℤ) : nearest (n : K) = n := by
  rw [nearest_eq, Int.floor_intCast, sub_self, if_pos (Or.inl (by norm_num))]

variable {x y : K} {p : ℕ}

/-- Rounding to the nearest integer is monotone. -/
theorem nearest_mono (h : x ≤ y) : nearest x ≤ nearest y := by
  rcases (Int.floor_mono h).lt_or_eq with hlt | heq
  · calc nearest x ≤ ⌊x⌋ + 1 := nearest_le_floor_add_one x
      _ ≤ ⌊y⌋ := hlt
      _ ≤ nearest y := floor_le_nearest y
  · rw [nearest_eq, nearest_eq, heq]
    split_ifs with hx hy hy
    · exact le_rfl
    · exact le_of_lt (lt_add_one _)
    · -- The smaller number goes up only where the greater one does.
      exfalso
      apply hx
      rcases hy with hy | ⟨hy, heven⟩
      · exact Or.inl (by linarith)
      · rcases (show x - ⌊y⌋ ≤ 1 / 2 by linarith).lt_or_eq with hx' | hx'
        · exact Or.inl hx'
        · exact Or.inr ⟨hx', heven⟩
    · exact le_rfl

/-! ## Numbers of at least zero -/

/-- The distance of neighbouring numbers with `p` significant bits at a number. -/
def spacing (p : ℕ) (x : K) : K := ((2 : ℕ) : K) ^ (Int.log 2 x - (p - 1 : ℤ))

omit [IsStrictOrderedRing K] in
/-- The spacing as one power of two. -/
theorem spacing_eq (p : ℕ) (x : K) : spacing p x = 2 ^ (Int.log 2 x - (p - 1 : ℤ)) := by
  rw [spacing, Nat.cast_ofNat]

/-- The spacing is positive. -/
theorem spacing_pos (p : ℕ) (x : K) : 0 < spacing p x := by
  rw [spacing_eq]
  exact zpow_pos (by norm_num) _

/-- The rounding of a number of at least zero. -/
def roundMagnitude (p : ℕ) (x : K) : K := nearest (x / spacing p x) * spacing p x

/-- Zero is rounded to zero. -/
@[simp] theorem roundMagnitude_zero (p : ℕ) : roundMagnitude p (0 : K) = 0 := by
  have h : nearest (0 : K) = 0 := by
    have h := nearest_intCast (K := K) 0
    rwa [Int.cast_zero] at h
  rw [roundMagnitude, zero_div, h, Int.cast_zero, zero_mul]

/-- A whole number of spacings stays as it is. -/
theorem roundMagnitude_eq_self (n : ℤ) (h : x = n * spacing p x) : roundMagnitude p x = x := by
  have hdiv : x / spacing p x = n := by
    rw [div_eq_iff (ne_of_gt (spacing_pos p x))]
    exact h
  rw [roundMagnitude, hdiv, nearest_intCast]
  exact h.symm

/-- The count of spacings in a positive number has `p` bits. -/
theorem two_pow_le_div_spacing (p : ℕ) (hx : 0 < x) :
    (2 : K) ^ ((p : ℤ) - 1) ≤ x / spacing p x := by
  rw [le_div_iff₀ (spacing_pos p x), spacing_eq, ← zpow_add₀ (by norm_num : (2 : K) ≠ 0)]
  have h := Int.zpow_log_le_self (b := 2) (by norm_num) hx
  rw [show (p : ℤ) - 1 + (Int.log 2 x - (p - 1)) = Int.log 2 x by ring]
  exact_mod_cast h

/-- A value has as many spacings as the precision lets it. -/
theorem div_spacing_lt_two_pow (p : ℕ) (x : K) : x / spacing p x < (2 : K) ^ (p : ℤ) := by
  rw [div_lt_iff₀ (spacing_pos p x), spacing_eq, ← zpow_add₀ (by norm_num : (2 : K) ≠ 0)]
  have h := Int.lt_zpow_succ_log_self (b := 2) (by norm_num) x
  rw [show (p : ℤ) + (Int.log 2 x - (p - 1)) = Int.log 2 x + 1 by ring]
  exact_mod_cast h

/-- A rounded number does not leave the powers of two around it, below. -/
theorem two_pow_log_le_roundMagnitude (hp : 1 ≤ p) (hx : 0 < x) :
    (2 : K) ^ Int.log 2 x ≤ roundMagnitude p x := by
  obtain ⟨q, rfl⟩ : ∃ q, p = q + 1 := ⟨p - 1, by omega⟩
  have hfloor : nearest ((2 ^ q : ℤ) : K) ≤ nearest (x / spacing (q + 1) x) := by
    apply nearest_mono
    have h := two_pow_le_div_spacing (q + 1) hx
    push_cast at h ⊢
    rwa [add_sub_cancel_right, zpow_natCast] at h
  rw [nearest_intCast] at hfloor
  have hcast : (2 : K) ^ q ≤ nearest (x / spacing (q + 1) x) := by exact_mod_cast hfloor
  calc (2 : K) ^ Int.log 2 x
      = 2 ^ q * spacing (q + 1) x := by
        rw [spacing_eq, ← zpow_natCast, ← zpow_add₀ (by norm_num : (2 : K) ≠ 0)]
        congr 1
        push_cast
        ring
    _ ≤ roundMagnitude (q + 1) x :=
        mul_le_mul_of_nonneg_right hcast (le_of_lt (spacing_pos _ x))

/-- A rounded number does not leave the powers of two around it, above. -/
theorem roundMagnitude_le_two_pow_log (p : ℕ) (x : K) :
    roundMagnitude p x ≤ (2 : K) ^ (Int.log 2 x + 1) := by
  have hceil : nearest (x / spacing p x) ≤ nearest ((2 ^ p : ℤ) : K) := by
    apply nearest_mono
    have h := le_of_lt (div_spacing_lt_two_pow p x)
    push_cast
    rwa [zpow_natCast] at h
  rw [nearest_intCast] at hceil
  have hcast : (nearest (x / spacing p x) : K) ≤ 2 ^ p := by exact_mod_cast hceil
  calc roundMagnitude p x ≤ 2 ^ p * spacing p x :=
        mul_le_mul_of_nonneg_right hcast (le_of_lt (spacing_pos p x))
    _ = (2 : K) ^ (Int.log 2 x + 1) := by
        rw [spacing_eq, ← zpow_natCast, ← zpow_add₀ (by norm_num : (2 : K) ≠ 0)]
        congr 1
        ring

/-- A rounded magnitude is not negative. -/
theorem roundMagnitude_nonneg (hp : 1 ≤ p) (hx : 0 ≤ x) : 0 ≤ roundMagnitude p x := by
  rcases hx.lt_or_eq with hx | rfl
  · exact (zpow_pos (by norm_num : (0 : K) < 2) _).le.trans (two_pow_log_le_roundMagnitude hp hx)
  · exact (roundMagnitude_zero p).ge

/-- Rounding magnitudes is monotone. -/
theorem roundMagnitude_mono (hp : 1 ≤ p) (hx : 0 ≤ x) (h : x ≤ y) :
    roundMagnitude p x ≤ roundMagnitude p y := by
  rcases hx.lt_or_eq with hx | rfl
  · rcases (Int.log_mono_right (b := 2) hx h).lt_or_eq with hlt | heq
    · calc roundMagnitude p x ≤ (2 : K) ^ (Int.log 2 x + 1) := roundMagnitude_le_two_pow_log p x
        _ ≤ (2 : K) ^ Int.log 2 y := zpow_le_zpow_right₀ (by norm_num) hlt
        _ ≤ roundMagnitude p y := two_pow_log_le_roundMagnitude hp (hx.trans_le h)
    · have hspacing : spacing p x = spacing p y := by rw [spacing, spacing, heq]
      rw [roundMagnitude, roundMagnitude, hspacing]
      apply mul_le_mul_of_nonneg_right _ (le_of_lt (spacing_pos p y))
      exact_mod_cast nearest_mono (div_le_div_of_nonneg_right h (le_of_lt (spacing_pos p y)))
  · rw [roundMagnitude_zero]
    exact roundMagnitude_nonneg hp h

/-! ## Numbers of any sign -/

/-- The rounding of a number to `p` significant bits. -/
def roundTo (p : ℕ) (x : K) : K :=
  if x < 0 then -roundMagnitude p (-x) else roundMagnitude p x

omit [IsStrictOrderedRing K] in
/-- A value from zero on is rounded as a magnitude. -/
theorem roundTo_of_nonneg (p : ℕ) (hx : 0 ≤ x) : roundTo p x = roundMagnitude p x :=
  if_neg (not_lt.mpr hx)

/-- Zero is rounded to zero. -/
@[simp] theorem roundTo_zero (p : ℕ) : roundTo p (0 : K) = 0 := by
  rw [roundTo_of_nonneg p le_rfl, roundMagnitude_zero]

/-- Rounding is odd. -/
@[simp] theorem roundTo_neg (p : ℕ) (x : K) : roundTo p (-x) = -roundTo p x := by
  rcases lt_trichotomy x 0 with hx | rfl | hx
  · rw [roundTo_of_nonneg p (neg_nonneg.mpr hx.le), roundTo, if_pos hx, neg_neg]
  · rw [neg_zero, roundTo_zero, neg_zero]
  · rw [roundTo, if_pos (neg_lt_zero.mpr hx), neg_neg, roundTo_of_nonneg p hx.le]

/-- A value from zero on is rounded to one. -/
theorem roundTo_nonneg (hp : 1 ≤ p) (hx : 0 ≤ x) : 0 ≤ roundTo p x := by
  rw [roundTo_of_nonneg p hx]
  exact roundMagnitude_nonneg hp hx

/-- Rounding keeps the order. -/
theorem roundTo_mono (hp : 1 ≤ p) (h : x ≤ y) : roundTo p x ≤ roundTo p y := by
  rcases lt_or_ge x 0 with hx | hx
  · rcases lt_or_ge y 0 with hy | hy
    · rw [roundTo, roundTo, if_pos hx, if_pos hy]
      exact neg_le_neg (roundMagnitude_mono hp (neg_nonneg.mpr hy.le) (neg_le_neg h))
    · have hneg : roundTo p x ≤ 0 := by
        rw [roundTo, if_pos hx]
        exact neg_nonpos.mpr (roundMagnitude_nonneg hp (neg_nonneg.mpr hx.le))
      exact hneg.trans (roundTo_nonneg hp hy)
  · rw [roundTo_of_nonneg p hx, roundTo_of_nonneg p (hx.trans h)]
    exact roundMagnitude_mono hp hx h

/-! ## Numbers that the bits hold -/

/-- A product of a number of fewer than `p` bits and a power of two stays as it is. -/
theorem roundMagnitude_mul_two_pow {n : ℕ} (hn : n < 2 ^ p) (e : ℤ) :
    roundMagnitude p ((n : K) * 2 ^ e) = n * 2 ^ e := by
  rcases Nat.eq_zero_or_pos n with rfl | hpos
  · rw [Nat.cast_zero, zero_mul, roundMagnitude_zero]
  have hx : (0 : K) < n * 2 ^ e := by positivity
  have hlog : Int.log 2 ((n : K) * 2 ^ e) < p + e := by
    rw [← Int.lt_zpow_iff_log_lt (by norm_num) hx, Nat.cast_ofNat,
      zpow_add₀ (by norm_num : (2 : K) ≠ 0), zpow_natCast]
    apply mul_lt_mul_of_pos_right _ (by positivity)
    exact_mod_cast hn
  obtain ⟨d, hd⟩ : ∃ d : ℕ, e = Int.log 2 ((n : K) * 2 ^ e) - (p - 1 : ℤ) + d :=
    ⟨(e - (Int.log 2 ((n : K) * 2 ^ e) - (p - 1 : ℤ))).toNat, by omega⟩
  apply roundMagnitude_eq_self ((n * 2 ^ d : ℕ) : ℤ)
  calc (n : K) * 2 ^ e = n * (2 ^ (d : ℤ) * spacing p ((n : K) * 2 ^ e)) := by
        rw [spacing_eq, ← zpow_add₀ (by norm_num : (2 : K) ≠ 0)]
        congr 2
        omega
    _ = ((n * 2 ^ d : ℕ) : ℤ) * spacing p ((n : K) * 2 ^ e) := by
        push_cast
        rw [zpow_natCast]
        ring

/-- A power of two is exact. -/
theorem roundTo_two_pow (hp : 1 ≤ p) (e : ℤ) : roundTo p ((2 : K) ^ e) = 2 ^ e := by
  have h := roundMagnitude_mul_two_pow (K := K) (p := p) (n := 1) (Nat.one_lt_two_pow (by omega)) e
  rw [Nat.cast_one, one_mul] at h
  rw [roundTo_of_nonneg p (by positivity), h]

/-- A rounded number stays as it is. -/
theorem roundMagnitude_roundMagnitude (hp : 1 ≤ p) (hx : 0 ≤ x) :
    roundMagnitude p (roundMagnitude p x) = roundMagnitude p x := by
  have hpos := spacing_pos p x
  have hnonneg : 0 ≤ nearest (x / spacing p x) := by
    have h := nearest_mono (div_nonneg hx hpos.le)
    rwa [← Int.cast_zero, nearest_intCast] at h
  obtain ⟨n, hn⟩ := Int.eq_ofNat_of_zero_le hnonneg
  have hle : n ≤ 2 ^ p := by
    have h := nearest_mono (x := x / spacing p x) (y := ((2 ^ p : ℤ) : K)) (by
      have h := (div_spacing_lt_two_pow p x).le
      push_cast
      rwa [zpow_natCast] at h)
    rw [nearest_intCast, hn] at h
    exact_mod_cast h
  have hround : roundMagnitude p x = n * 2 ^ (Int.log 2 x - (p - 1 : ℤ)) := by
    rw [roundMagnitude, hn, Int.cast_natCast, spacing_eq]
  rw [hround]
  rcases hle.lt_or_eq with hlt | rfl
  · exact roundMagnitude_mul_two_pow hlt _
  · rw [Nat.cast_pow, Nat.cast_ofNat, ← zpow_natCast, ← zpow_add₀ (by norm_num : (2 : K) ≠ 0),
      ← roundTo_of_nonneg p (by positivity), roundTo_two_pow hp]

/-- A rounded value is exact. -/
theorem roundTo_roundTo (hp : 1 ≤ p) (x : K) : roundTo p (roundTo p x) = roundTo p x := by
  rcases le_total 0 x with hx | hx
  · rw [roundTo_of_nonneg p hx, roundTo_of_nonneg p (roundMagnitude_nonneg hp hx),
      roundMagnitude_roundMagnitude hp hx]
  · have h := roundMagnitude_roundMagnitude hp (neg_nonneg.mpr hx)
    rw [← neg_neg x, roundTo_neg, roundTo_neg, roundTo_of_nonneg p (neg_nonneg.mpr hx),
      roundTo_of_nonneg p (roundMagnitude_nonneg hp (neg_nonneg.mpr hx)), h]

end HybridOs.SpacedBits
