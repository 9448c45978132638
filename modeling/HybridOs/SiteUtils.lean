import Mathlib

/-!
# Range and time helpers shared by the site controller

The float helpers are read over exact rationals; a `timespec` keeps its two
fields, so that the one-millisecond buffer of the expiry test stays visible.
-/

namespace HybridOs.SiteUtils

/-- Clip a value into `[low, high]`; an inverted range answers its upper test first. -/
def rangeCheck (value high low : ℚ) : ℚ :=
  if value < high then (if value > low then value else low) else high

/-- Zero in place of a negative value. -/
def zeroCheck (value : ℚ) : ℚ := if value < 0 then 0 else value

/-- Zero in place of a positive value. -/
def lessThanZeroCheck (value : ℚ) : ℚ := if value > 0 then 0 else value

/-- Strict closeness up to the magnitude of the tolerance. -/
def near (a b tolerance : ℚ) : Bool := |a - b| < |tolerance|

/-- `a` is below `b`, or the two are near each other. -/
def lessThanOrNear (a b tolerance : ℚ) : Bool := a ≤ b || near a b tolerance

theorem zeroCheck_eq_max (value : ℚ) : zeroCheck value = max 0 value := by
  unfold zeroCheck
  split_ifs with h
  · exact (max_eq_left h.le).symm
  · exact (max_eq_right (not_lt.mp h)).symm

theorem lessThanZeroCheck_eq_min (value : ℚ) : lessThanZeroCheck value = min 0 value := by
  unfold lessThanZeroCheck
  split_ifs with h
  · exact (min_eq_left h.le).symm
  · exact (min_eq_right (not_lt.mp h)).symm

/-- On a proper range the clip is the usual one. -/
theorem rangeCheck_eq_clamp {value high low : ℚ} (h : low ≤ high) :
    rangeCheck value high low = min high (max low value) := by
  unfold rangeCheck
  split_ifs with h1 h2
  · rw [max_eq_right h2.le, min_eq_right h1.le]
  · rw [max_eq_left (not_lt.mp h2), min_eq_right h]
  · rw [min_eq_left ((not_lt.mp h1).trans (le_max_right _ _))]

/-- The dispatch deadband: one watt, and everything at or below zero. -/
theorem lessThanOrNear_deadband (cmd : ℚ) :
    lessThanOrNear cmd 0 (1 / 1000) = true ↔ cmd < 1 / 1000 := by
  have hpos : (0 : ℚ) < 1 / 1000 := by norm_num
  simp only [lessThanOrNear, near, Bool.or_eq_true, decide_eq_true_eq, sub_zero]
  rw [abs_of_pos hpos]
  constructor
  · rintro (h | h)
    · exact h.trans_lt hpos
    · exact (le_abs_self cmd).trans_lt h
  · intro h
    by_cases hc : cmd ≤ 0
    · exact Or.inl hc
    · exact Or.inr (by rwa [abs_of_pos (not_le.mp hc)])

/-- Seconds and nanoseconds of the monotonic clock. -/
structure Timespec where
  /-- Whole seconds. -/
  tvSec : ℤ
  /-- Nanoseconds within the second. -/
  tvNsec : ℤ
  deriving DecidableEq, Repr

/-- A reading of the clock keeps its nanoseconds inside one second. -/
def Timespec.Valid (t : Timespec) : Prop := 0 ≤ t.tvNsec ∧ t.tvNsec < 1000000000

instance (t : Timespec) : Decidable t.Valid := inferInstanceAs (Decidable (_ ∧ _))

/-- Nanoseconds since the origin of the clock. -/
def Timespec.nanos (t : Timespec) : ℤ := t.tvSec * 1000000000 + t.tvNsec

/-- True once the target lies in an earlier second, or more than one
millisecond back in the same second. -/
def checkExpiredTime (currentTime targetTime : Timespec) : Bool :=
  if currentTime.tvSec > targetTime.tvSec then true
  else if currentTime.tvSec < targetTime.tvSec then false
  else currentTime.tvNsec > targetTime.tvNsec + 1000000

/-- An expired target has passed. -/
theorem nanos_lt_of_expired {currentTime targetTime : Timespec} (hcurrent : currentTime.Valid)
    (htarget : targetTime.Valid) (h : checkExpiredTime currentTime targetTime = true) :
    targetTime.nanos < currentTime.nanos := by
  unfold checkExpiredTime at h
  unfold Timespec.Valid at hcurrent htarget
  unfold Timespec.nanos
  split_ifs at h with hlater hearlier
  · omega
  · have hnsec := of_decide_eq_true h
    omega

end HybridOs.SiteUtils
