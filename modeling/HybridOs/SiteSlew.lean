import HybridOs.SiteUtils

/-!
# Slewed targets

A slew object follows its target no faster than its rate. The room that a call
opens is that of the time since the call before, and the next call uses it. The
time is taken in microseconds, whose nanosecond part is cut towards zero, so
that it is too long by up to a microsecond where the clock has gone into
another second.
-/

namespace HybridOs.SiteSlew

open SiteUtils

/-- `Slew_Object`. The time of the current call becomes that of the previous one. -/
structure SlewObject where
  /-- Rate at which slew occurs, per second. -/
  slewRate : ℤ
  /-- Present value of the slew. -/
  currentValue : ℚ
  /-- Seconds between the slew calls. -/
  slewDeltaTime : ℚ
  /-- Maximum of the next value. -/
  slewMaxValue : ℚ
  /-- Minimum of the next value. -/
  slewMinValue : ℚ
  /-- Time of the previous call. -/
  slewPrevTime : Timespec

/-- A new object, whose time is not set yet. -/
def SlewObject.new (slewPrevTime : Timespec) : SlewObject where
  slewRate := 1000000
  currentValue := 0
  slewDeltaTime := 0
  slewMaxValue := 0
  slewMinValue := 0
  slewPrevTime := slewPrevTime

/-- The microseconds from one reading of the clock to another, as a difference
of each part. -/
def deltaMicros (previous current : Timespec) : ℤ :=
  (current.tvSec - previous.tvSec) * 1000000 +
    (current.tvNsec - previous.tvNsec).tdiv 1000

namespace SlewObject

/-- The target after checking against the slew. -/
def getSlewTarget (slew : SlewObject) (targetValue : ℚ) : ℚ :=
  if targetValue > slew.currentValue then
    if targetValue > slew.slewMaxValue then slew.slewMaxValue else targetValue
  else if targetValue < slew.currentValue then
    if targetValue < slew.slewMinValue then slew.slewMinValue else targetValue
  else targetValue

/-- Take the slewed target as the current value and open the room of the next. -/
def updateSlewTarget (slew : SlewObject) (slewCurrentTime : Timespec) (targetValue : ℚ) :
    SlewObject :=
  let currentValue := slew.getSlewTarget targetValue
  let slewDeltaTime : ℚ := deltaMicros slew.slewPrevTime slewCurrentTime / 1000000
  { slew with
    currentValue
    slewDeltaTime
    slewMaxValue := currentValue + slew.slewRate * slewDeltaTime
    slewMinValue := currentValue - slew.slewRate * slewDeltaTime
    slewPrevTime := slewCurrentTime }

/-- `reset_slew_target` sets the clock. -/
def resetSlewTarget (slew : SlewObject) (slewCurrentTime : Timespec) : SlewObject :=
  { slew with slewPrevTime := slewCurrentTime }

/-- `set_slew_rate`. -/
def setSlewRate (slew : SlewObject) (rate : ℤ) : SlewObject := { slew with slewRate := rate }

end SlewObject

/-- An object as a feature sets it up, with a rate and the time of the reset. -/
def configured (uninitialized : Timespec) (rate : ℤ) (begun : Timespec) : SlewObject :=
  ((SlewObject.new uninitialized).setSlewRate rate).resetSlewTarget begun

/-! ## Runs -/

/-- A value that lies between two others. -/
def Between (a b value : ℚ) : Prop := min a b ≤ value ∧ value ≤ max a b

/-- Seconds from one reading of the clock to another. -/
def seconds (begun now : Timespec) : ℚ := (now.nanos - begun.nanos) / 1000000000

/-- Each value of a run lies between the value before and its target, and is no
further from the first value than the rate allows in the time since the start. -/
def Slewed (first : ℚ) (begun : Timespec) : SlewObject → List (Timespec × ℚ) → Prop
  | _, [] => True
  | slew, (now, targetValue) :: rest =>
    let next := slew.updateSlewTarget now targetValue
    Between slew.currentValue targetValue next.currentValue ∧
      |next.currentValue - first| ≤ slew.slewRate * seconds begun now ∧
      Slewed first begun next rest

/-- At each reading, the microseconds counted up to the reading before have
passed since the start. -/
def CountsTime (begun : Timespec) : Timespec → ℤ → List Timespec → Prop
  | _, _, [] => True
  | previous, counted, now :: rest =>
    counted * 1000 ≤ now.nanos - begun.nanos ∧
      CountsTime begun now (counted + deltaMicros previous now) rest

/-- The microseconds counted over readings of the clock. -/
def countMicros : Timespec → List Timespec → ℤ
  | _, [] => 0
  | previous, now :: rest => deltaMicros previous now + countMicros now rest

/-- Valid readings of a clock that does not go back. -/
def Readings : Timespec → List Timespec → Prop
  | previous, [] => previous.Valid
  | previous, now :: rest => previous.Valid ∧ previous.nanos ≤ now.nanos ∧ Readings now rest

variable {previous : Timespec} {readings : List Timespec}

theorem Readings.valid (h : Readings previous readings) : previous.Valid := by
  cases readings with
  | nil => exact h
  | cons now rest => exact h.1

/-- The clock is never counted back. -/
theorem deltaMicros_nonneg {current : Timespec} (hprevious : previous.Valid)
    (hcurrent : current.Valid) (h : previous.nanos ≤ current.nanos) :
    0 ≤ deltaMicros previous current := by
  obtain ⟨hlow, hhigh⟩ := hprevious
  obtain ⟨hlow', hhigh'⟩ := hcurrent
  unfold Timespec.nanos at h
  unfold deltaMicros
  have hsign : Int.sign 1000 = 1 := rfl
  rw [Int.tdiv_eq_ediv, hsign]
  split_ifs <;> omega

theorem countMicros_nonneg (h : Readings previous readings) :
    0 ≤ countMicros previous readings := by
  induction readings generalizing previous with
  | nil => exact le_rfl
  | cons now rest ih =>
    have hdelta := deltaMicros_nonneg h.1 h.2.2.valid h.2.1
    have hrest := ih h.2.2
    rw [countMicros]
    omega

/-! ## One call -/

namespace SlewObject

/-- The room of the next value is the same on both sides of the current one. -/
structure HasRoom (slew : SlewObject) (room : ℚ) : Prop where
  nonneg : 0 ≤ room
  max_eq : slew.slewMaxValue = slew.currentValue + room
  min_eq : slew.slewMinValue = slew.currentValue - room

variable {slew : SlewObject} {room : ℚ}

/-- The slewed target never overshoots, and uses no more than the room. -/
theorem HasRoom.getSlewTarget (h : slew.HasRoom room) (targetValue : ℚ) :
    Between slew.currentValue targetValue (slew.getSlewTarget targetValue) ∧
      |slew.getSlewTarget targetValue - slew.currentValue| ≤ room := by
  have hroom := h.nonneg
  unfold SlewObject.getSlewTarget Between
  rw [h.max_eq, h.min_eq]
  split_ifs with habove hmax hbelow hmin
  · rw [min_eq_left habove.le, max_eq_right habove.le, abs_of_nonneg (by linarith)]
    exact ⟨⟨by linarith, hmax.le⟩, by linarith⟩
  · rw [min_eq_left habove.le, max_eq_right habove.le, abs_of_nonneg (by linarith)]
    exact ⟨⟨habove.le, le_rfl⟩, by linarith⟩
  · rw [min_eq_right hbelow.le, max_eq_left hbelow.le, abs_of_nonpos (by linarith)]
    exact ⟨⟨hmin.le, by linarith⟩, by linarith⟩
  · rw [min_eq_right hbelow.le, max_eq_left hbelow.le, abs_of_nonpos (by linarith)]
    exact ⟨⟨le_rfl, hbelow.le⟩, by linarith⟩
  · have heq : targetValue = slew.currentValue := by linarith
    rw [heq, sub_self, abs_zero, min_self, max_self]
    exact ⟨⟨le_rfl, le_rfl⟩, hroom⟩

/-- A target beyond the room is followed to the end of the room. -/
theorem HasRoom.getSlewTarget_far (h : slew.HasRoom room) {targetValue : ℚ}
    (hfar : slew.currentValue + room < targetValue) :
    slew.getSlewTarget targetValue = slew.currentValue + room := by
  have hroom := h.nonneg
  unfold SlewObject.getSlewTarget
  rw [h.max_eq, if_pos (by linarith), if_pos hfar]

/-- The room that a call opens is that of the microseconds since the call before. -/
theorem updateSlewTarget_hasRoom {now : Timespec} (targetValue : ℚ) (hrate : 0 ≤ slew.slewRate)
    (hdelta : 0 ≤ deltaMicros slew.slewPrevTime now) :
    (slew.updateSlewTarget now targetValue).HasRoom
      (slew.slewRate * (deltaMicros slew.slewPrevTime now / 1000000)) := by
  have hrate' : (0 : ℚ) ≤ slew.slewRate := by exact_mod_cast hrate
  have hdelta' : (0 : ℚ) ≤ deltaMicros slew.slewPrevTime now := by exact_mod_cast hdelta
  constructor
  · positivity
  · rfl
  · rfl

end SlewObject

/-! ## Runs of calls -/

/-- A rate for so many microseconds. -/
def micros (rate count : ℤ) : ℚ := rate * (count / 1000000)

theorem micros_add (rate a b : ℤ) : micros rate (a + b) = micros rate a + micros rate b := by
  unfold micros
  push_cast
  ring

variable {rate count : ℤ} {begun : Timespec}

theorem micros_nonneg (hrate : 0 ≤ rate) (hcount : 0 ≤ count) : 0 ≤ micros rate count := by
  unfold micros
  positivity

variable {now : Timespec} {first : ℚ} {counted pending : ℤ}

/-- Microseconds that have passed allow no more than the time itself. -/
theorem micros_le_of_passed (hrate : 0 ≤ rate) (hpassed : count * 1000 ≤ now.nanos - begun.nanos) :
    micros rate count ≤ rate * seconds begun now := by
  have hrate' : (0 : ℚ) ≤ rate := by exact_mod_cast hrate
  have hpassed' : (count : ℚ) * 1000 ≤ now.nanos - begun.nanos := by exact_mod_cast hpassed
  unfold micros seconds
  refine mul_le_mul_of_nonneg_left ?_ hrate'
  linarith

/-- And where they allow no more, they have passed. -/
theorem passed_of_micros_le (hrate : 0 < rate) (h : micros rate count ≤ rate * seconds begun now) :
    count * 1000 ≤ now.nanos - begun.nanos := by
  have hrate' : (0 : ℚ) < rate := by exact_mod_cast hrate
  unfold micros seconds at h
  have hle := le_of_mul_le_mul_left h hrate'
  have hpassed : (count : ℚ) * 1000 ≤ now.nanos - begun.nanos := by linarith
  exact_mod_cast hpassed

/-- A run at a rate of zero, or in which the counted microseconds have passed, is slewed. The invariant
keeps the value within the microseconds counted without the last ones, the room of the next
value. -/
theorem slewed_of_countsTime {slew : SlewObject} {calls : List (Timespec × ℚ)}
    (hrate : 0 ≤ slew.slewRate) (hroom : slew.HasRoom (micros slew.slewRate pending))
    (hvalue : |slew.currentValue - first| ≤ micros slew.slewRate (counted - pending))
    (hreadings : Readings slew.slewPrevTime (calls.map Prod.fst)) (hcounts : slew.slewRate = 0 ∨
      CountsTime begun slew.slewPrevTime counted (calls.map Prod.fst)) :
    Slewed first begun slew calls := by
  induction calls generalizing slew counted pending with
  | nil => trivial
  | cons call rest ih =>
    obtain ⟨now, targetValue⟩ := call
    obtain ⟨hvalid, hle, hrest⟩ := hreadings
    have hdelta := deltaMicros_nonneg hvalid hrest.valid hle
    obtain ⟨hbetween, hmoved⟩ := hroom.getSlewTarget targetValue
    have hnext : |slew.getSlewTarget targetValue - first| ≤ micros slew.slewRate counted := by
      have hsum := micros_add slew.slewRate (counted - pending) pending
      rw [sub_add_cancel] at hsum
      have htriangle := abs_sub_le (slew.getSlewTarget targetValue) slew.currentValue first
      linarith
    have hbound : micros slew.slewRate counted ≤ slew.slewRate * seconds begun now := by
      rcases hcounts with hzero | hcounts
      · rw [micros, hzero, Int.cast_zero, zero_mul, zero_mul]
      · exact micros_le_of_passed hrate hcounts.1
    refine ⟨hbetween, hnext.trans hbound, ?_⟩
    have hrate' : 0 ≤ (slew.updateSlewTarget now targetValue).slewRate := hrate
    refine ih hrate'
      (SlewObject.updateSlewTarget_hasRoom targetValue hrate hdelta) ?_ hrest
      (hcounts.imp id And.right)
    rw [add_sub_cancel_right]
    exact hnext

/-- A run towards a target that stays out of reach is slewed only if the counted
microseconds have passed. -/
theorem countsTime_of_slewed {slew : SlewObject} {far : ℚ} {readings : List Timespec}
    (hrate : 0 < slew.slewRate) (hcounted : 0 ≤ counted)
    (hroom : slew.HasRoom (micros slew.slewRate pending))
    (hvalue : slew.currentValue = first + micros slew.slewRate (counted - pending))
    (hreadings : Readings slew.slewPrevTime readings)
    (hfar : first + micros slew.slewRate (counted + countMicros slew.slewPrevTime readings) < far)
    (hslewed : Slewed first begun slew (readings.map fun now => (now, far))) :
    CountsTime begun slew.slewPrevTime counted readings := by
  induction readings generalizing slew counted pending with
  | nil => trivial
  | cons now rest ih =>
    obtain ⟨hvalid, hle, hrest⟩ := hreadings
    have hdelta := deltaMicros_nonneg hvalid hrest.valid hle
    have hlater := countMicros_nonneg hrest
    rw [countMicros] at hfar
    have hreach : slew.currentValue + micros slew.slewRate pending =
        first + micros slew.slewRate counted := by
      have hsum := micros_add slew.slewRate (counted - pending) pending
      rw [sub_add_cancel] at hsum
      rw [hvalue, hsum, add_assoc]
    have hstep : slew.getSlewTarget far = first + micros slew.slewRate counted := by
      rw [← hreach]
      refine hroom.getSlewTarget_far ?_
      have hmore := micros_add slew.slewRate counted
        (deltaMicros slew.slewPrevTime now + countMicros now rest)
      have hnonneg := micros_nonneg hrate.le (add_nonneg hdelta hlater)
      rw [hreach]
      linarith
    obtain ⟨-, hbound, htail⟩ := hslewed
    have hpassed : counted * 1000 ≤ now.nanos - begun.nanos := by
      refine passed_of_micros_le hrate ?_
      have habs : |slew.getSlewTarget far - first| = micros slew.slewRate counted := by
        rw [hstep, add_sub_cancel_left, abs_of_nonneg (micros_nonneg hrate.le hcounted)]
      rw [← habs]
      exact hbound
    refine ⟨hpassed, ?_⟩
    have hrate' : 0 < (slew.updateSlewTarget now far).slewRate := hrate
    refine ih hrate' (add_nonneg hcounted hdelta)
      (SlewObject.updateSlewTarget_hasRoom far hrate.le hdelta) ?_ hrest ?_ htail
    · rw [add_sub_cancel_right]
      exact hstep
    · rw [add_assoc]
      exact hfar

/-- Every run at a rate is slewed if and only if the rate is zero or, at each
reading, the microseconds counted up to the reading before have passed. -/
theorem slewed_iff_countsTime {rate : ℤ} (hrate : 0 ≤ rate) (uninitialized : Timespec)
    {begun : Timespec} {readings : List Timespec} (hreadings : Readings begun readings) :
    (∀ calls : List (Timespec × ℚ), calls.map Prod.fst = readings →
      Slewed 0 begun (configured uninitialized rate begun) calls) ↔
      rate = 0 ∨ CountsTime begun begun 0 readings := by
  have hroom : (configured uninitialized rate begun).HasRoom (micros rate 0) := by
    constructor
    · exact micros_nonneg hrate le_rfl
    · simp [configured, SlewObject.new, SlewObject.setSlewRate, SlewObject.resetSlewTarget, micros]
    · simp [configured, SlewObject.new, SlewObject.setSlewRate, SlewObject.resetSlewTarget, micros]
  constructor
  · intro h
    by_cases hzero : rate = 0
    · exact .inl hzero
    · right
      have hpos : 0 < rate := by omega
      have hslewed := h (readings.map fun now =>
        (now, micros rate (countMicros begun readings) + 1))
        (by rw [List.map_map]; exact List.map_id readings)
      have hpos' : 0 < (configured uninitialized rate begun).slewRate := hpos
      refine countsTime_of_slewed hpos' le_rfl hroom ?_ hreadings ?_ hslewed
      · simp [configured, SlewObject.new, SlewObject.setSlewRate, SlewObject.resetSlewTarget,
          micros]
      · change 0 + micros rate (0 + countMicros begun readings) < _
        rw [zero_add, zero_add]
        linarith
  · rintro hcounts calls rfl
    have hrate' : 0 ≤ (configured uninitialized rate begun).slewRate := hrate
    refine slewed_of_countsTime hrate' hroom ?_ hreadings hcounts
    rw [sub_zero, configured, SlewObject.resetSlewTarget, SlewObject.setSlewRate, SlewObject.new,
      sub_zero, abs_zero]
    exact micros_nonneg hrate le_rfl

/-- A tenth of a second between the calls, at the rate that is the default. -/
theorem slewed_iff_countsTime_tenths :
    (∀ calls : List (Timespec × ℚ), calls.map Prod.fst = [⟨5, 100000000⟩, ⟨5, 200000000⟩] →
      Slewed 0 ⟨5, 0⟩ (configured ⟨0, 0⟩ 1000000 ⟨5, 0⟩) calls) ↔
      (1000000 : ℤ) = 0 ∨ CountsTime ⟨5, 0⟩ ⟨5, 0⟩ 0 [⟨5, 100000000⟩, ⟨5, 200000000⟩] :=
  slewed_iff_countsTime (by decide) ⟨0, 0⟩
    ⟨by decide, by decide, by decide, by decide, (by decide : Timespec.Valid ⟨5, 200000000⟩)⟩

/-- The clock goes into the next second within a nanosecond, and the call after it moves the
value as in a microsecond. -/
theorem nextSecond_notSlewed :
    Readings ⟨0, 999999999⟩ [⟨1, 0⟩, ⟨1, 0⟩] ∧
      ¬ Slewed 0 ⟨0, 999999999⟩ (configured ⟨0, 0⟩ 1000000 ⟨0, 999999999⟩)
        [(⟨1, 0⟩, 10), (⟨1, 0⟩, 10)] := by
  refine ⟨⟨by decide, by decide, by decide, by decide, (by decide : Timespec.Valid ⟨1, 0⟩)⟩, ?_⟩
  rintro ⟨-, -, -, hbound, -⟩
  have hmicro : deltaMicros ⟨0, 999999999⟩ ⟨1, 0⟩ = 1 := by decide
  have hvalue : (((configured ⟨0, 0⟩ 1000000 ⟨0, 999999999⟩).updateSlewTarget ⟨1, 0⟩
      10).updateSlewTarget ⟨1, 0⟩ 10).currentValue = 1 := by
    norm_num [configured, SlewObject.new, SlewObject.setSlewRate, SlewObject.resetSlewTarget,
      SlewObject.updateSlewTarget, SlewObject.getSlewTarget, hmicro]
  rw [hvalue] at hbound
  norm_num [seconds, Timespec.nanos, configured, SlewObject.new, SlewObject.setSlewRate,
    SlewObject.resetSlewTarget, SlewObject.updateSlewTarget] at hbound

end HybridOs.SiteSlew
