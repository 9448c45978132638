import HybridOs.GreedyFill

/-!
# Filling weighted takers to one level

An amount is given out in proportion to weights. A taker whose part exceeds
its limit gets the limit and leaves; the rest of the amount is given out
again. The takers that have left are full at every later level, so at the end
one level explains every part.
-/

namespace HybridOs.WaterLevel

open GreedyFill

variable {ι K : Type*} [Field K]

theorem capacity_mul (weight : ι → K) (level : K) (takers : List ι) :
    capacity (fun i => level * weight i) takers = level * capacity weight takers := by
  induction takers with
  | nil => simp
  | cons i rest ih => rw [capacity_cons, capacity_cons, ih, mul_add]

theorem capacity_congr {room room' : ι → K} {takers : List ι}
    (h : ∀ i ∈ takers, room i = room' i) : capacity room takers = capacity room' takers := by
  unfold capacity
  rw [List.map_congr_left h]

variable [LinearOrder K]

/-- Part of a taker at a level. -/
def part (limit weight : ι → K) (level : K) (i : ι) : K := min (limit i) (level * weight i)

/-- Level at which the weights of the takers add up to the amount left. -/
def fairLevel (weight : ι → K) (takers : List ι) (left : K) : K :=
  if capacity weight takers = 0 then 0 else left / capacity weight takers

theorem fairLevel_mul {weight : ι → K} {takers : List ι} (left : K)
    (hsum : capacity weight takers ≠ 0) :
    fairLevel weight takers left * capacity weight takers = left := by
  rw [fairLevel, if_neg hsum]
  exact div_mul_cancel₀ left hsum

/-- A taker can only exceed its limit while the weights add up to something. -/
theorem capacity_ne_zero_of_exceeds {limit weight : ι → K} {takers : List ι} {left : K} {i : ι}
    (hlimit : 0 ≤ limit i) (hexceeds : limit i < fairLevel weight takers left * weight i) :
    capacity weight takers ≠ 0 := by
  intro hzero
  rw [fairLevel, if_pos hzero, zero_mul] at hexceeds
  exact absurd hexceeds (not_lt.mpr hlimit)

/-- How far a filling has got: the takers that are full, those still in it,
the amount left for these and a level reached so far. -/
structure Filling (limit weight : ι → K) (amount : K) (full takers : List ι)
    (left level : K) : Prop where
  /-- Levels only rise from zero. -/
  level_nonneg : 0 ≤ level
  /-- What is not left has gone to the full takers. -/
  amount_eq : left + capacity limit full = amount
  /-- Full takers have weights of at least zero. -/
  full_nonneg : ∀ i ∈ full, 0 ≤ weight i
  /-- Full takers are full at the level reached. -/
  full_le : ∀ i ∈ full, limit i ≤ level * weight i
  /-- There is enough left to keep the level. -/
  takers_le : level * capacity weight takers ≤ left

theorem Filling.start (limit weight : ι → K) {amount : K} (h : 0 ≤ amount) (takers : List ι) :
    Filling limit weight amount [] takers amount 0 := by
  constructor
  · exact le_rfl
  · simp
  · simp
  · simp
  · rw [zero_mul]
    exact h

variable [IsStrictOrderedRing K] {limit weight : ι → K} {amount left level : K}
  {full takers : List ι}

/-- Weights that add up to nothing are all nothing. -/
theorem weight_eq_zero (hweight : ∀ i ∈ takers, 0 ≤ weight i)
    (hsum : capacity weight takers = 0) : ∀ i ∈ takers, weight i = 0 := by
  induction takers with
  | nil => simp
  | cons i rest ih =>
    have hhead := hweight i (List.mem_cons_self ..)
    have hrest : ∀ j ∈ rest, 0 ≤ weight j := fun j hj => hweight j (List.mem_cons_of_mem i hj)
    have htail := capacity_nonneg hrest
    rw [capacity_cons] at hsum
    intro j hj
    rcases List.mem_cons.mp hj with heq | hj
    · rw [heq]
      linarith
    · exact ih hrest (by linarith) j hj

theorem fairLevel_nonneg (hweight : ∀ i ∈ takers, 0 ≤ weight i) (hleft : 0 ≤ left) :
    0 ≤ fairLevel weight takers left := by
  unfold fairLevel
  split_ifs
  · exact le_rfl
  · exact div_nonneg hleft (capacity_nonneg hweight)

namespace Filling

variable (h : Filling limit weight amount full takers left level)
  (hweight : ∀ i ∈ takers, 0 ≤ weight i)
include h hweight

theorem left_nonneg : 0 ≤ left :=
  (mul_nonneg h.level_nonneg (capacity_nonneg hweight)).trans h.takers_le

/-- The fair level is at least the level reached. -/
theorem le_fairLevel (hsum : capacity weight takers ≠ 0) :
    level ≤ fairLevel weight takers left := by
  have hpos : 0 < capacity weight takers :=
    lt_of_le_of_ne (capacity_nonneg hweight) (Ne.symm hsum)
  rw [fairLevel, if_neg hsum]
  exact (le_div_iff₀ hpos).mpr h.takers_le

/-- Full takers stay full at the fair level. -/
theorem full_le_fairLevel (hsum : capacity weight takers ≠ 0) :
    ∀ i ∈ full, limit i ≤ fairLevel weight takers left * weight i := by
  intro i hi
  have hraised := h.le_fairLevel hweight hsum
  exact (h.full_le i hi).trans (mul_le_mul_of_nonneg_right hraised (h.full_nonneg i hi))

/-- A taker whose fair part exceeds its limit leaves full, and the fair level
of this round is kept for the next. -/
theorem leave {i : ι} {takers' : List ι} (hperm : takers.Perm (i :: takers'))
    (hlimit : 0 ≤ limit i) (hexceeds : limit i < fairLevel weight takers left * weight i) :
    Filling limit weight amount (i :: full) takers' (left - limit i)
      (fairLevel weight takers left) := by
  have hsum := capacity_ne_zero_of_exceeds hlimit hexceeds
  have hmul := fairLevel_mul left hsum
  rw [capacity_perm hperm, capacity_cons, mul_add] at hmul
  constructor
  · exact fairLevel_nonneg hweight (h.left_nonneg hweight)
  · rw [capacity_cons, ← h.amount_eq]
    ring
  · intro j hj
    rcases List.mem_cons.mp hj with heq | hj
    · rw [heq]
      exact hweight i (hperm.symm.mem_iff.mp (List.mem_cons_self ..))
    · exact h.full_nonneg j hj
  · intro j hj
    rcases List.mem_cons.mp hj with heq | hj
    · rw [heq]
      exact hexceeds.le
    · exact h.full_le_fairLevel hweight hsum j hj
  · linarith

/-- With no taker above its limit the filling is done: the parts are those of
one level and give out the amount, or all the room if that is less. -/
theorem finish (hempty : ∀ i ∈ takers, weight i = 0 → limit i = 0)
    (hwithin : ∀ i ∈ takers, fairLevel weight takers left * weight i ≤ limit i) :
    ∃ level', 0 ≤ level' ∧ (∀ i ∈ full, part limit weight level' i = limit i) ∧
      (∀ i ∈ takers, part limit weight level' i = fairLevel weight takers left * weight i) ∧
      capacity (part limit weight level') full + capacity (part limit weight level') takers =
        min amount (capacity limit full + capacity limit takers) := by
  by_cases hsum : capacity weight takers = 0
  · -- nothing is wanted any more, and the amount exceeds the room of the full takers
    have hnone := weight_eq_zero hweight hsum
    have hfull : ∀ i ∈ full, part limit weight level i = limit i :=
      fun i hi => min_eq_left (h.full_le i hi)
    have htakers : ∀ i ∈ takers, part limit weight level i = 0 := by
      intro i hi
      rw [part, hnone i hi, mul_zero, hempty i hi (hnone i hi), min_self]
    have hroom : capacity limit takers = 0 := by
      rw [capacity_congr fun i hi => hempty i hi (hnone i hi)]
      simp [capacity]
    have hleft := h.left_nonneg hweight
    have hamount := h.amount_eq
    refine ⟨level, h.level_nonneg, hfull, ?_, ?_⟩
    · intro i hi
      rw [htakers i hi, hnone i hi, mul_zero]
    · rw [capacity_congr hfull, capacity_congr htakers, hroom, min_eq_right (by linarith)]
      simp [capacity]
  · have hfull : ∀ i ∈ full, part limit weight (fairLevel weight takers left) i = limit i :=
      fun i hi => min_eq_left (h.full_le_fairLevel hweight hsum i hi)
    have htakers : ∀ i ∈ takers, part limit weight (fairLevel weight takers left) i =
        fairLevel weight takers left * weight i := fun i hi => min_eq_right (hwithin i hi)
    have hgiven : capacity (fun i => fairLevel weight takers left * weight i) takers = left := by
      rw [capacity_mul, fairLevel_mul left hsum]
    have hroom : left ≤ capacity limit takers := by
      rw [← hgiven]
      exact List.sum_le_sum hwithin
    have hamount := h.amount_eq
    refine ⟨fairLevel weight takers left,
      fairLevel_nonneg hweight (h.left_nonneg hweight), hfull, htakers, ?_⟩
    rw [capacity_congr hfull, capacity_congr htakers, hgiven, min_eq_left (by linarith)]
    linarith

end Filling

end HybridOs.WaterLevel
