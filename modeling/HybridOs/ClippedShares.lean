import Mathlib

/-!
# Shares of a total, clipped

A total is divided over a finite family and every share is clipped to the range
of the member that takes it. The shares of a family add up to the total when
they are proportional to weights with a nonzero sum, or all equal. Clipping
keeps the sum when every share lies in its range. When the ranges themselves are
proportional to the weights, the clipped shares add up to the clipped total.
-/

namespace HybridOs.ClippedShares

section Clip

variable {K : Type*} [LinearOrder K]

/-- Clip a value into `[low, high]`; an inverted range answers its upper test first. -/
def clip (value high low : K) : K :=
  if value < high then (if value > low then value else low) else high

variable {value high low : K}

/-- A value inside its range is kept. -/
theorem clip_of_mem (hlow : low ≤ value) (hhigh : value ≤ high) : clip value high low = value := by
  unfold clip
  split_ifs with hbelow habove
  · rfl
  · exact le_antisymm hlow (not_lt.mp habove)
  · exact le_antisymm (not_lt.mp hbelow) hhigh

/-- A value above its range gives the upper end. -/
theorem clip_of_ge (h : high ≤ value) : clip value high low = high := by
  unfold clip
  rw [if_neg (not_lt.mpr h)]

/-- A value below a proper range gives the lower end. -/
theorem clip_of_le (h : value ≤ low) (hrange : low ≤ high) : clip value high low = low := by
  unfold clip
  split_ifs with hbelow habove
  · exact absurd habove (not_lt.mpr h)
  · rfl
  · exact le_antisymm ((not_lt.mp hbelow).trans h) hrange

/-- Shares that lie in their ranges keep their sum. -/
theorem sum_clip_of_mem {ι : Type*} [AddCommMonoid K] (S : Finset ι) (share high low : ι → K)
    (hmem : ∀ i ∈ S, low i ≤ share i ∧ share i ≤ high i) :
    ∑ i ∈ S, clip (share i) (high i) (low i) = ∑ i ∈ S, share i := by
  apply Finset.sum_congr rfl
  intro i hi
  exact clip_of_mem (hmem i hi).1 (hmem i hi).2

end Clip

section Shares

variable {K ι : Type*} [Field K]

/-- Shares proportional to weights add up to the total. -/
theorem sum_proportional (S : Finset ι) (weight : ι → K) (total : K)
    (hsum : ∑ i ∈ S, weight i ≠ 0) : ∑ i ∈ S, total * (weight i / ∑ j ∈ S, weight j) = total := by
  rw [← Finset.mul_sum, ← Finset.sum_div, div_self hsum, mul_one]

/-- Equal shares add up to the total. -/
theorem sum_equal [CharZero K] (S : Finset ι) (total : K) (hne : S.Nonempty) :
    ∑ _i ∈ S, total / (S.card : K) = total := by
  have hcard : (S.card : K) ≠ 0 := by
    have hpos := hne.card_pos
    exact Nat.cast_ne_zero.mpr (by omega)
  rw [Finset.sum_const, nsmul_eq_mul, mul_div_cancel₀ total hcard]

/-- One member takes its own part and each of the others the same one. -/
theorem sum_distinguished [DecidableEq ι] {S : Finset ι} {prime : ι} (hmem : prime ∈ S)
    (part other : K) :
    ∑ i ∈ S, (if i = prime then part else other) = part + ((S.card : K) - 1) * other := by
  have hothers : ∀ i ∈ S.erase prime, (if i = prime then part else other) = other := by
    intro i hi
    rw [if_neg (Finset.ne_of_mem_erase hi)]
  have hcard : ((S.erase prime).card : K) = (S.card : K) - 1 := by
    rw [Finset.card_erase_of_mem hmem, Nat.cast_pred (Finset.card_pos.mpr ⟨prime, hmem⟩)]
  rw [← Finset.add_sum_erase S _ hmem, if_pos rfl, Finset.sum_congr rfl hothers,
    Finset.sum_const, nsmul_eq_mul, hcard]

end Shares

section Clipped

variable {K ι : Type*} [Field K] [LinearOrder K] [IsStrictOrderedRing K]

/-- Shares proportional to weights, each clipped between the same two multiples of its
weight, add up to the total clipped between these multiples of the sum. -/
theorem sum_clip_proportional (S : Finset ι) (weight : ι → K) (total : K) {high low : K}
    (hrange : low ≤ high) (hweight : ∀ i ∈ S, 0 ≤ weight i) (hsum : ∑ i ∈ S, weight i ≠ 0) :
    ∑ i ∈ S, clip (total * (weight i / ∑ j ∈ S, weight j)) (high * weight i) (low * weight i) =
      clip total (high * ∑ i ∈ S, weight i) (low * ∑ i ∈ S, weight i) := by
  have hpos : 0 < ∑ i ∈ S, weight i := lt_of_le_of_ne (Finset.sum_nonneg hweight) hsum.symm
  have hends := mul_le_mul_of_nonneg_right hrange hpos.le
  have hshare : ∀ i, total * (weight i / ∑ j ∈ S, weight j) =
      total / (∑ j ∈ S, weight j) * weight i := by
    intro i
    ring
  -- the ratio of the total to the sum decides the case of every member at once
  by_cases hhigh : high * ∑ i ∈ S, weight i ≤ total
  · have hratio : high ≤ total / ∑ j ∈ S, weight j := (le_div_iff₀ hpos).mpr hhigh
    rw [clip_of_ge hhigh, Finset.mul_sum]
    apply Finset.sum_congr rfl
    intro i hi
    rw [hshare i]
    exact clip_of_ge (mul_le_mul_of_nonneg_right hratio (hweight i hi))
  · by_cases hlow : total ≤ low * ∑ i ∈ S, weight i
    · have hratio : total / ∑ j ∈ S, weight j ≤ low := (div_le_iff₀ hpos).mpr hlow
      rw [clip_of_le hlow hends, Finset.mul_sum]
      apply Finset.sum_congr rfl
      intro i hi
      rw [hshare i]
      exact clip_of_le (mul_le_mul_of_nonneg_right hratio (hweight i hi))
        (mul_le_mul_of_nonneg_right hrange (hweight i hi))
    · have hbelow : total / ∑ j ∈ S, weight j ≤ high := (div_le_iff₀ hpos).mpr (by linarith)
      have habove : low ≤ total / ∑ j ∈ S, weight j := (le_div_iff₀ hpos).mpr (by linarith)
      rw [clip_of_mem (by linarith) (by linarith), sum_clip_of_mem,
        sum_proportional S weight total hsum]
      intro i hi
      rw [hshare i]
      constructor
      · exact mul_le_mul_of_nonneg_right habove (hweight i hi)
      · exact mul_le_mul_of_nonneg_right hbelow (hweight i hi)

end Clipped

section Checked

variable {K : Type*} [Field K] [LinearOrder K]

/-- A quotient, with nothing for a zero divisor. -/
def quotient (a b : K) : Option K := if b = 0 then none else some (a / b)

theorem quotient_of_ne (a : K) {b : K} (h : b ≠ 0) : quotient a b = some (a / b) := by
  unfold quotient
  rw [if_neg h]

/-- A square root, with nothing below zero. -/
def squareRoot (sqrt : K → K) (x : K) : Option K := if x < 0 then none else some (sqrt x)

theorem squareRoot_of_nonneg (sqrt : K → K) {x : K} (h : 0 ≤ x) :
    squareRoot sqrt x = some (sqrt x) := by
  unfold squareRoot
  rw [if_neg (not_lt.mpr h)]

end Checked

section All

variable {α : Type*} {n : ℕ}

/-- The values of a finite family, with nothing when a member has none. -/
def allSome (f : Fin n → Option α) : Option (Fin n → α) :=
  if h : ∀ i, (f i).isSome then some (fun i => (f i).get (h i)) else none

theorem allSome_eq_some {f : Fin n → Option α} {g : Fin n → α} (h : ∀ i, f i = some (g i)) :
    allSome f = some g := by
  have hsome : ∀ i, (f i).isSome := by
    intro i
    simp [h i]
  unfold allSome
  rw [dif_pos hsome]
  congr 1
  funext i
  simp [h i]

end All

end HybridOs.ClippedShares
