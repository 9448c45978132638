import Mathlib

/-!
# Listing a set of integers in increasing order

A sequence lists a set when it increases and its values are the elements of the set. It then
goes from each element to the least one above, and a sequence that does so from the least
element on lists the set.
-/

namespace HybridOs.Successive

variable {S : Set ℤ} {s : ℕ → ℤ}

/-- The sequence lists the set in increasing order. -/
structure Lists (S : Set ℤ) (s : ℕ → ℤ) : Prop where
  /-- The sequence increases. -/
  increases : ∀ k, s k < s (k + 1)
  /-- Its values are the elements. -/
  mem_iff : ∀ x, x ∈ S ↔ ∃ k, s k = x

theorem Lists.mem (h : Lists S s) (k : ℕ) : s k ∈ S := (h.mem_iff (s k)).mpr ⟨k, rfl⟩

/-- No element lies between one value and the next. -/
theorem Lists.next_le (h : Lists S s) {k : ℕ} {x : ℤ} (hx : x ∈ S) (hlt : s k < x) :
    s (k + 1) ≤ x := by
  have hmono : StrictMono s := strictMono_nat_of_lt_succ h.increases
  obtain ⟨j, rfl⟩ := (h.mem_iff x).mp hx
  have hlater : k < j := hmono.lt_iff_lt.mp hlt
  exact hmono.monotone hlater

/-- The next value is the least element above. -/
theorem Lists.next_eq (h : Lists S s) {k : ℕ} {x : ℤ} (hx : x ∈ S) (hlt : s k < x)
    (hleast : ∀ y ∈ S, s k < y → x ≤ y) : s (k + 1) = x :=
  le_antisymm (h.next_le hx hlt) (hleast _ (h.mem (k + 1)) (h.increases k))

/-- A sequence of integers that increases lies above its start by its index. -/
theorem add_le_of_increases (h : ∀ k, s k < s (k + 1)) (k : ℕ) : s 0 + k ≤ s k := by
  induction k with
  | zero => simp
  | succ k ih =>
    have hstep := h k
    omega

/-- An integer from the start on lies between two values in a row. -/
theorem exists_between (h : ∀ k, s k < s (k + 1)) {x : ℤ} (hx : s 0 ≤ x) :
    ∃ k, s k ≤ x ∧ x < s (k + 1) := by
  have hpassed : ∃ k : ℕ, x < s k := by
    refine ⟨(x - s 0).toNat + 1, ?_⟩
    have hle := add_le_of_increases h ((x - s 0).toNat + 1)
    omega
  have hfind := Nat.find_spec hpassed
  cases hk : Nat.find hpassed with
  | zero =>
    rw [hk] at hfind
    omega
  | succ k =>
    rw [hk] at hfind
    refine ⟨k, ?_, hfind⟩
    exact not_lt.mp (Nat.find_min hpassed (by omega))

/-- Going from the least element to the least one above each lists the set. -/
theorem lists_of_next (hmem : ∀ k, s k ∈ S) (hfirst : ∀ x ∈ S, s 0 ≤ x)
    (hincreases : ∀ k, s k < s (k + 1)) (hnext : ∀ k, ∀ x ∈ S, s k < x → s (k + 1) ≤ x) :
    Lists S s := by
  refine ⟨hincreases, fun x => ⟨fun hx => ?_, ?_⟩⟩
  · obtain ⟨k, hle, hlt⟩ := exists_between hincreases (hfirst x hx)
    refine ⟨k, ?_⟩
    by_contra hne
    have hbetween := hnext k x hx (lt_of_le_of_ne hle hne)
    omega
  · rintro ⟨k, rfl⟩
    exact hmem k

end HybridOs.Successive
