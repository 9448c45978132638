import Mathlib.Algebra.Order.Ring.Int

/-!
# Priority lists kept as ranks

A list is kept implicitly, by a rank for each member: positive ranks are places
from the front, members without one are off the list. Members move up, move to
the front and move to the back by changes of the ranks alone. The results say
exactly when such a change keeps the places distinct and the members of a class
on the list.
-/

namespace HybridOs.PriorityList

variable {α : Type*} {rank rank' rank'' : α → ℤ} {eligible busy : α → Prop}

/-- No two members share a place. -/
def Distinct (rank : α → ℤ) : Prop :=
  ∀ a b, a ≠ b → 0 < rank a → rank a ≠ rank b

/-- The members of a class stay on the list. -/
def Keeps (eligible : α → Prop) (rank rank' : α → ℤ) : Prop :=
  ∀ a, eligible a → 0 < rank a → 0 < rank' a

/-- An unchanged list keeps its order. -/
theorem Keeps.refl (eligible : α → Prop) (rank : α → ℤ) : Keeps eligible rank rank :=
  fun _ _ h => h

/-- Order that is kept twice is kept. -/
theorem Keeps.trans (h : Keeps eligible rank rank') (h' : Keeps eligible rank' rank'') :
    Keeps eligible rank rank'' :=
  fun a he hr => h' a he (h a he hr)

/-- Fewer members keep their order if more do. -/
theorem Keeps.mono {eligible' : α → Prop} (h : Keeps eligible rank rank')
    (hsub : ∀ a, eligible' a → eligible a) : Keeps eligible' rank rank' :=
  fun a he hr => h a (hsub a he) hr

/-! ## Moving up -/

/-- Every rank from a level on moves up by one. -/
def moveUp (rank : α → ℤ) (level : ℤ) : α → ℤ :=
  fun a => if rank a ≥ level then rank a - 1 else rank a

/-- What is behind moves up by one. -/
theorem moveUp_of_ge {level : ℤ} {a : α} (h : rank a ≥ level) :
    moveUp rank level a = rank a - 1 := if_pos h

/-- What is in front stays. -/
theorem moveUp_of_lt {level : ℤ} {a : α} (h : rank a < level) :
    moveUp rank level a = rank a := if_neg (not_le.mpr h)

/-- Nothing moves back. -/
theorem moveUp_le (rank : α → ℤ) (level : ℤ) (a : α) : moveUp rank level a ≤ rank a := by
  unfold moveUp
  split_ifs <;> omega

/-- Where moving up from the place of a member leaves no two members in one
place and the class on the list: nobody is just ahead of it, it is on the list
unless nobody of the class is at the head, and it is not itself a head that
should stay. -/
structure LeavesHead (rank : α → ℤ) (eligible : α → Prop) (a : α) : Prop where
  nobodyAhead : ∀ b, b ≠ a → 1 < rank a → rank b ≠ rank a - 1
  headKept : ∀ b, b ≠ a → eligible b → rank b = 1 → 1 ≤ rank a
  notKept : eligible a → rank a ≠ 1

/-- Taking a member off keeps the list exactly if it was at the head. -/
theorem moveUp_iff (h : Distinct rank) (a : α) :
    (Distinct (moveUp rank (rank a)) ∧ Keeps eligible rank (moveUp rank (rank a))) ↔
      LeavesHead rank eligible a := by
  have hself : moveUp rank (rank a) a = rank a - 1 := moveUp_of_ge le_rfl
  constructor
  · rintro ⟨hdistinct, hkeeps⟩
    refine ⟨fun b hb hpast hahead => ?_, fun b hb he hhead => ?_, fun he hhead => ?_⟩
    · have hb' : moveUp rank (rank a) b = rank b := moveUp_of_lt (by omega)
      exact hdistinct b a hb (by omega) (by omega)
    · by_contra hoff
      have hb' : moveUp rank (rank a) b = rank b - 1 := moveUp_of_ge (by omega)
      have hpos := hkeeps b he (by omega)
      omega
    · have hpos := hkeeps a he (by omega)
      omega
  · intro hleaves
    constructor
    · intro x y hxy hx heq
      unfold moveUp at hx heq
      split_ifs at hx heq with hxa hya
      · exact h x y hxy (by omega) (by omega)
      · have hxeq : x = a := by
          by_contra hne
          exact h x a hne (by omega) (by omega)
        subst hxeq
        exact hleaves.nobodyAhead y (Ne.symm hxy) (by omega) (by omega)
      · have hyeq : y = a := by
          by_contra hne
          exact h y a hne (by omega) (by omega)
        subst hyeq
        exact hleaves.nobodyAhead x hxy (by omega) (by omega)
      · exact h x y hxy hx heq
    · intro x he hx
      by_cases hmoves : rank x ≥ rank a
      · rw [moveUp_of_ge hmoves]
        by_contra hlost
        by_cases hxa : x = a
        · subst hxa
          exact hleaves.notKept he (by omega)
        · have hhead := hleaves.headKept x hxa he (by omega)
          exact h x a hxa hx (by omega)
      · rw [moveUp_of_lt (not_le.mp hmoves)]
        exact hx

/-! ## Taking a whole class off the list -/

/-- Members share a place only at or ahead of a busy member. -/
def DistinctBehind (busy : α → Prop) (rank : α → ℤ) : Prop :=
  ∀ a b, a ≠ b → 0 < rank a → rank a = rank b → ∃ c, busy c ∧ rank a ≤ rank c

/-- Every eligible member on the list is behind every busy one. -/
def Clear (busy eligible : α → Prop) (rank : α → ℤ) : Prop :=
  ∀ a c, eligible a → busy c → 0 < rank a → 0 < rank c → rank c < rank a

/-- Distinct ranks are distinct behind any member. -/
theorem Distinct.distinctBehind (h : Distinct rank) : DistinctBehind busy rank :=
  fun a b hab ha heq => absurd heq (h a b hab ha)

/-- Once no busy member is on the list, all places are distinct. -/
theorem DistinctBehind.distinct (h : DistinctBehind busy rank) (hoff : ∀ c, busy c → rank c ≤ 0) :
    Distinct rank := by
  intro a b hab ha heq
  obtain ⟨c, hc, hle⟩ := h a b hab ha heq
  have hneg := hoff c hc
  omega

/-- They stay so when a busy member is taken off. -/
theorem DistinctBehind.moveUp (h : DistinctBehind busy rank) {a : α} (ha : busy a) :
    DistinctBehind busy (moveUp rank (rank a)) := by
  intro x y hxy hx heq
  have hself : PriorityList.moveUp rank (rank a) a = rank a - 1 := moveUp_of_ge le_rfl
  by_cases hxa : rank x ≥ rank a <;> by_cases hya : rank y ≥ rank a
  · rw [moveUp_of_ge hxa] at hx heq ⊢
    rw [moveUp_of_ge hya] at heq
    obtain ⟨c, hc, hle⟩ := h x y hxy (by omega) (by omega)
    refine ⟨c, hc, ?_⟩
    rw [moveUp_of_ge (by omega)]
    omega
  · rw [moveUp_of_ge hxa] at hx heq ⊢
    rw [moveUp_of_lt (not_le.mp hya)] at heq
    exact ⟨a, ha, by omega⟩
  · rw [moveUp_of_lt (not_le.mp hxa)] at hx heq ⊢
    exact ⟨a, ha, by omega⟩
  · rw [moveUp_of_lt (not_le.mp hxa)] at hx heq ⊢
    exact ⟨a, ha, by omega⟩

/-- Moving up from a busy member keeps the eligible ones behind, on the list. -/
theorem Clear.moveUp (h : Clear busy eligible rank) {a : α} (ha : busy a) (hpos : 0 < rank a) :
    Clear busy eligible (moveUp rank (rank a)) ∧ Keeps eligible rank (moveUp rank (rank a)) := by
  have hself : PriorityList.moveUp rank (rank a) a = rank a - 1 := moveUp_of_ge le_rfl
  constructor
  · intro x c he hc hx hcpos
    have hxle := moveUp_le rank (rank a) x
    have hcle := moveUp_le rank (rank a) c
    have hbehind := h x c he hc (by omega) (by omega)
    have hfirst := h x a he ha (by omega) hpos
    rw [moveUp_of_ge hfirst.le]
    by_cases hca : rank c ≥ rank a
    · rw [moveUp_of_ge hca]
      omega
    · rw [moveUp_of_lt (not_le.mp hca)]
      omega
  · intro x he hx
    have hfirst := h x a he ha hx hpos
    rw [moveUp_of_ge hfirst.le]
    omega

/-! ## Front and back -/

section

variable [DecidableEq α]

/-- One member moves to the front, past those that were ahead of it. -/
def toFront (rank : α → ℤ) (a : α) : α → ℤ :=
  fun b => if b = a then 1
    else if rank b < rank a ∧ rank b ≠ 0 then rank b + 1 else rank b

/-- A member moved to the front is first. -/
theorem toFront_self (rank : α → ℤ) (a : α) : toFront rank a a = 1 := if_pos rfl

/-- Those before it move back by one. -/
theorem toFront_other {a b : α} (h : b ≠ a) :
    toFront rank a b = if rank b < rank a ∧ rank b ≠ 0 then rank b + 1 else rank b := if_neg h

/-- Moving to the front keeps the places distinct exactly when the member was on
the list, or nobody was at the head. -/
theorem distinct_toFront_iff (h : Distinct rank) (a : α) :
    Distinct (toFront rank a) ↔ ∀ b, b ≠ a → rank b = 1 → 0 < rank a := by
  constructor
  · intro hdistinct b hb hhead
    by_contra hoff
    refine hdistinct a b (Ne.symm hb) ?_ ?_
    · rw [toFront_self]
      omega
    · rw [toFront_self, toFront_other hb, if_neg (by omega), hhead]
  · intro hon x y hxy hx heq
    by_cases hxa : x = a
    · subst hxa
      rw [toFront_self, toFront_other (Ne.symm hxy)] at heq
      split_ifs at heq with hahead
      · omega
      · have hpos := hon y (Ne.symm hxy) heq.symm
        exact h y x (Ne.symm hxy) (by omega) (by omega)
    by_cases hya : y = a
    · subst hya
      rw [toFront_self, toFront_other hxa] at heq
      split_ifs at heq with hahead
      · omega
      · have hpos := hon x hxa heq
        exact h x y hxy (by omega) (by omega)
    · rw [toFront_other hxa] at hx heq
      rw [toFront_other hya] at heq
      by_cases hxahead : rank x < rank a ∧ rank x ≠ 0 <;>
        by_cases hyahead : rank y < rank a ∧ rank y ≠ 0
      · rw [if_pos hxahead] at hx heq
        rw [if_pos hyahead] at heq
        exact h x y hxy (by omega) (by omega)
      · rw [if_pos hxahead] at hx heq
        rw [if_neg hyahead] at heq
        exact h y a hya (by omega) (by omega)
      · rw [if_neg hxahead] at hx heq
        rw [if_pos hyahead] at heq
        exact h x a hxa (by omega) (by omega)
      · rw [if_neg hxahead] at hx heq
        rw [if_neg hyahead] at heq
        exact h x y hxy (by omega) (by omega)

/-- Moving a member to the front keeps the order of the others. -/
theorem keeps_toFront (eligible : α → Prop) (rank : α → ℤ) (a : α) :
    Keeps eligible rank (toFront rank a) := by
  intro x _ hx
  unfold toFront
  split_ifs <;> omega

/-- A place behind all others is free. -/
theorem distinct_toBack (h : Distinct rank) {a : α} {place : ℤ}
    (hback : ∀ b, b ≠ a → rank b < place) : Distinct (Function.update rank a place) := by
  intro x y hxy hx heq
  by_cases hxa : x = a
  · subst hxa
    rw [Function.update_self, Function.update_of_ne (Ne.symm hxy)] at heq
    have hlt := hback y (Ne.symm hxy)
    omega
  rw [Function.update_of_ne hxa] at hx heq
  by_cases hya : y = a
  · subst hya
    rw [Function.update_self] at heq
    have hlt := hback x hxa
    omega
  · rw [Function.update_of_ne hya] at heq
    exact h x y hxy hx heq

/-- So does moving it to the back. -/
theorem keeps_toBack (eligible : α → Prop) (rank : α → ℤ) (a : α) {place : ℤ}
    (hpos : 0 < place) : Keeps eligible rank (Function.update rank a place) := by
  intro x _ hx
  by_cases hxa : x = a
  · subst hxa
    rw [Function.update_self]
    exact hpos
  · rw [Function.update_of_ne hxa]
    exact hx

end

end HybridOs.PriorityList
