import Mathlib

/-!
# Greedy filling of ordered slots

An amount is poured over slots in a fixed order: every slot takes what it has
room for and the rest moves on. The library names what each slot gets, what is
left at the end, and the conservation law between the two.
-/

namespace HybridOs.GreedyFill

variable {ι K : Type*} [AddCommGroup K]

/-- Total room of a list of slots. -/
def capacity (room : ι → K) (slots : List ι) : K := (slots.map room).sum

@[simp] theorem capacity_nil (room : ι → K) : capacity room [] = 0 := rfl

@[simp] theorem capacity_cons (room : ι → K) (b : ι) (rest : List ι) :
    capacity room (b :: rest) = room b + capacity room rest := by
  simp [capacity]

variable {room : ι → K} {slots : List ι} {amount : K}

/-- The total room does not depend on the order of the slots. -/
theorem capacity_perm {slots' : List ι} (h : slots.Perm slots') :
    capacity room slots = capacity room slots' := (h.map room).sum_eq

variable [LinearOrder K]

/-- What is left of `amount` after all slots. -/
def leftover (room : ι → K) : List ι → K → K
  | [], amount => amount
  | b :: rest, amount => leftover room rest (amount - min amount (room b))

/-- What slot `a` receives when `amount` is poured over the ordered slots. -/
def share [DecidableEq ι] (room : ι → K) : List ι → K → ι → K
  | [], _, _ => 0
  | b :: rest, amount, a =>
    if a = b then min amount (room b) else share room rest (amount - min amount (room b)) a

theorem share_of_not_mem [DecidableEq ι] {a : ι} (ha : a ∉ slots) (amount : K) :
    share room slots amount a = 0 := by
  induction slots generalizing amount with
  | nil => rfl
  | cons b rest ih =>
    rw [List.mem_cons, not_or] at ha
    rw [share, if_neg ha.1]
    exact ih ha.2 _

/-- Shares only look at the room of the listed slots. -/
theorem share_congr [DecidableEq ι] {room' : ι → K} (h : ∀ b ∈ slots, room b = room' b) (amount : K)
    (a : ι) : share room slots amount a = share room' slots amount a := by
  induction slots generalizing amount with
  | nil => rfl
  | cons b rest ih =>
    rw [share, share, h b (List.mem_cons_self ..)]
    exact if_congr Iff.rfl rfl (ih (fun c hc => h c (List.mem_cons_of_mem _ hc)) _)

theorem leftover_congr {room' : ι → K} (h : ∀ b ∈ slots, room b = room' b) (amount : K) :
    leftover room slots amount = leftover room' slots amount := by
  induction slots generalizing amount with
  | nil => rfl
  | cons b rest ih =>
    rw [leftover, leftover, h b (List.mem_cons_self ..)]
    exact ih (fun c hc => h c (List.mem_cons_of_mem _ hc)) _

/-- Nothing is lost: over distinct slots the shares and the leftover make up
the amount again. -/
theorem share_sum_add_leftover [DecidableEq ι] (room : ι → K) (hn : slots.Nodup) (amount : K) :
    (slots.map (share room slots amount)).sum + leftover room slots amount = amount := by
  induction slots generalizing amount with
  | nil => simp [leftover]
  | cons b rest ih =>
    obtain ⟨hb, hrest⟩ := List.nodup_cons.mp hn
    have htail : rest.map (share room (b :: rest) amount) =
        rest.map (share room rest (amount - min amount (room b))) := by
      apply List.map_congr_left
      intro c hc
      rw [share, if_neg (fun he : c = b => hb (he ▸ hc))]
    have hrec := ih hrest (amount - min amount (room b))
    rw [List.map_cons, List.sum_cons, htail, share, if_pos rfl, leftover, add_assoc, hrec]
    abel

/-- Slots outside the order add nothing, so the shares may be summed over more. -/
theorem share_sum_of_subset [DecidableEq ι] (room : ι → K) {all : List ι} (hn : slots.Nodup)
    (hall : all.Nodup) (hsub : slots ⊆ all) (amount : K) :
    (all.map (share room slots amount)).sum = (slots.map (share room slots amount)).sum := by
  rw [← List.sum_toFinset _ hall, ← List.sum_toFinset _ hn]
  symm
  apply Finset.sum_subset
  · intro a ha
    exact List.mem_toFinset.mpr (hsub (List.mem_toFinset.mp ha))
  · intro a _ ha
    exact share_of_not_mem (fun hm => ha (List.mem_toFinset.mpr hm)) amount

/-- Pouring nothing gives nothing. -/
theorem share_zero [DecidableEq ι] (h : ∀ b ∈ slots, 0 ≤ room b) (a : ι) :
    share room slots 0 a = 0 := by
  induction slots with
  | nil => rfl
  | cons b rest ih =>
    rw [share, min_eq_left (h b (List.mem_cons_self ..)), sub_zero,
      ih (fun c hc => h c (List.mem_cons_of_mem _ hc)), ite_self]

variable [IsOrderedAddMonoid K]

theorem capacity_nonneg (h : ∀ b ∈ slots, 0 ≤ room b) : 0 ≤ capacity room slots := by
  apply List.sum_nonneg
  intro x hx
  obtain ⟨b, hb, rfl⟩ := List.mem_map.mp hx
  exact h b hb

/-- Pouring a nonnegative amount leaves what exceeds the total room. -/
theorem leftover_eq (h : ∀ b ∈ slots, 0 ≤ room b) (ha : 0 ≤ amount) :
    leftover room slots amount = amount - min amount (capacity room slots) := by
  induction slots generalizing amount with
  | nil => simp [leftover, min_eq_right ha]
  | cons b rest ih =>
    have hrest : ∀ c ∈ rest, 0 ≤ room c := fun c hc => h c (List.mem_cons_of_mem _ hc)
    have hcap := capacity_nonneg hrest
    have hnext : 0 ≤ amount - min amount (room b) := sub_nonneg.mpr (min_le_left _ _)
    rw [leftover, ih hrest hnext, capacity_cons]
    rcases le_total amount (room b) with hle | hle
    · rw [min_eq_left hle, sub_self, min_eq_left hcap, min_eq_left (le_add_of_le_of_nonneg hle hcap)]
      abel
    · have hmin : min (amount - room b) (capacity room rest) =
          min amount (room b + capacity room rest) - room b := by
        rw [← min_sub_sub_right, add_sub_cancel_left]
      rw [min_eq_right hle, hmin]
      abel

/-- The shares of distinct slots add up to the amount or to the total room. -/
theorem share_sum [DecidableEq ι] (hn : slots.Nodup) (h : ∀ b ∈ slots, 0 ≤ room b)
    (ha : 0 ≤ amount) :
    (slots.map (share room slots amount)).sum = min amount (capacity room slots) := by
  have hsum := share_sum_add_leftover room hn amount
  rw [leftover_eq h ha] at hsum
  have hdiff := eq_sub_of_add_eq hsum
  rw [hdiff]
  abel

/-- A share is nonnegative and fits its slot. -/
theorem share_bounds [DecidableEq ι] (h : ∀ b ∈ slots, 0 ≤ room b) (ha : 0 ≤ amount) {a : ι}
    (hroom : 0 ≤ room a) : 0 ≤ share room slots amount a ∧ share room slots amount a ≤ room a := by
  induction slots generalizing amount with
  | nil => exact ⟨le_rfl, hroom⟩
  | cons b rest ih =>
    rw [share]
    split_ifs with hab
    · subst hab
      exact ⟨le_min ha hroom, min_le_right _ _⟩
    · exact ih (fun c hc => h c (List.mem_cons_of_mem _ hc))
        (sub_nonneg.mpr (min_le_left _ _))

/-- Pouring more than all slots can hold changes no share. -/
theorem share_min [DecidableEq ι] (h : ∀ b ∈ slots, 0 ≤ room b) {bound : K}
    (hbound : capacity room slots ≤ bound) (amount : K) (a : ι) :
    share room slots (min amount bound) a = share room slots amount a := by
  induction slots generalizing amount bound with
  | nil => rfl
  | cons b rest ih =>
    have hrest : ∀ c ∈ rest, 0 ≤ room c := fun c hc => h c (List.mem_cons_of_mem _ hc)
    rw [capacity_cons] at hbound
    have hroom : room b ≤ bound := (le_add_of_nonneg_right (capacity_nonneg hrest)).trans hbound
    have hfirst : min (min amount bound) (room b) = min amount (room b) := by
      rw [min_assoc, min_eq_right hroom]
    have hnext : min amount bound - min amount (room b) =
        min (amount - min amount (room b)) (bound - min amount (room b)) :=
      (min_sub_sub_right _ _ _).symm
    have hleft : capacity room rest ≤ bound - min amount (room b) := by
      rw [le_sub_iff_add_le']
      exact (add_le_add_left (min_le_right _ _) _).trans hbound
    rw [share, share, hfirst, hnext, ih hrest hleft]

end HybridOs.GreedyFill
