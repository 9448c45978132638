import Mathlib.Data.Finset.Erase
import Mathlib.Data.Finset.Insert

/-!
# Ledgers of names

A ledger holds the names that are in use. It is balanced when the names in use are distinct
and are exactly those that it holds. Taking a fresh name and releasing one in use keep the
balance.
-/

namespace HybridOs.Ledger

variable {α : Type*}

/-- The names in use are distinct, and the ledger holds them and no others. -/
structure Balanced (ledger : Finset α) (used : List α) : Prop where
  nodup : used.Nodup
  mem_iff : ∀ a, a ∈ ledger ↔ a ∈ used

/-- Nothing is in use under an empty ledger. -/
theorem Balanced.empty : Balanced (∅ : Finset α) [] := ⟨List.nodup_nil, by simp⟩

variable {ledger : Finset α} {used : List α}

/-- The order of the names does not matter. -/
theorem Balanced.perm {used' : List α} (h : Balanced ledger used) (hperm : used.Perm used') :
    Balanced ledger used' :=
  ⟨hperm.nodup_iff.mp h.nodup, fun a => (h.mem_iff a).trans hperm.mem_iff⟩

variable [DecidableEq α]

/-- Names that are distinct balance the ledger made of them. -/
theorem Balanced.of_nodup (h : used.Nodup) : Balanced used.toFinset used :=
  ⟨h, fun _ => List.mem_toFinset⟩

/-- A fresh name is taken. -/
theorem Balanced.take {a : α} (h : Balanced ledger used) (hfresh : a ∉ ledger) :
    Balanced (insert a ledger) (a :: used) where
  nodup := List.nodup_cons.mpr ⟨mt (h.mem_iff a).mpr hfresh, h.nodup⟩
  mem_iff b := by rw [Finset.mem_insert, List.mem_cons, h.mem_iff]

/-- A name is released, whether it is in use or not. -/
theorem Balanced.release (h : Balanced ledger used) (a : α) :
    Balanced (ledger.erase a) (used.erase a) where
  nodup := h.nodup.erase a
  mem_iff b := by rw [Finset.mem_erase, h.nodup.mem_erase_iff, h.mem_iff]

/-- The first name in use is released. -/
theorem Balanced.release_head {a : α} (h : Balanced ledger (a :: used)) :
    Balanced (ledger.erase a) used := by
  have hrest := h.release a
  rwa [List.erase_cons_head] at hrest

/-- Of distinct names in two lists, one is released in whichever list has it. -/
theorem erase_append_of_nodup {others : List α} (h : (used ++ others).Nodup) (a : α) :
    (used ++ others).erase a = used.erase a ++ others.erase a := by
  by_cases ha : a ∈ used
  · have hother : a ∉ others := fun hmem => (List.nodup_append.mp h).2.2 a ha a hmem rfl
    rw [List.erase_append_left _ ha, List.erase_of_not_mem hother]
  · rw [List.erase_append_right _ ha, List.erase_of_not_mem ha]

end HybridOs.Ledger
