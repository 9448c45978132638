import Mathlib.Data.List.Basic

/-!
# Lists cut into groups

A list is cut into groups of consecutive elements. Whether a new group begins depends on the
first element of the group, on the element before and on the next one.
-/

namespace HybridOs.Grouping

variable {α : Type*} (breaks : α → α → α → Bool)

/-- The groups where one is under way, with its first and its last element. -/
def groupsFrom (first : α) (group : List α) (last : α) : List α → List (List α)
  | [] => [group]
  | next :: rest =>
    if breaks first last next then group :: groupsFrom next [next] next rest
    else groupsFrom first (group ++ [next]) next rest

/-- The groups of a list. -/
def groups : List α → List (List α)
  | [] => []
  | first :: rest => groupsFrom breaks first [first] first rest

theorem groupsFrom_ne_nil (first : α) (group : List α) (last : α) (rest : List α) :
    groupsFrom breaks first group last rest ≠ [] := by
  induction rest generalizing first group last with
  | nil => simp [groupsFrom]
  | cons next rest ih =>
    rw [groupsFrom]
    split_ifs
    · simp
    · exact ih first (group ++ [next]) next

/-- The groups are made of all elements, in their order. -/
theorem flatten_groupsFrom (first : α) (group : List α) (last : α) (rest : List α) :
    (groupsFrom breaks first group last rest).flatten = group ++ rest := by
  induction rest generalizing first group last with
  | nil => simp [groupsFrom]
  | cons next rest ih =>
    rw [groupsFrom]
    split_ifs
    · rw [List.flatten_cons, ih next [next] next, List.singleton_append]
    · rw [ih first (group ++ [next]) next, List.append_assoc, List.singleton_append]

/-- What holds of one element, and of a group with one more element that does not break it,
holds of every group. -/
theorem forall_groupsFrom {P : α → List α → α → Prop} {Q : α → Prop}
    (hsingle : ∀ next, Q next → P next [next] next)
    (hextend : ∀ first group last next, P first group last → Q next →
      breaks first last next = false → P first (group ++ [next]) next)
    {first : α} {group : List α} {last : α} {rest : List α} (h : P first group last)
    (hrest : ∀ next ∈ rest, Q next) :
    ∀ complete ∈ groupsFrom breaks first group last rest, ∃ first last, P first complete last := by
  induction rest generalizing first group last with
  | nil =>
    intro complete hmem
    rw [groupsFrom, List.mem_singleton] at hmem
    subst hmem
    exact ⟨first, last, h⟩
  | cons next rest ih =>
    intro complete hmem
    have hnext := hrest next List.mem_cons_self
    have hlater : ∀ later ∈ rest, Q later := fun later hlater =>
      hrest later (List.mem_cons_of_mem _ hlater)
    rw [groupsFrom] at hmem
    split_ifs at hmem with hbreak
    · rcases List.mem_cons.1 hmem with rfl | hmem
      · exact ⟨first, last, h⟩
      · exact ih (hsingle next hnext) hlater complete hmem
    · rw [Bool.not_eq_true] at hbreak
      exact ih (hextend first group last next h hnext hbreak) hlater complete hmem

end HybridOs.Grouping
