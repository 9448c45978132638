import Mathlib.Data.List.Nodup

/-!
# Ordered sets of elements with changing keys

An ordered set keeps its elements in the order of a comparison and finds an element by
comparing, so an element that compares equal to another is not inserted next to it. The
comparison may look at data that changes. The set stays in order when only the data of
elements outside it change.
-/

namespace HybridOs.OrderedSet

variable {π : Type*} {less : π → π → Prop}

/-- Put an element before the first greater one, unless one compares equal to it. -/
def insert (less : π → π → Prop) [DecidableRel less] (p : π) : List π → List π
  | [] => [p]
  | q :: rest =>
    if less p q then p :: q :: rest
    else if less q p then q :: insert less p rest
    else q :: rest

/-- Take out the element that compares equal to the given one. -/
def erase (less : π → π → Prop) [DecidableRel less] (p : π) : List π → List π
  | [] => []
  | q :: rest =>
    if less p q then q :: rest
    else if less q p then q :: erase less p rest
    else rest

/-- The elements stand in strictly increasing order. -/
def Ordered (less : π → π → Prop) (elems : List π) : Prop := elems.Pairwise less

theorem Ordered.nodup [Std.Irrefl less] {elems : List π} (h : Ordered less elems) :
    elems.Nodup := by
  refine h.imp fun {a b} hless heq => ?_
  subst heq
  exact Std.Irrefl.irrefl a hless

/-- The first element is less than the others. -/
theorem Ordered.head_less {p q : π} {rest : List π} (h : Ordered less (p :: rest))
    (hq : q ∈ rest) : less p q := List.rel_of_pairwise_cons h hq

/-- Comparisons that agree on the elements agree on their order. -/
theorem Ordered.congr {less' : π → π → Prop} {elems : List π} (h : Ordered less elems)
    (hsame : ∀ p ∈ elems, ∀ q ∈ elems, less p q → less' p q) : Ordered less' elems := by
  induction elems with
  | nil => exact .nil
  | cons p rest ih =>
    have htail : Ordered less' rest := ih h.of_cons fun a ha b hb =>
      hsame a (List.mem_cons_of_mem p ha) b (List.mem_cons_of_mem p hb)
    refine List.pairwise_cons.mpr ⟨fun q hq => ?_, htail⟩
    exact hsame p List.mem_cons_self q (List.mem_cons_of_mem p hq) (h.head_less hq)

section Insert

variable [DecidableRel less] {p : π} {elems : List π}

/-- Insertion adds nothing but the inserted element and loses nothing. -/
theorem mem_insert_iff [Std.Trichotomous less] {x : π} :
    x ∈ insert less p elems ↔ x = p ∨ x ∈ elems := by
  induction elems with
  | nil => simp [insert]
  | cons q rest ih =>
    rw [insert]
    split_ifs with hpq hqp
    · exact List.mem_cons
    · rw [List.mem_cons, ih, List.mem_cons]
      constructor
      · intro h
        rcases h with h | h | h
        · exact Or.inr (Or.inl h)
        · exact Or.inl h
        · exact Or.inr (Or.inr h)
      · intro h
        rcases h with h | h | h
        · exact Or.inr (Or.inl h)
        · exact Or.inl h
        · exact Or.inr (Or.inr h)
    · have heq : p = q := Std.Trichotomous.trichotomous p q hpq hqp
      rw [heq, List.mem_cons]
      constructor
      · exact Or.inr
      · intro h
        rcases h with h | h | h
        · exact Or.inl h
        · exact Or.inl h
        · exact Or.inr h

/-- Insertion keeps the order. -/
theorem ordered_insert [IsTrans π less] [Std.Trichotomous less] (h : Ordered less elems) :
    Ordered less (insert less p elems) := by
  induction elems with
  | nil => exact List.pairwise_singleton _ _
  | cons q rest ih =>
    rw [insert]
    split_ifs with hpq hqp
    · refine List.pairwise_cons.mpr ⟨fun x hx => ?_, h⟩
      rcases List.mem_cons.mp hx with rfl | hx
      · exact hpq
      · exact IsTrans.trans _ _ _ hpq (h.head_less hx)
    · refine List.pairwise_cons.mpr ⟨fun x hx => ?_, ih h.of_cons⟩
      rcases mem_insert_iff.mp hx with rfl | hx
      · exact hqp
      · exact h.head_less hx
    · exact h

/-- Erasing leaves the elements but the erased one. -/
theorem mem_erase_iff [IsTrans π less] [Std.Irrefl less] [Std.Trichotomous less] {x : π}
    (h : Ordered less elems) : x ∈ erase less p elems ↔ x ∈ elems ∧ x ≠ p := by
  induction elems with
  | nil => simp [erase]
  | cons q rest ih =>
    have hne : ∀ {a b : π}, less a b → a ≠ b := fun {a b} hless heq =>
      Std.Irrefl.irrefl a (by rw [← heq] at hless; exact hless)
    rw [erase]
    split_ifs with hpq hqp
    · constructor
      · intro hx
        refine ⟨hx, fun heq => ?_⟩
        rcases List.mem_cons.mp hx with hxq | hxr
        · exact hne hpq (heq.symm.trans hxq)
        · exact hne (IsTrans.trans _ _ _ hpq (h.head_less hxr)) heq.symm
      · exact fun hx => hx.1
    · rw [List.mem_cons, ih h.of_cons, List.mem_cons]
      constructor
      · intro hx
        rcases hx with rfl | hx
        · exact ⟨Or.inl rfl, hne hqp⟩
        · exact ⟨Or.inr hx.1, hx.2⟩
      · intro hx
        exact hx.1.imp_right fun hr => ⟨hr, hx.2⟩
    · have heq : p = q := Std.Trichotomous.trichotomous p q hpq hqp
      subst heq
      rw [List.mem_cons]
      constructor
      · intro hx
        exact ⟨Or.inr hx, (hne (h.head_less hx)).symm⟩
      · intro hx
        exact hx.1.resolve_left hx.2

/-- Erasing keeps the order. -/
theorem ordered_erase (h : Ordered less elems) : Ordered less (erase less p elems) := by
  refine h.sublist ?_
  induction elems with
  | nil => exact .slnil
  | cons q rest ih =>
    rw [erase]
    split_ifs
    · exact .refl _
    · exact .cons_cons _ (ih h.of_cons)
    · exact List.sublist_cons_self q rest

end Insert

/-! ## Programs over a set

Elements are references to data that a program writes. A program is a list of actions on the
set and on the data.
-/

/-- The data of all references, and the references in the set. -/
structure Store (π δ : Type*) where
  data : π → δ
  elems : List π

/-- One action of a program. -/
inductive Action (π δ : Type*) where
  | erase (p : π)
  | write (p : π) (d : δ)
  | insert (p : π)

section Programs

variable {δ : Type*} [DecidableEq π] (before : δ → δ → Prop) [DecidableRel before]

/-- The comparison of references by their data. -/
def byData (data : π → δ) (p q : π) : Prop := before (data p) (data q)

instance (data : π → δ) : DecidableRel (byData before data) :=
  fun p q => inferInstanceAs (Decidable (before (data p) (data q)))

/-- Perform one action. -/
def Store.exec (s : Store π δ) : Action π δ → Store π δ
  | .erase p => {s with elems := OrderedSet.erase (byData before s.data) p s.elems}
  | .write p d => {s with data := Function.update s.data p d}
  | .insert p => {s with elems := OrderedSet.insert (byData before s.data) p s.elems}

/-- Perform the actions in turn. -/
def Store.execAll (s : Store π δ) (actions : List (Action π δ)) : Store π δ :=
  actions.foldl (Store.exec before) s

/-- A write changes how an element compares only while it is outside the set. -/
def Action.Allowed (s : Store π δ) : Action π δ → Prop
  | .write p d => p ∈ s.elems → ∀ e, (before d e ↔ before (s.data p) e) ∧
      (before e d ↔ before e (s.data p))
  | _ => True

/-- Every write of the program is allowed where it is made. -/
def Disciplined (s : Store π δ) : List (Action π δ) → Prop
  | [] => True
  | action :: rest => action.Allowed before s ∧ Disciplined (s.exec before action) rest

variable {before}

omit [DecidableRel before] in
/-- A write that is allowed does not disturb the order of the set. -/
theorem ordered_write {s : Store π δ} {p : π} {d : δ} (h : Ordered (byData before s.data) s.elems)
    (hallowed : (Action.write p d).Allowed before s) :
    Ordered (byData before (Function.update s.data p d)) s.elems := by
  refine h.congr fun a ha b hb hless => ?_
  unfold byData at hless ⊢
  by_cases hap : a = p
  · subst hap
    have hsame := hallowed ha
    rw [Function.update_self]
    by_cases hbp : b = a
    · subst hbp
      rw [Function.update_self, (hsame d).1, (hsame (s.data b)).2]
      exact hless
    · rw [Function.update_of_ne hbp, (hsame (s.data b)).1]
      exact hless
  · rw [Function.update_of_ne hap]
    by_cases hbp : b = p
    · subst hbp
      rw [Function.update_self, (hallowed hb (s.data a)).2]
      exact hless
    · rw [Function.update_of_ne hbp]
      exact hless

/-- The comparison is a strict order in which no two references are equal. -/
structure Separates (before : δ → δ → Prop) (data : π → δ) : Prop where
  irrefl : ∀ p, ¬ before (data p) (data p)
  trans : ∀ p q r, before (data p) (data q) → before (data q) (data r) →
    before (data p) (data r)
  trichotomous : ∀ p q, ¬ before (data p) (data q) → ¬ before (data q) (data p) → p = q

section Separates

variable {s : Store π δ} (hsep : Separates before s.data)
  (h : Ordered (byData before s.data) s.elems)

include hsep h

theorem exec_erase (p : π) :
    Ordered (byData before s.data) (s.exec before (.erase p)).elems ∧
      ∀ x, x ∈ (s.exec before (.erase p)).elems ↔ x ∈ s.elems ∧ x ≠ p := by
  have : Std.Irrefl (byData before s.data) := ⟨hsep.irrefl⟩
  have : IsTrans π (byData before s.data) := ⟨hsep.trans⟩
  have : Std.Trichotomous (byData before s.data) := ⟨hsep.trichotomous⟩
  exact ⟨ordered_erase h, fun _ => mem_erase_iff h⟩

theorem exec_insert (p : π) :
    Ordered (byData before s.data) (s.exec before (.insert p)).elems ∧
      ∀ x, x ∈ (s.exec before (.insert p)).elems ↔ x = p ∨ x ∈ s.elems := by
  have : IsTrans π (byData before s.data) := ⟨hsep.trans⟩
  have : Std.Trichotomous (byData before s.data) := ⟨hsep.trichotomous⟩
  exact ⟨ordered_insert h, fun _ => mem_insert_iff⟩

end Separates

end Programs

end HybridOs.OrderedSet
