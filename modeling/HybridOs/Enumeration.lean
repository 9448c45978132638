import Mathlib

/-!
# Enumerations in the order of appearance

A table lists values in the order in which they first appear, where a comparison tells which
values count as the same. A value that counts as one of the table is not entered again. Each
place of the table is numbered by a byte, from one on.
-/

namespace HybridOs.Enumeration

variable {α : Type*}

/-- The table after one more value has appeared. -/
def enter (same : α → α → Bool) (table : List α) (a : α) : List α :=
  if table.any (same a) then table else table ++ [a]

/-- The table after values have appeared one after the other. -/
def enterAll (same : α → α → Bool) (table values : List α) : List α :=
  values.foldl (enter same) table

/-- The values of a table with their numbers, from a first number on. -/
def numberedFrom (first : ℕ) : List α → List (UInt8 × α)
  | [] => []
  | a :: rest => (UInt8.ofNat first, a) :: numberedFrom (first + 1) rest

/-- The values of a table with their numbers. -/
def numbered (table : List α) : List (UInt8 × α) := numberedFrom 1 table

variable {same : α → α → Bool} {table values : List α} {a : α}

/-! ## Tables -/

/-- A table grows at its end. -/
theorem prefix_enter : table <+: enter same table a := by
  rw [enter]
  split_ifs
  · exact List.prefix_rfl
  · exact List.prefix_append table [a]

/-- It grows by one at most. -/
theorem length_enter_le : (enter same table a).length ≤ table.length + 1 := by
  rw [enter]
  split_ifs
  · omega
  · rw [List.length_append, List.length_singleton]

/-- A value that is there is not entered again. -/
theorem enter_of_any (h : table.any (same a) = true) : enter same table a = table := if_pos h

/-- A new value is entered at the end. -/
theorem enter_of_not_any (h : table.any (same a) = false) :
    enter same table a = table ++ [a] := if_neg (by simp [h])

/-- No values leave the table. -/
@[simp] theorem enterAll_nil (table : List α) : enterAll same table [] = table := rfl

/-- Values are entered one after another. -/
@[simp] theorem enterAll_cons (table : List α) (a : α) (rest : List α) :
    enterAll same table (a :: rest) = enterAll same (enter same table a) rest := rfl

/-- Two lists of values are entered one after the other. -/
theorem enterAll_append (table values further : List α) :
    enterAll same table (values ++ further) = enterAll same (enterAll same table values) further :=
  List.foldl_append

/-- The table grows at its end. -/
theorem prefix_enterAll : table <+: enterAll same table values := by
  induction values generalizing table with
  | nil => exact List.prefix_rfl
  | cons a rest ih => exact prefix_enter.trans ih

/-- It does not shrink. -/
theorem length_le_enterAll : table.length ≤ (enterAll same table values).length :=
  prefix_enterAll.length_le

/-- It grows by as many as there are values at most. -/
theorem length_enterAll_le :
    (enterAll same table values).length ≤ table.length + values.length := by
  induction values generalizing table with
  | nil => exact le_rfl
  | cons a rest ih =>
    have hstep : (enter same table a).length ≤ table.length + 1 := length_enter_le
    have hrest : (enterAll same (enter same table a) rest).length ≤
        (enter same table a).length + rest.length := ih
    rw [enterAll_cons, List.length_cons]
    omega

/-- The places of a table keep their values when it is continued. -/
theorem getElem?_of_prefix {further : List α} (h : table <+: further) {index : ℕ}
    (ha : table[index]? = some a) : further[index]? = some a := by
  obtain ⟨rest, rfl⟩ := h
  rw [List.getElem?_append_left (List.getElem?_eq_some_iff.mp ha).1]
  exact ha

/-! ## Numbers -/

/-- No number up to 255 is the byte zero. -/
theorem byte_ne_zero {n : ℕ} (hpos : 0 < n) (hle : n ≤ 255) : UInt8.ofNat n ≠ 0 := by
  intro h
  have hn := congrArg UInt8.toNat h
  rw [UInt8.toNat_ofNat_of_lt' (by change n < 256; omega)] at hn
  simp at hn
  omega

/-- A number up to 255 is its byte. -/
theorem byte_toNat {n : ℕ} (hle : n ≤ 255) : (UInt8.ofNat n).toNat = n :=
  UInt8.toNat_ofNat_of_lt' (by change n < 256; omega)

/-- Numbering keeps the length. -/
theorem length_numberedFrom (first : ℕ) (table : List α) :
    (numberedFrom first table).length = table.length := by
  induction table generalizing first with
  | nil => rfl
  | cons a rest ih => rw [numberedFrom, List.length_cons, List.length_cons, ih]

/-- The numbers go on in what follows. -/
theorem numberedFrom_append (first : ℕ) (table further : List α) :
    numberedFrom first (table ++ further) =
      numberedFrom first table ++ numberedFrom (first + table.length) further := by
  induction table generalizing first with
  | nil => rfl
  | cons a rest ih =>
    rw [List.cons_append, numberedFrom, numberedFrom, ih, List.cons_append, List.length_cons,
      Nat.add_assoc, Nat.add_comm 1]

/-- A numbered table with one more value. -/
theorem numbered_concat (table : List α) (a : α) :
    numbered (table ++ [a]) = numbered table ++ [(UInt8.ofNat (table.length + 1), a)] := by
  rw [numbered, numberedFrom_append, Nat.add_comm 1]
  rfl

/-- Numbering keeps the length. -/
@[simp] theorem length_numbered (table : List α) : (numbered table).length = table.length :=
  length_numberedFrom 1 table

/-- The first numbered value of a kind is the first value of the kind, with its number. -/
theorem find?_numberedFrom (first : ℕ) (table : List α) (p : α → Bool) :
    (numberedFrom first table).find? (fun entry => p entry.2) =
      (table.findIdx? p).bind fun index =>
        table[index]?.map fun a => (UInt8.ofNat (first + index), a) := by
  induction table generalizing first with
  | nil => rfl
  | cons a rest ih =>
    rw [numberedFrom, List.find?_cons, List.findIdx?_cons]
    cases ha : p a with
    | true => simp
    | false =>
      simp only [ih, Bool.false_eq_true, if_false]
      cases rest.findIdx? p with
      | none => rfl
      | some index =>
        simp only [Option.map_some, Option.bind_some, List.getElem?_cons_succ]
        rw [Nat.add_assoc, Nat.add_comm 1]

/-- A value of a kind that a table has is found under the number of its place. -/
theorem find?_numbered_of_any {p : α → Bool} (h : table.any p = true) :
    ∃ index b, table[index]? = some b ∧ p b = true ∧
      (numbered table).find? (fun entry => p entry.2) = some (UInt8.ofNat (index + 1), b) := by
  cases hfind : table.findIdx? p with
  | none =>
    rw [List.findIdx?_eq_none_iff] at hfind
    obtain ⟨b, hb, hp⟩ := List.any_eq_true.mp h
    rw [hfind b hb] at hp
    cases hp
  | some index =>
    obtain ⟨hlt, hp, -⟩ := List.findIdx?_eq_some_iff_getElem.mp hfind
    refine ⟨index, table.get ⟨index, hlt⟩, List.getElem?_eq_getElem hlt, hp, ?_⟩
    rw [numbered, find?_numberedFrom, hfind, Option.bind_some, List.getElem?_eq_getElem hlt,
      Nat.add_comm 1]
    rfl

/-- What no value meets is not found. -/
theorem find?_numbered_of_not_any {p : α → Bool} (h : table.any p = false) :
    (numbered table).find? (fun entry => p entry.2) = none := by
  rw [numbered, find?_numberedFrom, List.findIdx?_eq_none_iff.mpr]
  · rfl
  · intro b hb
    by_contra hp
    rw [List.any_eq_true.mpr ⟨b, hb, (Bool.not_eq_false _).mp hp⟩] at h
    cases h

/-- A place of a table is found by its number, as long as the numbers are bytes. -/
theorem lookup_numberedFrom {first : ℕ} (hlen : first + table.length ≤ 256) {index : ℕ}
    (hindex : index < table.length) :
    (numberedFrom first table).lookup (UInt8.ofNat (first + index)) =
      some (table.get ⟨index, hindex⟩) := by
  induction table generalizing first index with
  | nil => cases hindex
  | cons a rest ih =>
    rw [List.length_cons] at hlen hindex
    rw [numberedFrom]
    cases index with
    | zero =>
      rw [Nat.add_zero, List.lookup_cons_self]
      rfl
    | succ index =>
      have hne : (UInt8.ofNat (first + (index + 1)) == UInt8.ofNat first) = false := by
        rw [beq_eq_false_iff_ne]
        intro h
        have hn := congrArg UInt8.toNat h
        rw [byte_toNat (by omega), byte_toNat (by omega)] at hn
        omega
      rw [List.lookup_cons, hne]
      have hstep := @ih (first + 1) (by omega) index (by omega)
      rw [Nat.add_assoc, Nat.add_comm 1] at hstep
      exact hstep

/-- A number that no place of a table has. -/
theorem lookup_numberedFrom_none {first n : ℕ} (hlen : first + table.length ≤ 256) (hn : n < 256)
    (hout : n < first ∨ first + table.length ≤ n) :
    (numberedFrom first table).lookup (UInt8.ofNat n) = none := by
  induction table generalizing first with
  | nil => rfl
  | cons a rest ih =>
    rw [List.length_cons] at hlen hout
    have hne : (UInt8.ofNat n == UInt8.ofNat first) = false := by
      rw [beq_eq_false_iff_ne]
      intro h
      have heq := congrArg UInt8.toNat h
      rw [byte_toNat (by omega), byte_toNat (by omega)] at heq
      omega
    rw [numberedFrom, List.lookup_cons, hne]
    exact ih (by omega) (by omega)

/-- The number of the first value that counts as the given one, or the next number. -/
def number (same : α → α → Bool) (table : List α) (a : α) : UInt8 :=
  match (numbered table).find? fun entry => same a entry.2 with
  | some entry => entry.1
  | none => UInt8.ofNat (table.length + 1)

/-- A new value gets the next number. -/
theorem number_of_not_any (h : table.any (same a) = false) :
    number same table a = UInt8.ofNat (table.length + 1) := by
  rw [number, find?_numbered_of_not_any h]

/-- In a table of at most 255 values the number of a value leads to it. -/
theorem number_found (hlen : (enter same table a).length ≤ 255) :
    number same table a ≠ 0 ∧ ∃ b,
      (enter same table a)[(number same table a).toNat - 1]? = some b ∧
        (number same table a).toNat ≤ (enter same table a).length ∧ (b = a ∨ same a b = true) := by
  by_cases h : table.any (same a) = true
  · rw [enter_of_any h] at hlen ⊢
    obtain ⟨index, b, hindex, hsame, hfind⟩ := find?_numbered_of_any h
    have hnumber : number same table a = UInt8.ofNat (index + 1) := by rw [number, hfind]
    have hlt : index < table.length := (List.getElem?_eq_some_iff.mp hindex).1
    rw [hnumber, byte_toNat (by omega), Nat.add_sub_cancel]
    exact ⟨byte_ne_zero (by omega) (by omega), b, hindex, by omega, .inr hsame⟩
  · rw [Bool.not_eq_true] at h
    rw [enter_of_not_any h, List.length_append, List.length_singleton] at hlen
    rw [enter_of_not_any h, number_of_not_any h, byte_toNat hlen, Nat.add_sub_cancel,
      List.length_append, List.length_singleton]
    refine ⟨byte_ne_zero (by omega) hlen, a, ?_, le_rfl, .inl rfl⟩
    rw [List.getElem?_append_right le_rfl, Nat.sub_self]
    rfl

end HybridOs.Enumeration
