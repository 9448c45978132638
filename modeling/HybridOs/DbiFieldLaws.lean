import HybridOs.DbiManagerSync
import Mathlib.Data.Fintype.EquivFin

/-!
# The laws of fields

What a GET of a path returns after an edit or a deletion at that path, and which other paths
keep their answers. The laws hold where the path meets no scalar on its way and no gap in an
array, its last fragment is not empty, and the value is not wrapped twice.
-/

namespace HybridOs.Dbi

variable {N : Type}

/-- The index that a fragment names in an array. -/
def index? (frag : String) : Option ℕ :=
  if (Atoi frag).2 = false ∨ (Atoi frag).1 < 0 then none else some (Atoi frag).1.toNat

/-- The value at a path in a layer that may be missing, as a GET returns it. -/
def valueAt (path : List String) (layer : Option (Value N)) : Option (Value N) :=
  layer.bind fun layer => (getFieldRecursive path layer).toOption

/-- The layer that an edit makes at a path, unless it fails or panics. -/
def edited (isSet : Bool) (path : List String) (layer : Option (Value N)) (insert : Value N) :
    Option (Value N) :=
  match editFieldRecursive isSet path (layer.getD .null) insert with
  | some (after, none) => some after
  | _ => none

/-- A layer, or the empty map that is made where there is none. -/
def orEmpty : Option (Value N) → Value N
  | none | some .null => .object []
  | some layer => layer

/-- The number of a fragment is too large for an integer. -/
abbrev Overflows (frag : String) : Prop := (Atoi frag).2 = false ∧ 0 < (Atoi frag).1

/-- Every fragment of a path names an existing key or an index in range. -/
def Names : List String → Option (Value N) → Prop
  | [], layer => layer.isSome
  | frag :: rest, some (.object fields) => Names rest (fields.lookup frag)
  | frag :: rest, some (.array xs) => ∃ i, index? frag = some i ∧ Names rest xs[i]?
  | _ :: _, _ => False

/-- Two paths part: they name different keys of one map, or different indices of one array. -/
def Apart : List String → List String → Option (Value N) → Prop
  | [], _, _ | _, [], _ => False
  | frag :: rest, other :: more, some (.object fields) =>
    frag = other → Apart rest more (fields.lookup frag)
  | frag :: rest, other :: more, some (.array xs) =>
    ∀ i, index? frag = some i → index? other = some i → Apart rest more xs[i]?
  | frag :: rest, other :: more, _ => frag = other → Apart rest more (none : Option (Value N))

/-- A path ends one fragment below a value that is no map or array. -/
def EndsBelow : List String → Option (Value N) → Prop
  | [], _ => False
  | frag :: rest, some (.object fields) => EndsBelow rest (fields.lookup frag)
  | frag :: rest, some (.array xs) => ∃ i, index? frag = some i ∧ EndsBelow rest xs[i]?
  | _ :: rest, layer => layer.isSome ∧ rest = []

/-- Arrays on the way of a path are indexed, and no slice is too long: an edit there does not
fail. -/
def Accepts : List String → Option (Value N) → Prop
  | [], _ => True
  | frag :: rest, some (.object fields) => Accepts rest (fields.lookup frag)
  | frag :: rest, some (.array xs) => frag = "" ∧ rest = [] ∨ ∃ i, index? frag = some i ∧
      (i < xs.length ∨ i < maxSliceLen) ∧ Accepts rest xs[i]?
  | _ :: _, some (.scalar _) | _ :: _, some (.text _) => True
  | frag :: rest, _ => ¬ Overflows frag ∧ Accepts rest (none : Option (Value N))

/-- A path meets only maps and arrays until it leaves what there is, extends arrays at their end
only, and has a last fragment. -/
def Clear : List String → Option (Value N) → Prop
  | [], _ => True
  | frag :: rest, some (.object fields) =>
    ¬ (frag = "" ∧ rest = []) ∧ Clear rest (fields.lookup frag)
  | frag :: rest, some (.array xs) =>
    ∃ i, index? frag = some i ∧ i ≤ xs.length ∧ Clear rest xs[i]?
  | frag :: rest, none => ¬ (frag = "" ∧ rest = []) ∧ Clear rest (none : Option (Value N))
  | _ :: _, some _ => False

/-! ## Steps along a path -/

variable {isSet : Bool} {frag : String} {path rest : List String} {layer : Option (Value N)}
  {fields : Fields N} {xs : List (Value N)} {insert after goal : Value N}

theorem valueAt_nil (layer : Option (Value N)) : valueAt [] layer = layer := by
  cases layer <;> rfl

theorem valueAt_missing (path : List String) : valueAt path (none : Option (Value N)) = none := rfl

theorem valueAt_object : valueAt (frag :: rest) (some (.object fields)) =
    valueAt rest (fields.lookup frag) := by
  rw [valueAt, Option.bind_some, getFieldRecursive]
  cases fields.lookup frag <;> rfl

theorem valueAt_array : valueAt (frag :: rest) (some (.array xs)) =
    (index? frag).bind fun i => valueAt rest xs[i]? := by
  rw [valueAt, Option.bind_some, getFieldRecursive, index?]
  by_cases herror : (Atoi frag).2 = false
  · rw [if_pos herror, if_pos (Or.inl herror)]
    rfl
  · by_cases hneg : (Atoi frag).1 < 0
    · rw [if_neg herror, if_pos hneg, if_pos (Or.inr hneg)]
      rfl
    · rw [if_neg herror, if_neg hneg, if_neg (not_or.mpr ⟨herror, hneg⟩), Option.bind_some]
      cases xs[(Atoi frag).1.toNat]? <;> rfl

/-- A value that is no map or array. -/
def Value.IsLeaf : Value N → Prop
  | .object _ | .array _ => False
  | _ => True

theorem valueAt_leaf {leaf : Value N} (h : leaf.IsLeaf) :
    valueAt (frag :: rest) (some leaf) = if rest = [] then some leaf else none := by
  cases leaf with
  | object fields | array xs => cases h
  | _ =>
    simp only [valueAt, Option.bind_some, getFieldRecursive]
    split_ifs <;> rfl

theorem integrate_set (layer insert : Value N) : layer.integrate true insert = insert := by
  cases layer <;> cases insert <;> rfl

theorem edited_nil : edited isSet [] layer insert =
    some ((orEmpty layer).integrate isSet insert.unwrap) := by
  have hempty : layerFor "" (.null : Value N) = some (.object []) := by
    rw [layerFor, if_neg (by decide)]
  rw [edited, editFieldRecursive]
  rcases layer with _ | (_ | _ | _ | _ | _)
  · rw [Option.getD_none, hempty]
    rfl
  · rw [Option.getD_some, hempty]
    rfl
  all_goals rfl

theorem edited_object : edited isSet (frag :: rest) (some (.object fields)) insert =
    if frag = "" ∧ rest = [] then some (Value.integrate isSet (.object fields) insert.unwrap)
    else (edited isSet rest (fields.lookup frag) insert.unwrap).map fun child =>
      .object (setField frag child fields) := by
  rw [edited, Option.getD_some, editFieldRecursive_object, edited, fieldOrNull]
  split_ifs
  · rfl
  · rcases editFieldRecursive isSet rest ((fields.lookup frag).getD .null) insert.unwrap with
      _ | ⟨child, _ | failure⟩ <;> rfl

theorem edited_array : edited isSet (frag :: rest) (some (.array xs)) insert =
    if frag = "" ∧ rest = [] then some (Value.integrate isSet (.array xs) insert.unwrap)
    else (index? frag).bind fun i => if i < xs.length ∨ i < maxSliceLen then
        (edited isSet rest xs[i]? insert.unwrap).map fun child => .array ((fillTo i xs).set i child)
      else none := by
  rw [edited, Option.getD_some, editFieldRecursive_array, index?]
  by_cases hlast : frag = "" ∧ rest = []
  · rw [if_pos hlast, if_pos hlast]
  rw [if_neg hlast, if_neg hlast]
  by_cases herror : (Atoi frag).2 = false
  · rw [if_pos herror, if_pos (Or.inl herror)]
    rfl
  by_cases hneg : (Atoi frag).1 < 0
  · rw [if_neg herror, if_pos hneg, if_pos (Or.inr hneg)]
    rfl
  rw [if_neg herror, if_neg hneg, if_neg (not_or.mpr ⟨herror, hneg⟩), Option.bind_some]
  by_cases hlong : xs.length ≤ (Atoi frag).1.toNat ∧ maxSliceLen < (Atoi frag).1.toNat + 1
  · rw [if_pos hlong, if_neg (by omega)]
  rw [if_neg hlong, if_pos (by omega)]
  have hchild : (fillTo (Atoi frag).1.toNat xs).getD (Atoi frag).1.toNat .null =
      (xs[(Atoi frag).1.toNat]?).getD .null := by
    by_cases hin : (Atoi frag).1.toNat < xs.length
    · rw [fillTo_of_lt hin, List.getD_eq_getElem?_getD]
    · rw [getD_fillTo_of_le (Nat.not_lt.mp hin), List.getElem?_eq_none (Nat.not_lt.mp hin)]
      rfl
  rw [hchild, edited]
  rcases editFieldRecursive isSet rest ((xs[(Atoi frag).1.toNat]?).getD .null) insert.unwrap with
    _ | ⟨child, _ | failure⟩ <;> rfl

/-- Where there is no layer a map is made. -/
theorem edited_missing (h : layer = none ∨ layer = some .null) :
    edited isSet (frag :: rest) layer insert =
      if Overflows frag then none else edited isSet (frag :: rest) (some (.object [])) insert := by
  have hnull : layer.getD .null = .null := by rcases h with rfl | rfl <;> rfl
  rw [edited, hnull, editFieldRecursive, layerFor]
  by_cases hover : Overflows frag
  · rw [if_pos hover, if_pos hover]
    rfl
  · rw [if_neg hover, if_neg hover, edited, Option.getD_some, editFieldRecursive_object]
    rfl

theorem edited_leaf (leaf : Value N) (hleaf : leaf.IsLeaf) (hnull : leaf ≠ .null) :
    edited isSet (frag :: rest) (some leaf) insert = some insert.unwrap := by
  cases leaf with
  | null => exact absurd rfl hnull
  | scalar n => rw [edited, Option.getD_some, editFieldRecursive_scalar]
  | text s => rw [edited, Option.getD_some, editFieldRecursive_text]
  | object fields | array xs => cases hleaf

/-! ## Edits that succeed -/

theorem index?_empty : index? "" = none := by decide

/-- An edit succeeds exactly where it is not refused, whatever is inserted. -/
theorem edited_isSome (isSet : Bool) (path : List String) (layer : Option (Value N))
    (insert : Value N) : (edited isSet path layer insert).isSome ↔ Accepts path layer := by
  induction path generalizing layer insert with
  | nil =>
    rw [edited_nil]
    exact iff_of_true rfl trivial
  | cons frag rest ih =>
    have hobject (fields : Fields N) : (edited isSet (frag :: rest) (some (.object fields))
        insert).isSome ↔ Accepts rest (fields.lookup frag) := by
      rw [edited_object]
      split_ifs with hlast
      · rw [hlast.2]
        exact iff_of_true rfl trivial
      · rw [Option.isSome_map]
        exact ih _ _
    have hmissing {layer : Option (Value N)} (h : layer = none ∨ layer = some .null) :
        (edited isSet (frag :: rest) layer insert).isSome ↔
          ¬ Overflows frag ∧ Accepts rest (none : Option (Value N)) := by
      rw [edited_missing h]
      split_ifs with hover
      · exact iff_of_false (by simp) fun haccepts => haccepts.1 hover
      · rw [hobject]
        exact (and_iff_right hover).symm
    rcases layer with _ | (_ | n | s | xs | fields)
    · exact hmissing (Or.inl rfl)
    · exact hmissing (Or.inr rfl)
    · rw [edited_leaf (.scalar n) trivial (by simp)]
      exact iff_of_true rfl trivial
    · rw [edited_leaf (.text s) trivial (by simp)]
      exact iff_of_true rfl trivial
    · rw [edited_array, Accepts]
      by_cases hlast : frag = "" ∧ rest = []
      · rw [if_pos hlast]
        exact iff_of_true rfl (Or.inl hlast)
      · rw [if_neg hlast, or_iff_right hlast]
        cases hindex : index? frag with
        | none => simp
        | some i =>
          rw [Option.bind_some]
          split_ifs with hshort
          · rw [Option.isSome_map, ih]
            simp [hshort]
          · simp [hshort]
    · exact hobject fields

/-! ## Laws along a clear path -/

variable {i : ℕ} {child w : Value N} {name : String}

theorem getElem?_fillTo {j : ℕ} (hi : i ≤ xs.length) (hj : j ≠ i) : (fillTo i xs)[j]? = xs[j]? := by
  rcases Nat.lt_or_eq_of_le hi with hlt | rfl
  · rw [fillTo_of_lt hlt]
  · rw [fillTo, List.getElem?_append]
    split_ifs with hin
    · rfl
    · rw [List.getElem?_eq_none (by simp; omega), List.getElem?_eq_none (by omega)]

theorem lt_length_fillTo (i : ℕ) (xs : List (Value N)) : i < (fillTo i xs).length := by
  rw [fillTo, List.length_append, List.length_replicate]
  omega

/-- Along a clear path, an edit with a value that is not wrapped twice is what a GET of the path
returns, and what parts from the path answers as before. -/
theorem edited_right (hclear : Clear path layer) (hflat : insert.unwrap.unwrap = insert.unwrap)
    (h : edited isSet path layer insert = some after) :
    valueAt path (some after) =
        some ((orEmpty (valueAt path layer)).integrate isSet insert.unwrap) ∧
      ∀ other, Apart path other layer → valueAt other (some after) = valueAt other layer := by
  induction path generalizing layer insert after with
  | nil =>
    rw [edited_nil] at h
    rw [valueAt_nil, valueAt_nil, ← h]
    exact ⟨rfl, fun other hapart => hapart.elim⟩
  | cons frag rest ih =>
    have hnext : insert.unwrap.unwrap.unwrap = insert.unwrap.unwrap := congrArg _ hflat
    have hobject {fields : Fields N} (hclear : Clear (frag :: rest) (some (.object fields)))
        (h : edited isSet (frag :: rest) (some (.object fields)) insert = some after) :
        valueAt (frag :: rest) (some after) = some ((orEmpty (valueAt rest
            (fields.lookup frag))).integrate isSet insert.unwrap) ∧
          ∀ other more, (frag = other → Apart rest more (fields.lookup frag)) →
            valueAt (other :: more) (some after) = valueAt more (fields.lookup other) := by
      rw [edited_object, if_neg hclear.1] at h
      obtain ⟨child, hchild, rfl⟩ := Option.map_eq_some_iff.mp h
      obtain ⟨hvalue, hrest⟩ := ih hclear.2 hnext hchild
      rw [hflat] at hvalue
      refine ⟨by rw [valueAt_object, lookup_setField, if_pos rfl, hvalue], ?_⟩
      intro other more hapart
      rw [valueAt_object, lookup_setField]
      split_ifs with heq
      · rw [hrest more (hapart heq.symm), heq]
      · rfl
    rcases layer with _ | (_ | n | s | xs | fields)
    · rw [edited_missing (Or.inl rfl)] at h
      split_ifs at h
      obtain ⟨hvalue, hrest⟩ := @hobject [] hclear h
      refine ⟨hvalue, fun other hapart => ?_⟩
      cases other with
      | nil => exact hapart.elim
      | cons other more => exact hrest other more hapart
    · exact hclear.elim
    · exact hclear.elim
    · exact hclear.elim
    · obtain ⟨i, hindex, hi, hbelow⟩ := hclear
      have hlast : ¬ (frag = "" ∧ rest = []) := by
        rintro ⟨rfl, -⟩
        rw [index?_empty] at hindex
        cases hindex
      rw [edited_array, if_neg hlast, hindex, Option.bind_some] at h
      split_ifs at h
      obtain ⟨child, hchild, rfl⟩ := Option.map_eq_some_iff.mp h
      obtain ⟨hvalue, hrest⟩ := ih hbelow hnext hchild
      rw [hflat] at hvalue
      refine ⟨?_, fun other hapart => ?_⟩
      · rw [valueAt_array, valueAt_array, hindex, Option.bind_some, Option.bind_some,
          List.getElem?_set_self (lt_length_fillTo i xs), hvalue]
      · cases other with
        | nil => exact hapart.elim
        | cons other more =>
          rw [valueAt_array, valueAt_array]
          cases hother : index? other with
          | none => rfl
          | some j =>
            rw [Option.bind_some, Option.bind_some]
            by_cases hj : j = i
            · rw [hj, List.getElem?_set_self (lt_length_fillTo i xs)]
              exact hrest more (hapart i hindex (hj ▸ hother))
            · rw [List.getElem?_set_ne (Ne.symm hj), getElem?_fillTo hi hj]
    · obtain ⟨hvalue, hrest⟩ := hobject hclear h
      refine ⟨by rw [hvalue, valueAt_object], fun other hapart => ?_⟩
      cases other with
      | nil => exact hapart.elim
      | cons other more =>
        rw [hrest other more hapart, valueAt_object]

/-! ## Sizes -/

theorem unwrap_cases (v : Value N) : v.unwrap = v ∨ sizeOf v.unwrap < sizeOf v := by
  unfold Value.unwrap
  split
  · split_ifs
    · refine Or.inr ?_
      simp
      omega
    · exact Or.inl rfl
  · exact Or.inl rfl

theorem sizeOf_unwrap_le (v : Value N) : sizeOf v.unwrap ≤ sizeOf v := by
  rcases unwrap_cases v with hsame | hless
  · rw [hsame]
  · exact hless.le

theorem sizeOf_iterate_unwrap_le (n : ℕ) (v : Value N) : sizeOf (Value.unwrap^[n] v) ≤ sizeOf v := by
  induction n generalizing v with
  | zero => exact Nat.le_refl _
  | succ n ih => exact (ih v.unwrap).trans (sizeOf_unwrap_le v)

theorem sizeOf_lookup_lt (h : fields.lookup frag = some child) :
    sizeOf child < sizeOf (Value.object fields) := by
  have hmem : (frag, child) ∈ fields := by
    obtain ⟨before, more, rfl, -⟩ := List.lookup_eq_some_iff.mp h
    simp
  have hlt := List.sizeOf_lt_of_mem hmem
  simp at hlt ⊢
  omega

theorem sizeOf_getElem?_lt (h : xs[i]? = some child) : sizeOf child < sizeOf (Value.array xs) := by
  have hlt := List.sizeOf_lt_of_mem (List.mem_of_getElem? h)
  simp
  omega

/-- What is at a path is a value that ends it early, or is below a smaller one. -/
theorem valueAt_cases (h : valueAt (frag :: rest) (some w) = some goal) :
    (w.IsLeaf ∧ rest = [] ∧ goal = w) ∨
      ∃ child, valueAt rest (some child) = some goal ∧ sizeOf child < sizeOf w := by
  cases w with
  | object fields =>
    rw [valueAt_object] at h
    cases hchild : fields.lookup frag with
    | none =>
      rw [hchild] at h
      cases h
    | some child => exact Or.inr ⟨child, hchild ▸ h, sizeOf_lookup_lt hchild⟩
  | array xs =>
    rw [valueAt_array, Option.bind_eq_some_iff] at h
    obtain ⟨i, -, h⟩ := h
    cases hchild : xs[i]? with
    | none =>
      rw [hchild] at h
      cases h
    | some child => exact Or.inr ⟨child, hchild ▸ h, sizeOf_getElem?_lt hchild⟩
  | null | scalar | text =>
    rw [valueAt_leaf (by trivial)] at h
    split_ifs at h with hrest
    exact Or.inl ⟨trivial, hrest, (Option.some.inj h).symm⟩

theorem sizeOf_valueAt_le (h : valueAt path (some w) = some goal) : sizeOf goal ≤ sizeOf w := by
  induction path generalizing w with
  | nil =>
    rw [valueAt_nil] at h
    rw [Option.some.inj h]
  | cons frag rest ih =>
    rcases valueAt_cases h with ⟨-, -, rfl⟩ | ⟨child, hchild, hlt⟩
    · exact Nat.le_refl _
    · exact (ih hchild).trans hlt.le

/-! ## What the laws need -/

/-- A GET succeeds exactly where every fragment names something, unless the path ends below a
value that is no map or array: there it returns that value. -/
theorem get_iff (path : List String) (layer : Option (Value N)) :
    ((valueAt path layer).isSome ↔ Names path layer) ↔ ¬ EndsBelow path layer := by
  induction path generalizing layer with
  | nil =>
    rw [valueAt_nil]
    exact iff_of_true Iff.rfl fun h => h
  | cons frag rest ih =>
    rcases layer with _ | (_ | n | s | xs | fields)
    · exact iff_of_true (iff_of_false (by simp [valueAt_missing]) fun h => h) fun h => by
        cases h.1
    · rw [valueAt_leaf (by trivial)]
      by_cases hrest : rest = [] <;> simp [hrest, Names, EndsBelow]
    · rw [valueAt_leaf (by trivial)]
      by_cases hrest : rest = [] <;> simp [hrest, Names, EndsBelow]
    · rw [valueAt_leaf (by trivial)]
      by_cases hrest : rest = [] <;> simp [hrest, Names, EndsBelow]
    · rw [valueAt_array, Names, EndsBelow]
      cases hindex : index? frag with
      | none => simp
      | some i =>
        rw [Option.bind_some]
        simpa using ih xs[i]?
    · rw [valueAt_object]
      exact ih _

/-- A value that a path reaches in one that is no larger is that one. -/
theorem leaf_of_size (h : valueAt (frag :: rest) (some w) = some goal)
    (hsize : sizeOf w ≤ sizeOf goal) : w.IsLeaf ∧ rest = [] := by
  rcases valueAt_cases h with ⟨hleaf, hrest, -⟩ | ⟨child, hchild, hlt⟩
  · exact ⟨hleaf, hrest⟩
  · have hle := sizeOf_valueAt_le hchild
    omega

theorem exists_fresh (fields : Fields N) : ∃ name, name ≠ "" ∧ fields.lookup name = none := by
  obtain ⟨name, hname⟩ := Infinite.exists_notMem_finset (insert "" (fields.map (·.1)).toFinset)
  rw [Finset.mem_insert, not_or, List.mem_toFinset] at hname
  refine ⟨name, hname.1, List.lookup_eq_none_iff.mpr fun entry hentry => ?_⟩
  have hne : name ≠ entry.1 := fun heq => hname.2 (heq ▸ List.mem_map_of_mem hentry)
  simpa using hne

theorem digits_append (text : List Char) (c : Char) (value : ℕ) :
    digits (text ++ [c]) value = (digits text value).bind fun value => digits [c] value := by
  induction text generalizing value with
  | nil => rfl
  | cons d text ih =>
    rw [List.cons_append, digits, digits]
    split_ifs
    · exact ih _
    · rfl

/-- Every number has a text of digits. -/
theorem exists_digits (n : ℕ) : ∃ c text, c.isDigit = true ∧ digits (c :: text) 0 = some n := by
  induction n using Nat.strongRecOn with
  | ind n ih =>
    have hdigit : ∀ d < 10, (Char.ofNat (48 + d)).isDigit = true ∧
        (Char.ofNat (48 + d)).toNat - 48 = d := by decide
    obtain ⟨hisDigit, hvalue⟩ := hdigit (n % 10) (Nat.mod_lt _ (by decide))
    by_cases hsmall : n < 10
    · refine ⟨Char.ofNat (48 + n % 10), [], hisDigit, ?_⟩
      rw [digits, if_pos hisDigit, hvalue, digits, Nat.mod_eq_of_lt hsmall]
      simp
    · obtain ⟨c, text, hc, htext⟩ := ih (n / 10) (Nat.div_lt_self (by omega) (by decide))
      refine ⟨c, text ++ [Char.ofNat (48 + n % 10)], hc, ?_⟩
      rw [← List.cons_append, digits_append, htext, Option.bind_some, digits, if_pos hisDigit,
        hvalue, digits]
      congr 1
      omega

theorem exists_index {n : ℕ} (h : n < 2 ^ 63) : ∃ frag, index? frag = some n := by
  obtain ⟨c, text, hc, htext⟩ := exists_digits n
  have hminus : c ≠ '-' := by
    rintro rfl
    cases hc
  have hplus : c ≠ '+' := by
    rintro rfl
    cases hc
  have hatoi : Atoi (String.ofList (c :: text)) = ((n : ℤ), true) := by
    rw [Atoi, String.toList_ofList]
    split
    · rename_i heq
      exact absurd (List.cons.inj heq).1 hminus
    · rename_i heq
      exact absurd (List.cons.inj heq).1 hplus
    · have hlow : ¬ (n : ℤ) < -2 ^ 63 := by omega
      have hhigh : ¬ (2 ^ 63 : ℤ) ≤ n := by omega
      rw [signedDigits, if_neg (by simp), htext]
      simp only [Bool.false_eq_true, if_false, clampInt]
      rw [if_neg hhigh, if_neg hlow]
  exact ⟨String.ofList (c :: text), by rw [index?, hatoi]; simp⟩

/-- Where a SET succeeds, the laws hold only along a clear path and for a value that is not
unwrapped twice. -/
theorem clear_of_right (h : edited true path layer insert = some after)
    (hsize : sizeOf insert.unwrap ≤ sizeOf goal) (hvalue : valueAt path (some after) = some goal)
    (hapart : ∀ other, Apart path other layer →
      valueAt other (some after) = valueAt other layer) (hends : ¬ EndsBelow path layer) :
    Clear path layer ∧ sizeOf goal ≤ sizeOf (Value.unwrap^[path.length + 1] insert) := by
  induction path generalizing layer insert after with
  | nil =>
    rw [edited_nil, integrate_set, Option.some.injEq] at h
    rw [valueAt_nil, ← h, Option.some.injEq] at hvalue
    exact ⟨trivial, by rw [← hvalue]; exact Nat.le_refl _⟩
  | cons frag rest ih =>
    have hless := (sizeOf_unwrap_le insert.unwrap).trans hsize
    have hobject {fields : Fields N}
        (h : edited true (frag :: rest) (some (.object fields)) insert = some after)
        (hapart : ∀ other, Apart (frag :: rest) other (some (.object fields)) →
          valueAt other (some after) = valueAt other (some (.object fields)))
        (hends : ¬ EndsBelow rest (fields.lookup frag)) :
        Clear (frag :: rest) (some (.object fields)) ∧
          sizeOf goal ≤ sizeOf (Value.unwrap^[rest.length + 1 + 1] insert) := by
      rw [edited_object] at h
      split_ifs at h with hlast
      · -- The value takes the place of the map, and answers every other name.
        rw [integrate_set, Option.some.injEq] at h
        rw [← h] at hvalue hapart
        obtain ⟨hleaf, -⟩ := leaf_of_size hvalue hsize
        obtain ⟨name, hname, hfresh⟩ := exists_fresh fields
        have hbefore := hapart [name] fun heq => absurd (hlast.1 ▸ heq.symm) hname
        rw [valueAt_leaf hleaf, if_pos rfl, valueAt_object, hfresh] at hbefore
        cases hbefore
      · obtain ⟨child, hchild, rfl⟩ := Option.map_eq_some_iff.mp h
        rw [valueAt_object, lookup_setField, if_pos rfl] at hvalue
        obtain ⟨hclear, hgoal⟩ := ih hchild hless hvalue (fun other hother => by
          have hsame := hapart (frag :: other) fun _ => hother
          rwa [valueAt_object, lookup_setField, if_pos rfl, valueAt_object] at hsame) hends
        exact ⟨⟨hlast, hclear⟩, hgoal⟩
    rcases layer with _ | (_ | n | s | xs | fields)
    · rw [edited_missing (Or.inl rfl)] at h
      split_ifs at h
      refine hobject h (fun other hother => ?_) fun hbelow => ?_
      · cases other with
        | nil => exact hother.elim
        | cons other more =>
          rw [valueAt_object]
          exact hapart (other :: more) hother
      · cases rest with
        | nil => exact hbelow
        | cons next rest => cases hbelow.1
    · -- The map that is made has no other names, which had answers before.
      have hrest : rest ≠ [] := fun hrest => hends ⟨rfl, hrest⟩
      rw [edited_missing (Or.inr rfl)] at h
      split_ifs at h
      rw [edited_object, if_neg fun hlast => hrest hlast.2] at h
      obtain ⟨child, -, rfl⟩ := Option.map_eq_some_iff.mp h
      obtain ⟨name, -, hfresh⟩ := exists_fresh [(frag, (.null : Value N))]
      have hne : name ≠ frag := by
        rintro rfl
        simp at hfresh
      have hbefore := hapart [name] fun heq => absurd heq.symm hne
      rw [valueAt_object, lookup_setField, if_neg hne, valueAt_leaf (by trivial)] at hbefore
      cases hbefore
    · rw [edited_leaf (.scalar n) trivial (by simp), Option.some.injEq] at h
      rw [← h] at hvalue
      exact absurd ⟨rfl, (leaf_of_size hvalue hsize).2⟩ hends
    · rw [edited_leaf (.text s) trivial (by simp), Option.some.injEq] at h
      rw [← h] at hvalue
      exact absurd ⟨rfl, (leaf_of_size hvalue hsize).2⟩ hends
    · rw [edited_array] at h
      split_ifs at h with hlast
      · rw [integrate_set, Option.some.injEq] at h
        rw [← h] at hvalue hapart
        obtain ⟨hleaf, -⟩ := leaf_of_size hvalue hsize
        have hbefore := hapart ["x"] fun i hi => by
          rw [hlast.1, index?_empty] at hi
          cases hi
        rw [valueAt_leaf hleaf, if_pos rfl, valueAt_array] at hbefore
        cases hbefore
      · obtain ⟨i, hindex, h⟩ := Option.bind_eq_some_iff.mp h
        split_ifs at h with hshort
        obtain ⟨child, hchild, rfl⟩ := Option.map_eq_some_iff.mp h
        have hi : i ≤ xs.length := by
          by_contra hgap
          have hlong : i < maxSliceLen := hshort.resolve_left (by omega)
          rw [maxSliceLen] at hlong
          obtain ⟨name, hname⟩ := exists_index (n := xs.length) (by omega)
          have hbefore := hapart [name] fun j hj hother => by
            have hsame := Option.some.inj (hname.symm.trans hother)
            have hsame' := Option.some.inj (hindex.symm.trans hj)
            omega
          rw [valueAt_array, valueAt_array, hname, Option.bind_some, Option.bind_some,
            List.getElem?_set_ne (by omega), fillTo, List.getElem?_append_right (Nat.le_refl _),
            Nat.sub_self, List.getElem?_replicate, if_pos (by omega), valueAt_nil,
            List.getElem?_eq_none (Nat.le_refl _), valueAt_nil] at hbefore
          cases hbefore
        rw [valueAt_array, hindex, Option.bind_some,
          List.getElem?_set_self (lt_length_fillTo i xs)] at hvalue
        obtain ⟨hclear, hgoal⟩ := ih hchild hless hvalue (fun other hother => by
          have hsame := hapart (frag :: other) fun j hj _ => by
            rwa [Option.some.inj (hj.symm.trans hindex)]
          rwa [valueAt_array, valueAt_array, hindex, Option.bind_some, Option.bind_some,
            List.getElem?_set_self (lt_length_fillTo i xs)] at hsame)
          fun hbelow => hends ⟨i, hindex, hbelow⟩
        exact ⟨⟨i, hindex, hi, hclear⟩, hgoal⟩
    · exact hobject h hapart hends

/-! ## Deletions -/

/-- A layer without the field or the element that a fragment names. -/
def Value.without (frag : String) : Value N → Value N
  | .object fields => .object (deleteName frag fields)
  | .array xs => .array ((index? frag).elim xs xs.eraseIdx)
  | layer => layer

/-- A deletion that succeeds deletes what the last fragment names, and nothing else. -/
theorem deleted_right {layer : Value N} (h : deleteFieldRecursive path layer = (after, none)) :
    Names path (some layer) ∧ ∃ before frag inner, path = before ++ [frag] ∧
      valueAt before (some layer) = some inner ∧
      valueAt before (some after) = some (inner.without frag) ∧
      ∀ other, Apart before other (some layer) →
        valueAt other (some after) = valueAt other (some layer) := by
  induction path generalizing layer after with
  | nil => cases h
  | cons frag rest ih =>
    cases layer with
    | null | scalar | text => cases h
    | object fields =>
      rw [deleteFieldRecursive] at h
      cases hlookup : fields.lookup frag with
      | none =>
        rw [hlookup] at h
        cases h
      | some next =>
        rw [hlookup] at h
        dsimp only at h
        rw [Names, hlookup]
        split_ifs at h with hrest
        · rw [← (Prod.mk.inj h).1, hrest]
          exact ⟨rfl, [], frag, .object fields, rfl, valueAt_nil _, valueAt_nil _, fun _ h => h.elim⟩
        · obtain ⟨hafter, hnone⟩ := Prod.mk.inj h
          obtain ⟨hnames, before, last, inner, rfl, hinner, hwithout, hapart⟩ :=
            ih (Prod.ext rfl hnone : deleteFieldRecursive rest next = (_, none))
          rw [← hafter]
          refine ⟨hnames, frag :: before, last, inner, rfl, ?_, ?_, fun other hother => ?_⟩
          · rw [valueAt_object, hlookup, hinner]
          · rw [valueAt_object, lookup_setField, if_pos rfl, hwithout]
          · cases other with
            | nil => exact hother.elim
            | cons other more =>
              rw [valueAt_object, valueAt_object, lookup_setField]
              split_ifs with heq
              · rw [heq, hlookup]
                exact hapart more (hlookup ▸ hother heq.symm)
              · rfl
    | array xs =>
      rw [deleteFieldRecursive] at h
      dsimp only at h
      by_cases herror : (Atoi frag).2 = false
      · rw [if_pos herror] at h
        cases (Prod.mk.inj h).2
      by_cases hneg : (Atoi frag).1 < 0
      · rw [if_neg herror, if_pos hneg] at h
        cases (Prod.mk.inj h).2
      rw [if_neg herror, if_neg hneg] at h
      have hindex : index? frag = some (Atoi frag).1.toNat := if_neg (not_or.mpr ⟨herror, hneg⟩)
      cases hget : xs[(Atoi frag).1.toNat]? with
      | none =>
        rw [hget] at h
        cases h
      | some next =>
        rw [hget] at h
        dsimp only at h
        split_ifs at h with hrest
        · rw [← (Prod.mk.inj h).1, hrest]
          refine ⟨⟨_, hindex, hget ▸ rfl⟩, [], frag, .array xs, rfl, valueAt_nil _, ?_,
            fun _ h => h.elim⟩
          rw [valueAt_nil, Value.without, hindex]
          rfl
        · obtain ⟨hafter, hnone⟩ := Prod.mk.inj h
          obtain ⟨hnames, before, last, inner, rfl, hinner, hwithout, hapart⟩ :=
            ih (Prod.ext rfl hnone : deleteFieldRecursive rest next = (_, none))
          have hlt : (Atoi frag).1.toNat < xs.length := (List.getElem?_eq_some_iff.mp hget).1
          rw [← hafter]
          refine ⟨⟨_, hindex, hget ▸ hnames⟩, frag :: before, last, inner, rfl, ?_, ?_,
            fun other hother => ?_⟩
          · rw [valueAt_array, hindex, Option.bind_some, hget, hinner]
          · rw [valueAt_array, hindex, Option.bind_some, List.getElem?_set_self hlt, hwithout]
          · cases other with
            | nil => exact hother.elim
            | cons other more =>
              rw [valueAt_array, valueAt_array]
              cases hotherIndex : index? other with
              | none => rfl
              | some j =>
                rw [Option.bind_some, Option.bind_some]
                by_cases hj : (Atoi frag).1.toNat = j
                · rw [← hj, List.getElem?_set_self hlt, hget]
                  exact hapart more (hget ▸ hother _ hindex (hj ▸ hotherIndex))
                · rw [List.getElem?_set_ne hj]

/-! ## Metadata -/

theorem deleteName_setField (name other : String) (value : Value N) (fields : Fields N) :
    deleteName name (setField other value fields) =
      if other = name then deleteName name fields
      else setField other value (deleteName name fields) := by
  induction fields with
  | nil =>
    rw [setField, deleteName]
    split_ifs with heq <;> simp [heq, deleteName, setField]
  | cons entry rest ih =>
    rw [deleteName] at ih
    rw [setField]
    by_cases hentry : entry.1 = other
    · rw [if_pos hentry]
      split_ifs with heq
      · simp [deleteName, hentry, heq]
      · simp [deleteName, hentry, heq, setField]
    · rw [if_neg hentry, deleteName, List.filter_cons, ih]
      split_ifs with hkeep heq heq <;> simp_all [deleteName, setField]

theorem deleteName_absent (h : fields.lookup name = none) : deleteName name fields = fields := by
  refine List.filter_eq_self.mpr fun entry hentry => ?_
  have hne := List.lookup_eq_none_iff.mp h entry hentry
  have hname : name ≠ entry.1 := by simpa using hne
  simpa using Ne.symm hname

/-- A document has no fields for metadata in the local copy. -/
def Bare (fields : Fields N) : Prop :=
  fields.lookup "_id" = none ∧ fields.lookup "_version" = none

/-- A deletion adds no field. -/
theorem lookup_deleted {doc deleted : Fields N}
    (h : deleteFieldRecursive path (.object doc) = (.object deleted, none))
    (hnone : doc.lookup name = none) : deleted.lookup name = none := by
  obtain ⟨-, before, frag, inner, -, hinner, hwithout, hapart⟩ := deleted_right h
  cases before with
  | nil =>
    rw [valueAt_nil] at hinner hwithout
    rw [← Option.some.inj hinner, Option.some.injEq, Value.without, Value.object.injEq] at hwithout
    rw [hwithout, lookup_deleteName, hnone, ite_self]
  | cons first before =>
    have hne : first ≠ name := by
      rintro rfl
      rw [valueAt_object, hnone] at hinner
      cases hinner
    have hsame := hapart [name] fun heq => absurd heq hne
    rwa [valueAt_object, valueAt_object, valueAt_nil, valueAt_nil, hnone] at hsame

/-- An edit at a field that is not for metadata adds none for them. -/
theorem bare_edited {doc new : Fields N} (hbare : Bare doc) (hlast : ¬ (path = [] ∨ path = [""]))
    (hhead : path.head? ≠ some "_id" ∧ path.head? ≠ some "_version")
    (h : edited isSet path (some (.object doc)) insert = some (.object new)) : Bare new := by
  obtain ⟨frag, rest, rfl⟩ := List.exists_cons_of_ne_nil fun h => hlast (Or.inl h)
  rw [edited_object, if_neg fun h => hlast (Or.inr (by rw [h.1, h.2])),
    Option.map_eq_some_iff] at h
  obtain ⟨child, -, hnew⟩ := h
  have hid : "_id" ≠ frag := fun heq => hhead.1 (heq ▸ rfl)
  have hversion : "_version" ≠ frag := fun heq => hhead.2 (heq ▸ rfl)
  rw [← Value.object.inj hnew]
  exact ⟨by rw [lookup_setField, if_neg hid, hbare.1],
    by rw [lookup_setField, if_neg hversion, hbare.2]⟩

/-- The metadata that a document is sent with leave nothing behind. -/
theorem stripped_withMetaData (document : String) (now : N) (h : Bare fields) :
    stripped (withMetaData document now fields) = fields := by
  rw [stripped, withMetaData, deleteName_setField, if_neg (by decide), deleteName_setField,
    if_pos rfl, deleteName_setField, if_pos rfl, deleteName_absent h.1, deleteName_absent h.2]

/-! ## The manager -/

namespace State

variable {M : Type} {conn : MongoConnector N M} {now : N} {state next : State N M}
  {db collection document : String} {doc : Fields N} {answer : Answer N}

/-- What a GET of a field returns. -/
def fieldAt (state : State N M) (db collection document : String) (path : List String) :
    Option (Value N) := (state.getField db collection document path).toOption

theorem fieldAt_eq (h : state.document? db collection document = some doc) (path : List String) :
    state.fieldAt db collection document path = valueAt path (some (.object doc)) := by
  rcases state.getDocument_eq db collection document with
    ⟨e, hget, hnone⟩ | ⟨fields, hget, hsome⟩
  · rw [hnone] at h
    cases h
  · obtain rfl := Option.some.inj (hsome.symm.trans h)
    rw [fieldAt, getField, hget]
    rfl

/-- What requests for a field of a document ought to do. -/
structure FieldLaws (state : State N M) (db collection document : String) (path : List String)
    (v : Value N) : Prop where
  /-- After a SET, the value is there, or what it wraps. -/
  set : ∀ conn now answer next,
    state.editField conn now db collection document path v true = some (.ok answer, next) →
    next.fieldAt db collection document path = some v.unwrap
  /-- After a POST, maps are merged and arrays appended to. -/
  post : ∀ conn now answer next,
    state.editField conn now db collection document path v false = some (.ok answer, next) →
    next.fieldAt db collection document path =
      some ((orEmpty (state.fieldAt db collection document path)).integrate false v.unwrap)
  /-- A POST is refused where a SET is. -/
  accepted : (edited true path (state.fieldAt db collection document []) v).isSome ↔
    (edited false path (state.fieldAt db collection document []) v).isSome
  /-- What parts from the path answers as before. -/
  apart : ∀ conn now isSet answer next,
    state.editField conn now db collection document path v isSet = some (.ok answer, next) →
    ∀ other, Apart path other (state.fieldAt db collection document []) →
      next.fieldAt db collection document other = state.fieldAt db collection document other
  /-- A deletion takes out what the last fragment names, which was there. -/
  delete : ∀ conn now answer next,
    state.deleteField conn now db collection document path = some (.ok answer, next) →
    Names path (state.fieldAt db collection document []) ∧ ∃ before frag inner,
      path = before ++ [frag] ∧ state.fieldAt db collection document before = some inner ∧
      next.fieldAt db collection document before = some (inner.without frag) ∧
      ∀ other, Apart before other (state.fieldAt db collection document []) →
        next.fieldAt db collection document other = state.fieldAt db collection document other
  /-- A GET succeeds where every fragment names something. -/
  get : (state.fieldAt db collection document path).isSome ↔
    Names path (state.fieldAt db collection document [])

/-- The collections of the database of a document that is there. -/
theorem colls_of_document? (h : state.document? db collection document = some doc) :
    ∃ colls docs, state.localData.lookup db = some colls ∧
      colls.lookup collection = some docs ∧ docs.lookup document = some doc := by
  obtain ⟨docs, hdocs, hdoc⟩ := Option.bind_eq_some_iff.mp h
  obtain ⟨colls, hcolls, hcoll⟩ := Option.bind_eq_some_iff.mp hdocs
  exact ⟨colls, docs, hcolls, hcoll, hdoc⟩

/-- The edit of a document at a path that is not empty. -/
theorem editRoot_edited (hpath : ¬ (path = [] ∨ path = [""])) (isSet : Bool) (doc : Fields N)
    (v : Value N) : edited isSet path (some (.object doc)) v =
      (editRoot isSet path doc v).bind fun edit =>
        if edit.2 = none then some (.object edit.1) else none := by
  obtain ⟨frag, rest, rfl⟩ := List.exists_cons_of_ne_nil fun h => hpath (Or.inl h)
  have hlast : ¬ (frag = "" ∧ rest = []) := fun h => hpath (Or.inr (by rw [h.1, h.2]))
  rw [edited, editRoot, Option.getD_some, editFieldRecursive_object, if_neg hlast]
  rcases editFieldRecursive isSet rest (fieldOrNull frag doc) v.unwrap with
    _ | ⟨child, _ | failure⟩
  · rfl
  · simpa using fun hfrag hrest => absurd ⟨hfrag, hrest⟩ hlast
  · rfl

/-- After an edit that succeeds the document is the edited one, without metadata. -/
theorem editField_ok {isSet : Bool} {v : Value N}
    (hdoc : state.document? db collection document = some doc)
    (hpath : ¬ (path = [] ∨ path = [""])) (hfree : ¬ (path = ["_id"] ∨ path = ["_version"]))
    (h : state.editField conn now db collection document path v isSet = some (.ok answer, next)) :
    ∃ new, edited isSet path (some (.object doc)) v = some (.object new) ∧
      next.document? db collection document = some (stripped (withMetaData document now new)) := by
  obtain ⟨colls, docs, hcolls, hcoll, hdocument⟩ := colls_of_document? hdoc
  have hdocs : docsIn colls collection = docs := by rw [docsIn, hcoll, Option.getD_some]
  rw [editField_eq hcolls hfree, hdocs, hdocument, Option.getD_some, Option.map_eq_some_iff] at h
  obtain ⟨⟨new, failure⟩, hroot, heq⟩ := h
  cases failure with
  | some failure => cases (Prod.mk.inj heq).1
  | none =>
    refine ⟨new, by rw [editRoot_edited hpath, hroot]; rfl, ?_⟩
    rw [← (Prod.mk.inj heq).2]
    exact document?_withDocs.trans (Finmap.lookup_insert _)

/-- A server that accepts every call. -/
def acceptingConn : MongoConnector N M where
  ReplaceDocument _ _ _ mongo := (true, mongo)
  DeleteDocument _ _ _ mongo := (true, mongo)
  DeleteCollection _ _ mongo := (true, mongo)
  ExtractDB _ mongo := (none, mongo)

theorem editField_accepted {isSet : Bool} {v after : Value N} (now : N)
    (hdoc : state.document? db collection document = some doc)
    (hpath : ¬ (path = [] ∨ path = [""])) (hfree : ¬ (path = ["_id"] ∨ path = ["_version"]))
    (h : edited isSet path (some (.object doc)) v = some after) : ∃ answer next,
      state.editField acceptingConn now db collection document path v isSet =
        some (.ok answer, next) := by
  obtain ⟨colls, docs, hcolls, hcoll, hdocument⟩ := colls_of_document? hdoc
  have hdocs : docsIn colls collection = docs := by rw [docsIn, hcoll, Option.getD_some]
  rw [editRoot_edited hpath, Option.bind_eq_some_iff] at h
  obtain ⟨⟨new, failure⟩, hroot, hnone⟩ := h
  split_ifs at hnone with hfailure
  obtain rfl : failure = none := hfailure
  rw [editField_eq hcolls hfree, hdocs, hdocument, Option.getD_some, hroot]
  exact ⟨_, _, rfl⟩

/-- A deletion of a field takes it out of a document without metadata. -/
theorem deleteField_ok (hdoc : state.document? db collection document = some doc) (hbare : Bare doc)
    (h : state.deleteField conn now db collection document path = some (.ok answer, next)) :
    ∃ after, deleteFieldRecursive path (.object doc) = (.object after, none) ∧
      next.document? db collection document = some after := by
  obtain ⟨colls, docs, hcolls, hcoll, hdocument⟩ := colls_of_document? hdoc
  rcases state.deleteField_eq hcolls hcoll hdocument path with
    ⟨e, herror⟩ | ⟨after, hdeleted, hok⟩
  · rw [herror] at h
    cases h
  · rw [hok] at h
    refine ⟨after, hdeleted, ?_⟩
    rw [← (Prod.mk.inj (Option.some.inj h)).2, stripped_withMetaData document now
      ⟨lookup_deleted hdeleted hbare.1, lookup_deleted hdeleted hbare.2⟩]
    exact document?_withDocs.trans (Finmap.lookup_insert _)

/-- The laws of a field hold exactly where the path does not end below a value that is no map or
array and, unless an edit is refused, it is clear, it does not begin with a field for metadata,
and the value is not wrapped twice. -/
theorem fieldLaws_iff (state : State N M) (db collection document : String) (doc : Fields N)
    (path : List String) (v : Value N) (now : N)
    (hdoc : state.document? db collection document = some doc) (hbare : Bare doc)
    (hpath : ¬ (path = [] ∨ path = [""])) (hfree : ¬ (path = ["_id"] ∨ path = ["_version"])) :
    state.FieldLaws db collection document path v ↔
      ¬ EndsBelow path (some (.object doc)) ∧ (Accepts path (some (.object doc)) →
        Clear path (some (.object doc)) ∧ v.unwrap.unwrap = v.unwrap ∧
          path.head? ≠ some "_id" ∧ path.head? ≠ some "_version") := by
  have hfield (path : List String) :
      state.fieldAt db collection document path = valueAt path (some (.object doc)) :=
    fieldAt_eq hdoc path
  constructor
  · intro hlaws
    have hends : ¬ EndsBelow path (some (.object doc)) := by
      have hget := hlaws.get
      rw [hfield, hfield, valueAt_nil] at hget
      exact (get_iff path _).mp hget
    refine ⟨hends, fun haccepts => ?_⟩
    obtain ⟨after, hafter⟩ := Option.isSome_iff_exists.mp
      ((edited_isSome true path (some (.object doc)) v).mpr haccepts)
    obtain ⟨answer, next, hok⟩ := editField_accepted now hdoc hpath hfree hafter
    obtain ⟨new, hnew, hnext⟩ := editField_ok hdoc hpath hfree hok
    have hvalue := hlaws.set _ _ _ _ hok
    obtain ⟨hid, hversion⟩ := lookup_stripped (withMetaData document now new)
    have hhead : path.head? ≠ some "_id" ∧ path.head? ≠ some "_version" := by
      rw [fieldAt_eq hnext] at hvalue
      constructor <;> intro hhead <;> obtain ⟨rest, rfl⟩ := List.head?_eq_some_iff.mp hhead
      · rw [valueAt_object, hid] at hvalue
        cases hvalue
      · rw [valueAt_object, hversion] at hvalue
        cases hvalue
    rw [stripped_withMetaData document now (bare_edited hbare hpath hhead hnew)] at hnext
    rw [fieldAt_eq hnext] at hvalue
    obtain ⟨hclear, hsize⟩ := clear_of_right hnew (Nat.le_refl _) hvalue (fun other hother => by
      have hsame := hlaws.apart _ _ _ _ _ hok other (by rwa [hfield, valueAt_nil])
      rwa [fieldAt_eq hnext, hfield] at hsame) hends
    refine ⟨hclear, ?_, hhead⟩
    obtain ⟨frag, rest, rfl⟩ := List.exists_cons_of_ne_nil fun h => hpath (Or.inl h)
    have hiterate := sizeOf_iterate_unwrap_le rest.length v.unwrap.unwrap
    exact (unwrap_cases v.unwrap).resolve_right fun hless =>
      absurd (hsize.trans hiterate) (Nat.not_le.mpr hless)
  · rintro ⟨hends, hright⟩
    -- What an edit that succeeds leaves, by the laws along a clear path.
    have hedit {conn : MongoConnector N M} {now : N} {isSet : Bool} {answer : Answer N}
        {next : State N M} (hok : state.editField conn now db collection document path v isSet =
          some (.ok answer, next)) :
        next.fieldAt db collection document path = some ((orEmpty
            (valueAt path (some (.object doc)))).integrate isSet v.unwrap) ∧
          ∀ other, Apart path other (some (.object doc)) →
            next.fieldAt db collection document other = valueAt other (some (.object doc)) := by
      obtain ⟨new, hnew, hnext⟩ := editField_ok hdoc hpath hfree hok
      obtain ⟨hclear, hflat, hhead⟩ := hright ((edited_isSome isSet path _ v).mp (by rw [hnew]; rfl))
      rw [stripped_withMetaData document now (bare_edited hbare hpath hhead hnew)] at hnext
      rw [fieldAt_eq hnext]
      obtain ⟨hvalue, hapart⟩ := edited_right hclear hflat hnew
      exact ⟨hvalue, fun other hother => by rw [fieldAt_eq hnext, hapart other hother]⟩
    refine ⟨fun conn now answer next hok => ?_, fun conn now answer next hok => ?_,
      (edited_isSome true path _ v).trans (edited_isSome false path _ v).symm,
      fun conn now isSet answer next hok other hother => ?_, fun conn now answer next hok => ?_,
      ?_⟩
    · rw [(hedit hok).1, integrate_set]
    · rw [(hedit hok).1, hfield]
    · rw [hfield, valueAt_nil] at hother
      rw [(hedit hok).2 other hother, hfield]
    · obtain ⟨after, hdeleted, hnext⟩ := deleteField_ok hdoc hbare hok
      obtain ⟨hnames, before, frag, inner, hsplit, hinner, hwithout, hapart⟩ :=
        deleted_right hdeleted
      rw [hfield, valueAt_nil]
      refine ⟨hnames, before, frag, inner, hsplit, by rw [hfield, hinner],
        by rw [fieldAt_eq hnext, hwithout], fun other hother => ?_⟩
      rw [fieldAt_eq hnext, hfield, hapart other hother]
    · rw [hfield, hfield, valueAt_nil]
      exact (get_iff path _).mpr hends

/-- A local copy with the document `/dbi/ess/ess_1`. -/
def oneDocument (doc : Fields ℕ) : State ℕ Unit :=
  ⟨Finmap.singleton "dbi" (Finmap.singleton "ess" (Finmap.singleton "ess_1" doc)), ()⟩

theorem oneDocument_document? (doc : Fields ℕ) :
    (oneDocument doc).document? "dbi" "ess" "ess_1" = some doc := by
  simp [document?, collection?, oneDocument, Finmap.lookup_singleton_eq]

theorem fieldLaws_iff_power :
    (oneDocument [("power", .scalar 5)]).FieldLaws "dbi" "ess" "ess_1" ["power"] (.scalar 7) ↔
      ¬ EndsBelow ["power"] (some (.object [("power", (.scalar 5 : Value ℕ))])) ∧
        (Accepts ["power"] (some (.object [("power", (.scalar 5 : Value ℕ))])) →
          Clear ["power"] (some (.object [("power", (.scalar 5 : Value ℕ))])) ∧
            (Value.scalar 7).unwrap.unwrap = (Value.scalar 7 : Value ℕ).unwrap ∧
            ["power"].head? ≠ some "_id" ∧ ["power"].head? ≠ some "_version") :=
  fieldLaws_iff _ "dbi" "ess" "ess_1" [("power", .scalar 5)] ["power"] (.scalar 7) 0
    (oneDocument_document? _) ⟨rfl, rfl⟩ (by decide) (by decide)

/-- A scalar on the way takes the value, and what is below it is not found. -/
theorem fieldLaws_fails : ¬ (oneDocument [("power", .scalar 5)]).FieldLaws "dbi" "ess" "ess_1"
    ["power", "limit", "max"] (.scalar 7) := by
  intro hlaws
  have hedited : edited true ["power", "limit", "max"]
      (some (.object [("power", (.scalar 5 : Value ℕ))])) (.scalar 7) =
        some (.object [("power", .scalar 7)]) := by rfl
  obtain ⟨answer, next, hok⟩ :=
    editField_accepted 0 (oneDocument_document? _) (by decide) (by decide) hedited
  obtain ⟨new, hnew, hnext⟩ := editField_ok (oneDocument_document? _) (by decide) (by decide) hok
  obtain rfl := Value.object.inj (Option.some.inj (hedited.symm.trans hnew))
  have hvalue := hlaws.set _ _ _ _ hok
  rw [fieldAt_eq hnext] at hvalue
  cases hvalue

end State

end HybridOs.Dbi
