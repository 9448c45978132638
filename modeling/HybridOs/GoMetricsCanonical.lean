import HybridOs.GoMetricsEval

/-!
# Canonical values

The value of a type has one field that matters. The functions of metrics edit values in place,
and leave the other fields zero.
-/

namespace HybridOs.GoMetrics

variable {F : Type} [Float64 F]

/-- The payload fields other than the one of the tag are zero. -/
structure Union.Canonical (union : Union F) : Prop where
  b : union.tag ≠ .BOOL → union.b = false
  i : union.tag ≠ .INT → union.i = 0
  ui : union.tag ≠ .UINT → union.ui = 0
  f : union.tag ≠ .FLOAT → union.f = 0
  s : union.tag ≠ .STRING → union.s = ""

variable {union : Union F}

/-- The canonical value of a type, a truth value, an integer or so on. -/
theorem Union.Canonical.cases (h : union.Canonical) :
    union = .nil ∨ (∃ b, union = .bool b) ∨ (∃ i, union = .int i) ∨ (∃ ui, union = .uint ui) ∨
      (∃ f, union = .float f) ∨ ∃ s, union = .string s := by
  obtain ⟨tag, b, i, ui, f, s⟩ := union
  obtain ⟨hb, hi, hui, hf, hs⟩ := h
  cases tag <;> simp_all [Union.nil, Union.bool, Union.int, Union.uint, Union.float, Union.string]

/-- The union of no value is canonical. -/
@[simp] theorem canonical_nil : (Union.nil : Union F).Canonical := by
  constructor <;> simp [Union.nil]

/-- A union made from a bool is canonical. -/
@[simp] theorem canonical_bool (b : Bool) : (Union.bool b : Union F).Canonical := by
  constructor <;> simp [Union.bool]

/-- A union made from an int is canonical. -/
@[simp] theorem canonical_int (i : Int64) : (Union.int i : Union F).Canonical := by
  constructor <;> simp [Union.int]

/-- A union made from a uint is canonical. -/
@[simp] theorem canonical_uint (ui : UInt64) : (Union.uint ui : Union F).Canonical := by
  constructor <;> simp [Union.uint]

/-- A union made from a float is canonical. -/
@[simp] theorem canonical_float (f : F) : (Union.float f : Union F).Canonical := by
  constructor <;> simp [Union.float]

/-- A union made from a string is canonical. -/
@[simp] theorem canonical_string (s : String) : (Union.string s : Union F).Canonical := by
  constructor <;> simp [Union.string]

/-- Every value from outside becomes a canonical union. -/
theorem getUnionFromValue_canonical (value : Interface F) :
    (getUnionFromValue value).Canonical := by
  cases value <;> simp [getUnionFromValue]

variable [Library F]

/-- A value from outside is also canonical after its cast. -/
theorem castValueToUnionType_canonical (value : Interface F) (newType : DataType) :
    (castValueToUnionType value newType).Canonical := by
  cases newType with
  | NIL => exact canonical_nil
  | STRING => cases value <;> simp [castValueToUnionType, valueToString]
  | BOOL => cases value <;> simp [castValueToUnionType, valueToBool]
  | UINT =>
    cases value with
    | float64 x =>
      simp only [castValueToUnionType, valueToUint]
      split_ifs <;> simp
    | _ => simp [castValueToUnionType, valueToUint]
  | FLOAT => cases value <;> simp [castValueToUnionType, valueToFloat]
  | INT =>
    cases value with
    | float64 x =>
      simp only [castValueToUnionType, valueToInt]
      split_ifs <;> simp
    | _ => simp [castValueToUnionType, valueToInt]

section Casts

variable {cast : Union F} {newType : DataType}

section
omit [Library F]

/-- A bool casts to a canonical union of the type that was asked for. -/
theorem castBool_canonical {b : Bool} (hne : newType ≠ .NIL)
    (h : castBool (.bool b) newType = .ok cast) : cast.Canonical ∧ cast.tag = newType := by
  cases newType with
  | NIL => exact absurd rfl hne
  | BOOL => cases h; exact ⟨canonical_bool _, rfl⟩
  | INT => cases h; exact ⟨canonical_int _, rfl⟩
  | UINT => cases h; exact ⟨canonical_uint _, rfl⟩
  | FLOAT => cases h; exact ⟨canonical_float _, rfl⟩
  | STRING => cases h; exact ⟨canonical_string _, rfl⟩

/-- So does an int. -/
theorem castInt_canonical {i : Int64} (hne : newType ≠ .NIL)
    (h : castInt (.int i) newType = .ok cast) : cast.Canonical ∧ cast.tag = newType := by
  cases newType with
  | NIL => exact absurd rfl hne
  | BOOL => cases h; exact ⟨canonical_bool _, rfl⟩
  | INT => cases h; exact ⟨canonical_int _, rfl⟩
  | UINT =>
    simp only [castInt] at h
    split_ifs at h
    cases h
    exact ⟨canonical_uint _, rfl⟩
  | FLOAT => cases h; exact ⟨canonical_float _, rfl⟩
  | STRING => cases h; exact ⟨canonical_string _, rfl⟩

/-- So does a uint. -/
theorem castUint_canonical {ui : UInt64} (hne : newType ≠ .NIL)
    (h : castUint (.uint ui) newType = .ok cast) : cast.Canonical ∧ cast.tag = newType := by
  cases newType with
  | NIL => exact absurd rfl hne
  | BOOL => cases h; exact ⟨canonical_bool _, rfl⟩
  | INT =>
    simp only [castUint] at h
    split_ifs at h
    cases h
    exact ⟨canonical_int _, rfl⟩
  | UINT => cases h; exact ⟨canonical_uint _, rfl⟩
  | FLOAT => cases h; exact ⟨canonical_float _, rfl⟩
  | STRING => cases h; exact ⟨canonical_string _, rfl⟩

end

/-- So does a float. -/
theorem castFloat_canonical {f : F} (hne : newType ≠ .NIL)
    (h : castFloat (.float f) newType = .ok cast) : cast.Canonical ∧ cast.tag = newType := by
  cases newType with
  | NIL => exact absurd rfl hne
  | BOOL => cases h; exact ⟨canonical_bool _, rfl⟩
  | INT =>
    simp only [castFloat] at h
    split at h
    · cases h
    · cases h
      exact ⟨canonical_int _, rfl⟩
  | UINT =>
    simp only [castFloat] at h
    split_ifs at h
    cases h
    exact ⟨canonical_uint _, rfl⟩
  | FLOAT => cases h; exact ⟨canonical_float _, rfl⟩
  | STRING => cases h; exact ⟨canonical_string _, rfl⟩

/-- So does a string that can be read as a value of the type. -/
theorem castString_canonical {text : String} (hne : newType ≠ .NIL)
    (h : castString (.string text) newType = .ok cast) : cast.Canonical ∧ cast.tag = newType := by
  cases newType with
  | NIL => exact absurd rfl hne
  | BOOL => cases h; exact ⟨canonical_bool _, rfl⟩
  | INT =>
    simp only [castString] at h
    split_ifs at h
    cases h
    exact ⟨canonical_int _, rfl⟩
  | UINT =>
    simp only [castString] at h
    split_ifs at h
    cases h
    exact ⟨canonical_uint _, rfl⟩
  | FLOAT =>
    simp only [castString] at h
    split_ifs at h
    cases h
    exact ⟨canonical_float _, rfl⟩
  | STRING => cases h; exact ⟨canonical_string _, rfl⟩

/-- A successful cast yields a canonical value of the type. -/
theorem castUnionType_canonical (h : union.Canonical)
    (hcast : castUnionType union newType = .ok cast) : cast.Canonical ∧ cast.tag = newType := by
  by_cases hsame : union.tag = newType
  · rw [castUnionType, if_pos hsame] at hcast
    cases hcast
    exact ⟨h, hsame⟩
  rw [castUnionType, if_neg hsame] at hcast
  by_cases hnil : newType = .NIL
  · subst hnil
    cases hcast
    exact ⟨canonical_nil, rfl⟩
  rw [if_neg hnil] at hcast
  rcases h.cases with rfl | ⟨b, rfl⟩ | ⟨i, rfl⟩ | ⟨ui, rfl⟩ | ⟨f, rfl⟩ | ⟨s, rfl⟩
  · cases hcast
    exact ⟨by constructor <;> simp [Union.nil], rfl⟩
  · exact castBool_canonical hnil hcast
  · exact castInt_canonical hnil hcast
  · exact castUint_canonical hnil hcast
  · exact castFloat_canonical hnil hcast
  · exact castString_canonical hnil hcast

/-- A cast in place keeps a union canonical, also one that fails. -/
theorem castInPlace_canonical (h : union.Canonical) (newType : DataType) :
    (castInPlace union newType).Canonical := by
  rw [castInPlace]
  split
  · next hcast => exact (castUnionType_canonical h hcast).1
  · exact h

end Casts

/-! ## Functions -/

/-- Every value of a list is canonical. -/
def AllCanonical (values : List (Union F)) : Prop := ∀ value ∈ values, value.Canonical

section
omit [Library F]

/-- An empty list of arguments is canonical. -/
@[simp] theorem allCanonical_nil : AllCanonical ([] : List (Union F)) := by simp [AllCanonical]

/-- A list is canonical where its head and its tail are. -/
@[simp] theorem allCanonical_cons {value : Union F} {values : List (Union F)} :
    AllCanonical (value :: values) ↔ value.Canonical ∧ AllCanonical values := by
  simp [AllCanonical]

/-- Two canonical lists in a row are canonical. -/
theorem AllCanonical.append {values more : List (Union F)} (h : AllCanonical values)
    (hmore : AllCanonical more) : AllCanonical (values ++ more) := by
  intro value hvalue
  rcases List.mem_append.1 hvalue with hvalue | hvalue
  · exact h value hvalue
  · exact hmore value hvalue

end

/-- Arguments that were all cast are canonical. -/
theorem castArgs_canonical {newType : DataType} {args casts : List (Union F)}
    (h : AllCanonical args) (hcast : castArgs args newType = .ok casts) : AllCanonical casts := by
  induction args generalizing casts with
  | nil =>
    cases hcast
    exact allCanonical_nil
  | cons arg args ih =>
    obtain ⟨harg, hargs⟩ := allCanonical_cons.1 h
    rw [castArgs, List.mapM_cons] at hcast
    cases hfirst : castUnionType arg newType with
    | error err =>
      rw [hfirst] at hcast
      cases hcast
    | ok first =>
      rw [hfirst] at hcast
      cases hrest : castArgs args newType with
      | error err =>
        rw [castArgs] at hrest
        rw [hrest] at hcast
        cases hcast
      | ok rest =>
        have hrest' := hrest
        rw [castArgs] at hrest
        rw [hrest] at hcast
        cases hcast
        exact allCanonical_cons.2 ⟨(castUnionType_canonical harg hfirst).1, ih hargs hrest'⟩

section Arithmetic

variable {args : List (Union F)} {arg1 arg2 : Union F}

/-- The uint loop of `Add` returns a canonical union. -/
theorem addUint_canonical (sum : UInt64) : (addUint sum args).1.Canonical := by
  induction args generalizing sum with
  | nil => exact canonical_uint sum
  | cons arg args ih =>
    simp only [addUint]
    split_ifs
    · exact canonical_nil
    · exact ih _

/-- So does its int loop. -/
theorem addInt_canonical (sum : Int64) : (addInt sum args).1.Canonical := by
  induction args generalizing sum with
  | nil => exact canonical_int sum
  | cons arg args ih =>
    simp only [addInt]
    split
    · exact canonical_nil
    · split_ifs
      · exact canonical_nil
      · exact canonical_nil
      · exact ih _

/-- So does its float loop. -/
theorem addFloat_canonical (sum : F) : (addFloat sum args).1.Canonical := by
  induction args generalizing sum with
  | nil => exact canonical_float sum
  | cons arg args ih =>
    simp only [addFloat]
    split_ifs
    · exact canonical_nil
    · exact canonical_nil
    · exact ih _

/-- `Add` returns a canonical union. -/
theorem add_canonical : (add args).1.Canonical := by
  rw [add]
  split_ifs
  · exact canonical_nil
  · split
    · exact canonical_string _
    · exact canonical_bool _
    · exact addUint_canonical 0
    · exact addInt_canonical 0
    · exact addFloat_canonical 0
    · exact canonical_uint 0

/-- `Subtract` returns a canonical union. -/
theorem sub_canonical : (sub arg1 arg2).1.Canonical := by
  rw [sub]
  split
  · exact canonical_string _
  · exact canonical_bool _
  · simp only
    split_ifs <;> simp [failWith]
  · split
    · exact canonical_nil
    · exact canonical_nil
    · split_ifs <;> simp [failWith]
  · simp only
    split_ifs <;> simp [failWith]
  · exact canonical_nil

/-- The uint loop of `Multiply` returns a canonical union. -/
theorem multUint_canonical (prod : UInt64) : (multUint prod args).1.Canonical := by
  induction args generalizing prod with
  | nil => exact canonical_uint prod
  | cons arg args ih =>
    simp only [multUint]
    split_ifs
    · exact canonical_nil
    · exact ih _

/-- So does its int loop. -/
theorem multInt_canonical (prod : Int64) : (multInt prod args).1.Canonical := by
  induction args generalizing prod with
  | nil => exact canonical_int prod
  | cons arg args ih =>
    simp only [multInt]
    split
    · exact canonical_nil
    · split_ifs
      · exact canonical_nil
      · exact ih _

/-- So does its float loop. -/
theorem multFloat_canonical (prod : F) : (multFloat prod args).1.Canonical := by
  induction args generalizing prod with
  | nil => exact canonical_float prod
  | cons arg args ih =>
    simp only [multFloat]
    split_ifs
    · exact canonical_nil
    · exact ih _

/-- `Multiply` returns a canonical union. -/
theorem mult_canonical : (mult args).1.Canonical := by
  rw [mult]
  split_ifs
  · exact canonical_nil
  · split
    · exact canonical_string _
    · exact canonical_bool _
    · exact multUint_canonical 1
    · exact multInt_canonical 1
    · exact multFloat_canonical _
    · exact canonical_nil

/-- `Divide` returns a canonical union. -/
theorem div_canonical : (div arg1 arg2).1.Canonical := by
  rw [div]
  split
  · exact canonical_nil
  · split_ifs <;> simp [failWith]
  · simp only
    split_ifs <;> simp [failWith]
  · split
    · exact canonical_nil
    · exact canonical_nil
    · split_ifs <;> simp [failWith]
  · simp only
    split_ifs <;> simp [failWith]
  · exact canonical_nil

omit [Library F] in
/-- The only canonical union without a type is the one of no value. -/
theorem Union.Canonical.eq_nil (h : union.Canonical) (hnil : union.tag = .NIL) : union = .nil := by
  obtain ⟨tag, b, i, ui, f, s⟩ := union
  obtain rfl : tag = .NIL := hnil
  obtain ⟨hb, hi, hui, hf, hs⟩ := h
  simp_all [Union.nil]

/-- Only two operands without types have no result type. -/
theorem tags_nil_of_getResultType {tag1 tag2 : DataType} (h : getResultType tag1 tag2 = .NIL) :
    tag1 = .NIL ∧ tag2 = .NIL := by
  cases tag1 <;> cases tag2 <;> simp_all [getResultType]

/-- Unsigned integers result from values that are no more than unsigned integers. -/
theorem tags_of_getResultType_uint {tag1 tag2 : DataType} (h : getResultType tag1 tag2 = .UINT) :
    tag1 ∈ [DataType.NIL, .BOOL, .UINT] ∧ tag2 ∈ [DataType.NIL, .BOOL, .UINT] := by
  cases tag1 <;> cases tag2 <;> simp_all [getResultType]

/-- `Modulo` returns a canonical union, also where it hands its divisor back. -/
theorem mod_canonical (h2 : arg2.Canonical) : (mod arg1 arg2).1.Canonical := by
  rw [mod]
  split
  · exact canonical_nil
  · exact canonical_nil
  · exact canonical_nil
  · split
    · exact canonical_nil
    · exact canonical_nil
    · split_ifs <;> simp [failWith]
  · rename_i hstring hfloat hbool hint
    cases hresult : getResultType arg1.tag arg2.tag with
    | NIL =>
      obtain ⟨-, hnil⟩ := tags_nil_of_getResultType hresult
      rw [h2.eq_nil hnil]
      exact canonical_nil
    | UINT =>
      simp only
      split_ifs
      · exact canonical_nil
      · exact canonical_uint _
    | STRING => exact absurd hresult hstring
    | FLOAT => exact absurd hresult hfloat
    | BOOL => exact absurd hresult hbool
    | INT => exact absurd hresult hint

end Arithmetic

/-! ## Bits -/

section Bits

variable {args : List (Union F)} {arg1 arg2 : Union F}

/-- An operation on values of one type that a loop of bits applies. -/
theorem bitwiseLoop_canonical {resultType : DataType} {int : Int64 → Int64 → Int64}
    {uint : UInt64 → UInt64 → UInt64} {bool : Bool → Bool → Bool} (hbool : bool false false = false)
    (hstring : resultType ≠ .STRING) (hfloat : resultType ≠ .FLOAT) {result : Union F}
    (hargs : AllCanonical args) (h : result.Canonical) (htag : result.tag = resultType) :
    (bitwiseLoop resultType int uint bool result args).1.Canonical := by
  induction args generalizing result with
  | nil => exact h
  | cons arg args ih =>
    obtain ⟨harg, hargs⟩ := allCanonical_cons.1 hargs
    simp only [bitwiseLoop]
    split
    · exact canonical_nil
    · rename_i cast hcast
      obtain ⟨hcast, hcastTag⟩ := castUnionType_canonical harg hcast
      apply ih hargs
      · split_ifs with hint huint
        · rcases h.cases with rfl | ⟨b, rfl⟩ | ⟨i, rfl⟩ | ⟨ui, rfl⟩ | ⟨f, rfl⟩ | ⟨s, rfl⟩ <;>
            first | exact canonical_int _ | (rw [hint] at htag; cases htag)
        · rcases h.cases with rfl | ⟨b, rfl⟩ | ⟨i, rfl⟩ | ⟨ui, rfl⟩ | ⟨f, rfl⟩ | ⟨s, rfl⟩ <;>
            first | exact canonical_uint _ | (rw [huint] at htag; cases htag)
        · rcases h.cases with rfl | ⟨b, rfl⟩ | ⟨i, rfl⟩ | ⟨ui, rfl⟩ | ⟨f, rfl⟩ | ⟨s, rfl⟩
          · rw [hcast.eq_nil (hcastTag.trans htag.symm)]
            simp only [Union.nil, hbool]
            exact canonical_nil
          · exact canonical_bool _
          · exact absurd htag.symm hint
          · exact absurd htag.symm huint
          · exact absurd htag.symm hfloat
          · exact absurd htag.symm hstring
      · split_ifs <;> exact htag

/-- A bitwise operation on canonical arguments returns a canonical union. -/
theorem bitwise_canonical {name : String} {int : Int64 → Int64 → Int64}
    {uint : UInt64 → UInt64 → UInt64} {bool : Bool → Bool → Bool} (hbool : bool false false = false)
    (hargs : AllCanonical args) : (bitwise name int uint bool args).1.Canonical := by
  match args, hargs with
  | [], _ => exact canonical_nil
  | [arg], hargs => exact hargs arg (List.mem_singleton.2 rfl)
  | arg :: next :: rest, hargs =>
    obtain ⟨harg, hrest⟩ := allCanonical_cons.1 hargs
    simp only [bitwise]
    split_ifs with hstring hfloat
    · exact canonical_string _
    · exact canonical_float _
    · split
      · exact canonical_nil
      · rename_i cast hcast
        obtain ⟨hcast, htag⟩ := castUnionType_canonical harg hcast
        exact bitwiseLoop_canonical hbool hstring hfloat hrest hcast htag

/-- `LeftShift` of a canonical union is canonical. -/
theorem leftShift_canonical (h1 : arg1.Canonical) : (leftShift arg1 arg2).1.Canonical := by
  rw [leftShift]
  split
  · exact canonical_string _
  · exact canonical_float _
  · exact canonical_bool _
  · split
    · exact canonical_nil
    · rename_i cast hcast
      obtain ⟨hcast, -⟩ := castUnionType_canonical h1 hcast
      split
      · exact canonical_int 0
      · split
        · exact canonical_nil
        · split_ifs <;> first | exact hcast | simp [failWith]
  · rename_i hstring hfloat hbool hint
    cases hresult : getResultType arg1.tag arg2.tag with
    | NIL =>
      obtain ⟨hnil, -⟩ := tags_nil_of_getResultType hresult
      rw [h1.eq_nil hnil]
      exact canonical_uint 0
    | UINT =>
      simp only
      split_ifs
      · exact canonical_uint 0
      · exact canonical_nil
      · exact canonical_nil
      · exact canonical_uint _
    | STRING => exact absurd hresult hstring
    | FLOAT => exact absurd hresult hfloat
    | BOOL => exact absurd hresult hbool
    | INT => exact absurd hresult hint

/-- `RightShift` of canonical unions is canonical. -/
theorem rightShift_canonical (h1 : arg1.Canonical) (h2 : arg2.Canonical) :
    (rightShift arg1 arg2).1.Canonical := by
  rw [rightShift]
  split
  · exact canonical_string _
  · exact canonical_float _
  · exact canonical_bool _
  · split
    · exact canonical_nil
    · exact canonical_nil
    · split_ifs <;> simp [failWith]
  · rename_i hstring hfloat hbool hint
    cases hresult : getResultType arg1.tag arg2.tag with
    | NIL =>
      obtain ⟨hnil1, hnil2⟩ := tags_nil_of_getResultType hresult
      rw [h1.eq_nil hnil1, h2.eq_nil hnil2]
      have hui : (castInPlace (Union.nil : Union F) .UINT).ui = 0 := rfl
      have hshifted : UInt64.ofNat ((0 : UInt64).toNat / 2 ^ Nat.min (0 : UInt64).toNat 64) = 0 := by
        decide
      simp only [hui]
      exact hshifted ▸ canonical_nil
    | UINT => exact canonical_uint _
    | STRING => exact absurd hresult hstring
    | FLOAT => exact absurd hresult hfloat
    | BOOL => exact absurd hresult hbool
    | INT => exact absurd hresult hint

/-- `BitwiseAndNot` of a canonical union is canonical. -/
theorem bitwiseAndNot_canonical (h1 : arg1.Canonical) : (bitwiseAndNot arg1 arg2).1.Canonical := by
  rw [bitwiseAndNot]
  split
  · exact canonical_string _
  · exact canonical_float _
  · split
    · exact canonical_nil
    · exact canonical_nil
    · rename_i cast1 cast2 hcast1 hcast2
      obtain ⟨hcast1, htag⟩ := castUnionType_canonical h1 hcast1
      rcases hcast1.cases with rfl | ⟨b, rfl⟩ | ⟨i, rfl⟩ | ⟨ui, rfl⟩ | ⟨f, rfl⟩ | ⟨s, rfl⟩ <;>
        first | exact canonical_int _ | cases htag
  · rename_i hresult
    rcases h1.cases with rfl | ⟨b, rfl⟩ | ⟨i, rfl⟩ | ⟨ui, rfl⟩ | ⟨f, rfl⟩ | ⟨s, rfl⟩
    · exact canonical_uint _
    · exact canonical_uint _
    · exact absurd (tags_of_getResultType_uint hresult).1 (by simp [Union.int])
    · exact canonical_uint _
    · exact absurd (tags_of_getResultType_uint hresult).1 (by simp [Union.float])
    · exact absurd (tags_of_getResultType_uint hresult).1 (by simp [Union.string])
  · rename_i hstring hfloat hint huint
    rcases h1.cases with rfl | ⟨b, rfl⟩ | ⟨i, rfl⟩ | ⟨ui, rfl⟩ | ⟨f, rfl⟩ | ⟨s, rfl⟩
    · exact canonical_nil
    · exact canonical_bool _
    · cases htag : arg2.tag <;> simp_all [Union.int]
    · cases htag : arg2.tag <;> simp_all [Union.uint]
    · cases htag : arg2.tag <;> simp_all [Union.float]
    · cases htag : arg2.tag <;> simp_all [Union.string]

/-! ## Logic and comparisons -/

/-- `And` returns a canonical union. -/
theorem and_canonical : (and args).1.Canonical := by
  rw [and]
  split_ifs <;> simp

/-- `Or` returns a canonical union. -/
theorem or_canonical : (or args).1.Canonical := by
  rw [or]
  split_ifs <;> simp

/-- Every canonical value is cast to a truth value. -/
theorem castInPlace_bool (h : union.Canonical) : ∃ b, castInPlace union .BOOL = .bool b := by
  rcases h.cases with rfl | ⟨b, rfl⟩ | ⟨i, rfl⟩ | ⟨ui, rfl⟩ | ⟨f, rfl⟩ | ⟨s, rfl⟩ <;>
    exact ⟨_, rfl⟩

/-- `Not` keeps a list canonical. -/
theorem not_canonical (h : AllCanonical args) : AllCanonical (not args).1 := by
  intro value hvalue
  obtain ⟨arg, harg, rfl⟩ := List.mem_map.1 hvalue
  obtain ⟨b, hb⟩ := castInPlace_bool (h arg harg)
  simp only [hb]
  exact canonical_bool _

/-- Every comparison along a list returns a canonical union. -/
theorem compareNeighbours_canonical {mixed : Mixed} {strings : String → String → Bool}
    {numbers : F → F → Bool} (b : Bool) :
    (compareNeighbours mixed strings numbers b args).1.Canonical := by
  induction args generalizing b with
  | nil => exact canonical_bool b
  | cons arg args ih =>
    cases args with
    | nil => exact canonical_bool b
    | cons next rest =>
      simp only [compareNeighbours]
      split_ifs
      · split
        · exact canonical_bool _
        · exact ih _
        · exact canonical_nil
      · exact ih _
      · exact canonical_bool _
      · exact ih _
      · exact canonical_bool _

/-- So it does with its checks of the number of arguments. -/
theorem compareWith_canonical {single : String} {mixed : Mixed}
    {strings : String → String → Bool} {numbers : F → F → Bool} :
    (compareWith single mixed strings numbers args).1.Canonical := by
  rw [compareWith]
  split_ifs
  · exact canonical_nil
  · exact compareNeighbours_canonical false

/-! ## Numbers -/

/-- `Root` returns a canonical union. -/
theorem root_canonical : (root arg1 arg2).1.Canonical := by
  rw [root]
  simp only
  split_ifs <;> simp [failWith]

/-- `Pow` returns a canonical union. -/
theorem pow_canonical : (pow arg1 arg2).1.Canonical := by
  rw [pow]
  simp only
  split_ifs
  · exact canonical_string _
  · exact canonical_nil
  · exact castValueToUnionType_canonical _ _

/-- The extremum so far stays canonical: it is one of the arguments. -/
theorem extremumLoop_canonical {better : F → F → Bool} {beatsInfinity : F → Bool} {text : String}
    (best : Option F) {chosen : Union F} (h : chosen.Canonical) (hargs : AllCanonical args) :
    (extremumLoop better beatsInfinity text best chosen args).1.Canonical := by
  induction args generalizing best chosen with
  | nil => exact h
  | cons arg args ih =>
    obtain ⟨harg, hargs⟩ := allCanonical_cons.1 hargs
    simp only [extremumLoop]
    split
    · exact canonical_nil
    · split_ifs
      · exact ih _ harg hargs
      · exact ih _ h hargs

/-- `Max` returns a canonical union. -/
theorem max_canonical (h : AllCanonical args) : (max args).1.Canonical := by
  cases args with
  | nil => exact canonical_nil
  | cons arg args => exact extremumLoop_canonical none (allCanonical_cons.1 h).1 h

/-- `Min` returns a canonical union. -/
theorem min_canonical (h : AllCanonical args) : (min args).1.Canonical := by
  cases args with
  | nil => exact canonical_nil
  | cons arg args => exact extremumLoop_canonical none (allCanonical_cons.1 h).1 h

/-- `Avg` returns a canonical union. -/
theorem avg_canonical (h : AllCanonical args) : (avg args).1.Canonical := by
  match args, h with
  | [], _ => exact canonical_nil
  | [arg], h => exact (allCanonical_cons.1 h).1
  | arg :: next :: rest, _ =>
    simp only [avg]
    split <;> simp [failWith]

end Bits

section Lists

variable {args : List (Union F)} {arg1 arg2 : Union F}

section
omit [Library F]

/-- A floating-point number stays canonical with any number. -/
theorem Union.Canonical.withF (h : union.Canonical) (hfloat : union.tag = .FLOAT) (f : F) :
    ({ union with f := f } : Union F).Canonical := by
  rcases h.cases with rfl | ⟨b, rfl⟩ | ⟨i, rfl⟩ | ⟨ui, rfl⟩ | ⟨x, rfl⟩ | ⟨s, rfl⟩
  · cases hfloat
  · cases hfloat
  · cases hfloat
  · cases hfloat
  · exact canonical_float f
  · cases hfloat

/-- A rounding function keeps a list canonical. -/
theorem editFloats_canonical {text : String} {edit : F → F} (h : AllCanonical args) :
    AllCanonical (editFloats text edit args).1 := by
  have hedited : AllCanonical
      (args.map fun arg => if arg.tag = .FLOAT then { arg with f := edit arg.f } else arg) := by
    intro value hvalue
    obtain ⟨arg, harg, rfl⟩ := List.mem_map.1 hvalue
    split_ifs with hfloat
    · exact (h arg harg).withF hfloat _
    · exact h arg harg
  rw [editFloats]
  split_ifs
  · exact hedited
  · exact hedited

/-- An edit that keeps a union canonical keeps a list so. -/
theorem editArgs_canonical {edit : Union F → Returned (Union F)}
    (hedit : ∀ arg : Union F, arg.Canonical → (edit arg).1.Canonical) (h : AllCanonical args) :
    AllCanonical (editArgs edit args).1 := by
  intro value hvalue
  obtain ⟨arg, harg, rfl⟩ := List.mem_map.1 hvalue
  exact hedit arg (h arg harg)

end

variable {arg base : Union F}

/-- The square root of a canonical union is canonical. -/
theorem sqrtArg_canonical (h : arg.Canonical) : (sqrtArg arg).1.Canonical := by
  rw [sqrtArg]
  split_ifs with hstring
  · exact h
  · simp only
    split_ifs
    · exact h
    · rcases h.cases with rfl | ⟨b, rfl⟩ | ⟨i, rfl⟩ | ⟨ui, rfl⟩ | ⟨f, rfl⟩ | ⟨s, rfl⟩
      · exact canonical_float _
      · exact canonical_float _
      · exact canonical_float _
      · exact canonical_float _
      · exact canonical_float _
      · exact absurd rfl hstring

omit [Library F] in
/-- The absolute value of a canonical union is canonical. -/
theorem absArg_canonical (h : arg.Canonical) : (absArg arg).1.Canonical := by
  rcases h.cases with rfl | ⟨b, rfl⟩ | ⟨i, rfl⟩ | ⟨ui, rfl⟩ | ⟨f, rfl⟩ | ⟨s, rfl⟩
  · exact canonical_nil
  · exact canonical_bool b
  · change (if i < 0 then if i = minInt64 then failWith .nil _ else (.int (-i), none)
      else (.int i, none) : Returned (Union F)).1.Canonical
    split_ifs
    · exact canonical_nil
    · exact canonical_int _
    · exact canonical_int _
  · exact canonical_uint ui
  · exact canonical_float _
  · exact canonical_nil

/-- The cast of one argument is canonical. -/
theorem castArg_canonical {newType : DataType} (h : arg.Canonical) :
    (castArg newType arg).1.Canonical := by
  rw [castArg]
  split
  · next hcast => exact (castUnionType_canonical h hcast).1
  · exact h

/-- So are the casts of a list. -/
theorem castAll_canonical (newType : DataType) (h : AllCanonical args) :
    AllCanonical (args.map fun arg => castInPlace arg newType) := by
  intro value hvalue
  obtain ⟨arg, harg, rfl⟩ := List.mem_map.1 hvalue
  exact castInPlace_canonical (h arg harg) newType

/-- `Percent` returns a canonical union. -/
theorem pct_canonical : (pct arg1 arg2).1.Canonical := by
  rw [pct]
  simp only
  split_ifs
  · exact canonical_nil
  · exact canonical_nil
  · exact canonical_nil
  · split
    · exact canonical_nil
    · rename_i result hmult
      have hresult : (result, (none : Option Failure)).1.Canonical := hmult ▸ mult_canonical
      exact castArg_canonical hresult

/-- The loop of `RSS` returns a canonical union. -/
theorem rssLoop_canonical (sum : F) : (rssLoop sum args).1.Canonical := by
  induction args generalizing sum with
  | nil => exact canonical_float _
  | cons arg args ih =>
    simp only [rssLoop]
    split_ifs
    · exact canonical_nil
    · exact canonical_nil
    · exact ih _

/-- `RSS` returns a canonical union. -/
theorem rss_canonical : (rss args).1.Canonical := by
  rw [rss]
  split_ifs
  · exact canonical_nil
  · exact canonical_nil
  · exact rssLoop_canonical 0

/-! ## Selections -/

/-- `SelectN` returns one of its arguments or a new union. -/
theorem selectN_canonical {input : Union F} (h : AllCanonical args) :
    (selectN input args).1.Canonical := by
  rw [selectN]
  split
  · exact canonical_nil
  · split_ifs
    · exact canonical_nil
    · split
      · next name hname => exact h name (List.mem_of_getElem? hname)
      · exact canonical_nil

/-- The loop of `Enum` returns one of its arguments or a new union. -/
theorem enumLoop_canonical (input : Union F) (h : AllCanonical args) :
    (enumLoop input args).Canonical := by
  induction args using enumLoop.induct input with
  | case1 value name rest hequal =>
    rw [enumLoop, if_pos hequal]
    exact h name (by simp)
  | case2 value name rest hequal ih =>
    rw [enumLoop, if_neg hequal]
    exact ih (allCanonical_cons.1 (allCanonical_cons.1 h).2).2
  | case3 args hargs =>
    rw [enumLoop.eq_2 _ _ hargs]
    exact canonical_string _

/-- `Enum` returns a canonical union. -/
theorem enum_canonical {input : Union F} (h : AllCanonical args) :
    (enum input args).1.Canonical := by
  rw [enum]
  split
  · exact canonical_nil
  · split_ifs
    · exact canonical_nil
    · exact enumLoop_canonical _ h

/-- `SelectorN` returns a canonical union. -/
theorem selectorN_canonical : (selectorN args).1.Canonical := by
  rw [selectorN]
  split_ifs
  · exact canonical_nil
  · split <;> exact canonical_int _

/-- What a comparison returns is canonical. -/
theorem comparisonOf_canonical {operator : String}
    {comparison : List (Union F) → Returned (Union F)} (h : comparisonOf operator = some comparison)
    (args : List (Union F)) : (comparison args).1.Canonical := by
  rw [comparisonOf.eq_def] at h
  split at h <;> cases h <;> exact compareWith_canonical

omit [Library F] in
/-- Comparing each argument with one reference gives a canonical list. -/
theorem compareLoop_canonical {comparison : List (Union F) → Returned (Union F)}
    (hcomparison : ∀ args, (comparison args).1.Canonical) (reference : Union F) :
    AllCanonical (compareLoop comparison reference args).1 := by
  induction args with
  | nil => exact allCanonical_nil
  | cons arg args ih =>
    simp only [compareLoop]
    split
    · exact allCanonical_nil
    · rename_i result hresult
      split
      · exact allCanonical_nil
      · rename_i results hresults
        rw [hresults] at ih
        have hfirst := hcomparison [arg, reference]
        rw [hresult] at hfirst
        exact allCanonical_cons.2 ⟨hfirst, ih⟩

/-- `Compare` returns a canonical list. -/
theorem compare_canonical : AllCanonical (compare arg1 arg2 args).1 := by
  rw [compare]
  split_ifs
  · exact allCanonical_nil
  · split
    · exact allCanonical_nil
    · next hcomparison => exact compareLoop_canonical (comparisonOf_canonical hcomparison) arg2

/-- A fold over the comparisons returns a canonical union. -/
theorem compareFold_canonical {name : String} {leaves : Bool}
    {fold : List (Union F) → Returned (Union F)} (hfold : ∀ args, (fold args).1.Canonical) :
    (compareFold name leaves fold arg1 arg2 args).1.Canonical := by
  rw [compareFold]
  split_ifs
  · exact canonical_nil
  · split
    · exact canonical_nil
    · split
      · exact canonical_nil
      · exact hfold _

/-! ## Further functions -/

/-- `QuadToSigned` returns a canonical union. -/
theorem quadToSigned_canonical : (quadToSigned arg1).1.Canonical := by
  rw [quadToSigned]
  simp only
  split_ifs <;> simp [failWith]

/-- `SignedToQuad` returns a canonical union. -/
theorem signedToQuad_canonical : (signedToQuad arg1).1.Canonical := by
  rw [signedToQuad]
  simp only
  split_ifs <;> simp [failWith]

section
omit [Library F]

/-- `Count` returns a canonical union. -/
theorem count_canonical : (count args).1.Canonical := by
  rw [count.eq_def]
  split
  · split_ifs <;> exact canonical_uint _
  · exact canonical_uint _

/-- `In` returns a canonical union. -/
theorem isIn_canonical : (isIn arg1 args).1.Canonical := by
  rw [isIn]
  split_ifs
  · exact canonical_nil
  · exact canonical_bool _

end

/-- `Runtime` returns a canonical union. -/
theorem runtime_canonical {chargeEnergy dischargeEnergy powerOutput gain upperLimit minP : Union F}
    {defaultP : Union F} (h : AllCanonical [chargeEnergy, dischargeEnergy, powerOutput, gain,
      upperLimit, minP, defaultP]) :
    (runtime chargeEnergy dischargeEnergy powerOutput gain upperLimit minP defaultP).1.Canonical := by
  rw [runtime]
  split
  · rename_i hcast
    have hcasts := castArgs_canonical h hcast
    simp only [allCanonical_cons] at hcasts
    simp only [runtimeOf]
    split_ifs <;> first | exact hcasts.2.2.2.2.1 | exact canonical_float _
  · exact canonical_nil
  · exact canonical_nil

section
omit [Library F]

/-- The value that `Unicompare` limits at zero is canonical. -/
theorem limited_canonical (h : base.Canonical) :
    (base.tag = .INT → (if base.i < 0 then { base with i := 0 } else base : Union F).Canonical) ∧
      (base.tag = .FLOAT →
        (if Float64.lt base.f 0 then { base with f := 0 } else base : Union F).Canonical) := by
  constructor
  · intro hint
    split_ifs
    · rcases h.cases with rfl | ⟨b, rfl⟩ | ⟨i, rfl⟩ | ⟨ui, rfl⟩ | ⟨f, rfl⟩ | ⟨s, rfl⟩ <;>
        first | exact canonical_int 0 | cases hint
    · exact h
  · intro hfloat
    split_ifs
    · exact h.withF hfloat 0
    · exact h

/-- `Unicompare` within one type hands its base on or makes a new union. -/
theorem unicompareOf_canonical {resultType : DataType} {compare balance : Union F}
    (hbase : base.Canonical) (hcompare : compare.Canonical) (htag : base.tag = resultType) :
    (unicompareOf resultType base compare balance).1.Canonical := by
  cases resultType with
  | NIL | STRING => exact canonical_nil
  | BOOL =>
    rw [unicompareOf]
    split_ifs
    · exact hbase
    · exact canonical_bool _
    · exact hcompare
  | UINT =>
    rw [unicompareOf]
    split_ifs
    · exact canonical_uint 0
    · exact hbase
    · exact canonical_uint _
    · exact canonical_uint _
  | INT =>
    have hlimited := (limited_canonical hbase).1 htag
    rw [unicompareOf]
    generalize (if base.i < 0 then { base with i := 0 } else base : Union F) = limited at hlimited ⊢
    split_ifs
    · exact canonical_int 0
    · exact hlimited
    · exact canonical_int _
    · exact canonical_int _
  | FLOAT =>
    have hlimited := (limited_canonical hbase).2 htag
    rw [unicompareOf]
    generalize (if Float64.lt base.f 0 then { base with f := 0 } else base : Union F) = limited
      at hlimited ⊢
    split_ifs
    · exact canonical_float 0
    · exact hlimited
    · exact canonical_float _
    · exact canonical_float _

end

/-- `Unicompare` returns a canonical union. -/
theorem unicompare_canonical {compare balance : Union F} (hbase : base.Canonical)
    (hcompare : compare.Canonical) : (unicompare base compare balance).1.Canonical := by
  rw [unicompare]
  split_ifs
  · exact canonical_nil
  · split
    · exact canonical_nil
    · exact canonical_nil
    · rename_i castBase castCompare hcastBase hcastCompare
      obtain ⟨hcastBase, htag⟩ := castUnionType_canonical hbase hcastBase
      exact unicompareOf_canonical hcastBase (castUnionType_canonical hcompare hcastCompare).1 htag

/-- `CombineBits` returns a uint. -/
theorem combineBits_canonical : (combineBits args).1.Canonical := canonical_uint _

end Lists

/-- What is asked of floating-point numbers: the floor of zero is zero, and zero equals itself. -/
class LawfulFloat64 (F : Type) [Float64 F] : Prop where
  floor_zero : Float64.floor (0 : F) = 0
  eq_zero : Float64.eq (0 : F) 0 = true

instance : LawfulFloat64 ℚ where
  floor_zero := by
    change (((⌊(0 : ℚ)⌋ : ℤ) : ℚ)) = 0
    simp
  eq_zero := by
    change decide ((0 : ℚ) = 0) = true
    simp

/-- `FloorDiv` returns a canonical union. -/
theorem floorDiv_canonical [LawfulFloat64 F] (arg1 arg2 : Union F) :
    (floorDiv arg1 arg2).1.Canonical := by
  rw [floorDiv]
  have hdiv : (div arg1 arg2).1.Canonical := div_canonical
  split
  · rename_i result err hresult
    rw [hresult] at hdiv
    exact hdiv
  · rename_i result hresult
    rw [hresult] at hdiv
    rcases hdiv.cases with rfl | ⟨b, rfl⟩ | ⟨i, rfl⟩ | ⟨ui, rfl⟩ | ⟨f, rfl⟩ | ⟨s, rfl⟩
    · simp only [Union.nil, LawfulFloat64.floor_zero]
      exact canonical_nil
    · simp only [Union.bool, LawfulFloat64.floor_zero]
      exact canonical_bool b
    · simp only [Union.int, LawfulFloat64.floor_zero]
      exact canonical_int i
    · simp only [Union.uint, LawfulFloat64.floor_zero]
      exact canonical_uint ui
    · exact canonical_float _
    · simp only [Union.string, LawfulFloat64.floor_zero]
      exact canonical_string s

/-! ## Times -/

/-- `MillisecondsSince` returns a canonical union. -/
theorem millisecondsSince_canonical (clock : Clock) (input : Union F) :
    (millisecondsSince clock input).1.Canonical := by
  rw [millisecondsSince]
  split
  · exact canonical_nil
  · split_ifs
    · exact canonical_nil
    · exact canonical_int _

/-- `MillisecondsToRFC3339` returns a canonical union. -/
theorem millisecondsToRFC3339_canonical (input : Union F) :
    (millisecondsToRFC3339 input).1.Canonical := by
  rw [millisecondsToRFC3339]
  split
  · exact canonical_nil
  · exact canonical_string _

/-!
## The canonical values of evaluations

An evaluation over canonical inputs yields canonical values, and leaves canonical values in the
lists of the state that it reads values from.
-/

variable {F : Type} [Float64 F]

/-! ## States -/

/-- A list stays canonical when one of its values is edited canonically. -/
theorem AllCanonical.modify {values : List (Union F)} (h : AllCanonical values)
    {edit : Union F → Union F} (hedit : ∀ value : Union F, value.Canonical → (edit value).Canonical)
    (index : ℕ) : AllCanonical (values.modify index edit) := by
  intro value hvalue
  obtain ⟨i, hi⟩ := List.mem_iff_getElem?.1 hvalue
  rw [List.getElem?_modify] at hi
  obtain ⟨before, hbefore, rfl⟩ := Option.map_eq_some_iff.1 hi
  have hcanonical := h before (List.mem_of_getElem? hbefore)
  split_ifs
  · exact hedit before hcanonical
  · exact hcanonical

/-- A part of a canonical list is canonical. -/
theorem AllCanonical.of_subset {values part : List (Union F)} (h : AllCanonical values)
    (hpart : part ⊆ values) : AllCanonical part := fun value hvalue => h value (hpart hvalue)

namespace State

/-- The lists of a state whose values are returned. -/
def readKeys : List String := ["values", "q", "value", "previousValue"]

/-- The values of the lists that are read are canonical. -/
def Canonical (state : State F) : Prop := ∀ key ∈ readKeys, AllCanonical (state.entry key)

variable {state after : State F} {key : String}

/-- A state stays canonical when a list that is read is replaced by a canonical one. -/
theorem Canonical.put (h : state.Canonical) {list : List (Union F)}
    (hlist : key ∈ readKeys → AllCanonical list) : (state.put key list).Canonical := by
  intro other hother
  by_cases hsame : other = key
  · subst hsame
    rw [entry_put_self]
    exact hlist hother
  · rw [entry_put_of_ne state list hsame]
    exact h other hother

/-- The lists that are not read as values may be replaced by any. -/
theorem Canonical.put_other (h : state.Canonical) (hkey : key ∉ readKeys) (list : List (Union F)) :
    (state.put key list).Canonical :=
  h.put fun hmem => absurd hmem hkey

/-- The empty state is canonical. -/
theorem canonical_empty : (State.empty : State F).Canonical := by
  intro key _
  exact allCanonical_nil

/-- Setting an index leaves the values canonical. -/
theorem Canonical.setFirstUi (h : state.Canonical) (hkey : key ∉ readKeys) {ui : UInt64}
    (hset : state.setFirstUi key ui = some after) : after.Canonical := by
  rw [State.setFirstUi] at hset
  split at hset
  · cases hset
  · cases hset
    exact h.put_other hkey _

/-- A canonical edit of one entry leaves the state canonical. -/
theorem Canonical.editAt (h : state.Canonical) {index : ℕ} {edit : Union F → Union F}
    (hvalue : key ∈ readKeys → ∀ value : Union F, value.Canonical → (edit value).Canonical)
    (hset : state.editAt key index edit = some after) : after.Canonical := by
  rw [State.editAt] at hset
  split_ifs at hset
  cases hset
  exact h.put fun hmem => (h key hmem).modify (hvalue hmem) index

end State

/-! ## Windows -/

section Windows

variable {state after : State F} {indexKey : String} {before : Option (State F)} {older : ℕ}
  {index : UInt64} {input : Union F} {timescale currentTime : Int64} {function : Extremum F}

/-- The window of a first call is canonical, that of a later one stays so. -/
theorem prepareWindow_canonical {key : Option String} (hkey : ∀ k ∈ key, k ∉ State.readKeys)
    (h : ∀ map ∈ before, map.Canonical) (hprepare : prepareWindow key timescale before = some after) :
    after.Canonical := by
  have hmap : (before.getD .empty).Canonical := by
    cases before with
    | none => exact State.canonical_empty
    | some map => exact h map rfl
  rw [prepareWindow] at hprepare
  split_ifs at hprepare with hempty hneg
  · have hspace : AllCanonical (List.replicate timescale.toInt.toNat (Union.nil : Union F)) := by
      intro value hvalue
      rw [List.eq_of_mem_replicate hvalue]
      exact canonical_nil
    have hprepared : ((((before.getD .empty).put "timestamps"
        (List.replicate timescale.toInt.toNat .nil)).put "values"
          (List.replicate timescale.toInt.toNat .nil)).put "currentIndex" [.uint 0]).Canonical :=
      ((hmap.put fun _ => hspace).put fun _ => hspace).put_other (by decide) _
    cases hprepare
    cases key with
    | none => exact hprepared
    | some key => exact hprepared.put_other (hkey key rfl) _
  · cases hprepare
    exact hmap

/-- Dropping the old points keeps a state canonical. -/
theorem removeOlder_canonical (h : state.Canonical) {ahead : ℕ}
    (hremove : removeOlder ahead currentTime timescale index state = some (older, after)) :
    after.Canonical := by
  rw [removeOlder] at hremove
  simp only at hremove
  split_ifs at hremove
  cases hremove
  have hvalues : AllCanonical (state.entry "values") := h "values" (by decide)
  exact (h.put_other (by decide) _).put fun _ => hvalues.of_subset (List.drop_subset _ _)

/-- Moving the index keeps a state canonical. -/
theorem moveIndex_canonical (h : state.Canonical) (hmove : moveIndex index older state = some after) :
    after.Canonical := by
  rw [moveIndex] at hmove
  split_ifs at hmove
  · exact h.setFirstUi (by decide) hmove
  · cases hmove
    exact h

/-- A canonical input keeps the window canonical. -/
theorem addPoint_canonical (h : state.Canonical) (hinput : input.Canonical)
    (hadd : addPoint currentTime input index state = some after) : after.Canonical := by
  simp only [addPoint, Option.bind_eq_bind, Option.bind_eq_some_iff] at hadd
  obtain ⟨stamped, hstamped, hadd⟩ := hadd
  have hother : "timestamps" ∉ State.readKeys := by decide
  exact (h.editAt (fun hmem => absurd hmem hother) hstamped).editAt (fun _ _ _ => hinput) hadd

/-- Counting the point keeps a state canonical. -/
theorem countPoint_canonical (h : state.Canonical) (hcount : countPoint state = some after) :
    after.Canonical := by
  simp only [countPoint, Option.bind_eq_bind, Option.bind_eq_some_iff] at hcount
  obtain ⟨index, -, counted, hcounted, hcount⟩ := hcount
  have hcanonical := h.setFirstUi (by decide) hcounted
  split_ifs at hcount
  · cases hcount
    have hvalues : AllCanonical ((counted.put "timestamps"
        (counted.entry "timestamps" ++ [.nil])).entry "values") :=
      hcanonical.put_other (by decide) _ "values" (by decide)
    exact (hcanonical.put_other (by decide) _).put fun _ =>
      hvalues.append (allCanonical_cons.2 ⟨canonical_nil, allCanonical_nil⟩)
  · cases hcount
    exact hcanonical

/-- A function that works on a map keeps its lists canonical and returns a canonical value. -/
def StepsCanonically (result : Option (Returned (Union F) × State F)) : Prop :=
  ∀ returned after, result = some (returned, after) → returned.1.Canonical ∧ after.Canonical

/-- One call of an aggregate returns a canonical union and keeps its state so. -/
theorem Aggregate.step_canonical {function : Aggregate F}
    (hcompute : ∀ values index, AllCanonical values → ∀ input : Union F, input.Canonical →
      (function.compute values index input).1.Canonical) (hinput : input.Canonical)
    (h : ∀ map ∈ before, map.Canonical) (timescale now : Int64) :
    StepsCanonically (function.step input timescale now before) := by
  intro returned after hstep
  simp only [Aggregate.step, Option.bind_eq_bind, Option.bind_eq_some_iff, Prod.exists] at hstep
  obtain ⟨prepared, hprepare, index, -, older, removed, hremove, moved, hmove, last, -, added, hadd,
    counted, hcount, rfl, rfl⟩ := hstep
  have hadded := addPoint_canonical (moveIndex_canonical (removeOlder_canonical
    (prepareWindow_canonical (by simp) h hprepare) hremove) hmove) hinput hadd
  exact ⟨hcompute _ _ (hadded "values" (by decide)) _ hinput, countPoint_canonical hadded hcount⟩

/-- The extremum that is looked for again is one of the points kept. -/
theorem Extremum.rebase_canonical (hkey : function.indexKey ∉ State.readKeys) (h : state.Canonical)
    {tag : DataType} {best found : Union F}
    (hrebase : function.rebase tag best index older state = some (found, after)) :
    after.Canonical := by
  by_cases holder : 0 < older
  · rw [Extremum.rebase, if_pos holder] at hrebase
    simp only [Option.bind_eq_bind, Option.bind_eq_some_iff] at hrebase
    obtain ⟨remembered, -, hrebase⟩ := hrebase
    split_ifs at hrebase
    · simp only [Option.bind_eq_some_iff] at hrebase
      obtain ⟨set, hset, -, rfl⟩ := hrebase
      exact h.setFirstUi hkey hset
    · simp only [Option.bind_eq_some_iff] at hrebase
      obtain ⟨set, hset, -, rfl⟩ := hrebase
      exact h.setFirstUi hkey hset
  · rw [Extremum.rebase, if_neg holder] at hrebase
    cases hrebase
    exact h

/-- One call of a windowed extremum returns a canonical union and keeps its state so. -/
theorem Extremum.step_canonical (hkey : function.indexKey ∉ State.readKeys)
    (hinput : input.Canonical) (h : ∀ map ∈ before, map.Canonical) (timescale now : Int64) :
    StepsCanonically (function.step input timescale now before) := by
  intro returned after hstep
  simp only [Extremum.step, Option.bind_eq_bind, Option.bind_eq_some_iff, Prod.exists] at hstep
  obtain ⟨prepared, hprepare, index, -, remembered, -, best, -, older, removed, hremove, moved,
    hmove, found, rebased, hrebase, last, -, added, hadd, compared, hcompare, counted, hcount,
    place, -, value, hvalue, rfl, rfl⟩ := hstep
  have hadded := addPoint_canonical (Extremum.rebase_canonical hkey (moveIndex_canonical
    (removeOlder_canonical (prepareWindow_canonical (by simpa using hkey) h hprepare) hremove)
      hmove) hrebase) hinput hadd
  have hcompared : compared.Canonical := by
    rw [Extremum.compareCurrent] at hcompare
    split_ifs at hcompare
    · exact hadded.setFirstUi hkey hcompare
    · cases hcompare
      exact hadded
  have hcounted := countPoint_canonical hcompared hcount
  exact ⟨hcounted "values" (by decide) value (List.mem_of_getElem? hvalue), hcounted⟩

end Windows

/-! ## Functions that keep a state -/

section Stateful

variable [Library F] {state after : State F}

/-- The values in the map of a state, where there is one. -/
def StateRef.Canonical (state : StateRef F) : Prop :=
  ∀ map, state = some (some map) → map.Canonical

/-- A function with a state returns a canonical value and keeps the lists canonical. -/
def CallsCanonically (result : Stateful F) : Prop :=
  ∀ returned next, result = some (returned, next) → returned.1.Canonical ∧ StateRef.Canonical next

section
omit [Library F]

/-- What a step leaves in its map is what the call leaves. -/
theorem withMap_canonical {result : Option (Returned (Union F) × State F)}
    (h : StepsCanonically result) : CallsCanonically (withMap result) := by
  intro returned next hcall
  obtain ⟨⟨value, map⟩, hresult, heq⟩ := Option.map_eq_some_iff.1 hcall
  cases heq
  obtain ⟨hvalue, hmap⟩ := h _ _ hresult
  refine ⟨hvalue, fun other hother => ?_⟩
  cases hother
  exact hmap

/-- A call that leaves its state alone needs a canonical result only. -/
theorem callsCanonically_same {returned : Returned (Union F)} {state : StateRef F}
    (hvalue : returned.1.Canonical) (h : StateRef.Canonical state) :
    CallsCanonically (some (returned, state)) := by
  intro other next heq
  cases heq
  exact ⟨hvalue, h⟩

/-- A state that is not there yet counts as the empty one. -/
theorem StateRef.Canonical.getD {map : Option (State F)} (h : StateRef.Canonical (some map)) :
    (map.getD .empty).Canonical := by
  cases map with
  | none => exact State.canonical_empty
  | some map => exact h map rfl

end

/-- A call of an aggregate, with its checks of the timescale, keeps values canonical. -/
theorem Aggregate.call_canonical {function : Aggregate F}
    (hcompute : ∀ values index, AllCanonical values → ∀ input : Union F, input.Canonical →
      (function.compute values index input).1.Canonical) {input : Union F} (hinput : input.Canonical)
    {state : StateRef F} (h : StateRef.Canonical state) (timescale : Union F) (now : Int64) :
    CallsCanonically (function.call input timescale now state) := by
  rw [Aggregate.call]
  split
  · exact callsCanonically_same canonical_nil h
  · split
    · exact callsCanonically_same canonical_nil h
    · split
      · exact callsCanonically_same canonical_nil h
      · exact withMap_canonical (function.step_canonical hcompute hinput
          (fun map hmap => h map (by rw [Option.mem_def.1 hmap])) _ _)

/-- So does a call of a windowed extremum. -/
theorem Extremum.call_canonical {function : Extremum F}
    (hkey : function.indexKey ∉ State.readKeys) {input : Union F} (hinput : input.Canonical)
    {state : StateRef F} (h : StateRef.Canonical state) (timescale : Union F) (now : Int64) :
    CallsCanonically (function.call input timescale now state) := by
  rw [Extremum.call]
  split
  · exact callsCanonically_same canonical_nil h
  · split
    · exact callsCanonically_same canonical_nil h
    · split
      · exact callsCanonically_same canonical_nil h
      · exact withMap_canonical (Extremum.step_canonical hkey hinput
          (fun map hmap => h map (by rw [Option.mem_def.1 hmap])) _ _)

end Stateful

end HybridOs.GoMetrics
