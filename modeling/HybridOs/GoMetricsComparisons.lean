import HybridOs.GoMetricsFunctions
import HybridOs.SpacedBits

/-!
# Floating-point numbers of metrics

A `float64` is a number that 53 significant bits hold, and every operation rounds its exact
result to the nearest of them. Exponents have no bounds here, so that there are no infinities;
integers of 64 bits stay far from the bounds of the source.
-/

namespace HybridOs.GoMetrics

open SpacedBits

/-- A number with 53 significant bits. -/
structure Binary64 where
  value : ℚ
  rounded : roundTo 53 value = value

/-- The nearest number with 53 significant bits. -/
def Binary64.nearest (x : ℚ) : Binary64 := ⟨roundTo 53 x, roundTo_roundTo (by decide) x⟩

/-- The operations round their results. -/
scoped instance : Float64 Binary64 where
  zero := ⟨0, roundTo_zero 53⟩
  add a b := .nearest (a.value + b.value)
  sub a b := .nearest (a.value - b.value)
  mul a b := .nearest (a.value * b.value)
  div a b := .nearest (a.value / b.value)
  neg a := .nearest (-a.value)
  ofInt n := .nearest n
  lt a b := decide (a.value < b.value)
  le a b := decide (a.value ≤ b.value)
  eq a b := decide (a.value = b.value)
  floor a := .nearest ⌊a.value⌋
  ceil a := .nearest ⌈a.value⌉
  round a := .nearest (if a.value < 0 then ⌈a.value - 1 / 2⌉ else ⌊a.value + 1 / 2⌋)
  abs a := .nearest |a.value|
  truncate a := if a.value < 0 then ⌈a.value⌉ else ⌊a.value⌋
  maxFloat64 := .nearest maxFloat64
  isNaN _ := false
  isInf _ _ := false

/-- The value of `float64(n)`. -/
def float64 (n : ℤ) : ℚ := roundTo 53 (n : ℚ)

theorem float64_mono {m n : ℤ} (h : m ≤ n) : float64 m ≤ float64 n :=
  roundTo_mono (by decide) (by exact_mod_cast h)

@[simp] theorem value_ofInt (n : ℤ) : (Float64.ofInt n : Binary64).value = float64 n := rfl

@[simp] theorem lt_binary64 (a b : Binary64) : Float64.lt a b = true ↔ a.value < b.value :=
  decide_eq_true_iff

@[simp] theorem le_binary64 (a b : Binary64) : Float64.le a b = true ↔ a.value ≤ b.value :=
  decide_eq_true_iff

@[simp] theorem eq_binary64 (a b : Binary64) : Float64.eq a b = true ↔ a.value = b.value :=
  decide_eq_true_iff

/-- A library for inputs that need no texts of numbers and no functions of real numbers. -/
@[reducible]
def binary64Library : Library Binary64 where
  parseFloat _ := (0, false)
  sprintF _ := ""
  sprintF2 _ := ""
  sqrt x := x
  pow x _ := x
  min x y := if Float64.lt x y then x else y
  rfc3339 _ := ""
  toLower text := text.toLower

/-! ## Values that are integers -/

/-- Whether a value is a truth value, a signed or an unsigned integer. -/
def Union.Integral {F : Type} (union : Union F) : Prop :=
  union.tag = .BOOL ∨ union.tag = .INT ∨ union.tag = .UINT

/-- The integer of a value; a truth value counts as one or zero. -/
def Union.integer {F : Type} (union : Union F) : ℤ :=
  match union.tag with
  | .BOOL => if union.b then 1 else 0
  | .INT => union.i.toInt
  | .UINT => union.ui.toNat
  | _ => 0

/-- The integers of values. -/
def integers {F : Type} (args : List (Union F)) : List ℤ := args.map Union.integer

/-- Integers beside each other have no text among them. -/
theorem getResultType_ne_string {F : Type} {union1 union2 : Union F} (h1 : union1.Integral)
    (h2 : union2.Integral) : getResultType union1.tag union2.tag ≠ .STRING := by
  rcases h1 with h1 | h1 | h1 <;> rcases h2 with h2 | h2 | h2 <;> simp [getResultType, h1, h2]

section

variable [Library Binary64]

/-- An integer is cast to the nearest floating-point number. -/
theorem castUnionType_float {union : Union Binary64} (h : union.Integral) :
    ∃ cast, castUnionType union .FLOAT = .ok cast ∧ cast.f = Float64.ofInt union.integer := by
  have hzero : (0 : Binary64) = Float64.ofInt 0 := by
    show (⟨0, roundTo_zero 53⟩ : Binary64) = .nearest ((0 : ℤ) : ℚ)
    rw [Binary64.nearest, Binary64.mk.injEq, Int.cast_zero, roundTo_zero]
  rcases h with h | h | h
  · refine ⟨_, by simp only [castUnionType, h, castBool, reduceCtorEq, if_false]; rfl, ?_⟩
    cases hb : union.b <;> simp [Union.integer, h, hb, hzero]
  · refine ⟨_, by simp only [castUnionType, h, castInt, reduceCtorEq, if_false]; rfl, ?_⟩
    simp [Union.integer, h]
  · refine ⟨_, by simp only [castUnionType, h, castUint, reduceCtorEq, if_false]; rfl, ?_⟩
    simp [Union.integer, h]

theorem castInPlace_float {union : Union Binary64} (h : union.Integral) :
    (castInPlace union .FLOAT).f = Float64.ofInt union.integer := by
  obtain ⟨cast, hcast, hf⟩ := castUnionType_float h
  rw [castInPlace, hcast]
  exact hf

end

/-!
## Comparisons of integers

The comparisons cast both sides to floating-point numbers, which is monotone but merges great
integers. A comparison of neighbours or with a reference therefore agrees with the integers
unless a relation is lost or won between two integers that are cast to one number.
-/

/-! ## Relations -/

/-- The relations of the comparisons. -/
inductive Relation where
  | eq
  | ne
  | lt
  | gt
  | le
  | ge
  deriving DecidableEq

namespace Relation

/-- The operator that `Compare` takes. -/
def operator : Relation → String
  | eq => "=="
  | ne => "!="
  | lt => "<"
  | gt => ">"
  | le => "<="
  | ge => ">="

/-- Whether two elements of an order are in a relation. -/
def holds {α : Type} [LinearOrder α] : Relation → α → α → Bool
  | eq, a, b => decide (a = b)
  | ne, a, b => decide (a ≠ b)
  | lt, a, b => decide (a < b)
  | gt, a, b => decide (b < a)
  | le, a, b => decide (a ≤ b)
  | ge, a, b => decide (b ≤ a)

/-- Whether an element is not in a relation with itself. -/
def strict : Relation → Bool
  | ne | lt | gt => true
  | eq | le | ge => false

/-- The function of a relation. -/
def function {F : Type} [Float64 F] [Library F] : Relation → List (Union F) → Returned (Union F)
  | eq => equal
  | ne => notEqual
  | lt => lessThan
  | gt => greaterThan
  | le => lessThanOrEqual
  | ge => greaterThanOrEqual

theorem comparisonOf_operator {F : Type} [Float64 F] [Library F] (r : Relation) :
    comparisonOf r.operator = some (r.function (F := F)) := by
  cases r <;> rfl

/-- A relation of two integers that their floating-point numbers do not show. -/
def Loses (r : Relation) (a b : ℤ) : Prop :=
  r.strict = true ∧ r.holds a b = true ∧ float64 a = float64 b

/-- A relation of two floating-point numbers that their integers are not in. -/
def Wins (r : Relation) (a b : ℤ) : Prop :=
  r.strict = false ∧ r.holds a b = false ∧ float64 a = float64 b

instance (r : Relation) (a b : ℤ) : Decidable (r.Loses a b) :=
  inferInstanceAs (Decidable (_ ∧ _ ∧ _))

instance (r : Relation) (a b : ℤ) : Decidable (r.Wins a b) :=
  inferInstanceAs (Decidable (_ ∧ _ ∧ _))

/-- No relation has pairs of both kinds. -/
theorem Wins.not_loses {r : Relation} {a b c d : ℤ} (h : r.Wins a b) : ¬ r.Loses c d := fun hloses =>
  Bool.false_ne_true (h.1.symm.trans hloses.1)

/-- The casts only change the relation of integers that they merge. -/
theorem holds_float64_iff (r : Relation) (a b : ℤ) :
    r.holds (float64 a) (float64 b) = true ↔ (r.holds a b = true ∧ ¬ r.Loses a b) ∨ r.Wins a b := by
  have hab := float64_mono (m := a) (n := b)
  have hba := float64_mono (m := b) (n := a)
  by_cases heq : float64 a = float64 b
  · cases r <;> simp only [holds, Loses, Wins, strict] <;> grind
  · cases r <;> simp only [holds, Loses, Wins] <;> grind

/-- The value of a comparison of one argument with a reference agrees with the integers. -/
theorem holds_float64_eq_iff (r : Relation) (a b : ℤ) :
    r.holds (float64 a) (float64 b) = r.holds a b ↔ ¬ r.Loses a b ∧ ¬ r.Wins a b := by
  have h := r.holds_float64_iff a b
  rw [Bool.eq_iff_iff, h]
  unfold Loses Wins
  cases r.strict <;> cases r.holds a b <;> simp

/-! ## Chains -/

/-- A chain of a relation in which a neighbouring pair is not shown. -/
def LosesChain (r : Relation) (ints : List ℤ) : Prop :=
  ints.IsChain (fun a b => r.holds a b = true) ∧ ¬ ints.IsChain fun a b => ¬ r.Loses a b

/-- No chain of a relation, in which every pair that is not in the relation is won. -/
def WinsChain (r : Relation) (ints : List ℤ) : Prop :=
  ¬ ints.IsChain (fun a b => r.holds a b = true) ∧
    ints.IsChain fun a b => r.holds a b = true ∨ r.Wins a b

theorem isChain_and {α : Type} {R S : α → α → Prop} {l : List α} :
    l.IsChain (fun a b => R a b ∧ S a b) ↔ l.IsChain R ∧ l.IsChain S := by
  simp only [List.isChain_iff_getElem]
  exact ⟨fun h => ⟨fun i hi => (h i hi).1, fun i hi => (h i hi).2⟩,
    fun h i hi => ⟨h.1 i hi, h.2 i hi⟩⟩

/-- The casts keep a chain and keep what is none apart from relations that they lose or win. -/
theorem chain_float64_iff (r : Relation) (ints : List ℤ) :
    (ints.IsChain (fun a b => r.holds (float64 a) (float64 b) = true) ↔
        ints.IsChain fun a b => r.holds a b = true) ↔ ¬ r.LosesChain ints ∧ ¬ r.WinsChain ints := by
  unfold LosesChain WinsChain
  cases hstrict : r.strict with
  | true =>
    -- A strict relation is never won.
    have hnone (a b : ℤ) : ¬ r.Wins a b := fun h => absurd h.1 (by simp [hstrict])
    have hiff (a b : ℤ) : r.holds (float64 a) (float64 b) = true ↔
        r.holds a b = true ∧ ¬ r.Loses a b := by
      rw [r.holds_float64_iff, or_iff_left (hnone a b)]
    simp only [hiff, isChain_and, hnone, or_false]
    tauto
  | false =>
    -- Any other relation is never lost.
    have hnone (a b : ℤ) : ¬ r.Loses a b := fun h => absurd h.1 (by simp [hstrict])
    have hiff (a b : ℤ) : r.holds (float64 a) (float64 b) = true ↔
        r.holds a b = true ∨ r.Wins a b := by
      rw [r.holds_float64_iff, and_iff_left (hnone a b)]
    have hall : ints.IsChain fun a b => ¬ r.Loses a b :=
      List.isChain_iff_getElem.mpr fun i hi => hnone _ _
    simp only [hiff]
    have himp : (ints.IsChain fun a b => r.holds a b = true) →
        ints.IsChain fun a b => r.holds a b = true ∨ r.Wins a b :=
      List.IsChain.imp fun _ _ => Or.inl
    tauto

end Relation

/-! ## The comparisons -/

variable [Library Binary64]

/-- The loop over neighbours looks whether the numbers are a chain. -/
theorem compareNeighbours_integral {mixed : Mixed} {strings : String → String → Bool}
    {numbers : Binary64 → Binary64 → Bool} {rel : ℤ → ℤ → Bool}
    (hrel : ∀ a b, numbers (Float64.ofInt a) (Float64.ofInt b) = rel a b)
    (args : List (Union Binary64)) (arg : Union Binary64) (b : Bool)
    (h : ∀ union ∈ arg :: args, union.Integral) (hb : args = [] → b = true) :
    compareNeighbours mixed strings numbers b (arg :: args) =
      (.bool (decide ((integers (arg :: args)).IsChain fun a b => rel a b = true)), none) := by
  induction args generalizing arg b with
  | nil => simp [compareNeighbours, integers, hb rfl]
  | cons next rest ih =>
    have harg := h arg List.mem_cons_self
    have hnext := h next (List.mem_cons_of_mem _ List.mem_cons_self)
    unfold compareNeighbours
    rw [if_neg (getResultType_ne_string harg hnext), castInPlace_float harg,
      castInPlace_float hnext, hrel]
    by_cases hpair : rel arg.integer next.integer = true
    · rw [if_pos hpair, ih next true (fun union hu => h union (List.mem_cons_of_mem _ hu))
        (fun _ => rfl)]
      simp [integers, hpair]
    · rw [if_neg hpair]
      simp [integers, hpair]

variable {args : List (Union Binary64)} {reference : Union Binary64} (r : Relation)

/-- A comparison of two or more values looks whether their floating-point numbers are a chain. -/
theorem Relation.function_integral (h : ∀ union ∈ args, union.Integral)
    (hlength : 2 ≤ args.length) :
    r.function args =
      (.bool (decide ((integers args).IsChain fun a b => r.holds (float64 a) (float64 b) = true)),
        none) := by
  obtain ⟨arg, next, rest, rfl⟩ : ∃ arg next rest, args = arg :: next :: rest := by
    match args, hlength with
    | arg :: next :: rest, _ => exact ⟨arg, next, rest, rfl⟩
  cases r <;>
    exact compareNeighbours_integral
      (fun a b => Bool.eq_iff_iff.mpr (by simp [holds, ← Bool.not_eq_true])) _ _ _ h (by simp)

/-- A comparison of less than two values fails. -/
theorem Relation.function_short (hlength : args.length ≤ 1) :
    (r.function args).2.isSome = true := by
  cases r <;>
    simp [function, equal, notEqual, lessThan, greaterThan, lessThanOrEqual, greaterThanOrEqual,
      compareWith, hlength, failWith]

/-- A comparison of one value with a reference. -/
theorem Relation.function_pair {arg : Union Binary64} (harg : arg.Integral)
    (hreference : reference.Integral) :
    r.function [arg, reference] =
      (.bool (r.holds (float64 arg.integer) (float64 reference.integer)), none) := by
  rw [r.function_integral (by simp [harg, hreference]) (by simp)]
  simp [integers]

/-! ## Comparisons with a reference -/

theorem compareLoop_integral (hreference : reference.Integral) (args : List (Union Binary64))
    (h : ∀ union ∈ args, union.Integral) :
    compareLoop r.function reference args =
      (args.map fun arg => .bool (r.holds (float64 arg.integer) (float64 reference.integer)),
        none) := by
  induction args with
  | nil => rfl
  | cons arg args ih =>
    rw [compareLoop, r.function_pair (h arg List.mem_cons_self) hreference,
      ih fun union hu => h union (List.mem_cons_of_mem _ hu)]
    rfl

/-- The loop that leaves at a first result has a result of that kind if there is one. -/
theorem compareUntil_integral (leaves : Bool) (r : Relation) (hreference : reference.Integral)
    (args : List (Union Binary64)) (h : ∀ union ∈ args, union.Integral) :
    ∃ results, compareUntil leaves r.function reference args = .ok results ∧
      results.length = args.length ∧
      (results.any fun result => (castInPlace result .BOOL).b == leaves) =
        args.any fun arg => r.holds (float64 arg.integer) (float64 reference.integer) == leaves := by
  induction args with
  | nil => exact ⟨[], rfl, rfl, rfl⟩
  | cons arg args ih =>
    obtain ⟨results, hresults, hlength, hany⟩ :=
      ih fun union hu => h union (List.mem_cons_of_mem _ hu)
    have hpair := r.function_pair (h arg List.mem_cons_self) hreference
    let holds := r.holds (float64 arg.integer) (float64 reference.integer)
    have hcast (b : Bool) : (castInPlace (Union.bool b : Union Binary64) .BOOL).b = b := rfl
    by_cases hleaves : r.holds (float64 arg.integer) (float64 reference.integer) = leaves
    · refine ⟨.bool holds :: args, ?_, rfl, ?_⟩
      · rw [compareUntil, hpair]
        exact if_pos hleaves
      have hbeq : (holds == leaves) = true := beq_iff_eq.mpr hleaves
      rw [List.any_cons, List.any_cons, hcast, hbeq, Bool.true_or, Bool.true_or]
    · refine ⟨.bool holds :: results, ?_, ?_, ?_⟩
      · rw [compareUntil, hpair, hresults]
        exact if_neg hleaves
      · rw [List.length_cons, List.length_cons, hlength]
      · rw [List.any_cons, List.any_cons, hcast, hany]

theorem compareOr_integral (hreference : reference.Integral) (h : ∀ union ∈ args, union.Integral) :
    compareOr (.string r.operator) reference args =
      (.bool (args.any fun arg => r.holds (float64 arg.integer) (float64 reference.integer)),
        none) := by
  obtain ⟨results, hresults, hlength, hany⟩ := compareUntil_integral true r hreference args h
  simp only [beq_true] at hany
  have hoperator : (Union.string r.operator : Union Binary64).s = r.operator := rfl
  rw [compareOr, compareFold, if_neg (by simp [Union.string]), hoperator,
    r.comparisonOf_operator]
  dsimp only
  rw [hresults]
  show or results = _
  rw [or, hany]
  split_ifs with hnil
  · rw [hnil] at hlength
    rw [List.eq_nil_of_length_eq_zero hlength.symm, List.any_nil]
  · rfl

theorem compareAnd_integral (hreference : reference.Integral) (h : ∀ union ∈ args, union.Integral) :
    compareAnd (.string r.operator) reference args =
      (.bool (!args.isEmpty &&
        args.all fun arg => r.holds (float64 arg.integer) (float64 reference.integer)), none) := by
  obtain ⟨results, hresults, hlength, hany⟩ := compareUntil_integral false r hreference args h
  have hall : (results.all fun result => (castInPlace result .BOOL).b) =
      args.all fun arg => r.holds (float64 arg.integer) (float64 reference.integer) := by
    rw [List.all_eq_not_any_not, List.all_eq_not_any_not]
    simpa using hany
  have hoperator : (Union.string r.operator : Union Binary64).s = r.operator := rfl
  rw [compareAnd, compareFold, if_neg (by simp [Union.string]), hoperator,
    r.comparisonOf_operator]
  dsimp only
  rw [hresults]
  show and results = _
  rw [and, hall]
  cases args with
  | nil => rw [if_pos (List.eq_nil_of_length_eq_zero hlength)]; rfl
  | cons arg args =>
    rw [if_neg (fun hnil => by simp [hnil] at hlength)]
    rfl

/-! ## Extrema -/

/-- The element of a list that comes first among those with the greatest key. -/
def FirstGreatest {α : Type} (key : α → ℚ) (args : List α) (chosen : α) : Prop :=
  ∃ before after, args = before ++ chosen :: after ∧ (∀ arg ∈ before, key arg < key chosen) ∧
    ∀ arg ∈ after, key arg ≤ key chosen

omit [Library Binary64] in
theorem FirstGreatest.le {α : Type} {key : α → ℚ} {args : List α} {chosen : α}
    (h : FirstGreatest key args chosen) : ∀ arg ∈ args, key arg ≤ key chosen := by
  obtain ⟨before, after, rfl, hbefore, hafter⟩ := h
  intro arg harg
  rcases List.mem_append.mp harg with harg | harg
  · exact (hbefore arg harg).le
  · rcases List.mem_cons.mp harg with rfl | harg
    · exact le_rfl
    · exact hafter arg harg

omit [Library Binary64] in
/-- There is one such element. -/
theorem FirstGreatest.unique {α : Type} {key : α → ℚ} {args : List α} {a b : α}
    (ha : FirstGreatest key args a) (hb : FirstGreatest key args b) : a = b := by
  have hale := ha.le
  have hble := hb.le
  obtain ⟨before, after, hargs, hbefore, -⟩ := ha
  obtain ⟨before', after', hargs', hbefore', -⟩ := hb
  have hkey : key a = key b :=
    le_antisymm (hble a (by simp [hargs])) (hale b (by simp [hargs']))
  rcases List.append_eq_append_iff.mp (hargs.symm.trans hargs') with
    ⟨between, hb, ha⟩ | ⟨between, ha, hb⟩
  · rcases between with _ | ⟨c, between⟩
    · exact (List.cons.inj ha).1
    · have hc := (List.cons.inj ha).1
      have := hbefore' a (by simp [hb, hc])
      exact absurd hkey this.ne
  · rcases between with _ | ⟨c, between⟩
    · exact ((List.cons.inj hb).1).symm
    · have hc := (List.cons.inj hb).1
      have := hbefore b (by simp [ha, hc])
      exact absurd hkey.symm this.ne

/-- The loop of `Max` and of `Min` finds the first of the best numbers. -/
theorem extremumLoop_integral {better : Binary64 → Binary64 → Bool}
    {beatsInfinity : Binary64 → Bool} {text : String} (key : ℤ → ℚ)
    (hbetter : ∀ a b, better (Float64.ofInt a) (Float64.ofInt b) = true ↔ key b < key a)
    (args : List (Union Binary64)) (chosen : Union Binary64) (h : ∀ union ∈ args, union.Integral) :
    ∃ found, extremumLoop better beatsInfinity text (some (Float64.ofInt chosen.integer)) chosen
        args = (found, none) ∧
      FirstGreatest (fun union => key union.integer) (chosen :: args) found := by
  induction args generalizing chosen with
  | nil => exact ⟨chosen, rfl, [], [], rfl, by simp, by simp⟩
  | cons arg args ih =>
    have hrest : ∀ union ∈ args, union.Integral := fun union hu =>
      h union (List.mem_cons_of_mem _ hu)
    obtain ⟨cast, hcast, hf⟩ := castUnionType_float (h arg List.mem_cons_self)
    by_cases hbest : key chosen.integer < key arg.integer
    · obtain ⟨found, hfound, hfirst⟩ := ih arg hrest
      have hle := hfirst.le arg List.mem_cons_self
      obtain ⟨before, after, heq, hbefore, hafter⟩ := hfirst
      refine ⟨found, ?_, chosen :: before, after, by rw [heq, List.cons_append], ?_, hafter⟩
      · rw [extremumLoop, hcast]
        simp only [Option.elim_some, hf]
        rw [if_pos ((hbetter _ _).mpr hbest)]
        exact hfound
      · exact List.forall_mem_cons.mpr ⟨hbest.trans_le hle, hbefore⟩
    · obtain ⟨found, hfound, hfirst⟩ := ih chosen hrest
      have hle := hfirst.le chosen List.mem_cons_self
      obtain ⟨before, after, heq, hbefore, hafter⟩ := hfirst
      refine ⟨found, ?_, ?_⟩
      · rw [extremumLoop, hcast]
        simp only [Option.elim_some, hf]
        rw [if_neg (fun hb => hbest ((hbetter _ _).mp hb))]
        exact hfound
      · cases before with
        | nil =>
          obtain ⟨rfl, rfl⟩ := List.cons.inj heq
          exact ⟨[], arg :: args, rfl, by simp,
            List.forall_mem_cons.mpr ⟨not_lt.mp hbest, hafter⟩⟩
        | cons first before =>
          obtain ⟨rfl, rfl⟩ := List.cons.inj heq
          have hlt := hbefore chosen List.mem_cons_self
          exact ⟨chosen :: arg :: before, after, rfl, List.forall_mem_cons.mpr ⟨hlt,
            List.forall_mem_cons.mpr ⟨(not_lt.mp hbest).trans_lt hlt,
              fun union hu => hbefore union (List.mem_cons_of_mem _ hu)⟩⟩, hafter⟩

theorem max_integral (arg : Union Binary64) (h : ∀ union ∈ arg :: args, union.Integral) :
    ∃ found, max (arg :: args) = (found, none) ∧
      FirstGreatest (fun union => float64 union.integer) (arg :: args) found := by
  obtain ⟨cast, hcast, hf⟩ := castUnionType_float (h arg List.mem_cons_self)
  rw [max, extremumLoop, hcast]
  simp only [hf]
  exact extremumLoop_integral float64 (fun a b => lt_binary64 _ _) args arg
    fun union hu => h union (List.mem_cons_of_mem _ hu)

theorem min_integral (arg : Union Binary64) (h : ∀ union ∈ arg :: args, union.Integral) :
    ∃ found, min (arg :: args) = (found, none) ∧
      FirstGreatest (fun union => -float64 union.integer) (arg :: args) found := by
  obtain ⟨cast, hcast, hf⟩ := castUnionType_float (h arg List.mem_cons_self)
  rw [min, extremumLoop, hcast]
  simp only [hf]
  exact extremumLoop_integral (fun n => -float64 n)
    (fun a b => (lt_binary64 _ _).trans neg_lt_neg_iff.symm) args arg
    fun union hu => h union (List.mem_cons_of_mem _ hu)

/-! ## All comparisons -/

/-- A comparison that an expression asks for. -/
inductive Comparison where
  | chain (r : Relation) (args : List (Union Binary64))
  | compare (r : Relation) (reference : Union Binary64) (args : List (Union Binary64))
  | compareOr (r : Relation) (reference : Union Binary64) (args : List (Union Binary64))
  | compareAnd (r : Relation) (reference : Union Binary64) (args : List (Union Binary64))
  | max (args : List (Union Binary64))
  | min (args : List (Union Binary64))

namespace Comparison

/-- Whether all values of a comparison are integers. -/
def Integral : Comparison → Prop
  | chain _ args | max args | min args => ∀ union ∈ args, union.Integral
  | compare _ reference args | compareOr _ reference args | compareAnd _ reference args =>
    reference.Integral ∧ ∀ union ∈ args, union.Integral

/-- Whether a comparison returns what holds of the integers. -/
def Agrees : Comparison → Prop
  | chain r args =>
    r.function args =
      (.bool (decide ((integers args).IsChain fun a b => r.holds a b = true)), none)
  | compare r reference args =>
    GoMetrics.compare (.string r.operator) reference args =
      (args.map fun arg => .bool (r.holds arg.integer reference.integer), none)
  | compareOr r reference args =>
    GoMetrics.compareOr (.string r.operator) reference args =
      (.bool (args.any fun arg => r.holds arg.integer reference.integer), none)
  | compareAnd r reference args =>
    GoMetrics.compareAnd (.string r.operator) reference args =
      (.bool (args.all fun arg => r.holds arg.integer reference.integer), none)
  | max args =>
    ∃ found ∈ args, GoMetrics.max args = (found, none) ∧
      ∀ arg ∈ args, arg.integer ≤ found.integer
  | min args =>
    ∃ found ∈ args, GoMetrics.min args = (found, none) ∧
      ∀ arg ∈ args, found.integer ≤ arg.integer

/-- Whether the casts of a comparison merge no integers that matter:
there are values to compare, no chain loses or wins a pair, no value loses or wins its relation
to a reference where that decides, and of the values that are cast to the extreme number a
most extreme one comes first. -/
def Clear : Comparison → Prop
  | chain r args => 2 ≤ args.length ∧ ¬ r.LosesChain (integers args) ∧
      ¬ r.WinsChain (integers args)
  | compare r reference args => ∀ arg ∈ args, ¬ r.Loses arg.integer reference.integer ∧
      ¬ r.Wins arg.integer reference.integer
  | compareOr r reference args =>
    ((∃ arg ∈ args, r.holds arg.integer reference.integer = true) →
        ∃ arg ∈ args, r.holds arg.integer reference.integer = true ∧
          ¬ r.Loses arg.integer reference.integer) ∧
      ((∃ arg ∈ args, r.Wins arg.integer reference.integer) →
        ∃ arg ∈ args, r.holds arg.integer reference.integer = true)
  | compareAnd r reference args =>
    args ≠ [] ∧
      ((∀ arg ∈ args, r.holds arg.integer reference.integer = true) →
        ∀ arg ∈ args, ¬ r.Loses arg.integer reference.integer) ∧
      ((∀ arg ∈ args, r.holds arg.integer reference.integer = true ∨
          r.Wins arg.integer reference.integer) →
        ∀ arg ∈ args, r.holds arg.integer reference.integer = true)
  | max args => ∃ found, FirstGreatest (fun union => float64 union.integer) args found ∧
      ∀ arg ∈ args, arg.integer ≤ found.integer
  | min args => ∃ found, FirstGreatest (fun union => -float64 union.integer) args found ∧
      ∀ arg ∈ args, found.integer ≤ arg.integer

omit [Library Binary64] in
theorem bool_eq_iff (a b : Bool) :
    ((.bool a, none) : Returned (Union Binary64)) = (.bool b, none) ↔ (a = true ↔ b = true) := by
  rw [Prod.mk.injEq, and_iff_left rfl, ← Bool.eq_iff_iff]
  exact ⟨congrArg Union.b, congrArg Union.bool⟩

theorem chain_iff (r : Relation) {args : List (Union Binary64)}
    (h : ∀ union ∈ args, union.Integral) : (chain r args).Agrees ↔ (chain r args).Clear := by
  rcases Nat.lt_or_ge args.length 2 with hshort | hlong
  · -- The comparison fails, and the list is too short.
    have herr := r.function_short (Nat.lt_succ_iff.mp hshort)
    constructor
    · intro hagrees
      rw [Agrees] at hagrees
      rw [hagrees] at herr
      cases herr
    · intro hclear
      exact absurd hclear.1 (not_le.mpr hshort)
  · have hvalue : (chain r args).Agrees ↔
        ((integers args).IsChain (fun a b => r.holds (float64 a) (float64 b) = true) ↔
          (integers args).IsChain fun a b => r.holds a b = true) := by
      rw [Agrees, r.function_integral h hlong, bool_eq_iff, decide_eq_true_eq, decide_eq_true_eq]
    rw [hvalue, r.chain_float64_iff, Clear, and_iff_right hlong]

variable {reference : Union Binary64} {args : List (Union Binary64)}

theorem compare_iff (r : Relation) (hreference : reference.Integral)
    (h : ∀ union ∈ args, union.Integral) :
    (compare r reference args).Agrees ↔ (compare r reference args).Clear := by
  have hoperator : (Union.string r.operator : Union Binary64).s = r.operator := rfl
  rw [Agrees, GoMetrics.compare, if_neg (by simp [Union.string]), hoperator,
    r.comparisonOf_operator]
  dsimp only
  rw [compareLoop_integral r hreference args h]
  simp only [Prod.mk.injEq, and_true, List.map_inj_left, Union.bool, Union.mk.injEq, true_and]
  exact forall₂_congr fun arg _ => r.holds_float64_eq_iff _ _

theorem compareOr_iff (r : Relation) (hreference : reference.Integral)
    (h : ∀ union ∈ args, union.Integral) :
    (compareOr r reference args).Agrees ↔ (compareOr r reference args).Clear := by
  rw [Agrees, compareOr_integral r hreference h, bool_eq_iff]
  simp only [List.any_eq_true, r.holds_float64_iff]
  constructor
  · intro hiff
    refine ⟨fun hholds => ?_, fun ⟨arg, harg, hwins⟩ => hiff.mp ⟨arg, harg, Or.inr hwins⟩⟩
    obtain ⟨arg, harg, hshown | hwins⟩ := hiff.mpr hholds
    · exact ⟨arg, harg, hshown⟩
    · -- A relation that is won is not strict, so that it is never lost.
      obtain ⟨arg', harg', hholds⟩ := hholds
      exact ⟨arg', harg', hholds, hwins.not_loses⟩
  · rintro ⟨hloses, hwins⟩
    constructor
    · rintro ⟨arg, harg, hshown | hwon⟩
      · exact ⟨arg, harg, hshown.1⟩
      · exact hwins ⟨arg, harg, hwon⟩
    · intro hholds
      obtain ⟨arg, harg, hshown⟩ := hloses hholds
      exact ⟨arg, harg, Or.inl hshown⟩

theorem compareAnd_iff (r : Relation) (hreference : reference.Integral)
    (h : ∀ union ∈ args, union.Integral) :
    (compareAnd r reference args).Agrees ↔ (compareAnd r reference args).Clear := by
  rw [Agrees, compareAnd_integral r hreference h, bool_eq_iff, Clear]
  cases args with
  | nil => simp
  | cons arg args =>
    simp only [List.isEmpty_cons, Bool.not_false, Bool.true_and, List.all_eq_true,
      r.holds_float64_iff, ne_eq, reduceCtorEq, not_false_eq_true, true_and]
    constructor
    · intro hiff
      refine ⟨fun hholds other hother => ?_, fun hboth => hiff.mp fun other hother => ?_⟩
      · rcases hiff.mpr hholds other hother with hshown | hwon
        · exact hshown.2
        · exact hwon.not_loses
      · rcases hboth other hother with hholds | hwon
        · by_cases hloses : r.Loses other.integer reference.integer
          · -- A strict relation is never won, so that it holds of every argument.
            have hall : ∀ arg' ∈ arg :: args, r.holds arg'.integer reference.integer = true :=
              fun arg' harg' => (hboth arg' harg').resolve_right fun hwon =>
                hwon.not_loses hloses
            exact hiff.mpr hall other hother
          · exact Or.inl ⟨hholds, hloses⟩
        · exact Or.inr hwon
    · rintro ⟨hloses, hwins⟩
      constructor
      · intro hshown
        exact hwins fun other hother => (hshown other hother).imp_left And.left
      · intro hholds other hother
        exact Or.inl ⟨hholds other hother, hloses hholds other hother⟩

omit [Library Binary64] in
/-- An extremum agrees when the element that the loop finds is one. -/
theorem extremum_iff (key : ℤ → ℚ) {found : Union Binary64} {returned : Returned (Union Binary64)}
    {better : Union Binary64 → Union Binary64 → Prop} (hreturned : returned = (found, none))
    (hfound : FirstGreatest (fun union => key union.integer) args found) :
    (∃ other ∈ args, returned = (other, none) ∧ ∀ arg ∈ args, better arg other) ↔
      ∃ other, FirstGreatest (fun union => key union.integer) args other ∧
        ∀ arg ∈ args, better arg other := by
  constructor
  · rintro ⟨other, -, hother, hbetter⟩
    obtain ⟨rfl, -⟩ := Prod.mk.inj (hreturned.symm.trans hother)
    exact ⟨found, hfound, hbetter⟩
  · rintro ⟨other, hother, hbetter⟩
    obtain rfl := hfound.unique hother
    obtain ⟨before, after, hargs, -⟩ := hfound
    exact ⟨found, by simp [hargs], hreturned, hbetter⟩

/-- Comparisons agree with the integers exactly when the casts to floating-point numbers merge
no integers that matter. -/
theorem agrees_iff_clear (comparison : Comparison) (h : comparison.Integral) :
    comparison.Agrees ↔ comparison.Clear := by
  cases comparison with
  | chain r args => exact chain_iff r h
  | compare r reference args => exact compare_iff r h.1 h.2
  | compareOr r reference args => exact compareOr_iff r h.1 h.2
  | compareAnd r reference args => exact compareAnd_iff r h.1 h.2
  | max args =>
    cases args with
    | nil => simp [Agrees, Clear, FirstGreatest]
    | cons arg args =>
      obtain ⟨found, hmax, hfound⟩ := max_integral arg h
      exact extremum_iff float64 hmax hfound
  | min args =>
    cases args with
    | nil => simp [Agrees, Clear, FirstGreatest]
    | cons arg args =>
      obtain ⟨found, hmin, hfound⟩ := min_integral arg h
      exact extremum_iff (fun n => -float64 n) hmin hfound

omit [Library Binary64] in
/-- A truth value, an unsigned and a signed integer in ascending order. -/
theorem agrees_iff_clear_ascending :
    @Agrees binary64Library (.chain .lt [.bool true, .uint 2, .int 1000]) := by
  refine (@agrees_iff_clear binary64Library _ ?_).mpr ?_
  · simp [Integral, Union.Integral, Union.bool, Union.uint, Union.int]
  · refine ⟨by simp, ?_, ?_⟩
    · intro h
      exact h.2 (by decide +kernel)
    · intro h
      exact h.1 (by decide +kernel)

omit [Library Binary64] in
/-- Two integers beyond 53 bits that differ by one count as equal. -/
theorem agrees_fails :
    ¬ @Agrees binary64Library (.chain .eq [.int 9007199254740992, .int 9007199254740993]) := by
  intro hagrees
  have hclear := (@chain_iff binary64Library .eq
    [.int 9007199254740992, .int 9007199254740993] (by simp [Union.Integral, Union.int])).mp hagrees
  exact hclear.2.2 ⟨by decide +kernel, by decide +kernel⟩

end Comparison

end HybridOs.GoMetrics
