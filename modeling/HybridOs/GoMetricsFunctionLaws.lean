import HybridOs.GoMetricsCanonical
import HybridOs.GoMetricsWindowRuns
import Mathlib.Algebra.Order.Ring.GeomSum
import Mathlib.Data.Nat.BitIndices

/-!
# What the functions over a window of time return

A run of calls with a clock that does not go back. The points that are held are those of the
calls in the window, so that every call whose search is sound returns what its function says
of the window, as long as there are empty places.
-/

namespace HybridOs.GoMetrics

/-! ## The order of values -/

/-- A value is at least as great as another, by their type. -/
def atLeast (tag : DataType) (a b : Union ℚ) : Prop :=
  match tag with
  | .BOOL => b.b = true → a.b = true
  | .UINT => b.ui ≤ a.ui
  | .INT => b.i ≤ a.i
  | .FLOAT => b.f ≤ a.f
  | _ => True

variable {tag : DataType}

/-- A function that replaces the best value by every value at least as great follows the order,
where the empty place replaces the beginning. -/
theorem Extremum.follows_of_key {extremum : Extremum ℚ} {order : Union ℚ → Union ℚ → Prop}
    {α : Type} [LinearOrder α] (key : Union ℚ → α) (horder : ∀ a b, order a b ↔ key b ≤ key a)
    (hreplaces : ∀ a b, extremum.replaces tag a b = true ↔ order a b)
    (hstart : ∀ best, extremum.replaces tag .nil (extremum.start tag best) = true) :
    extremum.Follows tag order := by
  have hnot a b : extremum.replaces tag a b = false ↔ key a < key b := by
    rw [← Bool.not_eq_true, hreplaces, horder, not_le]
  constructor
  · exact fun a => (horder a a).2 le_rfl
  · exact fun a b c hab hbc => (horder a c).2 (((horder b c).1 hbc).trans ((horder a b).1 hab))
  · exact fun a b => (hreplaces a b).1
  · exact fun a b h => (horder b a).2 ((hnot a b).1 h).le
  · exact fun a b hab ha => (hnot .nil b).2 (((hnot .nil a).1 ha).trans_le ((horder b a).1 hab))
  · exact fun a best _ hnil => absurd (hstart best) (ne_true_of_eq_false hnil)

/-- The maximum over a window follows the order of values. -/
theorem maxOverTimescale_follows (htag : tag.isOrdered = true) :
    (maxOverTimescale : Extremum ℚ).Follows tag (atLeast tag) := by
  have hordered : tag = .BOOL ∨ tag = .UINT ∨ tag = .INT ∨ tag = .FLOAT := by
    cases tag <;> simp_all [DataType.isOrdered]
  rcases hordered with rfl | rfl | rfl | rfl
  · constructor <;> simp [maxOverTimescale, atLeast] <;> grind
  · apply Extremum.follows_of_key fun a => a.ui.toNat
    · exact fun a b => UInt64.le_iff_toNat_le
    · simp [maxOverTimescale, atLeast]
    · simp [maxOverTimescale, Union.uint]
  · apply Extremum.follows_of_key fun a => a.i.toInt
    · exact fun a b => Int64.le_iff_toInt_le
    · simp [maxOverTimescale, atLeast]
    · have hle : minInt64 ≤ 0 := by decide
      exact fun _ => decide_eq_true hle
  · apply Extremum.follows_of_key Union.f
    · exact fun a b => Iff.rfl
    · simp [maxOverTimescale, atLeast, Float64.le]
    · have hle : -((2 ^ 63 - 1 : ℤ) : ℚ) ≤ 0 := by norm_num
      exact fun _ => decide_eq_true hle

/-- The minimum over a window follows the opposite order. -/
theorem minOverTimescale_follows (htag : tag.isOrdered = true) :
    (minOverTimescale : Extremum ℚ).Follows tag (fun a b => atLeast tag b a) := by
  have hordered : tag = .BOOL ∨ tag = .UINT ∨ tag = .INT ∨ tag = .FLOAT := by
    cases tag <;> simp_all [DataType.isOrdered]
  rcases hordered with rfl | rfl | rfl | rfl
  · constructor <;> simp [minOverTimescale, atLeast] <;> grind
  · apply Extremum.follows_of_key fun a => OrderDual.toDual a.ui.toNat
    · exact fun a b => UInt64.le_iff_toNat_le
    · simp [minOverTimescale, atLeast]
    · simp [minOverTimescale, Union.nil]
  · apply Extremum.follows_of_key fun a => OrderDual.toDual a.i.toInt
    · exact fun a b => Int64.le_iff_toInt_le
    · simp [minOverTimescale, atLeast]
    · have hle : 0 ≤ maxInt64 := by decide
      exact fun _ => decide_eq_true hle
  · apply Extremum.follows_of_key fun a => OrderDual.toDual a.f
    · exact fun a b => Iff.rfl
    · simp [minOverTimescale, atLeast, Float64.le]
    · have hle : (0 : ℚ) ≤ maxFloat64 := by norm_num [maxFloat64]
      exact fun _ => decide_eq_true hle

/-! ## The points and the calls of a window -/

section Recent

variable {F : Type}

/-- Whether a call is in the window of a time. -/
def inWindow (timescale now : Int64) (call : Call F) : Bool :=
  now.toInt - timescale.toInt ≤ call.at_.toInt

/-- The inputs in the window of a time. -/
def window (timescale now : Int64) (calls : List (Call F)) : List (Union F) :=
  (calls.filter (inWindow timescale now)).map Call.input

/-- Points that stand for the calls of a history in every window from its end on. -/
structure Recent (timescale : Int64) (points history : List (Call F)) : Prop where
  sorted : points.Pairwise fun a b => a.at_ ≤ b.at_
  mem : ∀ point ∈ points, point ∈ history
  nonzero : ∀ point ∈ points, point.at_ ≠ 0
  same : ∀ now, (∀ call ∈ history, call.at_ ≤ now) →
    points.filter (inWindow timescale now) = history.filter (inWindow timescale now)

theorem recent_nil (timescale : Int64) : Recent timescale ([] : List (Call F)) [] := by
  constructor <;> simp

variable {timescale : Int64}

/-- A call is older than a window exactly where it is not in it. -/
theorem isOlder_eq {now : Int64} (hpos : 0 < timescale)
    (hfits : -2 ^ 63 ≤ now.toInt - timescale.toInt) {call : Call F} (hnonzero : call.at_ ≠ 0) :
    call.isOlder now timescale = !inWindow timescale now call := by
  have hsub : (now - timescale).toInt = now.toInt - timescale.toInt := by
    have hnow := Int64.toInt_lt now
    rw [Int64.lt_iff_toInt_lt, Int64.toInt_zero] at hpos
    rw [Int64.toInt_sub]
    exact Int.bmod_eq_of_le (by omega) (by omega)
  have hiff : call.at_ < now - timescale ↔ ¬ now.toInt - timescale.toInt ≤ call.at_.toInt := by
    rw [Int64.lt_iff_toInt_lt, hsub]
    omega
  have hne : (call.at_ != 0) = true := by simpa using hnonzero
  rw [Call.isOlder, hne, Bool.true_and, decide_eq_decide.2 hiff, decide_not, inWindow]

/-- In a list in order, what follows the first member is the list of members. -/
theorem dropWhile_eq_filter {α : Type} {p : α → Bool} {list : List α}
    (h : list.Pairwise fun a b => p a = true → p b = true) :
    (list.dropWhile fun a => !p a) = list.filter p := by
  induction list with
  | nil => rfl
  | cons a list ih =>
    obtain ⟨hhead, htail⟩ := List.pairwise_cons.1 h
    by_cases ha : p a = true
    · have hall : list.filter p = list := List.filter_eq_self.2 fun b hb => hhead b hb ha
      simp [ha, hall]
    · simp only [Bool.not_eq_true] at ha
      simp [ha, ih htail]

theorem inWindow_mono {first last : Int64} (h : first ≤ last) {call : Call F}
    (hcall : inWindow timescale last call = true) : inWindow timescale first call = true := by
  rw [Int64.le_iff_toInt_le] at h
  simp only [inWindow, decide_eq_true_eq] at hcall ⊢
  omega

/-- The points that stay at a call are the calls of its window. -/
theorem Recent.dropWhile_eq (hpos : 0 < timescale) {points history : List (Call F)}
    (h : Recent timescale points history) {now : Int64} (hlast : ∀ call ∈ history, call.at_ ≤ now)
    (hfits : -2 ^ 63 ≤ now.toInt - timescale.toInt) :
    points.dropWhile (Call.isOlder now timescale) = history.filter (inWindow timescale now) := by
  have holder : points.dropWhile (Call.isOlder now timescale) =
      points.dropWhile fun call => !inWindow timescale now call := by
    have hagree : ∀ point ∈ points, Call.isOlder now timescale point =
        !inWindow timescale now point := fun point hpoint =>
      isOlder_eq hpos hfits (h.nonzero point hpoint)
    clear h
    induction points with
    | nil => rfl
    | cons point points ih =>
      have hpoint := hagree point List.mem_cons_self
      have hrest := ih fun q hq => hagree q (List.mem_cons_of_mem _ hq)
      simp only [List.dropWhile_cons, hpoint, hrest]
  have hmono : points.Pairwise fun a b =>
      inWindow timescale now a = true → inWindow timescale now b = true := by
    refine h.sorted.imp fun {a b} hle ha => ?_
    rw [Int64.le_iff_toInt_le] at hle
    simp only [inWindow, decide_eq_true_eq] at ha ⊢
    omega
  rw [holder, dropWhile_eq_filter hmono, h.same now hlast]

/-- After a call the points that stay and the current one stand for the longer history. -/
theorem Recent.append {points history : List (Call F)} (h : Recent timescale points history)
    {call : Call F} (hlast : ∀ earlier ∈ history, earlier.at_ ≤ call.at_) (hnonzero : call.at_ ≠ 0)
    (hkept : points.dropWhile (Call.isOlder call.at_ timescale) =
      history.filter (inWindow timescale call.at_)) :
    Recent timescale (points.dropWhile (Call.isOlder call.at_ timescale) ++ [call])
      (history ++ [call]) := by
  have hsublist : (points.dropWhile (Call.isOlder call.at_ timescale)).Sublist points :=
    List.dropWhile_sublist _
  constructor
  · refine List.pairwise_append.2 ⟨h.sorted.sublist hsublist, List.pairwise_singleton _ _, ?_⟩
    intro point hpoint other hother
    rw [List.mem_singleton.1 hother]
    exact hlast point (h.mem point (hsublist.subset hpoint))
  · intro point hpoint
    rcases List.mem_append.1 hpoint with hpoint | hpoint
    · exact List.mem_append_left _ (h.mem point (hsublist.subset hpoint))
    · exact List.mem_append_right _ hpoint
  · intro point hpoint
    rcases List.mem_append.1 hpoint with hpoint | hpoint
    · exact h.nonzero point (hsublist.subset hpoint)
    · rw [List.mem_singleton.1 hpoint]
      exact hnonzero
  · intro now hnow
    have hcall : call.at_ ≤ now := hnow call (by simp)
    rw [hkept, List.filter_append, List.filter_append, List.filter_filter]
    congr 1
    apply List.filter_congr
    intro earlier _
    have hmono : inWindow timescale now earlier = true →
        inWindow timescale call.at_ earlier = true := inWindow_mono hcall
    grind

/-- A call is in its own window. -/
theorem window_append (hpos : 0 < timescale) (history : List (Call F)) (call : Call F) :
    window timescale call.at_ (history ++ [call]) =
      ((history.filter (inWindow timescale call.at_)) ++ [call]).map Call.input := by
  have hcurrent : inWindow timescale call.at_ call = true := by
    rw [Int64.lt_iff_toInt_lt, Int64.toInt_zero] at hpos
    simp only [inWindow, decide_eq_true_eq]
    omega
  simp [window, hcurrent]

end Recent

/-! ## Runs -/

/-- The functions over a window of time. -/
inductive WindowFunction where
  | maxOverTimescale
  | minOverTimescale
  | avgOverTimescale
  | sumOverTimescale
  | valueChangedOverTimescale
  deriving DecidableEq

/-- The state of a metric between two calls, and the calls so far. -/
structure Session where
  state : StateRef ℚ
  history : List (Call ℚ)

namespace Session

/-- A window between two calls of a function. -/
def Held (function : WindowFunction) (tag : DataType) (milliseconds : Int64) (space : ℕ)
    (points : List (Call ℚ)) (held : Option (State ℚ)) : Prop :=
  match function with
  | .maxOverTimescale =>
    Extremum.Holding maxOverTimescale (atLeast tag) milliseconds space points held
  | .minOverTimescale =>
    Extremum.Holding minOverTimescale (fun a b => atLeast tag b a) milliseconds space points held
  | _ => Holding milliseconds space points held

/-- What holds between two calls: every call so far took a place, and the points stand for
the calls. -/
def Keeps (function : WindowFunction) (tag : DataType) (milliseconds : Int64)
    (session : Session) : Prop :=
  ∃ held space points, session.state = some held ∧
    space + session.history.length = milliseconds.toInt.toNat ∧
    Recent milliseconds points session.history ∧ Held function tag milliseconds space points held

/-- A session before its first call. -/
theorem keeps_begin (function : WindowFunction) (tag : DataType) (milliseconds : Int64)
    {held : Option (State ℚ)} (hnone : (held.getD .empty).entry "timestamps" = []) :
    Keeps function tag milliseconds ⟨some held, []⟩ := by
  have hholding : Holding milliseconds milliseconds.toInt.toNat ([] : List (Call ℚ)) held :=
    Or.inl ⟨rfl, rfl, hnone⟩
  refine ⟨held, milliseconds.toInt.toNat, [], rfl, by simp, recent_nil milliseconds, ?_⟩
  have hremember : ∀ state : State ℚ, held = some state → state.entry "timestamps" ≠ [] →
      False := by
    rintro state rfl hne
    exact hne hnone
  cases function with
  | maxOverTimescale | minOverTimescale =>
    exact ⟨hholding, fun state hs hne => (hremember state hs hne).elim⟩
  | avgOverTimescale | sumOverTimescale | valueChangedOverTimescale => exact hholding

/-- The values that an aggregate computes from are those of the points. -/
theorem take_points (kept : List (Call ℚ)) (call : Call ℚ) (space : ℕ) :
    ((kept ++ [call]).map Call.input ++ List.replicate space (Union.nil : Union ℚ)).take
      (kept.length + 1) = (kept ++ [call]).map Call.input :=
  List.take_left' (by simp)

theorem same_self (value : Union ℚ) : value.same value = true := by
  simp [Union.same, Float64.eq]

end Session

section Runs

variable [Library ℚ]

namespace WindowFunction

/-- A call of a function. -/
def call (function : WindowFunction) (timescale : Union ℚ) (call : Call ℚ)
    (state : StateRef ℚ) : Stateful ℚ :=
  match function with
  | .maxOverTimescale => Extremum.call GoMetrics.maxOverTimescale call.input timescale call.at_ state
  | .minOverTimescale => Extremum.call GoMetrics.minOverTimescale call.input timescale call.at_ state
  | .avgOverTimescale => Aggregate.call GoMetrics.avgOverTimescale call.input timescale call.at_ state
  | .sumOverTimescale => Aggregate.call GoMetrics.sumOverTimescale call.input timescale call.at_ state
  | .valueChangedOverTimescale =>
    Aggregate.call GoMetrics.valueChangedOverTimescale call.input timescale call.at_ state

/-- The inputs that a function accepts in a run over values of a type. -/
def Accepts (function : WindowFunction) (tag : DataType) (input : Union ℚ) : Prop :=
  match function with
  | .maxOverTimescale => input.tag = tag ∧ tag.isOrdered = true
  | .minOverTimescale => input.tag = tag ∧ tag.isOrdered = true
  | .avgOverTimescale => input.tag.isNumeric = true
  | .sumOverTimescale => input.tag.isOrdered = true
  | .valueChangedOverTimescale => True

/-- What a call returns: the maximum, the minimum, the average, the sum of the values in the
window, or whether one of them differs from the current one. -/
def Returns (function : WindowFunction) (values : List (Union ℚ)) (input : Union ℚ)
    (returned : Returned (Union ℚ)) : Prop :=
  match function with
  | .maxOverTimescale => returned.2 = none ∧ returned.1 ∈ values ∧
      ∀ value ∈ values, atLeast input.tag returned.1 value
  | .minOverTimescale => returned.2 = none ∧ returned.1 ∈ values ∧
      ∀ value ∈ values, atLeast input.tag value returned.1
  | .avgOverTimescale => returned = avg values
  | .sumOverTimescale => returned = add values
  | .valueChangedOverTimescale =>
    returned = (.bool (values.any fun value => !value.same input), none)

end WindowFunction

namespace Session

/-- A call within a session, where it returns. -/
def step (function : WindowFunction) (timescale : Union ℚ) (session : Session)
    (call : Call ℚ) : Except Unit Session :=
  match function.call timescale call session.state with
  | some (_, state) => .ok ⟨state, session.history ++ [call]⟩
  | none => .error ()

/-- A call returns what its function says of the values in the window. -/
def Right (function : WindowFunction) (timescale : Union ℚ) (milliseconds : Int64)
    (session : Session) (call : Call ℚ) : Prop :=
  ∃ returned state, function.call timescale call session.state = some (returned, state) ∧
    function.Returns (window milliseconds call.at_ (session.history ++ [call])) call.input
      returned

/-- When a call is served: there have been fewer calls than the window has milliseconds, the
clock does not read zero or less than a window after the least time, and the search of a
maximum or minimum is sound. -/
def Serves (function : WindowFunction) (milliseconds : Int64) (session : Session)
    (call : Call ℚ) : Prop :=
  session.history.length < milliseconds.toInt.toNat ∧ call.at_ ≠ 0 ∧
  -2 ^ 63 ≤ call.at_.toInt - milliseconds.toInt ∧
  match function with
  | .maxOverTimescale => Extremum.SearchIsSound maxOverTimescale (atLeast call.input.tag)
      milliseconds call session.state.join
  | .minOverTimescale => Extremum.SearchIsSound minOverTimescale
      (fun a b => atLeast call.input.tag b a) milliseconds call session.state.join
  | _ => True

section Step

variable {function : WindowFunction} {tag : DataType} {timescale cast : Union ℚ}
  {session : Session} {call : Call ℚ} {space : ℕ} {points : List (Call ℚ)}
  {held : Option (State ℚ)}

/-- A call of an aggregate returns what it computes from the points and the current one. -/
theorem aggregate_call (aggregate : Aggregate ℚ) (hcast : castUnionType timescale .INT = .ok cast)
    (hpos : 0 < cast.i) (haccepts : aggregate.rejects call.input.tag = none)
    (hholding : Holding cast.i (space + 1) points held) :
    ∃ after : State ℚ,
      aggregate.call call.input timescale call.at_ (some held) =
        some (aggregate.compute
          ((points.dropWhile (Call.isOlder call.at_ cast.i) ++ [call]).map Call.input ++
            List.replicate space Union.nil)
          (points.dropWhile (Call.isOlder call.at_ cast.i)).length call.input,
          some (some after)) ∧
      Holding cast.i space (points.dropWhile (Call.isOlder call.at_ cast.i) ++ [call])
        (some after) := by
  obtain ⟨after, hstep, hafter⟩ := aggregate.step_holding hpos hholding call
  refine ⟨after, ?_, hafter⟩
  rw [Aggregate.call, haccepts, hcast]
  simp only [hstep, Option.map_some]

section

variable (hcast : castUnionType timescale .INT = .ok cast) (hpos : 0 < cast.i)
include hcast hpos

/-- A call of an extremum returns a best one of the points and the current one. -/
theorem extremum_call {extremum : Extremum ℚ} {order : Union ℚ → Union ℚ → Prop}
    (haccepts : call.input.tag.isOrdered = true) (hfollows : extremum.Follows call.input.tag order)
    (hkey : extremum.indexKey ∉ State.windowKeys) (hahead : extremum.ahead ≤ 1)
    (hholding : extremum.Holding order cast.i (space + 1) points held)
    (hsound : extremum.SearchIsSound order cast.i call held) :
    ∃ (returned : Union ℚ) (after : State ℚ),
      extremum.call call.input timescale call.at_ (some held) =
        some ((returned, none), some (some after)) ∧
      returned ∈ (points.dropWhile (Call.isOlder call.at_ cast.i) ++ [call]).map Call.input ∧
      (∀ value ∈ (points.dropWhile (Call.isOlder call.at_ cast.i) ++ [call]).map Call.input,
        order returned value) ∧
      extremum.Holding order cast.i space
        (points.dropWhile (Call.isOlder call.at_ cast.i) ++ [call]) (some after) := by
  obtain ⟨returned, after, hstep, ⟨chosen, hchosen, hinput⟩, hbest, hafter⟩ :=
    Extremum.step_holding hpos hfollows hkey hahead hholding hsound
  have hallowed : ¬ (call.input.tag = .STRING ∨ call.input.tag = .NIL) := by
    rintro (htag | htag) <;> simp [htag, DataType.isOrdered] at haccepts
  refine ⟨returned, after, ?_, List.mem_map.2 ⟨chosen, hchosen, hinput⟩, ?_, hafter⟩
  · rw [Extremum.call, if_neg hallowed, hcast]
    simp only [hstep, Option.map_some]
  · intro value hvalue
    obtain ⟨point, hpoint, rfl⟩ := List.mem_map.1 hvalue
    exact hbest point hpoint

/-- A call that is served returns what its function says of the window. -/
theorem call_held (haccepts : function.Accepts tag call.input)
    (hserves : Serves function cast.i session call) (hstate : session.state = some held)
    (hholding : Held function tag cast.i (space + 1) points held) :
    ∃ (returned : Returned (Union ℚ)) (after : State ℚ),
      function.call timescale call (some held) = some (returned, some (some after)) ∧
      function.Returns
        ((points.dropWhile (Call.isOlder call.at_ cast.i) ++ [call]).map Call.input) call.input
        returned ∧
      Held function tag cast.i space
        (points.dropWhile (Call.isOlder call.at_ cast.i) ++ [call]) (some after) := by
  obtain ⟨-, -, -, hsound⟩ := hserves
  rw [hstate] at hsound
  cases function with
  | maxOverTimescale =>
    obtain ⟨htag, hordered⟩ := haccepts
    subst htag
    obtain ⟨returned, after, hcall, hmem, hbest, hafter⟩ :=
      extremum_call hcast hpos hordered (maxOverTimescale_follows hordered)
        (by simp [maxOverTimescale, State.windowKeys]) (by simp [maxOverTimescale]) hholding
        hsound
    exact ⟨_, after, hcall, ⟨rfl, hmem, hbest⟩, hafter⟩
  | minOverTimescale =>
    obtain ⟨htag, hordered⟩ := haccepts
    subst htag
    obtain ⟨returned, after, hcall, hmem, hbest, hafter⟩ :=
      extremum_call hcast hpos hordered (minOverTimescale_follows hordered)
        (by simp [minOverTimescale, State.windowKeys]) (by simp [minOverTimescale]) hholding
        hsound
    exact ⟨_, after, hcall, ⟨rfl, hmem, hbest⟩, hafter⟩
  | avgOverTimescale =>
    have hrejects : (avgOverTimescale : Aggregate ℚ).rejects call.input.tag = none := by
      simp only [WindowFunction.Accepts, DataType.isNumeric, decide_eq_true_eq] at haccepts
      rcases haccepts with htag | htag | htag <;> simp [avgOverTimescale, htag]
    obtain ⟨after, hcall, hafter⟩ :=
      aggregate_call avgOverTimescale hcast hpos hrejects hholding
    refine ⟨_, after, hcall, ?_, hafter⟩
    simp only [WindowFunction.Returns, avgOverTimescale, take_points]
  | sumOverTimescale =>
    have hrejects : (sumOverTimescale : Aggregate ℚ).rejects call.input.tag = none := by
      simp only [WindowFunction.Accepts, DataType.isOrdered, decide_eq_true_eq] at haccepts
      simp [sumOverTimescale, haccepts.1, haccepts.2]
    obtain ⟨after, hcall, hafter⟩ :=
      aggregate_call sumOverTimescale hcast hpos hrejects hholding
    refine ⟨_, after, hcall, ?_, hafter⟩
    simp only [WindowFunction.Returns, sumOverTimescale, take_points]
  | valueChangedOverTimescale =>
    obtain ⟨after, hcall, hafter⟩ :=
      aggregate_call valueChangedOverTimescale hcast hpos rfl hholding
    refine ⟨_, after, hcall, ?_, hafter⟩
    simp [WindowFunction.Returns, valueChangedOverTimescale, same_self]

/-- A call that is served is right, and leaves a session that keeps its points. -/
theorem step_right (haccepts : function.Accepts tag call.input)
    (hclock : ∀ earlier ∈ session.history, earlier.at_ ≤ call.at_)
    (hserves : Serves function cast.i session call) (hkeeps : Keeps function tag cast.i session) :
    Right function timescale cast.i session call ∧
      ∀ next, step function timescale session call = .ok next → Keeps function tag cast.i next := by
  obtain ⟨held, space, points, hstate, hspace, hrecent, hholding⟩ := hkeeps
  have hroom := hserves.1
  obtain ⟨rest, rfl⟩ : ∃ rest, space = rest + 1 := ⟨space - 1, by omega⟩
  obtain ⟨returned, after, hcall, hreturns, hafter⟩ :=
    call_held hcast hpos haccepts hserves hstate hholding
  have hkept := hrecent.dropWhile_eq hpos hclock hserves.2.2.1
  constructor
  · refine ⟨returned, some (some after), by rw [hstate, hcall], ?_⟩
    rw [window_append hpos, ← hkept]
    exact hreturns
  · intro next hnext
    rw [step, hstate, hcall] at hnext
    obtain rfl := Except.ok.inj hnext
    refine ⟨some after, rest, _, rfl, ?_, hrecent.append hclock hserves.2.1 hkept, hafter⟩
    simp only [List.length_append, List.length_singleton]
    omega

end

end Step

/-- A run whose clock does not go back and whose inputs are accepted, call after call. -/
theorem guarded_admissible {function : WindowFunction} {timescale : Union ℚ} {milliseconds : Int64}
    {calls : List (Call ℚ)} {session : Session}
    (haccepts : ∀ call ∈ calls, function.Accepts tag call.input)
    (hclock : (session.history ++ calls).Pairwise fun a b => a.at_ ≤ b.at_)
    (hserves : CheckedRun.Guarded (step function timescale) (Serves function milliseconds)
      session calls) :
    CheckedRun.Guarded (step function timescale) (fun session call =>
      function.Accepts tag call.input ∧
        (∀ earlier ∈ session.history, earlier.at_ ≤ call.at_) ∧
        Serves function milliseconds session call) session calls := by
  induction calls generalizing session with
  | nil => trivial
  | cons call calls ih =>
    have hearlier : ∀ earlier ∈ session.history, earlier.at_ ≤ call.at_ := fun earlier hmem =>
      (List.pairwise_append.1 hclock).2.2 earlier hmem call List.mem_cons_self
    refine ⟨⟨haccepts call List.mem_cons_self, hearlier, hserves.1⟩, ?_⟩
    intro next hnext
    have hhistory : next.history = session.history ++ [call] := by
      rw [step] at hnext
      split at hnext
      · obtain rfl := Except.ok.inj hnext
        rfl
      · cases hnext
    refine ih (fun later hmem => haccepts later (List.mem_cons_of_mem _ hmem)) ?_
      (hserves.2 next hnext)
    rw [hhistory, List.append_assoc, List.singleton_append]
    exact hclock

/-- In a run of calls each of which is served, every call returns what its function says of
the values in the window. -/
theorem right_of_serves (function : WindowFunction) (tag : DataType) {timescale cast : Union ℚ}
    (hcast : castUnionType timescale .INT = .ok cast) (hpos : 0 < cast.i)
    {held : Option (State ℚ)} (hnone : (held.getD .empty).entry "timestamps" = [])
    {calls : List (Call ℚ)} (haccepts : ∀ call ∈ calls, function.Accepts tag call.input)
    (hclock : calls.Pairwise fun a b => a.at_ ≤ b.at_)
    (hserves : CheckedRun.Guarded (step function timescale) (Serves function cast.i)
      ⟨some held, []⟩ calls) :
    CheckedRun.Guarded (step function timescale) (Right function timescale cast.i)
      ⟨some held, []⟩ calls := by
  refine CheckedRun.guarded_law (Keeps function tag cast.i) ?_
    (keeps_begin function tag cast.i hnone) (guarded_admissible haccepts hclock hserves)
  rintro session call hkeeps ⟨haccept, hearlier, hserve⟩
  exact step_right hcast hpos haccept hearlier hserve hkeeps

end Session

end Runs

/-- A library for inputs that need no texts of numbers and no functions of real numbers. -/
@[reducible]
def plainLibrary : Library ℚ where
  parseFloat _ := (0, false)
  sprintF _ := ""
  sprintF2 _ := ""
  sqrt x := x
  pow x _ := x
  min x y := if x < y then x else y
  rfc3339 _ := ""
  toLower text := text

namespace Session

/-- A window of one millisecond does not serve a second call, and a window of ten returns
`-9` where it holds `-7` and `-9`. -/
theorem right_of_serves_fails :
    ¬ CheckedRun.Guarded (@step plainLibrary .avgOverTimescale (.int 1))
      (@Right plainLibrary .avgOverTimescale (.int 1) 1) ⟨some none, []⟩
      [⟨1, .uint 7⟩, ⟨2, .uint 7⟩] ∧
    ¬ CheckedRun.Guarded (@step plainLibrary .maxOverTimescale (.int 10))
      (@Right plainLibrary .maxOverTimescale (.int 10) 10) ⟨some none, []⟩
      [⟨1, .int (-5)⟩, ⟨5, .int (-7)⟩, ⟨13, .int (-9)⟩] := by
  constructor
  · intro h
    obtain ⟨returned, state, hcall, -⟩ := (h.2 _ rfl).1
    cases hcall
  · intro h
    obtain ⟨returned, state, hcall, -, -, hbest⟩ := ((h.2 _ rfl).2 _ rfl).1
    have hreturned : returned.1 = .int (-9) := by
      have hfirst := congrArg (Option.map fun result => result.1.1) hcall
      exact (Option.some.inj hfirst).symm
    have hgreatest := hbest (.int (-7)) (List.mem_map.2 ⟨⟨5, .int (-7)⟩,
      List.mem_filter.2 ⟨List.mem_cons_of_mem _ List.mem_cons_self, rfl⟩, rfl⟩)
    rw [hreturned] at hgreatest
    have hle : (-7 : Int64) ≤ -9 := hgreatest
    exact absurd hle (by decide)

/-- Three calls of a maximum over ten milliseconds, the last of which removes a point. -/
theorem right_of_serves_three :
    CheckedRun.Guarded (@step plainLibrary .maxOverTimescale (.int 10))
      (@Right plainLibrary .maxOverTimescale (.int 10) 10) ⟨some none, []⟩
      [⟨1, .int 3⟩, ⟨5, .int 7⟩, ⟨13, .int 4⟩] := by
  refine @right_of_serves plainLibrary .maxOverTimescale .INT (.int 10) (.int 10) rfl
    (by decide) none rfl _ ?_ (by decide) ?_
  · simp [WindowFunction.Accepts, Union.int, DataType.isOrdered]
  · refine ⟨⟨by decide, by decide, by decide, ?_⟩, fun first hfirst => ?_⟩
    · intro held hheld
      cases hheld
    · cases hfirst
      refine ⟨⟨by decide, by decide, by decide, ?_⟩, fun second hsecond => ?_⟩
      · intro held hheld
        cases hheld
        intro _ _ _ _ holder
        exact absurd holder (by decide)
      · cases hsecond
        refine ⟨⟨by decide, by decide, by decide, ?_⟩, fun _ _ => trivial⟩
        intro held hheld
        cases hheld
        intro _ _ _ _ _
        refine ⟨fun heq => absurd heq (by decide), fun hbranch => ?_⟩
        exact absurd hbranch (by decide)

end Session

/-!
## Bits that are combined

`CombineBits` adds a power of two for each of its arguments. Distinct positions add up to the
number that has exactly these bits; a repeated one carries into the next bit, as the tests of
the source expect. Floating-point numbers are exact.
-/

/-- The whole number of at least zero that an argument stands for. A value has only the field of
its type, so that the two signs are that of its number. -/
def Union.position? (val : Union ℚ) : Option ℕ :=
  if val.f < 0 ∨ val.i < 0 then none
  else
    match val.tag with
    | .BOOL => some val.b.toNat
    | .INT => some val.i.toInt.toNat
    | .UINT => some val.ui.toNat
    | .FLOAT => some ⌊val.f⌋.toNat
    | .STRING | .NIL => none

/-- The positions of bits that arguments stand for, one for each argument. -/
def bitPositions (argVals : List (Union ℚ)) : List ℕ :=
  (argVals.filterMap Union.position?).filter (· < 64)

/-- The sum of the powers of two at the positions. -/
def bitSum (argVals : List (Union ℚ)) : ℕ := ((bitPositions argVals).map (2 ^ ·)).sum

/-- A floating-point number is not above the range of unsigned integers. -/
def Union.FitsUint (val : Union ℚ) : Prop := val.tag = .FLOAT → val.f ≤ 2 ^ 64 - 1

/-! ## One argument -/

theorem toNat_ofInt_uint {n : ℤ} (hpos : 0 ≤ n) (hlt : n < 2 ^ 64) :
    (UInt64.ofInt n).toNat = n.toNat := by
  rw [UInt64.ofInt, UInt64.toNat_ofNat']
  omega

theorem toNat_toUInt64_int {i : Int64} (h : ¬ i < 0) : i.toUInt64.toNat = i.toInt.toNat := by
  rw [Int64.toNat_toUInt64_of_le (Int64.not_lt.mp h)]
  rfl

section Step

variable [Library ℚ] {val : Union ℚ} {k : ℕ} {bits : UInt64}

/-- The cast of an argument reads the number that it stands for. -/
theorem castInPlace_position (hfits : val.FitsUint) (h : val.position? = some k) :
    (castInPlace val .UINT).ui.toNat = k := by
  rw [Union.position?] at h
  split_ifs at h with hneg
  rw [not_or] at hneg
  rw [castInPlace, castUnionType]
  cases htag : val.tag with
  | BOOL =>
    rw [htag, Option.some.injEq] at h
    simp only [reduceCtorEq, if_false, htag, castBool]
    rw [← h]
    cases val.b <;> rfl
  | INT =>
    rw [htag, Option.some.injEq] at h
    simp only [reduceCtorEq, if_false, htag, castInt, if_neg hneg.2]
    rw [← h, toNat_toUInt64_int hneg.2]
  | UINT =>
    rw [htag, Option.some.injEq] at h
    exact h
  | FLOAT =>
    rw [htag, Option.some.injEq] at h
    have hpos : 0 ≤ val.f := not_lt.mp hneg.1
    have hle := hfits htag
    have hfloor : 0 ≤ ⌊val.f⌋ := Int.floor_nonneg.mpr hpos
    have hlt : ⌊val.f⌋ < 2 ^ 64 := Int.floor_lt.mpr (by push_cast; linarith)
    have habove : Float64.lt (Float64.ofInt (2 ^ 64 - 1)) val.f = false :=
      by
      have hbound : (Float64.ofInt (2 ^ 64 - 1) : ℚ) = 2 ^ 64 - 1 := by
        change (((2 ^ 64 - 1 : ℤ)) : ℚ) = _
        norm_num
      rw [hbound]
      exact decide_eq_false (not_lt.mpr hle)
    have hbelow : Float64.lt val.f 0 = false := decide_eq_false hneg.1
    have hwhole : Float64.truncate (Float64.floor val.f) = ⌊val.f⌋ := by
      change (if (⌊val.f⌋ : ℚ) < 0 then ⌈(⌊val.f⌋ : ℚ)⌉ else ⌊(⌊val.f⌋ : ℚ)⌋) = _
      rw [Int.ceil_intCast, Int.floor_intCast, ite_self]
    simp only [reduceCtorEq, if_false, htag, castFloat, habove, hbelow]
    rw [hwhole, toNat_ofInt_uint hfloor hlt, h]
  | STRING | NIL =>
    rw [htag] at h
    cases h

/-- An argument that stands for no number is passed over. -/
theorem combineBit_none (bits : UInt64) (h : val.position? = none) :
    combineBit bits val = bits := by
  rw [Union.position?] at h
  rw [combineBit, if_pos]
  have hlt : Float64.lt val.f 0 = decide (val.f < 0) := rfl
  rw [hlt]
  split_ifs at h with hneg
  · rcases hneg with hneg | hneg <;> simp [hneg]
  · cases htag : val.tag <;> rw [htag] at h <;> simp at h ⊢

/-- An argument that stands for a number adds its power of two, where that is no more than the
room that is left. -/
theorem combineBit_some (hfits : val.FitsUint) (h : val.position? = some k)
    (hroom : k < 64 → bits.toNat + 2 ^ k < 2 ^ 64) :
    (combineBit bits val).toNat = bits.toNat + if k < 64 then 2 ^ k else 0 := by
  have hcast := castInPlace_position hfits h
  have hguard : (val.tag = .STRING || val.tag = .NIL || Float64.lt val.f 0 || val.i < 0 : Bool) =
      false := by
    have hlt : Float64.lt val.f 0 = decide (val.f < 0) := rfl
    rw [Union.position?] at h
    split_ifs at h with hneg
    rw [not_or] at hneg
    rw [hlt]
    cases htag : val.tag <;> rw [htag] at h <;> simp [hneg] at h ⊢
  rw [combineBit, hguard, if_neg Bool.false_ne_true]
  by_cases hk : k < 64
  · have hpow : k + 1 ≤ 2 ^ k := Nat.lt_two_pow_self
    have hlt := hroom hk
    have hmax : (maxUint64 - (castInPlace val .UINT).ui).toNat = 2 ^ 64 - 1 - k := by
      rw [UInt64.toNat_sub_of_le, hcast]
      · rfl
      · rw [UInt64.le_iff_toNat_le, hcast]
        change k ≤ 2 ^ 64 - 1
        omega
    have hbelow : (castInPlace val .UINT).ui < 64 := by
      rw [UInt64.lt_iff_toNat_lt, hcast]
      exact hk
    have hadds : bits < maxUint64 - (castInPlace val .UINT).ui := by
      rw [UInt64.lt_iff_toNat_lt, hmax]
      omega
    rw [if_pos (by simp [hbelow, hadds]), if_pos hk, hcast, UInt64.toNat_add,
      UInt64.toNat_ofNat', Nat.mod_eq_of_lt (show 2 ^ k < 2 ^ 64 by omega), Nat.mod_eq_of_lt hlt]
  · have habove : ¬ (castInPlace val .UINT).ui < 64 := by
      rw [UInt64.lt_iff_toNat_lt, hcast]
      exact hk
    rw [if_neg (by simp [habove]), if_neg hk, Nat.add_zero]

/-! ## All arguments -/

omit [Library ℚ] in
theorem bitSum_cons (val : Union ℚ) (argVals : List (Union ℚ)) :
    bitSum (val :: argVals) =
      (val.position?.elim 0 fun k => if k < 64 then 2 ^ k else 0) + bitSum argVals := by
  rw [bitSum, bitPositions, List.filterMap_cons]
  cases val.position? with
  | none => simp [bitSum, bitPositions]
  | some k => by_cases hk : k < 64 <;> simp [bitSum, bitPositions, hk]

/-- The loop adds the powers of two of the arguments as long as they fit. -/
theorem foldl_combineBit {argVals : List (Union ℚ)} (hfits : ∀ val ∈ argVals, val.FitsUint)
    (hsum : bits.toNat + bitSum argVals < 2 ^ 64) :
    (argVals.foldl combineBit bits).toNat = bits.toNat + bitSum argVals := by
  induction argVals generalizing bits with
  | nil => simp [bitSum, bitPositions]
  | cons val argVals ih =>
    have hrest : ∀ val ∈ argVals, val.FitsUint := fun other h =>
      hfits other (List.mem_cons_of_mem val h)
    rw [bitSum_cons] at hsum ⊢
    rw [List.foldl_cons]
    cases hposition : val.position? with
    | none =>
      rw [hposition] at hsum
      rw [Option.elim_none, Nat.zero_add] at hsum ⊢
      rw [combineBit_none bits hposition, ih hrest hsum]
    | some k =>
      rw [hposition] at hsum
      rw [Option.elim_some] at hsum ⊢
      have hstep : (combineBit bits val).toNat = bits.toNat + if k < 64 then 2 ^ k else 0 := by
        apply combineBit_some (hfits val List.mem_cons_self) hposition
        intro hk
        rw [if_pos hk] at hsum
        omega
      rw [ih hrest (by omega), hstep, Nat.add_assoc]

end Step

/-! ## Distinct positions -/

/-- Distinct positions of 64 bits add up to a number of 64 bits that has exactly these bits. -/
theorem sum_two_pow_of_nodup {positions : List ℕ} (hnodup : positions.Nodup)
    (hlt : ∀ k ∈ positions, k < 64) :
    (positions.map (2 ^ ·)).sum < 2 ^ 64 ∧
      ∀ k, (positions.map (2 ^ ·)).sum.testBit k ↔ k ∈ positions := by
  constructor
  · have hgeom := Nat.geomSum_lt le_rfl (s := positions.toFinset) (n := 64) fun k hk =>
      hlt k (List.mem_toFinset.mp hk)
    rwa [List.sum_toFinset _ hnodup] at hgeom
  · intro k
    have hperm := List.mergeSort_perm positions (· ≤ ·)
    have hsorted : (positions.mergeSort (· ≤ ·)).SortedLT :=
      List.sortedLE_mergeSort.sortedLT_of_nodup (hperm.nodup_iff.mpr hnodup)
    rw [← (hperm.map (2 ^ ·)).sum_eq, ← Nat.mem_bitIndices,
      Nat.bitIndices_sum_map_two_pow hsorted, hperm.mem_iff]

theorem bitSum_perm {argVals others : List (Union ℚ)} (h : argVals.Perm others) :
    bitSum argVals = bitSum others :=
  (((h.filterMap _).filter _).map _).sum_eq

/-- `CombineBits` returns the sum of the powers of two of its arguments, in any order, where it
fits; distinct positions fit and are the bits of the result. -/
structure CombinesBits (argVals : List (Union ℚ)) [Library ℚ] : Prop where
  adds : bitSum argVals < 2 ^ 64 →
    ∃ bits, combineBits argVals = (.uint bits, none) ∧ bits.toNat = bitSum argVals
  anyOrder : bitSum argVals < 2 ^ 64 →
    ∀ others, others.Perm argVals → combineBits others = combineBits argVals
  distinct : (bitPositions argVals).Nodup →
    ∃ bits, combineBits argVals = (.uint bits, none) ∧
      ∀ k < 64, bits.toNat.testBit k ↔ ∃ val ∈ argVals, val.position? = some k

/-- Without floating-point numbers above the unsigned integers the bits are combined. -/
theorem combineBits_combines [Library ℚ] (argVals : List (Union ℚ))
    (hfits : ∀ val ∈ argVals, val.FitsUint) : CombinesBits argVals := by
  have hadds {vals : List (Union ℚ)} (hfits : ∀ val ∈ vals, val.FitsUint)
      (hsum : bitSum vals < 2 ^ 64) : (vals.foldl combineBit 0).toNat = bitSum vals := by
    rw [foldl_combineBit hfits (by rwa [UInt64.toNat_zero, Nat.zero_add]), UInt64.toNat_zero,
      Nat.zero_add]
  constructor
  · exact fun hsum => ⟨_, rfl, hadds hfits hsum⟩
  · intro hsum others hperm
    have heq := bitSum_perm hperm
    have hothers := hadds (fun val hval => hfits val (hperm.mem_iff.mp hval)) (heq ▸ hsum)
    rw [heq, ← hadds hfits hsum] at hothers
    rw [combineBits, combineBits, UInt64.toNat_inj.mp hothers]
  · intro hnodup
    have hlt : ∀ k ∈ bitPositions argVals, k < 64 := fun k hk =>
      of_decide_eq_true (List.mem_filter.mp hk).2
    obtain ⟨hsum, hbits⟩ := sum_two_pow_of_nodup hnodup hlt
    refine ⟨_, rfl, ?_⟩
    intro k hk
    rw [hadds hfits hsum, bitSum, hbits, bitPositions, List.mem_filter, List.mem_filterMap]
    exact and_iff_left (decide_eq_true hk)

/-- Two bits of different arguments. -/
theorem combineBits_combines_two : @CombinesBits [.bool true, .float (27 / 5)] plainLibrary :=
  @combineBits_combines plainLibrary [.bool true, .float (27 / 5)] (by
    intro val hval htag
    rcases List.mem_pair.mp hval with rfl | rfl
    · cases htag
    · norm_num [Union.float])

/-- A repeated bit carries: two arguments of value one make the bit of value two. -/
theorem combineBits_carries :
    ∃ bits, @combineBits ℚ _ plainLibrary [.bool true, .bool true] = (.uint bits, none) ∧
      ¬ ∀ k < 64, bits.toNat.testBit k ↔
        ∃ val ∈ [Union.bool true, .bool true], val.position? = some k := by
  refine ⟨_, rfl, ?_⟩
  intro hbits
  have hset := (hbits 1 (by decide)).mpr ⟨.bool true, List.mem_cons_self, by decide +kernel⟩
  exact absurd hset (by decide +kernel)

/-!
## The conditional

A conditional should choose by what `Bool` makes of its conditions, value by value, and report
the errors of the branches that it evaluates. The evaluator reads the truth field of a condition
without a cast and does not look at an error of the first of two lists.
-/

variable {F S : Type} [Float64 F] [Library F]

/-! ## What a conditional is for -/

/-- Whether a value counts as true, by `Bool`. -/
def truth (val : Union F) : Bool := (castInPlace val .BOOL).b

/-- The values that the truth of conditions chooses from one list or from the other. -/
def chosenPairwise : List (Union F) → List (Union F) → List (Union F) → List (Union F)
  | val :: vals, value1 :: output1, value2 :: output2 =>
    (if truth val then value1 else value2) :: chosenPairwise vals output1 output2
  | _, _, _ => []

/-- The choice between two lists. An error of either is reported. -/
def chosenLists (vals : List (Union F)) (then_ else_ : Evaluation F S) : Evaluation F S :=
  then_.andThen fun output1 =>
    if output1.1.length ≠ vals.length then .fails pairwiseError
    else else_.andThen fun output2 =>
      if output2.1.length ≠ vals.length then .fails pairwiseError
      else .returns (chosenPairwise vals output1.1 output2.1, output1.2.or output2.2)

/-- Whether two evaluations end alike: neither returns, both fail, or both return the same. -/
def SameOutcome : Option (Returned (List (Union F)) × S) → Option (Returned (List (Union F)) × S) →
    Prop
  | none, none => True
  | some ((_, some _), _), some ((_, some _), _) => True
  | some ((values, none), state), some ((values', none), state') => values = values' ∧ state = state'
  | _, _ => False

/-- The call of a conditional with three arguments. -/
def callIf (machine : Machine F S) (clock : Clock) (name : String) (address : ℕ)
    (condition then_ else_ : Evaluation F S) : Evaluation F S :=
  evaluateCallExpr machine clock (.ident name) address [condition, then_, else_]

/-- Whether a call chooses by the truth of its conditions. -/
def Chooses (call condition then_ else_ : Evaluation F S) (state : S) : Prop :=
  match condition state with
  | none => call state = none
  | some ((_, some err), next) => call state = some (([], some err), next)
  | some (([val], none), next) => call state = if truth val then then_ next else else_ next
  | some (([], none), _) => ∃ err next, call state = some (([], some err), next)
  | some ((vals, none), next) => SameOutcome (call state) (chosenLists vals then_ else_ next)

/-- Whether a call over lists chooses at each position what the call over the values there
does. -/
def ChoosesPositions (call : Evaluation F S → Evaluation F S → Evaluation F S → Evaluation F S)
    (condition then_ else_ : Evaluation F S) (state : S) : Prop :=
  ∀ (vals : List (Union F)) (output1 output2 : Returned (List (Union F)))
      (values : List (Union F)) (state1 state2 state3 next : S), 1 < vals.length →
    condition state = some ((vals, none), state1) → then_ state1 = some (output1, state2) →
    else_ state2 = some (output2, state3) →
    call condition then_ else_ state = some ((values, none), next) →
    values.length = vals.length ∧
      ∀ (i : ℕ) (value : Union F), values[i]? = some value → ∃ val value1 value2 : Union F, vals[i]? = some val ∧
        output1.1[i]? = some value1 ∧ output2.1[i]? = some value2 ∧
        call (.returns ([val], none)) (.returns ([value1], none)) (.returns ([value2], none)) state =
          some (([value], none), state)

/-- Whether the truth field of every condition is its truth or does not matter, and no error of a
first list is lost to a second one. -/
def ReadsTruth (condition then_ else_ : Evaluation F S) (state : S) : Prop :=
  match condition state with
  | some (([val], none), next) => val.b = truth val ∨ then_ next = else_ next
  | some ((val :: val' :: vals, none), next) =>
    ∀ output1 state2 output2 state3, then_ next = some (output1, state2) →
      else_ state2 = some (output2, state3) → output1.1.length = (val :: val' :: vals).length →
      output2.1.length = (val :: val' :: vals).length →
      (output1.2 = none → output2.2 = none →
        ∀ (i : ℕ) (val'' : Union F), (val :: val' :: vals)[i]? = some val'' →
          val''.b = truth val'' ∨ output1.1[i]? = output2.1[i]?) ∧
      (output2.2 = none → output1.2 = none)
  | _ => True

/-! ## Lists -/

variable {vals output1 output2 : List (Union F)}

/-- The lists chosen by the truth fields and by the truths are the same if and only if at each
position these agree or the lists do. -/
theorem choosePairwise_eq_iff (h1 : output1.length = vals.length)
    (h2 : output2.length = vals.length) :
    choosePairwise vals output1 output2 = chosenPairwise vals output1 output2 ↔
      ∀ (i : ℕ) (val : Union F), vals[i]? = some val →
        val.b = truth val ∨ output1[i]? = output2[i]? := by
  induction vals generalizing output1 output2 with
  | nil => simp [choosePairwise, chosenPairwise]
  | cons val vals ih =>
    cases output1 with
    | nil => cases h1
    | cons value1 output1 =>
      cases output2 with
      | nil => cases h2
      | cons value2 output2 =>
        have hhead : (if val.b then value1 else value2) = (if truth val then value1 else value2) ↔
            val.b = truth val ∨ value1 = value2 := by
          cases val.b <;> cases truth val <;> simp [eq_comm]
        rw [choosePairwise, chosenPairwise, List.cons.injEq, hhead,
          ih (Nat.succ.inj h1) (Nat.succ.inj h2)]
        constructor
        · intro ⟨hval, hvals⟩ i val' hget
          cases i with
          | zero =>
            have hsame := Option.some.inj hget
            subst hsame
            simpa using hval
          | succ i => simpa using hvals i val' (by simpa using hget)
        · intro hall
          exact ⟨by simpa using hall 0 val rfl, fun i val' hget => by
            simpa using hall (i + 1) val' (by simpa using hget)⟩

omit [Float64 F] [Library F] in
/-- Every chosen value is the value of one of the lists. -/
theorem choosePairwise_getElem {i : ℕ} {value : Union F}
    (h : (choosePairwise vals output1 output2)[i]? = some value) :
    ∃ val value1 value2 : Union F, vals[i]? = some val ∧ output1[i]? = some value1 ∧
      output2[i]? = some value2 ∧ value = if val.b then value1 else value2 := by
  induction vals generalizing output1 output2 i with
  | nil => simp [choosePairwise] at h
  | cons val vals ih =>
    cases output1 with
    | nil => simp [choosePairwise] at h
    | cons value1 output1 =>
      cases output2 with
      | nil => simp [choosePairwise] at h
      | cons value2 output2 =>
        cases i with
        | zero => exact ⟨val, value1, value2, rfl, rfl, rfl, (by simpa [choosePairwise] using h.symm)⟩
        | succ i => exact ih (by simpa [choosePairwise] using h)

omit [Float64 F] [Library F] in
theorem length_choosePairwise (h1 : output1.length = vals.length)
    (h2 : output2.length = vals.length) :
    (choosePairwise vals output1 output2).length = vals.length := by
  induction vals generalizing output1 output2 with
  | nil => rfl
  | cons val vals ih =>
    cases output1 with
    | nil => cases h1
    | cons value1 output1 =>
      cases output2 with
      | nil => cases h2
      | cons value2 output2 =>
        rw [choosePairwise, List.length_cons, List.length_cons,
          ih (Nat.succ.inj h1) (Nat.succ.inj h2)]

/-! ## The call -/

section Call

variable {machine : Machine F S} {clock : Clock} {name : String} {address : ℕ}
  {condition then_ else_ : Evaluation F S} {state : S}

theorem callIf_eq (hname : Library.toLower F name ∈ ifNames) :
    callIf machine clock name address condition then_ else_ =
      evaluateIf machine clock name address [condition, then_, else_] := by
  rw [callIf, evaluateCallExpr]
  exact if_pos hname

theorem callIf_none (hname : Library.toLower F name ∈ ifNames) (h : condition state = none) :
    callIf machine clock name address condition then_ else_ state = none := by
  rw [callIf_eq hname, evaluateIf, Evaluation.thenWith, h]

variable {next state1 : S} {vals : List (Union F)}

section

variable (hname : Library.toLower F name ∈ ifNames)
include hname

theorem callIf_error {values : List (Union F)} {err : Failure}
    (h : condition state = some ((values, some err), next)) :
    callIf machine clock name address condition then_ else_ state = some (([], some err), next) := by
  rw [callIf_eq hname, evaluateIf, Evaluation.thenWith, h]

theorem callIf_nil (h : condition state = some (([], none), next)) :
    ∃ err, callIf machine clock name address condition then_ else_ state =
      some (([], some err), next) := by
  rw [callIf_eq hname, evaluateIf, Evaluation.thenWith, h]
  exact ⟨_, rfl⟩

theorem callIf_single (val : Union F) (next : S)
    (h : condition state = some (([val], none), next)) :
    callIf machine clock name address condition then_ else_ state =
      if val.b then then_ next else else_ next := by
  rw [callIf_eq hname, evaluateIf, Evaluation.thenWith, h]
  dsimp only
  split_ifs <;> rfl

theorem callIf_pairs (hlength : 1 < vals.length) (h : condition state = some ((vals, none), next)) :
    callIf machine clock name address condition then_ else_ state =
      ifElsePairs vals then_ else_ next := by
  rw [callIf_eq hname, evaluateIf, Evaluation.thenWith, h]
  match vals, hlength with
  | _ :: _ :: _, _ => rfl

end

/-! ## Outcomes of lists -/

section

variable {output1 output2 : Returned (List (Union F))} {state2 state3 : S}
  (h1 : then_ state1 = some (output1, state2)) (h2 : else_ state2 = some (output2, state3))
  (hlength1 : output1.1.length = vals.length) (hlength2 : output2.1.length = vals.length)
include h1 h2 hlength1 hlength2

omit [Float64 F] [Library F] in
theorem ifElsePairs_done :
    ifElsePairs vals then_ else_ state1 =
      some ((choosePairwise vals output1.1 output2.1, output2.2), state3) := by
  rw [ifElsePairs, Evaluation.andThen, h1]
  dsimp only
  rw [if_neg (not_not.mpr hlength1), Evaluation.andThen, h2]
  dsimp only
  rw [if_neg (not_not.mpr hlength2)]
  rfl

theorem chosenLists_done :
    chosenLists vals then_ else_ state1 =
      some ((chosenPairwise vals output1.1 output2.1, output1.2.or output2.2), state3) := by
  rw [chosenLists, Evaluation.andThen, h1]
  dsimp only
  rw [if_neg (not_not.mpr hlength1), Evaluation.andThen, h2]
  dsimp only
  rw [if_neg (not_not.mpr hlength2)]
  rfl

end

/-- Where one of the lists is missing or has another length, both choices end alike. -/
theorem ifElsePairs_eq_chosenLists
    (h : ∀ output1 state2 output2 state3, then_ state1 = some (output1, state2) →
      else_ state2 = some (output2, state3) → output1.1.length = vals.length →
      output2.1.length ≠ vals.length) :
    ifElsePairs vals then_ else_ state1 = chosenLists vals then_ else_ state1 := by
  rw [ifElsePairs, chosenLists, Evaluation.andThen, Evaluation.andThen]
  cases h1 : then_ state1 with
  | none => rfl
  | some first =>
    obtain ⟨output1, state2⟩ := first
    dsimp only
    split_ifs with hlength1
    · rfl
    · rw [Evaluation.andThen, Evaluation.andThen]
      cases h2 : else_ state2 with
      | none => rfl
      | some second =>
        obtain ⟨output2, state3⟩ := second
        have hlength2 := h output1 state2 output2 state3 h1 h2 (not_not.mp hlength1)
        dsimp only
        rw [if_pos hlength2, if_pos hlength2]

omit [Float64 F] [Library F] in
/-- Evaluations that are the same end alike. -/
theorem sameOutcome_refl (outcome : Option (Returned (List (Union F)) × S)) :
    SameOutcome outcome outcome := by
  match outcome with
  | none => trivial
  | some ((_, some _), _) => trivial
  | some ((_, none), _) => exact ⟨rfl, rfl⟩

/-- The choice between lists ends as it should if and only if each truth field is read as the
truth or does not matter and no error of the first list is lost. -/
theorem pairs_iff :
    SameOutcome (ifElsePairs vals then_ else_ state1) (chosenLists vals then_ else_ state1) ↔
      ∀ output1 state2 output2 state3, then_ state1 = some (output1, state2) →
        else_ state2 = some (output2, state3) → output1.1.length = vals.length →
        output2.1.length = vals.length →
        (output1.2 = none → output2.2 = none →
          ∀ (i : ℕ) (val : Union F), vals[i]? = some val →
            val.b = truth val ∨ output1.1[i]? = output2.1[i]?) ∧
        (output2.2 = none → output1.2 = none) := by
  by_cases hdone : ∃ output1 state2 output2 state3, then_ state1 = some (output1, state2) ∧
      else_ state2 = some (output2, state3) ∧ output1.1.length = vals.length ∧
      output2.1.length = vals.length
  · obtain ⟨output1, state2, output2, state3, h1, h2, hlength1, hlength2⟩ := hdone
    rw [ifElsePairs_done h1 h2 hlength1 hlength2, chosenLists_done h1 h2 hlength1 hlength2]
    have hcases : SameOutcome
        (some ((choosePairwise vals output1.1 output2.1, output2.2), state3))
        (some ((chosenPairwise vals output1.1 output2.1, output1.2.or output2.2), state3)) ↔
        (output1.2 = none → output2.2 = none →
          choosePairwise vals output1.1 output2.1 = chosenPairwise vals output1.1 output2.1) ∧
        (output2.2 = none → output1.2 = none) := by
      obtain ⟨values1, err1⟩ := output1
      obtain ⟨values2, err2⟩ := output2
      cases err1 <;> cases err2 <;> simp [SameOutcome]
    rw [hcases, choosePairwise_eq_iff hlength1 hlength2]
    constructor
    · intro hthis output1' state2' output2' state3' h1' h2' _ _
      have ⟨hout1, hstate2⟩ := Prod.mk.inj (Option.some.inj (h1.symm.trans h1'))
      subst hout1 hstate2
      have ⟨hout2, _⟩ := Prod.mk.inj (Option.some.inj (h2.symm.trans h2'))
      subst hout2
      exact hthis
    · intro hall
      exact hall output1 state2 output2 state3 h1 h2 hlength1 hlength2
  · have heq : ifElsePairs vals then_ else_ state1 = chosenLists vals then_ else_ state1 :=
      ifElsePairs_eq_chosenLists fun output1 state2 output2 state3 h1 h2 hlength1 hlength2 =>
        hdone ⟨output1, state2, output2, state3, h1, h2, hlength1, hlength2⟩
    rw [heq]
    refine iff_of_true (sameOutcome_refl _) ?_
    intro output1 state2 output2 state3 h1 h2 hlength1 hlength2
    exact absurd ⟨output1, state2, output2, state3, h1, h2, hlength1, hlength2⟩ hdone

theorem chooses_iff_readsTruth (hname : Library.toLower F name ∈ ifNames) :
    Chooses (callIf machine clock name address condition then_ else_) condition then_ else_ state ↔
      ReadsTruth condition then_ else_ state := by
  rw [Chooses, ReadsTruth]
  cases hcondition : condition state with
  | none => exact iff_of_true (callIf_none hname hcondition) trivial
  | some outcome =>
    obtain ⟨⟨vals, err⟩, next⟩ := outcome
    cases err with
    | some err =>
      match vals with
      | [] | [_] | _ :: _ :: _ => exact iff_of_true (callIf_error hname hcondition) trivial
    | none =>
      match vals with
      | [] =>
        have ⟨err, hcall⟩ : ∃ err, callIf machine clock name address condition then_ else_ state =
            some (([], some err), next) := callIf_nil hname hcondition
        exact iff_of_true ⟨err, next, hcall⟩ trivial
      | [val] =>
        dsimp only
        rw [callIf_single hname _ _ hcondition]
        cases val.b <;> cases truth val <;> simp [eq_comm]
      | val :: val' :: vals =>
        dsimp only
        rw [callIf_pairs hname (by simp) hcondition]
        exact pairs_iff

/-- Over lists the call chooses at each position what it chooses for the values there. -/
theorem choosesPositions (hname : Library.toLower F name ∈ ifNames) :
    ChoosesPositions (callIf machine clock name address) condition then_ else_ state := by
  intro vals output1 output2 values state1 state2 state3 next hlength hcondition h1 h2 hcall
  rw [callIf_pairs hname hlength hcondition] at hcall
  have hlength1 : output1.1.length = vals.length := by
    by_contra hne
    rw [ifElsePairs, Evaluation.andThen, h1] at hcall
    dsimp only at hcall
    rw [if_pos hne] at hcall
    cases hcall
  have hlength2 : output2.1.length = vals.length := by
    by_contra hne
    rw [ifElsePairs, Evaluation.andThen, h1] at hcall
    dsimp only at hcall
    rw [if_neg (not_not.mpr hlength1), Evaluation.andThen, h2] at hcall
    dsimp only at hcall
    rw [if_pos hne] at hcall
    cases hcall
  rw [ifElsePairs_done h1 h2 hlength1 hlength2] at hcall
  have hvalues : choosePairwise vals output1.1 output2.1 = values :=
    congrArg (fun result => result.1.1) (Option.some.inj hcall)
  subst hvalues
  refine ⟨length_choosePairwise hlength1 hlength2, ?_⟩
  intro i value hvalue
  have ⟨val, value1, value2, hval, hvalue1, hvalue2, hchoice⟩ := choosePairwise_getElem hvalue
  refine ⟨val, value1, value2, hval, hvalue1, hvalue2, ?_⟩
  rw [callIf_single hname val state rfl, hchoice]
  split_ifs <;> rfl

end Call

/-! ## Conditionals in expressions -/

/-- Whether the call of a conditional on three expressions chooses as it should, also position by
position. -/
def ConditionalRight (machine : Machine F S) (scope : InputScope F) (clock : Clock) (name : String)
    (address : ℕ) (c a b : Node) (state : S) : Prop :=
  Chooses
      (evaluateCallExpr machine clock (.ident name) address
        (Node.evaluations machine scope clock [c, a, b]))
      (c.evaluate machine scope clock) (a.evaluate machine scope clock)
      (b.evaluate machine scope clock) state ∧
    ChoosesPositions (callIf machine clock name address) (c.evaluate machine scope clock)
      (a.evaluate machine scope clock) (b.evaluate machine scope clock) state

/-- A conditional chooses by the truth of its conditions, position by position, and reports the
errors of what it evaluates if and only if each truth field that is read is the truth or does not
matter and no error of a first list is lost to a second one. -/
theorem conditionalRight_iff (machine : Machine F S) (scope : InputScope F) (clock : Clock)
    {name : String} (hname : Library.toLower F name ∈ ifNames) (address : ℕ) (c a b : Node)
    (state : S) :
    ConditionalRight machine scope clock name address c a b state ↔
      ReadsTruth (c.evaluate machine scope clock) (a.evaluate machine scope clock)
        (b.evaluate machine scope clock) state := by
  have hpositions : ChoosesPositions (callIf machine clock name address)
      (c.evaluate machine scope clock) (a.evaluate machine scope clock)
      (b.evaluate machine scope clock) state := choosesPositions hname
  rw [ConditionalRight, and_iff_left hpositions]
  exact chooses_iff_readsTruth hname

/-- A truth value chooses between two numbers. -/
theorem conditionalRight_iff_true :
    @ConditionalRight ℚ _ _ plainLibrary
      (@stateMachine ℚ _ plainLibrary (fun _ => none) ⟨0, 0⟩) (fun _ => none) ⟨0, 0⟩ "ifelse" 0
      (.ident "true") (.basicLit .INT "1") (.basicLit .INT "2") none := by
  refine (@conditionalRight_iff ℚ _ _ plainLibrary _ _ _ _ (by decide) _ _ _ _ _).mpr ?_
  exact Or.inl rfl

/-- The number five counts as true, but its truth field is not set. -/
theorem conditionalRight_fails :
    ¬ @ConditionalRight ℚ _ _ plainLibrary
      (@stateMachine ℚ _ plainLibrary (fun _ => none) ⟨0, 0⟩) (fun _ => none) ⟨0, 0⟩ "ifelse" 0
      (.basicLit .INT "5") (.basicLit .INT "1") (.basicLit .INT "2") none := by
  intro hright
  have hreads := (@chooses_iff_readsTruth ℚ _ _ plainLibrary _ _ _ _ _ _ _ _ (by decide)).mp
    hright.1
  rcases hreads with htruth | hsame
  · exact Bool.false_ne_true htruth
  · have hvalue := congrArg (Option.map fun result => result.1.1.map fun union => union.i) hsame
    exact absurd (Option.some.inj hvalue) (by decide)

end HybridOs.GoMetrics
