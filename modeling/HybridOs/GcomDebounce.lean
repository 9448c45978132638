import Mathlib

/-!
# Debounce of a point

Sets of a point should be a debounce apart. The deadline for the next set is moved on by a
debounce from where it was and not from the set that was taken, so an idle period leaves
deadlines in the past and the sets after it come through at once.
-/

namespace HybridOs.GcomDebounce

/-- `io_point_struct`, as far as the debounce of the point reads it. -/
structure IoPoint where
  use_debounce : Bool
  debounce : ℚ
  debounce_time : ℚ

/-- The point that `extract_io_point` makes of a configured debounce. -/
def IoPoint.configured (debounce : ℚ) : IoPoint where
  use_debounce := decide (0 < debounce)
  debounce := debounce
  debounce_time := 0

/-- `check_item_debounce` at a reading of the clock: whether the point stays enabled, and the
point. -/
def check_item_debounce (tNow : ℚ) (enabled : Bool) (io_point : IoPoint) : Bool × IoPoint :=
  if io_point.use_debounce then
    if io_point.debounce = 0 then (enabled, {io_point with use_debounce := false})
    else if io_point.debounce_time = 0 then
      (enabled, {io_point with debounce_time := tNow + io_point.debounce})
    else if tNow > io_point.debounce_time then
      (enabled, {io_point with debounce_time := io_point.debounce_time + io_point.debounce})
    else (false, io_point)
  else (enabled, io_point)

/-- The readings at which an enabled point stays enabled, one call for each reading. -/
def accepted (io_point : IoPoint) : List ℚ → List ℚ
  | [] => []
  | tNow :: rest =>
    let checked := check_item_debounce tNow true io_point
    if checked.1 then tNow :: accepted checked.2 rest else accepted checked.2 rest

/-- Any two readings are at least a debounce apart. -/
def Spaced (debounce : ℚ) (readings : List ℚ) : Prop :=
  readings.Pairwise fun earlier later => earlier + debounce ≤ later

/-- What an ideal throttle knows: the first call of its count, the calls it has taken after the
first, and the last one that it took. -/
structure Series where
  /-- The reading from which the calls are counted. -/
  first : ℚ
  /-- The calls taken after the first. -/
  count : ℕ
  /-- The reading of the last call that was taken. -/
  last : ℚ

/-- One debounce after the first call for each call that was taken. -/
def Series.due (debounce : ℚ) (series : Series) : ℚ :=
  series.first + (series.count + 1) * debounce

/-- An ideal throttle takes a call that comes a debounce or more after the last one. After the
first call it must be more, as the deadline has to be passed. -/
def Series.Takes (debounce : ℚ) (series : Series) (tNow : ℚ) : Prop :=
  series.last + debounce ≤ tNow ∧ (series.due debounce = 0 ∨ series.first + debounce < tNow)

instance (debounce : ℚ) (series : Series) (tNow : ℚ) :
    Decidable (series.Takes debounce tNow) :=
  inferInstanceAs (Decidable (_ ∧ _))

/-- The throttle after a call. The call that it takes where the calls are due at zero is the
first of a new count. -/
def Series.next (debounce : ℚ) (series : Series) (tNow : ℚ) : Series :=
  if series.Takes debounce tNow then
    if series.due debounce = 0 then ⟨tNow, 0, tNow⟩ else ⟨series.first, series.count + 1, tNow⟩
  else series

/-- Each call that comes too early for the throttle comes before the time that is due: no idle
period before it has let the count fall behind the time. -/
def NoneEarly (debounce : ℚ) (series : Series) (readings : List ℚ) : Prop :=
  ∀ before tNow after, readings = before ++ tNow :: after →
    let reached := before.foldl (Series.next debounce) series
    ¬ reached.Takes debounce tNow →
      reached.due debounce ≠ 0 ∧ tNow ≤ reached.due debounce

/-- No call of a burst comes early, counted from the first call on. -/
def Steady (debounce : ℚ) : List ℚ → Prop
  | [] => True
  | first :: rest => NoneEarly debounce ⟨first, 0, first⟩ rest

/-! ## One call -/

variable {debounce : ℚ}

theorem check_unset (hdebounce : 0 < debounce) (tNow : ℚ) :
    check_item_debounce tNow true ⟨true, debounce, 0⟩ =
      (true, ⟨true, debounce, tNow + debounce⟩) := by
  simp [check_item_debounce, hdebounce.ne']

theorem check_late {deadline tNow : ℚ} (hdebounce : 0 < debounce) (hset : deadline ≠ 0)
    (hlate : deadline < tNow) :
    check_item_debounce tNow true ⟨true, debounce, deadline⟩ =
      (true, ⟨true, debounce, deadline + debounce⟩) := by
  simp [check_item_debounce, hdebounce.ne', hset, hlate]

theorem check_early {deadline tNow : ℚ} (hdebounce : 0 < debounce) (hset : deadline ≠ 0)
    (hearly : tNow ≤ deadline) :
    check_item_debounce tNow true ⟨true, debounce, deadline⟩ =
      (false, ⟨true, debounce, deadline⟩) := by
  simp [check_item_debounce, hdebounce.ne', hset, hearly]

/-! ## Any calls -/

/-- It is enough that neighbours are a debounce apart. -/
theorem spaced_cons_cons (hdebounce : 0 < debounce) (first second : ℚ) (rest : List ℚ) :
    Spaced debounce (first :: second :: rest) ↔
      first + debounce ≤ second ∧ Spaced debounce (second :: rest) := by
  constructor
  · intro hspaced
    have hcons := List.pairwise_cons.1 hspaced
    exact ⟨hcons.1 second List.mem_cons_self, hcons.2⟩
  · rintro ⟨hnext, hspaced⟩
    apply List.pairwise_cons.2
    constructor
    · intro later hlater
      rcases List.mem_cons.1 hlater with rfl | hrest
      · exact hnext
      · have hsecond := (List.pairwise_cons.1 hspaced).1 later hrest
        linarith
    · exact hspaced

/-- The calls of a list, one after the other. -/
theorem noneEarly_cons (series : Series) (tNow : ℚ) (rest : List ℚ) :
    NoneEarly debounce series (tNow :: rest) ↔
      (¬ series.Takes debounce tNow → series.due debounce ≠ 0 ∧ tNow ≤ series.due debounce) ∧
        NoneEarly debounce (series.next debounce tNow) rest := by
  constructor
  · intro hnone
    refine ⟨hnone [] tNow rest rfl, ?_⟩
    rintro before later after rfl
    exact hnone (tNow :: before) later after rfl
  · rintro ⟨hfirst, hrest⟩ before later after hsplit
    cases before with
    | nil =>
      obtain ⟨rfl, rfl⟩ := List.cons.inj hsplit
      exact hfirst
    | cons head before =>
      obtain ⟨rfl, rfl⟩ := List.cons.inj hsplit
      exact hrest before later after rfl

/-- The last call is the first, or it came after the time that was due before it. -/
def Series.Counted (debounce : ℚ) (series : Series) : Prop :=
  series.count = 0 ∧ series.last = series.first ∨
    series.first + series.count * debounce < series.last

/-- The time that is due lies at least a debounce after the first call. -/
theorem Series.first_le_due (hdebounce : 0 < debounce) (series : Series) :
    series.first + debounce ≤ series.due debounce := by
  have hcount : 0 ≤ (series.count : ℚ) * debounce := by positivity
  rw [Series.due]
  linarith

/-- A call that is taken comes after the time that is due. -/
theorem Series.Counted.due_lt {series : Series} {tNow : ℚ} (hcounted : series.Counted debounce)
    (hdue : series.due debounce ≠ 0) (htakes : series.Takes debounce tNow) :
    series.due debounce < tNow := by
  have hlater := htakes.2.resolve_left hdue
  have hlast := htakes.1
  rw [Series.due]
  rcases hcounted with ⟨hcount, -⟩ | hbehind
  · rw [hcount, Nat.cast_zero]
    linarith
  · linarith

/-- What is accepted after the last call, where the deadline is the time that is due. -/
theorem spaced_accepted_iff (hdebounce : 0 < debounce) (readings : List ℚ) :
    ∀ series : Series, series.Counted debounce →
      (Spaced debounce
          (series.last :: accepted ⟨true, debounce, series.due debounce⟩ readings) ↔
        NoneEarly debounce series readings) := by
  induction readings with
  | nil =>
    intro series _
    simp [accepted, NoneEarly, Spaced]
  | cons tNow rest ih =>
    intro series hcounted
    rw [accepted, noneEarly_cons]
    by_cases hunset : series.due debounce = 0
    · -- The deadline counts as not set: the call is accepted, and it is the first of a new count.
      have htakes : series.Takes debounce tNow ↔ series.last + debounce ≤ tNow := by
        simp [Series.Takes, hunset]
      have hdue : tNow + debounce = Series.due debounce ⟨tNow, 0, tNow⟩ := by
        simp [Series.due]
      rw [hunset, check_unset hdebounce]
      simp only [if_true]
      rw [spaced_cons_cons hdebounce, ← htakes, hdue, ih ⟨tNow, 0, tNow⟩ (Or.inl ⟨rfl, rfl⟩)]
      by_cases htaken : series.Takes debounce tNow
      · simp [Series.next, htaken, hunset]
      · simp [htaken]
    · by_cases hearly : tNow ≤ series.due debounce
      · have hheld : ¬ series.Takes debounce tNow := by
          intro htakes
          exact absurd (hcounted.due_lt hunset htakes) (not_lt.2 hearly)
        rw [check_early hdebounce hunset hearly, Series.next, if_neg hheld]
        simp only [Bool.false_eq_true, if_false]
        rw [ih series hcounted]
        simp [hunset, hearly]
      · have hlate := not_le.1 hearly
        have htakes : series.Takes debounce tNow ↔ series.last + debounce ≤ tNow := by
          have hfirst := (series.first_le_due hdebounce).trans_lt hlate
          simp [Series.Takes, hfirst]
        have hnext : series.due debounce + debounce =
            Series.due debounce ⟨series.first, series.count + 1, tNow⟩ := by
          rw [Series.due, Series.due, Nat.cast_succ]
          ring
        have hbehind : Series.Counted debounce ⟨series.first, series.count + 1, tNow⟩ := by
          right
          rw [Nat.cast_succ]
          exact hlate
        rw [check_late hdebounce hunset hlate]
        simp only [if_true]
        rw [spaced_cons_cons hdebounce, ← htakes, hnext, ih _ hbehind]
        by_cases htaken : series.Takes debounce tNow
        · simp [Series.next, htaken, hunset]
        · simp [htaken, hearly]

/-- Any two accepted sets are a debounce apart exactly where no call comes early. -/
theorem accepted_spaced_iff (debounce : ℚ) (hdebounce : 0 < debounce) (readings : List ℚ) :
    Spaced debounce (accepted (.configured debounce) readings) ↔ Steady debounce readings := by
  have hpoint : IoPoint.configured debounce = ⟨true, debounce, 0⟩ := by
    rw [IoPoint.configured, decide_eq_true hdebounce]
  rw [hpoint]
  cases readings with
  | nil => simp [accepted, Steady, Spaced]
  | cons first rest =>
    have hdue : first + debounce = Series.due debounce ⟨first, 0, first⟩ := by
      simp [Series.due]
    rw [accepted, check_unset hdebounce, Steady]
    simp only [if_true]
    rw [hdue, spaced_accepted_iff hdebounce rest ⟨first, 0, first⟩ (Or.inl ⟨rfl, rfl⟩)]

theorem accepted_spaced_iff_calls :
    Spaced 1 (accepted (.configured 1) [0, 1 / 2, 3 / 2]) ↔ Steady 1 [0, 1 / 2, 3 / 2] :=
  accepted_spaced_iff 1 (by norm_num) [0, 1 / 2, 3 / 2]

/-- After an idle period of ten debounces two sets half a debounce apart are accepted. -/
theorem idle_then_burst :
    ¬ ∀ (debounce : ℚ) (readings : List ℚ), 0 < debounce → readings.Pairwise (· ≤ ·) →
      Spaced debounce (accepted (.configured debounce) readings) := by
  intro hall
  have hspaced := hall 1 [0, 10, 21 / 2] (by norm_num) (by norm_num)
  norm_num [accepted, check_item_debounce, IoPoint.configured, Spaced] at hspaced

end HybridOs.GcomDebounce
