import Mathlib

/-!
# The droop of a frequency response

A frequency response component answers with a share of its command that grows
with the deviation of the frequency from its trigger. The share is read off a
curve through the trigger and the droop frequency. Beyond the droop frequency it
goes on growing, unless the curve is limited.
-/

namespace HybridOs.SiteFreqResp

/-! ## Curves -/

/-- A quotient that is there if the divisor is not zero. -/
def divide (a b : ℚ) : Option ℚ := if b = 0 then none else some (a / b)

/-- The line through two points, at a distance from a point on it. -/
def lineAt (start stop anchor : ℚ × ℚ) (indVar : ℚ) : Option ℚ :=
  (divide (stop.2 - start.2) (stop.1 - start.1)).map fun slope =>
    slope * (indVar - anchor.1) + anchor.2

/-- The loop over the curve points. The command stays zero if no two points are around the
variable. -/
def segmentCmd (indVar : ℚ) : List (ℚ × ℚ) → Option ℚ
  | start :: stop :: rest =>
    if start.1 ≤ indVar ∧ indVar < stop.1 then lineAt start stop stop indVar
    else segmentCmd indVar (stop :: rest)
  | _ => some 0

/-- `get_curve_cmd`. There is no command where the source divides by zero or reads a point that is
not there. -/
def getCurveCmd (indVar : ℚ) (curvePoints : List (ℚ × ℚ)) : Option ℚ := do
  let first ← curvePoints[0]?
  if indVar < first.1 then
    let second ← curvePoints[1]?
    lineAt first second first indVar
  else
    let last ← curvePoints[curvePoints.length - 1]?
    if last.1 ≤ indVar then
      let beforeLast ← curvePoints[curvePoints.length - 2]?
      lineAt beforeLast last last indVar
    else segmentCmd indVar curvePoints

/-! ## Components -/

/-- The settings of the droop. -/
structure DroopConfig where
  /-- Magnitude of the response. -/
  activeCmdKW : ℚ
  /-- Frequency beyond which the component responds. -/
  triggerFreqHz : ℚ
  /-- Frequency of the full response. -/
  droopFreqHz : ℚ
  /-- Whether the response is limited to its command. -/
  droopLimitFlag : Bool

/-- `Freq_Resp_Component`, as far as the droop reads it. -/
structure FreqRespComponent extends DroopConfig where
  /-- True when UF, false when OF. -/
  isUnderfrequencyComponent : Bool
  /-- The command, positive for UF and negative for OF. -/
  signedActiveCmdKW : ℚ
  /-- The points of the curve. -/
  droopCurve : List (ℚ × ℚ)

/-- `compare_droop_curve_points`. -/
def compareDroopCurvePoints (p1 p2 : ℚ × ℚ) : Bool :=
  if p1.1 = p2.1 then p1.2 > p2.2 else p1.1 < p2.1

/-- The points from lowest frequency to highest, and from highest power to lowest. -/
def sortPoints (points : List (ℚ × ℚ)) : List (ℚ × ℚ) :=
  points.insertionSort fun p1 p2 => compareDroopCurvePoints p2 p1 = false

/-- `build_droop_curve`. -/
def buildDroopCurve (config : DroopConfig) (isUnderfrequencyComponent : Bool)
    (signedActiveCmdKW : ℚ) : List (ℚ × ℚ) :=
  let directionalOffset : ℚ := if isUnderfrequencyComponent then -1 else 1
  let droopCurve := [(config.triggerFreqHz - directionalOffset, 0), (config.triggerFreqHz, 0),
    (config.droopFreqHz, signedActiveCmdKW)]
  sortPoints (if config.droopLimitFlag then
    droopCurve ++ [(config.droopFreqHz + directionalOffset, signedActiveCmdKW)] else droopCurve)

/-- `initialize_state`, with `sync_active_cmd_kw`. Nothing is there where it fails. -/
def initializeState (gridTargetFreqHz : ℚ) (config : DroopConfig) : Option FreqRespComponent :=
  let isUnderfrequencyComponent : Bool := config.triggerFreqHz < gridTargetFreqHz
  if isUnderfrequencyComponent = true ∧ config.droopFreqHz > config.triggerFreqHz then none
  else if isUnderfrequencyComponent = false ∧ config.droopFreqHz < config.triggerFreqHz then none
  else
    let activeCmdKW := if config.activeCmdKW < 0 then -1 * config.activeCmdKW else config.activeCmdKW
    let signedActiveCmdKW := if isUnderfrequencyComponent then activeCmdKW else -1 * activeCmdKW
    some { config with
      activeCmdKW
      isUnderfrequencyComponent
      signedActiveCmdKW
      droopCurve := buildDroopCurve config isUnderfrequencyComponent signedActiveCmdKW }

namespace FreqRespComponent

/-- The droop output, if the source does not divide by zero. -/
def droopOutput (component : FreqRespComponent) (frequency : ℚ) : Option ℚ :=
  getCurveCmd frequency component.droopCurve

/-- How far a frequency is beyond the trigger. -/
def deviation (component : FreqRespComponent) (frequency : ℚ) : ℚ :=
  if component.isUnderfrequencyComponent then component.triggerFreqHz - frequency
  else frequency - component.triggerFreqHz

/-- The deviation of the droop frequency. -/
def droopSpan (component : FreqRespComponent) : ℚ := component.deviation component.droopFreqHz

end FreqRespComponent

/-! ## Sorted points -/

/-- A point that comes no later than another. -/
def NoLater (p1 p2 : ℚ × ℚ) : Prop := compareDroopCurvePoints p2 p1 = false

instance : DecidableRel NoLater := fun _ _ => inferInstanceAs (Decidable (_ = false))

theorem noLater_iff {p1 p2 : ℚ × ℚ} : NoLater p1 p2 ↔ p1.1 < p2.1 ∨ p1.1 = p2.1 ∧ p2.2 ≤ p1.2 := by
  unfold NoLater compareDroopCurvePoints
  by_cases hsame : p2.1 = p1.1
  · rw [if_pos hsame]
    simp [hsame]
  · have hne : p1.1 ≠ p2.1 := fun heq => hsame heq.symm
    rw [if_neg hsame, decide_eq_false_iff_not, not_lt]
    constructor
    · intro hle
      exact .inl (lt_of_le_of_ne hle hne)
    · rintro (hlt | ⟨heq, -⟩)
      · exact hlt.le
      · exact absurd heq hne

instance : Std.Total NoLater where
  total := by
    intro p1 p2
    rw [noLater_iff, noLater_iff]
    rcases lt_trichotomy p1.1 p2.1 with hlt | heq | hgt
    · exact .inl (.inl hlt)
    · rcases le_total p2.2 p1.2 with hle | hle
      · exact .inl (.inr ⟨heq, hle⟩)
      · exact .inr (.inr ⟨heq.symm, hle⟩)
    · exact .inr (.inl hgt)

instance : IsTrans (ℚ × ℚ) NoLater where
  trans := by
    intro p1 p2 p3
    rw [noLater_iff, noLater_iff, noLater_iff]
    rintro (h | ⟨h, hy⟩) (h' | ⟨h', hy'⟩)
    · exact .inl (h.trans h')
    · exact .inl (h' ▸ h)
    · exact .inl (h ▸ h')
    · exact .inr ⟨h.trans h', hy'.trans hy⟩

instance : Std.Antisymm NoLater where
  antisymm := by
    intro p1 p2
    rw [noLater_iff, noLater_iff]
    rintro (h | ⟨h, hy⟩) (h' | ⟨h', hy'⟩)
    · exact absurd h' (not_lt.mpr h.le)
    · exact absurd h (h' ▸ lt_irrefl _)
    · exact absurd h' (h ▸ lt_irrefl _)
    · exact Prod.ext h (le_antisymm hy' hy)

/-- Points are sorted into the one order in which none comes later than the next. -/
theorem sortPoints_eq {points sorted : List (ℚ × ℚ)} (hperm : points.Perm sorted)
    (hsorted : sorted.Pairwise NoLater) : sortPoints points = sorted := by
  have hperm' : (sortPoints points).Perm sorted := (List.perm_insertionSort _ points).trans hperm
  have hpairwise : (sortPoints points).Pairwise NoLater :=
    List.pairwise_insertionSort NoLater points
  exact hperm'.eq_of_pairwise' hpairwise hsorted

/-! ## The points of a curve -/

section Curves

variable {config : DroopConfig} {command : ℚ}

/-- The curve of an under-frequency response. -/
theorem buildDroopCurve_under (hdroop : config.droopFreqHz ≤ config.triggerFreqHz)
    (hcommand : 0 ≤ command) :
    buildDroopCurve config true command =
      (if config.droopLimitFlag then [(config.droopFreqHz - 1, command)] else []) ++
        [(config.droopFreqHz, command), (config.triggerFreqHz, 0),
          (config.triggerFreqHz + 1, 0)] := by
  have hmiddle : NoLater (config.droopFreqHz, command) (config.triggerFreqHz, 0) := by
    rw [noLater_iff]
    rcases hdroop.lt_or_eq with hlt | heq
    · exact .inl hlt
    · exact .inr ⟨heq, hcommand⟩
  have hlast : NoLater (config.triggerFreqHz, 0) (config.triggerFreqHz + 1, 0) := by
    rw [noLater_iff]
    exact .inl (by simp)
  have hfirst : NoLater (config.droopFreqHz - 1, command) (config.droopFreqHz, command) := by
    rw [noLater_iff]
    exact .inl (by simp)
  unfold buildDroopCurve
  apply sortPoints_eq
  · cases config.droopLimitFlag
    · simpa using
        ((List.reverse_perm [(config.triggerFreqHz + 1, (0 : ℚ)), (config.triggerFreqHz, 0),
          (config.droopFreqHz, command)]).symm)
    · simpa [sub_eq_add_neg] using
        ((List.reverse_perm [(config.triggerFreqHz + 1, (0 : ℚ)), (config.triggerFreqHz, 0),
          (config.droopFreqHz, command), (config.droopFreqHz - 1, command)]).symm)
  · rw [← List.isChain_iff_pairwise]
    cases config.droopLimitFlag
    · simp [hmiddle, hlast]
    · simp [hfirst, hmiddle, hlast]

/-- The curve of an over-frequency response. -/
theorem buildDroopCurve_over (hdroop : config.triggerFreqHz ≤ config.droopFreqHz)
    (hcommand : command ≤ 0) :
    buildDroopCurve config false command =
      [(config.triggerFreqHz - 1, 0), (config.triggerFreqHz, 0), (config.droopFreqHz, command)] ++
        (if config.droopLimitFlag then [(config.droopFreqHz + 1, command)] else []) := by
  have hmiddle : NoLater (config.triggerFreqHz, 0) (config.droopFreqHz, command) := by
    rw [noLater_iff]
    rcases hdroop.lt_or_eq with hlt | heq
    · exact .inl hlt
    · exact .inr ⟨heq, hcommand⟩
  have hfirst : NoLater (config.triggerFreqHz - 1, 0) (config.triggerFreqHz, 0) := by
    rw [noLater_iff]
    exact .inl (by simp)
  have hlast : NoLater (config.droopFreqHz, command) (config.droopFreqHz + 1, command) := by
    rw [noLater_iff]
    exact .inl (by simp)
  unfold buildDroopCurve
  apply sortPoints_eq
  · cases config.droopLimitFlag
    · simp
    · simp
  · rw [← List.isChain_iff_pairwise]
    cases config.droopLimitFlag
    · simp [hfirst, hmiddle]
    · simp [hfirst, hmiddle, hlast]

end Curves

/-! ## Reading a curve -/

section Lines

variable {x0 x1 x2 x3 y0 y1 indVar : ℚ}

/-- The value at a variable of the line through two points. -/
def lineThrough (x1 y0 x2 y1 indVar : ℚ) : ℚ := y0 + (y1 - y0) * ((indVar - x1) / (x2 - x1))

theorem lineAt_first (hlt : x1 < x2) :
    lineAt (x1, y0) (x2, y1) (x1, y0) indVar = some (lineThrough x1 y0 x2 y1 indVar) := by
  have hne : x2 - x1 ≠ 0 := (sub_pos.mpr hlt).ne'
  simp only [lineAt, divide, if_neg hne, Option.map_some, lineThrough, Option.some.injEq]
  ring

theorem lineAt_last (hlt : x1 < x2) :
    lineAt (x1, y0) (x2, y1) (x2, y1) indVar = some (lineThrough x1 y0 x2 y1 indVar) := by
  have hne : x2 - x1 ≠ 0 := (sub_pos.mpr hlt).ne'
  simp only [lineAt, divide, if_neg hne, Option.map_some, lineThrough, Option.some.injEq]
  field_simp
  ring

theorem lineThrough_flat : lineThrough x1 y0 x2 y0 indVar = y0 := by
  simp [lineThrough]

/-- A line through two points of one height is flat. -/
theorem lineAt_flat {anchor : ℚ} (hlt : x1 < x2) :
    lineAt (x1, y0) (x2, y0) (anchor, y0) indVar = some y0 := by
  have hne : x2 - x1 ≠ 0 := (sub_pos.mpr hlt).ne'
  simp [lineAt, divide, if_neg hne]

/-- A ramp between two flat ends. -/
theorem getCurveCmd_ramp (h01 : x0 < x1) (h12 : x1 ≤ x2) (h23 : x2 < x3) :
    getCurveCmd indVar [(x0, y0), (x1, y0), (x2, y1), (x3, y1)] =
      some (if indVar < x1 then y0 else if indVar < x2 then lineThrough x1 y0 x2 y1 indVar
        else y1) := by
  by_cases h0 : indVar < x0
  · have h1 : indVar < x1 := h0.trans h01
    simp [getCurveCmd, h0, h1, lineAt_flat h01]
  by_cases h3 : x3 ≤ indVar
  · have h1 : ¬ indVar < x1 := by linarith
    have h2 : ¬ indVar < x2 := by linarith
    simp [getCurveCmd, h0, h1, h2, h3, lineAt_flat h23]
  have h0' : x0 ≤ indVar := not_lt.mp h0
  have h3' : indVar < x3 := not_le.mp h3
  by_cases h1 : indVar < x1
  · simp [getCurveCmd, segmentCmd, h0, h1, h3, lineAt_flat h01]
  have h1' : x1 ≤ indVar := not_lt.mp h1
  by_cases h2 : indVar < x2
  · have hlt : x1 < x2 := h1'.trans_lt h2
    simp [getCurveCmd, segmentCmd, h0, h1, h2, h3, lineAt_last hlt]
  · have h2' : x2 ≤ indVar := not_lt.mp h2
    simp [getCurveCmd, segmentCmd, h0, h1, h2, h3, lineAt_flat h23]

/-- Two lines, of which the outer parts reach beyond the ends. -/
theorem getCurveCmd_three {y2 : ℚ} (h12 : x1 < x2) (h23 : x2 < x3) :
    getCurveCmd indVar [(x1, y0), (x2, y1), (x3, y2)] =
      some (if indVar < x2 then lineThrough x1 y0 x2 y1 indVar
        else lineThrough x2 y1 x3 y2 indVar) := by
  by_cases h1 : indVar < x1
  · have h2 : indVar < x2 := h1.trans h12
    simp [getCurveCmd, h1, h2, lineAt_first h12]
  by_cases h3 : x3 ≤ indVar
  · have h2 : ¬ indVar < x2 := by linarith
    simp [getCurveCmd, h1, h2, h3, lineAt_last h23]
  have h1' : x1 ≤ indVar := not_lt.mp h1
  have h3' : indVar < x3 := not_le.mp h3
  by_cases h2 : indVar < x2
  · simp [getCurveCmd, segmentCmd, h1, h2, h3, lineAt_last h12]
  · have h2' : x2 ≤ indVar := not_lt.mp h2
    simp [getCurveCmd, segmentCmd, h1, h2, h3, lineAt_last h23]

end Lines

/-! ## Accepted components -/

namespace FreqRespComponent

/-- The share of its command with which a component responds. -/
def responseShare (component : FreqRespComponent) (frequency : ℚ) : ℚ :=
  let deviation := component.deviation frequency
  if deviation < 0 then 0
  else if deviation = 0 then
    -- An over-frequency curve that jumps is already up at the trigger.
    if component.droopSpan = 0 ∧ component.isUnderfrequencyComponent = false then 1 else 0
  else if component.droopLimitFlag = true ∧ component.droopSpan ≤ deviation then 1
  else deviation / component.droopSpan

end FreqRespComponent

section Accepted

variable {gridTargetFreqHz : ℚ} {config : DroopConfig} {component : FreqRespComponent}

/-- What holds of a component once `initialize_state` has accepted it. -/
structure FreqRespComponent.WellFormed (component : FreqRespComponent) : Prop where
  /-- The magnitude of the command is not negative. -/
  activeCmdKW_nonneg : 0 ≤ component.activeCmdKW
  /-- The command has the sign of the direction. -/
  signedActiveCmdKW_eq : component.signedActiveCmdKW =
    if component.isUnderfrequencyComponent then component.activeCmdKW else -component.activeCmdKW
  /-- The droop frequency is not on the safe side. -/
  droopSpan_nonneg : 0 ≤ component.droopSpan
  /-- The curve is the one of the settings. -/
  droopCurve_eq : component.droopCurve = buildDroopCurve component.toDroopConfig
    component.isUnderfrequencyComponent component.signedActiveCmdKW

theorem initializeState_wellFormed
    (haccepted : initializeState gridTargetFreqHz config = some component) :
    component.WellFormed := by
  unfold initializeState at haccepted
  simp only at haccepted
  split at haccepted
  · simp at haccepted
  rename_i hunder
  split at haccepted
  · simp at haccepted
  rename_i hover
  rw [Option.some.injEq] at haccepted
  subst haccepted
  constructor
  · simp only
    split
    · linarith
    · linarith
  · simp only [neg_mul, one_mul]
  · unfold FreqRespComponent.droopSpan FreqRespComponent.deviation
    simp only
    split
    · rename_i hflag
      have hle : config.droopFreqHz ≤ config.triggerFreqHz := by
        by_contra hgt
        exact hunder ⟨hflag, not_le.mp hgt⟩
      linarith
    · rename_i hflag
      have hle : config.triggerFreqHz ≤ config.droopFreqHz := by
        by_contra hgt
        exact hover ⟨by simpa using hflag, not_le.mp hgt⟩
      linarith
  · simp [buildDroopCurve]

namespace FreqRespComponent

variable {frequency : ℚ}

/-- An under-frequency response is the share of the command. -/
theorem droopOutput_under (hwell : component.WellFormed)
    (hunder : component.isUnderfrequencyComponent = true)
    (hcurve : component.droopLimitFlag = true ∨ component.droopSpan ≠ 0) :
    component.droopOutput frequency =
      some (component.signedActiveCmdKW * component.responseShare frequency) := by
  have hspan : component.droopSpan = component.triggerFreqHz - component.droopFreqHz := by
    simp [droopSpan, deviation, hunder]
  have hdeviation : component.deviation frequency = component.triggerFreqHz - frequency := by
    simp [deviation, hunder]
  have hnonneg := hwell.droopSpan_nonneg
  have hcommand : 0 ≤ component.signedActiveCmdKW := by
    rw [hwell.signedActiveCmdKW_eq, if_pos hunder]
    exact hwell.activeCmdKW_nonneg
  have hdroop : component.droopFreqHz ≤ component.triggerFreqHz := by linarith
  have hline : lineThrough component.droopFreqHz component.signedActiveCmdKW
      component.triggerFreqHz 0 frequency =
        component.signedActiveCmdKW * (1 - (frequency - component.droopFreqHz) /
          (component.triggerFreqHz - component.droopFreqHz)) := by
    unfold lineThrough
    ring
  have hshare (hne : component.droopSpan ≠ 0) : 1 - (frequency - component.droopFreqHz) /
      (component.triggerFreqHz - component.droopFreqHz) =
        component.deviation frequency / component.droopSpan := by
    rw [hspan] at hne
    rw [hdeviation, hspan]
    field_simp
    ring
  unfold droopOutput
  rw [hwell.droopCurve_eq, hunder, buildDroopCurve_under hdroop hcommand]
  unfold responseShare
  simp only [hunder, Bool.true_eq_false, and_false, if_false]
  by_cases hlimit : component.droopLimitFlag = true
  · rw [if_pos hlimit, List.cons_append, List.nil_append,
      getCurveCmd_ramp (by linarith) hdroop (by linarith), Option.some.injEq, hline]
    by_cases h1 : frequency < component.droopFreqHz
    · rw [if_pos h1, if_neg (by linarith), if_neg (by linarith), if_pos ⟨hlimit, by linarith⟩,
        mul_one]
    rw [if_neg h1]
    by_cases h2 : frequency < component.triggerFreqHz
    · have hne : component.droopSpan ≠ 0 := by linarith
      rw [if_pos h2, hshare hne, if_neg (by linarith), if_neg (by linarith)]
      split
      · rename_i hfull
        have hsame : component.deviation frequency = component.droopSpan := by linarith
        rw [hsame, div_self hne]
      · rfl
    · rw [if_neg h2]
      by_cases h3 : component.deviation frequency < 0
      · rw [if_pos h3, mul_zero]
      · have hzero : component.deviation frequency = 0 := by linarith
        rw [if_neg h3, if_pos hzero, mul_zero]
  · have hne : component.droopSpan ≠ 0 := hcurve.resolve_left hlimit
    have hlt : component.droopFreqHz < component.triggerFreqHz := by
      apply lt_of_le_of_ne hdroop
      intro heq
      exact hne (by linarith)
    rw [if_neg hlimit, List.nil_append, getCurveCmd_three hlt (by linarith),
      lineThrough_flat, Option.some.injEq, hline, hshare hne]
    simp only [hlimit, Bool.false_eq_true, false_and, if_false]
    by_cases h2 : frequency < component.triggerFreqHz
    · rw [if_pos h2, if_neg (by linarith), if_neg (by linarith)]
    · rw [if_neg h2]
      by_cases h3 : component.deviation frequency < 0
      · rw [if_pos h3, mul_zero]
      · have hzero : component.deviation frequency = 0 := by linarith
        rw [if_neg h3, if_pos hzero, mul_zero]

/-- An over-frequency response is the share of the command. -/
theorem droopOutput_over (hwell : component.WellFormed)
    (hover : component.isUnderfrequencyComponent = false)
    (hcurve : component.droopLimitFlag = true ∨ component.droopSpan ≠ 0) :
    component.droopOutput frequency =
      some (component.signedActiveCmdKW * component.responseShare frequency) := by
  have hspan : component.droopSpan = component.droopFreqHz - component.triggerFreqHz := by
    simp [droopSpan, deviation, hover]
  have hdeviation : component.deviation frequency = frequency - component.triggerFreqHz := by
    simp [deviation, hover]
  have hnonneg := hwell.droopSpan_nonneg
  have hcommand : component.signedActiveCmdKW ≤ 0 := by
    rw [hwell.signedActiveCmdKW_eq, if_neg (by simp [hover])]
    linarith [hwell.activeCmdKW_nonneg]
  have hdroop : component.triggerFreqHz ≤ component.droopFreqHz := by linarith
  have hline : lineThrough component.triggerFreqHz 0 component.droopFreqHz
      component.signedActiveCmdKW frequency =
        component.signedActiveCmdKW *
          (component.deviation frequency / component.droopSpan) := by
    unfold lineThrough
    rw [hdeviation, hspan]
    ring
  unfold droopOutput
  rw [hwell.droopCurve_eq, hover, buildDroopCurve_over hdroop hcommand]
  unfold responseShare
  simp only [hover, and_true]
  by_cases hlimit : component.droopLimitFlag = true
  · rw [if_pos hlimit, List.cons_append, List.cons_append, List.cons_append, List.nil_append,
      getCurveCmd_ramp (by linarith) hdroop (by linarith), Option.some.injEq, hline]
    by_cases h1 : frequency < component.triggerFreqHz
    · rw [if_pos h1, if_pos (by linarith), mul_zero]
    have hbeyond : ¬ component.deviation frequency < 0 := by linarith
    rw [if_neg h1, if_neg hbeyond]
    by_cases h2 : frequency < component.droopFreqHz
    · have hpos : ¬ component.droopSpan = 0 := by linarith
      rw [if_pos h2]
      by_cases hzero : component.deviation frequency = 0
      · rw [if_pos hzero, if_neg hpos, hzero, zero_div]
      · rw [if_neg hzero, if_neg fun hfull => by linarith]
    · rw [if_neg h2]
      by_cases hzero : component.deviation frequency = 0
      · rw [if_pos hzero, if_pos (by linarith), mul_one]
      · rw [if_neg hzero, if_pos ⟨hlimit, by linarith⟩, mul_one]
  · have hne : component.droopSpan ≠ 0 := hcurve.resolve_left hlimit
    have hlt : component.triggerFreqHz < component.droopFreqHz := by
      apply lt_of_le_of_ne hdroop
      intro heq
      exact hne (by linarith)
    rw [if_neg hlimit, List.append_nil, getCurveCmd_three (by linarith) hlt,
      lineThrough_flat, Option.some.injEq, hline]
    simp only [hlimit, Bool.false_eq_true, false_and, if_false, if_neg hne]
    by_cases h1 : frequency < component.triggerFreqHz
    · rw [if_pos h1, if_pos (by linarith), mul_zero]
    · rw [if_neg h1, if_neg (by linarith)]
      by_cases hzero : component.deviation frequency = 0
      · rw [if_pos hzero, hzero, zero_div]
      · rw [if_neg hzero]

/-- The droop output is the share of the command. -/
theorem droopOutput_eq (hwell : component.WellFormed)
    (hcurve : component.droopLimitFlag = true ∨ component.droopSpan ≠ 0) :
    component.droopOutput frequency =
      some (component.signedActiveCmdKW * component.responseShare frequency) := by
  cases hunder : component.isUnderfrequencyComponent with
  | true => exact droopOutput_under hwell hunder hcurve
  | false => exact droopOutput_over hwell hunder hcurve

/-! ## Shares -/

theorem responseShare_nonneg (hwell : component.WellFormed) :
    0 ≤ component.responseShare frequency := by
  have hnonneg := hwell.droopSpan_nonneg
  unfold responseShare
  simp only
  split
  · exact le_refl 0
  rename_i hdeviation
  split
  · split
    · exact zero_le_one
    · exact le_refl 0
  split
  · exact zero_le_one
  · exact div_nonneg (not_lt.mp hdeviation) hnonneg

/-- Nothing is the share on the safe side. -/
theorem responseShare_safe (hsafe : component.deviation frequency < 0) :
    component.responseShare frequency = 0 := by
  simp [responseShare, hsafe]

/-- Nothing is the share at the trigger of a curve that does not jump. -/
theorem responseShare_trigger (hspan : component.droopSpan ≠ 0)
    (htrigger : component.deviation frequency = 0) : component.responseShare frequency = 0 := by
  simp [responseShare, htrigger, hspan]

/-- The share of a limited curve is full from its droop frequency on. -/
theorem responseShare_limited (hwell : component.WellFormed)
    (hlimit : component.droopLimitFlag = true)
    (hdeviation : component.droopSpan ≤ component.deviation frequency)
    (htrigger : component.deviation frequency ≠ 0) : component.responseShare frequency = 1 := by
  have hnonneg := hwell.droopSpan_nonneg
  have hpos : ¬ component.deviation frequency < 0 := by linarith
  simp [responseShare, hlimit, hdeviation, htrigger, hpos]

/-- The share of a curve that is not limited grows in proportion. -/
theorem responseShare_unlimited (hlimit : component.droopLimitFlag = false)
    (hspan : component.droopSpan ≠ 0) (hdeviation : 0 ≤ component.deviation frequency) :
    component.responseShare frequency = component.deviation frequency / component.droopSpan := by
  have hpos : ¬ component.deviation frequency < 0 := not_lt.mpr hdeviation
  by_cases hzero : component.deviation frequency = 0
  · simp [responseShare, hzero, hspan]
  · simp [responseShare, hzero, hpos, hlimit]

/-- A droop frequency that is not the trigger leaves the curve something to span. -/
theorem droopSpan_ne_zero (hne : component.droopFreqHz ≠ component.triggerFreqHz) :
    component.droopSpan ≠ 0 := by
  unfold droopSpan deviation
  split
  · exact sub_ne_zero.mpr hne.symm
  · exact sub_ne_zero.mpr hne

/-- The share is full at the droop frequency, whether or not the curve is limited. -/
theorem responseShare_droop (hwell : component.WellFormed) (hspan : component.droopSpan ≠ 0)
    (hdroop : component.deviation frequency = component.droopSpan) :
    component.responseShare frequency = 1 := by
  have hnonneg := hwell.droopSpan_nonneg
  cases hlimit : component.droopLimitFlag with
  | true => exact responseShare_limited hwell hlimit hdroop.ge (hdroop ▸ hspan)
  | false => rw [responseShare_unlimited hlimit hspan (hdroop ▸ hnonneg), hdroop, div_self hspan]

/-- The sign of the command leaves its magnitude. -/
theorem abs_signedActiveCmdKW (hwell : component.WellFormed) :
    |component.signedActiveCmdKW| = |component.activeCmdKW| := by
  rw [hwell.signedActiveCmdKW_eq]
  split
  · rfl
  · exact abs_neg _

theorem responseShare_le_one (hwell : component.WellFormed)
    (hlimit : component.droopLimitFlag = true) : component.responseShare frequency ≤ 1 := by
  have hnonneg := hwell.droopSpan_nonneg
  unfold responseShare
  simp only [hlimit, true_and]
  split
  · exact zero_le_one
  split
  · split
    · exact le_refl 1
    · exact zero_le_one
  split
  · exact le_refl 1
  · rename_i hbelow
    exact div_le_one_of_le₀ (not_le.mp hbelow).le hnonneg

/-- A greater deviation has no smaller share. -/
theorem responseShare_mono (hwell : component.WellFormed)
    (hcurve : component.droopLimitFlag = true ∨ component.droopSpan ≠ 0) {frequency' : ℚ}
    (hle : component.deviation frequency ≤ component.deviation frequency') :
    component.responseShare frequency ≤ component.responseShare frequency' := by
  have hnonneg := hwell.droopSpan_nonneg
  by_cases hsafe : component.deviation frequency < 0
  · rw [responseShare_safe hsafe]
    exact responseShare_nonneg hwell
  have hsafe' : ¬ component.deviation frequency' < 0 := by linarith
  by_cases hlimit : component.droopLimitFlag = true
  · by_cases hfull : component.droopSpan ≤ component.deviation frequency'
    · by_cases htrigger : component.deviation frequency' = 0
      · have hsame : component.deviation frequency = 0 := by linarith
        have heq : component.responseShare frequency = component.responseShare frequency' := by
          simp only [responseShare, hsame, htrigger]
        exact heq.le
      · rw [responseShare_limited hwell hlimit hfull htrigger]
        exact responseShare_le_one hwell hlimit
    · have hne : component.droopSpan ≠ 0 := by linarith
      have hbelow : ¬ component.droopSpan ≤ component.deviation frequency := by linarith
      have hshare {f : ℚ} (h : ¬ component.deviation f < 0)
          (hb : ¬ component.droopSpan ≤ component.deviation f) :
          component.responseShare f = component.deviation f / component.droopSpan := by
        by_cases hzero : component.deviation f = 0
        · simp [responseShare, hzero, hne]
        · simp [responseShare, hzero, h, hb]
      rw [hshare hsafe hbelow, hshare hsafe' hfull]
      exact div_le_div_of_nonneg_right hle hnonneg
  · have hne : component.droopSpan ≠ 0 := hcurve.resolve_left hlimit
    have hunlimited : component.droopLimitFlag = false := by simpa using hlimit
    rw [responseShare_unlimited hunlimited hne (not_lt.mp hsafe),
      responseShare_unlimited hunlimited hne (not_lt.mp hsafe')]
    exact div_le_div_of_nonneg_right hle hnonneg

end FreqRespComponent

/-! ## The droop of accepted settings -/

/-- The settings that an accepted component keeps. -/
theorem initializeState_config
    (haccepted : initializeState gridTargetFreqHz config = some component) :
    component.toDroopConfig = { config with activeCmdKW := |config.activeCmdKW| } ∧
      component.isUnderfrequencyComponent = decide (config.triggerFreqHz < gridTargetFreqHz) := by
  have habs : (if config.activeCmdKW < 0 then -1 * config.activeCmdKW else config.activeCmdKW) =
      |config.activeCmdKW| := by
    split
    · rename_i hneg
      rw [abs_of_neg hneg]
      ring
    · rename_i hnonneg
      rw [abs_of_nonneg (not_lt.mp hnonneg)]
  unfold initializeState at haccepted
  simp only [habs] at haccepted
  split at haccepted
  · simp at haccepted
  split at haccepted
  · simp at haccepted
  rw [Option.some.injEq] at haccepted
  subst haccepted
  constructor
  · simp
  · simp

/-- What a droop output does over the frequencies. -/
structure FollowsDroop (config : DroopConfig) (component : FreqRespComponent) : Prop where
  /-- No division by zero happens. -/
  output_exists : ∀ frequency, ∃ output, component.droopOutput frequency = some output
  /-- There is no response on the safe side. -/
  safe_side : ∀ frequency, component.deviation frequency < 0 →
    component.droopOutput frequency = some 0
  /-- There is no response at the trigger if the curve does not jump there. -/
  at_trigger : config.droopFreqHz ≠ config.triggerFreqHz →
    component.droopOutput config.triggerFreqHz = some 0
  /-- The response grows with the deviation, upwards for UF and downwards for OF. -/
  monotone : ∀ frequency frequency' output output',
    component.deviation frequency ≤ component.deviation frequency' →
    component.droopOutput frequency = some output →
    component.droopOutput frequency' = some output' →
    if component.isUnderfrequencyComponent then output ≤ output' else output' ≤ output
  /-- A limited response stays within the commanded magnitude. -/
  within_command : config.droopLimitFlag = true → ∀ frequency output,
    component.droopOutput frequency = some output → |output| ≤ |config.activeCmdKW|
  /-- The response is the full command at the droop frequency if the curve does not jump there. -/
  full_at_droop : config.droopFreqHz ≠ config.triggerFreqHz →
    component.droopOutput config.droopFreqHz = some component.signedActiveCmdKW
  /-- A limited response is the full command beyond the droop frequency. -/
  full_beyond_droop : config.droopLimitFlag = true → ∀ frequency,
    component.droopSpan < component.deviation frequency →
    component.droopOutput frequency = some component.signedActiveCmdKW
  /-- A response that is not limited goes on climbing linearly. -/
  climbs : config.droopLimitFlag = false → ∀ frequency, 0 ≤ component.deviation frequency →
    component.droopOutput frequency = some (component.signedActiveCmdKW *
      (component.deviation frequency / component.droopSpan))

open FreqRespComponent in
/-- The output of an accepted component follows its droop, unless the curve jumps and goes on. -/
theorem initializeState_followsDroop
    (haccepted : initializeState gridTargetFreqHz config = some component)
    (hcurve : config.droopLimitFlag = true ∨ config.droopFreqHz ≠ config.triggerFreqHz) :
    component.signedActiveCmdKW = (if config.triggerFreqHz < gridTargetFreqHz
      then |config.activeCmdKW| else -|config.activeCmdKW|) ∧ FollowsDroop config component := by
  have hwell := initializeState_wellFormed haccepted
  obtain ⟨hconfig, hunder⟩ := initializeState_config haccepted
  have hcmd : component.activeCmdKW = |config.activeCmdKW| := by rw [hconfig]
  have htrigger : component.triggerFreqHz = config.triggerFreqHz := by rw [hconfig]
  have hdroop : component.droopFreqHz = config.droopFreqHz := by rw [hconfig]
  have hflag : component.droopLimitFlag = config.droopLimitFlag := by rw [hconfig]
  have hsigned := hwell.signedActiveCmdKW_eq
  rw [hcmd] at hsigned
  have hspan (hne : config.droopFreqHz ≠ config.triggerFreqHz) : component.droopSpan ≠ 0 := by
    apply droopSpan_ne_zero
    rwa [hdroop, htrigger]
  have hcurve' : component.droopLimitFlag = true ∨ component.droopSpan ≠ 0 := by
    rw [hflag]
    exact hcurve.imp_right hspan
  have htriggered : component.deviation config.triggerFreqHz = 0 := by
    simp [deviation, htrigger]
  have hdrooped : component.deviation config.droopFreqHz = component.droopSpan := by
    rw [droopSpan, hdroop]
  refine ⟨by simpa [hunder] using hsigned, ?_⟩
  constructor
  · intro frequency
    exact ⟨_, droopOutput_eq hwell hcurve'⟩
  · intro frequency hsafe
    rw [droopOutput_eq hwell hcurve', responseShare_safe hsafe, mul_zero]
  · intro hne
    rw [droopOutput_eq hwell hcurve', responseShare_trigger (hspan hne) htriggered, mul_zero]
  · intro frequency frequency' output output' hle houtput houtput'
    rw [droopOutput_eq hwell hcurve', Option.some.injEq] at houtput houtput'
    subst houtput houtput'
    have hmono := responseShare_mono hwell hcurve' hle
    have hnonneg := abs_nonneg config.activeCmdKW
    rw [hsigned]
    split
    · exact mul_le_mul_of_nonneg_left hmono hnonneg
    · exact mul_le_mul_of_nonpos_left hmono (neg_nonpos.mpr hnonneg)
  · intro hlimit frequency output houtput
    rw [droopOutput_eq hwell hcurve', Option.some.injEq] at houtput
    have hmagnitude : |component.signedActiveCmdKW| = |config.activeCmdKW| := by
      rw [abs_signedActiveCmdKW hwell, hcmd, abs_abs]
    rw [← houtput, abs_mul, hmagnitude, abs_of_nonneg (responseShare_nonneg hwell)]
    exact mul_le_of_le_one_right (abs_nonneg _) (responseShare_le_one hwell (hflag.trans hlimit))
  · intro hne
    rw [droopOutput_eq hwell hcurve', responseShare_droop hwell (hspan hne) hdrooped, mul_one]
  · intro hlimit frequency hbeyond
    have hnonneg := hwell.droopSpan_nonneg
    have hne : component.deviation frequency ≠ 0 := by linarith
    rw [droopOutput_eq hwell hcurve',
      responseShare_limited hwell (hflag.trans hlimit) hbeyond.le hne, mul_one]
  · intro hlimit frequency hdeviation
    have hunlimited : component.droopLimitFlag = false := hflag.trans hlimit
    have hne : component.droopSpan ≠ 0 := hcurve'.resolve_left (by simp [hunlimited])
    rw [droopOutput_eq hwell hcurve', responseShare_unlimited hunlimited hne hdeviation]

/-- A response to 59 Hz that is full at 58 Hz. -/
def droopToFiftyEight : DroopConfig where
  activeCmdKW := 100
  triggerFreqHz := 59
  droopFreqHz := 58
  droopLimitFlag := false

/-- The component of these settings. -/
def droopComponent : FreqRespComponent where
  toDroopConfig := droopToFiftyEight
  isUnderfrequencyComponent := true
  signedActiveCmdKW := 100
  droopCurve := [(58, 100), (59, 0), (60, 0)]

theorem initializeState_droopComponent :
    initializeState 60 droopToFiftyEight = some droopComponent := by
  have hcurve : buildDroopCurve droopToFiftyEight true 100 = [(58, 100), (59, 0), (60, 0)] := by
    rw [buildDroopCurve_under (by norm_num [droopToFiftyEight]) (by norm_num)]
    norm_num [droopToFiftyEight]
  norm_num [initializeState, droopToFiftyEight, droopComponent] at hcurve ⊢
  exact hcurve

theorem droopComponent_follows : (100 : ℚ) = (if droopToFiftyEight.triggerFreqHz < 60
      then |droopToFiftyEight.activeCmdKW| else -|droopToFiftyEight.activeCmdKW|) ∧
    FollowsDroop droopToFiftyEight droopComponent :=
  initializeState_followsDroop initializeState_droopComponent
    (.inr (by norm_num [droopToFiftyEight]))

/-- A frequency of 57 Hz has the component respond with twice its command. -/
theorem droopComponent_exceeds : ∃ component : FreqRespComponent,
    initializeState 60 droopToFiftyEight = some component ∧
      component.activeCmdKW = 100 ∧ component.droopOutput 57 = some 200 := by
  refine ⟨droopComponent, initializeState_droopComponent, ?_, ?_⟩
  · simp [droopComponent, droopToFiftyEight]
  · norm_num [FreqRespComponent.droopOutput, droopComponent, getCurveCmd, lineAt, divide]

end Accepted

end HybridOs.SiteFreqResp
