import Mathlib

/-!
# Taking texts apart

Texts are lists of characters of any type. A text is split at a separator of any length, from
the left and without overlaps. Slash-separated paths are cleaned of empty and dotted elements.
-/

namespace HybridOs.GoText

variable {α : Type*} [DecidableEq α]

/-- The parts of a text between separators: those of the separator still to be skipped are
counted down, and the part read so far is kept in reverse. -/
def splitFrom (separator : List α) : ℕ → List α → List α → List (List α)
  | _, part, [] => [part.reverse]
  | skip + 1, part, _ :: text => splitFrom separator skip part text
  | 0, part, c :: text =>
    if separator <+: c :: text then
      part.reverse :: splitFrom separator (separator.length - 1) [] text
    else splitFrom separator 0 (c :: part) text

/-- `strings.Split`, at a separator that is not empty. -/
def split (separator text : List α) : List (List α) := splitFrom separator 0 [] text

theorem splitFrom_single (c : α) (part text : List α) :
    (splitFrom [c] 0 part text).length = text.count c + 1 := by
  induction text generalizing part with
  | nil => rfl
  | cons x text ih =>
    rw [splitFrom]
    split_ifs with hstarts
    · have hx : c = x := (List.cons_prefix_cons.1 hstarts).1
      rw [List.length_cons, List.length_singleton, ih, hx, List.count_cons_self]
    · have hx : x ≠ c := by
        rintro rfl
        exact hstarts (List.cons_prefix_cons.2 ⟨rfl, List.nil_prefix⟩)
      rw [ih, List.count_cons_of_ne hx]

/-- A text has one part more than it has separators of one character. -/
theorem split_single_length (c : α) (text : List α) :
    (split [c] text).length = text.count c + 1 := splitFrom_single c [] text

variable {separator before after part : List α}

/-- A text without the separator has one part. -/
theorem splitFrom_of_not_infix {text : List α} (part : List α) (h : ¬ separator <:+: text) :
    splitFrom separator 0 part text = [part.reverse ++ text] := by
  induction text generalizing part with
  | nil => simp [splitFrom]
  | cons c text ih =>
    have hstarts : ¬ separator <+: c :: text := fun hstarts => h hstarts.isInfix
    have htext : ¬ separator <:+: text := fun htext => h (htext.trans (List.infix_cons List.infix_rfl))
    rw [splitFrom, if_neg hstarts, ih (c :: part) htext]
    simp

theorem split_without {text : List α} (h : ¬ separator <:+: text) :
    split separator text = [text] := splitFrom_of_not_infix [] h

theorem splitFrom_skip (separator part skipped text : List α) :
    splitFrom separator skipped.length part (skipped ++ text) =
      splitFrom separator 0 part text := by
  induction skipped with
  | nil => rfl
  | cons c skipped ih =>
    rw [List.length_cons, List.cons_append, splitFrom]
    exact ih

/-- The first part of a text ends where the separator first begins. -/
theorem splitFrom_first (hseparator : separator ≠ []) (part : List α)
    (h : ∀ k < before.length, ¬ separator <+: (before ++ separator ++ after).drop k) :
    splitFrom separator 0 part (before ++ separator ++ after) =
      (part.reverse ++ before) :: split separator after := by
  induction before generalizing part with
  | nil =>
    obtain ⟨c, rest, rfl⟩ := List.exists_cons_of_ne_nil hseparator
    have hstarts : c :: rest <+: c :: (rest ++ after) := ⟨after, rfl⟩
    have hskip := splitFrom_skip (c :: rest) [] rest after
    simp only [List.nil_append, List.cons_append, splitFrom, if_pos hstarts, List.append_nil]
    rw [List.length_cons, Nat.add_sub_cancel, hskip]
    rfl
  | cons c before ih =>
    have hhead := h 0 (by simp)
    have hrest : ∀ k < before.length, ¬ separator <+: (before ++ separator ++ after).drop k :=
      fun k hk => h (k + 1) (by simpa using hk)
    rw [List.drop_zero, List.cons_append, List.cons_append] at hhead
    rw [List.cons_append, List.cons_append, splitFrom, if_neg hhead, ih (c :: part) hrest]
    simp

theorem split_first (hseparator : separator ≠ [])
    (h : ∀ k < before.length, ¬ separator <+: (before ++ separator ++ after).drop k) :
    split separator (before ++ separator ++ after) = before :: split separator after :=
  splitFrom_first hseparator [] h

/-- A text with a separator has a first one. -/
theorem exists_first {text : List α} (h : separator <:+: text) :
    ∃ before after, text = before ++ separator ++ after ∧
      ∀ k < before.length, ¬ separator <+: text.drop k := by
  induction text with
  | nil =>
    have hnil := List.infix_nil.1 h
    exact ⟨[], [], by simp [hnil], by simp⟩
  | cons c text ih =>
    by_cases hstarts : separator <+: c :: text
    · obtain ⟨after, hafter⟩ := hstarts
      exact ⟨[], after, hafter.symm, by simp⟩
    · have htext := (List.infix_cons_iff.1 h).resolve_left hstarts
      obtain ⟨before, after, heq, hfirst⟩ := ih htext
      refine ⟨c :: before, after, by rw [heq]; simp, fun k hk => ?_⟩
      cases k with
      | zero => exact hstarts
      | succ k => exact hfirst k (by simpa using hk)

/-- A text with a separator has at least two parts. -/
theorem two_le_length_split {text : List α} (hseparator : separator ≠ []) (h : separator <:+: text) :
    2 ≤ (split separator text).length := by
  obtain ⟨before, after, rfl, hfirst⟩ := exists_first h
  rw [split_first hseparator hfirst, List.length_cons]
  have hpos : 0 < (split separator after).length := by
    by_cases hafter : separator <:+: after
    · obtain ⟨first, last, heq, hlast⟩ := exists_first hafter
      rw [heq, split_first hseparator (heq ▸ hlast)]
      simp
    · rw [split_without hafter]
      simp
  omega

/-! ## Parts -/

/-- `strings.Contains`. -/
def contains (text part : List α) : Bool := decide (part <:+: text)

/-- A part of a text that is as long as the text is the text. -/
theorem eq_of_contains {text : List α} (h : contains text part = true)
    (hlength : text.length ≤ part.length) : part = text :=
  (of_decide_eq_true h).sublist.eq_of_length_le hlength

theorem length_le_of_contains {text : List α} (h : contains text part = true) :
    part.length ≤ text.length := (of_decide_eq_true h).length_le

/-! ## Paths -/

variable (slash dot : α)

/-- The elements of a cleaned path, in reverse: an element that goes up takes the one before. -/
def cleanElements (rooted : Bool) : List (List α) → List (List α) → List (List α)
  | done, [] => done
  | done, element :: elements =>
    if element = [] ∨ element = [dot] then cleanElements rooted done elements
    else if element = [dot, dot] then
      match done with
      | [] => cleanElements rooted (if rooted then [] else [element]) elements
      | last :: before =>
        if last = [dot, dot] then cleanElements rooted (element :: done) elements
        else cleanElements rooted before elements
    else cleanElements rooted (element :: done) elements

/-- `path.Clean`. -/
def clean (path : List α) : List α :=
  let rooted := path.head? = some slash
  let elements := (cleanElements dot rooted [] (split [slash] path)).reverse
  let cleaned := (if rooted then [slash] else []) ++ [slash].intercalate elements
  if cleaned = [] then [dot] else cleaned

/-- `path.Join`. -/
def join (elements : List (List α)) : List α :=
  if elements.all (· = []) then []
  else clean slash dot ([slash].intercalate (elements.dropWhile (· = [])))

/-- The file of `path.Split`. -/
def file (path : List α) : List α := (split [slash] path).getLastD []

end HybridOs.GoText
