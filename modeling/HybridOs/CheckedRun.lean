import Mathlib.Data.List.Forall2

/-!
# Runs of a checked step

A step takes a state and an input and either fails or gives the next state. A
run feeds it a list of inputs. The library carries an invariant along a run
whose steps meet a guard, and says when a run fails.
-/

namespace HybridOs.CheckedRun

variable {σ ι ε : Type*}

/-- A composition that succeeds has succeeded in both its parts. -/
theorem of_bind_ok {α β : Type _} {x : Except ε α} {f : α → Except ε β} {b : β}
    (h : x >>= f = .ok b) : ∃ a, x = .ok a ∧ f a = .ok b := by
  cases x with
  | error e => exact absurd h (by simp [bind, Except.bind])
  | ok a => exact ⟨a, rfl, h⟩

/-- Checking a list succeeds if and only if checking each of its elements does. -/
theorem mapM_ok_iff {α β : Type _} {f : α → Except ε β} {as : List α} {bs : List β} :
    as.mapM f = .ok bs ↔ List.Forall₂ (fun a b => f a = .ok b) as bs := by
  induction as generalizing bs with
  | nil =>
    rw [List.forall₂_nil_left_iff]
    constructor
    · intro h
      cases h
      rfl
    · rintro rfl
      rfl
  | cons a rest ih =>
    rw [List.mapM_cons]
    constructor
    · intro h
      obtain ⟨b, hb, h⟩ := of_bind_ok h
      obtain ⟨others, hothers, h⟩ := of_bind_ok h
      cases h
      exact .cons hb (ih.mp hothers)
    · intro h
      cases h with
      | cons hb hothers =>
        rw [hb, ih.mpr hothers]
        rfl

/-- What succeeds has passed the check before it. -/
theorem of_guard_ok {α : Type*} {c : Prop} [Decidable c] {e : ε} {x : Except ε α} {a : α}
    (h : (if c then throw e else x) = .ok a) : ¬ c ∧ x = .ok a := by
  split_ifs at h with hc
  exact ⟨hc, h⟩

/-- A result that is there has succeeded. -/
theorem ok_of_toOption {α : Type*} {x : Except ε α} {a : α} (h : x.toOption = some a) :
    x = .ok a := by
  cases x with
  | error e => cases h
  | ok a' =>
    cases h
    rfl

/-- Feed the inputs to the step, up to the first failure. -/
def run (step : σ → ι → Except ε σ) : σ → List ι → Except ε σ
  | s, [] => .ok s
  | s, i :: rest =>
    match step s i with
    | .ok s' => run step s' rest
    | .error e => .error e

/-- Every step that the run makes meets the guard. -/
def Guarded (step : σ → ι → Except ε σ) (guard : σ → ι → Prop) : σ → List ι → Prop
  | _, [] => True
  | s, i :: rest => guard s i ∧ ∀ s', step s i = .ok s' → Guarded step guard s' rest

variable {step : σ → ι → Except ε σ} {guard : σ → ι → Prop}

/-- A guard that always holds holds along every run. -/
theorem guarded_of_forall
    (h : ∀ s i, guard s i) (s : σ) (inputs : List ι) : Guarded step guard s inputs := by
  induction inputs generalizing s with
  | nil => trivial
  | cons i rest ih => exact ⟨h s i, fun s' _ => ih s'⟩

variable {s : σ} {i : ι}

/-- A first step that meets the guard, and a guarded run from where it leads. -/
theorem guarded_cons {s' : σ} {rest : List ι} (hguard : guard s i) (hstep : step s i = .ok s')
    (hrest : Guarded step guard s' rest) : Guarded step guard s (i :: rest) := by
  refine ⟨hguard, fun mid hmid => ?_⟩
  rw [hstep] at hmid
  exact Except.ok.inj hmid ▸ hrest

theorem run_cons_ok {s' : σ} (h : step s i = .ok s') (rest : List ι) :
    run step s (i :: rest) = run step s' rest := by
  rw [run, h]

theorem run_cons_error {e : ε} (h : step s i = .error e) (rest : List ι) :
    run step s (i :: rest) = .error e := by
  rw [run, h]

/-- A run that does not avoid an event meets it at some step. -/
theorem exists_of_not_guarded {event : σ → ι → Prop} {inputs : List ι}
    (h : ¬ Guarded step (fun s i => ¬ event s i) s inputs) :
    ∃ before i after mid, inputs = before ++ i :: after ∧ run step s before = .ok mid ∧
      event mid i := by
  induction inputs generalizing s with
  | nil => exact absurd trivial h
  | cons i rest ih =>
    by_cases hi : event s i
    · exact ⟨[], i, rest, s, rfl, rfl, hi⟩
    · rw [Guarded, not_and] at h
      obtain ⟨next, hnext⟩ := not_forall.mp (h hi)
      obtain ⟨hstep, hrest⟩ := Classical.not_imp.mp hnext
      obtain ⟨before, j, after, mid, hsplit, hrun, hevent⟩ := ih hrest
      exact ⟨i :: before, j, after, mid, by rw [hsplit, List.cons_append],
        (run_cons_ok hstep before).trans hrun, hevent⟩

/-- Where every guarded step keeps the invariant, so does a guarded run. -/
theorem run_invariant {inv : σ → Prop}
    (hstep : ∀ s i s', inv s → guard s i → step s i = .ok s' → inv s') {s s' : σ}
    {inputs : List ι} (hs : inv s) (hguard : Guarded step guard s inputs)
    (hrun : run step s inputs = .ok s') : inv s' := by
  induction inputs generalizing s with
  | nil =>
    cases hrun
    exact hs
  | cons i rest ih =>
    cases hi : step s i with
    | error e =>
      rw [run_cons_error hi] at hrun
      exact absurd hrun (by simp)
    | ok mid =>
      rw [run_cons_ok hi] at hrun
      exact ih (hstep s i mid hs hguard.1 hi) (hguard.2 mid hi) hrun

/-- Where every guarded step from the invariant obeys a law and keeps the
invariant, all steps of a guarded run obey the law. -/
theorem guarded_law {law : σ → ι → Prop} (inv : σ → Prop)
    (hstep : ∀ s i, inv s → guard s i → law s i ∧ ∀ s', step s i = .ok s' → inv s')
    {inputs : List ι} (hs : inv s) (hguard : Guarded step guard s inputs) :
    Guarded step law s inputs := by
  induction inputs generalizing s with
  | nil => trivial
  | cons i rest ih =>
    obtain ⟨hlaw, hnext⟩ := hstep s i hs hguard.1
    exact ⟨hlaw, fun s' hs' => ih (hnext s' hs') (hguard.2 s' hs')⟩

/-- Where a step from the invariant succeeds exactly under the guard, a run
succeeds exactly when all its steps meet the guard. -/
theorem run_ok_iff (inv : σ → Prop) (hok : ∀ s i, inv s → ((∃ s', step s i = .ok s') ↔ guard s i))
    (hstep : ∀ s i s', inv s → step s i = .ok s' → inv s') (inputs : List ι) (hs : inv s) :
    (∃ s', run step s inputs = .ok s') ↔ Guarded step guard s inputs := by
  induction inputs generalizing s with
  | nil => exact ⟨fun _ => trivial, fun _ => ⟨s, rfl⟩⟩
  | cons i rest ih =>
    cases hi : step s i with
    | error e =>
      rw [run_cons_error hi]
      refine ⟨fun h => ?_, fun h => ?_⟩
      · obtain ⟨_, hx⟩ := h
        exact absurd hx (by simp)
      · obtain ⟨s', hx⟩ := (hok s i hs).mpr h.1
        rw [hi] at hx
        exact absurd hx (by simp)
    | ok mid =>
      rw [run_cons_ok hi, ih (hstep s i mid hs hi)]
      refine ⟨fun h => ⟨(hok s i hs).mp ⟨mid, hi⟩, fun s' hs' => ?_⟩, fun h => h.2 mid hi⟩
      rw [hi, Except.ok.injEq] at hs'
      exact hs' ▸ h

end HybridOs.CheckedRun
