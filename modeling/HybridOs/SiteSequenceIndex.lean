import HybridOs.CheckedRun
import HybridOs.SiteSequenceStep

/-!
# Index safety of sequences

Inside an accepted configuration every read of a call is in range but one: the
timeout branch names the current step after the index has been advanced. It
reads past the end exactly when the last step of a path exits in a call in
which its timer has expired.
-/

namespace HybridOs.SiteSequenceIndex

open SiteUtils SiteSequence SiteSequenceStep CheckedRun

/-- The current path exists, and so does the current step unless the sequence
is bypassed. -/
def InRange (sequence : Sequence) (st : SequenceState) : Prop :=
  ∃ path, sequence.paths[st.currentPathIndex]? = some path ∧
    (st.sequenceBypass = false → st.currentStepIndex < path.steps.length)

/-- The last step of the current path exits in a call, and the timer of the path
has expired by then; the run is the one past a reset of the sequence. -/
def FinishesLate (sequence : Sequence) (input : CallInput) (run : Run) : Prop :=
  ∃ path step, sequence.paths[run.1.currentPathIndex]? = some path ∧
    path.steps[run.1.currentStepIndex]? = some step ∧
    run.1.currentStepIndex + 1 = path.steps.length ∧
    StepExits sequence input step (started path input run) ∧
    exitTimerTrips path (started path input run).2 = true

/-- A call finishes late on a sequence that is not bypassed. -/
def FinishesExpired (sequence : Sequence) (input : CallInput) (run : Run) : Prop :=
  (trySequenceReset input run).1.sequenceBypass = false ∧
    FinishesLate sequence input (trySequenceReset input run)

variable {sequence : Sequence} {run : Run}

theorem inRange_initialState (ha : sequence.Accepted) (targets : ℕ → ℕ → ℕ → Timespec) :
    InRange sequence (initialState targets) := by
  have hpos := List.length_pos_of_ne_nil ha.paths
  exact ⟨_, List.getElem?_eq_getElem hpos, fun _ =>
    List.length_pos_of_ne_nil (ha.steps _ (List.getElem_mem hpos))⟩

theorem inRange_trySequenceReset (ha : sequence.Accepted) (input : CallInput)
    (h : InRange sequence run.1) : InRange sequence (trySequenceReset input run).1 := by
  unfold trySequenceReset
  dsimp only
  split_ifs
  · obtain ⟨path, rest, hpaths⟩ := List.exists_cons_of_ne_nil ha.paths
    have hfirst : sequence.paths[0]? = some path := by rw [hpaths]; rfl
    have hmem : path ∈ sequence.paths := hpaths ▸ List.mem_cons_self ..
    exact ⟨path, hfirst, fun _ => List.length_pos_of_ne_nil (ha.steps path hmem)⟩
  · exact h

theorem checkTimeout_ok_iff (path : Path) (input : CallInput) (run : Run) :
    (∃ result, checkTimeout path input run = .ok result) ↔
      ¬ (exitTimerTrips path run.2 = true ∧ path.steps.length ≤ run.1.currentStepIndex) := by
  unfold checkTimeout Path.stepAt
  by_cases htrips : exitTimerTrips path run.2 = true
  · rw [if_pos htrips]
    by_cases hlength : path.steps.length ≤ run.1.currentStepIndex
    · rw [List.getElem?_eq_none hlength]
      refine ⟨fun ⟨_, h⟩ => ?_, fun h => absurd ⟨htrips, hlength⟩ h⟩
      exact absurd h (by simp)
    · rw [List.getElem?_eq_getElem (not_le.mp hlength)]
      exact ⟨fun _ h => hlength h.2, fun _ => ⟨_, rfl⟩⟩
  · rw [if_neg htrips]
    exact ⟨fun _ h => htrips h.1, fun _ => ⟨_, rfl⟩⟩

theorem checkTimeout_fst {path : Path} {input : CallInput} {result : Run × Bool}
    (h : checkTimeout path input run = .ok result) : result.1.1 = run.1 := by
  unfold checkTimeout at h
  split_ifs at h
  · cases hstep : path.stepAt run.1.currentStepIndex with
    | error e =>
      rw [hstep] at h
      exact absurd h (by simp)
    | ok step =>
      rw [hstep] at h
      cases h
      rfl
  · cases h
    rfl

theorem exitTimerTrips_congr (path : Path) {status status' : SequencesStatus}
    (htime : status'.currentTime = status.currentTime)
    (htarget : status'.exitTargetTime = status.exitTargetTime) :
    exitTimerTrips path status' = exitTimerTrips path status := by
  unfold exitTimerTrips
  rw [htime, htarget]

/-- Completion and timeout on the path that the step has led to. -/
theorem finish_ok_iff {next : Path} (input : CallInput)
    (hnext : sequence.paths[run.1.currentPathIndex]? = some next) :
    ((∃ result, checkTimeout next input (completeSequence next run) = .ok result) ↔
      ¬ (exitTimerTrips next run.2 = true ∧ next.steps.length ≤ run.1.currentStepIndex)) ∧
    ∀ result, checkTimeout next input (completeSequence next run) = .ok result →
      InRange sequence result.1.1 := by
  obtain ⟨hpath, hstep, -, htime, htarget, -⟩ := completeSequence_index next run
  refine ⟨?_, fun result h => ?_⟩
  · rw [checkTimeout_ok_iff, exitTimerTrips_congr next htime htarget, hstep]
  · rw [checkTimeout_fst h]
    refine ⟨next, hpath ▸ hnext, fun hactive => ?_⟩
    have hopen : ¬ (completeSequence next run).1.sequenceBypass = true := by
      rw [hactive]
      decide
    rw [completeSequence_bypass, not_or] at hopen
    rw [hstep]
    exact not_le.mp hopen.2

/-- From a state in range, a call fails exactly when it finishes a path whose
timer has expired; otherwise the next state is in range. -/
theorem callSequence_ok_iff (ha : sequence.Accepted) (input : CallInput)
    (hrange : InRange sequence run.1) :
    ((∃ result, callSequence sequence input run = .ok result) ↔
      ¬ FinishesExpired sequence input run) ∧
    ∀ result, callSequence sequence input run = .ok result → InRange sequence result.1.1 := by
  obtain ⟨path, hpath, hindex⟩ := inRange_trySequenceReset ha input hrange
  obtain ⟨hpathIndex, hstepIndex, -, hbypassSame, -, -⟩ :=
    started_index path input (trySequenceReset input run)
  cases hbypass : (trySequenceReset input run).1.sequenceBypass with
  | true =>
    rw [callSequence_bypassed hpath hbypass]
    refine ⟨⟨fun _ hf => ?_, fun _ => ⟨_, rfl⟩⟩, ?_⟩
    · have hactive := hf.1
      rw [hbypass] at hactive
      exact Bool.noConfusion hactive
    · rintro result ⟨⟩
      refine ⟨path, hpathIndex ▸ hpath, fun hfalse => ?_⟩
      rw [prepared, hbypassSame, hbypass] at hfalse
      exact Bool.noConfusion hfalse
  | false =>
    have hlt := hindex hbypass
    obtain ⟨step, hstep⟩ : ∃ step,
        path.steps[(trySequenceReset input run).1.currentStepIndex]? = some step :=
      ⟨_, List.getElem?_eq_getElem hlt⟩
    have hsame := sameCall_runStep sequence input step (prepared path input run)
    have hat : sequence.paths[(prepared path input run).1.currentPathIndex]? = some path :=
      hpathIndex ▸ hpath
    have hatStep : path.steps[(prepared path input run).1.currentStepIndex]? = some step :=
      hstepIndex ▸ hstep
    obtain ⟨next, hnext, hexit, hstay⟩ := runStep_next ha input hat hatStep
    obtain ⟨hok, hkeeps⟩ := finish_ok_iff input hnext
    rw [callSequence_active hpath hbypass hstep hnext]
    refine ⟨hok.trans (not_congr ⟨fun hend => ?_, fun hf => ?_⟩), hkeeps⟩
    · obtain ⟨htrips, hlength⟩ := hend
      have hexits : StepExits sequence input step (prepared path input run) :=
        not_not.mp fun h => absurd (hstay h) (not_lt.mpr hlength)
      obtain ⟨rfl, hindexNext⟩ := hexit hexits
      refine ⟨hbypass, next, step, hpath, hstep, ?_, hexits, ?_⟩
      · rw [hindexNext, prepared, hstepIndex] at hlength
        omega
      · rw [← htrips]
        exact (exitTimerTrips_congr next hsame.currentTime hsame.exitTargetTime).symm
    · obtain ⟨-, path', step', hpath', hstep', hlast, hexits, htrips⟩ := hf
      obtain rfl : path = path' := Option.some_inj.mp (hpath.symm.trans hpath')
      obtain rfl : step = step' := Option.some_inj.mp (hstep.symm.trans hstep')
      obtain ⟨rfl, hindexNext⟩ := hexit hexits
      refine ⟨?_, ?_⟩
      · rw [← htrips]
        exact exitTimerTrips_congr next hsame.currentTime hsame.exitTargetTime
      · rw [hindexNext, prepared, hstepIndex]
        omega

/-- A successful call only resets a bypassed sequence, and otherwise runs the
current step, completes and times out. -/
theorem callSequence_cases (ha : sequence.Accepted) {input : CallInput}
    (hrange : InRange sequence run.1) {result : Run × Bool}
    (hok : callSequence sequence input run = .ok result) :
    ((trySequenceReset input run).1.sequenceBypass = true ∧
      ∃ path, result = (prepared path input run, false)) ∨
    ∃ path step next, AtStep sequence (trySequenceReset input run).1 path step ∧
      sequence.paths[(runStep sequence input step
        (prepared path input run)).1.currentPathIndex]? = some next ∧
      checkTimeout next input (completeSequence next
        (runStep sequence input step (prepared path input run))) = .ok result := by
  obtain ⟨path, hpath, hindex⟩ := inRange_trySequenceReset ha input hrange
  cases hbypass : (trySequenceReset input run).1.sequenceBypass with
  | true =>
    rw [callSequence_bypassed hpath hbypass] at hok
    cases hok
    exact Or.inl ⟨rfl, path, rfl⟩
  | false =>
    obtain ⟨hpathIndex, hstepIndex, -⟩ := started_index path input (trySequenceReset input run)
    have hstep := List.getElem?_eq_getElem (hindex hbypass)
    have hbefore := hindex hbypass
    set step := path.steps[(trySequenceReset input run).1.currentStepIndex]
    have hat : sequence.paths[(prepared path input run).1.currentPathIndex]? = some path :=
      hpathIndex ▸ hpath
    have hatStep : path.steps[(prepared path input run).1.currentStepIndex]? = some step :=
      hstepIndex ▸ hstep
    obtain ⟨next, hnext, -⟩ := runStep_next ha input hat hatStep
    rw [callSequence_active hpath hbypass hstep hnext] at hok
    exact Or.inr ⟨path, step, next, ⟨hbypass, hpath, hstep⟩, hnext, hok⟩

end HybridOs.SiteSequenceIndex
