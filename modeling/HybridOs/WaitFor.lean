import Mathlib.Order.WellFounded

/-!
# Workers that wait for one another

A blocked worker waits for one other worker to act. A set of workers is stuck when each of
them is blocked and waits for a member of the set. Where waiting for another worker always
leads down a ranking, workers are stuck exactly when one waits for itself.
-/

namespace HybridOs.WaitFor

variable {ω : Type*} (blockedOn : ω → Option ω)

/-- Every worker of the set is blocked, and waits for a worker of the set. -/
def Stuck (workers : Set ω) : Prop :=
  workers.Nonempty ∧ ∀ w ∈ workers, ∃ d ∈ workers, blockedOn w = some d

/-- A worker that waits for itself is stuck alone. -/
theorem stuck_singleton {w : ω} (h : blockedOn w = some w) : Stuck blockedOn {w} := by
  refine ⟨Set.singleton_nonempty w, fun v hv => ?_⟩
  obtain rfl : v = w := hv
  exact ⟨v, rfl, h⟩

/-- Where waiting for another worker leads down a ranking, workers are stuck exactly when
one waits for itself. -/
theorem exists_stuck_iff {rank : ω → ℕ}
    (hrank : ∀ w d, blockedOn w = some d → d ≠ w → rank d < rank w) :
    (∃ workers, Stuck blockedOn workers) ↔ ∃ w, blockedOn w = some w := by
  constructor
  · intro h
    obtain ⟨workers, hnonempty, hblocked⟩ := h
    have hwf : WellFounded (fun a b : ω => rank a < rank b) := InvImage.wf rank Nat.lt_wfRel.wf
    have hmin := hwf.min_mem workers hnonempty
    obtain ⟨d, hd, hwaits⟩ := hblocked _ hmin
    have hnot := hwf.not_lt_min workers hd
    by_cases hself : d = hwf.min workers hnonempty
    · rw [← hself] at hwaits
      exact ⟨d, hwaits⟩
    · exact absurd (hrank _ d hwaits hself) hnot
  · intro h
    obtain ⟨w, hw⟩ := h
    exact ⟨{w}, stuck_singleton blockedOn hw⟩

end HybridOs.WaitFor
