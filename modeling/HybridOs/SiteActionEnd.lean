import HybridOs.SiteActionIndex

/-!
# What ending an action does to every action

An action that ends with no shutdown action takes its status at once, and a
shutdown action that ends releases the waiting ones. An action with a single
shutdown action of its name waits, and that one starts over. Each case is said
as what becomes of the action at any position.
-/

namespace HybridOs.SiteActionEnd

open SiteUtils SiteSequence SiteSequenceStep SiteAction SiteActionStep SiteActionIndex

/-- Ending the action enters at most one shutdown action: it names none, or it is
an ordinary action and exactly one shutdown action has the name. -/
def EndsWell (positions : String → List ℕ) (ref : ActionRef) (action : Action) : Prop :=
  action.shutdownSequence = "" ∨
    ref.isShutdown = false ∧ ∃ index, positions action.shutdownSequence = [index]

/-- The shutdown actions of each name. -/
def shutdownPositions (asset : AssetActions) (name : String) : List ℕ :=
  namedPositions asset.shutdownActions name

variable {asset : AssetActions} {ref : ActionRef}

theorem shutdownPositions_congr {asset' : AssetActions} (h : SameConfig asset asset') :
    shutdownPositions asset' = shutdownPositions asset :=
  funext fun name => namedPositions_congr h.shutdownActions name

/-- What becomes of the action at a position when another one ends. -/
def afterEnd (positions : String → List ℕ) (ref : ActionRef) (ending : Action)
    (setStatus : ActionStatusState) (other : ActionRef) (action : Action) : Action :=
  if ending.shutdownSequence = "" then
    if other = ref then takeStatus setStatus action
    else if ref.isShutdown = true ∧ other.isShutdown = false then swapStatus action
    else action
  else if other = ref then awaitShutdown setStatus 1 action
  else if other.isShutdown = true ∧ other.index ∈ positions ending.shutdownSequence then
    restart .inProgress action
  else action

theorem exitAutomation_congr {action action' : Action} (h : config action' = config action)
    (setStatus : ActionStatusState) :
    asset.exitAutomation ref action' setStatus = asset.exitAutomation ref action setStatus := by
  have hflag : action'.isShutdownSequence = action.isShutdownSequence :=
    congrArg (fun c => c.2.1) h
  have hname : action'.shutdownSequence = action.shutdownSequence := congrArg (fun c => c.2.2) h
  unfold AssetActions.exitAutomation
  rw [hflag, hname]

/-- An ending that enters at most one shutdown action, at every position. -/
theorem get?_exitAutomation {ending : Action} (setStatus : ActionStatusState)
    (hflag : ending.isShutdownSequence = ref.isShutdown)
    (hwell : EndsWell (shutdownPositions asset) ref ending) (other : ActionRef) :
    (asset.exitAutomation ref ending setStatus).get? other =
      (asset.get? other).map (afterEnd (shutdownPositions asset) ref ending setStatus other) := by
  by_cases hname : ending.shutdownSequence = ""
  · have hexit : (asset.exitAutomation ref ending setStatus).get? other =
        ((if ending.isShutdownSequence then asset.decouple.releaseExiting
          else asset.decouple).update ref (takeStatus setStatus)).get? other := by
      unfold AssetActions.exitAutomation
      rw [if_pos hname]
      rfl
    rw [hexit]
    unfold afterEnd
    simp only [if_pos hname]
    by_cases hother : other = ref
    · subst hother
      simp only [if_true]
      rw [get?_update_same, hflag]
      cases hshutdown : other.isShutdown with
      | true =>
        rw [if_pos rfl, get?_releaseExiting, hshutdown]
        simp [AssetActions.get?, AssetActions.vector, AssetActions.decouple, AssetActions.publish]
      | false =>
        simp [AssetActions.get?, AssetActions.vector, AssetActions.decouple, AssetActions.publish]
    · simp only [if_neg hother]
      rw [get?_update_other _ _ hother, hflag]
      cases hshutdown : ref.isShutdown with
      | true =>
        rw [if_pos rfl, get?_releaseExiting]
        cases other.isShutdown <;>
          simp [AssetActions.get?, AssetActions.vector, AssetActions.decouple, AssetActions.publish]
      | false =>
        simp [AssetActions.get?, AssetActions.vector, AssetActions.decouple, AssetActions.publish]
  · obtain ⟨hordinary, index, hindex⟩ := hwell.resolve_left hname
    have hpositions : namedPositions asset.shutdownActions ending.shutdownSequence = [index] :=
      hindex
    set entered := asset.decouple.update ref (awaitShutdown setStatus 1)
    have hexit : asset.exitAutomation ref ending setStatus =
        entered.enterShutdown ending.shutdownSequence := by
      unfold AssetActions.exitAutomation
      rw [if_neg hname]
      dsimp only
      rw [show namedPositions asset.decouple.shutdownActions ending.shutdownSequence = [index]
        from hpositions]
      rfl
    have hentered : namedPositions entered.shutdownActions ending.shutdownSequence = [index] :=
      (namedPositions_congr (sameConfig_update asset.decouple ref (awaitShutdown setStatus 1)
        (fun _ => rfl)).shutdownActions _).trans hpositions
    rw [hexit, get?_enterShutdown, hentered]
    unfold afterEnd shutdownPositions
    rw [hpositions]
    simp only [if_neg hname]
    by_cases hother : other = ref
    · subst hother
      rw [if_neg (by rw [hordinary]; exact fun h => Bool.noConfusion h.1), get?_update_same]
      simp only [if_true]
      rfl
    · rw [get?_update_other _ _ hother]
      simp only [if_neg hother]
      split_ifs <;> simp [AssetActions.get?, AssetActions.vector, AssetActions.decouple,
        AssetActions.publish]

/-- An ending leaves no pointer and no name, or points at the shutdown action. -/
theorem exitAutomation_pointer {ending : Action} (setStatus : ActionStatusState)
    (hwell : EndsWell (shutdownPositions asset) ref ending) :
    ((asset.exitAutomation ref ending setStatus).quickActionAccess = none ∧
      (asset.exitAutomation ref ending setStatus).currentSequenceName = "") ∨
    ending.shutdownSequence ≠ "" ∧ ref.isShutdown = false ∧ ∃ index,
      shutdownPositions asset ending.shutdownSequence = [index] ∧
      (asset.exitAutomation ref ending setStatus).quickActionAccess = some ⟨true, index⟩ := by
  by_cases hname : ending.shutdownSequence = ""
  · refine Or.inl ?_
    unfold AssetActions.exitAutomation
    rw [if_pos hname]
    refine ⟨(update_pointer _ _ _).1.trans ?_, rfl⟩
    split_ifs <;> rfl
  · obtain ⟨hordinary, index, hindex⟩ := hwell.resolve_left hname
    refine Or.inr ⟨hname, hordinary, index, hindex, ?_⟩
    unfold AssetActions.exitAutomation
    rw [if_neg hname]
    dsimp only
    set entries := (namedPositions asset.decouple.shutdownActions ending.shutdownSequence).length
    have hentered : namedPositions (asset.decouple.update ref
        (awaitShutdown setStatus entries)).shutdownActions ending.shutdownSequence = [index] :=
      (namedPositions_congr (sameConfig_update asset.decouple ref (awaitShutdown setStatus entries)
        (fun _ => rfl)).shutdownActions _).trans hindex
    unfold AssetActions.enterShutdown
    rw [hentered]
    rfl

end HybridOs.SiteActionEnd
