import Mathlib.Data.List.Perm.Basic
import Mathlib.Data.List.Nodup

/-!
# Depth-first search in postorder

A search finishes a node after the nodes that it requests, unless they are on the path that leads to
it. What a node requests may depend on the state of the search, so a request is a function of it.
With more fuel than nodes that are off the path, the search comes to an end.
-/

namespace HybridOs.PostOrder

open Relation

variable {α : Type*}

/-- The nodes that are finished, in order, and the path to the one that is visited. -/
structure Search (α : Type*) where
  finished : List α
  path : List α

section FoldM

variable {σ β : Type*} {f : σ → β → Option σ} {I : σ → Prop} {R : σ → σ → Prop} {D : β → σ → Prop}

/-- A fold that may fail comes to an end when each of its steps does; what a step achieves for its
element is kept by the steps after it. -/
theorem foldlM_spec (hrefl : ∀ s, R s s) (htrans : ∀ s t u, R s t → R t u → R s u)
    (hkeep : ∀ b s t, D b s → R s t → D b t) (bs : List β)
    (hstep : ∀ b ∈ bs, ∀ s, I s → ∃ t, f s b = some t ∧ I t ∧ R s t ∧ D b t) (s : σ) (hs : I s) :
    ∃ t, bs.foldlM f s = some t ∧ I t ∧ R s t ∧ ∀ b ∈ bs, D b t := by
  induction bs generalizing s with
  | nil =>
    exact ⟨s, rfl, hs, hrefl s, by simp⟩
  | cons b bs ih =>
    have ⟨t, hft, ht, hst, hbt⟩ := hstep b List.mem_cons_self s hs
    have ⟨u, hfu, hu, htu, hbs⟩ := ih (fun c hc => hstep c (List.mem_cons_of_mem b hc)) t ht
    refine ⟨u, ?_, hu, htrans s t u hst htu, ?_⟩
    · rw [List.foldlM_cons, hft]
      exact hfu
    · intro c hc
      cases List.mem_cons.mp hc with
      | inl hcb => exact hcb ▸ hkeep b t u hbt htu
      | inr hc => exact hbs c hc

/-- Steps on images, one after another. -/
theorem bind_map_eq {τ : Type*} (g : σ → τ) {x : Option σ} {y : σ → Option σ} {x' : Option τ}
    {y' : τ → Option τ} (hx : x' = x.map g) (hy : ∀ t, y' (g t) = (y t).map g) :
    x'.bind y' = (x.bind y).map g := by
  rw [hx]
  cases x with
  | none => rfl
  | some t => exact hy t

/-- A fold on images is the image of a fold. -/
theorem foldlM_map {τ : Type*} (g : σ → τ) {h : τ → β → Option τ}
    (hstep : ∀ b s, h (g s) b = (f s b).map g) (bs : List β) (s : σ) :
    bs.foldlM h (g s) = (bs.foldlM f s).map g := by
  induction bs generalizing s with
  | nil => rfl
  | cons b bs ih =>
    rw [List.foldlM_cons, List.foldlM_cons]
    exact bind_map_eq g (hstep b s) ih

/-- A fold over the parts of every element. -/
theorem foldlM_flatMap {γ : Type*} (parts : γ → List β) (cs : List γ) (s : σ) :
    (cs.flatMap parts).foldlM f s = cs.foldlM (fun s c => (parts c).foldlM f s) s := by
  induction cs generalizing s with
  | nil => rfl
  | cons c cs ih =>
    rw [List.flatMap_cons, List.foldlM_append, List.foldlM_cons]
    exact congrArg ((parts c).foldlM f s).bind (funext fun t => ih t)

end FoldM

variable [DecidableEq α] (requests : α → List (Search α → List α))

/-- Visit a node: what it requests first, then the node itself. -/
def visit : ℕ → α → Search α → Option (Search α)
  | 0, _, _ => none
  | fuel + 1, a, s =>
    if a ∈ s.finished ∨ a ∈ s.path then some s
    else do
      let s' ← (requests a).foldlM
        (fun s request => (request s).foldlM (fun s b => visit fuel b s) s)
        ⟨s.finished, a :: s.path⟩
      some ⟨s'.finished ++ [a], s'.path.erase a⟩

/-- A node may request another one. -/
def Requests (a b : α) : Prop := ∃ request ∈ requests a, ∃ s, b ∈ request s

/-- A node requests another one whatever the state of the search. -/
def Needs (a b : α) : Prop := ∃ request ∈ requests a, ∀ s, b ∈ request s

/-- Each node of the list comes after what it needs, cycles apart. -/
def Placed (finished : List α) : Prop :=
  ∀ pre a post, finished = pre ++ a :: post →
    ∀ b, Needs requests a b → b ∈ pre ∨ ReflTransGen (Requests requests) b a

/-- What holds of a search in every state. -/
structure Sound (nodes : List α) (s : Search α) : Prop where
  nodup : s.finished.Nodup
  apart : ∀ a ∈ s.path, a ∉ s.finished
  known : ∀ a ∈ s.finished, a ∈ nodes
  placed : Placed requests s.finished

/-- A search went on from one state to another and is back at the same node. -/
structure Grows (s t : Search α) : Prop where
  path : t.path = s.path
  finished : s.finished ⊆ t.finished

/-- The number of nodes that are not on the path. -/
def offPath (nodes : List α) (path : List α) : ℕ := (nodes.filter (· ∉ path)).length

variable {requests} {nodes : List α} {s t : Search α} {a : α}

omit [DecidableEq α] in
theorem Grows.refl (s : Search α) : Grows s s := ⟨rfl, List.Subset.refl _⟩

omit [DecidableEq α] in
theorem Grows.trans {u : Search α} (hst : Grows s t) (htu : Grows t u) : Grows s u :=
  ⟨htu.path.trans hst.path, List.Subset.trans hst.finished htu.finished⟩

omit [DecidableEq α] in
theorem placed_nil : Placed requests [] := by
  intro pre a post h
  simp at h

omit [DecidableEq α] in
theorem placed_append_singleton {finished : List α} (h : Placed requests finished)
    (ha : ∀ b, Needs requests a b → b ∈ finished ∨ ReflTransGen (Requests requests) b a) :
    Placed requests (finished ++ [a]) := by
  intro pre c post heq
  cases List.eq_nil_or_concat post with
  | inl hpost =>
    rw [hpost] at heq
    have ⟨hpre, hca⟩ := List.append_inj' heq rfl
    rw [← hpre, ← List.head_eq_of_cons_eq hca]
    exact ha
  | inr hpost =>
    have ⟨earlier, d, hpost⟩ := hpost
    rw [hpost, List.concat_eq_append, ← List.cons_append, ← List.append_assoc] at heq
    exact h pre c earlier (List.append_inj' heq rfl).1

omit [DecidableEq α] in
/-- A node that is entered is on the path and not finished. -/
theorem Sound.enter (h : Sound requests nodes s) (ha : a ∉ s.finished) :
    Sound requests nodes ⟨s.finished, a :: s.path⟩ where
  nodup := h.nodup
  apart := by
    intro b hb
    cases List.mem_cons.mp hb with
    | inl hba => exact hba ▸ ha
    | inr hb => exact h.apart b hb
  known := h.known
  placed := h.placed

omit [DecidableEq α] in
/-- A node is finished when what it needs is finished or on the path to it. -/
theorem Sound.leave (h : Sound requests nodes s) (ha : a ∈ nodes) {path : List α}
    (hpath : s.path = a :: path) (hapath : a ∉ path) (hneeds : ∀ b, Needs requests a b →
      b ∈ s.finished ∨ ReflTransGen (Requests requests) b a) :
    Sound requests nodes ⟨s.finished ++ [a], path⟩ where
  nodup := by
    have hfinished : a ∉ s.finished := h.apart a (hpath ▸ List.mem_cons_self)
    exact List.nodup_append_comm.mp (List.nodup_cons.mpr ⟨hfinished, h.nodup⟩)
  apart := by
    intro b hb hfinished
    cases List.mem_append.mp hfinished with
    | inl hfinished => exact h.apart b (hpath ▸ List.mem_cons_of_mem a hb) hfinished
    | inr hba => exact hapath (List.mem_singleton.mp hba ▸ hb)
  known := by
    intro b hb
    cases List.mem_append.mp hb with
    | inl hb => exact h.known b hb
    | inr hba => exact List.mem_singleton.mp hba ▸ ha
  placed := placed_append_singleton h.placed hneeds

theorem offPath_cons_lt (ha : a ∈ nodes) {path : List α} (hpath : a ∉ path) :
    offPath nodes (a :: path) < offPath nodes path := by
  unfold offPath
  have hsub : (nodes.filter (· ∉ a :: path)) = (nodes.filter (· ∉ path)).filter (· ≠ a) := by
    rw [List.filter_filter]
    refine List.filter_congr fun b _ => ?_
    simp
  rw [hsub]
  refine List.length_filter_lt_length_iff_exists.mpr ⟨a, ?_, by simp⟩
  simpa using ⟨ha, hpath⟩

/-- A visit comes to an end. Its node is finished then, if it is not on the path. -/
theorem visit_spec (hknown : ∀ a b, Requests requests a b → b ∈ nodes) {fuel : ℕ}
    (hfuel : offPath nodes s.path < fuel) (ha : a ∈ nodes) (hs : Sound requests nodes s)
    (hpath : ∀ p ∈ s.path, ReflTransGen (Requests requests) p a) :
    ∃ t, visit requests fuel a s = some t ∧ Sound requests nodes t ∧ Grows s t ∧
      (a ∈ t.finished ∨ a ∈ s.path) := by
  induction fuel generalizing a s with
  | zero => omega
  | succ fuel ih =>
    rw [visit]
    by_cases hvisited : a ∈ s.finished ∨ a ∈ s.path
    · exact ⟨s, if_pos hvisited, hs, Grows.refl s, hvisited⟩
    have ⟨hfinished, hoff⟩ := not_or.mp hvisited
    have hlt : offPath nodes (a :: s.path) < fuel :=
      Nat.lt_of_lt_of_le (offPath_cons_lt ha hoff) (Nat.lt_succ_iff.mp hfuel)
    -- while the requests are handled the search is at the node
    let I : Search α → Prop := fun t => Sound requests nodes t ∧ t.path = a :: s.path
    let D : α → Search α → Prop := fun b t => b ∈ t.finished ∨ b ∈ a :: s.path
    have hD : ∀ b t u, D b t → Grows t u → D b u :=
      fun b t u hb htu => hb.imp_left fun hb => htu.finished hb
    have hone : ∀ b, Requests requests a b → ∀ t, I t →
        ∃ u, visit requests fuel b t = some u ∧ I u ∧ Grows t u ∧ D b u := by
      intro b hab t ⟨ht, htpath⟩
      have hreach : ∀ p ∈ t.path, ReflTransGen (Requests requests) p b := by
        intro p hp
        rw [htpath] at hp
        cases List.mem_cons.mp hp with
        | inl hpa => exact hpa ▸ ReflTransGen.single hab
        | inr hp => exact (hpath p hp).tail hab
      have ⟨u, hvisit, hu, htu, hb⟩ :=
        ih (htpath ▸ hlt) (hknown a b hab) ht hreach
      rw [htpath] at hb
      exact ⟨u, hvisit, ⟨hu, htu.path.trans htpath⟩, htu, hb⟩
    have hrequest : ∀ request ∈ requests a, ∀ t, I t →
        ∃ u, (request t).foldlM (fun s b => visit requests fuel b s) t = some u ∧ I u ∧
          Grows t u ∧ ∀ b, (∀ t, b ∈ request t) → D b u := by
      intro request hmem t ht
      have ⟨u, hfold, hu, htu, hall⟩ :=
        foldlM_spec Grows.refl (fun _ _ _ => Grows.trans) hD (request t)
          (fun b hb => hone b ⟨request, hmem, t, hb⟩) t ht
      exact ⟨u, hfold, hu, htu, fun b hb => hall b (hb t)⟩
    have ⟨u, hfold, ⟨hu, hupath⟩, hsu, hall⟩ :=
      foldlM_spec (I := I) (R := Grows) (D := fun request t => ∀ b, (∀ s, b ∈ request s) → D b t)
        Grows.refl (fun _ _ _ => Grows.trans) (fun request t u h htu b hb => hD b t u (h b hb) htu)
        (requests a) hrequest ⟨s.finished, a :: s.path⟩ ⟨hs.enter hfinished, rfl⟩
    have hneeds : ∀ b, Needs requests a b →
        b ∈ u.finished ∨ ReflTransGen (Requests requests) b a := by
      intro b ⟨request, hmem, hb⟩
      cases hall request hmem b hb with
      | inl hb => exact Or.inl hb
      | inr hb =>
        cases List.mem_cons.mp hb with
        | inl hba => exact Or.inr (hba ▸ ReflTransGen.refl)
        | inr hb => exact Or.inr (hpath b hb)
    refine ⟨⟨u.finished ++ [a], s.path⟩, ?_, hu.leave ha hupath hoff hneeds, ⟨rfl, ?_⟩, ?_⟩
    · rw [if_neg hvisited, hfold, ← List.erase_cons_head a s.path, ← hupath]
      rfl
    · exact fun b hb => List.mem_append_left [a] (hsu.finished hb)
    · exact Or.inl (List.mem_append_right u.finished List.mem_cons_self)

/-- The search from every node in turn finishes each of them once, after what it needs. -/
theorem visitAll_spec
    (hknown : ∀ a b, Requests requests a b → b ∈ nodes) {fuel : ℕ} (hfuel : nodes.length < fuel)
    (starts : List α) (hstarts : ∀ a, a ∈ starts ↔ a ∈ nodes) :
    ∃ t, starts.foldlM (fun s a => visit requests fuel a s) ⟨[], []⟩ = some t ∧
      t.finished.Nodup ∧ (∀ a, a ∈ t.finished ↔ a ∈ nodes) ∧ Placed requests t.finished := by
  have hstep : ∀ a ∈ starts, ∀ s : Search α, Sound requests nodes s ∧ s.path = [] →
      ∃ t, visit requests fuel a s = some t ∧ (Sound requests nodes t ∧ t.path = []) ∧
        Grows s t ∧ a ∈ t.finished := by
    intro a ha s ⟨hs, hpath⟩
    have hoff : offPath nodes s.path < fuel :=
      Nat.lt_of_le_of_lt (List.length_filter_le _ nodes) hfuel
    have ⟨t, hvisit, ht, hst, hdone⟩ :=
      visit_spec hknown hoff ((hstarts a).mp ha) hs (by simp [hpath])
    rw [hpath] at hdone
    exact ⟨t, hvisit, ⟨ht, hst.path.trans hpath⟩, hst, hdone.resolve_right (List.not_mem_nil)⟩
  have ⟨t, hfold, ⟨ht, _⟩, _, hall⟩ :=
    foldlM_spec (I := fun s => Sound requests nodes s ∧ s.path = []) (R := Grows)
      (D := fun a t => a ∈ t.finished) Grows.refl (fun _ _ _ => Grows.trans) (fun a s t ha hst => hst.finished ha) starts hstep ⟨[], []⟩
      ⟨⟨List.nodup_nil, by simp, by simp, placed_nil⟩, rfl⟩
  exact ⟨t, hfold, ht.nodup, fun a => ⟨ht.known a, fun ha => hall a ((hstarts a).mpr ha)⟩,
    ht.placed⟩

end HybridOs.PostOrder
