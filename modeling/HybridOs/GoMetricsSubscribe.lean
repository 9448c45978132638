import Mathlib.Algebra.Order.BigOperators.Group.List
import Mathlib.Algebra.Order.Group.Nat

/-!
# The URIs that are subscribed to

At most 64 URIs are subscribed to. Duplicates are removed, a URI below one that is kept is
dropped, and while there are too many all of them are shortened; what is left always has an
ancestor of every URI that was asked for.
-/

namespace HybridOs.GoMetrics.Subscribe

/-- A URI as its characters. -/
abbrev Uri := List Char

/-- `strings.LastIndex`, of one character. -/
def lastIndex (c : Char) : Uri → Option ℕ
  | [] => none
  | x :: uri =>
    match lastIndex c uri with
    | some ind => some (ind + 1)
    | none => if x = c then some 0 else none

/-- `GetParentUri`. -/
def GetParentUri (uri : Uri) : Uri :=
  match lastIndex '/' uri with
  | none => if uri ≠ [] then '/' :: uri else uri
  | some 0 => uri
  | some ind => if uri.head? ≠ some '/' then '/' :: uri.take ind else uri.take ind

/-- `removeDuplicateValues`: the first of every value stays. -/
def removeDuplicateValues (uris : List Uri) : List Uri :=
  uris.foldl (fun list entry => if entry ∈ list then list else list ++ [entry]) []

/-- The fragments of a URI. -/
def fragments (uri : Uri) : List Uri := uri.splitOn '/'

/-- The state of a round: the URIs that remain, the index into them, and the output. -/
structure Squashing where
  uris2 : List Uri
  i : ℕ
  uriOutput : List Uri

/-- One URI of a round, which is taken out at its own length. The index is that after the
increment, so that a removal before the last place leaves it. -/
def Squashing.step (uriLength : ℕ) (s : Squashing) (uri : Uri) : Squashing :=
  if (fragments uri).length = uriLength then
    let parent := ['/'].intercalate ((fragments uri).take (uriLength - 1))
    let uriOutput :=
      if 1 < uriLength ∧ parent ∈ s.uriOutput then s.uriOutput else s.uriOutput ++ [uri]
    if s.i + 1 < s.uris2.length then
      ⟨s.uris2.take s.i ++ s.uris2.drop (s.i + 1), s.i, uriOutput⟩
    else ⟨s.uris2.take s.i, s.i + 1, uriOutput⟩
  else { s with i := s.i + 1 }

/-- The rounds of `squashUris`; nothing where the fuel ends first. -/
def squashFrom : ℕ → ℕ → List Uri → List Uri → Option (List Uri)
  | 0, _, _, _ => none
  | fuel + 1, uriLength, uris, uriOutput =>
    let s := uris.foldl (Squashing.step uriLength) ⟨uris, 0, uriOutput⟩
    if s.uris2 = [] then some s.uriOutput
    else squashFrom fuel (uriLength + 1) s.uris2 s.uriOutput

/-- `squashUris`. -/
def squashUris (fuel : ℕ) (uris : List Uri) : Option (List Uri) := squashFrom fuel 1 uris []

/-- The loop that shortens URIs, with so many rounds of fuel: the URIs, and whether they are at
the base level. -/
def shortenUris (fuel : ℕ) : ℕ → Bool → List Uri → Option (List Uri × Bool)
  | rounds, base_level, uris =>
    if uris.length > 64 ∧ !base_level then
      match rounds with
      | 0 => none
      | rounds + 1 =>
        let subscribeUris2 := uris.map GetParentUri
        let base_level := subscribeUris2.all fun uri => uri = GetParentUri uri
        (squashUris fuel (removeDuplicateValues subscribeUris2)).bind
          (shortenUris fuel rounds base_level)
    else some (uris, base_level)

/-- The URIs of an echo. -/
structure EchoUris where
  Inputs : List Uri
  PublishUri : Uri

/-- The URIs that are asked for: those there were before, and those of new inputs, echoes and
outputs. -/
def collectUris (former inputs : List Uri) (echoes : List EchoUris) (outputs : List Uri) :
    List Uri :=
  former ++ (inputs.filter (· ≠ [])).map GetParentUri ++
    echoes.flatMap (fun echo => echo.Inputs.filter (· ≠ []) ++ [echo.PublishUri].filter (· ≠ [])) ++
    outputs.filter (· ≠ [])

/-- The part of `GetSubscribeUris` that reduces the URIs. -/
def reduceUris (fuel rounds : ℕ) (uris : List Uri) : Option (List Uri) :=
  (squashUris fuel (removeDuplicateValues uris)).bind fun uris =>
    (shortenUris fuel rounds false uris).map fun (uris, base_level) =>
      if base_level ∧ uris.length > 64 then [['/']] else uris

/-! ## Ancestors -/

/-- A URI is absolute. -/
def IsAbsolute (uri : Uri) : Prop := ['/'] <+: uri

/-- A URI is another one or above it, at a slash; the root is above every absolute one. -/
def IsAncestor (ancestor uri : Uri) : Prop :=
  ancestor = uri ∨ ancestor ++ ['/'] <+: uri ∨ ancestor = ['/'] ∧ IsAbsolute uri

/-- One of the URIs is an ancestor. -/
def Covered (uris : List Uri) (uri : Uri) : Prop := ∃ ancestor ∈ uris, IsAncestor ancestor uri

variable {uri : Uri} {uris : List Uri}

theorem IsAncestor.trans {a b c : Uri} (hab : IsAncestor a b) (hbc : IsAncestor b c) :
    IsAncestor a c := by
  rcases hab with rfl | hab | ⟨rfl, hb⟩
  · exact hbc
  · rcases hbc with rfl | hbc | ⟨rfl, hc⟩
    · exact Or.inr (Or.inl hab)
    · exact Or.inr (Or.inl (hab.trans ((List.prefix_append _ _).trans hbc)))
    · exact Or.inr (Or.inl (hab.trans hc))
  · rcases hbc with rfl | hbc | ⟨rfl, hc⟩
    · exact Or.inr (Or.inr ⟨rfl, hb⟩)
    · exact Or.inr (Or.inr ⟨rfl, hb.trans ((List.prefix_append _ _).trans hbc)⟩)
    · exact Or.inr (Or.inr ⟨rfl, hc⟩)

theorem Covered.trans {middle : List Uri} (h : Covered middle uri)
    (hall : ∀ other ∈ middle, Covered uris other) : Covered uris uri := by
  obtain ⟨other, hother, hancestor⟩ := h
  obtain ⟨ancestor, hmem, habove⟩ := hall other hother
  exact ⟨ancestor, hmem, habove.trans hancestor⟩

theorem Covered.of_mem (h : uri ∈ uris) : Covered uris uri := ⟨uri, h, Or.inl rfl⟩

/-! ## Parents -/

theorem lastIndex_none {c : Char} (h : lastIndex c uri = none) : c ∉ uri := by
  induction uri with
  | nil => simp
  | cons x uri ih =>
    rw [lastIndex] at h
    split at h
    · cases h
    · rename_i hnone
      split_ifs at h with hx
      exact List.not_mem_cons_of_ne_of_not_mem (Ne.symm hx) (ih hnone)

theorem lastIndex_some {c : Char} {ind : ℕ} (h : lastIndex c uri = some ind) :
    ∃ before after, uri = before ++ c :: after ∧ before.length = ind ∧ c ∉ after := by
  induction uri generalizing ind with
  | nil => cases h
  | cons x uri ih =>
    rw [lastIndex] at h
    split at h
    · rename_i last hlast
      obtain ⟨before, after, rfl, hlength, hafter⟩ := ih hlast
      exact ⟨x :: before, after, rfl, by rw [← Option.some.inj h, List.length_cons, hlength],
        hafter⟩
    · rename_i hnone
      split_ifs at h with hx
      exact ⟨[], uri, by rw [hx]; rfl, Option.some.inj h, lastIndex_none hnone⟩

/-- The parent of an absolute URI is absolute and above it, with one slash less unless it is
the same. -/
theorem GetParentUri_spec (h : IsAbsolute uri) : IsAbsolute (GetParentUri uri) ∧
    IsAncestor (GetParentUri uri) uri ∧
    (uri.count '/' ≤ 1 ∧ GetParentUri uri = uri ∨
      (GetParentUri uri).count '/' + 1 = uri.count '/') := by
  obtain ⟨rest, hrest⟩ := h
  rw [GetParentUri]
  split
  · rename_i hnone
    exact absurd (hrest ▸ List.mem_cons_self) (lastIndex_none hnone)
  · rename_i hzero
    obtain ⟨before, after, rfl, hlength, hafter⟩ := lastIndex_some hzero
    rw [List.length_eq_zero_iff.mp hlength] at hrest ⊢
    refine ⟨⟨after, rfl⟩, Or.inl rfl, Or.inl ⟨?_, rfl⟩⟩
    simp [List.count_eq_zero.mpr hafter]
  · rename_i ind hne hsome
    obtain ⟨before, after, rfl, rfl, hafter⟩ := lastIndex_some hsome
    obtain ⟨first, before, rfl⟩ := List.exists_cons_of_length_pos (Nat.pos_of_ne_zero hne)
    obtain ⟨rfl, -⟩ := List.cons.inj hrest
    rw [if_neg (by simp), List.take_left]
    refine ⟨⟨before, rfl⟩, Or.inr (Or.inl ⟨after, by simp⟩), Or.inr ?_⟩
    simp [List.count_eq_zero.mpr hafter]

theorem mem_removeDuplicateValues : uri ∈ removeDuplicateValues uris ↔ uri ∈ uris := by
  have hfold (uris list : List Uri) : uri ∈ uris.foldl
      (fun list entry => if entry ∈ list then list else list ++ [entry]) list ↔
        uri ∈ list ∨ uri ∈ uris := by
    induction uris generalizing list with
    | nil => simp
    | cons entry uris ih =>
      rw [List.foldl_cons, ih, List.mem_cons]
      split_ifs with hthere
      · refine ⟨fun h => h.imp_right Or.inr, ?_⟩
        rintro (h | rfl | h)
        · exact Or.inl h
        · exact Or.inl hthere
        · exact Or.inr h
      · rw [List.mem_append, List.mem_singleton, or_assoc]
  rw [removeDuplicateValues, hfold]
  simp

/-! ## Squashing -/

theorem fragments_length (uri : Uri) : (fragments uri).length = uri.count '/' + 1 := by
  induction uri with
  | nil => rfl
  | cons c uri ih =>
    rw [fragments] at ih
    rw [fragments, List.splitOn_cons_eq_if_modifyHead, List.count_cons]
    split_ifs with hslash <;> simp [ih]

/-- The fragments before the last one, where there are some, are those of an ancestor. -/
theorem isAncestor_fragments (h : 1 < (fragments uri).length) :
    IsAncestor (['/'].intercalate ((fragments uri).take ((fragments uri).length - 1))) uri := by
  cases hlast : lastIndex '/' uri with
  | none =>
    rw [fragments_length, List.count_eq_zero.mpr (lastIndex_none hlast)] at h
    exact absurd h (by decide)
  | some ind =>
    obtain ⟨before, after, rfl, -, hafter⟩ := lastIndex_some hlast
    have hfragments : fragments (before ++ '/' :: after) = fragments before ++ [after] := by
      rw [fragments, List.splitOn_append_cons_self, List.splitOn_eq_singleton hafter]
      rfl
    rw [hfragments, List.length_append, List.length_singleton, Nat.add_sub_cancel, List.take_left,
      fragments, List.intercalate_splitOn]
    exact Or.inr (Or.inl ⟨after, by simp⟩)

theorem Covered.mono {more : List Uri} (h : Covered uris uri) (hsub : uris ⊆ more) :
    Covered more uri := by
  obtain ⟨ancestor, hmem, habove⟩ := h
  exact ⟨ancestor, hsub hmem, habove⟩

/-- A round takes out the URIs of its length, and the output covers them. -/
theorem round_spec (uriLength : ℕ) (kept rest uriOutput : List Uri) :
    ∃ i more, rest.foldl (Squashing.step uriLength) ⟨kept ++ rest, kept.length, uriOutput⟩ =
        ⟨kept ++ rest.filter fun uri => (fragments uri).length ≠ uriLength, i,
          uriOutput ++ more⟩ ∧
      more ⊆ rest ∧ ∀ uri ∈ rest, (fragments uri).length = uriLength →
        Covered (uriOutput ++ more) uri := by
  induction rest generalizing kept uriOutput with
  | nil => exact ⟨kept.length, [], by simp, by simp, by simp⟩
  | cons uri rest ih =>
    rw [List.foldl_cons, Squashing.step]
    by_cases hlength : (fragments uri).length = uriLength
    · rw [if_pos hlength]
      -- The URI is in the output, or its parent is.
      obtain ⟨added, hadded, hsub, hcovered⟩ : ∃ added,
          (if 1 < uriLength ∧
              ['/'].intercalate ((fragments uri).take (uriLength - 1)) ∈ uriOutput
            then uriOutput else uriOutput ++ [uri]) = uriOutput ++ added ∧
          added ⊆ [uri] ∧ Covered (uriOutput ++ added) uri := by
        split_ifs with hparent
        · refine ⟨[], by simp, by simp, _, List.mem_append_left _ hparent.2, ?_⟩
          rw [← hlength] at hparent ⊢
          exact isAncestor_fragments hparent.1
        · exact ⟨[uri], rfl, fun _ h => h, Covered.of_mem (by simp)⟩
      have hall {more : List Uri} (hrest : ∀ other ∈ rest, (fragments other).length = uriLength →
          Covered (uriOutput ++ added ++ more) other) :
          ∀ other ∈ uri :: rest, (fragments other).length = uriLength →
            Covered (uriOutput ++ added ++ more) other := by
        intro other hother hsame
        rcases List.mem_cons.mp hother with rfl | hother
        · exact hcovered.mono (List.subset_append_left _ _)
        · exact hrest other hother hsame
      have hmore {more : List Uri} (hrest : more ⊆ rest) : added ++ more ⊆ uri :: rest :=
        List.append_subset.mpr ⟨List.Subset.trans hsub (by simp),
          List.Subset.trans hrest (List.subset_cons_self _ _)⟩
      dsimp only
      rw [hadded]
      split_ifs with hplace
      · obtain ⟨i, more, hrun, hsubset, hrest⟩ := ih kept (uriOutput ++ added)
        refine ⟨i, added ++ more, ?_, hmore hsubset, ?_⟩
        · simp [hrun, hlength]
        · rw [← List.append_assoc]
          exact hall hrest
      · -- Only the last URI is in the last place.
        obtain rfl : rest = [] := by
          rw [List.length_append, List.length_cons] at hplace
          exact List.length_eq_zero_iff.mp (by omega)
        have hmore := @hmore [] (by simp)
        have hall := @hall [] (by simp)
        rw [List.append_nil] at hmore hall
        exact ⟨kept.length + 1, added, by simp [hlength], hmore, hall⟩
    · rw [if_neg hlength]
      obtain ⟨i, more, hrun, hsubset, hrest⟩ := ih (kept ++ [uri]) uriOutput
      refine ⟨i, more, ?_, List.Subset.trans hsubset (List.subset_cons_self _ _), ?_⟩
      · simpa [hlength] using hrun
      · intro other hother hsame
        rcases List.mem_cons.mp hother with rfl | hother
        · exact absurd hsame hlength
        · exact hrest other hother hsame

/-- The rounds end within the fuel, and the output covers what went in. -/
theorem squashFrom_spec (fuel uriLength : ℕ) (uris uriOutput : List Uri)
    (h : ∀ uri ∈ uris, uriLength ≤ (fragments uri).length ∧
      (fragments uri).length ≤ uriLength + fuel) :
    ∃ more, squashFrom (fuel + 1) uriLength uris uriOutput = some (uriOutput ++ more) ∧
      more ⊆ uris ∧ ∀ uri ∈ uris, Covered (uriOutput ++ more) uri := by
  induction fuel generalizing uriLength uriOutput uris with
  | zero =>
    obtain ⟨i, more, hrun, hsubset, hcovered⟩ := round_spec uriLength [] uris uriOutput
    have hlength : ∀ uri ∈ uris, (fragments uri).length = uriLength := fun uri huri =>
      Nat.le_antisymm (h uri huri).2 (h uri huri).1
    have hnone : uris.filter (fun uri => (fragments uri).length ≠ uriLength) = [] := by
      simpa using hlength
    rw [hnone] at hrun
    refine ⟨more, ?_, hsubset, fun uri huri => hcovered uri huri (hlength uri huri)⟩
    rw [squashFrom]
    simp only [List.nil_append, List.length_nil] at hrun
    simp [hrun]
  | succ fuel ih =>
    obtain ⟨i, more, hrun, hsubset, hcovered⟩ := round_spec uriLength [] uris uriOutput
    rw [squashFrom]
    simp only [List.nil_append, List.length_nil] at hrun
    rw [hrun]
    dsimp only
    split_ifs with hnone
    · refine ⟨more, rfl, hsubset, fun uri huri => hcovered uri huri ?_⟩
      by_contra hother
      have hmem : uri ∈ uris.filter (fun uri => (fragments uri).length ≠ uriLength) :=
        List.mem_filter.mpr ⟨huri, decide_eq_true hother⟩
      rw [hnone] at hmem
      cases hmem
    · obtain ⟨rest, hrest, hrestSubset, hrestCovered⟩ := ih (uriLength + 1)
        (uris.filter fun uri => (fragments uri).length ≠ uriLength) (uriOutput ++ more)
        (fun uri huri => by
          obtain ⟨hmem, hne⟩ := List.mem_filter.mp huri
          have hbounds := h uri hmem
          have hne := of_decide_eq_true hne
          omega)
      refine ⟨more ++ rest, by rw [hrest, List.append_assoc],
        List.append_subset.mpr ⟨hsubset, List.Subset.trans hrestSubset (List.filter_subset_self _)⟩, ?_⟩
      intro uri huri
      rw [← List.append_assoc]
      by_cases hlength : (fragments uri).length = uriLength
      · exact (hcovered uri huri hlength).mono (List.subset_append_left _ _)
      · exact hrestCovered uri (List.mem_filter.mpr ⟨huri, decide_eq_true hlength⟩)

/-- Squashing ends and covers what went in, where the fuel is above the slashes of every URI. -/
theorem squashUris_spec (fuel : ℕ) (uris : List Uri) (h : ∀ uri ∈ uris, uri.count '/' ≤ fuel) :
    ∃ output, squashUris (fuel + 1) uris = some output ∧ output ⊆ uris ∧
      ∀ uri ∈ uris, Covered output uri := by
  obtain ⟨output, hrun, hsubset, hcovered⟩ := squashFrom_spec fuel 1 uris []
    (fun uri huri => by
      have hcount := h uri huri
      rw [fragments_length]
      omega)
  exact ⟨output, hrun, hsubset, hcovered⟩

/-! ## Shortening -/

/-- A round shortens absolute URIs to ancestors of them. -/
theorem shortened_spec {fuel : ℕ} (h : ∀ uri ∈ uris, IsAbsolute uri ∧ uri.count '/' ≤ fuel) :
    ∃ output, squashUris (fuel + 1) (removeDuplicateValues (uris.map GetParentUri)) = some output ∧
      (∀ uri ∈ output, ∃ longer ∈ uris, uri = GetParentUri longer) ∧
      ∀ uri ∈ uris, Covered output uri := by
  obtain ⟨output, hrun, hsubset, hcovered⟩ := squashUris_spec fuel
    (removeDuplicateValues (uris.map GetParentUri)) (fun uri huri => by
      obtain ⟨longer, hlonger, rfl⟩ := List.mem_map.mp (mem_removeDuplicateValues.mp huri)
      have hcount := (h longer hlonger).2
      rcases (GetParentUri_spec (h longer hlonger).1).2.2 with ⟨-, hsame⟩ | hless
      · rwa [hsame]
      · omega)
  refine ⟨output, hrun, fun uri huri => ?_, fun uri huri => ?_⟩
  · obtain ⟨longer, hlonger, rfl⟩ := List.mem_map.mp (mem_removeDuplicateValues.mp (hsubset huri))
    exact ⟨longer, hlonger, rfl⟩
  · obtain ⟨ancestor, hmem, habove⟩ := hcovered (GetParentUri uri)
      (mem_removeDuplicateValues.mpr (List.mem_map_of_mem huri))
    exact ⟨ancestor, hmem, habove.trans (GetParentUri_spec (h uri huri).1).2.1⟩

/-- The loop ends: absolute URIs lose a slash each round until they are at the base level. -/
theorem shortenUris_spec {fuel rounds : ℕ} (base_level : Bool) (uris : List Uri)
    (h : ∀ uri ∈ uris, IsAbsolute uri ∧ uri.count '/' ≤ fuel)
    (hrounds : base_level = true ∨ 0 < rounds ∧ ∀ uri ∈ uris, uri.count '/' ≤ rounds) :
    ∃ output atBase, shortenUris (fuel + 1) rounds base_level uris = some (output, atBase) ∧
      (atBase = true ∨ output.length ≤ 64) ∧ (∀ uri ∈ output, IsAbsolute uri) ∧
      ∀ uri ∈ uris, Covered output uri := by
  induction rounds generalizing uris base_level with
  | zero =>
    obtain rfl := hrounds.resolve_right fun hmore => absurd hmore.1 (Nat.lt_irrefl 0)
    exact ⟨uris, true, by rw [shortenUris]; simp, Or.inl rfl, fun uri huri => (h uri huri).1,
      fun uri huri => Covered.of_mem huri⟩
  | succ rounds ih =>
    by_cases hdone : uris.length > 64 ∧ !base_level
    · have hcounts := (hrounds.resolve_left (by simpa using hdone.2)).2
      obtain ⟨output, hsquash, hparents, hcovered⟩ := shortened_spec h
      rw [shortenUris, if_pos hdone]
      dsimp only
      rw [hsquash, Option.bind_some]
      have hnext : ∀ uri ∈ output, IsAbsolute uri ∧ uri.count '/' ≤ fuel := by
        intro uri huri
        obtain ⟨longer, hlonger, rfl⟩ := hparents uri huri
        obtain ⟨habsolute, -, hcount⟩ := GetParentUri_spec (h longer hlonger).1
        have hbound := (h longer hlonger).2
        rcases hcount with ⟨-, hsame⟩ | hless
        · rw [hsame]
          exact h longer hlonger
        · exact ⟨habsolute, by omega⟩
      have hmore : ((uris.map GetParentUri).all fun uri => uri = GetParentUri uri) = true ∨
          0 < rounds ∧ ∀ uri ∈ output, uri.count '/' ≤ rounds := by
        by_cases hall : ((uris.map GetParentUri).all fun uri => uri = GetParentUri uri) = true
        · exact Or.inl hall
        · -- A URI that is shortened further leaves a round for it.
          obtain ⟨uri, huri, hmoves⟩ : ∃ uri ∈ uris,
              GetParentUri uri ≠ GetParentUri (GetParentUri uri) := by simpa using hall
          have hpositive : 0 < rounds := by
            have hbound := hcounts uri huri
            obtain ⟨habsolute, -, hcount⟩ := GetParentUri_spec (h uri huri).1
            rcases hcount with ⟨-, hsame⟩ | hless
            · rw [hsame, hsame] at hmoves
              exact absurd rfl hmoves
            · rcases (GetParentUri_spec habsolute).2.2 with ⟨-, hsame⟩ | hlessAgain
              · exact absurd hsame.symm hmoves
              · omega
          refine Or.inr ⟨hpositive, fun uri huri => ?_⟩
          obtain ⟨longer, hlonger, rfl⟩ := hparents uri huri
          have hbound := hcounts longer hlonger
          rcases (GetParentUri_spec (h longer hlonger).1).2.2 with ⟨hone, hsame⟩ | hless
          · rw [hsame]
            omega
          · omega
      obtain ⟨result, atBase, hrun, hsize, habsolute, hresult⟩ := ih _ output hnext hmore
      exact ⟨result, atBase, hrun, hsize, habsolute, fun uri huri =>
        (hcovered uri huri).trans hresult⟩
    · refine ⟨uris, base_level, by rw [shortenUris, if_neg hdone], ?_, fun uri huri =>
        (h uri huri).1, fun uri huri => Covered.of_mem huri⟩
      by_cases hbase : base_level = true
      · exact Or.inl hbase
      · exact Or.inr (Nat.not_lt.mp fun hlarge => hdone ⟨hlarge, by simpa using hbase⟩)

/-- The reduction of absolute URIs ends with at most 64 that cover them all. -/
theorem reduceUris_covers (uris : List Uri) (h : ∀ uri ∈ uris, IsAbsolute uri) :
    ∃ fuel rounds output, reduceUris fuel rounds uris = some output ∧ output.length ≤ 64 ∧
      ∀ uri ∈ uris, Covered output uri := by
  obtain ⟨fuel, hfuel⟩ : ∃ fuel, ∀ uri ∈ uris, uri.count '/' ≤ fuel :=
    ⟨(uris.map (List.count '/')).sum, fun uri huri => List.single_le_sum (by simp) _
      (List.mem_map_of_mem huri)⟩
  obtain ⟨squashed, hsquash, hsubset, hcovered⟩ := squashUris_spec fuel
    (removeDuplicateValues uris) fun uri huri => hfuel uri (mem_removeDuplicateValues.mp huri)
  have hmem {uri : Uri} (huri : uri ∈ squashed) : uri ∈ uris :=
    mem_removeDuplicateValues.mp (hsubset huri)
  obtain ⟨output, atBase, hrun, hsize, habsolute, hshort⟩ := shortenUris_spec false squashed
    (fun uri huri => ⟨h uri (hmem huri), hfuel uri (hmem huri)⟩)
    (Or.inr ⟨Nat.succ_pos _, fun uri huri => (hfuel uri (hmem huri)).trans (Nat.le_succ _)⟩)
  have hoverall : ∀ uri ∈ uris, Covered output uri := fun uri huri =>
    (hcovered uri (mem_removeDuplicateValues.mpr huri)).trans hshort
  refine ⟨fuel + 1, fuel + 1, if atBase ∧ output.length > 64 then [['/']] else output, ?_, ?_, ?_⟩
  · rw [reduceUris, hsquash, Option.bind_some, hrun]
    rfl
  · split_ifs with hroot
    · decide
    · rcases hsize with hbase | hsmall
      · exact Nat.not_lt.mp fun hlarge => hroot ⟨hbase, hlarge⟩
      · exact hsmall
  · intro uri huri
    split_ifs
    · exact ⟨['/'], List.mem_singleton_self _, Or.inr (Or.inr ⟨rfl, h uri huri⟩)⟩
    · exact hoverall uri huri

/-- Where the URIs are absolute or empty, what is subscribed to covers all that is asked for:
the URIs before, the parents of inputs, the inputs and the URIs of echoes, and the outputs. -/
theorem subscribeUris_cover (former inputs : List Uri) (echoes : List EchoUris)
    (outputs : List Uri) (hformer : ∀ uri ∈ former, IsAbsolute uri)
    (hinputs : ∀ uri ∈ inputs, uri ≠ [] → IsAbsolute uri)
    (hechoes : ∀ echo ∈ echoes, ∀ uri ∈ echo.PublishUri :: echo.Inputs, uri ≠ [] → IsAbsolute uri)
    (houtputs : ∀ uri ∈ outputs, uri ≠ [] → IsAbsolute uri) :
    ∃ fuel rounds uris,
      reduceUris fuel rounds (collectUris former inputs echoes outputs) = some uris ∧
      uris.length ≤ 64 ∧ (∀ uri ∈ former, Covered uris uri) ∧
      (∀ uri ∈ inputs, uri ≠ [] → Covered uris (GetParentUri uri)) ∧
      (∀ echo ∈ echoes, ∀ uri ∈ echo.PublishUri :: echo.Inputs, uri ≠ [] → Covered uris uri) ∧
      ∀ uri ∈ outputs, uri ≠ [] → Covered uris uri := by
  have hmem (uri : Uri) : uri ∈ collectUris former inputs echoes outputs ↔ uri ∈ former ∨
      (∃ input ∈ inputs, input ≠ [] ∧ GetParentUri input = uri) ∨
      (∃ echo ∈ echoes, uri ∈ echo.PublishUri :: echo.Inputs ∧ uri ≠ []) ∨
      uri ∈ outputs ∧ uri ≠ [] := by
    simp only [collectUris, List.mem_append, List.mem_filter, List.mem_map, List.mem_flatMap,
      List.mem_cons, decide_eq_true_eq, List.not_mem_nil, or_false]
    grind
  obtain ⟨fuel, rounds, uris, hrun, hsize, hcovered⟩ := reduceUris_covers
    (collectUris former inputs echoes outputs) (by
      intro uri huri
      rcases (hmem uri).mp huri with h | ⟨input, hinput, hne, rfl⟩ | ⟨echo, hecho, h, hne⟩ | ⟨h, hne⟩
      · exact hformer uri h
      · exact (GetParentUri_spec (hinputs input hinput hne)).1
      · exact hechoes echo hecho uri h hne
      · exact houtputs uri h hne)
  refine ⟨fuel, rounds, uris, hrun, hsize, fun uri huri => ?_, fun uri huri hne => ?_,
    fun echo hecho uri huri hne => ?_, fun uri huri hne => ?_⟩
  · exact hcovered uri ((hmem uri).mpr (Or.inl huri))
  · exact hcovered _ ((hmem _).mpr (Or.inr (Or.inl ⟨uri, huri, hne, rfl⟩)))
  · exact hcovered uri ((hmem uri).mpr (Or.inr (Or.inr (Or.inl ⟨echo, hecho, huri, hne⟩))))
  · exact hcovered uri ((hmem uri).mpr (Or.inr (Or.inr (Or.inr ⟨huri, hne⟩))))

theorem subscribeUris_cover_site : ∃ fuel rounds uris,
    reduceUris fuel rounds (collectUris ["/go_metrics".toList] ["/components/bms/soc".toList]
      [⟨["/components/pcs".toList], "/site/pcs".toList⟩] [[], "/site".toList]) = some uris ∧
    uris.length ≤ 64 ∧ (∀ uri ∈ ["/go_metrics".toList], Covered uris uri) ∧
    (∀ uri ∈ ["/components/bms/soc".toList], uri ≠ [] → Covered uris (GetParentUri uri)) ∧
    (∀ echo ∈ [(⟨["/components/pcs".toList], "/site/pcs".toList⟩ : EchoUris)],
      ∀ uri ∈ echo.PublishUri :: echo.Inputs, uri ≠ [] → Covered uris uri) ∧
    ∀ uri ∈ [[], "/site".toList], uri ≠ [] → Covered uris uri :=
  subscribeUris_cover _ _ _ _ (by simp [IsAbsolute]) (by simp [IsAbsolute])
    (by simp [IsAbsolute]) (by simp [IsAbsolute])

end HybridOs.GoMetrics.Subscribe
