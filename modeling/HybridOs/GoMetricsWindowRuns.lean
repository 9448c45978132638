import HybridOs.GoMetricsWindow
import HybridOs.CheckedRun

/-!
# Runs of the functions over a window of time

Every call takes one of the places of the arrays, and none is ever added, so that a window of
so many milliseconds serves as many calls. Up to there the averages, sums and changes are
those of the window. The maxima and minima are where the remembered index is not that of the
newest point that is removed, and where the empty place that a new search reads beside the
points does not win it.
-/

namespace HybridOs.GoMetrics

variable {F : Type}

/-! ## The search for an extremum -/

section Search

variable {replaces : Union F → Union F → Bool} {atLeast : Union F → Union F → Prop}

/-- A search finds one of the values, or keeps what it began with; no value is better. -/
theorem searchBest_spec (htrans : ∀ a b c, atLeast a b → atLeast b c → atLeast a c)
    (hrefl : ∀ a, atLeast a a) (hreplaces : ∀ a b, replaces a b = true → atLeast a b)
    (hkeeps : ∀ a b, replaces a b = false → atLeast b a) (values : List (Union F)) (i : ℕ)
    (best : Union F × ℕ) :
    atLeast (searchBest replaces i best values).1 best.1 ∧
    (∀ v ∈ values, atLeast (searchBest replaces i best values).1 v) ∧
    ((searchBest replaces i best values = best ∧ ∀ v ∈ values, replaces v best.1 = false) ∨
      ∃ n, (searchBest replaces i best values).2 = i + n ∧
        values[n]? = some (searchBest replaces i best values).1) := by
  induction values generalizing i best with
  | nil => exact ⟨hrefl _, by simp, Or.inl ⟨rfl, by simp⟩⟩
  | cons value values ih =>
    rw [searchBest]
    by_cases hvalue : replaces value best.1 = true
    · rw [if_pos hvalue]
      obtain ⟨hbest, hall, hfound⟩ := ih (i + 1) (value, i)
      refine ⟨htrans _ _ _ hbest (hreplaces _ _ hvalue), ?_, Or.inr ?_⟩
      · intro v hv
        rcases List.mem_cons.1 hv with rfl | hv
        · exact hbest
        · exact hall v hv
      · rcases hfound with ⟨hsame, -⟩ | ⟨n, hn, hget⟩
        · exact ⟨0, by rw [hsame]; simp, by rw [hsame]; simp⟩
        · exact ⟨n + 1, by rw [hn]; omega, by simpa using hget⟩
    · rw [if_neg hvalue]
      have hkept : replaces value best.1 = false := by simpa using hvalue
      obtain ⟨hbest, hall, hfound⟩ := ih (i + 1) best
      refine ⟨hbest, ?_, ?_⟩
      · intro v hv
        rcases List.mem_cons.1 hv with rfl | hv
        · exact htrans _ _ _ hbest (hkeeps _ _ hkept)
        · exact hall v hv
      · rcases hfound with ⟨hsame, hnone⟩ | ⟨n, hn, hget⟩
        · refine Or.inl ⟨hsame, ?_⟩
          intro v hv
          rcases List.mem_cons.1 hv with rfl | hv
          · exact hkept
          · exact hnone v hv
        · exact Or.inr ⟨n + 1, by rw [hn]; omega, by simpa using hget⟩

/-- The index that a search finds lies before the end. -/
theorem searchBest_le (replaces : Union F → Union F → Bool) (values : List (Union F)) (i : ℕ)
    (best : Union F × ℕ) (h : best.2 ≤ i) :
    (searchBest replaces i best values).2 ≤ i + values.length := by
  induction values generalizing i best with
  | nil =>
    simp only [searchBest]
    omega
  | cons value values ih =>
    have hnext : (if replaces value best.1 then (value, i) else best).2 ≤ i + 1 := by
      split
      · simp
      · omega
    have hrest := ih (i + 1) _ hnext
    rw [searchBest, List.length_cons]
    omega

/-- A search over one more value. -/
theorem searchBest_append (values : List (Union F)) (last : Union F) (i : ℕ) (best : Union F × ℕ) :
    searchBest replaces i best (values ++ [last]) =
      if replaces last (searchBest replaces i best values).1 then (last, i + values.length)
      else searchBest replaces i best values := by
  induction values generalizing i best with
  | nil => simp [searchBest]
  | cons value values ih =>
    have hlength : i + 1 + values.length = i + (value :: values).length := by
      rw [List.length_cons]
      omega
    rw [List.cons_append, searchBest, ih, hlength, ← searchBest]

end Search

variable [Float64 F]

/-! ## One call of an aggregate -/

/-- A call removes the older points and adds the current one, and computes from the result. -/
theorem Aggregate.step_holding (function : Aggregate F) {timescale : Int64}
    (hpos : 0 < timescale) {free : ℕ} {points : List (Call F)} {state : Option (State F)}
    (h : Holding timescale (free + 1) points state) (call : Call F) :
    ∃ after : State F,
      function.step call.input timescale call.at_ state =
        some (function.compute
          ((points.dropWhile (Call.isOlder call.at_ timescale) ++ [call]).map Call.input ++
            List.replicate free Union.nil)
          (points.dropWhile (Call.isOlder call.at_ timescale)).length call.input, after) ∧
      Holding timescale free (points.dropWhile (Call.isOlder call.at_ timescale) ++ [call])
        (some after) := by
  obtain ⟨ready, hready, hpoints, -⟩ := prepareWindow_holding hpos h none (by simp)
  obtain ⟨cut, moved, hremove, hmove, hmoved, -⟩ :=
    removeOlder_points hpoints (by omega : 1 ≤ free + 1) call.at_ timescale
  obtain ⟨added, hadd, htimes, hvalues, hindex, -⟩ := addPoint_points hmoved call
  obtain ⟨counted, hcount, hcounted, -⟩ :=
    countPoint_points hmoved.fits htimes hvalues hindex
  refine ⟨counted, ?_, Or.inr ⟨counted, rfl, by simp, hcounted⟩⟩
  simp only [Aggregate.step, hready, hpoints.firstUi_index, hremove, hmove,
    hmoved.firstUi_index, hadd, hcount, bind, Option.bind, pure, hvalues, hmoved.toNat_length]

/-! ## One call of an extremum -/

/-- The types of which there are maxima and minima. -/
def DataType.isOrdered (tag : DataType) : Bool := tag ≠ .NIL ∧ tag ≠ .STRING

/-- What the search for an extremum relies on: an order in which a value that replaces another
is at least as good. -/
structure Extremum.Follows (function : Extremum F) (tag : DataType)
    (atLeast : Union F → Union F → Prop) : Prop where
  refl : ∀ a, atLeast a a
  trans : ∀ a b c, atLeast a b → atLeast b c → atLeast a c
  of_replaces : ∀ a b, function.replaces tag a b = true → atLeast a b
  of_not_replaces : ∀ a b, function.replaces tag a b = false → atLeast b a
  nil_loses : ∀ a b, atLeast b a → function.replaces tag .nil a = false →
    function.replaces tag .nil b = false
  /-- Where neither a value nor the empty place replaces the beginning, the value is worst. -/
  start_wins : ∀ a best, function.replaces tag a (function.start tag best) = false →
    function.replaces tag .nil (function.start tag best) = false → ∀ b, atLeast b a

/-- The remembered index leads to a best point, or there is no point and it is zero. -/
def Remembers (function : Extremum F) (atLeast : Union F → Union F → Prop)
    (points : List (Call F)) (remembered : ℕ) (state : State F) : Prop :=
  state.entry function.indexKey = [Union.uint (UInt64.ofNat remembered)] ∧
  ((points = [] ∧ remembered = 0) ∨
    ∃ best, points[remembered]? = some best ∧
      ∀ point ∈ points, atLeast best.input point.input)

/-- What must hold of the remembered index and of the points that stay for a call to find the
extremum: the newest point that is removed is not the remembered one, unless the input
replaces it; and where a search is made, the empty place loses it, or the input wins. -/
def Extremum.SearchIsSound (function : Extremum F) (atLeast : Union F → Union F → Prop)
    (timescale : Int64) (call : Call F) (state : Option (State F)) : Prop :=
  ∀ held, state = some held →
    let index := ((held.firstUi "currentIndex").getD 0).toNat
    let older := olderPoints call.at_ timescale ((held.entry "timestamps").take index)
    let values := (held.entry "values").take index
    let remembered := ((held.firstUi function.indexKey).getD 0).toNat
    0 < older →
      (remembered + 1 = older → 0 < remembered → ∀ best ∈ values[remembered]?,
        function.replaces call.input.tag call.input best = true) ∧
      (remembered = 0 ∨ remembered + 1 < older → values.drop older ≠ [] →
        (∃ v ∈ values.drop older, function.replaces call.input.tag .nil v = false) ∨
        ∀ v ∈ values.drop older, atLeast call.input v)

section Step

variable {function : Extremum F} {tag : DataType} {atLeast : Union F → Union F → Prop}
  {free remembered older : ℕ} {points : List (Call F)} {moved : State F} {best input : Union F}

/-- What is known of the best value and of the remembered index before the current point is
compared with it. -/
def Rebased (function : Extremum F) (atLeast : Union F → Union F → Prop) (input : Union F)
    (kept : List (Call F)) (best : Union F) (remembered : ℕ) : Prop :=
  (function.replaces input.tag input best = true → ∀ point ∈ kept, atLeast input point.input) ∧
  (function.replaces input.tag input best = false →
    (∃ chosen, kept[remembered]? = some chosen ∧ atLeast chosen.input input ∧
      ∀ point ∈ kept, atLeast chosen.input point.input) ∨
    (remembered = kept.length ∧ ∀ point ∈ kept, atLeast input point.input))

/-- A best point that stays remains the best one. -/
theorem rebased_of_best (hfollows : function.Follows input.tag atLeast) {kept : List (Call F)}
    {chosen : Call F} (hget : kept[remembered]? = some chosen)
    (hbest : ∀ point ∈ kept, atLeast chosen.input point.input) :
    Rebased function atLeast input kept chosen.input remembered := by
  constructor
  · intro hreplaces point hpoint
    exact hfollows.trans _ _ _ (hfollows.of_replaces _ _ hreplaces) (hbest point hpoint)
  · intro hkeeps
    exact Or.inl ⟨chosen, hget, hfollows.of_not_replaces _ _ hkeeps, hbest⟩

/-- A search over the points that stay and the empty place behind them. -/
theorem rebased_of_search (hfollows : function.Follows input.tag atLeast) (kept : List (Call F))
    (best : Union F) (hsound : kept ≠ [] →
      (∃ point ∈ kept, function.replaces input.tag .nil point.input = false) ∨
        ∀ point ∈ kept, atLeast input point.input) :
    Rebased function atLeast input kept
      (searchBest (function.replaces input.tag) 0 (function.start input.tag best, 0)
        (kept.map Call.input ++ [.nil])).1
      (searchBest (function.replaces input.tag) 0 (function.start input.tag best, 0)
        (kept.map Call.input ++ [.nil])).2 := by
  obtain ⟨-, hall, hfound⟩ := searchBest_spec hfollows.trans hfollows.refl hfollows.of_replaces
    hfollows.of_not_replaces (kept.map Call.input) 0 (function.start input.tag best, 0)
  have happend : searchBest (function.replaces input.tag) 0 (function.start input.tag best, 0)
      (kept.map Call.input ++ [.nil]) = _ :=
    searchBest_append (kept.map Call.input) .nil 0 (function.start input.tag best, 0)
  generalize searchBest (function.replaces input.tag) 0 (function.start input.tag best, 0)
    (kept.map Call.input) = found at hall hfound happend
  have hbest : ∀ point ∈ kept, atLeast found.1 point.input := fun point hpoint =>
    hall _ (List.mem_map_of_mem hpoint)
  rcases List.eq_nil_or_concat kept with rfl | ⟨front, last, hconcat⟩
  · -- there is no point, so that every index found leads to the current one
    have hzero : (searchBest (function.replaces input.tag) 0 (function.start input.tag best, 0)
        (([] : List (Call F)).map Call.input ++ [.nil])).2 = 0 := by
      simp only [List.map_nil, List.nil_append, searchBest]
      split <;> rfl
    exact ⟨by simp, fun _ => Or.inr ⟨hzero, by simp⟩⟩
  have hne : kept ≠ [] := by simp [hconcat]
  clear hconcat
  by_cases hnil : function.replaces input.tag .nil found.1 = true
  · rw [if_pos hnil] at happend
    rw [happend]
    have hinput : ∀ point ∈ kept, atLeast input point.input := by
      rcases hsound hne with ⟨point, hpoint, hloses⟩ | hinput
      · have hfalse := hfollows.nil_loses _ _ (hbest point hpoint) hloses
        rw [hfalse] at hnil
        cases hnil
      · exact hinput
    exact ⟨fun _ => hinput, fun _ => Or.inr ⟨by simp, hinput⟩⟩
  · rw [if_neg hnil] at happend
    rw [happend]
    have hloses : function.replaces input.tag .nil found.1 = false := by simpa using hnil
    rcases hfound with ⟨hsame, hnone⟩ | ⟨n, hn, hget⟩
    · -- nothing replaced the beginning, so that the values are all as good as each other
      subst hsame
      have hworst : ∀ point ∈ kept, ∀ b, atLeast b point.input := fun point hpoint b =>
        hfollows.start_wins _ best (hnone _ (List.mem_map_of_mem hpoint)) hloses b
      obtain ⟨first, hfirst⟩ : ∃ first, kept[0]? = some first := by
        cases kept with
        | nil => exact absurd rfl hne
        | cons first rest => exact ⟨first, rfl⟩
      refine ⟨fun _ point hpoint => hworst point hpoint input, fun hkeeps => Or.inl ?_⟩
      refine ⟨first, hfirst, ?_, fun point hpoint => hworst point hpoint _⟩
      exact hfollows.start_wins _ best hkeeps hloses _
    · have hindex : found.2 = n := by omega
      rw [List.getElem?_map] at hget
      obtain ⟨chosen, hchosen, hvalue⟩ := Option.map_eq_some_iff.1 hget
      rw [hindex, ← hvalue]
      rw [← hvalue] at hbest
      exact rebased_of_best hfollows hchosen hbest

/-- The points that stay are those behind the older ones. -/
theorem dropWhile_eq_drop_length {α : Type} (p : α → Bool) (list : List α) :
    list.dropWhile p = list.drop (list.takeWhile p).length := by
  have happend := List.takeWhile_append_dropWhile (p := p) (l := list)
  conv_rhs => arg 2; rw [← happend]
  rw [List.drop_left]

/-- The remembered index is moved with the points, or searched for again. -/
theorem Extremum.rebase_points (hfollows : function.Follows input.tag atLeast)
    (hkey : function.indexKey ∉ State.windowKeys)
    (holder : older ≤ points.length) (hfits : points.length + (free + 1) < 2 ^ 63)
    (hmoved : Points (free + 1) (points.drop older) moved)
    (hindex : moved.entry function.indexKey = [Union.uint (UInt64.ofNat remembered)])
    (hremember : (points = [] ∧ remembered = 0) ∨
      ∃ chosen, points[remembered]? = some chosen ∧ chosen.input = best ∧
        ∀ point ∈ points, atLeast best point.input)
    (hreplaced : 0 < older → remembered + 1 = older → 0 < remembered →
      function.replaces input.tag input best = true)
    (hsearch : 0 < older → remembered = 0 ∨ remembered + 1 < older → points.drop older ≠ [] →
      (∃ point ∈ points.drop older, function.replaces input.tag .nil point.input = false) ∨
        ∀ point ∈ points.drop older, atLeast input point.input) :
    ∃ (found : Union F) (rebased : State F) (index : UInt64),
      function.rebase input.tag best (UInt64.ofNat points.length) older moved =
        some (found, rebased) ∧
      Points (free + 1) (points.drop older) rebased ∧
      rebased.entry function.indexKey = [Union.uint index] ∧
      Rebased function atLeast input (points.drop older) found index.toNat := by
  have hremembered : remembered < 2 ^ 63 := by
    rcases hremember with ⟨-, rfl⟩ | ⟨chosen, hget, -, -⟩
    · omega
    · have hlt := (List.getElem?_eq_some_iff.1 hget).1
      omega
  have htoNat : (UInt64.ofNat remembered).toNat = remembered := toNat_ofNat_of_fits hremembered
  rcases Nat.eq_zero_or_pos older with hzero | hpos
  · subst hzero
    refine ⟨best, moved, UInt64.ofNat remembered, by simp [Extremum.rebase], hmoved, hindex, ?_⟩
    rw [htoNat]
    rcases hremember with ⟨rfl, rfl⟩ | ⟨chosen, hget, rfl, hbest⟩
    · exact ⟨by simp, fun _ => Or.inr ⟨rfl, by simp⟩⟩
    · exact rebased_of_best hfollows hget hbest
  · obtain ⟨chosen, hget, hchosen, hbest⟩ :
        ∃ chosen, points[remembered]? = some chosen ∧ chosen.input = best ∧
          ∀ point ∈ points, atLeast best point.input := by
      rcases hremember with ⟨hnil, -⟩ | hfound
      · rw [hnil] at holder
        simp only [List.length_nil] at holder
        omega
      · exact hfound
    have hkept : ∀ point ∈ points.drop older, atLeast best point.input := fun point hpoint =>
      hbest point (List.mem_of_mem_drop hpoint)
    by_cases hmove : older - 1 ≤ remembered ∧ 0 < remembered
    · refine ⟨best, moved.put function.indexKey
        [Union.uint (UInt64.ofNat remembered - UInt64.ofNat older)],
        UInt64.ofNat remembered - UInt64.ofNat older, ?_, hmoved.put _ hkey,
        State.entry_put_self .., ?_⟩
      · simp only [Extremum.rebase, if_pos hpos, State.firstUi_of_entry hindex, bind,
          Option.bind, htoNat, if_pos hmove, State.setFirstUi_of_entry hindex]
      · by_cases hge : older ≤ remembered
        · have hsub : (UInt64.ofNat remembered - UInt64.ofNat older).toNat =
              remembered - older := by
            have holderNat : (UInt64.ofNat older).toNat = older :=
              toNat_ofNat_of_fits (by omega)
            rw [UInt64.toNat_sub_of_le _ _ (by
              rw [UInt64.le_iff_toNat_le, htoNat, holderNat]; exact hge), htoNat, holderNat]
          rw [hsub, ← hchosen]
          rw [← hchosen] at hkept
          refine rebased_of_best hfollows ?_ hkept
          rw [List.getElem?_drop, Nat.add_sub_cancel' hge, hget]
        · have hwins := hreplaced hpos (by omega) hmove.2
          refine ⟨fun _ point hpoint => ?_, fun hkeeps => ?_⟩
          · exact hfollows.trans _ _ _ (hfollows.of_replaces _ _ hwins) (hkept point hpoint)
          · rw [hwins] at hkeeps
            cases hkeeps
    · have hbound : (UInt64.ofNat points.length).toNat + 1 ≤
          (moved.entry "values").length + older := by
        rw [toNat_ofNat_of_fits (by omega), hmoved.values]
        simp only [List.length_append, List.length_map, List.length_drop, List.length_replicate]
        omega
      have htake : (moved.entry "values").take
          ((UInt64.ofNat points.length).toNat + 1 - older) =
          (points.drop older).map Call.input ++ [.nil] := by
        rw [toNat_ofNat_of_fits (by omega), hmoved.values, List.take_append]
        have hlength : ((points.drop older).map Call.input).length = points.length - older := by
          simp
        rw [hlength, List.take_of_length_le (by rw [hlength]; omega)]
        congr 1
        have hone : points.length + 1 - older - (points.length - older) = 1 := by omega
        rw [hone]
        simp
      have hspec := rebased_of_search hfollows (points.drop older) best
        (hsearch hpos (by omega))
      generalize hfound : searchBest (function.replaces input.tag) 0
        (function.start input.tag best, 0) ((points.drop older).map Call.input ++ [.nil]) =
        found at hspec
      have hsmall : found.2 < 2 ^ 63 := by
        have hle := searchBest_le (function.replaces input.tag)
          ((points.drop older).map Call.input ++ [.nil]) 0 (function.start input.tag best, 0) le_rfl
        rw [hfound] at hle
        simp only [List.length_append, List.length_map, List.length_drop, List.length_cons,
          List.length_nil] at hle
        omega
      refine ⟨found.1, moved.put function.indexKey [Union.uint (UInt64.ofNat found.2)],
        UInt64.ofNat found.2, ?_, hmoved.put _ hkey, State.entry_put_self .., ?_⟩
      · simp only [Extremum.rebase, if_pos hpos, State.firstUi_of_entry hindex, bind,
          Option.bind, htoNat, if_neg hmove, if_pos hbound, htake, hfound,
          State.setFirstUi_of_entry hindex]
      · rw [toNat_ofNat_of_fits hsmall]
        exact hspec

/-- A window whose remembered index leads to a best point. -/
def Extremum.Holding (function : Extremum F) (atLeast : Union F → Union F → Prop)
    (timescale : Int64) (free : ℕ) (points : List (Call F)) (state : Option (State F)) : Prop :=
  HybridOs.GoMetrics.Holding timescale free points state ∧
  ∀ held, state = some held → held.entry "timestamps" ≠ [] →
    ∃ remembered, Remembers function atLeast points remembered held

variable {timescale : Int64} {state : Option (State F)} {call : Call F}

/-- The remembered index of a window that is ready for a call. -/
theorem Extremum.prepare_holding (hpos : 0 < timescale)
    (hkey : function.indexKey ∉ State.windowKeys)
    (h : function.Holding atLeast timescale (free + 1) points state) :
    ∃ (ready : State F) (remembered : ℕ),
      prepareWindow (some function.indexKey) timescale state = some ready ∧
      Points (free + 1) points ready ∧ Remembers function atLeast points remembered ready ∧
      (points = [] ∨ state = some ready) := by
  obtain ⟨ready, hready, hpoints, hindex⟩ := prepareWindow_holding hpos h.1
    (some function.indexKey) (by simpa using hkey)
  rcases hindex function.indexKey rfl with ⟨hnil, hentry⟩ | hstate
  · exact ⟨ready, 0, hready, hpoints, ⟨hentry, Or.inl ⟨hnil, rfl⟩⟩, Or.inl hnil⟩
  · have hne : ready.entry "timestamps" ≠ [] := by
      rw [hpoints.timestamps]
      simp
    obtain ⟨remembered, hremembers⟩ := h.2 ready hstate hne
    exact ⟨ready, remembered, hready, hpoints, hremembers, Or.inr hstate⟩

/-- What a sound search means for the points of a window. -/
theorem Extremum.SearchIsSound.on_points {ready : State F}
    (hpoints : Points (free + 1) points ready)
    (hindex : ready.entry function.indexKey = [Union.uint (UInt64.ofNat remembered)])
    (hfits : remembered < 2 ^ 63)
    (hsound : function.SearchIsSound atLeast timescale call (some ready))
    (hpos : 0 < (points.takeWhile (Call.isOlder call.at_ timescale)).length) :
    (remembered + 1 = (points.takeWhile (Call.isOlder call.at_ timescale)).length →
      0 < remembered → ∀ best ∈ (points.map Call.input)[remembered]?,
        function.replaces call.input.tag call.input best = true) ∧
    (remembered = 0 ∨
        remembered + 1 < (points.takeWhile (Call.isOlder call.at_ timescale)).length →
      points.dropWhile (Call.isOlder call.at_ timescale) ≠ [] →
      (∃ point ∈ points.dropWhile (Call.isOlder call.at_ timescale),
        function.replaces call.input.tag .nil point.input = false) ∨
      ∀ point ∈ points.dropWhile (Call.isOlder call.at_ timescale),
        atLeast call.input point.input) := by
  have hcurrent : ((ready.firstUi "currentIndex").getD 0).toNat = points.length := by
    rw [hpoints.firstUi_index, Option.getD_some, hpoints.toNat_length]
  have hremembered : ((ready.firstUi function.indexKey).getD 0).toNat = remembered := by
    rw [State.firstUi_of_entry hindex, Option.getD_some, toNat_ofNat_of_fits hfits]
  have holder : olderPoints call.at_ timescale
      ((ready.entry "timestamps").take points.length) =
      (points.takeWhile (Call.isOlder call.at_ timescale)).length := by
    rw [hpoints.timestamps]
    exact olderPoints_take points (Nat.zero_le (free + 1)) call.at_ timescale
  have hvalues : (ready.entry "values").take points.length = points.map Call.input := by
    rw [hpoints.values, List.take_left' (by simp)]
  have hsound' := hsound ready rfl
  simp only [hcurrent, hremembered, holder, hvalues] at hsound'
  obtain ⟨hreplaced, hsearch⟩ := hsound' hpos
  refine ⟨hreplaced, fun hbranch hne => ?_⟩
  rw [dropWhile_eq_drop_length] at hne ⊢
  have hmap : (points.map Call.input).drop
      (points.takeWhile (Call.isOlder call.at_ timescale)).length =
      (points.drop (points.takeWhile (Call.isOlder call.at_ timescale)).length).map
        Call.input := List.map_drop.symm
  rw [hmap] at hsearch
  have hne' : (points.drop (points.takeWhile (Call.isOlder call.at_ timescale)).length).map
      Call.input ≠ [] := by simpa using hne
  rcases hsearch hbranch hne' with ⟨value, hvalue, hloses⟩ | hwins
  · obtain ⟨point, hpoint, rfl⟩ := List.mem_map.1 hvalue
    exact Or.inl ⟨point, hpoint, hloses⟩
  · exact Or.inr fun point hpoint => hwins _ (List.mem_map_of_mem hpoint)

/-- A call whose search is sound returns a best one of the points that stay and the current
one, and remembers it. -/
theorem Extremum.step_holding (hpos : 0 < timescale)
    (hfollows : function.Follows call.input.tag atLeast)
    (hkey : function.indexKey ∉ State.windowKeys) (hahead : function.ahead ≤ 1)
    (h : function.Holding atLeast timescale (free + 1) points state)
    (hsound : function.SearchIsSound atLeast timescale call state) :
    ∃ (returned : Union F) (after : State F),
      function.step call.input timescale call.at_ state = some ((returned, none), after) ∧
      (∃ chosen ∈ points.dropWhile (Call.isOlder call.at_ timescale) ++ [call],
        chosen.input = returned) ∧
      (∀ point ∈ points.dropWhile (Call.isOlder call.at_ timescale) ++ [call],
        atLeast returned point.input) ∧
      function.Holding atLeast timescale free
        (points.dropWhile (Call.isOlder call.at_ timescale) ++ [call]) (some after) := by
  obtain ⟨ready, remembered, hready, hpoints, ⟨hentry, hremember⟩, hstate⟩ :=
    prepare_holding hpos hkey h
  obtain ⟨cut, moved, hremove, hmove, hmoved, hbeside⟩ :=
    removeOlder_points hpoints (by omega : function.ahead ≤ free + 1) call.at_ timescale
  have hfits := hpoints.fits
  have hsmall : remembered < 2 ^ 63 := by
    rcases hremember with ⟨-, rfl⟩ | ⟨best, hget, -⟩
    · omega
    · have hlt := (List.getElem?_eq_some_iff.1 hget).1
      omega
  -- the value at the remembered index is the best point, or an empty place
  obtain ⟨best, hbest, hremember'⟩ : ∃ best : Union F,
      (ready.entry "values")[(UInt64.ofNat remembered).toNat]? = some best ∧
      ((points = [] ∧ remembered = 0) ∨ ∃ chosen, points[remembered]? = some chosen ∧
        chosen.input = best ∧ ∀ point ∈ points, atLeast best point.input) := by
    rw [toNat_ofNat_of_fits hsmall, hpoints.values]
    rcases hremember with ⟨rfl, rfl⟩ | ⟨chosen, hget, hall⟩
    · exact ⟨.nil, by simp, Or.inl ⟨rfl, rfl⟩⟩
    · have hlt : remembered < points.length := (List.getElem?_eq_some_iff.1 hget).1
      refine ⟨chosen.input, ?_, Or.inr ⟨chosen, hget, rfl, hall⟩⟩
      rw [List.getElem?_append_left (by simpa using hlt), List.getElem?_map, hget]
      rfl
  generalize hkept : points.dropWhile (Call.isOlder call.at_ timescale) = kept at *
  have hdrop := dropWhile_eq_drop_length (Call.isOlder call.at_ timescale) points
  have hle : (points.takeWhile (Call.isOlder call.at_ timescale)).length ≤ points.length :=
    (List.takeWhile_sublist _).length_le
  have hsound' : 0 < (points.takeWhile (Call.isOlder call.at_ timescale)).length →
      (remembered + 1 = (points.takeWhile (Call.isOlder call.at_ timescale)).length →
        0 < remembered → function.replaces call.input.tag call.input best = true) ∧
      (remembered = 0 ∨
          remembered + 1 < (points.takeWhile (Call.isOlder call.at_ timescale)).length →
        kept ≠ [] →
        (∃ point ∈ kept, function.replaces call.input.tag .nil point.input = false) ∨
        ∀ point ∈ kept, atLeast call.input point.input) := by
    intro holder
    rcases hstate with hnil | hsome
    · rw [hnil] at holder
      simp at holder
    · rw [hsome] at hsound
      obtain ⟨hreplaced, hsearch⟩ := hsound.on_points hpoints hentry hsmall holder
      rw [hkept] at hsearch
      refine ⟨fun heq hrem => ?_, hsearch⟩
      rcases hremember' with ⟨-, hzero⟩ | ⟨chosen, hget, hinput, -⟩
      · omega
      · exact hreplaced heq hrem best (by rw [List.getElem?_map, hget, ← hinput]; rfl)
  rw [hkept] at hdrop
  obtain ⟨found, rebased, index, hrebase, hrebased, hrebasedIndex, hspec⟩ :=
    rebase_points hfollows hkey hle hfits (hdrop ▸ hmoved)
      (by rw [hbeside _ hkey, hentry]) hremember' (fun holder => (hsound' holder).1)
      (fun holder => hdrop ▸ (hsound' holder).2)
  rw [← hdrop] at hrebased hspec
  obtain ⟨added, hadd, htimes, hvalues, hindex, haddBeside⟩ := addPoint_points hrebased call
  have haddIndex : added.entry function.indexKey = [Union.uint index] := by
    rw [haddBeside _ hkey, hrebasedIndex]
  -- the index that is remembered after the comparison with the current point
  obtain ⟨final, compared, hcompare, hcompared, hfinal, chosen, hget, hwins⟩ :
      ∃ (final : ℕ) (compared : State F),
        function.compareCurrent call.input found (UInt64.ofNat kept.length) added =
          some compared ∧
        (∀ key ∈ State.windowKeys, compared.entry key = added.entry key) ∧
        compared.entry function.indexKey = [Union.uint (UInt64.ofNat final)] ∧
        ∃ chosen, (kept ++ [call])[final]? = some chosen ∧
          ∀ point ∈ kept ++ [call], atLeast chosen.input point.input := by
    have hcurrent : (kept ++ [call])[kept.length]? = some call := by simp
    have hall : (∀ point ∈ kept, atLeast call.input point.input) →
        ∀ point ∈ kept ++ [call], atLeast call.input point.input := by
      intro hinput point hpoint
      rcases List.mem_append.1 hpoint with hpoint | hpoint
      · exact hinput point hpoint
      · rw [List.mem_singleton.1 hpoint]
        exact hfollows.refl _
    by_cases hreplaces : function.replaces call.input.tag call.input found = true
    · refine ⟨kept.length, added.put function.indexKey [Union.uint (UInt64.ofNat kept.length)],
        ?_, ?_, State.entry_put_self .., call, hcurrent, hall (hspec.1 hreplaces)⟩
      · rw [Extremum.compareCurrent, if_pos hreplaces, State.setFirstUi_of_entry haddIndex]
      · intro key hmem
        exact State.entry_put_of_ne _ _ fun heq => hkey (heq ▸ hmem)
    · have hindexNat : UInt64.ofNat index.toNat = index := UInt64.ofNat_toNat
      refine ⟨index.toNat, added, by rw [Extremum.compareCurrent, if_neg hreplaces],
        fun _ _ => rfl, by rw [haddIndex, hindexNat], ?_⟩
      rcases hspec.2 (by simpa using hreplaces) with ⟨chosen, hget, hinput, hbest⟩ | ⟨heq, hinput⟩
      · have hlt : index.toNat < kept.length := (List.getElem?_eq_some_iff.1 hget).1
        refine ⟨chosen, by rw [List.getElem?_append_left hlt, hget], ?_⟩
        intro point hpoint
        rcases List.mem_append.1 hpoint with hpoint | hpoint
        · exact hbest point hpoint
        · rw [List.mem_singleton.1 hpoint]
          exact hinput
      · exact ⟨call, by rw [heq, hcurrent], hall hinput⟩
  obtain ⟨counted, hcount, hcounted, hcountBeside⟩ := countPoint_points hrebased.fits
    (by rw [hcompared _ (by simp [State.windowKeys]), htimes])
    (by rw [hcompared _ (by simp [State.windowKeys]), hvalues])
    (by rw [hcompared _ (by simp [State.windowKeys]), hindex])
  have hcountIndex : counted.entry function.indexKey = [Union.uint (UInt64.ofNat final)] := by
    rw [hcountBeside _ hkey, hfinal]
  have hfinalLt : final < (kept ++ [call]).length := (List.getElem?_eq_some_iff.1 hget).1
  have hfinalNat : (UInt64.ofNat final).toNat = final := by
    have hcountedFits := hcounted.fits
    exact toNat_ofNat_of_fits (by omega)
  have hreturned : (counted.entry "values")[(UInt64.ofNat final).toNat]? = some chosen.input := by
    rw [hfinalNat, hcounted.values, List.getElem?_append_left (by simpa using hfinalLt),
      List.getElem?_map, hget]
    rfl
  refine ⟨chosen.input, counted, ?_, ⟨chosen, List.mem_of_getElem? hget, rfl⟩, hwins, ?_, ?_⟩
  · simp only [Extremum.step, hready, hpoints.firstUi_index, State.firstUi_of_entry hentry, hbest,
      hremove, hmove, hrebase, hrebased.firstUi_index, hadd, hcompare, hcount,
      State.firstUi_of_entry hcountIndex, hreturned, bind, Option.bind, pure]
  · exact Or.inr ⟨counted, rfl, by simp, hcounted⟩
  · intro held hheld _
    obtain rfl := Option.some.inj hheld
    exact ⟨final, hcountIndex, Or.inr ⟨chosen, hget, hwins⟩⟩

end Step

end HybridOs.GoMetrics
