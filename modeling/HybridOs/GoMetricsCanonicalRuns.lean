import HybridOs.GoMetricsCanonical
import HybridOs.GoMetricsFunctionLaws

/-!
# The canonical values of calls

Every function that an expression may call returns canonical values for canonical arguments,
also where it keeps a state.
-/

namespace HybridOs.GoMetrics

variable {F : Type} [Float64 F]

/-! ## Functions that keep a state -/

section Stateful

variable {state : State F} {key : String} {ref : StateRef F}

/-- The first value of a list that is read is canonical. -/
theorem State.Canonical.head? (h : state.Canonical) (hkey : key ∈ State.readKeys) {value : Union F}
    (hvalue : (state.entry key).head? = some value) : value.Canonical :=
  h key hkey value (List.mem_of_head? hvalue)

/-- An edit in a list that is not read keeps a state canonical. -/
theorem State.Canonical.editAt_other {index : ℕ} {edit : Union F → Union F} {after : State F}
    (h : state.Canonical) (hkey : key ∉ State.readKeys)
    (hset : state.editAt key index edit = some after) : after.Canonical :=
  h.editAt (fun hmem => absurd hmem hkey) hset

/-- `ValueChanged` returns a bool and keeps the input it was given. -/
theorem valueChanged_canonical {input : Union F} (hinput : input.Canonical)
    (h : StateRef.Canonical ref) : CallsCanonically (valueChanged input ref) := by
  cases ref with
  | none => exact callsCanonically_same canonical_nil h
  | some map =>
    have hmap := h.getD
    intro returned next hcall
    rw [valueChanged] at hcall
    split at hcall
    · cases hcall
      constructor
      · exact canonical_bool _
      · intro other hother
        cases hother
        exact hmap.put fun _ => allCanonical_cons.2 ⟨hinput, allCanonical_nil⟩
    · next previous rest hentry =>
      have hlist := hmap "previousValue" (by decide)
      rw [hentry, allCanonical_cons] at hlist
      split_ifs at hcall
      · cases hcall
        constructor
        · exact canonical_bool _
        · intro other hother
          cases hother
          exact hmap
      · cases hcall
        constructor
        · exact canonical_bool _
        · intro other hother
          cases hother
          exact hmap.put fun _ => allCanonical_cons.2 ⟨hinput, hlist.2⟩

variable (clock : Clock) (address : ℕ)

/-- The state of a first integration is canonical. -/
theorem prepareIntegrate_canonical (h : state.Canonical) :
    (prepareIntegrate clock state).Canonical := by
  rw [prepareIntegrate]
  split_ifs
  · exact (h.put_other (by decide) _).put_other (by decide) _
  · exact h

/-- The names of the lists of a duration are none of those that are read. -/
theorem sprintP_notMem (name : String) : sprintP address ++ name ∉ State.readKeys := by
  have hne (key : String) (hkey : key.toList.head? ≠ some '0') :
      sprintP address ++ name ≠ key := by
    rintro rfl
    exact hkey (by simp [sprintP])
  simp only [State.readKeys, List.mem_cons, List.not_mem_nil, or_false, not_or]
  exact ⟨hne _ (by decide), hne _ (by decide), hne _ (by decide), hne _ (by decide)⟩

/-- A list that is there from now on keeps a state canonical. -/
theorem ensure_canonical (h : state.Canonical) (hkey : key ∉ State.readKeys) (first : Union F) :
    (state.ensure key first).Canonical := by
  rw [State.ensure]
  split_ifs
  · exact h.put_other hkey _
  · exact h

variable [Library F]

/-- One pass of `Integrate` makes new unions only. -/
theorem integrateStep_canonical (dataType : DataType) (args : Union F × Union F × Union F × Union F)
    (h : state.Canonical) : StepsCanonically (integrateStep clock dataType args state) := by
  intro returned after hstep
  have hprepared := prepareIntegrate_canonical clock h
  simp only [integrateStep] at hstep
  have hfirst : (((prepareIntegrate clock state).entry "value").head?.getD
      (.float 0)).Canonical := by
    cases hhead : ((prepareIntegrate clock state).entry "value").head? with
    | none => exact canonical_float 0
    | some value => exact hprepared.head? (by decide) hhead
  cases hcast : castUnionType (((prepareIntegrate clock state).entry "value").head?.getD
      (.float 0)) .FLOAT with
  | error err =>
    rw [hcast] at hstep
    cases hstep
    exact ⟨canonical_nil, hprepared⟩
  | ok prevValue =>
    obtain ⟨hprev, htag⟩ := castUnionType_canonical hfirst hcast
    rw [hcast] at hstep
    simp only [Option.bind_eq_bind, Option.bind_eq_some_iff] at hstep
    obtain ⟨oldTimestamp, -, resets, -, stamped, hstamped, minuted, hminuted, rfl, rfl⟩ := hstep
    have hreturned (sum : F) : (castArg dataType { prevValue with f := sum }).1.Canonical :=
      castArg_canonical (hprev.withF htag sum)
    have hminute := (hprepared.editAt_other (by decide) hstamped).editAt_other (by decide) hminuted
    constructor
    · exact hreturned _
    · by_cases hvalue : minuted.entry "value" = []
      · rw [if_pos hvalue]
        exact hminute
      · rw [if_neg hvalue]
        exact hminute.put fun hmem => (hminute "value" hmem).modify (fun _ _ => hreturned _) 0

/-- A call of `Integrate` keeps values canonical. -/
theorem integrate_canonical (input timescale minuteReset minuteOffset : Union F)
    (h : StateRef.Canonical ref) :
    CallsCanonically (integrate clock input timescale minuteReset minuteOffset ref) := by
  rw [integrate]
  split
  · exact callsCanonically_same canonical_nil h
  · cases ref with
    | none => exact callsCanonically_same canonical_nil h
    | some map => exact withMap_canonical (integrateStep_canonical clock _ _ h.getD)

/-- One pass of the flip-flop makes new unions only. -/
theorem srffStep_canonical (arg1 arg2 : Union F) (h : state.Canonical) :
    StepsCanonically (srffStep arg1 arg2 state) := by
  intro returned after hstep
  simp only [srffStep] at hstep
  generalize hprepared : (if (state "q").isNone then state.put "q" [.bool false] else state) =
    prepared at hstep
  have hstate : prepared.Canonical := by
    rw [← hprepared]
    split_ifs
    · exact h.put fun _ => allCanonical_cons.2 ⟨canonical_bool _, allCanonical_nil⟩
    · exact h
  split_ifs at hstep
  · simp only [Option.bind_eq_bind, Option.bind_eq_some_iff] at hstep
    obtain ⟨edited, hedited, q, hq, rfl, rfl⟩ := hstep
    have hcanonical := hstate.editAt (fun _ _ _ => canonical_bool _) hedited
    exact ⟨hcanonical.head? (by decide) hq, hcanonical⟩
  · simp only [Option.bind_eq_bind, Option.bind_eq_some_iff] at hstep
    obtain ⟨edited, hedited, q, hq, rfl, rfl⟩ := hstep
    have hcanonical := hstate.editAt (fun _ _ _ => canonical_bool _) hedited
    exact ⟨hcanonical.head? (by decide) hq, hcanonical⟩
  · simp only [Option.bind_eq_bind, Option.bind_some, Option.bind_eq_some_iff] at hstep
    obtain ⟨q, hq, rfl, rfl⟩ := hstep
    exact ⟨hstate.head? (by decide) hq, hstate⟩

/-- A call of `SRFF` keeps values canonical. -/
theorem srff_canonical (arg1 arg2 : Union F) (h : StateRef.Canonical ref) :
    CallsCanonically (srff arg1 arg2 ref) := by
  cases ref with
  | none => exact callsCanonically_same canonical_nil h
  | some map =>
    rw [srff]
    split_ifs
    · exact callsCanonically_same canonical_nil h
    · exact withMap_canonical (srffStep_canonical arg1 arg2 h.getD)

omit [Library F] in
/-- One pass of the pulse makes new unions only. -/
theorem pulseStep_canonical (trigger reset timeout : Union F) (h : state.Canonical) :
    StepsCanonically (pulseStep clock trigger reset timeout state) := by
  have htrigger : "triggerEvent" ∉ State.readKeys := by decide
  have htimeout : "timeout" ∉ State.readKeys := by decide
  intro returned after hstep
  simp only [pulseStep, Option.bind_eq_bind, Option.bind_eq_some_iff] at hstep
  obtain ⟨inTrigger, -, hstep⟩ := hstep
  split_ifs at hstep
  · simp only [Option.bind_eq_some_iff] at hstep
    obtain ⟨edited, hedited, rfl, rfl⟩ := hstep
    exact ⟨canonical_bool _, h.editAt_other htrigger hedited⟩
  · simp only [Option.bind_eq_some_iff] at hstep
    obtain ⟨ends, -, hstep⟩ := hstep
    split_ifs at hstep
    · simp only [Option.bind_eq_some_iff] at hstep
      obtain ⟨edited, hedited, rfl, rfl⟩ := hstep
      exact ⟨canonical_bool _, h.editAt_other htrigger hedited⟩
    · cases hstep
      exact ⟨canonical_bool _, h⟩
  · cases hstep
    exact ⟨canonical_bool _, h⟩
  · simp only [Option.bind_eq_some_iff] at hstep
    obtain ⟨triggered, htriggered, edited, hedited, rfl, rfl⟩ := hstep
    exact ⟨canonical_bool _, (h.editAt_other htrigger htriggered).editAt_other htimeout hedited⟩
  · cases hstep
    exact ⟨canonical_bool _, h⟩

/-- A call of `Pulse` keeps values canonical. -/
theorem pulse_canonical (trigger reset timeout : Union F) (h : StateRef.Canonical ref) :
    CallsCanonically (pulse clock trigger reset timeout ref) := by
  cases ref with
  | none => exact callsCanonically_same canonical_nil h
  | some map =>
    have hmap : (map.getD ((State.empty.put "triggerEvent" [.nil]).put "timeout"
        [.nil])).Canonical := by
      cases map with
      | none => exact (State.canonical_empty.put_other (by decide) _).put_other (by decide) _
      | some map => exact h map rfl
    have hsame : StateRef.Canonical (some (some (map.getD ((State.empty.put "triggerEvent"
        [.nil]).put "timeout" [.nil])))) := by
      intro other hother
      cases hother
      exact hmap
    rw [pulse]
    split
    · exact callsCanonically_same canonical_nil hsame
    · exact callsCanonically_same canonical_nil hsame
    · exact callsCanonically_same canonical_nil hsame
    · exact withMap_canonical (pulseStep_canonical clock _ _ _ hmap)

omit [Library F] in
/-- What `Duration` does where the time since the trigger does not convert. -/
theorem durationFailure_canonical {clock : Clock} {firstTriggered : String} {err : Failure}
    {state after : State F} {returned : Returned (Union F)} (h : state.Canonical) (hkey : firstTriggered ∉ State.readKeys)
    (hstep : (if err = millisecondsOverflow then
        (state.editAt firstTriggered 0 fun _ => .int clock.unixMilli).bind fun state =>
          pure (failWith .nil "error checking Duration", state)
      else pure (failWith .nil "error checking Duration", state)) = some (returned, after)) :
    returned.1.Canonical ∧ after.Canonical := by
  split_ifs at hstep
  · simp only [Option.bind_eq_some_iff] at hstep
    obtain ⟨edited, hedited, rfl, rfl⟩ := hstep
    exact ⟨canonical_nil, h.editAt_other hkey hedited⟩
  · cases hstep
    exact ⟨canonical_nil, h⟩

/-- What `Duration` answers is a bool, and the texts that it stores are not read. -/
theorem durationResult_canonical {clock : Clock} {expressionResult : Bool} {durationSecs : F}
    {previousValue firstTriggered : String} (h : state.Canonical)
    (hkey : firstTriggered ∉ State.readKeys) :
    StepsCanonically
      (durationResult clock expressionResult durationSecs previousValue firstTriggered state) := by
  intro returned after hstep
  cases expressionResult with
  | false =>
    cases hstep
    exact ⟨canonical_bool _, h⟩
  | true =>
    simp only [durationResult, if_true, Option.bind_eq_bind, Option.bind_eq_some_iff] at hstep
    obtain ⟨previous, -, hstep⟩ := hstep
    split_ifs at hstep
    · simp only [Option.bind_some, Option.bind_eq_some_iff] at hstep
      obtain ⟨triggered, -, hstep⟩ := hstep
      split at hstep
      · exact durationFailure_canonical h hkey hstep
      · cases hstep
        exact ⟨canonical_bool _, h⟩
    · simp only [Option.bind_eq_some_iff] at hstep
      obtain ⟨edited, hedited, triggered, -, hstep⟩ := hstep
      have hafter := h.editAt_other hkey hedited
      split at hstep
      · exact durationFailure_canonical hafter hkey hstep
      · cases hstep
        exact ⟨canonical_bool _, hafter⟩

/-- A call of `Duration` keeps values canonical. -/
theorem duration_canonical (expressionResult : Bool) (durationSecs : F) (address : ℕ)
    (h : StateRef.Canonical ref) :
    CallsCanonically (duration clock expressionResult durationSecs (sprintP address) ref) := by
  have hprevious := sprintP_notMem address "previousValue"
  have hfirst := sprintP_notMem address "firstTriggered"
  cases ref with
  | none => exact callsCanonically_same canonical_nil h
  | some map =>
    cases map with
    | none =>
      intro returned next hcall
      cases hcall
    | some map =>
      have hensured := ensure_canonical (ensure_canonical (h map rfl) hprevious (.bool false))
        hfirst (.int 0)
      apply withMap_canonical
      intro returned after hstep
      simp only [durationStep, Option.bind_eq_bind, Option.bind_eq_some_iff, Prod.exists] at hstep
      obtain ⟨returned, err, result, hresult, edited, hedited, rfl, rfl⟩ := hstep
      obtain ⟨hreturned, hstate⟩ := durationResult_canonical hensured hfirst _ _ hresult
      exact ⟨hreturned, hstate.editAt_other hprevious hedited⟩

/-! ## Calls with a state -/

/-- What yields a list yields canonical values, and keeps the lists of the state canonical. -/
def YieldsCanonically (result : Option (Returned (List (Union F)) × StateRef F)) : Prop :=
  ∀ returned next, result = some (returned, next) →
    AllCanonical returned.1 ∧ StateRef.Canonical next

section
omit [Library F]

/-- One canonical value is a canonical list. -/
theorem allCanonical_single {returned : Returned (Union F)} (h : returned.1.Canonical) :
    AllCanonical (single returned).1 := allCanonical_cons.2 ⟨h, allCanonical_nil⟩

/-- A call that returns one value yields a list of one. -/
theorem singleStateful_canonical {result : Stateful F} (h : CallsCanonically result) :
    YieldsCanonically (singleStateful result) := by
  intro returned next hresult
  obtain ⟨⟨value, ref⟩, hcall, heq⟩ := Option.map_eq_some_iff.1 hresult
  cases heq
  have hvalue := h value ref hcall
  exact ⟨allCanonical_single hvalue.1, hvalue.2⟩

/-- A call whose argument is missing does nothing. -/
theorem callsCanonically_bind {arg : Option (Union F)} {call : Union F → Stateful F}
    (h : ∀ value, arg = some value → CallsCanonically (call value)) :
    CallsCanonically (arg.bind call) := by
  cases arg with
  | none =>
    intro returned next hcall
    cases hcall
  | some value => exact h value rfl

/-- A call with two arguments, the second by default, keeps values canonical. -/
theorem callWithTwo_canonical {f : Union F → Union F → StateRef F → Stateful F}
    {argVals : List (Union F)} (h : ∀ arg1 ∈ argVals, ∀ arg2, CallsCanonically (f arg1 arg2 ref)) :
    CallsCanonically (callWithTwo f argVals ref) := by
  rw [callWithTwo]
  apply callsCanonically_bind
  intro arg1 harg1
  apply callsCanonically_bind
  intro arg2 _
  exact h arg1 (List.mem_of_getElem? harg1) arg2

end

/-- The call of `Integrate` from its arguments keeps values canonical. -/
theorem callIntegrate_canonical (num_args : ℕ) (argVals : List (Union F))
    (h : StateRef.Canonical ref) : CallsCanonically (callIntegrate clock num_args argVals ref) := by
  rw [callIntegrate]
  apply callsCanonically_bind
  intro input _
  apply callsCanonically_bind
  intro timescale _
  apply callsCanonically_bind
  intro minuteReset _
  apply callsCanonically_bind
  intro minuteOffset _
  exact integrate_canonical clock input timescale minuteReset minuteOffset h

/-- So does that of `Pulse`. -/
theorem callPulse_canonical (argVals : List (Union F)) (h : StateRef.Canonical ref) :
    CallsCanonically (callPulse clock argVals ref) := by
  rw [callPulse]
  apply callsCanonically_bind
  intro trigger _
  apply callsCanonically_bind
  intro reset _
  apply callsCanonically_bind
  intro timeout _
  exact pulse_canonical clock trigger reset timeout h

/-- So does that of `Duration`. -/
theorem callDuration_canonical (argVals : List (Union F)) (h : StateRef.Canonical ref) :
    YieldsCanonically (callDuration clock address argVals ref) := by
  have hfailed (failure : Failure) :
      YieldsCanonically (some ((([] : List (Union F)), some failure), ref)) := by
    intro returned after hcall
    cases hcall
    exact ⟨allCanonical_nil, h⟩
  rw [callDuration.eq_def]
  split
  · split
    · exact hfailed _
    · exact hfailed _
    · intro returned next hcall
      obtain ⟨result, hresult, heq⟩ := Option.map_eq_some_iff.1 hcall
      have hduration := duration_canonical clock _ _ address h result.1 result.2 hresult
      split at heq
      · cases heq
        exact ⟨allCanonical_nil, hduration.2⟩
      · cases heq
        exact ⟨allCanonical_single hduration.1, hduration.2⟩
  · exact hfailed _

/-- A window keeps values of its inputs, and sums and averages are canonical. -/
theorem avgOverTimescale_canonical (values : List (Union F)) (index : ℕ)
    (h : AllCanonical values) (input : Union F) (_ : input.Canonical) :
    (avgOverTimescale.compute values index input).1.Canonical :=
  avg_canonical (h.of_subset (List.take_subset _ _))

/-- Every function with a state keeps canonical values canonical. -/
theorem stateFunction_canonical (function : StateFunction) (clock : Clock) (address num_args : ℕ)
    {argVals : List (Union F)} (hargs : AllCanonical argVals) (h : StateRef.Canonical ref) :
    YieldsCanonically (function.call clock address num_args argVals ref) := by
  cases function with
  | integrate => exact singleStateful_canonical (callIntegrate_canonical clock num_args argVals h)
  | srff =>
    apply singleStateful_canonical
    apply callWithTwo_canonical
    intro arg1 _ arg2
    exact srff_canonical arg1 arg2 h
  | pulse => exact singleStateful_canonical (callPulse_canonical clock argVals h)
  | maxOverTimescale =>
    apply singleStateful_canonical
    apply callWithTwo_canonical
    intro arg1 harg1 arg2
    have hkey : (GoMetrics.maxOverTimescale : Extremum F).indexKey ∉ State.readKeys := by
      change "indexOfMax" ∉ State.readKeys
      decide
    exact Extremum.call_canonical hkey (hargs arg1 harg1) h _ _
  | minOverTimescale =>
    apply singleStateful_canonical
    apply callWithTwo_canonical
    intro arg1 harg1 arg2
    have hkey : (GoMetrics.minOverTimescale : Extremum F).indexKey ∉ State.readKeys := by
      change "indexOfMin" ∉ State.readKeys
      decide
    exact Extremum.call_canonical hkey (hargs arg1 harg1) h _ _
  | avgOverTimescale =>
    apply singleStateful_canonical
    apply callWithTwo_canonical
    intro arg1 harg1 arg2
    exact Aggregate.call_canonical avgOverTimescale_canonical (hargs arg1 harg1) h _ _
  | sumOverTimescale =>
    apply singleStateful_canonical
    apply callWithTwo_canonical
    intro arg1 harg1 arg2
    exact Aggregate.call_canonical (fun _ _ _ _ _ => add_canonical) (hargs arg1 harg1) h _ _
  | valueChanged =>
    apply singleStateful_canonical
    apply callsCanonically_bind
    intro input hinput
    exact valueChanged_canonical (hargs input (List.mem_of_getElem? hinput)) h
  | valueChangedOverTimescale =>
    apply singleStateful_canonical
    apply callWithTwo_canonical
    intro arg1 harg1 arg2
    exact Aggregate.call_canonical (fun _ _ _ _ _ => canonical_bool _) (hargs arg1 harg1) h _ _
  | duration => exact callDuration_canonical clock address argVals h

end Stateful

/-! ## The functions of an expression -/

section Table

/-- A call without a state returns canonical values for canonical arguments. -/
def FunctionCall.Canonical : FunctionCall F → Prop
  | .plain call => ∀ num_args argVals returned, AllCanonical argVals →
    call num_args argVals = some returned → AllCanonical returned.1
  | .timed call => ∀ clock argVals returned, AllCanonical argVals →
    call clock argVals = some returned → AllCanonical returned.1
  | .stateful _ => True

variable {argVals : List (Union F)}

/-- A function of a list is canonical where its result is. -/
theorem variadic_canonical {f : List (Union F) → Returned (Union F)}
    (h : ∀ argVals, AllCanonical argVals → (f argVals).1.Canonical) :
    (FunctionCall.variadic f).Canonical := by
  intro num_args argVals returned hargs hcall
  cases hcall
  exact allCanonical_single (h argVals hargs)

/-- A function from lists to lists is canonical where its results are. -/
theorem lists_canonical {f : List (Union F) → Returned (List (Union F))}
    (h : ∀ argVals, AllCanonical argVals → AllCanonical (f argVals).1) :
    (FunctionCall.lists f).Canonical := by
  intro num_args argVals returned hargs hcall
  cases hcall
  exact h argVals hargs

/-- A function of one argument is canonical where its result is. -/
theorem unary_canonical {f : Union F → Returned (Union F)} (h : ∀ arg, (f arg).1.Canonical) :
    (FunctionCall.unary f).Canonical := by
  intro num_args argVals returned hargs hcall
  obtain ⟨arg, -, rfl⟩ := Option.map_eq_some_iff.1 hcall
  exact allCanonical_single (h arg)

/-- A function of two arguments is canonical where its result is. -/
theorem binary_canonical {f : Union F → Union F → Returned (Union F)}
    (h : ∀ arg1 arg2 : Union F, arg1.Canonical → arg2.Canonical → (f arg1 arg2).1.Canonical) :
    (FunctionCall.binary f).Canonical := by
  intro num_args argVals returned hargs hcall
  simp only [Option.bind_eq_bind, Option.bind_eq_some_iff, Option.pure_def,
    Option.some.injEq] at hcall
  obtain ⟨arg1, harg1, arg2, harg2, rfl⟩ := hcall
  exact allCanonical_single
    (h arg1 arg2 (hargs arg1 (List.mem_of_getElem? harg1)) (hargs arg2 (List.mem_of_getElem? harg2)))

/-- A function of a first argument and a list is canonical where its result is. -/
theorem headed_canonical {f : Union F → List (Union F) → Returned (Union F)}
    (h : ∀ arg argVals, AllCanonical argVals → (f arg argVals).1.Canonical) :
    (FunctionCall.headed f).Canonical := by
  intro num_args argVals returned hargs hcall
  obtain ⟨arg, -, rfl⟩ := Option.map_eq_some_iff.1 hcall
  exact allCanonical_single (h arg _ (hargs.of_subset (List.tail_sublist _ |>.subset)))

/-- A function of an operator, a reference and a list is canonical where its results are. -/
theorem compares_canonical {f : Union F → Union F → List (Union F) → Returned (List (Union F))}
    (h : ∀ operator reference argVals, AllCanonical (f operator reference argVals).1) :
    (FunctionCall.compares f).Canonical := by
  intro num_args argVals returned hargs hcall
  simp only [Option.bind_eq_bind, Option.bind_eq_some_iff, Option.pure_def,
    Option.some.injEq] at hcall
  obtain ⟨operator, -, reference, -, rfl⟩ := hcall
  exact h operator reference _

/-- An argument, or what stands for a missing one, is canonical. -/
theorem argOr_canonical {num_args index : ℕ} {missing arg : Union F} (hmissing : missing.Canonical)
    (hargs : AllCanonical argVals) (h : argOr num_args index missing argVals = some arg) :
    arg.Canonical := by
  rw [argOr] at h
  split_ifs at h
  · cases h
    exact hmissing
  · exact hargs arg (List.mem_of_getElem? h)

variable [Library F]

/-- The arithmetic functions are canonical. -/
theorem arithmeticFunctions_canonical :
    ∀ function ∈ (arithmeticFunctions : List (Function F)), function.call.Canonical := by
  simp only [arithmeticFunctions, List.forall_mem_cons]
  exact ⟨variadic_canonical fun _ _ => add_canonical,
    binary_canonical fun _ _ _ _ => sub_canonical,
    variadic_canonical fun _ _ => mult_canonical,
    binary_canonical fun _ _ _ _ => div_canonical,
    binary_canonical fun _ _ _ h2 => mod_canonical h2,
    variadic_canonical fun _ => bitwise_canonical rfl,
    variadic_canonical fun _ => bitwise_canonical rfl,
    variadic_canonical fun _ => bitwise_canonical rfl,
    binary_canonical fun _ _ h1 _ => leftShift_canonical h1,
    binary_canonical fun _ _ h1 h2 => rightShift_canonical h1 h2,
    binary_canonical fun _ _ h1 _ => bitwiseAndNot_canonical h1, List.forall_mem_nil _⟩

/-- The bitwise and logical functions are canonical. -/
theorem logicalFunctions_canonical :
    ∀ function ∈ (logicalFunctions : List (Function F)), function.call.Canonical := by
  simp only [logicalFunctions, List.forall_mem_cons]
  exact ⟨variadic_canonical fun _ _ => and_canonical,
    variadic_canonical fun _ _ => or_canonical,
    lists_canonical fun _ => not_canonical,
    variadic_canonical fun _ _ => compareWith_canonical,
    variadic_canonical fun _ _ => compareWith_canonical,
    variadic_canonical fun _ _ => compareWith_canonical,
    variadic_canonical fun _ _ => compareWith_canonical,
    variadic_canonical fun _ _ => compareWith_canonical,
    variadic_canonical fun _ _ => compareWith_canonical, List.forall_mem_nil _⟩

/-- The functions on numbers are canonical. -/
theorem numberFunctions_canonical [LawfulFloat64 F] :
    ∀ function ∈ (numberFunctions : List (Function F)), function.call.Canonical := by
  simp only [numberFunctions, List.forall_mem_cons]
  exact ⟨binary_canonical fun _ _ _ _ => root_canonical,
    binary_canonical fun _ _ _ _ => pow_canonical,
    variadic_canonical fun _ => max_canonical,
    variadic_canonical fun _ => min_canonical,
    variadic_canonical fun _ => avg_canonical,
    lists_canonical fun _ => editFloats_canonical,
    lists_canonical fun _ => editFloats_canonical,
    lists_canonical fun _ => editArgs_canonical fun _ => sqrtArg_canonical,
    binary_canonical fun _ _ _ _ => pct_canonical,
    binary_canonical fun arg1 arg2 _ _ => floorDiv_canonical arg1 arg2,
    lists_canonical fun _ => editArgs_canonical fun _ => absArg_canonical,
    lists_canonical fun _ => editFloats_canonical, List.forall_mem_nil _⟩

/-- The conversions are canonical. -/
theorem conversionFunctions_canonical :
    ∀ function ∈ (conversionFunctions : List (Function F)), function.call.Canonical := by
  simp only [conversionFunctions, List.forall_mem_cons]
  exact ⟨lists_canonical fun _ => castAll_canonical _,
    lists_canonical fun _ => editArgs_canonical fun _ => castArg_canonical,
    lists_canonical fun _ => editArgs_canonical fun _ => castArg_canonical,
    lists_canonical fun _ => editArgs_canonical fun _ => castArg_canonical,
    lists_canonical fun _ => castAll_canonical _, List.forall_mem_nil _⟩

/-- The functions of the time are canonical. -/
theorem timeFunctions_canonical :
    ∀ function ∈ (timeFunctions : List (Function F)), function.call.Canonical := by
  have hcurrent : FunctionCall.Canonical
      (.timed fun clock _ => some (single (currentTimeMilliseconds clock)) : FunctionCall F) := by
    intro clock argVals returned hargs hcall
    cases hcall
    exact allCanonical_single (canonical_int _)
  simp only [timeFunctions, List.forall_mem_cons]
  constructor
  · trivial
  constructor
  · exact hcurrent
  constructor
  · exact hcurrent
  constructor
  · intro clock argVals returned hargs hcall
    obtain ⟨arg, -, rfl⟩ := Option.map_eq_some_iff.1 hcall
    exact allCanonical_single (millisecondsSince_canonical clock arg)
  · exact ⟨unary_canonical millisecondsToRFC3339_canonical,
      unary_canonical millisecondsToRFC3339_canonical, trivial, List.forall_mem_nil _⟩

/-- The selections are canonical. -/
theorem selectionFunctions_canonical :
    ∀ function ∈ (selectionFunctions : List (Function F)), function.call.Canonical := by
  simp only [selectionFunctions, List.forall_mem_cons]
  exact ⟨variadic_canonical fun _ _ => rss_canonical,
    headed_canonical fun _ _ => selectN_canonical,
    headed_canonical fun _ _ => enum_canonical,
    variadic_canonical fun _ _ => selectorN_canonical, trivial,
    compares_canonical fun _ _ _ => compare_canonical,
    compares_canonical fun _ _ _ => allCanonical_single
      (compareFold_canonical fun _ => or_canonical),
    compares_canonical fun _ _ _ => allCanonical_single
      (compareFold_canonical fun _ => and_canonical), List.forall_mem_nil _⟩

omit [Library F] in
/-- The functions over a window are canonical. -/
theorem windowFunctions_canonical :
    ∀ function ∈ (windowFunctions : List (Function F)), function.call.Canonical := by
  simp only [windowFunctions, List.forall_mem_cons]
  exact ⟨trivial, trivial, trivial, trivial, trivial, trivial, List.forall_mem_nil _⟩

/-- The call of `Runtime` is canonical, with its defaults. -/
theorem runtimeCall_canonical : (FunctionCall.runtime : FunctionCall F).Canonical := by
  intro num_args argVals returned hargs hcall
  simp only [Option.bind_eq_bind, Option.bind_eq_some_iff, Option.pure_def,
    Option.some.injEq] at hcall
  obtain ⟨charge, hcharge, discharge, hdischarge, power, hpower, gain, hgain, limit, hlimit, minP,
    hminP, defaultP, hdefaultP, rfl⟩ := hcall
  have hminP' := argOr_canonical (canonical_float 0) hargs hminP
  apply allCanonical_single
  apply runtime_canonical
  simp only [allCanonical_cons]
  exact ⟨hargs _ (List.mem_of_getElem? hcharge), hargs _ (List.mem_of_getElem? hdischarge),
    hargs _ (List.mem_of_getElem? hpower), argOr_canonical (canonical_float _) hargs hgain,
    argOr_canonical (canonical_float _) hargs hlimit, hminP',
    argOr_canonical hminP' hargs hdefaultP, allCanonical_nil⟩

/-- The call of `Unicompare` is canonical. -/
theorem unicompareCall_canonical : (FunctionCall.unicompare : FunctionCall F).Canonical := by
  intro num_args argVals returned hargs hcall
  simp only [Option.bind_eq_bind, Option.bind_eq_some_iff, Option.pure_def,
    Option.some.injEq] at hcall
  obtain ⟨base, hbase, compare, hcompare, balance, hbalance, rfl⟩ := hcall
  exact allCanonical_single (unicompare_canonical (hargs _ (List.mem_of_getElem? hbase))
    (argOr_canonical (canonical_bool _) hargs hcompare))

/-- The remaining functions are canonical. -/
theorem furtherFunctions_canonical :
    ∀ function ∈ (furtherFunctions : List (Function F)), function.call.Canonical := by
  simp only [furtherFunctions, List.forall_mem_cons]
  exact ⟨unary_canonical fun _ => quadToSigned_canonical,
    unary_canonical fun _ => signedToQuad_canonical, runtimeCall_canonical,
    unicompareCall_canonical, variadic_canonical fun _ _ => count_canonical,
    variadic_canonical fun _ _ => combineBits_canonical,
    headed_canonical fun _ _ _ => isIn_canonical, trivial, List.forall_mem_nil _⟩

/-- Every function of the evaluator returns canonical values for canonical arguments. -/
theorem functions_canonical [LawfulFloat64 F] {function : Function F}
    (h : function ∈ functions) : function.call.Canonical := by
  simp only [functions, List.mem_append] at h
  rcases h with ((((((h | h) | h) | h) | h) | h) | h) | h
  · exact arithmeticFunctions_canonical function h
  · exact logicalFunctions_canonical function h
  · exact numberFunctions_canonical function h
  · exact conversionFunctions_canonical function h
  · exact timeFunctions_canonical function h
  · exact selectionFunctions_canonical function h
  · exact windowFunctions_canonical function h
  · exact furtherFunctions_canonical function h

end Table

/-!
## The canonical values of runs

Whatever values the conversions, the casts and the evaluations of metrics produce from each
other are canonical, and two canonical values are the same where their types and payloads are.
-/

/-- An evaluation yields canonical values and keeps the lists of the state canonical. -/
def Evaluation.Canonical (evaluation : Evaluation F (StateRef F)) : Prop :=
  ∀ state, StateRef.Canonical state → YieldsCanonically (evaluation state)

section Combinators

variable {first : Evaluation F (StateRef F)}

/-- An evaluation that returns canonical values is canonical. -/
theorem returns_canonical {returned : Returned (List (Union F))} (h : AllCanonical returned.1) :
    (Evaluation.returns returned : Evaluation F (StateRef F)).Canonical := by
  intro state hstate result after heq
  cases heq
  exact ⟨h, hstate⟩

/-- An evaluation that fails returns no value. -/
theorem fails_canonical (failure : Failure) :
    (Evaluation.fails failure : Evaluation F (StateRef F)).Canonical :=
  returns_canonical allCanonical_nil

variable {next : List (Union F) → Evaluation F (StateRef F)}

/-- Two evaluations in a row are canonical where the second is on canonical values. -/
theorem thenWith_canonical (h : first.Canonical)
    (hnext : ∀ values, AllCanonical values → (next values).Canonical) :
    (first.thenWith next).Canonical := by
  intro state hstate returned after heq
  rw [Evaluation.thenWith] at heq
  cases hfirst : first state with
  | none =>
    rw [hfirst] at heq
    cases heq
  | some result =>
    obtain ⟨⟨values, err⟩, between⟩ := result
    obtain ⟨hvalues, hbetween⟩ := h state hstate _ _ hfirst
    rw [hfirst] at heq
    cases err with
    | some err =>
      cases heq
      exact ⟨allCanonical_nil, hbetween⟩
    | none => exact hnext values hvalues between hbetween returned after heq

/-- So they are where the second also sees the error of the first. -/
theorem andThen_canonical (h : first.Canonical)
    {next : Returned (List (Union F)) → Evaluation F (StateRef F)}
    (hnext : ∀ returned, AllCanonical returned.1 → (next returned).Canonical) :
    (first.andThen next).Canonical := by
  intro state hstate returned after heq
  rw [Evaluation.andThen] at heq
  cases hfirst : first state with
  | none =>
    rw [hfirst] at heq
    cases heq
  | some result =>
    obtain ⟨values, between⟩ := result
    obtain ⟨hvalues, hbetween⟩ := h state hstate _ _ hfirst
    rw [hfirst] at heq
    exact hnext values hvalues between hbetween returned after heq

/-- An operand hands one canonical value on. -/
theorem operand_canonical (name : String) (h : first.Canonical)
    {next : Union F → Evaluation F (StateRef F)}
    (hnext : ∀ value : Union F, value.Canonical → (next value).Canonical) :
    (first.operand name next).Canonical := by
  apply thenWith_canonical h
  intro values hvalues
  rcases values with _ | ⟨value, _ | ⟨second, rest⟩⟩
  · exact fails_canonical _
  · exact hnext value (allCanonical_cons.1 hvalues).1
  · exact fails_canonical _

/-- The arguments of a call hand canonical values on. -/
theorem arguments_canonical {args : List (Evaluation F (StateRef F))}
    (h : ∀ arg ∈ args, arg.Canonical)
    (hnext : ∀ values, AllCanonical values → (next values).Canonical) :
    (Evaluation.arguments args next).Canonical := by
  induction args generalizing next with
  | nil => exact hnext [] allCanonical_nil
  | cons arg args ih =>
    apply thenWith_canonical (h arg List.mem_cons_self)
    intro vals hvals
    apply ih fun other hother => h other (List.mem_cons_of_mem _ hother)
    intro argVals hargVals
    exact hnext _ (hvals.append hargVals)

end Combinators

/-! ## Nodes -/

/-- Every value of a scope is canonical. -/
def CanonicalScope (scope : InputScope F) : Prop :=
  ∀ name values, scope name = some values → AllCanonical values

section Nodes

variable {scope : InputScope F} {clock : Clock}

/-- A variable has the canonical values of its scope. -/
theorem evaluateVariable_canonical (hscope : CanonicalScope scope) (name : String) :
    AllCanonical (evaluateVariable scope name).1 := by
  rw [evaluateVariable]
  split
  · exact allCanonical_nil
  · exact allCanonical_cons.2 ⟨canonical_nil, allCanonical_nil⟩
  · next values _ hvalues => exact hscope name values hvalues

/-- An identifier is a constant or a variable. -/
theorem evaluateIdent_canonical (hscope : CanonicalScope scope) (name : String) :
    AllCanonical (evaluateIdent scope name).1 := by
  rw [evaluateIdent]
  split_ifs
  · exact allCanonical_cons.2 ⟨canonical_bool _, allCanonical_nil⟩
  · exact allCanonical_cons.2 ⟨canonical_bool _, allCanonical_nil⟩
  · exact allCanonical_cons.2 ⟨canonical_nil, allCanonical_nil⟩
  · exact evaluateVariable_canonical hscope name

/-- A selector is looked up under its dotted name. -/
theorem evaluateSelector_canonical (hscope : CanonicalScope scope) (x : Node) (sel : String) :
    (evaluateSelector scope x sel : Evaluation F (StateRef F)).Canonical := by
  rw [evaluateSelector]
  split
  · intro state hstate returned after heq
    cases heq
  · exact returns_canonical (evaluateVariable_canonical hscope _)

variable [Library F]

/-- A literal is a new union. -/
theorem evaluateBasicLit_canonical (kind : Token) (value : String) :
    AllCanonical (evaluateBasicLit kind value : Returned (List (Union F))).1 := by
  cases kind with
  | INT =>
    simp only [evaluateBasicLit]
    split_ifs
    · exact allCanonical_cons.2 ⟨canonical_int _, allCanonical_nil⟩
    · exact allCanonical_nil
  | FLOAT =>
    simp only [evaluateBasicLit]
    split_ifs
    · exact allCanonical_cons.2 ⟨canonical_float _, allCanonical_nil⟩
    · exact allCanonical_nil
  | STRING => exact allCanonical_cons.2 ⟨canonical_string _, allCanonical_nil⟩
  | _ => exact allCanonical_nil

/-- Every binary operator of the language is canonical. -/
theorem binaryOperation_canonical {op : Token}
    {operation : Union F → Union F → Returned (Union F)} (h : op.binaryOperation = some operation)
    {l r : Union F} (hl : l.Canonical) (hr : r.Canonical) : (operation l r).1.Canonical := by
  have hpair : AllCanonical [l, r] :=
    allCanonical_cons.2 ⟨hl, allCanonical_cons.2 ⟨hr, allCanonical_nil⟩⟩
  cases op <;> cases h
  case ADD => exact add_canonical
  case SUB => exact sub_canonical
  case MUL => exact mult_canonical
  case QUO => exact div_canonical
  case REM => exact mod_canonical hr
  case AND => exact bitwise_canonical rfl hpair
  case OR => exact bitwise_canonical rfl hpair
  case XOR => exact bitwise_canonical rfl hpair
  case SHL => exact leftShift_canonical hl
  case SHR => exact rightShift_canonical hl hr
  case AND_NOT => exact bitwiseAndNot_canonical hl
  case LAND => exact and_canonical
  case LOR => exact or_canonical
  all_goals exact compareWith_canonical

/-- What a binary expression returns is canonical. -/
theorem binaryValue_canonical (op : Token) {l r : Union F} (hl : l.Canonical) (hr : r.Canonical) :
    AllCanonical (binaryValue op l r).1 := by
  rw [binaryValue]
  split_ifs
  · exact allCanonical_nil
  · dsimp only
    split
    · next operation hoperation =>
      exact allCanonical_single (binaryOperation_canonical hoperation hl hr)
    · exact allCanonical_cons.2 ⟨canonical_nil, allCanonical_nil⟩

/-- What a unary expression returns is canonical. -/
theorem unaryValue_canonical (op : Token) {r : Union F} (hr : r.Canonical) :
    AllCanonical (unaryValue op r).1 := by
  rw [unaryValue.eq_def]
  split_ifs
  · exact allCanonical_nil
  · split
    · exact not_canonical (allCanonical_cons.2 ⟨hr, allCanonical_nil⟩)
    · exact allCanonical_single mult_canonical
    · exact allCanonical_cons.2 ⟨canonical_nil, allCanonical_nil⟩

/-! ## Calls -/

section
omit [Library F]

/-- Values chosen from two canonical lists are canonical. -/
theorem choosePairwise_canonical {vals output1 output2 : List (Union F)}
    (h1 : AllCanonical output1) (h2 : AllCanonical output2) :
    AllCanonical (choosePairwise vals output1 output2) := by
  induction vals generalizing output1 output2 with
  | nil => exact allCanonical_nil
  | cons val vals ih =>
    cases output1 with
    | nil => exact allCanonical_nil
    | cons value1 output1 =>
      cases output2 with
      | nil => exact allCanonical_nil
      | cons value2 output2 =>
        obtain ⟨hvalue1, houtput1⟩ := allCanonical_cons.1 h1
        obtain ⟨hvalue2, houtput2⟩ := allCanonical_cons.1 h2
        rw [choosePairwise, allCanonical_cons]
        constructor
        · split_ifs
          · exact hvalue1
          · exact hvalue2
        · exact ih houtput1 houtput2

/-- Values kept from a canonical list are canonical. -/
theorem keepPairwise_canonical {vals output : List (Union F)} (h : AllCanonical output) :
    AllCanonical (keepPairwise vals output) := by
  induction vals generalizing output with
  | nil => exact allCanonical_nil
  | cons val vals ih =>
    cases output with
    | nil => exact allCanonical_nil
    | cons value output =>
      obtain ⟨hvalue, houtput⟩ := allCanonical_cons.1 h
      rw [keepPairwise]
      split_ifs
      · exact allCanonical_cons.2 ⟨hvalue, ih houtput⟩
      · exact ih houtput

end

variable {then_ else_ : Evaluation F (StateRef F)}

section
omit [Library F]

/-- `If` returns values of its branch. -/
theorem ifPairs_canonical (vals : List (Union F)) (h : then_.Canonical) :
    (ifPairs vals then_).Canonical := by
  apply andThen_canonical h
  intro output houtput
  split_ifs
  · exact fails_canonical _
  · exact returns_canonical (keepPairwise_canonical houtput)

/-- `IfElse` returns values of its two branches. -/
theorem ifElsePairs_canonical (vals : List (Union F)) (h : then_.Canonical)
    (helse : else_.Canonical) : (ifElsePairs vals then_ else_).Canonical := by
  apply andThen_canonical h
  intro output1 houtput1
  split_ifs
  · exact fails_canonical _
  · apply andThen_canonical helse
    intro output2 houtput2
    split_ifs
    · exact fails_canonical _
    · exact returns_canonical (choosePairwise_canonical houtput1 houtput2)

end

/-- A function of the list is called on the state of a metric. -/
theorem apply_canonical [LawfulFloat64 F] {function : Function F} (h : function ∈ functions)
    (address num_args : ℕ) {argVals : List (Union F)} (hargs : AllCanonical argVals) :
    (function.apply (stateMachine scope clock) clock address num_args argVals).Canonical := by
  have hcall := functions_canonical h
  rw [Function.apply]
  split_ifs
  · cases hkind : function.call with
    | plain call =>
      rw [hkind] at hcall
      intro state hstate returned after heq
      obtain ⟨result, hresult, hpair⟩ := Option.map_eq_some_iff.1 heq
      cases hpair
      exact ⟨hcall num_args argVals _ hargs hresult, hstate⟩
    | timed call =>
      rw [hkind] at hcall
      intro state hstate returned after heq
      obtain ⟨result, hresult, hpair⟩ := Option.map_eq_some_iff.1 heq
      cases hpair
      exact ⟨hcall clock argVals _ hargs hresult, hstate⟩
    | stateful stateFunction =>
      intro state hstate
      exact stateFunction_canonical stateFunction clock address num_args hargs hstate
  · exact fails_canonical _

variable [LawfulFloat64 F] {args : List (Evaluation F (StateRef F))}

/-- The call of a function of the table is canonical. -/
theorem evaluateFunction_canonical (name : String) (address : ℕ) (h : ∀ arg ∈ args, arg.Canonical) :
    (evaluateFunction (stateMachine scope clock) clock name address args).Canonical := by
  apply arguments_canonical h
  intro argVals hargVals
  cases hfunction : (functionNamed (Library.toLower F name) : Option (Function F)) with
  | none => exact fails_canonical _
  | some function =>
    exact apply_canonical (List.mem_of_find?_eq_some hfunction) address _ hargVals

/-- The calls of `If` and `IfElse` are canonical. -/
theorem evaluateIf_canonical (name : String) (address : ℕ) (h : ∀ arg ∈ args, arg.Canonical) :
    (evaluateIf (stateMachine scope clock) clock name address args).Canonical := by
  rcases args with _ | ⟨condition, _ | ⟨then_, rest⟩⟩
  · exact fails_canonical _
  · exact fails_canonical _
  · have hthen := h then_ (by simp)
    apply thenWith_canonical (h condition (by simp))
    intro vals hvals
    rcases vals with _ | ⟨val, _ | ⟨second, vals⟩⟩
    · exact fails_canonical _
    · rcases rest with _ | ⟨else_, _ | ⟨fourth, rest⟩⟩
      · dsimp only
        split_ifs
        · exact hthen
        · exact returns_canonical allCanonical_nil
      · dsimp only
        split_ifs
        · exact hthen
        · exact h else_ (by simp)
      · dsimp only
        split_ifs
        · exact hthen
        · exact returns_canonical allCanonical_nil
    · rcases rest with _ | ⟨else_, _ | ⟨fourth, rest⟩⟩
      · exact ifPairs_canonical _ hthen
      · exact ifElsePairs_canonical _ hthen (h else_ (by simp))
      · exact evaluateFunction_canonical name address h

/-- Every call expression is canonical. -/
theorem evaluateCallExpr_canonical (fn : Node) (address : ℕ) (h : ∀ arg ∈ args, arg.Canonical) :
    (evaluateCallExpr (stateMachine scope clock) clock fn address args).Canonical := by
  rw [evaluateCallExpr]
  split
  · exact fails_canonical _
  · split_ifs
    · exact evaluateIf_canonical _ address h
    · exact evaluateFunction_canonical _ address h

end Nodes

/-! ## Messages -/

section Messages

variable [Library F] {scope : InputScope F} {clock : Clock} {state : State F}
  {failure : Option Failure} {after : State F}

/-- Messages are not in the lists that values are read from. -/
theorem trackMessage_canonical {index : ℕ} {expressionIsTrue : Union F} (h : state.Canonical)
    (htrack : trackMessage scope clock index expressionIsTrue state = some (failure, after)) :
    after.Canonical := by
  have hset {message timestamp : String} {active : Bool} {set : State F}
      (hactive : setActive index message timestamp active state = some set) : set.Canonical := by
    simp only [setActive, Option.bind_eq_bind, Option.bind_eq_some_iff] at hactive
    obtain ⟨messaged, hmessaged, stamped, hstamped, hactive⟩ := hactive
    exact ((h.editAt_other (by decide) hmessaged).editAt_other (by decide) hstamped).editAt_other
      (by decide) hactive
  have hupdate {before : State F} (hbefore : before.Canonical)
      (hupdated : (before.editAt "previousExpressionValues" index fun _ => expressionIsTrue).map
        (fun state => ((none : Option Failure), state)) = some (failure, after)) :
      after.Canonical := by
    obtain ⟨edited, hedited, hpair⟩ := Option.map_eq_some_iff.1 hupdated
    cases hpair
    exact hbefore.editAt_other (by decide) hedited
  rw [trackMessage] at htrack
  split at htrack
  · cases htrack
    exact h
  · dsimp only at htrack
    split_ifs at htrack
    · cases htrack
      exact h
    · simp only [Option.bind_eq_bind, Option.bind_eq_some_iff] at htrack
      obtain ⟨messageString, -, parsedMsg, -, set, hactive, hupdated⟩ := htrack
      exact hupdate (hset hactive) hupdated
    · obtain ⟨set, hactive, hupdated⟩ := Option.bind_eq_some_iff.1 htrack
      exact hupdate (hset hactive) hupdated
    · obtain ⟨set, hedited, hupdated⟩ := Option.bind_eq_some_iff.1 htrack
      exact hupdate (h.editAt_other (by decide) hedited) hupdated

/-- The loop that tracks when subexpressions hold keeps a state canonical. -/
theorem trackLoop_canonical {text : String} {expressionIsTrue : Union F} {index : ℕ}
    {subexpressions : List (Union F)} (h : state.Canonical)
    (htrack : trackLoop scope clock text expressionIsTrue index subexpressions state =
      some (failure, after)) : after.Canonical := by
  induction subexpressions generalizing index state with
  | nil =>
    cases htrack
    exact h
  | cons subexpression rest ih =>
    rw [trackLoop] at htrack
    split_ifs at htrack
    · split at htrack
      · cases htrack
      · next hmessage =>
        cases htrack
        exact trackMessage_canonical h hmessage
      · next hmessage => exact ih (trackMessage_canonical h hmessage) htrack
    · exact ih h htrack

/-- Tracking keeps a state canonical. -/
theorem trackMap_canonical {text : String} {values : List (Union F)} (h : state.Canonical)
    (htrack : trackMap scope clock text values state = some (failure, after)) :
    after.Canonical := by
  rw [trackMap.eq_def] at htrack
  dsimp only at htrack
  split_ifs at htrack
  · cases htrack
    exact h
  · cases htrack
    exact h
  · split at htrack
    · cases htrack
      exact h
    · split at htrack
      · cases htrack
        exact h
      · exact trackLoop_canonical h htrack

/-- A tracked evaluation is canonical where the evaluation is. -/
theorem tracked_canonical {text : String} {evaluation : Evaluation F (StateRef F)}
    (h : evaluation.Canonical) : (tracked (stateMachine scope clock) text evaluation).Canonical := by
  intro state hstate returned after heq
  rw [tracked] at heq
  cases hevaluation : evaluation state with
  | none =>
    rw [hevaluation] at heq
    cases heq
  | some result =>
    obtain ⟨⟨values, err⟩, between⟩ := result
    obtain ⟨hvalues, hbetween⟩ := h state hstate _ _ hevaluation
    rw [hevaluation] at heq
    obtain ⟨⟨failure, ref⟩, htrack, hpair⟩ := Option.map_eq_some_iff.1 heq
    cases hpair
    constructor
    · exact hvalues
    · change trackActiveSubexpressions scope clock text values between = _ at htrack
      rw [trackActiveSubexpressions.eq_def] at htrack
      split at htrack
      · next map =>
        obtain ⟨⟨failure, tracked⟩, hmap, hpair⟩ := Option.map_eq_some_iff.1 htrack
        cases hpair
        intro other hother
        cases hother
        exact trackMap_canonical (hbetween map rfl) hmap
      · cases htrack
        exact hbetween

end Messages

/-! ## Expressions -/

section Expressions

variable [Library F] [LawfulFloat64 F] {scope : InputScope F} {clock : Clock}

mutual

/-- Every node yields canonical values over canonical inputs. -/
theorem Node.evaluate_canonical (hscope : CanonicalScope scope) :
    ∀ node : Node, (node.evaluate (stateMachine scope clock) scope clock).Canonical
  | .ident name => by
    rw [Node.evaluate]
    exact tracked_canonical (returns_canonical (evaluateIdent_canonical hscope name))
  | .callExpr text address fn args => by
    rw [Node.evaluate]
    exact tracked_canonical
      (evaluateCallExpr_canonical fn address (Node.evaluations_canonical hscope args))
  | .binaryExpr text x op y => by
    rw [Node.evaluate]
    apply tracked_canonical
    apply operand_canonical _ (x.evaluate_canonical hscope)
    intro l hl
    apply operand_canonical _ (y.evaluate_canonical hscope)
    intro r hr
    exact returns_canonical (binaryValue_canonical op hl hr)
  | .parenExpr text x => by
    rw [Node.evaluate]
    exact tracked_canonical (x.evaluate_canonical hscope)
  | .unaryExpr text op x => by
    rw [Node.evaluate]
    apply tracked_canonical
    apply operand_canonical _ (x.evaluate_canonical hscope)
    intro r hr
    exact returns_canonical (unaryValue_canonical op hr)
  | .basicLit kind value => by
    rw [Node.evaluate]
    exact tracked_canonical (returns_canonical (evaluateBasicLit_canonical kind value))
  | .selectorExpr text x sel => by
    rw [Node.evaluate]
    exact tracked_canonical (evaluateSelector_canonical hscope x sel)
  | .other text => by
    rw [Node.evaluate]
    exact tracked_canonical (fails_canonical _)

/-- By induction on the tree, every argument is evaluated canonically. -/
theorem Node.evaluations_canonical (hscope : CanonicalScope scope) :
    ∀ args : List Node, ∀ arg ∈ Node.evaluations (stateMachine scope clock) scope clock args,
      arg.Canonical
  | [], arg, harg => by
    rw [Node.evaluations] at harg
    contradiction
  | node :: args, arg, harg => by
    rw [Node.evaluations, List.mem_cons] at harg
    cases harg with
    | inl hfirst =>
      rw [hfirst]
      exact node.evaluate_canonical hscope
    | inr hrest => exact Node.evaluations_canonical hscope args arg hrest

end

/-- In a canonical scope the evaluation of every expression is canonical. -/
theorem evaluate_canonical (hscope : CanonicalScope scope) (parsed : Node) :
    (GoMetrics.evaluate scope clock parsed).Canonical := by
  intro state hstate returned after heq
  obtain ⟨⟨values, between⟩, hvalues, hpair⟩ := Option.map_eq_some_iff.1 heq
  cases hpair
  obtain ⟨hcanonical, hafter⟩ := parsed.evaluate_canonical hscope state hstate _ _ hvalues
  constructor
  · rw [orNil]
    split_ifs
    · exact allCanonical_cons.2 ⟨canonical_nil, allCanonical_nil⟩
    · exact hcanonical
  · exact hafter

omit [LawfulFloat64 F] in
/-- The cast of the output keeps it canonical. -/
theorem castOutput_canonical (originalType : DataType) {returned : Returned (List (Union F))}
    (h : AllCanonical returned.1) : AllCanonical (castOutput originalType returned) := by
  rw [castOutput.eq_def]
  split
  · obtain ⟨hvalue, hvalues⟩ := allCanonical_cons.1 h
    split_ifs
    · exact allCanonical_cons.2 ⟨castInPlace_canonical hvalue _, hvalues⟩
    · exact h
  · exact h

variable (metricsObject : MetricsObject)

/-- One evaluation of a metric returns canonical values and keeps its state so. -/
theorem MetricsObject.evaluate_canonical (hscope : CanonicalScope scope) {state after : State F}
    (h : state.Canonical) {returned : Returned (List (Union F))}
    (heq : metricsObject.evaluate scope clock state = some (returned, after)) :
    AllCanonical returned.1 ∧ after.Canonical := by
  rw [MetricsObject.evaluate] at heq
  split at heq
  · next result map hevaluate =>
    cases heq
    have hstate : StateRef.Canonical (some (some state)) := by
      intro other hother
      cases hother
      exact h
    obtain ⟨hvalues, hmap⟩ := GoMetrics.evaluate_canonical hscope metricsObject.ast _ hstate _ _
      hevaluate
    have houtput := castOutput_canonical metricsObject.type hvalues
    exact ⟨houtput, (hmap map rfl).put fun _ => houtput⟩
  · cases heq

/-- So does every evaluation of a run, from any canonical state. -/
theorem MetricsObject.run_canonical {steps : List (InputScope F × Clock)}
    (hscopes : ∀ step ∈ steps, CanonicalScope step.1) {state : State F} (h : state.Canonical) :
    ∀ returned ∈ metricsObject.run state steps, AllCanonical returned.1 := by
  induction steps generalizing state with
  | nil =>
    intro returned hmem
    contradiction
  | cons step steps ih =>
    obtain ⟨scope, clock⟩ := step
    intro returned hmem
    rw [MetricsObject.run] at hmem
    split at hmem
    · contradiction
    · next first after hevaluate =>
      obtain ⟨hfirst, hafter⟩ := metricsObject.evaluate_canonical
        (hscopes (scope, clock) List.mem_cons_self) h hevaluate
      cases List.mem_cons.1 hmem with
      | inl heq =>
        rw [heq]
        exact hfirst
      | inr hrest =>
        exact ih (fun other hother => hscopes other (List.mem_cons_of_mem _ hother)) hafter
          returned hrest

omit [Library F] [LawfulFloat64 F] in
/-- The state of a configuration has no other values than that of the output. -/
theorem MetricsObject.configureState_canonical :
    (metricsObject.configureState : State F).Canonical := by
  have houtput : (metricsObject.outputUnion : Union F).Canonical := by
    constructor <;> simp [MetricsObject.outputUnion, Union.nil]
  have hvalue : ((State.empty.put "alwaysEvaluate"
      [.bool (alwaysEvaluate metricsObject.expression)]).put "value"
        [metricsObject.outputUnion] : State F).Canonical :=
    (State.canonical_empty.put_other (by decide) _).put fun _ =>
      allCanonical_cons.2 ⟨houtput, allCanonical_nil⟩
  rw [MetricsObject.configureState, MetricsObject.messageState]
  split_ifs
  · exact (((((hvalue.put_other (by decide) _).put_other (by decide) _).put_other
      (by decide) _).put_other (by decide) _).put_other (by decide) _).put_other (by decide) _
  · exact hvalue

end Expressions

/-! ## Produced values -/

section Produced

variable [Library F]

/-- The values that the conversions, the casts and the evaluations of metrics produce. -/
inductive Produced : Union F → Prop
  | fromValue (value : Interface F) : Produced (getUnionFromValue value)
  | castValue (value : Interface F) (newType : DataType) :
    Produced (castValueToUnionType value newType)
  | cast {union cast : Union F} {newType : DataType} (h : Produced union)
    (hcast : castUnionType union newType = .ok cast) : Produced cast
  | evaluated {metricsObject : MetricsObject} {steps : List (InputScope F × Clock)}
    {returned : Returned (List (Union F))} {value : Union F}
    (hscopes : ∀ step ∈ steps, ∀ name values, step.1 name = some values →
      ∀ input ∈ values, Produced input)
    (hreturned : returned ∈ metricsObject.run metricsObject.configureState steps)
    (hvalue : value ∈ returned.1) : Produced value
  | evaluatedOnce {parsed : Node} {scope : InputScope F} {clock : Clock} {state after : StateRef F}
    {returned : Returned (List (Union F))} {value : Union F}
    (hscope : ∀ name values, scope name = some values → ∀ input ∈ values, Produced input)
    (hstate : state = none ∨ state = some none)
    (hreturned : GoMetrics.evaluate scope clock parsed state = some (returned, after))
    (hvalue : value ∈ returned.1) : Produced value

/-- What the evaluator produces is canonical. -/
theorem Produced.canonical [LawfulFloat64 F] {value : Union F} (h : Produced value) :
    value.Canonical := by
  induction h with
  | fromValue value => exact getUnionFromValue_canonical value
  | castValue value newType => exact castValueToUnionType_canonical value newType
  | cast _ hcast ih => exact (castUnionType_canonical ih hcast).1
  | @evaluated metricsObject steps returned value _ hreturned hvalue ih =>
    have hscopes : ∀ step ∈ steps, CanonicalScope step.1 := by
      intro step hstep name values hvalues input hinput
      exact ih step hstep name values hvalues input hinput
    exact metricsObject.run_canonical hscopes metricsObject.configureState_canonical returned
      hreturned value hvalue
  | @evaluatedOnce parsed scope clock state after returned value _ hstate hreturned hvalue ih =>
    have hstate : StateRef.Canonical state := by
      intro map hmap
      cases hstate with
      | inl hnone => rw [hnone] at hmap; cases hmap
      | inr hnil => rw [hnil] at hmap; cases hmap
    have hscope : CanonicalScope scope := by
      intro name values hvalues input hinput
      exact ih name values hvalues input hinput
    exact (evaluate_canonical hscope parsed state hstate returned after hreturned).1 value hvalue

omit [Library F] in
/-- The payloads of two values of a type are the same. -/
def Union.samePayload (a b : Union F) : Bool :=
  match a.tag with
  | .NIL => true
  | .BOOL => a.b = b.b
  | .INT => a.i = b.i
  | .UINT => a.ui = b.ui
  | .FLOAT => Float64.eq a.f b.f
  | .STRING => a.s = b.s

/-- Two values have the same type and the same payload. -/
def Union.Agrees (a b : Union F) : Prop := a.tag = b.tag ∧ a.samePayload b = true

section
omit [Library F]

/-- The equality of unions is the agreement of their values where both are canonical. -/
theorem same_iff [LawfulFloat64 F] {a b : Union F} (ha : a.Canonical) (hb : b.Canonical) :
    a.same b = true ↔ a.Agrees b := by
  have hzero : Float64.eq (0 : F) 0 = true := LawfulFloat64.eq_zero
  rw [Union.Agrees]
  rcases ha.cases with rfl | ⟨x, rfl⟩ | ⟨x, rfl⟩ | ⟨x, rfl⟩ | ⟨x, rfl⟩ | ⟨x, rfl⟩ <;>
    rcases hb.cases with rfl | ⟨y, rfl⟩ | ⟨y, rfl⟩ | ⟨y, rfl⟩ | ⟨y, rfl⟩ | ⟨y, rfl⟩ <;>
    simp [Union.same, Union.samePayload, Union.nil, Union.bool, Union.int, Union.uint, Union.float,
      Union.string, hzero]
  all_goals exact decide_eq_true_iff.symm

/-- Two canonical lists match where their values agree one by one. -/
theorem unionListsMatch_iff [LawfulFloat64 F] {list1 list2 : List (Union F)}
    (h1 : AllCanonical list1) (h2 : AllCanonical list2) :
    unionListsMatch list1 list2 = true ↔ List.Forall₂ Union.Agrees list1 list2 := by
  induction list1 generalizing list2 with
  | nil =>
    cases list2 with
    | nil | cons union2 list2 => simp [unionListsMatch]
  | cons union1 list1 ih =>
    cases list2 with
    | nil => simp [unionListsMatch]
    | cons union2 list2 =>
      obtain ⟨hunion1, hlist1⟩ := allCanonical_cons.1 h1
      obtain ⟨hunion2, hlist2⟩ := allCanonical_cons.1 h2
      rw [unionListsMatch, Bool.and_eq_true, same_iff hunion1 hunion2, ih hlist1 hlist2,
        List.forall₂_cons]

/-- `In` finds a value exactly where one of the arguments agrees with it. -/
theorem isIn_iff [LawfulFloat64 F] {compareVal : Union F} {argVals : List (Union F)}
    (hcompare : compareVal.Canonical) (hargs : AllCanonical argVals)
    (htag : compareVal.tag ≠ .NIL) :
    isIn compareVal argVals = (.bool true, none) ↔ ∃ val ∈ argVals, compareVal.Agrees val := by
  have hany : (argVals.any fun val => compareVal.same val) = true ↔
      ∃ val ∈ argVals, compareVal.Agrees val := by
    rw [List.any_eq_true]
    constructor
    · intro ⟨val, hmem, hsame⟩
      exact ⟨val, hmem, (same_iff hcompare (hargs val hmem)).1 hsame⟩
    · intro ⟨val, hmem, hagrees⟩
      exact ⟨val, hmem, (same_iff hcompare (hargs val hmem)).2 hagrees⟩
  rw [isIn, if_neg htag, ← hany]
  simp [Union.bool]

/-- Whether a value changed, where the state remembers a previous one. -/
theorem valueChanged_iff [LawfulFloat64 F] {input previous : Union F} {rest : List (Union F)}
    {state : State F} (hinput : input.Canonical) (hprevious : previous.Canonical)
    (hentry : state.entry "previousValue" = previous :: rest) :
    (∃ after, valueChanged input (some (some state)) = some ((.bool true, none), after)) ↔
      ¬ input.Agrees previous := by
  rw [← same_iff hinput hprevious, valueChanged, Option.getD_some, hentry]
  by_cases hsame : input.same previous = true
  · simp [hsame, Union.bool]
  · simp [hsame]

/-- The window holds a change exactly where a point does not agree with the input. -/
theorem valueChangedOverTimescale_iff [LawfulFloat64 F] {values : List (Union F)} {index : ℕ}
    {input : Union F} (hvalues : AllCanonical values) (hinput : input.Canonical) :
    valueChangedOverTimescale.compute values index input = (.bool true, none) ↔
      ∃ value ∈ values.take index, ¬ value.Agrees input := by
  have hany : ((values.take index).any fun value => !value.same input) = true ↔
      ∃ value ∈ values.take index, ¬ value.Agrees input := by
    rw [List.any_eq_true]
    constructor
    · intro ⟨value, hmem, hchanged⟩
      refine ⟨value, hmem, fun hagrees => ?_⟩
      have hsame := (same_iff (hvalues value (List.mem_of_mem_take hmem)) hinput).2 hagrees
      simp [hsame] at hchanged
    · intro ⟨value, hmem, hchanged⟩
      have hsame := mt (same_iff (hvalues value (List.mem_of_mem_take hmem)) hinput).1 hchanged
      refine ⟨value, hmem, ?_⟩
      simpa using hsame
  rw [← hany, valueChangedOverTimescale]
  simp [Union.bool]

end

/-- Every value that is produced is canonical, and the comparisons of canonical values hold exactly
for the same type and the same payload. -/
theorem comparisons_exact [LawfulFloat64 F] :
    (∀ value : Union F, Produced value → value.Canonical) ∧
      (∀ list1 list2 : List (Union F), AllCanonical list1 → AllCanonical list2 →
        (unionListsMatch list1 list2 = true ↔ List.Forall₂ Union.Agrees list1 list2)) ∧
      (∀ (compareVal : Union F) (argVals : List (Union F)), compareVal.Canonical →
        AllCanonical argVals → compareVal.tag ≠ .NIL →
          (isIn compareVal argVals = (.bool true, none) ↔
            ∃ val ∈ argVals, compareVal.Agrees val)) ∧
      (∀ (input previous : Union F) (rest : List (Union F)) (state : State F),
        input.Canonical → previous.Canonical →
          state.entry "previousValue" = previous :: rest →
            ((∃ after, valueChanged input (some (some state)) =
              some ((.bool true, none), after)) ↔ ¬ input.Agrees previous)) ∧
      ∀ (values : List (Union F)) (index : ℕ) (input : Union F), AllCanonical values →
        input.Canonical →
          (valueChangedOverTimescale.compute values index input = (.bool true, none) ↔
            ∃ value ∈ values.take index, ¬ value.Agrees input) := by
  refine ⟨fun value h => h.canonical, fun list1 list2 h1 h2 => unionListsMatch_iff h1 h2,
    fun compareVal argVals hcompare hargs htag => isIn_iff hcompare hargs htag,
    fun input previous rest state hinput hprevious hentry =>
      valueChanged_iff hinput hprevious hentry,
    fun values index input hvalues hinput => valueChangedOverTimescale_iff hvalues hinput⟩

/-- A cast integer and a signed one differ, and a list that begins with a cast one has it. -/
theorem comparisons_exact_cast :
    (@castUnionType ℚ _ plainLibrary (.int 3) .UINT = .ok (.uint 3) ∧
      @Union.Canonical ℚ _ (.uint 3)) ∧
    (unionListsMatch [(.uint 3 : Union ℚ)] [.int 3] = true ↔
      List.Forall₂ Union.Agrees [(.uint 3 : Union ℚ)] [.int 3]) ∧
    ∃ val ∈ [(.uint 3 : Union ℚ), .int 3], Union.Agrees (.int 3) val := by
  have hcast : @castUnionType ℚ _ plainLibrary (.int 3) .UINT = .ok (.uint 3) := by rfl
  have hproduced : @Produced ℚ _ plainLibrary (.uint 3) :=
    @Produced.cast ℚ _ plainLibrary (.int 3) _ .UINT
      (@Produced.fromValue ℚ _ plainLibrary (.int64 3)) hcast
  obtain ⟨hcanonical, hmatch, hisIn, -⟩ := @comparisons_exact ℚ _ plainLibrary _
  have hlist : AllCanonical [(.uint 3 : Union ℚ), .int 3] := by simp
  refine ⟨⟨hcast, hcanonical _ hproduced⟩, hmatch _ _ (by simp) (by simp), ?_⟩
  exact (hisIn (.int 3) _ (by simp) hlist (by decide)).1 (by rfl)

end Produced

end HybridOs.GoMetrics
