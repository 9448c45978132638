import HybridOs.CloudSync
import HybridOs.GoMetricsUnion
import HybridOs.PostOrder
import Mathlib.Data.List.AList

/-!
# Filters of the metrics

A filter narrows the inputs down by expressions, each with variables that may be other filters.
The expressions of the new filters are read in the order of `FiltersList`; a filter whose
expressions are refused is deleted. Then a depth-first search puts the filters in the order in which
they are evaluated.
-/

namespace HybridOs.GoMetrics.Filters

open CloudSync (contains hasSuffix)
open PostOrder (Search visit foldlM_spec)

/-- A map of the source, with its keys in some order. -/
abbrev Map (A : Type) := AList fun _ : String => A

/-- The order in which a `range` visits the keys of a map. -/
structure RangeOrder where
  names : List String → List String
  perm : ∀ keys, (names keys).Perm keys

/-- `Expression`, without its syntax tree and its result type. -/
structure Expression where
  string : String
  vars : List String
  isRegex : Bool
  isTypeFilter : Bool
  deriving DecidableEq, Repr

/-- `Filter`. -/
structure Filter where
  staticFilterExpressions : List Expression
  dynamicFilterExpressions : List Expression
  dynamicInputs : List (List String)
  deriving DecidableEq, Repr

/-- A filter as it is configured. -/
inductive FilterConfig where
  | string (x : String)
  | strings (x : List String)
  /-- An array of the document, a number or any other value. -/
  | other
  deriving DecidableEq, Repr

/-- What a function of the source does: it panics, or it returns an error or a value. -/
abbrev Outcome (A : Type) := Option (Except String A)

/-- The variables that filters read and write. -/
structure State (F : Type) where
  /-- `MetricsConfig.Filters`. -/
  filters : Map FilterConfig
  filtersList : List String
  filterScope : Map (List String)
  inputScope : Map (List (Union F))
  staticFilterExpressions : Map Filter
  dynamicFilterExpressions : Map Filter

/-- What is around the filters. -/
structure Environment (F : Type) where
  /-- `Parse`, with the inputs and the filters that are in scope. -/
  parse : Map (List (Union F)) → Map (List String) → String → String → Outcome Expression
  /-- `regexp.Compile`; the regular expression as its `FindString`. -/
  compile : String → Option (String → String)
  /-- The type of an input; the empty text where there is none. -/
  inputType : String → String
  /-- `MetricsConfig.Attributes`, as the inputs that they belong to. -/
  attributes : Map String
  allPossibleAttributes : Map (List String)
  /-- How `FilterScope` is ranged over for the filter at an index. -/
  scopeOrder : ℕ → RangeOrder
  /-- How `MetricsConfig.Filters` is ranged over, by the path and the filters visited. -/
  filtersOrder : List String → List String → RangeOrder

section Text

/-- `strings.ToLower`, as far as it makes letters of the Latin alphabet. -/
def toLower (s : String) : String :=
  .ofList (s.toList.map fun c => if c = 'İ' then 'i' else if c = 'K' then 'k' else c.toLower)

/-- The parts of a text between separators; `skip` characters belong to a separator. -/
def splitAfter (sep : List Char) : ℕ → List Char → List Char → List String
  | _, part, [] => [.ofList part.reverse]
  | skip + 1, part, _ :: rest => splitAfter sep skip part rest
  | 0, part, c :: rest =>
    if sep.isPrefixOf (c :: rest) then
      .ofList part.reverse :: splitAfter sep (sep.length - 1) [] rest
    else splitAfter sep 0 (c :: part) rest

/-- `strings.Split`, of a separator that is not empty. -/
def split (s sep : String) : List String := splitAfter sep.toList 0 [] s.toList

/-- `sort.Strings`. -/
def sortStrings (x : List String) : List String := x.insertionSort (· ≤ ·)

/-- `strings.TrimSuffix`. -/
def trimSuffix (s suffix : String) : String :=
  if hasSuffix s suffix then .ofList (s.toList.take (s.length - suffix.length)) else s

/-- The text between the first parentheses. The slice panics if they are the wrong way round or if
the closing one is missing. -/
def parenthesized (exp : String) : Option String :=
  let start := exp.toList.idxOf '('
  let stop := exp.toList.idxOf ')'
  if ')' ∈ exp.toList ∧ start + 1 ≤ stop then
    some (.ofList ((exp.toList.drop (start + 1)).take (stop - (start + 1))))
  else none

end Text

/-- `delete_string_at_index`. -/
def deleteStringAtIndex (slice : List String) (index : ℕ) : List String :=
  if index < slice.length then slice.take index ++ slice.drop (index + 1) else slice

section Expressions

variable {F : Type} (env : Environment F)

/-- `getFilterExpressions`. -/
def getFilterExpressions (parse : String → Outcome Expression) :
    List String → Filter → Outcome Filter
  | [], filterObject => some (.ok filterObject)
  | exp :: rest, filterObject =>
    if contains (toLower exp) "regex(" then
      match parenthesized exp with
      | none => none
      | some string => getFilterExpressions parse rest
          { filterObject with staticFilterExpressions :=
              filterObject.staticFilterExpressions ++ [⟨string, [], true, false⟩] }
    else if contains (toLower exp) "type(" then
      match parenthesized exp with
      | none => none
      | some string => getFilterExpressions parse rest
          { filterObject with staticFilterExpressions :=
              filterObject.staticFilterExpressions ++ [⟨string, [], false, true⟩] }
    else
      match parse exp with
      | none => none
      | some (.error err) => some (.error err)
      | some (.ok expression) => getFilterExpressions parse rest
          { filterObject with dynamicFilterExpressions :=
              filterObject.dynamicFilterExpressions ++ [expression] }

/-- `EvaluateRegexFilter`. -/
def evaluateRegexFilter (expression : Expression) (inputs : List String) (configId : String) :
    Except String (Expression × List String) :=
  match env.compile expression.string with
  | none => .error "could not parse regular expression. See https://github.com/google/re2/wiki/Syntax for help constructing"
  | some findString =>
    let output := inputs.filter fun input =>
      0 < (findString (if 0 < configId.length then trimSuffix input ("_" ++ configId)
        else input)).length ∧ input ∉ env.attributes
    .ok ({ expression with vars := output }, output)

/-- The types that a type filter may name. -/
def filterTypes : List String := ["string", "int", "uint", "float", "bool"]

/-- `EvaluateTypeFilter`. -/
def evaluateTypeFilter (expression : Expression) (inputs : List String) :
    Except String (Expression × List String) :=
  let string := toLower expression.string
  if string ∉ filterTypes then
    .error "invalid type filter; must be one of string, int, uint, float, or bool"
  else
    let output := inputs.filter (env.inputType · = string)
    .ok ({ expression with string := string, vars := output }, output)

/-- One static filter. -/
def evaluateStatic (expression : Expression) (inputs : List String) (configId : String) :
    Except String (Expression × List String) :=
  if expression.isRegex then evaluateRegexFilter env expression inputs configId
  else if expression.isTypeFilter then evaluateTypeFilter env expression inputs
  else .ok (expression, inputs)

/-- The static filters, each on the inputs that the one before it leaves. -/
def applyStatic (configId : String) :
    List Expression → List String → Except String (List Expression × List String)
  | [], inputs => .ok ([], inputs)
  | expression :: rest, inputs => do
    let (expression, inputs) ← evaluateStatic env expression inputs configId
    let (rest, inputs) ← applyStatic configId rest inputs
    .ok (expression :: rest, inputs)

/-- The inputs that have one of the attributes. -/
def withAttributes (varNames inputs : List String) : List String :=
  varNames.flatMap fun varName =>
    ((env.allPossibleAttributes.lookup varName).getD []).filterMap fun attributeName =>
      let inputVar := (env.attributes.lookup attributeName).getD ""
      if inputVar ∈ inputs then some inputVar else none

/-- The expressions of a filter as it is configured. -/
def expressionsOf (parse : String → Outcome Expression) : Option FilterConfig → Outcome Filter
  | some (.string x) => getFilterExpressions parse (split x " | ") ⟨[], [], []⟩
  | some (.strings x) => getFilterExpressions parse x ⟨[], [], []⟩
  | _ => some (.error "unhandled filter expression")

/-- A filter with its static filters applied, and the inputs that they leave, sorted. -/
def applied (configId : String) (filterObject : Filter) (inputs : List String) :
    Except String (Filter × List String) := do
  let (expressions, inputs) ← applyStatic env configId filterObject.staticFilterExpressions inputs
  let inputs := match filterObject.dynamicFilterExpressions with
    | first :: _ => if contains first.string "attribute" then withAttributes env first.vars inputs
        else inputs
    | [] => inputs
  let sorted := sortStrings inputs
  -- the inputs of the other stages are made with their length only, the last one is nil
  let others := filterObject.dynamicFilterExpressions.tail.map
    fun _ => List.replicate sorted.length ""
  let last := if filterObject.dynamicFilterExpressions = [] then [] else [[]]
  .ok ({ filterObject with
    staticFilterExpressions := expressions
    dynamicInputs := sorted :: others ++ last }, sorted)

end Expressions

section Extract

variable {F : Type} (env : Environment F)

/-- The arguments of `ExtractFilters`. -/
structure Arguments where
  newFilters : List String
  newFiltersStartingIndex : ℤ
  newInputs : List String
  overwriteConflictingConfigs : Bool
  configId : String

/-- What `ExtractFilters` has done so far. -/
structure Extracted (F : Type) where
  state : State F
  output : Map Filter
  wasError : Bool
  /-- The errors that are logged, with the place in the document. -/
  errorLocs : List (List String × String)

/-- An error that is logged for a filter. -/
def Extracted.logError (extracted : Extracted F) (filterName message : String) : Extracted F :=
  { extracted with
    wasError := true
    errorLocs := extracted.errorLocs ++ [(["filters", filterName], message)] }

/-- The inputs of a filter: the new ones and the other filters in scope. -/
def filterInputs (newInputs : List String) (filterName : String) (keys : List String) :
    List String :=
  keys.foldl (fun inputs key =>
    if filterName ≠ key ∧ key ∉ inputs then inputs ++ [key] else inputs) newInputs

/-- Whether the name of a filter is in scope already and may not be taken. -/
def State.Conflicts (state : State F) (overwrite : Bool) (filterName : String) : Prop :=
  filterName ∈ state.inputScope ∧ overwrite = false

instance (state : State F) (overwrite : Bool) (filterName : String) :
    Decidable (state.Conflicts overwrite filterName) := instDecidableAnd

/-- A filter is discarded, by its index in a list from which others may be gone. -/
def State.discard (state : State F) (filterName : String) (index : ℕ) : State F :=
  { state with
    filters := state.filters.erase filterName
    filterScope := state.filterScope.erase filterName
    filtersList := deleteStringAtIndex state.filtersList index }

/-- A filter is discarded for an error. -/
def Extracted.discard (extracted : Extracted F) (filterName : String) (index : ℕ) (err : String) :
    Extracted F :=
  { extracted with state := extracted.state.discard filterName index }.logError filterName
    (err ++ "; discarding filter")

/-- A filter has the values of its inputs. -/
def State.accept (state : State F) (filterName : String) (inputs : List String) : State F :=
  { state with
    inputScope := inputs.foldl (fun scope inputName => scope.insert filterName
      ((scope.lookup filterName).getD [] ++ (scope.lookup inputName).getD []))
      (state.inputScope.insert filterName [])
    filterScope := state.filterScope.insert filterName inputs }

/-- The expressions of a configured filter, with what is in scope. -/
def State.expressions (state : State F) (configId filterName : String) : Outcome Filter :=
  expressionsOf (fun exp => env.parse state.inputScope state.filterScope exp configId)
    (state.filters.lookup filterName)

/-- One filter of `ExtractFilters`. -/
def extractFilter (args : Arguments) (extracted : Extracted F) (i : ℕ) (filterName : String) :
    Option (Extracted F) :=
  let state := extracted.state
  if state.Conflicts args.overwriteConflictingConfigs filterName then
    some (extracted.logError filterName
      ("filter variable name '" ++ filterName ++ "' already exists in scope; discarding filter"))
  else
    let inputs := filterInputs args.newInputs filterName
      ((env.scopeOrder i).names state.filterScope.keys)
    let index := i + args.newFiltersStartingIndex.toNat
    match state.expressions env args.configId filterName with
    | none => none
    | some (.error err) => some (extracted.discard filterName index err)
    | some (.ok filterObject) =>
      match applied env args.configId filterObject inputs with
      | .error err => some (extracted.discard filterName index err)
      | .ok (filterObject, intermediateInputs) => some { extracted with
          state := state.accept filterName intermediateInputs
          output := extracted.output.insert filterName filterObject }

/-- The filters of a list from an index on. -/
def extractFrom (args : Arguments) : ℕ → List String → Extracted F → Option (Extracted F)
  | _, [], extracted => some extracted
  | i, filterName :: rest, extracted =>
    (extractFilter env args extracted i filterName).bind (extractFrom args (i + 1) rest)

/-- The new filters come into scope. -/
def State.withNewFilters (state : State F) (newFilters : List String) : State F :=
  { state with
    filterScope := newFilters.foldl (fun scope filter => scope.insert filter []) state.filterScope }

/-- The part of `FiltersList` that is new. -/
def State.newPart (state : State F) (args : Arguments) : List String :=
  state.filtersList.drop args.newFiltersStartingIndex.toNat

/-- `ExtractFilters`. A starting index outside the list makes it panic. -/
def extractFilters (args : Arguments) (state : State F) : Option (Extracted F) :=
  if state.filtersList.length = args.newFiltersStartingIndex then some ⟨state, ∅, false, []⟩
  else if args.newFiltersStartingIndex < 0 ∨
      state.filtersList.length < args.newFiltersStartingIndex then none
  else extractFrom env args 0 (state.newPart args)
    ⟨state.withNewFilters args.newFilters, ∅, false, []⟩

end Extract

section Order

variable {F : Type} (env : Environment F)

/-- The state of the search in `PutFiltersInOrder`. -/
structure Dfs where
  visited : List String
  path : List String
  filtersList : List String

/-- The variables of the expressions of a filter. -/
def varsOf (expressions : Filter → List Expression) (filter : Option Filter) : List String :=
  ((filter.map expressions).getD []).flatMap (·.vars)

/-- The variables of the static filters of a filter. -/
def State.staticVars (state : State F) (filterName : String) : List String :=
  varsOf Filter.staticFilterExpressions (state.staticFilterExpressions.lookup filterName)

/-- The variables of the dynamic filters of a filter. -/
def State.dynamicVars (state : State F) (filterName : String) : List String :=
  varsOf Filter.dynamicFilterExpressions (state.dynamicFilterExpressions.lookup filterName)

/-- A variable that names a configured filter: the search goes there. -/
def visitNamed (state : State F) (search : String → Dfs → Option Dfs) (s : Dfs) (v : String) :
    Option Dfs :=
  if v ∈ state.filters then search v s else some s

/-- The variable `value`: all other filters come first. -/
def visitOthers (state : State F) (search : String → Dfs → Option Dfs) (filterName : String)
    (s : Dfs) (v : String) : Option Dfs :=
  if v = "value" then
    (((env.filtersOrder s.path s.visited).names state.filters.keys).filter
      (· ≠ filterName)).foldlM (fun s filterName2 => search filterName2 s) s
  else some s

/-- `dfs` of `PutFiltersInOrder`. -/
def dfs (state : State F) : ℕ → String → Dfs → Option Dfs
  | 0, _, _ => none
  | fuel + 1, filterName, s =>
    if filterName ∈ s.visited ∨ filterName ∈ s.path then some s
    else do
      let search := fun b s => dfs state fuel b s
      let s ← (state.staticVars filterName).foldlM (visitNamed state search)
        { s with path := filterName :: s.path }
      let s ← (state.dynamicVars filterName).foldlM (fun s v => do
        let s ← visitOthers env state search filterName s v
        visitNamed state search s v) s
      some ⟨s.visited ++ [filterName], s.path.erase filterName, s.filtersList ++ [filterName]⟩

/-- `PutFiltersInOrder`: the search starts from every filter, with a list that has as many empty
names as there are filters. -/
def putFiltersInOrder (state : State F) : Option (State F) :=
  let size := state.filters.keys.length
  let start : Dfs := ⟨[], [], List.replicate size ""⟩
  (((env.filtersOrder [] []).names state.filters.keys).foldlM
    (fun s filterName => dfs env state (size + 1) filterName s) start).map
    fun s => { state with filtersList := s.filtersList }

/-- The expressions of a filter are kept for its evaluation. -/
def keepExpressions (state : State F) (entry : String × Filter) : State F :=
  let (key, filter) := entry
  let state := if filter.staticFilterExpressions = [] then state
    else { state with
      staticFilterExpressions := state.staticFilterExpressions.insert key filter }
  if filter.dynamicFilterExpressions = [] then state
  else { state with
    dynamicFilterExpressions := state.dynamicFilterExpressions.insert key filter }

/-- The filters of `getAndParseFilters`: extracted, kept and put in order. -/
def getAndParseFilters (args : Arguments) (state : State F) :
    Option (Extracted F × State F) := do
  let extracted ← extractFilters env args state
  let state := (extracted.output.entries.map fun entry => (entry.1, entry.2)).foldl
    keepExpressions extracted.state
  let state ← putFiltersInOrder env state
  some (extracted, state)

end Order

/-!
## The order of the filters

The search of `PutFiltersInOrder` is a depth-first search in postorder. After the empty names that
the list is made with, every configured filter stands once, after the configured filters that its
expressions name unless they lead back to it.
-/

open PostOrder (Search visit bind_map_eq foldlM_map foldlM_flatMap visitAll_spec)

variable {F : Type} (env : Environment F) (state : State F)

/-- The filters other than one, in the order of the range. -/
def others (filterName : String) (s : Search String) : List String :=
  ((env.filtersOrder s.path s.finished).names state.filters.keys).filter (· ≠ filterName)

/-- A variable requests the filter of that name. -/
def requestNamed (v : String) (_ : Search String) : List String :=
  if v ∈ state.filters then [v] else []

/-- A variable named `value` requests all other filters. -/
def requestOthers (filterName v : String) (s : Search String) : List String :=
  if v = "value" then others env state filterName s else []

/-- What a filter requests before it is put in the list. -/
def requests (filterName : String) : List (Search String → List String) :=
  (state.staticVars filterName).map (requestNamed state) ++
    (state.dynamicVars filterName).flatMap fun v =>
      [requestOthers env state filterName v, requestNamed state v]

/-- The state of the source's search, with a list that began with empty names. -/
def padded (size : ℕ) (s : Search String) : Dfs :=
  ⟨s.finished, s.path, List.replicate size "" ++ s.finished⟩

/-- A filter has an expression that names another configured filter. -/
def State.Names (filterName other : String) : Prop :=
  other ∈ state.filters ∧ (other ∈ state.staticVars filterName ∨ other ∈ state.dynamicVars filterName)

/-- A filter is put in order after another one that it names, or after all others for `value`. -/
def State.RefersTo (filterName other : String) : Prop :=
  state.Names filterName other ∨
    "value" ∈ state.dynamicVars filterName ∧ other ∈ state.filters ∧ other ≠ filterName

variable {env state} {size : ℕ} {filterName v other : String} {s : Search String}

theorem mem_others : v ∈ others env state filterName s ↔ v ∈ state.filters ∧ v ≠ filterName := by
  rw [others, List.mem_filter, ((env.filtersOrder s.path s.finished).perm _).mem_iff,
    ← AList.mem_keys]
  simp

theorem mem_requestNamed {w : String} : w ∈ requestNamed state v s ↔ w = v ∧ v ∈ state.filters := by
  rw [requestNamed]
  split_ifs with hv <;> simp [hv]

/-- A filter needs those that its expressions name. -/
theorem needs_of_names (env : Environment F) (h : state.Names filterName other) :
    PostOrder.Needs (requests env state) filterName other := by
  have ⟨hfilter, hvars⟩ := h
  refine ⟨requestNamed state other, ?_, fun s => mem_requestNamed.mpr ⟨rfl, hfilter⟩⟩
  cases hvars with
  | inl hv => exact List.mem_append_left _ (List.mem_map_of_mem hv)
  | inr hv =>
    exact List.mem_append_right _ (List.mem_flatMap.mpr ⟨other, hv, List.mem_pair.mpr (Or.inr rfl)⟩)

/-- The requests of a filter are the filters that it refers to. -/
theorem requests_iff :
    PostOrder.Requests (requests env state) filterName other ↔ state.RefersTo filterName other := by
  constructor
  · intro ⟨request, hrequest, s, hother⟩
    cases List.mem_append.mp hrequest with
    | inl hstatic =>
      have ⟨v, hv, hnamed⟩ := List.mem_map.mp hstatic
      rw [← hnamed] at hother
      have ⟨heq, hfilter⟩ := mem_requestNamed.mp hother
      rw [heq]
      exact Or.inl ⟨hfilter, Or.inl hv⟩
    | inr hdynamic =>
      have ⟨v, hv, hpair⟩ := List.mem_flatMap.mp hdynamic
      cases List.mem_pair.mp hpair with
      | inl hothers =>
        rw [hothers, requestOthers] at hother
        split_ifs at hother with hvalue
        · exact Or.inr ⟨hvalue ▸ hv, mem_others.mp hother⟩
        · cases hother
      | inr hnamed =>
        rw [hnamed] at hother
        have ⟨heq, hfilter⟩ := mem_requestNamed.mp hother
        rw [heq]
        exact Or.inl ⟨hfilter, Or.inr hv⟩
  · intro h
    let s : Search String := ⟨[], []⟩
    cases h with
    | inl hnames =>
      have ⟨request, hrequest, hother⟩ := needs_of_names env hnames
      exact ⟨request, hrequest, s, hother s⟩
    | inr hothers =>
      have ⟨hvalue, hother⟩ := hothers
      refine ⟨requestOthers env state filterName "value", ?_, s, ?_⟩
      · exact List.mem_append_right _
          (List.mem_flatMap.mpr ⟨"value", hvalue, List.mem_pair.mpr (Or.inl rfl)⟩)
      · rw [requestOthers, if_pos rfl]
        exact mem_others.mpr hother

section Refinement

variable {fuel : ℕ} {search : String → Dfs → Option Dfs}
  {abstract : String → Search String → Option (Search String)}

section

variable (hsearch : ∀ b t, search b (padded size t) = (abstract b t).map (padded size))
include hsearch

/-- The names of a request are visited one after another. -/
theorem foldlM_search (names : List String) (t : Search String) :
    names.foldlM (fun s b => search b s) (padded size t) =
      (names.foldlM (fun s b => abstract b s) t).map (padded size) :=
  foldlM_map (padded size) hsearch names t

theorem visitNamed_padded (v : String) (t : Search String) :
    visitNamed state search (padded size t) v =
      ((requestNamed state v t).foldlM (fun s b => abstract b s) t).map (padded size) := by
  rw [← foldlM_search hsearch, visitNamed, requestNamed]
  split_ifs with hv
  · exact (bind_pure _).symm
  · rfl

theorem visitOthers_padded (filterName v : String) (t : Search String) :
    visitOthers env state search filterName (padded size t) v =
      ((requestOthers env state filterName v t).foldlM (fun s b => abstract b s) t).map
        (padded size) := by
  rw [← foldlM_search hsearch, visitOthers, requestOthers]
  split_ifs with hv
  · rfl
  · rfl

end

/-- The search of the source is the search in postorder. -/
theorem dfs_padded (fuel : ℕ) (filterName : String) (s : Search String) :
    dfs env state fuel filterName (padded size s) =
      (visit (requests env state) fuel filterName s).map (padded size) := by
  induction fuel generalizing filterName s with
  | zero => rfl
  | succ fuel ih =>
    rw [dfs, visit]
    by_cases hvisited : filterName ∈ s.finished ∨ filterName ∈ s.path
    · rw [if_pos hvisited]
      exact if_pos hvisited
    rw [if_neg hvisited, requests, List.foldlM_append, List.foldlM_map, bind_assoc]
    refine (if_neg hvisited).trans ?_
    refine bind_map_eq (padded size) (foldlM_map (padded size)
      (fun v t => visitNamed_padded ih v t) (state.staticVars filterName)
      ⟨s.finished, filterName :: s.path⟩) fun t => ?_
    rw [foldlM_flatMap]
    refine bind_map_eq (padded size) (foldlM_map (padded size) (fun v t => ?_)
      (state.dynamicVars filterName) t) fun t => ?_
    · rw [List.foldlM_cons]
      refine bind_map_eq (padded size) (visitOthers_padded ih filterName v t) fun t => ?_
      refine (visitNamed_padded ih v t).trans ?_
      rw [List.foldlM_cons]
      exact congrArg (Option.map (padded size)) (bind_pure _).symm
    · rw [padded, List.append_assoc]
      rfl

end Refinement

variable (env state)

/-- After the empty names every filter stands once in the list, after those that it names unless
they refer back to it. -/
theorem putFiltersInOrder_spec :
    ∃ order, putFiltersInOrder env state = some { state with
        filtersList := List.replicate state.filters.keys.length "" ++ order } ∧
      order.Nodup ∧ (∀ filterName, filterName ∈ order ↔ filterName ∈ state.filters) ∧
      ∀ pre filterName post, order = pre ++ filterName :: post →
        ∀ other, state.Names filterName other →
          other ∈ pre ∨ Relation.ReflTransGen state.RefersTo other filterName := by
  have hrequests : PostOrder.Requests (requests env state) = state.RefersTo := by
    funext filterName other
    exact propext requests_iff
  have hknown : ∀ a b, PostOrder.Requests (requests env state) a b → b ∈ state.filters.keys := by
    intro a b hab
    cases requests_iff.mp hab with
    | inl hnames => exact AList.mem_keys.mp hnames.1
    | inr hothers => exact AList.mem_keys.mp hothers.2.1
  have ⟨t, hfold, hnodup, hmem, hplaced⟩ := visitAll_spec hknown
    (Nat.lt_succ_self state.filters.keys.length)
    ((env.filtersOrder [] []).names state.filters.keys)
    (fun a => ((env.filtersOrder [] []).perm _).mem_iff)
  refine ⟨t.finished, ?_, hnodup, fun a => (hmem a).trans AList.mem_keys.symm, ?_⟩
  · have hstart : (⟨[], [], List.replicate state.filters.keys.length ""⟩ : Dfs) =
        padded state.filters.keys.length ⟨[], []⟩ := by rw [padded, List.append_nil]
    rw [putFiltersInOrder, hstart, foldlM_search (dfs_padded (state.filters.keys.length + 1)), hfold]
    rfl
  · intro pre filterName post heq other hnames
    rw [← hrequests]
    exact hplaced pre filterName post heq other (needs_of_names env hnames)

/-!
## The filters that are left

A filter whose expressions are refused is deleted from the configuration, one whose name is taken
stays in it. As the list is made with an empty name for every filter that is left, it is right only
when none is.
-/

/-- A call of `getAndParseFilters`: `UnmarshalConfig` removes a name from `FiltersList` before it
appends it, so no name is new twice. -/
structure Call (F : Type) where
  args : Arguments
  state : State F
  once : (state.newPart args).Nodup

/-- A filter is accepted if it is still configured and either extracted now or no new one. -/
def Accepted (call : Call F) (extracted : Extracted F) (filterName : String) : Prop :=
  filterName ∈ extracted.state.filters ∧ (filterName ∈ extracted.output ∨
    filterName ∉ call.args.newFilters ∧ filterName ∉ call.state.newPart call.args)

/-- Whether a list has the accepted filters, each of them once and after those that its expressions
name. -/
structure InOrder (accepted : String → Prop) (state : State F) (list : List String) : Prop where
  mem_iff : ∀ filterName, filterName ∈ list ↔ accepted filterName
  nodup : list.Nodup
  after : ∀ pre filterName post, list = pre ++ filterName :: post → ∀ other, accepted other →
    other ∈ state.staticVars filterName ∨ other ∈ state.dynamicVars filterName → other ∈ pre

/-- Whether the filters are extracted and put in order right. -/
def Right (call : Call F) : Prop :=
  ∃ extracted state, getAndParseFilters env call.args call.state = some (extracted, state) ∧
    InOrder (Accepted call extracted) state state.filtersList

/-- An expression that cannot be applied, whatever the inputs. -/
def Expression.Unusable (expression : Expression) : Prop :=
  if expression.isRegex then env.compile expression.string = none
  else expression.isTypeFilter ∧ toLower expression.string ∉ filterTypes

/-- Expressions that are refused when they are read, or when they are applied. -/
def Refused : Outcome Filter → Prop
  | none => False
  | some (.error _) => True
  | some (.ok filterObject) =>
    ∃ expression ∈ filterObject.staticFilterExpressions, expression.Unusable env

/-- The filters in scope when those of a list are discarded, apart from the ones whose names are
taken. -/
def State.scopeWithout (state : State F) (overwrite : Bool) (names : List String) :
    Map (List String) :=
  names.foldl (fun scope filterName =>
    if state.Conflicts overwrite filterName then scope else scope.erase filterName)
    state.filterScope

/-- The expressions of a configured filter when others are discarded before it. -/
def State.expressionsWithout (state : State F) (args : Arguments) (names : List String)
    (filterName : String) : Outcome Filter :=
  expressionsOf (fun exp => env.parse state.inputScope
    (state.scopeWithout args.overwriteConflictingConfigs names) exp args.configId)
    (state.filters.lookup filterName)

/-- Every configured filter is one of a list, its name is not taken, and it is refused when those
before it are discarded. -/
def AllRefused (args : Arguments) (state : State F) (names : List String) : Prop :=
  ∀ filterName ∈ state.filters, ∃ pre post, names = pre ++ filterName :: post ∧
    ¬ state.Conflicts args.overwriteConflictingConfigs filterName ∧
    Refused env (state.expressionsWithout env args pre filterName)

/-- No filter is left to put in order: the starting index is one of the list, and every configured
filter is new and refused. -/
def NothingLeft (call : Call F) : Prop :=
  0 ≤ call.args.newFiltersStartingIndex ∧
    call.args.newFiltersStartingIndex ≤ call.state.filtersList.length ∧
    AllRefused env call.args (call.state.withNewFilters call.args.newFilters)
      (call.state.newPart call.args)

variable {env} {args : Arguments} {state : State F}

section Refusals

variable (configId : String) (inputs : List String)

/-- One static filter fails exactly when it cannot be applied. -/
theorem evaluateStatic_error_iff {expression : Expression} :
    (∃ err, evaluateStatic env expression inputs configId = .error err) ↔
      expression.Unusable env := by
  rw [evaluateStatic, Expression.Unusable]
  by_cases hregex : expression.isRegex
  · rw [if_pos hregex, if_pos hregex, evaluateRegexFilter]
    cases env.compile expression.string with
    | none | some findString => simp
  · rw [if_neg hregex, if_neg hregex]
    by_cases htype : expression.isTypeFilter
    · rw [if_pos htype, evaluateTypeFilter]
      by_cases hknown : toLower expression.string ∈ filterTypes
      · simp [hknown]
      · simp [hknown, htype]
    · simp [htype]

/-- The static filters fail exactly when one of them cannot be applied. -/
theorem applyStatic_error_iff {expressions : List Expression} :
    (∃ err, applyStatic env configId expressions inputs = .error err) ↔
      ∃ expression ∈ expressions, expression.Unusable env := by
  induction expressions generalizing inputs with
  | nil => simp [applyStatic]
  | cons expression rest ih =>
    rw [applyStatic, List.exists_mem_cons_iff, ← evaluateStatic_error_iff configId inputs]
    cases hstatic : evaluateStatic env expression inputs configId with
    | error err => simp [bind, Except.bind]
    | ok result =>
      have hrest := ih result.2
      cases happly : applyStatic env configId rest result.2 with
      | error err | ok applied =>
        rw [happly] at hrest
        simpa [bind, Except.bind, happly] using hrest

theorem applied_error_iff {filterObject : Filter} :
    (∃ err, applied env configId filterObject inputs = .error err) ↔
      ∃ expression ∈ filterObject.staticFilterExpressions, expression.Unusable env := by
  rw [← applyStatic_error_iff configId inputs, applied]
  cases applyStatic env configId filterObject.staticFilterExpressions inputs with
  | error err | ok result => simp [bind, Except.bind]

end Refusals

section Step

variable {extracted : Extracted F} {filterName : String}

theorem extractFilter_of_conflicts (env : Environment F) (i : ℕ)
    (h : extracted.state.Conflicts args.overwriteConflictingConfigs filterName) :
    ∃ next, extractFilter env args extracted i filterName = some next ∧
      next.state = extracted.state := by
  rw [extractFilter, if_pos h]
  exact ⟨_, rfl, rfl⟩

theorem extractFilter_of_refused (i : ℕ)
    (hfree : ¬ extracted.state.Conflicts args.overwriteConflictingConfigs filterName)
    (h : Refused env (extracted.state.expressions env args.configId filterName)) :
    ∃ next index, extractFilter env args extracted i filterName = some next ∧
      next.state = extracted.state.discard filterName index := by
  rw [extractFilter, if_neg hfree]
  cases hread : extracted.state.expressions env args.configId filterName with
  | none =>
    rw [hread] at h
    cases h
  | some outcome =>
    cases outcome with
    | error err =>
      let index := i + args.newFiltersStartingIndex.toNat
      exact ⟨extracted.discard filterName index err, index, rfl, rfl⟩
    | ok filterObject =>
      rw [hread] at h
      have ⟨err, herr⟩ := (applied_error_iff args.configId (filterInputs args.newInputs filterName
        ((env.scopeOrder i).names extracted.state.filterScope.keys))).mpr h
      let index := i + args.newFiltersStartingIndex.toNat
      refine ⟨extracted.discard filterName index err, index, ?_, rfl⟩
      simp only [herr]
      rfl

/-- A filter that is not refused is a configured one and stays configured. -/
theorem extractFilter_of_not_refused (i : ℕ)
    (hfree : ¬ extracted.state.Conflicts args.overwriteConflictingConfigs filterName)
    (h : ¬ Refused env (extracted.state.expressions env args.configId filterName)) :
    filterName ∈ extracted.state.filters ∧
      ∀ next, extractFilter env args extracted i filterName = some next →
        next.state.filters = extracted.state.filters := by
  constructor
  · by_contra habsent
    apply h
    rw [State.expressions, AList.lookup_eq_none.mpr habsent]
    trivial
  · intro next hnext
    rw [extractFilter, if_neg hfree] at hnext
    cases hread : extracted.state.expressions env args.configId filterName with
    | none => simp [hread] at hnext
    | some outcome =>
      rw [hread] at h
      cases outcome with
      | error err => exact absurd trivial h
      | ok filterObject =>
        simp only [hread] at hnext
        split at hnext
        · next err herr => exact absurd ((applied_error_iff _ _).mp ⟨err, herr⟩) h
        · next result hok =>
          cases hnext
          rfl

end Step

section Runs

variable {extracted result : Extracted F} {i : ℕ} {filterName : String} {names : List String}

/-- A filter that is not in the list stays configured. -/
theorem mem_filters_extractFrom (hrun : extractFrom env args i names extracted = some result)
    (hmem : filterName ∈ extracted.state.filters) (hnot : filterName ∉ names) :
    filterName ∈ result.state.filters := by
  induction names generalizing i extracted with
  | nil =>
    cases hrun
    exact hmem
  | cons first rest ih =>
    rw [extractFrom] at hrun
    have ⟨next, hstep, hrest⟩ := Option.bind_eq_some_iff.mp hrun
    have ⟨hne, hnot⟩ := not_or.mp (fun h => hnot (List.mem_cons.mpr h))
    refine ih hrest ?_ hnot
    by_cases hconflict : extracted.state.Conflicts args.overwriteConflictingConfigs first
    · have ⟨other, hother, hstate⟩ := extractFilter_of_conflicts env i hconflict
      rw [Option.some.inj (hstep.symm.trans hother), hstate]
      exact hmem
    by_cases hrefused : Refused env (extracted.state.expressions env args.configId first)
    · have ⟨other, index, hother, hstate⟩ :=
        extractFilter_of_refused i hconflict hrefused
      rw [Option.some.inj (hstep.symm.trans hother), hstate]
      exact AList.mem_erase.mpr ⟨hne, hmem⟩
    · rw [(extractFilter_of_not_refused i hconflict hrefused).2 next hstep]
      exact hmem

/-- A filter whose name is taken leaves the others as they are. -/
theorem expressionsWithout_cons_of_conflicts {first : String}
    (h : state.Conflicts args.overwriteConflictingConfigs first) :
    state.expressionsWithout env args (first :: names) filterName =
      state.expressionsWithout env args names filterName := by
  rw [State.expressionsWithout, State.expressionsWithout, State.scopeWithout, State.scopeWithout,
    List.foldl_cons, if_pos h]

/-- A discarded filter is out of scope for the others. -/
theorem expressionsWithout_cons_of_free {first : String} {index : ℕ}
    (h : ¬ state.Conflicts args.overwriteConflictingConfigs first) (hne : filterName ≠ first) :
    state.expressionsWithout env args (first :: names) filterName =
      (state.discard first index).expressionsWithout env args names filterName := by
  rw [State.expressionsWithout, State.expressionsWithout, State.scopeWithout, State.scopeWithout,
    List.foldl_cons, if_neg h, State.discard, AList.lookup_erase_ne hne]
  rfl

theorem allRefused_cons_of_conflicts
    (h : state.Conflicts args.overwriteConflictingConfigs filterName) :
    AllRefused env args state (filterName :: names) ↔ AllRefused env args state names := by
  constructor
  · intro hall other hmem
    have ⟨pre, post, heq, hfree, hrefused⟩ := hall other hmem
    cases pre with
    | nil =>
      rw [← List.head_eq_of_cons_eq heq] at hfree
      exact absurd h hfree
    | cons first pre =>
      rw [← List.head_eq_of_cons_eq heq, expressionsWithout_cons_of_conflicts h] at hrefused
      exact ⟨pre, post, List.tail_eq_of_cons_eq heq, hfree, hrefused⟩
  · intro hall other hmem
    have ⟨pre, post, heq, hfree, hrefused⟩ := hall other hmem
    refine ⟨filterName :: pre, post, congrArg (List.cons filterName) heq, hfree, ?_⟩
    rw [expressionsWithout_cons_of_conflicts h]
    exact hrefused

theorem allRefused_cons_of_refused (index : ℕ)
    (hfree : ¬ state.Conflicts args.overwriteConflictingConfigs filterName)
    (h : Refused env (state.expressions env args.configId filterName)) :
    AllRefused env args state (filterName :: names) ↔
      AllRefused env args (state.discard filterName index) names := by
  constructor
  · intro hall other hmem
    have ⟨hne, hmem⟩ := AList.mem_erase.mp hmem
    have ⟨pre, post, heq, hother, hrefused⟩ := hall other hmem
    cases pre with
    | nil => exact absurd (List.head_eq_of_cons_eq heq).symm hne
    | cons first pre =>
      rw [← List.head_eq_of_cons_eq heq, expressionsWithout_cons_of_free hfree hne] at hrefused
      exact ⟨pre, post, List.tail_eq_of_cons_eq heq, hother, hrefused⟩
  · intro hall other hmem
    by_cases heq : other = filterName
    · rw [heq]
      exact ⟨[], names, rfl, hfree, h⟩
    have ⟨pre, post, hnames, hother, hrefused⟩ := hall other (AList.mem_erase.mpr ⟨heq, hmem⟩)
    refine ⟨filterName :: pre, post, congrArg (List.cons filterName) hnames, hother, ?_⟩
    rw [expressionsWithout_cons_of_free hfree heq]
    exact hrefused

theorem not_allRefused_cons (hnot : filterName ∉ names) (hmem : filterName ∈ state.filters)
    (h : ¬ Refused env (state.expressions env args.configId filterName)) :
    ¬ AllRefused env args state (filterName :: names) := by
  intro hall
  have ⟨pre, post, heq, _, hrefused⟩ := hall filterName hmem
  cases pre with
  | nil => exact h hrefused
  | cons first pre =>
    have hpre : names = pre ++ filterName :: post := List.tail_eq_of_cons_eq heq
    rw [hpre] at hnot
    simp at hnot

/-- No configured filter is left exactly when all of them are refused. -/
theorem extractFrom_nothing_iff (hnodup : names.Nodup) :
    (∃ result, extractFrom env args i names extracted = some result ∧
      ∀ filterName, filterName ∉ result.state.filters) ↔
        AllRefused env args extracted.state names := by
  induction names generalizing i extracted with
  | nil =>
    constructor
    · intro ⟨result, hrun, hnone⟩
      cases hrun
      exact fun filterName hmem => absurd hmem (hnone filterName)
    · intro hall
      refine ⟨extracted, rfl, fun filterName hmem => ?_⟩
      have ⟨pre, post, heq, _⟩ := hall filterName hmem
      simp at heq
  | cons first rest ih =>
    have ⟨hnot, hrest⟩ := List.nodup_cons.mp hnodup
    rw [extractFrom]
    by_cases hconflict : extracted.state.Conflicts args.overwriteConflictingConfigs first
    · have ⟨next, hstep, hstate⟩ := extractFilter_of_conflicts env i hconflict
      rw [hstep, allRefused_cons_of_conflicts hconflict, ← hstate]
      exact ih hrest
    by_cases hrefused : Refused env (extracted.state.expressions env args.configId first)
    · have ⟨next, index, hstep, hstate⟩ := extractFilter_of_refused i hconflict hrefused
      rw [hstep, allRefused_cons_of_refused index hconflict hrefused, ← hstate]
      exact ih hrest
    have ⟨hmem, hkept⟩ := extractFilter_of_not_refused i hconflict hrefused
    refine iff_of_false ?_ (not_allRefused_cons hnot hmem hrefused)
    intro ⟨result, hrun, hnone⟩
    have ⟨next, hstep, hrun⟩ := Option.bind_eq_some_iff.mp hrun
    exact hnone first (mem_filters_extractFrom hrun ((hkept next hstep).symm ▸ hmem) hnot)

end Runs

/-- The configured filters are those that extraction leaves. -/
theorem keepExpressions_filters (entries : List (String × Filter)) (state : State F) :
    (entries.foldl keepExpressions state).filters = state.filters := by
  induction entries generalizing state with
  | nil => rfl
  | cons entry entries ih =>
    rw [List.foldl_cons, ih, keepExpressions]
    split_ifs <;> rfl

/-- `ExtractFilters` leaves no filter exactly when there is none or all are refused. -/
theorem extractFilters_nothing_iff (call : Call F) :
    (∃ extracted, extractFilters env call.args call.state = some extracted ∧
      ∀ filterName, filterName ∉ extracted.state.filters) ↔ NothingLeft env call := by
  rw [NothingLeft, extractFilters]
  by_cases hend : call.state.filtersList.length = call.args.newFiltersStartingIndex
  · have hpart : call.state.newPart call.args = [] := by
      rw [State.newPart, ← hend]
      exact List.drop_length
    rw [if_pos hend, hpart]
    constructor
    · intro ⟨extracted, heq, hnone⟩
      cases heq
      exact ⟨by omega, by omega, fun filterName hmem => absurd hmem (hnone filterName)⟩
    · intro ⟨_, _, hall⟩
      refine ⟨_, rfl, fun filterName hmem => ?_⟩
      have ⟨pre, post, heq, _⟩ := hall filterName hmem
      simp at heq
  rw [if_neg hend]
  by_cases hrange : call.args.newFiltersStartingIndex < 0 ∨
      call.state.filtersList.length < call.args.newFiltersStartingIndex
  · rw [if_pos hrange]
    constructor
    · intro ⟨extracted, heq, _⟩
      cases heq
    · intro ⟨hnonneg, hle, _⟩
      omega
  · rw [if_neg hrange, extractFrom_nothing_iff call.once]
    constructor
    · exact fun hall => ⟨by omega, by omega, hall⟩
    · exact fun hleft => hleft.2.2

/-- What is put in order: an empty name for every filter that is left, then each of them once, after
the filters that it names unless they refer back to it. -/
theorem getAndParseFilters_spec {args : Arguments} {state : State F} {extracted : Extracted F}
    (h : extractFilters env args state = some extracted) :
    ∃ order last, getAndParseFilters env args state = some (extracted, last) ∧
      last.filtersList = List.replicate extracted.state.filters.keys.length "" ++ order ∧
      order.Nodup ∧ (∀ filterName, filterName ∈ order ↔ filterName ∈ extracted.state.filters) ∧
      ∀ pre filterName post, order = pre ++ filterName :: post → ∀ other,
        last.Names filterName other →
          other ∈ pre ∨ Relation.ReflTransGen last.RefersTo other filterName := by
  let kept := (extracted.output.entries.map fun entry => (entry.1, entry.2)).foldl
    keepExpressions extracted.state
  have hkept : kept.filters = extracted.state.filters := keepExpressions_filters _ _
  have ⟨order, hput, hnodup, hmem, hplaced⟩ := putFiltersInOrder_spec env kept
  let last : State F :=
    { kept with filtersList := List.replicate kept.filters.keys.length "" ++ order }
  refine ⟨order, last, ?_, ?_, hnodup, ?_, hplaced⟩
  · rw [getAndParseFilters, h]
    exact congrArg (Option.bind · fun state => some (extracted, state)) hput
  · rw [← hkept]
  · rw [← hkept]
    exact hmem

/-- The filters are extracted and put in order right if and only if none is left. -/
theorem filters_right_iff (call : Call F) : Right env call ↔ NothingLeft env call := by
  rw [← extractFilters_nothing_iff, Right]
  constructor
  · intro ⟨extracted, state, hrun, hright⟩
    have ⟨first, hextract, hrest⟩ := Option.bind_eq_some_iff.mp hrun
    have ⟨order, last, hrun', hlist, _, hmem, _⟩ := getAndParseFilters_spec hextract
    cases hrun.symm.trans hrun'
    refine ⟨extracted, hextract, fun filterName hfilter => ?_⟩
    have hkey : filterName ∈ extracted.state.filters.keys := AList.mem_keys.mp hfilter
    have hempty : "" ∈ List.replicate extracted.state.filters.keys.length "" :=
      List.mem_replicate.mpr ⟨List.ne_nil_of_mem hkey ∘ List.eq_nil_of_length_eq_zero, rfl⟩
    -- an accepted filter without a name would be there a second time
    have haccepted := (hright.mem_iff "").mp (hlist ▸ List.mem_append_left order hempty)
    have hnodup := hright.nodup
    rw [hlist] at hnodup
    exact List.disjoint_of_nodup_append hnodup hempty ((hmem "").mpr haccepted.1)
  · intro ⟨extracted, hextract, hnone⟩
    have ⟨order, last, hrun, hlist, _, hmem, _⟩ := getAndParseFilters_spec hextract
    have hkeys : extracted.state.filters.keys = [] :=
      List.eq_nil_iff_forall_not_mem.mpr fun filterName hkey =>
        hnone filterName (AList.mem_keys.mpr hkey)
    have horder : order = [] := List.eq_nil_iff_forall_not_mem.mpr fun filterName hfilter =>
      hnone filterName ((hmem filterName).mp hfilter)
    have hnil : last.filtersList = [] := by
      rw [hlist, hkeys, horder]
      rfl
    refine ⟨extracted, last, hrun, ?_, ?_, ?_⟩
    · intro filterName
      rw [hnil]
      exact iff_of_false List.not_mem_nil fun haccepted => hnone filterName haccepted.1
    · rw [hnil]
      exact List.nodup_nil
    · intro pre filterName post heq
      rw [hnil] at heq
      simp at heq

section Failure

/-- A regular expression without special characters finds itself. -/
def literalEnvironment : Environment ℚ where
  parse _ _ _ _ := some (.error "")
  compile pattern := some fun s => if CloudSync.contains s pattern then pattern else ""
  inputType _ := "bool"
  attributes := ∅
  allPossibleAttributes := ∅
  scopeOrder _ := ⟨id, fun _ => List.Perm.refl _⟩
  filtersOrder _ _ := ⟨id, fun _ => List.Perm.refl _⟩

/-- One new filter and one new input, which it finds. -/
def oneFilter : Call ℚ where
  args := ⟨["f"], 0, ["x"], false, ""⟩
  state := {
    filters := (∅ : Map FilterConfig).insert "f" (.string "regex(x)")
    filtersList := ["f"]
    filterScope := ∅
    inputScope := (∅ : Map (List (Union ℚ))).insert "x" [.bool true]
    staticFilterExpressions := ∅
    dynamicFilterExpressions := ∅ }
  once := by decide

theorem oneFilter_run :
    (getAndParseFilters literalEnvironment oneFilter.args oneFilter.state).map (fun result =>
      (result.1.state.filters.keys, result.2.filtersList, result.2.filters.keys,
        result.2.staticVars "f", result.2.dynamicVars "f")) =
      some (["f"], ["", "f"], ["f"], ["x"], []) := by decide +kernel

/-- The list of one filter that is accepted begins with an empty name. -/
theorem filters_right_fails :
    ¬ ∀ (env : Environment ℚ) (call : Call ℚ),
      (∀ extracted last, getAndParseFilters env call.args call.state = some (extracted, last) →
        ∀ filterName, ¬ Relation.TransGen last.Names filterName filterName) → Right env call := by
  intro h
  have hacyclic : ∀ extracted last,
      getAndParseFilters literalEnvironment oneFilter.args oneFilter.state =
        some (extracted, last) →
      ∀ filterName, ¬ Relation.TransGen last.Names filterName filterName := by
    intro extracted last hrun filterName hcycle
    have heval := oneFilter_run
    rw [hrun] at heval
    simp only [Option.map_some, Option.some.injEq, Prod.mk.injEq] at heval
    have ⟨_, _, hkeys, hstatic, hdynamic⟩ := heval
    have hname : ∀ other, other ∈ last.filters → other = "f" := by
      intro other hother
      rw [AList.mem_keys, hkeys] at hother
      exact List.mem_singleton.mp hother
    have ⟨_, _, hlast⟩ := Relation.TransGen.tail'_iff.mp hcycle
    have ⟨other, hfirst, _⟩ := Relation.TransGen.head'_iff.mp hcycle
    have ⟨hother, hvars⟩ := hfirst
    rw [hname filterName hlast.1, hname other hother, hstatic, hdynamic] at hvars
    simp at hvars
  have ⟨extracted, last, hrun, hright⟩ := h literalEnvironment oneFilter hacyclic
  have heval := oneFilter_run
  rw [hrun] at heval
  simp only [Option.map_some, Option.some.injEq, Prod.mk.injEq] at heval
  have ⟨hkeys, hlist, _⟩ := heval
  have haccepted := (hright.mem_iff "").mp (hlist ▸ List.mem_cons_self)
  have hmem := haccepted.1
  rw [AList.mem_keys, hkeys] at hmem
  simp at hmem

end Failure

end HybridOs.GoMetrics.Filters
