import Mathlib

/-!
# Input sources

A list of input sources is parsed from a configuration. A source that fails to
parse is left as far as its fields were set. The first enabled source is the
selected one, and the last source stays enabled.
-/

namespace HybridOs.SiteInputSources

/-- A `cJSON` value. -/
inductive CJson where
  | null
  | bool (value : Bool)
  | number (value : ℚ)
  | string (value : String)
  | array (elems : List CJson)
  | object (members : List (String × CJson))

namespace CJson

/-- The letters of a key in lower case. -/
def lowerCase (key : String) : List Char := key.toList.map Char.toLower

/-- `cJSON_GetObjectItem`, which takes upper and lower case for the same. -/
def getObjectItem : CJson → String → Option CJson
  | .object members, name =>
    (members.find? fun member => lowerCase member.1 = lowerCase name).map Prod.snd
  | _, _ => none

/-- `valuestring`, which is null but for strings. -/
def valueString : CJson → Option String
  | .string value => some value
  | _ => none

/-- What `cJSON_ArrayForEach` goes through. -/
def children : CJson → List CJson
  | .array elems => elems
  | .object members => members.map Prod.snd
  | _ => []

/-- The text of an item, if it is a string. -/
def itemString (json : CJson) (name : String) : Option String :=
  (json.getObjectItem name).bind valueString

end CJson

/-- `UI_Type`, as far as input sources use it. -/
inductive UIType where
  | status | control | none
  deriving DecidableEq, Repr

/-- The type of a text, for variables and controls. -/
def uiTypeOf (text : String) : Option UIType :=
  if text = "status" then some .status
  else if text = "control" then some .control
  else if text = "none" then some .none
  else Option.none

/-- The type of a text in `alt_ui_types`. -/
def altUITypeOf (text : String) : Option UIType :=
  if text = "status" then some .status
  else if text = "none" then some .none
  else Option.none

/-- `MAX_VARIABLE_LENGTH`. -/
def maxVariableLength : ℕ := 256

/-- `Input_Source`. The constructor sets no type. -/
structure InputSource where
  /-- Name on display. -/
  name : String
  /-- Where SETs of the source go to, its ID. -/
  uriSuffix : String
  /-- Type for the variable. -/
  uiType : Option UIType
  /-- Type for the control slider. -/
  controlUIType : Option UIType
  /-- Types for single variables. -/
  altUITypes : List (String × UIType)
  /-- Whether the source may be selected. -/
  enabled : Bool
  deriving DecidableEq

/-- A new input source. -/
def InputSource.new : InputSource := ⟨"", "", none, none, [], false⟩

/-! ## Parsing a source -/

/-- A source, or the source as it was left with the text of the error. -/
abbrev Parsed := Except (InputSource × String) InputSource

/-- The source that a parse leaves, with or without an error. -/
def Parsed.source : Parsed → InputSource
  | .ok source => source
  | .error (source, _) => source

/-- The name of the source. -/
def parseName (json : CJson) (source : InputSource) : Parsed :=
  match json.itemString "name" with
  | none => .error (source, "failed to parse name string from element of input_sources array")
  | some name => .ok { source with name }

/-- The suffix of the source. -/
def parseUriSuffix (json : CJson) (source : InputSource) : Parsed :=
  match json.itemString "uri_suffix" with
  | none => .error (source, "failed to parse uri_suffix string from element " ++ source.name ++
      " of input_sources array")
  | some uriSuffix => .ok { source with uriSuffix }

/-- No "brokenly long" uris. -/
def checkLengths (source : InputSource) : Parsed :=
  if maxVariableLength < source.name.utf8ByteSize then
    .error (source, "name is absurdly long shorten the variable. name is currently: " ++
      source.name)
  else if maxVariableLength < source.uriSuffix.utf8ByteSize then
    .error (source, "uri_suffix is absurdly long shorten the variable. uri_suffix is currently: " ++
      source.uriSuffix)
  else .ok source

/-- The type for the variable, under `var_ui_type`. -/
def parseUIType (json : CJson) (source : InputSource) : Parsed :=
  match json.itemString "var_ui_type" with
  | none => .error (source, "failed to parse default ui_type from element " ++ source.name ++
      " of input_sources array. NOTE: This is the variable \"var_ui_type\".")
  | some text =>
    match uiTypeOf text with
    | none => .error (source, "parsed ui_type as " ++ text ++
        " which is not one of the possible ui_types status, control, or none")
    | some uiType => .ok { source with uiType := some uiType }

/-- The type for the control, under `ui_type`. -/
def parseControlUIType (json : CJson) (source : InputSource) : Parsed :=
  match json.itemString "ui_type" with
  | none => .error (source, "failed to parse default control_ui_type from element " ++
      source.name ++ " of input_sources array")
  | some text =>
    match uiTypeOf text with
    | none => .error (source, "parsed control_ui_type as " ++ text ++
        " which is not one of the possible ui_types status, control, or none")
    | some uiType => .ok { source with controlUIType := some uiType }

/-- One entry of `alt_ui_types`. -/
def parseAltUIType (source : InputSource) (json : CJson) : Parsed :=
  match json.itemString "var_id" with
  | none => .error (source,
      "failed to parse var_id from an entry in the alt_ui_types array for input source " ++
        source.name)
  | some varId =>
    match json.itemString "ui_type" with
    | none => .error (source,
        "failed to parse ui_type from an entry in the alt_ui_types array for input source " ++
          source.name)
    | some text =>
      match altUITypeOf text with
      | none => .error (source, "alt_ui_type entry for input source " ++ source.name ++
          " has ui_type " ++ text ++ "but only status or none are allowed")
      | some uiType => .ok { source with
          altUITypes := (source.altUITypes.filter fun entry => entry.1 ≠ varId) ++
            [(varId, uiType)] }

/-- The types for single variables, if there are any. -/
def parseAltUITypes (json : CJson) (source : InputSource) : Parsed :=
  match json.getObjectItem "alt_ui_types" with
  | none => .ok source
  | some entries => entries.children.foldlM parseAltUIType source

/-- The initial value of the flag. -/
def parseEnabled (json : CJson) (source : InputSource) : Parsed :=
  match json.getObjectItem "enabled" with
  | none => .ok { source with enabled := false }
  | some (.bool enabled) => .ok { source with enabled }
  | some _ => .error (source, "value of 'enabled' for input_source " ++ source.name ++
      " is not a boolean")

/-- `Input_Source::parse_json_obj` of a new source. -/
def parseInputSource (json : CJson) : Parsed := do
  let source ← parseName json InputSource.new
  let source ← parseUriSuffix json source
  let source ← checkLengths source
  let source ← parseUIType json source
  let source ← parseControlUIType json source
  let source ← parseAltUITypes json source
  parseEnabled json source

/-! ## The list -/

/-- `Input_Source_List`. -/
structure InputSourceList where
  /-- The sources, by priority. -/
  inputSources : List InputSource
  /-- Index of the selected source, not set in an empty list. -/
  selectedInputSourceIndex : ℕ
  /-- Indices of the suffixes. -/
  idToIndex : List (String × ℕ)

/-- The loop over the elements. What `parse_json_obj` of an element returns is not read. -/
def addSources : List CJson → List InputSource → Except String (List InputSource)
  | [], inputSources => .ok inputSources
  | json :: rest, inputSources =>
    let newSource := (parseInputSource json).source
    match inputSources.find? fun existing => existing.uriSuffix = newSource.uriSuffix with
    | some existing => .error ("input source " ++ existing.name ++ " and input source " ++
        newSource.name ++ " have the same uri_suffix " ++ newSource.uriSuffix)
    | none => addSources rest (inputSources ++ [newSource])

/-- The sources with the last one enabled. -/
def enableLast : List InputSource → List InputSource
  | [] => []
  | [source] => [{ source with enabled := true }]
  | source :: rest => source :: enableLast rest

/-- The list of sources whose last one is enabled. -/
def listOf (inputSources : List InputSource) : InputSourceList :=
  let inputSources := enableLast inputSources
  { inputSources
    selectedInputSourceIndex :=
      (inputSources.findIdx? InputSource.enabled).getD (inputSources.length - 1)
    idToIndex := inputSources.zipIdx.map fun entry => (entry.1.uriSuffix, entry.2) }

/-- `Input_Source_List::parse_json_obj` of a new list. -/
def parseJsonObj (json : CJson) : Except String InputSourceList :=
  match json with
  | .array [] => .ok ⟨[], 0, []⟩
  | .array elems => (addSources elems []).map listOf
  | _ => .error "parsed input_sources object is not an array"

/-- `set_source_enable_flag`: the name of the selected source, and the list afterwards. -/
def setSourceEnableFlag (list : InputSourceList) (sourceId : String) (enableFlag : Bool) :
    String × InputSourceList :=
  if list.inputSources = [] then ("", list)
  else
    let nameOf (list : InputSourceList) : String :=
      (list.inputSources[list.selectedInputSourceIndex]?.map InputSource.name).getD ""
    match list.idToIndex.lookup sourceId with
    | none => (nameOf list, list)
    | some sourceIndex =>
      let inputSources :=
        if sourceIndex ≠ list.inputSources.length - 1 then
          list.inputSources.modify sourceIndex fun source => { source with enabled := enableFlag }
        else list.inputSources
      let selectedInputSourceIndex :=
        if enableFlag = true ∧ sourceIndex < list.selectedInputSourceIndex then sourceIndex
        else if enableFlag = false ∧ sourceIndex = list.selectedInputSourceIndex then
          (inputSources.findIdx? InputSource.enabled).getD list.selectedInputSourceIndex
        else list.selectedInputSourceIndex
      let list := { list with inputSources, selectedInputSourceIndex }
      (nameOf list, list)

/-- The list after SETs of flags. -/
def setFlags (list : InputSourceList) (sets : List (String × Bool)) : InputSourceList :=
  sets.foldl (fun list set => (setSourceEnableFlag list set.1 set.2).2) list

/-! ## What a source must be -/

/-- An entry of `alt_ui_types` with an ID and a type. -/
def IsAltUIType (json : CJson) : Prop :=
  (json.itemString "var_id").isSome = true ∧
    ((json.itemString "ui_type").bind altUITypeOf).isSome = true

/-- An element that parses as an input source. -/
structure IsInputSource (json : CJson) : Prop where
  /-- A name of no more than the greatest length. -/
  name : ∃ name, json.itemString "name" = some name ∧ name.utf8ByteSize ≤ maxVariableLength
  /-- And so a suffix. -/
  uriSuffix : ∃ uriSuffix, json.itemString "uri_suffix" = some uriSuffix ∧
    uriSuffix.utf8ByteSize ≤ maxVariableLength
  /-- A type for the variable. -/
  uiType : ((json.itemString "var_ui_type").bind uiTypeOf).isSome = true
  /-- A type for the control. -/
  controlUIType : ((json.itemString "ui_type").bind uiTypeOf).isSome = true
  /-- Types for single variables, if any. -/
  altUITypes : ∀ entries, json.getObjectItem "alt_ui_types" = some entries →
    ∀ entry ∈ entries.children, IsAltUIType entry
  /-- A flag that is a boolean, if there is one. -/
  enabled : ∀ enabled, json.getObjectItem "enabled" = some enabled → ∃ flag, enabled = .bool flag

/-- The suffix that an element leaves in its source, with or without an error. -/
def suffixLeft (json : CJson) : String :=
  match json.itemString "name" with
  | none => ""
  | some _ => (json.itemString "uri_suffix").getD ""

/-- A parse leaves the suffix, and is without an error if and only if a condition holds. -/
structure Parsed.Leaves (parsed : Parsed) (uriSuffix : String) (valid : Prop) : Prop where
  suffix : parsed.source.uriSuffix = uriSuffix
  ok_iff : (∃ source, parsed = .ok source) ↔ valid

/-- Two steps that leave the suffix, one after the other. -/
theorem Parsed.Leaves.bind {parsed : Parsed} {uriSuffix : String} {valid further : Prop}
    {step : InputSource → Parsed} (h : parsed.Leaves uriSuffix valid)
    (hstep : ∀ source, parsed = .ok source → source.uriSuffix = uriSuffix →
      (step source).Leaves uriSuffix further) :
    Parsed.Leaves (parsed >>= step) uriSuffix (valid ∧ further) := by
  cases parsed with
  | error left =>
    have hinvalid : ¬ valid := fun hvalid => by
      obtain ⟨source, hsource⟩ := h.ok_iff.mpr hvalid
      cases hsource
    constructor
    · exact h.suffix
    · constructor
      · rintro ⟨source, hsource⟩
        cases hsource
      · rintro ⟨hvalid, -⟩
        exact absurd hvalid hinvalid
  | ok source =>
    have hnext := hstep source rfl h.suffix
    have hvalid : valid := h.ok_iff.mp ⟨source, rfl⟩
    constructor
    · exact hnext.suffix
    · rw [and_iff_right hvalid]
      exact hnext.ok_iff

/-- A step with an error leaves the suffix of its source. -/
theorem Parsed.leaves_error {source : InputSource} {text uriSuffix : String} {valid : Prop}
    (hsuffix : source.uriSuffix = uriSuffix) (hinvalid : ¬ valid) :
    Parsed.Leaves (.error (source, text)) uriSuffix valid := by
  constructor
  · exact hsuffix
  · constructor
    · rintro ⟨other, hother⟩
      cases hother
    · intro hvalid
      exact absurd hvalid hinvalid

theorem Parsed.leaves_ok {source : InputSource} {uriSuffix : String} {valid : Prop}
    (hsuffix : source.uriSuffix = uriSuffix) (hvalid : valid) :
    Parsed.Leaves (.ok source) uriSuffix valid where
  suffix := hsuffix
  ok_iff := ⟨fun _ => hvalid, fun _ => ⟨source, rfl⟩⟩

section Steps

variable {source : InputSource} {uriSuffix : String}

theorem checkLengths_leaves (h : source.uriSuffix = uriSuffix) :
    (checkLengths source).Leaves uriSuffix (source.name.utf8ByteSize ≤ maxVariableLength ∧
      uriSuffix.utf8ByteSize ≤ maxVariableLength) := by
  unfold checkLengths
  split_ifs with hname hsuffix
  · exact Parsed.leaves_error h (by omega)
  · exact Parsed.leaves_error h (by rw [← h]; omega)
  · exact Parsed.leaves_ok h (by rw [← h]; omega)

variable (json : CJson)

theorem parseUIType_leaves (h : source.uriSuffix = uriSuffix) :
    (parseUIType json source).Leaves uriSuffix
      (((json.itemString "var_ui_type").bind uiTypeOf).isSome = true) := by
  unfold parseUIType
  cases json.itemString "var_ui_type" with
  | none => exact Parsed.leaves_error h (by simp)
  | some text =>
    dsimp only
    rw [Option.bind_some]
    cases uiTypeOf text with
    | none => exact Parsed.leaves_error h (by simp)
    | some uiType => exact Parsed.leaves_ok h rfl

theorem parseControlUIType_leaves (h : source.uriSuffix = uriSuffix) :
    (parseControlUIType json source).Leaves uriSuffix
      (((json.itemString "ui_type").bind uiTypeOf).isSome = true) := by
  unfold parseControlUIType
  cases json.itemString "ui_type" with
  | none => exact Parsed.leaves_error h (by simp)
  | some text =>
    dsimp only
    rw [Option.bind_some]
    cases uiTypeOf text with
    | none => exact Parsed.leaves_error h (by simp)
    | some uiType => exact Parsed.leaves_ok h rfl

theorem parseAltUIType_leaves (h : source.uriSuffix = uriSuffix) :
    (parseAltUIType source json).Leaves uriSuffix (IsAltUIType json) := by
  unfold parseAltUIType IsAltUIType
  cases json.itemString "var_id" with
  | none => exact Parsed.leaves_error h (by simp)
  | some varId =>
    cases json.itemString "ui_type" with
    | none => exact Parsed.leaves_error h (by simp)
    | some text =>
      dsimp only
      rw [Option.bind_some]
      cases altUITypeOf text with
      | none => exact Parsed.leaves_error h (by simp)
      | some uiType => exact Parsed.leaves_ok h ⟨rfl, rfl⟩

theorem foldlM_parseAltUIType_leaves (entries : List CJson) (h : source.uriSuffix = uriSuffix) :
    Parsed.Leaves (entries.foldlM parseAltUIType source) uriSuffix
      (∀ entry ∈ entries, IsAltUIType entry) := by
  induction entries generalizing source with
  | nil => exact Parsed.leaves_ok h (by simp)
  | cons entry rest ih =>
    rw [List.forall_mem_cons, List.foldlM_cons]
    exact (parseAltUIType_leaves entry h).bind fun next _ hnext => ih hnext

theorem parseAltUITypes_leaves (h : source.uriSuffix = uriSuffix) :
    (parseAltUITypes json source).Leaves uriSuffix
      (∀ entries, json.getObjectItem "alt_ui_types" = some entries →
        ∀ entry ∈ entries.children, IsAltUIType entry) := by
  unfold parseAltUITypes
  cases json.getObjectItem "alt_ui_types" with
  | none => exact Parsed.leaves_ok h (by simp)
  | some entries =>
    have hentries := foldlM_parseAltUIType_leaves entries.children h
    constructor
    · exact hentries.suffix
    · simpa using hentries.ok_iff

theorem parseEnabled_leaves (h : source.uriSuffix = uriSuffix) :
    (parseEnabled json source).Leaves uriSuffix
      (∀ enabled, json.getObjectItem "enabled" = some enabled → ∃ flag, enabled = .bool flag) := by
  unfold parseEnabled
  cases json.getObjectItem "enabled" with
  | none => exact Parsed.leaves_ok h (by simp)
  | some enabled =>
    cases enabled with
    | bool flag => exact Parsed.leaves_ok h (by simp)
    | _ => exact Parsed.leaves_error h (by simp)

end Steps

/-- A source is left with its suffix, and is without an error if and only if the element is an
input source. -/
theorem parseInputSource_leaves (json : CJson) :
    (parseInputSource json).Leaves (suffixLeft json) (IsInputSource json) := by
  unfold parseInputSource suffixLeft parseName
  cases hname : json.itemString "name" with
  | none =>
    refine Parsed.leaves_error rfl ?_
    rintro ⟨⟨name, hsome, -⟩, -⟩
    rw [hname] at hsome
    cases hsome
  | some name =>
    unfold parseUriSuffix
    cases hsuffix : json.itemString "uri_suffix" with
    | none =>
      refine Parsed.leaves_error rfl ?_
      rintro ⟨-, ⟨uriSuffix, hsome, -⟩, -⟩
      rw [hsuffix] at hsome
      cases hsome
    | some uriSuffix =>
      have hchain := Parsed.Leaves.bind
        (checkLengths_leaves
          (rfl : (⟨name, uriSuffix, none, none, [], false⟩ : InputSource).uriSuffix = uriSuffix))
        fun source _ hsource => Parsed.Leaves.bind (parseUIType_leaves json hsource)
          fun source _ hsource => Parsed.Leaves.bind (parseControlUIType_leaves json hsource)
            fun source _ hsource => Parsed.Leaves.bind (parseAltUITypes_leaves json hsource)
              fun source _ hsource => parseEnabled_leaves json hsource
      constructor
      · exact hchain.suffix
      · refine hchain.ok_iff.trans ?_
        constructor
        · rintro ⟨⟨hnameLen, hsuffixLen⟩, hui, hcontrol, halts, henabled⟩
          exact ⟨⟨name, hname, hnameLen⟩, ⟨uriSuffix, hsuffix, hsuffixLen⟩, hui, hcontrol, halts,
            henabled⟩
        · rintro ⟨⟨otherName, hotherName, hnameLen⟩, ⟨otherSuffix, hotherSuffix, hsuffixLen⟩, hui,
            hcontrol, halts, henabled⟩
          rw [hname, Option.some.injEq] at hotherName
          rw [hsuffix, Option.some.injEq] at hotherSuffix
          subst hotherName hotherSuffix
          exact ⟨⟨hnameLen, hsuffixLen⟩, hui, hcontrol, halts, henabled⟩

/-! ## Parsing a list -/

theorem source_uriSuffix (json : CJson) :
    (parseInputSource json).source.uriSuffix = suffixLeft json :=
  (parseInputSource_leaves json).suffix

/-- The loop fails only at a suffix that is there already. -/
theorem addSources_ok_iff (elems : List CJson) {inputSources : List InputSource}
    (hdistinct : (inputSources.map InputSource.uriSuffix).Nodup) :
    (∃ added, addSources elems inputSources = .ok added) ↔
      (inputSources.map InputSource.uriSuffix ++ elems.map suffixLeft).Nodup := by
  induction elems generalizing inputSources with
  | nil =>
    rw [List.map_nil, List.append_nil]
    exact ⟨fun _ => hdistinct, fun _ => ⟨inputSources, rfl⟩⟩
  | cons json rest ih =>
    rw [addSources]
    cases hfind : inputSources.find? fun existing =>
        existing.uriSuffix = (parseInputSource json).source.uriSuffix with
    | some existing =>
      have hmem := List.mem_of_find?_eq_some hfind
      have hsame := List.find?_some hfind
      rw [decide_eq_true_eq, source_uriSuffix] at hsame
      constructor
      · rintro ⟨added, hadded⟩
        cases hadded
      · intro hnodup
        have hdisjoint := List.disjoint_of_nodup_append hnodup
        have hleft : suffixLeft json ∈ inputSources.map InputSource.uriSuffix := by
          rw [← hsame]
          exact List.mem_map_of_mem hmem
        exact absurd List.mem_cons_self (hdisjoint hleft)
    | none =>
      rw [List.find?_eq_none] at hfind
      have hnew : (parseInputSource json).source.uriSuffix ∉
          inputSources.map InputSource.uriSuffix := by
        intro hmem
        obtain ⟨existing, hexisting, hsame⟩ := List.mem_map.mp hmem
        exact hfind existing hexisting (decide_eq_true hsame)
      have hnext : ((inputSources ++ [(parseInputSource json).source]).map
          InputSource.uriSuffix).Nodup := by
        rw [List.map_append, List.map_singleton]
        exact List.nodup_append_comm.mp (List.nodup_cons.mpr ⟨hnew, hdistinct⟩)
      dsimp only
      rw [ih hnext, List.map_append, List.map_singleton, source_uriSuffix, List.map_cons,
        List.append_assoc, List.singleton_append]

variable {elems : List CJson} {inputSources : List InputSource} {list : InputSourceList}

/-- The loop adds what every element leaves. -/
theorem addSources_eq {added : List InputSource} (h : addSources elems inputSources = .ok added) :
    added = inputSources ++ elems.map fun json => (parseInputSource json).source := by
  induction elems generalizing inputSources with
  | nil =>
    cases h
    rw [List.map_nil, List.append_nil]
  | cons json rest ih =>
    rw [addSources] at h
    split at h
    · cases h
    · rw [ih h, List.map_cons, List.append_assoc, List.singleton_append]

/-! ## The selected source -/

/-- The indices of the enabled sources. -/
def enabledIndices (inputSources : List InputSource) : Set ℕ :=
  {index | ∃ source, inputSources[index]? = some source ∧ source.enabled = true}

/-- The last source is enabled, and the first enabled one is selected. -/
structure Selects (list : InputSourceList) : Prop where
  /-- The last source is enabled. -/
  last : ∃ source, list.inputSources.getLast? = some source ∧ source.enabled = true
  /-- The selected index is the least one of an enabled source. -/
  selected : IsLeast (enabledIndices list.inputSources) list.selectedInputSourceIndex

/-- The first enabled source is found at the least index of an enabled one. -/
theorem findIdx?_enabled_iff {index : ℕ} :
    inputSources.findIdx? InputSource.enabled = some index ↔
      IsLeast (enabledIndices inputSources) index := by
  rw [List.findIdx?_eq_some_iff_getElem]
  constructor
  · rintro ⟨hlt, henabled, hbefore⟩
    constructor
    · exact ⟨_, List.getElem?_eq_getElem hlt, henabled⟩
    · rintro other ⟨source, hsource, hother⟩
      by_contra hless
      rw [not_le] at hless
      have hout := hbefore other hless
      rw [List.getElem?_eq_getElem (hless.trans hlt), Option.some.injEq] at hsource
      rw [hsource] at hout
      exact hout hother
  · rintro ⟨⟨source, hsource, henabled⟩, hleast⟩
    obtain ⟨hlt, hget⟩ := List.getElem?_eq_some_iff.mp hsource
    refine ⟨hlt, hget ▸ henabled, fun other hless hother => ?_⟩
    exact absurd (hleast ⟨_, List.getElem?_eq_getElem (hless.trans hlt), hother⟩) (not_le.mpr hless)

theorem enableLast_concat (front : List InputSource) (source : InputSource) :
    enableLast (front ++ [source]) = front ++ [{ source with enabled := true }] := by
  induction front with
  | nil => rfl
  | cons first rest ih =>
    cases rest with
    | nil => rfl
    | cons second rest =>
      rw [List.cons_append, List.cons_append, enableLast, ← List.cons_append, ih]
      · rfl
      · intro h
        cases h

/-- A list whose last source is enabled has a selected one. -/
theorem exists_isLeast_of_last
    (h : ∃ source, inputSources.getLast? = some source ∧ source.enabled = true) :
    ∃ index, inputSources.findIdx? InputSource.enabled = some index ∧
      IsLeast (enabledIndices inputSources) index := by
  obtain ⟨source, hlast, henabled⟩ := h
  cases hfind : inputSources.findIdx? InputSource.enabled with
  | none =>
    rw [List.findIdx?_eq_none_iff] at hfind
    rw [hfind source (List.mem_of_getLast? hlast)] at henabled
    cases henabled
  | some index => exact ⟨index, rfl, findIdx?_enabled_iff.mp hfind⟩

/-- The list of some sources selects. -/
theorem listOf_selects (hne : inputSources ≠ []) : Selects (listOf inputSources) := by
  obtain ⟨front, source, hconcat⟩ := (List.eq_nil_or_concat' inputSources).resolve_left hne
  subst hconcat
  have hlast : ∃ last, (enableLast (front ++ [source])).getLast? = some last ∧
      last.enabled = true := by
    rw [enableLast_concat, List.getLast?_concat]
    exact ⟨_, rfl, rfl⟩
  obtain ⟨index, hindex, hleast⟩ := exists_isLeast_of_last hlast
  constructor
  · exact hlast
  · change IsLeast _ ((List.findIdx? _ _).getD _)
    rw [hindex]
    exact hleast

/-! ## SETs of flags -/

/-- Setting the flag of one source enables or disables its index. -/
theorem mem_enabledIndices_modify {sourceIndex : ℕ} (hlt : sourceIndex < inputSources.length)
    (flag : Bool) (index : ℕ) :
    index ∈ enabledIndices
        (inputSources.modify sourceIndex fun source => { source with enabled := flag }) ↔
      if index = sourceIndex then flag = true else index ∈ enabledIndices inputSources := by
  change (∃ source, _ = some source ∧ _) ↔ _
  by_cases hindex : index = sourceIndex
  · subst hindex
    rw [if_pos rfl, List.getElem?_modify_eq, List.getElem?_eq_getElem hlt]
    simp
  · have hne : sourceIndex ≠ index := fun heq => hindex heq.symm
    rw [if_neg hindex, List.getElem?_modify_ne _ _ hne]
    rfl

/-- The index of a suffix is that of a source. -/
def IndicesValid (list : InputSourceList) : Prop :=
  ∀ sourceId index, list.idToIndex.lookup sourceId = some index →
    index < list.inputSources.length

/-- The index that is selected after the flag of a source was set, where the last source cannot
be disabled. -/
theorem isLeast_of_set {before after : List InputSource} {selected sourceIndex : ℕ} {flag : Bool}
    (hbefore : IsLeast (enabledIndices before) selected)
    (hafter : ∀ index, index ∈ enabledIndices after ↔
      if index = sourceIndex then flag = true else index ∈ enabledIndices before)
    (hlast : ∃ source, after.getLast? = some source ∧ source.enabled = true) :
    IsLeast (enabledIndices after) (if flag = true ∧ sourceIndex < selected then sourceIndex
      else if flag = false ∧ sourceIndex = selected then
        (after.findIdx? InputSource.enabled).getD selected else selected) := by
  split_ifs with hhigher hfound
  · obtain ⟨hflag, hless⟩ := hhigher
    constructor
    · rw [hafter, if_pos rfl]
      exact hflag
    · intro index hindex
      rw [hafter] at hindex
      split_ifs at hindex with heq
      · omega
      · have := hbefore.2 hindex
        omega
  · obtain ⟨index, hindex, hleast⟩ := exists_isLeast_of_last hlast
    rw [hindex]
    exact hleast
  · have hkept : selected ∈ enabledIndices after := by
      rw [hafter]
      split_ifs with heq
      · cases flag with
        | true => rfl
        | false => exact absurd ⟨rfl, heq.symm⟩ hfound
      · exact hbefore.1
    refine ⟨hkept, fun index hindex => ?_⟩
    rw [hafter] at hindex
    split_ifs at hindex with heq
    · by_contra hless
      exact hhigher ⟨hindex, by omega⟩
    · exact hbefore.2 hindex

/-- A SET of a flag keeps the first enabled source selected. -/
theorem setSourceEnableFlag_selects (h : Selects list) (hindices : IndicesValid list)
    (sourceId : String) (flag : Bool) :
    Selects (setSourceEnableFlag list sourceId flag).2 ∧
      IndicesValid (setSourceEnableFlag list sourceId flag).2 := by
  unfold setSourceEnableFlag
  by_cases hempty : list.inputSources = []
  · rw [if_pos hempty]
    exact ⟨h, hindices⟩
  · rw [if_neg hempty]
    dsimp only
    cases hlookup : list.idToIndex.lookup sourceId with
    | none => exact ⟨h, hindices⟩
    | some sourceIndex =>
      have hlt := hindices sourceId sourceIndex hlookup
      dsimp only
      by_cases hlastIndex : sourceIndex = list.inputSources.length - 1
      · -- the last source stays as it is, and is enabled
        have hselected : ¬ sourceIndex < list.selectedInputSourceIndex := by
          obtain ⟨source, hsource, -⟩ := h.selected.1
          have := (List.getElem?_eq_some_iff.mp hsource).1
          omega
        rw [if_neg (not_not.mpr hlastIndex), if_neg fun hset => hselected hset.2,
          findIdx?_enabled_iff.mpr h.selected, Option.getD_some, ite_self]
        exact ⟨⟨h.last, h.selected⟩, hindices⟩
      · rw [if_pos hlastIndex]
        have hlast : ∃ source, (list.inputSources.modify sourceIndex fun source =>
            { source with enabled := flag }).getLast? = some source ∧ source.enabled = true := by
          obtain ⟨source, hlast, henabled⟩ := h.last
          refine ⟨source, ?_, henabled⟩
          rw [List.getLast?_eq_getElem?] at hlast ⊢
          rw [List.length_modify, List.getElem?_modify_ne _ _ hlastIndex]
          exact hlast
        constructor
        · exact ⟨hlast, isLeast_of_set h.selected (mem_enabledIndices_modify hlt flag) hlast⟩
        · intro otherId index hindex
          rw [List.length_modify]
          exact hindices otherId index hindex

/-- So does a run of SETs. -/
theorem setFlags_selects (h : Selects list) (hindices : IndicesValid list)
    (sets : List (String × Bool)) : Selects (setFlags list sets) := by
  induction sets generalizing list with
  | nil => exact h
  | cons set rest ih =>
    obtain ⟨hnext, hnextIndices⟩ := setSourceEnableFlag_selects h hindices set.1 set.2
    exact ih hnext hnextIndices

theorem listOf_indicesValid (inputSources : List InputSource) :
    IndicesValid (listOf inputSources) := by
  intro sourceId index hlookup
  obtain ⟨before, after, hsplit, -⟩ := List.lookup_eq_some_iff.mp hlookup
  have hmem : (sourceId, index) ∈ (listOf inputSources).idToIndex := by
    rw [hsplit]
    exact List.mem_append_right _ List.mem_cons_self
  obtain ⟨⟨source, found⟩, hentry, hpair⟩ := List.mem_map.mp hmem
  cases hpair
  obtain ⟨-, hlt, -⟩ := List.mem_zipIdx hentry
  rw [zero_add] at hlt
  exact hlt

/-! ## Lists that are accepted -/

/-- A list of definitions is accepted if and only if all of them are input sources with distinct
suffixes, its entries are then those of the definitions, and whatever flags are set later, the
first enabled source is selected and the last one enabled. -/
structure ParsesSources (elems : List CJson) : Prop where
  /-- Every element parses, and no suffix is there twice. -/
  accepted_iff : (∃ list, parseJsonObj (.array elems) = .ok list) ↔
    (∀ json ∈ elems, IsInputSource json) ∧ (elems.map suffixLeft).Nodup
  /-- No entry is half initialised. -/
  entries : ∀ list, parseJsonObj (.array elems) = .ok list → ∃ parsed : List InputSource,
    List.Forall₂ (fun json source => parseInputSource json = .ok source) elems parsed ∧
      list.inputSources = enableLast parsed
  /-- The first enabled source is selected in every state. -/
  selects : ∀ list, parseJsonObj (.array elems) = .ok list → elems ≠ [] →
    ∀ sets, Selects (setFlags list sets)

theorem parseJsonObj_array (hne : elems ≠ []) :
    parseJsonObj (.array elems) = (addSources elems []).map listOf := by
  cases elems with
  | nil => exact absurd rfl hne
  | cons json rest => rfl

/-- A list is accepted if its suffixes are distinct, whether or not its elements parse. -/
theorem accepted_iff_nodup (elems : List CJson) :
    (∃ list, parseJsonObj (.array elems) = .ok list) ↔ (elems.map suffixLeft).Nodup := by
  by_cases hempty : elems = []
  · subst hempty
    exact ⟨fun _ => List.nodup_nil, fun _ => ⟨_, rfl⟩⟩
  · rw [parseJsonObj_array hempty]
    have hadded := @addSources_ok_iff elems [] List.nodup_nil
    rw [List.map_nil, List.nil_append] at hadded
    rw [← hadded]
    cases addSources elems [] with
    | error text =>
      constructor
      · rintro ⟨list, hlist⟩
        cases hlist
      · rintro ⟨added, hadd⟩
        cases hadd
    | ok added => exact ⟨fun _ => ⟨added, rfl⟩, fun _ => ⟨listOf added, rfl⟩⟩

/-- An accepted list holds what its elements left. -/
theorem eq_listOf_of_accepted (hne : elems ≠ []) (h : parseJsonObj (.array elems) = .ok list) :
    list = listOf (elems.map fun json => (parseInputSource json).source) := by
  rw [parseJsonObj_array hne] at h
  cases hadd : addSources elems [] with
  | error text =>
    rw [hadd] at h
    cases h
  | ok added =>
    rw [hadd] at h
    cases h
    rw [addSources_eq hadd, List.nil_append]

/-- A list is parsed as it should be if and only if all elements are input sources, or two of
them leave the same suffix. -/
theorem parsesSources_iff (elems : List CJson) :
    ParsesSources elems ↔
      (∀ json ∈ elems, IsInputSource json) ∨ ¬ (elems.map suffixLeft).Nodup := by
  constructor
  · intro h
    by_cases hnodup : (elems.map suffixLeft).Nodup
    · exact .inl (h.accepted_iff.mp ((accepted_iff_nodup elems).mpr hnodup)).1
    · exact .inr hnodup
  · intro hcond
    have hall : ∀ list, parseJsonObj (.array elems) = .ok list →
        ∀ json ∈ elems, IsInputSource json := by
      intro list hlist
      refine hcond.resolve_right fun hdouble => hdouble ?_
      exact (accepted_iff_nodup elems).mp ⟨list, hlist⟩
    constructor
    · constructor
      · rintro ⟨list, hlist⟩
        exact ⟨hall list hlist, (accepted_iff_nodup elems).mp ⟨list, hlist⟩⟩
      · rintro ⟨-, hnodup⟩
        exact (accepted_iff_nodup elems).mpr hnodup
    · intro list hlist
      refine ⟨elems.map fun json => (parseInputSource json).source, ?_, ?_⟩
      · have hvalid := hall list hlist
        rw [List.forall₂_map_right_iff, List.forall₂_same]
        intro json hjson
        obtain ⟨source, hsource⟩ := (parseInputSource_leaves json).ok_iff.mpr (hvalid json hjson)
        rw [hsource]
        rfl
      · by_cases hempty : elems = []
        · subst hempty
          cases hlist
          rfl
        · rw [eq_listOf_of_accepted hempty hlist]
          rfl
    · intro list hlist hne sets
      rw [eq_listOf_of_accepted hne hlist]
      have hsources : (elems.map fun json => (parseInputSource json).source) ≠ [] := by
        simpa using hne
      exact setFlags_selects (listOf_selects hsources) (listOf_indicesValid _) sets

/-- A definition without any types. -/
def nameOnly : CJson := .object [("name", .string "SCADA"), ("uri_suffix", .string "scada")]

/-- Its list is accepted, with a source that has no types. -/
theorem nameOnly_accepted : ¬ ParsesSources [nameOnly] := by
  intro h
  obtain ⟨hvalid, -⟩ := h.accepted_iff.mp ((accepted_iff_nodup _).mpr (List.nodup_singleton _))
  have htype := (hvalid nameOnly List.mem_cons_self).uiType
  revert htype
  decide

end HybridOs.SiteInputSources
