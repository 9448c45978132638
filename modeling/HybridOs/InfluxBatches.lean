import HybridOs.CheckedRun
import Mathlib.Algebra.Ring.Int.Defs
import Mathlib.Tactic.NormNum

/-!
# Batches of points

The rows of a source become points in batches of bounded size. A row may name a group, which
stands in for the source as its tag, and the loop writes it into the map of the default tags.
What the client library accepts and the sizes of values are parameters; the keys of a row are
visited in any order, with any of those that the visit inserts.
-/

namespace HybridOs.InfluxBatches

open CheckedRun

/-- A map in an array: its `value` as `fmt.Sprint` prints it, and its `string`, where they are
there. -/
structure MapEntry where
  value : Option String
  string : Option String

/-- A value of a row. -/
inductive Value (V : Type) where
  | null
  | text (s : String)
  | leaf (v : V)
  /-- A `[]map[string]interface{}`. -/
  | maps (entries : List MapEntry)
  /-- A slice of another type. -/
  | slice

/-- The fields of a row or a point. -/
abbrev Fields (V : Type) := List (String × Value V)

/-- A row, the keys that the loop over it visits, and its timestamp. -/
structure Row (V : Type) where
  entries : Fields V
  visits : List String
  /-- The time of the row in microseconds. -/
  timestamp : UInt64

/-- A point of a row. -/
structure Point (V : Type) where
  measurement : String
  /-- The tag of the point. -/
  source : String
  fields : Fields V
  /-- The time of the point in nanoseconds. -/
  timestamp : ℤ

/-- A batch: its points of rows, and the tag of its metadata point. -/
structure Batch (V : Type) where
  points : List (Point V)
  metadata : Option String

/-- Why a call does not return batches. -/
inductive Stop where
  | panic
  | error (text : String)

/-- The client library, as far as it decides what becomes of points. -/
structure Library (V : Type) where
  connected : Bool
  /-- Whether `NewPoint` accepts these fields at this time. -/
  accepts : Fields V → ℤ → Bool
  acceptsMetadata : Bool
  /-- `SizeOfDirectValue`. -/
  sizeOf : V → ℕ

variable {V : Type}

/-- An assignment of a field. -/
def Fields.put (fields : Fields V) (key : String) (value : Value V) : Fields V :=
  fields.filter (·.1 ≠ key) ++ [(key, value)]

/-- One map of an array becomes a field. -/
def addEntry (key : String) (state : Fields V × ℕ) (entry : MapEntry) :
    Except Stop (Fields V × ℕ) :=
  match entry.value, entry.string with
  | none, _ => .error (.error "did not find a \"value\" key in map in msg body")
  | some _, none =>
    .error (.error "did not find a \"string\" key with a string value in map in msg body")
  | some strEntryValue, some entryString =>
    .ok (state.1.put (key ++ strEntryValue) (.text entryString),
      state.2 + (key ++ strEntryValue).utf8ByteSize + entryString.utf8ByteSize)

/-- A key that the loop over a row visits. -/
def visitKey (lib : Library V) (state : Fields V × ℕ) (key : String) :
    Except Stop (Fields V × ℕ) :=
  match state.1.lookup key with
  | none => .ok state
  | some .null => .error .panic
  | some (.text s) => .ok (state.1, state.2 + key.utf8ByteSize + s.utf8ByteSize)
  | some (.leaf v) => .ok (state.1, state.2 + key.utf8ByteSize + lib.sizeOf v)
  | some (.maps entries) =>
    match run (addEntry key) state entries with
    | .error stop => .error stop
    | .ok (fields, size) => .ok (fields.filter (·.1 ≠ key), size)
  | some .slice => .error (.error "unexpected data type for value in msg body")

/-- `int64(timestamp) * 1000`: the nanoseconds of a row, which wrap at 64 bits. -/
def Row.ptTimestamp (row : Row V) : ℤ := ((row.timestamp.toNat : ℤ) * 1000).bmod (2 ^ 64)

/-- The batches under construction, with the tag that the default tags hold. -/
structure Building (V : Type) where
  batches : List (List (Point V))
  bp : List (Point V)
  source : String
  sizeLowerBound : ℕ

/-- A row of the loop. -/
def addRow (lib : Library V) (measurement : String) (building : Building V) (row : Row V) :
    Except Stop (Building V) :=
  if row.entries = [] then .ok building
  else
    match row.entries.lookup "ftd_group" with
    | none | some (.text _) =>
      let source := match row.entries.lookup "ftd_group" with
        | some (.text group) => group
        | _ => building.source
      match run (visitKey lib) (row.entries, building.sizeLowerBound) row.visits with
      | .error stop => .error stop
      | .ok (fields, size) =>
        if fields = [] ∨ lib.accepts fields row.ptTimestamp = false then
          .ok { building with source := source, sizeLowerBound := size }
        else
          let pt : Point V := ⟨measurement, source, fields, row.ptTimestamp⟩
          -- the size of a `time.Time`, and of the one tag
          let size := size + measurement.utf8ByteSize + 24 + "source".utf8ByteSize +
            source.utf8ByteSize
          if size ≥ 19000000 ∨ building.bp.length ≥ 5000 then
            .ok ⟨building.batches ++ [building.bp], [pt], source, 0⟩
          else .ok ⟨building.batches, building.bp ++ [pt], source, size⟩
    | some _ => .error .panic

/-- The batches that are returned: the metadata point is added to the last one. -/
def Building.made (lib : Library V) (building : Building V) : List (Batch V) :=
  building.batches.map (⟨·, none⟩) ++
    [⟨building.bp, if lib.acceptsMetadata then some building.source else none⟩]

/-- `MakeBatches`. -/
def makeBatches (lib : Library V) (dbName measurement source : String) (data : List (Row V)) :
    Except Stop (List (Batch V)) :=
  if lib.connected = false then
    .error (.error "error - client connection does not exist. please create one and try again")
  else if dbName = "" then .error (.error "database name is empty or invalid")
  else if measurement = "" then .error (.error "measurement is empty or invalid")
  else if source = "" then .error (.error "source is empty or invalid")
  else if data = [] then .error (.error "no data provided to write")
  else
    (run (addRow lib measurement) ⟨[], [], source, 0⟩ data).map (·.made lib)

/-! ## What is asked for -/

/-- The group that a row names. -/
def Row.group (row : Row V) : Option String :=
  match row.entries.lookup "ftd_group" with
  | some (.text group) => some group
  | _ => none

/-- The fields of a row on its own, with its arrays of maps spread out. -/
def Row.fields (lib : Library V) (row : Row V) : Except Stop (Fields V) :=
  match row.entries.lookup "ftd_group" with
  | none | some (.text _) => (run (visitKey lib) (row.entries, 0) row.visits).map (·.1)
  | some _ => .error .panic

/-- The point of a row with a tag and its own time, where the row is not empty and accepted. -/
def Row.point (lib : Library V) (measurement : String) (row : Row V) (source : String) :
    Option (Point V) :=
  match row.fields lib with
  | .error _ => none
  | .ok fields =>
    if row.entries = [] ∨ fields = [] ∨ lib.accepts fields row.ptTimestamp = false then none
    else some ⟨measurement, source, fields, row.timestamp.toNat * 1000⟩

/-- A call returns an error, or every row that is accepted as one point under its own tag, in
order and in batches of at most 5000 points of rows, and a metadata point of the source. -/
def MakesBatches (lib : Library V) (dbName measurement source : String) (data : List (Row V)) :
    Prop :=
  (∃ text, makeBatches lib dbName measurement source data = .error (.error text)) ∨
    ∃ batches, makeBatches lib dbName measurement source data = .ok batches ∧
      batches.flatMap (·.points) =
        data.filterMap (fun row => row.point lib measurement (row.group.getD source)) ∧
      (∀ batch ∈ batches, batch.points.length ≤ 5000) ∧
      ∀ batch ∈ batches, ∀ tag, batch.metadata = some tag → tag = source

/-- The tag that rows leave behind: that of the last group that they name. -/
def carried (source : String) (rows : List (Row V)) : String :=
  (rows.filterMap Row.group).getLastD source

/-- A row that is not empty can be spread out. -/
def Row.Converts (lib : Library V) (row : Row V) : Prop :=
  row.entries = [] ∨ ∃ fields, row.fields lib = .ok fields

/-- A call has a connection, names and rows. -/
def Valid (lib : Library V) (dbName measurement source : String) (data : List (Row V)) : Prop :=
  lib.connected = true ∧ dbName ≠ "" ∧ measurement ≠ "" ∧ source ≠ "" ∧ data ≠ []

/-- A value that cannot become a field of a point. -/
def Value.stops : Value V → Bool
  | .null | .slice => true
  | .maps entries => entries.any fun entry => entry.value.isNone || entry.string.isNone
  | .text _ | .leaf _ => false

/-- The keys of a row that a visit settles: those that an array of maps becomes, and its own. -/
def Fields.settled (fields : Fields V) (keys : List String) (key : String) : List String :=
  if key ∈ keys then keys
  else
    match fields.lookup key with
    | some (.maps entries) =>
      keys ++ key :: entries.filterMap fun entry => entry.value.map (key ++ ·)
    | _ => keys

/-- The first value that cannot become a field, of the keys that are visited before they are
settled. -/
def Fields.firstStop (fields : Fields V) : List String → List String → Option (Value V)
  | _, [] => none
  | keys, key :: rest =>
    (if key ∈ keys then none else (fields.lookup key).filter (·.stops)).or
      (fields.firstStop (fields.settled keys key) rest)

/-- A row names something else than a text as its group, or its first value that cannot become a
field is null. -/
def Row.HasNull (row : Row V) : Prop :=
  (∃ value, row.entries.lookup "ftd_group" = some value ∧ ∀ group, value ≠ .text group) ∨
    row.entries.firstStop [] row.visits = some .null

/-- No row has a null before one is refused. Where none is refused the times of the points fit
into 64 bits as nanoseconds, and every row that is accepted and names no group follows rows whose
last group is the source, as do all rows the metadata. -/
structure KeepsSource (lib : Library V) (measurement source : String) (data : List (Row V)) :
    Prop where
  refused : ∀ before row after, data = before ++ row :: after →
    (∀ earlier ∈ before, earlier.Converts lib) → row.entries ≠ [] → ¬ row.HasNull
  times : (∀ row ∈ data, row.Converts lib) → ∀ row ∈ data,
    (row.point lib measurement source).isSome → row.timestamp.toNat * 1000 < 2 ^ 63
  rows : (∀ row ∈ data, row.Converts lib) → ∀ before row after, data = before ++ row :: after →
    row.group = none → (row.point lib measurement source).isSome → carried source before = source
  metadata : (∀ row ∈ data, row.Converts lib) → lib.acceptsMetadata → carried source data = source

/-! ## One row -/

section Rows

variable {lib : Library V} {measurement : String}

/-- The size of what came before plays no part in what a row becomes. -/
theorem run_addEntry_size (key : String) (entries : List MapEntry) (fields : Fields V)
    (size other : ℕ) : (run (addEntry key) (fields, size) entries).map (·.1) =
      (run (addEntry key) (fields, other) entries).map (·.1) := by
  induction entries generalizing fields size other with
  | nil => rfl
  | cons entry entries ih =>
    rw [run, run]
    rcases entry with ⟨_ | value, _ | string⟩
    · rfl
    · rfl
    · rfl
    · exact ih _ _ _

theorem visitKey_size (state : Fields V) (size other : ℕ) (key : String) :
    (visitKey lib (state, size) key).map (·.1) = (visitKey lib (state, other) key).map (·.1) := by
  rw [visitKey, visitKey]
  dsimp only
  cases state.lookup key with
  | none => rfl
  | some value =>
    cases value with
    | maps entries =>
      have h := run_addEntry_size key entries state size other
      dsimp only
      cases hleft : run (addEntry key) (state, size) entries <;>
        cases hright : run (addEntry key) (state, other) entries <;>
        rw [hleft, hright] at h <;> simp_all [Except.map]
    | _ => rfl

theorem run_visitKey_size (visits : List String) (fields : Fields V) (size other : ℕ) :
    (run (visitKey lib) (fields, size) visits).map (·.1) =
      (run (visitKey lib) (fields, other) visits).map (·.1) := by
  induction visits generalizing fields size other with
  | nil => rfl
  | cons key visits ih =>
    have h := @visitKey_size _ lib fields size other key
    rw [run, run]
    cases hleft : visitKey lib (fields, size) key with
    | error stop =>
      cases hright : visitKey lib (fields, other) key with
      | error stop' =>
        rw [hleft, hright] at h
        simpa [Except.map] using h
      | ok after =>
        rw [hleft, hright] at h
        cases h
    | ok before =>
      cases hright : visitKey lib (fields, other) key with
      | error stop =>
        rw [hleft, hright] at h
        cases h
      | ok after =>
        rw [hleft, hright] at h
        have hsame : before.1 = after.1 := Except.ok.inj h
        obtain ⟨first, size'⟩ := before
        obtain ⟨second, other'⟩ := after
        subst hsame
        exact ih _ _ _

/-- Where the fields of a row have changed, only at keys that are settled. -/
def Changed (fields state : Fields V) (keys : List String) : Prop :=
  ∀ key, (key ∈ keys → state.lookup key = none ∨ ∃ s, state.lookup key = some (.text s)) ∧
    (key ∉ keys → state.lookup key = fields.lookup key)

/-- A field that is deleted is not found, and the others are. -/
theorem lookup_filter_ne (state : Fields V) (key other : String) :
    (state.filter (·.1 ≠ key)).lookup other = if other = key then none else state.lookup other := by
  induction state with
  | nil => simp
  | cons entry state ih =>
    rw [List.filter_cons]
    by_cases hkey : entry.1 = key
    · rw [if_neg (by simpa using hkey), ih, List.lookup_cons, hkey]
      by_cases hother : other = key
      · rw [if_pos hother, if_pos hother]
      · rw [if_neg hother, if_neg hother, beq_eq_false_iff_ne.2 hother]
    · rw [if_pos (by simpa using hkey), List.lookup_cons, List.lookup_cons, ih]
      by_cases hother : other = entry.1
      · subst hother
        simp [hkey]
      · rw [beq_eq_false_iff_ne.2 hother]

/-- An assignment is found, and the other fields stay. -/
theorem lookup_put (state : Fields V) (key other : String) (value : Value V) :
    (state.put key value).lookup other =
      if other = key then some value else state.lookup other := by
  rw [Fields.put, List.lookup_append, lookup_filter_ne]
  by_cases hother : other = key
  · simp [hother]
  · simp [hother, List.lookup_cons, beq_eq_false_iff_ne.2 hother]

/-- The maps of an array become texts, or the array is refused where a map lacks something. -/
theorem run_addEntry (key : String) {fields : Fields V} (entries : List MapEntry)
    (state : Fields V) (size : ℕ) (keys : List String) (hstate : Changed fields state keys) :
    (entries.any (fun entry => entry.value.isNone || entry.string.isNone) = true ∧
      ∃ text, run (addEntry key) (state, size) entries = .error (.error text)) ∨
    (entries.any (fun entry => entry.value.isNone || entry.string.isNone) = false ∧
      ∃ after size', run (addEntry key) (state, size) entries = .ok (after, size') ∧
        Changed fields after
          (keys ++ entries.filterMap fun entry => entry.value.map (key ++ ·))) := by
  induction entries generalizing state size keys with
  | nil => exact Or.inr ⟨rfl, state, size, rfl, by simpa using hstate⟩
  | cons entry entries ih =>
    rcases entry with ⟨_ | value, _ | string⟩
    · exact Or.inl ⟨rfl, _, rfl⟩
    · exact Or.inl ⟨rfl, _, rfl⟩
    · exact Or.inl ⟨rfl, _, rfl⟩
    · have hput : Changed fields (state.put (key ++ value) (.text string))
          (keys ++ [key ++ value]) := by
        intro other
        rw [lookup_put]
        by_cases hother : other = key ++ value
        · simp [hother]
        · simpa [hother] using hstate other
      have hrun := ih (state.put (key ++ value) (.text string))
        (size + (key ++ value).utf8ByteSize + string.utf8ByteSize) (keys ++ [key ++ value]) hput
      simpa [run, addEntry] using hrun

/-- A visit stops at a value that cannot become a field, with a panic where it is null. -/
theorem visitKey_spec (key : String) {fields state : Fields V} (size : ℕ) {keys : List String}
    (hstate : Changed fields state keys) :
    (∃ value stop, key ∉ keys ∧ fields.lookup key = some value ∧ value.stops = true ∧
      visitKey lib (state, size) key = .error stop ∧ (stop = .panic ↔ value = .null)) ∨
    ((if key ∈ keys then none else (fields.lookup key).filter (·.stops)) = none ∧
      ∃ after size', visitKey lib (state, size) key = .ok (after, size') ∧
        Changed fields after (fields.settled keys key)) := by
  by_cases hkey : key ∈ keys
  · right
    have hsettled : fields.settled keys key = keys := if_pos hkey
    rw [if_pos hkey, hsettled, visitKey]
    rcases (hstate key).1 hkey with hnone | ⟨s, htext⟩
    · rw [hnone]
      exact ⟨rfl, state, size, rfl, hstate⟩
    · rw [htext]
      exact ⟨rfl, state, _, rfl, hstate⟩
  · have hlookup := (hstate key).2 hkey
    rw [if_neg hkey, Fields.settled, if_neg hkey, visitKey, hlookup]
    cases hvalue : fields.lookup key with
    | none => exact Or.inr ⟨rfl, state, size, rfl, hstate⟩
    | some value =>
      cases value with
      | null => exact Or.inl ⟨.null, .panic, hkey, rfl, rfl, rfl, by simp⟩
      | text s => exact Or.inr ⟨rfl, state, _, rfl, hstate⟩
      | leaf v => exact Or.inr ⟨rfl, state, _, rfl, hstate⟩
      | slice => exact Or.inl ⟨.slice, _, hkey, rfl, rfl, rfl, by simp⟩
      | maps entries =>
        rcases run_addEntry key entries state size keys hstate with
          ⟨hstops, text, hrun⟩ | ⟨hstops, after, size', hrun, hafter⟩
        · exact Or.inl ⟨.maps entries, .error text, hkey, rfl, hstops, by simp only [hrun], by simp⟩
        · refine Or.inr ⟨by simp [Option.filter, Value.stops, hstops],
            after.filter (·.1 ≠ key), size', by simp only [hrun], ?_⟩
          intro other
          rw [lookup_filter_ne]
          by_cases hother : other = key
          · simp [hother]
          · simpa [hother] using hafter other

/-- The visits of a row panic exactly where the first value that stops them is null. -/
theorem run_visitKey_panic (visits : List String) {fields : Fields V} (state : Fields V)
    (size : ℕ) (keys : List String) (hstate : Changed fields state keys) :
    run (visitKey lib) (state, size) visits = .error .panic ↔
      fields.firstStop keys visits = some .null := by
  induction visits generalizing state size keys with
  | nil => simp [run, Fields.firstStop]
  | cons key visits ih =>
    rw [Fields.firstStop]
    rcases @visitKey_spec _ lib key _ _ size _ hstate with
      ⟨value, stop, hkey, hvalue, hstops, hfails, hpanic⟩ | ⟨hnone, after, size', hnext, hafter⟩
    · rw [run_cons_error hfails, if_neg hkey, hvalue]
      simp [Option.filter, hstops, hpanic]
    · rw [run_cons_ok hnext, hnone, Option.none_or]
      exact ih after size' _ hafter

/-- A row panics exactly where it has a null. -/
theorem fields_eq_panic_iff (row : Row V) : row.fields lib = .error .panic ↔ row.HasNull := by
  have hrun := @run_visitKey_panic _ lib row.visits row.entries row.entries 0 []
    (fun key => ⟨by simp, fun _ => rfl⟩)
  have hmap : (run (visitKey lib) (row.entries, 0) row.visits).map (·.1) = .error .panic ↔
      run (visitKey lib) (row.entries, 0) row.visits = .error .panic := by
    cases run (visitKey lib) (row.entries, 0) row.visits <;> simp [Except.map]
  rw [Row.fields, Row.HasNull]
  cases hgroup : row.entries.lookup "ftd_group" with
  | none => simpa [hmap] using hrun
  | some value =>
    cases value with
    | text group => simpa [hmap] using hrun
    | _ => simp

/-- A number of microseconds keeps its value as nanoseconds exactly where it fits. -/
theorem bmod_nanoseconds_iff (microseconds : ℕ) :
    ((microseconds : ℤ) * 1000).bmod (2 ^ 64) = microseconds * 1000 ↔
      microseconds * 1000 < 2 ^ 63 := by
  constructor
  · intro heq
    have hbound := @Int.bmod_lt ((microseconds : ℤ) * 1000) (2 ^ 64) (by decide)
    rw [heq] at hbound
    norm_num at hbound
    omega
  · intro hfits
    apply Int.bmod_eq_of_le <;> omega

/-- The nanoseconds of a row are those of its own time exactly where they fit. -/
theorem ptTimestamp_eq_iff (row : Row V) :
    row.ptTimestamp = row.timestamp.toNat * 1000 ↔ row.timestamp.toNat * 1000 < 2 ^ 63 :=
  bmod_nanoseconds_iff row.timestamp.toNat

/-- The point of a row with the time that the loop gives to it. -/
def Row.made (lib : Library V) (measurement : String) (row : Row V) (source : String) :
    Option (Point V) :=
  (row.point lib measurement source).map fun point => { point with timestamp := row.ptTimestamp }

/-- The points that the batches have so far. -/
def Building.points (building : Building V) : List (Point V) :=
  building.batches.flatten ++ building.bp

/-- All batches are small. -/
def Building.Small (building : Building V) : Prop :=
  building.bp.length ≤ 5000 ∧ ∀ batch ∈ building.batches, batch.length ≤ 5000

/-- A row adds its point, under its own group or the tag that is there, or stops the loop. -/
theorem addRow_spec (building : Building V) (row : Row V) (hsmall : building.Small) :
    (row.Converts lib ∧ ∃ after, addRow lib measurement building row = .ok after ∧
      after.Small ∧ after.source = row.group.getD building.source ∧
      after.points = building.points ++
        (row.made lib measurement (row.group.getD building.source)).toList) ∨
    (row.entries ≠ [] ∧ ∃ stop, row.fields lib = .error stop ∧
      addRow lib measurement building row = .error stop) := by
  by_cases hempty : row.entries = []
  · have hgroup : row.group = none := by simp [Row.group, hempty]
    have hpoint : row.made lib measurement (row.group.getD building.source) = none := by
      rw [Row.made, Row.point]
      split
      · rfl
      · rw [if_pos (Or.inl hempty), Option.map_none]
    refine Or.inl ⟨Or.inl hempty, building, by rw [addRow, if_pos hempty], hsmall, ?_, ?_⟩
    · rw [hgroup]
      rfl
    · rw [hpoint, Option.toList_none, List.append_nil]
  · have hsizes := @run_visitKey_size _ lib row.visits row.entries building.sizeLowerBound 0
    by_cases hpanic : row.entries.lookup "ftd_group" = none ∨
        ∃ group, row.entries.lookup "ftd_group" = some (.text group)
    · obtain ⟨source, hsource⟩ : ∃ source, source = row.group.getD building.source := ⟨_, rfl⟩
      have hfields : row.fields lib = (run (visitKey lib) (row.entries, 0) row.visits).map (·.1) := by
        rw [Row.fields]
        rcases hpanic with hnone | ⟨group, hgroup⟩
        · rw [hnone]
        · rw [hgroup]
      have hrow : addRow lib measurement building row =
          match run (visitKey lib) (row.entries, building.sizeLowerBound) row.visits with
          | .error stop => .error stop
          | .ok (fields, size) =>
            if fields = [] ∨ lib.accepts fields row.ptTimestamp = false then
              .ok { building with source := source, sizeLowerBound := size }
            else
              if size + measurement.utf8ByteSize + 24 + "source".utf8ByteSize +
                  source.utf8ByteSize ≥ 19000000 ∨ building.bp.length ≥ 5000 then
                .ok ⟨building.batches ++ [building.bp],
                  [⟨measurement, source, fields, row.ptTimestamp⟩], source, 0⟩
              else .ok ⟨building.batches,
                building.bp ++ [⟨measurement, source, fields, row.ptTimestamp⟩], source,
                size + measurement.utf8ByteSize + 24 + "source".utf8ByteSize +
                  source.utf8ByteSize⟩ := by
        rw [addRow, if_neg hempty, hsource, Row.group]
        rcases hpanic with hnone | ⟨group, hgroup⟩
        · rw [hnone]
          rfl
        · rw [hgroup]
          rfl
      rw [hrow, ← hsource]
      cases hrun : run (visitKey lib) (row.entries, building.sizeLowerBound) row.visits with
      | error stop =>
        rw [hrun] at hsizes
        exact Or.inr ⟨hempty, stop, by rw [hfields, ← hsizes]; rfl, rfl⟩
      | ok result =>
        obtain ⟨fields, size⟩ := result
        rw [hrun] at hsizes
        have hok : row.fields lib = .ok fields := by
          rw [hfields, ← hsizes]
          rfl
        have hpoint : row.made lib measurement source =
            if fields = [] ∨ lib.accepts fields row.ptTimestamp = false then none
            else some ⟨measurement, source, fields, row.ptTimestamp⟩ := by
          rw [Row.made, Row.point, hok]
          simp only [hempty, false_or]
          split_ifs <;> rfl
        refine Or.inl ⟨Or.inr ⟨fields, hok⟩, ?_⟩
        rw [hpoint]
        dsimp only
        split_ifs with hskip hfull
        · exact ⟨_, rfl, hsmall, rfl, by simp [Building.points]⟩
        · refine ⟨_, rfl, ⟨by simp, ?_⟩, rfl, by simp [Building.points]⟩
          intro batch hbatch
          rcases List.mem_append.mp hbatch with hbatch | hbatch
          · exact hsmall.2 batch hbatch
          · rw [List.mem_singleton.mp hbatch]
            exact hsmall.1
        · refine ⟨_, rfl, ⟨?_, hsmall.2⟩, rfl, by simp [Building.points]⟩
          rw [not_or] at hfull
          rw [List.length_append, List.length_singleton]
          omega
    · rw [not_or, not_exists] at hpanic
      refine Or.inr ⟨hempty, .panic, ?_, ?_⟩
      · rw [Row.fields]
        split
        · exact absurd ‹_› hpanic.1
        · exact absurd ‹_› (hpanic.2 _)
        · rfl
      · rw [addRow, if_neg hempty]
        split
        · exact absurd ‹_› hpanic.1
        · exact absurd ‹_› (hpanic.2 _)
        · rfl

theorem Building.made_points (building : Building V) :
    (building.made lib).flatMap (·.points) = building.points := by
  rw [Building.made, Building.points, List.flatMap_append, List.flatMap_map, List.flatMap_singleton]
  congr 1
  exact List.flatMap_id

theorem Building.made_small {building : Building V} (h : building.Small) :
    ∀ batch ∈ building.made lib, batch.points.length ≤ 5000 := by
  intro batch hbatch
  rcases List.mem_append.mp hbatch with hbatch | hbatch
  · obtain ⟨points, hpoints, rfl⟩ := List.mem_map.mp hbatch
    exact h.2 points hpoints
  · rw [List.mem_singleton.mp hbatch]
    exact h.1

theorem Building.made_metadata (building : Building V) (source : String) :
    (∀ batch ∈ building.made lib, ∀ tag, batch.metadata = some tag → tag = source) ↔
      (lib.acceptsMetadata → building.source = source) := by
  rw [Building.made, List.forall_mem_append, List.forall_mem_singleton]
  constructor
  · intro h haccepts
    exact h.2 _ (if_pos haccepts)
  · intro h
    constructor
    · intro batch hbatch tag htag
      obtain ⟨points, -, rfl⟩ := List.mem_map.mp hbatch
      cases htag
    · intro tag htag
      split_ifs at htag with haccepts
      exact Option.some.inj htag ▸ h haccepts

/-! ## All rows -/

/-- The points of rows after a tag, each under its own group or the last one before. -/
def carriedPoints (lib : Library V) (measurement : String) : String → List (Row V) →
    List (Point V)
  | _, [] => []
  | source, row :: rows =>
    (row.made lib measurement (row.group.getD source)).toList ++
      carriedPoints lib measurement (row.group.getD source) rows

theorem carried_cons (source : String) (row : Row V) (rows : List (Row V)) :
    carried source (row :: rows) = carried (row.group.getD source) rows := by
  rw [carried, carried, List.filterMap_cons]
  cases row.group with
  | none => rfl
  | some group => rw [Option.getD_some, List.getLastD_cons]

/-- The loop adds the points of all rows, or stops at the first row that stops it. -/
theorem run_addRow (rows : List (Row V)) (building : Building V) (hsmall : building.Small) :
    ((∀ row ∈ rows, row.Converts lib) ∧ ∃ after, run (addRow lib measurement) building rows =
      .ok after ∧ after.Small ∧ after.source = carried building.source rows ∧
      after.points = building.points ++ carriedPoints lib measurement building.source rows) ∨
    ∃ before row after stop, rows = before ++ row :: after ∧
      (∀ earlier ∈ before, earlier.Converts lib) ∧ row.entries ≠ [] ∧
      row.fields lib = .error stop ∧ run (addRow lib measurement) building rows = .error stop := by
  induction rows generalizing building with
  | nil => exact Or.inl ⟨by simp, building, rfl, hsmall, rfl, by simp [carriedPoints]⟩
  | cons row rows ih =>
    rcases @addRow_spec _ lib measurement building row hsmall with
      ⟨hconverts, next, hnext, hnextSmall, hsource, hpoints⟩ | ⟨hne, stop, hstop, hfails⟩
    · rw [run_cons_ok hnext]
      rcases ih next hnextSmall with ⟨hall, after, hafter, hafterSmall, htag, hmore⟩ |
        ⟨before, other, after, stop, rfl, hbefore, hrest⟩
      · refine Or.inl ⟨List.forall_mem_cons.mpr ⟨hconverts, hall⟩, after, hafter, hafterSmall, ?_, ?_⟩
        · rw [htag, hsource, carried_cons]
        · rw [hmore, hpoints, hsource, carriedPoints, List.append_assoc]
      · exact Or.inr ⟨row :: before, other, after, stop, rfl,
          List.forall_mem_cons.mpr ⟨hconverts, hbefore⟩, hrest⟩
    · exact Or.inr ⟨[], row, rows, stop, rfl, by simp, hne, hstop, run_cons_error hfails _⟩

theorem not_converts {row : Row V} {stop : Stop} (hne : row.entries ≠ [])
    (hstop : row.fields lib = .error stop) : ¬ row.Converts lib := by
  rintro (hempty | ⟨fields, hfields⟩)
  · exact hne hempty
  · cases hstop.symm.trans hfields

/-- The first element without a property is the only first one. -/
theorem eq_of_first {α : Type} {p : α → Prop} {before before' after after' : List α} {x y : α}
    (h : before ++ x :: after = before' ++ y :: after') (hbefore : ∀ a ∈ before, p a)
    (hx : ¬ p x) (hbefore' : ∀ a ∈ before', p a) (hy : ¬ p y) : x = y := by
  induction before generalizing before' with
  | nil =>
    cases before' with
    | nil => exact (List.cons.inj h).1
    | cons a rest => exact absurd ((List.cons.inj h).1 ▸ hbefore' a List.mem_cons_self) hx
  | cons a before ih =>
    cases before' with
    | nil => exact absurd ((List.cons.inj h).1 ▸ hbefore a List.mem_cons_self) hy
    | cons b rest =>
      exact ih (List.cons.inj h).2 (List.forall_mem_cons.mp hbefore).2
        (List.forall_mem_cons.mp hbefore').2

/-- A tag does not decide whether a row has a point. -/
theorem point_eq_map (row : Row V) (source other : String) :
    row.point lib measurement source =
      (row.point lib measurement other).map fun point => { point with source := source } := by
  rw [Row.point, Row.point]
  split
  · rfl
  · split_ifs <;> rfl

/-- A point that is made is that of the row exactly where its time fits and its tag is the one
of the row. -/
theorem made_eq_point_iff (row : Row V) (tag source : String) :
    row.made lib measurement tag = row.point lib measurement source ↔
      ((row.point lib measurement source).isSome →
        row.timestamp.toNat * 1000 < 2 ^ 63 ∧ tag = source) := by
  rw [Row.made, point_eq_map row tag source]
  cases hpoint : row.point lib measurement source with
  | none => simp
  | some point =>
    obtain ⟨fields, rfl⟩ : ∃ fields, point =
        ⟨measurement, source, fields, row.timestamp.toNat * 1000⟩ := by
      rw [Row.point] at hpoint
      split at hpoint
      · cases hpoint
      · split_ifs at hpoint
        exact ⟨_, (Option.some.inj hpoint).symm⟩
    simp [ptTimestamp_eq_iff, and_comm]

/-- The points are those of the rows exactly where the times fit and every row without a group
follows rows whose last group is the source. -/
theorem carriedPoints_eq_iff (source tag : String) (rows : List (Row V)) :
    carriedPoints lib measurement tag rows =
        rows.filterMap (fun row => row.point lib measurement (row.group.getD source)) ↔
      (∀ row ∈ rows, (row.point lib measurement source).isSome →
        row.timestamp.toNat * 1000 < 2 ^ 63) ∧
      ∀ before row after, rows = before ++ row :: after → row.group = none →
        (row.point lib measurement source).isSome → carried tag before = source := by
  induction rows generalizing tag with
  | nil => simp [carriedPoints]
  | cons row rows ih =>
    have hsame : (row.point lib measurement (row.group.getD source)).isSome =
        (row.point lib measurement source).isSome := by
      rw [point_eq_map row (row.group.getD source) source, Option.isSome_map]
    have hhead : (row.made lib measurement (row.group.getD tag)).toList =
          (row.point lib measurement (row.group.getD source)).toList ↔
        ((row.point lib measurement source).isSome → row.timestamp.toNat * 1000 < 2 ^ 63) ∧
          (row.group = none → (row.point lib measurement source).isSome → tag = source) := by
      have hlists : ∀ first second : Option (Point V),
          first.toList = second.toList ↔ first = second := by
        rintro (_ | first) (_ | second) <;> simp
      rw [hlists, made_eq_point_iff, hsame]
      cases row.group with
      | some group => simp
      | none =>
        simp only [Option.getD_none, true_implies]
        exact imp_and
    have hsplit : carriedPoints lib measurement tag (row :: rows) =
          (row :: rows).filterMap (fun row => row.point lib measurement (row.group.getD source)) ↔
        (row.made lib measurement (row.group.getD tag)).toList =
            (row.point lib measurement (row.group.getD source)).toList ∧
          carriedPoints lib measurement (row.group.getD tag) rows =
            rows.filterMap fun row => row.point lib measurement (row.group.getD source) := by
      have hlength : (row.made lib measurement (row.group.getD tag)).toList.length =
          (row.point lib measurement (row.group.getD source)).toList.length := by
        rw [Row.made, point_eq_map row (row.group.getD tag) (row.group.getD source)]
        cases row.point lib measurement (row.group.getD source) <;> rfl
      have hcons : (row :: rows).filterMap (fun row => row.point lib measurement (row.group.getD
          source)) = (row.point lib measurement (row.group.getD source)).toList ++
          rows.filterMap fun row => row.point lib measurement (row.group.getD source) := by
        rw [List.filterMap_cons]
        cases row.point lib measurement (row.group.getD source) <;> rfl
      rw [carriedPoints, hcons]
      exact ⟨fun h => List.append_inj h hlength, fun h => by rw [h.1, h.2]⟩
    rw [hsplit, hhead, ih]
    constructor
    · rintro ⟨⟨htime, hfirst⟩, htimes, hrest⟩
      refine ⟨List.forall_mem_cons.mpr ⟨htime, htimes⟩, ?_⟩
      intro before other after heq hgroup hsome
      rcases List.cons_eq_append_iff.mp heq with ⟨rfl, heq⟩ | ⟨before, rfl, heq⟩
      · obtain ⟨rfl, rfl⟩ := List.cons.inj heq
        exact hfirst hgroup hsome
      · rw [carried_cons]
        exact hrest before other after (List.cons.inj heq).2 hgroup hsome
    · rintro ⟨htimes, hall⟩
      obtain ⟨htime, htimes⟩ := List.forall_mem_cons.mp htimes
      refine ⟨⟨htime, fun hgroup hsome => hall [] row rows rfl hgroup hsome⟩, htimes, ?_⟩
      intro before other after heq hgroup hsome
      rw [← carried_cons]
      exact hall (row :: before) other after (by rw [heq]; rfl) hgroup hsome

variable {dbName source : String} {data : List (Row V)}

/-- A call that is not valid is refused. -/
theorem refused_of_not_valid (h : ¬ Valid lib dbName measurement source data) :
    ∃ text, makeBatches lib dbName measurement source data = .error (.error text) := by
  rw [makeBatches]
  split_ifs with hconnected hdb hmeasurement hsource hdata
  · exact ⟨_, rfl⟩
  · exact ⟨_, rfl⟩
  · exact ⟨_, rfl⟩
  · exact ⟨_, rfl⟩
  · exact ⟨_, rfl⟩
  · exact absurd ⟨Bool.not_eq_false _ ▸ hconnected, hdb, hmeasurement, hsource, hdata⟩ h

/-- A valid call makes the batches exactly where the tags do not leak. -/
theorem makesBatches_of_valid (hvalid : Valid lib dbName measurement source data) :
    MakesBatches lib dbName measurement source data ↔ KeepsSource lib measurement source data := by
  obtain ⟨hconnected, hdb, hmeasurement, hsource, hdata⟩ := hvalid
  have hcall : makeBatches lib dbName measurement source data =
      (run (addRow lib measurement) ⟨[], [], source, 0⟩ data).map (·.made lib) := by
    rw [makeBatches, if_neg (by simp [hconnected]), if_neg hdb, if_neg hmeasurement, if_neg hsource,
      if_neg hdata]
  rw [MakesBatches, hcall]
  rcases @run_addRow _ lib measurement data ⟨[], [], source, 0⟩
    ⟨by simp, by simp⟩ with
    ⟨hall, building, hrun, hsmall, htag, hpoints⟩ | ⟨before, row, after, stop, hdata', hbefore, hne,
      hstop, hrun⟩
  · rw [hrun]
    dsimp only at htag hpoints ⊢
    have hnil : (Building.mk [] [] source 0 : Building V).points = [] := rfl
    rw [hnil, List.nil_append] at hpoints
    have hcarried : (building.made lib).flatMap (·.points) =
        carriedPoints lib measurement source data := by rw [building.made_points, hpoints]
    have hmetadata := @Building.made_metadata _ lib building source
    rw [htag] at hmetadata
    constructor
    · rintro (⟨text, htext⟩ | ⟨batches, hbatches, hright, -, htags⟩)
      · cases htext
      · obtain rfl := Except.ok.inj hbatches
        obtain ⟨htimes, hrows⟩ :=
          (carriedPoints_eq_iff source source data).mp (hcarried.symm.trans hright)
        refine ⟨?_, fun _ => htimes, fun _ => hrows, fun _ => hmetadata.mp htags⟩
        intro first row last heq _ hne hnull
        exact not_converts hne ((fields_eq_panic_iff row).mpr hnull) (hall row (heq ▸ by simp))
    · intro hkeeps
      refine Or.inr ⟨_, rfl, ?_, Building.made_small hsmall, hmetadata.mpr (hkeeps.metadata hall)⟩
      rw [hcarried]
      exact (carriedPoints_eq_iff source source data).mpr ⟨hkeeps.times hall, hkeeps.rows hall⟩
  · rw [hrun]
    have hnot : ¬ ∀ row ∈ data, row.Converts lib := fun hall =>
      not_converts hne hstop (hall row (hdata' ▸ by simp))
    constructor
    · rintro (⟨text, htext⟩ | ⟨batches, hbatches, -⟩)
      · refine ⟨?_, fun hall => absurd hall hnot, fun hall => absurd hall hnot,
          fun hall => absurd hall hnot⟩
        intro first other last heq hfirst hother hnull
        have hpanic : other.fields lib = .error .panic := (fields_eq_panic_iff other).mpr hnull
        have hother' : ¬ other.Converts lib := not_converts hother hpanic
        have hsame := eq_of_first (hdata'.symm.trans heq) hbefore (not_converts hne hstop) hfirst
          hother'
        rw [hsame, hpanic] at hstop
        cases (Except.error.inj hstop).trans (Except.error.inj htext)
      · cases hbatches
    · intro hkeeps
      cases stop with
      | panic =>
        exact absurd ((fields_eq_panic_iff row).mp hstop)
          (hkeeps.refused before row after hdata' hbefore hne)
      | error text => exact Or.inl ⟨text, rfl⟩

end Rows

end HybridOs.InfluxBatches
