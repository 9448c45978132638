import HybridOs.GoValue
import Mathlib.Data.List.AList
import Mathlib.Data.List.Induction
import Mathlib.Data.List.Sort
import Mathlib.Data.String.Basic

/-!
# Columns of a Parquet archive

The schema of an encoder is made from the first message body it is given, with a column for
every field that has a value there. Every body then becomes a row. The rows are right exactly
where no field is named like a protected one, every field has its value in the first body, and
what is wrapped can be encoded.
-/

namespace HybridOs.ParquetCodec

/-- The body of a message, its fields in the order of an iteration over the map. -/
abbrev Body := AList fun _ : String => GoValue

/-- A field of a body. -/
abbrev Field := Σ _ : String, GoValue

/-- A key and a value of no primitive type. -/
abbrev TypeError := String × GoValue

/-- `strings.TrimPrefix`. -/
def TrimPrefix (s pre : String) : String :=
  if pre.toList <+: s.toList then String.ofList (s.toList.drop pre.length) else s

/-- Whether `strings.ToLower` of the key is timestamp. Of the letters that are not ASCII only
the dotted capital I has one of these in lower case. -/
def isTimestamp (key : String) : Bool :=
  key.toList.map (fun c => if c = 'İ' then 'i' else c.toLower) = "timestamp".toList

/-- `extractEncodableValue`. -/
def extractEncodableValue : GoValue → GoValue
  | .map entries => (entries.lookup "value").getD .nil
  | .float64 bits => .float64 bits
  | .bool b => .bool b
  | .string s => .string s
  | _ => .nil

/-- The primitive type of a value, and what is added to the schema for it. -/
def primitiveType : GoValue → Option (String × String)
  | .bool _ => some ("BOOLEAN", "")
  | .float64 _ => some ("DOUBLE", "")
  | .string _ => some ("BYTE_ARRAY", ", convertedtype=UTF8, encoding=PLAIN_DICTIONARY")
  | _ => none

/-- `generateCSV`. -/
def generateCSV (key : String) (value : GoValue) : Except TypeError String :=
  match primitiveType value with
  | none => .error (key, value)
  | some (primitive, add_schema) =>
    .ok ("name=" ++ key ++ ", type=" ++ primitive ++ ", repetitiontype=OPTIONAL" ++ add_schema)

/-- The metadata of the keys that have been seen, and the errors so far. -/
structure KeyMap where
  keymap : AList fun _ : String => String
  errs : List TypeError

/-- The column of a key, where there is no row metadata. -/
def columnOf (key : String) : String := if key = "time" then "body__" ++ key else key

/-- One field of a body. -/
def KeyMap.addField (seen : KeyMap) (field : Field) : KeyMap :=
  if field.1 ∈ seen.keymap then seen
  else if isTimestamp field.1 then seen
  else
    match extractEncodableValue field.2 with
    | .nil => seen
    | val =>
      match generateCSV (columnOf field.1) val with
      | .error err => { seen with errs := seen.errs ++ [err] }
      | .ok md => { seen with keymap := seen.keymap.insert (columnOf field.1) md }

/-- The schema and the list of keys, or the errors. -/
def KeyMap.schema (seen : KeyMap) : Except (List TypeError) (List String × List String) :=
  let keylist := seen.keymap.keys.mergeSort
  let schema := "name=time, type=INT64" ::
    keylist.map fun key => (seen.keymap.lookup key).getD ""
  if seen.errs = [] then .ok (schema, keylist) else .error seen.errs

/-- The fields of a body. -/
def KeyMap.addBody (seen : KeyMap) (body : Body) : KeyMap :=
  body.entries.foldl KeyMap.addField seen

/-- `CreateSchema` without row metadata. -/
def CreateSchema (data : List Body) : Except (List TypeError) (List String × List String) :=
  (data.foldl KeyMap.addBody ⟨∅, []⟩).schema

/-- The value under a key of a body. -/
def readField (body : Body) (key : String) : GoValue :=
  match body.lookup key with
  | none => .nil
  | some val => extractEncodableValue val

/-- The values that `WriteOne` puts after the timestamp; what is read is deleted. -/
def writeValues : List String → Body → List GoValue
  | [], _ => []
  | key :: keylist, body =>
    let key := TrimPrefix key "body__"
    readField body key :: writeValues keylist (body.erase key)

/-- The row of `WriteOne` without row metadata. -/
def WriteOne (keylist : List String) (body : Body) (timestamp : UInt64) : List GoValue :=
  .int timestamp.toInt64.toInt :: writeValues keylist body

/-- What a writer has been given: its schema and the rows under it. -/
structure Table where
  Schema : List String
  rows : List (List GoValue)

/-- The encoder. -/
structure Encoder where
  Keylist : List String
  Schema : List String
  Writer : Option Table
  MsgCount : ℕ

/-- `NewEncoder`. -/
def NewEncoder : Encoder := ⟨[], ["name=time, type=INT64"], none, 0⟩

/-- A row of the encoder is written. -/
def Encoder.write (encoder : Encoder) (table : Table) (bodyMap : Body) (ts : UInt64) : Encoder :=
  { encoder with
    Writer := some { table with rows := table.rows ++ [WriteOne encoder.Keylist bodyMap ts] }
    MsgCount := encoder.MsgCount + 1 }

/-- `Encode`: the encoder after it, or the errors of the schema. -/
def Encoder.Encode (encoder : Encoder) (bodyMap : Body) (ts : UInt64) :
    Except (List TypeError) Encoder :=
  match encoder.Writer with
  | some table => .ok (encoder.write table bodyMap ts)
  | none =>
    if encoder.Schema.length = 1 then
      match CreateSchema [bodyMap] with
      | .error errs => .error errs
      | .ok (schema, keylist) =>
        let encoder := { encoder with Schema := schema, Keylist := keylist }
        .ok (encoder.write ⟨schema, []⟩ bodyMap ts)
    else .ok (encoder.write ⟨encoder.Schema, []⟩ bodyMap ts)

/-- A message, with the time at which it is encoded. -/
abbrev Message := Body × UInt64

/-- A message that cannot be encoded leaves the encoder as it is. -/
def Encoder.next (encoder : Encoder) (message : Message) : Encoder :=
  match encoder.Encode message.1 message.2 with
  | .ok encoder => encoder
  | .error _ => encoder

/-- An encoder after a sequence of messages. -/
def encoded (messages : List Message) : Encoder := messages.foldl Encoder.next NewEncoder

/-- The table of an encoder; one without a writer has no rows. -/
def Encoder.table (encoder : Encoder) : Table := encoder.Writer.getD ⟨encoder.Schema, []⟩

/-! ## What the table is to hold -/

/-- The value of a field that can be encoded, naked or wrapped. -/
def encodableValue : GoValue → Option GoValue
  | .map entries => (entries.lookup "value").filter fun val => (primitiveType val).isSome
  | val => some val |>.filter fun val => (primitiveType val).isSome

/-- The encodable value of a key in a body. -/
def valueAt (body : Body) (key : String) : Option GoValue :=
  (body.lookup key).bind encodableValue

/-- The key has an encodable value in some message. -/
def HasValue (messages : List Message) (key : String) : Prop :=
  ∃ message ∈ messages, (valueAt message.1 key).isSome

/-- There is a row for every message and a column of its own for every key with a value, and the
column holds in every row the value of that message. -/
structure HoldsValues (messages : List Message) (encoder : Encoder) : Prop where
  rows : encoder.table.rows.length = messages.length
  column : ∀ key, HasValue messages key → columnOf key ∈ encoder.Keylist
  apart : ∀ key key', HasValue messages key → HasValue messages key' →
    columnOf key = columnOf key' → key = key'
  only : ∀ column ∈ encoder.Keylist, ∃ key, HasValue messages key ∧ columnOf key = column
  named : ∀ (j : ℕ) column, encoder.Keylist[j]? = some column →
    ∃ val, (encoder.table.Schema[j + 1]?).map Except.ok = some (generateCSV column val)
  values : ∀ key, HasValue messages key → ∀ j : ℕ, encoder.Keylist[j]? = some (columnOf key) →
    ∀ (n : ℕ) message, messages[n]? = some message →
      (encoder.table.rows[n]?).bind (·[j + 1]?) = some ((valueAt message.1 key).getD .nil)

/-- What is extracted has a primitive type. -/
def Typed (val : GoValue) : Prop := (primitiveType (extractEncodableValue val)).isSome

/-- What is extracted is null, or has a primitive type. -/
def Extracts (val : GoValue) : Prop := extractEncodableValue val = .nil ∨ Typed val

/-- Every field of the body has a type or none is needed; its name may also be that of a column
that an earlier field has made. -/
def Typable (fields : List Field) : Prop :=
  ∀ before field after, fields = before ++ field :: after →
    Extracts field.2 ∨ ∃ other ∈ before, Typed other.2 ∧ columnOf other.1 = field.1

/-- The messages after which the table holds the values. -/
structure Holdable (messages : List Message) (first : Body) : Prop where
  typable : Typable first.entries
  unprefixed : ∀ key, HasValue messages key → ¬ "body__".toList <+: key.toList
  early : ∀ key, HasValue messages key → (valueAt first key).isSome
  extracts : ∀ key, (valueAt first key).isSome → ∀ message ∈ messages, ∀ val,
    message.1.lookup key = some val → Extracts val

/-! ## Names of columns -/

theorem TrimPrefix_append (pre s : String) : TrimPrefix (pre ++ s) pre = s := by
  rw [TrimPrefix, String.toList_append, if_pos (List.prefix_append _ _), ← String.length_toList,
    List.drop_left, String.ofList_toList]

theorem TrimPrefix_columnOf {key : String} (h : ¬ "body__".toList <+: key.toList) :
    TrimPrefix (columnOf key) "body__" = key := by
  rw [columnOf]
  split_ifs
  · exact TrimPrefix_append _ _
  · rw [TrimPrefix, if_neg h]

theorem columnOf_ne_time (key : String) : columnOf key ≠ "time" := by
  rw [columnOf]
  split_ifs with htime
  · rw [htime]
    decide
  · exact htime

theorem encodableValue_eq (val : GoValue) : encodableValue val =
    (some (extractEncodableValue val)).filter fun val => (primitiveType val).isSome := by
  cases val with
  | map entries =>
    rw [encodableValue, extractEncodableValue]
    cases entries.lookup "value" <;> rfl
  | _ => rfl

theorem valueAt_eq (body : Body) (key : String) : valueAt body key =
    (some (readField body key)).filter fun val => (primitiveType val).isSome := by
  rw [valueAt, readField]
  cases body.lookup key with
  | none => rfl
  | some val => exact encodableValue_eq val

section Fields

variable {body : Body} {key : String}

theorem valueAt_isSome : (valueAt body key).isSome ↔ (primitiveType (readField body key)).isSome := by
  rw [valueAt_eq]
  cases hsome : (primitiveType (readField body key)).isSome <;> simp [Option.filter, hsome]

theorem valueAt_getD (h : (valueAt body key).isSome) :
    (valueAt body key).getD .nil = readField body key := by
  rw [valueAt_isSome] at h
  rw [valueAt_eq]
  simp [Option.filter, h]

theorem valueAt_getD_ne_nil (h : (valueAt body key).isSome) : (valueAt body key).getD .nil ≠ .nil := by
  rw [valueAt_getD h]
  rw [valueAt_isSome] at h
  intro hnil
  rw [hnil] at h
  cases h

/-- A key has an encodable value where its field has a typed one. -/
theorem valueAt_isSome_iff_exists :
    (valueAt body key).isSome ↔ ∃ field ∈ body.entries, Typed field.2 ∧ field.1 = key := by
  rw [valueAt_isSome, readField]
  constructor
  · intro h
    cases hval : body.lookup key with
    | none =>
      rw [hval] at h
      cases h
    | some val =>
      rw [hval] at h
      exact ⟨⟨key, val⟩, AList.mem_lookup_iff.mp hval, h, rfl⟩
  · rintro ⟨⟨key, val⟩, hmem, htyped, rfl⟩
    rw [AList.mem_lookup_iff.mpr hmem]
    exact htyped

/-- What is read for a field is its value exactly where that is null or has a type. -/
theorem readField_eq_iff {val : GoValue} (hval : body.lookup key = some val) :
    readField body key = (valueAt body key).getD .nil ↔ Extracts val := by
  have hread : readField body key = extractEncodableValue val := by rw [readField, hval]
  rw [Extracts, Typed, ← hread, ← valueAt_isSome]
  by_cases hsome : (valueAt body key).isSome
  · simp [valueAt_getD hsome, hsome]
  · simp [Option.not_isSome_iff_eq_none.mp hsome]

end Fields

/-! ## The schema -/

variable {fields : List Field} {field : Field}

theorem typable_concat : Typable (fields ++ [field]) ↔ Typable fields ∧
    (Extracts field.2 ∨ ∃ other ∈ fields, Typed other.2 ∧ columnOf other.1 = field.1) := by
  constructor
  · intro h
    refine ⟨fun before f after heq => h before f (after ++ [field]) ?_, h fields field [] rfl⟩
    rw [heq, List.append_assoc, List.cons_append]
  · rintro ⟨hfields, hfield⟩ before f after heq
    rcases List.eq_nil_or_concat' after with rfl | ⟨after, last, rfl⟩
    · obtain ⟨rfl, hlast⟩ := List.append_inj' heq rfl
      cases hlast
      exact hfield
    · rw [← List.cons_append, ← List.append_assoc] at heq
      exact hfields before f after (List.append_inj' heq rfl).1

/-- What is known of the keys after some fields. -/
structure Made (fields : List Field) (seen : KeyMap) : Prop where
  column : ∀ column, column ∈ seen.keymap ↔
    ∃ field ∈ fields, Typed field.2 ∧ columnOf field.1 = column
  named : ∀ column md, seen.keymap.lookup column = some md →
    ∃ val, generateCSV column val = .ok md
  errs : seen.errs = [] ↔ Typable fields

theorem Made.addField {seen : KeyMap} (h : Made fields seen) (hkey : isTimestamp field.1 = false) :
    Made (fields ++ [field]) (seen.addField field) := by
  have hcolumn (column : String) : (∃ f ∈ fields ++ [field], Typed f.2 ∧ columnOf f.1 = column) ↔
      column ∈ seen.keymap ∨ Typed field.2 ∧ columnOf field.1 = column := by
    rw [h.column]
    simp [or_and_right, exists_or]
  have hothers := h.column field.1
  rw [KeyMap.addField, hkey, if_neg Bool.false_ne_true]
  split_ifs with hseen
  · refine ⟨fun column => ?_, h.named, ?_⟩
    · rw [hcolumn, iff_self_or]
      rintro ⟨-, rfl⟩
      obtain ⟨other, -, -, hother⟩ := hothers.mp hseen
      rwa [columnOf, if_neg (hother ▸ columnOf_ne_time other.1)]
    · rw [typable_concat, ← hothers, h.errs]
      simp [hseen]
  · split
    · rename_i hnil
      refine ⟨fun column => ?_, h.named, ?_⟩
      · rw [hcolumn]
        simp [Typed, hnil, primitiveType]
      · rw [typable_concat, h.errs]
        simp [Extracts, hnil]
    · rename_i val hne
      cases htype : primitiveType (extractEncodableValue field.2) with
      | none =>
        rw [generateCSV, htype]
        refine ⟨fun column => ?_, h.named, ?_⟩
        · rw [hcolumn]
          simp [Typed, htype]
        · rw [typable_concat, ← hothers]
          simpa [hseen, Extracts, Typed, htype] using fun _ => hne
      | some type =>
        have htyped : Typed field.2 := by rw [Typed, htype]; rfl
        rw [generateCSV, htype]
        refine ⟨fun column => ?_, fun column md hmd => ?_, ?_⟩
        · rw [hcolumn, AList.mem_insert, or_comm]
          simp [htyped, eq_comm]
        · by_cases heq : column = columnOf field.1
          · subst heq
            rw [AList.lookup_insert] at hmd
            exact ⟨_, by rw [generateCSV, htype, ← Option.some.inj hmd]⟩
          · rw [AList.lookup_insert_ne heq] at hmd
            exact h.named column md hmd
        · rw [typable_concat, h.errs]
          simp [Extracts, htyped]

theorem made_foldl (fields : List Field) (hkeys : ∀ field ∈ fields, isTimestamp field.1 = false) :
    Made fields (fields.foldl KeyMap.addField ⟨∅, []⟩) := by
  induction fields using List.reverseRecOn with
  | nil => exact ⟨by simp, by simp, by simp [Typable]⟩
  | append_singleton fields field ih =>
    rw [List.foldl_append]
    exact Made.addField (ih fun f hf => hkeys f (List.mem_append_left _ hf))
      (hkeys field (by simp))

/-- The schema of a body has a column for every key with an encodable value. -/
theorem CreateSchema_spec {body : Body} (hkeys : ∀ key ∈ body, isTimestamp key = false) :
    (Typable body.entries → ∃ schema keylist, CreateSchema [body] = .ok (schema, keylist) ∧
      keylist.Nodup ∧
      (∀ column, column ∈ keylist ↔ ∃ key, (valueAt body key).isSome ∧ columnOf key = column) ∧
      ∀ (j : ℕ) column, keylist[j]? = some column →
        ∃ val, (schema[j + 1]?).map Except.ok = some (generateCSV column val)) ∧
    (¬ Typable body.entries → ∃ errs, CreateSchema [body] = .error errs) := by
  have hmade := made_foldl body.entries fun field hmem =>
    hkeys field.1 (AList.mem_keys.mpr (List.mem_map_of_mem hmem))
  have hschema : CreateSchema [body] = (body.entries.foldl KeyMap.addField ⟨∅, []⟩).schema := rfl
  rw [hschema, KeyMap.schema]
  constructor
  · intro htypable
    rw [if_pos (hmade.errs.mpr htypable)]
    refine ⟨_, _, rfl, ?_, fun column => ?_, fun j column hcolumn => ?_⟩
    · exact (List.mergeSort_perm _ _).nodup_iff.mpr (AList.keys_nodup _)
    · rw [List.mem_mergeSort, ← AList.mem_keys, hmade.column]
      constructor
      · rintro ⟨field, hmem, htyped, rfl⟩
        exact ⟨field.1, valueAt_isSome_iff_exists.mpr ⟨field, hmem, htyped, rfl⟩, rfl⟩
      · rintro ⟨key, hsome, rfl⟩
        obtain ⟨field, hmem, htyped, rfl⟩ := valueAt_isSome_iff_exists.mp hsome
        exact ⟨field, hmem, htyped, rfl⟩
    · have hmem := List.mem_of_getElem? hcolumn
      rw [List.mem_mergeSort, ← AList.mem_keys, ← AList.lookup_isSome] at hmem
      obtain ⟨md, hmd⟩ := Option.isSome_iff_exists.mp hmem
      obtain ⟨val, hval⟩ := hmade.named column md hmd
      exact ⟨val, by simp [hcolumn, hmd, hval]⟩
  · intro htypable
    rw [if_neg (mt hmade.errs.mp htypable)]
    exact ⟨_, rfl⟩

/-! ## The rows -/

/-- The value of a column is that of its field, and nothing where an earlier column has taken the
field. -/
theorem writeValues_getElem? {keylist : List String} {j : ℕ} {column : String}
    (h : keylist[j]? = some column) (body : Body) :
    (writeValues keylist body)[j]? = some (readField body (TrimPrefix column "body__")) ∧
        (∀ i < j, ∀ other, keylist[i]? = some other →
          TrimPrefix other "body__" ≠ TrimPrefix column "body__") ∨
      (writeValues keylist body)[j]? = some .nil ∧
        ∃ i < j, ∃ other, keylist[i]? = some other ∧
          TrimPrefix other "body__" = TrimPrefix column "body__" := by
  induction keylist generalizing j body with
  | nil => cases h
  | cons first keylist ih =>
    rw [writeValues]
    cases j with
    | zero =>
      cases h
      exact Or.inl ⟨rfl, fun i hi => absurd hi (Nat.not_lt_zero i)⟩
    | succ j =>
      rw [List.getElem?_cons_succ] at h ⊢
      rcases ih h (body.erase (TrimPrefix first "body__")) with
        ⟨hvalue, hfree⟩ | ⟨hnil, i, hi, other, hother, hsame⟩
      · by_cases hfirst : TrimPrefix first "body__" = TrimPrefix column "body__"
        · refine Or.inr ⟨?_, 0, Nat.succ_pos j, first, rfl, hfirst⟩
          rw [hvalue, hfirst, readField, AList.lookup_erase]
        · refine Or.inl ⟨?_, fun i hi other hother => ?_⟩
          · rw [hvalue, readField, AList.lookup_erase_ne (Ne.symm hfirst), readField]
          · cases i with
            | zero =>
              cases hother
              exact hfirst
            | succ i => exact hfree i (Nat.lt_of_succ_lt_succ hi) other hother
      · exact Or.inr ⟨hnil, i + 1, Nat.succ_lt_succ hi, other, hother, hsame⟩

/-- An encoder with a writer adds a row for every message. -/
theorem foldl_next (messages : List Message) (encoder : Encoder) (table : Table)
    (h : encoder.Writer = some table) :
    (messages.foldl Encoder.next encoder).Keylist = encoder.Keylist ∧
      (messages.foldl Encoder.next encoder).Writer = some ⟨table.Schema,
        table.rows ++ messages.map fun message => WriteOne encoder.Keylist message.1 message.2⟩ := by
  induction messages generalizing encoder table with
  | nil => simp [h]
  | cons message messages ih =>
    have hnext : encoder.next message = encoder.write table message.1 message.2 := by
      rw [Encoder.next, Encoder.Encode, h]
    rw [List.foldl_cons, hnext]
    obtain ⟨hkeylist, hwriter⟩ := ih (encoder.write table message.1 message.2) _ rfl
    refine ⟨hkeylist, ?_⟩
    rw [hwriter]
    simp [Encoder.write]

theorem next_rows (encoder : Encoder) (message : Message) :
    (encoder.next message).table.rows.length ≤ encoder.table.rows.length + 1 := by
  rw [Encoder.next, Encoder.Encode]
  cases hwriter : encoder.Writer with
  | some table => simp [Encoder.write, Encoder.table, hwriter]
  | none =>
    dsimp only
    split_ifs
    · cases CreateSchema [message.1] with
      | error errs => simp
      | ok made => simp [Encoder.write, Encoder.table]
    · simp [Encoder.write, Encoder.table]

theorem foldl_rows (messages : List Message) (encoder : Encoder) :
    (messages.foldl Encoder.next encoder).table.rows.length ≤
      encoder.table.rows.length + messages.length := by
  induction messages generalizing encoder with
  | nil => simp
  | cons message messages ih =>
    have hrest := ih (encoder.next message)
    have hnext := next_rows encoder message
    rw [List.foldl_cons, List.length_cons]
    omega

section Runs

variable {first : Message} {rest : List Message}

/-- After a first body that has no schema the rows are too few. -/
theorem typable_of_rows (hkeys : ∀ key ∈ first.1, isTimestamp key = false)
    (hrows : (encoded (first :: rest)).table.rows.length = (first :: rest).length) :
    Typable first.1.entries := by
  by_contra htypable
  obtain ⟨errs, herrs⟩ := (CreateSchema_spec hkeys).2 htypable
  have hnext : NewEncoder.next first = NewEncoder := by
    simp [Encoder.next, Encoder.Encode, NewEncoder, herrs]
  have hle := foldl_rows rest NewEncoder
  rw [encoded, List.foldl_cons, hnext, List.length_cons] at hrows
  have hnone : NewEncoder.table.rows.length = 0 := rfl
  omega

/-- After a first body with a schema there is a row for every message. -/
theorem encoded_spec (rest : List Message)
    (hkeys : ∀ key ∈ first.1, isTimestamp key = false) (htypable : Typable first.1.entries) :
    (encoded (first :: rest)).Keylist.Nodup ∧
    (∀ column, column ∈ (encoded (first :: rest)).Keylist ↔
      ∃ key, (valueAt first.1 key).isSome ∧ columnOf key = column) ∧
    (∀ (j : ℕ) column, (encoded (first :: rest)).Keylist[j]? = some column →
      ∃ val, ((encoded (first :: rest)).table.Schema[j + 1]?).map Except.ok =
        some (generateCSV column val)) ∧
    (encoded (first :: rest)).table.rows = (first :: rest).map fun message =>
      WriteOne (encoded (first :: rest)).Keylist message.1 message.2 := by
  obtain ⟨schema, keylist, hschema, hnodup, hcolumns, hnamed⟩ :=
    (CreateSchema_spec hkeys).1 htypable
  have hnext : NewEncoder.next first =
      Encoder.write ⟨keylist, schema, none, 0⟩ ⟨schema, []⟩ first.1 first.2 := by
    simp [Encoder.next, Encoder.Encode, NewEncoder, hschema]
  obtain ⟨hkeylist, hwriter⟩ := foldl_next rest (NewEncoder.next first)
    ⟨schema, [WriteOne keylist first.1 first.2]⟩ (by rw [hnext]; rfl)
  have hencoded : (NewEncoder.next first).Keylist = keylist := by rw [hnext]; rfl
  rw [hencoded] at hkeylist hwriter
  rw [encoded, List.foldl_cons, Encoder.table, hwriter, hkeylist]
  exact ⟨hnodup, hcolumns, hnamed, rfl⟩

end Runs

/-! ## When the table holds the values -/

section Holding

variable {messages : List Message} {encoder : Encoder} {message : Message} {key : String}

theorem exists_eq_append (h : "body__".toList <+: key.toList) : ∃ s, key = "body__" ++ s := by
  obtain ⟨chars, hchars⟩ := h
  refine ⟨String.ofList chars, ?_⟩
  rw [← String.toList_inj, ← hchars]
  simp

section Rows

variable (h : HoldsValues messages encoder)
  (hrows : encoder.table.rows = messages.map fun message =>
    WriteOne encoder.Keylist message.1 message.2)
include h hrows

/-- What the column of a key holds in a row. -/
theorem HoldsValues.value (hkey : HasValue messages key) {j : ℕ} (hj : encoder.Keylist[j]? = some (columnOf key))
    (hmem : message ∈ messages) : (writeValues encoder.Keylist message.1)[j]? =
      some ((valueAt message.1 key).getD .nil) := by
  obtain ⟨n, hn⟩ := List.mem_iff_getElem?.mp hmem
  have hvalue := h.values key hkey j hj n message hn
  rw [hrows, List.getElem?_map, hn] at hvalue
  exact hvalue

/-- No key with the prefix has an encodable value: two columns would read one field. -/
theorem HoldsValues.unprefixed (s : String) : ¬ HasValue messages ("body__" ++ s) := by
  induction hlength : s.length using Nat.strong_induction_on generalizing s with
  | _ length ih =>
    intro hkey
    have hcolumn : columnOf ("body__" ++ s) = "body__" ++ s := by
      rw [columnOf, if_neg]
      intro htime
      have hlist := congrArg String.toList htime
      rw [String.toList_append] at hlist
      cases hlist
    obtain ⟨message, hmem, hsome⟩ := id hkey
    obtain ⟨j, hj⟩ := List.mem_iff_getElem?.mp (h.column _ hkey)
    have hvalue := h.value hrows hkey hj hmem
    have hne := valueAt_getD_ne_nil hsome
    rw [hcolumn] at hj
    rcases writeValues_getElem? hj message.1 with ⟨hread, hfree⟩ | ⟨hnil, -⟩
    · rw [TrimPrefix_append] at hread hfree
      rw [hvalue, Option.some_inj] at hread
      -- The column holds the value of the shorter key.
      have hs : (valueAt message.1 s).isSome := by
        rw [valueAt_isSome, ← hread, valueAt_getD hsome]
        exact valueAt_isSome.mp hsome
      have hshort : HasValue messages s := ⟨message, hmem, hs⟩
      by_cases hprefix : "body__".toList <+: s.toList
      · obtain ⟨shorter, rfl⟩ := exists_eq_append hprefix
        refine ih shorter.length ?_ shorter rfl hshort
        rw [← hlength, String.length_append]
        exact Nat.lt_add_of_pos_left (by decide)
      · obtain ⟨i, hi⟩ := List.mem_iff_getElem?.mp (h.column s hshort)
        have hvalue' := h.value hrows hshort hi hmem
        rcases writeValues_getElem? hi message.1 with ⟨-, hfree'⟩ | ⟨hnil, -⟩
        · rw [TrimPrefix_columnOf hprefix] at hfree'
          rcases Nat.lt_trichotomy i j with hlt | rfl | hgt
          · exact hfree i hlt _ hi (TrimPrefix_columnOf hprefix)
          · rw [hi] at hj
            have hsame := h.apart s ("body__" ++ s) hshort hkey
              ((Option.some.inj hj).trans hcolumn.symm)
            have hlengths := congrArg String.length hsame
            rw [String.length_append] at hlengths
            exact absurd hlengths (by simp)
          · exact hfree' j hgt _ hj (TrimPrefix_append _ _)
        · rw [hvalue', Option.some_inj] at hnil
          exact valueAt_getD_ne_nil hs hnil
    · rw [hvalue, Option.some_inj] at hnil
      exact hne hnil

end Rows

/-- Where no key with a value has the prefix, every column reads the field of its key. -/
theorem writeValues_of_unprefixed {keylist : List String} (hnodup : keylist.Nodup)
    (hcolumns : ∀ column ∈ keylist, ∃ key, HasValue messages key ∧ columnOf key = column)
    (hunprefixed : ∀ key, HasValue messages key → ¬ "body__".toList <+: key.toList)
    (hkey : HasValue messages key) {j : ℕ} (hj : keylist[j]? = some (columnOf key))
    (body : Body) : (writeValues keylist body)[j]? = some (readField body key) := by
  have htrim := TrimPrefix_columnOf (hunprefixed key hkey)
  rcases writeValues_getElem? hj body with ⟨hread, -⟩ | ⟨-, i, hi, other, hother, hsame⟩
  · rw [hread, htrim]
  · obtain ⟨key', hkey', rfl⟩ := hcolumns other (List.mem_of_getElem? hother)
    rw [TrimPrefix_columnOf (hunprefixed key' hkey'), htrim] at hsame
    subst hsame
    have hindex := (List.getElem?_inj (List.getElem?_eq_some_iff.mp hother).1 hnodup).mp
      (hother.trans hj.symm)
    omega

end Holding

section Main

variable {first : Message} {rest : List Message}

theorem HoldsValues.holdable (hkeys : ∀ key ∈ first.1, isTimestamp key = false)
    (h : HoldsValues (first :: rest) (encoded (first :: rest))) :
    Holdable (first :: rest) first.1 := by
  have htypable := typable_of_rows hkeys h.rows
  obtain ⟨hnodup, hcolumns, -, hrows⟩ := encoded_spec rest hkeys htypable
  have hunprefixed : ∀ key, HasValue (first :: rest) key → ¬ "body__".toList <+: key.toList := by
    intro key hkey hprefix
    obtain ⟨s, rfl⟩ := exists_eq_append hprefix
    exact h.unprefixed hrows s hkey
  refine ⟨htypable, hunprefixed, fun key hkey => ?_, fun key hsome message hmem val hval => ?_⟩
  · obtain ⟨key', hsome, hsame⟩ := (hcolumns _).mp (h.column key hkey)
    have hkey' : HasValue (first :: rest) key' := ⟨first, List.mem_cons_self, hsome⟩
    rwa [← h.apart key' key hkey' hkey hsame]
  · have hkey : HasValue (first :: rest) key := ⟨first, List.mem_cons_self, hsome⟩
    obtain ⟨j, hj⟩ := List.mem_iff_getElem?.mp (h.column key hkey)
    have hvalue := h.value hrows hkey hj hmem
    rwa [writeValues_of_unprefixed hnodup h.only hunprefixed hkey hj, Option.some_inj,
      readField_eq_iff hval] at hvalue

theorem Holdable.holdsValues (hkeys : ∀ key ∈ first.1, isTimestamp key = false)
    (h : Holdable (first :: rest) first.1) :
    HoldsValues (first :: rest) (encoded (first :: rest)) := by
  obtain ⟨hnodup, hcolumns, hnamed, hrows⟩ := encoded_spec rest hkeys h.typable
  have honly : ∀ column ∈ (encoded (first :: rest)).Keylist,
      ∃ key, HasValue (first :: rest) key ∧ columnOf key = column := by
    intro column hmem
    obtain ⟨key, hsome, heq⟩ := (hcolumns column).mp hmem
    exact ⟨key, ⟨first, List.mem_cons_self, hsome⟩, heq⟩
  refine ⟨by rw [hrows, List.length_map], fun key hkey => ?_, fun key key' hkey hkey' hsame => ?_,
    honly, hnamed, fun key hkey j hj n message hn => ?_⟩
  · exact (hcolumns _).mpr ⟨key, h.early key hkey, rfl⟩
  · rw [← TrimPrefix_columnOf (h.unprefixed key hkey), hsame,
      TrimPrefix_columnOf (h.unprefixed key' hkey')]
  · rw [hrows, List.getElem?_map, hn]
    refine (writeValues_of_unprefixed hnodup honly h.unprefixed hkey hj message.1).trans ?_
    rw [Option.some_inj]
    cases hval : message.1.lookup key with
    | none => rw [valueAt, readField, hval, Option.bind_none, Option.getD_none]
    | some val =>
      rw [readField_eq_iff hval]
      exact h.extracts key (h.early key hkey) message (List.mem_of_getElem? hn) val hval

end Main

/-- The table holds the values exactly where the first body has a type for every field, no key
with a value has the prefix, and every value is in the first body and can be encoded. -/
theorem holdsValues_iff (messages : List Message)
    (hkeys : ∀ message ∈ messages, ∀ key ∈ message.1, isTimestamp key = false) :
    HoldsValues messages (encoded messages) ↔
      ∀ first ∈ messages.head?, Holdable messages first.1 := by
  cases messages with
  | nil =>
    simp only [List.head?_nil, Option.not_mem_none, false_imp_iff, implies_true, iff_true]
    exact ⟨rfl, by simp [HasValue], by simp [HasValue], by simp [encoded, NewEncoder],
      by simp [encoded, NewEncoder], by simp⟩
  | cons first rest =>
    have hfirst := hkeys first List.mem_cons_self
    simp only [List.head?_cons, Option.mem_some_iff, forall_eq']
    exact ⟨HoldsValues.holdable hfirst, Holdable.holdsValues hfirst⟩

/-- A message with one field, whose key has the prefix of a protected one. -/
def prefixedMessage : Message := (AList.singleton "body__soc" (.bool true), 0)

theorem isTimestamp_prefixedMessage : ∀ key ∈ prefixedMessage.1, isTimestamp key = false := by
  intro key hkey
  obtain rfl : key = "body__soc" := List.mem_singleton.mp (AList.mem_keys.mp hkey)
  decide

/-- A message with two fields. -/
def statusMessage (on : Bool) (soc : ℤ) (time : UInt64) : Message :=
  ((AList.singleton "on" (.bool on)).insert "soc" (.int soc), time)

theorem isTimestamp_statusMessage (on : Bool) (soc : ℤ) (time : UInt64) :
    ∀ key ∈ (statusMessage on soc time).1, isTimestamp key = false := by
  intro key hkey
  rcases (AList.mem_insert _).mp hkey with rfl | hkey
  · decide
  · obtain rfl : key = "on" := List.mem_singleton.mp (AList.mem_keys.mp hkey)
    decide

/-- Two messages, of which the second has a new value of each field. -/
theorem holdsValues_iff_twoMessages :
    HoldsValues [statusMessage true 50 0, statusMessage false 51 1]
        (encoded [statusMessage true 50 0, statusMessage false 51 1]) ↔
      ∀ first ∈ [statusMessage true 50 0, statusMessage false 51 1].head?,
        Holdable [statusMessage true 50 0, statusMessage false 51 1] first.1 := by
  refine holdsValues_iff _ fun message hmem => ?_
  rcases List.mem_pair.mp hmem with rfl | rfl
  · exact isTimestamp_statusMessage true 50 0
  · exact isTimestamp_statusMessage false 51 1

/-- The field is not in its column. -/
theorem holdsValues_fails : ¬ HoldsValues [prefixedMessage] (encoded [prefixedMessage]) := fun h =>
  (h.holdable isTimestamp_prefixedMessage).unprefixed "body__soc"
    ⟨_, List.mem_singleton_self _, rfl⟩ (by decide)

end HybridOs.ParquetCodec
