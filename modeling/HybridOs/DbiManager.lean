import Mathlib.Algebra.Ring.Int.Defs
import Mathlib.Algebra.Ring.Nat
import Mathlib.Data.Finmap
import Mathlib.Data.List.Basic

/-!
# Documents of the database interface

A document is a tree of objects, arrays and scalars. Its fields are read, edited and deleted
along a path, the field text split at its slashes. A slice that is made too long panics, which
is no result.
-/

namespace HybridOs.Dbi

/-- A JSON value; a scalar is a boolean, a number or a time. -/
inductive Value (N : Type) where
  | null
  | scalar (n : N)
  | text (s : String)
  | array (xs : List (Value N))
  | object (fields : List (String × Value N))

/-- The fields of an object, with no name twice. -/
abbrev Fields (N : Type) := List (String × Value N)

/-- Why a request fails. -/
inductive Failure where
  | notEnoughFrags
  | nothingFound
  | collectionNotFound
  | documentNotFound
  | fieldNotFound
  | badIndex
  | outOfBounds
  | protectedField
  | badBody
  /-- A call of the database failed. -/
  | mongo
  deriving DecidableEq

/-! ## Texts of integers -/

/-- The value of a text of digits. -/
def digits : List Char → ℕ → Option ℕ
  | [], value => some value
  | c :: rest, value => if c.isDigit then digits rest (10 * value + (c.toNat - 48)) else none

/-- An integer clamped to those of 64 bits, and whether it is one of them. -/
def clampInt (value : ℤ) : ℤ × Bool :=
  if 2 ^ 63 ≤ value then (2 ^ 63 - 1, false)
  else if value < -2 ^ 63 then (-2 ^ 63, false)
  else (value, true)

/-- The digits after a sign, as an integer. -/
def signedDigits (negative : Bool) (text : List Char) : ℤ × Bool :=
  if text = [] then (0, false)
  else
    match digits text 0 with
    | none => (0, false)
    | some value => clampInt (if negative then -(value : ℤ) else value)

/-- `strconv.Atoi`: the integer that is returned, and whether there is no error. -/
def Atoi (text : String) : ℤ × Bool :=
  match text.toList with
  | '-' :: rest => signedDigits true rest
  | '+' :: rest => signedDigits false rest
  | all => signedDigits false all

/-- The longest slice of values there is address space for: 2 ^ 48 bytes, of 16 each. -/
def maxSliceLen : ℕ := 2 ^ 44

/-! ## Fields -/

variable {N : Type}

/-- The field under a name is set. -/
def setField (name : String) (value : Value N) : Fields N → Fields N
  | [] => [(name, value)]
  | (other, old) :: rest =>
    if other = name then (name, value) :: rest else (other, old) :: setField name value rest

/-- The field under a name is deleted. -/
def deleteName (name : String) (fields : Fields N) : Fields N :=
  fields.filter fun entry => entry.1 ≠ name

/-- Every one of some fields is set. -/
def mergeFields (fields new : Fields N) : Fields N :=
  new.foldl (fun fields entry => setField entry.1 entry.2 fields) fields

/-- The value of a field, or nil. -/
def fieldOrNull (name : String) (fields : Fields N) : Value N :=
  (fields.lookup name).getD .null

variable (name : String) (isSet : Bool) (frag : String) (rest : List String) (fields : Fields N)
  (insert : Value N)

/-- The first field of a name counts. -/
theorem lookup_cons_ite (entry : String × Value N) (rest : Fields N) :
    (entry :: rest : Fields N).lookup name =
      if name = entry.1 then some entry.2 else rest.lookup name := by
  rw [List.lookup_cons]
  by_cases h : name = entry.1
  · have hbeq : (name == entry.1) = true := by simp [h]
    rw [hbeq, if_pos h]
  · have hbeq : (name == entry.1) = false := by simp [h]
    rw [hbeq, if_neg h]

/-- Setting a field changes the lookup of its name only. -/
theorem lookup_setField (other : String) (value : Value N) (fields : Fields N) :
    (setField name value fields).lookup other =
      if other = name then some value else fields.lookup other := by
  induction fields with
  | nil =>
    rw [setField, lookup_cons_ite]
  | cons entry rest ih =>
    rw [setField]
    by_cases hentry : entry.1 = name
    · rw [if_pos hentry, lookup_cons_ite, lookup_cons_ite, hentry]
      by_cases h : other = name
      · rw [if_pos h, if_pos h]
      · rw [if_neg h, if_neg h, if_neg h]
    · rw [if_neg hentry, lookup_cons_ite, lookup_cons_ite, ih]
      by_cases h : other = entry.1
      · have hne : other ≠ name := fun heq => hentry (h.symm.trans heq)
        rw [if_pos h, if_neg hne, if_pos h]
      · rw [if_neg h, if_neg h]

/-- A deleted name is not found. -/
theorem lookup_deleteName (other : String) (fields : Fields N) :
    (deleteName name fields).lookup other = if other = name then none else fields.lookup other := by
  induction fields with
  | nil => simp [deleteName]
  | cons entry rest ih =>
    rw [lookup_cons_ite]
    by_cases hentry : entry.1 = name
    · have hdelete : deleteName name (entry :: rest) = deleteName name rest := by
        simp [deleteName, hentry]
      rw [hdelete, ih, hentry]
      by_cases h : other = name
      · rw [if_pos h, if_pos h]
      · rw [if_neg h, if_neg h, if_neg h]
    · have hdelete : deleteName name (entry :: rest) = entry :: deleteName name rest := by
        simp [deleteName, hentry]
      rw [hdelete, lookup_cons_ite, ih]
      by_cases h : other = entry.1
      · have hne : other ≠ name := fun heq => hentry (h.symm.trans heq)
        rw [if_pos h, if_neg hne, if_pos h]
      · rw [if_neg h, if_neg h]

/-- Setting a field to the value that it has changes nothing. -/
theorem setField_same {name : String} {value : Value N} {fields : Fields N}
    (h : fields.lookup name = some value) : setField name value fields = fields := by
  induction fields with
  | nil => cases h
  | cons entry rest ih =>
    rw [lookup_cons_ite] at h
    rw [setField]
    by_cases hentry : entry.1 = name
    · rw [if_pos hentry.symm] at h
      rw [if_pos hentry, ← hentry, ← Option.some.inj h]
    · rw [if_neg (Ne.symm hentry)] at h
      rw [if_neg hentry, ih h]

/-! ## GET -/

/-- `getFieldRecursive`: the value at a path in a layer. -/
def getFieldRecursive : List String → Value N → Except Failure (Value N)
  | [], layer => .ok layer
  | frag :: rest, layer =>
    match layer with
    | .object fields =>
      match fields.lookup frag with
      | none => .error .fieldNotFound
      | some next => getFieldRecursive rest next
    | .array xs =>
      let index := Atoi frag
      if index.2 = false then .error .badIndex
      else if index.1 < 0 then .error .outOfBounds
      else
        match xs[index.1.toNat]? with
        | none => .error .outOfBounds
        | some next => getFieldRecursive rest next
    | layer => if rest = [] then .ok layer else .error .fieldNotFound

/-! ## POST and SET -/

/-- The content of an object with the field "value" only. -/
def Value.unwrap : Value N → Value N
  | .object [(name, value)] => if name = "value" then value else .object [(name, value)]
  | value => value

/-- A layer to edit: where there is none, an object is made for it. A number that is too large
for an integer makes a slice that is too long. -/
def layerFor (frag : String) : Value N → Option (Value N)
  | .null => if (Atoi frag).2 = false ∧ 0 < (Atoi frag).1 then none else some (.object [])
  | layer => some layer

/-- What is inserted into a layer at the end of a path. -/
def Value.integrate (isSet : Bool) : Value N → Value N → Value N
  | .object fields, .object new => .object (if isSet then new else mergeFields fields new)
  | .array xs, .array new => .array (if isSet then new else xs ++ new)
  | _, insert => insert

/-- A slice with nil up to an index. -/
def fillTo (index : ℕ) (xs : List (Value N)) : List (Value N) :=
  xs ++ List.replicate (index + 1 - xs.length) .null

/-- `editFieldRecursive`: the layer after an edit, also where it fails; no result where it
panics. A path that is empty, or an empty fragment, ends it. -/
def editFieldRecursive (isSet : Bool) : List String → Value N → Value N →
    Option (Value N × Option Failure)
  | [], layer, insert =>
    (layerFor "" layer).map fun layer => (layer.integrate isSet insert.unwrap, none)
  | frag :: rest, layer, insert =>
    (layerFor frag layer).bind fun layer =>
      if frag = "" ∧ rest = [] then some (layer.integrate isSet insert.unwrap, none)
      else
        match layer with
        | .object fields =>
          (editFieldRecursive isSet rest (fieldOrNull frag fields) insert.unwrap).map
            fun edited => (.object (setField frag edited.1 fields), edited.2)
        | .array xs =>
          let index := Atoi frag
          if index.2 = false then some (.array xs, some .badIndex)
          else if index.1 < 0 then some (.array xs, some .outOfBounds)
          else if xs.length ≤ index.1.toNat ∧ maxSliceLen < index.1.toNat + 1 then none
          else
            let xs := fillTo index.1.toNat xs
            (editFieldRecursive isSet rest (xs.getD index.1.toNat .null) insert.unwrap).map
              fun edited => (.array (xs.set index.1.toNat edited.1), edited.2)
        | _ => some (insert.unwrap, none)

/-- An edit goes into the field that the first fragment names. -/
theorem editFieldRecursive_object :
    editFieldRecursive isSet (frag :: rest) (.object fields) insert =
      if frag = "" ∧ rest = [] then
        some (Value.integrate isSet (.object fields) insert.unwrap, none) else
        (editFieldRecursive isSet rest (fieldOrNull frag fields) insert.unwrap).map
          fun edited => (.object (setField frag edited.1 fields), edited.2) := by
  rw [editFieldRecursive]
  rfl

/-- An edit goes into the element that the first fragment numbers. -/
theorem editFieldRecursive_array (xs : List (Value N)) (insert : Value N) :
    editFieldRecursive isSet (frag :: rest) (.array xs) insert =
      if frag = "" ∧ rest = [] then some (Value.integrate isSet (.array xs) insert.unwrap, none)
      else if (Atoi frag).2 = false then some (.array xs, some .badIndex)
      else if (Atoi frag).1 < 0 then some (.array xs, some .outOfBounds)
      else if xs.length ≤ (Atoi frag).1.toNat ∧ maxSliceLen < (Atoi frag).1.toNat + 1 then none else
        (editFieldRecursive isSet rest
          ((fillTo (Atoi frag).1.toNat xs).getD (Atoi frag).1.toNat .null) insert.unwrap).map
          fun edited => (.array ((fillTo (Atoi frag).1.toNat xs).set (Atoi frag).1.toNat edited.1),
            edited.2) := by
  rw [editFieldRecursive]
  rfl

/-- A scalar is replaced. -/
theorem editFieldRecursive_scalar (n : N) (insert : Value N) :
    editFieldRecursive isSet (frag :: rest) (.scalar n) insert = some (insert.unwrap, none) := by
  rw [editFieldRecursive]
  simp [layerFor, Value.integrate]

/-- A text is replaced. -/
theorem editFieldRecursive_text (s : String) (insert : Value N) :
    editFieldRecursive isSet (frag :: rest) (.text s) insert = some (insert.unwrap, none) := by
  rw [editFieldRecursive]
  simp [layerFor, Value.integrate]

/-! ## DELETE -/

/-- `deleteFieldRecursive`: the layer after a deletion, or why it fails. -/
def deleteFieldRecursive : List String → Value N → Value N × Option Failure
  | [], layer => (layer, some .fieldNotFound)
  | frag :: rest, layer =>
    match layer with
    | .object fields =>
      match fields.lookup frag with
      | none => (.object fields, some .fieldNotFound)
      | some next =>
        if rest = [] then (.object (deleteName frag fields), none)
        else
          let deleted := deleteFieldRecursive rest next
          (.object (setField frag deleted.1 fields), deleted.2)
    | .array xs =>
      let index := Atoi frag
      if index.2 = false then (.array xs, some .badIndex)
      else if index.1 < 0 then (.array xs, some .outOfBounds)
      else
        match xs[index.1.toNat]? with
        | none => (.array xs, some .outOfBounds)
        | some next =>
          if rest = [] then (.array (xs.eraseIdx index.1.toNat), none)
          else
            let deleted := deleteFieldRecursive rest next
            (.array (xs.set index.1.toNat deleted.1), deleted.2)
    | layer => (layer, some .fieldNotFound)

/-! ## A failure changes nothing -/

variable {xs : List (Value N)}

/-- Setting an element to itself changes nothing. -/
theorem set_same {i : ℕ} {x : Value N} (h : xs[i]? = some x) : xs.set i x = xs := by
  obtain ⟨hi, hx⟩ := List.getElem?_eq_some_iff.1 h
  rw [← hx, List.set_getElem_self]

/-- A list that is long enough is not filled. -/
theorem fillTo_of_lt {index : ℕ} (h : index < xs.length) : fillTo index xs = xs := by
  have hfill : index + 1 - xs.length = 0 := by omega
  rw [fillTo, hfill, List.replicate_zero, List.append_nil]

/-- A filled element is null. -/
theorem getD_fillTo_of_le {index : ℕ} (h : xs.length ≤ index) :
    (fillTo index xs).getD index .null = .null := by
  rw [fillTo, List.getD_eq_getElem?_getD, List.getElem?_append_right h, List.getElem?_replicate]
  split <;> rfl

/-- An edit where there is no layer does not fail. -/
theorem editFieldRecursive_null {isSet : Bool} {frags : List String} {insert : Value N}
    {edited : Value N × Option Failure}
    (h : editFieldRecursive isSet frags .null insert = some edited) : edited.2 = none := by
  induction frags generalizing insert edited with
  | nil =>
    obtain ⟨layer, _, rfl⟩ := Option.map_eq_some_iff.1 h
    rfl
  | cons frag rest ih =>
    have hobject : editFieldRecursive isSet (frag :: rest) (.object []) insert = some edited := by
      rw [editFieldRecursive, Option.bind_eq_some_iff] at h
      obtain ⟨layer, hlayer, h⟩ := h
      rw [layerFor] at hlayer
      split at hlayer
      · cases hlayer
      · obtain rfl := Option.some.inj hlayer
        exact h
    rw [editFieldRecursive_object] at hobject
    split at hobject
    · obtain rfl := Option.some.inj hobject
      rfl
    · obtain ⟨below, hbelow, rfl⟩ := Option.map_eq_some_iff.1 hobject
      have hnone := ih hbelow
      exact hnone

/-- An edit that fails leaves the layer as it is. -/
theorem editFieldRecursive_failed {isSet : Bool} {frags : List String}
    {layer insert after : Value N} {e : Failure}
    (h : editFieldRecursive isSet frags layer insert = some (after, some e)) : after = layer := by
  induction frags generalizing layer insert after with
  | nil =>
    obtain ⟨_, _, heq⟩ := Option.map_eq_some_iff.1 h
    cases heq
  | cons frag rest ih =>
    cases layer with
    | null =>
      have hnone := editFieldRecursive_null h
      cases hnone
    | object fields =>
      rw [editFieldRecursive_object] at h
      split at h
      · cases h
      · obtain ⟨below, hbelow, heq⟩ := Option.map_eq_some_iff.1 h
        obtain ⟨value, failure⟩ := below
        cases heq
        cases hlookup : fields.lookup frag with
        | none =>
          have hnull : fieldOrNull frag fields = .null := by rw [fieldOrNull, hlookup]; rfl
          rw [hnull] at hbelow
          have hnone := editFieldRecursive_null hbelow
          cases hnone
        | some next =>
          have hnext : fieldOrNull frag fields = next := by rw [fieldOrNull, hlookup]; rfl
          rw [hnext] at hbelow
          rw [ih hbelow, setField_same hlookup]
    | array xs =>
      rw [editFieldRecursive_array] at h
      split at h
      · cases h
      · split at h
        · cases h
          rfl
        · split at h
          · cases h
            rfl
          · split at h
            · cases h
            · obtain ⟨below, hbelow, heq⟩ := Option.map_eq_some_iff.1 h
              obtain ⟨value, failure⟩ := below
              cases heq
              by_cases hin : (Atoi frag).1.toNat < xs.length
              · have hget : xs[(Atoi frag).1.toNat]? = some xs[(Atoi frag).1.toNat] :=
                  List.getElem?_eq_getElem hin
                rw [fillTo_of_lt hin, List.getD_eq_getElem?_getD, hget, Option.getD_some] at hbelow
                rw [fillTo_of_lt hin, ih hbelow, set_same hget]
              · rw [getD_fillTo_of_le (by omega)] at hbelow
                have hnone := editFieldRecursive_null hbelow
                cases hnone
    | scalar n =>
      rw [editFieldRecursive_scalar] at h
      cases h
    | text s =>
      rw [editFieldRecursive_text] at h
      cases h

/-!
## The document manager of the database interface

The manager keeps a local copy of two databases and answers requests from it. Edits and
deletions are made in the copy and then in MongoDB, through a connector that may fail at any
call and that is a parameter. A write into a map that is missing panics, which is no result.
-/

/-- A map with texts as keys. -/
abbrev Map (A : Type) := Finmap fun _ : String => A

/-- A collection in the local copy. -/
abbrev Collection (N : Type) := Map (Fields N)

/-- A database in the local copy. -/
abbrev Database (N : Type) := Map (Collection N)

variable {N M : Type}

/-- The connector to MongoDB: each call goes on from a state of the server to another, and
may fail. -/
structure MongoConnector (N M : Type) where
  /-- `ReplaceDocument` with the field `_id`, inserting the document where there is none. -/
  ReplaceDocument (db collection : String) (document : Fields N) : M → Bool × M
  /-- `DeleteDocument` with a value of the field `_id`. -/
  DeleteDocument (db collection document : String) : M → Bool × M
  DeleteCollection (db collection : String) : M → Bool × M
  ExtractDB (db : String) : M → Option (List (String × List (Fields N))) × M

/-- The manager and the server. -/
structure State (N M : Type) where
  localData : Map (Database N)
  mongo : M

/-- The reply to a request. -/
inductive Answer (N : Type) where
  | names (keys : Finset String)
  | documents (docs : Collection N)
  | document (fields : Fields N)
  | value (v : Value N)
  | success

/-- What a request comes to: a reply or a failure, and the state after it; no result where it
panics. -/
abbrev Outcome (N M : Type) := Option (Except Failure (Answer N) × State N M)

/-- A method of a request. -/
inductive Method where
  | get
  | post
  | set
  | delete
  deriving DecidableEq

/-- A request: its method, the fragments of its URI behind `/dbi`, and its body. -/
structure Request (N : Type) where
  method : Method
  uri : List String
  body : Value N

namespace State

/-! ## The local copy -/

/-- `localData[db][collection]`. -/
def collection? (state : State N M) (db collection : String) : Option (Collection N) :=
  (state.localData.lookup db).bind (·.lookup collection)

/-- `localData[db][collection][document]`. -/
def document? (state : State N M) (db collection document : String) : Option (Fields N) :=
  (state.collection? db collection).bind (·.lookup document)

/-- `localData[db][collection] = docs`. -/
def putCollection (state : State N M) (db collection : String) (docs : Collection N) :
    Option (State N M) :=
  (state.localData.lookup db).map fun colls =>
    { state with localData := state.localData.insert db (colls.insert collection docs) }

/-- `localData[db][collection][document] = fields`. -/
def putDocument (state : State N M) (db collection document : String) (fields : Fields N) :
    Option (State N M) :=
  (state.collection? db collection).bind fun docs =>
    state.putCollection db collection (docs.insert document fields)

/-- An empty map where a collection is missing. -/
def ensureCollection (state : State N M) (db collection : String) : Option (State N M) :=
  match state.collection? db collection with
  | some _ => some state
  | none => state.putCollection db collection ∅

/-- `delete(localData[db], collection)`. -/
def dropCollection (state : State N M) (db collection : String) : State N M :=
  match state.localData.lookup db with
  | none => state
  | some colls =>
    { state with localData := state.localData.insert db (colls.erase collection) }

/-- `delete(localData[db][collection], document)`. -/
def dropDocument (state : State N M) (db collection document : String) : State N M :=
  match state.localData.lookup db, state.collection? db collection with
  | some colls, some docs =>
    { state with
      localData := state.localData.insert db (colls.insert collection (docs.erase document)) }
  | _, _ => state

/-! ## GET -/

/-- `listCollections`. -/
def listCollections (state : State N M) : Finset String :=
  ((state.localData.lookup "dbi").map (·.keys)).getD ∅

/-- `getCollection`. -/
def getCollection (state : State N M) (db collection : String) : Except Failure (Collection N) :=
  match state.collection? db collection with
  | some docs => .ok docs
  | none => .error .collectionNotFound

/-- `getDocument`. -/
def getDocument (state : State N M) (db collection document : String) :
    Except Failure (Fields N) := do
  let docs ← state.getCollection db collection
  match docs.lookup document with
  | some fields => .ok fields
  | none => .error .documentNotFound

/-- `getField`. -/
def getField (state : State N M) (db collection document : String) (field : List String) :
    Except Failure (Value N) := do
  let fields ← state.getDocument db collection document
  getFieldRecursive field (.object fields)

/-- `listDocuments`. -/
def listDocuments (state : State N M) (collection : String) : Finset String :=
  ((state.collection? "dbi" collection).map (·.keys)).getD ∅

/-- `listDocumentsMap`. -/
def listDocumentsMap (state : State N M) (collection : String) : Collection N :=
  (state.collection? "dbi" collection).getD ∅

/-- `GET`. -/
def GET (state : State N M) (db : String) : List String → Except Failure (Answer N)
  | [] => .error .notEnoughFrags
  | [collection] =>
    if collection = "show_collections" then
      if state.listCollections = ∅ then .error .nothingFound
      else .ok (.names state.listCollections)
    else (state.getCollection db collection).map .documents
  | [collection, document] =>
    if document = "show_documents" then
      if state.listDocuments collection = ∅ then .error .nothingFound
      else .ok (.names (state.listDocuments collection))
    else if document = "show_map" then
      if (state.listDocumentsMap collection).keys = ∅ then .error .nothingFound
      else .ok (.documents (state.listDocumentsMap collection))
    else (state.getDocument db collection document).map .document
  | collection :: document :: field =>
    (state.getField db collection document field).map .value

end State

/-! ## Metadata -/

/-- The metadata of a document. -/
def withMetaData (document : String) (now : N) (fields : Fields N) : Fields N :=
  setField "_version" (.scalar now) (setField "_id" (.text document) fields)

/-- A document without its metadata. -/
def stripped (fields : Fields N) : Fields N := deleteName "_version" (deleteName "_id" fields)

variable (conn : MongoConnector N M) (now : N)

/-- The reply of a call that may fail. -/
def Answer.unless (ok : Bool) (answer : Answer N) : Except Failure (Answer N) :=
  if ok then .ok answer else .error .mongo

namespace State

/-! ## Calls of the server -/

/-- `updateMetaData` and `syncDocument`: the document is sent with its metadata, which are
deleted afterwards. -/
def syncDocument (state : State N M) (db collection document : String) :
    Option (Bool × State N M) :=
  match state.document? db collection document with
  | none => some (false, state)
  | some fields =>
    let sent := withMetaData document now fields
    let reply := conn.ReplaceDocument db collection sent state.mongo
    (state.putDocument db collection document (stripped sent)).map fun state =>
      (reply.1, { state with mongo := reply.2 })

/-! ## POST and SET -/

/-- The fields of a document after an edit of all of it. -/
def editedFields (old : Option (Fields N)) (new : Fields N) (isSet : Bool) : Fields N :=
  match old with
  | none => new
  | some old => if isSet then new else mergeFields old new

/-- `editDocument`. -/
def editDocument (state : State N M) (db collection document : String) (body : Value N)
    (isSet : Bool) : Outcome N M :=
  (state.ensureCollection db collection).bind fun state =>
    match body with
    | .object new =>
      let fields := editedFields (state.document? db collection document) new isSet
      (state.putDocument db collection document fields).bind fun state =>
        (state.syncDocument conn now db collection document).map fun synced =>
          (Answer.unless synced.1 (.document (stripped (withMetaData document now fields))),
            synced.2)
    | _ => some (.error .badBody, state)

/-- The documents of a body are edited one after the other; what fails is logged. -/
def editDocuments (db collection : String) : Fields N → State N M → Option (State N M)
  | [], state => some state
  | (name, body) :: rest, state =>
    (state.editDocument conn now db collection name body false).bind fun edited =>
      editDocuments db collection rest edited.2

/-- `editCollection`. -/
def editCollection (state : State N M) (db collection : String) (documents : Value N)
    (isSet : Bool) : Outcome N M :=
  let cleared :=
    if isSet then
      (state.putCollection db collection ∅).map fun state =>
        { state with mongo := (conn.DeleteCollection db collection state.mongo).2 }
    else some state
  cleared.bind fun state =>
    match documents with
    | .object docs =>
      (state.editDocuments conn now db collection docs).map fun state =>
        (.ok (.documents ((state.collection? db collection).getD ∅)), state)
    | _ => some (.error .badBody, state)

/-- The document after an edit at a path, which is made in place: at the end of an empty path
only a merge changes it. -/
def editRoot (isSet : Bool) (field : List String) (fields : Fields N) (data : Value N) :
    Option (Fields N × Option Failure) :=
  (editFieldRecursive isSet field (.object fields) data).map fun edited =>
    match edited.1 with
    | .object new => (if (field = [] ∨ field = [""]) ∧ isSet then fields else new, edited.2)
    | _ => (fields, edited.2)

/-- `editField`. -/
def editField (state : State N M) (db collection document : String) (field : List String)
    (data : Value N) (isSet : Bool) : Outcome N M :=
  if field = ["_id"] ∨ field = ["_version"] then some (.error .protectedField, state)
  else
    (state.ensureCollection db collection).bind fun state =>
      let before := (state.document? db collection document).getD []
      (editRoot isSet field before data).bind fun edited =>
        (state.putDocument db collection document edited.1).bind fun state =>
          match edited.2 with
          | some failure => some (.error failure, state)
          | none =>
            (state.syncDocument conn now db collection document).map fun synced =>
              (Answer.unless synced.1
                (.document (stripped (withMetaData document now edited.1))), synced.2)

/-! ## DELETE -/

/-- `deleteCollection`. -/
def deleteCollection (state : State N M) (db collection : String) : Outcome N M :=
  match state.getCollection db collection with
  | .error e => some (.error e, state)
  | .ok _ =>
    let state := state.dropCollection db collection
    let reply := conn.DeleteCollection db collection state.mongo
    some (Answer.unless reply.1 (.names state.listCollections), { state with mongo := reply.2 })

/-- `deleteDocument`. -/
def deleteDocument (state : State N M) (db collection document : String) : Outcome N M :=
  match state.getDocument db collection document with
  | .error e => some (.error e, state)
  | .ok _ =>
    let state := state.dropDocument db collection document
    let reply := conn.DeleteDocument db collection document state.mongo
    some (Answer.unless reply.1 (.names (state.listDocuments collection)),
      { state with mongo := reply.2 })

/-- `deleteField`. -/
def deleteField (state : State N M) (db collection document : String) (field : List String) :
    Outcome N M :=
  match state.getDocument db collection document with
  | .error e => some (.error e, state)
  | .ok fields =>
    let deleted := deleteFieldRecursive field (.object fields)
    match deleted with
    | (.object after, none) =>
      (state.putDocument db collection document after).bind fun state =>
        (state.syncDocument conn now db collection document).map fun synced =>
          (Answer.unless synced.1 (.document (stripped (withMetaData document now after))),
            synced.2)
    | (_, some failure) => some (.error failure, state)
    | _ => some (.error .fieldNotFound, state)

/-! ## Extraction -/

/-- The name of a document that comes from the server, where its `_id` is a text. -/
def nameOf (body : Fields N) : Option String :=
  match body.lookup "_id" with
  | some (.text name) => some name
  | _ => none

/-- The documents of a collection that comes from the server. -/
def extractDocs (docs : List (Fields N)) : Collection N :=
  docs.foldl (fun coll body =>
    match nameOf body with
    | some name => coll.insert name (stripped body)
    | none => coll) ∅

/-- The collections that come from the server. -/
def extractCollections (data : List (String × List (Fields N))) : Database N :=
  data.foldl (fun colls entry => colls.insert entry.1 (extractDocs entry.2)) ∅

/-- `extractDB`: whether it succeeds, and the state after it. -/
def extractDB (state : State N M) (db : String) : Bool × State N M :=
  match conn.ExtractDB db state.mongo with
  | (none, mongo) => (false, { state with mongo := mongo })
  | (some data, mongo) =>
    (true, ⟨state.localData.insert db (extractCollections data), mongo⟩)

/-- `extractDBs`. -/
def extractDBs (state : State N M) : Bool × State N M :=
  match extractDB conn { state with localData := ∅ } "dbi" with
  | (false, state) => (false, state)
  | (true, state) => extractDB conn state "audit"

/-! ## Requests -/

/-- `POST`. -/
def POST (state : State N M) (db : String) (body : Value N) : List String → Outcome N M
  | [] => some (.error .notEnoughFrags, state)
  | [collection] => state.editCollection conn now db collection body false
  | [collection, document] => state.editDocument conn now db collection document body false
  | collection :: document :: field =>
    state.editField conn now db collection document field body false

/-- `SET`. -/
def SET (state : State N M) (db : String) (body : Value N) : List String → Outcome N M
  | [] => some (.error .notEnoughFrags, state)
  | [collection] =>
    if collection = "resync" then
      let extracted := state.extractDBs conn
      some (Answer.unless extracted.1 .success, extracted.2)
    else state.editCollection conn now db collection body true
  | [collection, document] => state.editDocument conn now db collection document body true
  | collection :: document :: field =>
    state.editField conn now db collection document field body true

/-- `DELETE`. -/
def DELETE (state : State N M) (db : String) : List String → Outcome N M
  | [] => some (.error .notEnoughFrags, state)
  | [collection] => state.deleteCollection conn db collection
  | [collection, document] => state.deleteDocument conn db collection document
  | collection :: document :: field => state.deleteField conn now db collection document field

end State

/-- The database and the path of a request: under `/dbi/audit` it is the collection `log` of
the database `audit`. -/
def Request.path (request : Request N) : String × List String :=
  match request.uri with
  | "audit" :: rest => ("audit", "log" :: rest)
  | uri => ("dbi", uri)

/-- The main loop on a request, with the time at which it is handled. -/
def State.handle (state : State N M) (request : Request N) : Outcome N M :=
  let path := request.path
  match request.method with
  | .get => some (state.GET path.1 path.2, state)
  | .post => state.POST conn now path.1 request.body path.2
  | .set => state.SET conn now path.1 request.body path.2
  | .delete => state.DELETE conn now path.1 path.2

/-- The states that can be reached from a successful start. -/
inductive State.Reaches : State N M → Prop where
  | init {mongo : M} {state : State N M} :
    State.extractDBs conn ⟨∅, mongo⟩ = (true, state) → Reaches state
  | handle {state next : State N M} {now : N} {request : Request N}
    {answer : Except Failure (Answer N)} :
    Reaches state → state.handle conn now request = some (answer, next) → Reaches next

/-!
## The server behind the document manager

What the connector does where every call succeeds: a document is replaced or inserted under its
`_id`, deletions delete, and an extraction gives every document of every collection that is not
empty. A server in memory does this, and a server can be cut off after some calls.
-/

/-- The documents that the server has in a collection. -/
def documentsIn (conn : MongoConnector N M) (mongo : M) (db collection : String) :
    List (Fields N) :=
  ((conn.ExtractDB db mongo).1.bind (·.lookup collection)).getD []

/-- Every call succeeds and does what it is for. -/
structure MongoConnector.Lawful (conn : MongoConnector N M) : Prop where
  extracts : ∀ db mongo, ∃ data, conn.ExtractDB db mongo = (some data, mongo) ∧
    (data.map Prod.fst).Nodup ∧ ∀ entry ∈ data, entry.2 ≠ []
  ids : ∀ mongo db collection, (documentsIn conn mongo db collection).Pairwise
    fun a b => a.lookup "_id" ≠ b.lookup "_id"
  replaces : ∀ db collection document name mongo, document.lookup "_id" = some (.text name) →
    ∃ after, conn.ReplaceDocument db collection document mongo = (true, after) ∧
      (∀ d, d ∈ documentsIn conn after db collection ↔
        d = document ∨
          d ∈ documentsIn conn mongo db collection ∧ d.lookup "_id" ≠ some (.text name)) ∧
      ∀ otherDb other, ¬ (otherDb = db ∧ other = collection) → ∀ d,
        d ∈ documentsIn conn after otherDb other ↔ d ∈ documentsIn conn mongo otherDb other
  deletes : ∀ db collection name mongo, ∃ after,
    conn.DeleteDocument db collection name mongo = (true, after) ∧
      (∀ d, d ∈ documentsIn conn after db collection ↔
        d ∈ documentsIn conn mongo db collection ∧ d.lookup "_id" ≠ some (.text name)) ∧
      ∀ otherDb other, ¬ (otherDb = db ∧ other = collection) → ∀ d,
        d ∈ documentsIn conn after otherDb other ↔ d ∈ documentsIn conn mongo otherDb other
  drops : ∀ db collection mongo, ∃ after, conn.DeleteCollection db collection mongo = (true, after) ∧
      documentsIn conn after db collection = [] ∧
      ∀ otherDb other, ¬ (otherDb = db ∧ other = collection) → ∀ d,
        d ∈ documentsIn conn after otherDb other ↔ d ∈ documentsIn conn mongo otherDb other

/-! ## A server in memory -/

/-- A document with its database and its collection. -/
structure Stored (N : Type) where
  db : String
  collection : String
  document : Fields N

/-- A document is in a collection. -/
def Stored.isIn (stored : Stored N) (db collection : String) : Bool :=
  stored.db = db && stored.collection = collection

/-- A document is in a collection under a name. -/
def Stored.isAt (stored : Stored N) (db collection name : String) : Bool :=
  stored.isIn db collection && State.nameOf stored.document = some name

/-- A server that keeps its documents in a list, those of a collection with different `_id`s. -/
structure Server (N : Type) where
  stored : List (Stored N)
  distinct : ∀ db collection, (stored.filter (·.isIn db collection)).Pairwise
    fun a b => a.document.lookup "_id" ≠ b.document.lookup "_id"

variable (server : Server N) (db collection : String)

/-- The names in a part of a collection are distinct. -/
theorem Server.distinct_filter (keeps : Stored N → Bool) (db collection : String) :
    ((server.stored.filter keeps).filter (·.isIn db collection)).Pairwise
      fun a b => a.document.lookup "_id" ≠ b.document.lookup "_id" := by
  rw [List.filter_comm]
  exact (server.distinct db collection).filter _

/-- The server without some documents. -/
def Server.without (server : Server N) (drops : Stored N → Bool) : Server N where
  stored := server.stored.filter fun s => !drops s
  distinct := server.distinct_filter _

/-- The name of a document is its identifier. -/
theorem lookup_id_of_nameOf {body : Fields N} {name : String}
    (h : State.nameOf body = some name) : body.lookup "_id" = some (.text name) := by
  rw [State.nameOf] at h
  split at h
  · rename_i found hfound
    rw [hfound, Option.some.inj h]
  · cases h

/-- A text identifier is the name. -/
theorem nameOf_of_lookup_id {body : Fields N} {name : String}
    (h : body.lookup "_id" = some (.text name)) : State.nameOf body = some name := by
  rw [State.nameOf, h]

/-- A stored document is at a name if it is in the collection and has it. -/
theorem Stored.isAt_iff (stored : Stored N) (db collection name : String) :
    stored.isAt db collection name = true ↔
      stored.isIn db collection = true ∧ stored.document.lookup "_id" = some (.text name) := by
  rw [isAt, Bool.and_eq_true, decide_eq_true_eq]
  constructor
  · rintro ⟨hin, hname⟩
    exact ⟨hin, lookup_id_of_nameOf hname⟩
  · rintro ⟨hin, hid⟩
    exact ⟨hin, nameOf_of_lookup_id hid⟩

/-- The server with a document under a name. -/
def Server.replace (server : Server N) (db collection : String) (document : Fields N)
    (name : String) (hname : document.lookup "_id" = some (.text name)) : Server N where
  stored := (server.without (·.isAt db collection name)).stored ++ [⟨db, collection, document⟩]
  distinct := by
    intro otherDb other
    rw [List.filter_append, List.pairwise_append]
    refine ⟨(server.without _).distinct otherDb other, ?_, ?_⟩
    · exact (List.pairwise_singleton _ _).filter _
    · intro a ha b hb
      obtain ⟨hb, hbin⟩ := List.mem_filter.1 hb
      obtain rfl := List.mem_singleton.1 hb
      obtain ⟨ha, hain⟩ := List.mem_filter.1 ha
      obtain ⟨_, hkept⟩ := List.mem_filter.1 ha
      simp only [Stored.isIn, Bool.and_eq_true, decide_eq_true_eq] at hain hbin
      intro hsame
      have hat : a.isAt db collection name = true := by
        rw [Stored.isAt_iff]
        refine ⟨?_, by rw [hsame, hname]⟩
        simp [Stored.isIn, hain.1, hain.2, hbin.1, hbin.2]
      simp only [hat] at hkept
      cases hkept

/-- A server in memory. -/
def memoryConnector : MongoConnector N (Server N) where
  ReplaceDocument db collection document server :=
    match hname : State.nameOf document with
    | some name =>
      (true, server.replace db collection document name (lookup_id_of_nameOf hname))
    | none => (false, server)
  DeleteDocument db collection name server := (true, server.without (·.isAt db collection name))
  DeleteCollection db collection server := (true, server.without (·.isIn db collection))
  ExtractDB db server :=
    (some (((server.stored.filter (·.db = db)).map (·.collection)).dedup.map fun collection =>
      (collection, (server.stored.filter (·.isIn db collection)).map (·.document))), server)

/-- Looking up a key in a table of a function. -/
theorem lookup_map_pair {A : Type} (keys : List String) (f : String → A) (key : String) :
    (keys.map fun k => (k, f k)).lookup key = if key ∈ keys then some (f key) else none := by
  induction keys with
  | nil => rfl
  | cons k keys ih =>
    rw [List.map_cons, List.lookup_cons, ih]
    by_cases heq : key = k
    · simp [heq]
    · have hbeq : (key == k) = false := by simp [heq]
      simp [hbeq, heq]

/-- The documents in memory are those stored in the collection. -/
theorem documentsIn_memory :
    documentsIn memoryConnector server db collection =
      (server.stored.filter (·.isIn db collection)).map (·.document) := by
  have hextract : (memoryConnector.ExtractDB db server).1 =
      some (((server.stored.filter (·.db = db)).map (·.collection)).dedup.map fun collection =>
        (collection, (server.stored.filter (·.isIn db collection)).map (·.document))) := rfl
  rw [documentsIn, hextract, Option.bind_some, lookup_map_pair]
  split
  · rfl
  · rename_i hnone
    have hempty : server.stored.filter (·.isIn db collection) = [] := by
      rw [List.filter_eq_nil_iff]
      intro s hs hin
      simp only [Stored.isIn, Bool.and_eq_true, decide_eq_true_eq] at hin
      apply hnone
      rw [List.mem_dedup, List.mem_map]
      exact ⟨s, by simp [hs, hin.1], hin.2⟩
    rw [hempty]
    rfl

/-- A document in memory is stored in the collection. -/
theorem mem_documentsIn_memory (d : Fields N) :
    d ∈ documentsIn memoryConnector server db collection ↔
      ∃ s ∈ server.stored, s.isIn db collection = true ∧ s.document = d := by
  rw [documentsIn_memory, List.mem_map]
  constructor
  · rintro ⟨s, hs, hd⟩
    obtain ⟨hmem, hin⟩ := List.mem_filter.1 hs
    exact ⟨s, hmem, hin, hd⟩
  · rintro ⟨s, hmem, hin, hd⟩
    exact ⟨s, List.mem_filter.2 ⟨hmem, hin⟩, hd⟩

/-- What is left of a server without some documents of a collection. -/
theorem mem_documentsIn_without (drops : Stored N → Bool) (db collection : String) (d : Fields N) :
    d ∈ documentsIn memoryConnector (server.without drops) db collection ↔
      ∃ s ∈ server.stored, s.isIn db collection = true ∧ drops s = false ∧ s.document = d := by
  rw [mem_documentsIn_memory]
  constructor
  · rintro ⟨s, hs, hin, hd⟩
    obtain ⟨hmem, hkept⟩ := List.mem_filter.1 hs
    exact ⟨s, hmem, hin, by simpa using hkept, hd⟩
  · rintro ⟨s, hmem, hin, hkept, hd⟩
    exact ⟨s, List.mem_filter.2 ⟨hmem, by simpa using hkept⟩, hin, hd⟩

/-- A document is stored in one collection. -/
theorem Stored.isIn_unique {stored : Stored N} {db collection otherDb other : String}
    (h : stored.isIn db collection = true) (hother : stored.isIn otherDb other = true) :
    otherDb = db ∧ other = collection := by
  simp only [isIn, Bool.and_eq_true, decide_eq_true_eq] at h hother
  exact ⟨hother.1.symm.trans h.1, hother.2.symm.trans h.2⟩

/-- What is left of a server without a document. -/
theorem mem_documentsIn_delete (name : String) :
    (∀ d, d ∈ documentsIn memoryConnector (server.without (·.isAt db collection name)) db
        collection ↔ d ∈ documentsIn memoryConnector server db collection ∧
          d.lookup "_id" ≠ some (.text name)) ∧
    ∀ otherDb other, ¬ (otherDb = db ∧ other = collection) → ∀ d,
      d ∈ documentsIn memoryConnector (server.without (·.isAt db collection name)) otherDb other ↔
        d ∈ documentsIn memoryConnector server otherDb other := by
  constructor
  · intro d
    rw [mem_documentsIn_without, mem_documentsIn_memory]
    constructor
    · rintro ⟨s, hmem, hin, hkept, rfl⟩
      refine ⟨⟨s, hmem, hin, rfl⟩, fun hid => ?_⟩
      rw [(s.isAt_iff db collection name).2 ⟨hin, hid⟩] at hkept
      cases hkept
    · rintro ⟨⟨s, hmem, hin, rfl⟩, hid⟩
      refine ⟨s, hmem, hin, ?_, rfl⟩
      rw [Bool.eq_false_iff]
      intro hat
      exact hid ((s.isAt_iff db collection name).1 hat).2
  · intro otherDb other hother d
    rw [mem_documentsIn_without, mem_documentsIn_memory]
    constructor
    · rintro ⟨s, hmem, hin, _, rfl⟩
      exact ⟨s, hmem, hin, rfl⟩
    · rintro ⟨s, hmem, hin, rfl⟩
      refine ⟨s, hmem, hin, ?_, rfl⟩
      rw [Bool.eq_false_iff]
      intro hat
      exact hother (Stored.isIn_unique ((s.isAt_iff db collection name).1 hat).1 hin)

/-- A server in memory does what each call is for. -/
theorem memoryConnector_lawful : (memoryConnector : MongoConnector N (Server N)).Lawful where
  extracts db server := by
    refine ⟨_, rfl, ?_, ?_⟩
    · rw [List.map_map]
      have hid : (Prod.fst ∘ fun collection => (collection,
          (server.stored.filter (·.isIn db collection)).map (·.document))) = id := rfl
      rw [hid, List.map_id]
      exact List.nodup_dedup _
    · intro entry hentry
      obtain ⟨collection, hcollection, rfl⟩ := List.mem_map.1 hentry
      rw [List.mem_dedup, List.mem_map] at hcollection
      obtain ⟨s, hs, rfl⟩ := hcollection
      obtain ⟨hmem, hdb⟩ := List.mem_filter.1 hs
      intro hnone
      have hin : s ∈ server.stored.filter (·.isIn db s.collection) :=
        List.mem_filter.2 ⟨hmem, by simpa [Stored.isIn] using hdb⟩
      rw [List.map_eq_nil_iff.1 hnone] at hin
      cases hin
  ids server db collection := by
    rw [documentsIn_memory, List.pairwise_map]
    exact server.distinct db collection
  replaces db collection document name server hname := by
    have hreplace : memoryConnector.ReplaceDocument db collection document server =
        (true, server.replace db collection document name hname) := by
      have hnamed := nameOf_of_lookup_id hname
      simp only [memoryConnector]
      split
      · rename_i found hfound
        rw [hfound] at hnamed
        cases hnamed
        rfl
      · rename_i hnone
        rw [hnone] at hnamed
        cases hnamed
    refine ⟨_, hreplace, ?_, ?_⟩
    · intro d
      rw [← (mem_documentsIn_delete server db collection name).1 d, mem_documentsIn_memory,
        mem_documentsIn_memory]
      constructor
      · rintro ⟨s, hs, hin, rfl⟩
        rcases List.mem_append.1 hs with hold | hnew
        · exact Or.inr ⟨s, hold, hin, rfl⟩
        · obtain rfl := List.mem_singleton.1 hnew
          exact Or.inl rfl
      · rintro (rfl | ⟨s, hold, hin, rfl⟩)
        · exact ⟨⟨db, collection, d⟩, List.mem_append_right _ List.mem_cons_self,
            by simp [Stored.isIn], rfl⟩
        · exact ⟨s, List.mem_append_left _ hold, hin, rfl⟩
    · intro otherDb other hother d
      rw [← (mem_documentsIn_delete server db collection name).2 otherDb other hother d,
        mem_documentsIn_memory, mem_documentsIn_memory]
      constructor
      · rintro ⟨s, hs, hin, rfl⟩
        rcases List.mem_append.1 hs with hold | hnew
        · exact ⟨s, hold, hin, rfl⟩
        · obtain rfl := List.mem_singleton.1 hnew
          have hself : (⟨db, collection, document⟩ : Stored N).isIn db collection = true := by
            simp [Stored.isIn]
          exact absurd (Stored.isIn_unique hself hin) hother
      · rintro ⟨s, hold, hin, rfl⟩
        exact ⟨s, List.mem_append_left _ hold, hin, rfl⟩
  deletes db collection name server :=
    ⟨_, rfl, mem_documentsIn_delete server db collection name⟩
  drops db collection server := by
    refine ⟨_, rfl, ?_, ?_⟩
    · rw [List.eq_nil_iff_forall_not_mem]
      intro d hd
      rw [mem_documentsIn_without] at hd
      obtain ⟨s, _, hin, hkept, _⟩ := hd
      rw [hin] at hkept
      cases hkept
    · intro otherDb other hother d
      rw [mem_documentsIn_without, mem_documentsIn_memory]
      constructor
      · rintro ⟨s, hmem, hin, _, hd⟩
        exact ⟨s, hmem, hin, hd⟩
      · rintro ⟨s, hmem, hin, hd⟩
        refine ⟨s, hmem, hin, ?_, hd⟩
        rw [Bool.eq_false_iff]
        intro hdropped
        exact hother (Stored.isIn_unique hdropped hin)

/-- A server that answers so many calls only. -/
def MongoConnector.limited (conn : MongoConnector N M) : MongoConnector N (ℕ × M) where
  ReplaceDocument db collection document mongo :=
    if mongo.1 = 0 then (false, mongo)
    else
      ((conn.ReplaceDocument db collection document mongo.2).1, mongo.1 - 1,
        (conn.ReplaceDocument db collection document mongo.2).2)
  DeleteDocument db collection name mongo :=
    if mongo.1 = 0 then (false, mongo)
    else
      ((conn.DeleteDocument db collection name mongo.2).1, mongo.1 - 1,
        (conn.DeleteDocument db collection name mongo.2).2)
  DeleteCollection db collection mongo :=
    if mongo.1 = 0 then (false, mongo)
    else
      ((conn.DeleteCollection db collection mongo.2).1, mongo.1 - 1,
        (conn.DeleteCollection db collection mongo.2).2)
  ExtractDB db mongo :=
    if mongo.1 = 0 then (none, mongo)
    else ((conn.ExtractDB db mongo.2).1, mongo.1 - 1, (conn.ExtractDB db mongo.2).2)

/-- A server with the document `ess` in the collection `configs`. -/
def essServer : Server ℕ where
  stored := [⟨"dbi", "configs", [("_id", .text "ess"), ("soc", .scalar 50)]⟩]
  distinct _ _ := (List.pairwise_singleton _ _).filter _

end HybridOs.Dbi
