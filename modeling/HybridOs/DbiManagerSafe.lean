import HybridOs.DbiManager

/-!
# What an edit of the document manager comes to

For each edit and deletion of a collection, a document or a field: the reply, the documents of
the collection afterwards, and the one call of the server, where the database is in the local
copy.
-/

namespace HybridOs.Dbi

variable {N M : Type}

/-- Inserting what is there changes nothing. -/
theorem insert_same {A : Type} {entries : Map A} {key : String} {a : A}
    (h : entries.lookup key = some a) : entries.insert key a = entries := by
  refine Finmap.ext_lookup fun other => ?_
  by_cases hkey : other = key
  · rw [hkey, Finmap.lookup_insert, h]
  · rw [Finmap.lookup_insert_of_ne _ hkey]

/-- An insertion is found under its key only. -/
theorem lookup_insert_ite {A : Type} (entries : Map A) (key other : String) (a : A) :
    (entries.insert key a).lookup other = if other = key then some a else entries.lookup other := by
  by_cases hkey : other = key
  · rw [if_pos hkey, hkey, Finmap.lookup_insert]
  · rw [if_neg hkey, Finmap.lookup_insert_of_ne _ hkey]

/-- An erased key is not found. -/
theorem lookup_erase_ite {A : Type} (entries : Map A) (key other : String) :
    (entries.erase key).lookup other = if other = key then none else entries.lookup other := by
  by_cases hkey : other = key
  · rw [if_pos hkey, hkey, Finmap.lookup_erase]
  · rw [if_neg hkey, Finmap.lookup_erase_ne hkey]

namespace State

/-- The state with other documents in a collection. -/
def withDocs (state : State N M) (db : String) (colls : Database N) (collection : String)
    (docs : Collection N) : State N M :=
  { state with localData := state.localData.insert db (colls.insert collection docs) }

/-- The state with another state of the server. -/
def withMongo (state : State N M) (mongo : M) : State N M := { state with mongo := mongo }

/-- The documents of a collection, of which there are none where it is missing. -/
def docsIn (colls : Database N) (collection : String) : Collection N :=
  (colls.lookup collection).getD ∅

variable {state : State N M} {db collection document : String} {colls : Database N}
  {docs : Collection N} {fields : Fields N} {conn : MongoConnector N M} {now : N}

/-- The database is replaced. -/
@[simp] theorem withMongo_mongo (mongo : M) : (state.withMongo mongo).mongo = mongo := rfl

/-- The local copy stays. -/
@[simp] theorem withMongo_localData (mongo : M) :
    (state.withMongo mongo).localData = state.localData := rfl

/-- The collections with new documents in one. -/
theorem lookup_withDocs :
    (state.withDocs db colls collection docs).localData.lookup db =
      some (colls.insert collection docs) := by
  rw [withDocs, Finmap.lookup_insert]

/-- A collection is looked up in its database. -/
theorem collection?_eq (h : state.localData.lookup db = some colls) (collection : String) :
    state.collection? db collection = colls.lookup collection := by
  rw [collection?, h, Option.bind_some]

/-- The collection that was set is found. -/
theorem collection?_withDocs :
    (state.withDocs db colls collection docs).collection? db collection = some docs := by
  rw [collection?_eq lookup_withDocs, Finmap.lookup_insert]

/-- So are its documents. -/
theorem document?_withDocs :
    (state.withDocs db colls collection docs).document? db collection document =
      docs.lookup document := by
  rw [document?, collection?_withDocs, Option.bind_some]

/-- Putting a collection sets it. -/
theorem putCollection_eq (h : state.localData.lookup db = some colls) (docs : Collection N) :
    state.putCollection db collection docs = some (state.withDocs db colls collection docs) := by
  rw [putCollection, h]
  rfl

/-- The last collection that is put counts. -/
theorem putCollection_withDocs (other : Collection N) :
    (state.withDocs db colls collection docs).putCollection db collection other =
      some (state.withDocs db colls collection other) := by
  rw [putCollection_eq lookup_withDocs]
  simp only [withDocs, Finmap.insert_insert]

/-- A document is put into its collection. -/
theorem putDocument_withDocs (fields : Fields N) :
    (state.withDocs db colls collection docs).putDocument db collection document fields =
      some (state.withDocs db colls collection (docs.insert document fields)) := by
  rw [putDocument, collection?_withDocs, Option.bind_some, putCollection_withDocs]

/-- A collection that is there is written as it is. -/
theorem withDocs_same (h : state.localData.lookup db = some colls)
    (hcoll : colls.lookup collection = some docs) :
    state.withDocs db colls collection docs = state := by
  rw [withDocs, insert_same hcoll, insert_same h]

/-- A collection is there afterwards, empty if it was not. -/
theorem ensureCollection_eq (h : state.localData.lookup db = some colls) :
    state.ensureCollection db collection =
      some (state.withDocs db colls collection (docsIn colls collection)) := by
  rw [ensureCollection, collection?_eq h]
  cases hcoll : colls.lookup collection with
  | none => simp only [putCollection_eq h, docsIn, hcoll, Option.getD_none]
  | some docs => simp only [docsIn, hcoll, Option.getD_some, withDocs_same h hcoll]

/-- A document is sent with its metadata and kept without them. -/
theorem syncDocument_withDocs :
    (state.withDocs db colls collection (docs.insert document fields)).syncDocument conn now db
      collection document =
      some ((conn.ReplaceDocument db collection (withMetaData document now fields) state.mongo).1,
        (state.withDocs db colls collection
          (docs.insert document (stripped (withMetaData document now fields)))).withMongo
            (conn.ReplaceDocument db collection (withMetaData document now fields)
              state.mongo).2) := by
  have hput : (state.withDocs db colls collection (docs.insert document fields)).putDocument db
      collection document (stripped (withMetaData document now fields)) = some (state.withDocs db
        colls collection ((docs.insert document fields).insert document
          (stripped (withMetaData document now fields)))) :=
    putDocument_withDocs (stripped (withMetaData document now fields))
  rw [syncDocument, document?_withDocs, Finmap.lookup_insert]
  simp only [hput, Finmap.insert_insert]
  rfl

/-- An object replaces or patches a document once the database has taken it. -/
theorem editDocument_object (h : state.localData.lookup db = some colls) (new : Fields N)
    (isSet : Bool) : let docs := docsIn colls collection
    let sent := withMetaData document now (editedFields (docs.lookup document) new isSet)
    let reply := conn.ReplaceDocument db collection sent state.mongo
    state.editDocument conn now db collection document (.object new) isSet =
      some (Answer.unless reply.1 (.document (stripped sent)),
        (state.withDocs db colls collection (docs.insert document (stripped sent))).withMongo
          reply.2) := by
  intro docs sent reply
  rw [editDocument, ensureCollection_eq h, Option.bind_some]
  simp only [document?_withDocs]
  rw [putDocument_withDocs, Option.bind_some, syncDocument_withDocs, Option.map_some]

/-- A body that is no object leaves no more than an empty collection. -/
theorem editDocument_bad (h : state.localData.lookup db = some colls) {body : Value N}
    (hbody : ∀ new, body ≠ .object new) (isSet : Bool) :
    state.editDocument conn now db collection document body isSet =
      some (.error .badBody, state.withDocs db colls collection (docsIn colls collection)) := by
  rw [editDocument, ensureCollection_eq h, Option.bind_some]
  cases body with
  | object new => exact absurd rfl (hbody new)
  | _ => rfl

/-- A field is edited once the database has taken it. -/
theorem editField_eq (h : state.localData.lookup db = some colls) {field : List String}
    (hfield : ¬ (field = ["_id"] ∨ field = ["_version"])) (data : Value N) (isSet : Bool) :
    state.editField conn now db collection document field data isSet =
      (editRoot isSet field (((docsIn colls collection).lookup document).getD []) data).map
        fun edited => match edited.2 with
          | some failure => (.error failure, state.withDocs db colls collection
              ((docsIn colls collection).insert document edited.1)) | none =>
            let sent := withMetaData document now edited.1
            let reply := conn.ReplaceDocument db collection sent state.mongo
            (Answer.unless reply.1 (.document (stripped sent)),
              (state.withDocs db colls collection
                ((docsIn colls collection).insert document (stripped sent))).withMongo
                  reply.2) := by
  rw [editField, if_neg hfield, ensureCollection_eq h, Option.bind_some]
  simp only [document?_withDocs]
  cases editRoot isSet field (((docsIn colls collection).lookup document).getD []) data with
  | none => rfl
  | some edited =>
    rw [Option.bind_some, Option.map_some, putDocument_withDocs, Option.bind_some]
    cases edited.2 with
    | some failure => rfl
    | none => rw [syncDocument_withDocs, Option.map_some]

/-- A GET finds the document or says that it does not. -/
theorem getDocument_eq (state : State N M) (db collection document : String) :
    (∃ e, state.getDocument db collection document = .error e ∧
      state.document? db collection document = none) ∨
    ∃ fields, state.getDocument db collection document = .ok fields ∧
      state.document? db collection document = some fields := by
  rw [getDocument, getCollection, document?]
  cases state.collection? db collection with
  | none => exact Or.inl ⟨_, rfl, rfl⟩
  | some docs =>
    cases hdoc : docs.lookup document with
    | none =>
      refine Or.inl ⟨.documentNotFound, ?_, ?_⟩
      · simp only [bind, Except.bind, hdoc]
      · rw [Option.bind_some, hdoc]
    | some fields =>
      refine Or.inr ⟨fields, ?_, ?_⟩
      · simp only [bind, Except.bind, hdoc]
      · rw [Option.bind_some, hdoc]

section

variable (h : state.localData.lookup db = some colls)
include h

/-- The collection of a document that is there. -/
theorem of_document? (hdocument : state.document? db collection document = some fields) :
    ∃ docs, colls.lookup collection = some docs ∧ docs.lookup document = some fields := by
  rw [document?, collection?_eq h, Option.bind_eq_some_iff] at hdocument
  exact hdocument

/-- A document goes once the database has deleted it. -/
theorem deleteDocument_eq (hcoll : colls.lookup collection = some docs)
    (hdoc : docs.lookup document = some fields) :
    let reply := conn.DeleteDocument db collection document state.mongo
    let next := state.withDocs db colls collection (docs.erase document)
    state.deleteDocument conn db collection document =
      some (Answer.unless reply.1 (.names (next.listDocuments collection)),
        next.withMongo reply.2) := by
  intro reply next
  have hdocument : state.getDocument db collection document = .ok fields := by
    simp only [getDocument, getCollection, collection?_eq h, hcoll, bind, Except.bind, hdoc]
  have hdrop : state.dropDocument db collection document = next := by
    rw [dropDocument, h, collection?_eq h, hcoll]
    rfl
  rw [deleteDocument, hdocument]
  simp only [hdrop]
  rfl

/-- So does a collection. -/
theorem deleteCollection_eq (hcoll : colls.lookup collection = some docs) :
    let reply := conn.DeleteCollection db collection state.mongo
    let next : State N M :=
      { state with localData := state.localData.insert db (colls.erase collection) }
    state.deleteCollection conn db collection =
      some (Answer.unless reply.1 (.names next.listCollections), next.withMongo reply.2) := by
  intro reply next
  have hcollection : state.getCollection db collection = .ok docs := by
    rw [getCollection, collection?_eq h, hcoll]
  have hdrop : state.dropCollection db collection = next := by
    rw [dropCollection, h]
  rw [deleteCollection, hcollection]
  simp only [hdrop]
  rfl

/-- The deletion of a field fails and leaves the state as it is, or the document is sent
without the field. -/
theorem deleteField_eq (hcoll : colls.lookup collection = some docs)
    (hdoc : docs.lookup document = some fields) (field : List String) :
    (∃ e, state.deleteField conn now db collection document field = some (.error e, state)) ∨
    ∃ after, deleteFieldRecursive field (.object fields) = (.object after, none) ∧
      state.deleteField conn now db collection document field =
        some (Answer.unless
            (conn.ReplaceDocument db collection (withMetaData document now after) state.mongo).1
            (.document (stripped (withMetaData document now after))),
          (state.withDocs db colls collection
            (docs.insert document (stripped (withMetaData document now after)))).withMongo
              (conn.ReplaceDocument db collection (withMetaData document now after)
                state.mongo).2) := by
  have hdocument : state.getDocument db collection document = .ok fields := by
    simp only [getDocument, getCollection, collection?_eq h, hcoll, bind, Except.bind, hdoc]
  have hsame := withDocs_same h hcoll
  rw [deleteField, hdocument]
  simp only
  split
  · rename_i after hdeleted
    refine Or.inr ⟨after, hdeleted, ?_⟩
    have hput : (state.withDocs db colls collection docs).putDocument db collection document
        after = some (state.withDocs db colls collection (docs.insert document after)) :=
      putDocument_withDocs after
    rw [hsame] at hput
    rw [hput, Option.bind_some, syncDocument_withDocs, Option.map_some]
  · rename_i failure hdeleted
    exact Or.inl ⟨failure, rfl⟩
  · exact Or.inl ⟨.fieldNotFound, rfl⟩

end

end State

/-!
## Requests that are rejected

Where the body of a request is usable at the place where it is written, no fragment of its path
makes a slice that is too long, and a resync can download, a request does not panic, it keeps
both databases in the local copy, and where it is rejected it changes nothing.
-/

/-! ## Paths that panic -/

/-- An edit along a path makes a slice that is too long. -/
def overflows : List String → Value N → Bool
  | [], _ => false
  | frag :: rest, layer =>
    if frag = "" ∧ rest = [] then false
    else
      match layer with
      | .null => (!(Atoi frag).2 && decide (0 < (Atoi frag).1)) || overflows rest .null
      | .object fields => overflows rest (fieldOrNull frag fields)
      | .array xs =>
        (Atoi frag).2 && decide (0 ≤ (Atoi frag).1) &&
          (decide (xs.length ≤ (Atoi frag).1.toNat ∧ maxSliceLen < (Atoi frag).1.toNat + 1) ||
            overflows rest ((fillTo (Atoi frag).1.toNat xs).getD (Atoi frag).1.toNat .null))
      | _ => false

/-- An empty fragment is no number. -/
theorem Atoi_empty : Atoi "" = (0, false) := by
  decide

/-- An empty fragment fits every layer. -/
theorem layerFor_empty (layer : Value N) : (layerFor "" layer).isSome = true := by
  cases layer with
  | null => simp [layerFor, Atoi_empty]
  | _ => rfl

/-- An edit panics exactly where it makes a slice that is too long. -/
theorem editFieldRecursive_isSome (isSet : Bool) (frags : List String) (layer insert : Value N) :
    (editFieldRecursive isSet frags layer insert).isSome = !overflows frags layer := by
  induction frags generalizing layer insert with
  | nil =>
    rw [editFieldRecursive, overflows, Option.isSome_map, layerFor_empty]
    rfl
  | cons frag rest ih =>
    have hobject : ∀ fields : Fields N,
        (editFieldRecursive isSet (frag :: rest) (.object fields) insert).isSome =
          !(if frag = "" ∧ rest = [] then false else overflows rest (fieldOrNull frag fields)) := by
      intro fields
      rw [editFieldRecursive_object]
      split
      · rfl
      · rw [Option.isSome_map, ih]
    cases layer with
    | object fields =>
      rw [hobject]
      rfl
    | null =>
      have hnull : fieldOrNull frag ([] : Fields N) = .null := rfl
      have hfresh := hobject []
      rw [hnull] at hfresh
      rw [overflows]
      by_cases hlarge : (Atoi frag).2 = false ∧ 0 < (Atoi frag).1
      · have hfrag : ¬ (frag = "" ∧ rest = []) := by
          intro hempty
          rw [hempty.1, Atoi_empty] at hlarge
          exact absurd hlarge.2 (by simp)
        have hpanics : editFieldRecursive isSet (frag :: rest) .null insert = none := by
          rw [editFieldRecursive, layerFor, if_pos hlarge]
          rfl
        rw [hpanics, if_neg hfrag]
        simp [hlarge.1, hlarge.2]
      · have hmade : editFieldRecursive isSet (frag :: rest) .null insert =
            editFieldRecursive isSet (frag :: rest) (.object []) insert := by
          rw [editFieldRecursive, layerFor, if_neg hlarge]
          rfl
        have hsmall : (!(Atoi frag).2 && decide (0 < (Atoi frag).1)) = false := by
          simpa using hlarge
        rw [hmade, hfresh]
        simp only [hsmall, Bool.false_or]
    | array xs =>
      rw [editFieldRecursive_array, overflows]
      by_cases hfrag : frag = "" ∧ rest = []
      · rw [if_pos hfrag, if_pos hfrag]
        rfl
      · rw [if_neg hfrag, if_neg hfrag]
        by_cases hnumber : (Atoi frag).2 = false
        · simp [hnumber]
        · by_cases hnegative : (Atoi frag).1 < 0
          · have hnot : ¬ 0 ≤ (Atoi frag).1 := by omega
            simp [hnumber, hnegative]
          · have hle : 0 ≤ (Atoi frag).1 := by omega
            rw [if_neg hnumber, if_neg hnegative]
            by_cases hlong : xs.length ≤ (Atoi frag).1.toNat ∧ maxSliceLen < (Atoi frag).1.toNat + 1
            · rw [if_pos hlong]
              simp [hnumber, hle, hlong.1, hlong.2]
            · rw [if_neg hlong, Option.isSome_map, ih]
              have hshort : decide (xs.length ≤ (Atoi frag).1.toNat ∧
                  maxSliceLen < (Atoi frag).1.toNat + 1) = false := by
                simpa using hlong
              simp only [Bool.not_eq_false] at hnumber
              rw [hnumber, decide_eq_true hle, hshort, Bool.true_and, Bool.true_and,
                Bool.false_or]
    | scalar n =>
      rw [editFieldRecursive_scalar]
      simp [overflows]
    | text s =>
      rw [editFieldRecursive_text]
      simp [overflows]

namespace State

/-- The edit of a document at a path panics exactly where it makes a slice too long. -/
theorem editRoot_isSome (isSet : Bool) (field : List String) (fields : Fields N) (data : Value N) :
    (editRoot isSet field fields data).isSome = !overflows field (.object fields) := by
  rw [editRoot, Option.isSome_map, editFieldRecursive_isSome]

variable {isSet : Bool} {field : List String} {data : Value N}

/-- An edit of a document without fields does not fail. -/
theorem editRoot_empty {edited : Fields N × Option Failure}
    (h : editRoot isSet field [] data = some edited) : edited.2 = none := by
  obtain ⟨value, hvalue, heq⟩ := Option.map_eq_some_iff.1 h
  have hfailure : value.2 = none := by
    cases field with
    | nil =>
      obtain ⟨layer, _, rfl⟩ := Option.map_eq_some_iff.1 hvalue
      rfl
    | cons frag rest =>
      rw [editFieldRecursive_object] at hvalue
      split at hvalue
      · obtain rfl := Option.some.inj hvalue
        rfl
      · obtain ⟨below, hbelow, rfl⟩ := Option.map_eq_some_iff.1 hvalue
        have hnone := editFieldRecursive_null hbelow
        exact hnone
  rw [← heq]
  split <;> exact hfailure

/-- An edit of a document that fails leaves it as it is. -/
theorem editRoot_failed {fields after : Fields N} {e : Failure}
    (h : editRoot isSet field fields data = some (after, some e)) : after = fields := by
  obtain ⟨edited, hedited, heq⟩ := Option.map_eq_some_iff.1 h
  obtain ⟨value, failure⟩ := edited
  have hfailure : failure = some e := by
    split at heq
    · exact (Prod.mk.inj heq).2
    · exact (Prod.mk.inj heq).2
  subst hfailure
  have hsame := editFieldRecursive_failed hedited
  subst hsame
  have hafter : (if (field = [] ∨ field = [""]) ∧ isSet then fields else fields) = after :=
    (Prod.mk.inj heq).1
  rw [ite_self] at hafter
  exact hafter.symm

/-! ## What a request is to do -/

/-- Both databases are in the local copy. -/
def Complete (state : State N M) : Prop :=
  ∀ db, db = "dbi" ∨ db = "audit" → (state.localData.lookup db).isSome = true

/-- A request has an outcome in which both databases are in the local copy, and where it is
rejected nothing has changed. -/
def Answers (state : State N M) (outcome : Outcome N M) : Prop :=
  ∃ answer next, outcome = some (answer, next) ∧ next.Complete ∧
    ∀ e, answer = .error e → e ≠ .mongo → next = state

variable {state : State N M} {db collection document : String} {colls : Database N}
  {docs : Collection N} {fields : Fields N} {conn : MongoConnector N M} {now : N}

/-- Both databases stay when documents are set. -/
theorem Complete.withDocs (h : state.Complete) :
    (state.withDocs db colls collection docs).Complete := by
  intro other hother
  rw [State.withDocs, lookup_insert_ite]
  split
  · rfl
  · exact h other hother

/-- Both databases stay when the database answers. -/
theorem Complete.withMongo (h : state.Complete) (mongo : M) : (state.withMongo mongo).Complete :=
  h

/-- The collections of both databases are there. -/
theorem Complete.get (h : state.Complete) (hdb : db = "dbi" ∨ db = "audit") :
    ∃ colls, state.localData.lookup db = some colls :=
  Option.isSome_iff_exists.1 (h db hdb)

/-- A refused request is answered. -/
theorem Answers.rejected (h : state.Complete) (e : Failure) :
    state.Answers (some (.error e, state)) :=
  ⟨.error e, state, rfl, h, fun _ _ _ => rfl⟩

/-- A request that fails at no other place than a call of the server. -/
theorem Answers.unless {next : State N M} (h : next.Complete) (ok : Bool) (answer : Answer N) :
    state.Answers (some (Answer.unless ok answer, next)) := by
  refine ⟨_, next, rfl, h, ?_⟩
  intro e heq hne
  rw [Answer.unless] at heq
  split at heq
  · cases heq
  · cases heq
    exact absurd rfl hne

/-- The body of an edit of a document is usable: it is an object, or no collection is made for
it. -/
def usable (state : State N M) (db collection : String) (body : Value N) : Prop :=
  (∃ new, body = .object new) ∨ (state.collection? db collection).isSome = true

/-- An edit of a document is answered. -/
theorem editDocument_answers (h : state.Complete) (hdb : db = "dbi" ∨ db = "audit")
    {body : Value N} (hbody : state.usable db collection body) (isSet : Bool) :
    state.Answers (state.editDocument conn now db collection document body isSet) := by
  obtain ⟨colls, hcolls⟩ := h.get hdb
  by_cases hobject : ∃ new, body = .object new
  · obtain ⟨new, rfl⟩ := hobject
    rw [editDocument_object hcolls]
    exact Answers.unless (h.withDocs.withMongo _) _ _
  · rcases hbody with hnew | hthere
    · exact absurd hnew hobject
    · have hbad : ∀ new, body ≠ .object new := fun new heq => hobject ⟨new, heq⟩
      rw [collection?_eq hcolls] at hthere
      obtain ⟨docs, hdocs⟩ := Option.isSome_iff_exists.1 hthere
      have hin : docsIn colls collection = docs := by rw [docsIn, hdocs]; rfl
      rw [editDocument_bad hcolls hbad, hin, withDocs_same hcolls hdocs]
      exact Answers.rejected h _

/-- The documents of a body are edited without a panic. -/
theorem editDocuments_complete (hdb : db = "dbi" ∨ db = "audit") (bodies : Fields N)
    (h : state.Complete) :
    ∃ next, state.editDocuments conn now db collection bodies = some next ∧ next.Complete := by
  induction bodies generalizing state with
  | nil => exact ⟨state, rfl, h⟩
  | cons entry rest ih =>
    obtain ⟨colls, hcolls⟩ := h.get hdb
    have hfirst : ∃ answer next, state.editDocument conn now db collection entry.1 entry.2 false =
        some (answer, next) ∧ next.Complete := by
      by_cases hobject : ∃ new, entry.2 = .object new
      · obtain ⟨new, hnew⟩ := hobject
        rw [hnew, editDocument_object hcolls]
        exact ⟨_, _, rfl, h.withDocs.withMongo _⟩
      · rw [editDocument_bad hcolls fun new heq => hobject ⟨new, heq⟩]
        exact ⟨_, _, rfl, h.withDocs⟩
    obtain ⟨answer, middle, hmiddle, hcomplete⟩ := hfirst
    obtain ⟨next, hnext, hafter⟩ := ih hcomplete
    refine ⟨next, ?_, hafter⟩
    rw [editDocuments, hmiddle, Option.bind_some, hnext]

/-- An edit of a collection is answered. -/
theorem editCollection_answers (h : state.Complete) (hdb : db = "dbi" ∨ db = "audit")
    {body : Value N} {isSet : Bool} (hbody : isSet = true → ∃ new, body = .object new) :
    state.Answers (state.editCollection conn now db collection body isSet) := by
  obtain ⟨colls, hcolls⟩ := h.get hdb
  have hcleared : ∃ cleared : State N M, cleared.Complete ∧
      (isSet = false → cleared = state) ∧
      (if isSet then (state.putCollection db collection ∅).map fun state =>
          ({ state with mongo := (conn.DeleteCollection db collection state.mongo).2 } : State N M)
        else some state) = some cleared := by
    cases isSet with
    | false => exact ⟨state, h, fun _ => rfl, rfl⟩
    | true =>
      refine ⟨(state.withDocs db colls collection ∅).withMongo
        (conn.DeleteCollection db collection state.mongo).2, h.withDocs.withMongo _,
        by simp, ?_⟩
      rw [if_pos rfl, putCollection_eq hcolls]
      rfl
  obtain ⟨cleared, hcomplete, hsame, heq⟩ := hcleared
  rw [editCollection]
  simp only [heq, Option.bind_some]
  by_cases hobject : ∃ new, body = .object new
  · obtain ⟨new, rfl⟩ := hobject
    obtain ⟨next, hnext, hafter⟩ :
        ∃ next, cleared.editDocuments conn now db collection new = some next ∧ next.Complete :=
      editDocuments_complete hdb new hcomplete
    simp only [hnext]
    exact ⟨_, next, rfl, hafter, fun e he => by cases he⟩
  · have hpost : isSet = false := by
      cases isSet with
      | false => rfl
      | true => exact absurd (hbody rfl) hobject
    rw [hsame hpost]
    cases body with
    | object new => exact absurd ⟨new, rfl⟩ hobject
    | _ => exact Answers.rejected h _

/-- The path of an edit makes no slice that is too long. -/
def fitsPath (state : State N M) (db collection document : String) (field : List String) : Prop :=
  overflows field (.object ((state.document? db collection document).getD [])) = false

/-- An edit at a path panics where a slice is made too long, fails and leaves the state as it
is, or writes the document and sends it. -/
theorem editField_cases (hcolls : state.localData.lookup db = some colls) (field : List String)
    (data : Value N) (isSet : Bool) :
    (state.editField conn now db collection document field data isSet = none ∧
      ¬ state.fitsPath db collection document field) ∨
    (∃ e, state.editField conn now db collection document field data isSet =
      some (.error e, state)) ∨
    ∃ after, state.editField conn now db collection document field data isSet =
      some (Answer.unless
          (conn.ReplaceDocument db collection (withMetaData document now after) state.mongo).1
          (.document (stripped (withMetaData document now after))),
        (state.withDocs db colls collection ((docsIn colls collection).insert document
          (stripped (withMetaData document now after)))).withMongo
            (conn.ReplaceDocument db collection (withMetaData document now after)
              state.mongo).2) := by
  by_cases hfield : field = ["_id"] ∨ field = ["_version"]
  · exact Or.inr (Or.inl ⟨.protectedField, by rw [editField, if_pos hfield]⟩)
  · have hdocument : state.document? db collection document =
        (docsIn colls collection).lookup document := by
      rw [document?, collection?_eq hcolls, docsIn]
      cases colls.lookup collection with
      | none => simp
      | some docs => rfl
    rw [fitsPath, hdocument, editField_eq hcolls hfield]
    have hsome := editRoot_isSome isSet field
      (((docsIn colls collection).lookup document).getD []) data
    cases hedited : editRoot isSet field (((docsIn colls collection).lookup document).getD [])
        data with
    | none =>
      rw [hedited] at hsome
      refine Or.inl ⟨rfl, ?_⟩
      intro hfits
      rw [hfits] at hsome
      cases hsome
    | some edited =>
      obtain ⟨after, failure⟩ := edited
      cases failure with
      | none => exact Or.inr (Or.inr ⟨after, rfl⟩)
      | some failure =>
        refine Or.inr (Or.inl ⟨failure, ?_⟩)
        cases hdoc : (docsIn colls collection).lookup document with
        | none =>
          rw [hdoc] at hedited
          have hnone := editRoot_empty hedited
          cases hnone
        | some fields =>
          rw [hdoc] at hedited
          have hafter := editRoot_failed hedited
          rw [Option.getD_some] at hafter
          have hthere : ∃ docs, colls.lookup collection = some docs ∧
              docsIn colls collection = docs := by
            rw [docsIn] at hdoc ⊢
            cases hcoll : colls.lookup collection with
            | none =>
              rw [hcoll] at hdoc
              simp at hdoc
            | some docs => exact ⟨docs, rfl, rfl⟩
          obtain ⟨docs, hdocs, hin⟩ := hthere
          rw [hin] at hdoc
          have hsame : docs.insert document fields = docs := insert_same hdoc
          simp only [Option.map_some, hin, hafter, hsame, withDocs_same hcolls hdocs]

section

variable (h : state.Complete) (hdb : db = "dbi" ∨ db = "audit")
include h hdb

/-- An edit of a field whose path fits is answered. -/
theorem editField_answers {field : List String}
    (hpath : state.fitsPath db collection document field) (data : Value N) (isSet : Bool) :
    state.Answers (state.editField conn now db collection document field data isSet) := by
  obtain ⟨colls, hcolls⟩ := h.get hdb
  rcases editField_cases hcolls field data isSet with
    ⟨_, hpanics⟩ | ⟨e, hfailed⟩ | ⟨after, hwritten⟩
  · exact absurd hpath hpanics
  · rw [hfailed]
    exact Answers.rejected h _
  · rw [hwritten]
    exact Answers.unless (h.withDocs.withMongo _) _ _

/-- Deleting a collection is answered. -/
theorem deleteCollection_answers : state.Answers (state.deleteCollection conn db collection) := by
  obtain ⟨colls, hcolls⟩ := h.get hdb
  cases hcoll : colls.lookup collection with
  | none =>
    have hmissing : state.getCollection db collection = .error .collectionNotFound := by
      rw [getCollection, collection?_eq hcolls, hcoll]
    rw [deleteCollection, hmissing]
    exact Answers.rejected h _
  | some docs =>
    rw [deleteCollection_eq hcolls hcoll]
    refine Answers.unless ?_ _ _
    intro other hother
    rw [withMongo_localData, lookup_insert_ite]
    split
    · rfl
    · exact h other hother

/-- Deleting a document is answered. -/
theorem deleteDocument_answers :
    state.Answers (state.deleteDocument conn db collection document) := by
  obtain ⟨colls, hcolls⟩ := h.get hdb
  rcases state.getDocument_eq db collection document with ⟨e, he, _⟩ | ⟨fields, _, hdocument⟩
  · rw [deleteDocument, he]
    exact Answers.rejected h _
  · obtain ⟨docs, hcoll, hdoc⟩ := of_document? hcolls hdocument
    rw [deleteDocument_eq hcolls hcoll hdoc]
    exact Answers.unless (h.withDocs.withMongo _) _ _

/-- Deleting a field is answered. -/
theorem deleteField_answers (field : List String) :
    state.Answers (state.deleteField conn now db collection document field) := by
  obtain ⟨colls, hcolls⟩ := h.get hdb
  rcases state.getDocument_eq db collection document with ⟨e, he, _⟩ | ⟨fields, _, hdocument⟩
  · rw [deleteField, he]
    exact Answers.rejected h _
  · obtain ⟨docs, hcoll, hdoc⟩ := of_document? hcolls hdocument
    rcases deleteField_eq hcolls hcoll hdoc field with
      ⟨e, he⟩ | ⟨after, _, hafter⟩
    · rw [he]
      exact Answers.rejected h _
    · rw [hafter]
      exact Answers.unless (h.withDocs.withMongo _) _ _

end

/-- An extraction that succeeds has both databases. -/
theorem extractDBs_answers (hdownload : (conn.ExtractDB "dbi" state.mongo).1.isSome = true ∧
      (conn.ExtractDB "audit" (conn.ExtractDB "dbi" state.mongo).2).1.isSome = true) :
    (state.extractDBs conn).1 = true ∧ (state.extractDBs conn).2.Complete := by
  obtain ⟨dbi, hdbi⟩ := Option.isSome_iff_exists.1 hdownload.1
  obtain ⟨audit, haudit⟩ := Option.isSome_iff_exists.1 hdownload.2
  have hfirst : extractDB conn { state with localData := ∅ } "dbi" =
      (true, ⟨(∅ : Map (Database N)).insert "dbi" (extractCollections dbi),
        (conn.ExtractDB "dbi" state.mongo).2⟩) := by
    rw [extractDB]
    split
    · rename_i hnone
      rw [hnone] at hdbi
      cases hdbi
    · rename_i data mongo hsome
      rw [hsome] at hdbi ⊢
      rw [Option.some.inj hdbi]
  have hsecond : extractDB conn (⟨(∅ : Map (Database N)).insert "dbi" (extractCollections dbi),
        (conn.ExtractDB "dbi" state.mongo).2⟩) "audit" =
      (true, ⟨((∅ : Map (Database N)).insert "dbi" (extractCollections dbi)).insert "audit"
        (extractCollections audit),
        (conn.ExtractDB "audit" (conn.ExtractDB "dbi" state.mongo).2).2⟩) := by
    rw [extractDB]
    split
    · rename_i hnone
      rw [hnone] at haudit
      cases haudit
    · rename_i data mongo hsome
      rw [hsome] at haudit ⊢
      rw [Option.some.inj haudit]
  rw [extractDBs, hfirst]
  simp only [hsecond]
  refine ⟨trivial, ?_⟩
  intro db hdb
  rcases hdb with rfl | rfl
  · simp
  · simp

end State

/-- A request that does not reach a defect: a collection is set to an object, a document to an
object or in a collection that is there, a path makes no slice that is too long, and a resync
downloads both databases. -/
def Request.Fits (conn : MongoConnector N M) (state : State N M) (request : Request N) : Prop :=
  match request.method, request.path with
  | .set, (_, [collection]) =>
    if collection = "resync" then
      (conn.ExtractDB "dbi" state.mongo).1.isSome = true ∧
        (conn.ExtractDB "audit" (conn.ExtractDB "dbi" state.mongo).2).1.isSome = true
    else ∃ new, request.body = .object new
  | .post, (db, [collection, _]) => state.usable db collection request.body
  | .set, (db, [collection, _]) => state.usable db collection request.body
  | .post, (db, collection :: document :: field) => state.fitsPath db collection document field
  | .set, (db, collection :: document :: field) => state.fitsPath db collection document field
  | _, _ => True

/-- A request is for one of the two databases. -/
theorem Request.path_db (request : Request N) :
    request.path.1 = "dbi" ∨ request.path.1 = "audit" := by
  rw [Request.path]
  split
  · exact Or.inr rfl
  · exact Or.inl rfl

namespace State

variable {state : State N M} {conn : MongoConnector N M}

/-- A request that fits has an outcome. -/
theorem handle_answers (h : state.Complete) {request : Request N}
    (hfits : request.Fits conn state) (now : N) :
    state.Answers (state.handle conn now request) := by
  have hdb := request.path_db
  obtain ⟨method, uri, body⟩ := request
  obtain ⟨path, hpath⟩ : ∃ path, path = Request.path (⟨method, uri, body⟩ : Request N) := ⟨_, rfl⟩
  obtain ⟨db, frags⟩ := path
  rw [← hpath] at hdb
  simp only [Request.Fits, ← hpath] at hfits
  rw [handle]
  simp only [← hpath]
  cases method with
  | get => exact ⟨_, state, rfl, h, fun _ _ _ => rfl⟩
  | post =>
    match frags, hfits with
    | [], _ => exact Answers.rejected h _
    | [collection], _ =>
      have hpost : false = true → ∃ new, body = Value.object new := by simp
      exact editCollection_answers h hdb hpost
    | [collection, document], hfits => exact editDocument_answers h hdb hfits false
    | collection :: document :: first :: rest, hfits => exact editField_answers h hdb hfits body false
  | set =>
    match frags, hfits with
    | [], _ => exact Answers.rejected h _
    | [collection], hfits =>
      simp only [SET]
      simp only at hfits
      split at hfits
      · rename_i hresync
        rw [if_pos hresync]
        obtain ⟨hok, hcomplete⟩ := extractDBs_answers hfits
        exact Answers.unless hcomplete _ _
      · rename_i hresync
        rw [if_neg hresync]
        exact editCollection_answers h hdb fun _ => hfits
    | [collection, document], hfits => exact editDocument_answers h hdb hfits true
    | collection :: document :: first :: rest, hfits => exact editField_answers h hdb hfits body true
  | delete =>
    match frags with
    | [] => exact Answers.rejected h _
    | [collection] => exact deleteCollection_answers h hdb
    | [collection, document] => exact deleteDocument_answers h hdb
    | collection :: document :: first :: rest => exact deleteField_answers h hdb _

/-- The states that are reached from a successful start by requests that fit. -/
inductive ReachesFitting (conn : MongoConnector N M) : State N M → Prop where
  | init {mongo : M} {state : State N M} :
    extractDBs conn ⟨∅, mongo⟩ = (true, state) → ReachesFitting conn state
  | handle {state next : State N M} {now : N} {request : Request N}
    {answer : Except Failure (Answer N)} :
    ReachesFitting conn state → request.Fits conn state →
    state.handle conn now request = some (answer, next) → ReachesFitting conn next

/-- A start that succeeds has both databases. -/
theorem complete_of_init {mongo : M} (h : extractDBs conn ⟨∅, mongo⟩ = (true, state)) :
    state.Complete := by
  have hdownload : (conn.ExtractDB "dbi" mongo).1.isSome = true ∧
      (conn.ExtractDB "audit" (conn.ExtractDB "dbi" mongo).2).1.isSome = true := by
    rw [extractDBs, extractDB] at h
    cases hdbi : conn.ExtractDB "dbi" mongo with
    | mk data after =>
      rw [hdbi] at h
      cases data with
      | none => cases h
      | some data =>
        refine ⟨rfl, ?_⟩
        simp only [extractDB] at h
        cases haudit : conn.ExtractDB "audit" after with
        | mk audit last =>
          rw [haudit] at h
          cases audit with
          | none => cases h
          | some audit => rfl
  have hcomplete : ((⟨∅, mongo⟩ : State N M).extractDBs conn).2.Complete :=
    (extractDBs_answers hdownload).2
  rw [h] at hcomplete
  exact hcomplete

/-- In every state that is reached both databases are there. -/
theorem complete_of_reaches (h : ReachesFitting conn state) : state.Complete := by
  induction h with
  | init hinit => exact complete_of_init hinit
  | handle hreach hfits hstep ih =>
    obtain ⟨answer, next, heq, hcomplete, _⟩ := handle_answers ih hfits _
    rw [hstep] at heq
    cases heq
    exact hcomplete

/-- In every run of requests that fit, no request panics, and one that is rejected leaves the
local copy and the server as they were. -/
theorem rejected_unchanged (h : ReachesFitting conn state) {request : Request N}
    (hfits : request.Fits conn state) (now : N) :
    ∃ answer next, state.handle conn now request = some (answer, next) ∧
      ∀ e, answer = .error e → e ≠ .mongo → next = state := by
  obtain ⟨answer, next, heq, _, hsame⟩ := handle_answers (complete_of_reaches h) hfits now
  exact ⟨answer, next, heq, hsame⟩

/-- The state after the start with one document. -/
def essState : State ℕ (Server ℕ) := (extractDBs memoryConnector ⟨∅, essServer⟩).2

theorem essState_init : extractDBs memoryConnector ⟨∅, essServer⟩ = (true, essState) := rfl

/-- A POST of a text as a document. -/
def textPost : Request ℕ := ⟨.post, ["configs", "bms"], .text "x"⟩

theorem rejected_unchanged_textPost :
    ∃ answer next, essState.handle memoryConnector 7 textPost = some (answer, next) ∧
      ∀ e, answer = .error e → e ≠ .mongo → next = essState := by
  have hthere : (essState.collection? "dbi" "configs").isSome = true := by decide
  have hfits : textPost.Fits memoryConnector essState := Or.inr hthere
  exact rejected_unchanged (.init essState_init) hfits 7

/-- A SET of a text as a collection. -/
def textSet : Request ℕ := ⟨.set, ["configs"], .text "x"⟩

def resync : Request ℕ := ⟨.set, ["resync"], .null⟩

/-- A POST of an object as a document. -/
def objectPost : Request ℕ := ⟨.post, ["configs", "bms"], .object [("soc", .scalar 60)]⟩

/-- The state after the start from a server that then answers no more. -/
def cutState : State ℕ (ℕ × Server ℕ) :=
  (extractDBs memoryConnector.limited ⟨∅, 2, essServer⟩).2

theorem cutState_init :
    extractDBs memoryConnector.limited ⟨∅, 2, essServer⟩ = (true, cutState) := rfl

/-- A SET of a text as a collection is rejected after the collection is cleared in both copies,
and after a resync that fails a POST panics. -/
theorem rejected_changes :
    (∃ state next, Reaches memoryConnector state ∧
      state.handle memoryConnector 7 textSet = some (.error .badBody, next) ∧
      next.mongo.stored ≠ state.mongo.stored) ∧
    ∃ state next answer, Reaches memoryConnector.limited state ∧
      state.handle memoryConnector.limited 7 resync = some (answer, next) ∧
      next.handle memoryConnector.limited 7 objectPost = none := by
  constructor
  · refine ⟨essState, _, .init essState_init, rfl, ?_⟩
    intro hsame
    have hlength : 0 = 1 := congrArg List.length hsame
    cases hlength
  · exact ⟨cutState, _, _, .init cutState_init, rfl, rfl⟩

end State

end HybridOs.Dbi
