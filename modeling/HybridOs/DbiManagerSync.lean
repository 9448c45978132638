import HybridOs.DbiManagerSafe

/-!
# What an extraction rebuilds

The local copy that an extraction rebuilds from the server, and how it changes when a document
is replaced or deleted or a collection is dropped there.
-/

namespace HybridOs.Dbi

variable {N M : Type}

/-- Documents with different `_id`s. -/
def DistinctIds (docs : List (Fields N)) : Prop :=
  docs.Pairwise fun a b => a.lookup "_id" ≠ b.lookup "_id"

namespace State

/-- A step of the extraction of a collection. -/
def extractDoc (coll : Collection N) (body : Fields N) : Collection N :=
  match nameOf body with
  | some name => coll.insert name (stripped body)
  | none => coll

theorem extractDocs_eq (docs : List (Fields N)) : extractDocs docs = docs.foldl extractDoc ∅ :=
  rfl

variable {docs : List (Fields N)} {acc : Collection N}

theorem mem_of_lookup_foldl {name : String} {fields : Fields N}
    (h : (docs.foldl extractDoc acc).lookup name = some fields) :
    (∃ d ∈ docs, nameOf d = some name ∧ stripped d = fields) ∨ acc.lookup name = some fields := by
  induction docs generalizing acc with
  | nil => exact Or.inr h
  | cons body rest ih =>
    rw [List.foldl_cons] at h
    rcases ih h with ⟨d, hmem, hd⟩ | hacc
    · exact Or.inl ⟨d, List.mem_cons_of_mem _ hmem, hd⟩
    · rw [extractDoc] at hacc
      cases hname : nameOf body with
      | none =>
        rw [hname] at hacc
        exact Or.inr hacc
      | some found =>
        rw [hname] at hacc
        simp only [lookup_insert_ite] at hacc
        split at hacc
        · rename_i heq
          exact Or.inl ⟨body, List.mem_cons_self, by rw [hname, heq], Option.some.inj hacc⟩
        · exact Or.inr hacc

theorem lookup_foldl_of_not_named {name : String} (h : ∀ d ∈ docs, nameOf d ≠ some name) :
    (docs.foldl extractDoc acc).lookup name = acc.lookup name := by
  induction docs generalizing acc with
  | nil => rfl
  | cons body rest ih =>
    have hbody : nameOf body ≠ some name := h body List.mem_cons_self
    have hrest : ∀ d ∈ rest, nameOf d ≠ some name := fun d hd =>
      h d (List.mem_cons_of_mem _ hd)
    rw [List.foldl_cons, ih hrest, extractDoc]
    cases hname : nameOf body with
    | none => rfl
    | some found =>
      have hne : name ≠ found := by
        intro heq
        exact hbody (by rw [hname, heq])
      simp only [lookup_insert_ite, if_neg hne]

theorem lookup_foldl_of_mem {d : Fields N} {name : String} (hids : DistinctIds docs)
    (hmem : d ∈ docs) (hname : nameOf d = some name) :
    (docs.foldl extractDoc acc).lookup name = some (stripped d) := by
  induction docs generalizing acc with
  | nil => cases hmem
  | cons body rest ih =>
    obtain ⟨hbody, hrest⟩ := List.pairwise_cons.1 hids
    rw [List.foldl_cons]
    rcases List.mem_cons.1 hmem with rfl | hin
    · have hothers : ∀ other ∈ rest, nameOf other ≠ some name := by
        intro other hother heq
        exact hbody other hother (by rw [lookup_id_of_nameOf hname, lookup_id_of_nameOf heq])
      rw [lookup_foldl_of_not_named hothers, extractDoc, hname, Finmap.lookup_insert]
    · exact ih hrest hin

/-- The documents that are extracted are those of the server, without their metadata. -/
theorem lookup_extractDocs (hids : DistinctIds docs) (name : String) (fields : Fields N) :
    (extractDocs docs).lookup name = some fields ↔
      ∃ d ∈ docs, nameOf d = some name ∧ stripped d = fields := by
  rw [extractDocs_eq]
  constructor
  · intro h
    rcases mem_of_lookup_foldl h with hmem | hempty
    · exact hmem
    · rw [Finmap.lookup_empty] at hempty
      cases hempty
  · rintro ⟨d, hmem, hname, rfl⟩
    exact lookup_foldl_of_mem hids hmem hname

/-- Two collections with the same documents of a name are extracted alike there. -/
theorem lookup_extractDocs_congr {other : List (Fields N)} (hids : DistinctIds docs)
    (hother : DistinctIds other) {name : String}
    (h : ∀ d, nameOf d = some name → (d ∈ docs ↔ d ∈ other)) :
    (extractDocs docs).lookup name = (extractDocs other).lookup name := by
  refine Option.ext fun fields => ?_
  rw [lookup_extractDocs hids, lookup_extractDocs hother]
  constructor
  · rintro ⟨d, hd, hnamed, hfields⟩
    exact ⟨d, (h d hnamed).1 hd, hnamed, hfields⟩
  · rintro ⟨d, hd, hnamed, hfields⟩
    exact ⟨d, (h d hnamed).2 hd, hnamed, hfields⟩

/-- Two collections with the same documents are extracted alike. -/
theorem extractDocs_congr {other : List (Fields N)} (hids : DistinctIds docs)
    (hother : DistinctIds other) (h : ∀ d, d ∈ docs ↔ d ∈ other) :
    extractDocs docs = extractDocs other :=
  Finmap.ext_lookup fun _ => lookup_extractDocs_congr hids hother fun d _ => h d

theorem lookup_id_ne {d : Fields N} {name other : String} (hnamed : nameOf d = some other)
    (hne : other ≠ name) : d.lookup "_id" ≠ some (.text name) :=
  fun hid => hne (Option.some.inj (hnamed.symm.trans (nameOf_of_lookup_id hid)))

theorem lookup_foldl_collections {data : List (String × List (Fields N))} {acc : Database N}
    (hnodup : (data.map Prod.fst).Nodup) (collection : String) :
    (data.foldl (fun colls entry => colls.insert entry.1 (extractDocs entry.2)) acc).lookup
        collection = ((data.lookup collection).map extractDocs).or (acc.lookup collection) := by
  induction data generalizing acc with
  | nil => rfl
  | cons entry rest ih =>
    rw [List.map_cons, List.nodup_cons] at hnodup
    rw [List.foldl_cons, ih hnodup.2, List.lookup_cons, lookup_insert_ite]
    by_cases heq : collection = entry.1
    · have hbeq : (collection == entry.1) = true := by simp [heq]
      have hrest : rest.lookup collection = none := by
        rw [List.lookup_eq_none_iff]
        intro other hother
        rw [bne_iff_ne, heq]
        intro hsame
        exact hnodup.1 (hsame ▸ List.mem_map_of_mem hother)
      rw [hbeq, hrest, if_pos heq]
      rfl
    · have hbeq : (collection == entry.1) = false := by simp [heq]
      rw [hbeq, if_neg heq]

end State

open State

/-- A database as it is extracted. -/
def databaseOf (conn : MongoConnector N M) (mongo : M) (db : String) : Database N :=
  extractCollections ((conn.ExtractDB db mongo).1.getD [])

/-- The local copy that is extracted. -/
def rebuilt (conn : MongoConnector N M) (mongo : M) : Map (Database N) :=
  (extractDBs conn ⟨∅, mongo⟩).2.localData

section

variable {conn : MongoConnector N M} (hconn : conn.Lawful) {mongo after : M}
  {db collection name : String}
include hconn

theorem lookup_databaseOf (mongo : M) (db collection : String) :
    (databaseOf conn mongo db).lookup collection =
      if documentsIn conn mongo db collection = [] then none
      else some (extractDocs (documentsIn conn mongo db collection)) := by
  obtain ⟨data, hdata, hnodup, hfull⟩ := hconn.extracts db mongo
  have hlookup : (databaseOf conn mongo db).lookup collection =
      (data.lookup collection).map extractDocs := by
    rw [databaseOf, hdata, Option.getD_some, extractCollections,
      lookup_foldl_collections hnodup, Finmap.lookup_empty, Option.or_none]
  have hdocs : documentsIn conn mongo db collection = (data.lookup collection).getD [] := by
    rw [documentsIn, hdata, Option.bind_some]
  rw [hlookup, hdocs]
  cases hfound : data.lookup collection with
  | none => rfl
  | some docs =>
    have hmem : (collection, docs) ∈ data := by
      obtain ⟨l, k, heq, hnot⟩ := List.lookup_eq_some_iff.1 hfound
      rw [heq]
      simp
    have hne : docs ≠ [] := hfull _ hmem
    rw [Option.getD_some, if_neg hne]
    rfl

theorem docsIn_databaseOf (mongo : M) (db collection : String) :
    docsIn (databaseOf conn mongo db) collection =
      extractDocs (documentsIn conn mongo db collection) := by
  rw [docsIn, lookup_databaseOf hconn]
  split
  · rename_i hempty
    rw [hempty]
    rfl
  · rfl

/-- A collection with the same documents is extracted alike. -/
theorem lookup_databaseOf_congr (h : ∀ d, d ∈ documentsIn conn after db collection ↔
      d ∈ documentsIn conn mongo db collection) :
    (databaseOf conn after db).lookup collection =
      (databaseOf conn mongo db).lookup collection := by
  rw [lookup_databaseOf hconn, lookup_databaseOf hconn]
  have hempty : documentsIn conn after db collection = [] ↔
      documentsIn conn mongo db collection = [] := by
    rw [List.eq_nil_iff_forall_not_mem, List.eq_nil_iff_forall_not_mem]
    simp only [h]
  have hdocs := extractDocs_congr (hconn.ids after db collection) (hconn.ids mongo db collection) h
  simp only [hempty, hdocs]

theorem extractDBs_eq (localData : Map (Database N)) (mongo : M) :
    extractDBs conn ⟨localData, mongo⟩ =
      (true, ⟨((∅ : Map (Database N)).insert "dbi" (databaseOf conn mongo "dbi")).insert "audit"
        (databaseOf conn mongo "audit"), mongo⟩) := by
  obtain ⟨dbi, hdbi, _⟩ := hconn.extracts "dbi" mongo
  obtain ⟨audit, haudit, _⟩ := hconn.extracts "audit" mongo
  simp only [extractDBs, extractDB, hdbi, haudit, databaseOf, Option.getD_some]

theorem rebuilt_eq (mongo : M) :
    rebuilt conn mongo =
      ((∅ : Map (Database N)).insert "dbi" (databaseOf conn mongo "dbi")).insert "audit"
        (databaseOf conn mongo "audit") := by
  rw [rebuilt, extractDBs_eq hconn]

theorem lookup_rebuilt (hdb : db = "dbi" ∨ db = "audit") :
    (rebuilt conn mongo).lookup db = some (databaseOf conn mongo db) := by
  rw [rebuilt_eq hconn, lookup_insert_ite, lookup_insert_ite]
  rcases hdb with rfl | rfl
  · simp
  · simp

/-- Where the server changes in one database only, so does what is extracted. -/
theorem rebuilt_insert (hdb : db = "dbi" ∨ db = "audit")
    (h : ∀ otherDb, otherDb ≠ db → databaseOf conn after otherDb = databaseOf conn mongo otherDb) :
    rebuilt conn after = (rebuilt conn mongo).insert db (databaseOf conn after db) := by
  refine Finmap.ext_lookup fun other => ?_
  rw [lookup_insert_ite]
  by_cases heq : other = db
  · rw [if_pos heq, heq, lookup_rebuilt hconn hdb]
  · rw [if_neg heq]
    by_cases hother : other = "dbi" ∨ other = "audit"
    · rw [lookup_rebuilt hconn hother, lookup_rebuilt hconn hother, h other heq]
    · rw [rebuilt_eq hconn, rebuilt_eq hconn]
      simp only [lookup_insert_ite]
      have hdbi : other ≠ "dbi" := fun h => hother (Or.inl h)
      have haudit : other ≠ "audit" := fun h => hother (Or.inr h)
      rw [if_neg haudit, if_neg haudit, if_neg hdbi, if_neg hdbi]

/-- A change of one collection of the server, as it is extracted. -/
theorem databaseOf_change (docs : Collection N) (hdocs : documentsIn conn after db collection ≠ [])
    (hextract : extractDocs (documentsIn conn after db collection) = docs)
    (hothers : ∀ otherDb other, ¬ (otherDb = db ∧ other = collection) → ∀ d,
      d ∈ documentsIn conn after otherDb other ↔ d ∈ documentsIn conn mongo otherDb other) :
    databaseOf conn after db = (databaseOf conn mongo db).insert collection docs := by
  refine Finmap.ext_lookup fun other => ?_
  rw [lookup_insert_ite]
  by_cases heq : other = collection
  · rw [if_pos heq, heq, lookup_databaseOf hconn, if_neg hdocs, hextract]
  · rw [if_neg heq]
    exact lookup_databaseOf_congr hconn (hothers db other fun h => heq h.2)

theorem databaseOf_others (hothers : ∀ otherDb other, ¬ (otherDb = db ∧ other = collection) → ∀ d,
      d ∈ documentsIn conn after otherDb other ↔ d ∈ documentsIn conn mongo otherDb other)
    (otherDb : String) (hne : otherDb ≠ db) :
    databaseOf conn after otherDb = databaseOf conn mongo otherDb :=
  Finmap.ext_lookup fun other =>
    lookup_databaseOf_congr hconn (hothers otherDb other fun h => hne h.1)

/-- What is extracted after a document is replaced. -/
theorem rebuilt_replaced (hdb : db = "dbi" ∨ db = "audit") {document : Fields N}
    (hname : document.lookup "_id" = some (.text name)) :
    (conn.ReplaceDocument db collection document mongo).1 = true ∧
    rebuilt conn (conn.ReplaceDocument db collection document mongo).2 =
      (rebuilt conn mongo).insert db ((databaseOf conn mongo db).insert collection
        ((extractDocs (documentsIn conn mongo db collection)).insert name (stripped document))) ∧
    documentsIn conn (conn.ReplaceDocument db collection document mongo).2 db collection ≠ [] := by
  obtain ⟨after, hafter, hdocs, hothers⟩ :=
    hconn.replaces db collection document name mongo hname
  rw [hafter]
  have hmem : document ∈ documentsIn conn after db collection := (hdocs _).2 (Or.inl rfl)
  have hne : documentsIn conn after db collection ≠ [] := List.ne_nil_of_mem hmem
  have hextract : extractDocs (documentsIn conn after db collection) =
      (extractDocs (documentsIn conn mongo db collection)).insert name (stripped document) := by
    have hself := nameOf_of_lookup_id hname
    refine Finmap.ext_lookup fun other => ?_
    rw [lookup_insert_ite]
    by_cases heq : other = name
    · rw [if_pos heq, heq, lookup_extractDocs (hconn.ids after db collection)]
      exact ⟨document, hmem, hself, rfl⟩
    · rw [if_neg heq]
      refine lookup_extractDocs_congr (hconn.ids _ _ _) (hconn.ids _ _ _) fun d hnamed => ?_
      rw [hdocs, and_iff_left (lookup_id_ne hnamed heq), or_iff_right]
      rintro rfl
      exact heq (Option.some.inj (hnamed.symm.trans hself))
  refine ⟨rfl, ?_, hne⟩
  rw [rebuilt_insert hconn hdb (databaseOf_others hconn hothers),
    databaseOf_change hconn _ hne hextract hothers]

/-- What is extracted after a document is deleted from a collection with a further one. -/
theorem rebuilt_deleted (hdb : db = "dbi" ∨ db = "audit")
    (hmore : ∃ d ∈ documentsIn conn mongo db collection, d.lookup "_id" ≠ some (.text name)) :
    rebuilt conn (conn.DeleteDocument db collection name mongo).2 =
      (rebuilt conn mongo).insert db ((databaseOf conn mongo db).insert collection
        ((extractDocs (documentsIn conn mongo db collection)).erase name)) := by
  obtain ⟨after, hafter, hdocs, hothers⟩ := hconn.deletes db collection name mongo
  rw [hafter]
  obtain ⟨further, hfurther⟩ := hmore
  have hmem : further ∈ documentsIn conn after db collection := (hdocs _).2 hfurther
  have hne : documentsIn conn after db collection ≠ [] := List.ne_nil_of_mem hmem
  have hextract : extractDocs (documentsIn conn after db collection) =
      (extractDocs (documentsIn conn mongo db collection)).erase name := by
    refine Finmap.ext_lookup fun other => ?_
    rw [lookup_erase_ite]
    by_cases heq : other = name
    · rw [if_pos heq, heq, Option.eq_none_iff_forall_ne_some]
      intro fields hfields
      obtain ⟨d, hd, hnamed, -⟩ := (lookup_extractDocs (hconn.ids _ _ _) _ _).1 hfields
      exact absurd (lookup_id_of_nameOf hnamed) ((hdocs d).1 hd).2
    · rw [if_neg heq]
      refine lookup_extractDocs_congr (hconn.ids _ _ _) (hconn.ids _ _ _) fun d hnamed => ?_
      rw [hdocs, and_iff_left (lookup_id_ne hnamed heq)]
  rw [rebuilt_insert hconn hdb (databaseOf_others hconn hothers),
    databaseOf_change hconn _ hne hextract hothers]

/-- What is extracted after a collection is dropped. -/
theorem rebuilt_dropped (hdb : db = "dbi" ∨ db = "audit") :
    rebuilt conn (conn.DeleteCollection db collection mongo).2 =
      (rebuilt conn mongo).insert db ((databaseOf conn mongo db).erase collection) ∧
    databaseOf conn (conn.DeleteCollection db collection mongo).2 db =
      (databaseOf conn mongo db).erase collection ∧
    documentsIn conn (conn.DeleteCollection db collection mongo).2 db collection = [] := by
  obtain ⟨after, hafter, hempty, hothers⟩ := hconn.drops db collection mongo
  rw [hafter]
  have hdatabase : databaseOf conn after db = (databaseOf conn mongo db).erase collection := by
    refine Finmap.ext_lookup fun other => ?_
    rw [lookup_erase_ite]
    by_cases heq : other = collection
    · rw [if_pos heq, heq, lookup_databaseOf hconn, if_pos hempty]
    · rw [if_neg heq]
      exact lookup_databaseOf_congr hconn (hothers db other fun h => heq h.2)
  refine ⟨?_, hdatabase, hempty⟩
  rw [rebuilt_insert hconn hdb (databaseOf_others hconn hothers), hdatabase]

end

/-!
## The local copy and the server

Where every call of the server succeeds and no request leaves a collection without documents in
the local copy, the copy after each request is the one that an extraction would rebuild.
-/

theorem lookup_id_withMetaData (document : String) (now : N) (fields : Fields N) :
    (withMetaData document now fields).lookup "_id" = some (.text document) := by
  rw [withMetaData, lookup_setField, if_neg (by decide), lookup_setField, if_pos rfl]

theorem lookup_stripped (fields : Fields N) :
    (stripped fields).lookup "_id" = none ∧ (stripped fields).lookup "_version" = none := by
  constructor
  · rw [stripped, lookup_deleteName, if_neg (by decide), lookup_deleteName, if_pos rfl]
  · rw [stripped, lookup_deleteName, if_pos rfl]

namespace State

variable {state : State N M} {conn : MongoConnector N M} {now : N}
  {db collection document : String}

/-- The local copy is the one that an extraction rebuilds. -/
def Synced (conn : MongoConnector N M) (state : State N M) : Prop :=
  state.localData = rebuilt conn state.mongo

/-- The local copy is the one that an extraction rebuilds, or has an empty collection more. -/
def Near (conn : MongoConnector N M) (db collection : String) (state : State N M) : Prop :=
  state.localData = rebuilt conn state.mongo ∨
    state.localData = (rebuilt conn state.mongo).insert db
      ((databaseOf conn state.mongo db).insert collection
        (extractDocs (documentsIn conn state.mongo db collection)))

section Steps

variable (hconn : conn.Lawful) (hdb : db = "dbi" ∨ db = "audit")
include hconn hdb

/-- The documents of a collection with and without the empty collection. -/
theorem Near.colls (h : state.Near conn db collection) :
    ∃ colls, state.localData.lookup db = some colls ∧
      docsIn colls collection = extractDocs (documentsIn conn state.mongo db collection) ∧
      ∀ docs, (state.withDocs db colls collection docs).localData =
        (rebuilt conn state.mongo).insert db
          ((databaseOf conn state.mongo db).insert collection docs) := by
  rcases h with h | h
  · refine ⟨databaseOf conn state.mongo db, ?_, docsIn_databaseOf hconn _ _ _, fun docs => ?_⟩
    · rw [h, lookup_rebuilt hconn hdb]
    · rw [withDocs, h]
  · refine ⟨_, by rw [h, Finmap.lookup_insert], ?_, fun docs => ?_⟩
    · rw [docsIn, Finmap.lookup_insert, Option.getD_some]
    · rw [withDocs, h]
      simp only [Finmap.insert_insert]

/-- Where the server has documents in the collection, the copy is the one rebuilt. -/
theorem Near.synced (h : state.Near conn db collection)
    (hdocs : documentsIn conn state.mongo db collection ≠ []) : state.Synced conn := by
  rcases h with h | h
  · exact h
  · have hcoll : (databaseOf conn state.mongo db).lookup collection =
        some (extractDocs (documentsIn conn state.mongo db collection)) := by
      rw [lookup_databaseOf hconn, if_neg hdocs]
    rw [Synced, h, insert_same hcoll, insert_same (lookup_rebuilt hconn hdb)]

/-- A document that is written in both copies. -/
theorem Near.written (h : state.Near conn db collection) (fields : Fields N) :
    ∃ colls, state.localData.lookup db = some colls ∧
      (((state.withDocs db colls collection ((docsIn colls collection).insert document
        (stripped (withMetaData document now fields)))).withMongo
          (conn.ReplaceDocument db collection (withMetaData document now fields)
            state.mongo).2).Synced conn) ∧
      documentsIn conn (conn.ReplaceDocument db collection (withMetaData document now fields)
        state.mongo).2 db collection ≠ [] := by
  obtain ⟨colls, hcolls, hin, hwith⟩ := h.colls hconn hdb
  obtain ⟨_, hreplaced, hne⟩ := rebuilt_replaced hconn hdb (lookup_id_withMetaData document now fields)
  refine ⟨colls, hcolls, ?_, hne⟩
  rw [Synced, withMongo_mongo, withMongo_localData, hwith, hin, hreplaced]

/-- An edit of a document keeps the copies near each other, and after an object the server has
a document in the collection. -/
theorem editDocument_near (h : state.Near conn db collection) (body : Value N) (isSet : Bool) :
    ∃ answer next, state.editDocument conn now db collection document body isSet =
        some (answer, next) ∧ next.Near conn db collection ∧
      ((∃ new, body = .object new) ∨ documentsIn conn state.mongo db collection ≠ [] →
        documentsIn conn next.mongo db collection ≠ []) := by
  obtain ⟨colls, hcolls, hin, hwith⟩ := h.colls hconn hdb
  by_cases hobject : ∃ new, body = .object new
  · obtain ⟨new, rfl⟩ := hobject
    rw [editDocument_object hcolls]
    obtain ⟨_, hsame, hsynced, hne⟩ := h.written hconn hdb
      (editedFields ((docsIn colls collection).lookup document) new isSet)
    obtain rfl : colls = _ := Option.some.inj (hcolls.symm.trans hsame)
    exact ⟨_, _, rfl, Or.inl hsynced, fun _ => hne⟩
  · rw [editDocument_bad hcolls fun new heq => hobject ⟨new, heq⟩]
    refine ⟨_, _, rfl, Or.inr ?_, ?_⟩
    · rw [hwith, hin]
      rfl
    · rintro (hnew | hne)
      · exact absurd hnew hobject
      · exact hne

/-- The edits of the documents of a body. -/
theorem editDocuments_near (bodies : Fields N) (h : state.Near conn db collection) :
    ∃ next, state.editDocuments conn now db collection bodies = some next ∧
      next.Near conn db collection ∧
      ((∃ entry ∈ bodies, ∃ new, entry.2 = .object new) ∨
          documentsIn conn state.mongo db collection ≠ [] →
        documentsIn conn next.mongo db collection ≠ []) := by
  induction bodies generalizing state with
  | nil =>
    refine ⟨state, rfl, h, ?_⟩
    rintro (⟨entry, hmem, _⟩ | hne)
    · cases hmem
    · exact hne
  | cons entry rest ih =>
    obtain ⟨answer, middle, hmiddle, hnear, hfirst⟩ :=
      editDocument_near hconn hdb h entry.2 false
    obtain ⟨next, hnext, hafter, hrest⟩ := ih hnear
    refine ⟨next, ?_, hafter, ?_⟩
    · rw [editDocuments, hmiddle, Option.bind_some, hnext]
    · rintro (⟨other, hmem, hobject⟩ | hne)
      · rcases List.mem_cons.1 hmem with rfl | hin
        · exact hrest (Or.inr (hfirst (Or.inl hobject)))
        · exact hrest (Or.inl ⟨other, hin, hobject⟩)
      · exact hrest (Or.inr (hfirst (Or.inr hne)))

/-! ## A request from a copy that is synced -/

theorem Synced.lookup (h : state.Synced conn) :
    state.localData.lookup db = some (databaseOf conn state.mongo db) := by
  rw [h, lookup_rebuilt hconn hdb]

theorem Synced.isSome_collection? (h : state.Synced conn) :
    (state.collection? db collection).isSome = true ↔
      documentsIn conn state.mongo db collection ≠ [] := by
  rw [collection?_eq (h.lookup hconn hdb), lookup_databaseOf hconn]
  split
  · simp_all
  · simp_all

theorem Synced.docs_of_collection? (h : state.Synced conn) {docs : Collection N}
    (hcoll : state.collection? db collection = some docs) :
    docs = extractDocs (documentsIn conn state.mongo db collection) := by
  rw [collection?_eq (h.lookup hconn hdb), lookup_databaseOf hconn] at hcoll
  split at hcoll
  · cases hcoll
  · exact (Option.some.inj hcoll).symm

variable {answer : Except Failure (Answer N)} {next : State N M}

section

variable (h : state.Synced conn)
include h

variable {body : Value N} {isSet : Bool} {field : List String}

theorem Synced.editDocument (hbody : state.usable db collection body)
    (hstep : state.editDocument conn now db collection document body isSet = some (answer, next)) :
    next.Synced conn := by
  have hnear : state.Near conn db collection := Or.inl h
  obtain ⟨_, found, hfound, hafter, hdocs⟩ := editDocument_near hconn hdb hnear body isSet
  rw [hstep] at hfound
  cases hfound
  refine hafter.synced hconn hdb (hdocs ?_)
  rcases hbody with hobject | hthere
  · exact Or.inl hobject
  · exact Or.inr ((h.isSome_collection? hconn hdb).1 hthere)

theorem Synced.post (hbody : ∀ new, body = .object new → new = [] ∨
      (∃ entry ∈ new, ∃ fields, entry.2 = .object fields) ∨
      (state.collection? db collection).isSome = true)
    (hstep : state.editCollection conn now db collection body false = some (answer, next)) :
    next.Synced conn := by
  rw [editCollection] at hstep
  simp only [Bool.false_eq_true, if_false, Option.bind_some] at hstep
  cases body with
  | object new =>
    obtain ⟨after, hafter, heq⟩ := Option.map_eq_some_iff.1 hstep
    cases heq
    have hnear : state.Near conn db collection := Or.inl h
    obtain ⟨found, hfound, hsame, hdocs⟩ := editDocuments_near hconn hdb new hnear
    rw [hafter] at hfound
    cases hfound
    rcases hbody new rfl with hempty | hobject | hthere
    · rw [hempty] at hafter
      cases hafter
      exact h
    · exact hsame.synced hconn hdb (hdocs (Or.inl hobject))
    · have hne := (h.isSome_collection? hconn hdb).1 hthere
      exact hsame.synced hconn hdb (hdocs (Or.inr hne))
  | _ =>
    cases hstep
    exact h

/-- A collection that is cleared in both copies is an empty collection in the local one. -/
theorem Synced.cleared :
    ((state.withDocs db (databaseOf conn state.mongo db) collection ∅).withMongo
      (conn.DeleteCollection db collection state.mongo).2).Near conn db collection := by
  obtain ⟨hrebuilt, hdatabase, hempty⟩ := rebuilt_dropped hconn hdb
  refine Or.inr ?_
  have herased : ((databaseOf conn state.mongo db).erase collection).insert collection
      (∅ : Collection N) = (databaseOf conn state.mongo db).insert collection ∅ := by
    refine Finmap.ext_lookup fun other => ?_
    rw [lookup_insert_ite, lookup_insert_ite, lookup_erase_ite]
    split <;> rfl
  have hnone : extractDocs ([] : List (Fields N)) = ∅ := rfl
  rw [withMongo_mongo, withMongo_localData, hrebuilt, hdatabase, hempty, hnone,
    Finmap.insert_insert, herased, withDocs, h]

theorem Synced.set {new : Fields N}
    (hobject : ∃ entry ∈ new, ∃ fields, entry.2 = Value.object fields)
    (hstep : state.editCollection conn now db collection (.object new) true = some (answer, next)) :
    next.Synced conn := by
  rw [editCollection, if_pos rfl, putCollection_eq (h.lookup hconn hdb)] at hstep
  simp only [Option.map_some] at hstep
  obtain ⟨after, hafter, heq⟩ := Option.map_eq_some_iff.1 hstep
  cases heq
  obtain ⟨found, hfound, hsame, hdocs⟩ := editDocuments_near hconn hdb new
    (h.cleared hconn hdb)
  have hfound' : some found = some next := hfound.symm.trans hafter
  cases hfound'
  exact hsame.synced hconn hdb (hdocs (Or.inl hobject))

theorem Synced.editField {data : Value N}
    (hstep : state.editField conn now db collection document field data isSet =
      some (answer, next)) : next.Synced conn := by
  have hnear : state.Near conn db collection := Or.inl h
  rcases editField_cases (h.lookup hconn hdb) field data isSet with
    ⟨hpanics, _⟩ | ⟨e, hfailed⟩ | ⟨after, hwritten⟩
  · rw [hpanics] at hstep
    cases hstep
  · rw [hfailed] at hstep
    cases hstep
    exact h
  · rw [hwritten] at hstep
    cases hstep
    obtain ⟨colls, hcolls, hsynced, _⟩ := hnear.written
      hconn hdb after
    obtain rfl := Option.some.inj ((h.lookup hconn hdb).symm.trans hcolls)
    exact hsynced

theorem Synced.deleteField
    (hstep : state.deleteField conn now db collection document field = some (answer, next)) :
    next.Synced conn := by
  have hnear : state.Near conn db collection := Or.inl h
  rcases state.getDocument_eq db collection document with ⟨e, he, _⟩ | ⟨fields, _, hdocument⟩
  · rw [State.deleteField, he] at hstep
    cases hstep
    exact h
  · obtain ⟨docs, hcoll, hdoc⟩ := of_document? (h.lookup hconn hdb) hdocument
    rcases deleteField_eq (h.lookup hconn hdb) hcoll hdoc field with
      ⟨e, hfailed⟩ | ⟨after, _, hwritten⟩
    · rw [hfailed] at hstep
      cases hstep
      exact h
    · rw [hwritten] at hstep
      cases hstep
      obtain ⟨colls, hcolls, hsynced, _⟩ := hnear.written
        hconn hdb after
      obtain rfl := Option.some.inj ((h.lookup hconn hdb).symm.trans hcolls)
      have hin : docsIn (databaseOf conn state.mongo db) collection = docs := by
        rw [docsIn, hcoll]
        rfl
      rw [hin] at hsynced
      exact hsynced

theorem Synced.deleteDocument (hmore : state.document? db collection document = none ∨
      ∃ d ∈ documentsIn conn state.mongo db collection, d.lookup "_id" ≠ some (.text document))
    {answer : Except Failure (Answer N)} {next : State N M}
    (hstep : state.deleteDocument conn db collection document = some (answer, next)) :
    next.Synced conn := by
  rcases state.getDocument_eq db collection document with ⟨e, he, _⟩ | ⟨fields, _, hdocument⟩
  · rw [State.deleteDocument, he] at hstep
    cases hstep
    exact h
  · obtain ⟨docs, hcoll, hdoc⟩ := of_document? (h.lookup hconn hdb) hdocument
    have hfurther : ∃ d ∈ documentsIn conn state.mongo db collection,
        d.lookup "_id" ≠ some (.text document) := by
      rcases hmore with hnone | hfurther
      · rw [hdocument] at hnone
        cases hnone
      · exact hfurther
    have hdocs := h.docs_of_collection? hconn hdb
      (by rw [collection?_eq (h.lookup hconn hdb), hcoll])
    rw [deleteDocument_eq (h.lookup hconn hdb) hcoll hdoc] at hstep
    cases hstep
    rw [Synced, withMongo_mongo, withMongo_localData,
      rebuilt_deleted hconn hdb hfurther, withDocs, h, hdocs]

theorem Synced.deleteCollection
    (hstep : state.deleteCollection conn db collection = some (answer, next)) :
    next.Synced conn := by
  cases hcoll : (databaseOf conn state.mongo db).lookup collection with
  | none =>
    have hmissing : state.getCollection db collection = .error .collectionNotFound := by
      rw [getCollection, collection?_eq (h.lookup hconn hdb), hcoll]
    rw [State.deleteCollection, hmissing] at hstep
    cases hstep
    exact h
  | some docs =>
    rw [deleteCollection_eq (h.lookup hconn hdb) hcoll] at hstep
    cases hstep
    rw [Synced, withMongo_mongo, withMongo_localData, (rebuilt_dropped hconn hdb).1]
    exact congrArg (fun data => Finmap.insert db
      (Finmap.erase collection (databaseOf conn state.mongo db)) data) h

end

end Steps

end State

/-- A request that leaves no collection without documents: a document is written as an object or
in a collection that is there, a collection with an object among its documents, and the
last document of a collection is not deleted. -/
def Request.KeepsCollections (conn : MongoConnector N M) (state : State N M)
    (request : Request N) : Prop :=
  match request.method, request.path with
  | .set, (_, [collection]) =>
    collection = "resync" ∨ ∃ new, request.body = .object new ∧
      ∃ entry ∈ new, ∃ fields, entry.2 = .object fields
  | .post, (db, [collection]) => ∀ new, request.body = .object new → new = [] ∨
      (∃ entry ∈ new, ∃ fields, entry.2 = .object fields) ∨
      (state.collection? db collection).isSome = true
  | .post, (db, [collection, _]) => state.usable db collection request.body
  | .set, (db, [collection, _]) => state.usable db collection request.body
  | .delete, (db, [collection, document]) => state.document? db collection document = none ∨
      ∃ d ∈ documentsIn conn state.mongo db collection, d.lookup "_id" ≠ some (.text document)
  | _, _ => True

namespace State

variable {state : State N M} {conn : MongoConnector N M}

/-- A request that leaves no collection without documents keeps the copies in step. -/
theorem Synced.handle (hconn : conn.Lawful) (h : state.Synced conn) {request : Request N}
    (hkeeps : request.KeepsCollections conn state) {now : N}
    {answer : Except Failure (Answer N)} {next : State N M}
    (hstep : state.handle conn now request = some (answer, next)) : next.Synced conn := by
  have hdb := request.path_db
  obtain ⟨method, uri, body⟩ := request
  obtain ⟨path, hpath⟩ : ∃ path, path = Request.path (⟨method, uri, body⟩ : Request N) := ⟨_, rfl⟩
  obtain ⟨db, frags⟩ := path
  rw [← hpath] at hdb
  simp only [Request.KeepsCollections, ← hpath] at hkeeps
  rw [State.handle] at hstep
  simp only [← hpath] at hstep
  cases method with
  | get =>
    cases hstep
    exact h
  | post =>
    rcases frags with _ | ⟨collection, _ | ⟨document, _ | ⟨first, rest⟩⟩⟩
    · cases hstep
      exact h
    · exact h.post hconn hdb hkeeps hstep
    · exact h.editDocument hconn hdb hkeeps hstep
    · exact h.editField hconn hdb hstep
  | set =>
    rcases frags with _ | ⟨collection, _ | ⟨document, _ | ⟨first, rest⟩⟩⟩
    · cases hstep
      exact h
    · simp only [SET] at hstep
      split at hstep
      · cases hstep
        have hextract := extractDBs_eq hconn state.localData state.mongo
        rw [Synced, hextract, rebuilt_eq hconn]
      · rename_i hresync
        rcases hkeeps with heq | ⟨new, rfl, hobject⟩
        · exact absurd heq hresync
        · exact h.set hconn hdb hobject hstep
    · exact h.editDocument hconn hdb hkeeps hstep
    · exact h.editField hconn hdb hstep
  | delete =>
    rcases frags with _ | ⟨collection, _ | ⟨document, _ | ⟨first, rest⟩⟩⟩
    · cases hstep
      exact h
    · exact h.deleteCollection hconn hdb hstep
    · exact h.deleteDocument hconn hdb hkeeps hstep
    · exact h.deleteField hconn hdb hstep

/-- The states that are reached from a successful start by requests that leave no collection
without documents. -/
inductive ReachesKeeping (conn : MongoConnector N M) : State N M → Prop where
  | init {mongo : M} {state : State N M} :
    extractDBs conn ⟨∅, mongo⟩ = (true, state) → ReachesKeeping conn state
  | handle {state next : State N M} {now : N} {request : Request N}
    {answer : Except Failure (Answer N)} :
    ReachesKeeping conn state → request.KeepsCollections conn state →
    state.handle conn now request = some (answer, next) → ReachesKeeping conn next

theorem synced_of_reaches (hconn : conn.Lawful) (h : ReachesKeeping conn state) :
    state.Synced conn := by
  induction h with
  | init hinit =>
    rename_i mongo after
    have hextract := extractDBs_eq hconn ∅ mongo
    rw [hinit] at hextract
    obtain ⟨_, rfl⟩ := Prod.mk.inj hextract
    rw [Synced, rebuilt_eq hconn]
  | handle _ hkeeps hstep ih => exact ih.handle hconn hkeeps hstep

/-- A GET is answered from the local copy. -/
theorem GET_congr {other : State N M} (h : other.localData = state.localData) (db : String)
    (path : List String) : other.GET db path = state.GET db path := by
  obtain ⟨localData, mongo⟩ := state
  obtain ⟨otherData, otherMongo⟩ := other
  obtain rfl : otherData = localData := h
  match path with
  | [] => rfl
  | [collection] => rfl
  | [collection, document] => rfl
  | collection :: document :: first :: rest => rfl

/-- A document of a copy that is synced has no metadata. -/
theorem Synced.no_metadata (hconn : conn.Lawful) (h : state.Synced conn)
    {db collection document : String} {fields : Fields N}
    (hdocument : state.document? db collection document = some fields) :
    fields.lookup "_id" = none ∧ fields.lookup "_version" = none := by
  by_cases hdb : db = "dbi" ∨ db = "audit"
  · obtain ⟨docs, hcoll, hdoc⟩ := of_document? (h.lookup hconn hdb) hdocument
    have hdocs := h.docs_of_collection? hconn hdb
      (by rw [collection?_eq (h.lookup hconn hdb), hcoll])
    rw [hdocs, lookup_extractDocs (hconn.ids _ _ _)] at hdoc
    obtain ⟨d, _, _, rfl⟩ := hdoc
    exact lookup_stripped d
  · have hmissing : state.localData.lookup db = none := by
      have hdbi : db ≠ "dbi" := fun heq => hdb (Or.inl heq)
      have haudit : db ≠ "audit" := fun heq => hdb (Or.inr heq)
      rw [h, rebuilt_eq hconn, lookup_insert_ite, lookup_insert_ite, if_neg haudit, if_neg hdbi,
        Finmap.lookup_empty]
    rw [document?, collection?, hmissing] at hdocument
    cases hdocument

/-- In every run of requests that leave no collection without documents, the local copy is the
one that an extraction rebuilds, so that a resync or a restart changes no answer to a GET, and
no document in it has metadata. -/
theorem copies_in_step (hconn : conn.Lawful) (h : ReachesKeeping conn state) :
    (state.extractDBs conn).1 = true ∧
    (state.extractDBs conn).2.localData = state.localData ∧
    (∀ db path, (state.extractDBs conn).2.GET db path = state.GET db path) ∧
    ∀ db collection document fields, state.document? db collection document = some fields →
      fields.lookup "_id" = none ∧ fields.lookup "_version" = none := by
  have hsynced := synced_of_reaches hconn h
  have hextract := extractDBs_eq hconn state.localData state.mongo
  have hlocal : (state.extractDBs conn).2.localData = state.localData := by
    rw [hsynced, rebuilt_eq hconn, hextract]
  refine ⟨by rw [hextract], hlocal, GET_congr hlocal, ?_⟩
  intro db collection document fields hdocument
  exact hsynced.no_metadata hconn hdocument

/-- The state after the start and a POST of a document. -/
def postedState : State ℕ (Server ℕ) :=
  ((essState.handle memoryConnector 7 objectPost).map (·.2)).getD essState

theorem copies_in_step_posted :
    (postedState.extractDBs memoryConnector).1 = true ∧
    (postedState.extractDBs memoryConnector).2.localData = postedState.localData ∧
    (∀ db path, (postedState.extractDBs memoryConnector).2.GET db path =
      postedState.GET db path) ∧
    ∀ db collection document fields,
      postedState.document? db collection document = some fields →
        fields.lookup "_id" = none ∧ fields.lookup "_version" = none := by
  have hkeeps : objectPost.KeepsCollections memoryConnector essState := Or.inl ⟨_, rfl⟩
  have hreach : ReachesKeeping memoryConnector postedState :=
    .handle (.init essState_init) hkeeps rfl
  exact copies_in_step memoryConnector_lawful hreach

/-- A deletion of the document `ess`. -/
def essDelete : Request ℕ := ⟨.delete, ["configs", "ess"], .null⟩

/-- After the last document of a collection is deleted the local copy answers a GET of the
collection, which it does not after a resync. -/
theorem copies_out_of_step :
    (memoryConnector : MongoConnector ℕ (Server ℕ)).Lawful ∧
    ∃ answer next, Reaches memoryConnector essState ∧
      essState.handle memoryConnector 7 essDelete = some (answer, next) ∧
      (next.extractDBs memoryConnector).2.localData ≠ next.localData ∧
      next.GET "dbi" ["configs"] ≠ (next.extractDBs memoryConnector).2.GET "dbi" ["configs"] := by
  refine ⟨memoryConnector_lawful, _, _, .init essState_init, rfl, ?_, ?_⟩
  · intro hsame
    have hcoll := congrArg (fun data : Map (Database ℕ) =>
      ((data.lookup "dbi").bind (·.lookup "configs")).isSome) hsame
    revert hcoll
    decide
  · intro hsame
    have hok := congrArg (fun answer : Except Failure (Answer ℕ) => answer.toBool) hsame
    revert hok
    decide

end State

end HybridOs.Dbi
