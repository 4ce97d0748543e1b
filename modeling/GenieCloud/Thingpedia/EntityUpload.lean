/-
  GenieCloud.Thingpedia.EntityUpload — the upload of the values of an entity
  (`uploadEntities` of `util/upload_dataset.ts`, over `model/entity.ts`).

  One transaction writes the name of the entity and, if it has one already, deletes its
  values; then the rows of the file are inserted, a few at a time. The values are inserted
  in the language of the request, and deleted in English. The file is unlinked in the end.

  `uploadEntities_iff`: an upload replaces the values of its language and no others, can be
  repeated, and otherwise changes nothing, exactly if no text loses blanks to its column,
  and either the language is English and the entity has a name or no values, or there
  is nothing to delete and nothing to insert; and what is committed when the answer is lost,
  or the file cannot be unlinked, was there before.

  The CSV parser is the rows it emits and its error; the tokenizer, what the database compares
  of a canonical form, and how the stream hands the rows to its writer are parameters.
-/

import GenieCloud.Lib.Transaction
import GenieCloud.Lib.Varchar
import GenieCloud.Nlp.Learn
import GenieCloud.Thingpedia.Dataset
import Mathlib.Data.List.Perm.Subperm

namespace GenieCloud.Thingpedia.EntityUpload

open GenieCloud.Lib GenieCloud.Lib.Transaction
open Nlp.Learn (localeToLanguage)

/-! ## The tables -/

/-- A row of `entity_lexicon`. -/
structure ValueRow where
  language : String
  entity_id : String
  entity_value : String
  entity_canonical : String
  entity_name : String
  deriving DecidableEq

/-- What an entity is written with. -/
structure Entity where
  id : String
  name : String
  is_well_known : Bool
  has_ner_support : Bool
  deriving DecidableEq

/-- A row of `entity_names`. -/
structure NameRow extends Entity where
  language : String
  deriving DecidableEq

def sameText (s t : String) : Bool := unpadded s = unpadded t

/-- A `char` column, which returns no blanks at the end. -/
def char (n : Nat) (text : String) : Option String := (varchar n text).map fun kept => String.ofList (unpadded kept)

/-- What the columns keep of a row. -/
def ValueRow.store (row : ValueRow) : Option ValueRow := do
  let language ← basicColumn (char 15) row.language
  let entity_id ← basicColumn (varchar 64) row.entity_id
  let entity_value ← basicColumn (varchar 255) row.entity_value
  let entity_canonical ← basicColumn (varchar 128) row.entity_canonical
  let entity_name ← basicColumn (varchar 128) row.entity_name
  return ⟨language, entity_id, entity_value, entity_canonical, entity_name⟩

def Entity.store (entity : Entity) : Option Entity := do
  let id ← basicColumn (varchar 64) entity.id
  let name ← basicColumn (varchar 255) entity.name
  return { entity with id, name }

def ValueRow.isOf (id language : String) (row : ValueRow) : Bool :=
  sameText row.entity_id id && sameText row.language language

def NameRow.isOf (id language : String) (row : NameRow) : Bool := sameText row.id id && sameText row.language language

section

variable {κ : Type} (collate : String → κ)

/-- The primary key, as it is compared. -/
def ValueRow.key (row : ValueRow) : List Char × List Char × List Char × κ :=
  (unpadded row.language, unpadded row.entity_id, unpadded row.entity_value, collate row.entity_canonical)

def Distinct (rows : List ValueRow) : Prop := rows.Pairwise fun a b => a.key collate ≠ b.key collate

instance [DecidableEq κ] (rows : List ValueRow) : Decidable (Distinct collate rows) :=
  inferInstanceAs (Decidable (List.Pairwise _ _))

structure Lexicon where
  rows : List ValueRow
  distinct : Distinct collate rows

/-- `device_owner` is of `device_schema`, by its unique kind. -/
structure Db where
  entity_names : List NameRow
  entity_lexicon : Lexicon collate
  device_owner : String → Option Nat

end

inductive Error where
  | badRequest (message : String)
  | forbidden (message : String)
  | internal (code message : String)
  | dataTooLong
  | duplicateEntry
  | unlink
  deriving DecidableEq, Repr

variable {κ : Type} {collate : String → κ}

/-! ## The model of entities -/

abbrev M (collate : String → κ) := Tx (Db collate) Error

def names (db : Db collate) (id : String) : List NameRow := db.entity_names.filter (·.isOf id "en")

/-- `none` is `ENOENT`. -/
def get (id : String) : M collate (Option NameRow) := statement fun db =>
  match names db id with
  | [] => .ok (none, db)
  | [row] => .ok (some row, db)
  | rows =>
    .error (.internal "E_TOO_MANY_ROWS" ("Wrong number of rows returned, expected 1, got " ++ toString rows.length))

def update (id : String) (entity : Entity) : M collate Unit := statement fun db =>
  match entity.store with
  | none => .error .dataTooLong
  | some entity => .ok ((), { db with
      entity_names := db.entity_names.map fun row => if sameText row.id id then { row with toEntity := entity } else row })

/-- It is called when there is no row to replace. -/
def create (entity : Entity) : M collate Unit := statement fun db =>
  match entity.store with
  | none => .error .dataTooLong
  | some entity => .ok ((), { db with
      entity_names := db.entity_names.filter (fun row => !row.isOf entity.id "en") ++ [⟨entity, "en"⟩] })

def Lexicon.delete (lexicon : Lexicon collate) (p : ValueRow → Bool) : Lexicon collate :=
  ⟨lexicon.rows.filter fun row => !p row, lexicon.distinct.filter _⟩

def deleteValues (id : String) : M collate Unit := statement fun db =>
  .ok ((), { db with entity_lexicon := db.entity_lexicon.delete (·.isOf id "en") })

/-- `write` and `writev` of `insertValueStream`. -/
def insertMany [DecidableEq κ] (values : List ValueRow) : M collate Unit := statement fun db =>
  if values.all (·.store.isSome) then
    if h : Distinct collate (db.entity_lexicon.rows ++ values.filterMap ValueRow.store) then
      .ok ((), { db with entity_lexicon := ⟨_, h⟩ })
    else .error .duplicateEntry
  else .error .dataTooLong

/-! ## The upload -/

/-- The rows that the parser emits, and its error. -/
structure File where
  rows : List (List String)
  error : Option String

structure Request where
  locale : String
  roles : Nat
  developer_org : Option Nat
  entity_id : String
  entity_name : String
  no_ner_support : Bool
  file : Option File

/-- How the stream hands rows to its writer. -/
structure Writer where
  groups : List ValueRow → List (List ValueRow)
  flatten : ∀ values, (groups values).flatten = values

def THINGPEDIA_ADMIN : Nat := 4

def nameStart (c : Char) : Bool := c.isAlpha || c == '_'

def word (c : Char) : Bool := c.isAlphanum || c == '_'

def starts (rest : Char → Bool) : List Char → Bool
  | [] => false
  | c :: cs => nameStart c && cs.all rest

/-- The part before the colon, if `NAME_REGEX` matches. -/
def kindOf (id : String) : Option String :=
  match id.toList.splitOn ':' with
  | [kind, suffix] =>
    if starts (fun c => word c || c == '.' || c == '-') kind && starts word suffix then some (String.ofList kind) else none
  | _ => none

def checkOwner (req : Request) (kind : String) : M collate Unit :=
  if req.roles &&& THINGPEDIA_ADMIN ≠ 0 then pure ()
  else do
    let owner ← query fun db => db.device_owner kind
    if owner.isSome && owner = req.developer_org then pure ()
    else fail (.forbidden
      "The prefix of the entity ID must correspond to the ID of a Thingpedia device owned by your organization.")

def entityOf (req : Request) (existing : Option NameRow) : Entity where
  id := req.entity_id
  name :=
    match existing with
    | some existing => if req.entity_name = req.entity_id then existing.name else req.entity_name
    | none => req.entity_name
  is_well_known := false
  has_ner_support := !req.no_ner_support

def replaceName (req : Request) : M collate Unit := do
  match ← get req.entity_id with
  | some existing => do
    update existing.id (entityOf req existing)
    deleteValues existing.id
  | none => create (entityOf req none)

section

variable (tokenize : String → String → List String)

/-- `transform` -/
def toValue (req : Request) : List String → Option ValueRow
  | [value, name] => some {
      language := localeToLanguage req.locale
      entity_id := req.entity_id
      entity_value := String.ofList (trim value.toList)
      entity_canonical := " ".intercalate (tokenize req.locale name)
      entity_name := name }
  | _ => none

def valuesOf (req : Request) (file : File) : List ValueRow := file.rows.filterMap (toValue tokenize req)

end

def insertGroups [DecidableEq κ] : List (List ValueRow) → M collate Unit
  | [] => pure ()
  | values :: groups => do
    insertMany values
    insertGroups groups

/-- The error of the parser is thrown when the writer has finished. -/
def endOf (file : File) : M collate Unit :=
  match file.error with
  | some message => fail (.badRequest message)
  | none => pure ()

variable (tokenize : String → String → List String)

def insertValues [DecidableEq κ] (req : Request) (writer : Writer) : M collate Unit :=
  match req.file with
  | none => fail (.badRequest "You must upload a CSV file with the entity values.")
  | some file => do
    insertGroups (writer.groups (valuesOf tokenize req file))
    endOf file

def upload [DecidableEq κ] (req : Request) (writer : Writer) : M collate Unit :=
  match kindOf req.entity_id with
  | none => fail (.badRequest "Invalid entity type ID.")
  | some kind => do
    checkOwner req kind
    replaceName req
    if req.no_ner_support then pure () else insertValues tokenize req writer

/-- `unlinks`: whether the file can be unlinked. -/
def uploadEntities [DecidableEq κ] (db : Db collate) (req : Request) (writer : Writer) (fates : List Fate)
    (unlinks : Bool) : Db collate × Except (Transaction.Failure Error) Unit :=
  if req.file.isSome && !unlinks then ((transaction (upload tokenize req writer) db fates).1, .error (.error .unlink))
  else transaction (upload tokenize req writer) db fates

/-! ## What a request asks for -/

def registered (db : Db collate) (req : Request) : Bool := !(names db req.entity_id).isEmpty

/-- The values that are not deleted. -/
def kept (db : Db collate) (req : Request) : List ValueRow :=
  if registered db req then db.entity_lexicon.rows.filter fun row => !row.isOf req.entity_id "en"
  else db.entity_lexicon.rows

/-- The values of the file. -/
def values (req : Request) : List ValueRow :=
  if req.no_ner_support then [] else (req.file.map (valuesOf tokenize req)).getD []

def stored (req : Request) : List ValueRow := (values tokenize req).filterMap ValueRow.store

def Owns (db : Db collate) (req : Request) (kind : String) : Prop :=
  req.roles &&& THINGPEDIA_ADMIN ≠ 0 ∨ ∃ org, db.device_owner kind = some org ∧ req.developer_org = some org

/-- The database has no reason to refuse the upload, and neither has the code. -/
structure Accepted (db : Db collate) (req : Request) : Prop where
  kind : ∃ kind, kindOf req.entity_id = some kind ∧ Owns db req kind
  name : (names db req.entity_id).length ≤ 1
  entity : (entityOf req (names db req.entity_id).head?).store.isSome
  file : req.no_ner_support = false → ∃ file, req.file = some file ∧ file.error = none
  fits : ∀ row ∈ values tokenize req, row.store.isSome
  distinct : Distinct collate (kept db req ++ stored tokenize req)

/-- The round trips of the body. -/
def trips (db : Db collate) (req : Request) (writer : Writer) : Nat :=
  (if req.roles &&& THINGPEDIA_ADMIN ≠ 0 then 0 else 1) + ((if registered db req then 3 else 2) +
    (if req.no_ner_support then 0 else (writer.groups (values tokenize req)).length))

/-! ## What each part does -/

theorem checkOwner_runs {db : Db collate} {req : Request} {kind : String} (h : Owns db req kind) :
    Runs (checkOwner req kind) db (if req.roles &&& THINGPEDIA_ADMIN ≠ 0 then 0 else 1) () db := by
  unfold checkOwner
  split
  · exact Runs.pure () db
  · rename_i hadmin
    obtain ⟨org, howner, horg⟩ := h.resolve_left hadmin
    refine (Runs.query _ db).bind (p := 0) ?_
    simp only [howner, horg, Option.isSome_some, decide_true, Bool.and_self, if_true]
    exact Runs.pure () db

theorem checkOwner_breaks {db : Db collate} {req : Request} {kind : String} (h : ¬ Owns db req kind) :
    Breaks (checkOwner req kind) db := by
  obtain ⟨hadmin, howner⟩ := not_or.mp h
  unfold checkOwner
  rw [if_neg hadmin]
  refine (Runs.query _ db).bind_breaks ?_
  split
  · rename_i hmatch
    simp only [Bool.and_eq_true, decide_eq_true_eq] at hmatch
    obtain ⟨org, horg⟩ := Option.isSome_iff_exists.mp hmatch.1
    exact absurd ⟨org, horg, hmatch.2 ▸ horg⟩ howner
  · exact Breaks.fail _ db

theorem get_runs {db : Db collate} {id : String} (h : (names db id).length ≤ 1) :
    Runs (get id) db 1 (names db id).head? db := by
  refine Runs.statement ?_
  match hnames : names db id with
  | [] => rfl
  | [row] => rfl
  | row :: row' :: rows => simp [hnames] at h

theorem get_breaks {db : Db collate} {id : String} (h : ¬ (names db id).length ≤ 1) : Breaks (get id) db := by
  match hnames : names db id with
  | [] => simp [hnames] at h
  | [row] => simp [hnames] at h
  | row :: row' :: rows =>
    refine Breaks.statement (e := .internal "E_TOO_MANY_ROWS"
      ("Wrong number of rows returned, expected 1, got " ++ toString (row :: row' :: rows).length)) ?_
    rw [hnames]

/-! ### The name -/

theorem unpadded_store {n : Nat} {s t : String} (h : basicColumn (varchar n) s = some t) : unpadded t = unpadded s :=
  unpadded_varchar (basicColumn_eq_some.mp h).2

theorem entity_store_eq_some {entity e : Entity} : entity.store = some e ↔
    basicColumn (varchar 64) entity.id = some e.id ∧ basicColumn (varchar 255) entity.name = some e.name ∧
      e.is_well_known = entity.is_well_known ∧ e.has_ner_support = entity.has_ner_support := by
  unfold Entity.store
  cases basicColumn (varchar 64) entity.id <;> cases basicColumn (varchar 255) entity.name <;> cases e <;>
    simp [eq_comm]

/-- What is left once the name is written. -/
structure Named (db : Db collate) (req : Request) (e : Entity) (t : Db collate) : Prop where
  rows : t.entity_lexicon.rows = kept db req
  device_owner : t.device_owner = db.device_owner
  names : ∃ row, names t req.entity_id = [row] ∧ row.name = e.name

theorem isOf_congr {row row' : ValueRow} {id id' language language' : String}
    (hid : unpadded row'.entity_id = unpadded row.entity_id) (hlanguage : unpadded row'.language = unpadded row.language)
    (hid' : unpadded id' = unpadded id) (hlanguage' : unpadded language' = unpadded language) :
    row'.isOf id' language' = row.isOf id language := by
  simp only [ValueRow.isOf, sameText, hid, hlanguage, hid', hlanguage']

theorem update_runs {db : Db collate} {req : Request} {existing : NameRow} {e : Entity}
    (hexisting : names db req.entity_id = [existing]) (he : (entityOf req (some existing)).store = some e) :
    ∃ t, Runs (do update existing.id (entityOf req existing); deleteValues existing.id) db 2 () t ∧ Named db req e t := by
  have hid : unpadded existing.id = unpadded req.entity_id := by
    have hmem : existing ∈ names db req.entity_id := hexisting ▸ List.mem_singleton_self _
    have := (List.mem_filter.mp hmem).2
    simp only [NameRow.isOf, sameText, Bool.and_eq_true, decide_eq_true_eq] at this
    exact this.1
  have he' : unpadded e.id = unpadded req.entity_id := unpadded_store (entity_store_eq_some.mp he).1
  let f : NameRow → NameRow := fun row => if sameText row.id existing.id then { row with toEntity := e } else row
  have hupdate : Runs (update existing.id (entityOf req existing)) db 1 ()
      { db with entity_names := db.entity_names.map f } := by
    refine Runs.statement ?_
    rw [he]
  have hdelete : Runs (deleteValues existing.id) { db with entity_names := db.entity_names.map f } 1 () _ :=
    Runs.statement rfl
  have hruns := hupdate.bind (k := fun _ => deleteValues existing.id) hdelete
  refine ⟨_, hruns, ?_, rfl, f existing, ?_, ?_⟩
  · show db.entity_lexicon.rows.filter _ = kept db req
    rw [kept, registered, hexisting, List.isEmpty_cons, Bool.not_false, if_pos rfl]
    exact List.filter_congr fun row _ => congrArg (!·) (isOf_congr rfl rfl hid rfl)
  · -- the rows of the entity stay its rows
    show (db.entity_names.map f).filter _ = _
    rw [List.filter_map]
    have hkeep : ((fun row : NameRow => row.isOf req.entity_id "en") ∘ f) = fun row => row.isOf req.entity_id "en" := by
      funext row
      by_cases hrow : unpadded row.id = unpadded existing.id
      · simp [f, NameRow.isOf, sameText, hrow, hid, he']
      · simp [f, sameText, hrow]
    rw [hkeep]
    exact congrArg (List.map f) hexisting
  · simp [f, sameText]

theorem create_runs {db : Db collate} {req : Request} {e : Entity} (hnone : names db req.entity_id = [])
    (he : (entityOf req none).store = some e) : ∃ t, Runs (create (entityOf req none)) db 1 () t ∧ Named db req e t := by
  have he' : unpadded e.id = unpadded req.entity_id := unpadded_store (entity_store_eq_some.mp he).1
  refine ⟨_, Runs.statement (t := { db with
    entity_names := db.entity_names.filter (fun row => !row.isOf e.id "en") ++ [⟨e, "en"⟩] }) ?_, ?_⟩
  · rw [he]
  · refine ⟨?_, rfl, ⟨e, "en"⟩, ?_, rfl⟩
    · rw [kept, registered, hnone, List.isEmpty_nil, Bool.not_true, if_neg Bool.false_ne_true]
    · have hnew : (⟨e, "en"⟩ : NameRow).isOf req.entity_id "en" = true := by
        simp [NameRow.isOf, sameText, he']
      have hold : (db.entity_names.filter fun row => !row.isOf e.id "en").filter (·.isOf req.entity_id "en") = [] := by
        rw [List.filter_filter, List.filter_eq_nil_iff]
        intro row hrow
        have := List.filter_eq_nil_iff.mp hnone row hrow
        simp only [Bool.not_eq_true] at this
        simp [this]
      show (_ ++ [_]).filter _ = _
      rw [List.filter_append, hold, List.filter_singleton, hnew]
      rfl

theorem replaceName_runs {db : Db collate} {req : Request} {e : Entity} (hname : (names db req.entity_id).length ≤ 1)
    (he : (entityOf req (names db req.entity_id).head?).store = some e) :
    ∃ t, Runs (replaceName req) db (if registered db req then 3 else 2) () t ∧ Named db req e t := by
  have hget := get_runs hname
  unfold replaceName
  match hnames : names db req.entity_id with
  | [] =>
    rw [hnames] at he hget
    obtain ⟨t, ht, hnamed⟩ := create_runs hnames he
    have htrips : (if registered db req then 3 else 2) = 1 + 1 := by rw [registered, hnames]; rfl
    rw [htrips]
    exact ⟨t, hget.bind ht, hnamed⟩
  | [existing] =>
    rw [hnames] at he hget
    obtain ⟨t, ht, hnamed⟩ := update_runs hnames he
    have htrips : (if registered db req then 3 else 2) = 1 + 2 := by rw [registered, hnames]; rfl
    rw [htrips]
    exact ⟨t, hget.bind ht, hnamed⟩
  | row :: row' :: rows => simp [hnames] at hname

theorem replaceName_breaks {db : Db collate} {req : Request} (h : ¬ ((names db req.entity_id).length ≤ 1 ∧
      (entityOf req (names db req.entity_id).head?).store.isSome)) : Breaks (replaceName req) db := by
  unfold replaceName
  by_cases hname : (names db req.entity_id).length ≤ 1
  · have hstore : (entityOf req (names db req.entity_id).head?).store = none := by
      simpa [hname] using h
    refine (get_runs hname).bind_breaks ?_
    cases hhead : (names db req.entity_id).head? with
    | none =>
      rw [hhead] at hstore
      refine Breaks.statement (e := .dataTooLong) ?_
      rw [hstore]
    | some existing =>
      rw [hhead] at hstore
      refine (Breaks.statement (e := .dataTooLong) ?_).bind
      rw [hstore]
  · exact (get_breaks hname).bind

/-! ### The values -/

theorem Distinct.nodup {rows : List ValueRow} (h : Distinct collate rows) : rows.Nodup :=
  List.Pairwise.imp (fun hkey heq => hkey (congrArg _ heq)) h

section

variable [DecidableEq κ]

theorem insertMany_runs (db : Db collate) {values : List ValueRow} (hfits : ∀ row ∈ values, row.store.isSome)
    (hdistinct : Distinct collate (db.entity_lexicon.rows ++ values.filterMap ValueRow.store)) :
    Runs (insertMany values) db 1 () { db with entity_lexicon := ⟨_, hdistinct⟩ } := by
  refine Runs.statement ?_
  rw [if_pos (List.all_eq_true.mpr hfits), dif_pos hdistinct]

theorem insertMany_breaks {db : Db collate} {values : List ValueRow} (h : ¬ ((∀ row ∈ values, row.store.isSome) ∧
      Distinct collate (db.entity_lexicon.rows ++ values.filterMap ValueRow.store))) : Breaks (insertMany values) db := by
  by_cases hfits : ∀ row ∈ values, row.store.isSome
  · refine Breaks.statement (e := .duplicateEntry) ?_
    rw [if_pos (List.all_eq_true.mpr hfits), dif_neg fun hdistinct => h ⟨hfits, hdistinct⟩]
  · refine Breaks.statement (e := .dataTooLong) ?_
    rw [if_neg fun hall => hfits (List.all_eq_true.mp hall)]

/-- The groups are inserted as if they were one. -/
theorem insertGroups_runs (groups : List (List ValueRow)) (db : Db collate)
    (hfits : ∀ row ∈ groups.flatten, row.store.isSome)
    (hdistinct : Distinct collate (db.entity_lexicon.rows ++ groups.flatten.filterMap ValueRow.store)) :
    Runs (insertGroups groups) db groups.length () { db with entity_lexicon := ⟨_, hdistinct⟩ } := by
  induction groups generalizing db with
  | nil =>
    have hdb : { db with entity_lexicon := ⟨_, hdistinct⟩ } = db := by
      simp
    rw [hdb]
    exact Runs.pure () db
  | cons values groups ih =>
    have hsplit : db.entity_lexicon.rows ++ (values :: groups).flatten.filterMap ValueRow.store =
        db.entity_lexicon.rows ++ values.filterMap ValueRow.store ++ groups.flatten.filterMap ValueRow.store := by
      rw [List.flatten_cons, List.filterMap_append, List.append_assoc]
    have hall : Distinct collate
        (db.entity_lexicon.rows ++ values.filterMap ValueRow.store ++ groups.flatten.filterMap ValueRow.store) :=
      hsplit ▸ hdistinct
    have hfirst := insertMany_runs db (fun row hrow => hfits row (List.mem_append_left _ hrow))
      (List.pairwise_append.mp hall).1
    have hrest := ih { db with entity_lexicon := ⟨_, (List.pairwise_append.mp hall).1⟩ }
      (fun row hrow => hfits row (List.mem_append_right _ hrow)) hall
    rw [List.length_cons, Nat.add_comm]
    simp only [hsplit]
    exact hfirst.bind hrest

theorem insertGroups_breaks {groups : List (List ValueRow)} {db : Db collate}
    (h : ¬ ((∀ row ∈ groups.flatten, row.store.isSome) ∧
      Distinct collate (db.entity_lexicon.rows ++ groups.flatten.filterMap ValueRow.store))) :
    Breaks (insertGroups groups) db := by
  induction groups generalizing db with
  | nil => exact absurd ⟨nofun, by simpa using db.entity_lexicon.distinct⟩ h
  | cons values groups ih =>
    by_cases hfirst : (∀ row ∈ values, row.store.isSome) ∧
        Distinct collate (db.entity_lexicon.rows ++ values.filterMap ValueRow.store)
    · refine (insertMany_runs db hfirst.1 hfirst.2).bind_breaks (ih fun hrest => h ⟨?_, ?_⟩)
      · intro row hrow
        exact (List.mem_append.mp hrow).elim (hfirst.1 row) (hrest.1 row)
      · rw [List.flatten_cons, List.filterMap_append, ← List.append_assoc]
        exact hrest.2
    · exact (insertMany_breaks hfirst).bind

end

/-! ### The whole body -/

variable {tokenize : String → String → List String} {db t : Db collate} {req : Request} {writer : Writer}

/-- What an upload leaves. -/
structure Uploaded (tokenize : String → String → List String) (db : Db collate) (req : Request) (t : Db collate) : Prop where
  rows : t.entity_lexicon.rows = kept db req ++ stored tokenize req
  device_owner : t.device_owner = db.device_owner
  names : ∃ row e, names t req.entity_id = [row] ∧ row.name = e.name ∧
    (entityOf req (names db req.entity_id).head?).store = some e

theorem insertValues_runs [DecidableEq κ] (hner : req.no_ner_support = false)
    (hfile : ∃ file, req.file = some file ∧ file.error = none) (hfits : ∀ row ∈ values tokenize req, row.store.isSome)
    (hdistinct : Distinct collate (t.entity_lexicon.rows ++ stored tokenize req)) :
    Runs (insertValues tokenize req writer) t (writer.groups (values tokenize req)).length ()
      { t with entity_lexicon := ⟨_, hdistinct⟩ } := by
  obtain ⟨file, hfile, hend⟩ := hfile
  have hvalues : values tokenize req = valuesOf tokenize req file := by
    rw [values, hner, hfile]
    rfl
  have hflatten := writer.flatten (valuesOf tokenize req file)
  unfold insertValues endOf
  simp only [stored, hvalues, hfile, hend] at hfits hdistinct ⊢
  have hruns := insertGroups_runs (writer.groups (valuesOf tokenize req file)) t
    (by rw [hflatten]; exact hfits) (by rw [hflatten]; exact hdistinct)
  simp only [hflatten] at hruns
  exact hruns.bind (Runs.pure () _)

theorem insertValues_breaks [DecidableEq κ] (hner : req.no_ner_support = false)
    (h : ¬ ((∃ file, req.file = some file ∧ file.error = none) ∧ (∀ row ∈ values tokenize req, row.store.isSome) ∧
      Distinct collate (t.entity_lexicon.rows ++ stored tokenize req))) : Breaks (insertValues tokenize req writer) t := by
  unfold insertValues
  cases hfile : req.file with
  | none => exact Breaks.fail _ t
  | some file =>
    have hvalues : values tokenize req = valuesOf tokenize req file := by
      rw [values, hner, hfile]
      rfl
    have hflatten := writer.flatten (valuesOf tokenize req file)
    simp only [stored, hvalues, hfile] at h
    by_cases hgroups : (∀ row ∈ valuesOf tokenize req file, row.store.isSome) ∧
        Distinct collate (t.entity_lexicon.rows ++ (valuesOf tokenize req file).filterMap ValueRow.store)
    · -- all rows are inserted, so the parser ended with an error
      have hruns := insertGroups_runs (writer.groups (valuesOf tokenize req file)) t
        (by rw [hflatten]; exact hgroups.1) (by rw [hflatten]; exact hgroups.2)
      refine hruns.bind_breaks ?_
      cases hend : file.error with
      | none => exact absurd ⟨⟨file, rfl, hend⟩, hgroups⟩ h
      | some message =>
        unfold endOf
        rw [hend]
        exact Breaks.fail _ _
    · refine (insertGroups_breaks ?_).bind
      rw [hflatten]
      exact hgroups

theorem upload_runs [DecidableEq κ] (writer : Writer) (h : Accepted tokenize db req) :
    ∃ t, Runs (upload tokenize req writer) db (trips tokenize db req writer) () t ∧ Uploaded tokenize db req t := by
  obtain ⟨kind, hkind, howns⟩ := h.kind
  obtain ⟨e, he⟩ := Option.isSome_iff_exists.mp h.entity
  obtain ⟨t, ht, hnamed⟩ := replaceName_runs h.name he
  obtain ⟨row, hrow, hname⟩ := hnamed.names
  unfold upload trips
  rw [hkind]
  cases hner : req.no_ner_support with
  | true =>
    have hstored : stored tokenize req = [] := by simp [stored, values, hner]
    refine ⟨t, (checkOwner_runs howns).bind (ht.bind (Runs.pure () t)), ?_, hnamed.device_owner, row, e, hrow, hname, he⟩
    rw [hstored, List.append_nil, hnamed.rows]
  | false =>
    have hdistinct : Distinct collate (t.entity_lexicon.rows ++ stored tokenize req) := hnamed.rows ▸ h.distinct
    refine ⟨_, (checkOwner_runs howns).bind (ht.bind (insertValues_runs hner (h.file hner) h.fits hdistinct)), ?_,
      hnamed.device_owner, row, e, hrow, hname, he⟩
    exact congrArg (· ++ stored tokenize req) hnamed.rows

theorem upload_breaks [DecidableEq κ] (writer : Writer) (h : ¬ Accepted tokenize db req) :
    Breaks (upload tokenize req writer) db := by
  unfold upload
  cases hkind : kindOf req.entity_id with
  | none => exact Breaks.fail _ db
  | some kind =>
    by_cases howns : Owns db req kind
    · refine (checkOwner_runs howns).bind_breaks ?_
      by_cases hname : (names db req.entity_id).length ≤ 1 ∧ (entityOf req (names db req.entity_id).head?).store.isSome
      · obtain ⟨e, he⟩ := Option.isSome_iff_exists.mp hname.2
        obtain ⟨t, ht, hnamed⟩ := replaceName_runs hname.1 he
        refine ht.bind_breaks ?_
        cases hner : req.no_ner_support with
        | true =>
          -- nothing is left that could fail
          have hvalues : values tokenize req = [] := by simp [values, hner]
          refine absurd ⟨⟨kind, hkind, howns⟩, hname.1, hname.2, ?_, ?_, ?_⟩ h
          · intro hfalse
            rw [hner] at hfalse
            cases hfalse
          · rw [hvalues]
            exact nofun
          · rw [stored, hvalues, List.filterMap_nil, List.append_nil, ← hnamed.rows]
            exact t.entity_lexicon.distinct
        | false =>
          refine insertValues_breaks hner fun hall =>
            h ⟨⟨kind, hkind, howns⟩, hname.1, hname.2, fun _ => hall.1, hall.2.1, ?_⟩
          rw [← hnamed.rows]
          exact hall.2.2
      · exact (replaceName_breaks hname).bind
    · exact (checkOwner_breaks howns).bind

/-! ## What the columns keep -/

theorem store_eq_some {row row' : ValueRow} : row.store = some row' ↔
    basicColumn (char 15) row.language = some row'.language ∧ basicColumn (varchar 64) row.entity_id = some row'.entity_id ∧
      basicColumn (varchar 255) row.entity_value = some row'.entity_value ∧
      basicColumn (varchar 128) row.entity_canonical = some row'.entity_canonical ∧
      basicColumn (varchar 128) row.entity_name = some row'.entity_name := by
  unfold ValueRow.store
  simp only [Option.bind_eq_bind, Option.bind_eq_some_iff, Option.pure_def, Option.some.injEq]
  constructor
  · rintro ⟨language, h1, id, h2, value, h3, canonical, h4, name, h5, rfl⟩
    exact ⟨h1, h2, h3, h4, h5⟩
  · rintro ⟨h1, h2, h3, h4, h5⟩
    exact ⟨_, h1, _, h2, _, h3, _, h4, _, h5, rfl⟩

theorem unpadded_ofList_unpadded (s : String) : unpadded (String.ofList (unpadded s)) = unpadded s := by
  rw [unpadded, String.toList_ofList, unpadded, List.rdropWhile_idempotent]

theorem basicColumn_char {n : Nat} {s t : String} (h : basicColumn (char n) s = some t) :
    unpadded t = unpadded s ∧ basicColumn (char n) t = some t := by
  obtain ⟨hplane, hchar⟩ := basicColumn_eq_some.mp h
  obtain ⟨u, hu, rfl⟩ := Option.map_eq_some_iff.mp hchar
  have hunpadded := unpadded_varchar hu
  refine ⟨(unpadded_ofList_unpadded u).trans hunpadded, basicColumn_eq_some.mpr ⟨?_, ?_⟩⟩
  · have hu' := basicPlane_varchar hplane hu
    simp only [basicPlane, String.toList_ofList, List.all_eq_true] at hu' ⊢
    exact fun c hc => hu' c ((List.rdropWhile_prefix _ _).subset hc)
  · have hlength : (String.ofList (unpadded u)).length ≤ n := by
      rw [← String.length_toList, String.toList_ofList]
      exact (List.rdropWhile_prefix _ _).length_le.trans (String.length_toList ▸ varchar_length hu)
    rw [char, varchar_eq_self.mpr hlength, Option.map_some, unpadded_ofList_unpadded]

/-- What is kept of a row is kept as it is. -/
theorem store_kept {row row' : ValueRow} (h : row.store = some row') : row'.store = some row' := by
  obtain ⟨h1, h2, h3, h4, h5⟩ := store_eq_some.mp h
  exact store_eq_some.mpr ⟨(basicColumn_char h1).2, basicColumn_varchar_kept h2, basicColumn_varchar_kept h3,
    basicColumn_varchar_kept h4, basicColumn_varchar_kept h5⟩

theorem isOf_store {row row' : ValueRow} (h : row.store = some row') (id language : String) :
    row'.isOf id language = row.isOf id language := by
  obtain ⟨h1, h2, -⟩ := store_eq_some.mp h
  exact isOf_congr (unpadded_store h2) (basicColumn_char h1).1 rfl rfl

theorem isOf_of_mem_values {row : ValueRow} (h : row ∈ values tokenize req) :
    row.isOf req.entity_id (localeToLanguage req.locale) = true := by
  unfold values at h
  split at h
  · cases h
  · cases hfile : req.file with
    | none =>
      rw [hfile] at h
      cases h
    | some file =>
      rw [hfile] at h
      obtain ⟨columns, -, hcolumns⟩ := List.mem_filterMap.mp h
      unfold toValue at hcolumns
      split at hcolumns
      · obtain rfl := Option.some.inj hcolumns
        simp [ValueRow.isOf, sameText]
      · cases hcolumns

theorem isOf_of_mem_stored {row : ValueRow} (h : row ∈ stored tokenize req) :
    row.isOf req.entity_id (localeToLanguage req.locale) = true := by
  obtain ⟨value, hvalue, hstore⟩ := List.mem_filterMap.mp h
  rw [isOf_store hstore]
  exact isOf_of_mem_values hvalue

theorem stored_eq_values (h : ∀ row ∈ values tokenize req, row.store = some row) :
    stored tokenize req = values tokenize req := by
  unfold stored
  rw [List.filterMap_congr h, List.filterMap_some]

/-- Rows that are all there as they were read are kept as they are. -/
theorem store_of_subset (hfits : ∀ row ∈ values tokenize req, row.store.isSome)
    (hnodup : (stored tokenize req).Nodup) (hsub : ∀ row ∈ stored tokenize req, row ∈ values tokenize req) :
    ∀ row ∈ values tokenize req, row.store = some row := by
  have hlength : (values tokenize req).length ≤ (stored tokenize req).length := by
    rw [stored, List.length_filterMap_eq_countP, List.countP_eq_length.mpr hfits]
  have hperm := (List.subperm_of_subset hnodup hsub).perm_of_length_le hlength
  intro row hrow
  obtain ⟨value, -, hstore⟩ := List.mem_filterMap.mp (hperm.mem_iff.mpr hrow)
  exact store_kept hstore

/-! ## The property -/

/-- The rows of the entity in the language are the values; the others are as they were. -/
def Replaced (id language : String) (values old new : List ValueRow) : Prop :=
  ∀ row, row ∈ new ↔ if row.isOf id language then row ∈ values else row ∈ old

def SameRows (old new : List ValueRow) : Prop := ∀ row, row ∈ new ↔ row ∈ old

structure ReplacesOneLanguage [DecidableEq κ] (tokenize : String → String → List String) (db : Db collate) (req : Request)
    (writer : Writer) (fates : List Fate) (unlinks : Bool) : Prop where
  replaced : req.no_ner_support = false → (uploadEntities tokenize db req writer fates unlinks).2 = .ok () →
    Replaced req.entity_id (localeToLanguage req.locale) (values tokenize req) db.entity_lexicon.rows
      (uploadEntities tokenize db req writer fates unlinks).1.entity_lexicon.rows
  again : req.no_ner_support = false → (uploadEntities tokenize db req writer fates unlinks).2 = .ok () → ∀ writer',
    (uploadEntities tokenize (uploadEntities tokenize db req writer fates unlinks).1 req writer' [] true).2 = .ok () ∧
    SameRows (uploadEntities tokenize db req writer fates unlinks).1.entity_lexicon.rows
      (uploadEntities tokenize (uploadEntities tokenize db req writer fates unlinks).1 req writer' []
        true).1.entity_lexicon.rows
  unchanged : ∀ e, (uploadEntities tokenize db req writer fates unlinks).2 = .error e →
    SameRows db.entity_lexicon.rows (uploadEntities tokenize db req writer fates unlinks).1.entity_lexicon.rows

/-! ## When it holds -/

/-- In English everything that is there is deleted; in another language there is nothing to delete and nothing to insert. -/
structure Fine (tokenize : String → String → List String) (db : Db collate) (req : Request) : Prop where
  texts : ∀ row ∈ values tokenize req, row.store = some row
  english : sameText (localeToLanguage req.locale) "en" = true → registered db req = false →
    ∀ row ∈ db.entity_lexicon.rows, row.isOf req.entity_id "en" = false
  other : sameText (localeToLanguage req.locale) "en" = false → values tokenize req = [] ∧
    ∀ row ∈ db.entity_lexicon.rows,
      row.isOf req.entity_id (localeToLanguage req.locale) = false ∧ row.isOf req.entity_id "en" = false

/-- What would be deleted would be inserted again, and nothing else. -/
structure NoChange (tokenize : String → String → List String) (db : Db collate) (req : Request) : Prop where
  deleted : registered db req = true → ∀ row ∈ db.entity_lexicon.rows, row.isOf req.entity_id "en" = true →
    row ∈ stored tokenize req
  inserted : ∀ row ∈ stored tokenize req, row ∈ db.entity_lexicon.rows

theorem mem_kept {row : ValueRow} : row ∈ kept db req ↔
    row ∈ db.entity_lexicon.rows ∧ (registered db req = true → row.isOf req.entity_id "en" = false) := by
  unfold kept
  split
  · rename_i h
    simp [h]
  · rename_i h
    simp [h]

theorem noChange_iff (h : Uploaded tokenize db req t) :
    SameRows db.entity_lexicon.rows t.entity_lexicon.rows ↔ NoChange tokenize db req := by
  unfold SameRows
  simp only [h.rows, List.mem_append, mem_kept]
  constructor
  · intro hsame
    refine ⟨fun hregistered row hrow hen => ?_, fun row hrow => (hsame row).mp (Or.inr hrow)⟩
    refine ((hsame row).mpr hrow).resolve_left fun hkept => ?_
    rw [hkept.2 hregistered] at hen
    cases hen
  · intro hno row
    constructor
    · rintro (hkept | hrow)
      · exact hkept.1
      · exact hno.inserted row hrow
    · intro hrow
      by_cases hstored : row ∈ stored tokenize req
      · exact Or.inr hstored
      · refine Or.inl ⟨hrow, fun hregistered => ?_⟩
        cases hen : row.isOf req.entity_id "en" with
        | false => rfl
        | true => exact absurd (hno.deleted hregistered row hrow hen) hstored

theorem uploadEntities_unlinked [DecidableEq κ] {fates : List Fate} (unlinks : Bool)
    (h : (req.file.isSome && !unlinks) = false) :
    uploadEntities tokenize db req writer fates unlinks = transaction (upload tokenize req writer) db fates := by
  rw [uploadEntities, h, if_neg Bool.false_ne_true]

/-- The same file, over what the first upload left. -/
theorem again_iff [DecidableEq κ] : (∀ writer', (uploadEntities tokenize t req writer' [] true).2 = .ok () ∧
      SameRows t.entity_lexicon.rows (uploadEntities tokenize t req writer' [] true).1.entity_lexicon.rows) ↔
    Accepted tokenize t req ∧ SameRows t.entity_lexicon.rows (kept t req ++ stored tokenize req) := by
  simp only [uploadEntities_unlinked true (Bool.and_false _)]
  by_cases hacc : Accepted tokenize t req
  · have hruns : ∀ writer', ∃ t', transaction (upload tokenize req writer') t [] = (t', .ok ()) ∧
        Uploaded tokenize t req t' := by
      intro writer'
      obtain ⟨t', ht', huploaded⟩ := upload_runs writer' hacc
      have htransaction := ht'.transaction []
      rw [ending_nil] at htransaction
      exact ⟨t', htransaction, huploaded⟩
    constructor
    · intro h
      obtain ⟨t', ht', huploaded⟩ := hruns ⟨fun values => [values], by simp⟩
      have hsame := (h ⟨fun values => [values], by simp⟩).2
      rw [ht', huploaded.rows] at hsame
      exact ⟨hacc, hsame⟩
    · intro ⟨_, hsame⟩ writer'
      obtain ⟨t', ht', huploaded⟩ := hruns writer'
      rw [ht', huploaded.rows]
      exact ⟨rfl, hsame⟩
  · refine iff_of_false (fun h => ?_) fun h => hacc h.1
    obtain ⟨e, he⟩ := (upload_breaks ⟨fun values => [values], by simp⟩ hacc).transaction []
    have hok := (h ⟨fun values => [values], by simp⟩).1
    rw [he] at hok
    cases hok

/-- What was accepted once is accepted again, if the values can be inserted. -/
theorem accepted_again (h : Accepted tokenize db req) (ht : Uploaded tokenize db req t)
    (hdistinct : Distinct collate (kept t req ++ stored tokenize req)) : Accepted tokenize t req := by
  obtain ⟨row, e, hnames, hname, he⟩ := ht.names
  obtain ⟨hid, hstored, -⟩ := entity_store_eq_some.mp he
  refine ⟨?_, ?_, ?_, h.file, h.fits, hdistinct⟩
  · obtain ⟨kind, hkind, howns⟩ := h.kind
    refine ⟨kind, hkind, ?_⟩
    rw [Owns, ht.device_owner]
    exact howns
  · rw [hnames]
    exact Nat.le_refl 1
  · -- the name is the one that was written, or that of the request as before
    have hnew : (basicColumn (varchar 255) (entityOf req (some row)).name).isSome := by
      show (basicColumn (varchar 255) (if req.entity_name = req.entity_id then row.name else req.entity_name)).isSome
      split
      · rw [hname, basicColumn_varchar_kept hstored]
        rfl
      · rename_i hne
        have hold : (entityOf req (names db req.entity_id).head?).name = req.entity_name := by
          unfold entityOf
          cases (names db req.entity_id).head? with
          | none => rfl
          | some existing => exact if_neg hne
        rw [← hold, hstored]
        rfl
    obtain ⟨name, hname'⟩ := Option.isSome_iff_exists.mp hnew
    rw [hnames, List.head?_cons]
    refine Option.isSome_iff_exists.mpr ⟨⟨e.id, name, false, !req.no_ner_support⟩, ?_⟩
    exact entity_store_eq_some.mpr ⟨hid, hname', rfl, rfl⟩

theorem registered_again (ht : Uploaded tokenize db req t) : registered t req = true := by
  obtain ⟨row, e, hnames, -, -⟩ := ht.names
  rw [registered, hnames]
  rfl

theorem isOf_other {row : ValueRow} {id language : String} (h : row.isOf id language = true) :
    row.isOf id "en" = sameText language "en" := by
  simp only [ValueRow.isOf, sameText, Bool.and_eq_true, decide_eq_true_eq] at h ⊢
  rw [h.1, h.2, decide_eq_true rfl, Bool.true_and]

theorem isOf_same {row : ValueRow} {id language : String} (h : sameText language "en" = true) :
    row.isOf id language = row.isOf id "en" := by
  simp only [sameText, decide_eq_true_eq] at h
  simp only [ValueRow.isOf, sameText, h]

/-- The second upload keeps what the first one kept. -/
theorem kept_again (ht : Uploaded tokenize db req t) (h : Fine tokenize db req) : kept t req = kept db req := by
  have hold : ∀ row ∈ kept db req, row.isOf req.entity_id "en" = false := by
    intro row hrow
    obtain ⟨hrow, hkept⟩ := mem_kept.mp hrow
    cases hregistered : registered db req with
    | true => exact hkept hregistered
    | false =>
      cases hen : sameText (localeToLanguage req.locale) "en" with
      | true => exact h.english hen hregistered row hrow
      | false => exact ((h.other hen).2 row hrow).2
  have hnew : (stored tokenize req).filter (fun row => !row.isOf req.entity_id "en") = [] := by
    refine List.filter_eq_nil_iff.mpr fun row hrow => ?_
    have hisOf := isOf_other (isOf_of_mem_stored hrow)
    cases hen : sameText (localeToLanguage req.locale) "en" with
    | true => simp [hisOf, hen]
    | false =>
      rw [stored_eq_values h.texts, (h.other hen).1] at hrow
      cases hrow
  rw [kept, if_pos (registered_again ht), ht.rows, List.filter_append, hnew, List.append_nil]
  exact List.filter_eq_self.mpr fun row hrow => by rw [hold row hrow]; rfl

theorem replaced_of_fine (h : Fine tokenize db req) : Replaced req.entity_id (localeToLanguage req.locale)
    (values tokenize req) db.entity_lexicon.rows (kept db req ++ stored tokenize req) := by
  intro row
  rw [List.mem_append, mem_kept, stored_eq_values h.texts]
  cases hof : row.isOf req.entity_id (localeToLanguage req.locale) with
  | true =>
    rw [if_pos rfl]
    refine or_iff_right fun hkept => ?_
    cases hen : sameText (localeToLanguage req.locale) "en" with
    | true =>
      rw [isOf_same hen] at hof
      cases hregistered : registered db req with
      | true =>
        rw [hkept.2 hregistered] at hof
        cases hof
      | false =>
        rw [h.english hen hregistered row hkept.1] at hof
        cases hof
    | false =>
      rw [((h.other hen).2 row hkept.1).1] at hof
      cases hof
  | false =>
    rw [if_neg Bool.false_ne_true]
    constructor
    · rintro (hkept | hrow)
      · exact hkept.1
      · rw [isOf_of_mem_values hrow] at hof
        cases hof
    · intro hrow
      refine Or.inl ⟨hrow, fun _ => ?_⟩
      cases hen : sameText (localeToLanguage req.locale) "en" with
      | true => exact (isOf_same hen).symm.trans hof
      | false => exact ((h.other hen).2 row hrow).2

/-- The two laws of an upload that succeeds. -/
theorem fine_iff (hacc : Accepted tokenize db req) (ht : Uploaded tokenize db req t) :
    (Replaced req.entity_id (localeToLanguage req.locale) (values tokenize req) db.entity_lexicon.rows t.entity_lexicon.rows ∧
      Accepted tokenize t req ∧ SameRows t.entity_lexicon.rows (kept t req ++ stored tokenize req)) ↔
    Fine tokenize db req := by
  have hsplit := List.pairwise_append.mp hacc.distinct
  rw [ht.rows]
  constructor
  · intro ⟨hreplaced, hagain, hsame⟩
    have hsub : ∀ row ∈ stored tokenize req, row ∈ values tokenize req := by
      intro row hrow
      have := (hreplaced row).mp (List.mem_append_right _ hrow)
      rwa [if_pos (isOf_of_mem_stored hrow)] at this
    have htexts := store_of_subset hacc.fits (Distinct.nodup hsplit.2.1) hsub
    have hstored := stored_eq_values htexts
    -- a value of the language that is kept would be one of the file as well
    have hvalue : ∀ row ∈ kept db req, row.isOf req.entity_id (localeToLanguage req.locale) = false := by
      intro row hrow
      cases hof : row.isOf req.entity_id (localeToLanguage req.locale) with
      | false => rfl
      | true =>
        have hmem := (hreplaced row).mp (List.mem_append_left _ hrow)
        rw [if_pos hof, ← hstored] at hmem
        exact absurd rfl (hsplit.2.2 row hrow row hmem)
    refine ⟨htexts, fun hen hregistered row hrow => ?_, fun hen => ?_⟩
    · rw [← isOf_same hen]
      exact hvalue row (mem_kept.mpr ⟨hrow, fun h => by rw [hregistered] at h; cases h⟩)
    · -- what is inserted is not deleted, so nothing is inserted
      have hempty : stored tokenize req = [] := by
        refine List.eq_nil_iff_forall_not_mem.mpr fun row hrow => ?_
        have hkept : row ∈ kept t req := by
          refine mem_kept.mpr ⟨ht.rows ▸ List.mem_append_right _ hrow, fun _ => ?_⟩
          rw [isOf_other (isOf_of_mem_stored hrow), hen]
        exact (List.pairwise_append.mp hagain.distinct).2.2 row hkept row hrow rfl
      refine ⟨hstored ▸ hempty, fun row hrow => ?_⟩
      have hother : row.isOf req.entity_id "en" = false := by
        cases hof : row.isOf req.entity_id "en" with
        | false => rfl
        | true =>
          have hlanguage : row.isOf req.entity_id (localeToLanguage req.locale) = false := by
            cases hlanguage : row.isOf req.entity_id (localeToLanguage req.locale) with
            | false => rfl
            | true => exact absurd ((isOf_other hlanguage).symm.trans hof) (by rw [hen]; exact Bool.false_ne_true)
          have hnew := (hreplaced row).mpr (by rw [if_neg (by rw [hlanguage]; exact Bool.false_ne_true)]; exact hrow)
          have hkept := (hsame row).mpr hnew
          rw [hempty, List.append_nil] at hkept
          exact absurd ((mem_kept.mp hkept).2 (registered_again ht)) (by rw [hof]; exact Bool.noConfusion)
      exact ⟨hvalue row (mem_kept.mpr ⟨hrow, fun _ => hother⟩), hother⟩
  · intro hfine
    have hkept := kept_again ht hfine
    refine ⟨replaced_of_fine hfine, accepted_again hacc ht (hkept ▸ hacc.distinct), ?_⟩
    rw [hkept]
    exact fun _ => Iff.rfl

/-! ## Exactly when -/

section

variable [DecidableEq κ] {fates : List Fate} {unlinks : Bool}

theorem uploadEntities_failed (unlinks : Bool) {e : Transaction.Failure Error}
    (h : transaction (upload tokenize req writer) db fates = (t, .error e)) :
    ∃ e, uploadEntities tokenize db req writer fates unlinks = (t, .error e) := by
  unfold uploadEntities
  rw [h]
  split
  · exact ⟨_, rfl⟩
  · exact ⟨_, rfl⟩

theorem replacesOneLanguage_error {e : Transaction.Failure Error}
    (h : uploadEntities tokenize db req writer fates unlinks = (t, .error e)) :
    ReplacesOneLanguage tokenize db req writer fates unlinks ↔ SameRows db.entity_lexicon.rows t.entity_lexicon.rows := by
  constructor
  · intro hlaw
    have := hlaw.unchanged e (by rw [h])
    rwa [h] at this
  · intro hsame
    refine ⟨fun _ hok => ?_, fun _ hok => ?_, fun _ _ => ?_⟩
    · rw [h] at hok
      cases hok
    · rw [h] at hok
      cases hok
    · rw [h]
      exact hsame

theorem replacesOneLanguage_ok (h : uploadEntities tokenize db req writer fates unlinks = (t, .ok ())) :
    ReplacesOneLanguage tokenize db req writer fates unlinks ↔ (req.no_ner_support = false →
      Replaced req.entity_id (localeToLanguage req.locale) (values tokenize req) db.entity_lexicon.rows
        t.entity_lexicon.rows ∧
      Accepted tokenize t req ∧ SameRows t.entity_lexicon.rows (kept t req ++ stored tokenize req)) := by
  rw [← again_iff]
  constructor
  · intro hlaw hner
    have hreplaced := hlaw.replaced hner (by rw [h])
    have hagain := hlaw.again hner (by rw [h])
    rw [h] at hreplaced hagain
    exact ⟨hreplaced, hagain⟩
  · intro hall
    refine ⟨fun hner _ => ?_, fun hner _ => ?_, fun e he => ?_⟩
    · rw [h]
      exact (hall hner).1
    · rw [h]
      exact (hall hner).2
    · rw [h] at he
      cases he

end

/-- An upload replaces one language, and can be repeated, or changes nothing, exactly if it is
    refused, or its transaction fails, or what it deletes and inserts is right. -/
theorem uploadEntities_iff [DecidableEq κ] (tokenize : String → String → List String) (db : Db collate) (req : Request)
    (writer : Writer) (fates : List Fate) (unlinks : Bool) :
    ReplacesOneLanguage tokenize db req writer fates unlinks ↔ (Accepted tokenize db req →
      (ending (trips tokenize db req writer) fates = .works → (req.file.isSome && !unlinks) = false →
        req.no_ner_support = false → Fine tokenize db req) ∧
      (ending (trips tokenize db req writer) fates = .lost ∨
        ending (trips tokenize db req writer) fates = .works ∧ (req.file.isSome && !unlinks) = true →
        NoChange tokenize db req)) := by
  by_cases hacc : Accepted tokenize db req
  · obtain ⟨t, hruns, ht⟩ := upload_runs writer hacc
    have htransaction := hruns.transaction fates
    simp only [hacc, true_implies]
    cases hending : ending (trips tokenize db req writer) fates with
    | fails =>
      -- rolled back
      rw [hending] at htransaction
      obtain ⟨e, he⟩ := htransaction
      obtain ⟨e', he'⟩ := uploadEntities_failed unlinks he
      rw [replacesOneLanguage_error he']
      simp [SameRows]
    | lost =>
      rw [hending] at htransaction
      obtain ⟨e, he⟩ := htransaction
      obtain ⟨e', he'⟩ := uploadEntities_failed unlinks he
      rw [replacesOneLanguage_error he', noChange_iff ht]
      simp
    | works =>
      rw [hending] at htransaction
      have htransaction : transaction (upload tokenize req writer) db fates = (t, .ok ()) := htransaction
      cases hunlinks : req.file.isSome && !unlinks with
      | false =>
        rw [replacesOneLanguage_ok ((uploadEntities_unlinked unlinks hunlinks).trans htransaction), fine_iff hacc ht]
        simp
      | true =>
        have he : uploadEntities tokenize db req writer fates unlinks = (t, .error (.error .unlink)) := by
          rw [uploadEntities, hunlinks, if_pos rfl, htransaction]
        rw [replacesOneLanguage_error he, noChange_iff ht]
        simp
  · obtain ⟨e, he⟩ := (upload_breaks writer hacc).transaction fates
    obtain ⟨e', he'⟩ := uploadEntities_failed unlinks he
    rw [replacesOneLanguage_error he']
    exact iff_of_true (fun _ => Iff.rfl) fun h => absurd h hacc

/-- The Italian values are "folk", and a file with "rock" is uploaded in Italian. -/
theorem italian_value_stays :
    ∃ (db : Db (id : String → String)) (req : Request) (writer : Writer),
      ¬ ReplacesOneLanguage (fun _ text => [text]) db req writer [] true := by
  refine ⟨⟨[⟨⟨"com.spotify:genre", "Genre", false, true⟩, "en"⟩],
      ⟨[⟨"it", "com.spotify:genre", "folk", "folk", "folk"⟩], List.pairwise_singleton ..⟩, fun _ => some 1⟩,
    ⟨"it-IT", 0, some 1, "com.spotify:genre", "Genre", false, some ⟨[["rock", "rock"]], none⟩⟩,
    ⟨fun values => [values], by simp⟩, fun h => ?_⟩
  have hreplaced := h.replaced rfl (by decide +kernel) ⟨"it", "com.spotify:genre", "folk", "folk", "folk"⟩
  have hstays := hreplaced.mp (by decide +kernel)
  revert hstays
  decide +kernel

end GenieCloud.Thingpedia.EntityUpload
