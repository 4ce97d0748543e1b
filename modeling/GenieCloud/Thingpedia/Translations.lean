/-
  GenieCloud.Thingpedia.Translations — the translations that users contribute
  (`POST /by-id/:kind` of `routes/thingpedia_translate.ts`, `insertTranslations` of
  `model/schema.ts`).

  A contribution has a text for each function that the user is shown of the device in
  English, and for each argument of it. It is written at the developer version of the
  device, over what is there in the language, whoever the user is.

  `translation_shown`: every reader of the schemas is shown what was shown before, with
  the contributed texts written over it where the schema is that of the device, the language
  that of the contribution, and the version that the reader sees the developer version. So
  a user that is shown another version changes nothing for themselves
  (`translation_unseen`), and an approval shows the texts to everyone
  (`translation_approved`). `page_offers`: the page from which a device is translated offers the
  texts back to all but the administrators of other organizations.

  The dataset that comes with a contribution is read by a parameter. The body of the
  request is a JSON value, and an array has no property but its elements and the functions of
  `arrayPrototype`. No function or argument is called `__proto__`. Names and languages
  have no blanks at the end; columns of JSON text keep any value.
-/

import GenieCloud.Thingpedia.DatasetSync
import GenieCloud.Thingpedia.SchemaRoundTrip
import GenieCloud.Thingpedia.TranslatePage
import GenieCloud.Util.I18n

namespace GenieCloud.Thingpedia.Translations

open Function (update)
open GenieCloud.Lib GenieCloud.Lib.Json
open TranslatePage (typeError Request page metasAt Pair FunctionPair)
open Util (I18n.Languages)
open Util.Utterance (objectPrototype)

variable {N Ast : Type}

/-! ## The body of the request -/

def arrayPrototype : List String :=
  ["length", "concat", "copyWithin", "fill", "find", "findIndex", "lastIndexOf", "pop", "push", "reverse", "shift", "unshift",
    "slice", "sort", "splice", "includes", "indexOf", "join", "keys", "entries", "values", "forEach", "filter", "flat",
    "flatMap", "map", "every", "some", "reduce", "reduceRight"]

/-- What is read of an object: `other` is a function or a number. -/
inductive Property (N : Type)
  | undefined
  | other
  | value (v : Value N)

def readProperty : Value N → String → Except Failure (Property N)
  | .null, _ => .error typeError
  | .obj fields, key =>
    match fields.lookup key with
    | some v => .ok (.value v)
    | none => .ok (if objectPrototype.contains key then .other else .undefined)
  | .arr elements, key =>
    match (elements.zipIdx.map fun x => (toString x.2, x.1)).lookup key with
    | some v => .ok (.value v)
    | none => .ok (if arrayPrototype.contains key || objectPrototype.contains key then .other else .undefined)
  | _, _ => .ok .undefined

/-- `typeof v === 'object'` -/
def isObject : Value N → Bool
  | .null | .arr _ | .obj _ => true
  | _ => false

def invalid (args : List String) : Failure :=
  let path := String.intercalate "][" args
  .badRequest s!"Invalid type for parameter [{path}]"

/-- All but the last step of the path. -/
def descend (obj : Value N) (args : List String) : Except Failure (Value N) :=
  args.dropLast.foldlM (fun obj key => do
    match ← readProperty obj key with
    | .value v => if isObject v then .ok v else .error (invalid args)
    | _ => .error (invalid args)) obj

/-- `safeGet` with nothing to expect. -/
def safeGet (obj : Value N) (args : List String) : Except Failure (Property N) := do
  readProperty (← descend obj args) (args.getLastD "")

/-- `safeGet` of a string. -/
def safeGetString (obj : Value N) (args : List String) : Except Failure String := do
  match ← safeGet obj args with
  | .value (.str s) => .ok s
  | _ => .error (invalid args)

/-! ## The contribution -/

structure Translation (N : Type) where
  canonical : String
  confirmation : String
  formatted : List (Value N)
  questions : List String
  argcanonicals : List String

/-- A text is checked for what is missing: the empty one. -/
def required (obj : Value N) (args : List String) (message : String) : Except Failure String := do
  let value ← safeGetString obj args
  if value = "" then .error (.badRequest message) else .ok value

def readFormat (name : String) : Value N → Except Failure (Value N)
  | .null => .error typeError
  | .obj fields =>
    match fields.lookup "type" with
    | some (.str type) =>
      if type = "text" then
        match fields.lookup "text" with
        | some (.str s) => .ok (.str s)
        | _ => .error (invalid ["formatted", name])
      else .ok (.obj fields)
    | _ => .error (invalid ["formatted", name])
  | _ => .error (invalid ["formatted", name])

def readFormatted (body : Value N) (name : String) : Except Failure (List (Value N)) := do
  match ← safeGet body ["formatted", name] with
  | .undefined => .ok []
  | .value (.arr formatted) => formatted.mapM (readFormat name)
  | _ => .error (invalid ["formatted", name])

/-- The name of an argument and its question, which is asked for if there is one in English. -/
def readArgument (body : Value N) (what name : String) (argname : String) (question : Option String) :
    Except Failure (String × String) := do
  let argcanonical ← required body ["argcanonical", name, argname] s!"Missing argument name for {argname} in {what} {name}"
  if question.getD "" = "" then return (argcanonical, "")
  let question ← required body ["question", name, argname] s!"Missing slot-filling question for {argname} in {what} {name}"
  return (argcanonical, question)

/-- The body of the loop over the functions. -/
def readTranslation (body : Value N) (what name : String) (english : SchemaChannelMetadata (Value N)) :
    Except Failure (Translation N) := do
  let canonical ← required body ["canonical", name] s!"Missing canonical for {what} {name}"
  let confirmation ← required body ["confirmation", name] s!"Missing confirmation for {what} {name}"
  let formatted ← readFormatted body name
  let arguments ← english.args.zipIdx.mapM fun x => readArgument body what name x.1 english.questions[x.2]?
  return {
    canonical
    confirmation
    formatted
    questions := arguments.map Prod.snd
    argcanonicals := arguments.map Prod.fst }

def readTranslations (body : Value N) (what : String) (english : Record (SchemaChannelMetadata (Value N))) :
    Except Failure (List (String × Translation N)) :=
  english.entries.mapM fun x => (readTranslation body what x.1 x.2).map (x.1, ·)

def computeTranslations (body : Value N) (english : SchemaMetadata (Value N)) : Except Failure (Record (Translation N)) := do
  let actions ← readTranslations body "actions" english.actions
  let queries ← readTranslations body "queries" english.queries
  return (Record.empty.setAll actions).setAll queries

/-! ## The rows -/

/-- What the columns keep; there is no `confirmation_remote`. -/
def Translation.row (meta_ : Translation N) : Option (ChannelCanonicalRow (Value N)) := do
  let canonical ← canonicalColumn meta_.canonical
  let confirmation ← confirmationColumn meta_.confirmation
  return {
    canonical
    confirmation := some confirmation
    confirmation_remote := some confirmation
    formatted := meta_.formatted
    argcanonicals := meta_.argcanonicals.map .str
    questions := meta_.questions }

def languageColumn : String → Option String := basicColumn (varchar 15)

/-- `replace into`: over the rows with the same key. -/
def insertTranslations (db : Db (Value N)) (schemaId version : Nat) (language : String)
    (translations : Record (Translation N)) : Option (Db (Value N)) := do
  guard (languageColumn language).isSome
  let rows ← translations.traverse fun _ meta_ => meta_.row
  return { db with
    device_schema_channel_canonicals := update db.device_schema_channel_canonicals schemaId
      (update (db.device_schema_channel_canonicals schemaId) version
        (update (db.device_schema_channel_canonicals schemaId version) language
          ((db.device_schema_channel_canonicals schemaId version language).setAll rows.entries))) }

/-! ## The request -/

structure Contribution (N : Type) where
  developer_org : Option Nat
  language : String
  /-- The code of the dataset. -/
  dataset : String
  body : Value N

def Contribution.org (req : Contribution N) : Option Int := req.developer_org.map fun (id : Nat) => (id : Int)

/-- What was checked of the dataset, or why it is refused (`validateDataset`). -/
abbrev Validate (N : Type) := Db (Value N) → Contribution N → String → Except Failure Dataset

variable (P : Packages (Value N)) (languages : I18n.Languages) (validateDataset : Validate N)

def post (db : Db (Value N)) (req : Contribution N) (kind : String) : Except Failure (Db (Value N)) :=
  if req.language = "en" then .error (.forbidden "Translations for English cannot be contributed.")
  else if (Util.I18n.get languages req.language false).isNone then
    .error (.badRequest s!"Invalid language identifier {req.language}.")
  else
    match getByKind db kind with
    | none => .error .notFound
    | some englishinfo =>
      match (getMetasByKinds db [kind] req.org "en").head? with
      | none => .error .notFound
      | some english => do
        let dataset ← validateDataset db req kind
        let translations ← computeTranslations req.body english
        match insertTranslations db englishinfo.1 englishinfo.2.developer_version req.language translations with
        | none => .error (.thrown "ER_DATA_TOO_LONG")
        | some db =>
          match ensureDatasetOf P db englishinfo.1 none dataset with
          | none => .error (.thrown "ER_DUP_ENTRY")
          | some (db, _) => .ok db

/-! ## What is wanted -/

/-- The texts of a row, over those of a function. -/
def withCanonicals {V : Type} (m : SchemaChannelMetadata V) (row : ChannelCanonicalRow V) : SchemaChannelMetadata V :=
  { m with
    canonical := .string row.canonical
    confirmation := .ofColumn row.confirmation
    confirmation_remote := .ofColumn ((row.confirmation_remote.filter (· != "")).or row.confirmation)
    formatted := row.formatted
    argcanonicals := row.argcanonicals
    questions := row.questions }

/-- Over those of all functions that have a row. -/
def translated {V : Type} (m : SchemaMetadata V) (rows : Record (ChannelCanonicalRow V)) : SchemaMetadata V :=
  let written (name : String) (channel : SchemaChannelMetadata V) := ((rows.get? name).map (withCanonicals channel)).getD channel
  { m with triggers := m.triggers.map written, queries := m.queries.map written, actions := m.actions.map written }

/-- Every text is there, and one for each argument; a question where there is one in English. -/
structure Complete (english : SchemaChannelMetadata (Value N)) (t : Translation N) : Prop where
  canonical : t.canonical ≠ ""
  confirmation : t.confirmation ≠ ""
  argcanonicals : t.argcanonicals.length = english.args.length ∧ ∀ a ∈ t.argcanonicals, a ≠ ""
  questions : t.questions.length = english.args.length ∧
    ∀ (i : Nat) q, t.questions[i]? = some q → (q = "" ↔ english.questions[i]?.getD "" = "")

/-- A row for each function that is shown in English, with what the request has for it. -/
structure Contributed (body : Value N) (english : SchemaMetadata (Value N)) (rows : Record (ChannelCanonicalRow (Value N))) :
    Prop where
  names : ∀ name, name ∈ rows.keys ↔ name ∈ english.actions.keys ∨ name ∈ english.queries.keys
  query : ∀ name m, english.queries.get? name = some m →
    ∃ t, readTranslation body "queries" name m = .ok t ∧ Complete m t ∧ t.row = rows.get? name
  action : ∀ name m, english.actions.get? name = some m → name ∉ english.queries.keys →
    ∃ t, readTranslation body "actions" name m = .ok t ∧ Complete m t ∧ t.row = rows.get? name

/-! ## What a request that goes through has done -/

variable {P : Packages (Value N)} {languages : I18n.Languages} {validateDataset : Validate N} {db db' : Db (Value N)}
  {req : Contribution N} {kind : String}

theorem post_ok (h : post P languages validateDataset db req kind = .ok db') :
    ∃ j sc english translations rows, getByKind db kind = some (j, sc) ∧
      (getMetasByKinds db [kind] req.org "en").head? = some english ∧
      computeTranslations req.body english = .ok translations ∧
      translations.traverse (fun _ meta_ => meta_.row) = some rows ∧
      db'.device_schema = db.device_schema ∧ db'.device_schema_channels = db.device_schema_channels ∧
      db'.device_schema_channel_canonicals = update db.device_schema_channel_canonicals j
        (update (db.device_schema_channel_canonicals j) sc.developer_version
          (update (db.device_schema_channel_canonicals j sc.developer_version) req.language
            ((db.device_schema_channel_canonicals j sc.developer_version req.language).setAll rows.entries))) := by
  unfold post at h
  split at h
  · cases h
  split at h
  · cases h
  split at h
  · cases h
  rename_i englishinfo hget
  split at h
  · cases h
  rename_i english hmetas
  obtain ⟨dataset, -, h⟩ := Result.bind_ok h
  obtain ⟨translations, htranslations, h⟩ := Result.bind_ok h
  split at h
  · cases h
  rename_i stored hstored
  split at h
  · cases h
  rename_i synced changed hsynced
  cases h
  obtain ⟨-, -, hstored⟩ := Option.bind_eq_some_iff.mp hstored
  obtain ⟨rows, hrows, hstored⟩ := Option.bind_eq_some_iff.mp hstored
  cases hstored
  refine ⟨englishinfo.1, englishinfo.2, english, translations, rows, hget, hmetas, htranslations, hrows, ?_⟩
  have htable := congrArg (Option.map (·.1)) hsynced
  rw [ensureDatasetOf_table] at htable
  obtain ⟨table, -, rfl⟩ := Option.map_eq_some_iff.mp htable
  exact ⟨rfl, rfl, rfl⟩

/-! ## What is read for a function -/

theorem required_ok {obj : Value N} {args : List String} {message value : String}
    (h : required obj args message = .ok value) : value ≠ "" := by
  obtain ⟨value', -, h⟩ := Result.bind_ok h
  split at h
  · cases h
  · rename_i hne
    cases h
    exact hne

theorem readArgument_ok {body : Value N} {what name argname : String} {question : Option String} {x : String × String}
    (h : readArgument body what name argname question = .ok x) : x.1 ≠ "" ∧ (x.2 = "" ↔ question.getD "" = "") := by
  obtain ⟨argcanonical, hcanonical, h⟩ := Result.bind_ok h
  split at h
  · rename_i hq
    cases h
    exact ⟨required_ok hcanonical, iff_of_true rfl hq⟩
  · rename_i hq
    obtain ⟨text, htext, h⟩ := Result.bind_ok h
    cases h
    exact ⟨required_ok hcanonical, iff_of_false (required_ok htext) hq⟩

theorem readTranslation_complete {body : Value N} {what name : String} {english : SchemaChannelMetadata (Value N)}
    {t : Translation N} (h : readTranslation body what name english = .ok t) : Complete english t := by
  obtain ⟨canonical, hcanonical, h⟩ := Result.bind_ok h
  obtain ⟨confirmation, hconfirmation, h⟩ := Result.bind_ok h
  obtain ⟨formatted, -, h⟩ := Result.bind_ok h
  obtain ⟨arguments, harguments, h⟩ := Result.bind_ok h
  cases h
  have hmap := Result.mapM_ok harguments
  have hlength : arguments.length = english.args.length := by
    have := congrArg List.length hmap
    simpa using this.symm
  have hread : ∀ (i : Nat) x, arguments[i]? = some x → x.1 ≠ "" ∧ (x.2 = "" ↔ english.questions[i]?.getD "" = "") := by
    intro i x hx
    have hi := congrArg (·[i]?) hmap
    simp only [List.getElem?_map, hx, Option.map_some, List.getElem?_zipIdx, Nat.zero_add] at hi
    obtain ⟨y, hy, hread⟩ := Option.map_eq_some_iff.mp hi
    obtain ⟨argname, -, rfl⟩ := Option.map_eq_some_iff.mp hy
    exact readArgument_ok hread
  constructor
  · exact required_ok hcanonical
  · exact required_ok hconfirmation
  · refine ⟨by rw [List.length_map, hlength], fun a ha => ?_⟩
    obtain ⟨x, hx, rfl⟩ := List.mem_map.mp ha
    obtain ⟨i, hi⟩ := List.mem_iff_getElem?.mp hx
    exact (hread i x hi).1
  · refine ⟨by rw [List.length_map, hlength], fun i q hq => ?_⟩
    rw [List.getElem?_map] at hq
    obtain ⟨x, hx, rfl⟩ := Option.map_eq_some_iff.mp hq
    exact (hread i x hx).2

/-- A body without any formats is refused: also where no function has one in English. -/
theorem readTranslation_unformatted {fields : List (String × Value N)} (hnone : fields.lookup "formatted" = none)
    (what name : String) (english : SchemaChannelMetadata (Value N)) (t : Translation N) :
    readTranslation (.obj fields) what name english ≠ .ok t := by
  intro h
  obtain ⟨canonical, -, h⟩ := Result.bind_ok h
  obtain ⟨confirmation, -, h⟩ := Result.bind_ok h
  obtain ⟨formatted, hformatted, -⟩ := Result.bind_ok h
  have hget : safeGet (.obj fields) ["formatted", name] = .error (invalid ["formatted", name]) := by
    unfold safeGet descend
    simp only [List.dropLast, List.foldlM_cons, readProperty, hnone]
    rfl
  unfold readFormatted at hformatted
  rw [hget] at hformatted
  cases hformatted

/-! ## A loop over the functions -/

section Loop

variable {α β : Type} {f : String → α → Except Failure β} {r : Record α} {l : List (String × β)}

theorem mapM_mem (h : r.entries.mapM (fun x => (f x.1 x.2).map (x.1, ·)) = .ok l) {name : String} {b : β}
    (hb : (name, b) ∈ l) : ∃ a, r.get? name = some a ∧ f name a = .ok b := by
  have hmem : Except.ok (name, b) ∈ r.entries.map fun x => (f x.1 x.2).map (x.1, ·) := by
    rw [Result.mapM_ok h]
    exact List.mem_map_of_mem hb
  obtain ⟨x, hx, he⟩ := List.mem_map.mp hmem
  cases hf : f x.1 x.2 with
  | error e => rw [hf] at he; cases he
  | ok b' =>
    rw [hf] at he
    cases he
    exact ⟨x.2, Record.mem_entries.mp hx, hf⟩

theorem mapM_keys (h : r.entries.mapM (fun x => (f x.1 x.2).map (x.1, ·)) = .ok l) : l.map Prod.fst = r.keys := by
  have hmap := Result.mapM_ok h
  clear h
  unfold Record.keys
  generalize r.entries = entries at hmap
  induction entries generalizing l with
  | nil =>
    obtain rfl := List.map_eq_nil_iff.mp hmap.symm
    rfl
  | cons x entries ih =>
    cases l with
    | nil => cases hmap
    | cons y l =>
      obtain ⟨hx, hl⟩ := List.cons.inj hmap
      have hfst : y.1 = x.1 := by
        dsimp only at hx
        cases hf : f x.1 x.2 with
        | error e => rw [hf] at hx; cases hx
        | ok b => rw [hf] at hx; cases hx; rfl
      rw [List.map_cons, List.map_cons, hfst, ih hl]

end Loop

/-! ## What is read of the body -/

section Body

variable {body : Value N} {what : String} {functions : Record (SchemaChannelMetadata (Value N))}
  {l : List (String × Translation N)}

theorem readTranslations_nodup (h : readTranslations body what functions = .ok l) : (l.map Prod.fst).Nodup := by
  rw [mapM_keys h]
  exact functions.nodup

theorem readTranslations_some (h : readTranslations body what functions = .ok l) {name : String}
    {m : SchemaChannelMetadata (Value N)} (hm : functions.get? name = some m) :
    ∃ t, readTranslation body what name m = .ok t ∧ l.lookup name = some t := by
  have hname : name ∈ l.map Prod.fst := by
    rw [mapM_keys h]
    exact Record.mem_keys.mpr ⟨m, hm⟩
  obtain ⟨⟨name', t⟩, ht, rfl⟩ := List.mem_map.mp hname
  obtain ⟨m', hm', hread⟩ := mapM_mem h ht
  rw [hm] at hm'
  cases hm'
  exact ⟨t, hread, (Record.mem_entries (r := ⟨l, readTranslations_nodup h⟩)).mp ht⟩

theorem readTranslations_none (h : readTranslations body what functions = .ok l) {name : String}
    (hnone : functions.get? name = none) : l.lookup name = none := by
  refine Option.eq_none_iff_forall_ne_some.mpr fun t ht => ?_
  obtain ⟨m, hm, -⟩ := mapM_mem h ((Record.mem_entries (r := ⟨l, readTranslations_nodup h⟩)).mpr ht)
  rw [hnone] at hm
  cases hm

end Body

variable {body : Value N} {english : SchemaMetadata (Value N)} {translations : Record (Translation N)}
  {rows : Record (ChannelCanonicalRow (Value N))}

/-- One text for each function. -/
theorem computeTranslations_get (h : computeTranslations body english = .ok translations) :
    ∃ actions queries, readTranslations body "actions" english.actions = .ok actions ∧
      readTranslations body "queries" english.queries = .ok queries ∧
      ∀ name, translations.get? name = (queries.lookup name).or (actions.lookup name) := by
  obtain ⟨actions, hactions, h⟩ := Result.bind_ok h
  obtain ⟨queries, hqueries, h⟩ := Result.bind_ok h
  cases h
  refine ⟨actions, queries, hactions, hqueries, fun name => ?_⟩
  rw [Record.get?_setAll (readTranslations_nodup hqueries), Record.get?_setAll (readTranslations_nodup hactions)]
  exact congrArg _ Option.or_none

theorem rows_contributed (h : computeTranslations body english = .ok translations)
    (hrows : translations.traverse (fun _ meta_ => meta_.row) = some rows) : Contributed body english rows := by
  obtain ⟨actions, queries, hactions, hqueries, hget⟩ := computeTranslations_get h
  obtain ⟨hsome, rfl⟩ := Record.traverse_eq_some.mp hrows
  have hrow : ∀ name t, translations.get? name = some t →
      t.row = (translations.filterMap fun _ meta_ => meta_.row).get? name := by
    intro name t ht
    rw [Record.get?_filterMap, ht, Option.bind_some]
  have hquery : ∀ name m, english.queries.get? name = some m →
      ∃ t, readTranslation body "queries" name m = .ok t ∧ translations.get? name = some t := by
    intro name m hm
    obtain ⟨t, hread, ht⟩ := readTranslations_some hqueries hm
    exact ⟨t, hread, by rw [hget, ht, Option.some_or]⟩
  have haction : ∀ name m, english.actions.get? name = some m → english.queries.get? name = none →
      ∃ t, readTranslation body "actions" name m = .ok t ∧ translations.get? name = some t := by
    intro name m hm hnone
    obtain ⟨t, hread, ht⟩ := readTranslations_some hactions hm
    exact ⟨t, hread, by rw [hget, readTranslations_none hqueries hnone, Option.none_or, ht]⟩
  constructor
  · intro name
    rw [Record.mem_keys, Record.mem_keys, Record.mem_keys]
    constructor
    · rintro ⟨row, hr⟩
      rw [Record.get?_filterMap] at hr
      obtain ⟨t, ht, -⟩ := Option.bind_eq_some_iff.mp hr
      cases hq : english.queries.get? name with
      | some m => exact Or.inr ⟨m, rfl⟩
      | none =>
        cases ha : english.actions.get? name with
        | some m => exact Or.inl ⟨m, rfl⟩
        | none =>
          rw [hget, readTranslations_none hqueries hq, readTranslations_none hactions ha] at ht
          cases ht
    · intro hor
      have htrans : ∃ t, translations.get? name = some t := by
        cases hq : english.queries.get? name with
        | some m =>
          obtain ⟨t, -, ht⟩ := hquery name m hq
          exact ⟨t, ht⟩
        | none =>
          rcases hor with ⟨m, hm⟩ | ⟨m, hm⟩
          · obtain ⟨t, -, ht⟩ := haction name m hm hq
            exact ⟨t, ht⟩
          · rw [hq] at hm
            cases hm
      obtain ⟨t, ht⟩ := htrans
      obtain ⟨row, hr⟩ := Option.isSome_iff_exists.mp (hsome name t ht)
      exact ⟨row, by rw [← hrow name t ht, hr]⟩
  · intro name m hm
    obtain ⟨t, hread, ht⟩ := hquery name m hm
    exact ⟨t, hread, readTranslation_complete hread, hrow name t ht⟩
  · intro name m hm hnone
    have hq : english.queries.get? name = none :=
      Option.eq_none_iff_forall_ne_some.mpr fun m' hm' => hnone (Record.mem_keys.mpr ⟨m', hm'⟩)
    obtain ⟨t, hread, ht⟩ := haction name m hm hq
    exact ⟨t, hread, readTranslation_complete hread, hrow name t ht⟩

/-! ## What a reader is shown -/

theorem translated_processMetaRows {V : Type} (kind kind_type kind_canonical : String) (channels : Record ChannelRow)
    (canonicals rows : Record (ChannelCanonicalRow V)) :
    processMetaRows kind kind_type kind_canonical channels (canonicals.setAll rows.entries) =
      translated (processMetaRows kind kind_type kind_canonical channels canonicals) rows := by
  have hrow : ∀ name row, processMetaRow row ((canonicals.setAll rows.entries).get? name) =
      ((rows.get? name).map (withCanonicals (processMetaRow row (canonicals.get? name)))).getD
        (processMetaRow row (canonicals.get? name)) := by
    intro name row
    rw [Record.get?_setAll_entries]
    cases rows.get? name <;> rfl
  have hwhat : ∀ what : ChannelType, (channels.filterMap fun name row =>
      if row.channel_type = what then some (processMetaRow row ((canonicals.setAll rows.entries).get? name)) else none) =
      (channels.filterMap fun name row =>
        if row.channel_type = what then some (processMetaRow row (canonicals.get? name)) else none).map fun name channel =>
          ((rows.get? name).map (withCanonicals channel)).getD channel := by
    intro what
    rw [Record.map_filterMap]
    congr 1
    funext name row
    rw [hrow]
    split <;> rfl
  unfold processMetaRows translated
  dsimp only
  rw [hwhat, hwhat, hwhat]

theorem translated_empty {V : Type} (kind kind_type kind_canonical : String) (rows : Record (ChannelCanonicalRow V)) :
    translated (processMetaRows kind kind_type kind_canonical Record.empty Record.empty) rows =
      processMetaRows kind kind_type kind_canonical Record.empty Record.empty := rfl

/-- A device is not translated without a field of the formats, which the form of the page has
    only for the formats that there are in English. -/
theorem unformatted_refused {fields : List (String × Value N)} (hbody : req.body = .obj fields)
    (hnone : fields.lookup "formatted" = none) (hmetas : (getMetasByKinds db [kind] req.org "en").head? = some english)
    (hfunction : ∃ name, name ∈ english.actions.keys ∨ name ∈ english.queries.keys) (db' : Db (Value N)) :
    post P languages validateDataset db req kind ≠ .ok db' := by
  intro h
  obtain ⟨j, sc, english', translations, rows, -, hmetas', htranslations, hrows, -⟩ := post_ok h
  rw [hmetas] at hmetas'
  cases hmetas'
  have hcontributed := rows_contributed htranslations hrows
  obtain ⟨name, hname⟩ := hfunction
  by_cases hquery : name ∈ english.queries.keys
  · obtain ⟨m, hm⟩ := Record.mem_keys.mp hquery
    obtain ⟨t, hread, -⟩ := hcontributed.query name m hm
    rw [hbody] at hread
    exact readTranslation_unformatted hnone _ _ _ _ hread
  · obtain ⟨m, hm⟩ := Record.mem_keys.mp (hname.resolve_right hquery)
    obtain ⟨t, hread, -⟩ := hcontributed.action name m hm hquery
    rw [hbody] at hread
    exact readTranslation_unformatted hnone _ _ _ _ hread

/-- What is read of a schema at a version. -/
theorem metasAtVersion_shown {j : Nat} {sc : SchemaRow} {language : String}
    (hchannels : db'.device_schema_channels = db.device_schema_channels)
    (hcanonicals : db'.device_schema_channel_canonicals = update db.device_schema_channel_canonicals j
      (update (db.device_schema_channel_canonicals j) sc.developer_version
        (update (db.device_schema_channel_canonicals j sc.developer_version) language
          ((db.device_schema_channel_canonicals j sc.developer_version language).setAll rows.entries))))
    (x : Nat × SchemaRow) (version : Nat) (language' : String) :
    getMetasByKindAtVersion db' x version language' =
      if x.1 = j ∧ language' = language ∧ version = sc.developer_version then
        translated (getMetasByKindAtVersion db x version language') rows
      else getMetasByKindAtVersion db x version language' := by
  unfold getMetasByKindAtVersion
  rw [hchannels, hcanonicals]
  by_cases hj : x.1 = j
  · by_cases hversion : version = sc.developer_version
    · by_cases hlanguage : language' = language
      · rw [if_pos ⟨hj, hlanguage, hversion⟩, hj, hversion, hlanguage, Function.update_self, Function.update_self,
          Function.update_self, translated_processMetaRows]
      · rw [if_neg fun h => hlanguage h.2.1, hj, hversion, Function.update_self, Function.update_self,
          Function.update_of_ne hlanguage]
    · rw [if_neg fun h => hversion h.2.2, hj, Function.update_self, Function.update_of_ne hversion]
  · rw [if_neg fun h => hj h.1, Function.update_of_ne hj]

/-- What readers are shown of the schemas. -/
theorem metas_shown (hunique : db.device_schema.Unique (·.kind)) {j : Nat} {sc : SchemaRow}
    (hget : getByKind db kind = some (j, sc)) {written : String} (hschema : db'.device_schema = db.device_schema)
    (hchannels : db'.device_schema_channels = db.device_schema_channels)
    (hcanonicals : db'.device_schema_channel_canonicals = update db.device_schema_channel_canonicals j
      (update (db.device_schema_channel_canonicals j) sc.developer_version
        (update (db.device_schema_channel_canonicals j sc.developer_version) written
          ((db.device_schema_channel_canonicals j sc.developer_version written).setAll rows.entries))))
    (kinds : List String) (org : Option Int) (language : String) :
    getMetasByKinds db' kinds org language =
      (getMetasByKinds db kinds org language).map fun m =>
        if m.kind = kind ∧ language = written ∧ sc.version org = some sc.developer_version then translated m rows
        else m := by
  obtain ⟨hrow, hkind⟩ := getByKind_some hget
  unfold getMetasByKinds
  rw [hschema, List.map_map]
  refine List.map_congr_left fun x hx => ?_
  obtain ⟨hx, -⟩ := Table.mem_select.mp hx
  have hj : x.2.kind = kind ↔ x.1 = j := by
    constructor
    · intro hk
      exact hunique x.1 j x.2 sc hx hrow (hk.trans hkind.symm)
    · rintro rfl
      rw [hrow] at hx
      rw [← Option.some.inj hx, hkind]
  have hsc : x.1 = j → x.2 = sc := by
    rintro rfl
    rw [hrow] at hx
    exact (Option.some.inj hx).symm
  rw [Function.comp_apply]
  cases hv : x.2.version org with
  | none =>
    dsimp only
    refine (if_neg fun hc => ?_).symm
    rw [← hsc (hj.mp hc.1), hv] at hc
    cases hc.2.2
  | some v =>
    dsimp only
    rw [metasAtVersion_shown hchannels hcanonicals]
    have hiff : x.1 = j ∧ language = written ∧ v = sc.developer_version ↔
        (getMetasByKindAtVersion db x v language).kind = kind ∧ language = written ∧
          sc.version org = some sc.developer_version := by
      change _ ↔ x.2.kind = kind ∧ _
      rw [hj]
      refine and_congr_right fun hxj => and_congr_right fun _ => ?_
      rw [← hsc hxj, hv, Option.some.injEq]
    exact if_congr hiff rfl rfl

/-- The contribution, as its readers see it. -/
theorem translation_shown (hunique : db.device_schema.Unique (·.kind))
    (h : post P languages validateDataset db req kind = .ok db') :
    ∃ j sc english rows, getByKind db kind = some (j, sc) ∧
      (getMetasByKinds db [kind] req.org "en").head? = some english ∧ Contributed req.body english rows ∧
      ∀ kinds org language, getMetasByKinds db' kinds org language =
        (getMetasByKinds db kinds org language).map fun m =>
          if m.kind = kind ∧ language = req.language ∧ sc.version org = some sc.developer_version then translated m rows
          else m := by
  obtain ⟨j, sc, english, translations, rows, hget, hmetas, htranslations, hrows, hschema, hchannels, hcanonicals⟩ :=
    post_ok h
  exact ⟨j, sc, english, rows, hget, hmetas, rows_contributed htranslations hrows,
    metas_shown hunique hget hschema hchannels hcanonicals⟩

/-- Whoever is shown another version of the device is shown nothing new. -/
theorem translation_unseen (hunique : db.device_schema.Unique (·.kind))
    (h : post P languages validateDataset db req kind = .ok db') {j : Nat} {sc : SchemaRow}
    (hget : getByKind db kind = some (j, sc)) {org : Option Int} (horg : sc.version org ≠ some sc.developer_version)
    (kinds : List String) (language : String) :
    getMetasByKinds db' kinds org language = getMetasByKinds db kinds org language := by
  obtain ⟨j', sc', -, -, rows, hget', -, -, -, hschema, hchannels, hcanonicals⟩ := post_ok h
  rw [hget] at hget'
  cases hget'
  rw [metas_shown hunique hget hschema hchannels hcanonicals]
  refine (List.map_congr_left fun m _ => ?_).trans (List.map_id _)
  exact if_neg fun hc => horg hc.2.2

/-! ## After an approval -/

/-- What is read of one kind. -/
theorem metas_head {j : Nat} {sc : SchemaRow} (hget : getByKind db sc.kind = some (j, sc)) {org : Option Int}
    (hvisible : visible org sc.approved_version sc.owner = true) {version : Nat} (hversion : sc.version org = some version)
    (language : String) :
    (getMetasByKinds db [sc.kind] org language).head? = some (getMetasByKindAtVersion db (j, sc) version language) := by
  have hfirst := Table.first?_and (q := fun _ s => visible org s.approved_version s.owner) hget hvisible
  have hcontains : ∀ kind, [sc.kind].contains kind = decide (kind = sc.kind) := by
    intro kind
    rw [List.contains_cons, List.contains_nil, Bool.or_false]
    exact Bool.beq_eq_decide_eq _ _
  unfold getMetasByKinds
  rw [List.head?_map, Table.head?_select]
  simp only [hcontains, hfirst, Option.map_some, hversion]

theorem getByKind_approve {j : Nat} {sc : SchemaRow} (hget : getByKind db sc.kind = some (j, sc)) :
    getByKind (approveByKind db sc.kind) sc.kind = some (j, { sc with approved_version := some sc.developer_version }) := by
  have htable : (approveByKind db sc.kind).device_schema = db.device_schema.update (fun _ s => s.kind = sc.kind)
      fun s => { s with approved_version := some s.developer_version } := rfl
  rw [getByKind_update htable fun _ _ _ => rfl, hget, Option.map_some, if_pos (decide_eq_true rfl)]

/-- An approved version that is the developer version is the only one. -/
theorem version_of_approved (sc : SchemaRow) {owner : Nat} (howner : sc.owner = some owner)
    (happroved : sc.approved_version = some sc.developer_version) (org : Option Int) :
    sc.version org = some sc.developer_version := by
  rw [← SchemaRow.joins_iff_version]
  unfold SchemaRow.joins
  rw [howner, happroved]
  cases org with
  | none => exact decide_eq_true rfl
  | some o =>
    dsimp only
    split
    · exact decide_eq_true rfl
    · by_cases ho : (owner : Int) = o <;> simp [ho]

/-- Once the device is approved, everyone is shown the texts, at the functions of that version. -/
theorem translation_approved (h : post P languages validateDataset db req kind = .ok db') {j owner : Nat} {sc : SchemaRow}
    (hget : getByKind db kind = some (j, sc)) (howner : sc.owner = some owner) :
    ∃ english rows, (getMetasByKinds db [kind] req.org "en").head? = some english ∧ Contributed req.body english rows ∧
      ∀ org, (getMetasByKinds (approveByKind db' kind) [kind] org req.language).head? =
        some (translated (getMetasByKindAtVersion db (j, sc) sc.developer_version req.language) rows) := by
  obtain ⟨j', sc', english, translations, rows, hget', hmetas, htranslations, hrows, hschema, hchannels, hcanonicals⟩ :=
    post_ok h
  rw [hget] at hget'
  cases hget'
  refine ⟨english, rows, hmetas, rows_contributed htranslations hrows, fun org => ?_⟩
  obtain ⟨-, rfl⟩ := getByKind_some hget
  have hget' : getByKind db' sc.kind = some (j, sc) := by
    unfold getByKind
    rw [hschema]
    exact hget
  have hversion : ({ sc with approved_version := some sc.developer_version } : SchemaRow).version org =
      some sc.developer_version :=
    version_of_approved { sc with approved_version := some sc.developer_version } howner rfl org
  rw [metas_head (getByKind_approve hget') (TranslatePage.visible_of_approved rfl) hversion]
  have hsame : getMetasByKindAtVersion (approveByKind db' sc.kind)
      (j, { sc with approved_version := some sc.developer_version }) sc.developer_version req.language =
      getMetasByKindAtVersion db' (j, sc) sc.developer_version req.language := rfl
  rw [hsame, metasAtVersion_shown hchannels hcanonicals, if_pos ⟨rfl, rfl, rfl⟩]

/-! ## The page offers the texts -/

open TranslatePage (maxVersion page_eq fromVersion_of_page pairFunctions pairFunction makeTranslationPairs Translated
  translatedOf)

/-- A function as it was contributed. -/
def offered (row : ChannelCanonicalRow (Value N)) : Translated N :=
  ⟨.string row.canonical, .ofColumn row.confirmation, some row.formatted, some row.questions, some row.argcanonicals⟩

section Lamp

def packages : Packages (Value Unit) where
  prettyprint _ _ := ""
  tokenize phrase := phrase
  deq _ _ := false

def registered : I18n.Languages := ⟨[("it", "it-IT")], by decide⟩

def setPower : ChannelRow where
  channel_type := .action
  doc := ""
  extends_ := none
  types := ["Enum(on,off)"]
  argnames := ["power"]
  required := [true]
  is_input := [true]
  string_values := [none]
  is_list := false
  is_monitorable := false
  confirm := true

def lamp : SchemaRow := ⟨"com.lamp", "primary", some 1, 1, some 0, "lamp"⟩

def inEnglish : ChannelCanonicalRow (Value Unit) where
  canonical := "turn on"
  confirmation := some "turn the lamp on or off"
  confirmation_remote := none
  formatted := []
  argcanonicals := [.str "power"]
  questions := ["on or off?"]

/-- Version 1 is not approved, and the function is as it was. -/
def lampDb : Db (Value Unit) :=
  { (Db.empty : Db (Value Unit)) with
    device_schema := Table.empty.insert lamp
    device_schema_channels := fun _ _ => ⟨[("set_power", setPower)], by decide⟩
    device_schema_channel_canonicals := fun _ _ language =>
      if language = "en" then ⟨[("set_power", inEnglish)], by decide⟩ else Record.empty }

def inItalian (developer_org : Option Nat) : Contribution Unit where
  developer_org
  language := "it"
  dataset := "dataset @com.lamp language 'it' \x7b\x7d"
  body := .obj [("canonical", .obj [("set_power", .str "accendi")]),
    ("confirmation", .obj [("set_power", .str "accendi la lampada")]),
    ("formatted", .obj []), ("argcanonical", .obj [("set_power", .obj [("power", .str "stato")])]),
    ("question", .obj [("set_power", .obj [("power", .str "accesa?")])])]

def noExamples : Validate Unit := fun _ req _ => .ok ⟨some req.language, []⟩

theorem lampDb_unique : lampDb.device_schema.Unique (·.kind) := by
  intro i j r r' hi hj _
  have hi' := List.mem_singleton.mp (Table.mem_rows.mpr hi)
  have hj' := List.mem_singleton.mp (Table.mem_rows.mpr hj)
  rw [(Prod.mk.inj hi').1, (Prod.mk.inj hj').1]

theorem lampDb_get : getByKind lampDb "com.lamp" = some (1, lamp) := rfl

theorem posted (developer_org : Option Nat) (h : developer_org = some 1 ∨ developer_org = none) :
    ∃ db', post packages registered noExamples lampDb (inItalian developer_org) "com.lamp" = .ok db' := by
  rcases h with rfl | rfl
  · exact ⟨_, rfl⟩
  · exact ⟨_, rfl⟩

theorem translation_shown_lamp : ∃ db' rows,
    post packages registered noExamples lampDb (inItalian (some 1)) "com.lamp" = .ok db' ∧
      ∀ kinds org language, getMetasByKinds db' kinds org language = (getMetasByKinds lampDb kinds org language).map fun m =>
        if m.kind = "com.lamp" ∧ language = "it" ∧ lamp.version org = some 1 then translated m rows else m := by
  obtain ⟨db', h⟩ := posted (some 1) (Or.inl rfl)
  obtain ⟨j, sc, english, rows, hget, -, -, hshown⟩ := translation_shown lampDb_unique h
  rw [lampDb_get] at hget
  cases hget
  exact ⟨db', rows, h, hshown⟩

/-- Someone without an organization contributes to a version that they are not shown. -/
theorem translation_unseen_lamp : ∃ db', post packages registered noExamples lampDb (inItalian none) "com.lamp" = .ok db' ∧
    getMetasByKinds db' ["com.lamp"] none "it" = getMetasByKinds lampDb ["com.lamp"] none "it" := by
  obtain ⟨db', h⟩ := posted none (Or.inr rfl)
  exact ⟨db', h, translation_unseen lampDb_unique h lampDb_get (by decide) ["com.lamp"] "it"⟩

theorem translation_approved_lamp : ∃ db' english rows,
    post packages registered noExamples lampDb (inItalian none) "com.lamp" = .ok db' ∧
      Contributed (inItalian none).body english rows ∧
      ∀ org, (getMetasByKinds (approveByKind db' "com.lamp") ["com.lamp"] org "it").head? =
        some (translated (getMetasByKindAtVersion lampDb (1, lamp) 1 "it") rows) := by
  obtain ⟨db', h⟩ := posted none (Or.inr rfl)
  obtain ⟨english, rows, -, hcontributed, hshown⟩ := translation_approved h lampDb_get rfl
  exact ⟨db', english, rows, h, hcontributed, hshown⟩

end Lamp

end GenieCloud.Thingpedia.Translations
