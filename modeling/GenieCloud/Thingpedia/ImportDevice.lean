/-
  GenieCloud.Thingpedia.ImportDevice — the upload of a device (`util/import_device.ts`,
  `util/device_factories.ts`), and the routes that approve a kind
  (`routes/thingpedia_devices.ts`).

  An upload comes with the class and the dataset that its validation returned; one that is
  refused, or fails, is `none` and leaves the database alone. What the upload writes is
  said once for each part: `ensurePrimarySchema_cases` (a new schema, one left alone, or
  one with a new version), `ensureDataset_frame` (examples only) and
  `uploadDevice_cases` (the device and its version, over these two).

  The ThingTalk printer, the tokenizer and `deep-equal` are parameters. The zip file, the
  icon, the entities and the discovery services of an upload go to places that are not
  modelled.
-/

import GenieCloud.Thingpedia.Database

namespace GenieCloud.Thingpedia

open GenieCloud.Lib

/-- What the upload uses of other packages. -/
structure Packages (V : Type) where
  /-- `classDef.prettyprint()`, once the annotations give the version. -/
  prettyprint : ClassDef V → Nat → String
  /-- `tokenizer.tokenize(phrase).rawTokens.join(' ')`. -/
  tokenize : String → String
  deq : V → V → Bool

variable {V : Type} (P : Packages V)

/-! ## Factories -/

/-- Spaces before capitals, where the letter before is none. -/
def spaceCapitals : List Char → List Char
  | a :: b :: cs => if !a.isUpper && b.isUpper then a :: ' ' :: b :: spaceCapitals cs else a :: spaceCapitals (b :: cs)
  | cs => cs

def clean (name : String) : String :=
  let cs := match name.toList with
    | c :: '_' :: cs => if ['v', 'w', 'g', 'p', 'd'].contains c then cs else c :: '_' :: cs
    | cs => cs
  String.ofList ((spaceCapitals (cs.map fun c => if c = '_' then ' ' else c)).map Char.toLower)

def entityTypeToHTMLType (type : String) : String :=
  if type = "tt:password" then "password"
  else if type = "tt:url" then "url"
  else if type = "tt:phone_number" then "tel"
  else if type = "tt:email_address" then "email"
  else "text"

def ParamType.htmlType : ParamType → String
  | .entity type => entityTypeToHTMLType type
  | .number | .measure => "number"
  | .boolean => "checkbox"
  | .other => "text"

def toFields (argMap : List (String × ParamType)) : List FormField :=
  argMap.map fun x => ⟨x.1, clean x.1, x.2.htmlType⟩

/-- An unrecognized config mixin is an error, and so is `none`. -/
def makeDeviceFactory (classDef : ClassDef V) (category : Category) (kind text : String) : Option (Option Factory) :=
  let factory (type : String) (discoveryType : Option String) (fields : Option (List FormField)) : Option (Option Factory) :=
    some (some { type, category, kind, text, discoveryType, fields })
  if classDef.is_abstract then some none
  else match classDef.config.module with
    | "org.thingpedia.config.builtin" => some none
    | "org.thingpedia.config.discovery.bluetooth" => factory "discovery" (some "bluetooth") none
    | "org.thingpedia.config.discovery.upnp" => factory "discovery" (some "upnp") none
    | "org.thingpedia.config.interactive" => factory "interactive" none none
    | "org.thingpedia.config.none" => factory "none" none none
    | "org.thingpedia.config.oauth2" | "org.thingpedia.config.custom_oauth" => factory "oauth2" none none
    | "org.thingpedia.config.form" => factory "form" none (some (toFields classDef.config.params))
    | "org.thingpedia.config.basic_auth" =>
      factory "form" none (some ([⟨"username", "Username", "text"⟩, ⟨"password", "Password", "password"⟩] ++
        toFields classDef.config.extra_params))
    | _ => none

def isDownloadable (classDef : ClassDef V) : Bool :=
  !classDef.is_abstract && ["org.thingpedia.v1", "org.thingpedia.v2", "org.thingpedia.builtin",
    "org.thingpedia.embedded"].contains classDef.loader &&
    classDef.loader != "org.thingpedia.builtin" && classDef.loader != "org.thingpedia.embedded"

def getCategory (classDef : ClassDef V) : Category :=
  if classDef.system || classDef.is_abstract then .system
  else if classDef.loader = "org.thingpedia.builtin" && ["org.thingpedia.builtin.thingengine.gnome",
    "org.thingpedia.builtin.thingengine.phone", "org.thingpedia.builtin.thingengine.home"].contains classDef.kind then .physical
  else match classDef.config.module with
    | "org.thingpedia.config.builtin" | "org.thingpedia.config.none" => .data
    | "org.thingpedia.config.discovery.bluetooth" | "org.thingpedia.config.discovery.upnp" => .physical
    | _ => .online

/-! ## Uploads -/

/-- An example of a dataset; its first utterance, and the others, each with its
    preprocessed text. -/
structure Example where
  name : String
  code : String
  utterance : String
  preprocessed : String
  others : List (String × String)
  deriving DecidableEq, Repr

structure Dataset where
  language : Option String
  examples : List Example
  deriving DecidableEq, Repr

structure Upload (V : Type) where
  developer_org : Nat
  /-- The roles `THINGPEDIA_ADMIN` and `TRUSTED_DEVELOPER`. -/
  admin : Bool
  trusted : Bool
  primary_kind : String
  name : String
  subcategory : Subcategory
  approve : Bool
  icon : Bool
  zipfile : Bool
  classDef : ClassDef V
  dataset : Dataset

/-- Whether the upload is approved as it is made. -/
def Upload.approves (u : Upload V) : Bool := (u.trusted || u.admin) && u.approve

/-- The id of the schema, and whether it changed. -/
def ensurePrimarySchema (db : Db V) (classDef : ClassDef V) (developer_org : Nat) (admin approve : Bool) :
    Option (Db V × Nat × Bool) :=
  let metas := classDefToSchema classDef
  match getByKind db classDef.kind with
  | some (id, existing) =>
    if existing.owner ≠ some developer_org && !admin then none
    else if areMetaIdentical P.deq (getMetasByKindAtVersion db (id, existing) existing.developer_version "en") metas then
      some (if existing.approved_version = none && approve then approveByKind db classDef.kind else db, id, false)
    else do
      let developer_version := existing.developer_version + 1
      let db ← updateSchema db id
        { existing with
          kind_canonical := classDef.canonical
          developer_version
          approved_version := if approve then some developer_version else existing.approved_version } metas
      return (db, id, true)
  | none => do
    let (db, id) ← createSchema db
      { kind := classDef.kind
        kind_canonical := classDef.canonical
        kind_type := "primary"
        owner := some developer_org
        approved_version := if approve then some 0 else none
        developer_version := 0 } metas
    return (db, id, true)

/-- The examples made up for a function of the class. -/
def syntheticExamples (schemaId : Nat) (language kind what : String) (functions : Record (FunctionDef V)) : List ExampleRow :=
  functions.entries.flatMap fun x => x.2.canonical.map fun phrase =>
    { schema_id := some schemaId
      is_base := true
      language
      type := "thingpedia"
      flags := ["template", "synthetic"]
      utterance := phrase
      preprocessed := P.tokenize phrase
      target_code := what ++ " = @" ++ kind ++ "." ++ x.1 ++ "();"
      click_count := 1
      like_count := 0
      name := none }

def templateExample (schemaId : Nat) (language code utterance preprocessed : String) (name : Option String) : ExampleRow where
  schema_id := some schemaId
  is_base := true
  language := language
  type := "thingpedia"
  flags := ["template"]
  utterance := utterance
  preprocessed := preprocessed
  target_code := code
  click_count := 1
  like_count := 0
  name := name

/-- The row an example of the dataset names, if it has its code: that row is kept. -/
def Example.kept (ex : Example) (old : List (Nat × ExampleRow)) (language : String) : Option (Nat × ExampleRow) :=
  if ex.name = "" then none
  else (old.reverse.find? fun r => r.2.name = some ex.name).filter fun r => r.2.target_code = ex.code && r.2.language = language

def Dataset.inLanguage (dataset : Dataset) : String := (dataset.language.filter (· != "")).getD "en"

section Dataset

variable (dataset : Dataset) (old : List (Nat × ExampleRow))

def toDelete : List Nat :=
  (old.map (·.1)).filter fun i => !dataset.examples.any fun ex => (ex.kept old dataset.inLanguage).any (·.1 == i)

def toUpdate : List (Nat × String × String) :=
  dataset.examples.filterMap fun ex =>
    ((ex.kept old dataset.inLanguage).filter (·.2.utterance != ex.utterance)).map fun r => (r.1, ex.utterance, ex.preprocessed)

def toCreate (schemaId : Nat) (classDef : ClassDef V) : List ExampleRow :=
  let language := dataset.inLanguage
  syntheticExamples P schemaId language classDef.kind "query" classDef.queries ++
    syntheticExamples P schemaId language classDef.kind "action" classDef.actions ++
    dataset.examples.flatMap fun ex =>
      (if (ex.kept old language).isNone then
        [templateExample schemaId language ex.code ex.utterance ex.preprocessed (some ex.name)] else []) ++
      ex.others.map fun u => templateExample schemaId language ex.code u.1 u.2 none

end Dataset

def ensureDataset (db : Db V) (schemaId : Nat) (classDef : ClassDef V) (dataset : Dataset) : Option (Db V × Bool) := do
  let old := getBaseBySchema db schemaId dataset.inLanguage true
  let deleted := toDelete dataset old
  let updated := toUpdate dataset old
  let created := toCreate P dataset old schemaId classDef
  if deleted.isEmpty && created.isEmpty && updated.isEmpty then return (db, false)
  let db := deleteMany db deleted
  let db := updated.foldl (fun db u => updateExample db u.1 u.2.1 u.2.2) db
  let db ← createMany db created
  return (db, true)

/-- The row of the device; the versions follow those of the row it had. -/
def Upload.generalInfo (u : Upload V) (old : Option DeviceRow) : DeviceRow :=
  let developer_version := match old with | some row => row.developer_version + 1 | none => 0
  { primary_kind := u.primary_kind
    owner := match old with | some row => row.owner | none => u.developer_org
    name := u.name
    category := getCategory u.classDef
    subcategory := u.subcategory
    approved_version := if u.approves then some developer_version else old.bind (·.approved_version)
    developer_version }

def Upload.versionedInfo (u : Upload V) (developer_version : Nat) (factory : Option Factory) : VersionedRow where
  code := P.prettyprint u.classDef developer_version
  factory := factory
  downloadable := isDownloadable u.classDef
  module_type := if u.classDef.is_abstract then "org.thingpedia.abstract" else u.classDef.loader

/-- An update is for the owner's organization, or an admin; a new device needs an icon. -/
def Upload.authorized (u : Upload V) (old : Option DeviceRow) : Bool :=
  match old with
  | some row => row.owner = u.developer_org || u.admin
  | none => u.icon

def uploadDevice (db : Db V) (u : Upload V) : Option (Db V) := do
  let old := getByPrimaryKind db u.primary_kind
  guard (u.authorized (old.map (·.2)))
  guard (u.classDef.kind = u.primary_kind)
  let (db, schemaId, _) ← ensurePrimarySchema P db u.classDef u.developer_org u.admin u.approves
  let (db, _) ← ensureDataset P db schemaId u.classDef u.dataset
  let generalInfo := u.generalInfo (old.map (·.2))
  let factory ← makeDeviceFactory u.classDef generalInfo.category u.primary_kind u.name
  let versionedInfo := u.versionedInfo P generalInfo.developer_version factory
  guard (u.zipfile || old.isSome || !isDownloadable u.classDef)
  match old with
  | none => createDevice db generalInfo u.classDef.extends_ u.classDef.child_types versionedInfo
  | some (id, _) => updateDevice db id generalInfo u.classDef.extends_ u.classDef.child_types versionedInfo

/-- `POST /approve`. -/
def approve (db : Db V) (kind : String) : Db V := approveByKind (approveDevice db kind) kind

/-- `POST /unapprove`. -/
def unapprove (db : Db V) (kind : String) : Db V := unapproveByKind (unapproveDevice db kind) kind

/-! ## What an upload writes -/

/-- The metadata of the class is that stored for the schema's developer version. -/
def Identical (db : Db V) (id : Nat) (existing : SchemaRow) (classDef : ClassDef V) : Prop :=
  areMetaIdentical P.deq (getMetasByKindAtVersion db (id, existing) existing.developer_version "en")
    (classDefToSchema classDef) = true

/-- The row of a schema with a new version. -/
def SchemaRow.next (existing : SchemaRow) (classDef : ClassDef V) (approve : Bool) : SchemaRow :=
  { existing with
    kind_canonical := classDef.canonical
    developer_version := existing.developer_version + 1
    approved_version := if approve then some (existing.developer_version + 1) else existing.approved_version }

def SchemaRow.first (classDef : ClassDef V) (developer_org : Nat) (approve : Bool) : SchemaRow where
  kind := classDef.kind
  kind_canonical := classDef.canonical
  kind_type := "primary"
  owner := some developer_org
  approved_version := if approve then some 0 else none
  developer_version := 0

/-- The database with a schema's row, its channels and their canonicals at one version. -/
def Db.withSchema (db : Db V) (schemas : Table SchemaRow) (id version : Nat) (channels : Record ChannelRow)
    (canonicals : Record (ChannelCanonicalRow V)) : Db V :=
  { db with
    device_schema := schemas
    device_schema_channels := Function.update db.device_schema_channels id
      (Function.update (db.device_schema_channels id) version channels)
    device_schema_channel_canonicals := Function.update db.device_schema_channel_canonicals id
      (Function.update (db.device_schema_channel_canonicals id) version
        (Function.update (db.device_schema_channel_canonicals id version) "en" canonicals)) }

/-- What `ensurePrimarySchema` does. -/
inductive Ensured (db : Db V) (classDef : ClassDef V) (developer_org : Nat) (admin approve : Bool) : Db V → Nat → Bool → Prop
  /-- The schema stays, and is approved if it was not and is to be. -/
  | alone (id : Nat) (existing : SchemaRow) : getByKind db classDef.kind = some (id, existing) →
      (existing.owner = some developer_org ∨ admin = true) → Identical P db id existing classDef →
      Ensured db classDef developer_org admin approve
        (if existing.approved_version = none && approve then approveByKind db classDef.kind else db) id false
  | version (id : Nat) (existing : SchemaRow) (channels : Record ChannelRow) (canonicals : Record (ChannelCanonicalRow V)) :
      getByKind db classDef.kind = some (id, existing) → (existing.owner = some developer_org ∨ admin = true) →
      ¬Identical P db id existing classDef →
      (db.device_schema_channels id (existing.developer_version + 1)).append (channelRows (classDefToSchema classDef)) =
        some channels →
      Ensured db classDef developer_org admin approve
        (db.withSchema (db.device_schema.update (fun i _ => i = id) fun _ => existing.next classDef approve) id
          (existing.developer_version + 1) channels canonicals) id true
  | created (channels : Record ChannelRow) (canonicals : Record (ChannelCanonicalRow V)) :
      getByKind db classDef.kind = none →
      (db.device_schema_channels db.device_schema.next 0).append (channelRows (classDefToSchema classDef)) = some channels →
      Ensured db classDef developer_org admin approve
        (db.withSchema (db.device_schema.insert (.first classDef developer_org approve)) db.device_schema.next 0
          channels canonicals) db.device_schema.next true

variable {P} {db db' : Db V}

/-- What goes with a schema's new row. -/
theorem updateSchema_some {id : Nat} {schema : SchemaRow} {metas : SchemaMetadata V} (h : updateSchema db id schema metas = some db') :
    ∃ channels canonicals,
      (db.device_schema_channels id schema.developer_version).append (channelRows metas) = some channels ∧
      db' = db.withSchema (db.device_schema.update (fun i _ => i = id) fun _ => schema) id schema.developer_version
        channels canonicals := by
  obtain ⟨channels, canonicals, hc, rfl⟩ := insertChannels_some h
  exact ⟨channels, canonicals, hc, rfl⟩

theorem createSchema_some {id : Nat} {schema : SchemaRow} {metas : SchemaMetadata V}
    (h : createSchema db schema metas = some (db', id)) :
    ∃ channels canonicals, id = db.device_schema.next ∧
      (db.device_schema_channels id schema.developer_version).append (channelRows metas) = some channels ∧
      db' = db.withSchema (db.device_schema.insert schema) id schema.developer_version channels canonicals := by
  obtain ⟨_, -, h⟩ := Option.bind_eq_some_iff.mp h
  obtain ⟨db1, h1, h⟩ := Option.bind_eq_some_iff.mp h
  obtain ⟨channels, canonicals, hc, rfl⟩ := insertChannels_some h1
  cases h
  exact ⟨channels, canonicals, rfl, hc, rfl⟩

theorem ensurePrimarySchema_cases {classDef : ClassDef V} {developer_org id : Nat} {admin approve changed : Bool}
    (h : ensurePrimarySchema P db classDef developer_org admin approve = some (db', id, changed)) :
    Ensured P db classDef developer_org admin approve db' id changed := by
  cases hget : getByKind db classDef.kind with
  | none =>
    simp only [ensurePrimarySchema, hget] at h
    obtain ⟨⟨db1, j⟩, h1, h⟩ := Option.bind_eq_some_iff.mp h
    cases h
    obtain ⟨channels, canonicals, rfl, hc, rfl⟩ := createSchema_some h1
    exact .created channels canonicals hget hc
  | some x =>
    obtain ⟨i, existing⟩ := x
    simp only [ensurePrimarySchema, hget] at h
    split at h
    · cases h
    · rename_i hn
      have howner : existing.owner = some developer_org ∨ admin = true := by
        by_contra hne
        rw [not_or] at hne
        simp [hne] at hn
      split at h
      · rename_i hid
        obtain ⟨rfl, rfl, rfl⟩ : _ = db' ∧ i = id ∧ false = changed := by
          simpa only [Option.some.injEq, Prod.mk.injEq] using h
        exact .alone i existing hget howner hid
      · rename_i hid
        obtain ⟨db1, h1, h⟩ := Option.bind_eq_some_iff.mp h
        obtain ⟨channels, canonicals, hc, rfl⟩ := updateSchema_some h1
        obtain ⟨rfl, rfl, rfl⟩ : _ = db' ∧ i = id ∧ true = changed := by
          simpa only [pure, Option.some.injEq, Prod.mk.injEq] using h
        exact .version i existing channels canonicals hget howner hid hc

theorem updateExamples_eq (l : List (Nat × String × String)) (db : Db V) :
    l.foldl (fun db u => updateExample db u.1 u.2.1 u.2.2) db = { db with
      example_utterances := l.foldl
        (fun t u => t.update (fun i _ => i = u.1) fun ex => { ex with utterance := u.2.1, preprocessed := u.2.2 })
        db.example_utterances } := by
  induction l generalizing db with
  | nil => rfl
  | cons u l ih => rw [List.foldl_cons, ih]; rfl

/-- Only examples are written. -/
theorem ensureDataset_frame {schemaId : Nat} {classDef : ClassDef V} {dataset : Dataset} {changed : Bool}
    (h : ensureDataset P db schemaId classDef dataset = some (db', changed)) :
    ∃ examples, db' = { db with example_utterances := examples } := by
  unfold ensureDataset at h
  dsimp only at h
  split at h
  · cases h
    exact ⟨db.example_utterances, rfl⟩
  · obtain ⟨db1, h1, h⟩ := Option.bind_eq_some_iff.mp h
    obtain ⟨table, -, rfl⟩ := createMany_some h1
    cases h
    rw [updateExamples_eq]
    exact ⟨table, rfl⟩

/-- The kinds an upload lists for its device. -/
def Upload.kinds (u : Upload V) : List (String × Bool) :=
  u.classDef.extends_.map (·, false) ++ u.classDef.child_types.map (·, true)

/-- The database with a device's row, its kinds and one version. -/
def Db.withDevice (db : Db V) (devices : Table DeviceRow) (id version : Nat) (kinds : Record Bool)
    (versionedInfo : VersionedRow) : Db V :=
  { db with
    device_class := devices
    device_class_kind := Function.update db.device_class_kind id kinds
    device_code_version := Function.update db.device_code_version id
      (Function.update (db.device_code_version id) version (some versionedInfo)) }

variable (P) in
/-- What `uploadDevice` does: the schema, then the examples, then the device. -/
inductive Uploaded (db : Db V) (u : Upload V) : Db V → Prop
  | created (db1 db2 : Db V) (schemaId : Nat) (changed changed' : Bool) (kinds : Record Bool) (factory : Option Factory) :
      getByPrimaryKind db u.primary_kind = none → u.classDef.kind = u.primary_kind →
      Ensured P db u.classDef u.developer_org u.admin u.approves db1 schemaId changed →
      ensureDataset P db1 schemaId u.classDef u.dataset = some (db2, changed') →
      (db2.device_class_kind db2.device_class.next).append u.kinds = some kinds →
      db2.device_code_version db2.device_class.next 0 = none →
      Uploaded db u (db2.withDevice (db2.device_class.insert (u.generalInfo none)) db2.device_class.next 0 kinds
        (u.versionedInfo P 0 factory))
  | updated (db1 db2 : Db V) (schemaId : Nat) (changed changed' : Bool) (kinds : Record Bool) (factory : Option Factory)
      (id : Nat) (old : DeviceRow) :
      getByPrimaryKind db u.primary_kind = some (id, old) → (old.owner = u.developer_org ∨ u.admin = true) →
      u.classDef.kind = u.primary_kind →
      Ensured P db u.classDef u.developer_org u.admin u.approves db1 schemaId changed →
      ensureDataset P db1 schemaId u.classDef u.dataset = some (db2, changed') →
      Record.empty.append u.kinds = some kinds → db2.device_code_version id (old.developer_version + 1) = none →
      Uploaded db u (db2.withDevice (db2.device_class.update (fun i _ => i = id) fun _ => u.generalInfo (some old)) id
        (old.developer_version + 1) kinds (u.versionedInfo P (old.developer_version + 1) factory))

theorem uploadDevice_cases {u : Upload V} (h : uploadDevice P db u = some db') : Uploaded P db u db' := by
  obtain ⟨_, howner, h⟩ := Option.bind_eq_some_iff.mp h
  obtain ⟨_, hkind, h⟩ := Option.bind_eq_some_iff.mp h
  obtain ⟨⟨db1, schemaId, changed⟩, h1, h⟩ := Option.bind_eq_some_iff.mp h
  obtain ⟨⟨db2, changed'⟩, h2, h⟩ := Option.bind_eq_some_iff.mp h
  obtain ⟨factory, -, h⟩ := Option.bind_eq_some_iff.mp h
  obtain ⟨_, -, h⟩ := Option.bind_eq_some_iff.mp h
  have hkind' : u.classDef.kind = u.primary_kind := by
    by_contra hne
    simp [guard, hne] at hkind
  cases hold : getByPrimaryKind db u.primary_kind with
  | none =>
    rw [hold] at h
    obtain ⟨kinds, hk, hv, rfl⟩ := createDevice_some h
    exact .created db1 db2 schemaId changed changed' kinds factory hold hkind' (ensurePrimarySchema_cases h1) h2 hk hv
  | some x =>
    obtain ⟨id, old⟩ := x
    rw [hold] at h howner
    have howner' : old.owner = u.developer_org ∨ u.admin = true := by
      by_contra hne
      rw [not_or] at hne
      simp [guard, Upload.authorized, hne] at howner
    obtain ⟨kinds, hk, hv, rfl⟩ := updateDevice_some h
    exact .updated db1 db2 schemaId changed changed' kinds factory id old hold howner' hkind'
      (ensurePrimarySchema_cases h1) h2 hk hv

end GenieCloud.Thingpedia
