/-
  GenieCloud.Thingpedia.Database — the tables of Thingpedia that hold devices, their
  versions, their schemas and their examples, and what `model/device.ts`,
  `model/schema.ts` and `model/example.ts` write to them.

  A table with an auto-increment key is a `Table`. One with a composite key is a function
  of the key, so that no key has two rows; where the last part of the key is a name, it is
  a function to a `Record`. A write that breaks a key, or names a kind that is not there,
  fails with `none`, and so does the transaction it is part of.

  Columns that no function here reads (descriptions, licences, colours, the source code
  of the upload) are left out. Kinds and names compare as they are: their columns have
  binary collations.
-/

import GenieCloud.Lib.Table
import GenieCloud.Thingpedia.Schema
import Mathlib.Logic.Function.Basic

namespace GenieCloud.Thingpedia

open Function (update)
open GenieCloud.Lib

inductive Category | physical | online | data | system
  deriving DecidableEq, Repr

inductive Subcategory | service | media | socialNetwork | communication | home | health | dataManagement
  deriving DecidableEq, Repr

/-- A field of the form that configures a device. -/
structure FormField where
  name : String
  label : String
  type : String
  deriving DecidableEq, Repr

/-- How a device is added, as JSON. -/
structure Factory where
  type : String
  category : Category
  kind : String
  text : String
  discoveryType : Option String
  fields : Option (List FormField)
  deriving DecidableEq, Repr

structure DeviceRow where
  primary_kind : String
  owner : Nat
  name : String
  category : Category
  subcategory : Subcategory
  approved_version : Option Nat
  developer_version : Nat
  deriving DecidableEq, Repr

/-- A row of `device_code_version`, less its primary key (device and version). -/
structure VersionedRow where
  code : String
  factory : Option Factory
  downloadable : Bool
  module_type : String
  deriving DecidableEq, Repr

structure SchemaRow where
  kind : String
  kind_type : String
  owner : Option Nat
  developer_version : Nat
  approved_version : Option Nat
  kind_canonical : String
  deriving DecidableEq, Repr

structure ExampleRow where
  schema_id : Option Nat
  is_base : Bool
  language : String
  type : String
  flags : List String
  utterance : String
  preprocessed : String
  target_code : String
  click_count : Int
  like_count : Int
  name : Option String
  deriving DecidableEq, Repr

structure OrganizationRow where
  developer_key : String
  is_admin : Bool
  deriving DecidableEq, Repr

structure Db (V : Type) where
  organizations : Table OrganizationRow
  device_class : Table DeviceRow
  /-- By device, then kind; whether it is a child kind. -/
  device_class_kind : Nat → Record Bool
  /-- By device and version. -/
  device_code_version : Nat → Nat → Option VersionedRow
  device_schema : Table SchemaRow
  /-- By schema and version, then name. -/
  device_schema_channels : Nat → Nat → Record ChannelRow
  /-- By schema, version and language, then name. -/
  device_schema_channel_canonicals : Nat → Nat → String → Record (ChannelCanonicalRow V)
  example_utterances : Table ExampleRow

variable {V : Type}

def Db.empty : Db V where
  organizations := Table.empty
  device_class := Table.empty
  device_class_kind _ := Record.empty
  device_code_version _ _ := none
  device_schema := Table.empty
  device_schema_channels _ _ := Record.empty
  device_schema_channel_canonicals _ _ _ := Record.empty
  example_utterances := Table.empty

/-! ## Devices -/

/-- `primary_kind` is a unique key. -/
def getByPrimaryKind (db : Db V) (kind : String) : Option (Nat × DeviceRow) :=
  db.device_class.first? fun _ d => d.primary_kind = kind

/-- Kinds are references to `device_schema`. -/
def insertKinds (db : Db V) (deviceId : Nat) (extraKinds extraChildKinds : List String) : Option (Db V) := do
  let extraValues := extraKinds.map (·, false) ++ extraChildKinds.map (·, true)
  guard (extraValues.all fun x => (db.device_schema.first? fun _ s => s.kind = x.1).isSome)
  let kinds ← (db.device_class_kind deviceId).append extraValues
  return { db with device_class_kind := update db.device_class_kind deviceId kinds }

def insertVersion (db : Db V) (deviceId version : Nat) (versionedInfo : VersionedRow) : Option (Db V) :=
  if (db.device_code_version deviceId version).isSome then none
  else some { db with
    device_code_version := update db.device_code_version deviceId (update (db.device_code_version deviceId) version (some versionedInfo)) }

def createDevice (db : Db V) (device : DeviceRow) (extraKinds extraChildKinds : List String)
    (versionedInfo : VersionedRow) : Option (Db V) := do
  guard (getByPrimaryKind db device.primary_kind = none)
  let id := db.device_class.next
  let db ← insertKinds { db with device_class := db.device_class.insert device } id extraKinds extraChildKinds
  insertVersion db id device.developer_version versionedInfo

def updateDevice (db : Db V) (id : Nat) (device : DeviceRow) (extraKinds extraChildKinds : List String)
    (versionedInfo : VersionedRow) : Option (Db V) := do
  let db := { db with
    device_class := db.device_class.update (fun i _ => i = id) fun _ => device
    device_class_kind := update db.device_class_kind id Record.empty }
  let db ← insertKinds db id extraKinds extraChildKinds
  insertVersion db id device.developer_version versionedInfo

def approveDevice (db : Db V) (kind : String) : Db V :=
  { db with device_class := db.device_class.update (fun _ d => d.primary_kind = kind) fun d =>
      { d with approved_version := some d.developer_version } }

def unapproveDevice (db : Db V) (kind : String) : Db V :=
  { db with device_class := db.device_class.update (fun _ d => d.primary_kind = kind) fun d =>
      { d with approved_version := none } }

/-! ## Schemas -/

/-- `kind` is a unique key. -/
def getByKind (db : Db V) (kind : String) : Option (Nat × SchemaRow) := db.device_schema.first? fun _ s => s.kind = kind

/-- The first result for a kind that has one row. -/
def getMetasByKindAtVersion (db : Db V) (schema : Nat × SchemaRow) (version : Nat) (language : String) : SchemaMetadata V :=
  processMetaRows schema.2.kind schema.2.kind_type schema.2.kind_canonical (db.device_schema_channels schema.1 version)
    (db.device_schema_channel_canonicals schema.1 version language)

def insertChannels (db : Db V) (schemaId version : Nat) (language : String) (metas : SchemaMetadata V) : Option (Db V) := do
  let channels ← (db.device_schema_channels schemaId version).append (channelRows metas)
  let canonicals ← (db.device_schema_channel_canonicals schemaId version language).append (← channelCanonicalRows metas)
  return { db with
    device_schema_channels := update db.device_schema_channels schemaId (update (db.device_schema_channels schemaId) version channels)
    device_schema_channel_canonicals := update db.device_schema_channel_canonicals schemaId
      (update (db.device_schema_channel_canonicals schemaId) version
        (update (db.device_schema_channel_canonicals schemaId version) language canonicals)) }

def createSchema (db : Db V) (schema : SchemaRow) (metas : SchemaMetadata V) : Option (Db V × Nat) := do
  guard (getByKind db schema.kind = none)
  let id := db.device_schema.next
  let db ← insertChannels { db with device_schema := db.device_schema.insert schema } id schema.developer_version "en" metas
  return (db, id)

def updateSchema (db : Db V) (id : Nat) (schema : SchemaRow) (metas : SchemaMetadata V) : Option (Db V) :=
  insertChannels { db with device_schema := db.device_schema.update (fun i _ => i = id) fun _ => schema } id
    schema.developer_version "en" metas

def approveByKind (db : Db V) (kind : String) : Db V :=
  { db with device_schema := db.device_schema.update (fun _ s => s.kind = kind) fun s =>
      { s with approved_version := some s.developer_version } }

def unapproveByKind (db : Db V) (kind : String) : Db V :=
  { db with device_schema := db.device_schema.update (fun _ s => s.kind = kind) fun s =>
      { s with approved_version := none } }

/-! ## Examples -/

/-- The examples of a schema in a language, in the order of their ids. -/
def getBaseBySchema (db : Db V) (schemaId : Nat) (language : String) (includeSynthetic : Bool) : List (Nat × ExampleRow) :=
  db.example_utterances.select fun _ ex => ex.schema_id = some schemaId && ex.is_base && ex.type = "thingpedia" &&
    ex.language = language && (includeSynthetic || !ex.flags.contains "synthetic")

/-- Language, schema and name are a unique key; a row without a name is free of it. -/
def nameTaken (examples : Table ExampleRow) (ex : ExampleRow) : Bool :=
  ex.name.isSome && ex.schema_id.isSome &&
    examples.rows.any fun r => r.2.language = ex.language && r.2.schema_id = ex.schema_id && r.2.name = ex.name

def insertExample (examples : Table ExampleRow) (ex : ExampleRow) : Option (Table ExampleRow) :=
  if nameTaken examples ex then none else some (examples.insert ex)

def createMany (db : Db V) (examples : List ExampleRow) : Option (Db V) := do
  let table ← examples.foldlM insertExample db.example_utterances
  return { db with example_utterances := table }

def deleteMany (db : Db V) (ids : List Nat) : Db V :=
  { db with example_utterances := db.example_utterances.delete fun i _ => ids.contains i }

def updateExample (db : Db V) (id : Nat) (utterance preprocessed : String) : Db V :=
  { db with example_utterances := db.example_utterances.update (fun i _ => i = id) fun ex =>
      { ex with utterance := utterance, preprocessed := preprocessed } }

/-! ## What a write that goes through has done -/

variable {db db' : Db V}

theorem getByPrimaryKind_some {kind : String} {i : Nat} {d : DeviceRow} (h : getByPrimaryKind db kind = some (i, d)) :
    db.device_class.get? i = some d ∧ d.primary_kind = kind := by
  obtain ⟨hd, hk⟩ := Table.first?_eq_some h
  exact ⟨hd, of_decide_eq_true hk⟩

theorem getByPrimaryKind_none {kind : String} :
    getByPrimaryKind db kind = none ↔ ∀ i d, db.device_class.get? i = some d → d.primary_kind ≠ kind := by
  rw [getByPrimaryKind, Table.first?_eq_none]
  simp only [decide_eq_false_iff_not, ne_eq]

theorem getByKind_some {kind : String} {j : Nat} {sc : SchemaRow} (h : getByKind db kind = some (j, sc)) :
    db.device_schema.get? j = some sc ∧ sc.kind = kind := by
  obtain ⟨hs, hk⟩ := Table.first?_eq_some h
  exact ⟨hs, of_decide_eq_true hk⟩

theorem getByKind_none {kind : String} :
    getByKind db kind = none ↔ ∀ j sc, db.device_schema.get? j = some sc → sc.kind ≠ kind := by
  rw [getByKind, Table.first?_eq_none]
  simp only [decide_eq_false_iff_not, ne_eq]

theorem getByKind_update {p : Nat → SchemaRow → Bool} {f : SchemaRow → SchemaRow}
    (h : db'.device_schema = db.device_schema.update p f) (hf : ∀ j sc, p j sc = true → (f sc).kind = sc.kind)
    (kind : String) : getByKind db' kind = (getByKind db kind).map fun x => if p x.1 x.2 then (x.1, f x.2) else x := by
  rw [getByKind, h]
  exact Table.first?_update fun j sc hp => by rw [hf j sc hp]

theorem getByKind_insert {sc : SchemaRow} (h : db'.device_schema = db.device_schema.insert sc) (kind : String) :
    getByKind db' kind = (getByKind db kind).or (if sc.kind = kind then some (db.device_schema.next, sc) else none) := by
  rw [getByKind, h, Table.first?_insert, getByKind]
  simp only [decide_eq_true_eq]

theorem insertKinds_some {id : Nat} {extraKinds extraChildKinds : List String}
    (h : insertKinds db id extraKinds extraChildKinds = some db') :
    ∃ kinds, (db.device_class_kind id).append (extraKinds.map (·, false) ++ extraChildKinds.map (·, true)) = some kinds ∧
      db' = { db with device_class_kind := update db.device_class_kind id kinds } := by
  obtain ⟨_, -, h⟩ := Option.bind_eq_some_iff.mp h
  obtain ⟨kinds, hk, h⟩ := Option.bind_eq_some_iff.mp h
  exact ⟨kinds, hk, (Option.some.inj h).symm⟩

theorem insertVersion_some {id version : Nat} {versionedInfo : VersionedRow}
    (h : insertVersion db id version versionedInfo = some db') :
    db.device_code_version id version = none ∧ db' = { db with
      device_code_version := update db.device_code_version id
        (update (db.device_code_version id) version (some versionedInfo)) } := by
  unfold insertVersion at h
  split at h
  · cases h
  · rename_i hn
    exact ⟨by simpa using hn, (Option.some.inj h).symm⟩

theorem createDevice_some {device : DeviceRow} {extraKinds extraChildKinds : List String} {versionedInfo : VersionedRow}
    (h : createDevice db device extraKinds extraChildKinds versionedInfo = some db') :
    ∃ kinds, (db.device_class_kind db.device_class.next).append
        (extraKinds.map (·, false) ++ extraChildKinds.map (·, true)) = some kinds ∧
      db.device_code_version db.device_class.next device.developer_version = none ∧
      db' = { db with
        device_class := db.device_class.insert device
        device_class_kind := update db.device_class_kind db.device_class.next kinds
        device_code_version := update db.device_code_version db.device_class.next
          (update (db.device_code_version db.device_class.next) device.developer_version (some versionedInfo)) } := by
  obtain ⟨_, -, h⟩ := Option.bind_eq_some_iff.mp h
  obtain ⟨db1, h1, h⟩ := Option.bind_eq_some_iff.mp h
  obtain ⟨kinds, hk, rfl⟩ := insertKinds_some h1
  obtain ⟨hv, rfl⟩ := insertVersion_some h
  exact ⟨kinds, hk, hv, rfl⟩

theorem updateDevice_some {id : Nat} {device : DeviceRow} {extraKinds extraChildKinds : List String}
    {versionedInfo : VersionedRow} (h : updateDevice db id device extraKinds extraChildKinds versionedInfo = some db') :
    ∃ kinds, Record.empty.append (extraKinds.map (·, false) ++ extraChildKinds.map (·, true)) = some kinds ∧
      db.device_code_version id device.developer_version = none ∧
      db' = { db with
        device_class := db.device_class.update (fun i _ => i = id) fun _ => device
        device_class_kind := update db.device_class_kind id kinds
        device_code_version := update db.device_code_version id
          (update (db.device_code_version id) device.developer_version (some versionedInfo)) } := by
  obtain ⟨db1, h1, h⟩ := Option.bind_eq_some_iff.mp h
  obtain ⟨kinds, hk, rfl⟩ := insertKinds_some h1
  obtain ⟨hv, rfl⟩ := insertVersion_some h
  refine ⟨kinds, ?_, hv, ?_⟩
  · dsimp only at hk
    rw [Function.update_self] at hk
    exact hk
  · dsimp only
    rw [Function.update_idem]

theorem insertChannels_some {schemaId version : Nat} {language : String} {metas : SchemaMetadata V}
    (h : insertChannels db schemaId version language metas = some db') :
    ∃ channels canonicals, (db.device_schema_channels schemaId version).append (channelRows metas) = some channels ∧
      db' = { db with
        device_schema_channels :=
          update db.device_schema_channels schemaId (update (db.device_schema_channels schemaId) version channels)
        device_schema_channel_canonicals := update db.device_schema_channel_canonicals schemaId
          (update (db.device_schema_channel_canonicals schemaId) version
            (update (db.device_schema_channel_canonicals schemaId version) language canonicals)) } := by
  obtain ⟨channels, hc, h⟩ := Option.bind_eq_some_iff.mp h
  obtain ⟨rows, -, h⟩ := Option.bind_eq_some_iff.mp h
  obtain ⟨canonicals, -, h⟩ := Option.bind_eq_some_iff.mp h
  exact ⟨channels, canonicals, hc, (Option.some.inj h).symm⟩

theorem createMany_some {examples : List ExampleRow} (h : createMany db examples = some db') :
    ∃ table, examples.foldlM insertExample db.example_utterances = some table ∧
      db' = { db with example_utterances := table } := by
  obtain ⟨table, ht, h⟩ := Option.bind_eq_some_iff.mp h
  exact ⟨table, ht, (Option.some.inj h).symm⟩

end GenieCloud.Thingpedia
