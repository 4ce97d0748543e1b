/-
  GenieCloud.Thingpedia.Queries — what is read of devices, schemas and examples
  (`model/organization.ts`, `model/device.ts`, `model/schema.ts`, `model/example.ts`).

  Who asks is an organization (`org`) or its id with -1 for an admin (`orgId`), and no one
  if it is `none`. A query joins a device with one of its versions: the developer version
  for an admin and for the owner, the approved version for everyone else
  (`joins_iff_version`). Schemas are joined with their channels in the same way, but a
  schema without the version still has a row.

  A query without an `order by` gives its rows in the order of their ids. A list of kinds
  is not empty: `in ()` is not SQL.
-/

import GenieCloud.Lib.OrderBy
import GenieCloud.Thingpedia.Database
import Mathlib.Data.Int.CharZero

namespace GenieCloud.Thingpedia

open GenieCloud.Lib

/-- What a request can fail with. -/
inductive Failure
  | notFound
  | badRequest (message : String)
  | forbidden (message : String)
  | internal (code : String)
  /-- An error of another package. -/
  | thrown (message : String)
  deriving DecidableEq, Repr

/-- `NotFoundError` without rows, `InternalError` with too many. -/
def selectOne {α : Type} : List α → Except Failure α
  | [] => .error .notFound
  | [row] => .ok row
  | _ => .error (.internal "E_TOO_MANY_ROWS")

variable {V : Type}

/-! ## Organizations -/

structure Org where
  id : Nat
  is_admin : Bool
  deriving DecidableEq, Repr

def getByDeveloperKey (db : Db V) (key : String) : List Org :=
  (db.organizations.select fun _ o => o.developer_key = key).map fun x => ⟨x.1, x.2.is_admin⟩

def getOrgId (org : Option Org) : Option Int := org.map fun o => if o.is_admin then -1 else o.id

/-- An organization that is no admin, or no one. -/
def asOrg (o : Option Nat) : Option Org := o.map fun id => ⟨id, false⟩

theorem getOrgId_asOrg (o : Option Nat) : getOrgId (asOrg o) = o.map fun (id : Nat) => (id : Int) := by
  cases o <;> rfl

theorem getOrgId_asOrg_ne (o : Option Nat) : getOrgId (asOrg o) ≠ some (-1) := by
  cases o with
  | none => intro h; cases h
  | some id => rw [getOrgId_asOrg, Option.map_some, ne_eq, Option.some.injEq]; omega

/-! ## Devices -/

/-- The condition that joins a device with a version. -/
def DeviceRow.joins (d : DeviceRow) (orgId : Option Int) (version : Nat) : Bool :=
  match orgId with
  | some o =>
    if o = -1 then version = d.developer_version
    else (version = d.developer_version && (d.owner : Int) = o) || (d.approved_version = some version && (d.owner : Int) ≠ o)
  | none => d.approved_version = some version

/-- The version it is joined with. -/
def DeviceRow.version (d : DeviceRow) (orgId : Option Int) : Option Nat :=
  (d.developer_version :: d.approved_version.toList).find? (d.joins orgId)

def joinCode (db : Db V) (orgId : Option Int) (p : DeviceRow → Bool) : List (DeviceRow × Nat × VersionedRow) :=
  db.device_class.rows.filterMap fun x =>
    if p x.2 then (x.2.version orgId).bind fun version => (db.device_code_version x.1 version).map (x.2, version, ·) else none

structure BasicVersionedRow where
  code : String
  version : Nat
  approved_version : Option Nat
  developer_version : Nat
  primary_kind : String
  name : String
  category : Category
  subcategory : Subcategory
  deriving DecidableEq, Repr

def basicVersionedRow (x : DeviceRow × Nat × VersionedRow) : BasicVersionedRow where
  code := x.2.2.code
  version := x.2.1
  approved_version := x.1.approved_version
  developer_version := x.1.developer_version
  primary_kind := x.1.primary_kind
  name := x.1.name
  category := x.1.category
  subcategory := x.1.subcategory

def getFullCodeByPrimaryKind (db : Db V) (kind : String) (orgId : Option Int) : List BasicVersionedRow :=
  (joinCode db orgId fun d => d.primary_kind = kind).map basicVersionedRow

def getFullCodeByPrimaryKinds (db : Db V) (kinds : List String) (orgId : Option Int) : List BasicVersionedRow :=
  (joinCode db orgId fun d => kinds.contains d.primary_kind).map basicVersionedRow

structure FactoryRow where
  primary_kind : String
  category : Category
  name : String
  code : String
  factory : Option Factory
  deriving DecidableEq, Repr

def factoryRow (x : DeviceRow × Nat × VersionedRow) : FactoryRow where
  primary_kind := x.1.primary_kind
  category := x.1.category
  name := x.1.name
  code := x.2.2.code
  factory := x.2.2.factory

variable (C : Collation)

def getByCategoryWithCode (db : Db V) (category : Category) (org : Option Org) : List FactoryRow :=
  orderBy C (·.name) ((joinCode db (getOrgId org) fun d => d.category = category).map factoryRow)

def getBySubcategoryWithCode (db : Db V) (category : Subcategory) (org : Option Org) : List FactoryRow :=
  orderBy C (·.name) ((joinCode db (getOrgId org) fun d => d.subcategory = category).map factoryRow)

/-- `limit start,end`, if both are given: so many rows from the first one. -/
def getAllApprovedWithCode (db : Db V) (org : Option Org) (start end_ : Option Nat) : List FactoryRow :=
  let rows := orderBy C (·.name) ((joinCode db (getOrgId org) fun _ => true).map factoryRow)
  match start, end_ with
  | some start, some end_ => (rows.drop start).take end_
  | _, _ => rows

structure DownloadRow where
  downloadable : Bool
  owner : Nat
  approved_version : Option Nat
  version : Nat
  deriving DecidableEq, Repr

def getDownloadVersion (db : Db V) (kind : String) (org : Option Org) : Except Failure DownloadRow :=
  selectOne ((joinCode db (getOrgId org) fun d => d.primary_kind = kind).map fun x =>
    { downloadable := x.2.2.downloadable
      owner := x.1.owner
      approved_version := x.1.approved_version
      version := x.2.1 })

structure SetupRow where
  primary_kind : String
  name : String
  category : Category
  for_kind : String
  code : String
  factory : Option Factory
  deriving DecidableEq, Repr

/-- One part of the union: the devices under the kinds they stand for. -/
def setupRows (db : Db V) (names : List String) (org : Option Org) (forKinds : Nat → DeviceRow → List String) : List SetupRow :=
  db.device_class.rows.flatMap fun x =>
    match (x.2.version (getOrgId org)).bind (db.device_code_version x.1) with
    | some dcv => ((forKinds x.1 x.2).filter names.contains).map fun for_kind =>
      { primary_kind := x.2.primary_kind
        name := x.2.name
        category := x.2.category
        for_kind
        code := dcv.code
        factory := dcv.factory }
    | none => []

/-- A device stands for its own kind, for the kinds it has, and for those of the devices
    whose kinds they are. -/
def getDevicesForSetup (db : Db V) (names : List String) (org : Option Org) : List SetupRow :=
  let kindsOf (id : Nat) : List String := (db.device_class_kind id).keys
  (setupRows db names org (fun _ d => [d.primary_kind]) ++ setupRows db names org (fun id _ => kindsOf id) ++
    setupRows db names org fun id _ => (kindsOf id).flatMap fun kind =>
      (getByPrimaryKind db kind).elim [] fun d2 => kindsOf d2.1).eraseDups

/-! ## Schemas -/

/-- The condition that joins a schema with a version of its channels; a schema without an
    owner meets neither side of the second one. -/
def SchemaRow.joins (sc : SchemaRow) (orgId : Option Int) (version : Nat) : Bool :=
  match orgId with
  | some o =>
    if o = -1 then version = sc.developer_version
    else (version = sc.developer_version && sc.owner.any fun (owner : Nat) => (owner : Int) = o) ||
      (sc.approved_version = some version && sc.owner.any fun (owner : Nat) => (owner : Int) ≠ o)
  | none => sc.approved_version = some version

def SchemaRow.version (sc : SchemaRow) (orgId : Option Int) : Option Nat :=
  (sc.developer_version :: sc.approved_version.toList).find? (sc.joins orgId)

/-- Approved, or one's own, or anything for an admin. -/
def visible (orgId : Option Int) (approved_version owner : Option Nat) : Bool :=
  match orgId with
  | some o => o = -1 || approved_version.isSome || owner.any fun (owner : Nat) => (owner : Int) = o
  | none => approved_version.isSome

structure SchemaChannelTypes where
  extends_ : Option (List String)
  types : List String
  args : List String
  required : List Bool
  is_input : List Bool
  is_list : Bool
  is_monitorable : Bool
  deriving DecidableEq, Repr

structure SchemaTypes where
  kind : String
  kind_type : String
  triggers : Record SchemaChannelTypes
  queries : Record SchemaChannelTypes
  actions : Record SchemaChannelTypes

def processTypeRow (row : ChannelRow) : SchemaChannelTypes where
  extends_ := row.extends_
  types := row.types
  args := row.argnames
  required := row.required
  is_input := row.is_input
  is_list := row.is_list
  is_monitorable := row.is_monitorable

def processTypeRows (kind kind_type : String) (channels : Record ChannelRow) : SchemaTypes :=
  let ofType (what : ChannelType) := channels.filterMap fun _ row =>
    if row.channel_type = what then some (processTypeRow row) else none
  { kind, kind_type, triggers := ofType .trigger, queries := ofType .query, actions := ofType .action }

def getTypesAndNamesByKinds (db : Db V) (kinds : List String) (org : Option Int) : List SchemaTypes :=
  (db.device_schema.select fun _ sc => kinds.contains sc.kind && visible org sc.approved_version sc.owner).map fun x =>
    processTypeRows x.2.kind x.2.kind_type ((x.2.version org).elim Record.empty (db.device_schema_channels x.1))

def getMetasByKinds (db : Db V) (kinds : List String) (org : Option Int) (language : String) : List (SchemaMetadata V) :=
  (db.device_schema.select fun _ sc => kinds.contains sc.kind && visible org sc.approved_version sc.owner).map fun x =>
    match x.2.version org with
    | some version => getMetasByKindAtVersion db x version language
    | none => processMetaRows x.2.kind x.2.kind_type x.2.kind_canonical Record.empty Record.empty

/-- The kinds with a name. -/
def getAllApproved (db : Db V) (org : Option Int) : List (String × String) :=
  (db.device_schema.select fun _ sc => visible org sc.approved_version sc.owner && ["primary", "other"].contains sc.kind_type).map
    fun x => (x.2.kind, x.2.kind_canonical)

/-! ## Examples -/

structure TemplateRow where
  id : Nat
  utterance : String
  preprocessed : String
  target_code : String
  click_count : Int
  like_count : Int
  name : Option String
  deriving DecidableEq, Repr

structure PrimitiveTemplateRow extends TemplateRow where
  language : String
  type : String
  deriving DecidableEq, Repr

def templateRow (x : Nat × ExampleRow) : TemplateRow where
  id := x.1
  utterance := x.2.utterance
  preprocessed := x.2.preprocessed
  target_code := x.2.target_code
  click_count := x.2.click_count
  like_count := x.2.like_count
  name := x.2.name

/-- A template in a language that is not made up. -/
def ExampleRow.isTemplate (ex : ExampleRow) (language : String) (includeSynthetic : Bool) : Bool :=
  ex.is_base && ex.type = "thingpedia" && (includeSynthetic || !ex.flags.contains "synthetic") && ex.language = language

def getBaseByLanguage (db : Db V) (org : Option Int) (language : String) : List TemplateRow :=
  (db.example_utterances.select fun _ ex => ex.isTemplate language false &&
    (org = some (-1) || (ex.schema_id.bind db.device_schema.get?).any fun ds => visible org ds.approved_version ds.owner)).map
    templateRow

/-- A kind that is asked for, or one that the device of such a kind has. -/
def ofKinds (db : Db V) (org : Option Int) (kinds : List String) (kind : String) : Bool :=
  kinds.contains kind || db.device_class.rows.any fun dc => (db.device_class_kind dc.1).get? kind = some false &&
    kinds.contains dc.2.primary_kind && visible org dc.2.approved_version (some dc.2.owner)

def getByKinds (db : Db V) (kinds : List String) (org : Option Int) (language : String) (includeSynthetic : Bool) :
    List PrimitiveTemplateRow :=
  (db.example_utterances.select fun _ ex => ex.isTemplate language includeSynthetic && ex.target_code ≠ "" &&
    (ex.schema_id.bind db.device_schema.get?).any fun ds => ofKinds db org kinds ds.kind &&
      visible org ds.approved_version ds.owner).map
    fun x => { templateRow x with language := x.2.language, type := x.2.type }

/-! ## What a row comes from -/

variable {db : Db V} {orgId : Option Int}

theorem mem_joinCode {p : DeviceRow → Bool} {d : DeviceRow} {v : Nat} {dcv : VersionedRow}
    (h : (d, v, dcv) ∈ joinCode db orgId p) :
    ∃ i, db.device_class.get? i = some d ∧ p d = true ∧ d.version orgId = some v ∧ db.device_code_version i v = some dcv := by
  obtain ⟨⟨i, d'⟩, hx, hj⟩ := List.mem_filterMap.mp h
  split at hj
  · rename_i hp
    obtain ⟨v', hv, hj⟩ := Option.bind_eq_some_iff.mp hj
    obtain ⟨dcv', hdcv, hj⟩ := Option.map_eq_some_iff.mp hj
    cases hj
    exact ⟨i, Table.mem_rows.mp hx, hp, hv, hdcv⟩
  · cases hj

theorem selectOne_ok {α : Type} {rows : List α} {row : α} (h : selectOne rows = .ok row) : rows = [row] := by
  unfold selectOne at h
  split at h
  · cases h
  · cases h; rfl
  · cases h

theorem getDownloadVersion_ok {kind : String} {org : Option Org} {row : DownloadRow} (h : getDownloadVersion db kind org = .ok row) :
    ∃ i d, db.device_class.get? i = some d ∧ d.primary_kind = kind ∧ d.version (getOrgId org) = some row.version ∧
      row.approved_version = d.approved_version := by
  have hrow : row ∈ [row] := List.mem_singleton_self row
  rw [← selectOne_ok h] at hrow
  obtain ⟨⟨d, v, dcv⟩, hx, rfl⟩ := List.mem_map.mp hrow
  obtain ⟨i, hd, hk, hv, -⟩ := mem_joinCode hx
  exact ⟨i, d, hd, of_decide_eq_true hk, hv, rfl⟩

/-! ## One version at most -/

theorem DeviceRow.joins_iff_version {d : DeviceRow} {orgId : Option Int} {v : Nat} :
    d.joins orgId v = true ↔ d.version orgId = some v := by
  cases ha : d.approved_version <;> simp [DeviceRow.version, List.find?_cons, DeviceRow.joins, ha] <;> grind

theorem SchemaRow.joins_iff_version {sc : SchemaRow} {orgId : Option Int} {v : Nat} :
    sc.joins orgId v = true ↔ sc.version orgId = some v := by
  cases orgId <;> cases ho : sc.owner <;> cases ha : sc.approved_version <;>
    simp [SchemaRow.version, List.find?_cons, SchemaRow.joins, ha, ho] <;> grind

/-! ## What someone else sees -/

section Other

variable {o : Option Nat} {owner v : Nat}

theorem DeviceRow.joins_asOrg {d : DeviceRow} : d.joins (getOrgId (asOrg o)) v = true ↔
    (o = some d.owner ∧ v = d.developer_version) ∨ (o ≠ some d.owner ∧ d.approved_version = some v) := by
  cases o with
  | none => simp [DeviceRow.joins, getOrgId_asOrg]
  | some id =>
    have hne : (id : Int) ≠ -1 := by omega
    by_cases ho : id = d.owner
    · simp [DeviceRow.joins, getOrgId_asOrg, hne, ← ho]
    · simp [DeviceRow.joins, getOrgId_asOrg, hne, ho, Ne.symm ho]

theorem SchemaRow.joins_asOrg {sc : SchemaRow} : sc.joins (getOrgId (asOrg o)) v = true ↔
    (o ≠ none ∧ o = sc.owner ∧ v = sc.developer_version) ∨
      ((o = none ∨ (sc.owner ≠ none ∧ o ≠ sc.owner)) ∧ sc.approved_version = some v) := by
  cases o with
  | none => simp [SchemaRow.joins, getOrgId_asOrg]
  | some id =>
    have hne : (id : Int) ≠ -1 := by omega
    cases ho : sc.owner with
    | none => simp [SchemaRow.joins, getOrgId_asOrg, ho]
    | some owner =>
      by_cases he : id = owner
      · simp [SchemaRow.joins, getOrgId_asOrg, ho, he]
      · simp [SchemaRow.joins, getOrgId_asOrg, ho, hne, he, Ne.symm he]

theorem DeviceRow.version_of_other {d : DeviceRow} (h : o ≠ some d.owner) :
    d.version (getOrgId (asOrg o)) = d.approved_version := by
  apply Option.ext
  intro v
  rw [← DeviceRow.joins_iff_version, DeviceRow.joins_asOrg]
  simp [h]

theorem SchemaRow.version_of_other {sc : SchemaRow} (ho : sc.owner = some owner) (h : o ≠ some owner) :
    sc.version (getOrgId (asOrg o)) = sc.approved_version := by
  apply Option.ext
  intro v
  rw [← SchemaRow.joins_iff_version, SchemaRow.joins_asOrg, ho]
  simp [h]

theorem visible_of_other (approved_version : Option Nat) (h : o ≠ some owner) :
    visible (getOrgId (asOrg o)) approved_version (some owner) = approved_version.isSome := by
  cases o with
  | none => rfl
  | some id =>
    have hne : (id : Int) ≠ -1 := by omega
    have hne' : owner ≠ id := fun he => h (by rw [he])
    simp [visible, getOrgId_asOrg, hne, hne']

end Other

end GenieCloud.Thingpedia
