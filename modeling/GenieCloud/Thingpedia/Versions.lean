/-
  GenieCloud.Thingpedia.Versions — versions that are not approved, and who may see them.

  Two databases differ for an organization only in what it may not see (`Unshown`): the
  code, factory and module of versions of a device it does not own, the channels of
  versions of a schema it does not own, each other than the approved one. A device and its
  schema count their versions apart, so each has its own approved version.

  `versions_do_not_leak`: every query and every method for code, factories, types or
  downloads gives an organization that is no admin, or a caller without one, the same
  answer in both; and a download is of a version up to the approved one, unless the
  device is the caller's own.
-/

import GenieCloud.Thingpedia.Client

namespace GenieCloud.Thingpedia.Versions

open GenieCloud.Lib

variable {V Ast : Type} {o : Option Nat} {db db' : Db V}

structure Unshown (o : Option Nat) (db db' : Db V) : Prop where
  organizations : db'.organizations = db.organizations
  devices : db'.device_class = db.device_class
  kinds : db'.device_class_kind = db.device_class_kind
  schemas : db'.device_schema = db.device_schema
  examples : db'.example_utterances = db.example_utterances
  code : ∀ i d v, db.device_class.get? i = some d → d.approved_version = some v ∨ o = some d.owner →
    db'.device_code_version i v = db.device_code_version i v
  channels : ∀ j sc v, db.device_schema.get? j = some sc → sc.approved_version = some v ∨ (o ≠ none ∧ o = sc.owner) →
    db'.device_schema_channels j v = db.device_schema_channels j v ∧
      db'.device_schema_channel_canonicals j v = db.device_schema_channel_canonicals j v

/-! ## What a version that is joined is -/

theorem device_version {d : DeviceRow} {v : Nat} (h : d.version (getOrgId (asOrg o)) = some v) :
    d.approved_version = some v ∨ o = some d.owner := by
  rcases DeviceRow.joins_asOrg.mp (DeviceRow.joins_iff_version.mpr h) with ⟨ho, -⟩ | ⟨-, ha⟩
  · exact Or.inr ho
  · exact Or.inl ha

theorem schema_version {sc : SchemaRow} {v : Nat} (h : sc.version (getOrgId (asOrg o)) = some v) :
    sc.approved_version = some v ∨ (o ≠ none ∧ o = sc.owner) := by
  rcases SchemaRow.joins_asOrg.mp (SchemaRow.joins_iff_version.mpr h) with ⟨hne, ho, -⟩ | ⟨-, ha⟩
  · exact Or.inr ⟨hne, ho⟩
  · exact Or.inl ha

/-! ## Queries -/

theorem joinCode_eq (h : Unshown o db db') (p : DeviceRow → Bool) :
    joinCode db' (getOrgId (asOrg o)) p = joinCode db (getOrgId (asOrg o)) p := by
  rw [joinCode, joinCode, h.devices]
  refine List.filterMap_congr fun x hx => ?_
  have hd := Table.mem_rows.mp hx
  split
  · cases hv : x.2.version (getOrgId (asOrg o)) with
    | none => rfl
    | some v => rw [Option.bind_some, Option.bind_some, h.code x.1 x.2 v hd (device_version hv)]
  · rfl

theorem setupRows_eq (h : Unshown o db db') (names : List String) (forKinds : Nat → DeviceRow → List String) :
    setupRows db' names (asOrg o) forKinds = setupRows db names (asOrg o) forKinds := by
  rw [setupRows, setupRows, h.devices]
  refine List.flatMap_congr fun x hx => ?_
  have hd := Table.mem_rows.mp hx
  cases hv : x.2.version (getOrgId (asOrg o)) with
  | none => rfl
  | some v => rw [Option.bind_some, Option.bind_some, h.code x.1 x.2 v hd (device_version hv)]

theorem types_eq (h : Unshown o db db') (kinds : List String) :
    getTypesAndNamesByKinds db' kinds (getOrgId (asOrg o)) = getTypesAndNamesByKinds db kinds (getOrgId (asOrg o)) := by
  rw [getTypesAndNamesByKinds, getTypesAndNamesByKinds, h.schemas]
  refine List.map_congr_left fun x hx => ?_
  have hd := (Table.mem_select.mp hx).1
  cases hv : x.2.version (getOrgId (asOrg o)) with
  | none => rfl
  | some v => rw [Option.elim_some, Option.elim_some, (h.channels x.1 x.2 v hd (schema_version hv)).1]

theorem metas_eq (h : Unshown o db db') (kinds : List String) (language : String) :
    getMetasByKinds db' kinds (getOrgId (asOrg o)) language = getMetasByKinds db kinds (getOrgId (asOrg o)) language := by
  rw [getMetasByKinds, getMetasByKinds, h.schemas]
  refine List.map_congr_left fun x hx => ?_
  have hd := (Table.mem_select.mp hx).1
  cases hv : x.2.version (getOrgId (asOrg o)) with
  | none => rfl
  | some v =>
    obtain ⟨hc, hcc⟩ := h.channels x.1 x.2 v hd (schema_version hv)
    simp only [getMetasByKindAtVersion, hc, hcc]

/-! ## Answers -/

/-- The same answers for code, factories, types and downloads. -/
structure SameVersions (T : ThingTalk V Ast) (C : Collation) (c : Client) (org : Option Org) (db db' : Db V) : Prop where
  getFullCodeByPrimaryKind : ∀ kind, getFullCodeByPrimaryKind db' kind (getOrgId org) = getFullCodeByPrimaryKind db kind (getOrgId org)
  getFullCodeByPrimaryKinds : ∀ kinds,
    getFullCodeByPrimaryKinds db' kinds (getOrgId org) = getFullCodeByPrimaryKinds db kinds (getOrgId org)
  getByCategoryWithCode : ∀ category, getByCategoryWithCode C db' category org = getByCategoryWithCode C db category org
  getBySubcategoryWithCode : ∀ category, getBySubcategoryWithCode C db' category org = getBySubcategoryWithCode C db category org
  getAllApprovedWithCode : ∀ start end_, getAllApprovedWithCode C db' org start end_ = getAllApprovedWithCode C db org start end_
  getDevicesForSetup : ∀ names, getDevicesForSetup db' names org = getDevicesForSetup db names org
  getTypesAndNamesByKinds : ∀ kinds, getTypesAndNamesByKinds db' kinds (getOrgId org) = getTypesAndNamesByKinds db kinds (getOrgId org)
  getMetasByKinds : ∀ kinds language,
    (getMetasByKinds db' kinds (getOrgId org) language) = getMetasByKinds db kinds (getOrgId org) language
  getDownloadVersion : ∀ kind, getDownloadVersion db' kind org = getDownloadVersion db kind org
  getDeviceCode : ∀ kind, getDeviceCode T db' c kind = getDeviceCode T db c kind
  getSchemas : ∀ kinds withMetadata, getSchemas T db' c kinds withMetadata = getSchemas T db c kinds withMetadata
  getDeviceFactories : ∀ klass, getDeviceFactories C db' c klass = getDeviceFactories C db c klass
  getModuleLocation : ∀ kind version, getModuleLocation db' c kind version = getModuleLocation db c kind version

variable {T : ThingTalk V Ast} {C : Collation} {c : Client}

theorem getOrg_eq (h : Unshown o db db') : c.getOrg db' = c.getOrg db := by
  unfold Client.getOrg getByDeveloperKey
  rw [h.organizations]

theorem same_versions (h : Unshown o db db') (hc : c.getOrg db = asOrg o) : SameVersions T C c (asOrg o) db db' := by
  have horg := (getOrg_eq h).trans hc
  have hid : c.getOrgId db = getOrgId (asOrg o) := by rw [Client.getOrgId, hc]
  have hid' : c.getOrgId db' = getOrgId (asOrg o) := by rw [Client.getOrgId, horg]
  have hcode : ∀ kinds, Thingpedia.getFullCodeByPrimaryKinds db' kinds (getOrgId (asOrg o)) =
      Thingpedia.getFullCodeByPrimaryKinds db kinds (getOrgId (asOrg o)) := by
    intro kinds
    rw [Thingpedia.getFullCodeByPrimaryKinds, joinCode_eq h]
    rfl
  have hinternal : ∀ kinds, internalGetDeviceCode T db' c kinds (getOrgId (asOrg o)) =
      internalGetDeviceCode T db c kinds (getOrgId (asOrg o)) := by
    intro kinds
    rw [internalGetDeviceCode, internalGetDeviceCode, hcode, metas_eq h]
  have hdownload : ∀ kind, Thingpedia.getDownloadVersion db' kind (asOrg o) = Thingpedia.getDownloadVersion db kind (asOrg o) := by
    intro kind
    rw [Thingpedia.getDownloadVersion, joinCode_eq h]
    rfl
  have hcategory : ∀ category, Thingpedia.getByCategoryWithCode C db' category (asOrg o) =
      Thingpedia.getByCategoryWithCode C db category (asOrg o) := by
    intro category
    rw [Thingpedia.getByCategoryWithCode, joinCode_eq h]
    rfl
  have hsubcategory : ∀ category, Thingpedia.getBySubcategoryWithCode C db' category (asOrg o) =
      Thingpedia.getBySubcategoryWithCode C db category (asOrg o) := by
    intro category
    rw [Thingpedia.getBySubcategoryWithCode, joinCode_eq h]
    rfl
  have hall : ∀ start end_, Thingpedia.getAllApprovedWithCode C db' (asOrg o) start end_ =
      Thingpedia.getAllApprovedWithCode C db (asOrg o) start end_ := by
    intro start end_
    simp only [Thingpedia.getAllApprovedWithCode, joinCode_eq h]
  refine ⟨fun kind => ?_, hcode, hcategory, hsubcategory, hall, fun names => ?_, types_eq h, metas_eq h, hdownload,
    fun kind => ?_, fun kinds withMetadata => ?_, fun klass => ?_, fun kind version => ?_⟩
  · rw [Thingpedia.getFullCodeByPrimaryKind, joinCode_eq h]
    rfl
  · simp only [Thingpedia.getDevicesForSetup, setupRows_eq h, h.kinds, getByPrimaryKind, h.devices]
  · rw [Thingpedia.getDeviceCode, Thingpedia.getDeviceCode, hid, hid', hinternal]
  · rw [Thingpedia.getSchemas, Thingpedia.getSchemas, hid, hid', hinternal, types_eq h]
  · simp only [Thingpedia.getDeviceFactories, hc, horg, hcategory, hsubcategory, hall]
  · rw [Thingpedia.getModuleLocation, Thingpedia.getModuleLocation, hc, horg, hdownload]

/-! ## Downloads -/

/-- A download is of a version up to the approved one, or of the caller's own device. -/
theorem download_le {kind : String} {version : Option Number} {location : DownloadLocation} (hc : c.getOrg db = asOrg o)
    (h : Thingpedia.getModuleLocation db c kind version = .ok location) :
    ∃ i d, db.device_class.get? i = some d ∧ d.primary_kind = kind ∧
      (o = some d.owner ∨ ∃ v, d.approved_version = some v ∧ location.version.gt v = false) := by
  obtain ⟨dev, hdev, -, -, hgt, -⟩ := getModuleLocation_ok h
  rw [hc] at hdev
  obtain ⟨i, d, hd, hk, hv, -⟩ := getDownloadVersion_ok hdev
  exact ⟨i, d, hd, hk, (device_version hv).symm.imp id fun ha => ⟨dev.version, ha, hgt⟩⟩

/-- Versions that are not approved do not leak to an organization that is no admin, or to
    a caller without one (`o` is `none`), whatever it asks for. -/
theorem versions_do_not_leak (T : ThingTalk V Ast) (C : Collation) (o : Option Nat) (c : Client) (db db' : Db V)
    (h : Unshown o db db') (hc : c.getOrg db = asOrg o) :
    SameVersions T C c (asOrg o) db db' ∧
      ∀ kind version location, Thingpedia.getModuleLocation db c kind version = .ok location →
        ∃ i d, db.device_class.get? i = some d ∧ d.primary_kind = kind ∧
          (o = some d.owner ∨ ∃ v, d.approved_version = some v ∧ location.version.gt v = false) :=
  ⟨same_versions h hc, fun _ _ _ => download_le hc⟩

/-! ## A second version -/

/-- A ThingTalk whose libraries are texts, and that has nothing to convert. -/
def texts : ThingTalk String String where
  parse code := .ok code
  serialize code _ := .ok code
  classDefs rows := .ok (String.join (rows.map (·.kind)))
  merge code _ _ := .ok code
  fromLegacy code := .ok code
  kindsOf _ := []
  downgrade _ code _ _ := .ok code

/-- Every text has the place of every other. -/
def unordered : Collation := ⟨fun _ _ => true, fun _ _ => Or.inl rfl, fun _ _ _ _ _ => rfl⟩

/-- A device of one organization, approved at its first version, with this code in its
    second one. -/
def withCode (code : String) : Db String := { Db.empty with
  device_class := Table.empty.insert
    { primary_kind := "com.weather"
      owner := 1
      name := "Weather"
      category := .data
      subcategory := .service
      approved_version := some 0
      developer_version := 1 }
  device_code_version := fun _ version =>
    if version = 0 then some ⟨"class @com.weather {}", none, true, "org.thingpedia.v2"⟩
    else if version = 1 then some ⟨code, none, true, "org.thingpedia.v2"⟩
    else none }

/-- A caller without an organization sees none of the two second versions. -/
theorem second_version_does_not_leak :
    SameVersions texts unordered ⟨.developerKey none, "en", "2.0.0", false⟩ (asOrg none) (withCode "secret") (withCode "") ∧
      ∀ kind version location,
        Thingpedia.getModuleLocation (withCode "secret") ⟨.developerKey none, "en", "2.0.0", false⟩ kind version = .ok location →
        ∃ i d, (withCode "secret").device_class.get? i = some d ∧ d.primary_kind = kind ∧
          (none = some d.owner ∨ ∃ v, d.approved_version = some v ∧ location.version.gt v = false) := by
  refine versions_do_not_leak texts unordered none _ _ _ ⟨rfl, rfl, rfl, rfl, rfl, ?_, ?_⟩ rfl
  · intro i d v hd hv
    obtain hd := List.mem_singleton.mp (Table.mem_rows.mpr hd)
    cases hd
    rcases hv with hv | hv
    · cases hv; rfl
    · cases hv
  · intro j sc v hsc
    cases hsc

end GenieCloud.Thingpedia.Versions
