/-
  GenieCloud.Thingpedia.Visibility — what an upload that is not approved changes for those
  that do not own it.

  Codes, factories and channels have versions, and the others read the approved one. The
  name, the category and the kinds of a device, the name of its schema and the examples
  have none: the upload writes over what everyone reads. `unseen_iff`: an organization that
  is no admin and not the owner, or no one, reads what it read before exactly if the
  upload is `Unseen`; and `answers` says that the client then answers as before.

  A client that needs compatibility has its examples checked against the developers'
  schemas: it also takes that the schema stays, or that no example names its kind.
-/

import GenieCloud.Thingpedia.Approval
import GenieCloud.Thingpedia.ExampleView
import GenieCloud.Thingpedia.FactoryView
import GenieCloud.Thingpedia.Versions

namespace GenieCloud.Thingpedia.Visibility

open GenieCloud.Lib

variable {V Ast : Type} {P : Packages V} {db db' db1 : Db V} {u : Upload V} {j : Nat} {o : Option Nat} {C : Collation} {c : Client}

/-- An upload that shows nothing to those that do not own it: `language` is theirs. -/
structure Unseen (P : Packages V) (C : Collation) (db : Db V) (u : Upload V) (o : Option Nat) (language : String) : Prop where
  code : CodeKept db u
  types : TypesKept P db u.classDef
  name : NameKept P db u.classDef
  factory : FactoryKept C db u (getOrgId (asOrg o))
  examples : ∀ j sc, getByKind db u.classDef.kind = some (j, sc) → sc.approved_version.isSome = true →
    language = u.dataset.inLanguage → ExamplesKept u.dataset (getBaseBySchema db j u.dataset.inLanguage true)
  kinds : ∀ i ex kind, Served db (getOrgId (asOrg o)) language i ex → ex.target_code ≠ "" →
    shownKind db (getOrgId (asOrg o)) ex = some kind → KindKept db u kind

/-- The same is read for the answers. -/
structure SameReads (C : Collation) (c : Client) (o : Option Nat) (db db' : Db V) : Prop where
  getModuleLocation : ∀ kind version, getModuleLocation db' c kind version = getModuleLocation db c kind version
  getDeviceFactories : ∀ klass, getDeviceFactories C db' c klass = getDeviceFactories C db c klass
  getAllDeviceNames : getAllDeviceNames db' c = getAllDeviceNames db c
  getTypesAndNamesByKinds : ∀ kinds, getTypesAndNamesByKinds db' kinds (getOrgId (asOrg o)) =
    getTypesAndNamesByKinds db kinds (getOrgId (asOrg o))
  getBaseByLanguage : getBaseByLanguage db' (getOrgId (asOrg o)) c.language = getBaseByLanguage db (getOrgId (asOrg o)) c.language
  getByKinds : ∀ kinds, getByKinds db' kinds (getOrgId (asOrg o)) c.language false =
    getByKinds db kinds (getOrgId (asOrg o)) c.language false

/-- The same answers, whatever is asked for; `version` is that of ThingTalk. -/
structure SameAnswers (T : ThingTalk V Ast) (C : Collation) (c : Client) (db db' : Db V) : Prop where
  getDeviceCode : ∀ kind, getDeviceCode T db' c kind = getDeviceCode T db c kind
  getSchemas : ∀ kinds withMetadata, getSchemas T db' c kinds withMetadata = getSchemas T db c kinds withMetadata
  getModuleLocation : ∀ kind version, getModuleLocation db' c kind version = getModuleLocation db c kind version
  getDeviceFactories : ∀ klass, getDeviceFactories C db' c klass = getDeviceFactories C db c klass
  getAllDeviceNames : getAllDeviceNames db' c = getAllDeviceNames db c
  getExamplesByKinds : ∀ version kinds accept,
    getExamplesByKinds T db' c version kinds accept = getExamplesByKinds T db c version kinds accept
  getAllExamples : ∀ version accept, getAllExamples T db' c version accept = getAllExamples T db c version accept

/-! ## The parts of an upload -/

/-- What an upload that is not approved does; `db1` has the schema it leaves. -/
structure Effect (P : Packages V) (db : Db V) (u : Upload V) (db' db1 : Db V) (j : Nat) : Prop where
  kind : u.classDef.kind = u.primary_kind
  organizations : db'.organizations = db.organizations
  schema : SchemaEffect P db u.classDef u.developer_org db1 j
  device_schema : db'.device_schema = db1.device_schema
  channels : db'.device_schema_channels = db1.device_schema_channels
  canonicals : db'.device_schema_channel_canonicals = db1.device_schema_channel_canonicals
  device : DeviceEffect db u db'
  examples : Synced P db.example_utterances db'.example_utterances (getBaseBySchema db j u.dataset.inLanguage true) j
    u.classDef u.dataset

theorem ensured_examples {classDef : ClassDef V} {developer_org : Nat} {admin approve changed : Bool}
    (h : Ensured P db classDef developer_org admin approve db1 j changed) : db1.example_utterances = db.example_utterances := by
  cases h with
  | alone => split <;> rfl
  | version => rfl
  | created => rfl

theorem uploaded_effect (h : Uploaded P db u db') (hna : u.approves = false) : ∃ db1 j, Effect P db u db' db1 j := by
  cases h with
  | created db1 db2 j changed changed' kinds factory hget hkind hens hdata hkinds hfresh =>
    rw [hna] at hens
    obtain ⟨t, rfl, hsync⟩ := ensureDataset_synced hdata
    have hd := hens.devices
    have hsync' : Synced P db.example_utterances t (getBaseBySchema db j u.dataset.inLanguage true) j u.classDef u.dataset := by
      rw [getBaseBySchema, ensured_examples hens] at hsync
      exact hsync
    refine ⟨db1, j, hkind, hd.organizations, hens.effect, rfl, rfl, rfl, .created hget ?_ fun k hk => ⟨?_, ?_⟩, hsync'⟩
    · rw [← hd.device_class]
      rfl
    · show Function.update db1.device_class_kind db1.device_class.next kinds k = _
      rw [hd.device_class, Function.update_of_ne hk, hd.device_class_kind]
    · show Function.update db1.device_code_version db1.device_class.next _ k = _
      rw [hd.device_class, Function.update_of_ne hk, hd.device_code_version]
  | updated db1 db2 j changed changed' kinds factory i old hget howner hkind hens hdata hkinds hfresh =>
    rw [hna] at hens
    obtain ⟨t, rfl, hsync⟩ := ensureDataset_synced hdata
    have hd := hens.devices
    have hsync' : Synced P db.example_utterances t (getBaseBySchema db j u.dataset.inLanguage true) j u.classDef u.dataset := by
      rw [getBaseBySchema, ensured_examples hens] at hsync
      exact hsync
    have hcode : ∀ v, Function.update db1.device_code_version i (Function.update (db1.device_code_version i)
        (old.developer_version + 1) (some (u.versionedInfo P (old.developer_version + 1) factory))) i v =
        Function.update (db.device_code_version i) (old.developer_version + 1)
          (some (u.versionedInfo P (old.developer_version + 1) factory)) v := by
      intro v
      rw [Function.update_self, hd.device_code_version]
    refine ⟨db1, j, hkind, hd.organizations, hens.effect, rfl, rfl, rfl,
      .updated i old hget ?_ (fun k hk => ⟨?_, ?_⟩) (fun k => ?_) ?_ ?_ fun v hv => ?_, hsync'⟩
    · rw [← hd.device_class]
      rfl
    · show Function.update db1.device_class_kind i kinds k = _
      rw [Function.update_of_ne hk, hd.device_class_kind]
    · show Function.update db1.device_code_version i _ k = _
      rw [Function.update_of_ne hk, hd.device_code_version]
    · show (Function.update db1.device_class_kind i kinds i).get? k = some false ↔ _
      rw [Function.update_self]
      exact mem_kinds hkinds k
    · exact hd.device_code_version ▸ hfresh
    · refine (congrArg Option.isSome (hcode _)).trans ?_
      rw [Function.update_self]
      rfl
    · exact (hcode v).trans (Function.update_of_ne hv ..)

/-! ## What is read -/

section Reads

variable (h : Effect P db u db' db1 j)
include h

theorem getOrg_eq : c.getOrg db' = c.getOrg db := by
  unfold Client.getOrg getByDeveloperKey
  rw [h.organizations]

theorem shown_eq (ho : o ≠ some u.developer_org) :
    shownSchema db' (getOrgId (asOrg o)) = shownSchema db (getOrgId (asOrg o)) := by
  rw [← shownSchema_eq h.schema ho]
  funext i
  rw [shownSchema, h.device_schema]
  rfl

theorem types_eq (kinds : List String) (org : Option Int) :
    getTypesAndNamesByKinds db' kinds org = getTypesAndNamesByKinds db1 kinds org := by
  rw [getTypesAndNamesByKinds, h.device_schema, h.channels]
  rfl

theorem names_eq (org : Option Int) : getAllApproved db' org = getAllApproved db1 org := by
  rw [getAllApproved, h.device_schema]
  rfl

end Reads

theorem unseen_iff (h : Effect P db u db' db1 j) (hna : u.approves = false) (hdev : OwnDevice db u)
    (hsch : OwnSchema db u.classDef.kind u.developer_org) (hunique : db.device_class.Unique (·.primary_kind))
    (hc : c.getOrg db = asOrg o) (ho : o ≠ some u.developer_org) : Unseen P C db u o c.language ↔ SameReads C c o db db' := by
  have hc' : c.getOrg db' = asOrg o := (getOrg_eq h).trans hc
  have hshown := shown_eq h ho
  have hshow := shown_iff h.schema hsch ho
  have hbase : getBaseByLanguage db' (getOrgId (asOrg o)) c.language = getBaseByLanguage db (getOrgId (asOrg o)) c.language ↔ _ :=
    base_iff h.examples hshown
  have hnames : getAllDeviceNames db' c = getAllDeviceNames db c ↔ NameKept P db u.classDef := by
    rw [getAllDeviceNames, getAllDeviceNames, Client.getOrgId, Client.getOrgId, hc, hc', names_eq h]
    exact names_iff h.schema hsch ho
  have htypes : (∀ kinds, getTypesAndNamesByKinds db' kinds (getOrgId (asOrg o)) =
      getTypesAndNamesByKinds db kinds (getOrgId (asOrg o))) ↔ TypesKept P db u.classDef := by
    simp only [types_eq h]
    exact types_iff h.schema hsch ho
  constructor
  · intro hu
    have hexamples : (shownSchema db (getOrgId (asOrg o)) j).isSome = true → c.language = u.dataset.inLanguage →
        ExamplesKept u.dataset (getBaseBySchema db j u.dataset.inLanguage true) := by
      intro hs hl
      obtain ⟨sc, hget, happ⟩ := hshow.mp hs
      exact hu.examples j sc hget happ hl
    refine ⟨fun kind version => ?_, (factories_iff h.device hna hdev ho hu.code hc hc').mpr hu.factory, hnames.mpr hu.name,
      htypes.mpr hu.types, hbase.mpr hexamples, (byKinds_iff hshown fun i ex => served_iff h.examples hshown hexamples).mpr ?_⟩
    · rw [getModuleLocation, getModuleLocation, hc, hc', getDownloadVersion_eq h.device hna hdev ho hu.code]
    · intro i ex kind hs hcode hk
      exact (ofKinds_kept_iff h.device hna hdev ho hunique kind).mpr (hu.kinds i ex kind hs hcode hk)
  · intro hr
    have hcode := codeKept_of_downloads h.device hna hdev ho hunique hc hc' hr.getModuleLocation
    have hexamples := hbase.mp hr.getBaseByLanguage
    refine ⟨hcode, htypes.mp hr.getTypesAndNamesByKinds, hnames.mp hr.getAllDeviceNames,
      (factories_iff h.device hna hdev ho hcode hc hc').mp hr.getDeviceFactories, fun i sc hget happ hl => ?_,
      fun i ex kind hs hne hk => ?_⟩
    · obtain rfl := h.schema.id_eq hget
      exact hexamples (hshow.mpr ⟨sc, hget, happ⟩) hl
    · refine (ofKinds_kept_iff h.device hna hdev ho hunique kind).mp ?_
      exact (byKinds_iff hshown fun i ex => served_iff h.examples hshown hexamples).mp hr.getByKinds i ex kind hs hne hk

/-! ## What is answered -/

/-- The code of a kind as it is served, with the functions it is translated by. -/
def printed (T : ThingTalk V Ast) (c : Client)
    (metas : List (String × Record (SchemaChannelMetadata V) × Record (SchemaChannelMetadata V))) (x : String × String) :
    Except Failure String :=
  if c.language = "en" && !c.needsCompatibility && !isOldSyntax x.2 then .ok x.2
  else do
    let classDef ← T.parse x.2
    let classDef ← match if c.language = "en" then none else metas.find? (·.1 = x.1) with
      | some schema => T.merge classDef schema.2.1 schema.2.2
      | none => .ok classDef
    T.serialize classDef c.thingtalkVersion

theorem internalGetDeviceCode_eq (T : ThingTalk V Ast) (db : Db V) (c : Client) (kinds : List String) (org : Option Int) :
    internalGetDeviceCode T db c kinds org =
      ((getFullCodeByPrimaryKinds db kinds org).map fun dev => (dev.primary_kind, dev.code)).mapM
        (printed T c ((getMetasByKinds db kinds org c.language).map functionsOf)) := by
  rw [internalGetDeviceCode, List.mapM_map]
  congr 1
  funext dev
  rw [Function.comp_apply, printed]
  split
  · rfl
  · refine bind_congr fun classDef => ?_
    by_cases hl : c.language = "en"
    · rw [if_pos hl, if_pos hl]
    · rw [if_neg hl, if_neg hl, List.find?_map]
      cases hf : (getMetasByKinds db kinds org c.language).find? (·.kind = dev.primary_kind) with
      | none =>
        have hf' : (getMetasByKinds db kinds org c.language).find? ((fun x => decide (x.1 = dev.primary_kind)) ∘ functionsOf) = none := hf
        rw [hf']
        rfl
      | some m =>
        have hf' : (getMetasByKinds db kinds org c.language).find? ((fun x => decide (x.1 = dev.primary_kind)) ∘ functionsOf) = some m := hf
        rw [hf']
        rfl

theorem printed_en {T : ThingTalk V Ast} (hl : c.language = "en")
    (metas metas' : List (String × Record (SchemaChannelMetadata V) × Record (SchemaChannelMetadata V))) :
    printed T c metas = printed T c metas' := by
  funext x
  rw [printed, printed, if_pos hl, if_pos hl]

section Answers

variable (h : Effect P db u db' db1 j) (hna : u.approves = false) (hdev : OwnDevice db u)
  (hsch : OwnSchema db u.classDef.kind u.developer_org) (ho : o ≠ some u.developer_org) (hu : Unseen P C db u o c.language)
include h hna hdev hsch ho hu

theorem internalGetDeviceCode_same (T : ThingTalk V Ast) (kinds : List String) :
    internalGetDeviceCode T db' c kinds (getOrgId (asOrg o)) = internalGetDeviceCode T db c kinds (getOrgId (asOrg o)) := by
  rw [internalGetDeviceCode_eq, internalGetDeviceCode_eq, codes_eq h.device hna hdev ho hu.code]
  by_cases hl : c.language = "en"
  · rw [printed_en hl]
  · have hmetas : getMetasByKinds db' kinds (getOrgId (asOrg o)) c.language =
        getMetasByKinds db1 kinds (getOrgId (asOrg o)) c.language := by
      simp only [getMetasByKinds, getMetasByKindAtVersion, h.device_schema, h.channels, h.canonicals]
    rw [hmetas, metas_eq h.schema hsch ho hu.types kinds hl]

/-- The examples served to a client that needs compatibility do not go by the schema, or it stays. -/
def OldClient (T : ThingTalk V Ast) (P : Packages V) (db : Db V) (u : Upload V) (o : Option Nat) (c : Client) : Prop :=
  c.needsCompatibility = true → (∃ j sc, getByKind db u.classDef.kind = some (j, sc) ∧ Identical P db j sc u.classDef) ∨
    ∀ i ex, Served db (getOrgId (asOrg o)) c.language i ex → u.primary_kind ∉ T.kindsOf ex.target_code

end Answers

/-- The developers' schema of a kind, as an old client's examples are checked with it. -/
theorem adminSchemas_same (h : Effect P db u db' db1 j) (T : ThingTalk V Ast) (version language kind : String)
    (hk : kind ≠ u.primary_kind ∨ ∃ j sc, getByKind db u.classDef.kind = some (j, sc) ∧ Identical P db j sc u.classDef) :
    getSchemas T db' (adminClient version language) [kind] false = getSchemas T db (adminClient version language) [kind] false := by
  have htypes : getTypesAndNamesByKinds db' [kind] (some (-1)) = getTypesAndNamesByKinds db [kind] (some (-1)) := by
    rw [types_eq h]
    rcases hk with hne | ⟨i, sc, hget, hid⟩
    · refine types_of_other_kind h.schema ?_ _
      rw [h.kind, List.mem_singleton]
      exact hne.symm
    · cases h.schema with
      | same => rfl
      | version _ sc1 _ _ hget1 hid1 =>
        rw [hget] at hget1
        cases hget1
        exact absurd hid hid1
      | created _ _ hnone =>
        rw [hget] at hnone
        cases hnone
  have hadmin : ∀ db : Db V, (adminClient version language).getOrgId db = some (-1) := fun _ => rfl
  rw [getSchemas, getSchemas, hadmin, hadmin, htypes, if_neg Bool.false_ne_true, if_neg Bool.false_ne_true]

/-- The same rows make the same dataset. -/
theorem makeDataset_same (h : Effect P db u db' db1 j) {T : ThingTalk V Ast} (hold : OldClient T P db u o c) {rows : List TemplateRow}
    (hrows : ∀ row ∈ rows, ∃ i ex, Served db (getOrgId (asOrg o)) c.language i ex ∧ row.target_code = ex.target_code)
    (version name : String) (editMode : Bool) :
    makeDataset T db' c version name rows editMode = makeDataset T db c version name rows editMode := by
  rw [makeDataset, makeDataset, examplesToDataset, examplesToDataset]
  refine bind_congr fun examples => ?_
  cases hcompat : c.needsCompatibility with
  | false => rfl
  | true =>
    have hmap : (rows.flatMap fun row => T.kindsOf row.target_code).map (fun k =>
        (k, getSchemas T db' (adminClient version c.language) [k] false)) =
        (rows.flatMap fun row => T.kindsOf row.target_code).map fun k =>
          (k, getSchemas T db (adminClient version c.language) [k] false) := by
      refine List.map_congr_left fun k hk => ?_
      obtain ⟨row, hrow, hk⟩ := List.mem_flatMap.mp hk
      rw [adminSchemas_same h]
      rcases hold hcompat with hid | hno
      · exact Or.inr hid
      · left
        rintro rfl
        obtain ⟨i, ex, hs, hcode⟩ := hrows row hrow
        exact hno i ex hs (hcode ▸ hk)
    simp only [if_true, hmap]

theorem answers (h : Effect P db u db' db1 j) (hna : u.approves = false) (hdev : OwnDevice db u)
    (hsch : OwnSchema db u.classDef.kind u.developer_org) (hc : c.getOrg db = asOrg o) (ho : o ≠ some u.developer_org)
    (hu : Unseen P C db u o c.language) (hr : SameReads C c o db db') {T : ThingTalk V Ast} (hold : OldClient T P db u o c) :
    SameAnswers T C c db db' := by
  have hid : c.getOrgId db = getOrgId (asOrg o) := by rw [Client.getOrgId, hc]
  have hid' : c.getOrgId db' = getOrgId (asOrg o) := by rw [Client.getOrgId, getOrg_eq h, hc]
  have hcode := internalGetDeviceCode_same h hna hdev hsch ho hu T
  refine ⟨fun kind => ?_, fun kinds withMetadata => ?_, hr.getModuleLocation, hr.getDeviceFactories, hr.getAllDeviceNames,
    fun version kinds accept => ?_, fun version accept => ?_⟩
  · rw [getDeviceCode, getDeviceCode, hid, hid', hcode]
  · rw [getSchemas, getSchemas, hid, hid', hcode, hr.getTypesAndNamesByKinds]
  · unfold getExamplesByKinds
    rw [hid, hid', hr.getByKinds]
    by_cases hk : kinds.isEmpty = true
    · rw [if_pos hk, if_pos hk]
    · rw [if_neg hk, if_neg hk, makeDataset_same h hold]
      intro row hrow
      obtain ⟨row1, hrow1, rfl⟩ := List.mem_map.mp hrow
      obtain ⟨i, ex, hfound, rfl⟩ := mem_byKinds hrow1
      exact ⟨i, ex, hfound.1, rfl⟩
  · rw [getAllExamples, getAllExamples, hid, hid', hr.getBaseByLanguage]
    refine makeDataset_same h hold (fun row hrow => ?_) _ _ _
    obtain ⟨i, ex, hs, rfl⟩ := mem_base hrow
    exact ⟨i, ex, hs, rfl⟩

/-- An upload that is not approved, by the organization that has the device and the schema,
    is invisible to another one that is no admin, or to no one, if and only if it is `Unseen`. -/
theorem upload_unseen_iff (T : ThingTalk V Ast) (P : Packages V) (C : Collation) (c : Client) (o : Option Nat) (u : Upload V)
    (db db' : Db V) (h : uploadDevice P db u = some db') (hna : u.approves = false) (hdev : OwnDevice db u)
    (hsch : OwnSchema db u.classDef.kind u.developer_org) (hunique : db.device_class.Unique (·.primary_kind))
    (hc : c.getOrg db = asOrg o) (ho : o ≠ some u.developer_org) :
    (Unseen P C db u o c.language ↔ SameReads C c o db db') ∧
      (Unseen P C db u o c.language → OldClient T P db u o c → SameAnswers T C c db db') := by
  obtain ⟨db1, j, heffect⟩ := uploaded_effect (uploadDevice_cases h) hna
  have hiff := unseen_iff (C := C) heffect hna hdev hsch hunique hc ho
  exact ⟨hiff, fun hu hold => answers heffect hna hdev hsch hc ho hu (hiff.mp hu) hold⟩

/-! ## A new query and its example -/

def queries : Record (FunctionDef String) := ⟨[("current", Approval.getWeather), ("forecast", Approval.getWeather)], by decide⟩

def upload (classDef : ClassDef String) (approve : Bool) (examples : List Example) : Upload String where
  developer_org := 1
  admin := false
  trusted := true
  primary_kind := "com.weather"
  name := "Weather"
  subcategory := .service
  approve
  icon := true
  zipfile := true
  classDef
  dataset := ⟨none, examples⟩

def now : Example := ⟨"now", "query = @com.weather.current();", "get the weather", "get the weather", []⟩

def later : Example := ⟨"later", "query = @com.weather.forecast();", "get the forecast", "get the forecast", []⟩

/-- The class with one query and its example, approved. -/
def approved : Db String := (uploadDevice Approval.packages Db.empty (upload Approval.withQuery true [now])).getD Db.empty

def device : DeviceRow := ⟨"com.weather", 1, "Weather", .data, .service, some 0, 0⟩

def schema : SchemaRow := ⟨"com.weather", "primary", some 1, 0, some 0, "weather"⟩

def anonymous : Client := ⟨.developerKey none, "en", "2.0.0", false⟩

theorem approved_rows : approved.device_class.rows = [(1, device)] := rfl

theorem approved_schema : getByKind approved "com.weather" = some (1, schema) := rfl

theorem approved_get {i : Nat} {d : DeviceRow} (h : approved.device_class.get? i = some d) : i = 1 ∧ d = device := by
  have hmem := Table.mem_rows.mpr h
  rw [approved_rows, List.mem_singleton, Prod.mk.injEq] at hmem
  exact hmem

theorem own_schema : OwnSchema approved "com.weather" 1 := by
  intro j sc hget
  rw [approved_schema] at hget
  cases hget
  rfl

theorem own_device (classDef : ClassDef String) (approve : Bool) (examples : List Example) :
    OwnDevice approved (upload classDef approve examples) := by
  intro i old hget
  obtain ⟨rfl, rfl⟩ := approved_get (getByPrimaryKind_some hget).1
  rfl

/-- A query without an example shows nothing. -/
theorem query_unseen : Unseen Approval.packages Versions.unordered approved (upload (Approval.weather queries) false [now]) none "en" := by
  refine ⟨?_, ?_, ?_, ?_, ?_, ?_⟩
  · intro i old hget
    obtain ⟨rfl, rfl⟩ := approved_get (getByPrimaryKind_some hget).1
    decide
  · intro j sc hget _ happ
    have hsc : some (1, schema) = some (j, sc) := approved_schema.symm.trans hget
    cases hsc
    cases happ
  · intro j sc hget _ _ _
    have hsc : some (1, schema) = some (j, sc) := approved_schema.symm.trans hget
    cases hsc
    rfl
  · intro i old f hget hf
    obtain ⟨rfl, rfl⟩ := approved_get (getByPrimaryKind_some hget).1
    refine ⟨rfl, rfl, fun k d g hk hg hne => ?_⟩
    obtain ⟨rfl, rfl⟩ := approved_get hk
    rw [hf] at hg
    exact absurd (Option.some.inj hg).symm hne
  · intro j sc hget _ _
    have hsc : some (1, schema) = some (j, sc) := approved_schema.symm.trans hget
    cases hsc
    exact ⟨by decide, by decide⟩
  · intro i ex kind _ _ _ i1 old hget _
    obtain ⟨rfl, rfl⟩ := approved_get (getByPrimaryKind_some hget).1
    exact Or.inr (iff_of_false (fun he => Option.some_ne_none false he.symm) List.not_mem_nil)

theorem query_is_not_shown :
    ∃ db', uploadDevice Approval.packages approved (upload (Approval.weather queries) false [now]) = some db' ∧
      SameAnswers Versions.texts Versions.unordered anonymous approved db' := by
  obtain ⟨db', h⟩ : ∃ db', uploadDevice Approval.packages approved (upload (Approval.weather queries) false [now]) = some db' :=
    ⟨_, rfl⟩
  have hunique : approved.device_class.Unique (·.primary_kind) := by
    intro i j d d1 hd hd1 _
    rw [(approved_get hd).1, (approved_get hd1).1]
  have hold : OldClient Versions.texts Approval.packages approved (upload (Approval.weather queries) false [now]) none anonymous := by
    intro hcompat
    cases hcompat
  exact ⟨db', h, (upload_unseen_iff Versions.texts Approval.packages Versions.unordered anonymous none _ approved db' h rfl
    (own_device _ _ _) own_schema hunique rfl (by simp)).2 query_unseen hold⟩

/-- With an example, anyone gets the query that is not approved. -/
theorem new_example_is_served :
    ∃ db', uploadDevice Approval.packages approved (upload (Approval.weather queries) false [now, later]) = some db' ∧
      OwnDevice approved (upload (Approval.weather queries) false [now, later]) ∧ OwnSchema approved "com.weather" 1 ∧
      ¬SameAnswers Versions.texts Versions.unordered anonymous approved db' ∧
      (getTypesAndNamesByKinds db' ["com.weather"] none).map (·.queries.keys) = [["current"]] ∧
      ∃ row ∈ getBaseByLanguage db' none "en", row.target_code = later.code := by
  refine ⟨_, rfl, own_device _ _ _, own_schema, fun h => ?_, rfl, ?_⟩
  · have hsize := congrArg (fun text => text.toOption.map String.utf8ByteSize)
      (h.getAllExamples "2.0.0" "application/x-thingtalk;editMode=1")
    exact absurd hsize (by decide +kernel)
  · exact ⟨_, List.Mem.tail _ (List.Mem.head _), rfl⟩

end GenieCloud.Thingpedia.Visibility
