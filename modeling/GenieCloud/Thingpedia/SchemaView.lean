/-
  GenieCloud.Thingpedia.SchemaView — what an upload that is not approved shows of its
  schema to those that do not own it.

  The schema stays as it is, or gets its next version, or is new (`Ensured`). A new one is
  not shown. The others are shown as before: their kinds (`shownSchema_eq`), the channels
  of their approved version unless that is the very next one (`types_iff`), and the name
  of the kind, which has no versions (`names_iff`).
-/

import GenieCloud.Thingpedia.ImportDevice
import GenieCloud.Thingpedia.Queries

namespace GenieCloud.Thingpedia

open GenieCloud.Lib

variable {V : Type} {P : Packages V} {db db1 : Db V} {classDef : ClassDef V} {developer_org j : Nat} {admin changed : Bool}
  {o : Option Nat}

/-- The kind of a schema, if it is shown. -/
def shownSchema (db : Db V) (orgId : Option Int) (j : Nat) : Option String :=
  (db.device_schema.get? j).bind fun ds => if visible orgId ds.approved_version ds.owner then some ds.kind else none

/-- What is done to the schema by an upload that is not approved. -/
inductive SchemaEffect (P : Packages V) (db : Db V) (classDef : ClassDef V) (developer_org : Nat) : Db V → Nat → Prop
  | same (j : Nat) (sc : SchemaRow) : getByKind db classDef.kind = some (j, sc) → Identical P db j sc classDef →
      SchemaEffect P db classDef developer_org db j
  | version (j : Nat) (sc : SchemaRow) (channels : Record ChannelRow) (canonicals : Record (ChannelCanonicalRow V)) :
      getByKind db classDef.kind = some (j, sc) → ¬Identical P db j sc classDef →
      (db.device_schema_channels j (sc.developer_version + 1)).append (channelRows (classDefToSchema classDef)) = some channels →
      SchemaEffect P db classDef developer_org
        (db.withSchema (db.device_schema.update (fun i _ => i = j) fun _ => sc.next classDef false) j (sc.developer_version + 1)
          channels canonicals) j
  | created (channels : Record ChannelRow) (canonicals : Record (ChannelCanonicalRow V)) :
      getByKind db classDef.kind = none →
      SchemaEffect P db classDef developer_org
        (db.withSchema (db.device_schema.insert (.first classDef developer_org false)) db.device_schema.next 0
          channels canonicals) db.device_schema.next

theorem Ensured.effect (h : Ensured P db classDef developer_org admin false db1 j changed) :
    SchemaEffect P db classDef developer_org db1 j := by
  cases h with
  | alone id existing hget _ hid =>
    rw [if_neg (by simp)]
    exact .same j existing hget hid
  | version id existing channels canonicals hget _ hid happ => exact .version j existing channels canonicals hget hid happ
  | created channels canonicals hget happ => exact .created channels canonicals hget

/-- The schema is one of the organization that uploads. -/
def OwnSchema (db : Db V) (kind : String) (developer_org : Nat) : Prop :=
  ∀ j sc, getByKind db kind = some (j, sc) → sc.owner = some developer_org

theorem first_hidden (ho : o ≠ some developer_org) :
    visible (getOrgId (asOrg o)) (SchemaRow.first classDef developer_org false).approved_version
      (SchemaRow.first classDef developer_org false).owner = false :=
  visible_of_other none ho

/-- The other schemas keep their channels. -/
theorem SchemaEffect.channels_of_ne (h : SchemaEffect P db classDef developer_org db1 j) {i : Nat} (hi : i ≠ j) :
    db1.device_schema_channels i = db.device_schema_channels i ∧
      db1.device_schema_channel_canonicals i = db.device_schema_channel_canonicals i := by
  cases h with
  | same => exact ⟨rfl, rfl⟩
  | version => exact ⟨Function.update_of_ne hi .., Function.update_of_ne hi ..⟩
  | created => exact ⟨Function.update_of_ne hi .., Function.update_of_ne hi ..⟩

/-- What a schema with a new version has at each of them. -/
structure Next (db db1 : Db V) (classDef : ClassDef V) (j : Nat) (sc : SchemaRow) : Prop where
  channels : (db.device_schema_channels j (sc.developer_version + 1)).append (channelRows (classDefToSchema classDef)) =
    some (db1.device_schema_channels j (sc.developer_version + 1))
  others : ∀ v, v ≠ sc.developer_version + 1 → db1.device_schema_channels j v = db.device_schema_channels j v
  canonicals : ∀ v language, language ≠ "en" →
    db1.device_schema_channel_canonicals j v language = db.device_schema_channel_canonicals j v language

theorem SchemaEffect.next (h : SchemaEffect P db classDef developer_org db1 j) {sc : SchemaRow}
    (hget : getByKind db classDef.kind = some (j, sc)) (hid : ¬Identical P db j sc classDef) : Next db db1 classDef j sc := by
  cases h with
  | same _ sc1 hget1 hid1 =>
    rw [hget] at hget1
    cases hget1
    exact absurd hid1 hid
  | version _ sc1 channels canonicals hget1 _ happ =>
    rw [hget] at hget1
    cases hget1
    refine ⟨?_, fun v hv => ?_, fun v language hl => ?_⟩
    · show _ = some (Function.update db.device_schema_channels j _ j _)
      rw [Function.update_self, Function.update_self]
      exact happ
    · show Function.update db.device_schema_channels j _ j v = _
      rw [Function.update_self, Function.update_of_ne hv]
    · show Function.update db.device_schema_channel_canonicals j _ j v language = _
      rw [Function.update_self]
      by_cases hv : v = sc.developer_version + 1
      · rw [hv, Function.update_self, Function.update_of_ne hl]
      · rw [Function.update_of_ne hv]
  | created _ _ hnone =>
    rw [hget] at hnone
    cases hnone

theorem SchemaEffect.id_eq (h : SchemaEffect P db classDef developer_org db1 j) {i : Nat} {sc : SchemaRow}
    (hget : getByKind db classDef.kind = some (i, sc)) : i = j := by
  cases h with
  | same _ _ hget1 => rw [hget] at hget1; cases hget1; rfl
  | version _ _ _ _ hget1 => rw [hget] at hget1; cases hget1; rfl
  | created _ _ hnone => rw [hget] at hnone; cases hnone

/-- What is read off the schemas, row by row, tells an upload by the schema of the class alone. -/
theorem SchemaEffect.read_iff {β : Type} (F : Db V → Nat × SchemaRow → Option β)
    (h : SchemaEffect P db classDef developer_org db1 j)
    (hothers : ∀ x ∈ db.device_schema.rows, x.1 ≠ j → F db1 x = F db x)
    (hfirst : F db1 (j, .first classDef developer_org false) = none) :
    db1.device_schema.rows.filterMap (F db1) = db.device_schema.rows.filterMap (F db) ↔
      ∀ sc, getByKind db classDef.kind = some (j, sc) → ¬Identical P db j sc classDef →
        F db1 (j, sc.next classDef false) = F db (j, sc) := by
  cases h with
  | same _ sc1 hget1 hid1 =>
    refine iff_of_true rfl fun sc hget hid => ?_
    rw [hget] at hget1
    cases hget1
    exact absurd hid1 hid
  | version _ sc1 channels canonicals hget1 hid1 =>
    obtain ⟨A, B, hrows, hA, hB, hrows1⟩ := Table.rows_split (getByKind_some hget1).1
    show (Table.update _ _ _).rows.filterMap _ = _ ↔ _
    rw [hrows1, hrows, Table.filterMap_replace_iff]
    · constructor
      · intro he sc hget _
        rw [hget] at hget1
        cases hget1
        exact he
      · intro he
        exact he sc1 hget1 hid1
    · intro x hx
      exact hothers x (hrows ▸ List.mem_append_left _ hx) (Nat.ne_of_lt (hA x hx))
    · intro x hx
      exact hothers x (hrows ▸ List.mem_append_right _ (List.mem_cons_of_mem _ hx)) (Nat.ne_of_gt (hB x hx))
  | created channels canonicals hnone =>
    refine iff_of_true ?_ fun sc hget _ => ?_
    · show (db.device_schema.rows ++ [(db.device_schema.next, _)]).filterMap _ = _
      rw [List.filterMap_append, List.filterMap_cons_none hfirst, List.filterMap_nil, List.append_nil]
      refine List.filterMap_congr fun x hx => hothers x hx ?_
      exact Nat.ne_of_lt (db.device_schema.below x hx)
    · rw [hget] at hnone
      cases hnone

theorem shownSchema_eq (h : SchemaEffect P db classDef developer_org db1 j) (ho : o ≠ some developer_org) :
    shownSchema db1 (getOrgId (asOrg o)) = shownSchema db (getOrgId (asOrg o)) := by
  funext i
  cases h with
  | same => rfl
  | version _ sc channels canonicals hget =>
    have hj := (getByKind_some hget).1
    show ((db.device_schema.update _ _).get? i).bind _ = (db.device_schema.get? i).bind _
    rw [Table.get?_update]
    by_cases hi : i = j
    · subst hi
      rw [hj, Option.map_some, if_pos (decide_eq_true rfl)]
      rfl
    · cases db.device_schema.get? i with
      | none => rfl
      | some r => rw [Option.map_some, if_neg (by simpa using hi)]
  | created channels canonicals =>
    show ((db.device_schema.insert _).get? i).bind _ = (db.device_schema.get? i).bind _
    rw [Table.get?_insert]
    split
    · rename_i hi
      subst hi
      rw [Table.get?_next, Option.bind_some, first_hidden ho]
      rfl
    · rfl

/-- The schema of the class is shown if it is there and approved. -/
theorem shown_iff (h : SchemaEffect P db classDef developer_org db1 j) (hown : OwnSchema db classDef.kind developer_org)
    (ho : o ≠ some developer_org) : (shownSchema db (getOrgId (asOrg o)) j).isSome = true ↔
      ∃ sc, getByKind db classDef.kind = some (j, sc) ∧ sc.approved_version.isSome = true := by
  have hsome : ∀ sc, getByKind db classDef.kind = some (j, sc) →
      (shownSchema db (getOrgId (asOrg o)) j).isSome = sc.approved_version.isSome := by
    intro sc hget
    rw [shownSchema, (getByKind_some hget).1, Option.bind_some, hown j sc hget, visible_of_other _ ho]
    cases sc.approved_version <;> rfl
  cases hget : getByKind db classDef.kind with
  | none =>
    refine iff_of_false ?_ ?_
    · cases h with
      | same _ _ hget1 => rw [hget] at hget1; cases hget1
      | version _ _ _ _ hget1 => rw [hget] at hget1; cases hget1
      | created => rw [shownSchema, Table.get?_next]; exact Bool.false_ne_true
    · rintro ⟨sc, hsc, -⟩
      cases hsc
  | some x =>
    obtain ⟨i, sc⟩ := x
    obtain rfl := h.id_eq hget
    rw [hsome sc hget]
    constructor
    · intro happ
      exact ⟨sc, rfl, happ⟩
    · rintro ⟨sc1, hsc, happ⟩
      cases hsc
      exact happ

/-! ## Types -/

/-- One row of `getTypesAndNamesByKinds`. -/
def typesOf (kinds : List String) (org : Option Int) (db : Db V) (x : Nat × SchemaRow) : Option SchemaTypes :=
  if kinds.contains x.2.kind && visible org x.2.approved_version x.2.owner then
    some (processTypeRows x.2.kind x.2.kind_type ((x.2.version org).elim Record.empty (db.device_schema_channels x.1)))
  else none

theorem types_eq_filterMap (db : Db V) (kinds : List String) (org : Option Int) :
    getTypesAndNamesByKinds db kinds org = db.device_schema.rows.filterMap (typesOf kinds org db) := by
  rw [getTypesAndNamesByKinds, Table.select_map]
  rfl

theorem typesOf_of_ne (h : SchemaEffect P db classDef developer_org db1 j) (kinds : List String) (org : Option Int)
    (x : Nat × SchemaRow) (hx : x.1 ≠ j) : typesOf kinds org db1 x = typesOf kinds org db x := by
  rw [typesOf, typesOf, (h.channels_of_ne hx).1]

/-- A schema of another organization shows its approved version. -/
theorem typesOf_of_other {kinds : List String} {x : Nat × SchemaRow} (hown : x.2.owner = some developer_org)
    (ho : o ≠ some developer_org) (db : Db V) : typesOf kinds (getOrgId (asOrg o)) db x =
      x.2.approved_version.bind fun v => if kinds.contains x.2.kind then
        some (processTypeRows x.2.kind x.2.kind_type (db.device_schema_channels x.1 v)) else none := by
  rw [typesOf, SchemaRow.version_of_other hown ho, hown, visible_of_other _ ho]
  cases x.2.approved_version <;> simp

theorem filterMap_length_types (r : Record ChannelRow) :
    (r.filterMap fun _ row => if row.channel_type = .trigger then some (processTypeRow row) else none).entries.length +
      (r.filterMap fun _ row => if row.channel_type = .query then some (processTypeRow row) else none).entries.length +
      (r.filterMap fun _ row => if row.channel_type = .action then some (processTypeRow row) else none).entries.length =
      r.entries.length := by
  have hlen : ∀ what, (r.filterMap fun _ row => if row.channel_type = what then some (processTypeRow row) else none).entries.length =
      r.entries.countP fun x => x.2.channel_type = what := by
    intro what
    show (List.filterMap _ r.entries).length = _
    rw [List.length_filterMap_eq_countP]
    refine List.countP_congr fun x _ => ?_
    by_cases ht : x.2.channel_type = what <;> simp [ht]
  rw [hlen, hlen, hlen]
  generalize r.entries = l
  induction l with
  | nil => rfl
  | cons x l ih =>
    simp only [List.countP_cons, List.length_cons, decide_eq_true_eq]
    cases ht : x.2.channel_type <;> simp <;> omega

/-- More channels are more functions. -/
theorem processTypeRows_append {kind kind_type : String} {r t : Record ChannelRow} {l : List (String × ChannelRow)}
    (h : r.append l = some t) : processTypeRows kind kind_type t = processTypeRows kind kind_type r ↔ l = [] := by
  constructor
  · intro he
    have ht := filterMap_length_types t
    have hr := filterMap_length_types r
    simp only [processTypeRows, SchemaTypes.mk.injEq, true_and] at he
    rw [he.1, he.2.1, he.2.2, hr, Record.append_entries h, List.length_append] at ht
    exact List.length_eq_zero_iff.mp (by omega)
  · rintro rfl
    rw [Record.append_nil h]

/-- No version that is approved ahead of time gets channels. -/
def TypesKept (P : Packages V) (db : Db V) (classDef : ClassDef V) : Prop :=
  ∀ j sc, getByKind db classDef.kind = some (j, sc) → ¬Identical P db j sc classDef →
    sc.approved_version = some (sc.developer_version + 1) → channelRows (classDefToSchema classDef) = []

section Other

variable (h : SchemaEffect P db classDef developer_org db1 j) (hown : OwnSchema db classDef.kind developer_org)
  (ho : o ≠ some developer_org)
include h hown ho

theorem typesOf_next_iff {sc : SchemaRow} (hget : getByKind db classDef.kind = some (j, sc)) (hid : ¬Identical P db j sc classDef)
    (kinds : List String) : typesOf kinds (getOrgId (asOrg o)) db1 (j, sc.next classDef false) =
      typesOf kinds (getOrgId (asOrg o)) db (j, sc) ↔ (kinds.contains sc.kind = true →
        sc.approved_version = some (sc.developer_version + 1) → channelRows (classDefToSchema classDef) = []) := by
  have hnext := h.next hget hid
  rw [typesOf_of_other (x := (j, sc.next classDef false)) (hown j sc hget) ho, typesOf_of_other (hown j sc hget) ho]
  show Option.bind sc.approved_version _ = Option.bind sc.approved_version _ ↔ _
  cases ha : sc.approved_version with
  | none => simp
  | some v =>
    rw [Option.bind_some, Option.bind_some]
    show (if kinds.contains sc.kind = true then _ else _) = (if kinds.contains sc.kind = true then _ else _) ↔ _
    by_cases hk : kinds.contains sc.kind = true
    · rw [if_pos hk, if_pos hk]
      by_cases hv : v = sc.developer_version + 1
      · subst hv
        rw [Option.some.injEq]
        exact (processTypeRows_append hnext.channels).trans ⟨fun he _ _ => he, fun he => he hk rfl⟩
      · exact iff_of_true (by rw [hnext.others v hv]; rfl) fun _ he => absurd (Option.some.inj he) hv
    · rw [if_neg hk, if_neg hk]
      exact iff_of_true rfl fun hk' => absurd hk' hk

theorem types_iff : (∀ kinds, getTypesAndNamesByKinds db1 kinds (getOrgId (asOrg o)) =
    getTypesAndNamesByKinds db kinds (getOrgId (asOrg o))) ↔ TypesKept P db classDef := by
  have hread := fun kinds => h.read_iff (typesOf kinds (getOrgId (asOrg o))) (fun x _ => typesOf_of_ne h kinds _ x)
    (typesOf_of_other (x := (j, .first classDef developer_org false)) rfl ho db1)
  simp only [types_eq_filterMap]
  constructor
  · intro hall i sc hget hid
    obtain rfl := h.id_eq hget
    have heq := (hread [sc.kind]).mp (hall [sc.kind]) sc hget hid
    exact (typesOf_next_iff h hown ho hget hid [sc.kind]).mp heq (by simp)
  · intro hkept kinds
    refine (hread kinds).mpr fun sc hget hid => ?_
    exact (typesOf_next_iff h hown ho hget hid kinds).mpr fun _ => hkept j sc hget hid

end Other

/-- The kinds that are not the class's own have the types they had, for anyone. -/
theorem types_of_other_kind (h : SchemaEffect P db classDef developer_org db1 j) {kinds : List String} (hk : classDef.kind ∉ kinds)
    (org : Option Int) : getTypesAndNamesByKinds db1 kinds org = getTypesAndNamesByKinds db kinds org := by
  have hnone : ∀ (db : Db V) (x : Nat × SchemaRow), x.2.kind = classDef.kind → typesOf kinds org db x = none := by
    intro db x hx
    rw [typesOf, hx, if_neg (by simp [hk])]
  rw [types_eq_filterMap, types_eq_filterMap]
  refine (h.read_iff (typesOf kinds org) (fun x _ => typesOf_of_ne h kinds org x) (hnone _ _ rfl)).mpr fun sc hget _ => ?_
  have hkind := (getByKind_some hget).2
  rw [hnone _ (j, sc.next classDef false) hkind, hnone _ (j, sc) hkind]

/-! ## Names -/

/-- One row of `getAllApproved`. -/
def nameOf (org : Option Int) (x : Nat × SchemaRow) : Option (String × String) :=
  if visible org x.2.approved_version x.2.owner && ["primary", "other"].contains x.2.kind_type then
    some (x.2.kind, x.2.kind_canonical)
  else none

theorem names_eq_filterMap (db : Db V) (org : Option Int) : getAllApproved db org = db.device_schema.rows.filterMap (nameOf org) :=
  Table.select_map _ _ _

/-- The name of a kind that is approved stays. -/
def NameKept (P : Packages V) (db : Db V) (classDef : ClassDef V) : Prop :=
  ∀ j sc, getByKind db classDef.kind = some (j, sc) → ¬Identical P db j sc classDef → sc.approved_version.isSome = true →
    ["primary", "other"].contains sc.kind_type = true → classDef.canonical = sc.kind_canonical

theorem names_iff (h : SchemaEffect P db classDef developer_org db1 j) (hown : OwnSchema db classDef.kind developer_org)
    (ho : o ≠ some developer_org) :
    getAllApproved db1 (getOrgId (asOrg o)) = getAllApproved db (getOrgId (asOrg o)) ↔ NameKept P db classDef := by
  have hrow : ∀ sc, getByKind db classDef.kind = some (j, sc) →
      (nameOf (getOrgId (asOrg o)) (j, sc.next classDef false) = nameOf (getOrgId (asOrg o)) (j, sc) ↔
        (sc.approved_version.isSome = true → ["primary", "other"].contains sc.kind_type = true →
          classDef.canonical = sc.kind_canonical)) := by
    intro sc hget
    rw [nameOf, nameOf]
    show (if visible _ sc.approved_version sc.owner && ["primary", "other"].contains sc.kind_type then
        some (sc.kind, classDef.canonical) else none) =
      (if visible _ sc.approved_version sc.owner && ["primary", "other"].contains sc.kind_type then
        some (sc.kind, sc.kind_canonical) else none) ↔ _
    rw [hown j sc hget, visible_of_other _ ho]
    by_cases hs : (sc.approved_version.isSome && ["primary", "other"].contains sc.kind_type) = true
    · rw [if_pos hs, if_pos hs]
      rw [Bool.and_eq_true] at hs
      simp only [Option.some.injEq, Prod.mk.injEq, true_and]
      exact ⟨fun he _ _ => he, fun he => he hs.1 hs.2⟩
    · rw [if_neg hs, if_neg hs]
      exact iff_of_true rfl fun h1 h2 => absurd (Bool.and_eq_true_iff.mpr ⟨h1, h2⟩) hs
  have hfirst : nameOf (getOrgId (asOrg o)) (j, SchemaRow.first classDef developer_org false) = none := by
    rw [nameOf, first_hidden ho]
    rfl
  rw [names_eq_filterMap, names_eq_filterMap, h.read_iff (fun _ => nameOf (getOrgId (asOrg o))) (fun _ _ _ => rfl) hfirst]
  constructor
  · intro hall i sc hget hid
    obtain rfl := h.id_eq hget
    exact (hrow sc hget).mp (hall sc hget hid)
  · intro hkept sc hget hid
    exact (hrow sc hget).mpr (hkept j sc hget hid)

/-! ## Metadata -/

/-- What is translated: the functions of a kind, less its own name. -/
def functionsOf (m : SchemaMetadata V) : String × Record (SchemaChannelMetadata V) × Record (SchemaChannelMetadata V) :=
  (m.kind, m.queries, m.actions)

/-- One row of `getMetasByKinds`, as far as it is translated. -/
def metasOf (kinds : List String) (org : Option Int) (language : String) (db : Db V) (x : Nat × SchemaRow) :
    Option (String × Record (SchemaChannelMetadata V) × Record (SchemaChannelMetadata V)) :=
  if kinds.contains x.2.kind && visible org x.2.approved_version x.2.owner then
    some (functionsOf (match x.2.version org with
      | some version => getMetasByKindAtVersion db x version language
      | none => processMetaRows x.2.kind x.2.kind_type x.2.kind_canonical Record.empty Record.empty))
  else none

theorem metas_eq_filterMap (db : Db V) (kinds : List String) (org : Option Int) (language : String) :
    (getMetasByKinds db kinds org language).map functionsOf = db.device_schema.rows.filterMap (metasOf kinds org language db) := by
  rw [getMetasByKinds, List.map_map, Table.select_map]
  rfl

/-- The functions are translated as they were: the canonicals of an upload are in English. -/
theorem metas_eq (h : SchemaEffect P db classDef developer_org db1 j) (hown : OwnSchema db classDef.kind developer_org)
    (ho : o ≠ some developer_org) (hkept : TypesKept P db classDef) (kinds : List String) {language : String} (hl : language ≠ "en") :
    (getMetasByKinds db1 kinds (getOrgId (asOrg o)) language).map functionsOf =
      (getMetasByKinds db kinds (getOrgId (asOrg o)) language).map functionsOf := by
  rw [metas_eq_filterMap, metas_eq_filterMap]
  refine (h.read_iff (metasOf kinds (getOrgId (asOrg o)) language) (fun x _ hx => ?_) ?_).mpr fun sc hget hid => ?_
  · obtain ⟨hc, hcc⟩ := h.channels_of_ne hx
    simp only [metasOf, getMetasByKindAtVersion, hc, hcc]
  · rw [metasOf, first_hidden ho, Bool.and_false]
    rfl
  · have hnext := h.next hget hid
    have hsc := hown j sc hget
    simp only [metasOf]
    have hversion : (sc.next classDef false).version (getOrgId (asOrg o)) = sc.approved_version := SchemaRow.version_of_other hsc ho
    rw [SchemaRow.version_of_other hsc ho, hversion]
    show (if kinds.contains sc.kind && visible _ sc.approved_version sc.owner then some (functionsOf (match sc.approved_version with
      | some version => getMetasByKindAtVersion db1 (j, sc.next classDef false) version language
      | none => _)) else none) = _
    cases ha : sc.approved_version with
    | none => rfl
    | some v =>
      have hch : db1.device_schema_channels j v = db.device_schema_channels j v := by
        by_cases hv : v = sc.developer_version + 1
        · subst hv
          have happ := hnext.channels
          rw [hkept j sc hget hid ha] at happ
          exact Record.append_nil happ
        · exact hnext.others v hv
      simp only [getMetasByKindAtVersion, hch, hnext.canonicals v language hl]
      rfl

end GenieCloud.Thingpedia
