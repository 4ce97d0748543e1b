/-
  GenieCloud.Thingpedia.Approval — a device and its schema, over any sequence of uploads,
  approvals and unapprovals.

  The device and its schema count their versions apart: an upload makes a new version of
  the schema only when the metadata of the class changed. A class that was uploaded is
  remembered under its kind and the version of the device it became.

  `agrees_iff_shown`: the device is approved exactly when its schema is, the channels at
  the schema's approved version are those of the class uploaded as the device's approved
  version, and those at the schema's developer version those of the device's, as long as
  no approved upload finds the metadata unchanged (`ensurePrimarySchema` then leaves the
  schema alone) while the schema is approved at a version with other channels.
  `approved_upload_not_shown` is such a run: a class is approved, a second one is
  uploaded, and then uploaded again to be approved.
-/

import GenieCloud.Lib.Runs
import GenieCloud.Thingpedia.ImportDevice

namespace GenieCloud.Thingpedia.Approval

open GenieCloud.Lib GenieCloud.Lib.Runs

variable {V : Type} (P : Packages V)

structure St (V : Type) where
  db : Db V
  /-- The class that became a version of the device of a kind. -/
  uploaded : String → Nat → Option (ClassDef V)

inductive Ev (V : Type)
  | upload (u : Upload V)
  | approve (kind : String)
  | unapprove (kind : String)

def step (s : St V) : Ev V → Option (St V)
  | .upload u => do
    let db ← uploadDevice P s.db u
    let (_, row) ← getByPrimaryKind db u.primary_kind
    some ⟨db, Function.update s.uploaded u.primary_kind
      (Function.update (s.uploaded u.primary_kind) row.developer_version (some u.classDef))⟩
  | .approve kind => some { s with db := Thingpedia.approve s.db kind }
  | .unapprove kind => some { s with db := Thingpedia.unapprove s.db kind }

def init : St V := ⟨Db.empty, fun _ _ => none⟩

def thingpedia : System (St V) (Ev V) where
  init s := s = init
  step := step P

/-! ## Agreement -/

/-- The channels stored are those of a class. -/
def Shows (channels : Record ChannelRow) (classDef : ClassDef V) : Prop :=
  ∀ name row, channels.get? name = some row ↔ (name, row) ∈ channelRows (classDefToSchema classDef)

def SameChannels (db : Db V) (j v w : Nat) : Prop :=
  ∀ name, (db.device_schema_channels j v).get? name = (db.device_schema_channels j w).get? name

structure Matches (s : St V) (d : DeviceRow) (j : Nat) (sc : SchemaRow) : Prop where
  null : d.approved_version = none ↔ sc.approved_version = none
  approved : ∀ v w, d.approved_version = some v → sc.approved_version = some w →
    ∃ classDef, s.uploaded d.primary_kind v = some classDef ∧ Shows (s.db.device_schema_channels j w) classDef
  developer : ∃ classDef, s.uploaded d.primary_kind d.developer_version = some classDef ∧
    Shows (s.db.device_schema_channels j sc.developer_version) classDef

def Agrees (s : St V) : Prop :=
  ∀ i d, s.db.device_class.get? i = some d →
    ∃ j sc, getByKind s.db d.primary_kind = some (j, sc) ∧ Matches s d j sc

/-- A class whose metadata is unchanged finds the schema unapproved, or approved at a
    version with the same channels. -/
def SchemaShown (db : Db V) (classDef : ClassDef V) : Prop :=
  ∀ j sc w, getByKind db classDef.kind = some (j, sc) → Identical P db j sc classDef → sc.approved_version = some w →
    SameChannels db j w sc.developer_version

def Shown (s : St V) : Ev V → Prop
  | .upload u => u.approves = true → SchemaShown P s.db u.classDef
  | _ => True

/-- What holds of the tables of the schemas on their own. -/
structure SchemaInv (db : Db V) : Prop where
  le : ∀ j sc w, db.device_schema.get? j = some sc → sc.approved_version = some w → w ≤ sc.developer_version
  kinds : db.device_schema.Unique (·.kind)
  fresh : ∀ j v, (∀ sc, db.device_schema.get? j = some sc → sc.developer_version < v) →
    db.device_schema_channels j v = Record.empty

structure Inv (s : St V) : Prop where
  agrees : Agrees s
  le : ∀ i d v, s.db.device_class.get? i = some d → d.approved_version = some v → v ≤ d.developer_version
  kinds : s.db.device_class.Unique (·.primary_kind)
  device : ∀ j sc, s.db.device_schema.get? j = some sc →
    ∃ i d, s.db.device_class.get? i = some d ∧ d.primary_kind = sc.kind
  schema : SchemaInv s.db

variable {P} {s t : St V}

theorem getByKind_eq {db : Db V} (h : db.device_schema.Unique (·.kind)) {j : Nat} {sc : SchemaRow}
    (hj : db.device_schema.get? j = some sc) : getByKind db sc.kind = some (j, sc) :=
  h.first? hj fun _ _ => decide_eq_true_iff

theorem getByPrimaryKind_eq {db : Db V} (h : db.device_class.Unique (·.primary_kind)) {i : Nat} {d : DeviceRow}
    (hi : db.device_class.get? i = some d) : getByPrimaryKind db d.primary_kind = some (i, d) :=
  h.first? hi fun _ _ => decide_eq_true_iff

/-- What a row matches depends on the classes of its kind and the channels of its schema. -/
theorem Matches.mono {d : DeviceRow} {j : Nat} {sc : SchemaRow} (h : Matches s d j sc)
    (hu : t.uploaded d.primary_kind = s.uploaded d.primary_kind)
    (hc : t.db.device_schema_channels j = s.db.device_schema_channels j) : Matches t d j sc := by
  refine ⟨h.null, fun v w hv hw => ?_, ?_⟩
  · obtain ⟨c, hc', hs⟩ := h.approved v w hv hw
    exact ⟨c, hu ▸ hc', fun name row => hc ▸ hs name row⟩
  · obtain ⟨c, hc', hs⟩ := h.developer
    exact ⟨c, hu ▸ hc', fun name row => hc ▸ hs name row⟩

/-! ## Approving and unapproving -/

/-- What the routes do to the row of the device, and to that of the schema. -/
def DeviceRow.setApproved (approved : Bool) (d : DeviceRow) : DeviceRow :=
  { d with approved_version := if approved then some d.developer_version else none }

def SchemaRow.setApproved (approved : Bool) (sc : SchemaRow) : SchemaRow :=
  { sc with approved_version := if approved then some sc.developer_version else none }

def setApproved (db : Db V) (kind : String) (approved : Bool) : Db V :=
  { db with
    device_class := db.device_class.update (fun _ d => d.primary_kind = kind) (DeviceRow.setApproved approved)
    device_schema := db.device_schema.update (fun _ sc => sc.kind = kind) (SchemaRow.setApproved approved) }

theorem device_setApproved (db : Db V) (kind : String) (approved : Bool) (i : Nat) :
    (setApproved db kind approved).device_class.get? i =
      (db.device_class.get? i).map fun d => if decide (d.primary_kind = kind) then DeviceRow.setApproved approved d else d :=
  Table.get?_update ..

theorem schema_setApproved (db : Db V) (kind : String) (approved : Bool) (j : Nat) :
    (setApproved db kind approved).device_schema.get? j =
      (db.device_schema.get? j).map fun sc => if decide (sc.kind = kind) then SchemaRow.setApproved approved sc else sc :=
  Table.get?_update ..

theorem getByKind_setApproved (db : Db V) (kind : String) (approved : Bool) (k : String) :
    getByKind (setApproved db kind approved) k =
      (getByKind db k).map fun x => if decide (x.2.kind = kind) then (x.1, SchemaRow.setApproved approved x.2) else x :=
  getByKind_update (p := fun _ sc => sc.kind = kind) (f := SchemaRow.setApproved approved) rfl (fun _ _ _ => rfl) k

theorem Matches.setApproved {d : DeviceRow} {j : Nat} {sc : SchemaRow} (h : Matches s d j sc) (approved : Bool) :
    Matches s (DeviceRow.setApproved approved d) j (SchemaRow.setApproved approved sc) := by
  obtain ⟨c, hc, hs⟩ := h.developer
  refine ⟨?_, fun v w hv hw => ?_, c, hc, hs⟩
  · cases approved <;> simp [DeviceRow.setApproved, SchemaRow.setApproved]
  · cases approved with
    | false => cases hv
    | true => cases hv; cases hw; exact ⟨c, hc, hs⟩

theorem setApproved_schema {db : Db V} (hi : SchemaInv db) (kind : String) (approved : Bool) :
    SchemaInv (setApproved db kind approved) where
  le j sc' w hsc' hw := by
    obtain ⟨sc, hsc, rfl⟩ := Option.map_eq_some_iff.mp ((schema_setApproved ..).symm.trans hsc')
    split at hw
    · rename_i hk
      rw [if_pos hk]
      cases approved with
      | false => cases hw
      | true => cases hw; exact Nat.le_refl _
    · rename_i hk
      rw [if_neg hk]
      exact hi.le j sc w hsc hw
  kinds := hi.kinds.update fun _ _ _ _ => rfl
  fresh j v h := by
    refine hi.fresh j v fun sc hsc => ?_
    have := h (if decide (sc.kind = kind) = true then SchemaRow.setApproved approved sc else sc)
      ((schema_setApproved ..).trans (by rw [hsc]; rfl))
    split at this <;> exact this

/-- A route that approves, or unapproves, a kind. -/
theorem set_inv (hi : Inv s) (kind : String) (approved : Bool) :
    Inv { s with db := setApproved s.db kind approved } where
  agrees i d' hd' := by
    obtain ⟨d, hd, rfl⟩ := Option.map_eq_some_iff.mp ((device_setApproved ..).symm.trans hd')
    obtain ⟨j, sc, hsc, hm⟩ := hi.agrees i d hd
    have hk := (getByKind_some hsc).2
    refine ⟨j, if decide (sc.kind = kind) = true then SchemaRow.setApproved approved sc else sc, ?_, ?_⟩
    · have : (if decide (d.primary_kind = kind) = true then DeviceRow.setApproved approved d else d).primary_kind =
          d.primary_kind := by split <;> rfl
      rw [this]
      rw [getByKind_setApproved, hsc]
      show some (if decide (sc.kind = kind) = true then (j, SchemaRow.setApproved approved sc) else (j, sc)) = _
      split <;> rfl
    · rw [hk]
      split
      · exact (hm.setApproved approved).mono rfl rfl
      · exact hm.mono rfl rfl
  le i d' v hd' hv := by
    obtain ⟨d, hd, rfl⟩ := Option.map_eq_some_iff.mp ((device_setApproved ..).symm.trans hd')
    split at hv
    · rename_i hk
      rw [if_pos hk]
      cases approved with
      | false => cases hv
      | true => cases hv; exact Nat.le_refl _
    · rename_i hk
      rw [if_neg hk]
      exact hi.le i d v hd hv
  device j sc' hsc' := by
    obtain ⟨sc, hsc, rfl⟩ := Option.map_eq_some_iff.mp ((schema_setApproved ..).symm.trans hsc')
    obtain ⟨i, d, hd, hk⟩ := hi.device j sc hsc
    refine ⟨i, if decide (d.primary_kind = kind) = true then DeviceRow.setApproved approved d else d, ?_, ?_⟩
    · exact (device_setApproved ..).trans (by rw [hd]; rfl)
    · split <;> split <;> exact hk
  kinds := hi.kinds.update fun _ _ _ _ => rfl
  schema := setApproved_schema hi.schema kind approved

/-! ## The schema of an upload -/

section Schema

variable {db db1 db2 : Db V} {classDef : ClassDef V} {approve : Bool} {j : Nat} {sc' : SchemaRow}

theorem Shows.same {v w : Nat} (hv : Shows (db.device_schema_channels j v) classDef) :
    Shows (db.device_schema_channels j w) classDef ↔ SameChannels db j w v := by
  constructor
  · intro hw name
    exact Option.ext fun row => (hw name row).trans (hv name row).symm
  · intro hs name row
    rw [hs name]
    exact hv name row

/-- Channels that are those of one class, and read as another's. -/
theorem Shows.of_identical {sc : SchemaRow} {c : ClassDef V} (h : Shows (db.device_schema_channels j sc.developer_version) c)
    (hid : Identical P db j sc classDef) : Shows (db.device_schema_channels j sc.developer_version) classDef :=
  fun _ _ => row_iff_identical (fun name row hr => class_rows_wf ((h name row).mp hr)) hid

variable (P) in
/-- What `ensurePrimarySchema` leaves behind. -/
structure SchemaDone (db db1 : Db V) (classDef : ClassDef V) (approve : Bool) (j : Nat) (sc' : SchemaRow) : Prop where
  row : getByKind db1 classDef.kind = some (j, sc')
  shows : Shows (db1.device_schema_channels j sc'.developer_version) classDef
  unapproved : approve = false → sc'.approved_version = (getByKind db classDef.kind).bind (·.2.approved_version)
  approved : approve = true → ∃ w, sc'.approved_version = some w ∧
    (Shows (db1.device_schema_channels j w) classDef ↔ SchemaShown P db classDef)
  kept : ∀ j' sc w, getByKind db classDef.kind = some (j', sc) → sc.approved_version = some w →
    j' = j ∧ db1.device_schema_channels j w = db.device_schema_channels j w
  others : ∀ k j' sc, k ≠ classDef.kind → getByKind db k = some (j', sc) →
    getByKind db1 k = some (j', sc) ∧ db1.device_schema_channels j' = db.device_schema_channels j'
  rows : ∀ j' sc, db1.device_schema.get? j' = some sc → sc.kind = classDef.kind ∨ db.device_schema.get? j' = some sc
  inv : SchemaInv db1

theorem SchemaDone.frame (h : SchemaDone P db db1 classDef approve j sc') (hs : db2.device_schema = db1.device_schema)
    (hc : db2.device_schema_channels = db1.device_schema_channels) : SchemaDone P db db2 classDef approve j sc' := by
  have hk : ∀ k, getByKind db2 k = getByKind db1 k := by
    intro k
    rw [getByKind, hs]
    rfl
  refine ⟨hk _ ▸ h.row, hc ▸ h.shows, h.unapproved, hc ▸ h.approved, hc ▸ h.kept, ?_, hs ▸ h.rows, ?_⟩
  · intro k j' sc hne hg
    rw [hk, hc]
    exact h.others k j' sc hne hg
  · exact ⟨hs ▸ h.inv.le, hs ▸ h.inv.kinds, hs ▸ hc ▸ h.inv.fresh⟩

theorem channels_withSchema (db : Db V) (schemas : Table SchemaRow) (id version : Nat) (channels : Record ChannelRow)
    (canonicals : Record (ChannelCanonicalRow V)) (j v : Nat) :
    (db.withSchema schemas id version channels canonicals).device_schema_channels j v =
      if j = id ∧ v = version then channels else db.device_schema_channels j v := by
  show Function.update db.device_schema_channels id _ j v = _
  by_cases hj : j = id
  · subst hj
    by_cases hv : v = version
    · rw [hv, Function.update_self, Function.update_self, if_pos ⟨rfl, rfl⟩]
    · rw [Function.update_self, Function.update_of_ne hv, if_neg (fun h => hv h.2)]
  · rw [Function.update_of_ne hj, if_neg (fun h => hj h.1)]

theorem insert_schema (hi : SchemaInv db) {sc : SchemaRow} (hnone : getByKind db sc.kind = none)
    (hle : ∀ w, sc.approved_version = some w → w ≤ sc.developer_version) (channels : Record ChannelRow)
    (canonicals : Record (ChannelCanonicalRow V)) :
    SchemaInv (db.withSchema (db.device_schema.insert sc) db.device_schema.next sc.developer_version channels canonicals) where
  le j' r w hj hw := by
    have hj' := (Table.get?_insert ..).symm.trans hj
    split at hj'
    · cases hj'; exact hle w hw
    · exact hi.le j' r w hj' hw
  kinds := hi.kinds.insert fun i r hr => getByKind_none.mp hnone i r hr
  fresh j' v hj := by
    rw [channels_withSchema, if_neg ?_]
    · refine hi.fresh j' v fun r hr => hj r ?_
      exact (Table.get?_insert ..).trans (by rw [if_neg (Nat.ne_of_lt (Table.lt_next hr)), hr])
    · rintro ⟨rfl, rfl⟩
      exact absurd (hj sc ((Table.get?_insert ..).trans (if_pos rfl))) (Nat.lt_irrefl _)

theorem created_done (hi : SchemaInv db) (hnone : getByKind db classDef.kind = none) (developer_org : Nat)
    {channels : Record ChannelRow} (canonicals : Record (ChannelCanonicalRow V))
    (hc : (db.device_schema_channels db.device_schema.next 0).append (channelRows (classDefToSchema classDef)) = some channels) :
    SchemaDone P db (db.withSchema (db.device_schema.insert (.first classDef developer_org approve)) db.device_schema.next 0
      channels canonicals) classDef approve db.device_schema.next (.first classDef developer_org approve) := by
  set schema := SchemaRow.first classDef developer_org approve with hschema
  have hkind : schema.kind = classDef.kind := rfl
  set db1 := db.withSchema (db.device_schema.insert schema) db.device_schema.next 0 channels canonicals with hdb1
  have hget : ∀ k, getByKind db1 k = (getByKind db k).or (if schema.kind = k then some (db.device_schema.next, schema) else none) :=
    getByKind_insert rfl
  have hshows : Shows (db1.device_schema_channels db.device_schema.next 0) classDef := by
    rw [hdb1, channels_withSchema, if_pos ⟨rfl, rfl⟩]
    rw [hi.fresh _ _ fun sc hsc => absurd (Table.get?_next _ ▸ hsc) (by simp)] at hc
    intro name row
    exact Record.empty_append hc
  have hle : ∀ w, schema.approved_version = some w → w ≤ schema.developer_version := by
    intro w hw
    cases approve with
    | false => cases hw
    | true => cases hw; exact Nat.le_refl _
  refine ⟨?_, hshows, ?_, ?_, ?_, ?_, ?_, insert_schema hi hnone hle channels canonicals⟩
  · rw [hget, hnone, if_pos hkind]; rfl
  · intro ha; rw [hnone, hschema, SchemaRow.first, ha]; rfl
  · intro ha
    refine ⟨0, by rw [hschema, SchemaRow.first, ha]; rfl, fun _ j sc w hg => ?_, fun _ => hshows⟩
    rw [hnone] at hg; cases hg
  · intro j' sc w hg; rw [hnone] at hg; cases hg
  · intro k j' sc hne hg
    refine ⟨by rw [hget, hg]; rfl, funext fun v => ?_⟩
    have := Table.lt_next (getByKind_some hg).1
    rw [hdb1, channels_withSchema, if_neg (by omega)]
  · intro j' sc hj
    have hj' := (Table.get?_insert ..).symm.trans hj
    split at hj'
    · cases hj'; exact Or.inl hkind
    · exact Or.inr hj'

/-- A schema's row gets its next version. -/
theorem update_schema (hi : SchemaInv db) {sc : SchemaRow} (sc' : SchemaRow) (hj : db.device_schema.get? j = some sc)
    (hkind : sc'.kind = sc.kind) (hdev : sc'.developer_version = sc.developer_version + 1)
    (hle : ∀ w, sc'.approved_version = some w → w ≤ sc'.developer_version) (channels : Record ChannelRow)
    (canonicals : Record (ChannelCanonicalRow V)) :
    SchemaInv (db.withSchema (db.device_schema.update (fun i _ => i = j) fun _ => sc') j sc'.developer_version
      channels canonicals) where
  le j' r w hr hw := by
    obtain ⟨r', hr', rfl⟩ := Option.map_eq_some_iff.mp ((Table.get?_update ..).symm.trans hr)
    split at hw
    · rename_i h
      rw [if_pos h]
      exact hle w hw
    · rename_i h
      rw [if_neg h]
      exact hi.le j' r' w hr' hw
  kinds := by
    refine hi.kinds.update fun i r hr h => ?_
    obtain rfl := of_decide_eq_true h
    rw [hj] at hr
    cases hr
    exact hkind
  fresh j' v h := by
    by_cases hjj : j' = j
    · subst hjj
      have hlt := h sc' ((Table.get?_update ..).trans (by rw [hj, Option.map_some, if_pos (decide_eq_true rfl)]))
      rw [channels_withSchema, if_neg (by omega)]
      refine hi.fresh j' v fun r hr => ?_
      rw [hj] at hr
      cases hr
      omega
    · rw [channels_withSchema, if_neg (fun h => hjj h.1)]
      refine hi.fresh j' v fun r hr => h r ?_
      exact (Table.get?_update ..).trans (by rw [hr, Option.map_some, if_neg (by simpa using hjj)])

theorem version_done (hi : SchemaInv db) {existing : SchemaRow} (hget : getByKind db classDef.kind = some (j, existing))
    (hid : ¬Identical P db j existing classDef) {channels : Record ChannelRow} (canonicals : Record (ChannelCanonicalRow V))
    (hc : (db.device_schema_channels j (existing.developer_version + 1)).append (channelRows (classDefToSchema classDef)) =
      some channels) :
    SchemaDone P db (db.withSchema (db.device_schema.update (fun i _ => i = j) fun _ => existing.next classDef approve) j
      (existing.developer_version + 1) channels canonicals) classDef approve j (existing.next classDef approve) := by
  obtain ⟨hj, hkind⟩ := getByKind_some hget
  set schema := existing.next classDef approve with hschema
  set db1 := db.withSchema (db.device_schema.update (fun i _ => i = j) fun _ => schema) j (existing.developer_version + 1)
    channels canonicals with hdb1
  have hrows : ∀ j', db1.device_schema.get? j' = (db.device_schema.get? j').map fun r => if decide (j' = j) then schema else r :=
    fun j' => Table.get?_update ..
  have hle : ∀ w, schema.approved_version = some w → w ≤ schema.developer_version := by
    intro w hw
    show w ≤ existing.developer_version + 1
    cases approve with
    | false => have := hi.le j existing w hj hw; omega
    | true => cases hw; exact Nat.le_refl _
  have hinv : SchemaInv db1 := update_schema hi schema hj rfl rfl hle channels canonicals
  have hget' : ∀ j' r, db1.device_schema.get? j' = some r → getByKind db1 r.kind = some (j', r) :=
    fun _ _ h => getByKind_eq hinv.kinds h
  have hshows : Shows (db1.device_schema_channels j (existing.developer_version + 1)) classDef := by
    rw [hdb1, channels_withSchema, if_pos ⟨rfl, rfl⟩]
    rw [hi.fresh j _ fun sc hsc => by rw [hj] at hsc; cases hsc; exact Nat.lt_succ_self _] at hc
    intro name row
    exact Record.empty_append hc
  refine ⟨?_, hshows, ?_, ?_, ?_, ?_, ?_, hinv⟩
  · have := hget' j schema (by rw [hrows, hj, Option.map_some, if_pos (decide_eq_true rfl)])
    rw [← hkind]
    exact this
  · intro ha
    rw [hget, hschema, SchemaRow.next, ha]
    rfl
  · intro ha
    refine ⟨existing.developer_version + 1, by rw [hschema, SchemaRow.next, ha]; rfl, fun _ j' sc w hg hid' => ?_, fun _ => hshows⟩
    rw [hget] at hg
    cases hg
    exact absurd hid' hid
  · intro j' sc w hg hw
    rw [hget] at hg
    cases hg
    have := hi.le j existing w hj hw
    exact ⟨rfl, by rw [hdb1, channels_withSchema, if_neg (by omega)]⟩
  · intro k j' sc hne hg
    obtain ⟨hj', hk⟩ := getByKind_some hg
    have hjj : j' ≠ j := by
      rintro rfl
      rw [hj] at hj'
      cases hj'
      exact hne (hk.symm.trans hkind)
    refine ⟨?_, funext fun v => by rw [hdb1, channels_withSchema, if_neg fun h => hjj h.1]⟩
    have := hget' j' sc (by rw [hrows, hj', Option.map_some, if_neg (by simpa using hjj)])
    rw [← hk]
    exact this
  · intro j' sc hj'
    rw [hrows] at hj'
    obtain ⟨r, hr, rfl⟩ := Option.map_eq_some_iff.mp hj'
    split
    · exact Or.inl hkind
    · exact Or.inr hr

/-- A class whose metadata is unchanged leaves the channels alone. -/
theorem alone_done (hi : SchemaInv db) {existing : SchemaRow} (hget : getByKind db classDef.kind = some (j, existing))
    (hid : Identical P db j existing classDef) {c : ClassDef V}
    (hc : Shows (db.device_schema_channels j existing.developer_version) c) :
    ∃ sc', SchemaDone P db (if existing.approved_version = none && approve then approveByKind db classDef.kind else db)
      classDef approve j sc' := by
  obtain ⟨hj, hkind⟩ := getByKind_some hget
  have hshows := hc.of_identical hid
  split
  · rename_i ha
    obtain ⟨hnull, ha⟩ := Bool.and_eq_true_iff.mp ha
    have hnull' := of_decide_eq_true hnull
    have hget' : ∀ k, getByKind (approveByKind db classDef.kind) k = (getByKind db k).map fun x =>
        if decide (x.2.kind = classDef.kind) then (x.1, SchemaRow.setApproved true x.2) else x :=
      getByKind_setApproved db classDef.kind true
    have hinv := setApproved_schema hi classDef.kind true
    refine ⟨SchemaRow.setApproved true existing, ?_, hshows, ?_, ?_, ?_, ?_, ?_, hinv.le, hinv.kinds, hinv.fresh⟩
    · rw [hget', hget, Option.map_some, if_pos (decide_eq_true hkind)]
    · intro hf; rw [ha] at hf; cases hf
    · intro _
      refine ⟨existing.developer_version, rfl, fun _ j' sc w hg _ hw => ?_, fun _ => hshows⟩
      rw [hget] at hg
      cases hg
      rw [hnull'] at hw
      cases hw
    · intro j' sc w hg hw
      rw [hget] at hg
      cases hg
      rw [hnull'] at hw
      cases hw
    · intro k j' sc hne hg
      refine ⟨?_, rfl⟩
      rw [hget', hg, Option.map_some, if_neg ?_]
      rw [(getByKind_some hg).2]
      simpa using hne
    · intro j' sc hj'
      obtain ⟨r, hr, rfl⟩ := Option.map_eq_some_iff.mp ((schema_setApproved db classDef.kind true j').symm.trans hj')
      split
      · rename_i h; exact Or.inl (of_decide_eq_true h)
      · exact Or.inr hr
  · rename_i ha
    refine ⟨existing, hget, hshows, fun _ => by rw [hget]; rfl, ?_, ?_, fun _ _ _ _ hg => ⟨hg, rfl⟩, fun _ _ h => Or.inr h, hi⟩
    · intro happ
      obtain ⟨w, hw⟩ : ∃ w, existing.approved_version = some w := by
        cases hv : existing.approved_version with
        | none => rw [hv, happ] at ha; exact absurd rfl ha
        | some w => exact ⟨w, rfl⟩
      refine ⟨w, hw, ?_⟩
      rw [Shows.same hshows]
      constructor
      · intro hs j' sc w' hg _ hw'
        rw [hget] at hg
        cases hg
        rw [hw] at hw'
        cases hw'
        exact hs
      · intro hs
        exact hs j existing w hget hid hw
    · intro j' sc w hg _
      rw [hget] at hg
      cases hg
      exact ⟨rfl, rfl⟩

theorem ensured_done (hi : SchemaInv db) {developer_org : Nat} {admin changed : Bool}
    (hc : ∀ j sc, getByKind db classDef.kind = some (j, sc) →
      ∃ c : ClassDef V, Shows (db.device_schema_channels j sc.developer_version) c)
    (h : Ensured P db classDef developer_org admin approve db1 j changed) : ∃ sc', SchemaDone P db db1 classDef approve j sc' := by
  cases h with
  | alone id existing hget _ hid =>
    obtain ⟨c, hc⟩ := hc j existing hget
    exact alone_done hi hget hid hc
  | version id existing channels canonicals hget _ hid happ => exact ⟨_, version_done hi hget hid canonicals happ⟩
  | created channels canonicals hget happ => exact ⟨_, created_done hi hget developer_org canonicals happ⟩

end Schema

/-! ## The device of an upload -/

/-- What `uploadDevice` leaves of the devices. -/
structure DeviceDone (db db' : Db V) (u : Upload V) (old : Option DeviceRow) (i : Nat) : Prop where
  stored : getByPrimaryKind db u.primary_kind = old.map (i, ·)
  row : db'.device_class.get? i = some (u.generalInfo old)
  others : ∀ i' d, db'.device_class.get? i' = some d →
    (i' = i ∧ d = u.generalInfo old) ∨ db.device_class.get? i' = some d ∧ d.primary_kind ≠ u.primary_kind
  kept : ∀ i' d, db.device_class.get? i' = some d → d.primary_kind ≠ u.primary_kind → db'.device_class.get? i' = some d
  kinds : db'.device_class.Unique (·.primary_kind)

theorem ensured_device {db db1 : Db V} {classDef : ClassDef V} {developer_org j : Nat} {admin approve changed : Bool}
    (h : Ensured P db classDef developer_org admin approve db1 j changed) : db1.device_class = db.device_class := by
  cases h with
  | alone => split <;> rfl
  | version => rfl
  | created => rfl

/-- The device of an upload over what its schema became. -/
theorem uploaded_done (hi : Inv s) {u : Upload V} {db' : Db V} (h : Uploaded P s.db u db') :
    ∃ i old j sc', DeviceDone s.db db' u old i ∧ SchemaDone P s.db db' u.classDef u.approves j sc' ∧
      u.classDef.kind = u.primary_kind := by
  cases h with
  | created db1 db2 j changed changed' kinds factory hnone hkind hens hdata =>
    obtain ⟨examples, rfl⟩ := ensureDataset_frame hdata
    have hdev := ensured_device hens
    have hno := getByPrimaryKind_none.mp hnone
    obtain ⟨sc', hsc'⟩ := ensured_done hi.schema (fun j sc hg => by
      obtain ⟨hj, hk⟩ := getByKind_some hg
      obtain ⟨i, d, hd, hdk⟩ := hi.device j sc hj
      exact absurd (hdk.trans (hk.trans hkind)) (hno i d hd)) hens
    refine ⟨s.db.device_class.next, none, j, sc', ⟨hnone, ?_, ?_, ?_, ?_⟩, hsc'.frame rfl rfl, hkind⟩
    · show (db1.device_class.insert (u.generalInfo none)).get? _ = _
      rw [hdev, Table.get?_insert, if_pos rfl]
    · intro i' d hd
      have hd' : (db1.device_class.insert (u.generalInfo none)).get? i' = some d := hd
      rw [hdev, Table.get?_insert] at hd'
      split at hd'
      · cases hd'; exact Or.inl ⟨‹_›, rfl⟩
      · exact Or.inr ⟨hd', hno i' d hd'⟩
    · intro i' d hd _
      show (db1.device_class.insert (u.generalInfo none)).get? i' = _
      rw [hdev, Table.get?_insert, if_neg (Nat.ne_of_lt (Table.lt_next hd)), hd]
    · show (db1.device_class.insert (u.generalInfo none)).Unique _
      rw [hdev]
      exact hi.kinds.insert fun i d hd => hno i d hd
  | updated db1 db2 j changed changed' kinds factory i old hold howner hkind hens hdata =>
    obtain ⟨examples, rfl⟩ := ensureDataset_frame hdata
    have hdev := ensured_device hens
    obtain ⟨hi', hik⟩ := getByPrimaryKind_some hold
    obtain ⟨sc', hsc'⟩ := ensured_done hi.schema (fun j sc hg => by
      obtain ⟨j', r, hg', hm⟩ := hi.agrees i old hi'
      rw [hik, ← hkind, hg] at hg'
      cases hg'
      obtain ⟨c, -, hc⟩ := hm.developer
      exact ⟨c, hc⟩) hens
    have hget : ∀ i', (db1.device_class.update (fun k _ => k = i) fun _ => u.generalInfo (some old)).get? i' =
        (s.db.device_class.get? i').map fun d => if decide (i' = i) then u.generalInfo (some old) else d := by
      intro i'
      rw [hdev, Table.get?_update]
    refine ⟨i, some old, j, sc', ⟨hold, ?_, ?_, ?_, ?_⟩, hsc'.frame rfl rfl, hkind⟩
    · exact (hget i).trans (by rw [hi', Option.map_some, if_pos (decide_eq_true rfl)])
    · intro i' d hd
      obtain ⟨r, hr, rfl⟩ := Option.map_eq_some_iff.mp ((hget i').symm.trans hd)
      split
      · rename_i h
        exact Or.inl ⟨of_decide_eq_true h, rfl⟩
      · rename_i h
        exact Or.inr ⟨hr, fun hk => h (decide_eq_true (hi.kinds i' i r old hr hi' (hk.trans hik.symm)))⟩
    · intro i' d hd hne
      refine (hget i').trans ?_
      rw [hd, Option.map_some, if_neg]
      intro h
      obtain rfl := of_decide_eq_true h
      rw [hi'] at hd
      cases hd
      exact hne hik
    · show (db1.device_class.update (fun k _ => k = i) fun _ => u.generalInfo (some old)).Unique _
      rw [hdev]
      refine hi.kinds.update fun k d hd h => ?_
      obtain rfl := of_decide_eq_true h
      rw [hi'] at hd
      cases hd
      exact hik.symm

/-! ## An upload -/

variable (P) in
/-- What an upload leaves behind, with the class remembered. -/
structure UploadDone (s t : St V) (u : Upload V) (old : Option DeviceRow) (i j : Nat) (sc' : SchemaRow) : Prop where
  device : DeviceDone s.db t.db u old i
  schema : SchemaDone P s.db t.db u.classDef u.approves j sc'
  kind : u.classDef.kind = u.primary_kind
  uploaded : t.uploaded = Function.update s.uploaded u.primary_kind
    (Function.update (s.uploaded u.primary_kind) (u.generalInfo old).developer_version (some u.classDef))

theorem upload_done (hi : Inv s) {u : Upload V} (h : step P s (.upload u) = some t) :
    ∃ old i j sc', UploadDone P s t u old i j sc' := by
  obtain ⟨db', h1, h⟩ := Option.bind_eq_some_iff.mp h
  obtain ⟨⟨i', row⟩, hrow, h⟩ := Option.bind_eq_some_iff.mp h
  cases h
  obtain ⟨i, old, j, sc', hd, hs, hk⟩ := uploaded_done hi (uploadDevice_cases h1)
  have := getByPrimaryKind_eq hd.kinds hd.row
  rw [show (u.generalInfo old).primary_kind = u.primary_kind from rfl, hrow] at this
  cases this
  exact ⟨old, i', j, sc', hd, hs, hk, rfl⟩

section Upload

variable {u : Upload V} {old : Option DeviceRow} {i j : Nat} {sc' : SchemaRow}

/-- The device as it was matches its schema as it was. -/
theorem UploadDone.before (hi : Inv s) {d : DeviceRow} (h : UploadDone P s t u (some d) i j sc') :
    ∃ j0 sc, getByKind s.db u.classDef.kind = some (j0, sc) ∧ Matches s d j0 sc ∧ d.primary_kind = u.primary_kind ∧
      ∀ v, d.approved_version = some v → v < d.developer_version + 1 := by
  obtain ⟨hd, hk⟩ := getByPrimaryKind_some h.device.stored
  obtain ⟨j0, sc, hsc, hm⟩ := hi.agrees i d hd
  rw [hk, ← h.kind] at hsc
  exact ⟨j0, sc, hsc, hm, hk, fun v hv => Nat.lt_succ_of_le (hi.le i d v hd hv)⟩

/-- Without a device there is no schema. -/
theorem UploadDone.no_schema (hi : Inv s) (h : UploadDone P s t u none i j sc') : getByKind s.db u.classDef.kind = none := by
  refine getByKind_none.mpr fun j0 sc hsc hk => ?_
  obtain ⟨i0, d, hd, hdk⟩ := hi.device j0 sc hsc
  exact getByPrimaryKind_none.mp h.device.stored i0 d hd (hdk.trans (hk.trans h.kind))

/-- The new version of the device matches what the schema became if an upload that is to
    be approved is shown. -/
theorem UploadDone.matches_iff (hi : Inv s) (h : UploadDone P s t u old i j sc') :
    Matches t (u.generalInfo old) j sc' ↔ Shown P s (.upload u) := by
  have hnew : t.uploaded (u.generalInfo old).primary_kind (u.generalInfo old).developer_version = some u.classDef := by
    rw [h.uploaded]
    show Function.update s.uploaded u.primary_kind _ u.primary_kind _ = _
    rw [Function.update_self, Function.update_self]
  have hdeveloper : ∃ c, t.uploaded (u.generalInfo old).primary_kind (u.generalInfo old).developer_version = some c ∧
      Shows (t.db.device_schema_channels j sc'.developer_version) c := ⟨u.classDef, hnew, h.schema.shows⟩
  cases ha : u.approves with
  | true =>
    obtain ⟨w, hw, hiff⟩ := h.schema.approved ha
    have hv : (u.generalInfo old).approved_version = some (u.generalInfo old).developer_version := by
      show (if u.approves = true then _ else _) = _
      rw [ha]
      rfl
    constructor
    · intro hm _
      obtain ⟨c, hc, hs⟩ := hm.approved _ w hv hw
      rw [hnew] at hc
      cases hc
      exact hiff.mp hs
    · intro hs
      refine ⟨by rw [hv, hw]; simp, fun v w' hv' hw' => ?_, hdeveloper⟩
      rw [hv] at hv'
      rw [hw] at hw'
      cases hv'
      cases hw'
      exact ⟨u.classDef, hnew, hiff.mpr (hs ha)⟩
  | false =>
    have hv : (u.generalInfo old).approved_version = old.bind (·.approved_version) := by
      show (if u.approves = true then _ else _) = _
      rw [ha]
      rfl
    have hw := h.schema.unapproved ha
    refine iff_of_true ?_ (fun h => by rw [ha] at h; cases h)
    cases old with
    | none =>
      rw [h.no_schema hi] at hw
      refine ⟨by rw [hv, hw]; simp, fun v w hv' _ => ?_, hdeveloper⟩
      rw [hv] at hv'
      cases hv'
    | some d =>
      obtain ⟨j0, sc, hsc, hm, hk, hlt⟩ := h.before hi
      rw [hsc] at hw
      refine ⟨by rw [hv, hw]; exact hm.null, fun v w hv' hw' => ?_, hdeveloper⟩
      rw [hv] at hv'
      rw [hw] at hw'
      obtain ⟨c, hc, hs⟩ := hm.approved v w hv' hw'
      obtain ⟨rfl, hkept⟩ := h.schema.kept j0 sc w hsc hw'
      refine ⟨c, ?_, hkept ▸ hs⟩
      rw [h.uploaded]
      show Function.update s.uploaded u.primary_kind _ u.primary_kind v = _
      have hne : v ≠ (u.generalInfo (some d)).developer_version := Nat.ne_of_lt (hlt v hv')
      rw [Function.update_self, Function.update_of_ne hne, ← hk]
      exact hc

/-- Devices of other kinds match as they did. -/
theorem UploadDone.others (hi : Inv s) (h : UploadDone P s t u old i j sc') {i' : Nat} {d : DeviceRow}
    (hd : s.db.device_class.get? i' = some d) (hne : d.primary_kind ≠ u.primary_kind) :
    ∃ j' sc, getByKind t.db d.primary_kind = some (j', sc) ∧ Matches t d j' sc := by
  obtain ⟨j', sc, hsc, hm⟩ := hi.agrees i' d hd
  obtain ⟨hsc', hc⟩ := h.schema.others d.primary_kind j' sc (h.kind ▸ hne) hsc
  refine ⟨j', sc, hsc', hm.mono ?_ hc⟩
  rw [h.uploaded, Function.update_of_ne hne]

theorem UploadDone.agrees_iff (hi : Inv s) (h : UploadDone P s t u old i j sc') : Agrees t ↔ Shown P s (.upload u) := by
  have hrow := h.schema.row
  rw [h.kind] at hrow
  rw [← h.matches_iff hi]
  constructor
  · intro ha
    obtain ⟨j', sc, hsc, hm⟩ := ha i _ h.device.row
    rw [show (u.generalInfo old).primary_kind = u.primary_kind from rfl, hrow] at hsc
    cases hsc
    exact hm
  · intro hm i' d hd
    rcases h.device.others i' d hd with ⟨rfl, rfl⟩ | ⟨hd, hne⟩
    · exact ⟨j, sc', hrow, hm⟩
    · exact h.others hi hd hne

theorem UploadDone.inv (hi : Inv s) (h : UploadDone P s t u old i j sc') (hs : Shown P s (.upload u)) : Inv t where
  agrees := (h.agrees_iff hi).mpr hs
  le i' d v hd hv := by
    rcases h.device.others i' d hd with ⟨rfl, rfl⟩ | ⟨hd, -⟩
    · cases ha : u.approves with
      | true =>
        have : (if u.approves = true then some (u.generalInfo old).developer_version else _) = some v := hv
        rw [ha] at this
        cases this
        exact Nat.le_refl _
      | false =>
        have : (if u.approves = true then _ else old.bind (·.approved_version)) = some v := hv
        rw [ha] at this
        obtain ⟨d, rfl, hdv⟩ := Option.bind_eq_some_iff.mp this
        obtain ⟨-, -, -, -, -, hlt⟩ := h.before hi
        exact Nat.le_of_lt (hlt v hdv)
    · exact hi.le i' d v hd hv
  kinds := h.device.kinds
  device j' sc hsc := by
    by_cases hk : sc.kind = u.primary_kind
    · exact ⟨i, _, h.device.row, hk.symm⟩
    · obtain hsc := (h.schema.rows j' sc hsc).resolve_left (h.kind ▸ hk)
      obtain ⟨i', d, hd, hdk⟩ := hi.device j' sc hsc
      exact ⟨i', d, h.device.kept i' d hd (hdk ▸ hk), hdk⟩
  schema := h.schema.inv

end Upload

/-! ## Runs -/

theorem init_schema : SchemaInv (init : St V).db where
  le j sc w hsc := by cases hsc
  kinds j j' sc sc' hsc := by cases hsc
  fresh _ _ _ := rfl

theorem init_inv : Inv (init : St V) where
  agrees i d hd := by cases hd
  le i d v hd := by cases hd
  kinds i i' d d' hd := by cases hd
  device j sc hsc := by cases hsc
  schema := init_schema

theorem step_inv (hi : Inv s) {e : Ev V} (hok : Shown P s e) (h : step P s e = some t) : Inv t := by
  cases e with
  | upload u =>
    obtain ⟨old, i, j, sc', hd⟩ := upload_done hi h
    exact hd.inv hi hok
  | approve kind => cases h; exact set_inv hi kind true
  | unapprove kind => cases h; exact set_inv hi kind false

theorem inv (h : Reach (thingpedia P) (Shown P) s) : Inv s :=
  h.inv (P := Inv) (fun _ h => h ▸ init_inv) fun _ _ _ hi hok hs => step_inv hi hok hs

/-- As long as every approved upload is shown the device and its schema agree; and the
    next operation keeps it so exactly if it is one that does. -/
theorem agrees_iff_shown (h : Reach (thingpedia P) (Shown P) s) :
    Agrees s ∧ ∀ e t, step P s e = some t → (Shown P s e ↔ Agrees t) := by
  have hi := inv h
  refine ⟨hi.agrees, fun e t hs => ?_⟩
  cases e with
  | upload u =>
    obtain ⟨old, i, j, sc', hd⟩ := upload_done hi hs
    exact (hd.agrees_iff hi).symm
  | approve kind => exact iff_of_true trivial (step_inv hi (e := .approve kind) trivial hs).agrees
  | unapprove kind => exact iff_of_true trivial (step_inv hi (e := .unapprove kind) trivial hs).agrees

/-! ## A class that is approved and not shown -/

def packages : Packages String where
  prettyprint c v := c.kind ++ "@" ++ toString v
  tokenize phrase := phrase
  deq a b := a == b

def getWeather : FunctionDef String where
  doc := none
  confirmation := none
  confirmation_remote := none
  canonical := ["weather"]
  formatted := []
  is_list := false
  is_monitorable := true
  confirm := .bool false
  extends_ := []
  args := []

/-- A class with one query, or with none. -/
def weather (queries : Record (FunctionDef String)) : ClassDef String where
  kind := "com.weather"
  canonical := "weather"
  queries := queries
  actions := Record.empty
  extends_ := []
  child_types := []
  system := false
  is_abstract := false
  loader := "org.thingpedia.v2"
  config := ⟨"org.thingpedia.config.none", [], []⟩

def withQuery : ClassDef String := weather ⟨[("current", getWeather)], List.nodup_singleton _⟩

def withoutQuery : ClassDef String := weather Record.empty

/-- A trusted developer uploads the class. -/
def uploadOf (classDef : ClassDef String) (approve : Bool) : Ev String := .upload {
  developer_org := 1
  admin := false
  trusted := true
  primary_kind := "com.weather"
  name := "Weather"
  subcategory := .service
  approve
  icon := true
  zipfile := true
  classDef
  dataset := ⟨none, []⟩ }

/-- The class is approved; the query is dropped in a version that is not. -/
def dropped : List (Ev String) := [uploadOf withQuery true, uploadOf withoutQuery false]

theorem dropped_is_approved :
    ∃ s t, run (thingpedia packages) init dropped = some s ∧ step packages s (.approve "com.weather") = some t ∧ Agrees t := by
  have h0 : Reach (thingpedia packages) (Shown packages) init := .init rfl
  have hfirst : Shown packages init (uploadOf withQuery true) := by
    intro _ j sc w hg
    cases hg
  have hsecond : ∀ s, Shown packages s (uploadOf withoutQuery false) := fun _ ha => absurd ha Bool.false_ne_true
  obtain ⟨s, hs⟩ : ∃ s, run (thingpedia packages) init dropped = some s := ⟨_, rfl⟩
  obtain ⟨s1, hs1, hs2⟩ : ∃ s1, (thingpedia packages).step init (uploadOf withQuery true) = some s1 ∧
      (thingpedia packages).step s1 (uploadOf withoutQuery false) = some s := by
    simpa only [run, dropped, List.foldlM_cons, List.foldlM_nil, Option.bind_eq_bind, Option.bind_eq_some_iff,
      Option.pure_def, Option.some.injEq, exists_eq_right] using hs
  have h2 := (h0.step _ hfirst hs1).step _ (hsecond s1) hs2
  exact ⟨s, _, hs, rfl, ((agrees_iff_shown h2).2 (.approve "com.weather") _ rfl).mp trivial⟩

/-- The class without the query is uploaded again, to be approved: its metadata is that of
    the version before, and the schema stays approved with the query. -/
theorem approved_upload_not_shown :
    ∃ s t, run (thingpedia packages) init dropped = some s ∧
      step packages s (uploadOf withoutQuery true) = some t ∧ ¬Agrees t := by
  refine ⟨_, _, rfl, rfl, fun h => ?_⟩
  obtain ⟨j, sc, hsc, hm⟩ := h 1 _ rfl
  cases hsc
  obtain ⟨c, hc, hs⟩ := hm.approved 2 0 rfl rfl
  cases hc
  exact List.not_mem_nil ((hs "current" _).mp rfl)

end GenieCloud.Thingpedia.Approval
