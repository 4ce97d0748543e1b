/-
  GenieCloud.Thingpedia.Snapshots — the schemas of a snapshot (`getSnapshotTypes` and
  `getSnapshotMeta` of `model/schema.ts`).

  A snapshot keeps the rows of `device_schema` as they were; the functions are joined by
  the version recorded. For an organization and for anonymous callers the snapshot is
  chosen in the filter. For the administrator the condition stands in the `on` clause of a
  left join: the kinds of every snapshot are returned, and `getSnapshotMeta` joins their
  functions too (`snapshots_iff`).

  The owner of a recorded schema becomes null when the organization is deleted. Then
  `ds.owner <> ?` is null: an organization is shown an approved kind without its functions.
-/

import GenieCloud.Thingpedia.SchemaRows

namespace GenieCloud.Thingpedia.Snapshots

open GenieCloud.Lib Groups SchemaRows

variable {V C ρ ε η : Type}

/-! ## The queries -/

/-- A row of `device_schema_snapshot`. -/
structure SnapshotRow extends SchemaRow where
  snapshot_id : Nat
  schema_id : Nat
  deriving DecidableEq, Repr

structure SnapshotDb (V : Type) extends Db V where
  device_schema_snapshot : List SnapshotRow
  /-- The primary key. -/
  ids : (device_schema_snapshot.map fun ds => (ds.snapshot_id, ds.schema_id)).Nodup
  /-- A unique key. -/
  kinds : (device_schema_snapshot.map fun ds => (ds.snapshot_id, ds.kind)).Nodup

/-- The functions of the version a recorded schema is joined with. -/
def channelsOf (db : SnapshotDb V) (org : Option Int) (ds : SnapshotRow) : Record ChannelRow :=
  (ds.toSchemaRow.version org).elim Record.empty (db.device_schema_channels ds.schema_id)

def canonicalsOf (db : SnapshotDb V) (org : Option Int) (language : String) (ds : SnapshotRow) : Record (ChannelCanonicalRow V) :=
  (ds.toSchemaRow.version org).elim Record.empty fun version => db.device_schema_channel_canonicals ds.schema_id version language

/-- The filter of the queries for an organization and for anonymous callers. -/
def schemasOf (db : SnapshotDb V) (snapshotId : Nat) (org : Option Int) : List SnapshotRow :=
  db.device_schema_snapshot.filter fun ds => visible org ds.approved_version ds.owner && ds.snapshot_id = snapshotId

/-- The rows of the query of `getSnapshotTypes`. -/
def snapshotTypes (db : SnapshotDb V) (snapshotId : Nat) (org : Option Int) : List TypeRow :=
  if org = some (-1) then
    leftJoin db.device_schema_snapshot
      (fun ds => if ds.snapshot_id = snapshotId then (channelsOf db org ds).entries else [])
      fun ds => typeRow ds.toSchemaRow
  else
    leftJoin (schemasOf db snapshotId org) (fun ds => (channelsOf db org ds).entries) fun ds => typeRow ds.toSchemaRow

/-- The rows of the query of `getSnapshotMeta`. -/
def snapshotMetas (db : SnapshotDb V) (snapshotId : Nat) (language : String) (org : Option Int) : List (MetaRow V) :=
  if org = some (-1) then
    leftJoin db.device_schema_snapshot (fun ds => (channelsOf db org ds).entries)
      fun ds => metaRow ds.toSchemaRow (if ds.snapshot_id = snapshotId then canonicalsOf db org language ds else Record.empty)
  else
    leftJoin (schemasOf db snapshotId org) (fun ds => (channelsOf db org ds).entries)
      fun ds => metaRow ds.toSchemaRow (canonicalsOf db org language ds)

/-! ## What a snapshot holds for a caller -/

/-- The administrator and the owner see the version in development. -/
def recordedVersion (org : Option Int) (ds : SchemaRow) : Option Nat :=
  match org with
  | none => ds.approved_version
  | some o =>
    if o = -1 ∨ (ds.owner.any fun (owner : Nat) => (owner : Int) = o) then some ds.developer_version
    else ds.approved_version

/-- The kinds recorded in a snapshot that the caller may see. -/
def RecordedKind (db : SnapshotDb V) (snapshotId : Nat) (org : Option Int) (kind : String) : Prop :=
  ∃ ds ∈ db.device_schema_snapshot, ds.snapshot_id = snapshotId ∧ visible org ds.approved_version ds.owner = true ∧ ds.kind = kind

/-- The functions of such a kind, at the version `versionOf` says. -/
def Channel (db : SnapshotDb V) (snapshotId : Nat) (org : Option Int) (versionOf : SchemaRow → Option Nat)
    (obj : SnapshotRow → Nat → String → ChannelRow → C) (kind : String) (what : ChannelType) (name : String) (o : C) : Prop :=
  ∃ ds ∈ db.device_schema_snapshot, ds.snapshot_id = snapshotId ∧ visible org ds.approved_version ds.owner = true ∧ ds.kind = kind ∧
    ∃ version, versionOf ds.toSchemaRow = some version ∧
      ∃ channel, (db.device_schema_channels ds.schema_id version).get? name = some channel ∧
        channel.channel_type = what ∧ o = obj ds version name channel

def typeObj (_ : SnapshotRow) (_ : Nat) (_ : String) (channel : ChannelRow) : SchemaChannelTypes := processTypeRow channel

def metaObj (db : SnapshotDb V) (language : String) (ds : SnapshotRow) (version : Nat) (name : String) (channel : ChannelRow) :
    SchemaChannelMetadata V :=
  processMetaRow channel ((db.device_schema_channel_canonicals ds.schema_id version language).get? name)

/-- Exactly the kinds recorded in the snapshot that the caller may see, each with the
    functions of the version recorded for the caller. -/
def SelfContained (A : Assembly ρ ε C η) (db : SnapshotDb V) (snapshotId : Nat) (org : Option Int)
    (obj : SnapshotRow → Nat → String → ChannelRow → C) (out : List ε) : Prop :=
  Entries A (RecordedKind db snapshotId org) (Channel db snapshotId org (recordedVersion org) obj) out

/-- The functions recorded can be read: none has the name that objects cannot hold, and for
    an organization those of a schema without an owner do not exist. -/
structure Readable (db : SnapshotDb V) (snapshotId : Nat) (org : Option Int) : Prop where
  names : ∀ ds ∈ db.device_schema_snapshot, ds.snapshot_id = snapshotId → visible org ds.approved_version ds.owner = true →
    ∀ version, recordedVersion org ds.toSchemaRow = some version →
      (db.device_schema_channels ds.schema_id version).get? "__proto__" = none
  owners : ∀ ds ∈ db.device_schema_snapshot, ds.snapshot_id = snapshotId → ds.owner = none → org ≠ none → org ≠ some (-1) →
    ∀ version, ds.approved_version = some version → ∀ name, (db.device_schema_channels ds.schema_id version).get? name = none

/-- Every kind recorded anywhere is recorded in the snapshot. -/
def OnlyItsKinds (db : SnapshotDb V) (snapshotId : Nat) : Prop :=
  ∀ ds ∈ db.device_schema_snapshot, ∃ ds' ∈ db.device_schema_snapshot, ds'.snapshot_id = snapshotId ∧ ds'.kind = ds.kind

/-- Of the rows about a function of a recorded kind, the last one says what the snapshot
    records. -/
def LastIsIts (db : SnapshotDb V) (snapshotId : Nat) (language : String) (rows : List (MetaRow V)) : Prop :=
  ∀ kind, RecordedKind db snapshotId (some (-1)) kind → ∀ what name obj, name ≠ "__proto__" →
    (metaAssembly.lastSaid rows kind what name = some obj ↔
      Channel db snapshotId (some (-1)) (recordedVersion (some (-1))) (metaObj db language) kind what name obj)

/-! ## Versions -/

theorem recorded_of_version {org : Option Int} {ds : SchemaRow} {version : Nat} (h : ds.version org = some version) :
    recordedVersion org ds = some version := by
  rw [← SchemaRow.joins_iff_version] at h
  unfold SchemaRow.joins at h
  unfold recordedVersion
  cases org with
  | none => exact of_decide_eq_true h
  | some o =>
    by_cases ho : o = -1
    · simp only [ho, if_true, decide_eq_true_eq, true_or] at h ⊢
      rw [h]
    · cases hw : ds.owner with
      | none => simp [ho, hw] at h
      | some owner =>
        by_cases hown : (owner : Int) = o
        · simp [ho, hw, hown] at h ⊢
          exact h.symm
        · simp [ho, hw, hown] at h ⊢
          exact h

/-- Only a schema without an owner is joined with no version where one is recorded. -/
theorem version_of_recorded {org : Option Int} {ds : SchemaRow} {version : Nat} (h : recordedVersion org ds = some version) :
    ds.version org = some version ∨
      (ds.version org = none ∧ ds.owner = none ∧ org ≠ none ∧ org ≠ some (-1) ∧ ds.approved_version = some version) := by
  rcases hv : ds.version org with _ | v
  · right
    have hno : ds.joins org version = false := by
      rw [Bool.eq_false_iff, ne_eq, SchemaRow.joins_iff_version, hv]
      exact nofun
    unfold SchemaRow.joins at hno
    unfold recordedVersion at h
    cases org with
    | none => simp [h] at hno
    | some o =>
      by_cases ho : o = -1
      · simp only [ho, if_true, true_or, Option.some.injEq] at h hno
        simp [h] at hno
      · cases hw : ds.owner with
        | none => exact ⟨rfl, rfl, nofun, by simpa using ho, by simpa [ho, hw] using h⟩
        | some owner =>
          by_cases hown : (owner : Int) = o
          · simp [ho, hw, hown] at h hno
            exact absurd h.symm hno
          · simp [ho, hw, hown] at h hno
            exact absurd h hno
  · left
    rw [← h, recorded_of_version hv]

/-! ## The rows of the queries -/

section Rows

variable {db : SnapshotDb V} {snapshotId : Nat} {org : Option Int} {language : String}

theorem schema_unique {ds ds' : SnapshotRow} (h : ds ∈ db.device_schema_snapshot) (h' : ds' ∈ db.device_schema_snapshot)
    (hs : ds.snapshot_id = ds'.snapshot_id) (hk : ds.kind = ds'.kind) : ds = ds' :=
  List.inj_on_of_nodup_map db.kinds h h' (by rw [hs, hk])

theorem mem_channelsOf {ds : SnapshotRow} {name : String} {channel : ChannelRow} :
    (name, channel) ∈ (channelsOf db org ds).entries ↔ ∃ version, ds.toSchemaRow.version org = some version ∧
      (db.device_schema_channels ds.schema_id version).get? name = some channel := by
  unfold channelsOf
  rcases ds.toSchemaRow.version org with _ | version
  · simp [Record.empty]
  · simp [Record.mem_entries]

theorem mem_schemasOf {ds : SnapshotRow} : ds ∈ schemasOf db snapshotId org ↔
    ds ∈ db.device_schema_snapshot ∧ ds.snapshot_id = snapshotId ∧ visible org ds.approved_version ds.owner = true := by
  rw [schemasOf, List.mem_filter, Bool.and_eq_true, decide_eq_true_eq, and_comm (a := visible org _ _ = true)]

theorem nodup_schemasOf : ((schemasOf db snapshotId org).map fun ds => ds.kind).Nodup := by
  refine List.Nodup.map_on ?_ (List.Nodup.filter _ (List.Nodup.of_map _ db.kinds))
  intro ds h ds' h' hk
  obtain ⟨h, hs, -⟩ := mem_schemasOf.mp h
  obtain ⟨h', hs', -⟩ := mem_schemasOf.mp h'
  exact schema_unique h h' (hs.trans hs'.symm) hk

/-- The functions joined that an object can hold are those recorded. -/
theorem readable_iff (obj : SnapshotRow → Nat → String → ChannelRow → C) :
    (∀ kind, RecordedKind db snapshotId org kind → ∀ what name o,
      (name ≠ "__proto__" ∧ Channel db snapshotId org (·.version org) obj kind what name o ↔
        Channel db snapshotId org (recordedVersion org) obj kind what name o)) ↔
      Readable db snapshotId org := by
  constructor
  · intro h
    constructor
    · intro ds hds hs hv version hver
      rw [Option.eq_none_iff_forall_not_mem]
      intro channel hc
      have := (h ds.kind ⟨ds, hds, hs, hv, rfl⟩ channel.channel_type "__proto__" (obj ds version "__proto__" channel)).mpr
        ⟨ds, hds, hs, hv, rfl, version, hver, channel, hc, rfl, rfl⟩
      exact this.1 rfl
    · intro ds hds hs howner horg hadmin version happ name
      rw [Option.eq_none_iff_forall_not_mem]
      intro channel hc
      obtain ⟨o, rfl⟩ := Option.ne_none_iff_exists'.mp horg
      have ho : o ≠ -1 := fun he => hadmin (congrArg some he)
      have hv : visible (some o) ds.approved_version ds.owner = true := by simp [visible, happ]
      have hver : recordedVersion (some o) ds.toSchemaRow = some version := by simp [recordedVersion, ho, howner, happ]
      obtain ⟨-, ds', hds', hs', -, hk, v, hjoin, -⟩ :=
        (h ds.kind ⟨ds, hds, hs, hv, rfl⟩ channel.channel_type name (obj ds version name channel)).mpr
          ⟨ds, hds, hs, hv, rfl, version, hver, channel, hc, rfl, rfl⟩
      -- the schema is joined with no version
      cases schema_unique hds' hds (hs'.trans hs.symm) hk
      rw [← SchemaRow.joins_iff_version] at hjoin
      simp [SchemaRow.joins, ho, howner] at hjoin
  · intro h kind _ what name o
    constructor
    · intro hc
      obtain ⟨-, ds, hds, hs, hv, hk, version, hver, hc⟩ := hc
      exact ⟨ds, hds, hs, hv, hk, version, recorded_of_version hver, hc⟩
    · intro hrec
      obtain ⟨ds, hds, hs, hv, hk, version, hver, channel, hc, ho⟩ := hrec
      constructor
      · intro hname
        have := h.names ds hds hs hv version hver
        rw [← hname, hc] at this
        cases this
      · rcases version_of_recorded hver with hjoin | ⟨-, howner, horg, hadmin, happ⟩
        · exact ⟨ds, hds, hs, hv, hk, version, hjoin, channel, hc, ho⟩
        · have := h.owners ds hds hs howner horg hadmin version happ name
          rw [hc] at this
          cases this

/-- When the rows have the functions joined, each once. -/
theorem selfContained_iff {A : Assembly ρ ε C η} {q rows : List ρ} {obj : SnapshotRow → Nat → String → ChannelRow → C}
    (hp : rows.Perm q) (hn : (names A q).Nodup)
    (hchan : ∀ kind what name o, (∃ row ∈ q, A.rowKey row = kind ∧ A.channel row = some (name, what, o)) ↔
      Channel db snapshotId org (·.version org) obj kind what name o) :
    SelfContained A db snapshotId org obj (A.run rows) ↔
      (∀ kind, kind ∈ q.map A.rowKey ↔ RecordedKind db snapshotId org kind) ∧ Grouped A.rowKey rows ∧ Readable db snapshotId org := by
  have hn' : (names A rows).Nodup := (hp.filterMap _).nodup_iff.mpr hn
  rw [SelfContained, entries_iff, ← readable_iff obj]
  refine and_congr (forall_congr' fun kind => by rw [(hp.map A.rowKey).mem_iff]) (and_congr_right fun _ => ?_)
  refine forall_congr' fun kind => imp_congr_right fun _ => ?_
  refine forall_congr' fun what => forall_congr' fun name => forall_congr' fun o => ?_
  rw [Option.ite_none_left_eq_some, lastSaid_eq_some hn', ← hchan]
  simp only [hp.mem_iff]

theorem channel_iff (obj : SnapshotRow → Nat → String → ChannelRow → C) (obj' : SnapshotRow → String → ChannelRow → C)
    (hobj : ∀ ds version name c, ds.toSchemaRow.version org = some version → obj ds version name c = obj' ds name c)
    {kind name : String} {what : ChannelType} {o : C} :
    Channel db snapshotId org (·.version org) obj kind what name o ↔
      ∃ ds ∈ db.device_schema_snapshot, ds.snapshot_id = snapshotId ∧ visible org ds.approved_version ds.owner = true ∧ ds.kind = kind ∧
        ∃ c, (name, c) ∈ (channelsOf db org ds).entries ∧ c.channel_type = what ∧ obj' ds name c = o := by
  unfold Channel
  refine exists_congr fun ds => and_congr_right fun _ => and_congr_right fun _ => and_congr_right fun _ => and_congr_right fun _ => ?_
  constructor
  · intro ⟨version, hv, c, hc, ht, ho⟩
    exact ⟨c, mem_channelsOf.mpr ⟨version, hv, hc⟩, ht, by rw [ho, hobj ds version name c hv]⟩
  · intro ⟨c, hc, ht, ho⟩
    obtain ⟨version, hv, hc⟩ := mem_channelsOf.mp hc
    exact ⟨version, hv, c, hc, ht, by rw [← ho, hobj ds version name c hv]⟩

theorem metaObj_eq (ds : SnapshotRow) (version : Nat) (name : String) (c : ChannelRow)
    (h : ds.toSchemaRow.version org = some version) :
    metaObj db language ds version name c = processMetaRow c ((canonicalsOf db org language ds).get? name) := by
  rw [metaObj, canonicalsOf, h]
  rfl

/-! ### The caller is not the administrator -/

/-- The rows of the snapshot the caller may see, joined with their functions. -/
theorem filtered_iff {A : Assembly ρ ε C η} {row : SnapshotRow → Option (String × ChannelRow) → ρ} {rows : List ρ}
    (obj : SnapshotRow → Nat → String → ChannelRow → C) (obj' : SnapshotRow → String → ChannelRow → C)
    (hobj : ∀ ds version name c, ds.toSchemaRow.version org = some version → obj ds version name c = obj' ds name c)
    (hkey : ∀ ds c, A.rowKey (row ds c) = ds.kind)
    (hchan : ∀ ds c, A.channel (row ds c) = c.map fun c => (c.1, c.2.channel_type, obj' ds c.1 c.2))
    (hp : rows.Perm (leftJoin (schemasOf db snapshotId org) (fun ds => (channelsOf db org ds).entries) row)) :
    SelfContained A db snapshotId org obj (A.run rows) ↔ Grouped A.rowKey rows ∧ Readable db snapshotId org := by
  rw [selfContained_iff hp, and_iff_right]
  · intro kind
    rw [mem_keys_leftJoin hkey]
    simp only [mem_schemasOf, RecordedKind, and_assoc]
  · exact nodup_names_leftJoin Prod.fst hkey (fun ds c => by rw [hchan]; cases c <;> rfl)
      ((List.pairwise_map.mp nodup_schemasOf).imp fun hne _ _ => hne) fun ds _ => (channelsOf db org ds).nodup
  · intro kind what name o
    rw [exists_channel_leftJoin obj' hkey hchan, channel_iff obj obj' hobj]
    simp only [mem_schemasOf, and_assoc]

/-! ### The caller is the administrator -/

theorem onlyItsKinds_iff :
    (∀ kind, (∃ ds ∈ db.device_schema_snapshot, ds.kind = kind) ↔ RecordedKind db snapshotId (some (-1)) kind) ↔
    OnlyItsKinds db snapshotId := by
  constructor
  · intro h ds hds
    obtain ⟨ds', hds', hs, -, hk⟩ := (h ds.kind).mp ⟨ds, hds, rfl⟩
    exact ⟨ds', hds', hs, hk⟩
  · intro h kind
    constructor
    · intro ⟨ds, hds, hk⟩
      obtain ⟨ds', hds', hs, hk'⟩ := h ds hds
      exact ⟨ds', hds', hs, rfl, hk'.trans hk⟩
    · intro ⟨ds, hds, _, _, hk⟩
      exact ⟨ds, hds, hk⟩

theorem typesAdmin_iff {rows : List TypeRow} (hp : rows.Perm (snapshotTypes db snapshotId (some (-1)))) :
    SelfContained typeAssembly db snapshotId (some (-1)) typeObj (SchemaRows.processTypeRows rows) ↔
      Grouped (·.kind) rows ∧ Readable db snapshotId (some (-1)) ∧ OnlyItsKinds db snapshotId := by
  rw [snapshotTypes, if_pos rfl] at hp
  have hkey : ∀ (ds : SnapshotRow) (c : Option (String × ChannelRow)), typeAssembly.rowKey (typeRow ds.toSchemaRow c) = ds.kind :=
    fun _ _ => rfl
  have hchan : ∀ (ds : SnapshotRow) (c : Option (String × ChannelRow)), typeAssembly.channel (typeRow ds.toSchemaRow c) =
      c.map fun c => (c.1, c.2.channel_type, processTypeRow c.2) := fun _ _ => rfl
  rw [SchemaRows.processTypeRows, selfContained_iff hp, ← onlyItsKinds_iff]
  · simp only [mem_keys_leftJoin hkey]
    exact and_rotate
  · refine nodup_names_leftJoin Prod.fst hkey (fun _ c => by cases c <;> rfl) ?_ ?_
    · refine (List.pairwise_map.mp db.kinds).imp ?_
      intro ds ds' hne h h' hk
      rw [ne_eq, ite_eq_right_iff, not_forall] at h h'
      exact hne (by rw [h.1, h'.1, hk])
    · intro ds _
      split
      · exact (channelsOf db (some (-1)) ds).nodup
      · exact List.nodup_nil
  · intro kind what name o
    rw [exists_channel_leftJoin (fun _ _ c => processTypeRow c) hkey hchan,
      channel_iff typeObj (fun _ _ c => processTypeRow c) fun _ _ _ _ _ => rfl]
    refine exists_congr fun ds => and_congr_right fun _ => ?_
    constructor
    · intro ⟨hk, c, hc, h⟩
      by_cases hs : ds.snapshot_id = snapshotId
      · rw [if_pos hs] at hc
        exact ⟨hs, rfl, hk, c, hc, h⟩
      · rw [if_neg hs] at hc
        exact absurd hc List.not_mem_nil
    · intro ⟨hs, _, hk, c, hc, h⟩
      exact ⟨hk, c, by rwa [if_pos hs], h⟩

theorem metasAdmin_iff {rows : List (MetaRow V)} (hp : rows.Perm (snapshotMetas db snapshotId language (some (-1)))) :
    SelfContained metaAssembly db snapshotId (some (-1)) (metaObj db language) (SchemaRows.processMetaRows rows) ↔
      Grouped (·.kind) rows ∧ Readable db snapshotId (some (-1)) ∧ OnlyItsKinds db snapshotId ∧
        LastIsIts db snapshotId language rows := by
  rw [snapshotMetas, if_pos rfl] at hp
  have hkey : ∀ kind, kind ∈ (leftJoin db.device_schema_snapshot (fun ds => (channelsOf db (some (-1)) ds).entries) fun ds =>
      metaRow ds.toSchemaRow (if ds.snapshot_id = snapshotId then canonicalsOf db (some (-1)) language ds else Record.empty)).map
        metaAssembly.rowKey ↔ ∃ ds ∈ db.device_schema_snapshot, ds.kind = kind :=
    mem_keys_leftJoin fun _ _ => rfl
  have hkinds : (∀ kind, kind ∈ rows.map metaAssembly.rowKey ↔ RecordedKind db snapshotId (some (-1)) kind) ↔
      OnlyItsKinds db snapshotId := by
    rw [← onlyItsKinds_iff]
    refine forall_congr' fun kind => ?_
    rw [(hp.map _).mem_iff, hkey]
  rw [SelfContained, SchemaRows.processMetaRows, entries_iff, hkinds]
  constructor
  · intro ⟨hk, hg, hlast⟩
    refine ⟨hg, ⟨?_, fun _ _ _ _ _ hadmin => absurd rfl hadmin⟩, hk, ?_⟩
    · intro ds hds hs hv version hver
      rw [Option.eq_none_iff_forall_not_mem]
      intro channel hc
      have := (hlast ds.kind ⟨ds, hds, hs, hv, rfl⟩ channel.channel_type "__proto__" _).mpr
        ⟨ds, hds, hs, hv, rfl, version, hver, channel, hc, rfl, rfl⟩
      cases this
    · intro kind hr what name obj hname
      rw [← hlast kind hr what name obj, if_neg hname]
  · intro ⟨hg, hread, hk, hlast⟩
    refine ⟨hk, hg, ?_⟩
    intro kind hr what name obj
    by_cases hname : name = "__proto__"
    · rw [if_pos hname]
      refine ⟨nofun, ?_⟩
      intro ⟨ds, hds, hs, hv, _, version, hver, channel, hc, _⟩
      rw [hname, hread.names ds hds hs hv version hver] at hc
      cases hc
    · rw [if_neg hname]
      exact hlast kind hr what name obj hname

/-- In whatever order the rows come. For an organization and for anonymous callers a
    snapshot is self-contained if and only if the rows of a kind come one after another and
    its functions can be read; for the administrator, no other snapshot may have a kind
    that it does not have, nor have the last word on one of its functions. -/
theorem snapshots_iff (db : SnapshotDb V) (snapshotId : Nat) (language : String) (org : Option Int) :
    (∀ rows, rows.Perm (snapshotTypes db snapshotId org) →
      (SelfContained typeAssembly db snapshotId org typeObj (SchemaRows.processTypeRows rows) ↔
        Grouped (·.kind) rows ∧ Readable db snapshotId org ∧ (org = some (-1) → OnlyItsKinds db snapshotId))) ∧
    ∀ rows, rows.Perm (snapshotMetas db snapshotId language org) →
      (SelfContained metaAssembly db snapshotId org (metaObj db language) (SchemaRows.processMetaRows rows) ↔
        Grouped (·.kind) rows ∧ Readable db snapshotId org ∧
          (org = some (-1) → OnlyItsKinds db snapshotId ∧ LastIsIts db snapshotId language rows)) := by
  by_cases hadmin : org = some (-1)
  · subst hadmin
    constructor
    · intro rows hp
      rw [typesAdmin_iff hp, imp_iff_right rfl]
    · intro rows hp
      rw [metasAdmin_iff hp, imp_iff_right rfl]
  · constructor
    · intro rows hp
      rw [snapshotTypes, if_neg hadmin] at hp
      simp only [hadmin, false_implies, and_true]
      exact filtered_iff typeObj (fun _ _ c => processTypeRow c) (fun _ _ _ _ _ => rfl) (fun _ _ => rfl) (fun _ _ => rfl) hp
    · intro rows hp
      rw [snapshotMetas, if_neg hadmin] at hp
      simp only [hadmin, false_implies, and_true]
      exact filtered_iff (metaObj db language) (fun ds name c => processMetaRow c ((canonicalsOf db org language ds).get? name))
        (fun ds version name c h => metaObj_eq ds version name c h) (fun _ _ => rfl)
        (fun _ c => by cases c <;> rfl) hp

end Rows

/-- Snapshot 2 has one schema, and so has snapshot 1. -/
def twoSnapshots : SnapshotDb Unit where
  toDb := Db.empty
  device_schema_snapshot :=
    [⟨⟨"com.a", "primary", some 1, 0, some 0, "a"⟩, 1, 1⟩, ⟨⟨"com.b", "primary", some 1, 0, some 0, "b"⟩, 2, 2⟩]
  ids := by decide
  kinds := by decide

theorem other_snapshot_shown :
    ¬SelfContained typeAssembly twoSnapshots 2 (some (-1)) typeObj
      (SchemaRows.processTypeRows (snapshotTypes twoSnapshots 2 (some (-1)))) ∧
    ¬SelfContained metaAssembly twoSnapshots 2 (some (-1)) (metaObj twoSnapshots "en")
      (SchemaRows.processMetaRows (snapshotMetas twoSnapshots 2 "en" (some (-1)))) := by
  have hno : ∀ ds ∈ twoSnapshots.device_schema_snapshot, ds.snapshot_id = 2 → ds.kind ≠ "com.a" := by decide
  constructor
  · intro h
    obtain ⟨ds, hds, hs, -, hk⟩ := (h.kinds "com.a").mp (by decide)
    exact hno ds hds hs hk
  · intro h
    obtain ⟨ds, hds, hs, -, hk⟩ := (h.kinds "com.a").mp (by decide)
    exact hno ds hds hs hk

end GenieCloud.Thingpedia.Snapshots
