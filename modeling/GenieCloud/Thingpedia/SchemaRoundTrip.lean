/-
  GenieCloud.Thingpedia.SchemaRoundTrip — a class stored and read back
  (`insertChannels` and `processMetaRows` of `model/schema.ts`, `areMetaIdentical` and
  `ensurePrimarySchema` of `util/import_device.ts`, the columns of `model/schema.sql`).

  A new version of a schema is made when `areMetaIdentical` does not hold of what is stored
  and of the class. It holds of a class that was just stored when its functions are `Kept`
  and no query has the name of an action (`schema_read_back_iff`), and only then is a
  class that is imported again left alone. A function is kept when its texts fit their
  columns, it has a canonical form and a confirmation, its `confirm` annotation is a
  Boolean, and it extends another function: the empty list of a function that extends
  nothing is stored as `null`, and `null` is not the empty list (`a_plain_query_differs`).

  Columns of JSON text keep any value. Names are identifiers, and have no blanks that a
  column would cut off.
-/

import GenieCloud.Lib.Result
import GenieCloud.Lib.Varchar
import GenieCloud.Thingpedia.ImportDevice

namespace GenieCloud.Thingpedia

open GenieCloud.Lib

variable {V : Type}

/-! ## Columns -/

def nameColumn : String → Option String := basicColumn (varchar 128)

def docColumn : String → Option String := basicColumn (text 16777215)

def canonicalColumn : String → Option String := basicColumn (text 65535)

def confirmationColumn : String → Option String := basicColumn (varchar 255)

def Nullable.keep (column : String → Option String) : Nullable → Option Nullable
  | .string s => (column s).map .string
  | missing => some missing

/-- What the columns keep of the texts of a function. -/
def SchemaChannelMetadata.columns (name : String) (m : SchemaChannelMetadata V) : Option (SchemaChannelMetadata V) := do
  guard (nameColumn name).isSome
  let doc ← docColumn m.doc
  let canonical ← m.canonical.keep canonicalColumn
  let confirmation ← m.confirmation.keep confirmationColumn
  let confirmation_remote ← m.confirmation_remote.keep confirmationColumn
  return { m with doc, canonical, confirmation, confirmation_remote }

def SchemaMetadata.columns (metas : SchemaMetadata V) : Option (SchemaMetadata V) := do
  let triggers ← metas.triggers.traverse SchemaChannelMetadata.columns
  let queries ← metas.queries.traverse SchemaChannelMetadata.columns
  let actions ← metas.actions.traverse SchemaChannelMetadata.columns
  return { metas with triggers, queries, actions }

/-- `insertChannels`, into columns of the widths of the tables. -/
def storeChannels (db : Db V) (schemaId version : Nat) (language : String) (metas : SchemaMetadata V) : Option (Db V) := do
  insertChannels db schemaId version language (← metas.columns)

/-! ## What is kept -/

structure FunctionDef.Kept (name : String) (fnDef : FunctionDef V) : Prop where
  name : basicPlane name = true ∧ (unpadded name).length ≤ 128
  doc : basicPlane (fnDef.doc.getD "") = true ∧ bytes (fnDef.doc.getD "").toList ≤ 16777215
  canonical : ∃ c, fnDef.canonical.head? = some c ∧ basicPlane c = true ∧ bytes c.toList ≤ 65535
  confirmation : ∃ c, fnDef.confirmation = some c ∧ basicPlane c = true ∧ c.length ≤ 255
  /-- Longer by blanks only, for it is not compared. -/
  confirmation_remote : basicPlane (fnDef.confirmation_remote.getD "") = true ∧
    (unpadded (fnDef.confirmation_remote.getD "")).length ≤ 255
  extends_ : fnDef.extends_ ≠ []
  confirm : ∃ b, fnDef.confirm = .bool b

structure ClassDef.Kept (classDef : ClassDef V) : Prop where
  queries : ∀ name fnDef, classDef.queries.get? name = some fnDef → fnDef.Kept name
  actions : ∀ name fnDef, classDef.actions.get? name = some fnDef → fnDef.Kept name
  apart : ∀ name, name ∈ classDef.queries.keys → name ∉ classDef.actions.keys

/-! ## One function -/

/-- A function, stored and read back. -/
def SchemaChannelMetadata.roundTrip (name : String) (m : SchemaChannelMetadata V) : Option (SchemaChannelMetadata V) := do
  let kept ← m.columns name
  let row ← channelCanonicalRow kept
  return processMetaRow (channelRow .query kept) (some row)

theorem columns_eq_some {name : String} {m kept : SchemaChannelMetadata V} :
    m.columns name = some kept ↔ (nameColumn name).isSome = true ∧ docColumn m.doc = some kept.doc ∧
      m.canonical.keep canonicalColumn = some kept.canonical ∧
      m.confirmation.keep confirmationColumn = some kept.confirmation ∧
      m.confirmation_remote.keep confirmationColumn = some kept.confirmation_remote ∧
      kept = { m with
        doc := kept.doc
        canonical := kept.canonical
        confirmation := kept.confirmation
        confirmation_remote := kept.confirmation_remote } := by
  unfold SchemaChannelMetadata.columns
  by_cases hname : (nameColumn name).isSome = true
  · rw [guard, if_pos hname]
    simp only [pure_bind, Option.bind_eq_bind, Option.bind_eq_some_iff, hname, true_and]
    constructor
    · intro h
      obtain ⟨doc, hdoc, canonical, hcanonical, confirmation, hconfirmation, remote, hremote, h⟩ := h
      obtain rfl := Option.some.inj h
      exact ⟨hdoc, hcanonical, hconfirmation, hremote, rfl⟩
    · intro h
      obtain ⟨hdoc, hcanonical, hconfirmation, hremote, h⟩ := h
      exact ⟨_, hdoc, _, hcanonical, _, hconfirmation, _, hremote, congrArg some h.symm⟩
  · constructor
    · intro h
      rw [guard, if_neg hname] at h
      cases h
    · intro h
      exact absurd h.1 hname

theorem Nullable.keep_string {column : String → Option String} {n : Nullable} {s : String} :
    n.keep column = some (.string s) ↔ ∃ t, n = .string t ∧ column t = some s := by
  cases n <;> simp [Nullable.keep]

/-- A row of canonicals needs a canonical form. -/
theorem channelCanonicalRow_isSome {m : SchemaChannelMetadata V} :
    (∃ row, channelCanonicalRow m = some row) ↔ ∃ s, m.canonical = .string s := by
  cases h : m.canonical <;> simp [channelCanonicalRow, Nullable.column, h]

theorem nameColumn_isSome {name : String} :
    (nameColumn name).isSome = true ↔ basicPlane name = true ∧ (unpadded name).length ≤ 128 := by
  rw [nameColumn, basicColumn_isSome, varchar_isSome]

theorem confirmationColumn_isSome {s : String} :
    (confirmationColumn s).isSome = true ↔ basicPlane s = true ∧ (unpadded s).length ≤ 255 := by
  rw [confirmationColumn, basicColumn_isSome, varchar_isSome]

theorem confirmationColumn_self {s : String} :
    confirmationColumn s = some s ↔ basicPlane s = true ∧ s.length ≤ 255 := by
  rw [confirmationColumn, basicColumn_eq_some, varchar_eq_self]

theorem docColumn_self {s : String} : docColumn s = some s ↔ basicPlane s = true ∧ bytes s.toList ≤ 16777215 := by
  rw [docColumn, basicColumn_eq_some, text_eq_self]

theorem canonicalColumn_self {s : String} :
    canonicalColumn s = some s ↔ basicPlane s = true ∧ bytes s.toList ≤ 65535 := by
  rw [canonicalColumn, basicColumn_eq_some, text_eq_self]

section Compare

variable {deq : V → V → Bool}

theorem deqList_refl (hdeq : ∀ v, deq v v = true) (l : List V) : deqList deq l l = true := by
  induction l with
  | nil => rfl
  | cons v l ih => rw [deqList, hdeq, ih, Bool.and_self]

theorem extends_kept {l : List String} : (some l).filter (· != []) = some l ↔ l ≠ [] := by
  cases l <;> simp

theorem confirm_kept {c : Confirm} : Confirm.bool c.column = c ↔ ∃ b, c = .bool b := by
  cases c <;> simp [Confirm.column]

theorem channelCanonicalRow_eq_some {m : SchemaChannelMetadata V} {row : ChannelCanonicalRow V} (h : channelCanonicalRow m = some row) :
    m.canonical = .string row.canonical ∧ row.confirmation = m.confirmation.column ∧ row.formatted = m.formatted ∧
      row.argcanonicals = m.argcanonicals ∧ row.questions = m.questions := by
  cases hc : m.canonical <;> simp only [channelCanonicalRow, Nullable.column, hc] at h
  case string s => cases h; exact ⟨rfl, rfl, rfl, rfl, rfl⟩
  all_goals cases h

/-- What is read of a function, from columns that kept its texts in this way. -/
theorem read_identical_iff (hdeq : ∀ v, deq v v = true) {fnDef : FunctionDef V} {what : ChannelType}
    {kept : SchemaChannelMetadata V} {row : ChannelCanonicalRow V}
    (hkept : kept = { functionToChannel fnDef with
      doc := kept.doc
      canonical := kept.canonical
      confirmation := kept.confirmation
      confirmation_remote := kept.confirmation_remote }) (hrow : channelCanonicalRow kept = some row) :
    deqChannel deq (processMetaRow (channelRow what kept) (some row)) (functionToChannel fnDef) = true ↔
      kept.canonical = (functionToChannel fnDef).canonical ∧
      Nullable.ofColumn kept.confirmation.column = (functionToChannel fnDef).confirmation ∧
      kept.doc = fnDef.doc.getD "" ∧ fnDef.extends_ ≠ [] ∧ ∃ b, fnDef.confirm = .bool b := by
  obtain ⟨hcanonical, hconfirmation, hformatted, hargs, hquestions⟩ := channelCanonicalRow_eq_some hrow
  have hpad : padArgs (functionToChannel fnDef).args (functionToChannel fnDef).types = (functionToChannel fnDef).args :=
    padArgs_eq (by simp [functionToChannel])
  have hconf : Nullable.ofColumn ((some row).bind (·.confirmation)) = Nullable.ofColumn kept.confirmation.column :=
    congrArg Nullable.ofColumn hconfirmation
  simp only [deqChannel, Bool.and_eq_true, beq_iff_eq, processMetaRow, hconf, Option.map_some, Option.getD_some,
    hformatted, hargs, hquestions]
  rw [hkept]
  simp only [channelRow, hpad, deqList_refl hdeq, and_true]
  rw [show (functionToChannel fnDef).extends_ = some fnDef.extends_ from rfl, extends_kept,
    show (functionToChannel fnDef).confirm = fnDef.confirm from rfl, confirm_kept,
    show (functionToChannel fnDef).doc = fnDef.doc.getD "" from rfl, and_assoc, and_assoc, and_assoc, hcanonical]
  rfl

theorem functionToChannel_canonical {fnDef : FunctionDef V} {c : String} :
    (functionToChannel fnDef).canonical = .string c ↔ fnDef.canonical.head? = some c := by
  unfold functionToChannel
  cases fnDef.canonical <;> simp

theorem functionToChannel_confirmation {fnDef : FunctionDef V} {c : String} :
    (functionToChannel fnDef).confirmation = .string c ↔ fnDef.confirmation = some c := by
  unfold functionToChannel
  cases fnDef.confirmation <;> simp

/-- A confirmation that is read back as it is in the class is a text that was kept. -/
theorem confirmation_kept {fnDef : FunctionDef V} {kept : Nullable}
    (h : (functionToChannel fnDef).confirmation.keep confirmationColumn = some kept)
    (hread : Nullable.ofColumn kept.column = (functionToChannel fnDef).confirmation) :
    ∃ c, fnDef.confirmation = some c ∧ confirmationColumn c = some c := by
  cases hc : kept.column with
  | none =>
    rw [hc] at hread
    unfold functionToChannel at hread
    cases hf : fnDef.confirmation <;> rw [hf] at hread <;> cases hread
  | some c =>
    rw [hc] at hread
    have hf : (functionToChannel fnDef).confirmation = .string c := hread.symm
    have hk : kept = .string c := by
      cases kept <;> cases hc
      rfl
    rw [hk] at h
    obtain ⟨t, ht, hcolumn⟩ := Nullable.keep_string.mp h
    obtain rfl : t = c := Nullable.string.inj (ht.symm.trans hf)
    exact ⟨t, functionToChannel_confirmation.mp hf, hcolumn⟩

theorem kept_of_read (hdeq : ∀ v, deq v v = true) {name : String} {fnDef : FunctionDef V} {read : SchemaChannelMetadata V}
    (hread : (functionToChannel fnDef).roundTrip name = some read)
    (hdeq' : deqChannel deq read (functionToChannel fnDef) = true) : fnDef.Kept name := by
  obtain ⟨kept, hkept, hread⟩ := Option.bind_eq_some_iff.mp hread
  obtain ⟨row, hrow, hread⟩ := Option.bind_eq_some_iff.mp hread
  obtain rfl := Option.some.inj hread
  obtain ⟨hname, hdoc, hcanonical, hconfirmation, hremote, hkept⟩ := columns_eq_some.mp hkept
  obtain ⟨hc, hf, hd, hext, hconfirm⟩ := (read_identical_iff hdeq hkept hrow).mp hdeq'
  have hstring := (channelCanonicalRow_eq_some hrow).1
  rw [hstring] at hcanonical hc
  obtain ⟨t, ht, hcolumn⟩ := Nullable.keep_string.mp hcanonical
  obtain rfl : row.canonical = t := Nullable.string.inj (hc.trans ht)
  obtain ⟨c, hcf, hccolumn⟩ := confirmation_kept hconfirmation hf
  rw [hd] at hdoc
  obtain ⟨remote, hremote, -⟩ := Option.map_eq_some_iff.mp hremote
  exact {
    name := nameColumn_isSome.mp hname
    doc := docColumn_self.mp hdoc
    canonical := ⟨_, functionToChannel_canonical.mp ht, canonicalColumn_self.mp hcolumn⟩
    confirmation := ⟨c, hcf, confirmationColumn_self.mp hccolumn⟩
    confirmation_remote := confirmationColumn_isSome.mp (Option.isSome_iff_exists.mpr ⟨remote, hremote⟩)
    extends_ := hext
    confirm := hconfirm }

theorem read_of_kept (hdeq : ∀ v, deq v v = true) {name : String} {fnDef : FunctionDef V} (h : fnDef.Kept name) :
    ∃ read, (functionToChannel fnDef).roundTrip name = some read ∧
      deqChannel deq read (functionToChannel fnDef) = true := by
  obtain ⟨canonical, hcanonical, hfits⟩ := h.canonical
  obtain ⟨confirmation, hconfirmation, hfits'⟩ := h.confirmation
  obtain ⟨remote, hremote⟩ := Option.isSome_iff_exists.mp (confirmationColumn_isSome.mpr h.confirmation_remote)
  have hc := functionToChannel_canonical.mpr hcanonical
  have hf := functionToChannel_confirmation.mpr hconfirmation
  let kept := { functionToChannel fnDef with confirmation_remote := Nullable.string remote }
  have hkept : (functionToChannel fnDef).columns name = some kept := by
    apply columns_eq_some.mpr
    refine ⟨nameColumn_isSome.mpr h.name, docColumn_self.mpr h.doc, ?_, ?_, ?_, rfl⟩
    · show (functionToChannel fnDef).canonical.keep _ = some (functionToChannel fnDef).canonical
      rw [hc]
      exact Nullable.keep_string.mpr ⟨canonical, rfl, canonicalColumn_self.mpr hfits⟩
    · show (functionToChannel fnDef).confirmation.keep _ = some (functionToChannel fnDef).confirmation
      rw [hf]
      exact Nullable.keep_string.mpr ⟨confirmation, rfl, confirmationColumn_self.mpr hfits'⟩
    · exact Nullable.keep_string.mpr ⟨_, rfl, hremote⟩
  obtain ⟨row, hrow⟩ : ∃ row, channelCanonicalRow kept = some row := channelCanonicalRow_isSome.mpr ⟨canonical, hc⟩
  refine ⟨processMetaRow (channelRow .query kept) (some row), ?_, (read_identical_iff hdeq rfl hrow).mpr ?_⟩
  · rw [SchemaChannelMetadata.roundTrip, hkept, Option.bind_eq_bind, Option.bind_some, hrow]
    rfl
  · refine ⟨rfl, ?_, rfl, h.extends_, h.confirm⟩
    show Nullable.ofColumn (functionToChannel fnDef).confirmation.column = (functionToChannel fnDef).confirmation
    rw [hf]
    rfl

end Compare

/-! ## All functions -/

/-- The metadata of a class that fits its columns. -/
theorem metas_columns_eq_some {metas kept : SchemaMetadata V} (htriggers : metas.triggers = Record.empty) :
    metas.columns = some kept ↔ metas.queries.traverse SchemaChannelMetadata.columns = some kept.queries ∧
      metas.actions.traverse SchemaChannelMetadata.columns = some kept.actions ∧
      kept = { metas with queries := kept.queries, actions := kept.actions } := by
  unfold SchemaMetadata.columns
  rw [htriggers, Record.traverse_empty, Option.bind_eq_bind, Option.bind_some]
  simp only [Option.bind_eq_some_iff]
  constructor
  · intro h
    obtain ⟨queries, hq, actions, ha, h⟩ := h
    obtain rfl := Option.some.inj h
    exact ⟨hq, ha, rfl⟩
  · intro h
    obtain ⟨hq, ha, h⟩ := h
    exact ⟨_, hq, _, ha, congrArg some h.symm⟩

theorem traverse_columns {source kept : Record (SchemaChannelMetadata V)}
    (h : source.traverse SchemaChannelMetadata.columns = some kept) {name : String} {m : SchemaChannelMetadata V}
    (hm : source.get? name = some m) : ∃ k, m.columns name = some k ∧ kept.get? name = some k := by
  obtain ⟨hall, rfl⟩ := Record.traverse_eq_some.mp h
  obtain ⟨k, hk⟩ := Option.isSome_iff_exists.mp (hall name m hm)
  exact ⟨k, hk, by rw [Record.get?_filterMap, hm, Option.bind_some, hk]⟩

theorem traverse_columns_back {source kept : Record (SchemaChannelMetadata V)}
    (h : source.traverse SchemaChannelMetadata.columns = some kept) {name : String} {k : SchemaChannelMetadata V}
    (hk : kept.get? name = some k) : ∃ m, source.get? name = some m ∧ m.columns name = some k := by
  obtain ⟨-, rfl⟩ := Record.traverse_eq_some.mp h
  rw [Record.get?_filterMap] at hk
  exact Option.bind_eq_some_iff.mp hk

/-- The rows that were stored of the channels of one type read as those channels. -/
theorem read_channels {channels : Record ChannelRow} {canonicals : Record (ChannelCanonicalRow V)} {what : ChannelType}
    {kept : Record (SchemaChannelMetadata V)} {name : String}
    (hrow : ∀ row, (channels.get? name = some row ∧ row.channel_type = what) ↔
      ∃ k, kept.get? name = some k ∧ channelRow what k = row)
    (hcanonical : ∀ k, kept.get? name = some k → ∃ row, channelCanonicalRow k = some row ∧ canonicals.get? name = some row) :
    (channels.filterMap fun name row =>
      if row.channel_type = what then some (processMetaRow row (canonicals.get? name)) else none).get? name =
      (kept.get? name).bind fun k => (channelCanonicalRow k).map fun row => processMetaRow (channelRow .query k) (some row) := by
  rw [Record.get?_filterMap]
  cases hk : kept.get? name with
  | none =>
    rw [Option.bind_none, Option.bind_eq_none_iff]
    intro row hr
    rw [if_neg]
    intro ht
    obtain ⟨k, hk', -⟩ := (hrow row).mp ⟨hr, ht⟩
    rw [hk] at hk'
    cases hk'
  | some k =>
    obtain ⟨hr, ht⟩ := (hrow _).mpr ⟨k, hk, rfl⟩
    obtain ⟨row, hk', hc⟩ := hcanonical k hk
    rw [hr, Option.bind_some, Option.bind_some, if_pos ht, hc, hk', Option.map_some]
    rfl

theorem channelRows_names (metas : SchemaMetadata V) :
    (channelRows metas).map Prod.fst = metas.triggers.keys ++ metas.queries.keys ++ metas.actions.keys := by
  simp only [channelRows, makeList, Record.keys, List.map_append, List.map_map]
  rfl

theorem channelCanonicalRows_names {metas : SchemaMetadata V} {rows : List (String × ChannelCanonicalRow V)}
    (h : channelCanonicalRows metas = some rows) :
    rows.map Prod.fst = metas.triggers.keys ++ metas.queries.keys ++ metas.actions.keys := by
  rw [Result.map_of_mapM (g := Prod.fst) ?_ h, List.map_append, List.map_append]
  · rfl
  · intro x row hx
    obtain ⟨c, -, rfl⟩ := Option.map_eq_some_iff.mp hx
    rfl

theorem channelRows_nodup {metas : SchemaMetadata V} (h : metas.triggers = Record.empty) :
    ((channelRows metas).map Prod.fst).Nodup ↔ ∀ name, name ∈ metas.queries.keys → name ∉ metas.actions.keys := by
  rw [channelRows_names, h, List.nodup_append]
  constructor
  · intro h
    obtain ⟨_, _, hne⟩ := h
    intro name hq ha
    exact hne name (List.mem_append_right _ hq) name ha rfl
  · intro hne
    refine ⟨metas.queries.nodup, metas.actions.nodup, ?_⟩
    intro a hq b ha hab
    exact hne a hq (hab ▸ ha)

section Store

variable {db db' : Db V} {id version : Nat} {language : String} {metas : SchemaMetadata V}

/-- The first rows of a version are the rows of the metadata. -/
theorem insertChannels_fresh (hchannels : db.device_schema_channels id version = Record.empty)
    (hcanonicals : db.device_schema_channel_canonicals id version language = Record.empty)
    (h : insertChannels db id version language metas = some db') :
    (db'.device_schema_channels id version).entries = channelRows metas ∧
      channelCanonicalRows metas = some (db'.device_schema_channel_canonicals id version language).entries := by
  obtain ⟨channels, hc, h⟩ := Option.bind_eq_some_iff.mp h
  obtain ⟨rows, hrows, h⟩ := Option.bind_eq_some_iff.mp h
  obtain ⟨canonicals, hk, h⟩ := Option.bind_eq_some_iff.mp h
  obtain rfl := Option.some.inj h
  rw [hchannels] at hc
  rw [hcanonicals] at hk
  simp only [Function.update_self]
  rw [hrows, Record.append_entries hc, Record.append_entries hk]
  exact ⟨rfl, rfl⟩

/-- A version is stored when its names are different and it has all its canonical forms. -/
theorem insertChannels_isSome (hchannels : db.device_schema_channels id version = Record.empty)
    (hcanonicals : db.device_schema_channel_canonicals id version language = Record.empty) :
    (∃ db', insertChannels db id version language metas = some db') ↔
      ((channelRows metas).map Prod.fst).Nodup ∧ ∃ rows, channelCanonicalRows metas = some rows := by
  constructor
  · intro h
    obtain ⟨db', h⟩ := h
    obtain ⟨hc, hk⟩ := insertChannels_fresh hchannels hcanonicals h
    exact ⟨hc ▸ (db'.device_schema_channels id version).nodup, _, hk⟩
  · intro h
    obtain ⟨hnodup, rows, hrows⟩ := h
    have hrows' : (rows.map Prod.fst).Nodup := by
      rw [channelCanonicalRows_names hrows, ← channelRows_names]
      exact hnodup
    obtain ⟨channels, hc⟩ : ∃ t, Record.empty.append (channelRows metas) = some t := Record.append_isSome.mpr hnodup
    obtain ⟨canonicals, hk⟩ : ∃ t, Record.empty.append rows = some t := Record.append_isSome.mpr hrows'
    unfold insertChannels
    rw [hchannels, hc, Option.bind_eq_bind, Option.bind_some, hrows, Option.bind_eq_bind, Option.bind_some, hcanonicals, hk]
    exact ⟨_, rfl⟩

/-- What a function reads back as is what is read of what was kept of it. -/
theorem roundTrip_of_kept {source kept : Record (SchemaChannelMetadata V)}
    (h : source.traverse SchemaChannelMetadata.columns = some kept) (name : String) :
    ((kept.get? name).bind fun k => (channelCanonicalRow k).map fun row => processMetaRow (channelRow .query k) (some row)) =
      (source.get? name).bind (·.roundTrip name) := by
  cases hm : source.get? name with
  | none =>
    cases hk : kept.get? name with
    | none => rfl
    | some k =>
      obtain ⟨m, hm', -⟩ := traverse_columns_back h hk
      rw [hm] at hm'
      cases hm'
  | some m =>
    obtain ⟨k, hcolumns, hk⟩ := traverse_columns h hm
    rw [hk, Option.bind_some, Option.bind_some, SchemaChannelMetadata.roundTrip, hcolumns, Option.bind_eq_bind,
      Option.bind_some]
    cases channelCanonicalRow k <;> rfl

/-- The canonicals of a function that was stored. -/
theorem canonicals_of_rows {kept : SchemaMetadata V} {canonicals : Record (ChannelCanonicalRow V)}
    (h : channelCanonicalRows kept = some canonicals.entries) {name : String} {k : SchemaChannelMetadata V}
    (hk : (name, k) ∈ kept.triggers.entries ++ kept.queries.entries ++ kept.actions.entries) :
    ∃ row, channelCanonicalRow k = some row ∧ canonicals.get? name = some row := by
  obtain ⟨x, hx⟩ := Option.isSome_iff_exists.mp (Result.mapM_isSome.mp ⟨_, h⟩ (name, k) hk)
  obtain ⟨row, hrow, rfl⟩ := Option.map_eq_some_iff.mp hx
  exact ⟨row, hrow, Record.mem_entries.mp ((Result.mem_of_mapM h).mpr ⟨(name, k), hk, hx⟩)⟩

/-- A class that was stored is read as its functions are, each by itself. -/
theorem storeChannels_read (hchannels : db.device_schema_channels id version = Record.empty)
    (hcanonicals : db.device_schema_channel_canonicals id version language = Record.empty)
    (htriggers : metas.triggers = Record.empty) (h : storeChannels db id version language metas = some db')
    (schema : SchemaRow) (name : String) :
    (getMetasByKindAtVersion db' (id, schema) version language).queries.get? name =
        (metas.queries.get? name).bind (·.roundTrip name) ∧
      (getMetasByKindAtVersion db' (id, schema) version language).actions.get? name =
        (metas.actions.get? name).bind (·.roundTrip name) := by
  obtain ⟨kept, hkept, h⟩ := Option.bind_eq_some_iff.mp h
  obtain ⟨hq, ha, hk⟩ := (metas_columns_eq_some htriggers).mp hkept
  have hempty : kept.triggers = Record.empty := by
    rw [hk]
    exact htriggers
  obtain ⟨hentries, hrows⟩ := insertChannels_fresh hchannels hcanonicals h
  have hrow : ∀ row, (db'.device_schema_channels id version).get? name = some row ↔
      (∃ m, kept.queries.get? name = some m ∧ channelRow .query m = row) ∨
        ∃ m, kept.actions.get? name = some m ∧ channelRow .action m = row := by
    intro row
    rw [← Record.mem_entries, hentries, mem_channelRows hempty]
  constructor
  · rw [← roundTrip_of_kept hq name]
    apply read_channels
    · intro row
      rw [hrow]
      constructor
      · intro h
        obtain ⟨hr, ht⟩ := h
        rcases hr with hr | ⟨m, -, rfl⟩
        · exact hr
        · cases ht
      · intro h
        obtain ⟨m, hm, hr⟩ := h
        exact ⟨Or.inl ⟨m, hm, hr⟩, hr ▸ rfl⟩
    · intro k hk'
      exact canonicals_of_rows hrows (List.mem_append_left _ (List.mem_append_right _ (Record.mem_entries.mpr hk')))
  · rw [← roundTrip_of_kept ha name]
    apply read_channels
    · intro row
      rw [hrow]
      constructor
      · intro h
        obtain ⟨hr, ht⟩ := h
        rcases hr with ⟨m, -, rfl⟩ | hr
        · cases ht
        · exact hr
      · intro h
        obtain ⟨m, hm, hr⟩ := h
        exact ⟨Or.inr ⟨m, hm, hr⟩, hr ▸ rfl⟩
    · intro k hk'
      exact canonicals_of_rows hrows (List.mem_append_right _ (Record.mem_entries.mpr hk'))

theorem roundTrip_isSome {name : String} {m : SchemaChannelMetadata V} :
    (m.roundTrip name).isSome = true ↔ ∃ kept, m.columns name = some kept ∧ (channelCanonicalRow kept).isSome = true := by
  unfold SchemaChannelMetadata.roundTrip
  constructor
  · intro h
    obtain ⟨read, h⟩ := Option.isSome_iff_exists.mp h
    obtain ⟨kept, hkept, h⟩ := Option.bind_eq_some_iff.mp h
    obtain ⟨row, hrow, -⟩ := Option.bind_eq_some_iff.mp h
    exact ⟨kept, hkept, Option.isSome_iff_exists.mpr ⟨row, hrow⟩⟩
  · intro h
    obtain ⟨kept, hkept, hrow⟩ := h
    obtain ⟨row, hrow⟩ := Option.isSome_iff_exists.mp hrow
    rw [hkept, Option.bind_eq_bind, Option.bind_some, hrow]
    rfl

theorem traverse_columns_keys {source kept : Record (SchemaChannelMetadata V)}
    (h : source.traverse SchemaChannelMetadata.columns = some kept) (name : String) : name ∈ kept.keys ↔ name ∈ source.keys := by
  rw [Record.mem_keys, Record.mem_keys]
  constructor
  · intro h
    obtain ⟨k, hk⟩ := h
    obtain ⟨m, hm, -⟩ := traverse_columns_back h hk
    exact ⟨m, hm⟩
  · intro h
    obtain ⟨m, hm⟩ := h
    obtain ⟨k, -, hk⟩ := traverse_columns h hm
    exact ⟨k, hk⟩

/-- Every function can be stored, and read back. -/
def Storable (source : Record (SchemaChannelMetadata V)) : Prop :=
  ∀ name m, source.get? name = some m → (m.roundTrip name).isSome = true

theorem storable_traverse {source : Record (SchemaChannelMetadata V)} (h : Storable source) :
    ∃ kept, source.traverse SchemaChannelMetadata.columns = some kept ∧
      ∀ name k, (name, k) ∈ kept.entries → (channelCanonicalRow k).isSome = true := by
  refine ⟨_, Record.traverse_eq_some.mpr ⟨?_, rfl⟩, ?_⟩
  · intro name m hm
    obtain ⟨k, hk, -⟩ := roundTrip_isSome.mp (h name m hm)
    exact Option.isSome_iff_exists.mpr ⟨k, hk⟩
  · intro name k hk
    rw [Record.mem_entries, Record.get?_filterMap] at hk
    obtain ⟨m, hm, hcolumns⟩ := Option.bind_eq_some_iff.mp hk
    obtain ⟨k', hk', hrow⟩ := roundTrip_isSome.mp (h name m hm)
    obtain rfl : k = k' := Option.some.inj (hcolumns.symm.trans hk')
    exact hrow

theorem storeChannels_isSome (hchannels : db.device_schema_channels id version = Record.empty)
    (hcanonicals : db.device_schema_channel_canonicals id version language = Record.empty)
    (htriggers : metas.triggers = Record.empty) :
    (∃ db', storeChannels db id version language metas = some db') ↔
      Storable metas.queries ∧ Storable metas.actions ∧ ∀ name, name ∈ metas.queries.keys → name ∉ metas.actions.keys := by
  constructor
  · intro h
    obtain ⟨db', h⟩ := h
    obtain ⟨kept, hkept, h⟩ := Option.bind_eq_some_iff.mp h
    obtain ⟨hq, ha, hk⟩ := (metas_columns_eq_some htriggers).mp hkept
    have hempty : kept.triggers = Record.empty := by
      rw [hk]
      exact htriggers
    obtain ⟨hnodup, rows, -⟩ := (insertChannels_isSome hchannels hcanonicals).mp ⟨db', h⟩
    have hrows := (insertChannels_fresh hchannels hcanonicals h).2
    refine ⟨?_, ?_, ?_⟩
    · intro name m hm
      obtain ⟨k, hcolumns, hk'⟩ := traverse_columns hq hm
      obtain ⟨row, hrow, -⟩ := canonicals_of_rows hrows
        (List.mem_append_left _ (List.mem_append_right _ (Record.mem_entries.mpr hk')))
      exact roundTrip_isSome.mpr ⟨k, hcolumns, Option.isSome_iff_exists.mpr ⟨row, hrow⟩⟩
    · intro name m hm
      obtain ⟨k, hcolumns, hk'⟩ := traverse_columns ha hm
      obtain ⟨row, hrow, -⟩ := canonicals_of_rows hrows (List.mem_append_right _ (Record.mem_entries.mpr hk'))
      exact roundTrip_isSome.mpr ⟨k, hcolumns, Option.isSome_iff_exists.mpr ⟨row, hrow⟩⟩
    · intro name hname
      rw [← traverse_columns_keys ha]
      exact (channelRows_nodup hempty).mp hnodup name ((traverse_columns_keys hq name).mpr hname)
  · intro h
    obtain ⟨hq, ha, hapart⟩ := h
    obtain ⟨queries, hqueries, hqrows⟩ := storable_traverse hq
    obtain ⟨actions, hactions, harows⟩ := storable_traverse ha
    let kept := { metas with queries, actions }
    have hkept : metas.columns = some kept := (metas_columns_eq_some htriggers).mpr ⟨hqueries, hactions, rfl⟩
    have hempty : kept.triggers = Record.empty := htriggers
    have hnodup : ((channelRows kept).map Prod.fst).Nodup := by
      apply (channelRows_nodup hempty).mpr
      intro name hname
      rw [traverse_columns_keys hactions]
      exact hapart name ((traverse_columns_keys hqueries name).mp hname)
    have hrows : ∃ rows, channelCanonicalRows kept = some rows := by
      apply Result.mapM_isSome.mpr
      intro x hx
      rw [Option.isSome_map]
      rw [hempty] at hx
      rcases List.mem_append.mp hx with hx | hx
      · exact hqrows x.1 x.2 hx
      · exact harows x.1 x.2 hx
    obtain ⟨db', h⟩ := (insertChannels_isSome hchannels hcanonicals).mpr ⟨hnodup, hrows⟩
    refine ⟨db', ?_⟩
    rw [storeChannels, hkept]
    exact h

end Store

/-! ## The round trip -/

section RoundTrip

variable {deq : V → V → Bool} {functions : Record (FunctionDef V)}

theorem get?_functions {name : String} {fnDef : FunctionDef V} (h : functions.get? name = some fnDef) :
    (functions.map fun _ f => functionToChannel f).get? name = some (functionToChannel fnDef) := by
  rw [Record.get?_map, h, Option.map_some]

theorem storable_of_kept (hdeq : ∀ v, deq v v = true) (h : ∀ name fnDef, functions.get? name = some fnDef → fnDef.Kept name) :
    Storable (functions.map fun _ f => functionToChannel f) := by
  intro name m hm
  rw [Record.get?_map] at hm
  obtain ⟨fnDef, hf, rfl⟩ := Option.map_eq_some_iff.mp hm
  obtain ⟨read, hread, -⟩ := read_of_kept hdeq (h name fnDef hf)
  exact Option.isSome_iff_exists.mpr ⟨read, hread⟩

/-- Functions read back are identical when each is kept. -/
theorem identicalFunctions_iff (hdeq : ∀ v, deq v v = true) {one : Record (SchemaChannelMetadata V)}
    (hread : ∀ name, one.get? name =
      ((functions.map fun _ f => functionToChannel f).get? name).bind (·.roundTrip name)) :
    identicalFunctions deq one (functions.map fun _ f => functionToChannel f) = true ↔
      ∀ name fnDef, functions.get? name = some fnDef → fnDef.Kept name := by
  constructor
  · intro h name fnDef hf
    have htwo := get?_functions hf
    obtain ⟨read, hone⟩ := (identicalFunctions_mem h).mpr ⟨_, htwo⟩
    have hd := identicalFunctions_deq h hone htwo
    rw [hread, htwo, Option.bind_some] at hone
    exact kept_of_read hdeq hone hd
  · intro h
    have hone : ∀ name, name ∈ one.keys →
        ∃ read fnDef, one.get? name = some read ∧ functions.get? name = some fnDef ∧
          deqChannel deq read (functionToChannel fnDef) = true := by
      intro name hname
      obtain ⟨read, hget⟩ := Record.mem_keys.mp hname
      have hround := hget
      rw [hread, Record.get?_map] at hround
      obtain ⟨m, hm, hround⟩ := Option.bind_eq_some_iff.mp hround
      obtain ⟨fnDef, hf, rfl⟩ := Option.map_eq_some_iff.mp hm
      obtain ⟨read', hread', hd⟩ := read_of_kept hdeq (h name fnDef hf)
      obtain rfl : read = read' := Option.some.inj (hround.symm.trans hread')
      exact ⟨read, fnDef, hget, hf, hd⟩
    apply Bool.and_eq_true_iff.mpr
    constructor
    · apply beq_iff_eq.mpr
      apply (Utf16.sort_eq_sort_iff one.nodup (Record.nodup _)).mpr
      intro name
      constructor
      · intro hname
        obtain ⟨-, fnDef, -, hf, -⟩ := hone name hname
        exact Record.mem_keys.mpr ⟨_, get?_functions hf⟩
      · intro hname
        obtain ⟨m, hm⟩ := Record.mem_keys.mp hname
        obtain ⟨read, hround⟩ := Option.isSome_iff_exists.mp (storable_of_kept hdeq h name m hm)
        refine Record.mem_keys.mpr ⟨read, ?_⟩
        rw [hread, hm, Option.bind_some, hround]
    · apply List.all_eq_true.mpr
      intro name hname
      obtain ⟨read, fnDef, hget, hf, hd⟩ := hone name (Utf16.mem_sort.mp hname)
      rw [hget, get?_functions hf]
      exact hd

end RoundTrip

section Import

variable {P : Packages V} {db : Db V} {id : Nat} {existing : SchemaRow} {classDef : ClassDef V}

/-- An import leaves the schema alone when its metadata is what is stored. -/
theorem ensurePrimarySchema_alone_iff (hkind : getByKind db classDef.kind = some (id, existing)) {developer_org : Nat}
    {admin approve : Bool} (howner : existing.owner = some developer_org ∨ admin = true) :
    (∃ db', ensurePrimarySchema P db classDef developer_org admin approve = some (db', id, false)) ↔
      Identical P db id existing classDef := by
  constructor
  · intro h
    obtain ⟨db', h⟩ := h
    cases ensurePrimarySchema_cases h with
    | alone _ existing' hkind' _ hidentical =>
      obtain rfl : existing = existing' := (Prod.mk.inj (Option.some.inj (hkind.symm.trans hkind'))).2
      exact hidentical
  · intro h
    have hallowed : ¬(decide (existing.owner ≠ some developer_org) && !admin) = true := by
      rcases howner with ho | ho <;> simp [ho]
    unfold Identical at h
    simp only [ensurePrimarySchema, hkind]
    rw [if_neg hallowed, if_pos h]
    exact ⟨_, rfl⟩

/-- Rows of functions are all that is stored. -/
theorem storeChannels_schemas {db' : Db V} {version : Nat} {language : String} {metas : SchemaMetadata V}
    (h : storeChannels db id version language metas = some db') :
    db'.device_schema = db.device_schema := by
  obtain ⟨kept, -, h⟩ := Option.bind_eq_some_iff.mp h
  obtain ⟨_, _, -, rfl⟩ := insertChannels_some h
  rfl

variable {db' : Db V} (hdeq : ∀ v, P.deq v v = true)
  (hchannels : db.device_schema_channels id existing.developer_version = Record.empty)
  (hcanonicals : db.device_schema_channel_canonicals id existing.developer_version "en" = Record.empty)

include hdeq hchannels hcanonicals

theorem identical_iff_kept (h : storeChannels db id existing.developer_version "en" (classDefToSchema classDef) = some db') :
    Identical P db' id existing classDef ↔ classDef.Kept := by
  have hread := storeChannels_read hchannels hcanonicals rfl h existing
  have hapart := ((storeChannels_isSome hchannels hcanonicals rfl).mp ⟨db', h⟩).2.2
  unfold Identical areMetaIdentical
  rw [Bool.and_eq_true_iff]
  constructor
  · intro h
    obtain ⟨hq, ha⟩ := h
    exact {
      queries := (identicalFunctions_iff hdeq fun name => (hread name).1).mp hq
      actions := (identicalFunctions_iff hdeq fun name => (hread name).2).mp ha
      apart := by simpa only [classDefToSchema, Record.keys_map] using hapart }
  · intro hkept
    exact ⟨(identicalFunctions_iff hdeq fun name => (hread name).1).mpr hkept.queries,
      (identicalFunctions_iff hdeq fun name => (hread name).2).mpr hkept.actions⟩

theorem store_of_kept (h : classDef.Kept) :
    ∃ db', storeChannels db id existing.developer_version "en" (classDefToSchema classDef) = some db' := by
  apply (storeChannels_isSome hchannels hcanonicals rfl).mpr
  refine ⟨storable_of_kept hdeq h.queries, storable_of_kept hdeq h.actions, ?_⟩
  simpa only [classDefToSchema, Record.keys_map] using h.apart

/-- A class that is stored as a new version is read back identical to itself, and is left
    alone when it is imported again, exactly when its functions are kept. -/
theorem schema_read_back_iff (hkind : getByKind db classDef.kind = some (id, existing)) {developer_org : Nat}
    {admin approve : Bool} (howner : existing.owner = some developer_org ∨ admin = true) :
    ((∃ db', storeChannels db id existing.developer_version "en" (classDefToSchema classDef) = some db' ∧
        areMetaIdentical P.deq (getMetasByKindAtVersion db' (id, existing) existing.developer_version "en")
          (classDefToSchema classDef) = true) ↔ classDef.Kept) ∧
      ((∃ db' db'', storeChannels db id existing.developer_version "en" (classDefToSchema classDef) = some db' ∧
        ensurePrimarySchema P db' classDef developer_org admin approve = some (db'', id, false)) ↔ classDef.Kept) := by
  constructor
  · constructor
    · intro h
      obtain ⟨db', h, hidentical⟩ := h
      exact (identical_iff_kept hdeq hchannels hcanonicals h).mp hidentical
    · intro hkept
      obtain ⟨db', h⟩ := store_of_kept hdeq hchannels hcanonicals hkept
      exact ⟨db', h, (identical_iff_kept hdeq hchannels hcanonicals h).mpr hkept⟩
  · have hagain : ∀ {db'}, storeChannels db id existing.developer_version "en" (classDefToSchema classDef) = some db' →
        ((∃ db'', ensurePrimarySchema P db' classDef developer_org admin approve = some (db'', id, false)) ↔ classDef.Kept) := by
      intro db' h
      have hkind' : getByKind db' classDef.kind = some (id, existing) := by
        rw [getByKind, storeChannels_schemas h]
        exact hkind
      rw [ensurePrimarySchema_alone_iff hkind' howner]
      exact identical_iff_kept hdeq hchannels hcanonicals h
    constructor
    · intro h
      obtain ⟨db', db'', h, halone⟩ := h
      exact (hagain h).mp ⟨db'', halone⟩
    · intro hkept
      obtain ⟨db', h⟩ := store_of_kept hdeq hchannels hcanonicals hkept
      obtain ⟨db'', halone⟩ := (hagain h).mpr hkept
      exact ⟨db', db'', h, halone⟩

end Import

/-! ## A query that extends nothing -/

def apod (extends_ : List String) : FunctionDef String where
  doc := none
  confirmation := some "the picture of the day"
  confirmation_remote := none
  canonical := ["picture of the day"]
  formatted := []
  is_list := false
  is_monitorable := true
  confirm := .bool false
  extends_ := extends_
  args := []

def classOfQuery (extends_ : List String) : ClassDef String where
  kind := "com.nasa"
  canonical := "nasa"
  queries := ⟨[("apod", apod extends_)], List.nodup_singleton _⟩
  actions := Record.empty
  extends_ := []
  child_types := []
  system := false
  is_abstract := false
  loader := "org.thingpedia.v2"
  config := ⟨"org.thingpedia.config.none", [], []⟩

def plainPackages : Packages String where
  prettyprint _ _ := ""
  tokenize phrase := phrase
  deq a b := a == b

theorem schema_read_back_apod :
    ∃ db', storeChannels ({ Db.empty with device_schema := Table.empty.insert (.first (classOfQuery ["base"]) 7 true) })
        1 0 "en" (classDefToSchema (classOfQuery ["base"])) = some db' ∧
      areMetaIdentical plainPackages.deq
        (getMetasByKindAtVersion db' (1, .first (classOfQuery ["base"]) 7 true) 0 "en")
        (classDefToSchema (classOfQuery ["base"])) = true := by
  refine (@schema_read_back_iff _ plainPackages _ 1 (.first (classOfQuery ["base"]) 7 true) (classOfQuery ["base"])
    (fun v => beq_self_eq_true v) rfl rfl rfl 7 false true (Or.inl rfl)).1.mpr ⟨?_, ?_, ?_⟩
  · intro name fnDef hf
    obtain ⟨rfl, rfl⟩ := Prod.mk.inj (List.mem_singleton.mp (Record.mem_entries.mpr hf))
    exact ⟨by decide, by decide, ⟨_, rfl, by decide⟩, ⟨_, rfl, by decide⟩, by decide, by decide, ⟨_, rfl⟩⟩
  · intro name fnDef hf
    cases hf
  · intro name _
    exact List.not_mem_nil

/-- It is not identical to itself once it is stored, and imported again it makes a version. -/
theorem a_plain_query_differs :
    (storeChannels Db.empty 1 0 "en" (classDefToSchema (classOfQuery []))).map (fun db =>
        areMetaIdentical plainPackages.deq (getMetasByKindAtVersion db (1, .first (classOfQuery []) 7 true) 0 "en")
          (classDefToSchema (classOfQuery []))) = some false ∧
      ((ensurePrimarySchema plainPackages Db.empty (classOfQuery []) 7 false true).bind fun first =>
        (ensurePrimarySchema plainPackages first.1 (classOfQuery []) 7 false true).map fun again =>
          (again.2.2, (again.1.device_schema.get? 1).map (·.developer_version))) = some (true, some 1) := by
  decide

end GenieCloud.Thingpedia
