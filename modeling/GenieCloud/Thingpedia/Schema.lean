/-
  GenieCloud.Thingpedia.Schema — what Thingpedia keeps of the functions of a class
  (`util/manifest_to_schema.ts`, `insertChannels` and `processMetaRows` of
  `model/schema.ts`, `areMetaIdentical` of `util/import_device.ts`).

  `classDefToSchema` takes the metadata of each function from a class definition; a
  function is then stored as a row of `device_schema_channels` and one of
  `device_schema_channel_canonicals`, and read back as metadata. `row_iff_identical`: when
  `areMetaIdentical` holds of metadata read back and of a class, the rows read are the
  rows the class would store. It does not hold of a class whose own rows were read if a
  function extends nothing (`extends_of_identical`): that reads back as `null`, and a class
  says `[]`.

  A class definition is what the validation of an upload returns: its functions have
  their `canonical` and `confirm` annotations filled in, and its arguments their
  `canonical`. Annotations of any JSON type are of type `V`, compared by `deep-equal`.
  Columns that hold the JSON text of a value hold the value.
-/

import GenieCloud.Lib.Record

namespace GenieCloud.Thingpedia

open GenieCloud.Lib

variable {V : Type}

/-! ## Classes -/

structure ArgumentDef (V : Type) where
  name : String
  type : String
  canonical : V
  prompt : Option String
  required : Bool
  is_input : Bool
  string_values : Option String
  deriving DecidableEq, Repr

inductive Confirm | bool (b : Bool) | enum (s : String)
  deriving DecidableEq, Repr

structure FunctionDef (V : Type) where
  doc : Option String
  confirmation : Option String
  confirmation_remote : Option String
  canonical : List String
  formatted : List V
  is_list : Bool
  is_monitorable : Bool
  confirm : Confirm
  extends_ : List String
  args : List (ArgumentDef V)
  deriving DecidableEq, Repr

/-- A form field's type, as far as the factory tells types apart. -/
inductive ParamType | entity (type : String) | number | measure | boolean | other
  deriving DecidableEq, Repr

/-- The config mixin: its module, and the types under its `params` or `extra_params`. -/
structure Config where
  module : String
  params : List (String × ParamType)
  extra_params : List (String × ParamType)
  deriving DecidableEq, Repr

structure ClassDef (V : Type) where
  kind : String
  canonical : String
  queries : Record (FunctionDef V)
  actions : Record (FunctionDef V)
  extends_ : List String
  child_types : List String
  system : Bool
  is_abstract : Bool
  /-- The module of the loader mixin. -/
  loader : String
  config : Config

/-! ## Metadata -/

/-- A string, or how it is missing: strict equality tells `undefined` from `null`. -/
inductive Nullable | undefined | null | string (s : String)
  deriving DecidableEq, Repr

structure SchemaChannelMetadata (V : Type) where
  canonical : Nullable
  confirmation : Nullable
  confirmation_remote : Nullable
  doc : String
  /-- `none` is `null`. -/
  extends_ : Option (List String)
  types : List String
  args : List String
  required : List Bool
  is_input : List Bool
  string_values : List (Option String)
  formatted : List V
  argcanonicals : List V
  questions : List String
  is_list : Bool
  is_monitorable : Bool
  confirm : Confirm
  deriving DecidableEq, Repr

structure SchemaMetadata (V : Type) where
  kind : String
  kind_type : String
  kind_canonical : String
  triggers : Record (SchemaChannelMetadata V)
  queries : Record (SchemaChannelMetadata V)
  actions : Record (SchemaChannelMetadata V)

def functionToChannel (fnDef : FunctionDef V) : SchemaChannelMetadata V where
  canonical := match fnDef.canonical with | [] => .undefined | c :: _ => .string c
  confirmation := match fnDef.confirmation with | none => .undefined | some c => .string c
  confirmation_remote := .string (fnDef.confirmation_remote.getD "")
  doc := fnDef.doc.getD ""
  extends_ := some fnDef.extends_
  types := fnDef.args.map (·.type)
  args := fnDef.args.map (·.name)
  required := fnDef.args.map (·.required)
  is_input := fnDef.args.map (·.is_input)
  string_values := fnDef.args.map (·.string_values)
  formatted := fnDef.formatted
  argcanonicals := fnDef.args.map (·.canonical)
  questions := fnDef.args.map fun arg => arg.prompt.getD ""
  is_list := fnDef.is_list
  is_monitorable := fnDef.is_monitorable
  confirm := fnDef.confirm

def classDefToSchema (classDef : ClassDef V) : SchemaMetadata V where
  kind := classDef.kind
  kind_type := "primary"
  kind_canonical := classDef.canonical
  triggers := Record.empty
  queries := classDef.queries.map fun _ fnDef => functionToChannel fnDef
  actions := classDef.actions.map fun _ fnDef => functionToChannel fnDef

/-! ## Rows -/

inductive ChannelType | trigger | action | query
  deriving DecidableEq, Repr

/-- A row of `device_schema_channels`, less its primary key (schema, version and name). -/
structure ChannelRow where
  channel_type : ChannelType
  doc : String
  extends_ : Option (List String)
  types : List String
  argnames : List String
  required : List Bool
  is_input : List Bool
  string_values : List (Option String)
  is_list : Bool
  is_monitorable : Bool
  confirm : Bool
  deriving DecidableEq, Repr

/-- A row of `device_schema_channel_canonicals`, less its primary key. -/
structure ChannelCanonicalRow (V : Type) where
  canonical : String
  confirmation : Option String
  confirmation_remote : Option String
  formatted : List V
  argcanonicals : List V
  questions : List String
  deriving DecidableEq, Repr

def Nullable.column : Nullable → Option String
  | .string s => some s
  | _ => none

/-- `!!meta.confirm`: an enumeration value is not the empty text. -/
def Confirm.column : Confirm → Bool
  | .bool b => b
  | .enum s => s != ""

def channelRow (what : ChannelType) (m : SchemaChannelMetadata V) : ChannelRow where
  channel_type := what
  doc := m.doc
  extends_ := m.extends_.filter (· != [])
  types := m.types
  argnames := m.args
  required := m.required
  is_input := m.is_input
  string_values := m.string_values
  is_list := m.is_list
  is_monitorable := m.is_monitorable
  confirm := m.confirm.column

/-- The column `canonical` is not nullable. -/
def channelCanonicalRow (m : SchemaChannelMetadata V) : Option (ChannelCanonicalRow V) := do
  let canonical ← m.canonical.column
  return {
    canonical
    confirmation := m.confirmation.column
    confirmation_remote := m.confirmation_remote.column
    formatted := m.formatted
    argcanonicals := m.argcanonicals
    questions := m.questions }

def makeList (what : ChannelType) (source : Record (SchemaChannelMetadata V)) : List (String × ChannelRow) :=
  source.entries.map fun x => (x.1, channelRow what x.2)

def channelRows (metas : SchemaMetadata V) : List (String × ChannelRow) :=
  makeList .trigger metas.triggers ++ makeList .query metas.queries ++ makeList .action metas.actions

def channelCanonicalRows (metas : SchemaMetadata V) : Option (List (String × ChannelCanonicalRow V)) :=
  (metas.triggers.entries ++ metas.queries.entries ++ metas.actions.entries).mapM fun x =>
    (channelCanonicalRow x.2).map (x.1, ·)

/-! ## Reading rows back -/

def padArgs (args types : List String) : List String :=
  args ++ (List.range' args.length (types.length - args.length)).map fun i => "arg" ++ toString (i + 1)

def Nullable.ofColumn : Option String → Nullable
  | none => .null
  | some s => .string s

/-- What `processMetaRows` makes of a channel and, in the language asked for, its row of
    canonicals (a left join). -/
def processMetaRow (row : ChannelRow) (canonicals : Option (ChannelCanonicalRow V)) : SchemaChannelMetadata V where
  canonical := .ofColumn (canonicals.map (·.canonical))
  confirmation := .ofColumn (canonicals.bind (·.confirmation))
  confirmation_remote := .ofColumn
    (((canonicals.bind (·.confirmation_remote)).filter (· != "")).or (canonicals.bind (·.confirmation)))
  doc := row.doc
  extends_ := row.extends_
  types := row.types
  args := padArgs row.argnames row.types
  required := row.required
  is_input := row.is_input
  string_values := row.string_values
  formatted := (canonicals.map (·.formatted)).getD []
  argcanonicals := (canonicals.map (·.argcanonicals)).getD []
  questions := (canonicals.map (·.questions)).getD []
  is_list := row.is_list
  is_monitorable := row.is_monitorable
  confirm := .bool row.confirm

def processMetaRows (kind kind_type kind_canonical : String) (channels : Record ChannelRow)
    (canonicals : Record (ChannelCanonicalRow V)) : SchemaMetadata V :=
  let ofType (what : ChannelType) := channels.filterMap fun name row =>
    if row.channel_type = what then some (processMetaRow row (canonicals.get? name)) else none
  { kind, kind_type, kind_canonical, triggers := ofType .trigger, queries := ofType .query, actions := ofType .action }

/-! ## Comparing metadata -/

section Compare

variable (deq : V → V → Bool)

def deqList : List V → List V → Bool
  | [], [] => true
  | x :: xs, y :: ys => deq x y && deqList xs ys
  | _, _ => false

/-- `deep-equal` on two channels, once the second's `confirmation_remote` is written into
    the first. -/
def deqChannel (one two : SchemaChannelMetadata V) : Bool :=
  one.canonical == two.canonical && one.confirmation == two.confirmation && one.doc == two.doc &&
    one.extends_ == two.extends_ && one.types == two.types && one.args == two.args && one.required == two.required &&
    one.is_input == two.is_input && one.string_values == two.string_values && deqList deq one.formatted two.formatted &&
    deqList deq one.argcanonicals two.argcanonicals && one.questions == two.questions && one.is_list == two.is_list &&
    one.is_monitorable == two.is_monitorable && one.confirm == two.confirm

def identicalFunctions (one two : Record (SchemaChannelMetadata V)) : Bool :=
  Utf16.sort one.keys == Utf16.sort two.keys && (Utf16.sort one.keys).all fun k =>
    match one.get? k, two.get? k with
    | some x, some y => deqChannel deq x y
    | _, _ => false

def areMetaIdentical (one two : SchemaMetadata V) : Bool :=
  identicalFunctions deq one.queries two.queries && identicalFunctions deq one.actions two.actions

end Compare

/-! ## The rows of a class -/

/-- How every row that a class stores is. -/
structure ChannelRow.WF (row : ChannelRow) : Prop where
  primary : row.channel_type ≠ .trigger
  extends_ : row.extends_ ≠ some []
  args : row.types.length ≤ row.argnames.length

theorem mem_makeList {what : ChannelType} {source : Record (SchemaChannelMetadata V)} {name : String} {row : ChannelRow} :
    (name, row) ∈ makeList what source ↔ ∃ m, source.get? name = some m ∧ channelRow what m = row := by
  rw [makeList, List.mem_map]
  constructor
  · rintro ⟨⟨k, m⟩, hm, h⟩
    cases h
    exact ⟨m, Record.mem_entries.mp hm, rfl⟩
  · rintro ⟨m, hm, rfl⟩
    exact ⟨(name, m), Record.mem_entries.mpr hm, rfl⟩

theorem mem_channelRows {metas : SchemaMetadata V} {name : String} {row : ChannelRow} (h : metas.triggers = Record.empty) :
    (name, row) ∈ channelRows metas ↔
      (∃ m, metas.queries.get? name = some m ∧ channelRow .query m = row) ∨
        ∃ m, metas.actions.get? name = some m ∧ channelRow .action m = row := by
  rw [channelRows, h, List.mem_append, List.mem_append, mem_makeList, mem_makeList, mem_makeList]
  constructor
  · rintro ((⟨m, hm, -⟩ | hq) | ha)
    · cases hm
    · exact Or.inl hq
    · exact Or.inr ha
  · rintro (hq | ha)
    · exact Or.inl (Or.inr hq)
    · exact Or.inr ha

theorem functionToChannel_wf (fnDef : FunctionDef V) {what : ChannelType} (h : what ≠ .trigger) :
    (channelRow what (functionToChannel fnDef)).WF where
  primary := h
  extends_ := by
    intro he
    have he' : (some fnDef.extends_).filter (· != []) = some [] := he
    exact absurd (Option.filter_eq_some_iff.mp he').2 (by decide)
  args := by simp [channelRow, functionToChannel]

theorem class_rows_wf {classDef : ClassDef V} {name : String} {row : ChannelRow}
    (h : (name, row) ∈ channelRows (classDefToSchema classDef)) : row.WF := by
  rcases (mem_channelRows rfl).mp h with ⟨m, hm, rfl⟩ | ⟨m, hm, rfl⟩
  · obtain ⟨fnDef, -, rfl⟩ := Option.map_eq_some_iff.mp (Record.get?_map _ _ _ ▸ hm)
    exact functionToChannel_wf fnDef (by decide)
  · obtain ⟨fnDef, -, rfl⟩ := Option.map_eq_some_iff.mp (Record.get?_map _ _ _ ▸ hm)
    exact functionToChannel_wf fnDef (by decide)

/-! ## What identical metadata says of the rows -/

section Identical

variable {deq : V → V → Bool}

theorem padArgs_eq {args types : List String} (h : types.length ≤ args.length) : padArgs args types = args := by
  rw [padArgs, Nat.sub_eq_zero_of_le h, List.range'_zero, List.map_nil, List.append_nil]

/-- Metadata equal to a row as it was read is stored as that row. -/
theorem channelRow_of_deq {row : ChannelRow} {canonicals : Option (ChannelCanonicalRow V)} {m : SchemaChannelMetadata V}
    (hwf : row.WF) (h : deqChannel deq (processMetaRow row canonicals) m = true) : channelRow row.channel_type m = row := by
  simp only [deqChannel, Bool.and_eq_true, beq_iff_eq, processMetaRow, padArgs_eq hwf.args] at h
  obtain ⟨⟨⟨⟨⟨⟨⟨⟨⟨⟨⟨⟨⟨⟨-, -⟩, hdoc⟩, hext⟩, htypes⟩, hargs⟩, hreq⟩, hinput⟩, hvalues⟩, -⟩, -⟩, -⟩, hlist⟩, hmon⟩, hconfirm⟩ := h
  have hext' : m.extends_.filter (· != []) = row.extends_ := by
    rw [← hext]
    cases he : row.extends_ with
    | none => rfl
    | some l =>
      have : l ≠ [] := fun e => hwf.extends_ (e ▸ he)
      rw [Option.filter_some, if_pos (by simpa using this)]
  cases row
  simp only [channelRow, ChannelRow.mk.injEq, true_and]
  exact ⟨hdoc.symm, hext', htypes.symm, hargs.symm, hreq.symm, hinput.symm, hvalues.symm, hlist.symm, hmon.symm,
    by rw [← hconfirm]; rfl⟩

theorem identicalFunctions_mem {one two : Record (SchemaChannelMetadata V)} (h : identicalFunctions deq one two = true)
    {name : String} : (∃ x, one.get? name = some x) ↔ ∃ y, two.get? name = some y := by
  have hkeys := beq_iff_eq.mp (Bool.and_eq_true_iff.mp h).1
  rw [← Record.mem_keys, ← Record.mem_keys]
  exact Record.mem_keys_of_sort_eq hkeys name

theorem identicalFunctions_deq {one two : Record (SchemaChannelMetadata V)} (h : identicalFunctions deq one two = true)
    {name : String} {x y : SchemaChannelMetadata V} (hx : one.get? name = some x) (hy : two.get? name = some y) :
    deqChannel deq x y = true := by
  have hmem : name ∈ Utf16.sort one.keys := Utf16.mem_sort.mpr (Record.mem_keys.mpr ⟨x, hx⟩)
  have := List.all_eq_true.mp (Bool.and_eq_true_iff.mp h).2 name hmem
  rw [hx, hy] at this
  exact this

/-- The channels of one type, for metadata that reads as theirs. -/
theorem row_iff_function {channels : Record ChannelRow} {canonicals : Record (ChannelCanonicalRow V)} {what : ChannelType}
    {two : Record (SchemaChannelMetadata V)} (hwf : ∀ name row, channels.get? name = some row → row.WF)
    (h : identicalFunctions deq (channels.filterMap fun name row =>
      if row.channel_type = what then some (processMetaRow row (canonicals.get? name)) else none) two = true)
    {name : String} {row : ChannelRow} :
    (channels.get? name = some row ∧ row.channel_type = what) ↔ ∃ m, two.get? name = some m ∧ channelRow what m = row := by
  have hread : ∀ r, channels.get? name = some r → r.channel_type = what →
      (channels.filterMap fun name row =>
        if row.channel_type = what then some (processMetaRow row (canonicals.get? name)) else none).get? name =
        some (processMetaRow r (canonicals.get? name)) := by
    intro r hr ht
    rw [Record.get?_filterMap, hr, Option.bind_some, if_pos ht]
  constructor
  · rintro ⟨hr, rfl⟩
    obtain ⟨m, hm⟩ := (identicalFunctions_mem h).mp ⟨_, hread row hr rfl⟩
    exact ⟨m, hm, channelRow_of_deq (hwf name row hr) (identicalFunctions_deq h (hread row hr rfl) hm)⟩
  · rintro ⟨m, hm, rfl⟩
    obtain ⟨x, hx⟩ := (identicalFunctions_mem h).mpr ⟨m, hm⟩
    rw [Record.get?_filterMap] at hx
    obtain ⟨r, hr, hx⟩ := Option.bind_eq_some_iff.mp hx
    split at hx
    · rename_i ht
      have hrow := channelRow_of_deq (hwf name r hr) (identicalFunctions_deq h (hread r hr ht) hm)
      rw [ht] at hrow
      rw [hrow]
      exact ⟨hr, ht⟩
    · cases hx

/-- Channels that read as the metadata of a class are the channels of the class. -/
theorem row_iff_identical {channels : Record ChannelRow} {canonicals : Record (ChannelCanonicalRow V)}
    {kind kind_type kind_canonical : String} {classDef : ClassDef V} (hwf : ∀ name row, channels.get? name = some row → row.WF)
    (h : areMetaIdentical deq (processMetaRows kind kind_type kind_canonical channels canonicals)
      (classDefToSchema classDef) = true) {name : String} {row : ChannelRow} :
    channels.get? name = some row ↔ (name, row) ∈ channelRows (classDefToSchema classDef) := by
  obtain ⟨hq, ha⟩ := Bool.and_eq_true_iff.mp h
  rw [mem_channelRows rfl, ← row_iff_function hwf hq, ← row_iff_function hwf ha]
  constructor
  · intro hr
    cases ht : row.channel_type with
    | trigger => exact absurd ht (hwf name row hr).primary
    | query => exact Or.inl ⟨hr, rfl⟩
    | action => exact Or.inr ⟨hr, rfl⟩
  · rintro (⟨hr, -⟩ | ⟨hr, -⟩)
    · exact hr
    · exact hr

/-- A function that extends nothing is never identical to what is stored of it. -/
theorem extends_of_identical {channels : Record ChannelRow} {canonicals : Record (ChannelCanonicalRow V)}
    {what : ChannelType} {functions : Record (FunctionDef V)} (hwf : ∀ name row, channels.get? name = some row → row.WF)
    (h : identicalFunctions deq (channels.filterMap fun name row =>
        if row.channel_type = what then some (processMetaRow row (canonicals.get? name)) else none)
      (functions.map fun _ fnDef => functionToChannel fnDef) = true)
    {name : String} {fnDef : FunctionDef V} (hf : functions.get? name = some fnDef) : fnDef.extends_ ≠ [] := by
  intro he
  have hm : (functions.map fun _ fnDef => functionToChannel fnDef).get? name = some (functionToChannel fnDef) := by
    rw [Record.get?_map, hf, Option.map_some]
  obtain ⟨x, hx⟩ := (identicalFunctions_mem h).mpr ⟨_, hm⟩
  have hd := identicalFunctions_deq h hx hm
  rw [Record.get?_filterMap] at hx
  obtain ⟨row, hrow, hx⟩ := Option.bind_eq_some_iff.mp hx
  split at hx
  · cases hx
    simp only [deqChannel, Bool.and_eq_true, beq_iff_eq, processMetaRow, functionToChannel, he] at hd
    exact (hwf name row hrow).extends_ hd.1.1.1.1.1.1.1.1.1.1.1.2
  · cases hx

end Identical

end GenieCloud.Thingpedia
