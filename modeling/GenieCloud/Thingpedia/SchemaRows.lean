/-
  GenieCloud.Thingpedia.SchemaRows — assembling the rows of the schema queries
  (`processMetaRows`, `processTypeRows`, `getTypesAndNamesByKinds` and `getMetasByKinds`
  of `model/schema.ts`), row by row.

  The queries join a schema with its functions and have no `order by` clause; the pass
  that puts their rows together compares each row with the one before it. What it returns
  for one order of the rows is right if and only if the rows of a kind come one after
  another (`entries_iff`), and for every order if and only if there is one kind only or
  no kind has two functions (`byKinds_rows_iff`). A function called `__proto__` is lost
  whatever the order.

  `Thingpedia.Queries` reads the rows of a schema together, as a database that joins one
  schema after another returns them.
-/

import GenieCloud.Lib.Groups
import GenieCloud.Thingpedia.Queries

namespace GenieCloud.Thingpedia.SchemaRows

open GenieCloud.Lib Groups

variable {V C ρ ε η σ β : Type}

/-! ## Rows and entries -/

/-- A row of the queries for types; no channel stands for the null columns of a schema
    that joins with none. -/
structure TypeRow where
  kind : String
  kind_type : String
  channel : Option (String × ChannelRow)
  deriving DecidableEq, Repr

/-- A row of the queries for metadata, with the canonicals in the language asked for. -/
structure MetaRow (V : Type) where
  kind : String
  kind_type : String
  kind_canonical : String
  channel : Option (String × ChannelRow × Option (ChannelCanonicalRow V))
  deriving DecidableEq, Repr

/-- `obj[name] = value` on a plain object; the name `__proto__` sets its prototype, and
    no key. -/
def assign (obj : Record C) (name : String) (value : C) : Record C :=
  if name = "__proto__" then obj else obj.set name value

def startTypes (row : TypeRow) : SchemaTypes where
  kind := row.kind
  kind_type := row.kind_type
  triggers := Record.empty
  queries := Record.empty
  actions := Record.empty

def addTypes (current : SchemaTypes) (row : TypeRow) : SchemaTypes :=
  match row.channel with
  | none => current
  | some (name, channel) =>
    let obj := processTypeRow channel
    match channel.channel_type with
    | .action => { current with actions := assign current.actions name obj }
    | .trigger => { current with triggers := assign current.triggers name obj }
    | .query => { current with queries := assign current.queries name obj }

def startMeta (row : MetaRow V) : SchemaMetadata V where
  kind := row.kind
  kind_type := row.kind_type
  kind_canonical := row.kind_canonical
  triggers := Record.empty
  queries := Record.empty
  actions := Record.empty

def addMeta (current : SchemaMetadata V) (row : MetaRow V) : SchemaMetadata V :=
  match row.channel with
  | none => current
  | some (name, channel, canonicals) =>
    let obj := processMetaRow channel canonicals
    match channel.channel_type with
    | .action => { current with actions := assign current.actions name obj }
    | .trigger => { current with triggers := assign current.triggers name obj }
    | .query => { current with queries := assign current.queries name obj }

/-! ## The two passes as one -/

/-- A pass whose entries hold the functions of their rows, by type and then name. -/
structure Assembly (ρ ε C η : Type) extends Pass ρ ε String where
  rowHead : ρ → η
  head : ε → η
  channel : ρ → Option (String × ChannelType × C)
  channels : ε → ChannelType → Record C
  head_start : ∀ row, head (start row) = rowHead row
  head_add : ∀ e row, head (add e row) = head e
  channels_start : ∀ row what, channels (start row) what = Record.empty
  channels_none : ∀ e row what, channel row = none → channels (add e row) what = channels e what
  channels_some : ∀ e row what name t obj, channel row = some (name, t, obj) →
    channels (add e row) what = if t = what then assign (channels e what) name obj else channels e what

def typeAssembly : Assembly TypeRow SchemaTypes SchemaChannelTypes String where
  rowKey := (·.kind)
  key := (·.kind)
  start := startTypes
  add := addTypes
  rowHead := (·.kind_type)
  head := (·.kind_type)
  channel row := row.channel.map fun x => (x.1, x.2.channel_type, processTypeRow x.2)
  channels e
    | .trigger => e.triggers
    | .query => e.queries
    | .action => e.actions
  key_start _ := rfl
  key_add e row := by
    unfold addTypes
    split
    · rfl
    · dsimp only; split <;> rfl
  head_start _ := rfl
  head_add e row := by
    unfold addTypes
    split
    · rfl
    · dsimp only; split <;> rfl
  channels_start row what := by cases what <;> rfl
  channels_none e row what h := by
    rw [addTypes, Option.map_eq_none_iff.mp h]
  channels_some e row what name t obj h := by
    obtain ⟨⟨n, ch⟩, hc, hx⟩ := Option.map_eq_some_iff.mp h
    cases hx
    rw [addTypes, hc]
    dsimp only
    cases ch.channel_type <;> cases what <;> rfl

def metaAssembly : Assembly (MetaRow V) (SchemaMetadata V) (SchemaChannelMetadata V) (String × String) where
  rowKey := (·.kind)
  key := (·.kind)
  start := startMeta
  add := addMeta
  rowHead row := (row.kind_type, row.kind_canonical)
  head e := (e.kind_type, e.kind_canonical)
  channel row := row.channel.map fun x => (x.1, x.2.1.channel_type, processMetaRow x.2.1 x.2.2)
  channels e
    | .trigger => e.triggers
    | .query => e.queries
    | .action => e.actions
  key_start _ := rfl
  key_add e row := by
    unfold addMeta
    split
    · rfl
    · dsimp only; split <;> rfl
  head_start _ := rfl
  head_add e row := by
    unfold addMeta
    split
    · rfl
    · dsimp only; split <;> rfl
  channels_start row what := by cases what <;> rfl
  channels_none e row what h := by
    rw [addMeta, Option.map_eq_none_iff.mp h]
  channels_some e row what name t obj h := by
    obtain ⟨⟨n, ch, cs⟩, hc, hx⟩ := Option.map_eq_some_iff.mp h
    cases hx
    rw [addMeta, hc]
    dsimp only
    cases ch.channel_type <;> cases what <;> rfl

def processTypeRows (rows : List TypeRow) : List SchemaTypes := typeAssembly.run rows

def processMetaRows (rows : List (MetaRow V)) : List (SchemaMetadata V) := metaAssembly.run rows

/-! ## The functions of an entry -/

section Assembly

variable {A : Assembly ρ ε C η} {rows : List ρ} {what : ChannelType} {name : String}

/-- What a row says of a function. -/
def Assembly.tells (A : Assembly ρ ε C η) (what : ChannelType) (name : String) (row : ρ) : Option C :=
  (A.channel row).bind fun x => if x.1 = name ∧ x.2.1 = what then some x.2.2 else none

/-- What the last row about a function says of it. -/
def Assembly.lastSaid (A : Assembly ρ ε C η) (rows : List ρ) (kind : String) (what : ChannelType) (name : String) : Option C :=
  ((rows.filter fun r => A.rowKey r = kind).filterMap (A.tells what name)).getLast?

theorem tells_eq_some {row : ρ} {obj : C} : A.tells what name row = some obj ↔ A.channel row = some (name, what, obj) := by
  unfold Assembly.tells
  rcases A.channel row with _ | ⟨n, t, o⟩
  · simp
  · by_cases h : n = name ∧ t = what
    · simp [h.1, h.2]
    · simp only [Option.bind_some, if_neg h, Option.some.injEq, Prod.mk.injEq]
      exact ⟨nofun, fun ⟨h1, h2, _⟩ => absurd ⟨h1, h2⟩ h⟩

theorem get?_add (A : Assembly ρ ε C η) (e : ε) (row : ρ) (what : ChannelType) (name : String) :
    (A.channels (A.add e row) what).get? name =
      if name = "__proto__" then (A.channels e what).get? name
      else (A.tells what name row).or ((A.channels e what).get? name) := by
  rcases hc : A.channel row with _ | ⟨n, t, obj⟩
  · rw [A.channels_none e row what hc, Assembly.tells, hc]
    simp
  · rw [A.channels_some e row what n t obj hc, Assembly.tells, hc]
    by_cases ht : t = what
    · simp only [ht, if_true, assign, Option.bind_some, and_true]
      by_cases hp : n = "__proto__"
      · simp only [hp, if_true]
        by_cases hn : name = "__proto__"
        · rw [if_pos hn]
        · rw [if_neg hn, if_neg (Ne.symm hn), Option.none_or]
      · simp only [hp, if_false, Record.get?_set]
        by_cases hn : n = name
        · simp [hn, hn ▸ hp]
        · simp [hn]
    · simp [ht]

theorem get?_foldl (A : Assembly ρ ε C η) (l : List ρ) (e : ε) (what : ChannelType) (name : String) :
    (A.channels (l.foldl A.add e) what).get? name =
      if name = "__proto__" then (A.channels e what).get? name
      else (l.filterMap (A.tells what name)).getLast?.or ((A.channels e what).get? name) := by
  induction l generalizing e with
  | nil => simp
  | cons row l ih =>
    rw [List.foldl_cons, ih, get?_add, List.filterMap_cons]
    by_cases hn : name = "__proto__"
    · simp only [if_pos hn]
    · simp only [if_neg hn]
      cases A.tells what name row with
      | none => simp
      | some obj =>
        rw [List.getLast?_cons]
        cases (l.filterMap (A.tells what name)).getLast? <;> rfl

theorem get?_made {e : ε} (h : A.Made rows e) :
    (A.channels e what).get? name = if name = "__proto__" then none else A.lastSaid rows (A.key e) what name := by
  obtain ⟨row, rest, hf, he⟩ := h
  rw [Assembly.lastSaid, hf, he, get?_foldl, A.channels_start]
  simp [Record.empty, Record.get?]

theorem head_foldl (l : List ρ) (e : ε) : A.head (l.foldl A.add e) = A.head e := by
  induction l generalizing e with
  | nil => rfl
  | cons row l ih => rw [List.foldl_cons, ih, A.head_add]

/-! ## One entry for each kind -/

/-- One entry for each of the kinds, and in it the functions wanted. -/
structure Entries (A : Assembly ρ ε C η) (kinds : String → Prop) (want : String → ChannelType → String → C → Prop)
    (out : List ε) : Prop where
  kinds : ∀ kind, kind ∈ out.map A.key ↔ kinds kind
  nodup : (out.map A.key).Nodup
  channels : ∀ e ∈ out, ∀ what name obj, (A.channels e what).get? name = some obj ↔ want (A.key e) what name obj

theorem entries_iff {kinds : String → Prop} {want : String → ChannelType → String → C → Prop} :
    Entries A kinds want (A.run rows) ↔
      (∀ kind, kind ∈ rows.map A.rowKey ↔ kinds kind) ∧ Grouped A.rowKey rows ∧
        ∀ kind, kinds kind → ∀ what name obj,
          ((if name = "__proto__" then none else A.lastSaid rows kind what name) = some obj ↔ want kind what name obj) := by
  constructor
  · intro h
    have hg : Grouped A.rowKey rows := (Pass.nodup_run_iff A.toPass rows).mp h.nodup
    refine ⟨fun kind => (Pass.mem_keys_run A.toPass rows kind).symm.trans (h.kinds kind), hg, ?_⟩
    intro kind hk what name obj
    obtain ⟨e, he, rfl⟩ := List.mem_map.mp ((h.kinds kind).mpr hk)
    rw [← get?_made (Pass.made_of_mem hg he)]
    exact h.channels e he what name obj
  · intro ⟨hkinds, hg, hlast⟩
    refine ⟨fun kind => (Pass.mem_keys_run A.toPass rows kind).trans (hkinds kind), (Pass.nodup_run_iff A.toPass rows).mpr hg, ?_⟩
    intro e he what name obj
    rw [get?_made (Pass.made_of_mem hg he)]
    refine hlast _ ((hkinds _).mp ?_) what name obj
    exact (Pass.mem_keys_run A.toPass rows _).mp (List.mem_map_of_mem he)

/-- No function has the name that objects cannot hold. -/
def NoProto (A : Assembly ρ ε C η) (rows : List ρ) : Prop :=
  ∀ row ∈ rows, ∀ x, A.channel row = some x → x.1 ≠ "__proto__"

/-- The functions of a kind, by name. -/
def names (A : Assembly ρ ε C η) (rows : List ρ) : List (String × String) :=
  rows.filterMap fun row => (A.channel row).map fun x => (A.rowKey row, x.1)

/-- What the keys of the tables promise of the rows of a query: the rows of a kind are
    those of one schema, and the functions of a version have different names. -/
structure Joined (A : Assembly ρ ε C η) (rows : List ρ) : Prop where
  head : ∀ row ∈ rows, ∀ row' ∈ rows, A.rowKey row = A.rowKey row' → A.rowHead row = A.rowHead row'
  names : (names A rows).Nodup

theorem Joined.perm {rows' : List ρ} (h : Joined A rows) (hp : rows'.Perm rows) : Joined A rows' where
  head row hr row' hr' := h.head row (hp.mem_iff.mp hr) row' (hp.mem_iff.mp hr')
  names := (hp.filterMap _).nodup_iff.mpr h.names

theorem lastSaid_eq_some (hn : (names A rows).Nodup) {kind : String} {obj : C} :
    A.lastSaid rows kind what name = some obj ↔
      ∃ row ∈ rows, A.rowKey row = kind ∧ A.channel row = some (name, what, obj) := by
  have hmem : ∀ o, o ∈ (rows.filter fun r => A.rowKey r = kind).filterMap (A.tells what name) ↔
      ∃ row ∈ rows, A.rowKey row = kind ∧ A.channel row = some (name, what, o) := by
    intro o
    simp only [List.mem_filterMap, List.mem_filter, decide_eq_true_eq, tells_eq_some, and_assoc]
  -- no two rows are about one function
  have hone : ((rows.filter fun r => A.rowKey r = kind).filterMap (A.tells what name)).length ≤ 1 := by
    clear hmem
    induction rows with
    | nil => simp
    | cons row rows ih =>
      rw [names, List.filterMap_cons] at hn
      have hn' : (names A rows).Nodup := by
        split at hn
        · exact hn
        · exact (List.nodup_cons.mp hn).2
      rw [List.filter_cons]
      split
      · next hk =>
        rw [List.filterMap_cons]
        split
        · exact ih hn'
        · next o ho =>
          rw [tells_eq_some] at ho
          have hnone : (rows.filter fun r => A.rowKey r = kind).filterMap (A.tells what name) = [] := by
            rw [List.filterMap_eq_nil_iff]
            intro r hr
            rw [List.mem_filter, decide_eq_true_eq] at hr
            rw [Option.eq_none_iff_forall_not_mem]
            intro o' ho'
            rw [Option.mem_def, tells_eq_some] at ho'
            rw [ho, Option.map_some] at hn
            refine (List.nodup_cons.mp hn).1 (List.mem_filterMap.mpr ⟨r, hr.1, ?_⟩)
            rw [ho', Option.map_some, hr.2, of_decide_eq_true hk]
          rw [hnone]
          simp
      · exact ih hn'
  rw [← hmem, Assembly.lastSaid]
  generalize (rows.filter fun r => A.rowKey r = kind).filterMap (A.tells what name) = l at hone
  rcases l with _ | ⟨o, _ | ⟨o', l⟩⟩
  · simp
  · simp [eq_comm]
  · simp at hone

/-- Exactly one entry for each kind of the rows, with all the functions of the kind. -/
structure OnePerKind (A : Assembly ρ ε C η) (rows : List ρ) (out : List ε) : Prop where
  entries : Entries A (· ∈ rows.map A.rowKey)
    (fun kind what name obj => ∃ row ∈ rows, A.rowKey row = kind ∧ A.channel row = some (name, what, obj)) out
  head : ∀ e ∈ out, ∀ row ∈ rows, A.rowKey row = A.key e → A.head e = A.rowHead row

theorem onePerKind_iff (h : Joined A rows) : OnePerKind A rows (A.run rows) ↔ Grouped A.rowKey rows ∧ NoProto A rows := by
  constructor
  · intro ho
    obtain ⟨-, hg, hlast⟩ := entries_iff.mp ho.entries
    refine ⟨hg, ?_⟩
    intro row hr ⟨name, what, obj⟩ hc hproto
    have := (hlast _ (List.mem_map_of_mem hr) what name obj).mpr ⟨row, hr, rfl, hc⟩
    rw [if_pos hproto] at this
    cases this
  · intro ⟨hg, hproto⟩
    refine ⟨entries_iff.mpr ⟨fun _ => Iff.rfl, hg, ?_⟩, ?_⟩
    · intro kind _ what name obj
      split
      · next hn =>
        refine ⟨nofun, ?_⟩
        intro ⟨row, hr, _, hc⟩
        exact absurd hn (hproto row hr _ hc)
      · exact lastSaid_eq_some h.names
    · intro e he row hr hk
      obtain ⟨r, rest, hf, hmade⟩ := Pass.made_of_mem hg he
      have hr' := List.mem_filter.mp (hf ▸ List.mem_cons_self .. : r ∈ rows.filter fun r => A.rowKey r = A.key e)
      rw [hmade, head_foldl, A.head_start]
      exact h.head r hr'.1 row hr ((of_decide_eq_true hr'.2).trans hk.symm)

/-- Equal entries: objects are the same whatever the order of their keys. -/
structure Same (A : Assembly ρ ε C η) (e e' : ε) : Prop where
  key : A.key e = A.key e'
  head : A.head e = A.head e'
  channels : ∀ what name, (A.channels e what).get? name = (A.channels e' what).get? name

/-- The same set of entries. -/
def SameEntries (A : Assembly ρ ε C η) (out out' : List ε) : Prop :=
  (∀ e ∈ out, ∃ e' ∈ out', Same A e e') ∧ ∀ e' ∈ out', ∃ e ∈ out, Same A e' e

theorem exists_same {rows' : List ρ} {out out' : List ε} (hp : rows'.Perm rows) (h : OnePerKind A rows out)
    (h' : OnePerKind A rows' out') : ∀ e ∈ out, ∃ e' ∈ out', Same A e e' := by
  intro e he
  have hk := (h.entries.kinds _).mp (List.mem_map_of_mem he)
  obtain ⟨row, hr, hrow⟩ := List.mem_map.mp hk
  obtain ⟨e', he', hkey⟩ := List.mem_map.mp ((h'.entries.kinds _).mpr ((hp.map A.rowKey).mem_iff.mpr hk))
  refine ⟨e', he', hkey.symm, ?_, ?_⟩
  · rw [h.head e he row hr hrow, h'.head e' he' row (hp.mem_iff.mpr hr) (hrow.trans hkey.symm)]
  · intro what name
    apply Option.ext
    intro obj
    rw [h.entries.channels e he, h'.entries.channels e' he', hkey]
    exact exists_congr fun r => and_congr_left fun _ => hp.mem_iff.symm

/-- Every order of the rows is put together right, and into the same entries. -/
def AnyOrder (A : Assembly ρ ε C η) (q : List ρ) : Prop :=
  ∀ rows, rows.Perm q → OnePerKind A rows (A.run rows) ∧
    ∀ rows', rows'.Perm q → SameEntries A (A.run rows) (A.run rows')

/-- No order of the rows can put one kind between two rows of another. -/
def Apart (A : Assembly ρ ε C η) (q : List ρ) : Prop :=
  (∀ row ∈ q, ∀ row' ∈ q, A.rowKey row = A.rowKey row') ∨ (q.map A.rowKey).Nodup

theorem NoProto.perm {rows' : List ρ} (h : NoProto A rows) (hp : rows'.Perm rows) : NoProto A rows' :=
  fun row hr => h row (hp.mem_iff.mp hr)

theorem anyOrder_iff {q : List ρ} (h : Joined A q) : AnyOrder A q ↔ Apart A q ∧ NoProto A q := by
  constructor
  · intro ha
    refine ⟨grouped_perms_iff.mp ?_, ?_⟩
    · intro rows hp
      exact ((onePerKind_iff (h.perm hp)).mp (ha rows hp).1).1
    · exact ((onePerKind_iff h).mp (ha q (List.Perm.refl q)).1).2
  · intro ⟨hapart, hproto⟩
    have hone : ∀ rows, rows.Perm q → OnePerKind A rows (A.run rows) := fun rows hp =>
      (onePerKind_iff (h.perm hp)).mpr ⟨grouped_perms_iff.mpr hapart rows hp, hproto.perm hp⟩
    intro rows hp
    refine ⟨hone rows hp, ?_⟩
    intro rows' hp'
    exact ⟨exists_same (hp'.trans hp.symm) (hone rows hp) (hone rows' hp'),
      exists_same (hp.trans hp'.symm) (hone rows' hp') (hone rows hp)⟩

end Assembly

/-! ## The queries -/

/-- `l left join ...`: each of `l` with what it joins with, or once with null columns. -/
def leftJoin (l : List σ) (joined : σ → List β) (row : σ → Option β → ρ) : List ρ :=
  l.flatMap fun x =>
    match joined x with
    | [] => [row x none]
    | cs => cs.map fun c => row x (some c)

def typeRow (ds : SchemaRow) (channel : Option (String × ChannelRow)) : TypeRow where
  kind := ds.kind
  kind_type := ds.kind_type
  channel := channel

/-- The second join finds the canonicals of the function, by its name. -/
def metaRow (ds : SchemaRow) (canonicals : Record (ChannelCanonicalRow V)) (channel : Option (String × ChannelRow)) :
    MetaRow V where
  kind := ds.kind
  kind_type := ds.kind_type
  kind_canonical := ds.kind_canonical
  channel := channel.map fun x => (x.1, x.2, canonicals.get? x.1)

/-- A database whose schemas have different kinds (a unique key of `device_schema`). -/
structure SchemaDb (V : Type) extends Db V where
  unique : toDb.device_schema.Unique (·.kind)

/-- The functions of the version a schema is joined with. -/
def channelsOf (db : Db V) (org : Option Int) (x : Nat × SchemaRow) : Record ChannelRow :=
  (x.2.version org).elim Record.empty (db.device_schema_channels x.1)

def canonicalsOf (db : Db V) (org : Option Int) (language : String) (x : Nat × SchemaRow) : Record (ChannelCanonicalRow V) :=
  (x.2.version org).elim Record.empty fun version => db.device_schema_channel_canonicals x.1 version language

/-- `where ds.kind in (?)`, and what may be seen. -/
def schemasByKinds (db : Db V) (kinds : List String) (org : Option Int) : List (Nat × SchemaRow) :=
  db.device_schema.select fun _ ds => kinds.contains ds.kind && visible org ds.approved_version ds.owner

/-- The rows of the query of `getTypesAndNamesByKinds`. -/
def typesByKinds (db : Db V) (kinds : List String) (org : Option Int) : List TypeRow :=
  leftJoin (schemasByKinds db kinds org) (fun x => (channelsOf db org x).entries) fun x => typeRow x.2

/-- The rows of the query of `getMetasByKinds`. -/
def metasByKinds (db : Db V) (kinds : List String) (org : Option Int) (language : String) : List (MetaRow V) :=
  leftJoin (schemasByKinds db kinds org) (fun x => (channelsOf db org x).entries)
    fun x => metaRow x.2 (canonicalsOf db org language x)

theorem mem_leftJoin {l : List σ} {joined : σ → List β} {row : σ → Option β → ρ} {r : ρ} :
    r ∈ leftJoin l joined row ↔ ∃ x ∈ l, (joined x = [] ∧ r = row x none) ∨ ∃ c ∈ joined x, r = row x (some c) := by
  rw [leftJoin, List.mem_flatMap]
  refine exists_congr fun x => and_congr_right fun _ => ?_
  rcases joined x with _ | ⟨c, cs⟩
  · simp
  · simp [eq_comm]

theorem of_mem_leftJoin {P : ρ → σ → Prop} {l : List σ} {joined : σ → List β} {row : σ → Option β → ρ}
    (h : ∀ x c, P (row x c) x) {r : ρ} (hr : r ∈ leftJoin l joined row) : ∃ x ∈ l, P r x := by
  obtain ⟨x, hx, hr⟩ := mem_leftJoin.mp hr
  rcases hr with ⟨-, rfl⟩ | ⟨c, -, rfl⟩
  · exact ⟨x, hx, h ..⟩
  · exact ⟨x, hx, h ..⟩

/-- Every one of `l` has a row. -/
theorem mem_keys_leftJoin {rowKey : ρ → String} {l : List σ} {joined : σ → List β} {row : σ → Option β → ρ} {key : σ → String}
    (hkey : ∀ x c, rowKey (row x c) = key x) (kind : String) :
    kind ∈ (leftJoin l joined row).map rowKey ↔ ∃ x ∈ l, key x = kind := by
  rw [List.mem_map]
  constructor
  · intro ⟨r, hr, hk⟩
    obtain ⟨x, hx, hrx⟩ := of_mem_leftJoin (P := fun r x => rowKey r = key x) hkey hr
    exact ⟨x, hx, hrx ▸ hk⟩
  · intro ⟨x, hx, hk⟩
    rcases hc : joined x with _ | ⟨c, cs⟩
    · exact ⟨_, mem_leftJoin.mpr ⟨x, hx, Or.inl ⟨hc, rfl⟩⟩, (hkey ..).trans hk⟩
    · exact ⟨_, mem_leftJoin.mpr ⟨x, hx, Or.inr ⟨c, hc ▸ List.mem_cons_self .., rfl⟩⟩, (hkey ..).trans hk⟩

/-- The functions of the rows are those joined. -/
theorem exists_channel_leftJoin {γ : Type} {A : Assembly ρ ε C η} {l : List σ} {joined : σ → List (String × γ)}
    {row : σ → Option (String × γ) → ρ} {key : σ → String} {type : γ → ChannelType} (obj : σ → String → γ → C)
    (hkey : ∀ x c, A.rowKey (row x c) = key x)
    (hchan : ∀ x c, A.channel (row x c) = c.map fun c => (c.1, type c.2, obj x c.1 c.2))
    {kind name : String} {what : ChannelType} {o : C} :
    (∃ r ∈ leftJoin l joined row, A.rowKey r = kind ∧ A.channel r = some (name, what, o)) ↔
      ∃ x ∈ l, key x = kind ∧ ∃ c, (name, c) ∈ joined x ∧ type c = what ∧ obj x name c = o := by
  constructor
  · intro ⟨r, hr, hk, ho⟩
    obtain ⟨x, hx, hr⟩ := mem_leftJoin.mp hr
    rcases hr with ⟨-, rfl⟩ | ⟨c, hc, rfl⟩
    · rw [hchan] at ho
      cases ho
    · rw [hchan] at ho
      cases ho
      exact ⟨x, hx, (hkey ..).symm.trans hk, c.2, hc, rfl, rfl⟩
  · intro ⟨x, hx, hk, c, hc, ht, ho⟩
    refine ⟨_, mem_leftJoin.mpr ⟨x, hx, Or.inr ⟨(name, c), hc, rfl⟩⟩, (hkey ..).trans hk, ?_⟩
    rw [hchan, Option.map_some, ht, ho]

/-- The functions of a joined row come from the join; the kinds and the names in a version are different. -/
theorem names_leftJoin {A : Assembly ρ ε C η} {l : List σ} {joined : σ → List β} {row : σ → Option β → ρ} {key : σ → String}
    {name : β → String} (hkey : ∀ x c, A.rowKey (row x c) = key x)
    (hname : ∀ x c, (A.channel (row x c)).map (·.1) = c.map name) :
    names A (leftJoin l joined row) = l.flatMap fun x => (joined x).map fun c => (key x, name c) := by
  have hone : ∀ x c, (A.channel (row x c)).map (fun y => (A.rowKey (row x c), y.1)) = c.map fun c => (key x, name c) := by
    intro x c
    have := congrArg (Option.map fun n => (key x, n)) (hname x c)
    rw [Option.map_map, Option.map_map] at this
    rw [hkey]
    exact this
  rw [names, leftJoin, List.filterMap_flatMap]
  refine List.flatMap_congr fun x _ => ?_
  split
  · next hx => rw [hx]; simp [hone x none]
  · rw [List.filterMap_map]
    simp only [Function.comp_def, hone, Option.map_some]
    exact congrFun List.filterMap_eq_map _

theorem nodup_names_leftJoin {A : Assembly ρ ε C η} {l : List σ} {joined : σ → List β} {row : σ → Option β → ρ}
    {key : σ → String}
    (name : β → String) (hkey : ∀ x c, A.rowKey (row x c) = key x)
    (hname : ∀ x c, (A.channel (row x c)).map (·.1) = c.map name)
    (hl : l.Pairwise fun x y => joined x ≠ [] → joined y ≠ [] → key x ≠ key y)
    (hj : ∀ x ∈ l, ((joined x).map name).Nodup) : (names A (leftJoin l joined row)).Nodup := by
  rw [names_leftJoin hkey hname, List.nodup_flatMap]
  constructor
  · intro x hx
    refine List.Nodup.of_map Prod.snd ?_
    rw [List.map_map]
    exact hj x hx
  · refine hl.imp ?_
    intro x y hne
    refine List.disjoint_left.mpr ?_
    intro p hp hp'
    obtain ⟨c, hc, rfl⟩ := List.mem_map.mp hp
    obtain ⟨c', hc', he⟩ := List.mem_map.mp hp'
    exact hne (List.ne_nil_of_mem hc) (List.ne_nil_of_mem hc') (congrArg Prod.fst he).symm

theorem joined_leftJoin {A : Assembly ρ ε C η} {l : List σ} {joined : σ → List β} {row : σ → Option β → ρ} (key : σ → String)
    (name : β → String) (head : σ → η) (hkey : ∀ x c, A.rowKey (row x c) = key x) (hhead : ∀ x c, A.rowHead (row x c) = head x)
    (hname : ∀ x c, (A.channel (row x c)).map (·.1) = c.map name) (hl : (l.map key).Nodup)
    (hj : ∀ x ∈ l, ((joined x).map name).Nodup) : Joined A (leftJoin l joined row) := by
  constructor
  · have hof : ∀ r ∈ leftJoin l joined row, ∃ x ∈ l, A.rowKey r = key x ∧ A.rowHead r = head x := fun r =>
      of_mem_leftJoin (P := fun r x => A.rowKey r = key x ∧ A.rowHead r = head x) fun x c => ⟨hkey x c, hhead x c⟩
    intro r hr r' hr' he
    obtain ⟨x, hx, hk, hh⟩ := hof r hr
    obtain ⟨x', hx', hk', hh'⟩ := hof r' hr'
    rw [hh, hh', List.inj_on_of_nodup_map hl hx hx' (by rw [← hk, ← hk', he])]
  · exact nodup_names_leftJoin name hkey hname ((List.pairwise_map.mp hl).imp fun hne _ _ => hne) hj

/-- A database that joins one schema after another. -/
theorem grouped_leftJoin {rowKey : ρ → String} {l : List σ} {joined : σ → List β} {row : σ → Option β → ρ} {key : σ → String}
    (hkey : ∀ x c, rowKey (row x c) = key x) (hl : (l.map key).Nodup) : Grouped rowKey (leftJoin l joined row) := by
  induction l with
  | nil => exact grouped_nil
  | cons x l ih =>
    obtain ⟨hx, hl⟩ := List.nodup_cons.mp hl
    have hof : ∀ r ∈ leftJoin [x] joined row, rowKey r = key x := by
      intro r hr
      obtain ⟨y, hy, hry⟩ := of_mem_leftJoin (P := fun r x => rowKey r = key x) hkey hr
      rw [hry, List.mem_singleton.mp hy]
    have hsplit : leftJoin (x :: l) joined row = leftJoin [x] joined row ++ leftJoin l joined row := by
      simp only [leftJoin, List.flatMap_cons, List.flatMap_nil, List.append_nil]
    rw [hsplit]
    refine grouped_append (fun a ha b hb => (hof a ha).trans (hof b hb).symm) (ih hl) ?_
    intro a ha b hb he
    obtain ⟨y, hy, hby⟩ := of_mem_leftJoin (P := fun r x => rowKey r = key x) hkey hb
    exact hx (List.mem_map.mpr ⟨y, hy, by rw [← hby, ← he, hof a ha]⟩)

/-- Entries made from each of `l` on its own. -/
theorem onePerKind_map {γ : Type} {A : Assembly ρ ε C η} {l : List σ} {chan : σ → Record γ}
    {row : σ → Option (String × γ) → ρ}
    (key : σ → String) (head : σ → η) (type : γ → ChannelType) (obj : σ → String → γ → C) {mk : σ → ε}
    (hkey : ∀ x c, A.rowKey (row x c) = key x) (hhead : ∀ x c, A.rowHead (row x c) = head x)
    (hchan : ∀ x c, A.channel (row x c) = c.map fun c => (c.1, type c.2, obj x c.1 c.2)) (hl : (l.map key).Nodup)
    (hmk : ∀ x, A.key (mk x) = key x) (hmkh : ∀ x, A.head (mk x) = head x)
    (hmkc : ∀ x what, A.channels (mk x) what =
      (chan x).filterMap fun name c => if type c = what then some (obj x name c) else none) :
    OnePerKind A (leftJoin l (fun x => (chan x).entries) row) (l.map mk) := by
  have hmap : (l.map mk).map A.key = l.map key := by
    rw [List.map_map]
    exact List.map_congr_left fun x _ => hmk x
  refine ⟨⟨?_, hmap ▸ hl, ?_⟩, ?_⟩
  · intro kind
    rw [hmap, mem_keys_leftJoin hkey, List.mem_map]
  · intro e he what name o
    obtain ⟨x, hx, rfl⟩ := List.mem_map.mp he
    rw [hmkc, Record.get?_filterMap, Option.bind_eq_some_iff, hmk, exists_channel_leftJoin obj hkey hchan]
    constructor
    · intro ⟨c, hc, ho⟩
      rw [Option.ite_none_right_eq_some] at ho
      exact ⟨x, hx, rfl, c, Record.mem_entries.mpr hc, ho.1, Option.some.inj ho.2⟩
    · intro ⟨y, hy, hk, c, hc, ht, ho⟩
      rw [List.inj_on_of_nodup_map hl hy hx hk] at hc ho
      exact ⟨c, Record.mem_entries.mp hc, by rw [if_pos ht, ho]⟩
  · intro e he r hr hk
    obtain ⟨x, hx, rfl⟩ := List.mem_map.mp he
    obtain ⟨y, hy, hry, hrh⟩ := of_mem_leftJoin (P := fun r x => A.rowKey r = key x ∧ A.rowHead r = head x)
      (fun x c => ⟨hkey x c, hhead x c⟩) hr
    rw [hmk, hry] at hk
    rw [hmkh, hrh, List.inj_on_of_nodup_map hl hy hx hk]

theorem nodup_schemasByKinds (db : SchemaDb V) (kinds : List String) (org : Option Int) :
    ((schemasByKinds db.toDb kinds org).map fun x => x.2.kind).Nodup := db.unique.nodup_select _

theorem typesByKinds_joined (db : SchemaDb V) (kinds : List String) (org : Option Int) :
    Joined typeAssembly (typesByKinds db.toDb kinds org) :=
  joined_leftJoin (fun x => x.2.kind) Prod.fst (fun x => x.2.kind_type) (fun _ _ => rfl) (fun _ _ => rfl)
    (fun _ c => by cases c <;> rfl) (nodup_schemasByKinds db kinds org)
    fun _ _ => (channelsOf ..).nodup

theorem metasByKinds_joined (db : SchemaDb V) (kinds : List String) (org : Option Int) (language : String) :
    Joined metaAssembly (metasByKinds db.toDb kinds org language) :=
  joined_leftJoin (fun x => x.2.kind) Prod.fst (fun x => (x.2.kind_type, x.2.kind_canonical))
    (fun _ _ => rfl) (fun _ _ => rfl) (fun _ c => by cases c <;> rfl) (nodup_schemasByKinds db kinds org)
    fun _ _ => (channelsOf ..).nodup

/-- The rows of a kind one after another give the entries of a database that is read
    schema by schema. -/
theorem typesByKinds_grouped (db : SchemaDb V) (kinds : List String) (org : Option Int) {rows : List TypeRow}
    (hp : rows.Perm (typesByKinds db.toDb kinds org)) (hg : Grouped (·.kind) rows) (hn : NoProto typeAssembly rows) :
    SameEntries typeAssembly (processTypeRows rows) (getTypesAndNamesByKinds db.toDb kinds org) := by
  have h := (onePerKind_iff ((typesByKinds_joined db kinds org).perm hp)).mpr ⟨hg, hn⟩
  have h' : OnePerKind typeAssembly (typesByKinds db.toDb kinds org) (getTypesAndNamesByKinds db.toDb kinds org) :=
    onePerKind_map (fun x => x.2.kind) (fun x => x.2.kind_type) (·.channel_type) (fun _ _ c => processTypeRow c)
      (fun _ _ => rfl) (fun _ _ => rfl) (fun _ c => by cases c <;> rfl)
      (nodup_schemasByKinds db kinds org) (fun _ => rfl) (fun _ => rfl) fun x what => by cases what <;> rfl
  exact ⟨exists_same hp.symm h h', exists_same hp h' h⟩

theorem metasByKinds_grouped (db : SchemaDb V) (kinds : List String) (org : Option Int) (language : String)
    {rows : List (MetaRow V)} (hp : rows.Perm (metasByKinds db.toDb kinds org language)) (hg : Grouped (·.kind) rows)
    (hn : NoProto metaAssembly rows) :
    SameEntries metaAssembly (processMetaRows rows) (getMetasByKinds db.toDb kinds org language) := by
  have h := (onePerKind_iff ((metasByKinds_joined db kinds org language).perm hp)).mpr ⟨hg, hn⟩
  have h' : OnePerKind metaAssembly (metasByKinds db.toDb kinds org language) (getMetasByKinds db.toDb kinds org language) := by
    refine onePerKind_map (fun x => x.2.kind) (fun x => (x.2.kind_type, x.2.kind_canonical))
      (·.channel_type) (fun x name c => processMetaRow c ((canonicalsOf db.toDb org language x).get? name))
      (fun _ _ => rfl) (fun _ _ => rfl) (fun _ c => by cases c <;> rfl) (nodup_schemasByKinds db kinds org) ?_ ?_ ?_
    · intro x
      cases x.2.version org <;> rfl
    · intro x
      cases x.2.version org <;> rfl
    · intro x what
      unfold channelsOf canonicalsOf
      cases x.2.version org <;> cases what <;> rfl
  exact ⟨exists_same hp.symm h h', exists_same hp h' h⟩

/-- The order in which `Thingpedia.Queries` reads the rows. -/
theorem byKinds_joined (db : SchemaDb V) (kinds : List String) (org : Option Int) (language : String)
    (htypes : NoProto typeAssembly (typesByKinds db.toDb kinds org))
    (hmetas : NoProto metaAssembly (metasByKinds db.toDb kinds org language)) :
    SameEntries typeAssembly (processTypeRows (typesByKinds db.toDb kinds org)) (getTypesAndNamesByKinds db.toDb kinds org) ∧
    SameEntries metaAssembly (processMetaRows (metasByKinds db.toDb kinds org language))
      (getMetasByKinds db.toDb kinds org language) := by
  have hnodup := nodup_schemasByKinds db kinds org
  constructor
  · exact typesByKinds_grouped db kinds org (.refl _) (grouped_leftJoin (fun _ _ => rfl) hnodup) htypes
  · exact metasByKinds_grouped db kinds org language (.refl _) (grouped_leftJoin (fun _ _ => rfl) hnodup) hmetas

/-- Both queries: every order of their rows gives one and the same right entry for each
    kind if and only if no order can put one kind between two rows of another and no
    function is called `__proto__`; one order does, as far as it goes, if and only if
    its rows come kind after kind. -/
theorem byKinds_rows_iff (db : SchemaDb V) (kinds : List String) (org : Option Int) (language : String) :
    let types := typesByKinds db.toDb kinds org
    let metas := metasByKinds db.toDb kinds org language
    (AnyOrder typeAssembly types ↔ Apart typeAssembly types ∧ NoProto typeAssembly types) ∧
    (AnyOrder metaAssembly metas ↔ Apart metaAssembly metas ∧ NoProto metaAssembly metas) ∧
    (∀ rows, rows.Perm types →
      (OnePerKind typeAssembly rows (processTypeRows rows) ↔ Grouped (·.kind) rows ∧ NoProto typeAssembly rows)) ∧
    ∀ rows, rows.Perm metas →
      (OnePerKind metaAssembly rows (processMetaRows rows) ↔ Grouped (·.kind) rows ∧ NoProto metaAssembly rows) := by
  intro types metas
  have ht : Joined typeAssembly types := typesByKinds_joined db kinds org
  have hm : Joined metaAssembly metas := metasByKinds_joined db kinds org language
  exact ⟨anyOrder_iff ht, anyOrder_iff hm, fun rows hp => onePerKind_iff (ht.perm hp), fun rows hp => onePerKind_iff (hm.perm hp)⟩

def plainChannel (what : ChannelType) : ChannelRow := ⟨what, "", none, [], [], [], [], [], false, false, false⟩

/-- Two approved schemas, each with a query and an action. -/
def twoKinds : SchemaDb Unit where
  toDb := { Db.empty with
    device_schema := (Table.empty.insert ⟨"com.a", "primary", some 1, 0, some 0, "a"⟩).insert
      ⟨"com.b", "primary", some 1, 0, some 0, "b"⟩
    device_schema_channels := fun _ _ => ⟨[("get", plainChannel .query), ("set", plainChannel .action)], by decide⟩ }
  unique := by
    refine (Table.Unique.insert (fun i j r r' hi => ?_) ?_).insert ?_
    · cases hi
    · intro i r' hr
      cases hr
    · intro i r' hr
      obtain ⟨-, rfl⟩ := Prod.mk.inj (List.mem_singleton.mp (Table.mem_rows.mpr hr))
      decide

theorem interleaved_rows : ¬AnyOrder typeAssembly (typesByKinds twoKinds.toDb ["com.a", "com.b"] none) := by
  intro h
  have hp : [typeRow ⟨"com.a", "primary", some 1, 0, some 0, "a"⟩ (some ("get", plainChannel .query)),
      typeRow ⟨"com.b", "primary", some 1, 0, some 0, "b"⟩ (some ("get", plainChannel .query)),
      typeRow ⟨"com.a", "primary", some 1, 0, some 0, "a"⟩ (some ("set", plainChannel .action)),
      typeRow ⟨"com.b", "primary", some 1, 0, some 0, "b"⟩ (some ("set", plainChannel .action))].Perm
      (typesByKinds twoKinds.toDb ["com.a", "com.b"] none) := by decide
  exact absurd (h _ hp).1.entries.nodup (by decide)

end GenieCloud.Thingpedia.SchemaRows
