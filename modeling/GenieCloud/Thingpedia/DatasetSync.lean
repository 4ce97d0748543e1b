/-
  GenieCloud.Thingpedia.DatasetSync — the examples of a schema and a language after the
  upload of a dataset (`ensureDataset` of `util/import_device.ts`, `createMany`,
  `deleteMany` and `update` of `model/example.ts`, the table `example_utterances` of
  `model/schema.sql`).

  `ensureDatasetOf` is `ensureDataset` with or without a class, into columns that cut
  texts or refuse them; where the texts fit it is the `ensureDataset` of an upload
  (`ensureDataset_of_ensureDatasetOf`). `Synchronized` says what is there afterwards: one
  row for each utterance, under the ids of the rows that stay. `dataset_synced_iff` says
  when it is so: when nothing else has the name of an example, and no row that is kept
  has the utterance of its example but another preprocessed text. Such a row is not
  written (`stale_preprocessed`).

  `Keyed` holds of every table: the unique key, and texts that fit. Blanks at the end of a
  name do not count in the key.
-/

import GenieCloud.Lib.Result
import GenieCloud.Lib.Varchar
import GenieCloud.Thingpedia.ExampleRows
import Mathlib.Data.List.Perm.Basic

namespace GenieCloud.Thingpedia

open GenieCloud.Lib

variable {V : Type} (P : Packages V)

/-! ## Columns and the key -/

/-- What the claims of a dataset are about: a row less its flags and its counts. -/
structure Content where
  target_code : String
  utterance : String
  preprocessed : String
  name : Option String
  deriving DecidableEq, Repr

def ExampleRow.content (ex : ExampleRow) : Content := ⟨ex.target_code, ex.utterance, ex.preprocessed, ex.name⟩

structure Content.Fits (c : Content) : Prop where
  target_code : bytes c.target_code.toList ≤ 65535
  utterance : bytes c.utterance.toList ≤ 65535
  preprocessed : bytes c.preprocessed.toList ≤ 65535
  name : ∀ n, c.name = some n → basicPlane n = true ∧ n.length ≤ 128

/-- The column `name`, which may be null. -/
def keepName : Option String → Option (Option String)
  | none => some none
  | some n => (basicColumn (varchar 128) n).map some

def ExampleRow.columns (ex : ExampleRow) : Option ExampleRow := do
  let utterance ← text 65535 ex.utterance
  let preprocessed ← text 65535 ex.preprocessed
  let target_code ← text 65535 ex.target_code
  let name ← keepName ex.name
  return { ex with utterance, preprocessed, target_code, name }

/-- The key `intent_name`: a row without a schema or a name is free of it. -/
def sameKey (a b : ExampleRow) : Bool :=
  a.schema_id.isSome && a.name.isSome && a.schema_id == b.schema_id && a.language == b.language &&
    a.name.map unpadded == b.name.map unpadded

def insertStored (examples : Table ExampleRow) (ex : ExampleRow) : Option (Table ExampleRow) := do
  let row ← ex.columns
  if examples.rows.any fun r => sameKey row r.2 then none else some (examples.insert row)

def updateStored (u : Nat × String × String) : Option (Nat × String × String) := do
  let utterance ← text 65535 u.2.1
  let preprocessed ← text 65535 u.2.2
  return (u.1, utterance, preprocessed)

/-! ## The synchronization -/

/-- The examples made up for the class, if there is one. -/
def generatedExamples (schemaId : Nat) (language : String) : Option (ClassDef V) → List ExampleRow
  | none => []
  | some classDef => syntheticExamples P schemaId language classDef.kind "query" classDef.queries ++
      syntheticExamples P schemaId language classDef.kind "action" classDef.actions

def datasetExamples (dataset : Dataset) (old : List (Nat × ExampleRow)) (schemaId : Nat) : List ExampleRow :=
  let language := dataset.inLanguage
  dataset.examples.flatMap fun ex =>
    (if (ex.kept old language).isNone then
      [templateExample schemaId language ex.code ex.utterance ex.preprocessed (some ex.name)] else []) ++
    ex.others.map fun u => templateExample schemaId language ex.code u.1 u.2 none

/-- `ensureDataset`; without a class it does not see the synthetic examples. -/
def ensureDatasetOf (db : Db V) (schemaId : Nat) (classDef : Option (ClassDef V)) (dataset : Dataset) :
    Option (Db V × Bool) := do
  let old := getBaseBySchema db schemaId dataset.inLanguage classDef.isSome
  let deleted := toDelete dataset old
  let updated := toUpdate dataset old
  let created := generatedExamples P schemaId dataset.inLanguage classDef ++ datasetExamples dataset old schemaId
  if deleted.isEmpty && created.isEmpty && updated.isEmpty then return (db, false)
  let db := deleteMany db deleted
  let updated ← updated.mapM updateStored
  let db := updated.foldl (fun db u => updateExample db u.1 u.2.1 u.2.2) db
  let table ← created.foldlM insertStored db.example_utterances
  return ({ db with example_utterances := table }, true)

/-! ## What it is for -/

def Example.content (ex : Example) : Content := ⟨ex.code, ex.utterance, ex.preprocessed, some ex.name⟩

/-- One for each utterance; the name goes with the first. -/
def Example.contents (ex : Example) : List Content := ex.content :: ex.others.map fun u => ⟨ex.code, u.1, u.2, none⟩

def uploadedContents (schemaId : Nat) (classDef : Option (ClassDef V)) (dataset : Dataset) : List Content :=
  (generatedExamples P schemaId dataset.inLanguage classDef).map ExampleRow.content ++
    dataset.examples.flatMap Example.contents

/-- A row whose name and program are those of an example. -/
def Example.Names (ex : Example) (r : ExampleRow) : Prop := r.name = some ex.name ∧ r.target_code = ex.code

structure Synchronized (db db' : Db V) (schemaId : Nat) (classDef : Option (ClassDef V)) (dataset : Dataset) : Prop where
  contents : ((getBaseBySchema db' schemaId dataset.inLanguage classDef.isSome).map fun x => x.2.content).Perm
    (uploadedContents P schemaId classDef dataset)
  kept : ∀ i r, (i, r) ∈ getBaseBySchema db schemaId dataset.inLanguage classDef.isSome →
    ∀ ex ∈ dataset.examples, ex.Names r →
      ∃ r', (i, r') ∈ getBaseBySchema db' schemaId dataset.inLanguage classDef.isSome ∧ r'.content = ex.content
  gone : ∀ i r, (i, r) ∈ getBaseBySchema db schemaId dataset.inLanguage classDef.isSome →
    (∀ ex ∈ dataset.examples, ¬ex.Names r) → db'.example_utterances.get? i = none
  synthetic : classDef = none →
    (getBaseBySchema db' schemaId dataset.inLanguage true).filter (·.2.flags.contains "synthetic") =
      (getBaseBySchema db schemaId dataset.inLanguage true).filter (·.2.flags.contains "synthetic")

/-- When a dataset is synchronized. -/
structure Synchronizes (db : Db V) (schemaId : Nat) (classDef : Option (ClassDef V)) (dataset : Dataset) : Prop where
  fits : ∀ c ∈ uploadedContents P schemaId classDef dataset, c.Fits
  names : dataset.examples.Pairwise fun a b => unpadded a.name ≠ unpadded b.name
  /-- No other row of the schema and the language has the name of an example. -/
  free : ∀ i r, db.example_utterances.get? i = some r → r.schema_id = some schemaId → r.language = dataset.inLanguage →
    ∀ ex ∈ dataset.examples, r.name.map unpadded = some (unpadded ex.name) →
      (i, r) ∈ getBaseBySchema db schemaId dataset.inLanguage classDef.isSome
  /-- An empty name is no name. -/
  named : ∀ i r, (i, r) ∈ getBaseBySchema db schemaId dataset.inLanguage classDef.isSome →
    ∀ ex ∈ dataset.examples, ex.Names r → ex.name ≠ ""
  preprocessed : ∀ i r, (i, r) ∈ getBaseBySchema db schemaId dataset.inLanguage classDef.isSome →
    ∀ ex ∈ dataset.examples, ex.Names r → r.utterance = ex.utterance → r.preprocessed = ex.preprocessed

/-- How every table of examples is. -/
structure Keyed (t : Table ExampleRow) : Prop where
  apart : ∀ i j r s, t.get? i = some r → t.get? j = some s → sameKey r s = true → i = j
  fits : ∀ i r, t.get? i = some r → r.content.Fits

/-! ## What a column keeps -/

theorem keepName_some {name kept : Option String} (h : keepName name = some kept) :
    kept.map unpadded = name.map unpadded ∧ ∀ n, kept = some n → basicPlane n = true ∧ n.length ≤ 128 := by
  cases name with
  | none =>
    obtain rfl := Option.some.inj h
    refine ⟨rfl, ?_⟩
    intro n hn
    cases hn
  | some n =>
    obtain ⟨m, hm, rfl⟩ := Option.map_eq_some_iff.mp h
    obtain ⟨hplane, hm⟩ := basicColumn_eq_some.mp hm
    refine ⟨congrArg some (unpadded_varchar hm), ?_⟩
    intro n' hn'
    obtain rfl := Option.some.inj hn'
    exact ⟨basicPlane_varchar hplane hm, varchar_length hm⟩

theorem keepName_self {name : Option String} (h : ∀ n, name = some n → basicPlane n = true ∧ n.length ≤ 128) :
    keepName name = some name := by
  cases name with
  | none => rfl
  | some n =>
    obtain ⟨hplane, hlength⟩ := h n rfl
    rw [keepName, basicColumn_eq_some.mpr ⟨hplane, varchar_eq_self.mpr hlength⟩, Option.map_some]

/-- What is stored fits, and is not seen to differ by the key or by a condition on flags. -/
theorem columns_some {ex row : ExampleRow} (h : ex.columns = some row) :
    row.content.Fits ∧ row.name.map unpadded = ex.name.map unpadded ∧ row = { ex with
      utterance := row.utterance
      preprocessed := row.preprocessed
      target_code := row.target_code
      name := row.name } := by
  obtain ⟨utterance, hu, h⟩ := Option.bind_eq_some_iff.mp h
  obtain ⟨preprocessed, hp, h⟩ := Option.bind_eq_some_iff.mp h
  obtain ⟨target_code, hc, h⟩ := Option.bind_eq_some_iff.mp h
  obtain ⟨name, hn, h⟩ := Option.bind_eq_some_iff.mp h
  obtain rfl := Option.some.inj h
  obtain ⟨hname, hfits⟩ := keepName_some hn
  exact ⟨⟨text_bytes hc, text_bytes hu, text_bytes hp, hfits⟩, hname, rfl⟩

theorem columns_self {ex : ExampleRow} (h : ex.content.Fits) : ex.columns = some ex := by
  have hu : text 65535 ex.utterance = some ex.utterance := text_eq_self.mpr h.utterance
  have hp : text 65535 ex.preprocessed = some ex.preprocessed := text_eq_self.mpr h.preprocessed
  have hc : text 65535 ex.target_code = some ex.target_code := text_eq_self.mpr h.target_code
  have hn : keepName ex.name = some ex.name := keepName_self h.name
  rw [ExampleRow.columns, hu, hp, hc, hn]
  rfl

theorem updateStored_some {u stored : Nat × String × String} (h : updateStored u = some stored) :
    stored.1 = u.1 ∧ bytes stored.2.1.toList ≤ 65535 ∧ bytes stored.2.2.toList ≤ 65535 := by
  obtain ⟨utterance, hu, h⟩ := Option.bind_eq_some_iff.mp h
  obtain ⟨preprocessed, hp, h⟩ := Option.bind_eq_some_iff.mp h
  obtain rfl := Option.some.inj h
  exact ⟨rfl, text_bytes hu, text_bytes hp⟩

theorem updateStored_self {u : Nat × String × String} (hu : bytes u.2.1.toList ≤ 65535) (hp : bytes u.2.2.toList ≤ 65535) :
    updateStored u = some u := by
  rw [updateStored, text_eq_self.mpr hu, text_eq_self.mpr hp]
  rfl

/-! ## The table stays keyed -/

theorem sameKey_iff {a b : ExampleRow} : sameKey a b = true ↔ a.schema_id ≠ none ∧ a.name ≠ none ∧
    a.schema_id = b.schema_id ∧ a.language = b.language ∧ a.name.map unpadded = b.name.map unpadded := by
  simp only [sameKey, Bool.and_eq_true, beq_iff_eq, Option.isSome_iff_ne_none, and_assoc]

theorem sameKey_symm {a b : ExampleRow} (h : sameKey a b = true) : sameKey b a = true := by
  obtain ⟨hs, hn, hschema, hlanguage, hname⟩ := sameKey_iff.mp h
  refine sameKey_iff.mpr ⟨hschema ▸ hs, ?_, hschema.symm, hlanguage.symm, hname.symm⟩
  intro hb
  rw [hb, Option.map_none, Option.map_eq_none_iff] at hname
  exact hn hname

namespace Keyed

variable {t t' : Table ExampleRow}

theorem delete (h : Keyed t) (p : Nat → ExampleRow → Bool) : Keyed (t.delete p) := by
  have hget : ∀ i r, (t.delete p).get? i = some r → t.get? i = some r := by
    intro i r hr
    rw [Table.get?_delete] at hr
    exact (Option.filter_eq_some_iff.mp hr).1
  exact ⟨fun i j r s hr hs => h.apart i j r s (hget i r hr) (hget j s hs), fun i r hr => h.fits i r (hget i r hr)⟩

/-- Rows under new utterances keep their names. -/
theorem updates (h : Keyed t) {updates : List (Nat × String × String)}
    (hfits : ∀ u ∈ updates, bytes u.2.1.toList ≤ 65535 ∧ bytes u.2.2.toList ≤ 65535)
    (hget : ∀ i, t'.get? i = (t.get? i).map (rewrite updates i)) : Keyed t' := by
  constructor
  · intro i j r s hr hs hkey
    rw [hget] at hr hs
    obtain ⟨r0, hr0, rfl⟩ := Option.map_eq_some_iff.mp hr
    obtain ⟨s0, hs0, rfl⟩ := Option.map_eq_some_iff.mp hs
    apply h.apart i j r0 s0 hr0 hs0
    rcases rewrite_cases updates i r0 with ⟨hi, -⟩ | ⟨_, _, -, hi⟩ <;>
      rcases rewrite_cases updates j s0 with ⟨hj, -⟩ | ⟨_, _, -, hj⟩ <;>
      rw [hi, hj] at hkey <;> exact hkey
  · intro i r hr
    rw [hget] at hr
    obtain ⟨r0, hr0, rfl⟩ := Option.map_eq_some_iff.mp hr
    have h0 := h.fits i r0 hr0
    rcases rewrite_cases updates i r0 with ⟨hi, -⟩ | ⟨u, hu, -, hi⟩
    · rw [hi]
      exact h0
    · rw [hi]
      exact ⟨h0.target_code, (hfits u hu).1, (hfits u hu).2, h0.name⟩

theorem insert (h : Keyed t) {row : ExampleRow} (hfits : row.content.Fits)
    (hkey : t.rows.any (fun r => sameKey row r.2) = false) : Keyed (t.insert row) := by
  have hfree : ∀ i r, t.get? i = some r → sameKey row r = false := by
    intro i r hr
    have := List.any_eq_false.mp hkey (i, r) (Table.mem_rows.mpr hr)
    simpa using this
  constructor
  · intro i j r s hr hs hk
    rw [Table.get?_insert] at hr hs
    split at hr <;> split at hs
    · omega
    · obtain rfl := Option.some.inj hr
      rw [hfree j s hs] at hk
      cases hk
    · obtain rfl := Option.some.inj hs
      have := hfree i r hr
      rw [sameKey_symm hk] at this
      cases this
    · exact h.apart i j r s hr hs hk
  · intro i r hr
    rw [Table.get?_insert] at hr
    split at hr
    · obtain rfl := Option.some.inj hr
      exact hfits
    · exact h.fits i r hr

end Keyed

/-! ## Rows inserted -/

theorem insertStored_some {t t' : Table ExampleRow} {ex : ExampleRow} (h : insertStored t ex = some t') :
    ∃ row, ex.columns = some row ∧ t.rows.any (fun r => sameKey row r.2) = false ∧ t' = t.insert row := by
  obtain ⟨row, hrow, h⟩ := Option.bind_eq_some_iff.mp h
  split at h
  · cases h
  · rename_i hkey
    exact ⟨row, hrow, by simpa using hkey, (Option.some.inj h).symm⟩

/-- All rows of a list are inserted as the columns keep them. -/
theorem insertAll_some {l : List ExampleRow} {t t' : Table ExampleRow} (hkeyed : Keyed t)
    (h : l.foldlM insertStored t = some t') :
    Keyed t' ∧ ∃ rows, l.mapM ExampleRow.columns = some rows ∧ t' = rows.foldl Table.insert t := by
  induction l generalizing t with
  | nil =>
    obtain rfl := Option.some.inj h
    exact ⟨hkeyed, [], rfl, rfl⟩
  | cons ex l ih =>
    rw [List.foldlM_cons] at h
    obtain ⟨t1, h1, h⟩ := Option.bind_eq_some_iff.mp h
    obtain ⟨row, hrow, hkey, rfl⟩ := insertStored_some h1
    obtain ⟨hkeyed', rows, hrows, rfl⟩ := ih (hkeyed.insert (columns_some hrow).1 hkey) h
    refine ⟨hkeyed', row :: rows, Result.mapM_eq_some.mpr ?_, rfl⟩
    rw [List.map_cons, hrow, Result.mapM_eq_some.mp hrows, List.map_cons]

/-- Rows that fit, under keys that are free, are inserted. -/
theorem insertAll_of_free {l : List ExampleRow} {t : Table ExampleRow} (hfits : ∀ ex ∈ l, ex.content.Fits)
    (hfree : ∀ ex ∈ l, ∀ i r, t.get? i = some r → sameKey ex r = false) (hpair : l.Pairwise fun a b => sameKey b a = false) :
    l.foldlM insertStored t = some (l.foldl Table.insert t) := by
  induction l generalizing t with
  | nil => rfl
  | cons ex l ih =>
    obtain ⟨hex, hl⟩ := List.pairwise_cons.mp hpair
    have hkey : t.rows.any (fun r => sameKey ex r.2) = false := by
      apply List.any_eq_false.mpr
      intro x hx
      rw [hfree ex (List.mem_cons_self ..) x.1 x.2 (Table.mem_rows.mp hx)]
      exact Bool.false_ne_true
    have hone : insertStored t ex = some (t.insert ex) := by
      rw [insertStored, columns_self (hfits ex (List.mem_cons_self ..)), Option.bind_eq_bind, Option.bind_some, hkey]
      rfl
    rw [List.foldlM_cons, hone, Option.bind_eq_bind, Option.bind_some, List.foldl_cons]
    apply ih (fun ex hex => hfits ex (List.mem_cons_of_mem _ hex)) _ hl
    intro ex' hex' i r hr
    rw [Table.get?_insert] at hr
    split at hr
    · obtain rfl := Option.some.inj hr
      exact hex ex' hex'
    · exact hfree ex' (List.mem_cons_of_mem _ hex') i r hr

/-! ## The table afterwards -/

section Synced

variable (db : Db V) (schemaId : Nat) (classDef : Option (ClassDef V)) (dataset : Dataset)

def oldExamples : List (Nat × ExampleRow) := getBaseBySchema db schemaId dataset.inLanguage classDef.isSome

def createdExamples : List ExampleRow :=
  generatedExamples P schemaId dataset.inLanguage classDef ++
    datasetExamples dataset (oldExamples db schemaId classDef dataset) schemaId

/-- The table once rows are deleted and rewritten. -/
def keptExamples (updated : List (Nat × String × String)) : Table ExampleRow :=
  updated.foldl (fun t u => t.update (fun i _ => i = u.1) fun ex => { ex with utterance := u.2.1, preprocessed := u.2.2 })
    (db.example_utterances.delete fun i _ => (toDelete dataset (oldExamples db schemaId classDef dataset)).contains i)

def syncedExamples : Option (Table ExampleRow) := do
  let updated ← (toUpdate dataset (oldExamples db schemaId classDef dataset)).mapM updateStored
  (createdExamples P db schemaId classDef dataset).foldlM insertStored (keptExamples db schemaId classDef dataset updated)

/-- With nothing to do the table stays as it is, and so it is written in one way. -/
theorem ensureDatasetOf_table :
    (ensureDatasetOf P db schemaId classDef dataset).map (·.1) =
      (syncedExamples P db schemaId classDef dataset).map fun t => { db with example_utterances := t } := by
  unfold ensureDatasetOf syncedExamples createdExamples keptExamples oldExamples
  dsimp only
  generalize getBaseBySchema db schemaId dataset.inLanguage classDef.isSome = old
  split
  · rename_i hempty
    simp only [Bool.and_eq_true, List.isEmpty_iff] at hempty
    obtain ⟨⟨hd, hc⟩, hu⟩ := hempty
    rw [hd, hc, hu]
    have hsame : db.example_utterances.delete (fun i _ => ([] : List Nat).contains i) = db.example_utterances :=
      Table.delete_eq_self fun _ _ _ => rfl
    simp only [List.mapM_nil, pure_bind, List.foldlM_nil, List.foldl_nil, hsame]
    rfl
  · cases (toUpdate dataset old).mapM updateStored with
    | none => rfl
    | some updated =>
      simp only [Option.bind_eq_bind, Option.bind_some, updateExamples_eq, deleteMany]
      cases List.foldlM insertStored _ _ <;> rfl

variable {P} {db schemaId classDef dataset}

theorem ensureDatasetOf_iff (Q : Db V → Prop) :
    (∃ db' changed, ensureDatasetOf P db schemaId classDef dataset = some (db', changed) ∧ Q db') ↔
      ∃ t, syncedExamples P db schemaId classDef dataset = some t ∧ Q { db with example_utterances := t } := by
  have htable := ensureDatasetOf_table P db schemaId classDef dataset
  constructor
  · intro ⟨db', changed, h, hq⟩
    rw [h, Option.map_some] at htable
    obtain ⟨t, ht, rfl⟩ := Option.map_eq_some_iff.mp htable.symm
    exact ⟨t, ht, hq⟩
  · intro ⟨t, ht, hq⟩
    rw [ht, Option.map_some] at htable
    obtain ⟨x, hx, hdb⟩ := Option.map_eq_some_iff.mp htable
    exact ⟨x.1, x.2, hx, hdb ▸ hq⟩

/-- The rows that `getBaseBySchema` selects. -/
def baseExample (schemaId : Nat) (language : String) (includeSynthetic : Bool) (ex : ExampleRow) : Bool :=
  ex.schema_id = some schemaId && ex.is_base && ex.type = "thingpedia" && ex.language = language &&
    (includeSynthetic || !ex.flags.contains "synthetic")

theorem mem_getBaseBySchema {language : String} {includeSynthetic : Bool} {i : Nat} {r : ExampleRow} :
    (i, r) ∈ getBaseBySchema db schemaId language includeSynthetic ↔
      db.example_utterances.get? i = some r ∧ baseExample schemaId language includeSynthetic r = true := by
  rw [getBaseBySchema, Table.mem_select]
  rfl

theorem mem_oldExamples {i : Nat} {r : ExampleRow} : (i, r) ∈ oldExamples db schemaId classDef dataset ↔
    db.example_utterances.get? i = some r ∧ baseExample schemaId dataset.inLanguage classDef.isSome r = true :=
  mem_getBaseBySchema

theorem baseExample_schema {language : String} {includeSynthetic : Bool} {r : ExampleRow}
    (h : baseExample schemaId language includeSynthetic r = true) : r.schema_id = some schemaId ∧ r.language = language := by
  simp only [baseExample, Bool.and_eq_true, decide_eq_true_eq] at h
  exact ⟨h.1.1.1.1, h.1.2⟩

/-- Two of the rows have one name only if they are one row. -/
theorem oldExamples_name (hkeyed : Keyed db.example_utterances) {i j : Nat} {r s : ExampleRow} {n : String}
    (hr : (i, r) ∈ oldExamples db schemaId classDef dataset) (hs : (j, s) ∈ oldExamples db schemaId classDef dataset)
    (hrn : r.name = some n) (hsn : s.name = some n) : i = j ∧ r = s := by
  obtain ⟨hri, hrb⟩ := mem_oldExamples.mp hr
  obtain ⟨hsj, hsb⟩ := mem_oldExamples.mp hs
  obtain ⟨hrschema, hrlanguage⟩ := baseExample_schema hrb
  obtain ⟨hsschema, hslanguage⟩ := baseExample_schema hsb
  have hij : i = j := by
    apply hkeyed.apart i j r s hri hsj
    exact sameKey_iff.mpr ⟨by simp [hrschema], by simp [hrn], by rw [hrschema, hsschema], by rw [hrlanguage, hslanguage],
      by rw [hrn, hsn]⟩
  subst hij
  exact ⟨rfl, Option.some.inj (hri.symm.trans hsj)⟩

/-- An example keeps the row it names, if it has a name. -/
theorem kept_iff (hkeyed : Keyed db.example_utterances) {ex : Example} {i : Nat} {r : ExampleRow} :
    ex.kept (oldExamples db schemaId classDef dataset) dataset.inLanguage = some (i, r) ↔
      ex.name ≠ "" ∧ (i, r) ∈ oldExamples db schemaId classDef dataset ∧ ex.Names r := by
  unfold Example.kept
  split
  · rename_i hname
    constructor
    · intro h
      cases h
    · intro h
      exact absurd hname h.1
  · rename_i hname
    rw [Option.filter_eq_some_iff]
    constructor
    · intro ⟨hfind, hcode⟩
      have hn := List.find?_some hfind
      have hmem := List.mem_reverse.mp (List.mem_of_find?_eq_some hfind)
      simp only [Bool.and_eq_true, decide_eq_true_eq] at hn hcode
      exact ⟨hname, hmem, hn, hcode.1⟩
    · intro ⟨_, hmem, hn, hcode⟩
      obtain ⟨_, hb⟩ := mem_oldExamples.mp hmem
      refine ⟨?_, by simp [hcode, (baseExample_schema hb).2]⟩
      cases hfind : (oldExamples db schemaId classDef dataset).reverse.find? (fun r => decide (r.2.name = some ex.name)) with
      | none =>
        have := List.find?_eq_none.mp hfind (i, r) (List.mem_reverse.mpr hmem)
        exact absurd (decide_eq_true hn) this
      | some x =>
        have hx := List.find?_some hfind
        have hxmem := List.mem_reverse.mp (List.mem_of_find?_eq_some hfind)
        obtain ⟨hi, hr⟩ := oldExamples_name hkeyed hxmem hmem (of_decide_eq_true hx) hn
        exact congrArg some (Prod.ext hi hr)

theorem mem_toDelete_iff (hkeyed : Keyed db.example_utterances) {i : Nat} {r : ExampleRow}
    (hr : (i, r) ∈ oldExamples db schemaId classDef dataset) :
    i ∈ toDelete dataset (oldExamples db schemaId classDef dataset) ↔ ∀ ex ∈ dataset.examples, ex.Names r → ex.name = "" := by
  rw [toDelete, List.mem_filter, and_iff_right (List.mem_map_of_mem hr), Bool.not_eq_true', List.any_eq_false]
  constructor
  · intro h ex hex hnames
    by_contra hname
    apply h ex hex
    rw [(kept_iff hkeyed).mpr ⟨hname, hr, hnames⟩]
    exact beq_self_eq_true i
  · intro h ex hex hany
    cases hs : ex.kept (oldExamples db schemaId classDef dataset) dataset.inLanguage with
    | none =>
      rw [hs] at hany
      cases hany
    | some x =>
      obtain ⟨j, s⟩ := x
      rw [hs] at hany
      obtain rfl : j = i := eq_of_beq hany
      obtain ⟨hname, hmem, hnames⟩ := (kept_iff hkeyed).mp hs
      have hsr : s = r := Option.some.inj ((mem_oldExamples.mp hmem).1.symm.trans (mem_oldExamples.mp hr).1)
      exact hname (h ex hex (hsr ▸ hnames))

theorem toDelete_old {i : Nat} (h : i ∈ toDelete dataset (oldExamples db schemaId classDef dataset)) :
    ∃ r, (i, r) ∈ oldExamples db schemaId classDef dataset := by
  obtain ⟨x, hx, rfl⟩ := List.mem_map.mp (List.mem_filter.mp h).1
  exact ⟨x.2, hx⟩

theorem keptExamples_get? (updated : List (Nat × String × String)) (i : Nat) :
    (keptExamples db schemaId classDef dataset updated).get? i =
      if i ∈ toDelete dataset (oldExamples db schemaId classDef dataset) then none
      else (db.example_utterances.get? i).map (rewrite updated i) := by
  rw [keptExamples, get?_updates, Table.get?_delete]
  cases db.example_utterances.get? i with
  | none => split <;> rfl
  | some r => by_cases hd : i ∈ toDelete dataset (oldExamples db schemaId classDef dataset) <;> simp [hd]

theorem keptExamples_next (updated : List (Nat × String × String)) :
    (keptExamples db schemaId classDef dataset updated).next = db.example_utterances.next := by
  rw [keptExamples, next_updates]
  rfl

/-- What an update says, and of which example. -/
theorem mem_updated (hkeyed : Keyed db.example_utterances) {updated : List (Nat × String × String)}
    (hupdated : (toUpdate dataset (oldExamples db schemaId classDef dataset)).mapM updateStored = some updated)
    {u : Nat × String × String} : u ∈ updated ↔ ∃ ex ∈ dataset.examples, ∃ r, ex.name ≠ "" ∧
      (u.1, r) ∈ oldExamples db schemaId classDef dataset ∧ ex.Names r ∧ r.utterance ≠ ex.utterance ∧
      updateStored (u.1, ex.utterance, ex.preprocessed) = some u := by
  rw [Result.mem_of_mapM hupdated]
  constructor
  · intro ⟨a, ha, hu⟩
    obtain ⟨ex, hex, ha⟩ := List.mem_filterMap.mp ha
    obtain ⟨⟨i, r⟩, hr, rfl⟩ := Option.map_eq_some_iff.mp ha
    obtain ⟨hkept, hne⟩ := Option.filter_eq_some_iff.mp hr
    obtain ⟨hname, hmem, hnames⟩ := (kept_iff hkeyed).mp hkept
    have hi := (updateStored_some hu).1
    exact ⟨ex, hex, r, hname, by rw [hi]; exact hmem, hnames, by simpa using hne, by rw [hi]; exact hu⟩
  · intro ⟨ex, hex, r, hname, hmem, hnames, hne, hu⟩
    refine ⟨_, List.mem_filterMap.mpr ⟨ex, hex, ?_⟩, hu⟩
    rw [(kept_iff hkeyed).mpr ⟨hname, hmem, hnames⟩, Option.filter_some, if_pos (by simpa using hne)]
    rfl

/-- A row is named by one example at most. -/
theorem names_unique (hnames : (dataset.examples.map (·.name)).Nodup) {ex ex' : Example} (hex : ex ∈ dataset.examples)
    (hex' : ex' ∈ dataset.examples) {r : ExampleRow} (h : ex.Names r) (h' : ex'.Names r) : ex' = ex :=
  List.inj_on_of_nodup_map hnames hex' hex (Option.some.inj (h'.1.symm.trans h.1))

section Rewrite

variable {updated : List (Nat × String × String)} {i : Nat} {r : ExampleRow} (hkeyed : Keyed db.example_utterances)
  (hupdated : (toUpdate dataset (oldExamples db schemaId classDef dataset)).mapM updateStored = some updated)

include hkeyed hupdated

/-- A row that is not among the old ones is not written. -/
theorem rewrite_other (h : ∀ s, (i, s) ∉ oldExamples db schemaId classDef dataset) : rewrite updated i r = r := by
  rcases rewrite_cases updated i r with ⟨hi, -⟩ | ⟨u, hu, rfl, -⟩
  · exact hi
  · obtain ⟨_, _, s, -, hs, -⟩ := (mem_updated hkeyed hupdated).mp hu
    exact absurd hs (h s)

variable (hnames : (dataset.examples.map (·.name)).Nodup) {ex : Example} (hex : ex ∈ dataset.examples)
  (hr : (i, r) ∈ oldExamples db schemaId classDef dataset) (hexr : ex.Names r)

include hnames hex hr hexr

/-- An update of a row is that of the example that names it. -/
theorem updated_of_names {u : Nat × String × String} (hu : u ∈ updated) (hi : u.1 = i) :
    r.utterance ≠ ex.utterance ∧ updateStored (i, ex.utterance, ex.preprocessed) = some u := by
  subst hi
  obtain ⟨ex', hex', s, -, hs, hexs, hne, hu⟩ := (mem_updated hkeyed hupdated).mp hu
  obtain rfl : s = r := Option.some.inj ((mem_oldExamples.mp hs).1.symm.trans (mem_oldExamples.mp hr).1)
  obtain rfl := names_unique hnames hex hex' hexr hexs
  exact ⟨hne, hu⟩

theorem rewrite_same (heq : r.utterance = ex.utterance) : rewrite updated i r = r := by
  rcases rewrite_cases updated i r with ⟨hi, -⟩ | ⟨u, hu, hi, -⟩
  · exact hi
  · exact absurd heq (updated_of_names hkeyed hupdated hnames hex hr hexr hu hi).1

theorem rewrite_new (hname : ex.name ≠ "") (hne : r.utterance ≠ ex.utterance) :
    ∃ u, updateStored (i, ex.utterance, ex.preprocessed) = some u ∧
      rewrite updated i r = { r with utterance := u.2.1, preprocessed := u.2.2 } := by
  rcases rewrite_cases updated i r with ⟨-, hno⟩ | ⟨u, hu, hi, h⟩
  · have hmem : (i, ex.utterance, ex.preprocessed) ∈ toUpdate dataset (oldExamples db schemaId classDef dataset) := by
      refine List.mem_filterMap.mpr ⟨ex, hex, ?_⟩
      rw [(kept_iff hkeyed).mpr ⟨hname, hr, hexr⟩, Option.filter_some, if_pos (by simpa using hne)]
      rfl
    obtain ⟨u, hu⟩ := Option.isSome_iff_exists.mp (Result.mapM_isSome.mp ⟨_, hupdated⟩ _ hmem)
    exact absurd (updateStored_some hu).1 (hno u ((Result.mem_of_mapM hupdated).mpr ⟨_, hmem, hu⟩))
  · exact ⟨u, (updated_of_names hkeyed hupdated hnames hex hr hexr hu hi).2, h⟩

end Rewrite

theorem syncedExamples_some (hkeyed : Keyed db.example_utterances) {t : Table ExampleRow}
    (h : syncedExamples P db schemaId classDef dataset = some t) :
    Keyed t ∧ ∃ updated created,
      (toUpdate dataset (oldExamples db schemaId classDef dataset)).mapM updateStored = some updated ∧
      (createdExamples P db schemaId classDef dataset).mapM ExampleRow.columns = some created ∧
      t = created.foldl Table.insert (keptExamples db schemaId classDef dataset updated) := by
  obtain ⟨updated, hupdated, h⟩ := Option.bind_eq_some_iff.mp h
  have hfits : ∀ u ∈ updated, bytes u.2.1.toList ≤ 65535 ∧ bytes u.2.2.toList ≤ 65535 := by
    intro u hu
    obtain ⟨a, -, hu⟩ := (Result.mem_of_mapM hupdated).mp hu
    exact (updateStored_some hu).2
  have hkept : Keyed (keptExamples db schemaId classDef dataset updated) :=
    (hkeyed.delete _).updates hfits fun i => get?_updates ..
  obtain ⟨hkeyed', created, hcreated, rfl⟩ := insertAll_some hkept h
  exact ⟨hkeyed', updated, created, hupdated, hcreated, rfl⟩

/-- What is left of a row that was there: new rows do not take its id. -/
theorem syncedExamples_read (hkeyed : Keyed db.example_utterances) {t : Table ExampleRow}
    (h : syncedExamples P db schemaId classDef dataset = some t) :
    Keyed t ∧ ∃ updated,
      (toUpdate dataset (oldExamples db schemaId classDef dataset)).mapM updateStored = some updated ∧
      ∀ i r, db.example_utterances.get? i = some r → t.get? i =
        if i ∈ toDelete dataset (oldExamples db schemaId classDef dataset) then none else some (rewrite updated i r) := by
  obtain ⟨hkeyed', updated, created, hupdated, -, rfl⟩ := syncedExamples_some hkeyed h
  refine ⟨hkeyed', updated, hupdated, ?_⟩
  intro i r hr
  rw [Table.get?_insertAll_of_lt, keptExamples_get?, hr]
  · rfl
  · rw [keptExamples_next]
    exact Table.lt_next hr

/-! ## What a synchronized table says of the upload -/

section Necessary

variable {t : Table ExampleRow} (hkeyed : Keyed db.example_utterances)
  (hnames : (dataset.examples.map (·.name)).Nodup) (ht : syncedExamples P db schemaId classDef dataset = some t)
  (hs : Synchronized P db { db with example_utterances := t } schemaId classDef dataset)

include hs

theorem row_of_content {c : Content} (hc : c ∈ uploadedContents P schemaId classDef dataset) :
    ∃ i r, t.get? i = some r ∧ baseExample schemaId dataset.inLanguage classDef.isSome r = true ∧ r.content = c := by
  obtain ⟨⟨i, r⟩, hr, rfl⟩ := List.mem_map.mp (hs.contents.mem_iff.mpr hc)
  obtain ⟨hget, hb⟩ := mem_getBaseBySchema.mp hr
  exact ⟨i, r, hget, hb, rfl⟩

theorem row_of_example {ex : Example} (hex : ex ∈ dataset.examples) :
    ∃ i r, t.get? i = some r ∧ baseExample schemaId dataset.inLanguage classDef.isSome r = true ∧ r.name = some ex.name := by
  have hc : ex.content ∈ uploadedContents P schemaId classDef dataset :=
    List.mem_append_right _ (List.mem_flatMap.mpr ⟨ex, hex, List.mem_cons_self ..⟩)
  obtain ⟨i, r, hr, hb, hrc⟩ := row_of_content hs hc
  exact ⟨i, r, hr, hb, congrArg Content.name hrc⟩

include hkeyed ht

/-- Whatever has the key of an example is its row. -/
theorem row_unique {ex : Example} (hex : ex ∈ dataset.examples) {j : Nat} {s : ExampleRow} (hj : t.get? j = some s)
    (hschema : s.schema_id = some schemaId) (hlanguage : s.language = dataset.inLanguage)
    (hname : s.name.map unpadded = some (unpadded ex.name)) :
    baseExample schemaId dataset.inLanguage classDef.isSome s = true ∧ s.name = some ex.name := by
  obtain ⟨i, r, hr, hb, hrn⟩ := row_of_example hs hex
  obtain ⟨hrschema, hrlanguage⟩ := baseExample_schema hb
  have hkey : sameKey r s = true :=
    sameKey_iff.mpr ⟨by simp [hrschema], by simp [hrn], by rw [hrschema, hschema], by rw [hrlanguage, hlanguage],
      by rw [hrn, hname]; rfl⟩
  obtain rfl := (syncedExamples_some hkeyed ht).1.apart i j r s hr hj hkey
  obtain rfl : r = s := Option.some.inj (hr.symm.trans hj)
  exact ⟨hb, hrn⟩

include hnames

theorem synchronizes_of_synchronized : Synchronizes P db schemaId classDef dataset := by
  obtain ⟨hkeyed', updated, hupdated, hread⟩ := syncedExamples_read hkeyed ht
  refine ⟨?_, ?_, ?_, ?_, ?_⟩
  · intro c hc
    obtain ⟨i, r, hr, -, rfl⟩ := row_of_content hs hc
    exact hkeyed'.fits i r hr
  · refine (List.pairwise_map.mp hnames).imp_of_mem ?_
    intro a b ha hb hne heq
    obtain ⟨i, r, hr, hbase, hrn⟩ := row_of_example hs ha
    obtain ⟨hschema, hlanguage⟩ := baseExample_schema hbase
    obtain ⟨-, hrb⟩ := row_unique hkeyed ht hs hb hr hschema hlanguage (by rw [hrn, Option.map_some, heq])
    exact hne (Option.some.inj (hrn.symm.trans hrb))
  · intro i r hr hschema hlanguage ex hex hname
    by_contra hold
    have hother : ∀ s, (i, s) ∉ oldExamples db schemaId classDef dataset := by
      intro s hs'
      obtain rfl : r = s := Option.some.inj (hr.symm.trans (mem_oldExamples.mp hs').1)
      exact hold hs'
    have hdelete : i ∉ toDelete dataset (oldExamples db schemaId classDef dataset) := by
      intro hd
      obtain ⟨s, hs'⟩ := toDelete_old hd
      exact hother s hs'
    have hstays := hread i r hr
    rw [if_neg hdelete, rewrite_other hkeyed hupdated hother] at hstays
    exact hold (mem_oldExamples.mpr ⟨hr, (row_unique hkeyed ht hs hex hstays hschema hlanguage hname).1⟩)
  · intro i r hr ex hex hexr hname
    obtain ⟨r', hr', -⟩ := hs.kept i r hr ex hex hexr
    have hdelete : i ∈ toDelete dataset (oldExamples db schemaId classDef dataset) := by
      apply (mem_toDelete_iff hkeyed hr).mpr
      intro ex' hex' hex'r
      rw [names_unique hnames hex hex' hexr hex'r]
      exact hname
    have hthere : t.get? i = some r' := (mem_getBaseBySchema.mp hr').1
    rw [hread i r (mem_oldExamples.mp hr).1, if_pos hdelete] at hthere
    cases hthere
  · intro i r hr ex hex hexr hutterance
    obtain ⟨r', hr', hcontent⟩ := hs.kept i r hr ex hex hexr
    have hthere : t.get? i = some r' := (mem_getBaseBySchema.mp hr').1
    rw [hread i r (mem_oldExamples.mp hr).1] at hthere
    split at hthere
    · cases hthere
    · rw [rewrite_same hkeyed hupdated hnames hex hr hexr hutterance] at hthere
      obtain rfl := Option.some.inj hthere
      exact congrArg Content.preprocessed hcontent

end Necessary

/-! ## The rows of an upload -/

/-- The row made of an example's first utterance, and those of the others. -/
theorem mem_exampleRows {old : List (Nat × ExampleRow)} {ex : Example} {row : ExampleRow}
    (h : row ∈ (if (ex.kept old dataset.inLanguage).isNone then
        [templateExample schemaId dataset.inLanguage ex.code ex.utterance ex.preprocessed (some ex.name)] else []) ++
      ex.others.map fun u => templateExample schemaId dataset.inLanguage ex.code u.1 u.2 none) :
    row.content ∈ ex.contents ∧
      (row.name = none ∨ row.name = some ex.name ∧ ex.kept old dataset.inLanguage = none) := by
  rcases List.mem_append.mp h with h | h
  · split at h
    · rename_i hkept
      obtain rfl := List.mem_singleton.mp h
      exact ⟨List.mem_cons_self .., Or.inr ⟨rfl, Option.isNone_iff_eq_none.mp hkept⟩⟩
    · cases h
  · obtain ⟨u, hu, rfl⟩ := List.mem_map.mp h
    exact ⟨List.mem_cons_of_mem _ (List.mem_map_of_mem hu), Or.inl rfl⟩

theorem mem_datasetExamples {old : List (Nat × ExampleRow)} {row : ExampleRow}
    (h : row ∈ datasetExamples dataset old schemaId) : ∃ ex ∈ dataset.examples, row.content ∈ ex.contents ∧
      (row.name = none ∨ row.name = some ex.name ∧ ex.kept old dataset.inLanguage = none) := by
  obtain ⟨ex, hex, h⟩ := List.mem_flatMap.mp h
  exact ⟨ex, hex, mem_exampleRows h⟩

theorem generatedExamples_name {language : String} {row : ExampleRow}
    (h : row ∈ generatedExamples P schemaId language classDef) : row.name = none := by
  cases classDef with
  | none => cases h
  | some classDef =>
    obtain h | h := List.mem_append.mp h <;> obtain ⟨x, -, h⟩ := List.mem_flatMap.mp h <;>
      obtain ⟨phrase, -, rfl⟩ := List.mem_map.mp h <;> rfl

theorem created_base {row : ExampleRow} (h : row ∈ createdExamples P db schemaId classDef dataset) :
    baseExample schemaId dataset.inLanguage classDef.isSome row = true := by
  rcases List.mem_append.mp h with h | h
  · cases classDef with
    | none => cases h
    | some classDef =>
      obtain h | h := List.mem_append.mp h <;> obtain ⟨x, -, h⟩ := List.mem_flatMap.mp h <;>
        obtain ⟨phrase, -, rfl⟩ := List.mem_map.mp h <;> simp [baseExample]
  · obtain ⟨ex, -, h⟩ := List.mem_flatMap.mp h
    rcases List.mem_append.mp h with h | h
    · split at h
      · obtain rfl := List.mem_singleton.mp h
        simp [baseExample, templateExample]
      · cases h
    · obtain ⟨u, -, rfl⟩ := List.mem_map.mp h
      simp [baseExample, templateExample]

section Fits

variable (hfits : ∀ c ∈ uploadedContents P schemaId classDef dataset, c.Fits)

include hfits

theorem created_fits {row : ExampleRow} (h : row ∈ createdExamples P db schemaId classDef dataset) : row.content.Fits := by
  apply hfits
  rcases List.mem_append.mp h with h | h
  · exact List.mem_append_left _ (List.mem_map_of_mem h)
  · obtain ⟨ex, hex, hmem, -⟩ := mem_datasetExamples h
    exact List.mem_append_right _ (List.mem_flatMap.mpr ⟨ex, hex, hmem⟩)

theorem example_fits {ex : Example} (hex : ex ∈ dataset.examples) : ex.content.Fits :=
  hfits _ (List.mem_append_right _ (List.mem_flatMap.mpr ⟨ex, hex, List.mem_cons_self ..⟩))

theorem updates_fit :
    (toUpdate dataset (oldExamples db schemaId classDef dataset)).mapM updateStored =
      some (toUpdate dataset (oldExamples db schemaId classDef dataset)) := by
  apply Result.mapM_eq_some.mpr
  apply List.map_congr_left
  intro u hu
  obtain ⟨ex, hex, hu⟩ := List.mem_filterMap.mp hu
  obtain ⟨x, -, rfl⟩ := Option.map_eq_some_iff.mp hu
  have hex' := example_fits hfits hex
  exact updateStored_self hex'.utterance hex'.preprocessed

end Fits

/-! ## What is enough -/

section Sufficient

variable (hc : Synchronizes P db schemaId classDef dataset)

include hc

theorem Synchronizes.nodup : (dataset.examples.map (·.name)).Nodup := by
  refine List.pairwise_map.mpr (hc.names.imp ?_)
  intro a b hne heq
  exact hne (congrArg unpadded heq)

theorem Synchronizes.unique {ex ex' : Example} (hex : ex ∈ dataset.examples) (hex' : ex' ∈ dataset.examples)
    (h : unpadded ex.name = unpadded ex'.name) : ex = ex' := by
  have hnodup : (dataset.examples.map fun ex => unpadded ex.name).Nodup := List.pairwise_map.mpr hc.names
  exact List.inj_on_of_nodup_map hnodup hex hex' h

/-- No row that is left has the name of a new one. -/
theorem created_free (hkeyed : Keyed db.example_utterances) {updated : List (Nat × String × String)} {row : ExampleRow}
    (hrow : row ∈ createdExamples P db schemaId classDef dataset) {j : Nat} {s : ExampleRow}
    (hs : (keptExamples db schemaId classDef dataset updated).get? j = some s) : sameKey row s = false := by
  by_contra hkey
  obtain ⟨-, hname, hschema, hlanguage, hnames⟩ := sameKey_iff.mp (Bool.not_eq_false _ ▸ hkey)
  obtain ⟨hrschema, hrlanguage⟩ := baseExample_schema (created_base hrow)
  obtain ⟨ex, hex, hrname, hexkept⟩ : ∃ ex ∈ dataset.examples, row.name = some ex.name ∧
      ex.kept (oldExamples db schemaId classDef dataset) dataset.inLanguage = none := by
    rcases List.mem_append.mp hrow with h | h
    · exact absurd (generatedExamples_name h) hname
    · obtain ⟨ex, hex, -, h | h⟩ := mem_datasetExamples h
      · exact absurd h hname
      · exact ⟨ex, hex, h⟩
  rw [keptExamples_get?] at hs
  split at hs
  · cases hs
  · rename_i hstays
    obtain ⟨s0, hs0, rfl⟩ := Option.map_eq_some_iff.mp hs
    -- rewritten or not, the row has the key it had
    have hsame : s0.schema_id = some schemaId ∧ s0.language = dataset.inLanguage ∧
        s0.name.map unpadded = some (unpadded ex.name) := by
      rw [hrname, Option.map_some] at hnames
      rw [hrschema] at hschema
      rw [hrlanguage] at hlanguage
      rcases rewrite_cases updated j s0 with ⟨hj, -⟩ | ⟨_, _, -, hj⟩ <;> rw [hj] at hschema hlanguage hnames <;>
        exact ⟨hschema.symm, hlanguage.symm, hnames.symm⟩
    have hold := hc.free j s0 hs0 hsame.1 hsame.2.1 ex hex hsame.2.2
    rw [mem_toDelete_iff hkeyed hold] at hstays
    push Not at hstays
    obtain ⟨ex', hex', hex's, hname'⟩ := hstays
    have hunpadded : unpadded ex'.name = unpadded ex.name := by
      have := hsame.2.2
      rw [hex's.1, Option.map_some] at this
      exact Option.some.inj this
    obtain rfl := hc.unique hex' hex hunpadded
    rw [(kept_iff hkeyed).mpr ⟨hname', hold, hex's⟩] at hexkept
    cases hexkept

/-- New rows have different names, or none. -/
theorem created_apart : (createdExamples P db schemaId classDef dataset).Pairwise fun a b => sameKey b a = false := by
  have hnone : ∀ {a b : ExampleRow}, b.name = none → sameKey b a = false := by
    intro a b hb
    simp [sameKey, hb]
  have hnone' : ∀ {a b : ExampleRow}, a.name = none → sameKey b a = false := by
    intro a b ha
    by_contra hkey
    have hkey' := sameKey_symm (Bool.not_eq_false _ ▸ hkey)
    rw [hnone ha] at hkey'
    cases hkey'
  refine List.pairwise_append.mpr ⟨List.pairwise_of_forall_mem_list ?_, List.pairwise_flatMap.mpr ⟨?_, ?_⟩, ?_⟩
  · intro a ha b _
    exact hnone' (generatedExamples_name ha)
  · intro ex _
    refine List.pairwise_append.mpr ⟨?_, List.pairwise_of_forall_mem_list ?_, ?_⟩
    · split
      · exact List.pairwise_singleton ..
      · exact List.Pairwise.nil
    · intro a _ b hb
      obtain ⟨u, -, rfl⟩ := List.mem_map.mp hb
      exact hnone rfl
    · intro a _ b hb
      obtain ⟨u, -, rfl⟩ := List.mem_map.mp hb
      exact hnone rfl
  · refine hc.names.imp ?_
    intro ex ex' hne a ha b hb
    by_contra hkey
    obtain ⟨-, hname, -, -, hnames⟩ := sameKey_iff.mp (Bool.not_eq_false _ ▸ hkey)
    rcases (mem_exampleRows hb).2 with h | ⟨hb', -⟩
    · exact hname h
    · rcases (mem_exampleRows ha).2 with h | ⟨ha', -⟩
      · rw [h, Option.map_none, Option.map_eq_none_iff] at hnames
        exact hname hnames
      · rw [ha', hb', Option.map_some, Option.map_some] at hnames
        exact hne (Option.some.inj hnames).symm
  · intro a ha b _
    exact hnone' (generatedExamples_name ha)

variable (hkeyed : Keyed db.example_utterances)

include hkeyed

/-- Nothing is cut and nothing is refused. -/
theorem syncedExamples_eq : syncedExamples P db schemaId classDef dataset =
    some ((createdExamples P db schemaId classDef dataset).foldl Table.insert
      (keptExamples db schemaId classDef dataset (toUpdate dataset (oldExamples db schemaId classDef dataset)))) := by
  rw [syncedExamples, updates_fit hc.fits, Option.bind_eq_bind, Option.bind_some]
  exact insertAll_of_free (fun row hrow => created_fits hc.fits hrow) (fun row hrow j s hs => created_free hc hkeyed hrow hs)
    (created_apart hc)

/-- A row that an example names holds the example. -/
theorem rewrite_content {ex : Example} (hex : ex ∈ dataset.examples) {i : Nat} {r : ExampleRow}
    (hr : (i, r) ∈ oldExamples db schemaId classDef dataset) (hexr : ex.Names r) :
    (rewrite (toUpdate dataset (oldExamples db schemaId classDef dataset)) i r).content = ex.content := by
  obtain ⟨hname, hcode⟩ := hexr
  by_cases heq : r.utterance = ex.utterance
  · rw [rewrite_same hkeyed (updates_fit hc.fits) hc.nodup hex hr ⟨hname, hcode⟩ heq, ExampleRow.content, hname, hcode, heq,
      hc.preprocessed i r hr ex hex ⟨hname, hcode⟩ heq]
    rfl
  · obtain ⟨u, hu, h⟩ := rewrite_new hkeyed (updates_fit hc.fits) hc.nodup hex hr ⟨hname, hcode⟩
      (hc.named i r hr ex hex ⟨hname, hcode⟩) heq
    have hfits := example_fits hc.fits hex
    have hself : updateStored (i, ex.utterance, ex.preprocessed) = some (i, ex.utterance, ex.preprocessed) :=
      updateStored_self hfits.utterance hfits.preprocessed
    obtain rfl := Option.some.inj (hself.symm.trans hu)
    rw [h, ExampleRow.content, hname, hcode]
    rfl

omit hc hkeyed in
/-- Neither the schema nor the flags of a row are rewritten. -/
theorem baseExample_rewrite (updates : List (Nat × String × String)) (i : Nat) (r : ExampleRow) {language : String}
    {includeSynthetic : Bool} : baseExample schemaId language includeSynthetic (rewrite updates i r) =
      baseExample schemaId language includeSynthetic r := by
  rcases rewrite_cases updates i r with ⟨h, -⟩ | ⟨_, _, -, h⟩
  · rw [h]
  · rw [h]
    rfl

/-- The rows that are left are those that examples keep. -/
theorem keptExamples_perm :
    ((keptExamples db schemaId classDef dataset (toUpdate dataset (oldExamples db schemaId classDef dataset))).select
        fun _ r => baseExample schemaId dataset.inLanguage classDef.isSome r).Perm
      (dataset.examples.filterMap fun ex => (ex.kept (oldExamples db schemaId classDef dataset) dataset.inLanguage).map
        fun x => (x.1, rewrite (toUpdate dataset (oldExamples db schemaId classDef dataset)) x.1 x.2)) := by
  apply (List.perm_ext_iff_of_nodup (Table.nodup_select ..) ?_).mpr
  · intro ⟨i, r'⟩
    rw [Table.mem_select, keptExamples_get?, List.mem_filterMap]
    constructor
    · intro ⟨hget, hb⟩
      split at hget
      · cases hget
      · rename_i hstays
        obtain ⟨r, hr, rfl⟩ := Option.map_eq_some_iff.mp hget
        rw [baseExample_rewrite] at hb
        have hold := mem_oldExamples.mpr ⟨hr, hb⟩
        rw [mem_toDelete_iff hkeyed hold] at hstays
        push Not at hstays
        obtain ⟨ex, hex, hexr, hname⟩ := hstays
        refine ⟨ex, hex, ?_⟩
        rw [(kept_iff hkeyed).mpr ⟨hname, hold, hexr⟩]
        rfl
    · intro ⟨ex, hex, h⟩
      obtain ⟨⟨j, r⟩, hkept, hx⟩ := Option.map_eq_some_iff.mp h
      obtain ⟨rfl, rfl⟩ := Prod.mk.inj hx
      obtain ⟨hname, hold, hexr⟩ := (kept_iff hkeyed).mp hkept
      obtain ⟨hr, hb⟩ := mem_oldExamples.mp hold
      have hstays : j ∉ toDelete dataset (oldExamples db schemaId classDef dataset) := by
        intro hd
        exact hname ((mem_toDelete_iff hkeyed hold).mp hd ex hex hexr)
      rw [if_neg hstays, hr]
      exact ⟨rfl, (baseExample_rewrite ..).trans hb⟩
  · refine List.pairwise_filterMap.mpr (hc.names.imp ?_)
    intro ex ex' hne b hb b' hb' heq
    obtain ⟨⟨i, r⟩, hkept, rfl⟩ := Option.map_eq_some_iff.mp hb
    obtain ⟨⟨j, s⟩, hkept', rfl⟩ := Option.map_eq_some_iff.mp hb'
    obtain ⟨-, hold, hexr⟩ := (kept_iff hkeyed).mp hkept
    obtain ⟨-, hold', hexs⟩ := (kept_iff hkeyed).mp hkept'
    obtain rfl : i = j := congrArg Prod.fst heq
    obtain rfl : r = s := Option.some.inj ((mem_oldExamples.mp hold).1.symm.trans (mem_oldExamples.mp hold').1)
    exact hne (congrArg unpadded (Option.some.inj (hexr.1.symm.trans hexs.1)))

omit hkeyed hc in
/-- The first utterances of the examples that keep a row, and what is made of the others. -/
theorem examples_perm (old : List (Nat × ExampleRow)) :
    ((dataset.examples.filterMap fun ex => (ex.kept old dataset.inLanguage).map fun _ => ex.content) ++
      (datasetExamples dataset old schemaId).map ExampleRow.content).Perm (dataset.examples.flatMap Example.contents) := by
  rw [List.filterMap_eq_flatMap_toList, datasetExamples, List.map_flatMap]
  refine (List.flatMap_append_perm ..).trans (List.Perm.of_eq (List.flatMap_congr ?_))
  intro ex _
  cases ex.kept old dataset.inLanguage <;> simp [Example.contents, Example.content, templateExample, ExampleRow.content]

theorem contents_perm {t : Table ExampleRow} (ht : syncedExamples P db schemaId classDef dataset = some t) :
    ((getBaseBySchema { db with example_utterances := t } schemaId dataset.inLanguage classDef.isSome).map
      fun x => x.2.content).Perm (uploadedContents P schemaId classDef dataset) := by
  obtain rfl := Option.some.inj ((syncedExamples_eq hc hkeyed).symm.trans ht)
  generalize hold : oldExamples db schemaId classDef dataset = old
  let kept := (keptExamples db schemaId classDef dataset (toUpdate dataset old)).select
    fun _ r => baseExample schemaId dataset.inLanguage classDef.isSome r
  have hkept : (kept.map fun x => x.2.content).Perm
      (dataset.examples.filterMap fun ex => (ex.kept old dataset.inLanguage).map fun _ => ex.content) := by
    subst hold
    refine ((keptExamples_perm hc hkeyed).map _).trans (List.Perm.of_eq ?_)
    rw [List.map_filterMap]
    apply List.filterMap_congr
    intro ex hex
    cases hk : ex.kept (oldExamples db schemaId classDef dataset) dataset.inLanguage with
    | none => rfl
    | some x =>
      obtain ⟨-, hold, hexr⟩ := (kept_iff hkeyed).mp hk
      exact congrArg some (rewrite_content hc hkeyed hex hold hexr)
  have hcreated : (createdExamples P db schemaId classDef dataset).filter
      (baseExample schemaId dataset.inLanguage classDef.isSome) = createdExamples P db schemaId classDef dataset :=
    List.filter_eq_self.mpr fun row hrow => created_base hrow
  have hselect := congrArg (List.map ExampleRow.content) (Table.select_insertAll (createdExamples P db schemaId classDef dataset)
    (keptExamples db schemaId classDef dataset (toUpdate dataset old))
    (baseExample schemaId dataset.inLanguage classDef.isSome))
  rw [hcreated, List.map_append, List.map_map, List.map_map] at hselect
  refine (List.Perm.of_eq hselect).trans ?_
  rw [createdExamples, List.map_append, hold]
  exact (hkept.append_right _).trans ((List.perm_append_comm_assoc ..).trans ((examples_perm old).append_left _))

omit hc in
/-- Without a class a synthetic row is none of the old ones: it stays, and no other comes. -/
theorem synthetic_row {t : Table ExampleRow} (ht : syncedExamples P db schemaId none dataset = some t) {i : Nat}
    {r : ExampleRow} (hsynthetic : r.flags.contains "synthetic" = true) :
    t.get? i = some r ↔ db.example_utterances.get? i = some r := by
  obtain ⟨-, updated, hupdated, hread⟩ := syncedExamples_read hkeyed ht
  have hbase : ∀ s : ExampleRow, s.flags = r.flags → baseExample schemaId dataset.inLanguage false s = false := by
    intro s hs
    simp only [baseExample, hs, hsynthetic]
    simp
  have hother : ∀ {s0 : ExampleRow}, db.example_utterances.get? i = some s0 → s0.flags = r.flags →
      ∀ s, (i, s) ∉ oldExamples db schemaId (none : Option (ClassDef V)) dataset := by
    intro s0 hs0 hflags s hs
    obtain ⟨hs, hb⟩ := mem_oldExamples.mp hs
    obtain rfl : s0 = s := Option.some.inj (hs0.symm.trans hs)
    exact absurd hb (by rw [Option.isSome_none, hbase s0 hflags]; exact Bool.false_ne_true)
  constructor
  · intro h
    obtain ⟨-, updated', created, hupdated', hcreated, rfl⟩ := syncedExamples_some hkeyed ht
    obtain rfl := Option.some.inj (hupdated.symm.trans hupdated')
    rcases Table.get?_insertAll h with h | h
    · rw [keptExamples_get?] at h
      split at h
      · cases h
      · obtain ⟨s0, hs0, hr⟩ := Option.map_eq_some_iff.mp h
        have hflags : s0.flags = r.flags := by
          rw [← hr]
          rcases rewrite_cases updated i s0 with ⟨hi, -⟩ | ⟨_, _, -, hi⟩ <;> rw [hi]
        rw [rewrite_other hkeyed hupdated (hother hs0 hflags)] at hr
        rw [hs0, hr]
    · obtain ⟨row, hrow, hr⟩ := (Result.mem_of_mapM hcreated).mp h
      have hb := created_base hrow
      rw [Option.isSome_none, hbase row (by rw [(columns_some hr).2.2])] at hb
      cases hb
  · intro hr
    rw [hread i r hr, if_neg]
    · exact congrArg some (rewrite_other hkeyed hupdated (hother hr rfl))
    · intro hd
      obtain ⟨s, hs⟩ := toDelete_old hd
      exact hother hr rfl s hs

theorem synchronized_of_synchronizes {t : Table ExampleRow} (ht : syncedExamples P db schemaId classDef dataset = some t) :
    Synchronized P db { db with example_utterances := t } schemaId classDef dataset := by
  obtain ⟨-, updated, hupdated, hread⟩ := syncedExamples_read hkeyed ht
  obtain rfl := Option.some.inj (hupdated.symm.trans (updates_fit hc.fits))
  refine ⟨contents_perm hc hkeyed ht, ?_, ?_, ?_⟩
  · intro i r hr ex hex hexr
    obtain ⟨hget, hb⟩ := mem_oldExamples.mp hr
    have hstays : i ∉ toDelete dataset (oldExamples db schemaId classDef dataset) := by
      intro hd
      exact hc.named i r hr ex hex hexr ((mem_toDelete_iff hkeyed hr).mp hd ex hex hexr)
    refine ⟨_, mem_getBaseBySchema.mpr ⟨?_, (baseExample_rewrite ..).trans hb⟩, rewrite_content hc hkeyed hex hr hexr⟩
    show t.get? i = _
    rw [hread i r hget, if_neg hstays]
  · intro i r hr hno
    show t.get? i = none
    rw [hread i r (mem_oldExamples.mp hr).1, if_pos]
    apply (mem_toDelete_iff hkeyed hr).mpr
    intro ex hex hexr
    exact absurd hexr (hno ex hex)
  · intro hclass
    subst hclass
    have hfilter : ∀ db : Db V, (getBaseBySchema db schemaId dataset.inLanguage true).filter (·.2.flags.contains "synthetic") =
        (db.example_utterances.select fun _ r => r.flags.contains "synthetic" &&
          baseExample schemaId dataset.inLanguage true r).map id := by
      intro db
      rw [List.map_id]
      exact List.filter_filter
    rw [hfilter, hfilter, Table.select_map_eq_iff (f := id) Prod.fst fun _ => rfl]
    intro i b
    constructor
    · intro ⟨r, hr, hp, hb⟩
      exact ⟨r, (synthetic_row hkeyed ht (Bool.and_eq_true_iff.mp hp).1).mp hr, hp, hb⟩
    · intro ⟨r, hr, hp, hb⟩
      exact ⟨r, (synthetic_row hkeyed ht (Bool.and_eq_true_iff.mp hp).1).mpr hr, hp, hb⟩

end Sufficient

/-- The examples of a schema and a language are those of the upload exactly when the upload
    can be stored, nothing else has its names, and no row it keeps is out of date. -/
theorem dataset_synced_iff (hkeyed : Keyed db.example_utterances) (hnames : (dataset.examples.map (·.name)).Nodup) :
    (∃ db' changed, ensureDatasetOf P db schemaId classDef dataset = some (db', changed) ∧
      Synchronized P db db' schemaId classDef dataset) ↔ Synchronizes P db schemaId classDef dataset := by
  rw [ensureDatasetOf_iff fun db' => Synchronized P db db' schemaId classDef dataset]
  constructor
  · intro ⟨t, ht, hs⟩
    exact synchronizes_of_synchronized hkeyed hnames ht hs
  · intro hc
    exact ⟨_, syncedExamples_eq hc hkeyed, synchronized_of_synchronizes hc hkeyed (syncedExamples_eq hc hkeyed)⟩

/-- The table is keyed afterwards. -/
theorem ensureDatasetOf_keyed (hkeyed : Keyed db.example_utterances) {db' : Db V} {changed : Bool}
    (h : ensureDatasetOf P db schemaId classDef dataset = some (db', changed)) : Keyed db'.example_utterances := by
  obtain ⟨t, ht, hdb⟩ := (ensureDatasetOf_iff fun d => d = db').mp ⟨db', changed, h, rfl⟩
  rw [← hdb]
  exact (syncedExamples_some hkeyed ht).1

/-! ## Uploads with a class -/

/-- A row that fits is inserted as it is, for its name is not taken. -/
theorem insertExample_of_insertStored {t t' : Table ExampleRow} {ex : ExampleRow} (hfits : ex.content.Fits)
    (h : insertStored t ex = some t') : insertExample t ex = some t' := by
  obtain ⟨row, hrow, hkey, rfl⟩ := insertStored_some h
  obtain rfl : ex = row := Option.some.inj ((columns_self hfits).symm.trans hrow)
  have hfree : nameTaken t ex = false := by
    rw [← Bool.not_eq_true]
    intro htaken
    simp only [nameTaken, Bool.and_eq_true, List.any_eq_true, decide_eq_true_eq, Option.isSome_iff_ne_none] at htaken
    obtain ⟨⟨hname, hschema⟩, x, hx, ⟨hl, hs⟩, hn⟩ := htaken
    exact absurd (sameKey_iff.mpr ⟨hschema, hname, hs.symm, hl.symm, by rw [hn]⟩) (List.any_eq_false.mp hkey x hx)
  rw [insertExample, hfree]
  rfl

theorem insertAll_of_stored {l : List ExampleRow} {t t' : Table ExampleRow} (hfits : ∀ ex ∈ l, ex.content.Fits)
    (h : l.foldlM insertStored t = some t') : l.foldlM insertExample t = some t' := by
  induction l generalizing t with
  | nil => exact h
  | cons ex l ih =>
    rw [List.foldlM_cons] at h ⊢
    obtain ⟨t1, h1, h⟩ := Option.bind_eq_some_iff.mp h
    rw [insertExample_of_insertStored (hfits ex (List.mem_cons_self ..)) h1]
    exact ih (fun x hx => hfits x (List.mem_cons_of_mem _ hx)) h

/-- Where the texts fit, what an upload does with its class is what is done here. -/
theorem ensureDataset_of_ensureDatasetOf {cls : ClassDef V} {db' : Db V} {changed : Bool}
    (hfits : ∀ c ∈ uploadedContents P schemaId (some cls) dataset, c.Fits)
    (h : ensureDatasetOf P db schemaId (some cls) dataset = some (db', changed)) :
    ensureDataset P db schemaId cls dataset = some (db', changed) := by
  have hcreated : toCreate P dataset (oldExamples db schemaId (some cls) dataset) schemaId cls =
      createdExamples P db schemaId (some cls) dataset := rfl
  have hold : getBaseBySchema db schemaId dataset.inLanguage true = oldExamples db schemaId (some cls) dataset := rfl
  have hold' : getBaseBySchema db schemaId dataset.inLanguage (some cls).isSome = oldExamples db schemaId (some cls) dataset :=
    rfl
  unfold ensureDataset
  unfold ensureDatasetOf at h
  dsimp only at h ⊢
  rw [hold'] at h
  rw [hold, hcreated]
  change (if (_ && (createdExamples P db schemaId (some cls) dataset).isEmpty && _) = true then _ else _) = _ at h
  split at h
  · rename_i hempty
    rw [if_pos hempty]
    exact h
  · rename_i hempty
    rw [if_neg hempty]
    rw [updates_fit hfits, Option.bind_eq_bind, Option.bind_some] at h
    obtain ⟨t, ht, h⟩ := Option.bind_eq_some_iff.mp h
    rw [createMany, insertAll_of_stored (fun ex hex => created_fits hfits hex) ht]
    exact h

end Synced

/-! ## An utterance that stays -/

section Cats

def noClass : Packages Unit where
  prettyprint _ _ := ""
  tokenize phrase := phrase
  deq _ _ := true

/-- The one example of a schema, as it was preprocessed when it was uploaded. -/
def catRow (preprocessed : String) : ExampleRow :=
  templateExample 1 "en" "query = @com.thecatapi.get();" "cat pictures" preprocessed (some "cats")

def catDb (preprocessed : String) : Db Unit := { Db.empty with example_utterances := Table.empty.insert (catRow preprocessed) }

def catDataset : Dataset where
  language := none
  examples := [⟨"cats", "query = @com.thecatapi.get();", "cat pictures", "cat pictures", [("get a cat", "get a cat")]⟩]

theorem catDb_get? {preprocessed : String} {i : Nat} {r : ExampleRow}
    (h : (catDb preprocessed).example_utterances.get? i = some r) : i = 1 ∧ r = catRow preprocessed :=
  Prod.mk.inj (List.mem_singleton.mp (Table.mem_rows.mpr h))

theorem catRow_fits : (catRow "cat pictures").content.Fits :=
  ⟨by decide, by decide, by decide, fun n hn => by obtain rfl := Option.some.inj hn; decide⟩

theorem dataset_synced_cats : ∃ db' changed, ensureDatasetOf noClass (catDb "cat pictures") 1 none catDataset =
    some (db', changed) ∧ Synchronized noClass (catDb "cat pictures") db' 1 none catDataset := by
  have hkeyed : Keyed (catDb "cat pictures").example_utterances := by
    constructor
    · intro i j r s hr hs _
      rw [(catDb_get? hr).1, (catDb_get? hs).1]
    · intro i r hr
      rw [(catDb_get? hr).2]
      exact catRow_fits
  have hnames : (catDataset.examples.map (·.name)).Nodup := List.nodup_singleton _
  refine (dataset_synced_iff hkeyed hnames).mpr ⟨?_, List.pairwise_singleton .., ?_, ?_, ?_⟩
  · intro c hc
    have hc' : c ∈ [(catRow "cat pictures").content, ⟨"query = @com.thecatapi.get();", "get a cat", "get a cat", none⟩] := hc
    rcases List.mem_cons.mp hc' with rfl | hc'
    · exact catRow_fits
    · obtain rfl := List.mem_singleton.mp hc'
      exact ⟨by decide, by decide, by decide, fun n hn => by cases hn⟩
  · intro i r hr _ _ _ _ _
    obtain ⟨rfl, rfl⟩ := catDb_get? hr
    exact List.mem_singleton.mpr rfl
  · intro i r _ ex hex _
    obtain rfl := List.mem_singleton.mp hex
    decide
  · intro i r hr ex hex _ _
    obtain rfl := List.mem_singleton.mp hex
    rw [(catDb_get? (mem_getBaseBySchema.mp hr).1).2]
    rfl

/-- An example that was preprocessed in another way, and uploaded again, stays so. -/
theorem stale_preprocessed : ¬∃ db' changed, ensureDatasetOf noClass (catDb "cat picture") 1 none catDataset =
    some (db', changed) ∧ Synchronized noClass (catDb "cat picture") db' 1 none catDataset := by
  intro ⟨db', changed, h, hs⟩
  have hrows : (ensureDatasetOf noClass (catDb "cat picture") 1 none catDataset).map (fun x =>
      (getBaseBySchema x.1 1 "en" false).map fun r => r.2.content) =
      some [(catRow "cat picture").content, ⟨"query = @com.thecatapi.get();", "get a cat", "get a cat", none⟩] := by
    rfl
  rw [h, Option.map_some, Option.some.injEq] at hrows
  have hperm := hs.contents
  rw [show (getBaseBySchema db' 1 catDataset.inLanguage (none : Option (ClassDef Unit)).isSome).map (fun x => x.2.content) = _
    from hrows] at hperm
  exact absurd hperm (by decide)

end Cats

end GenieCloud.Thingpedia
