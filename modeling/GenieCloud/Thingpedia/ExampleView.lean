/-
  GenieCloud.Thingpedia.ExampleView — what the dataset of an upload shows of its examples
  to those that do not own the schema.

  Examples have no versions: those of a schema are shown once the schema is, all of them.
  `base_iff`: the rows served in a language are those of before exactly if the upload has
  another language, or its schema is not shown, or its dataset keeps every row
  (`ExamplesKept`). Which of them a kind finds is told by the kinds of the devices
  (`byKinds_iff`).
-/

import GenieCloud.Thingpedia.DeviceView
import GenieCloud.Thingpedia.ExampleRows
import GenieCloud.Thingpedia.SchemaView

namespace GenieCloud.Thingpedia

open GenieCloud.Lib

variable {V : Type} {P : Packages V} {db db' : Db V} {classDef : ClassDef V} {dataset : Dataset} {u : Upload V} {j : Nat}
  {o : Option Nat} {language : String}

def ExampleRow.synthetic (ex : ExampleRow) : Bool := ex.flags.contains "synthetic"

/-- The kind of an example's schema, if that is shown. -/
def shownKind (db : Db V) (org : Option Int) (ex : ExampleRow) : Option String := ex.schema_id.bind (shownSchema db org)

/-- A row that is served. -/
structure Served (db : Db V) (org : Option Int) (language : String) (i : Nat) (ex : ExampleRow) : Prop where
  row : db.example_utterances.get? i = some ex
  template : ex.isTemplate language false = true
  shown : (shownKind db org ex).isSome = true

theorem any_visible (db : Db V) (org : Option Int) (ex : ExampleRow) (p : String → Bool) :
    ((ex.schema_id.bind db.device_schema.get?).any fun ds => p ds.kind && visible org ds.approved_version ds.owner) =
      (shownKind db org ex).any p := by
  unfold shownKind shownSchema
  cases ex.schema_id with
  | none => rfl
  | some j =>
    rw [Option.bind_some, Option.bind_some]
    cases db.device_schema.get? j with
    | none => rfl
    | some ds =>
      rw [Option.bind_some, Option.any_some]
      cases visible org ds.approved_version ds.owner <;> simp

/-! ## The queries -/

theorem served_select {i : Nat} {ex : ExampleRow} : (db.example_utterances.get? i = some ex ∧
    (ex.isTemplate language false && (getOrgId (asOrg o) = some (-1) || (ex.schema_id.bind db.device_schema.get?).any fun ds =>
      visible (getOrgId (asOrg o)) ds.approved_version ds.owner)) = true) ↔ Served db (getOrgId (asOrg o)) language i ex := by
  have hany := any_visible db (getOrgId (asOrg o)) ex fun _ => true
  simp only [Bool.true_and] at hany
  rw [decide_eq_false (getOrgId_asOrg_ne o), Bool.false_or, hany, Bool.and_eq_true]
  have hsome : (shownKind db (getOrgId (asOrg o)) ex).any (fun _ => true) = (shownKind db (getOrgId (asOrg o)) ex).isSome := by
    cases shownKind db (getOrgId (asOrg o)) ex <;> rfl
  rw [hsome]
  exact ⟨fun h => ⟨h.1, h.2.1, h.2.2⟩, fun h => ⟨h.row, h.template, h.shown⟩⟩

theorem mem_base {row : TemplateRow} (h : row ∈ getBaseByLanguage db (getOrgId (asOrg o)) language) :
    ∃ i ex, Served db (getOrgId (asOrg o)) language i ex ∧ templateRow (i, ex) = row := by
  obtain ⟨⟨i, ex⟩, hx, rfl⟩ := List.mem_map.mp h
  exact ⟨i, ex, served_select.mp (Table.mem_select.mp hx), rfl⟩

theorem base_eq_iff : getBaseByLanguage db' (getOrgId (asOrg o)) language = getBaseByLanguage db (getOrgId (asOrg o)) language ↔
    ∀ i row, (∃ ex, Served db' (getOrgId (asOrg o)) language i ex ∧ templateRow (i, ex) = row) ↔
      ∃ ex, Served db (getOrgId (asOrg o)) language i ex ∧ templateRow (i, ex) = row := by
  rw [getBaseByLanguage, getBaseByLanguage, Table.select_map_eq_iff TemplateRow.id fun _ => rfl]
  simp only [← and_assoc, served_select]

/-! ## What a dataset keeps -/

/-- Each row that is no synthetic one is kept, with its utterance, and each example of the
    dataset keeps one. -/
structure ExamplesKept (dataset : Dataset) (old : List (Nat × ExampleRow)) : Prop where
  rows : ∀ r ∈ old, r.2.synthetic = false → ∃ ex ∈ dataset.examples, ex.kept old dataset.inLanguage = some r
  examples : ∀ ex ∈ dataset.examples, ex.others = [] ∧
    ∃ r, ex.kept old dataset.inLanguage = some r ∧ (r.2.synthetic = false → r.2.utterance = ex.utterance)

theorem kept_mem {ex : Example} {old : List (Nat × ExampleRow)} {r : Nat × ExampleRow}
    (h : ex.kept old language = some r) : r ∈ old := by
  unfold Example.kept at h
  split at h
  · cases h
  · exact List.mem_reverse.mp (List.mem_of_find?_eq_some (Option.filter_eq_some_iff.mp h).1)

theorem mem_toDelete {old : List (Nat × ExampleRow)} {i : Nat} : i ∈ toDelete dataset old ↔
    (∃ r ∈ old, r.1 = i) ∧ ∀ ex ∈ dataset.examples, ∀ r, ex.kept old dataset.inLanguage = some r → r.1 ≠ i := by
  rw [toDelete, List.mem_filter, List.mem_map, Bool.not_eq_true', List.any_eq_false]
  refine and_congr Iff.rfl (forall₂_congr fun ex _ => ?_)
  cases ex.kept old dataset.inLanguage with
  | none => simp
  | some r => simp

theorem mem_toUpdate {old : List (Nat × ExampleRow)} {x : Nat × String × String} : x ∈ toUpdate dataset old ↔
    ∃ ex ∈ dataset.examples, ∃ r, ex.kept old dataset.inLanguage = some r ∧ r.2.utterance ≠ ex.utterance ∧
      x = (r.1, ex.utterance, ex.preprocessed) := by
  rw [toUpdate, List.mem_filterMap]
  refine exists_congr fun ex => and_congr Iff.rfl ?_
  rw [Option.map_eq_some_iff]
  simp only [Option.filter_eq_some_iff, bne_iff_ne, ne_eq, and_assoc]
  refine exists_congr fun r => and_congr Iff.rfl (and_congr Iff.rfl ?_)
  exact eq_comm

/-- New rows: synthetic ones, and the templates of examples that are not kept. -/
theorem mem_toCreate {old : List (Nat × ExampleRow)} {ex : ExampleRow} (h : ex ∈ toCreate P dataset old j classDef) :
    ex.schema_id = some j ∧ ex.language = dataset.inLanguage ∧ (ex.synthetic = true ∨ ∃ e ∈ dataset.examples,
      (e.kept old dataset.inLanguage = none ∨ e.others ≠ [])) := by
  have hsyn : ∀ what functions, ex ∈ syntheticExamples P j dataset.inLanguage classDef.kind what functions →
      ex.schema_id = some j ∧ ex.language = dataset.inLanguage ∧ ex.synthetic = true := by
    intro what functions hex
    obtain ⟨x, -, hex⟩ := List.mem_flatMap.mp hex
    obtain ⟨phrase, -, rfl⟩ := List.mem_map.mp hex
    exact ⟨rfl, rfl, rfl⟩
  rw [toCreate] at h
  rcases List.mem_append.mp h with h | h
  · rcases List.mem_append.mp h with h | h
    · obtain ⟨h1, h2, h3⟩ := hsyn _ _ h
      exact ⟨h1, h2, Or.inl h3⟩
    · obtain ⟨h1, h2, h3⟩ := hsyn _ _ h
      exact ⟨h1, h2, Or.inl h3⟩
  · obtain ⟨e, he, h⟩ := List.mem_flatMap.mp h
    rcases List.mem_append.mp h with h | h
    · split at h
      · rename_i hnone
        obtain rfl := List.mem_singleton.mp h
        exact ⟨rfl, rfl, Or.inr ⟨e, he, Or.inl (Option.isNone_iff_eq_none.mp hnone)⟩⟩
      · cases h
    · obtain ⟨x, hx, rfl⟩ := List.mem_map.mp h
      exact ⟨rfl, rfl, Or.inr ⟨e, he, Or.inr (List.ne_nil_of_mem hx)⟩⟩

/-- An example that keeps no row, or has another utterance, makes a template. -/
theorem exists_toCreate (P : Packages V) (j : Nat) (classDef : ClassDef V) {old : List (Nat × ExampleRow)} {e : Example}
    (he : e ∈ dataset.examples) (h : e.kept old dataset.inLanguage = none ∨ e.others ≠ []) :
    ∃ ex ∈ toCreate P dataset old j classDef, ex.schema_id = some j ∧ ex.isTemplate dataset.inLanguage false = true := by
  have htemplate : ∀ code utterance preprocessed name,
      (templateExample j dataset.inLanguage code utterance preprocessed name).isTemplate dataset.inLanguage false = true := by
    intro code utterance preprocessed name
    simp [ExampleRow.isTemplate, templateExample]
  rcases h with h | h
  · refine ⟨_, List.mem_append_right _ (List.mem_flatMap.mpr ⟨e, he, List.mem_append_left _ ?_⟩), rfl,
      htemplate e.code e.utterance e.preprocessed (some e.name)⟩
    rw [h]
    exact List.mem_singleton_self _
  · obtain ⟨x, hx⟩ := List.exists_mem_of_ne_nil _ h
    exact ⟨_, List.mem_append_right _ (List.mem_flatMap.mpr ⟨e, he, List.mem_append_right _ (List.mem_map_of_mem hx)⟩), rfl,
      htemplate e.code x.1 x.2 none⟩

theorem mem_old {i : Nat} {r : ExampleRow} : (i, r) ∈ getBaseBySchema db j language true ↔
    db.example_utterances.get? i = some r ∧ r.schema_id = some j ∧ r.is_base = true ∧ r.type = "thingpedia" ∧ r.language = language := by
  rw [getBaseBySchema, Table.mem_select]
  simp only [Bool.true_or, Bool.and_true, Bool.and_eq_true, decide_eq_true_eq, and_assoc]

theorem isTemplate_iff {ex : ExampleRow} : ex.isTemplate language false = true ↔
    ex.is_base = true ∧ ex.type = "thingpedia" ∧ ex.synthetic = false ∧ ex.language = language := by
  rw [ExampleRow.isTemplate, ← ExampleRow.synthetic]
  simp only [Bool.false_or, Bool.and_eq_true, decide_eq_true_eq, Bool.not_eq_true', and_assoc]

/-- An update keeps all but the utterance. -/
theorem rewrite_template (language : String) (updates : List (Nat × String × String)) (i : Nat) (ex : ExampleRow) :
    (rewrite updates i ex).schema_id = ex.schema_id ∧
      (rewrite updates i ex).isTemplate language false = ex.isTemplate language false := by
  rcases rewrite_cases updates i ex with ⟨he, -⟩ | ⟨x, -, -, he⟩
  · rw [he]
    exact ⟨rfl, rfl⟩
  · rw [he]
    exact ⟨rfl, rfl⟩

/-! ## The rows that are served -/

section Synced

variable (hs : Synced P db.example_utterances db'.example_utterances (getBaseBySchema db j dataset.inLanguage true) j classDef dataset)
  (hshown : shownSchema db' (getOrgId (asOrg o)) = shownSchema db (getOrgId (asOrg o)))
include hs

/-- What the dataset keeps is neither dropped nor rewritten. -/
theorem not_touched {i : Nat} {ex : ExampleRow} (hget : db.example_utterances.get? i = some ex)
    (htemplate : ex.isTemplate language false = true)
    (hkept : ex.schema_id = some j → language = dataset.inLanguage →
      ExamplesKept dataset (getBaseBySchema db j dataset.inLanguage true)) :
    db'.example_utterances.get? i = some ex := by
  obtain ⟨hbase, htype, hsyn, hlang⟩ := isTemplate_iff.mp htemplate
  have hold : ∀ r ∈ getBaseBySchema db j dataset.inLanguage true, r.1 = i →
      r = (i, ex) ∧ ExamplesKept dataset (getBaseBySchema db j dataset.inLanguage true) := by
    rintro ⟨k, r⟩ hr rfl
    obtain ⟨hr, hid, -, -, hl⟩ := mem_old.mp hr
    rw [hget] at hr
    cases hr
    exact ⟨rfl, hkept hid (hlang ▸ hl)⟩
  have hdelete : i ∉ toDelete dataset (getBaseBySchema db j dataset.inLanguage true) := by
    intro hd
    obtain ⟨⟨r, hr, hri⟩, hnone⟩ := mem_toDelete.mp hd
    obtain ⟨rfl, hk⟩ := hold r hr hri
    obtain ⟨e, he, hek⟩ := hk.rows _ hr hsyn
    exact hnone e he _ hek rfl
  rw [hs.kept i (Table.lt_next hget), if_neg hdelete, hget, Option.map_some]
  rcases rewrite_cases (toUpdate dataset (getBaseBySchema db j dataset.inLanguage true)) i ex with ⟨he, -⟩ | ⟨x, hx, hxi, -⟩
  · rw [he]
  · obtain ⟨e, he, r, hr, hne, rfl⟩ := mem_toUpdate.mp hx
    obtain ⟨rfl, hk⟩ := hold r (kept_mem hr) hxi
    obtain ⟨-, r1, hr1, hutt⟩ := hk.examples e he
    rw [hr] at hr1
    cases hr1
    exact absurd (hutt hsyn) hne

include hshown

theorem served_iff (hkept : (shownSchema db (getOrgId (asOrg o)) j).isSome = true → language = dataset.inLanguage →
    ExamplesKept dataset (getBaseBySchema db j dataset.inLanguage true)) {i : Nat} {ex : ExampleRow} :
    Served db' (getOrgId (asOrg o)) language i ex ↔ Served db (getOrgId (asOrg o)) language i ex := by
  have hkind : ∀ ex, shownKind db' (getOrgId (asOrg o)) ex = shownKind db (getOrgId (asOrg o)) ex := by
    intro ex
    rw [shownKind, shownKind, hshown]
  have hj : ∀ {ex : ExampleRow}, (shownKind db (getOrgId (asOrg o)) ex).isSome = true → ex.schema_id = some j →
      language = dataset.inLanguage → ExamplesKept dataset (getBaseBySchema db j dataset.inLanguage true) := by
    intro ex hsome hid
    rw [shownKind, hid, Option.bind_some] at hsome
    exact hkept hsome
  constructor
  · intro hserved
    have hsome : (shownKind db (getOrgId (asOrg o)) ex).isSome = true := hkind ex ▸ hserved.shown
    refine ⟨?_, hserved.template, hsome⟩
    by_cases hi : i < db.example_utterances.next
    · have hrow := hs.kept i hi
      rw [hserved.row] at hrow
      split at hrow
      · cases hrow
      · obtain ⟨r, hr, hre⟩ := Option.map_eq_some_iff.mp hrow.symm
        obtain ⟨hid, htemplate⟩ := rewrite_template language
          (toUpdate dataset (getBaseBySchema db j dataset.inLanguage true)) i r
        rw [hre] at hid htemplate
        have hr' := not_touched hs hr (htemplate ▸ hserved.template) fun hrj => hj hsome (hid.trans hrj)
        rw [hserved.row] at hr'
        cases hr'
        exact hr
    · -- a new row is a synthetic one
      obtain ⟨hid, hl, hnew⟩ := mem_toCreate (hs.new i ex (Nat.le_of_not_lt hi) hserved.row)
      obtain ⟨-, -, hsyn, hlang⟩ := isTemplate_iff.mp hserved.template
      have hk := hj hsome hid (hlang.symm.trans hl)
      rcases hnew with hnew | ⟨e, he, hnone | hothers⟩
      · rw [hsyn] at hnew
        cases hnew
      · obtain ⟨-, r, hr, -⟩ := hk.examples e he
        rw [hnone] at hr
        cases hr
      · exact absurd (hk.examples e he).1 hothers
  · intro hserved
    exact ⟨not_touched hs hserved.row hserved.template (hj hserved.shown), hserved.template, (hkind ex).symm ▸ hserved.shown⟩

theorem examplesKept_of_base (hshow : (shownSchema db (getOrgId (asOrg o)) j).isSome = true)
    (hbase : getBaseByLanguage db' (getOrgId (asOrg o)) dataset.inLanguage =
      getBaseByLanguage db (getOrgId (asOrg o)) dataset.inLanguage) :
    ExamplesKept dataset (getBaseBySchema db j dataset.inLanguage true) := by
  have hsame := base_eq_iff.mp hbase
  have hkind : ∀ {ex : ExampleRow}, ex.schema_id = some j → (shownKind db (getOrgId (asOrg o)) ex).isSome = true := by
    intro ex hid
    rw [shownKind, hid, Option.bind_some]
    exact hshow
  -- a row that is served stays, with its utterance
  have hrow : ∀ i r, (i, r) ∈ getBaseBySchema db j dataset.inLanguage true → r.synthetic = false →
      i ∉ toDelete dataset (getBaseBySchema db j dataset.inLanguage true) ∧
        ∀ e ∈ dataset.examples, e.kept (getBaseBySchema db j dataset.inLanguage true) dataset.inLanguage = some (i, r) →
          r.utterance = e.utterance := by
    intro i r hr hsyn
    obtain ⟨hget, hid, hb, ht, hl⟩ := mem_old.mp hr
    obtain ⟨ex, hex, heq⟩ := (hsame i (templateRow (i, r))).mpr ⟨r, ⟨hget, isTemplate_iff.mpr ⟨hb, ht, hsyn, hl⟩, hkind hid⟩, rfl⟩
    have hkept := hs.kept i (Table.lt_next hget)
    rw [hex.row, hget, Option.map_some] at hkept
    split at hkept
    · cases hkept
    · rename_i hd
      refine ⟨hd, fun e he hek => ?_⟩
      by_contra hne
      have hutt : ex.utterance = r.utterance := congrArg TemplateRow.utterance heq
      rw [Option.some.inj hkept] at hutt
      rcases rewrite_cases (toUpdate dataset (getBaseBySchema db j dataset.inLanguage true)) i r with ⟨-, hno⟩ | ⟨x, hx, hxi, hre⟩
      · exact hno _ (mem_toUpdate.mpr ⟨e, he, (i, r), hek, hne, rfl⟩) rfl
      · rw [hre] at hutt
        obtain ⟨e1, he1, ⟨k, r1⟩, hr1, hne1, rfl⟩ := mem_toUpdate.mp hx
        obtain rfl : k = i := hxi
        obtain ⟨hget1, -⟩ := mem_old.mp (kept_mem hr1)
        rw [hget] at hget1
        cases hget1
        exact hne1 hutt.symm
  refine ⟨?_, fun e he => ?_⟩
  · rintro ⟨i, r⟩ hr hsyn
    by_contra hno
    refine (hrow i r hr hsyn).1 (mem_toDelete.mpr ⟨⟨(i, r), hr, rfl⟩, ?_⟩)
    rintro e he ⟨k, r1⟩ hr1 rfl
    obtain ⟨hget1, -⟩ := mem_old.mp (kept_mem hr1)
    obtain ⟨hget, -⟩ := mem_old.mp hr
    rw [hget] at hget1
    cases hget1
    exact hno ⟨e, he, hr1⟩
  · have hnonew : ¬(e.kept (getBaseBySchema db j dataset.inLanguage true) dataset.inLanguage = none ∨ e.others ≠ []) := by
      intro hnew
      obtain ⟨ex, hex, hid, htemplate⟩ := exists_toCreate P j classDef he hnew
      obtain ⟨i, hi, hget⟩ := hs.all ex hex
      have hserved : Served db' (getOrgId (asOrg o)) dataset.inLanguage i ex := by
        refine ⟨hget, htemplate, ?_⟩
        have hsome := hkind hid
        rw [shownKind] at hsome ⊢
        rw [hshown]
        exact hsome
      obtain ⟨ex1, hex1, -⟩ := (hsame i (templateRow (i, ex))).mp ⟨ex, hserved, rfl⟩
      have := Table.lt_next hex1.row
      omega
    rw [not_or, not_not] at hnonew
    refine ⟨hnonew.2, ?_⟩
    obtain ⟨⟨i, r⟩, hr⟩ := Option.ne_none_iff_exists'.mp hnonew.1
    exact ⟨(i, r), hr, fun hsyn => (hrow i r (kept_mem hr) hsyn).2 e he hr⟩

theorem base_iff : getBaseByLanguage db' (getOrgId (asOrg o)) language = getBaseByLanguage db (getOrgId (asOrg o)) language ↔
    ((shownSchema db (getOrgId (asOrg o)) j).isSome = true → language = dataset.inLanguage →
      ExamplesKept dataset (getBaseBySchema db j dataset.inLanguage true)) := by
  constructor
  · intro hbase hshow hl
    subst hl
    exact examplesKept_of_base hs hshown hshow hbase
  · intro hkept
    rw [base_eq_iff]
    intro i row
    simp only [served_iff hs hshown hkept]

end Synced

/-! ## The rows that kinds find -/

/-- A row that is found by kinds. -/
def Found (db : Db V) (org : Option Int) (language : String) (kinds : List String) (i : Nat) (ex : ExampleRow) : Prop :=
  Served db org language i ex ∧ ex.target_code ≠ "" ∧ (shownKind db org ex).any (ofKinds db org kinds) = true

theorem found_select {org : Option Int} {kinds : List String} {i : Nat} {ex : ExampleRow} :
    (db.example_utterances.get? i = some ex ∧ (ex.isTemplate language false && ex.target_code ≠ "" &&
      (ex.schema_id.bind db.device_schema.get?).any fun ds => ofKinds db org kinds ds.kind &&
        visible org ds.approved_version ds.owner) = true) ↔ Found db org language kinds i ex := by
  rw [any_visible db org ex (ofKinds db org kinds)]
  simp only [Bool.and_eq_true, decide_eq_true_eq]
  constructor
  · rintro ⟨hrow, ⟨htemplate, hcode⟩, hany⟩
    refine ⟨⟨hrow, htemplate, ?_⟩, hcode, hany⟩
    cases hk : shownKind db org ex with
    | none => rw [hk] at hany; cases hany
    | some kind => rfl
  · rintro ⟨hserved, hcode, hany⟩
    exact ⟨hserved.row, ⟨hserved.template, hcode⟩, hany⟩

/-- A row as it is found. -/
def primitiveRow (x : Nat × ExampleRow) : PrimitiveTemplateRow := { templateRow x with language := x.2.language, type := x.2.type }

theorem mem_byKinds {org : Option Int} {kinds : List String} {row : PrimitiveTemplateRow}
    (h : row ∈ getByKinds db kinds org language false) : ∃ i ex, Found db org language kinds i ex ∧ primitiveRow (i, ex) = row := by
  obtain ⟨⟨i, ex⟩, hx, rfl⟩ := List.mem_map.mp h
  exact ⟨i, ex, found_select.mp (Table.mem_select.mp hx), rfl⟩

theorem byKinds_eq_iff {kinds : List String} {org : Option Int} :
    getByKinds db' kinds org language false = getByKinds db kinds org language false ↔
      ∀ i row, (∃ ex, Found db' org language kinds i ex ∧ primitiveRow (i, ex) = row) ↔
        ∃ ex, Found db org language kinds i ex ∧ primitiveRow (i, ex) = row := by
  rw [getByKinds, getByKinds, Table.select_map_eq_iff (fun row : PrimitiveTemplateRow => row.id) fun _ => rfl]
  simp only [← and_assoc, found_select]
  rfl

theorem byKinds_iff {org : Option Int} (hshown : shownSchema db' org = shownSchema db org)
    (hserved : ∀ i ex, Served db' org language i ex ↔ Served db org language i ex) :
    (∀ kinds, getByKinds db' kinds org language false = getByKinds db kinds org language false) ↔
      ∀ i ex kind, Served db org language i ex → ex.target_code ≠ "" → shownKind db org ex = some kind →
        ∀ kinds, ofKinds db' org kinds kind = ofKinds db org kinds kind := by
  have hkind : ∀ ex, shownKind db' org ex = shownKind db org ex := by
    intro ex
    rw [shownKind, shownKind, hshown]
  simp only [byKinds_eq_iff]
  constructor
  · intro hsame i ex kind hs hcode hk kinds
    have hfound : ∀ (db1 : Db V), Served db1 org language i ex → shownKind db1 org ex = some kind →
        (Found db1 org language kinds i ex ↔ ofKinds db1 org kinds kind = true) := by
      intro db1 hs1 hk1
      rw [Found, hk1]
      exact ⟨fun h => h.2.2, fun h => ⟨hs1, hcode, h⟩⟩
    -- the row is the only one with its id
    have hexists : ∀ (db1 : Db V), Served db1 org language i ex → ((∃ ex1, Found db1 org language kinds i ex1 ∧
        primitiveRow (i, ex1) = primitiveRow (i, ex)) ↔ Found db1 org language kinds i ex) := by
      intro db1 hs1
      constructor
      · rintro ⟨ex1, hex1, -⟩
        have hrow := hex1.1.row
        rw [hs1.row] at hrow
        cases hrow
        exact hex1
      · intro hex
        exact ⟨ex, hex, rfl⟩
    have hs' := (hserved i ex).mpr hs
    have := hsame kinds i (primitiveRow (i, ex))
    rw [hexists db' hs', hexists db hs, hfound db' hs' ((hkind ex).trans hk), hfound db hs hk] at this
    exact Bool.eq_iff_iff.mpr this
  · intro hsame kinds i row
    refine exists_congr fun ex => and_congr_left fun _ => ?_
    rw [Found, Found, hserved, hkind]
    refine and_congr_right fun hs => and_congr_right fun hcode => ?_
    cases hk : shownKind db org ex with
    | none => rfl
    | some kind => rw [Option.any_some, Option.any_some, hsame i ex kind hs hcode hk kinds]

end GenieCloud.Thingpedia
