/-
  GenieCloud.Training.DatasetUpdate — the update of the generated examples of some devices
  (`training/tasks/update-dataset.js`: `DatasetUpdater`, `ForDevicesFilter`,
  `DatabaseInserter`; `createMany` of `model/example.ts`).

  The transaction deletes the generated examples that the pattern finds, marks what no longer
  type checks as obsolete, and inserts the generated sentences that the pattern finds, a
  thousand at a time. `run_eq` says this without the batches.

  `update_iff`: the generated examples of the devices are replaced, and nothing else is
  touched, exactly if all devices are updated, or the pattern finds those stored and
  generated programs that use one of the devices. A second run over the same sentences leaves
  the same examples in any case (`contents_run_run`).

  The sentences of the generator are a list; whether an example type checks is a parameter.
-/

import GenieCloud.Lib.Table
import GenieCloud.Training.DevicePattern
import Mathlib.Data.List.Induction

namespace GenieCloud.Training.DatasetUpdate

open GenieCloud.Lib
open DevicePattern (Kind pattern forDevicesPattern Uses HasToken)

/-! ## Examples and sentences -/

structure ExampleRow where
  utterance : String
  preprocessed : String
  target_code : String
  target_json : String
  type : String
  flags : List String
  is_base : Bool
  language : String
  deriving DecidableEq

/-- A sentence of the generator, with the flags that are set. -/
structure Sentence where
  preprocessed : String
  target_code : String
  flags : List String

/-- `type = 'generated'`, `flags.exact = true`, and what is inserted of it. -/
def toRow (language : String) (ex : Sentence) : ExampleRow where
  utterance := ex.preprocessed
  preprocessed := ex.preprocessed
  target_code := ex.target_code
  target_json := ""
  type := "generated"
  flags := (if ex.flags.contains "exact" then ex.flags else ex.flags ++ ["exact"]) ++ ["training"]
  is_base := false
  language := language

def markObsolete (row : ExampleRow) : ExampleRow := { row with flags := row.flags ++ ["obsolete"] }

/-! ## The update -/

/-- `pattern.test`, and `rlike` of the same pattern; without one, everything. -/
def found (regexp : Option Regex) (target_code : String) : Bool := regexp.all fun r => r.test target_code.toList

/-- `DatabaseInserter` -/
structure Inserter where
  batch : List Sentence
  table : Table ExampleRow

section

variable (language : String) (typechecks : ExampleRow → Bool) (finds : String → Bool)

def generated (row : ExampleRow) : Bool := row.language == language && row.type == "generated"

def clearExistingDataset (t : Table ExampleRow) : Table ExampleRow :=
  t.delete fun _ row => generated language row && finds row.target_code

/-- What is type checked again. -/
def selects (row : ExampleRow) : Bool :=
  row.type != "generated" && row.type != "thingpedia" && row.flags.contains "training" && !row.flags.contains "obsolete" &&
    row.language == language && finds row.target_code

/-- `for (let i = 0; i < rows.length+1000-1; i += 1000)`, the slices. -/
def slices {α : Type} (rows : List α) : List (List α) :=
  (List.range ((rows.length + 999 + 999) / 1000)).map fun k => (rows.drop (1000 * k)).take 1000

def updateBatch (t : Table ExampleRow) (batch : List (Nat × ExampleRow)) : Table ExampleRow :=
  let toUpdate := (batch.filter fun ex => !typechecks ex.2).map (·.1)
  if toUpdate.isEmpty then t else t.update (fun i _ => toUpdate.contains i) markObsolete

def typecheckParaphrasesAndOnline (t : Table ExampleRow) : Table ExampleRow :=
  (slices (t.select fun _ row => selects language finds row)).foldl (updateBatch typechecks) t

/-- `createMany`; of no examples it does nothing. -/
def insertBatch (t : Table ExampleRow) (examples : List Sentence) : Table ExampleRow :=
  (examples.map (toRow language)).foldl Table.insert t

def write (s : Inserter) (ex : Sentence) : Inserter :=
  let batch := s.batch ++ [ex]
  if batch.length ≥ 1000 then ⟨[], insertBatch language s.table batch⟩ else ⟨batch, s.table⟩

def final (s : Inserter) : Table ExampleRow := insertBatch language s.table s.batch

def generateNewSynthetic (t : Table ExampleRow) (generator : List Sentence) : Table ExampleRow :=
  final language ((generator.filter fun ex => finds ex.target_code).foldl (write language) ⟨[], t⟩)

def run (t : Table ExampleRow) (generator : List Sentence) : Table ExampleRow :=
  generateNewSynthetic language finds
    (typecheckParaphrasesAndOnline language typechecks finds (clearExistingDataset language finds t)) generator

end

/-- The transaction of an updater; a pattern that cannot be read is an error. -/
def transaction (language : String) (typechecks : ExampleRow → Bool) (forDevices : Option (List Kind)) (t : Table ExampleRow)
    (generator : List Sentence) : Option (Table ExampleRow) :=
  match pattern forDevices with
  | some pattern => (Regex.parse pattern).map fun r => run language typechecks (found (some r)) t generator
  | none => some (run language typechecks (found none) t generator)

/-! ## Without batches -/

section Batches

variable {language : String} {typechecks : ExampleRow → Bool} {finds : String → Bool}

theorem insertBatch_concat (t : Table ExampleRow) (batch : List Sentence) (ex : Sentence) :
    insertBatch language t (batch ++ [ex]) = (insertBatch language t batch).insert (toRow language ex) := by
  rw [insertBatch, List.map_append, List.foldl_append]
  rfl

/-- What is written and what waits in the batch. -/
theorem final_foldl_write (s : Inserter) (generator : List Sentence) :
    final language (generator.foldl (write language) s) =
      (generator.map (toRow language)).foldl Table.insert (insertBatch language s.table s.batch) := by
  induction generator generalizing s with
  | nil => rfl
  | cons ex generator ih =>
    rw [List.foldl_cons, ih, List.map_cons, List.foldl_cons, ← insertBatch_concat]
    unfold write
    dsimp only
    split <;> rfl

theorem flatten_slices_aux {α : Type} (rows : List α) (c n : Nat) :
    ((List.range n).map fun k => (rows.drop (c * k)).take c).flatten = rows.take (c * n) := by
  induction n with
  | zero => rfl
  | succ n ih =>
    rw [List.range_succ, List.map_append, List.flatten_append, ih, Nat.mul_succ, List.take_add]
    simp

/-- Every row is in a slice. -/
theorem flatten_slices {α : Type} (rows : List α) : (slices rows).flatten = rows := by
  rw [slices, flatten_slices_aux, List.take_of_length_le]
  omega

/-- The ids of a batch that are marked. -/
def toUpdate (typechecks : ExampleRow → Bool) (batch : List (Nat × ExampleRow)) : List Nat :=
  (batch.filter fun ex => !typechecks ex.2).map (·.1)

theorem updateBatch_eq (t : Table ExampleRow) (batch : List (Nat × ExampleRow)) :
    updateBatch typechecks t batch = t.update (fun i _ => (toUpdate typechecks batch).contains i) markObsolete := by
  unfold updateBatch
  dsimp only
  split
  · next h =>
    refine (Table.update_eq_self fun i r _ hi => ?_).symm
    rw [toUpdate, List.isEmpty_iff.mp h] at hi
    cases hi
  · rfl

theorem next_foldl_updateBatch (batches : List (List (Nat × ExampleRow))) (t : Table ExampleRow) :
    (batches.foldl (updateBatch typechecks) t).next = t.next := by
  induction batches generalizing t with
  | nil => rfl
  | cons batch batches ih => rw [List.foldl_cons, ih, updateBatch_eq, Table.next_update]

/-- Batches that mark no row twice. -/
theorem get?_foldl_updateBatch {batches : List (List (Nat × ExampleRow))} (h : (batches.flatMap (toUpdate typechecks)).Nodup)
    (t : Table ExampleRow) (i : Nat) : (batches.foldl (updateBatch typechecks) t).get? i =
      (t.get? i).map fun r => if i ∈ batches.flatMap (toUpdate typechecks) then markObsolete r else r := by
  induction batches generalizing t with
  | nil => simp
  | cons batch batches ih =>
    obtain ⟨-, hbatches, hdisjoint⟩ := List.nodup_append'.mp (List.flatMap_cons ▸ h)
    rw [List.foldl_cons, ih hbatches, updateBatch_eq, Table.get?_update, List.flatMap_cons, Option.map_map]
    congr 1
    funext r
    simp only [Function.comp_apply, List.contains_iff_mem, List.mem_append]
    by_cases hi : i ∈ toUpdate typechecks batch
    · have hrest : i ∉ batches.flatMap (toUpdate typechecks) := fun h => hdisjoint hi h
      simp only [hi, hrest, if_true, if_false, true_or]
    · simp only [hi, if_false, false_or]

theorem toUpdate_slices (rows : List (Nat × ExampleRow)) :
    (slices rows).flatMap (toUpdate typechecks) = toUpdate typechecks rows := by
  unfold toUpdate
  rw [← flatten_slices rows, List.filter_flatten, List.map_flatten, List.map_map, flatten_slices]
  rfl

/-- What is marked: the rows that are selected and do not type check. -/
theorem typecheck_eq (t : Table ExampleRow) : typecheckParaphrasesAndOnline language typechecks finds t =
    t.update (fun _ row => selects language finds row && !typechecks row) markObsolete := by
  have hids : (t.select fun _ row => selects language finds row).Pairwise fun a b => a.1 < b.1 := t.sorted.filter _
  have hnodup : (toUpdate typechecks (t.select fun _ row => selects language finds row)).Nodup :=
    List.Nodup.sublist (List.filter_sublist.map _) (List.pairwise_map.mpr (hids.imp Nat.ne_of_lt))
  rw [typecheckParaphrasesAndOnline]
  refine Table.ext_get? (next_foldl_updateBatch _ t) fun i => ?_
  rw [get?_foldl_updateBatch (by rw [toUpdate_slices]; exact hnodup), toUpdate_slices, Table.get?_update]
  refine Option.map_congr fun r hr => ?_
  have hmem : i ∈ toUpdate typechecks (t.select fun _ row => selects language finds row) ↔
      (selects language finds r && !typechecks r) = true := by
    unfold toUpdate
    rw [List.mem_map, Bool.and_eq_true]
    constructor
    · rintro ⟨⟨j, row⟩, hrow, rfl⟩
      obtain ⟨hselect, hcheck⟩ := List.mem_filter.mp hrow
      obtain ⟨hj, hselects⟩ := Table.mem_select.mp hselect
      rw [hj] at hr
      cases hr
      exact ⟨hselects, hcheck⟩
    · intro h
      exact ⟨(i, r), List.mem_filter.mpr ⟨Table.mem_select.mpr ⟨hr, h.1⟩, h.2⟩, rfl⟩
  simp only [hmem]

/-- The table before the insertion: what is deleted, and what is marked. -/
def cleared (language : String) (typechecks : ExampleRow → Bool) (finds : String → Bool) (t : Table ExampleRow) :
    Table ExampleRow :=
  (clearExistingDataset language finds t).update (fun _ row => selects language finds row && !typechecks row) markObsolete

theorem run_eq (t : Table ExampleRow) (generator : List Sentence) : run language typechecks finds t generator =
    ((generator.filter fun ex => finds ex.target_code).map (toRow language)).foldl Table.insert
      (cleared language typechecks finds t) := by
  rw [run, generateNewSynthetic, final_foldl_write, typecheck_eq]
  rfl

/-! ## The rows after a run -/

variable {t : Table ExampleRow} {generator : List Sentence} {i : Nat} {r : ExampleRow}

/-- A row that stays, as it is or marked. -/
def kept (language : String) (typechecks : ExampleRow → Bool) (finds : String → Bool) (r : ExampleRow) : ExampleRow :=
  if selects language finds r && !typechecks r then markObsolete r else r

theorem kept_or (r : ExampleRow) :
    kept language typechecks finds r = r ∨ kept language typechecks finds r = markObsolete r := by
  unfold kept
  split
  · exact .inr rfl
  · exact .inl rfl

@[simp] theorem target_code_kept (r : ExampleRow) : (kept language typechecks finds r).target_code = r.target_code := by
  unfold kept
  split <;> rfl

@[simp] theorem generated_kept (r : ExampleRow) :
    generated language (kept language typechecks finds r) = generated language r := by
  unfold kept
  split <;> rfl

/-- A row that was marked is not selected again. -/
theorem kept_kept (r : ExampleRow) :
    kept language typechecks finds (kept language typechecks finds r) = kept language typechecks finds r := by
  by_cases h : (selects language finds r && !typechecks r) = true
  · have hkept : kept language typechecks finds r = markObsolete r := if_pos h
    have hnot : selects language finds (markObsolete r) = false := by simp [selects, markObsolete]
    rw [hkept, kept, hnot]
    rfl
  · have hkept : kept language typechecks finds r = r := if_neg h
    rw [hkept, hkept]

theorem get?_run_of_lt (hi : i < t.next) : (run language typechecks finds t generator).get? i =
    ((t.get? i).filter fun r => !(generated language r && finds r.target_code)).map (kept language typechecks finds) := by
  have hnext : i < (cleared language typechecks finds t).next := hi
  rw [run_eq, Table.get?_insertAll_of_lt _ hnext, cleared, Table.get?_update, clearExistingDataset, Table.get?_delete]
  rfl

theorem get?_run_of_le (hi : t.next ≤ i) (h : (run language typechecks finds t generator).get? i = some r) :
    ∃ ex ∈ generator, finds ex.target_code = true ∧ r = toRow language ex := by
  rw [run_eq] at h
  rcases Table.get?_insertAll h with h | h
  · exact absurd (Table.lt_next h) (Nat.not_lt_of_le hi)
  · obtain ⟨ex, hex, rfl⟩ := List.mem_map.mp h
    exact ⟨ex, (List.mem_filter.mp hex).1, (List.mem_filter.mp hex).2, rfl⟩

/-- An old row that is there after the run was kept. -/
theorem mem_of_get?_run (hi : i < t.next) (h : (run language typechecks finds t generator).get? i = some r) :
    ∃ old, t.get? i = some old ∧ (generated language old && finds old.target_code) = false ∧
      r = kept language typechecks finds old := by
  rw [get?_run_of_lt hi] at h
  obtain ⟨old, hold, rfl⟩ := Option.map_eq_some_iff.mp h
  obtain ⟨hget, hnot⟩ := Option.filter_eq_some_iff.mp hold
  exact ⟨old, hget, (Bool.not_eq_true' _).mp hnot, rfl⟩

end Batches

/-! ## What is wanted -/

/-- The generated examples that are concerned are those of the generator that are, each
    inserted once; the others keep their rows, and nothing else comes. -/
structure Replaced (language : String) (concerned : String → Bool) (t : Table ExampleRow) (generator : List Sentence)
    (t' : Table ExampleRow) : Prop where
  exactly : (t'.select fun _ r => generated language r && concerned r.target_code).map (·.2) =
    (generator.filter fun ex => concerned ex.target_code).map (toRow language)
  inserted : ∀ i r, t'.get? i = some r → generated language r = true → concerned r.target_code = true → t.next ≤ i
  others : ∀ i r, t.get? i = some r → (generated language r && concerned r.target_code) = false →
    ∃ r', t'.get? i = some r' ∧ (r' = r ∨ r' = markObsolete r)
  nothingElse : ∀ i r', t'.get? i = some r' → (generated language r' && concerned r'.target_code) = false →
    ∃ r, t.get? i = some r ∧ (r' = r ∨ r' = markObsolete r)

/-- The pattern finds the stored and the generated programs that are concerned. -/
structure Agree (language : String) (concerned finds : String → Bool) (t : Table ExampleRow)
    (generator : List Sentence) : Prop where
  stored : ∀ i r, t.get? i = some r → generated language r = true → concerned r.target_code = finds r.target_code
  streamed : ∀ ex ∈ generator, concerned ex.target_code = finds ex.target_code

/-! ## The examples, less their ids -/

def contents (t : Table ExampleRow) : List ExampleRow := t.rows.map (·.2)

section Contents

variable {language : String} {typechecks : ExampleRow → Bool} {concerned finds : String → Bool} {t : Table ExampleRow}
  {generator : List Sentence}

theorem select_contents (t : Table ExampleRow) (q : ExampleRow → Bool) :
    (t.select fun _ r => q r).map (·.2) = (contents t).filter q := by
  rw [contents, List.filter_map]
  rfl

theorem contents_insertAll (rows : List ExampleRow) (t : Table ExampleRow) :
    contents (rows.foldl Table.insert t) = contents t ++ rows := by
  induction rows generalizing t with
  | nil => exact (List.append_nil _).symm
  | cons r rows ih =>
    rw [List.foldl_cons, ih, contents, Table.insert, List.map_append, List.append_assoc]
    rfl

theorem contents_cleared (t : Table ExampleRow) : contents (cleared language typechecks finds t) =
    ((contents t).filter fun r => !(generated language r && finds r.target_code)).map (kept language typechecks finds) := by
  rw [contents, cleared, Table.update, List.map_map, clearExistingDataset, Table.delete, contents, List.filter_map,
    List.map_map]
  refine List.map_congr_left fun x _ => ?_
  simp only [Function.comp_apply, kept]
  split <;> rfl

theorem contents_run (t : Table ExampleRow) (generator : List Sentence) :
    contents (run language typechecks finds t generator) =
      ((contents t).filter fun r => !(generated language r && finds r.target_code)).map (kept language typechecks finds) ++
        (generator.filter fun ex => finds ex.target_code).map (toRow language) := by
  rw [run_eq, contents_insertAll, contents_cleared]

/-- What is inserted is deleted by the next run. -/
theorem deleted_toRow {ex : Sentence} (h : finds ex.target_code = true) :
    (generated language (toRow language ex) && finds (toRow language ex).target_code) = true := by
  simp [generated, toRow, h]

/-- A second run over the same sentences leaves the same examples. -/
theorem contents_run_run (t : Table ExampleRow) (generator : List Sentence) :
    contents (run language typechecks finds (run language typechecks finds t generator) generator) =
      contents (run language typechecks finds t generator) := by
  have hstays : ∀ r ∈ (((contents t).filter fun r => !(generated language r && finds r.target_code)).map
      (kept language typechecks finds)), (!(generated language r && finds r.target_code)) = true ∧
        kept language typechecks finds r = r := by
    intro r hr
    obtain ⟨old, hold, rfl⟩ := List.mem_map.mp hr
    rw [generated_kept, target_code_kept, kept_kept]
    exact ⟨(List.mem_filter.mp hold).2, rfl⟩
  have hgoes : ((generator.filter fun ex => finds ex.target_code).map (toRow language)).filter
      (fun r => !(generated language r && finds r.target_code)) = [] := by
    refine List.filter_eq_nil_iff.mpr fun r hr => ?_
    obtain ⟨ex, hex, rfl⟩ := List.mem_map.mp hr
    rw [deleted_toRow (List.mem_filter.mp hex).2]
    exact Bool.false_ne_true
  rw [contents_run (run language typechecks finds t generator), contents_run t, List.filter_append, hgoes, List.append_nil,
    List.filter_eq_self.mpr fun r hr => (hstays r hr).1, List.map_congr_left fun r hr => (hstays r hr).2, List.map_id']

/-! ## Replacing -/

/-- What is deleted of the stored examples is what is concerned. -/
theorem deleted_eq_concerned (h : ∀ i r, t.get? i = some r → generated language r = true →
      concerned r.target_code = finds r.target_code) {i : Nat} {old : ExampleRow} (hget : t.get? i = some old) :
    (generated language old && finds old.target_code) = (generated language old && concerned old.target_code) := by
  cases hgenerated : generated language old with
  | true => rw [h i old hget hgenerated]
  | false => rfl

theorem concerned_toRow {ex : Sentence} (h : concerned ex.target_code = true) :
    (generated language (toRow language ex) && concerned (toRow language ex).target_code) = true :=
  deleted_toRow h

/-- The generated examples that are concerned are then those that were inserted. -/
theorem select_run (hstored : ∀ i r, t.get? i = some r → generated language r = true →
      concerned r.target_code = finds r.target_code)
    (hstreamed : ∀ ex ∈ generator, finds ex.target_code = true → concerned ex.target_code = true) :
    ((run language typechecks finds t generator).select fun _ r =>
      generated language r && concerned r.target_code).map (·.2) =
      (generator.filter fun ex => finds ex.target_code).map (toRow language) := by
  have hnone : ((((contents t).filter fun r => !(generated language r && finds r.target_code)).map
      (kept language typechecks finds)).filter fun r => generated language r && concerned r.target_code) = [] := by
    refine List.filter_eq_nil_iff.mpr fun r hr => ?_
    obtain ⟨old, hmem, rfl⟩ := List.mem_map.mp hr
    obtain ⟨hmem, hnot⟩ := List.mem_filter.mp hmem
    obtain ⟨x, hx, rfl⟩ := List.mem_map.mp hmem
    rw [deleted_eq_concerned hstored (Table.mem_rows.mp hx)] at hnot
    rw [generated_kept, target_code_kept]
    exact Bool.eq_false_iff.mp ((Bool.not_eq_true' _).mp hnot)
  have hall : ((generator.filter fun ex => finds ex.target_code).map (toRow language)).filter
      (fun r => generated language r && concerned r.target_code) =
        (generator.filter fun ex => finds ex.target_code).map (toRow language) := by
    refine List.filter_eq_self.mpr fun r hr => ?_
    obtain ⟨ex, hex, rfl⟩ := List.mem_map.mp hr
    exact concerned_toRow (hstreamed ex (List.mem_filter.mp hex).1 (List.mem_filter.mp hex).2)
  rw [select_contents _ fun r => generated language r && concerned r.target_code, contents_run, List.filter_append, hnone,
    hall, List.nil_append]

theorem replaced_of_agree (h : Agree language concerned finds t generator) :
    Replaced language concerned t generator (run language typechecks finds t generator) := by
  have hsub : ∀ ex ∈ generator, finds ex.target_code = true → concerned ex.target_code = true :=
    fun ex hex hfinds => (h.streamed ex hex).trans hfinds
  constructor
  · rw [select_run h.stored hsub, List.filter_congr fun ex hex => (h.streamed ex hex).symm]
  · intro i r hr hgenerated hconcerned
    apply Nat.le_of_not_lt
    intro hi
    obtain ⟨old, hget, hnot, rfl⟩ := mem_of_get?_run hi hr
    rw [deleted_eq_concerned h.stored hget] at hnot
    rw [generated_kept] at hgenerated
    rw [target_code_kept] at hconcerned
    rw [hgenerated, hconcerned] at hnot
    exact Bool.noConfusion hnot
  · intro i r hr hnot
    refine ⟨kept language typechecks finds r, ?_, kept_or r⟩
    rw [get?_run_of_lt (Table.lt_next hr), hr, Option.filter_some, deleted_eq_concerned h.stored hr, hnot]
    rfl
  · intro i r' hr' hnot
    by_cases hi : i < t.next
    · obtain ⟨old, hget, -, rfl⟩ := mem_of_get?_run hi hr'
      exact ⟨old, hget, kept_or old⟩
    · obtain ⟨ex, hex, hfinds, rfl⟩ := get?_run_of_le (Nat.le_of_not_lt hi) hr'
      rw [concerned_toRow (hsub ex hex hfinds)] at hnot
      exact Bool.noConfusion hnot

/-- A stored example that the pattern and the devices do not agree on stays or goes against what
    is wanted. -/
theorem stored_of_replaced (h : Replaced language concerned t generator (run language typechecks finds t generator)) :
    ∀ i r, t.get? i = some r → generated language r = true → concerned r.target_code = finds r.target_code := by
  intro i r hr hgenerated
  have hget : (run language typechecks finds t generator).get? i = _ := get?_run_of_lt (Table.lt_next hr)
  rw [hr] at hget
  cases hfinds : finds r.target_code with
  | true =>
    rw [Option.filter_some, hgenerated, hfinds] at hget
    apply Bool.of_not_eq_false
    intro hconcerned
    obtain ⟨r', hr', -⟩ := h.others i r hr (by rw [hconcerned, Bool.and_false])
    rw [hget] at hr'
    cases hr'
  | false =>
    rw [Option.filter_some, hgenerated, hfinds] at hget
    apply Bool.of_not_eq_true
    intro hconcerned
    have hle := h.inserted i _ hget (by rw [generated_kept]; exact hgenerated) (by rw [target_code_kept]; exact hconcerned)
    exact absurd (Table.lt_next hr) (Nat.not_lt_of_le hle)

/-- An inserted row is there, under a new id. -/
theorem get?_inserted (typechecks : ExampleRow → Bool) (t : Table ExampleRow) {ex : Sentence} (hex : ex ∈ generator)
    (hfinds : finds ex.target_code = true) :
    ∃ i, t.next ≤ i ∧ (run language typechecks finds t generator).get? i = some (toRow language ex) := by
  rw [run_eq]
  exact Table.exists_get?_insertAll (t := cleared language typechecks finds t)
    (List.mem_map_of_mem (List.mem_filter.mpr ⟨hex, hfinds⟩))

/-- What is inserted is concerned, and nothing that is concerned is missing. -/
theorem streamed_of_replaced (h : Replaced language concerned t generator (run language typechecks finds t generator)) :
    ∀ ex ∈ generator, concerned ex.target_code = finds ex.target_code := by
  have hsub : ∀ ex ∈ generator, finds ex.target_code = true → concerned ex.target_code = true := by
    intro ex hex hfinds
    obtain ⟨i, hi, hget⟩ := get?_inserted typechecks t hex hfinds
    apply Bool.of_not_eq_false
    intro hconcerned
    have hnot : concerned (toRow language ex).target_code = false := hconcerned
    obtain ⟨r, hr, -⟩ := h.nothingElse i _ hget (by rw [hnot, Bool.and_false])
    exact absurd (Table.lt_next hr) (Nat.not_lt_of_le hi)
  have hfilter : (generator.filter fun ex => finds ex.target_code) =
      (generator.filter fun ex => concerned ex.target_code).filter fun ex => finds ex.target_code := by
    rw [List.filter_filter]
    refine List.filter_congr fun ex hex => ?_
    cases hfinds : finds ex.target_code with
    | true => rw [hsub ex hex hfinds]; rfl
    | false => rfl
  have hlength := congrArg List.length ((select_run (stored_of_replaced h) hsub).symm.trans h.exactly)
  rw [List.length_map, List.length_map, hfilter, List.length_filter_eq_length_iff] at hlength
  intro ex hex
  cases hconcerned : concerned ex.target_code with
  | true => exact (hlength ex (List.mem_filter.mpr ⟨hex, hconcerned⟩)).symm
  | false =>
    refine (Bool.eq_false_iff.mpr fun hfinds => ?_).symm
    rw [hsub ex hex hfinds] at hconcerned
    cases hconcerned

theorem replaced_iff : Replaced language concerned t generator (run language typechecks finds t generator) ↔
    Agree language concerned finds t generator :=
  ⟨fun h => ⟨stored_of_replaced h, streamed_of_replaced h⟩, replaced_of_agree⟩

end Contents

/-! ## The transaction -/

/-- No devices and `null` stand for all of them. -/
def concerned (forDevices : Option (List Kind)) (target_code : String) : Bool :=
  forDevices.all fun devices => devices.isEmpty || decide (Uses devices target_code)

/-- The generated examples of the devices are replaced, and the same once more leaves the same
    examples. -/
def Updated (language : String) (typechecks : ExampleRow → Bool) (forDevices : Option (List Kind)) (t : Table ExampleRow)
    (generator : List Sentence) : Prop :=
  ∃ t1 t2, transaction language typechecks forDevices t generator = some t1 ∧
    transaction language typechecks forDevices t1 generator = some t2 ∧
    Replaced language (concerned forDevices) t generator t1 ∧ contents t2 = contents t1

theorem updated_iff_of_run {language : String} {typechecks : ExampleRow → Bool} {forDevices : Option (List Kind)}
    {t : Table ExampleRow} {generator : List Sentence} (finds : String → Bool)
    (h : ∀ t, transaction language typechecks forDevices t generator = some (run language typechecks finds t generator)) :
    Updated language typechecks forDevices t generator ↔ Agree language (concerned forDevices) finds t generator := by
  have hiff : Replaced language (concerned forDevices) t generator (run language typechecks finds t generator) ↔
      Agree language (concerned forDevices) finds t generator := replaced_iff
  rw [← hiff]
  constructor
  · intro hupdated
    obtain ⟨t1, t2, h1, -, hreplaced, -⟩ := hupdated
    rw [h, Option.some.injEq] at h1
    rw [h1]
    exact hreplaced
  · intro hreplaced
    exact ⟨_, _, h t, h _, hreplaced, contents_run_run t generator⟩

/-- The update does what it is for exactly if it is for all devices, or the pattern finds
    those programs that use one of them. -/
theorem update_iff (language : String) (typechecks : ExampleRow → Bool) (forDevices : Option (List Kind))
    (t : Table ExampleRow) (generator : List Sentence) : Updated language typechecks forDevices t generator ↔
      forDevices.getD [] = [] ∨
        (∀ i r, t.get? i = some r → generated language r = true →
          (Uses (forDevices.getD []) r.target_code ↔ HasToken (forDevices.getD []) r.target_code)) ∧
        ∀ ex ∈ generator, (Uses (forDevices.getD []) ex.target_code ↔ HasToken (forDevices.getD []) ex.target_code) := by
  by_cases hall : forDevices.getD [] = []
  · have hpattern : pattern forDevices = none := by
      unfold pattern
      cases forDevices with
      | none => rfl
      | some devices =>
        obtain rfl : devices = [] := hall
        rfl
    have hconcerned : ∀ target_code, concerned forDevices target_code = true := fun target_code => by
      cases forDevices with
      | none => rfl
      | some devices =>
        obtain rfl : devices = [] := hall
        rfl
    rw [updated_iff_of_run (found none) fun t => by rw [transaction, hpattern]]
    exact iff_of_true ⟨fun _ r _ _ => hconcerned r.target_code, fun ex _ => hconcerned ex.target_code⟩ (.inl hall)
  · rw [or_iff_right hall]
    cases forDevices with
    | none => exact absurd rfl hall
    | some devices =>
      have hdevices : devices ≠ [] := hall
      have hempty : devices.isEmpty = false := by simpa using hdevices
      obtain ⟨r, hparse, htest⟩ := DevicePattern.test_forDevices hdevices
      have hpattern : pattern (some devices) = some (forDevicesPattern devices) := by
        rw [pattern, hempty]
        rfl
      have hagree : ∀ target_code, concerned (some devices) target_code = found (some r) target_code ↔
          (Uses devices target_code ↔ HasToken devices target_code) := fun target_code => by
        rw [← htest, concerned, found, Option.all_some, Option.all_some, hempty, Bool.false_or, Bool.eq_iff_iff,
          decide_eq_true_eq]
      have hrun : ∀ t, transaction language typechecks (some devices) t generator =
          some (run language typechecks (found (some r)) t generator) := fun t => by
        rw [transaction, hpattern]
        simp only [hparse, Option.map_some]
      rw [updated_iff_of_run (found (some r)) hrun]
      constructor
      · intro h
        exact ⟨fun i row hrow hgenerated => (hagree _).mp (h.stored i row hrow hgenerated),
          fun ex hex => (hagree _).mp (h.streamed ex hex)⟩
      · intro h
        exact ⟨fun i row hrow hgenerated => (hagree _).mpr (h.1 i row hrow hgenerated),
          fun ex hex => (hagree _).mpr (h.2 ex hex)⟩

/-! ## A search that is out of date -/

def bing : Kind := ⟨"com.bing".toList, List.all_eq_true.mp rfl⟩

def stale : Sentence := ⟨"search bing", "@com.bing . web_search ( ) ;", []⟩

def fresh : Sentence := ⟨"search on bing", "@com.bing . web_search ( ) ;", []⟩

/-- The example stays, and what is generated is not inserted. -/
theorem stale_example_stays :
    (transaction "en" (fun _ => true) (some [bing]) (Table.empty.insert (toRow "en" stale)) [fresh]).map contents =
      some [toRow "en" stale] ∧
    ¬Updated "en" (fun _ => true) (some [bing]) (Table.empty.insert (toRow "en" stale)) [fresh] := by
  have hstays : (transaction "en" (fun _ => true) (some [bing]) (Table.empty.insert (toRow "en" stale))
      [fresh]).map contents =
      some [toRow "en" stale] := rfl
  refine ⟨hstays, fun h => ?_⟩
  obtain ⟨t1, t2, h1, -, hreplaced, -⟩ := h
  rw [h1, Option.map_some, Option.some.injEq] at hstays
  have hexactly := hreplaced.exactly
  rw [select_contents _ fun r => generated "en" r && concerned (some [bing]) r.target_code, hstays] at hexactly
  exact absurd hexactly (by decide)

end GenieCloud.Training.DatasetUpdate
