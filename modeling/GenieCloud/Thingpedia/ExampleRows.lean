/-
  GenieCloud.Thingpedia.ExampleRows — what the upload of a dataset does to the rows of
  `example_utterances`.

  `ensureDataset_synced`: the rows of the schema that no example keeps go, those that one
  keeps get its utterance, and each new example is a row of its own, under an id that was
  not there before.
-/

import GenieCloud.Thingpedia.ImportDevice

namespace GenieCloud.Thingpedia

open GenieCloud.Lib

variable {V : Type} {P : Packages V}

/-! ## Updates of a row -/

/-- The row with an id, after updates. -/
def rewrite (updates : List (Nat × String × String)) (i : Nat) (ex : ExampleRow) : ExampleRow :=
  updates.foldl (fun ex u => if i = u.1 then { ex with utterance := u.2.1, preprocessed := u.2.2 } else ex) ex

theorem rewrite_cases (updates : List (Nat × String × String)) (i : Nat) (ex : ExampleRow) :
    (rewrite updates i ex = ex ∧ ∀ u ∈ updates, u.1 ≠ i) ∨
      ∃ u ∈ updates, u.1 = i ∧ rewrite updates i ex = { ex with utterance := u.2.1, preprocessed := u.2.2 } := by
  induction updates generalizing ex with
  | nil => exact Or.inl ⟨rfl, by simp⟩
  | cons u updates ih =>
    rw [rewrite, List.foldl_cons]
    by_cases hu : i = u.1
    · rw [if_pos hu]
      rcases ih { ex with utterance := u.2.1, preprocessed := u.2.2 } with ⟨h, -⟩ | ⟨u', hu', hi, h⟩
      · exact Or.inr ⟨u, List.mem_cons_self .., hu.symm, h⟩
      · exact Or.inr ⟨u', List.mem_cons_of_mem _ hu', hi, h⟩
    · rw [if_neg hu]
      rcases ih ex with ⟨h, hne⟩ | ⟨u', hu', hi, h⟩
      · refine Or.inl ⟨h, fun v hv => ?_⟩
        rcases List.mem_cons.mp hv with rfl | hv
        · exact fun he => hu he.symm
        · exact hne v hv
      · exact Or.inr ⟨u', List.mem_cons_of_mem _ hu', hi, h⟩

theorem get?_updates (updates : List (Nat × String × String)) (t : Table ExampleRow) (i : Nat) :
    (updates.foldl (fun t u => t.update (fun i _ => i = u.1) fun ex =>
      { ex with utterance := u.2.1, preprocessed := u.2.2 }) t).get? i = (t.get? i).map (rewrite updates i) := by
  induction updates generalizing t with
  | nil => exact (Option.map_id' ..).symm
  | cons u updates ih =>
    rw [List.foldl_cons, ih, Table.get?_update, Option.map_map]
    congr 1
    funext ex
    rw [Function.comp_apply]
    simp only [decide_eq_true_eq]
    rfl

theorem next_updates (updates : List (Nat × String × String)) (t : Table ExampleRow) :
    (updates.foldl (fun t u => t.update (fun i _ => i = u.1) fun ex =>
      { ex with utterance := u.2.1, preprocessed := u.2.2 }) t).next = t.next := by
  induction updates generalizing t with
  | nil => rfl
  | cons u updates ih => rw [List.foldl_cons, ih]; rfl

/-! ## New rows -/

/-- The rows of a table and, above them, others. -/
structure Extends (t t' : Table ExampleRow) (rows : List ExampleRow) : Prop where
  next : t.next ≤ t'.next
  old : ∀ i, i < t.next → t'.get? i = t.get? i
  new : ∀ i r, t.next ≤ i → t'.get? i = some r → r ∈ rows
  all : ∀ r ∈ rows, ∃ i, t.next ≤ i ∧ t'.get? i = some r

theorem insertExamples_extends {rows : List ExampleRow} {t t' : Table ExampleRow} (h : rows.foldlM insertExample t = some t') :
    Extends t t' rows := by
  induction rows generalizing t with
  | nil =>
    cases h
    refine ⟨Nat.le_refl _, fun _ _ => rfl, fun i r hi hr => ?_, by simp⟩
    have := Table.lt_next hr
    omega
  | cons row rows ih =>
    obtain ⟨t1, h1, h⟩ := Option.bind_eq_some_iff.mp h
    have hins : t1 = t.insert row := by
      unfold insertExample at h1
      split at h1
      · cases h1
      · exact (Option.some.inj h1).symm
    subst hins
    have he := ih h
    have hget : ∀ i, i < t.next + 1 → t'.get? i = if i = t.next then some row else t.get? i := by
      intro i hi
      rw [he.old i hi, Table.get?_insert]
    have hnext := he.next
    rw [Table.next_insert] at hnext
    refine ⟨by omega, fun i hi => ?_, fun i r hi hr => ?_, fun r hr => ?_⟩
    · rw [hget i (by omega), if_neg (by omega)]
    · by_cases hit : i = t.next
      · rw [hget i (by omega), if_pos hit] at hr
        cases hr
        exact List.mem_cons_self ..
      · exact List.mem_cons_of_mem _ (he.new i r (by rw [Table.next_insert]; omega) hr)
    · rcases List.mem_cons.mp hr with rfl | hr
      · exact ⟨t.next, Nat.le_refl _, by rw [hget t.next (by omega), if_pos rfl]⟩
      · obtain ⟨i, hi, hget⟩ := he.all r hr
        rw [Table.next_insert] at hi
        exact ⟨i, by omega, hget⟩

/-! ## A dataset -/

/-- The examples of a schema after the upload of a dataset. -/
structure Synced (P : Packages V) (t t' : Table ExampleRow) (old : List (Nat × ExampleRow)) (schemaId : Nat)
    (classDef : ClassDef V) (dataset : Dataset) : Prop where
  kept : ∀ i, i < t.next →
    t'.get? i = if i ∈ toDelete dataset old then none else (t.get? i).map (rewrite (toUpdate dataset old) i)
  new : ∀ i r, t.next ≤ i → t'.get? i = some r → r ∈ toCreate P dataset old schemaId classDef
  all : ∀ r ∈ toCreate P dataset old schemaId classDef, ∃ i, t.next ≤ i ∧ t'.get? i = some r

variable {db db' : Db V} {schemaId : Nat} {classDef : ClassDef V} {dataset : Dataset} {changed : Bool}

theorem ensureDataset_synced (h : ensureDataset P db schemaId classDef dataset = some (db', changed)) :
    ∃ t, db' = { db with example_utterances := t } ∧
      Synced P db.example_utterances t (getBaseBySchema db schemaId dataset.inLanguage true) schemaId classDef dataset := by
  unfold ensureDataset at h
  dsimp only at h
  generalize getBaseBySchema db schemaId dataset.inLanguage true = old at h ⊢
  split at h
  · rename_i hempty
    cases h
    simp only [Bool.and_eq_true, List.isEmpty_iff] at hempty
    obtain ⟨⟨hd, hc⟩, hu⟩ := hempty
    refine ⟨db.example_utterances, rfl, fun i hi => ?_, fun i r hi hr => ?_, fun r hr => ?_⟩
    · rw [hd, hu, if_neg (List.not_mem_nil)]
      exact (Option.map_id' ..).symm
    · have := Table.lt_next hr
      omega
    · rw [hc] at hr
      cases hr
  · obtain ⟨db1, h1, h⟩ := Option.bind_eq_some_iff.mp h
    obtain ⟨t, ht, rfl⟩ := createMany_some h1
    cases h
    rw [updateExamples_eq] at ht ⊢
    have he := insertExamples_extends ht
    dsimp only [deleteMany] at he
    refine ⟨t, rfl, fun i hi => ?_, fun i r hi hr => ?_, fun r hr => ?_⟩
    · rw [he.old i (by rw [next_updates]; exact hi), get?_updates, Table.get?_delete]
      split
      · rename_i hd
        cases db.example_utterances.get? i with
        | none => rfl
        | some r => simp [hd]
      · rename_i hd
        cases db.example_utterances.get? i with
        | none => rfl
        | some r => simp [hd]
    · exact he.new i r (by rw [next_updates]; exact hi) hr
    · obtain ⟨i, hi, hr⟩ := he.all r hr
      rw [next_updates] at hi
      exact ⟨i, hi, hr⟩

end GenieCloud.Thingpedia
