/-
  GenieCloud.Mturk.BatchUpload — the programs of an uploaded file as the inputs of a batch
  (`createMTurkBatch` of `routes/developer_mturk.ts`).

  The file is read row by row. Four rows make a HIT, and about a hundred rows of HITs make an
  insert; what is left of the inserts is inserted at the end, but what is left of the last HIT
  is not. `filled_foldl` is what the reading keeps: the HITs that are full, in order, are
  inserted or wait, and fewer than four rows wait for their HIT.

  `createMTurkBatch_iff`: the inputs of the batch are the programs of the file, HIT by HIT,
  exactly if their number is a multiple of four.

  The parser of the file is its list of rows; the statements are those of a request that
  succeeds, and each inserts its rows in order.
-/

import GenieCloud.Lib.Table
import Mathlib.Data.List.Induction

namespace GenieCloud.Mturk.BatchUpload

open GenieCloud.Lib

def SYNTHETIC_PER_PARAPHRASE_HIT : Nat := 4

/-! ## The tables and the file -/

/-- A row of the file. -/
@[ext]
structure Program where
  utterance : String
  target_code : String
  deriving DecidableEq

structure Batch where
  id_hash : String
  name : String
  owner : Nat
  submissions_per_hit : Nat
  deriving DecidableEq

structure InputRow where
  batch : Nat
  hit_id : Nat
  sentence : String
  thingtalk : String
  deriving DecidableEq

def InputRow.program (row : InputRow) : Program := ⟨row.sentence, row.thingtalk⟩

/-- Every input is of a batch. -/
structure Db where
  mturk_batch : Table Batch
  mturk_input : Table InputRow
  input_batch : ∀ i row, mturk_input.get? i = some row → row.batch < mturk_batch.next

/-- `model.create` -/
def Db.create (db : Db) (batch : Batch) : Db where
  mturk_batch := db.mturk_batch.insert batch
  mturk_input := db.mturk_input
  input_batch := fun i row h => Nat.lt_succ_of_lt (db.input_batch i row h)

/-- `insert into mturk_input(batch, hit_id, sentence, thingtalk) values ?` -/
def Db.insertInputs (db : Db) (rows : List InputRow) (hrows : ∀ row ∈ rows, row.batch < db.mturk_batch.next) : Db where
  mturk_batch := db.mturk_batch
  mturk_input := rows.foldl Table.insert db.mturk_input
  input_batch := fun i row h => (Table.get?_insertAll h).elim (db.input_batch i row) (hrows row)

def Db.inputs (db : Db) (batch : Nat) : List InputRow :=
  (db.mturk_input.select fun _ row => row.batch = batch).map (·.2)

/-! ## The upload -/

/-- The variables of the function, and the inserts that were made. -/
structure State where
  minibatch : List InputRow
  hitCount : Nat
  programs : List Program
  inserts : List (List InputRow)

namespace State

def start : State := ⟨[], 0, [], []⟩

def doInsert (s : State) : State := { s with minibatch := [], inserts := s.inserts ++ [s.minibatch] }

def finish (s : State) : State := if s.minibatch.isEmpty then s else s.doInsert

def toRows (batch hitId : Nat) (programs : List Program) : List InputRow :=
  programs.map fun p => ⟨batch, hitId, p.utterance, p.target_code⟩

def insertOneHIT (batch : Nat) (s : State) (programs : List Program) : State :=
  let s' : State := { s with hitCount := s.hitCount + 1, minibatch := s.minibatch ++ toRows batch s.hitCount programs }
  if s'.minibatch.length < 100 then s' else s'.doInsert

/-- `parser.on('data')` -/
def onData (batch : Nat) (s : State) (row : Program) : State :=
  if (s.programs ++ [row]).length = SYNTHETIC_PER_PARAPHRASE_HIT then
    { s.insertOneHIT batch (s.programs ++ [row]) with programs := [] }
  else { s with programs := s.programs ++ [row] }

/-- The rows that are inserted or wait for it. -/
def rows (s : State) : List InputRow := s.inserts.flatten ++ s.minibatch

end State

open State

def inserted (batch : Nat) (file : List Program) : List InputRow :=
  (file.foldl (onData batch) start).finish.inserts.flatten

/-! ## The rows by their place in the file -/

def placed (batch : Nat) (file : List Program) : List InputRow :=
  file.zipIdx.map fun x => ⟨batch, x.2 / SYNTHETIC_PER_PARAPHRASE_HIT, x.1.utterance, x.1.target_code⟩

theorem placed_concat (batch : Nat) (file : List Program) (p : Program) :
    placed batch (file ++ [p]) =
      placed batch file ++ [⟨batch, file.length / SYNTHETIC_PER_PARAPHRASE_HIT, p.utterance, p.target_code⟩] := by
  simp [placed, List.zipIdx_append]

/-- A HIT after full ones. -/
theorem placed_append (batch : Nat) {file : List Program} {hit : Nat}
    (hfile : file.length = SYNTHETIC_PER_PARAPHRASE_HIT * hit) (programs : List Program)
    (hprograms : programs.length ≤ SYNTHETIC_PER_PARAPHRASE_HIT) :
    placed batch (file ++ programs) = placed batch file ++ toRows batch hit programs := by
  induction programs using List.reverseRecOn with
  | nil => simp [toRows]
  | append_singleton programs p ih =>
    have hlength : programs.length + 1 ≤ SYNTHETIC_PER_PARAPHRASE_HIT := by simpa using hprograms
    have hhit : (file ++ programs).length / SYNTHETIC_PER_PARAPHRASE_HIT = hit := by
      rw [List.length_append, hfile]
      simp only [SYNTHETIC_PER_PARAPHRASE_HIT] at hlength ⊢
      omega
    rw [← List.append_assoc, placed_concat, ih (by omega), hhit, List.append_assoc]
    simp [toRows]

theorem batch_of_mem_placed {batch : Nat} {file : List Program} {row : InputRow} (h : row ∈ placed batch file) :
    row.batch = batch := by
  obtain ⟨x, -, rfl⟩ := List.mem_map.mp h
  rfl

theorem program_placed (batch : Nat) (file : List Program) : (placed batch file).map InputRow.program = file := by
  induction file using List.reverseRecOn with
  | nil => rfl
  | append_singleton file p ih => rw [placed_concat, List.map_append, ih]; rfl

theorem length_hit (batch : Nat) (file : List Program) (hit : Nat) :
    ((placed batch file).filter (·.hit_id = hit)).length =
      min SYNTHETIC_PER_PARAPHRASE_HIT (file.length - SYNTHETIC_PER_PARAPHRASE_HIT * hit) := by
  induction file using List.reverseRecOn with
  | nil => simp [placed]
  | append_singleton file p ih =>
    rw [placed_concat, List.filter_append, List.length_append, ih, List.length_append, List.filter_singleton]
    unfold SYNTHETIC_PER_PARAPHRASE_HIT
    by_cases h : file.length / 4 = hit
    · simp only [h, decide_true, cond_true, List.length_singleton]
      omega
    · simp only [h, decide_false, cond_false, List.length_nil, List.length_singleton]
      omega

theorem hit_of_mem_placed {batch : Nat} {file : List Program} {row : InputRow} (h : row ∈ placed batch file) :
    SYNTHETIC_PER_PARAPHRASE_HIT * row.hit_id < file.length := by
  have hmem : row ∈ (placed batch file).filter (·.hit_id = row.hit_id) := List.mem_filter.mpr ⟨h, decide_eq_true rfl⟩
  have hlength := length_hit batch file row.hit_id
  have hpos := List.length_pos_of_mem hmem
  omega

/-! ## What the reading keeps -/

/-- What has been read is that of the full HITs and less than one more. -/
structure Filled (batch : Nat) (file : List Program) (s : State) : Prop where
  done : ∃ done, file = done ++ s.programs ∧ done.length = SYNTHETIC_PER_PARAPHRASE_HIT * s.hitCount ∧
    s.rows = placed batch done
  left : s.programs.length < SYNTHETIC_PER_PARAPHRASE_HIT

theorem rows_doInsert (s : State) : s.doInsert.rows = s.rows := by
  simp [rows, doInsert]

theorem rows_insertOneHIT (batch : Nat) (s : State) (programs : List Program) :
    (s.insertOneHIT batch programs).rows = s.rows ++ toRows batch s.hitCount programs := by
  simp only [insertOneHIT]
  split
  · simp [rows]
  · rw [rows_doInsert]
    simp [rows]

theorem hitCount_insertOneHIT (batch : Nat) (s : State) (programs : List Program) :
    (s.insertOneHIT batch programs).hitCount = s.hitCount + 1 := by
  simp only [insertOneHIT]
  split <;> rfl

theorem filled_onData {batch : Nat} {file : List Program} {s : State} (h : Filled batch file s) (row : Program) :
    Filled batch (file ++ [row]) (s.onData batch row) := by
  obtain ⟨⟨done, rfl, hlength, hrows⟩, hleft⟩ := h
  unfold onData
  split
  · -- the row completes a HIT
    rename_i hfull
    refine ⟨⟨done ++ (s.programs ++ [row]), by simp, ?_, ?_⟩, by simp [SYNTHETIC_PER_PARAPHRASE_HIT]⟩
    · rw [List.length_append, hfull, hlength]
      show _ = SYNTHETIC_PER_PARAPHRASE_HIT * (s.insertOneHIT batch (s.programs ++ [row])).hitCount
      rw [hitCount_insertOneHIT, Nat.mul_succ]
    · show (s.insertOneHIT batch (s.programs ++ [row])).rows = _
      rw [rows_insertOneHIT, hrows, placed_append batch hlength _ (Nat.le_of_eq hfull)]
  · rename_i hfull
    refine ⟨⟨done, by simp, hlength, hrows⟩, ?_⟩
    simp only [List.length_append, List.length_singleton] at hfull ⊢
    omega

theorem filled_foldl (batch : Nat) (file : List Program) : Filled batch file (file.foldl (onData batch) start) := by
  induction file using List.reverseRecOn with
  | nil => exact ⟨⟨[], rfl, rfl, rfl⟩, Nat.zero_lt_succ _⟩
  | append_singleton file row ih =>
    rw [List.foldl_concat]
    exact filled_onData ih row

theorem finish_inserts (s : State) : s.finish.inserts.flatten = s.rows := by
  unfold finish
  split
  · rename_i hempty
    rw [rows, List.isEmpty_iff.mp hempty, List.append_nil]
  · simp [doInsert, rows]

/-- The programs of the HITs that are full, and no other. -/
theorem inserted_eq (batch : Nat) (file : List Program) :
    ∃ done left, file = done ++ left ∧ left.length = file.length % SYNTHETIC_PER_PARAPHRASE_HIT ∧
      inserted batch file = placed batch done := by
  obtain ⟨⟨done, hfile, hlength, hrows⟩, hleft⟩ := filled_foldl batch file
  refine ⟨done, _, hfile, ?_, (finish_inserts _).trans hrows⟩
  have hsum := congrArg List.length hfile
  rw [List.length_append, hlength] at hsum
  rw [hsum, Nat.mul_add_mod, Nat.mod_eq_of_lt hleft]

theorem batch_of_mem_inserted {batch : Nat} {file : List Program} {row : InputRow} (h : row ∈ inserted batch file) :
    row.batch = batch := by
  obtain ⟨done, left, -, -, heq⟩ := inserted_eq batch file
  exact batch_of_mem_placed (heq ▸ h)

/-! ## The batch -/

def createMTurkBatch (db : Db) (batch : Batch) (file : List Program) : Db :=
  (db.create batch).insertInputs (inserted db.mturk_batch.next file)
    fun _ h => (batch_of_mem_inserted h).symm ▸ Nat.lt_succ_self _

theorem inputs_createMTurkBatch (db : Db) (batch : Batch) (file : List Program) :
    (createMTurkBatch db batch file).inputs db.mturk_batch.next = inserted db.mturk_batch.next file := by
  have hnone : db.mturk_input.select (fun _ row => row.batch = db.mturk_batch.next) = [] := by
    refine List.filter_eq_nil_iff.mpr fun x hx => ?_
    have := db.input_batch x.1 x.2 (Table.mem_rows.mp hx)
    simp only [decide_eq_true_eq]
    omega
  have hself : (inserted db.mturk_batch.next file).filter (·.batch = db.mturk_batch.next) =
      inserted db.mturk_batch.next file :=
    List.filter_eq_self.mpr fun row h => decide_eq_true (batch_of_mem_inserted h)
  have hall := Table.select_insertAll (inserted db.mturk_batch.next file) db.mturk_input
    fun row => decide (row.batch = db.mturk_batch.next)
  rw [hnone, hself] at hall
  exact hall

/-- The rows are the programs of the file in order, in HITs from 0 on that are full but for the last. -/
structure Complete (file : List Program) (rows : List InputRow) : Prop where
  programs : rows.map InputRow.program = file
  noGaps : ∀ row ∈ rows, ∀ hit < row.hit_id, (rows.filter (·.hit_id = hit)).length = SYNTHETIC_PER_PARAPHRASE_HIT
  atMost : ∀ hit, (rows.filter (·.hit_id = hit)).length ≤ SYNTHETIC_PER_PARAPHRASE_HIT

theorem complete_placed (batch : Nat) (file : List Program) : Complete file (placed batch file) where
  programs := program_placed batch file
  noGaps := by
    intro row hrow hit hlt
    have hrow := hit_of_mem_placed hrow
    rw [length_hit]
    simp only [SYNTHETIC_PER_PARAPHRASE_HIT] at hrow ⊢
    omega
  atMost := by
    intro hit
    rw [length_hit]
    exact Nat.min_le_left ..

/-- The programs are all in the batch exactly if none is left when the file ends. -/
theorem createMTurkBatch_iff (db : Db) (batch : Batch) (file : List Program) :
    Complete file ((createMTurkBatch db batch file).inputs db.mturk_batch.next) ↔
      file.length % SYNTHETIC_PER_PARAPHRASE_HIT = 0 := by
  rw [inputs_createMTurkBatch]
  obtain ⟨done, left, hfile, hlength, heq⟩ := inserted_eq db.mturk_batch.next file
  rw [heq, ← hlength, List.length_eq_zero_iff]
  constructor
  · intro h
    have hdone : done = file := (program_placed db.mturk_batch.next done).symm.trans h.programs
    rw [← hdone] at hfile
    exact List.append_right_eq_self.mp hfile.symm
  · rintro rfl
    rw [hfile, List.append_nil]
    exact complete_placed _ done

/-- Five programs: the last one is in no HIT. -/
theorem fifth_program_lost :
    ∃ (db : Db) (batch : Batch) (file : List Program),
      ¬ Complete file ((createMTurkBatch db batch file).inputs db.mturk_batch.next) := by
  let db : Db := ⟨Table.empty, Table.empty, nofun⟩
  let file : List Program := ["a", "b", "c", "d", "e"].map fun x => ⟨x, "@com.bing.web_search();"⟩
  refine ⟨db, ⟨"0", "Test Batch", 1, 3⟩, file, fun h => ?_⟩
  have hlength : ((createMTurkBatch db ⟨"0", "Test Batch", 1, 3⟩ file).inputs 1).length = 4 := by decide
  have := congrArg List.length h.programs
  rw [List.length_map] at this
  exact absurd (hlength.symm.trans this) (by decide)

end GenieCloud.Mturk.BatchUpload
