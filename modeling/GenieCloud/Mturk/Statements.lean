/-
  GenieCloud.Mturk.Statements — the tables of the paraphrase batches and the statements of
  `model/mturk.ts` on them.

  A submission of paraphrases is logged (`mturk_log`) and has a row of `mturk_output` for
  each of its examples. The rows of `mturk_validation_input` ask about them, the answers
  are in `mturk_validation_output`, by the submissions of `mturk_validation_log`. The
  foreign keys that later results rest on are fields of `Db`; the statements check the
  others, and unique keys, as the database does.

  Three updates join tables or name them by an alias. The database reads such a
  statement before it runs it (`Update.prepare`): its tables must be a list, and its
  columns those of the tables. That of `autoApproveUnvalidated` is no statement
  (`autoApprove_prepare`).
-/

import GenieCloud.Lib.Table
import GenieCloud.Lib.Transaction
import GenieCloud.Lib.Varchar
import Mathlib.Data.Finset.Erase
import Mathlib.Data.Finset.Insert
import Mathlib.Data.List.Sort
import Mathlib.Logic.Function.Basic

namespace GenieCloud.Mturk.Statements

open GenieCloud.Lib GenieCloud.Lib.Transaction

/-! ## Tables -/

inductive BatchStatus where
  | created
  | paraphrasing
  | validating
  | complete
  deriving DecidableEq, Repr

structure Batch where
  id_hash : String
  owner : Nat
  submissions_per_hit : Nat
  status : BatchStatus
  deriving DecidableEq, Repr

structure InputRow where
  batch : Nat
  hit_id : Int
  deriving DecidableEq, Repr

/-- The members of the set `flags`. -/
inductive Flag where
  | synthetic
  | augmented
  | obsolete
  | ambiguous
  | template
  | training
  | exact
  deriving DecidableEq, Repr

structure Example where
  type : String
  flags : Finset Flag
  deriving DecidableEq

/-- A row of `mturk_log` or `mturk_validation_log`. -/
structure LogRow where
  submission_id : String
  batch : Nat
  hit : Int
  worker : String
  deriving DecidableEq, Repr

structure OutputRow where
  submission_id : String
  program_id : Nat
  target_count : Nat
  accept_count : Nat
  reject_count : Nat
  deriving DecidableEq, Repr

inductive SentenceType where
  | real
  | fakeSame
  | fakeDifferent
  deriving DecidableEq, Repr

structure ValidationInputRow where
  batch : Nat
  hit_id : Int
  type : SentenceType
  program_id : Nat
  example_id : Option Nat
  deriving DecidableEq, Repr

inductive Answer where
  | same
  | different
  deriving DecidableEq, Repr

structure ValidationOutputRow where
  validation_sentence_id : Nat
  submission_id : String
  answer : Answer
  deriving DecidableEq, Repr

/-- The rows of `mturk_output` by their key. `approved`, which is no table, keeps the
    batches closed with automatic approval. -/
structure Db where
  mturk_batch : Table Batch
  mturk_input : Table InputRow
  example_utterances : Table Example
  mturk_log : List LogRow
  mturk_output : Nat → Option OutputRow
  mturk_validation_input : Table ValidationInputRow
  mturk_validation_log : List LogRow
  mturk_validation_output : List ValidationOutputRow
  approved : List Nat
  output_example : ∀ id, (mturk_output id).isSome → (example_utterances.get? id).isSome
  input_example : ∀ id row exampleId, mturk_validation_input.get? id = some row → row.example_id = some exampleId →
    (example_utterances.get? exampleId).isSome
  answer_input : ∀ row ∈ mturk_validation_output, (mturk_validation_input.get? row.validation_sentence_id).isSome

inductive Error where
  | notFound
  | tooManyRows (n : Nat)
  | forbidden (message : String)
  | badRequest (message : String)
  | duplicateEntry
  | noReferencedRow
  | dataTooLong
  | outOfRange
  | parseError
  | unknownColumn (table column : String)
  deriving DecidableEq, Repr

abbrev M (α : Type) := Tx Db Error α

/-! ## Columns -/

def isInt (n : Int) : Bool := -2147483648 ≤ n ∧ n ≤ 2147483647

/-! ## Reading and writing -/

def read {α : Type} (f : Db → Except Error α) : M α := statement fun db => (f db).map (·, db)

def write (f : Db → Except Error Db) : M Unit := statement fun db => (f db).map ((), ·)

def selectOne {α : Type} : List α → Except Error α
  | [row] => .ok row
  | [] => .error .notFound
  | rows => .error (.tooManyRows rows.length)

/-! ## Updates over tables named by an alias -/

inductive Token where
  | word (text : String)
  | comma
  deriving DecidableEq

/-- What stands between `update` and `set`, and the columns that the rest reads and
    writes, each by the alias of its table. -/
structure Update where
  references : List Token
  columns : List (String × String)

def tableReferences : List Token → Option (List (String × String))
  | [.word table, .word name] => some [(name, table)]
  | .word table :: .word name :: .comma :: tokens => (tableReferences tokens).map ((name, table) :: ·)
  | _ => none

def columnsOf (table : String) : List String :=
  if table = "example_utterances" then
    ["id", "schema_id", "is_base", "language", "type", "flags", "utterance", "preprocessed", "target_json", "target_code",
      "context", "click_count", "like_count", "owner", "name"]
  else if table = "mturk_output" then
    ["example_id", "submission_id", "program_id", "target_count", "accept_count", "reject_count"]
  else []

def resolves (tables : List (String × String)) (column : String × String) : Bool :=
  match tables.lookup column.1 with
  | some table => (columnsOf table).contains column.2
  | none => false

/-- The error with which the database refuses an update, if it does. -/
def Update.prepare (sql : Update) : Option Error :=
  match tableReferences sql.references with
  | none => some .parseError
  | some tables =>
    (sql.columns.find? fun column => !resolves tables column).map fun column => .unknownColumn column.1 column.2

def update (sql : Update) (f : Db → Db) : M Unit := write fun db =>
  match sql.prepare with
  | some err => .error err
  | none => .ok (f db)

/-- Tables that come with new rows keep the foreign keys on examples. -/
def withExamples (db : Db) (examples : Table Example)
    (h : ∀ id, (db.example_utterances.get? id).isSome → (examples.get? id).isSome) : Db :=
  { db with
    example_utterances := examples
    output_example := fun id hid => h id (db.output_example id hid)
    input_example := fun id row exampleId hrow hid => h exampleId (db.input_example id row exampleId hrow hid) }

def updateFlags (db : Db) (p : Nat → Bool) (f : Finset Flag → Finset Flag) : Db :=
  withExamples db (db.example_utterances.update (fun id _ => p id) fun row => { row with flags := f row.flags }) <| by
    intro id h
    rw [Table.get?_update, Option.isSome_map]
    exact h

def updateOutput (db : Db) (f : Nat → OutputRow → OutputRow) : Db :=
  { db with
    mturk_output := fun id => (db.mturk_output id).map (f id)
    output_example := fun id h => db.output_example id (by rwa [Option.isSome_map] at h) }

/-! ## The statements -/

def updateBatch (batchId : Nat) (status : BatchStatus) : M Unit := write fun db =>
  .ok { db with mturk_batch := db.mturk_batch.update (fun id _ => id = batchId) fun row => { row with status := status } }

def getBatch (batch : Nat) : M (List (Nat × InputRow)) := query fun db =>
  db.mturk_input.select fun _ row => row.batch = batch

def getBatchDetails (batchIdHash : String) : M (Nat × Batch) := read fun db =>
  selectOne (db.mturk_batch.select fun _ row => unpadded row.id_hash = unpadded batchIdHash)

def getBatchDetailsById (batchId : Nat) : M (Nat × Batch) := read fun db =>
  selectOne (db.mturk_batch.select fun id _ => id = batchId)

def insertExample (db : Db) (example_ : Example) : Db :=
  withExamples db (db.example_utterances.insert example_) fun id h => by
    rw [Table.get?_insert]
    split
    · rfl
    · exact h

/-- `create` of `model/example.ts`. -/
def createExample (example_ : Example) : M Nat := statement fun db =>
  .ok (db.example_utterances.next, insertExample db example_)

def insertValidationInput (db : Db) (row : ValidationInputRow) : Except Error Db :=
  if (db.mturk_batch.get? row.batch).isSome && (db.mturk_input.get? row.program_id).isSome then
    if h : ∀ exampleId, row.example_id = some exampleId → (db.example_utterances.get? exampleId).isSome then
      .ok { db with
        mturk_validation_input := db.mturk_validation_input.insert row
        input_example := by
          intro id row' exampleId hrow hid
          rw [Table.get?_insert] at hrow
          split at hrow
          · obtain rfl := Option.some.inj hrow
            exact h exampleId hid
          · exact db.input_example id row' exampleId hrow hid
        answer_input := by
          intro answer hanswer
          rw [Table.get?_insert]
          split
          · rfl
          · exact db.answer_input answer hanswer }
    else .error .noReferencedRow
  else .error .noReferencedRow

def createValidationHITs (hits : List ValidationInputRow) : M Unit := write fun db => hits.foldlM insertValidationInput db

/-- `order by mvi.program_id, mvi.id` -/
def inOrder (a b : Nat × ValidationInputRow) : Bool :=
  a.2.program_id < b.2.program_id || (a.2.program_id = b.2.program_id && a.1 ≤ b.1)

def hitRows (db : Db) (batch : Nat) (hitId : Int) : List (Nat × ValidationInputRow) :=
  (db.mturk_validation_input.select fun _ row => row.batch = batch && row.hit_id = hitId &&
    (db.mturk_input.get? row.program_id).isSome).insertionSort (inOrder · ·)

def getValidationHIT (batch : Nat) (hitId : Int) : M (List (Nat × ValidationInputRow)) := query fun db =>
  hitRows db batch hitId

def insertLog (db : Db) (log : List LogRow) (row : LogRow) : Except Error (List LogRow) :=
  match varchar 32 row.worker with
  | none => .error .dataTooLong
  | some worker =>
    if !isInt row.hit then .error .outOfRange
    else if log.any (·.submission_id = row.submission_id) then .error .duplicateEntry
    else if (db.mturk_batch.get? row.batch).isNone then .error .noReferencedRow
    else .ok (log ++ [{ row with worker := worker }])

def logSubmission (row : LogRow) : M Unit := write fun db =>
  (insertLog db db.mturk_log row).map fun log => { db with mturk_log := log }

def logValidationSubmission (row : LogRow) : M Unit := write fun db =>
  (insertLog db db.mturk_validation_log row).map fun log => { db with mturk_validation_log := log }

def getExistingValidationSubmission (batch : Nat) (hit : Int) (worker : String) : M (List String) := query fun db =>
  (db.mturk_validation_log.filter fun row =>
    row.batch = batch && row.hit = hit && unpadded row.worker = unpadded worker).map (·.submission_id)

def insertOutput (db : Db) (submission : Nat × OutputRow) : Except Error Db :=
  if h : (db.example_utterances.get? submission.1).isSome then
    if (db.mturk_output submission.1).isSome then .error .duplicateEntry
    else if db.mturk_log.any (·.submission_id = submission.2.submission_id) &&
        (db.mturk_input.get? submission.2.program_id).isSome then
      .ok { db with
        mturk_output := Function.update db.mturk_output submission.1 (some submission.2)
        output_example := by
          intro id hid
          by_cases heq : id = submission.1
          · rw [heq]
            exact h
          · rw [Function.update_of_ne heq] at hid
            exact db.output_example id hid }
    else .error .noReferencedRow
  else .error .noReferencedRow

def insertSubmission (submissions : List (Nat × OutputRow)) : M Unit :=
  if submissions = [] then pure () else write fun db => submissions.foldlM insertOutput db

def insertAnswer (db : Db) (row : ValidationOutputRow) : Except Error Db :=
  if h : (db.mturk_validation_input.get? row.validation_sentence_id).isSome then
    if db.mturk_validation_output.any fun answer =>
        answer.validation_sentence_id = row.validation_sentence_id && answer.submission_id = row.submission_id then
      .error .duplicateEntry
    else if db.mturk_validation_log.any (·.submission_id = row.submission_id) then
      .ok { db with
        mturk_validation_output := db.mturk_validation_output ++ [row]
        answer_input := by
          intro answer hanswer
          rcases List.mem_append.mp hanswer with hanswer | hanswer
          · exact db.answer_input answer hanswer
          · rw [List.mem_singleton.mp hanswer]
            exact h }
    else .error .noReferencedRow
  else .error .noReferencedRow

def insertValidationSubmission (submissions : List ValidationOutputRow) : M Unit :=
  if submissions = [] then pure () else write fun db => submissions.foldlM insertAnswer db

/-! ## Votes and flags -/

def accepted (row : OutputRow) : Bool := row.target_count ≤ row.accept_count && row.reject_count = 0

def countGood (db : Db) (exampleIds : List (Option Nat)) : Db := updateOutput db fun id row =>
  if some id ∈ exampleIds then { row with accept_count := row.accept_count + 1 } else row

def flagGoodSql : Update where
  references := [.word "example_utterances", .word "ex", .comma, .word "mturk_output", .word "mo"]
  columns := [("ex", "flags"), ("ex", "flags"), ("ex", "flags"), ("ex", "id"), ("ex", "id"), ("mo", "example_id"),
    ("mo", "accept_count"), ("mo", "target_count"), ("mo", "reject_count")]

def flagGood (db : Db) (exampleIds : List (Option Nat)) : Db :=
  updateFlags db (fun id => some id ∈ exampleIds && (db.mturk_output id).any accepted) (insert .training)

def markSentencesGood (exampleIds : List (Option Nat)) : M Unit :=
  if exampleIds = [] then pure () else do
    write fun db => .ok (countGood db exampleIds)
    update flagGoodSql (flagGood · exampleIds)

def countBad (db : Db) (exampleIds : List (Option Nat)) : Db := updateOutput db fun id row =>
  if some id ∈ exampleIds then { row with reject_count := row.reject_count + 1 } else row

def flagBadSql : Update where
  references := [.word "example_utterances", .word "ex"]
  columns := [("ex", "flags"), ("ex", "flags"), ("ex", "id")]

def flagBad (db : Db) (exampleIds : List (Option Nat)) : Db :=
  updateFlags db (fun id => some id ∈ exampleIds) (·.erase .training)

def markSentencesBad (exampleIds : List (Option Nat)) : M Unit :=
  if exampleIds = [] then pure () else do
    write fun db => .ok (countBad db exampleIds)
    update flagBadSql (flagBad · exampleIds)

def batchOf (db : Db) (row : OutputRow) : Option Nat :=
  (db.mturk_log.find? (·.submission_id = row.submission_id)).map (·.batch)

def autoApproveSql : Update where
  references := [.word "example_utterances", .word "ex", .comma, .word "mturk_output", .word "mout", .comma]
  columns := [("ex", "flags"), ("ex", "flags"), ("ex", "flags"), ("mout", "batch"), ("mout", "example_id"), ("ex", "id"),
    ("mout", "reject_count"), ("mout", "submission_id"), ("log", "submission_id"), ("ex", "flags")]

/-- `mout.batch` read as the batch that the submission is logged for. -/
def autoApproved (db : Db) (batch : Nat) : Db :=
  updateFlags db (fun id => (db.mturk_output id).any fun row => row.reject_count = 0 && batchOf db row = some batch)
    (insert .training)

def autoApproveUnvalidated (batch : Nat) : M Unit := update autoApproveSql (autoApproved · batch)

theorem updateOutput_self {f : Nat → OutputRow → OutputRow} (h : ∀ id row, f id row = row) (db : Db) :
    updateOutput db f = db := by
  have hmap : (fun id => (db.mturk_output id).map (f id)) = db.mturk_output := by
    funext id
    rw [funext (h id)]
    exact Option.map_id'
  cases db
  simp only [updateOutput, Db.mk.injEq, true_and, and_true]
  exact hmap

theorem updateFlags_self {p : Nat → Bool} (h : ∀ id, p id = false) (db : Db) (f : Finset Flag → Finset Flag) :
    updateFlags db p f = db := by
  have hupdate : db.example_utterances.update (fun id _ => p id) (fun row => { row with flags := f row.flags }) =
      db.example_utterances := by
    apply Table.update_eq_self
    intro id row _ hp
    rw [h id] at hp
    cases hp
  cases db
  simp only [updateFlags, withExamples, Db.mk.injEq, true_and, and_true]
  exact hupdate

theorem flagGood_prepare : flagGoodSql.prepare = none := by decide

theorem flagBad_prepare : flagBadSql.prepare = none := by decide

/-- After the last table of the list there is another comma. -/
theorem autoApprove_prepare : autoApproveSql.prepare = some .parseError := rfl

/-- Without that comma it would name a column that is not there. -/
example : Update.prepare { autoApproveSql with references := autoApproveSql.references.dropLast } =
    some (.unknownColumn "mout" "batch") := by decide

/-! ## What the statements keep -/

section Triples

variable {α : Type} {P : Db → Prop} {Q : α → Db → Prop} {Q' : Unit → Db → Prop}

theorem triple_read {f : Db → Except Error α} (h : ∀ db a, P db → f db = .ok a → Q a db) : Triple P (read f) Q := by
  apply Triple.statement
  intro db a t hP hf
  cases hr : f db with
  | error err => simp [hr, Except.map] at hf
  | ok b =>
    simp only [hr, Except.map, Except.ok.injEq, Prod.mk.injEq] at hf
    obtain ⟨rfl, rfl⟩ := hf
    exact h db b hP hr

theorem triple_write {f : Db → Except Error Db} (h : ∀ db t, P db → f db = .ok t → Q' () t) :
    Triple P (write f) Q' := by
  apply Triple.statement
  intro db a t hP hf
  cases hr : f db with
  | error err => simp [hr, Except.map] at hf
  | ok b =>
    simp only [hr, Except.map, Except.ok.injEq, Prod.mk.injEq] at hf
    obtain ⟨-, rfl⟩ := hf
    exact h db b hP hr

theorem triple_update {sql : Update} {f : Db → Db} (h : ∀ db, P db → Q' () (f db)) : Triple P (update sql f) Q' := by
  apply triple_write
  intro db t hP hf
  split at hf
  · cases hf
  · cases hf
    exact h db hP

/-- A refused update never gets to its end. -/
theorem triple_refused {sql : Update} {f : Db → Db} {err : Error} (h : sql.prepare = some err) :
    Triple P (update sql f) Q' := by
  apply triple_write
  intro db t _ hf
  rw [h] at hf
  cases hf

end Triples

end GenieCloud.Mturk.Statements
