/-
  GenieCloud.Mturk.Programs — which program a submitted paraphrase is stored for
  (`routes/mturk.ts`: POST /submit; `routes/developer_mturk.ts`: createMTurkBatch).

  The tables of `Mturk.Statements`, with the columns that hold languages, programs and
  sentences (`Columns`), and the submissions of `Mturk.Batches` with what they put there:
  without the columns they are those of `Mturk.Batches` (`submit_forget`). What the
  toolkit makes of a sentence and a program is a parameter.

  A submission names the batch, the HIT, four programs by their ids and the code of each.
  Nothing compares them, so a paraphrase can be stored for a program of another HIT, and
  with the code of any program (`foreign_program`). `belongs_run`: as long as submissions
  name what their HIT has, every paraphrase belongs to the HIT it is logged for; and an
  accepted submission keeps this exactly if it does.
-/

import GenieCloud.Mturk.Batches

namespace GenieCloud.Mturk.Programs

open GenieCloud.Lib GenieCloud.Lib.Transaction GenieCloud.Lib.Runs GenieCloud.Mturk.Statements
open GenieCloud.Mturk.Batches (Submission paraphrases openBatch)

/-! ## Tables -/

/-- Columns by the ids of their rows. -/
structure Columns where
  /-- Of `mturk_batch`. -/
  language : Nat → String
  /-- Of `mturk_input`. -/
  thingtalk : Nat → String
  /-- Of `example_utterances`. -/
  utterance : Nat → String
  target_code : Nat → String

structure State where
  db : Db
  columns : Columns

abbrev N (α : Type) := Tx State Error α

variable {α β : Type}

/-- Statements on the tables without the columns. -/
def lift (m : M α) : N α := fun s fates =>
  match m s.db fates with
  | (.ok (a, db), fates) => (.ok (a, { s with db := db }), fates)
  | (.error e, fates) => (.error e, fates)

/-- The columns that a statement writes besides. -/
def also (f : State → Columns) : N Unit := fun s fates => (.ok ((), { s with columns := f s }), fates)

/-- The language in the row of a batch that was read. -/
def languageOf (batchId : Nat) : N String := fun s fates => (.ok (s.columns.language batchId, s), fates)

/-! ## Submissions -/

/-- The body of `POST /submit`, with the code next to each program's id. -/
structure Form extends Submission where
  thingtalk : Nat → String

-- the tokens of a program, given the language and the sentence it is for
variable (serializePrediction : String → String → String → List String)

def targetCode (language utterance thingtalk : String) : String :=
  " ".intercalate (serializePrediction language utterance thingtalk)

def autoValidateParaphrase (batchId : Nat) (language utterance thingtalk : String) (checked : Except String Unit) :
    N Nat := do
  let id ← lift (Batches.autoValidateParaphrase batchId checked)
  also fun s => { s.columns with
    utterance := Function.update s.columns.utterance id utterance
    target_code := Function.update s.columns.target_code id (targetCode serializePrediction language utterance thingtalk) }
  return id

def createExamples (form : Form) (batchId : Nat) (language : String) : List (Nat × Nat) → N (List (Nat × OutputRow))
  | [] => pure []
  | (i, j) :: paraphrases => do
    let id ← autoValidateParaphrase serializePrediction batchId language (form.paraphrase i j) (form.thingtalk i)
      (form.checks i j)
    let submissions ← createExamples form batchId language paraphrases
    return (id, ⟨form.submissionId, form.program_id i, 3, 0, 0⟩) :: submissions

def submit (form : Form) : N Unit := do
  let batch ← lift (getBatchDetails form.batch)
  lift (openBatch batch)
  let language ← languageOf batch.1
  let submissions ← createExamples serializePrediction form batch.1 language (paraphrases form.toSubmission)
  lift (logSubmission ⟨form.submissionId, batch.1, form.hit, form.worker⟩)
  lift (insertSubmission submissions)

/-! ## Batches -/

/-- A new batch, and the rows of its file as the statements insert them, each with the HIT
    it falls into. -/
structure Upload where
  batch : Batch
  language : String
  inputs : List (List (Int × String))

def insertBatch (upload : Upload) (s : State) : State where
  db := { s.db with mturk_batch := s.db.mturk_batch.insert upload.batch }
  columns := { s.columns with
    language := Function.update s.columns.language s.db.mturk_batch.next upload.language }

def insertInput (batchId : Nat) (s : State) (row : Int × String) : State where
  db := { s.db with mturk_input := s.db.mturk_input.insert ⟨batchId, row.1⟩ }
  columns := { s.columns with thingtalk := Function.update s.columns.thingtalk s.db.mturk_input.next row.2 }

def insertInputs (batchId : Nat) : List (List (Int × String)) → N Unit
  | [] => pure ()
  | rows :: inputs => do
    statement fun s => .ok ((), rows.foldl (insertInput batchId) s)
    insertInputs batchId inputs

def createMTurkBatch (upload : Upload) : N Unit := do
  let batchId ← statement fun s => .ok (s.db.mturk_batch.next, insertBatch upload s)
  insertInputs batchId upload.inputs

/-! ## Runs -/

inductive Event where
  | createBatch (upload : Upload) (fates : List Fate)
  | submit (form : Form) (fates : List Fate)

def step (s : State) : Event → Option State
  | .createBatch upload fates => some (transaction (createMTurkBatch upload) s fates).1
  | .submit form fates => some (transaction (submit serializePrediction form) s fates).1

def system : System State Event where
  init s := s.db.mturk_log = [] ∧ ∀ id, s.db.mturk_output id = none
  step := step serializePrediction

/-- A paraphrase logged for a batch and a HIT is of a program of theirs, and has its code. -/
def Belongs (s : State) : Prop :=
  ∀ id row log, s.db.mturk_output id = some row → log ∈ s.db.mturk_log → log.submission_id = row.submission_id →
    ∃ input, s.db.mturk_input.get? row.program_id = some input ∧ input.batch = log.batch ∧ input.hit_id = log.hit ∧
      s.columns.target_code id = targetCode serializePrediction (s.columns.language log.batch) (s.columns.utterance id)
        (s.columns.thingtalk row.program_id)

/-- The form names programs of its HIT, each with its code. -/
def Shown (s : State) (form : Form) : Prop :=
  ∀ batch, selectOne (s.db.mturk_batch.select fun _ row => unpadded row.id_hash = unpadded form.batch) = .ok batch →
    ∀ ij ∈ paraphrases form.toSubmission, ∃ input, s.db.mturk_input.get? (form.program_id ij.1) = some input ∧
      input.batch = batch.1 ∧ input.hit_id = form.hit ∧
      targetCode serializePrediction (s.columns.language batch.1) (form.paraphrase ij.1 ij.2) (form.thingtalk ij.1) =
        targetCode serializePrediction (s.columns.language batch.1) (form.paraphrase ij.1 ij.2)
          (s.columns.thingtalk (form.program_id ij.1))

def Careful (s : State) : Event → Prop
  | .submit form _ => Shown serializePrediction s form
  | .createBatch _ _ => True

/-! ## Without the columns -/

def forget (res : Except (Failure Error) (α × State) × List Fate) : Except (Failure Error) (α × Db) × List Fate :=
  (res.1.map fun r => (r.1, r.2.db), res.2)

/-- The columns are all that `m` adds to `m'`. -/
def Follows (m : N α) (m' : M α) : Prop := ∀ s fates, forget (m s fates) = m' s.db fates

theorem lift_ok {m : M α} {s : State} {fates fates' : List Fate} {a : α} {db : Db}
    (h : m s.db fates = (.ok (a, db), fates')) : lift m s fates = (.ok (a, { s with db := db }), fates') := by
  rw [lift, h]

theorem lift_error {m : M α} {s : State} {fates fates' : List Fate} {e : Failure Error}
    (h : m s.db fates = (.error e, fates')) : lift m s fates = (.error e, fates') := by
  rw [lift, h]

theorem follows_lift (m : M α) : Follows (lift m) m := by
  intro s fates
  cases h : m s.db fates with
  | mk res fates' =>
    cases res with
    | ok r =>
      rw [lift_ok h]
      rfl
    | error e =>
      rw [lift_error h]
      rfl

theorem Follows.pure (a : α) : Follows (pure a : N α) (pure a) := fun _ _ => rfl

theorem Follows.bind {m : N α} {m' : M α} {k : α → N β} {k' : α → M β} (h : Follows m m')
    (hk : ∀ a, Follows (k a) (k' a)) : Follows (m >>= k) (m' >>= k') := by
  intro s fates
  have hm := h s fates
  cases hrun : m s fates with
  | mk res fates' =>
    rw [hrun] at hm
    cases res with
    | ok r =>
      rw [bind_ok hrun, bind_ok hm.symm]
      exact hk r.1 r.2 fates'
    | error e =>
      rw [bind_error hrun, bind_error hm.symm]
      rfl

theorem Follows.language {batchId : Nat} {k : String → N β} {k' : M β} (hk : ∀ language, Follows (k language) k') :
    Follows (languageOf batchId >>= k) k' := fun s fates => hk (s.columns.language batchId) s fates

variable {serializePrediction}

theorem autoValidateParaphrase_forget (batchId : Nat) (language utterance thingtalk : String)
    (checked : Except String Unit) :
    Follows (autoValidateParaphrase serializePrediction batchId language utterance thingtalk checked)
      (Batches.autoValidateParaphrase batchId checked) := by
  intro s fates
  cases h : Batches.autoValidateParaphrase batchId checked s.db fates with
  | mk res fates' =>
    cases res with
    | ok r =>
      rw [autoValidateParaphrase, bind_ok (lift_ok h)]
      rfl
    | error e =>
      rw [autoValidateParaphrase, bind_error (lift_error h)]
      rfl

theorem createExamples_forget (form : Form) (batchId : Nat) (language : String) (l : List (Nat × Nat)) :
    Follows (createExamples serializePrediction form batchId language l)
      (Batches.createExamples form.toSubmission batchId l) := by
  induction l with
  | nil => exact .pure []
  | cons ij l ih =>
    exact (autoValidateParaphrase_forget batchId language _ _ _).bind fun id => ih.bind fun submissions => .pure _

/-- A submission does to the tables what that of `Mturk.Batches` does. -/
theorem submit_forget (form : Form) : Follows (submit serializePrediction form) (Batches.submit form.toSubmission) := by
  refine (follows_lift _).bind fun batch => (follows_lift _).bind fun _ => .language fun language => ?_
  refine (createExamples_forget form batch.1 language _).bind fun submissions => ?_
  exact (follows_lift _).bind fun _ => follows_lift _

/-! ## What a submission does -/

variable {s t u : State}

theorem lift_done {m : M α} {Q : α → Db → Prop} (h : Triple (· = s.db) m Q) :
    Triple (· = s) (lift m) fun a t => Q a t.db ∧ t.columns = s.columns := by
  intro s' fates a t fates' hs he
  subst hs
  cases hrun : m s'.db fates with
  | mk res fates'' =>
    cases res with
    | ok r =>
      rw [lift_ok hrun] at he
      cases he
      exact ⟨h s'.db fates r.1 r.2 _ rfl hrun, rfl⟩
    | error e =>
      rw [lift_error hrun] at he
      cases he

theorem also_done (f : State → Columns) : Triple (· = s) (also f) fun _ t => t = { s with columns := f s } := by
  intro s' fates a t fates' hs he
  subst hs
  cases he
  rfl

theorem languageOf_done (batchId : Nat) :
    Triple (· = s) (languageOf batchId) fun language t => t = s ∧ language = s.columns.language batchId := by
  intro s' fates a t fates' hs he
  subst hs
  cases he
  exact ⟨rfl, rfl⟩

/-- Batches changed their status. -/
structure SameRows (s t : Db) : Prop where
  batch : ∀ id, (s.mturk_batch.get? id).isSome → (t.mturk_batch.get? id).isSome
  input : t.mturk_input = s.mturk_input
  log : t.mturk_log = s.mturk_log
  output : t.mturk_output = s.mturk_output
  examples : t.example_utterances = s.example_utterances

theorem openBatch_done {db : Db} (batch : Nat × Batch) : Triple (· = db) (openBatch batch) fun _ t => SameRows db t := by
  have hsame : SameRows db db := ⟨fun _ h => h, rfl, rfl, rfl, rfl⟩
  unfold openBatch
  split
  · apply triple_write
    intro db' t hdb ht
    cases ht
    subst hdb
    refine ⟨fun id h => ?_, rfl, rfl, rfl, rfl⟩
    rw [Table.get?_update, Option.isSome_map]
    exact h
  · apply Triple.pure
    intro db' hdb
    subst hdb
    exact hsame
  · exact Triple.fail

/-- Examples came in; the columns of the others are as they were. -/
structure Extends (s t : State) : Prop where
  batch : ∀ id, (s.db.mturk_batch.get? id).isSome → (t.db.mturk_batch.get? id).isSome
  input : t.db.mturk_input = s.db.mturk_input
  log : t.db.mturk_log = s.db.mturk_log
  output : t.db.mturk_output = s.db.mturk_output
  language : t.columns.language = s.columns.language
  thingtalk : t.columns.thingtalk = s.columns.thingtalk
  next : s.db.example_utterances.next ≤ t.db.example_utterances.next
  examples : ∀ id < s.db.example_utterances.next,
    t.columns.utterance id = s.columns.utterance id ∧ t.columns.target_code id = s.columns.target_code id

theorem Extends.refl (s : State) : Extends s s :=
  ⟨fun _ h => h, rfl, rfl, rfl, rfl, rfl, Nat.le_refl _, fun _ _ => ⟨rfl, rfl⟩⟩

theorem Extends.trans (h : Extends s t) (h' : Extends t u) : Extends s u where
  batch id hid := h'.batch id (h.batch id hid)
  input := h'.input.trans h.input
  log := h'.log.trans h.log
  output := h'.output.trans h.output
  language := h'.language.trans h.language
  thingtalk := h'.thingtalk.trans h.thingtalk
  next := Nat.le_trans h.next h'.next
  examples id hid := by
    obtain ⟨hu, hc⟩ := h.examples id hid
    obtain ⟨hu', hc'⟩ := h'.examples id (Nat.lt_of_lt_of_le hid h.next)
    exact ⟨hu'.trans hu, hc'.trans hc⟩

theorem SameRows.extends (h : SameRows s.db t.db) (hc : t.columns = s.columns) : Extends s t where
  batch := h.batch
  input := h.input
  log := h.log
  output := h.output
  language := by rw [hc]
  thingtalk := by rw [hc]
  next := by rw [h.examples]
  examples _ _ := by rw [hc]; exact ⟨rfl, rfl⟩

theorem autoValidateParaphrase_plain {db : Db} (batchId : Nat) (checked : Except String Unit) :
    Triple (· = db) (Batches.autoValidateParaphrase batchId checked) fun id t =>
      id = db.example_utterances.next ∧ ∃ example_, t = insertExample db example_ := by
  cases checked with
  | error message => exact Triple.fail
  | ok =>
    unfold Batches.autoValidateParaphrase createExample
    refine Triple.statement ?_
    intro db' id t hdb ht
    cases ht
    subst hdb
    exact ⟨rfl, _, rfl⟩

/-- The row of a paraphrase, and what its example has. -/
structure Made (serializePrediction : String → String → String → List String) (form : Form) (language : String)
    (t : State) (ij : Nat × Nat) (x : Nat × OutputRow) : Prop where
  row : x.2 = ⟨form.submissionId, form.program_id ij.1, 3, 0, 0⟩
  utterance : t.columns.utterance x.1 = form.paraphrase ij.1 ij.2
  code : t.columns.target_code x.1 =
    targetCode serializePrediction language (form.paraphrase ij.1 ij.2) (form.thingtalk ij.1)

theorem autoValidateParaphrase_done (batchId : Nat) (language utterance thingtalk : String)
    (checked : Except String Unit) :
    Triple (· = s) (autoValidateParaphrase serializePrediction batchId language utterance thingtalk checked) fun id t =>
      Extends s t ∧ s.db.example_utterances.next ≤ id ∧ id < t.db.example_utterances.next ∧
        t.columns.utterance id = utterance ∧
        t.columns.target_code id = targetCode serializePrediction language utterance thingtalk := by
  unfold autoValidateParaphrase
  refine Triple.bind (lift_done (autoValidateParaphrase_plain batchId checked)) fun id => Triple.each fun t ht => ?_
  obtain ⟨⟨rfl, example_, hdb⟩, hcols⟩ := ht
  refine Triple.bind (also_done _) fun _ => Triple.pure fun u hu => ?_
  have hnext : t.db.example_utterances.next = s.db.example_utterances.next + 1 := by rw [hdb]; rfl
  subst hu
  refine ⟨⟨?_, ?_, ?_, ?_, ?_, ?_, ?_, ?_⟩, Nat.le_refl _, ?_, Function.update_self .., Function.update_self ..⟩
  · show ∀ id, _ → (t.db.mturk_batch.get? id).isSome
    rw [hdb]
    exact fun _ h => h
  · show t.db.mturk_input = _
    rw [hdb]
    rfl
  · show t.db.mturk_log = _
    rw [hdb]
    rfl
  · show t.db.mturk_output = _
    rw [hdb]
    rfl
  · show t.columns.language = _
    rw [hcols]
  · show t.columns.thingtalk = _
    rw [hcols]
  · show _ ≤ t.db.example_utterances.next
    rw [hnext]
    exact Nat.le_succ _
  · intro id hid
    have hne : id ≠ s.db.example_utterances.next := Nat.ne_of_lt hid
    rw [← hcols]
    exact ⟨Function.update_of_ne hne .., Function.update_of_ne hne ..⟩
  · show _ < t.db.example_utterances.next
    rw [hnext]
    exact Nat.lt_succ_self _

theorem Made.later {form : Form} {language : String} {ij : Nat × Nat} {x : Nat × OutputRow}
    (h : Made serializePrediction form language s ij x) (he : Extends s t) (hx : x.1 < s.db.example_utterances.next) :
    Made serializePrediction form language t ij x := by
  obtain ⟨hu, hc⟩ := he.examples x.1 hx
  exact ⟨h.row, hu.trans h.utterance, hc.trans h.code⟩

theorem createExamples_done (form : Form) (batchId : Nat) (language : String) (l : List (Nat × Nat)) :
    Triple (· = s) (createExamples serializePrediction form batchId language l) fun xs t => Extends s t ∧
      List.Forall₂ (Made serializePrediction form language t) l xs ∧
      ∀ x ∈ xs, s.db.example_utterances.next ≤ x.1 ∧ x.1 < t.db.example_utterances.next := by
  induction l generalizing s with
  | nil =>
    apply Triple.pure
    intro t ht
    subst ht
    exact ⟨.refl t, .nil, fun _ h => (List.not_mem_nil h).elim⟩
  | cons ij l ih =>
    refine Triple.bind (autoValidateParaphrase_done batchId language _ _ _) fun id => Triple.each fun t ht => ?_
    obtain ⟨hst, hle, hlt, hutt, hcode⟩ := ht
    refine Triple.bind ih fun xs => Triple.pure ?_
    intro u hu
    obtain ⟨htu, hmade, hnew⟩ := hu
    refine ⟨hst.trans htu, .cons ?_ hmade, fun x hx => ?_⟩
    · exact Made.later ⟨rfl, hutt, hcode⟩ htu hlt
    · rcases List.mem_cons.mp hx with rfl | hx
      · exact ⟨hle, Nat.lt_of_lt_of_le hlt htu.next⟩
      · exact ⟨Nat.le_trans hst.next (hnew x hx).1, (hnew x hx).2⟩

/-- The rows of `xs` are in `mturk_output`, each of a logged submission. -/
structure Inserted (xs : List (Nat × OutputRow)) (s t : Db) : Prop where
  batch : t.mturk_batch = s.mturk_batch
  input : t.mturk_input = s.mturk_input
  log : t.mturk_log = s.mturk_log
  examples : t.example_utterances = s.example_utterances
  new : ∀ x ∈ xs, t.mturk_output x.1 = some x.2 ∧ s.mturk_log.any (·.submission_id = x.2.submission_id) = true
  old : ∀ id row, s.mturk_output id = some row → t.mturk_output id = some row
  only : ∀ id row, t.mturk_output id = some row → s.mturk_output id = some row ∨ (id, row) ∈ xs

theorem insertOutput_inserted {db t : Db} {x : Nat × OutputRow} (h : insertOutput db x = .ok t) : Inserted [x] db t := by
  unfold insertOutput at h
  split at h
  · split at h
    · cases h
    · next hnone =>
      split at h
      · next hfk =>
        cases h
        simp only [Bool.and_eq_true] at hfk
        refine ⟨rfl, rfl, rfl, rfl, fun y hy => ?_, fun id row hrow => ?_, fun id row hrow => ?_⟩
        · obtain rfl := List.mem_singleton.mp hy
          exact ⟨Function.update_self .., hfk.1⟩
        · have hne : id ≠ x.1 := by
            intro heq
            rw [heq] at hrow
            exact hnone (by rw [hrow]; rfl)
          exact (Function.update_of_ne hne ..).trans hrow
        · by_cases heq : id = x.1
          · subst heq
            have hself : Function.update db.mturk_output x.1 (some x.2) x.1 = some row := hrow
            rw [Function.update_self] at hself
            cases hself
            exact .inr (List.mem_singleton.mpr rfl)
          · exact .inl ((Function.update_of_ne heq ..).symm.trans hrow)
      · cases h
  · cases h

theorem Inserted.nil (db : Db) : Inserted [] db db :=
  ⟨rfl, rfl, rfl, rfl, fun _ h => (List.not_mem_nil h).elim, fun _ _ h => h, fun _ _ h => .inl h⟩

theorem Inserted.append {xs ys : List (Nat × OutputRow)} {db db' db'' : Db} (h : Inserted xs db db')
    (h' : Inserted ys db' db'') : Inserted (xs ++ ys) db db'' where
  batch := h'.batch.trans h.batch
  input := h'.input.trans h.input
  log := h'.log.trans h.log
  examples := h'.examples.trans h.examples
  new x hx := by
    rcases List.mem_append.mp hx with hx | hx
    · exact ⟨h'.old _ _ (h.new x hx).1, (h.new x hx).2⟩
    · exact ⟨(h'.new x hx).1, h.log ▸ (h'.new x hx).2⟩
  old id row hrow := h'.old id row (h.old id row hrow)
  only id row hrow := by
    rcases h'.only id row hrow with hrow | hx
    · exact (h.only id row hrow).imp_right fun hx => List.mem_append_left _ hx
    · exact .inr (List.mem_append_right _ hx)

theorem insertOutputs_inserted {db t : Db} {xs : List (Nat × OutputRow)} (h : xs.foldlM insertOutput db = .ok t) :
    Inserted xs db t := by
  induction xs generalizing db with
  | nil =>
    cases h
    exact .nil t
  | cons x xs ih =>
    rw [List.foldlM_cons] at h
    obtain ⟨db', hx, h⟩ := Result.bind_ok h
    exact (insertOutput_inserted hx).append (ih h)

theorem insertSubmission_done {db : Db} (xs : List (Nat × OutputRow)) :
    Triple (· = db) (insertSubmission xs) fun _ t => Inserted xs db t := by
  unfold insertSubmission
  refine Triple.ite (fun hnil => Triple.pure fun t ht => ?_) (fun _ => triple_write fun db' t hdb ht => ?_)
  · subst ht hnil
    exact .nil t
  · subst hdb
    exact insertOutputs_inserted ht

/-- A row of the log is new and of a batch that is there. -/
theorem logSubmission_done {db : Db} (row : LogRow) : Triple (· = db) (logSubmission row) fun _ t =>
    ∃ worker, t = { db with mturk_log := db.mturk_log ++ [{ row with worker := worker }] } ∧
      (∀ log ∈ db.mturk_log, log.submission_id ≠ row.submission_id) ∧ (db.mturk_batch.get? row.batch).isSome := by
  apply triple_write
  intro db' t hdb ht
  subst hdb
  unfold insertLog at ht
  split at ht
  · cases ht
  · next worker _ =>
    split at ht
    · cases ht
    · split at ht
      · cases ht
      · next hany =>
        split at ht
        · cases ht
        · next hbatch =>
          cases ht
          refine ⟨worker, rfl, fun log hlog heq => ?_, ?_⟩
          · exact hany (List.any_eq_true.mpr ⟨log, hlog, by simpa using heq⟩)
          · exact Option.isSome_iff_ne_none.mpr (by simpa using hbatch)

/-- What a submission that got to its end has written. -/
structure Submitted (serializePrediction : String → String → String → List String) (form : Form)
    (batch : Nat × Batch) (xs : List (Nat × OutputRow)) (log : LogRow) (s t : State) : Prop where
  found : selectOne (s.db.mturk_batch.select fun _ row => unpadded row.id_hash = unpadded form.batch) = .ok batch
  submission : log.submission_id = form.submissionId ∧ log.batch = batch.1 ∧ log.hit = form.hit
  fresh : ∀ old ∈ s.db.mturk_log, old.submission_id ≠ form.submissionId
  log : t.db.mturk_log = s.db.mturk_log ++ [log]
  batches : (t.db.mturk_batch.get? batch.1).isSome
  made : List.Forall₂ (Made serializePrediction form (s.columns.language batch.1) t) (paraphrases form.toSubmission) xs
  new : ∀ x ∈ xs, t.db.mturk_output x.1 = some x.2
  old : ∀ id row, s.db.mturk_output id = some row → t.db.mturk_output id = some row
  only : ∀ id row, t.db.mturk_output id = some row → s.db.mturk_output id = some row ∨ (id, row) ∈ xs
  kept : ∀ id, (s.db.mturk_batch.get? id).isSome → (t.db.mturk_batch.get? id).isSome
  input : t.db.mturk_input = s.db.mturk_input
  language : t.columns.language = s.columns.language
  thingtalk : t.columns.thingtalk = s.columns.thingtalk
  examples : ∀ id row, s.db.mturk_output id = some row →
    t.columns.utterance id = s.columns.utterance id ∧ t.columns.target_code id = s.columns.target_code id

variable (serializePrediction s) in
theorem submit_done (form : Form) : Triple (· = s) (submit serializePrediction form) fun _ t =>
    ∃ batch xs log, Submitted serializePrediction form batch xs log s t := by
  unfold submit
  have hread : Triple (· = s.db) (getBatchDetails form.batch) fun batch t => t = s.db ∧
      selectOne (s.db.mturk_batch.select fun _ row => unpadded row.id_hash = unpadded form.batch) = .ok batch := by
    apply triple_read
    intro db batch hdb hb
    subst hdb
    exact ⟨rfl, hb⟩
  refine Triple.bind (lift_done hread) fun batch => Triple.each fun s₀ h₀ => ?_
  obtain ⟨⟨hdb, hfound⟩, hcols⟩ := h₀
  obtain rfl : s₀ = s := by
    cases s₀
    cases s
    cases hdb
    cases hcols
    rfl
  refine Triple.bind (lift_done (openBatch_done batch)) fun _ => Triple.each fun s₁ h₁ => ?_
  have he₁ : Extends s₀ s₁ := h₁.1.extends h₁.2
  refine Triple.bind (languageOf_done batch.1) fun language => Triple.each fun s₂ h₂ => ?_
  obtain ⟨rfl, rfl⟩ := h₂
  refine Triple.bind (createExamples_done form batch.1 _ _) fun xs => Triple.each fun s₃ h₃ => ?_
  obtain ⟨he₃, hmade, hnew⟩ := h₃
  have he := he₁.trans he₃
  refine Triple.bind (lift_done (logSubmission_done _)) fun _ => Triple.each fun s₄ h₄ => ?_
  obtain ⟨⟨worker, hlog, hfresh, hbatch⟩, hcols₄⟩ := h₄
  refine (lift_done (insertSubmission_done xs)).post fun _ t ht => ?_
  obtain ⟨hins, hcolst⟩ := ht
  have hcols' : t.columns = s₃.columns := hcolst.trans hcols₄
  refine ⟨batch, xs, ⟨form.submissionId, batch.1, form.hit, worker⟩, hfound, ⟨rfl, rfl, rfl⟩, ?_, ?_, ?_, ?_, ?_, ?_, ?_,
    ?_, ?_, ?_, ?_, ?_⟩
  · rw [← he.log]
    exact hfresh
  · rw [hins.log, hlog, ← he.log]
  · rw [hins.batch, hlog]
    exact hbatch
  · rw [← he₁.language]
    refine hmade.imp fun ij x h => ⟨h.row, ?_, ?_⟩
    · rw [hcols']
      exact h.utterance
    · rw [hcols']
      exact h.code
  · exact fun x hx => (hins.new x hx).1
  · intro id row hrow
    apply hins.old
    rw [hlog]
    show s₃.db.mturk_output id = some row
    rw [he.output, hrow]
  · intro id row hrow
    have honly := hins.only id row hrow
    rw [hlog] at honly
    rw [← he.output]
    exact honly
  · intro id hid
    rw [hins.batch, hlog]
    exact he.batch id hid
  · rw [hins.input, hlog]
    exact he.input
  · rw [hcols', he.language]
  · rw [hcols', he.thingtalk]
  · intro id row hrow
    have hsome : (s₀.db.example_utterances.get? id).isSome := s₀.db.output_example id (by rw [hrow]; rfl)
    obtain ⟨example_, hex⟩ := Option.isSome_iff_exists.mp hsome
    rw [hcols']
    exact he.examples id (Table.lt_next hex)

/-! ## What a new batch does -/

/-- Batches and programs came in; the rest is as it was. -/
structure Uploaded (s t : State) : Prop where
  log : t.db.mturk_log = s.db.mturk_log
  output : t.db.mturk_output = s.db.mturk_output
  utterance : t.columns.utterance = s.columns.utterance
  target_code : t.columns.target_code = s.columns.target_code
  batch : ∀ id, (s.db.mturk_batch.get? id).isSome →
    (t.db.mturk_batch.get? id).isSome ∧ t.columns.language id = s.columns.language id
  input : ∀ id row, s.db.mturk_input.get? id = some row →
    t.db.mturk_input.get? id = some row ∧ t.columns.thingtalk id = s.columns.thingtalk id

theorem Uploaded.refl (s : State) : Uploaded s s :=
  ⟨rfl, rfl, rfl, rfl, fun _ h => ⟨h, rfl⟩, fun _ _ h => ⟨h, rfl⟩⟩

theorem Uploaded.trans (h : Uploaded s t) (h' : Uploaded t u) : Uploaded s u where
  log := h'.log.trans h.log
  output := h'.output.trans h.output
  utterance := h'.utterance.trans h.utterance
  target_code := h'.target_code.trans h.target_code
  batch id hid := by
    obtain ⟨ht, hl⟩ := h.batch id hid
    obtain ⟨hu, hl'⟩ := h'.batch id ht
    exact ⟨hu, hl'.trans hl⟩
  input id row hrow := by
    obtain ⟨ht, hl⟩ := h.input id row hrow
    obtain ⟨hu, hl'⟩ := h'.input id row ht
    exact ⟨hu, hl'.trans hl⟩

theorem insertBatch_uploaded (upload : Upload) (s : State) : Uploaded s (insertBatch upload s) := by
  refine { Uploaded.refl s with batch := fun id hid => ?_ }
  obtain ⟨row, hrow⟩ := Option.isSome_iff_exists.mp hid
  have hne : id ≠ s.db.mturk_batch.next := Nat.ne_of_lt (Table.lt_next hrow)
  refine ⟨?_, Function.update_of_ne hne ..⟩
  show ((s.db.mturk_batch.insert upload.batch).get? id).isSome
  rw [Table.get?_insert, if_neg hne]
  exact hid

theorem insertInput_uploaded (batchId : Nat) (s : State) (row : Int × String) :
    Uploaded s (insertInput batchId s row) := by
  refine { Uploaded.refl s with input := fun id old hold => ?_ }
  have hne : id ≠ s.db.mturk_input.next := Nat.ne_of_lt (Table.lt_next hold)
  refine ⟨?_, Function.update_of_ne hne ..⟩
  show (s.db.mturk_input.insert _).get? id = some old
  rw [Table.get?_insert, if_neg hne]
  exact hold

theorem foldl_uploaded (batchId : Nat) (rows : List (Int × String)) (s : State) :
    Uploaded s (rows.foldl (insertInput batchId) s) := by
  induction rows generalizing s with
  | nil => exact .refl s
  | cons row rows ih => exact (insertInput_uploaded batchId s row).trans (ih _)

theorem insertInputs_done (batchId : Nat) (inputs : List (List (Int × String))) :
    Triple (Uploaded s) (insertInputs batchId inputs) fun _ t => Uploaded s t := by
  induction inputs with
  | nil => exact Triple.pure fun _ h => h
  | cons rows inputs ih =>
    refine Triple.bind (Triple.statement fun s' a t hs ht => ?_) fun _ => ih
    cases ht
    exact hs.trans (foldl_uploaded batchId rows s')

theorem createMTurkBatch_done (upload : Upload) : Triple (· = s) (createMTurkBatch upload) fun _ t => Uploaded s t := by
  refine Triple.bind (Triple.statement fun s' a t hs ht => ?_) fun batchId => insertInputs_done batchId upload.inputs
  cases ht
  subst hs
  exact insertBatch_uploaded upload s'

/-! ## Runs -/

/-- The foreign keys of `mturk_output` and `mturk_log`. -/
structure Keys (s : State) : Prop where
  logged : ∀ id row, s.db.mturk_output id = some row → ∃ log ∈ s.db.mturk_log, log.submission_id = row.submission_id
  batches : ∀ log ∈ s.db.mturk_log, (s.db.mturk_batch.get? log.batch).isSome

section Submitted

/-- Each member of the second list goes with one of the first. -/
theorem forall₂_mem {R : α → β → Prop} {l : List α} {l' : List β} (h : List.Forall₂ R l l') {b : β} (hb : b ∈ l') :
    ∃ a ∈ l, R a b := by
  induction h with
  | nil => exact (List.not_mem_nil hb).elim
  | cons hab _ ih =>
    rcases List.mem_cons.mp hb with rfl | hb
    · exact ⟨_, List.mem_cons_self .., hab⟩
    · obtain ⟨a, ha, hr⟩ := ih hb
      exact ⟨a, List.mem_cons_of_mem _ ha, hr⟩

variable {form : Form} {batch : Nat × Batch} {xs : List (Nat × OutputRow)} {log : LogRow}

theorem Submitted.keys (h : Submitted serializePrediction form batch xs log s t) (hk : Keys s) : Keys t := by
  refine ⟨fun id row hrow => ?_, fun l hl => ?_⟩
  · rw [h.log]
    rcases h.only id row hrow with hrow | hx
    · obtain ⟨l, hl, hid⟩ := hk.logged id row hrow
      exact ⟨l, List.mem_append_left _ hl, hid⟩
    · obtain ⟨ij, -, hmade⟩ := forall₂_mem h.made hx
      refine ⟨log, List.mem_append_right _ (List.mem_singleton.mpr rfl), ?_⟩
      rw [show row = _ from hmade.row]
      exact h.submission.1
  · rw [h.log] at hl
    rcases List.mem_append.mp hl with hl | hl
    · exact h.kept _ (hk.batches l hl)
    · obtain rfl := List.mem_singleton.mp hl
      rw [h.submission.2.1]
      exact h.batches

/-- What a submission leaves belongs exactly if the form names what its HIT has. -/
theorem Submitted.belongs_iff (h : Submitted serializePrediction form batch xs log s t) (hk : Keys s)
    (hb : Belongs serializePrediction s) : Belongs serializePrediction t ↔ Shown serializePrediction s form := by
  have hlog : log ∈ t.db.mturk_log := by
    rw [h.log]
    exact List.mem_append_right _ (List.mem_singleton.mpr rfl)
  obtain ⟨hid, hbatch, hhit⟩ := h.submission
  apply Iff.intro
  · intro ht batch' hfound ij hij
    cases h.found.symm.trans hfound
    obtain ⟨x, hx, hmade⟩ := forall₂_mem (R := fun x ij => Made serializePrediction form _ t ij x) h.made.flip hij
    have hsub : log.submission_id = x.2.submission_id := by rw [hid, hmade.row]
    obtain ⟨input, hin, hib, hih, hcode⟩ := ht x.1 x.2 log (h.new x hx) hlog hsub
    rw [h.input, hmade.row] at hin
    rw [hmade.code, hmade.utterance, hmade.row, h.language, h.thingtalk, hbatch] at hcode
    exact ⟨input, hin, hib.trans hbatch, hih.trans hhit, hcode⟩
  · intro hshown id row l hrow hl hsub
    rw [h.log] at hl
    rcases h.only id row hrow with hold | hx
    · rcases List.mem_append.mp hl with hl | hl
      · obtain ⟨input, hin, hib, hih, hcode⟩ := hb id row l hold hl hsub
        obtain ⟨hutt, htc⟩ := h.examples id row hold
        refine ⟨input, by rw [h.input, hin], hib, hih, ?_⟩
        rw [h.language, h.thingtalk, hutt, htc, hcode]
      · -- the row is of a submission that was logged before
        obtain rfl := List.mem_singleton.mp hl
        obtain ⟨l', hl', hid'⟩ := hk.logged id row hold
        exact absurd (hid'.trans (hsub.symm.trans hid)) (h.fresh l' hl')
    · obtain ⟨ij, hij, hmade⟩ := forall₂_mem h.made hx
      have hrowid : row = ⟨form.submissionId, form.program_id ij.1, 3, 0, 0⟩ := hmade.row
      subst hrowid
      rcases List.mem_append.mp hl with hl | hl
      · exact absurd hsub (h.fresh l hl)
      · obtain rfl := List.mem_singleton.mp hl
        obtain ⟨input, hin, hib, hih, hcode⟩ := hshown batch h.found ij hij
        refine ⟨input, by rw [h.input]; exact hin, hib.trans hbatch.symm, hih.trans hhit.symm, ?_⟩
        have hutt : t.columns.utterance id = form.paraphrase ij.1 ij.2 := hmade.utterance
        have htc : t.columns.target_code id = _ := hmade.code
        rw [htc, hutt, h.language, h.thingtalk, hbatch, hcode]

end Submitted

theorem Uploaded.belongs (h : Uploaded s t) (hk : Keys s) (hb : Belongs serializePrediction s) :
    Belongs serializePrediction t := by
  intro id row l hrow hl hsub
  rw [h.output] at hrow
  rw [h.log] at hl
  obtain ⟨input, hin, hib, hih, hcode⟩ := hb id row l hrow hl hsub
  obtain ⟨hin', hcol⟩ := h.input _ input hin
  refine ⟨input, hin', hib, hih, ?_⟩
  rw [h.target_code, h.utterance, hcol, (h.batch _ (hk.batches l hl)).2, hcode]

theorem Uploaded.keys (h : Uploaded s t) (hk : Keys s) : Keys t := by
  refine ⟨fun id row hrow => ?_, fun l hl => ?_⟩
  · rw [h.output] at hrow
    rw [h.log]
    exact hk.logged id row hrow
  · rw [h.log] at hl
    exact (h.batch _ (hk.batches l hl)).1

theorem step_inv {e : Event} (hk : Keys s) (hb : Belongs serializePrediction s) (hc : Careful serializePrediction s e)
    (hs : step serializePrediction s e = some t) : Keys t ∧ Belongs serializePrediction t := by
  cases e with
  | createBatch upload fates =>
    cases hs
    rcases transaction_spec (createMTurkBatch_done (s := s) upload) fates with ⟨ht, -⟩ | ⟨-, hup, -⟩
    · rw [ht]
      exact ⟨hk, hb⟩
    · exact ⟨hup.keys hk, hup.belongs hk hb⟩
  | submit form fates =>
    cases hs
    obtain ⟨ht, -⟩ | ⟨-, ⟨batch, xs, log, hsub⟩, -⟩ :=
      transaction_spec (submit_done serializePrediction s form) fates
    · rw [ht]
      exact ⟨hk, hb⟩
    · exact ⟨hsub.keys hk, (hsub.belongs_iff hk hb).mpr hc⟩

theorem reach_inv (h : Reach (system serializePrediction) (Careful serializePrediction) s) :
    Keys s ∧ Belongs serializePrediction s := by
  apply h.inv
  · intro s0 h0
    have hnone : ∀ id row, s0.db.mturk_output id ≠ some row := fun id row hrow => by rw [h0.2 id] at hrow; cases hrow
    refine ⟨⟨fun id row hrow => absurd hrow (hnone id row), ?_⟩, fun id row log hrow => absurd hrow (hnone id row)⟩
    rw [h0.1]
    exact fun _ hl => (List.not_mem_nil hl).elim
  · intro s e t hi hc hs
    exact step_inv hi.1 hi.2 hc hs

/-- In a run whose submissions all name what their HIT has, every paraphrase belongs to the
    HIT it is logged for; a submission that is accepted next keeps this exactly if it names
    what its HIT has. -/
theorem belongs_run (h : Reach (system serializePrediction) (Careful serializePrediction) s) :
    Belongs serializePrediction s ∧ ∀ form fates t,
      transaction (submit serializePrediction form) s fates = (t, .ok ()) →
      (Belongs serializePrediction t ↔ Shown serializePrediction s form) := by
  obtain ⟨hk, hb⟩ := reach_inv h
  refine ⟨hb, fun form fates t ht => ?_⟩
  obtain ⟨-, err, he⟩ | ⟨-, ⟨batch, xs, log, hsub⟩, -⟩ :=
    transaction_spec (submit_done serializePrediction s form) fates
  · rw [ht] at he
    cases he
  · rw [ht] at hsub
    exact hsub.belongs_iff hk hb

/-! ## Two programs -/

def tokens (_ _ thingtalk : String) : List String := [thingtalk]

/-- A batch of two HITs with a program each. -/
def twoPrograms : State where
  db := { Batches.oneBatch with mturk_input := (Table.empty.insert ⟨1, 0⟩).insert ⟨1, 1⟩ }
  columns := ⟨fun _ => "en", fun id => if id = 1 then "first" else "second", fun _ => "", fun _ => ""⟩

/-- A submission for HIT 0 with one paraphrase. -/
def form (program_id : Nat) (thingtalk : String) : Form where
  submissionId := "s0"
  batch := "h1"
  hit := 0
  worker := "w0"
  program_id _ := program_id
  paraphrase i j := if i = 1 ∧ j = 1 then "hello" else "No idea."
  checks _ _ := .ok ()
  thingtalk _ := thingtalk

/-- A submission for HIT 0 names the program of HIT 1, with the code of neither. -/
theorem foreign_program : ∃ s, run (system tokens) twoPrograms [.submit (form 2 "other") []] = some s ∧
    s.db.mturk_output 1 = some ⟨"s0", 2, 3, 0, 0⟩ ∧ s.db.mturk_log = [⟨"s0", 1, 0, "w0"⟩] ∧
    s.db.mturk_input.get? 2 = some ⟨1, 1⟩ ∧ s.columns.target_code 1 = "other" ∧ ¬ Belongs tokens s := by
  have hrun : ((run (system tokens) twoPrograms [.submit (form 2 "other") []]).map fun s =>
      (s.db.mturk_output 1, s.db.mturk_log, s.db.mturk_input.get? 2, s.columns.target_code 1)) =
      some (some ⟨"s0", 2, 3, 0, 0⟩, [⟨"s0", 1, 0, "w0"⟩], some ⟨1, 1⟩, "other") := by
    rfl
  obtain ⟨s, hs, heq⟩ := Option.map_eq_some_iff.mp hrun
  simp only [Prod.mk.injEq] at heq
  obtain ⟨hout, hlog, hin, hcode⟩ := heq
  refine ⟨s, hs, hout, hlog, hin, hcode, fun hb => ?_⟩
  obtain ⟨input, hinput, -, hhit, -⟩ := hb 1 _ ⟨"s0", 1, 0, "w0"⟩ hout (by rw [hlog]; exact List.mem_singleton.mpr rfl) rfl
  rw [hin] at hinput
  cases hinput
  cases hhit

theorem belongs_run_first : ∃ s, run (system tokens) twoPrograms [.submit (form 1 "first") []] = some s ∧
    s.db.mturk_output 1 = some ⟨"s0", 1, 3, 0, 0⟩ ∧ Belongs tokens s := by
  have hrun : ((run (system tokens) twoPrograms [.submit (form 1 "first") []]).map fun s => s.db.mturk_output 1) =
      some (some ⟨"s0", 1, 3, 0, 0⟩) := by
    rfl
  obtain ⟨s, hs, hout⟩ := Option.map_eq_some_iff.mp hrun
  have hshown : Shown tokens twoPrograms (form 1 "first") := by
    intro batch hfound ij hij
    have hbatch : batch = (1, ⟨"h1", 1, 1, .created⟩) := by
      have hone : selectOne (twoPrograms.db.mturk_batch.select fun _ row => unpadded row.id_hash = unpadded "h1") =
          .ok (1, ⟨"h1", 1, 1, .created⟩) := rfl
      exact Except.ok.inj (hfound.symm.trans hone)
    subst hbatch
    have hin : twoPrograms.db.mturk_input.get? 1 = some ⟨1, 0⟩ := rfl
    exact ⟨⟨1, 0⟩, hin, rfl, rfl, rfl⟩
  have hreach : Reach (system tokens) (Careful tokens) s := by
    refine .step (.submit (form 1 "first") []) (.init (s := twoPrograms) ⟨rfl, fun _ => rfl⟩) hshown ?_
    simpa [run] using hs
  exact ⟨s, hs, hout, (belongs_run hreach).1⟩

end GenieCloud.Mturk.Programs
