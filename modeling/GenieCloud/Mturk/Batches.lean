/-
  GenieCloud.Mturk.Batches — the requests on a batch: the submissions of `routes/mturk.ts`,
  and the start of validation and the closing of `util/mturk.ts`.

  Each is one serializable transaction, so a run is a list of them, each with the fates of
  its statements. The toolkit is a parameter of a request: whether it takes a
  paraphrase, and the sentences it puts into the HITs that validate a batch.

  `validate_done` says what a validation that got to its end has written; the other
  `_done` lemmas say the same of the other requests.
-/

import GenieCloud.Lib.Result
import GenieCloud.Lib.Runs
import GenieCloud.Mturk.Statements
import GenieCloud.Thingpedia.Dataset

namespace GenieCloud.Mturk.Batches

open GenieCloud.Lib GenieCloud.Lib.Transaction GenieCloud.Lib.Runs GenieCloud.Mturk.Statements

/-! ## Paraphrases -/

/-- The body of `POST /submit`; an id that names no program is one that is not there. -/
structure Submission where
  submissionId : String
  batch : String
  hit : Int
  worker : String
  program_id : Nat → Nat
  paraphrase : Nat → Nat → String
  checks : Nat → Nat → Except String Unit

/-- `paraphrase.toLowerCase().replace(/\./g, '').trim() === 'no idea'` -/
def noIdea (paraphrase : String) : Bool :=
  Thingpedia.trim ((paraphrase.toList.map Char.toLower).filter (· ≠ '.')) = "no idea".toList

def paraphrases (body : Submission) : List (Nat × Nat) :=
  ([1, 2, 3, 4].flatMap fun i => [(i, 1), (i, 2)]).filter fun ij => !noIdea (body.paraphrase ij.1 ij.2)

/-- Without the training flag until validation. -/
def autoValidateParaphrase (batchId : Nat) (checked : Except String Unit) : M Nat :=
  match checked with
  | .error message => fail (.badRequest message)
  | .ok () => createExample ⟨"turking" ++ toString batchId, ∅⟩

def createExamples (body : Submission) (batchId : Nat) : List (Nat × Nat) → M (List (Nat × OutputRow))
  | [] => pure []
  | (i, j) :: paraphrases => do
    let id ← autoValidateParaphrase batchId (body.checks i j)
    let submissions ← createExamples body batchId paraphrases
    return (id, ⟨body.submissionId, body.program_id i, 3, 0, 0⟩) :: submissions

def openBatch (batch : Nat × Batch) : M Unit :=
  match batch.2.status with
  | .created => updateBatch batch.1 .paraphrasing
  | .paraphrasing => pure ()
  | _ => fail (.forbidden "The HIT you're trying to submit was already closed.")

def submit (body : Submission) : M Unit := do
  let batch ← getBatchDetails body.batch
  openBatch batch
  let submissions ← createExamples body batch.1 (paraphrases body)
  logSubmission ⟨body.submissionId, batch.1, body.hit, body.worker⟩
  insertSubmission submissions

/-! ## Votes -/

/-- The body of `POST /validate`. -/
structure Validation where
  submissionId : String
  batch : String
  hit : Int
  worker : String
  field : String → Option String

def answerOf (body : Validation) (id : Nat) : Except Error Answer :=
  if body.field ("validation-" ++ toString id) = some "same" then .ok .same
  else if body.field ("validation-" ++ toString id) = some "different" then .ok .different
  else .error (.badRequest ("Missing or invalid parameter validation-" ++ toString id))

structure Judged where
  errors : Nat
  validationRows : List ValidationOutputRow
  good : List (Option Nat)
  bad : List (Option Nat)

def Judged.add (judged : Judged) (submissionId : String) (hit : Nat × ValidationInputRow) : Answer → Judged
  | .same =>
    match hit.2.type with
    | .fakeSame => judged
    | .fakeDifferent => { judged with errors := judged.errors + 1 }
    | .real => { judged with
        validationRows := ⟨hit.1, submissionId, .same⟩ :: judged.validationRows
        good := hit.2.example_id :: judged.good }
  | .different =>
    match hit.2.type with
    | .fakeSame => { judged with errors := judged.errors + 1 }
    | .fakeDifferent => judged
    | .real => { judged with
        validationRows := ⟨hit.1, submissionId, .different⟩ :: judged.validationRows
        bad := hit.2.example_id :: judged.bad }

/-- The loop over the sentences of the HIT; the first one without an answer is an error. -/
def judge (body : Validation) : List (Nat × ValidationInputRow) → Except Error Judged
  | [] => .ok ⟨0, [], [], []⟩
  | hit :: hits =>
    match answerOf body hit.1 with
    | .error err => .error err
    | .ok answer => (judge body hits).map fun judged => judged.add body.submissionId hit answer

/-- Double submissions do nothing. -/
def validate (body : Validation) : M String := do
  let batch ← getBatchDetails body.batch
  let existing ← getExistingValidationSubmission batch.1 body.hit body.worker
  match existing with
  | submissionId :: _ => pure submissionId
  | [] =>
    if batch.2.status ≠ .validating then
      fail (.forbidden "The HIT you're trying to submit is not open yet, or was already closed.")
    else do
      let hits ← getValidationHIT batch.1 body.hit
      match judge body hits with
      | .error err => fail err
      | .ok judged =>
        if judged.errors > 2 then fail (.badRequest "You have made too many mistakes. Please go back and try again.")
        else do
          logValidationSubmission ⟨body.submissionId, batch.1, body.hit, body.worker⟩
          insertValidationSubmission judged.validationRows
          markSentencesGood judged.good
          markSentencesBad judged.bad
          return body.submissionId

/-! ## Starting and closing -/

/-- The administrator names a batch by its id, a developer one of the organization by its
    hash. -/
inductive Ref where
  | admin (batchId : Nat)
  | developer (batchIdHash : String) (orgId : Option Nat)

def details : Ref → M (Nat × Batch)
  | .admin batchId => getBatchDetailsById batchId
  | .developer batchIdHash orgId => do
    let batch ← getBatchDetails batchIdHash
    if some batch.2.owner ≠ orgId then fail (.forbidden "You do not have permission to perform the requested operation.")
    else pure batch

/-- A sentence of a HIT: a check of the worker's attention, or a paraphrase. -/
inductive Paraphrase where
  | same
  | different
  | id (exampleId : Option Nat)

structure ValidationHIT where
  id : Nat → Nat
  paraphrase : Nat → Nat → Paraphrase

def validationRow (batch hitId syntheticId : Nat) : Paraphrase → ValidationInputRow
  | .same => ⟨batch, hitId, .fakeSame, syntheticId, none⟩
  | .different => ⟨batch, hitId, .fakeDifferent, syntheticId, none⟩
  | .id exampleId => ⟨batch, hitId, .real, syntheticId, exampleId⟩

def validationRows (batch targetSize hitId : Nat) (hit : ValidationHIT) : List ValidationInputRow :=
  (List.range 4).flatMap fun i => (List.range (targetSize + 2)).map fun j =>
    validationRow batch hitId (hit.id i) (hit.paraphrase i j)

/-- `ValidationHITInserter`, which counts the HITs. -/
def insertHITs (batch targetSize : Nat) : Nat → List ValidationHIT → M Unit
  | _, [] => pure ()
  | hitCount, hit :: hits => do
    createValidationHITs (validationRows batch targetSize hitCount hit)
    insertHITs batch targetSize (hitCount + 1) hits

def startValidation (batch : Nat × Batch) (hits : List ValidationHIT) : M Unit :=
  match batch.2.status with
  | .created => fail (.badRequest "Cannot start validation: no paraphrases have been submitted yet.")
  | .validating => pure ()
  | .complete => fail (.badRequest "Cannot start validation: the batch is already closed.")
  | .paraphrasing => do
    updateBatch batch.1 .validating
    let _ ← getBatch batch.1
    insertHITs batch.1 (2 * batch.2.submissions_per_hit) 0 hits

def noteApproved (batch : Nat) : M Unit := fun db fates => (.ok ((), { db with approved := batch :: db.approved }), fates)

def closeBatch (batch : Nat × Batch) (autoApprove : Bool) : M Unit := do
  updateBatch batch.1 .complete
  if autoApprove then do
    autoApproveUnvalidated batch.1
    noteApproved batch.1
  else pure ()

/-! ## Runs -/

inductive Request where
  | submit (body : Submission)
  | validate (body : Validation)
  | startValidation (ref : Ref) (hits : List ValidationHIT)
  | close (ref : Ref) (autoApprove : Bool)

def Request.body : Request → M Unit
  | .submit body => Batches.submit body
  | .validate body => do
    let _ ← Batches.validate body
    pure ()
  | .startValidation ref hits => do
    let batch ← details ref
    Batches.startValidation batch hits
  | .close ref autoApprove => do
    let batch ← details ref
    closeBatch batch autoApprove

/-- A request, with the fates of its statements, or an example that comes from somewhere
    else. -/
inductive Event where
  | request (request : Request) (fates : List Fate)
  | create (example_ : Example)

def step (db : Db) : Event → Option Db
  | .request request fates => some (transaction request.body db fates).1
  | .create example_ => some (insertExample db example_)

/-- Before the first submission. -/
structure Fresh (db : Db) : Prop where
  mturk_log : db.mturk_log = []
  mturk_output : ∀ id, db.mturk_output id = none
  mturk_validation_input : db.mturk_validation_input.rows = []
  mturk_validation_log : db.mturk_validation_log = []
  mturk_validation_output : db.mturk_validation_output = []
  approved : db.approved = []

def system : System Db Event where
  init := Fresh
  step := step

/-! ## What a request does -/

variable {s t u db : Db} {id : Nat} {row : OutputRow} {ex : Example}

/-- An example that was not there, or not flagged, with nothing counted yet. -/
structure Unjudged (s t : Db) (id : Nat) (row : OutputRow) : Prop where
  fresh : s.example_utterances.get? id = none
  counts : row.accept_count = 0 ∧ row.reject_count = 0
  target : 0 < row.target_count
  flags : ∃ ex, t.example_utterances.get? id = some ex ∧ .training ∉ ex.flags

/-- Examples and paraphrases came in. -/
structure Grown (s t : Db) : Prop where
  examples : ∀ id ex, s.example_utterances.get? id = some ex → t.example_utterances.get? id = some ex
  outputs : ∀ id row, t.mturk_output id = some row → s.mturk_output id = some row ∨ Unjudged s t id row
  inputs : t.mturk_validation_input = s.mturk_validation_input
  log : t.mturk_validation_log = s.mturk_validation_log
  answers : t.mturk_validation_output = s.mturk_validation_output
  approved : t.approved = s.approved

/-- Batches changed their status, and sentences to validate came in. -/
structure Asked (s t : Db) : Prop where
  examples : t.example_utterances = s.example_utterances
  outputs : t.mturk_output = s.mturk_output
  inputs : ∀ id row, s.mturk_validation_input.get? id = some row → t.mturk_validation_input.get? id = some row
  log : t.mturk_validation_log = s.mturk_validation_log
  answers : t.mturk_validation_output = s.mturk_validation_output
  approved : t.approved = s.approved

/-- The votes of a validation are in. -/
structure Voted (body : Validation) (s t : Db) : Prop where
  voted : ∃ batch judged log u,
    s.mturk_validation_log.filter (fun row => row.batch = batch && row.hit = body.hit &&
      unpadded row.worker = unpadded body.worker) = [] ∧
    judge body (hitRows s batch body.hit) = .ok judged ∧
    insertLog s s.mturk_validation_log ⟨body.submissionId, batch, body.hit, body.worker⟩ = .ok log ∧
    judged.validationRows.foldlM insertAnswer { s with mturk_validation_log := log } = .ok u ∧
    t = flagBad (countBad (flagGood (countGood u judged.good) judged.good) judged.bad) judged.bad

theorem Grown.refl (s : Db) : Grown s s where
  examples := fun _ _ h => h
  outputs := fun _ _ h => .inl h
  inputs := rfl
  log := rfl
  answers := rfl
  approved := rfl

theorem Asked.refl (s : Db) : Asked s s where
  examples := rfl
  outputs := rfl
  inputs := fun _ _ h => h
  log := rfl
  answers := rfl
  approved := rfl

theorem Asked.trans (h : Asked s t) (h' : Asked t u) : Asked s u where
  examples := h'.examples.trans h.examples
  outputs := h'.outputs.trans h.outputs
  inputs := fun id row hrow => h'.inputs id row (h.inputs id row hrow)
  log := h'.log.trans h.log
  answers := h'.answers.trans h.answers
  approved := h'.approved.trans h.approved

theorem get?_insertExample (h : s.example_utterances.get? id = some ex) (example_ : Example) :
    (insertExample s example_).example_utterances.get? id = some ex := by
  show (s.example_utterances.insert example_).get? id = some ex
  rw [Table.get?_insert, if_neg (Nat.ne_of_lt (Table.lt_next h))]
  exact h

theorem grown_insertExample (s : Db) (example_ : Example) : Grown s (insertExample s example_) where
  examples := fun _ _ h => get?_insertExample h example_
  outputs := fun _ _ h => .inl h
  inputs := rfl
  log := rfl
  answers := rfl
  approved := rfl

theorem Unjudged.later (h : Unjudged s t id row) (hg : Grown t u) : Unjudged s u id row := by
  obtain ⟨ex, hex, hflags⟩ := h.flags
  exact ⟨h.fresh, h.counts, h.target, ex, hg.examples id ex hex, hflags⟩

theorem Unjudged.earlier (h : Unjudged t u id row) (hg : Grown s t) : Unjudged s u id row := by
  refine ⟨?_, h.counts, h.target, h.flags⟩
  cases hs : s.example_utterances.get? id with
  | none => rfl
  | some ex =>
    have ht := hg.examples id ex hs
    rw [h.fresh] at ht
    cases ht

theorem Grown.trans (h : Grown s t) (h' : Grown t u) : Grown s u where
  examples := fun id ex hex => h'.examples id ex (h.examples id ex hex)
  outputs := by
    intro id row hrow
    rcases h'.outputs id row hrow with hrow | hnew
    · rcases h.outputs id row hrow with hrow | hnew
      · exact .inl hrow
      · exact .inr (hnew.later h')
    · exact .inr (hnew.earlier h)
  inputs := h'.inputs.trans h.inputs
  log := h'.log.trans h.log
  answers := h'.answers.trans h.answers
  approved := h'.approved.trans h.approved

/-! ### Submissions -/

theorem updateBatch_done (batchId : Nat) (status : BatchStatus) :
    Triple (· = s) (updateBatch batchId status) fun _ t => Grown s t ∧ Asked s t := by
  apply triple_write
  intro db t hdb ht
  cases ht
  subst hdb
  exact ⟨{ Grown.refl db with outputs := fun _ _ h => .inl h }, { Asked.refl db with }⟩

theorem autoValidateParaphrase_done (batchId : Nat) (checked : Except String Unit) :
    Triple (· = s) (autoValidateParaphrase batchId checked) fun id t => Grown s t ∧
      ∀ submissionId programId, Unjudged s t id ⟨submissionId, programId, 3, 0, 0⟩ := by
  cases checked with
  | error message => exact Triple.fail
  | ok =>
    unfold autoValidateParaphrase createExample
    refine Triple.statement ?_
    intro db id t hdb ht
    cases ht
    subst hdb
    refine ⟨grown_insertExample _ _, fun _ _ => ⟨Table.get?_next _, ⟨rfl, rfl⟩, Nat.succ_pos 2, ?_⟩⟩
    refine ⟨⟨"turking" ++ toString batchId, ∅⟩, ?_, Finset.notMem_empty _⟩
    show (Table.insert _ _).get? _ = _
    rw [Table.get?_insert, if_pos rfl]

theorem createExamples_done (body : Submission) (batchId : Nat) (paraphrases : List (Nat × Nat)) :
    Triple (· = s) (createExamples body batchId paraphrases) fun submissions t => Grown s t ∧
      ∀ x ∈ submissions, Unjudged s t x.1 x.2 := by
  induction paraphrases generalizing s with
  | nil =>
    apply Triple.pure
    intro db hdb
    subst hdb
    exact ⟨.refl db, fun _ h => (List.not_mem_nil h).elim⟩
  | cons ij paraphrases ih =>
    refine Triple.bind (autoValidateParaphrase_done batchId _) fun id => Triple.each fun t ht => ?_
    refine Triple.bind ih fun submissions => Triple.pure ?_
    intro u hu
    refine ⟨ht.1.trans hu.1, ?_⟩
    intro x hx
    rcases List.mem_cons.mp hx with rfl | hx
    · exact (ht.2 _ _).later hu.1
    · exact (hu.2 x hx).earlier ht.1

theorem logSubmission_done (row : LogRow) : Triple (· = s) (logSubmission row) fun _ t => Grown s t := by
  apply triple_write
  intro db t hdb ht
  subst hdb
  cases hlog : insertLog db db.mturk_log row with
  | error err => simp [hlog, Except.map] at ht
  | ok log =>
    simp only [hlog, Except.map, Except.ok.injEq] at ht
    subst ht
    exact { Grown.refl db with outputs := fun _ _ h => .inl h }

theorem insertOutput_eq {submission : Nat × OutputRow} (h : insertOutput t submission = .ok u) :
    ∃ hkey, u = { t with
      mturk_output := Function.update t.mturk_output submission.1 (some submission.2)
      output_example := hkey } := by
  unfold insertOutput at h
  split at h
  · split at h
    · cases h
    · split at h
      · cases h
        exact ⟨_, rfl⟩
      · cases h
  · cases h

theorem grown_insertOutput {submission : Nat × OutputRow} (h : insertOutput t submission = .ok u) (hg : Grown s t)
    (hnew : Unjudged s t submission.1 submission.2) : Grown s u := by
  obtain ⟨hkey, rfl⟩ := insertOutput_eq h
  have hold {id : Nat} {row : OutputRow} (hu : Unjudged s t id row) :
      Unjudged s { t with
        mturk_output := Function.update t.mturk_output submission.1 (some submission.2)
        output_example := hkey } id row := ⟨hu.fresh, hu.counts, hu.target, hu.flags⟩
  refine { hg with outputs := ?_ }
  intro id row hrow
  have hrow : Function.update t.mturk_output submission.1 (some submission.2) id = some row := hrow
  by_cases hid : id = submission.1
  · subst hid
    rw [Function.update_self] at hrow
    cases hrow
    exact .inr (hold hnew)
  · rw [Function.update_of_ne hid] at hrow
    exact (hg.outputs id row hrow).imp_right hold

theorem insertSubmission_done {submissions : List (Nat × OutputRow)} (h : ∀ x ∈ submissions, Unjudged s t x.1 x.2)
    (hg : Grown s t) : Triple (· = t) (insertSubmission submissions) fun _ u => Grown s u := by
  unfold insertSubmission
  refine Triple.ite (fun _ => ?_) (fun _ => ?_)
  · apply Triple.pure
    intro db hdb
    subst hdb
    exact hg
  · apply triple_write
    intro db u hdb hu
    subst hdb
    have hend : Grown s u ∧ ∀ x ∈ submissions, Unjudged s u x.1 x.2 := by
      refine Result.foldlM_ok (P := fun db => Grown s db ∧ ∀ x ∈ submissions, Unjudged s db x.1 x.2) ⟨hg, h⟩ ?_ hu
      intro db x db' hx ⟨hg, hnew⟩ hins
      refine ⟨grown_insertOutput hins hg (hnew x hx), ?_⟩
      obtain ⟨hkey, rfl⟩ := insertOutput_eq hins
      intro y hy
      exact ⟨(hnew y hy).fresh, (hnew y hy).counts, (hnew y hy).target, (hnew y hy).flags⟩
    exact hend.1

theorem submit_done (body : Submission) : Triple (· = s) (submit body) fun _ t => Grown s t := by
  unfold submit
  have hread : Triple (· = s) (getBatchDetails body.batch) fun _ t => t = s := triple_read fun _ _ h _ => h
  refine Triple.bind hread fun batch => ?_
  have hopen : Triple (· = s) (openBatch batch) fun _ t => Grown s t := by
    unfold openBatch
    split
    · exact (updateBatch_done _ _).post fun _ _ h => h.1
    · apply Triple.pure
      intro db hdb
      subst hdb
      exact .refl db
    · exact Triple.fail
  refine Triple.bind hopen fun _ => Triple.each fun t ht => ?_
  refine Triple.bind (createExamples_done body batch.1 _) fun submissions => Triple.each fun u hu => ?_
  refine Triple.bind (logSubmission_done _) fun _ => Triple.each fun v hv => ?_
  have hnew : ∀ x ∈ submissions, Unjudged s v x.1 x.2 := fun x hx => ((hu.2 x hx).earlier ht).later hv
  exact insertSubmission_done hnew ((ht.trans hu.1).trans hv)

/-! ### Starting and closing -/

theorem details_done (ref : Ref) : Triple (· = s) (details ref) fun _ t => t = s := by
  cases ref with
  | admin batchId => exact triple_read fun _ _ h _ => h
  | developer batchIdHash orgId =>
    have hread : Triple (· = s) (getBatchDetails batchIdHash) fun _ t => t = s := triple_read fun _ _ h _ => h
    refine Triple.bind hread fun batch => ?_
    exact Triple.ite (fun _ => Triple.fail) fun _ => Triple.pure fun _ h => h

theorem asked_insertValidationInput {row : ValidationInputRow} (h : insertValidationInput t row = .ok u) (ha : Asked s t) :
    Asked s u := by
  unfold insertValidationInput at h
  split at h
  · split at h
    · cases h
      refine { ha with inputs := ?_ }
      intro id row hrow
      have ht := ha.inputs id row hrow
      show (t.mturk_validation_input.insert _).get? id = some row
      rw [Table.get?_insert, if_neg (Nat.ne_of_lt (Table.lt_next ht))]
      exact ht
    · cases h
  · cases h

theorem insertHITs_done (batch targetSize hitCount : Nat) (hits : List ValidationHIT) :
    Triple (Asked s) (insertHITs batch targetSize hitCount hits) fun _ t => Asked s t := by
  induction hits generalizing hitCount with
  | nil => exact Triple.pure fun _ h => h
  | cons hit hits ih =>
    have hcreate : Triple (Asked s) (createValidationHITs (validationRows batch targetSize hitCount hit))
        fun _ t => Asked s t := by
      apply triple_write
      intro db t hdb ht
      exact Result.foldlM_ok hdb (fun _ _ _ _ h hins => asked_insertValidationInput hins h) ht
    exact Triple.bind hcreate fun _ => ih (hitCount + 1)

theorem startValidation_done (batch : Nat × Batch) (hits : List ValidationHIT) :
    Triple (· = s) (startValidation batch hits) fun _ t => Asked s t := by
  unfold startValidation
  split
  · exact Triple.fail
  · apply Triple.pure
    intro db hdb
    subst hdb
    exact .refl db
  · exact Triple.fail
  · refine Triple.bind (updateBatch_done batch.1 .validating) fun _ => ?_
    have hget : Triple (fun t => Grown s t ∧ Asked s t) (getBatch batch.1) fun _ t => Asked s t :=
      Triple.query fun _ h => h.2
    refine Triple.bind hget fun _ => ?_
    exact insertHITs_done batch.1 _ 0 hits

/-- An automatic approval never gets to its end. -/
theorem closeBatch_done (batch : Nat × Batch) (autoApprove : Bool) :
    Triple (· = s) (closeBatch batch autoApprove) fun _ t => autoApprove = false ∧ Asked s t := by
  refine Triple.bind (updateBatch_done batch.1 .complete) fun _ => ?_
  cases autoApprove with
  | true =>
    have hrefused : Triple (fun t => Grown s t ∧ Asked s t) (autoApproveUnvalidated batch.1) fun _ _ => False :=
      triple_refused autoApprove_prepare
    exact Triple.bind hrefused fun _ _ _ _ _ _ h _ => h.elim
  | false => exact Triple.pure fun _ h => ⟨rfl, h.2⟩

/-! ### Validations -/

theorem insertAnswer_eq {row : ValidationOutputRow} (h : insertAnswer t row = .ok u) :
    ∃ hkey, u = { t with mturk_validation_output := t.mturk_validation_output ++ [row], answer_input := hkey } := by
  unfold insertAnswer at h
  split at h
  · split at h
    · cases h
    · split at h
      · cases h
        exact ⟨_, rfl⟩
      · cases h
  · cases h

theorem insertAnswers_eq {rows : List ValidationOutputRow} (h : rows.foldlM insertAnswer t = .ok u) :
    ∃ hkey, u = { t with mturk_validation_output := t.mturk_validation_output ++ rows, answer_input := hkey } := by
  induction rows generalizing t with
  | nil =>
    obtain rfl : t = u := Except.ok.inj h
    simp only [List.append_nil]
    exact ⟨t.answer_input, trivial⟩
  | cons row rows ih =>
    rw [List.foldlM_cons] at h
    obtain ⟨v, hv, h⟩ := Result.bind_ok h
    obtain ⟨hkey, rfl⟩ := insertAnswer_eq hv
    obtain ⟨hkey', rfl⟩ := ih h
    simp only [List.append_assoc, List.singleton_append] at hkey' ⊢
    exact ⟨hkey', trivial⟩

theorem insertValidationSubmission_done (rows : List ValidationOutputRow) :
    Triple (· = s) (insertValidationSubmission rows) fun _ t => rows.foldlM insertAnswer s = .ok t := by
  unfold insertValidationSubmission
  refine Triple.ite (fun h => ?_) (fun _ => ?_)
  · subst h
    apply Triple.pure
    intro db hdb
    subst hdb
    rfl
  · apply triple_write
    intro db t hdb ht
    subst hdb
    exact ht

/-- The count and the flags of some examples; of none, nothing. -/
theorem mark_done {count flag : Db → List (Option Nat) → Db} {sql : Update} (exampleIds : List (Option Nat))
    (hcount : ∀ db, count db [] = db) (hflag : ∀ db, flag db [] = db) :
    Triple (· = s) (if exampleIds = [] then pure () else do
      write fun db => .ok (count db exampleIds)
      update sql (flag · exampleIds)) fun _ t => t = flag (count s exampleIds) exampleIds := by
  refine Triple.ite (fun h => ?_) (fun _ => ?_)
  · subst h
    apply Triple.pure
    intro db hdb
    rw [hdb, hcount, hflag]
  · have hwrite : Triple (· = s) (write fun db => .ok (count db exampleIds)) fun _ t => t = count s exampleIds := by
      apply triple_write
      intro db t hdb ht
      cases ht
      rw [hdb]
    refine Triple.bind hwrite fun _ => triple_update ?_
    intro db hdb
    rw [hdb]

theorem markSentencesGood_done (exampleIds : List (Option Nat)) : Triple (· = s) (markSentencesGood exampleIds)
    fun _ t => t = flagGood (countGood s exampleIds) exampleIds :=
  mark_done exampleIds (updateOutput_self fun _ _ => rfl) fun db => updateFlags_self (fun _ => rfl) db _

theorem markSentencesBad_done (exampleIds : List (Option Nat)) : Triple (· = s) (markSentencesBad exampleIds)
    fun _ t => t = flagBad (countBad s exampleIds) exampleIds :=
  mark_done exampleIds (updateOutput_self fun _ _ => rfl) fun db => updateFlags_self (fun _ => rfl) db _

theorem validate_done (body : Validation) : Triple (· = s) (validate body) fun _ t => t = s ∨ Voted body s t := by
  unfold validate
  have hread : Triple (· = s) (getBatchDetails body.batch) fun _ t => t = s := triple_read fun _ _ h _ => h
  refine Triple.bind hread fun batch => ?_
  have hexisting : Triple (· = s) (getExistingValidationSubmission batch.1 body.hit body.worker) fun existing t =>
      t = s ∧ existing = (s.mturk_validation_log.filter fun row => row.batch = batch.1 && row.hit = body.hit &&
        unpadded row.worker = unpadded body.worker).map (·.submission_id) := by
    apply Triple.query
    intro db hdb
    subst hdb
    exact ⟨rfl, rfl⟩
  refine Triple.bind hexisting fun existing => ?_
  cases existing with
  | cons submissionId existing => exact Triple.pure fun _ h => .inl h.1
  | nil =>
    refine Triple.ite (fun _ => Triple.fail) fun _ => Triple.each fun db hdb => ?_
    obtain ⟨rfl, hnone⟩ := hdb
    have hhits : Triple (· = db) (getValidationHIT batch.1 body.hit) fun hits t =>
        t = db ∧ hits = hitRows db batch.1 body.hit := by
      apply Triple.query
      intro t ht
      subst ht
      exact ⟨rfl, rfl⟩
    refine Triple.bind hhits fun hits => ?_
    cases hjudge : judge body hits with
    | error err => exact Triple.fail
    | ok judged =>
      refine Triple.ite (fun _ => Triple.fail) fun _ => Triple.each fun t ht => ?_
      obtain ⟨rfl, rfl⟩ := ht
      let row : LogRow := ⟨body.submissionId, batch.1, body.hit, body.worker⟩
      have hlog : Triple (· = t) (logValidationSubmission row) fun _ u =>
          ∃ log, insertLog t t.mturk_validation_log row = .ok log ∧
            u = { t with mturk_validation_log := log } := by
        apply triple_write
        intro db u hdb hu
        subst hdb
        cases hlog : insertLog db db.mturk_validation_log row with
        | error err => simp [hlog, Except.map] at hu
        | ok log =>
          simp only [hlog, Except.map, Except.ok.injEq] at hu
          exact ⟨log, rfl, hu.symm⟩
      refine Triple.bind hlog fun _ => Triple.each fun u hu => ?_
      obtain ⟨log, hlog, rfl⟩ := hu
      refine Triple.bind (insertValidationSubmission_done judged.validationRows) fun _ => Triple.each fun v hv => ?_
      refine Triple.bind (markSentencesGood_done judged.good) fun _ => Triple.each fun w hw => ?_
      refine Triple.bind (markSentencesBad_done judged.bad) fun _ => Triple.pure ?_
      intro x hx
      subst hw
      exact .inr ⟨batch.1, judged, log, v, List.map_eq_nil_iff.mp hnone.symm, hjudge, hlog, hv, hx⟩

/-! ### Runs -/

/-- What one event does. -/
inductive Done (s t : Db) : Prop
  | nothing (h : t = s)
  | grown (h : Grown s t)
  | asked (h : Asked s t)
  | voted (body : Validation) (h : Voted body s t)

theorem step_done {event : Event} (h : step s event = some t) : Done s t := by
  cases event with
  | create example_ =>
    obtain rfl := Option.some.inj h
    exact .grown (grown_insertExample s example_)
  | request request fates =>
    obtain rfl := Option.some.inj h
    have hbody : Triple (· = s) request.body fun _ t => Done s t := by
      cases request with
      | submit body => exact (submit_done body).post fun _ _ => .grown
      | validate body =>
        refine Triple.bind (validate_done body) fun _ => Triple.pure ?_
        intro t ht
        rcases ht with ht | ht
        · exact .nothing ht
        · exact .voted body ht
      | startValidation ref hits =>
        refine Triple.bind (details_done ref) fun batch => ?_
        exact (startValidation_done batch hits).post fun _ _ => .asked
      | close ref autoApprove =>
        refine Triple.bind (details_done ref) fun batch => ?_
        exact (closeBatch_done batch autoApprove).post fun _ _ h => .asked h.2
    rcases transaction_spec hbody fates with ⟨h, -⟩ | ⟨_, h, -⟩
    · exact .nothing h
    · exact h

/-! ## One batch -/

def oneBatch : Db where
  mturk_batch := Table.empty.insert ⟨"h1", 1, 1, .created⟩
  mturk_input := Table.empty.insert ⟨1, 0⟩
  example_utterances := .empty
  mturk_log := []
  mturk_output := fun _ => none
  mturk_validation_input := .empty
  mturk_validation_log := []
  mturk_validation_output := []
  approved := []
  output_example := fun _ h => by cases h
  input_example := fun _ _ _ h => by cases h
  answer_input := fun _ h => (List.not_mem_nil h).elim

theorem oneBatch_fresh : Fresh oneBatch := ⟨rfl, fun _ => rfl, rfl, rfl, rfl, rfl⟩

/-- One paraphrase comes in and is put to the workers. -/
def paraphrased : List Event :=
  [.request (.submit ⟨"s0", "h1", 0, "w0", fun _ => 1, fun i j => if i = 1 ∧ j = 1 then "hello" else "No idea.",
      fun _ _ => .ok ()⟩) [],
    .request (.startValidation (.admin 1) [⟨fun _ => 1, fun i j => if i = 0 ∧ j = 0 then .id (some 1) else .same⟩]) []]

end GenieCloud.Mturk.Batches
