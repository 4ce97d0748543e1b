/-
  GenieCloud.Mturk.Votes — each vote of a validation is counted once.

  A validation writes its log, its answers and two counts; it comes from a form that can
  be sent again or be wrong, and any statement of it can fail. What holds of these
  tables after every run (`votes_counted_once`):
  - a worker has at most one validation of a HIT in the log, also if the names are
    told apart by blanks at the end (`logged_voted`);
  - the votes counted for an example are the answers about it, if no HIT asks about it
    twice: the counts are moved for a set of examples, so a second answer about one
    would be lost (`judge_counts`).
-/

import GenieCloud.Mturk.Batches

namespace GenieCloud.Mturk.Votes

open GenieCloud.Lib GenieCloud.Lib.Runs GenieCloud.Mturk.Statements GenieCloud.Mturk.Batches

def isOf (batch : Nat) (hit : Int) (worker : String) (row : LogRow) : Bool :=
  row.batch = batch && row.hit = hit && unpadded row.worker = unpadded worker

def LoggedOnce (db : Db) : Prop := ∀ batch hit worker, db.mturk_validation_log.countP (isOf batch hit worker) ≤ 1

/-- A sentence of a HIT that asks about an example. -/
def Asks (db : Db) (exampleId batch : Nat) (hitId : Int) (id : Nat) : Prop :=
  ∃ row, db.mturk_validation_input.get? id = some row ∧ row.type = .real ∧ row.example_id = some exampleId ∧
    row.batch = batch ∧ row.hit_id = hitId

def AskedOnce (db : Db) (exampleId : Nat) : Prop :=
  ∀ batch hitId i j, Asks db exampleId batch hitId i → Asks db exampleId batch hitId j → i = j

def isAbout (db : Db) (exampleId : Nat) (row : ValidationOutputRow) : Bool :=
  (db.mturk_validation_input.get? row.validation_sentence_id).bind (·.example_id) = some exampleId

def answers (db : Db) (exampleId : Nat) : Nat := db.mturk_validation_output.countP (isAbout db exampleId)

def Counted (db : Db) : Prop := ∀ exampleId row, db.mturk_output exampleId = some row → AskedOnce db exampleId →
  row.accept_count + row.reject_count = answers db exampleId

variable {s t db : Db}

/-! ## The log -/

theorem insertLog_eq {log log' : List LogRow} {row : LogRow} (h : insertLog db log row = .ok log') :
    ∃ worker, varchar 32 row.worker = some worker ∧ log' = log ++ [{ row with worker := worker }] := by
  unfold insertLog at h
  split at h
  · cases h
  · rename_i worker hworker
    split at h
    · cases h
    · split at h
      · cases h
      · split at h
        · cases h
        · exact ⟨worker, hworker, (Except.ok.inj h).symm⟩

theorem logged_voted {body : Validation} (h : LoggedOnce s) (hv : Voted body s t) : LoggedOnce t := by
  obtain ⟨batch, judged, log, u, hnone, -, hlog, hu, rfl⟩ := hv.voted
  obtain ⟨hkey, rfl⟩ := insertAnswers_eq hu
  obtain ⟨kept, hkept, rfl⟩ := insertLog_eq hlog
  intro b hit worker
  show (s.mturk_validation_log ++ [_]).countP (isOf b hit worker) ≤ 1
  rw [List.countP_append, List.countP_singleton]
  split
  · rename_i hof
    simp only [isOf, Bool.and_eq_true, decide_eq_true_eq, unpadded_varchar hkept] at hof
    obtain ⟨⟨rfl, rfl⟩, hworker⟩ := hof
    have hzero : s.mturk_validation_log.countP (isOf batch body.hit worker) = 0 := by
      rw [List.countP_eq_length_filter, List.length_eq_zero_iff, ← hnone]
      unfold isOf
      rw [hworker]
    omega
  · exact h b hit worker

/-! ## The answers of a HIT -/

theorem mem_hitRows {batch : Nat} {hitId : Int} {hit : Nat × ValidationInputRow} (h : hit ∈ hitRows db batch hitId) :
    db.mturk_validation_input.get? hit.1 = some hit.2 ∧ hit.2.batch = batch ∧ hit.2.hit_id = hitId := by
  have hmem := (List.perm_insertionSort _ _).mem_iff.mp h
  obtain ⟨hget, hcond⟩ := Table.mem_select.mp hmem
  simp only [Bool.and_eq_true, decide_eq_true_eq] at hcond
  exact ⟨hget, hcond.1.1, hcond.1.2⟩

def isRealOf (exampleId : Nat) (hit : Nat × ValidationInputRow) : Bool :=
  hit.2.type = .real && hit.2.example_id = some exampleId

theorem asked_once_hitRows {exampleId : Nat} (h : AskedOnce db exampleId) (batch : Nat) (hitId : Int) :
    (hitRows db batch hitId).countP (isRealOf exampleId) ≤ 1 := by
  rw [hitRows, List.Perm.countP_eq _ (List.perm_insertionSort _ _), List.countP_eq_length_filter]
  have hsorted := (db.mturk_validation_input.sorted.filter fun r => r.2.batch = batch && r.2.hit_id = hitId &&
    (db.mturk_input.get? r.2.program_id).isSome).filter (isRealOf exampleId)
  have hasks : ∀ x ∈ ((db.mturk_validation_input.select fun _ row => row.batch = batch && row.hit_id = hitId &&
      (db.mturk_input.get? row.program_id).isSome).filter (isRealOf exampleId)), Asks db exampleId batch hitId x.1 := by
    intro x hx
    obtain ⟨hx, hreal⟩ := List.mem_filter.mp hx
    obtain ⟨hget, hcond⟩ := Table.mem_select.mp hx
    simp only [isRealOf, Bool.and_eq_true, decide_eq_true_eq] at hcond hreal
    exact ⟨x.2, hget, hreal.1, hreal.2, hcond.1.1, hcond.1.2⟩
  unfold Table.select at hasks ⊢
  generalize (List.filter (isRealOf exampleId) _) = found at hsorted hasks
  match found, hsorted, hasks with
  | [], _, _ => exact Nat.zero_le 1
  | [_], _, _ => exact Nat.le_refl 1
  | a :: b :: _, hsorted, hasks =>
    have hlt := (List.pairwise_cons.mp hsorted).1 b (List.mem_cons_self ..)
    have heq := h batch hitId a.1 b.1 (hasks a (List.mem_cons_self ..))
      (hasks b (List.mem_cons_of_mem _ (List.mem_cons_self ..)))
    omega

theorem judge_counts {body : Validation} {hits : List (Nat × ValidationInputRow)} {judged : Judged} (exampleId : Nat)
    (h : judge body hits = .ok judged) (hget : ∀ hit ∈ hits, db.mturk_validation_input.get? hit.1 = some hit.2) :
    judged.good.count (some exampleId) + judged.bad.count (some exampleId) = hits.countP (isRealOf exampleId) ∧
      judged.validationRows.countP (isAbout db exampleId) = hits.countP (isRealOf exampleId) := by
  induction hits generalizing judged with
  | nil =>
    cases h
    exact ⟨rfl, rfl⟩
  | cons hit hits ih =>
    rw [judge] at h
    split at h
    · cases h
    · rename_i answer _
      cases hrest : judge body hits with
      | error err => simp [hrest, Except.map] at h
      | ok rest =>
        simp only [hrest, Except.map, Except.ok.injEq] at h
        subst h
        obtain ⟨hvotes, hrows⟩ := ih hrest fun x hx => hget x (List.mem_cons_of_mem _ hx)
        have hhit := hget hit (List.mem_cons_self ..)
        have habout (a : Answer) : isAbout db exampleId ⟨hit.1, body.submissionId, a⟩ =
            decide (hit.2.example_id = some exampleId) := by
          simp only [isAbout, hhit, Option.bind_some]
        rw [List.countP_cons]
        cases answer <;> cases htype : hit.2.type <;>
          simp only [Judged.add, htype, isRealOf, List.countP_cons, List.count_cons, habout, beq_iff_eq, reduceCtorEq,
            decide_true, decide_false, Bool.true_and, Bool.false_and, Bool.false_eq_true, if_false, decide_eq_true_eq,
            Nat.add_zero] <;> omega

/-! ## The counts -/

/-- An update that names an example once or more moves its count by one. -/
theorem count_eq_one_of_mem (ids : List (Option Nat)) (x : Option Nat) (h : ids.count x ≤ 1) :
    ids.count x = if x ∈ ids then 1 else 0 := by
  by_cases hx : x ∈ ids
  · have hpos := List.count_pos_iff.mpr hx
    rw [if_pos hx]
    omega
  · rw [if_neg hx, List.count_eq_zero.mpr hx]

/-- What both updates of the counts do to a row. -/
def moved (good bad : List (Option Nat)) (exampleId : Nat) (row : OutputRow) : OutputRow :=
  { row with
    accept_count := row.accept_count + if good.contains (some exampleId) then 1 else 0
    reject_count := row.reject_count + if bad.contains (some exampleId) then 1 else 0 }

theorem output_moved (db : Db) (good bad : List (Option Nat)) (exampleId : Nat) :
    (countBad (flagGood (countGood db good) good) bad).mturk_output exampleId =
      (db.mturk_output exampleId).map (moved good bad exampleId) := by
  show ((db.mturk_output exampleId).map fun row =>
    if some exampleId ∈ good then { row with accept_count := row.accept_count + 1 } else row).map (fun row =>
    if some exampleId ∈ bad then { row with reject_count := row.reject_count + 1 } else row) = _
  rw [Option.map_map]
  congr 1
  funext row
  by_cases hg : some exampleId ∈ good <;> by_cases hb : some exampleId ∈ bad <;> simp [moved, hg, hb]

theorem counted_voted {body : Validation} (h : Counted s) (hv : Voted body s t) : Counted t := by
  obtain ⟨batch, judged, log, u, -, hjudge, -, hu, rfl⟩ := hv.voted
  obtain ⟨hkey, rfl⟩ := insertAnswers_eq hu
  intro exampleId row hrow hasked
  have hmoved := output_moved s judged.good judged.bad exampleId
  obtain ⟨old, hold, rfl⟩ := Option.map_eq_some_iff.mp (hmoved.symm.trans hrow)
  have hasked : AskedOnce s exampleId := hasked
  have hbefore := h exampleId old hold hasked
  obtain ⟨hvotes, hrows⟩ := judge_counts exampleId hjudge fun hit hhit => (mem_hitRows hhit).1
  have honce := asked_once_hitRows hasked batch body.hit
  have hgood := count_eq_one_of_mem judged.good (some exampleId) (by omega)
  have hbad := count_eq_one_of_mem judged.bad (some exampleId) (by omega)
  have hafter : (s.mturk_validation_output ++ judged.validationRows).countP (isAbout s exampleId) =
      answers s exampleId + judged.validationRows.countP (isAbout s exampleId) := List.countP_append
  show _ = (s.mturk_validation_output ++ judged.validationRows).countP (isAbout s exampleId)
  simp only [moved, List.contains_iff_mem, ← hgood, ← hbad]
  omega

theorem answers_zero {exampleId : Nat} (h : db.example_utterances.get? exampleId = none) : answers db exampleId = 0 := by
  apply List.countP_eq_zero.mpr
  intro row _ habout
  simp only [isAbout, decide_eq_true_eq, Option.bind_eq_some_iff] at habout
  obtain ⟨input, hinput, hexample⟩ := habout
  have hsome := db.input_example _ input exampleId hinput hexample
  rw [h] at hsome
  cases hsome

theorem counted_grown (h : Counted s) (hg : Grown s t) : Counted t := by
  intro exampleId row hrow hasked
  have hanswers : answers t exampleId = answers s exampleId := by
    unfold answers isAbout
    rw [hg.answers, hg.inputs]
  rw [hanswers]
  rcases hg.outputs exampleId row hrow with hrow | hnew
  · apply h exampleId row hrow
    unfold AskedOnce Asks at hasked ⊢
    rw [hg.inputs] at hasked
    exact hasked
  · rw [hnew.counts.1, hnew.counts.2, answers_zero hnew.fresh]

theorem counted_asked (h : Counted s) (ha : Asked s t) : Counted t := by
  intro exampleId row hrow hasked
  have hanswers : answers t exampleId = answers s exampleId := by
    unfold answers
    rw [ha.answers]
    apply List.countP_congr
    intro answer hanswer
    obtain ⟨input, hinput⟩ := Option.isSome_iff_exists.mp (s.answer_input answer hanswer)
    rw [isAbout, isAbout, hinput, ha.inputs _ input hinput]
  rw [ha.outputs] at hrow
  rw [hanswers]
  apply h exampleId row hrow
  intro batch hitId i j hi hj
  obtain ⟨a, hi, hi'⟩ := hi
  obtain ⟨b, hj, hj'⟩ := hj
  exact hasked batch hitId i j ⟨a, ha.inputs i a hi, hi'⟩ ⟨b, ha.inputs j b hj, hj'⟩

/-! ## Every run -/

theorem votes_counted_once (h : Reach system any s) : LoggedOnce s ∧ Counted s := by
  refine h.inv (P := fun s => LoggedOnce s ∧ Counted s) ?_ ?_
  · intro s hs
    constructor
    · intro batch hit worker
      rw [hs.mturk_validation_log]
      exact Nat.zero_le 1
    · intro exampleId row hrow
      rw [hs.mturk_output] at hrow
      cases hrow
  · intro s event t ⟨hlogged, hcounted⟩ _ hstep
    cases step_done hstep with
    | nothing heq =>
      rw [heq]
      exact ⟨hlogged, hcounted⟩
    | grown hg =>
      refine ⟨?_, counted_grown hcounted hg⟩
      intro batch hit worker
      rw [hg.log]
      exact hlogged batch hit worker
    | asked ha =>
      refine ⟨?_, counted_asked hcounted ha⟩
      intro batch hit worker
      rw [ha.log]
      exact hlogged batch hit worker
    | voted body hv => exact ⟨logged_voted hlogged hv, counted_voted hcounted hv⟩

/-- A worker votes, and again; another gives up when the answers are not stored. -/
def voting : List Event := paraphrased ++
  [.request (.validate ⟨"v1", "h1", 0, "w1", fun _ => some "same"⟩) [],
    .request (.validate ⟨"v2", "h1", 0, "w1 ", fun _ => some "different"⟩) [],
    .request (.validate ⟨"v3", "h1", 0, "w2", fun _ => some "same"⟩) [.works, .works, .works, .works, .works, .fails]]

theorem votes_counted_once_voting : ∃ s, run system oneBatch voting = some s ∧
    (s.mturk_output 1).map (fun row => (row.accept_count, row.reject_count)) = some (1, 0) ∧
      LoggedOnce s ∧ Counted s := by
  have hrun : ((run system oneBatch voting).map fun s =>
      (s.mturk_output 1).map fun row => (row.accept_count, row.reject_count)) = some (some (1, 0)) := by
    decide +kernel
  obtain ⟨s, hs, hcounts⟩ := Option.map_eq_some_iff.mp hrun
  have hreach : Reach system any s := (Reach.init oneBatch_fresh).run voting (fun _ _ _ => trivial) hs
  exact ⟨s, hs, hcounts, votes_counted_once hreach⟩

end GenieCloud.Mturk.Votes
