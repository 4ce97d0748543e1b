/-
  GenieCloud.Mturk.TrainingFlag — what the training flag of a paraphrase says.

  `Flagged`: an example of a batch has the flag exactly if nobody rejected it and enough
  accepted it, or its batch was closed with automatic approval. Each vote moves a count
  first and the flag after it, by the new count, so this holds after every vote
  (`judged_good`, `judged_bad`).

  `training_flag_accepted`: it holds in every run; but no batch is ever closed with
  automatic approval. The update that approves is no statement, so that closing fails
  while the database works, and rolls back the status too (`approval_fails`).
-/

import GenieCloud.Mturk.Batches

namespace GenieCloud.Mturk.TrainingFlag

open GenieCloud.Lib GenieCloud.Lib.Transaction GenieCloud.Lib.Runs GenieCloud.Mturk.Statements GenieCloud.Mturk.Batches

def Flagged (db : Db) : Prop :=
  ∀ id row ex, db.mturk_output id = some row → db.example_utterances.get? id = some ex →
    (.training ∈ ex.flags ↔ row.reject_count = 0 ∧
      (row.target_count ≤ row.accept_count ∨ ∃ batch ∈ db.approved, batchOf db row = some batch))

/-- The reference names a batch, and one that it may close. -/
def Found (ref : Ref) (db : Db) : Prop := ∃ batch, Works (details ref) db batch db

def close (ref : Ref) (autoApprove : Bool) (db : Db) (fates : List Fate) : Db × Except (Failure Error) Unit :=
  transaction (Request.close ref autoApprove).body db fates

/-! ## Flags follow counts -/

/-- `Flagged` where no batch was approved. -/
def Judged (db : Db) : Prop :=
  ∀ id row ex, db.mturk_output id = some row → db.example_utterances.get? id = some ex →
    (.training ∈ ex.flags ↔ accepted row = true)

variable {s t db : Db} {ids : List (Option Nat)}

theorem flagged_of_judged (h : Judged db) (happroved : db.approved = []) : Flagged db := by
  intro id row ex hrow hex
  rw [h id row ex hrow hex, happroved]
  simp only [accepted, Bool.and_eq_true, decide_eq_true_eq, List.not_mem_nil, false_and, exists_false, or_false]
  exact and_comm

theorem get?_updateFlags (db : Db) (p : Nat → Bool) (f : Finset Flag → Finset Flag) (id : Nat) :
    (updateFlags db p f).example_utterances.get? id =
      (db.example_utterances.get? id).map fun ex => if p id then { ex with flags := f ex.flags } else ex :=
  Table.get?_update db.example_utterances _ _ id

theorem judged_good (h : Judged db) (ids : List (Option Nat)) : Judged (flagGood (countGood db ids) ids) := by
  intro id row ex hrow hex
  have hrow : (db.mturk_output id).map _ = some row := hrow
  rw [flagGood, get?_updateFlags] at hex
  obtain ⟨old, hold, rfl⟩ := Option.map_eq_some_iff.mp hrow
  obtain ⟨ex, hold', rfl⟩ := Option.map_eq_some_iff.mp hex
  have hbefore := h id old ex hold hold'
  have hcounted : (countGood db ids).mturk_output id = (db.mturk_output id).map _ := rfl
  rw [hcounted, hold, Option.map_some, Option.any_some]
  by_cases hid : some id ∈ ids
  · simp only [hid, decide_true, Bool.true_and, if_true]
    have hmore : accepted old = true → accepted { old with accept_count := old.accept_count + 1 } = true := by
      simp only [accepted, Bool.and_eq_true, decide_eq_true_eq]
      omega
    split
    · rename_i hacc
      exact iff_of_true (Finset.mem_insert_self ..) hacc
    · rename_i hacc
      exact iff_of_false (fun hflag => hacc (hmore (hbefore.mp hflag))) hacc
  · simp only [hid, decide_false, Bool.false_and, Bool.false_eq_true, if_false]
    exact hbefore

theorem judged_bad (h : Judged db) (ids : List (Option Nat)) : Judged (flagBad (countBad db ids) ids) := by
  intro id row ex hrow hex
  have hrow : (db.mturk_output id).map _ = some row := hrow
  rw [flagBad, get?_updateFlags] at hex
  obtain ⟨old, hold, rfl⟩ := Option.map_eq_some_iff.mp hrow
  obtain ⟨ex, hold', rfl⟩ := Option.map_eq_some_iff.mp hex
  have hbefore := h id old ex hold hold'
  by_cases hid : some id ∈ ids
  · simp only [hid, decide_true, if_true]
    refine iff_of_false (Finset.notMem_erase _ _) ?_
    simp [accepted]
  · simp only [hid, decide_false, Bool.false_eq_true, if_false]
    exact hbefore

/-! ## Every run -/

theorem judged_done (h : Judged s) (hd : Done s t) : Judged t := by
  cases hd with
  | nothing heq =>
    rw [heq]
    exact h
  | grown hg =>
    intro id row ex hrow hex
    rcases hg.outputs id row hrow with hrow | hnew
    · have hkey := s.output_example id (Option.isSome_iff_exists.mpr ⟨row, hrow⟩)
      obtain ⟨old, hold⟩ := Option.isSome_iff_exists.mp hkey
      have ht := hg.examples id old hold
      rw [hex] at ht
      cases ht
      exact h id row ex hrow hold
    · obtain ⟨ex', hex', hflags⟩ := hnew.flags
      rw [hex] at hex'
      cases hex'
      refine iff_of_false hflags ?_
      have htarget := hnew.target
      simp only [accepted, hnew.counts.1, Bool.and_eq_true, decide_eq_true_eq]
      omega
  | asked ha =>
    intro id row ex hrow hex
    rw [ha.outputs] at hrow
    rw [ha.examples] at hex
    exact h id row ex hrow hex
  | voted body hv =>
    obtain ⟨batch, judged, log, u, -, -, -, hu, rfl⟩ := hv.voted
    obtain ⟨hkey, rfl⟩ := insertAnswers_eq hu
    exact judged_bad (judged_good (fun id row ex hrow hex => h id row ex hrow hex) _) _

theorem approved_done (h : s.approved = []) (hd : Done s t) : t.approved = [] := by
  cases hd with
  | nothing heq => rw [heq, h]
  | grown hg => rw [hg.approved, h]
  | asked ha => rw [ha.approved, h]
  | voted body hv =>
    obtain ⟨batch, judged, log, u, -, -, -, hu, rfl⟩ := hv.voted
    obtain ⟨hkey, rfl⟩ := insertAnswers_eq hu
    exact h

theorem close_iff {ref : Ref} (h : Found ref db) (autoApprove : Bool) :
    (close ref autoApprove db []).2 = .ok () ↔ autoApprove = false := by
  obtain ⟨batch, hbatch⟩ := h
  constructor
  · intro hok
    have hbody : Triple (· = db) (Request.close ref autoApprove).body fun _ t => autoApprove = false ∧ Asked db t :=
      Triple.bind (details_done ref) fun batch => closeBatch_done batch autoApprove
    rcases transaction_spec hbody [] with ⟨-, err, herr⟩ | ⟨_, ⟨hfalse, -⟩, -⟩
    · have hok : (transaction (Request.close ref autoApprove).body db []).2 = .ok () := hok
      rw [hok] at herr
      cases herr
    · exact hfalse
  · intro hfalse
    subst hfalse
    have hupdate : Works (updateBatch batch.1 .complete) db () _ := rfl
    have hclose : Works (closeBatch batch false) db () _ := Works.bind hupdate (Works.pure () _)
    have hbody : Works (Request.close ref false).body db () _ := Works.bind hbatch hclose
    exact congrArg Prod.snd (transaction_works hbody)

theorem training_flag_accepted (h : Reach system any s) : Flagged s ∧ ∀ ref autoApprove, Found ref s →
    ((close ref autoApprove s []).2 = .ok () ↔ autoApprove = false) := by
  have hinv : Judged s ∧ s.approved = [] := by
    refine h.inv (P := fun s => Judged s ∧ s.approved = []) ?_ ?_
    · intro s hs
      refine ⟨?_, hs.approved⟩
      intro id row ex hrow
      rw [hs.mturk_output id] at hrow
      cases hrow
    · intro s event t hs _ hstep
      exact ⟨judged_done hs.1 (step_done hstep), approved_done hs.2 (step_done hstep)⟩
  exact ⟨flagged_of_judged hinv.1 hinv.2, fun ref autoApprove href => close_iff href autoApprove⟩

/-! ## One batch -/

theorem oneBatch_found : Found (.admin 1) oneBatch := ⟨(1, ⟨"h1", 1, 1, .created⟩), rfl⟩

theorem approval_fails : ¬∀ s, Reach system any s → Flagged s ∧
    ∀ ref autoApprove, Found ref s → (close ref autoApprove s []).2 = .ok () := by
  intro hclaim
  have hok := (hclaim oneBatch (.init oneBatch_fresh)).2 (.admin 1) true oneBatch_found
  cases hok

/-- The paraphrase, accepted by three workers. -/
def accepting : List Event := paraphrased ++
  [.request (.validate ⟨"v1", "h1", 0, "w1", fun _ => some "same"⟩) [],
    .request (.validate ⟨"v2", "h1", 0, "w2", fun _ => some "same"⟩) [],
    .request (.validate ⟨"v3", "h1", 0, "w3", fun _ => some "same"⟩) []]

theorem training_flag_accepted_three : ∃ s, run system oneBatch accepting = some s ∧
    (s.mturk_output 1).map (·.accept_count) = some 3 ∧ Flagged s := by
  have hrun : ((run system oneBatch accepting).map fun s => (s.mturk_output 1).map (·.accept_count)) = some (some 3) := by
    decide +kernel
  obtain ⟨s, hs, hcount⟩ := Option.map_eq_some_iff.mp hrun
  have hreach : Reach system any s := (Reach.init oneBatch_fresh).run accepting (fun _ _ _ => trivial) hs
  exact ⟨s, hs, hcount, (training_flag_accepted hreach).1⟩

end GenieCloud.Mturk.TrainingFlag
