/-
  GenieCloud.Training.Terminal — what becomes of the jobs that have ended.

  A job is `Doomed` when its row has left the queue without success and nothing is left
  that could record a success: if it is still in its slot it has been signalled, and if it
  is completing it completes with an error. `Doomed.step`: it stays so, and once failed
  it stays failed.

  `terminal_is_final`: as long as every kill that records an error finds a row that is
  queued, failed or started and `Doomed`, a row that has ended keeps its status. A kill does
  not look at the status before it records the error: a job that succeeded fails
  (`success_is_killed`), and one that is running, named by the text of its id, is failed
  first and succeeds later.
-/

import GenieCloud.Training.Daemon

namespace GenieCloud.Training

open GenieCloud.Lib GenieCloud.Lib.Runs

/-! ## Statuses -/

variable {jobs jobs' : Table Row} {roots : Nat → Prop} {i : Nat} {x : JobStatus}

theorem Fails.status (hf : Fails roots jobs jobs') (h : status jobs i = some x) :
    Training.status jobs' i = some x ∨ Training.status jobs' i = some .error := by
  obtain ⟨r, hr, rfl⟩ := status_some h
  obtain ⟨r', hr', hrow⟩ := hf.rows.some i r hr
  rw [status_eq hr']
  rcases hrow.status with hs | hs
  · exact Or.inl (congrArg some hs)
  · exact Or.inr (congrArg some hs.1)

theorem Fails.success (hw : Waits jobs) (hf : Fails roots jobs jobs') (h : Training.status jobs i = some .success)
    (hi : ¬roots i) : Training.status jobs' i = some .success := by
  obtain ⟨r, hr, hs⟩ := status_some h
  obtain ⟨r', hr', hrow⟩ := hf.rows.some i r hr
  rcases hrow.status with he | ⟨-, hroot | hd⟩
  · rw [status_eq hr', he, hs]
  · exact absurd hroot hi
  · cases hdep : r.dependsOn with
    | none => exact absurd hdep hd
    | some d =>
      rcases (hw.waiting i r d hr hdep).1 with hq | hq <;> rw [hs] at hq <;> cases hq

theorem Fails.new_error (hf : Fails roots jobs jobs') (h : Training.status jobs' i = some .error) :
    Training.status jobs i = some .error ∨ roots i ∨ ∃ r, jobs.get? i = some r ∧ r.dependsOn ≠ none := by
  obtain ⟨r', hr', hs⟩ := status_some h
  obtain ⟨r, hr, hrow⟩ := hf.rows.back hr'
  rcases hrow.status with he | ⟨-, hroot | hd⟩
  · exact Or.inl (by rw [status_eq hr, ← he, hs])
  · exact Or.inr (Or.inl hroot)
  · exact Or.inr (Or.inr ⟨r, hr, hd⟩)

theorem status_set_ne {id : Nat} {f : Row → Row} (hi : i ≠ id) : status (update jobs id f) i = status jobs i := by
  rw [status, get?_set, if_neg hi]; rfl

theorem status_succeed_ne {id : Nat} {o : Outcome} (hi : i ≠ id) : status (succeed jobs id o) i = status jobs i := by
  rw [status, get?_succeed, if_neg hi, Option.map_map, status]
  congr 1
  funext r
  simp only [Function.comp]
  split <;> rfl

theorem status_succeed_self {id : Nat} {o : Outcome} (h : status jobs id = some x) :
    status (succeed jobs id o) id = some o.status := by
  obtain ⟨r, hr, -⟩ := status_some h
  rw [status, get?_succeed, if_pos rfl, hr]
  simp only [Option.map_some]
  split <;> rfl

theorem Extends.status_back {db db' : DB} (he : Extends db db') (h : Training.status db'.trainingJobs i = some x) :
    Training.status db.trainingJobs i = some x ∨ x = .queued := by
  cases hr : db.trainingJobs.get? i with
  | none =>
    obtain ⟨r', hr', rfl⟩ := status_some h
    exact Or.inr (he.new i r' hr' hr).2.1
  | some r =>
    have h' := he.status_eq (Training.status_eq hr)
    rw [h] at h'
    rw [Training.status_eq hr, h']
    exact Or.inl rfl

/-! ## Doomed jobs -/

structure Doomed (s : St) (i : Nat) : Prop where
  row : status s.db.trainingJobs i = some .started ∨ status s.db.trainingJobs i = some .error
  slot : ∀ ty job, s.currentJobs ty = some job → job.id = i → job.killed = true
  completing : ∀ job, s.completing i = some job → job.data.status = .error

/-- A row that waits belongs to no job of the daemon. -/
theorem Inv.waiting_free {s : St} (hi : Inv s) {r : Row} (hr : s.db.trainingJobs.get? i = some r)
    (hd : r.dependsOn ≠ none) : (∀ ty job, s.currentJobs ty = some job → job.id ≠ i) ∧ s.completing i = none := by
  constructor
  · rintro ty job hc rfl
    exact hd ((hi.slot ty job hc).2.2.not_waiting hr).1
  · cases hc : s.completing i with
    | none => rfl
    | some job => exact absurd ((hi.completing i job hc).2.1.not_waiting hr).1 hd

theorem Inv.completing_status {s : St} (hi : Inv s) {job : Job} (hc : s.completing i = some job) :
    status s.db.trainingJobs i ≠ some .success ∧ status s.db.trainingJobs i ≠ some .queued := by
  obtain ⟨-, hl, -⟩ := hi.completing i job hc
  have hl' := hl
  obtain ⟨r, hr, -⟩ := hl'
  have := hl.not_waiting hr
  rw [status_eq hr]
  simpa using this.2

/-- A job that cannot succeed any more cannot later, and once it has failed it stays failed. -/
theorem Doomed.step {s t : St} {e : Ev} (hi : Inv s) (hd : Doomed s i) (h : step s e = some t) :
    Doomed t i ∧ (status s.db.trainingJobs i = some .error → status t.db.trainingJobs i = some .error) := by
  -- whatever is done to the tables, the row stays where it is or fails
  have hrows : ∀ jobs' : Table Row, (∀ x, status s.db.trainingJobs i = some x →
      status jobs' i = some x ∨ status jobs' i = some .error) →
      (status jobs' i = some .started ∨ status jobs' i = some .error) ∧
        (status s.db.trainingJobs i = some .error → status jobs' i = some .error) := by
    intro jobs' hx
    refine ⟨?_, fun he => (hx _ he).elim id id⟩
    rcases hd.row with hr | hr
    · exact hx _ hr
    · exact Or.inr ((hx _ hr).elim id id)
  have hq : status s.db.trainingJobs i ≠ some .queued := by
    rcases hd.row with hr | hr <;> rw [hr] <;> nofun
  cases step_cases hi h with
  | idle => exact ⟨hd, id⟩
  | edited hdb =>
    obtain ⟨hr, he⟩ := hrows _ fun x hx => Or.inl (hdb.symm ▸ hx)
    exact ⟨⟨hr, hd.slot, hd.completing⟩, he⟩
  | restarted hx hF hE =>
    obtain ⟨hr, he⟩ := hrows _ fun x hx => hF.status hx
    exact ⟨⟨hr, hd.slot, hd.completing⟩, he⟩
  | exited => exact ⟨⟨hd.row, fun _ _ h => (nomatch h), fun _ h => (nomatch h)⟩, id⟩
  | scheduled hdb hE =>
    obtain ⟨hr, he⟩ := hrows _ fun x hx => Or.inl (hE.status_eq hx)
    exact ⟨⟨hr, hd.slot, hd.completing⟩, he⟩
  | signalled hr hc =>
    refine ⟨⟨hd.row, fun ty job hc' hid => ?_, hd.completing⟩, id⟩
    simp only [Function.update_apply] at hc'
    split at hc'
    · obtain rfl := Option.some.inj hc'; rfl
    · exact hd.slot ty job hc' hid
  | killed hx hget hsig hC =>
    obtain ⟨hr, he⟩ := hrows _ fun x hx => hC.fails.status hx
    exact ⟨⟨hr, hd.slot, hd.completing⟩, he⟩
  | started hx hc hget hq' ht hdep hf =>
    rename_i ty now id next f
    have hne : i ≠ id := by
      rintro rfl
      exact hq (by rw [status_eq hget, hq'])
    obtain ⟨hr, he⟩ := hrows (update s.db.trainingJobs id f) fun x hx => Or.inl (by rw [status_set_ne hne]; exact hx)
    refine ⟨⟨hr, fun ty' job hc' hid => ?_, hd.completing⟩, he⟩
    simp only [Function.update_apply] at hc'
    split at hc'
    · obtain rfl := Option.some.inj hc'
      exact absurd hid.symm hne
    · exact hd.slot ty' job hc' hid
  | ran hc hid hk ht hs hS =>
    obtain ⟨hr, he⟩ := hrows _ fun x hx => Or.inl (by rw [hS.status_eq]; exact hx)
    refine ⟨⟨hr, fun ty' job hc' hi' => ?_, hd.completing⟩, he⟩
    simp only [Function.update_apply] at hc'
    split at hc'
    · obtain rfl := Option.some.inj hc'
      exact hk.trans (hd.slot _ _ hc (hid.symm.trans hi'))
    · exact hd.slot ty' job hc' hi'
  | completed hc hid ht hs =>
    refine ⟨⟨hd.row, fun ty' job hc' hi' => ?_, fun job hc' => ?_⟩, id⟩
    · simp only [Function.update_apply] at hc'
      split at hc'
      · cases hc'
      · exact hd.slot ty' job hc' hi'
    · simp only [Function.update_apply] at hc'
      split at hc'
      · rename_i he
        obtain rfl := Option.some.inj hc'
        rcases hs with hs | ⟨-, hk⟩
        · exact hs
        · rw [hd.slot _ _ hc he.symm] at hk; cases hk
      · exact hd.completing job hc'
  | failed hc hs hC =>
    obtain ⟨hr, he⟩ := hrows _ fun x hx => hC.fails.status hx
    refine ⟨⟨hr, hd.slot, fun job hc' => ?_⟩, he⟩
    simp only [Function.update_apply] at hc'
    split at hc'
    · cases hc'
    · exact hd.completing job hc'
  | succeeded hc hs =>
    rename_i id now job
    have hne : i ≠ id := by
      rintro rfl
      rw [hd.completing job hc] at hs; cases hs
    obtain ⟨hr, he⟩ := hrows (succeed s.db.trainingJobs id job.data.outcome) fun x hx =>
      Or.inl (by rw [status_succeed_ne hne]; exact hx)
    refine ⟨⟨hr, hd.slot, fun job hc' => ?_⟩, he⟩
    simp only [Function.update_apply, if_neg hne] at hc'
    exact hd.completing job hc'
  | dropped hc hs =>
    refine ⟨⟨hd.row, hd.slot, fun job hc' => ?_⟩, id⟩
    simp only [Function.update_apply] at hc'
    split at hc'
    · cases hc'
    · exact hd.completing job hc'

/-- A job that has failed and is doomed has failed for good. -/
theorem Doomed.failed_path {ok : St → Ev → Prop} {s t : St} (hr : Reach sys ok s) (hp : Path sys ok s t)
    (hd : Doomed s i) (hs : status s.db.trainingJobs i = some .error) :
    Doomed t i ∧ status t.db.trainingJobs i = some .error := by
  induction hp with
  | refl => exact ⟨hd, hs⟩
  | step e hp' _ hstep ih =>
    obtain ⟨hd', hs'⟩ := ih
    obtain ⟨h1, h2⟩ := hd'.step (inv (hr.path hp')) hstep
    exact ⟨h1, h2 hs'⟩

/-! ## Terminal statuses -/

/-- A kill that records an error finds a job that has not succeeded and cannot any more. -/
def KillsUnfinished (s : St) : Ev → Prop
  | .killJob id .none => ∀ i r, getForUpdate s.db.trainingJobs id.selects = .ok (i, r) → signalled s id r = none →
      r.status ≠ .success ∧ (∀ ty job, s.currentJobs ty = some job → job.id = i → job.killed = true) ∧
        ∀ job, s.completing i = some job → job.data.status = .error
  | _ => True

/-- Only a kill takes a success back. -/
theorem success_step {s t : St} {e : Ev} (hi : Inv s) (h : step s e = some t)
    (hok : ∀ id r, e = .killJob id .none → getForUpdate s.db.trainingJobs id.selects = .ok (i, r) → signalled s id r = none →
      r.status ≠ .success)
    (hs : status s.db.trainingJobs i = some .success) : status t.db.trainingJobs i = some .success := by
  cases step_cases hi h with
  | idle => exact hs
  | edited hdb => exact hdb.symm ▸ hs
  | restarted hx hF hE =>
    refine hF.success hi.waits hs fun hst => ?_
    rw [hs] at hst; cases hst
  | exited => exact hs
  | scheduled hdb hE => exact hE.status_eq hs
  | signalled hr hc => exact hs
  | killed hx hget hsig hC =>
    refine hC.fails.success hi.waits hs fun he => ?_
    subst he
    rw [status_eq (getForUpdate_ok hget).1] at hs
    exact hok _ _ rfl hget hsig (Option.some.inj hs)
  | started hx hc hget hq ht hdep hf =>
    refine (status_set_ne ?_).trans hs
    rintro rfl
    rw [status_eq hget, hq] at hs; cases hs
  | ran hc hid hk ht hst hS => exact (hS.status_eq i).trans hs
  | completed hc hid ht hst => exact hs
  | failed hc hst hC =>
    refine hC.fails.success hi.waits hs fun he => ?_
    subst he
    exact (hi.completing_status hc).1 hs
  | succeeded hc hst =>
    refine (status_succeed_ne ?_).trans hs
    rintro rfl
    exact (hi.completing_status hc).1 hs
  | dropped hc hst => exact hs

/-- Whatever fails is doomed, when every kill meets the condition. -/
theorem failed_doomed_step {s t : St} {e : Ev} (hi : Inv s) (hall : ∀ i, status s.db.trainingJobs i = some .error → Doomed s i)
    (hok : KillsUnfinished s e) (h : step s e = some t) (hs : status t.db.trainingJobs i = some .error) : Doomed t i := by
  by_cases hold : status s.db.trainingJobs i = some .error
  · exact ((hall i hold).step hi h).1
  · cases step_cases hi h with
    | idle => exact absurd hs hold
    | edited hdb => exact absurd (hdb ▸ hs) hold
    | restarted hx hF hE =>
      obtain ⟨hc, hp⟩ := hi.exited hx
      refine ⟨Or.inr hs, fun ty job hj => ?_, fun job hj => ?_⟩
      · rw [hc] at hj; cases hj
      · rw [hp] at hj; cases hj
    | exited => exact absurd hs hold
    | scheduled hdb hE =>
      rcases hE.status_back hs with h' | h'
      · exact absurd h' hold
      · cases h'
    | signalled hr hc => exact absurd hs hold
    | killed hx hget hsig hC =>
      obtain ⟨-, hslot, hcomp⟩ := hok _ _ hget hsig
      rcases hC.fails.new_error hs with h' | rfl | ⟨r, hr, hd⟩
      · exact absurd h' hold
      · exact ⟨Or.inr hs, hslot, hcomp⟩
      · obtain ⟨h1, h2⟩ := hi.waiting_free hr hd
        refine ⟨Or.inr hs, fun ty job hc hj => absurd hj (h1 ty job hc), fun job hj => ?_⟩
        rw [h2] at hj; cases hj
    | started hx hc hget hq ht hdep hf =>
      rename_i ty now id next f
      by_cases he : i = id
      · subst he
        rw [status, get?_set, if_pos rfl, hget] at hs
        have hs' : (f next).status = .error := Option.some.inj hs
        rw [hf.1] at hs'; cases hs'
      · exact absurd ((status_set_ne he).symm.trans hs) hold
    | ran hc hid hk ht hst hS => exact absurd ((hS.status_eq i).symm.trans hs) hold
    | completed hc hid ht hst => exact absurd hs hold
    | failed hc hst hC =>
      rename_i id now job db
      rcases hC.fails.new_error hs with h' | rfl | ⟨r, hr, hd⟩
      · exact absurd h' hold
      · refine ⟨Or.inr hs, fun ty job hj he => ?_, fun job hj => ?_⟩
        · have := hi.apart ty job hj
          rw [he, hc] at this; cases this
        · simp only [Function.update_self] at hj; cases hj
      · obtain ⟨h1, h2⟩ := hi.waiting_free hr hd
        refine ⟨Or.inr hs, fun ty job hc hj => absurd hj (h1 ty job hc), fun job hj => ?_⟩
        simp only [Function.update_apply, h2, ite_self] at hj
        cases hj
    | succeeded hc hst =>
      rename_i id now job
      by_cases he : i = id
      · subst he
        obtain ⟨-, ⟨r, hr, -⟩, -⟩ := hi.completing i job hc
        rw [status_succeed_self (status_eq hr)] at hs
        rw [show job.data.outcome.status = job.data.status from rfl, hst] at hs
        cases hs
      · exact absurd ((status_succeed_ne he).symm.trans hs) hold
    | dropped hc hst => exact absurd hs hold

theorem failed_doomed {s : St} (h : Reach sys KillsUnfinished s) (hs : status s.db.trainingJobs i = some .error) : Doomed s i := by
  have hP : Inv s ∧ ∀ i, status s.db.trainingJobs i = some .error → Doomed s i := by
    refine Reach.inv (P := fun s => Inv s ∧ ∀ i, status s.db.trainingJobs i = some .error → Doomed s i)
      (fun s h0 => ⟨init_inv h0, fun i hs => ?_⟩) (fun s e t hP hok (hst : step s e = some t) =>
        ⟨step_inv hP.1 hst, fun i hs => failed_doomed_step hP.1 hP.2 hok hst hs⟩) h
    rw [h0.1] at hs
    cases hs
  exact hP.2 i hs

/-- A row that has ended keeps its status. -/
theorem terminal_is_final {s t : St} (h : Reach sys KillsUnfinished s) (hp : Path sys KillsUnfinished s t)
    (hx : x = .success ∨ x = .error) (hs : status s.db.trainingJobs i = some x) : status t.db.trainingJobs i = some x := by
  rcases hx with rfl | rfl
  · induction hp with
    | refl => exact hs
    | step e hp' hok hstep ih =>
      refine success_step (inv (h.path hp')) hstep (fun id r he hget hsig => ?_) ih
      subst he
      exact (hok i r hget hsig).1
  · exact ((failed_doomed h hs).failed_path h hp hs).2

/-! ## What a kill of a job that may still succeed leads to -/

theorem step_doRun {s : St} {ty : String} {job : Job} (hc : s.currentJobs ty = some job) (hr : job.running = false)
    (now : Nat) (failed : Option String) : step s (.doRun ty now failed) = some (doRun s job now failed) := by
  simp only [step, hc, Option.bind_some, hr, Bool.false_eq_true, if_false]

theorem step_taskEnded {s : St} {ty : String} {job : Job} (hc : s.currentJobs ty = some job) (hr : job.running = true)
    (now : Nat) (error : Option String) : step s (.taskEnded ty now error) = some (taskEnded s job now error) := by
  simp only [step, hc, Option.bind_some, hr, if_true]

def Ev.isKill : Ev → Bool
  | .killJob _ _ => true
  | _ => false

/-- A condition on kills only. -/
def OnKills (ok : St → Ev → Prop) : Prop := ∀ s e, e.isKill = false → ok s e

variable {ok : St → Ev → Prop}

/-- A completion with success is recorded whatever the row says by then. -/
theorem completing_succeeds (hfree : OnKills ok) {s : St} (hi : Inv s) {job : Job} (hc : s.completing i = some job) (hs : job.data.status = .success) :
    ∃ t, Path sys ok s t ∧ status t.db.trainingJobs i = some .success := by
  obtain ⟨rfl, ⟨r, hr, -⟩, -⟩ := hi.completing i job hc
  have hstep : step s (.record job.id 0 none) = some (record s job 0 none) := by
    simp only [step, hc, Option.map_some]
  refine ⟨_, .step (.record job.id 0 none) .refl (hfree _ _ rfl) hstep, ?_⟩
  have hsucc : (record s job 0 none).db.trainingJobs = succeed s.db.trainingJobs job.id job.data.outcome :=
    recordJobCompletion_success _ _ (by rw [show job.data.outcome.status = job.data.status from rfl, hs]; decide)
  rw [hsucc, status_succeed_self (status_eq hr)]
  exact congrArg some hs

/-- A job at the head of the loop goes through the tasks that are left. -/
theorem head_succeeds (hfree : OnKills ok) {n : Nat} {s : St} (hi : Inv s) {ty : String} {job : Job} (hc : s.currentJobs ty = some job)
    (hk : job.killed = false) (hr : job.running = false) (hn : (allTasks ty).length - job.index = n) :
    ∃ t, Path sys ok s t ∧ status t.db.trainingJobs job.id = some .success := by
  induction n generalizing s job with
  | zero =>
    obtain ⟨rfl, -⟩ := hi.slot ty job hc
    have hstep := step_doRun hc hr 0 none
    have htask : (allTasks job.data.jobType)[job.index]? = none := List.getElem?_eq_none (by omega)
    have hdone : (doRun s job 0 none).completing job.id =
        some { job with data := { job.data with status := .success, endTime := some 0 } } := by
      simp only [doRun, hk, htask, complete, jobComplete, hc, if_true, Bool.false_eq_true, if_false, Function.update_self]
    obtain ⟨u, hu, hs⟩ := completing_succeeds hfree (step_inv hi hstep) hdone rfl
    exact ⟨u, Path.head (.doRun _ 0 none) (hfree _ _ rfl) hstep hu, hs⟩
  | succ n ih =>
    obtain ⟨rfl, -⟩ := hi.slot ty job hc
    have hstep := step_doRun hc hr 0 none
    have htask := List.getElem?_eq_getElem (show job.index < (allTasks job.data.jobType).length by omega)
    generalize (allTasks job.data.jobType)[job.index] = task at htask
    let busy : Job := { job with data := { job.data with taskIndex := some job.index, taskName := some task }, running := true }
    have hbusy : (doRun s job 0 none).currentJobs busy.data.jobType = some busy := by
      simp only [doRun, hk, htask, Bool.false_eq_true, if_false, busy, Function.update_self]
    have hstep' := step_taskEnded hbusy rfl 0 none
    have hnext : (taskEnded (doRun s job 0 none) busy 0 none).currentJobs busy.data.jobType =
        some { busy with index := job.index + 1, running := false } := Function.update_self ..
    obtain ⟨v, hv, hs⟩ := ih (step_inv (step_inv hi hstep) hstep') hnext hk rfl (by show _ - (job.index + 1) = n; omega)
    exact ⟨v, Path.head (.doRun _ 0 none) (hfree _ _ rfl) hstep (Path.head (.taskEnded _ 0 none) (hfree _ _ rfl) hstep' hv), hs⟩

theorem running_succeeds (hfree : OnKills ok) {s : St} (hi : Inv s) {ty : String} {job : Job} (hc : s.currentJobs ty = some job)
    (hk : job.killed = false) : ∃ t, Path sys ok s t ∧ status t.db.trainingJobs job.id = some .success := by
  cases hr : job.running with
  | false => exact head_succeeds hfree hi hc hk hr rfl
  | true =>
    obtain ⟨rfl, -⟩ := hi.slot ty job hc
    have hstep := step_taskEnded hc hr 0 none
    have hnext : (taskEnded s job 0 none).currentJobs job.data.jobType =
        some { job with index := job.index + 1, running := false } := Function.update_self ..
    obtain ⟨u, hu, hs⟩ := head_succeeds hfree (step_inv hi hstep) hnext hk rfl rfl
    exact ⟨u, Path.head (.taskEnded _ 0 none) (hfree _ _ rfl) hstep hu, hs⟩

theorem kills_unfinished_free : OnKills KillsUnfinished := by
  intro s e he
  cases e with
  | killJob id fault => cases he
  | restart | exit | scheduleJob | startNextJob | doRun | taskEnded | record | edit => trivial

/-- A kill that signals nobody records an error. -/
theorem step_kill {s t : St} {id : RequestId} {r : Row} (h : step s (.killJob id .none) = some t)
    (hget : getForUpdate s.db.trainingJobs id.selects = .ok (i, r)) (hsig : signalled s id r = none) :
    t = { s with db := s.db.recordJobCompletion i ⟨.error, some "Killed", r.endTime⟩ } := by
  simp only [step] at h
  split at h
  · cases h
  · rw [← Option.some.inj h]
    simp [killJob, hget, hsig]

theorem step_kill_completed {s t : St} {id : RequestId} {r : Row} (hi : Inv s) (h : step s (.killJob id .none) = some t)
    (hget : getForUpdate s.db.trainingJobs id.selects = .ok (i, r)) (hsig : signalled s id r = none) :
    Completed i s.db.trainingJobs t.db.trainingJobs ∧ status t.db.trainingJobs i = some .error := by
  have hC : Completed i s.db.trainingJobs t.db.trainingJobs := by
    rw [step_kill h hget hsig]
    exact recordJobCompletion_error hi.waits.acyclic i rfl
  obtain ⟨r', hr', -⟩ := hC.fails.rows.some i r (getForUpdate_ok hget).1
  exact ⟨hC, by rw [status_eq hr', hC.failed r' hr']⟩

/-- What has ended in `s` has ended the same way in `t`. -/
def Kept (s t : St) : Prop :=
  ∀ i x, x = .success ∨ x = .error → status s.db.trainingJobs i = some x → status t.db.trainingJobs i = some x

/-- In a run whose kills meet the condition every row that has ended keeps its status; and
    the next event keeps it so, in whatever follows, exactly if it meets the condition. -/
theorem kept_iff_kills_unfinished {s : St} (h : Reach sys KillsUnfinished s) :
    (∀ t, Path sys KillsUnfinished s t → Kept s t) ∧ ∀ e s', step s e = some s' →
      (KillsUnfinished s e ↔ Kept s s' ∧ ∀ t, Path sys KillsUnfinished s' t → Kept s' t) := by
  have hi := inv h
  refine ⟨fun t hp i x hx hs => terminal_is_final h hp hx hs, fun e s' hstep => ⟨fun hok => ?_, fun ⟨hnow, hlater⟩ => ?_⟩⟩
  · exact ⟨fun i x hx hs => terminal_is_final h (.step e .refl hok hstep) hx hs,
      fun t hp i x hx hs => terminal_is_final (h.step e hok hstep) hp hx hs⟩
  · cases e with
    | killJob id fault =>
      cases fault with
      | none =>
        intro i r hget hsig
        have hi' := step_inv hi hstep
        have hs' := step_kill hstep hget hsig
        have hr := (getForUpdate_ok hget).1
        have herr := (step_kill_completed hi hstep hget hsig).2
        have hno : ∀ t, Path sys KillsUnfinished s' t → status t.db.trainingJobs i ≠ some .success := by
          intro t hp hsucc
          rw [hlater t hp i .error (Or.inr rfl) herr] at hsucc
          cases hsucc
        refine ⟨fun hsucc => ?_, fun ty job hc hid => ?_, fun job hc => ?_⟩
        · have := hnow i .success (Or.inl rfl) (by rw [status_eq hr, hsucc])
          exact hno s' .refl this
        · cases hk : job.killed with
          | true => rfl
          | false =>
            obtain ⟨t, hp, hsucc⟩ := running_succeeds kills_unfinished_free hi' (show s'.currentJobs ty = some job by rw [hs']; exact hc) hk
            exact absurd (hid ▸ hsucc) (hno t hp)
        · rcases (hi.completing i job hc).2.2 with hsucc | herr'
          · obtain ⟨t, hp, hsucc⟩ := completing_succeeds kills_unfinished_free hi' (show s'.completing i = some job by rw [hs']; exact hc) hsucc
            exact absurd hsucc (hno t hp)
          · exact herr'
      | query => trivial
      | commit => trivial
    | restart | exit | scheduleJob | startNextJob | doRun | taskEnded | record | edit => trivial

/-- A job is queued for all devices, starts, goes through its two tasks and succeeds. -/
def successRun : List Ev :=
  [.restart false, .scheduleJob (datasetFor .null) false, .startNextJob "update-dataset" 1 false,
    .doRun "update-dataset" 2 none, .taskEnded "update-dataset" 3 none, .doRun "update-dataset" 3 none,
    .taskEnded "update-dataset" 4 none, .doRun "update-dataset" 4 none, .record 1 5 none]

theorem success_is_kept :
    ∃ s, run sys (start lampOnly) successRun = some s ∧ status s.db.trainingJobs 1 = some .success ∧
      ∀ t, Path sys KillsUnfinished s t → status t.db.trainingJobs 1 = some .success := by
  refine ⟨_, rfl, rfl, fun t hp => ?_⟩
  refine (kept_iff_kills_unfinished ?_).1 t hp 1 .success (Or.inl rfl) rfl
  have h0 : Reach sys KillsUnfinished (start lampOnly) := .init ⟨rfl, rfl, rfl, rfl, rfl, rfl⟩
  exact h0.run successRun (by simp [successRun, KillsUnfinished]) rfl

/-- A kill with the id of a job that has succeeded turns it into one that failed. -/
theorem success_is_killed :
    ∃ s t, run sys (start lampOnly) successRun = some s ∧ status s.db.trainingJobs 1 = some .success ∧
      step s (.killJob (.number 1) .none) = some t ∧ status t.db.trainingJobs 1 = some .error :=
  ⟨_, _, rfl, rfl, rfl, rfl⟩

end GenieCloud.Training
