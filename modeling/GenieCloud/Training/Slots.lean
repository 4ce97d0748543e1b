/-
  GenieCloud.Training.Slots — the slots of the daemon against the started rows.

  Between two operations a row is started exactly when its job is the one in the slot of
  its type, still at its tasks (`slots_agree`), as long as no success fails to be
  recorded while its row is started, and no kill records an error in the row of a job in
  a slot. A success that is not recorded is dropped without a trace: `fail` finds the
  slot free and returns, the process runs on, and the row stays started with no job
  behind it (`lost_success_stays_started`). A kill that names a running job by the text
  of its id fails the row and leaves the job in the slot.
-/

import GenieCloud.Training.Terminal

namespace GenieCloud.Training

open GenieCloud.Lib GenieCloud.Lib.Runs

variable {jobs jobs' : Table Row} {roots : Nat → Prop} {i : Nat} {x : JobStatus}

theorem Fails.status_back (hf : Fails roots jobs jobs') (h : Training.status jobs' i = some x) :
    Training.status jobs i = some x ∨ x = .error := by
  obtain ⟨r', hr', rfl⟩ := status_some h
  obtain ⟨r, hr, hrow⟩ := hf.rows.back hr'
  rcases hrow.status with hs | hs
  · exact Or.inl ((status_eq hr).trans (congrArg some hs.symm))
  · exact Or.inr hs.1

/-- What waits for nothing fails only if it is named. -/
theorem Fails.status_kept {jobType : String} (hf : Fails roots jobs jobs') (hl : Live jobs i jobType) (hi : ¬roots i) :
    Training.status jobs' i = Training.status jobs i := by
  obtain ⟨r, hr, -, hd, -⟩ := hl
  obtain ⟨r', hr', hrow⟩ := hf.rows.some i r hr
  rw [status_eq hr, status_eq hr']
  rcases hrow.status with hs | ⟨-, hroot | hdep⟩
  · rw [hs]
  · exact absurd hroot hi
  · exact absurd hd hdep

/-- No success fails to be recorded while its row is started, and no error is recorded
    for the job in a slot. -/
def SlotsKept (s : St) : Ev → Prop
  | .killJob id .none => ∀ i r, getForUpdate s.db.trainingJobs id.selects = .ok (i, r) → signalled s id r = none →
      ∀ ty job, s.currentJobs ty = some job → job.id ≠ i
  | .record id _ (some _) => ∀ job, s.completing id = some job → job.data.status = .success →
      status s.db.trainingJobs id ≠ some .started
  | _ => True

/-- While the process runs, a started row belongs to a job in a slot or completing, and
    the row of a job in a slot is started. -/
structure Slots (s : St) : Prop where
  owned : s.exited = false → ∀ i, status s.db.trainingJobs i = some .started →
    (∃ ty job, s.currentJobs ty = some job ∧ job.id = i) ∨ s.completing i ≠ none
  started : ∀ ty job, s.currentJobs ty = some job → status s.db.trainingJobs job.id = some .started

/-- The jobs in the slots are the same, and so are the started rows. -/
theorem Slots.rows {s t : St} (hs : Slots s)
    (hc : ∀ ty job, t.currentJobs ty = some job → ∃ job', s.currentJobs ty = some job' ∧ job'.id = job.id)
    (hc' : ∀ ty job, s.currentJobs ty = some job → ∃ job', t.currentJobs ty = some job' ∧ job'.id = job.id)
    (hp : ∀ i, s.completing i ≠ none → status t.db.trainingJobs i = some .started → t.completing i ≠ none)
    (hx : t.exited = false → s.exited = false)
    (hback : ∀ i, status t.db.trainingJobs i = some .started → status s.db.trainingJobs i = some .started)
    (hkept : ∀ ty job, s.currentJobs ty = some job → status t.db.trainingJobs job.id = status s.db.trainingJobs job.id) :
    Slots t := by
  refine ⟨fun hxt i hst => ?_, fun ty job hcj => ?_⟩
  · rcases hs.owned (hx hxt) i (hback i hst) with ⟨ty, job, hcj, hid⟩ | hcomp
    · obtain ⟨job', hcj', hid'⟩ := hc' ty job hcj
      exact Or.inl ⟨ty, job', hcj', hid'.trans hid⟩
    · exact Or.inr (hp i hcomp hst)
  · obtain ⟨job', hcj', hid⟩ := hc ty job hcj
    rw [← hid, hkept ty job' hcj']
    exact hs.started ty job' hcj'

theorem slot_update {slots : String → Option Job} {ty : String} {job job' : Job} (hc : slots ty = some job)
    (hid : job'.id = job.id) (ty' : String) :
    (∀ j, Function.update slots ty (some job') ty' = some j → ∃ j', slots ty' = some j' ∧ j'.id = j.id) ∧
      ∀ j, slots ty' = some j → ∃ j', Function.update slots ty (some job') ty' = some j' ∧ j'.id = j.id := by
  rw [Function.update_apply]
  split
  · rename_i he
    subst he
    refine ⟨fun j hj => ⟨job, hc, ?_⟩, fun j hj => ⟨job', rfl, ?_⟩⟩
    · rw [← Option.some.inj hj, hid]
    · rw [hid, ← Option.some.inj (hc.symm.trans hj)]
  · exact ⟨fun j hj => ⟨j, hj, rfl⟩, fun j hj => ⟨j, hj, rfl⟩⟩

theorem slots_step {s t : St} {e : Ev} (hi : Inv s) (hs : Slots s) (hok : SlotsKept s e) (h : step s e = some t) : Slots t := by
  cases step_cases hi h with
  | idle => exact hs
  | edited hdb =>
    exact hs.rows (fun _ job hc => ⟨job, hc, rfl⟩) (fun _ job hc => ⟨job, hc, rfl⟩) (fun _ h _ => h) id
      (fun i h => hdb ▸ h) (fun _ job _ => by simp only [hdb])
  | restarted hx hF hE =>
    refine ⟨fun _ i hst => absurd hst (hE i), fun ty job hc => ?_⟩
    rw [show s.currentJobs ty = none from (hi.exited hx).1 ty] at hc
    cases hc
  | exited => exact ⟨nofun, fun _ _ h => (nomatch h)⟩
  | scheduled hdb hE =>
    refine hs.rows (fun _ job hc => ⟨job, hc, rfl⟩) (fun _ job hc => ⟨job, hc, rfl⟩) (fun _ h _ => h) id (fun i hst => ?_)
      (fun ty job hc => ?_)
    · rcases hE.status_back hst with h' | h'
      · exact h'
      · cases h'
    · rw [hs.started ty job hc]
      exact hE.status_eq (hs.started ty job hc)
  | signalled hr hc =>
    rename_i id fault i r job
    have hid : ({ job with killed := true } : Job).id = job.id := rfl
    exact hs.rows (fun ty => (slot_update hc hid ty).1) (fun ty => (slot_update hc hid ty).2) (fun _ h _ => h) (fun h => h)
      (fun _ h => h) (fun _ _ _ => rfl)
  | killed hx hget hsig hC =>
    refine hs.rows (fun _ job hc => ⟨job, hc, rfl⟩) (fun _ job hc => ⟨job, hc, rfl⟩) (fun _ h _ => h) id (fun i hst => ?_)
      (fun ty job hc => ?_)
    · rcases hC.fails.status_back hst with h' | h'
      · exact h'
      · cases h'
    · exact hC.fails.status_kept (hi.slot ty job hc).2.2 (hok _ _ hget hsig ty job hc)
  | started hx hc hget hq ht hd hf =>
    rename_i ty now id next f
    have hself : status (update s.db.trainingJobs id f) id = some .started := by
      rw [status, get?_set, if_pos rfl, hget]
      exact congrArg some hf.1
    have hne : ∀ ty' job, s.currentJobs ty' = some job → job.id ≠ id := by
      rintro ty' job hc' rfl
      exact ((hi.slot ty' job hc').2.2.not_waiting hget).2.2 hq
    refine ⟨fun _ i hst => ?_, fun ty' job hc' => ?_⟩
    · by_cases he : i = id
      · exact Or.inl ⟨ty, _, Function.update_self .., he.symm⟩
      · rcases hs.owned hx i ((status_set_ne he).symm.trans hst) with ⟨ty', job, hc', hid⟩ | hcomp
        · refine Or.inl ⟨ty', job, ?_, hid⟩
          refine (Function.update_of_ne ?_ ..).trans hc'
          rintro rfl
          rw [hc] at hc'; cases hc'
        · exact Or.inr hcomp
    · simp only [Function.update_apply] at hc'
      split at hc'
      · obtain rfl := Option.some.inj hc'
        exact hself
      · exact (status_set_ne (hne ty' job hc')).trans (hs.started ty' job hc')
  | ran hc hid hk ht hst hS =>
    exact hs.rows (fun ty => (slot_update hc hid ty).1) (fun ty => (slot_update hc hid ty).2) (fun _ h _ => h) id
      (fun i h => (hS.status_eq i).symm.trans h) (fun _ _ _ => hS.status_eq _)
  | completed hc hid ht hst =>
    rename_i ty job job'
    refine ⟨fun hx i hstart => ?_, fun ty' job2 hc' => ?_⟩
    · by_cases he : i = job.id
      · exact Or.inr (by simp [he])
      · rcases hs.owned hx i hstart with ⟨ty', job2, hc', hid'⟩ | hcomp
        · refine Or.inl ⟨ty', job2, ?_, hid'⟩
          refine (Function.update_of_ne ?_ ..).trans hc'
          rintro rfl
          rw [hc] at hc'
          exact he (Option.some.inj hc' ▸ hid'.symm)
        · exact Or.inr (by simpa [he] using hcomp)
    · simp only [Function.update_apply] at hc'
      split at hc'
      · cases hc'
      · exact hs.started ty' job2 hc'
  | failed hc hst hC =>
    rename_i id now job db
    refine hs.rows (fun _ job hc => ⟨job, hc, rfl⟩) (fun _ job hc => ⟨job, hc, rfl⟩) (fun i hcomp hstart => ?_) (fun h => h)
      (fun i hstart => ?_) (fun ty job2 hc' => ?_)
    · by_cases he : i = id
      · subst he
        obtain ⟨r', hr', hs'⟩ := status_some hstart
        rw [hC.failed r' hr'] at hs'
        cases hs'
      · simpa [he] using hcomp
    · rcases hC.fails.status_back hstart with h' | h'
      · exact h'
      · cases h'
    · refine hC.fails.status_kept (hi.slot ty job2 hc').2.2 fun he => ?_
      have := hi.apart ty job2 hc'
      rw [he, hc] at this
      cases this
  | succeeded hc hst =>
    rename_i id now job
    obtain ⟨-, ⟨r, hr, -⟩, -⟩ := hi.completing id job hc
    have hself : status (succeed s.db.trainingJobs id job.data.outcome) id = some .success :=
      (status_succeed_self (status_eq hr)).trans (congrArg some hst)
    have hne : ∀ i, status (succeed s.db.trainingJobs id job.data.outcome) i = some .started → i ≠ id := by
      rintro i hstart rfl
      rw [hself] at hstart; cases hstart
    refine hs.rows (fun _ job hc => ⟨job, hc, rfl⟩) (fun _ job hc => ⟨job, hc, rfl⟩) (fun i hcomp hstart => ?_) (fun h => h)
      (fun i hstart => (status_succeed_ne (hne i hstart)).symm.trans hstart) (fun ty job2 hc' => status_succeed_ne ?_)
    · simpa [hne i hstart] using hcomp
    · rintro he
      have := hi.apart ty job2 hc'
      rw [he, hc] at this
      cases this
  | dropped hc hst =>
    rename_i id now job error
    refine hs.rows (fun _ job hc => ⟨job, hc, rfl⟩) (fun _ job hc => ⟨job, hc, rfl⟩) (fun i hcomp hstart => ?_) (fun h => h)
      (fun _ h => h) (fun _ _ _ => rfl)
    have : i ≠ id := by
      rintro rfl
      exact hok job hc hst hstart
    simpa [this] using hcomp

theorem slots {s : St} (h : Reach sys SlotsKept s) : Inv s ∧ Slots s := by
  refine Reach.inv (P := fun s => Inv s ∧ Slots s) (fun s h0 => ⟨init_inv h0, ?_⟩) (fun s e t hP hok (hst : step s e = some t) =>
    ⟨step_inv hP.1 hst, slots_step hP.1 hP.2 hok hst⟩) h
  refine ⟨fun hx => ?_, fun ty job hc => ?_⟩
  · rw [h0.2.2.2.2.1] at hx; cases hx
  · rw [h0.2.2.1] at hc; cases hc

/-- Between two operations of a run whose steps meet the condition, a row of a type is
    started exactly when the slot of the type has its job, at its tasks. -/
theorem slots_agree {s : St} (h : Reach sys SlotsKept s) (hx : s.exited = false) (hq : ∀ i, s.completing i = none)
    (jobType : String) (i : Nat) :
    (∃ r, s.db.trainingJobs.get? i = some r ∧ r.jobType = jobType ∧ r.status = .started) ↔
      ∃ job, s.currentJobs jobType = some job ∧ job.id = i ∧ job.data.status = .started := by
  obtain ⟨hi, hs⟩ := slots h
  constructor
  · rintro ⟨r, hr, rfl, hst⟩
    rcases hs.owned hx i ((status_eq hr).trans (congrArg some hst)) with ⟨ty, job, hc, rfl⟩ | hcomp
    · obtain ⟨-, hstart, r', hr', ht, -⟩ := hi.slot ty job hc
      rw [hr] at hr'
      obtain rfl := Option.some.inj hr'
      exact ⟨job, ht ▸ hc, rfl, hstart⟩
    · exact absurd (hq i) hcomp
  · rintro ⟨job, hc, rfl, -⟩
    obtain ⟨-, -, r, hr, ht, -⟩ := hi.slot jobType job hc
    have := hs.started jobType job hc
    rw [status_eq hr] at this
    exact ⟨r, hr, ht, Option.some.inj this⟩

/-- `successRun` up to the record of its success. -/
def successPending : List Ev := successRun.take 8

theorem slots_agree_while_it_runs :
    ∃ s, run sys (start lampOnly) (successRun.take 4) = some s ∧
      ((∃ r, s.db.trainingJobs.get? 1 = some r ∧ r.jobType = "update-dataset" ∧ r.status = .started) ↔
        ∃ job, s.currentJobs "update-dataset" = some job ∧ job.id = 1 ∧ job.data.status = .started) := by
  have h0 : Reach sys SlotsKept (start lampOnly) := .init ⟨rfl, rfl, rfl, rfl, rfl, rfl⟩
  refine ⟨_, rfl, slots_agree (h0.run (successRun.take 4) (by simp [successRun, SlotsKept]) rfl) rfl (fun i => rfl) _ 1⟩

/-- The record of a success fails: the process runs on, idle, with the row started. -/
theorem lost_success_stays_started :
    ∃ s, run sys (start lampOnly) (successPending ++ [.record 1 5 (some "ECONNRESET")]) = some s ∧ s.exited = false ∧
      (∀ i, s.completing i = none) ∧ s.currentJobs "update-dataset" = none ∧
      ∃ r, s.db.trainingJobs.get? 1 = some r ∧ r.jobType = "update-dataset" ∧ r.status = .started := by
  refine ⟨_, rfl, rfl, fun i => ?_, rfl, _, rfl, rfl, rfl⟩
  show Function.update (Function.update (fun _ => none) 1 _) 1 none i = none
  rw [Function.update_idem, Function.update_apply]
  split <;> rfl

end GenieCloud.Training
