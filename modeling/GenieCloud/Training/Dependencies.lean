/-
  GenieCloud.Training.Dependencies — the order of jobs that depend on one another.

  A job queued with a dependency names it in its row until that one ends: with success
  the name goes, with an error the job fails with it. `Settled` is where a job can be
  that names its dependency no more: the dependency has succeeded, or the job has failed
  and is doomed.

  `order_iff_kills_no_dependency`: as long as no kill records an error for a job that
  succeeded, other than one whose dependents have all failed for good, a job is eligible to
  start only after its dependency has succeeded, and fails with it for good. A kill does not look
  whether the job has ended: it makes a dependency that succeeded one that failed, and
  what it had released goes on (`failed_dependency_lets_start`).
-/

import GenieCloud.Training.Queue

namespace GenieCloud.Training

open GenieCloud.Lib GenieCloud.Lib.Runs

variable {s t : St} {e : Ev} {j d : Nat}

/-- `getNextJob` may select it. -/
def Eligible (s : St) (j : Nat) : Prop := ∃ r, s.db.trainingJobs.get? j = some r ∧ r.status = .queued ∧ r.dependsOn = none

/-- The process has been told to kill the job it runs. -/
def Signalled (s : St) (j : Nat) : Prop := ∃ ty job, s.currentJobs ty = some job ∧ job.id = j ∧ job.killed = true

/-- The row has failed for good. -/
def FailedForGood (s : St) (j : Nat) : Prop := Doomed s j ∧ status s.db.trainingJobs j = some .error

/-- A kill that records an error for a job that succeeded finds its dependents failed for good. -/
def KillsNoDependency (s : St) : Ev → Prop
  | .killJob id .none => ∀ i r, getForUpdate s.db.trainingJobs id.selects = .ok (i, r) → signalled s id r = none →
      r.status = .success → ∀ j, (j, i) ∈ s.created → FailedForGood s j
  | _ => True

theorem kills_no_dependency_free : OnKills KillsNoDependency := by
  intro s e he
  cases e with
  | killJob id fault => cases he
  | restart | exit | scheduleJob | startNextJob | doRun | taskEnded | record | edit => trivial

/-- The row still names its dependency. -/
def WaitsFor (jobs : Table Row) (j d : Nat) : Prop := ∃ r, jobs.get? j = some r ∧ r.dependsOn = some d

structure Settled (s : St) (j d : Nat) : Prop where
  free : ∃ r, s.db.trainingJobs.get? j = some r ∧ r.dependsOn = none
  ended : status s.db.trainingJobs d = some .success ∨ FailedForGood s j

def Ordered (s : St) : Prop := ∀ j d, (j, d) ∈ s.created → d < j ∧ (WaitsFor s.db.trainingJobs j d ∨ Settled s j d)

theorem Signalled.doomed (hi : Inv s) (h : Signalled s j) : Doomed s j := by
  obtain ⟨ty, job, hc, rfl, hk⟩ := h
  obtain ⟨-, -, hl⟩ := hi.slot ty job hc
  refine ⟨?_, fun ty' job' hc' hid => ?_, fun job' hc' => ?_⟩
  · obtain ⟨r, hr, -, -, hs⟩ := hl
    rw [status_eq hr]
    exact hs.imp (congrArg some) (congrArg some)
  · have hl' := (hi.slot ty' job' hc').2.2
    rw [hid] at hl'
    obtain rfl := hl'.jobType_eq hl
    rw [hc] at hc'
    exact Option.some.inj hc' ▸ hk
  · rw [hi.apart ty job hc] at hc'
    cases hc'

/-! ## One step -/

theorem FailedForGood.step (hi : Inv s) (h : step s e = some t) (hf : FailedForGood s j) : FailedForGood t j :=
  ⟨(hf.1.step hi h).1, (hf.1.step hi h).2 hf.2⟩

theorem FailedForGood.path {ok : St → Ev → Prop} (hr : Reach sys ok s) (hp : Path sys ok s t) (hf : FailedForGood s j) :
    FailedForGood t j := hf.1.failed_path hr hp hf.2

/-- A waiting row that fails belongs to no job of the daemon. -/
theorem failed_waiting (hi : Inv s) (hw : WaitsFor s.db.trainingJobs j d)
    (hc : ∀ ty, t.currentJobs ty = s.currentJobs ty) (hp : ∀ job, t.completing j = some job → s.completing j = some job)
    (hs : status t.db.trainingJobs j = some .error) : FailedForGood t j := by
  obtain ⟨r, hr, hd⟩ := hw
  obtain ⟨h1, h2⟩ := hi.waiting_free hr (by rw [hd]; nofun)
  refine ⟨⟨Or.inr hs, fun ty job hcj hid => absurd hid (h1 ty job (hc ty ▸ hcj)), fun job hcj => ?_⟩, hs⟩
  have := hp job hcj
  rw [h2] at this
  cases this

/-- A row waits on, or has failed with what it waited for. -/
theorem WaitsFor.fails {roots : Nat → Prop} (hi : Inv s) (hF : Fails roots s.db.trainingJobs t.db.trainingJobs)
    (hc : ∀ ty, t.currentJobs ty = s.currentJobs ty) (hp : ∀ job, t.completing j = some job → s.completing j = some job)
    (hw : WaitsFor s.db.trainingJobs j d) : WaitsFor t.db.trainingJobs j d ∨ Settled t j d := by
  have hw' := hw
  obtain ⟨r, hr, hd⟩ := hw'
  obtain ⟨r', hr', hrow⟩ := hF.rows.some j r hr
  rcases hrow.dependsOn with hsame | ⟨hnone, herr⟩
  · exact Or.inl ⟨r', hr', hsame.trans hd⟩
  · refine Or.inr ⟨⟨r', hr', hnone⟩, Or.inr (failed_waiting hi hw hc hp ?_)⟩
    rw [status_eq hr', herr]

theorem waits_step (hi : Inv s) (h : step s e = some t) (hw : WaitsFor s.db.trainingJobs j d) :
    WaitsFor t.db.trainingJobs j d ∨ Settled t j d := by
  have hw' := hw
  obtain ⟨r, hr, hd⟩ := hw'
  cases step_cases hi h with
  | idle => exact Or.inl hw
  | edited hdb => exact Or.inl (hdb.symm ▸ hw)
  | restarted hx hF hE => exact WaitsFor.fails hi hF (fun _ => rfl) (fun _ h => h) hw
  | exited => exact Or.inl hw
  | scheduled hdb hE =>
    obtain ⟨config, hr'⟩ := hE.old j r hr
    exact Or.inl ⟨_, hr', hd⟩
  | signalled hget hc => exact Or.inl hw
  | killed hx hget hsig hC => exact WaitsFor.fails hi hC.fails (fun _ => rfl) (fun _ h => h) hw
  | started hx hc hget hq ht hdep hf =>
    refine Or.inl ⟨r, ?_, hd⟩
    show (update _ _ _).get? j = _
    rw [get?_set, if_neg, hr]
    rintro rfl
    rw [hr] at hget
    rw [Option.some.inj hget, hdep] at hd
    cases hd
  | ran hc hid hk ht hst hS =>
    obtain ⟨r', hr', he⟩ := hS.some j r hr
    refine Or.inl ⟨r', hr', ?_⟩
    rw [he]
    exact hd
  | completed hc hid ht hst => exact Or.inl hw
  | failed hc hst hC =>
    refine WaitsFor.fails hi hC.fails (fun _ => rfl) (fun job hj => ?_) hw
    simp only [Function.update_apply] at hj
    split at hj
    · cases hj
    · exact hj
  | succeeded hc hst =>
    rename_i id now job
    obtain ⟨-, hl, -⟩ := hi.completing id job hc
    have hj : j ≠ id := by
      rintro rfl
      rw [(hl.not_waiting hr).1] at hd
      cases hd
    have hget := get?_succeed s.db.trainingJobs id job.data.outcome j
    rw [if_neg hj, hr, Option.map_some, hd] at hget
    by_cases he : d = id
    · subst he
      obtain ⟨D, hD, -⟩ := hl
      rw [if_pos rfl] at hget
      refine Or.inr ⟨⟨_, hget, rfl⟩, Or.inl ?_⟩
      exact (status_succeed_self (status_eq hD)).trans (congrArg some hst)
    · rw [if_neg fun h => he (Option.some.inj h)] at hget
      exact Or.inl ⟨r, hget, hd⟩
  | dropped hc hst => exact Or.inl hw

theorem free_step (hi : Inv s) (h : step s e = some t) (hr : ∃ r, s.db.trainingJobs.get? j = some r ∧ r.dependsOn = none) :
    ∃ r, t.db.trainingJobs.get? j = some r ∧ r.dependsOn = none := by
  obtain ⟨r, hr, hd⟩ := hr
  have hfails : ∀ {roots : Nat → Prop} {jobs : Table Row}, Fails roots s.db.trainingJobs jobs →
      ∃ r, jobs.get? j = some r ∧ r.dependsOn = none := by
    intro roots jobs hF
    obtain ⟨r', hr', hrow⟩ := hF.rows.some j r hr
    refine ⟨r', hr', ?_⟩
    rcases hrow.dependsOn with hsame | ⟨hnone, -⟩
    · exact hsame.trans hd
    · exact hnone
  cases step_cases hi h with
  | idle => exact ⟨r, hr, hd⟩
  | edited hdb => exact ⟨r, hdb.symm ▸ hr, hd⟩
  | restarted hx hF hE => exact hfails hF
  | exited => exact ⟨r, hr, hd⟩
  | scheduled hdb hE =>
    obtain ⟨config, hr'⟩ := hE.old j r hr
    exact ⟨_, hr', hd⟩
  | signalled hget hc => exact ⟨r, hr, hd⟩
  | killed hx hget hsig hC => exact hfails hC.fails
  | started hx hc hget hq ht hdep hf =>
    rename_i ty now id next f
    by_cases he : j = id
    · subst he
      refine ⟨f next, ?_, hf.2.2.trans hdep⟩
      show (update _ _ _).get? j = _
      rw [get?_set, if_pos rfl, hget]; rfl
    · refine ⟨r, ?_, hd⟩
      show (update _ _ _).get? j = _
      rw [get?_set, if_neg he, hr]
  | ran hc hid hk ht hst hS =>
    obtain ⟨r', hr', he⟩ := hS.some j r hr
    refine ⟨r', hr', ?_⟩
    rw [he]
    exact hd
  | completed hc hid ht hst => exact ⟨r, hr, hd⟩
  | failed hc hst hC => exact hfails hC.fails
  | succeeded hc hst =>
    rename_i id now job
    have hget := get?_succeed s.db.trainingJobs id job.data.outcome j
    rw [hr, Option.map_some] at hget
    have hne : r.dependsOn ≠ some id := by rw [hd]; nofun
    by_cases he : j = id
    · rw [if_pos he, Option.map_some, if_neg (show (r.complete job.data.outcome).dependsOn ≠ some id from hne)] at hget
      exact ⟨_, hget, hd⟩
    · rw [if_neg he, Option.map_some, if_neg hne] at hget
      exact ⟨r, hget, hd⟩
  | dropped hc hst => exact ⟨r, hr, hd⟩

theorem settled_step (hi : Inv s) (h : step s e = some t) (hc : (j, d) ∈ s.created) (hok : KillsNoDependency s e)
    (hs : Settled s j d) : Settled t j d := by
  refine ⟨free_step hi h hs.free, ?_⟩
  rcases hs.ended with hsucc | hf
  · by_cases hj : FailedForGood s j
    · exact Or.inr (hj.step hi h)
    · refine Or.inl (success_step hi h (fun id r he hget hsig hr => ?_) hsucc)
      subst he
      exact hj (hok d r hget hsig hr j hc)
  · exact Or.inr (hf.step hi h)

/-- The jobs a request queues with a dependency wait for it. -/
theorem newDependents_wait {db db' : DB} (hE : Extends db db') (h : (j, d) ∈ newDependents db db') :
    d < j ∧ WaitsFor db'.trainingJobs j d := by
  obtain ⟨⟨i, r⟩, hm, hx⟩ := List.mem_filterMap.mp h
  dsimp only at hx
  split at hx
  · rename_i hnext
    obtain ⟨d', hd, he⟩ := Option.map_eq_some_iff.mp hx
    obtain ⟨rfl, rfl⟩ := Prod.mk.inj he
    have hr := Table.mem_rows.mp hm
    refine ⟨?_, r, hr, hd⟩
    cases hold : db.trainingJobs.get? i with
    | none => exact ((hE.new i r hr hold).2.2 d' hd).1
    | some r0 => have := Table.lt_next hold; omega
  · cases hx

/-- The jobs queued with a dependency are only added to. -/
theorem created_cases (hi : Inv s) (h : step s e = some t) :
    t.created = s.created ∨ Extends s.db t.db ∧ t.created = s.created ++ newDependents s.db t.db := by
  cases step_cases hi h with
  | scheduled hdb hE => exact Or.inr ⟨hE, rfl⟩
  | idle | edited | restarted | exited | signalled | killed | started | ran | completed | failed | succeeded | dropped =>
    exact Or.inl rfl

theorem ordered_step (hi : Inv s) (hall : Ordered s) (hok : KillsNoDependency s e) (h : step s e = some t) : Ordered t := by
  intro j d hc
  have hold : (j, d) ∈ s.created → d < j ∧ (WaitsFor t.db.trainingJobs j d ∨ Settled t j d) := by
    intro hc
    obtain ⟨hlt, hw | hs⟩ := hall j d hc
    · exact ⟨hlt, waits_step hi h hw⟩
    · exact ⟨hlt, Or.inr (settled_step hi h hc hok hs)⟩
  rcases created_cases hi h with he | ⟨hE, he⟩
  · exact hold (he ▸ hc)
  · rw [he] at hc
    rcases List.mem_append.mp hc with hc | hc
    · exact hold hc
    · obtain ⟨hlt, hw⟩ := newDependents_wait hE hc
      exact ⟨hlt, Or.inl hw⟩

theorem ordered (h : Reach sys KillsNoDependency s) : Ordered s := by
  have hP : Inv s ∧ Ordered s := by
    refine Reach.inv (P := fun s => Inv s ∧ Ordered s) (fun s h0 => ⟨init_inv h0, fun j d hc => ?_⟩)
      (fun s e t hP hok (hst : step s e = some t) => ⟨step_inv hP.1 hst, ordered_step hP.1 hP.2 hok hst⟩) h
    rw [h0.2.2.2.2.2] at hc
    cases hc
  exact hP.2

/-! ## What the order gives -/

theorem eligible_success (h : Reach sys KillsNoDependency s) (hc : (j, d) ∈ s.created) (he : Eligible s j) :
    status s.db.trainingJobs d = some .success := by
  obtain ⟨r, hr, hq, hd⟩ := he
  obtain ⟨-, ⟨r', hr', hd'⟩ | hs⟩ := ordered h j d hc
  · rw [hr] at hr'
    rw [← Option.some.inj hr', hd] at hd'
    cases hd'
  · rcases hs.ended with hsucc | hf
    · exact hsucc
    · have := hf.2
      rw [status_eq hr, hq] at this
      cases this

theorem error_fails (h : Reach sys KillsNoDependency s) (hc : (j, d) ∈ s.created) (he : status s.db.trainingJobs d = some .error) :
    FailedForGood s j := by
  obtain ⟨-, ⟨r, hr, hd⟩ | hs⟩ := ordered h j d hc
  · rcases ((inv h).waits.waiting j r d hr hd).2 with hD | hD <;> rw [he] at hD <;> cases hD
  · rcases hs.ended with hsucc | hf
    · rw [he] at hsucc; cases hsucc
    · exact hf

theorem created_path {ok : St → Ev → Prop} (h : Reach sys ok s) (hp : Path sys ok s t) (hc : (j, d) ∈ s.created) :
    (j, d) ∈ t.created := by
  induction hp with
  | refl => exact hc
  | step e hp' _ hstep ih =>
    rcases created_cases (inv (h.path hp')) hstep with he | ⟨-, he⟩ <;> rw [he]
    · exact ih
    · exact List.mem_append_left _ ih

/-- What is signalled never succeeds. -/
theorem signalled_never_succeeds {ok : St → Ev → Prop} (h : Reach sys ok s) (hp : Path sys ok s t) (hs : Signalled s d) :
    status t.db.trainingJobs d ≠ some .success := by
  have hd : Doomed t d := by
    induction hp with
    | refl => exact hs.doomed (inv h)
    | step e hp' _ hstep ih => exact (ih.step (inv (h.path hp')) hstep).1
  rcases hd.row with hr | hr <;> rw [hr] <;> nofun

/-- The order a job keeps with what it was queued to depend on. -/
structure InOrder (s : St) (j d : Nat) : Prop where
  /-- It is eligible only after a success. -/
  eligible : Eligible s j → status s.db.trainingJobs d = some .success
  /-- It has failed if the other has. -/
  failed : status s.db.trainingJobs d = some .error → status s.db.trainingJobs j = some .error

theorem in_order (h : Reach sys KillsNoDependency s) (hc : (j, d) ∈ s.created) : InOrder s j d :=
  ⟨eligible_success h hc, fun he => (error_fails h hc he).2⟩

/-- A kill that breaks the condition breaks the order, at once or when the dependent has run. -/
theorem kill_breaks (h : Reach sys KillsNoDependency s) {s' : St} {id : RequestId} {i : Nat} {r : Row}
    (hstep : step s (.killJob id .none) = some s') (hget : getForUpdate s.db.trainingJobs id.selects = .ok (i, r))
    (hsig : signalled s id r = none) (hsucc : r.status = .success) (hc : (j, i) ∈ s.created)
    (hlater : ∀ t, Path sys KillsNoDependency s' t → ∀ j d, (j, d) ∈ t.created → InOrder t j d) : FailedForGood s j := by
  have hi := inv h
  have hi' := step_inv hi hstep
  have hr := (getForUpdate_ok hget).1
  have hsi : status s.db.trainingJobs i = some .success := (status_eq hr).trans (congrArg some hsucc)
  obtain ⟨hC, herr⟩ := step_kill_completed hi hstep hget hsig
  have hslots : s'.currentJobs = s.currentJobs ∧ s'.completing = s.completing ∧ s'.created = s.created := by
    rw [step_kill hstep hget hsig]; exact ⟨rfl, rfl, rfl⟩
  have hdead : FailedForGood s' i := by
    refine ⟨⟨Or.inr herr, fun ty job hcj hid => ?_, fun job hcj => ?_⟩, herr⟩
    · subst hid
      exact absurd hsucc ((hi.slot ty job (hslots.1 ▸ hcj)).2.2.not_waiting hr).2.1
    · exact absurd hsi (hi.completing_status (hslots.2.1 ▸ hcj)).1
  -- from here on the dependency has failed, so the dependent has
  have hfail : ∀ t, Path sys KillsNoDependency s' t → status t.db.trainingJobs j = some .error := by
    intro t hp
    have hp' := hp.rel (R := fun a b => Inv a → FailedForGood a i ∧ (j, i) ∈ a.created →
      Inv b ∧ FailedForGood b i ∧ (j, i) ∈ b.created) (fun a ha hf => ⟨ha, hf⟩)
      (fun a b c hab hbc ha hf => hbc (hab ha hf).1 (hab ha hf).2)
      (fun a e b _ (hst : step a e = some b) ha hf => ⟨step_inv ha hst, hf.1.step ha hst, ?_⟩)
    · obtain ⟨-, hf, hcr⟩ := hp' hi' ⟨hdead, hslots.2.2 ▸ hc⟩
      exact (hlater t hp j i hcr).failed hf.2
    · rcases created_cases ha hst with he | ⟨-, he⟩ <;> rw [he]
      · exact hf.2
      · exact List.mem_append_left _ hf.2
  have hno : ∀ t, Path sys KillsNoDependency s' t → status t.db.trainingJobs j ≠ some .success := by
    intro t hp hst
    rw [hfail t hp] at hst
    cases hst
  have hsj : status s.db.trainingJobs j = some .error := by
    obtain ⟨hlt, hord⟩ := ordered h j i hc
    rcases hC.fails.new_error (hfail s' .refl) with hold | rfl | ⟨r', hr', hd'⟩
    · exact hold
    · exact absurd hlt (Nat.lt_irrefl _)
    · rcases hord with ⟨r2, hr2, hd2⟩ | hs
      · rcases (hi.waits.waiting j r2 i hr2 hd2).2 with hD | hD <;> rw [hsi] at hD <;> cases hD
      · obtain ⟨r2, hr2, hd2⟩ := hs.free
        rw [hr'] at hr2
        exact absurd (Option.some.inj hr2 ▸ hd2) hd'
  refine ⟨⟨Or.inr hsj, fun ty job hcj hid => ?_, fun job hcj => ?_⟩, hsj⟩
  · cases hk : job.killed with
    | true => rfl
    | false =>
      obtain ⟨t, hp, hst⟩ := running_succeeds kills_no_dependency_free hi' (hslots.1 ▸ hcj) hk
      exact absurd (hid ▸ hst) (hno t hp)
  · rcases (hi.completing j job hcj).2.2 with hst | hst
    · obtain ⟨t, hp, hst'⟩ := completing_succeeds kills_no_dependency_free hi' (hslots.2.1 ▸ hcj) hst
      exact absurd hst' (hno t hp)
    · exact hst

/-- In a run whose kills meet the condition every job keeps the order with its dependency,
    and one whose dependency has failed, or is being killed, never starts; and the next
    event keeps the order, in whatever follows, exactly if it meets the condition. -/
theorem order_iff_kills_no_dependency (h : Reach sys KillsNoDependency s) :
    (∀ j d, (j, d) ∈ s.created → InOrder s j d ∧ ∀ t, Path sys KillsNoDependency s t →
      (status s.db.trainingJobs d = some .error → status t.db.trainingJobs j = some .error) ∧
        (Signalled s d → ¬Eligible t j)) ∧
    ∀ e s', step s e = some s' →
      (KillsNoDependency s e ↔ ∀ t, Path sys KillsNoDependency s' t → ∀ j d, (j, d) ∈ t.created → InOrder t j d) := by
  refine ⟨fun j d hc => ⟨in_order h hc, fun t hp => ⟨fun he => ?_, fun hs hel => ?_⟩⟩, fun e s' hstep => ⟨fun hok => ?_, ?_⟩⟩
  · exact ((error_fails h hc he).path h hp).2
  · exact signalled_never_succeeds h hp hs (eligible_success (h.path hp) (created_path h hp hc) hel)
  · exact fun t hp j d hc => in_order ((h.step e hok hstep).path hp) hc
  · intro hlater
    cases e with
    | killJob id fault =>
      cases fault with
      | none => exact fun i r hget hsig hsucc j hc => kill_breaks h hstep hget hsig hsucc hc hlater
      | query => trivial
      | commit => trivial
    | restart | exit | scheduleJob | startNextJob | doRun | taskEnded | record | edit => trivial

/-- A dataset and, depending on it, a model are scheduled; the dataset is made. -/
def datasetRun : List Ev :=
  .restart false :: .scheduleJob datasetAndTraining false :: successRun.drop 2

theorem training_is_in_order :
    ∃ s, run sys (start lampAndModel) datasetRun = some s ∧ (2, 1) ∈ s.created ∧ Eligible s 2 ∧ InOrder s 2 1 := by
  have h0 : Reach sys KillsNoDependency (start lampAndModel) := .init ⟨rfl, rfl, rfl, rfl, rfl, rfl⟩
  have hok : ∀ e ∈ datasetRun, ∀ s, KillsNoDependency s e := by simp [datasetRun, successRun, KillsNoDependency]
  exact ⟨_, rfl, .head _, ⟨_, rfl, rfl, rfl⟩, ((order_iff_kills_no_dependency (h0.run datasetRun hok rfl)).1 2 1 (.head _)).1⟩

/-- The dataset is killed after it was made: it has failed, and the training that needs
    it may start. -/
theorem failed_dependency_lets_start :
    ∃ s t, run sys (start lampAndModel) datasetRun = some s ∧ (2, 1) ∈ s.created ∧
      step s (.killJob (.number 1) .none) = some t ∧ status t.db.trainingJobs 1 = some .error ∧ Eligible t 2 :=
  ⟨_, _, rfl, .head _, rfl, rfl, _, rfl, rfl, rfl⟩

end GenieCloud.Training
