/-
  GenieCloud.Training.Queue — one queued job for each type, language and model tag.

  A job without a dependency is merged into the queued one of its key when there is one,
  so it never makes a second. A job with a dependency is not merged with anything, for its
  dependency is thought to be new: when it is a dataset job that was merged into a queued
  one, the training job queued with it at the time is still there, and a second is queued
  next to it (`second_training_is_queued`).

  `unique_iff_no_second`: no two queued jobs have one key as long as no request for a
  dataset with training goes through while a training job of one of its models is queued.
-/

import GenieCloud.Training.Terminal

namespace GenieCloud.Training

open GenieCloud.Lib GenieCloud.Lib.Runs

/-- A job is queued under a key. -/
def QueuedAt (jobs : Table Row) (k : Key) (i : Nat) : Prop := ∃ r, jobs.get? i = some r ∧ r.status = .queued ∧ r.key = k

/-- Of each key of a mergeable type at most one job is queued. -/
def Unique (jobs : Table Row) : Prop :=
  ∀ k i j, jobTypeIsMergeable k.jobType = true → QueuedAt jobs k i → QueuedAt jobs k j → i = j

variable {db db' : DB} {r : Request} {jobType : String} {m : Option Model} {dependsOn : Option Nat} {id : Nat}

theorem first?_queuedAs {jobs : Table Row} {k : Key} :
    (∃ c, jobs.first? (queuedAs k) = some c) ↔ ∃ i, QueuedAt jobs k i := by
  constructor
  · rintro ⟨⟨i, row⟩, hc⟩
    obtain ⟨hr, hp⟩ := Table.first?_eq_some hc
    exact ⟨i, row, hr, of_decide_eq_true hp⟩
  · rintro ⟨i, row, hr, hp⟩
    cases hf : jobs.first? (queuedAs k) with
    | some c => exact ⟨c, rfl⟩
    | none =>
      have := Table.first?_eq_none.mp hf i row hr
      rw [queuedAs, decide_eq_true hp] at this
      cases this

theorem QueuedAt.extends {k : Key} {i : Nat} (he : Extends db db') (h : QueuedAt db.trainingJobs k i) :
    QueuedAt db'.trainingJobs k i := by
  obtain ⟨row, hr, hs, hk⟩ := h
  obtain ⟨config, hr'⟩ := he.old i row hr
  exact ⟨_, hr', hs, hk⟩

/-- A second job, once queued, is still there after whatever else the request queues. -/
theorem Unique.of_extends (he : Extends db db') (h : Unique db'.trainingJobs) : Unique db.trainingJobs :=
  fun k i j hm hi hj => h k i j hm (hi.extends he) (hj.extends he)

/-- What one call leaves in the queue. -/
theorem Queued.queuedAt (h : Queued db r jobType m dependsOn db' id) :
    (∀ k i, QueuedAt db'.trainingJobs k i ↔ QueuedAt db.trainingJobs k i) ∧ dependsOn = none ∨
      (dependsOn = none → jobTypeIsMergeable jobType = true → ∀ i, ¬QueuedAt db.trainingJobs (keyOf r jobType m) i) ∧
        ∀ k i, QueuedAt db'.trainingJobs k i ↔
          QueuedAt db.trainingJobs k i ∨ k = keyOf r jobType m ∧ i = db.trainingJobs.next := by
  cases h with
  | merged hd hm hq hf =>
    rename_i config c forDevices
    refine Or.inl ⟨fun k i => ?_, hd⟩
    simp only [QueuedAt, get?_set]
    split
    · simp only [Option.map_eq_some_iff]
      constructor
      · rintro ⟨_, ⟨row, hr, rfl⟩, hs, hk⟩
        exact ⟨row, hr, hs, hk⟩
      · rintro ⟨row, hr, hs, hk⟩
        exact ⟨_, ⟨row, hr, rfl⟩, hs, hk⟩
    · exact Iff.rfl
  | created hq =>
    rename_i config
    refine Or.inr ⟨fun hd hm i hi => ?_, fun k i => ?_⟩
    · obtain ⟨c, hc⟩ := first?_queuedAs.mpr ⟨i, hi⟩
      rw [hq hd hm] at hc
      cases hc
    · show (∃ row, (db.trainingJobs.insert _).get? i = some row ∧ _) ↔ _
      simp only [Table.get?_insert]
      by_cases hi : i = db.trainingJobs.next
      · have hnone : ¬QueuedAt db.trainingJobs k i := by
          rintro ⟨row, hr, -⟩
          rw [hi, Table.get?_next] at hr
          cases hr
        simp only [hi, if_true, and_true]
        subst hi
        simp only [hnone, false_or]
        constructor
        · rintro ⟨row, hr, -, rfl⟩
          rw [← Option.some.inj hr]; rfl
        · rintro rfl
          exact ⟨_, rfl, rfl, rfl⟩
      · simp only [hi, if_false, and_false, or_false]
        exact Iff.rfl

/-- One call queues no second job, unless one of its key is queued and it has a dependency. -/
theorem Queued.unique_iff (h : Queued db r jobType m dependsOn db' id) (hm : jobTypeIsMergeable jobType = true)
    (hu : Unique db.trainingJobs) :
    Unique db'.trainingJobs ↔ ¬(dependsOn ≠ none ∧ ∃ i, QueuedAt db.trainingJobs (keyOf r jobType m) i) := by
  rcases h.queuedAt with ⟨hsame, hd⟩ | ⟨hfree, hnew⟩
  · refine ⟨fun _ hdup => hdup.1 hd, fun _ k i j hk hi hj => ?_⟩
    exact hu k i j hk ((hsame k i).mp hi) ((hsame k j).mp hj)
  · have hlt : ∀ k i, QueuedAt db.trainingJobs k i → i ≠ db.trainingJobs.next := by
      rintro k i ⟨row, hr, -⟩ rfl
      exact Nat.lt_irrefl _ (Table.lt_next hr)
    constructor
    · rintro hu' ⟨-, i, hi⟩
      exact hlt _ i hi (hu' _ i _ hm ((hnew _ i).mpr (Or.inl hi)) ((hnew _ _).mpr (Or.inr ⟨rfl, rfl⟩)))
    · intro hno k i j hk hi hj
      have hempty : ∀ i, ¬QueuedAt db.trainingJobs (keyOf r jobType m) i := by
        intro i hi
        by_cases hd : dependsOn = none
        · exact hfree hd hm i hi
        · exact hno ⟨hd, i, hi⟩
      rcases (hnew k i).mp hi with hi | ⟨rfl, rfl⟩
      · rcases (hnew k j).mp hj with hj | ⟨rfl, -⟩
        · exact hu k i j hk hi hj
        · exact absurd hi (hempty i)
      · rcases (hnew _ j).mp hj with hj | ⟨-, hj⟩
        · exact absurd hj (hempty j)
        · exact hj.symm

/-- Queueing under one key leaves the others alone. -/
theorem Queued.queuedAt_ne (h : Queued db r jobType m dependsOn db' id) {k : Key} (hk : k ≠ keyOf r jobType m) (i : Nat) :
    QueuedAt db'.trainingJobs k i ↔ QueuedAt db.trainingJobs k i := by
  rcases h.queuedAt with ⟨hsame, -⟩ | ⟨-, hnew⟩
  · exact hsame k i
  · rw [hnew]
    exact ⟨fun h => h.resolve_right fun h => hk h.1, Or.inl⟩

theorem queueTrain_unique_iff {models : List Model} (h : queueTrain db r dependsOn models = .ok db')
    (hdep : ∀ d, dependsOn = some d → ∃ D, db.trainingJobs.get? d = some D ∧ D.status = .queued)
    (hu : Unique db.trainingJobs) (hdist : models.Pairwise (·.tag ≠ ·.tag)) :
    Unique db'.trainingJobs ↔ ¬(dependsOn ≠ none ∧
      ∃ m ∈ models, m.contextual = false ∧ ∃ i, QueuedAt db.trainingJobs (keyOf r "train" (some m)) i) := by
  induction models generalizing db with
  | nil =>
    cases h
    simp [hu]
  | cons m models ih =>
    obtain ⟨hm, hdist⟩ := List.pairwise_cons.mp hdist
    rw [queueTrain] at h
    simp only [List.mem_cons, exists_eq_or_imp]
    split at h
    · rename_i hctx
      rw [ih h hdep hu hdist]
      simp [hctx]
    · rename_i hctx
      obtain ⟨⟨db1, id⟩, hq, h⟩ := Result.bind_ok h
      have hQ := queueOrMergeJob_cases hq
      have he1 := hQ.extends hdep
      have hdep' : ∀ d, dependsOn = some d → ∃ D, db1.trainingJobs.get? d = some D ∧ D.status = .queued :=
        fun d hd => he1.queued (hdep d hd)
      have hfirst := hQ.unique_iff rfl hu
      by_cases hdup : dependsOn ≠ none ∧ ∃ i, QueuedAt db.trainingJobs (keyOf r "train" (some m)) i
      · have hno : ¬Unique db1.trainingJobs := fun hu1 => hfirst.mp hu1 hdup
        refine ⟨fun hu' => absurd (Unique.of_extends (queueTrain_spec h hdep').1 hu') hno, fun hn => absurd ?_ hn⟩
        exact ⟨hdup.1, Or.inl ⟨by simpa using hctx, hdup.2⟩⟩
      · rw [ih h hdep' (hfirst.mpr hdup) hdist]
        have hkeep : ∀ m' ∈ models, ∀ i, QueuedAt db1.trainingJobs (keyOf r "train" (some m')) i ↔
            QueuedAt db.trainingJobs (keyOf r "train" (some m')) i := fun m' hm' =>
          hQ.queuedAt_ne fun he => hm m' hm' (Option.some.inj (congrArg Key.modelTag he)).symm
        refine not_congr (and_congr_right fun hd => ⟨?_, ?_⟩)
        · rintro ⟨m', hm', hctx', i, hi⟩
          exact Or.inr ⟨m', hm', hctx', i, (hkeep m' hm' i).mp hi⟩
        · rintro (⟨-, hq'⟩ | ⟨m', hm', hctx', i, hi⟩)
          · exact absurd ⟨hd, hq'⟩ hdup
          · exact ⟨m', hm', hctx', i, (hkeep m' hm' i).mpr hi⟩

/-- The request queues a dataset and training, and training of one of its models is queued. -/
def SecondTraining (db : DB) (r : Request) : Prop :=
  r.jobType = "update-dataset,train" ∧
    ∃ m ∈ getAffectedModels db r, m.contextual = false ∧ ∃ i, QueuedAt db.trainingJobs (keyOf r "train" (some m)) i

theorem schedule_unique_iff (h : schedule db r = .ok db') (hu : Unique db.trainingJobs) :
    Unique db'.trainingJobs ↔ ¬SecondTraining db r := by
  unfold schedule at h
  dsimp only at h
  unfold SecondTraining
  split at h
  · rename_i hj
    rw [queueTrain_unique_iff h nofun hu affected_distinct]
    simp [hj]
  · split at h
    · rename_i hj
      obtain ⟨⟨db1, id⟩, hq, h⟩ := Result.bind_ok h
      have hQ := queueOrMergeJob_cases hq
      obtain ⟨row, hrow, hs, -⟩ := hQ.covers
      have hu1 := (hQ.unique_iff rfl hu).mpr fun h => h.1 rfl
      rw [queueTrain_unique_iff h (fun d hd => ⟨row, Option.some.inj hd ▸ hrow, hs⟩) hu1 affected_distinct]
      have hkeep : ∀ m i, QueuedAt db1.trainingJobs (keyOf r "train" (some m)) i ↔
          QueuedAt db.trainingJobs (keyOf r "train" (some m)) i := fun m =>
        hQ.queuedAt_ne fun he => absurd (congrArg Key.jobType he) (by decide : "train" ≠ "update-dataset")
      simp [hj, hkeep]
    · rename_i hj
      split at h
      · rename_i hjob
        obtain ⟨⟨db1, id⟩, hq, h⟩ := Result.bind_ok h
        cases h
        have hm : jobTypeIsMergeable r.jobType = true := by
          simp only [jobTypes, jobSpecs, List.map_cons, List.map_nil, List.mem_singleton] at hjob
          rw [hjob]; rfl
        have hu1 := ((queueOrMergeJob_cases hq).unique_iff hm hu).mpr fun h => h.1 rfl
        simp [hj, hu1]
      · cases h

/-! ## Runs -/

/-- No job comes back to the queue. -/
theorem queuedAt_back {s t : St} {e : Ev} (hi : Inv s) (h : step s e = some t)
    (he : ∀ t', e ≠ .scheduleJob t' false) {k : Key} {i : Nat} (hq : QueuedAt t.db.trainingJobs k i) :
    QueuedAt s.db.trainingJobs k i := by
  have hfails : ∀ {roots : Nat → Prop} {jobs : Table Row}, Fails roots s.db.trainingJobs jobs → QueuedAt jobs k i →
      QueuedAt s.db.trainingJobs k i := by
    rintro roots jobs hF ⟨r', hr', hs, hk⟩
    obtain ⟨r, hr, hrow⟩ := hF.rows.back hr'
    refine ⟨r, hr, ?_, ?_⟩
    · rcases hrow.status with hst | hst
      · exact hst.symm.trans hs
      · rw [hst.1] at hs; cases hs
    · rw [← hk, hrow.same]; rfl
  cases step_cases hi h with
  | idle => exact hq
  | edited hdb => exact hdb ▸ hq
  | restarted hx hF hE => exact hfails hF hq
  | exited => exact hq
  | scheduled hdb hE => exact absurd rfl (he _)
  | signalled hget hc => exact hq
  | killed hx hget hsig hC => exact hfails hC.fails hq
  | started hx hc hget hqu ht hd hf =>
    obtain ⟨r', hr', hs, hk⟩ := hq
    have hr'' : (update _ _ _).get? i = some r' := hr'
    rw [get?_set] at hr''
    split at hr''
    · rename_i hid
      rw [hid, hget] at hr''
      rw [← Option.some.inj hr'', hf.1] at hs
      cases hs
    · exact ⟨r', hr'', hs, hk⟩
  | ran hc hid hk ht hst hS =>
    obtain ⟨r', hr', hs, hk⟩ := hq
    obtain ⟨r, hr, he⟩ := hS.back hr'
    rw [he] at hs hk
    exact ⟨r, hr, hs, hk⟩
  | completed hc hid ht hst => exact hq
  | failed hc hst hC => exact hfails hC.fails hq
  | succeeded hc hst =>
    rename_i id now job
    obtain ⟨r', hr', hs, hk⟩ := hq
    have hget : (succeed s.db.trainingJobs id job.data.outcome).get? i = some r' := hr'
    by_cases hid : i = id
    · subst hid
      obtain ⟨-, ⟨r, hr, -⟩, -⟩ := hi.completing i job hc
      have hst' := status_eq hget
      rw [status_succeed_self (status_eq hr), hs, show job.data.outcome.status = job.data.status from rfl, hst] at hst'
      cases hst'
    · rw [get?_succeed, if_neg hid] at hget
      obtain ⟨r, hr, rfl⟩ := Option.map_eq_some_iff.mp hget
      refine ⟨r, hr, ?_, ?_⟩
      · split at hs <;> exact hs
      · rw [← hk]; split <;> rfl
  | dropped hc hst => exact hq

/-- No request that goes through queues a dataset and training next to queued training. -/
def NoSecond (s : St) : Ev → Prop
  | .scheduleJob t false => ∀ r, check t = .ok r → r.config ≠ some "" → ¬Upgrade s.db r (keyOf r "update-dataset" none) →
      ¬SecondTraining s.db r
  | _ => True

/-- A request for a dataset and training goes through unless it has to upgrade the dataset job. -/
theorem second_goes_through {s : St} {t : JobTemplate} {r : Request} (hr : check t = .ok r)
    (hj : r.jobType = "update-dataset,train") :
    (∃ db, scheduleJob s.db t = .ok db) ↔ r.config ≠ some "" ∧ ¬Upgrade s.db r (keyOf r "update-dataset" none) := by
  have hs : scheduleJob s.db t = schedule s.db r := by
    rw [scheduleJob, hr]; rfl
  have hm : mergedFor s.db r = [keyOf r "update-dataset" none] := by
    simp [mergedFor, hj]
  rw [hs]
  by_cases hc : r.config = some ""
  · -- the configuration is asserted before anything is queued
    have : schedule s.db r = .error .assertion := by
      simp [schedule, hj, queueOrMergeJob, getJobConfig, hc, bind, Except.bind]
    rw [this]
    simp [hc]
  · rw [schedule_ok_iff hc (by simp [hj]), hm]
    simp [hc]

theorem unique_step_iff {s t : St} {e : Ev} (hi : Inv s) (hu : Unique s.db.trainingJobs) (h : step s e = some t) :
    NoSecond s e ↔ Unique t.db.trainingJobs := by
  have hback : (∀ t', e ≠ .scheduleJob t' false) → Unique t.db.trainingJobs := fun he k i j hm hqi hqj =>
    hu k i j hm (queuedAt_back hi h he hqi) (queuedAt_back hi h he hqj)
  cases e with
  | scheduleJob jobTemplate failed =>
    cases failed with
    | true => exact ⟨fun _ => hback (fun _ => by simp), fun _ => trivial⟩
    | false =>
      simp only [step] at h
      split at h
      · cases h
      · simp only [Bool.false_eq_true, if_false] at h
        split at h
        · rename_i err herr
          cases h
          refine ⟨fun _ => hu, fun _ r hr hc hup hdup => ?_⟩
          obtain ⟨db, hdb⟩ := (second_goes_through hr hdup.1).mpr ⟨hc, hup⟩
          rw [herr] at hdb
          cases hdb
        · rename_i db hdb
          cases h
          obtain ⟨r, hr, hsch⟩ := Result.bind_ok hdb
          have hiff := schedule_unique_iff hsch hu
          constructor
          · intro hno
            refine hiff.mpr fun hdup => ?_
            obtain ⟨hc, hup⟩ := (second_goes_through hr hdup.1).mp ⟨db, hdb⟩
            exact hno r hr hc hup hdup
          · intro hut r' hr' _ _
            obtain rfl : r' = r := Except.ok.inj (hr'.symm.trans hr)
            exact hiff.mp hut
  | restart | exit | killJob | startNextJob | doRun | taskEnded | record | edit =>
    exact ⟨fun _ => hback (fun _ => by simp), fun _ => trivial⟩

/-- In a run whose requests meet the condition no two queued jobs of a mergeable type have
    one key; and the next event keeps it so exactly if it meets the condition. -/
theorem unique_iff_no_second {s : St} (h : Reach sys NoSecond s) :
    Unique s.db.trainingJobs ∧ ∀ e t, step s e = some t → (NoSecond s e ↔ Unique t.db.trainingJobs) := by
  have hP : Inv s ∧ Unique s.db.trainingJobs := by
    refine Reach.inv (P := fun s => Inv s ∧ Unique s.db.trainingJobs) (fun s h0 => ⟨init_inv h0, ?_⟩)
      (fun s e t hP hok (hst : step s e = some t) => ⟨step_inv hP.1 hst, (unique_step_iff hP.1 hP.2 hst).mp hok⟩) h
    rintro k i j - ⟨r, hr, -⟩
    rw [h0.1] at hr
    cases hr
  exact ⟨hP.2, fun e t hst => unique_step_iff hP.1 hP.2 hst⟩

/-- A request for a dataset and training, for all devices. -/
def datasetAndTraining : JobTemplate := ⟨.null, some "en", some "update-dataset,train", none, none, none⟩

/-- One device, and one model for English. -/
def lampAndModel : DB :=
  { lampOnly with models := ⟨[⟨1, "en", "org.thingpedia.models.default", false, true, true, "[]", by decide⟩],
      List.pairwise_singleton ..⟩ }

theorem first_training_is_alone :
    ∃ s t, run sys (start lampAndModel) [.restart false] = some s ∧ step s (.scheduleJob datasetAndTraining false) = some t ∧
      Unique t.db.trainingJobs ∧ QueuedAt t.db.trainingJobs ⟨"train", "en", some "org.thingpedia.models.default"⟩ 2 := by
  have h0 : Reach sys NoSecond (start lampAndModel) := .init ⟨rfl, rfl, rfl, rfl, rfl, rfl⟩
  have h1 := h0.run [.restart false] (by simp [NoSecond]) rfl
  refine ⟨_, _, rfl, rfl, ((unique_iff_no_second h1).2 (.scheduleJob datasetAndTraining false) _ rfl).mp ?_, _, rfl, rfl, rfl⟩
  rintro r - - - ⟨-, m, -, -, i, row, hrow, -⟩
  cases hrow

/-- The same request twice: the dataset jobs are merged, the training jobs are not. -/
theorem second_training_is_queued :
    ∃ s r r', run sys (start lampAndModel)
        [.restart false, .scheduleJob datasetAndTraining false, .scheduleJob datasetAndTraining false] = some s ∧
      s.db.trainingJobs.get? 2 = some r ∧ s.db.trainingJobs.get? 3 = some r' ∧ r.status = .queued ∧ r'.status = .queued ∧
      r.key = r'.key ∧ jobTypeIsMergeable r.jobType = true ∧ ¬Unique s.db.trainingJobs := by
  refine ⟨_, _, _, rfl, rfl, rfl, rfl, rfl, rfl, rfl, fun hu => ?_⟩
  exact absurd (hu _ 2 3 rfl ⟨_, rfl, rfl, rfl⟩ ⟨_, rfl, rfl, rfl⟩) (by decide)

end GenieCloud.Training
