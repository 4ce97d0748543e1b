/-
  GenieCloud.Training.TrainingJob — the tables of the training daemon and the queries on
  them (`model/training_job.ts`, and of `model/nlp_models.ts` the three the daemon makes),
  with the recursive part of `_recordJobCompletion` (`training/daemon.js`).

  A job row names the job it depends on until that one completes: `releaseDependents`
  then takes the name out. Completing a job with an error first completes every job that
  depends on it with an error too, and so on down (`recordJobCompletion`). The recursion
  goes from a job to jobs queued after it, so it ends (`fuel` counts down from the next
  id; `recordJobCompletion_completed` needs no more).

  `makeForAllDevices` names a column that `training_jobs` does not have (`job_id`): the
  database refuses it.

  `Fails jobs jobs'` is what completing a job with an error does to the table, other than
  to the job itself: some rows that had a dependency end with an error and without it, and
  no row is left depending on a row that became an error.
-/

import GenieCloud.Lib.Table
import Mathlib.Tactic.Common

namespace GenieCloud.Training

open GenieCloud.Lib

inductive JobStatus where
  | queued
  | started
  | success
  | error
  deriving DecidableEq, Repr

/-- A row of `training_jobs`, without its id. -/
structure Row where
  dependsOn : Option Nat
  jobType : String
  owner : Option Nat
  language : String
  modelTag : Option String
  allDevices : Bool
  status : JobStatus
  taskIndex : Option Nat
  taskName : Option String
  error : Option String
  startTime : Option Nat
  endTime : Option Nat
  config : Option String
  deriving DecidableEq, Repr

structure DeviceSchema where
  id : Nat
  kind : String
  /-- `approved_version is not null`. -/
  approved : Bool
  deriving DecidableEq, Repr

/-- A row of `models`. Its configuration is a JSON text. -/
structure Model where
  id : Nat
  language : String
  tag : String
  contextual : Bool
  allDevices : Bool
  useApproved : Bool
  config : String
  config_ne : config ≠ ""
  deriving DecidableEq, Repr

/-- The table `models`, with its unique key. -/
structure Models where
  rows : List Model
  unique : rows.Pairwise fun m n => (m.language, m.tag) ≠ (n.language, n.tag)

structure DB where
  trainingJobs : Table Row
  /-- `training_job_for_devices`: a job and a schema. -/
  forDevices : List (Nat × Nat)
  deviceSchema : List DeviceSchema
  models : Models
  /-- `model_devices`: a model and a schema. -/
  modelDevices : List (Nat × Nat)

inductive Err where
  | message (text : String)
  | assertion
  | badField (column table : String)
  | notFound
  | tooManyRows
  deriving DecidableEq, Repr

/-! ## Queries of `model/training_job.ts` -/

def addForDevices (db : DB) (jobId : Nat) (kinds : List String) : DB :=
  let schemas := (db.deviceSchema.filter (·.kind ∈ kinds)).map fun ds => (jobId, ds.id)
  { db with forDevices := db.forDevices ++ schemas.filter fun x => !db.forDevices.contains x }

/-- The new row stands under the old `next` id. -/
def create (db : DB) (job : Row) (kinds : List String) : DB × Nat :=
  let id := db.trainingJobs.next
  (addForDevices { db with trainingJobs := db.trainingJobs.insert job } id kinds, id)

/-- `update training_jobs set all_devices = true where job_id = ?`, after the rows of the
    side table are gone. -/
def makeForAllDevices (_db : DB) (_jobId : Nat) : Except Err DB :=
  .error (.badField "job_id" "training_jobs")

def update (jobs : Table Row) (jobId : Nat) (set : Row → Row) : Table Row :=
  jobs.update (fun i _ => i = jobId) set

def releaseDependents (jobs : Table Row) (jobId : Nat) : Table Row :=
  jobs.update (fun _ r => r.dependsOn = some jobId) fun r => { r with dependsOn := none }

def getDependents (jobs : Table Row) (jobId : Nat) : List (Nat × Row) :=
  jobs.select fun _ r => r.dependsOn = some jobId

def getAllInProgress (jobs : Table Row) : List (Nat × Row) := jobs.select fun _ r => r.status = .started

def getNextJob (jobs : Table Row) (jobType : String) : Option (Nat × Row) :=
  jobs.first? fun _ r => r.status = .queued ∧ r.jobType = jobType ∧ r.dependsOn = none

def getNextOfType (jobs : Table Row) (jobType language : String) (modelTag : Option String) : Option (Nat × Row) :=
  jobs.first? fun _ r => r.status = .queued ∧ r.jobType = jobType ∧ r.language = language ∧ r.modelTag = modelTag

/-- `selectOne` on the rows that `where id = ?` picks out. -/
def getForUpdate (jobs : Table Row) (id : Nat → Bool) : Except Err (Nat × Row) :=
  match jobs.select fun i _ => id i with
  | [] => .error .notFound
  | [r] => .ok r
  | _ => .error .tooManyRows

/-! ## Queries of `model/nlp_models.ts`

A union of one row for each model and device; `loadModels` makes one model of them. -/

/-- The kinds of the devices a model is for. -/
def kindsOf (db : DB) (m : Model) : List String :=
  (db.deviceSchema.filter fun ds => db.modelDevices.contains (m.id, ds.id)).map (·.kind)

def getByTag (db : DB) (language tag : String) : List Model :=
  db.models.rows.filter fun m => m.language = language ∧ m.tag = tag ∧ (m.allDevices ∨ kindsOf db m ≠ [])

def getForLanguage (db : DB) (language : String) : List Model :=
  db.models.rows.filter fun m => m.language = language ∧ (m.allDevices ∨ kindsOf db m ≠ [])

def getForDevices (db : DB) (language : String) (kinds : List String) : List Model :=
  db.models.rows.filter fun m => m.language = language ∧
    (m.allDevices ∧ m.useApproved ∧ (∃ ds ∈ db.deviceSchema, ds.kind ∈ kinds ∧ ds.approved) ∨
      m.allDevices ∧ ¬m.useApproved ∧ (∃ ds ∈ db.deviceSchema, ds.kind ∈ kinds) ∨
      ¬m.allDevices ∧ ∃ kind ∈ kindsOf db m, kind ∈ kinds)

/-! ## Completion -/

/-- What is recorded of a job that ended. -/
structure Outcome where
  status : JobStatus
  error : Option String
  endTime : Option Nat
  deriving DecidableEq, Repr

def Row.complete (r : Row) (o : Outcome) : Row := { r with status := o.status, error := o.error, endTime := o.endTime }

/-- `dep.status = 'error'; dep.error = 'Dependency failed'`. -/
def dependencyFailed (dep : Row) : Outcome := ⟨.error, some "Dependency failed", dep.endTime⟩

/-- The table after `_recordJobCompletion`. The dependents are completed on one
    connection, one after the other. -/
def recordJobCompletion (jobs : Table Row) (id : Nat) (o : Outcome) : Nat → Table Row
  | 0 => releaseDependents (update jobs id (·.complete o)) id
  | fuel + 1 =>
    let jobs := update jobs id (·.complete o)
    let jobs :=
      if o.status = .error then
        (getDependents jobs id).foldl
          (fun jobs dep => recordJobCompletion jobs dep.1 (dependencyFailed dep.2) fuel) jobs
      else jobs
    releaseDependents jobs id

/-- `_recordJobCompletion`. Its mail on an error changes no table. -/
def DB.recordJobCompletion (db : DB) (id : Nat) (o : Outcome) : DB :=
  { db with trainingJobs := Training.recordJobCompletion db.trainingJobs id o db.trainingJobs.next }

/-! ## What a completion does to the rows -/

/-- `r'` is the same job as `r`, at another point of its life. -/
def Row.Same (r r' : Row) : Prop :=
  r' = { r with dependsOn := r'.dependsOn, status := r'.status, error := r'.error, endTime := r'.endTime }

theorem Row.Same.trans {r r' r'' : Row} (h : r.Same r') (h' : r'.Same r'') : r.Same r'' := by
  rw [Row.Same] at h h' ⊢
  rw [h', h]

/-- What becomes of a row when the jobs in `roots` and those that depend on them fail. -/
structure FailsRow (roots : Nat → Prop) (i : Nat) (r r' : Row) : Prop where
  same : r.Same r'
  status : r'.status = r.status ∨ r'.status = .error ∧ (roots i ∨ r.dependsOn ≠ none)
  dependsOn : r'.dependsOn = r.dependsOn ∨ r'.dependsOn = none ∧ r'.status = .error

structure Fails (roots : Nat → Prop) (jobs jobs' : Table Row) : Prop where
  rows : jobs.Rewritten (FailsRow roots) jobs'
  /-- What a row still depends on has not failed here. -/
  closed : ∀ i r' d, jobs'.get? i = some r' → r'.dependsOn = some d →
    ∀ D, jobs.get? d = some D → ∃ D', jobs'.get? d = some D' ∧ D'.status = D.status

theorem FailsRow.refl (roots : Nat → Prop) (i : Nat) (r : Row) : FailsRow roots i r r :=
  ⟨rfl, Or.inl rfl, Or.inl rfl⟩

theorem FailsRow.trans {roots roots' : Nat → Prop} {i : Nat} {r r' r'' : Row} (h : FailsRow roots i r r')
    (h' : FailsRow roots' i r' r'') : FailsRow (fun i => roots i ∨ roots' i) i r r'' := by
  refine ⟨h.same.trans h'.same, ?_, ?_⟩
  · rcases h'.status with hs' | ⟨hs', hd'⟩
    · rcases h.status with hs | ⟨hs, hd⟩
      · exact Or.inl (hs'.trans hs)
      · exact Or.inr ⟨hs'.trans hs, hd.imp_left Or.inl⟩
    · refine Or.inr ⟨hs', ?_⟩
      rcases hd' with hr | hd'
      · exact Or.inl (Or.inr hr)
      · rcases h.dependsOn with hd | hd
        · exact Or.inr (hd ▸ hd')
        · exact absurd hd.1 hd'
  · rcases h'.dependsOn with hd' | hd'
    · rcases h.dependsOn with hd | ⟨hd, hs⟩
      · exact Or.inl (hd'.trans hd)
      · refine Or.inr ⟨hd'.trans hd, ?_⟩
        rcases h'.status with hs' | hs'
        · exact hs'.trans hs
        · exact hs'.1
    · exact Or.inr hd'

theorem Fails.refl (roots : Nat → Prop) (jobs : Table Row) : Fails roots jobs jobs :=
  ⟨Table.Rewritten.refl (FailsRow.refl roots) jobs, fun _ _ _ _ _ D hD => ⟨D, hD, rfl⟩⟩

theorem Fails.trans {roots roots' : Nat → Prop} {jobs jobs' jobs'' : Table Row} (h : Fails roots jobs jobs')
    (h' : Fails roots' jobs' jobs'') : Fails (fun i => roots i ∨ roots' i) jobs jobs'' := by
  refine ⟨h.rows.trans (fun _ _ _ _ => FailsRow.trans) h'.rows, fun i r'' d hr'' hd D hD => ?_⟩
  obtain ⟨r', hr', hf⟩ := h'.rows.back hr''
  have hd' : r'.dependsOn = some d := by
    rcases hf.dependsOn with he | he
    · exact he ▸ hd
    · rw [he.1] at hd; cases hd
  obtain ⟨D', hD', hs⟩ := h.closed i r' d hr' hd' D hD
  obtain ⟨D'', hD'', hs'⟩ := h'.closed i r'' d hr'' hd D' hD'
  exact ⟨D'', hD'', hs'.trans hs⟩

theorem Fails.mono {roots roots' : Nat → Prop} {jobs jobs' : Table Row} (hle : ∀ i, roots i → roots' i)
    (h : Fails roots jobs jobs') : Fails roots' jobs jobs' :=
  ⟨h.rows.mono fun i _ _ hf => ⟨hf.same, hf.status.imp_right (And.imp_right (Or.imp_left (hle i))), hf.dependsOn⟩, h.closed⟩

/-- A job depends on one queued before it. -/
def Acyclic (jobs : Table Row) : Prop := ∀ i r d, jobs.get? i = some r → r.dependsOn = some d → d < i

theorem Acyclic.fails {roots : Nat → Prop} {jobs jobs' : Table Row} (h : Acyclic jobs) (hf : Fails roots jobs jobs') :
    Acyclic jobs' := by
  intro i r' d hr' hd
  obtain ⟨r, hr, hrow⟩ := hf.rows.back hr'
  rcases hrow.dependsOn with he | he
  · exact h i r d hr (he ▸ hd)
  · rw [he.1] at hd; cases hd

theorem Acyclic.complete {jobs : Table Row} (h : Acyclic jobs) (id : Nat) (o : Outcome) :
    Acyclic (update jobs id (·.complete o)) := by
  intro i r d hr hd
  rw [update, Table.get?_update] at hr
  obtain ⟨r0, hr0, rfl⟩ := Option.map_eq_some_iff.mp hr
  refine h i r0 d hr0 ?_
  split at hd <;> exact hd

/-- A job has failed, and every job that depended on it. -/
structure Completed (id : Nat) (jobs jobs' : Table Row) : Prop where
  fails : Fails (· = id) jobs jobs'
  failed : ∀ r', jobs'.get? id = some r' → r'.status = .error
  released : ∀ i r', jobs'.get? i = some r' → r'.dependsOn ≠ some id

theorem failsRow_release {roots : Nat → Prop} {i id : Nat} {r r' : Row} {o : Outcome} (ho : o.status = .error)
    (h : FailsRow roots i (if i = id then r.complete o else r) r') (hroots : roots i → r.dependsOn ≠ none)
    (hdeps : r'.dependsOn = some id → r'.status = .error) :
    FailsRow (· = id) i r (if r'.dependsOn = some id then { r' with dependsOn := none } else r') := by
  have hsame : r.Same (if i = id then r.complete o else r) := by
    split <;> rfl
  have hdep : (if i = id then r.complete o else r).dependsOn = r.dependsOn := by
    split <;> rfl
  have hsame' : r.Same r' := hsame.trans h.same
  have hstatus : r'.status = r.status ∨ r'.status = .error ∧ (i = id ∨ r.dependsOn ≠ none) := by
    rcases h.status with hs | ⟨hs, hd⟩
    · by_cases hi : i = id
      · rw [if_pos hi] at hs
        exact Or.inr ⟨hs.trans ho, Or.inl hi⟩
      · rw [if_neg hi] at hs
        exact Or.inl hs
    · exact Or.inr ⟨hs, Or.inr (hd.elim hroots (hdep ▸ ·))⟩
  split
  · rename_i hd
    exact ⟨hsame'.trans rfl, hstatus, Or.inr ⟨rfl, hdeps hd⟩⟩
  · exact ⟨hsame', hstatus, hdep ▸ h.dependsOn⟩

/-- The end of a completion with an error, once every dependent has failed. -/
theorem completed_release {roots : Nat → Prop} {jobs jobs' : Table Row} {id : Nat} {o : Outcome} (ho : o.status = .error)
    (hf : Fails roots (update jobs id (·.complete o)) jobs')
    (hroots : ∀ i r, roots i → jobs.get? i = some r → r.dependsOn ≠ none)
    (hdeps : ∀ i r', jobs'.get? i = some r' → r'.dependsOn = some id → r'.status = .error) :
    Completed id jobs (releaseDependents jobs' id) := by
  have hset : jobs.Rewritten (fun i r r' => r' = if i = id then r.complete o else r) (update jobs id (·.complete o)) :=
    Table.Rewritten.update (fun i r hi => by simp only [of_decide_eq_true hi, if_true])
      (fun i r hi => by simp only [of_decide_eq_false hi, if_false]) jobs
  have hrel : jobs'.Rewritten (fun _ r r' => r' = if r.dependsOn = some id then { r with dependsOn := none } else r)
      (releaseDependents jobs' id) :=
    Table.Rewritten.update (fun i r hi => by simp only [of_decide_eq_true hi, if_true])
      (fun i r hi => by simp only [of_decide_eq_false hi, if_false]) jobs'
  refine ⟨⟨⟨hrel.next.trans (hf.rows.next.trans hset.next), fun i hi => ?_, fun i r hr => ?_⟩, ?_⟩, ?_, ?_⟩
  · exact hrel.none i (hf.rows.none i (hset.none i hi))
  · obtain ⟨r1, hr1, rfl⟩ := hset.some i r hr
    obtain ⟨r', hr', hrow⟩ := hf.rows.some i _ hr1
    obtain ⟨r'', hr'', rfl⟩ := hrel.some i r' hr'
    exact ⟨_, hr'', failsRow_release ho hrow (fun hi => hroots i r hi hr) (hdeps i r' hr')⟩
  · intro i r'' d hr'' hd D hD
    obtain ⟨r', hr', rfl⟩ := hrel.back hr''
    have hne : r'.dependsOn ≠ some id := by
      intro he; rw [if_pos he] at hd; cases hd
    rw [if_neg hne] at hd
    obtain ⟨D1, hD1, rfl⟩ := hset.some d D hD
    have hdid : d ≠ id := fun he => hne (he ▸ hd)
    rw [if_neg hdid] at hD1
    obtain ⟨D', hD', hs⟩ := hf.closed i r' d hr' hd D hD1
    obtain ⟨D'', hD'', rfl⟩ := hrel.some d D' hD'
    refine ⟨_, hD'', ?_⟩
    split <;> exact hs
  · intro r'' hr''
    obtain ⟨r', hr', rfl⟩ := hrel.back hr''
    obtain ⟨r1, hr1, hrow⟩ := hf.rows.back hr'
    obtain ⟨r, hr, rfl⟩ := hset.back hr1
    rw [if_pos rfl] at hrow
    have : r'.status = .error := by
      rcases hrow.status with hs | hs
      · exact hs.trans ho
      · exact hs.1
    split <;> exact this
  · intro i r'' hr''
    obtain ⟨r', hr', rfl⟩ := hrel.back hr''
    split
    · exact nofun
    · assumption

/-- Completing one dependent after another, each of which fails. -/
theorem foldl_fails (bound : Nat) {f : Table Row → Nat × Row → Table Row} {L : List (Nat × Row)}
    (hf : ∀ jobs, Acyclic jobs → jobs.next = bound → ∀ dep ∈ L, Completed dep.1 jobs (f jobs dep))
    {jobs : Table Row} (ha : Acyclic jobs) (hb : jobs.next = bound) :
    Fails (fun i => ∃ dep ∈ L, dep.1 = i) jobs (L.foldl f jobs) ∧
      ∀ dep ∈ L, ∀ r', (L.foldl f jobs).get? dep.1 = some r' → r'.status = .error := by
  induction L generalizing jobs with
  | nil => exact ⟨Fails.refl _ _, fun _ h => absurd h List.not_mem_nil⟩
  | cons dep L ih =>
    have hc := hf jobs ha hb dep List.mem_cons_self
    obtain ⟨hF, hE⟩ := ih (fun jobs ha hb d hd => hf jobs ha hb d (List.mem_cons_of_mem _ hd))
      (ha.fails hc.fails) (hc.fails.rows.next.trans hb)
    rw [List.foldl_cons]
    refine ⟨(hc.fails.trans hF).mono ?_, ?_⟩
    · rintro i (rfl | ⟨d, hd, rfl⟩)
      · exact ⟨dep, List.mem_cons_self, rfl⟩
      · exact ⟨d, List.mem_cons_of_mem _ hd, rfl⟩
    · intro d hd r' hr'
      rcases List.mem_cons.mp hd with rfl | hd
      · obtain ⟨r1, hr1, hrow⟩ := hF.rows.back hr'
        rcases hrow.status with hs | hs
        · exact hs.trans (hc.failed r1 hr1)
        · exact hs.1
      · exact hE d hd r' hr'

/-- `_recordJobCompletion` with an error, at any depth: the job and whatever depends on it
    fail, and the recursion ends by itself. -/
theorem recordJobCompletion_completed {fuel : Nat} {jobs : Table Row} {id : Nat} {o : Outcome} (ha : Acyclic jobs)
    (hfuel : jobs.next ≤ fuel + id + 1) (ho : o.status = .error) :
    Completed id jobs (recordJobCompletion jobs id o fuel) := by
  induction fuel generalizing jobs id o with
  | zero =>
    refine completed_release ho (Fails.refl (fun _ => False) _) (fun _ _ h => h.elim) fun i r' hr' hd => ?_
    -- no row stands after the job, so none depends on it
    have h1 := ha.complete id o i r' id hr' hd
    have h2 := Table.lt_next hr'
    rw [update, Table.next_update] at h2
    omega
  | succ fuel ih =>
    simp only [recordJobCompletion, ho, if_true]
    have hdep : ∀ dep ∈ getDependents (update jobs id (·.complete o)) id,
        (update jobs id (·.complete o)).get? dep.1 = some dep.2 ∧ dep.2.dependsOn = some id := by
      intro dep hdep
      obtain ⟨hd, hp⟩ := Table.mem_select.mp hdep
      exact ⟨hd, of_decide_eq_true hp⟩
    obtain ⟨hF, hE⟩ := foldl_fails jobs.next (L := getDependents (update jobs id (·.complete o)) id)
      (f := fun jobs dep => recordJobCompletion jobs dep.1 (dependencyFailed dep.2) fuel) (fun jobs' ha' hb dep hd => by
        obtain ⟨hr, hid⟩ := hdep dep hd
        have := ha.complete id o _ _ _ hr hid
        exact ih ha' (by omega) rfl) (ha.complete id o) rfl
    refine completed_release ho hF ?_ ?_
    · rintro i r ⟨dep, hd, rfl⟩ hr
      obtain ⟨hr1, hid⟩ := hdep dep hd
      rw [update, Table.get?_update, hr] at hr1
      intro hn
      rw [← Option.some.inj hr1] at hid
      dsimp only at hid
      split at hid <;> exact absurd (hn.symm.trans hid) (by simp)
    · intro i r' hr' hd
      obtain ⟨r1, hr1, hrow⟩ := hF.rows.back hr'
      have hd1 : r1.dependsOn = some id := by
        rcases hrow.dependsOn with he | he
        · exact he ▸ hd
        · rw [he.1] at hd; cases hd
      exact hE (i, r1) (Table.mem_select.mpr ⟨hr1, decide_eq_true hd1⟩) r' hr'

/-- With success only the dependents are released. -/
theorem recordJobCompletion_success {fuel : Nat} (jobs : Table Row) (id : Nat) {o : Outcome} (ho : o.status ≠ .error) :
    recordJobCompletion jobs id o fuel = releaseDependents (update jobs id (·.complete o)) id := by
  cases fuel with
  | zero => rfl
  | succ fuel => simp only [recordJobCompletion, ho, if_false]

end GenieCloud.Training
