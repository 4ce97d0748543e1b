/-
  GenieCloud.Training.Daemon — the training daemon as it runs (`training/daemon.js`,
  `training/training_job.js`).

  For each type of job the daemon has one slot (`_currentJobs`). `startNextJob` puts the
  oldest eligible job in the slot and marks its row started; the job then goes through its
  tasks; `jobComplete` frees the slot at once and records the end of the job in a
  transaction of its own, so between the two the job is in neither (`completing`). A kill
  signals the job in the slot when the id of the request is the very number, and records
  an error in the row otherwise. Every transaction is one event, for it locks the rows it
  reads.

  A failed write ends the process unless somebody catches it: a failed start does, a
  failed record of an error does, a failed record of a success goes to `fail`, which finds
  the slot free and returns. After a restart the jobs found started are failed.

  - `step_cases`: what a step does, said once.
  - `Inv`: a row that waits is queued or failed, and waits for a queued or started one; a
    job in a slot or completing has a row that waits for nothing, started or failed.
  - `Doomed`: a job that cannot succeed any more; `Doomed.step` keeps it so.
-/

import GenieCloud.Training.Schedule
import GenieCloud.Lib.Objects
import GenieCloud.Lib.Runs

namespace GenieCloud.Training

open GenieCloud.Lib GenieCloud.Lib.Runs

/-- A `Job`: its row as the daemon has it, and how far it got. -/
structure Job where
  id : Nat
  data : Row
  killed : Bool
  /-- The tasks it has been through. -/
  index : Nat
  /-- In a task, not at the head of the loop. -/
  running : Bool
  deriving DecidableEq, Repr

structure St where
  db : DB
  currentJobs : String → Option Job
  /-- By id, the jobs out of their slot whose end is not recorded yet. -/
  completing : Nat → Option Job
  exited : Bool
  /-- Every job queued with a dependency so far, and the dependency. -/
  created : List (Nat × Nat)

/-- The id in the body of a kill request: a number, or anything else, which the query may
    still turn into a condition on the ids. -/
inductive RequestId where
  | number (n : Nat)
  | other (selects : Nat → Bool)

def RequestId.selects : RequestId → Nat → Bool
  | .number n, i => i = n
  | .other selects, i => selects i

/-- `=== id`. -/
def RequestId.is : RequestId → Nat → Bool
  | .number n, i => i = n
  | .other _, _ => false

/-- Where a transaction fails, if it does. -/
inductive Fault where
  | none
  | query
  | commit
  deriving DecidableEq, Repr

/-- A failed write carries the message of its error. -/
inductive Ev where
  | restart (failed : Bool)
  | exit
  | scheduleJob (jobTemplate : JobTemplate) (failed : Bool)
  | killJob (id : RequestId) (fault : Fault)
  | startNextJob (jobType : String) (now : Nat) (failed : Bool)
  /-- The head of the loop over the tasks. -/
  | doRun (jobType : String) (now : Nat) (failed : Option String)
  /-- A task has ended, with an error or not. -/
  | taskEnded (jobType : String) (now : Nat) (error : Option String)
  /-- The transaction of `jobComplete`. -/
  | record (id : Nat) (now : Nat) (failed : Option String)
  /-- The other processes write the other tables. -/
  | edit (deviceSchema : List DeviceSchema) (models : Models) (modelDevices : List (Nat × Nat))

/-! ## The operations -/

def Row.outcome (r : Row) : Outcome := ⟨r.status, r.error, r.endTime⟩

/-- The process ends; whatever it was doing is gone. -/
def exit (s : St) : St := { s with currentJobs := fun _ => none, completing := fun _ => none, exited := true }

/-- `jobComplete` up to its transaction. -/
def jobComplete (s : St) (job : Job) : St :=
  match s.currentJobs job.data.jobType with
  | some current =>
    if current.id = job.id then
      { s with
        currentJobs := Function.update s.currentJobs job.data.jobType none
        completing := Function.update s.completing job.id (some job) }
    else s
  | none => s

def complete (s : St) (job : Job) (now : Nat) : St :=
  jobComplete s { job with data := { job.data with endTime := some now } }

def fail (s : St) (job : Job) (error : String) (now : Nat) : St :=
  complete s { job with data := { job.data with status := .error, error := some error } } now

def checkExistingJobs (db : DB) : DB :=
  (getAllInProgress db.trainingJobs).foldl (fun db job =>
    db.recordJobCompletion job.1 ⟨.error, some "Master process failed", job.2.endTime⟩) db

/-- The rows a request has queued with a dependency. -/
def newDependents (db db' : DB) : List (Nat × Nat) :=
  db'.trainingJobs.rows.filterMap fun r => if db.trainingJobs.next ≤ r.1 then r.2.dependsOn.map (r.1, ·) else none

/-- The job a kill of the row `r` signals, if it signals one. -/
def signalled (s : St) (id : RequestId) (r : Row) : Option Job :=
  if r.status = .started then (s.currentJobs r.jobType).filter fun job => id.is job.id else none

def killJob (s : St) (id : RequestId) (fault : Fault) : St :=
  if fault = .query then s
  else
    match getForUpdate s.db.trainingJobs id.selects with
    | .error _ => s
    | .ok (i, r) =>
      match signalled s id r with
      | some job => { s with currentJobs := Function.update s.currentJobs r.jobType (some { job with killed := true }) }
      | none =>
        if fault = .commit then s
        else { s with db := s.db.recordJobCompletion i ⟨.error, some "Killed", r.endTime⟩ }

def startNextJob (s : St) (jobType : String) (now : Nat) (failed : Bool) : St :=
  match s.currentJobs jobType with
  | some _ => s
  | none =>
    if failed then exit s
    else
      match getNextJob s.db.trainingJobs jobType with
      | none => s
      | some (i, next) =>
        let start := fun (r : Row) => { r with status := .started, startTime := some now }
        { s with
          currentJobs := Function.update s.currentJobs jobType (some ⟨i, start next, false, 0, false⟩)
          db := { s.db with trainingJobs := update s.db.trainingJobs i start } }

def allTasks (jobType : String) : List String := (jobSpecs.lookup jobType).getD []

def doRun (s : St) (job : Job) (now : Nat) (failed : Option String) : St :=
  if job.killed then fail s job "Killed" now
  else
    match (allTasks job.data.jobType)[job.index]? with
    | none => complete s { job with data := { job.data with status := .success } } now
    | some taskName =>
      match failed with
      | some error => fail s job error now
      | none =>
        let save := fun (r : Row) => { r with taskIndex := some job.index, taskName := some taskName }
        { s with
          currentJobs := Function.update s.currentJobs job.data.jobType
            (some { job with data := save job.data, running := true })
          db := { s.db with trainingJobs := update s.db.trainingJobs job.id save } }

def taskEnded (s : St) (job : Job) (now : Nat) : Option String → St
  | some error => fail s job error now
  | none =>
    { s with
      currentJobs := Function.update s.currentJobs job.data.jobType
        (some { job with index := job.index + 1, running := false }) }

/-- The transaction of `jobComplete`. `fail` catches what a success throws, and nobody
    what `fail` throws. -/
def record (s : St) (job : Job) (now : Nat) (failed : Option String) : St :=
  let s := { s with completing := Function.update s.completing job.id none }
  match failed with
  | none => { s with db := s.db.recordJobCompletion job.id job.data.outcome }
  | some error => if job.data.status = .success then fail s job error now else exit s

def step (s : St) : Ev → Option St
  | .edit deviceSchema models modelDevices =>
    let forDevices := s.db.forDevices.filter fun x => x.2 ∈ deviceSchema.map (·.id)
    some { s with db := { s.db with forDevices, deviceSchema, models, modelDevices } }
  | .restart failed =>
    if s.exited = false then none
    else if failed then some s
    else some { s with db := checkExistingJobs s.db, exited := false }
  | .exit => if s.exited then none else some (exit s)
  | .scheduleJob jobTemplate failed =>
    if s.exited then none
    else if failed then some s
    else
      match scheduleJob s.db jobTemplate with
      | .error _ => some s
      | .ok db => some { s with db := db, created := s.created ++ newDependents s.db db }
  | .killJob id fault => if s.exited then none else some (killJob s id fault)
  | .startNextJob jobType now failed =>
    if s.exited ∨ jobType ∉ jobTypes then none else some (startNextJob s jobType now failed)
  | .doRun jobType now failed => (s.currentJobs jobType).bind fun job =>
      if job.running then none else some (doRun s job now failed)
  | .taskEnded jobType now error => (s.currentJobs jobType).bind fun job =>
      if job.running then some (taskEnded s job now error) else none
  | .record id now failed => (s.completing id).map fun job => record s job now failed

/-- No job was ever queued, and the process is about to start. -/
def initial (s : St) : Prop :=
  s.db.trainingJobs = Table.empty ∧ s.db.forDevices = [] ∧ s.currentJobs = (fun _ => none) ∧
    s.completing = (fun _ => none) ∧ s.exited = true ∧ s.created = []

def sys : System St Ev where
  init := initial
  step := step

/-- The process about to start on a database without jobs. -/
def start (db : DB) : St := ⟨db, fun _ => none, fun _ => none, true, []⟩

/-! ## What happens to the rows -/

def status (jobs : Table Row) (i : Nat) : Option JobStatus := (jobs.get? i).map (·.status)

/-- A job that has left the queue and may still be running. -/
def Live (jobs : Table Row) (i : Nat) (jobType : String) : Prop :=
  ∃ r, jobs.get? i = some r ∧ r.jobType = jobType ∧ r.dependsOn = none ∧ (r.status = .started ∨ r.status = .error)

/-- What a row waits for is before it and has not ended, and the row has not started. -/
structure Waits (jobs : Table Row) : Prop where
  acyclic : Acyclic jobs
  waiting : ∀ i r d, jobs.get? i = some r → r.dependsOn = some d → (r.status = .queued ∨ r.status = .error) ∧
    (status jobs d = some .queued ∨ status jobs d = some .started)

variable {jobs jobs' : Table Row} {i id : Nat} {jobType : String}

theorem status_eq {r : Row} (h : jobs.get? i = some r) : status jobs i = some r.status := by
  rw [status, h]; rfl

theorem status_some {x : JobStatus} (h : status jobs i = some x) : ∃ r, jobs.get? i = some r ∧ r.status = x :=
  Option.map_eq_some_iff.mp h

theorem get?_set (jobs : Table Row) (id : Nat) (f : Row → Row) (i : Nat) :
    (update jobs id f).get? i = if i = id then (jobs.get? i).map f else jobs.get? i := by
  rw [update, Table.get?_update]
  by_cases hi : i = id
  · simp only [hi, decide_true, if_true]
  · simp only [hi, decide_false, Bool.false_eq_true, if_false, Option.map_id']

theorem Live.not_waiting (h : Live jobs i jobType) {r : Row} (hr : jobs.get? i = some r) :
    r.dependsOn = none ∧ r.status ≠ .success ∧ r.status ≠ .queued := by
  obtain ⟨r', hr', -, hd, hs⟩ := h
  rw [hr] at hr'
  obtain rfl := Option.some.inj hr'
  refine ⟨hd, ?_, ?_⟩ <;> rcases hs with hs | hs <;> simp [hs]

theorem Live.jobType_eq {jobType' : String} (h : Live jobs i jobType) (h' : Live jobs i jobType') : jobType = jobType' := by
  obtain ⟨r, hr, rfl, -⟩ := h
  obtain ⟨r', hr', rfl, -⟩ := h'
  rw [hr] at hr'
  rw [Option.some.inj hr']

theorem Live.fails {roots : Nat → Prop} (h : Live jobs i jobType) (hf : Fails roots jobs jobs') : Live jobs' i jobType := by
  obtain ⟨r, hr, ht, hd, hs⟩ := h
  obtain ⟨r', hr', hrow⟩ := hf.rows.some i r hr
  refine ⟨r', hr', ?_, ?_, ?_⟩
  · rw [hrow.same]; exact ht
  · rcases hrow.dependsOn with he | he
    · exact he.trans hd
    · exact he.1
  · rcases hrow.status with he | he
    · exact he ▸ hs
    · exact Or.inr he.1

theorem Waits.fails {roots : Nat → Prop} (h : Waits jobs) (hf : Fails roots jobs jobs') : Waits jobs' := by
  refine ⟨h.acyclic.fails hf, fun i r' d hr' hd => ?_⟩
  obtain ⟨r, hr, hrow⟩ := hf.rows.back hr'
  have hd0 : r.dependsOn = some d := by
    rcases hrow.dependsOn with he | he
    · exact he ▸ hd
    · rw [he.1] at hd; cases hd
  obtain ⟨hs, hD⟩ := h.waiting i r d hr hd0
  refine ⟨?_, ?_⟩
  · rcases hrow.status with he | he
    · exact he ▸ hs
    · exact Or.inr he.1
  · have hsame : ∀ x, status jobs d = some x → status jobs' d = some x := by
      intro x hx
      obtain ⟨D, hD, rfl⟩ := status_some hx
      obtain ⟨D', hD', hs'⟩ := hf.closed i r' d hr' hd D hD
      rw [status_eq hD', hs']
    exact hD.imp (hsame _) (hsame _)

/-- The table after a success is recorded. -/
def succeed (jobs : Table Row) (id : Nat) (o : Outcome) : Table Row :=
  releaseDependents (update jobs id (·.complete o)) id

theorem get?_succeed (jobs : Table Row) (id : Nat) (o : Outcome) (i : Nat) :
    (succeed jobs id o).get? i =
      ((if i = id then (jobs.get? i).map (·.complete o) else jobs.get? i).map fun r =>
        if r.dependsOn = some id then { r with dependsOn := none } else r) := by
  rw [succeed, releaseDependents, Table.get?_update, get?_set]
  simp only [decide_eq_true_eq]

theorem Live.succeed {o : Outcome} (h : Live jobs i jobType) (hi : i ≠ id) : Live (succeed jobs id o) i jobType := by
  obtain ⟨r, hr, ht, hd, hs⟩ := h
  refine ⟨r, ?_, ht, hd, hs⟩
  rw [get?_succeed, if_neg hi, hr, Option.map_some, if_neg (by rw [hd]; nofun)]

theorem Waits.succeed {o : Outcome} (h : Waits jobs) (hid : Live jobs id jobType) : Waits (succeed jobs id o) := by
  have hrow : ∀ i r' d, (Training.succeed jobs id o).get? i = some r' → r'.dependsOn = some d →
      jobs.get? i = some r' ∧ i ≠ id ∧ d ≠ id := by
    intro i r' d hr' hd
    rw [get?_succeed] at hr'
    obtain ⟨r, hr, rfl⟩ := Option.map_eq_some_iff.mp hr'
    split at hd
    · cases hd
    · rename_i hne
      rw [if_neg hne]
      by_cases hi : i = id
      · rw [if_pos hi] at hr
        obtain ⟨r0, hr0, rfl⟩ := Option.map_eq_some_iff.mp hr
        have := (hid.not_waiting (hi ▸ hr0)).1
        rw [show (r0.complete o).dependsOn = r0.dependsOn from rfl, this] at hd
        cases hd
      · rw [if_neg hi] at hr
        exact ⟨hr, hi, fun he => hne (he ▸ hd)⟩
  refine ⟨fun i r' d hr' hd => h.acyclic i r' d (hrow i r' d hr' hd).1 hd, fun i r' d hr' hd => ?_⟩
  obtain ⟨hr, hi, hdid⟩ := hrow i r' d hr' hd
  obtain ⟨hs, hD⟩ := h.waiting i r' d hr hd
  refine ⟨hs, ?_⟩
  have hsame : status (Training.succeed jobs id o) d = status jobs d := by
    rw [status, status, get?_succeed, if_neg hdid, Option.map_map]
    congr 1
    funext r
    simp only [Function.comp]
    split <;> rfl
  rw [hsame]
  exact hD

theorem Live.extends {db db' : DB} (h : Live db.trainingJobs i jobType) (he : Extends db db') :
    Live db'.trainingJobs i jobType := by
  obtain ⟨r, hr, ht, hd, hs⟩ := h
  obtain ⟨config, hr'⟩ := he.old i r hr
  exact ⟨_, hr', ht, hd, hs⟩

theorem Extends.status_eq {db db' : DB} (he : Extends db db') {x : JobStatus} (h : status db.trainingJobs i = some x) :
    status db'.trainingJobs i = some x := by
  obtain ⟨r, hr, rfl⟩ := status_some h
  obtain ⟨config, hr'⟩ := he.old i r hr
  rw [status, hr']; rfl

theorem Waits.extends {db db' : DB} (h : Waits db.trainingJobs) (he : Extends db db') : Waits db'.trainingJobs := by
  have hboth : ∀ i r' d, db'.trainingJobs.get? i = some r' → r'.dependsOn = some d →
      d < i ∧ (r'.status = .queued ∨ r'.status = .error) ∧
        (status db'.trainingJobs d = some .queued ∨ status db'.trainingJobs d = some .started) := by
    intro i r' d hr' hd
    cases hr : db.trainingJobs.get? i with
    | none =>
      obtain ⟨-, hs, hdep⟩ := he.new i r' hr' hr
      obtain ⟨hlt, D, hD, hDs⟩ := hdep d hd
      exact ⟨hlt, Or.inl hs, Or.inl (by rw [Training.status_eq hD, hDs])⟩
    | some r =>
      obtain ⟨config, hc⟩ := he.old i r hr
      rw [hc] at hr'
      obtain rfl := Option.some.inj hr'
      obtain ⟨hs, hD⟩ := h.waiting i r d hr hd
      exact ⟨h.acyclic i r d hr hd, hs, hD.imp he.status_eq he.status_eq⟩
  exact ⟨fun i r' d hr' hd => (hboth i r' d hr' hd).1, fun i r' d hr' hd => (hboth i r' d hr' hd).2⟩

/-- A job starts. -/
theorem Live.started {f : Row → Row} (h : Live jobs i jobType) (hi : status jobs id = some .queued) :
    Live (update jobs id f) i jobType := by
  obtain ⟨r, hr, ht, hd, hs⟩ := h
  refine ⟨r, ?_, ht, hd, hs⟩
  rw [get?_set, if_neg, hr]
  rintro rfl
  rw [Training.status_eq hr] at hi
  rcases hs with hs | hs <;> rw [hs] at hi <;> cases hi

theorem Waits.started {f : Row → Row} {next : Row} (h : Waits jobs) (hr : jobs.get? id = some next)
    (hq : next.dependsOn = none) (hf : (f next).dependsOn = next.dependsOn ∧ (f next).status = .started) :
    Waits (update jobs id f) := by
  have hrow : ∀ i r' d, (update jobs id f).get? i = some r' → r'.dependsOn = some d → jobs.get? i = some r' := by
    intro i r' d hr' hd
    rw [get?_set] at hr'
    split at hr'
    · rename_i hi
      rw [hi, hr] at hr'
      obtain rfl := Option.some.inj hr'
      rw [hf.1, hq] at hd
      cases hd
    · exact hr'
  refine ⟨fun i r' d hr' hd => h.acyclic i r' d (hrow i r' d hr' hd) hd, fun i r' d hr' hd => ?_⟩
  obtain ⟨hs, hD⟩ := h.waiting i r' d (hrow i r' d hr' hd) hd
  refine ⟨hs, ?_⟩
  rw [status, get?_set]
  split
  · rename_i hi
    rw [hi, hr]
    exact Or.inr (congrArg some hf.2)
  · exact hD

def Row.Ran (r r' : Row) : Prop := r' = { r with taskIndex := r'.taskIndex, taskName := r'.taskName }

/-- A running job says where it is. -/
def Saved (jobs jobs' : Table Row) : Prop := jobs.Rewritten (fun _ => Row.Ran) jobs'

theorem Saved.refl (jobs : Table Row) : Saved jobs jobs := by
  refine ⟨rfl, fun _ hi => hi, fun i r hr => ⟨r, hr, rfl⟩⟩

theorem Saved.status_eq (h : Saved jobs jobs') (i : Nat) : status jobs' i = status jobs i := by
  cases hr : jobs.get? i with
  | none => rw [status, status, hr, h.none i hr]
  | some r =>
    obtain ⟨r', hr', he⟩ := h.some i r hr
    rw [Training.status_eq hr, Training.status_eq hr', he]

theorem Live.saved (h : Live jobs i jobType) (hs : Saved jobs jobs') : Live jobs' i jobType := by
  obtain ⟨r, hr, ht, hd, hst⟩ := h
  obtain ⟨r', hr', he⟩ := hs.some i r hr
  refine ⟨r', hr', ?_, ?_, ?_⟩ <;> rw [he]
  · exact ht
  · exact hd
  · exact hst

theorem Waits.saved (h : Waits jobs) (hs : Saved jobs jobs') : Waits jobs' := by
  refine ⟨fun i r' d hr' hd => ?_, fun i r' d hr' hd => ?_⟩
  · obtain ⟨r, hr, he⟩ := hs.back hr'
    rw [he] at hd
    exact h.acyclic i r d hr hd
  · obtain ⟨r, hr, he⟩ := hs.back hr'
    rw [he] at hd ⊢
    simp only [hs.status_eq]
    exact h.waiting i r d hr hd

/-! ## The invariant -/

structure Inv (s : St) : Prop where
  waits : Waits s.db.trainingJobs
  slot : ∀ jobType job, s.currentJobs jobType = some job →
    job.data.jobType = jobType ∧ job.data.status = .started ∧ Live s.db.trainingJobs job.id jobType
  completing : ∀ i job, s.completing i = some job →
    job.id = i ∧ Live s.db.trainingJobs i job.data.jobType ∧ (job.data.status = .success ∨ job.data.status = .error)
  /-- A job leaves its slot when it completes. -/
  apart : ∀ jobType job, s.currentJobs jobType = some job → s.completing job.id = none
  exited : s.exited = true → (∀ jobType, s.currentJobs jobType = none) ∧ ∀ i, s.completing i = none

/-- What a step can do. -/
inductive Moves (s : St) : Ev → St → Prop
  | idle (e : Ev) : Moves s e s
  | edited {deviceSchema : List DeviceSchema} {models : Models} {modelDevices : List (Nat × Nat)} {db : DB} :
    db.trainingJobs = s.db.trainingJobs → Moves s (.edit deviceSchema models modelDevices) { s with db := db }
  | restarted {db : DB} : s.exited = true →
    Fails (fun i => status s.db.trainingJobs i = some .started) s.db.trainingJobs db.trainingJobs →
    (∀ i, status db.trainingJobs i ≠ some .started) →
    Moves s (.restart false) { s with db := db, exited := false }
  | exited (e : Ev) : Moves s e (exit s)
  | scheduled {t : JobTemplate} {db : DB} : scheduleJob s.db t = .ok db → Extends s.db db →
    Moves s (.scheduleJob t false) { s with db := db, created := s.created ++ newDependents s.db db }
  | signalled {id : RequestId} {fault : Fault} {i : Nat} {r : Row} {job : Job} :
    getForUpdate s.db.trainingJobs id.selects = .ok (i, r) → s.currentJobs r.jobType = some job →
    Moves s (.killJob id fault)
      { s with currentJobs := Function.update s.currentJobs r.jobType (some { job with killed := true }) }
  | killed {id : RequestId} {i : Nat} {r : Row} {db : DB} : s.exited = false →
    getForUpdate s.db.trainingJobs id.selects = .ok (i, r) → Training.signalled s id r = none →
    Completed i s.db.trainingJobs db.trainingJobs → Moves s (.killJob id .none) { s with db := db }
  | started {jobType : String} {now id : Nat} {next : Row} {f : Row → Row} : s.exited = false →
    s.currentJobs jobType = none → s.db.trainingJobs.get? id = some next → next.status = .queued →
    next.jobType = jobType → next.dependsOn = none →
    (f next).status = .started ∧ (f next).jobType = next.jobType ∧ (f next).dependsOn = next.dependsOn →
    Moves s (.startNextJob jobType now false)
      { s with
        currentJobs := Function.update s.currentJobs jobType (some ⟨id, f next, false, 0, false⟩)
        db := { s.db with trainingJobs := update s.db.trainingJobs id f } }
  | ran {e : Ev} {jobType : String} {job job' : Job} {jobs : Table Row} : s.currentJobs jobType = some job →
    job'.id = job.id → job'.killed = job.killed → job'.data.jobType = job.data.jobType →
    job'.data.status = job.data.status → Saved s.db.trainingJobs jobs →
    Moves s e
      { s with
        currentJobs := Function.update s.currentJobs jobType (some job')
        db := { s.db with trainingJobs := jobs } }
  | completed {e : Ev} {jobType : String} {job job' : Job} : s.currentJobs jobType = some job → job'.id = job.id →
    job'.data.jobType = jobType → (job'.data.status = .error ∨ job'.data.status = .success ∧ job.killed = false) →
    Moves s e
      { s with
        currentJobs := Function.update s.currentJobs jobType none
        completing := Function.update s.completing job.id (some job') }
  | failed {id now : Nat} {job : Job} {db : DB} : s.completing id = some job → job.data.status = .error →
    Completed id s.db.trainingJobs db.trainingJobs →
    Moves s (.record id now none) { s with db := db, completing := Function.update s.completing id none }
  | succeeded {id now : Nat} {job : Job} : s.completing id = some job → job.data.status = .success →
    Moves s (.record id now none)
      { s with
        db := { s.db with trainingJobs := succeed s.db.trainingJobs id job.data.outcome }
        completing := Function.update s.completing id none }
  | dropped {id now : Nat} {job : Job} {error : String} : s.completing id = some job → job.data.status = .success →
    Moves s (.record id now (some error)) { s with completing := Function.update s.completing id none }

theorem recordJobCompletion_error {db : DB} (ha : Acyclic db.trainingJobs) (id : Nat) {o : Outcome} (ho : o.status = .error) :
    Completed id db.trainingJobs (db.recordJobCompletion id o).trainingJobs :=
  recordJobCompletion_completed ha (by omega) ho

/-- Nobody is started after the jobs found started have failed. -/
theorem checkExistingJobs_fails {db : DB} (ha : Acyclic db.trainingJobs) :
    Fails (fun i => status db.trainingJobs i = some .started) db.trainingJobs (checkExistingJobs db).trainingJobs ∧
      ∀ i, status (checkExistingJobs db).trainingJobs i ≠ some .started := by
  let f := fun (jobs : Table Row) (job : Nat × Row) =>
    recordJobCompletion jobs job.1 ⟨.error, some "Master process failed", job.2.endTime⟩ jobs.next
  have hfold : ∀ (L : List (Nat × Row)) (db : DB), (L.foldl (fun db job =>
      db.recordJobCompletion job.1 ⟨.error, some "Master process failed", job.2.endTime⟩) db).trainingJobs =
        L.foldl f db.trainingJobs := by
    intro L
    induction L with
    | nil => intro db; rfl
    | cons job L ih => intro db; exact ih _
  rw [checkExistingJobs, hfold]
  obtain ⟨hF, hE⟩ := foldl_fails db.trainingJobs.next (L := getAllInProgress db.trainingJobs) (f := f)
    (fun jobs ha _ dep _ => recordJobCompletion_completed ha (by omega) rfl) ha rfl
  have hmem : ∀ i r, (i, r) ∈ getAllInProgress db.trainingJobs ↔ db.trainingJobs.get? i = some r ∧ r.status = .started := by
    intro i r
    rw [getAllInProgress, Table.mem_select, decide_eq_true_eq]
  refine ⟨hF.mono ?_, fun i hi => ?_⟩
  · rintro i ⟨⟨j, r⟩, hm, rfl⟩
    obtain ⟨hr, hs⟩ := (hmem j r).mp hm
    rw [status_eq hr, hs]
  · obtain ⟨r', hr', hs'⟩ := status_some hi
    obtain ⟨r, hr, hrow⟩ := hF.rows.back hr'
    rcases hrow.status with hs | hs
    · have := hE (i, r) ((hmem i r).mpr ⟨hr, hs ▸ hs'⟩) r' hr'
      rw [this] at hs'; cases hs'
    · rw [hs.1] at hs'; cases hs'

theorem scheduleJob_extends {db db' : DB} {t : JobTemplate} (h : scheduleJob db t = .ok db') : Extends db db' := by
  obtain ⟨r, -, h⟩ := Result.bind_ok h
  exact (schedule_spec h).1

theorem getForUpdate_ok {p : Nat → Bool} {x : Nat × Row} (h : getForUpdate jobs p = .ok x) :
    jobs.get? x.1 = some x.2 ∧ p x.1 = true := by
  unfold getForUpdate at h
  split at h
  · cases h
  · rename_i r hr
    obtain rfl := Except.ok.inj h
    exact Table.mem_select.mp (hr ▸ List.mem_singleton.mpr rfl)
  · cases h

theorem jobComplete_moves {s : St} {e : Ev} {jobType : String} {job job' : Job} (hc : s.currentJobs jobType = some job)
    (hid : job'.id = job.id) (ht : job'.data.jobType = jobType)
    (hs : job'.data.status = .error ∨ job'.data.status = .success ∧ job.killed = false) : Moves s e (jobComplete s job') := by
  have : jobComplete s job' =
      { s with currentJobs := Function.update s.currentJobs jobType none
               completing := Function.update s.completing job.id (some job') } := by
    simp only [jobComplete, ht, hc, hid, if_true]
  rw [this]
  exact .completed hc hid ht hs

theorem killJob_moves {s : St} (hi : Inv s) (hx : s.exited = false) (id : RequestId) (fault : Fault) :
    Moves s (.killJob id fault) (killJob s id fault) := by
  unfold killJob
  split
  · exact .idle _
  · rename_i hf
    split
    · exact .idle _
    · rename_i i r hr
      split
      · rename_i job hsig
        unfold signalled at hsig
        split at hsig
        · exact .signalled hr (Option.filter_eq_some_iff.mp hsig).1
        · cases hsig
      · rename_i hsig
        split
        · exact .idle _
        · rename_i hf'
          obtain rfl : fault = .none := by
            cases fault with
            | none => rfl
            | query => exact absurd rfl hf
            | commit => exact absurd rfl hf'
          exact .killed hx hr hsig (recordJobCompletion_error hi.waits.acyclic i rfl)

theorem startNextJob_moves {s : St} (hx : s.exited = false) (jobType : String) (now : Nat) (failed : Bool) :
    Moves s (.startNextJob jobType now failed) (startNextJob s jobType now failed) := by
  unfold startNextJob
  split
  · exact .idle _
  · rename_i hc
    cases failed with
    | true => exact .exited _
    | false =>
      simp only [Bool.false_eq_true, if_false]
      split
      · exact .idle _
      · rename_i i next hn
        obtain ⟨hr, hp⟩ := Table.first?_eq_some hn
        have hp' := of_decide_eq_true hp
        exact .started hx hc hr hp'.1 hp'.2.1 hp'.2.2 ⟨rfl, rfl, rfl⟩

theorem saved_update (jobs : Table Row) (id : Nat) (taskIndex : Option Nat) (taskName : Option String) :
    Saved jobs (update jobs id fun r => { r with taskIndex := taskIndex, taskName := taskName }) :=
  Table.Rewritten.update (R := fun _ => Row.Ran) (f := fun r => { r with taskIndex := taskIndex, taskName := taskName })
    (fun _ _ _ => rfl) (fun _ _ _ => rfl) jobs

theorem doRun_moves {s : St} (hi : Inv s) {jobType : String} {job : Job} (hc : s.currentJobs jobType = some job)
    (now : Nat) (failed : Option String) (e : Ev) : Moves s e (doRun s job now failed) := by
  obtain ⟨ht, -⟩ := hi.slot jobType job hc
  unfold doRun
  split
  · exact jobComplete_moves hc rfl ht (Or.inl rfl)
  · rename_i hk
    split
    · exact jobComplete_moves hc rfl ht (Or.inr ⟨rfl, by simpa using hk⟩)
    · split
      · exact jobComplete_moves hc rfl ht (Or.inl rfl)
      · simp only [ht]
        exact .ran hc rfl rfl ht.symm rfl (saved_update ..)

theorem taskEnded_moves {s : St} (hi : Inv s) {jobType : String} {job : Job} (hc : s.currentJobs jobType = some job)
    (now : Nat) (error : Option String) (e : Ev) : Moves s e (taskEnded s job now error) := by
  obtain ⟨ht, -⟩ := hi.slot jobType job hc
  cases error with
  | some error => exact jobComplete_moves hc rfl ht (Or.inl rfl)
  | none =>
    simp only [taskEnded, ht]
    exact .ran hc rfl rfl rfl rfl (Saved.refl _)

/-- What threw while a success was recorded finds the slot free, or taken by another job. -/
theorem fail_free {s : St} {job : Job} (hc : ∀ current, s.currentJobs job.data.jobType = some current → current.id ≠ job.id)
    (error : String) (now : Nat) : fail s job error now = s := by
  simp only [fail, complete, jobComplete]
  split
  · rename_i current hcur
    rw [if_neg (hc current hcur)]
  · rfl

theorem record_moves {s : St} (hi : Inv s) {id : Nat} {job : Job} (hc : s.completing id = some job) (now : Nat)
    (failed : Option String) : Moves s (.record id now failed) (record s job now failed) := by
  obtain ⟨rfl, hlive, hs⟩ := hi.completing id job hc
  unfold record
  cases failed with
  | none =>
    rcases hs with hs | hs
    · have : Training.recordJobCompletion s.db.trainingJobs job.id job.data.outcome s.db.trainingJobs.next =
          succeed s.db.trainingJobs job.id job.data.outcome :=
        recordJobCompletion_success _ _ (by rw [show job.data.outcome.status = job.data.status from rfl, hs]; decide)
      simp only [DB.recordJobCompletion, this]
      exact .succeeded hc hs
    · exact .failed hc hs (recordJobCompletion_error hi.waits.acyclic job.id hs)
  | some error =>
    dsimp only
    split
    · rename_i hs
      rw [fail_free]
      · exact .dropped hc hs
      · intro current hcur he
        have := hi.apart _ current hcur
        rw [he, hc] at this
        cases this
    · rename_i hs'
      have : exit { s with completing := Function.update s.completing job.id none } = exit s := rfl
      rw [this]
      exact .exited _

theorem step_cases {s t : St} {e : Ev} (hi : Inv s) (h : step s e = some t) : Moves s e t := by
  cases e with
  | edit deviceSchema models modelDevices => cases h; exact .edited rfl
  | restart failed =>
    simp only [step] at h
    split at h
    · cases h
    · rename_i hx
      split at h
      · cases h; exact .idle _
      · rename_i hf
        cases h
        obtain ⟨hF, hE⟩ := checkExistingJobs_fails hi.waits.acyclic
        obtain rfl : failed = false := by simpa using hf
        exact .restarted (by simpa using hx) hF hE
  | exit =>
    simp only [step] at h
    split at h
    · cases h
    · cases h; exact .exited _
  | scheduleJob t failed =>
    simp only [step] at h
    split at h
    · cases h
    · split at h
      · cases h; exact .idle _
      · rename_i hf
        obtain rfl : failed = false := by simpa using hf
        split at h
        · cases h; exact .idle _
        · rename_i db hdb
          cases h
          exact .scheduled hdb (scheduleJob_extends hdb)
  | killJob id fault =>
    simp only [step] at h
    split at h
    · cases h
    · rename_i hx
      cases h
      exact killJob_moves hi (by simpa using hx) id fault
  | startNextJob jobType now failed =>
    simp only [step] at h
    split at h
    · cases h
    · rename_i hx
      cases h
      exact startNextJob_moves (by simpa using (not_or.mp hx).1) jobType now failed
  | doRun jobType now failed =>
    obtain ⟨job, hc, h⟩ := Option.bind_eq_some_iff.mp h
    split at h
    · cases h
    · cases h; exact doRun_moves hi hc now failed _
  | taskEnded jobType now error =>
    obtain ⟨job, hc, h⟩ := Option.bind_eq_some_iff.mp h
    split at h
    · cases h; exact taskEnded_moves hi hc now error _
    · cases h
  | record id now failed =>
    obtain ⟨job, hc, rfl⟩ := Option.map_eq_some_iff.mp h
    exact record_moves hi hc now failed

theorem init_inv {s : St} (h : initial s) : Inv s := by
  obtain ⟨hjobs, -, hslot, hcompleting, -, -⟩ := h
  have hget : ∀ i, s.db.trainingJobs.get? i = none := by
    intro i; rw [hjobs]; rfl
  refine ⟨⟨fun i r d hr => ?_, fun i r d hr => ?_⟩, fun ty job hc => ?_, fun i job hc => ?_, fun ty job hc => ?_, fun _ => ?_⟩
  · rw [hget] at hr; cases hr
  · rw [hget] at hr; cases hr
  · rw [hslot] at hc; cases hc
  · rw [hcompleting] at hc; cases hc
  · rw [hslot] at hc; cases hc
  · exact ⟨fun ty => congrFun hslot ty, fun i => congrFun hcompleting i⟩

/-- Only the tables change. -/
theorem Inv.rows {s t : St} (hi : Inv s) (hc : t.currentJobs = s.currentJobs) (hp : t.completing = s.completing)
    (hx : t.exited = true → s.exited = true) (hw : Waits t.db.trainingJobs)
    (hl : ∀ i ty, Live s.db.trainingJobs i ty → Live t.db.trainingJobs i ty) : Inv t := by
  refine ⟨hw, fun ty job h => ?_, fun i job h => ?_, fun ty job h => ?_, fun h => ?_⟩
  · obtain ⟨h1, h2, h3⟩ := hi.slot ty job (hc ▸ h)
    exact ⟨h1, h2, hl _ _ h3⟩
  · obtain ⟨h1, h2, h3⟩ := hi.completing i job (hp ▸ h)
    exact ⟨h1, hl _ _ h2, h3⟩
  · rw [hp]; exact hi.apart ty job (hc ▸ h)
  · rw [hc, hp]; exact hi.exited (hx h)

/-- The job in a slot moves on. -/
theorem Inv.slotted {s t : St} (hi : Inv s) {ty : String} {job job' : Job} (hc : s.currentJobs ty = some job)
    (hc' : t.currentJobs = Function.update s.currentJobs ty (some job')) (hid : job'.id = job.id)
    (ht : job'.data.jobType = job.data.jobType) (hs : job'.data.status = job.data.status) (hp : t.completing = s.completing)
    (hx : t.exited = s.exited) (hw : Waits t.db.trainingJobs)
    (hl : ∀ i ty, Live s.db.trainingJobs i ty → Live t.db.trainingJobs i ty) : Inv t := by
  have hold : ∀ ty' job2, t.currentJobs ty' = some job2 → ∃ job1, s.currentJobs ty' = some job1 ∧ job2.id = job1.id ∧
      job2.data.jobType = job1.data.jobType ∧ job2.data.status = job1.data.status := by
    intro ty' job2 h
    rw [hc', Function.update_apply] at h
    split at h
    · rename_i he
      obtain rfl := Option.some.inj h
      exact ⟨job, he ▸ hc, hid, ht, hs⟩
    · exact ⟨job2, h, rfl, rfl, rfl⟩
  refine ⟨hw, fun ty' job2 h => ?_, fun i job2 h => ?_, fun ty' job2 h => ?_, fun h => ?_⟩
  · obtain ⟨job1, h1, hid, ht, hs⟩ := hold ty' job2 h
    obtain ⟨ht1, hs1, hl1⟩ := hi.slot ty' job1 h1
    exact ⟨ht.trans ht1, hs.trans hs1, hid ▸ hl _ _ hl1⟩
  · obtain ⟨h1, h2, h3⟩ := hi.completing i job2 (hp ▸ h)
    exact ⟨h1, hl _ _ h2, h3⟩
  · obtain ⟨job1, h1, hid, -⟩ := hold ty' job2 h
    rw [hp, hid]
    exact hi.apart ty' job1 h1
  · have := (hi.exited (hx ▸ h)).1 ty
    rw [hc] at this
    cases this

theorem Inv.started {s : St} (hi : Inv s) {ty : String} {id : Nat} {next : Row} {f : Row → Row} (hx : s.exited = false)
    (hr : s.db.trainingJobs.get? id = some next) (hq : next.status = .queued) (ht : next.jobType = ty)
    (hd : next.dependsOn = none)
    (hf : (f next).status = .started ∧ (f next).jobType = next.jobType ∧ (f next).dependsOn = next.dependsOn) :
    Inv { s with currentJobs := Function.update s.currentJobs ty (some ⟨id, f next, false, 0, false⟩)
                 db := { s.db with trainingJobs := update s.db.trainingJobs id f } } := by
  have hq' : status s.db.trainingJobs id = some .queued := by
    rw [status_eq hr, hq]
  have hne : ∀ i ty', Live s.db.trainingJobs i ty' → i ≠ id := by
    rintro i ty' hl rfl
    exact (hl.not_waiting hr).2.2 hq
  refine ⟨hi.waits.started hr hd ⟨hf.2.2, hf.1⟩, fun ty' job h => ?_, fun i job h => ?_, fun ty' job h => ?_, fun h => ?_⟩
  · simp only [Function.update_apply] at h
    split at h
    · rename_i he
      obtain rfl := Option.some.inj h
      refine ⟨hf.2.1.trans (ht.trans he.symm), hf.1, f next, ?_, hf.2.1.trans (ht.trans he.symm), hf.2.2.trans hd, Or.inl hf.1⟩
      show (update s.db.trainingJobs id f).get? id = _
      rw [get?_set, if_pos rfl, hr]; rfl
    · obtain ⟨h1, h2, h3⟩ := hi.slot ty' job h
      exact ⟨h1, h2, h3.started hq'⟩
  · obtain ⟨h1, h2, h3⟩ := hi.completing i job h
    exact ⟨h1, h2.started hq', h3⟩
  · simp only [Function.update_apply] at h
    split at h
    · obtain rfl := Option.some.inj h
      cases hc : s.completing id with
      | none => rfl
      | some job => exact absurd rfl (hne id _ (hi.completing id job hc).2.1)
    · exact hi.apart ty' job h
  · rw [hx] at h; cases h

theorem Inv.completed {s : St} (hi : Inv s) {ty : String} {job job' : Job} (hc : s.currentJobs ty = some job)
    (hid : job'.id = job.id) (ht : job'.data.jobType = ty) (hs : job'.data.status = .success ∨ job'.data.status = .error) :
    Inv { s with currentJobs := Function.update s.currentJobs ty none
                 completing := Function.update s.completing job.id (some job') } := by
  obtain ⟨-, -, hlive⟩ := hi.slot ty job hc
  have hold : ∀ ty' job2, Function.update s.currentJobs ty none ty' = some job2 → ty' ≠ ty ∧ s.currentJobs ty' = some job2 :=
    fun _ _ h => Objects.removed_eq_some.mp h
  refine ⟨hi.waits, fun ty' job2 h => hi.slot ty' job2 (hold ty' job2 h).2, fun i job2 h => ?_, fun ty' job2 h => ?_, fun h => ?_⟩
  · simp only [Function.update_apply] at h
    split at h
    · rename_i he
      obtain rfl := Option.some.inj h
      refine ⟨hid.trans he.symm, ?_, hs⟩
      rw [he, ht]
      exact hlive
    · exact hi.completing i job2 h
  · obtain ⟨hne, h⟩ := hold ty' job2 h
    simp only [Function.update_apply]
    rw [if_neg, hi.apart ty' job2 h]
    intro he
    exact hne ((he ▸ (hi.slot ty' job2 h).2.2).jobType_eq hlive)
  · have := (hi.exited h).1 ty
    rw [hc] at this
    cases this

/-- The end of a job has been recorded, or dropped. -/
theorem Inv.recorded {s : St} (hi : Inv s) {id : Nat} {job : Job} {db : DB} (hc : s.completing id = some job)
    (hw : Waits db.trainingJobs) (hl : ∀ i ty, i ≠ id → Live s.db.trainingJobs i ty → Live db.trainingJobs i ty) :
    Inv { s with db := db, completing := Function.update s.completing id none } := by
  refine ⟨hw, fun ty job2 h => ?_, fun i job2 h => ?_, fun ty job2 h => ?_, fun h => ?_⟩
  · obtain ⟨h1, h2, h3⟩ := hi.slot ty job2 h
    refine ⟨h1, h2, hl _ _ ?_ h3⟩
    intro he
    have := hi.apart ty job2 h
    rw [he, hc] at this
    cases this
  · simp only [Function.update_apply] at h
    split at h
    · cases h
    · rename_i hne
      obtain ⟨h1, h2, h3⟩ := hi.completing i job2 h
      exact ⟨h1, hl _ _ hne h2, h3⟩
  · simp only [Function.update_apply]
    split
    · rfl
    · exact hi.apart ty job2 h
  · have := (hi.exited h).2 id
    rw [hc] at this
    cases this

theorem exit_inv {s : St} (hi : Inv s) : Inv (exit s) :=
  ⟨hi.waits, fun _ _ h => (nomatch h), fun _ _ h => (nomatch h), fun _ _ _ => rfl, fun _ => ⟨fun _ => rfl, fun _ => rfl⟩⟩

theorem step_inv {s t : St} {e : Ev} (hi : Inv s) (h : step s e = some t) : Inv t := by
  cases step_cases hi h with
  | idle => exact hi
  | edited hdb => exact hi.rows rfl rfl id (hdb ▸ hi.waits) fun i ty hl => hdb ▸ hl
  | restarted hx hF hE => exact hi.rows rfl rfl nofun (hi.waits.fails hF) fun i ty hl => hl.fails hF
  | exited => exact exit_inv hi
  | scheduled hdb he => exact hi.rows rfl rfl id (hi.waits.extends he) fun i ty hl => hl.extends he
  | signalled hr hc => exact hi.slotted hc rfl rfl rfl rfl rfl rfl hi.waits fun _ _ hl => hl
  | killed hx hr hsig hC => exact hi.rows rfl rfl id (hi.waits.fails hC.fails) fun i ty hl => hl.fails hC.fails
  | started hx hc hr hq ht hd hf => exact hi.started hx hr hq ht hd hf
  | ran hc hid hk ht hs hS =>
    exact hi.slotted hc rfl hid ht hs rfl rfl (hi.waits.saved hS) fun i ty hl => hl.saved hS
  | completed hc hid ht hs => exact hi.completed hc hid ht (hs.symm.imp_left And.left)
  | failed hc hs hC => exact hi.recorded hc (hi.waits.fails hC.fails) fun i ty _ hl => hl.fails hC.fails
  | succeeded hc hs =>
    exact hi.recorded hc (hi.waits.succeed (hi.completing _ _ hc).2.1) fun i ty hne hl => hl.succeed hne
  | dropped hc hs => exact hi.recorded hc hi.waits fun i ty _ hl => hl

theorem inv {ok : St → Ev → Prop} {s : St} (h : Reach sys ok s) : Inv s :=
  h.inv (fun _ => init_inv) fun s e t hi _ (hs : step s e = some t) => step_inv hi hs

end GenieCloud.Training
