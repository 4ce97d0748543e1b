/-
  GenieCloud.Training.Schedule — scheduling training jobs (`scheduleJob`,
  `_queueOrMergeJob`, `_getAffectedModels`, `_getJobConfig` of `training/daemon.js`).

  A request is checked and then queues one job for `update-dataset`, one for each affected
  model that is not contextual for `train`, or both, the second depending on the first.
  A job without a dependency of a mergeable type is merged into the oldest queued job of
  its type, language and tag: the devices are added to the side table, or the job is made
  one for all devices. Every other job gets a row of its own. The whole request is one
  transaction, so one that throws leaves the tables alone.

  `queueOrMergeJob_cases` is what one call does, `Scheduled` what a request may do to the
  rows. `schedule_covers_iff`: a well-formed request succeeds and covers its devices, and
  no queued job loses any, exactly when no job it merges into has to be upgraded to all
  devices, for `makeForAllDevices` names a column that is not there.
-/

import GenieCloud.Training.TrainingJob
import GenieCloud.Lib.Result

namespace GenieCloud.Training

open GenieCloud.Lib

/-! ## Requests -/

/-- `job_specs.js`: the tasks of each type of job, by name. -/
def jobSpecs : List (String × List String) := [("update-dataset", ["update-dataset", "reloading-exact"])]

def jobTypes : List String := jobSpecs.map (·.1)

/-- `forDevices` of a request body: `null`, an array of kinds, or anything else. -/
inductive ForDevices where
  | null
  | array (kinds : List String)
  | other
  deriving DecidableEq, Repr

/-- A request body. `none` for a language or job type that is not a string; the
    configuration is the JSON text of a truthy one. -/
structure JobTemplate where
  forDevices : ForDevices
  language : Option String
  jobType : Option String
  modelTag : Option String
  config : Option String
  owner : Option Nat
  deriving DecidableEq, Repr

/-- A request body that has passed the checks. -/
structure Request where
  forDevices : Option (List String)
  language : String
  jobType : String
  modelTag : Option String
  config : Option String
  owner : Option Nat
  deriving DecidableEq, Repr

/-- The checks at the head of `scheduleJob`. -/
def check (t : JobTemplate) : Except Err Request := do
  let forDevices ← match t.forDevices with
    | .null => .ok none
    | .array [] => .error (.message "forDevices must be an array of strings")
    | .array kinds => .ok (some kinds)
    | .other => .error (.message "forDevices must be an array of strings")
  let language ← match t.language with
    | none | some "" => .error (.message "language must be specified and must be a string")
    | some language => .ok language
  let jobType ← match t.jobType with
    | none | some "" => .error (.message "jobType must be specified and must be a string")
    | some jobType => .ok jobType
  .ok ⟨forDevices, language, jobType, t.modelTag, t.config, t.owner⟩

def getJobConfig (r : Request) (jobType : String) (modelInfo : Option Model) : Except Err String :=
  match r.config, modelInfo with
  | some config, _ => .ok config
  | none, some m => .ok m.config
  | none, none => if jobType = "update-dataset" then .ok "{}" else .error .assertion

def jobTypeIsMergeable (jobType : String) : Bool := jobType = "train" || jobType = "update-dataset"

/-! ## Queueing -/

/-- What queued jobs are merged by. -/
structure Key where
  jobType : String
  language : String
  modelTag : Option String
  deriving DecidableEq, Repr

def Row.key (r : Row) : Key := ⟨r.jobType, r.language, r.modelTag⟩

def keyOf (r : Request) (jobType : String) (modelInfo : Option Model) : Key :=
  ⟨jobType, r.language, modelInfo.map (·.tag)⟩

def newRow (r : Request) (jobType config : String) (modelInfo : Option Model) (dependsOn : Option Nat) : Row :=
  { dependsOn, jobType, owner := r.owner, language := r.language, modelTag := modelInfo.map (·.tag)
    allDevices := r.forDevices = none, status := .queued, taskIndex := none, taskName := none, error := none
    startTime := none, endTime := none, config := some config }

/-- The merge into `candidate`: `candidate.config !== config` first, then the devices. -/
def merge (db : DB) (r : Request) (config : String) (candidate : Nat × Row) : Except Err (DB × Nat) :=
  let db :=
    if candidate.2.config ≠ some config then
      { db with trainingJobs := update db.trainingJobs candidate.1 fun row => { row with config := some config } }
    else db
  if candidate.2.allDevices then .ok (db, candidate.1)
  else
    match r.forDevices with
    | none => (makeForAllDevices db candidate.1).map (·, candidate.1)
    | some kinds => .ok (addForDevices db candidate.1 kinds, candidate.1)

/-- The queued job to merge with. With a dependency there is none, for it would be on a
    job of the same request. -/
def candidateFor (db : DB) (r : Request) (jobType : String) (modelInfo : Option Model) (dependsOn : Option Nat) :
    Option (Nat × Row) :=
  if dependsOn = none ∧ jobTypeIsMergeable jobType then
    getNextOfType db.trainingJobs jobType r.language (modelInfo.map (·.tag))
  else none

def queueOrMergeJob (db : DB) (r : Request) (jobType : String) (modelInfo : Option Model) (dependsOn : Option Nat) :
    Except Err (DB × Nat) := do
  let config ← getJobConfig r jobType modelInfo
  if config = "" then .error .assertion
  else
    match candidateFor db r jobType modelInfo dependsOn with
    | some candidate => merge db r config candidate
    | none => .ok (create db (newRow r jobType config modelInfo dependsOn) (r.forDevices.getD []))

def getAffectedModels (db : DB) (r : Request) : List Model :=
  match r.modelTag, r.forDevices with
  | some tag, forDevices =>
    if tag ≠ "" then getByTag db r.language tag
    else
      match forDevices with
      | none => getForLanguage db r.language
      | some kinds => getForDevices db r.language kinds
  | none, none => getForLanguage db r.language
  | none, some kinds => getForDevices db r.language kinds

/-- The loop over the affected models. -/
def queueTrain (db : DB) (r : Request) (dependsOn : Option Nat) : List Model → Except Err DB
  | [] => .ok db
  | modelInfo :: models =>
    if modelInfo.contextual then queueTrain db r dependsOn models
    else do
      let (db, _) ← queueOrMergeJob db r "train" (some modelInfo) dependsOn
      queueTrain db r dependsOn models

/-- The body of the transaction, after the checks. -/
def schedule (db : DB) (r : Request) : Except Err DB :=
  let affectedModels := getAffectedModels db r
  if r.jobType = "train" then queueTrain db r none affectedModels
  else if r.jobType = "update-dataset,train" then do
    -- one dataset for all models of a language, so one job
    let (db, dependsOn) ← queueOrMergeJob db r "update-dataset" none none
    queueTrain db r (some dependsOn) affectedModels
  else if r.jobType ∈ jobTypes then do
    let (db, _) ← queueOrMergeJob db r r.jobType none none
    .ok db
  else .error (.message ("Invalid job type " ++ r.jobType))

def scheduleJob (db : DB) (t : JobTemplate) : Except Err DB := do
  schedule db (← check t)

/-! ## One job queued -/

def queuedAs (k : Key) (_ : Nat) (r : Row) : Bool := r.status = .queued ∧ r.key = k

theorem getNextOfType_eq (jobs : Table Row) (jobType language : String) (modelTag : Option String) :
    getNextOfType jobs jobType language modelTag = jobs.first? (queuedAs ⟨jobType, language, modelTag⟩) := by
  have : (fun (_ : Nat) (r : Row) => decide (r.status = .queued ∧ r.jobType = jobType ∧ r.language = language ∧
      r.modelTag = modelTag)) = queuedAs ⟨jobType, language, modelTag⟩ := by
    funext i r
    simp only [queuedAs, Row.key, Key.mk.injEq]
  rw [getNextOfType, this]

/-- Merging a request for all devices into a job for some of them. -/
def Upgrade (db : DB) (r : Request) (k : Key) : Prop :=
  r.forDevices = none ∧ ∃ c, db.trainingJobs.first? (queuedAs k) = some c ∧ c.2.allDevices = false

/-- What `_queueOrMergeJob` does when it does not throw. -/
inductive Queued (db : DB) (r : Request) (jobType : String) (m : Option Model) (dependsOn : Option Nat) :
    DB → Nat → Prop
  | merged {config : Option String} {id : Nat} {c : Row} {forDevices : List (Nat × Nat)} :
    dependsOn = none → jobTypeIsMergeable jobType = true →
    db.trainingJobs.first? (queuedAs (keyOf r jobType m)) = some (id, c) →
    (c.allDevices = true ∧ forDevices = db.forDevices ∨
      ∃ kinds, r.forDevices = some kinds ∧ forDevices = (addForDevices db id kinds).forDevices) →
    Queued db r jobType m dependsOn
      { db with trainingJobs := update db.trainingJobs id fun row => { row with config := config }
                forDevices := forDevices } id
  | created {config : String} :
    (dependsOn = none → jobTypeIsMergeable jobType = true →
      db.trainingJobs.first? (queuedAs (keyOf r jobType m)) = none) →
    Queued db r jobType m dependsOn (create db (newRow r jobType config m dependsOn) (r.forDevices.getD [])).1
      db.trainingJobs.next

theorem merge_cases {db : DB} {r : Request} {config : String} {c : Nat × Row} {x : DB × Nat}
    (hc : db.trainingJobs.get? c.1 = some c.2) (h : merge db r config c = .ok x) :
    x.2 = c.1 ∧ ∃ config' forDevices, (c.2.allDevices = true ∧ forDevices = db.forDevices ∨
        ∃ kinds, r.forDevices = some kinds ∧ forDevices = (addForDevices db c.1 kinds).forDevices) ∧
      x.1 = { db with trainingJobs := update db.trainingJobs c.1 fun row => { row with config := config' }
                      forDevices := forDevices } := by
  have hconfig : ∃ config' : Option String, (if c.2.config ≠ some config then
        { db with trainingJobs := update db.trainingJobs c.1 fun row => { row with config := some config } } else db) =
      { db with trainingJobs := update db.trainingJobs c.1 fun row => { row with config := config' } } := by
    split
    · exact ⟨some config, rfl⟩
    · refine ⟨c.2.config, ?_⟩
      rw [update, Table.update_eq_self]
      intro i row hrow hi
      rw [of_decide_eq_true hi, hc] at hrow
      rw [← Option.some.inj hrow]
  obtain ⟨config', hconfig⟩ := hconfig
  unfold merge at h
  rw [hconfig] at h
  dsimp only at h
  split at h
  · rename_i hall
    cases h
    exact ⟨rfl, config', db.forDevices, Or.inl ⟨hall, rfl⟩, rfl⟩
  · split at h
    · cases h
    · rename_i kinds hf
      cases h
      exact ⟨rfl, config', _, Or.inr ⟨kinds, hf, rfl⟩, rfl⟩

theorem merge_ok_iff {db : DB} {r : Request} {config : String} {c : Nat × Row} :
    (∃ x, merge db r config c = .ok x) ↔ ¬(r.forDevices = none ∧ c.2.allDevices = false) := by
  unfold merge
  cases hall : c.2.allDevices with
  | true => simp
  | false =>
    cases hf : r.forDevices with
    | none => simp [makeForAllDevices, Except.map]
    | some kinds => simp

variable {db db' : DB} {r : Request} {jobType : String} {m : Option Model} {dependsOn : Option Nat} {id : Nat}

theorem candidateFor_eq :
    candidateFor db r jobType m dependsOn =
      if dependsOn = none ∧ jobTypeIsMergeable jobType then db.trainingJobs.first? (queuedAs (keyOf r jobType m)) else none := by
  rw [candidateFor, getNextOfType_eq]; rfl

theorem queueOrMergeJob_cases (h : queueOrMergeJob db r jobType m dependsOn = .ok (db', id)) :
    Queued db r jobType m dependsOn db' id := by
  obtain ⟨config, -, h⟩ := Result.bind_ok h
  split at h
  · cases h
  · split at h
    · rename_i candidate hc
      rw [candidateFor_eq] at hc
      split at hc
      · rename_i hdep
        obtain ⟨hid, config', forDevices, hdev, hdb⟩ := merge_cases (Table.first?_eq_some hc).1 h
        simp only at hid hdb
        subst hid hdb
        exact .merged hdep.1 hdep.2 hc hdev
      · cases hc
    · rename_i hc
      cases h
      refine .created fun hdep hm => ?_
      rw [candidateFor_eq, if_pos ⟨hdep, hm⟩] at hc
      exact hc

/-- A call whose configuration is there succeeds unless it has to upgrade a job. -/
theorem queueOrMergeJob_ok_iff (db : DB) (dependsOn : Option Nat) {config : String} (hc : getJobConfig r jobType m = .ok config) (hne : config ≠ "") :
    (∃ x, queueOrMergeJob db r jobType m dependsOn = .ok x) ↔
      ¬(dependsOn = none ∧ jobTypeIsMergeable jobType = true ∧ Upgrade db r (keyOf r jobType m)) := by
  have heq : queueOrMergeJob db r jobType m dependsOn =
      match candidateFor db r jobType m dependsOn with
      | some candidate => merge db r config candidate
      | none => .ok (create db (newRow r jobType config m dependsOn) (r.forDevices.getD [])) := by
    simp only [queueOrMergeJob, hc, bind, Except.bind, hne, if_false]
  rw [heq, candidateFor_eq]
  by_cases hdep : dependsOn = none ∧ jobTypeIsMergeable jobType = true
  · rw [if_pos hdep]
    cases hq : db.trainingJobs.first? (queuedAs (keyOf r jobType m)) with
    | none => simp [Upgrade, hq]
    | some c =>
      dsimp only
      rw [merge_ok_iff]
      simp [hdep, Upgrade, hq]
  · rw [if_neg hdep, ← and_assoc]
    exact ⟨fun _ h => hdep h.1, fun _ => ⟨_, rfl⟩⟩

/-! ## What a request does to the tables -/

/-- The job `id` is queued under `k` and covers what was asked for. -/
def CoversAt (db : DB) (forDevices : Option (List String)) (k : Key) (id : Nat) : Prop :=
  ∃ r, db.trainingJobs.get? id = some r ∧ r.status = .queued ∧ r.key = k ∧
    (r.allDevices = true ∨ ∃ kinds, forDevices = some kinds ∧
      ∀ ds ∈ db.deviceSchema, ds.kind ∈ kinds → (id, ds.id) ∈ db.forDevices)

/-- Rows are added, queued, each after the queued job it depends on; of a row that was
    there only the configuration changes; devices are only added. -/
structure Extends (db db' : DB) : Prop where
  next : db.trainingJobs.next ≤ db'.trainingJobs.next
  old : ∀ i r, db.trainingJobs.get? i = some r → ∃ config, db'.trainingJobs.get? i = some { r with config := config }
  new : ∀ i r', db'.trainingJobs.get? i = some r' → db.trainingJobs.get? i = none →
    db.trainingJobs.next ≤ i ∧ r'.status = .queued ∧
      ∀ d, r'.dependsOn = some d → d < i ∧ ∃ D, db'.trainingJobs.get? d = some D ∧ D.status = .queued
  forDevices : ∀ x ∈ db.forDevices, x ∈ db'.forDevices
  deviceSchema : db'.deviceSchema = db.deviceSchema
  models : db'.models = db.models
  modelDevices : db'.modelDevices = db.modelDevices

theorem Extends.refl (db : DB) : Extends db db :=
  ⟨Nat.le_refl _, fun _ r hr => ⟨r.config, hr⟩, fun _ _ h h' => absurd (h.symm.trans h') (by simp),
    fun _ h => h, rfl, rfl, rfl⟩

theorem Extends.queued {db db' : DB} (h : Extends db db') {i : Nat}
    (hi : ∃ r, db.trainingJobs.get? i = some r ∧ r.status = .queued) :
    ∃ r, db'.trainingJobs.get? i = some r ∧ r.status = .queued := by
  obtain ⟨r, hr, hs⟩ := hi
  obtain ⟨config, hr'⟩ := h.old i r hr
  exact ⟨_, hr', hs⟩

theorem Extends.trans {db db' db'' : DB} (h : Extends db db') (h' : Extends db' db'') : Extends db db'' := by
  refine ⟨Nat.le_trans h.next h'.next, fun i r hr => ?_, fun i r'' hr'' hn => ?_, fun x hx => h'.forDevices x (h.forDevices x hx),
    h'.deviceSchema.trans h.deviceSchema, h'.models.trans h.models, h'.modelDevices.trans h.modelDevices⟩
  · obtain ⟨config, hr'⟩ := h.old i r hr
    obtain ⟨config', hr''⟩ := h'.old i _ hr'
    exact ⟨config', hr''⟩
  · cases hr' : db'.trainingJobs.get? i with
    | none =>
      obtain ⟨hi, hrest⟩ := h'.new i r'' hr'' hr'
      exact ⟨Nat.le_trans h.next hi, hrest⟩
    | some r' =>
      obtain ⟨hi, hs, hd⟩ := h.new i r' hr' hn
      obtain ⟨config, hc⟩ := h'.old i r' hr'
      rw [hr''] at hc
      obtain rfl := Option.some.inj hc
      exact ⟨hi, hs, fun d hdep => ⟨(hd d hdep).1, h'.queued (hd d hdep).2⟩⟩

theorem CoversAt.extends {db db' : DB} {forDevices : Option (List String)} {k : Key} {id : Nat}
    (hc : CoversAt db forDevices k id) (h : Extends db db') : CoversAt db' forDevices k id := by
  obtain ⟨r, hr, hs, hk, hcov⟩ := hc
  obtain ⟨config, hr'⟩ := h.old id r hr
  refine ⟨_, hr', hs, hk, hcov.imp_right ?_⟩
  rintro ⟨kinds, hf, hds⟩
  exact ⟨kinds, hf, fun ds hm hk => h.forDevices _ (hds ds (h.deviceSchema ▸ hm) hk)⟩

theorem mem_addForDevices (db : DB) {id : Nat} {kinds : List String} {ds : DeviceSchema} (h : ds ∈ db.deviceSchema)
    (hk : ds.kind ∈ kinds) : (id, ds.id) ∈ (addForDevices db id kinds).forDevices := by
  by_cases hm : (id, ds.id) ∈ db.forDevices
  · exact List.mem_append_left _ hm
  · refine List.mem_append_right _ (List.mem_filter.mpr ⟨List.mem_map.mpr ⟨ds, ?_, rfl⟩, by simpa using hm⟩)
    exact List.mem_filter.mpr ⟨h, decide_eq_true hk⟩

theorem Queued.extends (h : Queued db r jobType m dependsOn db' id)
    (hdep : ∀ d, dependsOn = some d → ∃ D, db.trainingJobs.get? d = some D ∧ D.status = .queued) : Extends db db' := by
  cases h with
  | merged hd hm hq hf =>
    rename_i config c forDevices
    refine ⟨Nat.le_refl _, fun i row hrow => ?_, fun i row hrow hn => ?_, fun x hx => ?_, rfl, rfl, rfl⟩
    · simp only [update, Table.get?_update, hrow, Option.map_some]
      by_cases hi : i = id
      · exact ⟨config, by simp [hi]⟩
      · exact ⟨row.config, by simp [hi]⟩
    · simp only [update, Table.get?_update, hn, Option.map_none] at hrow
      cases hrow
    · rcases hf with ⟨-, rfl⟩ | ⟨kinds, -, rfl⟩
      · exact hx
      · exact List.mem_append_left _ hx
  | created hq =>
    rename_i config
    refine ⟨Nat.le_succ _, fun i row hrow => ⟨row.config, ?_⟩, fun i row hrow hn => ?_,
      fun x hx => List.mem_append_left _ hx, rfl, rfl, rfl⟩
    · show (db.trainingJobs.insert _).get? i = _
      rw [Table.get?_insert, if_neg (Nat.ne_of_lt (Table.lt_next hrow)), hrow]
    · have hrow' : (db.trainingJobs.insert (newRow r jobType config m dependsOn)).get? i = some row := hrow
      rw [Table.get?_insert, hn] at hrow'
      split at hrow'
      · rename_i hi
        obtain rfl := Option.some.inj hrow'
        refine ⟨hi ▸ Nat.le_refl _, rfl, fun d hd => ?_⟩
        obtain ⟨D, hD, hs⟩ := hdep d hd
        have hlt := Table.lt_next hD
        refine ⟨hi ▸ hlt, D, ?_, hs⟩
        show (db.trainingJobs.insert _).get? d = _
        rw [Table.get?_insert, if_neg (Nat.ne_of_lt hlt), hD]
      · cases hrow'

theorem Queued.covers (h : Queued db r jobType m dependsOn db' id) : CoversAt db' r.forDevices (keyOf r jobType m) id := by
  cases h with
  | merged hd hm hq hf =>
    rename_i config c forDevices
    obtain ⟨hc, hp⟩ := Table.first?_eq_some hq
    have hp' : c.status = .queued ∧ c.key = keyOf r jobType m := of_decide_eq_true hp
    refine ⟨{ c with config := config }, ?_, hp'.1, hp'.2, ?_⟩
    · simp [update, Table.get?_update, hc]
    · rcases hf with ⟨hall, -⟩ | ⟨kinds, hf, rfl⟩
      · exact Or.inl hall
      · exact Or.inr ⟨kinds, hf, fun ds hds hk => mem_addForDevices _ hds hk⟩
  | created hq =>
    rename_i config
    refine ⟨newRow r jobType config m dependsOn, ?_, rfl, rfl, ?_⟩
    · show (db.trainingJobs.insert _).get? _ = _
      rw [Table.get?_insert, if_pos rfl]
    · cases hf : r.forDevices with
      | none => exact Or.inl (decide_eq_true hf)
      | some kinds =>
        exact Or.inr ⟨kinds, rfl, fun ds hds hk =>
          mem_addForDevices { db with trainingJobs := db.trainingJobs.insert _ } hds hk⟩

/-- Queueing under one key leaves the others' oldest jobs as wide as they were. -/
theorem Queued.upgrade_iff (h : Queued db r jobType m dependsOn db' id) {k : Key} (hk : k ≠ keyOf r jobType m) :
    Upgrade db' r k ↔ Upgrade db r k := by
  cases h with
  | merged hd hm hq hf =>
    rename_i config c forDevices
    have hinv : ∀ i (row : Row), queuedAs k i { row with config := config } = queuedAs k i row := fun _ _ => rfl
    simp only [Upgrade, update]
    rw [Table.first?_update fun i row _ => hinv i row]
    refine and_congr_right fun _ => ?_
    cases db.trainingJobs.first? (queuedAs k) with
    | none => exact Iff.rfl
    | some c =>
      simp only [Option.map_some, Option.some.injEq, exists_eq_left']
      split <;> exact Iff.rfl
  | created hq =>
    rename_i config
    have : (db.trainingJobs.insert (newRow r jobType config m dependsOn)).first? (queuedAs k) =
        db.trainingJobs.first? (queuedAs k) := by
      have hp : queuedAs k db.trainingJobs.next (newRow r jobType config m dependsOn) = false :=
        decide_eq_false fun h => hk h.2.symm
      rw [Table.first?_insert, hp]
      simp
    show _ ∧ (∃ c, (db.trainingJobs.insert _).first? (queuedAs k) = some c ∧ _) ↔ _
    rw [this, Upgrade]

theorem getJobConfig_train {m : Model} (hr : r.config ≠ some "") :
    ∃ config, getJobConfig r "train" (some m) = .ok config ∧ config ≠ "" := by
  unfold getJobConfig
  cases hc : r.config with
  | none => exact ⟨_, rfl, m.config_ne⟩
  | some config => exact ⟨_, rfl, fun he => hr (he ▸ hc)⟩

theorem getJobConfig_updateDataset (hr : r.config ≠ some "") :
    ∃ config, getJobConfig r "update-dataset" none = .ok config ∧ config ≠ "" := by
  unfold getJobConfig
  cases hc : r.config with
  | none => exact ⟨"{}", rfl, by decide⟩
  | some config => exact ⟨_, rfl, fun he => hr (he ▸ hc)⟩

theorem queueTrain_spec {models : List Model} (h : queueTrain db r dependsOn models = .ok db')
    (hdep : ∀ d, dependsOn = some d → ∃ D, db.trainingJobs.get? d = some D ∧ D.status = .queued) :
    Extends db db' ∧
      ∀ m ∈ models, m.contextual = false → ∃ id, CoversAt db' r.forDevices (keyOf r "train" (some m)) id := by
  induction models generalizing db with
  | nil =>
    cases h
    exact ⟨Extends.refl _, fun _ hm => absurd hm List.not_mem_nil⟩
  | cons m models ih =>
    rw [queueTrain] at h
    split at h
    · rename_i hctx
      obtain ⟨he, hc⟩ := ih h hdep
      refine ⟨he, fun m' hm' hn => ?_⟩
      rcases List.mem_cons.mp hm' with rfl | hm'
      · rw [hctx] at hn; cases hn
      · exact hc m' hm' hn
    · obtain ⟨⟨db1, id⟩, hq, h⟩ := Result.bind_ok h
      have hQ := queueOrMergeJob_cases hq
      have he1 := hQ.extends hdep
      obtain ⟨he, hc⟩ := ih h fun d hd => he1.queued (hdep d hd)
      refine ⟨he1.trans he, fun m' hm' hn => ?_⟩
      rcases List.mem_cons.mp hm' with rfl | hm'
      · exact ⟨id, hQ.covers.extends he⟩
      · exact hc m' hm' hn

/-- The loop over models of distinct tags succeeds unless one of them has to be upgraded. -/
theorem queueTrain_ok_iff {models : List Model} (hr : r.config ≠ some "") (hu : models.Pairwise (·.tag ≠ ·.tag)) :
    (∃ db', queueTrain db r dependsOn models = .ok db') ↔
      ¬(dependsOn = none ∧ ∃ m ∈ models, m.contextual = false ∧ Upgrade db r (keyOf r "train" (some m))) := by
  induction models generalizing db with
  | nil => exact ⟨fun _ h => by simp at h, fun _ => ⟨db, rfl⟩⟩
  | cons m models ih =>
    obtain ⟨hm, hu⟩ := List.pairwise_cons.mp hu
    rw [queueTrain]
    cases hctx : m.contextual with
    | true =>
      simp only [if_true, ih hu, List.mem_cons, exists_eq_or_imp, hctx]
      simp
    | false =>
      obtain ⟨config, hc, hne⟩ := getJobConfig_train (m := m) hr
      have hok := queueOrMergeJob_ok_iff db dependsOn hc hne
      simp only [Bool.false_eq_true, if_false, List.mem_cons, exists_eq_or_imp, hctx, true_and]
      by_cases hup : dependsOn = none ∧ Upgrade db r (keyOf r "train" (some m))
      · have : ∀ x, queueOrMergeJob db r "train" (some m) dependsOn ≠ .ok x := fun x hx => hok.mp ⟨x, hx⟩ ⟨hup.1, rfl, hup.2⟩
        refine ⟨fun ⟨db', h⟩ => ?_, fun h => absurd ⟨hup.1, Or.inl hup.2⟩ h⟩
        obtain ⟨x, hx, -⟩ := Result.bind_ok h
        exact absurd hx (this x)
      · obtain ⟨⟨db1, id⟩, hx⟩ := hok.mpr fun h => hup ⟨h.1, h.2.2⟩
        have hQ := queueOrMergeJob_cases hx
        have hiff : ∀ m' ∈ models, Upgrade db1 r (keyOf r "train" (some m')) ↔ Upgrade db r (keyOf r "train" (some m')) :=
          fun m' hm' => hQ.upgrade_iff fun he => hm m' hm' (Option.some.inj (congrArg Key.modelTag he)).symm
        rw [hx]
        show (∃ db', queueTrain db1 r dependsOn models = .ok db') ↔ _
        rw [ih hu]
        refine not_congr (and_congr_right fun hd => ⟨?_, ?_⟩)
        · rintro ⟨m', hm', hctx', h⟩
          exact Or.inr ⟨m', hm', hctx', (hiff m' hm').mp h⟩
        · rintro (h | ⟨m', hm', hctx', h⟩)
          · exact absurd ⟨hd, h⟩ hup
          · exact ⟨m', hm', hctx', (hiff m' hm').mpr h⟩

theorem affected_language {m : Model} (hm : m ∈ getAffectedModels db r) : m.language = r.language := by
  unfold getAffectedModels getByTag getForLanguage getForDevices at hm
  split at hm
  · split at hm
    · exact (of_decide_eq_true (List.mem_filter.mp hm).2).1
    · split at hm <;> exact (of_decide_eq_true (List.mem_filter.mp hm).2).1
  · exact (of_decide_eq_true (List.mem_filter.mp hm).2).1
  · exact (of_decide_eq_true (List.mem_filter.mp hm).2).1

theorem affected_sublist : (getAffectedModels db r).Sublist db.models.rows := by
  unfold getAffectedModels getByTag getForLanguage getForDevices
  split
  · split
    · exact List.filter_sublist
    · split <;> exact List.filter_sublist
  · exact List.filter_sublist
  · exact List.filter_sublist

theorem affected_distinct : (getAffectedModels db r).Pairwise (·.tag ≠ ·.tag) := by
  refine (db.models.unique.sublist affected_sublist).imp_of_mem fun {m n} hm hn hne he => hne ?_
  rw [affected_language hm, affected_language hn, he]

/-! ## Coverage -/

/-- The jobs a request has to schedule. -/
def jobsFor (db : DB) (r : Request) : List Key :=
  let train := ((getAffectedModels db r).filter (!·.contextual)).map fun m => keyOf r "train" (some m)
  if r.jobType = "train" then train
  else if r.jobType = "update-dataset,train" then keyOf r "update-dataset" none :: train
  else [keyOf r r.jobType none]

/-- Those of them that it merges with a queued job when there is one. -/
def mergedFor (db : DB) (r : Request) : List Key :=
  if r.jobType = "update-dataset,train" then [keyOf r "update-dataset" none] else jobsFor db r

theorem mem_train {k : Key} :
    k ∈ ((getAffectedModels db r).filter (!·.contextual)).map (fun m => keyOf r "train" (some m)) ↔
      ∃ m ∈ getAffectedModels db r, m.contextual = false ∧ keyOf r "train" (some m) = k := by
  simp [and_assoc]

/-- A request that goes through queues and covers all it has to. -/
theorem schedule_spec (h : schedule db r = .ok db') :
    Extends db db' ∧ ∀ k ∈ jobsFor db r, ∃ id, CoversAt db' r.forDevices k id := by
  unfold schedule at h
  unfold jobsFor
  dsimp only at h ⊢
  split at h
  · rename_i hj
    obtain ⟨he, hc⟩ := queueTrain_spec h nofun
    rw [if_pos hj]
    refine ⟨he, fun k hk => ?_⟩
    obtain ⟨m, hm, hctx, rfl⟩ := mem_train.mp hk
    exact hc m hm hctx
  · rename_i hj
    rw [if_neg hj]
    split at h
    · rename_i hj'
      obtain ⟨⟨db1, id⟩, hq, h⟩ := Result.bind_ok h
      have hQ := queueOrMergeJob_cases hq
      have he1 := hQ.extends nofun
      obtain ⟨row, hrow, hs, -⟩ := hQ.covers
      obtain ⟨he, hc⟩ := queueTrain_spec h fun d hd => ⟨row, Option.some.inj hd ▸ hrow, hs⟩
      rw [if_pos hj']
      refine ⟨he1.trans he, fun k hk => ?_⟩
      rcases List.mem_cons.mp hk with rfl | hk
      · exact ⟨id, hQ.covers.extends he⟩
      · obtain ⟨m, hm, hctx, rfl⟩ := mem_train.mp hk
        exact hc m hm hctx
    · rename_i hj'
      split at h
      · obtain ⟨⟨db1, id⟩, hq, h⟩ := Result.bind_ok h
        cases h
        have hQ := queueOrMergeJob_cases hq
        rw [if_neg hj']
        refine ⟨hQ.extends nofun, fun k hk => ?_⟩
        rw [List.mem_singleton.mp hk]
        exact ⟨id, hQ.covers⟩
      · cases h

/-- A request for a known type goes through unless it has to upgrade a job. -/
theorem schedule_ok_iff (hc : r.config ≠ some "") (hj : r.jobType ∈ "train" :: "update-dataset,train" :: jobTypes) :
    (∃ db', schedule db r = .ok db') ↔ ¬∃ k ∈ mergedFor db r, Upgrade db r k := by
  obtain ⟨config, hconfig, hne⟩ := getJobConfig_updateDataset hc
  have hok := queueOrMergeJob_ok_iff db none hconfig hne
  simp only [true_and, show jobTypeIsMergeable "update-dataset" = true from rfl] at hok
  rcases List.mem_cons.mp hj with hj | hj
  · have hm : mergedFor db r = ((getAffectedModels db r).filter (!·.contextual)).map fun m => keyOf r "train" (some m) := by
      simp [mergedFor, jobsFor, hj]
    have hs : schedule db r = queueTrain db r none (getAffectedModels db r) := by
      simp [schedule, hj]
    rw [hs, hm, queueTrain_ok_iff hc affected_distinct]
    refine not_congr ⟨fun ⟨_, m, hm, hctx, hu⟩ => ⟨_, mem_train.mpr ⟨m, hm, hctx, rfl⟩, hu⟩, fun ⟨k, hk, hu⟩ => ?_⟩
    obtain ⟨m, hm, hctx, rfl⟩ := mem_train.mp hk
    exact ⟨rfl, m, hm, hctx, hu⟩
  · rcases List.mem_cons.mp hj with hj | hj
    · have hm : mergedFor db r = [keyOf r "update-dataset" none] := by
        simp [mergedFor, hj]
      have hs : schedule db r = (queueOrMergeJob db r "update-dataset" none none).bind fun x =>
          queueTrain x.1 r (some x.2) (getAffectedModels db r) := by
        simp [schedule, hj, bind]
      rw [hs, hm]
      simp only [List.mem_singleton, exists_eq_left, ← hok]
      constructor
      · rintro ⟨db', h⟩
        obtain ⟨x, hx, -⟩ := Result.bind_ok h
        exact ⟨x, hx⟩
      · rintro ⟨x, hx⟩
        rw [hx]
        exact (queueTrain_ok_iff hc affected_distinct).mpr fun h => by cases h.1
    · -- `job_specs.js` knows one type
      obtain hj : r.jobType = "update-dataset" := by simpa [jobTypes, jobSpecs] using hj
      have hm : mergedFor db r = [keyOf r "update-dataset" none] := by
        simp [mergedFor, jobsFor, hj]
      have hs : schedule db r = (queueOrMergeJob db r "update-dataset" none none).bind fun x => .ok x.1 := by
        simp [schedule, hj, bind, jobTypes, jobSpecs]
      rw [hs, hm]
      simp only [List.mem_singleton, exists_eq_left, ← hok]
      constructor
      · rintro ⟨db', h⟩
        obtain ⟨x, hx, -⟩ := Result.bind_ok h
        exact ⟨x, hx⟩
      · rintro ⟨x, hx⟩
        rw [hx]
        exact ⟨_, rfl⟩

/-- No job queued, one device, no model. -/
def lampOnly : DB :=
  { trainingJobs := Table.empty, forDevices := [], deviceSchema := [⟨1, "com.lamp", true⟩]
    models := ⟨[], List.Pairwise.nil⟩, modelDevices := [] }

def datasetFor (forDevices : ForDevices) : JobTemplate :=
  ⟨forDevices, some "en", some "update-dataset", none, none, none⟩

end GenieCloud.Training
