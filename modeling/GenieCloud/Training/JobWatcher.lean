/-
  GenieCloud.Training.JobWatcher — the shared watch on the jobs of the Kubernetes backend
  (`training/backends/kubernetes.js`, `JobWatcher` and `KubernetesTaskRunner.wait`).

  A `wait` registers its callbacks under its job and opens the watcher, a reference count;
  it closes it when its promise has settled, in a later turn. The count's first reference
  starts a run of `_watchJobs` that nobody waits for: it lists the jobs, and opens a watch
  stream unless the list settled everything that is watched. A stream that is done starts
  the next run, if there are jobs to watch. The last reference aborts the last stream.

  A wait is watched if its callbacks are the registered ones and a run is listing the
  jobs, opening its stream or streaming. `step_watched_iff`: from a state where every wait
  that has not settled is watched, a step keeps this exactly when it is none of three
  (`Kept`): a wait begins while references are held and no run is active; one begins for a
  job that an unsettled wait is for; and a list or the opening of a stream fails, which
  ends the process, while a wait has not settled.
-/

import GenieCloud.Lib.Assoc
import GenieCloud.Lib.Objects
import GenieCloud.Lib.Runs

namespace GenieCloud.Training.JobWatcher

open GenieCloud.Lib GenieCloud.Lib.Objects GenieCloud.Lib.Runs

/-! ## Jobs -/

structure Condition where
  type : String
  status : String
  message : Option String
deriving DecidableEq

/-- What the watcher reads of a job; `succeeded` is 0 where it is undefined. -/
structure Job where
  name : String
  succeeded : Nat
  conditions : Option (List Condition)
deriving DecidableEq

inductive EventType
  | added
  | modified
  | deleted
  | other (type : String)
deriving DecidableEq

/-! ## The watcher -/

inductive Outcome
  | resolved
  | rejected (message : String)
deriving DecidableEq

/-- A call of `wait`. -/
structure Wait where
  jobName : String
  settled : Option Outcome := none
  /-- The `finally` block ran. -/
  closed : Bool := false
deriving DecidableEq

/-- A run of `_watchJobs` that got to its list. -/
inductive Phase
  | listing
  | opening
  | streaming
  | aborted
  | ended
deriving DecidableEq

/-- Every wait and every run ever started, oldest first. -/
structure Watcher where
  waits : List Wait := []
  useCount : Nat := 0
  watchedJobs : List (String × Nat) := []
  numTriesLeft : Int := 0
  runs : List Phase := []
  req : Option Nat := none
  crashed : Bool := false

/-- A promise settles once. -/
def settle (s : Watcher) (id : Nat) (outcome : Outcome) : Watcher :=
  match s.waits[id]? with
  | none => s
  | some w => if w.settled.isSome then s else { s with waits := s.waits.set id { w with settled := some outcome } }

/-- A callback is called and taken out of the map. -/
def finish (s : Watcher) (jobName : String) (id : Nat) (outcome : Outcome) : Watcher :=
  let s := settle s id outcome
  { s with watchedJobs := Assoc.remove s.watchedJobs jobName }

def failure (job : Job) : Option String :=
  match job.conditions with
  | none => none
  | some conditions =>
    (conditions.find? fun c => c.type = "Failed" ∧ c.status = "True").map fun c =>
      match c.message with
      | some message => if message = "" then "The Kubernetes Job failed" else message
      | none => "The Kubernetes Job failed"

def processJob (s : Watcher) (type : Option EventType) (job : Job) : Watcher :=
  match Assoc.find s.watchedJobs job.name with
  | none => s
  | some id =>
    if type = some .deleted then finish s job.name id (.rejected "The kubernetes job was deleted")
    else
      let s := if 0 < job.succeeded then finish s job.name id .resolved else s
      match failure job with
      | none => s
      | some message => finish s job.name id (.rejected message)

/-- The tries are used up: every callback is called, and stays in the map. -/
def rejectAll (s : Watcher) : Watcher :=
  s.watchedJobs.foldl (fun s (jobName, id) => settle s id (.rejected ("Kubernetes failed to watch " ++ jobName))) s

/-- `_watchJobs` up to its list. -/
def watchJobs (s : Watcher) : Watcher :=
  if s.numTriesLeft = 0 then rejectAll s else { s with runs := s.runs ++ [.listing] }

/-- `parseInt(Config.TRAINING_WATCH_NUM_TRIES || 5)`; below 0 there is no limit. -/
def numTries (config : Int) : Int := if config = 0 then 5 else config

def watch (config : Int) (s : Watcher) (jobName : String) (id : Nat) : Watcher :=
  { s with
    watchedJobs :=
      if (Assoc.find s.watchedJobs jobName).isSome then Assoc.put s.watchedJobs jobName id
      else Assoc.add s.watchedJobs jobName id
    numTriesLeft := numTries config }

/-- `open` of the reference count. -/
def openRef (s : Watcher) : Watcher :=
  if s.useCount = 0 then watchJobs { s with useCount := 1 } else { s with useCount := s.useCount + 1 }

def doClose (s : Watcher) : Watcher :=
  match s.req with
  | none => s
  | some k => if s.runs[k]? = some .streaming then { s with runs := s.runs.set k .aborted } else s

def closeRef (s : Watcher) : Watcher :=
  if s.useCount = 1 then doClose { s with useCount := 0 } else { s with useCount := s.useCount - 1 }

/-- `wait` up to its `await`. -/
def wait (config : Int) (s : Watcher) (jobName : String) : Watcher :=
  let id := s.waits.length
  openRef (watch config { s with waits := s.waits ++ [{ jobName := jobName }] } jobName id)

/-- The `finally` block of `wait`. -/
def close (s : Watcher) (id : Nat) : Watcher :=
  match s.waits[id]? with
  | none => s
  | some w => closeRef { s with waits := s.waits.set id { w with closed := true } }

/-- The list came: without a job left to watch the run ends. -/
def listed (s : Watcher) (k : Nat) (jobs : List Job) : Watcher :=
  let s := jobs.foldl (fun s job => processJob s none job) s
  { s with runs := s.runs.set k (if s.watchedJobs = [] then .ended else .opening) }

/-- The callback of a stream's events. -/
def watchEvent (s : Watcher) (type : EventType) (job : Job) : Watcher :=
  match type with
  | .other _ => s
  | type => processJob s (some type) job

/-- The callback of a stream's end. -/
def done (s : Watcher) (k : Nat) : Watcher :=
  let s := { s with runs := s.runs.set k .ended }
  if s.watchedJobs = [] then s else watchJobs { s with numTriesLeft := s.numTriesLeft - 1 }

/-- An error in a run is an unhandled rejection, and ends the process. -/
def crash (s : Watcher) : Watcher := { s with crashed := true, runs := s.runs.map fun _ => .ended }

inductive Ev
  | wait (jobName : String)
  | listed (k : Nat) (jobs : List Job)
  | listFailed (k : Nat)
  | opened (k : Nat)
  | openFailed (k : Nat)
  | event (k : Nat) (type : EventType) (job : Job)
  | done (k : Nat)
  | close (id : Nat)

/-- Streams that were aborted still end, and may have events on the way. -/
def enabled (s : Watcher) : Ev → Bool
  | .wait _ => true
  | .listed k _ | .listFailed k => s.runs[k]? = some .listing
  | .opened k | .openFailed k => s.runs[k]? = some .opening
  | .event k _ _ | .done k => s.runs[k]? = some .streaming || s.runs[k]? = some .aborted
  | .close id => s.waits[id]?.any fun w => w.settled.isSome && !w.closed

def apply (config : Int) (s : Watcher) : Ev → Watcher
  | .wait jobName => wait config s jobName
  | .listed k jobs => listed s k jobs
  | .listFailed _ | .openFailed _ => crash s
  | .opened k => { s with runs := s.runs.set k .streaming, req := some k }
  | .event _ type job => watchEvent s type job
  | .done k => done s k
  | .close id => close s id

def step (config : Int) (s : Watcher) (e : Ev) : Option Watcher :=
  if s.crashed || !enabled s e then none else some (apply config s e)

def sys (config : Int) : System Watcher Ev := { init := fun s => s = {}, step := step config }

/-! ## What is asked -/

def Phase.watching : Phase → Bool
  | .listing | .opening | .streaming => true
  | .aborted | .ended => false

/-- A run lists the jobs, opens its stream or streams. -/
def Active (s : Watcher) : Prop := ∃ p ∈ s.runs, p.watching = true

/-- Every wait that has not settled has its callbacks registered, and a run is active. -/
def Watched (s : Watcher) : Prop :=
  ∀ id w, s.waits[id]? = some w → w.settled = none → Assoc.find s.watchedJobs w.jobName = some id ∧ Active s

def Kept (s : Watcher) : Ev → Prop
  | .wait jobName => s.useCount = 0 ∨ (Active s ∧ ∀ w ∈ s.waits, w.settled = none → w.jobName ≠ jobName)
  | .listFailed _ | .openFailed _ => ∀ w ∈ s.waits, w.settled ≠ none
  | _ => True

/-! ## Settling -/

variable {config : Int} {s s' s'' : Watcher} {e : Ev} {id k : Nat} {w : Wait}

def Unsettled (s : Watcher) (id : Nat) (w : Wait) : Prop := s.waits[id]? = some w ∧ w.settled = none

/-- Some promises are settled between the two, and nothing else happens to the waits. -/
structure Settles (s s' : Watcher) : Prop where
  useCount : s'.useCount = s.useCount
  closed : s'.waits.map (·.closed) = s.waits.map (·.closed)
  unsettled : ∀ id w, Unsettled s' id w → Unsettled s id w

theorem settles_refl (h : s'.useCount = s.useCount) (hw : s'.waits = s.waits) : Settles s s' := by
  refine ⟨h, by rw [hw], fun id w hu => ?_⟩
  unfold Unsettled at hu ⊢
  rw [← hw]
  exact hu

theorem Settles.trans (h : Settles s s') (h' : Settles s' s'') : Settles s s'' :=
  ⟨h'.useCount.trans h.useCount, h'.closed.trans h.closed, fun id w hu => h.unsettled id w (h'.unsettled id w hu)⟩

/-- What settling a promise leaves alone. -/
theorem settle_rest (s : Watcher) (id : Nat) (outcome : Outcome) :
    (settle s id outcome).watchedJobs = s.watchedJobs ∧ (settle s id outcome).runs = s.runs ∧
      (settle s id outcome).useCount = s.useCount := by
  unfold settle
  cases s.waits[id]? with
  | none => exact ⟨rfl, rfl, rfl⟩
  | some w =>
    dsimp only
    split <;> exact ⟨rfl, rfl, rfl⟩

theorem settle_unsettled {outcome : Outcome} {j : Nat} (h : Unsettled (settle s id outcome) j w) :
    Unsettled s j w ∧ j ≠ id := by
  unfold settle at h
  cases hid : s.waits[id]? with
  | none =>
    rw [hid] at h
    refine ⟨h, ?_⟩
    rintro rfl
    have := hid.symm.trans h.1
    cases this
  | some w₀ =>
    rw [hid] at h
    dsimp only at h
    split at h
    · rename_i hs
      refine ⟨h, ?_⟩
      rintro rfl
      have := hid.symm.trans h.1
      cases this
      rw [h.2] at hs
      cases hs
    · obtain ⟨hj, hn⟩ := h
      have hj' : (s.waits.set id _)[j]? = some w := hj
      rw [getElem?_updated hid] at hj'
      split at hj'
      · cases hj'
        cases hn
      · rename_i hne
        exact ⟨⟨hj', hn⟩, fun he => hne he.symm⟩

theorem settle_settles (s : Watcher) (id : Nat) (outcome : Outcome) : Settles s (settle s id outcome) := by
  refine ⟨(settle_rest ..).2.2, ?_, fun j w h => (settle_unsettled h).1⟩
  unfold settle
  cases hid : s.waits[id]? with
  | none => rfl
  | some w =>
    dsimp only
    split
    · rfl
    · apply List.ext_getElem?
      intro j
      rw [List.getElem?_map, List.getElem?_map, getElem?_updated hid]
      by_cases h : id = j
      · subst h
        rw [if_pos rfl, hid]
        rfl
      · rw [if_neg h]

def Registers (s : Watcher) : Prop :=
  ∀ id w, Unsettled s id w → Assoc.find s.watchedJobs w.jobName = some id

theorem watched_iff : Watched s ↔ Registers s ∧ ∀ id w, Unsettled s id w → Active s := by
  constructor
  · exact fun h => ⟨fun id w hu => (h id w hu.1 hu.2).1, fun id w hu => (h id w hu.1 hu.2).2⟩
  · exact fun h id w hw hn => ⟨h.1 id w ⟨hw, hn⟩, h.2 id w ⟨hw, hn⟩⟩

/-- A callback that is the only one for its job among the unsettled. -/
theorem finish_spec {jobName : String} (outcome : Outcome) (hr : Registers s)
    (honly : ∀ j w, Unsettled s j w → w.jobName = jobName → j = id) :
    Settles s (finish s jobName id outcome) ∧ (finish s jobName id outcome).runs = s.runs ∧
      Registers (finish s jobName id outcome) := by
  obtain ⟨hjobs, hruns, -⟩ := settle_rest s id outcome
  refine ⟨(settle_settles s id outcome).trans (settles_refl rfl rfl), hruns, fun j w hu => ?_⟩
  have hu' : Unsettled (settle s id outcome) j w := hu
  obtain ⟨hold, hne⟩ := settle_unsettled hu'
  have hjob : jobName ≠ w.jobName := fun he => hne (honly j w hold he.symm)
  show Assoc.find (Assoc.remove (settle s id outcome).watchedJobs jobName) w.jobName = some j
  rw [hjobs, Assoc.find_remove, if_neg hjob]
  exact hr j w hold

theorem processJob_spec (hr : Registers s) (type : Option EventType) (job : Job) :
    Settles s (processJob s type job) ∧ (processJob s type job).runs = s.runs ∧ Registers (processJob s type job) := by
  unfold processJob
  cases hf : Assoc.find s.watchedJobs job.name with
  | none => exact ⟨settles_refl rfl rfl, rfl, hr⟩
  | some id =>
    have honly : ∀ j w, Unsettled s j w → w.jobName = job.name → j = id := by
      intro j w hu hjob
      have := hr j w hu
      rw [hjob, hf] at this
      exact (Option.some.inj this).symm
    dsimp only
    split
    · exact finish_spec _ hr honly
    · -- a job may have succeeded and failed; the second outcome finds nothing left to settle
      have hfirst : ∃ s₁, (if 0 < job.succeeded then finish s job.name id .resolved else s) = s₁ ∧ Settles s s₁ ∧
          s₁.runs = s.runs ∧ Registers s₁ := by
        split
        · exact ⟨_, rfl, finish_spec _ hr honly⟩
        · exact ⟨_, rfl, settles_refl rfl rfl, rfl, hr⟩
      obtain ⟨s₁, heq, hs, hruns, hr₁⟩ := hfirst
      rw [heq]
      cases failure job with
      | none => exact ⟨hs, hruns, hr₁⟩
      | some message =>
        obtain ⟨hs', hruns', hr'⟩ := finish_spec (.rejected message) hr₁
          fun j w hu => honly j w (hs.unsettled j w hu)
        exact ⟨hs.trans hs', hruns'.trans hruns, hr'⟩

/-- The jobs of a list, one after another. -/
theorem processJobs_spec (jobs : List Job) (hr : Registers s) :
    Settles s (jobs.foldl (fun s job => processJob s none job) s) ∧
      (jobs.foldl (fun s job => processJob s none job) s).runs = s.runs ∧
      Registers (jobs.foldl (fun s job => processJob s none job) s) := by
  induction jobs generalizing s with
  | nil => exact ⟨settles_refl rfl rfl, rfl, hr⟩
  | cons job jobs ih =>
    obtain ⟨hs, hruns, hr'⟩ := processJob_spec hr none job
    obtain ⟨hs', hruns', hr''⟩ := ih hr'
    exact ⟨hs.trans hs', hruns'.trans hruns, hr''⟩

/-- Every callback that was in the map has been called. -/
theorem rejectAll_spec (s : Watcher) : Settles s (rejectAll s) ∧
    ∀ id w, Unsettled (rejectAll s) id w → ∀ entry ∈ s.watchedJobs, entry.2 ≠ id := by
  unfold rejectAll
  generalize s.watchedJobs = entries
  induction entries generalizing s with
  | nil => exact ⟨settles_refl rfl rfl, fun _ _ _ _ h => nomatch h⟩
  | cons entry entries ih =>
    obtain ⟨hs, hnone⟩ := ih (settle s entry.2 (.rejected ("Kubernetes failed to watch " ++ entry.1)))
    refine ⟨(settle_settles ..).trans hs, fun id w hu e he => ?_⟩
    rcases List.mem_cons.mp he with rfl | he
    · exact fun h => (settle_unsettled (hs.unsettled id w hu)).2 h.symm
    · exact hnone id w hu e he

theorem rejectAll_settled (hr : Registers s) : ¬Unsettled (rejectAll s) id w := by
  intro hu
  obtain ⟨hs, hnone⟩ := rejectAll_spec s
  exact hnone id w hu _ (Assoc.mem_of_find (hr id w (hs.unsettled id w hu))) rfl

theorem watchJobs_settles (s : Watcher) : Settles s (watchJobs s) := by
  unfold watchJobs
  split
  · exact (rejectAll_spec s).1
  · exact settles_refl rfl rfl

/-- A run lists the jobs, or leaves nothing unsettled. -/
theorem watchJobs_watched (hr : Registers s) : Watched (watchJobs s) := by
  rw [watched_iff]
  unfold watchJobs
  split
  · exact ⟨fun id w hu => absurd hu (rejectAll_settled hr), fun id w hu => absurd hu (rejectAll_settled hr)⟩
  · exact ⟨hr, fun _ _ _ => ⟨.listing, List.mem_append_right _ (List.mem_singleton.mpr rfl), rfl⟩⟩

/-! ## The reference count -/

/-- The references are those of the waits that have not been closed, and what is closed
    has settled. -/
structure Inv (s : Watcher) : Prop where
  count : s.useCount = (s.waits.map (·.closed)).count false
  closed : ∀ w ∈ s.waits, w.closed = true → w.settled ≠ none

theorem Inv.settles (hi : Inv s) (h : Settles s s') : Inv s' := by
  refine ⟨?_, fun w hw hclosed hn => ?_⟩
  · rw [h.useCount, h.closed]
    exact hi.count
  · obtain ⟨id, hid⟩ := List.getElem?_of_mem hw
    exact hi.closed w (List.mem_of_getElem? (h.unsettled id w ⟨hid, hn⟩).1) hclosed hn

/-- Without references nothing is unsettled. -/
theorem Inv.settled (hi : Inv s) (h0 : s.useCount = 0) : ¬Unsettled s id w := by
  intro hu
  have hmem := List.mem_of_getElem? hu.1
  have hnot : false ∉ s.waits.map (·.closed) := List.count_eq_zero.mp (hi.count.symm.trans h0)
  cases hc : w.closed with
  | true => exact hi.closed w hmem hc hu.2
  | false => exact hnot (List.mem_map.mpr ⟨w, hmem, hc⟩)

theorem openRef_settles (s : Watcher) :
    ∃ s₁, s₁.waits = s.waits ∧ s₁.useCount = s.useCount + 1 ∧ Settles s₁ (openRef s) := by
  unfold openRef
  split
  · rename_i h
    exact ⟨{ s with useCount := 1 }, rfl, by rw [h], watchJobs_settles _⟩
  · exact ⟨{ s with useCount := s.useCount + 1 }, rfl, rfl, settles_refl rfl rfl⟩

theorem inv_wait (hi : Inv s) (jobName : String) : Inv (wait config s jobName) := by
  obtain ⟨s₁, hw, hu, hs⟩ :=
    openRef_settles (watch config { s with waits := s.waits ++ [{ jobName := jobName }] } jobName s.waits.length)
  refine Inv.settles (s := s₁) ⟨?_, ?_⟩ hs
  · rw [hw, hu]
    show s.useCount + 1 = ((s.waits ++ [{ jobName := jobName }] : List Wait).map (·.closed)).count false
    rw [hi.count, List.map_append, List.count_append]
    rfl
  · rw [hw]
    intro w hmem hclosed
    rcases List.mem_append.mp hmem with hmem | hmem
    · exact hi.closed w hmem hclosed
    · rw [List.mem_singleton.mp hmem] at hclosed
      cases hclosed

theorem doClose_rest (s : Watcher) : (doClose s).waits = s.waits ∧ (doClose s).useCount = s.useCount ∧
    (doClose s).watchedJobs = s.watchedJobs := by
  unfold doClose
  split
  · exact ⟨rfl, rfl, rfl⟩
  · split <;> exact ⟨rfl, rfl, rfl⟩

/-- The last reference may abort a stream; any other leaves the runs alone. -/
theorem closeRef_spec (s : Watcher) : (closeRef s).waits = s.waits ∧ (closeRef s).useCount = s.useCount - 1 ∧
    (closeRef s).watchedJobs = s.watchedJobs ∧ ((closeRef s).useCount = 0 ∨ (closeRef s).runs = s.runs) := by
  unfold closeRef
  split
  · rename_i h
    obtain ⟨hw, hu, hjobs⟩ := doClose_rest { s with useCount := 0 }
    exact ⟨hw, by rw [hu, h], hjobs, Or.inl hu⟩
  · exact ⟨rfl, rfl, rfl, Or.inr rfl⟩

/-- A wait that closes has settled and held a reference. -/
theorem close_spec (hi : Inv s) (hw : s.waits[id]? = some w) (hs : w.settled ≠ none) (hc : w.closed = false) :
    Inv (close s id) ∧ (∀ j w', Unsettled (close s id) j w' → Unsettled s j w') ∧
      (close s id).watchedJobs = s.watchedJobs ∧ ((close s id).useCount = 0 ∨ (close s id).runs = s.runs) := by
  have hlt := getElem?_lt hw
  have hwid : s.waits[id] = w := (List.getElem?_eq_some_iff.mp hw).2
  obtain ⟨hwaits, huse, hjobs, hruns⟩ := closeRef_spec { s with waits := s.waits.set id { w with closed := true } }
  have heq : close s id = closeRef { s with waits := s.waits.set id { w with closed := true } } := by
    unfold close
    rw [hw]
  rw [heq]
  refine ⟨⟨?_, fun w' hmem hclosed => ?_⟩, fun j w' ⟨hj, hn⟩ => ?_, hjobs, hruns⟩
  · have hpos : 0 < (s.waits.map (·.closed)).count false :=
      List.count_pos_iff.mpr (List.mem_map.mpr ⟨w, List.mem_of_getElem? hw, hc⟩)
    rw [hwaits, huse]
    show s.useCount - 1 = ((s.waits.set id { w with closed := true }).map (·.closed)).count false
    rw [List.map_set, List.count_set (by rw [List.length_map]; exact hlt), hi.count]
    simp [hwid, hc]
  · rw [hwaits] at hmem
    rcases List.mem_or_eq_of_mem_set hmem with hmem | rfl
    · exact hi.closed w' hmem hclosed
    · exact hs
  · rw [hwaits] at hj
    have hj' : (s.waits.set id { w with closed := true })[j]? = some w' := hj
    rw [getElem?_updated hw] at hj'
    split at hj'
    · cases hj'
      exact absurd hn hs
    · exact ⟨hj', hn⟩

/-! ## The steps -/

theorem step_spec (h : step config s e = some s') : enabled s e = true ∧ s' = apply config s e := by
  unfold step at h
  split at h
  · cases h
  · rename_i hn
    cases h
    refine ⟨?_, rfl⟩
    cases he : enabled s e with
    | true => rfl
    | false => simp [he] at hn

theorem close_enabled (h : enabled s (.close id) = true) :
    ∃ w, s.waits[id]? = some w ∧ w.settled ≠ none ∧ w.closed = false := by
  unfold enabled at h
  obtain ⟨w, hw, hp⟩ := (Option.any_eq_true _ _).mp h
  obtain ⟨hs, hc⟩ := Bool.and_eq_true _ _ ▸ hp
  refine ⟨w, hw, ?_, by simpa using hc⟩
  intro hn
  rw [hn] at hs
  cases hs

theorem listed_settles (hr : Registers s) (jobs : List Job) : Settles s (listed s k jobs) :=
  (processJobs_spec jobs hr).1.trans (settles_refl rfl rfl)

theorem watchEvent_spec (hr : Registers s) (type : EventType) (job : Job) :
    Settles s (watchEvent s type job) ∧ (watchEvent s type job).runs = s.runs ∧ Registers (watchEvent s type job) := by
  unfold watchEvent
  split
  · exact ⟨settles_refl rfl rfl, rfl, hr⟩
  · exact processJob_spec hr _ job

theorem done_settles (s : Watcher) (k : Nat) : Settles s (done s k) := by
  unfold done
  dsimp only
  split
  · exact settles_refl rfl rfl
  · have hs := watchJobs_settles { s with runs := s.runs.set k .ended, numTriesLeft := s.numTriesLeft - 1 }
    exact ⟨hs.useCount, hs.closed, hs.unsettled⟩

theorem step_inv (hi : Inv s) (hr : Registers s) (h : step config s e = some s') : Inv s' := by
  obtain ⟨he, rfl⟩ := step_spec h
  cases e with
  | wait jobName => exact inv_wait hi jobName
  | listed k jobs => exact hi.settles (listed_settles hr jobs)
  | listFailed k => exact hi.settles (settles_refl rfl rfl)
  | opened k => exact hi.settles (settles_refl rfl rfl)
  | openFailed k => exact hi.settles (settles_refl rfl rfl)
  | event k type job => exact hi.settles (watchEvent_spec hr type job).1
  | done k => exact hi.settles (done_settles s k)
  | close id =>
    obtain ⟨w, hw, hs, hc⟩ := close_enabled he
    exact (close_spec hi hw hs hc).1

theorem find_watch (config : Int) (s : Watcher) (jobName name : String) (id : Nat) :
    Assoc.find (watch config s jobName id).watchedJobs name = if jobName = name then some id
      else Assoc.find s.watchedJobs name := by
  show Assoc.find (if _ then _ else _) name = _
  cases hf : Assoc.find s.watchedJobs jobName with
  | none => exact Assoc.find_add hf name
  | some id' => exact Assoc.find_put hf name

/-- The waits that are unsettled once a new one has begun. -/
theorem unsettled_begun (s s' : Watcher) {jobName : String} {j : Nat}
    (hw : s'.waits = s.waits ++ [{ jobName := jobName }]) :
    Unsettled s' j w ↔ (j = s.waits.length ∧ w = { jobName := jobName }) ∨ Unsettled s j w := by
  unfold Unsettled
  rw [hw, getElem?_created]
  by_cases hj : j = s.waits.length
  · rw [if_pos hj, List.getElem?_eq_none (by omega)]
    constructor
    · intro ⟨h, _⟩
      exact Or.inl ⟨hj, (Option.some.inj h).symm⟩
    · intro h
      rcases h with ⟨-, rfl⟩ | ⟨h, -⟩
      · exact ⟨rfl, rfl⟩
      · cases h
  · rw [if_neg hj]
    simp [hj]

theorem registers_begun (config : Int) {jobName : String} (hr : Registers s)
    (hother : ∀ j w, Unsettled s j w → w.jobName ≠ jobName) :
    Registers (watch config { s with waits := s.waits ++ [{ jobName := jobName }] } jobName s.waits.length) := by
  intro j w hu
  rw [find_watch]
  rcases (unsettled_begun s _ rfl).mp hu with ⟨rfl, rfl⟩ | hold
  · exact if_pos rfl
  · rw [if_neg fun he => hother j w hold he.symm]
    exact hr j w hold

/-- A wait begins: the first reference starts a run, and any other relies on one. -/
theorem wait_watched_iff (hi : Inv s) (hw : Watched s) (jobName : String) :
    Watched (wait config s jobName) ↔ Kept s (.wait jobName) := by
  obtain ⟨hr, hactive⟩ := watched_iff.mp hw
  unfold wait openRef
  have huse : (watch config { s with waits := s.waits ++ [{ jobName := jobName }] } jobName s.waits.length).useCount =
      s.useCount := rfl
  dsimp only
  rw [huse]
  by_cases h0 : s.useCount = 0
  · rw [if_pos h0]
    refine iff_of_true ?_ (Or.inl h0)
    exact watchJobs_watched (registers_begun config hr fun j w hu => absurd hu (hi.settled h0))
  · rw [if_neg h0]
    constructor
    · intro hwatched
      obtain ⟨hr', hactive'⟩ := watched_iff.mp hwatched
      refine Or.inr ⟨hactive' _ _ ((unsettled_begun s _ rfl).mpr (Or.inl ⟨rfl, rfl⟩)), fun w hmem hn hjob => ?_⟩
      -- the callbacks of a wait for the same job are overwritten
      obtain ⟨j, hj⟩ := List.getElem?_of_mem hmem
      have hfind := hr' j w ((unsettled_begun s _ rfl).mpr (Or.inr ⟨hj, hn⟩))
      have hfind' := (find_watch config { s with waits := s.waits ++ [{ jobName := jobName }] } jobName w.jobName
        s.waits.length).symm.trans hfind
      rw [if_pos hjob.symm] at hfind'
      have := getElem?_lt hj
      have := Option.some.inj hfind'
      omega
    · intro hk
      obtain ⟨hact, hother⟩ := hk.resolve_left h0
      refine watched_iff.mpr ⟨?_, fun _ _ _ => hact⟩
      exact registers_begun config hr fun j w hu => hother w (List.mem_of_getElem? hu.1) hu.2

/-- The process ends, and with it every run. -/
theorem crash_watched_iff : Watched (crash s) ↔ ∀ w ∈ s.waits, w.settled ≠ none := by
  constructor
  · intro h w hmem hn
    obtain ⟨id, hid⟩ := List.getElem?_of_mem hmem
    obtain ⟨p, hp, hwatching⟩ := (h id w hid hn).2
    obtain ⟨_, -, rfl⟩ := List.mem_map.mp hp
    cases hwatching
  · exact fun h id w hid hn => absurd hn (h w (List.mem_of_getElem? hid))

theorem active_set {phase phase' : Phase} (hk : s.runs[k]? = some phase) (hp : phase'.watching = true)
    (hruns : s'.runs = s.runs.set k phase') : Active s' := by
  refine ⟨phase', ?_, hp⟩
  rw [hruns]
  exact List.mem_of_getElem? (getElem?_updated_self hk phase')

theorem listed_watched (hr : Registers s) (hk : s.runs[k]? = some .listing) (jobs : List Job) :
    Watched (listed s k jobs) := by
  obtain ⟨-, hruns, hr'⟩ := processJobs_spec jobs hr
  unfold listed
  dsimp only
  refine watched_iff.mpr ⟨hr', fun id w hu => ?_⟩
  split
  · -- an unsettled wait would be in the map
    rename_i hempty
    have hfind := hr' id w hu
    rw [hempty] at hfind
    cases hfind
  · rw [← hruns] at hk
    exact active_set hk rfl rfl

theorem done_watched (hr : Registers s) (k : Nat) : Watched (done s k) := by
  unfold done
  dsimp only
  split
  · rename_i hempty
    intro id w hw hn
    have hfind := hr id w ⟨hw, hn⟩
    rw [hempty] at hfind
    cases hfind
  · exact watchJobs_watched hr

/-- A step keeps every unsettled wait watched exactly when it is none of the three. -/
theorem step_watched_iff (hi : Inv s) (hw : Watched s) (h : step config s e = some s') : Watched s' ↔ Kept s e := by
  obtain ⟨hr, hactive⟩ := watched_iff.mp hw
  obtain ⟨he, rfl⟩ := step_spec h
  cases e with
  | wait jobName => exact wait_watched_iff hi hw jobName
  | listed k jobs => exact iff_of_true (listed_watched hr (by simpa [enabled] using he) jobs) trivial
  | listFailed k => exact crash_watched_iff
  | openFailed k => exact crash_watched_iff
  | opened k =>
    have hk : s.runs[k]? = some .opening := by simpa [enabled] using he
    exact iff_of_true (watched_iff.mpr ⟨hr, fun _ _ _ => active_set hk rfl rfl⟩) trivial
  | event k type job =>
    obtain ⟨hs, hruns, hr'⟩ := watchEvent_spec hr type job
    refine iff_of_true (watched_iff.mpr ⟨hr', fun id w hu => ?_⟩) trivial
    obtain ⟨p, hp, hwatching⟩ := hactive id w (hs.unsettled id w hu)
    exact ⟨p, hruns ▸ hp, hwatching⟩
  | done k => exact iff_of_true (done_watched hr k) trivial
  | close id =>
    obtain ⟨w, hwid, hs, hc⟩ := close_enabled he
    obtain ⟨hi', hold, hjobs, hruns⟩ := close_spec hi hwid hs hc
    refine iff_of_true (watched_iff.mpr ⟨fun j w' hu => ?_, fun j w' hu => ?_⟩) trivial
    · show Assoc.find (close s id).watchedJobs w'.jobName = some j
      rw [hjobs]
      exact hr j w' (hold j w' hu)
    · -- as long as a wait is unsettled this was not the last reference
      rcases hruns with h0 | hruns
      · exact absurd hu (hi'.settled h0)
      · obtain ⟨p, hp, hwatching⟩ := hactive j w' (hold j w' hu)
        exact ⟨p, (show (close s id).runs = s.runs from hruns) ▸ hp, hwatching⟩

/-! ## Runs -/

/-- In every run without the three every wait that has not settled is watched, and every
    further step keeps it so exactly when it is none of them. -/
theorem waits_watched (h : Reach (sys config) Kept s) :
    Watched s ∧ ∀ e s', (sys config).step s e = some s' → (Watched s' ↔ Kept s e) := by
  have hinit : ∀ s, (sys config).init s → Inv s ∧ Watched s := by
    intro s hs
    rw [show s = {} from hs]
    exact ⟨⟨rfl, fun _ h => nomatch h⟩, fun _ _ h => by simp at h⟩
  obtain ⟨hi, hw⟩ : Inv s ∧ Watched s := h.inv hinit fun s e s' ⟨hi, hw⟩ hk h =>
    ⟨step_inv hi (watched_iff.mp hw).1 h, (step_watched_iff hi hw h).mpr hk⟩
  exact ⟨hw, fun e s' h => step_watched_iff hi hw h⟩

/-- A stream ends while its job goes on, and the next run lists the jobs. -/
theorem resumed_watched :
    ∃ s, run (sys 5) {} [.wait "a", .listed 0 [⟨"a", 0, none⟩], .opened 0, .done 0] = some s ∧
      s.waits[0]? = some { jobName := "a" } ∧ s.runs = [.ended, .listing] ∧ Watched s := by
  have h0 : Reach (sys 5) Kept {} := .init rfl
  have hr := (((h0.step (Ev.wait "a") (Or.inl rfl) rfl).step (Ev.listed 0 [⟨"a", 0, none⟩]) trivial rfl).step
    (Ev.opened 0) trivial rfl).step (Ev.done 0) trivial rfl
  exact ⟨_, rfl, rfl, rfl, (waits_watched hr).1⟩

/-- The first list fails, and the wait is neither watched nor rejected. -/
theorem failed_list_leaves_wait : ¬∀ s, Reach (sys 5) any s → Watched s := by
  intro h
  have hr : Reach (sys 5) any _ :=
    (Reach.init rfl).run [.wait "a", .listFailed 0] (fun _ _ _ => trivial) rfl
  obtain ⟨p, hp, hwatching⟩ := (h _ hr 0 { jobName := "a" } rfl rfl).2
  have hended : p ∈ [Phase.ended] := hp
  rw [List.mem_singleton.mp hended] at hwatching
  cases hwatching

end GenieCloud.Training.JobWatcher
