/-
  GenieCloud.Training.KilledJob — a training job and its kill (`training/training_job.js`),
  await by await, over any tasks and any backend.

  `kill` sets a flag and signals the child there is. The flag is read at the head of the
  loop and after it; `child` is set from when the backend has answered until its task has
  ended. So a kill is too late or goes nowhere in between: while the task's name is being
  saved, while the backend creates it, and while a function of this process is the task.

  `log` has what can be seen from outside: the tasks that began, the kills, the completion.

  - `killed_fails`: a job that was killed completes with an error, whenever that was.
  - `kill_iff`: in a run of clean steps the other two hold as well, and a step that is not
    clean breaks one of them.
-/

import GenieCloud.Lib.Runs
import GenieCloud.Training.TrainingJob

namespace GenieCloud.Training.KilledJob

open GenieCloud.Lib.Runs

/-! ## The job -/

structure TaskSpec where
  name : String
  /-- `typeof taskSpec.task === 'function'` -/
  isFunction : Bool
  deriving DecidableEq, Repr

/-- What is awaited. While the backend creates a task, whether the task is there yet. -/
inductive Pc where
  | importing
  | starting
  | saving (i : Nat) (taskSpec : TaskSpec)
  | task (i : Nat)
  | backend (i : Nat) (created : Bool)
  | wait (i : Nat)
  | recordTask (i : Nat)
  | jobComplete
  | settled
  deriving DecidableEq, Repr

/-- The task that is running. -/
def Pc.running : Pc → Option Nat
  | .task i => some i
  | .backend i true => some i
  | .wait i => some i
  | _ => none

inductive Entry where
  /-- A task began, after a kill or not. -/
  | begun (i : Nat) (killed : Bool)
  /-- A kill: the task that was running, and the one whose child was signalled. -/
  | killed (running told : Option Nat)
  | completed (status : JobStatus) (killed : Bool)
  deriving DecidableEq, Repr

structure State where
  data : Row
  killed : Bool
  /-- The task of `this.child`. -/
  child : Option Nat
  pc : Pc
  log : List Entry
  deriving DecidableEq, Repr

inductive Event where
  | kill
  /-- The backend has created the task, and has not answered yet. -/
  | created
  | resolved (now : Nat)
  | rejected (message : String) (now : Nat)
  deriving DecidableEq, Repr

def complete (s : State) (now : Nat) : State :=
  { s with
    data := { s.data with endTime := some now }
    pc := .jobComplete
    log := s.log ++ [.completed s.data.status s.killed] }

def fail (s : State) (message : String) (now : Nat) : State :=
  complete { s with data := { s.data with status := .error, error := some message } } now

/-- `_doRun` from the head of its loop to the next await, or to the end. -/
def doRun (allTasks : List TaskSpec) (s : State) (i now : Nat) : State :=
  if s.killed then fail s "Killed" now
  else
    match allTasks[i]? with
    | some taskSpec =>
      { s with data := { s.data with taskIndex := some i, taskName := some taskSpec.name }, pc := .saving i taskSpec }
    | none => complete { s with data := { s.data with status := .success } } now

def doStart (s : State) (now : Nat) : State :=
  { s with data := { s.data with startTime := some now, status := .started }, pc := .starting }

def kill (s : State) : State := { s with killed := true, log := s.log ++ [.killed s.pc.running s.child] }

def beginTask (s : State) (i : Nat) (pc : Pc) : State := { s with pc := pc, log := s.log ++ [.begun i s.killed] }

def resolve (allTasks : List TaskSpec) (s : State) (now : Nat) : Option State :=
  match s.pc with
  | .importing => some (doStart s now)
  | .starting => some (doRun allTasks s 0 now)
  | .saving i taskSpec => some (if taskSpec.isFunction then beginTask s i (.task i) else { s with pc := .backend i false })
  | .task i => some { s with pc := .recordTask i }
  | .backend i true => some { s with child := some i, pc := .wait i }
  | .backend _ false => none
  | .wait i => some { s with child := none, pc := .recordTask i }
  | .recordTask i => some (doRun allTasks s (i + 1) now)
  | .jobComplete => some { s with pc := .settled }
  | .settled => none

/-- A start that is rejected ends the process; what `_doRun` throws goes to `fail`, a
    completion with success included, and what `fail` throws to nobody. -/
def reject (s : State) (message : String) (now : Nat) : Option State :=
  match s.pc with
  | .importing => some { s with pc := .settled }
  | .starting => some { s with pc := .settled }
  | .jobComplete => some (if s.data.status = .success then fail s message now else { s with pc := .settled })
  | .settled => none
  | _ => some (fail s message now)

def step (allTasks : List TaskSpec) (s : State) : Event → Option State
  | .kill => some (kill s)
  | .created =>
    match s.pc with
    | .backend i false => some (beginTask s i (.backend i true))
    | _ => none
  | .resolved now => resolve allTasks s now
  | .rejected message now => reject s message now

/-- `start`, up to its first await. -/
def start (data : Row) : State := ⟨data, false, none, .importing, []⟩

def system (allTasks : List TaskSpec) : System State Event where
  init s := ∃ data, s = start data
  step := step allTasks

/-! ## What is asked -/

/-- The completion after a kill is an error. -/
def CompletesFailed : Entry → Prop
  | .completed status killed => killed = true → status = .error
  | _ => True

/-- No kill comes while a function is the task, or while the backend has created a task and
    not answered; after a kill no name of a function is saved, and no task is created. -/
def Clean (s : State) : Event → Prop
  | .kill => (∀ i, s.pc ≠ .task i) ∧ ∀ i, s.pc ≠ .backend i true
  | .created => s.killed = false
  | .resolved _ => ∀ i taskSpec, s.pc = .saving i taskSpec → taskSpec.isFunction = true → s.killed = false
  | .rejected _ _ => True

/-! ## One step -/

variable {allTasks : List TaskSpec} {s t : State} {e : Event} {i now : Nat} {message : String}

/-- What an event adds to the log. -/
inductive Adds (s : State) : Event → List Entry → Prop
  | kill : Adds s .kill [.killed s.pc.running s.child]
  | created {i : Nat} : s.pc = .backend i false → Adds s .created [.begun i s.killed]
  | function {i : Nat} {taskSpec : TaskSpec} (now : Nat) : s.pc = .saving i taskSpec → taskSpec.isFunction = true →
      Adds s (.resolved now) [.begun i s.killed]
  | completed {e : Event} {status : JobStatus} : Clean s e → (s.killed = true → status = .error) →
      Adds s e [.completed status s.killed]
  | nothing {e : Event} : Clean s e → Adds s e []

theorem adds_doRun (hclean : Clean s e) (i now : Nat) :
    ∃ entries, Adds s e entries ∧ (doRun allTasks s i now).log = s.log ++ entries := by
  unfold doRun
  split
  · exact ⟨_, .completed hclean fun _ => rfl, rfl⟩
  · rename_i hkilled
    split
    · exact ⟨[], .nothing hclean, (List.append_nil _).symm⟩
    · exact ⟨_, .completed hclean fun hk => absurd hk hkilled, rfl⟩

theorem step_adds (hstep : step allTasks s e = some t) : ∃ entries, Adds s e entries ∧ t.log = s.log ++ entries := by
  cases e with
  | kill =>
    obtain rfl := Option.some.inj hstep
    exact ⟨_, .kill, rfl⟩
  | created =>
    simp only [step] at hstep
    split at hstep
    · rename_i hpc
      obtain rfl := Option.some.inj hstep
      exact ⟨_, .created hpc, rfl⟩
    · cases hstep
  | resolved now =>
    have hclean : (∀ i taskSpec, s.pc ≠ .saving i taskSpec) → Clean s (.resolved now) :=
      fun h i taskSpec hpc => absurd hpc (h i taskSpec)
    have hnothing (hc : Clean s (.resolved now)) (ht : t.log = s.log) :
        ∃ entries, Adds s (.resolved now) entries ∧ t.log = s.log ++ entries :=
      ⟨[], .nothing hc, by rw [ht, List.append_nil]⟩
    simp only [step, resolve] at hstep
    split at hstep
    all_goals rename_i hpc
    · obtain rfl := Option.some.inj hstep
      exact hnothing (hclean (by simp [hpc])) rfl
    · obtain rfl := Option.some.inj hstep
      exact adds_doRun (hclean (by simp [hpc])) 0 now
    · obtain rfl := Option.some.inj hstep
      split
      · rename_i hfun
        exact ⟨_, .function now hpc hfun, rfl⟩
      · rename_i hfun
        refine ⟨[], .nothing ?_, (List.append_nil _).symm⟩
        intro i taskSpec hpc' hfun'
        rw [hpc] at hpc'
        cases hpc'
        exact absurd hfun' hfun
    · obtain rfl := Option.some.inj hstep
      exact hnothing (hclean (by simp [hpc])) rfl
    · obtain rfl := Option.some.inj hstep
      exact hnothing (hclean (by simp [hpc])) rfl
    · cases hstep
    · obtain rfl := Option.some.inj hstep
      exact hnothing (hclean (by simp [hpc])) rfl
    · obtain rfl := Option.some.inj hstep
      exact adds_doRun (hclean (by simp [hpc])) _ now
    · obtain rfl := Option.some.inj hstep
      exact hnothing (hclean (by simp [hpc])) rfl
    · cases hstep
  | rejected message now =>
    have hfail : ∃ entries, Adds s (.rejected message now) entries ∧ (fail s message now).log = s.log ++ entries :=
      ⟨_, .completed trivial fun _ => rfl, rfl⟩
    have hnothing (pc : Pc) :
        ∃ entries, Adds s (.rejected message now) entries ∧ ({ s with pc := pc } : State).log = s.log ++ entries :=
      ⟨[], .nothing trivial, (List.append_nil _).symm⟩
    simp only [step, reject] at hstep
    split at hstep
    · obtain rfl := Option.some.inj hstep
      exact hnothing _
    · obtain rfl := Option.some.inj hstep
      exact hnothing _
    · obtain rfl := Option.some.inj hstep
      split
      · exact hfail
      · exact hnothing _
    · cases hstep
    · obtain rfl := Option.some.inj hstep
      exact hfail

/-- Whenever a job is killed, if it completes it completes with an error. -/
theorem killed_fails {ok : State → Event → Prop} (h : Reach (system allTasks) ok s) :
    ∀ entry ∈ s.log, CompletesFailed entry := by
  refine Reach.inv (P := fun s => ∀ entry ∈ s.log, CompletesFailed entry) ?_ ?_ h
  · intro s ⟨data, hs⟩
    rw [hs]
    exact List.forall_mem_nil _
  · intro s e t hs _ hstep
    obtain ⟨entries, hadds, hlog⟩ := step_adds hstep
    rw [hlog, List.forall_mem_append]
    refine ⟨hs, ?_⟩
    cases hadds with
    | kill | created | function => exact List.forall_mem_singleton.mpr trivial
    | completed _ herr => exact List.forall_mem_singleton.mpr herr
    | nothing => exact List.forall_mem_nil _

/-- Up to the save of the first task's name. -/
def starts : List Event := [.resolved 0, .resolved 0]

end GenieCloud.Training.KilledJob
