/-
  GenieCloud.Training.Completion — `_recordJobCompletion` as it runs: the calls for the
  dependents of a job are made together (`Promise.all`), and their statements come to the
  one connection in any order.

  `Call` is a call at the statement it sends next, or waiting for the calls it made. A job
  depends on one before it, so the jobs below two dependents of one job are different, and
  no call sees what the others do (`Holds`, kept by `step_holds`).

  - `recordJobCompletion_exact`: in every order the recording ends. On an error the job
    and those that depend on it, at any depth, have failed; every other row is as it was,
    and none depends on one that failed.
  - `done_eq`: it ends in the one table that the calls one after the other end in.
-/

import GenieCloud.Training.Daemon
import Mathlib.Algebra.GroupWithZero.Nat
import Mathlib.Algebra.Order.BigOperators.Group.List
import Mathlib.Algebra.Order.Group.Nat
import Mathlib.Logic.Relation

namespace GenieCloud.Training.Completion

open GenieCloud.Lib Relation

/-! ## Calls -/

/-- A call of `_recordJobCompletion` with an outcome. The second statement is sent on an
    error only; before the third, the calls for the dependents end. -/
inductive Call where
  | update (id : Nat) (row : Outcome)
  | getDependents (id : Nat) (row : Outcome)
  | releaseDependents (id : Nat) (row : Outcome) (dependencies : List Call)
  | done (id : Nat) (row : Outcome)

def Call.job : Call → Nat × Outcome
  | .update id row => (id, row)
  | .getDependents id row => (id, row)
  | .releaseDependents id row _ => (id, row)
  | .done id row => (id, row)

def Call.ended : Call → Bool
  | .done _ _ => true
  | _ => false

/-- `dep.status = 'error'; dep.error = 'Dependency failed'`. -/
def dependency (dep : Nat × Row) : Nat × Outcome := (dep.1, dependencyFailed dep.2)

def startCall (job : Nat × Outcome) : Call := .update job.1 job.2

/-- One statement of one call. -/
inductive Step : Table Row → Call → Table Row → Call → Prop
  | update {jobs : Table Row} (id : Nat) (row : Outcome) : Step jobs (.update id row)
      (Training.update jobs id (·.complete row))
      (if row.status = .error then .getDependents id row else .releaseDependents id row [])
  | getDependents {jobs : Table Row} (id : Nat) (row : Outcome) : Step jobs (.getDependents id row)
      jobs (.releaseDependents id row (((Training.getDependents jobs id).map dependency).map startCall))
  | dependency {jobs jobs' : Table Row} {call call' : Call} (id : Nat) (row : Outcome) (before after : List Call) :
      Step jobs call jobs' call' → Step jobs (.releaseDependents id row (before ++ call :: after))
        jobs' (.releaseDependents id row (before ++ call' :: after))
  | releaseDependents {jobs : Table Row} (id : Nat) (row : Outcome) {calls : List Call} :
      (∀ call ∈ calls, call.ended = true) →
      Step jobs (.releaseDependents id row calls) (Training.releaseDependents jobs id) (.done id row)

def Next (x y : Table Row × Call) : Prop := Step x.1 x.2 y.1 y.2

def Run : Table Row × Call → Table Row × Call → Prop := ReflTransGen Next

/-! ## What is asked -/

/-- A job depends on another. -/
def DependsOn (jobs : Table Row) (i d : Nat) : Prop := ∃ r, jobs.get? i = some r ∧ r.dependsOn = some d

/-- A job is another, or depends on it at some depth. -/
def Below (jobs : Table Row) : Nat → Nat → Prop := ReflTransGen (DependsOn jobs)

/-- The outcome of a job is recorded, and nothing depends on it any more. -/
def ReleasesExactly (jobs : Table Row) (id : Nat) (row : Outcome) (jobs' : Table Row) : Prop :=
  ∀ i, jobs'.get? i = (jobs.get? i).map fun r =>
    { (if i = id then r.complete row else r) with dependsOn := if r.dependsOn = some id then none else r.dependsOn }

/-! ## Dependencies -/

variable {jobs jobs' now now' : Table Row} {i c d id : Nat} {row : Outcome} {call call' : Call} {calls : List Call}

theorem DependsOn.unique (h : DependsOn jobs i c) (h' : DependsOn jobs i d) : c = d := by
  obtain ⟨r, hr, hc⟩ := h
  obtain ⟨r', hr', hd⟩ := h'
  rw [hr] at hr'
  cases hr'
  rw [hc] at hd
  exact Option.some.inj hd

theorem DependsOn.lt (ha : Acyclic jobs) (h : DependsOn jobs i d) : d < i := by
  obtain ⟨r, hr, hd⟩ := h
  exact ha i r d hr hd

theorem Below.le (ha : Acyclic jobs) (h : Below jobs i d) : d ≤ i := by
  induction h with
  | refl => exact Nat.le_refl _
  | tail _ hd ih => exact Nat.le_trans (Nat.le_of_lt (hd.lt ha)) ih

/-- The jobs below two dependents of one job are different. -/
theorem Below.dependent_unique (ha : Acyclic jobs) (hc : DependsOn jobs c id) (hd : DependsOn jobs d id)
    (hic : Below jobs i c) (hid : Below jobs i d) : c = d := by
  have hle : ∀ {c d}, DependsOn jobs c id → DependsOn jobs d id → Below jobs c d → c = d := by
    intro c d hc hd h
    rcases ReflTransGen.cases_head h with rfl | ⟨x, hx, h⟩
    · rfl
    · obtain rfl := hx.unique hc
      have := Below.le ha h
      have := hd.lt ha
      omega
  have hunique : Relator.RightUnique (DependsOn jobs) := fun _ _ _ => DependsOn.unique
  rcases ReflTransGen.total_of_right_unique hunique hic hid with h | h
  · exact hle hc hd h
  · exact (hle hd hc h).symm

/-- The table since the recording began: dependencies have only gone away. -/
def Later (jobs now : Table Row) : Prop :=
  ∀ i r', now.get? i = some r' → ∃ r, jobs.get? i = some r ∧ (r'.dependsOn = r.dependsOn ∨ r'.dependsOn = none)

theorem Later.refl (jobs : Table Row) : Later jobs jobs := fun _ r hr => ⟨r, hr, .inl rfl⟩

theorem Later.dependsOn (h : Later jobs now) (hd : DependsOn now i d) : DependsOn jobs i d := by
  obtain ⟨r', hr', hd⟩ := hd
  obtain ⟨r, hr, he | he⟩ := h i r' hr'
  · exact ⟨r, hr, he ▸ hd⟩
  · rw [he] at hd
    cases hd

theorem get?_releaseDependents (jobs : Table Row) (id i : Nat) : (Training.releaseDependents jobs id).get? i =
    (jobs.get? i).map fun r => if r.dependsOn = some id then { r with dependsOn := none } else r := by
  rw [Training.releaseDependents, Table.get?_update]
  simp only [decide_eq_true_eq]

theorem get?_complete (jobs : Table Row) (id i : Nat) (row : Outcome) : (Training.update jobs id (·.complete row)).get? i =
    (jobs.get? i).map fun r => if i = id then r.complete row else r := by
  rw [Training.update, Table.get?_update]
  simp only [decide_eq_true_eq]

theorem Later.step (hl : Later jobs now) (h : Step now call now' call') : Later jobs now' := by
  induction h with
  | update id row =>
    intro i r' hr'
    rw [get?_complete] at hr'
    obtain ⟨r, hr, rfl⟩ := Option.map_eq_some_iff.mp hr'
    obtain ⟨r0, hr0, hd⟩ := hl i r hr
    refine ⟨r0, hr0, ?_⟩
    split
    · exact hd
    · exact hd
  | getDependents => exact hl
  | dependency _ _ _ _ _ ih => exact ih
  | releaseDependents id row _ =>
    intro i r' hr'
    rw [get?_releaseDependents] at hr'
    obtain ⟨r, hr, rfl⟩ := Option.map_eq_some_iff.mp hr'
    obtain ⟨r0, hr0, hd⟩ := hl i r hr
    refine ⟨r0, hr0, ?_⟩
    split
    · exact .inr rfl
    · exact hd

/-! ## What a call has done -/

/-- What becomes of a row below a job that has failed. -/
def failedRow (id : Nat) (row : Outcome) (i : Nat) (r : Row) : Row :=
  if i = id then r.complete row else { r.complete (dependencyFailed r) with dependsOn := none }

/-- The rows below the job of a call, by how far the call got since the table was `jobs`. -/
inductive Holds (jobs now : Table Row) : Call → Prop
  | update {id : Nat} {row : Outcome} : row.status = .error → (∀ i, Below jobs i id → now.get? i = jobs.get? i) →
      Holds jobs now (.update id row)
  | getDependents {id : Nat} {row : Outcome} : row.status = .error → now.get? id = (jobs.get? id).map (·.complete row) →
      (∀ i, Below jobs i id → i ≠ id → now.get? i = jobs.get? i) → Holds jobs now (.getDependents id row)
  | releaseDependents {id : Nat} {row : Outcome} {calls : List Call} : row.status = .error →
      now.get? id = (jobs.get? id).map (·.complete row) →
      calls.map Call.job = (Training.getDependents jobs id).map dependency → (∀ call ∈ calls, Holds jobs now call) →
      Holds jobs now (.releaseDependents id row calls)
  | done {id : Nat} {row : Outcome} : row.status = .error →
      (∀ i, Below jobs i id → now.get? i = (jobs.get? i).map (failedRow id row i)) → Holds jobs now (.done id row)

theorem mem_getDependents {r : Row} :
    (i, r) ∈ Training.getDependents jobs id ↔ jobs.get? i = some r ∧ r.dependsOn = some id := by
  rw [Training.getDependents, Table.mem_select, decide_eq_true_eq]

/-- The job of a call that was made for a dependent. -/
theorem dependent_of_mem (hjobs : calls.map Call.job = (Training.getDependents jobs id).map dependency) (h : call ∈ calls) :
    ∃ r, jobs.get? call.job.1 = some r ∧ r.dependsOn = some id ∧ call.job.2 = dependencyFailed r := by
  have hmem : call.job ∈ (Training.getDependents jobs id).map dependency := hjobs ▸ List.mem_map_of_mem h
  obtain ⟨⟨i, r⟩, hdep, he⟩ := List.mem_map.mp hmem
  obtain ⟨hr, hd⟩ := mem_getDependents.mp hdep
  rw [← he]
  exact ⟨r, hr, hd, rfl⟩

theorem call_of_dependent (hjobs : calls.map Call.job = (Training.getDependents jobs id).map dependency) {r : Row}
    (hr : jobs.get? i = some r) (hd : r.dependsOn = some id) : ∃ call ∈ calls, call.job = (i, dependencyFailed r) := by
  have hmem : dependency (i, r) ∈ calls.map Call.job := hjobs ▸ List.mem_map_of_mem (mem_getDependents.mpr ⟨hr, hd⟩)
  exact List.mem_map.mp hmem

/-- The calls made together are for different jobs. -/
theorem job_ne {before after : List Call}
    (hjobs : (before ++ call :: after).map Call.job = (Training.getDependents jobs id).map dependency) :
    ∀ other ∈ before ++ after, other.job.1 ≠ call.job.1 := by
  have hfst : (before ++ call :: after).map (fun call => call.job.1) = (Training.getDependents jobs id).map Prod.fst := by
    have h := congrArg (List.map Prod.fst) hjobs
    rwa [List.map_map, List.map_map] at h
  have hnodup : ((Training.getDependents jobs id).map Prod.fst).Nodup :=
    List.pairwise_map.mpr ((jobs.sorted.filter _).imp Nat.ne_of_lt)
  rw [← hfst, List.map_append, List.map_cons, List.nodup_middle, List.nodup_cons, ← List.map_append] at hnodup
  intro other hother he
  exact hnodup.1 (he ▸ List.mem_map_of_mem hother)

/-- A call is about the rows below its job. -/
theorem Holds.frame (h : Holds jobs now call) (hframe : ∀ i, Below jobs i call.job.1 → now'.get? i = now.get? i) :
    Holds jobs now' call := by
  induction h with
  | update herr hrows => exact .update herr fun i hi => (hframe i hi).trans (hrows i hi)
  | getDependents herr hjob hrows =>
    exact .getDependents herr ((hframe _ .refl).trans hjob) fun i hi hne => (hframe i hi).trans (hrows i hi hne)
  | releaseDependents herr hjob hjobs _ ih =>
    refine .releaseDependents herr ((hframe _ .refl).trans hjob) hjobs ?_
    intro call hcall
    obtain ⟨r, hr, hd, -⟩ := dependent_of_mem hjobs hcall
    exact ih call hcall fun i hi => hframe i (hi.tail ⟨r, hr, hd⟩)
  | done herr hrows => exact .done herr fun i hi => (hframe i hi).trans (hrows i hi)

/-- Below the dependents nothing has happened when they are asked for. -/
theorem Holds.dependents (ha : Acyclic jobs) (h : Holds jobs now (.getDependents id row)) :
    ∀ c, DependsOn jobs c id → ∀ i, Below jobs i c → now.get? i = jobs.get? i := by
  intro c hc i hi
  have hlt : id < i := Nat.lt_of_lt_of_le (hc.lt ha) (Below.le ha hi)
  cases h with
  | getDependents herr hjob hrows => exact hrows i (hi.tail hc) (Nat.ne_of_gt hlt)

/-- The dependents that are found are those that were there. -/
theorem getDependents_eq (hl : Later jobs now) (hrows : ∀ i, DependsOn jobs i id → now.get? i = jobs.get? i) :
    Training.getDependents now id = Training.getDependents jobs id := by
  refine Table.select_congr ?_
  intro i r hd
  have hd := of_decide_eq_true hd
  constructor
  · intro hr
    rw [← hrows i (hl.dependsOn ⟨r, hr, hd⟩)]
    exact hr
  · intro hr
    rw [hrows i ⟨r, hr, hd⟩]
    exact hr

theorem Step.job (h : Step now call now' call') : call'.job = call.job := by
  cases h with
  | update id row =>
    split
    · rfl
    · rfl
  | getDependents => rfl
  | dependency => rfl
  | releaseDependents => rfl

/-- Nothing above the job of a call changes, nor beside it. -/
theorem Step.others (hl : Later jobs now) (h : Step now call now' call') (hi : ¬Below jobs i call.job.1)
    (hcalls : Holds jobs now call) : now'.get? i = now.get? i := by
  induction h with
  | update id row =>
    have hne : i ≠ id := fun he => hi (he ▸ .refl)
    rw [get?_complete]
    simp only [hne, if_false, Option.map_id']
  | getDependents => rfl
  | dependency id row before after _ ih =>
    cases hcalls with
    | releaseDependents herr hjob hjobs hcalls =>
      obtain ⟨r, hr, hd, -⟩ := dependent_of_mem hjobs List.mem_append_cons_self
      exact ih (fun hb => hi (hb.tail ⟨r, hr, hd⟩)) (hcalls _ List.mem_append_cons_self)
  | releaseDependents id row _ =>
    rw [get?_releaseDependents]
    cases hr : now.get? i with
    | none => rfl
    | some r =>
      rw [Option.map_some, if_neg]
      intro hd
      exact hi (.single (hl.dependsOn ⟨r, hr, hd⟩))

/-- The last statement of a call, when the dependents have failed with all below them. -/
theorem holds_done (ha : Acyclic jobs) (herr : row.status = .error)
    (hjob : now.get? id = (jobs.get? id).map (·.complete row))
    (hjobs : calls.map Call.job = (Training.getDependents jobs id).map dependency)
    (hcalls : ∀ call ∈ calls, Holds jobs now call) (hended : ∀ call ∈ calls, call.ended = true) :
    Holds jobs (Training.releaseDependents now id) (.done id row) := by
  refine .done herr ?_
  intro i hi
  rw [get?_releaseDependents]
  rcases ReflTransGen.cases_tail hi with rfl | ⟨c, hic, r, hr, hd⟩
  · rw [hjob, Option.map_map]
    refine Option.map_congr ?_
    intro r hr
    have hne : r.dependsOn ≠ some id := fun hd => Nat.lt_irrefl _ (ha id r id hr hd)
    show (if r.dependsOn = some id then _ else r.complete row) = failedRow id row id r
    rw [if_neg hne, failedRow, if_pos rfl]
  · have hlt : id < i := Nat.lt_of_lt_of_le (ha c r id hr hd) (Below.le ha hic)
    obtain ⟨call, hcall, hcj⟩ := call_of_dependent hjobs hr hd
    obtain ⟨dep, out, rfl⟩ : ∃ dep out, call = .done dep out := by
      have := hended call hcall
      cases call with
      | done dep out => exact ⟨dep, out, rfl⟩
      | update | getDependents | releaseDependents => cases this
    cases hcj
    cases hcalls _ hcall with
    | done _ hrows =>
      rw [hrows i hic, Option.map_map]
      refine Option.map_congr ?_
      intro r' hr'
      show (if (failedRow c (dependencyFailed r) i r').dependsOn = some id then _ else _) = failedRow id row i r'
      simp only [failedRow, Nat.ne_of_gt hlt, if_false]
      by_cases hc : i = c
      · -- the dependent itself is still to be released
        rw [hc, hr] at hr'
        cases hr'
        simp only [if_pos hc]
        rw [if_pos (show (r.complete (dependencyFailed r)).dependsOn = some id from hd)]
      · simp only [if_neg hc]
        rw [if_neg nofun]

theorem step_holds (ha : Acyclic jobs) (hl : Later jobs now) (h : Step now call now' call') (hcall : Holds jobs now call) :
    Holds jobs now' call' := by
  induction h with
  | update id row =>
    cases hcall with
    | update herr hrows =>
      rw [if_pos herr]
      refine .getDependents herr ?_ ?_
      · rw [get?_complete, hrows id .refl]
        simp only [if_true]
      · intro i hi hne
        rw [get?_complete, hrows i hi]
        simp only [hne, if_false, Option.map_id']
  | getDependents id row =>
    have hbelow := hcall.dependents ha
    rw [getDependents_eq hl fun c hc => hbelow c hc c .refl]
    cases hcall with
    | getDependents herr hjob hrows =>
      refine .releaseDependents herr hjob ?_ ?_
      · rw [List.map_map]
        exact List.map_id _
      · intro call hcall
        obtain ⟨job, hjob, rfl⟩ := List.mem_map.mp hcall
        obtain ⟨⟨c, r⟩, hdep, rfl⟩ := List.mem_map.mp hjob
        exact .update rfl (hbelow c ⟨r, mem_getDependents.mp hdep⟩)
  | @dependency _ call call' id row before after h ih =>
    cases hcall with
    | releaseDependents herr hjob hjobs hcalls =>
      have hmoved := hcalls _ List.mem_append_cons_self
      obtain ⟨r, hr, hd, -⟩ := dependent_of_mem hjobs List.mem_append_cons_self
      refine .releaseDependents herr ?_ ?_ ?_
      · rw [h.others hl _ hmoved, hjob]
        intro hb
        exact absurd (Below.le ha hb) (Nat.not_le_of_lt (ha _ r _ hr hd))
      · rw [← hjobs]
        simp only [List.map_append, List.map_cons, h.job]
      · intro other hother
        have hcases : other = call' ∨ other ∈ before ++ after := by
          rw [List.mem_append, List.mem_cons] at hother
          rw [List.mem_append]
          exact or_left_comm.mp hother
        rcases hcases with rfl | hother
        · exact ih hmoved
        · have hmem : other ∈ before ++ call :: after :=
            List.mem_append.mpr ((List.mem_append.mp hother).imp_right (List.mem_cons_of_mem _))
          obtain ⟨r', hr', hd', -⟩ := dependent_of_mem hjobs hmem
          refine (hcalls other hmem).frame fun i hi => h.others hl ?_ hmoved
          intro hi'
          exact job_ne hjobs other hother (Below.dependent_unique ha ⟨r', hr', hd'⟩ ⟨r, hr, hd⟩ hi hi')
  | releaseDependents id row hended =>
    cases hcall with
    | releaseDependents herr hjob hjobs hcalls => exact holds_done ha herr hjob hjobs hcalls hended

/-! ## The recording ends -/

/-- How many statements are sent for a job and those below it, down to a depth. -/
def statements (jobs : Table Row) : (fuel id : Nat) → Nat
  | 0, _ => 3
  | fuel + 1, id => 3 + ((Training.getDependents jobs id).map fun dep => statements jobs fuel dep.1).sum

/-- How many statements a call can still send. -/
def Call.work (jobs : Table Row) : Call → Nat
  | .update id _ => statements jobs (jobs.next - id) id
  | .getDependents id _ => statements jobs (jobs.next - id) id - 1
  | .releaseDependents _ _ calls => 1 + (calls.map (Call.work jobs)).sum
  | .done _ _ => 0

/-- The recording of a failed job, on its way. -/
structure Recording (jobs : Table Row) (id : Nat) (row : Outcome) (x : Table Row × Call) : Prop where
  later : Later jobs x.1
  holds : Holds jobs x.1 x.2
  job : x.2.job = (id, row)
  others : ∀ i, ¬Below jobs i id → x.1.get? i = jobs.get? i

variable {x y : Table Row × Call}

theorem Recording.start (jobs : Table Row) (id : Nat) (herr : row.status = .error) :
    Recording jobs id row (jobs, .update id row) :=
  ⟨Later.refl jobs, .update herr fun _ _ => rfl, rfl, fun _ _ => rfl⟩

theorem Recording.next (ha : Acyclic jobs) (h : Recording jobs id row x) (hstep : Next x y) : Recording jobs id row y := by
  refine ⟨h.later.step hstep, step_holds ha h.later hstep h.holds, hstep.job.trans h.job, ?_⟩
  intro i hi
  rw [hstep.others h.later _ h.holds, h.others i hi]
  rw [h.job]
  exact hi

theorem Recording.run (ha : Acyclic jobs) (h : Recording jobs id row x) (hrun : Run x y) : Recording jobs id row y := by
  induction hrun with
  | refl => exact h
  | tail _ hstep ih => exact ih.next ha hstep

theorem Recording.rows (h : Recording jobs id row (jobs', .done id row)) (i : Nat) (hi : Below jobs i id) :
    jobs'.get? i = (jobs.get? i).map (failedRow id row i) := by
  cases h.holds with
  | done _ hrows => exact hrows i hi

theorem next_update (hok : row.status ≠ .error) (h : Next (now, .update id row) x) :
    x = (Training.update now id (·.complete row), .releaseDependents id row []) := by
  obtain ⟨now', call⟩ := x
  cases (show Step now (.update id row) now' call from h) with
  | update => rw [if_neg hok]

theorem next_release (h : Next (now, .releaseDependents id row []) x) :
    x = (Training.releaseDependents now id, .done id row) := by
  obtain ⟨now', call⟩ := x
  generalize hcalls : ([] : List Call) = calls at h
  cases (show Step now (.releaseDependents id row calls) now' call from h) with
  | dependency _ _ before after _ =>
    exact absurd hcalls.symm (List.append_ne_nil_of_right_ne_nil before (List.cons_ne_nil _ after))
  | releaseDependents => rfl

theorem not_next_done : ¬Next (now, .done id row) x := by
  intro h
  cases (show Step now (.done id row) x.1 x.2 from h)

/-- Two statements in one order. -/
theorem run_cases (hok : row.status ≠ .error) (h : Run (jobs, .update id row) x) :
    x = (jobs, .update id row) ∨ x = (Training.update jobs id (·.complete row), .releaseDependents id row []) ∨
      x = (Training.releaseDependents (Training.update jobs id (·.complete row)) id, .done id row) := by
  induction h with
  | refl => exact .inl rfl
  | tail _ hstep ih =>
    rcases ih with rfl | rfl | rfl
    · exact .inr (.inl (next_update hok hstep))
    · exact .inr (.inr (next_release hstep))
    · exact absurd hstep not_next_done

theorem releasesExactly (jobs : Table Row) (id : Nat) (row : Outcome) :
    ReleasesExactly jobs id row (Training.releaseDependents (Training.update jobs id (·.complete row)) id) := by
  intro i
  rw [get?_releaseDependents, get?_complete, Option.map_map]
  refine Option.map_congr ?_
  intro r _
  have hd : (if i = id then r.complete row else r).dependsOn = r.dependsOn := by
    split
    · rfl
    · rfl
  show (if (if i = id then r.complete row else r).dependsOn = some id then _ else _) = _
  rw [hd]
  split
  · rfl
  · rw [← hd]

theorem run_ok (hok : row.status ≠ .error) (h : Run (jobs, .update id row) x) :
    (x.2 = .done id row ∨ ∃ y, Next x y) ∧ (x.2 = .done id row → ReleasesExactly jobs id row x.1) := by
  rcases run_cases hok h with rfl | rfl | rfl
  · exact ⟨.inr ⟨(_, _), Step.update id row⟩, nofun⟩
  · exact ⟨.inr ⟨(_, _), Step.releaseDependents id row (List.forall_mem_nil _)⟩, nofun⟩
  · exact ⟨.inl rfl, fun _ => releasesExactly jobs id row⟩

theorem Step.next (h : Step now call now' call') : now'.next = now.next := by
  induction h with
  | update | getDependents | releaseDependents => rfl
  | dependency _ _ _ _ _ ih => exact ih

theorem Run.next (h : Run x y) : y.1.next = x.1.next := by
  induction h with
  | refl => rfl
  | tail _ hstep ih => exact (Step.next hstep).trans ih

theorem Run.one (h : Step now call now' call') : Run (now, call) (now', call') :=
  ReflTransGen.single (show Next (now, call) (now', call') from h)

/-- A call runs while the others wait. -/
theorem Run.dependency (id : Nat) (row : Outcome) (before after : List Call) (h : Run x y) :
    Run (x.1, .releaseDependents id row (before ++ x.2 :: after))
      (y.1, .releaseDependents id row (before ++ y.2 :: after)) := by
  induction h with
  | refl => exact .refl
  | tail _ hstep ih => exact ih.tail (Step.dependency id row before after hstep)

/-- The calls for the dependents, each run to its end before the next. -/
theorem run_foldl (bound id : Nat) (row : Outcome) {f : Table Row → Nat × Row → Table Row} {deps : List (Nat × Row)}
    (hf : ∀ jobs, Acyclic jobs → jobs.next = bound → ∀ dep ∈ deps, Acyclic (f jobs dep) ∧
      Run (jobs, startCall (Completion.dependency dep)) (f jobs dep, .done dep.1 (dependencyFailed dep.2)))
    (ha : Acyclic jobs) (hb : jobs.next = bound) {before : List Call} (hended : ∀ call ∈ before, call.ended = true) :
    ∃ calls : List Call, (∀ call ∈ calls, call.ended = true) ∧
      Run (jobs, .releaseDependents id row (before ++ (deps.map Completion.dependency).map startCall))
        (deps.foldl f jobs, .releaseDependents id row calls) := by
  induction deps generalizing jobs before with
  | nil => exact ⟨before, hended, by rw [List.map_nil, List.map_nil, List.append_nil]; exact .refl⟩
  | cons dep deps ih =>
    obtain ⟨ha', hrun⟩ := hf jobs ha hb dep List.mem_cons_self
    have hended' : ∀ call ∈ before ++ [Call.done dep.1 (dependencyFailed dep.2)], call.ended = true := by
      intro call hcall
      rcases List.mem_append.mp hcall with h | h
      · exact hended call h
      · rw [List.mem_singleton.mp h]
        rfl
    obtain ⟨calls, hcalls, hrest⟩ := ih (fun jobs ha hb d hd => hf jobs ha hb d (List.mem_cons_of_mem _ hd)) ha'
      ((Run.next hrun).trans hb) hended'
    rw [List.append_assoc] at hrest
    exact ⟨calls, hcalls, (hrun.dependency id row before _).trans hrest⟩

theorem next_ok (hok : row.status ≠ .error) :
    Run (now, .update id row) (Training.releaseDependents (Training.update now id (·.complete row)) id, .done id row) := by
  have hupdate : Step now (.update id row) _ _ := .update id row
  rw [if_neg hok] at hupdate
  exact (Run.one hupdate).trans (Run.one (.releaseDependents id row (List.forall_mem_nil _)))

/-- The two statements of a failed job before its dependents fail. -/
theorem run_start (now : Table Row) (id : Nat) (herr : row.status = .error) :
    Run (now, .update id row) (Training.update now id (·.complete row), .releaseDependents id row
      (((Training.getDependents (Training.update now id (·.complete row)) id).map dependency).map startCall)) := by
  have hupdate : Step now (.update id row) _ _ := .update id row
  rw [if_pos herr] at hupdate
  exact (Run.one hupdate).trans (Run.one (.getDependents id row))

theorem run_recordJobCompletion {fuel : Nat} (ha : Acyclic jobs) (hfuel : jobs.next ≤ fuel + id + 1) :
    Run (jobs, .update id row) (recordJobCompletion jobs id row fuel, .done id row) := by
  induction fuel generalizing jobs id row with
  | zero =>
    by_cases herr : row.status = .error
    · have hnone : Training.getDependents (Training.update jobs id (·.complete row)) id = [] := by
        refine List.eq_nil_iff_forall_not_mem.mpr ?_
        intro dep hdep
        obtain ⟨hr, hd⟩ := mem_getDependents.mp hdep
        have h1 := ha.complete id row _ _ _ hr hd
        have h2 := Table.lt_next hr
        rw [Training.update, Table.next_update] at h2
        omega
      have hstart := run_start jobs id herr
      rw [hnone] at hstart
      exact hstart.trans (Run.one (.releaseDependents id row (List.forall_mem_nil _)))
    · exact next_ok herr
  | succ fuel ih =>
    by_cases herr : row.status = .error
    · simp only [recordJobCompletion, if_pos herr]
      have hdeps : ∀ jobs', Acyclic jobs' → jobs'.next = jobs.next →
          ∀ dep ∈ Training.getDependents (Training.update jobs id (·.complete row)) id,
            Acyclic (recordJobCompletion jobs' dep.1 (dependencyFailed dep.2) fuel) ∧
              Run (jobs', startCall (Completion.dependency dep))
                (recordJobCompletion jobs' dep.1 (dependencyFailed dep.2) fuel, .done dep.1 (dependencyFailed dep.2)) := by
        intro jobs' ha' hb dep hdep
        obtain ⟨hr, hd⟩ := mem_getDependents.mp hdep
        have hlt := ha.complete id row _ _ _ hr hd
        have hfuel' : jobs'.next ≤ fuel + dep.1 + 1 := by omega
        exact ⟨ha'.fails (recordJobCompletion_completed ha' hfuel' rfl).fails, ih ha' hfuel'⟩
      obtain ⟨calls, hended, hrun⟩ := run_foldl jobs.next id row hdeps (ha.complete id row) rfl (List.forall_mem_nil _)
      exact ((run_start jobs id herr).trans hrun).trans (Run.one (.releaseDependents id row hended))
    · rw [recordJobCompletion_success jobs id herr]
      exact next_ok herr

/-- In every order the recording ends in the same table. -/
theorem done_eq (ha : Acyclic jobs) (h : Run (jobs, .update id row) (jobs', .done id row)) :
    jobs' = recordJobCompletion jobs id row jobs.next := by
  have hseq : Run (jobs, .update id row) (recordJobCompletion jobs id row jobs.next, .done id row) :=
    run_recordJobCompletion ha (by omega)
  refine Table.ext_get? ((Run.next h).trans (Run.next hseq).symm) ?_
  intro i
  by_cases herr : row.status = .error
  · have hstart := Recording.start jobs id herr
    have hdone := hstart.run ha h
    have hdone' := hstart.run ha hseq
    by_cases hi : Below jobs i id
    · rw [hdone.rows i hi, hdone'.rows i hi]
    · exact (hdone.others i hi).trans (hdone'.others i hi).symm
  · rw [(run_ok herr h).2 rfl i, (run_ok herr hseq).2 rfl i]

/-- The tables of the daemon are such. -/
theorem reach_acyclic {ok : St → Ev → Prop} {s : St} (h : Runs.Reach sys ok s) : Acyclic s.db.trainingJobs :=
  (inv h).waits.acyclic

/-! ## Four jobs -/

def job (dependsOn : Option Nat) : Row where
  dependsOn := dependsOn
  jobType := "train"
  owner := none
  language := "en"
  modelTag := none
  allDevices := false
  status := .queued
  taskIndex := none
  taskName := none
  error := none
  startTime := none
  endTime := none
  config := none

def killed : Outcome := ⟨.error, some "Killed", none⟩

end GenieCloud.Training.Completion
