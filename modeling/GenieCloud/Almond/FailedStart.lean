/-
  GenieCloud.Almond.FailedStart — `startUser` with every way it can fail
  (`_findProcessForUser`, `_runUser`, `isRunning`, `getProcessId` and
  `EngineProcess.runEngine` of `almond/enginemanager.ts`).

  An attempt reads the user's row, publishes a record without a process, waits for the
  process to be ready, puts it in the record and registers the record's handlers on it,
  makes a directory and signs a token, and calls `runEngine` of the worker. The attempts
  run beside everything else the manager does (`EngineManager`), under the user's lock.

  An attempt is alone while the user had no engine when it began and no other operation
  on the user has been called since. `noPhantom_iff`: when one that is alone has been
  rejected, there is no trace of it (no engine is running, no handler is left, a later
  start cannot tell) exactly if it failed before it had a process, or its process has
  emitted `exit`, or `engine-removed` for the user, since: nothing else takes back what
  an attempt has done (`token_fails_leaves_phantom`).
-/

import GenieCloud.Almond.Records
import GenieCloud.Lib.Objects

namespace GenieCloud.Almond.FailedStart

open GenieCloud.Lib.Objects GenieCloud.Lib.Runs GenieCloud.Almond.EngineManager
open GenieCloud.Almond.Records (Registry view about emits Idle)

/-! ## Attempts -/

inductive Phase where
  /-- `user.get`. -/
  | loading
  | waiting (proc : Nat) (waits : Option Nat)
  /-- The directory and the token. -/
  | preparing
  | calling (child : Nat)
  | started
  | rejected
  deriving DecidableEq, Repr

structure Attempt where
  user : Nat
  /-- The record in `_engines`, once it is published. -/
  obj : Option EngineProxy
  /-- Its process, once it is set. -/
  proc : Option Nat
  phase : Phase
  /-- The user had no engine when it began, and no other operation on the user was called since. -/
  alone : Bool
  /-- The process has emitted `exit`, or `engine-removed` for the user, since. -/
  undone : Bool
  deriving DecidableEq, Repr

def Attempt.active (a : Attempt) : Bool := a.phase ≠ .started ∧ a.phase ≠ .rejected

inductive AttemptEvent where
  | loadFails
  | publish (separate : Bool)
  /-- The process could not be made, or died before it was ready. -/
  | notReady
  | attach
  | prepareFails
  | call
  | callRejects
  | callReturns
  deriving DecidableEq, Repr

/-- `_findProcessForUser`: the process and what to wait for, `none` if there is no shared process. -/
def findProcessForUser (separate : Bool) (m : EngineManager.St) : EngineManager.St × Option (Nat × Option Nat) :=
  if separate then
    (startProc m.nextProc { m.setProc m.nextProc noProc with nextProc := m.nextProc + 1 }, some (m.nextProc, some 0))
  else if m.rrproc = 0 then (m, none)
  else
    ({ m with nextProcess := (m.nextProcess + 1) % m.rrproc },
      some (m.nextProcess, (m.procs m.nextProcess).starting))

/-- The record that `_runUser` publishes first. -/
def record (user : Nat) (m : EngineManager.St) : EngineManager.St :=
  { m with engines := Function.update m.engines user (some ⟨m.nextObj, user⟩), nextObj := m.nextObj + 1 }

/-- The child `gen` of the process has been ready. -/
def ready (m : EngineManager.St) (p gen : Nat) : Bool := m.readied.contains (p, gen)

def Attempt.step (m : EngineManager.St) (a : Attempt) : AttemptEvent → Option (EngineManager.St × Attempt)
  | .loadFails => if a.phase = .loading then some (m, { a with phase := .rejected }) else none
  | .publish separate =>
    if a.phase = .loading then
      let (t, found) := findProcessForUser separate (record a.user m)
      let a := { a with obj := some ⟨m.nextObj, a.user⟩ }
      match found with
      | none => some (t, { a with phase := .rejected })
      | some (p, waits) => some (t, { a with phase := .waiting p waits })
    else none
  | .notReady =>
    match a.phase with
    | .waiting p (some gen) => if ready m p gen then none else some (m, { a with phase := .rejected })
    | _ => none
  | .attach =>
    match a.phase, a.obj with
    | .waiting p waits, some obj =>
      if waits.all (ready m p) then
        some (register obj p m, { a with proc := some p, phase := .preparing })
      else none
    | _, _ => none
  | .prepareFails => if a.phase = .preparing then some (m, { a with phase := .rejected }) else none
  | .call =>
    match a.phase, a.obj, a.proc with
    | .preparing, some obj, some p =>
      match (m.procs p).rpcSocket with
      | none => some (m, { a with phase := .rejected })
      | some c => some (send c (.runEngine obj) m, { a with phase := .calling c })
    | _, _, _ => none
  | .callRejects =>
    match a.phase, a.obj with
    | .calling c, some obj =>
      -- a worker that refuses the call does not start the engine
      some (m.setChild c { m.children c with inbox := (m.children c).inbox.filter (· ≠ .runEngine obj) },
        { a with phase := .rejected })
    | _, _ => none
  | .callReturns =>
    match a.phase, a.obj with
    | .calling c, some obj =>
      if .runEngine obj ∈ (m.children c).inbox then none else some (m, { a with phase := .started })
    | _, _ => none

/-! ## The manager -/

structure St where
  manager : EngineManager.St
  attempts : List Attempt

def isRunning (m : EngineManager.St) (user : Nat) : Bool := ((m.engines user).bind m.process).isSome

/-- `none` is -1. -/
def getProcessId (m : EngineManager.St) (user : Nat) : Option Nat := (m.engines user).bind m.process

/-- The user has no engine, and no handler on a process. -/
def Fresh (m : EngineManager.St) (user : Nat) : Prop :=
  isRunning m user = false ∧ ∀ p < m.nextProc, ∀ obj ∈ (m.procs p).listeners, obj.user ≠ user

instance (m : EngineManager.St) (user : Nat) : Decidable (Fresh m user) := inferInstanceAs (Decidable (_ ∧ _))

/-- The process that emits is the attempt's, and it does for the user. -/
def Attempt.heard (a : Attempt) (p : Nat) (whom : Option Nat) : Bool := a.proc = some p && whom.all (· = a.user)

/-- What an event of the manager means for an attempt. -/
def Attempt.notice (m : EngineManager.St) (e : Ev) (a : Attempt) : Attempt :=
  { a with
    alone := a.alone && about e ≠ some a.user
    undone := a.undone || (emits m e).any fun x => a.heard x.1 x.2 }

inductive Event where
  | manager (e : Ev)
  /-- `startUser` gets the user's lock. -/
  | begin (user : Nat)
  | attempt (i : Nat) (e : AttemptEvent)
  deriving DecidableEq, Repr

/-- An attempt of the user has the lock. -/
def St.busy (s : St) (user : Nat) : Bool := s.attempts.any fun a => a.user = user && a.active

/-- An operation that would enter while an attempt has its user's lock. -/
def St.blocked (s : St) : Ev → Bool
  | .enter i => (s.manager.ops[i]?).any fun op => s.busy op.user
  | _ => false

def newAttempt (m : EngineManager.St) (user : Nat) : Attempt :=
  ⟨user, none, none, .loading, decide (Fresh m user ∧ Idle m user), false⟩

def step (s : St) : Event → Option St
  | .manager e =>
    if s.blocked e then none
    else (EngineManager.step s.manager e).map fun m => ⟨m, s.attempts.map (·.notice s.manager e)⟩
  | .begin user =>
    if Locked s.manager user ∨ s.busy user then none
    else
      let attempts := s.attempts.map fun a => if a.user = user then { a with alone := false } else a
      some { s with attempts := attempts ++ [newAttempt s.manager user] }
  | .attempt i e =>
    match s.attempts[i]? with
    | none => none
    | some a => (a.step s.manager e).map fun x => ⟨x.1, s.attempts.set i x.2⟩

def system (ncpus : Nat) : System St Event where
  init s := s = ⟨EngineManager.init ncpus, []⟩
  step := step

/-! ## The property -/

/-- A manager that a start of the user cannot tell from one without a trace of the user. -/
def LikeFresh (m : EngineManager.St) (user : Nat) : Prop :=
  ∃ m', m'.engines user = none ∧ Records.Unheard (view m') user ∧
    ∀ separate, findProcessForUser separate (record user m) = findProcessForUser separate (record user m')

/-- No trace of the attempt. -/
structure NoPhantom (m : EngineManager.St) (a : Attempt) : Prop where
  stopped : isRunning m a.user = false
  processId : getProcessId m a.user = none
  unheard : ∀ obj, a.obj = some obj → ∀ p, obj ∉ (m.procs p).listeners
  later : LikeFresh m a.user

/-! ## What an attempt leaves behind -/

/-- How far an attempt is, and what the manager has of it. -/
inductive Stands (r : Registry) (a : Attempt) : Prop
  | before : a.obj = none → a.proc = none → a.undone = false →
      (∀ obj, r.engines a.user = some obj → r.process obj = none) → Records.Unheard r a.user → Stands r a
  | published (obj : EngineProxy) : a.obj = some obj → a.proc = none → a.undone = false → a.phase ≠ .loading →
      obj.user = a.user → r.engines a.user = some obj → r.process obj = none → Records.Unheard r a.user → Stands r a
  | registered (obj : EngineProxy) (p : Nat) : a.obj = some obj → a.proc = some p → a.phase ≠ .loading →
      (∀ q waits, a.phase ≠ .waiting q waits) → obj.user = a.user → a.undone = false →
      r.engines a.user = some obj → r.process obj = some p → obj ∈ r.listeners p →
      (∀ q o, o ∈ r.listeners q → o.user = a.user → o = obj ∧ q = p) → Stands r a
  | undone (obj : EngineProxy) (p : Nat) : a.obj = some obj → a.proc = some p → a.phase ≠ .loading →
      (∀ q waits, a.phase ≠ .waiting q waits) → obj.user = a.user → a.undone = true → r.engines a.user = none →
      Records.Unheard r a.user → Stands r a

variable {s t : St} {m : EngineManager.St} {r r' : Registry} {a : Attempt}

theorem Stands.same (h : Stands r a) (hw : Records.WF r) (hs : Records.Same a.user r r') : Stands r' a := by
  cases h with
  | before ho hp hun hr hu =>
    refine .before ho hp hun (fun obj he => ?_) (hu.same hs)
    rw [hs.engines] at he
    rw [hs.process obj (hw.typed _ _ he)]
    exact hr obj he
  | published obj ho hp hun hl hou he hpr hu =>
    exact .published obj ho hp hun hl hou (hs.engines.trans he) ((hs.process obj hou).trans hpr) (hu.same hs)
  | registered obj p ho hp hl hw hou hun he hpr hli hon =>
    refine .registered obj p ho hp hl hw hou hun (hs.engines.trans he) ((hs.process obj hou).trans hpr)
      ((hs.listeners p obj hou).2 hli) fun q o hq hu => ?_
    exact hon q o ((hs.listeners q o hu).1 hq) hu
  | undone obj p ho hp hl hw hou hun he hu => exact .undone obj p ho hp hl hw hou hun (hs.engines.trans he) (hu.same hs)

theorem Stands.alone (h : Stands r a) (alone : Bool) : Stands r { a with alone := alone } := by
  cases h with
  | before ho hp hun hr hu => exact .before ho hp hun hr hu
  | published obj ho hp hun hl hou he hpr hu => exact .published obj ho hp hun hl hou he hpr hu
  | registered obj p ho hp hl hw hou hun he hpr hli hon => exact .registered obj p ho hp hl hw hou hun he hpr hli hon
  | undone obj p ho hp hl hw hou hun he hu => exact .undone obj p ho hp hl hw hou hun he hu

theorem Stands.drop (h : Stands r a) (p : Nat) (whom : Option Nat) (alone : Bool) :
    Stands (Records.drop p whom r) { a with alone := alone, undone := a.undone || a.heard p whom } := by
  cases h with
  | before ho hp hun hr hu =>
    refine .before ho hp (by simp [Attempt.heard, hun, hp]) (fun obj he => ?_) (hu.drop p whom)
    exact hr obj (Records.engines_drop.1 he).1
  | published obj ho hp hun hl hou he hpr hu =>
    refine .published obj ho hp (by simp [Attempt.heard, hun, hp]) hl hou ?_ hpr (hu.drop p whom)
    exact Records.engines_drop.2 ⟨he, fun ht => hu p obj ht.2.1 hou⟩
  | registered obj q ho hp hl hw hou hun he hpr hli hon =>
    by_cases hh : a.heard p whom = true
    · obtain ⟨hq, hwh⟩ : a.proc = some p ∧ ∀ user ∈ whom, user = a.user := by
        simpa [Attempt.heard, Option.all_eq_true] using hh
      obtain rfl : q = p := Option.some.inj (hp.symm.trans hq)
      have told : Records.Told r q whom obj := ⟨hli, fun user hu => hou.trans (hwh user hu).symm⟩
      refine .undone obj q ho hp hl hw hou (by simp [hh]) ?_ fun q' o hm hu => ?_
      · cases hd : (Records.drop q whom r).engines a.user with
        | none => rfl
        | some o =>
          obtain ⟨ho', hn⟩ := Records.engines_drop.1 hd
          cases he.symm.trans ho'
          exact absurd ⟨hou, told⟩ hn
      · obtain ⟨hm, hn⟩ := Records.mem_listeners_drop.1 hm
        obtain ⟨rfl, rfl⟩ := hon q' o hm hu
        exact hn ⟨rfl, told⟩
    · have hnt : ¬ Records.Told r p whom obj := by
        intro ht
        obtain ⟨-, rfl⟩ := hon p obj ht.1 hou
        refine hh ?_
        simp only [Attempt.heard, hp, decide_true, Bool.true_and, Option.all_eq_true, decide_eq_true_eq]
        exact fun user hu => (ht.2 user hu).symm.trans hou
      refine .registered obj q ho hp hl hw hou (by simp [hun, hh]) ?_ hpr ?_ fun q' o hm hu => ?_
      · exact Records.engines_drop.2 ⟨he, fun ht => hnt ht.2⟩
      · exact Records.mem_listeners_drop.2 ⟨hli, fun ht => hnt ht.2⟩
      · exact hon q' o (Records.mem_listeners_drop.1 hm).1 hu
  | undone obj q ho hp hl hw hou hun he hu =>
    refine .undone obj q ho hp hl hw hou (by simp [hun]) ?_ (hu.drop p whom)
    cases hd : (Records.drop p whom r).engines a.user with
    | none => rfl
    | some o => cases he.symm.trans (Records.engines_drop.1 hd).1

/-! ## Steps of an attempt -/

theorem view_findProcessForUser (user : Nat) (separate : Bool) (m : EngineManager.St) :
    view (findProcessForUser separate (record user m)).1 = Records.publish user separate (view m) := by
  unfold findProcessForUser Records.publish
  dsimp only
  cases separate with
  | true =>
    simp only [if_true]
    rw [Records.view_startProc]
    simp only [view, St.setProc, record, Records.listeners_update]
    rfl
  | false =>
    simp only [Bool.false_eq_true, if_false]
    have hr : (record user m).rrproc = (view m).rrproc := rfl
    rw [hr]
    split <;> rfl

theorem findProcessForUser_lt {separate : Bool} {p : Nat} {waits : Option Nat} (hs : m.rrproc ≤ m.nextProc)
    (hn : m.rrproc ≠ 0 → m.nextProcess < m.rrproc)
    (hf : (findProcessForUser separate m).2 = some (p, waits)) : p < (findProcessForUser separate m).1.nextProc := by
  unfold findProcessForUser at hf ⊢
  cases separate with
  | true =>
    cases hf
    exact Nat.lt_succ_self _
  | false =>
    simp only [Bool.false_eq_true, if_false] at hf ⊢
    split at hf
    · cases hf
    · next hr =>
      cases hf
      rw [if_neg hr]
      exact Nat.lt_of_lt_of_le (hn hr) hs

theorem ops_findProcessForUser (separate : Bool) (m : EngineManager.St) :
    (findProcessForUser separate m).1.ops = m.ops := by
  unfold findProcessForUser
  split
  · rfl
  · split <;> rfl

/-- What a step of an attempt does to the registry and to the attempt. -/
inductive Moves (m : EngineManager.St) (a : Attempt) (m' : EngineManager.St) : Attempt → Prop
  | quiet (phase : Phase) : phase ≠ .loading → (∀ p waits, phase ≠ .waiting p waits) → view m' = view m →
      Moves m a m' { a with phase := phase }
  | publish (separate : Bool) (phase : Phase) : a.phase = .loading → phase ≠ .loading →
      (∀ p waits, phase = .waiting p waits → p < m'.nextProc) →
      view m' = Records.publish a.user separate (view m) →
      Moves m a m' { a with obj := some ⟨m.nextObj, a.user⟩, phase := phase }
  | register (obj : EngineProxy) (p : Nat) (waits : Option Nat) : a.phase = .waiting p waits → a.obj = some obj →
      view m' = Records.register obj p (view m) → Moves m a m' { a with proc := some p, phase := .preparing }

theorem Attempt.step_moves {e : AttemptEvent} {m' : EngineManager.St} {a' : Attempt} (hw : Records.WF (view m))
    (h : a.step m e = some (m', a')) : m'.ops = m.ops ∧ a.active = true ∧ Moves m a m' a' := by
  cases e with
  | loadFails =>
    simp only [Attempt.step] at h
    split at h <;> cases h
    next hp => exact ⟨rfl, by simp [Attempt.active, hp], .quiet _ nofun nofun rfl⟩
  | publish separate =>
    simp only [Attempt.step] at h
    split at h
    · next hp =>
      have hv := view_findProcessForUser a.user separate m
      have ho := ops_findProcessForUser separate (record a.user m)
      have hact : a.active = true := by simp [Attempt.active, hp]
      split at h <;> cases h
      · exact ⟨ho, hact, .publish separate _ hp nofun nofun hv⟩
      · next p waits hf =>
        refine ⟨ho, hact, .publish separate _ hp nofun (fun q w hq => ?_) hv⟩
        cases hq
        exact findProcessForUser_lt (m := record a.user m) hw.shared hw.next hf
    · cases h
  | notReady =>
    simp only [Attempt.step] at h
    split at h
    · next hp =>
      split at h <;> cases h
      exact ⟨rfl, by simp [Attempt.active, hp], .quiet _ nofun nofun rfl⟩
    · cases h
  | attach =>
    simp only [Attempt.step] at h
    split at h
    · next hp ho =>
      split at h <;> cases h
      exact ⟨rfl, by simp [Attempt.active, hp], .register _ _ _ hp ho (Records.view_register _ _ _)⟩
    · cases h
  | prepareFails =>
    simp only [Attempt.step] at h
    split at h <;> cases h
    next hp => exact ⟨rfl, by simp [Attempt.active, hp], .quiet _ nofun nofun rfl⟩
  | call =>
    simp only [Attempt.step] at h
    split at h
    · next hp _ _ =>
      have hact : a.active = true := by simp [Attempt.active, hp]
      split at h <;> cases h
      · exact ⟨rfl, hact, .quiet _ nofun nofun rfl⟩
      · exact ⟨Records.ops_send _ _ _, hact, .quiet _ nofun nofun (Records.view_send _ _)⟩
    · cases h
  | callRejects =>
    simp only [Attempt.step] at h
    split at h
    · next hp _ =>
      cases h
      exact ⟨rfl, by simp [Attempt.active, hp], .quiet _ nofun nofun rfl⟩
    · cases h
  | callReturns =>
    simp only [Attempt.step] at h
    split at h
    · next hp _ =>
      split at h <;> cases h
      exact ⟨rfl, by simp [Attempt.active, hp], .quiet _ nofun nofun rfl⟩
    · cases h

theorem Stands.move {m' : EngineManager.St} {a' : Attempt} (h : Stands (view m) a) (hw : Records.WF (view m))
    (hm : Moves m a m' a') : Stands (view m') a' := by
  cases hm with
  | quiet phase hl hnw hv =>
    rw [hv]
    cases h with
    | before ho hp hun hr hu => exact .before ho hp hun hr hu
    | published obj ho hp hun _ hou he hpr hu => exact .published obj ho hp hun hl hou he hpr hu
    | registered obj p ho hp _ _ hou hun he hpr hli hon => exact .registered obj p ho hp hl hnw hou hun he hpr hli hon
    | undone obj p ho hp _ _ hou hun he hu => exact .undone obj p ho hp hl hnw hou hun he hu
  | publish separate phase hph hl _ hv =>
    rw [hv]
    obtain ⟨he, hpr⟩ := Records.engines_publish a.user separate (view m)
    cases h with
    | before ho hp hun hr hu =>
      refine .published ⟨m.nextObj, a.user⟩ rfl hp hun hl rfl he ?_ (hu.publish _ _)
      rw [hpr]
      exact hw.unset _ (Nat.le_refl _)
    | published obj _ _ _ hl' => exact absurd hph hl'
    | registered obj p _ _ hl' => exact absurd hph hl'
    | undone obj p _ _ hl' => exact absurd hph hl'
  | register obj p waits hph hobj hv =>
    rw [hv]
    cases h with
    | before ho => cases ho.symm.trans hobj
    | published obj' ho hp hun _ hou he hpr hu =>
      cases ho.symm.trans hobj
      refine .registered obj p hobj rfl nofun nofun hou hun he (Function.update_self ..) ?_ fun q o ho hu' => ?_
      · show obj ∈ Function.update (view m).listeners p ((view m).listeners p ++ [obj]) p
        rw [Function.update_self]
        exact List.mem_append_right _ (List.mem_singleton_self _)
      · have ho : o ∈ Function.update (view m).listeners p ((view m).listeners p ++ [obj]) q := ho
        by_cases hq : q = p
        · rw [hq, Function.update_self, List.mem_append, List.mem_singleton] at ho
          exact ⟨ho.resolve_left fun ho => hu p o ho hu', hq⟩
        · rw [Function.update_of_ne hq] at ho
          exact absurd hu' (hu q o ho)
    | registered obj' p' _ _ _ hnw => exact absurd hph (hnw p waits)
    | undone obj' p' _ _ _ hnw => exact absurd hph (hnw p waits)

/-! ## Runs -/

structure Inv (s : St) : Prop where
  sane : Records.Sane s.manager
  waiting : ∀ (i : Nat) (a : Attempt) (obj : EngineProxy) (p : Nat) (waits : Option Nat), s.attempts[i]? = some a →
    a.phase = .waiting p waits → a.obj = some obj →
      obj.user = a.user ∧ obj.id < s.manager.nextObj ∧ p < s.manager.nextProc
  stands : ∀ (i : Nat) (a : Attempt), s.attempts[i]? = some a → a.alone = true →
    Idle s.manager a.user ∧ Stands (view s.manager) a
  only : ∀ (i j : Nat) (a b : Attempt), s.attempts[i]? = some a → a.alone = true → s.attempts[j]? = some b → j ≠ i →
    b.user = a.user → b.active = false

theorem init_inv (ncpus : Nat) : Inv ⟨EngineManager.init ncpus, []⟩ := by
  refine ⟨Records.sane_init ncpus, fun i a obj p w h => ?_, fun i a h => ?_, fun i j a b h => ?_⟩
  all_goals simp at h

/-- The manager does something. -/
theorem inv_manager {e : Ev} {m' : EngineManager.St} (h : Inv s) (hs : EngineManager.step s.manager e = some m') :
    Inv ⟨m', s.attempts.map (·.notice s.manager e)⟩ := by
  have hmono := (Records.step_change hs).mono
  have old {i : Nat} {a : Attempt} (ha : (s.attempts.map (·.notice s.manager e))[i]? = some a) :
      ∃ b, s.attempts[i]? = some b ∧ b.notice s.manager e = a := by
    rw [List.getElem?_map] at ha
    exact Option.map_eq_some_iff.1 ha
  refine ⟨h.sane.step hs, fun i a obj p w ha hp ho => ?_, fun i a ha hal => ?_, fun i j a b ha hal hb hne hu => ?_⟩
  · obtain ⟨b, hb, rfl⟩ := old ha
    obtain ⟨h1, h2, h3⟩ := h.waiting i b obj p w hb hp ho
    exact ⟨h1, Nat.lt_of_lt_of_le h2 hmono.1, Nat.lt_of_lt_of_le h3 hmono.2⟩
  · obtain ⟨b, hb, rfl⟩ := old ha
    obtain ⟨hbal, hab⟩ : b.alone = true ∧ about e ≠ some b.user := by
      simpa [Attempt.notice] using hal
    obtain ⟨hi, hst⟩ := h.stands i b hb hbal
    refine ⟨hi.step hab hs, ?_⟩
    rcases Records.step_user h.sane hi hs with ⟨he, hsame⟩ | ⟨p, whom, he, hv⟩
    · have hn : b.notice s.manager e = { b with alone := (b.notice s.manager e).alone } := by
        simp [Attempt.notice, he]
      rw [hn]
      exact (hst.same h.sane.wf hsame).alone _
    · have hn : b.notice s.manager e =
          { b with alone := (b.notice s.manager e).alone, undone := b.undone || b.heard p whom } := by
        simp [Attempt.notice, he]
      rw [hn]
      dsimp only
      rw [hv]
      exact hst.drop p whom _
  · obtain ⟨a', ha', rfl⟩ := old ha
    obtain ⟨b', hb', rfl⟩ := old hb
    obtain ⟨hal', -⟩ : a'.alone = true ∧ about e ≠ some a'.user := by
      simpa [Attempt.notice] using hal
    exact h.only i j a' b' ha' hal' hb' hne hu

theorem stands_new {user : Nat} (hw : Records.WF (view m)) (hf : Fresh m user) :
    Stands (view m) (newAttempt m user) := by
  refine .before rfl rfl rfl (fun obj he => ?_) fun p obj ho => ?_
  · have he : m.engines user = some obj := he
    have hr := hf.1
    unfold isRunning at hr
    rw [he] at hr
    show m.process obj = none
    simpa using hr
  · by_cases hp : p < m.nextProc
    · exact hf.2 p hp obj ho
    · rw [hw.unheard p (Nat.le_of_not_lt hp)] at ho
      cases ho

/-- An attempt begins; the others of its user are alone no longer. -/
theorem inv_begin {user : Nat} (h : Inv s) (hb : s.busy user = false) :
    Inv { s with attempts := s.attempts.map (fun a => if a.user = user then { a with alone := false } else a) ++
      [newAttempt s.manager user] } := by
  have old {i : Nat} {a : Attempt}
      (ha : (s.attempts.map (fun a => if a.user = user then { a with alone := false } else a) ++
        [newAttempt s.manager user])[i]? = some a) :
      i = s.attempts.length ∧ a = newAttempt s.manager user ∨ ∃ b, s.attempts[i]? = some b ∧ a.user = b.user ∧
        a.phase = b.phase ∧ a.obj = b.obj ∧ (a.alone = true → b = a ∧ a.user ≠ user) := by
    rw [getElem?_created, List.length_map] at ha
    by_cases hi : i = s.attempts.length
    · rw [if_pos hi] at ha
      exact .inl ⟨hi, (Option.some.inj ha).symm⟩
    · rw [if_neg hi, List.getElem?_map] at ha
      obtain ⟨b, hb, hba⟩ := Option.map_eq_some_iff.1 ha
      refine .inr ⟨b, hb, ?_⟩
      split at hba
      · subst hba
        exact ⟨rfl, rfl, rfl, nofun⟩
      · next hu =>
        subst hba
        exact ⟨rfl, rfl, rfl, fun _ => ⟨rfl, hu⟩⟩
  refine ⟨h.sane, fun i a obj p w ha hp ho => ?_, fun i a ha hal => ?_, fun i j a b ha hal hb' hne hu => ?_⟩
  · rcases old ha with ⟨-, rfl⟩ | ⟨b, hbi, h1, h2, h3, -⟩
    · cases hp
    · rw [h1]
      exact h.waiting i b obj p w hbi (h2.symm.trans hp) (h3.symm.trans ho)
  · rcases old ha with ⟨-, rfl⟩ | ⟨b, hbi, -, -, -, hba⟩
    · obtain ⟨hf, hi⟩ := of_decide_eq_true hal
      exact ⟨hi, stands_new h.sane.wf hf⟩
    · obtain ⟨rfl, -⟩ := hba hal
      exact h.stands i b hbi hal
  · rcases old ha with ⟨hi, rfl⟩ | ⟨a', hai, -, -, -, haa⟩
    · rcases old hb' with ⟨hj, -⟩ | ⟨b', hbj, h1, h2, -, -⟩
      · exact absurd (hj.trans hi.symm) hne
      · have hn : b'.active ≠ true := by
          intro hact
          have hany : s.busy user = true := by
            unfold St.busy
            rw [List.any_eq_true]
            refine ⟨b', List.mem_of_getElem? hbj, ?_⟩
            have hbu : b'.user = user := h1.symm.trans hu
            simp [hact, hbu]
          rw [hb] at hany
          cases hany
        simpa [Attempt.active, h2] using hn
    · obtain ⟨rfl, hau⟩ := haa hal
      rcases old hb' with ⟨-, rfl⟩ | ⟨b', hbj, h1, h2, -, -⟩
      · exact absurd hu.symm hau
      · have hn := h.only i j a' b' hai hal hbj hne (h1.symm.trans hu)
        simpa [Attempt.active, h2] using hn

theorem Moves.user {m' : EngineManager.St} {a' : Attempt} (h : Moves m a m' a') :
    a'.user = a.user ∧ a'.alone = a.alone := by
  cases h <;> exact ⟨rfl, rfl⟩

theorem Moves.mono {m' : EngineManager.St} {a' : Attempt} (h : Moves m a m' a') :
    m.nextObj ≤ m'.nextObj ∧ m.nextProc ≤ m'.nextProc := by
  cases h with
  | quiet phase _ _ hv => exact Records.mono_of_view (f := id) hv ⟨Nat.le_refl _, Nat.le_refl _⟩
  | publish separate phase _ _ _ hv => exact Records.mono_of_view hv (Records.publish_mono _ _ _)
  | register obj p waits _ _ hv => exact Records.mono_of_view hv ⟨Nat.le_refl _, Nat.le_refl _⟩

theorem Moves.wf {i : Nat} {m' : EngineManager.St} {a' : Attempt} (hm : Moves s.manager a m' a') (h : Inv s)
    (ha : s.attempts[i]? = some a) : Records.WF (view m') := by
  cases hm with
  | quiet phase _ _ hv =>
    rw [hv]
    exact h.sane.wf
  | publish separate phase _ _ _ hv =>
    rw [hv]
    exact h.sane.wf.publish _ _
  | register obj p waits hp ho hv =>
    obtain ⟨-, h1, h2⟩ := h.waiting i a obj p waits ha hp ho
    rw [hv]
    exact h.sane.wf.register h1 h2

theorem Moves.same {i user : Nat} {m' : EngineManager.St} {a' : Attempt} (hm : Moves s.manager a m' a') (h : Inv s)
    (ha : s.attempts[i]? = some a) (hu : a.user ≠ user) : Records.Same user (view s.manager) (view m') := by
  cases hm with
  | quiet phase _ _ hv =>
    rw [hv]
    exact Records.Same.refl _ _
  | publish separate phase _ _ _ hv =>
    rw [hv]
    exact Records.same_publish hu separate h.sane.wf
  | register obj p waits hp ho hv =>
    obtain ⟨h1, -, -⟩ := h.waiting i a obj p waits ha hp ho
    rw [hv]
    exact Records.same_register (fun he => hu (h1.symm.trans he)) p

/-- An attempt does something; those of other users stand where they did. -/
theorem inv_attempt {i : Nat} {m' : EngineManager.St} {a' : Attempt} (h : Inv s) (ha : s.attempts[i]? = some a)
    (hops : m'.ops = s.manager.ops) (hact : a.active = true) (hm : Moves s.manager a m' a') :
    Inv ⟨m', s.attempts.set i a'⟩ := by
  obtain ⟨hmu, hma⟩ := hm.user
  have hmono := hm.mono
  refine ⟨⟨hm.wf h ha, fun op ho obj p w hp => ?_⟩, fun j b obj p w hb hp ho => ?_, fun j b hb hal => ?_,
    fun j k b c hb hal hc hne hu => ?_⟩
  · rw [hops] at ho
    obtain ⟨h1, h2, h3⟩ := h.sane.starting op ho obj p w hp
    exact ⟨h1, Nat.lt_of_lt_of_le h2 hmono.1, Nat.lt_of_lt_of_le h3 hmono.2⟩
  · rw [getElem?_updated ha] at hb
    split at hb
    · cases hb
      cases hm with
      | quiet phase _ hnw _ => exact absurd hp (hnw p w)
      | publish separate phase _ _ hlt hv =>
        cases ho
        refine ⟨rfl, ?_, hlt p w hp⟩
        have hn : m'.nextObj = (Records.publish a.user separate (view s.manager)).nextObj := congrArg Registry.nextObj hv
        rw [hn]
        exact Records.nextObj_publish a.user separate (view s.manager)
      | register => cases hp
    · obtain ⟨h1, h2, h3⟩ := h.waiting j b obj p w hb hp ho
      exact ⟨h1, Nat.lt_of_lt_of_le h2 hmono.1, Nat.lt_of_lt_of_le h3 hmono.2⟩
  · have hidle (user : Nat) (hi : Idle s.manager user) : Idle m' user := by
      intro op ho hu
      rw [hops] at ho
      exact hi op ho hu
    rw [getElem?_updated ha] at hb
    split at hb
    · cases hb
      rw [hma] at hal
      obtain ⟨hi, hst⟩ := h.stands i a ha hal
      rw [hmu]
      exact ⟨hidle _ hi, hst.move h.sane.wf hm⟩
    · next hj =>
      obtain ⟨hi, hst⟩ := h.stands j b hb hal
      have hbu : a.user ≠ b.user := by
        intro hu
        have := h.only j i b a hb hal ha hj hu
        rw [hact] at this
        cases this
      exact ⟨hidle _ hi, hst.same h.sane.wf (hm.same h ha hbu)⟩
  · rw [getElem?_updated ha] at hb hc
    split at hb
    · next hj =>
      cases hb
      rw [if_neg (fun hk => hne (hk.symm.trans hj))] at hc
      exact h.only i k a c ha (hma ▸ hal) hc (fun hk => hne (hk.trans hj)) (hu.trans hmu)
    · next hj =>
      split at hc
      · cases hc
        have := h.only j i b a hb hal ha hj (hmu.symm.trans hu)
        rw [hact] at this
        cases this
      · exact h.only j k b c hb hal hc hne hu

theorem step_inv {e : Event} (h : Inv s) (hs : step s e = some t) : Inv t := by
  cases e with
  | manager e =>
    simp only [step] at hs
    split at hs
    · cases hs
    · obtain ⟨m', hm, rfl⟩ := Option.map_eq_some_iff.1 hs
      exact inv_manager h hm
  | begin user =>
    simp only [step] at hs
    split at hs
    · cases hs
    · next hb =>
      cases hs
      exact inv_begin h (by simpa using fun hbusy => hb (.inr hbusy))
  | attempt i e =>
    simp only [step] at hs
    split at hs
    · cases hs
    · next a ha =>
      obtain ⟨x, hx, rfl⟩ := Option.map_eq_some_iff.1 hs
      obtain ⟨hops, hact, hm⟩ := Attempt.step_moves h.sane.wf hx
      exact inv_attempt h ha hops hact hm

theorem inv {ncpus : Nat} (h : Reach (system ncpus) any s) : Inv s := by
  refine h.inv (P := Inv) ?_ fun _ _ _ hi _ hs => step_inv hi hs
  rintro _ rfl
  exact init_inv ncpus

/-- A start overwrites what record there is. -/
theorem likeFresh {user : Nat} (h : Records.Unheard (view m) user) : LikeFresh m user := by
  refine ⟨{ m with engines := Function.update m.engines user none }, Function.update_self .., h, fun separate => ?_⟩
  have hr : record user { m with engines := Function.update m.engines user none } = record user m := by
    simp only [record, Function.update_idem]
  rw [hr]

/-- While an attempt is alone, and so once it is rejected, there is no trace of it exactly if
    it had no process yet or its process has emitted since. -/
theorem noPhantom_iff {ncpus : Nat} (h : Reach (system ncpus) any s) {i : Nat} (ha : s.attempts[i]? = some a)
    (hal : a.alone = true) :
    NoPhantom s.manager a ↔ a.proc = none ∨ a.undone = true := by
  obtain ⟨-, hst⟩ := (inv h).stands i a ha hal
  have trace (hs : getProcessId s.manager a.user = none) (hu : Records.Unheard (view s.manager) a.user)
      (ho : ∀ obj, a.obj = some obj → obj.user = a.user) : NoPhantom s.manager a := by
    refine ⟨?_, hs, fun obj hobj p hl => hu p obj hl (ho obj hobj), likeFresh hu⟩
    unfold getProcessId at hs
    rw [isRunning, hs]
    rfl
  cases hst with
  | before ho hp hun hf hu =>
    refine iff_of_true (trace ?_ hu fun obj hobj => ?_) (.inl hp)
    · exact Option.bind_eq_none_iff.2 hf
    · cases ho.symm.trans hobj
  | published obj ho hp hun hl hou he hpr hu =>
    refine iff_of_true (trace ?_ hu fun obj' hobj => ?_) (.inl hp)
    · have he : s.manager.engines a.user = some obj := he
      rw [getProcessId, he]
      exact hpr
    · cases ho.symm.trans hobj
      exact hou
  | registered obj p ho hp hl hw hou hun he hpr hli hon =>
    refine iff_of_false (fun hn => ?_) ?_
    · exact hn.unheard obj ho p hli
    · rw [hp, hun]
      simp
  | undone obj p ho hp hl hw hou hun he hu =>
    refine iff_of_true (trace ?_ hu fun obj' hobj => ?_) (.inr hun)
    · have he : s.manager.engines a.user = none := he
      rw [getProcessId, he]
      rfl
    · cases ho.symm.trans hobj
      exact hou

/-! ## Two failed starts -/

theorem reach_run {ncpus : Nat} (es : List Event)
    (h : run (system ncpus) ⟨EngineManager.init ncpus, []⟩ es = some s) : Reach (system ncpus) any s :=
  Reach.run (.init rfl) es (fun _ _ _ => trivial) h

/-- The shared process of user 7 crashes during the call, and the manager is told before
    the call rejects. -/
def crashDuringCall : List Event :=
  [.manager (.ready 0), .begin 7, .attempt 0 (.publish false), .attempt 0 .attach, .attempt 0 .call,
    .manager (.dies 0), .manager (.disconnect 0), .attempt 0 .callRejects]

theorem crash_leaves_no_trace :
    ∃ s, run (system 1) ⟨EngineManager.init 1, []⟩ crashDuringCall = some s ∧
      ∃ a, s.attempts[0]? = some a ∧ a.phase = .rejected ∧ NoPhantom s.manager a := by
  obtain ⟨s, hs⟩ : ∃ s, run (system 1) ⟨EngineManager.init 1, []⟩ crashDuringCall = some s := ⟨_, rfl⟩
  obtain ⟨a, ha, hp, hal, hun⟩ : ∃ a, s.attempts[0]? = some a ∧ a.phase = .rejected ∧ a.alone = true ∧
      a.undone = true := by
    cases hs
    exact ⟨_, rfl, rfl, rfl, rfl⟩
  exact ⟨s, hs, a, ha, hp, (noPhantom_iff (reach_run _ hs) ha hal).2 (.inr hun)⟩

/-- The token of user 7 cannot be signed: the user is running in the first process, where
    its handlers stay. -/
theorem token_fails_leaves_phantom :
    ∃ s, run (system 1) ⟨EngineManager.init 1, []⟩
        [.manager (.ready 0), .begin 7, .attempt 0 (.publish false), .attempt 0 .attach, .attempt 0 .prepareFails] =
        some s ∧
      ∃ a, s.attempts[0]? = some a ∧ a.phase = .rejected ∧ a.alone = true ∧ isRunning s.manager 7 = true ∧
        getProcessId s.manager 7 = some 0 ∧ (s.manager.procs 0).listeners = [⟨0, 7⟩] ∧ ¬ NoPhantom s.manager a := by
  refine ⟨_, rfl, _, rfl, rfl, rfl, rfl, rfl, rfl, fun h => ?_⟩
  exact absurd h.stopped (by decide)

end GenieCloud.Almond.FailedStart
