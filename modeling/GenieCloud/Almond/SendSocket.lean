/-
  GenieCloud.Almond.SendSocket — a client's socket on its way to the process of an engine
  (`sendSocket` and `_lockUser` of `almond/enginemanager.ts`).

  `sendSocket` checks that the user has a record with a process, waits for the user's lock
  and then reads the record again, which it takes for granted. The operations that hold
  the lock take their turns on the lock that `UserLocks` describes; what they and the
  workers do meanwhile is `EngineManager`. The log keeps, with each outcome, the manager
  as it was then.

  - `sendSocket_safe`: in every run a call is safe exactly if it was refused by its checks
    or, when it got the lock, the recorded process was there with a live child (`Live`);
    and so it is in every run in which nothing takes the engine of a waiting call away
    (`Undisturbed`).
  - `send_behind_kill_throws`: a call waits while a kill takes the record out.
-/

import GenieCloud.Almond.FailedStart
import GenieCloud.Almond.UserLocks

namespace GenieCloud.Almond.SendSocket

open GenieCloud.Lib.Objects GenieCloud.Lib.Runs GenieCloud.Almond.EngineManager
open GenieCloud.Almond.FailedStart (getProcessId)
open GenieCloud.Almond.Records (view emits Told Sane)

/-! ## The calls -/

inductive Outcome where
  /-- `E_INVALID_USER` and `E_ENGINE_DEAD`. -/
  | invalidUser
  | engineDead
  /-- A property of a missing record, or a method of a process or a child that is null. -/
  | typeError
  | sent (proc child : Nat)
  deriving DecidableEq, Repr

/-- What `sendSocket` does once it has the lock. -/
def send (m : EngineManager.St) (user : Nat) : Outcome :=
  match m.engines user with
  | none => .typeError
  | some obj =>
    match m.process obj with
    | none => .typeError
    | some p =>
      match (m.procs p).child with
      | none => .typeError
      | some c => .sent p c

/-- A call of `sendSocket` that is over, with the manager as it was. -/
structure Entry where
  manager : EngineManager.St
  user : Nat
  /-- It passed its checks and got the lock. -/
  granted : Bool
  outcome : Outcome

inductive Call where
  /-- An operation of the manager, by its number there. -/
  | operation (job : Nat)
  | sendSocket (user : Nat)
  | done
  deriving DecidableEq, Repr

structure St where
  manager : EngineManager.St
  locks : UserLocks.St
  /-- The calls of `_lockUser`, as in `locks`. -/
  calls : List Call
  log : List Entry

def actions : UserLocks.Kind → List Action
  | .startUser => [.start]
  | .killUser => [.kill]
  | .restartUser => [.kill, .start]
  | .restartUserWithoutCache => [.kill, .clear, .start]
  | .clearCache => [.clear]
  | .deleteUser => [.kill, .clear]
  | .sendSocket => []

def operation (kind : UserLocks.Kind) (user : Nat) (s : St) : St :=
  { s with
    manager := { s.manager with ops := s.manager.ops ++ [⟨user, true, actions kind, .queued⟩] }
    locks := UserLocks.lockUser kind s.locks user
    calls := s.calls ++ [.operation s.manager.ops.length] }

/-- The checks, up to the wait for the lock. -/
def sendSocket (user : Nat) (s : St) : St :=
  match s.manager.engines user with
  | none => { s with log := s.log ++ [⟨s.manager, user, false, .invalidUser⟩] }
  | some obj =>
    match s.manager.process obj with
    | none => { s with log := s.log ++ [⟨s.manager, user, false, .engineDead⟩] }
    | some _ =>
      { s with
        locks := UserLocks.lockUser .sendSocket s.locks user
        calls := s.calls ++ [.sendSocket user] }

inductive Event where
  /-- The manager and its workers, but for the lock. -/
  | manager (e : Ev)
  | timer (user : Nat)
  | call (kind : UserLocks.Kind) (user : Nat)
  | enter (i : Nat)
  | release (i : Nat)
  deriving DecidableEq, Repr

/-- The events of `EngineManager` that make a call or use its lock. -/
def locking : Ev → Bool
  | .call _ _ | .enter _ | .userTimer _ => true
  | _ => false

/-- The lock goes to the `i`th call. `sendSocket` gives it back in the same turn. -/
def enter (s : St) (i : Nat) (locks : UserLocks.St) : Call → Option St
  | .operation j =>
    (s.manager.ops[j]?).map fun op => { s with
      locks := locks
      manager := s.manager.setOp j { op with phase := .inside } }
  | .sendSocket user =>
    (UserLocks.step locks (.release i)).map fun locks => { s with
      locks := locks
      calls := s.calls.set i .done
      log := s.log ++ [⟨s.manager, user, true, send s.manager user⟩] }
  | .done => none

/-- An operation of the manager is over. -/
def finished (s : St) : Call → Bool
  | .operation j => (s.manager.ops[j]?).any (·.phase = .done)
  | _ => false

def step (s : St) : Event → Option St
  | .manager e =>
    if locking e then none else (EngineManager.step s.manager e).map fun m => { s with manager := m }
  | .timer user =>
    if user ∈ s.manager.userTimers then
      some (operation .restartUser user
        { s with manager := { s.manager with userTimers := s.manager.userTimers.erase user } })
    else none
  | .call kind user => some (if kind = .sendSocket then sendSocket user s else operation kind user s)
  | .enter i => do
    let call ← s.calls[i]?
    let locks ← UserLocks.step s.locks (.enter i)
    enter s i locks call
  | .release i => do
    let call ← s.calls[i]?
    if finished s call then (UserLocks.step s.locks (.release i)).map fun locks => { s with locks := locks } else none

def init (ncpus : Nat) : St := ⟨EngineManager.init ncpus, UserLocks.init, [], []⟩

def system (ncpus : Nat) : System St Event where
  init s := s = init ncpus
  step := step

/-! ## The property -/

/-- The recorded process of the user is there, and its child lives. -/
def Live (m : EngineManager.St) (user : Nat) : Prop :=
  ∃ p c, getProcessId m user = some p ∧ (m.procs p).child = some c ∧ (m.children c).dead = false

/-- The call was refused, or the socket went to the recorded process and its live child. -/
def Safe (x : Entry) : Prop :=
  x.outcome = .invalidUser ∨ x.outcome = .engineDead ∨
    ∃ p c, getProcessId x.manager x.user = some p ∧ (x.manager.procs p).child = some c ∧
      (x.manager.children c).dead = false ∧ x.outcome = .sent p c

/-- What takes the engine of a user away, or begins to replace it. -/
inductive Disturbs (m : EngineManager.St) (user : Nat) : Ev → Prop
  | start (i : Nat) (op : Op) (separate : Bool) : m.ops[i]? = some op → op.user = user →
      Disturbs m user (.start i separate)
  | attach (i : Nat) (op : Op) : m.ops[i]? = some op → op.user = user → Disturbs m user (.attach i)
  /-- The handler of the user's record is told. -/
  | told (e : Ev) (p : Nat) (whom : Option Nat) (obj : EngineProxy) : emits m e = some (p, whom) →
      m.engines user = some obj → Told (view m) p whom obj → Disturbs m user e
  /-- The recorded process emits `exit`. -/
  | exits (e : Ev) (p : Nat) : emits m e = some (p, none) → getProcessId m user = some p → Disturbs m user e
  | dies (c p : Nat) : getProcessId m user = some p → (m.procs p).child = some c → Disturbs m user (.dies c)
  | gone (c : Nat) : getProcessId m user = some (m.children c).proc → Disturbs m user (.exit c)

/-- No engine is disturbed while a call waits for its user's lock, and a call that passes
    its checks finds a live child. -/
def Undisturbed (s : St) : Event → Prop
  | .manager e => ∀ (i user : Nat), s.calls[i]? = some (.sendSocket user) → ¬ Disturbs s.manager user e
  | .call .sendSocket user => getProcessId s.manager user ≠ none → Live s.manager user
  | _ => True

/-! ## One call -/

variable {s t : St} {m m' : EngineManager.St}

theorem send_eq {user p c : Nat} (hp : getProcessId m user = some p) (hc : (m.procs p).child = some c) :
    send m user = .sent p c := by
  obtain ⟨obj, ho, hp⟩ := Option.bind_eq_some_iff.1 hp
  simp only [send, ho, hp, hc]

theorem send_refuses (m : EngineManager.St) (user : Nat) : send m user ≠ .invalidUser ∧ send m user ≠ .engineDead := by
  unfold send
  split
  · exact ⟨nofun, nofun⟩
  · split
    · exact ⟨nofun, nofun⟩
    · split <;> exact ⟨nofun, nofun⟩

/-- A call that has got the lock is safe exactly if the engine lives. -/
theorem safe_send_iff (m : EngineManager.St) (user : Nat) : Safe ⟨m, user, true, send m user⟩ ↔ Live m user := by
  constructor
  · rintro (h | h | ⟨p, c, hp, hc, hd, -⟩)
    · exact absurd h (send_refuses m user).1
    · exact absurd h (send_refuses m user).2
    · exact ⟨p, c, hp, hc, hd⟩
  · rintro ⟨p, c, hp, hc, hd⟩
    exact .inr (.inr ⟨p, c, hp, hc, hd, send_eq hp hc⟩)

/-! ## A process with a live child -/

def Up (m : EngineManager.St) (p : Nat) : Prop := ∃ c, (m.procs p).child = some c ∧ (m.children c).dead = false

theorem Up.copy {p : Nat} (h : Up m p) (hc : m'.children = m.children) (hp : m'.procs = m.procs) : Up m' p := by
  unfold Up
  rw [hc, hp]
  exact h

theorem Up.setProc {p q : Nat} {x : EngineProcess} (h : Up m p) (hx : q = p → x.child = (m.procs p).child) :
    Up (m.setProc q x) p := by
  obtain ⟨c, hc, hd⟩ := h
  refine ⟨c, ?_, hd⟩
  show (Function.update m.procs q x p).child = some c
  by_cases hp : p = q
  · rw [hp, Function.update_self, hx hp.symm, hc]
  · rw [Function.update_of_ne hp, hc]

theorem Up.setChild {p c : Nat} {x : Child} (h : Up m p)
    (hx : (m.procs p).child = some c → (m.children c).dead = false → x.dead = false) : Up (m.setChild c x) p := by
  obtain ⟨d, hc, hd⟩ := h
  refine ⟨d, hc, ?_⟩
  show (Function.update m.children c x d).dead = false
  by_cases he : d = c
  · subst he
    rw [Function.update_self]
    exact hx hc hd
  · rw [Function.update_of_ne he, hd]

/-- Starting a process gives it a new child and leaves the other processes theirs. -/
theorem Up.startProc {p : Nat} (q : Nat) (h : p = q ∨ Up m p) : Up (startProc q m) p := by
  by_cases hq : p = q
  · subst hq
    refine ⟨m.nextChild, ?_, ?_⟩
    · simp only [EngineManager.startProc, Function.update_self]
    · simp only [EngineManager.startProc, Function.update_self, newChild]
  · obtain ⟨c, hc, hd⟩ := h.resolve_left hq
    refine ⟨c, ?_, ?_⟩
    · simp only [EngineManager.startProc, Function.update_of_ne hq, hc]
    · by_cases he : c = m.nextChild
      · simp only [EngineManager.startProc, he, Function.update_self, newChild]
      · simp only [EngineManager.startProc, Function.update_of_ne he, hd]

theorem Up.send {p : Nat} (h : Up m p) (c : Nat) (msg : Msg) : Up (EngineManager.send c msg m) p := by
  unfold EngineManager.send
  split
  · exact h
  · exact h.setChild fun _ hd => hd

theorem Up.register {p : Nat} (h : Up m p) (obj : EngineProxy) (q : Nat) : Up (register obj q m) p := by
  have hp : Up (m.setProc q { m.procs q with listeners := (m.procs q).listeners ++ [obj] }) p := by
    refine h.setProc ?_
    rintro rfl
    rfl
  exact hp

theorem Up.dieAll {p : Nat} (q : Nat) (manual : Bool) (l : List EngineProxy) (h : Up m p) :
    Up (l.foldl (die q manual) m) p := by
  induction l generalizing m with
  | nil => exact h
  | cons o l ih =>
    refine ih ?_
    have hp : Up (m.setProc q { m.procs q with listeners := (m.procs q).listeners.filter (· ≠ o) }) p := by
      refine h.setProc ?_
      rintro rfl
      rfl
    exact hp

theorem Up.emitExit {p q : Nat} (h : Up m p) (hq : q ≠ p) (manual : Bool) : Up (emitExit q manual m) p := by
  unfold EngineManager.emitExit
  dsimp only
  refine Up.dieAll q manual _ ?_
  split
  · exact h.setProc fun he => absurd he hq
  · exact h

theorem Up.crashed {p q : Nat} (h : Up m p) (hq : (m.procs q).hadExit = true ∨ q ≠ p) : Up (crashed q m) p := by
  unfold EngineManager.crashed
  split
  · exact h
  · next hx =>
    have hne : q ≠ p := hq.resolve_left hx
    exact (h.setProc fun he => absurd he hne).emitExit hne false

theorem Up.killProc {p q : Nat} (h : Up m p) (hq : q = p → (m.procs q).child = none) : Up (killProc q m) p := by
  unfold EngineManager.killProc
  split
  · exact h
  · next hc =>
    have hne : q ≠ p := fun he => hc (hq he)
    exact (h.setProc fun he => absurd he hne).emitExit hne true

theorem Up.killEngine {p i : Nat} {op : Op} (waits : Bool) (rest : List Action) (h : Up m p) (ho : m.ops[i]? = some op)
    (he : emits m (.kill i) ≠ some (p, none)) : Up (killEngine i op waits rest m) p := by
  unfold EngineManager.killEngine
  dsimp only
  cases hr : (m.engines op.user).bind m.process with
  | none => exact h
  | some q =>
    dsimp only
    cases hs : (m.procs q).shared with
    | true =>
      simp only [if_true]
      split
      · exact h
      · refine Up.send ?_ _ _
        exact h.copy rfl rfl
    | false =>
      simp only [Bool.false_eq_true, if_false]
      refine Up.killProc (m := m.setOp i { op with todo := rest }) h fun hq => ?_
      by_contra hc
      refine he ?_
      have hc : (m.procs q).child ≠ none := hc
      subst hq
      simp [emits, ho, hr, hs, hc]

theorem Up.runUser {p i : Nat} {op : Op} (separate : Bool) (rest : List Action) (h : Up m p) :
    Up (runUser i op separate rest m) p := by
  unfold EngineManager.runUser
  dsimp only
  cases separate with
  | true =>
    simp only [if_true]
    let m1 : EngineManager.St := { m with
      engines := Function.update m.engines op.user (some ⟨m.nextObj, op.user⟩)
      nextObj := m.nextObj + 1 }
    have h1 : p = m.nextProc ∨ Up { m1.setProc m.nextProc noProc with nextProc := m.nextProc + 1 } p := by
      by_cases hp : p = m.nextProc
      · exact .inl hp
      · have h2 : Up m1 p := h
        exact .inr (h2.setProc (x := noProc) fun he => absurd he.symm hp)
    exact Up.startProc m.nextProc h1
  | false =>
    simp only [Bool.false_eq_true, if_false]
    split <;> exact h

theorem handle_dead (x : Child) (msg : Msg) : (handle x msg).dead = x.dead := by
  cases msg with
  | runEngine obj => rfl
  | killEngine call =>
    simp only [handle]
    split <;> rfl

/-- A process keeps a live child but for what takes it away. -/
theorem up_step {p : Nat} {e : Ev} (h : Up m p) (hs : EngineManager.step m e = some m')
    (he : emits m e ≠ some (p, none)) (hdies : ∀ c, e = .dies c → (m.procs p).child ≠ some c)
    (hexit : ∀ c, e = .exit c → (m.children c).proc ≠ p) : Up m' p := by
  cases e with
  | call kind user => cases hs; exact h
  | boot user =>
    simp only [EngineManager.step] at hs
    split at hs <;> cases hs
    exact h
  | userTimer user =>
    simp only [EngineManager.step] at hs
    split at hs <;> cases hs
    exact h
  | enter i =>
    simp only [EngineManager.step] at hs
    split at hs
    · cases hs
    · split at hs <;> cases hs
      exact h
  | kill i =>
    simp only [EngineManager.step] at hs
    split at hs <;> cases hs
    · next ho => exact h.killEngine true _ ho he
    · next ho => exact h.killEngine false _ ho he
  | start i separate =>
    simp only [EngineManager.step] at hs
    split at hs <;> cases hs
    exact h.runUser separate _
  | attach i =>
    simp only [EngineManager.step] at hs
    split at hs
    · next user locked todo obj q waits ho =>
      split at hs <;> cases hs
      unfold EngineManager.attach
      split
      · exact h.register obj q
      · refine Up.send ?_ _ _
        exact h.register obj q
    · cases hs
  | ran i =>
    simp only [EngineManager.step] at hs
    split at hs
    · split at hs <;> cases hs
      exact h
    · cases hs
  | killed call =>
    simp only [EngineManager.step] at hs
    split at hs <;> cases hs
    exact Up.dieAll (m := { m with pending := m.pending.filter (· ≠ call) }) call.proc true _ h
  | fail i =>
    simp only [EngineManager.step] at hs
    split at hs <;> cases hs
    · exact h
    · exact h
  | finish i =>
    simp only [EngineManager.step] at hs
    split at hs <;> cases hs
    exact h
  | handle c =>
    simp only [EngineManager.step] at hs
    split at hs <;> cases hs
    exact h.setChild fun _ hd => (handle_dead _ _).trans hd
  | ready c =>
    simp only [EngineManager.step] at hs
    split at hs <;> cases hs
    have hp : Up (m.setProc (m.children c).proc { m.procs (m.children c).proc with starting := none }) p := by
      refine h.setProc ?_
      rintro rfl
      rfl
    exact hp
  | dies c =>
    simp only [EngineManager.step] at hs
    split at hs <;> cases hs
    exact h.setChild fun hc _ => absurd hc (hdies c rfl)
  | disconnect c =>
    simp only [EngineManager.step] at hs
    split at hs <;> cases hs
    have h1 : Up (m.setChild c { m.children c with disconnected := true }) p := h.setChild fun _ hd => hd
    refine h1.crashed ?_
    by_cases hx : (m.procs (m.children c).proc).hadExit = true
    · exact .inl hx
    · refine .inr fun hp => he ?_
      rw [hp] at hx
      simp only [emits, hp, if_neg hx]
  | exit c =>
    simp only [EngineManager.step] at hs
    split at hs <;> cases hs
    have hne := hexit c rfl
    have h1 : Up (m.setChild c { m.children c with exited := true }) p := h.setChild fun _ hd => hd
    exact (h1.setProc fun hp => absurd hp hne).crashed (.inr hne)
  | spawn q =>
    simp only [EngineManager.step] at hs
    split at hs <;> cases hs
    refine Up.startProc q ?_
    by_cases hp : p = q
    · exact .inl hp
    · exact .inr (h.setProc fun hq => absurd hq.symm hp)

/-! ## A user whose engine lives -/

theorem Live.copy {user : Nat} (h : Live m user) (h1 : m'.engines = m.engines) (h2 : m'.process = m.process)
    (h3 : m'.procs = m.procs) (h4 : m'.children = m.children) : Live m' user := by
  unfold Live getProcessId at h ⊢
  rw [h1, h2, h3, h4]
  exact h

/-- The record and its process stay, unless the handler is told or a start of the user goes on. -/
theorem getProcessId_step {user p : Nat} {e : Ev} (hm : Sane m) (hs : EngineManager.step m e = some m')
    (hn : ¬ Disturbs m user e) (hp : getProcessId m user = some p) : getProcessId m' user = some p := by
  obtain ⟨obj, ho, hpr⟩ := Option.bind_eq_some_iff.1 hp
  have keep (h1 : (view m').engines user = some obj) (h2 : (view m').process obj = some p) :
      getProcessId m' user = some p := Option.bind_eq_some_iff.2 ⟨obj, h1, h2⟩
  cases Records.step_change hs with
  | quiet _ _ hv => exact keep (by rw [hv]; exact ho) (by rw [hv]; exact hpr)
  | publish i op separate hi _ hv =>
    have hu : op.user ≠ user := fun hu => hn (.start i op separate hi hu)
    have hsame := Records.same_publish hu separate hm.wf
    rw [← hv] at hsame
    exact keep (hsame.engines.trans ho) ((hsame.process obj (hm.wf.typed _ _ ho)).trans hpr)
  | register i op obj' q waits hi hph hv =>
    have hu : op.user ≠ user := fun hu => hn (.attach i op hi hu)
    obtain ⟨hou, -, -⟩ := hm.starting op (List.mem_of_getElem? hi) obj' q waits hph
    have hsame := Records.same_register (r := view m) (fun h => hu (hou.symm.trans h)) q
    rw [← hv] at hsame
    exact keep (hsame.engines.trans ho) ((hsame.process obj (hm.wf.typed _ _ ho)).trans hpr)
  | drop _ q whom he hv =>
    refine keep ?_ (by rw [hv]; exact hpr)
    rw [hv, Records.engines_drop]
    exact ⟨ho, fun ht => hn (.told _ q whom obj he ho ht.2)⟩

theorem live_step {user : Nat} {e : Ev} (hm : Sane m) (hl : Live m user) (hn : ¬ Disturbs m user e)
    (hs : EngineManager.step m e = some m') : Live m' user := by
  obtain ⟨p, c, hp, hc, hd⟩ := hl
  have hup : Up m' p := by
    refine up_step ⟨c, hc, hd⟩ hs (fun he => hn (.exits e p he hp)) (fun d he hd => ?_) fun d he hd => ?_
    · subst he
      exact hn (.dies d p hp hd)
    · subst he
      exact hn (.gone d (hp.trans (congrArg some hd.symm)))
  obtain ⟨d, hd, hdd⟩ := hup
  exact ⟨p, d, getProcessId_step hm hs hn hp, hd, hdd⟩

/-! ## Runs -/

/-- A new operation that waits for its lock, or one that gets it, waits for no process. -/
theorem sane_ops (h : Sane m) {ops : List Op} (hops : ∀ op ∈ ops, op ∈ m.ops ∨ ∀ obj p w, op.phase ≠ .starting obj p w) :
    Sane { m with ops := ops } := by
  refine ⟨h.wf, fun op ho obj p w hp => ?_⟩
  rcases hops op ho with ho | hn
  · exact h.starting op ho obj p w hp
  · exact absurd hp (hn obj p w)

theorem sane_operation (kind : UserLocks.Kind) (user : Nat) (h : Sane s.manager) :
    Sane (operation kind user s).manager := by
  refine sane_ops h fun op ho => ?_
  rw [List.mem_append, List.mem_singleton] at ho
  refine ho.imp id ?_
  rintro rfl
  exact nofun

theorem sane_step {e : Event} (h : Sane s.manager) (hs : step s e = some t) : Sane t.manager := by
  cases e with
  | manager e =>
    simp only [step] at hs
    split at hs
    · cases hs
    · obtain ⟨m, hm, rfl⟩ := Option.map_eq_some_iff.1 hs
      exact h.step hm
  | timer user =>
    simp only [step] at hs
    split at hs <;> cases hs
    exact sane_operation (s := { s with manager := { s.manager with userTimers := _ } }) _ _ ⟨h.wf, h.starting⟩
  | call kind user =>
    simp only [step] at hs
    split at hs <;> cases hs
    · unfold sendSocket
      split
      · exact h
      · split <;> exact h
    · exact sane_operation kind user h
  | enter i =>
    obtain ⟨call, -, hs⟩ := Option.bind_eq_some_iff.1 hs
    obtain ⟨locks, -, hs⟩ := Option.bind_eq_some_iff.1 hs
    cases call with
    | operation j =>
      obtain ⟨op, -, rfl⟩ := Option.map_eq_some_iff.1 hs
      refine sane_ops h fun op' ho => ?_
      refine (List.mem_or_eq_of_mem_set ho).imp id ?_
      rintro rfl
      exact nofun
    | sendSocket user =>
      obtain ⟨locks, -, rfl⟩ := Option.map_eq_some_iff.1 hs
      exact h
    | done => cases hs
  | release i =>
    obtain ⟨call, -, hs⟩ := Option.bind_eq_some_iff.1 hs
    split at hs
    · obtain ⟨locks, -, rfl⟩ := Option.map_eq_some_iff.1 hs
      exact h
    · cases hs

/-- What an event adds to the log: nothing, a refusal, or what a call does with the lock. -/
inductive Logs (s t : St) : Event → Prop
  | nothing (e : Event) : t.log = s.log → Logs s t e
  | refusal (e : Event) (user : Nat) (o : Outcome) : o = .invalidUser ∨ o = .engineDead →
      t.log = s.log ++ [⟨s.manager, user, false, o⟩] → Logs s t e
  | grant (i user : Nat) : s.calls[i]? = some (.sendSocket user) →
      t.log = s.log ++ [⟨s.manager, user, true, send s.manager user⟩] → Logs s t (.enter i)

theorem step_logs {e : Event} (hs : step s e = some t) : Logs s t e := by
  cases e with
  | manager e =>
    simp only [step] at hs
    split at hs
    · cases hs
    · obtain ⟨m, -, rfl⟩ := Option.map_eq_some_iff.1 hs
      exact .nothing _ rfl
  | timer user =>
    simp only [step] at hs
    split at hs <;> cases hs
    exact .nothing _ rfl
  | call kind user =>
    simp only [step] at hs
    split at hs <;> cases hs
    · unfold sendSocket
      split
      · exact .refusal _ user _ (.inl rfl) rfl
      · split
        · exact .refusal _ user _ (.inr rfl) rfl
        · exact .nothing _ rfl
    · exact .nothing _ rfl
  | enter i =>
    obtain ⟨call, hc, hs⟩ := Option.bind_eq_some_iff.1 hs
    obtain ⟨locks, -, hs⟩ := Option.bind_eq_some_iff.1 hs
    cases call with
    | operation j =>
      obtain ⟨op, -, rfl⟩ := Option.map_eq_some_iff.1 hs
      exact .nothing _ rfl
    | sendSocket user =>
      obtain ⟨locks, -, rfl⟩ := Option.map_eq_some_iff.1 hs
      exact .grant i user hc rfl
    | done => cases hs
  | release i =>
    obtain ⟨call, -, hs⟩ := Option.bind_eq_some_iff.1 hs
    split at hs
    · obtain ⟨locks, -, rfl⟩ := Option.map_eq_some_iff.1 hs
      exact .nothing _ rfl
    · cases hs

theorem safe_refusal {x : Entry} (h : x.outcome = .invalidUser ∨ x.outcome = .engineDead) : Safe x :=
  h.elim .inl fun h => .inr (.inl h)

theorem safe_iff {ncpus : Nat} (h : Reach (system ncpus) any s) :
    ∀ x ∈ s.log, Safe x ↔ (x.granted = true → Live x.manager x.user) := by
  refine h.inv (P := fun s => ∀ x ∈ s.log, Safe x ↔ (x.granted = true → Live x.manager x.user)) ?_ ?_
  · rintro _ rfl x hx
    cases hx
  · intro s e t ih _ hs x hx
    cases step_logs hs with
    | nothing _ hl =>
      rw [hl] at hx
      exact ih x hx
    | refusal _ user o ho hl =>
      rw [hl, List.mem_append, List.mem_singleton] at hx
      rcases hx with hx | rfl
      · exact ih x hx
      · exact iff_of_true (safe_refusal ho) nofun
    | grant i user _ hl =>
      rw [hl, List.mem_append, List.mem_singleton] at hx
      rcases hx with hx | rfl
      · exact ih x hx
      · rw [safe_send_iff]
        exact ⟨fun hl _ => hl, fun hl => hl rfl⟩

/-- The engine of every call that waits lives, and no call was unsafe. -/
structure Quiet (s : St) : Prop where
  sane : Sane s.manager
  waiting : ∀ (i user : Nat), s.calls[i]? = some (.sendSocket user) → Live s.manager user
  safe : ∀ x ∈ s.log, Safe x

theorem waiting_operation {kind : UserLocks.Kind} {v : Nat}
    (h : ∀ (i user : Nat), s.calls[i]? = some (.sendSocket user) → Live s.manager user) (i user : Nat)
    (hc : (operation kind v s).calls[i]? = some (.sendSocket user)) : Live (operation kind v s).manager user := by
  have hc : (s.calls ++ [.operation s.manager.ops.length])[i]? = some (.sendSocket user) := hc
  rw [getElem?_created] at hc
  split at hc
  · cases hc
  · exact h i user hc

theorem quiet_step {e : Event} (h : Quiet s) (hok : Undisturbed s e) (hs : step s e = some t) : Quiet t := by
  have hlog : ∀ x ∈ t.log, Safe x := by
    intro x hx
    cases step_logs hs with
    | nothing _ hl =>
      rw [hl] at hx
      exact h.safe x hx
    | refusal _ user o ho hl =>
      rw [hl, List.mem_append, List.mem_singleton] at hx
      rcases hx with hx | rfl
      · exact h.safe x hx
      · exact safe_refusal ho
    | grant i user hc hl =>
      rw [hl, List.mem_append, List.mem_singleton] at hx
      rcases hx with hx | rfl
      · exact h.safe x hx
      · exact (safe_send_iff _ _).2 (h.waiting i user hc)
  refine ⟨sane_step h.sane hs, ?_, hlog⟩
  cases e with
  | manager e =>
    simp only [step] at hs
    split at hs
    · cases hs
    · obtain ⟨m, hm, rfl⟩ := Option.map_eq_some_iff.1 hs
      exact fun i user hc => live_step h.sane (h.waiting i user hc) (hok i user hc) hm
  | timer user =>
    simp only [step] at hs
    split at hs <;> cases hs
    exact waiting_operation (s := { s with manager := { s.manager with userTimers := _ } }) h.waiting
  | call kind user =>
    simp only [step] at hs
    split at hs <;> cases hs
    · next hk =>
      subst hk
      unfold sendSocket
      split
      · exact h.waiting
      · next obj ho =>
        split
        · exact h.waiting
        · next p hp =>
          intro i v hc
          dsimp only at hc
          rw [getElem?_created] at hc
          split at hc
          · cases hc
            refine hok ?_
            simp [getProcessId, ho, hp]
          · exact h.waiting i v hc
    · exact waiting_operation h.waiting
  | enter i =>
    obtain ⟨call, hc, hs⟩ := Option.bind_eq_some_iff.1 hs
    obtain ⟨locks, -, hs⟩ := Option.bind_eq_some_iff.1 hs
    cases call with
    | operation j =>
      obtain ⟨op, -, rfl⟩ := Option.map_eq_some_iff.1 hs
      exact h.waiting
    | sendSocket user =>
      obtain ⟨locks, -, rfl⟩ := Option.map_eq_some_iff.1 hs
      intro j v hv
      dsimp only at hv
      rw [getElem?_updated hc] at hv
      split at hv
      · cases hv
      · exact h.waiting j v hv
    | done => cases hs
  | release i =>
    obtain ⟨call, -, hs⟩ := Option.bind_eq_some_iff.1 hs
    split at hs
    · obtain ⟨locks, -, rfl⟩ := Option.map_eq_some_iff.1 hs
      exact h.waiting
    · cases hs

theorem quiet {ncpus : Nat} (h : Reach (system ncpus) Undisturbed s) : Quiet s := by
  refine h.inv (P := Quiet) ?_ fun _ _ _ hq hok hs => quiet_step hq hok hs
  rintro _ rfl
  refine ⟨Records.sane_init ncpus, fun i user hc => ?_, nofun⟩
  simp [init] at hc

/-- A call is safe exactly if its checks refused it or the engine lived when it got the lock,
    and every call is in a run that disturbs no engine a call waits for. -/
theorem sendSocket_safe (ncpus : Nat) :
    (∀ s, Reach (system ncpus) any s → ∀ x ∈ s.log, Safe x ↔ (x.granted = true → Live x.manager x.user)) ∧
      ∀ s, Reach (system ncpus) Undisturbed s → ∀ x ∈ s.log, Safe x :=
  ⟨fun _ h => safe_iff h, fun _ h => (quiet h).safe⟩

/-! ## A call behind a kill -/

/-- User 7 is started in a shared process. -/
def startShared : List Event :=
  [.manager (.ready 0), .call .startUser 7, .enter 0, .manager (.start 0 false), .manager (.attach 0),
    .manager (.handle 0), .manager (.ran 0), .manager (.finish 0), .release 0]

theorem send_reaches_the_child :
    ∃ s, run (system 1) (init 1) (startShared ++ [.call .sendSocket 7, .enter 1]) = some s ∧
      ∃ x ∈ s.log, x.outcome = .sent 0 0 ∧ Safe x := by
  obtain ⟨s, hs⟩ : ∃ s, run (system 1) (init 1) (startShared ++ [.call .sendSocket 7, .enter 1]) = some s := ⟨_, rfl⟩
  have hr : Reach (system 1) any s := Reach.run (.init rfl) _ (fun _ _ _ => trivial) hs
  obtain ⟨x, hx, ho, hl⟩ : ∃ x ∈ s.log, x.outcome = .sent 0 0 ∧ Live x.manager x.user := by
    cases hs
    exact ⟨_, List.mem_singleton_self _, rfl, 0, 0, rfl, rfl, rfl⟩
  exact ⟨s, hs, x, hx, ho, ((sendSocket_safe 1).1 s hr x hx).2 fun _ => hl⟩

/-- The kill holds the lock, and the record is there when `sendSocket` looks; the worker's
    reply takes it out before the lock is given back. -/
theorem send_behind_kill_throws :
    ∃ s, run (system 1) (init 1) (startShared ++
        [.call .killUser 7, .enter 1, .manager (.kill 1), .call .sendSocket 7, .manager (.handle 0),
          .manager (.killed ⟨0, 0, 0, 7⟩), .manager (.finish 1), .release 1, .enter 2]) = some s ∧
      ∃ x ∈ s.log, x.granted = true ∧ x.outcome = .typeError ∧ ¬ Safe x := by
  refine ⟨_, rfl, _, List.mem_singleton_self _, rfl, rfl, fun h => ?_⟩
  have hl := (safe_send_iff _ _).1 h
  obtain ⟨p, c, hp, -⟩ := hl
  cases hp

end GenieCloud.Almond.SendSocket
