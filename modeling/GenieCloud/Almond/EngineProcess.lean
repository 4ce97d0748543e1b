/-
  GenieCloud.Almond.EngineProcess — supervision of one shared worker process
  (`EngineProcess` of `almond/enginemanager.ts`, the `exit` listener of
  `_startSharedProcesses`, and `die` of `_runUser`).

  One object spawns one child after another. A child that crashes delivers `disconnect`
  and `exit`, in either order; a killed one delivers them too. The first of the two that
  finds `_hadExit` false sets it and emits the object's `exit` event: the manager then
  schedules a restart of the process and calls the die handler of every user registered
  on it. `kill` sets `_hadExit` and emits at once. Nothing ever sets `_hadExit` back.

  `Supervised` is what a crash owes: one event, one restart, and a die handler called for
  every engine that ran in that child. `supervised_iff_first_child`: the first child gets
  it and no later one does. `second_crash_is_silent` is the shortest such run: the child
  spawned by the restart crashes, and nothing happens.
-/

import GenieCloud.Lib.Runs
import Mathlib.Tactic.Tauto

namespace GenieCloud.Almond.EngineProcess

open GenieCloud.Lib.Runs

/-! ## The process object, its listeners and its children -/

/-- What made the object emit `exit`. -/
inductive Cause where
  | crash (child : Nat)
  | kill (child : Nat)
  deriving DecidableEq, Repr

/-- The object and its children, numbered as they are spawned. -/
structure Proc where
  child : Option Nat
  /-- The child the RPC socket talks to. -/
  rpcSocket : Option Nat
  rpcId : Option Nat
  hadExit : Bool
  /-- The child whose readiness `waitReady` waits for. -/
  starting : Option Nat
  spawned : Nat
  ready : List Nat
  disconnected : List Nat
  exited : List Nat
  killed : List Nat
  emitted : List Cause
  /-- The calls of `restart`, by what made the object emit; each spawns a child when its timer fires. -/
  restarts : List Cause

/-- An object `_runUser` put in `_engines`. -/
structure EngineProxy where
  id : Nat
  user : Nat
  waits : Option Nat
  deriving DecidableEq, Repr

structure St extends Proc where
  stopped : Bool
  engines : Nat → Option EngineProxy
  nextId : Nat
  /-- `_runUser` calls that wait for the process. -/
  waiting : List EngineProxy
  /-- `_runUser` calls that have registered their `die` and are about to call `runEngine`. -/
  calling : List EngineProxy
  /-- The registered die handlers, oldest first. -/
  listeners : List EngineProxy
  /-- Calls of `killEngine` without a reply yet. -/
  killing : List Nat
  died : List EngineProxy
  /-- Engines started, each with the child it runs in. -/
  ran : List (EngineProxy × Nat)
  /-- Users to be restarted in ten seconds. -/
  userRestarts : List Nat

def start (s : St) : St :=
  { s with child := some s.spawned, rpcSocket := some s.spawned, starting := some s.spawned, spawned := s.spawned + 1 }

def restart (cause : Cause) (s : St) : St :=
  { s with child := none, rpcSocket := none, rpcId := none, starting := some (s.restarts.length + 1),
           restarts := s.restarts ++ [cause] }

/-- `die`: it unregisters itself, and unless the user has a newer object in `_engines`
    takes its own out, and after a crash has the user restarted. -/
def die (manual : Bool) (s : St) (obj : EngineProxy) : St :=
  let current := s.engines obj.user = some obj
  { s with
    listeners := s.listeners.filter (· ≠ obj)
    died := obj :: s.died
    engines := if current then Function.update s.engines obj.user none else s.engines
    userRestarts :=
      if current ∧ manual = false ∧ s.stopped = false then s.userRestarts ++ [obj.user] else s.userRestarts }

/-- The `exit` listener of `_startSharedProcesses`. -/
def onExit (cause : Cause) (s : St) : St := if s.stopped then s else restart cause s

/-- Emitting `exit`: the listener of `_startSharedProcesses`, registered first, then every die handler. -/
def emit (cause : Cause) (manual : Bool) (s : St) : St :=
  let s := onExit cause { s with emitted := s.emitted ++ [cause] }
  s.listeners.foldl (die manual) s

/-- The shared end of the child's `disconnect` and `exit` handlers. -/
def crashed (c : Nat) (s : St) : St :=
  if s.hadExit then s else emit (.crash c) false { s with hadExit := true }

def kill (s : St) : St :=
  match s.child with
  | none => s
  | some c => emit (.kill c) true { s with hadExit := true, killed := c :: s.killed }

def init : St :=
  start
    { child := none, rpcSocket := none, rpcId := none, hadExit := false, starting := none, spawned := 0
      ready := [], disconnected := [], exited := [], killed := [], emitted := [], restarts := []
      stopped := false, engines := fun _ => none, nextId := 0, waiting := [], calling := [], listeners := []
      killing := [], died := [], ran := [], userRestarts := [] }

/-! ## Events -/

inductive Ev where
  /-- The child says it is ready. -/
  | ready (c : Nat)
  | disconnect (c : Nat)
  | exit (c : Nat)
  /-- A restart timer fires. -/
  | spawn
  /-- `_runUser` up to its wait for the process. -/
  | assign (user : Nat)
  /-- The wait is over: the die handler is registered. -/
  | attach (obj : EngineProxy)
  | runEngine (obj : EngineProxy)
  | killEngine (user : Nat)
  /-- The reply to `killEngine`: `engine-removed` is emitted. -/
  | engineRemoved (user : Nat)
  /-- `killAllUsers`. -/
  | kill
  | stop
  deriving DecidableEq, Repr

def step (s : St) : Ev → Option St
  | .ready c =>
    if c < s.spawned ∧ c ∉ s.ready ∧ c ∉ s.disconnected ∧ c ∉ s.exited then
      some { s with ready := c :: s.ready, rpcId := some c, starting := none }
    else none
  | .disconnect c =>
    if c < s.spawned ∧ c ∉ s.disconnected then some (crashed c { s with disconnected := c :: s.disconnected }) else none
  | .exit c =>
    if c < s.spawned ∧ c ∉ s.exited then some (crashed c { s with exited := c :: s.exited, child := none }) else none
  | .spawn => if s.spawned ≤ s.restarts.length then some (start s) else none
  | .assign user =>
    let obj : EngineProxy := ⟨s.nextId, user, s.starting⟩
    some { s with engines := Function.update s.engines user (some obj), nextId := s.nextId + 1
                  waiting := obj :: s.waiting }
  | .attach obj =>
    if obj ∈ s.waiting ∧ ∀ c ∈ obj.waits, c ∈ s.ready then
      some { s with waiting := s.waiting.erase obj, calling := obj :: s.calling, listeners := s.listeners ++ [obj] }
    else none
  | .runEngine obj =>
    if obj ∈ s.calling then
      match s.rpcSocket with
      | none => some { s with calling := s.calling.erase obj }
      | some c => some { s with calling := s.calling.erase obj, ran := (obj, c) :: s.ran }
    else none
  | .killEngine user => some { s with killing := user :: s.killing }
  | .engineRemoved user =>
    if user ∈ s.killing then
      let s := { s with killing := s.killing.erase user }
      some ((s.listeners.filter (·.user = user)).foldl (die true) s)
    else none
  | .kill => some (kill s)
  | .stop => some (kill { s with stopped := true })

def sys : System St Ev where
  init s := s = init
  step := step

/-! ## What emitting does -/

theorem foldl_die_proc (manual : Bool) (l : List EngineProxy) (s : St) :
    (l.foldl (die manual) s).toProc = s.toProc ∧ (l.foldl (die manual) s).stopped = s.stopped ∧
      (l.foldl (die manual) s).calling = s.calling ∧ (l.foldl (die manual) s).ran = s.ran := by
  induction l generalizing s with
  | nil => exact ⟨rfl, rfl, rfl, rfl⟩
  | cons obj l ih => exact ih (die manual s obj)

theorem mem_foldl_died (manual : Bool) (l : List EngineProxy) (s : St) (obj : EngineProxy) :
    obj ∈ (l.foldl (die manual) s).died ↔ obj ∈ s.died ∨ obj ∈ l := by
  induction l generalizing s with
  | nil => simp
  | cons o l ih => rw [List.foldl_cons, ih]; simp only [die, List.mem_cons]; tauto

theorem mem_foldl_listeners (manual : Bool) (l : List EngineProxy) (s : St) (obj : EngineProxy) :
    obj ∈ (l.foldl (die manual) s).listeners ↔ obj ∈ s.listeners ∧ obj ∉ l := by
  induction l generalizing s with
  | nil => simp
  | cons o l ih =>
    rw [List.foldl_cons, ih]
    simp only [die, List.mem_filter, List.mem_cons, decide_eq_true_eq, not_or, ne_eq, and_assoc]

theorem onExit_manager (cause : Cause) (s : St) :
    (onExit cause s).stopped = s.stopped ∧ (onExit cause s).calling = s.calling ∧ (onExit cause s).ran = s.ran ∧
      (onExit cause s).listeners = s.listeners ∧ (onExit cause s).died = s.died := by
  unfold onExit
  split <;> exact ⟨rfl, rfl, rfl, rfl, rfl⟩

variable (cause : Cause) (manual : Bool) (s : St)

theorem emit_proc : (emit cause manual s).toProc = (onExit cause { s with emitted := s.emitted ++ [cause] }).toProc :=
  (foldl_die_proc manual _ _).1

theorem emit_manager : (emit cause manual s).stopped = s.stopped ∧ (emit cause manual s).calling = s.calling ∧
    (emit cause manual s).ran = s.ran := by
  obtain ⟨-, h1, h2, h3⟩ := foldl_die_proc manual (onExit cause { s with emitted := s.emitted ++ [cause] }).listeners
    (onExit cause { s with emitted := s.emitted ++ [cause] })
  obtain ⟨g1, g2, g3, -, -⟩ := onExit_manager cause { s with emitted := s.emitted ++ [cause] }
  exact ⟨h1.trans g1, h2.trans g2, h3.trans g3⟩

/-- Every die handler registered when the object emits is called. -/
theorem mem_emit_died (obj : EngineProxy) :
    obj ∈ (emit cause manual s).died ↔ obj ∈ s.listeners ∨ obj ∈ s.died := by
  obtain ⟨-, -, -, g4, g5⟩ := onExit_manager cause { s with emitted := s.emitted ++ [cause] }
  unfold emit
  rw [mem_foldl_died, g4, g5]
  exact or_comm

/-! ## The invariant -/

/-- What a crash of child `c` owes: one event, one restart, and the die handler of every
    engine that ran in it. -/
def Supervised (s : St) (c : Nat) : Prop :=
  s.emitted.count (.crash c) = 1 ∧ s.restarts.count (.crash c) = 1 ∧ ∀ obj, (obj, c) ∈ s.ran → obj ∈ s.died

/-- Nothing was emitted yet. -/
def Fresh (s : St) : Prop := s.stopped = false ∧ s.spawned = 1 ∧ s.restarts = [] ∧ s.emitted = []

/-- What holds also between a child's event and the handling of it. -/
structure Core (s : St) : Prop where
  spawned : 0 < s.spawned
  attached : ∀ obj, (obj ∈ s.calling ∨ ∃ c, (obj, c) ∈ s.ran) → obj ∈ s.listeners ∨ obj ∈ s.died
  fresh : s.hadExit = false → Fresh s
  first : s.hadExit = true → 0 ∉ s.killed → Supervised s 0 ∧ s.rpcSocket ≠ some 0
  later : ∀ c, 0 < c → Cause.crash c ∉ s.emitted

structure Inv (s : St) : Prop extends Core s where
  quiet : s.hadExit = false → s.child = some 0 ∧ s.killed = [] ∧ s.disconnected = [] ∧ s.exited = []

variable {cause manual s}

theorem init_inv : Inv init := by
  refine ⟨⟨Nat.one_pos, ?_, fun _ => ⟨rfl, rfl, rfl, rfl⟩, nofun, nofun⟩, fun _ => ⟨rfl, rfl, rfl, rfl⟩⟩
  rintro obj (h | ⟨c, h⟩) <;> cases h

theorem onExit_proc (cause : Cause) (s : St) :
    (onExit cause s).spawned = s.spawned ∧ (onExit cause s).hadExit = s.hadExit ∧
    (onExit cause s).killed = s.killed ∧ (onExit cause s).emitted = s.emitted := by
  unfold onExit
  split <;> exact ⟨rfl, rfl, rfl, rfl⟩

theorem emit_kept (cause : Cause) (manual : Bool) (s : St) :
    (emit cause manual s).spawned = s.spawned ∧ (emit cause manual s).hadExit = s.hadExit ∧
    (emit cause manual s).killed = s.killed ∧ (emit cause manual s).emitted = s.emitted ++ [cause] := by
  have hp := emit_proc cause manual s
  obtain ⟨h1, h2, h3, h4⟩ := onExit_proc cause { s with emitted := s.emitted ++ [cause] }
  exact ⟨(congrArg Proc.spawned hp).trans h1, (congrArg Proc.hadExit hp).trans h2, (congrArg Proc.killed hp).trans h3,
    (congrArg Proc.emitted hp).trans h4⟩

/-- Emitting once `_hadExit` is set keeps the invariant, if it leaves the first child's crash supervised. -/
theorem emit_inv (hsp : 0 < s.spawned) (hx : s.hadExit = true)
    (hatt : ∀ obj, (obj ∈ s.calling ∨ ∃ c, (obj, c) ∈ s.ran) → obj ∈ s.listeners ∨ obj ∈ s.died)
    (hlater : ∀ c, 0 < c → Cause.crash c ∉ s.emitted ++ [cause])
    (hfirst : 0 ∉ s.killed → Supervised (emit cause manual s) 0 ∧ (emit cause manual s).rpcSocket ≠ some 0) :
    Inv (emit cause manual s) := by
  obtain ⟨k1, k2, k3, k4⟩ := emit_kept cause manual s
  obtain ⟨-, e2, e3⟩ := emit_manager cause manual s
  rw [hx] at k2
  refine ⟨⟨k1 ▸ hsp, fun obj ho => ?_, fun h => ?_, fun _ hk => hfirst (k3 ▸ hk), fun c hc => k4 ▸ hlater c hc⟩,
    fun h => ?_⟩
  · rw [e2, e3] at ho
    exact Or.inr ((mem_emit_died cause manual s obj).mpr (hatt obj ho))
  · rw [k2] at h; cases h
  · rw [k2] at h; cases h

/-- A crash event. Only the first of all finds `_hadExit` false, and then the object
    restarts and calls every handler there is. -/
theorem crashed_inv {c : Nat} (h : Core s) (hc : c < s.spawned) : Inv (crashed c s) := by
  unfold crashed
  cases hx : s.hadExit with
  | true =>
    rw [if_pos rfl]
    exact ⟨h, fun he => by rw [hx] at he; cases he⟩
  | false =>
    obtain ⟨hrun, hsp, hr, he⟩ := h.fresh hx
    obtain rfl : c = 0 := by omega
    rw [if_neg Bool.false_ne_true]
    have hp : (emit (.crash 0) false { s with hadExit := true }).toProc =
        (restart (.crash 0) { s with hadExit := true, emitted := s.emitted ++ [.crash 0] }).toProc := by
      rw [emit_proc, onExit, if_neg (by simp [hrun])]
    refine emit_inv h.spawned rfl h.attached (fun c hc => ?_) fun _ => ⟨⟨?_, ?_, fun obj ho => ?_⟩, ?_⟩
    · simp only [he, List.nil_append, List.mem_singleton, Cause.crash.injEq]; omega
    · rw [show (emit _ _ _).emitted = _ from congrArg Proc.emitted hp]
      simp [restart, he]
    · rw [show (emit _ _ _).restarts = _ from congrArg Proc.restarts hp]
      simp [restart, hr]
    · rw [(emit_manager _ _ _).2.2] at ho
      exact (mem_emit_died _ _ _ _).mpr (h.attached obj (Or.inr ⟨_, ho⟩))
    · rw [show (emit _ _ _).rpcSocket = _ from congrArg Proc.rpcSocket hp]
      exact nofun

theorem emit_supervised {c : Nat} (hc : cause ≠ .crash c) (h : Supervised s c) : Supervised (emit cause manual s) c := by
  obtain ⟨-, -, -, k4⟩ := emit_kept cause manual s
  have hr : (emit cause manual s).restarts = s.restarts ∨ (emit cause manual s).restarts = s.restarts ++ [cause] := by
    rw [show (emit _ _ _).restarts = _ from congrArg Proc.restarts (emit_proc cause manual s), onExit]
    split
    · exact Or.inl rfl
    · exact Or.inr rfl
  refine ⟨?_, ?_, fun obj ho => ?_⟩
  · rw [k4, List.count_append, List.count_singleton, if_neg (by simpa using hc)]; exact h.1
  · rcases hr with hr | hr
    · rw [hr]; exact h.2.1
    · rw [hr, List.count_append, List.count_singleton, if_neg (by simpa using hc)]; exact h.2.1
  · rw [(emit_manager _ _ _).2.2] at ho
    exact (mem_emit_died _ _ _ _).mpr (Or.inr (h.2.2 obj ho))

theorem emit_rpcSocket {c : Nat} (h : s.rpcSocket ≠ some c) : (emit cause manual s).rpcSocket ≠ some c := by
  rw [show (emit _ _ _).rpcSocket = _ from congrArg Proc.rpcSocket (emit_proc cause manual s), onExit]
  split
  · exact h
  · exact nofun

theorem kill_inv (h : Inv s) (b : Bool) : Inv (kill { s with stopped := b }) := by
  unfold kill
  cases hc : s.child with
  | none =>
    have hx : s.hadExit = true := by
      by_contra hx
      have := (h.quiet (by simpa using hx)).1
      rw [hc] at this; cases this
    exact ⟨⟨h.spawned, h.attached, fun he => (by rw [hx] at he; cases he), h.first, h.later⟩,
      fun he => (by rw [hx] at he; cases he)⟩
  | some c =>
    refine emit_inv h.spawned rfl h.attached (fun c hc he => ?_) fun hk => ?_
    · rcases List.mem_append.mp he with he | he
      · exact h.later c hc he
      · cases List.mem_singleton.mp he
    · have hx : s.hadExit = true := by
        by_contra hx
        have := (h.quiet (by simpa using hx)).1
        rw [hc] at this; cases this
        exact hk (List.mem_cons_self ..)
      obtain ⟨h1, h2⟩ := h.first hx fun hm => hk (List.mem_cons_of_mem _ hm)
      exact ⟨emit_supervised nofun h1, emit_rpcSocket h2⟩

theorem Inv.hadExit (h : Inv s) (hne : s.child ≠ some 0 ∨ s.restarts ≠ []) : s.hadExit = true := by
  by_contra hx
  have hx : s.hadExit = false := by simpa using hx
  rcases hne with hne | hne
  · exact hne (h.quiet hx).1
  · exact hne (h.fresh hx).2.2.1

/-- The manager's own steps leave the object alone. -/
theorem Inv.of_proc {t : St} (h : Inv s) (hp : t.toProc = s.toProc) (hst : t.stopped = s.stopped)
    (hra : t.ran = s.ran) (hdi : ∀ obj ∈ s.died, obj ∈ t.died)
    (hatt : ∀ obj, (obj ∈ t.calling ∨ ∃ c, (obj, c) ∈ t.ran) → obj ∈ t.listeners ∨ obj ∈ t.died) : Inv t := by
  obtain ⟨p, stopped, engines, nextId, waiting, calling, listeners, killing, died, ran, userRestarts⟩ := t
  subst hp hst hra
  exact ⟨⟨h.spawned, hatt, h.fresh, fun hx hk => ⟨⟨(h.first hx hk).1.1, (h.first hx hk).1.2.1,
    fun obj ho => hdi obj ((h.first hx hk).1.2.2 obj ho)⟩, (h.first hx hk).2⟩, h.later⟩, h.quiet⟩

theorem step_inv {e : Ev} {s' : St} (h : Inv s) (hs : step s e = some s') : Inv s' := by
  cases e with
  | ready c =>
    simp only [step] at hs
    split at hs <;> cases hs
    exact ⟨⟨h.spawned, h.attached, h.fresh, h.first, h.later⟩, h.quiet⟩
  | disconnect c =>
    simp only [step] at hs
    split at hs <;> cases hs
    rename_i hc
    exact crashed_inv (s := { s with disconnected := c :: s.disconnected })
      ⟨h.spawned, h.attached, h.fresh, h.first, h.later⟩ hc.1
  | exit c =>
    simp only [step] at hs
    split at hs <;> cases hs
    rename_i hc
    exact crashed_inv (s := { s with exited := c :: s.exited, child := none })
      ⟨h.spawned, h.attached, h.fresh, h.first, h.later⟩ hc.1
  | spawn =>
    simp only [step] at hs
    split at hs <;> cases hs
    rename_i hle
    have hx : s.hadExit = true := h.hadExit (Or.inr fun hr => by have := h.spawned; simp [hr] at hle; omega)
    refine ⟨⟨Nat.succ_pos _, h.attached, fun he => ?_, fun _ hk => ⟨(h.first hx hk).1, fun he => ?_⟩, h.later⟩,
      fun he => ?_⟩
    · exact absurd (hx.symm.trans he) (by decide)
    · have := h.spawned
      have := Option.some.inj he
      omega
    · exact absurd (hx.symm.trans he) (by decide)
  | assign user =>
    cases hs
    exact ⟨⟨h.spawned, h.attached, h.fresh, h.first, h.later⟩, h.quiet⟩
  | attach obj =>
    simp only [step] at hs
    split at hs <;> cases hs
    refine h.of_proc rfl rfl rfl (fun _ => id) ?_
    rintro o (ho | ho)
    · rcases List.mem_cons.mp ho with rfl | ho
      · exact Or.inl (List.mem_append_right _ (List.mem_singleton_self _))
      · exact (h.attached o (Or.inl ho)).imp (List.mem_append_left _) id
    · exact (h.attached o (Or.inr ho)).imp (List.mem_append_left _) id
  | runEngine obj =>
    simp only [step] at hs
    split at hs
    · rename_i hm
      split at hs <;> cases hs
      · exact h.of_proc rfl rfl rfl (fun _ => id) fun o ho => h.attached o (ho.imp List.mem_of_mem_erase id)
      · rename_i c hc
        refine ⟨⟨h.spawned, ?_, h.fresh, fun hx hk => ?_, h.later⟩, h.quiet⟩
        · rintro o (ho | ⟨c', ho⟩)
          · exact h.attached o (Or.inl (List.mem_of_mem_erase ho))
          · rcases List.mem_cons.mp ho with ho | ho
            · cases ho; exact h.attached _ (Or.inl hm)
            · exact h.attached o (Or.inr ⟨c', ho⟩)
        · obtain ⟨⟨h1, h2, h3⟩, h4⟩ := h.first hx hk
          refine ⟨⟨h1, h2, fun o ho => ?_⟩, h4⟩
          rcases List.mem_cons.mp ho with ho | ho
          · cases ho; exact absurd hc h4
          · exact h3 o ho
    · cases hs
  | killEngine user =>
    cases hs
    exact ⟨⟨h.spawned, h.attached, h.fresh, h.first, h.later⟩, h.quiet⟩
  | engineRemoved user =>
    simp only [step] at hs
    split at hs <;> cases hs
    obtain ⟨h1, h2, h3, h4⟩ := foldl_die_proc true (s.listeners.filter (·.user = user))
      { s with killing := s.killing.erase user }
    refine h.of_proc h1 h2 h4 (fun obj ho => (mem_foldl_died _ _ _ _).mpr (Or.inl ho)) fun obj ho => ?_
    rw [h3, h4] at ho
    rw [mem_foldl_died, mem_foldl_listeners]
    have := h.attached obj ho
    tauto
  | kill => cases hs; exact kill_inv h s.stopped
  | stop => cases hs; exact kill_inv h true

theorem inv (h : Reach sys any s) : Inv s := by
  refine h.inv (P := Inv) ?_ fun _ _ _ hi _ hs => step_inv hi hs
  rintro _ rfl
  exact init_inv

/-! ## Crashes -/

/-- Child `c` has crashed: both its events were delivered, and nobody had killed it. -/
def Crashed (s : St) (c : Nat) : Prop := c ∈ s.disconnected ∧ c ∈ s.exited ∧ c ∉ s.killed

/-- In every run, a crash gets its event, its restart and its die handlers exactly if the
    child was the first that the object spawned. -/
theorem supervised_iff_first_child {c : Nat} (h : Reach sys any s) (hc : Crashed s c) :
    Supervised s c ↔ c = 0 := by
  have hi := inv h
  constructor
  · rintro ⟨h1, -, -⟩
    by_contra hne
    have := List.count_eq_zero.mpr (hi.later c (by omega))
    omega
  · rintro rfl
    have hx : s.hadExit = true := by
      by_contra hx
      have hd := hc.1
      rw [(hi.quiet (by simpa using hx)).2.2.1] at hd
      cases hd
    exact (hi.first hx hc.2.2).1

/-- The first child is ready, runs an engine, and crashes. -/
def firstCrash : List Ev :=
  [.ready 0, .assign 7, .attach ⟨0, 7, none⟩, .runEngine ⟨0, 7, none⟩, .disconnect 0, .exit 0]

/-- The restarted child is ready, runs the engine of the restarted user, and crashes. -/
def secondCrash : List Ev :=
  [.spawn, .ready 1, .assign 7, .attach ⟨1, 7, none⟩, .runEngine ⟨1, 7, none⟩, .disconnect 1, .exit 1]

theorem reach_run (es : List Ev) (h : run sys init es = some s) : Reach sys any s :=
  (Reach.init rfl).path (run_path h)

theorem first_crash_is_supervised : ∃ s, run sys init firstCrash = some s ∧ (⟨0, 7, none⟩, 0) ∈ s.ran ∧ Supervised s 0 :=
  ⟨_, rfl, by decide, (supervised_iff_first_child (reach_run firstCrash rfl)
    ⟨by decide, by decide, by decide⟩).mpr rfl⟩

/-- The second crash emits nothing: no restart, and the engine's user is never told. -/
theorem second_crash_is_silent : ∃ s, run sys init (firstCrash ++ secondCrash) = some s ∧ Crashed s 1 ∧
    s.stopped = false ∧ s.emitted = [.crash 0] ∧ s.restarts = [.crash 0] ∧ (⟨1, 7, none⟩, 1) ∈ s.ran ∧
    ⟨1, 7, none⟩ ∉ s.died ∧ ¬ Supervised s 1 :=
  ⟨_, rfl, ⟨by decide, by decide, by decide⟩, rfl, rfl, rfl, by decide, by decide, fun h => absurd h.1 (by decide)⟩

end GenieCloud.Almond.EngineProcess
