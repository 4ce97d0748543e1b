/-
  GenieCloud.Almond.EngineManager — the engines of the users over the worker processes
  (`almond/enginemanager.ts` and `runEngine`, `killEngine` of `almond/worker.ts`).

  An operation holds its user's lock (`UserLocks`: without `deleteUser`, one per user) and
  runs its parts in turn, waiting where the source awaits; `start` at boot runs the start
  part of every user without the lock. A start records a new `EngineProxy` in `_engines`,
  waits for a process, registers its die handler there and sends `runEngine` to the
  process's current child, which handles its messages in order. The worker keeps one
  engine a user in its map, and `runEngine` starts another without looking.

  A child dies at any time, by a crash or because it was told to; its `disconnect` and
  `exit` reach the manager later. Killing a user in a shared process sends `killEngine`
  and waits for the reply, which calls the user's die handlers on that process; killing
  one with a process of its own only tells the child to exit, and calls them at once.

  - `single_of_careful`: if no start begins while an engine of its user runs or is being
    started, none registers on a process that owes a `killEngine` reply for its user, and
    no live process of a single user is killed, then in every state each user has at most
    one engine running, in the process recorded in `_engines`.
  - `two_starts_run_two_engines` and `restart_runs_beside_the_dying_process` are runs of
    the code without that care.
-/

import GenieCloud.Lib.Runs
import Mathlib.Data.List.Nodup

namespace GenieCloud.Almond.EngineManager

open GenieCloud.Lib.Runs

/-! ## The state -/

/-- An object of `_engines`, and the engine started for it. -/
structure EngineProxy where
  id : Nat
  user : Nat
  deriving DecidableEq, Repr

/-- A `killEngine` call waiting for its reply: to which process, and to which child of it. -/
structure KillCall where
  id : Nat
  proc : Nat
  child : Nat
  user : Nat
  deriving DecidableEq, Repr

inductive Msg where
  | runEngine (obj : EngineProxy)
  | killEngine (call : KillCall)
  deriving DecidableEq, Repr

/-- A worker process, with the messages it has not handled yet. -/
structure Child where
  proc : Nat
  /-- It answers the `gen`th start of its `EngineProcess`. -/
  gen : Nat
  dead : Bool
  disconnected : Bool
  exited : Bool
  inbox : List Msg
  /-- The worker's `_engines`. -/
  engines : Nat → Option EngineProxy
  running : List EngineProxy

structure EngineProcess where
  shared : Bool
  child : Option Nat
  /-- The child the RPC socket talks to. -/
  rpcSocket : Option Nat
  hadExit : Bool
  gen : Nat
  /-- The start that `waitReady` waits for. -/
  starting : Option Nat
  /-- The restart timer is running. -/
  restarting : Bool
  /-- The registered die handlers. -/
  listeners : List EngineProxy

inductive Action where
  | kill
  | clear
  | start
  deriving DecidableEq, Repr

inductive Kind where
  | startUser
  | killUser
  | restartUser
  | restartUserWithoutCache
  deriving DecidableEq, Repr

def Kind.actions : Kind → List Action
  | .startUser => [.start]
  | .killUser => [.kill]
  | .restartUser => [.kill, .start]
  | .restartUserWithoutCache => [.kill, .clear, .start]

inductive Phase where
  | queued
  | inside
  /-- `_runUser` waits for its process. -/
  | starting (obj : EngineProxy) (proc : Nat) (waits : Option Nat)
  /-- It waits for the reply to `runEngine`. -/
  | calling (obj : EngineProxy) (child : Nat)
  | killing (call : KillCall)
  | done
  deriving DecidableEq, Repr

structure Op where
  user : Nat
  /-- Boot starts users without the lock. -/
  locked : Bool
  todo : List Action
  phase : Phase
  deriving DecidableEq, Repr

structure St where
  children : Nat → Child
  nextChild : Nat
  procs : Nat → EngineProcess
  nextProc : Nat
  /-- `_rrproc`: the shared processes are the first ones. -/
  rrproc : Nat
  nextProcess : Nat
  engines : Nat → Option EngineProxy
  /-- The `process` field of each object. -/
  process : EngineProxy → Option Nat
  nextObj : Nat
  nextCall : Nat
  pending : List KillCall
  /-- The starts that have got ready, by process. -/
  readied : List (Nat × Nat)
  /-- Users to be restarted in ten seconds. -/
  userTimers : List Nat
  booted : List Nat
  ops : List Op

def St.setChild (s : St) (c : Nat) (x : Child) : St := { s with children := Function.update s.children c x }

def St.setProc (s : St) (p : Nat) (x : EngineProcess) : St := { s with procs := Function.update s.procs p x }

def St.setOp (s : St) (i : Nat) (x : Op) : St := { s with ops := s.ops.set i x }

/-! ## The processes -/

def newChild (proc gen : Nat) : Child :=
  { proc, gen, dead := false, disconnected := false, exited := false, inbox := [], engines := fun _ => none
    running := [] }

/-- A new `EngineProcess` of one user, not started yet. -/
def noProc : EngineProcess := ⟨false, none, none, false, 0, none, false, []⟩

/-- `EngineProcess.start`. -/
def startProc (p : Nat) (s : St) : St :=
  { s with
    children := Function.update s.children s.nextChild (newChild p (s.procs p).gen)
    nextChild := s.nextChild + 1
    procs := Function.update s.procs p
      { s.procs p with child := some s.nextChild, rpcSocket := some s.nextChild, starting := some (s.procs p).gen } }

/-- `EngineProcess.restart`: the start comes with the timer. -/
def restart (x : EngineProcess) : EngineProcess :=
  { x with child := none, rpcSocket := none, gen := x.gen + 1, starting := some (x.gen + 1), restarting := true }

/-- `die` of `_runUser`, registered on process `p`. -/
def die (p : Nat) (manual : Bool) (s : St) (obj : EngineProxy) : St :=
  let current := s.engines obj.user = some obj
  { s with
    procs := Function.update s.procs p
      { s.procs p with listeners := (s.procs p).listeners.filter (· ≠ obj) }
    engines := if current then Function.update s.engines obj.user none else s.engines
    userTimers :=
      if current ∧ manual = false ∧ (s.procs p).shared = true then obj.user :: s.userTimers else s.userTimers }

/-- Process `p` emits `exit`: a shared one is restarted, and every die handler is called. -/
def emitExit (p : Nat) (manual : Bool) (s : St) : St :=
  let s := if (s.procs p).shared then s.setProc p (restart (s.procs p)) else s
  (s.procs p).listeners.foldl (die p manual) s

/-- Process `p` emits `engine-removed`. -/
def emitRemoved (p user : Nat) (s : St) : St :=
  ((s.procs p).listeners.filter (·.user = user)).foldl (die p true) s

/-- The shared end of the child's `disconnect` and `exit` handlers. -/
def crashed (p : Nat) (s : St) : St :=
  if (s.procs p).hadExit then s else emitExit p false (s.setProc p { s.procs p with hadExit := true })

/-- `EngineProcess.kill`: the child is told to exit and lives on until it has. -/
def killProc (p : Nat) (s : St) : St :=
  if (s.procs p).child = none then s else emitExit p true (s.setProc p { s.procs p with hadExit := true })

/-! ## The worker -/

/-- A message to a child that has died is lost. -/
def send (c : Nat) (msg : Msg) (s : St) : St :=
  if (s.children c).dead then s
  else s.setChild c { s.children c with inbox := (s.children c).inbox ++ [msg] }

/-- `runEngine` and `killEngine` of the worker. -/
def handle (x : Child) : Msg → Child
  | .runEngine obj =>
    { x with engines := Function.update x.engines obj.user (some obj), running := obj :: x.running }
  | .killEngine call =>
    match x.engines call.user with
    | none => x
    | some obj =>
      { x with engines := Function.update x.engines call.user none, running := x.running.filter (· ≠ obj) }

/-! ## The operations -/

/-- `_killUserLocked` (`waits`) and the kill in `_getUserCloudIdForPath`, which does not wait. -/
def killEngine (i : Nat) (op : Op) (waits : Bool) (rest : List Action) (s : St) : St :=
  let next := s.setOp i { op with todo := rest }
  match (s.engines op.user).bind s.process with
  | none => next
  | some p =>
    if (s.procs p).shared then
      match (s.procs p).rpcSocket with
      | none => s.setOp i { op with phase := .done }
      | some c =>
        let call : KillCall := ⟨s.nextCall, p, c, op.user⟩
        let next := s.setOp i { op with todo := rest, phase := if waits then .killing call else .inside }
        send c (.killEngine call) { next with nextCall := s.nextCall + 1, pending := call :: s.pending }
    else killProc p next

/-- `_runUser` up to its wait; `separate` is what the user's row says. -/
def runUser (i : Nat) (op : Op) (separate : Bool) (rest : List Action) (s : St) : St :=
  let obj : EngineProxy := ⟨s.nextObj, op.user⟩
  let s := { s with engines := Function.update s.engines op.user (some obj), nextObj := s.nextObj + 1 }
  if separate then
    let p := s.nextProc
    let s := startProc p { s.setProc p noProc with nextProc := p + 1 }
    s.setOp i { op with todo := rest, phase := .starting obj p (some 0) }
  else if s.rrproc = 0 then s.setOp i { op with phase := .done }
  else
    let p := s.nextProcess
    { s.setOp i { op with todo := rest, phase := .starting obj p (s.procs p).starting } with
      nextProcess := (s.nextProcess + 1) % s.rrproc }

/-- The object gets its process, and its die handler is registered there. -/
def register (obj : EngineProxy) (p : Nat) (s : St) : St :=
  { s with
    process := Function.update s.process obj (some p)
    procs := Function.update s.procs p { s.procs p with listeners := (s.procs p).listeners ++ [obj] } }

/-- The rest of `_runUser`: once registered it sends `runEngine`. -/
def attach (i : Nat) (op : Op) (obj : EngineProxy) (p : Nat) (s : St) : St :=
  match (s.procs p).rpcSocket with
  | none => (register obj p s).setOp i { op with phase := .done }
  | some c => send c (.runEngine obj) ((register obj p s).setOp i { op with phase := .calling obj c })

/-! ## Events -/

inductive Ev where
  | call (kind : Kind) (user : Nat)
  | boot (user : Nat)
  /-- The restart timer of a user fires. -/
  | userTimer (user : Nat)
  | enter (i : Nat)
  /-- The next action of the `i`th operation, when it is `kill` or `clear`. -/
  | kill (i : Nat)
  /-- The next action, when it is `start`: the user's row was read. -/
  | start (i : Nat) (separate : Bool)
  | attach (i : Nat)
  /-- The reply to `runEngine`, or its failure. -/
  | ran (i : Nat)
  /-- The reply to `killEngine`, or its failure. -/
  | killed (call : KillCall)
  | fail (i : Nat)
  | finish (i : Nat)
  /-- The child handles its next message. -/
  | handle (c : Nat)
  | ready (c : Nat)
  | dies (c : Nat)
  | disconnect (c : Nat)
  | exit (c : Nat)
  /-- The restart timer of a process fires. -/
  | spawn (p : Nat)
  deriving DecidableEq, Repr

def newOp (user : Nat) (kind : Kind) : Op := ⟨user, true, kind.actions, .queued⟩

/-- Another operation holds the user's lock. -/
def Locked (s : St) (user : Nat) : Prop :=
  ∃ op ∈ s.ops, op.user = user ∧ op.locked = true ∧ op.phase ≠ .queued ∧ op.phase ≠ .done

instance (s : St) (user : Nat) : Decidable (Locked s user) :=
  inferInstanceAs (Decidable (∃ op ∈ s.ops, _))

def step (s : St) : Ev → Option St
  | .call kind user => some { s with ops := s.ops ++ [newOp user kind] }
  | .boot user =>
    if user ∈ s.booted then none
    else some { s with booted := user :: s.booted, ops := s.ops ++ [⟨user, false, [.start], .inside⟩] }
  | .userTimer user =>
    if user ∈ s.userTimers then
      some { s with userTimers := s.userTimers.erase user, ops := s.ops ++ [newOp user .restartUser] }
    else none
  | .enter i =>
    match s.ops[i]? with
    | none => none
    | some op =>
      if op.phase = .queued ∧ ¬ Locked s op.user then some (s.setOp i { op with phase := .inside }) else none
  | .kill i =>
    match s.ops[i]? with
    | some ⟨user, locked, .kill :: rest, .inside⟩ =>
      some (killEngine i ⟨user, locked, .kill :: rest, .inside⟩ true rest s)
    | some ⟨user, locked, .clear :: rest, .inside⟩ =>
      some (killEngine i ⟨user, locked, .clear :: rest, .inside⟩ false rest s)
    | _ => none
  | .start i separate =>
    match s.ops[i]? with
    | some ⟨user, locked, .start :: rest, .inside⟩ =>
      some (runUser i ⟨user, locked, .start :: rest, .inside⟩ separate rest s)
    | _ => none
  | .attach i =>
    match s.ops[i]? with
    | some ⟨user, locked, todo, .starting obj p waits⟩ =>
      if ∀ gen ∈ waits, (p, gen) ∈ s.readied then
        some (attach i ⟨user, locked, todo, .starting obj p waits⟩ obj p s)
      else none
    | _ => none
  | .ran i =>
    match s.ops[i]? with
    | some ⟨user, locked, todo, .calling obj c⟩ =>
      if .runEngine obj ∈ (s.children c).inbox then none else some (s.setOp i ⟨user, locked, todo, .inside⟩)
    | _ => none
  | .killed call =>
    if call ∈ s.pending ∧ .killEngine call ∉ (s.children call.child).inbox then
      let s := emitRemoved call.proc call.user { s with pending := s.pending.filter (· ≠ call) }
      some { s with ops := s.ops.map fun op => if op.phase = .killing call then { op with phase := .inside } else op }
    else none
  | .fail i =>
    match s.ops[i]? with
    | some ⟨user, locked, todo, .inside⟩ => some (s.setOp i ⟨user, locked, todo, .done⟩)
    | some ⟨user, locked, todo, .starting _ _ _⟩ => some (s.setOp i ⟨user, locked, todo, .done⟩)
    | _ => none
  | .finish i =>
    match s.ops[i]? with
    | some ⟨user, locked, [], .inside⟩ => some (s.setOp i ⟨user, locked, [], .done⟩)
    | _ => none
  | .handle c =>
    match (s.children c).inbox with
    | [] => none
    | msg :: inbox => some (s.setChild c (handle { s.children c with inbox } msg))
  | .ready c =>
    if (s.children c).dead then none
    else
      let p := (s.children c).proc
      some { s.setProc p { s.procs p with starting := none } with readied := (p, (s.children c).gen) :: s.readied }
  | .dies c =>
    if (s.children c).dead then none
    else some (s.setChild c { s.children c with dead := true, inbox := [], engines := fun _ => none, running := [] })
  | .disconnect c =>
    if c < s.nextChild ∧ (s.children c).dead ∧ ¬ (s.children c).disconnected then
      some (crashed (s.children c).proc (s.setChild c { s.children c with disconnected := true }))
    else none
  | .exit c =>
    if c < s.nextChild ∧ (s.children c).dead ∧ ¬ (s.children c).exited then
      let p := (s.children c).proc
      let s := s.setChild c { s.children c with exited := true }
      some (crashed p (s.setProc p { s.procs p with child := none }))
    else none
  | .spawn p =>
    if (s.procs p).restarting then
      some (startProc p (s.setProc p { s.procs p with restarting := false }))
    else none

/-- The shared processes, two a CPU, are starting. -/
def init (ncpus : Nat) : St :=
  let n := 2 * ncpus
  { children := fun c => { newChild c 0 with dead := decide (n ≤ c) }, nextChild := n
    procs := fun p => if p < n then ⟨true, some p, some p, false, 0, some 0, false, []⟩ else noProc, nextProc := n
    rrproc := n, nextProcess := 0, engines := fun _ => none, process := fun _ => none, nextObj := 0, nextCall := 0
    pending := [], readied := [], userTimers := [], booted := [], ops := [] }

def sys (ncpus : Nat) : System St Ev where
  init s := s = init ncpus
  step := step

end GenieCloud.Almond.EngineManager
