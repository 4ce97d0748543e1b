/-
  GenieCloud.Almond.Records — what the events of `EngineManager` do to the records of
  `_engines`, the processes they name and the die handlers of the processes.

  `Registry` is that part of the manager's state, with three operations on it: a start
  publishes a record (`publish`); it names its process there and registers its die
  handler (`register`); a process that emits `exit` or `engine-removed` has the handlers
  it tells take their records out (`drop`). `step_change`: every event of the manager is one
  of these on the registry, or leaves it alone.

  From the side of one user: an operation of another user leaves the user's record and
  handlers alone (`Same`), and `drop` takes the record out exactly if its handler was told.
-/

import GenieCloud.Almond.EngineManager

namespace GenieCloud.Almond.Records

open GenieCloud.Almond.EngineManager

/-! ## The registry -/

structure Registry where
  engines : Nat → Option EngineProxy
  process : EngineProxy → Option Nat
  /-- The die handlers, by process. -/
  listeners : Nat → List EngineProxy
  nextObj : Nat
  nextProc : Nat
  rrproc : Nat
  nextProcess : Nat

def view (s : St) : Registry :=
  ⟨s.engines, s.process, fun p => (s.procs p).listeners, s.nextObj, s.nextProc, s.rrproc, s.nextProcess⟩

/-- A record without a process, and the process it waits for: a new one or the next shared one. -/
def publish (user : Nat) (separate : Bool) (r : Registry) : Registry :=
  let r := { r with engines := Function.update r.engines user (some ⟨r.nextObj, user⟩), nextObj := r.nextObj + 1 }
  if separate then { r with listeners := Function.update r.listeners r.nextProc [], nextProc := r.nextProc + 1 }
  else if r.rrproc = 0 then r
  else { r with nextProcess := (r.nextProcess + 1) % r.rrproc }

def register (obj : EngineProxy) (p : Nat) (r : Registry) : Registry :=
  { r with
    process := Function.update r.process obj (some p)
    listeners := Function.update r.listeners p (r.listeners p ++ [obj]) }

/-- The handler is on the process, which emits for everyone or for one user. -/
def Told (r : Registry) (p : Nat) (whom : Option Nat) (obj : EngineProxy) : Prop :=
  obj ∈ r.listeners p ∧ ∀ user ∈ whom, obj.user = user

instance (r : Registry) (p : Nat) (whom : Option Nat) (obj : EngineProxy) : Decidable (Told r p whom obj) :=
  inferInstanceAs (Decidable (_ ∧ _))

def drop (p : Nat) (whom : Option Nat) (r : Registry) : Registry :=
  { r with
    engines := fun user => (r.engines user).filter fun obj => ¬ (obj.user = user ∧ Told r p whom obj)
    listeners := Function.update r.listeners p ((r.listeners p).filter fun obj => ¬ Told r p whom obj) }

/-- The process that emits in an event, and for whom. -/
def emits (s : St) : Ev → Option (Nat × Option Nat)
  | .disconnect c => if (s.procs (s.children c).proc).hadExit then none else some ((s.children c).proc, none)
  | .exit c => if (s.procs (s.children c).proc).hadExit then none else some ((s.children c).proc, none)
  | .killed call => some (call.proc, some call.user)
  | .kill i => do
    let op ← s.ops[i]?
    let p ← (s.engines op.user).bind s.process
    if (s.procs p).shared ∨ (s.procs p).child = none then none else some (p, none)
  | _ => none

variable {s t : St} {r : Registry}

/-! ## The pieces of a step -/

theorem listeners_update (procs : Nat → EngineProcess) (p : Nat) (x : EngineProcess) :
    (fun q => (Function.update procs p x q).listeners) =
      Function.update (fun q => (procs q).listeners) p x.listeners := by
  funext q
  exact Function.apply_update (fun _ x => x.listeners) procs p x q

theorem view_setProc {p : Nat} {x : EngineProcess} (h : x.listeners = (s.procs p).listeners) :
    view (s.setProc p x) = view s := by
  simp only [view, St.setProc, listeners_update, h, Function.update_eq_self]

theorem view_setOp (s : St) (i : Nat) (op : Op) : view (s.setOp i op) = view s := rfl

theorem view_startProc (p : Nat) : view (startProc p s) = view s :=
  view_setProc (s := s) (p := p) (x := { s.procs p with
    child := some s.nextChild
    rpcSocket := some s.nextChild
    starting := some (s.procs p).gen }) rfl

theorem view_send (c : Nat) (msg : Msg) : view (send c msg s) = view s := by
  unfold send
  split <;> rfl

theorem engines_die (p : Nat) (manual : Bool) (s : St) (o : EngineProxy) (user : Nat) :
    (die p manual s o).engines user = (s.engines user).filter fun obj => ¬ (obj.user = user ∧ obj = o) := by
  by_cases hc : s.engines o.user = some o
  · by_cases hu : user = o.user
    · subst hu
      simp [die, hc, Option.filter]
    · cases hs : s.engines user with
      | none => simp [die, hc, Function.update_of_ne hu, hs]
      | some obj =>
        have hne : ¬ (obj.user = user ∧ obj = o) := by
          intro h
          exact hu (h.1.symm.trans (congrArg EngineProxy.user h.2))
        simp [die, hc, Function.update_of_ne hu, hs, Option.filter, hne]
  · have hd : (die p manual s o).engines = s.engines := by simp [die, hc]
    rw [hd]
    cases hs : s.engines user with
    | none => rfl
    | some obj =>
      have hne : ¬ (obj.user = user ∧ obj = o) := by
        intro h
        rw [← h.2, h.1, hs] at hc
        exact hc rfl
      simp [Option.filter, hne]

/-- Calling die handlers takes out the records they are of. -/
theorem engines_foldl_die (p : Nat) (manual : Bool) (l : List EngineProxy) (s : St) (user : Nat) :
    (l.foldl (die p manual) s).engines user = (s.engines user).filter fun obj => ¬ (obj.user = user ∧ obj ∈ l) := by
  induction l generalizing s with
  | nil =>
    rw [List.foldl_nil]
    cases s.engines user with
    | none => rfl
    | some obj => simp [Option.filter]
  | cons o l ih =>
    rw [List.foldl_cons, ih, engines_die]
    cases s.engines user with
    | none => rfl
    | some obj =>
      by_cases hu : obj.user = user
      · by_cases ho : obj = o
        · simp [Option.filter_some, ho ▸ hu, ho]
        · simp [Option.filter_some, hu, ho]
      · simp [Option.filter_some, hu]

theorem listeners_foldl_die (p : Nat) (manual : Bool) (l : List EngineProxy) (s : St) (q : Nat) :
    ((l.foldl (die p manual) s).procs q).listeners =
      if q = p then (s.procs q).listeners.filter (· ∉ l) else (s.procs q).listeners := by
  induction l generalizing s with
  | nil => simp
  | cons o l ih =>
    rw [List.foldl_cons, ih]
    by_cases hq : q = p
    · subst hq
      simp only [die, Function.update_self, if_true, List.filter_filter, List.mem_cons, not_or]
      refine List.filter_congr fun obj _ => ?_
      simp [Bool.and_comm]
    · simp [die, hq]

theorem rest_foldl_die (p : Nat) (manual : Bool) (l : List EngineProxy) (s : St) :
    (l.foldl (die p manual) s).process = s.process ∧ (l.foldl (die p manual) s).nextObj = s.nextObj ∧
      (l.foldl (die p manual) s).nextProc = s.nextProc ∧ (l.foldl (die p manual) s).rrproc = s.rrproc ∧
      (l.foldl (die p manual) s).nextProcess = s.nextProcess ∧ (l.foldl (die p manual) s).ops = s.ops := by
  induction l generalizing s with
  | nil => exact ⟨rfl, rfl, rfl, rfl, rfl, rfl⟩
  | cons o l ih => exact ih (die p manual s o)

/-- The handlers that a process tells are called. -/
theorem view_foldl_die (p : Nat) (manual : Bool) (whom : Option Nat) {l : List EngineProxy}
    (hl : ∀ obj, obj ∈ l ↔ Told (view s) p whom obj) : view (l.foldl (die p manual) s) = drop p whom (view s) := by
  obtain ⟨h1, h2, h3, h4, h5, -⟩ := rest_foldl_die p manual l s
  have he : (l.foldl (die p manual) s).engines = (drop p whom (view s)).engines := by
    funext user
    rw [engines_foldl_die]
    simp only [hl]
    rfl
  have hn : (fun q => ((l.foldl (die p manual) s).procs q).listeners) = (drop p whom (view s)).listeners := by
    funext q
    rw [listeners_foldl_die]
    simp only [hl, drop]
    by_cases hq : q = p
    · rw [if_pos hq, hq, Function.update_self]
      rfl
    · rw [if_neg hq, Function.update_of_ne hq]
      rfl
  simp only [view, he, hn, h1, h2, h3, h4, h5]
  rfl

theorem view_emitExit (p : Nat) (manual : Bool) (s : St) : view (emitExit p manual s) = drop p none (view s) := by
  have told (s : St) (obj : EngineProxy) : obj ∈ (s.procs p).listeners ↔ Told (view s) p none obj := by
    simp [Told, view]
  unfold emitExit
  dsimp only
  split
  · rw [view_foldl_die p manual none (told _), view_setProc (x := restart (s.procs p)) rfl]
  · exact view_foldl_die p manual none (told s)

theorem view_emitRemoved (p user : Nat) (s : St) : view (emitRemoved p user s) = drop p (some user) (view s) := by
  unfold emitRemoved
  exact view_foldl_die p true (some user) fun obj => by simp [Told, view]

theorem view_crashed (p : Nat) (s : St) :
    view (crashed p s) = if (s.procs p).hadExit then view s else drop p none (view s) := by
  unfold crashed
  split
  · rfl
  · rw [view_emitExit, view_setProc (x := { s.procs p with hadExit := true }) rfl]

theorem view_killProc (p : Nat) (s : St) :
    view (killProc p s) = if (s.procs p).child = none then view s else drop p none (view s) := by
  unfold killProc
  split
  · rfl
  · rw [view_emitExit, view_setProc (x := { s.procs p with hadExit := true }) rfl]

theorem view_killEngine (i : Nat) (op : Op) (waits : Bool) (rest : List Action) (s : St) :
    view (killEngine i op waits rest s) = match (s.engines op.user).bind s.process with
      | none => view s
      | some p => if (s.procs p).shared = true ∨ (s.procs p).child = none then view s else drop p none (view s) := by
  unfold killEngine
  dsimp only
  cases (s.engines op.user).bind s.process with
  | none => rfl
  | some p =>
    dsimp only
    cases hs : (s.procs p).shared with
    | true =>
      simp only [if_true, true_or]
      split
      · rfl
      · exact view_send _ _
    | false =>
      simp only [Bool.false_eq_true, if_false, false_or]
      exact view_killProc p _

theorem view_runUser (i : Nat) (op : Op) (separate : Bool) (rest : List Action) (s : St) :
    view (runUser i op separate rest s) = publish op.user separate (view s) := by
  unfold runUser publish
  dsimp only
  cases separate with
  | true =>
    simp only [if_true]
    rw [view_setOp, view_startProc]
    simp only [view, St.setProc, listeners_update]
    rfl
  | false =>
    simp only [Bool.false_eq_true, if_false]
    have hr : (view s).rrproc = s.rrproc := rfl
    rw [hr]
    split <;> rfl

theorem view_register (obj : EngineProxy) (p : Nat) (s : St) :
    view (EngineManager.register obj p s) = register obj p (view s) := by
  simp only [view, EngineManager.register, listeners_update]
  rfl

theorem view_attach (i : Nat) (op : Op) (obj : EngineProxy) (p : Nat) (s : St) :
    view (attach i op obj p s) = register obj p (view s) := by
  unfold attach
  split
  · exact view_register obj p s
  · exact (view_send _ _).trans (view_register obj p s)

/-! ## Steps -/

/-- What an event does to the registry. -/
inductive Change (s t : St) : Ev → Prop
  | quiet (e : Ev) : emits s e = none → view t = view s → Change s t e
  | publish (i : Nat) (op : Op) (separate : Bool) : s.ops[i]? = some op → op.phase = .inside →
      view t = publish op.user separate (view s) → Change s t (.start i separate)
  | register (i : Nat) (op : Op) (obj : EngineProxy) (p : Nat) (waits : Option Nat) : s.ops[i]? = some op →
      op.phase = .starting obj p waits → view t = register obj p (view s) → Change s t (.attach i)
  | drop (e : Ev) (p : Nat) (whom : Option Nat) : emits s e = some (p, whom) → view t = drop p whom (view s) →
      Change s t e

/-- A child's event that tells the process that the child is gone. -/
theorem change_crashed {e : Ev} {c : Nat} {u : St} (hu : view u = view s)
    (hx : (u.procs (s.children c).proc).hadExit = (s.procs (s.children c).proc).hadExit)
    (he : emits s e =
      if (s.procs (s.children c).proc).hadExit then none else some ((s.children c).proc, none)) :
    Change s (crashed (s.children c).proc u) e := by
  have hv := view_crashed (s.children c).proc u
  rw [hx, hu] at hv
  by_cases hx : (s.procs (s.children c).proc).hadExit = true
  · rw [if_pos hx] at hv he
    exact .quiet e he hv
  · rw [if_neg hx] at hv he
    exact .drop e _ _ he hv

theorem change_killEngine {i : Nat} {op : Op} (waits : Bool) (rest : List Action) (ho : s.ops[i]? = some op) :
    Change s (killEngine i op waits rest s) (.kill i) := by
  have hv := view_killEngine i op waits rest s
  have he : emits s (.kill i) = ((s.engines op.user).bind s.process).bind fun p =>
      if (s.procs p).shared ∨ (s.procs p).child = none then none else some (p, none) := by
    simp only [emits, ho]
    rfl
  cases hp : (s.engines op.user).bind s.process with
  | none =>
    rw [hp] at hv he
    exact .quiet _ he hv
  | some p =>
    rw [hp] at hv he
    dsimp only at hv
    rw [Option.bind_some] at he
    by_cases hc : (s.procs p).shared = true ∨ (s.procs p).child = none
    · rw [if_pos hc] at hv he
      exact .quiet _ he hv
    · rw [if_neg hc] at hv he
      exact .drop _ _ _ he hv

theorem step_change {e : Ev} (h : step s e = some t) : Change s t e := by
  cases e with
  | call kind user => cases h; exact .quiet _ rfl rfl
  | boot user =>
    simp only [step] at h
    split at h <;> cases h
    exact .quiet _ rfl rfl
  | userTimer user =>
    simp only [step] at h
    split at h <;> cases h
    exact .quiet _ rfl rfl
  | enter i =>
    simp only [step] at h
    split at h
    · cases h
    · split at h <;> cases h
      exact .quiet _ rfl rfl
  | kill i =>
    simp only [step] at h
    split at h <;> cases h
    · next ho => exact change_killEngine true _ ho
    · next ho => exact change_killEngine false _ ho
  | start i separate =>
    simp only [step] at h
    split at h <;> cases h
    next ho => exact .publish i _ separate ho rfl (view_runUser _ _ _ _ _)
  | attach i =>
    simp only [step] at h
    split at h
    · next ho =>
      split at h <;> cases h
      exact .register i _ _ _ _ ho rfl (view_attach _ _ _ _ _)
    · cases h
  | ran i =>
    simp only [step] at h
    split at h
    · split at h <;> cases h
      exact .quiet _ rfl rfl
    · cases h
  | killed call =>
    simp only [step] at h
    split at h <;> cases h
    exact .drop _ _ _ rfl (view_emitRemoved call.proc call.user { s with pending := s.pending.filter (· ≠ call) })
  | fail i =>
    simp only [step] at h
    split at h <;> cases h
    · exact .quiet _ rfl rfl
    · exact .quiet _ rfl rfl
  | finish i =>
    simp only [step] at h
    split at h <;> cases h
    exact .quiet _ rfl rfl
  | handle c =>
    simp only [step] at h
    split at h <;> cases h
    exact .quiet _ rfl rfl
  | ready c =>
    simp only [step] at h
    split at h <;> cases h
    exact .quiet _ rfl (view_setProc (s := s) (x := { s.procs (s.children c).proc with starting := none }) rfl)
  | dies c =>
    simp only [step] at h
    split at h <;> cases h
    exact .quiet _ rfl rfl
  | disconnect c =>
    simp only [step] at h
    split at h <;> cases h
    exact change_crashed rfl rfl rfl
  | exit c =>
    simp only [step] at h
    split at h <;> cases h
    refine change_crashed ?_ ?_ rfl
    · exact view_setProc (s := s.setChild c _) (x := { s.procs (s.children c).proc with child := none }) rfl
    · simp [St.setProc, St.setChild]
  | spawn p =>
    simp only [step] at h
    split at h <;> cases h
    refine .quiet _ rfl ((view_startProc p).trans ?_)
    exact view_setProc (x := { s.procs p with restarting := false }) rfl

/-! ## Operations -/

/-- The user that a new operation is about. -/
def about : Ev → Option Nat
  | .call _ user | .boot user | .userTimer user => some user
  | _ => none

/-- Where an operation after an event comes from: it was there, it is new, or it was not
    over; and one that waits for its process has just published its record. -/
inductive Origin (s t : St) (e : Ev) (op : Op) : Prop
  | kept : op ∈ s.ops → Origin s t e op
  | new : about e = some op.user → (∀ obj p waits, op.phase ≠ .starting obj p waits) → Origin s t e op
  | moved (before : Op) : before ∈ s.ops → before.user = op.user → before.phase ≠ .done →
      (∀ obj p waits, op.phase = .starting obj p waits → obj = ⟨s.nextObj, op.user⟩ ∧ t.nextObj = s.nextObj + 1 ∧
        (p = s.nextProc ∧ t.nextProc = s.nextProc + 1 ∨ s.rrproc ≠ 0 ∧ p = s.nextProcess)) →
      Origin s t e op

theorem ops_send (c : Nat) (msg : Msg) (s : St) : (send c msg s).ops = s.ops := by
  unfold send
  split <;> rfl

theorem ops_emitExit (p : Nat) (manual : Bool) (s : St) : (emitExit p manual s).ops = s.ops := by
  unfold emitExit
  dsimp only
  split
  · exact (rest_foldl_die _ _ _ _).2.2.2.2.2
  · exact (rest_foldl_die _ _ _ _).2.2.2.2.2

theorem ops_emitRemoved (p user : Nat) (s : St) : (emitRemoved p user s).ops = s.ops :=
  (rest_foldl_die _ _ _ _).2.2.2.2.2

theorem ops_crashed (p : Nat) (s : St) : (crashed p s).ops = s.ops := by
  unfold crashed
  split
  · rfl
  · exact ops_emitExit _ _ _

theorem ops_killProc (p : Nat) (s : St) : (killProc p s).ops = s.ops := by
  unfold killProc
  split
  · rfl
  · exact ops_emitExit _ _ _

theorem ops_killEngine (i : Nat) (op : Op) (waits : Bool) (rest : List Action) (s : St) (ho : op.phase = .inside) :
    ∃ op', (killEngine i op waits rest s).ops = s.ops.set i op' ∧ op'.user = op.user ∧
      ∀ obj p w, op'.phase ≠ .starting obj p w := by
  have hin (obj : EngineProxy) (p : Nat) (w : Option Nat) : op.phase ≠ .starting obj p w := by
    rw [ho]
    nofun
  unfold killEngine
  dsimp only
  cases (s.engines op.user).bind s.process with
  | none => exact ⟨_, rfl, rfl, hin⟩
  | some p =>
    dsimp only
    split
    · split
      · exact ⟨_, rfl, rfl, nofun⟩
      · refine ⟨_, ops_send _ _ _, rfl, fun obj p w h => ?_⟩
        dsimp only at h
        split at h <;> cases h
    · exact ⟨_, ops_killProc p _, rfl, hin⟩

theorem ops_runUser (i : Nat) (op : Op) (separate : Bool) (rest : List Action) (s : St) :
    ∃ op', (runUser i op separate rest s).ops = s.ops.set i op' ∧ op'.user = op.user ∧
      ∀ obj p w, op'.phase = .starting obj p w → obj = ⟨s.nextObj, op.user⟩ ∧
        (runUser i op separate rest s).nextObj = s.nextObj + 1 ∧
        (p = s.nextProc ∧ (runUser i op separate rest s).nextProc = s.nextProc + 1 ∨ s.rrproc ≠ 0 ∧ p = s.nextProcess) := by
  unfold runUser
  dsimp only
  cases separate with
  | true =>
    refine ⟨_, rfl, rfl, fun obj p w h => ?_⟩
    cases h
    exact ⟨rfl, rfl, .inl ⟨rfl, rfl⟩⟩
  | false =>
    simp only [Bool.false_eq_true, if_false]
    split
    · exact ⟨_, rfl, rfl, nofun⟩
    · next hr =>
      refine ⟨_, rfl, rfl, fun obj p w h => ?_⟩
      cases h
      exact ⟨rfl, rfl, .inr ⟨hr, rfl⟩⟩

theorem ops_attach (i : Nat) (op : Op) (obj : EngineProxy) (p : Nat) (s : St) :
    ∃ op', (attach i op obj p s).ops = s.ops.set i op' ∧ op'.user = op.user ∧
      ∀ obj p w, op'.phase ≠ .starting obj p w := by
  unfold attach
  split
  · exact ⟨_, rfl, rfl, nofun⟩
  · exact ⟨_, ops_send _ _ _, rfl, nofun⟩

/-- One operation, which was not over, is replaced. -/
theorem origin_set {e : Ev} {i : Nat} {before op op' : Op} (ht : t.ops = s.ops.set i op') (hi : s.ops[i]? = some before)
    (hu : op'.user = before.user) (hd : before.phase ≠ .done)
    (hs : ∀ obj p w, op'.phase = .starting obj p w → obj = ⟨s.nextObj, before.user⟩ ∧ t.nextObj = s.nextObj + 1 ∧
      (p = s.nextProc ∧ t.nextProc = s.nextProc + 1 ∨ s.rrproc ≠ 0 ∧ p = s.nextProcess)) (ho : op ∈ t.ops) :
    Origin s t e op := by
  rw [ht] at ho
  rcases List.mem_or_eq_of_mem_set ho with ho | rfl
  · exact .kept ho
  · refine .moved before (List.mem_of_getElem? hi) hu.symm hd fun obj p w hp => ?_
    rw [hu]
    exact hs obj p w hp

/-- A new operation waits for no process. -/
theorem origin_append {e : Ev} {op op' : Op} (ht : t.ops = s.ops ++ [op']) (he : about e = some op'.user)
    (hs : ∀ obj p w, op'.phase ≠ .starting obj p w) (ho : op ∈ t.ops) : Origin s t e op := by
  rw [ht, List.mem_append, List.mem_singleton] at ho
  rcases ho with ho | rfl
  · exact .kept ho
  · exact .new he hs

theorem step_origin {e : Ev} (h : step s e = some t) {op : Op} (ho : op ∈ t.ops) : Origin s t e op := by
  cases e with
  | call kind user =>
    cases h
    exact origin_append rfl rfl nofun ho
  | boot user =>
    simp only [step] at h
    split at h <;> cases h
    exact origin_append rfl rfl nofun ho
  | userTimer user =>
    simp only [step] at h
    split at h <;> cases h
    exact origin_append rfl rfl nofun ho
  | enter i =>
    simp only [step] at h
    split at h
    · cases h
    · next before hi =>
      split at h <;> cases h
      next hq =>
      refine origin_set rfl hi rfl ?_ nofun ho
      rw [hq.1]
      nofun
  | kill i =>
    simp only [step] at h
    split at h <;> cases h
    · next user locked rest hi =>
      obtain ⟨op', ht, hu, hs⟩ := ops_killEngine i ⟨user, locked, .kill :: rest, .inside⟩ true rest s rfl
      exact origin_set ht hi hu nofun (fun obj p w hp => absurd hp (hs obj p w)) ho
    · next user locked rest hi =>
      obtain ⟨op', ht, hu, hs⟩ := ops_killEngine i ⟨user, locked, .clear :: rest, .inside⟩ false rest s rfl
      exact origin_set ht hi hu nofun (fun obj p w hp => absurd hp (hs obj p w)) ho
  | start i separate =>
    simp only [step] at h
    split at h <;> cases h
    next hi =>
    obtain ⟨op', ht, hu, hs⟩ := ops_runUser i _ separate _ s
    exact origin_set ht hi hu nofun hs ho
  | attach i =>
    simp only [step] at h
    split at h
    · next hi =>
      split at h <;> cases h
      obtain ⟨op', ht, hu, hs⟩ := ops_attach i _ _ _ s
      exact origin_set ht hi hu nofun (fun obj p w hp => absurd hp (hs obj p w)) ho
    · cases h
  | ran i =>
    simp only [step] at h
    split at h
    · next hi =>
      split at h <;> cases h
      exact origin_set rfl hi rfl nofun nofun ho
    · cases h
  | killed call =>
    simp only [step] at h
    split at h <;> cases h
    obtain ⟨before, hb, rfl⟩ := List.mem_map.1 ho
    rw [ops_emitRemoved] at hb
    split
    · next hk =>
      refine .moved before hb rfl ?_ nofun
      rw [hk]
      nofun
    · exact .kept hb
  | fail i =>
    simp only [step] at h
    split at h <;> cases h
    · next hi => exact origin_set rfl hi rfl nofun nofun ho
    · next hi => exact origin_set rfl hi rfl nofun nofun ho
  | finish i =>
    simp only [step] at h
    split at h <;> cases h
    next hi => exact origin_set rfl hi rfl nofun nofun ho
  | handle c =>
    simp only [step] at h
    split at h <;> cases h
    exact .kept ho
  | ready c =>
    simp only [step] at h
    split at h <;> cases h
    exact .kept ho
  | dies c =>
    simp only [step] at h
    split at h <;> cases h
    exact .kept ho
  | disconnect c =>
    simp only [step] at h
    split at h <;> cases h
    rw [ops_crashed] at ho
    exact .kept ho
  | exit c =>
    simp only [step] at h
    split at h <;> cases h
    rw [ops_crashed] at ho
    exact .kept ho
  | spawn p =>
    simp only [step] at h
    split at h <;> cases h
    exact .kept ho

/-! ## What always holds -/

structure WF (r : Registry) : Prop where
  typed : ∀ user obj, r.engines user = some obj → obj.user = user
  unset : ∀ obj, r.nextObj ≤ obj.id → r.process obj = none
  unheard : ∀ p, r.nextProc ≤ p → r.listeners p = []
  shared : r.rrproc ≤ r.nextProc
  next : r.rrproc ≠ 0 → r.nextProcess < r.rrproc

theorem WF.publish (h : WF r) (user : Nat) (separate : Bool) : WF (publish user separate r) := by
  have typed (v : Nat) (obj : EngineProxy)
      (hv : Function.update r.engines user (some ⟨r.nextObj, user⟩) v = some obj) : obj.user = v := by
    by_cases he : v = user
    · subst he
      rw [Function.update_self] at hv
      cases hv
      rfl
    · rw [Function.update_of_ne he] at hv
      exact h.typed v obj hv
  have unset (obj : EngineProxy) (ho : r.nextObj + 1 ≤ obj.id) : r.process obj = none := h.unset obj (by omega)
  unfold Records.publish
  dsimp only
  cases separate with
  | true =>
    refine ⟨typed, unset, fun p hp => ?_, Nat.le_succ_of_le h.shared, h.next⟩
    have hp : r.nextProc + 1 ≤ p := hp
    show Function.update r.listeners r.nextProc [] p = []
    rw [Function.update_of_ne (by omega)]
    exact h.unheard p (by omega)
  | false =>
    simp only [Bool.false_eq_true, if_false]
    split
    · exact ⟨typed, unset, h.unheard, h.shared, h.next⟩
    · next hr => exact ⟨typed, unset, h.unheard, h.shared, fun _ => Nat.mod_lt _ (Nat.pos_of_ne_zero hr)⟩

theorem WF.register (h : WF r) {obj : EngineProxy} {p : Nat} (ho : obj.id < r.nextObj) (hp : p < r.nextProc) :
    WF (register obj p r) := by
  refine ⟨h.typed, fun o hn => ?_, fun q hq => ?_, h.shared, h.next⟩
  · have hn : r.nextObj ≤ o.id := hn
    have hne : o ≠ obj := by
      rintro rfl
      omega
    exact (Function.update_of_ne hne _ _).trans (h.unset o hn)
  · have hq : r.nextProc ≤ q := hq
    have hne : q ≠ p := by omega
    exact (Function.update_of_ne hne _ _).trans (h.unheard q hq)

theorem WF.drop (h : WF r) (p : Nat) (whom : Option Nat) : WF (drop p whom r) := by
  refine ⟨fun user obj ho => ?_, h.unset, fun q hq => ?_, h.shared, h.next⟩
  · exact h.typed user obj (Option.mem_filter_iff.1 ho).1
  · have hl := h.unheard q hq
    by_cases he : q = p
    · subst he
      show Function.update r.listeners q _ q = []
      rw [Function.update_self, hl]
      rfl
    · exact (Function.update_of_ne he _ _).trans hl

/-- Every operation that waits for a process has a record that was published, of its user. -/
structure Sane (s : St) : Prop where
  wf : WF (view s)
  starting : ∀ op ∈ s.ops, ∀ obj p waits, op.phase = .starting obj p waits →
    obj.user = op.user ∧ obj.id < s.nextObj ∧ p < s.nextProc

theorem publish_mono (user : Nat) (separate : Bool) (r : Registry) :
    r.nextObj ≤ (publish user separate r).nextObj ∧ r.nextProc ≤ (publish user separate r).nextProc := by
  unfold publish
  dsimp only
  cases separate with
  | true => exact ⟨Nat.le_succ _, Nat.le_succ _⟩
  | false =>
    simp only [Bool.false_eq_true, if_false]
    split <;> exact ⟨Nat.le_succ _, Nat.le_refl _⟩

theorem nextObj_publish (user : Nat) (separate : Bool) (r : Registry) :
    r.nextObj < (publish user separate r).nextObj := by
  unfold publish
  dsimp only
  cases separate with
  | true => exact Nat.lt_succ_self _
  | false =>
    simp only [Bool.false_eq_true, if_false]
    split <;> exact Nat.lt_succ_self _

theorem mono_of_view {f : Registry → Registry} (hv : view t = f (view s))
    (hf : (view s).nextObj ≤ (f (view s)).nextObj ∧ (view s).nextProc ≤ (f (view s)).nextProc) :
    s.nextObj ≤ t.nextObj ∧ s.nextProc ≤ t.nextProc := by
  rw [← hv] at hf
  exact hf

theorem Change.mono {e : Ev} (h : Change s t e) : s.nextObj ≤ t.nextObj ∧ s.nextProc ≤ t.nextProc := by
  cases h with
  | quiet _ he hv => exact mono_of_view (f := id) hv ⟨Nat.le_refl _, Nat.le_refl _⟩
  | publish i op separate hi hp hv => exact mono_of_view hv (publish_mono _ _ _)
  | register i op obj p waits hi hp hv => exact mono_of_view hv ⟨Nat.le_refl _, Nat.le_refl _⟩
  | drop _ p whom he hv => exact mono_of_view hv ⟨Nat.le_refl _, Nat.le_refl _⟩

theorem Sane.step {e : Ev} (h : Sane s) (hs : step s e = some t) : Sane t := by
  have hc := step_change hs
  have hm := hc.mono
  refine ⟨?_, fun op ho obj p waits hp => ?_⟩
  · cases hc with
    | quiet _ he hv =>
      rw [hv]
      exact h.wf
    | publish i op separate hi hp hv =>
      rw [hv]
      exact h.wf.publish _ _
    | register i op obj p waits hi hp hv =>
      obtain ⟨-, h1, h2⟩ := h.starting op (List.mem_of_getElem? hi) obj p waits hp
      rw [hv]
      exact h.wf.register h1 h2
    | drop _ p whom he hv =>
      rw [hv]
      exact h.wf.drop _ _
  · cases step_origin hs ho with
    | kept ho =>
      obtain ⟨h1, h2, h3⟩ := h.starting op ho obj p waits hp
      exact ⟨h1, Nat.lt_of_lt_of_le h2 hm.1, Nat.lt_of_lt_of_le h3 hm.2⟩
    | new _ hn => exact absurd hp (hn obj p waits)
    | moved before hb hu hd hst =>
      obtain ⟨rfl, hn, hp⟩ := hst obj p waits hp
      refine ⟨rfl, by dsimp only; omega, ?_⟩
      rcases hp with ⟨rfl, hp⟩ | ⟨hr, rfl⟩
      · omega
      · exact Nat.lt_of_lt_of_le (h.wf.next hr) (Nat.le_trans h.wf.shared hm.2)

theorem sane_init (ncpus : Nat) : Sane (init ncpus) := by
  have quiet (p : Nat) : ((init ncpus).procs p).listeners = [] := by
    simp only [init]
    split <;> rfl
  refine ⟨⟨nofun, fun _ _ => rfl, fun p _ => quiet p, Nat.le_refl _, fun hr => Nat.pos_of_ne_zero hr⟩, ?_⟩
  intro op ho
  simp [init] at ho

/-! ## One user -/

/-- No handler of the user is on a process. -/
def Unheard (r : Registry) (user : Nat) : Prop := ∀ p, ∀ obj ∈ r.listeners p, obj.user ≠ user

theorem mem_listeners_drop {p q : Nat} {whom : Option Nat} {obj : EngineProxy} :
    obj ∈ (drop p whom r).listeners q ↔ obj ∈ r.listeners q ∧ ¬ (q = p ∧ Told r p whom obj) := by
  unfold drop
  dsimp only
  by_cases hq : q = p
  · rw [hq, Function.update_self, List.mem_filter]
    simp
  · rw [Function.update_of_ne hq]
    simp [hq]

theorem engines_drop {p user : Nat} {whom : Option Nat} {obj : EngineProxy} :
    (drop p whom r).engines user = some obj ↔
      r.engines user = some obj ∧ ¬ (obj.user = user ∧ Told r p whom obj) := by
  unfold drop
  dsimp only
  rw [Option.filter_eq_some_iff, decide_eq_true_eq]

theorem Unheard.drop {user : Nat} (h : Unheard r user) (p : Nat) (whom : Option Nat) : Unheard (drop p whom r) user := by
  intro q obj ho
  exact h q obj (mem_listeners_drop.1 ho).1

theorem Unheard.publish {user : Nat} (h : Unheard r user) (v : Nat) (separate : Bool) :
    Unheard (publish v separate r) user := by
  intro p obj ho
  unfold Records.publish at ho
  dsimp only at ho
  split at ho
  · by_cases hp : p = r.nextProc
    · rw [hp] at ho
      dsimp only at ho
      rw [Function.update_self] at ho
      cases ho
    · dsimp only at ho
      rw [Function.update_of_ne hp] at ho
      exact h p obj ho
  · split at ho <;> exact h p obj ho

theorem engines_publish (user : Nat) (separate : Bool) (r : Registry) :
    (publish user separate r).engines user = some ⟨r.nextObj, user⟩ ∧ (publish user separate r).process = r.process := by
  unfold publish
  dsimp only
  split
  · exact ⟨Function.update_self .., rfl⟩
  · split <;> exact ⟨Function.update_self .., rfl⟩

/-- Every operation of the user is over. -/
def Idle (s : St) (user : Nat) : Prop := ∀ op ∈ s.ops, op.user = user → op.phase = .done

instance (s : St) (user : Nat) : Decidable (Idle s user) := inferInstanceAs (Decidable (∀ op ∈ s.ops, _))

theorem Idle.step {e : Ev} {user : Nat} (h : Idle s user) (he : about e ≠ some user) (hs : step s e = some t) :
    Idle t user := by
  intro op ho hu
  cases step_origin hs ho with
  | kept ho => exact h op ho hu
  | new hn _ => exact absurd (hn.trans (congrArg some hu)) he
  | moved before hb hbu hd _ => exact absurd (h before hb (hbu.trans hu)) hd

/-- The user's record and handlers are as they were. -/
structure Same (user : Nat) (r r' : Registry) : Prop where
  engines : r'.engines user = r.engines user
  process : ∀ obj, obj.user = user → r'.process obj = r.process obj
  listeners : ∀ p obj, obj.user = user → (obj ∈ r'.listeners p ↔ obj ∈ r.listeners p)
  nextObj : r.nextObj ≤ r'.nextObj
  nextProc : r.nextProc ≤ r'.nextProc

theorem Unheard.same {r' : Registry} {user : Nat} (h : Unheard r user) (hs : Same user r r') : Unheard r' user := by
  intro p obj ho hu
  exact h p obj ((hs.listeners p obj hu).1 ho) hu

theorem Same.refl (user : Nat) (r : Registry) : Same user r r :=
  ⟨rfl, fun _ _ => rfl, fun _ _ _ => Iff.rfl, Nat.le_refl _, Nat.le_refl _⟩

theorem same_publish {user v : Nat} (hv : v ≠ user) (separate : Bool) (h : WF r) : Same user r (publish v separate r) := by
  refine ⟨?_, fun obj _ => ?_, fun p obj _ => ?_, (publish_mono v separate r).1, (publish_mono v separate r).2⟩
  all_goals unfold publish; dsimp only
  · split
    · exact Function.update_of_ne hv.symm _ _
    · split <;> exact Function.update_of_ne hv.symm _ _
  · split
    · rfl
    · split <;> rfl
  · split
    · by_cases hp : p = r.nextProc
      · rw [hp, h.unheard r.nextProc (Nat.le_refl _)]
        dsimp only
        rw [Function.update_self]
      · dsimp only
        rw [Function.update_of_ne hp]
    · split <;> rfl

theorem same_register {user : Nat} {obj : EngineProxy} (ho : obj.user ≠ user) (p : Nat) :
    Same user r (register obj p r) := by
  have hne (o : EngineProxy) (hu : o.user = user) : o ≠ obj := by
    rintro rfl
    exact ho hu
  refine ⟨rfl, fun o hu => Function.update_of_ne (hne o hu) _ _, fun q o hu => ?_, Nat.le_refl _, Nat.le_refl _⟩
  unfold register
  dsimp only
  by_cases hq : q = p
  · rw [hq, Function.update_self, List.mem_append, List.mem_singleton, or_iff_left (hne o hu)]
  · rw [Function.update_of_ne hq]

/-- An event about other users leaves the user's record alone, but for the handlers it tells. -/
theorem step_user {e : Ev} {user : Nat} (h : Sane s) (hi : Idle s user) (hs : step s e = some t) :
    emits s e = none ∧ Same user (view s) (view t) ∨
      ∃ p whom, emits s e = some (p, whom) ∧ view t = drop p whom (view s) := by
  cases step_change hs with
  | quiet _ he hv =>
    rw [hv]
    exact .inl ⟨he, Same.refl _ _⟩
  | publish i op separate ho hp hv =>
    rw [hv]
    refine .inl ⟨rfl, same_publish (fun hu => ?_) separate h.wf⟩
    have hd := hi op (List.mem_of_getElem? ho) hu
    rw [hp] at hd
    cases hd
  | register i op obj p waits ho hp hv =>
    rw [hv]
    refine .inl ⟨rfl, same_register (fun hu => ?_) p⟩
    obtain ⟨hou, -, -⟩ := h.starting op (List.mem_of_getElem? ho) obj p waits hp
    have hd := hi op (List.mem_of_getElem? ho) (hou.symm.trans hu)
    rw [hp] at hd
    cases hd
  | drop _ p whom he hv => exact .inr ⟨p, whom, he, hv⟩

end GenieCloud.Almond.Records
