/-
  GenieCloud.Almond.SingleEngine — at most one engine a user, over the runs of
  `EngineManager` that take care (`Careful`).

  `Careful` is about three events. A start begins only when no engine of its user runs or
  is being started; it registers on a process only when no `killEngine` call for its user
  to that process waits for a reply; and the process of a single user is killed only when
  its child has died.

  An engine on its way is an object with a start waiting for a process, then a `runEngine`
  message to a live child, then an engine running there. The invariant: all of one user's
  are the object in `_engines`, and each is in one place. A start adds the only one; a
  die handler never takes the object of one out of `_engines`, since the process that
  calls it has no live child left, or has handled a `killEngine` sent after the engine's
  start. `single_of_careful` follows.
-/

import GenieCloud.Almond.EngineManager
import Mathlib.Data.List.Perm.Basic

namespace GenieCloud.Almond.SingleEngine

open GenieCloud.Lib.Runs GenieCloud.Almond.EngineManager

/-! ## The property -/

/-- The engines of a user running in a worker process. -/
def runningIn (s : St) (c user : Nat) : List EngineProxy :=
  if (s.children c).dead then [] else (s.children c).running.filter (·.user = user)

/-- Each user has at most one engine running, in the process that `_engines` records. -/
def Single (s : St) : Prop :=
  ∀ user, (∀ c, (runningIn s c user).length ≤ 1) ∧
    (∀ c c', runningIn s c user ≠ [] → runningIn s c' user ≠ [] → c = c') ∧
    ∀ c, runningIn s c user ≠ [] → ∃ obj, s.engines user = some obj ∧ s.process obj = some (s.children c).proc

/-- The `i`th operation waits for the process of `obj`. -/
def Starting (s : St) (i : Nat) (obj : EngineProxy) (p : Nat) : Prop :=
  ∃ op waits, s.ops[i]? = some op ∧ op.phase = .starting obj p waits

def runs : Msg → Option EngineProxy
  | .runEngine obj => some obj
  | .killEngine _ => none

/-- The engines that run in a child or will when it handles its messages. -/
def sent (x : Child) : List EngineProxy := x.inbox.filterMap runs ++ x.running

/-- An engine of the user runs or is being started. -/
def Busy (s : St) (user : Nat) : Prop :=
  (∃ i obj p, Starting s i obj p ∧ obj.user = user) ∨
    ∃ c obj, (s.children c).dead = false ∧ obj ∈ sent (s.children c) ∧ obj.user = user

def Careful (s : St) : Ev → Prop
  | .start i _ => ∀ op, s.ops[i]? = some op → ¬ Busy s op.user
  | .attach i => ∀ obj p, Starting s i obj p → ∀ call ∈ s.pending, ¬ (call.user = obj.user ∧ call.proc = p)
  | .kill i => ∀ op, s.ops[i]? = some op → ∀ p, (s.engines op.user).bind s.process = some p →
      (s.procs p).shared = false → ∀ c < s.nextChild, (s.children c).proc = p → (s.children c).dead = true
  | _ => True

/-! ## The invariant -/

/-- No `runEngine` for a user behind a `killEngine` for the same user. -/
def Before (m m' : Msg) : Prop := ∀ call obj, m = .killEngine call → m' = .runEngine obj → obj.user ≠ call.user

/-- What holds of a live child `x`, the `c`th. -/
structure ChildOk (s : St) (c : Nat) (x : Child) : Prop where
  bound : c < s.nextChild
  current : (s.procs x.proc).rpcSocket = some c
  recorded : ∀ obj ∈ sent x, s.engines obj.user = some obj ∧ s.process obj = some x.proc
  nodup : (sent x).Nodup
  map : ∀ obj ∈ x.running, x.engines obj.user = some obj
  /-- A kill that is owed a reply and meets an engine is still to be handled. -/
  owed : ∀ call ∈ s.pending, ∀ obj ∈ sent x, obj.user = call.user → x.proc = call.proc →
    c = call.child ∧ .killEngine call ∈ x.inbox
  asked : ∀ call, .killEngine call ∈ x.inbox → call ∈ s.pending ∧ call.proc = x.proc ∧ call.child = c
  order : x.inbox.Pairwise Before

/-- Every child of process `p` has died. -/
def AllDead (s : St) (p : Nat) : Prop := ∀ c < s.nextChild, (s.children c).proc = p → (s.children c).dead = true

structure Inv (s : St) : Prop where
  child : ∀ c, (s.children c).dead = false → ChildOk s c (s.children c)
  proc : ∀ c < s.nextChild, (s.children c).proc < s.nextProc
  socket : ∀ p c, (s.procs p).rpcSocket = some c → c < s.nextChild ∧ (s.children c).proc = p
  restarting : ∀ p, (s.procs p).restarting = true → p < s.nextProc ∧ (s.procs p).hadExit = true ∧ AllDead s p
  only : ∀ p, (s.procs p).hadExit = false → ∀ c c', c < s.nextChild → c' < s.nextChild →
    (s.children c).proc = p → (s.children c').proc = p → c = c'
  starting : ∀ i obj p, Starting s i obj p → s.engines obj.user = some obj ∧ s.process obj = none ∧ obj.id < s.nextObj
  once : ∀ i j obj p q, Starting s i obj p → Starting s j obj q → i = j
  fresh : ∀ obj, s.nextObj ≤ obj.id → s.process obj = none
  listening : ∀ p, ∀ obj ∈ (s.procs p).listeners, s.process obj = some p

variable {s : St}

/-- Two engines on their way in live children, of one user, are the same and in the same child. -/
theorem Inv.sent_unique (h : Inv s) {c c' : Nat} {o o' : EngineProxy} (hc : (s.children c).dead = false)
    (hc' : (s.children c').dead = false) (ho : o ∈ sent (s.children c)) (ho' : o' ∈ sent (s.children c'))
    (hu : o.user = o'.user) : o = o' ∧ c = c' := by
  obtain ⟨e1, p1⟩ := (h.child c hc).recorded o ho
  obtain ⟨e2, p2⟩ := (h.child c' hc').recorded o' ho'
  have he : o = o' := by rw [hu, e2] at e1; exact (Option.some.inj e1).symm
  subst he
  have hp : (s.children c).proc = (s.children c').proc := by rw [p1] at p2; exact Option.some.inj p2
  have h1 := (h.child c hc).current
  rw [hp, (h.child c' hc').current] at h1
  exact ⟨rfl, (Option.some.inj h1).symm⟩

theorem mem_runningIn {c user : Nat} {o : EngineProxy} :
    o ∈ runningIn s c user ↔ (s.children c).dead = false ∧ o ∈ (s.children c).running ∧ o.user = user := by
  unfold runningIn
  cases (s.children c).dead <;> simp

theorem single_of_inv (h : Inv s) : Single s := by
  have toSent : ∀ {c user o}, o ∈ runningIn s c user → o ∈ sent (s.children c) := fun ho =>
    List.mem_append_right _ (mem_runningIn.mp ho).2.1
  refine fun user => ⟨fun c => ?_, fun c c' hc hc' => ?_, fun c hc => ?_⟩
  · -- the engines of one user in one child are equal, and none is there twice
    have hnd : (runningIn s c user).Nodup := by
      unfold runningIn
      split
      · exact List.nodup_nil
      · rename_i hd
        exact ((h.child c (by simpa using hd)).nodup.of_append_right).filter _
    by_contra hlen
    match hl : runningIn s c user with
    | [] => rw [hl] at hlen; simp at hlen
    | [_] => rw [hl] at hlen; simp at hlen
    | o :: o' :: l =>
      have ho : o ∈ runningIn s c user := by rw [hl]; simp
      have ho' : o' ∈ runningIn s c user := by rw [hl]; simp
      have hu : o.user = o'.user := (mem_runningIn.mp ho).2.2.trans (mem_runningIn.mp ho').2.2.symm
      obtain ⟨he, -⟩ := h.sent_unique (mem_runningIn.mp ho).1 (mem_runningIn.mp ho').1 (toSent ho) (toSent ho') hu
      rw [hl, he] at hnd
      simp at hnd
  · obtain ⟨o, ho⟩ := List.exists_mem_of_ne_nil _ hc
    obtain ⟨o', ho'⟩ := List.exists_mem_of_ne_nil _ hc'
    have hu : o.user = o'.user := (mem_runningIn.mp ho).2.2.trans (mem_runningIn.mp ho').2.2.symm
    exact (h.sent_unique (mem_runningIn.mp ho).1 (mem_runningIn.mp ho').1 (toSent ho) (toSent ho') hu).2
  · obtain ⟨o, ho⟩ := List.exists_mem_of_ne_nil _ hc
    obtain ⟨hd, -, rfl⟩ := mem_runningIn.mp ho
    exact ⟨o, (h.child c hd).recorded o (toSent ho)⟩

/-! ## Small changes of the state -/

theorem ChildOk.mono {t : St} {c : Nat} {x : Child} (h : ChildOk s c x) (hn : s.nextChild ≤ t.nextChild)
    (hr : (t.procs x.proc).rpcSocket = (s.procs x.proc).rpcSocket)
    (he : ∀ obj ∈ sent x, t.engines obj.user = s.engines obj.user) (hp : ∀ obj ∈ sent x, t.process obj = s.process obj)
    (hpe : ∀ call ∈ t.pending, call ∈ s.pending) (has : ∀ call, .killEngine call ∈ x.inbox → call ∈ t.pending) :
    ChildOk t c x where
  bound := Nat.lt_of_lt_of_le h.bound hn
  current := hr.trans h.current
  recorded obj ho := by rw [he obj ho, hp obj ho]; exact h.recorded obj ho
  nodup := h.nodup
  map := h.map
  owed call hc := h.owed call (hpe call hc)
  asked call hc := ⟨has call hc, (h.asked call hc).2⟩
  order := h.order

/-- The same view of everything a child's condition is about. -/
theorem ChildOk.same {t : St} {c : Nat} {x : Child} (h : ChildOk s c x) (hn : t.nextChild = s.nextChild)
    (hr : (t.procs x.proc).rpcSocket = (s.procs x.proc).rpcSocket) (he : t.engines = s.engines)
    (hp : t.process = s.process) (hpe : t.pending = s.pending) : ChildOk t c x :=
  h.mono (Nat.le_of_eq hn.symm) hr (fun _ _ => by rw [he]) (fun _ _ => by rw [hp]) (fun _ hc => hpe ▸ hc)
    fun call hc => hpe ▸ (h.asked call hc).1

theorem inv_ops (h : Inv s) {ops : List Op}
    (hsub : ∀ i obj p, Starting { s with ops } i obj p → Starting s i obj p) : Inv { s with ops } where
  child c hd := (h.child c hd).same rfl rfl rfl rfl rfl
  proc := h.proc
  socket := h.socket
  restarting := h.restarting
  only := h.only
  starting i obj p hs := h.starting i obj p (hsub i obj p hs)
  once i j obj p q hi hj := h.once i j obj p q (hsub i obj p hi) (hsub j obj q hj)
  fresh := h.fresh
  listening := h.listening

theorem starting_setOp {i j : Nat} {op : Op} {obj : EngineProxy} {p : Nat} (h : Starting (s.setOp i op) j obj p) :
    j = i ∧ (∃ waits, op.phase = .starting obj p waits) ∨ j ≠ i ∧ Starting s j obj p := by
  obtain ⟨op', waits, ho, hp⟩ := h
  simp only [St.setOp, List.getElem?_set] at ho
  split at ho
  · rename_i he
    split at ho
    · cases ho; exact Or.inl ⟨he.symm, waits, hp⟩
    · cases ho
  · rename_i he
    exact Or.inr ⟨Ne.symm he, op', waits, ho, hp⟩

/-- The operation does not wait for a process any more. -/
theorem inv_setOp (h : Inv s) (i : Nat) {op : Op} (hop : ∀ obj p waits, op.phase ≠ .starting obj p waits) :
    Inv (s.setOp i op) := by
  refine inv_ops h fun j obj p hs => ?_
  rcases starting_setOp hs with ⟨-, waits, hw⟩ | ⟨-, hs⟩
  · exact absurd hw (hop obj p waits)
  · exact hs

theorem inv_newOp (h : Inv s) {op : Op} (hop : ∀ obj p waits, op.phase ≠ .starting obj p waits) :
    Inv { s with ops := s.ops ++ [op] } := by
  refine inv_ops h fun j obj p hs => ?_
  obtain ⟨op', waits, ho, hp⟩ := hs
  rw [List.getElem?_append] at ho
  split at ho
  · exact ⟨op', waits, ho, hp⟩
  · obtain rfl := List.mem_singleton.mp (List.mem_of_getElem? ho)
    exact absurd hp (hop obj p waits)

/-- The operation waits for a process: the only one to do so for its object. -/
theorem inv_setStarting (h : Inv s) (i : Nat) {op : Op} {obj : EngineProxy} {p : Nat} {waits : Option Nat}
    (hop : op.phase = .starting obj p waits) (he : s.engines obj.user = some obj) (hn : s.process obj = none)
    (hid : obj.id < s.nextObj) (hno : ∀ j q, ¬ Starting s j obj q) : Inv (s.setOp i op) where
  child c hd := (h.child c hd).same rfl rfl rfl rfl rfl
  proc := h.proc
  socket := h.socket
  restarting := h.restarting
  only := h.only
  starting j o q hs := by
    rcases starting_setOp hs with ⟨-, w, hw⟩ | ⟨-, hs⟩
    · rw [hop] at hw; cases hw; exact ⟨he, hn, hid⟩
    · exact h.starting j o q hs
  once j k o q r hj hk := by
    rcases starting_setOp hj with ⟨rfl, w, hw⟩ | ⟨-, hj'⟩ <;> rcases starting_setOp hk with ⟨rfl, w', hw'⟩ | ⟨-, hk'⟩
    · rfl
    · rw [hop] at hw; cases hw; exact absurd hk' (hno k r)
    · rw [hop] at hw'; cases hw'; exact absurd hj' (hno j q)
    · exact h.once j k o q r hj' hk'
  fresh := h.fresh
  listening := h.listening

theorem inv_setProc (h : Inv s) (p : Nat) {x : EngineProcess} (hr : x.rpcSocket = (s.procs p).rpcSocket)
    (hx : (s.procs p).hadExit = true → x.hadExit = true) (hre : x.restarting = true → (s.procs p).restarting = true)
    (hl : ∀ obj ∈ x.listeners, obj ∈ (s.procs p).listeners) : Inv (s.setProc p x) := by
  have rpc : ∀ q, ((s.setProc p x).procs q).rpcSocket = (s.procs q).rpcSocket := by
    intro q
    simp only [St.setProc, Function.update_apply]
    split
    · rename_i he; rw [he, hr]
    · rfl
  have hadExit : ∀ q, (s.procs q).hadExit = true → ((s.setProc p x).procs q).hadExit = true := by
    intro q hq
    simp only [St.setProc, Function.update_apply]
    split
    · rename_i he; exact hx (he ▸ hq)
    · exact hq
  refine ⟨fun c hd => (h.child c hd).same rfl (rpc _) rfl rfl rfl, h.proc, fun q c hq => h.socket q c (rpc q ▸ hq),
    fun q hq => ?_, fun q hq => h.only q ?_, h.starting, h.once, h.fresh, fun q obj ho => ?_⟩
  · have hq' : (s.procs q).restarting = true := by
      simp only [St.setProc, Function.update_apply] at hq
      split at hq
      · rename_i he; rw [he]; exact hre hq
      · exact hq
    obtain ⟨h1, h2, h3⟩ := h.restarting q hq'
    exact ⟨h1, hadExit q h2, h3⟩
  · by_contra hc
    rw [hadExit q (by simpa using hc)] at hq
    cases hq
  · simp only [St.setProc, Function.update_apply] at ho
    split at ho
    · rename_i he; rw [he]; exact h.listening p obj (hl obj ho)
    · exact h.listening q obj ho

/-- A child changes, together with the calls that are owed a reply. -/
theorem inv_setChildPending (h : Inv s) (c : Nat) {x : Child} {pending : List KillCall}
    (hp : x.proc = (s.children c).proc) (hd : (s.children c).dead = true → x.dead = true)
    (hrest : ∀ d, d ≠ c → (s.children d).dead = false → ChildOk { s with pending } d (s.children d))
    (hok : x.dead = false → ChildOk { s with pending } c x) : Inv (St.setChild { s with pending } c x) := by
  have proc : ∀ d, ((s.setChild c x).children d).proc = (s.children d).proc := by
    intro d
    simp only [St.setChild, Function.update_apply]
    split
    · rename_i he; rw [he, hp]
    · rfl
  have dead : ∀ d, (s.children d).dead = true → ((s.setChild c x).children d).dead = true := by
    intro d hdd
    simp only [St.setChild, Function.update_apply]
    split
    · rename_i he; exact hd (he ▸ hdd)
    · exact hdd
  refine ⟨fun d hdd => ?_, fun d hlt => ?_, fun q d hq => ?_, fun q hq => ?_, fun q hq d d' h1 h2 g1 g2 => ?_,
    h.starting, h.once, h.fresh, h.listening⟩
  · simp only [St.setChild, Function.update_apply] at hdd ⊢
    split
    · rename_i he
      rw [if_pos he] at hdd
      rw [he]; exact (hok hdd).same rfl rfl rfl rfl rfl
    · rename_i he
      rw [if_neg he] at hdd
      exact (hrest d he hdd).same rfl rfl rfl rfl rfl
  · exact (proc d).symm ▸ h.proc d hlt
  · exact (proc d).symm ▸ h.socket q d hq
  · obtain ⟨h1, h2, h3⟩ := h.restarting q hq
    exact ⟨h1, h2, fun d hlt hdp => dead d (h3 d hlt ((proc d).symm.trans hdp))⟩
  · exact h.only q hq d d' h1 h2 ((proc d).symm.trans g1) ((proc d').symm.trans g2)

theorem inv_setChild (h : Inv s) (c : Nat) {x : Child} (hp : x.proc = (s.children c).proc)
    (hd : (s.children c).dead = true → x.dead = true) (hok : x.dead = false → ChildOk s c x) : Inv (s.setChild c x) :=
  inv_setChildPending h c hp hd (fun d _ hdd => h.child d hdd) hok

/-! ## Die handlers -/

/-- No engine on its way has the object. -/
def Gone (s : St) (obj : EngineProxy) : Prop :=
  (∀ c, (s.children c).dead = false → obj ∉ sent (s.children c)) ∧ ∀ i p, ¬ Starting s i obj p

/-- A die handler takes the object of no engine on its way out of `_engines`. -/
theorem inv_die (h : Inv s) (p : Nat) (manual : Bool) {obj : EngineProxy} (hg : Gone s obj) :
    Inv (die p manual s obj) := by
  have h1 : Inv (s.setProc p { s.procs p with listeners := (s.procs p).listeners.filter (· ≠ obj) }) :=
    inv_setProc h p rfl id id fun o ho => (List.mem_filter.mp ho).1
  have engines : ∀ o, o ≠ obj → s.engines o.user = some o → (die p manual s obj).engines o.user = some o := by
    intro o hne ho
    show (if s.engines obj.user = some obj then Function.update s.engines obj.user none else s.engines) o.user = some o
    split
    · rename_i hcur
      have hu : o.user ≠ obj.user := by
        intro hu
        rw [hu, hcur] at ho
        exact hne (Option.some.inj ho).symm
      rw [Function.update_of_ne hu]; exact ho
    · exact ho
  refine ⟨fun c hd => ?_, h1.proc, h1.socket, h1.restarting, h1.only, fun i o q hs => ?_, h1.once, h1.fresh, h1.listening⟩
  · refine (h1.child c hd).mono (Nat.le_refl _) rfl (fun o ho => ?_) (fun _ _ => rfl) (fun _ => id)
      fun call hc => ((h1.child c hd).asked call hc).1
    have hne : o ≠ obj := fun he => hg.1 c hd (he ▸ ho)
    have hcur := ((h.child c hd).recorded o ho).1
    exact (engines o hne hcur).trans hcur.symm
  · have hne : o ≠ obj := fun he => hg.2 i q (he ▸ hs)
    obtain ⟨g1, g2, g3⟩ := h1.starting i o q hs
    exact ⟨engines o hne g1, g2, g3⟩

theorem inv_dieAll (h : Inv s) (p : Nat) (manual : Bool) {l : List EngineProxy} (hg : ∀ obj ∈ l, Gone s obj) :
    Inv (l.foldl (die p manual) s) := by
  induction l generalizing s with
  | nil => exact h
  | cons obj l ih =>
    exact ih (inv_die h p manual (hg obj (List.mem_cons_self ..))) fun o ho => hg o (List.mem_cons_of_mem _ ho)

/-- A registered object is not waiting for its process, and if it is on its way, then in
    a child of the process it is registered on. -/
theorem gone_of_listening (h : Inv s) {p : Nat} {obj : EngineProxy} (hl : obj ∈ (s.procs p).listeners)
    (hc : ∀ c, (s.children c).dead = false → (s.children c).proc = p → obj ∉ sent (s.children c)) : Gone s obj := by
  have hp := h.listening p obj hl
  refine ⟨fun c hd ho => hc c hd ?_ ho, fun i q hs => ?_⟩
  · have := ((h.child c hd).recorded obj ho).2
    rw [hp] at this
    exact (Option.some.inj this).symm
  · have := (h.starting i obj q hs).2.1
    rw [hp] at this; cases this

/-- A process whose children have all died emits `exit`. -/
theorem inv_emitExit (h : Inv s) {p : Nat} (manual : Bool) (hp : (s.procs p).shared = true → p < s.nextProc)
    (hx : (s.procs p).hadExit = true) (hdead : AllDead s p) : Inv (emitExit p manual s) := by
  have dead : ∀ c, (s.children c).dead = false → (s.children c).proc = p → False := fun c hd hcp => by
    rw [hdead c (h.child c hd).bound hcp] at hd; cases hd
  unfold emitExit
  cases hsh : (s.procs p).shared with
  | false =>
    exact inv_dieAll h p manual fun obj ho => gone_of_listening h ho fun c hd hcp => (dead c hd hcp).elim
  | true =>
    have h1 : Inv (s.setProc p (restart (s.procs p))) := by
      have proc : ∀ q, q ≠ p → (s.setProc p (restart (s.procs p))).procs q = s.procs q := fun q hq =>
        Function.update_of_ne hq ..
      have self : (s.setProc p (restart (s.procs p))).procs p = restart (s.procs p) := Function.update_self ..
      refine ⟨fun c hd => (h.child c hd).same rfl ?_ rfl rfl rfl, h.proc, fun q c hq => ?_, fun q hq => ?_, fun q hq => ?_,
        h.starting, h.once, h.fresh, fun q obj ho => ?_⟩
      · rw [proc _ fun he => dead c hd he]
      · by_cases he : q = p
        · rw [he, self] at hq; cases hq
        · rw [proc q he] at hq; exact h.socket q c hq
      · by_cases he : q = p
        · rw [he, self]; exact ⟨hp hsh, hx, hdead⟩
        · rw [proc q he] at hq ⊢; exact h.restarting q hq
      · by_cases he : q = p
        · rw [he, self] at hq; exact absurd (hx.symm.trans hq) (by decide)
        · rw [proc q he] at hq; exact h.only q hq
      · by_cases he : q = p
        · rw [he, self] at ho; rw [he]; exact h.listening p obj ho
        · rw [proc q he] at ho; exact h.listening q obj ho
    exact inv_dieAll h1 p manual fun obj ho => gone_of_listening h1 ho fun c hd hcp => (dead c hd hcp).elim

/-- The event of a child of process `p` that has died. -/
theorem inv_crashed (h : Inv s) {c p : Nat} (hc : c < s.nextChild) (hd : (s.children c).dead = true)
    (hp : (s.children c).proc = p) : Inv (crashed p s) := by
  unfold crashed
  split
  · exact h
  · rename_i hx
    have h1 : Inv (s.setProc p { s.procs p with hadExit := true }) := inv_setProc h p rfl (fun _ => rfl) id fun _ => id
    refine inv_emitExit h1 false (fun _ => hp ▸ h.proc c hc) ?_ fun c' hc' hp' => ?_
    · simp [St.setProc]
    · rw [← h.only p (by simpa using hx) c c' hc hc' hp hp']; exact hd

/-! ## A new child -/

theorem inv_startProc (h : Inv s) {p : Nat} (hp : p < s.nextProc) (hdead : AllDead s p)
    (hone : (s.procs p).hadExit = true ∨ ∀ c < s.nextChild, (s.children c).proc ≠ p)
    (hr : (s.procs p).restarting = false) : Inv (startProc p s) := by
  have new : (startProc p s).children s.nextChild = newChild p (s.procs p).gen := Function.update_self ..
  have old : ∀ c, c ≠ s.nextChild → (startProc p s).children c = s.children c := fun c hc => Function.update_of_ne hc ..
  have procs : ∀ q, q ≠ p → (startProc p s).procs q = s.procs q := fun q hq => Function.update_of_ne hq ..
  have self : (startProc p s).procs p =
      { s.procs p with child := some s.nextChild, rpcSocket := some s.nextChild, starting := some (s.procs p).gen } :=
    Function.update_self ..
  have lt : ∀ c, c < (startProc p s).nextChild → c = s.nextChild ∨ c < s.nextChild ∧ c ≠ s.nextChild := fun c hc => by
    have hc : c < s.nextChild + 1 := hc
    omega
  refine ⟨fun c hd => ?_, fun c hc => ?_, fun q c hq => ?_, fun q hq => ?_, fun q hq c c' hc hc' hcp hcp' => ?_,
    h.starting, h.once, h.fresh, fun q obj ho => ?_⟩
  · by_cases he : c = s.nextChild
    · rw [he, new]
      refine ⟨Nat.lt_succ_self _, ?_, ?_, ?_, ?_, ?_, ?_, List.Pairwise.nil⟩
      · exact congrArg EngineProcess.rpcSocket self
      · exact fun obj ho => nomatch ho
      · exact List.nodup_nil
      · exact fun obj ho => nomatch ho
      · exact fun call _ obj ho => nomatch ho
      · exact fun call hc => nomatch hc
    · rw [old c he] at hd ⊢
      have hne : (s.children c).proc ≠ p := fun hcp => by
        rw [hdead c (h.child c hd).bound hcp] at hd; cases hd
      exact (h.child c hd).mono (Nat.le_succ _) (by rw [procs _ hne]) (fun _ _ => rfl) (fun _ _ => rfl) (fun _ => id)
        fun call hc => ((h.child c hd).asked call hc).1
  · rcases lt c hc with rfl | ⟨hlt, hne⟩
    · rw [new]; exact hp
    · rw [old c hne]; exact h.proc c hlt
  · by_cases he : q = p
    · rw [he, self] at hq
      cases hq
      rw [he, new]; exact ⟨Nat.lt_succ_self _, rfl⟩
    · rw [procs q he] at hq
      obtain ⟨hlt, hcp⟩ := h.socket q c hq
      rw [old c (Nat.ne_of_lt hlt)]; exact ⟨Nat.lt_succ_of_lt hlt, hcp⟩
  · by_cases he : q = p
    · rw [he, self] at hq
      exact absurd (hr.symm.trans hq) (by decide)
    · rw [procs q he] at hq ⊢
      obtain ⟨h1, h2, h3⟩ := h.restarting q hq
      refine ⟨h1, h2, fun c hc hcp => ?_⟩
      rcases lt c hc with rfl | ⟨hlt, hne⟩
      · rw [new] at hcp; exact absurd hcp.symm he
      · rw [old c hne] at hcp ⊢; exact h3 c hlt hcp
  · by_cases he : q = p
    · rw [he, self] at hq
      -- nothing of the process has exited yet: the new child is its only one
      have fresh : ∀ d, d < (startProc p s).nextChild → ((startProc p s).children d).proc = q → d = s.nextChild := by
        intro d hd hdp
        rcases lt d hd with rfl | ⟨hlt, hne⟩
        · rfl
        · rw [old d hne, he] at hdp
          rcases hone with hx | hno
          · exact absurd (hx.symm.trans hq) (by decide)
          · exact absurd hdp (hno d hlt)
      rw [fresh c hc hcp, fresh c' hc' hcp']
    · rw [procs q he] at hq
      have was : ∀ d, d < (startProc p s).nextChild → ((startProc p s).children d).proc = q →
          d < s.nextChild ∧ (s.children d).proc = q := by
        intro d hd hdp
        rcases lt d hd with rfl | ⟨hlt, hne⟩
        · rw [new] at hdp; exact absurd hdp.symm he
        · exact ⟨hlt, old d hne ▸ hdp⟩
      obtain ⟨g1, g2⟩ := was c hc hcp
      obtain ⟨g1', g2'⟩ := was c' hc' hcp'
      exact h.only q hq c c' g1 g1' g2 g2'
  · by_cases he : q = p
    · rw [he, self] at ho; rw [he]; exact h.listening p obj ho
    · rw [procs q he] at ho; exact h.listening q obj ho

/-! ## Messages -/

theorem mem_sent_append {x : Child} {msg : Msg} {obj : EngineProxy} :
    obj ∈ sent { x with inbox := x.inbox ++ [msg] } ↔ obj ∈ sent x ∨ runs msg = some obj := by
  simp only [sent, List.mem_append, List.filterMap_append, List.mem_filterMap, List.mem_singleton]
  constructor
  · rintro ((h | ⟨m, rfl, h⟩) | h)
    · exact Or.inl (Or.inl h)
    · exact Or.inr h
    · exact Or.inl (Or.inr h)
  · rintro ((h | h) | h)
    · exact Or.inl (Or.inl h)
    · exact Or.inr h
    · exact Or.inl (Or.inr ⟨msg, rfl, h⟩)

theorem sent_append_kill (x : Child) (call : KillCall) :
    sent { x with inbox := x.inbox ++ [.killEngine call] } = sent x := by
  simp only [sent, List.filterMap_append, List.filterMap_cons, List.filterMap_nil, runs, List.append_nil]

/-- A `killEngine` call goes out, to the current child of its process: every engine of the
    process is there, before the message. -/
theorem inv_sendKill (h : Inv s) {call : KillCall} (hr : (s.procs call.proc).rpcSocket = some call.child) :
    Inv (send call.child (.killEngine call) { s with pending := call :: s.pending }) := by
  have rest : ∀ c, c ≠ call.child → (s.children c).dead = false →
      ChildOk { s with pending := call :: s.pending } c (s.children c) := by
    intro c hne hd
    have hc := h.child c hd
    refine ⟨hc.bound, hc.current, hc.recorded, hc.nodup, hc.map, fun call' hm obj ho hu hp => ?_,
      fun call' hm => ⟨List.mem_cons_of_mem _ (hc.asked call' hm).1, (hc.asked call' hm).2⟩, hc.order⟩
    rcases List.mem_cons.mp hm with rfl | hm
    · have := hc.current
      rw [hp, hr] at this
      exact absurd (Option.some.inj this).symm hne
    · exact hc.owed call' hm obj ho hu hp
  obtain ⟨-, hproc⟩ := h.socket _ _ hr
  unfold send
  cases hd : (s.children call.child).dead with
  | true =>
    refine ⟨fun c hc => rest c (fun he => ?_) hc, h.proc, h.socket, h.restarting, h.only, h.starting, h.once, h.fresh,
      h.listening⟩
    rw [he] at hc
    exact absurd (hd.symm.trans hc) (by decide)
  | false =>
    have hc := h.child call.child hd
    refine inv_setChildPending h call.child rfl id rest fun _ => ?_
    have sent_eq := sent_append_kill (s.children call.child) call
    refine ⟨hc.bound, hc.current, sent_eq.symm ▸ hc.recorded, sent_eq.symm ▸ hc.nodup, hc.map,
      fun call' hm obj ho hu hp => ?_, fun call' hm => ?_, ?_⟩
    · rw [sent_eq] at ho
      rcases List.mem_cons.mp hm with rfl | hm
      · exact ⟨rfl, List.mem_append_right _ (List.mem_singleton_self _)⟩
      · obtain ⟨g1, g2⟩ := hc.owed call' hm obj ho hu hp
        exact ⟨g1, List.mem_append_left _ g2⟩
    · rcases List.mem_append.mp hm with hm | hm
      · exact ⟨List.mem_cons_of_mem _ (hc.asked call' hm).1, (hc.asked call' hm).2⟩
      · cases List.mem_singleton.mp hm
        exact ⟨List.mem_cons_self .., hproc.symm, rfl⟩
    · refine List.pairwise_append.mpr ⟨hc.order, List.pairwise_singleton .., fun m _ m' hm' => ?_⟩
      rintro _ _ - rfl
      cases List.mem_singleton.mp hm'

/-- A `runEngine` call goes out to process `p`, which owes no kill of the user. -/
theorem inv_sendRun (h : Inv s) {p c : Nat} {obj : EngineProxy} (hr : (s.procs p).rpcSocket = some c)
    (he : s.engines obj.user = some obj) (hp : s.process obj = some p)
    (hno : ∀ d, (s.children d).dead = false → obj ∉ sent (s.children d))
    (hk : ∀ call ∈ s.pending, ¬ (call.user = obj.user ∧ call.proc = p)) : Inv (send c (.runEngine obj) s) := by
  obtain ⟨-, hproc⟩ := h.socket _ _ hr
  unfold send
  cases hd : (s.children c).dead with
  | true => exact h
  | false =>
    have hc := h.child c hd
    refine inv_setChild h c rfl id fun _ => ?_
    have sent_iff : ∀ o, o ∈ sent { s.children c with inbox := (s.children c).inbox ++ [.runEngine obj] } ↔
        o ∈ sent (s.children c) ∨ o = obj := fun o => by rw [mem_sent_append]; simp [runs, eq_comm]
    refine ⟨hc.bound, hc.current, fun o ho => ?_, ?_, hc.map, fun call hm o ho hu hcp => ?_, fun call hm => ?_, ?_⟩
    · rcases (sent_iff o).mp ho with ho | rfl
      · exact hc.recorded o ho
      · exact ⟨he, hproc.symm ▸ hp⟩
    · have hnd := hc.nodup
      have hperm : (sent { s.children c with inbox := (s.children c).inbox ++ [.runEngine obj] }).Perm
          (obj :: sent (s.children c)) := by
        simp only [sent, List.filterMap_append, List.append_assoc]
        exact List.perm_middle
      exact hperm.nodup_iff.mpr (List.nodup_cons.mpr ⟨hno c hd, hnd⟩)
    · rcases (sent_iff o).mp ho with ho | rfl
      · obtain ⟨g1, g2⟩ := hc.owed call hm o ho hu hcp
        exact ⟨g1, List.mem_append_left _ g2⟩
      · exact absurd ⟨hu.symm, hcp.symm.trans hproc⟩ (hk call hm)
    · rcases List.mem_append.mp hm with hm | hm
      · exact hc.asked call hm
      · cases List.mem_singleton.mp hm
    · refine List.pairwise_append.mpr ⟨hc.order, List.pairwise_singleton .., fun m hm m' hm' => ?_⟩
      rintro call o rfl rfl
      cases List.mem_singleton.mp hm'
      obtain ⟨g1, g2, -⟩ := hc.asked call hm
      exact fun hu => hk call g1 ⟨hu.symm, g2.trans hproc⟩

/-! ## Handling a message -/

theorem ChildOk.run {c : Nat} {x : Child} {obj : EngineProxy} {inbox : List Msg} (h : ChildOk s c x)
    (hi : x.inbox = .runEngine obj :: inbox) : ChildOk s c (handle { x with inbox } (.runEngine obj)) := by
  have hperm : (sent (handle { x with inbox } (.runEngine obj))).Perm (sent x) := by
    simp only [sent, handle, hi, List.filterMap_cons, runs, List.cons_append]
    exact List.perm_middle
  have mem : ∀ {o}, o ∈ sent (handle { x with inbox } (.runEngine obj)) → o ∈ sent x := hperm.mem_iff.mp
  have hobj : obj ∈ sent x := by simp [sent, hi, runs]
  refine ⟨h.bound, h.current, fun o ho => h.recorded o (mem ho), hperm.nodup_iff.mpr h.nodup, fun o ho => ?_,
    fun call hm o ho hu hp => ?_, fun call hm => h.asked call (hi ▸ List.mem_cons_of_mem _ hm), ?_⟩
  · show Function.update x.engines obj.user (some obj) o.user = some o
    by_cases hu : o.user = obj.user
    · -- the two have one user, so they are the object that `_engines` records
      have h1 := (h.recorded obj hobj).1
      have h2 := (h.recorded o (mem (List.mem_append_right _ ho))).1
      rw [hu, h1] at h2
      rw [hu, Function.update_self, h2]
    · rw [Function.update_of_ne hu]
      rcases List.mem_cons.mp ho with rfl | ho
      · exact absurd rfl hu
      · exact h.map o ho
  · obtain ⟨g1, g2⟩ := h.owed call hm o (mem ho) hu hp
    rw [hi] at g2
    rcases List.mem_cons.mp g2 with g2 | g2
    · cases g2
    · exact ⟨g1, g2⟩
  · have := h.order
    rw [hi] at this
    exact this.of_cons

theorem ChildOk.kill {c : Nat} {x : Child} {call : KillCall} {inbox : List Msg} (h : ChildOk s c x)
    (hi : x.inbox = .killEngine call :: inbox) : ChildOk s c (handle { x with inbox } (.killEngine call)) := by
  have horder := h.order
  rw [hi] at horder
  obtain ⟨hhead, htail⟩ := List.pairwise_cons.mp horder
  have sent_eq : sent { x with inbox } = sent x := by simp only [sent, hi, List.filterMap_cons, runs]
  -- no engine of the user comes behind the message
  have behind : ∀ o ∈ inbox.filterMap runs, o.user ≠ call.user := by
    intro o ho
    obtain ⟨m, hm, hr⟩ := List.mem_filterMap.mp ho
    cases m with
    | killEngine _ => cases hr
    | runEngine o' => cases hr; exact hhead _ hm call o rfl rfl
  have key : (handle { x with inbox } (.killEngine call)).proc = x.proc ∧
      (handle { x with inbox } (.killEngine call)).inbox = inbox ∧
      (sent (handle { x with inbox } (.killEngine call))).Sublist (sent x) ∧
      (∀ o ∈ (handle { x with inbox } (.killEngine call)).running,
        (handle { x with inbox } (.killEngine call)).engines o.user = some o ∧ o.user ≠ call.user) := by
    simp only [handle]
    cases he : x.engines call.user with
    | none =>
      refine ⟨rfl, rfl, sent_eq ▸ List.Sublist.refl _, fun o ho => ⟨h.map o ho, fun hu => ?_⟩⟩
      have := h.map o ho
      rw [hu, he] at this; cases this
    | some obj =>
      refine ⟨rfl, rfl, ?_, fun o ho => ?_⟩
      · rw [← sent_eq]
        exact List.Sublist.append (List.Sublist.refl _) List.filter_sublist
      · obtain ⟨ho, hne⟩ := List.mem_filter.mp ho
        have hu : o.user ≠ call.user := by
          intro hu
          have := h.map o ho
          rw [hu, he] at this
          simp at hne
          exact hne (Option.some.inj this).symm
        exact ⟨(Function.update_of_ne hu ..).trans (h.map o ho), hu⟩
  obtain ⟨kp, ki, ks, km⟩ := key
  refine ⟨h.bound, kp.symm ▸ h.current, fun o ho => kp.symm ▸ h.recorded o (ks.subset ho), h.nodup.sublist ks,
    fun o ho => (km o ho).1, fun call' hm o ho hu hp => ?_,
    fun call' hm => kp.symm ▸ h.asked call' (hi ▸ List.mem_cons_of_mem _ (ki ▸ hm)), ki.symm ▸ htail⟩
  obtain ⟨g1, g2⟩ := h.owed call' hm o (ks.subset ho) hu (kp ▸ hp)
  rw [hi] at g2
  rcases List.mem_cons.mp g2 with g2 | g2
  · cases g2
    rw [sent, ki] at ho
    rcases List.mem_append.mp ho with ho | ho
    · exact absurd hu (behind o ho)
    · exact absurd hu (km o ho).2
  · exact ⟨g1, ki.symm ▸ g2⟩

theorem inv_handle (h : Inv s) {c : Nat} {msg : Msg} {inbox : List Msg} (hi : (s.children c).inbox = msg :: inbox) :
    Inv (s.setChild c (handle { s.children c with inbox } msg)) := by
  have same : (handle { s.children c with inbox } msg).proc = (s.children c).proc ∧
      (handle { s.children c with inbox } msg).dead = (s.children c).dead := by
    cases msg with
    | runEngine obj => exact ⟨rfl, rfl⟩
    | killEngine call => simp only [handle]; split <;> exact ⟨rfl, rfl⟩
  refine inv_setChild h c same.1 (fun hd => same.2.trans hd) fun hd => ?_
  have hc := h.child c (same.2.symm.trans hd)
  cases msg with
  | runEngine obj => exact hc.run hi
  | killEngine call => exact hc.kill hi

/-! ## Starting -/

theorem Inv.copy (h : Inv s) {t : St} (h1 : t.children = s.children) (h2 : t.nextChild = s.nextChild)
    (h3 : t.procs = s.procs) (h4 : t.nextProc = s.nextProc) (h5 : t.engines = s.engines) (h6 : t.process = s.process)
    (h7 : t.nextObj = s.nextObj) (h8 : t.pending = s.pending) (h9 : t.ops = s.ops) : Inv t := by
  obtain ⟨children, nextChild, procs, nextProc, rrproc, nextProcess, engines, process, nextObj, nextCall, pending,
    readied, userTimers, booted, ops⟩ := t
  subst h1 h2 h3 h4 h5 h6 h7 h8 h9
  exact ⟨fun c hd => (h.child c hd).same rfl rfl rfl rfl rfl, h.proc, h.socket, h.restarting, h.only, h.starting, h.once,
    h.fresh, h.listening⟩

/-- A new object replaces the user's in `_engines`, when no engine of the user is on its way. -/
theorem inv_assign (h : Inv s) {user : Nat} (hb : ¬ Busy s user) :
    Inv { s with engines := Function.update s.engines user (some ⟨s.nextObj, user⟩), nextObj := s.nextObj + 1 } where
  child c hd := (h.child c hd).mono (Nat.le_refl _) rfl
    (fun o ho => Function.update_of_ne (fun hu => hb (Or.inr ⟨c, o, hd, ho, hu⟩)) ..) (fun _ _ => rfl) (fun _ => id)
    fun call hc => ((h.child c hd).asked call hc).1
  proc := h.proc
  socket := h.socket
  restarting := h.restarting
  only := h.only
  starting i o q hs := by
    obtain ⟨h1, h2, h3⟩ := h.starting i o q hs
    exact ⟨(Function.update_of_ne (fun hu => hb (Or.inl ⟨i, o, q, hs, hu⟩)) ..).trans h1, h2, Nat.lt_succ_of_lt h3⟩
  once := h.once
  fresh o ho := h.fresh o (Nat.le_of_succ_le ho)
  listening := h.listening

theorem inv_newProc (h : Inv s) : Inv { s.setProc s.nextProc noProc with nextProc := s.nextProc + 1 } := by
  have self : (s.setProc s.nextProc noProc).procs s.nextProc = noProc := Function.update_self ..
  have old : ∀ q, q ≠ s.nextProc → (s.setProc s.nextProc noProc).procs q = s.procs q := fun q hq =>
    Function.update_of_ne hq ..
  refine ⟨fun c hd => ?_, fun c hc => Nat.lt_succ_of_lt (h.proc c hc), fun q c hq => ?_, fun q hq => ?_, fun q hq => ?_,
    h.starting, h.once, h.fresh, fun q o ho => ?_⟩
  · have hc := h.child c hd
    exact hc.same rfl (by rw [old _ (Nat.ne_of_lt (h.proc c hc.bound))]) rfl rfl rfl
  · by_cases he : q = s.nextProc
    · rw [he, self] at hq; cases hq
    · rw [old q he] at hq; exact h.socket q c hq
  · by_cases he : q = s.nextProc
    · rw [he, self] at hq; cases hq
    · rw [old q he] at hq ⊢
      obtain ⟨h1, h2, h3⟩ := h.restarting q hq
      exact ⟨Nat.lt_succ_of_lt h1, h2, h3⟩
  · by_cases he : q = s.nextProc
    · intro c _ hc _ hcp
      exact absurd (Eq.trans hcp he) (Nat.ne_of_lt (h.proc c hc))
    · rw [old q he] at hq; exact h.only q hq
  · by_cases he : q = s.nextProc
    · rw [he, self] at ho; cases ho
    · rw [old q he] at ho; exact h.listening q o ho

theorem inv_runUser (h : Inv s) (i : Nat) {op : Op} (separate : Bool) (rest : List Action) (hb : ¬ Busy s op.user) :
    Inv (runUser i op separate rest s) := by
  have h1 := inv_assign h hb
  have hno : ∀ j q, ¬ Starting s j ⟨s.nextObj, op.user⟩ q := fun j q hs =>
    absurd (h.starting j _ q hs).2.2 (Nat.lt_irrefl _)
  have hnone : s.process ⟨s.nextObj, op.user⟩ = none := h.fresh _ (Nat.le_refl _)
  have hself : Function.update s.engines op.user (some ⟨s.nextObj, op.user⟩) op.user = some ⟨s.nextObj, op.user⟩ :=
    Function.update_self ..
  unfold runUser
  cases separate with
  | true =>
    have h2 := inv_newProc h1
    have h3 := inv_startProc h2 (Nat.lt_succ_self _)
      (fun c hc hcp => absurd hcp (Nat.ne_of_lt (h.proc c hc)))
      (Or.inr fun c hc hcp => absurd hcp (Nat.ne_of_lt (h.proc c hc)))
      (by simp [St.setProc, noProc])
    exact inv_setStarting h3 i rfl hself hnone (Nat.lt_succ_self _) hno
  | false =>
    simp only [Bool.false_eq_true, if_false]
    split
    · exact inv_setOp h1 i nofun
    · let waiting : Op := ⟨op.user, op.locked, rest, .starting ⟨s.nextObj, op.user⟩ s.nextProcess
        (s.procs s.nextProcess).starting⟩
      have h2 : Inv (St.setOp _ i waiting) := inv_setStarting h1 i rfl hself hnone (Nat.lt_succ_self _) hno
      exact h2.copy rfl rfl rfl rfl rfl rfl rfl rfl rfl

/-- Registering changes only the listeners of process `p`. -/
theorem register_procs (s : St) (obj : EngineProxy) (p q : Nat) :
    ∃ l, (register obj p s).procs q = { s.procs q with listeners := l } ∧
      ∀ o ∈ l, o ∈ (s.procs q).listeners ∨ o = obj ∧ q = p := by
  by_cases he : q = p
  · refine ⟨(s.procs p).listeners ++ [obj], ?_, fun o ho => ?_⟩
    · rw [he]; exact Function.update_self ..
    · rw [he]
      exact (List.mem_append.mp ho).imp id fun ho => ⟨List.mem_singleton.mp ho, rfl⟩
  · exact ⟨(s.procs q).listeners, Function.update_of_ne he .., fun o ho => Or.inl ho⟩

/-- The object of a start that waits no longer is registered on process `p`. -/
theorem inv_register (h : Inv s) (p : Nat) {obj : EngineProxy} (hid : obj.id < s.nextObj) (hn : s.process obj = none)
    (hno : ∀ j q, ¬ Starting s j obj q) : Inv (register obj p s) := by
  have keep : ∀ o, o ≠ obj → (register obj p s).process o = s.process o := fun o ho => Function.update_of_ne ho ..
  have ne : ∀ {o q}, s.process o = some q → o ≠ obj := by
    rintro o q ho rfl
    rw [hn] at ho; cases ho
  have rpc : ∀ q, ((register obj p s).procs q).rpcSocket = (s.procs q).rpcSocket := fun q => by
    obtain ⟨l, hl, -⟩ := register_procs s obj p q
    rw [hl]
  refine ⟨fun c hd => ?_, h.proc, fun q c hq => h.socket q c ((rpc q).symm.trans hq), fun q hq => ?_, fun q hq => ?_,
    fun i o q hs => ?_, h.once, fun o ho => ?_, fun q o ho => ?_⟩
  · exact (h.child c hd).mono (Nat.le_refl _) (rpc _) (fun _ _ => rfl)
      (fun o ho => keep o (ne ((h.child c hd).recorded o ho).2)) (fun _ => id)
      fun call hc => ((h.child c hd).asked call hc).1
  · obtain ⟨l, hl, -⟩ := register_procs s obj p q
    rw [hl] at hq ⊢
    exact h.restarting q hq
  · obtain ⟨l, hl, -⟩ := register_procs s obj p q
    rw [hl] at hq
    exact h.only q hq
  · obtain ⟨h1, h2, h3⟩ := h.starting i o q hs
    refine ⟨h1, (keep o ?_).trans h2, h3⟩
    rintro rfl
    exact hno i q hs
  · refine (keep o ?_).trans (h.fresh o ho)
    rintro rfl
    exact absurd hid (Nat.not_lt.mpr ho)
  · obtain ⟨l, hl, hm⟩ := register_procs s obj p q
    rw [hl] at ho
    rcases hm o ho with ho | ⟨rfl, rfl⟩
    · have hq := h.listening q o ho
      exact (keep o (ne hq)).trans hq
    · exact Function.update_self ..

theorem inv_attach (h : Inv s) {i : Nat} {op : Op} {obj : EngineProxy} {p : Nat} (hs : Starting s i obj p)
    (hk : ∀ call ∈ s.pending, ¬ (call.user = obj.user ∧ call.proc = p)) : Inv (attach i op obj p s) := by
  obtain ⟨he, hn, hid⟩ := h.starting i obj p hs
  have registered : ∀ op' : Op, (∀ o q w, op'.phase ≠ .starting o q w) → Inv ((register obj p s).setOp i op') := by
    intro op' hop
    refine inv_register (s := s.setOp i op') (inv_setOp h i hop) p hid hn fun j q hj => ?_
    rcases starting_setOp hj with ⟨-, w, hw⟩ | ⟨hne, hj⟩
    · exact hop obj q w hw
    · exact hne (h.once j i obj q p hj hs)
  unfold attach
  split
  · exact registered { op with phase := .done } nofun
  · rename_i c hr
    obtain ⟨l, hl, -⟩ := register_procs s obj p p
    refine inv_sendRun (registered { op with phase := .calling obj c } nofun)
      ((congrArg EngineProcess.rpcSocket hl).trans hr)
      he (Function.update_self ..) (fun d hd ho => ?_) hk
    have := ((h.child d hd).recorded obj ho).2
    rw [hn] at this; cases this

/-! ## Killing -/

/-- A single user's process, whose child has died, is killed. -/
theorem inv_killProc (h : Inv s) {p : Nat} (hsh : (s.procs p).shared = false) (hdead : AllDead s p) :
    Inv (killProc p s) := by
  unfold killProc
  split
  · exact h
  · have h1 : Inv (s.setProc p { s.procs p with hadExit := true }) := inv_setProc h p rfl (fun _ => rfl) id fun _ => id
    refine inv_emitExit h1 true (fun hs => ?_) ?_ hdead
    · simp [St.setProc, hsh] at hs
    · simp [St.setProc]

theorem inv_killEngine (h : Inv s) (i : Nat) {op : Op} (waits : Bool) (rest : List Action) (hop : op.phase = .inside)
    (hc : ∀ p, (s.engines op.user).bind s.process = some p → (s.procs p).shared = false → AllDead s p) :
    Inv (killEngine i op waits rest s) := by
  have hnext : Inv (s.setOp i { op with todo := rest }) := inv_setOp h i fun _ _ _ hw => by
    have hw : op.phase = _ := hw
    rw [hop] at hw; cases hw
  unfold killEngine
  cases hp : (s.engines op.user).bind s.process with
  | none => exact hnext
  | some p =>
    cases hsh : (s.procs p).shared with
    | false =>
      simp only [hsh, Bool.false_eq_true, if_false]
      exact inv_killProc hnext hsh (hc p hp hsh)
    | true =>
      simp only [hsh, if_true]
      cases hr : (s.procs p).rpcSocket with
      | none => exact inv_setOp h i nofun
      | some c =>
        let call : KillCall := ⟨s.nextCall, p, c, op.user⟩
        let op' : Op := { op with todo := rest, phase := if waits then .killing call else .inside }
        have h1 : Inv (s.setOp i op') := inv_setOp h i fun _ _ _ hw => by
          have hw : (if waits then Phase.killing call else .inside) = _ := hw
          split at hw <;> cases hw
        have h2 : Inv { s.setOp i op' with nextCall := s.nextCall + 1 } := h1.copy rfl rfl rfl rfl rfl rfl rfl rfl rfl
        have hcall : ((s.setOp i op').procs call.proc).rpcSocket = some call.child := hr
        exact inv_sendKill h2 hcall

/-- The reply to a `killEngine` call, once the child has handled it or has died. -/
theorem inv_killed (h : Inv s) {call : KillCall} (hm : call ∈ s.pending)
    (hi : .killEngine call ∉ (s.children call.child).inbox) :
    Inv (emitRemoved call.proc call.user { s with pending := s.pending.filter (· ≠ call) }) := by
  have h1 : Inv { s with pending := s.pending.filter (· ≠ call) } := by
    refine ⟨fun c hd => (h.child c hd).mono (Nat.le_refl _) rfl (fun _ _ => rfl) (fun _ _ => rfl)
      (fun _ hc => (List.mem_filter.mp hc).1) fun call' hc' => ?_, h.proc, h.socket, h.restarting, h.only, h.starting,
      h.once, h.fresh, h.listening⟩
    obtain ⟨g1, -, g3⟩ := (h.child c hd).asked call' hc'
    refine List.mem_filter.mpr ⟨g1, ?_⟩
    have hne : call' ≠ call := by
      rintro rfl
      rw [g3] at hi
      exact hi hc'
    simpa using hne
  refine inv_dieAll h1 call.proc true fun obj ho => ?_
  obtain ⟨hl, hu⟩ := List.mem_filter.mp ho
  -- an engine of the user in the process would have the call still in its child's inbox
  refine gone_of_listening h1 hl fun c hd hcp hs => ?_
  obtain ⟨rfl, hin⟩ := (h.child c hd).owed call hm obj hs (by simpa using hu) hcp
  exact hi hin

/-! ## Runs -/

theorem init_inv (ncpus : Nat) : Inv (init ncpus) := by
  have lt : ∀ c, ((init ncpus).children c).dead = false → c < 2 * ncpus := fun c hd => by
    simpa [init] using hd
  have noOp : ∀ i obj p, ¬ Starting (init ncpus) i obj p := by
    rintro i obj p ⟨op, waits, ho, -⟩
    simp [init] at ho
  have rpc : ∀ p c, ((init ncpus).procs p).rpcSocket = some c → c = p ∧ p < 2 * ncpus := by
    intro p c hp
    simp only [init] at hp
    split at hp
    · rename_i hlt; cases hp; exact ⟨rfl, hlt⟩
    · cases hp
  have quiet : ∀ p, ((init ncpus).procs p).restarting = false ∧ ((init ncpus).procs p).listeners = [] := by
    intro p
    simp only [init]
    split <;> exact ⟨rfl, rfl⟩
  refine ⟨fun c hd => ⟨lt c hd, ?_, ?_, List.nodup_nil, ?_, ?_, ?_, List.Pairwise.nil⟩, fun c hc => hc, fun p c hp => ?_,
    fun p hp => ?_, fun p _ c c' _ _ h1 h2 => h1.trans h2.symm, fun i obj p hs => absurd hs (noOp i obj p),
    fun i j obj p q hs => absurd hs (noOp i obj p), fun _ _ => rfl, fun p obj ho => ?_⟩
  · show ((init ncpus).procs c).rpcSocket = some c
    simp only [init]
    rw [if_pos (lt c hd)]
  · exact fun obj ho => nomatch ho
  · exact fun obj ho => nomatch ho
  · exact fun call hc => nomatch hc
  · exact fun call hc => nomatch hc
  · obtain ⟨rfl, hlt⟩ := rpc p c hp
    exact ⟨hlt, rfl⟩
  · rw [(quiet p).1] at hp; cases hp
  · rw [(quiet p).2] at ho; cases ho

/-- A child dies: nothing runs there any more. -/
theorem inv_dies (h : Inv s) (c : Nat) :
    Inv (s.setChild c { s.children c with dead := true, inbox := [], engines := fun _ => none, running := [] }) :=
  inv_setChild h c rfl (fun _ => rfl) nofun

theorem step_inv {e : Ev} {s' : St} (h : Inv s) (hc : Careful s e) (hs : step s e = some s') : Inv s' := by
  cases e with
  | call kind user => cases hs; exact inv_newOp h nofun
  | boot user =>
    simp only [step] at hs
    split at hs <;> cases hs
    have h1 : Inv { s with ops := s.ops ++ [⟨user, false, [.start], .inside⟩] } := inv_newOp h nofun
    exact h1.copy rfl rfl rfl rfl rfl rfl rfl rfl rfl
  | userTimer user =>
    simp only [step] at hs
    split at hs <;> cases hs
    have h1 : Inv { s with ops := s.ops ++ [newOp user .restartUser] } := inv_newOp h nofun
    exact h1.copy rfl rfl rfl rfl rfl rfl rfl rfl rfl
  | enter i =>
    simp only [step] at hs
    split at hs
    · cases hs
    · split at hs <;> cases hs
      exact inv_setOp h i nofun
  | kill i =>
    simp only [step] at hs
    split at hs <;> cases hs
    · rename_i user locked rest ho
      exact inv_killEngine h i true rest rfl (hc _ ho)
    · rename_i user locked rest ho
      exact inv_killEngine h i false rest rfl (hc _ ho)
  | start i separate =>
    simp only [step] at hs
    split at hs <;> cases hs
    rename_i user locked rest ho
    exact inv_runUser h i separate rest (hc _ ho)
  | attach i =>
    simp only [step] at hs
    split at hs
    · rename_i user locked todo obj p waits ho
      split at hs <;> cases hs
      have hst : Starting s i obj p := ⟨_, waits, ho, rfl⟩
      exact inv_attach h hst (hc obj p hst)
    · cases hs
  | ran i =>
    simp only [step] at hs
    split at hs
    · split at hs <;> cases hs
      exact inv_setOp h i nofun
    · cases hs
  | killed call =>
    simp only [step] at hs
    split at hs <;> cases hs
    rename_i hk
    refine inv_ops (inv_killed h hk.1 hk.2) fun i obj p hst => ?_
    obtain ⟨op, waits, ho, hp⟩ := hst
    rw [List.getElem?_map, Option.map_eq_some_iff] at ho
    obtain ⟨op', ho, rfl⟩ := ho
    split at hp
    · cases hp
    · exact ⟨op', waits, ho, hp⟩
  | fail i =>
    simp only [step] at hs
    split at hs <;> cases hs
    · exact inv_setOp h i nofun
    · exact inv_setOp h i nofun
  | finish i =>
    simp only [step] at hs
    split at hs <;> cases hs
    exact inv_setOp h i nofun
  | handle c =>
    simp only [step] at hs
    split at hs <;> cases hs
    rename_i msg inbox hi
    exact inv_handle h hi
  | ready c =>
    simp only [step] at hs
    split at hs <;> cases hs
    have h1 : Inv (s.setProc (s.children c).proc { s.procs (s.children c).proc with starting := none }) :=
      inv_setProc h _ rfl id id fun _ => id
    exact h1.copy rfl rfl rfl rfl rfl rfl rfl rfl rfl
  | dies c =>
    simp only [step] at hs
    split at hs <;> cases hs
    exact inv_dies h c
  | disconnect c =>
    simp only [step] at hs
    split at hs <;> cases hs
    rename_i hd
    have h1 : Inv (s.setChild c { s.children c with disconnected := true }) :=
      inv_setChild h c rfl id fun hd' => absurd (hd.2.1.symm.trans hd') (by decide)
    refine inv_crashed h1 hd.1 ?_ ?_ <;> simp [St.setChild, hd.2.1]
  | exit c =>
    simp only [step] at hs
    split at hs <;> cases hs
    rename_i hd
    have h1 : Inv (s.setChild c { s.children c with exited := true }) :=
      inv_setChild h c rfl id fun hd' => absurd (hd.2.1.symm.trans hd') (by decide)
    have h2 := inv_setProc h1 (s.children c).proc (x := { s.procs (s.children c).proc with child := none }) rfl id id
      fun _ => id
    refine inv_crashed h2 hd.1 ?_ ?_ <;> simp [St.setChild, St.setProc, hd.2.1]
  | spawn p =>
    simp only [step] at hs
    split at hs <;> cases hs
    rename_i hr
    obtain ⟨h1, h2, h3⟩ := h.restarting p hr
    have hp : Inv (s.setProc p { s.procs p with restarting := false }) := inv_setProc h p rfl id nofun fun _ => id
    refine inv_startProc hp h1 h3 (Or.inl ?_) ?_
    · simp [St.setProc, h2]
    · simp [St.setProc]

theorem inv {ncpus : Nat} (h : Reach (sys ncpus) Careful s) : Inv s := by
  refine h.inv (P := Inv) ?_ fun _ _ _ hi hc hs => step_inv hi hc hs
  rintro _ rfl
  exact init_inv ncpus

/-- In every run that takes care, each user has at most one engine running, in the process
    that `_engines` records. -/
theorem single_of_careful {ncpus : Nat} (h : Reach (sys ncpus) Careful s) : Single s :=
  single_of_inv (inv h)

/-- User 7 is started, in a shared process. -/
def startShared : List Ev :=
  [.ready 0, .ready 1, .call .startUser 7, .enter 0, .start 0 false, .attach 0, .handle 0, .ran 0, .finish 0]

theorem one_start_runs_one_engine :
    ∃ s, run (sys 1) (init 1) [.ready 0, .call .startUser 7, .enter 0, .start 0 false, .attach 0, .handle 0] = some s ∧
      runningIn s 0 7 = [⟨0, 7⟩] ∧ Single s := by
  have h1 := Reach.run (.init rfl : Reach (sys 1) Careful (init 1)) [.ready 0, .call .startUser 7, .enter 0]
    (by simp [Careful]) rfl
  have h2 := h1.step (.start 0 false) ?_ rfl
  · have h3 := h2.step (.attach 0) (by intro obj p _ call hc; cases hc) rfl
    have h4 := h3.run [.handle 0] (by simp [Careful]) rfl
    exact ⟨_, rfl, rfl, single_of_careful h4⟩
  · rintro op - (⟨i, obj, p, ⟨op', waits, ho, hp⟩, -⟩ | ⟨c, obj, hd, ho, -⟩)
    · match i with
      | 0 => cases ho; cases hp
      | _ + 1 => cases ho
    · cases ho

/-- Two starts of user 7: the second goes to the next shared process, and both engines run. -/
theorem two_starts_run_two_engines :
    ∃ s, run (sys 1) (init 1) (startShared ++
        [.call .startUser 7, .enter 1, .start 1 false, .attach 1, .handle 1]) = some s ∧
      runningIn s 0 7 = [⟨0, 7⟩] ∧ runningIn s 1 7 = [⟨1, 7⟩] ∧ ¬ Single s :=
  ⟨_, rfl, rfl, rfl, fun h => absurd ((h 7).2.1 0 1 nofun nofun) (by decide)⟩

/-- User 7 has a process of its own and is restarted: the new process runs its engine
    while the old one has not exited. -/
theorem restart_runs_beside_the_dying_process :
    ∃ s, run (sys 1) (init 1)
        [.call .startUser 7, .enter 0, .start 0 true, .ready 2, .attach 0, .handle 2, .ran 0, .finish 0,
          .call .restartUser 7, .enter 1, .kill 1, .start 1 true, .ready 3, .attach 1, .handle 3] = some s ∧
      runningIn s 2 7 = [⟨0, 7⟩] ∧ runningIn s 3 7 = [⟨1, 7⟩] ∧ ¬ Single s := by
  have hrun : ((run (sys 1) (init 1)
      [.call .startUser 7, .enter 0, .start 0 true, .ready 2, .attach 0, .handle 2, .ran 0, .finish 0,
        .call .restartUser 7, .enter 1, .kill 1, .start 1 true, .ready 3, .attach 1, .handle 3]).any fun s =>
      decide (runningIn s 2 7 = [⟨0, 7⟩] ∧ runningIn s 3 7 = [⟨1, 7⟩])) = true := rfl
  obtain ⟨s, hs, hboth⟩ := (Option.any_eq_true _ _).mp hrun
  obtain ⟨h2, h3⟩ := of_decide_eq_true hboth
  refine ⟨s, hs, h2, h3, fun h => ?_⟩
  have hsame : (2 : Nat) = 3 := (h 7).2.1 2 3 (by rw [h2]; nofun) (by rw [h3]; nofun)
  cases hsame

end GenieCloud.Almond.SingleEngine
