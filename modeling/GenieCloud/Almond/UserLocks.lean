/-
  GenieCloud.Almond.UserLocks — the per-user locks of `EngineManager`
  (`almond/enginemanager.ts`: `_lockUser` and the seven operations that hold it).

  An operation calls `_lockUser`, which finds or makes the user's lock in `_locks` and
  takes a turn on it; the operation is inside from the return of that call to its
  `releaseLock`. `deleteUser` also deletes the user's entry of `_locks` when it releases,
  whoever is still queued on the lock behind it.

  `exclusive_iff_none_queued`: as long as no `deleteUser` releases with another operation
  of the user queued, at most one operation of each user is inside; and from a release
  that breaks this, a newcomer takes a fresh lock and goes inside together with the next
  of the queue (`start_runs_beside_the_queued_kill`).
-/

import GenieCloud.Lib.Runs
import GenieCloud.Util.Lock

namespace GenieCloud.Almond.UserLocks

open GenieCloud.Lib.Runs GenieCloud.Util

inductive Kind where
  | startUser
  | killUser
  | restartUser
  | restartUserWithoutCache
  | clearCache
  | deleteUser
  | sendSocket
  deriving DecidableEq, Repr

inductive Phase where
  | queued
  | inside
  | done
  deriving DecidableEq, Repr

structure Op where
  kind : Kind
  user : Nat
  /-- The lock it called `acquire` on, and its turn there. -/
  lock : Nat
  turn : Nat
  phase : Phase
  deriving DecidableEq, Repr

structure St where
  /-- `_locks`: by user id, the lock's place in `heap`. -/
  locks : Nat → Option Nat
  heap : Nat → Lock
  next : Nat
  /-- Every call so far, oldest first. -/
  ops : List Op

def init : St := ⟨fun _ => none, fun _ => [], 0, []⟩

inductive Ev where
  | call (kind : Kind) (user : Nat)
  /-- `_lockUser` returns to the `i`th call. -/
  | enter (i : Nat)
  /-- The `i`th call releases the lock. -/
  | release (i : Nat)
  deriving DecidableEq, Repr

/-- The user's lock, made if there is none. -/
def findLock (s : St) (user : Nat) : St × Nat :=
  match s.locks user with
  | some lock => (s, lock)
  | none => ({ s with locks := Function.update s.locks user (some s.next), next := s.next + 1 }, s.next)

def lockUser (kind : Kind) (s : St) (user : Nat) : St :=
  let (s, lock) := findLock s user
  let (turn, l) := Lock.acquire (s.heap lock)
  { s with heap := Function.update s.heap lock l, ops := s.ops ++ [⟨kind, user, lock, turn, .queued⟩] }

def releaseLock (s : St) (i : Nat) (op : Op) : St :=
  { s with
    heap := Function.update s.heap op.lock (Lock.unlockCallback (s.heap op.lock) op.turn)
    locks := if op.kind = .deleteUser then Function.update s.locks op.user none else s.locks
    ops := s.ops.set i { op with phase := .done } }

def step (s : St) : Ev → Option St
  | .call kind user => some (lockUser kind s user)
  | .enter i =>
    match s.ops[i]? with
    | none => none
    | some op =>
      if op.phase = .queued ∧ Lock.Granted (s.heap op.lock) op.turn then
        some { s with ops := s.ops.set i { op with phase := .inside } }
      else none
  | .release i =>
    match s.ops[i]? with
    | none => none
    | some op => if op.phase = .inside then some (releaseLock s i op) else none

def sys : System St Ev where
  init s := s = init
  step := step

/-- No two calls of one user are inside. -/
def Exclusive (s : St) : Prop :=
  ∀ (i j : Nat) (a b : Op), s.ops[i]? = some a → s.ops[j]? = some b → a.user = b.user → a.phase = .inside →
    b.phase = .inside → i = j

/-- The event is no release of a `deleteUser` with another call of the user queued. -/
def NoneQueued (s : St) : Ev → Prop
  | .release i => ∀ op, s.ops[i]? = some op → op.kind = .deleteUser →
      ∀ (j : Nat) (q : Op), s.ops[j]? = some q → q.user = op.user → q.phase ≠ .queued
  | _ => True

/-! ## The invariants -/

/-- What holds in every run: each call has a turn of its own on its lock, open until it is done. -/
structure Turns (s : St) : Prop where
  fresh : ∀ lock, s.next ≤ lock → s.heap lock = []
  known : ∀ user lock, s.locks user = some lock → lock < s.next
  owner : ∀ u v lock, s.locks u = some lock → s.locks v = some lock → u = v
  open_ : ∀ (i : Nat) (op : Op), s.ops[i]? = some op → op.phase ≠ .done → (s.heap op.lock)[op.turn]? = some false
  granted : ∀ (i : Nat) (op : Op), s.ops[i]? = some op → op.phase = .inside → Lock.Granted (s.heap op.lock) op.turn
  taken : ∀ (i : Nat) (op : Op), s.ops[i]? = some op → op.turn < (s.heap op.lock).length
  distinct : ∀ (i j : Nat) (a b : Op), s.ops[i]? = some a → s.ops[j]? = some b → a.lock = b.lock →
    a.turn = b.turn → i = j
  held : ∀ (lock turn : Nat), (s.heap lock)[turn]? = some false →
    ∃ (i : Nat) (op : Op), s.ops[i]? = some op ∧ op.lock = lock ∧ op.turn = turn ∧ op.phase ≠ .done

/-- Every call not done yet is on its user's current lock. -/
def Current (s : St) : Prop :=
  ∀ (i : Nat) (op : Op), s.ops[i]? = some op → op.phase ≠ .done → s.locks op.user = some op.lock

theorem inside_ne_done {op : Op} (h : op.phase = .inside) : op.phase ≠ .done := by rw [h]; nofun

theorem exclusive_of_current {s : St} (h : Turns s) (hc : Current s) : Exclusive s := by
  intro i j a b ha hb hu hai hbi
  have hl : a.lock = b.lock := by
    have h1 := hc i a ha (inside_ne_done hai)
    have h2 := hc j b hb (inside_ne_done hbi)
    rw [hu, h2] at h1
    exact (Option.some.inj h1).symm
  refine h.distinct i j a b ha hb hl ?_
  exact Lock.granted_unique (h.granted i a ha hai) (hl ▸ h.granted j b hb hbi) (h.open_ i a ha (inside_ne_done hai))
    (hl ▸ h.open_ j b hb (inside_ne_done hbi))

theorem init_turns : Turns init := by
  refine ⟨fun _ _ => rfl, ?_, ?_, ?_, ?_, ?_, ?_, ?_⟩ <;> intros <;> simp_all [init]

theorem init_current : Current init := by
  intro i op h
  simp [init] at h

variable {s s' : St}

/-! ## Calling -/

theorem findLock_same (s : St) (user : Nat) : (findLock s user).1.ops = s.ops ∧ (findLock s user).1.heap = s.heap ∧
    (findLock s user).1.locks user = some (findLock s user).2 := by
  unfold findLock
  cases h : s.locks user with
  | some lock => exact ⟨rfl, rfl, h⟩
  | none => exact ⟨rfl, rfl, Function.update_self ..⟩

theorem findLock_turns (h : Turns s) (user : Nat) : Turns (findLock s user).1 := by
  unfold findLock
  cases hl : s.locks user with
  | some lock => exact h
  | none =>
    refine ⟨fun lock hle => h.fresh lock (by have : s.next + 1 ≤ lock := hle; omega), fun v lock hv => ?_,
      fun u v lock hu hv => ?_, h.open_, h.granted, h.taken, h.distinct, h.held⟩
    · simp only [Function.update_apply] at hv
      split at hv
      · cases hv; exact Nat.lt_succ_self _
      · exact Nat.lt_succ_of_lt (h.known v lock hv)
    · simp only [Function.update_apply] at hu hv
      split at hu <;> split at hv
      · rename_i h1 h2; rw [h1, h2]
      · cases hu; exact absurd (h.known v _ hv) (Nat.lt_irrefl _)
      · cases hv; exact absurd (h.known u _ hu) (Nat.lt_irrefl _)
      · exact h.owner u v lock hu hv

theorem findLock_current (h : Current s) (user : Nat) : Current (findLock s user).1 := by
  unfold findLock
  cases hl : s.locks user with
  | some lock => exact h
  | none =>
    intro i op hi hp
    have hk := h i op hi hp
    have hne : op.user ≠ user := fun he => by rw [he, hl] at hk; cases hk
    simp only [Function.update_of_ne hne]
    exact hk

theorem getElem?_call {ops : List Op} {op a : Op} {j : Nat} (h : (ops ++ [op])[j]? = some a) :
    ops[j]? = some a ∨ j = ops.length ∧ a = op := by
  rw [List.getElem?_append] at h
  split at h
  · exact Or.inl h
  · rename_i hlt
    rcases Nat.eq_or_lt_of_not_lt hlt with rfl | hne
    · simp at h; exact Or.inr ⟨rfl, h.symm⟩
    · rw [List.getElem?_eq_none (by simp; omega)] at h; cases h

theorem heap_acquire (s : St) (lock lock' turn : Nat) :
    (Function.update s.heap lock (Lock.acquire (s.heap lock)).2 lock')[turn]? =
      if lock' = lock ∧ turn = (s.heap lock).length then some false else (s.heap lock')[turn]? := by
  rw [Function.update_apply]
  by_cases h : lock' = lock
  · subst h
    rw [if_pos rfl, Lock.getElem?_acquire]
    simp only [true_and]
  · rw [if_neg h, if_neg fun hc => h hc.1]

theorem length_acquire_le (s : St) (lock lock' : Nat) :
    (s.heap lock').length ≤ (Function.update s.heap lock (Lock.acquire (s.heap lock)).2 lock').length := by
  rw [Function.update_apply]
  split
  · rename_i h; subst h; simp [Lock.acquire]
  · exact Nat.le_refl _

theorem acquire_turns (h : Turns s) {user lock : Nat} (hl : s.locks user = some lock) (kind : Kind) :
    Turns { s with
      heap := Function.update s.heap lock (Lock.acquire (s.heap lock)).2
      ops := s.ops ++ [⟨kind, user, lock, (s.heap lock).length, .queued⟩] } := by
  have hlt := h.known user lock hl
  have lenEq : (Function.update s.heap lock (Lock.acquire (s.heap lock)).2 lock).length = (s.heap lock).length + 1 := by
    simp [Lock.acquire]
  refine ⟨fun l hle => ?_, h.known, h.owner, fun i op hi hp => ?_, fun i op hi hp => ?_, fun i op hi => ?_,
    fun i j a b ha hb hab ht => ?_, fun l t hf => ?_⟩
  · have hne : l ≠ lock := by rintro rfl; exact absurd hlt (by have : s.next ≤ l := hle; omega)
    simp only [Function.update_of_ne hne]
    exact h.fresh l hle
  · show (Function.update s.heap lock _ op.lock)[op.turn]? = some false
    rw [heap_acquire]
    split
    · rfl
    · rename_i hne
      rcases getElem?_call hi with hi | ⟨-, rfl⟩
      · exact h.open_ i op hi hp
      · exact absurd ⟨rfl, rfl⟩ hne
  · rcases getElem?_call hi with hi | ⟨-, rfl⟩
    · intro j hj
      show (Function.update s.heap lock _ op.lock)[j]? = some true
      have := h.taken i op hi
      rw [heap_acquire, if_neg (by rintro ⟨he, rfl⟩; rw [he] at this; omega)]
      exact h.granted i op hi hp j hj
    · cases hp
  · rcases getElem?_call hi with hi | ⟨-, rfl⟩
    · exact Nat.lt_of_lt_of_le (h.taken i op hi) (length_acquire_le s lock op.lock)
    · show (s.heap lock).length < (Function.update s.heap lock _ lock).length
      omega
  · rcases getElem?_call ha with ha | ⟨rfl, rfl⟩ <;> rcases getElem?_call hb with hb | ⟨rfl, rfl⟩
    · exact h.distinct i j a b ha hb hab ht
    · have := h.taken i a ha
      rw [hab, ht] at this
      exact absurd this (Nat.lt_irrefl _)
    · have := h.taken j b hb
      rw [← hab, ← ht] at this
      exact absurd this (Nat.lt_irrefl _)
    · rfl
  · have hf : (Function.update s.heap lock (Lock.acquire (s.heap lock)).2 l)[t]? = some false := hf
    rw [heap_acquire] at hf
    split at hf
    · rename_i he
      refine ⟨s.ops.length, ⟨kind, user, lock, (s.heap lock).length, .queued⟩, by simp, he.1.symm, he.2.symm, ?_⟩
      intro hq
      cases hq
    · obtain ⟨i, op, hi, h1, h2, h3⟩ := h.held l t hf
      refine ⟨i, op, ?_, h1, h2, h3⟩
      rw [List.getElem?_append_left (List.getElem?_eq_some_iff.mp hi).1]; exact hi

theorem lockUser_turns (h : Turns s) (kind : Kind) (user : Nat) : Turns (lockUser kind s user) :=
  acquire_turns (findLock_turns h user) (findLock_same s user).2.2 kind

theorem lockUser_current (h : Current s) (kind : Kind) (user : Nat) : Current (lockUser kind s user) := by
  intro i op hi hp
  rcases getElem?_call hi with hi | ⟨-, rfl⟩
  · exact findLock_current h user i op hi hp
  · exact (findLock_same s user).2.2

/-! ## Entering and releasing -/

theorem getElem?_phase {ops : List Op} {i j : Nat} {op a : Op} {p : Phase}
    (h : (ops.set i { op with phase := p })[j]? = some a) :
    j = i ∧ a = { op with phase := p } ∨ j ≠ i ∧ ops[j]? = some a := by
  rw [List.getElem?_set] at h
  split at h
  · rename_i he
    split at h
    · cases h; exact Or.inl ⟨he.symm, rfl⟩
    · cases h
  · rename_i he
    exact Or.inr ⟨Ne.symm he, h⟩

theorem enter_turns (h : Turns s) {i : Nat} {op : Op} (hi : s.ops[i]? = some op) (hq : op.phase = .queued)
    (hg : Lock.Granted (s.heap op.lock) op.turn) :
    Turns { s with ops := s.ops.set i { op with phase := .inside } } := by
  have hnd : op.phase ≠ .done := by rw [hq]; nofun
  -- each call is where it was, up to its phase
  have was : ∀ {j : Nat} {a : Op}, (s.ops.set i { op with phase := .inside })[j]? = some a →
      ∃ b : Op, s.ops[j]? = some b ∧ b.lock = a.lock ∧ b.turn = a.turn ∧ (a.phase ≠ .done → b.phase ≠ .done) := by
    intro j a ha
    rcases getElem?_phase ha with ⟨rfl, rfl⟩ | ⟨-, ha⟩
    · exact ⟨op, hi, rfl, rfl, fun _ => hnd⟩
    · exact ⟨a, ha, rfl, rfl, id⟩
  refine ⟨h.fresh, h.known, h.owner, fun j a ha hp => ?_, fun j a ha hp => ?_, fun j a ha => ?_,
    fun j k a b ha hb hab ht => ?_, fun l t hf => ?_⟩
  · obtain ⟨b, hb, h1, h2, h3⟩ := was ha
    exact h1 ▸ h2 ▸ h.open_ j b hb (h3 hp)
  · rcases getElem?_phase ha with ⟨-, rfl⟩ | ⟨-, ha⟩
    · exact hg
    · exact h.granted j a ha hp
  · obtain ⟨b, hb, h1, h2, -⟩ := was ha
    exact h1 ▸ h2 ▸ h.taken j b hb
  · obtain ⟨a', ha', h1, h2, -⟩ := was ha
    obtain ⟨b', hb', g1, g2, -⟩ := was hb
    exact h.distinct j k a' b' ha' hb' (by rw [h1, g1, hab]) (by rw [h2, g2, ht])
  · obtain ⟨j, a, ha, h1, h2, h3⟩ := h.held l t hf
    by_cases he : j = i
    · subst he
      rw [hi] at ha; cases ha
      refine ⟨j, { op with phase := .inside }, ?_, h1, h2, nofun⟩
      rw [List.getElem?_set_self (List.getElem?_eq_some_iff.mp hi).1]
    · exact ⟨j, a, by rw [List.getElem?_set_ne (Ne.symm he)]; exact ha, h1, h2, h3⟩

theorem heap_unlock (h : Turns s) {i : Nat} {op : Op} (hi : s.ops[i]? = some op) (lock turn : Nat) :
    (Function.update s.heap op.lock (Lock.unlockCallback (s.heap op.lock) op.turn) lock)[turn]? =
      if lock = op.lock ∧ turn = op.turn then some true else (s.heap lock)[turn]? := by
  rw [Function.update_apply]
  by_cases hl : lock = op.lock
  · subst hl
    rw [if_pos rfl, Lock.getElem?_unlock (h.taken i op hi)]
    simp only [true_and]
  · rw [if_neg hl, if_neg fun hc => hl hc.1]

theorem lock_lt_next (h : Turns s) {i : Nat} {op : Op} (hi : s.ops[i]? = some op) : op.lock < s.next := by
  by_contra hle
  have := h.taken i op hi
  rw [h.fresh op.lock (by omega)] at this
  cases this

theorem releaseLock_locks {op : Op} {i v lock : Nat} (h : (releaseLock s i op).locks v = some lock) :
    s.locks v = some lock := by
  unfold releaseLock at h
  simp only at h
  split at h
  · rw [Function.update_apply] at h
    split at h
    · cases h
    · exact h
  · exact h

theorem release_turns (h : Turns s) {i : Nat} {op : Op} (hi : s.ops[i]? = some op) : Turns (releaseLock s i op) := by
  -- a call that is not done after the release is another call, untouched
  have other : ∀ {j : Nat} {a : Op}, (releaseLock s i op).ops[j]? = some a → a.phase ≠ .done →
      s.ops[j]? = some a ∧ ¬ (a.lock = op.lock ∧ a.turn = op.turn) := by
    intro j a ha hp
    rcases getElem?_phase ha with ⟨-, rfl⟩ | ⟨hne, ha⟩
    · exact absurd rfl hp
    · exact ⟨ha, fun hc => hne (h.distinct j i a op ha hi hc.1 hc.2)⟩
  refine ⟨fun l hle => ?_, fun v l hv => h.known v l (releaseLock_locks hv),
    fun u v l hu hv => h.owner u v l (releaseLock_locks hu) (releaseLock_locks hv), fun j a ha hp => ?_,
    fun j a ha hp => ?_, fun j a ha => ?_, fun j k a b ha hb hab ht => ?_, fun l t hf => ?_⟩
  · have hlt := lock_lt_next h hi
    have hne : l ≠ op.lock := by rintro rfl; exact absurd hlt (by have : s.next ≤ op.lock := hle; omega)
    exact (Function.update_of_ne hne ..).trans (h.fresh l hle)
  · obtain ⟨ha', hne⟩ := other ha hp
    exact (heap_unlock h hi a.lock a.turn).trans ((if_neg hne).trans (h.open_ j a ha' hp))
  · obtain ⟨ha', -⟩ := other ha (inside_ne_done hp)
    intro k hk
    refine (heap_unlock h hi a.lock k).trans ?_
    split
    · rfl
    · exact h.granted j a ha' hp k hk
  · have hlen : ∀ l, ((releaseLock s i op).heap l).length = (s.heap l).length := by
      intro l
      simp only [releaseLock, Function.update_apply]
      split
      · rename_i he; rw [he, Lock.unlockCallback, List.length_set]
      · rfl
    rw [hlen]
    rcases getElem?_phase ha with ⟨-, rfl⟩ | ⟨-, ha⟩
    · exact h.taken i op hi
    · exact h.taken j a ha
  · rcases getElem?_phase ha with ⟨rfl, rfl⟩ | ⟨-, ha'⟩ <;> rcases getElem?_phase hb with ⟨rfl, rfl⟩ | ⟨-, hb'⟩
    · rfl
    · exact h.distinct j k op b hi hb' hab ht
    · exact h.distinct j k a op ha' hi hab ht
    · exact h.distinct j k a b ha' hb' hab ht
  · have hf := (heap_unlock h hi l t).symm.trans hf
    split at hf
    · cases hf
    · rename_i hne
      obtain ⟨j, a, ha, h1, h2, h3⟩ := h.held l t hf
      have hji : i ≠ j := by
        rintro rfl
        rw [hi] at ha; cases ha
        exact hne ⟨h1.symm, h2.symm⟩
      exact ⟨j, a, (List.getElem?_set_ne hji).trans ha, h1, h2, h3⟩

theorem release_current (h : Turns s) (hc : Current s) {i : Nat} {op : Op} (hi : s.ops[i]? = some op)
    (hp : op.phase = .inside) (hq : NoneQueued s (.release i)) : Current (releaseLock s i op) := by
  intro j a ha hnd
  rcases getElem?_phase ha with ⟨-, rfl⟩ | ⟨hne, ha⟩
  · exact absurd rfl hnd
  have hcur := hc j a ha hnd
  simp only [releaseLock]
  split
  · rename_i hk
    have hu : a.user ≠ op.user := by
      intro hu
      have hin : a.phase = .inside := by
        cases hph : a.phase with
        | queued => exact absurd hph (hq op hi hk j a ha hu)
        | inside => rfl
        | done => exact absurd hph hnd
      exact hne (exclusive_of_current h hc j i a op ha hi hu hin hp)
    rw [Function.update_of_ne hu]; exact hcur
  · exact hcur

/-! ## Runs -/

theorem step_cases {e : Ev} (hs : step s e = some s') :
    (∃ kind user, e = .call kind user ∧ s' = lockUser kind s user) ∨
    (∃ i op, e = .enter i ∧ s.ops[i]? = some op ∧ op.phase = .queued ∧ Lock.Granted (s.heap op.lock) op.turn ∧
      s' = { s with ops := s.ops.set i { op with phase := .inside } }) ∨
    (∃ i op, e = .release i ∧ s.ops[i]? = some op ∧ op.phase = .inside ∧ s' = releaseLock s i op) := by
  cases e with
  | call kind user => cases hs; exact Or.inl ⟨kind, user, rfl, rfl⟩
  | enter i =>
    simp only [step] at hs
    split at hs
    · cases hs
    · rename_i op hi
      split at hs
      · rename_i hc; cases hs; exact Or.inr (Or.inl ⟨i, op, rfl, hi, hc.1, hc.2, rfl⟩)
      · cases hs
  | release i =>
    simp only [step] at hs
    split at hs
    · cases hs
    · rename_i op hi
      split at hs
      · rename_i hc; cases hs; exact Or.inr (Or.inr ⟨i, op, rfl, hi, hc, rfl⟩)
      · cases hs

theorem step_turns {e : Ev} (h : Turns s) (hs : step s e = some s') : Turns s' := by
  rcases step_cases hs with ⟨kind, user, rfl, rfl⟩ | ⟨i, op, rfl, hi, hq, hg, rfl⟩ | ⟨i, op, rfl, hi, -, rfl⟩
  · exact lockUser_turns h kind user
  · exact enter_turns h hi hq hg
  · exact release_turns h hi

theorem step_current {e : Ev} (h : Turns s) (hc : Current s) (hn : NoneQueued s e) (hs : step s e = some s') :
    Current s' := by
  rcases step_cases hs with ⟨kind, user, rfl, rfl⟩ | ⟨i, op, rfl, hi, hq, hg, rfl⟩ | ⟨i, op, rfl, hi, hp, rfl⟩
  · exact lockUser_current hc kind user
  · intro j a ha hnd
    rcases getElem?_phase ha with ⟨-, rfl⟩ | ⟨-, ha⟩
    · exact hc i op hi (by rw [hq]; nofun)
    · exact hc j a ha hnd
  · exact release_current h hc hi hp hn

theorem inv (h : Reach sys NoneQueued s) : Turns s ∧ Current s := by
  refine h.inv (P := fun s => Turns s ∧ Current s) ?_ ?_
  · rintro _ rfl; exact ⟨init_turns, init_current⟩
  · exact fun _ _ _ hi hn hs => ⟨step_turns hi.1 hs, step_current hi.1 hi.2 hn hs⟩

theorem exclusive (h : Reach sys NoneQueued s) : Exclusive s :=
  exclusive_of_current (inv h).1 (inv h).2

theorem step_enter {i : Nat} {op : Op} (hi : s.ops[i]? = some op) (hq : op.phase = .queued)
    (hg : Lock.Granted (s.heap op.lock) op.turn) :
    step s (.enter i) = some { s with ops := s.ops.set i { op with phase := .inside } } := by
  simp only [step, hi]
  rw [if_pos ⟨hq, hg⟩]

/-- A newcomer to a user without a lock goes straight in, next to whoever is there. -/
theorem newcomer (h : Turns s) {user : Nat} (hn : s.locks user = none) :
    ∃ t, Path sys NoneQueued s t ∧ (∃ op, t.ops[s.ops.length]? = some op ∧ op.user = user ∧ op.phase = .inside) ∧
      (∀ (k : Nat) (r : Op), s.ops[k]? = some r → t.ops[k]? = some r) ∧ ∀ lock < s.next, t.heap lock = s.heap lock := by
  have hfresh := h.fresh s.next (Nat.le_refl _)
  let n : Op := ⟨.startUser, user, s.next, 0, .queued⟩
  let t : St := lockUser .startUser s user
  have hops : t.ops = s.ops ++ [n] := by
    simp only [t, lockUser, findLock, hn, Lock.acquire, hfresh]; rfl
  have hat : t.ops[s.ops.length]? = some n := by rw [hops]; simp
  have hent := step_enter hat rfl (fun _ hj => absurd hj (Nat.not_lt_zero _))
  refine ⟨_, .step (.enter s.ops.length) (.step (.call .startUser user) .refl trivial rfl) trivial hent,
    ⟨{ n with phase := .inside }, ?_, rfl, rfl⟩, fun k r hr => ?_, fun lock hlt => ?_⟩
  · exact List.getElem?_set_self (List.getElem?_eq_some_iff.mp hat).1
  · have hk := (List.getElem?_eq_some_iff.mp hr).1
    refine (List.getElem?_set_ne (by omega)).trans ?_
    rw [hops, List.getElem?_append_left hk]; exact hr
  · simp only [t, lockUser, findLock, hn]
    rw [Function.update_of_ne (by omega)]

/-- After a `deleteUser` releases with a call of the user queued, a newcomer and the next
    of the queue both get inside. -/
theorem breaks (h : Turns s) (hc : Current s) {i : Nat} {op : Op} (hi : s.ops[i]? = some op) (hp : op.phase = .inside)
    (hk : op.kind = .deleteUser) {j : Nat} {q : Op} (hj : s.ops[j]? = some q) (hu : q.user = op.user)
    (hq : q.phase = .queued) : ∃ t, Path sys NoneQueued (releaseLock s i op) t ∧ ¬ Exclusive t := by
  have hs := release_turns h hi
  have hqd : q.phase ≠ .done := by rw [hq]; nofun
  have hij : i ≠ j := by rintro rfl; rw [hi] at hj; cases hj; rw [hp] at hq; cases hq
  -- the oldest open turn of the old lock is granted, to some call `r` of the same user
  obtain ⟨m, hm, hg⟩ := Lock.exists_granted
    (hs.open_ j q ((List.getElem?_set_ne hij).trans hj) hqd)
  obtain ⟨k, r, hr, hrl, rfl, hrd⟩ := hs.held q.lock m hm
  rw [← hrl] at hg
  have hru : r.user = op.user := by
    rcases getElem?_phase hr with ⟨-, rfl⟩ | ⟨-, hr⟩
    · rfl
    · refine (h.owner r.user q.user q.lock ?_ (hc j q hj hqd)).trans hu
      rw [← hrl]; exact hc k r hr hrd
  have hnone : (releaseLock s i op).locks op.user = none := by simp [releaseLock, hk]
  obtain ⟨t, hpath, ⟨n, hn, hnu, hni⟩, hops, hheap⟩ := newcomer hs hnone
  have hne : k ≠ (releaseLock s i op).ops.length := Nat.ne_of_lt (List.getElem?_eq_some_iff.mp hr).1
  cases hrp : r.phase with
  | done => exact absurd hrp hrd
  | inside => exact ⟨t, hpath, fun hx => hne (hx k _ r n (hops k r hr) hn (hru.trans hnu.symm) hrp hni)⟩
  | queued =>
    have hgt : Lock.Granted (t.heap r.lock) r.turn := by
      rw [hheap r.lock (lock_lt_next hs hr)]; exact hg
    refine ⟨_, .step (.enter k) hpath trivial (step_enter (hops k r hr) hrp hgt), fun hx => hne ?_⟩
    refine hx k _ { r with phase := .inside } n ?_ ?_ (hru.trans hnu.symm) rfl hni
    · exact List.getElem?_set_self (List.getElem?_eq_some_iff.mp (hops k r hr)).1
    · exact (List.getElem?_set_ne hne).trans hn

/-- In a run where no `deleteUser` releases with another call of its user queued, at most
    one call of each user is inside; and the next event keeps it so in whatever follows
    exactly if it is no such release. -/
theorem exclusive_iff_none_queued (h : Reach sys NoneQueued s) :
    Exclusive s ∧ ∀ e s', sys.step s e = some s' →
      (NoneQueued s e ↔ ∀ t, Path sys NoneQueued s' t → Exclusive t) := by
  refine ⟨exclusive h, fun e s' hs => ⟨fun hn t hp => exclusive ((h.step e hn hs).path hp), fun hall => ?_⟩⟩
  by_contra hn
  rcases step_cases hs with ⟨kind, user, rfl, rfl⟩ | ⟨i, op, rfl, -⟩ | ⟨i, op, rfl, hi, hp, rfl⟩
  · exact hn trivial
  · exact hn trivial
  · obtain ⟨op', hi', hk, j, q, hj, hu, hq⟩ : ∃ op', s.ops[i]? = some op' ∧ op'.kind = .deleteUser ∧
        ∃ (j : Nat) (q : Op), s.ops[j]? = some q ∧ q.user = op'.user ∧ q.phase = .queued := by
      simpa [NoneQueued] using hn
    rw [hi] at hi'; cases hi'
    obtain ⟨t, ht, hx⟩ := breaks (inv h).1 (inv h).2 hi hp hk hj hu hq
    exact hx (hall t ht)

theorem start_runs_alone : ∃ s, run sys init [.call .startUser 1, .enter 0] = some s ∧ Exclusive s :=
  ⟨_, rfl, (exclusive_iff_none_queued
    (.step (.enter 0) (.step (.call .startUser 1) (.init rfl) trivial rfl) trivial rfl)).1⟩

/-- `killUser` queues behind `deleteUser` and goes inside when it releases, next to a
    `startUser` that arrived after the release. -/
theorem start_runs_beside_the_queued_kill :
    ∃ s, run sys init [.call .deleteUser 1, .enter 0, .call .killUser 1, .release 0, .call .startUser 1, .enter 2,
      .enter 1] = some s ∧ ¬ Exclusive s :=
  ⟨_, rfl, fun h => absurd (h 1 2 _ _ rfl rfl rfl rfl rfl) (by decide)⟩

end GenieCloud.Almond.UserLocks
