/-
  GenieCloud.Util.TimedCache — a map whose entries expire (`util/timed_cache.ts`).

  A finalizer is named, and calling it adds to `called`. A pending timer may fire at any
  time. The history of a run, newest event first, says what the cache should hold
  (`held`): the value of the most recent set of the key that was not deleted, cleared or
  expired since, its timer, and the finalizers of the sets that gave that value.

  `set` on a key that is there does not store the value it is given, and forgets the
  finalizer that the same value was set with before. As long as every set gives a key
  its own value back, with the finalizer it has or with its first one (`SetKeeps`), the
  cache holds what it should, and an event that takes values out calls their finalizers,
  each once, and no other (`holds_and_finalizes`). A set that does not is noticed at
  once or when the key is deleted (`set_breaks`).
-/

import GenieCloud.Lib.Assoc
import GenieCloud.Lib.Objects
import GenieCloud.Lib.Runs
import Mathlib.Data.List.Perm.Basic

namespace GenieCloud.Util

open GenieCloud.Lib GenieCloud.Lib.Assoc GenieCloud.Lib.Objects GenieCloud.Lib.Runs

variable {K V F : Type}

structure CacheNode (V F : Type) where
  value : V
  timeout : Option Nat
  finalizer : Option F
deriving DecidableEq

/-- The store and, outside of it, the timers that are set and have neither fired nor
    been cleared, with the key their callback deletes. -/
structure TimedCache (K V F : Type) where
  store : List (K × CacheNode V F) := []
  pending : Nat → Option K := fun _ => none
  nextTimer : Nat := 0
  called : List (F × V) := []

namespace TimedCache

def finalize (c : TimedCache K V F) (finalizer : Option F) (value : V) : TimedCache K V F :=
  { c with called := c.called ++ finalizer.toList.map (·, value) }

def clearTimeout (c : TimedCache K V F) : Option Nat → TimedCache K V F
  | none => c
  | some timer => { c with pending := Function.update c.pending timer none }

/-- `setTimeout(() => this.delete(key), timeout)`, unless the timeout is null. -/
def setTimeout (c : TimedCache K V F) (key : K) : Option Nat → Option Nat × TimedCache K V F
  | none => (none, c)
  | some _ => (some c.nextTimer,
      { c with pending := Function.update c.pending c.nextTimer (some key), nextTimer := c.nextTimer + 1 })

/-- The loop of `clear`. -/
def clearAll (c : TimedCache K V F) (nodes : List (K × CacheNode V F)) : TimedCache K V F :=
  nodes.foldl (fun c obj => (c.clearTimeout obj.2.timeout).finalize obj.2.finalizer obj.2.value) c

section Timers

variable {c : TimedCache K V F} {k : K} {timer : Nat}

def clearing (pending : Nat → Option K) : Option Nat → Nat → Option K
  | none => pending
  | some timer => Function.update pending timer none

theorem clearTimeout_eq (c : TimedCache K V F) (t : Option Nat) :
    c.clearTimeout t = { c with pending := clearing c.pending t } := by
  cases t <;> rfl

theorem clearing_some {pending : Nat → Option K} {t : Option Nat} :
    clearing pending t timer = some k ↔ pending timer = some k ∧ t ≠ some timer := by
  cases t with
  | none => simp [clearing]
  | some t =>
    rw [clearing, removed_eq_some, and_comm, ne_comm, ne_eq, ne_eq, Option.some.injEq]

theorem clearAll_called (c : TimedCache K V F) (nodes : List (K × CacheNode V F)) :
    (c.clearAll nodes).called = c.called ++ nodes.flatMap fun e => e.2.finalizer.toList.map (·, e.2.value) := by
  unfold clearAll
  induction nodes generalizing c with
  | nil => simp
  | cons e nodes ih =>
    rw [List.foldl_cons, ih, clearTimeout_eq]
    simp [finalize]

theorem clearAll_nextTimer (c : TimedCache K V F) (nodes : List (K × CacheNode V F)) :
    (c.clearAll nodes).nextTimer = c.nextTimer := by
  unfold clearAll
  induction nodes generalizing c with
  | nil => rfl
  | cons e nodes ih =>
    rw [List.foldl_cons, ih, clearTimeout_eq]
    rfl

theorem clearAll_pending {nodes : List (K × CacheNode V F)} (h : (c.clearAll nodes).pending timer = some k) :
    c.pending timer = some k ∧ ∀ e ∈ nodes, e.2.timeout ≠ some timer := by
  unfold clearAll at h
  induction nodes generalizing c with
  | nil => exact ⟨h, by simp⟩
  | cons e nodes ih =>
    rw [List.foldl_cons] at h
    obtain ⟨h1, h2⟩ := ih h
    rw [clearTimeout_eq] at h1
    obtain ⟨h4, h5⟩ := clearing_some.mp h1
    exact ⟨h4, List.forall_mem_cons.mpr ⟨h5, h2⟩⟩

theorem setTimeout_eq (c : TimedCache K V F) (key : K) (timeout : Option Nat) :
    c.setTimeout key timeout = (timeout.map fun _ => c.nextTimer,
      { c with
        pending := timeout.elim c.pending fun _ => Function.update c.pending c.nextTimer (some key)
        nextTimer := c.nextTimer + timeout.toList.length }) := by
  cases timeout <;> rfl

end Timers

variable [DecidableEq K]

def get (c : TimedCache K V F) (key : K) : Option V := (find c.store key).map (·.value)

def has (c : TimedCache K V F) (key : K) : Bool := (find c.store key).isSome

def clear (c : TimedCache K V F) : TimedCache K V F := { c.clearAll c.store with store := [] }

def delete (c : TimedCache K V F) (key : K) : Bool × TimedCache K V F :=
  match find c.store key with
  | none => (false, c)
  | some obj =>
    let c := (c.clearTimeout obj.timeout).finalize obj.finalizer obj.value
    (true, { c with store := remove c.store key })

section Delete

variable {c : TimedCache K V F} {key : K} {n : CacheNode V F}

theorem delete_some (hf : find c.store key = some n) :
    (c.delete key).2 = { c with
      store := remove c.store key
      pending := clearing c.pending n.timeout
      called := c.called ++ n.finalizer.toList.map (·, n.value) } := by
  unfold delete
  simp only [hf, clearTimeout_eq]
  rfl

theorem delete_none (hf : find c.store key = none) : (c.delete key).2 = c := by
  unfold delete
  rw [hf]

end Delete

def set [DecidableEq V] (c : TimedCache K V F) (key : K) (value : V) (timeout : Option Nat) (finalizer : Option F) :
    TimedCache K V F :=
  match find c.store key with
  | some existing =>
    let c := if existing.value ≠ value then c.finalize existing.finalizer existing.value else c
    let c := c.clearTimeout existing.timeout
    let (timer, c) := c.setTimeout key timeout
    -- the node keeps its value
    { c with store := put c.store key { existing with finalizer := finalizer, timeout := timer } }
  | none =>
    let (timer, c) := c.setTimeout key timeout
    { c with store := add c.store key { value := value, finalizer := finalizer, timeout := timer } }

/-- A pending timer fires. -/
def expire (c : TimedCache K V F) (timer : Nat) : Option (TimedCache K V F) :=
  (c.pending timer).map fun key => (delete { c with pending := Function.update c.pending timer none } key).2

variable [DecidableEq V]

inductive Ev (K V F : Type)
  | set (key : K) (value : V) (timeout : Option Nat) (finalizer : Option F)
  | delete (key : K)
  | clear
  | expire (timer : Nat)

def step (c : TimedCache K V F) : Ev K V F → Option (TimedCache K V F)
  | .set key value timeout finalizer => some (c.set key value timeout finalizer)
  | .delete key => some (c.delete key).2
  | .clear => some c.clear
  | .expire timer => c.expire timer

/-! ## What a history asks for -/

/-- What is to be kept for a key: its value, the timer that expires it, and the
    finalizers of the sets that gave it. -/
structure Held (V F : Type) where
  value : V
  timer : Option Nat
  finalizers : List F

/-- The timers a history has started, newest event first. -/
def timersOf : List (Ev K V F) → Nat
  | [] => 0
  | .set _ _ (some _) _ :: h => timersOf h + 1
  | _ :: h => timersOf h

omit [DecidableEq K] [DecidableEq V] in
theorem timersOf_set (h : List (Ev K V F)) (key : K) (value : V) (timeout : Option Nat) (finalizer : Option F) :
    timersOf (.set key value timeout finalizer :: h) = timersOf h + timeout.toList.length := by
  cases timeout <;> rfl

variable [DecidableEq F]

def held : List (Ev K V F) → K → Option (Held V F)
  | [], _ => none
  | .set key value timeout finalizer :: h, k =>
    if key = k then
      some {
        value := value
        timer := timeout.map fun _ => timersOf h
        finalizers := match held h k with
          | some x => if x.value = value then finalizer.toList ∪ x.finalizers else finalizer.toList
          | none => finalizer.toList }
    else held h k
  | .delete key :: h, k => if key = k then none else held h k
  | .clear :: _, _ => none
  | .expire timer :: h, k => (held h k).filter (·.timer ≠ some timer)

/-- The event takes the value of a key away. -/
def Leaves (h : List (Ev K V F)) (e : Ev K V F) (k : K) : Prop :=
  ∃ x, held h k = some x ∧ (held (e :: h) k).map (·.value) ≠ some x.value

/-- The calls that are due when a key loses its value. -/
def due (h : List (Ev K V F)) (k : K) : List (F × V) :=
  match held h k with
  | none => []
  | some x => x.finalizers.map (·, x.value)

/-- The calls are those due to the keys that lose their values, each once. -/
def CallsDue (h : List (Ev K V F)) (e : Ev K V F) (calls : List (F × V)) : Prop :=
  ∃ ks : List K, ks.Nodup ∧ (∀ k, k ∈ ks ↔ Leaves h e k) ∧ calls.Perm (ks.flatMap (due h))

/-! ## Runs -/

/-- The cache and the history so far. -/
structure St (K V F : Type) where
  cache : TimedCache K V F
  history : List (Ev K V F)

def sys (K V F : Type) [DecidableEq K] [DecidableEq V] : System (St K V F) (Ev K V F) where
  init s := s = { cache := {}, history := [] }
  step s e := (s.cache.step e).map fun c => { cache := c, history := e :: s.history }

/-- A set of a key that is there gives the value it has, and the finalizer it has unless
    it has none. -/
def SetKeeps (s : St K V F) : Ev K V F → Prop
  | .set key value _ finalizer => ∀ obj, find s.cache.store key = some obj →
      obj.value = value ∧ (obj.finalizer = none ∨ obj.finalizer = finalizer)
  | _ => True

/-! ## The cache under sets that keep -/

def heldBy (n : CacheNode V F) : Held V F :=
  { value := n.value, timer := n.timeout, finalizers := n.finalizer.toList }

structure Inv (s : St K V F) : Prop where
  keyed : Keyed s.cache.store
  held : ∀ k, held s.history k = (find s.cache.store k).map heldBy
  pending : ∀ timer k, s.cache.pending timer = some k ↔
    ∃ n, find s.cache.store k = some n ∧ n.timeout = some timer
  timers : s.cache.nextTimer = timersOf s.history
  fresh : ∀ timer k, s.cache.pending timer = some k → timer < s.cache.nextTimer

variable {s t : St K V F} {e : Ev K V F}

theorem Inv.get_eq (hi : Inv s) (k : K) : s.cache.get k = (TimedCache.held s.history k).map (·.value) := by
  rw [hi.held, get, Option.map_map]
  rfl

/-- What a step made of the cache and which calls it made. -/
structure Exact (s t : St K V F) (e : Ev K V F) : Prop where
  inv : Inv t
  calls : ∃ calls, t.cache.called = s.cache.called ++ calls ∧ CallsDue s.history e calls

/-- The timers left when the one of a key is cleared. -/
theorem Inv.pending_others (hi : Inv s) {key : K} {old : Option (CacheNode V F)} (hold : find s.cache.store key = old)
    (timer : Nat) (k : K) : clearing s.cache.pending (old.bind (·.timeout)) timer = some k ↔
      key ≠ k ∧ ∃ n, find s.cache.store k = some n ∧ n.timeout = some timer := by
  rw [clearing_some, ← hi.pending]
  constructor
  · rintro ⟨hp, hne⟩
    refine ⟨?_, hp⟩
    rintro rfl
    obtain ⟨n, hf, ht⟩ := (hi.pending timer key).mp hp
    rw [← hold, hf] at hne
    exact hne ht
  · rintro ⟨hk, hp⟩
    refine ⟨hp, fun ht => hk ?_⟩
    obtain ⟨n, hn, ht⟩ := Option.bind_eq_some_iff.mp ht
    exact Option.some.inj (((hi.pending timer key).mpr ⟨n, hold.trans hn, ht⟩).symm.trans hp)

/-- A key goes, by `delete` or by its timer. -/
theorem Inv.removed (hi : Inv s) {key : K} {n : CacheNode V F} (hf : find s.cache.store key = some n)
    (hheld : ∀ k, TimedCache.held (e :: s.history) k = if key = k then none else TimedCache.held s.history k)
    (htimers : timersOf (e :: s.history) = timersOf s.history) :
    Exact s { cache := (s.cache.delete key).2, history := e :: s.history } e := by
  have hd := delete_some hf
  have hkey : TimedCache.held s.history key = some (heldBy n) := by
    rw [hi.held, hf]
    rfl
  refine ⟨⟨?_, fun k => ?_, fun timer k => ?_, ?_, fun timer k hp => ?_⟩, _, by rw [hd], [key], List.nodup_singleton _,
    fun k => ?_, ?_⟩
  · rw [hd]
    exact hi.keyed.remove
  · rw [hd, hheld, hi.held]
    show _ = (find (remove s.cache.store key) k).map _
    rw [find_remove]
    split <;> rfl
  · rw [hd]
    show clearing s.cache.pending n.timeout timer = some k ↔ ∃ n', find (remove s.cache.store key) k = some n' ∧ _
    rw [find_remove]
    refine (hi.pending_others hf timer k).trans ⟨?_, ?_⟩
    · rintro ⟨hk, hn⟩
      rw [if_neg hk]
      exact hn
    · rintro ⟨n', hf', ht'⟩
      split at hf'
      · cases hf'
      · rename_i hk
        exact ⟨hk, n', hf', ht'⟩
  · rw [hd, htimers]
    exact hi.timers
  · rw [hd] at hp ⊢
    exact hi.fresh timer k (clearing_some.mp hp).1
  · rw [List.mem_singleton]
    constructor
    · rintro rfl
      refine ⟨(heldBy n), hkey, ?_⟩
      rw [hheld, if_pos rfl]
      exact (Option.some_ne_none _).symm
    · rintro ⟨x, hx, hne⟩
      by_cases hk : key = k
      · exact hk.symm
      · rw [hheld, if_neg hk, hx] at hne
        exact absurd rfl hne
  · simp only [List.flatMap_cons, List.flatMap_nil, List.append_nil, due, hkey]
    exact List.Perm.refl _

/-- Nothing changes for any key. -/
theorem Inv.idle (hi : Inv s) (hheld : TimedCache.held (e :: s.history) = TimedCache.held s.history)
    (htimers : timersOf (e :: s.history) = timersOf s.history) :
    Exact s { cache := s.cache, history := e :: s.history } e := by
  refine ⟨⟨hi.keyed, fun k => ?_, hi.pending, ?_, hi.fresh⟩, [], by simp, [], List.nodup_nil, fun k => ?_, by simp⟩
  · rw [hheld]
    exact hi.held k
  · rw [htimers]
    exact hi.timers
  · constructor
    · intro h
      cases h
    · rintro ⟨x, hx, hne⟩
      rw [hheld, hx] at hne
      exact absurd rfl hne

theorem Inv.delete (hi : Inv s) (key : K) :
    Exact s { cache := (s.cache.delete key).2, history := .delete key :: s.history } (.delete key) := by
  cases hf : find s.cache.store key with
  | some n => exact hi.removed hf (fun _ => rfl) rfl
  | none =>
    rw [delete_none hf]
    refine hi.idle (funext fun k => ?_) rfl
    show (if key = k then none else TimedCache.held s.history k) = _
    split
    · rename_i hk
      subst hk
      rw [hi.held, hf]
      rfl
    · rfl

/-- Only the key whose timer fires expires. -/
theorem Inv.expire (hi : Inv s) {timer : Nat} {c : TimedCache K V F} (hx : s.cache.expire timer = some c) :
    Exact s { cache := c, history := .expire timer :: s.history } (.expire timer) := by
  obtain ⟨key, hp, rfl⟩ := Option.map_eq_some_iff.mp hx
  obtain ⟨n, hf, ht⟩ := (hi.pending timer key).mp hp
  have hsame : (TimedCache.delete { s.cache with pending := Function.update s.cache.pending timer none } key).2 =
      (s.cache.delete key).2 := by
    rw [delete_some (c := { s.cache with pending := Function.update s.cache.pending timer none }) hf, delete_some hf, ht]
    simp [clearing]
  rw [hsame]
  refine hi.removed hf (fun k => ?_) rfl
  show (TimedCache.held s.history k).filter _ = _
  by_cases hk : key = k
  · subst hk
    rw [if_pos rfl, hi.held, hf]
    simp [heldBy, ht]
  · rw [if_neg hk, hi.held]
    cases hf' : find s.cache.store k with
    | none => rfl
    | some n' =>
      have ht' : n'.timeout ≠ some timer := fun ht' =>
        hk (Option.some.inj (hp.symm.trans ((hi.pending timer k).mpr ⟨n', hf', ht'⟩)))
      simp [heldBy, ht']

theorem Inv.clear (hi : Inv s) : Exact s { cache := s.cache.clear, history := .clear :: s.history } .clear := by
  refine ⟨⟨keyed_nil, fun k => rfl, fun timer k => ?_, ?_, fun timer k hp => ?_⟩, _, clearAll_called _ _,
    keys s.cache.store, hi.keyed, fun k => ?_, ?_⟩
  · constructor
    · intro hp
      obtain ⟨h1, h2⟩ := clearAll_pending hp
      obtain ⟨n, hf, ht⟩ := (hi.pending timer k).mp h1
      exact absurd ht (h2 _ (mem_of_find hf))
    · rintro ⟨n, hf, -⟩
      cases hf
  · show (s.cache.clearAll s.cache.store).nextTimer = _
    rw [clearAll_nextTimer]
    exact hi.timers
  · show timer < (s.cache.clearAll s.cache.store).nextTimer
    rw [clearAll_nextTimer]
    exact hi.fresh timer k (clearAll_pending hp).1
  · rw [← not_iff_not, ← find_none]
    constructor
    · rintro hf ⟨x, hx, -⟩
      rw [hi.held, hf] at hx
      cases hx
    · intro hl
      cases hf : find s.cache.store k with
      | none => rfl
      | some n =>
        refine absurd ⟨heldBy n, ?_, (Option.some_ne_none _).symm⟩ hl
        rw [hi.held, hf]
        rfl
  · apply List.Perm.of_eq
    unfold keys
    rw [List.flatMap_map]
    apply List.flatMap_congr
    intro e he
    have : find s.cache.store e.1 = some e.2 := find_of_mem hi.keyed he
    simp only [due, hi.held, this, Option.map_some, heldBy]

/-- The node of a key is new, or as it was but for its timer and finalizer. -/
theorem Inv.node (hi : Inv s) {key : K} {value : V} {timeout : Option Nat} {finalizer : Option F}
    {old : Option (CacheNode V F)} (hold : find s.cache.store key = old) (hv : ∀ n, old = some n → n.value = value)
    (hfin : ∀ n, old = some n → n.finalizer = none ∨ n.finalizer = finalizer) {c : TimedCache K V F}
    (hkeyed : Keyed c.store) (hcalled : c.called = s.cache.called)
    (hfind : ∀ k, find c.store k = if key = k then
      some { value := value, finalizer := finalizer, timeout := timeout.map fun _ => s.cache.nextTimer }
      else find s.cache.store k)
    (hpending : c.pending = timeout.elim (clearing s.cache.pending (old.bind (·.timeout)))
      fun _ => Function.update (clearing s.cache.pending (old.bind (·.timeout))) s.cache.nextTimer (some key))
    (hnext : c.nextTimer = s.cache.nextTimer + timeout.toList.length) :
    Exact s { cache := c, history := .set key value timeout finalizer :: s.history } (.set key value timeout finalizer) := by
  have hheld : ∀ k, TimedCache.held (.set key value timeout finalizer :: s.history) k =
      if key = k then some ⟨value, timeout.map fun _ => s.cache.nextTimer, finalizer.toList⟩
      else TimedCache.held s.history k := by
    intro k
    rw [TimedCache.held]
    by_cases hk : key = k
    · subst hk
      rw [if_pos rfl, if_pos rfl, hi.held, hold, hi.timers]
      cases old with
      | none => rfl
      | some n =>
        simp only [Option.map_some, heldBy, hv n rfl, if_true]
        rcases hfin n rfl with hn | hn <;> cases finalizer <;> simp [hn]
    · rw [if_neg hk, if_neg hk]
  refine ⟨⟨hkeyed, fun k => ?_, fun timer k => ?_, ?_, fun timer k hp => ?_⟩, [], by simp [hcalled], [], List.nodup_nil,
    fun k => ?_, by simp⟩
  · rw [hheld, hfind, hi.held]
    split <;> rfl
  · rw [hfind, hpending]
    have hothers := hi.pending_others hold timer k
    cases timeout with
    | none =>
      rw [Option.elim_none, hothers]
      by_cases hk : key = k <;> simp [hk]
    | some ms =>
      rw [Option.elim_some]
      by_cases htimer : timer = s.cache.nextTimer
      · subst htimer
        rw [Function.update_self, Option.some.injEq]
        by_cases hk : key = k
        · simp [hk]
        · rw [if_neg hk, ← hi.pending]
          refine ⟨fun h => absurd h hk, fun hp => ?_⟩
          exact absurd (hi.fresh _ _ hp) (Nat.lt_irrefl _)
      · rw [Function.update_of_ne htimer, hothers]
        by_cases hk : key = k
        · simp [hk, Ne.symm htimer]
        · simp [hk]
  · rw [timersOf_set, hnext, hi.timers]
  · rw [hnext]
    rw [hpending] at hp
    cases timeout with
    | none =>
      rw [Option.elim_none] at hp
      exact hi.fresh timer k (clearing_some.mp hp).1
    | some ms =>
      show timer < s.cache.nextTimer + 1
      by_cases htimer : timer = s.cache.nextTimer
      · omega
      · rw [Option.elim_some, Function.update_of_ne htimer] at hp
        have := hi.fresh timer k (clearing_some.mp hp).1
        omega
  · refine ⟨fun h => absurd h (by simp), ?_⟩
    rintro ⟨x, hx, hne⟩
    rw [hheld] at hne
    by_cases hk : key = k
    · subst hk
      rw [hi.held, hold, Option.map_eq_some_iff] at hx
      obtain ⟨n, hn, rfl⟩ := hx
      rw [if_pos rfl, heldBy, hv n hn] at hne
      exact absurd rfl hne
    · rw [if_neg hk, hx] at hne
      exact absurd rfl hne

theorem Inv.set (hi : Inv s) {key : K} {value : V} {timeout : Option Nat} {finalizer : Option F}
    (hk : SetKeeps s (.set key value timeout finalizer)) :
    Exact s { cache := s.cache.set key value timeout finalizer, history := .set key value timeout finalizer :: s.history }
      (.set key value timeout finalizer) := by
  cases hf : find s.cache.store key with
  | none =>
    unfold TimedCache.set
    rw [hf, setTimeout_eq]
    exact hi.node hf (by simp) (by simp) (hi.keyed.add hf) rfl (fun k => find_add hf k) rfl rfl
  | some n =>
    obtain ⟨hv, hfin⟩ := hk n hf
    unfold TimedCache.set
    simp only [hf, hv, ne_eq, not_true, if_false, clearTimeout_eq, setTimeout_eq]
    refine hi.node hf (fun _ h => ?_) (fun _ h => ?_) hi.keyed.put rfl (fun k => ?_) rfl rfl
    · exact Option.some.inj h ▸ hv
    · exact Option.some.inj h ▸ hfin
    · exact hv ▸ find_put hf k

/-! ## Runs that keep -/

theorem inv_init (h : (sys K V F).init s) : Inv s := by
  subst h
  exact ⟨keyed_nil, fun _ => rfl, fun timer k => by simp, rfl, fun timer k hp => by cases hp⟩

theorem exact_step (hi : Inv s) (hk : SetKeeps s e) (h : (sys K V F).step s e = some t) : Exact s t e := by
  obtain ⟨c, hc, rfl⟩ := Option.map_eq_some_iff.mp h
  cases e with
  | set key value timeout finalizer =>
    cases hc
    exact hi.set hk
  | delete key =>
    cases hc
    exact hi.delete key
  | clear =>
    cases hc
    exact hi.clear
  | expire timer => exact hi.expire hc

/-- In a run whose sets keep, `get` gives what the history asks for, and each event calls
    the finalizers that are due to the values it takes out. -/
theorem holds_and_finalizes (h : Reach (sys K V F) SetKeeps s) :
    (∀ k, s.cache.get k = (held s.history k).map (·.value)) ∧
      ∀ e t, SetKeeps s e → (sys K V F).step s e = some t →
        ∃ calls, t.cache.called = s.cache.called ++ calls ∧ CallsDue s.history e calls := by
  have hi : Inv s := h.inv (fun _ => inv_init) (fun _ _ _ hi hk hs => (exact_step hi hk hs).inv)
  exact ⟨hi.get_eq, fun e t hk hs => (exact_step hi hk hs).calls⟩

/-- A value is set with a finalizer, and its timer fires. -/
theorem expiry_finalizes : ∃ (s t : St Nat Nat Nat) (calls : List (Nat × Nat)), s.cache.get 1 = some 10 ∧
    (sys Nat Nat Nat).step s (.expire 0) = some t ∧ t.cache.called = s.cache.called ++ calls ∧
      CallsDue s.history (.expire 0) calls := by
  have h : Reach (sys Nat Nat Nat) SetKeeps _ :=
    (Reach.init rfl).step (.set 1 10 (some 5) (some 7)) (fun _ h => by cases h) rfl
  obtain ⟨calls, h1, h2⟩ := (holds_and_finalizes h).2 (.expire 0) _ trivial rfl
  exact ⟨_, _, calls, rfl, rfl, h1, h2⟩

/-- A key is set to 1 and then to 2. -/
theorem second_value_is_not_stored : ¬∀ s : St Nat Nat Nat, Reach (sys Nat Nat Nat) any s →
    ∀ k, s.cache.get k = (held s.history k).map (·.value) := by
  intro h
  have hr : Reach (sys Nat Nat Nat) any _ :=
    ((Reach.init rfl).step (.set 0 1 none none) trivial rfl).step (.set 0 2 none none) trivial rfl
  have := h _ hr 0
  exact absurd this (by decide)

/-- After a set that does not keep, `get` is wrong, or deleting the key calls the wrong
    finalizers. -/
theorem set_breaks (hr : Reach (sys K V F) SetKeeps s) {key : K} {value : V} {timeout : Option Nat} {finalizer : Option F}
    (hk : ¬SetKeeps s (.set key value timeout finalizer))
    (h : (sys K V F).step s (.set key value timeout finalizer) = some t) :
    t.cache.get key ≠ (held t.history key).map (·.value) ∨
      ∀ calls, (t.cache.delete key).2.called = t.cache.called ++ calls → ¬CallsDue t.history (.delete key) calls := by
  have hi : Inv s := hr.inv (fun _ => inv_init) (fun _ _ _ hi hk hs => (exact_step hi hk hs).inv)
  cases h
  simp only [SetKeeps, not_forall, not_and, not_or] at hk
  obtain ⟨n, hf, hk⟩ := hk
  have hheld : held s.history key = some (heldBy n) := by
    rw [hi.held, hf]
    rfl
  have hfind : find (s.cache.set key value timeout finalizer).store key =
      some { n with finalizer := finalizer, timeout := timeout.map fun _ => s.cache.nextTimer } := by
    unfold TimedCache.set
    simp only [hf, setTimeout_eq, clearTimeout_eq]
    split <;> exact find_put_self hf
  by_cases hv : n.value = value
  · right
    obtain ⟨hne, hne'⟩ := hk hv
    obtain ⟨f, hff⟩ := Option.ne_none_iff_exists'.mp hne
    intro calls hcalls hcallsDue
    obtain ⟨ks, _, hks, hperm⟩ := hcallsDue
    have hdue : (f, value) ∈ due (.set key value timeout finalizer :: s.history) key := by
      simp only [due, held, if_true, hheld, heldBy, hv, hff]
      simp
    have hin : key ∈ ks := by
      apply (hks key).mpr
      simp only [Leaves, held, if_true]
      exact ⟨_, rfl, (Option.some_ne_none _).symm⟩
    rw [delete_some hfind] at hcalls
    have hcalls := List.append_cancel_left hcalls
    have hmem := hperm.mem_iff.mpr (List.mem_flatMap.mpr ⟨key, hin, hdue⟩)
    rw [← hcalls] at hmem
    cases finalizer with
    | none => simp at hmem
    | some f' =>
      simp only [Option.toList_some, List.map_singleton, List.mem_singleton, Prod.mk.injEq] at hmem
      exact hne' (hff.trans (congrArg some hmem.1))
  · left
    simp only [get, hfind, held, if_true, Option.map_some]
    exact fun h => hv (Option.some.inj h)

end TimedCache

end GenieCloud.Util
