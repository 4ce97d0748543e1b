/-
  GenieCloud.Util.PromiseLock — the lock as a chain of promises (`util/lock.ts`).

  `_queue` is a promise that is fulfilled when the lock is unlocked. `acquire` makes a
  promise for the caller's turn, puts it at the back of the queue by replacing `_queue`
  with `_queue.then(() => ourTurn)`, awaits the old queue and returns the function that
  fulfils the turn. The promises, their reactions and the jobs that run them are those
  of `Lib.Promises`; callers call `acquire` and the unlock functions they were given at
  any time, also between two jobs.

  Promise `2k` is the queue in front of the `k`-th call and promise `2k + 1` its turn
  (`Inv`), so all the state of a lock is how many calls were made, how many turns the
  queue is past, and how far the next one is (`Stage`). `inv_reach`: every reachable
  state is of that shape.

  `lock_fifo`: at most one call has returned and is not released, calls return in the
  order they were made, a call returns once those before it have released, and a
  second call of an unlock function does nothing.
  `lock_refines`: through `turnsOf` the promises are the list of turns of `Util.Lock`.
-/

import GenieCloud.Lib.Promises
import GenieCloud.Lib.Runs
import GenieCloud.Util.Lock

namespace GenieCloud.Util.PromiseLock

open Lib Lib.Promises

/-- A lock and the calls made on it: the promise `_queue`, the promise `ourTurn` of each
    call, and the calls that have returned, in that order. -/
structure State where
  heap : Heap Nat
  queue : Nat
  turns : List Nat
  granted : List Nat
  deriving DecidableEq

def new : State := { heap := ⟨[.done], []⟩, queue := 0, turns := [], granted := [] }

/-- A call of `acquire` up to its `await`. -/
def acquire (s : State) : State :=
  let ourTurn := s.heap.create
  let oldQueue := s.queue
  let queue := ourTurn.2.thenReturn s.queue ourTurn.1
  { s with heap := queue.2.await oldQueue s.turns.length, queue := queue.1, turns := s.turns ++ [ourTurn.1] }

/-- The function that the `i`-th call returned. -/
def unlockCallback (s : State) (i : Nat) : State :=
  match s.turns[i]? with
  | some ourTurn => { s with heap := s.heap.fulfill ourTurn }
  | none => s

def runJob (s : State) : Option State :=
  match s.heap.runJob with
  | some (heap, returned) => some { s with heap, granted := s.granted ++ returned.toList }
  | none => none

inductive Event where
  | acquire
  | unlock (i : Nat)
  | job
  deriving DecidableEq

/-- A caller has an unlock function once its `acquire` has returned. -/
def step (s : State) : Event → Option State
  | .acquire => some (acquire s)
  | .unlock i => if i ∈ s.granted then some (unlockCallback s i) else none
  | .job => runJob s

def system : Runs.System State Event where
  init s := s = new
  step := step

/-- The `i`-th call's turn is over. -/
def Released (s : State) (i : Nat) : Prop := ∃ p, s.turns[i]? = some p ∧ s.heap.promises[p]? = some .done

/-- The `i`-th call has returned and its turn is not over. -/
def Holds (s : State) (i : Nat) : Prop := i ∈ s.granted ∧ ¬ Released s i

/-! ## The shape of the chain -/

/-- How far the first turn that is not past is: nobody called (`idle`), its call made
    (`called`), its callback run (`chained`), its call returned (`resumed`, perhaps already
    released), the queue behind it made to follow it (`held`), and released (`unlocked`). -/
inductive Stage where
  | idle
  | called
  | chained
  | resumed (released : Bool)
  | held
  | unlocked

namespace Stage

def turn (f : Nat) : Stage → Option (Promise Nat)
  | idle => none
  | called | chained | resumed false => some (.pending [])
  | held => some (.pending [.forward (2 * f + 2)])
  | resumed true | unlocked => some .done

def jobs (f : Nat) : Stage → List (Job Nat)
  | idle | held => []
  | called => [.react (.chain (2 * f + 1) (2 * f + 2)), .react (.resume f)]
  | chained => [.react (.resume f), .follow (2 * f + 1) (2 * f + 2)]
  | resumed _ => [.follow (2 * f + 1) (2 * f + 2)]
  | unlocked => [.react (.forward (2 * f + 2))]

/-- Whether the call of this turn has returned. -/
def returned : Stage → Nat
  | idle | called | chained => 0
  | resumed _ | held | unlocked => 1

/-- The jobs of this turn that have run. -/
def ran : Stage → Nat
  | idle | called => 0
  | chained => 1
  | resumed _ => 2
  | held | unlocked => 3

/-- Whether the turn was released. -/
def ended : Stage → Nat
  | resumed true | unlocked => 1
  | idle | called | chained | resumed false | held => 0

theorem returned_le (c : Stage) : c.returned ≤ 1 := by cases c <;> simp [returned]

theorem ended_le (c : Stage) : c.ended ≤ c.returned := by
  rcases c with _ | _ | _ | (_ | _) | _ | _ <;> simp [ended, returned]

end Stage

/-- What waits for the queue in front of call `k`, of `n` calls. -/
def waiting (n k : Nat) : List (Reaction Nat) :=
  if k < n then [.chain (2 * k + 1) (2 * k + 2), .resume k] else []

/-- `n` calls were made, the queue is past the turns below `f`, and turn `f` is at `c`. -/
structure Inv (s : State) (n f : Nat) (c : Stage) : Prop where
  front : f ≤ n
  queue : s.queue = 2 * n
  turns : s.turns = (List.range n).map (2 * · + 1)
  size : s.heap.promises.length = 2 * n + 1
  past : ∀ k ≤ f, s.heap.promises[2 * k]? = some .done
  pending : ∀ k, f < k → k ≤ n → s.heap.promises[2 * k]? = some (.pending (waiting n k))
  ended : ∀ k < f, s.heap.promises[2 * k + 1]? = some .done
  ahead : ∀ k, f < k → k < n → s.heap.promises[2 * k + 1]? = some (.pending [])
  turn : s.heap.promises[2 * f + 1]? = c.turn f
  jobs : s.heap.jobs = c.jobs f
  granted : s.granted = List.range (f + c.returned)

theorem inv_new : Inv new 0 0 .idle := by
  refine ⟨by simp, rfl, rfl, rfl, ?_, ?_, ?_, ?_, rfl, rfl, rfl⟩
  · intro k hk
    obtain rfl : k = 0 := by omega
    rfl
  all_goals intro k; omega

variable {s t : State} {n f : Nat} {c : Stage}

theorem Inv.idle_iff (h : Inv s n f c) : c = .idle ↔ f = n := by
  have hf := h.front
  have hn : s.heap.promises[2 * f + 1]? = none ↔ f = n := by rw [List.getElem?_eq_none_iff, h.size]; omega
  rw [← hn, h.turn]
  rcases c with _ | _ | _ | (_ | _) | _ | _ <;> simp [Stage.turn]

theorem Inv.turn_id (h : Inv s n f c) {i : Nat} (hi : i < n) : s.turns[i]? = some (2 * i + 1) := by
  rw [h.turns, List.getElem?_map, List.getElem?_range hi]
  rfl

theorem Inv.returned_le (h : Inv s n f c) : f + c.returned ≤ n := by
  have hf := h.front
  by_cases he : f = n
  · simp [h.idle_iff.mpr he, Stage.returned, he]
  · have := c.returned_le
    omega

/-! ## A call of `acquire` -/

theorem acquire_heap_done (hq : s.heap.promises[s.queue]? = some .done) :
    (acquire s).heap =
      { promises := s.heap.promises ++ [.pending []] ++ [.pending []]
        jobs := s.heap.jobs ++ [.react (.chain s.heap.promises.length (s.heap.promises.length + 1)),
          .react (.resume s.turns.length)] } := by
  have h1 := Objects.getElem?_kept (.pending []) (Objects.getElem?_kept (.pending []) hq)
  simp only [acquire, Heap.thenReturn, Heap.await, Heap.create]
  rw [Heap.register_done h1 (.chain _ _), Heap.register_done h1 (.resume _), List.length_append]
  simp

theorem acquire_heap_pending {rs : List (Reaction Nat)} (hq : s.heap.promises[s.queue]? = some (.pending rs)) :
    (acquire s).heap =
      { promises := List.set (s.heap.promises ++ [.pending []] ++ [.pending []]) s.queue <|
          .pending (rs ++ [.chain s.heap.promises.length (s.heap.promises.length + 1), .resume s.turns.length])
        jobs := s.heap.jobs } := by
  have h1 := Objects.getElem?_kept (.pending []) (Objects.getElem?_kept (.pending []) hq)
  simp only [acquire, Heap.thenReturn, Heap.await, Heap.create]
  rw [Heap.register_pending h1 (.chain _ _), Heap.register_pending (Objects.getElem?_updated_self h1 _) (.resume _),
    List.set_set, List.append_assoc rs, List.length_append]
  rfl

theorem Inv.acquired (h : Inv s n f c) :
    (acquire s).queue = 2 * (n + 1) ∧ (acquire s).turns = (List.range (n + 1)).map (2 * · + 1) := by
  refine ⟨?_, ?_⟩
  · simp only [acquire, Heap.thenReturn, Heap.create, List.length_append, h.size, List.length_singleton]
    omega
  · simp only [acquire, Heap.create, h.size, h.turns, List.range_succ, List.map_append, List.map_singleton]

theorem Inv.acquire_idle (h : Inv s n n .idle) : Inv (acquire s) (n + 1) n .called := by
  have hh := acquire_heap_done (by rw [h.queue]; exact h.past n (Nat.le_refl n))
  have hat (j : Nat) : (acquire s).heap.promises[j]? =
      if j = 2 * n + 2 then some (.pending []) else if j = 2 * n + 1 then some (.pending []) else s.heap.promises[j]? := by
    rw [hh, Objects.getElem?_created, Objects.getElem?_created, List.length_append, h.size]
    rfl
  refine ⟨by omega, h.acquired.1, h.acquired.2, ?_, ?_, ?_, ?_, ?_, ?_, ?_, ?_⟩
  · rw [hh]
    simp only [List.length_append, h.size, List.length_singleton]
    omega
  · intro k hk
    rw [hat, if_neg (by omega), if_neg (by omega)]
    exact h.past k hk
  · intro k hk hk'
    obtain rfl : k = n + 1 := by omega
    rw [hat, if_pos (by omega), waiting, if_neg (by omega)]
  · intro k hk
    rw [hat, if_neg (by omega), if_neg (by omega)]
    exact h.ended k hk
  · intro k hk hk'
    omega
  · rw [hat, if_neg (by omega), if_pos rfl]
    rfl
  · rw [hh, h.jobs, h.size, h.turns, List.length_map, List.length_range]
    rfl
  · exact h.granted

theorem Inv.acquire_busy (h : Inv s n f c) (hf : f < n) : Inv (acquire s) (n + 1) f c := by
  have hlast := h.pending n hf (Nat.le_refl n)
  rw [← h.queue] at hlast
  have hh := acquire_heap_pending hlast
  have hat (j : Nat) : (acquire s).heap.promises[j]? =
      if j = 2 * n then some (.pending (waiting (n + 1) n))
      else if j = 2 * n + 2 then some (.pending []) else if j = 2 * n + 1 then some (.pending [])
      else s.heap.promises[j]? := by
    rw [hh, Objects.getElem?_updated (Objects.getElem?_kept _ (Objects.getElem?_kept _ hlast)),
      Objects.getElem?_created, Objects.getElem?_created, List.length_append, h.size, h.queue, h.turns]
    simp only [waiting, eq_comm (a := 2 * n), Nat.lt_irrefl, if_false, if_true, Nat.lt_succ_self, List.nil_append,
      List.length_map, List.length_range, List.length_singleton]
  refine ⟨by omega, h.acquired.1, h.acquired.2, ?_, ?_, ?_, ?_, ?_, ?_, ?_, ?_⟩
  · rw [hh]
    simp only [List.length_set, List.length_append, h.size, List.length_singleton]
    omega
  · intro k hk
    rw [hat, if_neg (by omega), if_neg (by omega), if_neg (by omega)]
    exact h.past k hk
  · intro k hk hk'
    rw [hat]
    by_cases hkn : k = n
    · rw [if_pos (by omega), hkn]
    · rw [if_neg (by omega)]
      by_cases hks : k = n + 1
      · rw [if_pos (by omega), waiting, if_neg (by omega)]
      · rw [if_neg (by omega), if_neg (by omega), h.pending k hk (by omega), waiting, waiting, if_pos (by omega),
          if_pos (by omega)]
  · intro k hk
    rw [hat, if_neg (by omega), if_neg (by omega), if_neg (by omega)]
    exact h.ended k hk
  · intro k hk hk'
    rw [hat, if_neg (by omega), if_neg (by omega)]
    by_cases hkn : k = n
    · rw [if_pos (by omega)]
    · rw [if_neg (by omega)]
      exact h.ahead k hk (by omega)
  · rw [hat, if_neg (by omega), if_neg (by omega), if_neg (by omega)]
    exact h.turn
  · rw [hh]
    exact h.jobs
  · exact h.granted

/-! ## A call of an unlock function -/

/-- What a step that touches no promise but the turn `f` has to show. -/
theorem Inv.moved (h : Inv s n f c) {c' : Stage} (hq : t.queue = s.queue) (ht : t.turns = s.turns)
    (hl : t.heap.promises.length = s.heap.promises.length)
    (hat : ∀ j, j ≠ 2 * f + 1 → t.heap.promises[j]? = s.heap.promises[j]?)
    (hturn : t.heap.promises[2 * f + 1]? = c'.turn f) (hj : t.heap.jobs = c'.jobs f)
    (hg : t.granted = List.range (f + c'.returned)) : Inv t n f c' := by
  refine ⟨h.front, hq.trans h.queue, ht.trans h.turns, hl.trans h.size, ?_, ?_, ?_, ?_, hturn, hj, hg⟩
  · intro k hk
    rw [hat _ (by omega)]
    exact h.past k hk
  · intro k hk hk'
    rw [hat _ (by omega)]
    exact h.pending k hk hk'
  · intro k hk
    rw [hat _ (by omega)]
    exact h.ended k hk
  · intro k hk hk'
    rw [hat _ (by omega)]
    exact h.ahead k hk hk'

theorem unlockCallback_eq {i p : Nat} (hi : s.turns[i]? = some p) :
    unlockCallback s i = { s with heap := s.heap.fulfill p } := by
  rw [unlockCallback, hi]

theorem unlockCallback_released {i : Nat} (h : Released s i) : unlockCallback s i = s := by
  obtain ⟨p, hp, hd⟩ := h
  rw [unlockCallback_eq hp, Heap.fulfill_done hd]

/-- The turn `f` is fulfilled. -/
theorem Inv.fulfilled (h : Inv s n f c) {c' : Stage} {rs : List (Reaction Nat)} (hf : f < n)
    (hc : c.turn f = some (.pending rs)) (hc' : c'.turn f = some .done)
    (hj : c.jobs f ++ rs.map .react = c'.jobs f) (hg : c.returned = c'.returned) :
    Inv (unlockCallback s f) n f c' := by
  have hp := h.turn.trans hc
  rw [unlockCallback_eq (h.turn_id hf), Heap.fulfill_pending hp]
  refine h.moved rfl rfl ?_ ?_ ?_ ?_ ?_
  · exact List.length_set
  · intro j hj
    exact List.getElem?_set_ne (Ne.symm hj)
  · rw [Objects.getElem?_updated_self hp, hc']
  · rw [← hj, ← h.jobs]
  · rw [← hg, ← h.granted]

/-- The turns released are the first ones. -/
theorem Inv.released_iff (h : Inv s n f c) (i : Nat) : Released s i ↔ i < f + c.ended := by
  have hdone (k : Nat) (hk : k < n) : Released s k ↔ s.heap.promises[2 * k + 1]? = some .done := by
    simp [Released, h.turn_id hk]
  by_cases hin : i < n
  · rw [hdone i hin]
    rcases Nat.lt_trichotomy i f with hi | rfl | hi
    · simp [h.ended i hi]
      omega
    · rw [h.turn]
      rcases c with _ | _ | _ | (_ | _) | _ | _ <;> simp [Stage.turn, Stage.ended, Promise.pending, Promise.done]
    · rw [h.ahead i hi hin]
      have := c.ended_le
      have := c.returned_le
      simp [Promise.pending, Promise.done]
      omega
  · have hnone : s.turns[i]? = none := by rw [h.turns, List.getElem?_eq_none]; simpa using hin
    have := h.returned_le
    have := c.ended_le
    simp [Released, hnone]
    omega

theorem Inv.not_over (h : Inv s n f c) (hg : f ∈ s.granted) (hr : ¬ Released s f) :
    c = .resumed false ∨ c = .held := by
  rw [h.granted, List.mem_range] at hg
  rw [h.released_iff] at hr
  rcases c with _ | _ | _ | (_ | _) | _ | _ <;> simp_all [Stage.returned, Stage.ended]

/-- The stage once the turn is released. -/
def Stage.released : Stage → Stage
  | resumed _ => resumed true
  | held => unlocked
  | c => c

theorem Inv.unlock (h : Inv s n f c) {i : Nat} (hi : i ∈ s.granted) (hr : ¬ Released s i) :
    i = f ∧ Inv (unlockCallback s i) n f c.released ∧ c.released.ran = c.ran ∧ c.released.ended = c.ended + 1 := by
  have hif : i = f := by
    rw [h.granted, List.mem_range] at hi
    rw [h.released_iff] at hr
    have := c.returned_le
    omega
  subst hif
  have hin : i + c.returned ≤ n := h.returned_le
  rcases h.not_over hi hr with rfl | rfl
  · exact ⟨rfl, h.fulfilled hin rfl rfl rfl rfl, rfl, rfl⟩
  · exact ⟨rfl, h.fulfilled hin rfl rfl rfl rfl, rfl, rfl⟩

/-! ## A job -/

/-- The stage after the next job of the turn. -/
def Stage.next : Stage → Stage
  | called => chained
  | chained => resumed false
  | resumed false => held
  | resumed true => unlocked
  | c => c

theorem runJob_eq {heap : Heap Nat} {returned : Option Nat} (h : s.heap.runJob = some (heap, returned)) :
    runJob s = some { s with heap := heap, granted := s.granted ++ returned.toList } := by
  rw [runJob, h]

theorem Inv.job_called (h : Inv s n f .called) : ∃ t, runJob s = some t ∧ Inv t n f .chained := by
  refine ⟨_, runJob_eq (by rw [Heap.runJob, h.jobs]; rfl), ?_⟩
  refine h.moved rfl rfl rfl (fun _ _ => rfl) h.turn rfl ?_
  rw [Option.toList_none, List.append_nil, h.granted]
  rfl

theorem Inv.job_chained (h : Inv s n f .chained) : ∃ t, runJob s = some t ∧ Inv t n f (.resumed false) := by
  refine ⟨_, runJob_eq (by rw [Heap.runJob, h.jobs]; rfl), ?_⟩
  refine h.moved rfl rfl rfl (fun _ _ => rfl) h.turn rfl ?_
  rw [h.granted, Stage.returned, Stage.returned, List.range_succ]
  rfl

theorem Inv.job_resumed (h : Inv s n f (.resumed false)) : ∃ t, runJob s = some t ∧ Inv t n f .held := by
  refine ⟨_, runJob_eq (by rw [Heap.runJob, h.jobs]; rfl), ?_⟩
  have hp : s.heap.promises[2 * f + 1]? = some (.pending []) := h.turn
  rw [Heap.register_pending (h := ⟨s.heap.promises, []⟩) hp]
  refine h.moved rfl rfl List.length_set ?_ ?_ rfl ?_
  · intro j hj
    exact List.getElem?_set_ne (Ne.symm hj)
  · exact Objects.getElem?_updated_self hp _
  · rw [Option.toList_none, List.append_nil, h.granted]
    rfl

theorem Inv.job_resumed_released (h : Inv s n f (.resumed true)) : ∃ t, runJob s = some t ∧ Inv t n f .unlocked := by
  refine ⟨_, runJob_eq (by rw [Heap.runJob, h.jobs]; rfl), ?_⟩
  have hp : s.heap.promises[2 * f + 1]? = some .done := h.turn
  rw [Heap.register_done (h := ⟨s.heap.promises, []⟩) hp]
  refine h.moved rfl rfl rfl (fun _ _ => rfl) h.turn rfl ?_
  rw [Option.toList_none, List.append_nil, h.granted]
  rfl

/-- The queue gets past turn `f`, and what waits for the next one becomes its jobs. -/
theorem Inv.job_unlocked (h : Inv s n f .unlocked) :
    ∃ t, runJob s = some t ∧ Inv t n (f + 1) (if f + 1 < n then .called else .idle) := by
  refine ⟨_, runJob_eq (by rw [Heap.runJob, h.jobs]; rfl), ?_⟩
  have hf : f + 1 ≤ n := h.returned_le
  have hp : s.heap.promises[2 * f + 2]? = some (.pending (waiting n (f + 1))) := h.pending (f + 1) (by omega) (by omega)
  rw [Heap.fulfill_pending (h := ⟨s.heap.promises, []⟩) hp]
  have hat (j : Nat) : (s.heap.promises.set (2 * f + 2) .done)[j]? =
      if 2 * f + 2 = j then some .done else s.heap.promises[j]? := Objects.getElem?_updated hp _ _
  refine ⟨by omega, h.queue, h.turns, ?_, ?_, ?_, ?_, ?_, ?_, ?_, ?_⟩
  · rw [List.length_set, h.size]
  · intro k hk
    rw [hat]
    split
    · rfl
    · exact h.past k (by omega)
  · intro k hk hk'
    rw [hat, if_neg (by omega)]
    exact h.pending k (by omega) hk'
  · intro k hk
    rw [hat, if_neg (by omega)]
    by_cases hkf : k = f
    · rw [hkf]
      exact h.turn
    · exact h.ended k (by omega)
  · intro k hk hk'
    rw [hat, if_neg (by omega)]
    exact h.ahead k (by omega) hk'
  · rw [hat, if_neg (by omega)]
    split
    · exact h.ahead (f + 1) (by omega) (by assumption)
    · rw [List.getElem?_eq_none (by rw [h.size]; omega)]
      rfl
  · change ([] : List (Job Nat)) ++ List.map .react (waiting n (f + 1)) = _
    rw [waiting]
    split <;> rfl
  · rw [Option.toList_none, List.append_nil, h.granted]
    split <;> rfl

/-- A job moves the turn one job on. -/
theorem Inv.job (h : Inv s n f c) (hs : runJob s = some t) :
    ∃ f' c', Inv t n f' c' ∧ 4 * f' + c'.ran = 4 * f + c.ran + 1 ∧ f' + c'.ended = f + c.ended := by
  have hnone (hj : s.heap.jobs = []) : False := by
    rw [runJob, Heap.runJob, hj] at hs
    cases hs
  cases c with
  | idle | held => exact (hnone h.jobs).elim
  | called =>
    obtain ⟨t', ht, hi⟩ := h.job_called
    cases hs.symm.trans ht
    exact ⟨f, _, hi, rfl, rfl⟩
  | chained =>
    obtain ⟨t', ht, hi⟩ := h.job_chained
    cases hs.symm.trans ht
    exact ⟨f, _, hi, rfl, rfl⟩
  | resumed r =>
    cases r with
    | false =>
      obtain ⟨t', ht, hi⟩ := h.job_resumed
      cases hs.symm.trans ht
      exact ⟨f, _, hi, rfl, rfl⟩
    | true =>
      obtain ⟨t', ht, hi⟩ := h.job_resumed_released
      cases hs.symm.trans ht
      exact ⟨f, _, hi, rfl, rfl⟩
  | unlocked =>
    obtain ⟨t', ht, hi⟩ := h.job_unlocked
    cases hs.symm.trans ht
    refine ⟨f + 1, _, hi, ?_⟩
    by_cases hn : f + 1 < n
    · simp only [if_pos hn, Stage.ran, Stage.ended]
      exact ⟨by omega, trivial⟩
    · simp only [if_neg hn, Stage.ran, Stage.ended]
      exact ⟨by omega, trivial⟩

/-! ## Runs -/

/-- The events that run a job. -/
def jobsIn (es : List Event) : Nat := es.count .job

/-- A step keeps the shape: a job moves the first turn that is not past one job on, and
    no step takes a release back. -/
theorem inv_step {e : Event} (h : Inv s n f c) (hs : step s e = some t) :
    ∃ n' f' c', Inv t n' f' c' ∧ 4 * f' + c'.ran = 4 * f + c.ran + jobsIn [e] ∧ f + c.ended ≤ f' + c'.ended := by
  cases e with
  | acquire =>
    cases hs
    by_cases hf : f = n
    · obtain rfl := h.idle_iff.mpr hf
      obtain rfl := hf
      exact ⟨_, _, _, h.acquire_idle, rfl, Nat.le_refl _⟩
    · have := h.front
      exact ⟨_, _, _, h.acquire_busy (by omega), rfl, Nat.le_refl _⟩
  | unlock i =>
    simp only [step, Option.ite_none_right_eq_some, Option.some.injEq] at hs
    obtain ⟨hi, rfl⟩ := hs
    by_cases hr : Released s i
    · rw [unlockCallback_released hr]
      exact ⟨_, _, _, h, rfl, Nat.le_refl _⟩
    · obtain ⟨-, h', hran, hended⟩ := h.unlock hi hr
      exact ⟨_, _, _, h', by rw [hran]; rfl, by omega⟩
  | job =>
    obtain ⟨f', c', h', hran, hended⟩ := h.job hs
    exact ⟨_, _, _, h', hran, Nat.le_of_eq hended.symm⟩

theorem inv_run {es : List Event} (h : Inv s n f c) (hr : Runs.run system s es = some t) :
    ∃ n' f' c', Inv t n' f' c' ∧ 4 * f' + c'.ran = 4 * f + c.ran + jobsIn es ∧ f + c.ended ≤ f' + c'.ended := by
  induction es generalizing s n f c with
  | nil =>
    cases hr
    exact ⟨_, _, _, h, rfl, Nat.le_refl _⟩
  | cons e es ih =>
    simp only [Runs.run, List.foldlM_cons, Option.bind_eq_bind, Option.bind_eq_some_iff] at hr
    obtain ⟨u, hu, hr⟩ := hr
    obtain ⟨n', f', c', h', hran, hended⟩ := inv_step h hu
    obtain ⟨n'', f'', c'', h'', hran', hended'⟩ := ih h' hr
    refine ⟨n'', f'', c'', h'', ?_, by omega⟩
    have : jobsIn (e :: es) = jobsIn [e] + jobsIn es := by simp [jobsIn, List.count_cons, Nat.add_comm]
    omega

theorem inv_reach (h : Runs.Reach system Runs.any s) : ∃ n f c, Inv s n f c := by
  refine h.inv (P := fun s => ∃ n f c, Inv s n f c) ?_ ?_
  · intro s hs
    cases hs
    exact ⟨0, 0, .idle, inv_new⟩
  · intro s e t hi _ hs
    obtain ⟨n, f, c, hi⟩ := hi
    obtain ⟨n', f', c', hi', -⟩ := inv_step hi hs
    exact ⟨n', f', c', hi'⟩

/-! ## The lock -/

theorem Inv.holds (h : Inv s n f c) {i : Nat} (hi : Holds s i) : i = f := (h.unlock hi.1 hi.2).1

/-- No deadlock: who is next in turn has returned, or a job is on its way to it. -/
theorem Inv.next_returns (h : Inv s n f c) {i : Nat} (hi : i < n) (hr : ∀ j < i, Released s j) :
    i ∈ s.granted ∨ s.heap.jobs ≠ [] := by
  by_cases hj : s.heap.jobs = []
  · have hle : i ≤ f + c.ended := by
      by_cases h0 : i = 0
      · omega
      · have := (h.released_iff (i - 1)).mp (hr (i - 1) (by omega))
        omega
    rw [h.granted, List.mem_range]
    rw [h.jobs] at hj
    cases c with
    | idle =>
      have := h.idle_iff.mp rfl
      omega
    | held =>
      simp only [Stage.ended, Stage.returned] at *
      omega
    | called | chained | resumed | unlocked => simp [Stage.jobs] at hj
  · exact .inr hj

theorem Inv.returned_of_ran (h : Inv s n f c) {i : Nat} (hi : 4 * i + 2 ≤ 4 * f + c.ran) : i ∈ s.granted := by
  rw [h.granted, List.mem_range]
  cases c <;> simp only [Stage.ran, Stage.returned] at * <;> omega

/-- One lock, any callers. At most one call has returned and is not released; the calls
    return in the order they were made; a call returns once those before it have
    released, as long as jobs run, since its turn comes with at most `4 * i + 2` of them;
    an unlock function releases its turn, and from then on does nothing. -/
theorem lock_fifo {s : State} (h : Runs.Reach system Runs.any s) :
    (∀ i j, Holds s i → Holds s j → i = j) ∧ s.granted = List.range s.granted.length ∧
    (∀ i < s.turns.length, (∀ j < i, Released s j) → (i ∈ s.granted ∨ s.heap.jobs ≠ []) ∧
      ∀ es t, Runs.run system s es = some t → 4 * i + 2 ≤ jobsIn es → i ∈ t.granted) ∧
    ∀ i t, step s (.unlock i) = some t → Released t i ∧
      ∀ es u, Runs.run system t es = some u → step u (.unlock i) = some u := by
  obtain ⟨n, f, c, hi⟩ := inv_reach h
  refine ⟨?_, ?_, ?_, ?_⟩
  · intro i j hi' hj
    rw [hi.holds hi', hi.holds hj]
  · rw [hi.granted, List.length_range]
  · intro i hin hr
    rw [hi.turns, List.length_map, List.length_range] at hin
    refine ⟨hi.next_returns hin hr, ?_⟩
    intro es t ht hes
    obtain ⟨n', f', c', hi', hran, -⟩ := inv_run hi ht
    exact hi'.returned_of_ran (by omega)
  · intro i t ht
    have hg : i ∈ s.granted := by
      simp only [step, Option.ite_none_right_eq_some] at ht
      exact ht.1
    have hti : step s (.unlock i) = some (unlockCallback s i) := if_pos hg
    have hrel : Released t i := by
      by_cases hr : Released s i
      · rw [unlockCallback_released hr, ht, Option.some.injEq] at hti
        rwa [hti]
      · obtain ⟨rfl, hi', -, hended⟩ := hi.unlock hg hr
        cases ht.symm.trans hti
        rw [hi'.released_iff]
        omega
    refine ⟨hrel, ?_⟩
    intro es u hu
    obtain ⟨nt, ft, ct, hit, -, -⟩ := inv_step hi ht
    obtain ⟨n', f', c', hi', -, hended⟩ := inv_run hit hu
    rw [hit.released_iff] at hrel
    have hru : Released u i := by
      rw [hi'.released_iff]
      omega
    have hgu : i ∈ u.granted := by
      rw [hi'.granted, List.mem_range]
      have := c'.ended_le
      rw [hi'.released_iff] at hru
      omega
    rw [step, if_pos hgu, unlockCallback_released hru]

/-- Two calls, the first released twice: the second returns. -/
def handover : List Event := [.acquire, .acquire, .job, .job, .unlock 0, .unlock 0, .job, .job, .job, .job]

theorem lock_fifo_handover : ∃ s, Runs.run system new handover = some s ∧ s.granted = [0, 1] ∧
    ∀ i j, Holds s i → Holds s j → i = j := by
  obtain ⟨s, hs, hg⟩ : ∃ s, Runs.run system new handover = some s ∧ s.granted = [0, 1] := ⟨_, rfl, rfl⟩
  exact ⟨s, hs, hg, (lock_fifo ((Runs.Reach.init rfl).path (Runs.run_path hs))).1⟩

/-! ## The list of turns -/

/-- The lock of `Util.Lock`: which turns are over. -/
def turnsOf (s : State) : Lock := s.turns.map fun p => decide (s.heap.promises[p]? = some .done)

theorem Inv.turnsOf_eq (h : Inv s n f c) : turnsOf s = (List.range n).map fun k => decide (k < f + c.ended) := by
  rw [turnsOf, h.turns, List.map_map]
  apply List.map_congr_left
  intro k hk
  rw [List.mem_range] at hk
  have := h.released_iff k
  simp only [Released, h.turn_id hk, Option.some.injEq, exists_eq_left'] at this
  simp [this]

theorem Inv.turnsOf_acquire (h : Inv s n f c) : turnsOf (acquire s) = (Lock.acquire (turnsOf s)).2 := by
  have hle := h.returned_le
  have hended := c.ended_le
  have hsnoc {c' : Stage} (h' : Inv (acquire s) (n + 1) f c') (hc : c'.ended = c.ended) :
      turnsOf (acquire s) = (Lock.acquire (turnsOf s)).2 := by
    rw [h'.turnsOf_eq, h.turnsOf_eq, List.range_succ, List.map_append, hc, Lock.acquire, List.map_singleton,
      decide_eq_false (by omega)]
  by_cases hf : f = n
  · obtain rfl := h.idle_iff.mpr hf
    obtain rfl := hf
    exact hsnoc h.acquire_idle rfl
  · have := h.front
    exact hsnoc (h.acquire_busy (by omega)) rfl

theorem map_range_set {n i r r' : Nat} (h : ∀ k, k < r' ↔ k = i ∨ k < r) :
    (List.range n).map (fun k => decide (k < r')) = ((List.range n).map fun k => decide (k < r)).set i true := by
  apply List.ext_getElem
  · simp
  · intro k hk hk'
    rw [List.getElem_set]
    by_cases hki : i = k
    · simp [h, hki]
    · simp [h, hki, Ne.symm hki]

theorem Inv.turnsOf_unlock (h : Inv s n f c) {i : Nat} (hi : i ∈ s.granted) :
    turnsOf (unlockCallback s i) = Lock.unlockCallback (turnsOf s) i := by
  by_cases hr : Released s i
  · rw [unlockCallback_released hr, h.turnsOf_eq, Lock.unlockCallback]
    apply map_range_set
    intro k
    rw [h.released_iff] at hr
    omega
  · obtain ⟨rfl, h', -, hended⟩ := h.unlock hi hr
    rw [h'.turnsOf_eq, h.turnsOf_eq, Lock.unlockCallback]
    apply map_range_set
    intro k
    rw [h.released_iff] at hr
    omega

/-- Each step does to the list of turns what the lock of `Util.Lock` does; jobs leave it
    alone. A call that has returned is granted there, and once no job is left the calls
    granted there have returned. -/
theorem lock_refines {s : State} (h : Runs.Reach system Runs.any s) :
    turnsOf (acquire s) = (Lock.acquire (turnsOf s)).2 ∧
    (∀ i t, step s (.unlock i) = some t → turnsOf t = Lock.unlockCallback (turnsOf s) i) ∧
    (∀ t, step s .job = some t → turnsOf t = turnsOf s) ∧
    (∀ i ∈ s.granted, Lock.Granted (turnsOf s) i) ∧
    (s.heap.jobs = [] → ∀ i < s.turns.length, Lock.Granted (turnsOf s) i → i ∈ s.granted) := by
  obtain ⟨n, f, c, hi⟩ := inv_reach h
  have hat (j : Nat) (hj : j < n) : (turnsOf s)[j]? = some true ↔ Released s j := by
    rw [hi.turnsOf_eq, List.getElem?_map, List.getElem?_range hj, hi.released_iff]
    simp
  refine ⟨hi.turnsOf_acquire, ?_, ?_, ?_, ?_⟩
  · intro i t ht
    simp only [step, Option.ite_none_right_eq_some, Option.some.injEq] at ht
    obtain ⟨hg, rfl⟩ := ht
    exact hi.turnsOf_unlock hg
  · intro t ht
    obtain ⟨f', c', hi', -, hended⟩ := hi.job ht
    rw [hi'.turnsOf_eq, hi.turnsOf_eq, hended]
  · intro i hg j hj
    have hle := hi.returned_le
    have := c.returned_le
    rw [hi.granted, List.mem_range] at hg
    rw [hat j (by omega), hi.released_iff]
    omega
  · intro hj i hin hg
    rw [hi.turns, List.length_map, List.length_range] at hin
    rcases hi.next_returns hin fun j hji => (hat j (by omega)).mp (hg j hji) with hi' | hne
    · exact hi'
    · exact (hne hj).elim

theorem lock_refines_first : ∃ s, Runs.run system new [.acquire, .job, .job, .job] = some s ∧
    turnsOf (acquire s) = (Lock.acquire (turnsOf s)).2 ∧ 0 ∈ s.granted ∧ Lock.Granted (turnsOf s) 0 := by
  obtain ⟨s, hs⟩ := Option.isSome_iff_exists.mp (show (Runs.run system new [.acquire, .job, .job, .job]).isSome by decide)
  have hgranted : 0 ∈ s.granted := by
    have h0 : (Runs.run system new [.acquire, .job, .job, .job]).any (fun s => decide (0 ∈ s.granted)) = true := by decide
    rw [hs] at h0
    exact of_decide_eq_true h0
  obtain ⟨hacquire, -, -, hheld, -⟩ := lock_refines (Runs.Reach.path (.init (S := system) rfl) (Runs.run_path hs))
  exact ⟨s, hs, hacquire, hgranted, hheld 0 hgranted⟩

end GenieCloud.Util.PromiseLock
