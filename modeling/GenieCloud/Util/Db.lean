/-
  GenieCloud.Util.Db — one pooled connection under `withClient` and `withTransaction`
  (`util/db.ts`).

  The log of a connection is what was done with it, in order: queries, and the two ways
  `done` hands it back (`release`, or `destroy` when it is given an error). The database
  answers each query from the log before it, any way it likes; the body of a transaction
  sends queries and settles, any way it likes.

  `HandsBack`: a connection that was obtained is handed back once, after its last query.
  - `withClient_handsBack`: always under `withClient`.
  - `handsBack_iff_settles_started`: under `withTransaction`, exactly unless the
    transaction starts and then its body or its commit fails. In that case the inner
    handler rolls back and hands the connection back, throws on, and the outer handler
    hands it back again (`failed_body_hands_back_twice`).
-/

import Mathlib.Logic.Basic

namespace GenieCloud.Util.Db

inductive Op where
  | query (string : String)
  | release
  | destroy
  deriving DecidableEq, Repr

abbrev Log := List Op

/-- What a promise was rejected with; `none` is `undefined`. -/
abbrev Rejection := Option String

structure Pool (Rows : Type) where
  getConnection : Except String Unit
  answer : Log → String → Except String Rows

/-! ## Promises over a connection -/

/-- From the log so far to the outcome and the log after. -/
def Chain (T : Type) := Log → Except Rejection T × Log

variable {Rows T U : Type}

def Chain.then (x : Chain T) (onResolve : T → Chain U) (onReject : Rejection → Chain U) : Chain U := fun log =>
  match x log with
  | (.ok a, log') => onResolve a log'
  | (.error err, log') => onReject err log'

def Chain.throw (err : Rejection) : Chain T := fun log => (.error err, log)

instance : Monad Chain where
  pure a := fun log => (.ok a, log)
  bind x f := x.then f Chain.throw

def Chain.catch (x : Chain T) (handler : Rejection → Chain T) : Chain T := x.then pure handler

variable (pool : Pool Rows)

def query (string : String) : Chain Rows := fun log =>
  match pool.answer log string with
  | .ok rows => (.ok rows, log ++ [.query string])
  | .error err => (.error (some err), log ++ [.query string])

def done (error : Rejection) : Chain Unit := fun log =>
  (.ok (), log ++ [if error = none then .release else .destroy])

def rollback : Chain Unit :=
  (query pool "rollback").then (fun _ => done none) (fun rollerr => done rollerr)

/-- The callback of a caller: it queries the connection it is given and settles. -/
inductive Callback (Rows T : Type) where
  | resolve (result : T)
  | reject (err : Rejection)
  | query (string : String) (next : Except String Rows → Callback Rows T)

def Callback.run : Callback Rows T → Chain T
  | .resolve result => pure result
  | .reject err => Chain.throw err
  | .query string next => fun log => (next (pool.answer log string)).run (log ++ [.query string])

/-- Runs `use` on a connection of the pool; no log when there is none. -/
def connect (use : Chain T) : Except Rejection T × Option Log :=
  match pool.getConnection with
  | .error err => (.error (some err), none)
  | .ok () => ((use []).1, some (use []).2)

def withClient (callback : Callback Rows T) : Except Rejection T × Option Log :=
  connect pool <| (callback.run pool).then
    (fun result => do done none; return result)
    (fun err => do done none; Chain.throw err)

/-- The inner `try` of `withTransaction`. -/
def block (transaction : Callback Rows T) : Chain T :=
  Chain.catch
    (do
      let result ← transaction.run pool
      let _ ← query pool "commit"
      done none
      return result)
    (fun err => do
      rollback pool
      Chain.throw err)

def withTransaction (transaction : Callback Rows T) (isolationLevel readOnly : String) :
    Except Rejection T × Option Log :=
  connect pool <| Chain.catch
    (do
      let _ ← query pool ("set transaction isolation level " ++ isolationLevel)
      let _ ← query pool ("start transaction " ++ readOnly)
      block pool transaction)
    (fun error => do
      done error
      Chain.throw error)

/-! ## Handing back -/

def Queries (log : Log) : Prop := ∀ o ∈ log, ∃ string, o = .query string

/-- A connection that was obtained is released or destroyed once, and nothing is done
    with it afterwards. -/
def HandsBack (log : Option Log) : Prop :=
  ∀ l ∈ log, ∃ qs back, l = qs ++ [back] ∧ Queries qs ∧ (back = .release ∨ back = .destroy)

theorem queries_nil : Queries [] := by
  intro o ho
  cases ho

theorem Queries.snoc {log : Log} (h : Queries log) (string : String) : Queries (log ++ [.query string]) := by
  intro o ho
  rcases List.mem_append.mp ho with ho | ho
  · exact h o ho
  · exact ⟨string, List.mem_singleton.mp ho⟩

variable {pool}

theorem Callback.run_queries (pool : Pool Rows) (callback : Callback Rows T) {log : Log} (h : Queries log) :
    Queries (callback.run pool log).2 := by
  induction callback generalizing log with
  | resolve result => exact h
  | reject err => exact h
  | query string next ih => exact ih _ (h.snoc string)

theorem done_log (error : Rejection) (log : Log) :
    ∃ back, (done error log).2 = log ++ [back] ∧ (back = .release ∨ back = .destroy) := by
  refine ⟨_, rfl, ?_⟩
  split
  · exact Or.inl rfl
  · exact Or.inr rfl

theorem handsBack_done {log : Log} (h : Queries log) (error : Rejection) : HandsBack (some (done error log).2) := by
  rintro _ ⟨⟩
  obtain ⟨back, he, hb⟩ := done_log error log
  exact ⟨log, back, he, h, hb⟩

/-- A connection handed back twice is not handed back once. -/
theorem not_handsBack_twice (log : Log) (error error' : Rejection) :
    ¬ HandsBack (some (done error' (done error log).2).2) := by
  intro h
  obtain ⟨qs, back, he, hq, -⟩ := h _ rfl
  obtain ⟨b, hb, hback⟩ := done_log error log
  obtain ⟨b', hb', -⟩ := done_log error' (done error log).2
  rw [hb', hb] at he
  have hqs : log ++ [b] = qs := (List.append_inj' he rfl).1
  obtain ⟨string, hs⟩ := hq b (hqs ▸ by simp)
  rcases hback with rfl | rfl <;> cases hs

/-- `withClient` hands its connection back once, however the callback settles. -/
theorem withClient_handsBack (callback : Callback Rows T) : HandsBack (withClient pool callback).2 := by
  have hq := callback.run_queries pool queries_nil
  unfold withClient connect
  cases pool.getConnection with
  | error err => rintro _ ⟨⟩
  | ok _ =>
    simp only [Chain.then]
    cases h : callback.run pool [] with
    | mk outcome log =>
      rw [h] at hq
      cases outcome with
      | ok result => exact handsBack_done hq none
      | error err => exact handsBack_done hq none

/-! ## Transactions -/

variable (pool)

/-- The log of a transaction that has started. -/
def begun (isolationLevel readOnly : String) : Log :=
  [.query ("set transaction isolation level " ++ isolationLevel), .query ("start transaction " ++ readOnly)]

def Starts (isolationLevel readOnly : String) : Prop :=
  pool.getConnection.isOk ∧
    (pool.answer [] ("set transaction isolation level " ++ isolationLevel)).isOk ∧
    (pool.answer ((begun isolationLevel readOnly).take 1) ("start transaction " ++ readOnly)).isOk

/-- The body and, after it, the commit succeed. -/
def Settles (transaction : Callback Rows T) (isolationLevel readOnly : String) : Prop :=
  (transaction.run pool (begun isolationLevel readOnly)).1.isOk ∧
    (pool.answer (transaction.run pool (begun isolationLevel readOnly)).2 "commit").isOk

variable {pool}

theorem bind_ok {x : Chain T} {f : T → Chain U} {log log' : Log} {a : T} (h : x log = (.ok a, log')) :
    (x >>= f) log = f a log' := by
  show x.then f Chain.throw log = _
  rw [Chain.then, h]

theorem bind_error {x : Chain T} {f : T → Chain U} {log log' : Log} {err : Rejection}
    (h : x log = (.error err, log')) : (x >>= f) log = (.error err, log') := by
  show x.then f Chain.throw log = _
  rw [Chain.then, h]; rfl

theorem catch_ok {x : Chain T} {handler : Rejection → Chain T} {log log' : Log} {a : T} (h : x log = (.ok a, log')) :
    x.catch handler log = (.ok a, log') := by
  rw [Chain.catch, Chain.then, h]; rfl

theorem catch_error {x : Chain T} {handler : Rejection → Chain T} {log log' : Log} {err : Rejection}
    (h : x log = (.error err, log')) : x.catch handler log = handler err log' := by
  rw [Chain.catch, Chain.then, h]

theorem query_ok {string : String} {log : Log} {rows : Rows} (h : pool.answer log string = .ok rows) :
    query pool string log = (.ok rows, log ++ [.query string]) := by
  rw [query, h]

theorem query_error {string : String} {log : Log} {err : String} (h : pool.answer log string = .error err) :
    query pool string log = (.error (some err), log ++ [.query string]) := by
  rw [query, h]

/-- However the rollback goes, it hands the connection back. -/
theorem rollback_hands_back (pool : Pool Rows) (log : Log) :
    ∃ error, rollback pool log = done error (log ++ [.query "rollback"]) := by
  cases h : pool.answer log "rollback" with
  | ok rows => exact ⟨none, by rw [rollback, Chain.then, query_ok h]⟩
  | error err => exact ⟨some err, by rw [rollback, Chain.then, query_error h]⟩

theorem block_settles {transaction : Callback Rows T} {log : Log}
    (h : (transaction.run pool log).1.isOk ∧ (pool.answer (transaction.run pool log).2 "commit").isOk)
    (hq : Queries log) :
    ∃ result log', Queries log' ∧ block pool transaction log = (.ok result, (done none log').2) := by
  have hq' := transaction.run_queries pool hq
  cases hr : transaction.run pool log with
  | mk outcome log' =>
    rw [hr] at h hq'
    cases outcome with
    | error err => nomatch h.1
    | ok result =>
      cases hc : pool.answer log' "commit" with
      | error err => rw [hc] at h; nomatch h.2
      | ok rows =>
        refine ⟨result, log' ++ [.query "commit"], hq'.snoc _, catch_ok ?_⟩
        rw [bind_ok hr, bind_ok (query_ok hc)]; rfl

theorem block_fails {transaction : Callback Rows T} {log : Log}
    (h : ¬ ((transaction.run pool log).1.isOk ∧ (pool.answer (transaction.run pool log).2 "commit").isOk)) :
    ∃ err error log', block pool transaction log = (.error err, (done error log').2) := by
  -- the block rejects at some log, and the rollback starts from there
  suffices hb : ∃ err log', (do
      let result ← transaction.run pool
      let _ ← query pool "commit"
      done none
      return result : Chain T) log = (.error err, log') by
    obtain ⟨err, log', hb⟩ := hb
    obtain ⟨error, hroll⟩ := rollback_hands_back pool log'
    refine ⟨err, error, log' ++ [.query "rollback"], ?_⟩
    rw [block, catch_error hb, bind_ok hroll]; rfl
  cases hr : transaction.run pool log with
  | mk outcome log' =>
    rw [hr] at h
    cases outcome with
    | error err => exact ⟨err, log', bind_error hr⟩
    | ok result =>
      cases hc : pool.answer log' "commit" with
      | ok rows => exact absurd ⟨rfl, by rw [hc]; rfl⟩ h
      | error err => exact ⟨some err, log' ++ [.query "commit"], by rw [bind_ok hr, bind_error (query_error hc)]⟩

/-- `withTransaction` hands its connection back once exactly when the transaction does
    not start, or its body and its commit succeed. -/
theorem handsBack_iff_settles_started (pool : Pool Rows) (transaction : Callback Rows T)
    (isolationLevel readOnly : String) :
    HandsBack (withTransaction pool transaction isolationLevel readOnly).2 ↔
      (Starts pool isolationLevel readOnly → Settles pool transaction isolationLevel readOnly) := by
  unfold withTransaction connect Starts
  cases pool.getConnection with
  | error err => exact iff_of_true (fun _ h => nomatch h) fun h => nomatch h.1
  | ok _ =>
    cases h1 : pool.answer [] ("set transaction isolation level " ++ isolationLevel) with
    | error err =>
      refine iff_of_true ?_ fun h => nomatch h.2.1
      simp only
      rw [catch_error (bind_error (query_error h1))]
      exact handsBack_done (queries_nil.snoc _) _
    | ok _ =>
      cases h2 : pool.answer ((begun isolationLevel readOnly).take 1) ("start transaction " ++ readOnly) with
      | error err =>
        refine iff_of_true ?_ fun h => nomatch h.2.2
        simp only
        rw [catch_error ((bind_ok (query_ok h1)).trans (bind_error (query_error h2)))]
        exact handsBack_done ((queries_nil.snoc _).snoc _) _
      | ok _ =>
        have hstart : (do
            let _ ← query pool ("set transaction isolation level " ++ isolationLevel)
            let _ ← query pool ("start transaction " ++ readOnly)
            block pool transaction : Chain T) [] = block pool transaction (begun isolationLevel readOnly) :=
          (bind_ok (query_ok h1)).trans (bind_ok (query_ok h2))
        simp only [Except.isOk, Except.toBool, true_and, forall_const]
        by_cases hs : Settles pool transaction isolationLevel readOnly
        · refine iff_of_true ?_ hs
          obtain ⟨result, log', hq, hb⟩ := block_settles hs ((queries_nil.snoc _).snoc _)
          rw [catch_ok (hstart.trans hb)]
          exact handsBack_done hq none
        · refine iff_of_false ?_ hs
          obtain ⟨err, error, log', hb⟩ := block_fails hs
          rw [catch_error (hstart.trans hb)]
          exact not_handsBack_twice log' error err

/-- A body that rejects, on a database that answers everything. -/
theorem failed_body_hands_back_twice :
    let pool : Pool Unit := ⟨.ok (), fun _ _ => .ok ()⟩
    let log := (withTransaction pool (.reject (some "E_EXIST") : Callback Unit Unit) "serializable" "read write").2
    log = some [.query "set transaction isolation level serializable", .query "start transaction read write",
        .query "rollback", .release, .destroy] ∧ ¬ HandsBack log := by
  intro pool log
  exact ⟨rfl, not_handsBack_twice (begun "serializable" "read write" ++ [Op.query "rollback"]) none (some "E_EXIST")⟩

end GenieCloud.Util.Db
