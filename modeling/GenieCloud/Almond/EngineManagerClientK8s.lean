/-
  GenieCloud.Almond.EngineManagerClientK8s — the frontend's connections to the engines of
  a Kubernetes deployment (`almond/enginemanagerclient_k8s.ts`).

  `getEngine` looks for the user's entry, waits for the user's backend and its engine, and
  then opens a connection and makes it the entry, without a second look. Calls run at the
  same time, and each promise they await is fulfilled or rejected at any time.

  Every open connection should be its user's entry, so that there is one at most and none
  leaves the cache without being closed (`Single`), and callers that overlap should get
  the same engine (`SameEngine`). `step_shared_iff`: from a state where both hold, a step
  keeps both exactly when it is none of two (`Kept`): a call opens a connection while the
  user has an entry; and a connection becomes ready whose call was already running when
  another connection of the user was opened that became ready before.
  `connections_shared`: in runs without them both always hold.
-/

import GenieCloud.Lib.Objects
import GenieCloud.Lib.Runs

namespace GenieCloud.Almond.EngineManagerClientK8s

open GenieCloud.Lib.Objects GenieCloud.Lib.Runs

/-! ## Calls and connections -/

/-- What a call of `getEngine` waits for. -/
inductive Await
  | getUser
  | createUser
  | waitForUser
  | waitForEngine
deriving DecidableEq

/-- How it settles: with the user, who may not exist (null) or have no backend yet; with
    whether the user was created; without a value; or with an error. -/
inductive Answer
  | user (backend : Option Bool)
  | created (ok : Bool)
  | resolved
  | rejected (message : String)

inductive Phase
  | awaiting (a : Await)
  | returned (id : Nat)
  | threw (message : String)
deriving DecidableEq

structure Call where
  userId : Nat
  phase : Phase
deriving DecidableEq

/-- The promise of a connection; `ready` has the number of calls made until then. -/
inductive Engine
  | pending
  | ready (time : Nat)
  | rejected
deriving DecidableEq

/-- A connection, the call that opened it and the number of calls made until then. -/
structure Conn where
  userId : Nat
  opener : Nat
  openedAt : Nat
  /-- A handler ran: the connection is closed, or closing after an error. -/
  deleted : Bool := false
  engine : Engine := .pending
deriving DecidableEq

/-- Every call ever made and every connection ever opened, oldest first, and the cache. -/
structure Client where
  calls : List Call := []
  conns : List Conn := []
  cachedEngines : Nat → Option Nat := fun _ => none

/-! ## `getEngine` -/

def getEngine (s : Client) (userId : Nat) : Client :=
  match s.cachedEngines userId with
  | some id => { s with calls := s.calls ++ [⟨userId, .returned id⟩] }
  | none => { s with calls := s.calls ++ [⟨userId, .awaiting .getUser⟩] }

inductive Next
  | await (a : Await)
  | connect
  | throw (message : String)

/-- A backend that is no URL is one more way for the last step to throw. -/
def next (userId : Nat) : Await → Answer → Option Next
  | .getUser, .user none => some (.await .createUser)
  | .getUser, .user (some backend) => some (.await (if backend then .waitForEngine else .waitForUser))
  | .createUser, .created ok =>
    some (if ok then .await .waitForUser else .throw s!"failed to create user {userId}")
  | .waitForUser, .resolved => some (.await .waitForEngine)
  | .waitForEngine, .resolved => some .connect
  | .waitForUser, .rejected message | .waitForEngine, .rejected message => some (.throw message)
  | _, _ => none

/-- The connection is opened and becomes the entry, whatever was there. -/
def connect (s : Client) (i userId : Nat) : Client where
  calls := s.calls.set i ⟨userId, .returned s.conns.length⟩
  conns := s.conns ++ [{ userId := userId, opener := i, openedAt := s.calls.length }]
  cachedEngines := Function.update s.cachedEngines userId (some s.conns.length)

def setPhase (s : Client) (i userId : Nat) (phase : Phase) : Client :=
  { s with calls := s.calls.set i ⟨userId, phase⟩ }

/-- The promise that a call awaits settles, and the call goes on. -/
def resume (s : Client) (i : Nat) (answer : Answer) : Option Client :=
  match s.calls[i]? with
  | some ⟨userId, .awaiting a⟩ =>
    (next userId a answer).map fun
      | .await a' => setPhase s i userId (.awaiting a')
      | .throw message => setPhase s i userId (.threw message)
      | .connect => connect s i userId
  | _ => none

def setConn (s : Client) (id : Nat) (conn : Conn) : Client := { s with conns := s.conns.set id conn }

/-- The handler of the errors and closes of a connection, and the user it emits
    `socket-closed` for. -/
def onError (s : Client) (id : Nat) : Option Nat × Client :=
  match s.conns[id]? with
  | none => (none, s)
  | some conn =>
    if conn.deleted then (none, s)
    else (some conn.userId, setConn { s with
      cachedEngines := Function.update s.cachedEngines conn.userId none } id { conn with deleted := true })

/-- The engine answers over an open connection, with `ready` or an error. A promise that
    a closed connection leaves behind, rejected or not, gives nobody an engine. -/
def settle (s : Client) (id : Nat) (engine : Engine) : Option Client :=
  match s.conns[id]? with
  | none => none
  | some conn =>
    if conn.deleted ∨ conn.engine ≠ .pending then none
    else some (setConn s id { conn with engine := engine })

inductive Ev
  | getEngine (userId : Nat)
  | resume (i : Nat) (answer : Answer)
  | ready (id : Nat)
  | reject (id : Nat)
  | error (id : Nat)

def step (s : Client) : Ev → Option Client
  | .getEngine userId => some (getEngine s userId)
  | .resume i answer => resume s i answer
  | .ready id => settle s id (.ready s.calls.length)
  | .reject id => settle s id .rejected
  | .error id => some (onError s id).2

def sys : System Client Ev := { init := fun s => s = {}, step := step }

/-! ## What is asked -/

/-- Every open connection is its user's entry. -/
def Single (s : Client) : Prop :=
  ∀ id conn, s.conns[id]? = some conn → conn.deleted = false → s.cachedEngines conn.userId = some id

/-- The call got the engine of the connection, which became ready at that time. -/
def Obtained (s : Client) (userId i id time : Nat) : Prop :=
  s.calls[i]? = some ⟨userId, .returned id⟩ ∧ ∃ conn, s.conns[id]? = some conn ∧ conn.engine = .ready time

/-- A caller that came before an earlier one of the user got its engine gets the same. -/
def SameEngine (s : Client) : Prop :=
  ∀ userId i j id id' time time', i < j → j < time →
    Obtained s userId i id time → Obtained s userId j id' time' → id = id'

def Kept (s : Client) : Ev → Prop
  | .resume i answer => ∀ userId a, s.calls[i]? = some ⟨userId, .awaiting a⟩ →
      next userId a answer = some .connect → s.cachedEngines userId = none
  | .ready id => ∀ conn, s.conns[id]? = some conn → ∀ id' conn' time, s.conns[id']? = some conn' →
      conn'.userId = conn.userId → id' ≠ id → conn'.engine = .ready time → conn'.openedAt ≤ conn.opener
  | _ => True

/-! ## The invariant -/

/-- For the call the connection is over: it is closed, was ready before the call if ever,
    and only earlier calls got it. -/
def Over (s : Client) (i id : Nat) (conn : Conn) : Prop :=
  conn.deleted = true ∧ (∀ time, conn.engine = .ready time → time ≤ i) ∧
    ∀ j userId, s.calls[j]? = some ⟨userId, .returned id⟩ → j < i

structure Inv (s : Client) : Prop where
  owned : ∀ userId id : Nat, s.cachedEngines userId = some id →
    ∃ conn, s.conns[id]? = some conn ∧ conn.userId = userId ∧ conn.deleted = false
  opener : ∀ (id : Nat) (conn : Conn), s.conns[id]? = some conn →
    s.calls[conn.opener]? = some ⟨conn.userId, .returned id⟩ ∧ conn.opener < conn.openedAt ∧
      conn.openedAt ≤ s.calls.length
  readied : ∀ (id : Nat) (conn : Conn) (time : Nat), s.conns[id]? = some conn → conn.engine = .ready time →
    conn.openedAt ≤ time ∧ time ≤ s.calls.length
  /-- A call gets the connection it opens or one that was opened before it began. -/
  got : ∀ i userId id : Nat, s.calls[i]? = some ⟨userId, .returned id⟩ →
    ∃ conn, s.conns[id]? = some conn ∧ conn.userId = userId ∧ (i = conn.opener ∨ conn.openedAt ≤ i)
  /-- A connection opened before the call began is the one it gets, or is over. -/
  seen : ∀ (i : Nat) (call : Call) (id : Nat) (conn : Conn), s.calls[i]? = some call →
    s.conns[id]? = some conn → conn.userId = call.userId → conn.openedAt ≤ i →
      call.phase = .returned id ∨ Over s i id conn

variable {s s' : Client} {e : Ev} {userId i id : Nat} {call : Call} {conn conn' : Conn}

theorem single_unique {id' : Nat} (hs : Single s) (h : s.conns[id]? = some conn) (h' : s.conns[id']? = some conn')
    (hd : conn.deleted = false) (hd' : conn'.deleted = false) (hu : conn.userId = conn'.userId) : id = id' := by
  have h1 := hs id conn h hd
  rw [hu, hs id' conn' h' hd'] at h1
  exact (Option.some.inj h1).symm

/-- A call begins, and gets the entry if there is one. -/
theorem inv_begin (hi : Inv s) (hs : Single s)
    (hhit : ∀ id, call.phase = .returned id ↔ s.cachedEngines call.userId = some id) :
    Inv { s with calls := s.calls ++ [call] } where
  owned := hi.owned
  opener id conn hc := by
    obtain ⟨h, hlt, hle⟩ := hi.opener id conn hc
    refine ⟨getElem?_kept call h, hlt, ?_⟩
    rw [List.length_append]
    omega
  readied id conn time hc he := by
    obtain ⟨hle, hle'⟩ := hi.readied id conn time hc he
    refine ⟨hle, ?_⟩
    rw [List.length_append]
    omega
  got i userId id h := by
    rw [getElem?_created] at h
    split at h
    · rename_i hlen
      cases h
      obtain ⟨conn, hc, hu, -⟩ := hi.owned userId id ((hhit id).mp rfl)
      exact ⟨conn, hc, hu, Or.inr (hlen ▸ (hi.opener id conn hc).2.2)⟩
    · exact hi.got i userId id h
  seen i call' id conn h hc hu hle := by
    have hnew : conn.deleted = true → ∀ j userId : Nat, (s.calls ++ [call])[j]? = some ⟨userId, .returned id⟩ →
        s.calls[j]? = some ⟨userId, .returned id⟩ := by
      intro hd j userId hj
      rw [getElem?_created] at hj
      split at hj
      · -- the new call got an entry, and entries are open
        cases hj
        obtain ⟨conn', hc', -, hd'⟩ := hi.owned userId id ((hhit id).mp rfl)
        rw [hc] at hc'
        cases hc'
        rw [hd] at hd'
        cases hd'
      · exact hj
    rw [getElem?_created] at h
    split at h
    · rename_i hlen
      cases h
      cases hd : conn.deleted with
      | false =>
        left
        rw [hhit, ← hu]
        exact hs id conn hc hd
      | true =>
        refine Or.inr ⟨hd, fun time he => hlen ▸ (hi.readied id conn time hc he).2, fun j userId hj => ?_⟩
        rw [hlen]
        exact getElem?_lt (hnew hd j userId hj)
    · rcases hi.seen i call' id conn h hc hu hle with h | ⟨hd, ht, hj⟩
      · exact Or.inl h
      · exact Or.inr ⟨hd, ht, fun j userId h => hj j userId (hnew hd j userId h)⟩

/-- A call that awaits something goes on to await something else, or throws. -/
theorem inv_setPhase (hi : Inv s) {a : Await} {phase : Phase} (h : s.calls[i]? = some ⟨userId, .awaiting a⟩)
    (hp : ∀ id, phase ≠ .returned id) : Inv (setPhase s i userId phase) := by
  have hget := getElem?_updated h ⟨userId, phase⟩
  have hold : ∀ j userId' id : Nat, (s.calls.set i ⟨userId, phase⟩)[j]? = some ⟨userId', .returned id⟩ →
      s.calls[j]? = some ⟨userId', .returned id⟩ := by
    intro j userId' id hj
    rw [hget] at hj
    split at hj
    · cases hj
      exact absurd rfl (hp id)
    · exact hj
  refine ⟨hi.owned, fun id conn hc => ?_, fun id conn time hc he => ?_, fun j userId' id hj => ?_,
    fun j call id conn hj hc hu hle => ?_⟩
  · obtain ⟨hop, hlt, hle⟩ := hi.opener id conn hc
    have hne : i ≠ conn.opener := by
      rintro rfl
      rw [h] at hop
      cases hop
    refine ⟨(hget conn.opener).trans ((if_neg hne).trans hop), hlt, ?_⟩
    show conn.openedAt ≤ (s.calls.set i _).length
    rw [List.length_set]
    exact hle
  · show conn.openedAt ≤ time ∧ time ≤ (s.calls.set i _).length
    rw [List.length_set]
    exact hi.readied id conn time hc he
  · exact hi.got j userId' id (hold j userId' id hj)
  · have hover : Over s j id conn → Over (setPhase s i userId phase) j id conn := fun ⟨hd, ht, hk⟩ =>
      ⟨hd, ht, fun k userId' hk' => hk k userId' (hold k userId' id hk')⟩
    have hj' : (s.calls.set i ⟨userId, phase⟩)[j]? = some call := hj
    rw [hget] at hj'
    split at hj'
    · rename_i heq
      cases hj'
      subst heq
      rcases hi.seen i _ id conn h hc hu hle with hr | ho
      · cases hr
      · exact Or.inr (hover ho)
    · exact (hi.seen j call id conn hj' hc hu hle).imp_right hover

theorem inv_connect (hi : Inv s) {a : Await} (h : s.calls[i]? = some ⟨userId, .awaiting a⟩) :
    Inv (connect s i userId) := by
  have hget := getElem?_updated h ⟨userId, .returned s.conns.length⟩
  have hlen : (s.calls.set i ⟨userId, .returned s.conns.length⟩).length = s.calls.length := List.length_set ..
  have hnew : ∀ (id : Nat) (conn : Conn), (connect s i userId).conns[id]? = some conn →
      (id = s.conns.length ∧ conn = { userId := userId, opener := i, openedAt := s.calls.length }) ∨
        s.conns[id]? = some conn := by
    intro id conn hc
    have hc' : (s.conns ++ [_])[id]? = some conn := hc
    rw [getElem?_created] at hc'
    split at hc'
    · rename_i hid
      exact Or.inl ⟨hid, (Option.some.inj hc').symm⟩
    · exact Or.inr hc'
  refine ⟨fun userId' id hid => ?_, fun id conn hc => ?_, fun id conn time hc he => ?_,
    fun j userId' id hj => ?_, fun j call id conn hj hc hu hle => ?_⟩
  · by_cases hu : userId' = userId
    · subst hu
      have : s.conns.length = id := by simpa [connect] using hid
      subst this
      exact ⟨_, (getElem?_created ..).trans (if_pos rfl), rfl, rfl⟩
    · have : s.cachedEngines userId' = some id := by simpa [connect, Function.update_of_ne hu] using hid
      obtain ⟨conn, hc, h⟩ := hi.owned userId' id this
      exact ⟨conn, getElem?_kept _ hc, h⟩
  · rcases hnew id conn hc with ⟨rfl, rfl⟩ | hc
    · exact ⟨getElem?_updated_self h _, getElem?_lt h, Nat.le_of_eq hlen.symm⟩
    · obtain ⟨hop, hlt, hle⟩ := hi.opener id conn hc
      have hne : i ≠ conn.opener := by
        rintro rfl
        rw [h] at hop
        cases hop
      exact ⟨(hget conn.opener).trans ((if_neg hne).trans hop), hlt, Nat.le_trans hle (Nat.le_of_eq hlen.symm)⟩
  · rcases hnew id conn hc with ⟨rfl, rfl⟩ | hc
    · cases he
    · obtain ⟨hle, hle'⟩ := hi.readied id conn time hc he
      exact ⟨hle, Nat.le_trans hle' (Nat.le_of_eq hlen.symm)⟩
  · have hj' : (s.calls.set i _)[j]? = some _ := hj
    rw [hget] at hj'
    split at hj'
    · rename_i heq
      cases hj'
      exact ⟨_, (getElem?_created ..).trans (if_pos rfl), rfl, Or.inl heq.symm⟩
    · obtain ⟨conn, hc, h⟩ := hi.got j userId' id hj'
      exact ⟨conn, getElem?_kept _ hc, h⟩
  · have hj' : (s.calls.set i _)[j]? = some call := hj
    rcases hnew id conn hc with ⟨rfl, rfl⟩ | hc
    · have hlt := getElem?_lt hj'
      rw [hlen] at hlt
      exact absurd hlt (Nat.not_lt.mpr hle)
    · have hover : Over s j id conn → Over (connect s i userId) j id conn := by
        refine fun ⟨hd, ht, hk⟩ => ⟨hd, ht, fun k userId' hk' => ?_⟩
        have hk'' : (s.calls.set i _)[k]? = some _ := hk'
        rw [hget] at hk''
        split at hk''
        · cases hk''
          exact absurd (getElem?_lt hc) (Nat.lt_irrefl _)
        · exact hk k userId' hk''
      rw [hget] at hj'
      split at hj'
      · rename_i heq
        cases hj'
        subst heq
        rcases hi.seen i _ id conn h hc hu hle with hr | ho
        · cases hr
        · exact Or.inr (hover ho)
      · exact (hi.seen j call id conn hj' hc hu hle).imp_right hover

/-- A connection that settles or closes. -/
theorem inv_setConn (hi : Inv s) (hc : s.conns[id]? = some conn) (hcalls : s'.calls = s.calls)
    (hconns : s'.conns = s.conns.set id conn') (hu : conn'.userId = conn.userId) (ho : conn'.opener = conn.opener)
    (ht : conn'.openedAt = conn.openedAt) (hopen : conn.deleted = false)
    (hready : ∀ time, conn'.engine = .ready time → conn.engine = .ready time ∨ time = s.calls.length)
    (howned : ∀ userId id', s'.cachedEngines userId = some id' → s.cachedEngines userId = some id' ∧
      (id = id' → conn'.deleted = false)) : Inv s' := by
  have hget := fun j => (congrArg (·[j]?) hconns).trans (getElem?_updated hc conn' j)
  have hback : ∀ (j : Nat) (conn₁ : Conn), s'.conns[j]? = some conn₁ → ∃ conn₀, s.conns[j]? = some conn₀ ∧
      conn₁.userId = conn₀.userId ∧ conn₁.opener = conn₀.opener ∧ conn₁.openedAt = conn₀.openedAt ∧
      (∀ time, conn₁.engine = .ready time → conn₀.engine = .ready time ∨ time = s.calls.length) ∧
      (conn₁ = conn₀ ∨ conn₀.deleted = false) := by
    intro j conn₁ hj
    rw [hget] at hj
    split at hj
    · rename_i heq
      cases hj
      exact ⟨conn, heq ▸ hc, hu, ho, ht, hready, Or.inr hopen⟩
    · exact ⟨conn₁, hj, rfl, rfl, rfl, fun _ h => Or.inl h, Or.inl rfl⟩
  have hforth : ∀ (j : Nat) (conn₀ : Conn), s.conns[j]? = some conn₀ → ∃ conn₁, s'.conns[j]? = some conn₁ ∧
      conn₁.userId = conn₀.userId ∧ conn₁.opener = conn₀.opener ∧ conn₁.openedAt = conn₀.openedAt := by
    intro j conn₀ hj
    by_cases heq : id = j
    · subst heq
      rw [hc] at hj
      cases hj
      exact ⟨conn', (hget id).trans (if_pos rfl), hu, ho, ht⟩
    · exact ⟨conn₀, (hget j).trans ((if_neg heq).trans hj), rfl, rfl, rfl⟩
  refine ⟨fun userId id' h => ?_, fun id' conn₁ h => ?_, fun id' conn₁ time h he => ?_,
    fun j userId id' h => ?_, fun j call id' conn₁ h h₁ huser hle => ?_⟩
  · obtain ⟨hold, hdel⟩ := howned userId id' h
    obtain ⟨conn₀, h₀, hu₀, hd₀⟩ := hi.owned userId id' hold
    by_cases heq : id = id'
    · have hd := hdel heq
      subst heq
      rw [hc] at h₀
      cases h₀
      exact ⟨conn', (hget id).trans (if_pos rfl), hu.trans hu₀, hd⟩
    · exact ⟨conn₀, (hget id').trans ((if_neg heq).trans h₀), hu₀, hd₀⟩
  · obtain ⟨conn₀, h₀, hu₀, ho₀, ht₀, -⟩ := hback id' conn₁ h
    rw [hcalls, hu₀, ho₀, ht₀]
    exact hi.opener id' conn₀ h₀
  · obtain ⟨conn₀, h₀, -, -, ht₀, hr₀, -⟩ := hback id' conn₁ h
    rw [hcalls, ht₀]
    rcases hr₀ time he with he | rfl
    · exact hi.readied id' conn₀ time h₀ he
    · exact ⟨(hi.opener id' conn₀ h₀).2.2, Nat.le_refl _⟩
  · rw [hcalls] at h
    obtain ⟨conn₀, h₀, hu₀, hcase⟩ := hi.got j userId id' h
    obtain ⟨conn₁, h₁, hu₁, ho₁, ht₁⟩ := hforth id' conn₀ h₀
    refine ⟨conn₁, h₁, hu₁.trans hu₀, ?_⟩
    rw [ho₁, ht₁]
    exact hcase
  · obtain ⟨conn₀, h₀, hu₀, -, ht₀, -, hsame⟩ := hback id' conn₁ h₁
    rw [hcalls] at h
    rw [hu₀] at huser
    rw [ht₀] at hle
    rcases hi.seen j call id' conn₀ h h₀ huser hle with hr | hover
    · exact Or.inl hr
    · -- what is over was closed before, so this is another connection
      rcases hsame with rfl | hd
      · unfold Over
        rw [hcalls]
        exact Or.inr hover
      · exact absurd (hover.1.symm.trans hd) (by decide)

/-! ## The steps -/

theorem sameEngine_of_sub (h : SameEngine s)
    (hsub : ∀ userId i id time, Obtained s' userId i id time → Obtained s userId i id time) : SameEngine s' :=
  fun userId i j id id' time time' hij hj ho ho' =>
    h userId i j id id' time time' hij hj (hsub userId i id time ho) (hsub userId j id' time' ho')

theorem getEngine_eq (s : Client) (userId : Nat) :
    ∃ phase, getEngine s userId = { s with calls := s.calls ++ [⟨userId, phase⟩] } ∧
      ∀ id, phase = .returned id ↔ s.cachedEngines userId = some id := by
  unfold getEngine
  cases hc : s.cachedEngines userId with
  | none => exact ⟨_, rfl, by simp⟩
  | some id => exact ⟨_, rfl, by simp⟩

/-- Who begins now overlaps with nobody whose engine is ready. -/
theorem sameEngine_getEngine (hi : Inv s) (h : SameEngine s) (userId : Nat) : SameEngine (getEngine s userId) := by
  obtain ⟨phase, heq, -⟩ := getEngine_eq s userId
  rw [heq]
  intro userId' i j id id' time time' hij hj ⟨hcall, conn, hc, he⟩ ⟨hcall', hconn'⟩
  have htime := (hi.readied id conn time hc he).2
  have hlt : j < s.calls.length := by omega
  have hold : ∀ k, k < s.calls.length → (s.calls ++ [⟨userId, phase⟩])[k]? = s.calls[k]? :=
    fun k hk => List.getElem?_append_left hk
  exact h userId' i j id id' time time' hij hj ⟨(hold i (by omega)).symm.trans hcall, conn, hc, he⟩
    ⟨(hold j hlt).symm.trans hcall', hconn'⟩

theorem onError_spec (hi : Inv s) (hs : Single s) (id : Nat) :
    Inv (onError s id).2 ∧ Single (onError s id).2 ∧ (SameEngine s → SameEngine (onError s id).2) := by
  unfold onError
  cases hc : s.conns[id]? with
  | none => exact ⟨hi, hs, fun h => h⟩
  | some conn =>
    dsimp only
    split
    · exact ⟨hi, hs, fun h => h⟩
    · rename_i hd
      have hd : conn.deleted = false := by simpa using hd
      have hget := getElem?_updated hc { conn with deleted := true }
      refine ⟨inv_setConn hi hc rfl rfl rfl rfl rfl hd (fun _ h => Or.inl h) ?_, ?_, fun h => sameEngine_of_sub h ?_⟩
      · intro userId id' h
        obtain ⟨hu, hold⟩ := removed_eq_some.mp h
        refine ⟨hold, fun heq => ?_⟩
        subst heq
        obtain ⟨conn', hc', hu', -⟩ := hi.owned userId id hold
        rw [hc] at hc'
        cases hc'
        exact absurd hu'.symm hu
      · intro id' conn' hc' hd'
        have hc'' : (s.conns.set id _)[id']? = some conn' := hc'
        rw [hget] at hc''
        split at hc''
        · cases hc''
          cases hd'
        · rename_i hne
          -- the user's open connection is the closed one, so this is another user's
          have hentry := hs id' conn' hc'' hd'
          have hu : conn'.userId ≠ conn.userId := fun hu => hne (single_unique hs hc hc'' hd hd' hu.symm)
          exact removed_eq_some.mpr ⟨hu, hentry⟩
      · intro userId i id' time ⟨hcall, conn', hc', he⟩
        have hc'' : (s.conns.set id _)[id']? = some conn' := hc'
        rw [hget] at hc''
        split at hc''
        · rename_i heq
          cases hc''
          exact ⟨hcall, conn, heq ▸ hc, he⟩
        · exact ⟨hcall, conn', hc'', he⟩

theorem settle_spec {engine : Engine} (h : settle s id engine = some s') :
    ∃ conn, s.conns[id]? = some conn ∧ conn.deleted = false ∧ conn.engine = .pending ∧
      s' = setConn s id { conn with engine := engine } := by
  unfold settle at h
  cases hc : s.conns[id]? with
  | none =>
    rw [hc] at h
    cases h
  | some conn =>
    rw [hc] at h
    dsimp only at h
    split at h
    · cases h
    · rename_i hn
      cases h
      refine ⟨conn, rfl, ?_, ?_, rfl⟩
      · by_contra hd
        exact hn (Or.inl (by simpa using hd))
      · by_contra he
        exact hn (Or.inr he)

/-- An open connection settles and stays open. -/
theorem single_settle {engine : Engine} (hs : Single s) (hc : s.conns[id]? = some conn) :
    Single (setConn s id { conn with engine := engine }) := by
  intro id' conn' hc' hd'
  have hc'' : (s.conns.set id _)[id']? = some conn' := hc'
  rw [getElem?_updated hc] at hc''
  split at hc''
  · rename_i heq
    cases hc''
    exact heq ▸ hs id conn hc hd'
  · exact hs id' conn' hc'' hd'

/-- What calls got when a connection has become ready. -/
theorem obtained_ready (time : Nat) (hc : s.conns[id]? = some conn) {userId i id' time' : Nat} :
    Obtained (setConn s id { conn with engine := .ready time }) userId i id' time' ↔
      (id' = id ∧ time' = time ∧ s.calls[i]? = some ⟨userId, .returned id⟩) ∨
        (id' ≠ id ∧ Obtained s userId i id' time') := by
  unfold Obtained
  show s.calls[i]? = some _ ∧ (∃ conn', (s.conns.set id _)[id']? = some conn' ∧ _) ↔ _
  rw [getElem?_updated hc]
  by_cases h : id' = id
  · subst h
    rw [if_pos rfl]
    constructor
    · intro ⟨hcall, conn', hc', he⟩
      cases hc'
      cases he
      exact Or.inl ⟨rfl, rfl, hcall⟩
    · intro h
      rcases h with ⟨-, rfl, hcall⟩ | ⟨hne, -⟩
      · exact ⟨hcall, _, rfl, rfl⟩
      · exact absurd rfl hne
  · rw [if_neg (Ne.symm h)]
    simp [h]

/-- The call that opened a connection is the first one that got it. -/
theorem opener_le (hi : Inv s) (hc : s.conns[id]? = some conn) (h : s.calls[i]? = some ⟨userId, .returned id⟩) :
    conn.userId = userId ∧ conn.opener ≤ i ∧ (i = conn.opener ∨ conn.openedAt ≤ i) := by
  obtain ⟨conn', hc', hu, hcase⟩ := hi.got i userId id h
  rw [hc] at hc'
  cases hc'
  have hlt := (hi.opener id conn hc).2.1
  refine ⟨hu, ?_, hcase⟩
  rcases hcase with rfl | hle
  · exact Nat.le_refl _
  · omega

theorem ready_same_iff (hi : Inv s) (hsame : SameEngine s) (hc : s.conns[id]? = some conn) (hd : conn.deleted = false) :
    SameEngine (setConn s id { conn with engine := .ready s.calls.length }) ↔ Kept s (.ready id) := by
  obtain ⟨hopener, -, hopened⟩ := hi.opener id conn hc
  constructor
  · intro h conn₁ hc₁ id' conn' time hc' hu hne he
    rw [hc] at hc₁
    cases hc₁
    obtain ⟨hopener', hlt', hle'⟩ := hi.opener id' conn' hc'
    have htime := (hi.readied id' conn' time hc' he).1
    rw [hu] at hopener'
    have hgot := (obtained_ready s.calls.length hc).mpr (Or.inl ⟨rfl, rfl, hopener⟩)
    have hgot' := (obtained_ready s.calls.length hc).mpr (Or.inr ⟨hne, hopener', conn', hc', he⟩)
    by_contra hlt
    rcases Nat.lt_trichotomy conn.opener conn'.opener with hop | hop | hop
    · exact hne (h _ _ _ _ _ _ _ hop (getElem?_lt hopener') hgot hgot').symm
    · rw [hop, hopener'] at hopener
      cases hopener
      exact hne rfl
    · exact hne (h _ _ _ _ _ _ _ hop (by omega) hgot' hgot)
  · intro hk userId i j id₁ id₂ time₁ time₂ hij hj ho₁ ho₂
    rcases (obtained_ready _ hc).mp ho₁ with ⟨rfl, rfl, hcall₁⟩ | ⟨hne₁, hold₁⟩ <;>
      rcases (obtained_ready _ hc).mp ho₂ with ⟨rfl, rfl, hcall₂⟩ | ⟨hne₂, hold₂⟩
    · rfl
    · -- the later caller got another connection, the earlier one this one
      obtain ⟨hcall₂, conn₂, hc₂, he₂⟩ := hold₂
      obtain ⟨hu₁, -, hcase₁⟩ := opener_le hi hc hcall₁
      obtain ⟨hu₂, -, -⟩ := opener_le hi hc₂ hcall₂
      have hnot : ¬conn.openedAt ≤ j := by
        intro hle
        rcases hi.seen j _ id₁ conn hcall₂ hc hu₁ hle with hr | hover
        · cases hr
          exact hne₂ rfl
        · exact absurd (hover.1.symm.trans hd) (by decide)
      have hop : i = conn.opener := hcase₁.resolve_right (by omega)
      subst hop
      have hle := hk conn hc id₂ conn₂ time₂ hc₂ (hu₂.trans hu₁.symm) hne₂ he₂
      rcases hi.seen _ _ id₂ conn₂ hcall₁ hc₂ hu₂ hle with hr | hover
      · cases hr
        exact absurd rfl hne₂
      · have := hover.2.2 j userId hcall₂
        omega
    · -- the later caller got this one and came before the other was ready
      obtain ⟨hcall₁, conn₁, hc₁, he₁⟩ := hold₁
      obtain ⟨hu₂, hle₂, -⟩ := opener_le hi hc hcall₂
      obtain ⟨hu₁, -, -⟩ := opener_le hi hc₁ hcall₁
      have hle := hk conn hc id₁ conn₁ time₁ hc₁ (hu₁.trans hu₂.symm) hne₁ he₁
      rcases hi.seen j _ id₁ conn₁ hcall₂ hc₁ hu₁ (Nat.le_trans hle hle₂) with hr | hover
      · cases hr
        exact absurd rfl hne₁
      · have := hover.2.1 time₁ he₁
        omega
    · exact hsame userId i j id₁ id₂ time₁ time₂ hij hj hold₁ hold₂

/-- A call opens a connection: every open one stays its user's entry exactly when there
    was no entry. -/
theorem connect_single_iff (hi : Inv s) (hs : Single s) : Single (connect s i userId) ↔ s.cachedEngines userId = none := by
  constructor
  · intro h
    by_contra hsome
    obtain ⟨id, hid⟩ := Option.ne_none_iff_exists'.mp hsome
    obtain ⟨conn, hc, hu, hd⟩ := hi.owned userId id hid
    have hentry := h id conn (getElem?_kept _ hc) hd
    rw [hu] at hentry
    have : s.conns.length = id := by simpa [connect] using hentry
    have := getElem?_lt hc
    omega
  · intro hnone id conn hc hd
    have hc' : (s.conns ++ [_])[id]? = some conn := hc
    rw [getElem?_created] at hc'
    split at hc'
    · rename_i hid
      cases hc'
      rw [hid]
      exact Function.update_self ..
    · have hentry := hs id conn hc' hd
      have hu : conn.userId ≠ userId := by
        intro hu
        rw [hu, hnone] at hentry
        cases hentry
      simpa [connect, Function.update_of_ne hu] using hentry

theorem connect_same (h : SameEngine s) {a : Await} (hcall : s.calls[i]? = some ⟨userId, .awaiting a⟩) :
    SameEngine (connect s i userId) := by
  refine sameEngine_of_sub h fun userId' j id time ⟨hj, conn, hc, he⟩ => ?_
  have hj' : (s.calls.set i _)[j]? = some _ := hj
  have hc' : (s.conns ++ [_])[id]? = some conn := hc
  rw [getElem?_created] at hc'
  split at hc'
  · -- the new connection is not ready
    cases hc'
    cases he
  · rename_i hid
    rw [getElem?_updated hcall] at hj'
    split at hj'
    · cases hj'
      exact absurd rfl hid
    · exact ⟨hj', conn, hc', he⟩

theorem setPhase_same (h : SameEngine s) {a : Await} {phase : Phase} (hcall : s.calls[i]? = some ⟨userId, .awaiting a⟩)
    (hp : ∀ id, phase ≠ .returned id) : SameEngine (setPhase s i userId phase) := by
  refine sameEngine_of_sub h fun userId' j id time ⟨hj, hconn⟩ => ?_
  have hj' : (s.calls.set i _)[j]? = some _ := hj
  rw [getElem?_updated hcall] at hj'
  split at hj'
  · cases hj'
    exact absurd rfl (hp id)
  · exact ⟨hj', hconn⟩

/-- What the settling of an awaited promise leads to. -/
theorem resume_cases {answer : Answer} (h : resume s i answer = some s') :
    ∃ userId a, s.calls[i]? = some ⟨userId, .awaiting a⟩ ∧
      ((next userId a answer = some .connect ∧ s' = connect s i userId) ∨
        ((next userId a answer ≠ some .connect) ∧
          ∃ phase, (∀ id, phase ≠ .returned id) ∧ s' = setPhase s i userId phase)) := by
  unfold resume at h
  split at h
  · rename_i userId a hcall
    refine ⟨userId, a, hcall, ?_⟩
    obtain ⟨n, hn, rfl⟩ := Option.map_eq_some_iff.mp h
    cases n with
    | await a' => exact Or.inr ⟨by simp [hn], .awaiting a', by simp, rfl⟩
    | throw message => exact Or.inr ⟨by simp [hn], .threw message, by simp, rfl⟩
    | connect => exact Or.inl ⟨hn, rfl⟩
  · cases h

theorem step_inv (hi : Inv s) (hs : Single s) (h : step s e = some s') : Inv s' := by
  cases e with
  | getEngine userId =>
    cases h
    obtain ⟨phase, heq, hphase⟩ := getEngine_eq s userId
    rw [heq]
    exact inv_begin hi hs hphase
  | resume i answer =>
    obtain ⟨userId, a, hcall, ⟨-, rfl⟩ | ⟨-, phase, hp, rfl⟩⟩ := resume_cases h
    · exact inv_connect hi hcall
    · exact inv_setPhase hi hcall hp
  | ready id =>
    obtain ⟨conn, hc, hd, -, rfl⟩ := settle_spec h
    refine inv_setConn hi hc rfl rfl rfl rfl rfl hd (fun time ht => ?_) (fun _ _ h => ⟨h, fun _ => hd⟩)
    cases ht
    exact Or.inr rfl
  | reject id =>
    obtain ⟨conn, hc, hd, -, rfl⟩ := settle_spec h
    refine inv_setConn hi hc rfl rfl rfl rfl rfl hd (fun time ht => ?_) (fun _ _ h => ⟨h, fun _ => hd⟩)
    cases ht
  | error id =>
    cases h
    exact (onError_spec hi hs id).1

/-- A step keeps what is asked exactly when it is neither of the two. -/
theorem step_shared_iff (hi : Inv s) (hs : Single s) (hsame : SameEngine s) (h : step s e = some s') :
    (Single s' ∧ SameEngine s') ↔ Kept s e := by
  cases e with
  | getEngine userId =>
    cases h
    have hsame' := sameEngine_getEngine hi hsame userId
    obtain ⟨phase, heq, -⟩ := getEngine_eq s userId
    rw [heq] at hsame' ⊢
    exact ⟨fun _ => trivial, fun _ => ⟨hs, hsame'⟩⟩
  | resume i answer =>
    obtain ⟨userId, a, hcall, ⟨hn, rfl⟩ | ⟨hn, phase, hp, rfl⟩⟩ := resume_cases h
    · rw [and_iff_left (connect_same hsame hcall), connect_single_iff hi hs]
      constructor
      · intro hnone userId' a' hcall' _
        rw [hcall] at hcall'
        cases hcall'
        exact hnone
      · exact fun hk => hk userId a hcall hn
    · refine ⟨fun _ userId' a' hcall' hn' => ?_, fun _ => ⟨hs, setPhase_same hsame hcall hp⟩⟩
      rw [hcall] at hcall'
      cases hcall'
      exact absurd hn' hn
  | ready id =>
    obtain ⟨conn, hc, hd, -, rfl⟩ := settle_spec h
    rw [and_iff_right (single_settle hs hc)]
    exact ready_same_iff hi hsame hc hd
  | reject id =>
    obtain ⟨conn, hc, -, -, rfl⟩ := settle_spec h
    refine ⟨fun _ => trivial, fun _ => ⟨single_settle hs hc, sameEngine_of_sub hsame ?_⟩⟩
    intro userId j id' time ⟨hj, conn', hc', he⟩
    have hc'' : (s.conns.set id _)[id']? = some conn' := hc'
    rw [getElem?_updated hc] at hc''
    split at hc''
    · cases hc''
      cases he
    · exact ⟨hj, conn', hc'', he⟩
  | error id =>
    cases h
    obtain ⟨-, hs', hsame'⟩ := onError_spec hi hs id
    exact ⟨fun _ => trivial, fun _ => ⟨hs', hsame' hsame⟩⟩

/-! ## Runs -/

/-- In every run without the two every open connection is its user's entry and callers
    that overlap get one engine, and every further step keeps this exactly when it is
    neither of them. -/
theorem connections_shared (h : Reach sys Kept s) :
    Single s ∧ SameEngine s ∧ ∀ e s', sys.step s e = some s' → ((Single s' ∧ SameEngine s') ↔ Kept s e) := by
  have hinit : ∀ s, sys.init s → Inv s ∧ Single s ∧ SameEngine s := by
    intro s hs
    rw [show s = {} from hs]
    refine ⟨⟨?_, ?_, ?_, ?_, ?_⟩, ?_, ?_⟩
    · simp
    · simp
    · simp
    · simp
    · simp
    · intro id conn hc
      simp at hc
    · intro userId i j id id' time time' _ _ ⟨hcall, _⟩
      simp at hcall
  obtain ⟨hi, hs, hsame⟩ : Inv s ∧ Single s ∧ SameEngine s := h.inv hinit fun s e s' ⟨hi, hs, hsame⟩ hk h =>
    ⟨step_inv hi hs h, (step_shared_iff hi hs hsame h).mpr hk⟩
  exact ⟨hs, hsame, fun e s' h => step_shared_iff hi hs hsame h⟩

/-- A call opens a connection and a second one finds it in the cache. -/
theorem two_calls_shared :
    ∃ s, run sys {} [.getEngine 1, .resume 0 (.user (some true)), .resume 0 .resolved, .getEngine 1, .ready 0] = some s ∧
      Obtained s 1 0 0 2 ∧ Obtained s 1 1 0 2 ∧ Single s := by
  have h0 : Reach sys Kept {} := .init rfl
  have h1 := (h0.step (Ev.getEngine 1) trivial rfl).step (Ev.resume 0 (.user (some true)))
    (fun _ _ h hn => by cases h; cases hn) rfl
  have h2 := (h1.step (Ev.resume 0 .resolved) (fun _ _ h _ => by cases h; rfl) rfl).step (Ev.getEngine 1) trivial rfl
  have h3 := h2.step (Ev.ready 0) (fun conn hc id' conn' _ hc' _ hne _ => by
    match id', hc' with
    | 0, _ => exact absurd rfl hne) rfl
  exact ⟨_, rfl, ⟨rfl, _, rfl, rfl⟩, ⟨rfl, _, rfl, rfl⟩, (connections_shared h3).1⟩

/-- Two calls pass the check before either opens its connection, and two are open. -/
theorem overlapping_calls_open_two : ¬∀ s, Reach sys any s → Single s ∧ SameEngine s := by
  intro h
  have hr : Reach sys any _ := (Reach.init rfl).run
    [.getEngine 1, .getEngine 1, .resume 0 (.user (some true)), .resume 1 (.user (some true)),
      .resume 0 .resolved, .resume 1 .resolved] (fun _ _ _ => trivial) rfl
  exact absurd ((h _ hr).1 0 _ rfl rfl) (by decide)

end GenieCloud.Almond.EngineManagerClientK8s
