/-
  GenieCloud.K8s.UserReconciler — the reconciler of shared users
  (`Reconcile`, `handleSharedUser` and `getSharedBackendURL` of
  `go/k8s/controllers/user_controller.go`) over the backends' workers (`runEngine`,
  `killEngine` and `engineStatus` of `almond/worker_k8s.ts`).

  A `Reconcile` selects the user's backend from the endpoint list, asks it for the
  engine's status, kills the engine on the backend recorded in `Status.Backend` if that is
  another one, and runs the engine on the selected one unless it runs there. On every way
  out the deferred update writes the status it has come to. What the cluster answers to
  one `Reconcile` (`Answers`) is free, except that a `kill-engine` request succeeds and so
  does the update.

  `Status.Backend` is the only memory of where the engine runs. A `Reconcile` that stops
  early, because the endpoint list cannot be read or is empty or because the selected
  backend does not answer, overwrites it and kills nothing
  (`empty_endpoints_lose_the_backend`). `owned_iff_remembers`: as long as no `Reconcile`
  loses a backend so, the engine runs nowhere else whenever it is run; and after one that
  does, some `Reconcile` runs a second engine.
-/

import GenieCloud.Lib.Runs
import Mathlib.Data.String.Basic

namespace GenieCloud.K8s.UserReconciler

open GenieCloud.Lib.Runs

/-! ## The cluster -/

structure UserStatus where
  backend : String
  state : String
  deriving DecidableEq, Repr

structure User where
  mode : String
  /-- `DeletionTimestamp` is set. -/
  deleting : Bool
  status : UserStatus
  deriving DecidableEq, Repr

/-- An engine in a worker's map: whether it has got to `run`, and its activity status. -/
structure Engine where
  running : Bool
  status : String
  deriving DecidableEq, Repr

structure St where
  users : Nat → Option User
  /-- By backend URL and user id. -/
  engines : String → Nat → Option Engine

def init : St := ⟨fun _ => none, fun _ _ => none⟩

def St.setEngine (s : St) (backend : String) (uid : Nat) (x : Option Engine) : St :=
  { s with engines := Function.update s.engines backend (Function.update (s.engines backend) uid x) }

/-- The worker's `killEngine`. -/
def killEngine (uid : Nat) (s : St) (backend : String) : St := s.setEngine backend uid none

/-- The worker's `runEngine`: an engine that is there already stays. -/
def runEngine (uid : Nat) (s : St) (backend : String) : St :=
  match s.engines backend uid with
  | some _ => s
  | none => s.setEngine backend uid (some ⟨false, ""⟩)

/-- The worker's `engineStatus`. -/
def engineStatus (s : St) (backend : String) (uid : Nat) : String :=
  match s.engines backend uid with
  | some engine => if engine.running then engine.status else "stopped"
  | none => "stopped"

/-! ## Reconcile -/

structure Subset where
  addresses : List String
  /-- Its first port. -/
  port : Nat
  deriving DecidableEq, Repr

inductive RunAnswer where
  /-- The database failed before the request was sent. -/
  | unsent (err : String)
  | lost (err : String)
  /-- The worker ran it, but the reply was bad. -/
  | failed (err : String)
  | ok
  deriving DecidableEq, Repr

structure Answers where
  /-- The user's row, for `getUserFromName`. -/
  dbUser : Except String Unit
  /-- `Client.Get` of the User object fails, other than by not finding it. -/
  getErr : Option String
  endpoints : Except String (List Subset)
  /-- The `engine-status` request fails. -/
  statusErr : Option String
  deleteErr : Option String
  run : RunAnswer

inductive Request where
  | kill (backend : String)
  | run (backend : String)
  deriving DecidableEq, Repr

def url (ip : String) (port : Nat) : String := "http://" ++ (ip ++ ":" ++ toString port)

def getSharedBackendURL (uid : Nat) : Except String (List Subset) → Except String String
  | .error err => .error err
  | .ok subsets =>
    let backendURLs := subsets.flatMap fun subset => subset.addresses.map fun ip => url ip subset.port
    match backendURLs[uid % backendURLs.length]? with
    | none => .error "backend endpoints not found"
    | some urlStr => .ok urlStr

/-- What `handleSharedUser` returns, and the `kill-engine` requests it has sent. -/
structure Handled where
  user : Option User
  currentStatus : UserStatus
  /-- `Reconcile` returns: `stop` is set, or an error. -/
  stop : Bool
  kills : List String

def handleSharedUser (s : St) (uid : Nat) (a : Answers) : Handled :=
  let user := if a.getErr.isSome then none else s.users uid
  match getSharedBackendURL uid a.endpoints with
  | .error err => ⟨user, ⟨"", err⟩, true, []⟩
  | .ok backend =>
    match a.statusErr with
    | some err => ⟨user, ⟨backend, err⟩, true, []⟩
    | none =>
      let state := engineStatus s backend uid
      let up := state = "running" ∨ state = "idle"
      match user with
      | none => ⟨none, ⟨backend, state⟩, true, if a.getErr = none ∧ up then [backend] else []⟩
      | some u =>
        if u.deleting then ⟨some u, ⟨backend, state⟩, true, if up then [backend] else []⟩
        else ⟨some u, ⟨backend, state⟩, false, []⟩

/-- The deferred update of the User object. -/
def updateStatus (s : St) (uid : Nat) (user : Option User) (currentStatus : UserStatus) : St :=
  match user with
  | none => s
  | some u =>
    let mode := if u.mode = "" then "shared" else u.mode
    { s with users := Function.update s.users uid (some { u with mode, status := currentStatus }) }

/-- The backend has changed: the engine on the old one is killed. -/
def killOld (s : St) (uid : Nat) (user : User) (backend : String) : St × List Request :=
  if user.status.backend ≠ "" ∧ user.status.backend ≠ backend then
    (killEngine uid s user.status.backend, [.kill user.status.backend])
  else (s, [])

/-- The rest of `Reconcile`, when `handleSharedUser` does not stop it. -/
def proceed (s : St) (uid : Nat) (a : Answers) (user : User) (currentStatus : UserStatus) : St × List Request :=
  let (s, sent) := killOld s uid user currentStatus.backend
  if currentStatus.state = "running" then (updateStatus s uid (some user) currentStatus, sent)
  else if currentStatus.state = "idle" then
    let s := killEngine uid s currentStatus.backend
    let sent := sent ++ [.kill currentStatus.backend]
    match a.deleteErr with
    | none => ({ s with users := Function.update s.users uid none }, sent)
    | some _ => (updateStatus s uid (some user) currentStatus, sent)
  else
    let backend := currentStatus.backend
    match a.run with
    | .unsent err => (updateStatus s uid (some user) ⟨backend, err⟩, sent)
    | .lost err => (updateStatus s uid (some user) ⟨backend, err⟩, sent ++ [.run backend])
    | .failed err =>
      (updateStatus (runEngine uid s backend) uid (some user) ⟨backend, err⟩, sent ++ [.run backend])
    | .ok => (updateStatus (runEngine uid s backend) uid (some user) ⟨backend, "starting"⟩, sent ++ [.run backend])

/-- One `Reconcile`, and the requests it sends to the backends. -/
def reconcile (s : St) (uid : Nat) (a : Answers) : St × List Request :=
  match a.dbUser with
  | .error _ => (s, [])
  | .ok () =>
    let h := handleSharedUser s uid a
    match h.stop, h.user with
    | false, some user => proceed s uid a user h.currentStatus
    | _, user => (updateStatus (h.kills.foldl (killEngine uid) s) uid user h.currentStatus, h.kills.map .kill)

/-! ## Runs -/

inductive Ev where
  | reconcile (uid : Nat) (a : Answers)
  /-- The user is started: a User object is made. -/
  | create (uid : Nat)
  | markDeleted (uid : Nat)
  /-- An engine in a worker's map comes to `x`: it runs, idles, or is gone. -/
  | engine (backend : String) (uid : Nat) (x : Option Engine)

def step (s : St) : Ev → Option St
  | .reconcile uid a => some (reconcile s uid a).1
  | .create uid =>
    match s.users uid with
    | some _ => none
    | none => some { s with users := Function.update s.users uid (some ⟨"", false, ⟨"", ""⟩⟩) }
  | .markDeleted uid =>
    match s.users uid with
    | none => none
    | some u => some { s with users := Function.update s.users uid (some { u with deleting := true }) }
  | .engine backend uid x =>
    match s.engines backend uid with
    | none => none
    | some _ => some (s.setEngine backend uid x)

def sys : System St Ev where
  init s := s = init
  step := step

/-- When the event runs a user's engine on a backend, no other one is left with an engine of that user. -/
def Owned (s : St) : Ev → Prop
  | .reconcile uid a => ∀ backend, .run backend ∈ (reconcile s uid a).2 →
      ∀ other, other ≠ backend → (reconcile s uid a).1.engines other uid = none
  | _ => True

/-- The `Reconcile` stops before it has an engine status, though the User object is there and
    is not being deleted. -/
def Early (s : St) (uid : Nat) (a : Answers) : Prop :=
  a.dbUser = .ok () ∧ a.getErr = none ∧ (∃ u, s.users uid = some u ∧ u.deleting = false) ∧
    ((∃ err, getSharedBackendURL uid a.endpoints = .error err) ∨ a.statusErr ≠ none)

/-- The event is no early `Reconcile` that records a backend other than the one with the engine. -/
def Remembers (s : St) : Ev → Prop
  | .reconcile uid a => Early s uid a →
      ∀ backend, s.engines backend uid ≠ none → backend = (handleSharedUser s uid a).currentStatus.backend
  | _ => True

/-! ## What `handleSharedUser` comes to -/

theorem append_ne_empty (x y : String) (h : x ≠ "") : x ++ y ≠ "" := by
  intro he
  exact h (String.append_eq_empty_iff.mp he).1

theorem backend_ne_empty {uid : Nat} {endpoints : Except String (List Subset)} {backend : String}
    (h : getSharedBackendURL uid endpoints = .ok backend) : backend ≠ "" := by
  cases endpoints with
  | error err => cases h
  | ok subsets =>
    simp only [getSharedBackendURL] at h
    split at h
    · cases h
    · rename_i urlStr hu
      cases h
      obtain ⟨subset, -, hm⟩ := List.mem_flatMap.mp (List.mem_of_getElem? hu)
      obtain ⟨ip, -, rfl⟩ := List.mem_map.mp hm
      exact append_ne_empty _ _ (by decide)

variable {s s' : St} {uid : Nat} {a : Answers}

/-- The User object is found and not being deleted: either `handleSharedUser` stops early,
    or it goes on with a backend and the engine's status there. -/
theorem handle_found {u : User} (hg : a.getErr = none) (hu : s.users uid = some u) (hd : u.deleting = false) :
    (((∃ err, getSharedBackendURL uid a.endpoints = .error err) ∨ a.statusErr ≠ none) ∧
      ∃ cs, handleSharedUser s uid a = ⟨some u, cs, true, []⟩) ∨
    ∃ backend, getSharedBackendURL uid a.endpoints = .ok backend ∧ a.statusErr = none ∧
      handleSharedUser s uid a = ⟨some u, ⟨backend, engineStatus s backend uid⟩, false, []⟩ := by
  unfold handleSharedUser
  cases he : getSharedBackendURL uid a.endpoints with
  | error err => exact Or.inl ⟨Or.inl ⟨err, rfl⟩, ⟨"", err⟩, by simp [hg, hu]⟩
  | ok backend =>
    cases hs : a.statusErr with
    | some err => exact Or.inl ⟨Or.inr nofun, ⟨backend, err⟩, by simp [hg, hu]⟩
    | none => exact Or.inr ⟨backend, rfl, rfl, by simp [hg, hu, hd]⟩

/-- Otherwise it stops, with no User object or with one that is being deleted. -/
theorem handle_stops (h : ∀ u, a.getErr = none → s.users uid = some u → u.deleting = true) :
    (handleSharedUser s uid a).stop = true ∧
      (∀ u, (handleSharedUser s uid a).user = some u → s.users uid = some u ∧ u.deleting = true) ∧
      ((handleSharedUser s uid a).user = none → s.users uid = none ∨ (handleSharedUser s uid a).kills = []) := by
  have user : ∀ u, (if a.getErr.isSome then none else s.users uid) = some u → s.users uid = some u ∧ u.deleting = true := by
    intro u hu
    cases hg : a.getErr with
    | some err => simp [hg] at hu
    | none =>
      have hu : s.users uid = some u := by simpa [hg] using hu
      exact ⟨hu, h u hg hu⟩
  unfold handleSharedUser
  simp only
  split
  · exact ⟨rfl, user, fun _ => Or.inr rfl⟩
  · split
    · exact ⟨rfl, user, fun _ => Or.inr rfl⟩
    · split
      · rename_i hn
        refine ⟨rfl, nofun, fun _ => ?_⟩
        cases hg : a.getErr with
        | some err => exact Or.inr (by simp)
        | none => exact Or.inl (by simpa [hg] using hn)
      · rename_i u hu
        have hu' := user u hu
        rw [if_pos hu'.2]
        exact ⟨rfl, fun v hv => by cases hv; exact hu', nofun⟩

/-! ## Frames -/

theorem setEngine_engines (s : St) (b : String) (uid : Nat) (x : Option Engine) (b' : String) (v : Nat) :
    (s.setEngine b uid x).engines b' v = if b' = b ∧ v = uid then x else s.engines b' v := by
  simp only [St.setEngine, Function.update_apply]
  by_cases hb : b' = b
  · subst hb
    by_cases hv : v = uid
    · simp [hv]
    · simp [hv]
  · simp [hb]

/-- Nothing changes for other users. -/
def Frame (uid : Nat) (s t : St) : Prop := ∀ v, v ≠ uid → t.users v = s.users v ∧ ∀ b, t.engines b v = s.engines b v

theorem Frame.refl (uid : Nat) (s : St) : Frame uid s s := fun _ _ => ⟨rfl, fun _ => rfl⟩

theorem Frame.trans {t r : St} (h1 : Frame uid s t) (h2 : Frame uid t r) : Frame uid s r := fun v hv =>
  ⟨(h2 v hv).1.trans (h1 v hv).1, fun b => ((h2 v hv).2 b).trans ((h1 v hv).2 b)⟩

theorem frame_setEngine (s : St) (b : String) (uid : Nat) (x : Option Engine) : Frame uid s (s.setEngine b uid x) :=
  fun v hv => ⟨rfl, fun b' => by rw [setEngine_engines, if_neg fun h => hv h.2]⟩

theorem frame_runEngine (s : St) (uid : Nat) (b : String) : Frame uid s (runEngine uid s b) := by
  unfold runEngine
  split
  · exact .refl uid s
  · exact frame_setEngine s b uid _

theorem frame_updateStatus (s : St) (uid : Nat) (user : Option User) (cs : UserStatus) :
    Frame uid s (updateStatus s uid user cs) := by
  intro v hv
  unfold updateStatus
  cases user with
  | none => exact ⟨rfl, fun _ => rfl⟩
  | some u => exact ⟨Function.update_of_ne hv .., fun _ => rfl⟩

theorem frame_kills (s : St) (uid : Nat) (l : List String) : Frame uid s (l.foldl (killEngine uid) s) := by
  induction l generalizing s with
  | nil => exact .refl uid s
  | cons b l ih => exact (frame_setEngine s b uid none).trans (ih _)

theorem frame_killOld (s : St) (uid : Nat) (u : User) (b : String) : Frame uid s (killOld s uid u b).1 := by
  unfold killOld
  split
  · exact frame_setEngine s _ uid none
  · exact .refl uid s

/-- The ways out of `proceed`: without a request to the selected backend, with the idle
    engine killed there, and with `run-engine` sent there. -/
inductive Proceeded (s : St) (uid : Nat) (u : User) (backend : String) : St × List Request → Prop
  | quiet (state : String) : Proceeded s uid u backend
      (updateStatus (killOld s uid u backend).1 uid (some u) ⟨backend, state⟩, (killOld s uid u backend).2)
  | removed : Proceeded s uid u backend
      ({ killEngine uid (killOld s uid u backend).1 backend with
          users := Function.update (killOld s uid u backend).1.users uid none },
        (killOld s uid u backend).2 ++ [.kill backend])
  | kept (state : String) : Proceeded s uid u backend
      (updateStatus (killEngine uid (killOld s uid u backend).1 backend) uid (some u) ⟨backend, state⟩,
        (killOld s uid u backend).2 ++ [.kill backend])
  | sent (state : String) (t : St) :
      t = (killOld s uid u backend).1 ∨ t = runEngine uid (killOld s uid u backend).1 backend →
      Proceeded s uid u backend
        (updateStatus t uid (some u) ⟨backend, state⟩, (killOld s uid u backend).2 ++ [.run backend])

theorem proceed_cases (s : St) (uid : Nat) (a : Answers) (u : User) (cs : UserStatus) :
    Proceeded s uid u cs.backend (proceed s uid a u cs) := by
  unfold proceed
  simp only
  split
  · exact .quiet cs.state
  · split
    · split
      · exact .removed
      · exact .kept cs.state
    · split
      · exact .quiet _
      · exact .sent _ _ (Or.inl rfl)
      · exact .sent _ _ (Or.inr rfl)
      · exact .sent _ _ (Or.inr rfl)

theorem Proceeded.frame {u : User} {backend : String} {out : St × List Request} (h : Proceeded s uid u backend out) :
    Frame uid s out.1 := by
  have hkill := frame_killOld s uid u backend
  cases h with
  | quiet state => exact hkill.trans (frame_updateStatus (killOld s uid u backend).1 uid (some u) ⟨backend, state⟩)
  | removed =>
    have hidle := hkill.trans (frame_setEngine (killOld s uid u backend).1 backend uid none)
    exact fun v hv => ⟨(Function.update_of_ne hv ..).trans (hidle v hv).1, (hidle v hv).2⟩
  | kept state =>
    have hidle := hkill.trans (frame_setEngine (killOld s uid u backend).1 backend uid none)
    exact hidle.trans (frame_updateStatus (killEngine uid (killOld s uid u backend).1 backend) uid (some u) ⟨backend, state⟩)
  | sent state t ht =>
    refine Frame.trans ?_ (frame_updateStatus t uid (some u) ⟨backend, state⟩)
    rcases ht with rfl | rfl
    · exact hkill
    · exact hkill.trans (frame_runEngine _ uid backend)

theorem frame_reconcile (s : St) (uid : Nat) (a : Answers) : Frame uid s (reconcile s uid a).1 := by
  unfold reconcile
  split
  · exact .refl uid s
  · simp only
    split
    · exact (proceed_cases ..).frame
    · exact (frame_kills _ _ _).trans (frame_updateStatus _ _ _ _)

/-! ## The invariant -/

/-- The engine of a user, unless being deleted, is on the backend of the status. -/
def At (s : St) (uid : Nat) : Prop :=
  ∀ backend, s.engines backend uid ≠ none →
    backend ≠ "" ∧ ∃ u, s.users uid = some u ∧ (u.deleting = false → u.status.backend = backend)

def Inv (s : St) : Prop := ∀ uid, At s uid

theorem kills_engines (s : St) (uid : Nat) (l : List String) (b : String)
    (h : (l.foldl (killEngine uid) s).engines b uid ≠ none) : s.engines b uid ≠ none := by
  induction l generalizing s with
  | nil => exact h
  | cons b' l ih =>
    have := ih (killEngine uid s b') h
    rw [killEngine, setEngine_engines] at this
    split at this
    · exact absurd rfl this
    · exact this

theorem kills_users (s : St) (uid : Nat) (l : List String) : (l.foldl (killEngine uid) s).users = s.users := by
  induction l generalizing s with
  | nil => rfl
  | cons b l ih => exact ih (killEngine uid s b)

/-- Once the old backend's engine is killed, the user's only engine is on the new one. -/
theorem killOld_engines (h : At s uid) {u : User} (hu : s.users uid = some u) (hd : u.deleting = false)
    {backend b : String} (hb : (killOld s uid u backend).1.engines b uid ≠ none) : b = backend := by
  unfold killOld at hb
  split at hb
  · simp only [killEngine, setEngine_engines] at hb
    split at hb
    · exact absurd rfl hb
    · rename_i hne
      obtain ⟨-, v, hv, hst⟩ := h b hb
      rw [hu] at hv; cases hv
      exact absurd ⟨(hst hd).symm, trivial⟩ hne
  · rename_i hch
    obtain ⟨hne, v, hv, hst⟩ := h b hb
    rw [hu] at hv; cases hv
    by_contra hc
    exact hch ⟨by rw [hst hd]; exact hne, by rw [hst hd]; exact hc⟩

theorem runEngine_engines (s : St) (uid : Nat) (backend b : String)
    (h : (runEngine uid s backend).engines b uid ≠ none) : b = backend ∨ s.engines b uid ≠ none := by
  unfold runEngine at h
  split at h
  · exact Or.inr h
  · rw [setEngine_engines] at h
    split at h
    · rename_i he; exact Or.inl he.1
    · exact Or.inr h

/-- However it ends, what is left of the user's engines is on the selected backend. -/
theorem Proceeded.engines {u : User} {backend : String} {out : St × List Request} (hp : Proceeded s uid u backend out)
    (h : At s uid) (hu : s.users uid = some u) (hd : u.deleting = false) {b : String}
    (hb : out.1.engines b uid ≠ none) : b = backend := by
  cases hp with
  | quiet state => exact killOld_engines h hu hd hb
  | removed =>
    have hb : (killEngine uid (killOld s uid u backend).1 backend).engines b uid ≠ none := hb
    exact killOld_engines h hu hd (kills_engines _ uid [backend] b hb)
  | kept state =>
    have hb : (killEngine uid (killOld s uid u backend).1 backend).engines b uid ≠ none := hb
    exact killOld_engines h hu hd (kills_engines _ uid [backend] b hb)
  | sent state t ht =>
    rcases ht with rfl | rfl
    · exact killOld_engines h hu hd hb
    · exact (runEngine_engines _ uid backend b hb).elim id fun hb => killOld_engines h hu hd hb

theorem Proceeded.at {u : User} {backend : String} {out : St × List Request} (hp : Proceeded s uid u backend out)
    (h : At s uid) (hu : s.users uid = some u) (hd : u.deleting = false) (hne : backend ≠ "") : At out.1 uid := by
  intro b hb
  obtain rfl := hp.engines h hu hd hb
  refine ⟨hne, ?_⟩
  cases hp with
  | quiet state => exact ⟨_, Function.update_self .., fun _ => rfl⟩
  | removed =>
    refine absurd ?_ hb
    show (killEngine uid (killOld s uid u b).1 b).engines b uid = none
    rw [killEngine, setEngine_engines, if_pos ⟨rfl, rfl⟩]
  | kept state => exact ⟨_, Function.update_self .., fun _ => rfl⟩
  | sent state t ht => exact ⟨_, Function.update_self .., fun _ => rfl⟩

/-- The ways a `Reconcile` goes. -/
theorem reconcile_cases (s : St) (uid : Nat) (a : Answers) :
    a.dbUser ≠ .ok () ∧ reconcile s uid a = (s, []) ∨
    (∃ u backend, s.users uid = some u ∧ u.deleting = false ∧ backend ≠ "" ∧
      Proceeded s uid u backend (reconcile s uid a)) ∨
    (∃ u cs, Early s uid a ∧ s.users uid = some u ∧ handleSharedUser s uid a = ⟨some u, cs, true, []⟩ ∧
      reconcile s uid a = (updateStatus s uid (some u) cs, [])) ∨
    ∃ user cs kills, (∀ u, user = some u → s.users uid = some u ∧ u.deleting = true) ∧
      (user = none → s.users uid = none ∨ kills = []) ∧
      reconcile s uid a = (updateStatus (kills.foldl (killEngine uid) s) uid user cs, kills.map .kill) := by
  unfold reconcile
  cases hdb : a.dbUser with
  | error err => exact Or.inl ⟨nofun, rfl⟩
  | ok _ =>
    refine Or.inr ?_
    by_cases hf : ∃ u, a.getErr = none ∧ s.users uid = some u ∧ u.deleting = false
    · obtain ⟨u, hg, hu, hd⟩ := hf
      rcases handle_found hg hu hd with ⟨hearly, cs, hh⟩ | ⟨backend, hb, -, hh⟩
      · exact Or.inr (Or.inl ⟨u, cs, ⟨hdb, hg, ⟨u, hu, hd⟩, hearly⟩, hu, hh, by rw [hh]; rfl⟩)
      · refine Or.inl ⟨u, backend, hu, hd, backend_ne_empty hb, ?_⟩
        rw [hh]
        exact proceed_cases s uid a u ⟨backend, engineStatus s backend uid⟩
    · have hdel : ∀ u, a.getErr = none → s.users uid = some u → u.deleting = true := fun u hg hu => by
        by_contra hd
        exact hf ⟨u, hg, hu, by simpa using hd⟩
      obtain ⟨h1, h2, h3⟩ := handle_stops hdel
      refine Or.inr (Or.inr ⟨_, (handleSharedUser s uid a).currentStatus, _, h2, h3, ?_⟩)
      simp only [h1]

theorem Frame.at {t : St} (h : Frame uid s t) {v : Nat} (hv : v ≠ uid) (ha : At s v) : At t v := by
  intro b hb
  rw [(h v hv).2 b] at hb
  obtain ⟨h1, u, h2, h3⟩ := ha b hb
  exact ⟨h1, u, (h v hv).1.trans h2, h3⟩

theorem reconcile_inv (h : Inv s) (hr : Remembers s (.reconcile uid a)) : Inv (reconcile s uid a).1 := by
  intro v
  by_cases hv : v ≠ uid
  · exact (frame_reconcile s uid a).at hv (h v)
  · obtain rfl : v = uid := not_not.mp hv
    obtain ⟨-, he⟩ | ⟨u, backend, hu, hd, hne, hp⟩ | ⟨u, cs, hearly, hu, hh, he⟩ | ⟨user, cs, kills, h1, h2, he⟩ :=
      reconcile_cases s v a
    · rw [he]; exact h v
    · exact hp.at (h v) hu hd hne
    · rw [he]
      intro b hb
      have hcs := hr hearly b hb
      rw [hh] at hcs
      exact ⟨(h v b hb).1, _, Function.update_self .., fun _ => hcs.symm⟩
    · rw [he]
      cases user with
      | none =>
        intro b hb
        have hb := kills_engines s v kills b hb
        obtain ⟨g1, u, g2, g3⟩ := h v b hb
        refine ⟨g1, u, ?_, g3⟩
        show (kills.foldl (killEngine v) s).users v = some u
        rw [kills_users]; exact g2
      | some u =>
        obtain ⟨hu, hd⟩ := h1 u rfl
        intro b hb
        have hb : (kills.foldl (killEngine v) s).engines b v ≠ none := hb
        refine ⟨(h v b (kills_engines s v kills b hb)).1, _, Function.update_self .., fun hd' => ?_⟩
        have hd' : u.deleting = false := hd'
        rw [hd] at hd'; cases hd'

theorem step_inv {e : Ev} (h : Inv s) (hr : Remembers s e) (hs : step s e = some s') : Inv s' := by
  cases e with
  | reconcile uid a => cases hs; exact reconcile_inv h hr
  | create uid =>
    simp only [step] at hs
    split at hs
    · cases hs
    · rename_i hn
      cases hs
      intro v b hb
      obtain ⟨h1, u, h2, h3⟩ := h v b hb
      refine ⟨h1, u, ?_, h3⟩
      have hv : v ≠ uid := by rintro rfl; rw [hn] at h2; cases h2
      exact (Function.update_of_ne hv ..).trans h2
  | markDeleted uid =>
    simp only [step] at hs
    split at hs
    · cases hs
    · rename_i w hw
      cases hs
      intro v b hb
      obtain ⟨h1, u, h2, h3⟩ := h v b hb
      refine ⟨h1, ?_⟩
      by_cases hv : v = uid
      · rw [hv]
        exact ⟨{ w with deleting := true }, Function.update_self .., fun hd => nomatch hd⟩
      · exact ⟨u, (Function.update_of_ne hv ..).trans h2, h3⟩
  | engine backend uid x =>
    simp only [step] at hs
    split at hs
    · cases hs
    · rename_i hx
      cases hs
      intro v b hb
      refine h v b ?_
      rw [setEngine_engines] at hb
      split at hb
      · rename_i he; rw [he.1, he.2, hx]; nofun
      · exact hb

theorem inv (h : Reach sys Remembers s) : Inv s := by
  refine h.inv (P := Inv) ?_ fun _ _ _ hi hr hs => step_inv hi hr hs
  rintro _ rfl uid b hb
  exact absurd rfl hb

/-! ## Ownership -/

theorem mem_killOld {u : User} {b : String} {r : Request} (h : r ∈ (killOld s uid u b).2) : ∃ old, r = .kill old := by
  unfold killOld at h
  split at h
  · exact ⟨_, List.mem_singleton.mp h⟩
  · cases h

/-- Only the selected backend is sent a run. -/
theorem Proceeded.run_eq {u : User} {selected backend : String} {out : St × List Request}
    (hp : Proceeded s uid u selected out) (h : .run backend ∈ out.2) : backend = selected := by
  have old : Request.run backend ∉ (killOld s uid u selected).2 := fun hm => by
    obtain ⟨_, hr⟩ := mem_killOld hm
    cases hr
  cases hp with
  | quiet state => exact absurd h old
  | removed => exact (List.mem_append.mp h).elim (fun hm => absurd hm old) fun hm => by cases List.mem_singleton.mp hm
  | kept state => exact (List.mem_append.mp h).elim (fun hm => absurd hm old) fun hm => by cases List.mem_singleton.mp hm
  | sent state t ht =>
    refine (List.mem_append.mp h).elim (fun hm => absurd hm old) fun hm => ?_
    cases List.mem_singleton.mp hm; rfl

theorem owned_of_inv (h : Inv s) (e : Ev) : Owned s e := by
  cases e with
  | reconcile uid a =>
    intro backend hsend other hne
    by_contra hb
    obtain ⟨-, he⟩ | ⟨u, selected, hu, hd, -, hp⟩ | ⟨u, cs, -, -, -, he⟩ | ⟨user, cs, kills, -, -, he⟩ :=
      reconcile_cases s uid a
    · rw [he] at hsend; cases hsend
    · exact hne ((hp.engines (h uid) hu hd hb).trans (hp.run_eq hsend).symm)
    · rw [he] at hsend; cases hsend
    · rw [he] at hsend
      obtain ⟨_, -, hr⟩ := List.mem_map.mp hsend
      cases hr
  | create uid => trivial
  | markDeleted uid => trivial
  | engine backend uid x => trivial

/-- The cluster has one backend, which answers. -/
def oneBackend (ip : String) : Answers :=
  { dbUser := .ok (), getErr := none, endpoints := .ok [⟨[ip], 0⟩], statusErr := none, deleteErr := none, run := .ok }

theorem oneBackend_url (uid : Nat) (ip : String) :
    getSharedBackendURL uid (oneBackend ip).endpoints = .ok (url ip 0) := by
  simp [getSharedBackendURL, oneBackend, Nat.mod_one]

theorem killOld_other {u : User} {b c : String} (hb : b ≠ u.status.backend) :
    (killOld s uid u c).1.engines b uid = s.engines b uid := by
  unfold killOld
  split
  · simp only [killEngine, setEngine_engines]
    rw [if_neg fun h => hb h.1]
  · rfl

theorem runEngine_other {b c : String} (hb : b ≠ c) : (runEngine uid s c).engines b uid = s.engines b uid := by
  unfold runEngine
  split
  · rfl
  · rw [setEngine_engines, if_neg fun h => hb h.1]

/-- With another backend in the status than the one with the engine, the next `Reconcile`
    can run a second engine. -/
theorem lost_not_owned {u : User} {b : String} (hu : s.users uid = some u) (hd : u.deleting = false)
    (hb : s.engines b uid ≠ none) (hst : b ≠ u.status.backend) (honly : ∀ c, c ≠ b → s.engines c uid = none) :
    ∃ e, ¬ Owned s e := by
  obtain ⟨ip, hip⟩ : ∃ ip, url ip 0 ≠ b := by
    by_cases h0 : url "0" 0 = b
    · exact ⟨"1", by rw [← h0]; decide⟩
    · exact ⟨"0", h0⟩
  refine ⟨.reconcile uid (oneBackend ip), fun hown => ?_⟩
  have hstopped : engineStatus s (url ip 0) uid = "stopped" := by rw [engineStatus, honly _ hip]
  have hrec : reconcile s uid (oneBackend ip) =
      (updateStatus (runEngine uid (killOld s uid u (url ip 0)).1 (url ip 0)) uid (some u) ⟨url ip 0, "starting"⟩,
        (killOld s uid u (url ip 0)).2 ++ [.run (url ip 0)]) := by
    rcases handle_found (a := oneBackend ip) rfl hu hd with ⟨(⟨err, he⟩ | hs), -⟩ | ⟨backend, hbe, -, hh⟩
    · rw [oneBackend_url] at he; cases he
    · exact absurd rfl hs
    · rw [oneBackend_url] at hbe
      cases hbe
      rw [hstopped] at hh
      simp only [reconcile, hh, proceed]
      simp [oneBackend]
  have hother := hown (url ip 0) (by rw [hrec]; simp) b (Ne.symm hip)
  rw [hrec] at hother
  refine hb ?_
  rw [← killOld_other hst, ← runEngine_other (Ne.symm hip)]
  exact hother

/-- In a run where no early `Reconcile` records another backend than the one with the engine,
    a `Reconcile` that runs a user's engine leaves none of that user elsewhere; and the next
    event keeps it so in whatever follows exactly if it is no such `Reconcile`. -/
theorem owned_iff_remembers (h : Reach sys Remembers s) :
    (∀ e, Owned s e) ∧ ∀ e s', sys.step s e = some s' →
      (Remembers s e ↔ ∀ t, Path sys Remembers s' t → ∀ e', Owned t e') := by
  have hi := inv h
  refine ⟨owned_of_inv hi, fun e s' hs => ⟨fun hr t hp => owned_of_inv (inv ((h.step e hr hs).path hp)), fun hall => ?_⟩⟩
  cases e with
  | create uid => trivial
  | markDeleted uid => trivial
  | engine backend uid x => trivial
  | reconcile uid a =>
    cases hs
    intro hearly b hb
    obtain ⟨hdb, hg, ⟨u, hu, hd⟩, hstop⟩ := hearly
    obtain ⟨-, hb', hst⟩ := hi uid b hb
    rcases handle_found hg hu hd with ⟨-, cs, hh⟩ | ⟨backend, hbe, hse, -⟩
    · rw [hh]
      by_contra hne
      have hrec : reconcile s uid a = (updateStatus s uid (some u) cs, []) := by
        simp only [reconcile, hdb, hh]; rfl
      have honly : ∀ c, c ≠ b → s.engines c uid = none := by
        intro c hc
        by_contra hce
        obtain ⟨-, v, hv, hvs⟩ := hi uid c hce
        obtain ⟨hw, hws⟩ := hst
        rw [hu] at hv hw
        cases hv; cases hw
        exact hc ((hvs hd).symm.trans (hws hd))
      have hafter : (reconcile s uid a).1.users uid =
          some { u with mode := if u.mode = "" then "shared" else u.mode, status := cs } := by
        rw [hrec]; exact Function.update_self ..
      have hengines : (reconcile s uid a).1.engines = s.engines := by rw [hrec]; rfl
      obtain ⟨e', he'⟩ := lost_not_owned hafter hd (by rw [hengines]; exact hb) hne (by rw [hengines]; exact honly)
      exact he' (hall _ .refl e')
    · rcases hstop with ⟨err, he⟩ | hse'
      · rw [hbe] at he; cases he
      · exact absurd hse hse'

theorem oneBackend_remembers (s : St) (uid : Nat) (ip : String) : Remembers s (.reconcile uid (oneBackend ip)) := by
  rintro ⟨-, -, -, ⟨err, he⟩ | hs⟩
  · rw [oneBackend_url] at he; cases he
  · exact absurd rfl hs

/-- User 1 is started and runs on one backend. -/
def started : List Ev := [.create 1, .reconcile 1 (oneBackend "a")]

/-- The backend moves: the old engine is killed before the new one is run. -/
theorem moved_engine_is_owned :
    ∃ s, run sys init started = some s ∧ Request.run (url "b" 0) ∈ (reconcile s 1 (oneBackend "b")).2 ∧
      Owned s (.reconcile 1 (oneBackend "b")) := by
  have h1 := Reach.run (.init rfl : Reach sys Remembers init) [.create 1] (by simp [Remembers]) rfl
  have h2 := h1.step (.reconcile 1 (oneBackend "a")) (oneBackend_remembers _ _ _) rfl
  exact ⟨_, rfl, by decide, (owned_iff_remembers h2).1 _⟩

/-- Between the two the endpoint list is empty once: the status forgets the old backend,
    and the engine is run on the new one while it runs on the old. -/
theorem empty_endpoints_lose_the_backend :
    ∃ s, run sys init (started ++ [.reconcile 1 { oneBackend "a" with endpoints := .ok [] }]) = some s ∧
      (reconcile s 1 (oneBackend "b")).2 = [.run (url "b" 0)] ∧
      (reconcile s 1 (oneBackend "b")).1.engines (url "a" 0) 1 = some ⟨false, ""⟩ ∧
      ¬ Owned s (.reconcile 1 (oneBackend "b")) := by
  refine ⟨_, rfl, by decide, by decide, fun h => ?_⟩
  exact absurd (h (url "b" 0) (by decide) (url "a" 0) (by decide)) (by decide)

end GenieCloud.K8s.UserReconciler
