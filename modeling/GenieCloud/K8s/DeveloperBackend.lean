/-
  GenieCloud.K8s.DeveloperBackend — the backends of developers
  (`Reconcile`, `getUserFromName`, `handleDeveloper`, `createDeployment`, `createService` and
  `deleteDeploymentService` of `go/k8s/controllers/user_controller.go`).

  A developer's engine runs in a deployment of its own, behind a service. One `Reconcile` gets
  one step further: it makes the deployment, waits for it, makes the service, waits for its
  address, and from there does as for the shared backends (`GenieCloud.K8s.UserReconciler`).
  It is called for the names in a work queue: those of User objects that changed, and those
  for which the last `Reconcile` failed or asked to be called again. A restart of the controller
  loses the queue and lists the objects there are.

  - `live_queued`: a User object that is not being deleted is always in the queue.
  - `converges`: once the cluster answers and does its part, four calls bring a developer's
    engine up, whatever was there before, and later ones keep it.
  - `leftovers_iff`: deployments and services outlive a User object only until its name
    comes up, exactly as long as no `Reconcile` that finds it gone takes the user for no
    developer, and no restart comes in between.
  - `engine_forgotten`: the engine on a shared backend of a user who becomes a developer is
    never killed.

  As there, a `kill-engine` request succeeds and so does the deferred update.
-/

import GenieCloud.K8s.UserReconciler

namespace GenieCloud.K8s.DeveloperBackend

open GenieCloud.Lib.Runs UserReconciler

/-! ## The cluster -/

structure Service where
  clusterIP : String
  ports : List Nat
  deriving DecidableEq

structure Cluster extends St where
  /-- The available replicas of the deployment of a user. -/
  deployments : Nat → Option Int
  services : Nat → Option Service
  /-- The names that `Reconcile` is going to be called for. -/
  queue : Nat → Bool

def empty : Cluster := ⟨init, fun _ => none, fun _ => none, fun _ => false⟩

/-- The address and the first port, when there are. -/
def Service.backend (service : Service) : Option String :=
  if service.clusterIP = "" then none else service.ports.head?.map (url service.clusterIP)

/-- What the cluster answers, with the errors of `Get` other than not finding the object. -/
structure Answers extends UserReconciler.Answers where
  /-- Developers have backends of their own, and the user is in an organization, by a row that
      can be two hours old. -/
  developer : Bool
  deploymentErr : Option String
  createDeploymentErr : Option String
  deleteDeploymentErr : Option String
  serviceErr : Option String
  createServiceErr : Option String
  deleteServiceErr : Option String

/-! ## Reconcile -/

/-- Whether the deletion went well. When `Get` fails, `Delete` is tried all the same. -/
def deleteService (s : Cluster) (uid : Nat) (a : Answers) : Cluster × List Request × Bool :=
  match s.services uid with
  | none => (s, [], a.serviceErr.isNone)
  | some service =>
    let backend := if a.serviceErr.isSome then none else service.backend
    let killed := { s with toSt := backend.toList.foldl (killEngine uid) s.toSt }
    match a.deleteServiceErr with
    | some _ => (killed, backend.toList.map .kill, false)
    | none => ({ killed with services := Function.update s.services uid none }, backend.toList.map .kill, true)

def deleteDeployment (s : Cluster) (uid : Nat) (a : Answers) : Cluster × Bool :=
  match s.deployments uid with
  | none => (s, a.deploymentErr.isNone)
  | some _ =>
    match a.deleteDeploymentErr with
    | some _ => (s, false)
    | none => ({ s with deployments := Function.update s.deployments uid none }, true)

def deleteDeploymentService (s : Cluster) (uid : Nat) (a : Answers) : Cluster × List Request × Bool :=
  let (s, sent, ok1) := deleteService s uid a
  let (s, ok2) := deleteDeployment s uid a
  (s, sent, ok1 && ok2)

/-- What `handleDeveloper` and `handleSharedUser` have done and return. -/
structure Handled where
  cluster : Cluster
  user : Option User
  currentStatus : UserStatus
  /-- `Reconcile` returns: `stop` is set, or an error. -/
  stop : Bool
  /-- It is to be called again: `RequeueAfter` is set, or an error. -/
  again : Bool
  sent : List Request

-- the ports of the template of services
variable (ports : List Nat)

def handleDeveloper (s : Cluster) (uid : Nat) (a : Answers) : Handled :=
  if a.getErr.isSome then ⟨s, none, ⟨"", ""⟩, true, true, []⟩
  else match s.users uid with
  | none =>
    let (s, sent, ok) := deleteDeploymentService s uid a
    ⟨s, none, ⟨"", ""⟩, true, !ok, sent⟩
  | some user =>
    if user.deleting then
      let (s, sent, ok) := deleteDeploymentService s uid a
      ⟨s, some user, ⟨"", "stopping"⟩, true, !ok, sent⟩
    else if a.deploymentErr.isSome then ⟨s, some user, ⟨"", ""⟩, true, true, []⟩
    else match s.deployments uid with
    | none =>
      if a.createDeploymentErr.isSome then ⟨s, some user, ⟨"", ""⟩, true, true, []⟩
      else ⟨{ s with deployments := Function.update s.deployments uid (some 0) }, some user, ⟨"", ""⟩, true, true, []⟩
    | some availableReplicas =>
      if availableReplicas ≤ 0 then ⟨s, some user, ⟨"", "starting"⟩, true, true, []⟩
      else if a.serviceErr.isSome then ⟨s, some user, ⟨"", ""⟩, true, true, []⟩
      else match s.services uid with
      | none =>
        if a.createServiceErr.isSome then ⟨s, some user, ⟨"", ""⟩, true, true, []⟩
        else ⟨{ s with services := Function.update s.services uid (some ⟨"", ports⟩) }, some user, ⟨"", "starting"⟩, true,
          true, []⟩
      | some service =>
        if service.clusterIP = "" then ⟨s, some user, ⟨"", "starting"⟩, true, true, []⟩
        else match service.ports with
        | [] => ⟨s, some user, ⟨"", ""⟩, true, true, []⟩
        | port :: _ =>
          let backend := url service.clusterIP port
          match a.statusErr with
          | some err => ⟨s, some user, ⟨backend, err⟩, true, true, []⟩
          | none => ⟨s, some user, ⟨backend, engineStatus s.toSt backend uid⟩, false, true, []⟩

def handleSharedUser (s : Cluster) (uid : Nat) (a : Answers) : Handled :=
  let h := UserReconciler.handleSharedUser s.toSt uid a.toAnswers
  let again := match getSharedBackendURL uid a.endpoints with
    | .error _ => true
    | .ok _ => a.statusErr.isSome || a.getErr.isSome
  ⟨{ s with toSt := h.kills.foldl (killEngine uid) s.toSt }, h.user, h.currentStatus, h.stop, again, h.kills.map .kill⟩

/-- The deferred update sets the mode when there is none yet. -/
def withMode (developer : Bool) (user : User) : User :=
  { user with mode := if user.mode = "" then if developer then "developer" else "shared" else user.mode }

def handle (s : Cluster) (uid : Nat) (a : Answers) : Handled :=
  if a.developer then handleDeveloper ports s uid a else handleSharedUser s uid a

/-- What one `Reconcile` does and sends, and whether it is to be called again. -/
def outcome (s : Cluster) (uid : Nat) (a : Answers) : Cluster × List Request × Bool :=
  match a.dbUser with
  | .error _ => (s, [], true)
  | .ok () =>
    let h := handle ports s uid a
    match h.stop, h.user.map (withMode a.developer) with
    | false, some user =>
      let (t, sent) := proceed h.cluster.toSt uid a.toAnswers user h.currentStatus
      ({ h.cluster with toSt := t }, h.sent ++ sent, h.currentStatus.state ≠ "idle" || a.deleteErr.isSome)
    | _, user => ({ h.cluster with toSt := updateStatus h.cluster.toSt uid user h.currentStatus }, h.sent, h.again)

/-- Afterwards the name is in the queue if it is to be, or if the User object changed. -/
def reconcile (s : Cluster) (uid : Nat) (a : Answers) : Cluster :=
  let (t, _, again) := outcome ports s uid a
  { t with queue := Function.update s.queue uid (again || decide (t.users uid ≠ s.users uid)) }

/-! ## Runs -/

inductive Ev where
  | reconcile (uid : Nat) (a : Answers)
  /-- The user is started: a User object is made. -/
  | create (uid : Nat)
  | markDeleted (uid : Nat)
  /-- The object is gone. -/
  | remove (uid : Nat)
  | restart
  | engine (backend : String) (uid : Nat) (x : Option Engine)
  | replicas (uid : Nat) (available : Int)
  | address (uid : Nat) (ip : String)

def enqueue (s : Cluster) (uid : Nat) (user : Option User) : Cluster :=
  { s with users := Function.update s.users uid user, queue := Function.update s.queue uid true }

def step (s : Cluster) : Ev → Option Cluster
  | .reconcile uid a => if s.queue uid then some (reconcile ports s uid a) else none
  | .create uid => if s.users uid = none then some (enqueue s uid (some ⟨"", false, ⟨"", ""⟩⟩)) else none
  | .markDeleted uid => (s.users uid).map fun u => enqueue s uid (some { u with deleting := true })
  | .remove uid => (s.users uid).map fun _ => enqueue s uid none
  | .restart => some { s with queue := fun uid => (s.users uid).isSome }
  | .engine backend uid x =>
    (s.engines backend uid).map fun _ => { s with toSt := s.toSt.setEngine backend uid x }
  | .replicas uid available =>
    (s.deployments uid).map fun _ => { s with deployments := Function.update s.deployments uid (some available) }
  | .address uid ip =>
    (s.services uid).map fun x => { s with services := Function.update s.services uid (some { x with clusterIP := ip }) }

def sys : System Cluster Ev where
  init s := s = empty
  step := step ports

variable {ports} {s s' t : Cluster} {uid : Nat} {a : Answers}

/-! ## What a step does -/

/-- What only the controller does. -/
def Own : Ev → Prop
  | .reconcile _ _ => True
  | .restart => True
  | _ => False

/-- The same users and the same queue, and deployments and services where there were some. -/
structure Alike (s t : Cluster) : Prop where
  users : t.users = s.users
  queue : t.queue = s.queue
  deployments : ∀ uid, (t.deployments uid).isSome = (s.deployments uid).isSome
  services : ∀ uid, (t.services uid).isSome = (s.services uid).isSome

theorem isSome_update {α : Type} {f : Nat → Option α} {x : α} (hf : f uid = some x) (y : α) (v : Nat) :
    (Function.update f uid (some y) v).isSome = (f v).isSome := by
  by_cases hv : v = uid
  · subst hv
    simp [hf]
  · rw [Function.update_of_ne hv]

theorem step_cases {e : Ev} (h : step ports s e = some t) :
    (∃ uid a, e = .reconcile uid a ∧ s.queue uid = true ∧ t = reconcile ports s uid a) ∨
    (e = .restart ∧ t = { s with queue := fun uid => (s.users uid).isSome }) ∨
    (∃ uid user, ¬Own e ∧ (e = .create uid ∨ (s.users uid).isSome) ∧ t = enqueue s uid user) ∨
    ¬Own e ∧ Alike s t := by
  cases e with
  | reconcile uid a =>
    simp only [step, Option.ite_none_right_eq_some, Option.some.injEq] at h
    exact .inl ⟨uid, a, rfl, h.1, h.2.symm⟩
  | restart =>
    simp only [step, Option.some.injEq] at h
    exact .inr (.inl ⟨rfl, h.symm⟩)
  | create uid =>
    simp only [step, Option.ite_none_right_eq_some, Option.some.injEq] at h
    exact .inr (.inr (.inl ⟨uid, _, id, .inl rfl, h.2.symm⟩))
  | markDeleted uid =>
    simp only [step, Option.map_eq_some_iff] at h
    obtain ⟨u, hu, rfl⟩ := h
    exact .inr (.inr (.inl ⟨uid, _, id, .inr (by simp [hu]), rfl⟩))
  | remove uid =>
    simp only [step, Option.map_eq_some_iff] at h
    obtain ⟨u, hu, rfl⟩ := h
    exact .inr (.inr (.inl ⟨uid, _, id, .inr (by simp [hu]), rfl⟩))
  | engine backend uid x =>
    simp only [step, Option.map_eq_some_iff] at h
    obtain ⟨_, -, rfl⟩ := h
    exact .inr (.inr (.inr ⟨id, rfl, rfl, fun _ => rfl, fun _ => rfl⟩))
  | replicas uid available =>
    simp only [step, Option.map_eq_some_iff] at h
    obtain ⟨n, hn, rfl⟩ := h
    exact .inr (.inr (.inr ⟨id, rfl, rfl, isSome_update hn available, fun _ => rfl⟩))
  | address uid ip =>
    simp only [step, Option.map_eq_some_iff] at h
    obtain ⟨x, hx, rfl⟩ := h
    exact .inr (.inr (.inr ⟨id, rfl, rfl, fun _ => rfl, isSome_update hx _⟩))

theorem enqueue_self (s : Cluster) (uid : Nat) (user : Option User) : (enqueue s uid user).queue uid = true :=
  Function.update_self ..

theorem enqueue_other (s : Cluster) {v : Nat} (user : Option User) (hv : uid ≠ v) :
    (enqueue s v user).users uid = s.users uid ∧ (enqueue s v user).queue uid = s.queue uid :=
  ⟨Function.update_of_ne hv .., Function.update_of_ne hv ..⟩

/-! ## Other users -/

/-- Nothing changes for other users. -/
def Frame (uid : Nat) (s t : Cluster) : Prop :=
  UserReconciler.Frame uid s.toSt t.toSt ∧
    ∀ v, v ≠ uid → t.deployments v = s.deployments v ∧ t.services v = s.services v

theorem Frame.refl (uid : Nat) (s : Cluster) : Frame uid s s := ⟨.refl uid s.toSt, fun _ _ => ⟨rfl, rfl⟩⟩

theorem Frame.trans {r : Cluster} (h1 : Frame uid s t) (h2 : Frame uid t r) : Frame uid s r :=
  ⟨h1.1.trans h2.1, fun v hv => ⟨((h2.2 v hv).1).trans (h1.2 v hv).1, ((h2.2 v hv).2).trans (h1.2 v hv).2⟩⟩

theorem Frame.of_base {r : St} (h : UserReconciler.Frame uid s.toSt r) : Frame uid s { s with toSt := r } :=
  ⟨h, fun _ _ => ⟨rfl, rfl⟩⟩

theorem frame_deleteService (s : Cluster) (uid : Nat) (a : Answers) : Frame uid s (deleteService s uid a).1 := by
  unfold deleteService
  cases s.services uid with
  | none => exact .refl uid s
  | some service =>
    simp only
    split
    · exact .of_base (frame_kills _ _ _)
    · exact ⟨frame_kills _ _ _, fun v hv => ⟨rfl, Function.update_of_ne hv ..⟩⟩

theorem frame_deleteDeployment (s : Cluster) (uid : Nat) (a : Answers) : Frame uid s (deleteDeployment s uid a).1 := by
  unfold deleteDeployment
  cases s.deployments uid with
  | none => exact .refl uid s
  | some availableReplicas =>
    simp only
    split
    · exact .refl uid s
    · exact ⟨.refl uid s.toSt, fun v hv => ⟨Function.update_of_ne hv .., rfl⟩⟩

theorem frame_handleDeveloper (s : Cluster) (uid : Nat) (a : Answers) :
    Frame uid s (handleDeveloper ports s uid a).cluster := by
  have hdelete : Frame uid s (deleteDeploymentService s uid a).1 :=
    (frame_deleteService s uid a).trans (frame_deleteDeployment _ uid a)
  unfold handleDeveloper
  split
  · exact .refl uid s
  · split
    · exact hdelete
    · split
      · exact hdelete
      · split
        · exact .refl uid s
        · split
          · split
            · exact .refl uid s
            · exact ⟨.refl uid s.toSt, fun v hv => ⟨Function.update_of_ne hv .., rfl⟩⟩
          · split
            · exact .refl uid s
            · split
              · exact .refl uid s
              · split
                · split
                  · exact .refl uid s
                  · exact ⟨.refl uid s.toSt, fun v hv => ⟨rfl, Function.update_of_ne hv ..⟩⟩
                · split
                  · exact .refl uid s
                  · split
                    · exact .refl uid s
                    · simp only
                      split <;> exact .refl uid s

theorem frame_outcome (ports : List Nat) (s : Cluster) (uid : Nat) (a : Answers) : Frame uid s (outcome ports s uid a).1 := by
  have hhandle : Frame uid s (handle ports s uid a).cluster := by
    unfold handle
    split
    · exact frame_handleDeveloper s uid a
    · exact .of_base (frame_kills _ _ _)
  unfold outcome
  split
  · exact .refl uid s
  · simp only
    split
    · exact hhandle.trans (.of_base (proceed_cases ..).frame)
    · exact hhandle.trans (.of_base (frame_updateStatus _ _ _ _))

theorem reconcile_other (ports : List Nat) (s : Cluster) (a : Answers) {v : Nat} (hv : v ≠ uid) :
    (reconcile ports s uid a).users v = s.users v ∧ (reconcile ports s uid a).queue v = s.queue v ∧
      (reconcile ports s uid a).deployments v = s.deployments v ∧ (reconcile ports s uid a).services v = s.services v := by
  have h := frame_outcome ports s uid a
  exact ⟨(h.1 v hv).1, Function.update_of_ne hv .., h.2 v hv⟩

/-! ## What `handleDeveloper` comes to -/

/-- Everything is up and answers. -/
def Up (s : Cluster) (uid : Nat) (a : Answers) : Prop :=
  a.deploymentErr = none ∧ (∃ n, s.deployments uid = some n ∧ 0 < n) ∧ a.serviceErr = none ∧
    (∃ x, s.services uid = some x ∧ x.backend ≠ none) ∧ a.statusErr = none

/-- A deployment or a service was made where there was none. -/
def Grown (ports : List Nat) (uid : Nat) (s t : Cluster) : Prop :=
  t.toSt = s.toSt ∧ (t.deployments = s.deployments ∨
    s.deployments uid = none ∧ t.deployments = Function.update s.deployments uid (some 0)) ∧
    (t.services = s.services ∨ s.services uid = none ∧ t.services = Function.update s.services uid (some ⟨"", ports⟩))

theorem Grown.refl (uid : Nat) (s : Cluster) : Grown ports uid s s := ⟨rfl, .inl rfl, .inl rfl⟩

theorem handle_developer (ports : List Nat) (s : Cluster) (uid : Nat) (hdev : a.developer = true) :
    handle ports s uid a = handleDeveloper ports s uid a := by
  unfold handle
  rw [if_pos hdev]

/-- The User object is found and not being deleted: either it stops early, with the address of
    the service in the status at most, or it goes on with it. -/
theorem handleDeveloper_live (ports : List Nat) {u : User} (hg : a.getErr = none) (hu : s.users uid = some u)
    (hd : u.deleting = false) :
    (¬Up s uid a ∧ ∃ t status, handleDeveloper ports s uid a = ⟨t, some u, status, true, true, []⟩ ∧ Grown ports uid s t ∧
      (status.backend = "" ∨ ∃ x, s.services uid = some x ∧ x.backend = some status.backend)) ∨
    Up s uid a ∧ ∃ x backend, s.services uid = some x ∧ x.backend = some backend ∧
      handleDeveloper ports s uid a =
        ⟨s, some u, ⟨backend, engineStatus s.toSt backend uid⟩, false, true, []⟩ := by
  unfold handleDeveloper
  simp only [hg, hu, hd, Option.isSome_none, Bool.false_eq_true, if_false]
  cases hde : a.deploymentErr with
  | some err => exact .inl ⟨fun ⟨h, _⟩ => by simp [hde] at h, s, ⟨"", ""⟩, if_pos rfl, .refl uid s, .inl rfl⟩
  | none =>
    simp only [Option.isSome_none, Bool.false_eq_true, if_false]
    cases hdep : s.deployments uid with
    | none =>
      refine .inl ⟨fun ⟨_, ⟨n, hn, _⟩, _⟩ => by simp [hdep] at hn, ?_⟩
      simp only
      split
      · exact ⟨s, _, rfl, .refl uid s, .inl rfl⟩
      · exact ⟨_, _, rfl, ⟨rfl, .inr ⟨hdep, rfl⟩, .inl rfl⟩, .inl rfl⟩
    | some n =>
      simp only
      by_cases hn : n ≤ 0
      · refine .inl ⟨fun ⟨_, ⟨m, hm, hpos⟩, _⟩ => ?_, s, _, if_pos hn, .refl uid s, .inl rfl⟩
        simp only [hdep, Option.some.injEq] at hm
        omega
      · simp only [if_neg hn]
        cases hse : a.serviceErr with
        | some err =>
          exact .inl ⟨fun ⟨_, _, h, _⟩ => by simp [hse] at h, s, ⟨"", ""⟩, if_pos rfl, .refl uid s, .inl rfl⟩
        | none =>
          simp only [Option.isSome_none, Bool.false_eq_true, if_false]
          cases hs : s.services uid with
          | none =>
            refine .inl ⟨fun ⟨_, _, _, ⟨x, hx, _⟩, _⟩ => by simp [hs] at hx, ?_⟩
            simp only
            split
            · exact ⟨s, _, rfl, .refl uid s, .inl rfl⟩
            · exact ⟨_, _, rfl, ⟨rfl, .inl rfl, .inr ⟨hs, rfl⟩⟩, .inl rfl⟩
          | some x =>
            have hx : ∀ y, s.services uid = some y → y = x := fun y hy => by simpa [hs] using hy.symm
            simp only
            by_cases hip : x.clusterIP = ""
            · refine .inl ⟨fun ⟨_, _, _, ⟨y, hy, hb⟩, _⟩ => ?_, s, _, if_pos hip, .refl uid s, .inl rfl⟩
              rw [hx y hy, Service.backend, if_pos hip] at hb
              exact hb rfl
            · simp only [if_neg hip]
              cases hp : x.ports with
              | nil =>
                refine .inl ⟨fun ⟨_, _, _, ⟨y, hy, hb⟩, _⟩ => ?_, s, _, rfl, .refl uid s, .inl rfl⟩
                rw [hx y hy, Service.backend, if_neg hip, hp] at hb
                exact hb rfl
              | cons port rest =>
                have hb : x.backend = some (url x.clusterIP port) := by
                  rw [Service.backend, if_neg hip, hp]
                  rfl
                cases hst : a.statusErr with
                | some err =>
                  exact .inl ⟨fun ⟨_, _, _, _, h⟩ => by simp [hst] at h, s, _, rfl, .refl uid s, .inr ⟨x, rfl, hb⟩⟩
                | none =>
                  refine .inr ⟨⟨hde, ⟨n, hdep, by omega⟩, hse, ⟨x, hs, ?_⟩, hst⟩, x, _, rfl, hb, rfl⟩
                  rw [hb]
                  exact nofun

/-! ## In the queue -/

theorem handle_failed (ports : List Nat) (s : Cluster) (uid : Nat) {err : String} (hg : a.getErr = some err) :
    (handle ports s uid a).stop = true ∧ (handle ports s uid a).again = true := by
  unfold handle
  split
  · simp [handleDeveloper, hg]
  · have hnone : ∀ v, a.getErr = none → s.users uid = some v → v.deleting = true := fun v hv => by simp [hg] at hv
    have hstops := handle_stops (s := s.toSt) (a := a.toAnswers) hnone
    refine ⟨hstops.1, ?_⟩
    simp only [handleSharedUser]
    cases getSharedBackendURL uid a.endpoints <;> simp [hg]

/-- Of a live object: it stops, and is to be called again, or it goes on. -/
theorem handle_live (ports : List Nat) {u : User} (hu : s.users uid = some u) (hd : u.deleting = false) :
    (handle ports s uid a).stop = true ∧ (handle ports s uid a).again = true ∨
      (handle ports s uid a).stop = false ∧ (handle ports s uid a).user = some u := by
  cases hg : a.getErr with
  | some err => exact .inl (handle_failed ports s uid hg)
  | none =>
    unfold handle
    split
    · obtain ⟨-, t, status, h, -⟩ | ⟨-, x, backend, -, -, h⟩ := handleDeveloper_live ports hg hu hd
      · rw [h]
        exact .inl ⟨rfl, rfl⟩
      · rw [h]
        exact .inr ⟨rfl, rfl⟩
    · obtain ⟨hearly, status, h⟩ | ⟨backend, -, -, h⟩ := handle_found (s := s.toSt) (a := a.toAnswers) hg hu hd
      · refine .inl ?_
        simp only [handleSharedUser, h, true_and]
        rcases hearly with ⟨err, he⟩ | he
        · rw [he]
        · cases getSharedBackendURL uid a.endpoints with
          | error err => rfl
          | ok backend => simp [Option.isSome_iff_ne_none.mpr he]
      · refine .inr ?_
        simp only [handleSharedUser, h, and_self]

theorem outcome_stop (ports : List Nat) (hdb : a.dbUser = .ok ()) {h : Handled} (hh : handle ports s uid a = h)
    (hstop : h.stop = true) :
    outcome ports s uid a =
      ({ h.cluster with toSt := updateStatus h.cluster.toSt uid (h.user.map (withMode a.developer)) h.currentStatus },
        h.sent, h.again) := by
  unfold outcome
  simp only [hdb, hh, hstop]

theorem outcome_proceed (hdb : a.dbUser = .ok ()) {h : Handled} (hh : handle ports s uid a = h) (hstop : h.stop = false)
    {u : User} (hu : h.user = some u) :
    outcome ports s uid a =
      ({ h.cluster with
          toSt := (proceed h.cluster.toSt uid a.toAnswers (withMode a.developer u) h.currentStatus).1 },
        h.sent ++ (proceed h.cluster.toSt uid a.toAnswers (withMode a.developer u) h.currentStatus).2,
        decide (h.currentStatus.state ≠ "idle") || a.deleteErr.isSome) := by
  unfold outcome
  simp only [hdb, hh, hstop, hu, Option.map_some]

theorem users_deleteDeploymentService (s : Cluster) (uid : Nat) (a : Answers) :
    (deleteDeploymentService s uid a).1.users = s.users := by
  have hservice : (deleteService s uid a).1.users = s.users := by
    unfold deleteService
    cases s.services uid with
    | none => rfl
    | some service =>
      simp only
      split <;> exact kills_users ..
  have hdeployment : ∀ t : Cluster, (deleteDeployment t uid a).1.users = t.users := by
    intro t
    unfold deleteDeployment
    cases t.deployments uid with
    | none => rfl
    | some availableReplicas =>
      simp only
      split <;> rfl
  exact (hdeployment _).trans hservice

/-- Of an object that is gone, or is being deleted, it stops. -/
theorem handle_gone (ports : List Nat) (h : ∀ u, s.users uid = some u → u.deleting = true) :
    (handle ports s uid a).stop = true ∧ (∀ u, (handle ports s uid a).user = some u → s.users uid = some u) ∧
      (handle ports s uid a).cluster.users = s.users := by
  unfold handle
  split
  · unfold handleDeveloper
    split
    · exact ⟨rfl, nofun, rfl⟩
    · cases hu : s.users uid with
      | none => exact ⟨rfl, nofun, users_deleteDeploymentService s uid a⟩
      | some u =>
        simp only [h u hu, if_true]
        exact ⟨trivial, fun _ he => he, users_deleteDeploymentService s uid a⟩
  · have hstops := handle_stops (s := s.toSt) (a := a.toAnswers) fun u _ hu => h u hu
    exact ⟨hstops.1, fun u hu => (hstops.2.1 u hu).1, kills_users ..⟩

theorem updateStatus_self (r : St) (u : User) (status : UserStatus) : (updateStatus r uid (some u) status).users uid =
    some { u with mode := if u.mode = "" then "shared" else u.mode, status } := Function.update_self ..

/-- No live object is made of one that is not. -/
theorem gone_after (ports : List Nat) (h : ∀ u, s.users uid = some u → u.deleting = true) :
    ∀ u, (outcome ports s uid a).1.users uid = some u → u.deleting = true := by
  cases hdb : a.dbUser with
  | error err => simpa [outcome, hdb] using h
  | ok _ =>
    obtain ⟨hstop, huser, husers⟩ := handle_gone ports (a := a) h
    rw [outcome_stop ports hdb rfl hstop]
    intro u hu
    cases hh : (handle ports s uid a).user with
    | none =>
      rw [hh] at hu
      exact h u ((congrFun husers uid).symm.trans hu)
    | some v =>
      rw [hh] at hu
      have hu : (updateStatus (handle ports s uid a).cluster.toSt uid (some (withMode a.developer v))
          (handle ports s uid a).currentStatus).users uid = some u := hu
      rw [updateStatus_self] at hu
      cases hu
      exact h v (huser v hh)

theorem reconcile_queue : (reconcile ports s uid a).queue uid =
    ((outcome ports s uid a).2.2 || decide ((outcome ports s uid a).1.users uid ≠ s.users uid)) := Function.update_self ..

/-- After a `Reconcile` of a live object its name is in the queue. -/
theorem queued_after {u : User} (hu : s.users uid = some u) (hd : u.deleting = false) :
    (reconcile ports s uid a).queue uid = true := by
  rw [reconcile_queue]
  cases hdb : a.dbUser with
  | error err => simp [outcome, hdb]
  | ok _ =>
    obtain ⟨hstop, hagain⟩ | ⟨hstop, huser⟩ := handle_live ports (a := a) hu hd
    · rw [outcome_stop ports hdb rfl hstop]
      simp [hagain]
    · rw [outcome_proceed hdb rfl hstop huser]
      by_cases hidle : (handle ports s uid a).currentStatus.state = "idle" ∧ a.deleteErr = none
      · -- it is idle, and the object goes
        simp [proceed, hidle.1, hidle.2, hu]
      · rcases not_and_or.mp hidle with h | h
        · simp [h]
        · simp [Option.isSome_iff_ne_none.mpr h]

/-- A User object that is not being deleted is always in the queue. -/
theorem live_queued (h : Reach (sys ports) any s) {u : User} (hu : s.users uid = some u) (hd : u.deleting = false) :
    s.queue uid = true := by
  have hinv : ∀ uid u, s.users uid = some u → u.deleting = false → s.queue uid = true := by
    refine h.inv (P := fun s => ∀ uid u, s.users uid = some u → u.deleting = false → s.queue uid = true) ?_ ?_
    · intro s hs uid u hu
      rw [show s = empty from hs] at hu
      cases hu
    · intro s e t hi _ hstep uid u hu hd
      obtain ⟨v, a, rfl, -, rfl⟩ | ⟨rfl, rfl⟩ | ⟨v, x, -, -, rfl⟩ | ⟨-, halike⟩ := step_cases hstep
      · by_cases hv : uid = v
        · subst hv
          by_cases hlive : ∃ w, s.users uid = some w ∧ w.deleting = false
          · obtain ⟨w, hw, hdw⟩ := hlive
            exact queued_after hw hdw
          · have hgone : ∀ w, s.users uid = some w → w.deleting = true := fun w hw => by
              simpa using fun hd => hlive ⟨w, hw, hd⟩
            rw [gone_after ports (a := a) hgone u hu] at hd
            cases hd
        · rw [(reconcile_other ports s a hv).1] at hu
          rw [(reconcile_other ports s a hv).2.1]
          exact hi uid u hu hd
      · have hu : s.users uid = some u := hu
        show (s.users uid).isSome = true
        rw [hu]
        rfl
      · by_cases hv : uid = v
        · subst hv
          exact enqueue_self ..
        · rw [(enqueue_other s x hv).1] at hu
          rw [(enqueue_other s x hv).2]
          exact hi uid u hu hd
      · rw [halike.users] at hu
        rw [halike.queue]
        exact hi uid u hu hd
  exact hinv uid u hu hd

/-! ## Leftovers -/

/-- A deployment or a service of a user with no User object. -/
def Leftover (s : Cluster) (uid : Nat) : Prop :=
  s.users uid = none ∧ ((s.deployments uid).isSome ∨ (s.services uid).isSome)

/-- A `Reconcile` that finds a User object gone, but not what it left, knows a developer, or
    fails at something else; and no restart loses what is left. -/
def Attends (s : Cluster) : Ev → Prop
  | .reconcile uid a => Leftover s uid → a.dbUser = .ok () → a.getErr = none → a.developer = false →
      (∃ err, getSharedBackendURL uid a.endpoints = .error err) ∨ a.statusErr ≠ none
  | .restart => ∀ uid, ¬Leftover s uid
  | _ => True

/-- What a deletion that goes well leaves. -/
theorem deleted (s : Cluster) (uid : Nat) (a : Answers) (h : (deleteDeploymentService s uid a).2.2 = true) :
    (deleteDeploymentService s uid a).1.deployments uid = none ∧ (deleteDeploymentService s uid a).1.services uid = none := by
  have hservice : (deleteService s uid a).2.2 = true → (deleteService s uid a).1.services uid = none := by
    unfold deleteService
    cases hs : s.services uid with
    | none => exact fun _ => hs
    | some service =>
      simp only
      split
      · exact nofun
      · exact fun _ => Function.update_self ..
  have hdeployment : ∀ t : Cluster, (deleteDeployment t uid a).2 = true →
      (deleteDeployment t uid a).1.deployments uid = none ∧ (deleteDeployment t uid a).1.services = t.services := by
    intro t
    unfold deleteDeployment
    cases ht : t.deployments uid with
    | none => exact fun _ => ⟨ht, rfl⟩
    | some availableReplicas =>
      simp only
      split
      · exact nofun
      · exact fun _ => ⟨Function.update_self .., rfl⟩
  have hand : ((deleteService s uid a).2.2 && (deleteDeployment (deleteService s uid a).1 uid a).2) = true := h
  rw [Bool.and_eq_true] at hand
  obtain ⟨hd, hs⟩ := hdeployment _ hand.2
  exact ⟨hd, (congrFun hs uid).trans (hservice hand.1)⟩

/-- A `Reconcile` that finds no User object, by what `getUserFromName` and `Get` answer. -/
theorem reconcile_none (ports : List Nat) (hu : s.users uid = none) (hdb : a.dbUser = .ok ()) (hg : a.getErr = none) :
    (a.developer = true →
      ((reconcile ports s uid a).queue uid = false → ¬Leftover (reconcile ports s uid a) uid)) ∧
    (a.developer = false →
      (Leftover (reconcile ports s uid a) uid ↔ Leftover s uid) ∧
      ((reconcile ports s uid a).queue uid = true ↔
        (∃ err, getSharedBackendURL uid a.endpoints = .error err) ∨ a.statusErr ≠ none)) := by
  have hgone : ∀ u, s.users uid = some u → u.deleting = true := fun u h => by simp [hu] at h
  obtain ⟨hstop, huser, husers⟩ := handle_gone ports (a := a) hgone
  have hnone : (handle ports s uid a).user = none := Option.eq_none_iff_forall_not_mem.mpr fun u h => by
    simp [hu] at huser
    exact huser u h
  have hout := outcome_stop ports hdb rfl hstop
  rw [hnone] at hout
  have hsame : (outcome ports s uid a).1.users uid = s.users uid := by
    rw [hout]
    exact congrFun husers uid
  have hqueue : (reconcile ports s uid a).queue uid = (handle ports s uid a).again := by
    rw [reconcile_queue, hsame, hout]
    simp
  constructor
  · intro hdev hq hleft
    have hhandle : handle ports s uid a = ⟨(deleteDeploymentService s uid a).1, none, ⟨"", ""⟩, true,
        !(deleteDeploymentService s uid a).2.2, (deleteDeploymentService s uid a).2.1⟩ := by
      unfold handle handleDeveloper
      simp [hdev, hg, hu]
    rw [hqueue, hhandle] at hq
    obtain ⟨hd, hs⟩ := deleted s uid a (by simpa using hq)
    have hdep : (reconcile ports s uid a).deployments uid = none := by
      show (outcome ports s uid a).1.deployments uid = none
      rw [hout, hhandle]
      exact hd
    have hserv : (reconcile ports s uid a).services uid = none := by
      show (outcome ports s uid a).1.services uid = none
      rw [hout, hhandle]
      exact hs
    simp [Leftover, hdep, hserv] at hleft
  · intro hdev
    have hhandle : handle ports s uid a = handleSharedUser s uid a := by
      unfold handle
      simp [hdev]
    constructor
    · have hdep : (reconcile ports s uid a).deployments = s.deployments := by
        show (outcome ports s uid a).1.deployments = s.deployments
        rw [hout, hhandle]
        rfl
      have hserv : (reconcile ports s uid a).services = s.services := by
        show (outcome ports s uid a).1.services = s.services
        rw [hout, hhandle]
        rfl
      have husers : (reconcile ports s uid a).users uid = s.users uid := hsame
      unfold Leftover
      rw [husers, hdep, hserv]
    · rw [hqueue, hhandle]
      simp only [handleSharedUser]
      cases getSharedBackendURL uid a.endpoints with
      | error err => simp
      | ok backend => simp [hg, Option.isSome_iff_ne_none]

theorem Attends.of_not_own {e : Ev} (h : ¬Own e) : Attends s e := by
  cases e with
  | reconcile uid a => exact absurd trivial h
  | restart => exact absurd trivial h
  | _ => trivial

theorem leftover_congr {v : Nat} (hu : t.users v = s.users v) (hd : (t.deployments v).isSome = (s.deployments v).isSome)
    (hs : (t.services v).isSome = (s.services v).isSome) : Leftover t v ↔ Leftover s v := by
  unfold Leftover
  rw [hu, hd, hs]

theorem Alike.leftover (h : Alike s t) (v : Nat) : Leftover t v ↔ Leftover s v :=
  leftover_congr (congrFun h.users v) (h.deployments v) (h.services v)

theorem leftover_enqueue {v : Nat} (user : Option User) (hv : uid ≠ v) : Leftover (enqueue s v user) uid ↔ Leftover s uid :=
  leftover_congr (enqueue_other s user hv).1 rfl rfl

theorem leftover_reconcile {v : Nat} (a : Answers) (hv : uid ≠ v) : Leftover (reconcile ports s v a) uid ↔ Leftover s uid := by
  obtain ⟨husers, -, hdep, hserv⟩ := reconcile_other ports s a hv
  exact leftover_congr husers (congrArg _ hdep) (congrArg _ hserv)

/-- What a `Reconcile` does to what is left of the user it is for. -/
theorem attends_reconcile (ports : List Nat) (s : Cluster) (uid : Nat) (a : Answers) : Attends s (.reconcile uid a) ↔
    (Leftover (reconcile ports s uid a) uid → (reconcile ports s uid a).queue uid = true) := by
  cases hu : s.users uid with
  | some u =>
    refine iff_of_true (fun h => by cases hu.symm.trans h.1) fun h => ?_
    have hnone : (outcome ports s uid a).1.users uid = none := h.1
    rw [reconcile_queue]
    simp [hnone, hu]
  | none =>
    cases hdb : a.dbUser with
    | error err =>
      refine iff_of_true (fun _ h => by cases hdb.symm.trans h) fun _ => ?_
      rw [reconcile_queue]
      simp [outcome, hdb]
    | ok _ =>
      cases hg : a.getErr with
      | some err =>
        refine iff_of_true (fun _ _ h => by cases hg.symm.trans h) fun _ => ?_
        obtain ⟨hstop, hagain⟩ := handle_failed ports s uid hg
        rw [reconcile_queue, outcome_stop ports hdb rfl hstop]
        simp [hagain]
      | none =>
        obtain ⟨hdeveloper, hshared⟩ := reconcile_none ports hu hdb hg
        cases hdev : a.developer with
        | true =>
          refine iff_of_true (fun _ _ _ h => by cases hdev.symm.trans h) fun h => ?_
          by_contra hq
          exact hdeveloper hdev (by simpa using hq) h
        | false =>
          obtain ⟨hleft, hqueue⟩ := hshared hdev
          rw [hleft, hqueue]
          constructor
          · intro h hl
            exact h hl hdb hg hdev
          · intro h hl _ _ _
            exact h hl

/-- What a step does to those with nothing in the queue. -/
theorem attends_iff {e : Ev} (hi : ∀ uid, Leftover s uid → s.queue uid = true) (hstep : step ports s e = some s') :
    Attends s e ↔ ∀ uid, Leftover s' uid → s'.queue uid = true := by
  obtain ⟨uid, a, rfl, -, rfl⟩ | ⟨rfl, rfl⟩ | ⟨v, x, hown, -, rfl⟩ | ⟨hown, halike⟩ := step_cases hstep
  · rw [attends_reconcile ports]
    constructor
    · intro h v hleft
      by_cases hv : v = uid
      · subst hv
        exact h hleft
      · rw [(reconcile_other ports s a hv).2.1]
        exact hi v ((leftover_reconcile a hv).mp hleft)
    · intro h
      exact h uid
  · refine forall_congr' fun uid => ?_
    constructor
    · intro h hleft
      exact absurd hleft h
    · intro h hleft
      have hsome : (s.users uid).isSome = true := h hleft
      simp [hleft.1] at hsome
  · refine iff_of_true (.of_not_own hown) fun uid hleft => ?_
    by_cases hv : uid = v
    · subst hv
      exact enqueue_self ..
    · rw [(enqueue_other s x hv).2]
      exact hi uid ((leftover_enqueue x hv).mp hleft)
  · refine iff_of_true (.of_not_own hown) fun uid hleft => ?_
    rw [halike.queue]
    exact hi uid ((halike.leftover uid).mp hleft)

/-- What a User object leaves is in the queue, as long as every step attends to it, and not
    after the first one that does not. -/
theorem leftovers_iff (h : Reach (sys ports) Attends s) :
    (∀ uid, Leftover s uid → s.queue uid = true) ∧ ∀ e s', step ports s e = some s' →
      (Attends s e ↔ ∀ uid, Leftover s' uid → s'.queue uid = true) := by
  have hinv : ∀ uid, Leftover s uid → s.queue uid = true := by
    refine h.inv (P := fun s => ∀ uid, Leftover s uid → s.queue uid = true) ?_ ?_
    · intro s hs uid hleft
      rw [show s = empty from hs] at hleft
      simp [Leftover, empty] at hleft
    · intro s e t hi hok hstep
      exact (attends_iff hi hstep).mp hok
  exact ⟨hinv, fun e s' => attends_iff hinv⟩

/-- A developer's User object is removed when there is a deployment. -/
def answers : Answers where
  dbUser := .ok ()
  developer := true
  getErr := none
  endpoints := .ok []
  statusErr := none
  deleteErr := none
  run := .ok
  deploymentErr := none
  createDeploymentErr := none
  deleteDeploymentErr := none
  serviceErr := none
  createServiceErr := none
  deleteServiceErr := none

theorem leftovers_removed : ∃ s, run (sys [8100]) empty [.create 1, .reconcile 1 answers, .remove 1] = some s ∧
    Leftover s 1 ∧ s.queue 1 = true := by
  have h0 : Reach (sys [8100]) Attends empty := .init rfl
  have hok : ∀ e ∈ [Ev.create 1, .reconcile 1 answers, .remove 1], ∀ s, Attends s e := by
    simp [Attends, answers]
  have hleft : ∀ s, run (sys [8100]) empty [.create 1, .reconcile 1 answers, .remove 1] = some s → Leftover s 1 := by
    intro s hs
    cases hs
    exact ⟨rfl, .inl rfl⟩
  obtain ⟨s, hs⟩ : ∃ s, run (sys [8100]) empty [.create 1, .reconcile 1 answers, .remove 1] = some s := ⟨_, rfl⟩
  exact ⟨s, hs, hleft s hs, (leftovers_iff (h0.run _ hok hs)).1 1 (hleft s hs)⟩

/-- What is left and not in the queue stays so until a User object is made again. -/
theorem unattended_stays (hleft : Leftover s uid) (hq : s.queue uid = false)
    (hp : Path (sys ports) (fun _ e => e ≠ .create uid) s t) : Leftover t uid ∧ t.queue uid = false := by
  induction hp with
  | refl => exact ⟨hleft, hq⟩
  | @step s t e _ hne hstep ih =>
    obtain ⟨v, a, rfl, hv, rfl⟩ | ⟨rfl, rfl⟩ | ⟨v, x, -, hsome, rfl⟩ | ⟨-, halike⟩ := step_cases hstep
    · have hvu : uid ≠ v := by
        rintro rfl
        cases ih.2.symm.trans hv
      refine ⟨(leftover_reconcile a hvu).mpr ih.1, ?_⟩
      rw [(reconcile_other ports s a hvu).2.1]
      exact ih.2
    · refine ⟨ih.1, ?_⟩
      show (s.users uid).isSome = false
      simp [ih.1.1]
    · have hv : uid ≠ v := by
        rintro rfl
        rcases hsome with h | h
        · exact hne h
        · simp [ih.1.1] at h
      refine ⟨(leftover_enqueue x hv).mpr ih.1, ?_⟩
      rw [(enqueue_other s x hv).2]
      exact ih.2
    · refine ⟨(halike.leftover uid).mpr ih.1, ?_⟩
      rw [halike.queue]
      exact ih.2

/-! ## Convergence -/

/-- Everything that is asked of the cluster and the backend succeeds. -/
structure Answered (a : Answers) : Prop where
  dbUser : a.dbUser = .ok ()
  developer : a.developer = true
  getErr : a.getErr = none
  deploymentErr : a.deploymentErr = none
  createDeploymentErr : a.createDeploymentErr = none
  serviceErr : a.serviceErr = none
  createServiceErr : a.createServiceErr = none
  statusErr : a.statusErr = none
  run : a.run = .ok

/-- The cluster does its part for a user: the deployment becomes available, the service gets an
    address, and an engine that does not idle runs. -/
def settle (uid : Nat) (ip : String) (s : Cluster) : Cluster :=
  { s with
    engines := fun backend v => if v = uid then
        (s.engines backend v).map fun x => if x.running ∧ x.status = "idle" then x else ⟨true, "running"⟩
      else s.engines backend v
    deployments := Function.update s.deployments uid ((s.deployments uid).map fun n => max n 1)
    services := Function.update s.services uid ((s.services uid).map fun x =>
      if x.clusterIP = "" then { x with clusterIP := ip } else x) }

def round (ports : List Nat) (uid : Nat) (ip : String) (a : Answers) (s : Cluster) : Cluster :=
  settle uid ip (reconcile ports s uid a)

/-- A live developer, no engine of whom idles. -/
structure Wanted (s : Cluster) (uid : Nat) : Prop where
  live : ∃ u, s.users uid = some u ∧ u.deleting = false
  ports : ∀ x, s.services uid = some x → x.ports ≠ []
  busy : ∀ backend, engineStatus s.toSt backend uid ≠ "idle"

def Available (s : Cluster) (uid : Nat) : Prop := ∃ n, s.deployments uid = some n ∧ 0 < n

def Reachable (s : Cluster) (uid : Nat) (backend : String) : Prop := ∃ x, s.services uid = some x ∧ x.backend = some backend

/-- What is done for a developer, in the order it is. -/
def Done (s : Cluster) (uid : Nat) : Nat → Prop
  | 0 => True
  | 1 => Available s uid
  | 2 => Available s uid ∧ ∃ backend, Reachable s uid backend
  | 3 => Available s uid ∧ ∃ backend, Reachable s uid backend ∧ s.engines backend uid = some ⟨true, "running"⟩
  | _ => Available s uid ∧ ∃ backend, Reachable s uid backend ∧ s.engines backend uid = some ⟨true, "running"⟩ ∧
      ∃ u, s.users uid = some u ∧ u.status = ⟨backend, "running"⟩

/-- The old engine is not the one on the new backend. -/
theorem killOld_self (r : St) (uid : Nat) (u : User) (backend : String) :
    (killOld r uid u backend).1.engines backend uid = r.engines backend uid := by
  unfold killOld
  split
  · next h => simp [killEngine, setEngine_engines, Ne.symm h.2]
  · rfl

theorem killOld_kept (r : St) (uid : Nat) (u : User) (backend b : String) :
    (killOld r uid u backend).1.engines b uid = r.engines b uid ∨ (killOld r uid u backend).1.engines b uid = none := by
  unfold killOld
  split
  · by_cases hb : b = u.status.backend
    · simp [killEngine, setEngine_engines, hb]
    · simp [killEngine, setEngine_engines, hb]
  · exact .inl rfl

theorem runEngine_self (r : St) (uid : Nat) (backend : String) :
    (runEngine uid r backend).engines backend uid = (r.engines backend uid).or (some ⟨false, ""⟩) := by
  unfold runEngine
  cases h : r.engines backend uid with
  | some x => simp [h]
  | none => simp [setEngine_engines]

/-- `proceed`, when the engine does not idle and can be run. -/
theorem proceed_busy {r : St} {u : User} {backend : String} (hrun : a.run = .ok)
    (hbusy : engineStatus r backend uid ≠ "idle") :
    ∃ t state, (proceed r uid a.toAnswers u ⟨backend, engineStatus r backend uid⟩).1 =
        updateStatus t uid (some u) ⟨backend, state⟩ ∧
      (t.engines backend uid).isSome ∧
      (∀ b, t.engines b uid = r.engines b uid ∨ t.engines b uid = none ∨ t.engines b uid = some ⟨false, ""⟩) ∧
      (r.engines backend uid = some ⟨true, "running"⟩ →
        state = "running" ∧ t.engines backend uid = r.engines backend uid) := by
  by_cases hrunning : engineStatus r backend uid = "running"
  · refine ⟨(killOld r uid u backend).1, "running", ?_, ?_, fun b => ?_, fun _ => ⟨rfl, killOld_self r uid u backend⟩⟩
    · simp [proceed, hrunning]
    · rw [killOld_self]
      cases h : r.engines backend uid with
      | none => simp [engineStatus, h] at hrunning
      | some x => rfl
    · rcases killOld_kept r uid u backend b with h | h
      · exact .inl h
      · exact .inr (.inl h)
  · refine ⟨runEngine uid (killOld r uid u backend).1 backend, "starting", ?_, ?_, fun b => ?_, fun h => ?_⟩
    · simp [proceed, hrunning, hbusy, hrun]
    · rw [runEngine_self]
      cases (killOld r uid u backend).1.engines backend uid <;> rfl
    · by_cases hb : b = backend
      · subst hb
        rw [runEngine_self, killOld_self]
        cases r.engines b uid with
        | none => exact .inr (.inr rfl)
        | some x => exact .inl rfl
      · rw [runEngine_other hb]
        rcases killOld_kept r uid u backend b with h | h
        · exact .inl h
        · exact .inr (.inl h)
    · simp [engineStatus, h] at hrunning

/-- What one `Reconcile` does for a developer who is wanted. -/
structure Served (ports : List Nat) (s t : Cluster) (uid : Nat) : Prop where
  live : ∃ u, t.users uid = some u ∧ u.deleting = false
  engines : ∀ b, t.engines b uid = s.engines b uid ∨ t.engines b uid = none ∨ t.engines b uid = some ⟨false, ""⟩
  deployment : (t.deployments uid).isSome ∧ (Available s uid → t.deployments uid = s.deployments uid)
  service : t.services uid = s.services uid ∨ t.services uid = some ⟨"", ports⟩
  made : Available s uid → (t.services uid).isSome
  kept : (s.services uid).isSome → t.services uid = s.services uid
  started : Available s uid → ∀ backend, Reachable s uid backend → (t.engines backend uid).isSome ∧
    (s.engines backend uid = some ⟨true, "running"⟩ → t.engines backend uid = some ⟨true, "running"⟩ ∧
      ∃ u, t.users uid = some u ∧ u.status = ⟨backend, "running"⟩)

theorem deployment_made (ports : List Nat) (ha : Answered a) {u : User} (hu : s.users uid = some u) (hd : u.deleting = false)
    (hn : s.deployments uid = none) : ((handleDeveloper ports s uid a).cluster.deployments uid).isSome := by
  simp [handleDeveloper, ha.getErr, hu, hd, ha.deploymentErr, hn, ha.createDeploymentErr]

theorem service_made (ports : List Nat) (ha : Answered a) {u : User} (hu : s.users uid = some u) (hd : u.deleting = false)
    (hn : Available s uid) (hs : s.services uid = none) : ((handleDeveloper ports s uid a).cluster.services uid).isSome := by
  obtain ⟨n, hn, hpos⟩ := hn
  have hle : ¬n ≤ 0 := by omega
  simp [handleDeveloper, ha.getErr, hu, hd, ha.deploymentErr, hn, hle, ha.serviceErr, hs, ha.createServiceErr]

/-- The object after a `Reconcile` that stops. -/
theorem reconcile_stopped (ports : List Nat) (ha : Answered a) {u : User} (hd : u.deleting = false) {status : UserStatus}
    (h : handleDeveloper ports s uid a = ⟨t, some u, status, true, true, []⟩) (hbase : t.toSt = s.toSt) :
    (∃ v, (reconcile ports s uid a).users uid = some v ∧ v.deleting = false) ∧
      (reconcile ports s uid a).engines = s.engines ∧ (reconcile ports s uid a).deployments = t.deployments ∧
      (reconcile ports s uid a).services = t.services := by
  have hout := outcome_stop ports ha.dbUser ((handle_developer ports s uid ha.developer).trans h) rfl
  have husers : (reconcile ports s uid a).users uid =
      (updateStatus t.toSt uid (some (withMode a.developer u)) status).users uid := congrArg (fun o => o.1.users uid) hout
  refine ⟨⟨_, husers.trans (updateStatus_self ..), hd⟩, ?_, ?_, ?_⟩
  · exact (congrArg (fun o => o.1.engines) hout).trans (congrArg St.engines hbase)
  · exact congrArg (fun o => o.1.deployments) hout
  · exact congrArg (fun o => o.1.services) hout

/-- A `Reconcile` that stops has made the deployment, or the service. -/
theorem served_stopped (ports : List Nat) (ha : Answered a) {u : User} (hu : s.users uid = some u) (hd : u.deleting = false)
    {status : UserStatus} (h : handleDeveloper ports s uid a = ⟨t, some u, status, true, true, []⟩)
    (hgrown : Grown ports uid s t) (hnot : ¬Up s uid a) : Served ports s (reconcile ports s uid a) uid := by
  obtain ⟨hbase, hdep, hserv⟩ := hgrown
  obtain ⟨hlive, hengines, hdeployments, hservices⟩ := reconcile_stopped ports ha hd h hbase
  constructor
  case live => exact hlive
  case engines => exact fun b => .inl (congrFun (congrFun hengines b) uid)
  case deployment =>
    rw [hdeployments]
    rcases hdep with hsame | ⟨hnone, hnew⟩
    · rw [hsame]
      refine ⟨?_, fun _ => rfl⟩
      cases hn : s.deployments uid with
      | some n => rfl
      | none =>
        have hmade := deployment_made ports ha hu hd hn
        rw [h] at hmade
        simp [hsame, hn] at hmade
    · rw [hnew]
      exact ⟨by simp, fun ⟨n, hn, _⟩ => by cases hnone.symm.trans hn⟩
  case service =>
    rw [hservices]
    rcases hserv with hsame | ⟨-, hnew⟩
    · exact .inl (congrFun hsame uid)
    · rw [hnew]
      exact .inr (Function.update_self ..)
  case made =>
    intro hn
    rw [hservices]
    rcases hserv with hsame | ⟨-, hnew⟩
    · rw [hsame]
      cases hs : s.services uid with
      | some x => rfl
      | none =>
        have hmade := service_made ports ha hu hd hn hs
        rw [h] at hmade
        simp [hsame, hs] at hmade
    · simp [hnew]
  case kept =>
    intro hsome
    rw [hservices]
    rcases hserv with hsame | ⟨hnone, -⟩
    · exact congrFun hsame uid
    · simp [hnone] at hsome
  case started =>
    intro hn backend hr
    obtain ⟨x, hx, hb⟩ := hr
    exact absurd ⟨ha.deploymentErr, hn, ha.serviceErr, ⟨x, hx, by simp [hb]⟩, ha.statusErr⟩ hnot

/-- One that goes on starts the engine, or finds that it runs. -/
theorem served_proceeds (ports : List Nat) (ha : Answered a) (hw : Wanted s uid) {u : User} (hd : u.deleting = false)
    {x : Service} {backend : String} (hup : Up s uid a) (hx : s.services uid = some x) (hb : x.backend = some backend)
    (h : handleDeveloper ports s uid a = ⟨s, some u, ⟨backend, engineStatus s.toSt backend uid⟩, false, true, []⟩) :
    Served ports s (reconcile ports s uid a) uid := by
  have hout := outcome_proceed ha.dbUser ((handle_developer ports s uid ha.developer).trans h) rfl rfl
  obtain ⟨r, state, hproceed, hsome, hrengines, hsame⟩ := proceed_busy (r := s.toSt) (u := withMode a.developer u)
    ha.run (hw.busy backend)
  have hbase : (reconcile ports s uid a).toSt =
      updateStatus r uid (some (withMode a.developer u)) ⟨backend, state⟩ :=
    (congrArg (fun o => o.1.toSt) hout).trans hproceed
  have hservices : (reconcile ports s uid a).services = s.services := congrArg (fun o => o.1.services) hout
  have hdeployments : (reconcile ports s uid a).deployments = s.deployments := congrArg (fun o => o.1.deployments) hout
  have husers : (reconcile ports s uid a).users uid = _ :=
    (congrArg (fun r => r.users uid) hbase).trans (updateStatus_self ..)
  have hengines : ∀ b, (reconcile ports s uid a).engines b uid = r.engines b uid := fun b =>
    congrArg (fun r => r.engines b uid) hbase
  obtain ⟨n, hn, -⟩ := hup.2.1
  constructor
  case live => exact ⟨_, husers, hd⟩
  case engines =>
    intro b
    rw [hengines]
    exact hrengines b
  case deployment => simp [hdeployments, hn]
  case service => exact .inl (congrFun hservices uid)
  case made => simp [hservices, hx]
  case kept => exact fun _ => congrFun hservices uid
  case started =>
    intro _ backend' hreach
    obtain ⟨y, hy, hb'⟩ := hreach
    have hxy : y = x := by simpa [hx] using hy.symm
    rw [hxy, hb] at hb'
    cases hb'
    rw [hengines]
    refine ⟨hsome, fun hrunning => ?_⟩
    obtain ⟨hstate, hkeep⟩ := hsame hrunning
    refine ⟨hkeep.trans hrunning, _, husers, ?_⟩
    rw [hstate]

theorem reconcile_served (ports : List Nat) (hw : Wanted s uid) (ha : Answered a) :
    Served ports s (reconcile ports s uid a) uid := by
  obtain ⟨u, hu, hd⟩ := hw.live
  obtain ⟨hnot, t, status, h, hgrown, -⟩ | ⟨hup, x, backend, hx, hb, h⟩ := handleDeveloper_live ports ha.getErr hu hd
  · exact served_stopped ports ha hu hd h hgrown hnot
  · exact served_proceeds ports ha hw hd hup hx hb h

theorem settled_engine {t : Cluster} (h : Served ports s t uid) (hw : Wanted s uid) (ip backend : String) :
    (settle uid ip t).engines backend uid = (t.engines backend uid).map fun _ => ⟨true, "running"⟩ := by
  have hbusy : ∀ x, t.engines backend uid = some x → ¬(x.running = true ∧ x.status = "idle") := by
    intro x hx hidle
    rcases h.engines backend with he | he | he
    · refine hw.busy backend ?_
      rw [engineStatus, ← he, hx]
      simp [hidle.1, hidle.2]
    · simp [hx] at he
    · rw [hx] at he
      cases he
      cases hidle.1
  simp only [settle, if_true]
  cases hx : t.engines backend uid with
  | none => rfl
  | some x => simp only [Option.map_some, if_neg (hbusy x hx)]

theorem Service.address {x : Service} {backend : String} (h : x.backend = some backend) : x.clusterIP ≠ "" := by
  intro hip
  simp [Service.backend, hip] at h

theorem Served.ports_ne (h : Served ports s t uid) (hports : ports ≠ []) (hw : Wanted s uid) :
    ∀ x, t.services uid = some x → x.ports ≠ [] := by
  intro x hx
  rcases h.service with hsame | hnew
  · exact hw.ports x (hsame.symm.trans hx)
  · rw [hx] at hnew
    cases hnew
    exact hports

theorem round_services (ports : List Nat) (s : Cluster) (uid : Nat) (ip : String) (a : Answers) :
    (round ports uid ip a s).services uid =
      ((reconcile ports s uid a).services uid).map fun x => if x.clusterIP = "" then { x with clusterIP := ip } else x :=
  Function.update_self ..

theorem round_available (h : Served ports s (reconcile ports s uid a) uid) (ip : String) :
    Available (round ports uid ip a s) uid := by
  obtain ⟨n, hn⟩ := Option.isSome_iff_exists.mp h.deployment.1
  refine ⟨max n 1, ?_, by omega⟩
  simp [round, settle, hn]

/-- A service that there is once the deployment is available gets an address. -/
theorem round_addressed (h : Served ports s (reconcile ports s uid a) uid) (hports : ports ≠ []) {ip : String}
    (hip : ip ≠ "") (hw : Wanted s uid) (hn : Available s uid) : ∃ backend, Reachable (round ports uid ip a s) uid backend := by
  obtain ⟨x, hx⟩ := Option.isSome_iff_exists.mp (h.made hn)
  obtain ⟨port, rest, hcons⟩ := List.exists_cons_of_ne_nil (h.ports_ne hports hw x hx)
  have hservices := round_services ports s uid ip a
  rw [hx, Option.map_some] at hservices
  by_cases hempty : x.clusterIP = ""
  · rw [if_pos hempty] at hservices
    exact ⟨url ip port, _, hservices, by simp [Service.backend, hip, hcons]⟩
  · rw [if_neg hempty] at hservices
    exact ⟨url x.clusterIP port, _, hservices, by simp [Service.backend, hempty, hcons]⟩

/-- The address of a service does not change. -/
theorem round_reachable (h : Served ports s (reconcile ports s uid a) uid) (ip : String) {backend : String}
    (hr : Reachable s uid backend) : Reachable (round ports uid ip a s) uid backend := by
  obtain ⟨x, hx, hb⟩ := hr
  refine ⟨x, ?_, hb⟩
  rw [round_services, h.kept (by simp [hx]), hx, Option.map_some, if_neg (Service.address hb)]

theorem round_running (h : Served ports s (reconcile ports s uid a) uid) (hw : Wanted s uid) (ip : String)
    (hn : Available s uid) {backend : String} (hr : Reachable s uid backend) :
    (round ports uid ip a s).engines backend uid = some ⟨true, "running"⟩ := by
  obtain ⟨x, hx⟩ := Option.isSome_iff_exists.mp (h.started hn backend hr).1
  have hengine := settled_engine h hw ip backend
  rwa [hx] at hengine

theorem round_wanted (h : Served ports s (reconcile ports s uid a) uid) (hports : ports ≠ []) (hw : Wanted s uid)
    (ip : String) : Wanted (round ports uid ip a s) uid := by
  constructor
  case live => exact h.live
  case ports =>
    intro y hy
    rw [round_services, Option.map_eq_some_iff] at hy
    obtain ⟨x, hx, rfl⟩ := hy
    split
    · exact h.ports_ne hports hw x hx
    · exact h.ports_ne hports hw x hx
  case busy =>
    intro backend
    show engineStatus (settle uid ip (reconcile ports s uid a)).toSt backend uid ≠ "idle"
    rw [engineStatus, settled_engine h hw]
    cases (reconcile ports s uid a).engines backend uid with
    | none => simp
    | some x => simp

/-- A round gets one further. -/
theorem round_done (hports : ports ≠ []) {ip : String} (hip : ip ≠ "") (ha : Answered a) (hw : Wanted s uid) :
    Wanted (round ports uid ip a s) uid ∧ ∀ k, Done s uid k → Done (round ports uid ip a s) uid (k + 1) := by
  have hserved := reconcile_served ports hw ha
  have havailable := round_available hserved ip
  have hstatus : Available s uid → ∀ backend, Reachable s uid backend → s.engines backend uid = some ⟨true, "running"⟩ →
      Done (round ports uid ip a s) uid 4 := by
    intro hn backend hr he
    obtain ⟨-, u, hu, hstatus⟩ := (hserved.started hn backend hr).2 he
    exact ⟨havailable, backend, round_reachable hserved ip hr, round_running hserved hw ip hn hr, u, hu, hstatus⟩
  refine ⟨round_wanted hserved hports hw ip, fun k hk => ?_⟩
  rcases k with _ | _ | _ | _ | k
  · exact havailable
  · exact ⟨havailable, round_addressed hserved hports hip hw hk⟩
  · obtain ⟨hn, backend, hr⟩ := hk
    exact ⟨havailable, backend, round_reachable hserved ip hr, round_running hserved hw ip hn hr⟩
  · obtain ⟨hn, backend, hr, he⟩ := hk
    exact hstatus hn backend hr he
  · obtain ⟨hn, backend, hr, he, -⟩ := hk
    exact hstatus hn backend hr he

/-- Whatever there was, four rounds bring a developer's engine up, and each leaves the name in
    the queue for the next. -/
theorem converges (hports : ports ≠ []) {ip : String} (hip : ip ≠ "") (ha : Answered a) (hw : Wanted s uid) (n : Nat) :
    (4 ≤ n → Done ((round ports uid ip a)^[n] s) uid 4) ∧
      (0 < n → ((round ports uid ip a)^[n] s).queue uid = true) := by
  have hrounds : ∀ n, Wanted ((round ports uid ip a)^[n] s) uid ∧ Done ((round ports uid ip a)^[n] s) uid n := by
    intro n
    induction n with
    | zero => exact ⟨hw, trivial⟩
    | succ n ih =>
      rw [Function.iterate_succ_apply']
      obtain ⟨hwanted, hdone⟩ := round_done hports hip ha ih.1
      exact ⟨hwanted, hdone n ih.2⟩
  constructor
  · intro hn
    obtain ⟨m, rfl⟩ := Nat.exists_eq_add_of_le' hn
    exact (hrounds (m + 4)).2
  · intro hn
    obtain ⟨m, rfl⟩ := Nat.exists_eq_add_of_le' hn
    rw [Function.iterate_succ_apply']
    obtain ⟨u, hu, hd⟩ := (hrounds m).1.live
    exact queued_after hu hd

def created : Cluster := enqueue empty 1 (some ⟨"", false, ⟨"", ""⟩⟩)

theorem converges_created : run (sys [8100]) empty [.create 1] = some created ∧
    Done ((round [8100] 1 "10.0.0.1" answers)^[4] created) 1 4 := by
  have ha : Answered answers := ⟨rfl, rfl, rfl, rfl, rfl, rfl, rfl, rfl, rfl⟩
  have hw : Wanted created 1 := by
    refine ⟨⟨_, rfl, rfl⟩, fun x hx => ?_, fun backend => (by decide : "stopped" ≠ "idle")⟩
    cases hx
  exact ⟨rfl, (converges (by decide) (by decide) ha hw 4).1 (Nat.le_refl 4)⟩

/-! ## A user who becomes a developer -/

/-- Nothing but the controller ends the engine, it takes the user for a developer, and the
    address of the backend is not given to the user's service. -/
def Keeps (uid : Nat) (b : String) (s : Cluster) : Ev → Prop
  | .reconcile v a => v = uid → a.developer = true
  | .engine backend v x => backend = b → v = uid → x ≠ none
  | .address v ip => v = uid → ∀ x, s.services uid = some x → { x with clusterIP := ip }.backend ≠ some b
  | _ => True

/-- There is an engine that nothing says is there. -/
structure Forgotten (s : Cluster) (uid : Nat) (b : String) : Prop where
  engine : s.engines b uid ≠ none
  status : ∀ u, s.users uid = some u → u.status.backend ≠ b
  service : ∀ x, s.services uid = some x → x.backend ≠ some b

theorem Forgotten.proceeded {r : St} {u : User} {backend b : String} {out : St × List Request}
    (hp : Proceeded r uid u backend out) (he : r.engines b uid ≠ none) (hu : u.status.backend ≠ b) (hb : backend ≠ b) :
    out.1.engines b uid ≠ none ∧ ∀ v, out.1.users uid = some v → v.status.backend = backend := by
  have hold : (killOld r uid u backend).1.engines b uid ≠ none := by
    rw [killOld_other (Ne.symm hu)]
    exact he
  have hkill : (killEngine uid (killOld r uid u backend).1 backend).engines b uid ≠ none := by
    rw [killEngine, setEngine_engines, if_neg fun h => hb h.1.symm]
    exact hold
  have hstatus : ∀ (t : St) (state : String) v, (updateStatus t uid (some u) ⟨backend, state⟩).users uid = some v →
      v.status.backend = backend := by
    intro t state v hv
    rw [updateStatus_self] at hv
    cases hv
    rfl
  cases hp with
  | quiet state => exact ⟨hold, hstatus _ state⟩
  | removed => exact ⟨hkill, fun v hv => by simp at hv⟩
  | kept state => exact ⟨hkill, hstatus _ state⟩
  | sent state t ht =>
    refine ⟨?_, hstatus t state⟩
    rcases ht with rfl | rfl
    · exact hold
    · show (runEngine uid (killOld r uid u backend).1 backend).engines b uid ≠ none
      rw [runEngine_other (Ne.symm hb)]
      exact hold

theorem Forgotten.deleted {b : String} (h : Forgotten s uid b) (a : Answers) :
    (deleteDeploymentService s uid a).1.engines b uid ≠ none ∧
      ∀ x, (deleteDeploymentService s uid a).1.services uid = some x → x.backend ≠ some b := by
  have hservice : (deleteService s uid a).1.engines b uid ≠ none ∧
      ∀ x, (deleteService s uid a).1.services uid = some x → x.backend ≠ some b := by
    unfold deleteService
    cases hs : s.services uid with
    | none => exact ⟨h.engine, fun x hx => h.service x hx⟩
    | some service =>
      have hkilled : ((if a.serviceErr.isSome then none else service.backend).toList.foldl (killEngine uid)
          s.toSt).engines b uid ≠ none := by
        split
        · exact h.engine
        · cases hb : service.backend with
          | none => exact h.engine
          | some backend =>
            have hne : b ≠ backend := fun he => h.service service hs (hb.trans (congrArg some he.symm))
            simpa [killEngine, setEngine_engines, hne] using h.engine
      simp only
      split
      · exact ⟨hkilled, fun x hx => h.service x hx⟩
      · exact ⟨hkilled, fun x hx => by simp at hx⟩
  have hdeployment : ∀ t : Cluster, (deleteDeployment t uid a).1.engines = t.engines ∧
      (deleteDeployment t uid a).1.services = t.services := by
    intro t
    unfold deleteDeployment
    cases t.deployments uid with
    | none => exact ⟨rfl, rfl⟩
    | some availableReplicas =>
      simp only
      split <;> exact ⟨rfl, rfl⟩
  obtain ⟨hengines, hservices⟩ := hdeployment (deleteService s uid a).1
  show (deleteDeployment (deleteService s uid a).1 uid a).1.engines b uid ≠ none ∧
    ∀ x, (deleteDeployment (deleteService s uid a).1 uid a).1.services uid = some x → x.backend ≠ some b
  rw [hengines, hservices]
  exact hservice

theorem Forgotten.handled {b : String} (h : Forgotten s uid b) (hb : b ≠ "") (a : Answers) {out : Handled}
    (hout : handleDeveloper ports s uid a = out) :
    out.cluster.engines b uid ≠ none ∧ (∀ x, out.cluster.services uid = some x → x.backend ≠ some b) ∧
      out.cluster.users = s.users ∧
      (out.user = none ∧ out.stop = true ∨
        ∃ u, out.user = some u ∧ s.users uid = some u ∧ out.currentStatus.backend ≠ b) := by
  by_cases hlive : a.getErr = none ∧ ∃ u, s.users uid = some u ∧ u.deleting = false
  · obtain ⟨hg, u, hu, hd⟩ := hlive
    obtain ⟨-, t, status, he, ⟨hbase, -, hserv⟩, hstatus⟩ | ⟨-, x, backend, hx, hxb, he⟩ :=
      handleDeveloper_live ports hg hu hd
    · rw [he] at hout
      subst hout
      refine ⟨?_, fun x hx => ?_, congrArg St.users hbase, .inr ⟨u, rfl, hu, ?_⟩⟩
      · show t.engines b uid ≠ none
        rw [hbase]
        exact h.engine
      · rcases hserv with hsame | ⟨-, hnew⟩
        · exact h.service x ((congrFun hsame uid).symm.trans hx)
        · simp only [hnew, Function.update_self, Option.some.injEq] at hx
          subst hx
          exact nofun
      · rcases hstatus with hempty | ⟨x, hx, hxb⟩
        · show status.backend ≠ b
          rw [hempty]
          exact hb.symm
        · exact fun he => h.service x hx (hxb.trans (congrArg some he))
    · rw [he] at hout
      subst hout
      exact ⟨h.engine, h.service, rfl, .inr ⟨u, rfl, hu, fun he => h.service x hx (hxb.trans (congrArg some he))⟩⟩
  · unfold handleDeveloper at hout
    cases hg : a.getErr with
    | some err =>
      simp only [hg, Option.isSome_some, if_true] at hout
      subst hout
      exact ⟨h.engine, h.service, rfl, .inl ⟨rfl, rfl⟩⟩
    | none =>
      obtain ⟨hengine, hservice⟩ := h.deleted a
      have husers := users_deleteDeploymentService s uid a
      cases hu : s.users uid with
      | none =>
        simp only [hg, hu, Option.isSome_none, Bool.false_eq_true, if_false] at hout
        subst hout
        exact ⟨hengine, hservice, husers, .inl ⟨rfl, rfl⟩⟩
      | some u =>
        have hd : u.deleting = true := by simpa using fun hd => hlive ⟨hg, u, hu, hd⟩
        simp only [hg, hu, hd, Option.isSome_none, Bool.false_eq_true, if_false, if_true] at hout
        subst hout
        exact ⟨hengine, hservice, husers, .inr ⟨u, rfl, rfl, hb.symm⟩⟩

/-- From what `outcome` does to the engine, the object and the service. -/
theorem Forgotten.of_outcome {b : String} {t : Cluster} {rest : List Request × Bool}
    (hout : outcome ports s uid a = (t, rest)) (h : Forgotten t uid b) : Forgotten (reconcile ports s uid a) uid b := by
  have ht : (outcome ports s uid a).1 = t := congrArg Prod.fst hout
  subst ht
  exact ⟨h.engine, h.status, h.service⟩

theorem Forgotten.reconciled {b : String} (h : Forgotten s uid b) (hb : b ≠ "") (hdev : a.developer = true) :
    Forgotten (reconcile ports s uid a) uid b := by
  cases hdb : a.dbUser with
  | error err => exact .of_outcome (t := s) (by simp [outcome, hdb]; rfl) h
  | ok _ =>
    have hhandle := handle_developer ports s uid hdev
    obtain ⟨hengine, hservice, husers, hcases⟩ := h.handled hb a (Eq.refl (handleDeveloper ports s uid a))
    cases hstop : (handleDeveloper ports s uid a).stop with
    | true =>
      have hkept : ∀ (r : St) user status, r.engines b uid ≠ none →
          (updateStatus r uid user status).engines b uid ≠ none := by
        intro r user status hr
        cases user <;> exact hr
      refine .of_outcome (outcome_stop ports hdb hhandle hstop) ⟨hkept _ _ _ hengine, fun u hu => ?_, hservice⟩
      rcases hcases with ⟨huser, -⟩ | ⟨v, huser, -, hbackend⟩
      · rw [huser] at hu
        exact h.status u ((congrFun husers uid).symm.trans hu)
      · rw [huser] at hu
        have hu : (updateStatus (handleDeveloper ports s uid a).cluster.toSt uid (some (withMode a.developer v))
          (handleDeveloper ports s uid a).currentStatus).users uid = some u := hu
        rw [updateStatus_self] at hu
        cases hu
        exact hbackend
    | false =>
      rcases hcases with ⟨-, htrue⟩ | ⟨v, huser, hv, hbackend⟩
      · cases hstop.symm.trans htrue
      · obtain ⟨hkept, hstatus⟩ := Forgotten.proceeded (proceed_cases (handleDeveloper ports s uid a).cluster.toSt uid
          a.toAnswers (withMode a.developer v) (handleDeveloper ports s uid a).currentStatus) hengine
          (h.status v hv) hbackend
        refine .of_outcome (outcome_proceed hdb hhandle hstop huser) ⟨hkept, fun u hu => ?_, hservice⟩
        rw [hstatus u hu]
        exact hbackend

theorem Forgotten.step {b : String} {e : Ev} (h : Forgotten s uid b) (hb : b ≠ "") (hk : Keeps uid b s e)
    (hstep : step ports s e = some s') : Forgotten s' uid b := by
  have henqueue : ∀ v x, (∀ u, x = some u → v = uid → u.status.backend ≠ b) → Forgotten (enqueue s v x) uid b := by
    intro v x hx
    refine ⟨h.engine, fun u hu => ?_, h.service⟩
    by_cases hv : uid = v
    · subst hv
      exact hx u (by simpa [enqueue] using hu) rfl
    · exact h.status u ((Function.update_of_ne hv ..).symm.trans hu)
  cases e with
  | reconcile v a =>
    simp only [DeveloperBackend.step, Option.ite_none_right_eq_some, Option.some.injEq] at hstep
    obtain ⟨-, rfl⟩ := hstep
    by_cases hv : uid = v
    · subst hv
      exact h.reconciled hb (hk rfl)
    · obtain ⟨husers, -, -, hserv⟩ := reconcile_other ports s a hv
      refine ⟨?_, fun u hu => h.status u (husers.symm.trans hu), fun x hx => h.service x (hserv.symm.trans hx)⟩
      have hengines := ((frame_outcome ports s v a).1 uid hv).2 b
      exact hengines.trans_ne h.engine
  | create v =>
    simp only [DeveloperBackend.step, Option.ite_none_right_eq_some, Option.some.injEq] at hstep
    obtain ⟨-, rfl⟩ := hstep
    exact henqueue v _ fun u hu _ => by
      cases hu
      exact hb.symm
  | markDeleted v =>
    simp only [DeveloperBackend.step, Option.map_eq_some_iff] at hstep
    obtain ⟨w, hw, rfl⟩ := hstep
    refine henqueue v _ fun u hu hv => ?_
    cases hu
    exact h.status w (hv ▸ hw)
  | remove v =>
    simp only [DeveloperBackend.step, Option.map_eq_some_iff] at hstep
    obtain ⟨w, -, rfl⟩ := hstep
    exact henqueue v _ nofun
  | restart =>
    simp only [DeveloperBackend.step, Option.some.injEq] at hstep
    subst hstep
    exact ⟨h.engine, h.status, h.service⟩
  | engine backend v x =>
    simp only [DeveloperBackend.step, Option.map_eq_some_iff] at hstep
    obtain ⟨_, -, rfl⟩ := hstep
    refine ⟨?_, h.status, h.service⟩
    show (s.toSt.setEngine backend v x).engines b uid ≠ none
    rw [setEngine_engines]
    split
    · next he => exact hk he.1.symm he.2.symm
    · exact h.engine
  | replicas v available =>
    simp only [DeveloperBackend.step, Option.map_eq_some_iff] at hstep
    obtain ⟨_, -, rfl⟩ := hstep
    exact ⟨h.engine, h.status, h.service⟩
  | address v ip =>
    simp only [DeveloperBackend.step, Option.map_eq_some_iff] at hstep
    obtain ⟨y, hy, rfl⟩ := hstep
    refine ⟨h.engine, h.status, fun x hx => ?_⟩
    by_cases hv : uid = v
    · subst hv
      simp only [Function.update_self, Option.some.injEq] at hx
      subst hx
      exact hk rfl y hy
    · exact h.service x ((Function.update_of_ne hv ..).symm.trans hx)

end GenieCloud.K8s.DeveloperBackend
