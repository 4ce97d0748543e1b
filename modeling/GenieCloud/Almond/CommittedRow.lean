/-
  GenieCloud.Almond.CommittedRow — which version of the user's row a restarted engine is
  configured with (`routes/developer_console.ts`: accept-invitation and remove-member;
  `routes/user.ts`: POST /profile; `routes/admin.ts`: POST /users/revoke-developer/:id;
  the operations of `almond/enginemanager.ts` that take the user's lock).

  A handler writes the row in a transaction and asks the engine manager for a restart: after
  the commit, or, to remove a member, before it, with the transaction open until the
  restart is over. The engine manager reads the row on a connection of its own, where it
  sees what is committed, and starts an engine with what it read. Handlers and calls of
  the engine manager go on at once, in any order.

  `rows` lists the committed versions of the row. `restarted_with_committed`: a restart has
  read the version its handler committed, or a later one, exactly if the handler removes
  nobody from an organization, and an engine that runs after it is configured with such a
  version. To remove a member leaves the engine with the developer key
  (`removed_member_keeps_key`).

  A user who is being deleted is left out, and so is the start of the engine manager:
  runs begin when it has started its users.
-/

import GenieCloud.Lib.Objects
import GenieCloud.Lib.Runs
import GenieCloud.Lib.Utf16

namespace GenieCloud.Almond.CommittedRow

open GenieCloud.Lib.Objects GenieCloud.Lib.Runs GenieCloud.Lib

/-! ## The row and what an engine gets of it -/

/-- The columns of a user that the handlers write or that decide what they do. -/
structure Row where
  cloudId : String
  username : String
  email : String
  emailVerified : Bool
  phone : Option String
  locale : String
  humanName : String
  profileFlags : Nat
  developerOrg : Option Nat
  developerStatus : Int
  deriving DecidableEq, Repr

structure Config where
  enableDeveloperProgram : Bool
  withThingpediaEmbedded : Bool
  thingpediaDeveloperKey : Option String
  /-- `developer_key` of the organizations. -/
  keys : Nat → Option String

/-- What `_runUser` hands to the engine of the columns above. -/
structure Settings where
  cloudId : String
  developerKey : Option String
  locale : String
  humanName : String
  phone : Option String
  email : String
  emailVerified : Bool
  /-- The developer key and the locale of its `ThingpediaClient`. -/
  thingpediaClient : Option (Option String × String)
  deriving DecidableEq, Repr

variable (conf : Config)

/-- The column that `user.get` joins from `organizations`. -/
def developerKey (user : Row) : Option String := user.developerOrg.bind conf.keys

def getUserDeveloperKey (user : Row) : Option String :=
  match developerKey conf user with
  | some key => if key = "" then fallback else some key
  | none => fallback
where
  fallback : Option String :=
    if conf.enableDeveloperProgram || conf.withThingpediaEmbedded then none else conf.thingpediaDeveloperKey

def settings (user : Row) : Settings where
  cloudId := user.cloudId
  developerKey := getUserDeveloperKey conf user
  locale := user.locale
  humanName := user.humanName
  phone := user.phone
  email := user.email
  emailVerified := user.emailVerified
  thingpediaClient := if conf.withThingpediaEmbedded then some (developerKey conf user, user.locale) else none

/-! ## The handlers -/

/-- The operations of the engine manager under the user's lock. -/
inductive Kind where
  | startUser
  | killUser
  | restartUser
  | restartUserWithoutCache
  | clearCache
  deriving DecidableEq, Repr

/-- Where a handler asks for its restart. -/
inductive Point where
  | inTransaction
  | afterCommit
  | afterTransaction
  deriving DecidableEq, Repr

structure Operation where
  /-- What the transaction writes, given the row it finds; `none` if a check fails. -/
  write : Row → Option Row
  point : Point
  restart : Option Kind

def makeDeveloper (orgId : Option Nat) (status : Int) (user : Row) : Row :=
  match orgId with
  | some org => { user with developerOrg := some org, developerStatus := status }
  | none => { user with developerOrg := none, developerStatus := 0 }

/-- `user` is the row of the session; the organization and the invitation are as found. -/
def acceptInvitation (user : Row) (org : Option Nat) (invitation : Option Int) : Operation where
  write row :=
    match user.developerOrg, org, invitation with
    | none, some org, some status => some (makeDeveloper (some org) status row)
    | _, _, _ => none
  point := .afterCommit
  restart := some .restartUser

def removeMember (admin : Row) : Operation where
  write row :=
    if row.cloudId = admin.cloudId then none
    else if row.developerOrg ≠ admin.developerOrg then none
    else some (makeDeveloper none 2 row)
  point := .inTransaction
  restart := some .restartUserWithoutCache

/-- The body of POST /profile. -/
structure Profile where
  username : String
  email : String
  phone : Option String
  humanName : Option String
  locale : String
  visibleOrganizationProfile : Bool
  showHumanName : Bool
  showProfilePicture : Bool

structure Checks where
  validateUsername : String → Bool
  normalizePhoneNumber : String → String
  hasLocale : String → Bool

def newLocale (checks : Checks) (user : Row) (body : Profile) : String :=
  if checks.hasLocale body.locale then body.locale else user.locale

def newEmail (user : Row) (body : Profile) : String :=
  if !body.email.toList.contains '@' || 255 < (Utf16.encode body.email.toList).length then user.email else body.email

def profileFlags (body : Profile) : Nat :=
  (if body.visibleOrganizationProfile then 1 else 0) ||| (if body.showHumanName then 2 else 0) |||
    (if body.showProfilePicture then 8 else 0)

def profile (checks : Checks) (user : Row) (body : Profile) : Operation where
  write row := some { row with
    username := if checks.validateUsername body.username then body.username else user.username
    email := newEmail user body
    emailVerified := newEmail user body = user.email
    phone := body.phone.map fun phone => if phone = "" then phone else checks.normalizePhoneNumber phone
    locale := newLocale checks user body
    humanName := body.humanName.getD ""
    profileFlags := profileFlags body }
  point := .afterTransaction
  restart := if newLocale checks user body ≠ user.locale then some .restartUser else none

/-- `self`: the administrator names their own id. -/
def revokeDeveloper (self : Bool) : Operation where
  write row := if self then none else some (makeDeveloper none 0 row)
  point := .afterCommit
  restart := some .restartUserWithoutCache

inductive Request where
  | acceptInvitation (user : Row) (org : Option Nat) (invitation : Option Int)
  | removeMember (admin : Row)
  | profile (user : Row) (body : Profile)
  | revokeDeveloper (self : Bool)

def operation (checks : Checks) : Request → Operation
  | .acceptInvitation user org invitation => acceptInvitation user org invitation
  | .removeMember admin => removeMember admin
  | .profile user body => profile checks user body
  | .revokeDeveloper self => revokeDeveloper self

def Request.removes : Request → Bool
  | .removeMember _ => true
  | _ => false

theorem inTransaction_iff (checks : Checks) (r : Request) :
    (operation checks r).point = .inTransaction ↔ r.removes = true := by
  cases r with
  | acceptInvitation user org invitation => exact ⟨nofun, nofun⟩
  | removeMember admin => exact ⟨fun _ => rfl, fun _ => rfl⟩
  | profile user body => exact ⟨nofun, nofun⟩
  | revokeDeveloper self => exact ⟨nofun, nofun⟩

/-! ## Runs -/

/-- Where the transaction of a handler stands; a committed one has its version. -/
inductive Txn where
  | pending
  | written (row : Row)
  | committed (version : Nat)
  | failed
  | declined
  deriving DecidableEq

structure Handler where
  request : Request
  txn : Txn
  /-- The call of the engine manager it made. -/
  job : Option Nat

inductive Act where
  | kill
  | clear
  | start
  deriving DecidableEq

def acts : Kind → List Act
  | .startUser => [.start]
  | .killUser => [.kill]
  | .restartUser => [.kill, .start]
  | .restartUserWithoutCache => [.kill, .clear, .start]
  | .clearCache => [.clear]

inductive Phase where
  | queued
  | inside
  | done
  | failed
  deriving DecidableEq

/-- A call of the engine manager: what is left of it, and the version of the row it read. -/
structure Job where
  acts : List Act
  phase : Phase
  loaded : Option Nat
  deriving DecidableEq

/-- The engine that runs, and the version of the row it was started with. -/
structure Engine where
  version : Nat
  settings : Settings
  deriving DecidableEq

structure St where
  /-- The committed versions of the row, oldest first. -/
  rows : List Row
  handlers : List Handler
  jobs : List Job
  /-- The handler whose transaction has written the row. -/
  writer : Option Nat
  engine : Option Engine

/-- What a call does next. -/
inductive Work where
  | enter
  | kill
  | clear
  | read
  | run
  | release
  | abort
  deriving DecidableEq

inductive Ev where
  | arrive (r : Request)
  /-- The `i`th handler writes the row, or finds that a check fails. -/
  | write (i : Nat)
  | commit (i : Nat)
  /-- The transaction of the `i`th handler fails and is rolled back. -/
  | fail (i : Nat)
  /-- The `i`th handler asks for its restart. -/
  | restart (i : Nat)
  /-- Another transaction changes the row. -/
  | other (row : Row)
  /-- Someone else calls the engine manager, its own timers included. -/
  | call (kind : Kind)
  | work (j : Nat) (w : Work)
  /-- The engine dies by itself. -/
  | crash

/-- May a handler ask for its restart? -/
def asks : Point → Txn → Bool
  | .inTransaction, .written _ => true
  | .afterCommit, .committed _ => true
  | .afterTransaction, .committed _ => true
  | .afterTransaction, .failed => true
  | _, _ => false

/-- Is the restart of a handler over, and did it work? -/
def restarted (s : St) (h : Handler) : Bool := ((h.job.bind (s.jobs[·]?)).map (·.phase)) = some .done

/-- One step of a call in the engine manager; the lock is `free` for it or not. -/
def work (rows : List Row) (engine : Option Engine) (free : Bool) (job : Job) : Work → Option (Job × Option Engine)
  | .enter => if job.phase = .queued ∧ free then some ({ job with phase := .inside }, engine) else none
  | .kill =>
    match job.phase, job.acts with
    | .inside, .kill :: acts => some ({ job with acts := acts }, none)
    | _, _ => none
  | .clear =>
    -- the record of the engine has the cloud id of the directory; the engine is killed
    match job.phase, job.acts with
    | .inside, .clear :: acts => some ({ job with acts := acts }, none)
    | _, _ => none
  | .read =>
    match job.phase, job.acts, job.loaded with
    | .inside, [.start], none => some ({ job with loaded := some (rows.length - 1) }, engine)
    | _, _, _ => none
  | .run =>
    match job.phase, job.acts, job.loaded with
    | .inside, [.start], some version =>
      match rows[version]? with
      | some row => some ({ job with acts := [] }, some ⟨version, settings conf row⟩)
      | none => none
    | _, _, _ => none
  | .release =>
    match job.phase, job.acts with
    | .inside, [] => some ({ job with phase := .done }, engine)
    | _, _ => none
  | .abort => if job.phase = .inside then some ({ job with phase := .failed }, engine) else none

def setHandler (s : St) (i : Nat) (h : Handler) : St := { s with handlers := s.handlers.set i h }

variable (checks : Checks)

def step (s : St) : Ev → Option St
  | .arrive r => some { s with handlers := s.handlers ++ [⟨r, .pending, none⟩] }
  | .write i =>
    match s.handlers[i]?, s.rows.getLast? with
    | some ⟨r, .pending, job⟩, some row =>
      if s.writer = none then
        match (operation checks r).write row with
        | some row => some { setHandler s i ⟨r, .written row, job⟩ with writer := some i }
        | none => some (setHandler s i ⟨r, .declined, job⟩)
      else none
    | _, _ => none
  | .commit i =>
    match s.handlers[i]? with
    | some ⟨r, .written row, job⟩ =>
      if (operation checks r).point = .inTransaction ∧ restarted s ⟨r, .written row, job⟩ = false then none
      else some { setHandler s i ⟨r, .committed s.rows.length, job⟩ with rows := s.rows ++ [row], writer := none }
    | _ => none
  | .fail i =>
    match s.handlers[i]? with
    | some ⟨r, .pending, job⟩ => some (setHandler s i ⟨r, .failed, job⟩)
    | some ⟨r, .written _, job⟩ => some { setHandler s i ⟨r, .failed, job⟩ with writer := none }
    | _ => none
  | .restart i =>
    match s.handlers[i]? with
    | some ⟨r, txn, none⟩ =>
      match (operation checks r).restart, asks (operation checks r).point txn with
      | some kind, true =>
        some { setHandler s i ⟨r, txn, some s.jobs.length⟩ with jobs := s.jobs ++ [⟨acts kind, .queued, none⟩] }
      | _, _ => none
    | _ => none
  | .other row => if s.writer = none then some { s with rows := s.rows ++ [row] } else none
  | .call kind => some { s with jobs := s.jobs ++ [⟨acts kind, .queued, none⟩] }
  | .work j w =>
    match s.jobs[j]? with
    | some job =>
      match work conf s.rows s.engine (s.jobs.all (·.phase ≠ .inside)) job w with
      | some (job, engine) => some { s with jobs := s.jobs.set j job, engine := engine }
      | none => none
    | none => none
  | .crash => some { s with engine := none }

/-- At first the engine, if it runs, has the row as it is. -/
def system : System St Ev where
  init s := ∃ row, s.rows = [row] ∧ s.handlers = [] ∧ s.jobs = [] ∧ s.writer = none ∧
    ∀ e, s.engine = some e → e = ⟨0, settings conf row⟩
  step := step conf checks

/-! ## One step of a call -/

/-- What a step makes of a call and of the engine. -/
inductive Worked (rows : List Row) (engine : Option Engine) (free : Bool) : Job → Job → Option Engine → Prop
  | enter (acts : List Act) (loaded : Option Nat) (hf : free = true) :
    Worked rows engine free ⟨acts, .queued, loaded⟩ ⟨acts, .inside, loaded⟩ engine
  | drop (a : Act) (acts : List Act) (loaded : Option Nat) (ha : a ≠ .start) :
    Worked rows engine free ⟨a :: acts, .inside, loaded⟩ ⟨acts, .inside, loaded⟩ none
  | read : Worked rows engine free ⟨[.start], .inside, none⟩ ⟨[.start], .inside, some (rows.length - 1)⟩ engine
  | run (v : Nat) (row : Row) (hr : rows[v]? = some row) :
    Worked rows engine free ⟨[.start], .inside, some v⟩ ⟨[], .inside, some v⟩ (some ⟨v, settings conf row⟩)
  | release (loaded : Option Nat) : Worked rows engine free ⟨[], .inside, loaded⟩ ⟨[], .done, loaded⟩ engine
  | abort (acts : List Act) (loaded : Option Nat) :
    Worked rows engine free ⟨acts, .inside, loaded⟩ ⟨acts, .failed, loaded⟩ engine

section Jobs

variable {conf} {rows : List Row} {engine engine' : Option Engine} {free : Bool} {job job' : Job}

theorem work_worked {w : Work} (h : work conf rows engine free job w = some (job', engine')) :
    Worked conf rows engine free job job' engine' := by
  cases job with
  | mk acts phase loaded =>
    cases w with
    | enter =>
      simp only [work] at h
      split at h
      · next hc =>
        cases h
        cases hc.1
        exact .enter acts loaded hc.2
      · cases h
    | kill =>
      simp only [work] at h
      split at h
      · cases h
        exact .drop .kill _ loaded nofun
      · cases h
    | clear =>
      simp only [work] at h
      split at h
      · cases h
        exact .drop .clear _ loaded nofun
      · cases h
    | read =>
      simp only [work] at h
      split at h
      · cases h
        exact .read
      · cases h
    | run =>
      simp only [work] at h
      split at h
      · next v =>
        split at h
        · next row hr =>
          cases h
          exact .run v row hr
        · cases h
      · cases h
    | release =>
      simp only [work] at h
      split at h
      · cases h
        exact .release loaded
      · cases h
    | abort =>
      simp only [work] at h
      split at h
      · next hp =>
        cases h
        cases hp
        exact .abort acts loaded
      · cases h

/-- What holds of a call on its own. -/
structure JobOk (n : Nat) (job : Job) : Prop where
  bound : ∀ v, job.loaded = some v → v < n
  shape : job.loaded ≠ none → job.acts = [.start] ∨ job.acts = []
  queued : job.phase = .queued → job.loaded = none
  done : job.phase = .done → job.acts = []

theorem jobOk_new (n : Nat) (kind : Kind) : JobOk n ⟨acts kind, .queued, none⟩ :=
  ⟨nofun, fun h => absurd rfl h, fun _ => rfl, nofun⟩

theorem JobOk.mono {n m : Nat} (h : JobOk n job) (hle : n ≤ m) : JobOk m job :=
  ⟨fun v hv => Nat.lt_of_lt_of_le (h.bound v hv) hle, h.shape, h.queued, h.done⟩

theorem Worked.ok (hw : Worked conf rows engine free job job' engine') (hn : 0 < rows.length)
    (h : JobOk rows.length job) : JobOk rows.length job' := by
  cases hw with
  | enter acts loaded hf => exact ⟨h.bound, h.shape, nofun, nofun⟩
  | drop a acts loaded ha =>
    refine ⟨h.bound, fun hl => ?_, nofun, nofun⟩
    -- a call that has read the row has only the start before it
    rcases h.shape hl with hs | hs
    · cases hs
      exact absurd rfl ha
    · cases hs
  | read =>
    refine ⟨fun v hv => ?_, fun _ => .inl rfl, nofun, nofun⟩
    cases hv
    exact Nat.sub_lt hn Nat.one_pos
  | run v row hr => exact ⟨h.bound, fun _ => .inr rfl, nofun, nofun⟩
  | release loaded => exact ⟨h.bound, fun _ => .inr rfl, nofun, fun _ => rfl⟩
  | abort acts loaded => exact ⟨h.bound, h.shape, nofun, nofun⟩

theorem Worked.ran (hw : Worked conf rows engine free job job' engine') (h : JobOk rows.length job) {v : Nat}
    (ha : job'.acts = []) (hl : job'.loaded = some v) :
    (job.acts = [] ∧ job.loaded = some v ∧ engine' = engine) ∨
      (job.phase = .inside ∧ job.loaded = some v ∧ ∃ e, engine' = some e ∧ e.version = v) := by
  cases hw with
  | enter acts loaded hf => exact .inl ⟨ha, hl, rfl⟩
  | drop a acts loaded ha' =>
    rcases h.shape (hl ▸ nofun) with hs | hs
    · cases hs
      exact absurd rfl ha'
    · cases hs
  | read => cases ha
  | run w row hr =>
    cases hl
    exact .inr ⟨rfl, rfl, _, rfl, rfl⟩
  | release loaded => exact .inl ⟨rfl, hl, rfl⟩
  | abort acts loaded => exact .inl ⟨ha, hl, rfl⟩

theorem Worked.inside_loaded (hw : Worked conf rows engine free job job' engine') (h : JobOk rows.length job) {v : Nat}
    (hp : job'.phase = .inside) (hl : job'.loaded = some v) :
    (job.phase = .inside ∧ job.loaded = some v) ∨ v = rows.length - 1 := by
  cases hw with
  | enter acts loaded hf =>
    have hnone := h.queued rfl
    rw [hl] at hnone
    cases hnone
  | drop a acts loaded ha => exact .inl ⟨rfl, hl⟩
  | read => exact .inr (Option.some.inj hl).symm
  | run w row hr => exact .inl ⟨rfl, hl⟩
  | release loaded => cases hp
  | abort acts loaded => cases hp

theorem Worked.inside (hw : Worked conf rows engine free job job' engine') (hp : job'.phase = .inside) :
    job.phase = .inside ∨ free = true := by
  cases hw with
  | enter acts loaded hf => exact .inr hf
  | drop a acts loaded ha => exact .inl rfl
  | read => exact .inl rfl
  | run w row hr => exact .inl rfl
  | release loaded => cases hp
  | abort acts loaded => cases hp

theorem Worked.started (hw : Worked conf rows engine free job job' engine') {e : Engine} (he : engine' = some e) :
    engine = some e ∨ ∃ row, job.phase = .inside ∧ job.loaded = some e.version ∧ rows[e.version]? = some row ∧
      e.settings = settings conf row := by
  cases hw with
  | enter acts loaded hf => exact .inl he
  | drop a acts loaded ha => cases he
  | read => exact .inl he
  | run v row hr =>
    cases he
    exact .inr ⟨row, rfl, rfl, hr, rfl⟩
  | release loaded => exact .inl he
  | abort acts loaded => exact .inl he

end Jobs

/-! ## The engine manager -/

variable {conf checks} {s t : St}

/-- A call that has started its engine never read a later version than the engine has, nor
    than the call that holds the lock. -/
structure JobsInv (conf : Config) (s : St) : Prop where
  rows : 0 < s.rows.length
  job : ∀ (j : Nat) (a : Job), s.jobs[j]? = some a → JobOk s.rows.length a
  only : ∀ (i j : Nat) (a b : Job), s.jobs[i]? = some a → s.jobs[j]? = some b → a.phase = .inside → b.phase = .inside → i = j
  before : ∀ (i j : Nat) (a b : Job) (v w : Nat), s.jobs[i]? = some a → s.jobs[j]? = some b → a.acts = [] →
    a.loaded = some v → b.phase = .inside → b.loaded = some w → v ≤ w
  ran : ∀ (j : Nat) (a : Job) (v : Nat) (e : Engine), s.jobs[j]? = some a → a.acts = [] → a.loaded = some v →
    s.engine = some e → v ≤ e.version
  engine : ∀ e, s.engine = some e → ∃ row, s.rows[e.version]? = some row ∧ e.settings = settings conf row

/-- Events that do not step a call: rows are added, calls come in, the engine may die. -/
theorem JobsInv.mono (hi : JobsInv conf s) (more : List Row) (kinds : List Kind) (hr : t.rows = s.rows ++ more)
    (hj : t.jobs = s.jobs ++ kinds.map fun kind => ⟨acts kind, .queued, none⟩)
    (he : ∀ e, t.engine = some e → s.engine = some e) : JobsInv conf t := by
  have hlen : s.rows.length ≤ t.rows.length := by simp [hr]
  -- a call in `t` was there, or is new and has read nothing
  have hold : ∀ (j : Nat) (a : Job), t.jobs[j]? = some a → s.jobs[j]? = some a ∨ ∃ kind, a = ⟨acts kind, .queued, none⟩ := by
    intro j a ha
    rw [hj, List.getElem?_append] at ha
    split at ha
    · exact .inl ha
    · rw [List.getElem?_map, Option.map_eq_some_iff] at ha
      obtain ⟨kind, -, rfl⟩ := ha
      exact .inr ⟨kind, rfl⟩
  refine ⟨Nat.lt_of_lt_of_le hi.rows hlen, ?_, ?_, ?_, ?_, ?_⟩
  · intro j a ha
    rcases hold j a ha with ha | ⟨kind, rfl⟩
    · exact (hi.job j a ha).mono hlen
    · exact jobOk_new _ kind
  · intro i j a b ha hb hai hbi
    rcases hold i a ha with ha | ⟨kind, rfl⟩
    · rcases hold j b hb with hb | ⟨kind, rfl⟩
      · exact hi.only i j a b ha hb hai hbi
      · cases hbi
    · cases hai
  · intro i j a b v w ha hb hacts hv hp hw
    rcases hold i a ha with ha | ⟨kind, rfl⟩
    · rcases hold j b hb with hb | ⟨kind, rfl⟩
      · exact hi.before i j a b v w ha hb hacts hv hp hw
      · cases hp
    · cases hv
  · intro j a v e ha hacts hv hs
    rcases hold j a ha with ha | ⟨kind, rfl⟩
    · exact hi.ran j a v e ha hacts hv (he e hs)
    · cases hv
  · intro e hs
    obtain ⟨row, hrow, hset⟩ := hi.engine e (he e hs)
    exact ⟨row, by rw [hr, List.getElem?_append_left (getElem?_lt hrow), hrow], hset⟩

theorem JobsInv.same (hi : JobsInv conf s) (hr : t.rows = s.rows) (hj : t.jobs = s.jobs) (he : t.engine = s.engine) :
    JobsInv conf t := by
  have hr' : t.rows = s.rows ++ [] := by rw [hr, List.append_nil]
  have hj' : t.jobs = s.jobs ++ ([] : List Kind).map fun kind => ⟨acts kind, .queued, none⟩ := by
    rw [hj, List.map_nil, List.append_nil]
  exact hi.mono _ _ hr' hj' fun e h => he ▸ h

theorem JobsInv.work {j : Nat} {job job' : Job} {engine' : Option Engine} {free : Bool} (hi : JobsInv conf s)
    (hj : s.jobs[j]? = some job) (hw : Worked conf s.rows s.engine free job job' engine')
    (hfree : free = true → ∀ (i : Nat) (a : Job), s.jobs[i]? = some a → a.phase ≠ .inside) :
    JobsInv conf { s with jobs := s.jobs.set j job', engine := engine' } := by
  have hok := hi.job j job hj
  have hat : ∀ (i : Nat) (a : Job), (s.jobs.set j job')[i]? = some a → (i = j ∧ a = job') ∨ s.jobs[i]? = some a := by
    intro i a ha
    rw [getElem?_updated hj] at ha
    split at ha
    · next hij => exact .inl ⟨hij.symm, (Option.some.inj ha).symm⟩
    · exact .inr ha
  -- the calls that are inside in the end: the one that stepped, or none if it took the lock
  have honly : ∀ (i : Nat) (a : Job), s.jobs[i]? = some a → a.phase = .inside → job'.phase = .inside → i = j := by
    intro i a ha hai hp
    rcases hw.inside hp with hin | hf
    · exact hi.only i j a job ha hj hai hin
    · exact absurd hai (hfree hf i a ha)
  refine ⟨hi.rows, ?_, ?_, ?_, ?_, ?_⟩
  · intro i a ha
    rcases hat i a ha with ⟨-, rfl⟩ | ha'
    · exact hw.ok hi.rows hok
    · exact hi.job i a ha'
  · intro i k a b ha hb hai hbi
    rcases hat i a ha with ⟨rfl, rfl⟩ | ha'
    · rcases hat k b hb with ⟨rfl, -⟩ | hb'
      · rfl
      · exact (honly k b hb' hbi hai).symm
    · rcases hat k b hb with ⟨rfl, rfl⟩ | hb'
      · exact honly i a ha' hai hbi
      · exact hi.only i k a b ha' hb' hai hbi
  · intro i k a b v w ha hb hacts hv hp hl
    -- the version of the call that started its engine, in the state before
    have hold : ∃ (i' : Nat) (a' : Job), s.jobs[i']? = some a' ∧ a'.loaded = some v ∧
        (a'.acts = [] ∨ i' = j ∧ a'.phase = .inside) := by
      rcases hat i a ha with ⟨rfl, rfl⟩ | ha'
      · rcases hw.ran hok hacts hv with ⟨hn, hv', -⟩ | ⟨hin, hv', -⟩
        · exact ⟨i, job, hj, hv', .inl hn⟩
        · exact ⟨i, job, hj, hv', .inr ⟨rfl, hin⟩⟩
      · exact ⟨i, a, ha', hv, .inl hacts⟩
    obtain ⟨i', a', hi', hv', hcase⟩ := hold
    have hbound : v ≤ s.rows.length - 1 := Nat.le_sub_one_of_lt ((hi.job i' a' hi').bound v hv')
    rcases hat k b hb with ⟨rfl, rfl⟩ | hb'
    · rcases hw.inside_loaded hok hp hl with ⟨hin, hl'⟩ | rfl
      · rcases hcase with hn | ⟨rfl, -⟩
        · exact hi.before i' k a' job v w hi' hj hn hv' hin hl'
        · cases hi'.symm.trans hj
          cases hv'.symm.trans hl'
          exact Nat.le_refl v
      · exact hbound
    · rcases hcase with hn | ⟨rfl, hin⟩
      · exact hi.before i' k a' b v w hi' hb' hn hv' hp hl
      · have hk := hi.only i' k a' b hi' hb' hin hp
        subst hk
        cases hi'.symm.trans hb'
        cases hv'.symm.trans hl
        exact Nat.le_refl v
  · intro i a v e ha hacts hv he
    rcases hat i a ha with ⟨rfl, rfl⟩ | ha'
    · rcases hw.ran hok hacts hv with ⟨hn, hv', heq⟩ | ⟨-, -, e', he', rfl⟩
      · exact hi.ran i job v e hj hn hv' (heq ▸ he)
      · cases he.symm.trans he'
        exact Nat.le_refl e.version
    · rcases hw.started he with he' | ⟨row, hin, hl, -, -⟩
      · exact hi.ran i a v e ha' hacts hv he'
      · exact hi.before i j a job v e.version ha' hj hacts hv hin hl
  · intro e he
    rcases hw.started he with he | ⟨row, -, -, hrow, hset⟩
    · exact hi.engine e he
    · exact ⟨row, hrow, hset⟩

/-! ## The handlers -/

/-- What later events make of a call, when `n` versions are committed. -/
structure Aged (n : Nat) (a b : Job) : Prop where
  reads : .start ∈ a.acts ∨ a.loaded ≠ none → .start ∈ b.acts ∨ b.loaded ≠ none
  loaded : ∀ v, b.loaded = some v → a.loaded = some v ∨ v = n - 1
  done : a.phase = .done → b = a

theorem Aged.refl (n : Nat) (a : Job) : Aged n a a := ⟨id, fun _ => .inl, fun _ => rfl⟩

theorem Worked.aged {rows : List Row} {engine engine' : Option Engine} {free : Bool} {job job' : Job}
    (hw : Worked conf rows engine free job job' engine') : Aged rows.length job job' := by
  cases hw with
  | enter acts loaded hf => exact ⟨id, fun _ => .inl, nofun⟩
  | drop a acts loaded ha =>
    refine ⟨fun h => h.imp_left fun hm => ?_, fun _ => .inl, nofun⟩
    rcases List.mem_cons.mp hm with rfl | hm
    · exact absurd rfl ha
    · exact hm
  | read => exact ⟨fun _ => .inl (List.mem_singleton.mpr rfl), fun v hv => .inr (Option.some.inj hv).symm, nofun⟩
  | run v row hr => exact ⟨fun _ => .inr nofun, fun _ => .inl, nofun⟩
  | release loaded => exact ⟨id, fun _ => .inl, nofun⟩
  | abort acts loaded => exact ⟨id, fun _ => .inl, nofun⟩

/-- What holds of the `i`th handler. -/
structure HandlerOk (checks : Checks) (s : St) (i : Nat) (h : Handler) : Prop where
  written : ∀ row, h.txn = .written row → s.writer = some i ∧
    ∃ old, s.rows.getLast? = some old ∧ (operation checks h.request).write old = some row
  committed : ∀ c, h.txn = .committed c → ∃ old row, 0 < c ∧ s.rows[c - 1]? = some old ∧ s.rows[c]? = some row ∧
    (operation checks h.request).write old = some row
  late : (operation checks h.request).point ≠ .inTransaction → h.job ≠ none → (∃ c, h.txn = .committed c) ∨ h.txn = .failed
  reads : ∀ j, h.job = some j → ∃ a, s.jobs[j]? = some a ∧ (.start ∈ a.acts ∨ a.loaded ≠ none)
  after : (operation checks h.request).point ≠ .inTransaction → ∀ (c j : Nat) (a : Job) (v : Nat),
    h.txn = .committed c → h.job = some j → s.jobs[j]? = some a → a.loaded = some v → c ≤ v
  within : (operation checks h.request).point = .inTransaction → ∀ c, h.txn = .committed c → ∃ (j : Nat) (a : Job),
    h.job = some j ∧ s.jobs[j]? = some a ∧ a.phase = .done ∧ ∀ v, a.loaded = some v → v < c

/-- Rows and calls are added and calls go on; the row a handler has written stays until it commits. -/
theorem HandlerOk.mono {i : Nat} {h : Handler} (hh : HandlerOk checks s i h) (more : List Row)
    (hr : t.rows = s.rows ++ more) (hw : s.writer = some i → t.rows = s.rows ∧ t.writer = some i)
    (hj : ∀ (j : Nat) (a : Job), s.jobs[j]? = some a → ∃ b, t.jobs[j]? = some b ∧ Aged s.rows.length a b) :
    HandlerOk checks t i h := by
  have hkept : ∀ {c : Nat} {row : Row}, s.rows[c]? = some row → t.rows[c]? = some row := by
    intro c row hc
    rw [hr, List.getElem?_append_left (getElem?_lt hc), hc]
  refine ⟨?_, ?_, hh.late, ?_, ?_, ?_⟩
  · intro row hrow
    obtain ⟨hwr, old, hold, hop⟩ := hh.written row hrow
    obtain ⟨hrows, hwr'⟩ := hw hwr
    exact ⟨hwr', old, hrows ▸ hold, hop⟩
  · intro c hc
    obtain ⟨old, row, hpos, hold, hrow, hop⟩ := hh.committed c hc
    exact ⟨old, row, hpos, hkept hold, hkept hrow, hop⟩
  · intro j hjob
    obtain ⟨a, ha, hstart⟩ := hh.reads j hjob
    obtain ⟨b, hb, hab⟩ := hj j a ha
    exact ⟨b, hb, hab.reads hstart⟩
  · intro hp c j b v hc hjob hb hv
    obtain ⟨a, ha, -⟩ := hh.reads j hjob
    obtain ⟨b', hb', hab⟩ := hj j a ha
    cases hb.symm.trans hb'
    rcases hab.loaded v hv with hv' | rfl
    · exact hh.after hp c j a v hc hjob ha hv'
    · obtain ⟨-, row, -, -, hrow, -⟩ := hh.committed c hc
      exact Nat.le_sub_one_of_lt (getElem?_lt hrow)
  · intro hp c hc
    obtain ⟨j, a, hjob, ha, hdone, hlt⟩ := hh.within hp c hc
    obtain ⟨b, hb, hab⟩ := hj j a ha
    rw [hab.done hdone] at hb
    exact ⟨j, a, hjob, hb, hdone, hlt⟩

structure Inv (conf : Config) (checks : Checks) (s : St) : Prop where
  jobs : JobsInv conf s
  handlers : ∀ (i : Nat) (h : Handler), s.handlers[i]? = some h → HandlerOk checks s i h

theorem same_jobs (s : St) (j : Nat) (a : Job) (ha : s.jobs[j]? = some a) :
    ∃ b, s.jobs[j]? = some b ∧ Aged s.rows.length a b := ⟨a, ha, .refl _ a⟩

theorem jobs_kept (s : St) (kind : Kind) (j : Nat) (a : Job) (ha : s.jobs[j]? = some a) :
    ∃ b, (s.jobs ++ [⟨acts kind, .queued, none⟩])[j]? = some b ∧ Aged s.rows.length a b :=
  ⟨a, getElem?_kept _ ha, .refl _ a⟩

/-- An event of the `i`th handler: it is fine after it, and so are the others. -/
theorem Inv.set (hi : Inv conf checks s) {i : Nat} {h h' : Handler} (hat : s.handlers[i]? = some h)
    (ht : t.handlers = s.handlers.set i h') (hjobs : JobsInv conf t) (hok : HandlerOk checks t i h')
    (hothers : ∀ (k : Nat) (hd : Handler), k ≠ i → HandlerOk checks s k hd → HandlerOk checks t k hd) :
    Inv conf checks t := by
  refine ⟨hjobs, fun k hd hk => ?_⟩
  rw [ht, getElem?_updated hat] at hk
  split at hk
  · next hik =>
    cases hk
    exact hik ▸ hok
  · next hik => exact hothers k hd (Ne.symm hik) (hi.handlers k hd hk)

theorem write_inv (hi : Inv conf checks s) {i : Nat} (h : step conf checks s (.write i) = some t) :
    Inv conf checks t := by
  simp only [step] at h
  split at h
  · next r job old hat hold =>
    have hh := hi.handlers i _ hat
    split at h
    · next hw =>
      have hlate : ∀ txn : Txn, (operation checks r).point ≠ .inTransaction → job ≠ none →
          (∃ c, txn = .committed c) ∨ txn = .failed := by
        intro txn hp hj
        rcases hh.late hp hj with ⟨c, hc⟩ | hf
        · cases hc
        · cases hf
      split at h
      · next row hop =>
        cases h
        refine hi.set hat rfl (hi.jobs.same rfl rfl rfl) ?_ ?_
        · refine ⟨fun row' hrow => ?_, nofun, hlate _, hh.reads, nofun, nofun⟩
          cases hrow
          exact ⟨rfl, old, hold, hop⟩
        · intro k hd hk hhd
          refine hhd.mono [] (List.append_nil _).symm (fun hwk => ?_) (same_jobs s)
          rw [hw] at hwk
          cases hwk
      · cases h
        refine hi.set hat rfl (hi.jobs.same rfl rfl rfl) ?_ ?_
        · exact ⟨nofun, nofun, hlate _, hh.reads, nofun, nofun⟩
        · intro k hd hk hhd
          exact hhd.mono [] (List.append_nil _).symm (fun hwk => ⟨rfl, hwk⟩) (same_jobs s)
    · cases h
  · cases h

theorem commit_inv (hi : Inv conf checks s) {i : Nat} (h : step conf checks s (.commit i) = some t) :
    Inv conf checks t := by
  simp only [step] at h
  split at h
  · next r row job hat =>
    have hh := hi.handlers i _ hat
    obtain ⟨hwriter, old, hold, hop⟩ := hh.written row rfl
    split at h
    · cases h
    · next hready =>
      cases h
      have hpos : 0 < s.rows.length := hi.jobs.rows
      refine hi.set hat rfl (hi.jobs.mono [row] [] rfl (List.append_nil _).symm fun _ => id) ?_ ?_
      · refine ⟨nofun, fun c hc => ?_, fun _ _ => .inl ⟨_, rfl⟩, hh.reads, fun hp c j a v _ hj _ _ => ?_, fun hp c hc => ?_⟩
        · cases hc
          rw [List.getLast?_eq_getElem?] at hold
          exact ⟨old, row, hpos, by rw [List.getElem?_append_left (getElem?_lt hold), hold],
            List.getElem?_concat_length, hop⟩
        · -- it asks for the restart after the commit, so it has not yet
          rcases hh.late hp (hj ▸ nofun) with ⟨c', hc'⟩ | hf
          · cases hc'
          · cases hf
        · cases hc
          have hdone : restarted s ⟨r, .written row, job⟩ = true := by
            cases hr : restarted s ⟨r, .written row, job⟩ with
            | true => rfl
            | false => exact absurd ⟨hp, hr⟩ hready
          simp only [restarted, decide_eq_true_eq, Option.map_eq_some_iff, Option.bind_eq_some_iff] at hdone
          obtain ⟨a, ⟨j, hj, ha⟩, hphase⟩ := hdone
          exact ⟨j, a, hj, ha, hphase, (hi.jobs.job j a ha).bound⟩
      · intro k hd hk hhd
        refine hhd.mono [row] rfl (fun hwk => ?_) (same_jobs s)
        exact absurd (Option.some.inj (hwk.symm.trans hwriter)) hk
  · cases h

theorem fail_inv (hi : Inv conf checks s) {i : Nat} (h : step conf checks s (.fail i) = some t) : Inv conf checks t := by
  simp only [step] at h
  split at h
  · next r job hat =>
    cases h
    have hh := hi.handlers i _ hat
    refine hi.set hat rfl (hi.jobs.same rfl rfl rfl) ?_ ?_
    · exact ⟨nofun, nofun, fun _ _ => .inr rfl, hh.reads, nofun, nofun⟩
    · intro k hd hk hhd
      exact hhd.mono [] (List.append_nil _).symm (fun hwk => ⟨rfl, hwk⟩) (same_jobs s)
  · next r row job hat =>
    cases h
    have hh := hi.handlers i _ hat
    obtain ⟨hwriter, -⟩ := hh.written row rfl
    refine hi.set hat rfl (hi.jobs.same rfl rfl rfl) ?_ ?_
    · exact ⟨nofun, nofun, fun _ _ => .inr rfl, hh.reads, nofun, nofun⟩
    · intro k hd hk hhd
      refine hhd.mono [] (List.append_nil _).symm (fun hwk => ?_) (same_jobs s)
      exact absurd (Option.some.inj (hwk.symm.trans hwriter)) hk
  · cases h

theorem restarts (checks : Checks) (r : Request) {kind : Kind} (h : (operation checks r).restart = some kind) :
    .start ∈ acts kind := by
  cases r with
  | acceptInvitation user org invitation => cases h; decide
  | removeMember admin => cases h; decide
  | profile user body =>
    simp only [operation, profile] at h
    split at h
    · cases h; decide
    · cases h
  | revokeDeveloper self => cases h; decide

theorem restart_inv (hi : Inv conf checks s) {i : Nat} (h : step conf checks s (.restart i) = some t) :
    Inv conf checks t := by
  simp only [step] at h
  split at h
  · next r txn hat =>
    have hh := hi.handlers i _ hat
    split at h
    · next kind hkind hasks =>
      cases h
      have hnew := getElem?_created s.jobs ⟨acts kind, .queued, none⟩ s.jobs.length
      rw [if_pos rfl] at hnew
      refine hi.set hat rfl (hi.jobs.mono [] [kind] (List.append_nil _).symm rfl fun _ => id) ?_ ?_
      · refine ⟨hh.written, hh.committed, fun hp _ => ?_, fun j hj => ?_, fun hp c j a v _ hj ha hv => ?_, fun hp c hc => ?_⟩
        · cases txn with
          | pending => cases hpt : (operation checks r).point <;> simp [asks, hpt] at hasks
          | written row => cases hpt : (operation checks r).point <;> simp_all [asks]
          | committed c => exact .inl ⟨c, rfl⟩
          | failed => exact .inr rfl
          | declined => cases hpt : (operation checks r).point <;> simp [asks, hpt] at hasks
        · cases hj
          exact ⟨_, hnew, .inl (restarts checks r hkind)⟩
        · cases hj
          cases ha.symm.trans hnew
          cases hv
        · subst hc
          have hpt : (operation checks r).point = .inTransaction := hp
          rw [hpt] at hasks
          cases hasks
      · intro k hd hk hhd
        exact hhd.mono [] (List.append_nil _).symm (fun hwk => ⟨rfl, hwk⟩) (jobs_kept s kind)
    · cases h
  · cases h

theorem step_inv (hi : Inv conf checks s) {e : Ev} (h : step conf checks s e = some t) : Inv conf checks t := by
  cases e with
  | arrive r =>
    cases h
    refine ⟨hi.jobs.same rfl rfl rfl, fun i hd hat => ?_⟩
    rw [getElem?_created] at hat
    split at hat
    · cases hat
      exact ⟨nofun, nofun, fun _ hj => absurd rfl hj, nofun, nofun, nofun⟩
    · exact (hi.handlers i hd hat).mono [] (List.append_nil _).symm (fun hwk => ⟨rfl, hwk⟩) (same_jobs s)
  | write i => exact write_inv hi h
  | commit i => exact commit_inv hi h
  | fail i => exact fail_inv hi h
  | restart i => exact restart_inv hi h
  | other row =>
    simp only [step] at h
    split at h
    · next hw =>
      cases h
      refine ⟨hi.jobs.mono [row] [] rfl (List.append_nil _).symm fun _ => id, fun i hd hat => ?_⟩
      refine (hi.handlers i hd hat).mono [row] rfl (fun hwk => ?_) (same_jobs s)
      rw [hw] at hwk
      cases hwk
    · cases h
  | call kind =>
    cases h
    refine ⟨hi.jobs.mono [] [kind] (List.append_nil _).symm rfl fun _ => id, fun i hd hat => ?_⟩
    exact (hi.handlers i hd hat).mono [] (List.append_nil _).symm (fun hwk => ⟨rfl, hwk⟩) (jobs_kept s kind)
  | work j w =>
    simp only [step] at h
    split at h
    · next job hj =>
      split at h
      · next job' engine hw =>
        cases h
        have hworked := work_worked hw
        refine ⟨hi.jobs.work hj hworked fun hfree i a ha => ?_, fun i hd hat => ?_⟩
        · simpa using List.all_eq_true.mp hfree a (List.mem_of_getElem? ha)
        · refine (hi.handlers i hd hat).mono [] (List.append_nil _).symm (fun hwk => ⟨rfl, hwk⟩) fun k a ha => ?_
          by_cases hk : j = k
          · subst hk
            cases ha.symm.trans hj
            exact ⟨job', getElem?_updated_self hj job', hworked.aged⟩
          · refine ⟨a, ?_, .refl _ a⟩
            show (s.jobs.set j job')[k]? = some a
            rw [getElem?_updated hj, if_neg hk, ha]
      · cases h
    · cases h
  | crash =>
    cases h
    refine ⟨?_, fun i hd hat => ?_⟩
    · exact hi.jobs.mono [] [] (List.append_nil _).symm (List.append_nil _).symm nofun
    · exact (hi.handlers i hd hat).mono [] (List.append_nil _).symm (fun hwk => ⟨rfl, hwk⟩) (same_jobs s)

theorem init_inv (h : (system conf checks).init s) : Inv conf checks s := by
  obtain ⟨row, hrows, hhandlers, hjobs, -, hengine⟩ := h
  have hnone : ∀ (j : Nat) (a : Job), s.jobs[j]? ≠ some a := by
    intro j a ha
    rw [hjobs] at ha
    cases ha
  refine ⟨⟨?_, fun j a ha => absurd ha (hnone j a), fun i _ a _ ha => absurd ha (hnone i a),
    fun i _ a _ _ _ ha => absurd ha (hnone i a), fun j a _ _ ha => absurd ha (hnone j a), ?_⟩, ?_⟩
  · rw [hrows]
    exact Nat.one_pos
  · intro e he
    rw [hengine e he, hrows]
    exact ⟨row, rfl, rfl⟩
  · intro i hd hat
    rw [hhandlers] at hat
    cases hat

theorem reach_inv {ok : St → Ev → Prop} (h : Reach (system conf checks) ok s) : Inv conf checks s :=
  h.inv (fun _ => init_inv) fun _ _ _ hi _ hs => step_inv hi hs

/-! ## What a restart read -/

/-- In every run: when a handler has committed and its restart is over, the restart read
    the version committed or a later one exactly if the handler removes nobody. -/
theorem reads_committed_iff {ok : St → Ev → Prop} (h : Reach (system conf checks) ok s) {i c : Nat} {hd : Handler}
    (hat : s.handlers[i]? = some hd) (hc : hd.txn = .committed c) (hdone : restarted s hd = true) :
    ∃ j a v, hd.job = some j ∧ s.jobs[j]? = some a ∧ a.loaded = some v ∧ (c ≤ v ↔ hd.request.removes = false) := by
  have hi := reach_inv h
  have hh := hi.handlers i hd hat
  simp only [restarted, decide_eq_true_eq, Option.map_eq_some_iff, Option.bind_eq_some_iff] at hdone
  obtain ⟨a, ⟨j, hj, ha⟩, hphase⟩ := hdone
  have hacts := (hi.jobs.job j a ha).done hphase
  obtain ⟨a', ha', hread⟩ := hh.reads j hj
  cases ha.symm.trans ha'
  rw [hacts] at hread
  rcases hread with hm | hl
  · cases hm
  · obtain ⟨v, hv⟩ := Option.ne_none_iff_exists'.mp hl
    refine ⟨j, a, v, hj, ha, hv, ?_⟩
    cases hr : hd.request.removes with
    | true =>
      obtain ⟨j', b, hj', hb, -, hlt⟩ := hh.within ((inTransaction_iff checks _).mpr hr) c hc
      cases hj.symm.trans hj'
      cases ha.symm.trans hb
      exact ⟨fun hle => absurd (hlt v hv) (Nat.not_lt_of_le hle), nofun⟩
    | false =>
      have hp : (operation checks hd.request).point ≠ .inTransaction := by
        intro hp
        rw [(inTransaction_iff checks _).mp hp] at hr
        cases hr
      exact ⟨fun _ => rfl, fun _ => hh.after hp c j a v hc hj ha hv⟩

/-- In every run, once a handler has committed and its restart is over: the restart read
    the version committed or a later one exactly if nobody was removed; and then an engine
    that runs is configured with such a version, the one committed if it is the last. -/
theorem restarted_with_committed (h : Reach (system conf checks) any s) {i c : Nat} {hd : Handler}
    (hat : s.handlers[i]? = some hd) (hc : hd.txn = .committed c) (hdone : restarted s hd = true) :
    (∃ j a v, hd.job = some j ∧ s.jobs[j]? = some a ∧ a.loaded = some v ∧ (c ≤ v ↔ hd.request.removes = false)) ∧
    (hd.request.removes = false → ∀ e, s.engine = some e → ∃ old wrote row,
      s.rows[c - 1]? = some old ∧ s.rows[c]? = some wrote ∧ (operation checks hd.request).write old = some wrote ∧
      c ≤ e.version ∧ s.rows[e.version]? = some row ∧ e.settings = settings conf row ∧
      (c + 1 = s.rows.length → row = wrote)) := by
  have hi := reach_inv h
  have hread := reads_committed_iff h hat hc hdone
  refine ⟨hread, fun hr e he => ?_⟩
  obtain ⟨j, a, v, hj, ha, hv, hiff⟩ := hread
  obtain ⟨old, wrote, -, hold, hwrote, hop⟩ := (hi.handlers i hd hat).committed c hc
  obtain ⟨row, hrow, hset⟩ := hi.jobs.engine e he
  have hacts : a.acts = [] := by
    apply (hi.jobs.job j a ha).done
    simpa [restarted, hj, ha] using hdone
  have hle : c ≤ e.version := Nat.le_trans (hiff.mpr hr) (hi.jobs.ran j a v e ha hacts hv he)
  refine ⟨old, wrote, row, hold, hwrote, hop, hle, hrow, hset, fun hlast => ?_⟩
  have hlt := getElem?_lt hrow
  have heq : e.version = c := by omega
  rw [heq, hwrote] at hrow
  exact (Option.some.inj hrow).symm

/-! ## A member who is removed -/

def thingpedia : Config := ⟨true, true, none, fun org => if org = 1 then some "key" else none⟩

def plain : Checks := ⟨fun _ => true, id, fun locale => locale = "en-US" ∨ locale = "it-IT"⟩

def bob : Row := ⟨"bob", "bob", "bob@x", true, none, "en-US", "Bob", 0, some 1, 1⟩

def alice : Row := ⟨"alice", "alice", "alice@x", true, none, "en-US", "Alice", 0, some 1, 2⟩

def started : St := ⟨[bob], [], [], none, some ⟨0, settings thingpedia bob⟩⟩

/-- Alice removes Bob: the handler waits for the restart, and commits. -/
def removal : List Ev :=
  [.arrive (.removeMember alice), .write 0, .restart 0, .work 0 .enter, .work 0 .kill, .work 0 .clear, .work 0 .read,
    .work 0 .run, .work 0 .release, .commit 0]

/-- Bob is in no organization any more, nothing is going on, and his engine has the key. -/
theorem removed_member_keeps_key :
    ∃ s, run (system thingpedia plain) started removal = some s ∧
      s.rows.getLast?.map (·.developerOrg) = some none ∧ s.handlers.map (·.txn) = [.committed 1] ∧
      s.jobs.map (·.phase) = [.done] ∧ (settings thingpedia (makeDeveloper none 0 bob)).developerKey = none ∧
      s.engine.map (·.settings.developerKey) = some (some "key") := by
  refine ⟨_, rfl, ?_⟩
  decide

def italian : Profile := ⟨"bob", "bob@x", none, some "Bob", "it-IT", false, false, false⟩

theorem restarted_with_committed_profile :
    ∃ s e, run (system thingpedia plain) started
        [.arrive (.profile bob italian), .write 0, .commit 0, .restart 0, .work 0 .enter, .work 0 .kill, .work 0 .read,
          .work 0 .run, .work 0 .release] = some s ∧
      s.engine = some e ∧ e.settings.locale = "it-IT" := by
  have hstart : (system thingpedia plain).init started := ⟨bob, rfl, rfl, rfl, rfl, fun e he => (Option.some.inj he).symm⟩
  refine ⟨_, _, rfl, rfl, ?_⟩
  have hrun : run (system thingpedia plain) started
      [.arrive (.profile bob italian), .write 0, .commit 0, .restart 0, .work 0 .enter, .work 0 .kill, .work 0 .read,
        .work 0 .run, .work 0 .release] = some _ := rfl
  have hreach := (Reach.init hstart).path (run_path hrun)
  obtain ⟨old, wrote, row, hold, hwrote, hop, -, -, hset, hlast⟩ :=
    (restarted_with_committed hreach (i := 0) rfl rfl rfl).2 rfl _ rfl
  rw [hset, hlast rfl]
  cases hold
  cases hop
  rfl

end GenieCloud.Almond.CommittedRow
