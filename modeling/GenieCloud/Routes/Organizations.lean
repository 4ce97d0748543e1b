/-
  GenieCloud.Routes.Organizations — who belongs to a developer organization and who runs it
  (`routes/developer_console.ts`, `/request-developer` and `/delete` of `routes/user.ts`, the
  user and organization routes of `routes/admin.ts`, over `model/organization.ts` and
  `makeDeveloper` of `util/user.ts`).

  A request is let in on the row its session loaded, `req.user`, and its transaction comes
  later: in between, other requests can change that row. The routes go on reading it. Whatever
  else a request waits for or can fail on (mail, the engine, a query) makes its transaction
  late, or `drop`s it. Words of a name, the terms of service and the restarts of engines are
  left out.

  `log` is ghost state: which committed transaction let whom in or up, and on whose request.

  - `member_linked`: however requests overlap, every member of an organization is linked to
    its first members, its founder or a site administrator by a chain of invitations and
    promotions, each by an administrator who is linked the same way, and an administrator is
    so linked as an administrator. Site administrators are those of the start.
  - `keeps_admin`: an organization that has an administrator goes on having one as long as
    each transaction finds the row of its session unchanged and no site administrator, and no
    user who deletes their account, takes an administrator away. `last_admins_demoted`: two
    administrators who demote each other at once leave none.
-/

import GenieCloud.Lib.Runs
import GenieCloud.Lib.Table

namespace GenieCloud.Routes.Organizations

open GenieCloud.Lib GenieCloud.Lib.Runs

/-! ## The database -/

namespace DeveloperStatus

def USER : Nat := 0
def DEVELOPER : Nat := 1
def ORG_ADMIN : Nat := 2

end DeveloperStatus

namespace Role

def ADMIN : Nat := 1
def THINGPEDIA_ADMIN : Nat := 4

end Role

structure UserRow where
  username : String
  cloud_id : String
  email_verified : Bool
  roles : Nat := 0
  developer_org : Option Nat := none
  developer_status : Nat := DeveloperStatus.USER
deriving DecidableEq

structure InvitationRow where
  user_id : Nat
  org_id : Nat
  developer_status : Nat
deriving DecidableEq

/-- Of an organization, its `id_hash`. -/
structure Db where
  users : Table UserRow
  organizations : Table String
  org_invitations : List InvitationRow

/-- Who did what for whom, of which organization; `founded` is by its founder or by a site
    administrator who raised a user that had none. -/
inductive Entry
  | founded (source user org : Nat)
  | invited (source user org status : Nat)
  | promoted (source user org : Nat)
  | raised (source user org : Nat)
  | placed (source user org : Nat)
deriving DecidableEq

/-- `req.user`: the row as the session loaded it. -/
structure Session where
  id : Nat
  user : UserRow
deriving DecidableEq

variable (sameName : String → String → Bool)

def getByName (db : Db) (username : String) : Option (Nat × UserRow) :=
  db.users.first? fun _ row => sameName row.username username

def getByCloudId (db : Db) (cloudId : String) : Option (Nat × UserRow) :=
  db.users.first? fun _ row => row.cloud_id = cloudId

def findInvitation (db : Db) (orgId userId : Nat) : Option InvitationRow :=
  db.org_invitations.find? fun inv => inv.user_id = userId ∧ inv.org_id = orgId

def inviteUser (db : Db) (orgId userId status : Nat) : Db :=
  { db with org_invitations := db.org_invitations ++ [⟨userId, orgId, status⟩] }

def rescindInvitation (db : Db) (orgId userId : Nat) : Db :=
  { db with org_invitations := db.org_invitations.filter fun inv => !decide (inv.user_id = userId ∧ inv.org_id = orgId) }

def rescindAllInvitations (db : Db) (userId : Nat) : Db :=
  { db with org_invitations := db.org_invitations.filter fun inv => !decide (inv.user_id = userId) }

def update (db : Db) (id : Nat) (f : UserRow → UserRow) : Db :=
  { db with users := db.users.update (fun i _ => i = id) f }

/-- The key on `id_hash` is unique. -/
def create (db : Db) (id_hash : String) : Except String (Nat × Db) :=
  if (db.organizations.first? fun _ hash => hash = id_hash).isSome then .error "Duplicate entry for key id_hash"
  else .ok (db.organizations.next, { db with organizations := db.organizations.insert id_hash })

/-- A row that changes must refer to an organization there is. -/
def makeDeveloper (db : Db) (userId : Nat) (orgId : Option Nat) (status : Nat := DeveloperStatus.ORG_ADMIN) :
    Except String Db :=
  match orgId with
  | some org =>
    if (db.users.get? userId).isSome ∧ (db.organizations.get? org).isNone then .error "foreign key constraint fails"
    else .ok (update db userId fun row => { row with developer_org := some org, developer_status := status })
  | none => .ok (update db userId fun row => { row with developer_org := none, developer_status := 0 })

/-! ## The routes

Each with the database at its commit, and its entry in the log. -/

abbrev Outcome := Except String (Db × Option Entry)

/-- `parseInt` of the form's field, `none` for `NaN`, and the checks on it. -/
def invitedStatus (developer_status : Option Int) : Nat :=
  match developer_status with
  | none => 0
  | some n => min n.toNat DeveloperStatus.ORG_ADMIN

def addMember (db : Db) (user : Session) (username : String) (developer_status : Option Int) : Outcome :=
  match getByName sameName db username with
  | none => .error ("No such user " ++ username)
  | some (id, row) =>
    if row.developer_org ≠ none then .error (username ++ " is already a member of another developer organization.")
    else if !row.email_verified then .error (username ++ " has not verified their email address yet.")
    else
      match user.user.developer_org with
      | none => .error "Not Found"
      | some org =>
        if (findInvitation db org id).isSome then .ok (db, none)
        else if (db.organizations.get? org).isNone then .error "Not Found"
        else
          let status := invitedStatus developer_status
          .ok (inviteUser db org id status, some (.invited user.id id org status))

def acceptInvitation (db : Db) (user : Session) (id_hash : String) : Outcome :=
  if user.user.developer_org ≠ none then .error "You are already a member of another developer organization."
  else
    match db.organizations.first? fun _ hash => hash = id_hash with
    | none => .error "Not Found"
    | some (org, _) =>
      match findInvitation db org user.id with
      | none =>
        .error "The invitation is no longer valid. It might have expired or might have been rescinded by the organization administrator."
      | some invitation => do
        let db ← makeDeveloper db user.id (some org) invitation.developer_status
        .ok (rescindAllInvitations db user.id, none)

def rescind (db : Db) (user : Session) (user_id : String) : Outcome :=
  match getByCloudId db user_id with
  | none => .error "No such user"
  | some (id, _) =>
    match user.user.developer_org with
    | none => .ok (db, none)
    | some org => .ok (rescindInvitation db org id, none)

/-- The row is read before the check that there is one. -/
def removeMember (db : Db) (user : Session) (user_id : String) : Outcome :=
  match getByCloudId db user_id with
  | none => .error "Cannot read property 'cloud_id' of undefined"
  | some (id, row) =>
    if row.cloud_id = user.user.cloud_id then .error "You cannot remove yourself from your developer organization."
    else if row.developer_org ≠ user.user.developer_org then
      .error "The user is not a member of your developer organization."
    else do
      let db ← makeDeveloper db id none
      .ok (db, none)

def promote (db : Db) (user : Session) (user_id : String) : Outcome :=
  match getByCloudId db user_id with
  | none => .error "No such user"
  | some (id, row) =>
    if row.developer_org ≠ user.user.developer_org then .error "The user is not a member of your developer organization."
    else if DeveloperStatus.ORG_ADMIN ≤ row.developer_status then .ok (db, none)
    else
      .ok (update db id fun r => { r with developer_status := row.developer_status + 1 },
        row.developer_org.map (.promoted user.id id))

def demote (db : Db) (user : Session) (user_id : String) : Outcome :=
  match getByCloudId db user_id with
  | none => .error "Cannot read property 'cloud_id' of undefined"
  | some (id, row) =>
    if row.cloud_id = user.user.cloud_id then .error "You cannot demote yourself."
    else if row.developer_org ≠ user.user.developer_org then
      .error "The user is not a member of your developer organization."
    else if row.developer_status = 0 then .ok (db, none)
    else .ok (update db id fun r => { r with developer_status := row.developer_status - 1 }, none)

def requestDeveloper (db : Db) (user : Session) (id_hash : String) : Outcome := do
  let (org, db) ← create db id_hash
  let db ← makeDeveloper db user.id (some org)
  .ok (db, some (.founded user.id user.id org))

/-- Likes and posts of the user can fail it; the invitations stay. -/
def delete (db : Db) (id : Nat) : Outcome := .ok ({ db with users := db.users.delete fun i _ => i = id }, none)

def adminPromote (db : Db) (user : Session) (id : Nat) (id_hash : String) : Outcome :=
  match db.users.get? id with
  | none => .error "Not Found"
  | some row =>
    if DeveloperStatus.ORG_ADMIN ≤ row.developer_status then .ok (db, none)
    else
      match row.developer_org with
      | none => do
        let (org, db) ← create db id_hash
        let db ← makeDeveloper db id (some org)
        .ok (db, some (.founded user.id id org))
      | some org =>
        .ok (update db id fun r => { r with developer_status := row.developer_status + 1 }, some (.raised user.id id org))

def adminDemote (db : Db) (id : Nat) : Outcome :=
  match db.users.get? id with
  | none => .error "Not Found"
  | some row =>
    if row.developer_status = 0 then .ok (db, none)
    else .ok (update db id fun r => { r with developer_status := row.developer_status - 1 }, none)

def adminRevokeDeveloper (db : Db) (id : Nat) : Outcome :=
  match db.users.get? id with
  | none => .error "Not Found"
  | some _ => do
    let db ← makeDeveloper db id none DeveloperStatus.USER
    .ok (db, none)

def adminAddMember (db : Db) (user : Session) (org : Nat) (as_developer : Bool) (username : String) : Outcome :=
  match getByName sameName db username with
  | none => .error ("No such user " ++ username)
  | some (id, row) =>
    if row.developer_org ≠ none ∧ row.developer_org ≠ some org then
      .error (username ++ " is already a member of another developer organization.")
    else do
      let targetStatus := if as_developer then DeveloperStatus.DEVELOPER else DeveloperStatus.USER
      let db ← makeDeveloper db id (some org) targetStatus
      .ok (db, some (.placed user.id id org))

/-! ## Runs -/

inductive Request
  | addMember (username : String) (developer_status : Option Int)
  | acceptInvitation (id_hash : String)
  | rescind (user_id : String)
  | removeMember (user_id : String)
  | promote (user_id : String)
  | demote (user_id : String)
  | requestDeveloper (id_hash : String)
  | deleteAccount
  | adminPromote (id : Nat) (id_hash : String)
  | adminDemote (id : Nat)
  | adminRevokeDeveloper (id : Nat)
  | adminDelete (id : Nat)
  | adminAddMember (org : Nat) (as_developer : Bool) (username : String)
deriving DecidableEq

def requireDeveloper (required : Nat) (user : UserRow) : Bool := user.developer_org ≠ none ∧ required ≤ user.developer_status

def requireRole (role : Nat) (user : UserRow) : Bool := user.roles &&& role = role

/-- What stands between a request and its transaction. -/
def admits (user : Session) : Request → Bool
  | .addMember .. | .rescind _ | .removeMember _ | .promote _ | .demote _ =>
    requireDeveloper DeveloperStatus.ORG_ADMIN user.user
  | .acceptInvitation _ | .deleteAccount => true
  | .requestDeveloper _ => user.user.developer_org = none
  | .adminPromote .. => requireRole Role.ADMIN user.user
  | .adminDemote id | .adminRevokeDeveloper id | .adminDelete id => requireRole Role.ADMIN user.user && user.id ≠ id
  | .adminAddMember .. => requireRole Role.THINGPEDIA_ADMIN user.user

def transaction (db : Db) (user : Session) : Request → Outcome
  | .addMember username status => addMember sameName db user username status
  | .acceptInvitation hash => acceptInvitation db user hash
  | .rescind userId => rescind db user userId
  | .removeMember userId => removeMember db user userId
  | .promote userId => promote db user userId
  | .demote userId => demote db user userId
  | .requestDeveloper hash => requestDeveloper db user hash
  | .deleteAccount => delete db user.id
  | .adminPromote id hash => adminPromote db user id hash
  | .adminDemote id => adminDemote db id
  | .adminRevokeDeveloper id => adminRevokeDeveloper db id
  | .adminDelete id => delete db id
  | .adminAddMember org asDeveloper username => adminAddMember sameName db user org asDeveloper username

structure State where
  db : Db
  pending : List (Session × Request) := []
  log : List Entry := []

/-- `register` and `edit` stand for the routes that add a user and change the other columns
    of one. -/
inductive Event
  | arrive (id : Nat) (request : Request)
  | run (k : Nat)
  | drop (k : Nat)
  | register (username cloud_id : String) (email_verified : Bool)
  | edit (id : Nat) (username : String) (email_verified : Bool)

def step (s : State) : Event → Option State
  | .arrive id request =>
    match s.db.users.get? id with
    | none => none
    | some row => if admits ⟨id, row⟩ request then some { s with pending := s.pending ++ [(⟨id, row⟩, request)] } else none
  | .run k =>
    match s.pending[k]? with
    | none => none
    | some (user, request) =>
      match transaction sameName s.db user request with
      | .error _ => some { s with pending := s.pending.eraseIdx k }
      | .ok (db, entry) => some { db := db, pending := s.pending.eraseIdx k, log := s.log ++ entry.toList }
  | .drop k => some { s with pending := s.pending.eraseIdx k }
  | .register username cloudId verified =>
    if (getByCloudId s.db cloudId).isSome ∨ (getByName sameName s.db username).isSome then none
    else some { s with db := { s.db with users := s.db.users.insert ⟨username, cloudId, verified, 0, none, 0⟩ } }
  | .edit id username verified =>
    some { s with db := update s.db id fun row => { row with username := username, email_verified := verified } }

/-- A run starts when nothing is under way and nobody is invited. -/
def system : System State Event where
  init s := s.pending = [] ∧ s.log = [] ∧ s.db.org_invitations = []
  step := step sameName

/-! ## What a transaction can do -/

def Heads (user : UserRow) (org : Nat) : Prop := user.developer_org = some org ∧ DeveloperStatus.ORG_ADMIN ≤ user.developer_status

instance (user : UserRow) (org : Nat) : Decidable (Heads user org) := inferInstanceAs (Decidable (_ ∧ _))

/-- Whom a request takes something away from that is not one administrator's to another
    member. -/
def overrides (db : Db) (user : Session) : Request → Option Nat
  | .deleteAccount => some user.id
  | .adminDemote id | .adminRevokeDeveloper id | .adminDelete id => some id
  | .adminAddMember _ _ username => (getByName sameName db username).map (·.1)
  | _ => none

/-- An administrator of the member's organization, another user, asked for it, or it is
    overridden. -/
def Yields (db : Db) (user : Session) (request : Request) (id : Nat) (row : UserRow) : Prop :=
  (∃ org, Heads user.user org ∧ row.developer_org = some org ∧ row.cloud_id ≠ user.user.cloud_id) ∨
    overrides sameName db user request = some id

inductive Effect (db : Db) (user : Session) (request : Request) : Db → Option Entry → Prop
  | same : Effect db user request db none
  | invited {id org status : Nat} : Heads user.user org → status ≤ DeveloperStatus.ORG_ADMIN →
      Effect db user request (inviteUser db org id status) (some (.invited user.id id org status))
  | rescinded {id org : Nat} : Effect db user request (rescindInvitation db org id) none
  | joined {inv : InvitationRow} : user.user.developer_org = none → inv ∈ db.org_invitations → inv.user_id = user.id →
      Effect db user request (rescindAllInvitations (update db user.id fun row =>
        { row with developer_org := some inv.org_id, developer_status := inv.developer_status }) user.id) none
  | founded {id : Nat} {hash : String} :
      (id = user.id ∧ user.user.developer_org = none ∨
        requireRole Role.ADMIN user.user = true ∧ ∃ row, db.users.get? id = some row ∧ row.developer_org = none) →
      Effect db user request (update { db with organizations := db.organizations.insert hash } id fun row =>
        { row with developer_org := some db.organizations.next, developer_status := DeveloperStatus.ORG_ADMIN })
        (some (.founded user.id id db.organizations.next))
  | left {id : Nat} {row : UserRow} : db.users.get? id = some row → Yields sameName db user request id row →
      Effect db user request (update db id fun row => { row with developer_org := none, developer_status := 0 }) none
  | promoted {id org : Nat} {row : UserRow} : db.users.get? id = some row → Heads user.user org → row.developer_org = some org →
      row.developer_status < DeveloperStatus.ORG_ADMIN →
      Effect db user request (update db id fun r => { r with developer_status := row.developer_status + 1 })
        (some (.promoted user.id id org))
  | raised {id org : Nat} {row : UserRow} : db.users.get? id = some row → requireRole Role.ADMIN user.user = true →
      row.developer_org = some org → row.developer_status < DeveloperStatus.ORG_ADMIN →
      Effect db user request (update db id fun r => { r with developer_status := row.developer_status + 1 })
        (some (.raised user.id id org))
  | demoted {id : Nat} {row : UserRow} : db.users.get? id = some row → Yields sameName db user request id row →
      Effect db user request (update db id fun r => { r with developer_status := row.developer_status - 1 }) none
  | deleted {id : Nat} : overrides sameName db user request = some id →
      Effect db user request { db with users := db.users.delete fun i _ => i = id } none
  | placed {id org status : Nat} : requireRole Role.THINGPEDIA_ADMIN user.user = true →
      overrides sameName db user request = some id → status < DeveloperStatus.ORG_ADMIN →
      Effect db user request (update db id fun row => { row with developer_org := some org, developer_status := status })
        (some (.placed user.id id org))

section Effects

variable {sameName : String → String → Bool} {db db' : Db} {user : Session} {entry : Option Entry}

theorem makeDeveloper_some {id org status : Nat} (h : makeDeveloper db id (some org) status = .ok db') :
    db' = update db id fun row => { row with developer_org := some org, developer_status := status } := by
  rw [makeDeveloper] at h
  split at h
  · cases h
  · cases h; rfl

theorem create_ok {hash : String} {org : Nat} (h : create db hash = .ok (org, db')) :
    org = db.organizations.next ∧ db' = { db with organizations := db.organizations.insert hash } := by
  rw [create] at h
  split at h
  · cases h
  · cases h; exact ⟨rfl, rfl⟩

theorem getByCloudId_eq_some {cloudId : String} {id : Nat} {row : UserRow} (h : getByCloudId db cloudId = some (id, row)) :
    db.users.get? id = some row :=
  (Table.first?_eq_some h).1

theorem requireDeveloper_iff {required : Nat} {row : UserRow} :
    requireDeveloper required row = true ↔ ∃ org, row.developer_org = some org ∧ required ≤ row.developer_status := by
  rw [requireDeveloper, decide_eq_true_eq, Option.ne_none_iff_exists']
  exact ⟨fun ⟨⟨org, h⟩, h'⟩ => ⟨org, h, h'⟩, fun ⟨org, h, h'⟩ => ⟨⟨org, h⟩, h'⟩⟩

theorem invitedStatus_le (status : Option Int) : invitedStatus status ≤ DeveloperStatus.ORG_ADMIN := by
  cases status with
  | none => exact Nat.zero_le _
  | some n => exact Nat.min_le_right _ _

theorem addMember_effect {username : String} {status : Option Int}
    (ha : admits user (.addMember username status) = true) (h : addMember sameName db user username status = .ok (db', entry)) :
    Effect sameName db user (.addMember username status) db' entry := by
  obtain ⟨org, ho, hst⟩ := requireDeveloper_iff.mp ha
  rw [addMember] at h
  split at h
  · cases h
  · split at h
    · cases h
    · split at h
      · cases h
      · rw [ho] at h
        dsimp only at h
        split at h
        · cases h; exact .same
        · split at h
          · cases h
          · cases h; exact .invited ⟨ho, hst⟩ (invitedStatus_le status)

theorem acceptInvitation_effect {hash : String} (h : acceptInvitation db user hash = .ok (db', entry)) :
    Effect sameName db user (.acceptInvitation hash) db' entry := by
  rw [acceptInvitation] at h
  split at h
  · cases h
  · rename_i ho
    split at h
    · cases h
    · split at h
      · cases h
      · rename_i org _ _ _ inv hinv
        have hp := List.find?_some hinv
        obtain ⟨hu, horg⟩ := of_decide_eq_true hp
        cases hd : makeDeveloper db user.id (some org) inv.developer_status with
        | error e => rw [hd] at h; cases h
        | ok db'' =>
          rw [hd] at h
          cases h
          rw [makeDeveloper_some hd, ← horg]
          exact .joined (Decidable.not_not.mp ho) (List.mem_of_find?_eq_some hinv) hu

theorem rescind_effect {userId : String} (h : rescind db user userId = .ok (db', entry)) :
    Effect sameName db user (.rescind userId) db' entry := by
  rw [rescind] at h
  split at h
  · cases h
  · split at h
    · cases h; exact .same
    · cases h; exact .rescinded

theorem removeMember_effect {userId : String} (ha : admits user (.removeMember userId) = true)
    (h : removeMember db user userId = .ok (db', entry)) : Effect sameName db user (.removeMember userId) db' entry := by
  obtain ⟨org, ho, hst⟩ := requireDeveloper_iff.mp ha
  rw [removeMember] at h
  split at h
  · cases h
  · rename_i id row hr
    split at h
    · cases h
    · rename_i hne
      split at h
      · cases h
      · rename_i hsame
        cases h
        exact .left (getByCloudId_eq_some hr) (Or.inl ⟨org, ⟨ho, hst⟩, (Decidable.not_not.mp hsame).trans ho, hne⟩)

theorem promote_effect {userId : String} (ha : admits user (.promote userId) = true)
    (h : promote db user userId = .ok (db', entry)) : Effect sameName db user (.promote userId) db' entry := by
  obtain ⟨org, ho, hst⟩ := requireDeveloper_iff.mp ha
  rw [promote] at h
  split at h
  · cases h
  · rename_i id row hr
    split at h
    · cases h
    · rename_i hsame
      have horg : row.developer_org = some org := (Decidable.not_not.mp hsame).trans ho
      split at h
      · cases h; exact .same
      · rename_i hlt
        rw [horg] at h
        cases h
        exact .promoted (getByCloudId_eq_some hr) ⟨ho, hst⟩ horg (Nat.lt_of_not_le hlt)

theorem demote_effect {userId : String} (ha : admits user (.demote userId) = true)
    (h : demote db user userId = .ok (db', entry)) : Effect sameName db user (.demote userId) db' entry := by
  obtain ⟨org, ho, hst⟩ := requireDeveloper_iff.mp ha
  rw [demote] at h
  split at h
  · cases h
  · rename_i id row hr
    split at h
    · cases h
    · rename_i hne
      split at h
      · cases h
      · rename_i hsame
        split at h
        · cases h; exact .same
        · cases h
          exact .demoted (getByCloudId_eq_some hr) (Or.inl ⟨org, ⟨ho, hst⟩, (Decidable.not_not.mp hsame).trans ho, hne⟩)

/-- A new organization and its first administrator. -/
theorem found_effect {request : Request} {id : Nat} {hash : String} (hby : id = user.id ∧ user.user.developer_org = none ∨
      requireRole Role.ADMIN user.user = true ∧ ∃ row, db.users.get? id = some row ∧ row.developer_org = none)
    (h : (do let (org, db) ← create db hash
             let db ← makeDeveloper db id (some org)
             .ok (db, some (.founded user.id id org)) : Outcome) = .ok (db', entry)) :
    Effect sameName db user request db' entry := by
  cases hc : create db hash with
  | error e => rw [hc] at h; cases h
  | ok r =>
    obtain ⟨org, db₁⟩ := r
    obtain ⟨rfl, rfl⟩ := create_ok hc
    rw [hc] at h
    dsimp only [bind, Except.bind] at h
    split at h
    · cases h
    · rename_i db₂ hd
      cases h
      rw [makeDeveloper_some hd]
      exact .founded hby

theorem adminPromote_effect {id : Nat} {hash : String} (ha : admits user (.adminPromote id hash) = true)
    (h : adminPromote db user id hash = .ok (db', entry)) : Effect sameName db user (.adminPromote id hash) db' entry := by
  rw [adminPromote] at h
  split at h
  · cases h
  · rename_i row hr
    split at h
    · cases h; exact .same
    · rename_i hlt
      split at h
      · rename_i ho
        exact found_effect (Or.inr ⟨ha, row, hr, ho⟩) h
      · rename_i org ho
        cases h
        exact .raised hr ha ho (Nat.lt_of_not_le hlt)

theorem adminDemote_effect {id : Nat} (h : adminDemote db id = .ok (db', entry)) :
    Effect sameName db user (.adminDemote id) db' entry := by
  rw [adminDemote] at h
  split at h
  · cases h
  · rename_i row hr
    split at h
    · cases h; exact .same
    · cases h; exact .demoted hr (Or.inr rfl)

theorem adminRevokeDeveloper_effect {id : Nat} (h : adminRevokeDeveloper db id = .ok (db', entry)) :
    Effect sameName db user (.adminRevokeDeveloper id) db' entry := by
  rw [adminRevokeDeveloper] at h
  split at h
  · cases h
  · rename_i row hr
    cases h
    exact .left hr (Or.inr rfl)

theorem adminAddMember_effect {org : Nat} {asDeveloper : Bool} {username : String}
    (ha : admits user (.adminAddMember org asDeveloper username) = true)
    (h : adminAddMember sameName db user org asDeveloper username = .ok (db', entry)) :
    Effect sameName db user (.adminAddMember org asDeveloper username) db' entry := by
  rw [adminAddMember] at h
  split at h
  · cases h
  · rename_i id row hr
    split at h
    · cases h
    · dsimp only [bind, Except.bind] at h
      split at h
      · cases h
      · rename_i db₂ hd
        cases h
        rw [makeDeveloper_some hd]
        refine .placed ha ?_ ?_
        · rw [overrides, hr]; rfl
        · cases asDeveloper <;> decide

/-- What a transaction that commits does. -/
theorem transaction_effect {request : Request} (ha : admits user request = true)
    (h : transaction sameName db user request = .ok (db', entry)) : Effect sameName db user request db' entry := by
  cases request with
  | addMember username status => exact addMember_effect ha h
  | acceptInvitation hash => exact acceptInvitation_effect h
  | rescind userId => exact rescind_effect h
  | removeMember userId => exact removeMember_effect ha h
  | promote userId => exact promote_effect ha h
  | demote userId => exact demote_effect ha h
  | requestDeveloper hash => exact found_effect (Or.inl ⟨rfl, of_decide_eq_true ha⟩) h
  | deleteAccount => cases h; exact .deleted rfl
  | adminPromote id hash => exact adminPromote_effect ha h
  | adminDemote id => exact adminDemote_effect h
  | adminRevokeDeveloper id => exact adminRevokeDeveloper_effect h
  | adminDelete id => cases h; exact .deleted rfl
  | adminAddMember org asDeveloper username => exact adminAddMember_effect ha h

end Effects

/-! ## How members are linked -/

def HasRole (start : Db) (role id : Nat) : Prop := ∃ row, start.users.get? id = some row ∧ requireRole role row = true

/-- An administrator of an organization: one of its first, its founder, or invited as one or
    promoted by an administrator. -/
inductive Admin (start : Db) (log : List Entry) (org : Nat) : Nat → Prop
  | initial {id : Nat} {row : UserRow} : start.users.get? id = some row → Heads row org → Admin start log org id
  | founded {source id : Nat} : .founded source id org ∈ log → source = id ∨ HasRole start Role.ADMIN source →
      Admin start log org id
  | invited {source id : Nat} : .invited source id org DeveloperStatus.ORG_ADMIN ∈ log → Admin start log org source →
      Admin start log org id
  | promoted {source id : Nat} : .promoted source id org ∈ log → Admin start log org source → Admin start log org id
  | raised {source id : Nat} : .raised source id org ∈ log → HasRole start Role.ADMIN source → Admin start log org id

inductive Member (start : Db) (log : List Entry) (org : Nat) : Nat → Prop
  | initial {id : Nat} {row : UserRow} : start.users.get? id = some row → row.developer_org = some org → Member start log org id
  | founded {source id : Nat} : .founded source id org ∈ log → source = id ∨ HasRole start Role.ADMIN source →
      Member start log org id
  | invited {source id status : Nat} : .invited source id org status ∈ log → Admin start log org source →
      Member start log org id
  | placed {source id : Nat} : .placed source id org ∈ log → HasRole start Role.THINGPEDIA_ADMIN source →
      Member start log org id

/-- What a row, or what a session loaded of one, says is linked. -/
structure Linked (start : Db) (log : List Entry) (id : Nat) (row : UserRow) : Prop where
  roles : row.roles = 0 ∨ ∃ r, start.users.get? id = some r ∧ r.roles = row.roles
  member : ∀ org, row.developer_org = some org → Member start log org id
  admin : ∀ org, Heads row org → Admin start log org id

/-- An administrator issued the invitation. -/
def Issued (start : Db) (log : List Entry) (inv : InvitationRow) : Prop :=
  inv.developer_status ≤ DeveloperStatus.ORG_ADMIN ∧
    ∃ source, .invited source inv.user_id inv.org_id inv.developer_status ∈ log ∧ Admin start log inv.org_id source

structure LinkedDb (start : Db) (log : List Entry) (db : Db) : Prop where
  users : ∀ id row, db.users.get? id = some row → Linked start log id row
  invitations : ∀ inv ∈ db.org_invitations, Issued start log inv

structure Inv (start : Db) (s : State) : Prop where
  db : LinkedDb start s.log s.db
  pending : ∀ p ∈ s.pending, Linked start s.log p.1.id p.1.user ∧ admits p.1 p.2 = true

section Linked

variable {sameName : String → String → Bool} {start db db' : Db} {log log' : List Entry} {s t : State}

theorem Admin.mono (hl : log ⊆ log') {org id : Nat} (h : Admin start log org id) : Admin start log' org id := by
  induction h with
  | initial hr hh => exact .initial hr hh
  | founded he hs => exact .founded (hl he) hs
  | invited he _ ih => exact .invited (hl he) ih
  | promoted he _ ih => exact .promoted (hl he) ih
  | raised he hs => exact .raised (hl he) hs

theorem Member.mono (hl : log ⊆ log') {org id : Nat} (h : Member start log org id) : Member start log' org id := by
  cases h with
  | initial hr hh => exact .initial hr hh
  | founded he hs => exact .founded (hl he) hs
  | invited he ha => exact .invited (hl he) (ha.mono hl)
  | placed he hs => exact .placed (hl he) hs

theorem Linked.mono (hl : log ⊆ log') {id : Nat} {row : UserRow} (h : Linked start log id row) : Linked start log' id row :=
  ⟨h.roles, fun org ho => (h.member org ho).mono hl, fun org hh => (h.admin org hh).mono hl⟩

/-- A session with a role is one of a user who had it at the start. -/
theorem Linked.hasRole {id role : Nat} {row : UserRow} (h : Linked start log id row) (hr : requireRole role row = true)
    (h0 : role ≠ 0) : HasRole start role id := by
  have hr' := of_decide_eq_true hr
  rcases h.roles with h | ⟨r, hget, h⟩
  · rw [h, Nat.zero_and] at hr'
    exact absurd hr'.symm h0
  · exact ⟨r, hget, by rw [requireRole, h]; exact hr⟩

@[simp] theorem get?_users_update (db : Db) (id : Nat) (f : UserRow → UserRow) (i : Nat) :
    (update db id f).users.get? i = (db.users.get? i).map fun row => if i = id then f row else row := by
  rw [update, Table.get?_update]
  simp only [decide_eq_true_eq]

/-- One row changes. -/
theorem linked_update {id : Nat} {f : UserRow → UserRow} (h : ∀ i row, db.users.get? i = some row → Linked start log i row)
    (hf : ∀ row, db.users.get? id = some row → Linked start log id (f row)) (i : Nat) (row : UserRow)
    (hr : (update db id f).users.get? i = some row) : Linked start log i row := by
  rw [get?_users_update, Option.map_eq_some_iff] at hr
  obtain ⟨old, hold, rfl⟩ := hr
  split
  · rename_i hi
    subst hi
    exact hf old hold
  · exact h i old hold

theorem LinkedDb.mono (hl : log ⊆ log') (h : LinkedDb start log db) : LinkedDb start log' db := by
  refine ⟨fun id row hr => (h.users id row hr).mono hl, fun inv hinv => ?_⟩
  obtain ⟨hle, source, he, ha⟩ := h.invitations inv hinv
  exact ⟨hle, source, hl he, ha.mono hl⟩

theorem LinkedDb.update (h : LinkedDb start log db) {id : Nat} {f : UserRow → UserRow}
    (hf : ∀ row, db.users.get? id = some row → Linked start log id row → Linked start log id (f row)) :
    LinkedDb start log (update db id f) :=
  ⟨linked_update h.users fun row hr => hf row hr (h.users id row hr), h.invitations⟩

theorem Heads.not_lt {row : UserRow} {org : Nat} (h : Heads row org) :
    ¬ row.developer_status < DeveloperStatus.ORG_ADMIN :=
  Nat.not_lt_of_le h.2

/-- The invited becomes what the invitation says. -/
theorem Issued.linked {inv : InvitationRow} (hi : Issued start log inv) {row : UserRow} (hrow : Linked start log inv.user_id row) :
    Linked start log inv.user_id { row with developer_org := some inv.org_id, developer_status := inv.developer_status } := by
  obtain ⟨hle, source, he, ha⟩ := hi
  refine ⟨hrow.roles, ?_, ?_⟩
  · rintro org horg
    cases horg
    exact .invited he ha
  · rintro org ⟨horg, hst⟩
    cases horg
    obtain hst' : inv.developer_status = DeveloperStatus.ORG_ADMIN := Nat.le_antisymm hle hst
    exact .invited (hst' ▸ he) ha

theorem Linked.outside {id : Nat} {row row' : UserRow} (h : Linked start log id row) (hroles : row'.roles = row.roles)
    (ho : row'.developer_org = none) : Linked start log id row' := by
  refine ⟨hroles ▸ h.roles, fun org h => ?_, fun org h => ?_⟩
  · rw [ho] at h; cases h
  · rw [Heads, ho] at h; cases h.1

/-- A row below an administrator that goes up one. -/
theorem Linked.raise {id org : Nat} {row row' : UserRow} (hrow : Linked start log id row) (hroles : row'.roles = row.roles)
    (ho' : row'.developer_org = row.developer_org) (ho : row.developer_org = some org) (ha : Admin start log org id) :
    Linked start log id row' := by
  refine ⟨hroles ▸ hrow.roles, fun o h => hrow.member o (ho' ▸ h), fun o h => ?_⟩
  have : some org = some o := ho.symm.trans (ho'.symm.trans h.1)
  cases this
  exact ha

theorem Effect.linked {user : Session} {request : Request} {entry : Option Entry}
    (he : Effect sameName db user request db' entry) (hu : Linked start log user.id user.user) (h : LinkedDb start log db) :
    LinkedDb start (log ++ entry.toList) db' := by
  have hl : log ⊆ log ++ entry.toList := List.subset_append_left ..
  have hu := hu.mono hl
  have h := h.mono hl
  cases he with
  | same => exact h
  | invited hh hle =>
    refine ⟨h.users, fun inv hinv => ?_⟩
    rcases List.mem_append.mp hinv with hinv | hinv
    · exact h.invitations inv hinv
    · rw [List.mem_singleton.mp hinv]
      exact ⟨hle, user.id, List.mem_append_right _ (List.mem_singleton.mpr rfl), hu.admin _ hh⟩
  | rescinded => exact ⟨h.users, fun inv hinv => h.invitations inv (List.mem_filter.mp hinv).1⟩
  | @joined inv _ hinv hid =>
    have hup : LinkedDb start _ (update db user.id fun row =>
        { row with developer_org := some inv.org_id, developer_status := inv.developer_status }) :=
      h.update fun row _ hrow => hid ▸ (h.invitations inv hinv).linked (hid ▸ hrow)
    exact ⟨hup.users, fun inv hinv => hup.invitations inv (List.mem_filter.mp hinv).1⟩
  | @founded id hash hby =>
    have hmem : Entry.founded user.id id db.organizations.next ∈ log ++ [.founded user.id id db.organizations.next] :=
      List.mem_append_right _ (List.mem_singleton.mpr rfl)
    have hs : user.id = id ∨ HasRole start Role.ADMIN user.id := by
      rcases hby with ⟨hid, -⟩ | ⟨hr, -⟩
      · exact Or.inl hid.symm
      · exact Or.inr (hu.hasRole hr (by decide))
    have h₁ : LinkedDb start _ { db with organizations := db.organizations.insert hash } := ⟨h.users, h.invitations⟩
    refine h₁.update fun row _ hrow => ⟨hrow.roles, fun org ho => ?_, fun org ho => ?_⟩
    · cases ho; exact .founded hmem hs
    · cases ho.1; exact .founded hmem hs
  | left => exact h.update fun row _ hrow => hrow.outside rfl rfl
  | @promoted id org row hr hh ho =>
    refine h.update fun r hr' hrow => ?_
    rw [hr] at hr'
    cases hr'
    exact hrow.raise rfl rfl ho (.promoted (List.mem_append_right _ (List.mem_singleton.mpr rfl)) (hu.admin _ hh))
  | @raised id org row hr hrole ho =>
    refine h.update fun r hr' hrow => ?_
    rw [hr] at hr'
    cases hr'
    exact hrow.raise rfl rfl ho
      (.raised (List.mem_append_right _ (List.mem_singleton.mpr rfl)) (hu.hasRole hrole (by decide)))
  | @demoted id row hr =>
    refine h.update fun r hr' hrow => ?_
    rw [hr] at hr'
    cases hr'
    exact ⟨hrow.roles, hrow.member, fun org ho => hrow.admin org ⟨ho.1, Nat.le_trans ho.2 (Nat.sub_le _ _)⟩⟩
  | deleted =>
    refine ⟨fun i row hr => h.users i row ?_, h.invitations⟩
    rw [Table.get?_delete, Option.filter_eq_some_iff] at hr
    exact hr.1
  | @placed id org status hrole _ hlt =>
    refine h.update fun r _ hrow => ⟨hrow.roles, fun o ho => ?_, fun o ho => absurd hlt ho.not_lt⟩
    cases ho
    exact .placed (List.mem_append_right _ (List.mem_singleton.mpr rfl)) (hu.hasRole hrole (by decide))

theorem Inv.step (h : Inv start s) (e : Event) (hs : step sameName s e = some t) : Inv start t := by
  cases e with
  | arrive id request =>
    rw [Organizations.step] at hs
    split at hs
    · cases hs
    · rename_i row hr
      split at hs
      · rename_i ha
        cases hs
        refine ⟨h.db, fun p hp => ?_⟩
        rcases List.mem_append.mp hp with hp | hp
        · exact h.pending p hp
        · rw [List.mem_singleton.mp hp]
          exact ⟨h.db.users id row hr, ha⟩
      · cases hs
  | run k =>
    rw [Organizations.step] at hs
    split at hs
    · cases hs
    · rename_i user request hp
      obtain ⟨hu, ha⟩ := h.pending _ (List.mem_of_getElem? hp)
      split at hs
      · cases hs
        exact ⟨h.db, fun p hp => h.pending p (List.mem_of_mem_eraseIdx hp)⟩
      · rename_i db entry ht
        cases hs
        refine ⟨(transaction_effect ha ht).linked hu h.db, fun p hp => ?_⟩
        obtain ⟨hl, ha⟩ := h.pending p (List.mem_of_mem_eraseIdx hp)
        exact ⟨hl.mono (List.subset_append_left ..), ha⟩
  | drop k =>
    cases hs
    exact ⟨h.db, fun p hp => h.pending p (List.mem_of_mem_eraseIdx hp)⟩
  | register username cloudId verified =>
    rw [Organizations.step] at hs
    split at hs
    · cases hs
    · cases hs
      refine ⟨⟨fun i row hr => ?_, h.db.invitations⟩, h.pending⟩
      rw [Table.get?_insert] at hr
      split at hr
      · cases hr
        refine ⟨Or.inl rfl, fun org ho => ?_, fun org ho => ?_⟩
        · cases ho
        · cases ho.1
      · exact h.db.users i row hr
  | edit id username verified =>
    cases hs
    exact ⟨h.db.update fun row _ hrow => ⟨hrow.roles, hrow.member, hrow.admin⟩, h.pending⟩

theorem Inv.init (h : (system sameName).init s) : Inv s.db s := by
  obtain ⟨hp, hl, hi⟩ := h
  refine ⟨⟨fun id row hr => ?_, by rw [hi]; nofun⟩, by rw [hp]; nofun⟩
  exact ⟨Or.inr ⟨row, hr, rfl⟩, fun org ho => .initial hr ho, fun org ho => .initial hr ho⟩

theorem Inv.path (h : Inv start s) (hp : Path (system sameName) any s t) : Inv start t := by
  induction hp with
  | refl => exact h
  | step e _ _ hs ih => exact ih.step e hs

end Linked

theorem member_linked {s t : State} (h0 : (system sameName).init s) (h : Path (system sameName) any s t) {id org : Nat}
    {row : UserRow} (hr : t.db.users.get? id = some row) (ho : row.developer_org = some org) :
    Member s.db t.log org id ∧ (DeveloperStatus.ORG_ADMIN ≤ row.developer_status → Admin s.db t.log org id) := by
  have hl := ((Inv.init h0).path h).db.users id row hr
  exact ⟨hl.member org ho, fun hst => hl.admin org ⟨ho, hst⟩⟩

/-- A table of these rows, with ids from 1 on. -/
def tableOf {ρ : Type} (rows : List ρ) : Table ρ := rows.foldl Table.insert Table.empty

/-- An organization with its administrator, and another user. -/
def siteOf (org : Option Nat) (status : Nat) : State where
  db :=
    { users := tableOf [⟨"root", "r", true, 63, some 1, DeveloperStatus.ORG_ADMIN⟩, ⟨"bob", "b", true, 0, org, status⟩]
      organizations := tableOf ["hash"]
      org_invitations := [] }

def invitation : List Event :=
  [.arrive 1 (.addMember "bob" (some 2)), .run 0, .arrive 2 (.acceptInvitation "hash"), .run 0]

theorem member_linked_invited : ∃ t, run (system (· == ·)) (siteOf none 0) invitation = some t ∧
    Member (siteOf none 0).db t.log 1 2 ∧ Admin (siteOf none 0).db t.log 1 2 := by
  obtain ⟨t, ht⟩ : ∃ t, run (system (· == ·)) (siteOf none 0) invitation = some t := ⟨_, rfl⟩
  have hrow : (run (system (· == ·)) (siteOf none 0) invitation).bind (fun t => t.db.users.get? 2) =
      some ⟨"bob", "b", true, 0, some 1, 2⟩ := rfl
  rw [ht, Option.bind_some] at hrow
  obtain ⟨hm, ha⟩ := member_linked (· == ·) ⟨rfl, rfl, rfl⟩ (run_path ht) hrow rfl
  exact ⟨t, ht, hm, ha (by decide)⟩

/-! ## An organization keeps an administrator -/

def hasAdmin (db : Db) (org : Nat) : Bool := (db.users.first? fun _ row => Heads row org).isSome

/-- The session's row is still as it was, and nobody who is overridden is an administrator. -/
def Kept (s : State) : Event → Prop
  | .run k => ∀ user request, s.pending[k]? = some (user, request) →
    (∃ row, s.db.users.get? user.id = some row ∧ row.developer_org = user.user.developer_org ∧
      row.developer_status = user.user.developer_status) ∧
    ∀ id row, overrides sameName s.db user request = some id → s.db.users.get? id = some row →
      row.developer_status < DeveloperStatus.ORG_ADMIN
  | _ => True

/-- The ids of sessions are not handed out again, and name the same user as long as there
    is one. -/
def Sessions (s : State) : Prop :=
  ∀ p ∈ s.pending, admits p.1 p.2 = true ∧ p.1.id < s.db.users.next ∧
    ∀ row, s.db.users.get? p.1.id = some row → row.cloud_id = p.1.user.cloud_id

section Keeps

variable {sameName : String → String → Bool} {db db' : Db} {s t : State} {org : Nat}

theorem hasAdmin_iff : hasAdmin db org = true ↔ ∃ id row, db.users.get? id = some row ∧ Heads row org := by
  rw [hasAdmin]
  constructor
  · intro h
    obtain ⟨⟨id, row⟩, hf⟩ := Option.isSome_iff_exists.mp h
    obtain ⟨hr, hh⟩ := Table.first?_eq_some hf
    exact ⟨id, row, hr, of_decide_eq_true hh⟩
  · rintro ⟨id, row, hr, hh⟩
    cases hf : db.users.first? fun _ row => Heads row org with
    | some _ => rfl
    | none => exact absurd hh (of_decide_eq_false (Table.first?_eq_none.mp hf id row hr))

/-- No id is new and none has another cloud id. -/
structure Tracked (users users' : Table UserRow) : Prop where
  next : users'.next = users.next
  row : ∀ id row', users'.get? id = some row' → ∃ row, users.get? id = some row ∧ row'.cloud_id = row.cloud_id

theorem Tracked.update {id : Nat} {f : UserRow → UserRow} (hf : ∀ row, (f row).cloud_id = row.cloud_id) :
    Tracked db.users (update db id f).users := by
  refine ⟨rfl, fun i row' hr => ?_⟩
  rw [get?_users_update, Option.map_eq_some_iff] at hr
  obtain ⟨row, hr, rfl⟩ := hr
  refine ⟨row, hr, ?_⟩
  split
  · exact hf row
  · rfl

theorem Effect.tracked {user : Session} {request : Request} {entry : Option Entry}
    (he : Effect sameName db user request db' entry) : Tracked db.users db'.users := by
  cases he with
  | same | invited | rescinded => exact ⟨rfl, fun id row hr => ⟨row, hr, rfl⟩⟩
  | joined =>
    simp only [rescindAllInvitations]
    apply Tracked.update
    intro _
    rfl
  | founded | left | promoted | raised | demoted | placed =>
    apply Tracked.update
    intro _
    rfl
  | deleted =>
    refine ⟨rfl, fun id row hr => ⟨row, ?_, rfl⟩⟩
    rw [Table.get?_delete, Option.filter_eq_some_iff] at hr
    exact hr.1

theorem Sessions.step (h : Sessions s) (e : Event) (hs : step sameName s e = some t) : Sessions t := by
  cases e with
  | arrive id request =>
    rw [Organizations.step] at hs
    split at hs
    · cases hs
    · rename_i row hr
      split at hs
      · rename_i ha
        cases hs
        intro p hp
        rcases List.mem_append.mp hp with hp | hp
        · exact h p hp
        · rw [List.mem_singleton.mp hp]
          refine ⟨ha, Table.lt_next hr, fun row' hr' => ?_⟩
          rw [hr] at hr'
          cases hr'
          rfl
      · cases hs
  | run k =>
    rw [Organizations.step] at hs
    split at hs
    · cases hs
    · rename_i user request hp
      obtain ⟨ha, -, -⟩ := h _ (List.mem_of_getElem? hp)
      split at hs
      · cases hs
        exact fun p hp => h p (List.mem_of_mem_eraseIdx hp)
      · rename_i db entry ht
        cases hs
        intro p hp
        obtain ⟨ha', hlt, hrow⟩ := h p (List.mem_of_mem_eraseIdx hp)
        have htr := (transaction_effect ha ht).tracked
        refine ⟨ha', htr.next ▸ hlt, fun row' hr' => ?_⟩
        obtain ⟨row, hr, hc⟩ := htr.row _ _ hr'
        exact hc.trans (hrow row hr)
  | drop k =>
    cases hs
    exact fun p hp => h p (List.mem_of_mem_eraseIdx hp)
  | register username cloudId verified =>
    rw [Organizations.step] at hs
    split at hs
    · cases hs
    · cases hs
      intro p hp
      obtain ⟨ha, hlt, hrow⟩ := h p hp
      refine ⟨ha, Nat.lt_succ_of_lt hlt, fun row hr => hrow row ?_⟩
      rwa [Table.get?_insert, if_neg (Nat.ne_of_lt hlt)] at hr
  | edit id username verified =>
    cases hs
    intro p hp
    obtain ⟨ha, hlt, hrow⟩ := h p hp
    refine ⟨ha, hlt, fun row' hr' => ?_⟩
    have htr : Tracked s.db.users (update s.db id fun row =>
      { row with username := username, email_verified := verified }).users := Tracked.update fun _ => rfl
    obtain ⟨row, hr, hc⟩ := htr.row _ _ hr'
    exact hc.trans (hrow row hr)

theorem Sessions.reach (h : Reach (system sameName) any s) : Sessions s :=
  h.inv (fun _ h0 p hp => by rw [h0.1] at hp; cases hp) fun _ e _ hP _ hs => hP.step e hs

/-- Every administrator but one keeps its row. -/
theorem hasAdmin_update {a id : Nat} {row : UserRow} {f : UserRow → UserRow} (hr : db.users.get? a = some row) (hh : Heads row org)
    (hne : a ≠ id) : hasAdmin (update db id f) org = true :=
  hasAdmin_iff.mpr ⟨a, row, by rw [get?_users_update, hr, Option.map_some, if_neg hne], hh⟩

theorem Effect.hasAdmin {user : Session} {request : Request} {entry : Option Entry}
    (he : Effect sameName db user request db' entry) {urow : UserRow} (hu : db.users.get? user.id = some urow)
    (huo : urow.developer_org = user.user.developer_org) (hus : urow.developer_status = user.user.developer_status)
    (huc : urow.cloud_id = user.user.cloud_id)
    (hover : ∀ id row, overrides sameName db user request = some id → db.users.get? id = some row →
      row.developer_status < DeveloperStatus.ORG_ADMIN)
    (h : hasAdmin db org = true) : hasAdmin db' org = true := by
  obtain ⟨a, arow, ha, hh⟩ := hasAdmin_iff.mp h
  -- who yields to another administrator of the organization leaves that one
  have hyield : ∀ {id row f}, db.users.get? id = some row → Yields sameName db user request id row →
      Organizations.hasAdmin (update db id f) org = true := by
    intro id row f hr hy
    by_cases hid : a = id
    · subst hid
      rw [ha] at hr
      cases hr
      rcases hy with ⟨o, ho, hro, hc⟩ | hy
      · obtain rfl : org = o := Option.some.inj (hh.1.symm.trans hro)
        refine hasAdmin_update hu ⟨huo.trans ho.1, hus ▸ ho.2⟩ fun heq => hc ?_
        rw [heq, ha] at hu
        cases hu
        exact huc
      · exact absurd (hover a arow hy ha) hh.not_lt
    · exact hasAdmin_update ha hh hid
  cases he with
  | same | invited | rescinded => exact h
  | joined hnone =>
    refine @hasAdmin_update db org a user.id arow _ ha hh fun heq => ?_
    rw [heq, hu] at ha
    cases ha
    cases hh.1.symm.trans (huo.trans hnone)
  | @founded id hash hby =>
    refine @hasAdmin_update { db with organizations := db.organizations.insert hash } org a id arow _ ha hh fun heq => ?_
    subst heq
    rcases hby with ⟨rfl, hnone⟩ | ⟨-, row, hr, hnone⟩
    · rw [hu] at ha
      cases ha
      cases hh.1.symm.trans (huo.trans hnone)
    · rw [hr] at ha
      cases ha
      cases hh.1.symm.trans hnone
  | left hr hy => exact hyield hr hy
  | demoted hr hy => exact hyield hr hy
  | promoted hr _ _ hlt | raised hr _ _ hlt =>
    refine hasAdmin_update ha hh fun heq => ?_
    rw [heq, hr] at ha
    cases ha
    exact hh.not_lt hlt
  | @deleted id ho =>
    refine hasAdmin_iff.mpr ⟨a, arow, ?_, hh⟩
    rw [Table.get?_delete, ha, Option.filter_some, if_pos]
    rw [Bool.not_eq_true', decide_eq_false_iff_not]
    rintro rfl
    exact hh.not_lt (hover a arow ho ha)
  | placed _ ho =>
    refine hasAdmin_update ha hh fun heq => ?_
    subst heq
    exact hh.not_lt (hover a arow ho ha)

theorem step_keeps_admin (hse : Sessions s) (e : Event) (hk : Kept sameName s e) (hs : step sameName s e = some t)
    (h : hasAdmin s.db org = true) : hasAdmin t.db org = true := by
  cases e with
  | arrive id request =>
    rw [step] at hs
    split at hs
    · cases hs
    · split at hs
      · cases hs; exact h
      · cases hs
  | run k =>
    rw [step] at hs
    split at hs
    · cases hs
    · rename_i user request hp
      obtain ⟨⟨urow, hu, huo, hus⟩, hover⟩ := hk user request hp
      obtain ⟨ha, -, hc⟩ := hse _ (List.mem_of_getElem? hp)
      split at hs
      · cases hs; exact h
      · rename_i db entry ht
        cases hs
        exact (transaction_effect ha ht).hasAdmin hu huo hus (hc urow hu) hover h
  | drop k => cases hs; exact h
  | register username cloudId verified =>
    rw [step] at hs
    split at hs
    · cases hs
    · cases hs
      obtain ⟨a, row, hr, hh⟩ := hasAdmin_iff.mp h
      exact hasAdmin_iff.mpr ⟨a, row, by rw [Table.get?_insert, if_neg (Nat.ne_of_lt (Table.lt_next hr)), hr], hh⟩
  | edit id username verified =>
    cases hs
    obtain ⟨a, row, hr, hh⟩ := hasAdmin_iff.mp h
    refine hasAdmin_iff.mpr ⟨a, _, by rw [get?_users_update, hr]; rfl, ?_⟩
    split <;> exact hh

end Keeps

theorem keeps_admin {s t : State} {org : Nat} (h : Reach (system sameName) any s) (hp : Path (system sameName) (Kept sameName) s t)
    (ha : hasAdmin s.db org = true) : hasAdmin t.db org = true := by
  have hboth : Sessions t ∧ hasAdmin t.db org = true := by
    induction hp with
    | refl => exact ⟨.reach h, ha⟩
    | step e _ hk hs ih => exact ⟨ih.1.step e hs, step_keeps_admin ih.1 e hk hs ih.2⟩
  exact hboth.2

theorem keeps_admin_demoted : ∃ t, run (system (· == ·)) (siteOf (some 1) 2) [.arrive 1 (.demote "b"), .run 0] = some t ∧
    hasAdmin t.db 1 = true := by
  have h0 : Reach (system (· == ·)) any (siteOf (some 1) 2) := .init ⟨rfl, rfl, rfl⟩
  refine ⟨_, rfl, keeps_admin (· == ·) h0 (.step (.run 0) (.step (.arrive 1 (.demote "b")) .refl trivial rfl) ?_ rfl) rfl⟩
  intro user request hp
  cases hp
  exact ⟨⟨_, rfl, rfl, rfl⟩, fun id row ho => by cases ho⟩

/-- Each was let in as an administrator. -/
theorem last_admins_demoted : ∃ t, run (system (· == ·)) (siteOf (some 1) 2)
      [.arrive 1 (.demote "b"), .arrive 2 (.demote "r"), .run 0, .run 0] = some t ∧
    hasAdmin (siteOf (some 1) 2).db 1 = true ∧ hasAdmin t.db 1 = false :=
  ⟨_, rfl, rfl, rfl⟩

end GenieCloud.Routes.Organizations
