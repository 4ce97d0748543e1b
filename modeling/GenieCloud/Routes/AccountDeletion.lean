/-
  GenieCloud.Routes.AccountDeletion — the two routes that delete an account: the user's own
  (`/delete` of `routes/user.ts`) and the administrator's (`/users/delete/:id` of
  `routes/admin.ts`).

  A route runs a transaction. In it the manager of the user's engine, another process,
  kills the engine and removes its directory; then the rows go. The database can answer
  any query with an error, the channel to the manager can break before or after the
  manager does its part, and the removal can fail.

  - `counted_deleteLikes`, `counted_removeUser`: the `like_count` of every example stays
    the number of its likes.
  - What the manager removes is not rolled back. `deletion_atomic_iff`: a request deletes
    all of the account, or fails and leaves its row and its directory, exactly when no
    step fails after the directory is gone (`Kept`). The foreign keys on users make the
    last statement fail for a user with a blog post or an Alexa model, and on the
    administrator's route, which leaves the likes where they are, with a like.
-/

import GenieCloud.Lib.Table
import Mathlib.Logic.Function.Basic

namespace GenieCloud.Routes.AccountDeletion

open GenieCloud.Lib

/-! ## The database -/

structure UserRow where
  cloud_id : String
  developer_org : Option Nat
deriving DecidableEq

structure ExampleRow where
  like_count : Int
  owner : Option Nat
deriving DecidableEq

/-- The tables with a reference to `users`, and the columns that refer to it: likes by
    example and user, the authors of blog posts, the anonymous users of Alexa models, and
    the cloud ids of OAuth permissions. -/
structure Db where
  users : Table UserRow
  example_utterances : Table ExampleRow
  example_likes : List (Nat × Nat)
  blog_posts : List Nat
  alexa_models : List (Option Nat)
  oauth2_permissions : List String
  likes_key : example_likes.Nodup
  likes_user : ∀ like ∈ example_likes, (users.get? like.2).isSome
  posts_author : ∀ author ∈ blog_posts, (users.get? author).isSome
  models_user : ∀ id, some id ∈ alexa_models → (users.get? id).isSome

/-- A like, a blog post or an Alexa model refers to the user (`on delete restrict`). -/
def restricted (db : Db) (id : Nat) : Bool :=
  db.example_likes.any (·.2 = id) || db.blog_posts.contains id || db.alexa_models.contains (some id)

def decrementLikes (db : Db) (userId : Nat) : Db :=
  let liked exampleId (_ : ExampleRow) := db.example_likes.contains (exampleId, userId)
  { db with
    example_utterances := db.example_utterances.update liked fun row => { row with like_count := row.like_count - 1 } }

def removeLikes (db : Db) (userId : Nat) : Db :=
  { db with
    example_likes := db.example_likes.filter (·.2 ≠ userId)
    likes_key := db.likes_key.filter _
    likes_user := fun like h => db.likes_user like (List.mem_filter.mp h).1 }

theorem get?_removed {db : Db} {id id' : Nat} (hne : id' ≠ id) :
    (db.users.delete fun i _ => i = id).get? id' = db.users.get? id' := by
  rw [Table.get?_delete]
  cases db.users.get? id' <;> simp [hne]

/-- Examples lose the owner (`set null`) and permissions go along (`cascade`). -/
def removeUser (db : Db) (id : Nat) (h : restricted db id = false) : Db :=
  { db with
    users := db.users.delete fun i _ => i = id
    example_utterances :=
      db.example_utterances.update (fun _ row => row.owner = some id) fun row => { row with owner := none }
    oauth2_permissions := db.oauth2_permissions.filter fun cloudId => some cloudId ≠ (db.users.get? id).map (·.cloud_id)
    likes_user := by
      intro like hlike
      have hne : like.2 ≠ id := by
        rintro rfl
        simp only [restricted, Bool.or_eq_false_iff, List.any_eq_false] at h
        exact absurd (decide_eq_true rfl) (h.1.1 like hlike)
      rw [get?_removed hne]
      exact db.likes_user like hlike
    posts_author := by
      intro author hauthor
      have hne : author ≠ id := by
        rintro rfl
        simp [restricted, hauthor] at h
      rw [get?_removed hne]
      exact db.posts_author author hauthor
    models_user := by
      intro user huser
      have hne : user ≠ id := by
        rintro rfl
        simp [restricted, huser] at h
      rw [get?_removed hne]
      exact db.models_user user huser }

/-! ## The world -/

/-- An engine of the manager; its process is null while it starts. -/
structure Engine where
  cloudId : String
  process : Bool
deriving DecidableEq

/-- The engines by user, and what is in their directories. -/
structure Manager (F : Type) where
  engines : Nat → Option Engine
  dirs : String → Option F

structure World (F : Type) where
  db : Db
  manager : Manager F

/-- A call over the control channel breaks before it gets to the manager or on the way
    back. -/
inductive Call
  | answered
  | lost (err : String)
  | unanswered (err : String)
deriving DecidableEq

/-- How everything else behaves: the pool, each query of the transaction, the control
    channel, the manager's own query and its `rm -rf`, which may fail and leave a part. -/
structure Env (F : Type) where
  connect : Option String
  query : String → Option String
  control : Bool
  call : Call
  getUser : Option String
  rm : Option (String × (F → Option F))

variable {F : Type}

/-- A promise: how it settles and the world then. -/
abbrev Step (F : Type) := World F → Except String Unit × World F

def Step.andThen (x y : Step F) : Step F := fun w =>
  match x w with
  | (.ok (), w') => y w'
  | (.error err, w') => (.error err, w')

def query (env : Env F) (string : String) (run : Db → Except String Db) : Step F := fun w =>
  match env.query string with
  | some err => (.error err, w)
  | none =>
    match run w.db with
    | .error err => (.error err, w)
    | .ok db => (.ok (), { w with db := db })

/-- Nothing of the database stays of a transaction that fails. -/
def withTransaction (env : Env F) (body : Step F) : Step F := fun w =>
  match env.connect with
  | some err => (.error err, w)
  | none =>
    match (Step.andThen (query env "set transaction isolation level serializable" .ok)
      (.andThen (query env "start transaction read write" .ok) (.andThen body (query env "commit" .ok)))) w with
    | (.ok (), w') => (.ok (), w')
    | (.error err, w') => (.error err, { w' with db := w.db })

/-! ## The manager -/

def killUserLocked (m : Manager F) (userId : Nat) : Manager F :=
  match m.engines userId with
  | none => m
  | some obj => if obj.process then { m with engines := Function.update m.engines userId none } else m

def getUserCloudIdForPath (env : Env F) (db : Db) (m : Manager F) (userId : Nat) : Except String String × Manager F :=
  match m.engines userId with
  | some obj => (.ok obj.cloudId, killUserLocked m userId)
  | none =>
    match env.getUser, db.users.get? userId with
    | some err, _ => (.error err, m)
    | none, none => (.error "Not Found", m)
    | none, some user => (.ok user.cloud_id, m)

def rm (env : Env F) (m : Manager F) (dir : String) : Except String Unit × Manager F :=
  match env.rm with
  | none => (.ok (), { m with dirs := Function.update m.dirs dir none })
  | some (err, left) => (.error err, { m with dirs := Function.update m.dirs dir ((m.dirs dir).bind left) })

def Manager.deleteUser (env : Env F) (db : Db) (m : Manager F) (userId : Nat) : Except String Unit × Manager F :=
  match getUserCloudIdForPath env db (killUserLocked m userId) userId with
  | (.error err, m') => (.error err, m')
  | (.ok cloudId, m') => rm env m' cloudId

/-- `EngineManager.get().deleteUser`, by the client of the manager. -/
def deleteUser (env : Env F) (userId : Nat) : Step F := fun w =>
  let (result, manager) := w.manager.deleteUser env w.db userId
  if env.control then
    match env.call with
    | .lost err => (.error err, w)
    | .answered => (result, { w with manager := manager })
    | .unanswered err => (.error err, { w with manager := manager })
  else (.error "EngineManager died", w)

/-! ## The routes -/

def decrementSql : String :=
  "update example_utterances set like_count = like_count - 1 where " ++
    "exists (select 1 from example_likes where user_id = ? and example_id = id)"

def deleteAllLikesFromUser (env : Env F) (userId : Nat) : Step F :=
  .andThen (query env decrementSql fun db => .ok (decrementLikes db userId))
    (query env "delete from example_likes where user_id = ?" fun db => .ok (removeLikes db userId))

def deleteRow (id : Nat) (db : Db) : Except String Db :=
  if h : restricted db id = false then .ok (removeUser db id h) else .error "ER_ROW_IS_REFERENCED_2"

/-- The `delete` of `model/user.ts`. -/
def delete (env : Env F) (id : Nat) : Step F := query env "delete from users where id = ?" (deleteRow id)

/-- The user's own route, and the administrator's. -/
inductive Route
  | self
  | admin (adminId : Nat)
deriving DecidableEq

def postDelete (env : Env F) (userId : Nat) : Step F :=
  withTransaction env (.andThen (deleteUser env userId) (.andThen (deleteAllLikesFromUser env userId) (delete env userId)))

def postUsersDelete (env : Env F) (adminId id : Nat) : Step F := fun w =>
  if adminId = id then (.error "You cannot delete yourself", w)
  else withTransaction env (.andThen (deleteUser env id) (delete env id)) w

def request : Route → Env F → (id : Nat) → Step F
  | .self, env, id => postDelete env id
  | .admin adminId, env, id => postUsersDelete env adminId id

/-! ## What is asked -/

def LikesCounted (db : Db) : Prop :=
  ∀ exampleId row, db.example_utterances.get? exampleId = some row →
    row.like_count = db.example_likes.countP (·.1 = exampleId)

/-- A user of a world: an engine runs under the user's cloud id. -/
structure Account (F : Type) extends World F where
  id : Nat
  row : UserRow
  has_row : db.users.get? id = some row
  has_cloudId : ∀ obj, manager.engines id = some obj → obj.cloudId = row.cloud_id

/-- Row, likes and directory are gone, or the request failed and left row and directory
    as they were. -/
def AllOrNothing (a : Account F) : Except String Unit × World F → Prop
  | (.ok (), w) => w.db.users.get? a.id = none ∧ (∀ like ∈ w.db.example_likes, like.2 ≠ a.id) ∧
      w.manager.dirs a.row.cloud_id = none
  | (.error _, w) => w.db.users.get? a.id = some a.row ∧
      w.manager.dirs a.row.cloud_id = a.manager.dirs a.row.cloud_id

/-- The manager finds the cloud id: it is at hand while the engine starts, and read from
    the database otherwise. -/
def Finds (env : Env F) (a : Account F) : Prop :=
  (∃ obj, a.manager.engines a.id = some obj ∧ obj.process = false) ∨ env.getUser = none

def startStatements : List String := ["set transaction isolation level serializable", "start transaction read write"]

def deleteStatements : List String := ["delete from users where id = ?", "commit"]

/-- The request gets as far as the removal of the directory. -/
structure Removes (route : Route) (env : Env F) (a : Account F) : Prop where
  other : ∀ adminId, route = .admin adminId → adminId ≠ a.id
  connects : env.connect = none
  starts : ∀ sql ∈ startStatements, env.query sql = none
  calls : env.control = true ∧ ∀ err, env.call ≠ .lost err
  finds : Finds env a

def Route.statements : Route → List String
  | .self => [decrementSql, "delete from example_likes where user_id = ?"] ++ deleteStatements
  | .admin _ => deleteStatements

/-- What still refers to the user when the route deletes the row. -/
def Route.refers : Route → Db → (id : Nat) → Bool
  | .self, db, id => db.blog_posts.contains id || db.alexa_models.contains (some id)
  | .admin _, db, id => restricted db id

/-- Nothing fails after the removal of the directory. -/
def Completes (route : Route) (env : Env F) (a : Account F) : Prop :=
  env.call = .answered ∧ (∀ sql ∈ route.statements, env.query sql = none) ∧ route.refers a.db a.id = false

/-- If it comes to the removal, this fails and leaves everything, or there is nothing to
    remove, or nothing fails after it. -/
def Kept (route : Route) (env : Env F) (a : Account F) : Prop :=
  Removes route env a →
    match env.rm with
    | some (_, left) => (a.manager.dirs a.row.cloud_id).bind left = a.manager.dirs a.row.cloud_id
    | none => a.manager.dirs a.row.cloud_id = none ∨ Completes route env a

/-! ## Likes -/

variable {env : Env F} {db : Db} {id userId : Nat} {route : Route}

/-- The likes of an example are those of the user, at most one, and the others. -/
theorem countP_removeLikes (db : Db) (userId exampleId : Nat) :
    db.example_likes.countP (·.1 = exampleId) = (removeLikes db userId).example_likes.countP (·.1 = exampleId) +
      if (exampleId, userId) ∈ db.example_likes then 1 else 0 := by
  have hsplit := List.countP_eq_countP_filter_add db.example_likes (fun like => decide (like.1 = exampleId))
    (fun like => decide (like.2 ≠ userId))
  have hcount : (db.example_likes.filter fun like => !decide (like.2 ≠ userId)).countP
      (fun like => decide (like.1 = exampleId)) = db.example_likes.count (exampleId, userId) := by
    rw [List.countP_filter]
    apply List.countP_congr
    intro like _
    simp [Prod.ext_iff]
  rw [hsplit, hcount, db.likes_key.count]
  rfl

theorem counted_deleteLikes (h : LikesCounted db) (userId : Nat) :
    LikesCounted (removeLikes (decrementLikes db userId) userId) := by
  intro exampleId row hrow
  have hrow' : (db.example_utterances.update (fun exampleId _ => db.example_likes.contains (exampleId, userId))
      fun row => { row with like_count := row.like_count - 1 }).get? exampleId = some row := hrow
  rw [Table.get?_update] at hrow'
  obtain ⟨old, hold, rfl⟩ := Option.map_eq_some_iff.mp hrow'
  have hcount := h exampleId old hold
  have hsplit := countP_removeLikes db userId exampleId
  show (if _ then _ else old : ExampleRow).like_count = ((removeLikes db userId).example_likes.countP _ : Nat)
  by_cases hmem : (exampleId, userId) ∈ db.example_likes
  · rw [if_pos hmem] at hsplit
    rw [if_pos (by simpa using hmem)]
    show old.like_count - 1 = _
    omega
  · rw [if_neg hmem] at hsplit
    rw [if_neg (by simpa using hmem)]
    omega

theorem counted_removeUser (h : LikesCounted db) (hr : restricted db id = false) :
    LikesCounted (removeUser db id hr) := by
  intro exampleId row hrow
  have hrow' : (db.example_utterances.update (fun _ row => row.owner = some id)
      fun row => { row with owner := none }).get? exampleId = some row := hrow
  rw [Table.get?_update] at hrow'
  obtain ⟨old, hold, rfl⟩ := Option.map_eq_some_iff.mp hrow'
  have hcount := h exampleId old hold
  split
  · exact hcount
  · exact hcount

/-- The rows that the route deletes before the user's. -/
def cleaned : Route → Db → (id : Nat) → Db
  | .self, db, id => removeLikes (decrementLikes db id) id
  | .admin _, db, _ => db

theorem restricted_cleaned (route : Route) (db : Db) (id : Nat) :
    restricted (cleaned route db id) id = route.refers db id := by
  cases route with
  | admin adminId => rfl
  | self =>
    have : (cleaned .self db id).example_likes.any (fun like => decide (like.2 = id)) = false := by
      simp [cleaned, removeLikes]
    unfold restricted
    rw [this]
    rfl

theorem cleaned_counted (h : LikesCounted db) (route : Route) (id : Nat) : LikesCounted (cleaned route db id) := by
  cases route with
  | admin adminId => exact h
  | self => exact counted_deleteLikes h id

/-- Without references nothing of the user is left. -/
theorem removeUser_spec (hr : restricted db id = false) :
    (removeUser db id hr).users.get? id = none ∧ ∀ like ∈ (removeUser db id hr).example_likes, like.2 ≠ id := by
  constructor
  · show (db.users.delete _).get? id = none
    rw [Table.get?_delete]
    cases db.users.get? id <;> simp
  · intro like hlike heq
    simp only [restricted, Bool.or_eq_false_iff, List.any_eq_false] at hr
    exact absurd (decide_eq_true heq) (hr.1.1 like hlike)

/-! ## The steps of a request -/

variable {w w' : World F}

theorem andThen_ok {x y : Step F} (h : x w = (.ok (), w')) : x.andThen y w = y w' := by
  rw [Step.andThen, h]

theorem andThen_error {x y : Step F} {err : String} (h : x w = (.error err, w')) : x.andThen y w = (.error err, w') := by
  rw [Step.andThen, h]

theorem query_ok {string : String} {run : Db → Except String Db} (h : env.query string = none)
    (hrun : run w.db = .ok db) : query env string run w = (.ok (), { w with db := db }) := by
  simp only [query, h, hrun]

theorem query_plain {string : String} (h : env.query string = none) (w : World F) :
    query env string .ok w = (.ok (), w) := query_ok h rfl

/-- A query that fails, or leads on to a failure, leaves the manager alone. -/
def Fails (w : World F) : Except String Unit × World F → Prop
  | (.ok (), _) => False
  | (.error _, w') => w'.manager = w.manager

theorem query_fails {string err : String} {run : Db → Except String Db} (h : env.query string = some err) :
    query env string run w = (.error err, w) := by
  simp only [query, h]

theorem query_andThen_fails {string : String} {run : Db → Except String Db} {y : Step F}
    (hrun : run w.db = .ok db) (hy : env.query string = none → Fails w (y { w with db := db })) :
    Fails w ((query env string run).andThen y w) := by
  cases h : env.query string with
  | some err =>
    rw [andThen_error (query_fails h)]
    exact rfl
  | none =>
    rw [andThen_ok (query_ok h hrun)]
    exact hy h

/-- The rows of the user, and the end of the transaction. -/
def rows : Route → Env F → (id : Nat) → Step F
  | .self, env, id => .andThen (deleteAllLikesFromUser env id) (delete env id)
  | .admin _, env, id => delete env id

theorem delete_commit_ok (hsql : ∀ sql ∈ deleteStatements, env.query sql = none)
    (hr : restricted w.db id = false) :
    ((delete env id).andThen (query env "commit" .ok)) w = (.ok (), { w with db := removeUser w.db id hr }) := by
  unfold delete
  rw [andThen_ok (query_ok (hsql _ (by simp [deleteStatements])) (dif_pos hr))]
  exact query_ok (hsql _ (by simp [deleteStatements])) rfl

theorem delete_commit_fails
    (h : ¬((∀ sql ∈ deleteStatements, env.query sql = none) ∧ restricted w.db id = false)) :
    Fails w ((delete env id).andThen (query env "commit" .ok) w) := by
  unfold delete
  cases hq : env.query "delete from users where id = ?" with
  | some err =>
    rw [andThen_error (query_fails hq)]
    exact rfl
  | none =>
    by_cases hr : restricted w.db id = false
    · rw [andThen_ok (query_ok hq (dif_pos hr))]
      cases hc : env.query "commit" with
      | some err =>
        rw [query_fails hc]
        exact rfl
      | none => exact absurd ⟨by simp [deleteStatements, hq, hc], hr⟩ h
    · have : query env "delete from users where id = ?" (deleteRow id) w = (.error "ER_ROW_IS_REFERENCED_2", w) := by
        simp only [query, hq, deleteRow, dif_neg hr]
      rw [andThen_error this]
      exact rfl

theorem andThen_assoc (x y z : Step F) : (x.andThen y).andThen z = x.andThen (y.andThen z) := by
  funext w
  unfold Step.andThen
  rcases x w with ⟨_ | _, w'⟩ <;> rfl

/-- The rows go if every statement succeeds and nothing refers to the user. -/
theorem rows_commit_ok (hsql : ∀ sql ∈ route.statements, env.query sql = none) (hr : route.refers w.db id = false) :
    ∃ hr', ((rows route env id).andThen (query env "commit" .ok)) w =
      (.ok (), { w with db := removeUser (cleaned route w.db id) id hr' }) := by
  have hr' : restricted (cleaned route w.db id) id = false := (restricted_cleaned route w.db id).trans hr
  refine ⟨hr', ?_⟩
  cases route with
  | admin adminId => exact delete_commit_ok hsql hr'
  | self =>
    show ((Step.andThen (.andThen _ _) _).andThen _) w = _
    rw [andThen_assoc, andThen_assoc]
    refine Eq.trans (andThen_ok (query_ok (hsql _ (by simp [Route.statements])) rfl)) ?_
    refine Eq.trans (andThen_ok (query_ok (hsql _ (by simp [Route.statements])) rfl)) ?_
    exact delete_commit_ok (fun sql h => hsql sql (List.mem_append_right _ h)) hr'

theorem rows_commit_fails
    (h : ¬((∀ sql ∈ route.statements, env.query sql = none) ∧ route.refers w.db id = false)) :
    Fails w (((rows route env id).andThen (query env "commit" .ok)) w) := by
  cases route with
  | admin adminId => exact delete_commit_fails h
  | self =>
    show Fails w (((Step.andThen (.andThen _ _) _).andThen _) w)
    rw [andThen_assoc, andThen_assoc]
    refine query_andThen_fails rfl fun h1 => ?_
    refine query_andThen_fails (w := { w with db := decrementLikes w.db id }) rfl fun h2 => ?_
    refine delete_commit_fails (w := { w with db := cleaned .self w.db id }) fun ⟨hsql, hr⟩ => h ⟨?_, ?_⟩
    · intro sql hmem
      rcases List.mem_append.mp hmem with hmem | hmem
      · simp only [List.mem_cons, List.not_mem_nil, or_false] at hmem
        rcases hmem with rfl | rfl
        · exact h1
        · exact h2
      · exact hsql sql hmem
    · exact (restricted_cleaned .self w.db id).symm.trans hr

/-! ## The call of the manager -/

variable {a : Account F}

theorem killUserLocked_dirs (m : Manager F) (userId : Nat) : (killUserLocked m userId).dirs = m.dirs := by
  unfold killUserLocked
  split
  · rfl
  · split <;> rfl

/-- Either the manager finds the cloud id, or it fails before it removes anything. -/
theorem getUserCloudIdForPath_spec (env : Env F) (a : Account F) :
    ∃ m, m.dirs = a.manager.dirs ∧
      (Finds env a →
        getUserCloudIdForPath env a.db (killUserLocked a.manager a.id) a.id = (.ok a.row.cloud_id, m)) ∧
      (¬Finds env a →
        ∃ err, getUserCloudIdForPath env a.db (killUserLocked a.manager a.id) a.id = (.error err, m)) := by
  have hdirs := killUserLocked_dirs a.manager a.id
  by_cases hstarting : ∃ obj, a.manager.engines a.id = some obj ∧ obj.process = false
  · -- the engine has no process to kill, and stays with its cloud id
    obtain ⟨obj, hobj, hp⟩ := hstarting
    have hkill : killUserLocked a.manager a.id = a.manager := by
      unfold killUserLocked
      simp [hobj, hp]
    refine ⟨a.manager, rfl, fun _ => ?_, fun h => absurd (Or.inl ⟨obj, hobj, hp⟩) h⟩
    rw [hkill, getUserCloudIdForPath, hobj]
    dsimp only
    rw [hkill, a.has_cloudId obj hobj]
  · have hgone : (killUserLocked a.manager a.id).engines a.id = none := by
      unfold killUserLocked
      cases hobj : a.manager.engines a.id with
      | none => exact hobj
      | some obj =>
        have hp : obj.process = true := by
          by_contra hp
          exact hstarting ⟨obj, hobj, by simpa using hp⟩
        simp [hp]
    refine ⟨killUserLocked a.manager a.id, hdirs, fun h => ?_, fun h => ?_⟩
    · have hget := h.resolve_left hstarting
      simp only [getUserCloudIdForPath, hgone, hget, a.has_row]
    · cases hget : env.getUser with
      | none => exact absurd (Or.inr hget) h
      | some err => exact ⟨err, by simp only [getUserCloudIdForPath, hgone, hget]⟩

/-- What the manager does: nothing to the directory if it finds no cloud id, and what
    `rm` does otherwise. -/
theorem manager_deleteUser_spec (env : Env F) (a : Account F) :
    ∃ result m, a.manager.deleteUser env a.db a.id = (result, m) ∧
      (Finds env a →
        match env.rm with
        | none => result = .ok () ∧ m.dirs a.row.cloud_id = none
        | some (err, left) => result = .error err ∧ m.dirs a.row.cloud_id = (a.manager.dirs a.row.cloud_id).bind left) ∧
      (¬Finds env a →
        (∃ err, result = .error err) ∧ m.dirs = a.manager.dirs) := by
  obtain ⟨m, hdirs, hfound, hnot⟩ := getUserCloudIdForPath_spec env a
  unfold Manager.deleteUser
  by_cases h : Finds env a
  · rw [hfound h]
    refine ⟨_, _, rfl, fun _ => ?_, fun hn => absurd h hn⟩
    cases env.rm with
    | none => exact ⟨rfl, Function.update_self ..⟩
    | some r =>
      refine ⟨rfl, ?_⟩
      show Function.update m.dirs a.row.cloud_id _ a.row.cloud_id = _
      rw [Function.update_self, hdirs]
  · obtain ⟨err, herr⟩ := hnot h
    rw [herr]
    exact ⟨_, _, rfl, fun h' => absurd h' h, fun _ => ⟨⟨err, rfl⟩, hdirs⟩⟩

/-! ## Requests -/

/-- The transaction of both routes. -/
theorem request_eq (route : Route) (env : Env F) (a : Account F)
    (hother : ∀ adminId, route = .admin adminId → adminId ≠ a.id) :
    request route env a.id = withTransaction env (.andThen (deleteUser env a.id) (rows route env a.id)) := by
  cases route with
  | self => rfl
  | admin adminId =>
    funext w
    exact if_neg (hother adminId rfl)

/-- A transaction that does not start. -/
theorem withTransaction_unstarted (body : Step F) (w : World F)
    (h : ¬(env.connect = none ∧ ∀ sql ∈ startStatements, env.query sql = none)) :
    ∃ err, withTransaction env body w = (.error err, w) := by
  unfold withTransaction
  cases hc : env.connect with
  | some err => exact ⟨err, rfl⟩
  | none =>
    cases h1 : env.query "set transaction isolation level serializable" with
    | some err =>
      refine ⟨err, ?_⟩
      rw [andThen_error (query_fails h1)]
    | none =>
      cases h2 : env.query "start transaction read write" with
      | some err =>
        refine ⟨err, ?_⟩
        simp only [andThen_ok (query_plain h1 w), andThen_error (query_fails h2)]
      | none => exact absurd ⟨hc, by simp [startStatements, h1, h2]⟩ h

/-- One that starts is its body and the commit, and what fails of them leaves the
    database as it was. -/
theorem withTransaction_started {body : Step F} (w : World F) (hc : env.connect = none)
    (hs : ∀ sql ∈ startStatements, env.query sql = none) :
    withTransaction env body w = match (body.andThen (query env "commit" .ok)) w with
      | (.ok (), w') => (.ok (), w')
      | (.error err, w') => (.error err, { w' with db := w.db }) := by
  unfold withTransaction
  rw [hc]
  simp only [andThen_ok (query_plain (hs _ (List.mem_cons_self ..)) w),
    andThen_ok (query_plain (hs "start transaction read write" (by simp [startStatements])) w)]

/-- A request that comes to an error has the database as it was. -/
theorem atomic_of_error {result : Except String Unit × World F} {err : String} {m : Manager F}
    (h : result = (.error err, { db := a.db, manager := m })) :
    (AllOrNothing a result ∧ (LikesCounted a.db → LikesCounted result.2.db)) ↔
      m.dirs a.row.cloud_id = a.manager.dirs a.row.cloud_id := by
  subst h
  constructor
  · exact fun h => h.1.2
  · exact fun h => ⟨⟨a.has_row, h⟩, fun hc => hc⟩

/-- The transaction of a request whose first part fails. -/
theorem request_of_deleteUser_error {err : String} {m : Manager F}
    (hother : ∀ adminId, route = .admin adminId → adminId ≠ a.id) (hc : env.connect = none)
    (hs : ∀ sql ∈ startStatements, env.query sql = none)
    (h : deleteUser env a.id a.toWorld = (.error err, { db := a.db, manager := m })) :
    request route env a.id a.toWorld = (.error err, { db := a.db, manager := m }) := by
  rw [request_eq route env a hother, withTransaction_started a.toWorld hc hs, andThen_assoc, andThen_error h]

/-- A call that gets to the manager, by how it comes back. -/
theorem deleteUser_reached {result : Except String Unit} {m : Manager F}
    (hm : a.manager.deleteUser env a.db a.id = (result, m))
    (hcalls : env.control = true ∧ ∀ err, env.call ≠ .lost err) :
    (env.call = .answered ∧ deleteUser env a.id a.toWorld = (result, { db := a.db, manager := m })) ∨
      (env.call ≠ .answered ∧ ∃ err, deleteUser env a.id a.toWorld = (.error err, { db := a.db, manager := m })) := by
  unfold deleteUser
  rw [hm]
  cases hcall : env.call with
  | lost err => exact absurd hcall (hcalls.2 err)
  | answered => exact Or.inl ⟨rfl, by simp only [if_pos hcalls.1]⟩
  | unanswered err => exact Or.inr ⟨by simp, err, by simp only [if_pos hcalls.1]⟩

/-- One that does not leaves everything as it is. -/
theorem deleteUser_unreached (h : ¬(env.control = true ∧ ∀ err, env.call ≠ .lost err)) :
    ∃ err, deleteUser env a.id a.toWorld = (.error err, a.toWorld) := by
  unfold deleteUser
  by_cases hcontrol : env.control = true
  · cases hcall : env.call with
    | lost err => exact ⟨err, by simp only [if_pos hcontrol]⟩
    | answered => exact absurd ⟨hcontrol, by simp [hcall]⟩ h
    | unanswered err => exact absurd ⟨hcontrol, by simp [hcall]⟩ h
  · exact ⟨"EngineManager died", by simp only [if_neg hcontrol]⟩

/-- Short of the removal a request fails with the directory untouched. -/
theorem request_unremoved (h : ¬Removes route env a) :
    ∃ err m, request route env a.id a.toWorld = (.error err, { db := a.db, manager := m }) ∧
      m.dirs = a.manager.dirs := by
  by_cases hother : ∀ adminId, route = .admin adminId → adminId ≠ a.id
  swap
  · refine ⟨"You cannot delete yourself", a.manager, ?_, rfl⟩
    cases route with
    | self => exact absurd (fun _ h => nomatch h) hother
    | admin adminId =>
      have heq : adminId = a.id := by
        by_contra hne
        exact hother fun _ h => by cases h; exact hne
      exact if_pos heq
  by_cases hstart : env.connect = none ∧
      ∀ sql ∈ startStatements, env.query sql = none
  swap
  · obtain ⟨err, herr⟩ := withTransaction_unstarted (.andThen (deleteUser env a.id) (rows route env a.id)) a.toWorld hstart
    rw [← request_eq route env a hother] at herr
    exact ⟨err, a.manager, herr, rfl⟩
  obtain ⟨hconnect, hsql⟩ := hstart
  by_cases hcalls : env.control = true ∧ ∀ err, env.call ≠ .lost err
  swap
  · obtain ⟨err, herr⟩ := deleteUser_unreached hcalls
    exact ⟨err, a.manager, request_of_deleteUser_error hother hconnect hsql herr, rfl⟩
  have hfinds : ¬Finds env a := fun hfinds => h ⟨hother, hconnect, hsql, hcalls, hfinds⟩
  obtain ⟨result, m, hm, -, hnot⟩ := manager_deleteUser_spec env a
  obtain ⟨⟨err, rfl⟩, hdirs⟩ := hnot hfinds
  rcases deleteUser_reached hm hcalls with ⟨-, herr⟩ | ⟨-, err', herr⟩
  · exact ⟨err, m, request_of_deleteUser_error hother hconnect hsql herr, hdirs⟩
  · exact ⟨err', m, request_of_deleteUser_error hother hconnect hsql herr, hdirs⟩

/-- If the removal fails, so does the request, with what is left. -/
theorem request_rm_failed (h : Removes route env a) {err : String} {left : F → Option F}
    (hrm : env.rm = some (err, left)) :
    ∃ err m, request route env a.id a.toWorld = (.error err, { db := a.db, manager := m }) ∧
      m.dirs a.row.cloud_id = (a.manager.dirs a.row.cloud_id).bind left := by
  obtain ⟨result, m, hm, hfound, -⟩ := manager_deleteUser_spec env a
  have hres := hfound h.finds
  rw [hrm] at hres
  obtain ⟨rfl, hdir⟩ := hres
  rcases deleteUser_reached hm h.calls with ⟨-, herr⟩ | ⟨-, err', herr⟩
  · exact ⟨err, m, request_of_deleteUser_error h.other h.connects h.starts herr, hdir⟩
  · exact ⟨err', m, request_of_deleteUser_error h.other h.connects h.starts herr, hdir⟩

/-- After the removal the request succeeds if nothing fails, and otherwise has removed
    the directory and no row. -/
theorem request_removed (h : Removes route env a) (hrm : env.rm = none) :
    ∃ m, m.dirs a.row.cloud_id = none ∧
      (Completes route env a → ∃ hr, request route env a.id a.toWorld =
        (.ok (), { db := removeUser (cleaned route a.db a.id) a.id hr, manager := m })) ∧
      (¬Completes route env a →
        ∃ err, request route env a.id a.toWorld = (.error err, { db := a.db, manager := m })) := by
  obtain ⟨result, m, hm, hfound, -⟩ := manager_deleteUser_spec env a
  have hres := hfound h.finds
  rw [hrm] at hres
  obtain ⟨rfl, hdir⟩ := hres
  refine ⟨m, hdir, ?_⟩
  rcases deleteUser_reached hm h.calls with ⟨hcall, hok⟩ | ⟨hcall, err, herr⟩
  · rw [request_eq route env a h.other, withTransaction_started a.toWorld h.connects h.starts, andThen_assoc,
      andThen_ok hok]
    constructor
    · intro ⟨_, hsql, hrefers⟩
      obtain ⟨hr, hrows⟩ := rows_commit_ok (w := { db := a.db, manager := m }) hsql hrefers
      exact ⟨hr, by rw [hrows]⟩
    · intro hno
      have hfails : Fails _ ((rows route env a.id).andThen (query env "commit" .ok) { db := a.db, manager := m }) :=
        rows_commit_fails fun hrest => hno ⟨hcall, hrest⟩
      rcases hrest : (rows route env a.id).andThen (query env "commit" .ok) { db := a.db, manager := m } with ⟨err | _, w'⟩
      · rw [hrest] at hfails
        refine ⟨err, ?_⟩
        show (Except.error err, { w' with db := a.db }) = _
        rw [show w'.manager = m from hfails]
      · rw [hrest] at hfails
        exact hfails.elim
  · refine ⟨fun hcomplete => absurd hcomplete.1 hcall, fun _ => ⟨err, ?_⟩⟩
    exact request_of_deleteUser_error h.other h.connects h.starts herr

/-- A request deletes all of the account, or fails and leaves row and directory, exactly
    if nothing fails after the directory is gone; the likes stay counted in any case. -/
theorem deletion_atomic_iff (route : Route) (env : Env F) (a : Account F) :
    (AllOrNothing a (request route env a.id a.toWorld) ∧
      (LikesCounted a.db → LikesCounted (request route env a.id a.toWorld).2.db)) ↔ Kept route env a := by
  by_cases hr : Removes route env a
  swap
  · obtain ⟨err, m, herr, hdirs⟩ := request_unremoved hr
    exact iff_of_true ((atomic_of_error herr).mpr (congrFun hdirs _)) fun h => absurd h hr
  have hkept : Kept route env a ↔ match env.rm with
      | some (_, left) => (a.manager.dirs a.row.cloud_id).bind left = a.manager.dirs a.row.cloud_id
      | none => a.manager.dirs a.row.cloud_id = none ∨ Completes route env a :=
    ⟨fun h => h hr, fun h _ => h⟩
  rw [hkept]
  cases hrm : env.rm with
  | some r =>
    obtain ⟨err, m, herr, hdir⟩ := request_rm_failed hr hrm
    rw [atomic_of_error herr, hdir]
  | none =>
    obtain ⟨m, hdir, hok, hfails⟩ := request_removed hr hrm
    by_cases hcomplete : Completes route env a
    · obtain ⟨hrest, hreq⟩ := hok hcomplete
      rw [hreq]
      obtain ⟨hrow, hlikes⟩ := removeUser_spec hrest
      refine iff_of_true ⟨⟨hrow, hlikes, hdir⟩, fun hc => ?_⟩ (Or.inr hcomplete)
      exact counted_removeUser (cleaned_counted hc route a.id) hrest
    · obtain ⟨err, herr⟩ := hfails hcomplete
      rw [atomic_of_error herr, hdir, or_iff_left hcomplete]
      exact eq_comm

/-- One user, whose directory is there, and one example, which the user likes. -/
def liked : Account Unit where
  db := {
    users := Table.empty.insert { cloud_id := "c1", developer_org := none }
    example_utterances := Table.empty.insert { like_count := 1, owner := none }
    example_likes := [(1, 1)]
    blog_posts := []
    alexa_models := []
    oauth2_permissions := []
    likes_key := by decide
    likes_user := by decide
    posts_author := by decide
    models_user := fun _ h => nomatch h }
  manager := { engines := fun _ => none, dirs := fun _ => some () }
  id := 1
  row := { cloud_id := "c1", developer_org := none }
  has_row := rfl
  has_cloudId := fun _ h => nomatch h

def working : Env Unit where
  connect := none
  query _ := none
  control := true
  call := .answered
  getUser := none
  rm := none

/-- The administrator deletes the user: the directory is gone, and the row stays. -/
theorem admin_loses_directory : ¬∀ (route : Route) (env : Env Unit) (a : Account Unit),
    AllOrNothing a (request route env a.id a.toWorld) ∧
      (LikesCounted a.db → LikesCounted (request route env a.id a.toWorld).2.db) := by
  intro h
  have hdir : none = some () := (h (.admin 2) working liked).1.2
  cases hdir

end GenieCloud.Routes.AccountDeletion
