/-
  GenieCloud.Dbproxy.Proxy — every route of the database proxy
  (`go/dbproxy/local_table.go`, `go/dbproxy/sync_table.go`).

  A handler reads its request, answers early on a bad one, puts together the key of its
  row from the token and the path, over whatever key the body has, and runs one
  operation of `Sql.LocalTable` or `Sql.Statements`, whose statements can fail. What the
  libraries make of the token, the path and the body is part of the request.

  `user_isolation`: a request with a token of a user answers with rows of that user, in a
  way that no other user's rows have a part in, and leaves the others' rows as they were.
-/

import GenieCloud.Dbproxy.SyncTable
import GenieCloud.Sql.Isolation

namespace GenieCloud.Dbproxy.Proxy

open GenieCloud.Lib.Result GenieCloud.Lib.Transaction GenieCloud.Sql.SyncTable GenieCloud.Sql.Statements
  GenieCloud.Sql.LocalTable GenieCloud.Sql.Isolation GenieCloud.Dbproxy.SyncTable

/-! ## Requests and answers -/

structure Request (V J : Type) where
  name : String
  /-- `parseAccessToken`, then `ParseInt` of its subject. -/
  subject : Except String Int
  uniqueid : String
  field : String
  value : String
  /-- `ParseInt` of the `millis` parameter. -/
  millis : Except String Int
  /-- What `Unmarshal` leaves of the `search` parameter; its error is not looked at. -/
  search : SearchParams J
  /-- `ShouldBindJSON` into sync records; `none` is a null in the list. -/
  records : Except String (List (Option UserDeviceSyncRecord))
  /-- `ShouldBindJSON` into a row of the synced table. -/
  device : Except String UserDevice
  /-- `ShouldBindJSON` into a row of the local table. -/
  row : Except String (Row V)
  nowMillis : Int

/-- What the synced routes of `Dbproxy.SyncTable` read of a request. -/
def Request.context {V J : Type} (r : Request V J) : Context where
  name := r.name
  subject := r.subject
  uniqueid := r.uniqueid
  millis := r.millis
  rows := r.records.map fun records => records.filterMap id
  row := r.device
  nowMillis := r.nowMillis

inductive Data (V : Type) where
  | localRows (rows : List (Row V))
  | localRow (row : Row V)
  | rows (rows : List UserDevice)
  | row (row : UserDevice)
  | records (rows : List UserDeviceSyncRecord)
  | results (results : List Bool)
  | synced (ret : SyncAtResult)
  | done (done : Bool)
  | lastModified (lastModified : Int)
  deriving DecidableEq

inductive Response (V : Type) where
  | notFound (error : String)
  | badRequest (error : String)
  | internalServerError (error : Failure Error)
  | ok (data : Data V)
  deriving DecidableEq

/-- The keys of the rows in an answer. -/
def Data.keys {V : Type} : Data V → List Key
  | .localRows l => l.map (·.key)
  | .localRow e => [e.key]
  | .rows l => l.map (·.key)
  | .row e => [e.key]
  | .records l => l.map (·.journalRow.key)
  | .synced ret => ret.ourChanges.map (·.journalRow.key)
  | .results _ | .done _ | .lastModified _ => []

def Response.keys {V : Type} : Response V → List Key
  | .ok data => data.keys
  | .notFound _ | .badRequest _ | .internalServerError _ => []

/-- The tables: the local ones by name, and the synced one with its journal. -/
structure State (V : Type) where
  tables : String → Sql.LocalTable.Rows V
  sync : DB

variable {V J : Type}

/-- An early answer, or what the handler does. -/
abbrev Handler (V α : Type) := Except (Response V) α

def orBadRequest {α : Type} : Except String α → Handler V α
  | .ok a => .ok a
  | .error err => .error (.badRequest err)

def orNotFound {α : Type} : Option α → Handler V α
  | some a => .ok a
  | none => .error (.notFound "table name not found")

def newSyncRow (r : Request V J) : Option Unit := if r.name = "user_device" then some () else none

def reply {α : Type} (data : α → Data V) : Result α → Response V
  | .ok a => .ok (data a)
  | .error err => .internalServerError err

/-- The answer of the handlers that tell a row that is not there from other errors. -/
def replyRow {α : Type} (data : α → Data V) : Result α → Response V
  | .ok a => .ok (data a)
  | .error err => if err = .error .recordNotFound then .notFound "row not found" else .internalServerError err

/-! ## Local tables -/

section Handlers

variable [DecidableEq V] (cmp : Comparisons V J) (s : State V) (fates : List Fate) (r : Request V J)

def setTable (name : String) (table : Sql.LocalTable.Rows V) : State V :=
  { s with tables := Function.update s.tables name table }

def localTableGetAll : Handler V (State V × Response V) := do
  let m ← orNotFound (newRow r.name)
  let userID ← orBadRequest (parseUserID r.context)
  return (s, reply .localRows (Sql.LocalTable.GetAll (s.tables m.tableName) fates userID))

/-- The checks of `localTableSearch` on each filter. -/
def checkFilters (m : RowType) : List (Sql.LocalTable.Filter J) → Handler V Unit
  | [] => .ok ()
  | filter :: filters =>
    if filter.key ∉ m.fields then .error (.badRequest ("invalid filter field " ++ filter.key))
    else if filter.operator ∉ ["=", "<=", ">=", "<", ">"] then
      .error (.badRequest ("invalid filter operator " ++ filter.operator))
    else checkFilters m filters

def checkSort (m : RowType) (sort : List String) : Handler V Unit :=
  match sort with
  | [field, direction] =>
    if field ∉ m.fields ∨ (direction ≠ "asc" ∧ direction ≠ "desc") then .error (.badRequest "invalid sort") else .ok ()
  | _ => .error (.badRequest "invalid sort")

def localTableSearch : Handler V (State V × Response V) := do
  let m ← orNotFound (newRow r.name)
  let userID ← orBadRequest (parseUserID r.context)
  checkFilters m r.search.filter
  checkSort m r.search.sort
  return (s, reply .localRows (Sql.LocalTable.Search cmp m (s.tables m.tableName) fates userID r.search))

def localTableGetOne : Handler V (State V × Response V) := do
  let m ← orNotFound (newRow r.name)
  let key ← orBadRequest (parseKey r.context)
  return (s, replyRow .localRow (Sql.LocalTable.GetOne (s.tables m.tableName) fates key))

def localTableGetByField : Handler V (State V × Response V) := do
  let m ← orNotFound (newRow r.name)
  let userID ← orBadRequest (parseUserID r.context)
  if r.field ∉ m.fields then .error (.notFound "invalid field")
  else return (s, reply .localRows (Sql.LocalTable.GetByField cmp m (s.tables m.tableName) fates userID r.field r.value))

def localTableDeleteOne : Handler V (State V × Response V) := do
  let m ← orNotFound (newRow r.name)
  let key ← orBadRequest (parseKey r.context)
  let (table, result) := Sql.LocalTable.DeleteOne (s.tables m.tableName) fates key
  return (setTable s m.tableName table, replyRow (fun _ => .done true) result)

def localTableInsertOne : Handler V (State V × Response V) := do
  let m ← orNotFound (newRow r.name)
  let key ← orBadRequest (parseKey r.context)
  let row ← orBadRequest r.row
  let (table, result) := Sql.LocalTable.InsertOne m (s.tables m.tableName) fates { row with key := key }
  return (setTable s m.tableName table, reply (fun _ => .done true) result)

/-! ## The synced table -/

def setSync {α : Type} (data : α → Data V) (res : DB × Result α) : State V × Response V :=
  ({ s with sync := res.1 }, reply data res.2)

def syncTableGetAll : Handler V (State V × Response V) := do
  orNotFound (newSyncRow r)
  let userID ← orBadRequest (parseUserID r.context)
  return (s, reply .rows (Sql.Statements.GetAll s.sync fates userID))

def syncTableGetOne : Handler V (State V × Response V) := do
  orNotFound (newSyncRow r)
  let key ← orBadRequest (parseKey r.context)
  return (s, replyRow .row (Sql.Statements.GetOne s.sync fates key))

def syncTableGetRaw : Handler V (State V × Response V) := do
  orNotFound (newSyncRow r)
  let userID ← orBadRequest (parseUserID r.context)
  return (s, reply .records (Sql.Statements.GetRaw s.sync fates userID))

def syncTableGetChangesAfter : Handler V (State V × Response V) := do
  orNotFound (newSyncRow r)
  let userID ← orBadRequest (parseUserID r.context)
  let lastModified ← orBadRequest r.millis
  return (s, reply .records (Sql.Statements.GetChangesAfter s.sync fates lastModified userID))

def syncTableHandleChanges : Handler V (State V × Response V) := do
  orNotFound (newSyncRow r)
  let userID ← orBadRequest (parseUserID r.context)
  let rows ← orBadRequest r.records
  return setSync s .results (Sql.Statements.HandleChanges s.sync fates rows userID)

def syncTableSyncAt : Handler V (State V × Response V) := do
  orNotFound (newSyncRow r)
  let userID ← orBadRequest (parseUserID r.context)
  let lastModified ← orBadRequest r.millis
  let rows ← orBadRequest r.records
  return setSync s .synced (Sql.Statements.SyncAt s.sync fates lastModified userID rows)

def syncTableReplaceAll : Handler V (State V × Response V) := do
  orNotFound (newSyncRow r)
  let userID ← orBadRequest (parseUserID r.context)
  let rows ← orBadRequest r.records
  return setSync s (fun _ => .done true) (Sql.Statements.ReplaceAll s.sync fates rows userID)

def syncTableInsertIfRecent : Handler V (State V × Response V) := do
  orNotFound (newSyncRow r)
  let key ← orBadRequest (parseKey r.context)
  let m ← orBadRequest r.device
  let lastModified ← orBadRequest r.millis
  return setSync s .done (Sql.Statements.InsertIfRecent s.sync fates { m with key := key } lastModified)

def syncTableInsertOne : Handler V (State V × Response V) := do
  orNotFound (newSyncRow r)
  let key ← orBadRequest (parseKey r.context)
  let m ← orBadRequest r.device
  return setSync s .lastModified (Sql.Statements.InsertOne s.sync fates { m with key := key } r.nowMillis)

def syncTableDeleteIfRecent : Handler V (State V × Response V) := do
  orNotFound (newSyncRow r)
  let key ← orBadRequest (parseKey r.context)
  let m ← orBadRequest r.device
  let lastModified ← orBadRequest r.millis
  return setSync s .done (Sql.Statements.DeleteIfRecent s.sync fates { m with key := key } lastModified)

def syncTableDeleteOne : Handler V (State V × Response V) := do
  orNotFound (newSyncRow r)
  let key ← orBadRequest (parseKey r.context)
  return setSync s .lastModified (Sql.Statements.DeleteOne s.sync fates ⟨key, none⟩ r.nowMillis)

inductive Route where
  | localGetAll
  | localSearch
  | localGetOne
  | localGetByField
  | localDeleteOne
  | localInsertOne
  | syncGetAll
  | syncGetOne
  | syncGetRaw
  | syncGetChangesAfter
  | syncHandleChanges
  | syncSyncAt
  | syncReplaceAll
  | syncInsertIfRecent
  | syncInsertOne
  | syncDeleteIfRecent
  | syncDeleteOne
  deriving DecidableEq, Repr

def handler : Route → Handler V (State V × Response V)
  | .localGetAll => localTableGetAll s fates r
  | .localSearch => localTableSearch cmp s fates r
  | .localGetOne => localTableGetOne s fates r
  | .localGetByField => localTableGetByField cmp s fates r
  | .localDeleteOne => localTableDeleteOne s fates r
  | .localInsertOne => localTableInsertOne s fates r
  | .syncGetAll => syncTableGetAll s fates r
  | .syncGetOne => syncTableGetOne s fates r
  | .syncGetRaw => syncTableGetRaw s fates r
  | .syncGetChangesAfter => syncTableGetChangesAfter s fates r
  | .syncHandleChanges => syncTableHandleChanges s fates r
  | .syncSyncAt => syncTableSyncAt s fates r
  | .syncReplaceAll => syncTableReplaceAll s fates r
  | .syncInsertIfRecent => syncTableInsertIfRecent s fates r
  | .syncInsertOne => syncTableInsertOne s fates r
  | .syncDeleteIfRecent => syncTableDeleteIfRecent s fates r
  | .syncDeleteOne => syncTableDeleteOne s fates r

def serve (route : Route) : State V × Response V :=
  match handler cmp s fates r route with
  | .ok res => res
  | .error early => (s, early)

end Handlers

/-! ## One user's share of the tables -/

def SameState (u : Int) (s s' : State V) : Prop :=
  (∀ name, SameUser u (s.tables name) (s'.tables name)) ∧ Same u s.sync s'.sync

def OthersKept (u : Int) (s s' : State V) : Prop :=
  (∀ name, SameOthers u (s.tables name) (s'.tables name)) ∧ Others u s.sync s'.sync

/-- What a request of `u` on two states with the same rows of `u` comes to. -/
structure Confined (u : Int) (s : State V) (res res' : State V × Response V) : Prop where
  rows : ∀ k ∈ res.2.keys, k.userID = u
  others : OthersKept u s res.1
  answer : res'.2 = res.2
  same : SameState u res.1 res'.1

variable {u : Int} {s s' : State V} {α : Type} {data : α → Data V}

theorem OthersKept.refl (s : State V) : OthersKept u s s := ⟨fun _ => .refl _, .refl _⟩

theorem reply_keys {x : Result α} (h : ∀ a, x = .ok a → ∀ k ∈ (data a).keys, k.userID = u) :
    ∀ k ∈ (reply data x).keys, k.userID = u := by
  cases x with
  | ok a => exact h a rfl
  | error err => nofun

theorem replyRow_keys {x : Result α} (h : ∀ a, x = .ok a → ∀ k ∈ (data a).keys, k.userID = u) :
    ∀ k ∈ (replyRow data x).keys, k.userID = u := by
  cases x with
  | ok a => exact h a rfl
  | error err =>
    rw [replyRow]
    split <;> nofun

theorem confined_read (hs : SameState u s s') {answer answer' : Response V} (ha : answer' = answer)
    (hk : ∀ k ∈ answer.keys, k.userID = u) : Confined u s (s, answer) (s', answer') := ⟨hk, .refl s, ha, hs⟩

theorem setTable_tables (s : State V) (name : String) (table : Sql.LocalTable.Rows V) (n : String) :
    (setTable s name table).tables n = if n = name then table else s.tables n := by
  by_cases h : n = name
  · rw [if_pos h, h]
    exact Function.update_self ..
  · rw [if_neg h]
    exact Function.update_of_ne h ..

theorem confined_table (hs : SameState u s s') (name : String) {table table' : Sql.LocalTable.Rows V}
    {answer answer' : Response V} (ht : SameUser u table table') (ho : SameOthers u (s.tables name) table)
    (ha : answer' = answer) (hk : ∀ k ∈ answer.keys, k.userID = u) :
    Confined u s (setTable s name table, answer) (setTable s' name table', answer') := by
  refine ⟨hk, ⟨fun n => ?_, .refl _⟩, ha, fun n => ?_, hs.2⟩
  · dsimp only
    rw [setTable_tables]
    split
    · rename_i hn
      rw [hn]
      exact ho
    · exact .refl _
  · dsimp only
    rw [setTable_tables, setTable_tables]
    split
    · exact ht
    · exact hs.1 n

theorem confined_sync (hs : SameState u s s') {res res' : DB × Result α} (ho : Others u s.sync res.1)
    (hr : Same u res.1 res'.1 ∧ res.2 = res'.2) (hk : ∀ a, res.2 = .ok a → ∀ k ∈ (data a).keys, k.userID = u) :
    Confined u s (setSync s data res) (setSync s' data res') :=
  ⟨reply_keys hk, ⟨fun _ => .refl _, ho⟩, by rw [setSync, setSync, hr.2], hs.1, hr.1⟩

/-! ## The local operations -/

section Local

variable {table table' : Sql.LocalTable.Rows V} (fates : List Fate) {key : Key}

theorem localGetAll_eq (h : SameUser u table table') :
    Sql.LocalTable.GetAll table' fates u = Sql.LocalTable.GetAll table fates u :=
  (ask_respects (Respects.query fun _ _ h => SameUser.rowsOf h) h fates).symm

theorem localGetAll_user {l : List (Row V)} (h : Sql.LocalTable.GetAll table fates u = .ok l) :
    ∀ row ∈ l, row.key.userID = u := by
  obtain ⟨-, hl⟩ := ask_spec (Q := fun l _ => ∀ row ∈ l, row.key.userID = u)
    (Triple.query fun _ _ _ => rowsOf_user) h
  exact hl

theorem localGetByField_eq (cmp : Comparisons V J) (m : RowType) (h : SameUser u table table') (field value : String) :
    Sql.LocalTable.GetByField cmp m table' fates u field value =
      Sql.LocalTable.GetByField cmp m table fates u field value :=
  (ask_respects (Respects.query fun _ _ h => by rw [SameUser.rowsOf h]) h fates).symm

theorem localGetByField_user {cmp : Comparisons V J} {m : RowType} {field value : String} {l : List (Row V)}
    (h : Sql.LocalTable.GetByField cmp m table fates u field value = .ok l) : ∀ row ∈ l, row.key.userID = u := by
  obtain ⟨-, hl⟩ := ask_spec (Q := fun l _ => ∀ row ∈ l, row.key.userID = u)
    (Triple.query fun _ _ _ hrow => rowsOf_user (List.mem_of_mem_filter hrow)) h
  exact hl

theorem localSearch_eq (cmp : Comparisons V J) (m : RowType) (h : SameUser u table table') (params : SearchParams J) :
    Sql.LocalTable.Search cmp m table' fates u params = Sql.LocalTable.Search cmp m table fates u params := by
  unfold Sql.LocalTable.Search
  split
  · exact (ask_respects (Respects.query fun _ _ h => by rw [search, search, SameUser.rowsOf h]) h fates).symm
  · rfl

theorem search_user {cmp : Comparisons V J} {m : RowType} {params : SearchParams J} {field direction : String}
    {row : Row V} (h : row ∈ search cmp m u params field direction table) : row.key.userID = u := by
  simp only [search] at h
  split at h
  · exact rowsOf_user (List.mem_of_mem_filter (List.mem_mergeSort.mp (List.mem_of_mem_take h)))
  · exact rowsOf_user (List.mem_of_mem_filter (List.mem_mergeSort.mp h))

theorem localSearch_user {cmp : Comparisons V J} {m : RowType} {params : SearchParams J} {l : List (Row V)}
    (h : Sql.LocalTable.Search cmp m table fates u params = .ok l) : ∀ row ∈ l, row.key.userID = u := by
  unfold Sql.LocalTable.Search at h
  split at h
  · obtain ⟨-, hl⟩ := ask_spec (Q := fun l _ => ∀ row ∈ l, row.key.userID = u) (Triple.query fun _ _ _ => search_user) h
    exact hl
  · cases h

theorem localGetOne_eq (h : SameUser u table table') (hk : key.userID = u) :
    Sql.LocalTable.GetOne table' fates key = Sql.LocalTable.GetOne table fates key := by
  unfold Sql.LocalTable.GetOne
  split
  · rfl
  · refine (ask_respects (Respects.statement ?_) h fates).symm
    intro t t' ht
    rw [ht.lookup hk]
    cases t'.lookup key with
    | some values => exact .inl ⟨_, _, _, rfl, rfl, ht⟩
    | none => exact .inr ⟨_, rfl, rfl⟩

theorem localGetOne_key {row : Row V} (h : Sql.LocalTable.GetOne table fates key = .ok row) : row.key = key := by
  unfold Sql.LocalTable.GetOne at h
  split at h
  · cases h
  · refine (ask_spec (Q := fun row _ => row.key = key) (Triple.statement ?_) h).elim fun _ hr => hr
    intro t a t' _ he
    split at he
    · cases he
      rfl
    · cases he

theorem localDeleteOne_same (h : SameUser u table table') (hk : key.userID = u) :
    SameUser u (Sql.LocalTable.DeleteOne table fates key).1 (Sql.LocalTable.DeleteOne table' fates key).1 ∧
      (Sql.LocalTable.DeleteOne table fates key).2 = (Sql.LocalTable.DeleteOne table' fates key).2 := by
  unfold Sql.LocalTable.DeleteOne
  split
  · exact ⟨h, rfl⟩
  · refine transaction_respects (Respects.statement ?_) h fates
    intro t t' ht
    exact .inl ⟨(), _, _, rfl, rfl, ht.erase hk⟩

theorem others_of_transaction {m : Lib.Transaction.Tx (Sql.LocalTable.Rows V) Error α}
    (h : Triple (· = table) m fun _ t => SameOthers u table t) (fates : List Fate) :
    SameOthers u table (transaction m table fates).1 := by
  rcases transaction_spec h fates with ⟨h, -⟩ | ⟨-, h, -⟩
  · rw [h]
    exact .refl table
  · exact h

theorem localDeleteOne_others (hk : key.userID = u) :
    SameOthers u table (Sql.LocalTable.DeleteOne table fates key).1 := by
  unfold Sql.LocalTable.DeleteOne
  split
  · exact .refl table
  · refine others_of_transaction (Triple.statement ?_) fates
    intro t a t' ht he
    subst ht
    cases he
    exact .erase t hk

variable [DecidableEq V]

theorem localInsertOne_same (m : RowType) (row : Row V) (h : SameUser u table table') (hk : row.key.userID = u) :
    SameUser u (Sql.LocalTable.InsertOne m table fates row).1 (Sql.LocalTable.InsertOne m table' fates row).1 ∧
      (Sql.LocalTable.InsertOne m table fates row).2 = (Sql.LocalTable.InsertOne m table' fates row).2 := by
  unfold Sql.LocalTable.InsertOne
  split
  · exact ⟨h, rfl⟩
  · refine transaction_respects (Respects.statement ?_) h fates
    intro t t' ht
    rcases ht.upsert m row hk with ⟨t₁, t₁', h1, h2, hsame⟩ | ⟨e, h1, h2⟩
    · rw [h1, h2]
      exact .inl ⟨(), t₁, t₁', rfl, rfl, hsame⟩
    · rw [h1, h2]
      exact .inr ⟨e, rfl, rfl⟩

theorem localInsertOne_others (m : RowType) (row : Row V) (hk : row.key.userID = u) :
    SameOthers u table (Sql.LocalTable.InsertOne m table fates row).1 := by
  unfold Sql.LocalTable.InsertOne
  split
  · exact .refl table
  · refine others_of_transaction (Triple.statement ?_) fates
    intro t a t' ht he
    subst ht
    split at he
    · rename_i t₁ hup
      cases he
      obtain ⟨k, hku, rfl⟩ := upsert_writes m row hk hup
      exact .insert t hku _
    · cases he

end Local

/-! ## Every route -/

section Routes

variable (cmp : Comparisons V J) (fates : List Fate) (r : Request V J)

theorem parseKey_user {key : Key} (hu : parseUserID r.context = .ok u) (hk : parseKey r.context = .ok key) :
    key.userID = u := by
  simp only [parseKey, hu] at hk
  split at hk
  · cases hk
  · cases hk
    rfl

theorem orBadRequest_ok {x : Except String α} {a : α} (h : (orBadRequest x : Handler V α) = .ok a) : x = .ok a := by
  cases x with
  | ok b => cases h; rfl
  | error err => cases h

/-- Two runs of a handler that fail early alike, or are confined. -/
def Outcome (u : Int) (s : State V) (x x' : Handler V (State V × Response V)) : Prop :=
  (∃ early, x = .error early ∧ x' = .error early ∧ early.keys = []) ∨
    ∃ res res', x = .ok res ∧ x' = .ok res' ∧ Confined u s res res'

/-- A check that answers early answers with no row. -/
theorem Outcome.bind {x : Handler V α} {k k' : α → Handler V (State V × Response V)}
    (hearly : ∀ early, x = .error early → early.keys = []) (h : ∀ a, x = .ok a → Outcome u s (k a) (k' a)) :
    Outcome u s (x >>= k) (x >>= k') := by
  cases x with
  | ok a => exact h a rfl
  | error early => exact .inl ⟨early, rfl, rfl, hearly early rfl⟩

theorem Outcome.pure {res res' : State V × Response V} (h : Confined u s res res') :
    Outcome u s (pure res) (pure res') := .inr ⟨res, res', rfl, rfl, h⟩

theorem orBadRequest_early {x : Except String α} (early : Response V) (h : orBadRequest x = .error early) :
    early.keys = [] := by
  cases x with
  | ok a => cases h
  | error err => cases h; rfl

theorem orNotFound_early {x : Option α} (early : Response V) (h : orNotFound x = .error early) : early.keys = [] := by
  cases x with
  | some a => cases h
  | none => cases h; rfl

theorem checkFilters_early {m : RowType} {filters : List (Sql.LocalTable.Filter J)} (early : Response V)
    (h : checkFilters m filters = .error early) : early.keys = [] := by
  induction filters with
  | nil => cases h
  | cons filter filters ih =>
    rw [checkFilters] at h
    split at h
    · cases h; rfl
    · split at h
      · cases h; rfl
      · exact ih h

theorem checkSort_early {m : RowType} {sort : List String} (early : Response V)
    (h : checkSort m sort = .error early) : early.keys = [] := by
  unfold checkSort at h
  split at h
  · split at h
    · cases h; rfl
    · cases h
  · cases h; rfl

/-- A handler that reads the user of the token, and then does what is confined to it. -/
theorem Outcome.user (hu : parseUserID r.context = .ok u) {k k' : Int → Handler V (State V × Response V)}
    (h : Outcome u s (k u) (k' u)) :
    Outcome u s (orBadRequest (parseUserID r.context) >>= k) (orBadRequest (parseUserID r.context) >>= k') := by
  rw [hu]
  exact h

theorem Outcome.key (hu : parseUserID r.context = .ok u) {k k' : Key → Handler V (State V × Response V)}
    (h : ∀ key : Key, key.userID = u → Outcome u s (k key) (k' key)) :
    Outcome u s (orBadRequest (parseKey r.context) >>= k) (orBadRequest (parseKey r.context) >>= k') :=
  Outcome.bind orBadRequest_early fun key hk => h key (parseKey_user r hu (orBadRequest_ok hk))

variable {r} (hu : parseUserID r.context = .ok u) (hs : SameState u s s')

include hu hs

theorem localTableGetAll_confined : Outcome u s (localTableGetAll s fates r) (localTableGetAll s' fates r) := by
  refine .bind orNotFound_early fun m _ => .user r hu (.pure ?_)
  refine confined_read hs (congrArg _ (localGetAll_eq fates (hs.1 _))) (reply_keys fun l hl => ?_)
  exact List.forall_mem_map.mpr (localGetAll_user fates hl)

theorem localTableSearch_confined : Outcome u s (localTableSearch cmp s fates r) (localTableSearch cmp s' fates r) := by
  refine .bind orNotFound_early fun m _ => .user r hu ?_
  refine .bind checkFilters_early fun _ _ => .bind checkSort_early fun _ _ => .pure ?_
  refine confined_read hs (congrArg _ (localSearch_eq fates cmp m (hs.1 _) r.search)) (reply_keys fun l hl => ?_)
  exact List.forall_mem_map.mpr (localSearch_user fates hl)

theorem localTableGetOne_confined : Outcome u s (localTableGetOne s fates r) (localTableGetOne s' fates r) := by
  refine .bind orNotFound_early fun m _ => .key r hu fun key hk => .pure ?_
  refine confined_read hs (congrArg _ (localGetOne_eq fates (hs.1 _) hk)) (replyRow_keys fun row hrow => ?_)
  exact List.forall_mem_singleton.mpr (by rw [localGetOne_key fates hrow, hk])

theorem localTableGetByField_confined :
    Outcome u s (localTableGetByField cmp s fates r) (localTableGetByField cmp s' fates r) := by
  refine .bind orNotFound_early fun m _ => .user r hu ?_
  split
  · exact .inl ⟨_, rfl, rfl, rfl⟩
  · refine .pure (confined_read hs (congrArg _ (localGetByField_eq fates cmp m (hs.1 _) r.field r.value))
      (reply_keys fun l hl => ?_))
    exact List.forall_mem_map.mpr (localGetByField_user fates hl)

theorem localTableDeleteOne_confined : Outcome u s (localTableDeleteOne s fates r) (localTableDeleteOne s' fates r) := by
  refine .bind orNotFound_early fun m _ => .key r hu fun key hk => .pure ?_
  obtain ⟨hsame, heq⟩ := localDeleteOne_same fates (hs.1 m.tableName) hk
  exact confined_table hs m.tableName hsame (localDeleteOne_others fates hk) (congrArg _ heq.symm)
    (replyRow_keys fun _ _ _ h => (List.not_mem_nil h).elim)

theorem syncTableGetAll_confined : Outcome u s (syncTableGetAll s fates r) (syncTableGetAll s' fates r) := by
  refine .bind orNotFound_early fun _ _ => .user r hu (.pure ?_)
  refine confined_read hs (congrArg _ (GetAll_eq fates hs.2)) (reply_keys fun l hl => ?_)
  exact List.forall_mem_map.mpr (GetAll_user fates hl)

theorem syncTableGetOne_confined : Outcome u s (syncTableGetOne s fates r) (syncTableGetOne s' fates r) := by
  refine .bind orNotFound_early fun _ _ => .key r hu fun key hk => .pure ?_
  refine confined_read hs (congrArg _ (GetOne_eq fates hs.2 hk)) (replyRow_keys fun row hrow => ?_)
  exact List.forall_mem_singleton.mpr (by rw [GetOne_key fates hrow, hk])

theorem syncTableGetRaw_confined : Outcome u s (syncTableGetRaw s fates r) (syncTableGetRaw s' fates r) := by
  refine .bind orNotFound_early fun _ _ => .user r hu (.pure ?_)
  refine confined_read hs (congrArg _ (GetRaw_eq fates hs.2)) (reply_keys fun l hl => ?_)
  exact List.forall_mem_map.mpr (GetRaw_user fates hl)

theorem syncTableGetChangesAfter_confined :
    Outcome u s (syncTableGetChangesAfter s fates r) (syncTableGetChangesAfter s' fates r) := by
  refine .bind orNotFound_early fun _ _ => .user r hu (.bind orBadRequest_early fun lastModified _ => .pure ?_)
  refine confined_read hs (congrArg _ (GetChangesAfter_eq fates hs.2 lastModified)) (reply_keys fun l hl => ?_)
  exact List.forall_mem_map.mpr (GetChangesAfter_user fates hl)

theorem syncTableHandleChanges_confined :
    Outcome u s (syncTableHandleChanges s fates r) (syncTableHandleChanges s' fates r) := by
  refine .bind orNotFound_early fun _ _ => .user r hu (.bind orBadRequest_early fun rows _ => .pure ?_)
  exact confined_sync hs (HandleChanges_others fates rows)
    (transaction_respects (respects_handleChanges u rows) hs.2 fates) fun _ _ _ h => (List.not_mem_nil h).elim

theorem syncTableSyncAt_confined : Outcome u s (syncTableSyncAt s fates r) (syncTableSyncAt s' fates r) := by
  refine .bind orNotFound_early fun _ _ => .user r hu ?_
  refine .bind orBadRequest_early fun lastModified _ => .bind orBadRequest_early fun rows _ => .pure ?_
  refine confined_sync hs (SyncAt_others fates lastModified rows)
    (transaction_respects (respects_syncAt lastModified u rows) hs.2 fates) fun ret hret => ?_
  exact List.forall_mem_map.mpr (SyncAt_user fates hret)

theorem syncTableReplaceAll_confined :
    Outcome u s (syncTableReplaceAll s fates r) (syncTableReplaceAll s' fates r) := by
  refine .bind orNotFound_early fun _ _ => .user r hu (.bind orBadRequest_early fun rows _ => .pure ?_)
  exact confined_sync hs (ReplaceAll_others fates rows) (ReplaceAll_same fates hs.2 rows)
    fun _ _ _ h => (List.not_mem_nil h).elim

theorem syncTableInsertIfRecent_confined :
    Outcome u s (syncTableInsertIfRecent s fates r) (syncTableInsertIfRecent s' fates r) := by
  refine .bind orNotFound_early fun _ _ => .key r hu fun key hk => ?_
  refine .bind orBadRequest_early fun m _ => .bind orBadRequest_early fun lastModified _ => .pure ?_
  exact confined_sync hs (InsertIfRecent_others fates hk lastModified)
    (transaction_respects (respects_insertIfRecent hk) hs.2 fates) fun _ _ _ h => (List.not_mem_nil h).elim

theorem syncTableInsertOne_confined :
    Outcome u s (syncTableInsertOne s fates r) (syncTableInsertOne s' fates r) := by
  refine .bind orNotFound_early fun _ _ => .key r hu fun key hk => .bind orBadRequest_early fun m _ => .pure ?_
  exact confined_sync hs (InsertOne_others fates hk r.nowMillis)
    (transaction_respects (respects_insert hk) hs.2 fates) fun _ _ _ h => (List.not_mem_nil h).elim

theorem syncTableDeleteIfRecent_confined :
    Outcome u s (syncTableDeleteIfRecent s fates r) (syncTableDeleteIfRecent s' fates r) := by
  refine .bind orNotFound_early fun _ _ => .key r hu fun key hk => ?_
  refine .bind orBadRequest_early fun m _ => .bind orBadRequest_early fun lastModified _ => .pure ?_
  exact confined_sync hs (DeleteIfRecent_others fates hk lastModified)
    (transaction_respects (respects_deleteIfRecent hk) hs.2 fates) fun _ _ _ h => (List.not_mem_nil h).elim

theorem syncTableDeleteOne_confined :
    Outcome u s (syncTableDeleteOne s fates r) (syncTableDeleteOne s' fates r) := by
  refine .bind orNotFound_early fun _ _ => .key r hu fun key hk => .pure ?_
  exact confined_sync hs (DeleteOne_others fates hk r.nowMillis)
    (transaction_respects (respects_delete hk) hs.2 fates) fun _ _ _ h => (List.not_mem_nil h).elim

variable [DecidableEq V]

theorem localTableInsertOne_confined : Outcome u s (localTableInsertOne s fates r) (localTableInsertOne s' fates r) := by
  refine .bind orNotFound_early fun m _ => .key r hu fun key hk => .bind orBadRequest_early fun row _ => .pure ?_
  obtain ⟨hsame, heq⟩ := localInsertOne_same fates m { row with key := key } (hs.1 m.tableName) hk
  exact confined_table hs m.tableName hsame (localInsertOne_others fates m _ hk) (congrArg _ heq.symm)
    (reply_keys fun _ _ _ h => (List.not_mem_nil h).elim)

theorem handler_confined (route : Route) : Outcome u s (handler cmp s fates r route) (handler cmp s' fates r route) := by
  cases route with
  | localGetAll => exact localTableGetAll_confined fates hu hs
  | localSearch => exact localTableSearch_confined cmp fates hu hs
  | localGetOne => exact localTableGetOne_confined fates hu hs
  | localGetByField => exact localTableGetByField_confined cmp fates hu hs
  | localDeleteOne => exact localTableDeleteOne_confined fates hu hs
  | localInsertOne => exact localTableInsertOne_confined fates hu hs
  | syncGetAll => exact syncTableGetAll_confined fates hu hs
  | syncGetOne => exact syncTableGetOne_confined fates hu hs
  | syncGetRaw => exact syncTableGetRaw_confined fates hu hs
  | syncGetChangesAfter => exact syncTableGetChangesAfter_confined fates hu hs
  | syncHandleChanges => exact syncTableHandleChanges_confined fates hu hs
  | syncSyncAt => exact syncTableSyncAt_confined fates hu hs
  | syncReplaceAll => exact syncTableReplaceAll_confined fates hu hs
  | syncInsertIfRecent => exact syncTableInsertIfRecent_confined fates hu hs
  | syncInsertOne => exact syncTableInsertOne_confined fates hu hs
  | syncDeleteIfRecent => exact syncTableDeleteIfRecent_confined fates hu hs
  | syncDeleteOne => exact syncTableDeleteOne_confined fates hu hs

theorem serve_confined (route : Route) : Confined u s (serve cmp s fates r route) (serve cmp s' fates r route) := by
  unfold serve
  rcases handler_confined cmp fates hu hs route with ⟨early, h, h', hk⟩ | ⟨res, res', h, h', hc⟩
  · rw [h, h']
    exact confined_read hs rfl (by rw [hk]; exact fun _ h => (List.not_mem_nil h).elim)
  · rw [h, h']
    exact hc

omit hs

/-- Whatever the request and whichever of its statements fail, with a token of the user
    `u`: the rows of the answer are of `u`, the rows of the others in every table are as
    they were, and on tables with the same rows of `u` the answer would be the same. -/
theorem user_isolation (s : State V) (route : Route) :
    (∀ k ∈ (serve cmp s fates r route).2.keys, k.userID = u) ∧
    (∀ name k, k.userID ≠ u →
      ((serve cmp s fates r route).1.tables name).lookup k = (s.tables name).lookup k) ∧
    (∀ k, k.userID ≠ u →
      (serve cmp s fates r route).1.sync.userDevice.lookup k = s.sync.userDevice.lookup k ∧
      (serve cmp s fates r route).1.sync.userDeviceJournal.lookup k = s.sync.userDeviceJournal.lookup k) ∧
    ∀ s', SameState u s s' → (serve cmp s' fates r route).2 = (serve cmp s fates r route).2 := by
  have hself : SameState u s s := ⟨fun _ => rfl, rfl, rfl⟩
  obtain ⟨hrows, ⟨htables, hdevice, hjournal⟩, -, -⟩ := serve_confined cmp fates hu hself route
  exact ⟨hrows, htables, fun k hk => ⟨hdevice k hk, hjournal k hk⟩,
    fun s' hs => (serve_confined cmp fates hu hs route).answer⟩

end Routes

/-- A push by user 7 of records that name user 8, one with an id and one without. -/
def foreignPush : Request String String where
  name := "user_device"
  subject := .ok 7
  uniqueid := ""
  field := ""
  value := ""
  millis := .ok 0
  search := ⟨[], [], 0⟩
  records := .ok [some ⟨⟨⟨"a", 8⟩, 10⟩, some "mine"⟩, some ⟨⟨⟨"", 8⟩, 10⟩, some "none"⟩]
  device := .error "EOF"
  row := .error "EOF"
  nowMillis := 0

def noRows : State String := ⟨fun _ => ∅, .empty⟩

def byText : Comparisons String String := ⟨fun _ _ => true, fun _ _ _ => true, fun _ _ => true⟩

theorem user_isolation_foreignPush :
    (serve byText noRows [] foreignPush .syncHandleChanges).2 = .ok (.results [true, false]) ∧
    (serve byText noRows [] foreignPush .syncHandleChanges).1.sync.userDevice.lookup ⟨"a", 7⟩ = some "mine" ∧
    (serve byText noRows [] foreignPush .syncHandleChanges).1.sync.userDevice.lookup ⟨"a", 8⟩ = none := by
  obtain ⟨-, -, h, -⟩ := user_isolation byText [] (r := foreignPush) (u := 7) rfl noRows .syncHandleChanges
  exact ⟨rfl, rfl, (h ⟨"a", 8⟩ (by decide)).1⟩

end GenieCloud.Dbproxy.Proxy
