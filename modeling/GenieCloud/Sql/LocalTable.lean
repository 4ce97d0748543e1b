/-
  GenieCloud.Sql.LocalTable — the tables of the database proxy that are not synced
  (`go/sql/local_table.go` over the rows that `registerRow` registers).

  A row is its key and its other columns, in the order of `Fields()`. The types of
  columns and of the values of a search are parameters, and so is what MySQL makes of
  comparing the two (`Comparisons`). An insert updates the row that has its key; in
  `user_conversation_history` also the one of the same user that has its conversation
  and message, which keeps its own key.
-/

import GenieCloud.Sql.Statements

namespace GenieCloud.Sql.LocalTable

open GenieCloud.Lib.Transaction GenieCloud.Sql.SyncTable GenieCloud.Sql.Statements

/-- What a registered row says of its table: its name, `Fields()`, and the columns that
    are unique for a user besides the key. -/
structure RowType where
  tableName : String
  fields : List String
  unique : List String
  deriving DecidableEq, Repr

def userApp : RowType := ⟨"user_app", ["code", "state", "name", "description"], []⟩

def userChannel : RowType := ⟨"user_channel", ["value"], []⟩

def userConversation : RowType :=
  ⟨"user_conversation",
    ["conversationId", "previousId", "dialogueId", "context", "agent", "agentTimestamp", "agentTarget",
      "intermediateContext", "user", "userTimestamp", "userTarget", "vote", "comment"], []⟩

def userPreference : RowType := ⟨"user_preference", ["value"], []⟩

def userConversationState : RowType :=
  ⟨"user_conversation_state", ["dialogueState", "lastMessageId", "recording"], []⟩

def userConversationHistory : RowType :=
  ⟨"user_conversation_history", ["conversationId", "messageId", "message"], ["conversationId", "messageId"]⟩

def rows : List RowType :=
  [userApp, userChannel, userConversation, userPreference, userConversationState, userConversationHistory]

def newRow (name : String) : Option RowType := rows.find? (·.tableName = name)

variable {V J : Type} [DecidableEq V]

structure Row (V : Type) where
  key : Key
  values : List V
  deriving DecidableEq, Repr

/-- The rows of a table. -/
abbrev Rows (V : Type) := AList fun _ : Key => List V

def column (t : RowType) (values : List V) (field : String) : Option V := values[t.fields.idxOf field]?

structure Filter (J : Type) where
  key : String
  operator : String
  value : J

structure SearchParams (J : Type) where
  filter : List (Filter J)
  sort : List String
  limit : Int

/-- How MySQL compares columns. -/
structure Comparisons (V J : Type) where
  equals : Option V → String → Bool
  compare : Option V → String → J → Bool
  before : Option V → Option V → Bool

/-- Another row of the user that has the same unique columns. -/
def conflicts (t : RowType) (row : Row V) (e : Sigma fun _ : Key => List V) : Bool :=
  t.unique ≠ [] && e.1.userID = row.key.userID && e.1 ≠ row.key &&
    t.unique.all fun field => column t e.2 field = column t row.values field

/-- `insert .. on duplicate key update`; the key is looked at first. -/
def upsert (t : RowType) (table : Rows V) (row : Row V) : Except Error (Rows V) :=
  match table.entries.find? (conflicts t row) with
  | none => .ok (table.insert row.key row.values)
  | some e =>
    if table.lookup row.key = none then .ok (table.insert e.1 row.values)
    else .error .duplicateEntry

def rowsOf (table : Rows V) (userID : Int) : List (Row V) :=
  (table.entries.filter (·.1.userID = userID)).map fun e => ⟨e.1, e.2⟩

variable (cmp : Comparisons V J) (t : RowType) (table : Rows V) (fates : List Fate)

def GetAll (userID : Int) : Result (List (Row V)) := ask (query (rowsOf · userID)) table fates

def GetByField (userID : Int) (field value : String) : Result (List (Row V)) :=
  ask (query fun table => (rowsOf table userID).filter fun row => cmp.equals (column t row.values field) value) table fates

/-- Limits that are not positive are none. -/
def search (userID : Int) (params : SearchParams J) (field direction : String) (table : Rows V) : List (Row V) :=
  let found := (rowsOf table userID).filter fun row =>
    params.filter.all fun f => cmp.compare (column t row.values f.key) f.operator f.value
  let sorted := found.mergeSort fun a b =>
    if direction = "desc" then cmp.before (column t b.values field) (column t a.values field)
    else cmp.before (column t a.values field) (column t b.values field)
  if 0 < params.limit then sorted.take params.limit.toNat else sorted

def Search (userID : Int) (params : SearchParams J) : Result (List (Row V)) :=
  match params.sort with
  | field :: direction :: _ => ask (query (search cmp t userID params field direction)) table fates
  | _ => .error .panic

def invalidKey (key : Key) : Bool := key.uniqueID = "" || key.userID = 0

def GetOne (key : Key) : Result (Row V) :=
  if invalidKey key then .error (.error .invalidKey)
  else
    ask (statement fun table =>
      match table.lookup key with
      | some values => .ok (⟨key, values⟩, table)
      | none => .error .recordNotFound) table fates

def InsertOne (row : Row V) : Rows V × Result Unit :=
  if invalidKey row.key then (table, .error (.error .invalidKey))
  else
    transaction (statement fun table =>
      match upsert t table row with
      | .ok table => .ok ((), table)
      | .error err => .error err) table fates

def DeleteOne (key : Key) : Rows V × Result Unit :=
  if invalidKey key then (table, .error (.error .invalidKey))
  else transaction (statement fun table => .ok ((), table.erase key)) table fates

end GenieCloud.Sql.LocalTable
