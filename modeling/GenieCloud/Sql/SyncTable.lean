/-
  GenieCloud.Sql.SyncTable — the synced table of the database proxy
  (`go/sql/sync_table.go` over `UserDevice`, the only row `registerSyncRow` registers).

  Two tables share their primary key: `user_device` (the live rows, `state` not null) and
  `user_device_journal` (one timestamp per key ever written). A sync record is the join of
  the two. `insert` upserts both, `delete` removes the live row and upserts the journal;
  the `IfRecent` forms do so only when the journal has no row for the key or an older one.
  `handleChanges` picks one of them per record by its discriminator (a non-empty state).

  A query that fails rolls its transaction back: the functions on a transaction return
  `Except`, the exported ones pair the result with the database left behind. The one
  failure modelled is the not-null column; lengths of columns are not.

  `change` and `accepts` say what one record of `handleChanges` does, and
  `handleChanges_eq` that the list never fails and does just that, record by record.
-/

import Mathlib.Data.List.AList

namespace GenieCloud.Sql.SyncTable

structure Key where
  uniqueID : String
  userID : Int
  deriving DecidableEq, Repr

structure UserDevice where
  key : Key
  state : Option String
  deriving DecidableEq, Repr

structure UserDeviceJournal where
  key : Key
  lastModified : Int
  deriving DecidableEq, Repr

structure UserDeviceSyncRecord where
  journalRow : UserDeviceJournal
  state : Option String
  deriving DecidableEq, Repr

namespace UserDeviceSyncRecord

def row (r : UserDeviceSyncRecord) : UserDevice := ⟨r.journalRow.key, r.state⟩

def getLastModified (r : UserDeviceSyncRecord) : Int := r.journalRow.lastModified

def hasDiscriminator (r : UserDeviceSyncRecord) : Bool :=
  match r.state with
  | some state => state != ""
  | none => false

def uniqueID (r : UserDeviceSyncRecord) : String := r.journalRow.key.uniqueID

/-- `key.UserID = userID; sr.JournalRow().SetKey(key)`. -/
def setUserID (r : UserDeviceSyncRecord) (userID : Int) : UserDeviceSyncRecord :=
  { r with journalRow := { r.journalRow with key := ⟨r.uniqueID, userID⟩ } }

end UserDeviceSyncRecord

def UserDevice.newSyncRecord (e : UserDevice) (lastModified : Int) : UserDeviceSyncRecord :=
  ⟨⟨e.key, lastModified⟩, e.state⟩

structure DB where
  userDevice : AList fun _ : Key => String
  userDeviceJournal : AList fun _ : Key => Int

def DB.empty : DB := ⟨∅, ∅⟩

inductive DBError where
  | notNull
  deriving DecidableEq, Repr

/-! ## Inside a transaction -/

def insert (tx : DB) (sr : UserDeviceSyncRecord) : Except DBError (DB × Int) :=
  match sr.row.state with
  | none => .error .notNull
  | some state =>
    .ok ({ userDevice := tx.userDevice.insert sr.row.key state
           userDeviceJournal := tx.userDeviceJournal.insert sr.journalRow.key sr.getLastModified },
      sr.getLastModified)

def delete (tx : DB) (sr : UserDeviceSyncRecord) : Except DBError (DB × Int) :=
  .ok ({ userDevice := tx.userDevice.erase sr.row.key
         userDeviceJournal := tx.userDeviceJournal.insert sr.journalRow.key sr.getLastModified },
    sr.getLastModified)

/-- `result.RowsAffected > 0 && row.LastModified >= sr.GetLastModified()`. -/
def stale (tx : DB) (sr : UserDeviceSyncRecord) : Bool :=
  match tx.userDeviceJournal.lookup sr.journalRow.key with
  | some lastModified => lastModified ≥ sr.getLastModified
  | none => false

def insertIfRecent (tx : DB) (sr : UserDeviceSyncRecord) : Except DBError (DB × Bool) :=
  if stale tx sr then .ok (tx, false)
  else
    match insert tx sr with
    | .error err => .error err
    | .ok (tx, _) => .ok (tx, true)

def deleteIfRecent (tx : DB) (sr : UserDeviceSyncRecord) : Except DBError (DB × Bool) :=
  if stale tx sr then .ok (tx, false)
  else
    match delete tx sr with
    | .error err => .error err
    | .ok (tx, _) => .ok (tx, true)

/-- One turn of the loop in `handleChanges`. -/
def handleChange (tx : DB) (sr : UserDeviceSyncRecord) (userID : Int) : Except DBError (DB × Bool) :=
  let sr := sr.setUserID userID
  if sr.uniqueID = "" then .ok (tx, false)
  else if sr.hasDiscriminator then insertIfRecent tx sr
  else deleteIfRecent tx sr

def handleChanges (tx : DB) (changes : List UserDeviceSyncRecord) (userID : Int) : Except DBError (DB × List Bool) :=
  match changes with
  | [] => .ok (tx, [])
  | sr :: changes =>
    match handleChange tx sr userID with
    | .error err => .error err
    | .ok (tx, res) =>
      match handleChanges tx changes userID with
      | .error err => .error err
      | .ok (tx, results) => .ok (tx, res :: results)

/-- The left outer join of the journal with the live rows. -/
def join (db : DB) (j : UserDeviceJournal) : UserDeviceSyncRecord := ⟨j, db.userDevice.lookup j.key⟩

def journalRows (db : DB) (userID : Int) : List UserDeviceJournal :=
  (db.userDeviceJournal.entries.map fun e => ⟨e.1, e.2⟩).filter (·.key.userID = userID)

def getChangesAfter (db : DB) (lastModified userID : Int) : List UserDeviceSyncRecord :=
  ((journalRows db userID).filter (·.lastModified > lastModified)).map (join db)

/-- `max(lastModified)`; over no rows it is null, which scans as 0. -/
def getLastModified (db : DB) (userID : Int) : Int :=
  ((journalRows db userID).map (·.lastModified)).max?.getD 0

/-- `delete from user_device(_journal) where userId = ?`. -/
def deleteUser {β : Type} (t : AList fun _ : Key => β) (userID : Int) : AList fun _ : Key => β :=
  ⟨t.entries.filter (·.1.userID ≠ userID), List.NodupKeys.sublist List.filter_sublist t.nodupKeys⟩

/-! ## The exported operations -/

/-- `db.Transaction`: a failure leaves the database as it was. -/
def transaction {α : Type} (db : DB) (f : DB → Except DBError (DB × α)) : DB × Except DBError α :=
  match f db with
  | .ok (tx, a) => (tx, .ok a)
  | .error err => (db, .error err)

def getRaw (db : DB) (userID : Int) : List UserDeviceSyncRecord := (journalRows db userID).map (join db)

def HandleChanges (db : DB) (changes : List UserDeviceSyncRecord) (userID : Int) :
    DB × Except DBError (List Bool) :=
  transaction db fun tx => handleChanges tx changes userID

structure SyncAtResult where
  lastModified : Int
  ourChanges : List UserDeviceSyncRecord
  done : List Bool
  deriving DecidableEq, Repr

def SyncAt (db : DB) (lastModified userID : Int) (pushedChanges : List UserDeviceSyncRecord) :
    DB × Except DBError SyncAtResult :=
  transaction db fun tx =>
    let ourChange := getChangesAfter tx lastModified userID
    let latest := getLastModified tx userID
    match handleChanges tx pushedChanges userID with
    | .error err => .error err
    | .ok (tx, done) => .ok (tx, ⟨latest, ourChange, done⟩)

def replaceRows (tx : DB) (rows : List UserDeviceSyncRecord) (userID : Int) : Except DBError (DB × Unit) :=
  match rows with
  | [] => .ok (tx, ())
  | row :: rows =>
    if !row.hasDiscriminator then replaceRows tx rows userID
    else
      let row := row.setUserID userID
      if row.uniqueID = "" then replaceRows tx rows userID
      else
        match insert tx row with
        | .error err => .error err
        | .ok (tx, _) => replaceRows tx rows userID

def ReplaceAll (db : DB) (rows : List UserDeviceSyncRecord) (userID : Int) : DB × Except DBError Unit :=
  if rows = [] then (db, .ok ())
  else
    transaction db fun tx =>
      replaceRows ⟨deleteUser tx.userDevice userID, deleteUser tx.userDeviceJournal userID⟩ rows userID

def InsertIfRecent (db : DB) (row : UserDevice) (lastModified : Int) : DB × Except DBError Bool :=
  transaction db fun tx => insertIfRecent tx (row.newSyncRecord lastModified)

def InsertOne (db : DB) (row : UserDevice) (nowMillis : Int) : DB × Except DBError Int :=
  transaction db fun tx => insert tx (row.newSyncRecord nowMillis)

def DeleteIfRecent (db : DB) (row : UserDevice) (lastModified : Int) : DB × Except DBError Bool :=
  transaction db fun tx => deleteIfRecent tx (row.newSyncRecord lastModified)

def DeleteOne (db : DB) (row : UserDevice) (nowMillis : Int) : DB × Except DBError Int :=
  transaction db fun tx => delete tx (row.newSyncRecord nowMillis)

/-! ## What one record does -/

/-- The live row a record stands for: none for a tombstone. -/
def payload (sr : UserDeviceSyncRecord) : Option String := if sr.hasDiscriminator then sr.state else none

/-- The two tables once `sr` is written under its own key: `state` live, or no live row. -/
def put (db : DB) (k : Key) (lastModified : Int) (state : Option String) : DB :=
  { userDevice := match state with
      | some s => db.userDevice.insert k s
      | none => db.userDevice.erase k
    userDeviceJournal := db.userDeviceJournal.insert k lastModified }

def accepts (db : DB) (sr : UserDeviceSyncRecord) (userID : Int) : Bool :=
  sr.uniqueID ≠ "" && !stale db (sr.setUserID userID)

def change (userID : Int) (db : DB) (sr : UserDeviceSyncRecord) : DB :=
  if accepts db sr userID then put db ⟨sr.uniqueID, userID⟩ sr.getLastModified (payload sr) else db

def changes (userID : Int) (db : DB) (l : List UserDeviceSyncRecord) : DB := l.foldl (change userID) db

def results (userID : Int) (db : DB) : List UserDeviceSyncRecord → List Bool
  | [] => []
  | sr :: l => accepts db sr userID :: results userID (change userID db sr) l

@[simp] theorem changes_nil (userID : Int) (db : DB) : changes userID db [] = db := rfl

@[simp] theorem changes_cons (userID : Int) (db : DB) (sr : UserDeviceSyncRecord) (l : List UserDeviceSyncRecord) :
    changes userID db (sr :: l) = changes userID (change userID db sr) l := rfl

theorem put_journal (db : DB) (k k' : Key) (t : Int) (s : Option String) :
    (put db k t s).userDeviceJournal.lookup k' = if k' = k then some t else db.userDeviceJournal.lookup k' := by
  unfold put
  by_cases h : k' = k
  · rw [h, if_pos rfl]; exact AList.lookup_insert _
  · rw [if_neg h]; exact AList.lookup_insert_ne h

theorem put_row (db : DB) (k k' : Key) (t : Int) (s : Option String) :
    (put db k t s).userDevice.lookup k' = if k' = k then s else db.userDevice.lookup k' := by
  by_cases h : k' = k
  · subst h
    rw [if_pos rfl]
    cases s with
    | none => exact AList.lookup_erase _ _
    | some s => exact AList.lookup_insert _
  · rw [if_neg h]
    cases s with
    | none => exact AList.lookup_erase_ne h
    | some s => exact AList.lookup_insert_ne h

theorem insert_eq (tx : DB) (sr : UserDeviceSyncRecord) (s : String) (h : sr.state = some s) :
    insert tx sr = .ok (put tx sr.journalRow.key sr.getLastModified (some s), sr.getLastModified) := by
  simp only [insert, UserDeviceSyncRecord.row, h, put]

theorem delete_eq (tx : DB) (sr : UserDeviceSyncRecord) :
    delete tx sr = .ok (put tx sr.journalRow.key sr.getLastModified none, sr.getLastModified) := rfl

theorem state_of_discriminator {sr : UserDeviceSyncRecord} (h : sr.hasDiscriminator = true) :
    ∃ s, sr.state = some s ∧ s ≠ "" ∧ payload sr = some s := by
  cases hs : sr.state with
  | none => simp [UserDeviceSyncRecord.hasDiscriminator, hs] at h
  | some s => exact ⟨s, rfl, by simpa [UserDeviceSyncRecord.hasDiscriminator, hs] using h, by simp [payload, h, hs]⟩

theorem payload_ne_empty (sr : UserDeviceSyncRecord) : payload sr ≠ some "" := by
  unfold payload
  split
  · rename_i h
    obtain ⟨s, hs, hne, -⟩ := state_of_discriminator h
    rw [hs]; simpa using hne
  · simp

/-- One turn of the loop never fails. -/
theorem handleChange_eq (tx : DB) (sr : UserDeviceSyncRecord) (userID : Int) :
    handleChange tx sr userID = .ok (change userID tx sr, accepts tx sr userID) := by
  have hu : (sr.setUserID userID).uniqueID = sr.uniqueID := rfl
  have hd : (sr.setUserID userID).hasDiscriminator = sr.hasDiscriminator := rfl
  simp only [handleChange, hu, hd]
  by_cases h0 : sr.uniqueID = ""
  · simp [h0, change, accepts]
  rw [if_neg h0]
  cases hst : stale tx (sr.setUserID userID) with
  | true =>
    have ha : accepts tx sr userID = false := by simp [accepts, hst]
    simp only [insertIfRecent, deleteIfRecent, hst, if_true, ite_self, change, ha, Bool.false_eq_true, if_false]
  | false =>
    have ha : accepts tx sr userID = true := by simp [accepts, hst, h0]
    simp only [change, ha, if_true]
    cases hdisc : sr.hasDiscriminator with
    | true =>
      obtain ⟨s, hs, -, hp⟩ := state_of_discriminator hdisc
      have hi := insert_eq tx (sr.setUserID userID) s hs
      simp only [if_true, insertIfRecent, hst, Bool.false_eq_true, if_false, hi, hp]; rfl
    | false =>
      simp only [Bool.false_eq_true, if_false, deleteIfRecent, hst, delete_eq, payload, hdisc]; rfl

theorem handleChanges_eq (tx : DB) (l : List UserDeviceSyncRecord) (userID : Int) :
    handleChanges tx l userID = .ok (changes userID tx l, results userID tx l) := by
  induction l generalizing tx with
  | nil => rfl
  | cons sr l ih => simp only [handleChanges, handleChange_eq, ih]; rfl

theorem HandleChanges_eq (db : DB) (l : List UserDeviceSyncRecord) (userID : Int) :
    HandleChanges db l userID = (changes userID db l, .ok (results userID db l)) := by
  simp only [HandleChanges, transaction, handleChanges_eq]

/-- What `SyncAt` answers: the state before the pushed records, and their results. -/
def answer (db : DB) (lastModified userID : Int) (l : List UserDeviceSyncRecord) : SyncAtResult :=
  ⟨getLastModified db userID, getChangesAfter db lastModified userID, results userID db l⟩

theorem SyncAt_eq (db : DB) (lastModified userID : Int) (l : List UserDeviceSyncRecord) :
    SyncAt db lastModified userID l = (changes userID db l, .ok (answer db lastModified userID l)) := by
  simp only [SyncAt, transaction, handleChanges_eq, answer]

/-- A record of `ReplaceAll`: written if it has a discriminator and a unique id. -/
def place (userID : Int) (db : DB) (row : UserDeviceSyncRecord) : DB :=
  if row.hasDiscriminator ∧ row.uniqueID ≠ "" then
    put db ⟨row.uniqueID, userID⟩ row.getLastModified (payload row)
  else db

theorem replaceRows_eq (tx : DB) (rows : List UserDeviceSyncRecord) (userID : Int) :
    replaceRows tx rows userID = .ok (rows.foldl (place userID) tx, ()) := by
  induction rows generalizing tx with
  | nil => rfl
  | cons row rows ih =>
    have hu : (row.setUserID userID).uniqueID = row.uniqueID := rfl
    cases hd : row.hasDiscriminator with
    | false => simp [replaceRows, hd, ih, place]
    | true =>
      by_cases h0 : row.uniqueID = ""
      · simp [replaceRows, hd, hu, h0, ih, place]
      · obtain ⟨s, hs, -, hp⟩ := state_of_discriminator hd
        have hi := insert_eq tx (row.setUserID userID) s hs
        have hpl : place userID tx row = put tx ⟨row.uniqueID, userID⟩ row.getLastModified (some s) := by
          rw [place, if_pos ⟨hd, h0⟩, hp]
        simp only [replaceRows, hd, hu, h0, hi, ih, List.foldl_cons, hpl, Bool.not_true, Bool.false_eq_true, if_false]
        rfl

def cleared (db : DB) (userID : Int) : DB :=
  ⟨deleteUser db.userDevice userID, deleteUser db.userDeviceJournal userID⟩

theorem ReplaceAll_eq (db : DB) (rows : List UserDeviceSyncRecord) (userID : Int) :
    (ReplaceAll db rows userID).1 = if rows = [] then db else rows.foldl (place userID) (cleared db userID) := by
  unfold ReplaceAll
  split
  · rfl
  · simp only [transaction, replaceRows_eq, cleared]

theorem deleteUser_lookup {β : Type} (t : AList fun _ : Key => β) (userID : Int) (k : Key) :
    (deleteUser t userID).lookup k = if k.userID = userID then none else t.lookup k := by
  ext v
  rw [← Option.mem_def, AList.mem_lookup_iff, deleteUser, List.mem_filter, ← AList.mem_lookup_iff]
  by_cases h : k.userID = userID <;> simp [h]

/-- `InsertOne` writes the row it was given, whatever its state, unless it is null. -/
theorem InsertOne_eq (db : DB) (row : UserDevice) (now : Int) :
    (InsertOne db row now).1 = match row.state with
      | some s => put db row.key now (some s)
      | none => db := by
  cases hs : row.state with
  | none => simp [InsertOne, transaction, insert, UserDevice.newSyncRecord, UserDeviceSyncRecord.row, hs]
  | some s =>
    have := insert_eq db (row.newSyncRecord now) s (by simp [UserDevice.newSyncRecord, hs])
    simp only [InsertOne, transaction, this]; rfl

theorem InsertIfRecent_eq (db : DB) (row : UserDevice) (t : Int) :
    (InsertIfRecent db row t).1 = if stale db (row.newSyncRecord t) then db else (InsertOne db row t).1 := by
  cases hst : stale db (row.newSyncRecord t) with
  | true => simp [InsertIfRecent, transaction, insertIfRecent, hst]
  | false =>
    simp only [InsertIfRecent, InsertOne, transaction, insertIfRecent, hst, Bool.false_eq_true, if_false]
    cases insert db (row.newSyncRecord t) <;> rfl

theorem DeleteOne_eq (db : DB) (row : UserDevice) (now : Int) :
    (DeleteOne db row now).1 = put db row.key now none := rfl

theorem DeleteIfRecent_eq (db : DB) (row : UserDevice) (t : Int) :
    (DeleteIfRecent db row t).1 = if stale db (row.newSyncRecord t) then db else put db row.key t none := by
  cases hst : stale db (row.newSyncRecord t) with
  | true => simp [DeleteIfRecent, transaction, deleteIfRecent, hst]
  | false => simp only [DeleteIfRecent, transaction, deleteIfRecent, hst, Bool.false_eq_true, if_false]; rfl

/-! ## Rows of the journal -/

theorem mem_journalRows {db : DB} {userID : Int} {j : UserDeviceJournal} :
    j ∈ journalRows db userID ↔ db.userDeviceJournal.lookup j.key = some j.lastModified ∧ j.key.userID = userID := by
  unfold journalRows
  rw [List.mem_filter, decide_eq_true_eq, and_congr_left_iff]
  intro _
  rw [← Option.mem_def, AList.mem_lookup_iff, List.mem_map]
  constructor
  · rintro ⟨e, he, rfl⟩; exact he
  · intro h; exact ⟨_, h, rfl⟩

theorem mem_getChangesAfter {db : DB} {lastModified userID : Int} {j : UserDeviceJournal} :
    join db j ∈ getChangesAfter db lastModified userID ↔ j ∈ journalRows db userID ∧ lastModified < j.lastModified := by
  unfold getChangesAfter
  constructor
  · intro h
    obtain ⟨j', hj', he⟩ := List.mem_map.mp h
    have : j' = j := congrArg (·.journalRow) he
    subst this
    simpa using List.mem_filter.mp hj'
  · intro ⟨h, hlt⟩
    exact List.mem_map.mpr ⟨j, List.mem_filter.mpr ⟨h, by simpa using hlt⟩, rfl⟩

end GenieCloud.Sql.SyncTable
