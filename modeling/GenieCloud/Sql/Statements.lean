/-
  GenieCloud.Sql.Statements — the operations of `go/sql/sync_table.go`, one statement
  after the other, any of which can fail.

  `Sql.SyncTable` says what an operation does when the database answers. Here each
  operation sends its statements one by one inside `db.Transaction`, and an error, a
  null record of the request (a nil pointer, which panics where it is first used) or a
  lost connection ends it. gorm refuses to delete by a key that is all zero.

  The `_done` lemmas: an operation that got to its end did what the one of
  `Sql.SyncTable` does, so the tables are always as that one leaves them or as they
  were (`transaction_spec`). The `_works` lemmas: while every statement works, it does
  get there.
-/

import GenieCloud.Lib.Transaction
import GenieCloud.Sql.SyncTable

namespace GenieCloud.Sql.Statements

open GenieCloud.Lib.Transaction GenieCloud.Sql.SyncTable

inductive Error where
  | notNull
  | duplicateEntry
  | missingWhereClause
  | invalidKey
  | recordNotFound
  deriving DecidableEq, Repr

abbrev Tx (α : Type) := Lib.Transaction.Tx DB Error α

abbrev Result (α : Type) := Except (Failure Error) α

/-! ## Statements -/

/-- `Create` of a live row, updating the one that has its key. -/
def createRow (row : UserDevice) : Tx Unit := statement fun tx =>
  match row.state with
  | none => .error .notNull
  | some state => .ok ((), { tx with userDevice := tx.userDevice.insert row.key state })

def createJournalRow (row : UserDeviceJournal) : Tx Unit := statement fun tx =>
  .ok ((), { tx with userDeviceJournal := tx.userDeviceJournal.insert row.key row.lastModified })

def deleteRow (row : UserDevice) : Tx Unit := statement fun tx =>
  if row.key = ⟨"", 0⟩ then .error .missingWhereClause
  else .ok ((), { tx with userDevice := tx.userDevice.erase row.key })

def deleteRowsOf (userID : Int) : Tx Unit := statement fun tx =>
  .ok ((), { tx with userDevice := deleteUser tx.userDevice userID })

def deleteJournalOf (userID : Int) : Tx Unit := statement fun tx =>
  .ok ((), { tx with userDeviceJournal := deleteUser tx.userDeviceJournal userID })

/-! ## Inside a transaction -/

def insert (sr : UserDeviceSyncRecord) : Tx Int := do
  createRow sr.row
  createJournalRow sr.journalRow
  return sr.getLastModified

def delete (sr : UserDeviceSyncRecord) : Tx Int := do
  deleteRow sr.row
  createJournalRow sr.journalRow
  return sr.getLastModified

def insertIfRecent (sr : UserDeviceSyncRecord) : Tx Bool := do
  let older ← query (stale · sr)
  if older then return false
  else
    let _ ← insert sr
    return true

def deleteIfRecent (sr : UserDeviceSyncRecord) : Tx Bool := do
  let older ← query (stale · sr)
  if older then return false
  else
    let _ ← delete sr
    return true

/-- One turn of the loop in `handleChanges`. -/
def handleChange (sr : UserDeviceSyncRecord) (userID : Int) : Tx Bool :=
  let sr := sr.setUserID userID
  if sr.uniqueID = "" then pure false
  else if sr.hasDiscriminator then insertIfRecent sr
  else deleteIfRecent sr

def handleChanges (userID : Int) : List (Option UserDeviceSyncRecord) → Tx (List Bool)
  | [] => pure []
  | none :: _ => panic
  | some sr :: changes => do
    let res ← handleChange sr userID
    let results ← handleChanges userID changes
    return res :: results

def replaceRows (userID : Int) : List (Option UserDeviceSyncRecord) → Tx Unit
  | [] => pure ()
  | none :: _ => panic
  | some row :: rows =>
    if !row.hasDiscriminator then replaceRows userID rows
    else
      let row := row.setUserID userID
      if row.uniqueID = "" then replaceRows userID rows
      else do
        let _ ← insert row
        replaceRows userID rows

/-! ## The exported operations -/

variable (db : DB) (fates : List Fate)

def GetAll (userID : Int) : Result (List UserDevice) :=
  ask (query fun tx => (tx.userDevice.entries.map fun e => (⟨e.1, some e.2⟩ : UserDevice)).filter (·.key.userID = userID))
    db fates

def GetOne (key : Key) : Result UserDevice :=
  if key.uniqueID = "" ∨ key.userID = 0 then .error (.error .invalidKey)
  else
    ask (statement fun tx =>
      match tx.userDevice.lookup key with
      | some state => .ok (⟨key, some state⟩, tx)
      | none => .error .recordNotFound) db fates

def GetRaw (userID : Int) : Result (List UserDeviceSyncRecord) := ask (query (getRaw · userID)) db fates

def GetChangesAfter (lastModified userID : Int) : Result (List UserDeviceSyncRecord) :=
  ask (query (getChangesAfter · lastModified userID)) db fates

def HandleChanges (changes : List (Option UserDeviceSyncRecord)) (userID : Int) : DB × Result (List Bool) :=
  transaction (handleChanges userID changes) db fates

def syncAt (lastModified userID : Int) (pushedChanges : List (Option UserDeviceSyncRecord)) : Tx SyncAtResult := do
  let ourChange ← query (getChangesAfter · lastModified userID)
  let latest ← query (getLastModified · userID)
  let done ← handleChanges userID pushedChanges
  return ⟨latest, ourChange, done⟩

def SyncAt (lastModified userID : Int) (pushedChanges : List (Option UserDeviceSyncRecord)) : DB × Result SyncAtResult :=
  transaction (syncAt lastModified userID pushedChanges) db fates

def replaceAll (rows : List (Option UserDeviceSyncRecord)) (userID : Int) : Tx Unit :=
  -- the tables' names are asked of the first record
  if rows.head? = some none then panic
  else do
    deleteRowsOf userID
    deleteJournalOf userID
    replaceRows userID rows

def ReplaceAll (rows : List (Option UserDeviceSyncRecord)) (userID : Int) : DB × Result Unit :=
  if rows = [] then (db, .ok ()) else transaction (replaceAll rows userID) db fates

def InsertIfRecent (row : UserDevice) (lastModified : Int) : DB × Result Bool :=
  transaction (insertIfRecent (row.newSyncRecord lastModified)) db fates

def InsertOne (row : UserDevice) (nowMillis : Int) : DB × Result Int :=
  transaction (insert (row.newSyncRecord nowMillis)) db fates

def DeleteIfRecent (row : UserDevice) (lastModified : Int) : DB × Result Bool :=
  transaction (deleteIfRecent (row.newSyncRecord lastModified)) db fates

def DeleteOne (row : UserDevice) (nowMillis : Int) : DB × Result Int :=
  transaction (delete (row.newSyncRecord nowMillis)) db fates

/-! ## What an operation that got to its end did -/

variable {tx : DB}

theorem insert_done (tx : DB) (sr : UserDeviceSyncRecord) :
    Triple (· = tx) (insert sr) fun t tx' => SyncTable.insert tx sr = .ok (tx', t) := by
  have hrow : Triple (· = tx) (createRow sr.row) fun _ tx' => ∃ state, sr.row.state = some state ∧
      tx' = { tx with userDevice := tx.userDevice.insert sr.row.key state } := by
    refine Triple.statement ?_
    intro s a t hs h
    subst hs
    split at h
    · cases h
    · rename_i state hst
      cases h
      exact ⟨state, hst, rfl⟩
  refine hrow.bind ?_
  intro _
  refine Triple.bind (Q := fun _ tx' => SyncTable.insert tx sr = .ok (tx', sr.getLastModified)) ?_ ?_
  · refine Triple.statement ?_
    intro s a t hs h
    obtain ⟨state, hst, rfl⟩ := hs
    cases h
    rw [SyncTable.insert, hst]
    rfl
  · intro _
    exact Triple.pure fun s hs => hs

theorem delete_done (tx : DB) (sr : UserDeviceSyncRecord) :
    Triple (· = tx) (delete sr) fun t tx' => SyncTable.delete tx sr = .ok (tx', t) := by
  refine Triple.bind (Q := fun _ tx' => tx' = { tx with userDevice := tx.userDevice.erase sr.row.key }) ?_ ?_
  · refine Triple.statement ?_
    intro s a t hs h
    subst hs
    split at h
    · cases h
    · cases h
      rfl
  intro _
  refine Triple.bind (Q := fun _ tx' => SyncTable.delete tx sr = .ok (tx', sr.getLastModified)) ?_ ?_
  · refine Triple.statement ?_
    intro s a t hs h
    subst hs
    cases h
    rfl
  · intro _
    exact Triple.pure fun s hs => hs

/-- What the two `IfRecent` forms share: `write` is done unless the journal is as recent. -/
theorem ifRecent_done {write : Tx Int} (write' : DB → Except DBError (DB × Int)) (sr : UserDeviceSyncRecord)
    (h : Triple (· = tx) write fun t tx' => write' tx = .ok (tx', t)) :
    Triple (· = tx) (do
        let older ← query (stale · sr)
        if older then return false
        else
          let _ ← write
          return true)
      fun done tx' => (if stale tx sr then .ok (tx, false)
        else match write' tx with
          | .error err => .error err
          | .ok (tx, _) => .ok (tx, true) : Except DBError (DB × Bool)) = .ok (tx', done) := by
  refine Triple.bind (Q := fun older tx' => tx' = tx ∧ older = stale tx sr) ?_ ?_
  · exact Triple.query fun s hs => ⟨hs, by rw [hs]⟩
  intro older
  refine Triple.ite ?_ ?_
  · intro ho
    refine Triple.pure ?_
    intro s hs
    obtain ⟨rfl, hst⟩ := hs
    rw [← hst, if_pos ho]
  · intro ho
    refine Triple.bind (Q := fun t tx' => older = stale tx sr ∧ write' tx = .ok (tx', t)) ?_ ?_
    · intro s fates a t fates' hs he
      exact ⟨hs.2, h s fates a t fates' hs.1 he⟩
    · intro t
      refine Triple.pure ?_
      intro s hs
      rw [← hs.1, if_neg ho, hs.2]

theorem insertIfRecent_done (tx : DB) (sr : UserDeviceSyncRecord) :
    Triple (· = tx) (insertIfRecent sr) fun done tx' => SyncTable.insertIfRecent tx sr = .ok (tx', done) :=
  ifRecent_done (SyncTable.insert · sr) sr (insert_done tx sr)

theorem deleteIfRecent_done (tx : DB) (sr : UserDeviceSyncRecord) :
    Triple (· = tx) (deleteIfRecent sr) fun done tx' => SyncTable.deleteIfRecent tx sr = .ok (tx', done) :=
  ifRecent_done (SyncTable.delete · sr) sr (delete_done tx sr)

theorem handleChange_done (tx : DB) (sr : UserDeviceSyncRecord) (userID : Int) :
    Triple (· = tx) (handleChange sr userID) fun res tx' => SyncTable.handleChange tx sr userID = .ok (tx', res) := by
  simp only [handleChange, SyncTable.handleChange]
  refine Triple.ite ?_ ?_
  · intro h0
    refine Triple.pure ?_
    intro s hs
    rw [if_pos h0, hs]
  · intro h0
    rw [if_neg h0]
    refine Triple.ite ?_ ?_
    · intro hd
      rw [if_pos hd]
      exact insertIfRecent_done tx _
    · intro hd
      rw [if_neg hd]
      exact deleteIfRecent_done tx _

theorem handleChanges_done (tx : DB) (userID : Int) (changes : List (Option UserDeviceSyncRecord)) :
    Triple (· = tx) (handleChanges userID changes) fun results tx' => ∃ l, changes = l.map some ∧
      tx' = SyncTable.changes userID tx l ∧ results = SyncTable.results userID tx l := by
  induction changes generalizing tx with
  | nil => exact Triple.pure fun s hs => ⟨[], rfl, hs, rfl⟩
  | cons change changes ih =>
    cases change with
    | none => exact Triple.panic
    | some sr =>
      refine Triple.bind (handleChange_done tx sr userID) ?_
      intro res
      refine Triple.each fun tx' htx' => ?_
      rw [handleChange_eq, Except.ok.injEq, Prod.mk.injEq] at htx'
      obtain ⟨rfl, rfl⟩ := htx'
      refine Triple.bind (ih _) ?_
      intro results
      refine Triple.pure fun s hs => ?_
      obtain ⟨l, rfl, rfl, rfl⟩ := hs
      exact ⟨sr :: l, rfl, rfl, rfl⟩

theorem syncAt_done (tx : DB) (lastModified userID : Int) (pushed : List (Option UserDeviceSyncRecord)) :
    Triple (· = tx) (syncAt lastModified userID pushed) fun r tx' => ∃ l, pushed = l.map some ∧
      tx' = SyncTable.changes userID tx l ∧ r = answer tx lastModified userID l := by
  refine Triple.bind (Q := fun ours s => s = tx ∧ ours = getChangesAfter tx lastModified userID) ?_ ?_
  · exact Triple.query fun s hs => ⟨hs, by rw [hs]⟩
  intro ours
  refine Triple.bind (Q := fun latest s => s = tx ∧ ours = getChangesAfter tx lastModified userID ∧
    latest = getLastModified tx userID) ?_ ?_
  · exact Triple.query fun s hs => ⟨hs.1, hs.2, by rw [hs.1]⟩
  intro latest
  refine Triple.each fun s hs => ?_
  obtain ⟨rfl, rfl, rfl⟩ := hs
  refine Triple.bind (handleChanges_done s userID pushed) ?_
  intro done
  refine Triple.pure fun t ht => ?_
  obtain ⟨l, rfl, rfl, rfl⟩ := ht
  exact ⟨l, rfl, rfl, rfl⟩

theorem replaceRows_done (tx : DB) (userID : Int) (rows : List (Option UserDeviceSyncRecord)) :
    Triple (· = tx) (replaceRows userID rows) fun _ tx' => ∃ l, rows = l.map some ∧
      SyncTable.replaceRows tx l userID = .ok (tx', ()) := by
  induction rows generalizing tx with
  | nil => exact Triple.pure fun s hs => ⟨[], rfl, by rw [hs]; rfl⟩
  | cons row rows ih =>
    cases row with
    | none => exact Triple.panic
    | some row =>
      have hskip (hrow : ∀ l, SyncTable.replaceRows tx (row :: l) userID = SyncTable.replaceRows tx l userID) :
          Triple (· = tx) (replaceRows userID rows) fun _ tx' => ∃ l, some row :: rows = l.map some ∧
            SyncTable.replaceRows tx l userID = .ok (tx', ()) := by
        refine (ih tx).post ?_
        intro _ t ht
        obtain ⟨l, rfl, hl⟩ := ht
        exact ⟨row :: l, rfl, by rw [hrow, hl]⟩
      simp only [replaceRows]
      refine Triple.ite (fun hd => hskip fun l => ?_) fun hd => Triple.ite (fun h0 => hskip fun l => ?_) fun h0 => ?_
      · rw [SyncTable.replaceRows, if_pos hd]
      · simp only [SyncTable.replaceRows, if_neg hd, if_pos h0]
      · refine Triple.bind (insert_done tx _) ?_
        intro t
        refine Triple.each fun tx' htx' => ?_
        refine (ih tx').post ?_
        intro _ u hu
        obtain ⟨l, rfl, hl⟩ := hu
        refine ⟨row :: l, rfl, ?_⟩
        simp only [SyncTable.replaceRows, if_neg hd, if_neg h0, htx', hl]

theorem replaceAll_done (tx : DB) (rows : List (Option UserDeviceSyncRecord)) (userID : Int) :
    Triple (· = tx) (replaceAll rows userID) fun _ tx' => ∃ l : List UserDeviceSyncRecord, rows = l.map some ∧
      tx' = l.foldl (place userID) (cleared tx userID) := by
  refine Triple.ite (fun _ => Triple.panic) fun _ => ?_
  refine Triple.bind (Q := fun _ s => s = { tx with userDevice := deleteUser tx.userDevice userID }) ?_ ?_
  · refine Triple.statement ?_
    intro s a t hs h
    subst hs
    cases h
    rfl
  intro _
  refine Triple.bind (Q := fun _ s => s = cleared tx userID) ?_ ?_
  · refine Triple.statement ?_
    intro s a t hs h
    subst hs
    cases h
    rfl
  intro _
  refine (replaceRows_done (cleared tx userID) userID rows).post ?_
  intro _ t ht
  obtain ⟨l, hl, ht⟩ := ht
  rw [replaceRows_eq, Except.ok.injEq, Prod.mk.injEq] at ht
  exact ⟨l, hl, ht.1.symm⟩

/-! ## What an operation does while every statement works -/

theorem insert_works (sr : UserDeviceSyncRecord) {s : String} (h : sr.state = some s) :
    Works (insert sr) tx sr.getLastModified (put tx sr.journalRow.key sr.getLastModified (some s)) := by
  have hrow : Works (createRow sr.row) tx () { tx with userDevice := tx.userDevice.insert sr.row.key s } :=
    Works.statement (by simp only [UserDeviceSyncRecord.row, h])
  exact hrow.bind ((Works.statement rfl).bind (Works.pure _ _))

theorem delete_works {sr : UserDeviceSyncRecord} (h : sr.journalRow.key ≠ ⟨"", 0⟩) :
    Works (delete sr) tx sr.getLastModified (put tx sr.journalRow.key sr.getLastModified none) := by
  have hrow : Works (deleteRow sr.row) tx () { tx with userDevice := tx.userDevice.erase sr.row.key } :=
    Works.statement (if_neg h)
  exact hrow.bind ((Works.statement rfl).bind (Works.pure _ _))

theorem ifRecent_works {write : Tx Int} {r : Int} {tx' : DB} (sr : UserDeviceSyncRecord) (h : Works write tx r tx') :
    Works (do
        let older ← query (stale · sr)
        if older then return false
        else
          let _ ← write
          return true) tx (!stale tx sr) (if stale tx sr then tx else tx') := by
  have hq := Works.query (ε := Error) (stale · sr) tx
  cases hst : stale tx sr with
  | true =>
    rw [hst] at hq
    exact hq.bind (Works.pure _ _)
  | false =>
    rw [hst] at hq
    exact hq.bind (h.bind (Works.pure _ _))

theorem insertIfRecent_works (sr : UserDeviceSyncRecord) {s : String} (h : sr.state = some s) :
    Works (insertIfRecent sr) tx (!stale tx sr)
      (if stale tx sr then tx else put tx sr.journalRow.key sr.getLastModified (some s)) :=
  ifRecent_works sr (insert_works sr h)

theorem deleteIfRecent_works {sr : UserDeviceSyncRecord} (h : sr.journalRow.key ≠ ⟨"", 0⟩) :
    Works (deleteIfRecent sr) tx (!stale tx sr)
      (if stale tx sr then tx else put tx sr.journalRow.key sr.getLastModified none) :=
  ifRecent_works sr (delete_works h)

theorem handleChange_works (tx : DB) (sr : UserDeviceSyncRecord) (userID : Int) :
    Works (handleChange sr userID) tx (accepts tx sr userID) (change userID tx sr) := by
  have hd : (sr.setUserID userID).hasDiscriminator = sr.hasDiscriminator := rfl
  have hu : (sr.setUserID userID).uniqueID = sr.uniqueID := rfl
  simp only [handleChange, hu, hd]
  by_cases h0 : sr.uniqueID = ""
  · rw [if_pos h0, change, accepts]
    simpa [h0] using Works.pure false tx
  have ha : accepts tx sr userID = !stale tx (sr.setUserID userID) := by simp [accepts, h0]
  have hch : change userID tx sr = if stale tx (sr.setUserID userID) then tx
      else put tx ⟨sr.uniqueID, userID⟩ sr.getLastModified (payload sr) := by
    rw [change, ha]
    cases stale tx (sr.setUserID userID) <;> rfl
  rw [if_neg h0, ha, hch]
  split
  · rename_i hdisc
    obtain ⟨s, hs, -, hp⟩ := state_of_discriminator hdisc
    rw [hp]
    exact insertIfRecent_works (sr.setUserID userID) hs
  · rename_i hdisc
    have hkey : (sr.setUserID userID).journalRow.key ≠ ⟨"", 0⟩ := by
      intro hk
      exact h0 (congrArg Key.uniqueID hk)
    rw [payload, if_neg hdisc]
    exact deleteIfRecent_works hkey

theorem handleChanges_works (tx : DB) (userID : Int) (l : List UserDeviceSyncRecord) :
    Works (handleChanges userID (l.map some)) tx (results userID tx l) (SyncTable.changes userID tx l) := by
  induction l generalizing tx with
  | nil => exact Works.pure _ _
  | cons sr l ih => exact (handleChange_works tx sr userID).bind ((ih _).bind (Works.pure _ _))

theorem syncAt_works (tx : DB) (lastModified userID : Int) (l : List UserDeviceSyncRecord) :
    Works (syncAt lastModified userID (l.map some)) tx (answer tx lastModified userID l)
      (SyncTable.changes userID tx l) :=
  (Works.query _ tx).bind ((Works.query _ tx).bind ((handleChanges_works tx userID l).bind (Works.pure _ _)))

theorem replaceRows_works (tx : DB) (userID : Int) (l : List UserDeviceSyncRecord) :
    Works (replaceRows userID (l.map some)) tx () (l.foldl (place userID) tx) := by
  induction l generalizing tx with
  | nil => exact Works.pure _ _
  | cons row l ih =>
    have hu : (row.setUserID userID).uniqueID = row.uniqueID := rfl
    simp only [List.map_cons, replaceRows, hu, List.foldl_cons, place]
    cases hd : row.hasDiscriminator with
    | false => simpa [hd] using ih tx
    | true =>
      by_cases h0 : row.uniqueID = ""
      · simpa [h0] using ih tx
      · obtain ⟨s, hs, -, hp⟩ := state_of_discriminator hd
        simp only [h0, hp, ne_eq, not_false_eq_true, and_self, if_true, Bool.not_true, Bool.false_eq_true, if_false]
        exact (insert_works (row.setUserID userID) hs).bind (ih _)

theorem replaceAll_works (tx : DB) (userID : Int) (l : List UserDeviceSyncRecord) :
    Works (replaceAll (l.map some) userID) tx () (l.foldl (place userID) (cleared tx userID)) := by
  have hhead : (l.map some).head? ≠ some none := by cases l <;> simp
  rw [replaceAll, if_neg hhead]
  exact (Works.statement rfl).bind ((Works.statement rfl).bind (replaceRows_works _ userID l))

/-! ## What the exported operations leave -/

/-- Nothing, or what the merge of the records leaves. -/
theorem HandleChanges_left (db : DB) (fates : List Fate) (changes : List (Option UserDeviceSyncRecord)) (userID : Int) :
    (HandleChanges db fates changes userID).1 = db ∨
    ∃ l : List UserDeviceSyncRecord, changes = l.map some ∧
      (HandleChanges db fates changes userID).1 = SyncTable.changes userID db l := by
  rcases transaction_spec (handleChanges_done db userID changes) fates with ⟨h, -⟩ | ⟨_, ⟨l, hl, ht, -⟩, -⟩
  · exact .inl h
  · exact .inr ⟨l, hl, ht⟩

theorem SyncAt_left (db : DB) (fates : List Fate) (lastModified userID : Int)
    (pushed : List (Option UserDeviceSyncRecord)) : (SyncAt db fates lastModified userID pushed).1 = db ∨
    ∃ l : List UserDeviceSyncRecord, pushed = l.map some ∧
      (SyncAt db fates lastModified userID pushed).1 = SyncTable.changes userID db l := by
  rcases transaction_spec (syncAt_done db lastModified userID pushed) fates with ⟨h, -⟩ | ⟨_, ⟨l, hl, ht, -⟩, -⟩
  · exact .inl h
  · exact .inr ⟨l, hl, ht⟩

theorem ReplaceAll_left (db : DB) (fates : List Fate) (rows : List (Option UserDeviceSyncRecord)) (userID : Int) :
    (ReplaceAll db fates rows userID).1 = db ∨
    ∃ l : List UserDeviceSyncRecord, rows = l.map some ∧
      (ReplaceAll db fates rows userID).1 = l.foldl (place userID) (cleared db userID) := by
  unfold ReplaceAll
  split
  · exact .inl rfl
  · rcases transaction_spec (replaceAll_done db rows userID) fates with ⟨h, -⟩ | ⟨_, ⟨l, hl, ht⟩, -⟩
    · exact .inl h
    · exact .inr ⟨l, hl, ht⟩

/-- What is left of an insert that got to its end. -/
theorem insert_left {db db' : DB} {row : UserDevice} {t : Int} {r : Int}
    (h : SyncTable.insert db (row.newSyncRecord t) = .ok (db', r)) :
    ∃ s, row.state = some s ∧ db' = put db row.key t (some s) := by
  cases hs : row.state with
  | none => simp [SyncTable.insert, UserDevice.newSyncRecord, UserDeviceSyncRecord.row, hs] at h
  | some s =>
    rw [insert_eq db (row.newSyncRecord t) s hs] at h
    cases h
    exact ⟨s, rfl, rfl⟩

theorem InsertOne_left (db : DB) (fates : List Fate) (row : UserDevice) (now : Int) :
    (InsertOne db fates row now).1 = db ∨
    ∃ s, row.state = some s ∧ (InsertOne db fates row now).1 = put db row.key now (some s) := by
  rcases transaction_spec (insert_done db (row.newSyncRecord now)) fates with ⟨h, -⟩ | ⟨_, h, -⟩
  · exact .inl h
  · exact .inr (insert_left h)

theorem DeleteOne_left (db : DB) (fates : List Fate) (row : UserDevice) (now : Int) :
    (DeleteOne db fates row now).1 = db ∨ (DeleteOne db fates row now).1 = put db row.key now none := by
  rcases transaction_spec (delete_done db (row.newSyncRecord now)) fates with ⟨h, -⟩ | ⟨_, h, -⟩
  · exact .inl h
  · rw [delete_eq, Except.ok.injEq, Prod.mk.injEq] at h
    exact .inr h.1.symm

theorem insertIfRecent_left {db db' : DB} {row : UserDevice} {t : Int} {r : Bool}
    (h : SyncTable.insertIfRecent db (row.newSyncRecord t) = .ok (db', r)) :
    db' = db ∨ stale db (row.newSyncRecord t) = false ∧ ∃ s, row.state = some s ∧ db' = put db row.key t (some s) := by
  unfold SyncTable.insertIfRecent at h
  split at h
  · cases h
    exact .inl rfl
  · split at h
    · cases h
    · rename_i hst _ _ _ hi
      cases h
      exact .inr ⟨by simpa using hst, insert_left hi⟩

theorem deleteIfRecent_left {db db' : DB} {row : UserDevice} {t : Int} {r : Bool}
    (h : SyncTable.deleteIfRecent db (row.newSyncRecord t) = .ok (db', r)) :
    db' = db ∨ stale db (row.newSyncRecord t) = false ∧ db' = put db row.key t none := by
  unfold SyncTable.deleteIfRecent at h
  split at h
  · cases h
    exact .inl rfl
  · rename_i hst
    rw [delete_eq] at h
    cases h
    exact .inr ⟨by simpa using hst, rfl⟩

theorem InsertIfRecent_left (db : DB) (fates : List Fate) (row : UserDevice) (t : Int) :
    (InsertIfRecent db fates row t).1 = db ∨ stale db (row.newSyncRecord t) = false ∧
      ∃ s, row.state = some s ∧ (InsertIfRecent db fates row t).1 = put db row.key t (some s) := by
  rcases transaction_spec (insertIfRecent_done db (row.newSyncRecord t)) fates with ⟨h, -⟩ | ⟨_, h, -⟩
  · exact .inl h
  · exact insertIfRecent_left h

theorem DeleteIfRecent_left (db : DB) (fates : List Fate) (row : UserDevice) (t : Int) :
    (DeleteIfRecent db fates row t).1 = db ∨ stale db (row.newSyncRecord t) = false ∧
      (DeleteIfRecent db fates row t).1 = put db row.key t none := by
  rcases transaction_spec (deleteIfRecent_done db (row.newSyncRecord t)) fates with ⟨h, -⟩ | ⟨_, h, -⟩
  · exact .inl h
  · exact deleteIfRecent_left h

end GenieCloud.Sql.Statements
