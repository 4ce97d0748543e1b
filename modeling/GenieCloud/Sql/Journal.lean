/-
  GenieCloud.Sql.Journal — the journal beside the live rows, over any run of the
  operations of `go/sql/sync_table.go`.

  `send` runs one operation statement by statement (`Sql.Statements`), `exec` when
  every statement works (`Sql.SyncTable`). `send_eq`: what an operation leaves is what it
  found or what `exec` leaves; `send_works`: the latter while the statements work.

  `journal_complete`: whatever fails and rolls back, every live row has its row in the
  journal, so `GetRaw` lists it and so does a `SyncAt` from before its timestamp.

  `InsertOne` and `DeleteOne` write the server's clock over whatever the journal has. A
  pushed record may carry a later time than the clock, and then its key goes back: a
  client that has seen the pushed time is not told of the local write
  (`pushed_time_goes_back`). `never_back_iff_in_time`: the times of the journal never go
  back and no local write is hidden exactly when the clock is past every cursor at each
  write of a key that the journal has.
-/

import GenieCloud.Lib.Runs
import GenieCloud.Sql.Merge
import GenieCloud.Sql.Statements

namespace GenieCloud.Sql.Journal

open GenieCloud.Lib.Transaction GenieCloud.Lib.Runs GenieCloud.Sql.SyncTable

/-- The operations that write, over the records of their requests. -/
inductive Op (ρ : Type) where
  | syncAt (lastModified userID : Int) (pushedChanges : List ρ)
  | handleChanges (changes : List ρ) (userID : Int)
  | replaceAll (rows : List ρ) (userID : Int)
  | insertOne (row : UserDevice)
  | insertIfRecent (row : UserDevice) (lastModified : Int)
  | deleteOne (row : UserDevice)
  | deleteIfRecent (row : UserDevice) (lastModified : Int)
  deriving DecidableEq

def Op.map {ρ ρ' : Type} (f : ρ → ρ') : Op ρ → Op ρ'
  | .syncAt lastModified userID pushedChanges => .syncAt lastModified userID (pushedChanges.map f)
  | .handleChanges changes userID => .handleChanges (changes.map f) userID
  | .replaceAll rows userID => .replaceAll (rows.map f) userID
  | .insertOne row => .insertOne row
  | .insertIfRecent row lastModified => .insertIfRecent row lastModified
  | .deleteOne row => .deleteOne row
  | .deleteIfRecent row lastModified => .deleteIfRecent row lastModified

/-- The database after an operation at the time `now`, whose statements meet `fates`. -/
def send (db : DB) (fates : List Fate) (now : Int) : Op (Option UserDeviceSyncRecord) → DB
  | .syncAt lastModified userID pushedChanges => (Statements.SyncAt db fates lastModified userID pushedChanges).1
  | .handleChanges changes userID => (Statements.HandleChanges db fates changes userID).1
  | .replaceAll rows userID => (Statements.ReplaceAll db fates rows userID).1
  | .insertOne row => (Statements.InsertOne db fates row now).1
  | .insertIfRecent row lastModified => (Statements.InsertIfRecent db fates row lastModified).1
  | .deleteOne row => (Statements.DeleteOne db fates row now).1
  | .deleteIfRecent row lastModified => (Statements.DeleteIfRecent db fates row lastModified).1

/-- The database after an operation whose statements all work. -/
def exec (db : DB) (now : Int) : Op UserDeviceSyncRecord → DB
  | .syncAt lastModified userID pushedChanges => (SyncAt db lastModified userID pushedChanges).1
  | .handleChanges changes userID => (HandleChanges db changes userID).1
  | .replaceAll rows userID => (ReplaceAll db rows userID).1
  | .insertOne row => (InsertOne db row now).1
  | .insertIfRecent row lastModified => (InsertIfRecent db row lastModified).1
  | .deleteOne row => (DeleteOne db row now).1
  | .deleteIfRecent row lastModified => (DeleteIfRecent db row lastModified).1

theorem send_eq (db : DB) (fates : List Fate) (now : Int) (op : Op (Option UserDeviceSyncRecord)) :
    send db fates now op = db ∨ ∃ op' : Op UserDeviceSyncRecord, op = op'.map some ∧ send db fates now op = exec db now op' := by
  cases op with
  | syncAt lastModified userID pushed =>
    rcases Statements.SyncAt_left db fates lastModified userID pushed with h | ⟨l, rfl, h⟩
    · exact .inl h
    · exact .inr ⟨.syncAt lastModified userID l, rfl, by rw [exec, SyncAt_eq]; exact h⟩
  | handleChanges changes userID =>
    rcases Statements.HandleChanges_left db fates changes userID with h | ⟨l, rfl, h⟩
    · exact .inl h
    · exact .inr ⟨.handleChanges l userID, rfl, by rw [exec, HandleChanges_eq]; exact h⟩
  | replaceAll rows userID =>
    by_cases hnil : rows = []
    · exact .inl (by rw [send, Statements.ReplaceAll, if_pos hnil])
    · rcases Statements.ReplaceAll_left db fates rows userID with h | ⟨l, rfl, h⟩
      · exact .inl h
      · have hl : l ≠ [] := by simpa using hnil
        exact .inr ⟨.replaceAll l userID, rfl, by rw [exec, ReplaceAll_eq, if_neg hl]; exact h⟩
  | insertOne row =>
    rcases Statements.InsertOne_left db fates row now with h | ⟨s, hs, h⟩
    · exact .inl h
    · exact .inr ⟨.insertOne row, rfl, by rw [exec, InsertOne_eq, hs]; exact h⟩
  | insertIfRecent row lastModified =>
    rcases Statements.InsertIfRecent_left db fates row lastModified with h | ⟨hst, s, hs, h⟩
    · exact .inl h
    · refine .inr ⟨.insertIfRecent row lastModified, rfl, ?_⟩
      rw [exec, InsertIfRecent_eq, hst, InsertOne_eq, hs]
      exact h
  | deleteOne row =>
    rcases Statements.DeleteOne_left db fates row now with h | h
    · exact .inl h
    · exact .inr ⟨.deleteOne row, rfl, h⟩
  | deleteIfRecent row lastModified =>
    rcases Statements.DeleteIfRecent_left db fates row lastModified with h | ⟨hst, h⟩
    · exact .inl h
    · exact .inr ⟨.deleteIfRecent row lastModified, rfl, by rw [exec, DeleteIfRecent_eq, hst]; exact h⟩

/-- The key of a row to delete. -/
def deletedKey {ρ : Type} : Op ρ → Option Key
  | .deleteOne row | .deleteIfRecent row _ => some row.key
  | _ => none

/-- While every statement works the two are the same, unless gorm refuses to delete. -/
theorem send_works (db : DB) (now : Int) (op : Op UserDeviceSyncRecord) (h : deletedKey op ≠ some ⟨"", 0⟩) :
    send db [] now (op.map some) = exec db now op := by
  cases op with
  | syncAt lastModified userID pushed =>
    rw [exec, SyncAt_eq]
    exact congrArg Prod.fst (transaction_works (Statements.syncAt_works db lastModified userID pushed))
  | handleChanges changes userID =>
    rw [exec, HandleChanges_eq]
    exact congrArg Prod.fst (transaction_works (Statements.handleChanges_works db userID changes))
  | replaceAll rows userID =>
    rw [exec, ReplaceAll_eq, Op.map, send, Statements.ReplaceAll]
    by_cases hnil : rows = []
    · rw [if_pos hnil, if_pos (List.map_eq_nil_iff.mpr hnil)]
    · rw [if_neg hnil, if_neg (by simpa using hnil)]
      exact congrArg Prod.fst (transaction_works (Statements.replaceAll_works db userID rows))
  | insertOne row =>
    rw [exec, InsertOne_eq]
    cases hs : row.state with
    | none =>
      obtain ⟨key, state⟩ := row
      cases hs
      rfl
    | some s => exact congrArg Prod.fst (transaction_works (Statements.insert_works (row.newSyncRecord now) hs))
  | insertIfRecent row lastModified =>
    rw [exec, InsertIfRecent_eq, InsertOne_eq]
    cases hs : row.state with
    | none =>
      rcases Statements.InsertIfRecent_left db [] row lastModified with h | ⟨-, s, hs', -⟩
      · rw [Op.map, send, h, ite_self]
      · cases hs.symm.trans hs'
    | some s =>
      exact congrArg Prod.fst (transaction_works (Statements.insertIfRecent_works (row.newSyncRecord lastModified) hs))
  | deleteOne row =>
    have hk : row.key ≠ ⟨"", 0⟩ := fun hk => h (congrArg some hk)
    exact congrArg Prod.fst
      (transaction_works (Statements.delete_works (show (row.newSyncRecord now).journalRow.key ≠ _ from hk)))
  | deleteIfRecent row lastModified =>
    have hk : row.key ≠ ⟨"", 0⟩ := fun hk => h (congrArg some hk)
    rw [exec, DeleteIfRecent_eq]
    exact congrArg Prod.fst (transaction_works
      (Statements.deleteIfRecent_works (show (row.newSyncRecord lastModified).journalRow.key ≠ _ from hk)))

/-! ## Every live row is in the journal -/

structure Call where
  op : Op (Option UserDeviceSyncRecord)
  fates : List Fate
  now : Int

def system : System DB Call where
  init db := db = .empty
  step db c := some (send db c.fates c.now c.op)

def Journaled (db : DB) : Prop := ∀ k, db.userDeviceJournal.lookup k = none → db.userDevice.lookup k = none

theorem journaled_put {db : DB} (h : Journaled db) (k : Key) (t : Int) (v : Option String) : Journaled (put db k t v) := by
  intro k' hj
  rw [put_journal] at hj
  rw [put_row]
  split at hj
  · cases hj
  · rename_i hne
    rw [if_neg hne]
    exact h k' hj

theorem journaled_cleared {db : DB} (h : Journaled db) (userID : Int) : Journaled (cleared db userID) := by
  intro k hj
  simp only [cleared, deleteUser_lookup] at hj ⊢
  split at hj
  · rename_i hu
    rw [if_pos hu]
  · rename_i hu
    rw [if_neg hu]
    exact h k hj

theorem journaled_changes {db : DB} (h : Journaled db) (userID : Int) (l : List UserDeviceSyncRecord) :
    Journaled (changes userID db l) := by
  refine List.foldlRecOn l (change userID) h fun db h sr _ => ?_
  unfold change
  split
  · exact journaled_put h _ _ _
  · exact h

theorem journaled_placed {db : DB} (h : Journaled db) (userID : Int) (l : List UserDeviceSyncRecord) :
    Journaled (l.foldl (place userID) db) := by
  refine List.foldlRecOn l (place userID) h fun db h sr _ => ?_
  unfold place
  split
  · exact journaled_put h _ _ _
  · exact h

theorem journaled_insertOne {db : DB} (h : Journaled db) (row : UserDevice) (now : Int) :
    Journaled (InsertOne db row now).1 := by
  rw [InsertOne_eq]
  split
  · exact journaled_put h _ _ _
  · exact h

theorem journaled_exec {db : DB} (h : Journaled db) (now : Int) (op : Op UserDeviceSyncRecord) :
    Journaled (exec db now op) := by
  cases op with
  | syncAt lastModified userID pushed => rw [exec, SyncAt_eq]; exact journaled_changes h _ _
  | handleChanges changes userID => rw [exec, HandleChanges_eq]; exact journaled_changes h _ _
  | replaceAll rows userID =>
    rw [exec, ReplaceAll_eq]
    split
    · exact h
    · exact journaled_placed (journaled_cleared h userID) userID rows
  | insertOne row => exact journaled_insertOne h row now
  | insertIfRecent row lastModified =>
    rw [exec, InsertIfRecent_eq]
    split
    · exact h
    · exact journaled_insertOne h row lastModified
  | deleteOne row => rw [exec, DeleteOne_eq]; exact journaled_put h _ _ _
  | deleteIfRecent row lastModified =>
    rw [exec, DeleteIfRecent_eq]
    split
    · exact h
    · exact journaled_put h _ _ _

theorem journaled_reach {db : DB} (h : Reach system any db) : Journaled db := by
  refine h.inv ?_ ?_
  · intro db h0 k _
    rw [h0]
    rfl
  · intro db c db' hi _ hs
    cases hs
    rcases send_eq db c.fates c.now c.op with h | ⟨op', -, h⟩
    · rw [h]
      exact hi
    · rw [h]
      exact journaled_exec hi c.now op'

/-- Every live row has a row in the journal, which `GetRaw` lists with it, and so does a
    sync by a client whose cursor is before it. -/
theorem journal_complete {db : DB} (h : Reach system any db) {k : Key} {s : String}
    (hk : db.userDevice.lookup k = some s) :
    ∃ t, db.userDeviceJournal.lookup k = some t ∧
      (∀ fates rows, Statements.GetRaw db fates k.userID = .ok rows → ⟨⟨k, t⟩, some s⟩ ∈ rows) ∧
      ∀ fates cursor pushed r, cursor < t → (Statements.SyncAt db fates cursor k.userID pushed).2 = .ok r →
        ⟨⟨k, t⟩, some s⟩ ∈ r.ourChanges := by
  obtain ⟨t, ht⟩ : ∃ t, db.userDeviceJournal.lookup k = some t := by
    rw [← Option.ne_none_iff_exists']
    intro hn
    rw [journaled_reach h k hn] at hk
    cases hk
  have hj : (⟨k, t⟩ : UserDeviceJournal) ∈ journalRows db k.userID := mem_journalRows.mpr ⟨ht, rfl⟩
  have hjoin : join db ⟨k, t⟩ = ⟨⟨k, t⟩, some s⟩ := by rw [join, hk]
  refine ⟨t, ht, ?_, ?_⟩
  · intro fates rows hrows
    obtain ⟨-, rfl⟩ := ask_spec (Q := fun rows _ => rows = getRaw db k.userID)
      (Triple.query fun db' hdb' => by rw [hdb']) hrows
    rw [← hjoin]
    exact List.mem_map_of_mem hj
  · intro fates cursor pushed r hc hr
    obtain ⟨-, e, he⟩ | ⟨r', ⟨l, -, -, rfl⟩, hr' | ⟨e, he⟩⟩ :=
      transaction_spec (Statements.syncAt_done db cursor k.userID pushed) fates
    · cases hr.symm.trans he
    · cases hr.symm.trans hr'
      rw [← hjoin]
      exact mem_getChangesAfter.mpr ⟨hj, hc⟩
    · cases hr.symm.trans he

/-- A push that works, then an insert whose second statement fails and is rolled back. -/
def rolledBack : List Call :=
  [⟨.handleChanges [some ⟨⟨⟨"a", 0⟩, 10⟩, some "1"⟩] 7, [], 10⟩,
    ⟨.insertOne ⟨⟨"b", 7⟩, some "2"⟩, [.works, .works, .fails], 20⟩]

theorem journal_complete_rolledBack : ∃ db, run system .empty rolledBack = some db ∧
    db.userDevice.lookup ⟨"b", 7⟩ = none ∧ db.userDevice.lookup ⟨"a", 7⟩ = some "1" ∧
    ∃ t, db.userDeviceJournal.lookup ⟨"a", 7⟩ = some t ∧
      ∀ fates rows, Statements.GetRaw db fates 7 = .ok rows → ⟨⟨⟨"a", 7⟩, t⟩, some "1"⟩ ∈ rows := by
  obtain ⟨db, hdb, hb, ha⟩ : ∃ db, run system .empty rolledBack = some db ∧
      db.userDevice.lookup ⟨"b", 7⟩ = none ∧ db.userDevice.lookup ⟨"a", 7⟩ = some "1" := ⟨_, rfl, rfl, rfl⟩
  obtain ⟨t, ht, hraw, -⟩ := journal_complete (Reach.path (.init rfl) (run_path hdb)) ha
  exact ⟨db, hdb, hb, ha, t, ht, hraw⟩

/-! ## Times that go back -/

/-- One operation at a time, and whether it is rolled back. -/
structure Timed where
  op : Op UserDeviceSyncRecord
  now : Int
  fails : Bool

structure St where
  db : DB
  clock : Int

def replaces : Op UserDeviceSyncRecord → Bool
  | .replaceAll .. => true
  | _ => false

/-- Every operation but `ReplaceAll`, while the clock does not go back. -/
def clocked : System St Timed where
  init _ := True
  step s e :=
    if s.clock ≤ e.now ∧ replaces e.op = false then some ⟨if e.fails then s.db else exec s.db e.now e.op, e.now⟩
    else none

def NeverBack (db db' : DB) : Prop := ∀ k t, db.userDeviceJournal.lookup k = some t →
  ∃ t', db'.userDeviceJournal.lookup k = some t' ∧ t ≤ t'

/-- The latest cursor a client can have: 0 before its first sync, then what `SyncAt`
    answered. -/
def lastCursor (db : DB) (userID : Int) : Int := max 0 (getLastModified db userID)

/-- The key that an operation writes under the server's clock. -/
def localKey : Op UserDeviceSyncRecord → Option Key
  | .insertOne row => if row.state = none then none else some row.key
  | .deleteOne row => some row.key
  | _ => none

/-- The key is new, or the clock is past every cursor. -/
def InTime (db : DB) (now : Int) (op : Op UserDeviceSyncRecord) : Prop :=
  ∀ k, localKey op = some k → db.userDeviceJournal.lookup k = none ∨ lastCursor db k.userID < now

/-- A client of the user whose cursor is `cursor` is told of the row of `k`. -/
def Told (db : DB) (cursor : Int) (k : Key) : Prop :=
  ∃ t, ⟨⟨k, t⟩, db.userDevice.lookup k⟩ ∈ getChangesAfter db cursor k.userID

/-- The local write of `op` is not hidden from the clients that were told of the row
    before it. -/
def NotHidden (db db' : DB) (op : Op UserDeviceSyncRecord) : Prop :=
  ∀ k t cursor, localKey op = some k → db.userDeviceJournal.lookup k = some t → t ≤ cursor →
    cursor ≤ lastCursor db k.userID → Told db' cursor k

theorem NeverBack.refl (db : DB) : NeverBack db db := fun _ t h => ⟨t, h, Int.le_refl t⟩

theorem NeverBack.trans {db db' db'' : DB} (h : NeverBack db db') (h' : NeverBack db' db'') : NeverBack db db'' := by
  intro k t hk
  obtain ⟨t', hk', hle⟩ := h k t hk
  obtain ⟨t'', hk'', hle'⟩ := h' k t' hk'
  exact ⟨t'', hk'', Int.le_trans hle hle'⟩

theorem le_getLastModified {db : DB} {k : Key} {t : Int} (h : db.userDeviceJournal.lookup k = some t) :
    t ≤ getLastModified db k.userID := by
  have hm : t ∈ (journalRows db k.userID).map (·.lastModified) :=
    List.mem_map.mpr ⟨⟨k, t⟩, mem_journalRows.mpr ⟨h, rfl⟩, rfl⟩
  unfold getLastModified
  cases hmax : ((journalRows db k.userID).map (·.lastModified)).max? with
  | none => rw [List.max?_eq_none_iff.mp hmax] at hm; cases hm
  | some m => exact (List.max?_le_iff hmax).mp (Int.le_refl m) t hm

theorem lastCursor_mono {db db' : DB} (h : NeverBack db db') (userID : Int) :
    lastCursor db userID ≤ lastCursor db' userID := by
  unfold lastCursor
  apply max_le (le_max_left ..)
  unfold getLastModified
  cases hmax : ((journalRows db userID).map (·.lastModified)).max? with
  | none => exact le_max_left ..
  | some m =>
    obtain ⟨j, hj, rfl⟩ := List.mem_map.mp (List.max?_mem hmax)
    obtain ⟨hl, rfl⟩ := mem_journalRows.mp hj
    obtain ⟨t', ht', hle⟩ := h j.key j.lastModified hl
    exact le_trans hle (le_trans (le_getLastModified ht') (le_max_right ..))

theorem neverBack_put {db : DB} {k : Key} {t : Int} (h : ∀ t', db.userDeviceJournal.lookup k = some t' → t' ≤ t)
    (v : Option String) : NeverBack db (put db k t v) := by
  intro k' t' hk'
  rw [put_journal]
  split
  · rename_i he
    rw [he] at hk'
    exact ⟨t, rfl, h t' hk'⟩
  · exact ⟨t', hk', Int.le_refl t'⟩

theorem not_stale {db : DB} (sr : UserDeviceSyncRecord) (h : stale db sr = false) {t : Int}
    (ht : db.userDeviceJournal.lookup sr.journalRow.key = some t) : t ≤ sr.getLastModified := by
  simp only [stale, ht, decide_eq_false_iff_not] at h
  omega

theorem neverBack_changes (db : DB) (userID : Int) (l : List UserDeviceSyncRecord) :
    NeverBack db (changes userID db l) := by
  induction l generalizing db with
  | nil => exact .refl db
  | cons sr l ih =>
    refine NeverBack.trans ?_ (ih (change userID db sr))
    unfold change
    split
    · rename_i ha
      simp only [accepts, Bool.and_eq_true, Bool.not_eq_true'] at ha
      exact neverBack_put (fun t ht => not_stale _ ha.2 ht) _
    · exact .refl db

theorem exec_local {op : Op UserDeviceSyncRecord} {k : Key} (h : localKey op = some k) (db : DB) (now : Int) :
    ∃ v, exec db now op = put db k now v := by
  cases op with
  | insertOne row =>
    simp only [localKey] at h
    split at h
    · cases h
    · rename_i hs
      cases h
      obtain ⟨s, hs⟩ := Option.ne_none_iff_exists'.mp hs
      exact ⟨some s, by rw [exec, InsertOne_eq, hs]⟩
  | deleteOne row =>
    cases h
    exact ⟨none, DeleteOne_eq db row now⟩
  | syncAt | handleChanges | replaceAll | insertIfRecent | deleteIfRecent => cases h

/-- Without a local write the times of the journal are only raised. -/
theorem neverBack_pushed {op : Op UserDeviceSyncRecord} (hr : replaces op = false) (h : localKey op = none) (db : DB)
    (now : Int) : NeverBack db (exec db now op) := by
  cases op with
  | syncAt lastModified userID pushed => rw [exec, SyncAt_eq]; exact neverBack_changes _ _ _
  | handleChanges changes userID => rw [exec, HandleChanges_eq]; exact neverBack_changes _ _ _
  | replaceAll => cases hr
  | deleteOne => cases h
  | insertOne row =>
    simp only [localKey, ite_eq_left_iff, reduceCtorEq, imp_false, not_not] at h
    rw [exec, InsertOne_eq, h]
    exact .refl db
  | insertIfRecent row lastModified =>
    rw [exec, InsertIfRecent_eq]
    split
    · exact .refl db
    · rename_i hst
      rw [InsertOne_eq]
      split
      · exact neverBack_put (fun t ht => not_stale (row.newSyncRecord lastModified) (by simpa using hst) ht) _
      · exact .refl db
  | deleteIfRecent row lastModified =>
    rw [exec, DeleteIfRecent_eq]
    split
    · exact .refl db
    · rename_i hst
      exact neverBack_put (fun t ht => not_stale (row.newSyncRecord lastModified) (by simpa using hst) ht) _

theorem told_put {db : DB} {k : Key} {now cursor : Int} {v : Option String} :
    Told (put db k now v) cursor k ↔ cursor < now := by
  have hj : (put db k now v).userDeviceJournal.lookup k = some now := by rw [put_journal, if_pos rfl]
  have hmem (t : Int) : ⟨⟨k, t⟩, (put db k now v).userDevice.lookup k⟩ ∈ getChangesAfter (put db k now v) cursor k.userID ↔
      t = now ∧ cursor < t := by
    rw [← join, mem_getChangesAfter, mem_journalRows, hj]
    simp [eq_comm]
  simp only [Told, hmem, exists_eq_left]

theorem inTime_iff {op : Op UserDeviceSyncRecord} (hr : replaces op = false) (db : DB) (now : Int) :
    NeverBack db (exec db now op) ∧ NotHidden db (exec db now op) op ↔ InTime db now op := by
  cases hk : localKey op with
  | none =>
    have hin : InTime db now op := by
      intro k h
      rw [hk] at h
      cases h
    have hnot : NotHidden db (exec db now op) op := by
      intro k _ _ h
      rw [hk] at h
      cases h
    exact ⟨fun _ => hin, fun _ => ⟨neverBack_pushed hr hk db now, hnot⟩⟩
  | some k =>
    obtain ⟨v, hv⟩ := exec_local hk db now
    rw [hv]
    constructor
    · intro h k' hk'
      cases hk.symm.trans hk'
      cases ht : db.userDeviceJournal.lookup k with
      | none => exact .inl rfl
      | some t =>
        have hle : t ≤ lastCursor db k.userID := le_trans (le_getLastModified ht) (le_max_right ..)
        exact .inr (told_put.mp (h.2 k t _ hk ht hle (Int.le_refl _)))
    · intro h
      refine ⟨neverBack_put ?_ v, ?_⟩
      · intro t ht
        rcases h k hk with hn | hlt
        · cases ht.symm.trans hn
        · have := le_trans (le_getLastModified ht) (le_max_right 0 _)
          unfold lastCursor at hlt
          omega
      · intro k' t cursor hk' ht _ hle
        cases hk.symm.trans hk'
        rcases h k hk with hn | hlt
        · cases ht.symm.trans hn
        · exact told_put.mpr (by omega)

/-- The operation is rolled back, or in time. -/
def Punctual (s : St) (e : Timed) : Prop := e.fails = false → InTime s.db e.now e.op

theorem clocked_step {s t : St} {e : Timed} (hs : clocked.step s e = some t) :
    replaces e.op = false ∧ t.db = if e.fails then s.db else exec s.db e.now e.op := by
  simp only [clocked, Option.ite_none_right_eq_some, Option.some.injEq] at hs
  obtain ⟨⟨-, hr⟩, rfl⟩ := hs
  exact ⟨hr, rfl⟩

theorem neverBack_step {s t : St} {e : Timed} (ho : Punctual s e) (hs : clocked.step s e = some t) :
    NeverBack s.db t.db := by
  obtain ⟨hr, ht⟩ := clocked_step hs
  rw [ht]
  cases hf : e.fails with
  | true => exact .refl s.db
  | false => exact ((inTime_iff hr s.db e.now).mpr (ho hf)).1

theorem neverBack_path {s t : St} (h : Path clocked Punctual s t) : NeverBack s.db t.db :=
  h.rel (R := fun s t => NeverBack s.db t.db) (fun s => .refl s.db) (fun _ _ _ => NeverBack.trans)
    fun _ _ _ ho hs => neverBack_step ho hs

/-- In a run whose local writes are in time no time of the journal goes back, and a
    client that got its cursor anywhere in the run and was told of a row by then is told
    of each later local write to it. And one operation keeps to that exactly when it is
    in time. -/
theorem never_back_iff_in_time {s t : St} (h : Path clocked Punctual s t) :
    (NeverBack s.db t.db ∧
      ∀ e u, Punctual t e → e.fails = false → clocked.step t e = some u → ∀ k time cursor, localKey e.op = some k →
        t.db.userDeviceJournal.lookup k = some time → time ≤ cursor → cursor ≤ lastCursor s.db k.userID →
        Told u.db cursor k) ∧
    ∀ db now op, replaces op = false →
      (NeverBack db (exec db now op) ∧ NotHidden db (exec db now op) op ↔ InTime db now op) := by
  refine ⟨?_, fun db now op hr => inTime_iff hr db now⟩
  have hback := neverBack_path h
  refine ⟨hback, ?_⟩
  intro e u ho hf hs k time cursor hk ht hle hc
  obtain ⟨hr, hu⟩ := clocked_step hs
  rw [hu, hf]
  exact ((inTime_iff hr t.db e.now).mpr (ho hf)).2 k time cursor hk ht hle
    (Int.le_trans hc (lastCursor_mono hback k.userID))

/-- A phone pushes a record dated 100, and at 20 the user edits it on the server. -/
def pushedAhead : List Timed :=
  [⟨.handleChanges [⟨⟨⟨"a", 0⟩, 100⟩, some "1"⟩] 7, 10, false⟩, ⟨.insertOne ⟨⟨"a", 7⟩, some "2"⟩, 20, false⟩]

/-- The journal goes back from 100 to 20, and a client at 100 is not told. -/
theorem pushed_time_goes_back : ∃ s t, Path clocked any ⟨.empty, 0⟩ s ∧ Path clocked any s t ∧ ¬ NeverBack s.db t.db ∧
    lastCursor s.db 7 = 100 ∧ ¬ Told t.db 100 ⟨"a", 7⟩ := by
  obtain ⟨s, hs, hj, hc⟩ : ∃ s, run clocked ⟨.empty, 0⟩ (pushedAhead.take 1) = some s ∧
      s.db.userDeviceJournal.lookup ⟨"a", 7⟩ = some 100 ∧ lastCursor s.db 7 = 100 := ⟨_, rfl, rfl, by decide⟩
  obtain ⟨t, ht, hp⟩ : ∃ t, run clocked s (pushedAhead.drop 1) = some t ∧ t.db = put s.db ⟨"a", 7⟩ 20 (some "2") := by
    cases hs
    exact ⟨_, rfl, rfl⟩
  refine ⟨s, t, run_path hs, run_path ht, ?_, hc, ?_⟩
  · intro hback
    obtain ⟨t', ht', hle⟩ := hback _ _ hj
    rw [hp, put_journal, if_pos rfl, Option.some.injEq] at ht'
    omega
  · rw [hp, told_put]
    omega

/-- The same with the push dated 10: at 20 the edit is in time. -/
def pushedBehind : List Timed :=
  [⟨.handleChanges [⟨⟨⟨"a", 0⟩, 10⟩, some "1"⟩] 7, 10, false⟩, ⟨.insertOne ⟨⟨"a", 7⟩, some "2"⟩, 20, false⟩]

theorem never_back_pushed_behind : ∃ s t, run clocked ⟨.empty, 0⟩ (pushedBehind.take 1) = some s ∧
    run clocked s (pushedBehind.drop 1) = some t ∧ NeverBack s.db t.db ∧ Told t.db 10 ⟨"a", 7⟩ := by
  obtain ⟨s, hs, hj, hc⟩ : ∃ s, run clocked ⟨.empty, 0⟩ (pushedBehind.take 1) = some s ∧
      s.db.userDeviceJournal.lookup ⟨"a", 7⟩ = some 10 ∧ lastCursor s.db 7 = 10 := ⟨_, rfl, rfl, by decide⟩
  obtain ⟨t, ht⟩ : ∃ t, clocked.step s ⟨.insertOne ⟨⟨"a", 7⟩, some "2"⟩, 20, false⟩ = some t := by
    cases hs
    exact ⟨_, rfl⟩
  have hp : Punctual s ⟨.insertOne ⟨⟨"a", 7⟩, some "2"⟩, 20, false⟩ := by
    intro _ k hk
    cases hk
    right
    show lastCursor s.db 7 < 20
    omega
  obtain ⟨-, htold⟩ := (never_back_iff_in_time (s := s) .refl).1
  refine ⟨s, t, hs, ?_, ?_, ?_⟩
  · show ([_] : List Timed).foldlM clocked.step s = some t
    rw [List.foldlM_cons, ht]
    rfl
  · exact (never_back_iff_in_time (.step _ .refl hp ht)).1.1
  · exact htold _ t hp rfl ht _ 10 10 rfl hj (Int.le_refl _) (Int.le_of_eq hc.symm)

end GenieCloud.Sql.Journal
