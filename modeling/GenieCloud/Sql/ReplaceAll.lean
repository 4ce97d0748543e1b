/-
  GenieCloud.Sql.ReplaceAll — what `ReplaceAll` of `go/sql/sync_table.go` leaves of a
  user's rows.

  A list with a record deletes the user's rows in both tables and writes those of the
  records that have a discriminator and an id, the last of an id winning. An empty list
  returns before the transaction, for the tables' names are asked of the first record.

  `replaceAll_iff`: whatever the rows and the fates of the statements, `ReplaceAll`
  replaces everything or changes nothing, unless the list is empty and the user has rows
  (`empty_list_keeps_rows`), or the answer to the commit is lost.
-/

import GenieCloud.Sql.Statements
import Mathlib.Data.List.Induction

namespace GenieCloud.Sql.ReplaceAll

open GenieCloud.Lib.Transaction GenieCloud.Sql.SyncTable GenieCloud.Sql.Statements

/-! ## The property -/

/-- The record that an id keeps. -/
def kept (rows : List UserDeviceSyncRecord) (uniqueID : String) : Option UserDeviceSyncRecord :=
  (rows.filter fun row => row.hasDiscriminator && row.uniqueID != "" && row.uniqueID == uniqueID).getLast?

/-- The user's rows are those of the records, and the others' as they were. -/
structure Replaced (userID : Int) (rows : List UserDeviceSyncRecord) (db db' : DB) : Prop where
  row : ∀ id, db'.userDevice.lookup ⟨id, userID⟩ = (kept rows id).bind (·.state)
  journalRow : ∀ id, db'.userDeviceJournal.lookup ⟨id, userID⟩ = (kept rows id).map (·.getLastModified)
  others : ∀ k, k.userID ≠ userID →
    db'.userDevice.lookup k = db.userDevice.lookup k ∧ db'.userDeviceJournal.lookup k = db.userDeviceJournal.lookup k

def Unchanged (db db' : DB) : Prop :=
  ∀ k, db'.userDevice.lookup k = db.userDevice.lookup k ∧ db'.userDeviceJournal.lookup k = db.userDeviceJournal.lookup k

/-- The records of a request that are not null. -/
def records (rows : List (Option UserDeviceSyncRecord)) : List UserDeviceSyncRecord := rows.filterMap id

def ReplacesAll (db : DB) (fates : List Fate) (rows : List (Option UserDeviceSyncRecord)) (userID : Int) : Prop :=
  ((ReplaceAll db fates rows userID).2 = .ok () →
    Replaced userID (records rows) db (ReplaceAll db fates rows userID).1) ∧
  ∀ err, (ReplaceAll db fates rows userID).2 = .error err → Unchanged db (ReplaceAll db fates rows userID).1

def NoRows (db : DB) (userID : Int) : Prop :=
  ∀ id, db.userDevice.lookup ⟨id, userID⟩ = none ∧ db.userDeviceJournal.lookup ⟨id, userID⟩ = none

variable {db db' tx : DB} {userID : Int}

/-! ## Writing the records -/

theorem kept_concat (rows : List UserDeviceSyncRecord) (row : UserDeviceSyncRecord) (id : String) :
    kept (rows ++ [row]) id =
      if (row.hasDiscriminator = true ∧ row.uniqueID ≠ "") ∧ row.uniqueID = id then some row else kept rows id := by
  unfold kept
  rw [List.filter_append]
  by_cases h : (row.hasDiscriminator = true ∧ row.uniqueID ≠ "") ∧ row.uniqueID = id
  · rw [if_pos h, List.filter_cons_of_pos (by simpa [and_assoc] using h)]
    simp
  · rw [if_neg h, List.filter_cons_of_neg (by simpa [and_assoc] using h)]
    simp

theorem payload_of_discriminator {row : UserDeviceSyncRecord} (h : row.hasDiscriminator = true) :
    payload row = row.state := if_pos h

/-- What is under a key once the records are written. -/
theorem placed (userID : Int) (rows : List UserDeviceSyncRecord) (tx : DB) (k : Key) :
    ((rows.foldl (place userID) tx).userDevice.lookup k =
      if k.userID = userID then (kept rows k.uniqueID).elim (tx.userDevice.lookup k) (·.state)
      else tx.userDevice.lookup k) ∧
    (rows.foldl (place userID) tx).userDeviceJournal.lookup k =
      if k.userID = userID then (kept rows k.uniqueID).elim (tx.userDeviceJournal.lookup k) (some ·.getLastModified)
      else tx.userDeviceJournal.lookup k := by
  induction rows using List.reverseRecOn with
  | nil => simp [kept]
  | append_singleton rows row ih =>
    obtain ⟨hrow, hjournal⟩ := ih
    rw [List.foldl_append, List.foldl_cons, List.foldl_nil, kept_concat]
    generalize rows.foldl (place userID) tx = mid at hrow hjournal ⊢
    unfold place
    by_cases hw : row.hasDiscriminator = true ∧ row.uniqueID ≠ ""
    · have hkey : k = ⟨row.uniqueID, userID⟩ ↔ row.uniqueID = k.uniqueID ∧ k.userID = userID := by
        cases k
        simp [eq_comm]
      rw [if_pos hw, put_row, put_journal, payload_of_discriminator hw.1, hrow, hjournal]
      simp only [hw, true_and, hkey, ne_eq, not_false_eq_true]
      by_cases hu : k.userID = userID
      · by_cases hid : row.uniqueID = k.uniqueID
        · simp [hu, hid]
        · simp [hu, hid]
      · simp [hu]
    · have hk : ¬ ((row.hasDiscriminator = true ∧ row.uniqueID ≠ "") ∧ row.uniqueID = k.uniqueID) := fun h => hw h.1
      rw [if_neg hw, if_neg hk]
      exact ⟨hrow, hjournal⟩

/-- The records written over tables without rows of the user. -/
theorem replaced_placed (db : DB) (rows : List UserDeviceSyncRecord) (userID : Int) :
    Replaced userID rows db (rows.foldl (place userID) (cleared db userID)) := by
  refine ⟨fun id => ?_, fun id => ?_, fun k hk => ?_⟩
  · rw [(placed userID rows _ _).1, if_pos rfl]
    simp only [cleared, deleteUser_lookup, if_true]
    cases kept rows id <;> rfl
  · rw [(placed userID rows _ _).2, if_pos rfl]
    simp only [cleared, deleteUser_lookup, if_true]
    cases kept rows id <;> rfl
  · obtain ⟨hrow, hjournal⟩ := placed userID rows (cleared db userID) k
    rw [hrow, hjournal, if_neg hk, if_neg hk]
    simp only [cleared, deleteUser_lookup, if_neg hk, and_self]

/-! ## The whole operation -/

theorem replaced_nil_iff : Replaced userID [] db db ↔ NoRows db userID := by
  constructor
  · intro h id
    exact ⟨h.row id, h.journalRow id⟩
  · intro h
    exact ⟨fun id => (h id).1, fun id => (h id).2, fun _ _ => ⟨rfl, rfl⟩⟩

/-- Replacing changes nothing exactly if the rows were already there. -/
theorem Replaced.unchanged_iff {rows : List UserDeviceSyncRecord} (h : Replaced userID rows db db') :
    Unchanged db db' ↔ Replaced userID rows db db := by
  constructor
  · intro hu
    refine ⟨fun id => ?_, fun id => ?_, fun _ _ => ⟨rfl, rfl⟩⟩
    · rw [← (hu _).1]
      exact h.row id
    · rw [← (hu _).2]
      exact h.journalRow id
  · intro hd k
    by_cases hk : k.userID = userID
    · have he : k = ⟨k.uniqueID, userID⟩ := by rw [← hk]
      rw [he]
      exact ⟨(h.row _).trans (hd.row _).symm, (h.journalRow _).trans (hd.journalRow _).symm⟩
    · exact h.others k hk

/-- `ReplaceAll` replaces everything or fails and changes nothing, exactly if a user for
    whom the list is empty has no rows, and rows whose commit is not answered were there. -/
theorem replaceAll_iff (db : DB) (fates : List Fate) (rows : List (Option UserDeviceSyncRecord)) (userID : Int) :
    ReplacesAll db fates rows userID ↔
      (rows = [] → NoRows db userID) ∧
      (rows ≠ [] → answerLost (replaceAll rows userID) db fates = true →
        Replaced userID (records rows) db db) := by
  unfold ReplacesAll
  by_cases hnil : rows = []
  · subst hnil
    have hret : ReplaceAll db fates [] userID = (db, .ok ()) := rfl
    rw [hret]
    constructor
    · intro h
      exact ⟨fun _ => replaced_nil_iff.mp (h.1 rfl), fun hne => absurd rfl hne⟩
    · intro h
      exact ⟨fun _ => replaced_nil_iff.mpr (h.1 rfl), nofun⟩
  · have hret : ReplaceAll db fates rows userID = transaction (replaceAll rows userID) db fates := if_neg hnil
    have hdone : Triple (· = db) (replaceAll rows userID) fun _ t => Replaced userID (records rows) db t := by
      refine (replaceAll_done db rows userID).post ?_
      intro _ t ht
      obtain ⟨l, rfl, rfl⟩ := ht
      have hl : records (l.map some) = l := by simp [records]
      rw [hl]
      exact replaced_placed db l userID
    rw [hret]
    simp only [hnil, false_imp_iff, true_and, ne_eq, not_false_eq_true, forall_const]
    rcases transaction_cases hdone fates with ⟨hl, hs, e, he⟩ | ⟨⟨_, ht⟩, hl, e, he⟩ | ⟨_, ht, hl, ho⟩
    · rw [he, hs, hl]
      exact iff_of_true ⟨nofun, fun _ _ _ => ⟨rfl, rfl⟩⟩ nofun
    · rw [he, hl]
      simp only [forall_const]
      rw [← ht.unchanged_iff]
      exact ⟨fun h => h.2 e rfl, fun h => ⟨nofun, fun _ _ => h⟩⟩
    · rw [ho, hl]
      exact iff_of_true ⟨fun _ => ht, nofun⟩ nofun

/-- User 7 has a device, and all of the user's rows are replaced by none. -/
theorem empty_list_keeps_rows :
    let db := (ReplaceAll DB.empty [] [some ⟨⟨⟨"lamp", 7⟩, 1⟩, some "on"⟩] 7).1
    db.userDevice.lookup ⟨"lamp", 7⟩ = some "on" ∧ ReplaceAll db [] [] 7 = (db, .ok ()) ∧
      ¬ ReplacesAll db [] [] 7 := by
  refine ⟨by decide, rfl, fun h => ?_⟩
  have hnone := (h.1 rfl).row "lamp"
  revert hnone
  decide

end GenieCloud.Sql.ReplaceAll
