/-
  GenieCloud.Sql.Isolation — one user's rows, and those of the others.

  Every table of the proxy is keyed by a user and an id. `SameUser`: two databases with
  the same rows of a user. `SameOthers`: a database whose rows of the other users are
  still the same. The operations on one user's keys keep the others' rows, and what they
  answer depends on the rows of that user alone (`Respects (Same u)`).
-/

import GenieCloud.Sql.LocalTable
import GenieCloud.Sql.Merge

namespace GenieCloud.Sql.Isolation

open GenieCloud.Lib.Transaction GenieCloud.Sql.SyncTable GenieCloud.Sql.Statements

variable {β : Type}

abbrev Rows (β : Type) := AList fun _ : Key => β

def ofUser (t : Rows β) (u : Int) : Rows β :=
  ⟨t.entries.filter (·.1.userID = u), List.NodupKeys.sublist List.filter_sublist t.nodupKeys⟩

def SameUser (u : Int) (t t' : Rows β) : Prop := ofUser t u = ofUser t' u

def SameOthers (u : Int) (t t' : Rows β) : Prop := ∀ k, k.userID ≠ u → t'.lookup k = t.lookup k

variable {t t' t'' : Rows β} {u : Int} {k : Key}

/-! ## One table -/

theorem ofUser_entries (t : Rows β) (u : Int) : (ofUser t u).entries = t.entries.filter (·.1.userID = u) := rfl

theorem SameUser.entries (h : SameUser u t t') : t.entries.filter (·.1.userID = u) = t'.entries.filter (·.1.userID = u) :=
  congrArg AList.entries h

theorem ofUser_lookup (t : Rows β) (hk : k.userID = u) : (ofUser t u).lookup k = t.lookup k := by
  ext v
  rw [← Option.mem_def, ← Option.mem_def, AList.mem_lookup_iff, ofUser, List.mem_filter, ← AList.mem_lookup_iff]
  simp [hk]

theorem SameUser.lookup (h : SameUser u t t') (hk : k.userID = u) : t.lookup k = t'.lookup k := by
  rw [← ofUser_lookup t hk, ← ofUser_lookup t' hk, h]

theorem filter_kerase (l : List (Sigma fun _ : Key => β)) (hk : k.userID = u) :
    (List.kerase k l).filter (·.1.userID = u) = List.kerase k (l.filter (·.1.userID = u)) := by
  unfold List.kerase
  rw [List.eraseP_filter]
  congr 2
  funext e
  by_cases he : k = e.1
  · simp [← he, hk]
  · simp [he]

theorem ofUser_erase (t : Rows β) (hk : k.userID = u) : ofUser (t.erase k) u = (ofUser t u).erase k :=
  AList.ext (filter_kerase t.entries hk)

theorem ofUser_insert (t : Rows β) (hk : k.userID = u) (v : β) : ofUser (t.insert k v) u = (ofUser t u).insert k v := by
  apply AList.ext
  rw [ofUser_entries, AList.entries_insert, AList.entries_insert, ofUser_entries,
    List.filter_cons_of_pos (by simpa using hk), filter_kerase t.entries hk]

theorem SameUser.erase (h : SameUser u t t') (hk : k.userID = u) : SameUser u (t.erase k) (t'.erase k) := by
  rw [SameUser, ofUser_erase t hk, ofUser_erase t' hk, h]

theorem SameUser.insert (h : SameUser u t t') (hk : k.userID = u) (v : β) : SameUser u (t.insert k v) (t'.insert k v) := by
  rw [SameUser, ofUser_insert t hk, ofUser_insert t' hk, h]

theorem SameOthers.refl (t : Rows β) : SameOthers u t t := fun _ _ => rfl

theorem SameOthers.trans (h : SameOthers u t t') (h' : SameOthers u t' t'') : SameOthers u t t'' := by
  intro k hk
  rw [h' k hk, h k hk]

theorem SameOthers.erase (t : Rows β) (hk : k.userID = u) : SameOthers u t (t.erase k) := by
  intro k' hk'
  apply AList.lookup_erase_ne
  intro he
  rw [he] at hk'
  exact hk' hk

theorem SameOthers.insert (t : Rows β) (hk : k.userID = u) (v : β) : SameOthers u t (t.insert k v) := by
  intro k' hk'
  apply AList.lookup_insert_ne
  intro he
  rw [he] at hk'
  exact hk' hk

theorem SameUser.deleteUser (t t' : Rows β) (u : Int) : SameUser u (deleteUser t u) (deleteUser t' u) := by
  have hnil (t : Rows β) : ofUser (SyncTable.deleteUser t u) u = ∅ := by
    apply AList.ext
    show (t.entries.filter (·.1.userID ≠ u)).filter (·.1.userID = u) = []
    simp [List.filter_filter]
  rw [SameUser, hnil, hnil]

theorem SameOthers.deleteUser (t : Rows β) (u : Int) : SameOthers u t (deleteUser t u) := by
  intro k hk
  rw [deleteUser_lookup, if_neg hk]

/-! ## The synced table -/

def Same (u : Int) (db db' : DB) : Prop :=
  SameUser u db.userDevice db'.userDevice ∧ SameUser u db.userDeviceJournal db'.userDeviceJournal

def Others (u : Int) (db db' : DB) : Prop :=
  SameOthers u db.userDevice db'.userDevice ∧ SameOthers u db.userDeviceJournal db'.userDeviceJournal

theorem Others.refl (db : DB) : Others u db db := ⟨.refl _, .refl _⟩

theorem Others.trans {db db' db'' : DB} (h : Others u db db') (h' : Others u db' db'') : Others u db db'' :=
  ⟨h.1.trans h'.1, h.2.trans h'.2⟩

theorem others_put (db : DB) (hk : k.userID = u) (time : Int) (v : Option String) : Others u db (put db k time v) := by
  refine ⟨?_, SameOthers.insert _ hk _⟩
  cases v with
  | none => exact SameOthers.erase _ hk
  | some s => exact SameOthers.insert _ hk _

theorem others_changes (db : DB) (l : List UserDeviceSyncRecord) : Others u db (changes u db l) := by
  induction l generalizing db with
  | nil => exact .refl db
  | cons sr l ih =>
    refine Others.trans ?_ (ih (change u db sr))
    unfold change
    split
    · exact others_put (k := ⟨_, u⟩) db rfl _ _
    · exact .refl db

theorem others_replaced (db : DB) (l : List UserDeviceSyncRecord) : Others u db (l.foldl (place u) (cleared db u)) := by
  have hplaced (db : DB) : Others u db (l.foldl (place u) db) := by
    induction l generalizing db with
    | nil => exact .refl db
    | cons sr l ih =>
      refine Others.trans ?_ (ih (place u db sr))
      unfold place
      split
      · exact others_put (k := ⟨_, u⟩) db rfl _ _
      · exact .refl db
  exact Others.trans ⟨SameOthers.deleteUser _ u, SameOthers.deleteUser _ u⟩ (hplaced _)

variable {db db' : DB}

theorem Same.journalRows (h : Same u db db') : journalRows db u = journalRows db' u := by
  have hrows (db : DB) : SyncTable.journalRows db u =
      (db.userDeviceJournal.entries.filter (·.1.userID = u)).map fun e => ⟨e.1, e.2⟩ := by
    rw [SyncTable.journalRows, List.filter_map]
    rfl
  rw [hrows, hrows, h.2.entries]

theorem Same.joined (h : Same u db db') {l : List UserDeviceJournal} (hl : ∀ j ∈ l, j ∈ SyncTable.journalRows db u) :
    l.map (join db) = l.map (join db') := by
  apply List.map_congr_left
  intro j hj
  rw [join, join, h.1.lookup (mem_journalRows.mp (hl j hj)).2]

theorem Same.getRaw (h : Same u db db') : getRaw db u = getRaw db' u := by
  rw [SyncTable.getRaw, SyncTable.getRaw, ← h.journalRows]
  exact h.joined fun j hj => hj

theorem Same.getChangesAfter (h : Same u db db') (lastModified : Int) :
    getChangesAfter db lastModified u = getChangesAfter db' lastModified u := by
  rw [SyncTable.getChangesAfter, SyncTable.getChangesAfter, ← h.journalRows]
  exact h.joined fun j hj => (List.mem_filter.mp hj).1

theorem Same.getLastModified (h : Same u db db') : getLastModified db u = getLastModified db' u := by
  rw [SyncTable.getLastModified, SyncTable.getLastModified, h.journalRows]

theorem Same.stale (h : Same u db db') {sr : UserDeviceSyncRecord} (hk : sr.journalRow.key.userID = u) :
    stale db sr = stale db' sr := by
  rw [SyncTable.stale, SyncTable.stale, h.2.lookup hk]

/-! ## What an operation on a user's keys depends on -/

theorem respects_createRow {row : UserDevice} (hk : row.key.userID = u) : Respects (Same u) (createRow row) := by
  refine Respects.statement ?_
  intro db db' h
  cases row.state with
  | none => exact .inr ⟨.notNull, rfl, rfl⟩
  | some s => exact .inl ⟨(), _, _, rfl, rfl, h.1.insert hk s, h.2⟩

theorem respects_createJournalRow {row : UserDeviceJournal} (hk : row.key.userID = u) :
    Respects (Same u) (createJournalRow row) := by
  refine Respects.statement ?_
  intro db db' h
  exact .inl ⟨(), _, _, rfl, rfl, h.1, h.2.insert hk _⟩

theorem respects_deleteRow {row : UserDevice} (hk : row.key.userID = u) : Respects (Same u) (deleteRow row) := by
  refine Respects.statement ?_
  intro db db' h
  by_cases h0 : row.key = ⟨"", 0⟩
  · exact .inr ⟨.missingWhereClause, if_pos h0, if_pos h0⟩
  · exact .inl ⟨(), _, _, if_neg h0, if_neg h0, h.1.erase hk, h.2⟩

variable {sr : UserDeviceSyncRecord}

theorem respects_insert (hk : sr.journalRow.key.userID = u) : Respects (Same u) (insert sr) :=
  (respects_createRow hk).bind fun _ => (respects_createJournalRow hk).bind fun _ => .pure _

theorem respects_delete (hk : sr.journalRow.key.userID = u) : Respects (Same u) (delete sr) :=
  (respects_deleteRow hk).bind fun _ => (respects_createJournalRow hk).bind fun _ => .pure _

theorem respects_stale (hk : sr.journalRow.key.userID = u) :
    Respects (Same u) (query (stale · sr) : Statements.Tx Bool) :=
  Respects.query fun _ _ h => h.stale hk

theorem respects_insertIfRecent (hk : sr.journalRow.key.userID = u) : Respects (Same u) (insertIfRecent sr) :=
  (respects_stale hk).bind fun _ => .ite (.pure _) ((respects_insert hk).bind fun _ => .pure _)

theorem respects_deleteIfRecent (hk : sr.journalRow.key.userID = u) : Respects (Same u) (deleteIfRecent sr) :=
  (respects_stale hk).bind fun _ => .ite (.pure _) ((respects_delete hk).bind fun _ => .pure _)

theorem respects_handleChanges (u : Int) (changes : List (Option UserDeviceSyncRecord)) :
    Respects (Same u) (handleChanges u changes) := by
  induction changes with
  | nil => exact .pure _
  | cons change changes ih =>
    cases change with
    | none => exact .panic
    | some sr =>
      refine Respects.bind ?_ fun _ => ih.bind fun _ => .pure _
      exact .ite (.pure _) (.ite (respects_insertIfRecent rfl) (respects_deleteIfRecent rfl))

theorem respects_syncAt (lastModified u : Int) (pushed : List (Option UserDeviceSyncRecord)) :
    Respects (Same u) (syncAt lastModified u pushed) := by
  refine (Respects.query fun _ _ h => h.getChangesAfter lastModified).bind fun _ => ?_
  refine (Respects.query fun _ _ h => h.getLastModified).bind fun _ => ?_
  exact (respects_handleChanges u pushed).bind fun _ => .pure _

theorem respects_replaceRows (u : Int) (rows : List (Option UserDeviceSyncRecord)) :
    Respects (Same u) (replaceRows u rows) := by
  induction rows with
  | nil => exact .pure _
  | cons row rows ih =>
    cases row with
    | none => exact .panic
    | some row => exact .ite ih (.ite ih (Respects.bind (respects_insert rfl) fun _ => ih))

theorem respects_replaceAll (u : Int) (rows : List (Option UserDeviceSyncRecord)) :
    Respects (Same u) (replaceAll rows u) := by
  refine .ite .panic ?_
  refine Respects.bind (.statement ?_) fun _ => Respects.bind (.statement ?_) fun _ => respects_replaceRows u rows
  · intro db db' h
    exact .inl ⟨(), _, _, rfl, rfl, SameUser.deleteUser .., h.2⟩
  · intro db db' h
    exact .inl ⟨(), _, _, rfl, rfl, h.1, SameUser.deleteUser ..⟩

/-! ## The exported operations -/

theorem getRaw_user {r : UserDeviceSyncRecord} (h : r ∈ getRaw db u) : r.journalRow.key.userID = u := by
  obtain ⟨j, hj, rfl⟩ := List.mem_map.mp h
  exact (mem_journalRows.mp hj).2

theorem getChangesAfter_user {lastModified : Int} {r : UserDeviceSyncRecord}
    (h : r ∈ getChangesAfter db lastModified u) : r.journalRow.key.userID = u := by
  obtain ⟨j, hj, rfl⟩ := List.mem_map.mp h
  exact (mem_journalRows.mp (List.mem_filter.mp hj).1).2

variable (fates : List Fate)

theorem GetAll_eq (h : Same u db db') : GetAll db' fates u = GetAll db fates u := by
  refine (ask_respects (Respects.query fun db db' h => ?_) h fates).symm
  rw [List.filter_map, List.filter_map]
  exact congrArg _ h.1.entries

theorem GetAll_user {l : List UserDevice} (h : GetAll db fates u = .ok l) : ∀ row ∈ l, row.key.userID = u := by
  obtain ⟨-, hl⟩ := ask_spec (Q := fun l _ => ∀ row ∈ l, row.key.userID = u)
    (Triple.query fun _ _ _ hrow => by simpa using (List.mem_filter.mp hrow).2) h
  exact hl

theorem GetOne_eq (h : Same u db db') (hk : k.userID = u) : GetOne db' fates k = GetOne db fates k := by
  unfold GetOne
  split
  · rfl
  · refine (ask_respects (Respects.statement fun db db' h => ?_) h fates).symm
    rw [h.1.lookup hk]
    cases db'.userDevice.lookup k with
    | some state => exact .inl ⟨_, _, _, rfl, rfl, h⟩
    | none => exact .inr ⟨_, rfl, rfl⟩

theorem GetOne_key {row : UserDevice} (h : GetOne db fates k = .ok row) : row.key = k := by
  unfold GetOne at h
  split at h
  · cases h
  · refine (ask_spec (Q := fun row _ => row.key = k) (Triple.statement ?_) h).elim fun _ hr => hr
    intro t a t' _ he
    split at he
    · cases he
      rfl
    · cases he

theorem GetRaw_eq (h : Same u db db') : GetRaw db' fates u = GetRaw db fates u :=
  (ask_respects (Respects.query fun _ _ h => h.getRaw) h fates).symm

theorem GetRaw_user {l : List UserDeviceSyncRecord} (h : GetRaw db fates u = .ok l) :
    ∀ r ∈ l, r.journalRow.key.userID = u := by
  obtain ⟨-, hl⟩ := ask_spec (Q := fun l _ => ∀ r ∈ l, r.journalRow.key.userID = u)
    (Triple.query fun _ _ _ => getRaw_user) h
  exact hl

theorem GetChangesAfter_eq (h : Same u db db') (lastModified : Int) :
    GetChangesAfter db' fates lastModified u = GetChangesAfter db fates lastModified u :=
  (ask_respects (Respects.query fun _ _ h => h.getChangesAfter lastModified) h fates).symm

theorem GetChangesAfter_user {lastModified : Int} {l : List UserDeviceSyncRecord}
    (h : GetChangesAfter db fates lastModified u = .ok l) : ∀ r ∈ l, r.journalRow.key.userID = u := by
  obtain ⟨-, hl⟩ := ask_spec (Q := fun l _ => ∀ r ∈ l, r.journalRow.key.userID = u)
    (Triple.query fun _ _ _ => getChangesAfter_user) h
  exact hl

theorem SyncAt_user {lastModified : Int} {pushed : List (Option UserDeviceSyncRecord)} {r : SyncAtResult}
    (h : (SyncAt db fates lastModified u pushed).2 = .ok r) : ∀ sr ∈ r.ourChanges, sr.journalRow.key.userID = u := by
  obtain ⟨-, e, he⟩ | ⟨r', ⟨l, -, -, rfl⟩, hr | ⟨e, he⟩⟩ :=
    transaction_spec (syncAt_done db lastModified u pushed) fates
  · cases h.symm.trans he
  · cases h.symm.trans hr
    exact fun _ => getChangesAfter_user
  · cases h.symm.trans he

theorem HandleChanges_others (changes : List (Option UserDeviceSyncRecord)) :
    Others u db (HandleChanges db fates changes u).1 := by
  rcases HandleChanges_left db fates changes u with h | ⟨l, -, h⟩
  · rw [h]
    exact .refl db
  · rw [h]
    exact others_changes db l

theorem SyncAt_others (lastModified : Int) (pushed : List (Option UserDeviceSyncRecord)) :
    Others u db (SyncAt db fates lastModified u pushed).1 := by
  rcases SyncAt_left db fates lastModified u pushed with h | ⟨l, -, h⟩
  · rw [h]
    exact .refl db
  · rw [h]
    exact others_changes db l

theorem ReplaceAll_others (rows : List (Option UserDeviceSyncRecord)) :
    Others u db (ReplaceAll db fates rows u).1 := by
  rcases ReplaceAll_left db fates rows u with h | ⟨l, -, h⟩
  · rw [h]
    exact .refl db
  · rw [h]
    exact others_replaced db l

theorem ReplaceAll_same (h : Same u db db') (rows : List (Option UserDeviceSyncRecord)) :
    Same u (ReplaceAll db fates rows u).1 (ReplaceAll db' fates rows u).1 ∧
      (ReplaceAll db fates rows u).2 = (ReplaceAll db' fates rows u).2 := by
  unfold Statements.ReplaceAll
  split
  · exact ⟨h, rfl⟩
  · exact transaction_respects (respects_replaceAll u rows) h fates

variable {row : UserDevice} (hk : row.key.userID = u)

include hk

theorem InsertOne_others (now : Int) : Others u db (InsertOne db fates row now).1 := by
  rcases InsertOne_left db fates row now with h | ⟨s, -, h⟩
  · rw [h]
    exact .refl db
  · rw [h]
    exact others_put db hk now (some s)

theorem DeleteOne_others (now : Int) : Others u db (DeleteOne db fates row now).1 := by
  rcases DeleteOne_left db fates row now with h | h
  · rw [h]
    exact .refl db
  · rw [h]
    exact others_put db hk now none

theorem InsertIfRecent_others (lastModified : Int) : Others u db (InsertIfRecent db fates row lastModified).1 := by
  rcases InsertIfRecent_left db fates row lastModified with h | ⟨-, s, -, h⟩
  · rw [h]
    exact .refl db
  · rw [h]
    exact others_put db hk lastModified (some s)

theorem DeleteIfRecent_others (lastModified : Int) : Others u db (DeleteIfRecent db fates row lastModified).1 := by
  rcases DeleteIfRecent_left db fates row lastModified with h | ⟨-, h⟩
  · rw [h]
    exact .refl db
  · rw [h]
    exact others_put db hk lastModified none

omit hk

/-! ## A local table -/

section LocalTables

open LocalTable

variable {V : Type} {table table' : LocalTable.Rows V} (t : RowType) (row : Row V)

theorem SameUser.rowsOf (h : SameUser u table table') : rowsOf table u = rowsOf table' u := by
  rw [LocalTable.rowsOf, LocalTable.rowsOf, h.entries]

theorem rowsOf_user {r : Row V} (h : r ∈ rowsOf table u) : r.key.userID = u := by
  obtain ⟨e, he, rfl⟩ := List.mem_map.mp h
  simpa using (List.mem_filter.mp he).2

variable [DecidableEq V]

theorem conflicts_user {e : Sigma fun _ : Key => List V} (h : conflicts t row e = true) : e.1.userID = row.key.userID := by
  simp only [conflicts, Bool.and_eq_true, decide_eq_true_eq] at h
  exact h.1.1.2

/-- The row that an insert updates is looked for among the user's. -/
theorem find_conflicts (hk : row.key.userID = u) (table : LocalTable.Rows V) :
    table.entries.find? (conflicts t row) = (table.entries.filter (·.1.userID = u)).find? (conflicts t row) := by
  rw [List.find?_filter]
  congr 1
  funext e
  cases hc : conflicts t row e with
  | false => simp
  | true => simp [conflicts_user t row hc, hk]

/-- An upsert writes a row of the user of its row. -/
theorem upsert_writes (hk : row.key.userID = u) {table₁ : LocalTable.Rows V} (h : upsert t table row = .ok table₁) :
    ∃ k : Key, k.userID = u ∧ table₁ = table.insert k row.values := by
  unfold upsert at h
  split at h
  · cases h
    exact ⟨row.key, hk, rfl⟩
  · rename_i e he
    split at h
    · cases h
      exact ⟨e.1, (conflicts_user t row (List.find?_some he)).trans hk, rfl⟩
    · cases h

theorem SameUser.upsert (h : SameUser u table table') (hk : row.key.userID = u) :
    (∃ t₁ t₁', upsert t table row = .ok t₁ ∧ upsert t table' row = .ok t₁' ∧ SameUser u t₁ t₁') ∨
    ∃ e, upsert t table row = .error e ∧ upsert t table' row = .error e := by
  have hfind : table'.entries.find? (conflicts t row) = table.entries.find? (conflicts t row) := by
    rw [find_conflicts t row hk, find_conflicts t row hk, h.entries]
  unfold LocalTable.upsert
  rw [hfind, ← h.lookup hk]
  split
  · exact .inl ⟨_, _, rfl, rfl, h.insert hk _⟩
  · rename_i e he
    split
    · exact .inl ⟨_, _, rfl, rfl, h.insert ((conflicts_user t row (List.find?_some he)).trans hk) _⟩
    · exact .inr ⟨_, rfl, rfl⟩

end LocalTables

end GenieCloud.Sql.Isolation
