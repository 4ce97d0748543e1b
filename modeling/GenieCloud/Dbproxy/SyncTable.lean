/-
  GenieCloud.Dbproxy.SyncTable — the synctable routes of the database proxy
  (`go/dbproxy/sync_table.go`, `parseUserID` and `parseKey` of `util.go`), and a replica
  rebuilt from the journal.

  A handler reads its request (`Context`: what the libraries make of the token, the path
  parameters and the JSON body, with their errors), answers early on a bad one, and
  otherwise runs one operation of `Sql.SyncTable`. The routes that change the tables are
  here; the reads leave them alone.

  `rebuild` pushes what `GetRaw` lists to an empty store. The receiver reads a record
  back as an insert or a delete by its discriminator. `InsertOne` and `InsertIfRecent`
  write whatever state the body has, the empty one included, which the receiver takes
  for a delete (`blank_state_is_not_rebuilt`); `HandleChanges` and `ReplaceAll` look at
  the discriminator first.

  `rebuilds_iff_discriminates`: in a run with no such insert the replica always has the
  rows and the journal of the source, and an insert of an empty state ends that at once.
-/

import GenieCloud.Lib.Result
import GenieCloud.Lib.Runs
import GenieCloud.Sql.Merge

namespace GenieCloud.Dbproxy.SyncTable

open GenieCloud.Lib.Result GenieCloud.Lib.Runs GenieCloud.Sql.SyncTable GenieCloud.Sql.Merge

/-! ## The handlers -/

inductive Data where
  | results (results : List Bool)
  | synced (ret : SyncAtResult)
  | done (done : Bool)
  | lastModified (lastModified : Int)
  deriving DecidableEq, Repr

inductive Response where
  | notFound (error : String)
  | badRequest (error : String)
  | internalServerError (error : DBError)
  | ok (data : Data)
  deriving DecidableEq, Repr

structure Context where
  name : String
  /-- `parseAccessToken`, then `ParseInt` of its subject. -/
  subject : Except String Int
  uniqueid : String
  /-- `ParseInt` of the `millis` parameter. -/
  millis : Except String Int
  /-- `ShouldBindJSON` into sync records. -/
  rows : Except String (List UserDeviceSyncRecord)
  /-- `ShouldBindJSON` into one row. -/
  row : Except String UserDevice
  nowMillis : Int

/-- An early answer, or what the handler does. -/
abbrev Handler (α : Type) := Except Response α

def bad {α : Type} : Except String α → Handler α
  | .ok a => .ok a
  | .error err => .error (.badRequest err)

def newSyncRow (c : Context) : Handler Unit :=
  if c.name = "user_device" then .ok () else .error (.notFound "table name not found")

def parseUserID (c : Context) : Except String Int :=
  match c.subject with
  | .error err => .error err
  | .ok userID => if userID = 0 then .error "userId must be non-zero" else .ok userID

def parseKey (c : Context) : Except String Key :=
  match parseUserID c with
  | .error err => .error err
  | .ok userID => if c.uniqueid = "" then .error "uniqueid must be set" else .ok ⟨c.uniqueid, userID⟩

def reply {α : Type} (data : α → Data) : DB × Except DBError α → DB × Response
  | (db, .ok a) => (db, .ok (data a))
  | (db, .error err) => (db, .internalServerError err)

variable (db : DB) (c : Context)

def syncTableHandleChanges : Handler (DB × Response) := do
  newSyncRow c
  let userID ← bad (parseUserID c)
  let rows ← bad c.rows
  return reply .results (HandleChanges db rows userID)

def syncTableSyncAt : Handler (DB × Response) := do
  newSyncRow c
  let userID ← bad (parseUserID c)
  let lastModified ← bad c.millis
  let rows ← bad c.rows
  return reply .synced (SyncAt db lastModified userID rows)

def syncTableReplaceAll : Handler (DB × Response) := do
  newSyncRow c
  let userID ← bad (parseUserID c)
  let rows ← bad c.rows
  return reply (fun _ => .done true) (ReplaceAll db rows userID)

def syncTableInsertIfRecent : Handler (DB × Response) := do
  newSyncRow c
  let key ← bad (parseKey c)
  let m ← bad c.row
  let lastModified ← bad c.millis
  return reply .done (InsertIfRecent db { m with key := key } lastModified)

def syncTableInsertOne : Handler (DB × Response) := do
  newSyncRow c
  let key ← bad (parseKey c)
  let m ← bad c.row
  return reply .lastModified (InsertOne db { m with key := key } c.nowMillis)

def syncTableDeleteIfRecent : Handler (DB × Response) := do
  newSyncRow c
  let key ← bad (parseKey c)
  let m ← bad c.row
  let lastModified ← bad c.millis
  return reply .done (DeleteIfRecent db { m with key := key } lastModified)

def syncTableDeleteOne : Handler (DB × Response) := do
  newSyncRow c
  let key ← bad (parseKey c)
  return reply .lastModified (DeleteOne db ⟨key, none⟩ c.nowMillis)

inductive Route where
  | handleChanges
  | syncAt
  | replaceAll
  | insertIfRecent
  | insertOne
  | deleteIfRecent
  | deleteOne
  deriving DecidableEq, Repr

def handler : Route → Handler (DB × Response)
  | .handleChanges => syncTableHandleChanges db c
  | .syncAt => syncTableSyncAt db c
  | .replaceAll => syncTableReplaceAll db c
  | .insertIfRecent => syncTableInsertIfRecent db c
  | .insertOne => syncTableInsertOne db c
  | .deleteIfRecent => syncTableDeleteIfRecent db c
  | .deleteOne => syncTableDeleteOne db c

def serve (r : Route) : DB × Response :=
  match handler db c r with
  | .ok res => res
  | .error early => (db, early)

/-! ## What a request can do to the tables -/

/-- The request inserts a row whose state is empty, and the operation takes it. -/
def BlankInsert (r : Route) : Prop :=
  newSyncRow c = .ok () ∧ ∃ key m, parseKey c = .ok key ∧ c.row = .ok m ∧ m.state = some "" ∧
    (r = .insertOne ∨
      r = .insertIfRecent ∧ ∃ t, c.millis = .ok t ∧ stale db (UserDevice.newSyncRecord ⟨key, m.state⟩ t) = false)

/-- The four ways a request leaves the tables; only the last can be a blank insert. -/
inductive Wrote (db : DB) (blank : Prop) : DB → Prop
  | same : ¬ blank → Wrote db blank db
  | merged (u : Int) (l : List UserDeviceSyncRecord) : ¬ blank → Wrote db blank (changes u db l)
  | replaced (u : Int) (l : List UserDeviceSyncRecord) : ¬ blank → Wrote db blank (l.foldl (place u) (cleared db u))
  | put (k : Key) (t : Int) (v : Option String) : k.uniqueID ≠ "" → (v = some "" ↔ blank) →
      Wrote db blank (put db k t v)

variable {db c}

@[simp] theorem reply_fst {α : Type} (data : α → Data) (p : DB × Except DBError α) : (reply data p).1 = p.1 := by
  obtain ⟨db, _ | _⟩ := p <;> rfl

theorem bad_ok {α : Type} {x : Except String α} {a : α} : bad x = .ok a ↔ x = .ok a := by
  cases x <;> simp [bad]

theorem parseKey_named {key : Key} (h : parseKey c = .ok key) : key.uniqueID ≠ "" := by
  unfold parseKey at h
  split at h
  · cases h
  · split at h
    · cases h
    · rename_i h0; cases h; exact h0

/-- An insert of the row of the body: nothing when its state is null. -/
theorem wrote_insert {r : Route} {key : Key} {m : UserDevice} (t : Int) (hk : key.uniqueID ≠ "")
    (hb : BlankInsert db c r ↔ m.state = some "") :
    Wrote db (BlankInsert db c r) (InsertOne db { m with key := key } t).1 := by
  rw [InsertOne_eq]
  cases hs : m.state with
  | none => exact .same (by rw [hb, hs]; simp)
  | some s => exact .put _ _ _ hk (by rw [hb, hs])

theorem not_blank {r : Route} (h1 : r ≠ .insertOne) (h2 : r ≠ .insertIfRecent) : ¬ BlankInsert db c r := by
  rintro ⟨-, _, _, -, -, -, h | ⟨h, -⟩⟩
  · exact h1 h
  · exact h2 h

/-- A request answered early is no blank insert. -/
theorem early_not_blank {r : Route} {early : Response} (h : handler db c r = .error early) :
    ¬ BlankInsert db c r := by
  rintro ⟨hn, key, m, hk, hm, -, rfl | ⟨rfl, t, ht, -⟩⟩
  · simp only [handler, syncTableInsertOne, hn, hk, hm, bad] at h; cases h
  · simp only [handler, syncTableInsertIfRecent, hn, hk, hm, ht, bad] at h; cases h

theorem serve_wrote (r : Route) : Wrote db (BlankInsert db c r) (serve db c r).1 := by
  unfold serve
  cases h : handler db c r with
  | error early => exact .same (early_not_blank h)
  | ok res =>
    show Wrote db (BlankInsert db c r) res.1
    cases r with
    | handleChanges =>
      obtain ⟨_, -, h⟩ := bind_ok h
      obtain ⟨userID, -, h⟩ := bind_ok h
      obtain ⟨rows, -, h⟩ := bind_ok h
      cases h
      rw [reply_fst, HandleChanges_eq]; exact .merged _ _ (not_blank nofun nofun)
    | syncAt =>
      obtain ⟨_, -, h⟩ := bind_ok h
      obtain ⟨userID, -, h⟩ := bind_ok h
      obtain ⟨millis, -, h⟩ := bind_ok h
      obtain ⟨rows, -, h⟩ := bind_ok h
      cases h
      rw [reply_fst, SyncAt_eq]; exact .merged _ _ (not_blank nofun nofun)
    | replaceAll =>
      obtain ⟨_, -, h⟩ := bind_ok h
      obtain ⟨userID, -, h⟩ := bind_ok h
      obtain ⟨rows, -, h⟩ := bind_ok h
      cases h
      rw [reply_fst, ReplaceAll_eq]
      split
      · exact .same (not_blank nofun nofun)
      · exact .replaced _ _ (not_blank nofun nofun)
    | insertIfRecent =>
      obtain ⟨_, hn, h⟩ := bind_ok h
      obtain ⟨key, hk, h⟩ := bind_ok h
      obtain ⟨m, hm, h⟩ := bind_ok h
      obtain ⟨t, ht, h⟩ := bind_ok h
      cases h
      rw [bad_ok] at hk hm ht
      have hb : BlankInsert db c .insertIfRecent ↔
          m.state = some "" ∧ stale db (UserDevice.newSyncRecord ⟨key, m.state⟩ t) = false := by
        constructor
        · rintro ⟨-, key', m', hk', hm', hs, h | ⟨-, t', ht', hst⟩⟩
          · cases h
          · rw [hk] at hk'; rw [hm] at hm'; rw [ht] at ht'
            cases hk'; cases hm'; cases ht'
            exact ⟨hs, hst⟩
        · rintro ⟨hs, hst⟩
          exact ⟨hn, key, m, hk, hm, hs, Or.inr ⟨rfl, t, ht, hst⟩⟩
      rw [reply_fst, InsertIfRecent_eq]
      cases hst : stale db (UserDevice.newSyncRecord ⟨key, m.state⟩ t) with
      | true => exact .same (by rw [hb, hst]; simp)
      | false => exact wrote_insert t (parseKey_named hk) (by rw [hb, hst]; simp)
    | insertOne =>
      obtain ⟨_, hn, h⟩ := bind_ok h
      obtain ⟨key, hk, h⟩ := bind_ok h
      obtain ⟨m, hm, h⟩ := bind_ok h
      cases h
      rw [bad_ok] at hk hm
      rw [reply_fst]
      refine wrote_insert c.nowMillis (parseKey_named hk) ⟨?_, fun hs => ?_⟩
      · rintro ⟨-, key', m', hk', hm', hs, -⟩
        rw [hm] at hm'; cases hm'; exact hs
      · exact ⟨hn, key, m, hk, hm, hs, Or.inl rfl⟩
    | deleteIfRecent =>
      obtain ⟨_, -, h⟩ := bind_ok h
      obtain ⟨key, hk, h⟩ := bind_ok h
      obtain ⟨m, -, h⟩ := bind_ok h
      obtain ⟨t, -, h⟩ := bind_ok h
      cases h
      rw [reply_fst, DeleteIfRecent_eq]
      split
      · exact .same (not_blank nofun nofun)
      · exact .put _ _ _ (parseKey_named (bad_ok.mp hk)) (by simp [not_blank])
    | deleteOne =>
      obtain ⟨_, -, h⟩ := bind_ok h
      obtain ⟨key, hk, h⟩ := bind_ok h
      cases h
      rw [reply_fst, DeleteOne_eq]
      exact .put _ _ _ (parseKey_named (bad_ok.mp hk)) (by simp [not_blank])

/-! ## The invariant -/

structure Inv (db : DB) : Prop where
  journaled : ∀ k, db.userDeviceJournal.lookup k = none → db.userDevice.lookup k = none
  named : ∀ k, db.userDeviceJournal.lookup k ≠ none → k.uniqueID ≠ ""

/-- No live row has an empty state. -/
def Filled (db : DB) : Prop := ∀ k, db.userDevice.lookup k ≠ some ""

theorem inv_put (h : Inv db) {k : Key} (hk : k.uniqueID ≠ "") (t : Int) (v : Option String) : Inv (put db k t v) := by
  refine ⟨fun k' hj => ?_, fun k' hj => ?_⟩
  · rw [put_journal] at hj
    split at hj
    · cases hj
    · rename_i hne
      rw [put_row, if_neg hne]; exact h.journaled k' hj
  · rw [put_journal] at hj
    split at hj
    · rename_i he; rw [he]; exact hk
    · exact h.named k' hj

theorem filled_put (h : Filled db) {v : Option String} (hv : v ≠ some "") (k : Key) (t : Int) :
    Filled (put db k t v) := by
  intro k'
  rw [put_row]
  split
  · exact hv
  · exact h k'

theorem inv_changes (h : Inv db) (u : Int) (l : List UserDeviceSyncRecord) : Inv (changes u db l) := by
  refine List.foldlRecOn l (change u) h fun db h sr _ => ?_
  unfold change
  split
  · rename_i ha
    have hk : (⟨sr.uniqueID, u⟩ : Key).uniqueID ≠ "" := ((accepts_iff db sr u).mp ha).1
    exact inv_put h hk _ _
  · exact h

theorem filled_changes (h : Filled db) (u : Int) (l : List UserDeviceSyncRecord) : Filled (changes u db l) := by
  refine List.foldlRecOn l (change u) h fun db h sr _ => ?_
  unfold change
  split
  · exact filled_put h (payload_ne_empty sr) _ _
  · exact h

theorem inv_cleared (h : Inv db) (u : Int) : Inv (cleared db u) := by
  refine ⟨fun k hj => ?_, fun k hj => ?_⟩
  · simp only [cleared, deleteUser_lookup] at hj ⊢
    split
    · rfl
    · rename_i hne; rw [if_neg hne] at hj; exact h.journaled k hj
  · simp only [cleared, deleteUser_lookup] at hj
    split at hj
    · exact absurd rfl hj
    · exact h.named k hj

theorem filled_cleared (h : Filled db) (u : Int) : Filled (cleared db u) := by
  intro k
  simp only [cleared, deleteUser_lookup]
  split
  · simp
  · exact h k

theorem inv_wrote {b : Prop} {db' : DB} (h : Inv db) (hw : Wrote db b db') : Inv db' := by
  cases hw with
  | same => exact h
  | merged u l _ => exact inv_changes h u l
  | replaced u l _ =>
    refine List.foldlRecOn l (place u) (inv_cleared h u) fun db h sr _ => ?_
    unfold place
    split
    · rename_i hp
      have hk : (⟨sr.uniqueID, u⟩ : Key).uniqueID ≠ "" := hp.2
      exact inv_put h hk _ _
    · exact h
  | put k t v hk _ => exact inv_put h hk t v

/-- A request keeps every live row's state non-empty unless it is a blank insert. -/
theorem filled_wrote {b : Prop} {db' : DB} (h : Filled db) (hw : Wrote db b db') : Filled db' ↔ ¬ b := by
  cases hw with
  | same hb => exact iff_of_true h hb
  | merged u l hb => exact iff_of_true (filled_changes h u l) hb
  | replaced u l hb =>
    refine iff_of_true (List.foldlRecOn l (place u) (filled_cleared h u) fun db h sr _ => ?_) hb
    unfold place
    split
    · exact filled_put h (payload_ne_empty sr) _ _
    · exact h
  | put k t v _ hv =>
    refine ⟨fun hf hb => hf k ?_, fun hb => filled_put h (fun e => hb (hv.mp e)) k t⟩
    rw [put_row, if_pos rfl]; exact hv.mpr hb

/-! ## The replica -/

/-- The replica has the source's live row and journal row for every unique id of `u`,
    whatever order the database lists the journal in. -/
def Rebuilds (db : DB) (u : Int) : Prop :=
  ∀ l, l.Perm (getRaw db u) → ∀ k,
    (HandleChanges DB.empty l u).1.userDeviceJournal.lookup ⟨k, u⟩ = db.userDeviceJournal.lookup ⟨k, u⟩ ∧
      (HandleChanges DB.empty l u).1.userDevice.lookup ⟨k, u⟩ = db.userDevice.lookup ⟨k, u⟩

/-- What the receiver makes of a live row: the row, or nothing when its state is empty. -/
def received : Option String → Option String
  | some s => if s = "" then none else some s
  | none => none

theorem payload_join (db : DB) (j : UserDeviceJournal) : payload (join db j) = received (db.userDevice.lookup j.key) := by
  unfold payload join UserDeviceSyncRecord.hasDiscriminator received
  cases db.userDevice.lookup j.key with
  | none => rfl
  | some s => by_cases h : s = "" <;> simp [h]

theorem received_eq (v : Option String) : received v = v ↔ v ≠ some "" := by
  unfold received
  cases v with
  | none => simp
  | some s => by_cases h : s = "" <;> simp [h]

theorem mem_getRaw {u : Int} {sr : UserDeviceSyncRecord} :
    sr ∈ getRaw db u ↔ ∃ j ∈ journalRows db u, join db j = sr := List.mem_map

theorem empty_lookups (k : Key) : DB.empty.userDeviceJournal.lookup k = none ∧ DB.empty.userDevice.lookup k = none :=
  ⟨rfl, rfl⟩

/-- The rows of the replica: the journal as it is, each live row as it is received. -/
theorem rebuild_rows (h : Inv db) {u : Int} {l : List UserDeviceSyncRecord} (hl : l.Perm (getRaw db u)) (k : String) :
    (HandleChanges DB.empty l u).1.userDeviceJournal.lookup ⟨k, u⟩ = db.userDeviceJournal.lookup ⟨k, u⟩ ∧
      (HandleChanges DB.empty l u).1.userDevice.lookup ⟨k, u⟩ = received (db.userDevice.lookup ⟨k, u⟩) := by
  rw [HandleChanges_eq]
  have gone : db.userDeviceJournal.lookup ⟨k, u⟩ = none →
      none = db.userDeviceJournal.lookup ⟨k, u⟩ ∧ none = received (db.userDevice.lookup ⟨k, u⟩) := fun hj =>
    ⟨hj.symm, by rw [h.journaled _ hj]; rfl⟩
  by_cases hk : k = ""
  · have hr := reg_eq_iff.mp (reg_changes_empty DB.empty u l)
    rw [hk, hr.1, hr.2, (empty_lookups _).1, (empty_lookups _).2, ← hk]
    exact gone (not_not.mp fun hne => h.named _ hne hk)
  · rcases lastWriterWins_of_writes (reg_changes DB.empty u l hk) with
      ⟨sr, hsr, hsk, -, -, hj, hrow⟩ | ⟨hnone, hj, hrow⟩
    · obtain ⟨j, hm, rfl⟩ := mem_getRaw.mp (hl.mem_iff.mp hsr)
      obtain ⟨hlk, hu⟩ := mem_journalRows.mp hm
      have hkey : j.key = ⟨k, u⟩ := by rw [← hu, ← hsk]; rfl
      rw [hkey] at hlk
      refine ⟨hj.trans hlk.symm, hrow.trans ?_⟩
      rw [← hkey, ← payload_join]; rfl
    · rw [hj, hrow, (empty_lookups _).1, (empty_lookups _).2]
      refine gone ?_
      by_contra hne
      obtain ⟨t, ht⟩ := Option.ne_none_iff_exists'.mp hne
      have hm : join db ⟨⟨k, u⟩, t⟩ ∈ l := hl.mem_iff.mpr (mem_getRaw.mpr ⟨_, mem_journalRows.mpr ⟨ht, rfl⟩, rfl⟩)
      obtain ⟨t', ht', -⟩ := hnone _ hm rfl
      cases ht'

theorem rebuilds_iff_filled (h : Inv db) : (∀ u, Rebuilds db u) ↔ Filled db := by
  constructor
  · intro hr k
    have := (hr k.userID _ (List.Perm.refl _) k.uniqueID).2
    rw [(rebuild_rows h (List.Perm.refl _) k.uniqueID).2, received_eq] at this
    exact this
  · intro hf u l hl k
    obtain ⟨h1, h2⟩ := rebuild_rows h hl k
    exact ⟨h1, h2.trans ((received_eq _).mpr (hf _))⟩

/-! ## Runs -/

def sys : System DB (Route × Context) where
  init db := db = DB.empty
  step db e := some (serve db e.2 e.1).1

def Discriminates (db : DB) (e : Route × Context) : Prop := ¬ BlankInsert db e.2 e.1

theorem reach_inv (h : Reach sys Discriminates db) : Inv db ∧ Filled db := by
  refine h.inv (P := fun db => Inv db ∧ Filled db) ?_ ?_
  · rintro _ rfl
    exact ⟨⟨fun _ _ => rfl, fun _ hj => absurd rfl hj⟩, fun _ hr => by cases hr⟩
  · rintro db e db' ⟨hi, hf⟩ hd hs
    cases hs
    exact ⟨inv_wrote hi (serve_wrote e.1), (filled_wrote hf (serve_wrote e.1)).mpr hd⟩

theorem getChangesAfter_all {u lo : Int} (h : ∀ j ∈ journalRows db u, lo < j.lastModified) :
    getChangesAfter db lo u = getRaw db u := by
  unfold getChangesAfter getRaw
  rw [List.filter_eq_self.mpr fun j hj => by simpa using h j hj]

/-- In a run with no insert of an empty state, the records of `GetRaw` (or of
    `GetChangesAfter` below every timestamp) rebuild the source, for each user; the
    request after it keeps that so exactly when it is no such insert either. -/
theorem rebuilds_iff_discriminates (h : Reach sys Discriminates db) (r : Route) (c : Context) :
    (∀ u, Rebuilds db u) ∧
    (∀ u lo, (∀ j ∈ journalRows db u, lo < j.lastModified) → getChangesAfter db lo u = getRaw db u) ∧
    (Discriminates db (r, c) ↔ ∀ u, Rebuilds (serve db c r).1 u) := by
  obtain ⟨hi, hf⟩ := reach_inv h
  refine ⟨(rebuilds_iff_filled hi).mpr hf, fun u lo => getChangesAfter_all, ?_⟩
  rw [rebuilds_iff_filled (inv_wrote hi (serve_wrote r)), filled_wrote hf (serve_wrote r)]; rfl

/-- An insert of `state` under `lamp` by user 1, at time 7. -/
def insertLamp (state : String) : Context :=
  { name := "user_device", subject := .ok 1, uniqueid := "lamp", millis := .ok 0, rows := .ok []
    row := .ok ⟨⟨"", 0⟩, some state⟩, nowMillis := 7 }

theorem lamp_is_rebuilt : Rebuilds (serve DB.empty (insertLamp "on") .insertOne).1 1 := by
  have hd : Discriminates DB.empty (.insertOne, insertLamp "on") := by
    rintro ⟨-, key, m, -, hm, hs, -⟩
    cases hm
    exact absurd hs (by decide)
  exact (rebuilds_iff_discriminates (.init rfl) .insertOne (insertLamp "on")).2.2.mp hd 1

/-- A lamp inserted with the empty state is live in the source and deleted in the replica. -/
theorem blank_state_is_not_rebuilt :
    let r := serve DB.empty (insertLamp "") .insertOne
    r.2 = .ok (.lastModified 7) ∧ r.1.userDevice.lookup ⟨"lamp", 1⟩ = some "" ∧
      (HandleChanges DB.empty (getRaw r.1 1) 1).1.userDevice.lookup ⟨"lamp", 1⟩ = none ∧
      ¬ ∀ u, Rebuilds r.1 u := by
  intro r
  refine ⟨rfl, rfl, rfl, fun h => ?_⟩
  exact absurd (h 1 _ (List.Perm.refl _) "lamp").2 (by decide)

end GenieCloud.Dbproxy.SyncTable
