/-
  GenieCloud.Sql.SyncClients — clients keeping up with the journal by `SyncAt`.

  Each client belongs to a user (`owner`) and holds a cursor, first `lo`, below every
  timestamp, and the changes it has seen. A step is one client's whole transaction: it
  sends its cursor and the records it pushes, takes the answer's timestamp as its cursor
  and adds the answer's changes and its own accepted records to what it has seen. The
  answer's timestamp and changes are read before the pushed records are handled.

  The cursor is one maximum over all of the user's keys, while a pushed record is
  accepted against the row of its own key alone. A record accepted under a timestamp at
  or below another client's cursor is never reported to that client
  (`late_push_is_lost`).

  `Overtakes`: every record a push leaves in the journal is newer than the cursor of
  each of the user's other clients. In a run whose steps all meet it a client knows,
  after its `SyncAt`, every row that was there before it; and a step that breaks it has
  another client miss a row at its next `SyncAt` (`no_lost_update_iff_overtakes`).
-/

import GenieCloud.Lib.Runs
import GenieCloud.Sql.Merge

namespace GenieCloud.Sql.SyncClients

open GenieCloud.Lib.Lww GenieCloud.Lib.Runs GenieCloud.Sql.SyncTable GenieCloud.Sql.Merge

abbrev Change := String × Int

structure Client where
  cursor : Int
  seen : List Change

structure St where
  db : DB
  clients : Nat → Client

inductive Ev where
  | sync (c : Nat) (pushed : List UserDeviceSyncRecord)

def changeOf (sr : UserDeviceSyncRecord) : Change := (sr.uniqueID, sr.getLastModified)

def accepted (pushed : List UserDeviceSyncRecord) (done : List Bool) : List UserDeviceSyncRecord :=
  ((pushed.zip done).filter (·.2)).map (·.1)

/-- What a client makes of the answer to the records it pushed. -/
def Client.take (c : Client) (pushed : List UserDeviceSyncRecord) (r : SyncAtResult) : Client :=
  { cursor := r.lastModified
    seen := c.seen ++ r.ourChanges.map changeOf ++ (accepted pushed r.done).map changeOf }

variable (owner : Nat → Int) (lo : Int)

def step (s : St) : Ev → Option St
  | .sync c pushed =>
    if pushed.all (lo < ·.getLastModified) then
      match SyncAt s.db (s.clients c).cursor (owner c) pushed with
      | (db, .ok r) => some ⟨db, Function.update s.clients c ((s.clients c).take pushed r)⟩
      | (db, .error _) => some { s with db := db }
    else none

def sys : System St Ev where
  init s := (∀ c, s.clients c = ⟨lo, []⟩) ∧ ∀ u, ∀ j ∈ journalRows s.db u, lo < j.lastModified
  step := step owner lo

/-- The client has seen the change a row of the journal records. -/
def Knows (c : Client) (j : UserDeviceJournal) : Prop := (j.key.uniqueID, j.lastModified) ∈ c.seen

/-- Every change the push leaves in the journal is newer than the cursor of each other
    client of the user. -/
def Overtakes (s : St) : Ev → Prop
  | .sync c pushed =>
    ∀ sr ∈ pushed, sr.uniqueID ≠ "" →
      (∀ t, s.db.userDeviceJournal.lookup ⟨sr.uniqueID, owner c⟩ = some t → t < sr.getLastModified) →
      (∀ x ∈ pushed, x.uniqueID = sr.uniqueID → x.getLastModified ≤ sr.getLastModified) →
      ∀ d, d ≠ c → owner d = owner c → (s.clients d).cursor < sr.getLastModified

/-! ## One transaction -/

def after (s : St) (c : Nat) (pushed : List UserDeviceSyncRecord) : St :=
  ⟨changes (owner c) s.db pushed, Function.update s.clients c
    ((s.clients c).take pushed (answer s.db (s.clients c).cursor (owner c) pushed))⟩

theorem step_eq {s t : St} {c : Nat} {pushed : List UserDeviceSyncRecord}
    (h : step owner lo s (.sync c pushed) = some t) :
    t = after owner s c pushed := by
  simp only [step, SyncAt_eq] at h
  split at h
  · exact (Option.some.inj h).symm
  · cases h

@[simp] theorem after_self (s : St) (c : Nat) (pushed : List UserDeviceSyncRecord) :
    (after owner s c pushed).clients c =
      (s.clients c).take pushed (answer s.db (s.clients c).cursor (owner c) pushed) := Function.update_self ..

theorem after_other (s : St) {c d : Nat} (hd : d ≠ c) (pushed : List UserDeviceSyncRecord) :
    (after owner s c pushed).clients d = s.clients d := Function.update_of_ne hd ..

theorem journalRows_of_ne {db : DB} {u u' : Int} (hu : u' ≠ u) (l : List UserDeviceSyncRecord)
    {j : UserDeviceJournal} : j ∈ journalRows (changes u db l) u' ↔ j ∈ journalRows db u' := by
  rw [mem_journalRows, mem_journalRows, and_congr_left_iff]
  intro hj
  have := (reg_eq_iff.mp (other_user_unchanged db u u' hu l j.key.uniqueID)).1
  rw [← hj] at this
  rw [show j.key = ⟨j.key.uniqueID, j.key.userID⟩ from rfl, this]

@[simp] theorem accepted_cons (sr : UserDeviceSyncRecord) (l : List UserDeviceSyncRecord) (b : Bool)
    (done : List Bool) : accepted (sr :: l) (b :: done) = if b then sr :: accepted l done else accepted l done := by
  cases b <;> simp [accepted]

/-- A row after the push was there before it or is one of its accepted records. -/
theorem row_old_or_accepted (u : Int) (l : List UserDeviceSyncRecord) (db : DB) {j : UserDeviceJournal}
    (h : j ∈ journalRows (changes u db l) u) :
    j ∈ journalRows db u ∨ ∃ sr ∈ accepted l (results u db l), changeOf sr = (j.key.uniqueID, j.lastModified) := by
  induction l generalizing db with
  | nil => exact Or.inl h
  | cons sr l ih =>
    rcases ih (change u db sr) h with hj | ⟨x, hx, he⟩
    · by_cases ha : accepts db sr u = true
      · rw [mem_journalRows, change, if_pos ha, put_journal] at hj
        obtain ⟨hl, hu⟩ := hj
        split at hl
        · rename_i hk
          right
          refine ⟨sr, by simp [results, ha], ?_⟩
          rw [hk, ← Option.some.inj hl]; rfl
        · exact Or.inl (mem_journalRows.mpr ⟨hl, hu⟩)
      · left
        rwa [change, if_neg ha] at hj
    · right
      refine ⟨x, ?_, he⟩
      rw [results, accepted_cons]
      split
      · exact List.mem_cons_of_mem _ hx
      · exact hx

theorem mem_of_accepted {l : List UserDeviceSyncRecord} {done : List Bool} {sr : UserDeviceSyncRecord}
    (h : sr ∈ accepted l done) : sr ∈ l := by
  obtain ⟨x, hx, rfl⟩ := List.mem_map.mp h
  exact (List.of_mem_zip (List.mem_filter.mp hx).1).1

theorem uniqueID_of_accepted (u : Int) {l : List UserDeviceSyncRecord} {db : DB} {sr : UserDeviceSyncRecord}
    (h : sr ∈ accepted l (results u db l)) : sr.uniqueID ≠ "" := by
  induction l generalizing db with
  | nil => cases h
  | cons x l ih =>
    rw [results, accepted_cons] at h
    split at h
    · rename_i ha
      rcases List.mem_cons.mp h with rfl | h
      · exact ((accepts_iff db sr u).mp ha).1
      · exact ih h
    · exact ih h

/-- No row goes back, and none stays behind a pushed record. -/
theorem row_ge (u : Int) (db : DB) (l : List UserDeviceSyncRecord) {k : String} {t : Int}
    (h : db.userDeviceJournal.lookup ⟨k, u⟩ = some t ∨ k ≠ "" ∧ ∃ sr ∈ l, sr.uniqueID = k ∧ sr.getLastModified = t) :
    ∃ t', (changes u db l).userDeviceJournal.lookup ⟨k, u⟩ = some t' ∧ t ≤ t' := by
  have key : (t : WithBot Int) ≤ (reg (changes u db l) u k).stamp := by
    rcases h with h | ⟨hk, sr, hsr, rfl, rfl⟩
    · have hs : (reg db u k).stamp = t := by simp only [reg, h, stampOf]
      by_cases hk : k = ""
      · rw [hk, reg_changes_empty, ← hk, hs]
      · rw [reg_changes _ _ _ hk, ← hs]; exact stamp_le_writes _ _
    · rw [reg_changes _ _ _ hk]; exact mem_le_writes _ (mem_writesTo hsr)
  simp only [reg] at key
  cases hl : (changes u db l).userDeviceJournal.lookup ⟨k, u⟩ with
  | none => rw [hl] at key; simp [stampOf] at key
  | some t' => rw [hl] at key; exact ⟨t', rfl, WithBot.coe_le_coe.mp key⟩

/-- No row of any user goes back. -/
theorem row_mono (u u' : Int) (db : DB) (l : List UserDeviceSyncRecord) {k : String} {t : Int}
    (h : db.userDeviceJournal.lookup ⟨k, u'⟩ = some t) :
    ∃ t', (changes u db l).userDeviceJournal.lookup ⟨k, u'⟩ = some t' ∧ t ≤ t' := by
  by_cases hu : u' = u
  · subst hu; exact row_ge u' db l (Or.inl h)
  · exact ⟨t, by rw [(reg_eq_iff.mp (other_user_unchanged db u u' hu l k)).1, h], le_refl _⟩

/-! ## The invariant -/

structure Inv (s : St) : Prop where
  /-- A client knows every row at or below its cursor. -/
  caught : ∀ c, ∀ j ∈ journalRows s.db (owner c), j.lastModified ≤ (s.clients c).cursor → Knows (s.clients c) j
  /-- What a client has seen of a key is not newer than the key's row. -/
  seenLe : ∀ c k t, (k, t) ∈ (s.clients c).seen →
    ∃ t', s.db.userDeviceJournal.lookup ⟨k, owner c⟩ = some t' ∧ t ≤ t'

theorem init_inv {s : St} (h : (sys owner lo).init s) : Inv owner s := by
  obtain ⟨hc, hj⟩ := h
  refine ⟨fun c j hm hle => ?_, fun c k t hm => ?_⟩
  · have := hj _ j hm
    rw [hc] at hle
    exact absurd hle (by simp only; omega)
  · rw [hc] at hm; cases hm

/-- After its own transaction a client knows every row, those it found and those it left. -/
theorem knows_after {s : St} (hi : Inv owner s) (c : Nat) (pushed : List UserDeviceSyncRecord)
    {j : UserDeviceJournal}
    (hj : j ∈ journalRows s.db (owner c) ∨ j ∈ journalRows (changes (owner c) s.db pushed) (owner c)) :
    Knows ((after owner s c pushed).clients c) j := by
  rw [after_self]
  have hold : j ∈ journalRows s.db (owner c) → (j.key.uniqueID, j.lastModified) ∈
      (s.clients c).seen ++ (getChangesAfter s.db (s.clients c).cursor (owner c)).map changeOf := by
    intro hj
    by_cases hle : j.lastModified ≤ (s.clients c).cursor
    · exact List.mem_append_left _ (hi.caught c j hj hle)
    · exact List.mem_append_right _ (List.mem_map.mpr ⟨_, mem_getChangesAfter.mpr ⟨hj, by omega⟩, rfl⟩)
  rcases hj with hj | hj
  · exact List.mem_append_left _ (hold hj)
  · rcases row_old_or_accepted _ _ _ hj with hj | ⟨sr, hsr, he⟩
    · exact List.mem_append_left _ (hold hj)
    · exact List.mem_append_right _ (List.mem_map.mpr ⟨sr, hsr, he⟩)

theorem seenLe_after {s : St} (hi : Inv owner s) (c : Nat) (pushed : List UserDeviceSyncRecord) {k : String} {t : Int}
    (h : (k, t) ∈ ((after owner s c pushed).clients c).seen) :
    ∃ t', (changes (owner c) s.db pushed).userDeviceJournal.lookup ⟨k, owner c⟩ = some t' ∧ t ≤ t' := by
  rw [after_self] at h
  rcases List.mem_append.mp h with h | h
  · have : ∃ t', s.db.userDeviceJournal.lookup ⟨k, owner c⟩ = some t' ∧ t ≤ t' := by
      rcases List.mem_append.mp h with h | h
      · exact hi.seenLe c k t h
      · obtain ⟨x, hx, he⟩ := List.mem_map.mp h
        obtain ⟨j, hj, rfl⟩ := List.mem_map.mp hx
        obtain ⟨hl, hu⟩ := mem_journalRows.mp (List.mem_filter.mp hj).1
        obtain ⟨rfl, rfl⟩ := Prod.mk.inj he
        exact ⟨_, by rw [← hu]; exact hl, le_refl _⟩
    obtain ⟨t1, h1, hle⟩ := this
    obtain ⟨t2, h2, hle'⟩ := row_ge (owner c) s.db pushed (Or.inl h1)
    exact ⟨t2, h2, by omega⟩
  · obtain ⟨sr, hsr, he⟩ := List.mem_map.mp h
    obtain ⟨rfl, rfl⟩ := Prod.mk.inj he
    exact row_ge _ _ _ (Or.inr ⟨uniqueID_of_accepted _ hsr, sr, mem_of_accepted hsr, rfl, rfl⟩)

/-- A row of another client's user that a push left is newer than that client's cursor. -/
theorem new_row_overtakes {s : St} {c : Nat} {pushed : List UserDeviceSyncRecord}
    (ho : Overtakes owner s (.sync c pushed)) {d : Nat} (hd : d ≠ c) {j : UserDeviceJournal}
    (hj : j ∈ journalRows (changes (owner c) s.db pushed) (owner d)) :
    j ∈ journalRows s.db (owner d) ∨ (s.clients d).cursor < j.lastModified := by
  by_cases hu : owner d = owner c
  · rw [hu] at hj ⊢
    obtain ⟨hl, hju⟩ := mem_journalRows.mp hj
    have hkey : j.key = ⟨j.key.uniqueID, owner c⟩ := by rw [← hju]
    rw [hkey] at hl
    by_cases hk : j.key.uniqueID = ""
    · have := (reg_eq_iff.mp (reg_changes_empty s.db (owner c) pushed)).1
      rw [hk] at hl
      exact Or.inl (mem_journalRows.mpr ⟨by rw [hkey, hk, ← this, hl], hju⟩)
    · rcases lastWriterWins_of_writes (reg_changes s.db (owner c) pushed hk) with
        ⟨sr, hsr, hsk, hnew, hmax, hj', -⟩ | ⟨-, hj', -⟩
      · right
        rw [hl] at hj'
        rw [Option.some.inj hj']
        exact ho sr hsr (hsk ▸ hk) (hsk ▸ hnew) (hsk ▸ hmax) d hd hu
      · exact Or.inl (mem_journalRows.mpr ⟨by rw [hkey, ← hj', hl], hju⟩)
  · exact Or.inl ((journalRows_of_ne hu pushed).mp hj)

theorem step_inv {s t : St} (hi : Inv owner s) {e : Ev} (ho : Overtakes owner s e)
    (hs : step owner lo s e = some t) : Inv owner t := by
  obtain ⟨c, pushed⟩ := e
  rw [step_eq owner lo hs]
  refine ⟨fun d j hj hle => ?_, fun d k x hx => ?_⟩
  · by_cases hd : d = c
    · subst hd; exact knows_after owner hi d pushed (Or.inr hj)
    · rw [after_other owner s hd] at hle ⊢
      rcases new_row_overtakes owner ho hd hj with hj | hlt
      · exact hi.caught d j hj hle
      · omega
  · by_cases hd : d = c
    · subst hd; exact seenLe_after owner hi d pushed hx
    · rw [after_other owner s hd] at hx
      obtain ⟨t', h1, h2⟩ := hi.seenLe d k x hx
      obtain ⟨t'', h3, h4⟩ := row_mono (owner c) (owner d) s.db pushed h1
      exact ⟨t'', h3, by omega⟩

theorem inv {s : St} (h : Reach (sys owner lo) (Overtakes owner) s) : Inv owner s :=
  h.inv (fun _ h0 => init_inv owner lo h0) fun _ _ _ hi ho hs => step_inv owner lo hi ho hs

/-! ## No lost update -/

theorem step_some {s : St} {c : Nat} {pushed : List UserDeviceSyncRecord}
    (h : ∀ sr ∈ pushed, lo < sr.getLastModified) :
    step owner lo s (.sync c pushed) = some (after owner s c pushed) := by
  simp only [step, SyncAt_eq]
  rw [if_pos (List.all_eq_true.mpr fun sr hsr => by simpa using h sr hsr)]; rfl

/-- The record of greatest timestamp, when it beats the row, is the row afterwards. -/
theorem greatest_is_row (u : Int) (db : DB) {l : List UserDeviceSyncRecord} {sr : UserDeviceSyncRecord} (hsr : sr ∈ l)
    (h0 : sr.uniqueID ≠ "")
    (hnew : ∀ t, db.userDeviceJournal.lookup ⟨sr.uniqueID, u⟩ = some t → t < sr.getLastModified)
    (hmax : ∀ x ∈ l, x.uniqueID = sr.uniqueID → x.getLastModified ≤ sr.getLastModified) :
    ⟨⟨sr.uniqueID, u⟩, sr.getLastModified⟩ ∈ journalRows (changes u db l) u := by
  refine mem_journalRows.mpr ⟨?_, rfl⟩
  rcases lastWriterWins_of_writes (reg_changes db u l h0) with ⟨x, hx, hk, -, hge, hj, -⟩ | ⟨hle, -, -⟩
  · rw [hj, le_antisymm (hmax x hx hk) (hge sr hsr rfl)]
  · obtain ⟨t, ht, hlt⟩ := hle sr hsr rfl
    have := hnew t ht
    omega

/-- A push that does not overtake a client leaves a row the client's next `SyncAt` does
    not bring it. -/
theorem missed_unless_overtakes {s : St} (hi : Inv owner s) {c : Nat} {pushed : List UserDeviceSyncRecord}
    (ho : ¬ Overtakes owner s (.sync c pushed)) :
    ∃ d, ∃ j ∈ journalRows (after owner s c pushed).db (owner d),
      ¬ Knows ((after owner (after owner s c pushed) d []).clients d) j := by
  simp only [Overtakes, not_forall, not_lt] at ho
  obtain ⟨sr, hsr, h0, hnew, hmax, d, hd, hu, hle⟩ := ho
  refine ⟨d, ⟨⟨sr.uniqueID, owner d⟩, sr.getLastModified⟩, ?_, ?_⟩
  · rw [hu]; exact greatest_is_row _ _ hsr h0 hnew hmax
  · rw [after_self, after_other owner s hd]
    simp only [Knows, Client.take, answer, accepted, List.zip_nil_left, List.filter_nil, List.map_nil,
      List.append_nil, List.mem_append, not_or]
    constructor
    · intro hm
      obtain ⟨t', h1, h2⟩ := hi.seenLe d _ _ hm
      have := hnew t' (by rw [← hu]; exact h1)
      omega
    · intro hm
      obtain ⟨x, hx, he⟩ := List.mem_map.mp hm
      obtain ⟨j, hj, rfl⟩ := List.mem_map.mp hx
      have hlt := (List.mem_filter.mp hj).2
      obtain ⟨-, hj2⟩ := Prod.mk.inj he
      simp only [UserDeviceSyncRecord.getLastModified, join] at hj2
      simp only [decide_eq_true_eq] at hlt
      simp only [UserDeviceSyncRecord.getLastModified] at hle
      omega

theorem journal_path {s t : St} (h : Path (sys owner lo) (Overtakes owner) s t) {k : Key} {x : Int}
    (hx : s.db.userDeviceJournal.lookup k = some x) :
    ∃ y, t.db.userDeviceJournal.lookup k = some y ∧ x ≤ y := by
  refine h.rel (R := fun s t => ∀ k x, s.db.userDeviceJournal.lookup k = some x →
    ∃ y, t.db.userDeviceJournal.lookup k = some y ∧ x ≤ y) (fun s k x hx => ⟨x, hx, le_refl _⟩) ?_ ?_ k x hx
  · intro s t u h1 h2 k x hx
    obtain ⟨y, hy, hle⟩ := h1 k x hx
    obtain ⟨z, hz, hle'⟩ := h2 k y hy
    exact ⟨z, hz, by omega⟩
  · rintro s ⟨c, pushed⟩ t - hs k x hx
    rw [step_eq owner lo hs]
    exact row_mono (owner c) k.userID s.db pushed hx

/-- In a run whose pushes all overtake the other clients, a client knows after its
    `SyncAt` every row that was there before it, and a change reported done reaches each
    client of the user at its next `SyncAt`, unless a newer one of its key replaced it.
    A push that does not overtake them has another client miss a row at its next one. -/
theorem no_lost_update_iff_overtakes {s t : St} (h : Reach (sys owner lo) (Overtakes owner) s) {c : Nat}
    {pushed : List UserDeviceSyncRecord} (hs : step owner lo s (.sync c pushed) = some t) :
    (∀ j ∈ journalRows s.db (owner c), Knows (t.clients c) j) ∧
    (Overtakes owner s (.sync c pushed) ↔ ∀ d pushed' u, step owner lo t (.sync d pushed') = some u →
      ∀ j ∈ journalRows t.db (owner d), Knows (u.clients d) j) ∧
    (Overtakes owner s (.sync c pushed) → ∀ r, (SyncAt s.db (s.clients c).cursor (owner c) pushed).2 = .ok r →
      ∀ v, Path (sys owner lo) (Overtakes owner) t v → ∀ d pushed' u, owner d = owner c →
        step owner lo v (.sync d pushed') = some u → ∀ sr ∈ accepted pushed r.done,
          ∃ t', v.db.userDeviceJournal.lookup ⟨sr.uniqueID, owner c⟩ = some t' ∧ sr.getLastModified ≤ t' ∧
            (sr.uniqueID, t') ∈ (u.clients d).seen) := by
  have hi := inv owner lo h
  have ht := step_eq owner lo hs
  have knows : ∀ {s t : St}, Reach (sys owner lo) (Overtakes owner) s → ∀ {c pushed},
      step owner lo s (.sync c pushed) = some t → ∀ j ∈ journalRows s.db (owner c), Knows (t.clients c) j := by
    intro s t h c pushed hs j hj
    rw [step_eq owner lo hs]
    exact knows_after owner (inv owner lo h) c pushed (Or.inl hj)
  refine ⟨knows h hs, ⟨fun ho d pushed' u hu => knows (.step _ h ho hs) hu, fun hall => ?_⟩, ?_⟩
  · by_contra ho
    obtain ⟨d, j, hj, hk⟩ := missed_unless_overtakes owner hi ho
    subst ht
    exact hk (hall d [] _ (step_some owner lo (by simp)) j hj)
  · intro ho r hr v hv d pushed' u hd hu sr hsr
    rw [SyncAt_eq] at hr
    cases hr
    have hrow : ∃ y, t.db.userDeviceJournal.lookup ⟨sr.uniqueID, owner c⟩ = some y ∧ sr.getLastModified ≤ y := by
      rw [ht]
      exact row_ge _ _ _ (Or.inr ⟨uniqueID_of_accepted _ hsr, sr, mem_of_accepted hsr, rfl, rfl⟩)
    obtain ⟨y, hy, hle⟩ := hrow
    obtain ⟨z, hz, hle'⟩ := journal_path owner lo hv hy
    refine ⟨z, hz, by omega, ?_⟩
    have hj : ⟨⟨sr.uniqueID, owner c⟩, z⟩ ∈ journalRows v.db (owner d) := mem_journalRows.mpr ⟨hz, hd.symm⟩
    exact knows ((Reach.step _ h ho hs).path hv) hu _ hj

def fresh : St := ⟨DB.empty, fun _ => ⟨0, []⟩⟩

def record (k : String) (t : Int) : UserDeviceSyncRecord := ⟨⟨⟨k, 1⟩, t⟩, some "on"⟩

theorem fresh_init (owner : Nat → Int) : (sys owner 0).init fresh :=
  ⟨fun _ => rfl, fun u j hj => by
    obtain ⟨h, -⟩ := mem_journalRows.mp hj
    simp [fresh, DB.empty] at h⟩

/-- Two clients of one user; the first pushes a newer record and the other learns of it. -/
theorem newer_push_reaches_the_other :
    let s := after (fun _ => 1) fresh 0 [record "lamp" 100]
    ∀ j ∈ journalRows s.db 1, Knows ((after (fun _ => 1) s 1 []).clients 1) j := by
  intro s
  have ho : Overtakes (fun _ => 1) fresh (.sync 0 [record "lamp" 100]) := by
    intro sr hsr _ _ _ d _ _
    rw [List.mem_singleton.mp hsr]; exact (by decide : (0 : Int) < 100)
  have hs : step (fun _ => 1) 0 fresh (.sync 0 [record "lamp" 100]) = some s :=
    step_some _ _ (by decide)
  exact ((no_lost_update_iff_overtakes (fun _ => 1) 0 (.init (fresh_init _)) hs).2.1.mp ho) 1 [] _
    (step_some _ _ (by simp))

/-- Client 0 pushes `lamp` at 100 and client 1 learns of it, so its
    cursor is 100; client 0 pushes `fan` at 50, which is done; client 1 never hears of it. -/
theorem late_push_is_lost :
    ∃ s t u, run (sys (fun _ => 1) 0) fresh [.sync 0 [record "lamp" 100], .sync 1 []] = some s ∧
      step (fun _ => 1) 0 s (.sync 0 [record "fan" 50]) = some t ∧
      (SyncAt s.db (s.clients 0).cursor 1 [record "fan" 50]).2.map (·.done) = .ok [true] ∧
      step (fun _ => 1) 0 t (.sync 1 []) = some u ∧
      ⟨⟨"fan", 1⟩, 50⟩ ∈ journalRows t.db 1 ∧ ("fan", 50) ∉ (u.clients 1).seen :=
  ⟨_, _, _, rfl, rfl, rfl, rfl, by decide, by decide⟩

end GenieCloud.Sql.SyncClients
