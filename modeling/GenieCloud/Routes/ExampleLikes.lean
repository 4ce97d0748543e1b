/-
  GenieCloud.Routes.ExampleLikes — likes of examples, and the count kept beside them
  (`like`, `unlike` and `deleteAllLikesFromUser` of `model/example.ts`, the routes of
  `routes/thingpedia_examples.ts`).

  Upvote and downvote send two statements each on a bare connection, so the statements of
  other requests can come between them; what a request still has to send is in
  `pending`. The deletion of an account is one transaction, one step here.

  `owed`: what the pending statements are still to do to a count. An upvote inserts its
  like first and counts it then; a downvote counts first, if the like is there, and
  deletes then. `Balanced`: a count and what it is owed are the likes. An update of an
  example writes columns that are not here.

  `like_count_balanced`: a downvote throws the count off exactly when it deletes a like that
  was not there when it counted, or the other way round; in a run without that, the
  counts are the likes whenever nothing is pending. Two downvotes of one like both
  count it (`two_downvotes`).
-/

import GenieCloud.Lib.Runs
import GenieCloud.Routes.AccountDeletion
import Mathlib.Data.List.Perm.Basic

namespace GenieCloud.Routes.ExampleLikes

open GenieCloud.Lib GenieCloud.Lib.Runs GenieCloud.Routes.AccountDeletion

/-! ## The statements -/

/-- `createMany` and `create`: under new ids, with no like. -/
def createMany (db : Db) (owners : List (Option Nat)) : Db :=
  { db with example_utterances := owners.foldl (fun t owner => t.insert ⟨0, owner⟩) db.example_utterances }

/-- `insert ignore` takes no second like, and none of an example or by a user that is not
    there. -/
def canLike (db : Db) (userId exampleId : Nat) : Bool :=
  (db.example_utterances.get? exampleId).isSome && (db.users.get? userId).isSome &&
    !db.example_likes.contains (exampleId, userId)

def insertLike (db : Db) (userId exampleId : Nat) (h : canLike db userId exampleId = true) : Db :=
  { db with
    example_likes := (exampleId, userId) :: db.example_likes
    likes_key := by
      simp only [canLike, Bool.and_eq_true, Bool.not_eq_true', List.contains_eq_mem, decide_eq_false_iff_not] at h
      exact List.nodup_cons.mpr ⟨h.2, db.likes_key⟩
    likes_user := by
      intro like hlike
      simp only [canLike, Bool.and_eq_true] at h
      rcases List.mem_cons.mp hlike with rfl | hlike
      · exact h.1.2
      · exact db.likes_user like hlike }

/-- `update example_utterances set like_count = like_count + by where id = ?` -/
def addLikes (db : Db) (exampleId : Nat) (n : Int) : Db :=
  { db with example_utterances := db.example_utterances.update (fun id _ => id = exampleId) fun row =>
      { row with like_count := row.like_count + n } }

def deleteLike (db : Db) (userId exampleId : Nat) : Db :=
  { db with
    example_likes := db.example_likes.erase (exampleId, userId)
    likes_key := db.likes_key.erase _
    likes_user := fun like h => db.likes_user like (List.mem_of_mem_erase h) }

/-- The likes of an example go along (`cascade`). -/
def deleteById (db : Db) (exampleId : Nat) : Db :=
  { db with
    example_utterances := db.example_utterances.delete fun id _ => id = exampleId
    example_likes := db.example_likes.filter (·.1 ≠ exampleId)
    likes_key := db.likes_key.filter _
    likes_user := fun like h => db.likes_user like (List.mem_filter.mp h).1 }

/-- The user's own route; a reference that is left fails and rolls back. -/
def deleteAccount (db : Db) (userId : Nat) : Db :=
  match deleteRow userId (removeLikes (decrementLikes db userId) userId) with
  | .ok db' => db'
  | .error _ => db

/-- The administrator's route. -/
def adminDelete (db : Db) (userId : Nat) : Db :=
  match deleteRow userId db with
  | .ok db' => db'
  | .error _ => db

def signUp (db : Db) (user : UserRow) : Db :=
  { db with
    users := db.users.insert user
    likes_user := fun like h => by
      rw [Table.get?_insert]
      split
      · rfl
      · exact db.likes_user like h
    posts_author := fun author h => by
      rw [Table.get?_insert]
      split
      · rfl
      · exact db.posts_author author h
    models_user := fun id h => by
      rw [Table.get?_insert]
      split
      · rfl
      · exact db.models_user id h }

/-! ## The requests -/

/-- The second statement of a request: the count of an upvote, or the delete of a
    downvote, which found the like to count or did not. -/
inductive Pending where
  | count (exampleId : Nat)
  | remove (userId exampleId : Nat) (found : Bool)
  deriving DecidableEq

structure State where
  db : Db
  pending : List Pending

inductive Event where
  | signUp (user : UserRow)
  | create (owners : List (Option Nat))
  | upvote (userId exampleId : Nat)
  | downvote (userId exampleId : Nat)
  | finish (i : Nat)
  | delete (exampleId : Nat)
  | deleteAccount (userId : Nat)
  | adminDelete (userId : Nat)

/-- `like`, up to its second statement. -/
def like (s : State) (userId exampleId : Nat) : State :=
  if h : canLike s.db userId exampleId = true then
    { db := insertLike s.db userId exampleId h, pending := s.pending ++ [.count exampleId] }
  else s

/-- `unlike`, up to its second statement. -/
def unlike (s : State) (userId exampleId : Nat) : State :=
  let found := s.db.example_likes.contains (exampleId, userId)
  { db := if found then addLikes s.db exampleId (-1) else s.db
    pending := s.pending ++ [.remove userId exampleId found] }

def runPending (db : Db) : Pending → Db
  | .count exampleId => addLikes db exampleId 1
  | .remove userId exampleId _ => deleteLike db userId exampleId

def step (s : State) : Event → Option State
  | .signUp user => some { s with db := signUp s.db user }
  | .create owners => some { s with db := createMany s.db owners }
  | .upvote userId exampleId => some (like s userId exampleId)
  | .downvote userId exampleId => some (unlike s userId exampleId)
  | .finish i =>
    match s.pending[i]? with
    | some p => some { db := runPending s.db p, pending := s.pending.eraseIdx i }
    | none => none
  | .delete exampleId => some { s with db := deleteById s.db exampleId }
  | .deleteAccount userId => some { s with db := deleteAccount s.db userId }
  | .adminDelete userId => some { s with db := adminDelete s.db userId }

/-- Every like is of an example that is there. -/
def LikesReferTo (db : Db) : Prop := ∀ like ∈ db.example_likes, (db.example_utterances.get? like.1).isSome

def system : System State Event where
  init s := LikesCounted s.db ∧ LikesReferTo s.db ∧ s.pending = []
  step := step

/-! ## Counts and what they are owed -/

def likes (db : Db) (exampleId : Nat) : Nat := db.example_likes.countP (·.1 = exampleId)

/-- An upvote has still to count its like, a downvote to delete the one it counted. -/
def owes (exampleId : Nat) : Pending → Bool
  | .count id => id = exampleId
  | .remove _ id found => found && id = exampleId

def owed (pending : List Pending) (exampleId : Nat) : Nat := pending.countP (owes exampleId)

structure Balanced (s : State) : Prop where
  counts : ∀ id row, s.db.example_utterances.get? id = some row →
    row.like_count + owed s.pending id = likes s.db id
  refers : LikesReferTo s.db
  fresh : ∀ id, s.db.example_utterances.next ≤ id → owed s.pending id = 0

/-- A downvote of an example that is still there deletes a like exactly if it counted
    one. -/
def Clean (s : State) : Event → Prop
  | .finish i =>
    match s.pending[i]? with
    | some (.remove userId exampleId found) =>
      (s.db.example_utterances.get? exampleId).isSome → found = s.db.example_likes.contains (exampleId, userId)
    | _ => True
  | _ => True

variable {s t : State} {db : Db} {pending : List Pending} {userId exampleId : Nat}

theorem owed_append (pending : List Pending) (p : Pending) (id : Nat) :
    owed (pending ++ [p]) id = owed pending id + if owes id p then 1 else 0 := by
  rw [owed, List.countP_append, List.countP_singleton]
  rfl

theorem owed_eraseIdx {i : Nat} {p : Pending} (h : pending[i]? = some p) (id : Nat) :
    owed pending id = owed (pending.eraseIdx i) id + if owes id p then 1 else 0 := by
  obtain ⟨hi, rfl⟩ := List.getElem?_eq_some_iff.mp h
  rw [owed, ← List.Perm.countP_eq _ (List.getElem_cons_eraseIdx_perm hi), List.countP_cons]
  rfl

theorem get?_addLikes (db : Db) (exampleId : Nat) (n : Int) (id : Nat) :
    (addLikes db exampleId n).example_utterances.get? id =
      (db.example_utterances.get? id).map fun row =>
        if id = exampleId then { row with like_count := row.like_count + n } else row := by
  show (Table.update _ _ _).get? id = _
  rw [Table.get?_update]
  simp only [decide_eq_true_eq]

theorem likes_insertLike (h : canLike db userId exampleId = true) (id : Nat) :
    likes (insertLike db userId exampleId h) id = likes db id + if exampleId = id then 1 else 0 := by
  show ((exampleId, userId) :: db.example_likes).countP _ = _
  rw [List.countP_cons]
  simp only [decide_eq_true_eq]
  rfl

theorem likes_deleteLike (db : Db) (userId exampleId id : Nat) : likes db id = likes (deleteLike db userId exampleId) id +
    if db.example_likes.contains (exampleId, userId) && exampleId = id then 1 else 0 := by
  show db.example_likes.countP _ = (db.example_likes.erase _).countP _ + _
  by_cases h : (exampleId, userId) ∈ db.example_likes
  · rw [(List.perm_cons_erase h).countP_eq, List.countP_cons]
    simp [h]
  · rw [List.erase_of_not_mem h]
    simp [h]

/-! ## One statement -/

theorem balanced_count (h : Balanced s) {i : Nat} (hp : s.pending[i]? = some (.count exampleId)) :
    Balanced { db := addLikes s.db exampleId 1, pending := s.pending.eraseIdx i } := by
  refine ⟨?_, ?_, ?_⟩
  · intro id row hrow
    rw [get?_addLikes] at hrow
    obtain ⟨old, hold, rfl⟩ := Option.map_eq_some_iff.mp hrow
    have hc := h.counts id old hold
    have ho := owed_eraseIdx hp id
    show _ + (owed (s.pending.eraseIdx i) id : Int) = (likes s.db id : Int)
    by_cases hid : id = exampleId
    · subst hid
      simp only [owes, decide_true, if_true] at ho ⊢
      omega
    · simp only [owes, Ne.symm hid, decide_false, Bool.false_eq_true, if_false] at ho
      rw [if_neg hid]
      omega
  · intro like hlike
    rw [get?_addLikes, Option.isSome_map]
    exact h.refers like hlike
  · intro id hid
    have := h.fresh id hid
    have := owed_eraseIdx hp id
    show owed (s.pending.eraseIdx i) id = 0
    omega

/-- The delete of a downvote keeps the balance exactly if it is clean. -/
theorem balanced_remove_iff (h : Balanced s) {i : Nat} {found : Bool}
    (hp : s.pending[i]? = some (.remove userId exampleId found)) :
    Balanced { db := deleteLike s.db userId exampleId, pending := s.pending.eraseIdx i } ↔
      ((s.db.example_utterances.get? exampleId).isSome → found = s.db.example_likes.contains (exampleId, userId)) := by
  have ho (id : Nat) := owed_eraseIdx hp id
  have hl (id : Nat) := likes_deleteLike s.db userId exampleId id
  constructor
  · intro h' hrow
    obtain ⟨row, hrow⟩ := Option.isSome_iff_exists.mp hrow
    have hc := h.counts exampleId row hrow
    have hc' : row.like_count + owed (s.pending.eraseIdx i) exampleId = likes (deleteLike s.db userId exampleId) exampleId :=
      h'.counts exampleId row hrow
    have ho := ho exampleId
    have hl := hl exampleId
    simp only [owes, decide_true, Bool.and_true] at ho hl
    cases found <;> cases hm : s.db.example_likes.contains (exampleId, userId) <;>
      simp only [hm, if_true, if_false, Bool.false_eq_true] at ho hl ⊢ <;> omega
  · intro hfound
    refine ⟨?_, fun like hlike => h.refers like (List.mem_of_mem_erase hlike), ?_⟩
    · intro id row hrow
      have hc := h.counts id row hrow
      have ho := ho id
      have hl := hl id
      show row.like_count + (owed (s.pending.eraseIdx i) id : Int) = likes (deleteLike s.db userId exampleId) id
      by_cases hid : exampleId = id
      · subst hid
        rw [← hfound (Option.isSome_iff_exists.mpr ⟨row, hrow⟩)] at hl
        simp only [owes, decide_true, Bool.and_true] at ho hl
        omega
      · simp only [owes, hid, decide_false, Bool.and_false, Bool.false_eq_true, if_false] at ho hl
        omega
    · intro id hid
      have := h.fresh id hid
      have := ho id
      show owed (s.pending.eraseIdx i) id = 0
      omega

/-- A change of the tables alone that moves every count by what it does to the likes. -/
theorem Balanced.of_moved (h : Balanced s) (hnext : s.db.example_utterances.next ≤ db.example_utterances.next)
    (hmoved : ∀ id row, db.example_utterances.get? id = some row → ∃ old,
      s.db.example_utterances.get? id = some old ∧ row.like_count + likes s.db id = old.like_count + likes db id)
    (hrefers : LikesReferTo db) : Balanced { s with db := db } := by
  refine ⟨?_, hrefers, fun id hid => h.fresh id (Nat.le_trans hnext hid)⟩
  intro id row hrow
  obtain ⟨old, hold, hmove⟩ := hmoved id row hrow
  have hcount := h.counts id old hold
  show row.like_count + (owed s.pending id : Int) = likes db id
  omega

theorem likes_next (h : LikesReferTo db) : likes db db.example_utterances.next = 0 := by
  apply List.countP_eq_zero.mpr
  intro like hlike
  have hrow := h like hlike
  intro heq
  rw [of_decide_eq_true heq, Table.get?_next] at hrow
  exact absurd hrow (by decide)

theorem balanced_createMany (h : Balanced s) (owners : List (Option Nat)) :
    Balanced { s with db := createMany s.db owners } := by
  induction owners generalizing s with
  | nil => exact h
  | cons owner owners ih =>
    let db : Db := { s.db with example_utterances := s.db.example_utterances.insert ⟨0, owner⟩ }
    have hinsert : Balanced { s with db := db } := by
      refine ⟨?_, ?_, fun id hid => h.fresh id (Nat.le_of_succ_le hid)⟩
      · intro id row hrow
        have hrow : (s.db.example_utterances.insert ⟨0, owner⟩).get? id = some row := hrow
        rw [Table.get?_insert] at hrow
        split at hrow
        · rename_i hid
          obtain rfl := Option.some.inj hrow
          have howed := h.fresh id (Nat.le_of_eq hid.symm)
          have hlikes := likes_next h.refers
          rw [← hid] at hlikes
          show (0 : Int) + (owed s.pending id : Int) = likes s.db id
          omega
        · exact h.counts id row hrow
      · intro like hlike
        have hrow := h.refers like hlike
        show ((s.db.example_utterances.insert _).get? like.1).isSome
        rw [Table.get?_insert]
        split
        · rfl
        · exact hrow
    exact ih hinsert

theorem balanced_like (h : Balanced s) (userId exampleId : Nat) : Balanced (like s userId exampleId) := by
  unfold like
  split
  · rename_i hcan
    have hexample : (s.db.example_utterances.get? exampleId).isSome := by
      simp only [canLike, Bool.and_eq_true] at hcan
      exact hcan.1.1
    refine ⟨?_, ?_, ?_⟩
    · intro id row hrow
      have hcount := h.counts id row hrow
      have howed := owed_append s.pending (.count exampleId) id
      have hlikes := likes_insertLike hcan id
      simp only [owes, decide_eq_true_eq] at howed
      show row.like_count + (owed (s.pending ++ [.count exampleId]) id : Int) =
        likes (insertLike s.db userId exampleId hcan) id
      omega
    · intro like hlike
      rcases List.mem_cons.mp hlike with rfl | hlike
      · exact hexample
      · exact h.refers like hlike
    · intro id hid
      have hold := h.fresh id hid
      have howed := owed_append s.pending (.count exampleId) id
      obtain ⟨row, hrow⟩ := Option.isSome_iff_exists.mp hexample
      have hlt := Table.lt_next hrow
      have hid : s.db.example_utterances.next ≤ id := hid
      have hne : exampleId ≠ id := by omega
      simp only [owes, hne, decide_false, Bool.false_eq_true, if_false] at howed
      show owed (s.pending ++ [.count exampleId]) id = 0
      omega
  · exact h

theorem balanced_unlike (h : Balanced s) (userId exampleId : Nat) : Balanced (unlike s userId exampleId) := by
  have howed (found : Bool) (id : Nat) := owed_append s.pending (.remove userId exampleId found) id
  cases hfound : s.db.example_likes.contains (exampleId, userId) with
  | false =>
    simp only [unlike, hfound, Bool.false_eq_true, if_false]
    refine ⟨?_, h.refers, ?_⟩
    · intro id row hrow
      have hcount := h.counts id row hrow
      have howed := howed false id
      simp only [owes, Bool.false_and, Bool.false_eq_true, if_false] at howed
      show row.like_count + (owed (s.pending ++ [.remove userId exampleId false]) id : Int) = likes s.db id
      omega
    · intro id hid
      have hold := h.fresh id hid
      have howed := howed false id
      simp only [owes, Bool.false_and, Bool.false_eq_true, if_false] at howed
      show owed (s.pending ++ [.remove userId exampleId false]) id = 0
      omega
  | true =>
    simp only [unlike, hfound, if_true]
    have hrefers := h.refers _ (List.contains_iff_mem.mp hfound)
    refine ⟨?_, ?_, ?_⟩
    · intro id row hrow
      have hrow : (addLikes s.db exampleId (-1)).example_utterances.get? id = some row := hrow
      rw [get?_addLikes] at hrow
      obtain ⟨old, hold, rfl⟩ := Option.map_eq_some_iff.mp hrow
      have hcount := h.counts id old hold
      have howed := howed true id
      show _ + (owed (s.pending ++ [.remove userId exampleId true]) id : Int) = (likes s.db id : Int)
      by_cases hid : id = exampleId
      · subst hid
        simp only [owes, Bool.true_and, decide_true, if_true] at howed ⊢
        omega
      · simp only [owes, Bool.true_and, Ne.symm hid, decide_false, Bool.false_eq_true, if_false] at howed
        rw [if_neg hid]
        omega
    · intro like hlike
      show ((addLikes s.db exampleId (-1)).example_utterances.get? like.1).isSome
      rw [get?_addLikes, Option.isSome_map]
      exact h.refers like hlike
    · intro id hid
      have hold := h.fresh id hid
      have howed := howed true id
      obtain ⟨row, hrow⟩ := Option.isSome_iff_exists.mp hrefers
      have hlt : exampleId < s.db.example_utterances.next := Table.lt_next hrow
      have hid : s.db.example_utterances.next ≤ id := hid
      have hne : exampleId ≠ id := by omega
      simp only [owes, Bool.true_and, hne, decide_false, Bool.false_eq_true, if_false] at howed
      show owed (s.pending ++ [.remove userId exampleId true]) id = 0
      omega

theorem likes_deleteById (db : Db) {exampleId id : Nat} (hid : id ≠ exampleId) :
    likes (deleteById db exampleId) id = likes db id := by
  show (db.example_likes.filter _).countP _ = db.example_likes.countP _
  rw [List.countP_filter]
  apply List.countP_congr
  intro like _
  simp only [Bool.and_eq_true, decide_eq_true_eq, and_iff_left_iff_imp]
  intro heq
  rw [heq]
  exact hid

theorem get?_deleteById (db : Db) (exampleId id : Nat) :
    (deleteById db exampleId).example_utterances.get? id =
      if id = exampleId then none else db.example_utterances.get? id := by
  show (db.example_utterances.delete _).get? id = _
  rw [Table.get?_delete]
  split <;> cases db.example_utterances.get? id <;> simp_all

theorem balanced_deleteById (h : Balanced s) (exampleId : Nat) : Balanced { s with db := deleteById s.db exampleId } := by
  refine h.of_moved (Nat.le_refl _) ?_ ?_
  · intro id row hrow
    rw [get?_deleteById] at hrow
    split at hrow
    · cases hrow
    · rename_i hid
      exact ⟨row, hrow, by rw [likes_deleteById s.db hid]⟩
  · intro like hlike
    obtain ⟨hlike, hne⟩ := List.mem_filter.mp hlike
    rw [get?_deleteById, if_neg (of_decide_eq_true hne)]
    exact h.refers like hlike

theorem balanced_removeLikes (h : Balanced s) (userId : Nat) :
    Balanced { s with db := removeLikes (decrementLikes s.db userId) userId } := by
  have hget (id : Nat) : (removeLikes (decrementLikes s.db userId) userId).example_utterances.get? id = _ :=
    Table.get?_update s.db.example_utterances _ _ id
  refine h.of_moved (Nat.le_refl _) ?_ ?_
  · intro id row hrow
    rw [hget] at hrow
    obtain ⟨old, hold, rfl⟩ := Option.map_eq_some_iff.mp hrow
    refine ⟨old, hold, ?_⟩
    have hsplit : likes s.db id = likes (removeLikes (decrementLikes s.db userId) userId) id + _ :=
      countP_removeLikes s.db userId id
    by_cases hmem : (id, userId) ∈ s.db.example_likes
    · rw [if_pos hmem] at hsplit
      rw [if_pos (List.contains_iff_mem.mpr hmem)]
      show old.like_count - 1 + _ = _
      omega
    · rw [if_neg hmem] at hsplit
      rw [if_neg (by rw [List.contains_iff_mem]; exact hmem)]
      omega
  · intro like hlike
    rw [hget, Option.isSome_map]
    exact h.refers like (List.mem_filter.mp hlike).1

theorem balanced_removeUser (h : Balanced s) (userId : Nat) (hr : restricted s.db userId = false) :
    Balanced { s with db := removeUser s.db userId hr } := by
  have hget (id : Nat) : (removeUser s.db userId hr).example_utterances.get? id = _ :=
    Table.get?_update s.db.example_utterances _ _ id
  refine h.of_moved (Nat.le_refl _) ?_ ?_
  · intro id row hrow
    rw [hget] at hrow
    obtain ⟨old, hold, rfl⟩ := Option.map_eq_some_iff.mp hrow
    refine ⟨old, hold, ?_⟩
    split <;> rfl
  · intro like hlike
    rw [hget, Option.isSome_map]
    exact h.refers like hlike

theorem balanced_adminDelete (h : Balanced s) (userId : Nat) : Balanced { s with db := adminDelete s.db userId } := by
  unfold adminDelete deleteRow
  by_cases hr : restricted s.db userId = false
  · simp only [dif_pos hr]
    exact balanced_removeUser h userId hr
  · simp only [dif_neg hr]
    exact h

theorem balanced_deleteAccount (h : Balanced s) (userId : Nat) : Balanced { s with db := deleteAccount s.db userId } := by
  unfold deleteAccount deleteRow
  by_cases hr : restricted (removeLikes (decrementLikes s.db userId) userId) userId = false
  · simp only [dif_pos hr]
    exact balanced_removeUser (balanced_removeLikes h userId) userId hr
  · simp only [dif_neg hr]
    exact h

/-! ## Every run -/

theorem step_balanced_iff {event : Event} (h : Balanced s) (hstep : step s event = some t) :
    Balanced t ↔ Clean s event := by
  cases event with
  | signUp user =>
    obtain rfl := Option.some.inj hstep
    exact iff_of_true (h.of_moved (Nat.le_refl _) (fun _ row hrow => ⟨row, hrow, rfl⟩) h.refers) trivial
  | create owners =>
    obtain rfl := Option.some.inj hstep
    exact iff_of_true (balanced_createMany h owners) trivial
  | upvote userId exampleId =>
    obtain rfl := Option.some.inj hstep
    exact iff_of_true (balanced_like h userId exampleId) trivial
  | downvote userId exampleId =>
    obtain rfl := Option.some.inj hstep
    exact iff_of_true (balanced_unlike h userId exampleId) trivial
  | delete exampleId =>
    obtain rfl := Option.some.inj hstep
    exact iff_of_true (balanced_deleteById h exampleId) trivial
  | deleteAccount userId =>
    obtain rfl := Option.some.inj hstep
    exact iff_of_true (balanced_deleteAccount h userId) trivial
  | adminDelete userId =>
    obtain rfl := Option.some.inj hstep
    exact iff_of_true (balanced_adminDelete h userId) trivial
  | finish i =>
    cases hp : s.pending[i]? with
    | none => simp [step, hp] at hstep
    | some p =>
      obtain rfl : _ = t := by simpa [step, hp] using hstep
      cases p with
      | count exampleId => exact iff_of_true (balanced_count h hp) (by simp only [Clean, hp])
      | remove userId exampleId found =>
        simp only [Clean, hp]
        exact balanced_remove_iff h hp

theorem reach_balanced (h : Reach system Clean s) : Balanced s := by
  refine h.inv ?_ ?_
  · intro s ⟨hcounted, hrefers, hpending⟩
    refine ⟨?_, hrefers, ?_⟩
    · intro id row hrow
      have hcount : row.like_count = likes s.db id := hcounted id row hrow
      rw [hpending, hcount]
      rfl
    · intro id _
      rw [hpending]
      rfl
  · intro s event t hs hclean hstep
    exact (step_balanced_iff hs hstep).mpr hclean

/-- In a run of clean steps the counts are the likes whenever no request is in progress,
    and a step from there that is not clean throws one off. -/
theorem like_count_balanced (h : Reach system Clean s) :
    (s.pending = [] → LikesCounted s.db) ∧ ∀ event t, step s event = some t → (Balanced t ↔ Clean s event) := by
  have hs := reach_balanced h
  constructor
  · intro hpending id row hrow
    have hcount := hs.counts id row hrow
    rw [hpending] at hcount
    show row.like_count = (likes s.db id : Int)
    have hnone : owed [] id = 0 := rfl
    omega
  · intro event t hstep
    exact step_balanced_iff hs hstep

/-! ## Two downvotes -/

def noRows : State where
  db := {
    users := .empty
    example_utterances := .empty
    example_likes := []
    blog_posts := []
    alexa_models := []
    oauth2_permissions := []
    likes_key := List.nodup_nil
    likes_user := fun _ h => (List.not_mem_nil h).elim
    posts_author := fun _ h => (List.not_mem_nil h).elim
    models_user := fun _ h => (List.not_mem_nil h).elim }
  pending := []

theorem noRows_init : system.init noRows := by
  refine ⟨?_, ?_, rfl⟩
  · intro _ _ h
    cases h
  · intro _ h
    exact (List.not_mem_nil h).elim

/-- One like of one example. -/
def oneLike : List Event := [.signUp ⟨"c1", none⟩, .create [none], .upvote 1 1, .finish 0]

theorem two_downvotes : ¬∀ s, Reach system any s → s.pending = [] → LikesCounted s.db := by
  intro hclaim
  obtain ⟨s, hs, hpending, hcount⟩ : ∃ s,
      run system noRows (oneLike ++ [.downvote 1 1, .downvote 1 1, .finish 0, .finish 0]) = some s ∧ s.pending = [] ∧
      (s.db.example_utterances.get? 1).map (·.like_count) = some (-1) := ⟨_, rfl, rfl, by decide⟩
  obtain ⟨row, hrow, hcount⟩ := Option.map_eq_some_iff.mp hcount
  have hreach : Reach system any s := (Reach.init noRows_init).run _ (fun _ _ _ => trivial) hs
  have hcounted := hclaim s hreach hpending 1 row hrow
  omega

/-- A like that is taken back before another downvote comes. -/
theorem like_count_balanced_downvote : ∃ s,
    run system noRows (oneLike ++ [.downvote 1 1, .finish 0, .downvote 1 1, .finish 0]) = some s ∧ s.pending = [] ∧
      LikesCounted s.db := by
  refine ⟨_, rfl, rfl, ?_⟩
  have hinit : Reach system Clean noRows := .init noRows_init
  have hliked := (((hinit.step (Event.signUp ⟨"c1", none⟩) trivial rfl).step (Event.create [none]) trivial rfl).step
    (Event.upvote 1 1) trivial rfl).step (Event.finish 0) trivial rfl
  have hend := (((hliked.step (Event.downvote 1 1) trivial rfl).step (Event.finish 0) (fun _ => rfl) rfl).step
    (Event.downvote 1 1) trivial rfl).step (Event.finish 0) (fun _ => rfl) rfl
  exact (like_count_balanced hend).1 rfl

end GenieCloud.Routes.ExampleLikes
