/-
  GenieCloud.Almond.Preferences — preferences kept in the database
  (`almond/preferences.ts`, and the proxy's `local_table.go`).

  Every call flushes its key with a request of its own, which carries the value at the
  moment of the call and is not waited for. The proxy applies the requests in any order.

  - `rows_apply`: a key is left as the request applied last for it says.
  - `last_issued`: the request issued last for a key carries what was written last.
  - `converges_iff`: so the stored values are the last local ones exactly when no key's
    last applied request says otherwise than its last issued one; and they are in every
    order exactly when no key was ever flushed with two values.
  - `init_reads`: a new store reads back what is stored.
-/

import GenieCloud.Lib.Json
import Mathlib.Data.List.Perm.Basic

namespace GenieCloud.Almond

open GenieCloud.Lib.Json

variable {N : Type} [Numeral N]

namespace Preferences

/-! ## The store and the proxy -/

/-- The values by key; `none` is undefined. -/
abbrev Data (N : Type) := String → Option (Value N)

/-- The rows of `user_preference` of the user: the JSON text of each value. -/
abbrev Rows := String → Option String

inductive Request
  | delete (uniqueId : String)
  | post (uniqueId value : String)
deriving DecidableEq

namespace Request

def uniqueId : Request → String
  | .delete uniqueId | .post uniqueId _ => uniqueId

/-- What the request leaves in its row. -/
def value : Request → Option String
  | .delete _ => none
  | .post _ value => some value

end Request

/-- `DeleteOne` and `InsertOne` (an upsert): neither minds what is there. -/
def apply (rows : Rows) (r : Request) : Rows := Function.update rows r.uniqueId r.value

/-- `init`: the values of the rows. -/
def init (rows : Rows) : Data N := fun key => (rows key).bind parse

def flush (data : Data N) (key : String) : Request :=
  match data key with
  | none => .delete key
  | some value => .post key (stringify value)

/-- A call; `mutate` is the application changing a stored object in place, for which it
    calls `changed`. -/
inductive Call (N : Type)
  | set (key : String) (value : Option (Value N))
  | delete (key : String)
  | changed (key : String)
  | mutate (key : String) (value : Value N)

/-- The data after a call. -/
def call (data : Data N) : Call N → Data N
  | .set key value => Function.update data key value
  | .delete key => Function.update data key none
  | .changed _ => data
  | .mutate key value => if (data key).isSome then Function.update data key (some value) else data

/-- The key whose flush a call starts. -/
def Call.flushes : Call N → Option String
  | .set key _ | .delete key | .changed key => some key
  | .mutate _ _ => none

/-- The requests of a list of calls, in the order they are issued. -/
def requests (data : Data N) : List (Call N) → List Request
  | [] => []
  | c :: cs => (c.flushes.map (flush (call data c))).toList ++ requests (call data c) cs

/-- The rows that hold some data. -/
def rowsOf (data : Data N) : Rows := fun key => (data key).map stringify

/-! ## What was written last -/

/-- What each key was left at by the last call for it. -/
def written (data last : Data N) : List (Call N) → Data N
  | [] => last
  | c :: cs =>
    let data := call data c
    written data (c.flushes.elim last fun key => Function.update last key (data key)) cs

/-- Once all requests are applied the rows hold the values written last. -/
def Converges (data : Data N) (calls : List (Call N)) (applied : List Request) : Prop :=
  applied.foldl apply (rowsOf data) = rowsOf (written data data calls)

def lastFor (key : String) (rs : List Request) : Option Request := (rs.filter (·.uniqueId = key)).getLast?

/-- The request applied last for a key says what the one issued last for it says. -/
def LastWins (issued applied : List Request) : Prop :=
  ∀ key, (lastFor key applied).map (·.value) = (lastFor key issued).map (·.value)

/-- No key is flushed with two values. -/
def OneValue (issued : List Request) : Prop :=
  ∀ r ∈ issued, ∀ r' ∈ issued, r.uniqueId = r'.uniqueId → r.value = r'.value

variable {data last : Data N} {rs rs' : List Request} {key : String}

theorem lastFor_append (key : String) (rs rs' : List Request) :
    lastFor key (rs ++ rs') = (lastFor key rs').or (lastFor key rs) := by
  simp [lastFor, List.filter_append, List.getLast?_append]

theorem lastFor_singleton (key : String) (r : Request) :
    lastFor key [r] = if r.uniqueId = key then some r else none := by
  by_cases h : r.uniqueId = key <;> simp [lastFor, h]

/-- A row is left as the last request for it says. -/
theorem rows_apply (rows : Rows) (rs : List Request) (key : String) :
    rs.foldl apply rows key = (lastFor key rs).elim (rows key) (·.value) := by
  induction rs generalizing rows with
  | nil => rfl
  | cons r rs ih =>
    rw [List.foldl_cons, ih, ← List.singleton_append, lastFor_append, lastFor_singleton]
    cases lastFor key rs with
    | some r' => rfl
    | none =>
      by_cases h : r.uniqueId = key
      · subst h
        simp [apply]
      · rw [if_neg h]
        exact Function.update_of_ne (fun e => h e.symm) _ _

theorem flush_uniqueId (data : Data N) (key : String) : (flush data key).uniqueId = key := by
  unfold flush
  split <;> rfl

theorem flush_value (data : Data N) (key : String) : (flush data key).value = (data key).map stringify := by
  unfold flush
  cases data key <;> rfl

/-- The request issued last for a key carries what was written last. -/
theorem last_issued (calls : List (Call N)) (key : String) :
    rowsOf (written data last calls) key =
      (lastFor key (requests data calls)).elim (rowsOf last key) (·.value) := by
  induction calls generalizing data last with
  | nil => rfl
  | cons c calls ih =>
    simp only [written, requests]
    rw [ih, lastFor_append]
    cases lastFor key (requests (call data c) calls) with
    | some r => rfl
    | none =>
      cases hf : c.flushes with
      | none => rfl
      | some k =>
        simp only [Option.elim_some, Option.map_some, Option.toList_some, Option.none_or, lastFor_singleton,
          flush_uniqueId, Option.elim_none]
        by_cases h : k = key
        · subst h
          simp [rowsOf, flush_value]
        · simp [rowsOf, h, Function.update_of_ne (Ne.symm h)]

theorem lastFor_none : lastFor key rs = none ↔ ∀ r ∈ rs, r.uniqueId ≠ key := by
  simp [lastFor]

theorem lastFor_mem {r : Request} (h : lastFor key rs = some r) : r ∈ rs ∧ r.uniqueId = key := by
  simpa using List.mem_filter.mp (List.mem_of_getLast? h)

theorem lastFor_some {r : Request} (h : r ∈ rs) : ∃ r', lastFor r.uniqueId rs = some r' := by
  rw [← Option.ne_none_iff_exists', ne_eq, lastFor_none]
  exact fun hno => hno r h rfl

/-- The rows converge exactly when the last applied requests say what the last issued ones
    do. -/
theorem converges_iff_lastWins (calls : List (Call N)) (hp : rs.Perm (requests data calls)) :
    Converges data calls rs ↔ LastWins (requests data calls) rs := by
  have hkey : ∀ key, rs.foldl apply (rowsOf data) key = rowsOf (written data data calls) key ↔
      (lastFor key rs).map (·.value) = (lastFor key (requests data calls)).map (·.value) := by
    intro key
    rw [rows_apply, last_issued]
    cases hrs : lastFor key rs with
    | none =>
      have hnone : lastFor key (requests data calls) = none :=
        lastFor_none.mpr fun r hr => lastFor_none.mp hrs r (hp.mem_iff.mpr hr)
      rw [hnone]
      exact ⟨fun _ => rfl, fun _ => rfl⟩
    | some r =>
      obtain ⟨hmem, rfl⟩ := lastFor_mem hrs
      obtain ⟨r', hr'⟩ := lastFor_some (hp.mem_iff.mp hmem)
      rw [hr']
      simp
  unfold Converges LastWins
  rw [funext_iff]
  exact forall_congr' hkey

/-- Every order leaves the last issued requests last exactly when the requests for a key
    all say the same. -/
theorem lastWins_all_iff (issued : List Request) :
    (∀ rs, rs.Perm issued → LastWins issued rs) ↔ OneValue issued := by
  constructor
  · intro h r hr r' hr' hkey
    obtain ⟨l, hl⟩ := lastFor_some hr
    -- whichever request is applied at the end must say what the last issued one says
    have hend : ∀ x ∈ issued, x.uniqueId = r.uniqueId → x.value = l.value := by
      intro x hx hxk
      have hperm : (issued.erase x ++ [x]).Perm issued :=
        (List.perm_append_singleton x _).trans (List.perm_cons_erase hx).symm
      have := h _ hperm r.uniqueId
      rw [lastFor_append, lastFor_singleton, if_pos hxk, hl] at this
      simpa using this
    rw [hend r hr rfl, hend r' hr' hkey.symm]
  · intro h rs hp key
    cases hrs : lastFor key rs with
    | none =>
      have hnone : lastFor key issued = none :=
        lastFor_none.mpr fun r hr => lastFor_none.mp hrs r (hp.mem_iff.mpr hr)
      rw [hnone]
    | some r =>
      obtain ⟨hmem, rfl⟩ := lastFor_mem hrs
      obtain ⟨r', hr'⟩ := lastFor_some (hp.mem_iff.mp hmem)
      obtain ⟨hmem', hkey⟩ := lastFor_mem hr'
      rw [hr', Option.map_some, Option.map_some, h r (hp.mem_iff.mp hmem) r' hmem' hkey.symm]

/-- In one order the stored values are the last local ones exactly when for each key the
    request applied last says what the last call wrote; in every order, exactly when no
    key was flushed with two values. -/
theorem converges_iff (data : Data N) (calls : List (Call N)) :
    (∀ rs, rs.Perm (requests data calls) → (Converges data calls rs ↔ LastWins (requests data calls) rs)) ∧
      ((∀ rs, rs.Perm (requests data calls) → Converges data calls rs) ↔ OneValue (requests data calls)) := by
  refine ⟨fun rs hp => converges_iff_lastWins calls hp, ?_⟩
  rw [← lastWins_all_iff]
  exact forall_congr' fun rs => forall_congr' fun hp => converges_iff_lastWins calls hp

/-- One call, and its request. -/
theorem set_is_stored : Converges (fun _ => none) [.set "k" (some (.num (1 : Int)))] [.post "k" (stringify (.num (1 : Int)))] :=
  ((converges_iff _ _).1 _ (List.Perm.refl _)).mpr fun _ => rfl

/-- Requests that are applied in the order they are issued converge. -/
theorem converges_in_order (data : Data N) (calls : List (Call N)) : Converges data calls (requests data calls) :=
  (converges_iff_lastWins calls (List.Perm.refl _)).mpr fun _ => rfl

/-- A new store reads back what is stored. -/
theorem init_reads (data : Data N) : init (rowsOf data) = data := by
  funext key
  unfold init rowsOf
  cases data key with
  | none => rfl
  | some value => exact parse_stringify value

/-- A key is set to 1 and then to 2, and the second request is applied first. -/
theorem reordered_sets_diverge : ¬∀ (calls : List (Call Int)) rs, rs.Perm (requests (fun _ => none) calls) →
    Converges (fun _ => none) calls rs := by
  intro h
  have := h [.set "k" (some (.num 1)), .set "k" (some (.num 2))] [.post "k" "2", .post "k" "1"]
    (List.Perm.swap _ _ _)
  have := congrFun this "k"
  exact absurd this (by decide)

end Preferences

end GenieCloud.Almond
