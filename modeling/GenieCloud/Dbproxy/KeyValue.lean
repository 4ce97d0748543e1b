/-
  GenieCloud.Dbproxy.KeyValue — the local tables of the database proxy as key-value maps.

  A `Store` is what the tables are for: the values last inserted under each id and not
  deleted since. A run of successful inserts and deletes keeps one next to the tables of
  `Dbproxy.Proxy`. An id stands for what its column compares, which is the text without
  the blanks at its end.

  `key_value_run`: as long as no insert has the unique columns of a row under another id
  of the user, reading an id or all rows answers what the store has, and a request under
  one id leaves the others. Only `user_conversation_history` has unique columns besides
  its key; an insert that has those of another row updates that row, and puts nothing
  under its own id (`second_message_redirected`).
-/

import GenieCloud.Dbproxy.Proxy
import GenieCloud.Lib.Runs
import Mathlib.Logic.Function.Basic

namespace GenieCloud.Dbproxy.KeyValue

open GenieCloud.Lib.Runs GenieCloud.Lib.Transaction GenieCloud.Sql.LocalTable GenieCloud.Dbproxy.Proxy
open GenieCloud.Sql.SyncTable (Key)
open GenieCloud.Sql.Statements (Error)
open GenieCloud.Dbproxy.SyncTable (parseKey parseUserID)

/-! ## The abstract store -/

variable {V J : Type}

/-- By the name of the table. -/
abbrev Store (V : Type) := String → Key → Option (List V)

def Store.put (kv : Store V) (name : String) (key : Key) (values : Option (List V)) : Store V := fun n k =>
  if n = name ∧ k = key then values else kv n k

theorem Store.put_self (kv : Store V) (name : String) (key : Key) (values : Option (List V)) :
    kv.put name key values name key = values := if_pos ⟨rfl, rfl⟩

theorem Store.put_of_ne (kv : Store V) {name n : String} {key k : Key} (values : Option (List V))
    (h : ¬ (n = name ∧ k = key)) : kv.put name key values n k = kv n k := if_neg h

/-! ## Runs of requests -/

/-- The tables, and the store of the inserts and deletes so far. -/
structure Logged (V : Type) where
  proxy : State V
  kv : Store V

/-- The table and the key that a request names. -/
def target (r : Request V J) : Option (RowType × Key) := do
  let m ← newRow r.name
  let key ← (parseKey r.context).toOption
  return (m, key)

inductive Event (V J : Type)
  | insert (r : Request V J) (fates : List Fate)
  | delete (r : Request V J) (fates : List Fate)
  | readOne (r : Request V J) (fates : List Fate)
  | readAll (r : Request V J) (fates : List Fate)

def Event.request : Event V J → Request V J
  | .insert r _ | .delete r _ | .readOne r _ | .readAll r _ => r

variable [DecidableEq V] (cmp : Comparisons V J)

/-- A request; inserts and deletes are those that succeed. -/
def step (s : Logged V) : Event V J → Option (Logged V)
  | .insert r fates =>
    match serve cmp s.proxy fates r .localInsertOne, target r, r.row with
    | (proxy, .ok _), some (m, key), .ok row => some ⟨proxy, s.kv.put m.tableName key (some row.values)⟩
    | _, _, _ => none
  | .delete r fates =>
    match serve cmp s.proxy fates r .localDeleteOne, target r with
    | (proxy, .ok _), some (m, key) => some ⟨proxy, s.kv.put m.tableName key none⟩
    | _, _ => none
  | .readOne r fates => some { s with proxy := (serve cmp s.proxy fates r .localGetOne).1 }
  | .readAll r fates => some { s with proxy := (serve cmp s.proxy fates r .localGetAll).1 }

/-- Runs start with empty tables. -/
def system : System (Logged V) (Event V J) where
  init s := (∀ name, s.proxy.tables name = ∅) ∧ s.kv = fun _ _ => none
  step := step cmp

/-- No row under another id of the user has the unique columns of the row inserted. -/
def Clear (s : Logged V) : Event V J → Prop
  | .insert r _ => ∀ m key row, target r = some (m, key) → r.row = .ok row →
      ∀ e ∈ (s.proxy.tables m.tableName).entries, conflicts m ⟨key, row.values⟩ e = false
  | _ => True

/-- What a read of an id answers. -/
def answerOne (key : Key) : Option (List V) → Response V
  | some values => .ok (.localRow ⟨key, values⟩)
  | none => .notFound "row not found"

/-! ## What one request does -/

section Requests

variable {cmp} {s t : State V} {fates : List Fate} {r : Request V J} {m : RowType} {key : Key} {data : Data V}

omit [DecidableEq V] in
theorem target_eq_some : target r = some (m, key) ↔ newRow r.name = some m ∧ parseKey r.context = .ok key := by
  cases hm : newRow r.name with
  | none => simp [target, hm]
  | some m' =>
    cases hk : parseKey r.context with
    | ok key' => simp [target, hm, hk, Except.toOption]
    | error err => simp [target, hm, hk, Except.toOption]

omit [DecidableEq V] in
theorem parseKey_valid (h : parseKey r.context = .ok key) : invalidKey key = false := by
  cases hu : parseUserID r.context with
  | error err =>
    simp only [parseKey, hu] at h
    cases h
  | ok u =>
    simp only [parseKey, hu] at h
    split at h
    · cases h
    · next hid =>
      cases h
      have hzero : u ≠ 0 := by
        intro hz
        unfold parseUserID at hu
        split at hu
        · cases hu
        · split at hu
          · cases hu
          · next hne => exact hne (by cases hu; exact hz)
      simp [invalidKey, hid, hzero]

omit [DecidableEq V] in
theorem deleteOne_ok {table table' : Rows V} (hk : invalidKey key = false)
    (h : DeleteOne table fates key = (table', .ok ())) : table' = table.erase key := by
  rw [DeleteOne, hk, if_neg Bool.false_ne_true] at h
  cases transaction_statement h
  rfl

theorem insertOne_ok {table table' : Rows V} {row : Row V} (hk : invalidKey row.key = false)
    (h : InsertOne m table fates row = (table', .ok ())) : upsert m table row = .ok table' := by
  rw [InsertOne, hk, if_neg Bool.false_ne_true] at h
  have hs := transaction_statement h
  cases hu : upsert m table row with
  | ok table₁ =>
    rw [hu] at hs
    cases hs
    rfl
  | error err =>
    rw [hu] at hs
    cases hs

/-- What a delete that succeeds leaves. -/
theorem delete_ok (h : serve cmp s fates r .localDeleteOne = (t, .ok data)) (ht : target r = some (m, key)) :
    t = setTable s m.tableName ((s.tables m.tableName).erase key) := by
  obtain ⟨hm, hk⟩ := target_eq_some.mp ht
  simp only [serve, handler, localTableDeleteOne, hm, hk, orNotFound, orBadRequest, bind, Except.bind, pure,
    Except.pure] at h
  cases hd : DeleteOne (s.tables m.tableName) fates key with
  | mk table result =>
    rw [hd] at h
    cases result with
    | ok a =>
      have htable := deleteOne_ok (parseKey_valid hk) hd
      cases h
      rw [htable]
    | error err =>
      simp only [replyRow] at h
      split at h <;> cases h

/-- What an insert that succeeds leaves. -/
theorem insert_ok (h : serve cmp s fates r .localInsertOne = (t, .ok data)) (ht : target r = some (m, key)) {row : Row V}
    (hr : r.row = .ok row) :
    ∃ table, upsert m (s.tables m.tableName) ⟨key, row.values⟩ = .ok table ∧ t = setTable s m.tableName table := by
  obtain ⟨hm, hk⟩ := target_eq_some.mp ht
  simp only [serve, handler, localTableInsertOne, hm, hk, hr, orNotFound, orBadRequest, bind, Except.bind, pure,
    Except.pure] at h
  cases hi : InsertOne m (s.tables m.tableName) fates { row with key := key } with
  | mk table result =>
    rw [hi] at h
    cases result with
    | ok a =>
      cases h
      exact ⟨table, insertOne_ok (parseKey_valid hk) hi, rfl⟩
    | error err => cases h

theorem getOne_answer (ht : target r = some (m, key)) (hf : (next fates).1 = .works) :
    (serve cmp s fates r .localGetOne).2 = answerOne key ((s.tables m.tableName).lookup key) := by
  obtain ⟨hm, hk⟩ := target_eq_some.mp ht
  simp only [serve, handler, localTableGetOne, hm, hk, orNotFound, orBadRequest, GetOne, parseKey_valid hk,
    Bool.false_eq_true, if_false, bind, Except.bind, pure, Except.pure, ask_statement hf]
  cases (s.tables m.tableName).lookup key with
  | some values => rfl
  | none => rfl

theorem getAll_answer {u : Int} (hm : newRow r.name = some m) (hu : parseUserID r.context = .ok u)
    (hf : (next fates).1 = .works) :
    (serve cmp s fates r .localGetAll).2 = .ok (.localRows (rowsOf (s.tables m.tableName) u)) := by
  simp only [serve, handler, localTableGetAll, hm, hu, orNotFound, orBadRequest, GetAll, query, bind, Except.bind, pure,
    Except.pure, ask_statement hf, reply]

theorem getOne_state : (serve cmp s fates r .localGetOne).1 = s := by
  cases hm : newRow r.name with
  | none => simp only [serve, handler, localTableGetOne, hm, orNotFound, bind, Except.bind]
  | some m =>
    cases hk : parseKey r.context <;>
      simp only [serve, handler, localTableGetOne, hm, hk, orNotFound, orBadRequest, bind, Except.bind, pure, Except.pure]

theorem getAll_state : (serve cmp s fates r .localGetAll).1 = s := by
  cases hm : newRow r.name with
  | none => simp only [serve, handler, localTableGetAll, hm, orNotFound, bind, Except.bind]
  | some m =>
    cases hu : parseUserID r.context <;>
      simp only [serve, handler, localTableGetAll, hm, hu, orNotFound, orBadRequest, bind, Except.bind, pure, Except.pure]

end Requests

/-! ## What an insert writes -/

section Upsert

variable {m : RowType} {table table' : Rows V} {row : Row V}

theorem upsert_clear (hc : ∀ e ∈ table.entries, conflicts m row e = false) (h : upsert m table row = .ok table') :
    table' = table.insert row.key row.values := by
  have hnone : table.entries.find? (conflicts m row) = none := by
    apply List.find?_eq_none.mpr
    intro e he
    simp [hc e he]
  rw [upsert, hnone] at h
  cases h
  rfl

/-- A row with the unique columns of another is not found under its own id. -/
theorem upsert_redirected {e : Sigma fun _ : Key => List V} (he : e ∈ table.entries) (hc : conflicts m row e = true)
    (h : upsert m table row = .ok table') : table'.lookup row.key = none := by
  cases hfind : table.entries.find? (conflicts m row) with
  | none => exact absurd hc (by simpa using List.find?_eq_none.mp hfind e he)
  | some e' =>
    have hne : row.key ≠ e'.1 := by
      intro heq
      have hc' := List.find?_some hfind
      simp [conflicts, heq] at hc'
    rw [upsert, hfind] at h
    dsimp only at h
    split at h
    · next hnone =>
      cases h
      rw [AList.lookup_insert_ne hne]
      exact hnone
    · cases h

omit [DecidableEq V] in
theorem mem_rowsOf {u : Int} : row ∈ rowsOf table u ↔ row.key.userID = u ∧ table.lookup row.key = some row.values := by
  simp only [rowsOf, List.mem_map, List.mem_filter, decide_eq_true_eq]
  apply Iff.intro
  · intro h
    obtain ⟨e, ⟨he, hu⟩, rfl⟩ := h
    exact ⟨hu, AList.mem_lookup_iff.mpr he⟩
  · intro h
    exact ⟨⟨row.key, row.values⟩, ⟨AList.mem_lookup_iff.mp h.2, h.1⟩, rfl⟩

omit [DecidableEq V] in
theorem rowsOf_nodup (u : Int) : ((rowsOf table u).map (·.key)).Nodup := by
  have hkeys : (table.entries.map Sigma.fst).Nodup := table.nodupKeys
  have hsub := (List.filter_sublist (p := (·.1.userID = u)) (l := table.entries)).map Sigma.fst
  simpa [rowsOf, Function.comp_def] using hkeys.sublist hsub

end Upsert

/-! ## Runs -/

section Run

variable {cmp} {s t : Logged V} {e : Event V J}

/-- An event leaves the tables and the store, or writes the same under the key it names. -/
theorem step_cases (hc : Clear s e) (h : step cmp s e = some t) :
    (t.proxy = s.proxy ∧ t.kv = s.kv) ∨
    ∃ m key values table, target e.request = some (m, key) ∧ t.kv = s.kv.put m.tableName key values ∧
      t.proxy = setTable s.proxy m.tableName table ∧
      ∀ k, table.lookup k = if k = key then values else (s.proxy.tables m.tableName).lookup k := by
  cases e with
  | insert r fates =>
    simp only [step] at h
    split at h
    · next proxy data m key row hserve ht hr =>
      obtain ⟨table, hu, hp⟩ := insert_ok hserve ht hr
      cases h
      have htable := upsert_clear (hc m key row ht hr) hu
      refine .inr ⟨m, key, some row.values, table, ht, rfl, hp, fun k => ?_⟩
      rw [htable]
      split
      · next hk => rw [hk, AList.lookup_insert]
      · next hk => exact AList.lookup_insert_ne hk
    · cases h
  | delete r fates =>
    simp only [step] at h
    split at h
    · next proxy data m key hserve ht =>
      cases h
      refine .inr ⟨m, key, none, _, ht, rfl, delete_ok hserve ht, fun k => ?_⟩
      split
      · next hk => rw [hk, AList.lookup_erase]
      · next hk => exact AList.lookup_erase_ne hk
    · cases h
  | readOne r fates =>
    cases h
    exact .inl ⟨getOne_state, rfl⟩
  | readAll r fates =>
    cases h
    exact .inl ⟨getAll_state, rfl⟩

def Agrees (s : Logged V) : Prop := ∀ name key, (s.proxy.tables name).lookup key = s.kv name key

theorem step_agrees (ha : Agrees s) (hc : Clear s e) (h : step cmp s e = some t) : Agrees t := by
  intro name k
  rcases step_cases hc h with ⟨hp, hkv⟩ | ⟨m, key, values, table, -, hkv, hp, hl⟩
  · rw [hp, hkv]
    exact ha name k
  · rw [hp, hkv, setTable_tables]
    by_cases hn : name = m.tableName
    · rw [if_pos hn, hl, hn]
      by_cases hk : k = key
      · rw [if_pos hk, hk, Store.put_self]
      · rw [if_neg hk, Store.put_of_ne s.kv values fun h => hk h.2]
        exact ha m.tableName k
    · rw [if_neg hn, Store.put_of_ne s.kv values fun h => hn h.1]
      exact ha name k

theorem reach_agrees (h : Reach (system cmp) Clear s) : Agrees s := by
  apply h.inv
  · intro s0 h0 name key
    rw [h0.1, h0.2]
    rfl
  · intro s e t ha hc hs
    exact step_agrees ha hc hs

/-- An event leaves what is not under the key it names. -/
theorem step_frame (hc : Clear s e) (h : step cmp s e = some t) {name : String} {k : Key}
    (hne : ∀ m key, target e.request = some (m, key) → ¬ (m.tableName = name ∧ key = k)) :
    (t.proxy.tables name).lookup k = (s.proxy.tables name).lookup k := by
  rcases step_cases hc h with ⟨hp, -⟩ | ⟨m, key, values, table, ht, -, hp, hl⟩
  · rw [hp]
  · rw [hp, setTable_tables]
    by_cases hn : name = m.tableName
    · have hk : k ≠ key := fun hk => hne m key ht ⟨hn.symm, hk.symm⟩
      rw [if_pos hn, hl, if_neg hk, hn]
    · rw [if_neg hn]

/-- An insert that succeeds is found under its id exactly when it is clear. -/
theorem inserted_iff_clear {r : Request V J} {fates : List Fate} {m : RowType} {key : Key} {row : Row V}
    (h : step cmp s (.insert r fates) = some t) (ht : target r = some (m, key)) (hr : r.row = .ok row) :
    (t.proxy.tables m.tableName).lookup key = some row.values ↔ Clear s (.insert r fates) := by
  simp only [step] at h
  split at h
  · next proxy data m' key' row' hserve ht' hr' =>
    cases ht.symm.trans ht'
    cases hr.symm.trans hr'
    obtain ⟨table, hu, hp⟩ := insert_ok hserve ht hr
    cases h
    rw [hp, setTable_tables, if_pos rfl]
    apply Iff.intro
    · intro hfound m₁ key₁ row₁ ht₁ hr₁ e he
      cases ht.symm.trans ht₁
      cases hr.symm.trans hr₁
      cases hconf : conflicts m ⟨key, row.values⟩ e with
      | false => rfl
      | true =>
        have hnone := upsert_redirected he hconf hu
        rw [hnone] at hfound
        cases hfound
    · intro hc
      rw [upsert_clear (hc m key row ht hr) hu]
      exact AList.lookup_insert _
  · cases h

end Run

/-- After any run in which every insert is clear: reading an id, when the database works,
    answers what was last inserted under it and not deleted since; reading all rows
    answers those of the user, each once; and a clear request leaves every row but the one
    it names. An insert is found under its id only when it is clear. -/
theorem key_value_run {s : Logged V} (h : Reach (system cmp) Clear s) :
    (∀ (r : Request V J) fates m key, target r = some (m, key) → (next fates).1 = .works →
      (serve cmp s.proxy fates r .localGetOne).2 = answerOne key (s.kv m.tableName key)) ∧
    (∀ (r : Request V J) fates m u, newRow r.name = some m → parseUserID r.context = .ok u → (next fates).1 = .works →
      ∃ l, (serve cmp s.proxy fates r .localGetAll).2 = .ok (.localRows l) ∧ (l.map (·.key)).Nodup ∧
        ∀ row, row ∈ l ↔ row.key.userID = u ∧ s.kv m.tableName row.key = some row.values) ∧
    (∀ e t, Clear s e → step cmp s e = some t → ∀ name k,
      (∀ m key, target e.request = some (m, key) → ¬ (m.tableName = name ∧ key = k)) →
      (t.proxy.tables name).lookup k = (s.proxy.tables name).lookup k) ∧
    ∀ r fates t m key row, step cmp s (.insert r fates) = some t → target r = some (m, key) → r.row = .ok row →
      ((t.proxy.tables m.tableName).lookup key = some row.values ↔ Clear s (.insert r fates)) := by
  have ha := reach_agrees h
  refine ⟨?_, ?_, fun e t hc hs name k => step_frame hc hs, fun r fates t m key row hs => inserted_iff_clear hs⟩
  · intro r fates m key ht hf
    rw [getOne_answer ht hf, ha]
  · intro r fates m u hm hu hf
    refine ⟨rowsOf (s.proxy.tables m.tableName) u, getAll_answer hm hu hf, rowsOf_nodup u, fun row => ?_⟩
    rw [mem_rowsOf, ha]

/-! ## The conversation history -/

/-- User 7's request for a message under an id. -/
def message (uniqueid text : String) : Request String String where
  name := "user_conversation_history"
  subject := .ok 7
  uniqueid := uniqueid
  field := ""
  value := ""
  millis := .ok 0
  search := ⟨[], [], 0⟩
  records := .error "EOF"
  device := .error "EOF"
  row := .ok ⟨⟨uniqueid, 7⟩, ["main", "1", text]⟩
  nowMillis := 0

def nothing : Logged String := ⟨noRows, fun _ _ => none⟩

/-- After message 1 of a conversation was put under `a`. -/
def first : Logged String :=
  ⟨setTable noRows "user_conversation_history" ((∅ : Rows String).insert ⟨"a", 7⟩ ["main", "1", "hi"]),
    nothing.kv.put "user_conversation_history" ⟨"a", 7⟩ (some ["main", "1", "hi"])⟩

theorem first_step : step byText nothing (.insert (message "a" "hi") []) = some first := rfl

theorem first_reach : Reach (system byText) Clear first := by
  refine .step (.insert (message "a" "hi") []) (.init (s := nothing) ⟨fun _ => rfl, rfl⟩) ?_ first_step
  intro m key row _ _ e he
  exact (List.not_mem_nil he).elim

/-- The same message put under `b` after `a`: both inserts succeed, the second changes the
    row of `a`, and `b` is not found. -/
theorem second_message_redirected :
    ∃ s, run (system byText) nothing [.insert (message "a" "hi") [], .insert (message "b" "hello") []] = some s ∧
      s.kv "user_conversation_history" ⟨"a", 7⟩ = some ["main", "1", "hi"] ∧
      (serve byText s.proxy [] (message "a" "") .localGetOne).2 =
        .ok (.localRow ⟨⟨"a", 7⟩, ["main", "1", "hello"]⟩) ∧
      s.kv "user_conversation_history" ⟨"b", 7⟩ = some ["main", "1", "hello"] ∧
      (serve byText s.proxy [] (message "b" "") .localGetOne).2 = .notFound "row not found" :=
  ⟨_, rfl, rfl, rfl, rfl, rfl⟩

theorem key_value_run_first :
    (serve byText first.proxy [] (message "a" "") .localGetOne).2 =
      .ok (.localRow ⟨⟨"a", 7⟩, ["main", "1", "hi"]⟩) ∧
    ¬ Clear (J := String) first (.insert (message "b" "hello") []) := by
  obtain ⟨hone, -, -, hclear⟩ := key_value_run byText first_reach
  refine ⟨hone (message "a" "") [] userConversationHistory ⟨"a", 7⟩ rfl rfl, fun hc => ?_⟩
  have hstep : ∃ t, step byText first (.insert (message "b" "hello") []) = some t ∧
      (t.proxy.tables "user_conversation_history").lookup ⟨"b", 7⟩ = none := ⟨_, rfl, rfl⟩
  obtain ⟨t, ht, hnone⟩ := hstep
  have hfound := (hclear _ _ t userConversationHistory ⟨"b", 7⟩ _ ht rfl rfl).mpr hc
  rw [show userConversationHistory.tableName = "user_conversation_history" from rfl, hnone] at hfound
  cases hfound

end GenieCloud.Dbproxy.KeyValue
