/-
  GenieCloud.Dbproxy.Search — searching a local table (`localTableSearch` in
  `go/dbproxy/local_table.go`, `SearchParams` and `Search` in `go/sql/local_table.go`).

  The handler decodes its `search` parameter with `json.Unmarshal` and then looks at an
  error from before, which is nil: what the decoder could read is checked and searched
  for, also when it could not read all of it. Filters that are no list are left out of the
  search, a value out of range is searched for as nil, and a limit that is no integer is
  none.

  `WellFormed` is a text of a search object, each member of it of its type; it is what
  decodes without an error (`decoded_iff`). `search_exact_iff`: the answer is the one that was
  asked for exactly if the text is well formed, or what is left of it does not pass the checks
  of the handler. Text that is not JSON leaves nothing and does not pass (`not_json_refused`).

  The types of columns and of floating point numbers are parameters, and so is what MySQL
  makes of comparing columns; `Ordered` is what is assumed of it. A value that it cannot
  compare with makes the statement fail.
-/

import GenieCloud.Lib.GoJson
import GenieCloud.Dbproxy.KeyValue

namespace GenieCloud.Dbproxy.Search

open GenieCloud.Lib.GoJson GenieCloud.Lib.Transaction GenieCloud.Sql.LocalTable GenieCloud.Dbproxy.Proxy
  GenieCloud.Dbproxy.KeyValue
open GenieCloud.Dbproxy.SyncTable (parseUserID)

/-! ## The parameter -/

/-- `SearchParams`, with the arrays under its slices. -/
structure Params (F : Type) where
  filter : Slice (Sql.LocalTable.Filter (Any F))
  sort : Slice String
  limit : Int

def Params.search {F : Type} (params : Params F) : SearchParams (Any F) :=
  ⟨params.filter.toList, params.sort.toList, params.limit⟩

section Decode

variable {F : Type} (parseFloat : String → Option F)

def filterFields : List (StructField (Sql.LocalTable.Filter (Any F))) :=
  [.of "k" (·.key) (fun filter key => { filter with key := key }) .string,
   .of "o" (·.operator) (fun filter operator => { filter with operator := operator }) .string,
   .of "v" (·.value) (fun filter value => { filter with value := value }) (.interface parseFloat)]

def paramsFields : List (StructField (Params F)) :=
  [.of "filter" (·.filter) (fun params filter => { params with filter := filter })
     (.slice (.struct (filterFields parseFloat)) ⟨"", "", .nil⟩),
   .of "sort" (·.sort) (fun params sort => { params with sort := sort }) (.slice .string ""),
   .of "limit" (·.limit) (fun params limit => { params with limit := limit }) .int]

/-- `Unmarshal` into a `SearchParams` of zero values: what it leaves, and whether there was
    no error. -/
def unmarshalParams (text : String) : SearchParams (Any F) × Bool :=
  let (params, ok) := unmarshal (.struct (paramsFields parseFloat)) ⟨⟨[], 0⟩, ⟨[], 0⟩, 0⟩ text
  (params.search, ok)

/-- The key and the operator of a filter are strings, and its value anything in range. -/
def FilterMember (name : String) (t : Tree) : Prop :=
  (name = "k" ∨ name = "o" → IsString t) ∧ (name = "v" → InRange parseFloat t)

def ParamsMember (name : String) (t : Tree) : Prop :=
  (name = "filter" → IsListOf (IsStructOf (filterFields parseFloat) (FilterMember parseFloat)) t) ∧
    (name = "sort" → IsListOf IsString t) ∧ (name = "limit" → IsInt t)

def WellFormed (text : String) : Prop :=
  ∃ t, parse text = some t ∧ IsStructOf (paramsFields parseFloat) (ParamsMember parseFloat) t

theorem filter_reads :
    Reads (.struct (filterFields parseFloat)) (IsStructOf (filterFields parseFloat) (FilterMember parseFloat)) := by
  refine struct_reads (List.forall_mem_cons.mpr ⟨?_, List.forall_mem_cons.mpr ⟨?_, List.forall_mem_singleton.mpr ?_⟩⟩)
  · exact (of_reads string_reads _ _ _).congr fun t => by simp [FilterMember, StructField.of]
  · exact (of_reads string_reads _ _ _).congr fun t => by simp [FilterMember, StructField.of]
  · exact (of_reads (interface_reads parseFloat) _ _ _).congr fun t => by simp [FilterMember, StructField.of]

theorem params_reads :
    Reads (.struct (paramsFields parseFloat)) (IsStructOf (paramsFields parseFloat) (ParamsMember parseFloat)) := by
  refine struct_reads (List.forall_mem_cons.mpr ⟨?_, List.forall_mem_cons.mpr ⟨?_, List.forall_mem_singleton.mpr ?_⟩⟩)
  · exact (of_reads (slice_reads (filter_reads parseFloat) _) _ _ _).congr fun t => by simp [ParamsMember, StructField.of]
  · exact (of_reads (slice_reads string_reads _) _ _ _).congr fun t => by simp [ParamsMember, StructField.of]
  · exact (of_reads int_reads _ _ _).congr fun t => by simp [ParamsMember, StructField.of]

theorem decoded_iff (text : String) : (unmarshalParams parseFloat text).2 = true ↔ WellFormed parseFloat text :=
  unmarshal_ok_iff (params_reads parseFloat) _ text

/-- A request whose `search` parameter is this text. -/
def asking {V : Type} (r : Request V (Any F)) (text : String) : Request V (Any F) :=
  { r with search := (unmarshalParams parseFloat text).1 }

end Decode

variable {V J : Type}

/-! ## The checks -/

def KnownFilter (m : RowType) (filter : Sql.LocalTable.Filter J) : Prop :=
  filter.key ∈ m.fields ∧ filter.operator ∈ ["=", "<=", ">=", "<", ">"]

def ValidSort (m : RowType) (sort : List String) : Prop :=
  ∃ field direction, sort = [field, direction] ∧ field ∈ m.fields ∧ (direction = "asc" ∨ direction = "desc")

/-- Known fields, known operators, and a field and a direction to sort by. -/
structure Passes (m : RowType) (params : SearchParams J) : Prop where
  filter : ∀ filter ∈ params.filter, KnownFilter m filter
  sort : ValidSort m params.sort

theorem checkFilters_cases (m : RowType) (filters : List (Sql.LocalTable.Filter J)) :
    ((checkFilters m filters : Handler V Unit) = .ok () ∧ ∀ filter ∈ filters, KnownFilter m filter) ∨
    (∃ error, (checkFilters m filters : Handler V Unit) = .error (.badRequest error)) ∧
      ¬∀ filter ∈ filters, KnownFilter m filter := by
  induction filters with
  | nil => exact .inl ⟨rfl, by simp⟩
  | cons filter filters ih =>
    rw [checkFilters, List.forall_mem_cons]
    by_cases hk : filter.key ∈ m.fields
    · by_cases ho : filter.operator ∈ ["=", "<=", ">=", "<", ">"]
      · rw [if_neg (not_not.mpr hk), if_neg (not_not.mpr ho)]
        rcases ih with ⟨h, hall⟩ | ⟨h, hnot⟩
        · exact .inl ⟨h, ⟨hk, ho⟩, hall⟩
        · exact .inr ⟨h, fun hall => hnot hall.2⟩
      · rw [if_neg (not_not.mpr hk), if_pos ho]
        exact .inr ⟨⟨_, rfl⟩, fun hall => ho hall.1.2⟩
    · rw [if_pos hk]
      exact .inr ⟨⟨_, rfl⟩, fun hall => hk hall.1.1⟩

theorem checkSort_cases (m : RowType) (sort : List String) :
    ((checkSort m sort : Handler V Unit) = .ok () ∧ ValidSort m sort) ∨
    (∃ error, (checkSort m sort : Handler V Unit) = .error (.badRequest error)) ∧ ¬ValidSort m sort := by
  unfold checkSort
  split
  · next field direction =>
    by_cases h : field ∉ m.fields ∨ (direction ≠ "asc" ∧ direction ≠ "desc")
    · rw [if_pos h]
      refine .inr ⟨⟨_, rfl⟩, fun hsort => ?_⟩
      obtain ⟨field', direction', heq, hf, hd⟩ := hsort
      cases heq
      rcases h with h | ⟨hasc, hdesc⟩
      · exact h hf
      · exact hd.elim hasc hdesc
    · rw [if_neg h]
      simp only [not_or, not_not, not_and_or] at h
      exact .inl ⟨rfl, field, direction, rfl, h.1, h.2⟩
  · next hne =>
    refine .inr ⟨⟨_, rfl⟩, fun hsort => ?_⟩
    obtain ⟨field, direction, heq, -, -⟩ := hsort
    exact hne field direction heq

/-! ## The rows -/

/-- `asc` or `desc` by a column. -/
def inOrder (cmp : Comparisons V J) (m : RowType) (field direction : String) (a b : Row V) : Bool :=
  if direction = "desc" then cmp.before (column m b.values field) (column m a.values field)
  else cmp.before (column m a.values field) (column m b.values field)

/-- Columns are in a line, where several may be at one place. -/
structure Ordered (cmp : Comparisons V J) : Prop where
  total : ∀ a b, cmp.before a b = true ∨ cmp.before b a = true
  trans : ∀ a b c, cmp.before a b = true → cmp.before b c = true → cmp.before a c = true

variable {cmp : Comparisons V J} {m : RowType} {table : Sql.LocalTable.Rows V} {userID : Int}
  {params : SearchParams J} {field direction : String}

theorem inOrder_total (h : Ordered cmp) (a b : Row V) :
    inOrder cmp m field direction a b = true ∨ inOrder cmp m field direction b a = true := by
  unfold inOrder
  split
  · exact h.total _ _
  · exact h.total _ _

theorem inOrder_trans (h : Ordered cmp) (a b c : Row V) (hab : inOrder cmp m field direction a b = true)
    (hbc : inOrder cmp m field direction b c = true) : inOrder cmp m field direction a c = true := by
  unfold inOrder at *
  split
  · next hd =>
    rw [if_pos hd] at hab hbc
    exact h.trans _ _ _ hbc hab
  · next hd =>
    rw [if_neg hd] at hab hbc
    exact h.trans _ _ _ hab hbc

/-- A row of the user in the table that satisfies every filter. -/
structure Wanted (cmp : Comparisons V J) (m : RowType) (table : Sql.LocalTable.Rows V) (userID : Int)
    (params : SearchParams J) (row : Row V) : Prop where
  inTable : table.lookup row.key = some row.values
  ofUser : row.key.userID = userID
  filter : ∀ f ∈ params.filter, cmp.compare (column m row.values f.key) f.operator f.value = true

/-- A limit that is not positive is none. -/
def cut (limit : Int) (rows : List (Row V)) : List (Row V) := if 0 < limit then rows.take limit.toNat else rows

/-- The rows that are wanted, once each and in the order asked for, up to the limit. -/
structure Answers (cmp : Comparisons V J) (m : RowType) (table : Sql.LocalTable.Rows V) (userID : Int)
    (params : SearchParams J) (found : List (Row V)) : Prop where
  once : found.Nodup
  wanted : ∀ row, row ∈ found ↔ Wanted cmp m table userID params row
  order : ∃ field direction, params.sort = [field, direction] ∧
    found.Pairwise fun a b => inOrder cmp m field direction a b = true

theorem search_answers (m : RowType) (table : Sql.LocalTable.Rows V) (userID : Int) (hcmp : Ordered cmp)
    (hsort : params.sort = [field, direction]) :
    ∃ found, search cmp m userID params field direction table = cut params.limit found ∧
      Answers cmp m table userID params found := by
  refine ⟨((rowsOf table userID).filter fun row =>
    params.filter.all fun f => cmp.compare (column m row.values f.key) f.operator f.value).mergeSort
      (inOrder cmp m field direction), rfl, ?_, fun row => ?_, field, direction, hsort, ?_⟩
  · refine (List.mergeSort_perm _ _).nodup_iff.mpr (List.Nodup.filter _ ?_)
    exact (rowsOf_nodup userID).of_map _
  · simp only [List.mem_mergeSort, List.mem_filter, mem_rowsOf, List.all_eq_true]
    constructor
    · intro h
      exact ⟨h.1.2, h.1.1, h.2⟩
    · intro h
      exact ⟨⟨h.ofUser, h.inTable⟩, h.filter⟩
  · exact List.pairwise_mergeSort (inOrder_trans hcmp) (fun a b => by simpa using inOrder_total hcmp a b) _

/-! ## The route -/

section Route

variable [DecidableEq V] {s : State V} {fates : List Fate} {r : Request V J}

theorem serve_refused (hm : newRow r.name = some m) (hu : parseUserID r.context = .ok userID)
    (hp : ¬Passes m r.search) : ∃ error, (serve cmp s fates r .localSearch).2 = .badRequest error := by
  simp only [serve, handler, localTableSearch, hm, hu, orNotFound, orBadRequest, bind, Except.bind, pure, Except.pure]
  rcases checkFilters_cases (V := V) m r.search.filter with ⟨hf, hfilter⟩ | ⟨⟨error, hf⟩, -⟩
  · rcases checkSort_cases (V := V) m r.search.sort with ⟨-, hsort⟩ | ⟨⟨error, hs⟩, -⟩
    · exact absurd ⟨hfilter, hsort⟩ hp
    · exact ⟨error, by rw [hf, hs]⟩
  · exact ⟨error, by rw [hf]⟩

theorem serve_passes (hm : newRow r.name = some m) (hu : parseUserID r.context = .ok userID)
    (hp : Passes m r.search) : (serve cmp s fates r .localSearch).2 =
      reply .localRows (Search cmp m (s.tables m.tableName) fates userID r.search) := by
  have hf := (checkFilters_cases (V := V) m r.search.filter).resolve_right fun h => h.2 hp.filter
  have hs := (checkSort_cases (V := V) m r.search.sort).resolve_right fun h => h.2 hp.sort
  simp only [serve, handler, localTableSearch, hm, hu, orNotFound, orBadRequest, bind, Except.bind, pure, Except.pure,
    hf.1, hs.1]

theorem serve_not_badRequest (hm : newRow r.name = some m) (hu : parseUserID r.context = .ok userID)
    (hp : Passes m r.search) (error : String) : (serve cmp s fates r .localSearch).2 ≠ .badRequest error := by
  rw [serve_passes hm hu hp]
  cases Search cmp m (s.tables m.tableName) fates userID r.search with
  | ok a => exact fun h => by cases h
  | error err => exact fun h => by cases h

/-- While the database works, a search that passes is answered for what was left of it. -/
theorem serve_answers (s : State V) (fates : List Fate) (hcmp : Ordered cmp) (hm : newRow r.name = some m)
    (hu : parseUserID r.context = .ok userID) (hp : Passes m r.search) (hf : (next fates).1 = .works) :
    ∃ found, (serve cmp s fates r .localSearch).2 = .ok (.localRows (cut r.search.limit found)) ∧
      Answers cmp m (s.tables m.tableName) userID r.search found := by
  obtain ⟨field, direction, hsort, -⟩ := hp.sort
  obtain ⟨found, hfound, hanswers⟩ := search_answers m (s.tables m.tableName) userID hcmp hsort
  refine ⟨found, ?_, hanswers⟩
  rw [serve_passes hm hu hp, Search, hsort]
  simp only [query, ask_statement hf, reply, hfound]

end Route

/-! ## Searching for what was asked -/

/-- The answer to a parameter: the rows that `params` asks for if it is well formed and they
    pass, and a refusal else. -/
structure Exact (cmp : Comparisons V J) (m : RowType) (table : Sql.LocalTable.Rows V) (userID : Int)
    (wellFormed : Prop) (params : SearchParams J) (fates : List Fate) (response : Response V) : Prop where
  valid : wellFormed → Passes m params → (next fates).1 = .works →
    ∃ found, response = .ok (.localRows (cut params.limit found)) ∧ Answers cmp m table userID params found
  invalid : ¬(wellFormed ∧ Passes m params) → ∃ error, response = .badRequest error

section Text

variable {F : Type} {parseFloat : String → Option F} [DecidableEq V] {cmp : Comparisons V (Any F)}
  {r : Request V (Any F)} {text : String}

/-- Text that is not JSON leaves no sort. -/
theorem not_json_refused (s : State V) (fates : List Fate) (hm : newRow r.name = some m)
    (hu : parseUserID r.context = .ok userID) (h : parse text = none) :
    ∃ error, (serve cmp s fates (asking parseFloat r text) .localSearch).2 = .badRequest error := by
  refine serve_refused (r := asking parseFloat r text) hm hu fun hp => ?_
  obtain ⟨field, direction, hsort, -⟩ := hp.sort
  rw [asking, unmarshalParams, unmarshal_none h] at hsort
  cases hsort

theorem search_exact_iff (hcmp : Ordered cmp) (s : State V) (fates : List Fate) (hm : newRow r.name = some m)
    (hu : parseUserID r.context = .ok userID) :
    Exact cmp m (s.tables m.tableName) userID (WellFormed parseFloat text) (unmarshalParams parseFloat text).1 fates
        (serve cmp s fates (asking parseFloat r text) .localSearch).2 ↔
      WellFormed parseFloat text ∨ ¬Passes m (unmarshalParams parseFloat text).1 := by
  constructor
  · intro h
    by_contra hnot
    obtain ⟨hformed, hp⟩ := not_or.mp hnot
    obtain ⟨error, hbad⟩ := h.invalid fun hvalid => hformed hvalid.1
    exact serve_not_badRequest (r := asking parseFloat r text) hm hu (not_not.mp hp) error hbad
  · intro h
    refine ⟨fun _ hp hf => serve_answers (r := asking parseFloat r text) s fates hcmp hm hu hp hf, fun hnot => ?_⟩
    refine serve_refused (r := asking parseFloat r text) hm hu fun hp => ?_
    rcases h with h | h
    · exact hnot ⟨h, hp⟩
    · exact h hp

end Text

/-- Text compared by its characters. -/
def byCharacter : Comparisons String (Any String) where
  equals column value := column = some value
  compare column operator value :=
    match column, value with
    | some c, .string v =>
      if operator = "=" then c = v
      else if operator = "<=" then c ≤ v
      else if operator = ">=" then v ≤ c
      else if operator = "<" then c < v
      else v < c
    | _, _ => false
  before a b :=
    match a, b with
    | none, _ => true
    | some _, none => false
    | some a, some b => a ≤ b

theorem ordered_byCharacter : Ordered byCharacter := by
  refine ⟨fun a b => ?_, fun a b c hab hbc => ?_⟩
  · cases a with
    | none => exact .inl rfl
    | some a =>
      cases b with
      | none => exact .inr rfl
      | some b => simpa [byCharacter] using String.le_total a b
  · cases a with
    | none => rfl
    | some a =>
      cases b with
      | none => cases hab
      | some b =>
        cases c with
        | none => cases hbc
        | some c =>
          simp only [byCharacter, decide_eq_true_eq] at *
          exact String.le_trans hab hbc

/-- Two preferences of user 7. -/
def preferences : State String where
  tables name :=
    if name = "user_preference" then AList.insert ⟨"y", 7⟩ ["b"] (AList.insert ⟨"x", 7⟩ ["a"] ∅) else ∅
  sync := .empty

def preferenceSearch : Request String (Any String) where
  name := "user_preference"
  subject := .ok 7
  uniqueid := ""
  field := ""
  value := ""
  millis := .error "strconv.ParseInt: parsing \"\": invalid syntax"
  search := ⟨[], [], 0⟩
  records := .error "EOF"
  device := .error "EOF"
  row := .error "EOF"
  nowMillis := 0

def answerTo (text : String) : Response String :=
  (serve byCharacter preferences [] (asking some preferenceSearch text) .localSearch).2

/-- The answer to a text is the one it asks for. -/
def Asked (text : String) : Prop :=
  Exact byCharacter userPreference (preferences.tables "user_preference") 7 (WellFormed some text)
    (unmarshalParams some text).1 [] (answerTo text)

def latest : String :=
  "\x7b\"filter\":[\x7b\"k\":\"value\",\"o\":\">=\",\"v\":\"b\"\x7d],\"sort\":[\"value\",\"desc\"],\"limit\":1\x7d"

theorem search_exact_iff_latest : Asked latest := by
  have hm : newRow preferenceSearch.name = some userPreference := rfl
  have hu : parseUserID preferenceSearch.context = .ok 7 := rfl
  have hformed : WellFormed some latest := (decoded_iff some latest).mp (by decide +kernel)
  exact (search_exact_iff ordered_byCharacter preferences [] hm hu).mpr (.inl hformed)

/-- A filter that is not in a list. -/
def unlisted : String :=
  "\x7b\"filter\":\x7b\"k\":\"value\",\"o\":\"=\",\"v\":\"a\"\x7d,\"sort\":[\"value\",\"asc\"]\x7d"

/-- It is not searched for, and the answer has the row that it leaves out. -/
theorem unlisted_filter_answered : ¬WellFormed some unlisted ∧ ¬Asked unlisted ∧
    ∃ rows, answerTo unlisted = .ok (.localRows rows) ∧ ⟨⟨"y", 7⟩, ["b"]⟩ ∈ rows := by
  have hparams : (unmarshalParams some unlisted).2 = false ∧ (unmarshalParams some unlisted).1.sort = ["value", "asc"] ∧
      (unmarshalParams some unlisted).1.limit = 0 ∧ (unmarshalParams some unlisted).1.filter.length = 0 := by decide
  obtain ⟨hdecoded, hsort, hlimit, hlength⟩ := hparams
  have hformed : ¬WellFormed some unlisted := by
    rw [← decoded_iff, hdecoded]
    exact Bool.false_ne_true
  have hfilter := List.length_eq_zero_iff.mp hlength
  have hasked : (asking some preferenceSearch unlisted).search = (unmarshalParams some unlisted).1 := rfl
  have hp : Passes userPreference (asking some preferenceSearch unlisted).search := by
    rw [hasked]
    exact ⟨by rw [hfilter]; simp, "value", "asc", hsort, by decide, .inl rfl⟩
  have hm : newRow (asking some preferenceSearch unlisted).name = some userPreference := rfl
  have hu : parseUserID (asking some preferenceSearch unlisted).context = .ok 7 := rfl
  obtain ⟨found, hanswer, hfound⟩ := serve_answers preferences [] ordered_byCharacter hm hu hp rfl
  rw [hasked] at hanswer hfound
  have hrow : Wanted byCharacter userPreference (preferences.tables userPreference.tableName) 7
      (unmarshalParams some unlisted).1 ⟨⟨"y", 7⟩, ["b"]⟩ :=
    ⟨by decide, rfl, by rw [hfilter]; simp⟩
  refine ⟨hformed, fun h => ?_, _, hanswer, ?_⟩
  · obtain ⟨error, hbad⟩ := h.invalid fun hvalid => hformed hvalid.1
    rw [answerTo, hanswer] at hbad
    cases hbad
  · rw [hlimit, cut, if_neg (lt_irrefl 0)]
    exact (hfound.wanted _).mpr hrow

end GenieCloud.Dbproxy.Search
