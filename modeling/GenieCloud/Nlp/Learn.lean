/-
  GenieCloud.Nlp.Learn — learning a sentence (`learn` of `nlp/learn.ts`), with the likes
  and the examples of the web frontend's database.

  A sentence of the command store is to be liked by its owner at once. The transaction that
  creates the example calls `like(dbClient, exid, ownerId)`, but `like` takes the user first:
  the example with the owner's id gets the like, of the user with the new example's id, if
  there are such two and the like is not there yet. The new example gets none, unless the
  two ids are one number (`learn_iff`). Wherever the like goes, it is counted
  (`learn_counted`).
-/

import GenieCloud.Lib.Result
import GenieCloud.Lib.Transaction
import GenieCloud.Lib.Utf16
import GenieCloud.Lib.Varchar
import GenieCloud.Routes.ExampleLikes
import GenieCloud.Thingpedia.Dataset

namespace GenieCloud.Nlp.Learn

open GenieCloud.Lib GenieCloud.Lib.Transaction GenieCloud.Routes.AccountDeletion GenieCloud.Routes.ExampleLikes
open GenieCloud.Thingpedia (isSpace)

variable {E P : Type}

/-! ## The request -/

/-- A string, `null` or `undefined` (`none`). -/
abbrev Nullable := Option (Option String)

/-- The parameters that `validatePOST` lets through. -/
structure Body where
  q : String
  store : String
  access_token : Nullable
  thingtalk_version : String
  target : String
  owner : Option String
  timezone : Option String

structure Tokenized (E : Type) where
  tokens : List String
  entities : E

/-- What the packages and the loaded models do. -/
structure Service (E P : Type) where
  getTokenizer : (locale : String) → Option (String → Except String (Tokenized E))
  /-- The access token of a model. -/
  getModel : (modelTag locale : String) → Option Nullable
  thingtalkVersion : String
  parse : List String → E → (locale : String) → (timezone : Option String) → Except String P
  typecheck : (modelTag locale : String) → P → Except String Unit
  serializePrediction : P → List String → E → (locale : String) → (timezone : Option String) → Except String (List String)

inductive Response where
  | error (status : Nat) (error : String) (detail : Option String)
  | ok (message : String) (example_id : Option Nat)
  deriving DecidableEq, Repr

/-- How a request ends that does not come to the database. -/
abbrev Ends := Except String Response

/-- A sentence and its program, both in tokens. -/
structure Command where
  preprocessed : List String
  target : List String
  deriving DecidableEq, Repr

def noOwner (body : Body) : Bool := body.owner.getD "" = ""

/-- Parses, checks and serializes again; any of the three can throw. -/
def normalize (service : Service E P) (modelTag locale : String) (body : Body) (tokenized : Tokenized E) :
    Except String (List String) := do
  let parsed ← service.parse (body.target.splitOn " ") tokenized.entities locale body.timezone
  service.typecheck modelTag locale parsed
  service.serializePrediction parsed tokenized.tokens tokenized.entities locale body.timezone

def prepare (service : Service E P) (modelTag locale : String) (body : Body) : Except Ends Command :=
  if ["no", "automatic", "online", "commandpedia"].contains body.store = false then
    throw (.ok (.error 400 "Invalid store parameter" none))
  else if body.store = "commandpedia" ∧ noOwner body = true then
    throw (.ok (.error 400 "Missing owner for commandpedia command" none))
  else
    match service.getTokenizer locale, service.getModel modelTag locale with
    | none, _ => throw (.ok (.error 404 "Unsupported language" none))
    | some _, none => throw (.ok (.error 404 "No such model" none))
    | some tokenize, some accessToken =>
      if accessToken ≠ some none ∧ accessToken ≠ body.access_token then throw (.ok (.error 404 "No such model" none))
      else
        match tokenize body.q with
        | .error err => throw (.error err)
        | .ok tokenized =>
          if tokenized.tokens = [] then throw (.ok (.error 400 "Refusing to learn an empty sentence" none))
          else if body.thingtalk_version ≠ service.thingtalkVersion then
            throw (.ok (.ok "Ignored request from older ThingTalk" none))
          else
            match normalize service modelTag locale body tokenized with
            | .error err => throw (.ok (.error 400 "Invalid ThingTalk" (some err)))
            | .ok target => pure ⟨tokenized.tokens, target⟩

/-! ## The owner -/

def digitValue (c : Char) : Nat :=
  if c.isDigit then c.toNat - '0'.toNat
  else if 'a' ≤ c ∧ c ≤ 'z' then c.toNat - 'a'.toNat + 10
  else if 'A' ≤ c ∧ c ≤ 'Z' then c.toNat - 'A'.toNat + 10
  else 36

/-- The digits in front, `none` for `NaN`. What is rounded is too large for a column. -/
def parseDigits (radix : Nat) (s : List Char) : Option Nat :=
  match s.takeWhile (digitValue · < radix) with
  | [] => none
  | digits => some (digits.foldl (fun n c => n * radix + digitValue c) 0)

def parseUnsigned : List Char → Option Nat
  | '0' :: 'x' :: s => parseDigits 16 s
  | '0' :: 'X' :: s => parseDigits 16 s
  | s => parseDigits 10 s

def parseInt (s : String) : Option Int :=
  match s.toList.dropWhile isSpace with
  | '-' :: s => (parseUnsigned s).map fun n => -(n : Int)
  | '+' :: s => (parseUnsigned s).map (↑)
  | s => (parseUnsigned s).map (↑)

/-- The lengths of a cloud id. -/
def isCloudId (owner : String) : Bool := [8, 16, 64].contains (Utf16.encode owner.toList).length

def usersByCloudId (db : Db) (cloudId : String) : List (Nat × UserRow) :=
  db.users.select fun _ user => unpadded user.cloud_id = unpadded cloudId

/-- The user that an owner names. -/
def ownerIn (db : Db) (owner : String) : Option Int :=
  if isCloudId owner then (usersByCloudId db owner).head?.map fun row => (row.1 : Int) else parseInt owner

/-! ## The statements -/

/-- `getIdByCloudId`; an id that is not there is not an error here. -/
def getIdByCloudId (cloudId : String) : Tx Db String (Option Int) := do
  match ← query fun db => usersByCloudId db cloudId with
  | [] => pure none
  | [row] => pure (some row.1)
  | rows => fail ("Wrong number of rows returned, expected 1, got " ++ toString rows.length)

def lookupOwner (owner : String) : Tx Db String (Option Int) :=
  if isCloudId owner then getIdByCloudId owner else pure (parseInt owner)

/-- `none`: the owner is nobody's, and the response says so. -/
def resolveOwner (body : Body) : Tx Db String (Option (Option Int)) :=
  match body.owner with
  | none => pure (some none)
  | some owner =>
    if owner = "" then pure (some none)
    else do
      match ← lookupOwner owner with
      | none => pure none
      | some ownerId => pure (some (some ownerId))

/-- The columns that are set. The tables here keep the owner and the count. -/
structure Example where
  is_base : Bool
  language : String
  utterance : String
  preprocessed : String
  type : String
  flags : String
  target_code : String
  target_json : String
  owner : Option Int
  like_count : Int

/-- The owner refers to a user. -/
def ownerColumn (db : Db) : Option Int → Except String (Option Nat)
  | none => .ok none
  | some owner =>
    if 0 ≤ owner ∧ owner < 2 ^ 31 ∧ (db.users.get? owner.toNat).isSome = true then .ok (some owner.toNat)
    else .error "ER_NO_REFERENCED_ROW_2"

def insertExample (db : Db) (row : ExampleRow) : Db := { db with example_utterances := db.example_utterances.insert row }

def create (ex : Example) : Tx Db String Nat := statement fun db => do
  let owner ← ownerColumn db ex.owner
  pure (db.example_utterances.next, insertExample db ⟨ex.like_count, owner⟩)

/-- `insert ignore`: whether a row was inserted. -/
def insertIgnoreLike (userId exampleId : Nat) : Tx Db String Bool := statement fun db =>
  if h : canLike db userId exampleId = true then .ok (true, insertLike db userId exampleId h) else .ok (false, db)

def like (userId exampleId : Nat) : Tx Db String Unit := do
  if ← insertIgnoreLike userId exampleId then
    statement fun db => .ok ((), addLikes db exampleId 1)

def localeToLanguage (locale : String) : String :=
  let locale := locale.toLower
  if locale = "zh-tw" ∨ locale = "zh-cn" then locale
  else String.ofList (locale.toList.takeWhile fun c => c != '-' && c != '_' && c != '@' && c != '.')

def trainable (body : Body) : Bool := body.store = "online" || body.store = "commandpedia"

def exampleOf (locale : String) (body : Body) (command : Command) (owner : Option Int) : Example where
  is_base := false
  language := localeToLanguage locale
  utterance := body.q
  preprocessed := " ".intercalate command.preprocessed
  type := if body.store = "online" ∧ command.target.head? = some "bookkeeping" then "online-bookkeeping" else body.store
  flags := if trainable body then "training,exact" else ""
  target_code := " ".intercalate command.target
  target_json := ""
  owner := owner
  like_count := 0

/-- The body of the transaction. -/
def addExample (locale : String) (body : Body) (command : Command) : Tx Db String (Option Nat) := do
  match ← resolveOwner body with
  | none => pure none
  | some ownerId =>
    let exid ← create (exampleOf locale body command ownerId)
    match ownerId with
    | none => pure (some exid)
    | some ownerId =>
      -- `like(dbClient, exid, ownerId)`; `create` has refused an owner below 0
      if body.store = "commandpedia" then like exid ownerId.toNat
      pure (some exid)

/-- `notify` is the call to the other replicas. -/
def learn (service : Service E P) (modelTag locale : String) (notify : Nat → Except String Unit) (body : Body) (db : Db)
    (fates : List Fate) : Db × Except (Failure String) Response :=
  match prepare service modelTag locale body with
  | .error (.ok response) => (db, .ok response)
  | .error (.error err) => (db, .error (.error err))
  | .ok command =>
    if body.store = "no" then (db, .ok (.ok "Learnt successfully" none))
    else
      match transaction (addExample locale body command) db fates with
      | (db', .error err) => (db', .error err)
      | (db', .ok none) => (db', .ok (.error 400 "Invalid command owner" none))
      | (db', .ok (some exid)) =>
        match if trainable body then notify exid else .ok () with
        | .error err => (db', .error (.error err))
        | .ok () => (db', .ok (.ok "Learnt successfully" (some exid)))

/-! ## What is asked -/

/-- The new example has one more like, its owner's, and counts it; no other count and no
    other like is different. -/
structure LikesNew (db db' : Db) (exid owner : Nat) : Prop where
  created : db.example_utterances.get? exid = none
  row : db'.example_utterances.get? exid = some ⟨1, some owner⟩
  others : ∀ id, id ≠ exid →
    (db'.example_utterances.get? id).map (·.like_count) = (db.example_utterances.get? id).map (·.like_count)
  likes : ∀ like, like ∈ db'.example_likes ↔ like = (exid, owner) ∨ like ∈ db.example_likes

/-- The two statements of `like` together. -/
def liked (db : Db) (userId exampleId : Nat) : Db :=
  if h : canLike db userId exampleId = true then addLikes (insertLike db userId exampleId h) exampleId 1 else db

variable {db db' : Db} {body : Body} {locale : String} {command : Command} {owner userId exampleId : Nat}

/-! ## The transaction -/

theorem triple_like : Triple (· = db) (like userId exampleId) fun _ t => t = liked db userId exampleId := by
  unfold like
  by_cases h : canLike db userId exampleId = true
  · refine Triple.bind (Q := fun inserted t => inserted = true ∧ t = insertLike db userId exampleId h) ?_ ?_
    · apply Triple.statement
      intro s inserted t hs hstep
      subst hs
      rw [dif_pos h] at hstep
      cases hstep
      exact ⟨rfl, rfl⟩
    · intro inserted
      cases inserted with
      | false => exact fun s _ _ _ _ hs _ => absurd hs.1 (by decide)
      | true =>
        rw [if_pos rfl]
        refine Triple.statement ?_
        intro s u t hs hstep
        obtain rfl : addLikes s exampleId 1 = t := congrArg Prod.snd (Except.ok.inj hstep)
        rw [hs.2, liked, dif_pos h]
  · refine Triple.bind (Q := fun inserted t => inserted = false ∧ t = db) ?_ ?_
    · apply Triple.statement
      intro s inserted t hs hstep
      subst hs
      rw [dif_neg h] at hstep
      cases hstep
      exact ⟨rfl, rfl⟩
    · intro inserted
      cases inserted with
      | true => exact fun s _ _ _ _ hs _ => absurd hs.1 (by decide)
      | false =>
        refine Triple.pure ?_
        intro s hs
        rw [hs.2, liked, dif_neg h]

theorem triple_getIdByCloudId (cloudId : String) : Triple (· = db) (getIdByCloudId cloudId)
    fun found t => t = db ∧ found = (usersByCloudId db cloudId).head?.map fun row => (row.1 : Int) := by
  unfold getIdByCloudId
  refine Triple.bind (Q := fun rows t => t = db ∧ rows = usersByCloudId db cloudId) ?_ ?_
  · apply Triple.query
    intro s hs
    rw [hs]
    exact ⟨rfl, rfl⟩
  · intro rows
    match rows with
    | [] =>
      refine Triple.pure ?_
      intro s ⟨hs, hrows⟩
      rw [← hrows]
      exact ⟨hs, rfl⟩
    | [row] =>
      refine Triple.pure ?_
      intro s ⟨hs, hrows⟩
      rw [← hrows]
      exact ⟨hs, rfl⟩
    | _ :: _ :: _ => exact Triple.fail

theorem triple_lookupOwner (owner : String) :
    Triple (· = db) (lookupOwner owner) fun found t => t = db ∧ found = ownerIn db owner := by
  unfold lookupOwner ownerIn
  split
  · exact triple_getIdByCloudId owner
  · exact Triple.pure fun s hs => ⟨hs, rfl⟩

/-- A request with an owner goes on with the user that the owner names. -/
theorem triple_resolveOwner (hbody : noOwner body = false) : Triple (· = db) (resolveOwner body) fun found t =>
    t = db ∧ ∀ ownerId, found = some ownerId → ∃ id, ownerId = some id ∧ ownerIn db (body.owner.getD "") = some id := by
  unfold resolveOwner
  unfold noOwner at hbody
  cases hown : body.owner with
  | none => simp [hown] at hbody
  | some owner =>
    have hne : owner ≠ "" := by
      intro he
      simp [hown, he] at hbody
    simp only [if_neg hne, Option.getD_some]
    refine Triple.bind (triple_lookupOwner owner) ?_
    intro found
    cases found with
    | none => exact Triple.pure fun s hs => ⟨hs.1, nofun⟩
    | some id =>
      refine Triple.pure ?_
      intro s ⟨hs, hfound⟩
      refine ⟨hs, ?_⟩
      intro ownerId he
      cases he
      exact ⟨id, rfl, hfound.symm⟩

theorem ownerColumn_ok {id : Int} {column : Option Nat} (h : ownerColumn db (some id) = .ok column) :
    ∃ owner : Nat, id = owner ∧ column = some owner ∧ (db.users.get? owner).isSome := by
  simp only [ownerColumn] at h
  split at h
  · rename_i hid
    cases h
    exact ⟨id.toNat, (Int.toNat_of_nonneg hid.1).symm, rfl, hid.2.2⟩
  · cases h

theorem triple_create {ex : Example} {id : Int} (hex : ex.owner = some id) : Triple (· = db) (create ex)
    fun exid t => exid = db.example_utterances.next ∧ ∃ owner : Nat, id = owner ∧ (db.users.get? owner).isSome ∧
      t = insertExample db ⟨ex.like_count, some owner⟩ := by
  apply Triple.statement
  intro s exid t hs hstep
  subst hs
  obtain ⟨column, hcolumn, hstep⟩ := GenieCloud.Lib.Result.bind_ok hstep
  cases hstep
  rw [hex] at hcolumn
  obtain ⟨owner, hid, rfl, huser⟩ := ownerColumn_ok hcolumn
  exact ⟨rfl, owner, hid, huser, rfl⟩

/-- The example of the command store is created without likes; then the user with its id
    likes the example with the owner's. -/
theorem triple_addExample (db : Db) (locale : String) (command : Command) (hstore : body.store = "commandpedia")
    (hbody : noOwner body = false) : Triple (· = db) (addExample locale body command) fun result t =>
      ∀ exid, result = some exid → exid = db.example_utterances.next ∧
        ∃ owner : Nat, ownerIn db (body.owner.getD "") = some (owner : Int) ∧
          (db.users.get? owner).isSome ∧ t = liked (insertExample db ⟨0, some owner⟩) exid owner := by
  unfold addExample
  refine Triple.bind (triple_resolveOwner hbody) ?_
  intro found
  cases found with
  | none => exact Triple.pure fun s _ => nofun
  | some ownerId =>
    cases ownerId with
    | none =>
      -- there is an owner
      intro s _ _ _ _ hs
      obtain ⟨id, he, -⟩ := hs.2 none rfl
      cases he
    | some id =>
      apply Triple.each
      intro s ⟨hs, hfound⟩
      subst hs
      obtain ⟨_, he, hid⟩ := hfound (some id) rfl
      cases he
      refine Triple.bind (triple_create rfl) ?_
      intro exid
      apply Triple.each
      intro s₁ ⟨hexid, owner, he, huser, hs₁⟩
      subst hs₁ he
      simp only [if_pos hstore]
      refine Triple.bind triple_like ?_
      intro _
      refine Triple.pure ?_
      intro t ht _ he
      cases he
      exact ⟨hexid, owner, hid, huser, ht⟩

/-! ## The likes -/

theorem get?_insertExample (row : ExampleRow) (id : Nat) : (insertExample db row).example_utterances.get? id =
    if id = db.example_utterances.next then some row else db.example_utterances.get? id := Table.get?_insert ..

/-- No like is of the next example. -/
theorem next_notMem (h : LikesReferTo db) (userId : Nat) : (db.example_utterances.next, userId) ∉ db.example_likes := by
  intro hmem
  have := h _ hmem
  rw [Table.get?_next] at this
  cases this

theorem likes_liked : ∀ like, like ∈ (liked db userId exampleId).example_likes →
    like = (exampleId, userId) ∨ like ∈ db.example_likes := by
  intro like hlike
  unfold liked at hlike
  split at hlike
  · exact List.mem_cons.mp hlike
  · exact .inr hlike

/-- The example is liked by its owner if the owner has its id, and not otherwise. -/
theorem liked_iff (hrefers : LikesReferTo db) (huser : (db.users.get? owner).isSome) :
    LikesNew db (liked (insertExample db ⟨0, some owner⟩) db.example_utterances.next owner) db.example_utterances.next owner ↔
      owner = db.example_utterances.next := by
  constructor
  · intro h
    have hnew := (h.likes (db.example_utterances.next, owner)).mpr (.inl rfl)
    rcases likes_liked _ hnew with he | hold
    · exact congrArg Prod.snd he
    · exact absurd hold (next_notMem hrefers owner)
  · intro he
    have hcan : canLike (insertExample db ⟨0, some owner⟩) db.example_utterances.next owner = true := by
      have hnot : (owner, owner) ∉ db.example_likes := by
        nth_rewrite 1 [he]
        exact next_notMem hrefers owner
      have hnot : (insertExample db ⟨0, some owner⟩).example_likes.contains (owner, owner) = false := by
        rw [List.contains_eq_mem, decide_eq_false_iff_not]
        exact hnot
      simp only [canLike, get?_insertExample, ← he, if_true, hnot]
      exact Bool.and_true _ ▸ huser
    rw [liked, dif_pos hcan]
    constructor
    · exact Table.get?_next _
    · rw [get?_addLikes]
      show Option.map _ ((insertExample db ⟨0, some owner⟩).example_utterances.get? _) = _
      rw [get?_insertExample, if_pos rfl, Option.map_some, if_pos he.symm]
      rfl
    · intro id hid
      rw [get?_addLikes]
      show Option.map _ (Option.map _ ((insertExample db ⟨0, some owner⟩).example_utterances.get? _)) = _
      rw [get?_insertExample, if_neg hid, Option.map_map]
      refine Option.map_congr ?_
      intro row _
      show ExampleRow.like_count (if id = owner then _ else row) = row.like_count
      rw [if_neg (by rw [he]; exact hid)]
    · intro like
      show like ∈ (owner, db.example_utterances.next) :: db.example_likes ↔ _
      rw [List.mem_cons, ← he]

/-! ## Counts stay right -/

/-- The counts are the likes, and likes are of examples. -/
def Counted (db : Db) : Prop := LikesCounted db ∧ LikesReferTo db

theorem counted_iff_balanced : Counted db ↔ Balanced { db := db, pending := [] } := by
  have hnone (id : Nat) : owed [] id = 0 := rfl
  constructor
  · intro h
    refine ⟨?_, h.2, fun id _ => hnone id⟩
    intro id row hrow
    have hcount : row.like_count = Routes.ExampleLikes.likes db id := h.1 id row hrow
    rw [hcount, hnone]
    rfl
  · intro h
    refine ⟨?_, h.refers⟩
    intro id row hrow
    have hcount : row.like_count + (owed [] id : Int) = Routes.ExampleLikes.likes db id := h.counts id row hrow
    rw [hnone] at hcount
    show row.like_count = (Routes.ExampleLikes.likes db id : Int)
    omega

theorem counted_insertExample (h : Counted db) (owner : Option Nat) : Counted (insertExample db ⟨0, owner⟩) :=
  counted_iff_balanced.mpr (balanced_createMany (counted_iff_balanced.mp h) [owner])

/-- Whichever example it is. -/
theorem counted_liked (h : Counted db) (userId exampleId : Nat) : Counted (liked db userId exampleId) := by
  unfold liked
  split
  · rename_i hcan
    have hlike := balanced_like (counted_iff_balanced.mp h) userId exampleId
    simp only [Routes.ExampleLikes.like, dif_pos hcan] at hlike
    exact counted_iff_balanced.mpr (balanced_count hlike (i := 0) rfl)
  · exact h

theorem counted_create {ex : Example} (hex : ex.like_count = 0) : Triple Counted (create ex) fun _ t => Counted t := by
  apply Triple.statement
  intro s exid t hs hstep
  obtain ⟨column, -, hstep⟩ := GenieCloud.Lib.Result.bind_ok hstep
  cases hstep
  rw [hex]
  exact counted_insertExample hs column

theorem counted_resolveOwner : Triple (· = db) (resolveOwner body) fun _ t => t = db := by
  unfold resolveOwner
  split
  · exact Triple.pure fun s hs => hs
  · refine Triple.ite (fun _ => Triple.pure fun s hs => hs) fun _ => ?_
    refine Triple.bind (triple_lookupOwner _) ?_
    intro found
    cases found with
    | none => exact Triple.pure fun s hs => hs.1
    | some id => exact Triple.pure fun s hs => hs.1

theorem counted_addExample (locale : String) (body : Body) (command : Command) :
    Triple Counted (addExample locale body command) fun _ t => Counted t := by
  unfold addExample
  refine Triple.bind (Q := fun _ t => Counted t) (Triple.each fun s hs => ?_) ?_
  · exact counted_resolveOwner.post fun _ t ht => by rwa [ht]
  · intro found
    cases found with
    | none => exact Triple.pure fun s hs => hs
    | some ownerId =>
      refine Triple.bind (counted_create rfl) ?_
      intro exid
      cases ownerId with
      | none => exact Triple.pure fun s hs => hs
      | some ownerId =>
        by_cases hstore : body.store = "commandpedia"
        · simp only [if_pos hstore]
          refine Triple.bind (Q := fun _ t => Counted t) (Triple.each fun s hs => ?_) fun _ => Triple.pure fun s hs => hs
          exact triple_like.post fun _ t ht => by rw [ht]; exact counted_liked hs _ _
        · simp only [if_neg hstore]
          exact Triple.pure fun s hs => hs

/-! ## The request, from start to end -/

variable {service : Service E P} {modelTag : String} {notify : Nat → Except String Unit} {fates : List Fate} {exid : Nat}

theorem prepare_owner (h : prepare service modelTag locale body = .ok command) (hstore : body.store = "commandpedia") :
    noOwner body = false := by
  obtain ⟨-, h⟩ := Result.throw_else_ok.mp h
  obtain ⟨hown, -⟩ := Result.throw_else_ok.mp h
  rw [not_and, Bool.not_eq_true] at hown
  exact hown hstore

theorem prepare_response {response : Response} (h : prepare service modelTag locale body = .error (.ok response)) :
    ∀ message exid, response ≠ .ok message (some exid) := by
  unfold prepare at h
  repeat' split at h
  all_goals
    cases h
  all_goals simp

/-- A request that is answered with the id of an example has committed its transaction. -/
theorem learn_cases {message : String}
    (h : learn service modelTag locale notify body db fates = (db', .ok (.ok message (some exid)))) :
    ∃ command, prepare service modelTag locale body = .ok command ∧
      transaction (addExample locale body command) db fates = (db', .ok (some exid)) := by
  unfold learn at h
  split at h
  · rename_i hprepare
    cases h
    exact absurd rfl (prepare_response hprepare _ _)
  · cases h
  · rename_i command hprepare
    refine ⟨command, hprepare, ?_⟩
    split at h
    · cases h
    · split at h
      · cases h
      · cases h
      · rename_i htransaction
        split at h
        · cases h
        · cases h
          exact htransaction

/-- A sentence learnt for the command store is liked by its owner, and nothing else is liked,
    if and only if the next id of the examples is the owner's id. -/
theorem learn_iff (hrefers : LikesReferTo db) (hstore : body.store = "commandpedia")
    (h : learn service modelTag locale notify body db fates = (db', .ok (.ok "Learnt successfully" (some exid)))) :
    exid = db.example_utterances.next ∧ ∃ owner : Nat, ownerIn db (body.owner.getD "") = some (owner : Int) ∧
      (LikesNew db db' exid owner ↔ owner = db.example_utterances.next) := by
  obtain ⟨command, hprepare, htransaction⟩ := learn_cases h
  have hbody := prepare_owner hprepare hstore
  rcases transaction_spec (triple_addExample db locale command hstore hbody) fates with
    ⟨-, e, he⟩ | ⟨result, hresult, he | ⟨e, he⟩⟩
  · rw [htransaction] at he
    cases he
  · rw [htransaction] at he hresult
    cases he
    obtain ⟨rfl, owner, howner, huser, rfl⟩ := hresult exid rfl
    exact ⟨rfl, owner, howner, liked_iff hrefers huser⟩
  · rw [htransaction] at he
    cases he

/-- Whatever becomes of a request, every example counts its likes. -/
theorem learn_counted (h : Counted db) : Counted (learn service modelTag locale notify body db fates).1 := by
  unfold learn
  split
  · exact h
  · exact h
  · rename_i command _
    split
    · exact h
    · have hbody : Triple (· = db) (addExample locale body command) fun _ t => Counted t :=
        (counted_addExample locale body command).pre fun s hs => by rwa [hs]
      have hcounted : Counted (transaction (addExample locale body command) db fates).1 := by
        rcases transaction_spec hbody fates with ⟨he, -⟩ | ⟨_, ht, -⟩
        · rwa [he]
        · exact ht
      split
      all_goals
        rename_i htransaction
        rw [htransaction] at hcounted
      · exact hcounted
      · exact hcounted
      · split
        · exact hcounted
        · exact hcounted

/-! ## The ids are different -/

/-- What the packages do does not matter here. -/
def echo : Service Unit Unit where
  getTokenizer _ := some fun q => .ok ⟨[q], ()⟩
  getModel _ _ := some (some none)
  thingtalkVersion := "1.11.0"
  parse _ _ _ _ := .ok ()
  typecheck _ _ _ := .ok ()
  serializePrediction _ _ _ _ _ := .ok ["now"]

def hello (owner : String) : Body where
  q := "hello"
  store := "commandpedia"
  access_token := none
  thingtalk_version := "1.11.0"
  target := "now"
  owner := some owner
  timezone := none

/-- Two users and no examples. -/
def twoUsers : Db := signUp (signUp noRows.db ⟨"0123abcd", none⟩) ⟨"4567cdef", none⟩

theorem twoUsers_refers (owner : Option Nat) : LikesReferTo (insertExample twoUsers ⟨0, owner⟩) :=
  fun _ h => (List.not_mem_nil h).elim

/-- The first user's sentence gets no like; the example that was there gets one, of the
    second user. -/
theorem other_example_liked : ∃ db', learn echo "default" "en-US" (fun _ => .ok ()) (hello "1")
    (insertExample twoUsers ⟨0, none⟩) [] = (db', .ok (.ok "Learnt successfully" (some 2))) ∧
      db'.example_likes = [(1, 2)] ∧ ¬LikesNew (insertExample twoUsers ⟨0, none⟩) db' 2 1 := by
  refine ⟨_, rfl, rfl, ?_⟩
  intro h
  exact absurd ((h.likes (2, 1)).mpr (.inl rfl)) (by decide)

/-- The second user's sentence is the second example. -/
theorem learn_iff_second : ∃ db', learn echo "default" "en-US" (fun _ => .ok ()) (hello "4567cdef")
    (insertExample twoUsers ⟨0, none⟩) [] = (db', .ok (.ok "Learnt successfully" (some 2))) ∧
      LikesNew (insertExample twoUsers ⟨0, none⟩) db' 2 2 := by
  obtain ⟨db', hlearn⟩ : ∃ db', learn echo "default" "en-US" (fun _ => .ok ()) (hello "4567cdef")
      (insertExample twoUsers ⟨0, none⟩) [] = (db', .ok (.ok "Learnt successfully" (some 2))) := ⟨_, rfl⟩
  obtain ⟨-, owner, howner, hiff⟩ := learn_iff (twoUsers_refers none) rfl hlearn
  have hid : ownerIn (insertExample twoUsers ⟨0, none⟩) "4567cdef" = some ((2 : Nat) : Int) := rfl
  obtain rfl : owner = 2 := Int.ofNat.inj (Option.some.inj (howner.symm.trans hid))
  exact ⟨db', hlearn, hiff.mpr rfl⟩

end GenieCloud.Nlp.Learn
