/-
  GenieCloud.Nlp.ModelCache — the prediction cache of the NLP models (`cacheKeyFor`,
  `cacheGet` and `cacheSet` of `nlp/nlp_model.ts`), over one Redis that all the models of
  the server share.

  The key is the JSON of the tokens, the sorted names of the entities, the context code,
  and the options in order of their names, less six of them. It has neither the values of
  the entities nor the model. A result is stored under the key of its own tokens and
  entities; a request that expects a multiple choice is never looked up.

  - `key_eq_iff`: two requests have one key exactly when they are the same query
    (`SameQuery`).
  - `cacheGet_cacheSet`: what is stored for a request answers every request for the same
    query, of any model, for a day.
  - `cacheGet_sound`: in every run, an answer from the cache is a result that was stored
    for the same query. `other_values_are_answered` is a run where it was stored for other
    values of the entities.
-/

import GenieCloud.Lib.Json
import GenieCloud.Lib.Runs
import Mathlib.Data.List.Basic
import Mathlib.Logic.Function.Basic

namespace GenieCloud.Nlp.ModelCache

open GenieCloud.Lib.Json GenieCloud.Lib.Utf16 GenieCloud.Lib.Runs

/-! ## Records -/

/-- An object of the source used as a record: its own keys are distinct. -/
structure Record (V : Type) where
  entries : List (String × V)
  nodup : (entries.map Prod.fst).Nodup

variable {V N : Type} [Numeral N]

namespace Record

/-- `Object.keys`. -/
def keys (r : Record V) : List String := r.entries.map Prod.fst

def get (r : Record V) (key : String) : Option V := r.entries.lookup key

theorem keys_nodup (r : Record V) : r.keys.Nodup := r.nodup

theorem mem_keys_of_get {r : Record V} {key : String} {v : V} (h : r.get key = some v) : key ∈ r.keys := by
  obtain ⟨p, hp, hk⟩ := List.lookup_isSome_iff.1 (Option.isSome_iff_exists.2 ⟨v, h⟩)
  exact List.mem_map.2 ⟨p, hp, (beq_iff_eq.1 hk).symm⟩

end Record

/-! ## Requests and results -/

/-- An option given as `undefined` is `none`. -/
abbrev ParseOptions (N : Type) := Record (Option (Value N))

abbrev EntityMap (N : Type) := Record (Value N)

/-- `record[key]`, `undefined` for an absent key. -/
def lookup (options : ParseOptions N) (key : String) : Option (Value N) := (options.get key).join

/-- The arguments a model is asked with. -/
structure Request (N : Type) where
  tokens : List String
  entities : EntityMap N
  contextCode : Option (List String)
  options : ParseOptions N

/-- A prediction; the cache reads its tokens and entities only. -/
structure PredictionResult (N : Type) where
  tokens : List String
  entities : EntityMap N
  others : List (String × Value N)

def strings (xs : List String) : Value N := .arr (xs.map .str)

def PredictionResult.value (r : PredictionResult N) : Value N :=
  .obj (("tokens", strings r.tokens) :: ("entities", .obj r.entities.entries) :: r.others)

/-! ## The key -/

def orderedPairsFor (record : ParseOptions N) (omitted : List String) : List (String × Value N) :=
  (sort record.keys).filterMap fun key =>
    if omitted.contains key then none else (lookup record key).map fun value => (key, value)

def omitted : List String := ["context", "entities", "tokenized", "expect", "choices", "store"]

/-- An undefined context code is written as `null`. -/
def argsSig (tokens : List String) (entities : EntityMap N) (contextCode : Option (List String))
    (options : ParseOptions N) : Value N :=
  .arr [
    .arr [.str "tokens", strings tokens],
    .arr [.str "entities", strings (sort entities.keys)],
    .arr [.str "contextCode", contextCode.elim .null strings],
    .arr [.str "options", .arr ((orderedPairsFor options omitted).map fun (key, value) => .arr [.str key, value])]]

def cacheKeyFor (tokens : List String) (entities : EntityMap N) (contextCode : Option (List String))
    (options : ParseOptions N) : String :=
  "nlp.query:" ++ stringify (argsSig tokens entities contextCode options)

/-! ## Redis -/

/-- By key, a value and the time it expires. -/
structure Redis where
  now : Nat
  entries : String → Option (String × Nat)

def Redis.GET (r : Redis) (key : String) : Option String :=
  match r.entries key with
  | some (value, expires) => if r.now < expires then some value else none
  | none => none

def Redis.SET (r : Redis) (key value : String) (ex : Nat) : Redis :=
  { r with entries := Function.update r.entries key (some (value, r.now + ex)) }

/-- A key that Redis gives up, short of memory or restarted. -/
def Redis.evict (r : Redis) (key : String) : Redis := { r with entries := Function.update r.entries key none }

/-! ## The cache -/

structure NLPModel where
  id : String
  deriving DecidableEq, Repr

inductive Failure
  | SyntaxError
  deriving DecidableEq, Repr

def expectsMultipleChoice (options : ParseOptions N) : Bool :=
  match lookup options "expect" with
  | some (.str expect) => expect == "MultipleChoice"
  | _ => false

def cacheGet (_this : NLPModel) (redis : Redis) (tokens : List String) (entities : EntityMap N)
    (contextCode : Option (List String)) (options : ParseOptions N) : Except Failure (Option (Value N)) :=
  if expectsMultipleChoice options then .ok none
  else
    match redis.GET (cacheKeyFor tokens entities contextCode options) with
    | none => .ok none
    | some value =>
      match parse value with
      | some result => .ok (some result)
      | none => .error .SyntaxError

/-- Cached for one day. -/
def cacheSet (_this : NLPModel) (redis : Redis) (result : PredictionResult N) (contextCode : Option (List String))
    (options : ParseOptions N) : Redis :=
  redis.SET (cacheKeyFor result.tokens result.entities contextCode options) (stringify result.value) (60 * 60 * 24)

/-! ## Which requests share a key -/

/-- The same tokens, names of entities, context code, and options other than the omitted. -/
structure SameQuery (a b : Request N) : Prop where
  tokens : a.tokens = b.tokens
  entities : ∀ name, name ∈ a.entities.keys ↔ name ∈ b.entities.keys
  contextCode : a.contextCode = b.contextCode
  options : ∀ key, key ∉ omitted → lookup a.options key = lookup b.options key

def Request.key (r : Request N) : String := cacheKeyFor r.tokens r.entities r.contextCode r.options

omit [Numeral N] in
theorem mem_orderedPairsFor {record : ParseOptions N} {om : List String} {key : String} {v : Value N} :
    (key, v) ∈ orderedPairsFor record om ↔ key ∉ om ∧ lookup record key = some v := by
  simp only [orderedPairsFor, List.mem_filterMap, List.contains_iff_mem]
  constructor
  · rintro ⟨k, -, h⟩
    split at h
    · cases h
    · next hk =>
      obtain ⟨w, hw, he⟩ := Option.map_eq_some_iff.1 h
      cases he
      exact ⟨hk, hw⟩
  · rintro ⟨hk, hv⟩
    refine ⟨key, ?_, by rw [if_neg hk, hv, Option.map_some]⟩
    rw [mem_sort]
    exact Record.mem_keys_of_get (Option.join_eq_some_iff.1 hv)

omit [Numeral N] in
theorem fst_of_pair {record : ParseOptions N} {om : List String} {key : String} {p : String × Value N}
    (h : (if om.contains key then none else (lookup record key).map fun value => (key, value)) = some p) :
    p.1 = key := by
  split at h
  · cases h
  · obtain ⟨v, -, rfl⟩ := Option.map_eq_some_iff.1 h
    rfl

omit [Numeral N] in
theorem orderedPairsFor_pairwise (record : ParseOptions N) (om : List String) :
    (orderedPairsFor record om).Pairwise fun p q => le p.1 q.1 := by
  refine List.Pairwise.filterMap _ ?_ (List.pairwise_insertionSort le record.keys)
  intro k k' hle p hp q hq
  rw [fst_of_pair hp, fst_of_pair hq]
  exact hle

omit [Numeral N] in
theorem orderedPairsFor_nodup (record : ParseOptions N) (om : List String) : (orderedPairsFor record om).Nodup := by
  refine List.Nodup.filterMap ?_ ((sort_perm record.keys).nodup_iff.2 record.keys_nodup)
  intro k k' p hp hp'
  exact (fst_of_pair hp).symm.trans (fst_of_pair hp')

omit [Numeral N] in
/-- The pairs say what the options that are not omitted are, and no more. -/
theorem orderedPairsFor_eq_iff {r r' : ParseOptions N} {om : List String} :
    orderedPairsFor r om = orderedPairsFor r' om ↔ ∀ key, key ∉ om → lookup r key = lookup r' key := by
  constructor
  · intro h key hk
    refine Option.ext fun v => ?_
    have hmem : (key, v) ∈ orderedPairsFor r om ↔ key ∉ om ∧ lookup r key = some v := mem_orderedPairsFor
    rw [h, mem_orderedPairsFor] at hmem
    simpa only [hk, not_false_eq_true, true_and] using hmem.symm
  · intro h
    have hmem : ∀ p, p ∈ orderedPairsFor r om ↔ p ∈ orderedPairsFor r' om := by
      rintro ⟨key, v⟩
      rw [mem_orderedPairsFor, mem_orderedPairsFor]
      exact and_congr_right fun hk => by rw [h key hk]
    have hp := (List.perm_ext_iff_of_nodup (orderedPairsFor_nodup r om) (orderedPairsFor_nodup r' om)).2 hmem
    refine hp.eq_of_pairwise ?_ (orderedPairsFor_pairwise r om) (orderedPairsFor_pairwise r' om)
    rintro ⟨key, v⟩ ⟨key', v'⟩ hv hv' hle hle'
    obtain rfl : key = key' := Std.Antisymm.antisymm _ _ hle hle'
    obtain ⟨hk, hv⟩ := mem_orderedPairsFor.1 hv
    obtain ⟨-, hv'⟩ := mem_orderedPairsFor.1 hv'
    rw [h key hk, hv'] at hv
    cases hv
    rfl

omit [Numeral N] in
theorem strings_inj {xs ys : List String} : (strings xs : Value N) = strings ys ↔ xs = ys := by
  simp only [strings, Value.arr.injEq]
  exact (List.map_injective_iff.2 fun _ _ h => Value.str.inj h).eq_iff

omit [Numeral N] in
theorem contextCode_inj {c d : Option (List String)} :
    (c.elim .null strings : Value N) = d.elim .null strings ↔ c = d := by
  cases c with
  | none => cases d <;> simp only [Option.elim_none, Option.elim_some, strings, reduceCtorEq]
  | some c =>
    cases d with
    | none => simp only [Option.elim_none, Option.elim_some, strings, reduceCtorEq]
    | some d => simp only [Option.elim_some, strings_inj, Option.some.injEq]

omit [Numeral N] in
theorem pairs_inj {ps qs : List (String × Value N)} :
    (ps.map fun (key, value) => Value.arr [.str key, value]) =
      (qs.map fun (key, value) => Value.arr [.str key, value]) ↔ ps = qs := by
  refine (List.map_injective_iff.2 ?_).eq_iff
  rintro ⟨key, v⟩ ⟨key', v'⟩ h
  simp only [Value.arr.injEq, List.cons.injEq, Value.str.injEq, and_true] at h
  rw [h.1, h.2]

omit [Numeral N] in
theorem argsSig_eq_iff {a b : Request N} :
    argsSig a.tokens a.entities a.contextCode a.options = argsSig b.tokens b.entities b.contextCode b.options ↔
      SameQuery a b := by
  simp only [argsSig, Value.arr.injEq, List.cons.injEq, true_and, and_true, strings_inj, contextCode_inj, pairs_inj,
    sort_eq_sort_iff a.entities.keys_nodup b.entities.keys_nodup, orderedPairsFor_eq_iff]
  exact ⟨fun ⟨ht, he, hc, ho⟩ => ⟨ht, he, hc, ho⟩, fun ⟨ht, he, hc, ho⟩ => ⟨ht, he, hc, ho⟩⟩

/-- Two requests have one key exactly when they are the same query. -/
theorem key_eq_iff {a b : Request N} : a.key = b.key ↔ SameQuery a b := by
  rw [← argsSig_eq_iff, Request.key, Request.key, cacheKeyFor, cacheKeyFor, String.append_right_inj]
  exact ⟨stringify_injective, congrArg stringify⟩

/-! ## What a lookup answers -/

theorem GET_eq_some {r : Redis} {key value : String} :
    r.GET key = some value ↔ ∃ expires, r.entries key = some (value, expires) ∧ r.now < expires := by
  simp only [Redis.GET]
  cases r.entries key with
  | none => simp only [reduceCtorEq, false_and, exists_false]
  | some e =>
    obtain ⟨text, expires⟩ := e
    simp only [Option.some.injEq, Prod.mk.injEq]
    constructor
    · intro h
      split at h
      · next hlt => cases h; exact ⟨expires, ⟨rfl, rfl⟩, hlt⟩
      · cases h
    · rintro ⟨_, ⟨rfl, rfl⟩, hlt⟩
      exact if_pos hlt

theorem GET_SET (r : Redis) (key value : String) {ex : Nat} (h : 0 < ex) :
    (r.SET key value ex).GET key = some value :=
  GET_eq_some.2 ⟨r.now + ex, Function.update_self .., Nat.lt_add_of_pos_right h⟩

theorem cacheGet_eq_some {model : NLPModel} {redis : Redis} {request : Request N} {v : Value N} :
    cacheGet model redis request.tokens request.entities request.contextCode request.options = .ok (some v) ↔
      expectsMultipleChoice request.options = false ∧
        ∃ value, redis.GET request.key = some value ∧ parse value = some v := by
  simp only [cacheGet, Request.key]
  cases expectsMultipleChoice request.options with
  | true => simp only [if_true, Except.ok.injEq, reduceCtorEq, false_and]
  | false =>
    simp only [Bool.false_eq_true, if_false, true_and]
    cases redis.GET (cacheKeyFor request.tokens request.entities request.contextCode request.options) with
    | none => simp only [Except.ok.injEq, reduceCtorEq, false_and, exists_false]
    | some value => cases hp : parse (N := N) value <;> simp [hp]

/-- A result that is stored: by which model, and for which request. -/
structure Stored (N : Type) where
  model : NLPModel
  request : Request N
  result : PredictionResult N

/-- What one model stores for a request answers any model asked the same query. -/
theorem cacheGet_cacheSet (redis : Redis) {x : Stored N} (ht : x.result.tokens = x.request.tokens)
    (he : x.result.entities = x.request.entities) (model : NLPModel) {request : Request N}
    (hq : SameQuery x.request request) (hexp : expectsMultipleChoice request.options = false) :
    cacheGet model (cacheSet x.model redis x.result x.request.contextCode x.request.options) request.tokens
      request.entities request.contextCode request.options = .ok (some x.result.value) := by
  refine cacheGet_eq_some.2 ⟨hexp, stringify x.result.value, ?_, parse_stringify x.result.value⟩
  rw [← key_eq_iff.2 hq, cacheSet, ht, he]
  exact GET_SET redis x.request.key _ (by decide)

/-! ## Runs of the models of a server -/

structure St (N : Type) where
  redis : Redis
  log : List (Stored N)

def init : St N := ⟨⟨0, fun _ => none⟩, []⟩

inductive Event (N : Type)
  | wait (seconds : Nat)
  | evict (key : String)
  | set (x : Stored N)

def step (s : St N) : Event N → Option (St N)
  | .wait seconds => some { s with redis := { s.redis with now := s.redis.now + seconds } }
  | .evict key => some { s with redis := s.redis.evict key }
  | .set x => some ⟨cacheSet x.model s.redis x.result x.request.contextCode x.request.options, s.log ++ [x]⟩

def cache : System (St N) (Event N) where
  init s := s = init
  step := step

/-- The parser client stores the result it computed for the request it answers. -/
def Answers (_ : St N) : Event N → Prop
  | .set x => x.result.tokens = x.request.tokens ∧ x.result.entities = x.request.entities
  | _ => True

/-- Every value in Redis is a stored result, under the key of its request. -/
def Inv (s : St N) : Prop :=
  ∀ key value expires, s.redis.entries key = some (value, expires) →
    ∃ x ∈ s.log, key = x.request.key ∧ value = stringify x.result.value

theorem inv_step {s t : St N} {e : Event N} (h : Inv s) (he : Answers s e) (hs : step s e = some t) : Inv t := by
  cases e with
  | wait seconds => cases hs; exact h
  | evict key =>
    cases hs
    intro k value expires hk
    simp only [Redis.evict] at hk
    by_cases hkey : k = key
    · subst hkey; rw [Function.update_self] at hk; cases hk
    · rw [Function.update_of_ne hkey] at hk; exact h k value expires hk
  | set x =>
    cases hs
    obtain ⟨ht, hent⟩ := he
    intro k value expires hk
    simp only [cacheSet, Redis.SET, ht, hent] at hk
    by_cases hkey : k = x.request.key
    · subst hkey
      rw [Request.key, Function.update_self] at hk
      cases hk
      exact ⟨x, List.mem_append_right _ (List.mem_singleton_self x), rfl, rfl⟩
    · rw [Function.update_of_ne (by exact hkey)] at hk
      obtain ⟨y, hy, hk, hv⟩ := h k value expires hk
      exact ⟨y, List.mem_append_left _ hy, hk, hv⟩

theorem reach_inv {s : St N} (h : Reach cache Answers s) : Inv s :=
  h.inv (fun s hs => by cases hs; exact nofun) fun _ _ _ hi he hs => inv_step hi he hs

/-- An answer from the cache is a result that was stored for the same query, and a request
that expects a multiple choice has none. -/
theorem cacheGet_sound {s : St N} (h : Reach cache Answers s) {model : NLPModel} {request : Request N} {v : Value N}
    (hv : cacheGet model s.redis request.tokens request.entities request.contextCode request.options =
      .ok (some v)) :
    expectsMultipleChoice request.options = false ∧
      ∃ x ∈ s.log, v = x.result.value ∧ SameQuery x.request request := by
  obtain ⟨hexp, value, hget, hparse⟩ := cacheGet_eq_some.1 hv
  obtain ⟨expires, hentry, -⟩ := GET_eq_some.1 hget
  obtain ⟨x, hx, hkey, rfl⟩ := reach_inv h _ _ _ hentry
  rw [parse_stringify] at hparse
  exact ⟨hexp, x, hx, (Option.some.inj hparse).symm, key_eq_iff.1 hkey.symm⟩

/-- What is in Redis is read back: no lookup fails. -/
theorem cacheGet_ok {s : St N} (h : Reach cache Answers s) (model : NLPModel) (request : Request N) :
    ∃ r, cacheGet model s.redis request.tokens request.entities request.contextCode request.options = .ok r := by
  simp only [cacheGet]
  split
  · exact ⟨none, rfl⟩
  split
  · exact ⟨none, rfl⟩
  · next value hget =>
    obtain ⟨expires, hentry, -⟩ := GET_eq_some.1 hget
    obtain ⟨x, -, -, rfl⟩ := reach_inv h _ _ _ hentry
    exact ⟨some x.result.value, by rw [parse_stringify]⟩

/-! ## Two utterances with one key -/

def tweet (text : String) : Request Int where
  tokens := ["tweet", "QUOTED_STRING_0"]
  entities := ⟨[("QUOTED_STRING_0", .str text)], List.nodup_singleton _⟩
  contextCode := none
  options := ⟨[], List.nodup_nil⟩

def tweeted (text : String) : Stored Int where
  model := ⟨"@org.thingpedia.models.default/en-US"⟩
  request := tweet text
  result := ⟨(tweet text).tokens, (tweet text).entities, [("result", .str "ok")]⟩

theorem tweet_sameQuery (text text' : String) : SameQuery (tweet text) (tweet text') where
  tokens := rfl
  entities _ := Iff.rfl
  contextCode := rfl
  options _ _ := rfl

/-- The state after the prediction for a text is stored. -/
def afterTweet (text : String) : St Int :=
  ⟨cacheSet (tweeted text).model ⟨0, fun _ => none⟩ (tweeted text).result none (tweet text).options, [tweeted text]⟩

theorem reach_afterTweet (text : String) : Reach cache Answers (afterTweet text) :=
  (Reach.init (S := cache) (s := init) rfl).step (.set (tweeted text)) ⟨rfl, rfl⟩ rfl

theorem afterTweet_answers (text text' : String) (model : NLPModel) :
    cacheGet model (afterTweet text).redis (tweet text').tokens (tweet text').entities (tweet text').contextCode
      (tweet text').options = .ok (some (tweeted text).result.value) :=
  cacheGet_cacheSet ⟨0, fun _ => none⟩ (x := tweeted text) rfl rfl model (tweet_sameQuery text text') rfl

/-- The prediction for one text is answered for another, with the first text in it. -/
theorem other_values_are_answered :
    ∃ s : St Int, Reach cache Answers s ∧ ∃ (model : NLPModel) (request : Request Int) (v : Value Int),
      cacheGet model s.redis request.tokens request.entities request.contextCode request.options = .ok (some v) ∧
      ∀ x ∈ s.log, x.request.entities.get "QUOTED_STRING_0" ≠ request.entities.get "QUOTED_STRING_0" := by
  refine ⟨afterTweet "hello", reach_afterTweet "hello", (tweeted "hello").model, tweet "goodbye", _,
    afterTweet_answers "hello" "goodbye" _, ?_⟩
  intro x hx
  rw [List.mem_singleton.1 hx]
  intro h
  exact absurd (Value.str.inj (Option.some.inj h)) (by decide)

theorem same_tweet_is_answered :
    ∃ s : St Int, Reach cache Answers s ∧ ∃ x ∈ s.log, SameQuery x.request (tweet "hello") := by
  obtain ⟨-, x, hx, -, hq⟩ := cacheGet_sound (reach_afterTweet "hello")
    (afterTweet_answers "hello" "hello" (tweeted "hello").model)
  exact ⟨_, reach_afterTweet "hello", x, hx, hq⟩

end GenieCloud.Nlp.ModelCache
