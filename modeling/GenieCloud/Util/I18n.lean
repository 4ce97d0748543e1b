/-
  GenieCloud.Util.I18n — the language packs of the enabled locales (`init` and `get` of
  `util/i18n.ts`).

  `init` registers each locale under its own name and under the name of its language, in the
  order of the list, so that of a language and a locale of it the later one has both names.
  `get` takes parts off a requested locale until what is left is the name of a pack, and
  otherwise answers with the pack of `en-US`. The packs are in a plain object, in which some
  names that were never registered are there as well.

  `get_iff`: for any list and any request, the answer is right (`Right`) exactly if a requested
  locale that is enabled comes after the locales it is the language of, and, unless the language
  of the request is that of an enabled locale, `en-US` is enabled and every object inherits no
  such name.

  A pack stands for everything that is made of its locale.
-/

import GenieCloud.Lib.Record
import GenieCloud.Lib.SplitOn
import GenieCloud.Util.Utterance

namespace GenieCloud.Util.I18n

open GenieCloud.Lib GenieCloud.Lib.SplitOn
open Utterance (objectPrototype)

/-! ## The registration -/

def ALLOWED_LANGUAGES : List String := ["en", "en-US", "en-GB", "it", "it-IT", "zh", "zh-CN", "zh-TW", "es", "es-ES"]

/-- `locale.split('-')` -/
def localeParts (locale : String) : List (List Char) := locale.toList.splitOn '-'

/-- `parts.join('-')` -/
def join (parts : List (List Char)) : String := String.ofList (['-'].intercalate parts)

/-- The keys of a locale, itself first. -/
def keysOf (locale : String) : List String :=
  let split := localeParts locale
  (List.range split.length).map fun n => join (split.take (split.length - n))

/-- The locale of the pack at each key. -/
abbrev Languages := Record String

def register (languages : Languages) (locale : String) : Languages :=
  (keysOf locale).foldl (fun languages key => languages.set key locale) languages

/-- The body of the loop over the locales. -/
def initLocale (languages : Languages) (locale : String) : Except String Languages :=
  if ALLOWED_LANGUAGES.contains locale || objectPrototype.contains locale then .ok (register languages locale)
  else .error s!"Configuration error: locale {locale} is enabled but is not supported"

def init (langs : List String) : Except String Languages :=
  if langs.isEmpty then .error "Configuration error: must enable at least one language"
  else langs.foldlM initLocale Record.empty

/-! ## The lookup -/

/-- What an object has at a key: a pack, or a member that it inherits. -/
inductive Found where
  | pack (locale : String)
  | member (name : String)
  deriving DecidableEq, Repr

def property (languages : Languages) (key : String) : Option Found :=
  match languages.get? key with
  | some locale => some (.pack locale)
  | none => if objectPrototype.contains key then some (.member key) else none

/-- `/[-_@.,]/` -/
def separator (c : Char) : Bool := c == '-' || c == '_' || c == '@' || c == '.' || c == ','

def requestParts (locale : String) : List (List Char) := locale.toList.splitOnP separator

/-- The loop: from so many parts on down. -/
def findFrom (languages : Languages) (parts : List (List Char)) : Nat → Option Found
  | 0 => property languages (join [])
  | n + 1 =>
    match property languages (join (parts.take (n + 1))) with
    | some lang => some lang
    | none => findFrom languages parts n

def get (languages : Languages) (locale : String) (fallback : Bool) : Option Found :=
  let parts := requestParts locale
  match findFrom languages parts parts.length with
  | some lang => some lang
  | none => if fallback then property languages "en-US" else none

/-! ## What is wanted -/

/-- Some enabled locale begins with these parts. -/
def Registered (langs : List String) (parts : List (List Char)) : Prop := ∃ locale ∈ langs, parts <+: localeParts locale

/-- The longest beginning of a request that is registered. -/
structure Longest (langs : List String) (request parts : List (List Char)) : Prop where
  begins : parts <+: request
  nonempty : parts ≠ []
  registered : Registered langs parts
  longest : ∀ parts', parts' <+: request → Registered langs parts' → parts'.length ≤ parts.length

structure Right (langs : List String) (locale : String) (answer : Option Found) : Prop where
  enabled : locale ∈ langs → answer = some (.pack locale)
  longest : ∀ parts, Longest langs (requestParts locale) parts →
    ∃ registered ∈ langs, parts <+: localeParts registered ∧ answer = some (.pack registered)
  fallback : (∀ parts, ¬Longest langs (requestParts locale) parts) → ∃ enabled ∈ langs, answer = some (.pack enabled)

theorem Right.isPack {langs : List String} {locale : String} {answer : Option Found} (h : Right langs locale answer) :
    ∃ enabled ∈ langs, answer = some (.pack enabled) := by
  by_cases hlongest : ∃ parts, Longest langs (requestParts locale) parts
  · obtain ⟨parts, hparts⟩ := hlongest
    obtain ⟨registered, hregistered, -, hanswer⟩ := h.longest parts hparts
    exact ⟨registered, hregistered, hanswer⟩
  · exact h.fallback fun parts hparts => hlongest ⟨parts, hparts⟩

/-- The language of a request or a locale. -/
def language (locale : String) : List Char := (requestParts locale).headD []

structure Fine (langs : List String) (locale : String) : Prop where
  enabled : locale ∈ langs → ∃ before after, langs = before ++ locale :: after ∧
    ∀ later ∈ after, ¬localeParts locale <+: localeParts later
  fallback : (∃ enabled ∈ langs, language enabled = language locale) ∨
    ("en-US" ∈ langs ∧ String.ofList (language locale) ∉ objectPrototype)

/-! ## Parts and keys -/

/-- Parts of a locale or a request. -/
def Plain (parts : List (List Char)) : Prop := ∀ part ∈ parts, '-' ∉ part

theorem plain_localeParts (locale : String) : Plain (localeParts locale) := fun _ h => notMem_of_mem_splitOn h

theorem plain_requestParts (locale : String) : Plain (requestParts locale) := by
  intro part h hmem
  exact Bool.noConfusion ((not_of_mem_splitOnP h '-' hmem).symm.trans rfl)

theorem Plain.begins {p parts : List (List Char)} (h : Plain parts) (hp : p <+: parts) : Plain p :=
  fun part hpart => h part (hp.subset hpart)

theorem join_inj {p q : List (List Char)} (hp : Plain p) (hq : Plain q) (hp0 : p ≠ []) (hq0 : q ≠ []) (h : join p = join q) :
    p = q := by
  rw [← List.splitOn_intercalate '-' hp hp0, ← List.splitOn_intercalate '-' hq hq0, String.ofList_injective h]

theorem join_singleton (part : List Char) : join [part] = String.ofList part := by
  rw [join, List.intercalate_singleton]

theorem mem_keysOf {locale : String} {key : String} :
    key ∈ keysOf locale ↔ ∃ parts, parts ≠ [] ∧ parts <+: localeParts locale ∧ key = join parts := by
  simp only [keysOf, List.mem_map, List.mem_range]
  constructor
  · intro h
    obtain ⟨n, hn, rfl⟩ := h
    refine ⟨_, ?_, List.take_prefix _ _, rfl⟩
    intro h
    rcases List.take_eq_nil_iff.mp h with h | h
    · omega
    · rw [h] at hn
      exact Nat.not_lt_zero _ hn
  · intro h
    obtain ⟨parts, hparts, hbegins, rfl⟩ := h
    have hlen := hbegins.length_le
    have hpos := List.length_pos_iff.mpr hparts
    refine ⟨(localeParts locale).length - parts.length, by omega, ?_⟩
    rw [Nat.sub_sub_self hlen, ← List.prefix_iff_eq_take.mp hbegins]

theorem join_mem_keysOf {parts : List (List Char)} (h : Plain parts) (h0 : parts ≠ []) {locale : String} :
    join parts ∈ keysOf locale ↔ parts <+: localeParts locale := by
  rw [mem_keysOf]
  constructor
  · intro hkey
    obtain ⟨parts', h0', hbegins, heq⟩ := hkey
    exact join_inj h ((plain_localeParts locale).begins hbegins) h0 h0' heq ▸ hbegins
  · intro hbegins
    exact ⟨parts, h0, hbegins, rfl⟩

theorem requestParts_ne_nil (locale : String) : requestParts locale ≠ [] := List.splitOnP_ne_nil _ _

/-- The beginnings of a request are its first parts. -/
theorem take_one_requestParts (locale : String) : (requestParts locale).take 1 = [language locale] := by
  unfold language
  obtain ⟨part, parts, h⟩ := List.exists_cons_of_ne_nil (requestParts_ne_nil locale)
  rw [h, List.take_one, List.head?_cons, List.headD_cons]
  rfl

/-! ## The allowed locales -/

theorem allowed_locales : ∀ locale ∈ ALLOWED_LANGUAGES, requestParts locale = localeParts locale ∧ "" ∉ keysOf locale ∧
    (∀ key ∈ keysOf locale, key ∉ objectPrototype) ∧ ("en-US" ∈ keysOf locale → locale = "en-US") := by decide

theorem objectPrototype_names : ∀ name ∈ objectPrototype, '-' ∉ name.toList ∧ name ≠ "" := by decide

theorem length_of_join_mem {parts : List (List Char)} (h : join parts ∈ objectPrototype) : parts.length = 1 := by
  obtain ⟨hdash, hempty⟩ := objectPrototype_names _ h
  rw [join, String.toList_ofList] at hdash
  match parts, hdash, hempty with
  | [], _, hempty => exact absurd rfl hempty
  | [_], _, _ => rfl
  | part :: part' :: parts, hdash, _ =>
    rw [List.intercalate_cons_cons] at hdash
    exact absurd (List.mem_append_left _ (List.mem_append_right _ (List.mem_singleton.mpr rfl))) hdash

/-! ## The packs -/

section Packs

variable {langs : List String} {languages : Languages}

theorem get?_register (languages : Languages) (locale key : String) :
    (register languages locale).get? key = if key ∈ keysOf locale then some locale else languages.get? key := by
  unfold register
  generalize keysOf locale = keys
  induction keys generalizing languages with
  | nil => rfl
  | cons k keys ih =>
    rw [List.foldl_cons, ih, Record.get?_set]
    by_cases hkeys : key ∈ keys
    · rw [if_pos hkeys, if_pos (List.mem_cons_of_mem _ hkeys)]
    · rw [if_neg hkeys]
      by_cases hk : k = key
      · rw [if_pos hk, if_pos (hk ▸ List.mem_cons_self ..)]
      · rw [if_neg hk, if_neg fun h => (List.mem_cons.mp h).elim (fun h => hk h.symm) hkeys]

/-- The last locale of the list that has the key. -/
def lastWith (langs : List String) (key : String) : Option String :=
  langs.reverse.find? fun locale => (keysOf locale).contains key

theorem get?_foldl_register (langs : List String) (languages : Languages) (key : String) :
    (langs.foldl register languages).get? key = (lastWith langs key).or (languages.get? key) := by
  unfold lastWith
  induction langs generalizing languages with
  | nil => rfl
  | cons locale langs ih =>
    rw [List.foldl_cons, ih, List.reverse_cons, List.find?_append, Option.or_assoc, get?_register, List.find?_singleton,
      List.contains_eq_mem]
    by_cases hkey : key ∈ keysOf locale
    · rw [if_pos hkey, decide_eq_true hkey]
      rfl
    · rw [if_neg hkey, decide_eq_false hkey]
      rfl

theorem init_eq (hne : langs ≠ []) (hall : ∀ locale ∈ langs, locale ∈ ALLOWED_LANGUAGES) :
    init langs = .ok (langs.foldl register Record.empty) := by
  rw [init, if_neg fun h => hne (List.isEmpty_iff.mp h)]
  clear hne
  generalize (Record.empty : Languages) = languages
  induction langs generalizing languages with
  | nil => rfl
  | cons locale langs ih =>
    obtain ⟨hlocale, hlangs⟩ := List.forall_mem_cons.mp hall
    rw [List.foldlM_cons, initLocale, List.contains_iff_mem.mpr hlocale]
    exact ih hlangs _

theorem lastWith_eq_some {key locale : String} : lastWith langs key = some locale ↔
    key ∈ keysOf locale ∧ ∃ before after, langs = before ++ locale :: after ∧ ∀ later ∈ after, key ∉ keysOf later := by
  rw [lastWith, List.find?_eq_some_iff_append, List.contains_iff_mem]
  refine and_congr_right fun _ => ?_
  constructor
  · intro h
    obtain ⟨after, before, hlangs, hafter⟩ := h
    refine ⟨before.reverse, after.reverse, ?_, fun later hlater hkey => ?_⟩
    · rw [← List.reverse_reverse langs, hlangs, List.reverse_append, List.reverse_cons, List.append_assoc]
      rfl
    · have := hafter later (List.mem_reverse.mp hlater)
      rw [List.contains_iff_mem.mpr hkey] at this
      cases this
  · intro h
    obtain ⟨before, after, rfl, hafter⟩ := h
    refine ⟨after.reverse, before.reverse, ?_, fun later hlater => ?_⟩
    · rw [List.reverse_append, List.reverse_cons, List.append_assoc]
      rfl
    · rw [Bool.not_eq_true', Bool.eq_false_iff]
      exact fun hkey => hafter later (List.mem_reverse.mp hlater) (List.contains_iff_mem.mp hkey)

theorem mem_of_lastWith {key locale : String} (h : lastWith langs key = some locale) :
    locale ∈ langs ∧ key ∈ keysOf locale := by
  obtain ⟨hkey, before, after, hlangs, -⟩ := lastWith_eq_some.mp h
  exact ⟨hlangs ▸ List.mem_append_right _ (List.mem_cons_self ..), hkey⟩

/-- Of a locale's own name: no later locale has that name among its keys. -/
theorem lastWith_self {locale : String} : lastWith langs (join (localeParts locale)) = some locale ↔
    ∃ before after, langs = before ++ locale :: after ∧ ∀ later ∈ after, ¬localeParts locale <+: localeParts later := by
  have hkey : ∀ {later}, join (localeParts locale) ∈ keysOf later ↔ localeParts locale <+: localeParts later :=
    join_mem_keysOf (plain_localeParts locale) (List.splitOn_ne_nil _ _)
  simp only [lastWith_eq_some, hkey, List.prefix_refl, true_and]

theorem lastWith_eq_none {key : String} : lastWith langs key = none ↔ ∀ locale ∈ langs, key ∉ keysOf locale := by
  rw [lastWith, List.find?_eq_none]
  simp only [List.mem_reverse, List.contains_iff_mem]

/-- The packs of the enabled locales. -/
def packs (langs : List String) : Languages := langs.foldl register Record.empty

theorem property_packs (langs : List String) (key : String) : property (packs langs) key =
    match lastWith langs key with
    | some locale => some (.pack locale)
    | none => if objectPrototype.contains key then some (.member key) else none := by
  rw [property, packs, get?_foldl_register, show (Record.empty : Languages).get? key = none from rfl, Option.or_none]

theorem property_eq_pack {key locale : String} :
    property (packs langs) key = some (.pack locale) ↔ lastWith langs key = some locale := by
  rw [property_packs]
  cases lastWith langs key with
  | some locale' => simp
  | none => by_cases h : key ∈ objectPrototype <;> simp [h]

theorem property_eq_member {key name : String} (h : property (packs langs) key = some (.member name)) :
    (∀ locale ∈ langs, key ∉ keysOf locale) ∧ key ∈ objectPrototype := by
  rw [property_packs] at h
  cases hlast : lastWith langs key with
  | some locale => rw [hlast] at h; cases h
  | none =>
    rw [hlast] at h
    by_cases hkey : objectPrototype.contains key = true
    · exact ⟨lastWith_eq_none.mp hlast, List.contains_iff_mem.mp hkey⟩
    · rw [if_neg hkey] at h
      cases h

theorem property_eq_none {key : String} :
    property (packs langs) key = none ↔ (∀ locale ∈ langs, key ∉ keysOf locale) ∧ key ∉ objectPrototype := by
  rw [← lastWith_eq_none, property_packs]
  cases lastWith langs key with
  | some locale => simp
  | none => by_cases h : key ∈ objectPrototype <;> simp [h]

theorem property_empty (hall : ∀ locale ∈ langs, locale ∈ ALLOWED_LANGUAGES) : property (packs langs) "" = none :=
  property_eq_none.mpr
    ⟨fun locale h => (allowed_locales locale (hall locale h)).2.1, fun h => (objectPrototype_names _ h).2 rfl⟩

theorem property_en_US (hall : ∀ locale ∈ langs, locale ∈ ALLOWED_LANGUAGES) : property (packs langs) "en-US" =
    if "en-US" ∈ langs then some (.pack "en-US") else none := by
  have honly : ∀ locale ∈ langs, "en-US" ∈ keysOf locale → locale = "en-US" :=
    fun locale h => (allowed_locales locale (hall locale h)).2.2.2
  split
  · next h =>
    rw [property_eq_pack]
    cases hlast : lastWith langs "en-US" with
    | none => exact absurd (by decide) (lastWith_eq_none.mp hlast "en-US" h)
    | some locale =>
      obtain ⟨hlocale, hkey⟩ := mem_of_lastWith hlast
      rw [honly locale hlocale hkey]
  · next h => exact property_eq_none.mpr ⟨fun locale hlocale hkey => h (honly locale hlocale hkey ▸ hlocale), by decide⟩

/-! ## The lookup -/

/-- What the loop finds is at the longest beginning at which there is anything. -/
theorem findFrom_spec (languages : Languages) (parts : List (List Char)) (n : Nat) :
    (∃ m found, 0 < m ∧ m ≤ n ∧ findFrom languages parts n = some found ∧
      property languages (join (parts.take m)) = some found ∧
      ∀ m', m < m' → m' ≤ n → property languages (join (parts.take m')) = none) ∨
    (findFrom languages parts n = property languages "" ∧
      ∀ m, 0 < m → m ≤ n → property languages (join (parts.take m)) = none) := by
  induction n with
  | zero => exact .inr ⟨rfl, fun m h1 h2 => absurd (Nat.lt_of_lt_of_le h1 h2) (Nat.lt_irrefl 0)⟩
  | succ n ih =>
    unfold findFrom
    cases hproperty : property languages (join (parts.take (n + 1))) with
    | some found =>
      exact .inl ⟨n + 1, found, Nat.succ_pos n, Nat.le_refl _, rfl, hproperty, fun m' h1 h2 => by omega⟩
    | none =>
      rcases ih with ⟨m, found, h0, hm, hfind, hfound, hlonger⟩ | ⟨hfind, hnone⟩
      · refine .inl ⟨m, found, h0, Nat.le_succ_of_le hm, hfind, hfound, fun m' h1 h2 => ?_⟩
        rcases Nat.le_or_eq_of_le_succ h2 with h2 | rfl
        · exact hlonger m' h1 h2
        · exact hproperty
      · refine .inr ⟨hfind, fun m h1 h2 => ?_⟩
        rcases Nat.le_or_eq_of_le_succ h2 with h2 | rfl
        · exact hnone m h1 h2
        · exact hproperty

/-- Nothing is registered at a beginning at which nothing is found. -/
theorem not_registered {parts : List (List Char)} (hplain : Plain parts) (h0 : parts ≠ [])
    (h : ∀ locale ∈ langs, join parts ∉ keysOf locale) : ¬Registered langs parts := by
  intro hregistered
  obtain ⟨locale, hlocale, hbegins⟩ := hregistered
  exact h locale hlocale ((join_mem_keysOf hplain h0).mpr hbegins)

/-- No beginning of these lengths is registered. -/
theorem length_le_of_registered {locale : String} {m : Nat} {parts : List (List Char)}
    (h : ∀ m', m < m' → m' ≤ (requestParts locale).length →
      ∀ enabled ∈ langs, join ((requestParts locale).take m') ∉ keysOf enabled)
    (hbegins : parts <+: requestParts locale) (hregistered : Registered langs parts) : parts.length ≤ m := by
  apply Nat.le_of_not_lt
  intro hlt
  have hparts : parts ≠ [] := fun h0 => by rw [h0] at hlt; exact Nat.not_lt_zero _ hlt
  refine not_registered ((plain_requestParts locale).begins hbegins) hparts (fun enabled henabled => ?_) hregistered
  rw [List.prefix_iff_eq_take.mp hbegins]
  exact h parts.length hlt hbegins.length_le enabled henabled

theorem get_cases (hall : ∀ locale ∈ langs, locale ∈ ALLOWED_LANGUAGES) (locale : String) :
    (∃ parts found, Longest langs (requestParts locale) parts ∧ lastWith langs (join parts) = some found ∧
      get (packs langs) locale true = some (.pack found)) ∨
    ((∀ parts, parts <+: requestParts locale → parts ≠ [] → ¬Registered langs parts) ∧
      ((String.ofList (language locale) ∈ objectPrototype ∧ ∃ name, get (packs langs) locale true = some (.member name)) ∨
       (String.ofList (language locale) ∉ objectPrototype ∧
        get (packs langs) locale true = if "en-US" ∈ langs then some (.pack "en-US") else none))) := by
  have hplain : ∀ m, Plain ((requestParts locale).take m) :=
    fun m => (plain_requestParts locale).begins (List.take_prefix _ _)
  have hne := List.length_pos_iff.mpr (requestParts_ne_nil locale)
  unfold get
  rcases findFrom_spec (packs langs) (requestParts locale) (requestParts locale).length with
    ⟨m, found, h0, hm, hfind, hfound, hlonger⟩ | ⟨hfind, hnone⟩
  · have hlength : ((requestParts locale).take m).length = m := List.length_take_of_le hm
    have htake : (requestParts locale).take m ≠ [] := List.length_pos_iff.mp (by rw [hlength]; exact h0)
    have hlonger' : ∀ parts, parts <+: requestParts locale → Registered langs parts → parts.length ≤ m :=
      fun parts => length_le_of_registered fun m' h1 h2 => (property_eq_none.mp (hlonger m' h1 h2)).1
    simp only [hfind]
    cases found with
    | pack enabled =>
      have hlast := property_eq_pack.mp hfound
      obtain ⟨henabled, hkey⟩ := mem_of_lastWith hlast
      have hbegins := (join_mem_keysOf (hplain m) htake).mp hkey
      refine .inl ⟨_, enabled, ⟨List.take_prefix _ _, htake, ⟨enabled, henabled, hbegins⟩, ?_⟩, hlast, rfl⟩
      rw [hlength]
      exact hlonger'
    | member name =>
      obtain ⟨hkeys, hmember⟩ := property_eq_member hfound
      have hm1 : m = 1 := hlength.symm.trans (length_of_join_mem hmember)
      subst hm1
      refine .inr ⟨fun parts hbegins hparts hregistered => ?_, .inl ⟨?_, name, rfl⟩⟩
      · have heq := List.prefix_iff_eq_take.mp hbegins
        rw [Nat.le_antisymm (hlonger' parts hbegins hregistered) (List.length_pos_iff.mpr hparts)] at heq
        exact not_registered (hplain 1) htake hkeys (heq ▸ hregistered)
      · rw [take_one_requestParts, join_singleton] at hmember
        exact hmember
  · have hhead := (property_eq_none.mp (hnone 1 Nat.one_pos hne)).2
    rw [take_one_requestParts, join_singleton] at hhead
    refine .inr ⟨fun parts hbegins hparts hregistered => ?_, .inr ⟨hhead, ?_⟩⟩
    · have hlength := length_le_of_registered (m := 0) (fun m' h1 h2 => (property_eq_none.mp (hnone m' h1 h2)).1)
        hbegins hregistered
      exact hparts (List.length_eq_zero_iff.mp (Nat.le_zero.mp hlength))
    · simp only [hfind, property_empty hall, if_true]
      exact property_en_US hall

end Packs

/-- The answer is right exactly if a requested locale that is enabled comes after those it is
    the language of, and a request of another language has `en-US` to fall back on. -/
theorem get_iff (langs : List String) (hne : langs ≠ []) (hall : ∀ locale ∈ langs, locale ∈ ALLOWED_LANGUAGES) :
    ∃ languages, init langs = .ok languages ∧
      ∀ locale, Right langs locale (get languages locale true) ↔ Fine langs locale := by
  refine ⟨packs langs, init_eq hne hall, fun locale => ?_⟩
  have hsame : locale ∈ langs → requestParts locale = localeParts locale :=
    fun h => (allowed_locales locale (hall locale h)).1
  rcases get_cases hall locale with ⟨parts, found, hlongest, hlast, hget⟩ | ⟨hlongest, hget⟩
  · obtain ⟨hfound, hkey⟩ := mem_of_lastWith hlast
    have hbegins := (join_mem_keysOf ((plain_requestParts locale).begins hlongest.begins) hlongest.nonempty).mp hkey
    have hlanguage : language found = language locale := by
      unfold language
      rw [(allowed_locales found (hall found hfound)).1]
      obtain ⟨rest, hrest⟩ := hbegins
      obtain ⟨rest', hrest'⟩ := hlongest.begins
      obtain ⟨part, parts, rfl⟩ := List.exists_cons_of_ne_nil hlongest.nonempty
      rw [← hrest, ← hrest']
      rfl
    -- an enabled locale is itself the longest beginning of a request for it
    have hwhole : locale ∈ langs → parts = localeParts locale := fun h => by
      have hregistered : Registered langs (requestParts locale) := ⟨locale, h, hsame h ▸ List.prefix_refl _⟩
      have hle := hlongest.longest (requestParts locale) (List.prefix_refl _) hregistered
      rw [← hsame h, hlongest.begins.eq_of_length (Nat.le_antisymm hlongest.begins.length_le hle)]
    rw [hget]
    constructor
    · intro hright
      refine ⟨fun h => ?_, .inl ⟨found, hfound, hlanguage⟩⟩
      obtain rfl : found = locale := Found.pack.inj (Option.some.inj (hright.enabled h))
      rw [hwhole h] at hlast
      exact lastWith_self.mp hlast
    · intro hfine
      refine ⟨fun h => ?_, fun parts' hparts' => ⟨found, hfound, ?_, rfl⟩, fun h => absurd hlongest (h parts)⟩
      · rw [hwhole h, lastWith_self.mpr (hfine.enabled h)] at hlast
        rw [Option.some.inj hlast]
      · have hlength := Nat.le_antisymm (hlongest.longest parts' hparts'.begins hparts'.registered)
          (hparts'.longest parts hlongest.begins hlongest.registered)
        rw [List.prefix_iff_eq_take.mp hparts'.begins, hlength, ← List.prefix_iff_eq_take.mp hlongest.begins]
        exact hbegins
  · have hdisabled : locale ∉ langs := fun h =>
      hlongest _ (List.prefix_refl _) (requestParts_ne_nil locale) ⟨locale, h, hsame h ▸ List.prefix_refl _⟩
    have hlanguage : ¬∃ enabled ∈ langs, language enabled = language locale := fun h => by
      obtain ⟨enabled, henabled, heq⟩ := h
      refine hlongest _ (List.take_prefix 1 _) ?_ ⟨enabled, henabled, ?_⟩
      · rw [take_one_requestParts]
        exact List.cons_ne_nil _ _
      · rw [take_one_requestParts, ← heq, ← take_one_requestParts, (allowed_locales enabled (hall enabled henabled)).1]
        exact List.take_prefix 1 _
    have hnone : ∀ parts, ¬Longest langs (requestParts locale) parts :=
      fun parts h => hlongest parts h.begins h.nonempty h.registered
    constructor
    · intro hright
      obtain ⟨enabled, henabled, hanswer⟩ := hright.isPack
      refine ⟨fun h => absurd h hdisabled, .inr ?_⟩
      rcases hget with ⟨-, name, hget⟩ | ⟨hname, hget⟩
      · rw [hget] at hanswer
        cases hanswer
      · refine ⟨?_, hname⟩
        by_cases hen : "en-US" ∈ langs
        · exact hen
        · rw [hget, if_neg hen] at hanswer
          cases hanswer
    · intro hfine
      obtain ⟨hen, hname⟩ := hfine.fallback.resolve_left hlanguage
      refine ⟨fun h => absurd h hdisabled, fun parts h => absurd h (hnone parts), fun _ => ⟨"en-US", hen, ?_⟩⟩
      rcases hget with ⟨hmember, -⟩ | ⟨-, hget⟩
      · exact absurd hmember hname
      · rw [hget, if_pos hen]

/-- A list with the general locale first, and a request of a third language. -/
theorem get_iff_en_it : ["en-US", "it"] ≠ [] ∧ (∀ locale ∈ ["en-US", "it"], locale ∈ ALLOWED_LANGUAGES) ∧
    ∃ languages, init ["en-US", "it"] = .ok languages ∧
      ∀ locale, Right ["en-US", "it"] locale (get languages locale true) ↔ Fine ["en-US", "it"] locale :=
  ⟨by decide, by decide, get_iff ["en-US", "it"] (by decide) (by decide)⟩

/-- What is answered for a list of locales. -/
def answer (langs : List String) (locale : String) : Option Found := get (packs langs) locale true

/-- The locale after its language answers for both; nothing to fall back on; a name that every
    object has. -/
theorem wrong_pack :
    init ["en", "en-US"] = .ok (packs ["en", "en-US"]) ∧ answer ["en", "en-US"] "en" = some (.pack "en-US") ∧
    ¬Right ["en", "en-US"] "en" (answer ["en", "en-US"] "en") ∧
    init ["it"] = .ok (packs ["it"]) ∧ answer ["it"] "fr" = none ∧ ¬Right ["it"] "fr" (answer ["it"] "fr") ∧
    init ["en-US"] = .ok (packs ["en-US"]) ∧ answer ["en-US"] "constructor" = some (.member "constructor") ∧
    ¬Right ["en-US"] "constructor" (answer ["en-US"] "constructor") := by
  have hen : answer ["en", "en-US"] "en" = some (.pack "en-US") := rfl
  have hit : answer ["it"] "fr" = none := rfl
  have hus : answer ["en-US"] "constructor" = some (.member "constructor") := rfl
  refine ⟨rfl, hen, fun h => ?_, rfl, hit, fun h => ?_, rfl, hus, fun h => ?_⟩
  · have henabled := h.enabled (by decide)
    rw [hen] at henabled
    exact absurd henabled (by decide)
  · obtain ⟨enabled, -, hanswer⟩ := h.isPack
    rw [hit] at hanswer
    cases hanswer
  · obtain ⟨enabled, -, hanswer⟩ := h.isPack
    rw [hus] at hanswer
    cases hanswer

end GenieCloud.Util.I18n
