/-
  GenieCloud.Nlp.ExactMatchers — the exact matchers of the supported locales (`load` and
  `getExact` of `nlp/main.ts`, `localeToLanguage` of `util/i18n.ts`).

  A matcher is registered under the language of its locale, which is in lower case, and has the
  region for two locales of Chinese. It is looked up under what is left of a locale as parts are
  taken off, in the case that it is written in.

  - `load_exactMatchers`: after `load`, the languages of the supported locales have a matcher.
  - `keys_pairwise`: the keys of a lookup get shorter, so that none comes twice.
  - `right_iff`: the matcher of a locale is the right one exactly if its language, where
    supported, is a key and no longer key is supported, and otherwise no key is.
  - `fits_allowed_iff`: of the locales that can be enabled, those with a region of Chinese fail.
-/

import GenieCloud.Lib.SplitOn
import GenieCloud.Util.I18n
import Mathlib.Data.List.Induction

namespace GenieCloud.Nlp.ExactMatchers

open GenieCloud.Lib.SplitOn
open Util.I18n (ALLOWED_LANGUAGES)

/-! ## Languages and keys -/

variable (toLowerCase : List Char → List Char)

/-- `/[-_@.]/` -/
def languageSeparator (c : Char) : Bool := c == '-' || c == '_' || c == '@' || c == '.'

def localeToLanguage (locale : List Char) : List Char :=
  let locale := toLowerCase locale
  if locale = "zh-tw".toList ∨ locale = "zh-cn".toList then locale
  else (locale.splitOnP languageSeparator).headD []

/-- `/[_.-]/g` -/
def tagSeparator (c : Char) : Bool := c == '_' || c == '.' || c == '-'

/-- `splitTag.join('-')` -/
def join (splitTag : List (List Char)) : List Char := ['-'].intercalate splitTag

/-- The keys of a lookup: all the parts, then without the last one, down to the first. -/
def keys (locale : List Char) : List (List Char) :=
  let splitTag := locale.splitOnP tagSeparator
  (List.range splitTag.length).map fun n => join (splitTag.take (splitTag.length - n))

/-! ## The server -/

inductive Download where
  | file (content : String)
  /-- `ENOENT`, or 404. -/
  | missing
  | failed (code : String)
  deriving DecidableEq, Repr

structure ExactMatcher where
  /-- Of the file that it is loaded from. -/
  language : List Char
  trie : Option String
  deriving DecidableEq, Repr

inductive Exact where
  | matcher (m : ExactMatcher)
  | dummy
  deriving DecidableEq, Repr

structure Spec where
  tag : List Char
  locale : List Char
  use_exact : Bool
  deriving DecidableEq, Repr

structure NLPModel where
  id : List Char
  locale : List Char
  /-- `none`: undefined. -/
  exact : Option Exact
  deriving DecidableEq, Repr

abbrev Matchers := List Char → Option ExactMatcher

structure Server where
  exactMatchers : Matchers
  models : List Char → Option NLPModel

def getExact (exactMatchers : Matchers) (locale : List Char) : Option ExactMatcher :=
  (keys locale).findSome? exactMatchers

variable (download : List Char → Download)

def loadExactMatcher (language : List Char) : Except String ExactMatcher :=
  match download (language ++ ".btrie".toList) with
  | .file content => .ok ⟨language, some content⟩
  | .missing => .ok ⟨language, none⟩
  | .failed code => .error code

def loadMatcher (exactMatchers : Matchers) (locale : List Char) : Except String Matchers := do
  let language := localeToLanguage toLowerCase locale
  let matcher ← loadExactMatcher download language
  return Function.update exactMatchers language (some matcher)

/-- `new NLPModel` -/
def createModel (spec : Spec) (exactMatchers : Matchers) : NLPModel where
  id := "@".toList ++ spec.tag ++ "/".toList ++ spec.locale
  locale := spec.locale
  exact := if spec.use_exact then (getExact exactMatchers spec.locale).map .matcher else some .dummy

variable (loadModel : NLPModel → Except String Unit)

def loadSpec (exactMatchers : Matchers) (models : List Char → Option NLPModel) (spec : Spec) :
    Except String (List Char → Option NLPModel) := do
  let model := createModel spec exactMatchers
  loadModel model
  return Function.update models model.id (some model)

def load (supported : List (List Char)) (specs : List Spec) : Except String Server := do
  let exactMatchers ← supported.foldlM (loadMatcher toLowerCase download) fun _ => none
  let models ← specs.foldlM (loadSpec loadModel exactMatchers) fun _ => none
  return ⟨exactMatchers, models⟩

/-! ## What a lookup is for -/

/-- The matcher with the file of a language, if there is one. -/
def matcherOf (language : List Char) : ExactMatcher where
  language := language
  trie := match download (language ++ ".btrie".toList) with
    | .file content => some content
    | _ => none

/-- The answer for a locale is the matcher loaded for a supported locale of its language, and
    undefined only if there is none. -/
def Right (supported : List (List Char)) (exactMatchers : Matchers) (locale : List Char) : Prop :=
  match getExact exactMatchers locale with
  | some matcher => ∃ l ∈ supported, localeToLanguage toLowerCase l = localeToLanguage toLowerCase locale ∧
      matcher = matcherOf download (localeToLanguage toLowerCase l)
  | none => ∀ l ∈ supported, localeToLanguage toLowerCase l ≠ localeToLanguage toLowerCase locale

/-- The languages that matchers are registered under. -/
def languages (supported : List (List Char)) : List (List Char) := supported.map (localeToLanguage toLowerCase)

/-- The lookup of a locale comes to its language before it comes to any other that is supported. -/
structure Fits (supported : List (List Char)) (locale : List Char) : Prop where
  of_supported : localeToLanguage toLowerCase locale ∈ languages toLowerCase supported →
    localeToLanguage toLowerCase locale ∈ keys locale ∧
      ∀ key ∈ keys locale, key ∈ languages toLowerCase supported →
        key.length ≤ (localeToLanguage toLowerCase locale).length
  of_unsupported : localeToLanguage toLowerCase locale ∉ languages toLowerCase supported →
    ∀ key ∈ keys locale, key ∉ languages toLowerCase supported

variable {toLowerCase download loadModel}

/-! ## The keys -/

theorem length_join_take {splitTag : List (List Char)} {j k : Nat} (hj : 0 < j) (hjk : j < k)
    (hk : k ≤ splitTag.length) : (join (splitTag.take j)).length < (join (splitTag.take k)).length := by
  have hbefore : splitTag.take j ≠ [] := by
    intro h
    have hlen := congrArg List.length h
    rw [List.length_take, List.length_nil] at hlen
    omega
  have htake : splitTag.take k = splitTag.take j ++ splitTag[j] :: (splitTag.take k).drop (j + 1) := by
    have hlt : j < (splitTag.take k).length := by
      rw [List.length_take]
      omega
    have hsplit := List.take_append_drop j (splitTag.take k)
    rw [List.drop_eq_getElem_cons hlt, List.take_take, Nat.min_eq_left (Nat.le_of_lt hjk), List.getElem_take] at hsplit
    exact hsplit.symm
  rw [join, join, htake, intercalate_append_cons '-' _ _ hbefore, List.length_append, List.length_cons]
  omega

theorem keys_pairwise (locale : List Char) : (keys locale).Pairwise fun key next => next.length < key.length := by
  rw [keys, List.pairwise_map]
  refine List.Pairwise.imp_of_mem ?_ List.pairwise_lt_range
  intro i j hi hj hij
  rw [List.mem_range] at hi hj
  exact length_join_take (by omega) (by omega) (by omega)

/-! ## The registration -/

theorem loadMatcher_eq {exactMatchers matchers : Matchers} {locale : List Char}
    (h : loadMatcher toLowerCase download exactMatchers locale = .ok matchers) :
    matchers = Function.update exactMatchers (localeToLanguage toLowerCase locale)
      (some (matcherOf download (localeToLanguage toLowerCase locale))) := by
  rw [loadMatcher, loadExactMatcher] at h
  rw [matcherOf]
  cases hfile : download (localeToLanguage toLowerCase locale ++ ".btrie".toList) with
  | file content =>
    rw [hfile] at h
    cases h
    rfl
  | missing =>
    rw [hfile] at h
    cases h
    rfl
  | failed code =>
    rw [hfile] at h
    cases h

theorem load_exactMatchers {supported : List (List Char)} {matchers : Matchers}
    (h : supported.foldlM (loadMatcher toLowerCase download) (fun _ => none) = .ok matchers) (language : List Char) :
    matchers language = if language ∈ languages toLowerCase supported then some (matcherOf download language) else none := by
  induction supported using List.reverseRecOn generalizing matchers with
  | nil =>
    cases h
    rfl
  | append_singleton supported locale ih =>
    rw [List.foldlM_append] at h
    cases hmatchers : supported.foldlM (loadMatcher toLowerCase download) (fun _ => none) with
    | error code =>
      rw [hmatchers] at h
      cases h
    | ok before =>
      have hlast : loadMatcher toLowerCase download before locale = .ok matchers := by
        rw [hmatchers] at h
        have hbind : (loadMatcher toLowerCase download before locale >>= pure) = .ok matchers := h
        rwa [bind_pure] at hbind
      have hlanguages : languages toLowerCase (supported ++ [locale]) =
          languages toLowerCase supported ++ [localeToLanguage toLowerCase locale] := List.map_append
      rw [loadMatcher_eq hlast, hlanguages]
      by_cases heq : language = localeToLanguage toLowerCase locale
      · subst heq
        rw [Function.update_self, if_pos (List.mem_append_right _ (List.mem_singleton_self _))]
      · rw [Function.update_of_ne heq, ih hmatchers]
        simp only [List.mem_append, List.mem_singleton, heq, or_false]

theorem load_eq {supported : List (List Char)} {specs : List Spec} {server : Server}
    (h : load toLowerCase download loadModel supported specs = .ok server) :
    supported.foldlM (loadMatcher toLowerCase download) (fun _ => none) = .ok server.exactMatchers ∧
      specs.foldlM (loadSpec loadModel server.exactMatchers) (fun _ => none) = .ok server.models := by
  rw [load] at h
  cases hmatchers : supported.foldlM (loadMatcher toLowerCase download) (fun _ => none) with
  | error code =>
    rw [hmatchers] at h
    cases h
  | ok matchers =>
    rw [hmatchers] at h
    cases hmodels : specs.foldlM (loadSpec loadModel matchers) (fun _ => none) with
    | error code => simp [hmodels, bind, Except.bind] at h
    | ok models =>
      simp only [bind, Except.bind, hmodels, pure, Except.pure, Except.ok.injEq] at h
      subst h
      exact ⟨rfl, hmodels⟩

/-- Every model has been created with the matchers of the server. -/
theorem models_created {exactMatchers : Matchers} {specs : List Spec} {models : List Char → Option NLPModel}
    (h : specs.foldlM (loadSpec loadModel exactMatchers) (fun _ => none) = .ok models) {id : List Char} {model : NLPModel}
    (hmodel : models id = some model) : ∃ spec ∈ specs, model = createModel spec exactMatchers := by
  induction specs using List.reverseRecOn generalizing models with
  | nil =>
    cases h
    cases hmodel
  | append_singleton specs spec ih =>
    rw [List.foldlM_append] at h
    cases hbefore : specs.foldlM (loadSpec loadModel exactMatchers) (fun _ => none) with
    | error code =>
      rw [hbefore] at h
      cases h
    | ok before =>
      have hlast : loadSpec loadModel exactMatchers before spec = .ok models := by
        rw [hbefore] at h
        have hbind : (loadSpec loadModel exactMatchers before spec >>= pure) = .ok models := h
        rwa [bind_pure] at hbind
      rw [loadSpec] at hlast
      cases hload : loadModel (createModel spec exactMatchers) with
      | error code => simp [hload, bind, Except.bind] at hlast
      | ok _ =>
        simp only [hload, bind, Except.bind, pure, Except.pure, Except.ok.injEq] at hlast
        subst hlast
        by_cases hid : id = (createModel spec exactMatchers).id
        · subst hid
          rw [Function.update_self] at hmodel
          exact ⟨spec, List.mem_append_right _ (List.mem_singleton_self _), (Option.some.inj hmodel).symm⟩
        · rw [Function.update_of_ne hid] at hmodel
          obtain ⟨spec', hspec', heq⟩ := ih hbefore hmodel
          exact ⟨spec', List.mem_append_left _ hspec', heq⟩

/-! ## The lookup -/

section
variable {supported : List (List Char)} {matchers : Matchers} {locale : List Char}

theorem matchers_some_iff (h : supported.foldlM (loadMatcher toLowerCase download) (fun _ => none) = .ok matchers)
    {language : List Char} {matcher : ExactMatcher} : matchers language = some matcher ↔
      language ∈ languages toLowerCase supported ∧ matcher = matcherOf download language := by
  rw [load_exactMatchers h]
  split
  · rename_i hmem
    rw [Option.some.injEq]
    exact ⟨fun heq => ⟨hmem, heq.symm⟩, fun heq => heq.2.symm⟩
  · rename_i hmem
    exact iff_of_false nofun fun heq => hmem heq.1

theorem matchers_none_iff (h : supported.foldlM (loadMatcher toLowerCase download) (fun _ => none) = .ok matchers)
    {language : List Char} : matchers language = none ↔ language ∉ languages toLowerCase supported := by
  rw [load_exactMatchers h]
  split
  · rename_i hmem
    exact iff_of_false nofun fun hnot => hnot hmem
  · rename_i hmem
    exact iff_of_true rfl hmem

theorem getExact_none_iff (h : supported.foldlM (loadMatcher toLowerCase download) (fun _ => none) = .ok matchers) :
    getExact matchers locale = none ↔ ∀ key ∈ keys locale, key ∉ languages toLowerCase supported := by
  rw [getExact, List.findSome?_eq_none_iff]
  exact forall₂_congr fun key _ => matchers_none_iff h

/-- Of the keys that are supported, the lookup comes to the longest. -/
theorem getExact_some (h : supported.foldlM (loadMatcher toLowerCase download) (fun _ => none) = .ok matchers)
    {matcher : ExactMatcher} (hget : getExact matchers locale = some matcher) : ∃ key ∈ keys locale,
      key ∈ languages toLowerCase supported ∧ matcher = matcherOf download key ∧
        ∀ other ∈ keys locale, other ∈ languages toLowerCase supported → other ≠ key → other.length < key.length := by
  rw [getExact, List.findSome?_eq_some_iff] at hget
  obtain ⟨before, key, after, hkeys, hkey, hbefore⟩ := hget
  obtain ⟨hsupported, hmatcher⟩ := (matchers_some_iff h).mp hkey
  refine ⟨key, by rw [hkeys]; simp, hsupported, hmatcher, ?_⟩
  intro other hother hsupp hne
  have hpairwise := keys_pairwise locale
  rw [hkeys, List.pairwise_append, List.pairwise_cons] at hpairwise
  rw [hkeys, List.mem_append, List.mem_cons] at hother
  rcases hother with hother | rfl | hother
  · exact absurd hsupp ((matchers_none_iff h).mp (hbefore other hother))
  · exact absurd rfl hne
  · exact hpairwise.2.1.1 other hother

theorem right_iff_fits (h : supported.foldlM (loadMatcher toLowerCase download) (fun _ => none) = .ok matchers) :
    Right toLowerCase download supported matchers locale ↔ Fits toLowerCase supported locale := by
  rw [Right]
  cases hget : getExact matchers locale with
  | none =>
    have hnone := (getExact_none_iff h).mp hget
    constructor
    · intro hright
      have hlanguage : localeToLanguage toLowerCase locale ∉ languages toLowerCase supported := by
        intro hmem
        obtain ⟨l, hl, heq⟩ := List.mem_map.mp hmem
        exact hright l hl heq
      exact ⟨fun hmem => absurd hmem hlanguage, fun _ => hnone⟩
    · intro hfits l hl heq
      have hmem : localeToLanguage toLowerCase locale ∈ languages toLowerCase supported := heq ▸ List.mem_map_of_mem hl
      exact hnone _ (hfits.of_supported hmem).1 hmem
  | some matcher =>
    obtain ⟨key, hkey, hsupported, rfl, hlongest⟩ := getExact_some h hget
    constructor
    · intro hright
      obtain ⟨l, hl, heq, hmatcher⟩ := hright
      have hlanguage : key = localeToLanguage toLowerCase locale := (congrArg ExactMatcher.language hmatcher).trans heq
      subst hlanguage
      refine ⟨fun _ => ⟨hkey, ?_⟩, fun hnot => absurd hsupported hnot⟩
      intro other hother hsupp
      by_cases hne : other = localeToLanguage toLowerCase locale
      · exact Nat.le_of_eq (congrArg List.length hne)
      · exact Nat.le_of_lt (hlongest other hother hsupp hne)
    · intro hfits
      by_cases hlanguage : localeToLanguage toLowerCase locale ∈ languages toLowerCase supported
      · obtain ⟨hmem, hle⟩ := hfits.of_supported hlanguage
        have heq : localeToLanguage toLowerCase locale = key := by
          by_contra hne
          have hlt := hlongest _ hmem hlanguage hne
          have := hle key hkey hsupported
          omega
        obtain ⟨l, hl, hl'⟩ := List.mem_map.mp hlanguage
        exact ⟨l, hl, hl', by rw [hl', heq]⟩
      · exact absurd hsupported (hfits.of_unsupported hlanguage key hkey)

/-- Of the supported locales themselves, the right matcher is that of their own language. -/
theorem right_supported (hl : locale ∈ supported) : Right toLowerCase download supported matchers locale ↔
    getExact matchers locale = some (matcherOf download (localeToLanguage toLowerCase locale)) := by
  rw [Right]
  cases hget : getExact matchers locale with
  | none => exact iff_of_false (fun hright => hright locale hl rfl) nofun
  | some matcher =>
    rw [Option.some.injEq]
    constructor
    · intro hright
      obtain ⟨l, -, heq, hmatcher⟩ := hright
      rw [hmatcher, heq]
    · intro heq
      exact ⟨locale, hl, rfl, heq⟩

end

theorem right_iff {supported : List (List Char)} {specs : List Spec} {server : Server}
    (h : load toLowerCase download loadModel supported specs = .ok server) :
    (∀ locale, Right toLowerCase download supported server.exactMatchers locale ↔ Fits toLowerCase supported locale) ∧
      ∀ id model, server.models id = some model → (model.exact = none ↔ ∃ spec ∈ specs,
        model = createModel spec server.exactMatchers ∧ spec.use_exact = true ∧
          ∀ key ∈ keys model.locale, key ∉ languages toLowerCase supported) := by
  obtain ⟨hmatchers, hmodels⟩ := load_eq h
  refine ⟨fun locale => right_iff_fits hmatchers, ?_⟩
  intro id model hmodel
  obtain ⟨spec, hspec, rfl⟩ := models_created hmodels hmodel
  constructor
  · intro hnone
    rw [createModel] at hnone
    cases huse : spec.use_exact with
    | false => simp [huse] at hnone
    | true =>
      simp only [huse, if_true, Option.map_eq_none_iff] at hnone
      exact ⟨spec, hspec, rfl, huse, (getExact_none_iff hmatchers).mp hnone⟩
  · intro hspecs
    obtain ⟨spec', -, heq, huse, hkeys⟩ := hspecs
    rw [heq] at hkeys ⊢
    have hnone : getExact server.exactMatchers spec'.locale = none := (getExact_none_iff hmatchers).mpr hkeys
    simp [createModel, huse, hnone]

def lowerChar (c : Char) : Char := if 'A' ≤ c ∧ c ≤ 'Z' then Char.ofNat (c.toNat + 32) else c

def asFile (name : List Char) : Download := .file (String.ofList name)

/-- With `en-US` and `zh-CN` supported, and a file for each. -/
def chinese : Except String Server :=
  load (List.map lowerChar) asFile (fun _ => .ok ()) ["en-US".toList, "zh-CN".toList]
    [⟨"org.thingpedia.models.default".toList, "zh-CN".toList, true⟩]

def chineseModel : List Char := "@org.thingpedia.models.default/zh-CN".toList

theorem right_iff_chinese : ∃ server, chinese = .ok server ∧
    (Right (List.map lowerChar) asFile ["en-US".toList, "zh-CN".toList] server.exactMatchers "en-US".toList ↔
      Fits (List.map lowerChar) ["en-US".toList, "zh-CN".toList] "en-US".toList) := by
  cases h : chinese with
  | error code =>
    have hok : chinese.toOption.isSome = true := rfl
    rw [h] at hok
    cases hok
  | ok server => exact ⟨server, rfl, (right_iff h).1 _⟩

/-- The matcher is registered as `zh-cn`, and looked up as `zh-CN` and as `zh`. -/
theorem chinese_undefined : ∃ server, chinese = .ok server ∧
    ¬Right (List.map lowerChar) asFile ["en-US".toList, "zh-CN".toList] server.exactMatchers "zh-CN".toList ∧
    (server.models chineseModel).map NLPModel.exact = some none := by
  have hget : (chinese.toOption.map fun server => getExact server.exactMatchers "zh-CN".toList) = some none := by
    rfl
  have hmodel : (chinese.toOption.map fun server => (server.models chineseModel).map NLPModel.exact) = some (some none) := by
    rfl
  cases h : chinese with
  | error code =>
    rw [h] at hget
    cases hget
  | ok server =>
    rw [h] at hget hmodel
    have hundefined : getExact server.exactMatchers "zh-CN".toList = none := Option.some.inj hget
    refine ⟨server, rfl, ?_, Option.some.inj hmodel⟩
    rw [Right, hundefined]
    intro hright
    exact hright "zh-CN".toList (List.mem_cons_of_mem _ (List.mem_singleton_self _)) rfl

/-- Of the locales that can be enabled, exactly those with a region of Chinese fail. -/
theorem fits_allowed_iff {supported : List (List Char)} {locale : List Char}
    (hallowed : ∀ l ∈ supported, l ∈ ALLOWED_LANGUAGES.map String.toList) (hlocale : locale ∈ supported) :
    Fits (List.map lowerChar) supported locale ↔ locale ≠ "zh-CN".toList ∧ locale ≠ "zh-TW".toList := by
  have hlanguage : localeToLanguage (List.map lowerChar) locale ∈ languages (List.map lowerChar) supported :=
    List.mem_map_of_mem hlocale
  have hregion : (["zh-CN".toList, "zh-TW".toList].all fun l =>
      !(keys l).contains (localeToLanguage (List.map lowerChar) l)) = true := rfl
  have hother : ((ALLOWED_LANGUAGES.map String.toList).all fun l =>
      ["zh-CN".toList, "zh-TW".toList].contains l ||
        ((keys l).contains (localeToLanguage (List.map lowerChar) l) &&
          (keys l).all fun key => (ALLOWED_LANGUAGES.map String.toList).all fun l' =>
            key != localeToLanguage (List.map lowerChar) l' ||
              decide (key.length ≤ (localeToLanguage (List.map lowerChar) l).length))) = true := rfl
  simp only [List.all_eq_true, Bool.not_eq_true', Bool.or_eq_true, Bool.and_eq_true, List.contains_eq_mem,
    decide_eq_true_eq, decide_eq_false_iff_not, bne_iff_ne] at hregion hother
  constructor
  · intro hfits
    have hkeys := (hfits.of_supported hlanguage).1
    refine ⟨?_, ?_⟩
    · intro heq
      exact hregion locale (heq ▸ List.mem_cons_self ..) hkeys
    · intro heq
      exact hregion locale (heq ▸ List.mem_cons_of_mem _ (List.mem_singleton_self _)) hkeys
  · intro hne
    rcases hother locale (hallowed locale hlocale) with hmem | ⟨hkeys, hshort⟩
    · rcases List.mem_cons.mp hmem with heq | hmem
      · exact absurd heq hne.1
      · exact absurd (List.mem_singleton.mp hmem) hne.2
    · refine ⟨fun _ => ⟨hkeys, ?_⟩, fun hnot => absurd hlanguage hnot⟩
      intro key hkey hsupported
      obtain ⟨l, hl, hkey'⟩ := List.mem_map.mp hsupported
      rcases hshort key hkey l (hallowed l hl) with hdiffers | hle
      · exact absurd hkey'.symm hdiffers
      · exact hle

end GenieCloud.Nlp.ExactMatchers
