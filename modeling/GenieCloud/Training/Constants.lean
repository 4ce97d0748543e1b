/-
  GenieCloud.Training.Constants — the constants of a dataset for turking (`training/lib/constant-file.js`,
  `_transaction` of `training/lib/dataset_generator.js`).

  The file gives the first constants, a line each; what is sampled is added to them. The file
  extends the list of a key. A sample takes the place of it.

  - `parseConstant_own`: what parses has a key that no object inherits.
  - `load_entry`: after the file, a key has the list of its constants.
  - `merge_entry`: after the samples, it has the last of its samples, if there are any.
  - `entry_iff`: so a key has all of its constants exactly if none was sampled.

  `Host` is what the language does with numbers, dates and locales.
-/

import GenieCloud.Lib.Result
import GenieCloud.Util.Utterance
import Mathlib.Data.List.Induction
import Mathlib.Logic.Function.Basic

namespace GenieCloud.Training.Constants

open GenieCloud.Lib.Result
open Thingpedia (isSpace trim)
open Util.Utterance (objectPrototype word)

/-! ## Values -/

structure Host (Number Date : Type) where
  number : Option String → Number
  parseInt : Option String → Number
  /-- `x || 0` -/
  orZero : Number → Number
  isNaN : Number → Bool
  toLocaleString : String → Number → String
  /-- With a currency, which may be invalid. -/
  toCurrencyString : String → String → Number → Except String String
  date : Option String → Date
  toDateString : String → Date → String
  toLowerCase : String → String
  toUpperCase : String → String

/-- A text that may be missing, as an element of an array or as `null`. -/
inductive Text where
  | text (s : String)
  | null
  | undefined
  deriving DecidableEq, Repr

inductive Value (Number Date : Type) where
  | number (value : Number)
  | text (value : Text)
  | measure (value : Number) (unit : String)
  | location (latitude longitude : Number) (display : String)
  | date (value : Date)
  | time (hour minute second : Number)
  | entity (value : Text) (display : String)
  deriving DecidableEq, Repr

structure Constant (Number Date : Type) where
  key : Text
  value : Value Number Date
  unit : Option String
  display : Option String
  deriving DecidableEq, Repr

variable {Number Date : Type} (H : Host Number Date)

/-! ## One constant -/

def startsWith (text part : String) : Bool := part.toList.isPrefixOf text.toList

/-- `[^:]+:` so many times, and `(.+)$`, which matches no line terminator. -/
def afterSegments : Nat → List Char → Option String
  | 0, rest =>
    if rest.isEmpty || rest.any fun c => [10, 13, 0x2028, 0x2029].contains c.toNat then none else some (String.ofList rest)
  | n + 1, cs =>
    match cs.takeWhile (· ≠ ':'), cs.dropWhile (· ≠ ':') with
    | _ :: _, _ :: rest => afterSegments n rest
    | _, _ => none

def typeOf (key : String) : Except String String :=
  if startsWith key "param:@" then
    match afterSegments 2 (key.toList.drop 7) with
    | some type => .ok type
    | none => .error ("Invalid syntax: " ++ key)
  else if startsWith key "param:" then
    match afterSegments 1 (key.toList.drop 6) with
    | some type => .ok type
    | none => .error ("Invalid syntax: " ++ key)
  else .ok key

/-- `[A-Za-z_][A-Za-z0-9_]*` -/
def unitOf (cs : List Char) : Option (List Char) :=
  match cs with
  | c :: _ => if c.isAlpha || c == '_' then some (cs.takeWhile word) else none
  | [] => none

/-- The number without its exponent, and what follows it. -/
def mantissaOf (cs : List Char) : Option (List Char × List Char) :=
  let int := cs.takeWhile Char.isDigit
  match cs.dropWhile Char.isDigit with
  | '.' :: rest =>
    if int.isEmpty && (rest.takeWhile Char.isDigit).isEmpty then none
    else some (int ++ '.' :: rest.takeWhile Char.isDigit, rest.dropWhile Char.isDigit)
  | rest => if int.isEmpty then none else some (int, rest)

/-- With the exponent, if there is one and a unit follows it. -/
def measureParts (cs : List Char) : Option (List Char × List Char) :=
  let sign := if cs.head? = some '-' then ['-'] else []
  (mantissaOf (cs.drop sign.length)).bind fun x =>
    let exponent := (x.2.drop 1).takeWhile Char.isDigit
    let withExponent := if x.2.head? = some 'e' && !exponent.isEmpty then unitOf (x.2.drop (exponent.length + 1)) else none
    match withExponent with
    | some unit => some (sign ++ x.1 ++ 'e' :: exponent, unit)
    | none => (unitOf x.2).map fun unit => (sign ++ x.1, unit)

def parseMeasure (valueString : Option String) : Except String (Number × String) :=
  match measureParts ((valueString.getD "undefined").toList) with
  | some (value, unit) => .ok (H.number (some (String.ofList value)), String.ofList unit)
  | none => .error ("Invalid measure syntax: " ++ valueString.getD "undefined")

/-- `display || other` -/
def orElse (display : Option String) (other : Option String) : Option String :=
  if display.any (· ≠ "") then display else other

def textOf : Option String → Text
  | some s => .text s
  | none => .undefined

/-- `valueString.split(separator)`, each part by its index. -/
def partsOf (separator : Char) (valueString : String) (i : Nat) : Option String :=
  ((valueString.toList.splitOn separator)[i]?).map String.ofList

def defined (valueString : Option String) : Except String String :=
  match valueString with
  | some s => .ok s
  | none => .error "Cannot read property of undefined"

/-- `display` where it is required. -/
def requiredDisplay (display : Option String) (message : String) : Except String String :=
  match display.filter (· ≠ "") with
  | some s => .ok s
  | none => .error message

def parseConstant (locale key : String) (valueString display : Option String) : Except String (Constant Number Date) := do
  let type ← typeOf key
  if type = "Number" then
    let value := H.number valueString
    .ok ⟨textOf valueString, .number value, none, orElse display (H.toLocaleString locale value)⟩
  else if type = "String" then do
    let s ← defined valueString
    .ok ⟨.text s, .text (.text (H.toLowerCase s)), none, "“" ++ s ++ "”"⟩
  else if type = "Currency" then do
    let (value, unit) ← parseMeasure H valueString
    if display.any (· ≠ "") then .ok ⟨textOf valueString, .measure value unit, none, display⟩
    else
      let text ← H.toCurrencyString locale (H.toUpperCase unit) value
      .ok ⟨textOf valueString, .measure value unit, none, text⟩
  else if type = "Location" then do
    let s ← defined valueString
    let text ← requiredDisplay display "display field is required for Location constant"
    .ok ⟨.text s, .location (H.number (partsOf ',' s 0)) (H.number (partsOf ',' s 1)) text, none, text⟩
  else if type = "Date" then
    let date := H.date valueString
    .ok ⟨textOf valueString, .date date, none, orElse display (H.toDateString locale date)⟩
  else if type = "Time" then do
    let s ← defined valueString
    let second := H.orZero (H.parseInt (partsOf ':' s 2))
    .ok ⟨.text s, .time (H.parseInt (partsOf ':' s 0)) (H.parseInt (partsOf ':' s 1)) second, none, orElse display s⟩
  else if ["Entity(tt:email_address)", "Entity(tt:phone_number)", "Entity(tt:url)", "Entity(tt:path_name)"].contains type then
    .ok ⟨textOf valueString, .text (textOf valueString), none, orElse display valueString⟩
  else if type = "Entity(tt:hashtag)" then
    let s := "#" ++ valueString.getD "undefined"
    .ok ⟨.text s, .text (textOf valueString), none, orElse display s⟩
  else if type = "Entity(tt:username)" then
    let s := "@" ++ valueString.getD "undefined"
    .ok ⟨.text s, .text (textOf valueString), none, orElse display s⟩
  else if startsWith type "Measure(" then do
    let (value, unit) ← parseMeasure H valueString
    if H.isNaN value then .error "assert(!Number.isNaN(value))"
    else .ok ⟨textOf valueString, .number value, some unit, orElse display (H.toLocaleString locale value ++ " " ++ unit)⟩
  else if startsWith type "Entity(" then do
    let text ← requiredDisplay display ("display field is required for constant of type " ++ type)
    let s := if valueString = some "null" then .null else textOf valueString
    .ok ⟨s, .entity s text, none, text⟩
  else .error ("Invalid constant type " ++ type)

/-- What parses is not the name of a member that every object inherits. -/
theorem parseConstant_own {locale key : String} {valueString display : Option String} {constant : Constant Number Date}
    (h : parseConstant H locale key valueString display = .ok constant) : key ∉ objectPrototype := by
  intro hkey
  have hnames : ∀ name ∈ objectPrototype, (typeOf name).toOption = some name ∧
      name ∉ ["Number", "String", "Currency", "Location", "Date", "Time", "Entity(tt:email_address)",
        "Entity(tt:phone_number)", "Entity(tt:url)", "Entity(tt:path_name)", "Entity(tt:hashtag)", "Entity(tt:username)"] ∧
      startsWith name "Measure(" = false ∧ startsWith name "Entity(" = false := by
    decide +kernel
  obtain ⟨htype, hother, hmeasure, hentity⟩ := hnames key hkey
  rw [parseConstant, toOption_eq_some.mp htype, ok_bind] at h
  simp only [List.mem_cons, List.not_mem_nil, or_false, not_or] at hother
  simp [hother, hmeasure, hentity] at h

/-! ## All of them -/

/-- What is in the object for a key: a list, or a constant that was put in its place. -/
inductive Entry (Number Date : Type) where
  | list (constants : List (Constant Number Date))
  | constant (constant : Constant Number Date)
  deriving DecidableEq, Repr

abbrev Entries (Number Date : Type) := String → Option (Entry Number Date)

/-- A key with the texts of its constant, of a line or of the sampler. -/
structure Row where
  key : String
  value : Option String
  display : Option String
  deriving DecidableEq, Repr

/-- A line of the file, without the comments and the empty ones. -/
def readLine (line : List Char) : Option Row :=
  let rest := line.dropWhile isSpace
  if rest.isEmpty || rest.head? = some '#' then none
  else
    let parts := (trim line).splitOn '\t'
    some ⟨String.ofList (parts.headD []), (parts[1]?).map String.ofList, (parts[2]?).map String.ofList⟩

/-- `constants[key].push(..)`, on a list that is there if the object has the key. -/
def addRow (locale : String) (constants : Entries Number Date) (row : Row) : Except String (Entries Number Date) := do
  let constant ← parseConstant H locale row.key row.value row.display
  match constants row.key with
  | some (.list cs) => .ok (Function.update constants row.key (some (.list (cs ++ [constant]))))
  | none =>
    if objectPrototype.contains row.key then .error "constants[key].push is not a function"
    else .ok (Function.update constants row.key (some (.list [constant])))
  | some (.constant _) => .error "constants[key].push is not a function"

def parseConstantFile (locale : String) (lines : List (List Char)) : Except String (Entries Number Date) :=
  (lines.filterMap readLine).foldlM (addRow H locale) fun _ => none

/-- `constants[key] = parseConstant(..)` -/
def mergeRow (language : String) (constants : Entries Number Date) (row : Row) : Except String (Entries Number Date) := do
  let constant ← parseConstant H language row.key row.value row.display
  .ok (Function.update constants row.key (some (.constant constant)))

/-- The constants of `_transaction`: those of the file, and those that were sampled. -/
def allConstants (locale language : String) (lines : List (List Char)) (samples : List Row) :
    Except String (Entries Number Date) := do
  let constants ← parseConstantFile H locale lines
  samples.foldlM (mergeRow H language) constants

/-! ## What is wanted -/

/-- The constants of a key, of the rows that parse. -/
def constantsOf (locale : String) (rows : List Row) (key : String) : List (Constant Number Date) :=
  (rows.filter (·.key = key)).filterMap fun row => (parseConstant H locale row.key row.value row.display).toOption

def entryOf (cs : List (Constant Number Date)) : Option (Entry Number Date) := if cs = [] then none else some (.list cs)

/-- A key has the constants of the file and then those that were sampled. -/
def Kept (locale language : String) (lines : List (List Char)) (samples : List Row) (constants : Entries Number Date)
    (key : String) : Prop :=
  constants key = entryOf (constantsOf H locale (lines.filterMap readLine) key ++ constantsOf H language samples key)

/-! ## Steps -/

theorem constantsOf_concat_self {locale : String} {row : Row} {constant : Constant Number Date}
    (h : parseConstant H locale row.key row.value row.display = .ok constant) (rows : List Row) :
    constantsOf H locale (rows ++ [row]) row.key = constantsOf H locale rows row.key ++ [constant] := by
  simp [constantsOf, List.filter_append, h, Except.toOption]

theorem constantsOf_concat_ne {locale key : String} {row : Row} (h : row.key ≠ key) (rows : List Row) :
    constantsOf H locale (rows ++ [row]) key = constantsOf H locale rows key := by
  simp [constantsOf, List.filter_append, h]

theorem entryOf_concat (cs : List (Constant Number Date)) (c : Constant Number Date) :
    entryOf (cs ++ [c]) = some (.list (cs ++ [c])) := by
  simp [entryOf]

theorem addRow_entry {locale : String} {rows : List Row} {constants constants' : Entries Number Date} {row : Row}
    (hrows : ∀ key, constants key = entryOf (constantsOf H locale rows key))
    (h : addRow H locale constants row = .ok constants') (key : String) :
    constants' key = entryOf (constantsOf H locale (rows ++ [row]) key) := by
  obtain ⟨constant, hparse, h⟩ := bind_ok h
  have hself := constantsOf_concat_self H hparse rows
  have hlist : constants' =
      Function.update constants row.key (some (.list (constantsOf H locale rows row.key ++ [constant]))) := by
    have hrow := hrows row.key
    rw [hrow] at h
    by_cases hnil : constantsOf H locale rows row.key = []
    · rw [hnil] at h ⊢
      have h : (if objectPrototype.contains row.key = true then Except.error "constants[key].push is not a function"
        else .ok (Function.update constants row.key (some (.list [constant])))) = .ok constants' := h
      split at h
      · cases h
      · exact (Except.ok.inj h).symm
    · have hsome : entryOf (constantsOf H locale rows row.key) = some (.list (constantsOf H locale rows row.key)) :=
        if_neg hnil
      rw [hsome] at h
      exact (Except.ok.inj h).symm
  by_cases hkey : row.key = key
  · subst hkey
    rw [hlist, Function.update_self, hself, entryOf_concat]
  · rw [hlist, Function.update_of_ne (Ne.symm hkey), constantsOf_concat_ne H hkey, hrows key]

theorem load_entry {locale : String} {rows : List Row} {constants : Entries Number Date}
    (h : rows.foldlM (addRow H locale) (fun _ => none) = .ok constants) (key : String) :
    constants key = entryOf (constantsOf H locale rows key) := by
  induction rows using List.reverseRecOn generalizing constants key with
  | nil =>
    cases h
    rfl
  | append_singleton rows row ih =>
    rw [List.foldlM_append] at h
    obtain ⟨before, hbefore, h⟩ := bind_ok h
    rw [List.foldlM_cons] at h
    obtain ⟨after, hrow, h⟩ := bind_ok h
    cases h
    exact addRow_entry H (fun key => ih hbefore key) hrow key

/-- The last sample of a key is all that is left of it. -/
theorem merge_entry {language : String} {samples : List Row} {constants merged : Entries Number Date}
    (h : samples.foldlM (mergeRow H language) constants = .ok merged) (key : String) :
    merged key = (((constantsOf H language samples key).getLast?).map .constant).or (constants key) := by
  induction samples using List.reverseRecOn generalizing merged with
  | nil =>
    cases h
    rfl
  | append_singleton samples row ih =>
    rw [List.foldlM_append] at h
    obtain ⟨before, hbefore, h⟩ := bind_ok h
    rw [List.foldlM_cons] at h
    obtain ⟨after, hrow, h⟩ := bind_ok h
    cases h
    obtain ⟨constant, hparse, hrow⟩ := bind_ok hrow
    obtain rfl := Except.ok.inj hrow
    by_cases hkey : row.key = key
    · subst hkey
      rw [Function.update_self, constantsOf_concat_self H hparse, List.getLast?_concat]
      rfl
    · rw [Function.update_of_ne (Ne.symm hkey), constantsOf_concat_ne H hkey, ih hbefore]

theorem merge_parsed {language : String} {samples : List Row} {constants merged : Entries Number Date}
    (h : samples.foldlM (mergeRow H language) constants = .ok merged) (key : String) :
    constantsOf H language samples key = [] ↔ ∀ sample ∈ samples, sample.key ≠ key := by
  induction samples using List.reverseRecOn generalizing merged with
  | nil => exact iff_of_true rfl nofun
  | append_singleton samples row ih =>
    rw [List.foldlM_append] at h
    obtain ⟨before, hbefore, h⟩ := bind_ok h
    rw [List.foldlM_cons] at h
    obtain ⟨after, hrow, h⟩ := bind_ok h
    obtain ⟨constant, hparse, -⟩ := bind_ok hrow
    by_cases hkey : row.key = key
    · subst hkey
      rw [constantsOf_concat_self H hparse]
      exact iff_of_false (by simp) fun hall => hall row (by simp) rfl
    · rw [constantsOf_concat_ne H hkey, ih hbefore, List.forall_mem_append, List.forall_mem_singleton]
      exact (and_iff_left hkey).symm

theorem entry_iff (locale language : String) (lines : List (List Char)) (samples : List Row) (constants : Entries Number Date)
    (h : allConstants H locale language lines samples = .ok constants) (key : String) :
    Kept H locale language lines samples constants key ↔ ∀ sample ∈ samples, sample.key ≠ key := by
  obtain ⟨loaded, hload, hmerge⟩ := bind_ok h
  rw [Kept, merge_entry H hmerge key, load_entry H hload key, ← merge_parsed H hmerge key]
  constructor
  · intro hkept
    by_contra hne
    obtain ⟨before, last, hlast⟩ := List.eq_nil_or_concat _ |>.resolve_left hne
    rw [hlast, List.concat_eq_append, List.getLast?_concat, ← List.append_assoc, entryOf_concat] at hkept
    cases hkept
  · intro hnil
    rw [hnil, List.append_nil]
    rfl

/-- Texts in the place of numbers and dates. -/
def plain : Host String String where
  number s := s.getD "NaN"
  parseInt s := s.getD "NaN"
  orZero n := if n = "NaN" then "0" else n
  isNaN n := n = "NaN"
  toLocaleString _ n := n
  toCurrencyString _ currency n := .ok (currency ++ n)
  date s := s.getD "Invalid Date"
  toDateString _ d := d
  toLowerCase s := s
  toUpperCase s := s

def stringRow (value : String) : Row := ⟨"String", some value, none⟩

def stringOf (value : String) : Constant String String :=
  ⟨.text value, .text (.text value), none, some ("“" ++ value ++ "”")⟩

theorem entry_iff_unsampled : ∃ constants, allConstants plain "en-US" "en" ["String\tfoo".toList] [] = .ok constants ∧
    (Kept plain "en-US" "en" ["String\tfoo".toList] [] constants "String" ↔
      ∀ sample ∈ ([] : List Row), sample.key ≠ "String") := by
  have hentry : (allConstants plain "en-US" "en" ["String\tfoo".toList] []).toOption.map (· "String") =
      some (some (.list [stringOf "foo"])) := by decide +kernel
  obtain ⟨constants, hconstants, -⟩ := Option.map_eq_some_iff.mp hentry
  have hok := toOption_eq_some.mp hconstants
  exact ⟨constants, hok, entry_iff plain "en-US" "en" ["String\tfoo".toList] [] constants hok "String"⟩

/-- Two constants of the file and two samples: the last sample is left, and it is no list. -/
theorem samples_replace : ∃ constants : Entries String String,
    allConstants plain "en-US" "en" ["String\tfoo".toList, "String\tbar".toList] [stringRow "baz", stringRow "qux"] =
      .ok constants ∧ constants "String" = some (.constant (stringOf "qux")) ∧
    ¬Kept plain "en-US" "en" ["String\tfoo".toList, "String\tbar".toList] [stringRow "baz", stringRow "qux"] constants
      "String" := by
  have hentry : (allConstants plain "en-US" "en" ["String\tfoo".toList, "String\tbar".toList]
      [stringRow "baz", stringRow "qux"]).toOption.map (· "String") = some (some (.constant (stringOf "qux"))) := by
    decide +kernel
  obtain ⟨constants, hconstants, hqux⟩ := Option.map_eq_some_iff.mp hentry
  refine ⟨constants, toOption_eq_some.mp hconstants, hqux, ?_⟩
  intro hkept
  rw [Kept, hqux, entryOf] at hkept
  split at hkept
  · cases hkept
  · cases hkept

end GenieCloud.Training.Constants
