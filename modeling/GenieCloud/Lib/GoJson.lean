/-
  GenieCloud.Lib.GoJson — JSON as Go's `encoding/json` reads it. The text is checked first;
  then what it says is decoded into a value that is already there (`unmarshal`).

  A decoder takes the value to fill and a piece of JSON, and says what it leaves and whether
  every piece had its type. One that has not is passed over: what stood there stays, and the rest
  is decoded all the same. A null leaves a string, a number or a struct as it is. A slice
  is decoded into the array under it, whose elements may be there from before.

  `Reads`: which JSON a decoder takes without an error, whatever stood there. The rules say
  it for every decoder (`slice_reads`, `struct_reads`, ..), and `unmarshal_ok_iff` for a text.

  The text is in characters, with U+FFFD for bytes that are none. Numbers stay the literals
  they are until their type is known; `parseFloat` is `strconv.ParseFloat`, `none` on an error.
-/

import GenieCloud.Lib.Json

namespace GenieCloud.Lib.GoJson

open GenieCloud.Lib.Utf16
open GenieCloud.Lib.Json (skip mark)

/-- A number is its literal. -/
abbrev Tree := Json.Value String

/-! ## The text -/

/-- A lone surrogate becomes U+FFFD. -/
def runeOf (u : Nat) : Char := if isHigh u || isLow u then Char.ofNat 0xfffd else Char.ofNat u

def runes : List Nat → List Char
  | [] => []
  | [u] => [runeOf u]
  | u :: v :: us =>
    if isHigh u && isLow v then Char.ofNat (0x10000 + (u - 0xD800) * 0x400 + (v - 0xDC00)) :: runes us
    else runeOf u :: runes (v :: us)

/-- A string, after its opening mark. -/
def string (cs : List Char) : Option (String × List Char) := do
  let (us, r) ← Json.body cs.length cs
  return (String.ofList (runes us), r)

def name (cs : List Char) : Option (String × List Char) :=
  match skip cs with
  | [] => none
  | c :: r =>
    if c = mark then do
      let (k, r) ← string r
      match skip r with
      | ':' :: r => return (k, r)
      | _ => none
    else none

def digits (cs : List Char) : Option (List Char × List Char) :=
  match cs.takeWhile Char.isDigit with
  | [] => none
  | ds => some (ds, cs.dropWhile Char.isDigit)

def sign : List Char → List Char × List Char
  | '-' :: r => (['-'], r)
  | cs => ([], cs)

def integer : List Char → Option (List Char × List Char)
  | '0' :: r => some (['0'], r)
  | cs => digits cs

def fraction : List Char → Option (List Char × List Char)
  | '.' :: r => (digits r).map fun (ds, r) => ('.' :: ds, r)
  | cs => some ([], cs)

def exponent : List Char → Option (List Char × List Char)
  | c :: r =>
    if c = 'e' ∨ c = 'E' then
      match r with
      | '+' :: r => (digits r).map fun (ds, r) => (c :: '+' :: ds, r)
      | '-' :: r => (digits r).map fun (ds, r) => (c :: '-' :: ds, r)
      | r => (digits r).map fun (ds, r) => (c :: ds, r)
    else some ([], c :: r)
  | [] => some ([], [])

def number (cs : List Char) : Option (Tree × List Char) := do
  let (s, r) := sign cs
  let (i, r) ← integer r
  let (f, r) ← fraction r
  let (e, r) ← exponent r
  return (.num (String.ofList (s ++ i ++ f ++ e)), r)

mutual

/-- The value at the front, with so many brackets left to open, and what follows it. -/
def value : (fuel depth : Nat) → List Char → Option (Tree × List Char)
  | 0, _, _ => none
  | fuel + 1, depth, cs =>
    match skip cs with
    | [] => none
    | c :: r =>
      if c = mark then do
        let (s, r) ← string r
        return (.str s, r)
      else if c = '[' then
        if depth = 0 then none
        else if (skip r).head? = some ']' then some (.arr [], (skip r).tail)
        else do
          let (x, r) ← value fuel (depth - 1) r
          let (xs, r) ← elements fuel (depth - 1) r
          return (.arr (x :: xs), r)
      else if c = '{' then
        if depth = 0 then none
        else if (skip r).head? = some '}' then some (.obj [], (skip r).tail)
        else do
          let (k, r) ← name r
          let (x, r) ← value fuel (depth - 1) r
          let (fs, r) ← fields fuel (depth - 1) r
          return (.obj ((k, x) :: fs), r)
      else if c = '-' ∨ c.isDigit = true then number (c :: r)
      else Json.word (c :: r)

def elements : (fuel depth : Nat) → List Char → Option (List Tree × List Char)
  | 0, _, _ => none
  | fuel + 1, depth, cs =>
    match skip cs with
    | ']' :: r => some ([], r)
    | ',' :: r => do
      let (x, r) ← value fuel depth r
      let (xs, r) ← elements fuel depth r
      return (x :: xs, r)
    | _ => none

def fields : (fuel depth : Nat) → List Char → Option (List (String × Tree) × List Char)
  | 0, _, _ => none
  | fuel + 1, depth, cs =>
    match skip cs with
    | '}' :: r => some ([], r)
    | ',' :: r => do
      let (k, r) ← name r
      let (x, r) ← value fuel depth r
      let (fs, r) ← fields fuel depth r
      return ((k, x) :: fs, r)
    | _ => none

end

/-- `maxNestingDepth` -/
def maxNestingDepth : Nat := 10000

/-- Each step takes a character, so that the length is fuel enough. -/
def parse (s : String) : Option Tree := do
  let (j, r) ← value s.toList.length maxNestingDepth s.toList
  if (skip r).isEmpty then some j else none

/-! ## Decoders -/

abbrev Decoder (α : Type) := α → Tree → α × Bool

namespace Decoder

variable {α σ F : Type}

def string : Decoder String
  | _, .str s => (s, true)
  | old, .null => (old, true)
  | old, _ => (old, false)

/-- `ParseInt` in base ten with 64 bits. -/
def parseInt (literal : String) : Option Int :=
  let (s, r) := sign literal.toList
  match r.takeWhile Char.isDigit, r.dropWhile Char.isDigit with
  | [], _ => none
  | ds, [] =>
    let n : Int := ds.foldl (fun n c => n * 10 + (c.toNat - '0'.toNat)) 0
    let n := if s = [] then n else -n
    if -9223372036854775808 ≤ n ∧ n ≤ 9223372036854775807 then some n else none
  | _, _ => none

def int : Decoder Int
  | old, .num literal =>
    match parseInt literal with
    | some n => (n, true)
    | none => (old, false)
  | old, .null => (old, true)
  | old, _ => (old, false)

end Decoder

/-- What an empty interface holds. A map is the list of its keys and elements. -/
inductive Any (F : Type) where
  | nil
  | bool (b : Bool)
  | number (f : F)
  | string (s : String)
  | slice (elements : List (Any F))
  | map (entries : List (String × Any F))

/-- `m[key] = element` -/
def assign {F : Type} (entries : List (String × Any F)) (key : String) (element : Any F) : List (String × Any F) :=
  entries.filter (·.1 ≠ key) ++ [(key, element)]

mutual

/-- A value for an empty interface. A number out of range in it is nil. -/
def any {F : Type} (parseFloat : String → Option F) : Tree → Any F × Bool
  | .null => (.nil, true)
  | .bool b => (.bool b, true)
  | .num literal =>
    match parseFloat literal with
    | some f => (.number f, true)
    | none => (.nil, false)
  | .str s => (.string s, true)
  | .arr xs =>
    let (elements, ok) := anyElements parseFloat xs
    (.slice elements, ok)
  | .obj fs =>
    let (entries, ok) := anyFields parseFloat [] fs
    (.map entries, ok)

def anyElements {F : Type} (parseFloat : String → Option F) : List Tree → List (Any F) × Bool
  | [] => ([], true)
  | x :: xs =>
    let (element, ok) := any parseFloat x
    let (elements, oks) := anyElements parseFloat xs
    (element :: elements, ok && oks)

def anyFields {F : Type} (parseFloat : String → Option F) (entries : List (String × Any F)) :
    List (String × Tree) → List (String × Any F) × Bool
  | [] => (entries, true)
  | (key, x) :: fs =>
    let (element, ok) := any parseFloat x
    let (entries, oks) := anyFields parseFloat (assign entries key element) fs
    (entries, ok && oks)

end

/-- A slice: the array under it, and how much of it is in the slice. -/
structure Slice (α : Type) where
  array : List α
  length : Nat

def Slice.toList {α : Type} (s : Slice α) : List α := s.array.take s.length

/-- A field of a struct, by the name it has in JSON. -/
structure StructField (σ : Type) where
  name : String
  decode : Decoder σ

def StructField.of {α σ : Type} (name : String) (get : σ → α) (set : σ → α → σ) (dec : Decoder α) : StructField σ where
  name := name
  decode old t := let (a, ok) := dec (get old) t; (set old a, ok)

/-- Letters of one case, the long s and the Kelvin sign among them. -/
def foldRune (c : Char) : Char :=
  if c = Char.ofNat 0x17f then 's' else if c = Char.ofNat 0x212a then 'k' else c.toLower

def equalFold (s t : String) : Bool := s.toList.map foldRune = t.toList.map foldRune

/-- The field of this very name, or else the first one of its letters. -/
def field? {σ : Type} (fields : List (StructField σ)) (key : String) : Option (StructField σ) :=
  (fields.find? (·.name = key)).or (fields.find? fun f => equalFold f.name key)

namespace Decoder

variable {α σ F : Type}

/-- An empty interface. A number out of range leaves it as it is. -/
def interface (parseFloat : String → Option F) : Decoder (Any F)
  | old, .num literal =>
    match parseFloat literal with
    | some f => (.number f, true)
    | none => (old, false)
  | _, t => any parseFloat t

/-- Elements over those of an array. Past its end they start from zero. -/
def elements (dec : Decoder α) (zero : α) : List α → List Tree → List α × Bool
  | _, [] => ([], true)
  | array, t :: ts =>
    let (a, ok) := dec (array.headD zero) t
    let (as, oks) := elements dec zero array.tail ts
    (a :: as, ok && oks)

def slice (dec : Decoder α) (zero : α) : Decoder (Slice α)
  | _, .arr [] => (⟨[], 0⟩, true)
  | old, .arr ts =>
    let (as, ok) := elements dec zero old.array ts
    (⟨as ++ old.array.drop ts.length, ts.length⟩, ok)
  | _, .null => (⟨[], 0⟩, true)
  | old, _ => (old, false)

/-- The fields of an object, in its order. A field that the struct does not have is skipped. -/
def members (fields : List (StructField σ)) : σ → List (String × Tree) → σ × Bool
  | old, [] => (old, true)
  | old, (key, t) :: fs =>
    match field? fields key with
    | none => members fields old fs
    | some f =>
      let (new, ok) := f.decode old t
      let (new, oks) := members fields new fs
      (new, ok && oks)

def struct (fields : List (StructField σ)) : Decoder σ
  | old, .obj fs => members fields old fs
  | old, .null => (old, true)
  | old, _ => (old, false)

end Decoder

/-- `Unmarshal` into a value: what it is afterwards, and whether there was no error. -/
def unmarshal {α : Type} (dec : Decoder α) (old : α) (text : String) : α × Bool :=
  match parse text with
  | some t => dec old t
  | none => (old, false)

/-- Text that is not JSON changes nothing. -/
theorem unmarshal_none {α : Type} {dec : Decoder α} {old : α} {text : String} (h : parse text = none) :
    unmarshal dec old text = (old, false) := by
  rw [unmarshal, h]

/-! ## What a decoder takes -/

section Reads

variable {α σ F : Type} {dec : Decoder α} {P Q : Tree → Prop} {t : Tree}

/-- There is no error exactly if the JSON is such, whatever stood there before. -/
def Reads (dec : Decoder α) (P : Tree → Prop) : Prop := ∀ old t, (dec old t).2 = true ↔ P t

theorem Reads.congr (h : Reads dec P) (hPQ : ∀ t, P t ↔ Q t) : Reads dec Q := fun old t => (h old t).trans (hPQ t)

/-- A null passes for anything. -/
def IsString (t : Tree) : Prop := t = .null ∨ ∃ s, t = .str s

def IsInt (t : Tree) : Prop := t = .null ∨ ∃ literal n, t = .num literal ∧ Decoder.parseInt literal = some n

def IsListOf (P : Tree → Prop) (t : Tree) : Prop := t = .null ∨ ∃ ts, t = .arr ts ∧ ∀ t ∈ ts, P t

/-- Each member of an object that has a field is such as the field takes. -/
def IsStructOf (fields : List (StructField σ)) (P : String → Tree → Prop) (t : Tree) : Prop :=
  t = .null ∨ ∃ fs, t = .obj fs ∧ ∀ m ∈ fs, ∀ f, field? fields m.1 = some f → P f.name m.2

mutual

/-- The literals of the numbers in a piece of JSON. -/
def numbers : Tree → List String
  | .num literal => [literal]
  | .arr xs => numbersOfElements xs
  | .obj fs => numbersOfFields fs
  | _ => []

def numbersOfElements : List Tree → List String
  | [] => []
  | x :: xs => numbers x ++ numbersOfElements xs

def numbersOfFields : List (String × Tree) → List String
  | [] => []
  | (_, x) :: fs => numbers x ++ numbersOfFields fs

end

variable (parseFloat : String → Option F)

/-- Every number is in range. -/
def InRange (t : Tree) : Prop := ∀ literal ∈ numbers t, (parseFloat literal).isSome = true

theorem string_reads : Reads .string IsString := by
  intro old t
  cases t <;> simp [Decoder.string, IsString]

theorem int_reads : Reads .int IsInt := by
  intro old t
  cases t with
  | num literal =>
    cases h : Decoder.parseInt literal with
    | none => simp [Decoder.int, IsInt, h]
    | some n => simp [Decoder.int, IsInt, h]
  | _ => simp [Decoder.int, IsInt]

mutual

theorem any_ok (t : Tree) : (any parseFloat t).2 = true ↔ ∀ literal ∈ numbers t, (parseFloat literal).isSome = true := by
  cases t with
  | num literal => cases h : parseFloat literal <;> simp [any, numbers, h]
  | arr xs => simpa only [any, numbers] using anyElements_ok xs
  | obj fs => simpa only [any, numbers] using anyFields_ok [] fs
  | _ => simp [any, numbers]

theorem anyElements_ok (ts : List Tree) :
    (anyElements parseFloat ts).2 = true ↔ ∀ literal ∈ numbersOfElements ts, (parseFloat literal).isSome = true := by
  cases ts with
  | nil => simp [anyElements, numbersOfElements]
  | cons t ts =>
    simp only [anyElements, numbersOfElements, Bool.and_eq_true, List.forall_mem_append]
    exact and_congr (any_ok t) (anyElements_ok ts)

theorem anyFields_ok (entries : List (String × Any F)) (fs : List (String × Tree)) :
    (anyFields parseFloat entries fs).2 = true ↔ ∀ literal ∈ numbersOfFields fs, (parseFloat literal).isSome = true := by
  cases fs with
  | nil => simp [anyFields, numbersOfFields]
  | cons m fs =>
    simp only [anyFields, numbersOfFields, Bool.and_eq_true, List.forall_mem_append]
    exact and_congr (any_ok m.2) (anyFields_ok _ fs)

end

theorem interface_reads : Reads (.interface parseFloat) (InRange parseFloat) := by
  intro old t
  cases t with
  | num literal => cases h : parseFloat literal <;> simp [Decoder.interface, InRange, numbers, h]
  | _ => exact any_ok parseFloat _

omit parseFloat

theorem elements_ok (h : Reads dec P) (zero : α) (array : List α) (ts : List Tree) :
    (Decoder.elements dec zero array ts).2 = true ↔ ∀ t ∈ ts, P t := by
  induction ts generalizing array with
  | nil => simp [Decoder.elements]
  | cons t ts ih =>
    simp only [Decoder.elements, Bool.and_eq_true, List.forall_mem_cons]
    exact and_congr (h _ t) (ih _)

theorem slice_reads (h : Reads dec P) (zero : α) : Reads (.slice dec zero) (IsListOf P) := by
  intro old t
  cases t with
  | arr ts =>
    have hok : (Decoder.slice dec zero old (.arr ts)).2 = true ↔ ∀ t ∈ ts, P t := by
      cases ts with
      | nil => simp [Decoder.slice]
      | cons t ts => exact elements_ok h zero old.array (t :: ts)
    simp [hok, IsListOf]
  | _ => simp [Decoder.slice, IsListOf]

theorem field?_mem {fields : List (StructField σ)} {key : String} {f : StructField σ} (h : field? fields key = some f) :
    f ∈ fields := by
  rcases Option.or_eq_some_iff.mp h with h | ⟨-, h⟩
  · exact List.mem_of_find?_eq_some h
  · exact List.mem_of_find?_eq_some h

theorem struct_reads {fields : List (StructField σ)} {P : String → Tree → Prop}
    (h : ∀ f ∈ fields, Reads f.decode (P f.name)) : Reads (.struct fields) (IsStructOf fields P) := by
  have hmembers : ∀ (fs : List (String × Tree)) (old : σ), (Decoder.members fields old fs).2 = true ↔
      ∀ m ∈ fs, ∀ f, field? fields m.1 = some f → P f.name m.2 := by
    intro fs
    induction fs with
    | nil => simp [Decoder.members]
    | cons m fs ih =>
      intro old
      rw [List.forall_mem_cons, Decoder.members]
      cases hf : field? fields m.1 with
      | none => simpa using ih old
      | some f =>
        simp only [Bool.and_eq_true, ih, h f (field?_mem hf) old m.2, Option.some.injEq, forall_eq']
  intro old t
  cases t with
  | obj fs => simp [Decoder.struct, IsStructOf, hmembers]
  | _ => simp [Decoder.struct, IsStructOf]

theorem of_reads (h : Reads dec P) (name : String) (get : σ → α) (set : σ → α → σ) :
    Reads (StructField.of name get set dec).decode P := fun old t => h (get old) t

theorem unmarshal_ok_iff (h : Reads dec P) (old : α) (text : String) :
    (unmarshal dec old text).2 = true ↔ ∃ t, parse text = some t ∧ P t := by
  rw [unmarshal]
  cases parse text with
  | none => simp
  | some t => simpa using h old t

end Reads

end GenieCloud.Lib.GoJson
