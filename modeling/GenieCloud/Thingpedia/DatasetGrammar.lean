/-
  GenieCloud.Thingpedia.DatasetGrammar — what is relied on of the grammar that reads a dataset.

  A `Grammar` reads the program of an example, and the examples of a dataset. What is known
  of it is how an example is written (`Documented`): blanks, a program, a new line, annotations
  and a semicolon; an annotation has a list of string literals, a number or a string literal.

  The text of a literal goes back and forth with its value by `Body`, of an annotation with
  what it says by `AnnotationText`.
-/

import GenieCloud.Thingpedia.Dataset

namespace GenieCloud.Thingpedia.DatasetGrammar

/-! ## What is read -/

inductive Annotation where
  | strings (key : List Char) (values : List (List Char))
  | number (key literal : List Char)
  | string (key value : List Char)
  deriving DecidableEq, Repr

structure ReadExample (Program : Type) where
  program : Program
  annotations : List Annotation
  deriving DecidableEq, Repr

structure Grammar (Program : Type) where
  program : List Char → Option Program
  dataset : List Char → Option (List (ReadExample Program))

variable {Program : Type}

def ReadExample.strings (ex : ReadExample Program) (key : List Char) : Option (List (List Char)) :=
  ex.annotations.findSome? fun
    | .strings k values => if k = key then some values else none
    | _ => none

def ReadExample.string (ex : ReadExample Program) (key : List Char) : Option (List Char) :=
  ex.annotations.findSome? fun
    | .string k value => if k = key then some value else none
    | _ => none

section Lookup

variable (program : Program) (annotations : List Annotation)

theorem strings_number (k literal key : List Char) :
    ReadExample.strings ⟨program, .number k literal :: annotations⟩ key = ReadExample.strings ⟨program, annotations⟩ key :=
  rfl

theorem strings_string (k value key : List Char) :
    ReadExample.strings ⟨program, .string k value :: annotations⟩ key = ReadExample.strings ⟨program, annotations⟩ key := rfl

theorem strings_self (key : List Char) (values : List (List Char)) :
    ReadExample.strings ⟨program, .strings key values :: annotations⟩ key = some values := by
  simp [ReadExample.strings]

theorem strings_ne {k key : List Char} (h : k ≠ key) (values : List (List Char)) :
    ReadExample.strings ⟨program, .strings k values :: annotations⟩ key = ReadExample.strings ⟨program, annotations⟩ key := by
  simp [ReadExample.strings, h]

theorem string_number (k literal key : List Char) :
    ReadExample.string ⟨program, .number k literal :: annotations⟩ key = ReadExample.string ⟨program, annotations⟩ key := rfl

theorem string_strings (k key : List Char) (values : List (List Char)) :
    ReadExample.string ⟨program, .strings k values :: annotations⟩ key = ReadExample.string ⟨program, annotations⟩ key := rfl

theorem string_self (key value : List Char) :
    ReadExample.string ⟨program, .string key value :: annotations⟩ key = some value := by
  simp [ReadExample.string]

end Lookup

/-! ## How it is written -/

def Blank (text : List Char) : Prop := ∀ c ∈ text, isBlank c = true

/-- What stands between the quotes. -/
inductive Body : List Char → List Char → Prop
  | nil : Body [] []
  | plain (c : Char) (text value : List Char) : c ≠ '"' → c ≠ '\\' → c ≠ '\n' → Body text value →
      Body (c :: text) (c :: value)
  | quote (text value : List Char) : Body text value → Body ('\\' :: '"' :: text) ('"' :: value)
  | backslash (text value : List Char) : Body text value → Body ('\\' :: '\\' :: text) ('\\' :: value)
  | newline (text value : List Char) : Body text value → Body ('\\' :: 'n' :: text) ('\n' :: value)

def Literal (text value : List Char) : Prop := ∃ body, text = '"' :: (body ++ ['"']) ∧ Body body value

inductive Literals : List Char → List (List Char) → Prop
  | nil : Literals [] []
  | single (text value : List Char) : Literal text value → Literals text [value]
  | cons (text value blanks texts : List Char) (v : List Char) (values : List (List Char)) : Literal text value →
      Blank blanks → Literals texts (v :: values) → Literals (text ++ ',' :: (blanks ++ texts)) (value :: v :: values)

def IsKey (key : List Char) : Prop := key ≠ [] ∧ ∀ c ∈ key, (c.isAlpha || c == '_') = true

def IsNumeral (literal : List Char) : Prop := literal ≠ [] ∧ ∀ c ∈ literal, (c.isDigit || c == '-') = true

inductive AnnotationText : List Char → Annotation → Prop
  | strings (key texts : List Char) (values : List (List Char)) : IsKey key → Literals texts values →
      AnnotationText ("#_[".toList ++ (key ++ ("=[".toList ++ (texts ++ "]]".toList)))) (.strings key values)
  | number (key literal : List Char) : IsKey key → IsNumeral literal →
      AnnotationText ("#[".toList ++ (key ++ ('=' :: (literal ++ [']'])))) (.number key literal)
  | string (key text value : List Char) : IsKey key → Literal text value →
      AnnotationText ("#[".toList ++ (key ++ ('=' :: (text ++ [']'])))) (.string key value)

inductive Annotations : List Char → List Annotation → Prop
  | nil (blanks : List Char) : Blank blanks → Annotations blanks []
  | cons (blanks text texts : List Char) (a : Annotation) (annotations : List Annotation) : Blank blanks →
      AnnotationText text a → Annotations texts annotations → Annotations (blanks ++ (text ++ texts)) (a :: annotations)

structure Documented (G : Grammar Program) : Prop where
  empty : G.program [] = none
  nil : ∀ text, Blank text → G.dataset text = some []
  cons : ∀ blanks text program texts annotations rest examples, Blank blanks → G.program text = some program →
    Annotations texts annotations → G.dataset rest = some examples →
    G.dataset (blanks ++ (text ++ '\n' :: (texts ++ ';' :: rest))) = some (⟨program, annotations⟩ :: examples)

theorem blank_of_all {text : List Char} (h : text.all isBlank = true) : Blank text := List.all_eq_true.mp h

theorem isKey_of_all {key : List Char} (hne : key ≠ []) (h : (key.all fun c => c.isAlpha || c == '_') = true) : IsKey key :=
  ⟨hne, List.all_eq_true.mp h⟩

/-! ## What `stringEscape` and `toString` write -/

theorem body_escape (cs : List Char) : Body (cs.flatMap fun c =>
    if c = '"' || c = '\\' then ['\\', c] else if c = '\n' then ['\\', 'n'] else [c]) cs := by
  induction cs with
  | nil => exact .nil
  | cons c cs ih =>
    rw [List.flatMap_cons]
    by_cases hquote : c = '"'
    · subst hquote
      exact .quote _ _ ih
    · by_cases hbackslash : c = '\\'
      · subst hbackslash
        exact .backslash _ _ ih
      · by_cases hnewline : c = '\n'
        · subst hnewline
          exact .newline _ _ ih
        · rw [if_neg (by simp [hquote, hbackslash]), if_neg hnewline]
          exact .plain c _ _ hquote hbackslash hnewline ih

theorem literal_stringEscape (s : String) : Literal (stringEscape s).toList s.toList := by
  refine ⟨_, ?_, body_escape s.toList⟩
  simp only [stringEscape, String.toList_append, String.toList_ofList]
  rfl

/-- Strings written with commas, and blanks after them. -/
theorem literals_intercalate {blanks : List Char} (hblanks : Blank blanks) (values : List String) :
    Literals ((',' :: blanks).intercalate (values.map (String.toList ∘ stringEscape))) (values.map String.toList) := by
  induction values with
  | nil => exact .nil
  | cons s values ih =>
    cases values with
    | nil =>
      rw [List.map_singleton, List.map_singleton, List.intercalate_singleton]
      exact .single _ _ (literal_stringEscape s)
    | cons s' values =>
      rw [List.map_cons, List.intercalate_cons_of_ne_nil (by simp), List.append_assoc]
      exact .cons _ _ blanks _ _ _ (literal_stringEscape s) hblanks ih

theorem isNumeral_nat (n : Nat) : IsNumeral (toString n).toList := by
  have hdigits : (toString n).toList = Nat.toDigits 10 n := Nat.toList_repr
  rw [hdigits]
  refine ⟨Nat.toDigits_ne_nil, fun c hc => ?_⟩
  have hc : c.isDigit = true := Nat.isDigit_of_mem_toDigits (by decide) (by decide) hc
  rw [hc, Bool.true_or]

theorem isNumeral_int (i : Int) : IsNumeral (toString i).toList := by
  cases i with
  | ofNat n => exact isNumeral_nat n
  | negSucc n =>
    have hminus : (toString (Int.negSucc n)).toList = '-' :: (toString (n + 1)).toList := by
      show ("-" ++ toString (n + 1)).toList = _
      rw [String.toList_append]
      rfl
    rw [hminus]
    refine ⟨by simp, fun c hc => ?_⟩
    rcases List.mem_cons.mp hc with rfl | hc
    · rfl
    · exact (isNumeral_nat (n + 1)).2 c hc

end GenieCloud.Thingpedia.DatasetGrammar
