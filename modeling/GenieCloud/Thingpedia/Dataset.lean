/-
  GenieCloud.Thingpedia.Dataset — the text of the datasets that are served
  (`util/dataset.ts`, `stringEscape` of `util/escaping.ts`).

  Rows with one program are one example: it has the id and the counts of the first of
  them, the utterances of all, and the first name there is. A dataset for a client that
  needs compatibility is checked against the schemas that an admin sees, and printed in
  the old syntax.
-/

import GenieCloud.Thingpedia.Queries

namespace GenieCloud.Thingpedia

open GenieCloud.Lib

/-- What is used of the ThingTalk package; `Ast` stands for its libraries. -/
structure ThingTalk (V Ast : Type) where
  /-- `parseOldOrNewSyntax`. -/
  parse : String → Except Failure Ast
  serialize : Ast → String → Except Failure String
  /-- `schemaListToClassDefs`. -/
  classDefs : List SchemaTypes → Except Failure Ast
  /-- `mergeClassDefAndSchema`, which reads the queries and actions of the schema. -/
  merge : Ast → Record (SchemaChannelMetadata V) → Record (SchemaChannelMetadata V) → Except Failure Ast
  /-- The program of an example in the old syntax, printed in the new one. -/
  fromLegacy : String → Except Failure String
  /-- The kinds that a program names. -/
  kindsOf : String → List String
  /-- Type checks a dataset in a language, with the classes of the kinds it names, and
      prints it for a version. -/
  downgrade : String → String → String → List (String × Except Failure String) → Except Failure String

/-! ## Texts -/

/-- The text without any copy of a part; `skip` characters of one are still to go. -/
def removeAll (part : List Char) : Nat → List Char → List Char
  | _, [] => []
  | skip + 1, _ :: cs => removeAll part skip cs
  | 0, c :: cs => if part.isPrefixOf (c :: cs) then removeAll part (part.length - 1) cs else c :: removeAll part 0 cs

def isSubstring (part : List Char) : List Char → Bool
  | [] => part.isEmpty
  | c :: cs => part.isPrefixOf (c :: cs) || isSubstring part cs

/-- What `trim` strips. -/
def isSpace (c : Char) : Bool :=
  [9, 10, 11, 12, 13, 32, 0xa0, 0x1680, 0x2028, 0x2029, 0x202f, 0x205f, 0x3000, 0xfeff].contains c.toNat ||
    (0x2000 ≤ c.toNat && c.toNat ≤ 0x200a)

def trim (cs : List Char) : List Char := ((cs.dropWhile isSpace).reverse.dropWhile isSpace).reverse

def isBlank (c : Char) : Bool := [' ', '\r', '\n', '\t', Char.ofNat 11].contains c

def dropSemicolon (cs : List Char) : List Char :=
  match cs.reverse.dropWhile isBlank with
  | ';' :: rest => (rest.dropWhile isBlank).reverse
  | _ => cs

def stringEscape (s : String) : String :=
  "\"" ++ String.ofList (s.toList.flatMap fun c =>
    if c = '"' || c = '\\' then ['\\', c] else if c = '\n' then ['\\', 'n'] else [c]) ++ "\""

/-! ## Rows -/

structure CoalescedExample where
  id : Nat
  utterances : List String
  preprocessed : List String
  click_count : Int
  like_count : Int
  name : Option String
  deriving DecidableEq, Repr

def CoalescedExample.first (row : TemplateRow) : CoalescedExample where
  id := row.id
  utterances := [row.utterance]
  preprocessed := [row.preprocessed]
  click_count := row.click_count
  like_count := row.like_count
  name := row.name

def CoalescedExample.push (ex : CoalescedExample) (row : TemplateRow) : CoalescedExample :=
  { ex with
    utterances := ex.utterances ++ [row.utterance]
    preprocessed := ex.preprocessed ++ [row.preprocessed]
    name := if row.name.any (· ≠ "") && !ex.name.any (· ≠ "") then row.name else ex.name }

variable {V Ast : Type} (T : ThingTalk V Ast)

def targetCode (code : String) : Except Failure String := do
  let code ← if isSubstring [':', '='] code.toList then
      (T.fromLegacy code).map fun printed => String.ofList (trim (removeAll "#_[utterances=[]]".toList 0 printed.toList))
    else .ok code
  return String.ofList (dropSemicolon code.toList)

/-- `uniqueCode`, in the order in which its keys came. -/
def addRow (uniqueCode : List (String × CoalescedExample)) (row : TemplateRow) :
    Except Failure (List (String × CoalescedExample)) := do
  if row.target_code = "" then .error (.internal "E_DATASET_CORRUPT")
  let code ← targetCode T row.target_code
  return if uniqueCode.any (·.1 = code) then uniqueCode.map fun x => if x.1 = code then (code, x.2.push row) else x
    else uniqueCode ++ [(code, .first row)]

def printExample (editMode skipId : Bool) (code : String) (ex : CoalescedExample) : String :=
  let name := "  #[name=" ++ stringEscape (ex.name.getD "") ++ "];\n"
  if editMode then
    "  " ++ code ++ "\n  #_[utterances=[" ++
      String.intercalate (",\n" ++ String.ofList (List.replicate 19 ' ')) (ex.utterances.map stringEscape) ++ "]]\n" ++
      (if skipId then "" else "  #[id=" ++ toString ex.id ++ "]\n") ++ name ++ "\n"
  else
    "  " ++ code ++ "\n  #_[utterances=[" ++ String.intercalate "," (ex.utterances.map stringEscape) ++ "]]\n" ++
      "  #_[preprocessed=[" ++ String.intercalate "," (ex.preprocessed.map stringEscape) ++ "]]\n" ++
      "  #[id=" ++ toString ex.id ++ "] #[click_count=" ++ toString ex.click_count ++ "] #[like_count=" ++
      toString ex.like_count ++ "]\n" ++ name

def rowsToExamples (rows : List TemplateRow) (editMode skipId : Bool) : Except Failure String := do
  let uniqueCode ← rows.foldlM (addRow T) []
  return String.join (uniqueCode.map fun x => printExample editMode skipId x.1 x.2)

/-- `schemas` is what the retriever gets for a kind; `compatibility` is the version to
    print for, if the client needs it. -/
def examplesToDataset (schemas : String → Except Failure String) (name language : String) (rows : List TemplateRow)
    (compatibility : Option String) (editMode skipId : Bool) : Except Failure String := do
  let examples ← rowsToExamples T rows editMode skipId
  let code := "dataset @" ++ name ++ "\n#[language=\"" ++ language ++ "\"] \x7b\n" ++ examples ++ "\x7d"
  match compatibility with
  | some version => T.downgrade language code version ((rows.flatMap fun row => T.kindsOf row.target_code).map fun k => (k, schemas k))
  | none => return code

end GenieCloud.Thingpedia
