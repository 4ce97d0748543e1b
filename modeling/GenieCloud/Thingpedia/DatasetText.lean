/-
  GenieCloud.Thingpedia.DatasetText — what the text of the examples says (`rowsToExamples` of
  util/dataset.ts).

  Rows whose programs differ in the semicolon at the end are one example. What is read back
  is compared with the rows themselves: `IsOf` is an example of some rows, and `ReadsBack`
  a text with an example for each program, in the order in which the programs came.

  Proved:
  - `Grouped.add` / `rowsToExamples_grouped`: one row, and all of them, keep the groups.
  - `writtenText_written` / `dataset_printed`: what is printed is read as it was written.
  - `rowsToExamples_reads_back`: the examples that are read are those of the rows, and outside
    of the edit mode they have the preprocessed sentences too.
  - `Lossless.length_eq` / `Lossless.editMode_eq`: blanks without a semicolon tell programs
    apart, and the edit mode leaves sentences out.
-/

import GenieCloud.Thingpedia.DatasetTokens
import Mathlib.Data.List.Induction

namespace GenieCloud.Thingpedia.DatasetText

open GenieCloud.Lib DatasetGrammar

variable {V Ast Program : Type}

/-! ## Rows with one program -/

/-- The program of a row, without the semicolon at its end. -/
def targetProgram (row : TemplateRow) : String := String.ofList (dropSemicolon row.target_code.toList)

/-- The row goes to the parser of the old syntax. -/
def HasAssign (row : TemplateRow) : Prop := isSubstring [':', '='] row.target_code.toList = true

instance : DecidablePred HasAssign := fun row =>
  inferInstanceAs (Decidable (isSubstring [':', '='] row.target_code.toList = true))

/-- And without the blanks at its end. -/
def bareProgram (row : TemplateRow) : String := String.ofList ((targetProgram row).toList.reverse.dropWhile isBlank).reverse

def firstName (rows : List TemplateRow) : String := ((rows.map fun row => row.name.getD "").find? (· ≠ "")).getD ""

/-- An example that says what these rows say, but for the preprocessed sentences. -/
structure IsOf (G : Grammar Program) (code : String) (rows : List TemplateRow) (ex : ReadExample Program) : Prop where
  program : G.program code.toList = some ex.program
  utterances : ex.strings "utterances".toList = some (rows.map (·.utterance.toList))
  name : ex.string "name".toList = some (firstName rows).toList

def HasPreprocessed (rows : List TemplateRow) (ex : ReadExample Program) : Prop :=
  ex.strings "preprocessed".toList = some (rows.map (·.preprocessed.toList))

/-- One example for each program that `key` tells apart, in the order of the first row of each. -/
def ReadsBack (G : Grammar Program) (key : TemplateRow → String) (preprocessed : Prop) (rows : List TemplateRow)
    (text : String) : Prop :=
  ∃ examples, G.dataset text.toList = some examples ∧
    List.Forall₂ (fun code ex => IsOf G code (rows.filter (key · = code)) ex ∧
      (preprocessed → HasPreprocessed (rows.filter (key · = code)) ex)) (rows.map key).eraseDups examples

/-- Coalescing loses nothing. -/
def Lossless (G : Grammar Program) (T : ThingTalk V Ast) (rows : List TemplateRow) (editMode skipId : Bool) : Prop :=
  ∃ text, rowsToExamples T rows editMode skipId = .ok text ∧ ReadsBack G bareProgram True rows text

/-! ## Coalescing -/

structure Coalesced (ex : CoalescedExample) (rows : List TemplateRow) : Prop where
  utterances : ex.utterances = rows.map (·.utterance)
  preprocessed : ex.preprocessed = rows.map (·.preprocessed)
  name : ex.name.getD "" = firstName rows

theorem Coalesced.first (row : TemplateRow) : Coalesced (.first row) [row] where
  utterances := rfl
  preprocessed := rfl
  name := by
    by_cases h : row.name.getD "" = ""
    · simp [CoalescedExample.first, firstName, h]
    · simp [CoalescedExample.first, firstName, h]

theorem firstName_concat (rows : List TemplateRow) (row : TemplateRow) :
    firstName (rows ++ [row]) = if firstName rows = "" then row.name.getD "" else firstName rows := by
  rw [firstName, firstName, List.map_append, List.find?_append]
  cases h : (rows.map fun row => row.name.getD "").find? (· ≠ "") with
  | none =>
    by_cases hrow : row.name.getD "" = ""
    · simp [hrow]
    · simp [hrow]
  | some name =>
    have hname : name ≠ "" := by simpa using List.find?_some h
    simp [hname]

theorem Coalesced.push {ex : CoalescedExample} {rows : List TemplateRow} (h : Coalesced ex rows) (row : TemplateRow) :
    Coalesced (ex.push row) (rows ++ [row]) where
  utterances := by simp [CoalescedExample.push, h.utterances]
  preprocessed := by simp [CoalescedExample.push, h.preprocessed]
  name := by
    have hany : ∀ name : Option String, name.any (· ≠ "") = decide (name.getD "" ≠ "") := by
      intro name
      cases name <;> simp
    rw [firstName_concat, ← h.name]
    simp only [CoalescedExample.push, hany]
    by_cases hex : ex.name.getD "" = ""
    · by_cases hrow : row.name.getD "" = ""
      · simp [hex, hrow]
      · simp [hex, hrow]
    · simp [hex]

/-- What the loop has of the rows so far. -/
structure Grouped (uniqueCode : List (String × CoalescedExample)) (rows : List TemplateRow) : Prop where
  keys : uniqueCode.map (·.1) = (rows.map targetProgram).eraseDups
  coalesced : ∀ x ∈ uniqueCode, Coalesced x.2 (rows.filter (targetProgram · = x.1))

theorem eraseDups_concat (as : List String) (a : String) :
    (as ++ [a]).eraseDups = if a ∈ as then as.eraseDups else as.eraseDups ++ [a] := by
  rw [List.eraseDups_append]
  by_cases h : a ∈ as
  · simp [List.removeAll, h]
  · simp [List.removeAll, h, List.eraseDups_cons]

theorem targetCode_current (T : ThingTalk V Ast) {row : TemplateRow} (h : ¬HasAssign row) :
    targetCode T row.target_code = .ok (targetProgram row) := by
  rw [targetCode]
  exact (if_neg h).trans rfl

theorem addRow_current (T : ThingTalk V Ast) (uniqueCode : List (String × CoalescedExample)) {row : TemplateRow}
    (hcode : row.target_code ≠ "") (hassign : ¬HasAssign row) :
    addRow T uniqueCode row = .ok (if uniqueCode.any (·.1 = targetProgram row) then
      uniqueCode.map fun x => if x.1 = targetProgram row then (targetProgram row, x.2.push row) else x
      else uniqueCode ++ [(targetProgram row, .first row)]) := by
  rw [addRow]
  refine (if_neg hcode).trans ?_
  rw [targetCode_current T hassign]
  rfl

/-- The row is added to the example with its program, or is the first with it. -/
theorem Grouped.add {uniqueCode : List (String × CoalescedExample)} {rows : List TemplateRow} (h : Grouped uniqueCode rows)
    (row : TemplateRow) : Grouped (if uniqueCode.any (·.1 = targetProgram row) then
      uniqueCode.map fun x => if x.1 = targetProgram row then (targetProgram row, x.2.push row) else x
      else uniqueCode ++ [(targetProgram row, .first row)]) (rows ++ [row]) := by
  have hany : uniqueCode.any (·.1 = targetProgram row) = true ↔ targetProgram row ∈ rows.map targetProgram := by
    rw [← List.mem_eraseDups, ← h.keys, List.any_eq_true, List.mem_map]
    simp
  have hother : ∀ x : String × CoalescedExample, x.1 ≠ targetProgram row →
      (rows ++ [row]).filter (targetProgram · = x.1) = rows.filter (targetProgram · = x.1) := by
    intro x hx
    simp [List.filter_append, Ne.symm hx]
  have hsame : (rows ++ [row]).filter (targetProgram · = targetProgram row) =
      rows.filter (targetProgram · = targetProgram row) ++ [row] := by
    simp [List.filter_append]
  by_cases hmem : targetProgram row ∈ rows.map targetProgram
  · rw [if_pos (hany.mpr hmem)]
    constructor
    · rw [List.map_append, List.map_singleton, eraseDups_concat, if_pos hmem, ← h.keys, List.map_map]
      apply List.map_congr_left
      intro x _
      by_cases hx : x.1 = targetProgram row
      · simp [hx]
      · simp [hx]
    · intro y hy
      obtain ⟨x, hx, rfl⟩ := List.mem_map.mp hy
      by_cases hkey : x.1 = targetProgram row
      · have hold := h.coalesced x hx
        rw [hkey] at hold
        rw [if_pos hkey]
        show Coalesced (x.2.push row) ((rows ++ [row]).filter (targetProgram · = targetProgram row))
        rw [hsame]
        exact hold.push row
      · rw [if_neg hkey, hother x hkey]
        exact h.coalesced x hx
  · rw [if_neg (mt hany.mp hmem)]
    constructor
    · rw [List.map_append, List.map_append, List.map_singleton, List.map_singleton, eraseDups_concat, if_neg hmem, h.keys]
    · intro y hy
      rcases List.mem_append.mp hy with hy | hy
      · have hkey : y.1 ≠ targetProgram row := by
          intro hkey
          apply hmem
          rw [← List.mem_eraseDups, ← h.keys, ← hkey]
          exact List.mem_map_of_mem hy
        rw [hother y hkey]
        exact h.coalesced y hy
      · obtain rfl := List.mem_singleton.mp hy
        show Coalesced (.first row) ((rows ++ [row]).filter (targetProgram · = targetProgram row))
        have hnone : rows.filter (targetProgram · = targetProgram row) = [] := by
          apply List.filter_eq_nil_iff.mpr
          intro other hother hkey
          exact hmem (List.mem_map.mpr ⟨other, hother, by simpa using hkey⟩)
        rw [hsame, hnone]
        exact .first row

theorem rowsToExamples_grouped (T : ThingTalk V Ast) (rows : List TemplateRow)
    (hcurrent : ∀ row ∈ rows, row.target_code ≠ "" ∧ ¬HasAssign row) :
    ∃ uniqueCode, rows.foldlM (addRow T) [] = .ok uniqueCode ∧ Grouped uniqueCode rows := by
  induction rows using List.reverseRecOn with
  | nil => exact ⟨[], rfl, rfl, by simp⟩
  | append_singleton rows row ih =>
    obtain ⟨uniqueCode, hfold, hgrouped⟩ := ih fun other hother => hcurrent other (List.mem_append_left _ hother)
    obtain ⟨hcode, hassign⟩ := hcurrent row (by simp)
    refine ⟨_, ?_, hgrouped.add row⟩
    rw [List.foldlM_append, hfold]
    show [row].foldlM (addRow T) uniqueCode = _
    rw [List.foldlM_cons, addRow_current T uniqueCode hcode hassign]
    rfl

/-! ## Printing -/

/-- What is written of an example. -/
def written (editMode skipId : Bool) (ex : CoalescedExample) : List Annotation :=
  let utterances := .strings "utterances".toList (ex.utterances.map String.toList)
  let id := .number "id".toList (toString ex.id).toList
  let name := .string "name".toList (ex.name.getD "").toList
  if editMode then utterances :: (if skipId then [name] else [id, name])
  else [utterances, .strings "preprocessed".toList (ex.preprocessed.map String.toList), id,
    .number "click_count".toList (toString ex.click_count).toList,
    .number "like_count".toList (toString ex.like_count).toList, name]

def stringsText (key : String) (separator : List Char) (values : List String) : List Char :=
  "#_[".toList ++ (key.toList ++ ("=[".toList ++
    (separator.intercalate (values.map (String.toList ∘ stringEscape)) ++ "]]".toList)))

def numberText (key literal : String) : List Char := "#[".toList ++ (key.toList ++ ('=' :: (literal.toList ++ [']'])))

def stringText (key value : String) : List Char :=
  "#[".toList ++ (key.toList ++ ('=' :: ((stringEscape value).toList ++ [']'])))

/-- What `printExample` prints between the program and the semicolon. -/
def writtenText (editMode skipId : Bool) (ex : CoalescedExample) : List Char :=
  let line := '\n' :: "  ".toList
  let id := numberText "id" (toString ex.id)
  let name := line ++ stringText "name" (ex.name.getD "")
  if editMode then
    "  ".toList ++ (stringsText "utterances" (',' :: '\n' :: List.replicate 19 ' ') ex.utterances ++
      ((if skipId then [] else line ++ id) ++ name))
  else
    "  ".toList ++ (stringsText "utterances" [','] ex.utterances ++ (line ++
      (stringsText "preprocessed" [','] ex.preprocessed ++ (line ++ (id ++ (" ".toList ++ (numberText "click_count" (toString ex.click_count) ++
        (" ".toList ++ (numberText "like_count" (toString ex.like_count) ++ name)))))))))

theorem printExample_text (editMode skipId : Bool) (code : String) (ex : CoalescedExample) :
    (printExample editMode skipId code ex).toList = "  ".toList ++
      (code.toList ++ '\n' :: (writtenText editMode skipId ex ++ ';' :: if editMode then ['\n', '\n'] else ['\n'])) := by
  have hutterances : "\n  #_[utterances=[".toList =
      '\n' :: ("  ".toList ++ ("#_[".toList ++ ("utterances".toList ++ "=[".toList))) := rfl
  have hpreprocessed : "  #_[preprocessed=[".toList =
      "  ".toList ++ ("#_[".toList ++ ("preprocessed".toList ++ "=[".toList)) := by decide
  have hid : "  #[id=".toList = "  ".toList ++ ("#[".toList ++ ("id".toList ++ ['='])) := rfl
  have hclick : "] #[click_count=".toList =
      ']' :: (" ".toList ++ ("#[".toList ++ ("click_count".toList ++ ['=']))) := rfl
  have hlike : "] #[like_count=".toList =
      ']' :: (" ".toList ++ ("#[".toList ++ ("like_count".toList ++ ['=']))) := rfl
  have hname : "  #[name=".toList = "  ".toList ++ ("#[".toList ++ ("name".toList ++ ['='])) := rfl
  have hclose : "]]\n".toList = "]]".toList ++ ['\n'] := rfl
  have hend : "];\n".toList = [']', ';', '\n'] := by decide
  have hcount : "]\n".toList = [']', '\n'] := rfl
  have hcomma : ",".toList = [','] := rfl
  have hbreak : ",\n".toList = [',', '\n'] := rfl
  have hline : "\n".toList = ['\n'] := rfl
  have hempty : "".toList = [] := rfl
  cases editMode with
  | false =>
    simp only [printExample, writtenText, Bool.false_eq_true, if_false, String.toList_append, String.toList_intercalate,
      List.map_map, hutterances, hpreprocessed, hid, hclick, hlike, hname, hclose, hend, hcount, hcomma, stringsText,
      numberText, stringText, List.append_assoc, List.cons_append, List.nil_append]
  | true =>
    cases skipId with
    | false =>
      simp only [printExample, writtenText, Bool.false_eq_true, if_false, if_true, String.toList_append, String.toList_ofList,
        String.toList_intercalate, List.map_map, hutterances, hid, hname, hclose, hend, hcount, hbreak, hline, stringsText,
        numberText, stringText, List.append_assoc, List.cons_append, List.nil_append]
    | true =>
      simp only [printExample, writtenText, if_true, String.toList_append, String.toList_ofList,
        String.toList_intercalate, List.map_map, hutterances, hname, hclose, hend, hbreak, hline, hempty, stringsText,
        stringText, List.append_assoc, List.cons_append, List.nil_append]

theorem stringsText_written {key : String} (hkey : IsKey key.toList) {blanks : List Char} (hblanks : Blank blanks)
    (values : List String) :
    AnnotationText (stringsText key (',' :: blanks) values) (.strings key.toList (values.map String.toList)) :=
  .strings _ _ _ hkey (literals_intercalate hblanks values)

theorem numberText_written {key literal : String} (hkey : IsKey key.toList) (h : IsNumeral literal.toList) :
    AnnotationText (numberText key literal) (.number key.toList literal.toList) := .number _ _ hkey h

theorem stringText_written {key : String} (hkey : IsKey key.toList) (value : String) :
    AnnotationText (stringText key value) (.string key.toList value.toList) := .string _ _ _ hkey (literal_stringEscape value)

theorem writtenText_written (editMode skipId : Bool) (ex : CoalescedExample) :
    Annotations (writtenText editMode skipId ex) (written editMode skipId ex) := by
  have hspaces : Blank "  ".toList := blank_of_all (by decide)
  have hspace : Blank " ".toList := blank_of_all rfl
  have hline : Blank ('\n' :: "  ".toList) := blank_of_all rfl
  have hindent : Blank ('\n' :: List.replicate 19 ' ') := blank_of_all rfl
  have hnone : Blank [] := blank_of_all rfl
  have hutterances : IsKey "utterances".toList := isKey_of_all (by decide) rfl
  have hpreprocessed : IsKey "preprocessed".toList := isKey_of_all (by decide) rfl
  have hclick : IsKey "click_count".toList := isKey_of_all (by decide) (by decide +kernel)
  have hlike : IsKey "like_count".toList := isKey_of_all (by decide +kernel) (by decide +kernel)
  have hid : IsKey "id".toList := isKey_of_all (by decide) (by decide +kernel)
  have hname : Annotations (('\n' :: "  ".toList) ++ stringText "name" (ex.name.getD ""))
      [.string "name".toList (ex.name.getD "").toList] := by
    have hkey : IsKey "name".toList := isKey_of_all (by decide) rfl
    have h := Annotations.cons _ _ _ _ _ hline (stringText_written hkey (ex.name.getD "")) (.nil [] hnone)
    rwa [List.append_nil] at h
  cases editMode with
  | false =>
    exact .cons _ _ _ _ _ hspaces (stringsText_written hutterances hnone _)
      (.cons _ _ _ _ _ hline (stringsText_written hpreprocessed hnone _)
        (.cons _ _ _ _ _ hline (numberText_written hid (isNumeral_nat _))
          (.cons _ _ _ _ _ hspace (numberText_written hclick (isNumeral_int _))
            (.cons _ _ _ _ _ hspace (numberText_written hlike (isNumeral_int _)) hname))))
  | true =>
    refine .cons _ _ _ _ _ hspaces (stringsText_written hutterances hindent _) ?_
    cases skipId with
    | false =>
      have h := Annotations.cons _ _ _ _ _ hline (numberText_written hid (isNumeral_nat ex.id)) hname
      rwa [← List.append_assoc] at h
    | true => exact hname

/-! ## Reading back -/

theorem written_utterances (editMode skipId : Bool) (ex : CoalescedExample) (program : Program) :
    ReadExample.strings ⟨program, written editMode skipId ex⟩ "utterances".toList =
      some (ex.utterances.map String.toList) := by
  cases editMode with
  | false => exact strings_self _ _ _ _
  | true => exact strings_self _ _ _ _

theorem written_preprocessed (skipId : Bool) (ex : CoalescedExample) (program : Program) :
    ReadExample.strings ⟨program, written false skipId ex⟩ "preprocessed".toList =
      some (ex.preprocessed.map String.toList) := by
  have hne : "utterances".toList ≠ "preprocessed".toList := by decide
  exact (strings_ne _ _ hne _).trans (strings_self _ _ _ _)

/-- In the edit mode no sentences are written. -/
theorem written_preprocessed_none (skipId : Bool) (ex : CoalescedExample) (program : Program) :
    ReadExample.strings ⟨program, written true skipId ex⟩ "preprocessed".toList = none := by
  have hne : "utterances".toList ≠ "preprocessed".toList := by decide
  refine (strings_ne _ _ hne _).trans ?_
  cases skipId with
  | false => rfl
  | true => rfl

theorem written_name (editMode skipId : Bool) (ex : CoalescedExample) (program : Program) :
    ReadExample.string ⟨program, written editMode skipId ex⟩ "name".toList = some (ex.name.getD "").toList := by
  have hname : ReadExample.string ⟨program, [.string "name".toList (ex.name.getD "").toList]⟩ "name".toList =
      some (ex.name.getD "").toList := string_self _ _ _ _
  cases editMode with
  | false => exact hname
  | true =>
    cases skipId with
    | false => exact hname
    | true => exact hname

/-- An example that was printed, as it is read. -/
structure IsPrinted (G : Grammar Program) (editMode skipId : Bool) (x : String × CoalescedExample)
    (ex : ReadExample Program) : Prop where
  program : G.program x.1.toList = some ex.program
  annotations : ex.annotations = written editMode skipId x.2

theorem dataset_printed {G : Grammar Program} (hG : Documented G) (editMode skipId : Bool)
    {uniqueCode : List (String × CoalescedExample)} (h : ∀ x ∈ uniqueCode, (G.program x.1.toList).isSome)
    {blanks : List Char} (hblanks : Blank blanks) :
    ∃ examples,
      G.dataset (blanks ++ (uniqueCode.flatMap fun x => (printExample editMode skipId x.1 x.2).toList)) = some examples ∧
      List.Forall₂ (IsPrinted G editMode skipId) uniqueCode examples := by
  induction uniqueCode generalizing blanks with
  | nil =>
    refine ⟨[], ?_, .nil⟩
    rw [List.flatMap_nil, List.append_nil]
    exact hG.nil blanks hblanks
  | cons x uniqueCode ih =>
    obtain ⟨hx, hrest⟩ := List.forall_mem_cons.mp h
    obtain ⟨program, hprogram⟩ := Option.isSome_iff_exists.mp hx
    have hend : Blank (if editMode then ['\n', '\n'] else ['\n']) := by
      cases editMode with
      | false => exact blank_of_all rfl
      | true => exact blank_of_all rfl
    obtain ⟨examples, hread, hexamples⟩ := ih hrest hend
    have hindent : Blank (blanks ++ "  ".toList) := by
      intro c hc
      rcases List.mem_append.mp hc with hc | hc
      · exact hblanks c hc
      · exact blank_of_all rfl c hc
    refine ⟨⟨program, written editMode skipId x.2⟩ :: examples, ?_, .cons ⟨hprogram, rfl⟩ hexamples⟩
    rw [List.flatMap_cons, printExample_text]
    have hcons := hG.cons _ _ _ _ _ _ _ hindent hprogram (writtenText_written editMode skipId x.2) hread
    simpa only [List.append_assoc, List.cons_append] using hcons

theorem IsPrinted.isOf {G : Grammar Program} {editMode skipId : Bool} {x : String × CoalescedExample}
    {ex : ReadExample Program} {rows : List TemplateRow} (h : IsPrinted G editMode skipId x ex) (hcoalesced : Coalesced x.2 rows) :
    IsOf G x.1 rows ex ∧ (editMode = false → HasPreprocessed rows ex) := by
  obtain ⟨program, annotations⟩ := ex
  obtain ⟨hprogram, rfl⟩ := h
  refine ⟨⟨hprogram, ?_, ?_⟩, ?_⟩
  · rw [written_utterances, hcoalesced.utterances, List.map_map]
    rfl
  · rw [written_name, hcoalesced.name]
  · rintro rfl
    rw [HasPreprocessed, written_preprocessed, hcoalesced.preprocessed, List.map_map]
    rfl

theorem IsPrinted.not_preprocessed {G : Grammar Program} {skipId : Bool} {x : String × CoalescedExample}
    {ex : ReadExample Program} (h : IsPrinted G true skipId x ex) (rows : List TemplateRow) : ¬HasPreprocessed rows ex := by
  obtain ⟨program, annotations⟩ := ex
  obtain ⟨-, rfl⟩ := h
  intro hpreprocessed
  rw [HasPreprocessed, written_preprocessed_none] at hpreprocessed
  cases hpreprocessed

/-- A package that knows no other syntax than the current one. -/
def package : ThingTalk Unit Unit where
  parse _ := .error (.thrown "SyntaxError")
  serialize _ _ := .error (.thrown "SyntaxError")
  classDefs _ := .error (.thrown "SyntaxError")
  merge _ _ _ := .error (.thrown "SyntaxError")
  fromLegacy _ := .error (.thrown "SyntaxError")
  kindsOf _ := []
  downgrade _ _ _ _ := .error (.thrown "SyntaxError")

/-- A row with a program and an utterance. -/
def templateRow (target_code utterance : String) (name : Option String) : TemplateRow where
  id := 7
  utterance := utterance
  preprocessed := utterance
  target_code := target_code
  click_count := -1
  like_count := 0
  name := name

def lamps : List TemplateRow :=
  [templateRow "action = @light.on();" "lamp \"on\"" none, templateRow "query = @light.state()" "is it; #[on]?" none,
    templateRow "action = @light.on() ; " "lights\non" (some "on")]

section Rows

variable {G : Grammar Program} (hG : Documented G) (T : ThingTalk V Ast) (rows : List TemplateRow)
  (hcurrent : ∀ row ∈ rows, (G.program (targetProgram row).toList).isSome) (hassign : ∀ row ∈ rows, ¬HasAssign row)
  (editMode skipId : Bool)

include hG hcurrent hassign

/-- The groups are printed, and the text is read as they are. -/
theorem rowsToExamples_printed : ∃ text uniqueCode examples, rowsToExamples T rows editMode skipId = .ok text ∧
    Grouped uniqueCode rows ∧ G.dataset text.toList = some examples ∧
    List.Forall₂ (IsPrinted G editMode skipId) uniqueCode examples := by
  have hcode : ∀ row ∈ rows, row.target_code ≠ "" := by
    intro row hrow hempty
    have hsome := hcurrent row hrow
    have hnil : (targetProgram row).toList = [] := by
      rw [targetProgram, hempty]
      rfl
    rw [hnil, hG.empty] at hsome
    cases hsome
  obtain ⟨uniqueCode, hfold, hgrouped⟩ := rowsToExamples_grouped T rows fun row hrow => ⟨hcode row hrow, hassign row hrow⟩
  have hprograms : ∀ x ∈ uniqueCode, (G.program x.1.toList).isSome := by
    intro x hx
    have hkey : x.1 ∈ rows.map targetProgram := by
      rw [← List.mem_eraseDups, ← hgrouped.keys]
      exact List.mem_map_of_mem hx
    obtain ⟨row, hrow, hrowKey⟩ := List.mem_map.mp hkey
    exact hrowKey ▸ hcurrent row hrow
  have hnone : Blank [] := blank_of_all rfl
  obtain ⟨examples, hread, hprinted⟩ := dataset_printed hG editMode skipId hprograms hnone
  refine ⟨String.join (uniqueCode.map fun x => printExample editMode skipId x.1 x.2), uniqueCode, examples, ?_, hgrouped, ?_,
    hprinted⟩
  · rw [rowsToExamples, hfold]
    rfl
  · rw [String.toList_join, List.flatMap_map]
    exact hread

/-- There are as many examples as programs that differ in more than the semicolon. -/
theorem Lossless.length_eq (h : Lossless G T rows editMode skipId) :
    (rows.map bareProgram).eraseDups.length = (rows.map targetProgram).eraseDups.length := by
  obtain ⟨text, uniqueCode, examples, htext, hgrouped, hread, hprinted⟩ :=
    rowsToExamples_printed hG T rows hcurrent hassign editMode skipId
  obtain ⟨text', htext', examples', hread', hexamples⟩ := h
  obtain rfl := Except.ok.inj (htext.symm.trans htext')
  obtain rfl := Option.some.inj (hread.symm.trans hread')
  rw [hexamples.length_eq, ← hprinted.length_eq, ← hgrouped.keys, List.length_map]

/-- The sentences are not in the text that is edited. -/
theorem Lossless.editMode_eq (h : Lossless G T rows editMode skipId) (hne : rows ≠ []) : editMode = false := by
  obtain ⟨text, uniqueCode, examples, htext, hgrouped, hread, hprinted⟩ :=
    rowsToExamples_printed hG T rows hcurrent hassign editMode skipId
  obtain ⟨text', htext', examples', hread', hexamples⟩ := h
  obtain rfl := Except.ok.inj (htext.symm.trans htext')
  obtain rfl := Option.some.inj (hread.symm.trans hread')
  obtain ⟨row, others, rfl⟩ := List.exists_cons_of_ne_nil hne
  rw [List.map_cons, List.eraseDups_cons] at hexamples
  obtain ⟨ex, rest, hex, -, rfl⟩ := List.forall₂_cons_left_iff.mp hexamples
  obtain ⟨x, others', hx, -, rfl⟩ := List.forall₂_cons_right_iff.mp hprinted
  cases editMode with
  | false => rfl
  | true => exact absurd (hex.2 trivial) (hx.not_preprocessed _)

theorem rowsToExamples_reads_back : ∃ text, rowsToExamples T rows editMode skipId = .ok text ∧
    ReadsBack G targetProgram (editMode = false) rows text := by
  obtain ⟨text, uniqueCode, examples, htext, hgrouped, hread, hprinted⟩ :=
    rowsToExamples_printed hG T rows hcurrent hassign editMode skipId
  refine ⟨text, htext, examples, hread, ?_⟩
  rw [← hgrouped.keys, List.forall₂_map_left_iff]
  refine ((List.forall₂_and_left _ _).mpr ⟨hgrouped.coalesced, hprinted⟩).imp ?_
  intro x ex h
  exact h.2.isOf h.1

end Rows

theorem rowsToExamples_reads_back_lamps : ∃ text, rowsToExamples package lamps false false = .ok text ∧
    ReadsBack DatasetTokens.grammar targetProgram (false = false) lamps text :=
  rowsToExamples_reads_back DatasetTokens.documented package lamps (by decide) (by decide) false false

/-- The edit mode, blanks without a semicolon, and a constant of the current syntax. -/
theorem sentences_left_out : ∃ row spaced assigned : TemplateRow, Documented DatasetTokens.grammar ∧
    (∀ r ∈ [row, spaced, assigned], (DatasetTokens.grammar.program (targetProgram r).toList).isSome) ∧
    ¬Lossless DatasetTokens.grammar package [row] true false ∧
    ¬Lossless DatasetTokens.grammar package [row, spaced] false false ∧
    ¬Lossless DatasetTokens.grammar package [assigned] false false := by
  refine ⟨templateRow "action = @light.on()" "on" none, templateRow "action = @light.on() " "lamp on" none,
    templateRow "action = @twitter.post(status=\":=\");" "post it" none, DatasetTokens.documented, by decide,
    ?_, ?_, ?_⟩
  · intro h
    have hedit := h.editMode_eq DatasetTokens.documented _ _ (by decide) (by decide) _ _
      (List.cons_ne_nil _ _)
    cases hedit
  · intro h
    have hcount := h.length_eq DatasetTokens.documented _ _ (by decide) (by decide)
    exact absurd hcount (by decide +kernel)
  · rintro ⟨text, htext, -⟩
    have hfail : (rowsToExamples package [templateRow "action = @twitter.post(status=\":=\");" "post it" none] false
        false).toOption = none := rfl
    rw [htext] at hfail
    cases hfail

end GenieCloud.Thingpedia.DatasetText
