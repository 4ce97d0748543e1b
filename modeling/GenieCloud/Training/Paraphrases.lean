/-
  GenieCloud.Training.Paraphrases — the sentences that a dataset is made of
  (`training/lib/dataset_generator.js`: the constructor, `_transaction`,
  `_downloadParaphrase`).

  The requested devices, less those that are not approved where only approved ones are
  wanted, become a pattern; no devices become no pattern, and without a pattern all sentences
  are downloaded.

  `downloadParaphrase_iff`: where some device was requested, the sentences that use one of
  them are downloaded and no others exactly if, with a device left, they are those that have a
  token the pattern finds, and with no device left, there are no sentences at all.
-/

import GenieCloud.Lib.Table
import GenieCloud.Training.DevicePattern

namespace GenieCloud.Training.Paraphrases

open GenieCloud.Lib
open DevicePattern (Kind forDevicesPattern pattern Uses HasToken)

/-! ## The request -/

/-- A row of `example_utterances`. -/
structure ExampleRow where
  language : String
  type : String
  flags : List String
  preprocessed : String
  context : Option String
  target_code : String
  deriving DecidableEq

/-- The constructor and the first part of `_transaction`: `none` stands for all devices. -/
def forDevices (approvedOnly : Bool) (approvedKinds requested : List Kind) : Option (List Kind) :=
  let forDevices := if requested.isEmpty then none else some requested
  if approvedOnly then
    match forDevices with
    | none => some approvedKinds
    | some devices => some (devices.filter approvedKinds.contains)
  else forDevices

/-! ## The download -/

section

variable (language : String) (contextual : Bool) (example_utterances : Table ExampleRow)

/-- The query without its last condition. -/
def eligible (row : ExampleRow) : Bool :=
  row.language == language && row.flags.contains "training" && !row.flags.contains "obsolete" &&
    row.target_code != "" && row.preprocessed != "" && row.type != "generated" &&
    (if contextual then row.context.isSome else row.context.isNone)

/-- A pattern that cannot be read is an error; `order by id`. -/
def downloadParaphrase (forDevicesPattern : Option (List Char)) : Option (List (Nat × ExampleRow)) :=
  match forDevicesPattern with
  | some pattern => (Regex.parse pattern).map fun r =>
      example_utterances.select fun _ row => eligible language contextual row && r.test row.target_code.toList
  | none => some (example_utterances.select fun _ row => eligible language contextual row)

def transaction (approvedOnly : Bool) (approvedKinds requested : List Kind) : Option (List (Nat × ExampleRow)) :=
  downloadParaphrase language contextual example_utterances (pattern (forDevices approvedOnly approvedKinds requested))

/-! ## What is wanted -/

/-- The requested devices that qualify. -/
def qualifying (approvedOnly : Bool) (approvedKinds requested : List Kind) : List Kind :=
  requested.filter fun d => !approvedOnly || approvedKinds.contains d

/-- The sentences that use one of the devices. -/
def wanted (devices : List Kind) : List (Nat × ExampleRow) :=
  example_utterances.select fun _ row => eligible language contextual row && decide (Uses devices row.target_code)

/-- A sentence of the language, for training. -/
def Sentence (row : ExampleRow) : Prop := ∃ i, example_utterances.get? i = some row ∧ eligible language contextual row = true

end

theorem forDevices_eq {approvedOnly : Bool} {approvedKinds requested : List Kind} (h : requested ≠ []) :
    forDevices approvedOnly approvedKinds requested = some (qualifying approvedOnly approvedKinds requested) := by
  unfold forDevices qualifying
  rw [if_neg fun he => h (List.isEmpty_iff.mp he)]
  cases approvedOnly with
  | true => rfl
  | false => simp

section Download

variable {language : String} {contextual : Bool} {example_utterances : Table ExampleRow}

/-- Without a pattern every sentence is downloaded. -/
theorem all_eq_wanted_iff : downloadParaphrase language contextual example_utterances none =
      some (wanted language contextual example_utterances []) ↔
    ∀ row, ¬Sentence language contextual example_utterances row := by
  have hnone : ∀ target_code, ¬Uses [] target_code := fun target_code h => by
    obtain ⟨d, hd, -⟩ := h
    cases hd
  rw [downloadParaphrase, Option.some.injEq, wanted, Table.select_eq_select_iff]
  simp only [Bool.and_eq_true, decide_eq_true_eq, hnone, and_false, iff_false]
  constructor
  · intro h row hrow
    obtain ⟨i, hi, heligible⟩ := hrow
    exact h i row hi heligible
  · intro h i row hi heligible
    exact h row ⟨i, hi, heligible⟩

theorem found_eq_wanted_iff {devices : List Kind} (hdevices : devices ≠ []) :
    downloadParaphrase language contextual example_utterances (some (forDevicesPattern devices)) =
      some (wanted language contextual example_utterances devices) ↔
    ∀ row, Sentence language contextual example_utterances row →
      (Uses devices row.target_code ↔ HasToken devices row.target_code) := by
  obtain ⟨r, hparse, htest⟩ := DevicePattern.test_forDevices hdevices
  rw [downloadParaphrase, hparse, Option.map_some, Option.some.injEq, wanted, Table.select_eq_select_iff]
  simp only [Bool.and_eq_true, decide_eq_true_eq, htest]
  constructor
  · intro h row hrow
    obtain ⟨i, hi, heligible⟩ := hrow
    exact ((and_iff_right heligible).symm.trans ((h i row hi).trans (and_iff_right heligible))).symm
  · intro h i row hi
    exact and_congr_right fun heligible => (h row ⟨i, hi, heligible⟩).symm

end Download

/-- Some device was requested: what is downloaded uses a qualifying device, and is all that
    does, exactly in these two cases. -/
theorem downloadParaphrase_iff (language : String) (contextual : Bool) (example_utterances : Table ExampleRow)
    (approvedOnly : Bool) (approvedKinds requested : List Kind) (hrequested : requested ≠ []) :
    transaction language contextual example_utterances approvedOnly approvedKinds requested =
        some (wanted language contextual example_utterances (qualifying approvedOnly approvedKinds requested)) ↔
      if qualifying approvedOnly approvedKinds requested = [] then ∀ row, ¬Sentence language contextual example_utterances row
      else ∀ row, Sentence language contextual example_utterances row →
        (Uses (qualifying approvedOnly approvedKinds requested) row.target_code ↔
          HasToken (qualifying approvedOnly approvedKinds requested) row.target_code) := by
  rw [transaction, forDevices_eq hrequested, pattern]
  by_cases hnil : qualifying approvedOnly approvedKinds requested = []
  · rw [if_pos hnil, if_pos (List.isEmpty_iff.mpr hnil), hnil]
    exact all_eq_wanted_iff
  · rw [if_neg hnil, if_neg fun he => hnil (List.isEmpty_iff.mp he)]
    exact found_eq_wanted_iff hnil

/-! ## Stored programs -/

theorem bing_valid : ∀ c ∈ "com.bing".toList, DevicePattern.kindChar c = true := List.all_eq_true.mp rfl

def bing : Kind := ⟨"com.bing".toList, bing_valid⟩

def xkcd : Kind := ⟨"com.xkcd".toList, List.all_eq_true.mp rfl⟩

/-- A search, as it is stored. -/
def webSearch : String := "@com.bing . web_search ( ) ;"

def sentence (target_code : String) : ExampleRow := ⟨"en", "turking1", ["training"], "search on bing", none, target_code⟩

/-- The search is not downloaded for its device, and it is downloaded for a device that is not
    approved. -/
theorem search_not_downloaded :
    transaction "en" false (Table.empty.insert (sentence webSearch)) true [bing] [bing] = some [] ∧
    wanted "en" false (Table.empty.insert (sentence webSearch)) (qualifying true [bing] [bing]) = [(1, sentence webSearch)] ∧
    transaction "en" false (Table.empty.insert (sentence webSearch)) true [bing] [xkcd] = some [(1, sentence webSearch)] ∧
    wanted "en" false (Table.empty.insert (sentence webSearch)) (qualifying true [bing] [xkcd]) = [] := by
  decide

/-- A sentence for another device. -/
theorem downloadParaphrase_iff_comic :
    transaction "en" false (Table.empty.insert (sentence "@com.xkcd . comic ( ) ;")) false [] [bing] =
      some (wanted "en" false (Table.empty.insert (sentence "@com.xkcd . comic ( ) ;")) (qualifying false [] [bing])) := by
  refine (downloadParaphrase_iff "en" false (Table.empty.insert (sentence "@com.xkcd . comic ( ) ;")) false [] [bing]
    (by decide)).mpr ?_
  rw [if_neg (by decide)]
  intro row hrow
  obtain ⟨i, hi, -⟩ := hrow
  have hcomic : row = sentence "@com.xkcd . comic ( ) ;" := by
    rw [Table.get?_insert] at hi
    split at hi
    · exact (Option.some.inj hi).symm
    · cases hi
  subst hcomic
  refine iff_of_false (by decide) fun h => ?_
  obtain ⟨token, htoken, hnames⟩ := h
  have hhead : ∀ token ∈ (DevicePattern.tokens "@com.xkcd . comic ( ) ;").tail,
    token.head? ≠ some 'd' ∧ token.head? ≠ some '@' := by decide
  exact (hnames.head.elim (hhead token htoken).1 (hhead token htoken).2)

end GenieCloud.Training.Paraphrases
