/-
  GenieCloud.Util.ExampleNames — the names of the examples of a dataset
  (`util/example_names.ts`, `autogenExampleName` and `validateDataset` of
  `util/validation.ts`).

  An example is named by an annotation or after its program, with a number when that name
  is taken. `validateDataset` registers the names in one pass: it takes the names of a
  dataset if and only if those given are short enough and all names differ
  (`validateDataset_ok`), and the search for a free number always ends
  (`uniqueName_ends`). A generated name is not bounded, and one that is generated first
  makes the same name, given to a later example, a duplicate (`validateDataset_iff`).

  The classes of the syntax tree and the serializer are those of the language's own
  library. The case mapping of characters is a parameter.
-/

import Mathlib.Data.List.Perm.Subperm
import GenieCloud.Lib.Json
import GenieCloud.Lib.Record
import GenieCloud.Util.ValidateTag
import GenieCloud.Util.Utterance

namespace GenieCloud.Util.ExampleNames

open GenieCloud.Lib
open Utterance (validateUtterance isIn)

/-! ## The syntax tree -/

inductive Value
  | undefined
  | enum (value : String)
  | varRef (name : String)
  | computation (op : String)
  | filter (value : Value)
  | arrayField (value : Value)
  | other
  deriving DecidableEq, Repr

/-- A call: its channel, its parameters and the names of the required ones. -/
structure Invocation where
  channel : String
  in_params : List (String × Value)
  inReq : List String
  deriving DecidableEq, Repr

inductive BooleanExpression
  | true
  | false
  | not (expr : BooleanExpression)
  | and (operands : List BooleanExpression)
  | or (operands : List BooleanExpression)
  | external (invocation : Invocation)
  | atom (name operator : String) (value : Value)
  | compute (lhs : Value) (operator : String) (rhs : Value)
  | other

inductive Expression
  | functionCall (name : String)
  | invocation (invocation : Invocation)
  | filter (expression : Expression) (filter : BooleanExpression)
  | projection (args : List String) (computations : List Value) (expression : Expression)
  | aggregation (operator field : String) (expression : Expression)
  | sort (value : Value) (direction : String) (expression : Expression)
  | monitor (expression : Expression)
  | index (expression : Expression)
  | slice (expression : Expression)
  | alias (expression : Expression)
  | chain (expressions : List Expression)
  | other

/-- The value of an annotation, as `toJS` tells. -/
inductive Annotation
  | string (s : String)
  | other
  deriving DecidableEq, Repr

structure Example where
  value : Expression
  args : List String
  annotations : Record Annotation
  utterances : List String

/-- What the validation of an example throws. -/
inductive Failure
  | validation (message : String)
  | typeError
  | assertion
  deriving DecidableEq, Repr

/-! ## The name of a program -/

section Names

variable (toUpper : Char → List Char)

/-- `[\s,."'!?_()]` -/
def separator (c : Char) : Bool := Thingpedia.isSpace c || [',', '.', '"', '\'', '!', '?', '_', '(', ')'].contains c

/-- `t[0].toUpperCase() + t.substring(1)`; `t[0]` is a code unit. -/
def capitalize : List Char → List Char
  | [] => []
  | c :: cs => (if c.toNat < 0x10000 then toUpper c else [c]) ++ cs

def camelCase (s : String) : String := String.ofList ((s.toList.splitOnP separator).flatMap (capitalize toUpper))

def getExampleNameInvocation (invocation : Invocation) : String :=
  invocation.in_params.foldl (fun name x =>
    match x.2 with
    | .undefined => if isIn x.1 invocation.inReq then name else name ++ "With" ++ camelCase toUpper x.1
    | .enum value => name ++ "With" ++ camelCase toUpper x.1 ++ camelCase toUpper value
    | _ => name ++ "With" ++ camelCase toUpper x.1) (camelCase toUpper invocation.channel)

def getScalarExpressionName : Value → String
  | .varRef name => name
  | .computation op => if op ≠ "" ∧ op.toList.all Char.isAlphanum then op else "result"
  | .filter value => getScalarExpressionName value
  | .arrayField value => getScalarExpressionName value
  | _ => "result"

/-- `By...`, of a comparison. -/
def comparisonName (lhs operator : String) (rhs : Value) : String :=
  let name := "By" ++ camelCase toUpper lhs ++
    (match operator with
    | ">=" => "GreaterThan"
    | "<=" => "LessThan"
    | "starts_with" => camelCase toUpper operator
    | "ends_with" => camelCase toUpper operator
    | _ => "")
  match rhs with
  | .enum value => name ++ camelCase toUpper value
  | _ => name

mutual

def getExampleNameFilter : BooleanExpression → Except Failure String
  | .true => pure "True"
  | .false => pure "False"
  | .not expr => do return "Not" ++ (← getExampleNameFilter expr)
  | .and operands => do return String.intercalate "And" (← filterNames operands)
  | .or operands => do return String.intercalate "Or" (← filterNames operands)
  | .external invocation => pure ("With" ++ getExampleNameInvocation toUpper invocation)
  | .atom name operator value => pure (comparisonName toUpper name operator value)
  | .compute lhs operator rhs => pure (comparisonName toUpper (getScalarExpressionName lhs) operator rhs)
  | .other => throw .assertion

def filterNames : List BooleanExpression → Except Failure (List String)
  | [] => pure []
  | filter :: filters => do return (← getExampleNameFilter filter) :: (← filterNames filters)

end

mutual

def getExampleNameExpression : Expression → Except Failure String
  | .functionCall name => pure (camelCase toUpper name)
  | .invocation invocation => pure (getExampleNameInvocation toUpper invocation)
  | .filter expression filter => do
    return (← getExampleNameExpression expression) ++ (← getExampleNameFilter toUpper filter)
  | .projection args computations expression => do
    return String.join (args.map (camelCase toUpper)) ++
      String.join (computations.map fun c => camelCase toUpper (getScalarExpressionName c)) ++
      "Of" ++ (← getExampleNameExpression expression)
  | .aggregation operator field expression => do
    return camelCase toUpper operator ++ (if field = "*" then "" else camelCase toUpper field) ++ "Of" ++
      (← getExampleNameExpression expression)
  | .sort value direction expression => do
    return "Sort" ++ camelCase toUpper (getScalarExpressionName value) ++ camelCase toUpper direction ++
      (← getExampleNameExpression expression)
  | .monitor expression => do return "Monitor" ++ (← getExampleNameExpression expression)
  | .index expression => getExampleNameExpression expression
  | .slice expression => getExampleNameExpression expression
  | .alias expression => getExampleNameExpression expression
  | .chain expressions => do return String.intercalate "And" (← expressionNames expressions)
  | .other => throw .typeError

def expressionNames : List Expression → Except Failure (List String)
  | [] => pure []
  | expression :: expressions => do return (← getExampleNameExpression expression) :: (← expressionNames expressions)

end

def getExampleName (ex : Example) : Except Failure String := getExampleNameExpression toUpper ex.value

end Names

example : getExampleNameExpression (fun c => [c.toUpper])
    (.projection ["link"] [] (.monitor (.invocation ⟨"web_search", [], []⟩))) =
    .ok "LinkOfMonitorWebSearch" := by decide

/-! ## The validation -/

section Validation

variable (toUpper : Char → List Char) (serialize : Example → Except String Unit)

/-- The length of a JavaScript string. -/
def length (s : String) : Nat := (Utf16.encode s.toList).length

/-- The loop of `autogenExampleName`, for as many rounds. -/
def uniqueName : Nat → List String → String → Nat → Option String
  | 0, _, _, _ => none
  | fuel + 1, names, baseName, counter =>
    if names.contains (baseName ++ toString counter) then uniqueName fuel names baseName (counter + 1)
    else some (baseName ++ toString counter)

/-- One round more than there are names is enough. -/
def autogenExampleName (baseName : String) (names : List String) : String :=
  if !names.contains baseName then baseName else (uniqueName (names.length + 1) names baseName 1).getD baseName

def validateAnnotations (annotations : Record Annotation) : Except Failure Unit :=
  annotations.keys.forM fun name =>
    if ValidateTag.FORBIDDEN_NAMES.contains name then throw (.validation s!"Invalid implementation annotation {name}")
    else pure ()

/-- The name of an example, given or generated. -/
def exampleName (names : List String) (ex : Example) : Except Failure String :=
  match ex.annotations.get? "name" with
  | some .other => throw (.validation "invalid #[name] annotation (must be a string)")
  | some (.string value) =>
    if length value > 128 then throw (.validation "the #[name] annotation must be at most 128 characters")
    else if names.contains value then throw (.validation "duplicate name")
    else pure value
  | none => do return autogenExampleName (← getExampleName toUpper ex) names

def toFailure {α : Type} (x : Except String α) : Except Failure α := x.mapError .validation

/-- The body of the loop: the names so far, and then with that of the example. -/
def validateExample (names : List String) (ex : Example) : Except Failure (List String) := do
  toFailure (serialize ex)
  validateAnnotations ex.annotations
  if ex.utterances.isEmpty then
    if ex.annotations.keys.contains "utterances" then
      throw (.validation "utterances must be a natural language annotation (with #_[]), not an implementation annotation")
    else throw (.validation "missing utterances annotation")
  let name ← exampleName toUpper names ex
  ex.utterances.forM fun utterance => toFailure (validateUtterance ex.args utterance)
  return names ++ [name]

/-- From the example of a number on; the error says the number (from 1). -/
def validateFrom (i : Nat) (names : List String) : List Example → Except (Nat × Failure) (List String)
  | [] => pure names
  | ex :: examples =>
    match validateExample toUpper serialize names ex with
    | .error e => throw (i + 1, e)
    | .ok names => validateFrom (i + 1) names examples

/-- The names of the examples, in their order. -/
def validateDataset (examples : List Example) : Except (Nat × Failure) (List String) :=
  validateFrom toUpper serialize 0 [] examples

/-! ## How examples are named -/

def Example.given (ex : Example) : Option String :=
  match ex.annotations.get? "name" with
  | some (.string value) => some value
  | _ => none

/-- All but the name. -/
structure OtherwiseValid (ex : Example) : Prop where
  serialize : serialize ex = .ok ()
  annotations : ∀ name ∈ ex.annotations.keys, name ∉ ValidateTag.FORBIDDEN_NAMES
  utterances : ex.utterances ≠ []
  name : ex.annotations.get? "name" ≠ some .other
  placeholders : ∀ utterance ∈ ex.utterances, validateUtterance ex.args utterance = .ok ()

/-- A name, or the name and a number. -/
def candidate (baseName : String) : Nat → String
  | 0 => baseName
  | k + 1 => baseName ++ toString (k + 1)

/-- The first that is free. -/
def FirstFree (names : List String) (baseName name : String) : Prop :=
  ∃ k, name = candidate baseName k ∧ name ∉ names ∧ ∀ j < k, candidate baseName j ∈ names

/-- The names of examples after some names: those given, and for the others the first free
    one after their program. -/
inductive Named : List String → List Example → List (Example × String) → Prop
  | nil (names : List String) : Named names [] []
  | given {names : List String} {ex : Example} {examples : List Example} {ps : List (Example × String)} (name : String) :
      ex.given = some name → Named (names ++ [name]) examples ps → Named names (ex :: examples) ((ex, name) :: ps)
  | generated {names : List String} {ex : Example} {examples : List Example} {ps : List (Example × String)} (baseName name : String) :
      ex.given = none → getExampleName toUpper ex = .ok baseName → FirstFree names baseName name →
      Named (names ++ [name]) examples ps → Named names (ex :: examples) ((ex, name) :: ps)

/-- The names given are short enough and differ. -/
def GivenOk (examples : List Example) : Prop :=
  (∀ name ∈ examples.filterMap Example.given, length name ≤ 128) ∧ (examples.filterMap Example.given).Nodup

/-- No name is given after it was generated. -/
def NotGeneratedBefore (ps : List (Example × String)) : Prop :=
  ps.Pairwise fun x y => x.1.given = none → y.1.given ≠ none → x.2 ≠ y.2

def GeneratedShort (ps : List (Example × String)) : Prop := ∀ x ∈ ps, x.1.given = none → length x.2 ≤ 128

end Validation

/-! ## The search ends -/

theorem candidate_inj (baseName : String) {j k : Nat}
    (h : candidate baseName (j + 1) = candidate baseName (k + 1)) : j = k := by
  have hdigits : Nat.toDigits 10 (j + 1) = Nat.toDigits 10 (k + 1) := String.ofList_injective ((String.append_right_inj _).mp h)
  have := congrArg Json.ofDigits hdigits
  rw [Json.ofDigits_toDigits, Json.ofDigits_toDigits, Option.some.injEq] at this
  omega

theorem uniqueName_add {fuel : Nat} {names : List String} {baseName name : String} {counter : Nat}
    (h : uniqueName fuel names baseName counter = some name) (more : Nat) :
    uniqueName (fuel + more) names baseName counter = some name := by
  induction fuel generalizing counter with
  | zero => cases h
  | succ fuel ih =>
    rw [Nat.succ_add, uniqueName]
    rw [uniqueName] at h
    split
    · next hc =>
      rw [if_pos hc] at h
      exact ih h
    · next hc =>
      rw [if_neg hc] at h
      exact h

theorem uniqueName_none {fuel : Nat} {names : List String} {baseName : String} {counter : Nat}
    (h : uniqueName fuel names baseName counter = none) : ∀ i < fuel, baseName ++ toString (counter + i) ∈ names := by
  induction fuel generalizing counter with
  | zero => intro i hi; omega
  | succ fuel ih =>
    rw [uniqueName] at h
    split at h
    · next hc =>
      intro i hi
      rcases i with _ | i
      · exact List.contains_iff_mem.mp hc
      · have := ih h i (by omega)
        rwa [Nat.add_assoc, Nat.add_comm 1 i] at this
    · cases h

theorem uniqueName_some {fuel : Nat} {names : List String} {baseName name : String} {counter : Nat}
    (h : uniqueName fuel names baseName counter = some name) :
    ∃ k, name = baseName ++ toString (counter + k) ∧ name ∉ names ∧ ∀ j < k, baseName ++ toString (counter + j) ∈ names := by
  induction fuel generalizing counter with
  | zero => cases h
  | succ fuel ih =>
    rw [uniqueName] at h
    split at h
    · next hc =>
      obtain ⟨k, hk, hfree, hbefore⟩ := ih h
      refine ⟨k + 1, by rw [hk, Nat.add_assoc, Nat.add_comm 1 k], hfree, ?_⟩
      intro j hj
      rcases j with _ | j
      · exact List.contains_iff_mem.mp hc
      · have := hbefore j (by omega)
        rwa [Nat.add_assoc, Nat.add_comm 1 j] at this
    · next hc =>
      cases h
      exact ⟨0, rfl, fun hm => hc (List.contains_iff_mem.mpr hm), fun j hj => by omega⟩

/-- More candidates than names: one is free. -/
theorem uniqueName_ends (names : List String) (baseName : String) :
    ∃ name, uniqueName (names.length + 1) names baseName 1 = some name := by
  rcases h : uniqueName (names.length + 1) names baseName 1 with _ | name
  · have hall := uniqueName_none h
    have hn : ((List.range (names.length + 1)).map fun i => candidate baseName (i + 1)).Nodup :=
      List.Nodup.map (fun j k hjk => candidate_inj baseName hjk) List.nodup_range
    have hsub : ((List.range (names.length + 1)).map fun i => candidate baseName (i + 1)) ⊆ names := by
      intro x hx
      obtain ⟨i, hi, rfl⟩ := List.mem_map.mp hx
      have := hall i (List.mem_range.mp hi)
      rwa [Nat.add_comm 1 i] at this
    have := (hn.subperm hsub).length_le
    rw [List.length_map, List.length_range] at this
    omega
  · exact ⟨name, rfl⟩

theorem autogen_firstFree (baseName : String) (names : List String) :
    FirstFree names baseName (autogenExampleName baseName names) := by
  unfold autogenExampleName
  by_cases hb : baseName ∈ names
  · obtain ⟨name, hname⟩ := uniqueName_ends names baseName
    obtain ⟨k, hk, hfree, hbefore⟩ := uniqueName_some hname
    rw [if_neg (by simp [hb]), hname, Option.getD_some]
    refine ⟨k + 1, by rw [hk, Nat.add_comm 1 k]; rfl, hfree, ?_⟩
    intro j hj
    rcases j with _ | j
    · exact hb
    · have := hbefore j (by omega)
      rwa [Nat.add_comm 1 j] at this
  · rw [if_pos (by simp [hb])]
    exact ⟨0, rfl, hb, fun j hj => by omega⟩

theorem FirstFree.unique {names : List String} {baseName name name' : String} (h : FirstFree names baseName name)
    (h' : FirstFree names baseName name') : name = name' := by
  obtain ⟨k, rfl, hfree, hbefore⟩ := h
  obtain ⟨k', rfl, hfree', hbefore'⟩ := h'
  rcases Nat.lt_trichotomy k k' with hlt | rfl | hlt
  · exact absurd (hbefore' k hlt) hfree
  · rfl
  · exact absurd (hbefore k' hlt) hfree'

/-! ## What the pass accepts -/

section Pass

variable {toUpper : Char → List Char} {serialize : Example → Except String Unit}

/-- Only the name is left to check. -/
theorem validateExample_eq {ex : Example} (h : OtherwiseValid serialize ex) (names : List String) :
    validateExample toUpper serialize names ex = (exampleName toUpper names ex).map fun name => names ++ [name] := by
  have hann : validateAnnotations ex.annotations = .ok () := by
    refine Result.forM_ok.mpr fun name hn => if_neg ?_
    rw [List.contains_iff_mem]
    exact h.annotations name hn
  have hutt : (ex.utterances.forM fun utterance => toFailure (validateUtterance ex.args utterance)) = .ok () := by
    refine Result.forM_ok.mpr fun utterance hu => ?_
    rw [h.placeholders utterance hu]
    rfl
  have hne : ex.utterances.isEmpty = false := List.isEmpty_eq_false_iff.mpr h.utterances
  rw [validateExample, h.serialize, hann, hne, hutt]
  cases exampleName toUpper names ex <;> rfl

theorem given_of_annotation {ex : Example} (h : ex.annotations.get? "name" ≠ some .other) :
    (∃ value, ex.annotations.get? "name" = some (.string value) ∧ ex.given = some value) ∨
      (ex.annotations.get? "name" = none ∧ ex.given = none) := by
  unfold Example.given
  cases ha : ex.annotations.get? "name" with
  | none => exact Or.inr ⟨rfl, rfl⟩
  | some a =>
    cases a with
    | string value => exact Or.inl ⟨value, rfl, rfl⟩
    | other => exact absurd ha h

theorem exampleName_given {names : List String} {ex : Example} {value : String}
    (h : ex.annotations.get? "name" = some (.string value))
    (name : String) : exampleName toUpper names ex = .ok name ↔ value = name ∧ length value ≤ 128 ∧ value ∉ names := by
  rw [exampleName, h]
  dsimp only
  by_cases hl : length value > 128
  · rw [if_pos hl]
    exact iff_of_false nofun fun hc => by omega
  · rw [if_neg hl]
    by_cases hm : value ∈ names
    · rw [if_pos (List.contains_iff_mem.mpr hm)]
      exact iff_of_false nofun fun hc => hc.2.2 hm
    · rw [if_neg fun hc => hm (List.contains_iff_mem.mp hc)]
      exact ⟨fun he => ⟨Except.ok.inj he, by omega, hm⟩, fun hc => congrArg _ hc.1⟩

theorem exampleName_generated {names : List String} {ex : Example} (h : ex.annotations.get? "name" = none) (name : String) :
    exampleName toUpper names ex = .ok name ↔
      ∃ baseName, getExampleName toUpper ex = .ok baseName ∧ FirstFree names baseName name := by
  rw [exampleName, h]
  dsimp only
  cases getExampleName toUpper ex with
  | error e => exact iff_of_false nofun fun ⟨_, hb, _⟩ => by cases hb
  | ok baseName =>
    have hfirst := autogen_firstFree baseName names
    constructor
    · intro he
      cases he
      exact ⟨baseName, rfl, hfirst⟩
    · intro ⟨b, hb, hf⟩
      cases hb
      exact congrArg _ (hfirst.unique hf)

/-- The names of the pass are those of `Named`, as long as those given are short and new. -/
theorem validateFrom_ok {examples : List Example} (hv : ∀ ex ∈ examples, OtherwiseValid serialize ex) (i : Nat)
    {names out : List String}
    (hn : names.Nodup) :
    validateFrom toUpper serialize i names examples = .ok out ↔
      ∃ ps, Named toUpper names examples ps ∧ out = names ++ ps.map (·.2) ∧ out.Nodup ∧
        ∀ x ∈ ps, x.1.given ≠ none → length x.2 ≤ 128 := by
  induction examples generalizing i names with
  | nil =>
    constructor
    · intro h
      cases h
      exact ⟨[], .nil _, (List.append_nil _).symm, hn, fun _ hx => absurd hx List.not_mem_nil⟩
    · intro ⟨ps, hps, ho, _⟩
      cases hps
      rw [ho, List.map_nil, List.append_nil]
      rfl
  | cons ex examples ih =>
    have hex := hv ex (List.mem_cons_self ..)
    have hv' : ∀ ex ∈ examples, OtherwiseValid serialize ex := fun e he => hv e (List.mem_cons_of_mem _ he)
    -- one step of the pass, and the rest
    have hstep : validateFrom toUpper serialize i names (ex :: examples) = .ok out ↔
        ∃ name, exampleName toUpper names ex = .ok name ∧
          validateFrom toUpper serialize (i + 1) (names ++ [name]) examples = .ok out := by
      rw [validateFrom, validateExample_eq hex]
      cases exampleName toUpper names ex with
      | error e => exact iff_of_false nofun fun ⟨_, h, _⟩ => by cases h
      | ok name => exact ⟨fun h => ⟨name, rfl, h⟩, fun ⟨n, hn, h⟩ => by cases hn; exact h⟩
    have hsnoc : ∀ name, name ∉ names → (names ++ [name]).Nodup := fun name hnew =>
      hn.append (List.nodup_singleton name) (List.disjoint_singleton.mpr hnew)
    have happ : ∀ (name : String) (ps : List (Example × String)),
        names ++ [name] ++ ps.map (·.2) = names ++ ((ex, name) :: ps).map (·.2) :=
      fun name ps => by rw [List.append_assoc, List.singleton_append, List.map_cons]
    rw [hstep]
    constructor
    · intro ⟨name, hname, hrest⟩
      rcases given_of_annotation hex.name with ⟨value, ha, hg⟩ | ⟨ha, hg⟩
      · obtain ⟨rfl, hlen, hnew⟩ := (exampleName_given ha name).mp hname
        obtain ⟨ps, hps, ho, hnd, hshort⟩ := (ih hv' (i + 1) (hsnoc _ hnew)).mp hrest
        refine ⟨(ex, value) :: ps, .given value hg hps, by rw [ho, happ], hnd, ?_⟩
        intro x hx hgx
        rcases List.mem_cons.mp hx with rfl | hx
        · exact hlen
        · exact hshort x hx hgx
      · obtain ⟨baseName, hb, hfirst⟩ := (exampleName_generated ha name).mp hname
        have hnew : name ∉ names := by
          obtain ⟨k, -, hfree, -⟩ := hfirst
          exact hfree
        obtain ⟨ps, hps, ho, hnd, hshort⟩ := (ih hv' (i + 1) (hsnoc _ hnew)).mp hrest
        refine ⟨(ex, name) :: ps, .generated baseName name hg hb hfirst hps, by rw [ho, happ], hnd, ?_⟩
        intro x hx hgx
        rcases List.mem_cons.mp hx with rfl | hx
        · exact absurd hg hgx
        · exact hshort x hx hgx
    · intro ⟨ps, hps, ho, hnd, hshort⟩
      -- the name of the example is not among those before it
      have hfresh : ∀ (name : String) (ps' : List (Example × String)), ps = (ex, name) :: ps' → (names ++ [name]).Nodup := by
        intro name ps' hc
        rw [ho, hc, ← happ] at hnd
        exact hnd.of_append_left
      cases hps with
      | given name hg hps =>
        have hnd' := hfresh name _ rfl
        have hnew : name ∉ names := fun hm => List.disjoint_of_nodup_append hnd' hm (List.mem_singleton_self name)
        rcases given_of_annotation hex.name with ⟨value, ha, hg'⟩ | ⟨-, hg'⟩
        · rw [hg] at hg'
          cases hg'
          refine ⟨name, (exampleName_given ha name).mpr ⟨rfl, ?_, hnew⟩, ?_⟩
          · exact hshort (ex, name) (List.mem_cons_self ..) (by rw [hg]; exact nofun)
          · exact (ih hv' (i + 1) hnd').mpr
              ⟨_, hps, by rw [ho, happ], hnd, fun x hx => hshort x (List.mem_cons_of_mem _ hx)⟩
        · rw [hg] at hg'
          cases hg'
      | generated baseName name hg hb hfirst hps =>
        rcases given_of_annotation hex.name with ⟨value, ha, hg'⟩ | ⟨ha, hg'⟩
        · rw [hg] at hg'
          cases hg'
        · refine ⟨name, (exampleName_generated ha name).mpr ⟨baseName, hb, hfirst⟩, ?_⟩
          exact (ih hv' (i + 1) (hfresh name _ rfl)).mpr
            ⟨_, hps, by rw [ho, happ], hnd, fun x hx => hshort x (List.mem_cons_of_mem _ hx)⟩

theorem Named.examples_eq {names : List String} {examples : List Example} {ps : List (Example × String)}
    (h : Named toUpper names examples ps) : ps.map (·.1) = examples := by
  induction h with
  | nil => rfl
  | given name _ _ ih => rw [List.map_cons, ih]
  | generated baseName name _ _ _ _ ih => rw [List.map_cons, ih]

theorem Named.name_eq {names : List String} {examples : List Example} {ps : List (Example × String)}
    (h : Named toUpper names examples ps) {x : Example × String} (hx : x ∈ ps) {name : String}
    (hg : x.1.given = some name) : x.2 = name := by
  induction h with
  | nil => cases hx
  | given n hn _ ih =>
    rcases List.mem_cons.mp hx with rfl | hx
    · rw [hn] at hg
      exact Option.some.inj hg
    · exact ih hx
  | generated b n hn _ _ _ ih =>
    rcases List.mem_cons.mp hx with rfl | hx
    · rw [hn] at hg
      cases hg
    · exact ih hx

theorem Named.unique {names : List String} {examples : List Example} {ps ps' : List (Example × String)}
    (h : Named toUpper names examples ps) (h' : Named toUpper names examples ps') : ps = ps' := by
  induction h generalizing ps' with
  | nil =>
    cases h'
    rfl
  | given n hn _ ih =>
    cases h' with
    | given n' hn' hps' =>
      rw [hn] at hn'
      cases hn'
      rw [ih hps']
    | generated _ _ hn' _ _ _ =>
      rw [hn] at hn'
      cases hn'
  | generated b n hn hb hfirst _ ih =>
    cases h' with
    | given n' hn' _ =>
      rw [hn] at hn'
      cases hn'
    | generated b' n' _ hb' hfirst' hps' =>
      rw [hb] at hb'
      cases hb'
      cases hfirst.unique hfirst'
      rw [ih hps']

/-- A generated name is new. -/
theorem Named.fresh {names : List String} {examples : List Example} {ps : List (Example × String)}
    (h : Named toUpper names examples ps) {x : Example × String} (hx : x ∈ ps) (hg : x.1.given = none) : x.2 ∉ names := by
  induction h with
  | nil => cases hx
  | given n hn _ ih =>
    rcases List.mem_cons.mp hx with rfl | hx
    · rw [hn] at hg
      cases hg
    · exact fun hm => ih hx (List.mem_append_left _ hm)
  | generated b n _ _ hfirst _ ih =>
    rcases List.mem_cons.mp hx with rfl | hx
    · obtain ⟨k, -, hfree, -⟩ := hfirst
      exact hfree
    · exact fun hm => ih hx (List.mem_append_left _ hm)

theorem Named.generated_differs {names : List String} {examples : List Example} {ps : List (Example × String)}
    (h : Named toUpper names examples ps) : ps.Pairwise fun x y => y.1.given = none → x.2 ≠ y.2 := by
  induction h with
  | nil => exact List.Pairwise.nil
  | given n _ hps ih =>
    refine List.pairwise_cons.mpr ⟨fun y hy hg he => hps.fresh hy hg ?_, ih⟩
    rw [← he]
    exact List.mem_append_right _ (List.mem_singleton_self _)
  | generated b n _ _ _ hps ih =>
    refine List.pairwise_cons.mpr ⟨fun y hy hg he => hps.fresh hy hg ?_, ih⟩
    rw [← he]
    exact List.mem_append_right _ (List.mem_singleton_self _)

/-- All the names differ if those given do and none of them is generated first. -/
theorem Named.nodup_iff {names : List String} {examples : List Example} {ps : List (Example × String)}
    (h : Named toUpper names examples ps) :
    (ps.map (·.2)).Nodup ↔ (examples.filterMap Example.given).Nodup ∧ NotGeneratedBefore ps := by
  rw [← h.examples_eq, List.filterMap_map]
  unfold List.Nodup NotGeneratedBefore
  rw [List.pairwise_map, List.pairwise_filterMap]
  constructor
  · intro hp
    refine ⟨hp.imp_of_mem ?_, hp.imp fun hne _ _ => hne⟩
    intro x y hx hy hne b hb b' hb' he
    exact hne (by rw [h.name_eq hx hb, h.name_eq hy hb', he])
  · intro ⟨hgiven, hbefore⟩
    refine (hgiven.and (hbefore.and h.generated_differs)).imp_of_mem ?_
    intro x y hx hy ⟨hgg, hgen, hdiff⟩
    rcases hgy : y.1.given with _ | b'
    · exact hdiff hgy
    · rcases hgx : x.1.given with _ | b
      · exact hgen hgx (by rw [hgy]; exact nofun)
      · rw [h.name_eq hx hgx, h.name_eq hy hgy]
        exact hgg b hgx b' hgy

theorem validateDataset_ok {examples : List Example} (hv : ∀ ex ∈ examples, OtherwiseValid serialize ex) {out : List String} :
    validateDataset toUpper serialize examples = .ok out ↔
      ∃ ps, Named toUpper [] examples ps ∧ out = ps.map (·.2) ∧ GivenOk examples ∧ NotGeneratedBefore ps := by
  rw [validateDataset, validateFrom_ok hv 0 List.nodup_nil]
  refine exists_congr fun ps => and_congr_right fun hps => ?_
  rw [List.nil_append]
  refine and_congr_right fun ho => ?_
  rw [ho, hps.nodup_iff, GivenOk, and_comm, and_assoc]
  refine and_congr_left fun _ => ?_
  constructor
  · intro hshort name hname
    obtain ⟨ex, hex, hg⟩ := List.mem_filterMap.mp hname
    rw [← hps.examples_eq] at hex
    obtain ⟨x, hx, rfl⟩ := List.mem_map.mp hex
    rw [← hps.name_eq hx hg]
    exact hshort x hx (by rw [hg]; exact nofun)
  · intro hshort x hx hg
    obtain ⟨name, hname⟩ := Option.ne_none_iff_exists'.mp hg
    rw [hps.name_eq hx hname]
    refine hshort name (List.mem_filterMap.mpr ⟨x.1, ?_, hname⟩)
    rw [← hps.examples_eq]
    exact List.mem_map_of_mem hx

end Pass

/-- For examples that are otherwise valid. A dataset is accepted exactly when the names
    given are short and differ, all names of an accepted one are short and differ, and
    the search for a name ends, if and only if the names given are not so, or every
    unnamed program has a name, the names generated are short and none of them is given
    to a later example. -/
theorem validateDataset_iff (toUpper : Char → List Char) (serialize : Example → Except String Unit) (examples : List Example)
    (hv : ∀ ex ∈ examples, OtherwiseValid serialize ex) :
    (((∃ names, validateDataset toUpper serialize examples = .ok names) ↔ GivenOk examples) ∧
      (∀ names, validateDataset toUpper serialize examples = .ok names → names.Nodup ∧ ∀ name ∈ names, length name ≤ 128) ∧
      ∀ names baseName, ∃ fuel name, ∀ more, uniqueName (fuel + more) names baseName 1 = some name) ↔
    ¬GivenOk examples ∨ ∃ ps, Named toUpper [] examples ps ∧ NotGeneratedBefore ps ∧ GeneratedShort ps := by
  have hends : ∀ names baseName, ∃ fuel name, ∀ more, uniqueName (fuel + more) names baseName 1 = some name := by
    intro names baseName
    obtain ⟨name, hname⟩ := uniqueName_ends names baseName
    exact ⟨_, name, uniqueName_add hname⟩
  simp only [validateDataset_ok hv]
  constructor
  · intro ⟨haccept, hnames, _⟩
    rw [or_iff_not_imp_left, not_not]
    intro hgiven
    obtain ⟨_, ps, hps, rfl, -, hbefore⟩ := haccept.mpr hgiven
    refine ⟨ps, hps, hbefore, ?_⟩
    intro x hx _
    exact (hnames _ ⟨ps, hps, rfl, hgiven, hbefore⟩).2 x.2 (List.mem_map_of_mem hx)
  · intro hcond
    refine ⟨⟨fun ⟨_, ps, _, _, hgiven, _⟩ => hgiven, ?_⟩, ?_, hends⟩
    · intro hgiven
      rcases hcond with hno | ⟨ps, hps, hbefore, _⟩
      · exact absurd hgiven hno
      · exact ⟨_, ps, hps, rfl, hgiven, hbefore⟩
    · intro names ⟨ps, hps, ho, hgiven, hbefore⟩
      rcases hcond with hno | ⟨ps', hps', _, hshort⟩
      · exact absurd hgiven hno
      · rw [hps.unique hps'] at ho
        subst ho
        refine ⟨hps'.nodup_iff.mpr ⟨hgiven.2, hps.unique hps' ▸ hbefore⟩, ?_⟩
        intro name hname
        obtain ⟨x, hx, rfl⟩ := List.mem_map.mp hname
        rcases hg : x.1.given with _ | value
        · exact hshort x hx hg
        · rw [hps'.name_eq hx hg]
          refine hgiven.1 value (List.mem_filterMap.mpr ⟨x.1, ?_, hg⟩)
          rw [← hps'.examples_eq]
          exact List.mem_map_of_mem hx

/-- An example with one utterance and no arguments. -/
def plainExample (name : String) (annotations : Record Annotation) : Example := ⟨.functionCall name, [], annotations, ["search"]⟩

/-- The first example has no name, the second is called `Search`. -/
def clashing : List Example := [plainExample "search" Record.empty, plainExample "find" ⟨[("name", .string "Search")], by decide⟩]

theorem clashing_valid : ∀ ex ∈ clashing, OtherwiseValid (fun _ => .ok ()) ex := by
  have hutt : validateUtterance [] "search" = .ok () := by decide
  intro ex hex
  simp only [clashing, List.mem_cons, List.not_mem_nil, or_false] at hex
  rcases hex with rfl | rfl
  · exact ⟨rfl, by decide, by decide, by decide, by simpa [plainExample] using hutt⟩
  · exact ⟨rfl, by decide, by decide, by decide, by simpa [plainExample] using hutt⟩

theorem validateDataset_iff_clashing :
    (((∃ names, validateDataset (fun c => [c.toUpper]) (fun _ => .ok ()) clashing = .ok names) ↔ GivenOk clashing) ∧
      (∀ names, validateDataset (fun c => [c.toUpper]) (fun _ => .ok ()) clashing = .ok names →
        names.Nodup ∧ ∀ name ∈ names, length name ≤ 128) ∧
      ∀ names baseName, ∃ fuel name, ∀ more, uniqueName (fuel + more) names baseName 1 = some name) ↔
    ¬GivenOk clashing ∨ ∃ ps, Named (fun c => [c.toUpper]) [] clashing ps ∧ NotGeneratedBefore ps ∧ GeneratedShort ps :=
  validateDataset_iff _ _ clashing clashing_valid

/-- The name given is a duplicate of the one generated before it. -/
theorem given_after_generated :
    (∀ ex ∈ clashing, OtherwiseValid (fun _ => .ok ()) ex) ∧ GivenOk clashing ∧
      ¬∃ names, validateDataset (fun c => [c.toUpper]) (fun _ => .ok ()) clashing = .ok names := by
  refine ⟨clashing_valid, ⟨by decide, by decide⟩, ?_⟩
  have hrun : validateDataset (fun c => [c.toUpper]) (fun _ => .ok ()) clashing =
      .error (2, .validation "duplicate name") := by decide
  intro ⟨names, hnames⟩
  rw [hrun] at hnames
  cases hnames

end GenieCloud.Util.ExampleNames
