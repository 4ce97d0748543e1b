/-
  GenieCloud.Thingpedia.ClassValidation — the class of a device, validated before an upload
  (`validateDevice`, `loadClassDef` and `validateInvocation` of `util/validation.ts`,
  `findNonExisting` of `model/entity.ts`).

  The checks go over a parsed class once, and fill in what is missing on the way: canonical
  forms, the `confirm` annotation, the config mixin. What is filled in is told apart from what is
  checked here (`Class.filled`).

  - `validateClass_iff`: a class is accepted exactly if it is `Acceptable`, and what comes
    out is the class filled in.
  - `validated_again_iff`: the class that comes out is accepted once more, and left as it is,
    exactly if the canonical forms that were made up are templates: those are checked only when
    they are read back.
  - `located_iff`: a syntax error is said to be where it is, unless it is on the first line of the
    dataset.

  The language pack and the parser are parameters. Annotations of the natural language are
  texts, lists and objects of them; the string types of arguments, which no caller reads, are left
  out.
-/

import GenieCloud.Lib.Result
import GenieCloud.Lib.SplitOn
import GenieCloud.Thingpedia.ImportDevice
import GenieCloud.Thingpedia.Queries
import GenieCloud.Util.ValidateTag

namespace GenieCloud.Thingpedia.ClassValidation

open GenieCloud.Lib GenieCloud.Lib.Result
open Util.ValidateTag (FORBIDDEN_NAMES User validateTag)

/-! ## Classes as they are parsed -/

inductive Phrase
  | text (s : String)
  | list (phrases : List Phrase)
  | forms (byForm : List (String × Phrase))

inductive Annotation
  | boolean (b : Bool)
  | enum (s : String)
  | string (s : String)
  | number (v : Rat)
  | other
  deriving DecidableEq

inductive ArgType
  | array (elem : ArgType)
  | entity (type : String)
  | string
  | other (name : String)
  deriving DecidableEq

structure Argument where
  name : String
  type : ArgType
  nl_annotations : Record Phrase
  annotations : Record Annotation

structure Function where
  is_monitorable : Bool
  nl_annotations : Record Phrase
  annotations : Record Annotation
  args : List Argument

structure EntityDef where
  name : String
  extends_ : List String
  description : Option Phrase

structure Class where
  kind : String
  is_abstract : Bool
  /-- The modules of the mixins. -/
  loader : Option String
  config : Option String
  entities : List EntityDef
  nl_annotations : Record Phrase
  annotations : Record Annotation
  queries : Record Function
  actions : Record Function

/-- What the language pack, the tokenizer and the parser of templates do. -/
structure Language where
  template : Phrase → Except String Unit
  preprocessParameterCanonical : Argument → Except String Unit
  tokenize : String → List String
  /-- A numeral in a text. -/
  toNumber : String → Option Rat

variable (L : Language)

/-! ## What is checked -/

inductive What | action | query
  deriving DecidableEq

def What.text : What → String
  | .action => "action"
  | .query => "query"

def JAVASCRIPT_MODULE_TYPES : List String :=
  ["org.thingpedia.v1", "org.thingpedia.v2", "org.thingpedia.builtin", "org.thingpedia.embedded"]

def SUBCATEGORIES : List String :=
  ["service", "media", "social-network", "communication", "home", "health", "data-management"]

def ALLOWED_ARG_METADATA : List String := ["canonical", "prompt", "question", "counted_object"]

def ALLOWED_FUNCTION_METADATA : List String :=
  ["canonical", "canonical_short", "confirmation", "confirmation_remote", "result", "formatted", "on_error"]

def ALLOWED_CLASS_METADATA : List String :=
  ["name", "description", "thingpedia_name", "thingpedia_description", "canonical", "help"]

def CONFIRM : List String := ["confirm", "auto", "display_result"]

def Phrase.truthy : Phrase → Bool
  | .text s => s ≠ ""
  | _ => true

/-- An annotation that counts as one: not the empty text. -/
def given (annotations : Record Phrase) (name : String) : Option Phrase := (annotations.get? name).filter Phrase.truthy

def check (c : Bool) (message : String) : Except Failure Unit := if c then throw (.badRequest message) else pure ()

def validateAnnotations (annotations : Record Annotation) : Except Failure Unit :=
  annotations.keys.forM fun name => check (FORBIDDEN_NAMES.contains name) s!"Invalid implementation annotation {name}"

def validateMetadata (metadata : Record Phrase) (allowed : List String) : Except Failure Unit :=
  metadata.keys.forM fun name => check (!allowed.contains name) s!"Invalid natural language annotation {name}"

/-- An error of a package, with what it is about before it. -/
def rethrow (about : String) : Except String Unit → Except Failure Unit
  | .ok () => pure ()
  | .error message => throw (.badRequest (about ++ message))

def validateTemplateString (key : String) : Phrase → Except Failure Unit
  | .text s => rethrow s!"Invalid canonical form for @{key}: " (L.template (.text s))
  | .list phrases => phrases.forM fun str => rethrow s!"Invalid canonical form for @{key}: " (L.template str)
  | .forms _ => throw (.thrown "TypeError")

/-- The type below the arrays. -/
def ArgType.elem : ArgType → ArgType
  | .array elem => elem.elem
  | type => type

def Argument.filled (arg : Argument) : Argument :=
  match given arg.nl_annotations "canonical" with
  | some _ => arg
  | none => { arg with nl_annotations := arg.nl_annotations.set "canonical" (.text (clean arg.name)) }

def checkStringValues (arg : Argument) : Except Failure Unit :=
  match arg.type.elem with
  | .other _ => check (arg.annotations.get? "string_values").isSome
      "The string_values annotation is valid only for String-typed parameters"
  | _ => pure ()

/-- The body of the loop over the arguments. -/
def checkArgument (qualifiedName name : String) (arg : Argument) : Except Failure Unit := do
  check (FORBIDDEN_NAMES.contains arg.name) s!"{arg.name} is not allowed as argument name in {name}"
  validateMetadata arg.nl_annotations ALLOWED_ARG_METADATA
  validateAnnotations arg.annotations
  checkStringValues arg
  rethrow s!"Invalid canonical form for @{qualifiedName}:{arg.name}: " (L.preprocessParameterCanonical arg.filled)

/-- The canonical forms as a list. -/
def canonicalForms (name : String) (annotations : Record Phrase) : List Phrase :=
  match given annotations "canonical" with
  | some (.list phrases) => phrases
  | some phrase => [phrase]
  | none => [.text (clean name)]

def Function.filled (what : What) (name : String) (fndef : Function) : Function :=
  { fndef with
    nl_annotations := fndef.nl_annotations.set "canonical" (.list (canonicalForms name fndef.nl_annotations))
    annotations := match fndef.annotations.get? "confirm" with
      | some _ => fndef.annotations
      | none => fndef.annotations.set "confirm" (.boolean (what = .action))
    args := fndef.args.map Argument.filled }

def checkConfirm (name : String) (fndef : Function) : Except Failure Unit :=
  match fndef.annotations.get? "confirm" with
  | none | some (.boolean _) => pure ()
  | some (.enum s) => check (!CONFIRM.contains s)
      s!"Invalid #[confirm] annotation for {name}, must be a an enum \x22confirm\x22, \x22auto\x22, \x22display_result\x22"
  | some _ => throw (.badRequest s!"Invalid #[confirm] annotation for {name}, must be a Boolean")

/-- `toJS() < 0` -/
def Annotation.negative : Annotation → Bool
  | .number v => v < 0
  | .string s => (L.toNumber s).any (· < 0)
  | _ => false

structure Options where
  checkPollInterval : Bool
  checkUrl : Bool
  deriving DecidableEq

def checkPollInterval (options : Options) (what : What) (name : String) (fndef : Function) : Except Failure Unit :=
  if options.checkPollInterval && what = .query && fndef.is_monitorable then
    match fndef.annotations.get? "poll_interval" with
    | none => throw (.badRequest s!"Missing poll interval for monitorable query {name}")
    | some poll_interval =>
      check (poll_interval.negative L) s!"Invalid negative poll interval for monitorable query {name}"
  else pure ()

/-- The body of the loop over the functions. -/
def checkFunction (kind : String) (options : Options) (what : What) (name : String) (fndef : Function) :
    Except Failure Unit := do
  let qualifiedName := kind ++ "." ++ name
  check (FORBIDDEN_NAMES.contains name) s!"{name} is not allowed as a function name"
  validateMetadata fndef.nl_annotations ALLOWED_FUNCTION_METADATA
  validateAnnotations fndef.annotations
  (given fndef.nl_annotations "canonical").forM (validateTemplateString L qualifiedName)
  checkConfirm name fndef
  checkPollInterval L options what name fndef
  check (options.checkUrl && (fndef.annotations.get? "url").isNone) s!"Missing {what.text} url for {name}"
  fndef.args.forM (checkArgument L qualifiedName name)

def validateInvocation (kind : String) (where_ : Record Function) (what : What) (options : Options) : Except Failure Unit :=
  where_.entries.forM fun x => checkFunction L kind options what x.1 x.2

/-- The types of the entities that an argument takes. -/
def Argument.entity (arg : Argument) : List String :=
  match arg.type.elem with
  | .entity type => [type]
  | _ => []

def entitiesOf (where_ : Record Function) : List String :=
  where_.entries.flatMap fun x => x.2.args.flatMap Argument.entity

def validateAllInvocations (classDef : Class) (options : Options) : Except Failure (List String) := do
  validateInvocation L classDef.kind classDef.actions .action options
  validateInvocation L classDef.kind classDef.queries .query options
  return (entitiesOf classDef.actions ++ entitiesOf classDef.queries).eraseDups

/-! ## The class -/

/-- The ids of `entity_names` in English: with the language they are the primary key. -/
structure Entities where
  ids : List String
  nodup : ids.Nodup

/-- As many rows as were asked for are all of them. -/
def findNonExisting (entities : Entities) (ids : List String) : List String :=
  let rows := entities.ids.filter ids.contains
  if rows.length = ids.length then [] else ids.filter fun id => !rows.contains id

/-- The form that comes with the class. -/
structure DeviceMetadata where
  name : String
  description : String
  primary_kind : String
  license : String
  license_gplcompatible : Bool
  subcategory : String
  website : Option String
  repository : Option String
  issue_tracker : Option String
  deriving DecidableEq

/-- `annotations.name = value`, if there is none. -/
def orElse (annotations : Record Phrase) (name : String) (value : Phrase) : Record Phrase :=
  match given annotations name with
  | some _ => annotations
  | none => annotations.set name value

/-- A link of the form, if there is one. -/
def setLink (annotations : Record Annotation) (name : String) : Option String → Record Annotation
  | none => annotations
  | some url => if url = "" then annotations else annotations.set name .other

/-- The name of the device, as the canonical form of its class. -/
def canonicalName (options : DeviceMetadata) : String := " ".intercalate (L.tokenize options.name)

def nlAnnotations (options : DeviceMetadata) (annotations : Record Phrase) : Record Phrase :=
  let annotations := orElse annotations "name" (.text options.name)
  let annotations := orElse annotations "description" (.text options.description)
  let annotations := orElse annotations "canonical" (.text (canonicalName L options))
  (annotations.set "thingpedia_name" (.text options.name)).set "thingpedia_description" (.text options.description)

def implAnnotations (options : DeviceMetadata) (annotations : Record Annotation) : Record Annotation :=
  let annotations := annotations.set "subcategory" (.enum options.subcategory)
  let annotations := annotations.set "license" (.string options.license)
  let annotations := annotations.set "license_gplcompatible" (.boolean options.license_gplcompatible)
  setLink (setLink (setLink annotations "website" options.website) "repository" options.repository) "issue_tracker"
    options.issue_tracker

def Class.filled (options : DeviceMetadata) (classDef : Class) : Class :=
  { classDef with
    config := if classDef.is_abstract then classDef.config else classDef.config.or (some "org.thingpedia.config.none")
    nl_annotations := nlAnnotations L options classDef.nl_annotations
    annotations := implAnnotations options classDef.annotations
    queries := classDef.queries.map (Function.filled .query)
    actions := classDef.actions.map (Function.filled .action) }

def checkEntity (stmt : EntityDef) : Except Failure Unit :=
  check (match stmt.description with | some (.text s) => s = "" | _ => true) s!"A description is required for entity {stmt.name}"

/-- The parents of an entity. -/
def parents (kind : String) (stmt : EntityDef) : List String :=
  stmt.extends_.map fun parent => if parent.toList.contains ':' then parent else kind ++ ":" ++ parent

def checkEntities (table : Entities) (classDef : Class) (entities : List String) : Except Failure Unit :=
  let declared := classDef.entities.map fun stmt => classDef.kind ++ ":" ++ stmt.name
  let filteredEntities := (entities ++ classDef.entities.flatMap (parents classDef.kind)).filter fun e => !declared.contains e
  let missingEntities := findNonExisting table filteredEntities
  check (!missingEntities.isEmpty) ("Invalid entity types: " ++ ", ".intercalate missingEntities)

/-- The part of `validateDevice` that is about the class. -/
def validateClass (table : Entities) (options : DeviceMetadata) (classDef : Class) : Except Failure Class := do
  validateMetadata classDef.nl_annotations ALLOWED_CLASS_METADATA
  validateAnnotations classDef.annotations
  check (!classDef.is_abstract && classDef.loader.isNone) "Loader mixin missing from class declaration"
  let fullcode := !classDef.is_abstract && !classDef.loader.any JAVASCRIPT_MODULE_TYPES.contains
  classDef.entities.forM checkEntity
  let entities ← validateAllInvocations L classDef ⟨!classDef.is_abstract, fullcode⟩
  checkEntities table classDef entities
  (given classDef.nl_annotations "canonical").forM (validateTemplateString L classDef.kind)
  return classDef.filled L options

/-! ## The upload -/

structure DatasetAst (E : Type) where
  name : String
  language : Option String
  examples : List E

structure Library (E : Type) where
  classes : List Class
  datasets : List (DatasetAst E)

inductive ParseError
  /-- A `SyntaxError` with a location. -/
  | syntaxError (line : Nat) (message : String)
  | other (message : String)

/-- `classCode.split('\n').length` -/
def lines (code : String) : Nat := (code.toList.splitOn '\n').length

/-- The file and the line of an error in the two files, put one after the other. -/
def locate (classCode : String) (lineNumber : Nat) : String × Nat :=
  let classLength := 1 + lines classCode
  if lineNumber > classLength then ("dataset.tt", lineNumber - classLength + 1) else ("manifest.tt", lineNumber)

variable {E : Type}

/-- A program that is not a library has no classes. -/
def loadClassDef (parse : String → Except ParseError (Option (Library E))) (kind classCode datasetCode : String) :
    Except Failure (Class × DatasetAst E) :=
  match parse (classCode ++ "\n" ++ datasetCode) with
  | .error (.syntaxError line message) =>
    let location := locate classCode line
    throw (.badRequest s!"Syntax error in {location.1} line {location.2}: {message}")
  | .error (.other message) => throw (.badRequest message)
  | .ok parsed =>
    match parsed.elim [] (·.classes), parsed.elim [] (·.datasets) with
    | [classDef], datasets =>
      if classDef.kind ≠ kind then
        throw (.badRequest "Invalid manifest file: must contain exactly one class, with the same identifier as the device")
      else
        match datasets with
        | [] => pure (classDef, ⟨kind, none, []⟩)
        | [dataset] =>
          if dataset.name ≠ kind then
            throw (.badRequest "Invalid dataset file: must contain exactly one dataset, with the same identifier as the class")
          else if dataset.language.any fun language => language ≠ "" && language ≠ "en" then
            throw (.badRequest "The dataset must be for English: use \x60en\x60 as the language tag.")
          else pure (classDef, dataset)
        | _ =>
          throw (.badRequest "Invalid dataset file: must contain exactly one dataset, with the same identifier as the class")
    | _, _ =>
      throw (.badRequest "Invalid manifest file: must contain exactly one class, with the same identifier as the device")

def THINGPEDIA_ADMIN : BitVec 32 := 4

def validateDevice (table : Entities) (parse : String → Except ParseError (Option (Library E)))
    (validateDataset : DatasetAst E → Except Failure (DatasetAst E)) (user : User) (options : DeviceMetadata)
    (classCode datasetCode : String) : Except Failure (Class × DatasetAst E) := do
  check (options.name = "" || options.description = "" || options.primary_kind = "" || options.license = "")
    "Not all required fields were present"
  rethrow "" (validateTag options.primary_kind user (some THINGPEDIA_ADMIN))
  check (!SUBCATEGORIES.contains options.subcategory) s!"Invalid device category {options.subcategory}"
  let (classDef, dataset) ← loadClassDef parse options.primary_kind classCode datasetCode
  let classDef ← validateClass L table options classDef
  let dataset ← validateDataset dataset
  return (classDef, dataset)

/-! ## What is accepted -/

/-- The canonical forms of a function or a class are templates. -/
def Templates : Phrase → Prop
  | .text s => L.template (.text s) = .ok ()
  | .list phrases => ∀ phrase ∈ phrases, L.template phrase = .ok ()
  | .forms _ => False

structure AcceptableArgument (arg : Argument) : Prop where
  name : arg.name ∉ FORBIDDEN_NAMES
  metadata : ∀ k ∈ arg.nl_annotations.keys, k ∈ ALLOWED_ARG_METADATA
  annotations : ∀ k ∈ arg.annotations.keys, k ∉ FORBIDDEN_NAMES
  string_values : ∀ type, arg.type.elem = .other type → arg.annotations.get? "string_values" = none
  canonical : L.preprocessParameterCanonical arg.filled = .ok ()

structure AcceptableFunction (options : Options) (what : What) (name : String) (fndef : Function) : Prop where
  name : name ∉ FORBIDDEN_NAMES
  metadata : ∀ k ∈ fndef.nl_annotations.keys, k ∈ ALLOWED_FUNCTION_METADATA
  annotations : ∀ k ∈ fndef.annotations.keys, k ∉ FORBIDDEN_NAMES
  canonical : ∀ phrase, given fndef.nl_annotations "canonical" = some phrase → Templates L phrase
  confirm : ∀ confirm, fndef.annotations.get? "confirm" = some confirm →
    (∃ b, confirm = .boolean b) ∨ ∃ s ∈ CONFIRM, confirm = .enum s
  poll_interval : options.checkPollInterval = true → what = .query → fndef.is_monitorable = true →
    ∃ poll_interval, fndef.annotations.get? "poll_interval" = some poll_interval ∧ poll_interval.negative L = false
  url : options.checkUrl = true → (fndef.annotations.get? "url").isSome = true
  args : ∀ arg ∈ fndef.args, AcceptableArgument L arg

/-- An entity that is declared, or in the table. -/
def Known (table : Entities) (classDef : Class) (entity : String) : Prop :=
  entity ∈ table.ids ∨ ∃ stmt ∈ classDef.entities, entity = classDef.kind ++ ":" ++ stmt.name

/-- What a class that is not abstract has to have is in its loader. -/
def Class.options (classDef : Class) : Options :=
  ⟨!classDef.is_abstract, !classDef.is_abstract && !classDef.loader.any JAVASCRIPT_MODULE_TYPES.contains⟩

structure Acceptable (table : Entities) (classDef : Class) : Prop where
  metadata : ∀ k ∈ classDef.nl_annotations.keys, k ∈ ALLOWED_CLASS_METADATA
  annotations : ∀ k ∈ classDef.annotations.keys, k ∉ FORBIDDEN_NAMES
  loader : classDef.is_abstract = false → classDef.loader.isSome = true
  described : ∀ stmt ∈ classDef.entities, ∃ s, stmt.description = some (.text s) ∧ s ≠ ""
  actions : ∀ name fndef, classDef.actions.get? name = some fndef → AcceptableFunction L classDef.options .action name fndef
  queries : ∀ name fndef, classDef.queries.get? name = some fndef → AcceptableFunction L classDef.options .query name fndef
  entities : ∀ entity, entity ∈ entitiesOf classDef.actions ∨ entity ∈ entitiesOf classDef.queries → Known table classDef entity
  parents : ∀ stmt ∈ classDef.entities, ∀ parent ∈ parents classDef.kind stmt, Known table classDef parent
  canonical : ∀ phrase, given classDef.nl_annotations "canonical" = some phrase → Templates L phrase

/-! ## Each check -/

theorem check_ok {c : Bool} {message : String} : check c message = .ok () ↔ c = false := by
  unfold check
  cases c
  · exact iff_of_true rfl rfl
  · exact iff_of_false nofun nofun

theorem rethrow_ok {about : String} {x : Except String Unit} : rethrow about x = .ok () ↔ x = .ok () := by
  cases x with
  | ok u => exact iff_of_true rfl rfl
  | error e => exact iff_of_false nofun nofun

theorem validateAnnotations_ok {annotations : Record Annotation} :
    validateAnnotations annotations = .ok () ↔ ∀ k ∈ annotations.keys, k ∉ FORBIDDEN_NAMES := by
  unfold validateAnnotations
  rw [forM_ok]
  simp only [check_ok, List.contains_eq_mem, decide_eq_false_iff_not]

theorem validateMetadata_ok {metadata : Record Phrase} {allowed : List String} :
    validateMetadata metadata allowed = .ok () ↔ ∀ k ∈ metadata.keys, k ∈ allowed := by
  unfold validateMetadata
  rw [forM_ok]
  simp only [check_ok, Bool.not_eq_false', List.contains_iff_mem]

theorem validateTemplateString_ok {key : String} {phrase : Phrase} :
    validateTemplateString L key phrase = .ok () ↔ Templates L phrase := by
  cases phrase with
  | text s => exact rethrow_ok
  | list phrases =>
    refine forM_ok.trans ?_
    simp only [rethrow_ok]
    rfl
  | forms byForm => exact iff_of_false nofun id

theorem option_forM_ok {α : Type} {f : α → Except Failure Unit} {x : Option α} :
    x.forM f = .ok () ↔ ∀ a, x = some a → f a = .ok () := by
  cases x with
  | none => exact iff_of_true rfl nofun
  | some a =>
    constructor
    · intro h b hb
      cases hb
      exact h
    · intro h
      exact h a rfl

theorem checkStringValues_ok {arg : Argument} : checkStringValues arg = .ok () ↔
    ∀ type, arg.type.elem = .other type → arg.annotations.get? "string_values" = none := by
  unfold checkStringValues
  split
  · rename_i name htype
    rw [check_ok, Option.isSome_eq_false_iff, Option.isNone_iff_eq_none]
    exact ⟨fun h _ _ => h, fun h => h name htype⟩
  · rename_i hother
    exact iff_of_true rfl fun type htype => absurd htype (hother type)

theorem checkArgument_ok {qualifiedName name : String} {arg : Argument} :
    checkArgument L qualifiedName name arg = .ok () ↔ AcceptableArgument L arg := by
  unfold checkArgument
  rw [seq_ok, seq_ok, seq_ok, seq_ok, check_ok, validateMetadata_ok, validateAnnotations_ok, checkStringValues_ok, rethrow_ok]
  constructor
  · rintro ⟨hname, hmetadata, hannotations, hvalues, hcanonical⟩
    exact ⟨by simpa using hname, hmetadata, hannotations, hvalues, hcanonical⟩
  · rintro ⟨hname, hmetadata, hannotations, hvalues, hcanonical⟩
    exact ⟨by simpa using hname, hmetadata, hannotations, hvalues, hcanonical⟩

theorem checkConfirm_ok {name : String} {fndef : Function} : checkConfirm name fndef = .ok () ↔
    ∀ confirm, fndef.annotations.get? "confirm" = some confirm →
      (∃ b, confirm = .boolean b) ∨ ∃ s ∈ CONFIRM, confirm = .enum s := by
  unfold checkConfirm
  cases hconfirm : fndef.annotations.get? "confirm" with
  | none => exact iff_of_true rfl nofun
  | some confirm =>
    have hsome : (∀ confirm', some confirm = some confirm' → (∃ b, confirm' = .boolean b) ∨ ∃ s ∈ CONFIRM, confirm' = .enum s) ↔
        (∃ b, confirm = .boolean b) ∨ ∃ s ∈ CONFIRM, confirm = .enum s :=
      ⟨fun h => h confirm rfl, fun h confirm' he => Option.some.inj he ▸ h⟩
    rw [hsome]
    cases confirm with
    | boolean b => exact iff_of_true rfl (Or.inl ⟨b, rfl⟩)
    | enum s =>
      dsimp only
      rw [check_ok, Bool.not_eq_false', List.contains_iff_mem]
      constructor
      · intro h
        exact Or.inr ⟨s, h, rfl⟩
      · rintro (⟨b, hb⟩ | ⟨s', hs', he⟩)
        · cases hb
        · cases he
          exact hs'
    | string s => exact iff_of_false nofun (by rintro (⟨b, hb⟩ | ⟨s, -, hs⟩); cases hb; cases hs)
    | number v => exact iff_of_false nofun (by rintro (⟨b, hb⟩ | ⟨s, -, hs⟩); cases hb; cases hs)
    | other => exact iff_of_false nofun (by rintro (⟨b, hb⟩ | ⟨s, -, hs⟩); cases hb; cases hs)

theorem checkPollInterval_ok {options : Options} {what : What} {name : String} {fndef : Function} :
    checkPollInterval L options what name fndef = .ok () ↔
      (options.checkPollInterval = true → what = .query → fndef.is_monitorable = true →
        ∃ poll_interval, fndef.annotations.get? "poll_interval" = some poll_interval ∧ poll_interval.negative L = false) := by
  unfold checkPollInterval
  split
  · rename_i hc
    simp only [Bool.and_eq_true, decide_eq_true_eq] at hc
    have hdrop : (options.checkPollInterval = true → what = .query → fndef.is_monitorable = true →
        ∃ poll_interval, fndef.annotations.get? "poll_interval" = some poll_interval ∧ poll_interval.negative L = false) ↔
        ∃ poll_interval, fndef.annotations.get? "poll_interval" = some poll_interval ∧ poll_interval.negative L = false :=
      ⟨fun h => h hc.1.1 hc.1.2 hc.2, fun h _ _ _ => h⟩
    rw [hdrop]
    cases fndef.annotations.get? "poll_interval" with
    | none => exact iff_of_false nofun nofun
    | some poll_interval =>
      dsimp only
      rw [check_ok]
      constructor
      · intro h
        exact ⟨poll_interval, rfl, h⟩
      · rintro ⟨_, he, h⟩
        cases he
        exact h
  · rename_i hc
    simp only [Bool.and_eq_true, decide_eq_true_eq] at hc
    exact iff_of_true rfl fun h1 h2 h3 => absurd ⟨⟨h1, h2⟩, h3⟩ hc

theorem checkFunction_ok {kind name : String} {options : Options} {what : What} {fndef : Function} :
    checkFunction L kind options what name fndef = .ok () ↔ AcceptableFunction L options what name fndef := by
  have hurl : (options.checkUrl && (fndef.annotations.get? "url").isNone) = false ↔
      (options.checkUrl = true → (fndef.annotations.get? "url").isSome = true) := by
    cases options.checkUrl <;> cases fndef.annotations.get? "url" <;> simp
  unfold checkFunction
  dsimp only
  rw [seq_ok, seq_ok, seq_ok, seq_ok, seq_ok, seq_ok, seq_ok, check_ok, validateMetadata_ok, validateAnnotations_ok,
    option_forM_ok, checkConfirm_ok, checkPollInterval_ok, check_ok, hurl, forM_ok]
  simp only [validateTemplateString_ok, checkArgument_ok, List.contains_eq_mem, decide_eq_false_iff_not]
  constructor
  · rintro ⟨hname, hmetadata, hannotations, hcanonical, hconfirm, hpoll, hurl, hargs⟩
    exact ⟨hname, hmetadata, hannotations, hcanonical, hconfirm, hpoll, hurl, hargs⟩
  · rintro ⟨hname, hmetadata, hannotations, hcanonical, hconfirm, hpoll, hurl, hargs⟩
    exact ⟨hname, hmetadata, hannotations, hcanonical, hconfirm, hpoll, hurl, hargs⟩

theorem validateInvocation_ok {kind : String} {where_ : Record Function} {what : What} {options : Options} :
    validateInvocation L kind where_ what options = .ok () ↔
      ∀ name fndef, where_.get? name = some fndef → AcceptableFunction L options what name fndef := by
  unfold validateInvocation
  rw [forM_ok]
  simp only [checkFunction_ok]
  constructor
  · intro h name fndef hf
    exact h (name, fndef) (Record.mem_entries.mpr hf)
  · intro h x hx
    exact h x.1 x.2 (Record.mem_entries.mp hx)

/-! ## Entities -/

/-- Rows as many as ids are rows for all of them, for no row comes twice. -/
theorem findNonExisting_nil {table : Entities} {ids : List String} :
    findNonExisting table ids = [] ↔ ∀ id ∈ ids, id ∈ table.ids := by
  have hmem : ∀ id ∈ ids, id ∈ table.ids.filter ids.contains ↔ id ∈ table.ids := by
    intro id hid
    rw [List.mem_filter, List.contains_iff_mem, and_iff_left hid]
  unfold findNonExisting
  dsimp only
  split
  · rename_i hlength
    refine iff_of_true rfl fun id hid => ?_
    rw [← hmem id hid]
    by_contra hnot
    have hsub : table.ids.filter ids.contains ⊆ ids.erase id := by
      intro x hx
      have hne : x ≠ id := by
        rintro rfl
        exact hnot hx
      exact (List.mem_erase_of_ne hne).mpr (List.contains_iff_mem.mp (List.mem_filter.mp hx).2)
    have hle := (List.subperm_of_subset (table.nodup.filter _) hsub).length_le
    rw [hlength, List.length_erase_of_mem hid] at hle
    have := List.length_pos_of_mem hid
    omega
  · rw [List.filter_eq_nil_iff]
    refine forall₂_congr fun id hid => ?_
    rw [Bool.not_eq_true', Bool.not_eq_false, List.contains_iff_mem, hmem id hid]

theorem checkEntities_ok {table : Entities} {classDef : Class} {entities : List String} :
    checkEntities table classDef entities = .ok () ↔ (∀ entity ∈ entities, Known table classDef entity) ∧
      ∀ stmt ∈ classDef.entities, ∀ parent ∈ parents classDef.kind stmt, Known table classDef parent := by
  have hknown : ∀ entity, Known table classDef entity ↔
      (entity ∉ classDef.entities.map (fun stmt => classDef.kind ++ ":" ++ stmt.name) → entity ∈ table.ids) := by
    intro entity
    unfold Known
    rw [List.mem_map, ← or_iff_not_imp_left, or_comm]
    simp only [eq_comm]
  unfold checkEntities
  dsimp only
  rw [check_ok, Bool.not_eq_false', List.isEmpty_iff, findNonExisting_nil]
  simp only [List.mem_filter, List.mem_append, List.mem_flatMap, Bool.not_eq_true', List.contains_eq_mem,
    decide_eq_false_iff_not, hknown]
  constructor
  · intro h
    exact ⟨fun entity he hnot => h entity ⟨Or.inl he, hnot⟩,
      fun stmt hs parent hp hnot => h parent ⟨Or.inr ⟨stmt, hs, hp⟩, hnot⟩⟩
  · rintro ⟨hentities, hparents⟩ entity ⟨he | ⟨stmt, hs, hp⟩, hnot⟩
    · exact hentities entity he hnot
    · exact hparents stmt hs entity hp hnot

theorem checkEntity_ok {stmt : EntityDef} :
    checkEntity stmt = .ok () ↔ ∃ s, stmt.description = some (.text s) ∧ s ≠ "" := by
  unfold checkEntity
  rw [check_ok]
  split
  · rename_i s hs
    rw [decide_eq_false_iff_not, hs]
    constructor
    · intro h
      exact ⟨s, rfl, h⟩
    · rintro ⟨s', he, h⟩
      cases he
      exact h
  · rename_i hother
    exact iff_of_false nofun fun ⟨s, hs, _⟩ => hother s hs

/-! ## Exactly the acceptable classes -/

theorem validateClass_iff (table : Entities) (options : DeviceMetadata) (classDef out : Class) :
    validateClass L table options classDef = .ok out ↔ Acceptable L table classDef ∧ out = classDef.filled L options := by
  have hall : ∀ {entities : List String}, validateAllInvocations L classDef classDef.options = .ok entities ↔
      (∀ name fndef, classDef.actions.get? name = some fndef → AcceptableFunction L classDef.options .action name fndef) ∧
      (∀ name fndef, classDef.queries.get? name = some fndef → AcceptableFunction L classDef.options .query name fndef) ∧
      entities = (entitiesOf classDef.actions ++ entitiesOf classDef.queries).eraseDups := by
    intro entities
    unfold validateAllInvocations
    rw [seq_ok, seq_ok, validateInvocation_ok, validateInvocation_ok]
    refine and_congr_right fun _ => and_congr_right fun _ => ?_
    exact ⟨fun h => (Except.ok.inj h).symm, fun h => congrArg Except.ok h.symm⟩
  have hloader : (!classDef.is_abstract && classDef.loader.isNone) = false ↔
      (classDef.is_abstract = false → classDef.loader.isSome = true) := by
    cases classDef.is_abstract <;> cases classDef.loader <;> simp
  have hentities : (∀ entity ∈ (entitiesOf classDef.actions ++ entitiesOf classDef.queries).eraseDups,
      Known table classDef entity) ↔
      ∀ entity, entity ∈ entitiesOf classDef.actions ∨ entity ∈ entitiesOf classDef.queries → Known table classDef entity := by
    simp only [List.mem_eraseDups, List.mem_append]
  have hrest : ∀ entities, (checkEntities table classDef entities >>= fun _ =>
      (given classDef.nl_annotations "canonical").forM (validateTemplateString L classDef.kind) >>= fun _ =>
        (pure (classDef.filled L options) : Except Failure Class)) = .ok out ↔
      ((∀ entity ∈ entities, Known table classDef entity) ∧
        ∀ stmt ∈ classDef.entities, ∀ parent ∈ parents classDef.kind stmt, Known table classDef parent) ∧
      (∀ phrase, given classDef.nl_annotations "canonical" = some phrase → Templates L phrase) ∧
      out = classDef.filled L options := by
    intro entities
    rw [seq_ok, seq_ok, checkEntities_ok, option_forM_ok]
    simp only [validateTemplateString_ok]
    exact and_congr_right fun _ => and_congr_right fun _ =>
      ⟨fun h => (Except.ok.inj h).symm, fun h => congrArg Except.ok h.symm⟩
  unfold validateClass
  dsimp only
  rw [seq_ok, seq_ok, seq_ok, seq_ok, validateMetadata_ok, validateAnnotations_ok, check_ok, hloader, forM_ok]
  simp only [checkEntity_ok]
  constructor
  · rintro ⟨hmetadata, hannotations, hloader, hdescribed, h⟩
    obtain ⟨entities, he, h⟩ := bind_ok h
    obtain ⟨hactions, hqueries, rfl⟩ := hall.mp he
    obtain ⟨⟨hknown, hparents⟩, hcanonical, hout⟩ := (hrest _).mp h
    exact ⟨⟨hmetadata, hannotations, hloader, hdescribed, hactions, hqueries, hentities.mp hknown, hparents, hcanonical⟩, hout⟩
  · rintro ⟨⟨hmetadata, hannotations, hloader, hdescribed, hactions, hqueries, hknown, hparents, hcanonical⟩, hout⟩
    refine ⟨hmetadata, hannotations, hloader, hdescribed, ?_⟩
    have he := hall.mpr ⟨hactions, hqueries, rfl⟩
    unfold Class.options at he
    rw [he]
    exact (hrest _).mpr ⟨⟨hentities.mpr hknown, hparents⟩, hcanonical, hout⟩

/-! ## Where a syntax error is -/

def lineOf (code : String) (line : Nat) : Option (List Char) := (code.toList.splitOn '\n')[line - 1]?

/-- The lines of the two files, one after the other. -/
theorem lineOf_both (classCode datasetCode : String) {line : Nat} (hline : 0 < line) :
    lineOf (classCode ++ "\n" ++ datasetCode) line =
      if line ≤ lines classCode then lineOf classCode line else lineOf datasetCode (line - lines classCode) := by
  have hsplit : (classCode ++ "\n" ++ datasetCode).toList.splitOn '\n' =
      classCode.toList.splitOn '\n' ++ datasetCode.toList.splitOn '\n' := by
    rw [String.toList_append, String.toList_append, List.append_assoc]
    exact List.splitOn_append_cons_self ..
  unfold lineOf lines
  rw [hsplit]
  split
  · exact List.getElem?_append_left (by omega)
  · rw [List.getElem?_append_right (by omega)]
    congr 1
    omega

theorem located_iff {parse : String → Except ParseError (Option (Library E))} {kind classCode datasetCode message : String}
    {line : Nat} (hparse : parse (classCode ++ "\n" ++ datasetCode) = .error (.syntaxError line message)) (hpos : 0 < line) :
    ∃ file inFile, loadClassDef parse kind classCode datasetCode =
        .error (.badRequest s!"Syntax error in {file} line {inFile}: {message}") ∧
      (lineOf (if file = "dataset.tt" then datasetCode else classCode) inFile =
        lineOf (classCode ++ "\n" ++ datasetCode) line ↔ line ≠ lines classCode + 1) := by
  refine ⟨(locate classCode line).1, (locate classCode line).2, ?_, ?_⟩
  · unfold loadClassDef
    rw [hparse]
    rfl
  · rw [lineOf_both classCode datasetCode hpos]
    rcases Nat.lt_or_ge (1 + lines classCode) line with hdataset | hmanifest
    · have hlocate : locate classCode line = ("dataset.tt", line - (1 + lines classCode) + 1) := if_pos hdataset
      rw [hlocate, if_pos rfl, if_neg (by omega), show line - (1 + lines classCode) + 1 = line - lines classCode by omega]
      exact iff_of_true rfl (by omega)
    · have hlocate : locate classCode line = ("manifest.tt", line) := if_neg (by omega)
      rw [hlocate, if_neg (show "manifest.tt" ≠ "dataset.tt" by decide)]
      by_cases hclass : line ≤ lines classCode
      · rw [if_pos hclass]
        exact iff_of_true rfl (by omega)
      · -- the class has no such line, but the dataset has a first one
        rw [if_neg hclass, show line = lines classCode + 1 by omega, Nat.add_sub_cancel_left]
        refine iff_of_false ?_ (fun hne => hne rfl)
        have hsome := List.length_pos_of_ne_nil (List.splitOn_ne_nil '\n' datasetCode.toList)
        unfold lineOf lines
        rw [Nat.add_sub_cancel, List.getElem?_eq_none le_rfl, List.getElem?_eq_getElem hsome]
        exact nofun

/-! ## Filled in twice -/

section Filled

variable {L}

theorem given_set {annotations : Record Phrase} {name : String} {phrase : Phrase} :
    given (annotations.set name phrase) name = if phrase.truthy then some phrase else none := by
  unfold given
  rw [Record.get?_set, if_pos rfl]
  rfl

theorem Argument.filled_filled (arg : Argument) : arg.filled.filled = arg.filled := by
  unfold Argument.filled
  cases h : given arg.nl_annotations "canonical" with
  | some phrase =>
    dsimp only
    rw [h]
  | none =>
    dsimp only
    cases h' : given (arg.nl_annotations.set "canonical" (.text (clean arg.name))) "canonical" with
    | some phrase => rfl
    | none =>
      dsimp only
      rw [Record.set_eq_self (by rw [Record.get?_set, if_pos rfl])]

theorem canonicalForms_set (name : String) (annotations : Record Phrase) (forms : List Phrase) :
    canonicalForms name (annotations.set "canonical" (.list forms)) = forms := by
  unfold canonicalForms
  rw [given_set]
  rfl

theorem Function.filled_filled (what : What) (name : String) (fndef : Function) :
    (fndef.filled what name).filled what name = fndef.filled what name := by
  have hannotations : ∀ annotations : Record Annotation, ∀ b,
      (match (match annotations.get? "confirm" with | some _ => annotations | none => annotations.set "confirm" b).get? "confirm" with
        | some _ => match annotations.get? "confirm" with | some _ => annotations | none => annotations.set "confirm" b
        | none => (match annotations.get? "confirm" with | some _ => annotations | none => annotations.set "confirm" b).set "confirm" b) =
      match annotations.get? "confirm" with | some _ => annotations | none => annotations.set "confirm" b := by
    intro annotations b
    cases h : annotations.get? "confirm" with
    | some a =>
      dsimp only
      rw [h]
    | none =>
      dsimp only
      rw [Record.get?_set, if_pos rfl]
  unfold Function.filled
  dsimp only
  rw [canonicalForms_set, Record.set_eq_self (by rw [Record.get?_set, if_pos rfl]), List.map_map]
  have hargs : Argument.filled ∘ Argument.filled = Argument.filled := funext Argument.filled_filled
  rw [hargs, hannotations]

theorem orElse_self {annotations filled : Record Phrase} {name : String} {value : Phrase}
    (h : filled.get? name = (orElse annotations name value).get? name) : orElse filled name value = filled := by
  unfold orElse at h ⊢
  cases hgiven : given filled name with
  | some phrase => rfl
  | none =>
    dsimp only
    cases ha : given annotations name with
    | some phrase =>
      rw [ha] at h
      dsimp only at h
      unfold given at hgiven ha
      rw [h] at hgiven
      rw [hgiven] at ha
      cases ha
    | none =>
      rw [ha] at h
      dsimp only at h
      rw [Record.get?_set, if_pos rfl] at h
      exact Record.set_eq_self h

theorem get?_orElse_of_ne {annotations : Record Phrase} {name name' : String} {value : Phrase} (h : name ≠ name') :
    (orElse annotations name value).get? name' = annotations.get? name' := by
  unfold orElse
  split
  · rfl
  · rw [Record.get?_set, if_neg h]

theorem nlAnnotations_twice (options : DeviceMetadata) (annotations : Record Phrase) :
    nlAnnotations L options (nlAnnotations L options annotations) = nlAnnotations L options annotations := by
  have hname : (nlAnnotations L options annotations).get? "name" =
      (orElse annotations "name" (.text options.name)).get? "name" := by
    simp [nlAnnotations, Record.get?_set, get?_orElse_of_ne]
  have hdescription : (nlAnnotations L options annotations).get? "description" =
      (orElse (orElse annotations "name" (.text options.name)) "description" (.text options.description)).get? "description" := by
    simp [nlAnnotations, Record.get?_set, get?_orElse_of_ne]
  have hcanonical : (nlAnnotations L options annotations).get? "canonical" =
      (orElse (orElse (orElse annotations "name" (.text options.name)) "description" (.text options.description)) "canonical"
        (.text (canonicalName L options))).get? "canonical" := by
    simp [nlAnnotations, Record.get?_set]
  have hthingpedia_name : (nlAnnotations L options annotations).get? "thingpedia_name" = some (.text options.name) := by
    simp [nlAnnotations, Record.get?_set]
  have hthingpedia_description :
      (nlAnnotations L options annotations).get? "thingpedia_description" = some (.text options.description) := by
    simp [nlAnnotations, Record.get?_set]
  generalize nlAnnotations L options annotations = filled at *
  unfold nlAnnotations
  dsimp only
  rw [orElse_self hname, orElse_self hdescription, orElse_self hcanonical, Record.set_eq_self hthingpedia_name,
    Record.set_eq_self hthingpedia_description]

theorem get?_setLink_of_ne {annotations : Record Annotation} {name name' : String} {url : Option String} (h : name ≠ name') :
    (setLink annotations name url).get? name' = annotations.get? name' := by
  unfold setLink
  split
  · rfl
  · split
    · rfl
    · rw [Record.get?_set, if_neg h]

theorem setLink_self {annotations filled : Record Annotation} {name : String} {url : Option String}
    (h : filled.get? name = (setLink annotations name url).get? name) : setLink filled name url = filled := by
  unfold setLink at h ⊢
  split
  · rfl
  · split
    · rfl
    · next hurl =>
      dsimp only at h
      rw [if_neg hurl, Record.get?_set, if_pos rfl] at h
      exact Record.set_eq_self h

theorem implAnnotations_twice (options : DeviceMetadata) (annotations : Record Annotation) :
    implAnnotations options (implAnnotations options annotations) = implAnnotations options annotations := by
  have hsubcategory : (implAnnotations options annotations).get? "subcategory" = some (.enum options.subcategory) := by
    simp [implAnnotations, Record.get?_set, get?_setLink_of_ne]
  have hlicense : (implAnnotations options annotations).get? "license" = some (.string options.license) := by
    simp [implAnnotations, Record.get?_set, get?_setLink_of_ne]
  have hgpl : (implAnnotations options annotations).get? "license_gplcompatible" =
      some (.boolean options.license_gplcompatible) := by
    simp [implAnnotations, Record.get?_set, get?_setLink_of_ne]
  obtain ⟨base, hwebsite, hrepository, hissues⟩ : ∃ base,
      (implAnnotations options annotations).get? "website" = (setLink base "website" options.website).get? "website" ∧
      (implAnnotations options annotations).get? "repository" =
        (setLink (setLink base "website" options.website) "repository" options.repository).get? "repository" ∧
      (implAnnotations options annotations).get? "issue_tracker" =
        (setLink (setLink (setLink base "website" options.website) "repository" options.repository) "issue_tracker"
          options.issue_tracker).get? "issue_tracker" := by
    refine ⟨_, ?_, ?_, rfl⟩
    · exact (get?_setLink_of_ne (by decide)).trans (get?_setLink_of_ne (by decide))
    · exact get?_setLink_of_ne (by decide)
  generalize implAnnotations options annotations = filled at *
  unfold implAnnotations
  dsimp only
  rw [Record.set_eq_self hsubcategory, Record.set_eq_self hlicense, Record.set_eq_self hgpl, setLink_self hwebsite,
    setLink_self hrepository, setLink_self hissues]

theorem Class.filled_filled (options : DeviceMetadata) (classDef : Class) :
    (classDef.filled L options).filled L options = classDef.filled L options := by
  have hmap : ∀ (what : What) (where_ : Record Function),
      (where_.map (Function.filled what)).map (Function.filled what) = where_.map (Function.filled what) := by
    intro what where_
    unfold Record.map
    simp only [List.map_map, Record.mk.injEq]
    exact List.map_congr_left fun x _ => Prod.ext rfl (Function.filled_filled what x.1 x.2)
  have hconfig : ∀ config : Option String, ∀ module_, (config.or (some module_)).or (some module_) = config.or (some module_) := by
    intro config module_
    cases config <;> rfl
  unfold Class.filled
  dsimp only
  rw [nlAnnotations_twice, implAnnotations_twice, hmap, hmap]
  cases classDef.is_abstract with
  | true => rfl
  | false =>
    simp only [Bool.false_eq_true, if_false, hconfig]

/-! ## Accepted once more -/

theorem Argument.filled_acceptable {arg : Argument} (h : AcceptableArgument L arg) : AcceptableArgument L arg.filled := by
  have hcanonical : L.preprocessParameterCanonical arg.filled.filled = .ok () := by
    rw [Argument.filled_filled]
    exact h.canonical
  cases hgiven : given arg.nl_annotations "canonical" with
  | some phrase =>
    have hsame : arg.filled = arg := by
      unfold Argument.filled
      rw [hgiven]
    rw [hsame]
    exact h
  | none =>
    have hset : arg.filled = { arg with nl_annotations := arg.nl_annotations.set "canonical" (.text (clean arg.name)) } := by
      unfold Argument.filled
      rw [hgiven]
    rw [hset] at hcanonical ⊢
    refine ⟨h.name, ?_, h.annotations, h.string_values, hcanonical⟩
    intro k hk
    rcases Record.mem_keys_set.mp hk with rfl | hk
    · decide
    · exact h.metadata k hk

/-- The canonical form that is made up is a template. -/
def Function.Canonical (L : Language) (name : String) (fndef : Function) : Prop :=
  given fndef.nl_annotations "canonical" = none → L.template (.text (clean name)) = .ok ()

theorem Function.forms_iff {name : String} {fndef : Function}
    (h : ∀ phrase, given fndef.nl_annotations "canonical" = some phrase → Templates L phrase) :
    (∀ phrase ∈ canonicalForms name fndef.nl_annotations, L.template phrase = .ok ()) ↔ fndef.Canonical L name := by
  unfold canonicalForms Function.Canonical
  cases hgiven : given fndef.nl_annotations "canonical" with
  | none => simp only [List.mem_singleton, forall_eq, forall_const]
  | some phrase =>
    refine iff_of_true ?_ nofun
    have htemplates := h phrase hgiven
    cases phrase with
    | list phrases => exact htemplates
    | text s =>
      intro phrase hp
      rw [List.mem_singleton.mp hp]
      exact htemplates
    | forms byForm => exact absurd htemplates id

theorem Function.filled_acceptable {options : Options} {what : What} {name : String} {fndef : Function}
    (h : AcceptableFunction L options what name fndef) :
    AcceptableFunction L options what name (fndef.filled what name) ↔ fndef.Canonical L name := by
  have hgiven : given (fndef.filled what name).nl_annotations "canonical" =
      some (.list (canonicalForms name fndef.nl_annotations)) := given_set
  constructor
  · intro hfilled
    exact (Function.forms_iff h.canonical).mp (hfilled.canonical _ hgiven)
  · intro hcanonical
    have hother : ∀ k, k ≠ "confirm" → (fndef.filled what name).annotations.get? k = fndef.annotations.get? k := by
      intro k hk
      unfold Function.filled
      dsimp only
      split
      · rfl
      · rw [Record.get?_set, if_neg hk.symm]
    constructor
    case name => exact h.name
    case metadata =>
      intro k hk
      rcases Record.mem_keys_set.mp hk with rfl | hk
      · decide
      · exact h.metadata k hk
    case annotations =>
      intro k hk
      by_cases hconfirm : k = "confirm"
      · rw [hconfirm]
        decide
      · rw [Record.mem_keys, hother k hconfirm] at hk
        exact h.annotations k (Record.mem_keys.mpr hk)
    case canonical =>
      intro phrase hp
      rw [hgiven] at hp
      cases hp
      exact (Function.forms_iff h.canonical).mpr hcanonical
    case confirm =>
      intro confirm hc
      unfold Function.filled at hc
      dsimp only at hc
      split at hc
      · exact h.confirm confirm hc
      · rw [Record.get?_set, if_pos rfl] at hc
        cases hc
        exact Or.inl ⟨_, rfl⟩
    case poll_interval =>
      rw [hother "poll_interval" (by decide)]
      exact h.poll_interval
    case url =>
      rw [hother "url" (by decide)]
      exact h.url
    case args =>
      intro arg ha
      obtain ⟨arg', ha', rfl⟩ := List.mem_map.mp ha
      exact Argument.filled_acceptable (h.args arg' ha')

theorem Argument.entity_filled (arg : Argument) : arg.filled.entity = arg.entity := by
  have htype : arg.filled.type = arg.type := by
    unfold Argument.filled
    split <;> rfl
  unfold Argument.entity
  rw [htype]

theorem entitiesOf_filled (what : What) (where_ : Record Function) :
    entitiesOf (where_.map (Function.filled what)) = entitiesOf where_ := by
  unfold entitiesOf Record.map Function.filled
  simp only [List.flatMap_map, Argument.entity_filled]

theorem given_orElse (annotations : Record Phrase) (name : String) (value : Phrase) :
    given (orElse annotations name value) name = (given annotations name).or (if value.truthy then some value else none) := by
  unfold orElse
  cases hgiven : given annotations name with
  | some phrase => exact hgiven
  | none => exact given_set

theorem mem_keys_orElse {annotations : Record Phrase} {name k : String} {value : Phrase}
    (h : k ∈ (orElse annotations name value).keys) : k = name ∨ k ∈ annotations.keys := by
  unfold orElse at h
  split at h
  · exact Or.inr h
  · exact Record.mem_keys_set.mp h

theorem mem_keys_setLink {annotations : Record Annotation} {name k : String} {url : Option String}
    (h : k ∈ (setLink annotations name url).keys) : k = name ∨ k ∈ annotations.keys := by
  unfold setLink at h
  split at h
  · exact Or.inr h
  · split at h
    · exact Or.inr h
    · exact Record.mem_keys_set.mp h

theorem nlAnnotations_allowed {options : DeviceMetadata} {annotations : Record Phrase}
    (h : ∀ k ∈ annotations.keys, k ∈ ALLOWED_CLASS_METADATA) :
    ∀ k ∈ (nlAnnotations L options annotations).keys, k ∈ ALLOWED_CLASS_METADATA := by
  intro k hk
  rcases Record.mem_keys_set.mp hk with rfl | hk
  · decide
  rcases Record.mem_keys_set.mp hk with rfl | hk
  · decide
  rcases mem_keys_orElse hk with rfl | hk
  · decide
  rcases mem_keys_orElse hk with rfl | hk
  · decide
  rcases mem_keys_orElse hk with rfl | hk
  · decide
  · exact h k hk

theorem implAnnotations_allowed {options : DeviceMetadata} {annotations : Record Annotation}
    (h : ∀ k ∈ annotations.keys, k ∉ FORBIDDEN_NAMES) : ∀ k ∈ (implAnnotations options annotations).keys, k ∉ FORBIDDEN_NAMES := by
  intro k hk
  rcases mem_keys_setLink hk with rfl | hk
  · decide
  rcases mem_keys_setLink hk with rfl | hk
  · decide
  rcases mem_keys_setLink hk with rfl | hk
  · decide
  rcases Record.mem_keys_set.mp hk with rfl | hk
  · decide
  rcases Record.mem_keys_set.mp hk with rfl | hk
  · decide
  rcases Record.mem_keys_set.mp hk with rfl | hk
  · decide
  · exact h k hk

/-- The canonical form of the class that is made up is a template, or there are no tokens for one. -/
def Class.Canonical (L : Language) (options : DeviceMetadata) (classDef : Class) : Prop :=
  given classDef.nl_annotations "canonical" = none → canonicalName L options ≠ "" →
    L.template (.text (canonicalName L options)) = .ok ()

theorem given_filled (options : DeviceMetadata) (classDef : Class) :
    given (classDef.filled L options).nl_annotations "canonical" = (given classDef.nl_annotations "canonical").or
      (if canonicalName L options ≠ "" then some (.text (canonicalName L options)) else none) := by
  have hget : (classDef.filled L options).nl_annotations.get? "canonical" =
      (orElse (orElse (orElse classDef.nl_annotations "name" (.text options.name)) "description" (.text options.description))
        "canonical" (.text (canonicalName L options))).get? "canonical" := by
    simp [Class.filled, nlAnnotations, Record.get?_set]
  have hgiven : given (classDef.filled L options).nl_annotations "canonical" = given (orElse (orElse (orElse
      classDef.nl_annotations "name" (.text options.name)) "description" (.text options.description))
      "canonical" (.text (canonicalName L options))) "canonical" := congrArg (Option.filter Phrase.truthy) hget
  have hbefore : given (orElse (orElse classDef.nl_annotations "name" (.text options.name)) "description"
      (.text options.description)) "canonical" = given classDef.nl_annotations "canonical" := by
    unfold given
    rw [get?_orElse_of_ne (by decide), get?_orElse_of_ne (by decide)]
  rw [hgiven, given_orElse, hbefore]
  simp only [Phrase.truthy, decide_eq_true_eq]

theorem Class.filled_acceptable {table : Entities} {options : DeviceMetadata} {classDef : Class}
    (h : Acceptable L table classDef) : Acceptable L table (classDef.filled L options) ↔
      (∀ name fndef, classDef.actions.get? name = some fndef ∨ classDef.queries.get? name = some fndef →
        fndef.Canonical L name) ∧ classDef.Canonical L options := by
  have hget : ∀ {what : What} {where_ : Record Function} {name : String} {fndef : Function}, where_.get? name = some fndef →
      (where_.map (Function.filled what)).get? name = some (fndef.filled what name) := by
    intro what where_ name fndef hf
    rw [Record.get?_map, hf]
    rfl
  have hclass : (∀ phrase, given (classDef.filled L options).nl_annotations "canonical" = some phrase → Templates L phrase) ↔
      classDef.Canonical L options := by
    rw [given_filled]
    unfold Class.Canonical
    cases hgiven : given classDef.nl_annotations "canonical" with
    | some phrase =>
      refine iff_of_true ?_ nofun
      intro phrase' hp
      cases hp
      exact h.canonical phrase hgiven
    | none =>
      rw [Option.none_or]
      split
      · rename_i hne
        constructor
        · intro hcanonical _ _
          exact hcanonical _ rfl
        · intro hcanonical phrase hp
          cases hp
          exact hcanonical rfl hne
      · rename_i he
        exact iff_of_true nofun fun _ hne => absurd hne he
  constructor
  · intro hfilled
    refine ⟨fun name fndef hf => ?_, hclass.mp hfilled.canonical⟩
    rcases hf with hf | hf
    · exact (Function.filled_acceptable (h.actions name fndef hf)).mp (hfilled.actions name _ (hget hf))
    · exact (Function.filled_acceptable (h.queries name fndef hf)).mp (hfilled.queries name _ (hget hf))
  · rintro ⟨hfunctions, hcanonical⟩
    constructor
    case metadata => exact nlAnnotations_allowed h.metadata
    case annotations => exact implAnnotations_allowed h.annotations
    case loader => exact h.loader
    case described => exact h.described
    case actions =>
      intro name fndef hf
      have hf : (classDef.actions.map (Function.filled .action)).get? name = some fndef := hf
      rw [Record.get?_map] at hf
      obtain ⟨fndef', hf', rfl⟩ := Option.map_eq_some_iff.mp hf
      exact (Function.filled_acceptable (h.actions name fndef' hf')).mpr (hfunctions name fndef' (Or.inl hf'))
    case queries =>
      intro name fndef hf
      have hf : (classDef.queries.map (Function.filled .query)).get? name = some fndef := hf
      rw [Record.get?_map] at hf
      obtain ⟨fndef', hf', rfl⟩ := Option.map_eq_some_iff.mp hf
      exact (Function.filled_acceptable (h.queries name fndef' hf')).mpr (hfunctions name fndef' (Or.inr hf'))
    case entities =>
      intro entity he
      refine h.entities entity ?_
      rw [← entitiesOf_filled .action classDef.actions, ← entitiesOf_filled .query classDef.queries]
      exact he
    case parents => exact h.parents
    case canonical => exact hclass.mpr hcanonical

theorem validated_again_iff {table : Entities} {options : DeviceMetadata} {classDef out : Class}
    (h : validateClass L table options classDef = .ok out) : validateClass L table options out = .ok out ↔
      (∀ name fndef, classDef.actions.get? name = some fndef ∨ classDef.queries.get? name = some fndef →
        fndef.Canonical L name) ∧ classDef.Canonical L options := by
  obtain ⟨hacceptable, rfl⟩ := (validateClass_iff L table options classDef out).mp h
  rw [validateClass_iff, Class.filled_acceptable hacceptable, Class.filled_filled]
  exact and_iff_left rfl

/-! ### A lamp -/

def english : Language where
  template
    | .text s => if s.toList.contains '{' then .error "Expected a closing brace" else .ok ()
    | _ => .ok ()
  preprocessParameterCanonical _ := .ok ()
  tokenize name := [name]
  toNumber _ := none

def lampForm (name : String) : DeviceMetadata where
  name
  description := "A lamp."
  primary_kind := "com.lamp"
  license := "MIT"
  license_gplcompatible := true
  subcategory := "home"
  website := some "https://lamp.com"
  repository := none
  issue_tracker := none

def lampClass : Class where
  kind := "com.lamp"
  is_abstract := false
  loader := some "org.thingpedia.v2"
  config := none
  entities := []
  nl_annotations := .empty
  annotations := .empty
  queries := .empty
  actions := Record.empty.set "set_power" ⟨false, .empty, .empty, [⟨"power", .other "Enum", .empty, .empty⟩]⟩

def noEntities : Entities := ⟨[], List.nodup_nil⟩

theorem validated_again_lamp : validateClass english noEntities (lampForm "lamp") (lampClass.filled english (lampForm "lamp")) =
    .ok (lampClass.filled english (lampForm "lamp")) := by
  have hlamp : validateClass english noEntities (lampForm "lamp") lampClass =
      .ok (lampClass.filled english (lampForm "lamp")) := rfl
  refine (validated_again_iff hlamp).mpr ⟨?_, fun _ _ => rfl⟩
  intro name fndef hf _
  rcases hf with hf | hf
  · have hname : (name, fndef) ∈ lampClass.actions.entries := Record.mem_entries.mpr hf
    rw [show name = "set_power" from congrArg Prod.fst (List.mem_singleton.mp hname)]
    rfl
  · cases hf

/-- A name with a brace in it is not a template, but it is when it is read back that it is refused. -/
example : (validateClass english noEntities (lampForm "lamp \x7b") lampClass).isOk = true ∧
    (validateClass english noEntities (lampForm "lamp \x7b") (lampClass.filled english (lampForm "lamp \x7b"))).isOk = false := by
  decide

end Filled

end GenieCloud.Thingpedia.ClassValidation
