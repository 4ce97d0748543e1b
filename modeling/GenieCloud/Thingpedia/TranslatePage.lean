/-
  GenieCloud.Thingpedia.TranslatePage — the page from which a device is translated
  (`GET /by-id/:kind` of `routes/thingpedia_translate.ts`).

  The English side of the page is read at the version that the user sees of a device. The
  side to translate is read at the version that is asked for, up to a bound: the developer
  version for the owner and for those that are no administrators, the approved version
  for the other administrators.

  `guarded_iff`: outsiders are shown the same whatever the versions that are not approved hold,
  and the others are offered the developer version, exactly if what is read for an
  outsider has no such version (`Shielded`), and an administrator that is not the
  owner finds the developer version approved.
-/

import GenieCloud.Lib.Json
import GenieCloud.Lib.Result
import GenieCloud.Nlp.Learn
import GenieCloud.Thingpedia.Dataset
import GenieCloud.Util.Utterance

namespace GenieCloud.Thingpedia.TranslatePage

open GenieCloud.Lib GenieCloud.Lib.Json
open Nlp.Learn (localeToLanguage)
open Util.Utterance (objectPrototype)

variable {N Ast β : Type}

/-! ## The pairs -/

structure Pair (α β : Type) where
  english : α
  translated : β

structure FormatPair (N : Type) where
  type : Option (Value N)
  values : List (String × Pair (Value N) (Option (Value N)))

structure ArgumentPair (N : Type) where
  name : String
  argcanonical : Pair (Option (Value N)) (Option (Value N))
  question : Pair (Option String) (Option String)

structure FunctionPair (N : Type) where
  canonical : Pair Nullable Nullable
  confirmation : Pair Nullable Nullable
  formatted : List (FormatPair N)
  args : List (ArgumentPair N)

/-- What is read of a translated function; `none` is `undefined`. -/
structure Translated (N : Type) where
  canonical : Nullable
  confirmation : Nullable
  formatted : Option (List (Value N))
  questions : Option (List String)
  argcanonicals : Option (List (Value N))

/-- A function that is missing is empty, but for one that every object has. -/
def translatedOf (translated : Record (SchemaChannelMetadata (Value N))) (name : String) : Translated N :=
  match translated.get? name with
  | some channel =>
    ⟨channel.canonical, channel.confirmation, some channel.formatted, some channel.questions, some channel.argcanonicals⟩
  | none =>
    if objectPrototype.contains name then ⟨.undefined, .undefined, none, none, none⟩
    else ⟨.string "", .string "", some [], some [], some []⟩

def typeError : Failure := .thrown "TypeError"

/-- The own properties that are enumerated. -/
def properties : Value N → List (String × Value N)
  | .obj fields => fields
  | .arr elements => elements.zipIdx.map fun x => (toString x.2, x.1)
  | _ => []

def textFormat : Value N → Value N
  | .str s => .obj [("type", .str "text"), ("text", .str s)]
  | format => format

/-- `format || {}` -/
def orEmpty : Option (Value N) → Value N
  | some (.str s) => if s = "" then .obj [] else .str s
  | some format => format
  | none => .obj []

def pairFormat (english : Value N) (translated : Option (Value N)) : Except Failure (FormatPair N) :=
  match textFormat english with
  | .null => .error typeError
  | english =>
    .ok {
      type := (properties english).lookup "type"
      values := ((properties english).filter (·.1 ≠ "type")).map fun x =>
        (x.1, ⟨x.2, (properties (textFormat (orEmpty translated))).lookup x.1⟩) }

def pairFormats (english : List (Value N)) (translated : Option (List (Value N))) : Except Failure (List (FormatPair N)) :=
  english.zipIdx.mapM fun x =>
    match translated with
    | some formatted => pairFormat x.1 formatted[x.2]?
    | none => .error typeError

def pairArguments (english : SchemaChannelMetadata (Value N)) (translated : Translated N) :
    Except Failure (List (ArgumentPair N)) :=
  english.args.zipIdx.mapM fun x =>
    match translated.argcanonicals, translated.questions with
    | some argcanonicals, some questions => .ok {
        name := x.1
        argcanonical := ⟨english.argcanonicals[x.2]?, argcanonicals[x.2]?⟩
        question := ⟨english.questions[x.2]?, questions[x.2]?⟩ }
    | _, _ => .error typeError

def pairFunction (english : SchemaChannelMetadata (Value N)) (translated : Translated N) :
    Except Failure (FunctionPair N) := do
  let formatted ← pairFormats english.formatted translated.formatted
  let args ← pairArguments english translated
  return {
    canonical := ⟨english.canonical, translated.canonical⟩
    confirmation := ⟨english.confirmation, translated.confirmation⟩
    formatted
    args }

/-- One of `actions` and `queries`. -/
def pairFunctions (english translated : Record (SchemaChannelMetadata (Value N))) :
    Except Failure (List (String × FunctionPair N)) :=
  english.entries.mapM fun x => (pairFunction x.2 (translatedOf translated x.1)).map (x.1, ·)

/-- Without an English side there is nothing to read `actions` of. -/
def makeTranslationPairs (english : Option (SchemaMetadata (Value N))) (translated : SchemaMetadata (Value N)) :
    Except Failure (List (String × FunctionPair N) × List (String × FunctionPair N)) :=
  match english with
  | none => .error typeError
  | some english => do
    let actions ← pairFunctions english.actions translated.actions
    let queries ← pairFunctions english.queries translated.queries
    return (actions, queries)

/-! ## The request -/

/-- What `parseInt` makes of a text. -/
inductive Parsed where
  | int (v : Int)
  | nan
  deriving DecidableEq, Repr

structure Request where
  locale : String
  developer_org : Option Nat
  roles : Nat
  fromVersion : Option Parsed

structure Page (N : Type) where
  kind : String
  language : String
  fromVersion : Parsed
  actions : List (String × FunctionPair N)
  queries : List (String × FunctionPair N)
  dataset : String

def THINGPEDIA_ADMIN : Nat := 4

def Request.language (req : Request) : String := localeToLanguage req.locale

def Request.org (req : Request) : Option Int := req.developer_org.map fun (id : Nat) => (id : Int)

def maxVersion (req : Request) (sc : SchemaRow) : Option Nat :=
  if sc.owner = req.developer_org ∨ req.roles &&& THINGPEDIA_ADMIN = 0 then some sc.developer_version else sc.approved_version

def Request.version (req : Request) (maxVersion : Nat) : Parsed :=
  match req.fromVersion with
  | some (.int v) => .int (min v maxVersion)
  | some .nan => .nan
  | none => .int maxVersion

/-- `getMetasByKindAtVersion`; no row has a negative version, and `NaN` is not SQL. -/
def metasAt (db : Db (Value N)) (schema : Nat × SchemaRow) (version : Parsed) (language : String) :
    Except Failure (SchemaMetadata (Value N)) :=
  match version with
  | .nan => .error (.thrown "ER_BAD_FIELD_ERROR")
  | .int v =>
    if 0 ≤ v then .ok (getMetasByKindAtVersion db schema v.toNat language)
    else .ok (processMetaRows schema.2.kind schema.2.kind_type schema.2.kind_canonical Record.empty Record.empty)

/-- No schemas are asked for, as the dataset is not for a client. -/
def datasetOf (T : ThingTalk (Value N) Ast) (db : Db (Value N)) (schemaId : Nat) (kind language : String) :
    Except Failure String :=
  let schemas (_ : String) : Except Failure String := .error .notFound
  let translatedExamples := getBaseBySchema db schemaId language false
  if translatedExamples.length > 0 then
    examplesToDataset T schemas kind language (translatedExamples.map templateRow) none true false
  else examplesToDataset T schemas kind language ((getBaseBySchema db schemaId "en" false).map templateRow) none true true

def page (T : ThingTalk (Value N) Ast) (db : Db (Value N)) (req : Request) (kind : String) : Except Failure (Page N) :=
  if req.language = "en" then .error (.forbidden "Translations for English cannot be contributed.")
  else
    match getByKind db kind with
    | none => .error .notFound
    | some englishinfo =>
      match maxVersion req englishinfo.2 with
      | none => .error .notFound
      | some maxVersion => do
        let translated ← metasAt db englishinfo (req.version maxVersion) req.language
        let dataset ← datasetOf T db englishinfo.1 kind req.language
        let (actions, queries) ← makeTranslationPairs (getMetasByKinds db [kind] req.org "en").head? translated
        return { kind, language := req.language, fromVersion := req.version maxVersion, actions, queries, dataset }

/-! ## What is wanted -/

/-- Neither of the organization that owns the device nor an administrator. -/
def Outsider (sc : SchemaRow) (req : Request) : Prop :=
  ¬ (∃ owner, sc.owner = some owner ∧ req.developer_org = some owner) ∧ req.roles &&& THINGPEDIA_ADMIN = 0

/-- Two databases that differ only in versions of the schema other than the approved one. -/
structure Agree (j : Nat) (approved_version : Option Nat) (db db' : Db (Value N)) : Prop where
  organizations : db'.organizations = db.organizations
  device_class : db'.device_class = db.device_class
  device_class_kind : db'.device_class_kind = db.device_class_kind
  device_code_version : db'.device_code_version = db.device_code_version
  device_schema : db'.device_schema = db.device_schema
  example_utterances : db'.example_utterances = db.example_utterances
  channels : ∀ i v, (i = j → approved_version = some v) → db'.device_schema_channels i v = db.device_schema_channels i v
  canonicals : ∀ i v, (i = j → approved_version = some v) →
    db'.device_schema_channel_canonicals i v = db.device_schema_channel_canonicals i v

/-- The page of a device, for one user and version, in every database with the device. -/
structure Guarded (T : ThingTalk (Value N) Ast) (j : Nat) (sc : SchemaRow) (req : Request) : Prop where
  same : Outsider sc req → ∀ db db' : Db (Value N), getByKind db sc.kind = some (j, sc) → Agree j sc.approved_version db db' →
    page T db' req sc.kind = page T db req sc.kind
  notFound : Outsider sc req → req.language ≠ "en" → sc.approved_version = none → ∀ db : Db (Value N),
    getByKind db sc.kind = some (j, sc) → page T db req sc.kind = .error .notFound
  offered : ¬ Outsider sc req → req.language ≠ "en" → req.fromVersion = none → ∀ db : Db (Value N),
    getByKind db sc.kind = some (j, sc) → page T db req sc.kind ≠ .error .notFound ∧
      ∀ p, page T db req sc.kind = .ok p → p.fromVersion = .int sc.developer_version

/-! ## What an outsider is shown -/

variable {T : ThingTalk (Value N) Ast} {db db' : Db (Value N)} {j : Nat} {sc : SchemaRow} {req : Request}

theorem org_eq (req : Request) : req.org = getOrgId (asOrg req.developer_org) := (getOrgId_asOrg req.developer_org).symm

/-- The English side is that of the approved version. -/
theorem approved_of_version (h : Outsider sc req) {v : Nat} (hv : sc.version req.org = some v) :
    sc.approved_version = some v := by
  rw [org_eq, ← SchemaRow.joins_iff_version, SchemaRow.joins_asOrg] at hv
  rcases hv with ⟨horg, howner, -⟩ | ⟨-, hv⟩
  · obtain ⟨org, horg⟩ := Option.ne_none_iff_exists'.mp horg
    exact absurd ⟨org, howner ▸ horg, horg⟩ h.1
  · exact hv

theorem visible_of_approved {org : Option Int} {approved_version owner : Option Nat} (h : approved_version.isSome = true) :
    visible org approved_version owner = true := by
  cases org with
  | none => exact h
  | some o => simp [visible, h]

theorem hidden_of_outsider (h : Outsider sc req) (hnone : sc.approved_version = none) :
    visible req.org sc.approved_version sc.owner = false := by
  rw [hnone, org_eq]
  cases howner : sc.owner with
  | some owner =>
    refine visible_of_other none fun horg => h.1 ⟨owner, howner, ?_⟩
    exact horg
  | none =>
    cases req.developer_org with
    | none => rfl
    | some org =>
      have hne : (org : Int) ≠ -1 := by omega
      simp [visible, getOrgId_asOrg, hne]

theorem english_agree (h : Outsider sc req) (hget : getByKind db sc.kind = some (j, sc))
    (hagree : Agree j sc.approved_version db db') :
    getMetasByKinds db' [sc.kind] req.org "en" = getMetasByKinds db [sc.kind] req.org "en" := by
  unfold getMetasByKinds
  rw [hagree.device_schema]
  refine List.map_congr_left fun x hx => ?_
  obtain ⟨hrow, -⟩ := Table.mem_select.mp hx
  cases hv : x.2.version req.org with
  | none => rfl
  | some v =>
    have hsame : x.1 = j → sc.approved_version = some v := by
      intro hj
      rw [hj, (getByKind_some hget).1] at hrow
      have hrow := Option.some.inj hrow
      exact approved_of_version h (hrow ▸ hv)
    simp only [getMetasByKindAtVersion, hagree.channels x.1 v hsame, hagree.canonicals x.1 v hsame]

theorem datasetOf_agree (h : Agree j sc.approved_version db db') (kind language : String) :
    datasetOf T db' j kind language = datasetOf T db j kind language := by
  unfold datasetOf getBaseBySchema
  rw [h.example_utterances]

/-- What is read to translate is the approved version, or nothing. -/
def ReadsApproved (sc : SchemaRow) (req : Request) : Prop :=
  match req.version sc.developer_version with
  | .nan => True
  | .int v => v < 0 ∨ ∃ approved : Nat, sc.approved_version = some approved ∧ v = approved

theorem metasAt_agree (hagree : Agree j sc.approved_version db db') (h : ReadsApproved sc req) (language : String) :
    metasAt db' (j, sc) (req.version sc.developer_version) language =
      metasAt db (j, sc) (req.version sc.developer_version) language := by
  unfold ReadsApproved at h
  cases hversion : req.version sc.developer_version with
  | nan => rfl
  | int v =>
    rw [hversion] at h
    unfold metasAt
    rcases h with hneg | ⟨approved, happroved, rfl⟩
    · simp only [if_neg (Int.not_le.mpr hneg)]
    · simp only [Int.toNat_natCast, getMetasByKindAtVersion, hagree.channels j approved fun _ => happroved,
        hagree.canonicals j approved fun _ => happroved]

/-- The English side is of a schema without an owner, for a member of some organization: it has no functions. -/
def Blank (sc : SchemaRow) (req : Request) : Prop := sc.owner = none ∧ req.developer_org ≠ none

theorem version_of_blank (h : Blank sc req) : sc.version req.org = none := by
  refine Option.eq_none_iff_forall_ne_some.mpr fun v hv => ?_
  rw [org_eq, ← SchemaRow.joins_iff_version, SchemaRow.joins_asOrg] at hv
  rcases hv with ⟨horg, howner, -⟩ | ⟨horg | ⟨howner, -⟩, -⟩
  · exact horg (howner.trans h.1)
  · exact h.2 horg
  · exact howner h.1

theorem maxVersion_of_outsider (h : Outsider sc req) : maxVersion req sc = some sc.developer_version := by
  rw [maxVersion, if_pos (Or.inr h.2)]

/-- What is shown of a schema that only its kind is read of. -/
theorem page_eq (hlanguage : req.language ≠ "en") (hget : getByKind db sc.kind = some (j, sc)) {max : Nat}
    (hmax : maxVersion req sc = some max) : page T db req sc.kind = (do
      let translated ← metasAt db (j, sc) (req.version max) req.language
      let dataset ← datasetOf T db j sc.kind req.language
      let (actions, queries) ← makeTranslationPairs (getMetasByKinds db [sc.kind] req.org "en").head? translated
      return ⟨sc.kind, req.language, req.version max, actions, queries, dataset⟩) := by
  unfold page
  rw [if_neg hlanguage, hget]
  simp only [hmax]

/-- The English side of a visible device. -/
theorem english_eq (hget : getByKind db sc.kind = some (j, sc))
    (hvisible : visible req.org sc.approved_version sc.owner = true) :
    (getMetasByKinds db [sc.kind] req.org "en").head? = some (match sc.version req.org with
      | some version => getMetasByKindAtVersion db (j, sc) version "en"
      | none => processMetaRows sc.kind sc.kind_type sc.kind_canonical Record.empty Record.empty) := by
  have hfirst := Table.first?_and (q := fun _ s => visible req.org s.approved_version s.owner) hget hvisible
  have hcontains : ∀ kind, [sc.kind].contains kind = decide (kind = sc.kind) := by
    intro kind
    rw [List.contains_cons, List.contains_nil, Bool.or_false]
    exact Bool.beq_eq_decide_eq _ _
  unfold getMetasByKinds
  rw [List.head?_map, Table.head?_select]
  simp only [hcontains, hfirst]
  rfl

theorem english_hidden (hunique : ∀ i s, db.device_schema.get? i = some s → s = sc)
    (hhidden : visible req.org sc.approved_version sc.owner = false) :
    (getMetasByKinds db [sc.kind] req.org "en").head? = none := by
  unfold getMetasByKinds
  rw [List.head?_map, Table.head?_select, Option.map_eq_none_iff, Table.first?_eq_none]
  intro i s hs
  rw [hunique i s hs, hhidden, Bool.and_false]

theorem pairs_of_blank (h : Blank sc req) (hget : getByKind db sc.kind = some (j, sc))
    (hvisible : visible req.org sc.approved_version sc.owner = true) (translated : SchemaMetadata (Value N)) :
    makeTranslationPairs (getMetasByKinds db [sc.kind] req.org "en").head? translated = .ok ([], []) := by
  rw [english_eq hget hvisible, version_of_blank h]
  rfl

/-! ## Errors -/

section Errors

open Result

theorem typeError_ne : (Except.error typeError : Except Failure β) ≠ .error .notFound :=
  fun h => nomatch Except.error.inj h

theorem pairFunction_ne (english : SchemaChannelMetadata (Value N)) (translated : Translated N) :
    pairFunction english translated ≠ .error .notFound := by
  unfold pairFunction
  refine bind_ne ?_ fun formatted => bind_ne ?_ fun args => ?_
  · refine mapM_ne (fun x => ?_) _
    split
    · unfold pairFormat
      split
      · exact typeError_ne
      · exact nofun
    · exact typeError_ne
  · refine mapM_ne (fun x => ?_) _
    split
    · exact nofun
    · exact typeError_ne
  · exact nofun

theorem makeTranslationPairs_ne (english : Option (SchemaMetadata (Value N))) (translated : SchemaMetadata (Value N)) :
    makeTranslationPairs english translated ≠ .error .notFound := by
  cases english with
  | none => exact typeError_ne
  | some english =>
    refine bind_ne ?_ fun actions => bind_ne ?_ fun queries => ?_
    · exact mapM_ne (fun x => map_ne (pairFunction_ne _ _)) _
    · exact mapM_ne (fun x => map_ne (pairFunction_ne _ _)) _
    · exact nofun

theorem examplesToDataset_ne (hT : ∀ code, T.fromLegacy code ≠ .error .notFound) (schemas : String → Except Failure String)
    (kind language : String) (rows : List TemplateRow) (skipId : Bool) :
    examplesToDataset T schemas kind language rows none true skipId ≠ .error .notFound := by
  have htarget : ∀ code, targetCode T code ≠ .error .notFound := by
    intro code
    unfold targetCode
    dsimp only
    split
    · refine bind_ne (map_ne (hT code)) fun code => ?_
      exact nofun
    · exact nofun
  have hrows : rowsToExamples T rows true skipId ≠ .error .notFound := by
    unfold rowsToExamples
    refine bind_ne (foldlM_ne (fun uniqueCode row => ?_) _ _) fun uniqueCode => ?_
    · unfold addRow
      split
      · exact nofun
      · refine bind_ne (htarget _) fun code => ?_
        exact nofun
    · exact nofun
  unfold examplesToDataset
  refine bind_ne hrows fun examples => ?_
  exact nofun

theorem datasetOf_ne (hT : ∀ code, T.fromLegacy code ≠ .error .notFound) (db : Db (Value N)) (schemaId : Nat)
    (kind language : String) : datasetOf T db schemaId kind language ≠ .error .notFound := by
  unfold datasetOf
  dsimp only
  split
  · exact examplesToDataset_ne hT _ _ _ _ _
  · exact examplesToDataset_ne hT _ _ _ _ _

end Errors

/-! ## When it is guarded -/

/-- An outsider is shown nothing of a version that is not approved. -/
structure Shielded (sc : SchemaRow) (req : Request) : Prop where
  approved : sc.approved_version.isSome = true
  version : Blank sc req ∨ ReadsApproved sc req

theorem page_agree (h : Outsider sc req) (hlanguage : req.language ≠ "en") (hshielded : Shielded sc req)
    (hget : getByKind db sc.kind = some (j, sc)) (hagree : Agree j sc.approved_version db db') :
    page T db' req sc.kind = page T db req sc.kind := by
  have hget' : getByKind db' sc.kind = some (j, sc) := by
    rw [getByKind, hagree.device_schema]
    exact hget
  have hmax := maxVersion_of_outsider h
  rw [page_eq hlanguage hget' hmax, page_eq hlanguage hget hmax, datasetOf_agree hagree]
  rcases hshielded.version with hblank | hreads
  · -- what is read to translate is not shown
    have hvisible : visible req.org sc.approved_version sc.owner = true := visible_of_approved hshielded.approved
    simp only [pairs_of_blank hblank hget hvisible, pairs_of_blank hblank hget' hvisible]
    unfold metasAt
    cases req.version sc.developer_version with
    | nan => rfl
    | int v =>
      dsimp only
      split <;> rfl
  · rw [metasAt_agree hagree hreads, english_agree h hget hagree]

/-! ## Databases that tell -/

section Databases

/-- One schema. -/
def single (j : Nat) (sc : SchemaRow) : Table SchemaRow where
  rows := [(j, sc)]
  next := j + 1
  sorted := List.pairwise_singleton ..
  below := fun _ hx => List.mem_singleton.mp hx ▸ Nat.lt_succ_self j

def bare (j : Nat) (sc : SchemaRow) : Db (Value N) := { Db.empty with device_schema := single j sc }

def oneRow : ChannelRow := ⟨.query, "", none, [], [], [], [], [], false, false, false⟩

/-- A query in every version, with a canonical form for each version and language. -/
def withQuery (j : Nat) (sc : SchemaRow) (canonical : Nat → Nat → String → String) : Db (Value N) :=
  { (bare j sc : Db (Value N)) with
    device_schema_channels := fun _ _ => ⟨[("query", oneRow)], List.nodup_singleton _⟩
    device_schema_channel_canonicals := fun i v language =>
      ⟨[("query", ⟨canonical i v language, none, none, [], [], []⟩)], List.nodup_singleton _⟩ }

theorem getByKind_single (hschema : db.device_schema = single j sc) : getByKind db sc.kind = some (j, sc) := by
  rw [getByKind, hschema]
  exact List.find?_cons_of_pos (by simp)

theorem bare_unique (i : Nat) (s : SchemaRow) (h : (bare j sc : Db (Value N)).device_schema.get? i = some s) : s = sc := by
  have := Table.mem_rows.mpr h
  exact congrArg Prod.snd (List.mem_singleton.mp this)

theorem datasetOf_bare (hexamples : db.example_utterances = Table.empty) (kind language : String) :
    datasetOf T db j kind language =
      .ok ("dataset @" ++ kind ++ "\n#[language=\"" ++ language ++ "\"] \x7b\n" ++ "" ++ "\x7d") := by
  unfold datasetOf getBaseBySchema
  rw [hexamples]
  rfl

theorem page_bare (hlanguage : req.language ≠ "en") {max : Nat} (hmax : maxVersion req sc = some max)
    (hvisible : visible req.org sc.approved_version sc.owner = true) (hversion : req.version max ≠ .nan) :
    ∃ p : Page N, page T (bare j sc) req sc.kind = .ok p ∧ p.fromVersion = req.version max := by
  rw [page_eq hlanguage (getByKind_single rfl) hmax, english_eq (getByKind_single rfl) hvisible, datasetOf_bare rfl]
  have hmetas : ∃ metas : SchemaMetadata (Value N),
      metasAt (bare j sc) (j, sc) (req.version max) req.language = .ok metas := by
    unfold metasAt
    cases hparsed : req.version max with
    | nan => exact absurd hparsed hversion
    | int v =>
      dsimp only
      split
      · exact ⟨_, rfl⟩
      · exact ⟨_, rfl⟩
  obtain ⟨metas, hmetas⟩ := hmetas
  rw [hmetas]
  cases sc.version req.org with
  | none => exact ⟨_, rfl, rfl⟩
  | some v => exact ⟨_, rfl, rfl⟩

/-- A device that is not approved is not visible, and there is nothing to pair. -/
theorem page_hidden (h : Outsider sc req) (hlanguage : req.language ≠ "en") (hnone : sc.approved_version = none) :
    page T (bare j sc : Db (Value N)) req sc.kind ≠ .error .notFound := by
  rw [page_eq hlanguage (getByKind_single rfl) (maxVersion_of_outsider h),
    english_hidden bare_unique (hidden_of_outsider h hnone), datasetOf_bare rfl]
  unfold metasAt
  cases req.version sc.developer_version with
  | nan => exact nofun
  | int v =>
    dsimp only
    split
    · exact typeError_ne
    · exact typeError_ne

/-- The page shows the canonical form at the version that is read. -/
theorem page_withQuery (T : ThingTalk (Value N) Ast) (j : Nat) (canonical : Nat → Nat → String → String)
    (hlanguage : req.language ≠ "en") {max v approved : Nat} (hmax : maxVersion req sc = some max)
    (hvisible : visible req.org sc.approved_version sc.owner = true) (henglish : sc.version req.org = some approved)
    (hversion : req.version max = .int v) : ∃ p : Page N, page T (withQuery j sc canonical) req sc.kind = .ok p ∧
      p.queries.map (·.2.canonical.translated) = [.string (canonical j v req.language)] := by
  rw [page_eq hlanguage (getByKind_single rfl) hmax, english_eq (getByKind_single rfl) hvisible, datasetOf_bare rfl,
    henglish, hversion]
  exact ⟨_, rfl, rfl⟩

end Databases

/-- Two databases in which the version that is read differs. -/
theorem reads_approved (h : Outsider sc req) (hlanguage : req.language ≠ "en") (happroved : sc.approved_version.isSome = true)
    (hblank : ¬ Blank sc req) (hsame : ∀ db db' : Db (Value N), getByKind db sc.kind = some (j, sc) →
      Agree j sc.approved_version db db' → page T db' req sc.kind = page T db req sc.kind) : ReadsApproved sc req := by
  obtain ⟨approved, happroved⟩ := Option.isSome_iff_exists.mp happroved
  have hvisible : visible req.org sc.approved_version sc.owner = true := visible_of_approved (by rw [happroved]; rfl)
  have henglish : sc.version req.org = some approved := by
    rw [org_eq, ← happroved]
    cases howner : sc.owner with
    | some owner => exact SchemaRow.version_of_other howner fun horg => h.1 ⟨owner, howner, horg⟩
    | none =>
      have horg : req.developer_org = none := by
        by_contra horg
        exact hblank ⟨howner, horg⟩
      rw [horg]
      refine Option.ext fun v => ?_
      rw [← SchemaRow.joins_iff_version, SchemaRow.joins_asOrg]
      simp
  unfold ReadsApproved
  cases hversion : req.version sc.developer_version with
  | nan => trivial
  | int v =>
    by_contra hno
    obtain ⟨hpos, hne⟩ := not_or.mp hno
    obtain ⟨n, rfl⟩ := Int.eq_ofNat_of_zero_le (Int.not_lt.mp hpos)
    -- the canonical form of the version that is read, in the language of the user
    let changed : Nat → Nat → String → String := fun i v language =>
      if i = j ∧ v = n ∧ language = req.language then "y" else "x"
    have hagree : Agree j sc.approved_version (withQuery j sc fun _ _ _ => "x" : Db (Value N)) (withQuery j sc changed) := by
      refine ⟨rfl, rfl, rfl, rfl, rfl, rfl, fun _ _ _ => rfl, fun i v hv => ?_⟩
      have hfalse : ¬ (i = j ∧ v = n) := by
        rintro ⟨hi, rfl⟩
        exact hne ⟨v, hv hi, rfl⟩
      funext language
      have hx : changed i v language = "x" := if_neg fun hall => hfalse ⟨hall.1, hall.2.1⟩
      simp only [withQuery, hx]
    have hpages := hsame _ _ (getByKind_single rfl) hagree
    obtain ⟨p, hp, hpx⟩ := page_withQuery T j (fun _ _ _ => "x") hlanguage
      (maxVersion_of_outsider h) hvisible henglish hversion
    obtain ⟨p', hp', hpy⟩ := page_withQuery T j changed hlanguage
      (maxVersion_of_outsider h) hvisible henglish hversion
    rw [hp, hp'] at hpages
    rw [Except.ok.inj hpages, hpx] at hpy
    have hy : changed j n req.language = "y" := if_pos ⟨rfl, rfl, rfl⟩
    rw [hy] at hpy
    revert hpy
    decide

/-- A page that is shown is of the version that the request comes to. -/
theorem fromVersion_of_page (hlanguage : req.language ≠ "en") (hget : getByKind db sc.kind = some (j, sc)) {max : Nat}
    (hmax : maxVersion req sc = some max) {p : Page N} (hp : page T db req sc.kind = .ok p) :
    p.fromVersion = req.version max := by
  rw [page_eq hlanguage hget hmax] at hp
  obtain ⟨translated, -, hp⟩ := Result.bind_ok hp
  obtain ⟨dataset, -, hp⟩ := Result.bind_ok hp
  obtain ⟨pairs, -, hp⟩ := Result.bind_ok hp
  cases hp
  rfl

theorem page_found (hT : ∀ code, T.fromLegacy code ≠ .error .notFound) (hlanguage : req.language ≠ "en")
    (hget : getByKind db sc.kind = some (j, sc)) {max : Nat} (hmax : maxVersion req sc = some max) :
    page T db req sc.kind ≠ .error .notFound := by
  rw [page_eq hlanguage hget hmax]
  refine Result.bind_ne ?_ fun translated => Result.bind_ne (datasetOf_ne hT _ _ _ _) fun dataset =>
    Result.bind_ne (makeTranslationPairs_ne _ _) fun pairs => ?_
  · unfold metasAt
    split
    · exact fun h => nomatch Except.error.inj h
    · split <;> exact nofun
  · exact nofun

/-! ## Exactly when -/

/-- The page is guarded exactly if an outsider is shielded by the version asked for, and an
    administrator who is not the owner finds the developer version approved. -/
theorem guarded_iff (T : ThingTalk (Value N) Ast) (hT : ∀ code, T.fromLegacy code ≠ .error .notFound) (j : Nat)
    (sc : SchemaRow) (req : Request) : Guarded T j sc req ↔
      (Outsider sc req → req.language ≠ "en" → Shielded sc req) ∧
      (¬ Outsider sc req → req.language ≠ "en" → req.fromVersion = none →
        sc.owner = req.developer_org ∨ sc.approved_version = some sc.developer_version) := by
  constructor
  · intro h
    refine ⟨fun hout hlanguage => ?_, fun hin hlanguage hfrom => ?_⟩
    · have happroved : sc.approved_version.isSome = true := by
        cases hnone : sc.approved_version with
        | some approved => rfl
        | none => exact absurd (h.notFound hout hlanguage hnone _ (getByKind_single rfl)) (page_hidden hout hlanguage hnone)
      refine ⟨happroved, ?_⟩
      by_cases hblank : Blank sc req
      · exact Or.inl hblank
      · exact Or.inr (reads_approved hout hlanguage happroved hblank (h.same hout))
    · by_cases howner : sc.owner = req.developer_org
      · exact Or.inl howner
      · have hadmin : ¬ (sc.owner = req.developer_org ∨ req.roles &&& THINGPEDIA_ADMIN = 0) := by
          rintro (howner' | hroles)
          · exact howner howner'
          · refine hin ⟨fun hmember => howner ?_, hroles⟩
            obtain ⟨owner, h1, h2⟩ := hmember
            rw [h1, h2]
        have hmax : maxVersion req sc = sc.approved_version := if_neg hadmin
        obtain ⟨hfound, hpage⟩ := h.offered hin hlanguage hfrom (bare j sc) (getByKind_single rfl)
        cases happroved : sc.approved_version with
        | none =>
          refine absurd ?_ hfound
          unfold page
          rw [if_neg hlanguage, getByKind_single rfl]
          simp only [hmax, happroved]
        | some approved =>
          have hversion : req.version approved = .int approved := by rw [Request.version, hfrom]
          obtain ⟨p, hp, hread⟩ := page_bare (T := T) (j := j) hlanguage (hmax.trans happroved)
            (visible_of_approved (by rw [happroved]; rfl)) (by rw [hversion]; exact nofun)
          have heq := (hpage p hp).symm.trans (hread.trans hversion)
          have heq := Int.ofNat_inj.mp (Parsed.int.inj heq)
          exact Or.inr (congrArg some heq.symm)
  · intro ⟨hout, hin⟩
    refine ⟨fun houtsider db db' hget hagree => ?_, fun houtsider hlanguage hnone => ?_,
      fun hinsider hlanguage hfrom db hget => ?_⟩
    · by_cases hlanguage : req.language = "en"
      · unfold page
        rw [if_pos hlanguage, if_pos hlanguage]
      · exact page_agree houtsider hlanguage (hout houtsider hlanguage) hget hagree
    · have happroved := (hout houtsider hlanguage).approved
      rw [hnone] at happroved
      cases happroved
    · have hmax : maxVersion req sc = some sc.developer_version := by
        unfold maxVersion
        split
        · rfl
        · rename_i hadmin
          exact (hin hinsider hlanguage hfrom).resolve_left fun howner => hadmin (Or.inl howner)
      have hversion : req.version sc.developer_version = .int sc.developer_version := by rw [Request.version, hfrom]
      exact ⟨page_found hT hlanguage hget hmax, fun p hp => (fromVersion_of_page hlanguage hget hmax hp).trans hversion⟩

/-- A package for programs that are all in the current syntax. -/
def refusing : ThingTalk (Value Nat) Unit where
  parse _ := .error (.thrown "SyntaxError")
  serialize _ _ := .error (.thrown "TypeError")
  classDefs _ := .error (.thrown "TypeError")
  merge _ _ _ := .error (.thrown "TypeError")
  fromLegacy _ := .error (.thrown "SyntaxError")
  kindsOf _ := []
  downgrade _ _ _ _ := .error (.thrown "SyntaxError")

def lamp (developer_version : Nat) : SchemaRow := ⟨"com.example.lamp", "primary", some 1, developer_version, some 0, "lamp"⟩

def stranger : Request := ⟨"it-IT", some 2, 0, none⟩

theorem stranger_outsider (developer_version : Nat) : Outsider (lamp developer_version) stranger := by
  refine ⟨?_, rfl⟩
  rintro ⟨owner, howner, horg⟩
  cases howner
  revert horg
  decide

/-- The approved version is the latest one. -/
theorem guarded_iff_lamp : Guarded refusing 1 (lamp 0) stranger := by
  refine (guarded_iff refusing (fun _ => nofun) 1 (lamp 0) stranger).mpr ⟨fun _ _ => ⟨rfl, Or.inr ?_⟩, fun hin => ?_⟩
  · exact Or.inr ⟨0, rfl, rfl⟩
  · exact absurd (stranger_outsider 0) hin

/-- Version 1 of the device is not approved, and a stranger is shown its translations. -/
theorem developer_version_shown : ¬ Guarded refusing 1 (lamp 1) stranger := by
  intro h
  have hreads := reads_approved (stranger_outsider 1) (by decide +kernel) rfl (fun hblank => nomatch hblank.1)
    (h.same (stranger_outsider 1))
  rcases hreads with hneg | ⟨approved, happroved, hv⟩
  · revert hneg
    decide
  · cases happroved
    revert hv
    decide

end GenieCloud.Thingpedia.TranslatePage
