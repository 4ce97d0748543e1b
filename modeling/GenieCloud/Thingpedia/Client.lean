/-
  GenieCloud.Thingpedia.Client — the client of Thingpedia (`util/thingpedia-client.ts`,
  `util/admin-thingpedia-client.ts`).

  A client asks on behalf of the organization with its developer key, or of no one. The
  rpc stubs, the search, the entities, locations and snapshots are not modelled.
-/

import GenieCloud.Lib.Result
import GenieCloud.Thingpedia.Dataset

namespace GenieCloud.Thingpedia

open GenieCloud.Lib

/-- `_getOrg`: by a key, or as an admin (or as no one, if only what is approved is read). -/
inductive Credentials
  | developerKey (key : Option String)
  | admin (onlyApproved : Bool)
  deriving DecidableEq, Repr

structure Client where
  credentials : Credentials
  language : String
  thingtalkVersion : String
  /-- The version is below 2.0.0. -/
  needsCompatibility : Bool
  deriving DecidableEq, Repr

/-- A number of a script, as far as comparing it with an integer goes. -/
inductive Number | nan | infinite (positive : Bool) | finite (q : Rat)
  deriving DecidableEq, Repr

def Number.gt : Number → Nat → Bool
  | .nan, _ => false
  | .infinite positive, _ => positive
  | .finite q, n => q > n

structure DownloadLocation where
  kind : String
  version : Number
  developer : Bool
  deriving DecidableEq, Repr

variable {V Ast : Type} (T : ThingTalk V Ast) (C : Collation) (db : Db V) (c : Client)

def Client.getOrg : Option Org :=
  match c.credentials with
  | .developerKey none => none
  | .developerKey (some key) => if key = "" then none else (getByDeveloperKey db key).head?
  | .admin true => none
  | .admin false => some ⟨1, true⟩

def Client.getOrgId : Option Int := Thingpedia.getOrgId (c.getOrg db)

def getModuleLocation (kind : String) (version : Option Number) : Except Failure DownloadLocation := do
  let dev ← getDownloadVersion db kind (c.getOrg db)
  if !dev.downloadable then .error (.badRequest "No Code Available")
  else if version.any (·.gt dev.version) then .error (.forbidden "Not Authorized")
  else
    let version := version.getD (.finite dev.version)
    .ok ⟨kind, version, dev.approved_version.all version.gt⟩

variable {db c} in
theorem getModuleLocation_ok {kind : String} {version : Option Number} {location : DownloadLocation}
    (h : getModuleLocation db c kind version = .ok location) :
    ∃ dev, getDownloadVersion db kind (c.getOrg db) = .ok dev ∧ dev.downloadable = true ∧ location.kind = kind ∧
      location.version.gt dev.version = false ∧ location.developer = dev.approved_version.all location.version.gt := by
  obtain ⟨dev, hdev, h⟩ := Result.bind_ok h
  split at h
  · cases h
  · rename_i hdown
    split at h
    · cases h
    · rename_i hgt
      cases h
      refine ⟨dev, hdev, by simpa using hdown, rfl, ?_, rfl⟩
      cases version with
      | none => simp [Number.gt]
      | some w => simpa using hgt

/-- A quick check for old constructs. -/
def isOldSyntax (code : String) : Bool :=
  isSubstring "makeArgMap".toList code.toList || isSubstring "$context".toList code.toList

def internalGetDeviceCode (kinds : List String) (orgId : Option Int) : Except Failure (List String) :=
  (getFullCodeByPrimaryKinds db kinds orgId).mapM fun dev =>
    if c.language = "en" && !c.needsCompatibility && !isOldSyntax dev.code then .ok dev.code
    else do
      let classDef ← T.parse dev.code
      let schema := if c.language = "en" then none
        else (getMetasByKinds db kinds orgId c.language).find? (·.kind = dev.primary_kind)
      let classDef ← match schema with
        | some schema => T.merge classDef schema.queries schema.actions
        | none => .ok classDef
      T.serialize classDef c.thingtalkVersion

def getDeviceCode (kind : String) : Except Failure String := do
  match ← internalGetDeviceCode T db c [kind] (c.getOrgId db) with
  | [] => .error .notFound
  | code :: _ => .ok code

def getSchemas (schemas : List String) (withMetadata : Bool) : Except Failure String :=
  if schemas.isEmpty then .ok ""
  else if withMetadata then (internalGetDeviceCode T db c schemas (c.getOrgId db)).map (String.intercalate "\n")
  else do
    let classDefs ← T.classDefs (getTypesAndNamesByKinds db schemas (c.getOrgId db))
    T.serialize classDefs c.thingtalkVersion

def Category.text : Category → String
  | .physical => "physical"
  | .online => "online"
  | .data => "data"
  | .system => "system"

def Subcategory.text : Subcategory → String
  | .service => "service"
  | .media => "media"
  | .socialNetwork => "social-network"
  | .communication => "communication"
  | .home => "home"
  | .health => "health"
  | .dataManagement => "data-management"

def categories : List Category := [.online, .physical, .data, .system]

/-- `CATEGORIES`. -/
def subcategories : List Subcategory :=
  [.media, .socialNetwork, .home, .communication, .health, .service, .dataManagement]

def getDeviceFactories (klass : Option String) : Except Failure (List Factory) := do
  let org := c.getOrg db
  let devices ← match klass.filter (· ≠ "") with
    | some klass =>
      match categories.find? (·.text = klass) with
      | some category => .ok (getByCategoryWithCode C db category org)
      | none =>
        match subcategories.find? (·.text = klass) with
        | some category => .ok (getBySubcategoryWithCode C db category org)
        | none => .error (.badRequest "Invalid class parameter")
    | none => .ok (getAllApprovedWithCode C db org none none)
  return devices.filterMap (·.factory)

def getAllDeviceNames : List (String × String) := getAllApproved db (c.getOrgId db)

/-! ## Examples -/

/-- The client that checks datasets for old clients. -/
def adminClient (version language : String) : Client := ⟨.admin false, language, version, false⟩

/-- `version` is that of ThingTalk itself. -/
def makeDataset (version name : String) (rows : List TemplateRow) (editMode : Bool) : Except Failure String :=
  examplesToDataset T (fun kind => getSchemas T db (adminClient version c.language) [kind] false)
    ("org.thingpedia.dynamic." ++ name) c.language rows (if c.needsCompatibility then some c.thingtalkVersion else none) editMode false

/-- Runs of other characters become one underscore; `inRun` after one of them. -/
def sanitizeKind : Bool → List Char → List Char
  | _, [] => []
  | inRun, ch :: cs =>
    if ch.isAlphanum then ch :: sanitizeKind false cs else if inRun then sanitizeKind true cs else '_' :: sanitizeKind true cs

def byKinds (kinds : List String) : String :=
  "by_kinds." ++ String.intercalate "__" (kinds.map fun k => String.ofList (sanitizeKind false k.toList))

def isEditMode (accept : String) : Bool := accept = "application/x-thingtalk;editMode=1"

def getExamplesByKinds (version : String) (kinds : List String) (accept : String) : Except Failure String :=
  if kinds.isEmpty then .ok ""
  else
    let rows := (getByKinds db kinds (c.getOrgId db) c.language false).map (·.toTemplateRow)
    let name := match isEditMode accept, kinds with
      | true, [kind] => kind
      | _, _ => byKinds kinds
    makeDataset T db c version name rows (isEditMode accept)

def getAllExamples (version accept : String) : Except Failure String :=
  makeDataset T db c version "everything" (getBaseByLanguage db (c.getOrgId db) c.language) (isEditMode accept)

end GenieCloud.Thingpedia
