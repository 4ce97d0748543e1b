/-
  GenieCloud.Util.CodeStorage — the files of devices in S3 and their downloads
  (`util/code_storage.ts`, over `util/abstract_fs.ts`).

  A file is stored at a relative URL, and a download reads what the URL of the request, which is
  absolute, names: both are resolved against the directory of the files. In a URL of the
  protocol `s3:`, an absolute path takes the place of the bucket as well.

  - `get_single`: a request with one slash reads an object of the empty bucket.
  - `get_network`, `get_clean`: one with two slashes reads an object of whatever bucket it names.
  - `store_clean`: what is stored with a clean name is in the bucket, below the directory.
  - `never_served`: for no bucket and no directory do the downloads stay there, and nothing that
    is stored there is read back.
-/

import GenieCloud.Lib.Result
import GenieCloud.Lib.UrlResolve

namespace GenieCloud.Util.CodeStorage

open GenieCloud.Lib GenieCloud.Lib.LegacyUrl

/-! ## Files by their URLs -/

inductive Failure where
  /-- What `Url.resolve` and `Url.parse` throw, and a path that is null. -/
  | exception
  | unknownScheme (message : String)
  deriving DecidableEq, Repr

structure S3Object where
  bucket : List Char
  key : List Char
  deriving DecidableEq, Repr

inductive Target where
  | object (o : S3Object)
  | file (pathname : List Char)
  deriving DecidableEq, Repr

structure Config where
  /-- Of the absolute path of the root directory, what follows the slash. -/
  THINGENGINE_ROOTDIR : List Char
  FILE_STORAGE_DIR : List Char
  CDN_HOST : List Char
  deriving DecidableEq, Repr

variable (rt : Runtime) (config : Config)

def cwd : List Char := ['f', 'i', 'l', 'e', ':', '/', '/'] ++ ('/' :: config.THINGENGINE_ROOTDIR) ++ ['/']

/-- The key or path of a URL, after `getBackend`. -/
def backendTarget (parsed : UrlObject) : Except Failure Target :=
  if parsed.protocol = some ['s', '3', ':'] then
    match parsed.pathname with
    | some ('/' :: key) => .ok (.object ⟨parsed.hostname.getD [], key⟩)
    | some key => .ok (.object ⟨parsed.hostname.getD [], key⟩)
    | none => .error .exception
  else if parsed.protocol = some ['f', 'i', 'l', 'e', ':'] then
    match parsed.pathname with
    | some pathname => .ok (.file pathname)
    | none => .error .exception
  else .error (.unknownScheme ("Unknown URL scheme " ++ String.ofList (parsed.protocol.getD ['n', 'u', 'l', 'l'])))

/-- What `createReadStream` reads and `writeFile` writes. -/
def locate (url : List Char) : Except Failure Target :=
  match (LegacyUrl.resolve rt (cwd config) url).bind (parse rt false) with
  | some parsed => backendTarget parsed
  | none => .error .exception

/-- `AbstractFS.resolve` -/
def resolve (url : List Char) (others : List (List Char)) : Except Failure (List Char) :=
  match (LegacyUrl.resolve rt (cwd config) url).bind fun url =>
    others.foldlM (fun url other => LegacyUrl.resolve rt (url ++ ['/']) other) url with
  | some url => .ok url
  | none => .error .exception

/-! ## The storage -/

def writableDirectory : Except Failure (List Char) := resolve rt config config.FILE_STORAGE_DIR []

/-- What `initFrontend` mounts at `/download`. -/
inductive Route where
  | unmounted
  | static (pathname : Option (List Char))
  | download (writableDirectory : List Char)
  deriving DecidableEq, Repr

def initFrontend : Except Failure Route := do
  let writableDirectory ← writableDirectory rt config
  if config.CDN_HOST ≠ "/download".toList then return .unmounted
  if ['f', 'i', 'l', 'e', ':'].isPrefixOf writableDirectory then
    match parse rt false writableDirectory with
    | some parsed => return .static parsed.pathname
    | none => throw .exception
  return .download writableDirectory

/-- What a GET request below `/download` reads; `none`: the handler here does not answer it. -/
def get (url : List Char) : Except Failure (Option Target) := do
  match ← initFrontend rt config with
  | .download writableDirectory =>
    let target ← locate rt config (← resolve rt config writableDirectory [url])
    return some target
  | _ => return none

inductive File where
  | icon (name : List Char)
  | zip (name : List Char) (version : Nat)
  deriving DecidableEq, Repr

variable (sanitize : List Char → List Char)

def File.filename : File → List Char
  | .icon name => ['i', 'c', 'o', 'n', 's', '/'] ++ name ++ ['.', 'p', 'n', 'g']
  | .zip name version =>
    ['d', 'e', 'v', 'i', 'c', 'e', 's', '/'] ++ sanitize name ++ ['-', 'v'] ++ Nat.toDigits 10 version ++ ['.', 'z', 'i', 'p']

/-- `storeIcon` and `storeZipFile`: what is written. -/
def store (file : File) : Except Failure Target := do
  let writableDirectory ← writableDirectory rt config
  locate rt config (← resolve rt config writableDirectory [file.filename sanitize])

/-! ## Containment -/

/-- A bucket with a name as S3 has them, and a directory in it. -/
structure Location where
  bucket : List Char
  dir : List Char
  plain : PlainHost bucket
  ne_nil : bucket ≠ []
  dots : isDots bucket = false

def s3Config (rootdir : List Char) (location : Location) : Config where
  THINGENGINE_ROOTDIR := rootdir
  FILE_STORAGE_DIR := ['s', '3', ':'] ++ '/' :: '/' :: (location.bucket ++ '/' :: location.dir)
  CDN_HOST := "/download".toList

def InDirectory (location : Location) (target : Target) : Prop :=
  ∃ key, target = .object ⟨location.bucket, location.dir ++ '/' :: key⟩

def Contained (rootdir : List Char) (location : Location) (url : List Char) : Prop :=
  ∀ target, get rt (s3Config rootdir location) url = .ok (some target) → InDirectory location target

structure Served (rootdir : List Char) (location : Location) : Prop where
  contained : ∀ url, url.head? = some '/' → Contained rt rootdir location url
  readBack : ∀ file target, store rt (s3Config rootdir location) sanitize file = .ok target →
    InDirectory location target → get rt (s3Config rootdir location) ('/' :: file.filename sanitize) = .ok (some target)

/-- One slash at the start, and not another one or a backslash. -/
def Single (url : List Char) : Prop := ∃ rest, url = '/' :: rest ∧ rest.head? ≠ some '/' ∧ rest.head? ≠ some '\x5c'

variable {rt config sanitize} {rootdir : List Char} {location : Location}

theorem inDirectory_object {bucket key : List Char} :
    InDirectory location (.object ⟨bucket, key⟩) ↔
      bucket = location.bucket ∧ ∃ below, key = location.dir ++ '/' :: below := by
  simp only [InDirectory, Target.object.injEq, S3Object.mk.injEq]
  exact exists_and_left

/-! ## The protocols -/

theorem plainProtocol_s3 : PlainProtocol ['s', '3', ':'] where
  scheme _ := rfl
  lower := by decide
  hostless := by decide
  head _ := rfl
  backslash := by decide
  colon := rfl

theorem plainProtocol_file : PlainProtocol ['f', 'i', 'l', 'e', ':'] where
  scheme _ := rfl
  lower := by decide
  hostless := by decide
  head _ := rfl
  backslash := by decide
  colon := rfl

theorem cleanPath_s3 : CleanPath ['s', '3', ':'] := by
  have hall : ['s', '3', ':'].all isClean = true := rfl
  exact ⟨List.all_eq_true.mp hall⟩

theorem parse_cwd (hrt : Documented rt) (config : Config) :
    ∃ u, parse rt true (cwd config) = some u ∧ u.protocol ≠ some ['s', '3', ':'] := by
  obtain ⟨after, hparse⟩ := parse_plain hrt plainProtocol_file plainHost_nil true (config.THINGENGINE_ROOTDIR ++ ['/'])
  refine ⟨_, hparse, ?_⟩
  show some ['f', 'i', 'l', 'e', ':'] ≠ some ['s', '3', ':']
  decide

/-- A URL of S3 with a plain host names an object in the bucket of that name. -/
theorem locate_s3 (hrt : Documented rt) {host : List Char} (hhost : PlainHost host) (rest : List Char) :
    ∃ key, locate rt config (['s', '3', ':'] ++ '/' :: '/' :: (host ++ '/' :: rest)) = .ok (.object ⟨host, key⟩) := by
  obtain ⟨u, hcwd, hne⟩ := parse_cwd hrt config
  obtain ⟨after, hresolve⟩ := resolve_other hrt plainProtocol_s3 rfl hhost hcwd hne rest
  obtain ⟨after', hparse⟩ := parse_plain hrt plainProtocol_s3 hhost false after
  obtain ⟨path, hpath⟩ := plainUrl_path (some ['s', '3', ':']) host after'
  have hprotocol : (plainUrl (some ['s', '3', ':']) host ('/' :: after')).protocol = some ['s', '3', ':'] := rfl
  refine ⟨path, ?_⟩
  rw [locate, hresolve, Option.bind_some, hparse]
  dsimp only
  rw [backendTarget, if_pos hprotocol, hpath]
  rfl

/-! ## Requests -/

theorem writableDirectory_s3 (hrt : Documented rt) (rootdir : List Char) (location : Location) :
    ∃ after, writableDirectory rt (s3Config rootdir location) =
      .ok (['s', '3', ':'] ++ '/' :: '/' :: (location.bucket ++ '/' :: after)) := by
  obtain ⟨u, hcwd, hne⟩ := parse_cwd hrt (s3Config rootdir location)
  obtain ⟨after, hresolve⟩ := resolve_other hrt plainProtocol_s3 rfl location.plain hcwd hne location.dir
  have hdirectory : LegacyUrl.resolve rt (cwd (s3Config rootdir location)) (s3Config rootdir location).FILE_STORAGE_DIR =
      some (['s', '3', ':'] ++ '/' :: '/' :: (location.bucket ++ '/' :: after)) := hresolve
  refine ⟨after, ?_⟩
  rw [writableDirectory, resolve, hdirectory]
  rfl

/-- What is stored and what is requested is resolved against the same URL, in the bucket. -/
theorem exists_base (hrt : Documented rt) (rootdir : List Char) (location : Location) : ∃ dir base u,
    writableDirectory rt (s3Config rootdir location) = .ok dir ∧
      initFrontend rt (s3Config rootdir location) = .ok (.download dir) ∧
      (∀ url path, LegacyUrl.resolve rt base url = some path →
        resolve rt (s3Config rootdir location) dir [url] = .ok path) ∧
      parse rt true base = some u ∧ u.protocol = some ['s', '3', ':'] ∧ u.slashes = true := by
  obtain ⟨after, hdir⟩ := writableDirectory_s3 hrt rootdir location
  obtain ⟨v, hcwd, hne⟩ := parse_cwd hrt (s3Config rootdir location)
  obtain ⟨after', hresolve⟩ := resolve_other hrt plainProtocol_s3 rfl location.plain hcwd hne after
  obtain ⟨path, hparse⟩ := parse_plain hrt plainProtocol_s3 location.plain true (after' ++ ['/'])
  refine ⟨_, _, _, hdir, ?_, ?_, hparse, rfl, rfl⟩
  · rw [initFrontend, hdir]
    rfl
  · intro url path hpath
    have hbase : (['s', '3', ':'] ++ '/' :: '/' :: (location.bucket ++ '/' :: after')) ++ ['/'] =
        ['s', '3', ':'] ++ '/' :: '/' :: (location.bucket ++ '/' :: (after' ++ ['/'])) := by simp
    rw [resolve, hresolve, Option.bind_some, List.foldlM_cons, hbase, hpath]
    rfl

theorem get_located {dir url path : List Char} {target : Target} (hroute : initFrontend rt config = .ok (.download dir))
    (hresolve : resolve rt config dir [url] = .ok path) (hlocate : locate rt config path = .ok target) :
    get rt config url = .ok (some target) := by
  rw [get, hroute]
  simp only [Result.ok_bind, hresolve, hlocate]
  rfl

theorem prepare_single {rest : List Char} (h : rest.head? ≠ some '/') (h' : rest.head? ≠ some '\x5c') :
    ∃ after, prepare ('/' :: rest) = '/' :: after ∧ after.head? ≠ some '/' := by
  have hstart : start ('/' :: rest) = ['/'].rdropWhile isWs ++ convert rest := rfl
  refine ⟨(convert rest).rdropWhile isWs, ?_, ?_⟩
  · rw [prepare, hstart, LegacyUrl.rdropWhile_append]
    rfl
  · intro hhead
    obtain ⟨more, hmore⟩ := List.rdropWhile_prefix isWs (convert rest)
    have hconvert : (convert rest).head? = some '/' := by rw [← hmore, List.head?_append, hhead, Option.some_or]
    cases rest with
    | nil => cases hconvert
    | cons c cs =>
      rw [convert] at hconvert
      split at hconvert
      · exact h hconvert
      · split at hconvert
        · rename_i heq
          exact h' (congrArg some heq)
        · exact h hconvert

/-- The absolute path takes the bucket away. -/
theorem get_single (hrt : Documented rt) (rootdir : List Char) (location : Location) {url : List Char} (h : Single url) :
    ∃ key, get rt (s3Config rootdir location) url = .ok (some (.object ⟨[], key⟩)) := by
  obtain ⟨rest, rfl, hslash, hbackslash⟩ := h
  obtain ⟨after, hprepare, hsingle⟩ := prepare_single hslash hbackslash
  obtain ⟨dir, base, u, -, hroute, hresolve, hbase, hprotocol, hslashes⟩ := exists_base hrt rootdir location
  obtain ⟨path, hpath⟩ := resolve_absolute rt plainProtocol_s3 rfl hbase hprotocol hslashes hprepare hsingle
  obtain ⟨key, hlocate⟩ := locate_s3 hrt plainHost_nil path
  exact ⟨key, get_located hroute (hresolve _ _ hpath) hlocate⟩

/-- And a host takes the place of the bucket. -/
theorem get_network (hrt : Documented rt) (rootdir : List Char) (location : Location) {host : List Char}
    (hhost : PlainHost host) (rest : List Char) : ∃ key,
    get rt (s3Config rootdir location) ('/' :: '/' :: (host ++ '/' :: rest)) = .ok (some (.object ⟨host, key⟩)) := by
  obtain ⟨dir, base, u, -, hroute, hresolve, hbase, hprotocol, -⟩ := exists_base hrt rootdir location
  obtain ⟨path, hpath⟩ := resolve_network hrt plainProtocol_s3 rfl hhost hbase hprotocol rest
  obtain ⟨key, hlocate⟩ := locate_s3 hrt hhost path
  exact ⟨key, get_located hroute (hresolve _ _ hpath) hlocate⟩

theorem locate_clean (hrt : Documented rt) {host path : List Char} (hhost : PlainHost host) (hpath : CleanPath path) :
    locate rt config (['s', '3', ':'] ++ '/' :: '/' :: (host ++ '/' :: path)) = .ok (.object ⟨host, path⟩) := by
  obtain ⟨u, hcwd, hne⟩ := parse_cwd hrt config
  have hresolve := resolve_clean hrt plainProtocol_s3 rfl cleanPath_s3 hhost hpath hcwd hne
  have hparse := parse_clean hrt plainProtocol_s3 hhost hpath cleanPath_s3 false
  rw [locate, hresolve, Option.bind_some, hparse]
  rfl

theorem get_clean (hrt : Documented rt) (rootdir : List Char) (location : Location) {host path : List Char}
    (hhost : PlainHost host) (hpath : CleanPath path) :
    get rt (s3Config rootdir location) ('/' :: '/' :: (host ++ '/' :: path)) = .ok (some (.object ⟨host, path⟩)) := by
  obtain ⟨dir, base, u, -, hroute, hresolve, hbase, hprotocol, -⟩ := exists_base hrt rootdir location
  have hnetwork := resolve_network_clean hrt plainProtocol_s3 rfl hhost hpath hbase hprotocol
  exact get_located hroute (hresolve _ _ hnetwork) (locate_clean hrt hhost hpath)

/-! ## Stored files -/

theorem single_filename (sanitize : List Char → List Char) (file : File) : Single ('/' :: file.filename sanitize) := by
  cases file with
  | icon name => exact ⟨_, rfl, by simp [File.filename], by simp [File.filename]⟩
  | zip name version => exact ⟨_, rfl, by simp [File.filename], by simp [File.filename]⟩

/-- In a directory of clean segments, what is stored under a clean name is below it. -/
theorem store_segments (hrt : Documented rt) (rootdir : List Char) {segments files : List (List Char)}
    (hsegments : CleanSegments segments) (hdir : location.dir = joinSlash segments) (hfiles : CleanSegments files)
    {file : File} (hfile : file.filename sanitize = joinSlash files)
    (hscheme : scheme (joinSlash files) = (none, joinSlash files)) :
    store rt (s3Config rootdir location) sanitize file =
      .ok (.object ⟨location.bucket, joinSlash (segments ++ files)⟩) := by
  obtain ⟨u, hcwd, hne⟩ := parse_cwd hrt (s3Config rootdir location)
  have hdirectory : LegacyUrl.resolve rt (cwd (s3Config rootdir location))
      (['s', '3', ':'] ++ '/' :: '/' :: (location.bucket ++ '/' :: location.dir)) =
      some (['s', '3', ':'] ++ '/' :: '/' :: (location.bucket ++ '/' :: location.dir)) := by
    rw [hdir]
    exact resolve_clean hrt plainProtocol_s3 rfl cleanPath_s3 location.plain hsegments.path hcwd hne
  have hwritable : writableDirectory rt (s3Config rootdir location) =
      .ok (['s', '3', ':'] ++ '/' :: '/' :: (location.bucket ++ '/' :: location.dir)) := by
    have hstorage : LegacyUrl.resolve rt (cwd (s3Config rootdir location)) (s3Config rootdir location).FILE_STORAGE_DIR =
      some (['s', '3', ':'] ++ '/' :: '/' :: (location.bucket ++ '/' :: location.dir)) := hdirectory
    rw [writableDirectory, resolve, hstorage]
    rfl
  have hpath : resolve rt (s3Config rootdir location)
      (['s', '3', ':'] ++ '/' :: '/' :: (location.bucket ++ '/' :: location.dir)) [file.filename sanitize] =
      .ok (['s', '3', ':'] ++ '/' :: '/' :: (location.bucket ++ '/' :: joinSlash (segments ++ files))) := by
    have hbase : (['s', '3', ':'] ++ '/' :: '/' :: (location.bucket ++ '/' :: location.dir)) ++ ['/'] =
        ['s', '3', ':'] ++ '/' :: '/' :: (location.bucket ++ '/' :: (joinSlash segments ++ ['/'])) := by simp [hdir]
    have hrelative := resolve_relative hrt plainProtocol_s3 rfl cleanPath_s3 location.plain location.ne_nil location.dots
      hsegments hfiles hscheme
    rw [resolve, hdirectory, Option.bind_some, List.foldlM_cons, hbase, hfile, hrelative]
    rfl
  rw [store, hwritable]
  simp only [Result.ok_bind, hpath]
  exact locate_clean hrt location.plain (hsegments.append hfiles).path

/-- A name that no URL changes, in one segment. -/
def File.Clean (sanitize : List Char → List Char) : File → Prop
  | .icon name => ∀ c ∈ name, isClean c = true ∧ c ≠ '/'
  | .zip name _ => ∀ c ∈ sanitize name, isClean c = true ∧ c ≠ '/'

theorem isDots_of_length {segment : List Char} (h : 2 < segment.length) : isDots segment = false := by
  rw [isDots, Bool.or_eq_false_iff, beq_eq_false_iff_ne, beq_eq_false_iff_ne]
  constructor
  · rintro rfl
    simp at h
  · rintro rfl
    simp at h

theorem cleanSegments_pair {folder last : List Char} (hfolder : (folder.all fun c => isClean c && c != '/') = true)
    (hfolder' : 2 < folder.length) (hlast : ∀ c ∈ last, isClean c = true ∧ c ≠ '/') (hlast' : 2 < last.length) :
    CleanSegments [folder, last] := by
  have hchars : ∀ c ∈ folder, isClean c = true ∧ c ≠ '/' := by
    intro c hc
    simpa using List.all_eq_true.mp hfolder c hc
  have hfirst := cleanSegments_singleton (List.ne_nil_of_length_pos (by omega)) hchars (isDots_of_length hfolder')
  exact hfirst.append (cleanSegments_singleton (List.ne_nil_of_length_pos (by omega)) hlast (isDots_of_length hlast'))

/-- Two segments: the kind of the file, and its name. -/
theorem filename_segments {file : File} (h : file.Clean sanitize) : ∃ files, CleanSegments files ∧
    file.filename sanitize = joinSlash files ∧ scheme (joinSlash files) = (none, joinSlash files) := by
  have hjoin : ∀ folder last, joinSlash [folder, last] = folder ++ '/' :: last := by
    intro folder last
    rw [joinSlash_cons_cons, joinSlash, List.intercalate_singleton]
  have hclean : ∀ {cs : List Char}, (cs.all fun c => isClean c && c != '/') = true →
      ∀ c ∈ cs, isClean c = true ∧ c ≠ '/' := by
    intro cs hall c hc
    simpa using List.all_eq_true.mp hall c hc
  cases file with
  | icon name =>
    refine ⟨[['i', 'c', 'o', 'n', 's'], name ++ ['.', 'p', 'n', 'g']],
      cleanSegments_pair rfl (by decide) ?_ ?_, ?_, ?_⟩
    · intro c hc
      rcases List.mem_append.mp hc with hc | hc
      · exact h c hc
      · exact hclean rfl c hc
    · simp
    · rw [hjoin]
      simp [File.filename]
    · rw [hjoin]
      rfl
  | zip name version =>
    refine ⟨[['d', 'e', 'v', 'i', 'c', 'e', 's'],
      sanitize name ++ (['-', 'v'] ++ (Nat.toDigits 10 version ++ ['.', 'z', 'i', 'p']))],
      cleanSegments_pair rfl (by decide) ?_ ?_, ?_, ?_⟩
    · intro c hc
      simp only [List.mem_append] at hc
      rcases hc with hc | hc | hc | hc
      · exact h c hc
      · exact hclean rfl c hc
      · have hdigit := Nat.isDigit_of_mem_toDigits (by decide) (by decide) hc
        have hplain : isPlain c = true := by simp [isPlain, hdigit]
        refine ⟨(isPlain_facts hplain).2.2.2.2.2, ?_⟩
        rintro rfl
        cases hplain
      · exact hclean rfl c hc
    · simp only [List.length_append, List.length_cons]
      omega
    · rw [hjoin]
      simp [File.filename]
    · rw [hjoin]
      rfl

theorem store_clean (hrt : Documented rt) (rootdir : List Char) {segments : List (List Char)}
    (hsegments : CleanSegments segments) (hdir : location.dir = joinSlash segments) {file : File} (h : file.Clean sanitize) :
    ∃ target, store rt (s3Config rootdir location) sanitize file = .ok target ∧ InDirectory location target := by
  obtain ⟨files, hfiles, hfile, hscheme⟩ := filename_segments h
  refine ⟨_, store_segments hrt rootdir hsegments hdir hfiles hfile hscheme, joinSlash files, ?_⟩
  obtain ⟨first, rest, rfl⟩ := List.exists_cons_of_ne_nil hfiles.ne_nil
  rw [hdir, joinSlash, SplitOn.intercalate_append_cons '/' first rest hsegments.ne_nil]
  rfl

/-- No bucket and no directory holds its downloads: of the requests with a plain host and path, only
    those that name both stay there, and no file that is stored there is read back. -/
theorem never_served (hrt : Documented rt) (sanitize : List Char → List Char) (rootdir : List Char) (location : Location) :
    (∀ url, Single url → ¬Contained rt rootdir location url) ∧
    (∀ host rest, PlainHost host → host ≠ location.bucket →
      ¬Contained rt rootdir location ('/' :: '/' :: (host ++ '/' :: rest))) ∧
    (∀ path, CleanPath path → (Contained rt rootdir location ('/' :: '/' :: (location.bucket ++ '/' :: path)) ↔
      ∃ key, path = location.dir ++ '/' :: key)) ∧
    (∀ segments file, CleanSegments segments → location.dir = joinSlash segments → file.Clean sanitize →
      ∃ target, store rt (s3Config rootdir location) sanitize file = .ok target ∧ InDirectory location target) ∧
    (∀ file target, store rt (s3Config rootdir location) sanitize file = .ok target → InDirectory location target →
      get rt (s3Config rootdir location) ('/' :: file.filename sanitize) ≠ .ok (some target)) ∧
    ¬Served rt sanitize rootdir location := by
  have hsingle : ∀ url, Single url → ¬Contained rt rootdir location url := by
    intro url hurl hcontained
    obtain ⟨key, hkey⟩ := get_single hrt rootdir location hurl
    exact location.ne_nil (inDirectory_object.mp (hcontained _ hkey)).1.symm
  refine ⟨hsingle, ?_, ?_, ?_, ?_, ?_⟩
  · intro host rest hhost hne hcontained
    obtain ⟨key, hkey⟩ := get_network hrt rootdir location hhost rest
    exact hne (inDirectory_object.mp (hcontained _ hkey)).1
  · intro path hpath
    have hget := get_clean hrt rootdir location location.plain hpath
    constructor
    · intro hcontained
      exact (inDirectory_object.mp (hcontained _ hget)).2
    · intro hkey target htarget
      rw [hget, Except.ok.injEq, Option.some.injEq] at htarget
      exact htarget ▸ inDirectory_object.mpr ⟨rfl, hkey⟩
  · exact fun segments file hsegments hdir hclean => store_clean hrt rootdir hsegments hdir hclean
  · intro file target hstore hmem hget
    refine hsingle _ (single_filename sanitize file) fun target' htarget => ?_
    rw [hget, Except.ok.injEq, Option.some.injEq] at htarget
    exact htarget ▸ hmem
  · intro hserved
    exact hsingle ['/'] ⟨[], rfl, nofun, nofun⟩ (hserved.contained _ rfl)

theorem plainHost_bucket : PlainHost ['b', 'u', 'c', 'k', 'e', 't'] := by
  have hlabels : (['b', 'u', 'c', 'k', 'e', 't'].splitOn '.').all (fun label => !isAce label) = true := rfl
  refine ⟨List.all_eq_true.mp rfl, ?_, by decide⟩
  intro label hlabel
  simpa using List.all_eq_true.mp hlabels label hlabel

def bucketDir : Location where
  bucket := ['b', 'u', 'c', 'k', 'e', 't']
  dir := ['d', 'i', 'r']
  plain := plainHost_bucket
  ne_nil := List.cons_ne_nil _ _
  dots := rfl

theorem never_served_bucketDir : ¬Served ascii id [] bucketDir :=
  (never_served documented_ascii id [] bucketDir).2.2.2.2.2

/-- The icon of a device: it is stored in the directory, and its request reads the bucket with the empty name. -/
theorem icon_lost :
    (store ascii (s3Config [] bucketDir) id (.icon "com.bing".toList)).toOption =
      some (.object ⟨"bucket".toList, "dir/icons/com.bing.png".toList⟩) ∧
    (get ascii (s3Config [] bucketDir) "/icons/com.bing.png".toList).toOption =
      some (some (.object ⟨[], "icons/com.bing.png".toList⟩)) ∧
    ¬Served ascii id [] bucketDir := by
  have hget : (get ascii (s3Config [] bucketDir) "/icons/com.bing.png".toList).toOption =
      some (some (.object ⟨[], "icons/com.bing.png".toList⟩)) := by decide +kernel
  refine ⟨by decide +kernel, hget, ?_⟩
  intro hserved
  have hmem := hserved.contained _ rfl _ (Result.toOption_eq_some.mp hget)
  exact bucketDir.ne_nil (inDirectory_object.mp hmem).1.symm

end GenieCloud.Util.CodeStorage
