/-
  GenieCloud.Lib.LegacyUrl — the URL parser of Node's `url` module: `parse`, `format` and
  `resolve`.

  A URL is cut at its protocol, then, if it has a host, at the end of its authority, and what
  follows is the path, the search and the hash. Each of these is `none` where the parser leaves
  `null`. `resolve` merges two parsed URLs and formats the result.
-/

import GenieCloud.Lib.Utf16
import Mathlib.Data.List.DropRight
import Mathlib.Data.List.Induction
import Mathlib.Data.List.TakeWhile

namespace GenieCloud.Lib.LegacyUrl

/-- What the parser calls for text that need not be ASCII. -/
structure Runtime where
  /-- `none`: it throws. -/
  decodeURIComponent : List Char → Option (List Char)
  encodeAuth : List Char → List Char
  toLowerCase : List Char → List Char
  toASCII : List Char → List Char

/-- For ASCII without escapes. -/
def ascii : Runtime where
  decodeURIComponent cs := if cs.contains '%' then none else some cs
  encodeAuth cs := cs
  toLowerCase := List.map Char.toLower
  toASCII cs := cs

structure UrlObject where
  protocol : Option (List Char)
  slashes : Bool
  auth : Option (List Char)
  host : Option (List Char)
  port : Option (List Char)
  hostname : Option (List Char)
  hash : Option (List Char)
  search : Option (List Char)
  pathname : Option (List Char)
  deriving DecidableEq, Repr

def empty : UrlObject := ⟨none, false, none, none, none, none, none, none, none⟩

/-- `null` or `''` is false in a condition. -/
def truthy (x : Option (List Char)) : Bool := !(x.getD []).isEmpty

/-- `null` for an empty part. -/
def part : List Char → Option (List Char)
  | [] => none
  | cs => some cs

/-! ## The string -/

def isWs (c : Char) : Bool :=
  c == ' ' || c == '\t' || c == '\r' || c == '\n' || c == '\x0c' || c == '\u00a0' || c == '\ufeff'

/-- Backslashes are slashes, up to the query or the hash. -/
def convert : List Char → List Char
  | [] => []
  | c :: cs => if c = '?' ∨ c = '#' then c :: cs else (if c = '\x5c' then '/' else c) :: convert cs

def start (url : List Char) : List Char := convert (url.dropWhile isWs)

def prepare (url : List Char) : List Char := (start url).rdropWhile isWs

/-- `\s` -/
def isSpace (c : Char) : Bool :=
  isWs c || c == '\x0b' || c == '\u1680' || (0x2000 ≤ c.toNat && c.toNat ≤ 0x200a) || c == '\u2028' || c == '\u2029' ||
    c == '\u202f' || c == '\u205f' || c == '\u3000'

/-- `/^(\/\/?(?!\/)[^?\s]*)(\?[^\s]*)?$/` -/
def simplePath (rest : List Char) : Option UrlObject :=
  if rest.head? = some '/' ∧ rest.take 3 ≠ ['/', '/', '/'] ∧ (rest.all fun c => !isSpace c) = true then
    some { empty with pathname := some (rest.takeWhile (· != '?')), search := part (rest.dropWhile (· != '?')) }
  else none

/-! ## The protocol -/

def isProtocolChar (c : Char) : Bool := c.isAlphanum || c == '.' || c == '+' || c == '-'

/-- `/^[a-z0-9.+-]+:/i`: what it matches, and what follows. -/
def scheme (rest : List Char) : Option (List Char) × List Char :=
  match rest.takeWhile isProtocolChar, rest.dropWhile isProtocolChar with
  | c :: cs, ':' :: after => (some (c :: cs ++ [':']), after)
  | _, _ => (none, rest)

def slashedProtocol (proto : List Char) : Bool :=
  [['h', 't', 't', 'p', ':'], ['h', 't', 't', 'p', 's', ':'], ['f', 't', 'p', ':'], ['g', 'o', 'p', 'h', 'e', 'r', ':'],
    ['f', 'i', 'l', 'e', ':'], ['w', 's', ':'], ['w', 's', 's', ':']].contains proto

/-- `javascript:` -/
def hostlessProtocol (proto : List Char) : Bool := proto == ['j', 'a', 'v', 'a', 's', 'c', 'r', 'i', 'p', 't', ':']

/-- `/^\/\/[^@/]+@[^@/]+/` -/
def hostPattern (rest : List Char) : Bool :=
  let stop := fun c : Char => c != '@' && c != '/'
  let user := (rest.drop 2).takeWhile stop
  let after := (rest.drop 2).dropWhile stop
  rest.take 2 == ['/', '/'] && !user.isEmpty && after.head? == some '@' && !(after.tail.takeWhile stop).isEmpty

/-! ## The authority -/

def isHostEnd (c : Char) : Bool := c == '#' || c == '/' || c == '?'

/-- What is never in a host. -/
def isNonHost (c : Char) : Bool :=
  c == '\t' || c == '\n' || c == '\r' || c == ' ' || c == '\x22' || c == '%' || c == '\x27' || c == ';' || c == '<' ||
    c == '>' || c == '\x5c' || c == '^' || c == '\x60' || c == '\x7b' || c == '|' || c == '\x7d'

/-- The last `@` of an authority ends the user's name and password. -/
def cutAuth (authority : List Char) : Option (List Char) × List Char :=
  let host := authority.rtakeWhile (· != '@')
  let before := authority.rdropWhile (· != '@')
  if before.isEmpty then (none, host) else (some before.dropLast, host)

/-- `/:[0-9]*$/` -/
def cutPort (host : List Char) : List Char × Option (List Char) :=
  let digits := host.rtakeWhile Char.isDigit
  let before := host.rdropWhile Char.isDigit
  if before.getLast? = some ':' then (before.dropLast, part digits) else (host, none)

def isIpv6Hostname (hostname : List Char) : Bool := hostname.head? == some '[' && hostname.getLast? == some ']'

def isHostnameChar (c : Char) : Bool := c.isAlphanum || c == '.' || c == '-' || c == '+' || c == '_' || 127 < c.toNat

def hostnameMaxLen : Nat := 255

structure Authority where
  auth : Option (List Char)
  host : List Char
  port : Option (List Char)
  hostname : List Char
  /-- What follows the host. -/
  rest : List Char
  deriving DecidableEq, Repr

def lowerHostname (rt : Runtime) (hostname : List Char) : List Char :=
  if (Utf16.encode hostname).length > hostnameMaxLen then [] else rt.toLowerCase hostname

def portSuffix (port : Option (List Char)) : List Char := if truthy port then ':' :: port.getD [] else []

/-- The hostname in lower case; it is cut at the first character that it cannot have. -/
def finishHost (rt : Runtime) (auth : Option (List Char)) (hostname : List Char) (port : Option (List Char))
    (rest : List Char) : Authority :=
  if isIpv6Hostname hostname then
    let lower := lowerHostname rt hostname
    ⟨auth, lower ++ portSuffix port, port, lower.tail.dropLast, if rest.head? = some '/' then rest else '/' :: rest⟩
  else
    let valid := hostname.takeWhile isHostnameChar
    let invalid := hostname.dropWhile isHostnameChar
    let hostname := rt.toASCII (lowerHostname rt valid)
    ⟨auth, hostname ++ portSuffix port, port, hostname, if invalid.isEmpty then rest else '/' :: (invalid ++ rest)⟩

def decodeAuth (rt : Runtime) : Option (List Char) → Option (Option (List Char))
  | none => some none
  | some auth => (rt.decodeURIComponent auth).map some

def parseAuthority (rt : Runtime) (rest : List Char) : Option Authority :=
  let authority := rest.takeWhile fun c => !isHostEnd c
  let afterAuthority := rest.dropWhile fun c => !isHostEnd c
  let host := (cutAuth authority).2.takeWhile fun c => !isNonHost c
  let afterHost := (cutAuth authority).2.dropWhile fun c => !isNonHost c
  (decodeAuth rt (cutAuth authority).1).map fun auth =>
    finishHost rt auth (cutPort host).1 (cutPort host).2 (afterHost ++ afterAuthority)

/-! ## The rest -/

def escapedCodes : List (Char × List Char) :=
  [('\t', ['%', '0', '9']), ('\n', ['%', '0', 'A']), ('\r', ['%', '0', 'D']), (' ', ['%', '2', '0']),
    ('\x22', ['%', '2', '2']), ('\x27', ['%', '2', '7']), ('<', ['%', '3', 'C']), ('>', ['%', '3', 'E']),
    ('\x5c', ['%', '5', 'C']), ('^', ['%', '5', 'E']), ('\x60', ['%', '6', '0']), ('\x7b', ['%', '7', 'B']),
    ('|', ['%', '7', 'C']), ('\x7d', ['%', '7', 'D'])]

def escapeChar (c : Char) : List Char := (escapedCodes.lookup c).getD [c]

def autoEscape (rest : List Char) : List Char := rest.flatMap escapeChar

def pathPart (rest : List Char) : List Char := (rest.takeWhile (· != '#')).takeWhile (· != '?')

def searchPart (rest : List Char) : List Char := (rest.takeWhile (· != '#')).dropWhile (· != '?')

def hashPart (rest : List Char) : List Char := rest.dropWhile (· != '#')

/-- The URL with a host, or without one, from the escaped rest. -/
def complete (lowerProto : Option (List Char)) (slashes : Bool) (authority : Option Authority) (rest : List Char) :
    UrlObject where
  protocol := lowerProto
  slashes := slashes
  auth := authority.bind Authority.auth
  host := authority.map Authority.host
  port := authority.bind Authority.port
  hostname := authority.map Authority.hostname
  hash := part (hashPart rest)
  search := part (searchPart rest)
  pathname :=
    if slashedProtocol (lowerProto.getD []) ∧ truthy (authority.map Authority.hostname) ∧ pathPart rest = [] then some ['/']
    else part (pathPart rest)

def startsWithSlashes (rest : List Char) : Bool := rest.take 2 == ['/', '/']

/-- After the fast path. -/
def parseFull (rt : Runtime) (slashesDenoteHost : Bool) (url : List Char) : Option UrlObject :=
  let proto := (scheme url).1
  let rest := (scheme url).2
  let lowerProto := proto.map (List.map Char.toLower)
  let hostless := hostlessProtocol (lowerProto.getD [])
  let slashes := (slashesDenoteHost || proto.isSome || hostPattern rest) && startsWithSlashes rest
  if hostless then some (complete lowerProto false none rest)
  else if slashes || proto.any fun proto => !slashedProtocol proto then
    (parseAuthority rt (if slashes then rest.drop 2 else rest)).map fun authority =>
      complete lowerProto slashes (some authority) (autoEscape authority.rest)
  else some (complete lowerProto false none (autoEscape rest))

def parse (rt : Runtime) (slashesDenoteHost : Bool) (url : List Char) : Option UrlObject :=
  match if slashesDenoteHost || url.contains '#' then none else simplePath (prepare url) with
  | some u => some u
  | none => parseFull rt slashesDenoteHost (prepare url)

/-! ## The text of a URL -/

def escapeDelimiter (c : Char) : List Char :=
  if c = '#' then ['%', '2', '3'] else if c = '?' then ['%', '3', 'F'] else [c]

def leading (c : Char) (cs : List Char) : List Char := if cs.isEmpty || cs.head? == some c then cs else c :: cs

def hostText (rt : Runtime) (u : UrlObject) : List Char :=
  let auth := if truthy u.auth then rt.encodeAuth (u.auth.getD []) ++ ['@'] else []
  let hostname := u.hostname.getD []
  if truthy u.host then auth ++ u.host.getD []
  else if truthy u.hostname then
    auth ++ (if hostname.contains ':' && !isIpv6Hostname hostname then '[' :: (hostname ++ [']']) else hostname) ++
      portSuffix u.port
  else []

def protocolText (u : UrlObject) : List Char :=
  let protocol := u.protocol.getD []
  if protocol.isEmpty || protocol.getLast? == some ':' then protocol else protocol ++ [':']

def format (rt : Runtime) (u : UrlObject) : List Char :=
  let protocol := protocolText u
  let host := hostText rt u
  let pathname := (u.pathname.getD []).flatMap escapeDelimiter
  let search := leading '?' ((u.search.getD []).flatMap fun c => if c = '#' then ['%', '2', '3'] else [c])
  let hash := leading '#' (u.hash.getD [])
  if u.slashes || slashedProtocol protocol then
    if u.slashes || !host.isEmpty then protocol ++ (['/', '/'] ++ host ++ leading '/' pathname) ++ search ++ hash
    else if protocol.take 4 = ['f', 'i', 'l', 'e'] then protocol ++ (['/', '/'] ++ pathname) ++ search ++ hash
    else protocol ++ pathname ++ search ++ hash
  else protocol ++ (host ++ pathname) ++ search ++ hash

/-! ## Resolution -/

def segments (pathname : Option (List Char)) : List (List Char) :=
  if truthy pathname then (pathname.getD []).splitOn '/' else []

def joinSlash (segments : List (List Char)) : List Char := ['/'].intercalate segments

/-- From the last segment to the first: dots are dropped, and `..` drops one more. The number of
    those left over comes with the result. -/
def dropDots : List (List Char) → List (List Char) × Nat
  | [] => ([], 0)
  | segment :: rest =>
    let (kept, up) := dropDots rest
    if segment = ['.'] then (kept, up)
    else if segment = ['.', '.'] then (kept, up + 1)
    else if up = 0 then (segment :: kept, 0)
    else (kept, up - 1)

def replaceFirst (host : List Char) : List (List Char) → List (List Char)
  | [] :: rest => host :: rest
  | segments => host :: segments

/-- `user@host` that has got into the host. -/
def takeAuth (u : UrlObject) (host : List Char) : UrlObject :=
  let user := host.takeWhile (· != '@')
  if user.length < host.length ∧ user ≠ [] then
    let after := (host.dropWhile (· != '@')).tail.takeWhile (· != '@')
    { u with auth := some user, host := some after, hostname := some after }
  else { u with host := some host, hostname := some host }

/-- The other fields of a URL with another slashed protocol. -/
def resolveProtocol (base relative : UrlObject) : UrlObject :=
  let noHost := !truthy relative.host && relative.protocol != some ['f', 'i', 'l', 'e', ':'] &&
    !hostlessProtocol (relative.protocol.getD [])
  let segments := ((relative.pathname.getD []).splitOn '/').dropWhile List.isEmpty
  let host := if noHost then some (segments.headD []) else relative.host
  let relPath := segments.tail
  let relPath := if relPath.head? = some [] then relPath else [] :: relPath
  let relPath := if relPath.length < 2 then [] :: relPath else relPath
  { base with
    protocol := relative.protocol
    slashes := base.slashes || relative.slashes
    auth := relative.auth
    host := some (host.getD [])
    port := relative.port
    hostname := if truthy relative.hostname then relative.hostname else host
    search := relative.search
    pathname := if noHost then some (joinSlash relPath) else relative.pathname }

/-- A path that ends with dots gets a slash at its end, and no other does. -/
def hasTrailingSlash (relative result : UrlObject) (srcPath : List (List Char)) : Bool :=
  let last := srcPath.getLast?.getD []
  ((truthy result.host || truthy relative.host || 1 < srcPath.length) && (last == ['.'] || last == ['.', '.'])) || last == []

/-- The segments without dots, with what makes them absolute and with a slash at the end. -/
def normalize (srcPath : List (List Char)) (mustEndAbs removeAllDots trailingSlash : Bool) : List (List Char) :=
  let (kept, up) := dropDots srcPath
  let kept := if !mustEndAbs && !removeAllDots then List.replicate up ['.', '.'] ++ kept else kept
  let kept := if mustEndAbs && kept.head? != some [] && (kept.headD []).head? != some '/' then [] :: kept else kept
  if trailingSlash && (joinSlash kept).getLast? != some '/' then kept ++ [[]] else kept

/-- The end of `resolveObject`: the path from its segments. -/
def resolvePath (base relative result : UrlObject) (srcPath : List (List Char))
    (mustEndAbs removeAllDots noLeadingSlashes : Bool) : UrlObject :=
  let kept := normalize srcPath mustEndAbs removeAllDots (hasTrailingSlash relative result srcPath)
  let isAbsolute := kept.head? == some [] || (kept.headD []).head? == some '/'
  let result := if noLeadingSlashes then takeAuth result (if isAbsolute then [] else kept.headD []) else result
  let kept := if noLeadingSlashes && !isAbsolute then kept.tail else kept
  let kept := if (mustEndAbs || (truthy result.host && !kept.isEmpty)) && !isAbsolute then [] :: kept else kept
  { result with
    pathname := if kept.isEmpty then none else some (joinSlash kept)
    auth := if truthy relative.auth then relative.auth else result.auth
    slashes := base.slashes || relative.slashes }

def resolveObject (rt : Runtime) (base relative : UrlObject) : UrlObject :=
  let result := { base with hash := relative.hash }
  if format rt relative = [] then result
  else if relative.slashes && !truthy relative.protocol then
    { relative with
      protocol := base.protocol
      pathname := if slashedProtocol (base.protocol.getD []) && truthy relative.hostname && !truthy relative.pathname then
        some ['/'] else relative.pathname }
  else if truthy relative.protocol && relative.protocol != base.protocol then
    if slashedProtocol (relative.protocol.getD []) then resolveProtocol result relative else relative
  else
    let isSourceAbs := (base.pathname.getD []).head? == some '/'
    let isRelAbs := truthy relative.host || (relative.pathname.getD []).head? == some '/'
    let removeAllDots := isRelAbs || isSourceAbs || (truthy base.host && truthy relative.pathname)
    let noLeadingSlashes := truthy base.protocol && !slashedProtocol (base.protocol.getD [])
    let srcPath := segments base.pathname
    let srcPath := if noLeadingSlashes && truthy base.host then replaceFirst (base.host.getD []) srcPath else srcPath
    let relPath := segments relative.pathname
    let relPath :=
      if noLeadingSlashes && truthy relative.protocol && truthy relative.host then
        replaceFirst (relative.host.getD []) relPath
      else relPath
    let mustEndAbs := removeAllDots && (!noLeadingSlashes || relPath.head? == some [] || srcPath.head? == some [])
    let relative := if noLeadingSlashes && truthy relative.protocol then
      { relative with hostname := none, port := none, host := none } else relative
    let result := if noLeadingSlashes then { result with
      hostname := some [], port := none, host := some [], auth := if truthy relative.protocol then none else base.auth }
      else result
    if isRelAbs then
      let result := if relative.host.isSome then
        { result with
          auth := if result.host = relative.host then result.auth else none
          host := relative.host
          port := relative.port } else result
      let result := if relative.hostname.isSome then
        { result with
          auth := if result.hostname = relative.hostname then result.auth else none
          hostname := relative.hostname } else result
      resolvePath base relative { result with search := relative.search } relPath mustEndAbs removeAllDots noLeadingSlashes
    else if relPath ≠ [] then
      resolvePath base relative { result with search := relative.search } (srcPath.dropLast ++ relPath)
        mustEndAbs removeAllDots noLeadingSlashes
    else if relative.search.isSome then
      { (if noLeadingSlashes then takeAuth result (srcPath.headD []) else result) with search := relative.search }
    else if srcPath = [] then { result with pathname := none }
    else resolvePath base relative result srcPath mustEndAbs removeAllDots noLeadingSlashes

def resolve (rt : Runtime) (source relative : List Char) : Option (List Char) := do
  let source ← parse rt true source
  let relative ← parse rt true relative
  return format rt (resolveObject rt source relative)

/-! ## What follows a URL -/

theorem convert_append (cs more : List Char) : ∃ more', convert (cs ++ more) = convert cs ++ more' ∧
    ('\x5c' ∉ more → more' = more) := by
  induction cs with
  | nil =>
    refine ⟨convert more, rfl, ?_⟩
    intro hmore
    induction more with
    | nil => rfl
    | cons c more ih =>
      rw [convert]
      split
      · rfl
      · rw [ih (List.not_mem_of_not_mem_cons hmore), if_neg]
        exact fun heq => hmore (heq ▸ List.mem_cons_self ..)
  | cons c cs ih =>
    rw [List.cons_append, convert, convert]
    split
    · exact ⟨more, rfl, fun _ => rfl⟩
    · obtain ⟨more', heq, hsame⟩ := ih
      exact ⟨more', by rw [heq, List.cons_append], hsame⟩

theorem start_ne_nil {url : List Char} (h : prepare url ≠ []) : url.dropWhile isWs ≠ [] := by
  intro hnil
  rw [prepare, start, hnil] at h
  exact h rfl

theorem start_append {url : List Char} (h : prepare url ≠ []) (more : List Char) :
    ∃ more', start (url ++ more) = start url ++ more' ∧ ('\x5c' ∉ more → more' = more) := by
  have hdrop : (url ++ more).dropWhile isWs = url.dropWhile isWs ++ more := by
    have hne := start_ne_nil h
    rw [List.dropWhile_append, if_neg]
    simpa [List.isEmpty_iff] using hne
  rw [start, hdrop]
  exact convert_append _ _

/-- The whitespace at the end of a URL. -/
def trailing (url : List Char) : List Char := (start url).rtakeWhile isWs

theorem start_eq (url : List Char) : start url = prepare url ++ trailing url :=
  List.rdropWhile_append_rtakeWhile.symm

theorem isWs_of_mem_trailing {url : List Char} {c : Char} (h : c ∈ trailing url) : isWs c = true :=
  List.mem_rtakeWhile_imp h

theorem rdropWhile_append {p : Char → Bool} (cs more : List Char) :
    (cs.rdropWhile p ++ more).rdropWhile p = cs.rdropWhile p ++ more.rdropWhile p := by
  induction more using List.reverseRecOn with
  | nil =>
    rw [List.append_nil, List.rdropWhile_nil, List.append_nil, List.rdropWhile_idempotent]
  | append_singleton more c ih =>
    rw [← List.append_assoc]
    cases hc : p c with
    | true => rw [List.rdropWhile_concat_pos _ _ _ hc, List.rdropWhile_concat_pos _ _ _ hc, ih]
    | false =>
      rw [List.rdropWhile_concat_neg _ _ _ (by simp [hc]), List.rdropWhile_concat_neg _ _ _ (by simp [hc]), List.append_assoc]

/-- What follows a URL is behind the whitespace at its end, and loses what it has itself. -/
theorem prepare_append {url : List Char} (h : prepare url ≠ []) (more : List Char) :
    ∃ more', prepare (url ++ more) = prepare url ++ (trailing url ++ more').rdropWhile isWs ∧
      ('\x5c' ∉ more → more' = more) := by
  obtain ⟨more', heq, hsame⟩ := start_append h more
  refine ⟨more', ?_, hsame⟩
  rw [prepare, heq, start_eq, List.append_assoc]
  exact rdropWhile_append _ _

theorem takeWhile_append_of_mem {p : Char → Bool} {cs : List Char} {c : Char} (hc : c ∈ cs) (hp : p c = false)
    (more : List Char) : (cs ++ more).takeWhile p = cs.takeWhile p := by
  rw [List.takeWhile_append, if_neg]
  intro hlength
  have hall := List.takeWhile_eq_self_iff.mp ((List.takeWhile_prefix p).eq_of_length hlength) c hc
  rw [hp] at hall
  cases hall

theorem dropWhile_append_of_mem {p : Char → Bool} {cs : List Char} {c : Char} (hc : c ∈ cs) (hp : p c = false)
    (more : List Char) : (cs ++ more).dropWhile p = cs.dropWhile p ++ more := by
  rw [List.dropWhile_append, if_neg]
  intro hempty
  have hall := List.dropWhile_eq_nil_iff.mp (List.isEmpty_iff.mp hempty) c hc
  rw [hp] at hall
  cases hall

theorem dropWhile_ne_nil {p : Char → Bool} {cs : List Char} {c : Char} (hc : c ∈ cs) (hp : p c = false) :
    cs.dropWhile p ≠ [] := by
  intro hnil
  have hall := List.dropWhile_eq_nil_iff.mp hnil c hc
  rw [hp] at hall
  cases hall

theorem scheme_some {url proto rest : List Char} : scheme url = (some proto, rest) ↔
    ∃ c cs, url.takeWhile isProtocolChar = c :: cs ∧ url.dropWhile isProtocolChar = ':' :: rest ∧
      proto = c :: cs ++ [':'] := by
  rw [scheme]
  split
  · rename_i c cs after htake hdrop
    rw [htake, hdrop, Prod.mk.injEq, Option.some.injEq]
    constructor
    · intro h
      exact ⟨c, cs, rfl, by rw [h.2], h.1.symm⟩
    · intro h
      obtain ⟨c', cs', hcs, hrest, hproto⟩ := h
      cases hcs
      cases hrest
      exact ⟨hproto.symm, rfl⟩
  · rename_i hnone
    refine iff_of_false nofun ?_
    intro h
    obtain ⟨c, cs, htake, hdrop, -⟩ := h
    exact hnone c cs rest htake hdrop

theorem scheme_append {url proto rest : List Char} (h : scheme url = (some proto, rest)) (more : List Char) :
    scheme (url ++ more) = (some proto, rest ++ more) := by
  obtain ⟨c, cs, htake, hdrop, hproto⟩ := scheme_some.mp h
  have hmem : ':' ∈ url := (List.dropWhile_suffix isProtocolChar).subset (hdrop ▸ List.mem_cons_self ..)
  have hcolon : isProtocolChar ':' = false := by decide
  refine scheme_some.mpr ⟨c, cs, ?_, ?_, hproto⟩
  · rw [takeWhile_append_of_mem hmem hcolon, htake]
  · rw [dropWhile_append_of_mem hmem hcolon, hdrop, List.cons_append]

/-- A string with a protocol is not a simple path. -/
theorem simplePath_none {url proto rest : List Char} (h : scheme url = (some proto, rest)) : simplePath url = none := by
  obtain ⟨c, cs, htake, -, -⟩ := scheme_some.mp h
  rw [simplePath, if_neg]
  intro hsimple
  have hslash : isProtocolChar '/' = false := by decide
  cases url with
  | nil => cases htake
  | cons x url =>
    obtain rfl : x = '/' := Option.some.inj hsimple.1
    rw [List.takeWhile_cons_of_neg (by simp [hslash])] at htake
    cases htake

theorem parse_eq {rt : Runtime} {slashesDenoteHost : Bool} {url proto rest : List Char}
    (h : scheme (prepare url) = (some proto, rest)) :
    parse rt slashesDenoteHost url = parseFull rt slashesDenoteHost (prepare url) := by
  rw [parse, simplePath_none h, ite_self]

/-! ## The end of the authority -/

theorem finishHost_append (rt : Runtime) (auth : Option (List Char)) (hostname : List Char) (port : Option (List Char))
    {rest : List Char} (hrest : rest ≠ []) (more : List Char) : finishHost rt auth hostname port (rest ++ more) =
      { finishHost rt auth hostname port rest with rest := (finishHost rt auth hostname port rest).rest ++ more } := by
  obtain ⟨c, cs, rfl⟩ := List.exists_cons_of_ne_nil hrest
  rw [finishHost, finishHost]
  by_cases hipv6 : isIpv6Hostname hostname = true
  · rw [if_pos hipv6, if_pos hipv6]
    by_cases hslash : c = '/'
    · simp [hslash]
    · simp [hslash]
  · rw [if_neg hipv6, if_neg hipv6]
    by_cases hinvalid : (hostname.dropWhile isHostnameChar).isEmpty = true
    · simp [hinvalid]
    · simp [hinvalid]

theorem finishHost_rest_ne_nil (rt : Runtime) (auth : Option (List Char)) (hostname : List Char) (port : Option (List Char))
    {rest : List Char} (hrest : rest ≠ []) : (finishHost rt auth hostname port rest).rest ≠ [] := by
  rw [finishHost]
  by_cases hipv6 : isIpv6Hostname hostname = true
  · rw [if_pos hipv6]
    by_cases hslash : rest.head? = some '/'
    · simp [hslash, hrest]
    · simp [hslash]
  · rw [if_neg hipv6]
    by_cases hinvalid : (hostname.dropWhile isHostnameChar).isEmpty = true
    · simp [hinvalid, hrest]
    · simp [hinvalid]

/-- A character that ends the host keeps what follows it out of the authority. -/
theorem parseAuthority_append {rt : Runtime} {rest : List Char} {c : Char} (hc : c ∈ rest) (hend : isHostEnd c = true)
    (more : List Char) : parseAuthority rt (rest ++ more) =
      (parseAuthority rt rest).map fun authority => { authority with rest := authority.rest ++ more } := by
  have hp : (!isHostEnd c) = false := by rw [hend]; rfl
  have hne : (cutAuth (rest.takeWhile fun c => !isHostEnd c)).2.dropWhile (fun c => !isNonHost c) ++
      rest.dropWhile (fun c => !isHostEnd c) ≠ [] :=
    List.append_ne_nil_of_right_ne_nil _ (dropWhile_ne_nil (p := fun c => !isHostEnd c) hc hp)
  rw [parseAuthority, parseAuthority]
  simp only [takeWhile_append_of_mem (p := fun c => !isHostEnd c) hc hp,
    dropWhile_append_of_mem (p := fun c => !isHostEnd c) hc hp]
  rw [Option.map_map]
  refine congrArg (Option.map · _) (funext fun auth => ?_)
  rw [← List.append_assoc, finishHost_append rt auth _ _ hne]
  rfl

theorem parseAuthority_rest_ne_nil {rt : Runtime} {rest : List Char} {c : Char} (hc : c ∈ rest) (hend : isHostEnd c = true)
    {authority : Authority} (h : parseAuthority rt rest = some authority) : authority.rest ≠ [] := by
  have hp : (!isHostEnd c) = false := by rw [hend]; rfl
  rw [parseAuthority, Option.map_eq_some_iff] at h
  obtain ⟨auth, -, rfl⟩ := h
  exact finishHost_rest_ne_nil rt auth _ _
    (List.append_ne_nil_of_right_ne_nil _ (dropWhile_ne_nil (p := fun c => !isHostEnd c) hc hp))

/-- Where the authority starts, after a protocol. -/
def afterSlashes (rest : List Char) : List Char := if startsWithSlashes rest then rest.drop 2 else rest

theorem startsWithSlashes_append {rest more : List Char} (hrest : rest ≠ []) (hmore : rest = ['/'] → more.head? ≠ some '/') :
    startsWithSlashes (rest ++ more) = startsWithSlashes rest := by
  cases rest with
  | nil => exact absurd rfl hrest
  | cons x rest =>
    cases rest with
    | cons y rest => rfl
    | nil =>
      by_cases hx : x = '/'
      · subst hx
        cases more with
        | nil => rfl
        | cons y more =>
          have hy : y ≠ '/' := fun heq => hmore rfl (congrArg some heq)
          simp [startsWithSlashes, hy]
      · simp [startsWithSlashes, hx]

theorem afterSlashes_append {rest more : List Char} (hrest : rest ≠ []) (hmore : rest = ['/'] → more.head? ≠ some '/') :
    afterSlashes (rest ++ more) = afterSlashes rest ++ more := by
  rw [afterSlashes, afterSlashes, startsWithSlashes_append hrest hmore]
  split
  · rename_i hslashes
    have hlength : 2 ≤ rest.length := by
      have htake : rest.take 2 = ['/', '/'] := by simpa [startsWithSlashes] using hslashes
      have := congrArg List.length htake
      rw [List.length_take] at this
      simp only [List.length_cons, List.length_nil] at this
      omega
    rw [List.drop_append_of_le_length hlength]
  · rfl

/-- A protocol with which the parser looks for a host. -/
structure HasHost (proto rest : List Char) : Prop where
  hostless : hostlessProtocol (proto.map Char.toLower) = false
  slashes : (startsWithSlashes rest || !slashedProtocol proto) = true

theorem parseFull_host {rt : Runtime} {slashesDenoteHost : Bool} {url proto rest : List Char}
    (h : scheme url = (some proto, rest)) (hhost : HasHost proto rest) : parseFull rt slashesDenoteHost url =
      (parseAuthority rt (afterSlashes rest)).map fun authority =>
        complete (some (proto.map Char.toLower)) (startsWithSlashes rest) (some authority) (autoEscape authority.rest) := by
  have hslashes := hhost.slashes
  rw [parseFull, h]
  simp only [Option.map_some, Option.getD_some, hhost.hostless, Option.isSome_some, Bool.or_true, Bool.true_or,
    Bool.true_and, Option.any_some, hslashes, Bool.false_eq_true, if_false, if_true]
  rfl

/-- Only a URL that the parser looks for a host in has a hostname. -/
theorem hasHost_of_hostname {rt : Runtime} {slashesDenoteHost : Bool} {url proto rest : List Char} {u : UrlObject}
    (h : scheme url = (some proto, rest)) (hu : parseFull rt slashesDenoteHost url = some u) (hhostname : u.hostname ≠ none) :
    HasHost proto rest := by
  rw [parseFull, h] at hu
  simp only [Option.map_some, Option.getD_some, Option.isSome_some, Bool.or_true, Bool.true_or, Bool.true_and,
    Option.any_some] at hu
  cases hhostless : hostlessProtocol (proto.map Char.toLower) with
  | true =>
    simp only [hhostless, if_true, Option.some.injEq] at hu
    subst hu
    exact absurd rfl hhostname
  | false =>
    simp only [hhostless, Bool.false_eq_true, if_false] at hu
    cases hslashes : (startsWithSlashes rest || !slashedProtocol proto) with
    | true => exact ⟨hhostless, hslashes⟩
    | false =>
      simp only [hslashes, Bool.false_eq_true, if_false, Option.some.injEq] at hu
      subst hu
      exact absurd rfl hhostname

/-- A host that is ended stays the same, whatever follows. -/
theorem parseFull_append {rt : Runtime} {slashesDenoteHost : Bool} {url proto rest more : List Char} {authority : Authority}
    {c : Char} (h : scheme url = (some proto, rest)) (hhost : HasHost proto rest)
    (hauthority : parseAuthority rt (afterSlashes rest) = some authority) (hc : c ∈ afterSlashes rest)
    (hend : isHostEnd c = true) (hmore : rest = ['/'] → more.head? ≠ some '/') :
    parseFull rt slashesDenoteHost (url ++ more) = some (complete (some (proto.map Char.toLower)) (startsWithSlashes rest)
      (some authority) (autoEscape (authority.rest ++ more))) := by
  have hrest : rest ≠ [] := by
    rintro rfl
    cases hc
  have hhost' : HasHost proto (rest ++ more) := by
    refine ⟨hhost.hostless, ?_⟩
    rw [startsWithSlashes_append hrest hmore]
    exact hhost.slashes
  rw [parseFull_host (scheme_append h more) hhost', afterSlashes_append hrest hmore, startsWithSlashes_append hrest hmore,
    parseAuthority_append hc hend, hauthority]
  rfl

/-! ## The path -/

theorem autoEscape_append (rest more : List Char) : autoEscape (rest ++ more) = autoEscape rest ++ autoEscape more :=
  List.flatMap_append

/-- A query or a hash ends the path. -/
def endsPath (c : Char) : Bool := c == '#' || c == '?'

theorem pathPart_eq (rest : List Char) : pathPart rest = rest.takeWhile fun c => !endsPath c := by
  rw [pathPart, List.takeWhile_takeWhile]
  refine congrArg (List.takeWhile · rest) (funext fun c => ?_)
  rw [endsPath, bne, bne]
  cases c == '#' with
  | true => simp
  | false => simp [Bool.beq_eq_decide_eq]

theorem pathPart_append_of_mem {rest : List Char} {c : Char} (hc : c ∈ rest) (hend : endsPath c = true) (more : List Char) :
    pathPart (rest ++ more) = pathPart rest := by
  rw [pathPart_eq, pathPart_eq]
  exact takeWhile_append_of_mem (p := fun c => !endsPath c) hc (by rw [hend]; rfl) more

theorem pathPart_append {rest : List Char} (h : ∀ c ∈ rest, endsPath c = false) (more : List Char) :
    pathPart (rest ++ more) = rest ++ pathPart more := by
  rw [pathPart_eq, pathPart_eq]
  refine List.takeWhile_append_of_pos fun c hc => ?_
  rw [h c hc]
  rfl

theorem pathPart_self {rest : List Char} (h : ∀ c ∈ rest, endsPath c = false) : pathPart rest = rest := by
  have hnil : pathPart [] = [] := rfl
  have happend := pathPart_append h []
  rwa [List.append_nil, hnil, List.append_nil] at happend

/-- A path is as long as its rest exactly if there is neither a search nor a hash. -/
theorem endsPath_iff {rest : List Char} :
    (∃ c ∈ rest, endsPath c = true) ↔ part (searchPart rest) ≠ none ∨ part (hashPart rest) ≠ none := by
  have hpart : ∀ cs, part cs ≠ none ↔ cs ≠ [] := by
    intro cs
    cases cs with
    | nil => simp [part]
    | cons c cs => simp [part]
  rw [hpart, hpart, searchPart, hashPart]
  constructor
  · rintro ⟨c, hc, hend⟩
    by_cases hhash : '#' ∈ rest
    · exact .inr (dropWhile_ne_nil (p := fun c => c != '#') hhash (by simp))
    · have hquestion : c = '?' := by
        simp only [endsPath, Bool.or_eq_true, beq_iff_eq] at hend
        rcases hend with rfl | rfl
        · exact absurd hc hhash
        · rfl
      have hall : rest.takeWhile (fun c => c != '#') = rest := by
        rw [List.takeWhile_eq_self_iff]
        intro x hx
        have : x ≠ '#' := fun heq => hhash (heq ▸ hx)
        simp [this]
      rw [hall]
      exact .inl (dropWhile_ne_nil (p := fun c => c != '?') hc (by simp [hquestion]))
  · rintro (hsearch | hhash)
    · by_contra hnone
      refine hsearch (List.dropWhile_eq_nil_iff.mpr fun x hx => ?_)
      have hx' : x ∈ rest := (List.takeWhile_prefix _).subset hx
      by_contra hne
      exact hnone ⟨x, hx', by simpa [endsPath] using Or.inr (by simpa using hne)⟩
    · by_contra hnone
      refine hhash (List.dropWhile_eq_nil_iff.mpr fun x hx => ?_)
      by_contra hne
      exact hnone ⟨x, hx, by simpa [endsPath] using Or.inl (by simpa using hne)⟩

theorem escapeChar_cases (c : Char) : escapeChar c = [c] ∨ ∃ code ∈ escapedCodes, escapeChar c = code.2 := by
  rw [escapeChar]
  cases hlookup : escapedCodes.lookup c with
  | none => exact .inl rfl
  | some code =>
    obtain ⟨before, after, heq, -⟩ := List.lookup_eq_some_iff.mp hlookup
    exact .inr ⟨(c, code), by rw [heq]; simp, rfl⟩

theorem escapeChar_ne_nil (c : Char) : escapeChar c ≠ [] := by
  rcases escapeChar_cases c with h | ⟨code, hcode, h⟩
  · rw [h]
    exact List.cons_ne_nil _ _
  · have hall : escapedCodes.all (fun code => !code.2.isEmpty) = true := rfl
    have hne := List.all_eq_true.mp hall code hcode
    rw [h]
    simpa [List.isEmpty_iff] using hne

/-- An escape has no delimiter that its character was not. -/
theorem mem_autoEscape {cs : List Char} (h : ∀ c ∈ cs, c ≠ '/' ∧ endsPath c = false) :
    ∀ d ∈ autoEscape cs, d ≠ '/' ∧ endsPath d = false := by
  intro d hd
  obtain ⟨c, hc, hd⟩ := List.mem_flatMap.mp hd
  rcases escapeChar_cases c with heq | ⟨code, hcode, heq⟩
  · rw [heq, List.mem_singleton] at hd
    exact hd ▸ h c hc
  · have hall : escapedCodes.all (fun code => code.2.all fun d => d != '/' && !endsPath d) = true := rfl
    have hcodes := List.all_eq_true.mp (List.all_eq_true.mp hall code hcode) d (heq ▸ hd)
    simpa using hcodes

theorem length_autoEscape (rest : List Char) : rest.length ≤ (autoEscape rest).length := by
  induction rest with
  | nil => exact Nat.le_refl _
  | cons c rest ih =>
    have hpos := List.length_pos_of_ne_nil (escapeChar_ne_nil c)
    rw [autoEscape, List.flatMap_cons, List.length_append, List.length_cons]
    rw [autoEscape] at ih
    omega

theorem autoEscape_ne_nil {rest : List Char} (h : rest ≠ []) : autoEscape rest ≠ [] := by
  have hpos := List.length_pos_of_ne_nil h
  have hle := length_autoEscape rest
  exact List.ne_nil_of_length_pos (by omega)

def pathOf (u : UrlObject) : List Char := u.pathname.getD []

section
variable {lowerProto : Option (List Char)} {slashes : Bool} {authority : Authority} {rest : List Char}

theorem pathOf_complete (h : pathPart rest ≠ []) :
    pathOf (complete lowerProto slashes (some authority) rest) = pathPart rest := by
  obtain ⟨c, cs, hcs⟩ := List.exists_cons_of_ne_nil h
  simp [pathOf, complete, hcs, part]

/-- Without a search or a hash, the whole rest is the path, and what follows it is as well. -/
theorem pathOf_complete_append (hrest : rest ≠ []) (hends : ∀ c ∈ rest, endsPath c = false) (more : List Char) :
    pathOf (complete lowerProto slashes (some authority) (rest ++ more)) =
      pathOf (complete lowerProto slashes (some authority) rest) ++ pathPart more := by
  have hself := pathPart_self hends
  have hwhole := pathPart_append hends more
  have hne : pathPart (rest ++ more) ≠ [] := by
    rw [hwhole]
    exact List.append_ne_nil_of_left_ne_nil hrest _
  rw [pathOf_complete hne, pathOf_complete (hself.symm ▸ hrest), hself, hwhole]

/-- With one, the path stays the same. -/
theorem pathOf_complete_of_mem {c : Char} (hc : c ∈ rest) (hends : endsPath c = true) (more : List Char) :
    pathOf (complete lowerProto slashes (some authority) (rest ++ more)) =
      pathOf (complete lowerProto slashes (some authority) rest) := by
  simp only [pathOf, complete, pathPart_append_of_mem hc hends]

theorem search_or_hash_iff : (complete lowerProto slashes (some authority) rest).search ≠ none ∨
    (complete lowerProto slashes (some authority) rest).hash ≠ none ↔ ∃ c ∈ rest, endsPath c = true := endsPath_iff.symm

end

/-! ## User, host and port -/

theorem rtakeWhile_append_cons {p : Char → Bool} {a : Char} {cs : List Char} (ha : p a = false) (hcs : ∀ c ∈ cs, p c = true)
    (before : List Char) : (before ++ a :: cs).rtakeWhile p = cs ∧ (before ++ a :: cs).rdropWhile p = before ++ [a] := by
  have hreverse : (before ++ a :: cs).reverse = cs.reverse ++ a :: before.reverse := by simp
  have hall : ∀ c ∈ cs.reverse, p c = true := fun c hc => hcs c (List.mem_reverse.mp hc)
  constructor
  · rw [List.rtakeWhile, hreverse, List.takeWhile_append_of_pos hall, List.takeWhile_cons_of_neg (by simp [ha]),
      List.append_nil, List.reverse_reverse]
  · rw [List.rdropWhile, hreverse, List.dropWhile_append_of_pos hall, List.dropWhile_cons_of_neg (by simp [ha])]
    simp

/-- What follows the last `@`, up to a port, is the host. -/
theorem parseAuthority_port (rt : Runtime) {before : List Char} (hbefore : ∀ c ∈ before, isHostEnd c = false) (n : Nat) :
    parseAuthority rt (before ++ '@' :: 'a' :: ':' :: List.replicate (n + 1) '1') = none ∨
      ∃ authority, parseAuthority rt (before ++ '@' :: 'a' :: ':' :: List.replicate (n + 1) '1') = some authority ∧
        authority.port = some (List.replicate (n + 1) '1') := by
  have hmem : ∀ c ∈ 'a' :: ':' :: List.replicate (n + 1) '1', c = 'a' ∨ c = ':' ∨ c = '1' := by
    intro c hc
    rcases List.mem_cons.mp hc with rfl | hc
    · exact .inl rfl
    · rcases List.mem_cons.mp hc with rfl | hc
      · exact .inr (.inl rfl)
      · exact .inr (.inr (List.eq_of_mem_replicate hc))
  have hall : ∀ c ∈ before ++ '@' :: 'a' :: ':' :: List.replicate (n + 1) '1', (!isHostEnd c) = true := by
    intro c hc
    rcases List.mem_append.mp hc with hc | hc
    · rw [hbefore c hc]
      rfl
    · rcases List.mem_cons.mp hc with rfl | hc
      · rfl
      · rcases hmem c hc with rfl | rfl | rfl
        · rfl
        · rfl
        · rfl
  have hauthority := List.takeWhile_eq_self_iff.mpr hall
  have hafter := List.dropWhile_eq_nil_iff.mpr hall
  have hat : ∀ c ∈ 'a' :: ':' :: List.replicate (n + 1) '1', (c != '@') = true := by
    intro c hc
    rcases hmem c hc with rfl | rfl | rfl
    · rfl
    · rfl
    · rfl
  have hcut : cutAuth (before ++ '@' :: 'a' :: ':' :: List.replicate (n + 1) '1') =
      (some before, 'a' :: ':' :: List.replicate (n + 1) '1') := by
    obtain ⟨htake, hdrop⟩ := rtakeWhile_append_cons (p := fun c => c != '@') (a := '@') rfl hat before
    rw [cutAuth, htake, hdrop]
    simp
  have hhost : ∀ c ∈ 'a' :: ':' :: List.replicate (n + 1) '1', (!isNonHost c) = true := by
    intro c hc
    rcases hmem c hc with rfl | rfl | rfl
    · rfl
    · rfl
    · rfl
  have hport : cutPort ('a' :: ':' :: List.replicate (n + 1) '1') = (['a'], some (List.replicate (n + 1) '1')) := by
    have hdigits : ∀ c ∈ List.replicate (n + 1) '1', Char.isDigit c = true := by
      intro c hc
      rw [List.eq_of_mem_replicate hc]
      rfl
    obtain ⟨htake, hdrop⟩ := rtakeWhile_append_cons (p := Char.isDigit) (a := ':') rfl hdigits ['a']
    have hwhole : 'a' :: ':' :: List.replicate (n + 1) '1' = ['a'] ++ ':' :: List.replicate (n + 1) '1' := rfl
    rw [cutPort, hwhole, htake, hdrop]
    rfl
  rw [parseAuthority, hauthority, hafter, hcut]
  dsimp only
  rw [List.takeWhile_eq_self_iff.mpr hhost, hport]
  cases decodeAuth rt (some before) with
  | none => exact .inl rfl
  | some auth => exact .inr ⟨_, rfl, rfl⟩

end GenieCloud.Lib.LegacyUrl
