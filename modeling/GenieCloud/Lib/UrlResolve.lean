/-
  GenieCloud.Lib.UrlResolve — URLs with a plain host, and what is resolved against them.

  A plain host has lower case letters, digits, dots and dashes only, so that the parser leaves
  it as it is. The protocols here are not among those that always have slashes.

  - `parse_plain`, `format_plain`: the host of such a URL goes through the parser unchanged.
  - `resolve_other`: a URL with a protocol of its own is not changed by what it is resolved against.
  - `resolve_absolute`: an absolute path takes the host away.
  - `resolve_network`: two slashes and a host replace it.
  - `resolve_relative`: a path below goes below.
-/

import GenieCloud.Lib.LegacyUrl
import GenieCloud.Lib.SplitOn

namespace GenieCloud.Lib.LegacyUrl

/-! ## Plain characters -/

/-- What the name of a host is made of, without a change by the parser. -/
def isPlain (c : Char) : Bool := c.isLower || c.isDigit || c == '.' || c == '-'

/-- What the parser leaves in a path as it is. -/
def isClean (c : Char) : Bool := !isWs c && c != '\x5c' && !endsPath c && (escapedCodes.lookup c).isNone

/-- A label that is in Punycode, or claims to be. -/
def isAce (label : List Char) : Bool := ['x', 'n', '-', '-'].isPrefixOf label

structure Documented (rt : Runtime) : Prop where
  toLowerCase : ∀ cs, (∀ c ∈ cs, isPlain c = true) → rt.toLowerCase cs = cs
  toASCII : ∀ cs, (∀ c ∈ cs, isPlain c = true) → (∀ label ∈ cs.splitOn '.', isAce label = false) →
    rt.toASCII cs = cs

structure PlainHost (host : List Char) : Prop where
  chars : ∀ c ∈ host, isPlain c = true
  labels : ∀ label ∈ host.splitOn '.', isAce label = false
  short : host.length ≤ hostnameMaxLen

/-- A protocol that the parser finds, and that can have a host but need not have slashes. -/
structure PlainProtocol (proto : List Char) : Prop where
  scheme : ∀ rest, scheme (proto ++ rest) = (some proto, rest)
  lower : proto.map Char.toLower = proto
  hostless : hostlessProtocol proto = false
  head : ∀ rest, (proto ++ rest).dropWhile isWs = proto ++ rest
  backslash : '\x5c' ∉ proto
  colon : proto.getLast? = some ':'

theorem isPlain_range {c : Char} (h : isPlain c = true) :
    (97 ≤ c.toNat ∧ c.toNat ≤ 122) ∨ (48 ≤ c.toNat ∧ c.toNat ≤ 57) ∨ c.toNat = 46 ∨ c.toNat = 45 := by
  delta isPlain Char.isLower Char.isDigit at h
  simp only [Bool.or_eq_true, Bool.and_eq_true, decide_eq_true_eq, beq_iff_eq, ge_iff_le, UInt32.le_iff_toNat_le] at h
  rcases h with ((h | h) | rfl) | rfl
  · exact .inl h
  · exact .inr (.inl h)
  · exact .inr (.inr (.inl rfl))
  · exact .inr (.inr (.inr rfl))

/-- Nothing that the parser looks for is plain. -/
theorem isPlain_facts {c : Char} (h : isPlain c = true) : c.toLower = c ∧ c ≠ '@' ∧ isHostnameChar c = true ∧
    isHostEnd c = false ∧ isNonHost c = false ∧ isClean c = true := by
  have hall : ∀ n, n < 123 → isPlain (Char.ofNat n) = true →
      ((Char.ofNat n).toLower == Char.ofNat n && Char.ofNat n != '@' && isHostnameChar (Char.ofNat n) &&
        !isHostEnd (Char.ofNat n) && !isNonHost (Char.ofNat n) && isClean (Char.ofNat n)) = true := by decide +kernel
  have hrange := isPlain_range h
  have hfacts := hall c.toNat (by omega)
  rw [Char.ofNat_toNat] at hfacts
  simpa [and_assoc] using hfacts h

theorem documented_ascii : Documented ascii where
  toLowerCase cs hcs := by
    have hlower : ∀ c ∈ cs, c.toLower = c := fun c hc => (isPlain_facts (hcs c hc)).1
    exact List.map_congr_left hlower |>.trans (List.map_id _)
  toASCII cs _ _ := rfl

theorem PlainHost.isClean {host : List Char} (h : PlainHost host) : ∀ c ∈ host, isClean c = true :=
  fun c hc => (isPlain_facts (h.chars c hc)).2.2.2.2.2

theorem PlainHost.not_mem {host : List Char} (h : PlainHost host) {c : Char} (hc : isPlain c = false) : c ∉ host := by
  intro hmem
  rw [h.chars c hmem] at hc
  cases hc

theorem plainHost_nil : PlainHost [] := by
  refine ⟨nofun, ?_, Nat.zero_le _⟩
  intro label hlabel
  rw [List.splitOn_nil, List.mem_singleton] at hlabel
  rw [hlabel]
  rfl

/-! ## The parser -/

theorem convert_self {cs : List Char} (h : '\x5c' ∉ cs) : convert cs = cs := by
  obtain ⟨more, heq, hsame⟩ := convert_append [] cs
  rw [hsame h] at heq
  exact heq

theorem cutAuth_plain {host : List Char} (h : PlainHost host) : cutAuth host = (none, host) := by
  have hall : ∀ c ∈ host, (c != '@') = true := fun c hc => bne_iff_ne.mpr (isPlain_facts (h.chars c hc)).2.1
  rw [cutAuth, List.rtakeWhile_eq_self_iff.mpr hall, List.rdropWhile_eq_nil_iff.mpr hall]
  rfl

theorem cutPort_plain {host : List Char} (h : PlainHost host) : cutPort host = (host, none) := by
  rw [cutPort, if_neg]
  intro hlast
  have hmem := (List.rdropWhile_prefix Char.isDigit host).subset (List.mem_of_getLast? hlast)
  exact h.not_mem (c := ':') (by decide) hmem

theorem length_encode_plain {host : List Char} (h : ∀ c ∈ host, isPlain c = true) :
    (Utf16.encode host).length = host.length := by
  induction host with
  | nil => rfl
  | cons c host ih =>
    have hrange := isPlain_range (h c (List.mem_cons_self ..))
    rw [Utf16.encode, List.flatMap_cons, Utf16.units_small (by omega), List.length_append, List.length_cons]
    rw [Utf16.encode] at ih
    rw [ih fun c' hc' => h c' (List.mem_cons_of_mem _ hc')]
    exact Nat.add_comm _ _

theorem finishHost_plain {rt : Runtime} (hrt : Documented rt) {host : List Char} (h : PlainHost host) (rest : List Char) :
    finishHost rt none host none rest = ⟨none, host, none, host, rest⟩ := by
  have hipv6 : isIpv6Hostname host = false := by
    rw [isIpv6Hostname, Bool.and_eq_false_iff]
    refine .inl (beq_eq_false_iff_ne.mpr fun hhead => ?_)
    exact h.not_mem (by decide) (List.mem_of_head? hhead)
  have hvalid : ∀ c ∈ host, isHostnameChar c = true := fun c hc => (isPlain_facts (h.chars c hc)).2.2.1
  have hlower : lowerHostname rt host = host := by
    rw [lowerHostname, if_neg, hrt.toLowerCase host h.chars]
    rw [length_encode_plain h.chars]
    exact Nat.not_lt.mpr h.short
  rw [finishHost, if_neg (by simp [hipv6])]
  simp only [List.takeWhile_eq_self_iff.mpr hvalid, List.dropWhile_eq_nil_iff.mpr hvalid, hlower,
    hrt.toASCII host h.chars h.labels]
  simp [portSuffix, truthy]

theorem parseAuthority_plain {rt : Runtime} (hrt : Documented rt) {host : List Char} (h : PlainHost host) (rest : List Char) :
    parseAuthority rt (host ++ '/' :: rest) = some ⟨none, host, none, host, '/' :: rest⟩ := by
  have hend : ∀ c ∈ host, (!isHostEnd c) = true := fun c hc => by rw [(isPlain_facts (h.chars c hc)).2.2.2.1]; rfl
  have hnonHost : ∀ c ∈ host, (!isNonHost c) = true := fun c hc => by rw [(isPlain_facts (h.chars c hc)).2.2.2.2.1]; rfl
  have htake : (host ++ '/' :: rest).takeWhile (fun c => !isHostEnd c) = host := by
    rw [List.takeWhile_append_of_pos hend, List.takeWhile_cons_of_neg (by decide), List.append_nil]
  have hdrop : (host ++ '/' :: rest).dropWhile (fun c => !isHostEnd c) = '/' :: rest := by
    rw [List.dropWhile_append_of_pos hend, List.dropWhile_cons_of_neg (by decide)]
  rw [parseAuthority, htake, hdrop, cutAuth_plain h]
  dsimp only
  rw [List.takeWhile_eq_self_iff.mpr hnonHost, List.dropWhile_eq_nil_iff.mpr hnonHost, cutPort_plain h]
  exact congrArg some (finishHost_plain hrt h _)

/-- A URL with a plain host, and what follows the host. -/
def plainUrl (proto : Option (List Char)) (host rest : List Char) : UrlObject :=
  complete proto true (some ⟨none, host, none, host, rest⟩) (autoEscape rest)

/-- Up to the slash after its host, such a URL has nothing that the parser changes before it looks for parts. -/
theorem prepare_plain {before : List Char} (hws : ∀ rest, (before ++ rest).dropWhile isWs = before ++ rest)
    (hbackslash : '\x5c' ∉ before) (rest : List Char) :
    ∃ after, prepare (before ++ '/' :: rest) = before ++ '/' :: after := by
  have hconvert : convert (before ++ ['/']) = before ++ ['/'] := by
    refine convert_self fun hmem => ?_
    rcases List.mem_append.mp hmem with hmem | hmem
    · exact hbackslash hmem
    · simp at hmem
  have hprepare : prepare (before ++ ['/']) = before ++ ['/'] := by
    rw [prepare, start, hws, hconvert]
    exact List.rdropWhile_concat_neg _ _ _ (by decide)
  obtain ⟨after, heq, -⟩ := @prepare_append (before ++ ['/']) (by rw [hprepare]; simp) rest
  rw [hprepare, List.append_assoc, List.append_assoc] at heq
  exact ⟨_, heq⟩

theorem parse_prepared {rt : Runtime} (hrt : Documented rt) {proto host rest after : List Char} (hproto : PlainProtocol proto)
    (hhost : PlainHost host) (slashesDenoteHost : Bool)
    (hprepare : prepare (proto ++ '/' :: '/' :: (host ++ '/' :: rest)) = proto ++ '/' :: '/' :: (host ++ '/' :: after)) :
    parse rt slashesDenoteHost (proto ++ '/' :: '/' :: (host ++ '/' :: rest)) =
      some (plainUrl (some proto) host ('/' :: after)) := by
  have hscheme : scheme (prepare (proto ++ '/' :: '/' :: (host ++ '/' :: rest))) =
      (some proto, '/' :: '/' :: (host ++ '/' :: after)) := by
    rw [hprepare]
    exact hproto.scheme _
  have hhas : HasHost proto ('/' :: '/' :: (host ++ '/' :: after)) := ⟨by rw [hproto.lower]; exact hproto.hostless, rfl⟩
  have hafter : afterSlashes ('/' :: '/' :: (host ++ '/' :: after)) = host ++ '/' :: after := rfl
  rw [parse_eq hscheme, parseFull_host hscheme hhas, hafter, parseAuthority_plain hrt hhost, hproto.lower]
  rfl

theorem parse_plain {rt : Runtime} (hrt : Documented rt) {proto host : List Char} (hproto : PlainProtocol proto)
    (hhost : PlainHost host) (slashesDenoteHost : Bool) (rest : List Char) :
    ∃ after, parse rt slashesDenoteHost (proto ++ '/' :: '/' :: (host ++ '/' :: rest)) =
      some (plainUrl (some proto) host ('/' :: after)) := by
  have hwhole : ∀ rest, proto ++ '/' :: '/' :: (host ++ '/' :: rest) = (proto ++ '/' :: '/' :: host) ++ '/' :: rest := by
    intro rest
    simp
  obtain ⟨after, hprepare⟩ : ∃ after, prepare (proto ++ '/' :: '/' :: (host ++ '/' :: rest)) =
      proto ++ '/' :: '/' :: (host ++ '/' :: after) := by
    rw [hwhole]
    simp only [hwhole]
    refine prepare_plain ?_ ?_ rest
    · intro rest
      rw [List.append_assoc]
      exact hproto.head _
    · intro hmem
      rcases List.mem_append.mp hmem with hmem | hmem
      · exact hproto.backslash hmem
      · rw [List.mem_cons, List.mem_cons] at hmem
        rcases hmem with hmem | hmem | hmem
        · simp at hmem
        · simp at hmem
        · exact hhost.not_mem (by decide) hmem
  exact ⟨after, parse_prepared hrt hproto hhost slashesDenoteHost hprepare⟩

/-- Two slashes and a host, without a protocol. -/
theorem parse_network_prepared {rt : Runtime} (hrt : Documented rt) {host rest after : List Char} (hhost : PlainHost host)
    (hprepare : prepare ('/' :: '/' :: (host ++ '/' :: rest)) = '/' :: '/' :: (host ++ '/' :: after)) :
    parse rt true ('/' :: '/' :: (host ++ '/' :: rest)) = some (plainUrl none host ('/' :: after)) := by
  have hfull : parse rt true ('/' :: '/' :: (host ++ '/' :: rest)) =
      parseFull rt true ('/' :: '/' :: (host ++ '/' :: after)) := congrArg (parseFull rt true) hprepare
  have hscheme : scheme ('/' :: '/' :: (host ++ '/' :: after)) = (none, '/' :: '/' :: (host ++ '/' :: after)) := rfl
  have hdrop : ('/' :: '/' :: (host ++ '/' :: after)).drop 2 = host ++ '/' :: after := rfl
  rw [hfull, parseFull, hscheme]
  dsimp only
  rw [if_neg (by simp [hostlessProtocol]), if_pos (by simp [startsWithSlashes]), if_pos (by simp [startsWithSlashes]), hdrop,
    parseAuthority_plain hrt hhost]
  rfl

theorem parse_network {rt : Runtime} (hrt : Documented rt) {host : List Char} (hhost : PlainHost host) (rest : List Char) :
    ∃ after, parse rt true ('/' :: '/' :: (host ++ '/' :: rest)) = some (plainUrl none host ('/' :: after)) := by
  obtain ⟨after, hprepare⟩ : ∃ after,
      prepare (('/' :: '/' :: host) ++ '/' :: rest) = ('/' :: '/' :: host) ++ '/' :: after := by
    refine prepare_plain (fun _ => rfl) ?_ rest
    intro hmem
    rw [List.mem_cons, List.mem_cons] at hmem
    rcases hmem with hmem | hmem | hmem
    · simp at hmem
    · simp at hmem
    · exact hhost.not_mem (by decide) hmem
  exact ⟨after, parse_network_prepared hrt hhost hprepare⟩

/-- One slash: no host. -/
theorem parse_single (rt : Runtime) {rest after : List Char} (h : prepare ('/' :: rest) = '/' :: after)
    (hsingle : after.head? ≠ some '/') :
    parse rt true ('/' :: rest) = some (complete none false none (autoEscape ('/' :: after))) := by
  have hfull : parse rt true ('/' :: rest) = parseFull rt true ('/' :: after) := congrArg (parseFull rt true) h
  have hscheme : scheme ('/' :: after) = (none, '/' :: after) := rfl
  have hslashes : startsWithSlashes ('/' :: after) = false := by
    cases after with
    | nil => rfl
    | cons c after =>
      have hc : c ≠ '/' := fun heq => hsingle (congrArg some heq)
      simp [startsWithSlashes, hc]
  rw [hfull, parseFull, hscheme]
  dsimp only
  rw [if_neg (by simp [hostlessProtocol]), if_neg (by simp [hslashes])]
  rfl

/-! ## The text -/

/-- What `format` puts after the host. -/
def afterHostText (u : UrlObject) : List Char :=
  leading '/' ((u.pathname.getD []).flatMap escapeDelimiter) ++
    leading '?' ((u.search.getD []).flatMap fun c => if c = '#' then ['%', '2', '3'] else [c]) ++ leading '#' (u.hash.getD [])

theorem format_slashes (rt : Runtime) {u : UrlObject} (h : u.slashes = true) :
    format rt u = protocolText u ++ '/' :: '/' :: (hostText rt u ++ afterHostText u) := by
  rw [format, if_pos (by simp [h]), if_pos (by simp [h]), afterHostText]
  simp

theorem afterHostText_slash {u : UrlObject} {path : List Char} (h : u.pathname = some ('/' :: path)) :
    ∃ after, afterHostText u = '/' :: after := by
  have hescape : ('/' :: path).flatMap escapeDelimiter = '/' :: path.flatMap escapeDelimiter := rfl
  rw [afterHostText, h, Option.getD_some, hescape]
  exact ⟨_, rfl⟩

theorem protocolText_plain {u : UrlObject} {proto : List Char} (hproto : PlainProtocol proto) (h : u.protocol = some proto) :
    protocolText u = proto := by
  rw [protocolText, h, Option.getD_some, if_pos (by simp [hproto.colon])]

theorem hostText_host (rt : Runtime) {u : UrlObject} {host : List Char} (hauth : u.auth = none) (hhost : u.host = some host)
    (hhostname : u.hostname = some host) (hport : u.port = none) (hcolon : ':' ∉ host) : hostText rt u = host := by
  rw [hostText, hauth, hhost, hhostname, hport]
  cases host with
  | nil => rfl
  | cons c cs => simp [truthy]

theorem hostText_nil (rt : Runtime) {u : UrlObject} (hhost : u.host = some []) (hhostname : u.hostname = some []) :
    hostText rt u = [] := by
  rw [hostText, hhost, hhostname]
  simp [truthy]

theorem plainUrl_path (proto : Option (List Char)) (host after : List Char) :
    ∃ path, (plainUrl proto host ('/' :: after)).pathname = some ('/' :: path) := by
  have hrest : autoEscape ('/' :: after) = '/' :: autoEscape after := rfl
  have hpath : pathPart ('/' :: autoEscape after) = '/' :: pathPart (autoEscape after) := rfl
  refine ⟨pathPart (autoEscape after), ?_⟩
  simp [plainUrl, complete, hrest, hpath, part]

theorem format_plain (rt : Runtime) {proto host : List Char} (hproto : PlainProtocol proto) (hhost : PlainHost host)
    (rest : List Char) : ∃ after, format rt (plainUrl (some proto) host ('/' :: rest)) =
      proto ++ '/' :: '/' :: (host ++ '/' :: after) := by
  obtain ⟨path, hpath⟩ := plainUrl_path (some proto) host rest
  obtain ⟨after, hafter⟩ := afterHostText_slash hpath
  refine ⟨after, ?_⟩
  rw [format_slashes rt rfl, protocolText_plain hproto rfl, hostText_host rt rfl rfl rfl rfl (hhost.not_mem (by decide)),
    hafter]

/-! ## Resolution -/

theorem PlainProtocol.truthy {proto : List Char} (h : PlainProtocol proto) : truthy (some proto) = true := by
  cases hnil : proto with
  | nil =>
    have hcolon := h.colon
    rw [hnil] at hcolon
    cases hcolon
  | cons c cs => rfl

/-- The URL of another protocol stands for itself. -/
theorem resolveObject_other (rt : Runtime) {proto : List Char} {u relative : UrlObject} (hproto : PlainProtocol proto)
    (hslashed : slashedProtocol proto = false) (hrelative : relative.protocol = some proto) (hne : u.protocol ≠ some proto)
    (hformat : format rt relative ≠ []) : resolveObject rt u relative = relative := by
  rw [resolveObject]
  dsimp only
  rw [if_neg hformat, if_neg, if_pos, if_neg]
  · rw [hrelative, Option.getD_some, hslashed]
    exact Bool.false_ne_true
  · rw [hrelative, hproto.truthy, Bool.true_and, bne_iff_ne]
    exact fun heq => hne heq.symm
  · rw [hrelative, hproto.truthy]
    simp

theorem resolve_other {rt : Runtime} (hrt : Documented rt) {proto host base : List Char} {u : UrlObject}
    (hproto : PlainProtocol proto) (hslashed : slashedProtocol proto = false) (hhost : PlainHost host)
    (hbase : parse rt true base = some u) (hne : u.protocol ≠ some proto) (rest : List Char) :
    ∃ after, resolve rt base (proto ++ '/' :: '/' :: (host ++ '/' :: rest)) =
      some (proto ++ '/' :: '/' :: (host ++ '/' :: after)) := by
  obtain ⟨after, hparse⟩ := parse_plain hrt hproto hhost true rest
  obtain ⟨after', hformat⟩ := format_plain rt hproto hhost after
  have hresolve : resolveObject rt u (plainUrl (some proto) host ('/' :: after)) =
      plainUrl (some proto) host ('/' :: after) :=
    resolveObject_other rt hproto hslashed rfl hne (by rw [hformat]; simp)
  refine ⟨after', ?_⟩
  simp only [resolve, hbase, hparse, Option.bind_eq_bind, Option.bind_some, hresolve, hformat]
  rfl

/-- A host without a protocol takes the protocol. -/
theorem resolveObject_network (rt : Runtime) {proto host after : List Char} {u : UrlObject}
    (hslashed : slashedProtocol proto = false) (hprotocol : u.protocol = some proto) :
    resolveObject rt u (plainUrl none host ('/' :: after)) = plainUrl (some proto) host ('/' :: after) := by
  obtain ⟨path, hpath⟩ := plainUrl_path none host after
  obtain ⟨path', hpath'⟩ := plainUrl_path (some proto) host after
  have hsame : path = path' := by
    have h : pathOf (plainUrl none host ('/' :: after)) = pathOf (plainUrl (some proto) host ('/' :: after)) := by
      have hne : pathPart (autoEscape ('/' :: after)) ≠ [] := nofun
      rw [plainUrl, plainUrl, pathOf_complete hne, pathOf_complete hne]
    rw [pathOf, pathOf, hpath, hpath'] at h
    exact (List.cons.inj h).2
  have hurl : { plainUrl none host ('/' :: after) with protocol := some proto, pathname := some ('/' :: path) } =
      plainUrl (some proto) host ('/' :: after) := by
    rw [hsame, ← hpath']
    rfl
  rw [resolveObject]
  dsimp only
  rw [if_neg, if_pos, hprotocol, Option.getD_some, hslashed]
  · rw [← hurl, ← hpath]
    rfl
  · rfl
  · rw [format_slashes rt rfl]
    simp

theorem resolve_network {rt : Runtime} (hrt : Documented rt) {proto host base : List Char} {u : UrlObject}
    (hproto : PlainProtocol proto) (hslashed : slashedProtocol proto = false) (hhost : PlainHost host)
    (hbase : parse rt true base = some u) (hprotocol : u.protocol = some proto) (rest : List Char) :
    ∃ after, resolve rt base ('/' :: '/' :: (host ++ '/' :: rest)) =
      some (proto ++ '/' :: '/' :: (host ++ '/' :: after)) := by
  obtain ⟨after, hparse⟩ := parse_network hrt hhost rest
  obtain ⟨after', hformat⟩ := format_plain rt hproto hhost after
  have hresolve : resolveObject rt u (plainUrl none host ('/' :: after)) = plainUrl (some proto) host ('/' :: after) :=
    resolveObject_network rt hslashed hprotocol
  refine ⟨after', ?_⟩
  simp only [resolve, hbase, hparse, Option.bind_eq_bind, Option.bind_some, hresolve, hformat]
  rfl

/-! ## Segments -/

theorem mem_of_mem_dropDots {segments : List (List Char)} {segment : List Char} (h : segment ∈ (dropDots segments).1) :
    segment ∈ segments := by
  induction segments with
  | nil => exact h
  | cons first rest ih =>
    rw [dropDots] at h
    dsimp only at h
    split at h
    · exact List.mem_cons_of_mem _ (ih h)
    · split at h
      · exact List.mem_cons_of_mem _ (ih h)
      · split at h
        · rcases List.mem_cons.mp h with rfl | h
          · exact List.mem_cons_self ..
          · exact List.mem_cons_of_mem _ (ih h)
        · exact List.mem_cons_of_mem _ (ih h)

def isDots (segment : List Char) : Bool := segment == ['.'] || segment == ['.', '.']

/-- A last segment that is not dots stays. -/
theorem mem_dropDots_concat {last : List Char} (h : isDots last = false) (segments : List (List Char)) :
    last ∈ (dropDots (segments ++ [last])).1 := by
  simp only [isDots, Bool.or_eq_false_iff, beq_eq_false_iff_ne] at h
  induction segments with
  | nil => simp [dropDots, h.1, h.2]
  | cons first rest ih =>
    rw [List.cons_append, dropDots]
    dsimp only
    split
    · exact ih
    · split
      · exact ih
      · split
        · exact List.mem_cons_of_mem _ ih
        · exact ih

/-- Without dots, every segment stays. -/
theorem dropDots_self {segments : List (List Char)} (h : ∀ segment ∈ segments, isDots segment = false) :
    dropDots segments = (segments, 0) := by
  induction segments with
  | nil => rfl
  | cons first rest ih =>
    have hfirst := h first (List.mem_cons_self ..)
    simp only [isDots, Bool.or_eq_false_iff, beq_eq_false_iff_ne] at hfirst
    rw [dropDots, ih fun segment hsegment => h segment (List.mem_cons_of_mem _ hsegment)]
    simp [hfirst.1, hfirst.2]

theorem joinSlash_cons_cons (first second : List Char) (rest : List (List Char)) :
    joinSlash (first :: second :: rest) = first ++ '/' :: joinSlash (second :: rest) := by
  rw [joinSlash, List.intercalate_cons_cons]
  simp [joinSlash]

theorem slash_notMem_segments {path segment : List Char} (h : segment ∈ path.splitOn '/') : '/' ∉ segment :=
  SplitOn.notMem_of_mem_splitOn h

theorem hasTrailingSlash_false {relative result : UrlObject} {srcPath : List (List Char)} {last : List Char}
    (h : hasTrailingSlash relative result (srcPath ++ [last]) = false) (hlength : srcPath ≠ []) :
    isDots last = false ∧ last ≠ [] := by
  have hlong : 1 < (srcPath ++ [last]).length := by
    have := List.length_pos_of_ne_nil hlength
    rw [List.length_append, List.length_singleton]
    omega
  simp only [hasTrailingSlash, List.getLast?_concat, Option.getD_some, hlong, decide_true,
    Bool.or_true, Bool.true_and, Bool.or_eq_false_iff, beq_eq_false_iff_ne] at h
  exact ⟨by simp [isDots, h.1.1, h.1.2], h.2⟩

/-- What must be absolute starts with an empty segment, and has another. -/
theorem normalize_absolute {srcPath : List (List Char)} {last : List Char} {removeAllDots trailingSlash : Bool}
    (hslash : ∀ segment ∈ srcPath ++ [last], '/' ∉ segment)
    (hlast : trailingSlash = false → isDots last = false ∧ last ≠ []) :
    ∃ second rest, normalize (srcPath ++ [last]) true removeAllDots trailingSlash = [] :: second :: rest := by
  rw [normalize]
  dsimp only
  have hkept : ∃ kept, (if ((dropDots (srcPath ++ [last])).1.head? != some [] &&
      ((dropDots (srcPath ++ [last])).1.headD []).head? != some '/') = true then [] :: (dropDots (srcPath ++ [last])).1
      else (dropDots (srcPath ++ [last])).1) = [] :: kept ∧
        (last ∈ (dropDots (srcPath ++ [last])).1 → last ≠ [] → last ∈ kept) := by
    cases hsegments : (dropDots (srcPath ++ [last])).1 with
    | nil => exact ⟨[], by simp, nofun⟩
    | cons first rest =>
      cases first with
      | nil =>
        refine ⟨rest, by simp, ?_⟩
        intro hmem hne
        rcases List.mem_cons.mp hmem with heq | hmem
        · exact absurd heq hne
        · exact hmem
      | cons c cs =>
        have hc : c ≠ '/' := by
          rintro rfl
          have hmem : '/' :: cs ∈ srcPath ++ [last] := by
            apply mem_of_mem_dropDots
            rw [hsegments]
            exact List.mem_cons_self ..
          exact hslash _ hmem (List.mem_cons_self ..)
        exact ⟨(c :: cs) :: rest, by simp [hc], fun hmem _ => hmem⟩
  obtain ⟨kept, heq, hmem⟩ := hkept
  simp only [Bool.not_true, Bool.false_and, Bool.false_eq_true, if_false, Bool.true_and]
  rw [heq]
  cases kept with
  | cons second rest =>
    split
    · exact ⟨second, rest ++ [[]], rfl⟩
    · exact ⟨second, rest, rfl⟩
  | nil =>
    have htrailing : trailingSlash = true := by
      by_contra hfalse
      obtain ⟨hdots, hne⟩ := hlast (Bool.eq_false_iff.mpr hfalse)
      have := hmem (mem_dropDots_concat hdots srcPath) hne
      cases this
    have hjoin : (joinSlash [[]]).getLast? = none := rfl
    rw [htrailing, hjoin]
    exact ⟨[], [], rfl⟩

/-! ## Absolute paths -/

theorem resolvePath_absolute {base relative result : UrlObject} {srcPath : List (List Char)} {last : List Char}
    (hsrcPath : srcPath ≠ []) (hslash : ∀ segment ∈ srcPath ++ [last], '/' ∉ segment) :
    let resolved := resolvePath base relative result (srcPath ++ [last]) true true true
    resolved.protocol = result.protocol ∧ resolved.slashes = (base.slashes || relative.slashes) ∧
      resolved.host = some [] ∧ resolved.hostname = some [] ∧ ∃ path, resolved.pathname = some ('/' :: path) := by
  obtain ⟨second, rest, hkept⟩ := normalize_absolute hslash
    (fun h : hasTrailingSlash relative result (srcPath ++ [last]) = false => hasTrailingSlash_false h hsrcPath)
  have htake : takeAuth result [] = { result with host := some [], hostname := some [] } := by
    rw [takeAuth]
    simp
  rw [resolvePath, hkept]
  simp [htake, joinSlash_cons_cons]

theorem segments_slash (path : List Char) : segments (some ('/' :: path)) = [] :: path.splitOn '/' := by
  have hsplit := List.splitOn_append_cons_self (a := '/') [] path
  rw [List.nil_append, List.splitOn_nil] at hsplit
  rw [segments, if_pos (by simp [truthy])]
  exact hsplit

/-- A path that is absolute, against a URL of a protocol that need not have slashes. -/
theorem resolveObject_absolute (rt : Runtime) {proto path : List Char} {u relative : UrlObject} (hproto : PlainProtocol proto)
    (hslashed : slashedProtocol proto = false) (hprotocol : u.protocol = some proto) (hslashes : u.slashes = true)
    (hrelative : relative.protocol = none ∧ relative.slashes = false ∧ relative.host = none ∧ relative.hostname = none)
    (hpathname : relative.pathname = some ('/' :: path)) (hformat : format rt relative ≠ []) :
    ∃ path', format rt (resolveObject rt u relative) = proto ++ '/' :: '/' :: '/' :: path' := by
  obtain ⟨hnone, hsingle, hhost, hhostname⟩ := hrelative
  obtain ⟨init, last, hsplit⟩ : ∃ init last, path.splitOn '/' = init ++ [last] :=
    ⟨_, _, (List.dropLast_append_getLast (List.splitOn_ne_nil '/' path)).symm⟩
  have hrelPath : segments relative.pathname = ([] :: init) ++ [last] := by
    rw [hpathname, segments_slash, hsplit]
    rfl
  have hslash : ∀ segment ∈ ([] :: init) ++ [last], '/' ∉ segment := by
    intro segment hsegment
    rw [List.cons_append, ← hsplit] at hsegment
    rcases List.mem_cons.mp hsegment with rfl | hsegment
    · exact List.not_mem_nil
    · exact slash_notMem_segments hsegment
  have hresolve : ∃ result : UrlObject, result.protocol = some proto ∧
      resolveObject rt u relative = resolvePath u relative result (([] :: init) ++ [last]) true true true := by
    rw [resolveObject]
    dsimp only
    have hfalse : LegacyUrl.truthy none = false := rfl
    rw [if_neg hformat, if_neg (by simp [hsingle]), if_neg (by simp [hnone, hfalse]), hrelPath]
    simp only [hpathname, hprotocol, hnone, hfalse, hslashed, hproto.truthy, Option.getD_some, List.head?_cons,
      List.cons_append, beq_self_eq_true, Bool.or_true, Bool.true_or, Bool.and_true, Bool.and_false, Bool.true_and,
      Bool.not_false, if_true, Bool.false_eq_true, if_false]
    simp only [hhost, hhostname, Option.isSome_none, Bool.false_eq_true, if_false]
    exact ⟨_, rfl, rfl⟩
  obtain ⟨result, hresult, hresolve⟩ := hresolve
  obtain ⟨hprotocol', hslashes', hhost', hhostname', path', hpath'⟩ :=
    @resolvePath_absolute u relative result _ _ (List.cons_ne_nil [] init) hslash
  rw [← hresolve] at hprotocol' hslashes' hhost' hhostname' hpath'
  obtain ⟨after, hafter⟩ := afterHostText_slash hpath'
  refine ⟨after, ?_⟩
  rw [format_slashes rt (by rw [hslashes', hslashes]; rfl), protocolText_plain hproto (hprotocol'.trans hresult),
    hostText_nil rt hhost' hhostname', hafter]
  rfl

theorem format_ne_nil (rt : Runtime) {u : UrlObject} {c : Char} {path : List Char} (h : u.pathname = some (c :: path)) :
    format rt u ≠ [] := by
  have hescape : (c :: path).flatMap escapeDelimiter ≠ [] := by
    rw [List.flatMap_cons, escapeDelimiter]
    split
    · exact List.append_ne_nil_of_left_ne_nil (List.cons_ne_nil _ _) _
    · split
      · exact List.append_ne_nil_of_left_ne_nil (List.cons_ne_nil _ _) _
      · exact List.append_ne_nil_of_left_ne_nil (List.cons_ne_nil _ _) _
  rw [format, h, Option.getD_some]
  generalize (c :: path).flatMap escapeDelimiter = pathname at hescape
  split
  · split
    · simp
    · split
      · simp
      · simp [hescape]
  · simp [hescape]

theorem resolve_absolute (rt : Runtime) {proto base rest after : List Char} {u : UrlObject} (hproto : PlainProtocol proto)
    (hslashed : slashedProtocol proto = false) (hbase : parse rt true base = some u) (hprotocol : u.protocol = some proto)
    (hslashes : u.slashes = true) (hprepare : prepare ('/' :: rest) = '/' :: after) (hsingle : after.head? ≠ some '/') :
    ∃ path, resolve rt base ('/' :: rest) = some (proto ++ '/' :: '/' :: '/' :: path) := by
  have hparse := parse_single rt hprepare hsingle
  have hpath : pathPart (autoEscape ('/' :: after)) = '/' :: pathPart (autoEscape after) := rfl
  have hpathname : (complete none false none (autoEscape ('/' :: after))).pathname =
      some ('/' :: pathPart (autoEscape after)) := by
    simp [complete, hpath, part, LegacyUrl.truthy]
  obtain ⟨path, hresolve⟩ := resolveObject_absolute rt hproto hslashed hprotocol hslashes ⟨rfl, rfl, rfl, rfl⟩
    hpathname (format_ne_nil rt hpathname)
  refine ⟨path, ?_⟩
  simp only [resolve, hbase, hparse, Option.bind_eq_bind, Option.bind_some, hresolve]
  rfl

/-! ## Clean paths -/

theorem isClean_iff {c : Char} : isClean c = true ↔
    isWs c = false ∧ c ≠ '\x5c' ∧ endsPath c = false ∧ escapedCodes.lookup c = none := by
  simp [isClean, and_assoc]

structure CleanPath (path : List Char) : Prop where
  chars : ∀ c ∈ path, isClean c = true

section
variable {path : List Char}

theorem CleanPath.prepare (h : CleanPath path) : prepare path = path := by
  have hws : ∀ c ∈ path, isWs c = false := fun c hc => (isClean_iff.mp (h.chars c hc)).1
  have hdrop : path.dropWhile isWs = path := by
    cases path with
    | nil => rfl
    | cons c cs => rw [List.dropWhile_cons_of_neg (by simp [hws c (List.mem_cons_self ..)])]
  have hconvert : convert path = path := convert_self fun hmem => (isClean_iff.mp (h.chars _ hmem)).2.1 rfl
  rw [LegacyUrl.prepare, start, hdrop, hconvert, List.rdropWhile_eq_self_iff]
  intro hne hlast
  rw [hws _ (List.getLast_mem hne)] at hlast
  cases hlast

theorem CleanPath.autoEscape (h : CleanPath path) : autoEscape path = path := by
  have hescape : ∀ c ∈ path, escapeChar c = [c] := by
    intro c hc
    rw [escapeChar, (isClean_iff.mp (h.chars c hc)).2.2.2]
    rfl
  rw [LegacyUrl.autoEscape]
  clear h
  induction path with
  | nil => rfl
  | cons c cs ih =>
    rw [List.flatMap_cons, hescape c (List.mem_cons_self ..), ih fun x hx => hescape x (List.mem_cons_of_mem _ hx)]
    rfl

theorem CleanPath.not_endsPath (h : CleanPath path) : ∀ c ∈ path, endsPath c = false :=
  fun c hc => (isClean_iff.mp (h.chars c hc)).2.2.1

theorem CleanPath.flatMap_escapeDelimiter (h : CleanPath path) : path.flatMap escapeDelimiter = path := by
  have hescape : ∀ c ∈ path, escapeDelimiter c = [c] := by
    intro c hc
    have hends := h.not_endsPath c hc
    simp only [endsPath, Bool.or_eq_false_iff, beq_eq_false_iff_ne] at hends
    rw [escapeDelimiter, if_neg hends.1, if_neg hends.2]
  clear h
  induction path with
  | nil => rfl
  | cons c cs ih =>
    rw [List.flatMap_cons, hescape c (List.mem_cons_self ..), ih fun x hx => hescape x (List.mem_cons_of_mem _ hx)]
    rfl

theorem CleanPath.search_hash (h : CleanPath path) : part (searchPart path) = none ∧ part (hashPart path) = none := by
  have hnone : ¬∃ c ∈ path, endsPath c = true := by
    intro hex
    obtain ⟨c, hc, hend⟩ := hex
    rw [h.not_endsPath c hc] at hend
    cases hend
  rw [endsPath_iff, not_or, not_not, not_not] at hnone
  exact hnone

theorem isClean_slash : isClean '/' = true := rfl

theorem CleanPath.cons_slash (h : CleanPath path) : CleanPath ('/' :: path) := by
  refine ⟨fun c hc => ?_⟩
  rcases List.mem_cons.mp hc with rfl | hc
  · exact isClean_slash
  · exact h.chars c hc

/-- A URL with a plain host and a clean path. -/
def cleanUrl (proto host path : List Char) : UrlObject :=
  ⟨some proto, true, none, some host, none, some host, none, none, some ('/' :: path)⟩

theorem plainUrl_clean (h : CleanPath path) (proto host : List Char) :
    plainUrl (some proto) host ('/' :: path) = cleanUrl proto host path := by
  have hslash := h.cons_slash
  rw [plainUrl, hslash.autoEscape, complete, hslash.search_hash.1, hslash.search_hash.2, pathPart_self hslash.not_endsPath]
  simp [cleanUrl, part]

theorem CleanPath.whole (h : CleanPath path) {before host : List Char} (hbefore : CleanPath before) (hhost : PlainHost host) :
    CleanPath (before ++ '/' :: '/' :: (host ++ '/' :: path)) := by
  refine ⟨fun c hc => ?_⟩
  simp only [List.mem_append, List.mem_cons] at hc
  rcases hc with hc | rfl | rfl | hc | rfl | hc
  · exact hbefore.chars c hc
  · exact isClean_slash
  · exact isClean_slash
  · exact hhost.isClean c hc
  · exact isClean_slash
  · exact h.chars c hc

theorem parse_clean {rt : Runtime} (hrt : Documented rt) {proto host : List Char} (hproto : PlainProtocol proto)
    (hhost : PlainHost host) (h : CleanPath path) (hproto' : CleanPath proto) (slashesDenoteHost : Bool) :
    parse rt slashesDenoteHost (proto ++ '/' :: '/' :: (host ++ '/' :: path)) = some (cleanUrl proto host path) := by
  rw [parse_prepared hrt hproto hhost slashesDenoteHost (h.whole hproto' hhost).prepare, plainUrl_clean h]

theorem format_clean (rt : Runtime) {proto host : List Char} (hproto : PlainProtocol proto) (hhost : PlainHost host)
    (h : CleanPath path) : format rt (cleanUrl proto host path) = proto ++ '/' :: '/' :: (host ++ '/' :: path) := by
  rw [format_slashes rt rfl, protocolText_plain hproto rfl, hostText_host rt rfl rfl rfl rfl (hhost.not_mem (by decide)),
    afterHostText, cleanUrl]
  simp [h.cons_slash.flatMap_escapeDelimiter, leading]

end

/-! ## Paths below -/

structure CleanSegments (segments : List (List Char)) : Prop where
  ne_nil : segments ≠ []
  nonempty : ∀ segment ∈ segments, segment ≠ []
  chars : ∀ segment ∈ segments, ∀ c ∈ segment, isClean c = true
  slash : ∀ segment ∈ segments, '/' ∉ segment
  dots : ∀ segment ∈ segments, isDots segment = false

section
variable {dir files : List (List Char)}

theorem cleanSegments_singleton {segment : List Char} (hne : segment ≠ [])
    (hchars : ∀ c ∈ segment, isClean c = true ∧ c ≠ '/') (hdots : isDots segment = false) : CleanSegments [segment] where
  ne_nil := List.cons_ne_nil _ _
  nonempty := List.forall_mem_singleton.mpr hne
  chars := List.forall_mem_singleton.mpr fun c hc => (hchars c hc).1
  slash := List.forall_mem_singleton.mpr fun hmem => (hchars _ hmem).2 rfl
  dots := List.forall_mem_singleton.mpr hdots

theorem CleanSegments.append (h : CleanSegments dir) (h' : CleanSegments files) : CleanSegments (dir ++ files) where
  ne_nil := List.append_ne_nil_of_left_ne_nil h.ne_nil _
  nonempty segment hmem := (List.mem_append.mp hmem).elim (h.nonempty segment) (h'.nonempty segment)
  chars segment hmem := (List.mem_append.mp hmem).elim (h.chars segment) (h'.chars segment)
  slash segment hmem := (List.mem_append.mp hmem).elim (h.slash segment) (h'.slash segment)
  dots segment hmem := (List.mem_append.mp hmem).elim (h.dots segment) (h'.dots segment)

theorem CleanSegments.path (h : CleanSegments files) : CleanPath (joinSlash files) := by
  refine ⟨fun c hc => ?_⟩
  by_cases hslash : c = '/'
  · exact hslash ▸ isClean_slash
  · obtain ⟨segment, hsegment, hmem⟩ := (SplitOn.mem_intercalate_singleton hslash).mp hc
    exact h.chars segment hsegment c hmem

theorem CleanSegments.splitOn (h : CleanSegments files) : (joinSlash files).splitOn '/' = files :=
  List.splitOn_intercalate '/' h.slash h.ne_nil

theorem CleanSegments.head (h : CleanSegments files) : ∃ c cs, joinSlash files = c :: cs ∧ c ≠ '/' := by
  obtain ⟨first, rest, rfl⟩ := List.exists_cons_of_ne_nil h.ne_nil
  obtain ⟨c, cs, rfl⟩ := List.exists_cons_of_ne_nil (h.nonempty first (List.mem_cons_self ..))
  have hc : c ≠ '/' := fun heq => h.slash _ (List.mem_cons_self ..) (heq ▸ List.mem_cons_self ..)
  cases rest with
  | nil =>
    refine ⟨c, cs, ?_, hc⟩
    rw [joinSlash, List.intercalate_singleton]
  | cons second rest => exact ⟨c, _, joinSlash_cons_cons _ _ _, hc⟩

/-- With a slash at the end: as a directory. -/
theorem joinSlash_slash (h : dir ≠ []) : joinSlash dir ++ ['/'] = joinSlash (dir ++ [[]]) := by
  rw [joinSlash, joinSlash, SplitOn.intercalate_append_cons '/' [] [] h, List.intercalate_singleton]

theorem CleanSegments.splitOn_slash (h : CleanSegments dir) : (joinSlash dir ++ ['/']).splitOn '/' = dir ++ [[]] := by
  rw [joinSlash_slash h.ne_nil]
  refine List.splitOn_intercalate '/' ?_ (List.append_ne_nil_of_left_ne_nil h.ne_nil _)
  intro segment hsegment
  rcases List.mem_append.mp hsegment with hsegment | hsegment
  · exact h.slash segment hsegment
  · rw [List.mem_singleton.mp hsegment]
    exact List.not_mem_nil

/-- A path that does not start with a slash, and has no protocol. -/
def pathUrl (path : List Char) : UrlObject := ⟨none, false, none, none, none, none, none, none, some path⟩

theorem parse_path (rt : Runtime) (h : CleanSegments files) (hscheme : scheme (joinSlash files) = (none, joinSlash files)) :
    parse rt true (joinSlash files) = some (pathUrl (joinSlash files)) := by
  obtain ⟨c, cs, hcs, hc⟩ := h.head
  have hpath := h.path
  have hslashes : startsWithSlashes (joinSlash files) = false := by
    rw [hcs]
    cases cs with
    | nil => simp [startsWithSlashes]
    | cons d ds => simp [startsWithSlashes, hc]
  have hfull : parse rt true (joinSlash files) = parseFull rt true (joinSlash files) := by
    rw [parse, hpath.prepare]
    rfl
  rw [hfull, parseFull, hscheme]
  dsimp only
  rw [if_neg (by simp [hostlessProtocol]), if_neg (by simp [hslashes]), hpath.autoEscape, complete, hpath.search_hash.1,
    hpath.search_hash.2, pathPart_self hpath.not_endsPath]
  simp [pathUrl, hcs, part, LegacyUrl.truthy]

theorem normalize_clean (h : CleanSegments files) (mustEndAbs : Bool) (hmust : mustEndAbs = false) :
    normalize files mustEndAbs true false = files := by
  rw [normalize, dropDots_self h.dots, hmust]
  rfl

theorem hasTrailingSlash_clean (h : CleanSegments files) (relative result : UrlObject) :
    hasTrailingSlash relative result files = false := by
  have hlast : files.getLast?.getD [] ∈ files := by
    rw [List.getLast?_eq_getLast_of_ne_nil h.ne_nil]
    exact List.getLast_mem h.ne_nil
  have hdots := h.dots _ hlast
  have hne := h.nonempty _ hlast
  rw [hasTrailingSlash]
  simp only [isDots] at hdots
  simp [hdots, hne]

theorem resolveObject_relative (rt : Runtime) {proto host : List Char} (hproto : PlainProtocol proto)
    (hslashed : slashedProtocol proto = false) (hhost : CleanSegments [host]) (hat : '@' ∉ host) (h : CleanSegments dir)
    (h' : CleanSegments files) :
    resolveObject rt (cleanUrl proto host (joinSlash dir ++ ['/'])) (pathUrl (joinSlash files)) =
      cleanUrl proto host (joinSlash (dir ++ files)) := by
  obtain ⟨c, cs, hcs, hc⟩ := h'.head
  have hhost' : host ≠ [] := hhost.nonempty host (List.mem_singleton_self _)
  have hformat : format rt (pathUrl (joinSlash files)) ≠ [] := by
    refine @format_ne_nil rt _ c cs ?_
    rw [pathUrl, hcs]
  have hfalse : LegacyUrl.truthy none = false := rfl
  have htruthy : LegacyUrl.truthy (some host) = true := by simp [LegacyUrl.truthy, hhost']
  have hsegments : segments (some (joinSlash files)) = files := by
    rw [segments, if_pos (by simp [LegacyUrl.truthy, hcs]), Option.getD_some, h'.splitOn]
  have hfirst : (files.head? == some []) = false := by
    rw [beq_eq_false_iff_ne]
    intro heq
    exact h'.nonempty [] (List.mem_of_head? heq) rfl
  have hfiles : files ≠ [] := h'.ne_nil
  have hbase : replaceFirst host (segments (some ('/' :: (joinSlash dir ++ ['/'])))) = (host :: dir) ++ [[]] := by
    rw [segments_slash, h.splitOn_slash]
    rfl
  have hwhole : CleanSegments (host :: (dir ++ files)) := hhost.append (h.append h')
  have htake : ∀ u, takeAuth u host = { u with host := some host, hostname := some host } := by
    intro u
    have hall : ∀ c ∈ host, (c != '@') = true := by
      intro c hc
      rw [bne_iff_ne]
      rintro rfl
      exact hat hc
    rw [takeAuth, List.takeWhile_eq_self_iff.mpr hall]
    simp
  have hjoin : joinSlash ([] :: (dir ++ files)) = '/' :: joinSlash (dir ++ files) := by
    obtain ⟨second, rest, hrest⟩ := List.exists_cons_of_ne_nil (h.append h').ne_nil
    rw [hrest, joinSlash_cons_cons]
    rfl
  have hhead : ((joinSlash files).head? == some '/') = false := by
    rw [hcs, beq_eq_false_iff_ne]
    exact fun heq => hc (Option.some.inj heq)
  have hhostHead : (some host == some []) = false := by simp [hhost']
  rw [resolveObject]
  dsimp only
  rw [if_neg hformat, if_neg (by simp [pathUrl]), if_neg (by simp [pathUrl, hfalse])]
  simp only [cleanUrl, pathUrl, hsegments, hslashed, hproto.truthy, htruthy, hfalse, hbase, hfirst, hhead, hhostHead,
    Option.getD_some, List.cons_append, List.head?_cons, beq_self_eq_true, Bool.or_false, Bool.or_true, Bool.true_or,
    Bool.and_true, Bool.and_false, Bool.not_false, Bool.not_true, Bool.false_eq_true, if_true, if_false]
  have hdropLast : (host :: (dir ++ [[]])).dropLast = host :: dir := by
    rw [← List.cons_append, List.dropLast_concat]
  have hslash : (host.head? == some '/') = false := by
    rw [beq_eq_false_iff_ne]
    intro heq
    exact hhost.slash host (List.mem_singleton_self _) (List.mem_of_head? heq)
  have hne : (dir ++ files).isEmpty = false := by simp [hfiles]
  rw [if_pos hfiles, hdropLast, List.cons_append, resolvePath, hasTrailingSlash_clean hwhole, normalize_clean hwhole _ rfl]
  simp only [htake, List.head?_cons, List.headD_cons, List.tail_cons, hhostHead, hslash, htruthy, hfalse, hne, hjoin,
    Bool.or_false, Bool.false_or, Bool.not_false, Bool.and_true, Bool.false_eq_true, if_true, if_false, List.isEmpty_cons]

theorem CleanSegments.path_slash (h : CleanSegments dir) : CleanPath (joinSlash dir ++ ['/']) := by
  refine ⟨fun c hc => ?_⟩
  rcases List.mem_append.mp hc with hc | hc
  · exact h.path.chars c hc
  · exact List.mem_singleton.mp hc ▸ isClean_slash

theorem resolve_relative {rt : Runtime} (hrt : Documented rt) {proto host : List Char} (hproto : PlainProtocol proto)
    (hslashed : slashedProtocol proto = false) (hproto' : CleanPath proto) (hhost : PlainHost host) (hne : host ≠ [])
    (hdots : isDots host = false) (h : CleanSegments dir) (h' : CleanSegments files)
    (hscheme : scheme (joinSlash files) = (none, joinSlash files)) :
    resolve rt (proto ++ '/' :: '/' :: (host ++ '/' :: (joinSlash dir ++ ['/']))) (joinSlash files) =
      some (proto ++ '/' :: '/' :: (host ++ '/' :: joinSlash (dir ++ files))) := by
  have hsegment : CleanSegments [host] := by
    refine cleanSegments_singleton hne (fun c hc => ⟨?_, ?_⟩) hdots
    · exact hhost.isClean c hc
    · exact fun heq => hhost.not_mem (by decide) (heq ▸ hc)
  have hbase := parse_clean hrt hproto hhost h.path_slash hproto' true
  have hparse := parse_path rt h' hscheme
  have hresolve := resolveObject_relative rt hproto hslashed hsegment (hhost.not_mem (by decide)) h h'
  have hformat := format_clean rt hproto hhost (h.append h').path
  simp only [resolve, hbase, hparse, Option.bind_eq_bind, Option.bind_some, hresolve, hformat]
  rfl

theorem resolve_network_clean {rt : Runtime} (hrt : Documented rt) {proto host base path : List Char} {u : UrlObject}
    (hproto : PlainProtocol proto) (hslashed : slashedProtocol proto = false) (hhost : PlainHost host)
    (hpath : CleanPath path) (hbase : parse rt true base = some u) (hprotocol : u.protocol = some proto) :
    resolve rt base ('/' :: '/' :: (host ++ '/' :: path)) = some (proto ++ '/' :: '/' :: (host ++ '/' :: path)) := by
  have hempty : CleanPath [] := ⟨nofun⟩
  have hparse := parse_network_prepared hrt hhost (hpath.whole hempty hhost).prepare
  have hresolve : resolveObject rt u (plainUrl none host ('/' :: path)) = plainUrl (some proto) host ('/' :: path) :=
    resolveObject_network rt hslashed hprotocol
  have hformat := format_clean rt hproto hhost hpath
  simp only [resolve, hbase, hparse, Option.bind_eq_bind, Option.bind_some, hresolve, plainUrl_clean hpath, hformat]
  rfl

/-- The URL of another protocol with a clean path stays the same. -/
theorem resolve_clean {rt : Runtime} (hrt : Documented rt) {proto host base path : List Char} {u : UrlObject}
    (hproto : PlainProtocol proto) (hslashed : slashedProtocol proto = false) (hproto' : CleanPath proto)
    (hhost : PlainHost host) (hpath : CleanPath path) (hbase : parse rt true base = some u) (hne : u.protocol ≠ some proto) :
    resolve rt base (proto ++ '/' :: '/' :: (host ++ '/' :: path)) = some (proto ++ '/' :: '/' :: (host ++ '/' :: path)) := by
  have hparse := parse_clean hrt hproto hhost hpath hproto' true
  have hformat := format_clean rt hproto hhost hpath
  have hresolve : resolveObject rt u (cleanUrl proto host path) = cleanUrl proto host path :=
    resolveObject_other rt hproto hslashed rfl hne (by rw [hformat]; simp)
  simp only [resolve, hbase, hparse, Option.bind_eq_bind, Option.bind_some, hresolve, hformat]
  rfl

end

end GenieCloud.Lib.LegacyUrl
