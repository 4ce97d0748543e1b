/-
  GenieCloud.Auth.RedirectUrls — the redirect URIs of an OAuth2 client: `validateRedirectUrls` of
  `routes/developer_oauth2.ts`, and `verifyRedirectUrl` of `routes/my_oauth2.ts`.

  A client registers URIs that have a protocol and a host, and are `https:` or on 127.0.0.1. A
  request is accepted if its redirect URI starts with a registered one, as a string.

  - `requested_of_ended`: a URI whose host is ended stays on its host, and below its path as a
    string, whatever follows it.
  - `exists_port`: without an end, something can follow it that gives it any port.
  - `contained_iff`: every accepted URI has the origin of a registered one, and a path that
    starts with its path, exactly if the host of every registered URI is ended. It is below a
    registered path exactly if, in addition, no registered path can be extended within a segment.
-/

import GenieCloud.Lib.Json
import GenieCloud.Lib.LegacyUrl
import GenieCloud.Lib.Result

namespace GenieCloud.Auth.RedirectUrls

open GenieCloud.Lib GenieCloud.Lib.LegacyUrl

variable (rt : Runtime)

/-! ## Clients -/

inductive Failure where
  | badRequest (message : String)
  /-- What `Url.parse` and `JSON.parse` throw. -/
  | exception
  | authorization (message : String) (code : String)
  deriving DecidableEq, Repr

structure Client where
  allowed_redirect_uris : String
  deriving DecidableEq, Repr

def validateRedirectUrl (url : String) : Except Failure Unit :=
  match parse rt false url.toList with
  | none => .error .exception
  | some parsed =>
    if parsed.protocol = none ∨ parsed.hostname = none ∨
        (parsed.protocol ≠ some "https:".toList ∧ parsed.hostname ≠ some "127.0.0.1".toList) then
      .error (.badRequest "Invalid redirect URI (must be an absolute https: URL)")
    else .ok ()

def validateRedirectUrls (urls : List String) : Except Failure (List String) := do
  urls.forM (validateRedirectUrl rt)
  return urls

/-- The client that `POST /create` makes of the URIs. -/
def createClient (urls : List String) : Except Failure Client := do
  let redirectUrls ← validateRedirectUrls rt urls
  return ⟨Json.stringify (N := Int) (.arr (redirectUrls.map .str))⟩

def startsWith (redirectURI : String) : Json.Value Int → Bool
  | .str url => url.toList.isPrefixOf redirectURI.toList
  | _ => false

def verifyRedirectUrl (client : Client) (redirectURI : String) : Except Failure Unit :=
  if redirectURI = "" then .error (.authorization "invalid redirect_uri" "unauthorized_client")
  else
    match Json.parse (N := Int) client.allowed_redirect_uris with
    | some (.arr urls) =>
      if urls.any (startsWith redirectURI) then .ok ()
      else .error (.authorization "invalid redirect_uri" "unauthorized_client")
    | _ => .error .exception

/-! ## Containment -/

structure SameOrigin (registered requested : UrlObject) : Prop where
  protocol : requested.protocol = registered.protocol
  hostname : requested.hostname = registered.hostname
  port : requested.port = registered.port

/-- The path itself, or a path in it. -/
def Below (base path : List Char) : Prop := path = base ∨ (base.getLast? = some '/' ∧ base <+: path) ∨ base ++ ['/'] <+: path

/-- A redirect URI has the origin of a registered one, and a path that is below its path. -/
def Contained (below : List Char → List Char → Prop) (urls : List String) (redirectURI : String) : Prop :=
  ∃ url ∈ urls, ∃ registered requested, parse rt false url.toList = some registered ∧
    parse rt false redirectURI.toList = some requested ∧ SameOrigin registered requested ∧
      below (pathOf registered) (pathOf requested)

def AllContained (below : List Char → List Char → Prop) (urls : List String) (client : Client) : Prop :=
  ∀ redirectURI, verifyRedirectUrl client redirectURI = .ok () → Contained rt below urls redirectURI

/-- A slash, a query or a hash ends the host; a single slash after the protocol does not. -/
def HostEnded (url : String) : Prop :=
  (scheme (start url.toList)).2 ≠ ['/'] ∧ ∃ c ∈ afterSlashes (scheme (start url.toList)).2, isHostEnd c = true

/-- The path is closed by a query, a hash or a slash, or is strictly below that of another URI. -/
def PathClosed (urls : List String) (url : String) : Prop :=
  ∀ parsed, parse rt false url.toList = some parsed →
    (parsed.search ≠ none ∨ parsed.hash ≠ none) ∨ (pathOf parsed).getLast? = some '/' ∨
      ∃ other ∈ urls, ∃ above, parse rt false other.toList = some above ∧ SameOrigin above parsed ∧
        Below (pathOf above) (pathOf parsed) ∧ pathOf above ≠ pathOf parsed

variable {rt} {urls : List String} {url : String} {client : Client}

/-! ## What is accepted -/

theorem createClient_ok (h : createClient rt urls = .ok client) :
    (∀ url ∈ urls, validateRedirectUrl rt url = .ok ()) ∧ client.allowed_redirect_uris =
      Json.stringify (N := Int) (.arr (urls.map .str)) := by
  obtain ⟨redirectUrls, hurls, h⟩ := Result.bind_ok h
  obtain ⟨u, hvalid, hsame⟩ := Result.bind_ok hurls
  cases hsame
  cases h
  exact ⟨Result.forM_ok.mp hvalid, rfl⟩

theorem verify_iff (h : createClient rt urls = .ok client) (redirectURI : String) :
    verifyRedirectUrl client redirectURI = .ok () ↔ redirectURI ≠ "" ∧ ∃ url ∈ urls, url.toList <+: redirectURI.toList := by
  rw [verifyRedirectUrl, (createClient_ok h).2, Json.parse_stringify]
  by_cases hempty : redirectURI = ""
  · rw [if_pos hempty]
    exact iff_of_false nofun fun hne => hne.1 hempty
  · rw [if_neg hempty]
    have hany : ((urls.map Json.Value.str).any (startsWith redirectURI) = true) ↔
        ∃ url ∈ urls, url.toList <+: redirectURI.toList := by
      rw [List.any_map, List.any_eq_true]
      simp [startsWith]
    dsimp only
    rw [← hany]
    cases (urls.map Json.Value.str).any (startsWith redirectURI) with
    | true => simp [hempty]
    | false => simp

/-- A registered URI, as the parser takes it apart. -/
structure Registered (rt : Runtime) (url : String) (proto rest : List Char) (authority : Authority) : Prop where
  scheme : scheme (prepare url.toList) = (some proto, rest)
  host : HasHost proto rest
  authority : parseAuthority rt (afterSlashes rest) = some authority

/-- What the parser makes of it. -/
def parsedAs (proto rest : List Char) (authority : Authority) (afterHost : List Char) : UrlObject :=
  complete (some (proto.map Char.toLower)) (startsWithSlashes rest) (some authority) (autoEscape afterHost)

theorem scheme_of_protocol {cs : List Char} {u : UrlObject} (h : parse rt false cs = some u) (hprotocol : u.protocol ≠ none) :
    ∃ proto rest, scheme (prepare cs) = (some proto, rest) := by
  cases hscheme : scheme (prepare cs) with
  | mk proto rest =>
    cases proto with
    | some proto => exact ⟨proto, rest, rfl⟩
    | none =>
      exfalso
      apply hprotocol
      have hfull : ∀ {u}, parseFull rt false (prepare cs) = some u → u.protocol = none := by
        intro u hu
        rw [parseFull, hscheme] at hu
        dsimp only at hu
        split at hu
        · cases hu
          rfl
        · split at hu
          · obtain ⟨authority, -, rfl⟩ := Option.map_eq_some_iff.mp hu
            rfl
          · cases hu
            rfl
      rw [parse] at h
      split at h
      · rename_i u' hsimple
        cases h
        split at hsimple
        · cases hsimple
        · rw [simplePath] at hsimple
          split at hsimple
          · cases hsimple
            rfl
          · cases hsimple
      · exact hfull h

theorem registered_of_valid (h : validateRedirectUrl rt url = .ok ()) :
    ∃ proto rest authority, Registered rt url proto rest authority := by
  rw [validateRedirectUrl] at h
  cases hparse : parse rt false url.toList with
  | none =>
    rw [hparse] at h
    cases h
  | some parsed =>
    rw [hparse] at h
    dsimp only at h
    split at h
    · cases h
    · rename_i hvalid
      simp only [not_or] at hvalid
      obtain ⟨proto, rest, hscheme⟩ := scheme_of_protocol hparse hvalid.1
      rw [parse_eq hscheme] at hparse
      have hhost := hasHost_of_hostname hscheme hparse hvalid.2.1
      rw [parseFull_host hscheme hhost, Option.map_eq_some_iff] at hparse
      obtain ⟨authority, hauthority, -⟩ := hparse
      exact ⟨proto, rest, authority, hscheme, hhost, hauthority⟩

section
variable {proto rest : List Char} {authority : Authority}

theorem Registered.parse_eq (h : Registered rt url proto rest authority) :
    parse rt false url.toList = some (parsedAs proto rest authority authority.rest) := by
  rw [LegacyUrl.parse_eq h.scheme, parseFull_host h.scheme h.host, h.authority]
  rfl

theorem Registered.prepare_ne_nil (h : Registered rt url proto rest authority) : prepare url.toList ≠ [] := by
  intro hnil
  have hscheme := h.scheme
  rw [hnil] at hscheme
  cases hscheme

/-- The rest of the string, with the whitespace at its end. -/
theorem Registered.scheme_start (h : Registered rt url proto rest authority) :
    LegacyUrl.scheme (start url.toList) = (some proto, rest ++ trailing url.toList) := by
  rw [start_eq]
  exact scheme_append h.scheme _

theorem not_delimiter_of_isWs {c : Char} (h : isWs c = true) : (c ≠ '/' ∧ endsPath c = false) ∧ isHostEnd c = false := by
  have hslash : c ≠ '/' := by
    rintro rfl
    cases h
  have hquestion : c ≠ '?' := by
    rintro rfl
    cases h
  have hhash : c ≠ '#' := by
    rintro rfl
    cases h
  simp [endsPath, isHostEnd, hslash, hquestion, hhash]

theorem trailing_head (cs : List Char) : (trailing cs).head? ≠ some '/' := by
  intro h
  exact (not_delimiter_of_isWs (isWs_of_mem_trailing (List.mem_of_head? h))).1.1 rfl

/-- Whitespace does not start with slashes, and ends no host. -/
theorem mem_afterSlashes_trailing {cs : List Char} {c : Char} :
    (c ∈ afterSlashes (rest ++ trailing cs) ∧ isHostEnd c = true) ↔ c ∈ afterSlashes rest ∧ isHostEnd c = true := by
  have htrailing : c ∈ trailing cs → isHostEnd c ≠ true := by
    intro hc hend
    rw [(not_delimiter_of_isWs (isWs_of_mem_trailing hc)).2] at hend
    cases hend
  by_cases hrest : rest = []
  · subst hrest
    have hsame : afterSlashes (trailing cs) = trailing cs := by
      rw [afterSlashes, if_neg]
      intro hslashes
      apply trailing_head cs
      cases htail : trailing cs with
      | nil =>
        rw [htail] at hslashes
        cases hslashes
      | cons x xs =>
        rw [htail] at hslashes
        simp only [startsWithSlashes, List.take_succ_cons, beq_iff_eq, List.cons.injEq] at hslashes
        exact congrArg some hslashes.1
    rw [List.nil_append, hsame]
    refine iff_of_false (fun h => htrailing h.1 h.2) ?_
    intro h
    cases h.1
  · rw [afterSlashes_append hrest (fun _ => trailing_head cs), List.mem_append]
    constructor
    · rintro ⟨hc | hc, hend⟩
      · exact ⟨hc, hend⟩
      · exact absurd hend (htrailing hc)
    · intro h
      exact ⟨.inl h.1, h.2⟩

theorem Registered.hostEnded_iff (h : Registered rt url proto rest authority) :
    HostEnded url ↔ rest ++ trailing url.toList ≠ ['/'] ∧ ∃ c ∈ afterSlashes rest, isHostEnd c = true := by
  rw [HostEnded, h.scheme_start]
  refine and_congr_right fun _ => exists_congr fun c => mem_afterSlashes_trailing

/-! ## A host that is ended -/

/-- Whatever follows, the parser finds the same host, and only the rest gets longer. -/
theorem Registered.parse_append (h : Registered rt url proto rest authority) (hended : HostEnded url) (after : List Char) :
    ∃ more, parse rt false (url.toList ++ after) = some (parsedAs proto rest authority
      (authority.rest ++ (trailing url.toList ++ more).rdropWhile isWs)) ∧ ('\x5c' ∉ after → more = after) := by
  obtain ⟨hsingle, c, hc, hend⟩ := h.hostEnded_iff.mp hended
  obtain ⟨more, hprepare, hsame⟩ := prepare_append h.prepare_ne_nil after
  refine ⟨more, ?_, hsame⟩
  have hscheme : LegacyUrl.scheme (prepare (url.toList ++ after)) =
      (some proto, rest ++ (trailing url.toList ++ more).rdropWhile isWs) := by
    rw [hprepare]
    exact scheme_append h.scheme _
  rw [LegacyUrl.parse_eq hscheme, hprepare]
  refine parseFull_append h.scheme h.host h.authority hc hend ?_
  intro hrest hhead
  -- The whitespace after a single slash keeps it single.
  have htrailing : trailing url.toList ≠ [] := by
    intro hnil
    rw [hnil, List.append_nil] at hsingle
    exact hsingle hrest
  obtain ⟨x, xs, hx⟩ := List.exists_cons_of_ne_nil htrailing
  obtain ⟨dropped, hdropped⟩ := List.rdropWhile_prefix isWs (l := trailing url.toList ++ more)
  have hfirst : (trailing url.toList ++ more).head? = some '/' := by
    rw [← hdropped, List.head?_append, hhead]
    rfl
  rw [List.head?_append, hx] at hfirst
  apply trailing_head url.toList
  rw [hx]
  exact hfirst

theorem Registered.rest_ne_nil (h : Registered rt url proto rest authority) (hended : HostEnded url) :
    autoEscape authority.rest ≠ [] := by
  obtain ⟨-, c, hc, hend⟩ := h.hostEnded_iff.mp hended
  exact autoEscape_ne_nil (parseAuthority_rest_ne_nil hc hend h.authority)

theorem sameOrigin_parsedAs (afterHost afterHost' : List Char) :
    SameOrigin (parsedAs proto rest authority afterHost) (parsedAs proto rest authority afterHost') := ⟨rfl, rfl, rfl⟩

/-- The path of what follows: the same, or longer. -/
theorem Registered.pathOf_append (h : Registered rt url proto rest authority) (hended : HostEnded url) (more : List Char) :
    ((∃ c ∈ autoEscape authority.rest, endsPath c = true) ∧ pathOf (parsedAs proto rest authority (authority.rest ++ more)) =
      pathOf (parsedAs proto rest authority authority.rest)) ∨
    ((∀ c ∈ autoEscape authority.rest, endsPath c = false) ∧ pathOf (parsedAs proto rest authority (authority.rest ++ more)) =
      pathOf (parsedAs proto rest authority authority.rest) ++ pathPart (autoEscape more)) := by
  rw [parsedAs, parsedAs, autoEscape_append]
  by_cases hends : ∃ c ∈ autoEscape authority.rest, endsPath c = true
  · obtain ⟨c, hc, hend⟩ := hends
    exact .inl ⟨⟨c, hc, hend⟩, pathOf_complete_of_mem hc hend _⟩
  · simp only [not_exists, not_and, Bool.not_eq_true] at hends
    exact .inr ⟨hends, pathOf_complete_append (h.rest_ne_nil hended) hends _⟩

/-- A URI that follows one whose host is ended, and its path. -/
theorem Registered.requested_of_ended (h : Registered rt url proto rest authority) (hended : HostEnded url)
    {redirectURI : String} (hstarts : url.toList <+: redirectURI.toList) :
    ∃ requested, parse rt false redirectURI.toList = some requested ∧
      SameOrigin (parsedAs proto rest authority authority.rest) requested ∧
        pathOf (parsedAs proto rest authority authority.rest) <+: pathOf requested := by
  obtain ⟨after, hafter⟩ := hstarts
  obtain ⟨more, hparse, -⟩ := h.parse_append hended after
  rw [hafter] at hparse
  refine ⟨_, hparse, sameOrigin_parsedAs _ _, ?_⟩
  rcases h.pathOf_append hended ((trailing url.toList ++ more).rdropWhile isWs) with ⟨-, hpath⟩ | ⟨-, hpath⟩
  · exact hpath ▸ List.prefix_refl _
  · exact hpath ▸ List.prefix_append _ _

end

theorem SameOrigin.trans {u v w : UrlObject} (huv : SameOrigin u v) (hvw : SameOrigin v w) : SameOrigin u w :=
  ⟨hvw.protocol.trans huv.protocol, hvw.hostname.trans huv.hostname, hvw.port.trans huv.port⟩

theorem allContained_of_ended (hclient : createClient rt urls = .ok client) (hended : ∀ url ∈ urls, HostEnded url) :
    AllContained rt (fun base path => base <+: path) urls client := by
  intro redirectURI hverify
  obtain ⟨-, url, hurl, hstarts⟩ := (verify_iff hclient redirectURI).mp hverify
  obtain ⟨proto, rest, authority, h⟩ := registered_of_valid ((createClient_ok hclient).1 url hurl)
  obtain ⟨requested, hparse, horigin, hpath⟩ := h.requested_of_ended (hended url hurl) hstarts
  exact ⟨url, hurl, _, requested, h.parse_eq, hparse, horigin, hpath⟩

theorem below_append {base path more : List Char} (h : Below base path) (hne : base ≠ path) : Below base (path ++ more) := by
  rcases h with rfl | ⟨hslash, hstarts⟩ | hstarts
  · exact absurd rfl hne
  · exact .inr (.inl ⟨hslash, hstarts.trans (List.prefix_append _ _)⟩)
  · exact .inr (.inr (hstarts.trans (List.prefix_append _ _)))

theorem allContained_of_closed (hclient : createClient rt urls = .ok client) (hended : ∀ url ∈ urls, HostEnded url)
    (hclosed : ∀ url ∈ urls, PathClosed rt urls url) : AllContained rt Below urls client := by
  intro redirectURI hverify
  obtain ⟨-, url, hurl, hstarts⟩ := (verify_iff hclient redirectURI).mp hverify
  obtain ⟨proto, rest, authority, h⟩ := registered_of_valid ((createClient_ok hclient).1 url hurl)
  obtain ⟨after, hafter⟩ := hstarts
  obtain ⟨more', hparse, -⟩ := h.parse_append (hended url hurl) after
  rw [hafter] at hparse
  generalize (trailing url.toList ++ more').rdropWhile isWs = more at hparse
  have horigin : SameOrigin (parsedAs proto rest authority authority.rest)
      (parsedAs proto rest authority (authority.rest ++ more)) := sameOrigin_parsedAs _ _
  rcases h.pathOf_append (hended url hurl) more with ⟨-, hpath⟩ | ⟨hnone, hpath⟩
  · exact ⟨url, hurl, _, _, h.parse_eq, hparse, horigin, .inl hpath⟩
  · rcases hclosed url hurl _ h.parse_eq with hparts | hslash | ⟨other, hother, above, habove, hsame, hbelow, hne⟩
    · obtain ⟨c, hc, hend⟩ := search_or_hash_iff.mp hparts
      rw [hnone c hc] at hend
      cases hend
    · refine ⟨url, hurl, _, _, h.parse_eq, hparse, horigin, .inr (.inl ⟨hslash, ?_⟩)⟩
      rw [hpath]
      exact List.prefix_append _ _
    · refine ⟨other, hother, above, _, habove, hparse, hsame.trans horigin, ?_⟩
      rw [hpath]
      exact below_append hbelow hne

/-! ## A host that is not -/

theorem exists_bound (rt : Runtime) (f : UrlObject → Nat) (urls : List String) :
    ∃ n, ∀ url ∈ urls, ∀ u, parse rt false url.toList = some u → f u ≤ n := by
  induction urls with
  | nil => exact ⟨0, nofun⟩
  | cons url urls ih =>
    obtain ⟨n, hn⟩ := ih
    cases hparse : parse rt false url.toList with
    | none =>
      refine ⟨n, List.forall_mem_cons.mpr ⟨fun u hu => ?_, hn⟩⟩
      rw [hparse] at hu
      cases hu
    | some parsed =>
      refine ⟨n + f parsed, List.forall_mem_cons.mpr ⟨fun u hu => ?_, fun other hother u hu => ?_⟩⟩
      · rw [hparse] at hu
        cases hu
        omega
      · have := hn other hother u hu
        omega

def ones (n : Nat) : List Char := List.replicate (n + 1) '1'

/-- A user and a host with a port: behind another slash, if a single one is all there is. -/
def withPort (rest : List Char) (n : Nat) : List Char :=
  (if rest = ['/'] then ['/'] else []) ++ '@' :: 'a' :: ':' :: ones n

section
variable {proto rest : List Char} {authority : Authority}

/-- Without an end, what was the host is the name of a user. -/
theorem exists_user (hended : ¬(rest ++ trailing url.toList ≠ ['/'] ∧ ∃ c ∈ afterSlashes rest, isHostEnd c = true))
    (n : Nat) : ∃ user, (∀ c ∈ user, isHostEnd c = false) ∧
      afterSlashes (rest ++ (trailing url.toList ++ withPort (rest ++ trailing url.toList) n)) =
        user ++ '@' :: 'a' :: ':' :: ones n := by
  by_cases hsingle : rest ++ trailing url.toList = ['/']
  · refine ⟨[], nofun, ?_⟩
    rw [withPort, if_pos hsingle, ← List.append_assoc, hsingle]
    rfl
  · rw [withPort, if_neg hsingle, List.nil_append, ← List.append_assoc]
    refine ⟨afterSlashes (rest ++ trailing url.toList), ?_, ?_⟩
    · intro c hc
      by_contra hend
      exact hended ⟨hsingle, c, mem_afterSlashes_trailing.mp ⟨hc, Bool.eq_true_of_not_eq_false hend⟩⟩
    · by_cases hnil : rest ++ trailing url.toList = []
      · rw [hnil]
        rfl
      · exact afterSlashes_append hnil fun heq => absurd heq hsingle

theorem withPort_concat (rest : List Char) (n : Nat) : ∃ before, withPort rest n = before ++ ['1'] := by
  refine ⟨(if rest = ['/'] then ['/'] else []) ++ '@' :: 'a' :: ':' :: List.replicate n '1', ?_⟩
  rw [withPort, ones, List.replicate_succ', List.append_assoc]
  rfl

theorem backslash_notMem_withPort (rest : List Char) (n : Nat) : '\x5c' ∉ withPort rest n := by
  intro h
  rw [withPort, List.mem_append] at h
  rcases h with h | h
  · split at h
    · simp at h
    · cases h
  · simp [ones] at h

/-- The parser finds that port, if it does not throw. -/
theorem Registered.exists_port (h : Registered rt url proto rest authority) (hended : ¬HostEnded url) (n : Nat) :
    ∃ redirectURI : String, url.toList <+: redirectURI.toList ∧
      ∀ requested, parse rt false redirectURI.toList = some requested → requested.port = some (ones n) := by
  rw [h.hostEnded_iff] at hended
  obtain ⟨user, huser, hauthority⟩ := exists_user hended n
  obtain ⟨more', hprepare, hsame⟩ := prepare_append h.prepare_ne_nil (withPort (rest ++ trailing url.toList) n)
  rw [hsame (backslash_notMem_withPort _ n)] at hprepare
  have htrim : (trailing url.toList ++ withPort (rest ++ trailing url.toList) n).rdropWhile isWs =
      trailing url.toList ++ withPort (rest ++ trailing url.toList) n := by
    obtain ⟨before, hconcat⟩ := withPort_concat (rest ++ trailing url.toList) n
    rw [hconcat, ← List.append_assoc]
    exact List.rdropWhile_concat_neg _ _ _ (by decide)
  rw [htrim] at hprepare
  refine ⟨String.ofList (url.toList ++ withPort (rest ++ trailing url.toList) n), ?_, ?_⟩
  · rw [String.toList_ofList]
    exact List.prefix_append _ _
  · intro requested hparse
    rw [String.toList_ofList] at hparse
    have hscheme := scheme_append h.scheme (trailing url.toList ++ withPort (rest ++ trailing url.toList) n)
    rw [← hprepare] at hscheme
    have hhost : HasHost proto (rest ++ (trailing url.toList ++ withPort (rest ++ trailing url.toList) n)) := by
      refine ⟨h.host.hostless, ?_⟩
      have hslashes := h.host.slashes
      rw [Bool.or_eq_true] at hslashes ⊢
      rcases hslashes with hslashes | hslashes
      · refine .inl ?_
        have hne : rest ≠ [] := by
          rintro rfl
          cases hslashes
        have hsingle : rest ≠ ['/'] := by
          rintro rfl
          cases hslashes
        rwa [startsWithSlashes_append hne fun heq => absurd heq hsingle]
      · exact .inr hslashes
    rw [LegacyUrl.parse_eq hscheme, parseFull_host hscheme hhost, hauthority] at hparse
    rcases parseAuthority_port rt huser n with hnone | ⟨authority', hsome, hport⟩
    · rw [ones, hnone] at hparse
      cases hparse
    · rw [ones, hsome] at hparse
      cases hparse
      exact hport

end

theorem verify_of_starts (hclient : createClient rt urls = .ok client) (hurl : url ∈ urls) {redirectURI : String}
    (hstarts : url.toList <+: redirectURI.toList) : verifyRedirectUrl client redirectURI = .ok () := by
  refine (verify_iff hclient redirectURI).mpr ⟨?_, url, hurl, hstarts⟩
  rintro rfl
  obtain ⟨proto, rest, authority, h⟩ := registered_of_valid ((createClient_ok hclient).1 url hurl)
  apply h.prepare_ne_nil
  rw [List.prefix_nil.mp hstarts]
  rfl

/-- Whatever is called below, a URI whose host is not ended lets other ports through. -/
theorem not_allContained_of_not_ended {below : List Char → List Char → Prop} (hclient : createClient rt urls = .ok client)
    (hurl : url ∈ urls) (hended : ¬HostEnded url) : ¬AllContained rt below urls client := by
  intro hall
  obtain ⟨proto, rest, authority, h⟩ := registered_of_valid ((createClient_ok hclient).1 url hurl)
  obtain ⟨n, hbound⟩ := exists_bound rt (fun u => (u.port.getD []).length) urls
  obtain ⟨redirectURI, hstarts, hport⟩ := h.exists_port hended n
  obtain ⟨other, hother, registered, requested, hregistered, hrequested, horigin, -⟩ :=
    hall redirectURI (verify_of_starts hclient hurl hstarts)
  have hle := hbound other hother registered hregistered
  rw [← horigin.port, hport requested hrequested, Option.getD_some, ones, List.length_replicate] at hle
  omega

/-! ## A path that is not closed -/

/-- What ends with a slash ends before what has none. -/
theorem prefix_of_slash {cs base more : List Char} (hslash : cs.getLast? = some '/') (hstarts : cs <+: base ++ more)
    (hbase : base.getLast? ≠ some '/') (hmore : '/' ∉ more) : cs <+: base := by
  rcases List.prefix_or_prefix_of_prefix hstarts (List.prefix_append base more) with h | ⟨after, rfl⟩
  · exact h
  · have hafter := (List.prefix_append_right_inj base).mp hstarts
    cases hnil : after with
    | nil =>
      rw [hnil, List.append_nil] at hslash
      exact absurd hslash hbase
    | cons c cs =>
      rw [List.getLast?_append, hnil, List.getLast?_cons, Option.some_or] at hslash
      have hlast : '/' ∈ after := by
        rw [hnil]
        exact List.mem_of_getLast? (by rw [List.getLast?_cons]; exact hslash)
      exact absurd (hafter.subset hlast) hmore

theorem below_of_append {base path more : List Char} (h : Below base (path ++ more)) (hlength : base.length < more.length)
    (hpath : path.getLast? ≠ some '/') (hmore : '/' ∉ more) : Below base path ∧ base ≠ path := by
  rcases h with heq | ⟨hslash, hstarts⟩ | hstarts
  · have := congrArg List.length heq
    rw [List.length_append] at this
    omega
  · refine ⟨.inr (.inl ⟨hslash, prefix_of_slash hslash hstarts hpath hmore⟩), ?_⟩
    rintro rfl
    exact hpath hslash
  · have hstarts' := prefix_of_slash (by simp) hstarts hpath hmore
    refine ⟨.inr (.inr hstarts'), ?_⟩
    rintro rfl
    have := hstarts'.length_le
    rw [List.length_append, List.length_singleton] at this
    omega

theorem not_allContained_of_not_closed (hclient : createClient rt urls = .ok client) (hurl : url ∈ urls)
    (hended : HostEnded url) (hclosed : ¬PathClosed rt urls url) : ¬AllContained rt Below urls client := by
  intro hall
  obtain ⟨proto, rest, authority, h⟩ := registered_of_valid ((createClient_ok hclient).1 url hurl)
  obtain ⟨n, hbound⟩ := exists_bound rt (fun u => (pathOf u).length) urls
  obtain ⟨more', hparse, hsame⟩ := h.parse_append hended (List.replicate (n + 1) 'x')
  rw [hsame (by simp)] at hparse
  have htrim : (trailing url.toList ++ List.replicate (n + 1) 'x').rdropWhile isWs =
      trailing url.toList ++ List.replicate (n + 1) 'x' := by
    rw [List.replicate_succ', ← List.append_assoc]
    exact List.rdropWhile_concat_neg _ _ _ (by decide)
  rw [htrim] at hparse
  have hplain : ∀ c ∈ trailing url.toList ++ List.replicate (n + 1) 'x', c ≠ '/' ∧ endsPath c = false := by
    intro c hc
    rcases List.mem_append.mp hc with hc | hc
    · exact (not_delimiter_of_isWs (isWs_of_mem_trailing hc)).1
    · rw [List.eq_of_mem_replicate hc]
      decide
  have hescaped := mem_autoEscape hplain
  have hlong := length_autoEscape (trailing url.toList ++ List.replicate (n + 1) 'x')
  rw [List.length_append, List.length_replicate] at hlong
  apply hclosed
  intro parsed hparsed
  rw [h.parse_eq, Option.some.injEq] at hparsed
  subst hparsed
  rcases h.pathOf_append hended (trailing url.toList ++ List.replicate (n + 1) 'x') with ⟨hends, -⟩ | ⟨-, hpath⟩
  · exact .inl (search_or_hash_iff.mpr hends)
  · right
    by_cases hslash : (pathOf (parsedAs proto rest authority authority.rest)).getLast? = some '/'
    · exact .inl hslash
    · obtain ⟨other, hother, above, requested, habove, hrequested, horigin, hbelow⟩ :=
        hall (String.ofList (url.toList ++ List.replicate (n + 1) 'x'))
          (verify_of_starts hclient hurl (by rw [String.toList_ofList]; exact List.prefix_append _ _))
      rw [String.toList_ofList, hparse, Option.some.injEq] at hrequested
      subst hrequested
      rw [hpath, pathPart_self fun c hc => (hescaped c hc).2] at hbelow
      have hle := hbound other hother above habove
      obtain ⟨hbelow', hne⟩ := below_of_append hbelow (by omega) hslash fun hmem => (hescaped _ hmem).1 rfl
      exact .inr ⟨other, hother, above, habove, horigin.trans (sameOrigin_parsedAs _ _), hbelow', hne⟩

/-- Of the requests that a client's redirect URIs let through, none goes elsewhere, exactly if the
    hosts of the URIs are ended; for a path that is below as a path, the paths are closed as well. -/
theorem contained_iff (hclient : createClient rt urls = .ok client) :
    (AllContained rt (fun base path => base <+: path) urls client ↔ ∀ url ∈ urls, HostEnded url) ∧
      (AllContained rt Below urls client ↔ ∀ url ∈ urls, HostEnded url ∧ PathClosed rt urls url) := by
  have hended : ∀ {below}, AllContained rt below urls client → ∀ url ∈ urls, HostEnded url := by
    intro below hall url hurl
    by_contra hended
    exact not_allContained_of_not_ended hclient hurl hended hall
  refine ⟨⟨hended, allContained_of_ended hclient⟩, ?_, ?_⟩
  · intro hall url hurl
    refine ⟨hended hall url hurl, ?_⟩
    by_contra hclosed
    exact not_allContained_of_not_closed hclient hurl (hended hall url hurl) hclosed hall
  · intro hclosed
    exact allContained_of_closed hclient (fun url hurl => (hclosed url hurl).1) fun url hurl => (hclosed url hurl).2

theorem contained_iff_slash : ∃ client, createClient ascii ["https://example.com/callback/"] = .ok client ∧
    ((AllContained ascii (fun base path => base <+: path) ["https://example.com/callback/"] client ↔
        ∀ url ∈ ["https://example.com/callback/"], HostEnded url) ∧
      (AllContained ascii Below ["https://example.com/callback/"] client ↔
        ∀ url ∈ ["https://example.com/callback/"],
          HostEnded url ∧ PathClosed ascii ["https://example.com/callback/"] url)) := by
  cases h : createClient ascii ["https://example.com/callback/"] with
  | error failure =>
    have hok : (createClient ascii ["https://example.com/callback/"]).toOption.isSome = true := rfl
    rw [h] at hok
    cases hok
  | ok client => exact ⟨client, rfl, contained_iff h⟩

/-- A client that registers its origin accepts another host that starts with it. -/
theorem another_host : ∃ client, createClient ascii ["https://example.com"] = .ok client ∧
    verifyRedirectUrl client "https://example.com.evil.org/" = .ok () ∧
      ¬Contained ascii Below ["https://example.com"] "https://example.com.evil.org/" := by
  have hregistered : (parse ascii false "https://example.com".toList).map UrlObject.hostname =
      some (some "example.com".toList) := by
    rfl
  have hrequested : (parse ascii false "https://example.com.evil.org/".toList).map UrlObject.hostname =
      some (some "example.com.evil.org".toList) := by
    rfl
  have hne : "example.com.evil.org".toList ≠ "example.com".toList := by decide
  cases h : createClient ascii ["https://example.com"] with
  | error failure =>
    have hok : (createClient ascii ["https://example.com"]).toOption.isSome = true := rfl
    rw [h] at hok
    cases hok
  | ok client =>
    refine ⟨client, rfl, verify_of_starts h (List.mem_singleton_self _) ?_, ?_⟩
    · exact List.isPrefixOf_iff_prefix.mp rfl
    · intro hcontained
      obtain ⟨url, hurl, registered, requested, hparse, hparse', horigin, -⟩ := hcontained
      rw [List.mem_singleton.mp hurl] at hparse
      rw [hparse, Option.map_some, Option.some.injEq] at hregistered
      rw [hparse', Option.map_some, Option.some.injEq] at hrequested
      have hsame := horigin.hostname
      rw [hregistered, hrequested, Option.some.injEq] at hsame
      exact hne hsame

end GenieCloud.Auth.RedirectUrls
