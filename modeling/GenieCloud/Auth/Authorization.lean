/-
  GenieCloud.Auth.Authorization — the OAuth 2.0 consent flow (`routes/my_oauth2.ts`) in
  front of the grant and the exchanges of `Auth.OAuth2`, for any number of clients, users
  and browser sessions.

  `GET /authorize` checks the requested scopes and the redirect URI against the client's
  row. A client with `magic_power` is granted at once; for any other the transaction is
  kept in the session and a consent page shows its scopes. `POST /authorize` ends the
  transaction with a grant of the scopes in the form's body, or with none if the form says
  `cancel`. `oauth2orize` keeps the transactions and calls the grant; its clients
  authenticate with their secret (`util/oauth2.ts`).

  A state is a `Tokens.Server` and what the consent flow adds: the client rows, the open
  transactions, and two logs, of the transactions that ended in a grant and of the access
  tokens each client got. `reach_server`: the server goes through one of its own runs.

  - `contained_run`: as long as the forms name only scopes their transactions requested,
    an access token carries scopes the client may have, requested in one transaction that
    its user approved, or that was granted at once.
  - `revoked_run`: once the user has revoked a client that has no live code, and until a
    grant of that client for that user, no permission row reappears and no exchange of the
    client answers an access token.
-/

import GenieCloud.Auth.Tokens

namespace GenieCloud.Auth.Authorization

open GenieCloud.Auth.Jwt GenieCloud.Auth.OAuth2 GenieCloud.Auth.Tokens GenieCloud.Lib.Result GenieCloud.Lib.Runs

/-! ## The routes -/

/-- A row of `oauth2_clients`; `allowed_redirect_uris` is the JSON text's array. -/
structure Row where
  id : String
  secret : String
  magic_power : Bool
  allowed_scopes : String
  allowed_redirect_uris : List String
  deriving DecidableEq, Repr

structure AuthorizationError where
  message : String
  code : String
  deriving DecidableEq, Repr

def getClients (clients : List Row) (id : String) : List Row := clients.filter (·.id == id)

def verifyScope (client : Row) (requestedScopes : Option (List String)) : Except AuthorizationError (List String) :=
  match requestedScopes with
  | none => .error ⟨"missing scope query parameter", "invalid_scope"⟩
  | some scopes =>
    if scopes.all (split client.allowed_scopes).contains then .ok scopes
    else .error ⟨"invalid scope", "invalid_scope"⟩

def verifyRedirectUrl (client : Row) (redirectURI : Option String) : Except AuthorizationError String :=
  match redirectURI with
  | none => .error ⟨"invalid redirect_uri", "unauthorized_client"⟩
  | some uri =>
    if uri ≠ "" ∧ client.allowed_redirect_uris.any (·.toList.isPrefixOf uri.toList) then .ok uri
    else .error ⟨"invalid redirect_uri", "unauthorized_client"⟩

/-- The first callback of `GET /authorize`. -/
def validate (clients : List Row) (clientID : String) (redirectURI : Option String) (scope : Option (List String)) :
    Except AuthorizationError (Row × String × List String) := do
  match getClients clients clientID with
  | [] => .error ⟨"invalid client", "unauthorized_client"⟩
  | client :: _ =>
    let scopes ← verifyScope client scope
    let uri ← verifyRedirectUrl client redirectURI
    return (client, uri, scopes)

/-- The client that authenticates to the token endpoint. -/
def authOAuth2Client (clients : List Row) (clientId clientSecret : String) : Option Row :=
  (getClients clients clientId).head?.filter (·.secret == clientSecret)

/-- A transaction, as `oauth2orize` keeps it in the session it was opened in. -/
structure Transaction where
  id : String
  session : String
  client : String
  redirectURI : String
  scope : List String
  deriving DecidableEq, Repr

/-- A transaction that ended in a grant: to whom, for whom, what it requested, and whether
    the user approved it on the consent page. -/
structure Approval where
  client : String
  user : String
  requested : List String
  consent : Bool
  deriving DecidableEq, Repr

variable {Token : Type} (J : Library Token)

structure State (Token : Type) where
  server : Server Token
  clients : List Row
  transactions : List Transaction
  approvals : List Approval
  /-- The access tokens that the exchanges answered, each with its client. -/
  accesses : List (String × Claims)
  deriving DecidableEq, Repr

def init : State Token := ⟨Tokens.init, [], [], [], []⟩

inductive Request (Token : Type)
  | createClient (client : Row)
  | getAuthorize (session user id clientID : String) (redirectURI : Option String) (scope : Option (List String))
  | postAuthorize (session user id : String) (cancel : Bool) (scope : Option String)
  | exchangeCode (clientId clientSecret : String) (code : Token) (redirectURI : Option String)
  | exchangeRefresh (clientId clientSecret : String) (refreshToken : Token)
  | other (r : Tokens.Request Token)

/-- The server's requests that need no client. -/
def direct : Tokens.Request Token → Bool
  | .authorize _ _ _ _ | .exchangeCode _ _ _ | .exchangeRefresh _ _ => false
  | _ => true

/-- The server's `authorize` signs the code. -/
def grant (s : State Token) (approval : Approval) (redirectURI : String) (scope : List String) :
    Option (State Token) := do
  let server ← Tokens.step J s.server (.authorize approval.user approval.client redirectURI scope)
  return { s with server := server, approvals := s.approvals ++ [approval] }

def openTransaction (s : State Token) (t : Transaction) : State Token :=
  { s with transactions := s.transactions.filter (fun u => !(u.session == t.session && u.id == t.id)) ++ [t] }

def transaction? (s : State Token) (session id : String) : Option Transaction :=
  s.transactions.find? fun t => t.session == session && t.id == id

def closeTransaction (s : State Token) (session id : String) : State Token :=
  { s with transactions := s.transactions.filter fun u => !(u.session == session && u.id == id) }

/-- `GET /authorize`, by a user logged in; `id` is the identifier drawn for the transaction. -/
def getAuthorize (s : State Token) (session user id clientID : String) (redirectURI : Option String)
    (scope : Option (List String)) : Option (State Token) := do
  guard (s.server.loggedIn user)
  let (client, uri, scopes) ← (validate s.clients clientID redirectURI scope).toOption
  if client.magic_power then grant J s ⟨client.id, user, scopes, false⟩ uri scopes
  else return openTransaction s ⟨id, session, client.id, uri, scopes⟩

/-- `POST /authorize`: `scope` is the field of the form, `none` if it is not a string (the
    handler throws and the transaction stays). -/
def postAuthorize (s : State Token) (session user id : String) (cancel : Bool) (scope : Option String) :
    Option (State Token) := do
  guard (s.server.loggedIn user)
  let t ← transaction? s session id
  let scope ← scope
  let s := closeTransaction s session id
  if cancel then return s
  else grant J s ⟨t.client, user, t.scope, true⟩ t.redirectURI (split scope)

/-- The access token is the one the server issues last but for the refresh token. -/
def exchangeCode (s : State Token) (clientId clientSecret : String) (code : Token) (redirectURI : Option String) :
    Option (State Token) := do
  let client ← authOAuth2Client s.clients clientId clientSecret
  let decoded ← decodeCode J s.server.now client.id code redirectURI
  let server ← Tokens.step J s.server (.exchangeCode client.id code redirectURI)
  let accessToken := signAccessToken J s.server.now decoded
  return { s with server := server, accesses := s.accesses ++ [(client.id, accessToken.claims)] }

def exchangeRefresh (s : State Token) (clientId clientSecret : String) (refreshToken : Token) :
    Option (State Token) := do
  let client ← authOAuth2Client s.clients clientId clientSecret
  let decoded ← decodeRefresh J s.server.now s.server.db client.id refreshToken
  let server ← Tokens.step J s.server (.exchangeRefresh client.id refreshToken)
  let accessToken := signAccessToken J s.server.now decoded
  return { s with server := server, accesses := s.accesses ++ [(client.id, accessToken.claims)] }

/-- A request that is not taken is `none`; a handler that fails leaves the state. A client's
    identifier is drawn at random, so it is fresh and not empty. -/
def step (s : State Token) : Request Token → Option (State Token)
  | .createClient client =>
    if client.id = "" ∨ s.clients.any (·.id == client.id) then none
    else some { s with clients := s.clients ++ [client] }
  | .getAuthorize session user id clientID redirectURI scope =>
    getAuthorize J s session user id clientID redirectURI scope
  | .postAuthorize session user id cancel scope => postAuthorize J s session user id cancel scope
  | .exchangeCode clientId clientSecret code redirectURI => exchangeCode J s clientId clientSecret code redirectURI
  | .exchangeRefresh clientId clientSecret refreshToken => exchangeRefresh J s clientId clientSecret refreshToken
  | .other r => if direct r then (Tokens.step J s.server r).map fun v => { s with server := v } else none

def system : System (State Token) (Request Token) where
  init s := s = init
  step := step J

/-! ## What is asked of a run -/

/-- Tokens are unforgeable: an exchange is given a token that the server has signed. -/
def Unforged (s : State Token) : Request Token → Prop
  | .exchangeCode _ _ code _ => ∃ i ∈ s.server.issued, i.token = code
  | .exchangeRefresh _ _ refreshToken => ∃ i ∈ s.server.issued, i.token = refreshToken
  | _ => True

/-- The scopes are all allowed to the client, and all requested in one transaction of the
    client that ended in a grant for the user, with the user's consent; `atOnce` says
    whether a grant at once to a client with `magic_power` counts. -/
def Justified (atOnce : Bool) (s : State Token) (client user : String) (scopes : List String) : Prop :=
  ∃ row ∈ s.clients, row.id = client ∧ (∀ x ∈ scopes, x ∈ split row.allowed_scopes) ∧
    ∃ a ∈ s.approvals, a.client = client ∧ a.user = user ∧
      (a.consent = true ∨ atOnce = true ∧ row.magic_power = true) ∧ ∀ x ∈ scopes, x ∈ a.requested

/-- Every access token that an exchange of a client answered is of a user, and its scopes
    are justified. -/
def Contained (atOnce : Bool) (s : State Token) : Prop :=
  ∀ client claims, (client, claims) ∈ s.accesses →
    ∃ user scopes, claims.sub = some user ∧ claims.scope = some scopes ∧ Justified atOnce s client user scopes

/-- A decision names only scopes that its transaction requested. -/
def Asked (s : State Token) : Request Token → Prop
  | .postAuthorize session _ id false (some scope) =>
    ∀ t, transaction? s session id = some t → ∀ x ∈ split scope, x ∈ t.scope
  | _ => True

/-! ## What a request does -/

variable {J} {s t : State Token}

/-- What the direct requests of the server keep. -/
structure Quiet (v v' : Server Token) : Prop where
  issued : ∃ tokens, v'.issued = v.issued ++ tokens ∧ ∀ i ∈ tokens, i.claims.user_id = none
  permissions : ∀ row ∈ v'.db.permissions, row ∈ v.db.permissions
  now : v.now ≤ v'.now

theorem quiet_one {v v' : Server Token} {i : Issued Token} (hi : i.claims.user_id = none)
    (ht : v'.issued = v.issued ++ [i]) (hp : v'.db.permissions = v.db.permissions) (hn : v'.now = v.now) :
    Quiet v v' := by
  refine ⟨⟨[i], ht, fun j hj => ?_⟩, fun row h => hp ▸ h, Nat.le_of_eq hn.symm⟩
  rw [List.mem_singleton.1 hj]
  exact hi

theorem quiet_none {v v' : Server Token} (ht : v'.issued = v.issued)
    (hp : ∀ row ∈ v'.db.permissions, row ∈ v.db.permissions) (hn : v.now ≤ v'.now) : Quiet v v' :=
  ⟨⟨[], by rw [ht, List.append_nil], fun _ h => absurd h List.not_mem_nil⟩, hp, hn⟩

theorem quiet_direct {v v' : Server Token} {r : Tokens.Request Token} (hd : direct r = true)
    (h : Tokens.step J v r = some v') : Quiet v v' := by
  cases r with
  | authorize user client redirectURI scope => cases hd
  | exchangeCode client code redirectURI => cases hd
  | exchangeRefresh client refreshToken => cases hd
  | wait seconds => cases h; exact quiet_none rfl (fun _ h => h) (Nat.le_add_right _ _)
  | deleteUser user => cases h; exact quiet_none rfl (fun _ h => (List.mem_filter.1 h).1) (Nat.le_refl _)
  | signToken uid => cases h; exact quiet_one rfl rfl rfl rfl
  | register row =>
    simp only [Tokens.step] at h
    split at h
    · cases h
    · cases h; exact quiet_one rfl rfl rfl rfl
  | updateProfile user email =>
    obtain ⟨row, -, h⟩ := Option.bind_eq_some_iff.1 h
    dsimp only at h
    split at h
    · cases h; exact quiet_one rfl rfl rfl rfl
    · cases h; exact quiet_none rfl (fun _ h => h) (Nat.le_refl _)
  | resendVerification user =>
    obtain ⟨row, -, h⟩ := Option.bind_eq_some_iff.1 h
    split at h
    · cases h
    · cases h; exact quiet_one rfl rfl rfl rfl
  | verifyEmail user token =>
    obtain ⟨_, -, h⟩ := Option.bind_eq_some_iff.1 h
    obtain ⟨decoded, -, h⟩ := Option.bind_eq_some_iff.1 h
    cases h; exact quiet_none rfl (fun _ h => h) (Nat.le_refl _)
  | startRecovery username =>
    obtain ⟨row, -, h⟩ := Option.bind_eq_some_iff.1 h
    split at h
    · cases h; exact quiet_one rfl rfl rfl rfl
    · cases h
  | revoke user client =>
    simp only [Tokens.step] at h
    split at h
    · cases h; exact quiet_none rfl (fun _ h => (List.mem_filter.1 h).1) (Nat.le_refl _)
    · cases h
  | postToken user =>
    simp only [Tokens.step] at h
    split at h
    · cases h; exact quiet_one rfl rfl rfl rfl
    · cases h
  | runEngine id =>
    simp only [Tokens.step] at h
    split at h
    · cases h; exact quiet_one rfl rfl rfl rfl
    · cases h

/-- The server after a grant. -/
def granted (J : Library Token) (s : State Token) (a : Approval) (uri : String) (scope : List String) : State Token :=
  { s with server := s.server.issue [grantCode J s.server.now a.client uri a.user scope], approvals := s.approvals ++ [a] }

theorem grant_eq_some {a : Approval} {uri : String} {scope : List String} (h : grant J s a uri scope = some t) :
    s.server.loggedIn a.user = true ∧ t = granted J s a uri scope := by
  simp only [grant, Tokens.step] at h
  split at h
  · next hl => cases h; exact ⟨hl, rfl⟩
  · cases h

theorem of_guard {p : Prop} [Decidable p] {u : Unit} (h : (guard p : Option Unit) = some u) : p := by
  by_cases hp : p
  · exact hp
  · simp only [guard, if_neg hp] at h
    cases h

theorem mem_getClients {clients : List Row} {id : String} {row : Row} :
    row ∈ getClients clients id ↔ row ∈ clients ∧ row.id = id := by
  simp only [getClients, List.mem_filter, beq_iff_eq]

theorem authOAuth2Client_eq_some {clients : List Row} {clientId clientSecret : String} {row : Row}
    (h : authOAuth2Client clients clientId clientSecret = some row) : row ∈ clients ∧ row.id = clientId := by
  simp only [authOAuth2Client, Option.filter_eq_some_iff] at h
  exact mem_getClients.1 (List.mem_of_mem_head? h.1)

/-- A request that is validated names a client and scopes allowed to it. -/
theorem validate_ok {clients : List Row} {clientID uri : String} {redirectURI : Option String}
    {scope : Option (List String)} {row : Row} {scopes : List String}
    (h : validate clients clientID redirectURI scope = .ok (row, uri, scopes)) :
    row ∈ clients ∧ row.id = clientID ∧ scope = some scopes ∧ ∀ x ∈ scopes, x ∈ split row.allowed_scopes := by
  simp only [validate] at h
  split at h
  · cases h
  · next client rest hrows =>
    obtain ⟨scopes', hscopes, h⟩ := bind_ok h
    obtain ⟨uri', -, h⟩ := bind_ok h
    cases h
    obtain ⟨hmem, hid⟩ := mem_getClients.1 (hrows ▸ List.mem_cons_self .. : row ∈ getClients clients clientID)
    refine ⟨hmem, hid, ?_⟩
    simp only [verifyScope] at hscopes
    split at hscopes
    · cases hscopes
    · split at hscopes
      · next hall =>
        cases hscopes
        exact ⟨rfl, by simpa only [List.all_eq_true, List.contains_iff_mem] using hall⟩
      · cases hscopes

theorem getAuthorize_cases {session user id clientID : String} {redirectURI : Option String}
    {scope : Option (List String)} (h : getAuthorize J s session user id clientID redirectURI scope = some t) :
    s.server.loggedIn user = true ∧ ∃ row uri scopes, row ∈ s.clients ∧ row.id = clientID ∧
      (∀ x ∈ scopes, x ∈ split row.allowed_scopes) ∧
      (row.magic_power = true ∧ t = granted J s ⟨row.id, user, scopes, false⟩ uri scopes ∨
        row.magic_power = false ∧ t = openTransaction s ⟨id, session, row.id, uri, scopes⟩) := by
  obtain ⟨_, hl, h⟩ := Option.bind_eq_some_iff.1 h
  obtain ⟨⟨row, uri, scopes⟩, hv, h⟩ := Option.bind_eq_some_iff.1 h
  obtain ⟨hmem, hid, -, hall⟩ := validate_ok (toOption_eq_some.1 hv)
  refine ⟨of_guard hl, row, uri, scopes, hmem, hid, hall, ?_⟩
  dsimp only at h
  split at h
  · next hm => exact .inl ⟨hm, (grant_eq_some h).2⟩
  · next hm => cases h; exact .inr ⟨Bool.eq_false_iff.2 hm, rfl⟩

theorem postAuthorize_cases {session user id : String} {cancel : Bool} {scope : Option String}
    (h : postAuthorize J s session user id cancel scope = some t) :
    s.server.loggedIn user = true ∧ ∃ tr text, transaction? s session id = some tr ∧ scope = some text ∧
      (cancel = true ∧ t = closeTransaction s session id ∨
        cancel = false ∧
          t = granted J (closeTransaction s session id) ⟨tr.client, user, tr.scope, true⟩ tr.redirectURI (split text)) := by
  obtain ⟨_, hl, h⟩ := Option.bind_eq_some_iff.1 h
  obtain ⟨tr, htr, h⟩ := Option.bind_eq_some_iff.1 h
  obtain ⟨text, htext, h⟩ := Option.bind_eq_some_iff.1 h
  refine ⟨of_guard hl, tr, text, htr, htext, ?_⟩
  dsimp only at h
  split at h
  · next hc => cases h; exact .inl ⟨hc, rfl⟩
  · next hc => exact .inr ⟨Bool.eq_false_iff.2 hc, (grant_eq_some h).2⟩

/-- The state after an exchange that answered an access token over these claims. -/
def exchanged (J : Library Token) (s : State Token) (client : String) (db : Db) (tokens : List (Issued Token))
    (decoded : Claims) : State Token :=
  { s with
    server := { s.server with db := db, issued := s.server.issued ++ tokens }
    accesses := s.accesses ++ [(client, (signAccessToken J s.server.now decoded).claims)] }

theorem exchangeCode_cases {clientId clientSecret : String} {code : Token} {redirectURI : Option String}
    (h : exchangeCode J s clientId clientSecret code redirectURI = some t) :
    Tokens.step J s.server (.exchangeCode clientId code redirectURI) = some t.server ∧
    ∃ row decoded db access refresh, row ∈ s.clients ∧ row.id = clientId ∧
      decodeCode J s.server.now clientId code redirectURI = some decoded ∧
      OAuth2.exchangeCode J s.server.now s.server.db clientId decoded = .ok (db, access, refresh) ∧
      t = exchanged J s clientId db [signAccessToken J s.server.now decoded,
        signRefreshToken J s.server.now clientId decoded] decoded := by
  obtain ⟨row, hrow, h⟩ := Option.bind_eq_some_iff.1 h
  obtain ⟨decoded, hd, h⟩ := Option.bind_eq_some_iff.1 h
  obtain ⟨v, hv, h⟩ := Option.bind_eq_some_iff.1 h
  have hstep := hv
  obtain ⟨d, hd', hv⟩ := Option.bind_eq_some_iff.1 hv
  obtain ⟨⟨db, access, refresh⟩, hx, hv⟩ := Option.bind_eq_some_iff.1 hv
  cases h
  cases hv
  obtain ⟨hmem, rfl⟩ := authOAuth2Client_eq_some hrow
  obtain rfl : decoded = d := Option.some.inj (hd.symm.trans hd')
  obtain ⟨rfl, rfl⟩ := exchangeCode_tokens (toOption_eq_some.1 hx)
  exact ⟨hstep, row, decoded, db, _, _, hmem, rfl, hd, toOption_eq_some.1 hx, rfl⟩

theorem exchangeRefresh_cases {clientId clientSecret : String} {refreshToken : Token}
    (h : exchangeRefresh J s clientId clientSecret refreshToken = some t) :
    Tokens.step J s.server (.exchangeRefresh clientId refreshToken) = some t.server ∧
    ∃ row decoded, row ∈ s.clients ∧ row.id = clientId ∧
      decodeRefresh J s.server.now s.server.db clientId refreshToken = some decoded ∧
      t = exchanged J s clientId s.server.db [signAccessToken J s.server.now decoded] decoded := by
  obtain ⟨row, hrow, h⟩ := Option.bind_eq_some_iff.1 h
  obtain ⟨decoded, hd, h⟩ := Option.bind_eq_some_iff.1 h
  obtain ⟨v, hv, h⟩ := Option.bind_eq_some_iff.1 h
  have hstep := hv
  obtain ⟨d, hd', hv⟩ := Option.bind_eq_some_iff.1 hv
  cases h
  cases hv
  obtain ⟨hmem, rfl⟩ := authOAuth2Client_eq_some hrow
  obtain rfl : decoded = d := Option.some.inj (hd.symm.trans hd')
  exact ⟨hstep, row, decoded, hmem, rfl, hd, rfl⟩

theorem other_cases {r : Tokens.Request Token} (h : step J s (.other r) = some t) :
    ∃ v, Tokens.step J s.server r = some v ∧ Quiet s.server v ∧ t = { s with server := v } := by
  simp only [step] at h
  split at h
  · next hd =>
    obtain ⟨v, hv, rfl⟩ := Option.map_eq_some_iff.1 h
    exact ⟨v, hv, quiet_direct hd hv, rfl⟩
  · cases h

theorem granted_server {a : Approval} (h : s.server.loggedIn a.user = true) (uri : String) (scope : List String) :
    Tokens.step J s.server (.authorize a.user a.client uri scope) = some (granted J s a uri scope).server := by
  simp only [Tokens.step, h, if_true]
  rfl

theorem path_one {v v' : Server Token} {r : Tokens.Request Token} (h : Tokens.step J v r = some v') :
    Path (Tokens.server J) any v v' :=
  .step r .refl trivial h

/-- The server goes through one of its own runs. -/
theorem step_server {r : Request Token} (h : step J s r = some t) :
    Path (Tokens.server J) any s.server t.server := by
  cases r with
  | createClient client =>
    simp only [step] at h
    split at h
    · cases h
    · cases h; exact .refl
  | getAuthorize session user id clientID redirectURI scope =>
    obtain ⟨hl, row, uri, scopes, -, -, -, h⟩ := getAuthorize_cases h
    rcases h with ⟨-, rfl⟩ | ⟨-, rfl⟩
    · exact path_one (granted_server (a := ⟨row.id, user, scopes, false⟩) hl uri scopes)
    · exact .refl
  | postAuthorize session user id cancel scope =>
    obtain ⟨hl, tr, text, -, -, h⟩ := postAuthorize_cases h
    rcases h with ⟨-, rfl⟩ | ⟨-, rfl⟩
    · exact .refl
    · exact path_one
        (granted_server (s := closeTransaction s session id) (a := ⟨tr.client, user, tr.scope, true⟩) hl _ _)
  | exchangeCode clientId clientSecret code redirectURI => exact path_one (exchangeCode_cases h).1
  | exchangeRefresh clientId clientSecret refreshToken => exact path_one (exchangeRefresh_cases h).1
  | other r =>
    obtain ⟨v, hv, -, rfl⟩ := other_cases h
    exact path_one hv

theorem reach_server {ok : State Token → Request Token → Prop} (h : Reach (system J) ok s) :
    Reach (Tokens.server J) any s.server := by
  refine Reach.inv (P := fun s => Reach (Tokens.server J) any s.server) (fun s hs => ?_)
    (fun s r t ih _ hs => ih.path (step_server hs)) h
  cases hs
  exact .init rfl

theorem step_clients {r : Request Token} (h : step J s r = some t) (hne : ∀ row ∈ s.clients, row.id ≠ "") :
    ∀ row ∈ t.clients, row.id ≠ "" := by
  cases r with
  | createClient client =>
    simp only [step] at h
    split at h
    · cases h
    · next hid =>
      cases h
      intro row hrow
      rcases List.mem_append.1 hrow with hrow | hrow
      · exact hne row hrow
      · rw [List.mem_singleton.1 hrow]
        exact fun e => hid (.inl e)
  | getAuthorize session user id clientID redirectURI scope =>
    obtain ⟨-, row, uri, scopes, -, -, -, h⟩ := getAuthorize_cases h
    rcases h with ⟨-, rfl⟩ | ⟨-, rfl⟩
    · exact hne
    · exact hne
  | postAuthorize session user id cancel scope =>
    obtain ⟨-, tr, text, -, -, h⟩ := postAuthorize_cases h
    rcases h with ⟨-, rfl⟩ | ⟨-, rfl⟩
    · exact hne
    · exact hne
  | exchangeCode clientId clientSecret code redirectURI =>
    obtain ⟨-, row, c, db, access, refresh, -, -, -, -, rfl⟩ := exchangeCode_cases h
    exact hne
  | exchangeRefresh clientId clientSecret refreshToken =>
    obtain ⟨-, row, c, -, -, -, rfl⟩ := exchangeRefresh_cases h
    exact hne
  | other r =>
    obtain ⟨v, -, -, rfl⟩ := other_cases h
    exact hne

/-- Clients have an identifier, and what the server issues has the shape of its kind. -/
structure Good (J : Library Token) (s : State Token) : Prop where
  clients : ∀ row ∈ s.clients, row.id ≠ ""
  issued : ∀ i ∈ s.server.issued, WF J i

theorem good_reach (hJ : J.Documented) {ok : State Token → Request Token → Prop} (h : Reach (system J) ok s) :
    Good J s where
  clients := by
    refine Reach.inv (P := fun s => ∀ row ∈ s.clients, row.id ≠ "") (fun s hs => ?_)
      (fun s r t ih _ hs => step_clients hs ih) h
    cases hs
    exact fun _ h => absurd h List.not_mem_nil
  issued := issued_wf hJ (reach_server h)

/-- A code exchange names a user, and writes that user's permission row for the client. -/
theorem exchangeCode_permissions {now : Nat} {db db' : Db} {client : String} {c : Claims}
    {access refresh : Issued Token} (h : OAuth2.exchangeCode J now db client c = .ok (db', access, refresh)) :
    ∃ uid scope, c.user_id = some uid ∧
      db'.permissions = db.permissions.filter (fun row => !row.isOf client uid) ++ [⟨uid, client, scope⟩] := by
  simp only [OAuth2.exchangeCode] at h
  obtain ⟨granted, -, h⟩ := bind_ok h
  obtain ⟨scopes, -, h⟩ := bind_ok h
  obtain ⟨db'', hcreate, h⟩ := bind_ok h
  cases h
  cases hu : c.user_id with
  | none => rw [hu] at hcreate; cases hcreate
  | some uid =>
    rw [hu] at hcreate
    simp only [createPermission] at hcreate
    split at hcreate
    · cases hcreate; exact ⟨uid, _, rfl, rfl⟩
    · cases hcreate

/-- What an exchange takes is the client's, and alive. -/
theorem sub_of_passes {c : Claims} {client : String} (hne : client ≠ "") {now : Nat}
    (h : c.passes (ofClient client) now = true) : c.sub = some client ∧ ∀ e, c.exp = some e → now < e + 30 :=
  have h := passes_ofClient.1 h
  ⟨h.2.resolve_left hne, h.1⟩

/-! ## Containment -/

/-- The claims name a client and a user, and scopes that are justified for the two. -/
def Bound (s : State Token) (c : Claims) : Prop :=
  ∃ client user scopes, c.sub = some client ∧ c.user_id = some user ∧ c.scope = some scopes ∧
    Justified true s client user scopes

structure Inv (s : State Token) : Prop where
  opened : ∀ tr ∈ s.transactions, ∃ row ∈ s.clients, row.id = tr.client ∧ ∀ x ∈ tr.scope, x ∈ split row.allowed_scopes
  issued : ∀ i ∈ s.server.issued, i.claims.user_id ≠ none → Bound s i.claims
  accesses : Contained true s

/-- The client rows and the log of grants only grow. -/
structure Grows (s t : State Token) : Prop where
  clients : ∀ row ∈ s.clients, row ∈ t.clients
  approvals : ∀ a ∈ s.approvals, a ∈ t.approvals

theorem Justified.grows {atOnce : Bool} {client user : String} {scopes : List String}
    (h : Justified atOnce s client user scopes) (hg : Grows s t) : Justified atOnce t client user scopes := by
  obtain ⟨row, hrow, hid, hall, a, ha, h⟩ := h
  exact ⟨row, hg.clients row hrow, hid, hall, a, hg.approvals a ha, h⟩

theorem Bound.grows {c : Claims} (h : Bound s c) (hg : Grows s t) : Bound t c := by
  obtain ⟨client, user, scopes, hs, hu, hsc, hj⟩ := h
  exact ⟨client, user, scopes, hs, hu, hsc, hj.grows hg⟩

/-- A step that answers no access token keeps the invariant if the open transactions are
    allowed and what it issues is bound. -/
theorem Inv.quiet (h : Inv s) (hg : Grows s t)
    (ho : ∀ tr ∈ t.transactions, ∃ row ∈ t.clients, row.id = tr.client ∧ ∀ x ∈ tr.scope, x ∈ split row.allowed_scopes)
    (hi : ∀ i ∈ t.server.issued, i.claims.user_id ≠ none → i ∈ s.server.issued ∨ Bound t i.claims)
    (ha : t.accesses = s.accesses) : Inv t where
  opened := ho
  issued i hmem hu := (hi i hmem hu).elim (fun hs => (h.issued i hs hu).grows hg) id
  accesses client claims hmem := by
    rw [ha] at hmem
    obtain ⟨user, scopes, hs, hsc, hj⟩ := h.accesses client claims hmem
    exact ⟨user, scopes, hs, hsc, hj.grows hg⟩

theorem Grows.same (hc : t.clients = s.clients) (ha : t.approvals = s.approvals) : Grows s t :=
  ⟨fun _ h => hc ▸ h, fun _ h => ha ▸ h⟩

/-- A grant of scopes that the transaction requested and the client may have. -/
theorem inv_granted (h : Inv s) {a : Approval} {uri : String} {scope : List String} {row : Row}
    (hrow : row ∈ s.clients) (hid : row.id = a.client) (hall : ∀ x ∈ scope, x ∈ split row.allowed_scopes)
    (hreq : ∀ x ∈ scope, x ∈ a.requested) (hcon : a.consent = true ∨ row.magic_power = true) :
    Inv (granted J s a uri scope) := by
  refine h.quiet ⟨fun _ h => h, fun _ h => List.mem_append_left _ h⟩ h.opened ?_ rfl
  intro i hi _
  rcases List.mem_append.1 hi with hi | hi
  · exact .inl hi
  right
  rw [List.mem_singleton.1 hi]
  refine ⟨a.client, a.user, scope, rfl, rfl, rfl, row, hrow, hid, hall, a, ?_, rfl, rfl, ?_, hreq⟩
  · exact List.mem_append_right _ (List.mem_singleton.2 rfl)
  · exact hcon.imp_right fun hm => ⟨rfl, hm⟩

/-- An exchange of a token bound to the client. -/
theorem inv_exchanged (h : Inv s) {client : String} {db : Db} {tokens : List (Issued Token)} {c : Claims}
    (hb : Bound s c) (hs : c.sub = some client) (htokens : ∀ i ∈ tokens, i.claims.user_id ≠ none →
      i.claims.sub = c.sub ∧ i.claims.user_id = c.user_id ∧ i.claims.scope = c.scope) :
    Inv (exchanged J s client db tokens c) where
  opened := h.opened
  issued i hi hu := by
    rcases List.mem_append.1 hi with hi | hi
    · exact h.issued i hi hu
    · obtain ⟨h1, h2, h3⟩ := htokens i hi hu
      obtain ⟨client, user, scopes, hsub, huser, hscope, hj⟩ := hb
      exact ⟨client, user, scopes, h1.trans hsub, h2.trans huser, h3.trans hscope, hj⟩
  accesses client' claims hmem := by
    rcases List.mem_append.1 hmem with hmem | hmem
    · exact h.accesses client' claims hmem
    · cases List.mem_singleton.1 hmem
      obtain ⟨client', user, scopes, hsub, huser, hscope, hj⟩ := hb
      cases hs.symm.trans hsub
      exact ⟨user, scopes, huser, hscope, hj⟩

theorem mem_of_transaction? {session id : String} {tr : Transaction} (h : transaction? s session id = some tr) :
    tr ∈ s.transactions := List.mem_of_find?_eq_some h

section
variable (hgood : Good J s)
include hgood

/-- The claims an exchange decodes are those of an issued token. -/
theorem decodeCode_issued {now : Nat} {client : String} {code : Token} {redirectURI : Option String} {c : Claims}
    (hu : ∃ i ∈ s.server.issued, i.token = code) (h : decodeCode J now client code redirectURI = some c) :
    ∃ i ∈ s.server.issued, i.claims = c ∧ i.kind = .authorizationCode ∧ c.passes (ofClient client) now = true := by
  obtain ⟨i, hi, rfl⟩ := hu
  obtain ⟨rfl, hp, hg, -⟩ := (decodeCode_eq_some (hgood.issued i hi).carries).1 h
  exact ⟨i, hi, rfl, kind_of_grantType (hgood.issued i hi) hg, hp⟩

theorem decodeRefresh_issued {now : Nat} {db : Db} {client : String} {refreshToken : Token} {c : Claims}
    (hu : ∃ i ∈ s.server.issued, i.token = refreshToken) (h : decodeRefresh J now db client refreshToken = some c) :
    ∃ i ∈ s.server.issued, i.claims = c ∧ c.passes (ofClient client) now = true ∧ Permitted db client c := by
  obtain ⟨i, hi, rfl⟩ := hu
  obtain ⟨rfl, hp, hperm⟩ := (decodeRefresh_eq_some (hgood.issued i hi).carries).1 h
  exact ⟨i, hi, rfl, hp, hperm⟩

theorem inv_step {r : Request Token} (h : Inv s) (hu : Unforged s r) (hask : Asked s r) (hs : step J s r = some t) :
    Inv t := by
  cases r with
  | createClient client =>
    simp only [step] at hs
    split at hs
    · cases hs
    · cases hs
      refine h.quiet ⟨fun _ h => List.mem_append_left _ h, fun _ h => h⟩ ?_ (fun _ h _ => .inl h) rfl
      intro tr htr
      obtain ⟨row, hrow, hop⟩ := h.opened tr htr
      exact ⟨row, List.mem_append_left _ hrow, hop⟩
  | getAuthorize session user id clientID redirectURI scope =>
    obtain ⟨-, row, uri, scopes, hrow, -, hall, hs⟩ := getAuthorize_cases hs
    rcases hs with ⟨hm, rfl⟩ | ⟨-, rfl⟩
    · exact inv_granted h hrow rfl hall (fun _ h => h) (.inr hm)
    · refine h.quiet (.same rfl rfl) ?_ (fun _ h _ => .inl h) rfl
      intro tr htr
      rcases List.mem_append.1 htr with htr | htr
      · exact h.opened tr (List.mem_filter.1 htr).1
      · rw [List.mem_singleton.1 htr]
        exact ⟨row, hrow, rfl, hall⟩
  | postAuthorize session user id cancel scope =>
    obtain ⟨-, tr, text, htr, rfl, ht⟩ := postAuthorize_cases hs
    have hclosed : Inv (closeTransaction s session id) :=
      h.quiet (.same rfl rfl) (fun tr htr => h.opened tr (List.mem_filter.1 htr).1) (fun _ h _ => .inl h) rfl
    rcases ht with ⟨-, rfl⟩ | ⟨rfl, rfl⟩
    · exact hclosed
    · obtain ⟨row, hrow, hid, hall⟩ := h.opened tr (mem_of_transaction? htr)
      have hreq : ∀ x ∈ split text, x ∈ tr.scope := hask tr htr
      exact inv_granted hclosed hrow hid (fun x hx => hall x (hreq x hx)) hreq (.inl rfl)
  | exchangeCode clientId clientSecret code redirectURI =>
    obtain ⟨-, row, c, db, access, refresh, hrow, rfl, hd, hx, rfl⟩ := exchangeCode_cases hs
    obtain ⟨i, hi, rfl, -, hp⟩ := decodeCode_issued hgood hu hd
    obtain ⟨uid, -, huid, -⟩ := exchangeCode_permissions hx
    have hsub := (sub_of_passes (hgood.clients row hrow) hp).1
    refine inv_exchanged h (h.issued i hi (by rw [huid]; exact Option.some_ne_none _)) hsub ?_
    intro j hj hne
    rcases List.mem_cons.1 hj with rfl | hj
    · exact absurd rfl hne
    · rw [List.mem_singleton.1 hj]
      exact ⟨hsub.symm, rfl, rfl⟩
  | exchangeRefresh clientId clientSecret refreshToken =>
    obtain ⟨-, row, c, hrow, rfl, hd, rfl⟩ := exchangeRefresh_cases hs
    obtain ⟨i, hi, rfl, hp, hperm⟩ := decodeRefresh_issued hgood hu hd
    refine inv_exchanged h (h.issued i hi (permitted_user_id hperm)) (sub_of_passes (hgood.clients row hrow) hp).1 ?_
    intro j hj hne
    rw [List.mem_singleton.1 hj] at hne
    exact absurd rfl hne
  | other r =>
    obtain ⟨v, -, hq, rfl⟩ := other_cases hs
    refine h.quiet (.same rfl rfl) h.opened (fun i hi hne => ?_) rfl
    obtain ⟨tokens, ht, hnone⟩ := hq.issued
    rcases List.mem_append.1 (ht ▸ hi) with hi | hi
    · exact .inl hi
    · exact absurd (hnone i hi) hne
end

theorem inv_reach (hJ : J.Documented) (h : Reach (system J) (fun s r => Unforged s r ∧ Asked s r) s) : Inv s := by
  induction h with
  | init hs =>
    cases hs
    exact ⟨fun _ h => absurd h List.not_mem_nil, fun _ h => absurd h List.not_mem_nil,
      fun _ _ h => absurd h List.not_mem_nil⟩
  | step r hr ho hs ih => exact inv_step (good_reach hJ hr) ih ho.1 ho.2 hs

/-- In a run whose forms name only scopes their transactions requested, every access token
    of a client carries scopes the client may have, all requested in one transaction of the
    client that its user approved, or that was granted at once to a client with
    `magic_power`. -/
theorem contained_run (hJ : J.Documented) (h : Reach (system J) (fun s r => Unforged s r ∧ Asked s r) s) :
    Contained true s :=
  (inv_reach hJ h).accesses

/-- A user and a client that may read the profile and the devices. -/
def registered (magic_power : Bool) : List (Request Claims) :=
  [.other (.register ⟨1, "bob", "b", "bob@example.com", false⟩),
    .createClient ⟨"c", "k", magic_power, "profile user-read", ["https://c.example/"]⟩]

def codeOf (scope : List String) : Issued Claims := grantCode plain 0 "c" "https://c.example/" "b" scope

/-- The client asks for the profile; the form's body says `body`. -/
def consented (body : String) : List (Request Claims) :=
  registered false ++ [.getAuthorize "web" "b" "t" "c" (some "https://c.example/") (some ["profile"]),
    .postAuthorize "web" "b" "t" false (some body)]

def atOnceRun : List (Request Claims) :=
  registered true ++ [.getAuthorize "web" "b" "t" "c" (some "https://c.example/") (some ["profile"])]

/-- The state after some requests and the exchange of a code issued by then. -/
def exchangedAfter (es : List (Request Claims)) (code : Claims) : Option (State Claims) :=
  (run (system plain) init es).bind fun s =>
    if s.server.issued.any (·.token == code) then step plain s (.exchangeCode "c" "k" code none) else none

theorem reach_exchangedAfter {ok : State Claims → Request Claims → Prop} {es : List (Request Claims)} {code : Claims}
    (hok : ∀ e ∈ es, ∀ s, ok s e)
    (hlast : ∀ s, Unforged s (.exchangeCode "c" "k" code none) → ok s (.exchangeCode "c" "k" code none))
    {t : State Claims} (ht : exchangedAfter es code = some t) : Reach (system plain) ok t := by
  obtain ⟨s, hs, ht⟩ := Option.bind_eq_some_iff.1 ht
  split at ht
  · next hi =>
    refine .step _ (Reach.run (.init rfl) es hok hs) (hlast s ?_) ht
    simpa only [Unforged, List.any_eq_true, beq_iff_eq] using hi
  · cases ht

/-- A client with `magic_power` gets a token though its user approved nothing; and a form
    that names more than its page showed gets a token for all of it. -/
theorem contained_fails :
    (∃ s, Reach (system plain) (fun s r => Unforged s r ∧ Asked s r) s ∧ ¬ Contained false s) ∧
      ∃ s, Reach (system plain) Unforged s ∧ ¬ Contained true s := by
  constructor
  · obtain ⟨t, ht, ha, hc⟩ : ∃ t, exchangedAfter atOnceRun (codeOf ["profile"]).token = some t ∧
        t.accesses = [("c", (signAccessToken plain 0 (codeOf ["profile"]).claims).claims)] ∧
        t.approvals.all (!·.consent) = true := ⟨_, rfl, rfl, rfl⟩
    refine ⟨t, reach_exchangedAfter ?_ (fun s h => ⟨h, trivial⟩) ht, ?_⟩
    · simp only [atOnceRun, registered, List.cons_append, List.nil_append, List.forall_mem_cons]
      exact ⟨fun _ => ⟨trivial, trivial⟩, fun _ => ⟨trivial, trivial⟩, fun _ => ⟨trivial, trivial⟩,
        fun _ h => absurd h List.not_mem_nil⟩
    · intro h
      obtain ⟨user, scopes, -, -, row, -, -, -, a, hmem, -, -, hcon, -⟩ :=
        h "c" _ (by rw [ha]; exact List.mem_singleton.2 rfl)
      have hno := List.all_eq_true.1 hc a hmem
      rcases hcon with hcon | ⟨hcon, -⟩
      · rw [hcon] at hno
        cases hno
      · cases hcon
  · obtain ⟨t, ht, ha, hc⟩ : ∃ t, exchangedAfter (consented "profile user-read")
          (codeOf ["profile", "user-read"]).token = some t ∧
        t.accesses = [("c", (signAccessToken plain 0 (codeOf ["profile", "user-read"]).claims).claims)] ∧
        t.approvals.all (!·.requested.contains "user-read") = true := ⟨_, rfl, rfl, rfl⟩
    refine ⟨t, reach_exchangedAfter ?_ (fun s h => h) ht, ?_⟩
    · simp only [consented, registered, List.cons_append, List.nil_append, List.forall_mem_cons]
      exact ⟨fun _ => trivial, fun _ => trivial, fun _ => trivial, fun _ => trivial,
        fun _ h => absurd h List.not_mem_nil⟩
    · intro h
      obtain ⟨user, scopes, -, hscopes, row, -, -, -, a, hmem, -, -, -, hreq⟩ :=
        h "c" _ (by rw [ha]; exact List.mem_singleton.2 rfl)
      cases hscopes
      have hno := List.all_eq_true.1 hc a hmem
      have hyes : "user-read" ∈ a.requested := hreq _ (List.mem_cons_of_mem _ (List.mem_cons_self ..))
      rw [List.contains_iff_mem.2 hyes] at hno
      cases hno

/-- A form that names what its page showed. -/
theorem contained_consented : ∃ s, Reach (system plain) (fun s r => Unforged s r ∧ Asked s r) s ∧
    s.accesses = [("c", (signAccessToken plain 0 (codeOf ["profile"]).claims).claims)] ∧ Contained true s := by
  obtain ⟨s₁, h₁, hopen⟩ : ∃ s, run (system plain) init ((consented "profile").take 3) = some s ∧
      transaction? s "web" "t" = some ⟨"t", "web", "c", "https://c.example/", ["profile"]⟩ := ⟨_, rfl, rfl⟩
  have hr₁ : Reach (system plain) (fun s r => Unforged s r ∧ Asked s r) s₁ := by
    refine Reach.run (.init rfl) _ ?_ h₁
    simp only [consented, registered, List.cons_append, List.nil_append, List.take_succ_cons, List.take_zero,
      List.forall_mem_cons]
    exact ⟨fun _ => ⟨trivial, trivial⟩, fun _ => ⟨trivial, trivial⟩, fun _ => ⟨trivial, trivial⟩,
      fun _ h => absurd h List.not_mem_nil⟩
  have hask : Asked s₁ (.postAuthorize "web" "b" "t" false (some "profile")) := by
    intro tr htr
    cases hopen.symm.trans htr
    decide
  obtain ⟨s₂, h₂, hi⟩ : ∃ s, step plain s₁ (.postAuthorize "web" "b" "t" false (some "profile")) = some s ∧
      codeOf ["profile"] ∈ s.server.issued := by
    cases h₁
    exact ⟨_, rfl, by decide +kernel⟩
  obtain ⟨t, ht, ha⟩ : ∃ t, step plain s₂ (.exchangeCode "c" "k" (codeOf ["profile"]).token none) = some t ∧
      t.accesses = [("c", (signAccessToken plain 0 (codeOf ["profile"]).claims).claims)] := by
    cases h₁
    cases h₂
    exact ⟨_, rfl, rfl⟩
  have hr : Reach (system plain) (fun s r => Unforged s r ∧ Asked s r) t :=
    .step (.exchangeCode "c" "k" (codeOf ["profile"]).token none)
      (.step (.postAuthorize "web" "b" "t" false (some "profile")) hr₁ ⟨trivial, hask⟩ h₂)
      ⟨⟨_, hi, rfl⟩, trivial⟩ ht
  exact ⟨t, hr, ha, contained_run plain_documented hr⟩

/-! ## Revocation -/

/-- The request ends in a grant of the client for the user. -/
def Grants (client user : String) (s : State Token) : Request Token → Prop
  | .getAuthorize _ u _ clientID _ _ => u = user ∧ clientID = client ∧
      ∃ row ∈ s.clients, row.id = client ∧ row.magic_power = true
  | .postAuthorize session u id cancel _ => u = user ∧ cancel = false ∧
      ∃ tr, transaction? s session id = some tr ∧ tr.client = client
  | _ => False

/-- The request ends in a grant of the client by the user, on the consent page. -/
def Approves (client user : String) (s : State Token) : Request Token → Prop
  | .postAuthorize session u id cancel scope => Grants client user s (.postAuthorize session u id cancel scope)
  | _ => False

/-- A code of the client for the user that an exchange still takes. -/
def LiveCode (s : State Token) (client user : String) : Prop :=
  ∃ i ∈ s.server.issued, i.kind = .authorizationCode ∧ i.claims.sub = some client ∧ i.claims.user_id = some user ∧
    ∀ e, i.claims.exp = some e → s.server.now < e + 30

/-- The access tokens for the user that exchanges of the client answered. -/
def accessesOf (s : State Token) (client user : String) : List (String × Claims) :=
  s.accesses.filter fun a => a.1 == client && a.2.sub == some user

/-- The permission is revoked, and no token can bring it back. -/
structure Revoked (client user : String) (s : State Token) : Prop where
  permissions : ∀ row ∈ s.server.db.permissions, row.isOf client user = false
  codes : ¬ LiveCode s client user

/-- A step under which the permission stays revoked and answers no access token. -/
structure Stays (client user : String) (s t : State Token) : Prop where
  revoked : Revoked client user t
  accesses : accessesOf t client user = accessesOf s client user

variable {client user : String}

theorem getPermission_revoked {db : Db} (h : ∀ row ∈ db.permissions, row.isOf client user = false) :
    getPermission db client (some user) = .error .ENOENT := by
  have hnil : db.permissions.filter (fun row => (some user).any (row.isOf client)) = [] := by
    refine List.filter_eq_nil_iff.2 fun row hrow => ?_
    rw [Option.any_some, h row hrow]
    exact Bool.false_ne_true
  simp only [getPermission, hnil, selectOne]

theorem isOf_mk {client' user' scope : String} :
    (PermissionRow.mk user' client' scope).isOf client user = true ↔ client' = client ∧ user' = user := by
  simp only [PermissionRow.isOf, Bool.and_eq_true, beq_iff_eq]

/-- What is issued later is no live code of the client for the user, unless it is a code
    granted for the two. -/
theorem not_liveCode (h : ¬ LiveCode s client user) (hn : s.server.now ≤ t.server.now)
    (hi : ∀ i ∈ t.server.issued, i ∈ s.server.issued ∨ i.kind ≠ .authorizationCode ∨ i.claims.user_id = none ∨
      ¬ (i.claims.sub = some client ∧ i.claims.user_id = some user)) : ¬ LiveCode t client user := by
  intro hlive
  obtain ⟨i, hmem, hk, hsub, huser, hexp⟩ := hlive
  rcases hi i hmem with hs | hne | hnone | hother
  · exact h ⟨i, hs, hk, hsub, huser, fun e he => Nat.lt_of_le_of_lt hn (hexp e he)⟩
  · exact hne hk
  · cases hnone.symm.trans huser
  · exact hother ⟨hsub, huser⟩

/-- A grant that is not of the client for the user. -/
theorem stays_granted (h : Revoked client user s) {a : Approval} {uri : String} {scope : List String}
    (hne : ¬ (a.client = client ∧ a.user = user)) : Stays client user s (granted J s a uri scope) := by
  refine ⟨⟨h.permissions, not_liveCode h.codes (Nat.le_refl _) ?_⟩, rfl⟩
  intro i hi
  rcases List.mem_append.1 hi with hi | hi
  · exact .inl hi
  · rw [List.mem_singleton.1 hi]
    refine .inr (.inr (.inr fun heq => hne ?_))
    exact ⟨Option.some.inj heq.1, Option.some.inj heq.2⟩

/-- An exchange that is not by the client for the user. -/
theorem stays_exchanged (h : Revoked client user s) {clientId : String} {db : Db} {tokens : List (Issued Token)}
    {c : Claims} (hne : ¬ (clientId = client ∧ c.user_id = some user))
    (hdb : ∀ row ∈ db.permissions, row.isOf client user = false)
    (htokens : ∀ i ∈ tokens, i.kind ≠ .authorizationCode) :
    Stays client user s (exchanged J s clientId db tokens c) where
  revoked := by
    refine ⟨hdb, not_liveCode h.codes (Nat.le_refl _) ?_⟩
    intro i hi
    exact (List.mem_append.1 hi).imp_right fun hi => .inl (htokens i hi)
  accesses := by
    have hfalse : (clientId == client && c.user_id == some user) = false := by
      rw [Bool.eq_false_iff]
      intro heq
      exact hne (by simpa only [Bool.and_eq_true, beq_iff_eq] using heq)
    have hnil : [(clientId, (signAccessToken J s.server.now c).claims)].filter
        (fun a => a.1 == client && a.2.sub == some user) = [] := by
      refine List.filter_eq_nil_iff.2 fun a ha => ?_
      rw [List.mem_singleton.1 ha]
      exact Bool.eq_false_iff.1 hfalse
    simp only [accessesOf, exchanged, List.filter_append, hnil, List.append_nil]

theorem stays_step (hgood : Good J s) {r : Request Token} (h : Revoked client user s)
    (hu : Unforged s r) (hg : ¬ Grants client user s r) (hs : step J s r = some t) : Stays client user s t := by
  cases r with
  | createClient row =>
    simp only [step] at hs
    split at hs
    · cases hs
    · cases hs
      exact ⟨⟨h.permissions, h.codes⟩, rfl⟩
  | getAuthorize session u id clientID redirectURI scope =>
    obtain ⟨-, row, uri, scopes, hrow, hid, -, ht⟩ := getAuthorize_cases hs
    rcases ht with ⟨hm, rfl⟩ | ⟨-, rfl⟩
    · refine stays_granted h fun heq => hg ?_
      exact ⟨heq.2, hid.symm.trans heq.1, row, hrow, heq.1, hm⟩
    · exact ⟨⟨h.permissions, h.codes⟩, rfl⟩
  | postAuthorize session u id cancel scope =>
    obtain ⟨-, tr, text, htr, -, ht⟩ := postAuthorize_cases hs
    have hclosed : Revoked client user (closeTransaction s session id) := ⟨h.permissions, h.codes⟩
    rcases ht with ⟨-, rfl⟩ | ⟨hc, rfl⟩
    · exact ⟨hclosed, rfl⟩
    · have hne : ¬ (tr.client = client ∧ u = user) := fun heq => hg ⟨heq.2, hc, tr, htr, heq.1⟩
      have hst : Stays client user (closeTransaction s session id) (granted J (closeTransaction s session id)
          ⟨tr.client, u, tr.scope, true⟩ tr.redirectURI (split text)) := stays_granted hclosed hne
      exact ⟨hst.revoked, hst.accesses⟩
  | exchangeCode clientId clientSecret code redirectURI =>
    obtain ⟨-, row, c, db, access, refresh, hrow, rfl, hd, hx, rfl⟩ := exchangeCode_cases hs
    obtain ⟨i, hi, rfl, hk, hp⟩ := decodeCode_issued hgood hu hd
    obtain ⟨uid, scope, huid, hdb⟩ := exchangeCode_permissions hx
    obtain ⟨hsub, hexp⟩ := sub_of_passes (hgood.clients row hrow) hp
    have hne : ¬ (row.id = client ∧ i.claims.user_id = some user) := by
      intro heq
      exact h.codes ⟨i, hi, hk, heq.1 ▸ hsub, heq.2, hexp⟩
    refine stays_exchanged h hne ?_ ?_
    · intro row' hrow'
      rcases List.mem_append.1 (hdb ▸ hrow') with hrow' | hrow'
      · exact h.permissions row' (List.mem_filter.1 hrow').1
      · rw [List.mem_singleton.1 hrow', Bool.eq_false_iff]
        intro heq
        obtain ⟨hc, hu⟩ := isOf_mk.1 heq
        exact hne ⟨hc, hu ▸ huid⟩
    · intro j hj
      simp only [List.mem_cons, List.not_mem_nil, or_false] at hj
      rcases hj with rfl | rfl
      · intro hk; cases hk
      · intro hk; cases hk
  | exchangeRefresh clientId clientSecret refreshToken =>
    obtain ⟨-, row, c, hrow, rfl, hd, rfl⟩ := exchangeRefresh_cases hs
    obtain ⟨i, hi, rfl, -, hperm⟩ := decodeRefresh_issued hgood hu hd
    refine stays_exchanged h (fun heq => ?_) h.permissions ?_
    · obtain ⟨permission, scopes, hp, -⟩ := hperm
      rw [heq.1, heq.2, getPermission_revoked h.permissions] at hp
      cases hp
    · intro j hj hk
      rw [List.mem_singleton.1 hj] at hk
      cases hk
  | other r =>
    obtain ⟨v, -, hq, rfl⟩ := other_cases hs
    obtain ⟨tokens, ht, hnone⟩ := hq.issued
    refine ⟨⟨fun row hrow => h.permissions row (hq.permissions row hrow), ?_⟩, rfl⟩
    refine not_liveCode h.codes hq.now fun i hi => ?_
    exact (List.mem_append.1 (ht ▸ hi)).imp_right fun hi => .inr (.inl (hnone i hi))

theorem revoked_of_step (h : step J s (.other (.revoke user client)) = some t) (hdead : ¬ LiveCode s client user) :
    Revoked client user t := by
  obtain ⟨v, hv, -, rfl⟩ := other_cases h
  simp only [Tokens.step] at hv
  split at hv
  · cases hv
    refine ⟨fun row hrow => ?_, hdead⟩
    simpa only [Bool.not_eq_true'] using (List.mem_filter.1 hrow).2
  · cases hv

/-- Once the user has revoked a client that has no live code, and until a grant of the
    client for the user, no permission row reappears and no exchange of the client answers
    an access token for the user. -/
theorem revoked_run (hJ : J.Documented) {s₀ s t : State Token} (h₀ : Reach (system J) Unforged s₀)
    (hr : step J s₀ (.other (.revoke user client)) = some s) (hdead : ¬ LiveCode s₀ client user)
    (hp : Path (system J) (fun s r => Unforged s r ∧ ¬ Grants client user s r) s t) :
    (∀ row ∈ t.server.db.permissions, row.isOf client user = false) ∧
      accessesOf t client user = accessesOf s client user := by
  have hs : Reach (system J) Unforged s := .step (.other (.revoke user client)) h₀ trivial hr
  have hstays : Reach (system J) Unforged t ∧ Stays client user s t := by
    induction hp with
    | refl => exact ⟨hs, revoked_of_step hr hdead, rfl⟩
    | step r _ ho hstep ih =>
      have hst := stays_step (good_reach hJ ih.1) ih.2.revoked ho.1 ho.2 hstep
      exact ⟨.step r ih.1 ho.1 hstep, hst.revoked, hst.accesses.trans ih.2.accesses⟩
  exact ⟨hstays.2.revoked.permissions, hstays.2.accesses⟩

theorem not_liveCode_of_kinds (h : s.server.issued.all (·.kind != .authorizationCode) = true) :
    ¬ LiveCode s client user := by
  intro hlive
  obtain ⟨i, hi, hk, -⟩ := hlive
  have hne := List.all_eq_true.1 h i hi
  rw [hk] at hne
  cases hne

theorem reach_unforged {es : List (Request Claims)} (hok : ∀ e ∈ es, ∀ s : State Claims, Unforged s e)
    {t : State Claims} (h : run (system plain) init es = some t) : Reach (system plain) Unforged t :=
  Reach.run (.init rfl) es hok h

theorem unforged_consented (body : String) : ∀ e ∈ consented body, ∀ s : State Claims, Unforged s e := by
  simp only [consented, registered, List.cons_append, List.nil_append, List.forall_mem_cons]
  exact ⟨fun _ => trivial, fun _ => trivial, fun _ => trivial, fun _ => trivial, fun _ h => absurd h List.not_mem_nil⟩

/-- A client with `magic_power` is granted again, and gets a token, with no approval after
    the revocation; and a code granted before it brings the permission row back and answers
    a token. -/
theorem revoked_fails :
    (∃ s₀ s t, Reach (system plain) Unforged s₀ ∧ ¬ LiveCode s₀ "c" "b" ∧
      step plain s₀ (.other (.revoke "b" "c")) = some s ∧
      Path (system plain) (fun s r => Unforged s r ∧ ¬ Approves "c" "b" s r) s t ∧
      accessesOf t "c" "b" ≠ accessesOf s "c" "b") ∧
    ∃ s₀ s t, Reach (system plain) Unforged s₀ ∧ step plain s₀ (.other (.revoke "b" "c")) = some s ∧
      Path (system plain) (fun s r => Unforged s r ∧ ¬ Grants "c" "b" s r) s t ∧
      t.server.db.permissions = [⟨"b", "c", "profile"⟩] ∧ accessesOf t "c" "b" ≠ accessesOf s "c" "b" := by
  constructor
  · obtain ⟨s₀, h₀, hdead⟩ : ∃ s, run (system plain) init (registered true) = some s ∧
        s.server.issued.all (·.kind != .authorizationCode) = true := ⟨_, rfl, rfl⟩
    obtain ⟨s, hs⟩ : ∃ s, step plain s₀ (.other (.revoke "b" "c")) = some s := by
      cases h₀
      exact ⟨_, rfl⟩
    obtain ⟨u, hu, hi⟩ : ∃ u, step plain s (.getAuthorize "web" "b" "t" "c" (some "https://c.example/") (some ["profile"])) =
        some u ∧ codeOf ["profile"] ∈ u.server.issued := by
      cases h₀
      cases hs
      exact ⟨_, rfl, by decide⟩
    obtain ⟨t, ht, ha⟩ : ∃ t, step plain u (.exchangeCode "c" "k" (codeOf ["profile"]).token none) = some t ∧
        accessesOf t "c" "b" ≠ accessesOf s "c" "b" := by
      cases h₀
      cases hs
      cases hu
      exact ⟨_, rfl, by decide⟩
    refine ⟨s₀, s, t, reach_unforged ?_ h₀, not_liveCode_of_kinds hdead, hs, ?_, ha⟩
    · simp only [registered, List.forall_mem_cons]
      exact ⟨fun _ => trivial, fun _ => trivial, fun _ h => absurd h List.not_mem_nil⟩
    · exact .step (.exchangeCode "c" "k" (codeOf ["profile"]).token none)
        (.step (.getAuthorize "web" "b" "t" "c" (some "https://c.example/") (some ["profile"])) .refl
          ⟨trivial, id⟩ hu) ⟨⟨_, hi, rfl⟩, id⟩ ht
  · obtain ⟨s₀, h₀⟩ : ∃ s, run (system plain) init (consented "profile") = some s := ⟨_, rfl⟩
    obtain ⟨s, hs, hi⟩ : ∃ s, step plain s₀ (.other (.revoke "b" "c")) = some s ∧
        codeOf ["profile"] ∈ s.server.issued := by
      cases h₀
      exact ⟨_, rfl, by decide⟩
    obtain ⟨t, ht, hrow, ha⟩ : ∃ t, step plain s (.exchangeCode "c" "k" (codeOf ["profile"]).token none) = some t ∧
        t.server.db.permissions = [⟨"b", "c", "profile"⟩] ∧ accessesOf t "c" "b" ≠ accessesOf s "c" "b" := by
      cases h₀
      cases hs
      exact ⟨_, rfl, rfl, by decide⟩
    refine ⟨s₀, s, t, reach_unforged (unforged_consented _) h₀, hs, ?_, hrow, ha⟩
    exact .step (.exchangeCode "c" "k" (codeOf ["profile"]).token none) .refl ⟨⟨_, hi, rfl⟩, id⟩ ht

/-- The code is exchanged, and dead when the permission is revoked. -/
theorem revoked_after_code : ∃ s₀ s t, Reach (system plain) Unforged s₀ ∧
    s₀.server.db.permissions = [⟨"b", "c", "profile"⟩] ∧ step plain s₀ (.other (.revoke "b" "c")) = some s ∧
    step plain s (.other (.wait 5)) = some t ∧ (∀ row ∈ t.server.db.permissions, row.isOf "c" "b" = false) ∧
    accessesOf t "c" "b" = accessesOf s "c" "b" := by
  obtain ⟨u, hu, hi⟩ : ∃ s, run (system plain) init (consented "profile") = some s ∧
      codeOf ["profile"] ∈ s.server.issued := ⟨_, rfl, by decide⟩
  obtain ⟨v, hv⟩ : ∃ v, step plain u (.exchangeCode "c" "k" (codeOf ["profile"]).token none) = some v := by
    cases hu
    exact ⟨_, rfl⟩
  obtain ⟨s₀, h₀, hrow, hdead⟩ : ∃ s, step plain v (.other (.wait 630)) = some s ∧
      s.server.db.permissions = [⟨"b", "c", "profile"⟩] ∧
      s.server.issued.all (fun i => i.kind != .authorizationCode || i.claims.exp.any (· + 30 ≤ s.server.now)) = true := by
    cases hu
    cases hv
    exact ⟨_, rfl, rfl, rfl⟩
  obtain ⟨s, hs⟩ : ∃ s, step plain s₀ (.other (.revoke "b" "c")) = some s := by
    cases hu
    cases hv
    cases h₀
    exact ⟨_, rfl⟩
  have hr : Reach (system plain) Unforged s₀ :=
    .step (.other (.wait 630)) (.step (.exchangeCode "c" "k" (codeOf ["profile"]).token none)
      (reach_unforged (unforged_consented _) hu) ⟨_, hi, rfl⟩ hv) trivial h₀
  have hdead : ¬ LiveCode s₀ "c" "b" := by
    intro hlive
    obtain ⟨i, hi, hk, -, -, hexp⟩ := hlive
    have hor := List.all_eq_true.1 hdead i hi
    simp only [hk, bne_self_eq_false, Bool.false_or, Option.any_eq_true, decide_eq_true_eq] at hor
    obtain ⟨e, he, hle⟩ := hor
    have := hexp e he
    omega
  have hw : step plain s (.other (.wait 5)) =
      some { s with server := { s.server with now := s.server.now + 5 } } := rfl
  exact ⟨s₀, s, _, hr, hrow, hs, hw,
    revoked_run plain_documented hr hs hdead (.step (.other (.wait 5)) .refl ⟨trivial, id⟩ hw)⟩

end GenieCloud.Auth.Authorization
