/-
  GenieCloud.Auth.Tokens — every token the server signs and every place that checks one:
  the OAuth 2.0 exchanges (`GenieCloud.Auth.OAuth2`), the bearer strategy
  (`util/passport.ts`), email verification, password recovery and `POST /user/token`
  (`routes/user.ts`), and the database proxy (`go/dbproxy/auth.go`, with the tokens of
  `almond/enginemanager.ts`).

  All tokens are signed with one key, and nothing in a token names its kind: a check tells
  the kinds apart by the audience, or by the grant type. A `Server` runs any sequence of
  requests, keeping every token it has given out with what it was issued as.

  - `issued_wf`: in every run, an issued token carries the audience and the grant type of
    its kind, and only codes and refresh tokens carry a user id.
  - `accepts_own_kind_iff`: a check that passes an issued token passes one of its own
    kind, unless it is the refresh exchange, given a live code of the client whose scopes
    are permitted. That exchange checks no grant type, and no redirect URI.
    `code_passes_as_refresh_token` is such a run.
-/

import GenieCloud.Auth.OAuth2
import GenieCloud.Lib.Runs

namespace GenieCloud.Auth.Tokens

open GenieCloud.Auth.Jwt GenieCloud.Auth.OAuth2 GenieCloud.Lib.Result GenieCloud.Lib.Runs

variable {Token : Type} (J : Library Token)

/-! ## The other issuers -/

def OAuthScopes : List String :=
  ["profile", "user-read", "user-read-results", "user-exec-command", "user-sync", "developer-read",
    "developer-upload", "developer-admin"]

/-- `POST /user/token`: an access token for one month, with all scopes. -/
def postToken (now : Nat) (cloudId : String) : Issued Token :=
  sign J now .accessToken
    { sub := some cloudId, aud := some "oauth2", scope := some OAuthScopes } (some (30 * 24 * 3600))

def sendValidationEmail (now : Nat) (cloudId email : String) : Issued Token :=
  sign J now .emailVerify { sub := some cloudId, aud := some "email-verify", email := some email } (some 1200)

def sendRecoveryEmail (now : Nat) (cloudId : String) : Issued Token :=
  sign J now .pwRecovery { sub := some cloudId, aud := some "pw-recovery" } (some 1200)

/-- The engine manager's `dbProxyAccessToken`; it does not expire. -/
def dbProxyAccessToken (now id : Nat) : Issued Token :=
  sign J now .dbproxy { sub := some (toString id), aud := some "dbproxy" } none

def SignToken (uid : Int) : Issued Token :=
  let claims : StandardClaims := { Audience := "dbproxy", Subject := toString uid }
  ⟨.dbproxy, claims.claims, J.signedString claims⟩

/-! ## The other checks -/

/-- An undefined cloud id is sent as `NULL`, which no row equals. -/
def getByCloudId (db : Db) (cloudId : Option String) : List UserRow :=
  db.users.filter fun u => cloudId.any (u.cloud_id == ·)

/-- The bearer strategy: the user and the scopes of an access token. -/
def bearer (now : Nat) (db : Db) (accessToken : Token) : Option (UserRow × List String) := do
  let decoded ← J.verify { algorithms := ["HS256"], audience := some "oauth2", clockTolerance := 30 } now accessToken
  let user ← (getByCloudId db decoded.sub).head?
  return (user, decoded.scope.getD ["profile"])

/-- `GET /user/verify-email`, as the logged-in user. -/
def decodeVerifyEmail (now : Nat) (user : String) (token : Token) : Option Claims :=
  J.verify { algorithms := ["HS256"], audience := some "email-verify", subject := some user } now token

def verifyEmail (db : Db) (cloudId email : Option String) : Db :=
  { db with users := db.users.map fun u =>
      if cloudId.any (u.cloud_id == ·) && email.any (u.email == ·) then { u with email_verified := true } else u }

/-- What the profile page writes of the fields here. -/
def updateEmail (db : Db) (cloudId email : String) (email_verified : Bool) : Db :=
  { db with users := db.users.map fun u =>
      if u.cloud_id = cloudId then { u with email := email, email_verified := email_verified } else u }

/-- `/user/recovery/continue`: the user whose password the token resets. -/
def recoveryContinue (now : Nat) (db : Db) (token : Token) : Option UserRow := do
  let decoded ← J.verify { algorithms := ["HS256"], audience := some "pw-recovery" } now token
  (getByCloudId db decoded.sub).head?

/-- The `Valid` method of `accessTokenClaims`. -/
def Valid (now : Nat) (token : StandardClaims) : Bool :=
  J.standardValid now token && J.verifyAudience token "dbproxy" true && token.Subject != ""

/-- On the token of the authorization header. -/
def parseAccessToken (now : Nat) (accessToken : Token) : Option StandardClaims :=
  J.parseWithClaims (fun alg => alg == "HS256") (Valid J now) accessToken

/-- A token presented to one of the server's checks. -/
inductive Check (Token : Type)
  | exchangeCode (client : String) (code : Token) (redirectURI : Option String)
  | exchangeRefresh (client : String) (refreshToken : Token)
  | bearer (accessToken : Token)
  | verifyEmail (user : String) (token : Token)
  | recoveryContinue (token : Token)
  | dbproxy (accessToken : Token)

def Check.kind : Check Token → Kind
  | .exchangeCode _ _ _ => .authorizationCode
  | .exchangeRefresh _ _ => .refreshToken
  | .bearer _ => .accessToken
  | .verifyEmail _ _ => .emailVerify
  | .recoveryContinue _ => .pwRecovery
  | .dbproxy _ => .dbproxy

def Check.token : Check Token → Token
  | .exchangeCode _ code _ => code
  | .exchangeRefresh _ refreshToken => refreshToken
  | .bearer accessToken => accessToken
  | .verifyEmail _ token => token
  | .recoveryContinue token => token
  | .dbproxy accessToken => accessToken

def Check.accepts (now : Nat) (db : Db) : Check Token → Bool
  | .exchangeCode client code redirectURI => (decodeCode J now client code redirectURI).isSome
  | .exchangeRefresh client refreshToken => (decodeRefresh J now db client refreshToken).isSome
  | .bearer accessToken => (Tokens.bearer J now db accessToken).isSome
  | .verifyEmail user token => (decodeVerifyEmail J now user token).isSome
  | .recoveryContinue token => (Tokens.recoveryContinue J now db token).isSome
  | .dbproxy accessToken => (parseAccessToken J now accessToken).isSome

/-! ## The server -/

structure Server (Token : Type) where
  now : Nat
  db : Db
  issued : List (Issued Token)
  deriving DecidableEq, Repr

def init : Server Token := ⟨0, ⟨[], []⟩, []⟩

def Server.issue (s : Server Token) (tokens : List (Issued Token)) : Server Token :=
  { s with issued := s.issued ++ tokens }

def Server.loggedIn (s : Server Token) (user : String) : Bool := s.db.users.any (·.cloud_id == user)

inductive Request (Token : Type)
  | wait (seconds : Nat)
  | register (row : UserRow)
  | updateProfile (user email : String)
  | resendVerification (user : String)
  | verifyEmail (user : String) (token : Token)
  | startRecovery (username : String)
  | deleteUser (user : String)
  | authorize (user client redirectURI : String) (scope : List String)
  | exchangeCode (client : String) (code : Token) (redirectURI : Option String)
  | exchangeRefresh (client : String) (refreshToken : Token)
  | revoke (user client : String)
  | postToken (user : String)
  | runEngine (id : Nat)
  | signToken (uid : Int)

/-- A request that is not taken is `none`; a handler that fails leaves the state. -/
def step (s : Server Token) : Request Token → Option (Server Token)
  | .wait seconds => some { s with now := s.now + seconds }
  | .register row =>
    if s.loggedIn row.cloud_id then none
    else some (Server.issue { s with db := { s.db with users := s.db.users ++ [{ row with email_verified := false }] } }
      [sendValidationEmail J s.now row.cloud_id row.email])
  | .updateProfile user email => do
    let row ← (getByCloudId s.db (some user)).head?
    let mustSendEmail := email != row.email
    let t := { s with db := updateEmail s.db user email !mustSendEmail }
    if mustSendEmail then some (t.issue [sendValidationEmail J s.now user email]) else some t
  | .resendVerification user => do
    let row ← (getByCloudId s.db (some user)).head?
    if row.email_verified || row.email == "" then none
    else some (s.issue [sendValidationEmail J s.now row.cloud_id row.email])
  | .verifyEmail user token => do
    guard (s.loggedIn user)
    let decoded ← decodeVerifyEmail J s.now user token
    return { s with db := Tokens.verifyEmail s.db decoded.sub decoded.email }
  | .startRecovery username => do
    let row ← s.db.users.find? (·.username == username)
    if row.email_verified then some (s.issue [sendRecoveryEmail J s.now row.cloud_id]) else none
  | .deleteUser user => some { s with db := deleteUser s.db user }
  | .authorize user client redirectURI scope =>
    if s.loggedIn user then some (s.issue [grantCode J s.now client redirectURI user scope]) else none
  | .exchangeCode client code redirectURI => do
    let decoded ← decodeCode J s.now client code redirectURI
    let (db, accessToken, refreshToken) ← (OAuth2.exchangeCode J s.now s.db client decoded).toOption
    return Server.issue { s with db := db } [accessToken, refreshToken]
  | .exchangeRefresh client refreshToken => do
    let decoded ← decodeRefresh J s.now s.db client refreshToken
    return s.issue [signAccessToken J s.now decoded]
  | .revoke user client => if s.loggedIn user then some { s with db := revokePermission s.db client user } else none
  | .postToken user => if s.loggedIn user then some (s.issue [Tokens.postToken J s.now user]) else none
  | .runEngine id => if s.db.users.any (·.id == id) then some (s.issue [dbProxyAccessToken J s.now id]) else none
  | .signToken uid => some (s.issue [SignToken J uid])

def server : System (Server Token) (Request Token) where
  init s := s = init
  step := step J

/-! ## What tells the kinds apart -/

def audience : Kind → Option String
  | .authorizationCode => none
  | .refreshToken => none
  | .accessToken => some "oauth2"
  | .emailVerify => some "email-verify"
  | .pwRecovery => some "pw-recovery"
  | .dbproxy => some "dbproxy"

def grantType : Kind → Option String
  | .authorizationCode => some "authorization_code"
  | .refreshToken => some "refresh_token"
  | _ => none

structure Shape (k : Kind) (c : Claims) : Prop where
  aud : c.aud = audience k
  grant_type : c.grant_type = grantType k
  /-- Only the tokens of a grant name their user so. -/
  user_id : c.user_id ≠ none → grantType k ≠ none

structure WF (i : Issued Token) : Prop where
  carries : J.Carries i.token i.claims
  shape : Shape i.kind i.claims

theorem audience_ne_empty (k : Kind) : audience k ≠ some "" := by
  cases k <;> decide

theorem audience_inj {k k' : Kind} (h : audience k = audience k') (hne : audience k ≠ none) : k = k' := by
  revert h hne
  cases k <;> cases k' <;> decide

variable {J} (hJ : J.Documented)
include hJ

theorem sign_wf {k : Kind} {payload : Claims} {expiresIn : Option Nat} {now : Nat} (h : Shape k payload) :
    WF J (sign J now k payload expiresIn) where
  carries := hJ.sign payload expiresIn now
  shape := ⟨h.aud, h.grant_type, h.user_id⟩

theorem grantCode_wf (now : Nat) (client redirectURI user : String) (scope : List String) :
    WF J (grantCode J now client redirectURI user scope) :=
  sign_wf hJ ⟨rfl, rfl, fun _ => by decide⟩

theorem signRefreshToken_wf (now : Nat) (client : String) (decoded : Claims) :
    WF J (signRefreshToken J now client decoded) :=
  sign_wf hJ ⟨rfl, rfl, fun _ => by decide⟩

theorem signAccessToken_wf (now : Nat) (decoded : Claims) : WF J (signAccessToken J now decoded) :=
  sign_wf hJ ⟨rfl, rfl, fun h => absurd rfl h⟩

theorem postToken_wf (now : Nat) (cloudId : String) : WF J (postToken J now cloudId) :=
  sign_wf hJ ⟨rfl, rfl, fun h => absurd rfl h⟩

theorem sendValidationEmail_wf (now : Nat) (cloudId email : String) : WF J (sendValidationEmail J now cloudId email) :=
  sign_wf hJ ⟨rfl, rfl, fun h => absurd rfl h⟩

theorem sendRecoveryEmail_wf (now : Nat) (cloudId : String) : WF J (sendRecoveryEmail J now cloudId) :=
  sign_wf hJ ⟨rfl, rfl, fun h => absurd rfl h⟩

theorem dbProxyAccessToken_wf (now id : Nat) : WF J (dbProxyAccessToken J now id) :=
  sign_wf hJ ⟨rfl, rfl, fun h => absurd rfl h⟩

theorem SignToken_wf (uid : Int) : WF J (SignToken J uid) where
  carries := hJ.signedString _
  shape := by
    refine ⟨?_, rfl, fun h => absurd rfl h⟩
    simp only [SignToken, StandardClaims.claims, audience, String.reduceEq, if_false]

omit hJ in
theorem issues_one {s t : Server Token} {i : Issued Token} (ht : t.issued = s.issued ++ [i]) (hi : WF J i) :
    ∃ tokens, t.issued = s.issued ++ tokens ∧ ∀ i ∈ tokens, WF J i := by
  refine ⟨[i], ht, fun j hj => ?_⟩
  rw [List.mem_singleton.1 hj]
  exact hi

omit hJ in
theorem issues_none {s t : Server Token} (ht : t.issued = s.issued) :
    ∃ tokens, t.issued = s.issued ++ tokens ∧ ∀ i ∈ tokens, WF J i :=
  ⟨[], by rw [ht, List.append_nil], fun _ h => absurd h List.not_mem_nil⟩

/-- A request gives out tokens with the shape of their kind only. -/
theorem step_issued {s t : Server Token} {r : Request Token} (h : step J s r = some t) :
    ∃ tokens, t.issued = s.issued ++ tokens ∧ ∀ i ∈ tokens, WF J i := by
  cases r with
  | wait seconds => cases h; exact issues_none rfl
  | deleteUser user => cases h; exact issues_none rfl
  | signToken uid => cases h; exact issues_one rfl (SignToken_wf hJ uid)
  | register row =>
    simp only [step] at h
    split at h
    · cases h
    · cases h; exact issues_one rfl (sendValidationEmail_wf hJ _ _ _)
  | updateProfile user email =>
    obtain ⟨row, -, h⟩ := Option.bind_eq_some_iff.1 h
    dsimp only at h
    split at h
    · cases h; exact issues_one rfl (sendValidationEmail_wf hJ _ _ _)
    · cases h; exact issues_none rfl
  | resendVerification user =>
    obtain ⟨row, -, h⟩ := Option.bind_eq_some_iff.1 h
    split at h
    · cases h
    · cases h; exact issues_one rfl (sendValidationEmail_wf hJ _ _ _)
  | verifyEmail user token =>
    obtain ⟨_, -, h⟩ := Option.bind_eq_some_iff.1 h
    obtain ⟨decoded, -, h⟩ := Option.bind_eq_some_iff.1 h
    cases h; exact issues_none rfl
  | startRecovery username =>
    obtain ⟨row, -, h⟩ := Option.bind_eq_some_iff.1 h
    split at h
    · cases h; exact issues_one rfl (sendRecoveryEmail_wf hJ _ _)
    · cases h
  | authorize user client redirectURI scope =>
    simp only [step] at h
    split at h
    · cases h; exact issues_one rfl (grantCode_wf hJ _ _ _ _ _)
    · cases h
  | exchangeCode client code redirectURI =>
    obtain ⟨decoded, -, h⟩ := Option.bind_eq_some_iff.1 h
    obtain ⟨⟨db, accessToken, refreshToken⟩, hx, h⟩ := Option.bind_eq_some_iff.1 h
    cases h
    obtain ⟨rfl, rfl⟩ := exchangeCode_tokens (toOption_eq_some.1 hx)
    refine ⟨_, rfl, ?_⟩
    rintro i (_ | ⟨_, _ | ⟨_, hi⟩⟩)
    · exact signAccessToken_wf hJ _ _
    · exact signRefreshToken_wf hJ _ _ _
    · cases hi
  | exchangeRefresh client refreshToken =>
    obtain ⟨decoded, -, h⟩ := Option.bind_eq_some_iff.1 h
    cases h; exact issues_one rfl (signAccessToken_wf hJ _ _)
  | revoke user client =>
    simp only [step] at h
    split at h
    · cases h; exact issues_none rfl
    · cases h
  | postToken user =>
    simp only [step] at h
    split at h
    · cases h; exact issues_one rfl (postToken_wf hJ _ _)
    · cases h
  | runEngine id =>
    simp only [step] at h
    split at h
    · cases h; exact issues_one rfl (dbProxyAccessToken_wf hJ _ _)
    · cases h

theorem issued_wf {s : Server Token} (h : Reach (server J) any s) : ∀ i ∈ s.issued, WF J i := by
  refine Reach.inv (P := fun s => ∀ i ∈ s.issued, WF J i) (fun s hs i hi => ?_) ?_ h
  · cases hs; exact absurd hi List.not_mem_nil
  intro s r t ih _ hs i hi
  obtain ⟨tokens, ht, hwf⟩ := step_issued hJ hs
  rw [ht] at hi
  exact (List.mem_append.1 hi).elim (ih i) (hwf i)

/-! ## What each check passes -/

omit hJ in
theorem kind_of_verify {i : Issued Token} (hi : WF J i) {o : VerifyOptions} {now : Nat} {d : Claims}
    (h : J.verify o now i.token = some d) {k : Kind} (ho : o.audience = audience k) (hk : audience k ≠ none) :
    i.kind = k := by
  obtain ⟨hp, -⟩ := hi.carries.verify_eq_some.1 h
  obtain ⟨a, ha⟩ := Option.ne_none_iff_exists'.1 hk
  have haud : i.claims.aud = some a :=
    aud_of_passes hp (ho.trans ha) (fun e => audience_ne_empty k (by rw [ha, e]))
  exact (audience_inj (by rw [ha, ← haud, hi.shape.aud]) hk).symm

theorem kind_of_parseAccessToken {i : Issued Token} (hi : WF J i) {now : Nat} {g : StandardClaims}
    (h : parseAccessToken J now i.token = some g) : i.kind = .dbproxy := by
  rw [parseAccessToken, hi.carries.parse] at h
  split at h
  · next hv =>
    simp only [Bool.and_eq_true, Valid] at hv
    have haud := (hJ.verifyAudience _ _ (by decide)).1 hv.2.1.2
    refine (audience_inj (k := .dbproxy) ?_ (by decide)).symm
    rw [← hi.shape.aud]
    cases ha : i.claims.aud with
    | none => simp only [Claims.standard, ha, Option.getD_none, String.reduceEq] at haud
    | some a => simp only [Claims.standard, ha, Option.getD_some] at haud; rw [haud]; rfl
  · cases h

omit hJ in
theorem kind_of_grantType {i : Issued Token} (hi : WF J i) (h : i.claims.grant_type = some "authorization_code") :
    i.kind = .authorizationCode := by
  have hg := hi.shape.grant_type.symm.trans h
  revert hg
  cases i.kind <;> decide

omit hJ in
/-- The refresh exchange passes tokens of either grant type: only they name a user. -/
theorem kind_of_user_id {i : Issued Token} (hi : WF J i) (h : i.claims.user_id ≠ none) :
    i.kind = .authorizationCode ∨ i.kind = .refreshToken := by
  have hg := hi.shape.user_id h
  revert hg
  cases i.kind <;> decide

/-- A live code of the client, with permitted scopes, in a `refresh_token` grant. -/
def CodeInRefreshGrant (now : Nat) (db : Db) (i : Issued Token) (c : Check Token) : Prop :=
  i.kind = .authorizationCode ∧ ∃ client, c = .exchangeRefresh client i.token ∧
    (client = "" ∨ i.claims.sub = some client) ∧ (∀ e, i.claims.exp = some e → now < e + 30) ∧
    Permitted db client i.claims

/-- In every run, a check that passes an issued token passes one of its own kind, exactly
when it is not the refresh exchange given such a code. -/
theorem accepts_own_kind_iff {s : Server Token} (h : Reach (server J) any s) {i : Issued Token}
    (hi : i ∈ s.issued) {c : Check Token} (hc : c.token = i.token) :
    (c.accepts J s.now s.db = true → i.kind = c.kind) ↔ ¬ CodeInRefreshGrant s.now s.db i c := by
  have hwf := issued_wf hJ h i hi
  constructor
  · rintro hkind ⟨hcode, client, rfl, hsub, hexp, hperm⟩
    have hd := (decodeRefresh_eq_some hwf.carries).2 ⟨rfl, passes_ofClient.2 ⟨hexp, hsub⟩, hperm⟩
    have hk := hkind (Option.isSome_iff_exists.2 ⟨_, hd⟩)
    rw [hcode] at hk
    cases hk
  · intro hno hacc
    cases c with
    | exchangeCode client code redirectURI =>
      obtain ⟨d, hd⟩ := Option.isSome_iff_exists.1 hacc
      obtain rfl : code = i.token := hc
      obtain ⟨-, -, hg, -⟩ := (decodeCode_eq_some hwf.carries).1 hd
      exact kind_of_grantType hwf hg
    | exchangeRefresh client refreshToken =>
      obtain ⟨d, hd⟩ := Option.isSome_iff_exists.1 hacc
      obtain rfl : refreshToken = i.token := hc
      obtain ⟨rfl, hp, hperm⟩ := (decodeRefresh_eq_some hwf.carries).1 hd
      obtain ⟨hexp, hsub⟩ := passes_ofClient.1 hp
      rcases kind_of_user_id hwf (permitted_user_id hperm) with hk | hk
      · exact absurd ⟨hk, client, rfl, hsub, hexp, hperm⟩ hno
      · exact hk
    | bearer accessToken =>
      obtain ⟨x, hx⟩ := Option.isSome_iff_exists.1 hacc
      obtain rfl : accessToken = i.token := hc
      obtain ⟨d, hd, -⟩ := Option.bind_eq_some_iff.1 hx
      exact kind_of_verify (k := .accessToken) hwf hd rfl (by decide)
    | verifyEmail user token =>
      obtain ⟨d, hd⟩ := Option.isSome_iff_exists.1 hacc
      obtain rfl : token = i.token := hc
      exact kind_of_verify (k := .emailVerify) hwf hd rfl (by decide)
    | recoveryContinue token =>
      obtain ⟨x, hx⟩ := Option.isSome_iff_exists.1 hacc
      obtain rfl : token = i.token := hc
      obtain ⟨d, hd, -⟩ := Option.bind_eq_some_iff.1 hx
      exact kind_of_verify (k := .pwRecovery) hwf hd rfl (by decide)
    | dbproxy accessToken =>
      obtain ⟨g, hg⟩ := Option.isSome_iff_exists.1 hacc
      obtain rfl : accessToken = i.token := hc
      exact kind_of_parseAccessToken hJ hwf hg

/-! ## A code as a refresh token -/

def aliceCode (now : Nat) : Claims :=
  (grantCode plain now "app" "https://app.example/cb" "alice0" ["profile"]).token

/-- A client is granted a code and exchanges it; a minute later it is granted another. -/
def grantTwice : List (Request Claims) :=
  [.register ⟨1, "alice", "alice0", "alice@example.com", false⟩,
    .authorize "alice0" "app" "https://app.example/cb" ["profile"],
    .exchangeCode "app" (aliceCode 0) (some "https://app.example/cb"),
    .wait 60,
    .authorize "alice0" "app" "https://app.example/cb" ["profile"]]

omit hJ in
theorem reach_of_run (rs : List (Request Claims)) (P : Server Claims → Bool)
    (h : (run (server plain) init rs).any P = true) : ∃ s, Reach (server plain) any s ∧ P s = true := by
  obtain ⟨s, hs, hP⟩ := (Option.any_eq_true P _).1 h
  exact ⟨s, Reach.run (.init rfl) rs (fun _ _ _ => trivial) hs, hP⟩

omit hJ in
/-- The second code passes the refresh exchange, where no redirect URI is asked for; with
another redirect URI the code exchange refuses it. -/
theorem code_passes_as_refresh_token :
    ∃ s : Server Claims, Reach (server plain) any s ∧ ∃ i ∈ s.issued, ∃ c : Check Claims, c.token = i.token ∧
      c.accepts plain s.now s.db = true ∧ i.kind ≠ c.kind ∧
      (Check.exchangeCode "app" i.token (some "https://other.example/")).accepts plain s.now s.db = false := by
  obtain ⟨s, hs, hP⟩ := reach_of_run grantTwice (fun s => s.issued.any fun i =>
    i.kind == .authorizationCode && (Check.exchangeRefresh "app" i.token).accepts plain s.now s.db &&
      !(Check.exchangeCode "app" i.token (some "https://other.example/")).accepts plain s.now s.db) rfl
  simp only [List.any_eq_true, Bool.and_eq_true, beq_iff_eq, Bool.not_eq_true'] at hP
  obtain ⟨i, hi, ⟨hk, hacc⟩, href⟩ := hP
  refine ⟨s, hs, i, hi, .exchangeRefresh "app" i.token, rfl, hacc, ?_, href⟩
  rw [hk]
  exact Kind.noConfusion

omit hJ in
/-- The refresh token of the first exchange passes as one. -/
theorem refresh_token_passes_as_itself :
    ∃ s : Server Claims, Reach (server plain) any s ∧ ∃ i ∈ s.issued, ∃ c : Check Claims, c.token = i.token ∧
      c.accepts plain s.now s.db = true ∧ i.kind = c.kind := by
  obtain ⟨s, hs, hP⟩ := reach_of_run grantTwice (fun s => s.issued.any fun i =>
    i.kind == .refreshToken && (Check.exchangeRefresh "app" i.token).accepts plain s.now s.db) rfl
  simp only [List.any_eq_true, Bool.and_eq_true, beq_iff_eq] at hP
  obtain ⟨i, hi, hk, hacc⟩ := hP
  have hno : ¬ CodeInRefreshGrant s.now s.db i (.exchangeRefresh "app" i.token) := by
    rintro ⟨hcode, -⟩
    rw [hk] at hcode
    cases hcode
  exact ⟨s, hs, i, hi, _, rfl, hacc, (accepts_own_kind_iff plain_documented hs hi rfl).2 hno hacc⟩

end GenieCloud.Auth.Tokens
