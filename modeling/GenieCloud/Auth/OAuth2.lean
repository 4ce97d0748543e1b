/-
  GenieCloud.Auth.OAuth2 — the OAuth 2.0 grant and exchanges (`util/oauth2.ts`) over the
  permission table (`model/oauth2.ts`).

  A code is bound to its client, user, redirect URI and scopes. Exchanging it checks the
  client, the grant type and the redirect URI, adds its scopes to the client's permission
  row for the user, and answers an access token and a refresh token. Exchanging a refresh
  token checks the client and that the permission row still has every scope; it does not
  look at the grant type.

  - `decodeCode_eq_some`, `decodeRefresh_eq_some`: what each exchange takes, on a token
    that carries its claims.
  - `permitted_of_exchangeCode`: a code exchange leaves a permission row with every scope
    of the code (a row just written is the one found, and its column gives back the scopes
    written to it). So the refresh exchange takes the refresh token it answers
    (`refresh_token_refreshes`), and the code as well (`exchanged_code_refreshes`).
-/

import GenieCloud.Auth.Jwt
import GenieCloud.Lib.Result
import GenieCloud.Lib.SplitOn
import Mathlib.Logic.Basic

namespace GenieCloud.Auth.OAuth2

open GenieCloud.Auth.Jwt GenieCloud.Lib.Result GenieCloud.Lib.SplitOn

/-! ## The permission table -/

structure UserRow where
  id : Nat
  username : String
  cloud_id : String
  email : String
  email_verified : Bool
  deriving DecidableEq, Repr

structure PermissionRow where
  user_id : String
  client_id : String
  scope : String
  deriving DecidableEq, Repr

structure Db where
  users : List UserRow
  permissions : List PermissionRow
  deriving DecidableEq, Repr

/-- What a handler can throw. -/
inductive Failure
  | ENOENT
  | E_TOO_MANY_ROWS
  | ER_BAD_NULL_ERROR
  | ER_NO_REFERENCED_ROW_2
  | TypeError
  deriving DecidableEq, Repr

def selectOne {α : Type} (rows : List α) : Except Failure α :=
  match rows with
  | [] => .error .ENOENT
  | [row] => .ok row
  | _ => .error .E_TOO_MANY_ROWS

def PermissionRow.isOf (row : PermissionRow) (clientId userId : String) : Bool :=
  row.client_id == clientId && row.user_id == userId

/-- An undefined user id is sent as `NULL`, which no row equals. -/
def getPermission (db : Db) (clientId : String) (userId : Option String) : Except Failure PermissionRow :=
  selectOne (db.permissions.filter fun row => userId.any (row.isOf clientId))

/-- `replace into`: the row is written in place of the one with its primary key. -/
def createPermission (db : Db) (clientId : String) (userId : Option String) (scope : String) :
    Except Failure Db :=
  match userId with
  | none => .error .ER_BAD_NULL_ERROR
  | some uid =>
    if db.users.any (fun u => u.cloud_id == uid) then
      .ok { db with permissions :=
              db.permissions.filter (fun row => !row.isOf clientId uid) ++ [⟨uid, clientId, scope⟩] }
    else .error .ER_NO_REFERENCED_ROW_2

def revokePermission (db : Db) (clientId userId : String) : Db :=
  { db with permissions := db.permissions.filter fun row => !row.isOf clientId userId }

/-- The foreign key of the permission table is `ON DELETE CASCADE`. -/
def deleteUser (db : Db) (cloudId : String) : Db :=
  { users := db.users.filter fun u => u.cloud_id != cloudId
    permissions := db.permissions.filter fun row => row.user_id != cloudId }

/-! ## The scope column -/

/-- `s.split(' ')`. -/
def split (s : String) : List String := (s.toList.splitOn ' ').map String.ofList

/-- `xs.join(' ')`. -/
def join (xs : List String) : String := String.ofList ([' '].intercalate (xs.map String.toList))

/-- `set.add(x)`, a `Set` listed in the order of insertion. -/
def add (xs : List String) (x : String) : List String := if x ∈ xs then xs else xs ++ [x]

theorem split_join {xs : List String} (hne : xs ≠ []) (hx : ∀ x ∈ xs, ' ' ∉ x.toList) :
    split (join xs) = xs := by
  have h : List.splitOn ' ' ([' '].intercalate (xs.map String.toList)) = xs.map String.toList := by
    refine List.splitOn_intercalate ' ' ?_ (by simpa using hne)
    intro l hl
    obtain ⟨x, hmem, rfl⟩ := List.mem_map.1 hl
    exact hx x hmem
  simp only [split, join, String.toList_ofList, h, List.map_map]
  exact (List.map_congr_left fun x _ => String.ofList_toList).trans (List.map_id xs)

theorem space_not_mem_of_mem_split {s x : String} (h : x ∈ split s) : ' ' ∉ x.toList := by
  obtain ⟨l, hl, rfl⟩ := List.mem_map.1 h
  rw [String.toList_ofList]
  exact notMem_of_mem_splitOn hl

theorem mem_add {xs : List String} {x y : String} : y ∈ add xs x ↔ y ∈ xs ∨ y = x := by
  simp only [add]
  split
  · next h => exact ⟨.inl, fun hy => hy.elim id (fun e => e ▸ h)⟩
  · simp only [List.mem_append, List.mem_singleton]

theorem mem_foldl_add {ys xs : List String} {y : String} : y ∈ ys.foldl add xs ↔ y ∈ xs ∨ y ∈ ys := by
  induction ys generalizing xs with
  | nil => simp only [List.foldl_nil, List.not_mem_nil, or_false]
  | cons z ys ih => rw [List.foldl_cons, ih, mem_add, List.mem_cons, or_assoc]

/-- What `createPermission` writes, `getPermission` finds. -/
theorem getPermission_createPermission {db db' : Db} {clientId scope uid : String}
    (h : createPermission db clientId (some uid) scope = .ok db') :
    getPermission db' clientId (some uid) = .ok ⟨uid, clientId, scope⟩ := by
  simp only [createPermission] at h
  split at h
  · cases h
    have hnil : (db.permissions.filter fun row => !row.isOf clientId uid).filter
        (fun row => row.isOf clientId uid) = [] := by
      simp only [List.filter_filter, List.filter_eq_nil_iff]
      intro row _
      cases row.isOf clientId uid <;> decide
    have hone : [PermissionRow.mk uid clientId scope].filter (fun row => row.isOf clientId uid) =
        [⟨uid, clientId, scope⟩] := by
      simp only [PermissionRow.isOf, List.filter_cons, beq_self_eq_true, Bool.and_self, if_true, List.filter_nil]
    simp only [getPermission, Option.any_some, List.filter_append, hnil, List.nil_append, hone, selectOne]
  · cases h

/-! ## Codes and tokens -/

inductive Kind
  | authorizationCode
  | refreshToken
  | accessToken
  | emailVerify
  | pwRecovery
  | dbproxy
  deriving DecidableEq, Repr

variable {Token : Type}

/-- A token the server has given out: what it was issued as, and the claims in it. -/
structure Issued (Token : Type) where
  kind : Kind
  claims : Claims
  token : Token
  deriving DecidableEq, Repr

variable (J : Library Token)

/-- `jwt.sign(payload, secret.getJWTSigningKey(), { expiresIn })`. -/
def sign (now : Nat) (kind : Kind) (payload : Claims) (expiresIn : Option Nat) : Issued Token :=
  ⟨kind, payload.stamp expiresIn now, J.sign payload expiresIn now⟩

def grantCode (now : Nat) (client redirectURI user : String) (scope : List String) : Issued Token :=
  sign J now .authorizationCode
    { sub := some client
      grant_type := some "authorization_code"
      user_id := some user
      redirect_uri := some redirectURI
      scope := some scope } (some 600)

/-- The refresh token of a code exchange; it never expires. -/
def signRefreshToken (now : Nat) (client : String) (decoded : Claims) : Issued Token :=
  sign J now .refreshToken
    { sub := some client
      user_id := decoded.user_id
      grant_type := some "refresh_token"
      scope := decoded.scope } none

/-- The access token of either exchange, valid for one hour. -/
def signAccessToken (now : Nat) (decoded : Claims) : Issued Token :=
  sign J now .accessToken
    { sub := decoded.user_id
      aud := some "oauth2"
      scope := decoded.scope } (some 3600)

/-- The options of both exchanges. -/
def ofClient (client : String) : VerifyOptions :=
  { algorithms := ["HS256"], subject := some client, clockTolerance := 30 }

/-- The code's claims, or `none` where the exchange answers `invalid_grant`. -/
def decodeCode (now : Nat) (client : String) (code : Token) (redirectURI : Option String) : Option Claims := do
  let decoded ← J.verify (ofClient client) now code
  if decoded.grant_type ≠ some "authorization_code" then none
  else if redirectURI.any (· ≠ "") ∧ decoded.redirect_uri ≠ redirectURI then none
  else some decoded

/-- The `Set` of the scopes already granted, empty if there is no permission row. -/
def allScopes (db : Db) (client : String) (userId : Option String) : Except Failure (List String) :=
  match getPermission db client userId with
  | .ok permission => .ok ((split permission.scope).foldl add [])
  | .error .ENOENT => .ok []
  | .error e => .error e

/-- What a `for` loop can run over: iterating over `undefined` throws. -/
def iterate : Option (List String) → Except Failure (List String)
  | some xs => .ok xs
  | none => .error .TypeError

/-- The transaction that follows: the refresh token, the permission, the access token. -/
def exchangeCode (now : Nat) (db : Db) (client : String) (decoded : Claims) :
    Except Failure (Db × Issued Token × Issued Token) := do
  let refreshToken := signRefreshToken J now client decoded
  let granted ← allScopes db client decoded.user_id
  let scopes ← iterate decoded.scope
  let db' ← createPermission db client decoded.user_id (join (scopes.foldl add granted))
  return (db', signAccessToken J now decoded, refreshToken)

/-- The claims of a token the refresh exchange takes, or `none` where it answers
`invalid_grant` (every exception is caught). -/
def decodeRefresh (now : Nat) (db : Db) (client : String) (refreshToken : Token) : Option Claims := do
  let decoded ← J.verify (ofClient client) now refreshToken
  let permission ← (getPermission db client decoded.user_id).toOption
  let scopes ← decoded.scope
  if scopes.all (split permission.scope).contains then some decoded else none

/-! ## What the exchanges take -/

theorem passes_ofClient {c : Claims} {client : String} {now : Nat} :
    c.passes (ofClient client) now = true ↔
      (∀ e, c.exp = some e → now < e + 30) ∧ (client = "" ∨ c.sub = some client) := by
  simp only [Claims.passes, ofClient, matchesOption, List.contains_cons, beq_self_eq_true, Bool.true_or,
    Bool.true_and, Bool.and_true, Bool.and_eq_true, Bool.or_eq_true, beq_iff_eq]
  refine and_congr_left fun _ => ?_
  cases c.exp with
  | none => simp only [Option.all_none, reduceCtorEq, false_implies, implies_true]
  | some e =>
    simp only [Option.all_some, Option.some.injEq, forall_eq']
    exact decide_eq_true_iff

/-- The permission row of the client and the user has every scope of the token. -/
def Permitted (db : Db) (client : String) (c : Claims) : Prop :=
  ∃ permission scopes, getPermission db client c.user_id = .ok permission ∧ c.scope = some scopes ∧
    ∀ x ∈ scopes, x ∈ split permission.scope

theorem permitted_user_id {db : Db} {client : String} {c : Claims} (h : Permitted db client c) :
    c.user_id ≠ none := by
  obtain ⟨permission, _, hp, -⟩ := h
  intro hn
  simp only [getPermission, hn, Option.any_none, List.filter_false, selectOne, reduceCtorEq] at hp

variable {J}

theorem decodeCode_eq_some {t : Token} {c : Claims} (h : J.Carries t c) {now : Nat} {client : String}
    {redirectURI : Option String} {d : Claims} :
    decodeCode J now client t redirectURI = some d ↔
      c = d ∧ c.passes (ofClient client) now = true ∧ c.grant_type = some "authorization_code" ∧
        ¬ (redirectURI.any (· ≠ "") ∧ c.redirect_uri ≠ redirectURI) := by
  simp only [decodeCode, Option.bind_eq_bind, Option.bind_eq_some_iff, h.verify_eq_some]
  constructor
  · rintro ⟨e, ⟨hp, rfl⟩, hd⟩
    split at hd
    · cases hd
    · next hg =>
      split at hd
      · cases hd
      · next hr => exact ⟨Option.some.inj hd, hp, not_not.1 hg, hr⟩
  · rintro ⟨rfl, hp, hg, hr⟩
    exact ⟨c, ⟨hp, rfl⟩, by rw [if_neg (not_not.2 hg), if_neg hr]⟩

theorem decodeRefresh_eq_some {t : Token} {c : Claims} (h : J.Carries t c) {now : Nat} {db : Db}
    {client : String} {d : Claims} :
    decodeRefresh J now db client t = some d ↔
      c = d ∧ c.passes (ofClient client) now = true ∧ Permitted db client c := by
  simp only [decodeRefresh, Option.bind_eq_bind, Option.bind_eq_some_iff, h.verify_eq_some]
  constructor
  · rintro ⟨e, ⟨hp, rfl⟩, permission, hperm, scopes, hs, hd⟩
    split at hd
    · next hall =>
      refine ⟨Option.some.inj hd, hp, permission, scopes, toOption_eq_some.1 hperm, hs, ?_⟩
      simpa only [List.all_eq_true, List.contains_iff_mem] using hall
    · cases hd
  · rintro ⟨rfl, hp, permission, scopes, hperm, hs, hall⟩
    refine ⟨c, ⟨hp, rfl⟩, permission, by rw [hperm]; rfl, scopes, hs, ?_⟩
    rw [if_pos]
    simpa only [List.all_eq_true, List.contains_iff_mem] using hall

theorem space_not_mem_of_allScopes {db : Db} {client : String} {userId : Option String} {xs : List String}
    (h : allScopes db client userId = .ok xs) : ∀ x ∈ xs, ' ' ∉ x.toList := by
  intro x hx
  simp only [allScopes] at h
  split at h
  · cases h
    rcases mem_foldl_add.1 hx with hx | hx
    · exact absurd hx List.not_mem_nil
    · exact space_not_mem_of_mem_split hx
  · cases h; exact absurd hx List.not_mem_nil
  · cases h

theorem exchangeCode_tokens {now : Nat} {db db' : Db} {client : String} {c : Claims}
    {access refresh : Issued Token} (h : exchangeCode J now db client c = .ok (db', access, refresh)) :
    access = signAccessToken J now c ∧ refresh = signRefreshToken J now client c := by
  simp only [exchangeCode] at h
  obtain ⟨_, -, h⟩ := bind_ok h
  obtain ⟨_, -, h⟩ := bind_ok h
  obtain ⟨_, -, h⟩ := bind_ok h
  cases h
  exact ⟨rfl, rfl⟩

/-- A code exchange leaves a permission row with every scope of the code. -/
theorem permitted_of_exchangeCode {now : Nat} {db db' : Db} {client : String} {c : Claims}
    {access refresh : Issued Token} (h : exchangeCode J now db client c = .ok (db', access, refresh))
    (hsp : ∀ scopes, c.scope = some scopes → ∀ x ∈ scopes, ' ' ∉ x.toList) : Permitted db' client c := by
  simp only [exchangeCode] at h
  obtain ⟨granted, hgranted, h⟩ := bind_ok h
  obtain ⟨scopes, hscopes, h⟩ := bind_ok h
  obtain ⟨db'', hcreate, h⟩ := bind_ok h
  cases h
  have hc : c.scope = some scopes := by
    cases hs : c.scope with
    | none => rw [hs] at hscopes; cases hscopes
    | some xs => rw [hs] at hscopes; cases hscopes; rfl
  cases hu : c.user_id with
  | none => rw [hu] at hcreate; cases hcreate
  | some uid =>
    rw [hu] at hcreate
    refine ⟨_, scopes, by rw [hu]; exact getPermission_createPermission hcreate, hc, ?_⟩
    intro x hx
    have hmem : x ∈ scopes.foldl add granted := mem_foldl_add.2 (.inr hx)
    rw [split_join (List.ne_nil_of_mem hmem)]
    · exact hmem
    · intro y hy
      rcases mem_foldl_add.1 hy with hy | hy
      · exact space_not_mem_of_allScopes hgranted y hy
      · exact hsp scopes hc y hy

/-- A code that has been exchanged is taken by the refresh exchange, with no redirect URI,
as long as it lives and the permission stays. -/
theorem exchanged_code_refreshes {t : Token} {c : Claims} (ht : J.Carries t c) {now now' : Nat} {db db' : Db}
    {client : String} {access refresh : Issued Token}
    (h : exchangeCode J now db client c = .ok (db', access, refresh))
    (hsp : ∀ scopes, c.scope = some scopes → ∀ x ∈ scopes, ' ' ∉ x.toList)
    (hlive : c.passes (ofClient client) now' = true) : decodeRefresh J now' db' client t = some c :=
  (decodeRefresh_eq_some ht).2 ⟨rfl, hlive, permitted_of_exchangeCode h hsp⟩

/-- So is the refresh token the exchange answers, at any time. -/
theorem refresh_token_refreshes (hJ : J.Documented) {now : Nat} {db db' : Db} {client : String} {c : Claims}
    {access refresh : Issued Token} (h : exchangeCode J now db client c = .ok (db', access, refresh))
    (hsp : ∀ scopes, c.scope = some scopes → ∀ x ∈ scopes, ' ' ∉ x.toList) (now' : Nat) :
    decodeRefresh J now' db' client refresh.token = some refresh.claims := by
  obtain ⟨permission, scopes, hp, hs, hall⟩ := permitted_of_exchangeCode h hsp
  obtain ⟨-, rfl⟩ := exchangeCode_tokens h
  refine (decodeRefresh_eq_some (hJ.sign _ _ _)).2 ⟨rfl, passes_ofClient.2 ⟨?_, .inr rfl⟩, permission, scopes, hp, hs, hall⟩
  intro e he
  cases he

end GenieCloud.Auth.OAuth2
