/-
  GenieCloud.Auth.EmailVerified — who may say that an account's address is its own
  (`routes/user.ts`: registration, profile, verification; `util/passport.ts`: Google and
  GitHub; `model/user.ts`: `verifyEmail`).

  An address is `Proven` for an account when the token of a verification link sent for
  both was presented, or when the account came from an identity provider that vouched for
  it. `verified_iff_careful`: every verified address is proven, and no profile edit makes
  one verified, as long as
  - no profile edit keeps the address of an account that is not verified (`POST /profile`
    stores `email_verified: !mustSendEmail`, which is true of any edit that keeps it), and
  - no link is followed for an address that is only equal to the stored one under the
    collation of the column.

  A request is made by whoever is logged in, so by any user; a password login changes
  nothing here. The equality of the collation (`ci`) is the database's.
-/

import GenieCloud.Auth.Tokens
import GenieCloud.Lib.Table
import GenieCloud.Lib.Utf16

namespace GenieCloud.Auth.EmailVerified

open GenieCloud.Auth.Jwt GenieCloud.Auth.OAuth2 GenieCloud.Auth.Tokens GenieCloud.Lib GenieCloud.Lib.Runs

/-- The fields of a user that identify it, and whether its address is verified. -/
structure UserRow where
  username : String
  email : Option String
  email_verified : Bool
  cloud_id : String
  google_id : Option String
  github_id : Option String
  deriving DecidableEq, Repr

structure St (Token : Type) where
  now : Nat
  users : Table UserRow
  issued : List (Issued Token)
  /-- The tokens of the verification links followed so far. -/
  presented : List (Issued Token)
  /-- Cloud ids and the addresses an identity provider vouched for at their creation. -/
  vouched : List (String × String)

variable {Token : Type} (J : Library Token) (ci : String → String → Bool)

/-! ## The table of users -/

/-- Equality on a nullable column: `NULL` equals nothing. -/
def equals (eq : String → String → Bool) : Option String → Option String → Bool
  | some a, some b => eq a b
  | _, _ => false

/-- A unique key of the table has the row's value in another row. -/
def taken (users : Table UserRow) (id : Nat) (row : UserRow) : Bool :=
  users.rows.any fun r => r.1 != id && (ci r.2.username row.username || equals ci r.2.email row.email ||
    r.2.cloud_id == row.cloud_id || equals (· == ·) r.2.google_id row.google_id ||
    equals (· == ·) r.2.github_id row.github_id)

def getByName (users : Table UserRow) (username : String) : List (Nat × UserRow) :=
  users.select fun _ u => ci u.username username

def getByEmail (users : Table UserRow) (email : Option String) : List (Nat × UserRow) :=
  users.select fun _ u => equals ci u.email email

def getByGoogleAccount (users : Table UserRow) (googleId : String) : List (Nat × UserRow) :=
  users.select fun _ u => u.google_id = some googleId

def getByGithubAccount (users : Table UserRow) (githubId : String) : List (Nat × UserRow) :=
  users.select fun _ u => u.github_id = some githubId

def create (users : Table UserRow) (row : UserRow) : Option (Table UserRow) :=
  if taken ci users users.next row then none else some (users.insert row)

def update (users : Table UserRow) (id : Nat) (row : UserRow) : Option (Table UserRow) :=
  if taken ci users id row then none else some (users.update (fun i _ => i = id) fun _ => row)

def verifyEmail (users : Table UserRow) (cloudId email : Option String) : Table UserRow :=
  users.update (fun _ u => cloudId.any (u.cloud_id == ·) && equals ci u.email email) fun u => { u with email_verified := true }

/-! ## The requests -/

def INVALID_USERNAMES : List String :=
  ["admin", "moderator", "administrator", "mod", "sys", "system", "community", "info", "you", "name", "username", "user",
    "nickname", "discourse", "discourseorg", "discourseforum", "support", "hp", "account-created", "password-reset",
    "admin-login", "confirm-admin", "account-created", "activate-account", "confirm-email-token", "authorize-email",
    "stanfordalmond", "almondstanford", "almond", "root", "noreply", "stanford"]

def extensions : List String :=
  ["js", "json", "css", "htm", "html", "xml", "jpg", "jpeg", "png", "gif", "bmp", "ico", "tif", "tiff", "woff"]

/-- The length of a JavaScript string. -/
def length (s : String) : Nat := (Utf16.encode s.toList).length

def toLowerCase (s : String) : List Char := s.toList.map Char.toLower

def validateUsername (username : String) : Bool :=
  !(length username > 60 || INVALID_USERNAMES.any (·.toList == toLowerCase username) ||
    username.toList.any (fun c => !(c.isAlphanum || c == '_' || c == '.' || c == '-')) ||
    extensions.any fun e => ('.' :: e.toList).isSuffixOf (toLowerCase username))

def validEmail (email : String) : Bool := !(!email.toList.contains '@' || length email > 255)

def St.issue (s : St Token) (tokens : List (Issued Token)) : St Token := { s with issued := s.issued ++ tokens }

/-- `POST /register`, with the cloud id it makes up. -/
def register (s : St Token) (username email cloudId : String) : Option (St Token) :=
  if !validateUsername username || !validEmail email then none
  else if getByName ci s.users username ≠ [] || getByEmail ci s.users (some email) ≠ [] then none
  else do
    let users ← create ci s.users
      { username, email := some email, email_verified := false, cloud_id := cloudId, google_id := none, github_id := none }
    St.issue { s with users := users } [sendValidationEmail J s.now cloudId email]

/-- The first login through a provider: with a verified account of that address, or a new one. -/
def firstLogin (s : St Token) (email : Option String) (associate : UserRow → UserRow) (row : UserRow) : Option (St Token) :=
  match getByEmail ci s.users email with
  | (id, byEmail) :: _ =>
    if byEmail.email_verified then do
      let users ← update ci s.users id (associate byEmail)
      some { s with users := users }
    else none
  | [] => do
    let users ← create ci s.users row
    let vouched := if row.email_verified then row.email.toList.map (row.cloud_id, ·) else []
    some { s with users := users, vouched := s.vouched ++ vouched }

/-- With the username that `autoAdjustUsername` finds, and the cloud id it makes up. -/
def authenticateGoogle (s : St Token) (profileId email username cloudId : String) : Option (St Token) :=
  if getByGoogleAccount s.users profileId ≠ [] then some s
  else firstLogin ci s (some email) (fun u => { u with google_id := some profileId })
    { username, email := some email, email_verified := true, cloud_id := cloudId, google_id := some profileId, github_id := none }

def authenticateGithub (s : St Token) (profileId : String) (email : Option String) (username cloudId : String) :
    Option (St Token) :=
  if getByGithubAccount s.users profileId ≠ [] then some s
  else firstLogin ci s email (fun u => { u with github_id := some profileId })
    { username, email := email, email_verified := email.any (· != ""), cloud_id := cloudId, google_id := none,
      github_id := some profileId }

def associateGoogle (s : St Token) (user : Nat) (profileId : String) : Option (St Token) := do
  let row ← s.users.get? user
  let users ← update ci s.users user { row with google_id := some profileId }
  some { s with users := users }

/-- The row `POST /profile` writes. -/
def profileRow (row : UserRow) (username email : String) : UserRow :=
  let username := if validateUsername username then username else row.username
  let email := if validEmail email then some email else row.email
  let mustSendEmail := email != row.email
  { row with username := username, email := email, email_verified := !mustSendEmail }

/-- `POST /profile`. When its mail is not accepted the transaction is rolled back. -/
def updateProfile (s : St Token) (user : Nat) (username email : String) (mail : Bool) : Option (St Token) := do
  let row ← s.users.get? user
  let row' := profileRow row username email
  let users ← update ci s.users user row'
  if row'.email_verified then some { s with users := users }
  else
    let t := s.issue [sendValidationEmail J s.now row.cloud_id (row'.email.getD "")]
    some (if mail then { t with users := users } else t)

def resendVerification (s : St Token) (user : Nat) : Option (St Token) := do
  let row ← s.users.get? user
  let email ← row.email
  if row.email_verified || email == "" then none
  else some (s.issue [sendValidationEmail J s.now row.cloud_id email])

/-- `GET /verify-email/:token`, with the `n`th token the server has given out. -/
def followLink (s : St Token) (user n : Nat) : Option (St Token) := do
  let row ← s.users.get? user
  let i ← s.issued[n]?
  let decoded ← decodeVerifyEmail J s.now row.cloud_id i.token
  some { s with users := verifyEmail ci s.users decoded.sub decoded.email, presented := s.presented ++ [i] }

inductive Request
  | wait (seconds : Nat)
  | login (user : Nat)
  | register (username email cloudId : String)
  | authenticateGoogle (profileId email username cloudId : String)
  | authenticateGithub (profileId : String) (email : Option String) (username cloudId : String)
  | associateGoogle (user : Nat) (profileId : String)
  | updateProfile (user : Nat) (username email : String) (mail : Bool)
  | resendVerification (user : Nat)
  | verifyEmail (user n : Nat)
  /-- A token of another kind is given out. -/
  | otherToken (kind : Kind) (payload : Claims) (expiresIn : Option Nat)
  | deleteUser (user : Nat)

/-- A request that is refused, or whose handler fails, is `none`. -/
def step (s : St Token) : Request → Option (St Token)
  | .wait seconds => some { s with now := s.now + seconds }
  | .login user => (s.users.get? user).map fun _ => s
  | .register username email cloudId => EmailVerified.register J ci s username email cloudId
  | .authenticateGoogle profileId email username cloudId =>
    EmailVerified.authenticateGoogle ci s profileId email username cloudId
  | .authenticateGithub profileId email username cloudId =>
    EmailVerified.authenticateGithub ci s profileId email username cloudId
  | .associateGoogle user profileId => EmailVerified.associateGoogle ci s user profileId
  | .updateProfile user username email mail => EmailVerified.updateProfile J ci s user username email mail
  | .resendVerification user => EmailVerified.resendVerification J s user
  | .verifyEmail user n => followLink J ci s user n
  | .otherToken kind payload expiresIn =>
    if kind ≠ .emailVerify ∧ payload.aud = audience kind then some (s.issue [sign J s.now kind payload expiresIn]) else none
  | .deleteUser user => some { s with users := s.users.delete fun i _ => i = user }

/-- No account, and nothing given out. -/
def init : St Token := ⟨0, Table.empty, [], [], []⟩

def server : System (St Token) Request where
  init s := s = init
  step := step J ci

/-! ## What a verified address rests on -/

/-- The address was proven to be the account's, or vouched for when the account was made. -/
def Proven (s : St Token) (cloudId e : String) : Prop :=
  (∃ i ∈ s.presented, i ∈ s.issued ∧ i.kind = .emailVerify ∧ i.claims.sub = some cloudId ∧ i.claims.email = some e) ∨
    (cloudId, e) ∈ s.vouched

def Verified (s : St Token) : Prop :=
  ∀ id row e, s.users.get? id = some row → row.email = some e → row.email_verified = true → Proven s row.cloud_id e

/-- Whoever is verified in `t` was so in `s`. -/
def NoneVerified (s t : St Token) : Prop :=
  ∀ id row row', s.users.get? id = some row → t.users.get? id = some row' → row'.email_verified = true →
    row.email_verified = true

/-- No profile edit that goes through keeps the address of an account that is not
    verified, and no link is followed for an address that only the collation takes for the
    stored one. -/
def Careful (s : St Token) : Request → Prop
  | .updateProfile user username email _ => ∀ row, s.users.get? user = some row →
      taken ci s.users user (profileRow row username email) = false →
      (profileRow row username email).email = row.email → row.email_verified = true
  | .verifyEmail user n => ∀ row i decoded, s.users.get? user = some row → s.issued[n]? = some i →
      decodeVerifyEmail J s.now row.cloud_id i.token = some decoded → ∀ id u e, s.users.get? id = some u →
      decoded.sub = some u.cloud_id → u.email = some e → equals ci u.email decoded.email = true →
      decoded.email = some e ∨ Proven s u.cloud_id e
  | _ => True

/-- The tokens given out carry the audience of their kind, and only they are presented. -/
structure Inv (s : St Token) : Prop where
  carries : ∀ i ∈ s.issued, J.Carries i.token i.claims
  aud : ∀ i ∈ s.issued, i.claims.aud = audience i.kind

variable {J ci} {s t : St Token}

theorem proven_issue {tokens : List (Issued Token)} {cloudId e : String} (h : Proven s cloudId e) :
    Proven (s.issue tokens) cloudId e := by
  rcases h with ⟨i, hp, hi, hk⟩ | h
  · exact Or.inl ⟨i, hp, List.mem_append_left _ hi, hk⟩
  · exact Or.inr h

/-- Every row comes from one with the same address, as verified as before. -/
theorem Verified.rows (h : Verified s)
    (hrows : ∀ id row, t.users.get? id = some row → row.email_verified = true →
      ∃ row', s.users.get? id = some row' ∧ row'.email = row.email ∧ row'.cloud_id = row.cloud_id ∧ row'.email_verified = true)
    (hp : ∀ cloudId e, Proven s cloudId e → Proven t cloudId e) : Verified t := by
  intro id row e hr he hv
  obtain ⟨row', hr', hemail, hcloud, hv'⟩ := hrows id row hr hv
  rw [← hcloud]
  exact hp _ _ (h id row' e hr' (hemail.trans he) hv')

theorem Verified.issue (h : Verified s) (tokens : List (Issued Token)) : Verified (s.issue tokens) :=
  h.rows (fun _ row hr hv => ⟨row, hr, rfl, rfl, hv⟩) fun _ _ => proven_issue

theorem Verified.create {users : Table UserRow} {row : UserRow} (h : Verified s)
    (hc : create ci s.users row = some users) (hu : t.users = users) (hp : ∀ cloudId e, Proven s cloudId e → Proven t cloudId e)
    (hrow : ∀ e, row.email = some e → row.email_verified = true → Proven t row.cloud_id e) : Verified t := by
  intro id u e hr he hv
  unfold EmailVerified.create at hc
  split at hc
  · cases hc
  · cases hc
    rw [hu, Table.get?_insert] at hr
    split at hr
    · obtain rfl := Option.some.inj hr
      exact hrow e he hv
    · exact hp _ _ (h id u e hr he hv)

theorem update_some {users users' : Table UserRow} {id : Nat} {row : UserRow} (h : update ci users id row = some users') :
    taken ci users id row = false ∧ ∀ i, users'.get? i = if i = id then (users.get? i).map fun _ => row else users.get? i := by
  unfold update at h
  split at h
  · cases h
  · rename_i htaken
    cases h
    refine ⟨by simpa using htaken, fun i => ?_⟩
    rw [Table.get?_update]
    by_cases hi : i = id
    · simp only [hi, decide_true, if_true]
    · simp only [hi, decide_false, Bool.false_eq_true, if_false, Option.map_id']

theorem Verified.update {users : Table UserRow} {id : Nat} {row row' : UserRow} (h : Verified s)
    (hr : s.users.get? id = some row) (hup : update ci s.users id row' = some users) (hu : t.users = users)
    (hrow : row'.email_verified = true → row.email = row'.email ∧ row.cloud_id = row'.cloud_id ∧ row.email_verified = true)
    (hp : ∀ cloudId e, Proven s cloudId e → Proven t cloudId e) : Verified t := by
  obtain ⟨-, hget⟩ := update_some hup
  refine h.rows (fun i u hu' hv => ?_) hp
  rw [hu, hget] at hu'
  split at hu'
  · rename_i hi
    subst hi
    rw [hr] at hu'
    obtain rfl := Option.some.inj hu'
    exact ⟨row, hr, hrow hv⟩
  · exact ⟨u, hu', rfl, rfl, hv⟩

/-! ## The requests one by one -/

theorem register_verified {username email cloudId : String} (h : Verified s)
    (hs : register J ci s username email cloudId = some t) : Verified t := by
  unfold register at hs
  split at hs
  · cases hs
  · split at hs
    · cases hs
    · obtain ⟨users, hc, hs⟩ := Option.bind_eq_some_iff.mp hs
      cases hs
      exact h.create hc rfl (fun _ _ hp => proven_issue hp) (fun _ _ hv => by cases hv)

theorem firstLogin_verified {email : Option String} {associate : UserRow → UserRow} {row : UserRow} (h : Verified s)
    (ha : ∀ u, (associate u).email = u.email ∧ (associate u).cloud_id = u.cloud_id ∧ (associate u).email_verified = u.email_verified)
    (hs : firstLogin ci s email associate row = some t) : Verified t := by
  unfold firstLogin at hs
  split at hs
  · rename_i id byEmail rest hby
    have hget : s.users.get? id = some byEmail :=
      (Table.mem_select.mp (show (id, byEmail) ∈ getByEmail ci s.users email from hby ▸ List.mem_cons_self)).1
    split at hs
    · obtain ⟨users, hup, hs⟩ := Option.bind_eq_some_iff.mp hs
      cases hs
      obtain ⟨h1, h2, h3⟩ := ha byEmail
      exact h.update hget hup rfl (fun hv => ⟨h1.symm, h2.symm, h3 ▸ hv⟩) (fun _ _ hp => hp)
    · cases hs
  · obtain ⟨users, hc, hs⟩ := Option.bind_eq_some_iff.mp hs
    cases hs
    refine h.create hc rfl (fun cloudId e hp => ?_) fun e he hv => ?_
    · rcases hp with hp | hp
      · exact Or.inl hp
      · exact Or.inr (List.mem_append_left _ hp)
    · refine Or.inr (List.mem_append_right _ ?_)
      rw [if_pos hv, he]
      exact List.mem_singleton.mpr rfl

theorem firstLogin_issued {email : Option String} {associate : UserRow → UserRow} {row : UserRow}
    (hs : firstLogin ci s email associate row = some t) : t.issued = s.issued := by
  unfold firstLogin at hs
  split at hs
  · split at hs
    · obtain ⟨users, -, hs⟩ := Option.bind_eq_some_iff.mp hs
      cases hs
      rfl
    · cases hs
  · obtain ⟨users, -, hs⟩ := Option.bind_eq_some_iff.mp hs
    cases hs
    rfl

theorem associateGoogle_verified {user : Nat} {profileId : String} (h : Verified s)
    (hs : associateGoogle ci s user profileId = some t) : Verified t := by
  obtain ⟨row, hr, hs⟩ := Option.bind_eq_some_iff.mp hs
  obtain ⟨users, hup, hs⟩ := Option.bind_eq_some_iff.mp hs
  cases hs
  exact h.update hr hup rfl (fun hv => ⟨rfl, rfl, hv⟩) (fun _ _ hp => hp)

/-- What a profile edit stores is verified exactly when the address stays. -/
theorem profileRow_verified {row : UserRow} {username email : String} :
    (profileRow row username email).email_verified = true ↔ (profileRow row username email).email = row.email := by
  simp [profileRow]

/-- What an edit does when it goes through. -/
theorem updateProfile_cases {user : Nat} {username email : String} {mail : Bool}
    (hs : updateProfile J ci s user username email mail = some t) :
    ∃ row users, s.users.get? user = some row ∧ update ci s.users user (profileRow row username email) = some users ∧
      ((profileRow row username email).email_verified = true ∧ t = { s with users := users } ∨
        (profileRow row username email).email_verified = false ∧
          ∃ e, t = { s.issue [sendValidationEmail J s.now row.cloud_id e] with users := users } ∨
            t = s.issue [sendValidationEmail J s.now row.cloud_id e]) := by
  obtain ⟨row, hr, hs⟩ := Option.bind_eq_some_iff.mp hs
  obtain ⟨users, hup, hs⟩ := Option.bind_eq_some_iff.mp hs
  refine ⟨row, users, hr, hup, ?_⟩
  split at hs
  · rename_i hv
    cases hs
    exact Or.inl ⟨hv, rfl⟩
  · rename_i hv
    cases hs
    refine Or.inr ⟨by simpa using hv, (profileRow row username email).email.getD "", ?_⟩
    cases mail with
    | true => exact Or.inl rfl
    | false => exact Or.inr rfl

theorem updateProfile_verified {user : Nat} {username email : String} {mail : Bool} (h : Verified s)
    (hok : Careful J ci s (.updateProfile user username email mail)) (hs : updateProfile J ci s user username email mail = some t) :
    Verified t ∧ NoneVerified s t := by
  obtain ⟨row, users, hr, hup, hcase⟩ := updateProfile_cases hs
  obtain ⟨htaken, hget⟩ := update_some hup
  have hkeep : (profileRow row username email).email_verified = true →
      row.email = (profileRow row username email).email ∧ row.cloud_id = (profileRow row username email).cloud_id ∧
        row.email_verified = true := by
    intro hv
    have he := profileRow_verified.mp hv
    exact ⟨he.symm, rfl, hok row hr htaken he⟩
  have hnone : t.users = users → NoneVerified s t := by
    intro hu id u u' hu0 hu1 hv
    rw [hu, hget] at hu1
    split at hu1
    · rename_i hid
      subst hid
      rw [hr] at hu0 hu1
      obtain rfl := Option.some.inj hu0
      obtain rfl := Option.some.inj hu1
      exact (hkeep hv).2.2
    · rw [hu0] at hu1
      rw [Option.some.inj hu1]
      exact hv
  rcases hcase with ⟨-, rfl⟩ | ⟨-, e, rfl | rfl⟩
  · exact ⟨h.update hr hup rfl hkeep (fun _ _ hp => hp), hnone rfl⟩
  · exact ⟨h.update hr hup rfl hkeep (fun _ _ hp => proven_issue hp), hnone rfl⟩
  · refine ⟨h.issue _, fun id u u' hu0 hu1 hv => ?_⟩
    have hu1' : s.users.get? id = some u' := hu1
    rw [hu0] at hu1'
    rw [Option.some.inj hu1']
    exact hv

theorem resendVerification_issue {user : Nat} (hs : resendVerification J s user = some t) :
    ∃ cloudId e, t = s.issue [sendValidationEmail J s.now cloudId e] := by
  obtain ⟨row, -, hs⟩ := Option.bind_eq_some_iff.mp hs
  obtain ⟨email, -, hs⟩ := Option.bind_eq_some_iff.mp hs
  split at hs
  · cases hs
  · exact ⟨row.cloud_id, email, (Option.some.inj hs).symm⟩

/-- The link of a token that passes was sent to verify an address. -/
theorem decodeVerifyEmail_kind (hi : Inv J s) {i : Issued Token} (hm : i ∈ s.issued) {cloudId : String} {decoded : Claims}
    (h : decodeVerifyEmail J s.now cloudId i.token = some decoded) : i.kind = .emailVerify ∧ i.claims = decoded := by
  obtain ⟨hp, he⟩ := (hi.carries i hm).verify_eq_some.mp h
  have haud : i.claims.aud = some "email-verify" := aud_of_passes hp rfl (by decide)
  exact ⟨audience_inj (by rw [← hi.aud i hm, haud]; rfl) (by rw [← hi.aud i hm, haud]; nofun), he⟩

theorem followLink_cases {user n : Nat} (hs : followLink J ci s user n = some t) :
    ∃ row i decoded, s.users.get? user = some row ∧ s.issued[n]? = some i ∧
      decodeVerifyEmail J s.now row.cloud_id i.token = some decoded ∧
      t = { s with users := verifyEmail ci s.users decoded.sub decoded.email, presented := s.presented ++ [i] } := by
  obtain ⟨row, hr, hs⟩ := Option.bind_eq_some_iff.mp hs
  obtain ⟨i, hn, hs⟩ := Option.bind_eq_some_iff.mp hs
  obtain ⟨decoded, hd, hs⟩ := Option.bind_eq_some_iff.mp hs
  exact ⟨row, i, decoded, hr, hn, hd, (Option.some.inj hs).symm⟩

theorem followLink_verified {user n : Nat} (hi : Inv J s) (h : Verified s) (hok : Careful J ci s (.verifyEmail user n))
    (hs : followLink J ci s user n = some t) : Verified t := by
  obtain ⟨row, i, decoded, hr, hn, hd, rfl⟩ := followLink_cases hs
  have hm := List.mem_of_getElem? hn
  obtain ⟨hkind, hclaims⟩ := decodeVerifyEmail_kind hi hm hd
  have hmono : ∀ {cloudId e : String}, Proven s cloudId e → Proven
      { s with users := verifyEmail ci s.users decoded.sub decoded.email, presented := s.presented ++ [i] } cloudId e := by
    rintro cloudId e (⟨j, hp, hj⟩ | hp)
    · exact Or.inl ⟨j, List.mem_append_left _ hp, hj⟩
    · exact Or.inr hp
  intro id u e hu he hv
  have hu' : (s.users.update _ _).get? id = some u := hu
  rw [Table.get?_update] at hu'
  obtain ⟨u0, hu0, hx⟩ := Option.map_eq_some_iff.mp hu'
  split at hx
  · rename_i hmatch
    subst hx
    obtain ⟨hsub, heq⟩ := (Bool.and_eq_true _ _).mp hmatch
    have hsub' : decoded.sub = some u0.cloud_id := by
      obtain ⟨c, hc, hcc⟩ := (Option.any_eq_true _ _).mp hsub
      rw [hc, beq_iff_eq.mp hcc]
    rcases hok row i decoded hr hn hd id u0 e hu0 hsub' he heq with hemail | hp
    · refine Or.inl ⟨i, List.mem_append_right _ (List.mem_singleton.mpr rfl), hm, hkind, ?_, ?_⟩
      · rw [hclaims]; exact hsub'
      · rw [hclaims]; exact hemail
    · exact hmono hp
  · subst hx
    exact hmono (h id u0 e hu0 he hv)

/-! ## Every run -/

theorem Inv.issue (hi : Inv J s) {i : Issued Token} (hc : J.Carries i.token i.claims) (ha : i.claims.aud = audience i.kind) :
    Inv J (s.issue [i]) := by
  constructor
  · intro j hj
    rcases List.mem_append.mp hj with hj | hj
    · exact hi.carries j hj
    · rw [List.mem_singleton.mp hj]; exact hc
  · intro j hj
    rcases List.mem_append.mp hj with hj | hj
    · exact hi.aud j hj
    · rw [List.mem_singleton.mp hj]; exact ha

theorem Inv.of_issued (hi : Inv J s) (h : t.issued = s.issued) : Inv J t :=
  ⟨h ▸ hi.carries, h ▸ hi.aud⟩

theorem step_verified (hi : Inv J s) (h : Verified s) {r : Request} (hok : Careful J ci s r) (hs : step J ci s r = some t) :
    Verified t := by
  cases r with
  | wait seconds => cases hs; exact h
  | login user =>
    obtain ⟨row, -, rfl⟩ := Option.map_eq_some_iff.mp hs
    exact h
  | register username email cloudId => exact register_verified h hs
  | authenticateGoogle profileId email username cloudId =>
    simp only [step, EmailVerified.authenticateGoogle] at hs
    split at hs
    · cases hs; exact h
    · refine firstLogin_verified h (fun _ => ?_) hs
      exact ⟨rfl, rfl, rfl⟩
  | authenticateGithub profileId email username cloudId =>
    simp only [step, EmailVerified.authenticateGithub] at hs
    split at hs
    · cases hs; exact h
    · refine firstLogin_verified h (fun _ => ?_) hs
      exact ⟨rfl, rfl, rfl⟩
  | associateGoogle user profileId => exact associateGoogle_verified h hs
  | updateProfile user username email mail => exact (updateProfile_verified h hok hs).1
  | resendVerification user =>
    obtain ⟨cloudId, e, rfl⟩ := resendVerification_issue hs
    exact h.issue _
  | verifyEmail user n => exact followLink_verified hi h hok hs
  | otherToken kind payload expiresIn =>
    simp only [step] at hs
    split at hs
    · cases hs; exact h.issue _
    · cases hs
  | deleteUser user =>
    cases hs
    refine h.rows (fun id row hr hv => ⟨row, ?_, rfl, rfl, hv⟩) (fun _ _ hp => hp)
    rw [Table.get?_delete] at hr
    exact (Option.filter_eq_some_iff.mp hr).1

theorem Inv.validation (hJ : J.Documented) (hi : Inv J s) (cloudId e : String) :
    Inv J (s.issue [sendValidationEmail J s.now cloudId e]) :=
  hi.issue (sendValidationEmail_wf hJ s.now cloudId e).carries (sendValidationEmail_wf hJ s.now cloudId e).shape.aud

theorem step_inv (hJ : J.Documented) (hi : Inv J s) {r : Request} (hs : step J ci s r = some t) : Inv J t := by
  cases r with
  | wait seconds => cases hs; exact hi.of_issued rfl
  | login user =>
    obtain ⟨row, -, rfl⟩ := Option.map_eq_some_iff.mp hs
    exact hi
  | register username email cloudId =>
    simp only [step, EmailVerified.register] at hs
    split at hs
    · cases hs
    · split at hs
      · cases hs
      · obtain ⟨users, -, hs⟩ := Option.bind_eq_some_iff.mp hs
        cases hs
        exact (hi.validation hJ cloudId email).of_issued rfl
  | authenticateGoogle profileId email username cloudId =>
    simp only [step, EmailVerified.authenticateGoogle] at hs
    split at hs
    · cases hs; exact hi
    · exact hi.of_issued (firstLogin_issued hs)
  | authenticateGithub profileId email username cloudId =>
    simp only [step, EmailVerified.authenticateGithub] at hs
    split at hs
    · cases hs; exact hi
    · exact hi.of_issued (firstLogin_issued hs)
  | associateGoogle user profileId =>
    obtain ⟨row, -, hs⟩ := Option.bind_eq_some_iff.mp hs
    obtain ⟨users, -, hs⟩ := Option.bind_eq_some_iff.mp hs
    cases hs
    exact hi.of_issued rfl
  | updateProfile user username email mail =>
    obtain ⟨row, users, -, -, ⟨-, rfl⟩ | ⟨-, e, rfl | rfl⟩⟩ := updateProfile_cases hs
    · exact hi.of_issued rfl
    · exact (hi.validation hJ row.cloud_id e).of_issued rfl
    · exact hi.validation hJ row.cloud_id e
  | resendVerification user =>
    obtain ⟨cloudId, e, rfl⟩ := resendVerification_issue hs
    exact hi.validation hJ cloudId e
  | verifyEmail user n =>
    obtain ⟨row, i, decoded, -, -, -, rfl⟩ := followLink_cases hs
    exact hi.of_issued rfl
  | otherToken kind payload expiresIn =>
    simp only [step] at hs
    split at hs
    · rename_i hk
      cases hs
      exact hi.issue (hJ.sign payload expiresIn s.now) hk.2
    · cases hs
  | deleteUser user => cases hs; exact hi.of_issued rfl

theorem verified (hJ : J.Documented) (h : Reach (server J ci) (Careful J ci) s) : Inv J s ∧ Verified s := by
  refine Reach.inv (P := fun s => Inv J s ∧ Verified s) (fun s hs => ?_) (fun s r t ih hok hs => ?_) h
  · cases hs
    refine ⟨⟨?_, ?_⟩, ?_⟩
    · intro i hi; cases hi
    · intro i hi; cases hi
    · intro id row e hr; cases hr
  · exact ⟨step_inv hJ ih.1 hs, step_verified ih.1 ih.2 hok hs⟩

/-- An edit that keeps an address makes it verified. -/
theorem updateProfile_keeps {user : Nat} {username email : String} {row : UserRow} (mail : Bool)
    (hr : s.users.get? user = some row) (ht : taken ci s.users user (profileRow row username email) = false)
    (he : (profileRow row username email).email = row.email) :
    ∃ t row', updateProfile J ci s user username email mail = some t ∧ t.users.get? user = some row' ∧
      row'.email_verified = true := by
  have hv := profileRow_verified.mpr he
  have hup : update ci s.users user (profileRow row username email) =
      some (s.users.update (fun i _ => i = user) fun _ => profileRow row username email) := by
    rw [update, if_neg (by rw [ht]; exact Bool.false_ne_true)]
  refine ⟨{ s with users := s.users.update (fun i _ => i = user) fun _ => profileRow row username email },
    profileRow row username email, ?_, ?_, hv⟩
  · simp only [updateProfile, hr, hup, hv, Option.bind_eq_bind, Option.bind_some, if_true]
  · rw [Table.get?_update, hr]
    simp only [decide_true, if_true, Option.map_some]

theorem careful_of_verified {user n : Nat} (hi : Inv J s) (hs : followLink J ci s user n = some t) (h : Verified t) :
    Careful J ci s (.verifyEmail user n) := by
  obtain ⟨row, i, decoded, hr, hn, hd, rfl⟩ := followLink_cases hs
  intro row' i' decoded' hr' hn' hd' id u e hu hsub he heq
  obtain rfl := Option.some.inj (hr.symm.trans hr')
  obtain rfl := Option.some.inj (hn.symm.trans hn')
  obtain rfl := Option.some.inj (hd.symm.trans hd')
  have hget : (verifyEmail ci s.users decoded.sub decoded.email).get? id = some { u with email_verified := true } := by
    rw [verifyEmail, Table.get?_update, hu, Option.map_some, if_pos]
    simp only [hsub, heq, Option.any_some, BEq.rfl, Bool.and_self]
  have hclaims := (decodeVerifyEmail_kind hi (List.mem_of_getElem? hn) hd).2
  rcases h id _ e hget he rfl with ⟨j, hj, hji, hk, hjsub, hje⟩ | hv
  · rcases List.mem_append.mp hj with hj | hj
    · exact Or.inr (Or.inl ⟨j, hj, hji, hk, hjsub, hje⟩)
    · rw [List.mem_singleton.mp hj, hclaims] at hje
      exact Or.inl hje
  · exact Or.inr (Or.inr hv)

/-- In a run whose requests meet the condition every verified address is proven; and the
    next request keeps it so, and makes none verified as a profile edit, exactly if it
    meets the condition. -/
theorem verified_iff_careful (hJ : J.Documented) (h : Reach (server J ci) (Careful J ci) s) :
    Verified s ∧ ∀ r t, step J ci s r = some t → (Careful J ci s r ↔
      Verified t ∧ ∀ user username email mail, r = .updateProfile user username email mail → NoneVerified s t) := by
  obtain ⟨hi, hv⟩ := verified hJ h
  refine ⟨hv, fun r t hs => ⟨fun hok => ⟨step_verified hi hv hok hs, ?_⟩, ?_⟩⟩
  · intro user username email mail hr
    subst hr
    exact (updateProfile_verified hv hok hs).2
  · intro ⟨ht, hnone⟩
    cases r with
    | updateProfile user username email mail =>
      intro row hr htaken he
      obtain ⟨t', row', hs', hr', hv'⟩ := updateProfile_keeps (J := J) mail hr htaken he
      obtain rfl := Option.some.inj (hs'.symm.trans hs)
      exact hnone user username email mail rfl user row row' hr hr' hv'
    | verifyEmail user n => exact careful_of_verified hi hs ht
    | wait | login | register | authenticateGoogle | authenticateGithub | associateGoogle | resendVerification
    | otherToken | deleteUser => trivial

/-! ## An account under someone else's address -/

/-- A collation that knows no case. -/
def foldCase (a b : String) : Bool := toLowerCase a == toLowerCase b

def registered : List Request := [.register "mallory" "alice@example.com" "c0ffee"]

/-- The account is made and its link is followed. -/
theorem link_is_followed :
    ∃ s t, run (server plain foldCase) init registered = some s ∧ step plain foldCase s (.verifyEmail 1 0) = some t ∧
      (t.users.get? 1).any (·.email_verified) = true ∧ Verified t := by
  have hok : ∀ r ∈ registered, ∀ s, Careful plain foldCase s r := by simp [registered, Careful]
  have h : Reach (server plain foldCase) (Careful plain foldCase) init := .init rfl
  refine ⟨_, _, rfl, rfl, rfl, ?_⟩
  refine (((verified_iff_careful plain_documented (h.run registered hok rfl)).2 (.verifyEmail 1 0) _ rfl).mp ?_).1
  intro row i decoded hr hn hd id u e hu _ he _
  cases hr
  have hu' := List.mem_singleton.mp (Table.mem_rows.mpr hu)
  cases hu'
  cases hn
  cases he
  cases hd
  exact Or.inl rfl

/-- The account is made, and an edit that keeps the address makes it verified. -/
theorem profile_edit_verifies :
    ∃ s t, run (server plain foldCase) init registered = some s ∧
      step plain foldCase s (.updateProfile 1 "mallory" "alice@example.com" true) = some t ∧
      t.presented = [] ∧ t.vouched = [] ∧ ¬Verified t ∧ ¬NoneVerified s t := by
  refine ⟨_, _, rfl, rfl, rfl, rfl, fun h => ?_, fun h => ?_⟩
  · rcases h 1 _ _ rfl rfl rfl with ⟨i, hi, -⟩ | hv
    · cases hi
    · cases hv
  · exact Bool.false_ne_true (h 1 _ _ rfl rfl rfl)

end GenieCloud.Auth.EmailVerified
