/-
  GenieCloud.Auth.SecondFactor — the second factor of a password login (`routes/user.ts`,
  `isAuthenticated` of `util/user.ts`, the strategies of `util/passport.ts`, `?auth=app`
  in `frontend.ts`), as one browser sees it.

  A session holds a user and the flag `completed2fa`. The browser presents any session,
  and any skip-2fa cookie, the server has given it; the value of that cookie is `yes`,
  whoever's code it was given for. Each session also remembers how its user logged in and
  what set its flag, and for whom, which nothing in the server reads.

  `bound_iff_own_cookie`: as long as every password login presents no cookie, or one given
  for that user's own code,
  - a session that a password logged in, of a user with a TOTP key, has `completed2fa`
    only if that user's own code was verified in this browser, or the flag was set for
    the user by an identity provider, a registration, a recovery or a 2fa setup, and
  - no cookie completes the second factor of another user than the one it was given for;
  and a login that presents another user's cookie breaks this, at once or when that user
  sets up the second factor.

  What other browsers do to the users (passwords, keys, new and deleted rows) may happen
  at any time. The check of a code against a key (`notp`, under the key that `secret.decrypt`
  recovers) is a parameter.
-/

import GenieCloud.Lib.Runs
import GenieCloud.Lib.Table

namespace GenieCloud.Auth.SecondFactor

open GenieCloud.Lib GenieCloud.Lib.Runs

structure UserRow where
  password : Option String
  totp_key : Option String
  auth_token : String
  deriving DecidableEq, Repr

/-- How the user of a session logged in. -/
inductive Login | password | identityProvider | registration | recovery | app
  deriving DecidableEq, Repr

/-- What set `completed2fa`; a cookie with the user whose code it was given for. -/
inductive Cause | code | cookie (owner : Nat) | identityProvider | registration | recovery | setup | app
  deriving DecidableEq, Repr

structure Session where
  user : Option Nat
  completed2fa : Bool
  login : Option Login
  completedBy : Option (Cause × Nat)
  deriving DecidableEq, Repr

structure St where
  now : Nat
  users : Table UserRow
  sessions : Table Session
  /-- The skip-2fa cookies given out, each as the user whose code was verified for it. -/
  cookies : List Nat
  /-- The users whose own code was verified. -/
  verified : List Nat

/-! ## A session and its request -/

def fresh : Session := ⟨none, false, none, none⟩

def Session.logIn (x : Session) (user : Nat) (login : Login) : Session := { x with user := some user, login := some login }

def Session.logout (x : Session) : Session := { x with user := none, login := none }

def Session.complete (x : Session) (cause : Cause) (user : Nat) : Session :=
  { x with completed2fa := true, completedBy := some (cause, user) }

def Session.reset (x : Session) : Session := { x with completed2fa := false, completedBy := none }

/-- The session a request presents, a new one if it presents none. -/
def St.session (s : St) (sid : Option Nat) : Session := (sid.bind s.sessions.get?).getD fresh

/-- `deserializeUser`: the user of the session. A session whose user is gone is refused. -/
def St.user (s : St) (sid : Option Nat) : Option (Option (Nat × UserRow)) :=
  match (s.session sid).user with
  | none => some none
  | some u => (s.users.get? u).map fun row => some (u, row)

def St.save (s : St) (sid : Option Nat) (x : Session) : St :=
  match sid.bind s.sessions.get? with
  | some _ => { s with sessions := s.sessions.update (fun i _ => some i = sid) fun _ => x }
  | none => { s with sessions := s.sessions.insert x }

def isAuthenticated (authMethod : Option String) (user : Option UserRow) (completed2fa : Bool) : Bool :=
  match user with
  | none => false
  | some user => authMethod = some "oauth2" || user.totp_key.isNone || completed2fa

/-! ## The requests -/

-- `totp.verify(code, secret.decrypt(encryptedKey), ..)` at a time
variable (verify : String → String → Nat → Bool)

/-- `POST /login`. A cookie that was not given out has no valid signature. -/
def login (s : St) (sid : Option Nat) (user : Nat) (password : String) (cookie : Option Nat) : Option St := do
  let _ ← s.user sid
  let row ← s.users.get? user
  guard (row.password = some password)
  let x := ((s.session sid).logIn user .password).reset
  match cookie.bind (s.cookies[·]?) with
  | some owner => some (s.save sid (x.complete (.cookie owner) user))
  | none => some (s.save sid x)

/-- `POST /2fa/login`, as the user of the session. -/
def login2fa (s : St) (sid : Option Nat) (code : String) (remember_me : Bool) : Option St := do
  let (user, row) ← (s.user sid).join
  let key ← row.totp_key
  guard (verify code key s.now)
  let t := s.save sid ((s.session sid).complete .code user)
  some { t with verified := user :: s.verified, cookies := if remember_me then s.cookies ++ [user] else s.cookies }

/-- `POST /2fa/setup`. The session is saved even when the transaction is not committed. -/
def setup2fa (s : St) (sid : Option Nat) (encrypted_key code : String) (commits : Bool) : Option St := do
  let (user, row) ← (s.user sid).join
  guard (isAuthenticated none (some row) (s.session sid).completed2fa)
  guard (verify code encrypted_key s.now)
  let t := s.save sid ((s.session sid).complete .setup user)
  let users := s.users.update (fun i _ => i = user) fun row => { row with totp_key := some encrypted_key }
  some (if commits then { t with users := users } else t)

def newUser (password : Option String) (auth_token : String) : UserRow := ⟨password, none, auth_token⟩

/-- An identity provider logs a user in: one it finds, or a new one. -/
def authenticate (s : St) (sid found : Option Nat) (auth_token : String) : Option St :=
  match found with
  | some user => do
    let _ ← s.users.get? user
    some (s.save sid (((s.session sid).logIn user .identityProvider).complete .identityProvider user))
  | none =>
    let user := s.users.next
    let t := s.save sid (((s.session sid).logIn user .identityProvider).complete .identityProvider user)
    some { t with users := s.users.insert (newUser none auth_token) }

/-- `/oauth2/google/callback`. The account of a user who is logged in is associated. -/
def google (s : St) (sid found : Option Nat) (auth_token : String) : Option St := do
  match (← s.user sid) with
  | some (user, _) => some (s.save sid ((s.session sid).complete .identityProvider user))
  | none => authenticate s sid found auth_token

/-- `/oauth2/github/callback`. -/
def github (s : St) (sid found : Option Nat) (auth_token : String) : Option St := do
  let _ ← s.user sid
  authenticate s sid found auth_token

/-- `POST /register`. The user is logged in before the verification mail is sent. -/
def register (s : St) (sid : Option Nat) (password auth_token : String) (mail : Bool) : Option St := do
  let _ ← s.user sid
  let user := s.users.next
  let x := (s.session sid).logIn user .registration
  let t := s.save sid (if mail then x.complete .registration user else x)
  some { t with users := s.users.insert (newUser (some password) auth_token) }

def logout (s : St) (sid : Option Nat) : Option St := do
  let _ ← s.user sid
  some (s.save sid (s.session sid).logout.reset)

/-- `POST /recovery/continue`, with a recovery token of the user. The transaction also
    records the login, after `req.login`. -/
def recovery (s : St) (sid : Option Nat) (user : Nat) (password code : String) (recorded : Bool) : Option St := do
  let _ ← s.user sid
  let row ← s.users.get? user
  guard (row.totp_key.all fun key => verify code key s.now)
  let x := (s.session sid).logIn user .recovery
  let t := { s.save sid (if recorded then x.complete .recovery user else x) with
    verified := if row.totp_key.isSome then user :: s.verified else s.verified }
  let users := s.users.update (fun i _ => i = user) fun row => { row with password := some password }
  some (if recorded then { t with users := users } else t)

/-- A request with `?auth=app`, before its own handler runs. -/
def app (s : St) (sid : Option Nat) (user : Nat) (auth_token : String) : Option St := do
  let _ ← s.user sid
  let row ← s.users.get? user
  guard (row.auth_token = auth_token)
  some (s.save sid (((s.session sid).logIn user .app).complete .app user))

/-- `POST /delete`. -/
def deleteUser (s : St) (sid : Option Nat) : Option St := do
  let (user, row) ← (s.user sid).join
  guard (isAuthenticated none (some row) (s.session sid).completed2fa)
  let t := s.save sid (s.session sid).logout
  some { t with users := s.users.delete fun i _ => i = user }

inductive Request
  | wait (seconds : Nat)
  | login (sid : Option Nat) (user : Nat) (password : String) (cookie : Option Nat)
  | login2fa (sid : Option Nat) (code : String) (remember_me : Bool)
  | setup2fa (sid : Option Nat) (encrypted_key code : String) (commits : Bool)
  | google (sid found : Option Nat) (auth_token : String)
  | github (sid found : Option Nat) (auth_token : String)
  | register (sid : Option Nat) (password auth_token : String) (mail : Bool)
  | logout (sid : Option Nat)
  | recovery (sid : Option Nat) (user : Nat) (password code : String) (recorded : Bool)
  | app (sid : Option Nat) (user : Nat) (auth_token : String)
  | deleteUser (sid : Option Nat)
  /-- Another browser changes a user, makes one or deletes one. -/
  | edit (user : Nat) (row : UserRow)
  | create (row : UserRow)
  | remove (user : Nat)

/-- A request that is refused is `none`. -/
def step (s : St) : Request → Option St
  | .wait seconds => some { s with now := s.now + seconds }
  | .login sid user password cookie => SecondFactor.login s sid user password cookie
  | .login2fa sid code remember_me => SecondFactor.login2fa verify s sid code remember_me
  | .setup2fa sid encrypted_key code commits => SecondFactor.setup2fa verify s sid encrypted_key code commits
  | .google sid found auth_token => SecondFactor.google s sid found auth_token
  | .github sid found auth_token => SecondFactor.github s sid found auth_token
  | .register sid password auth_token mail => SecondFactor.register s sid password auth_token mail
  | .logout sid => SecondFactor.logout s sid
  | .recovery sid user password code recorded => SecondFactor.recovery verify s sid user password code recorded
  | .app sid user auth_token => SecondFactor.app s sid user auth_token
  | .deleteUser sid => SecondFactor.deleteUser s sid
  | .edit user row => some { s with users := s.users.update (fun i _ => i = user) fun _ => row }
  | .create row => some { s with users := s.users.insert row }
  | .remove user => some { s with users := s.users.delete fun i _ => i = user }

/-- Any users, and a browser the server has not seen. -/
structure Start (s : St) : Prop where
  sessions : s.sessions = Table.empty
  cookies : s.cookies = []
  verified : s.verified = []

def browser : System St Request where
  init := Start
  step := step verify

/-! ## What the flag rests on -/

/-- The causes a session may have for its own user without a code of theirs. -/
def Cause.own : Cause → Bool
  | .identityProvider | .registration | .recovery | .setup => true
  | _ => false

structure Bound (s : St) : Prop where
  own : ∀ i x u row, s.sessions.get? i = some x → x.user = some u → s.users.get? u = some row → row.totp_key ≠ none →
    x.login = some .password → isAuthenticated none (some row) x.completed2fa = true →
    u ∈ s.verified ∨ ∃ c, c.own = true ∧ x.completedBy = some (c, u)
  cookie : ∀ i x u row owner, s.sessions.get? i = some x → s.users.get? u = some row → row.totp_key ≠ none →
    x.completedBy = some (.cookie owner, u) → owner = u

/-- A password login presents no cookie, or one given for that user's own code. -/
def OwnCookie (s : St) : Request → Prop
  | .login _ user _ cookie => ∀ k owner, cookie = some k → s.cookies[k]? = some owner → owner = user
  | _ => True

/-- The same of a session, whether or not its user has a key. -/
structure Good (verified : List Nat) (x : Session) : Prop where
  own : ∀ u, x.user = some u → x.login = some .password → x.completed2fa = true →
    u ∈ verified ∨ ∃ c, c.own = true ∧ x.completedBy = some (c, u)
  cookie : ∀ owner u, x.completedBy = some (.cookie owner, u) → owner = u

structure Inv (s : St) : Prop where
  good : ∀ i x, s.sessions.get? i = some x → Good s.verified x
  cookies : ∀ owner ∈ s.cookies, owner ∈ s.verified

variable {verify} {s t : St} {x : Session} {V W : List Nat}

theorem Inv.bound (hi : Inv s) : Bound s := by
  refine ⟨fun i x u row hx hu _ hk hl ha => ?_, fun i x u _ owner hx _ _ hc => (hi.good i x hx).cookie owner u hc⟩
  refine (hi.good i x hx).own u hu hl ?_
  simpa [isAuthenticated, Option.isNone_iff_eq_none, hk] using ha

theorem Good.mono (h : Good V x) (hV : ∀ u ∈ V, u ∈ W) : Good W x :=
  ⟨fun u hu hl hc => (h.own u hu hl hc).imp_left (hV u), h.cookie⟩

theorem good_fresh : Good V fresh := by
  constructor
  · intro u hu; cases hu
  · intro owner u hc; cases hc

/-- A login other than by password, which keeps the flag. -/
theorem Good.logIn (h : Good V x) {u : Nat} {l : Login} (hl : l ≠ .password) : Good V (x.logIn u l) :=
  ⟨fun _ _ hp => absurd (Option.some.inj hp) hl, h.cookie⟩

theorem Good.logout (h : Good V x) : Good V x.logout := by
  refine ⟨fun u hu => ?_, h.cookie⟩
  cases hu

theorem good_reset (x : Session) : Good V x.reset := by
  constructor
  · intro u _ _ hc; cases hc
  · intro owner u hc; cases hc

/-- The flag is set for the session's user, unless no password logged it in. -/
theorem good_complete {u : Nat} {c : Cause} (hc : ∀ owner, c = .cookie owner → owner = u)
    (hu : x.login = some .password → x.user = some u ∧ (u ∈ V ∨ c.own = true)) : Good V (x.complete c u) := by
  constructor
  · intro v hv hl _
    obtain ⟨hxu, h⟩ := hu hl
    obtain rfl : v = u := Option.some.inj (hv.symm.trans hxu)
    exact h.imp_right fun h => ⟨c, h, rfl⟩
  · intro owner v h
    cases h
    exact hc owner rfl

theorem Inv.session (hi : Inv s) (sid : Option Nat) : Good s.verified (s.session sid) := by
  unfold St.session
  cases h : sid.bind s.sessions.get? with
  | none => exact good_fresh
  | some x =>
    obtain ⟨i, -, hx⟩ := Option.bind_eq_some_iff.mp h
    exact hi.good i x hx

/-- After a save a session is the saved one or an old one. -/
theorem get?_save {sid : Option Nat} {y : Session} {i : Nat} (h : (s.save sid x).sessions.get? i = some y) :
    y = x ∨ s.sessions.get? i = some y := by
  unfold St.save at h
  split at h
  · rw [Table.get?_update] at h
    obtain ⟨z, hz, hy⟩ := Option.map_eq_some_iff.mp h
    split at hy
    · exact Or.inl hy.symm
    · exact Or.inr (hy ▸ hz)
  · rw [Table.get?_insert] at h
    split at h
    · exact Or.inl (Option.some.inj h).symm
    · exact Or.inr h

theorem save_rest (s : St) (sid : Option Nat) (x : Session) :
    (s.save sid x).users = s.users ∧ (s.save sid x).cookies = s.cookies ∧ (s.save sid x).verified = s.verified ∧
      (s.save sid x).now = s.now := by
  unfold St.save
  split <;> exact ⟨rfl, rfl, rfl, rfl⟩

/-- A request that saves one session. -/
theorem Inv.save (hi : Inv s) (sid : Option Nat) (hx : Good t.verified x) (hs : t.sessions = (s.save sid x).sessions)
    (hv : ∀ u ∈ s.verified, u ∈ t.verified) (hc : ∀ owner ∈ t.cookies, owner ∈ s.cookies ∨ owner ∈ t.verified) : Inv t := by
  constructor
  · intro i y hy
    rw [hs] at hy
    rcases get?_save hy with rfl | hy
    · exact hx
    · exact (hi.good i y hy).mono hv
  · intro owner ho
    exact (hc owner ho).elim (fun h => hv owner (hi.cookies owner h)) id

/-- One that verifies no code and gives no cookie. -/
theorem Inv.saves (hi : Inv s) (sid : Option Nat) (hx : Good s.verified x) (users : Table UserRow) :
    Inv { s.save sid x with users := users } := by
  obtain ⟨-, hc, hv, -⟩ := save_rest s sid x
  have hgood : Good (s.save sid x).verified x := hv.symm ▸ hx
  refine hi.save sid hgood rfl ?_ ?_
  · exact fun u hu => hv.symm ▸ hu
  · exact fun owner ho => Or.inl (hc ▸ ho)

theorem Inv.users (hi : Inv s) (users : Table UserRow) : Inv { s with users := users } := ⟨hi.good, hi.cookies⟩

/-! ## The requests one by one -/

theorem login_inv {sid : Option Nat} {user : Nat} {password : String} {cookie : Option Nat} (hi : Inv s)
    (hok : OwnCookie s (.login sid user password cookie)) (hs : login s sid user password cookie = some t) : Inv t := by
  obtain ⟨_, -, hs⟩ := Option.bind_eq_some_iff.mp hs
  obtain ⟨row, -, hs⟩ := Option.bind_eq_some_iff.mp hs
  obtain ⟨_, -, hs⟩ := Option.bind_eq_some_iff.mp hs
  dsimp only at hs
  split at hs
  · rename_i owner hcookie
    obtain ⟨k, hk, hget⟩ := Option.bind_eq_some_iff.mp hcookie
    obtain rfl := hok k owner hk hget
    have hv : owner ∈ s.verified := hi.cookies owner (List.mem_of_getElem? hget)
    cases hs
    refine hi.saves sid (good_complete (fun v hv => ?_) fun _ => ⟨rfl, Or.inl hv⟩) (s.save sid _).users
    cases hv
    rfl
  · cases hs
    exact hi.saves sid (good_reset _) (s.save sid _).users

theorem user_eq_some {sid : Option Nat} {user : Nat} {row : UserRow} (h : (s.user sid).join = some (user, row)) :
    (s.session sid).user = some user ∧ s.users.get? user = some row := by
  rw [Option.join_eq_some_iff, St.user] at h
  split at h
  · cases h
  · rename_i u hu
    obtain ⟨row', hr, h⟩ := Option.map_eq_some_iff.mp h
    cases h
    exact ⟨hu, hr⟩

theorem login2fa_inv {sid : Option Nat} {code : String} {remember_me : Bool} (hi : Inv s)
    (hs : login2fa verify s sid code remember_me = some t) : Inv t := by
  obtain ⟨⟨user, row⟩, huser, hs⟩ := Option.bind_eq_some_iff.mp hs
  obtain ⟨key, -, hs⟩ := Option.bind_eq_some_iff.mp hs
  obtain ⟨_, -, hs⟩ := Option.bind_eq_some_iff.mp hs
  have hx : (s.session sid).user = some user := (user_eq_some huser).1
  cases hs
  refine hi.save sid (good_complete ?_ ?_ : Good _ ((s.session sid).complete .code user)) rfl ?_ ?_
  · intro owner h; cases h
  · exact fun _ => ⟨hx, Or.inl (List.mem_cons_self ..)⟩
  · exact fun u hu => List.mem_cons_of_mem _ hu
  · intro owner ho
    dsimp only at ho
    split at ho
    · rcases List.mem_append.mp ho with ho | ho
      · exact Or.inl ho
      · exact Or.inr (List.mem_singleton.mp ho ▸ List.mem_cons_self ..)
    · exact Or.inl ho

theorem setup2fa_inv {sid : Option Nat} {encrypted_key code : String} {commits : Bool} (hi : Inv s)
    (hs : setup2fa verify s sid encrypted_key code commits = some t) : Inv t := by
  obtain ⟨⟨user, row⟩, huser, hs⟩ := Option.bind_eq_some_iff.mp hs
  obtain ⟨_, -, hs⟩ := Option.bind_eq_some_iff.mp hs
  obtain ⟨_, -, hs⟩ := Option.bind_eq_some_iff.mp hs
  have hx : Good s.verified ((s.session sid).complete .setup user) := by
    refine good_complete (fun owner h => ?_) fun _ => ⟨(user_eq_some huser).1, Or.inr rfl⟩
    cases h
  cases hs
  split
  · exact hi.saves sid hx _
  · exact hi.saves sid hx (s.save sid _).users

/-- What a provider, or `?auth=app`, does with the session of a request. -/
theorem good_logIn_complete (x : Session) {u : Nat} {l : Login} {c : Cause} (hl : l ≠ .password)
    (hc : ∀ owner, c = .cookie owner → owner = u) : Good V ((x.logIn u l).complete c u) :=
  good_complete hc fun h => absurd (Option.some.inj h) hl

theorem authenticate_inv {sid found : Option Nat} {auth_token : String} (hi : Inv s)
    (hs : authenticate s sid found auth_token = some t) : Inv t := by
  unfold authenticate at hs
  split at hs
  · rename_i user
    obtain ⟨_, -, hs⟩ := Option.bind_eq_some_iff.mp hs
    cases hs
    exact hi.saves sid (good_logIn_complete _ (by decide) (fun _ h => by cases h)) (s.save sid _).users
  · cases hs
    exact hi.saves sid (good_logIn_complete _ (by decide) (fun _ h => by cases h)) _

theorem google_inv {sid found : Option Nat} {auth_token : String} (hi : Inv s)
    (hs : google s sid found auth_token = some t) : Inv t := by
  obtain ⟨user?, huser, hs⟩ := Option.bind_eq_some_iff.mp hs
  cases user? with
  | none => exact authenticate_inv hi hs
  | some user =>
    have hu := (user_eq_some (Option.join_eq_some_iff.mpr huser)).1
    cases hs
    refine hi.saves sid (good_complete (fun owner h => ?_) fun _ => ⟨hu, Or.inr rfl⟩) (s.save sid _).users
    cases h

theorem register_inv {sid : Option Nat} {password auth_token : String} {mail : Bool} (hi : Inv s)
    (hs : register s sid password auth_token mail = some t) : Inv t := by
  obtain ⟨_, -, hs⟩ := Option.bind_eq_some_iff.mp hs
  cases hs
  refine hi.saves sid ?_ _
  split
  · exact good_logIn_complete _ (by decide) (fun _ h => by cases h)
  · exact (hi.session sid).logIn (by decide)

theorem recovery_inv {sid : Option Nat} {user : Nat} {password code : String} {recorded : Bool} (hi : Inv s)
    (hs : recovery verify s sid user password code recorded = some t) : Inv t := by
  obtain ⟨_, -, hs⟩ := Option.bind_eq_some_iff.mp hs
  obtain ⟨row, -, hs⟩ := Option.bind_eq_some_iff.mp hs
  obtain ⟨_, -, hs⟩ := Option.bind_eq_some_iff.mp hs
  have hx : Good s.verified (if recorded then ((s.session sid).logIn user .recovery).complete .recovery user
      else (s.session sid).logIn user .recovery) := by
    split
    · exact good_logIn_complete _ (by decide) (fun _ h => by cases h)
    · exact (hi.session sid).logIn (by decide)
  have hv : ∀ u ∈ s.verified, u ∈ if row.totp_key.isSome then user :: s.verified else s.verified := by
    intro u hu
    split
    · exact List.mem_cons_of_mem _ hu
    · exact hu
  have hc := (save_rest s sid (if recorded then ((s.session sid).logIn user .recovery).complete .recovery user
      else (s.session sid).logIn user .recovery)).2.1
  have hsave : Inv { s.save sid (if recorded then ((s.session sid).logIn user .recovery).complete .recovery user
      else (s.session sid).logIn user .recovery) with
      verified := if row.totp_key.isSome then user :: s.verified else s.verified } :=
    hi.save sid (hx.mono hv) rfl hv fun owner ho => Or.inl (hc ▸ ho)
  cases hs
  cases recorded with
  | true => exact hsave.users _
  | false => exact hsave

theorem step_inv (hi : Inv s) {r : Request} (hok : OwnCookie s r) (hs : step verify s r = some t) : Inv t := by
  cases r with
  | wait seconds => cases hs; exact ⟨hi.good, hi.cookies⟩
  | edit user row => cases hs; exact hi.users _
  | create row => cases hs; exact hi.users _
  | remove user => cases hs; exact hi.users _
  | login sid user password cookie => exact login_inv hi hok hs
  | login2fa sid code remember_me => exact login2fa_inv hi hs
  | setup2fa sid encrypted_key code commits => exact setup2fa_inv hi hs
  | google sid found auth_token => exact google_inv hi hs
  | github sid found auth_token =>
    obtain ⟨_, -, hs⟩ := Option.bind_eq_some_iff.mp hs
    exact authenticate_inv hi hs
  | register sid password auth_token mail => exact register_inv hi hs
  | logout sid =>
    obtain ⟨_, -, hs⟩ := Option.bind_eq_some_iff.mp hs
    cases hs
    exact hi.saves sid (good_reset _) (s.save sid _).users
  | recovery sid user password code recorded => exact recovery_inv hi hs
  | app sid user auth_token =>
    obtain ⟨_, -, hs⟩ := Option.bind_eq_some_iff.mp hs
    obtain ⟨_, -, hs⟩ := Option.bind_eq_some_iff.mp hs
    obtain ⟨_, -, hs⟩ := Option.bind_eq_some_iff.mp hs
    cases hs
    exact hi.saves sid (good_logIn_complete _ (by decide) (fun _ h => by cases h)) (s.save sid _).users
  | deleteUser sid =>
    obtain ⟨⟨user, row⟩, -, hs⟩ := Option.bind_eq_some_iff.mp hs
    obtain ⟨_, -, hs⟩ := Option.bind_eq_some_iff.mp hs
    cases hs
    exact hi.saves sid (hi.session sid).logout _

theorem inv (h : Reach (browser verify) OwnCookie s) : Inv s := by
  refine Reach.inv (P := Inv) (fun s hs => ?_) (fun s r t hi hok (hs : step verify s r = some t) => step_inv hi hok hs) h
  constructor
  · intro i x hx
    rw [hs.sessions] at hx
    cases hx
  · intro owner ho
    rw [hs.cookies] at ho
    cases ho

/-! ## Every run -/

/-- A session saved under an id, or a new one, can be read back. -/
theorem save_get? (s : St) (sid : Option Nat) (x : Session) : ∃ i, (s.save sid x).sessions.get? i = some x := by
  unfold St.save
  split
  · rename_i y hy
    obtain ⟨i, rfl, hi⟩ := Option.bind_eq_some_iff.mp hy
    refine ⟨i, ?_⟩
    rw [Table.get?_update, hi]
    simp only [decide_true, if_true, Option.map_some]
  · refine ⟨s.sessions.next, ?_⟩
    rw [Table.get?_insert, if_pos rfl]

/-- A login with another user's cookie leaves a session that the cookie completes. -/
theorem login_completes {sid : Option Nat} {user k owner : Nat} {password : String} (hk : s.cookies[k]? = some owner)
    (hs : login s sid user password (some k) = some t) :
    ∃ row i x, t.users.get? user = some row ∧ t.sessions.get? i = some x ∧ x.completedBy = some (.cookie owner, user) := by
  obtain ⟨_, -, hs⟩ := Option.bind_eq_some_iff.mp hs
  obtain ⟨row, hr, hs⟩ := Option.bind_eq_some_iff.mp hs
  obtain ⟨_, -, hs⟩ := Option.bind_eq_some_iff.mp hs
  dsimp only [Option.bind_some] at hs
  rw [hk] at hs
  cases hs
  obtain ⟨i, hi⟩ := save_get? s sid ((((s.session sid).logIn user .password).reset).complete (.cookie owner) user)
  exact ⟨row, i, _, (save_rest s sid _).1 ▸ hr, hi, rfl⟩

/-- In a run whose password logins present no cookie of another user the second factor is
    bound to the user; and the next request keeps it so, in whatever follows, exactly if
    it presents none. -/
theorem bound_iff_own_cookie (h : Reach (browser verify) OwnCookie s) :
    Bound s ∧ ∀ r t, step verify s r = some t →
      (OwnCookie s r ↔ ∀ u, Path (browser verify) OwnCookie t u → Bound u) := by
  refine ⟨(inv h).bound, fun r t hs => ⟨fun hok u hp => (inv ((h.step r hok hs).path hp)).bound, fun hlater => ?_⟩⟩
  cases r with
  | login sid user password cookie =>
    intro k owner hcookie hk
    subst hcookie
    obtain ⟨row, i, x, hr, hx, hby⟩ := login_completes hk hs
    -- whoever has no key yet sets one up
    have hedit : step verify t (.edit user { row with totp_key := some "" }) =
        some { t with users := t.users.update (fun i _ => i = user) fun _ => { row with totp_key := some "" } } := rfl
    have hpath : Path (browser verify) OwnCookie t _ := .step (.edit user { row with totp_key := some "" }) .refl trivial hedit
    refine (hlater _ hpath).cookie i x user { row with totp_key := some "" } owner hx ?_ ?_ hby
    · rw [Table.get?_update, hr]
      simp only [decide_true, if_true, Option.map_some]
    · exact Option.some_ne_none _
  | wait | login2fa | setup2fa | google | github | register | logout | recovery | app | deleteUser | edit | create
  | remove => trivial

/-! ## Two users of one browser -/

/-- Alice and Bob, each with a password and a TOTP key. -/
def aliceAndBob : St where
  now := 0
  users := (Table.empty.insert ⟨some "hunter22", some "alice's key", "a"⟩).insert ⟨some "swordfish", some "bob's key", "b"⟩
  sessions := Table.empty
  cookies := []
  verified := []

/-- The code that a key shows is the key. -/
def shows (code key : String) (_ : Nat) : Bool := code == key

/-- Alice verifies her code, has the browser remember it, and logs out. -/
def aliceRemembers : List Request :=
  [.login none 1 "hunter22" none, .login2fa (some 1) "alice's key" true, .logout (some 1)]

theorem cookie_of_alice :
    ∃ s t, run (browser shows) aliceAndBob aliceRemembers = some s ∧ s.cookies = [1] ∧
      step shows s (.login (some 1) 1 "hunter22" (some 0)) = some t ∧
      (t.sessions.get? 1).any (fun x => x.user = some 1 ∧ x.completed2fa = true) = true ∧ Bound t := by
  have h0 : Reach (browser shows) OwnCookie aliceAndBob := .init ⟨rfl, rfl, rfl⟩
  have hok : ∀ r ∈ aliceRemembers, ∀ s, OwnCookie s r := by simp [aliceRemembers, OwnCookie]
  refine ⟨_, _, rfl, rfl, rfl, rfl, ?_⟩
  refine ((bound_iff_own_cookie (h0.run aliceRemembers hok rfl)).2 (.login (some 1) 1 "hunter22" (some 0)) _ rfl).mp ?_ _ .refl
  intro k owner hk hget
  cases hk
  cases hget
  rfl

/-- Bob logs in with his password and Alice's cookie, and needs no code. -/
theorem cookie_of_alice_for_bob :
    ∃ s t, run (browser shows) aliceAndBob aliceRemembers = some s ∧ s.cookies = [1] ∧
      step shows s (.login (some 1) 2 "swordfish" (some 0)) = some t ∧ 2 ∉ t.verified ∧ ¬Bound t := by
  refine ⟨_, _, rfl, rfl, rfl, by decide, fun h => ?_⟩
  rcases h.own 1 _ 2 _ rfl rfl rfl (by decide) rfl rfl with hv | ⟨c, hc, hby⟩
  · exact absurd hv (by decide)
  · cases hby
    cases hc

end GenieCloud.Auth.SecondFactor
