/-
  GenieCloud.Auth.Recovery — the request that sets a new password with a recovery token
  (`routes/user.ts`: POST /recovery/continue; `util/user.ts`: `resetPassword`).

  The handler runs in one transaction. What it answers and whom it logs in stay when the
  transaction is rolled back, so they are kept beside the tables; each statement, the
  start and the commit may fail, and an error ends in a page of its own.

  The token, the password, the user and the code are checked one after another. The block
  that checks the password answers that it is refused, and the handler goes on: it answers
  again and, where the other checks pass, sets the refused password (`reset_of_refused`).
  `sound_iff`: a request changes a row or logs in a user only if it is valid for them, and
  a request valid for nobody changes nothing and is answered once, exactly when that block
  is not entered and no commit after a refusal fails.

  `jwt.verify`, `notp` under `secret.decrypt`, and `hashPassword` are parameters.
-/

import GenieCloud.Auth.EmailVerified
import GenieCloud.Lib.Transaction

namespace GenieCloud.Auth.Recovery

open GenieCloud.Auth.Jwt GenieCloud.Lib GenieCloud.Lib.Transaction
open GenieCloud.Auth.EmailVerified (length)

/-! ## Requests -/

/-- A field of the body. -/
inductive Field (α : Type)
  | null
  | text (value : α)
  /-- An array, an object, a number or a boolean. -/
  | other

structure Body (Token : Type) where
  token : Option (Field Token)
  password : Option (Field String)
  confirm_password : Option (Field String)
  code : Option (Field String)

/-- A body that `validatePOST` lets pass; an empty code is as good as none. -/
structure Form (Token : Type) where
  token : Token
  password : String
  confirm_password : String
  code : Option String

def isControl (c : Char) : Bool :=
  c.toNat ≤ 0x08 || 0x0e ≤ c.toNat && c.toNat ≤ 0x1f || 0x7f ≤ c.toNat && c.toNat ≤ 0x9f

/-- The check of a `string`, which fails with the key. -/
def checkString {α : Type} (text : α → String) (key : String) : Option (Field α) → Except String α
  | some (.text value) =>
    if text value == "" || (text value).toList.any isControl then .error key else .ok value
  | _ => .error key

/-- The check of a `?string`. -/
def checkOptional (key : String) : Option (Field String) → Except String (Option String)
  | none | some .null => .ok none
  | some (.text value) => if value == "" then .ok none else (checkString id key (some (.text value))).map some
  | some .other => .error key

variable {Token : Type}

def validatePOST (text : Token → String) (body : Body Token) : Except String (Form Token) := do
  let token ← checkString text "token" body.token
  let password ← checkString id "password" body.password
  let confirm_password ← checkString id "confirm-password" body.confirm_password
  let code ← checkOptional "code" body.code
  return ⟨token, password, confirm_password, code⟩

/-! ## The server -/

structure UserRow where
  cloud_id : String
  salt : Option String
  password : Option String
  totp_key : Option String
  lastlog_time : Nat
  deriving DecidableEq, Repr

inductive Response
  | error (status : Nat) (message : String)
  /-- Status 400, with the error of `jwt.verify`. -/
  | invalidToken
  | password_recovery_continue (error : String)
  | message (message : String)
  /-- The error handler's page, for an error given to `next`. -/
  | failed
  deriving DecidableEq, Repr

structure World where
  users : Table UserRow
  responses : List Response
  /-- The users `req.login` was called with. -/
  logins : List Nat
  completed2fa : Bool

inductive Statement | getByCloudId | update | recordLogin
  deriving DecidableEq, Repr

inductive Failure | database | decrypt
  deriving DecidableEq, Repr

/-- What the request meets. -/
structure Env where
  now : Nat
  /-- What `makeRandom` returns. -/
  salt : String
  start : Bool
  works : Statement → Bool
  commit : Fate

abbrev Handler := EStateM Failure World Unit

def render (response : Response) : Handler :=
  modify fun s => { s with responses := s.responses ++ [response] }

variable (env : Env)

/-- A statement that fails throws. -/
def execute (statement : Statement) (f : World → World) : Handler :=
  if env.works statement then modify f else throw .database

/-- The error handler answers an error given to `next`. -/
def next (s : World) : World := { s with responses := s.responses ++ [.failed] }

/-- The commit of a transaction begun in `s`, or its rollback. -/
def conclude (s : World) : EStateM.Result Failure World Unit → World
  | .ok _ t =>
    match env.commit with
    | .works => t
    | .fails => next { t with users := s.users }
    | .lost => next t
  | .error _ t => next { t with users := s.users }

def withTransaction (handler : Handler) (s : World) : World :=
  if env.start then conclude env s (handler.run s) else next s

/-! ## The handler -/

-- `hashPassword(salt, password)`, and `totp.verify(code, secret.decrypt(key), ..)` at a time:
-- `none` if `decrypt` throws
variable (J : Library Token) (hashPassword : String → String → String)
  (verify : String → String → Nat → Option Bool)

def getByCloudId (users : Table UserRow) (cloudId : Option String) : List (Nat × UserRow) :=
  users.select fun _ row => cloudId.any (row.cloud_id == ·)

def update (users : Table UserRow) (id : Nat) (f : UserRow → UserRow) : Table UserRow :=
  users.update (fun i _ => i = id) f

def resetPassword (id : Nat) (password : String) : Handler :=
  execute env .update fun s => { s with users := update s.users id fun row =>
    { row with salt := some env.salt, password := some (hashPassword env.salt password) } }

def login (id : Nat) : Handler := modify fun s => { s with logins := s.logins ++ [id] }

def recordLogin (id : Nat) : Handler :=
  execute env .recordLogin fun s => { s with users := update s.users id fun row => { row with lastlog_time := env.now } }

def checkPassword (form : Form Token) : Except String Unit :=
  if length form.password < 8 ∨ length form.password > 255 then
    .error "You must specifiy a valid password (of at least 8 characters)"
  else if form.confirm_password ≠ form.password then
    .error "The password and the confirmation do not match"
  else .ok ()

/-- The block that catches its own error, which does not end the handler. -/
def reportPassword (form : Form Token) : Handler :=
  match checkPassword form with
  | .ok _ => pure ()
  | .error message => render (.password_recovery_continue message)

/-- The end of the handler, past every check. -/
def succeed (form : Form Token) (id : Nat) : Handler := do
  resetPassword env hashPassword id form.password
  login id
  recordLogin env id
  modify fun s => { s with completed2fa := true }
  render (.message "Your password was reset successfully.")

def checkCode (form : Form Token) (id : Nat) (user : UserRow) : Handler :=
  match user.totp_key with
  | none => succeed env hashPassword form id
  | some key =>
    match form.code with
    | none => render (.error 400 "OTP code missing.")
    | some code =>
      match verify code key env.now with
      | none => throw .decrypt
      | some false => render (.password_recovery_continue "Invalid OTP code")
      | some true => succeed env hashPassword form id

def checkUser (form : Form Token) (cloudId : Option String) : Handler := do
  execute env .getByCloudId id
  match getByCloudId (← get).users cloudId with
  | [] => render (.error 404 "The user for which you're resetting the password no longer exists.")
  | (id, user) :: _ => checkCode env hashPassword verify form id user

/-- `jwt.verify` of a recovery token. -/
def decode (token : Token) : Option Claims :=
  J.verify { algorithms := ["HS256"], audience := some "pw-recovery" } env.now token

def recoveryContinue (form : Form Token) : Handler :=
  match decode env J form.token with
  | none => render .invalidToken
  | some decoded => do
    reportPassword form
    checkUser env hashPassword verify form decoded.sub

-- the text of a token
variable (text : Token → String)

/-- `POST /recovery/continue`. -/
def request (body : Body Token) (s : World) : World :=
  match validatePOST text body with
  | .error key => { s with responses := s.responses ++ [.error 400 ("Missing or invalid parameter " ++ key)] }
  | .ok form => withTransaction env (recoveryContinue env J hashPassword verify form) s

/-! ## Valid requests -/

/-- The code that the user's key asks for is there and passes. -/
def CodeValid (form : Form Token) (user : UserRow) : Prop :=
  ∀ key, user.totp_key = some key → ∃ code, form.code = some code ∧ verify code key env.now = some true

structure Acceptable (form : Form Token) : Prop where
  atLeast : 8 ≤ length form.password
  atMost : length form.password ≤ 255
  confirmed : form.confirm_password = form.password

/-- The user with this cloud id has this id, and its code is valid. -/
def Checked (form : Form Token) (users : Table UserRow) (cloudId : Option String) (id : Nat) : Prop :=
  ∃ user rest, getByCloudId users cloudId = (id, user) :: rest ∧ CodeValid env verify form user

def Valid (form : Form Token) (users : Table UserRow) (id : Nat) : Prop :=
  (∃ decoded, decode env J form.token = some decoded ∧ Checked env verify form users decoded.sub id) ∧ Acceptable form

/-- The request is valid for a user. -/
def ValidFor (body : Body Token) (users : Table UserRow) (id : Nat) : Prop :=
  ∃ form, validatePOST text body = .ok form ∧ Valid env J verify form users id

/-- What a request makes of a world with these users. -/
def start (users : Table UserRow) : World := ⟨users, [], [], false⟩

/-- Rows change and users are logged in for valid requests only, and a request valid for
    nobody changes nothing and is answered once. -/
def Sound (body : Body Token) (users : Table UserRow) (t : World) : Prop :=
  (∀ id, t.users.get? id ≠ users.get? id ∨ id ∈ t.logins → ValidFor env J verify text body users id) ∧
    ((∀ id, ¬ ValidFor env J verify text body users id) → t.users = users ∧ t.responses.length = 1)

/-- The code that the user's key asks for is missing or wrong. -/
def CodeRefused (form : Form Token) (user : UserRow) : Prop :=
  ∃ key, user.totp_key = some key ∧ ∀ code, form.code = some code → verify code key env.now = some false

/-- The user is looked up and not there, or the code is refused. -/
def UserRefused (form : Form Token) (users : Table UserRow) (cloudId : Option String) : Prop :=
  env.works .getByCloudId = true ∧ ∀ id user rest, getByCloudId users cloudId = (id, user) :: rest →
    CodeRefused env verify form user

/-- A check other than the password's ends the handler. -/
def Refused (form : Form Token) (users : Table UserRow) : Prop :=
  ∀ decoded, decode env J form.token = some decoded → UserRefused env verify form users decoded.sub

/-- Where the token verifies the password is acceptable, and a handler that ends early
    commits. Of a body that `validatePOST` lets pass, in a transaction that starts. -/
def Careful (body : Body Token) (users : Table UserRow) : Prop :=
  ∀ form, validatePOST text body = .ok form → env.start = true →
    (∀ decoded, decode env J form.token = some decoded → Acceptable form) ∧
      (Refused env J verify form users → env.commit = .works)

/-! ## How the handler ends -/

variable {env J hashPassword verify text} {form : Form Token} {body : Body Token} {s t : World} {α β : Type}

theorem checkPassword_ok : checkPassword form = .ok () ↔ Acceptable form := by
  unfold checkPassword
  constructor
  · intro h
    split at h
    · cases h
    · next hl =>
      split at h
      · cases h
      · next hc => exact ⟨by omega, by omega, not_not.1 hc⟩
  · intro h
    have hl := h.atLeast
    have hm := h.atMost
    rw [if_neg (by omega), if_neg (not_not.2 h.confirmed)]

theorem run_bind_ok {m : EStateM Failure World α} {k : α → EStateM Failure World β} {a : α} (h : m.run s = .ok a t) :
    (m >>= k).run s = (k a).run t := by
  simp only [EStateM.run] at h
  simp only [EStateM.run, bind, EStateM.bind, h]

theorem run_bind_error {m : EStateM Failure World α} {k : α → EStateM Failure World β} {e : Failure}
    (h : m.run s = .error e t) : (m >>= k).run s = .error e t := by
  simp only [EStateM.run] at h
  simp only [EStateM.run, bind, EStateM.bind, h]

theorem execute_works {statement : Statement} {f : World → World} (h : env.works statement = true) :
    (execute env statement f).run s = .ok () (f s) := by
  unfold execute
  rw [if_pos h]
  rfl

theorem execute_fails {statement : Statement} {f : World → World} (h : ¬ env.works statement = true) :
    (execute env statement f).run s = .error .database s := by
  unfold execute
  rw [if_neg h]
  rfl

theorem run_get : (get : EStateM Failure World World).run s = .ok s s := rfl

theorem run_login {id : Nat} : (login id).run s = .ok () { s with logins := s.logins ++ [id] } := rfl

theorem run_render {response : Response} :
    (render response).run s = .ok () { s with responses := s.responses ++ [response] } := rfl

/-- What a piece of the handler can do: throw with nothing answered, answer that a check
    failed, or answer that the password is reset. -/
inductive Ends (s : World) (refused : Prop) (checked : Nat → Prop) : EStateM.Result Failure World Unit → Prop
  | throws (e : Failure) (t : World) : ¬ refused → t.responses = s.responses →
      (∀ id ∈ t.logins, id ∈ s.logins ∨ checked id) → Ends s refused checked (.error e t)
  | refuses (response : Response) : refused →
      Ends s refused checked (.ok () { s with responses := s.responses ++ [response] })
  | succeeds (id : Nat) (t : World) (response : Response) : checked id → t.responses = s.responses ++ [response] →
      t.logins = s.logins ++ [id] → (∀ i, i ≠ id → t.users.get? i = s.users.get? i) →
      Ends s refused checked (.ok () t)

theorem get?_update_ne {users : Table UserRow} {id i : Nat} {f : UserRow → UserRow} (h : i ≠ id) :
    (update users id f).get? i = users.get? i := by
  rw [update, Table.get?_update]
  simp only [h, decide_false, Bool.false_eq_true, if_false, Option.map_id']

theorem succeed_ends {id : Nat} {refused : Prop} {checked : Nat → Prop} (hr : ¬ refused) (hc : checked id) :
    Ends s refused checked ((succeed env hashPassword form id).run s) := by
  unfold succeed resetPassword recordLogin
  by_cases hu : env.works .update = true
  · rw [run_bind_ok (execute_works hu), run_bind_ok run_login]
    by_cases hl : env.works .recordLogin = true
    · rw [run_bind_ok (execute_works hl)]
      refine .succeeds id _ _ hc rfl rfl fun i hi => ?_
      exact (get?_update_ne hi).trans (get?_update_ne hi)
    · rw [run_bind_error (execute_fails hl)]
      refine .throws _ _ hr rfl fun i hi => ?_
      refine (List.mem_append.1 hi).imp_right fun h => ?_
      rwa [List.mem_singleton.1 h]
  · rw [run_bind_error (execute_fails hu)]
    exact .throws _ _ hr rfl fun i hi => .inl hi

theorem not_refused_of_valid {user : UserRow} (h : CodeValid env verify form user) :
    ¬ CodeRefused env verify form user := by
  intro hr
  obtain ⟨key, hk, hr⟩ := hr
  obtain ⟨code, hc, hv⟩ := h key hk
  cases (hr code hc).symm.trans hv

theorem checkCode_ends {id : Nat} {user : UserRow} {checked : Nat → Prop}
    (hc : CodeValid env verify form user → checked id) :
    Ends s (CodeRefused env verify form user) checked ((checkCode env hashPassword verify form id user).run s) := by
  unfold checkCode
  cases hk : user.totp_key with
  | none =>
    have hv : CodeValid env verify form user := by
      intro key h
      cases hk.symm.trans h
    exact succeed_ends (not_refused_of_valid hv) (hc hv)
  | some key =>
    cases hf : form.code with
    | none =>
      refine .refuses _ ⟨key, hk, fun code h => ?_⟩
      cases hf.symm.trans h
    | some code =>
      dsimp only
      cases hv : verify code key env.now with
      | none =>
        refine .throws _ _ (fun hr => ?_) rfl fun i hi => .inl hi
        obtain ⟨key', hk', hr⟩ := hr
        cases hk.symm.trans hk'
        cases hv.symm.trans (hr code hf)
      | some valid =>
        cases valid with
        | false =>
          refine .refuses _ ⟨key, hk, fun code' h => ?_⟩
          cases hf.symm.trans h
          exact hv
        | true =>
          have hvalid : CodeValid env verify form user := by
            intro key' hk'
            cases hk.symm.trans hk'
            exact ⟨code, hf, hv⟩
          exact succeed_ends (not_refused_of_valid hvalid) (hc hvalid)

variable {P P' : Prop} {Q Q' : Nat → Prop} {r : EStateM.Result Failure World Unit}

theorem Ends.congr (h : Ends s P Q r) (hP : P' ↔ P) (hQ : ∀ id, Q id → Q' id) : Ends s P' Q' r := by
  cases h with
  | throws e t hn hr hl => exact .throws e t (fun hp => hn (hP.1 hp)) hr fun id hi => (hl id hi).imp_right (hQ id)
  | refuses response hp => exact .refuses response (hP.2 hp)
  | succeeds id t response hq hr hl hu => exact .succeeds id t response (hQ id hq) hr hl hu

theorem checkUser_ends {cloudId : Option String} :
    Ends s (UserRefused env verify form s.users cloudId) (Checked env verify form s.users cloudId)
      ((checkUser env hashPassword verify form cloudId).run s) := by
  unfold checkUser
  by_cases hw : env.works .getByCloudId = true
  · rw [run_bind_ok (execute_works hw), run_bind_ok run_get]
    dsimp only [id]
    cases hu : getByCloudId s.users cloudId with
    | nil =>
      refine .refuses _ ⟨hw, fun id user rest h => ?_⟩
      cases hu.symm.trans h
    | cons found rest =>
      obtain ⟨id, user⟩ := found
      refine Ends.congr (checkCode_ends fun hv => ⟨user, rest, hu, hv⟩) ?_ fun _ h => h
      constructor
      · intro h
        exact h.2 id user rest hu
      · intro h
        refine ⟨hw, fun id' user' rest' h' => ?_⟩
        cases hu.symm.trans h'
        exact h
  · rw [run_bind_error (execute_fails hw)]
    exact .throws _ _ (fun h => hw h.1) rfl fun i hi => .inl hi

variable (hashPassword s) in
theorem recoveryContinue_ends (ha : ∀ decoded, decode env J form.token = some decoded → Acceptable form) :
    Ends s (Refused env J verify form s.users) (Valid env J verify form s.users)
      ((recoveryContinue env J hashPassword verify form).run s) := by
  unfold recoveryContinue
  cases hd : decode env J form.token with
  | none =>
    refine .refuses _ fun decoded h => ?_
    cases hd.symm.trans h
  | some decoded =>
    have hok := ha decoded hd
    have hreport : (reportPassword form).run s = .ok () s := by
      unfold reportPassword
      rw [checkPassword_ok.2 hok]
      rfl
    dsimp only
    rw [run_bind_ok hreport]
    refine Ends.congr checkUser_ends ?_ fun id h => ⟨⟨decoded, hd, h⟩, hok⟩
    constructor
    · intro h
      exact h decoded hd
    · intro h decoded' hd'
      cases hd.symm.trans hd'
      exact h

variable (hashPassword verify s) in
/-- The password is refused, and the handler answers before it looks the user up. -/
theorem run_refused_password {decoded : Claims} (hd : decode env J form.token = some decoded) (ha : ¬ Acceptable form) :
    ∃ error, (recoveryContinue env J hashPassword verify form).run s =
      (checkUser env hashPassword verify form decoded.sub).run
        { s with responses := s.responses ++ [.password_recovery_continue error] } := by
  unfold recoveryContinue
  rw [hd]
  dsimp only
  cases hp : checkPassword form with
  | ok u => exact absurd (checkPassword_ok.1 hp) ha
  | error error =>
    refine ⟨error, ?_⟩
    unfold reportPassword
    rw [hp]
    dsimp only
    rw [run_bind_ok run_render]

/-! ## How the transaction ends -/

theorem length_next : (next s).responses.length = s.responses.length + 1 := by
  simp [next]

theorem length_conclude_ok (u : World) : (conclude env u (.ok () t)).responses.length =
    t.responses.length + if env.commit = .works then 0 else 1 := by
  unfold conclude
  cases hc : env.commit with
  | works => rfl
  | fails => exact length_next
  | lost => exact length_next

theorem length_conclude_error {e : Failure} (u : World) :
    (conclude env u (.error e t)).responses.length = t.responses.length + 1 := length_next

theorem conclude_answers (h : Ends s P Q r) (u : World) :
    s.responses.length < (conclude env u r).responses.length := by
  cases h with
  | throws e t hn hr hl =>
    rw [length_conclude_error, hr]
    omega
  | refuses response hp =>
    rw [length_conclude_ok, List.length_append, List.length_singleton]
    omega
  | succeeds id t response hq hr hl hu =>
    rw [length_conclude_ok, hr, List.length_append, List.length_singleton]
    omega

variable (hashPassword verify s) in
theorem answered_again {decoded : Claims} (hd : decode env J form.token = some decoded) (ha : ¬ Acceptable form)
    (u : World) : s.responses.length + 1 <
      (conclude env u ((recoveryContinue env J hashPassword verify form).run s)).responses.length := by
  obtain ⟨error, he⟩ := run_refused_password hashPassword verify s hd ha
  have hl : s.responses.length + 1 = (s.responses ++ [Response.password_recovery_continue error]).length := by
    rw [List.length_append, List.length_singleton]
  have h : Ends { s with responses := s.responses ++ [.password_recovery_continue error] } _ _
      ((checkUser env hashPassword verify form decoded.sub).run
        { s with responses := s.responses ++ [.password_recovery_continue error] }) := checkUser_ends
  rw [he, hl]
  exact conclude_answers h u

theorem conclude_refused (h : Ends s P Q r) (hp : P) (hc : env.commit ≠ .works) (u : World) :
    s.responses.length + 1 < (conclude env u r).responses.length := by
  cases h with
  | throws e t hn hr hl => exact absurd hp hn
  | refuses response _ =>
    rw [length_conclude_ok, if_neg hc, List.length_append, List.length_singleton]
    omega
  | succeeds id t response hq hr hl hu =>
    rw [length_conclude_ok, if_neg hc, hr, List.length_append, List.length_singleton]
    omega

theorem conclude_logins (u : World) : (conclude env u (.ok () t)).logins = t.logins := by
  unfold conclude
  cases env.commit <;> rfl

variable (env t) in
theorem conclude_users (u : World) :
    (conclude env u (.ok () t)).users = t.users ∨ (conclude env u (.ok () t)).users = u.users := by
  unfold conclude
  cases env.commit with
  | works => exact .inl rfl
  | fails => exact .inr rfl
  | lost => exact .inl rfl

theorem conclude_sound {users : Table UserRow} (h : Ends (start users) P Q r) (hp : P → env.commit = .works) :
    (∀ id, (conclude env (start users) r).users.get? id ≠ users.get? id ∨ id ∈ (conclude env (start users) r).logins →
      Q id) ∧
      ((∀ id, ¬ Q id) → (conclude env (start users) r).users = users ∧
        (conclude env (start users) r).responses.length = 1) := by
  cases h with
  | throws e t hn hr hl =>
    refine ⟨fun id h => ?_, fun _ => ⟨rfl, ?_⟩⟩
    · rcases h with h | h
      · exact absurd rfl h
      · exact (hl id h).resolve_left List.not_mem_nil
    · rw [length_conclude_error, hr]
      rfl
  | refuses response hr =>
    have hc : conclude env (start users) (.ok () { start users with responses := [response] }) =
        { start users with responses := [response] } := by
      unfold conclude
      rw [hp hr]
    dsimp only [start, List.nil_append] at hc ⊢
    rw [hc]
    refine ⟨fun id h => ?_, fun _ => ⟨rfl, rfl⟩⟩
    rcases h with h | h
    · exact absurd rfl h
    · exact absurd h List.not_mem_nil
  | succeeds id t response hq hr hl hu =>
    refine ⟨fun i h => ?_, fun hno => absurd hq (hno id)⟩
    rw [conclude_logins, hl, List.mem_append, List.mem_singleton] at h
    rcases h with h | h | h
    · rcases conclude_users env t (start users) with e | e
      · rw [e] at h
        by_cases hi : i = id
        · rwa [hi]
        · exact absurd (hu i hi) h
      · exact absurd (congrArg (Table.get? · i) e) h
    · exact absurd h List.not_mem_nil
    · rwa [h]

/-! ## The refused password -/

variable (hashPassword form s) in
theorem succeed_works {id : Nat} {user : UserRow} (hw : ∀ statement, env.works statement = true)
    (hu : s.users.get? id = some user) : ∃ t row, (succeed env hashPassword form id).run s = .ok () t ∧
      t.logins = s.logins ++ [id] ∧ t.users.get? id = some row ∧
      row.password = some (hashPassword env.salt form.password) := by
  unfold succeed resetPassword recordLogin
  rw [run_bind_ok (execute_works (hw .update)), run_bind_ok run_login, run_bind_ok (execute_works (hw .recordLogin))]
  refine ⟨_, { user with
    salt := some env.salt
    password := some (hashPassword env.salt form.password)
    lastlog_time := env.now }, rfl, rfl, ?_, rfl⟩
  dsimp only
  rw [update, Table.get?_update, update, Table.get?_update, hu]
  simp only [decide_true, if_true, Option.map_some]

/-- The checks that come after the password's are enough to set a password that it refuses
    and to log the user in. -/
theorem reset_of_refused {users : Table UserRow} {decoded : Claims} {id : Nat} {user : UserRow}
    {rest : List (Nat × UserRow)} (hs : env.start = true) (hw : ∀ statement, env.works statement = true)
    (hc : env.commit = .works) (hd : decode env J form.token = some decoded) (ha : ¬ Acceptable form)
    (hu : getByCloudId users decoded.sub = (id, user) :: rest) (hv : CodeValid env verify form user) :
    ∃ row, id ∈ (withTransaction env (recoveryContinue env J hashPassword verify form) (start users)).logins ∧
      (withTransaction env (recoveryContinue env J hashPassword verify form) (start users)).users.get? id = some row ∧
      row.password = some (hashPassword env.salt form.password) := by
  obtain ⟨error, he⟩ := run_refused_password hashPassword verify (start users) hd ha
  have hget : users.get? id = some user := by
    have hm : (id, user) ∈ getByCloudId users decoded.sub := by
      rw [hu]
      exact List.mem_cons_self
    exact (Table.mem_select.1 hm).1
  have hcode (s : World) : (checkCode env hashPassword verify form id user).run s =
      (succeed env hashPassword form id).run s := by
    unfold checkCode
    cases hk : user.totp_key with
    | none => rfl
    | some key =>
      obtain ⟨code, hf, hv⟩ := hv key hk
      simp only [hf, hv]
  unfold withTransaction
  rw [if_pos hs, he]
  unfold checkUser
  rw [run_bind_ok (execute_works (hw .getByCloudId)), run_bind_ok run_get]
  dsimp only [id_eq, start]
  rw [hu]
  dsimp only
  rw [hcode]
  obtain ⟨t, row, ht, hl, hr, hp⟩ := succeed_works hashPassword form
    { users := users, responses := [] ++ [.password_recovery_continue error], logins := [], completed2fa := false } hw hget
  rw [ht]
  unfold conclude
  rw [hc]
  refine ⟨row, ?_, hr, hp⟩
  rw [hl]
  exact List.mem_cons_self

/-! ## Requests that keep the law -/

theorem not_valid_of_refused {users : Table UserRow} (h : Refused env J verify form users) (id : Nat) :
    ¬ Valid env J verify form users id := by
  intro hv
  obtain ⟨⟨decoded, hd, user, rest, hu, hc⟩, -⟩ := hv
  exact not_refused_of_valid hc ((h decoded hd).2 id user rest hu)

theorem validFor_iff {users : Table UserRow} (hf : validatePOST text body = .ok form) (id : Nat) :
    ValidFor env J verify text body users id ↔ Valid env J verify form users id := by
  constructor
  · intro h
    obtain ⟨form', hf', hv⟩ := h
    cases hf.symm.trans hf'
    exact hv
  · intro h
    exact ⟨form, hf, h⟩

theorem request_eq {users : Table UserRow} (hf : validatePOST text body = .ok form) (hs : env.start = true) :
    request env J hashPassword verify text body (start users) =
      conclude env (start users) ((recoveryContinue env J hashPassword verify form).run (start users)) := by
  unfold request withTransaction
  rw [hf]
  dsimp only
  rw [if_pos hs]

/-- A request that is refused before any check, in its form or at the start. -/
theorem unchanged_sound {users : Table UserRow} (response : Response)
    (h : request env J hashPassword verify text body (start users) = { start users with responses := [response] }) :
    Sound env J verify text body users (request env J hashPassword verify text body (start users)) := by
  rw [h]
  refine ⟨fun id h => ?_, fun _ => ⟨rfl, rfl⟩⟩
  rcases h with h | h
  · exact absurd rfl h
  · exact absurd h List.not_mem_nil

theorem careful_of_sound {users : Table UserRow}
    (h : Sound env J verify text body users (request env J hashPassword verify text body (start users))) :
    Careful env J verify text body users := by
  intro form hf hs
  -- a request valid for nobody is answered once
  have honce (hno : ∀ id, ¬ Valid env J verify form users id) :
      (conclude env (start users) ((recoveryContinue env J hashPassword verify form).run (start users))).responses.length
        = 1 := by
    rw [← request_eq hf hs]
    exact (h.2 fun id hv => hno id ((validFor_iff hf id).1 hv)).2
  have haccept (decoded : Claims) (hd : decode env J form.token = some decoded) : Acceptable form := by
    by_contra ha
    have h1 := honce fun id hv => ha hv.2
    have h2 := answered_again hashPassword verify (start users) hd ha (start users)
    omega
  refine ⟨haccept, fun hr => ?_⟩
  by_contra hc
  have h1 := honce (not_valid_of_refused hr)
  have h2 := conclude_refused (recoveryContinue_ends hashPassword (start users) haccept) hr hc
    (start users)
  omega

/-- A request keeps the law exactly if it is careful. -/
theorem sound_iff (users : Table UserRow) :
    Sound env J verify text body users (request env J hashPassword verify text body (start users)) ↔
      Careful env J verify text body users := by
  constructor
  · exact careful_of_sound
  · intro h
    cases hf : validatePOST text body with
    | error key =>
      refine unchanged_sound (.error 400 ("Missing or invalid parameter " ++ key)) ?_
      unfold request
      rw [hf]
      rfl
    | ok form =>
      by_cases hs : env.start = true
      · obtain ⟨ha, hc⟩ := h form hf hs
        rw [request_eq hf hs]
        obtain ⟨h1, h2⟩ := conclude_sound (recoveryContinue_ends hashPassword _ ha) hc
        refine ⟨fun id hch => (validFor_iff hf id).2 (h1 id hch), fun hno => h2 fun id hv => ?_⟩
        exact hno id ((validFor_iff hf id).2 hv)
      · refine unchanged_sound .failed ?_
        unfold request withTransaction
        rw [hf]
        dsimp only
        rw [if_neg hs]
        rfl

/-! ## A short password -/

def alice : Table UserRow := Table.empty.insert ⟨"alice0", some "old salt", some "old hash", none, 0⟩

def workingEnv : Env := ⟨60, "new salt", true, fun _ => true, .works⟩

/-- A live token of the user, with a short password and another confirmation. -/
def shortBody : Body Claims where
  token := some (.text { sub := some "alice0", aud := some "pw-recovery", iat := some 0, exp := some 1200 })
  password := some (.text "short")
  confirm_password := some (.text "other")
  code := none

def subject (token : Claims) : String := token.sub.getD ""

/-- The password is refused, and it is set: two answers, and the user is logged in. -/
theorem short_password_reset :
    (let t := request workingEnv plain (· ++ "$" ++ ·) (fun _ _ _ => none) subject shortBody (start alice)
     t.logins = [1] ∧ (t.users.get? 1).bind (·.password) = some "new salt$short" ∧ t.responses.length = 2) ∧
      ¬ Sound workingEnv plain (fun _ _ _ => none) subject shortBody alice
        (request workingEnv plain (· ++ "$" ++ ·) (fun _ _ _ => none) subject shortBody (start alice)) := by
  refine ⟨by decide, fun h => ?_⟩
  have hacc := (careful_of_sound h _ rfl rfl).1 _ rfl
  exact absurd hacc.atLeast (by decide)

end GenieCloud.Auth.Recovery
