/-
  GenieCloud.Auth.Jwt — the two JWT libraries that sign and check the server's tokens:
  `jsonwebtoken` in the frontend, `golang-jwt` in the database proxy.

  Neither is in the repository, so they are a parameter: a `Library` says what their entry
  points compute under the one signing key, for tokens of some type. `Library.Documented` is
  what their documentation promises of a token signed with HS256 under that key: both
  read back the claims it was signed with (`Library.Carries`) and run the checks the caller
  asks for. `plain`, whose tokens are their claims, is `Documented`.

  A claim that is not in the payload is `none` (`undefined` in the frontend, the zero
  value in the database proxy). Times are in seconds.
-/

import Mathlib.Data.Option.Basic
import Mathlib.Data.String.Basic

namespace GenieCloud.Auth.Jwt

/-- The claims the server's tokens carry, of whatever kind. -/
structure Claims where
  sub : Option String := none
  aud : Option String := none
  iat : Option Nat := none
  exp : Option Nat := none
  grant_type : Option String := none
  user_id : Option String := none
  redirect_uri : Option String := none
  scope : Option (List String) := none
  email : Option String := none
  deriving DecidableEq, Repr

/-- The options the frontend gives to `jwt.verify`. -/
structure VerifyOptions where
  algorithms : List String
  audience : Option String := none
  subject : Option String := none
  clockTolerance : Nat := 0
  deriving DecidableEq, Repr

/-- The fields of golang-jwt's `StandardClaims` that the tokens use. -/
structure StandardClaims where
  Audience : String := ""
  ExpiresAt : Nat := 0
  IssuedAt : Nat := 0
  Subject : String := ""
  deriving DecidableEq, Repr

/-- `jwt.sign` dates the payload, and sets its expiration if `expiresIn` is given. -/
def Claims.stamp (c : Claims) (expiresIn : Option Nat) (now : Nat) : Claims :=
  { c with iat := some now, exp := match expiresIn with | some d => some (now + d) | none => c.exp }

/-- A wanted value that is falsy is not checked. -/
def matchesOption (want got : Option String) : Bool :=
  match want with
  | none => true
  | some w => w == "" || got == some w

/-- The checks of `jwt.verify` on a token signed with HS256. -/
def Claims.passes (c : Claims) (o : VerifyOptions) (now : Nat) : Bool :=
  o.algorithms.contains "HS256" && c.exp.all (fun e => decide (now < e + o.clockTolerance)) &&
    matchesOption o.audience c.aud && matchesOption o.subject c.sub

def Claims.standard (c : Claims) : StandardClaims :=
  { Audience := c.aud.getD "", ExpiresAt := c.exp.getD 0, IssuedAt := c.iat.getD 0, Subject := c.sub.getD "" }

/-- `StandardClaims` as JSON: every field is `omitempty`. -/
def StandardClaims.claims (g : StandardClaims) : Claims :=
  { sub := if g.Subject = "" then none else some g.Subject
    aud := if g.Audience = "" then none else some g.Audience
    iat := if g.IssuedAt = 0 then none else some g.IssuedAt
    exp := if g.ExpiresAt = 0 then none else some g.ExpiresAt }

/-- The libraries under the signing key, at a time where they read the clock. -/
structure Library (Token : Type) where
  /-- `jwt.sign(payload, key, { expiresIn })`. -/
  sign : Claims → Option Nat → Nat → Token
  /-- `jwt.verify(token, key, options)`. -/
  verify : VerifyOptions → Nat → Token → Option Claims
  /-- `jwt.NewWithClaims(jwt.SigningMethodHS256, claims).SignedString(key)`. -/
  signedString : StandardClaims → Token
  /-- `jwt.ParseWithClaims`, with the method check of its key function and the `Valid`
  method of its claims. -/
  parseWithClaims : (String → Bool) → (StandardClaims → Bool) → Token → Option StandardClaims
  /-- `StandardClaims.Valid`. -/
  standardValid : Nat → StandardClaims → Bool
  /-- `StandardClaims.VerifyAudience`. -/
  verifyAudience : StandardClaims → String → Bool → Bool

variable {Token : Type} (J : Library Token)

/-- Both libraries take the token for one signed with HS256 over these claims. -/
structure Library.Carries (t : Token) (c : Claims) : Prop where
  verify : ∀ o now, J.verify o now t = if c.passes o now then some c else none
  parse : ∀ keyFunc valid,
    J.parseWithClaims keyFunc valid t = if keyFunc "HS256" && valid c.standard then some c.standard else none

structure Library.Documented : Prop where
  sign : ∀ c expiresIn now, J.Carries (J.sign c expiresIn now) (c.stamp expiresIn now)
  signedString : ∀ g, J.Carries (J.signedString g) g.claims
  /-- A zero time is not checked, and there is no clock tolerance. -/
  standardValid : ∀ now g, J.standardValid now g = true ↔
    (g.ExpiresAt = 0 ∨ now ≤ g.ExpiresAt) ∧ (g.IssuedAt = 0 ∨ g.IssuedAt ≤ now)
  verifyAudience : ∀ g cmp, cmp ≠ "" → (J.verifyAudience g cmp true = true ↔ g.Audience = cmp)

/-! ## Tokens in the clear -/

/-- Tokens that are their claims. -/
def plain : Library Claims where
  sign := Claims.stamp
  verify o now c := if c.passes o now then some c else none
  signedString := StandardClaims.claims
  parseWithClaims keyFunc valid c :=
    if keyFunc "HS256" && valid c.standard then some c.standard else none
  standardValid now g :=
    decide ((g.ExpiresAt = 0 ∨ now ≤ g.ExpiresAt) ∧ (g.IssuedAt = 0 ∨ g.IssuedAt ≤ now))
  verifyAudience g cmp required := if g.Audience = "" then !required else g.Audience == cmp

theorem plain_carries (c : Claims) : plain.Carries c c := ⟨fun _ _ => rfl, fun _ _ => rfl⟩

theorem plain_documented : plain.Documented where
  sign c expiresIn now := plain_carries (c.stamp expiresIn now)
  signedString g := plain_carries g.claims
  standardValid now g := by simp only [plain, decide_eq_true_eq]
  verifyAudience g cmp hcmp := by
    simp only [plain, Bool.not_true]
    split
    · next h => simp only [h, Bool.false_eq_true, false_iff]; exact fun hc => hcmp hc.symm
    · simp only [beq_iff_eq]

/-! ## What a check that passes says -/

theorem Library.Carries.verify_eq_some {J : Library Token} {t : Token} {c : Claims} (h : J.Carries t c)
    {o : VerifyOptions} {now : Nat} {d : Claims} :
    J.verify o now t = some d ↔ c.passes o now = true ∧ c = d := by
  rw [h.verify]
  split
  · next hp => simp only [Option.some.injEq, hp, true_and]
  · next hp => simp only [reduceCtorEq, hp, false_and]

theorem aud_of_passes {c : Claims} {o : VerifyOptions} {now : Nat} (h : c.passes o now = true) {a : String}
    (ha : o.audience = some a) (hne : a ≠ "") : c.aud = some a := by
  simp only [Claims.passes, Bool.and_eq_true] at h
  have := h.1.2
  simpa only [ha, matchesOption, Bool.or_eq_true, beq_iff_eq, hne, false_or] using this

end GenieCloud.Auth.Jwt
