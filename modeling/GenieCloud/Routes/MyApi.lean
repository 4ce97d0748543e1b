/-
  GenieCloud.Routes.MyApi — the user API under `/me/api` (`routes/my_api.ts`), the
  websockets it opens (`routes/my_conversation.ts`, `routes/cloud-sync.ts`) and the Google
  Assistant bridge mounted in front of it (`routes/bridges/gassistant`), as routers of
  `Lib.Router` over the bearer tokens of `Auth.Tokens`.

  A request has any path, parameters and messages. An answer says for whom the bearer
  strategy authenticated the request, with which scopes, which calls of which engine it
  made, and what it responds with. `express-ws` turns a websocket on a path into a `GET` of
  the path with `/.websocket` after it.

  `enforced_iff`: an authenticated request makes only calls that its scopes allow, unless it
  is a websocket to `/results` or `/conversation`. These two are registered with no scope
  check, so any token of the user attaches to the results or converses.
-/

import GenieCloud.Auth.Tokens
import GenieCloud.Lib.Json
import GenieCloud.Lib.Router

namespace GenieCloud.Routes.MyApi

open GenieCloud.Auth GenieCloud.Auth.Jwt GenieCloud.Lib GenieCloud.Lib.Router

/-! ## Requests and answers -/

/-- A field of a JSON or form body. -/
abbrev Field := Json.Value Int

inductive Method
  | GET
  | HEAD
  | POST
  | OPTIONS
  | other (name : String)
  deriving DecidableEq

inductive Intent
  | MAIN
  | SIGN_IN (status : String)
  | TEXT (input : String)

/-- The body of a request of the bridge: `user.accessToken` and the conversation. -/
structure AssistantBody (Token : Type) where
  accessToken : Option Token
  conversationId : String
  intent : Intent

/-- A body, its content type, and what the bridge reads of it (`none`: no `user` in it). -/
structure Body (Token : Type) where
  fields : List (String × Field) := []
  isJson : Bool := false
  assistant : Option (AssistantBody Token) := none

/-- The flags are those that are set. -/
structure ConversationQueryParams where
  hide_welcome : Bool
  id : Option String
  flags : List String
  skip_history : Bool
  sync_devices : Bool

inductive Message
  | text (data : String)
  | binary

inductive Kind (Token : Type)
  | http (method : Method) (body : Body Token)
  | websocket (query : ConversationQueryParams) (messages : List Message)

/-- A request: the segments of its path after the mount point, and the bearer token in it. -/
structure Request (Token : Type) where
  path : List String
  token : Option Token
  kind : Kind Token

structure ConversationOptions where
  replayHistory : Bool := false
  syncDevices : Bool := false
  showWelcome : Bool
  anonymous : Bool
  dialogueFlags : List String := []

/-- The calls on an engine, and on the conversations and connections it opens. -/
inductive Call
  | getOrOpenConversation (id : String) (options : ConversationOptions)
  | getOrOpenConversationWebSocket (id : String) (options : ConversationOptions)
  | handle (message : Field)
  | handleThingTalk (code : String)
  | handleCommand (command : String)
  | converse (command : Field) (conversationId : Option Field)
  | createDeviceAndReturnInfo (body : List (String × Field))
  | createAppAndReturnResults (code : Field) (body : List (String × Field))
  | deleteApp (appId : String)
  /-- All of them, or those that notify this address of this kind. -/
  | deleteAllApps (notifications : Option (String × String))
  | getDeviceInfos
  | getAppInfos
  | getAppInfo (appId : String)
  | addNotificationOutput
  | newConnection
  | onMessage (data : String)

structure Profile where
  id : String
  username : String
  full_name : String
  email : String
  email_verified : Bool
  locale : String
  timezone : String
  model_tag : Option String

inductive Response
  | error (status : Nat) (message : String)
  /-- 401, or 403 for a token that does not verify. -/
  | unauthorized
  | redirect (url : String)
  | empty
  | rendered (template : String)
  /-- The JSON of what the call returned. -/
  | result (call : Call)
  | profile (p : Profile)
  | websocket

/-- The user and the scopes of an authenticated request. -/
structure Principal where
  user : OAuth2.UserRow
  scope : List String

structure Answer where
  principal : Option Principal
  /-- Each with the user id of the engine. -/
  calls : List (Nat × Call)
  response : Response

/-- `req.headers.authorization`, `req.user` and `req.authInfo`. -/
structure State (Token : Type) where
  token : Option Token
  principal : Option Principal

/-- What a request finds: the clock, the users, the columns of a profile that the tokens do
    not use, the engines that `getEngine` finds, and the anonymous user. -/
structure World where
  now : Nat
  db : OAuth2.Db
  human_name : Nat → String
  locale : Nat → String
  timezone : Nat → String
  model_tag : Nat → Option String
  engine : Nat → Bool
  anonymous : OAuth2.UserRow

/-! ## Paths -/

variable {Token : Type}

def Request.method (r : Request Token) : Method :=
  match r.kind with
  | .http method _ => method
  | .websocket _ _ => .GET

def Request.body (r : Request Token) : Body Token :=
  match r.kind with
  | .http _ body => body
  | .websocket _ _ => {}

/-- The path that the routes are compared with. -/
def Request.url (r : Request Token) : List String :=
  match r.kind with
  | .http _ _ => r.path
  | .websocket _ _ => (if r.path.getLast? = some "" then r.path.dropLast else r.path) ++ [".websocket"]

inductive Segment
  | word (w : String)
  | param

/-- Words are compared without case. -/
def Segment.accepts : Segment → String → Bool
  | .word w, x => x.toLower == w
  | .param, x => x != ""

/-- A route's path, perhaps with a slash after it. -/
def endsAt : List Segment → List String → Bool
  | [], [] => true
  | [], [x] => x == ""
  | p :: ps, x :: xs => p.accepts x && endsAt ps xs
  | _, _ => false

def startsWith : List Segment → List String → Bool
  | [], _ => true
  | p :: ps, x :: xs => p.accepts x && startsWith ps xs
  | _, _ => false

abbrev Handler (Token : Type) := Request Token → State Token → Outcome (State Token) Answer

abbrev Route (Token : Type) := Layer (Request Token) (State Token) Answer

def useAt (path : List String) (handle : Handler Token) : Route Token where
  applies r := startsWith (path.map .word) r.url
  handle := handle

def get (path : List Segment) (handle : Handler Token) : Route Token where
  applies r := (r.method == .GET || r.method == .HEAD) && endsAt path r.url
  handle := handle

def post (path : List Segment) (handle : Handler Token) : Route Token where
  applies r := r.method == .POST && endsAt path r.url
  handle := handle

/-- A websocket route lets other requests pass. -/
def ws (path : List Segment) (handle : ConversationQueryParams → List Message → Handler Token) : Route Token :=
  get (path ++ [.word ".websocket"]) fun r s =>
    match r.kind with
    | .http _ _ => .next s
    | .websocket query messages => handle query messages r s

/-! ## Middleware -/

def answer (s : State Token) (calls : List (Nat × Call)) (response : Response) : Outcome (State Token) Answer :=
  .done ⟨s.principal, calls, response⟩

def fail (s : State Token) (status : Nat) (message : String) : Outcome (State Token) Answer :=
  answer s [] (.error status message)

/-- One call on an engine, whose result is the response. -/
def callEngine (w : World) (s : State Token) (id : Nat) (call : Call) : Outcome (State Token) Answer :=
  if w.engine id then answer s [(id, call)] (.result call) else fail s 500 "Internal Server Error"

/-- `passport.authenticate('bearer', { session: false })`. -/
def authenticateBearer (J : Library Token) (w : World) (s : State Token) : Outcome (State Token) Answer :=
  match s.token with
  | none => answer s [] .unauthorized
  | some token =>
    match Tokens.bearer J w.now w.db token with
    | none => answer s [] .unauthorized
    | some (user, scope) => .next { s with principal := some ⟨user, scope⟩ }

/-- `isAuthenticated` asks for no second factor of a request that came with a token. -/
def requireLogIn (r : Request Token) (s : State Token) : Outcome (State Token) Answer :=
  if s.principal.isSome then .next s
  else if r.method = .GET ∨ r.method = .HEAD then answer s [] (.redirect "/user/login")
  else fail s 401 "login_required"

def requireScope (scope : String) (s : State Token) : Outcome (State Token) Answer :=
  match s.principal with
  | none => .next s
  | some p => if p.scope.contains scope then .next s else fail s 403 "invalid scope"

/-- A route whose first handler is `requireScope`. -/
def withScope (scope : String) (handle : Handler Token) : Handler Token := fun r s =>
  (requireScope scope s).andThen (handle r)

def lookup (body : Body Token) (key : String) : Option Field := (body.fields.find? (·.1 == key)).map (·.2)

def truthy : Field → Bool
  | .null => false
  | .bool b => b
  | .num n => n != 0
  | .str s => s != ""
  | .arr _ | .obj _ => true

def isControl (c : Char) : Bool :=
  c.toNat ≤ 0x08 || 0x0e ≤ c.toNat && c.toNat ≤ 0x1f || 0x7f ≤ c.toNat && c.toNat ≤ 0x9f

inductive TypeSpec
  | string
  | optionalString

def checkString (value : Option Field) : Bool :=
  match value with
  | some (.str s) => s != "" && !s.toList.any isControl
  | _ => false

def checkKey (value : Option Field) : TypeSpec → Bool
  | .string => checkString value
  | .optionalString =>
    match value with
    | none | some .null | some (.str "") => true
    | _ => checkString value

def failKey (s : State Token) (key : String) : Outcome (State Token) Answer :=
  fail s 400 ("missing or invalid parameter " ++ key)

/-- `iv.validatePOST(keys, { accept: 'json', json: true })`. -/
def validatePOST (keys : List (String × TypeSpec)) (handle : Handler Token) : Handler Token := fun r s =>
  if !r.body.isJson then fail s 415 "invalid content-type"
  else match keys.find? fun k => !checkKey (lookup r.body k.1) k.2 with
    | some (key, _) => failKey s key
    | none => handle r s

/-! ## The bridge -/

variable (J : Library Token) (w : World)

/-- The token in the body replaces the one in the header. -/
def authenticateAssistant : Handler Token := fun r s =>
  match r.body.assistant with
  | none => fail s 500 "Internal Server Error"
  | some body =>
    match body.accessToken with
    | none => .next s
    | some token => authenticateBearer J w { s with token := some token }

/-- Whether the user is the anonymous one, and the user. -/
def retrieveUser (accessToken : Option Token) : Bool × OAuth2.UserRow :=
  match accessToken.bind (Tokens.bearer J w.now w.db) with
  | some (user, _) => (false, user)
  | none => (true, w.anonymous)

def openAssistant (body : AssistantBody Token) (showWelcome : Bool) (calls : List Call) (s : State Token) :
    Outcome (State Token) Answer :=
  let (anonymous, user) := retrieveUser J w body.accessToken
  let opened := .getOrOpenConversation ("google_assistant:" ++ body.conversationId) { showWelcome, anonymous }
  if w.engine user.id then answer s ((opened :: calls).map (user.id, ·)) (.result opened)
  else fail s 500 "Internal Server Error"

def fulfillment : Handler Token := fun r s =>
  match r.body.assistant with
  | none => fail s 500 "Internal Server Error"
  | some body =>
    match body.intent with
    | .MAIN => openAssistant J w body true [] s
    | .SIGN_IN status =>
      answer s [] (.rendered (if status = "OK" then "Thank you for signing in! What would you like to do next?"
        else "You were unable to log in. Is there something else you want to do?"))
    | .TEXT input =>
      if input = "bye" ∨ input = "goodbye" then answer s [] (.rendered "See you later!")
      else if input = "I want to sign in" then answer s [] (.rendered "To get your account details")
      else if ['\\', 't'].isPrefixOf input.toList then
        openAssistant J w body false [.handleThingTalk (String.ofList (input.toList.drop 3))] s
      else openAssistant J w body false [.handleCommand input] s

def gassistant : List (Route Token) :=
  [useAt [] (authenticateAssistant J w),
    useAt [] (fun _ s => requireScope "user-exec-command" s),
    post [.word "fulfillment"] (fulfillment J w)]

/-! ## The routes of my_api.ts -/

/-- The user's row for an email address, if any. -/
def getByEmail (email : String) : Option OAuth2.UserRow := w.db.users.find? (·.email == email)

def sms : Handler Token := fun r s =>
  match lookup r.body "From", lookup r.body "Body" with
  | some (.str phone), some (.str message) =>
    if message.toLower = "stop" ∨ message.toLower = "stop." then
      callEngine w s w.anonymous.id (.deleteAllApps (some ("twilio", phone)))
    else callEngine w s w.anonymous.id (.converse
      (.obj [("type", .str "command"), ("text", .str message), ("from", .str ("phone:" ++ phone))])
      (some (.str ("sms" ++ phone))))
  | _, _ => fail s 500 "Internal Server Error"

/-- The parameter is the address in base 64, which `decode` reads. -/
def unsubscribe (decode : String → String) : Handler Token := fun r s =>
  let email := decode (r.url.getD 2 "")
  let calls := [(w.anonymous.id, Call.deleteAllApps (some ("email", email)))]
  if !w.engine w.anonymous.id then fail s 500 "Internal Server Error"
  else match getByEmail w email with
    | none => answer s calls (.rendered "message")
    | some user =>
      if w.engine user.id then answer s (calls ++ [(user.id, .deleteAllApps none)]) (.rendered "message")
      else answer s calls (.error 500 "Internal Server Error")

/-- The messages that are handled: one that is no JSON ends the websocket. -/
def parsedMessages (messages : List Message) : List Field :=
  ((messages.map fun
    | .text data => Json.parse data
    | .binary => none).takeWhile Option.isSome).filterMap id

def conversationOptions (anonymous : Bool) (query : ConversationQueryParams) : ConversationOptions :=
  { replayHistory := !query.skip_history
    syncDevices := query.sync_devices
    showWelcome := !query.hide_welcome
    anonymous := anonymous
    dialogueFlags := query.flags }

/-- An anonymous conversation that is not named gets a random suffix. -/
def conversationId (anonymous : Bool) (query : ConversationQueryParams) : String :=
  (query.id.filter (· ≠ "")).getD (if anonymous then "web-" else "main")

/-- Messages that arrive before the conversation is open wait for it. -/
def doConversation (user : OAuth2.UserRow) (anonymous : Bool) (query : ConversationQueryParams)
    (messages : List Message) (s : State Token) : Outcome (State Token) Answer :=
  if w.engine user.id then
    let opened := .getOrOpenConversationWebSocket (conversationId anonymous query) (conversationOptions anonymous query)
    answer s ((opened :: (parsedMessages messages).map .handle).map (user.id, ·)) .websocket
  else answer s [] .websocket

def anonymous : ConversationQueryParams → List Message → Handler Token := fun query messages _ s =>
  if s.principal.isSome then answer s [] .websocket
  else doConversation w w.anonymous true query messages s

/-- What a route does for its user: `req.user!` is there after the bearer strategy. -/
def forUser (handle : OAuth2.UserRow → Handler Token) : Handler Token := fun r s =>
  match s.principal with
  | some p => handle p.user r s
  | none => fail s 500 "Internal Server Error"

def conversation : ConversationQueryParams → List Message → Handler Token := fun query messages =>
  forUser fun user _ s => doConversation w user false query messages s

def results : ConversationQueryParams → List Message → Handler Token := fun _ _ =>
  forUser fun user _ s =>
    answer s (if w.engine user.id then [(user.id, .addNotificationOutput)] else []) .websocket

/-- Text messages are relayed to the engine. -/
def sync : ConversationQueryParams → List Message → Handler Token := fun _ messages =>
  forUser fun user _ s =>
    let relayed := messages.filterMap fun
      | .text data => some (Call.onMessage data)
      | .binary => none
    answer s (if w.engine user.id then (.newConnection :: relayed).map (user.id, ·) else []) .websocket

def profile : Handler Token := fun _ s =>
  match s.principal with
  | some p => answer s [] (.profile
      { id := p.user.cloud_id
        username := p.user.username
        full_name := w.human_name p.user.id
        email := p.user.email
        email_verified := p.user.email_verified
        locale := w.locale p.user.id
        timezone := w.timezone p.user.id
        model_tag := w.model_tag p.user.id })
  | none => fail s 500 "Internal Server Error"

/-- Without a conversation the call is in one of its own. -/
def converse : Handler Token :=
  forUser fun user r s =>
    match (lookup r.body "command").filter truthy with
    | none => fail s 400 "Missing command"
    | some command => callEngine w s user.id (.converse command ((lookup r.body "conversationId").filter truthy))

def isScalar : Field → Bool
  | .str _ | .num _ | .bool _ => true
  | .null | .arr _ | .obj _ => false

def devicesCreate : Handler Token :=
  validatePOST [("kind", .string)] <| forUser fun user r s =>
    match r.body.fields.find? (!isScalar ·.2) with
    | some (key, _) => failKey s key
    | none => callEngine w s user.id (.createDeviceAndReturnInfo r.body.fields)

def appsCreate : Handler Token :=
  validatePOST [("code", .string), ("name", .optionalString), ("description", .optionalString), ("icon", .optionalString)]
    <| forUser fun user r s =>
      callEngine w s user.id (.createAppAndReturnResults ((lookup r.body "code").getD .null) r.body.fields)

/-- One call for the user, with a parameter of the path. -/
def forParam (call : String → Call) : Handler Token :=
  forUser fun user r s => callEngine w s user.id (call (r.url.getD 2 ""))

/-- The routes in front of the bearer strategy. -/
def publicRoutes (decode : String → String) : List (Route Token) :=
  [{ applies := fun r => r.method == .OPTIONS, handle := fun _ s => answer s [] .empty },
    useAt [] (fun _ s => .next s),
    post [.word "sms"] (sms w),
    post [.word "oauth2", .word "token"] (fun _ s => answer s [] .empty),
    get [.word "notifications", .word "unsubscribe", .param] (unsubscribe w decode),
    useAt ["oauth2", "authorize"] (fun _ s => .exit s),
    ws [.word "anonymous"] (anonymous w)]

def websocketRoutes : List (Route Token) :=
  [ws [.word "results"] (results w),
    ws [.word "conversation"] (conversation w)]

def scopedRoutes : List (Route Token) :=
  [get [.word "profile"] (withScope "profile" (profile w)),
    post [.word "converse"] (withScope "user-exec-command" (converse w)),
    get [.word "devices", .word "list"] (withScope "user-read" (forParam w fun _ => .getDeviceInfos)),
    post [.word "devices", .word "create"] (withScope "user-exec-command" (devicesCreate w)),
    post [.word "apps", .word "create"] (withScope "user-exec-command" (appsCreate w)),
    get [.word "apps", .word "list"] (withScope "user-read" (forParam w fun _ => .getAppInfos)),
    get [.word "apps", .word "get", .param] (withScope "user-read" (forParam w .getAppInfo)),
    post [.word "apps", .word "delete", .param] (withScope "user-exec-command" (forParam w .deleteApp))]

def syncRoutes : List (Route Token) :=
  [useAt ["sync"] (fun _ s => requireScope "user-sync" s),
    ws [.word "sync"] (sync w)]

def myApi (decode : String → String) : List (Route Token) :=
  publicRoutes w decode ++
    [useAt [] (fun _ s => authenticateBearer J w s), useAt [] requireLogIn] ++
    websocketRoutes w ++ scopedRoutes w ++ syncRoutes w ++
    [useAt [] (fun _ s => fail s 404 "Invalid endpoint")]

/-- What the frontend has under `/me/api`. A request that leaves its routers is for the
    pages, which know it by its session. -/
def meApi (decode : String → String) : List (Route Token) :=
  [mount (fun r => startsWith [.word "gassistant"] r.url) (fun r => { r with path := r.path.drop 1 }) (gassistant J w),
    mount (fun _ => true) id (myApi J w decode)]

def serve (decode : String → String) (r : Request Token) : Option Answer :=
  match run r (meApi J w decode) ⟨r.token, none⟩ with
  | .done a => some a
  | .next _ | .exit _ => none

/-! ## What the scopes allow -/

def Call.scope : Call → String
  | .getOrOpenConversation _ _ | .getOrOpenConversationWebSocket _ _ | .handle _ | .handleThingTalk _
  | .handleCommand _ | .converse _ _ | .createDeviceAndReturnInfo _ | .createAppAndReturnResults _ _ | .deleteApp _
  | .deleteAllApps _ => "user-exec-command"
  | .getDeviceInfos | .getAppInfos | .getAppInfo _ => "user-read"
  | .addNotificationOutput => "user-read-results"
  | .newConnection | .onMessage _ => "user-sync"

/-- If the request was authenticated, its calls of the user's engine are in scope, and so is
    the profile it returns. -/
def Allowed (a : Answer) : Prop :=
  ∀ p, a.principal = some p → (∀ c ∈ a.calls, c.1 = p.user.id → c.2.scope ∈ p.scope) ∧
    ∀ x, a.response = .profile x → "profile" ∈ p.scope

def Enforced (decode : String → String) (r : Request Token) : Prop :=
  ∀ a, serve J w decode r = some a → Allowed a

/-- A websocket to one of the two routes with no scope check, with a token of a user whose
    engine runs that has not the scope for it. -/
def Unguarded (r : Request Token) : Prop :=
  ∃ token user scope query messages, r.token = some token ∧
    Tokens.bearer J w.now w.db token = some (user, scope) ∧ w.engine user.id = true ∧
    r.kind = .websocket query messages ∧
    (endsAt [.word "results"] r.path = true ∧ "user-read-results" ∉ scope ∨
      endsAt [.word "conversation"] r.path = true ∧ "user-exec-command" ∉ scope)

variable {J w} {r : Request Token} {s t : State Token} {o : Answer}

/-- An answer to the request as it is authenticated, all of which needs one scope. -/
def NeedsOnly (scope : String) (o : Answer) (s : State Token) : Prop :=
  o.principal = s.principal ∧ (∀ c ∈ o.calls, c.2.scope = scope) ∧ ∀ x, o.response = .profile x → scope = "profile"

theorem allowed_of_needsOnly {scope : String} (h : NeedsOnly scope o s)
    (hs : ∀ p, s.principal = some p → scope ∈ p.scope) : Allowed o := by
  obtain ⟨hp, hcalls, hprofile⟩ := h
  intro p ho
  have hmem := hs p (hp.symm.trans ho)
  exact ⟨fun c hc _ => (hcalls c hc).symm ▸ hmem, fun x hx => hprofile x hx ▸ hmem⟩

theorem requireScope_next {scope : String} (h : requireScope scope s = .next t) :
    t = s ∧ ∀ p, s.principal = some p → scope ∈ p.scope := by
  simp only [requireScope] at h
  split at h
  · next hp =>
    cases h
    exact ⟨rfl, fun p h => by rw [hp] at h; cases h⟩
  · next p hp =>
    split at h
    · next hc =>
      cases h
      refine ⟨rfl, fun q hq => ?_⟩
      cases hp.symm.trans hq
      exact List.contains_iff_mem.1 hc
    · cases h

/-- An answer with no calls and no profile. -/
def Silent (o : Answer) : Prop := o.calls = [] ∧ ∀ x, o.response ≠ .profile x

theorem Silent.allowed (h : Silent o) : Allowed o := by
  intro p _
  refine ⟨fun c hc => ?_, fun x hx => absurd hx (h.2 x)⟩
  rw [h.1] at hc
  exact absurd hc List.not_mem_nil

theorem silent_of_fail {status : Nat} {message : String} (h : fail s status message = .done o) : Silent o := by
  cases h
  exact ⟨rfl, fun x hx => by cases hx⟩

theorem requireScope_done {scope : String} (h : requireScope scope s = .done o) : Silent o := by
  simp only [requireScope] at h
  split at h
  · cases h
  · split at h
    · cases h
    · exact silent_of_fail h

theorem authenticateBearer_done (h : authenticateBearer J w s = .done o) : Silent o := by
  simp only [authenticateBearer] at h
  split at h
  · cases h
    exact ⟨rfl, fun x hx => by cases hx⟩
  · split at h
    · cases h
      exact ⟨rfl, fun x hx => by cases hx⟩
    · cases h

theorem authenticateBearer_next (h : authenticateBearer J w s = .next t) :
    ∃ token user scope, s.token = some token ∧ Tokens.bearer J w.now w.db token = some (user, scope) ∧
      t = ⟨s.token, some ⟨user, scope⟩⟩ := by
  simp only [authenticateBearer] at h
  split at h
  · cases h
  · next token htoken =>
    split at h
    · cases h
    · next user scope hb =>
      cases h
      exact ⟨token, user, scope, htoken, hb, rfl⟩

theorem requireLogIn_done (h : requireLogIn r s = .done o) : Silent o := by
  simp only [requireLogIn] at h
  split at h
  · cases h
  · split at h
    · cases h
      exact ⟨rfl, fun x hx => by cases hx⟩
    · exact silent_of_fail h

theorem requireLogIn_next (h : requireLogIn r s = .next t) : t = s := by
  simp only [requireLogIn] at h
  split at h
  · cases h
    rfl
  · split at h
    · cases h
    · cases h

/-! ## Each handler needs one scope -/

theorem needsOnly_of_silent {scope : String} (h : Silent o) (hp : o.principal = s.principal) : NeedsOnly scope o s := by
  refine ⟨hp, fun c hc => ?_, fun x hx => absurd hx (h.2 x)⟩
  rw [h.1] at hc
  exact absurd hc List.not_mem_nil

theorem fail_needsOnly {scope message : String} {status : Nat} (h : fail s status message = .done o) :
    NeedsOnly scope o s := by
  refine needsOnly_of_silent (silent_of_fail h) ?_
  cases h
  rfl

theorem callEngine_needsOnly {id : Nat} {call : Call} (h : callEngine w s id call = .done o) :
    NeedsOnly call.scope o s := by
  simp only [callEngine] at h
  split at h
  · cases h
    refine ⟨rfl, fun c hc => ?_, fun x hx => by cases hx⟩
    rw [List.mem_singleton.1 hc]
  · exact fail_needsOnly h

theorem forUser_needsOnly {scope : String} {f : OAuth2.UserRow → Handler Token}
    (hf : ∀ user, f user r s = .done o → NeedsOnly scope o s) (h : forUser f r s = .done o) : NeedsOnly scope o s := by
  simp only [forUser] at h
  split at h
  · next p _ => exact hf p.user h
  · exact fail_needsOnly h

theorem validatePOST_needsOnly {scope : String} {keys : List (String × TypeSpec)} {f : Handler Token}
    (hf : f r s = .done o → NeedsOnly scope o s) (h : validatePOST keys f r s = .done o) : NeedsOnly scope o s := by
  simp only [validatePOST] at h
  split at h
  · exact fail_needsOnly h
  · split at h
    · exact fail_needsOnly h
    · exact hf h

theorem profile_needsOnly (h : profile w r s = .done o) : NeedsOnly "profile" o s := by
  simp only [profile] at h
  split at h
  · cases h
    exact ⟨rfl, fun c hc => absurd hc List.not_mem_nil, fun _ _ => rfl⟩
  · exact fail_needsOnly h

theorem converse_needsOnly (h : converse w r s = .done o) : NeedsOnly "user-exec-command" o s := by
  refine forUser_needsOnly (fun user h => ?_) h
  split at h
  · exact fail_needsOnly h
  · exact callEngine_needsOnly h

theorem devicesCreate_needsOnly (h : devicesCreate w r s = .done o) : NeedsOnly "user-exec-command" o s := by
  refine validatePOST_needsOnly (forUser_needsOnly fun user h => ?_) h
  split at h
  · exact fail_needsOnly h
  · exact callEngine_needsOnly h

theorem appsCreate_needsOnly (h : appsCreate w r s = .done o) : NeedsOnly "user-exec-command" o s := by
  refine validatePOST_needsOnly (forUser_needsOnly fun user h => ?_) h
  exact callEngine_needsOnly h

theorem forParam_needsOnly {scope : String} {call : String → Call} (hc : ∀ x, (call x).scope = scope)
    (h : forParam w call r s = .done o) : NeedsOnly scope o s :=
  forUser_needsOnly (fun _ h => hc (r.url.getD 2 "") ▸ callEngine_needsOnly h) h

theorem sync_needsOnly {query : ConversationQueryParams} {messages : List Message}
    (h : sync w query messages r s = .done o) : NeedsOnly "user-sync" o s := by
  refine forUser_needsOnly (fun user h => ?_) h
  cases h
  refine ⟨rfl, fun c hc => ?_, fun x hx => by cases hx⟩
  split at hc
  · obtain ⟨call, hcall, rfl⟩ := List.mem_map.1 hc
    rcases List.mem_cons.1 hcall with rfl | hcall
    · rfl
    · obtain ⟨m, -, hm⟩ := List.mem_filterMap.1 hcall
      cases m with
      | text data => cases hm; rfl
      | binary => cases hm
  · exact absurd hc List.not_mem_nil

theorem results_needsOnly {query : ConversationQueryParams} {messages : List Message}
    (h : results w query messages r s = .done o) : NeedsOnly "user-read-results" o s := by
  refine forUser_needsOnly (fun user h => ?_) h
  cases h
  refine ⟨rfl, fun c hc => ?_, fun x hx => by cases hx⟩
  split at hc
  · rw [List.mem_singleton.1 hc]
    rfl
  · exact absurd hc List.not_mem_nil

theorem doConversation_needsOnly {user : OAuth2.UserRow} {anonymous : Bool} {query : ConversationQueryParams}
    {messages : List Message} (h : doConversation w user anonymous query messages s = .done o) :
    NeedsOnly "user-exec-command" o s := by
  simp only [doConversation] at h
  split at h
  · cases h
    refine ⟨rfl, fun c hc => ?_, fun x hx => by cases hx⟩
    obtain ⟨call, hcall, rfl⟩ := List.mem_map.1 hc
    rcases List.mem_cons.1 hcall with rfl | hcall
    · rfl
    · obtain ⟨m, -, rfl⟩ := List.mem_map.1 hcall
      rfl
  · cases h
    exact needsOnly_of_silent ⟨rfl, fun x hx => by cases hx⟩ rfl

theorem openAssistant_needsOnly {body : AssistantBody Token} {showWelcome : Bool} {calls : List Call}
    (hcalls : ∀ c ∈ calls, c.scope = "user-exec-command") (h : openAssistant J w body showWelcome calls s = .done o) :
    NeedsOnly "user-exec-command" o s := by
  simp only [openAssistant] at h
  split at h
  · cases h
    refine ⟨rfl, fun c hc => ?_, fun x hx => by cases hx⟩
    obtain ⟨call, hcall, rfl⟩ := List.mem_map.1 hc
    rcases List.mem_cons.1 hcall with rfl | hcall
    · rfl
    · exact hcalls call hcall
  · exact fail_needsOnly h

theorem fulfillment_needsOnly (h : fulfillment J w r s = .done o) : NeedsOnly "user-exec-command" o s := by
  simp only [fulfillment] at h
  split at h
  · exact fail_needsOnly h
  · split at h
    · exact openAssistant_needsOnly (fun c hc => absurd hc List.not_mem_nil) h
    · cases h
      exact needsOnly_of_silent ⟨rfl, fun x hx => by cases hx⟩ rfl
    · split at h
      · cases h
        exact needsOnly_of_silent ⟨rfl, fun x hx => by cases hx⟩ rfl
      · split at h
        · cases h
          exact needsOnly_of_silent ⟨rfl, fun x hx => by cases hx⟩ rfl
        · split at h
          · refine openAssistant_needsOnly (fun c hc => ?_) h
            rw [List.mem_singleton.1 hc]
            rfl
          · refine openAssistant_needsOnly (fun c hc => ?_) h
            rw [List.mem_singleton.1 hc]
            rfl

/-! ## The routers -/

theorem withScope_allowed {scope : String} {f : Handler Token}
    (hf : ∀ s o, f r s = .done o → NeedsOnly scope o s) (h : withScope scope f r s = .done o) : Allowed o := by
  simp only [withScope] at h
  cases hr : requireScope scope s with
  | next t =>
    rw [hr] at h
    obtain ⟨rfl, hs⟩ := requireScope_next hr
    exact allowed_of_needsOnly (hf t o h) hs
  | done o' =>
    rw [hr] at h
    cases h
    exact (requireScope_done hr).allowed
  | exit t =>
    rw [hr] at h
    cases h

/-- Whether the path is one of the bridge. -/
def Bridge (r : Request Token) : Prop := startsWith [.word "gassistant"] r.url = true

theorem not_endsAt_of_bridge (h : Bridge r) {a : String} (ha : a ≠ "gassistant") (ps : List Segment) :
    endsAt (.word a :: ps) r.url = false := by
  simp only [Bridge] at h
  cases hurl : r.url with
  | nil => rfl
  | cons x xs =>
    rw [hurl] at h
    simp only [startsWith, Segment.accepts, Bool.and_true, beq_iff_eq] at h
    simp only [endsAt, Segment.accepts, h, beq_eq_false_iff_ne.2 (Ne.symm ha), Bool.false_and]

theorem not_startsWith_of_bridge (h : Bridge r) {a : String} (ha : a ≠ "gassistant") (ps : List Segment) :
    startsWith (.word a :: ps) r.url = false := by
  simp only [Bridge] at h
  cases hurl : r.url with
  | nil => rfl
  | cons x xs =>
    rw [hurl] at h
    simp only [startsWith, Segment.accepts, Bool.and_true, beq_iff_eq] at h
    simp only [startsWith, Segment.accepts, h, beq_eq_false_iff_ne.2 (Ne.symm ha), Bool.false_and]

theorem startsWith_of_endsAt {a : String} {ps : List Segment} {url : List String}
    (h : endsAt (.word a :: ps) url = true) : startsWith [.word a] url = true := by
  cases url with
  | nil => cases h
  | cons x xs =>
    simp only [endsAt, Bool.and_eq_true] at h
    simp only [startsWith, h.1, Bool.and_true]

theorem not_bridge_of_endsAt {a : String} {ps : List Segment} (ha : a ≠ "gassistant")
    (h : endsAt (.word a :: ps) r.url = true) : ¬ Bridge r := by
  intro hb
  rw [not_endsAt_of_bridge hb ha] at h
  cases h

/-- A layer that changes no state, and answers for the user of the request. -/
def Plain (r : Request Token) (f : Handler Token) : Prop :=
  ∀ s, (∀ o, f r s = .done o → o.principal = s.principal) ∧ ∀ t, f r s = .next t → t = s

theorem plain_answer (calls : List (Nat × Call)) (response : Response) :
    Plain r fun _ s => answer s calls response := by
  intro s
  refine ⟨fun o h => ?_, fun t h => by cases h⟩
  cases h
  rfl

theorem plain_callEngine (id : Nat) (call : Call) : Plain r fun _ s => callEngine w s id call := by
  intro s
  simp only [callEngine]
  split
  · exact plain_answer (r := r) _ _ s
  · exact plain_answer (r := r) _ _ s

theorem plain_sms : Plain r (sms w) := by
  intro s
  simp only [sms]
  split
  · split
    · exact plain_callEngine (r := r) _ _ s
    · exact plain_callEngine (r := r) _ _ s
  · exact plain_answer (r := r) _ _ s

theorem plain_unsubscribe (decode : String → String) : Plain r (unsubscribe w decode) := by
  intro s
  simp only [unsubscribe]
  split
  · exact plain_answer (r := r) _ _ s
  · split
    · exact plain_answer (r := r) _ _ s
    · split
      · exact plain_answer (r := r) _ _ s
      · exact plain_answer (r := r) _ _ s

theorem plain_doConversation (user : OAuth2.UserRow) (anonymous : Bool) (query : ConversationQueryParams)
    (messages : List Message) : Plain r fun _ s => doConversation w user anonymous query messages s := by
  intro s
  simp only [doConversation]
  split
  · exact plain_answer (r := r) _ _ s
  · exact plain_answer (r := r) _ _ s

theorem plain_anonymous (query : ConversationQueryParams) (messages : List Message) :
    Plain r (anonymous w query messages) := by
  intro s
  simp only [anonymous]
  split
  · exact plain_answer (r := r) _ _ s
  · exact plain_doConversation (r := r) _ _ _ _ s

theorem plain_forUser {f : OAuth2.UserRow → Handler Token} (h : ∀ user, Plain r (f user)) : Plain r (forUser f) := by
  intro s
  simp only [forUser]
  split
  · next p _ => exact h p.user s
  · exact plain_answer (r := r) _ _ s

theorem plain_ws (path : List Segment) {f : ConversationQueryParams → List Message → Handler Token}
    (h : ∀ query messages, Plain r (f query messages)) : Plain r (ws path f).handle := by
  intro s
  simp only [ws, get]
  split
  · exact ⟨fun o ho => (by cases ho), fun t ht => by cases ht; rfl⟩
  · next query messages _ => exact h query messages s

/-- The bearer strategy has not run, or the path is of the bridge. -/
def Start (r : Request Token) (s : State Token) : Prop := Bridge r ∨ s.token = r.token ∧ s.principal = none

theorem Plain.answers {f : Handler Token} (h : Plain r f) (hb : ¬ Bridge r) :
    Answers (Start r) (Start r) Allowed (f r) := by
  intro s hs
  obtain ⟨hdone, hnext⟩ := h s
  refine ⟨fun o ho p hp => ?_, fun t ht => hnext t ht ▸ hs⟩
  obtain ⟨-, hnone⟩ := hs.resolve_left hb
  cases hnone.symm.trans ((hdone o ho).symm.trans hp)

theorem publicRoutes_answers (decode : String → String) :
    Answers (Start r) (Start r) Allowed (run r (publicRoutes w decode)) := by
  refine Answers.run fun l hl ha => ?_
  simp only [publicRoutes, List.mem_cons, List.not_mem_nil, or_false] at hl
  rcases hl with rfl | rfl | rfl | rfl | rfl | rfl | rfl
  · intro s hs
    refine ⟨fun o ho => ?_, fun t ht => by cases ht⟩
    cases ho
    exact Silent.allowed ⟨rfl, fun x hx => by cases hx⟩
  · intro s hs
    refine ⟨fun o ho => (by cases ho), fun t ht => ?_⟩
    cases ht
    exact hs
  · exact plain_sms.answers (not_bridge_of_endsAt (by decide) (Bool.and_eq_true _ _ ▸ ha).2)
  · exact (plain_answer [] .empty).answers (not_bridge_of_endsAt (by decide) (Bool.and_eq_true _ _ ▸ ha).2)
  · exact (plain_unsubscribe decode).answers (not_bridge_of_endsAt (by decide) (Bool.and_eq_true _ _ ▸ ha).2)
  · intro s hs
    exact ⟨fun o ho => (by cases ho), fun t ht => by cases ht⟩
  · refine Plain.answers (plain_ws _ fun query messages => plain_anonymous query messages) ?_
    exact not_bridge_of_endsAt (by decide) (Bool.and_eq_true _ _ ▸ ha).2

/-- The user of the request is the one of the token it came with, or the path is of the
    bridge. -/
def Bearer (J : Library Token) (w : World) (r : Request Token) (s : State Token) : Prop :=
  Bridge r ∨ ∀ p, s.principal = some p → ∃ token, r.token = some token ∧
    Tokens.bearer J w.now w.db token = some (p.user, p.scope)

theorem bearer_answers : Answers (Start r) (Bearer J w r) Allowed
    (run r [useAt [] (fun _ s => authenticateBearer J w s), useAt [] requireLogIn]) := by
  have hbearer : Answers (Start r) (Bearer J w r) Allowed (authenticateBearer J w) := by
    intro s hs
    refine ⟨fun o ho => (authenticateBearer_done ho).allowed, fun t ht => ?_⟩
    obtain ⟨token, user, scope, htoken, hb, rfl⟩ := authenticateBearer_next ht
    rcases hs with hbridge | ⟨hsame, -⟩
    · exact .inl hbridge
    · refine .inr fun p hp => ?_
      cases hp
      exact ⟨token, hsame.symm.trans htoken, hb⟩
  have hlogin : Answers (Bearer J w r) (Bearer J w r) Allowed (requireLogIn r) := by
    intro s hs
    refine ⟨fun o ho => (requireLogIn_done ho).allowed, fun t ht => ?_⟩
    rw [requireLogIn_next ht]
    exact hs
  exact (Answers.gate rfl hbearer).append (Answers.gate rfl hlogin)

theorem layer_allowed {l : Route Token} (h : l.applies r = true → ∀ s o, l.handle r s = .done o → Allowed o) :
    l.applies r = true → Answers (fun _ => True) (fun _ => True) Allowed (l.handle r) :=
  fun ha s _ => ⟨h ha s, fun _ _ => trivial⟩

theorem forParam_allowed {scope : String} {call : String → Call}
    (h : withScope scope (forParam w call) r s = .done o) (hc : ∀ x, (call x).scope = scope) : Allowed o :=
  withScope_allowed (fun _ _ h => forParam_needsOnly hc h) h

theorem scopedRoutes_answers : Answers (fun _ => True) (fun _ => True) Allowed (run r (scopedRoutes w)) := by
  refine Answers.run fun l hl => layer_allowed fun _ s o ho => ?_
  simp only [scopedRoutes, List.mem_cons, List.not_mem_nil, or_false] at hl
  rcases hl with rfl | rfl | rfl | rfl | rfl | rfl | rfl | rfl
  · exact withScope_allowed (fun _ _ h => profile_needsOnly h) ho
  · exact withScope_allowed (fun _ _ h => converse_needsOnly h) ho
  · exact forParam_allowed ho fun _ => rfl
  · exact withScope_allowed (fun _ _ h => devicesCreate_needsOnly h) ho
  · exact withScope_allowed (fun _ _ h => appsCreate_needsOnly h) ho
  · exact forParam_allowed ho fun _ => rfl
  · exact forParam_allowed ho fun _ => rfl
  · exact forParam_allowed ho fun _ => rfl

theorem requireScope_answers {I : State Token → Prop} (scope : String) :
    Answers I (fun s => ∀ p, s.principal = some p → scope ∈ p.scope) Allowed (requireScope scope) := by
  intro s _
  refine ⟨fun o ho => (requireScope_done ho).allowed, fun t ht => ?_⟩
  obtain ⟨rfl, h⟩ := requireScope_next ht
  exact h

theorem ws_done {path : List Segment} {f : ConversationQueryParams → List Message → Handler Token}
    (h : (ws path f).handle r s = .done o) :
    ∃ query messages, r.kind = .websocket query messages ∧ f query messages r s = .done o := by
  simp only [ws, get] at h
  split at h
  · cases h
  · next query messages hk => exact ⟨query, messages, hk, h⟩

/-- The sync route is behind its gate: what matches the route matches the gate. -/
theorem syncRoutes_answers : Answers (fun _ => True) (fun _ => True) Allowed (run r (syncRoutes w)) := by
  have hws : Answers (fun s => ∀ p, s.principal = some p → "user-sync" ∈ p.scope) (fun _ => True) Allowed
      ((ws [.word "sync"] (sync w)).handle r) := by
    intro s hs
    refine ⟨fun o ho => ?_, fun _ _ => trivial⟩
    obtain ⟨query, messages, -, h⟩ := ws_done ho
    exact allowed_of_needsOnly (sync_needsOnly h) hs
  cases ha : startsWith [.word "sync"] r.url with
  | true =>
    exact (Answers.gate ha (requireScope_answers "user-sync")).append (.layer (fun _ _ => trivial) fun _ => hws)
  | false =>
    have hno : (ws [.word "sync"] (sync w)).applies r = false := by
      refine Bool.eq_false_iff.2 fun h => ?_
      have := startsWith_of_endsAt (Bool.and_eq_true _ _ ▸ h).2
      rw [ha] at this
      cases this
    intro s _
    rw [syncRoutes, run_cons_of_not_applies _ ha, run_cons_of_not_applies _ hno]
    exact ⟨fun o ho => (by cases ho), fun _ _ => trivial⟩

/-- A handler that calls only an engine that runs, and is given the scope then. -/
theorem allowed_of_engine {scope : String} (hneeds : NeedsOnly scope o s)
    (hsilent : ∀ p, s.principal = some p → w.engine p.user.id = false → Silent o)
    (hs : ∀ p, s.principal = some p → w.engine p.user.id = true → scope ∈ p.scope) : Allowed o := by
  cases hp : s.principal with
  | none => exact allowed_of_needsOnly hneeds fun p h => by rw [hp] at h; cases h
  | some p =>
    cases he : w.engine p.user.id with
    | false => exact (hsilent p hp he).allowed
    | true =>
      refine allowed_of_needsOnly hneeds fun q hq => ?_
      cases hp.symm.trans hq
      exact hs p hp he

theorem results_silent {query : ConversationQueryParams} {messages : List Message} {p : Principal}
    (h : results w query messages r s = .done o) (hp : s.principal = some p) (he : w.engine p.user.id = false) :
    Silent o := by
  simp only [results, forUser, hp, he] at h
  cases h
  exact ⟨rfl, fun x hx => by cases hx⟩

theorem conversation_silent {query : ConversationQueryParams} {messages : List Message} {p : Principal}
    (h : conversation w query messages r s = .done o) (hp : s.principal = some p) (he : w.engine p.user.id = false) :
    Silent o := by
  simp only [conversation, forUser, hp, doConversation, he] at h
  cases h
  exact ⟨rfl, fun x hx => by cases hx⟩

theorem endsAt_nil_snoc (l : List String) {x : String} (hx : x ≠ "") : endsAt [] (l ++ [x]) = false := by
  cases l with
  | nil => simp only [List.nil_append, endsAt, beq_eq_false_iff_ne.2 hx]
  | cons y l => cases l <;> rfl

theorem toLower_websocket : (".websocket".toLower == ".websocket") = true := by decide +kernel

/-- The path of a websocket is the one in the request, whether or not it ends in a slash. -/
theorem url_of_websocket {query : ConversationQueryParams} {messages : List Message} {a : String} (ha : a ≠ "")
    (hk : r.kind = .websocket query messages) :
    endsAt [.word a, .word ".websocket"] r.url = true ↔ endsAt [.word a] r.path = true := by
  have hempty : (a == "") = false := beq_eq_false_iff_ne.2 ha
  have hne : (".websocket" == "") = false := by decide
  simp only [Request.url, hk]
  rcases r.path with _ | ⟨x, _ | ⟨y, _ | ⟨z, rest⟩⟩⟩
  · simp [endsAt]
  · by_cases hx : x = ""
    · have hlower : "".toLower ≠ a := fun h => ha (h.symm.trans (by decide +kernel))
      simp [hx, endsAt, Segment.accepts, hlower]
    · simp [hx, endsAt, Segment.accepts, toLower_websocket]
  · by_cases hy : y = ""
    · simp [hy, endsAt, Segment.accepts, toLower_websocket]
    · simp [hy, endsAt, Segment.accepts, hne]
  · have hlong : ∃ l, (if (x :: y :: z :: rest).getLast? = some "" then (x :: y :: z :: rest).dropLast
        else x :: y :: z :: rest) ++ [".websocket"] = x :: y :: (l ++ [".websocket"]) := by
      split
      · exact ⟨(z :: rest).dropLast, rfl⟩
      · exact ⟨z :: rest, rfl⟩
    obtain ⟨l, hl⟩ := hlong
    rw [hl]
    simp only [endsAt, endsAt_nil_snoc l (by decide : ".websocket" ≠ ""), Bool.and_false]

/-- A websocket route with no gate, for requests that would pass one. -/
theorem websocket_answers {a scope : String} {f : ConversationQueryParams → List Message → Handler Token}
    (hne : a ≠ "gassistant") (hempty : a ≠ "") (hplain : ∀ query messages, Plain r (f query messages))
    (hneeds : ∀ query messages s o, f query messages r s = .done o → NeedsOnly scope o s)
    (hsilent : ∀ query messages s o p, f query messages r s = .done o → s.principal = some p →
      w.engine p.user.id = false → Silent o)
    (hscope : ∀ token user S query messages, r.token = some token →
      Tokens.bearer J w.now w.db token = some (user, S) → w.engine user.id = true →
      r.kind = .websocket query messages → endsAt [.word a] r.path = true → scope ∈ S) :
    Answers (Bearer J w r) (Bearer J w r) Allowed (run r [ws [.word a] f]) := by
  refine .layer (fun _ hs => hs) fun ha s hs => ⟨fun o ho => ?_, fun t ht => ?_⟩
  · obtain ⟨query, messages, hk, h⟩ := ws_done ho
    have hpath := (Bool.and_eq_true _ _ ▸ ha).2
    refine allowed_of_engine (hneeds _ _ _ _ h) (fun p => hsilent _ _ _ _ p h) fun p hp he => ?_
    obtain ⟨token, htoken, hb⟩ := hs.resolve_left (not_bridge_of_endsAt hne hpath) p hp
    exact hscope token p.user p.scope query messages htoken hb he hk ((url_of_websocket hempty hk).1 hpath)
  · rw [(plain_ws [.word a] hplain s).2 t ht]
    exact hs

theorem websocketRoutes_answers (hun : ¬ Unguarded J w r) :
    Answers (Bearer J w r) (Bearer J w r) Allowed (run r (websocketRoutes w)) := by
  have hresults : Answers (Bearer J w r) (Bearer J w r) Allowed (run r [ws [.word "results"] (results w)]) := by
    refine websocket_answers (by decide) (by decide) (fun _ _ => plain_forUser fun _ => plain_answer _ _)
      (fun _ _ _ _ => results_needsOnly)
      (fun _ _ _ _ _ => results_silent) fun token user S query messages ht hb he hk hp => ?_
    by_contra hno
    exact hun ⟨token, user, S, query, messages, ht, hb, he, hk, .inl ⟨hp, hno⟩⟩
  have hconversation : Answers (Bearer J w r) (Bearer J w r) Allowed
      (run r [ws [.word "conversation"] (conversation w)]) := by
    refine websocket_answers (by decide) (by decide) (fun _ _ => plain_forUser fun _ => plain_doConversation _ _ _ _) 
      (fun _ _ _ _ h => forUser_needsOnly (fun _ h => doConversation_needsOnly h) h)
      (fun _ _ _ _ _ => conversation_silent) fun token user S query messages ht hb he hk hp => ?_
    by_contra hno
    exact hun ⟨token, user, S, query, messages, ht, hb, he, hk, .inr ⟨hp, hno⟩⟩
  exact hresults.append hconversation

/-- The whole of `my_api.ts`. -/
theorem myApi_answers (decode : String → String) (hun : ¬ Unguarded J w r) :
    Answers (Start r) (fun _ => True) Allowed (run r (myApi J w decode)) := by
  have hlast : Answers (fun _ => True) (fun _ => True) Allowed
      (run r [useAt [] (fun _ (s : State Token) => fail s 404 "Invalid endpoint")]) :=
    .layer (fun _ h => h) (layer_allowed fun _ s o ho => (silent_of_fail ho).allowed)
  have hwebsocket : Answers (Bearer J w r) (fun _ => True) Allowed (run r (websocketRoutes w)) :=
    fun s hs => ⟨(websocketRoutes_answers hun s hs).1, fun _ _ => trivial⟩
  exact ((((publicRoutes_answers decode).append bearer_answers).append hwebsocket).append
    scopedRoutes_answers).append syncRoutes_answers |>.append hlast

theorem gassistant_answers : Answers (fun _ => True) (fun _ => True) Allowed (run r (gassistant J w)) := by
  have hauthenticate : Answers (fun _ => True) (fun _ => True) Allowed (authenticateAssistant J w r) := by
    intro s _
    refine ⟨fun o ho => ?_, fun _ _ => trivial⟩
    simp only [authenticateAssistant] at ho
    split at ho
    · exact (silent_of_fail ho).allowed
    · split at ho
      · cases ho
      · exact (authenticateBearer_done ho).allowed
  have hfulfillment : Answers (fun s => ∀ p, s.principal = some p → "user-exec-command" ∈ p.scope) (fun _ => True)
      Allowed (fulfillment J w r) :=
    fun s hs => ⟨fun o ho => allowed_of_needsOnly (fulfillment_needsOnly ho) hs, fun _ _ => trivial⟩
  exact ((Answers.gate rfl hauthenticate).append (Answers.gate rfl (requireScope_answers "user-exec-command"))).append
    (.layer (fun _ _ => trivial) fun _ => hfulfillment)

/-- Unless it is one of the two websockets, a request does only what its scopes allow. -/
theorem enforced_of_guarded {decode : String → String} (hun : ¬ Unguarded J w r) : Enforced J w decode r := by
  intro a ha
  simp only [serve] at ha
  have hbridge : Answers (fun s => s.token = r.token ∧ s.principal = none) (Start r) Allowed
      (run r [mount (fun r => startsWith [.word "gassistant"] r.url) (fun r => { r with path := r.path.drop 1 })
        (gassistant J w)]) :=
    .layer (fun _ hs => .inr hs) fun hb s _ => ⟨(Answers.mount _ _ gassistant_answers s trivial).1, fun _ _ => .inl hb⟩
  have hall := hbridge.append (.gate rfl (Answers.mount (fun _ => true) id (myApi_answers decode hun)))
  split at ha
  · next o ho =>
    cases ha
    exact (hall _ ⟨rfl, rfl⟩).1 a ho
  · cases ha
  · cases ha

theorem url_eq {query : ConversationQueryParams} {messages : List Message} {a : String} (ha : a ≠ "")
    (hk : r.kind = .websocket query messages) (hp : endsAt [.word a] r.path = true) :
    ∃ x, r.url = [x, ".websocket"] ∧ x.toLower = a := by
  have hlower : "".toLower ≠ a := fun h => ha (h.symm.trans (by decide +kernel))
  simp only [Request.url, hk]
  rcases hpath : r.path with _ | ⟨x, _ | ⟨y, _ | ⟨z, rest⟩⟩⟩
  · rw [hpath] at hp
    cases hp
  · simp only [hpath, endsAt, Segment.accepts, Bool.and_true, beq_iff_eq] at hp
    have hx : x ≠ "" := fun h => hlower (h ▸ hp)
    exact ⟨x, by simp [hx], hp⟩
  · simp only [hpath, endsAt, Segment.accepts, Bool.and_eq_true, beq_iff_eq] at hp
    exact ⟨x, by simp [hp.2], hp.1⟩
  · rw [hpath] at hp
    simp [endsAt] at hp

/-- A websocket that gets past the bearer strategy to a route with no gate. -/
theorem run_websocket {decode : String → String} {token : Token} {user : OAuth2.UserRow} {S : List String}
    {query : ConversationQueryParams} {messages : List Message} (ht : r.token = some token)
    (hb : Tokens.bearer J w.now w.db token = some (user, S)) (hk : r.kind = .websocket query messages)
    {x a : String} (hurl : r.url = [x, ".websocket"]) (hx : x.toLower = a) (ha : a = "results" ∨ a = "conversation") 
    (happ : (run r (websocketRoutes w) ⟨some token, some ⟨user, S⟩⟩) = .done o) :
    serve J w decode r = some o := by
  have hm : r.method = .GET := by simp [Request.method, hk]
  have hbridge : startsWith [.word "gassistant"] r.url = false := by
    rcases ha with rfl | rfl <;> simp [hurl, startsWith, Segment.accepts, hx]
  have hpublic (s : State Token) : run r (publicRoutes w decode) s = .next s := by
    rcases ha with rfl | rfl <;>
      simp [publicRoutes, run, hm, useAt, post, get, ws, startsWith, endsAt, Segment.accepts, hurl, hx]
  have hbearer : run r [useAt [] (fun _ s => authenticateBearer J w s), useAt [] requireLogIn] ⟨r.token, none⟩ =
      .next ⟨some token, some ⟨user, S⟩⟩ := by
    simp [run, useAt, startsWith, authenticateBearer, ht, hb, requireLogIn]
  have hmy : run r (myApi J w decode) ⟨r.token, none⟩ = .done o := by
    simp only [myApi, run_append, hpublic, hbearer, happ, Outcome.andThen]
  have hme : run r (meApi J w decode) ⟨r.token, none⟩ = .done o := by
    rw [meApi, run_cons_of_not_applies _ hbridge, run_cons_of_applies _ rfl]
    simp only [mount, id_eq, hmy, Outcome.andThen]
  simp only [serve, hme]

/-- The two websockets do what they do with any token. -/
theorem not_enforced_of_unguarded {decode : String → String} (hun : Unguarded J w r) : ¬ Enforced J w decode r := by
  obtain ⟨token, user, S, query, messages, ht, hb, he, hk, hpath⟩ := hun
  have hget : r.method = .GET := by simp only [Request.method, hk]
  rcases hpath with ⟨hp, hno⟩ | ⟨hp, hno⟩
  · obtain ⟨x, hurl, hx⟩ := url_eq (by decide) hk hp
    have hrun : run r (websocketRoutes w) ⟨some token, some ⟨user, S⟩⟩ =
        .done ⟨some ⟨user, S⟩, [(user.id, .addNotificationOutput)], .websocket⟩ := by
      simp [websocketRoutes, run, ws, get, hget, endsAt, Segment.accepts, hurl, hx, toLower_websocket, hk, results,
        forUser, answer, he]
    intro h
    exact hno ((h _ (run_websocket ht hb hk hurl hx (.inl rfl) hrun) _ rfl).1 _ (List.mem_cons_self ..) rfl)
  · obtain ⟨x, hurl, hx⟩ := url_eq (by decide) hk hp
    have hrun : run r (websocketRoutes w) ⟨some token, some ⟨user, S⟩⟩ =
        .done ⟨some ⟨user, S⟩, ((.getOrOpenConversationWebSocket (conversationId false query)
          (conversationOptions false query) :: (parsedMessages messages).map .handle).map (user.id, ·)), .websocket⟩ := by
      simp [websocketRoutes, run, ws, get, hget, endsAt, Segment.accepts, hurl, hx, toLower_websocket, hk,
        conversation, forUser, doConversation, answer, he]
    intro h
    exact hno ((h _ (run_websocket ht hb hk hurl hx (.inr rfl) hrun) _ rfl).1 _ (List.mem_cons_self ..) rfl)

/-- Of any request with any token, its scopes allow what it does, exactly if it is not one
    of the two websockets without its scope. -/
theorem enforced_iff (J : Library Token) (w : World) (decode : String → String) (r : Request Token) :
    Enforced J w decode r ↔ ¬ Unguarded J w r :=
  ⟨fun h hun => not_enforced_of_unguarded hun h, enforced_of_guarded⟩

def bob : OAuth2.UserRow := ⟨1, "bob", "b", "bob@example.com", true⟩

/-- Bob's engine runs. -/
def bobsWorld : World where
  now := 0
  db := ⟨[bob], []⟩
  human_name _ := "Bob"
  locale _ := "en-US"
  timezone _ := "America/Los_Angeles"
  model_tag _ := none
  engine id := id == 1
  anonymous := ⟨0, "anonymous", "a", "", false⟩

/-- A websocket with a token for the profile only. -/
def withProfileToken (path : String) (messages : List Message) : Request Claims where
  path := [path]
  token := some { sub := some "b", aud := some "oauth2", scope := some ["profile"] }
  kind := .websocket ⟨false, none, [], false, false⟩ messages

/-- It attaches to the results, and opens a conversation. -/
theorem profile_token_unguarded : ¬ Enforced plain bobsWorld id (withProfileToken "results" []) ∧
    ¬ Enforced plain bobsWorld id (withProfileToken "conversation" [.text "1"]) := by
  constructor
  · exact not_enforced_of_unguarded ⟨_, bob, ["profile"], _, _, rfl, rfl, rfl, rfl,
      .inl ⟨by decide +kernel, by decide⟩⟩
  · exact not_enforced_of_unguarded ⟨_, bob, ["profile"], _, _, rfl, rfl, rfl, rfl,
      .inr ⟨by decide +kernel, by decide⟩⟩

end GenieCloud.Routes.MyApi
