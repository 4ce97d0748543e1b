/-
  GenieCloud.Almond.ControlSocket — the control socket of a shard
  (`almond/master.ts`, `ControlSocket`).

  A connection starts with messages to `initListener`: an authentication, then what the
  connection is for, `direct` (its socket goes to an engine) or `master` (an RPC stub).
  Each message of the stream is kept with what the listener did for it.

  - `gated_of_run`: with a token configured, no stub and no forwarded socket before a
    message that carries the token.
  - `quiet_of_run`: nothing is done for a message after a rejected one.
  - The listener reads a property of the message it is given, and `null` has none: the
    error it throws takes the shard down. `connection_safe_iff`: the three properties
    hold of a stream exactly when no `null` reaches the listener, that is, comes after
    nothing but authentications and `new-object` messages (`Opens`).
-/

import GenieCloud.Util.JsonDatagramSocket

namespace GenieCloud.Almond

open GenieCloud.Util GenieCloud.Lib.Json

variable {N : Type}

/-! ## Messages -/

/-- A property of a value: `none` is undefined, and of two fields of one name the last is
    read. Null has no properties. -/
def property (msg : Value N) (name : String) : Option (Value N) :=
  match msg with
  | .obj fields => ((fields.filter (·.1 == name)).getLast?).map (·.2)
  | _ => none

/-- `value === text` for a configured text, which may be null. -/
def strictEquals : Option (Value N) → Option String → Bool
  | some (.str s), some text => s == text
  | some .null, none => true
  | _, _ => false

/-- `THINGENGINE_MANAGER_AUTHENTICATION`, and the id that the stub of the engines gets. -/
structure Config (N : Type) where
  authentication : Option String
  rpcId : Value N

structure ControlSocket where
  socket : Bool := true
  authenticated : Bool
  /-- `initListener` is on the JSON socket. -/
  listening : Bool := true
  /-- The listener threw, and the process is gone. -/
  crashed : Bool := false

inductive Effect (N : Type)
  | close
  | write (msg : Value N)
  | end
  | pause
  | sendSocket (target replyId : Option (Value N))
  | addStub

namespace ControlSocket

def new (config : Config N) : ControlSocket := { authenticated := config.authentication.isNone }

def error (text : String) : Value N := .obj [("error", .str text)]

/-- The listener, past its first property. -/
def body (config : Config N) (s : ControlSocket) (msg : Value N) : ControlSocket × List (Effect N) :=
  let control := property msg "control"
  if strictEquals control (some "auth") then
    if strictEquals (property msg "token") config.authentication then ({ s with authenticated := true }, [])
    else ({ s with listening := false }, [.close, .write (error "invalid authentication token"), .end])
  else if !s.authenticated then
    ({ s with listening := false }, [.close, .write (error "expected authentication"), .end])
  else if strictEquals control (some "new-object") then (s, [])
  else if strictEquals control (some "direct") then
    ({ s with listening := false, socket := false },
      [.pause, .close, .sendSocket (property msg "target") (property msg "replyId")])
  else if strictEquals control (some "master") then
    ({ s with listening := false }, [.addStub, .write (.obj [("control", .str "ready"), ("rpcId", config.rpcId)])])
  else
    ({ s with listening := false }, [.close, .write (error "invalid initialization message"), .end])

/-- The listener; `none` if it throws. -/
def initListener (config : Config N) (s : ControlSocket) (msg : Value N) :
    Option (ControlSocket × List (Effect N)) :=
  match msg with
  | .null => none
  | msg => some (body config s msg)

/-- The JSON socket emits a message; without the listener it goes to nobody, or to the
    RPC socket. -/
def onMessage (config : Config N) (s : ControlSocket) (msg : Value N) : ControlSocket × List (Effect N) :=
  if s.crashed || !s.listening then (s, [])
  else
    match initListener config s msg with
    | none => ({ s with crashed := true }, [])
    | some result => result

def onMessages (config : Config N) (s : ControlSocket) :
    List (Value N) → ControlSocket × List (Value N × List (Effect N))
  | [] => (s, [])
  | msg :: msgs =>
    let (s, effects) := s.onMessage config msg
    let (s, trace) := s.onMessages config msgs
    (s, (msg, effects) :: trace)

/-- A connection over the chunks of its stream: each emits the messages that it
    completes. -/
def serve [Numeral N] (config : Config N) (json : JsonDatagramSocket) (s : ControlSocket) :
    List (List Char) → ControlSocket × List (Value N × List (Effect N))
  | [] => (s, [])
  | data :: chunks =>
    let (json, msgs) := json.onData data
    let (s, trace) := s.onMessages config msgs
    let (s, trace') := serve config json s chunks
    (s, trace ++ trace')

/-- What a new connection does with a stream, and the messages of the stream with what
    was done for each. -/
def run [Numeral N] (config : Config N) (chunks : List (List Char)) : ControlSocket × List (Value N × List (Effect N)) :=
  serve config {} (new config) chunks

/-! ## The properties -/

/-- An authentication with this very token. -/
def Carries (token : String) (msg : Value N) : Prop :=
  strictEquals (property msg "control") (some "auth") ∧ strictEquals (property msg "token") (some token)

/-- A stub is exposed or the socket forwarded. -/
def Opened (effects : List (Effect N)) : Prop :=
  .addStub ∈ effects ∨ ∃ target replyId, .sendSocket target replyId ∈ effects

def Rejected (effects : List (Effect N)) : Prop := ∃ text, .write (error text) ∈ effects

def Gated (token : String) (trace : List (Value N × List (Effect N))) : Prop :=
  ∀ pre msg effects post, trace = pre ++ (msg, effects) :: post → Opened effects → ∃ x ∈ pre, Carries token x.1

def Quiet (trace : List (Value N × List (Effect N))) : Prop :=
  ∀ pre msg effects post, trace = pre ++ (msg, effects) :: post → Rejected effects → ∀ x ∈ post, x.2 = []

/-- The messages after which the listener still listens: authentications with the token
    and, after one, `new-object`. -/
def Opens (token : String) : Bool → List (Value N) → Prop
  | _, [] => True
  | authenticated, msg :: msgs =>
    (Carries token msg ∧ Opens token true msgs) ∨
      (authenticated ∧ strictEquals (property msg "control") (some "new-object") ∧ Opens token authenticated msgs)

/-! ## One message -/

variable {config : Config N} {s t : ControlSocket} {msg : Value N} {msgs : List (Value N)} {token : String}
  {effects : List (Effect N)}

/-- The listener goes on after the message. -/
def Continues (token : String) (s : ControlSocket) (msg : Value N) : Prop :=
  Carries token msg ∨ (s.authenticated ∧ strictEquals (property msg "control") (some "new-object"))

/-- What becomes of a message, with a token configured. -/
inductive Handled (token : String) (s : ControlSocket) (msg : Value N) (t : ControlSocket)
    (effects : List (Effect N)) : Prop
  | idle : s.crashed = true ∨ s.listening = false → t = s → effects = [] → Handled token s msg t effects
  | crashed : s.crashed = false → s.listening = true → msg = .null → t = { s with crashed := true } → effects = [] →
      Handled token s msg t effects
  | authenticated : s.crashed = false → s.listening = true → Carries token msg → t = { s with authenticated := true } →
      effects = [] → Handled token s msg t effects
  | ignored : s.crashed = false → s.listening = true → s.authenticated = true →
      strictEquals (property msg "control") (some "new-object") = true → t = s → effects = [] →
      Handled token s msg t effects
  | stopped : s.crashed = false → s.listening = true → msg ≠ .null → ¬Continues token s msg → t.crashed = false →
      t.listening = false → t.authenticated = s.authenticated → (Opened effects → s.authenticated = true) →
      Handled token s msg t effects

theorem strictEquals_unique {v : Option (Value N)} {a b : String} (ha : strictEquals v (some a) = true)
    (hb : strictEquals v (some b) = true) : a = b := by
  match v, ha, hb with
  | some (.str s), ha, hb => exact (beq_iff_eq.mp ha).symm.trans (beq_iff_eq.mp hb)

theorem handled_body (h : config.authentication = some token) (hc : s.crashed = false) (hl : s.listening = true)
    (hm : msg ≠ .null) : Handled token s msg (body config s msg).1 (body config s msg).2 := by
  unfold body
  rw [h]
  by_cases hauth : strictEquals (property msg "control") (some "auth") = true
  · rw [if_pos hauth]
    by_cases htoken : strictEquals (property msg "token") (some token) = true
    · rw [if_pos htoken]
      exact .authenticated hc hl ⟨hauth, htoken⟩ rfl rfl
    · rw [if_neg htoken]
      refine .stopped hc hl hm ?_ hc rfl rfl fun ho => absurd ho (by simp [Opened])
      rintro (⟨-, hcarry⟩ | ⟨-, hnew⟩)
      · exact htoken hcarry
      · exact absurd (strictEquals_unique hauth hnew) (by decide)
  rw [if_neg hauth]
  by_cases hs : s.authenticated = true
  · rw [hs, Bool.not_true, if_neg Bool.false_ne_true]
    by_cases hnew : strictEquals (property msg "control") (some "new-object") = true
    · rw [if_pos hnew]
      exact .ignored hc hl hs hnew rfl rfl
    rw [if_neg hnew]
    have hno : ¬Continues token s msg := by
      rintro (⟨hcarry, -⟩ | ⟨-, hnew'⟩)
      · exact hauth hcarry
      · exact hnew hnew'
    split
    · exact .stopped hc hl hm hno hc rfl hs.symm fun _ => hs
    · split <;> exact .stopped hc hl hm hno hc rfl hs.symm fun _ => hs
  · rw [Bool.not_eq_true] at hs
    rw [hs, Bool.not_false, if_pos rfl]
    refine .stopped hc hl hm ?_ hc rfl hs.symm fun ho => absurd ho (by simp [Opened])
    rintro (⟨hcarry, -⟩ | ⟨hs', -⟩)
    · exact hauth hcarry
    · rw [hs] at hs'
      cases hs'

theorem handled (h : config.authentication = some token) (s : ControlSocket) (msg : Value N) :
    Handled token s msg (s.onMessage config msg).1 (s.onMessage config msg).2 := by
  unfold onMessage
  by_cases hoff : s.crashed = true ∨ s.listening = false
  · rw [if_pos (by simpa using hoff)]
    exact .idle hoff rfl rfl
  · rw [if_neg (by simpa using hoff)]
    simp only [not_or, Bool.not_eq_true, Bool.not_eq_false] at hoff
    cases msg with
    | null => exact .crashed hoff.1 hoff.2 rfl rfl rfl
    | _ => exact handled_body h hoff.1 hoff.2 (fun e => nomatch e)

/-! ## Runs -/

theorem onMessages_off (hoff : s.crashed = true ∨ s.listening = false) (msgs : List (Value N)) :
    (s.onMessages config msgs).1 = s ∧ ∀ x ∈ (s.onMessages config msgs).2, x.2 = [] := by
  have hmsg : ∀ msg : Value N, s.onMessage config msg = (s, []) := fun msg => if_pos (by simpa using hoff)
  induction msgs with
  | nil => exact ⟨rfl, by simp [onMessages]⟩
  | cons msg msgs ih =>
    simp only [onMessages, hmsg]
    exact ⟨ih.1, List.forall_mem_cons.mpr ⟨rfl, ih.2⟩⟩

theorem gated_of_onMessages (h : config.authentication = some token) (s : ControlSocket) (msgs : List (Value N))
    {pre post : List (Value N × List (Effect N))} (hsplit : (s.onMessages config msgs).2 = pre ++ (msg, effects) :: post)
    (ho : Opened effects) : s.authenticated = true ∨ ∃ x ∈ pre, Carries token x.1 := by
  induction msgs generalizing s pre with
  | nil => simp [onMessages] at hsplit
  | cons m msgs ih =>
    have hm := handled h s m
    simp only [onMessages] at hsplit
    rcases hres : s.onMessage config m with ⟨t, es⟩
    rw [hres] at hm hsplit
    dsimp only at hm hsplit
    have hoff : ∀ {t : ControlSocket}, t.crashed = true ∨ t.listening = false → ∀ {pre},
        (t.onMessages config msgs).2 ≠ pre ++ (msg, effects) :: post := by
      intro t hoff pre he
      have := (onMessages_off hoff msgs).2 (msg, effects) (by rw [he]; simp)
      simp only at this
      subst this
      simp [Opened] at ho
    cases pre with
    | nil =>
      obtain ⟨he, -⟩ := List.cons.inj hsplit
      cases he
      cases hm with
      | stopped _ _ _ _ _ _ _ hopen => exact Or.inl (hopen ho)
      | idle _ _ he => subst he; simp [Opened] at ho
      | crashed _ _ _ _ he => subst he; simp [Opened] at ho
      | authenticated _ _ _ _ he => subst he; simp [Opened] at ho
      | ignored _ _ _ _ _ he => subst he; simp [Opened] at ho
    | cons x pre =>
      obtain ⟨hx, htail⟩ := List.cons.inj hsplit
      cases hm with
      | idle hs ht => subst ht; exact absurd htail (hoff hs)
      | crashed _ _ _ ht => subst ht; exact absurd htail (hoff (Or.inl rfl))
      | stopped _ _ _ _ _ hl => exact absurd htail (hoff (Or.inr hl))
      | authenticated _ _ hcarry => exact Or.inr ⟨x, List.mem_cons_self .., by rw [← hx]; exact hcarry⟩
      | ignored _ _ hs => exact Or.inl hs

theorem quiet_of_onMessages (h : config.authentication = some token) (s : ControlSocket) (msgs : List (Value N)) :
    Quiet (s.onMessages config msgs).2 := by
  intro pre msg effects post hsplit hr
  induction msgs generalizing s pre with
  | nil => simp [onMessages] at hsplit
  | cons m msgs ih =>
    have hm := handled h s m
    simp only [onMessages] at hsplit
    rcases hres : s.onMessage config m with ⟨t, es⟩
    rw [hres] at hm hsplit
    dsimp only at hm hsplit
    cases pre with
    | cons x pre => exact ih t pre (List.cons.inj hsplit).2
    | nil =>
      obtain ⟨he, htail⟩ := List.cons.inj hsplit
      cases he
      have hrejected : ∀ es : List (Effect N), es = [] → ¬Rejected es := by
        rintro _ rfl
        simp [Rejected]
      cases hm with
      | stopped _ _ _ _ _ hl => exact htail ▸ (onMessages_off (Or.inr hl) msgs).2
      | idle _ _ he => exact absurd hr (hrejected _ he)
      | crashed _ _ _ _ he => exact absurd hr (hrejected _ he)
      | authenticated _ _ _ _ he => exact absurd hr (hrejected _ he)
      | ignored _ _ _ _ _ he => exact absurd hr (hrejected _ he)

/-- The listener throws exactly at a null that comes while it listens. -/
theorem crashed_onMessages (h : config.authentication = some token) (hc : s.crashed = false) (hl : s.listening = true)
    (msgs : List (Value N)) : (s.onMessages config msgs).1.crashed = true ↔
      ∃ ms ms', msgs = ms ++ .null :: ms' ∧ Opens token s.authenticated ms := by
  induction msgs generalizing s with
  | nil => simp [onMessages, hc]
  | cons m msgs ih =>
    have hm := handled h s m
    simp only [onMessages]
    rcases hres : s.onMessage config m with ⟨t, es⟩
    rw [hres] at hm
    dsimp only at hm ⊢
    have hnull : m = .null → ¬Continues token s m := by
      rintro rfl (⟨hcarry, -⟩ | ⟨-, hnew⟩)
      · cases hcarry
      · cases hnew
    cases hm with
    | idle hoff => simp [hc, hl] at hoff
    | crashed _ _ hmsg ht =>
      subst hmsg
      have hoff : t.crashed = true ∨ t.listening = false := Or.inl (by rw [ht])
      rw [(onMessages_off hoff msgs).1]
      exact ⟨fun _ => ⟨[], msgs, rfl, trivial⟩, fun _ => by rw [ht]⟩
    | authenticated _ _ hcarry ht =>
      subst ht
      have hrest := ih (s := { s with authenticated := true }) hc hl
      refine hrest.trans ⟨?_, ?_⟩
      · rintro ⟨ms, ms', rfl, ho⟩
        exact ⟨m :: ms, ms', rfl, Or.inl ⟨hcarry, ho⟩⟩
      · rintro ⟨ms, ms', heq, ho⟩
        cases ms with
        | nil => exact absurd (Or.inl hcarry) (hnull (List.cons.inj heq).1)
        | cons x ms =>
          obtain ⟨rfl, rfl⟩ := List.cons.inj heq
          rcases ho with ⟨-, ho⟩ | ⟨-, hnew, -⟩
          · exact ⟨ms, ms', rfl, ho⟩
          · exact absurd (strictEquals_unique hcarry.1 hnew) (by decide)
    | ignored _ _ hs hnew ht =>
      subst ht
      rw [ih hc hl]
      constructor
      · rintro ⟨ms, ms', rfl, ho⟩
        exact ⟨m :: ms, ms', rfl, Or.inr ⟨hs, hnew, ho⟩⟩
      · rintro ⟨ms, ms', heq, ho⟩
        cases ms with
        | nil => exact absurd (Or.inr ⟨hs, hnew⟩) (hnull (List.cons.inj heq).1)
        | cons x ms =>
          obtain ⟨rfl, rfl⟩ := List.cons.inj heq
          rcases ho with ⟨hcarry, -⟩ | ⟨-, -, ho⟩
          · exact absurd (strictEquals_unique hcarry.1 hnew) (by decide)
          · exact ⟨ms, ms', rfl, ho⟩
    | stopped _ _ hmsg hno htc htl =>
      rw [(onMessages_off (Or.inr htl) msgs).1, htc]
      refine ⟨fun h => absurd h Bool.false_ne_true, ?_⟩
      rintro ⟨ms, ms', heq, ho⟩
      cases ms with
      | nil => exact absurd (List.cons.inj heq).1 hmsg
      | cons x ms =>
        obtain ⟨rfl, rfl⟩ := List.cons.inj heq
        rcases ho with ⟨hcarry, -⟩ | ⟨hs, hnew, -⟩
        · exact absurd (Or.inl hcarry) hno
        · exact absurd (Or.inr ⟨hs, hnew⟩) hno

theorem onMessages_append (s : ControlSocket) (msgs msgs' : List (Value N)) :
    s.onMessages config (msgs ++ msgs') =
      (((s.onMessages config msgs).1.onMessages config msgs').1,
        (s.onMessages config msgs).2 ++ ((s.onMessages config msgs).1.onMessages config msgs').2) := by
  induction msgs generalizing s with
  | nil => rfl
  | cons msg msgs ih => simp only [List.cons_append, onMessages, ih]

/-- The chunks matter only for the messages they make. -/
theorem serve_eq [Numeral N] (json : JsonDatagramSocket) (s : ControlSocket) (chunks : List (List Char)) :
    serve config json s chunks = s.onMessages config (json.receive chunks) := by
  induction chunks generalizing json s with
  | nil => rfl
  | cons data chunks ih => simp only [serve, JsonDatagramSocket.receive, onMessages_append, ih]

/-- Before the token nothing is exposed or forwarded. -/
theorem gated_of_run [Numeral N] (h : config.authentication = some token) (chunks : List (List Char)) :
    Gated token (run config chunks).2 := by
  intro pre msg effects post hsplit ho
  rw [run, serve_eq] at hsplit
  rcases gated_of_onMessages h (new config) _ hsplit ho with hs | hpre
  · simp [new, h] at hs
  · exact hpre

theorem quiet_of_run [Numeral N] (h : config.authentication = some token) (chunks : List (List Char)) :
    Quiet (run config chunks).2 := by
  rw [run, serve_eq]
  exact quiet_of_onMessages h _ _

/-- A shard with a token is safe from a stream exactly when no null comes to its
    listener. -/
theorem connection_safe_iff [Numeral N] (token : String) (rpcId : Value N) (chunks : List (List Char)) :
    (Gated token (run ⟨some token, rpcId⟩ chunks).2 ∧ Quiet (run ⟨some token, rpcId⟩ chunks).2 ∧
        (run ⟨some token, rpcId⟩ chunks).1.crashed = false) ↔
      ∀ ms ms', JsonDatagramSocket.receive {} chunks = ms ++ (.null : Value N) :: ms' → ¬Opens token false ms := by
  have hcrash : (run ⟨some token, rpcId⟩ chunks).1.crashed = true ↔
      ∃ ms ms', JsonDatagramSocket.receive {} chunks = ms ++ (.null : Value N) :: ms' ∧ Opens token false ms := by
    rw [run, serve_eq]
    exact crashed_onMessages rfl rfl rfl _
  constructor
  · rintro ⟨-, -, hsafe⟩ ms ms' heq ho
    rw [hcrash.mpr ⟨ms, ms', heq, ho⟩] at hsafe
    cases hsafe
  · intro hno
    refine ⟨gated_of_run rfl chunks, quiet_of_run rfl chunks, Bool.eq_false_iff.mpr fun hc => ?_⟩
    obtain ⟨ms, ms', heq, ho⟩ := hcrash.mp hc
    exact hno ms ms' heq ho

/-- A client sends `null` and a newline. -/
theorem null_crashes : ¬(Gated "secret" (run ⟨some "secret", .num (0 : Int)⟩ [['n', 'u', 'l', 'l', '\n']]).2 ∧
    Quiet (run ⟨some "secret", .num (0 : Int)⟩ [['n', 'u', 'l', 'l', '\n']]).2 ∧
    (run ⟨some "secret", .num (0 : Int)⟩ [['n', 'u', 'l', 'l', '\n']]).1.crashed = false) := by
  rintro ⟨-, -, hsafe⟩
  have hcrash : (run ⟨some "secret", .num (0 : Int)⟩ [['n', 'u', 'l', 'l', '\n']]).1.crashed = true := rfl
  rw [hcrash] at hsafe
  cases hsafe

end ControlSocket

end GenieCloud.Almond
