/-
  GenieCloud.Routes.Websockets — the websockets that are tied to an engine
  (`routes/my_conversation.ts`: results and doConversation; `routes/cloud-sync.ts`), and
  the socket-closed events of `almond/enginemanagerclient.ts`.

  The setup of a websocket awaits the engine, then an object that the engine opens for it,
  then, for a conversation or a sync, the messages that came meanwhile. The handler of the
  websocket's close event tells the object, if the variable with its proxy is set by then.
  From the engine on, a listener of socket-closed closes the websocket when the engine's
  socket does; all listeners are on one emitter, and each removes itself at the first
  event, whoever it is about.

  `follows_careful`: as long as no object opens for a websocket that has closed
  meanwhile, and no engine socket closes while an open websocket of another user has its
  listener, both sides follow each other. Either one ends that for the websocket: the
  object is never told (`opened_late_leaks`), and nothing closes the websocket with the
  engine (`deaf_stays_open`).
-/

import GenieCloud.Lib.Objects
import GenieCloud.Lib.Runs

namespace GenieCloud.Routes.Websockets

open GenieCloud.Lib.Objects GenieCloud.Lib.Runs

/-! ## Connections -/

inductive Kind where
  | results
  | conversation
  | sync
  deriving DecidableEq, Repr

inductive Ws where
  | opened
  | closing
  /-- Its close event has been handled. -/
  | closed
  deriving DecidableEq, Repr

/-- What the setup awaits. -/
inductive Stage where
  | engine
  | object
  | messages
  | finished
  | failed
  deriving DecidableEq, Repr

/-- The object in the engine. -/
inductive Remote where
  | none
  | opened
  /-- `destroy` or `onClose` was called. -/
  | told
  deriving DecidableEq, Repr

structure Conn where
  kind : Kind
  user : Nat
  ws : Ws
  stage : Stage
  /-- The close handler that knows of the object is attached. -/
  handler : Bool
  /-- `wrapper` or `_remote` is set. -/
  wrapper : Bool
  remote : Remote
  /-- Messages in `initQueue` or `_buffer`. -/
  queue : Nat
  deriving DecidableEq, Repr

def Conn.start (kind : Kind) (user : Nat) : Conn :=
  ⟨kind, user, .opened, .engine, kind = .conversation, false, .none, 0⟩

/-- `ws.close()`. -/
def Conn.close (c : Conn) : Conn := if c.ws = .opened then { c with ws := .closing } else c

/-- The catch block of the setup. -/
def Conn.fail (c : Conn) : Conn := { c.close with stage := .failed }

/-- The close handlers. -/
def Conn.onClose (c : Conn) : Conn :=
  if c.handler && c.wrapper then { c with ws := .closed, remote := .told } else { c with ws := .closed }

def Conn.onMessage (c : Conn) : Conn :=
  match c.kind with
  | .results => c
  | .conversation => if c.stage = .finished then c else { c with queue := c.queue + 1 }
  | .sync => if c.wrapper then c else { c with queue := c.queue + 1 }

inductive Event where
  /-- `getEngine` returns, or rejects. -/
  | engine (ok : Bool)
  /-- `addNotificationOutput`, `getOrOpenConversationWebSocket` or `newConnection` does. -/
  | object (ok : Bool)
  /-- The engine has handled one of the early messages, or failed to. -/
  | sent (ok : Bool)
  | finish
  | message
  /-- The browser or an error closes the websocket. -/
  | close
  /-- The close event. -/
  | closed
  /-- The call of `destroy` is over. -/
  | destroyed
  deriving DecidableEq, Repr

def Conn.step (c : Conn) : Event → Option Conn
  | .engine ok =>
    if c.stage = .engine then
      some (if ok then { c with stage := .object, handler := c.handler || c.kind = .results } else c.fail)
    else none
  | .object ok =>
    if c.stage = .object then
      some (if ok then
        { c with
          stage := if c.kind = .results then .finished else .messages
          -- `setRemote` attaches a close handler of its own
          handler := c.handler || c.kind = .sync
          wrapper := true
          remote := .opened }
      else c.fail)
    else none
  | .sent ok =>
    match c.stage, c.queue with
    | .messages, n + 1 =>
      -- the wrapper of a conversation that has closed is gone
      some (if ok && c.wrapper then { c with queue := n } else c.fail)
    | _, _ => none
  | .finish => if c.stage = .messages ∧ c.queue = 0 then some { c with stage := .finished } else none
  | .message => if c.ws = .closed then none else some c.onMessage
  | .close => some c.close
  | .closed => if c.ws = .closed then none else some c.onClose
  | .destroyed =>
    if c.remote = .told ∧ c.kind ≠ .sync then some { c with wrapper := false } else none

/-! ## The emitter -/

structure St where
  conns : List Conn
  /-- The listeners of socket-closed, by their websockets. -/
  listeners : List Nat

/-- The `i`th websocket's listener hears that the socket of a user closed. -/
def onclosed (userId : Nat) (s : St) (i : Nat) : St where
  conns := s.conns.modify i fun c => if userId = c.user then c.close else c
  listeners := s.listeners.erase i

/-- The emitter calls the listeners that are there when it is called. -/
def emit (s : St) (userId : Nat) : St := s.listeners.foldl (onclosed userId) s

inductive Ev where
  | connect (kind : Kind) (user : Nat)
  | conn (i : Nat) (e : Event)
  | socketClosed (user : Nat)
  deriving DecidableEq, Repr

def step (s : St) : Ev → Option St
  | .connect kind user => some { s with conns := s.conns ++ [.start kind user] }
  | .conn i e =>
    match s.conns[i]? with
    | some c =>
      match c.step e with
      | some c => some ⟨s.conns.set i c, if e = .engine true then s.listeners ++ [i] else s.listeners⟩
      | none => none
    | none => none
  | .socketClosed user => some (emit s user)

def system : System St Ev where
  init s := s = ⟨[], []⟩
  step := step

/-! ## The property -/

/-- The setup is over and the websocket closed, and the object was told. -/
def Told (c : Conn) : Prop := c.stage = .finished ∨ c.stage = .failed → c.ws = .closed → c.remote ≠ .opened

/-- Objects know of their websockets, and a websocket closes with its user's engine. -/
def Follows (s : St) : Prop :=
  (∀ (i : Nat) (c : Conn), s.conns[i]? = some c → Told c) ∧
  ∀ (u : Nat) (t : St), step s (.socketClosed u) = some t → ∀ (i : Nat) (c c' : Conn), s.conns[i]? = some c →
    c.stage = .finished → c.user = u → t.conns[i]? = some c' → c'.ws ≠ .opened

/-- No object opens for a websocket that has closed, and no engine socket closes while an
    open websocket of another user listens. -/
def Careful (s : St) : Ev → Prop
  | .conn i (.object true) => ∀ c, s.conns[i]? = some c → c.ws ≠ .closed
  | .socketClosed u => ∀ i ∈ s.listeners, ∀ c, s.conns[i]? = some c → c.ws = .opened → c.user = u
  | _ => True

/-! ## One connection -/

variable {c c' : Conn} {s t : St}

@[simp] theorem close_kind (c : Conn) : c.close.kind = c.kind := by
  unfold Conn.close
  split <;> rfl

@[simp] theorem close_remote (c : Conn) : c.close.remote = c.remote := by
  unfold Conn.close
  split <;> rfl

@[simp] theorem close_stage (c : Conn) : c.close.stage = c.stage := by
  unfold Conn.close
  split <;> rfl

@[simp] theorem close_wrapper (c : Conn) : c.close.wrapper = c.wrapper := by
  unfold Conn.close
  split <;> rfl

@[simp] theorem close_handler (c : Conn) : c.close.handler = c.handler := by
  unfold Conn.close
  split <;> rfl

theorem close_ws (c : Conn) : c.close.ws ≠ .opened := by
  unfold Conn.close
  split
  · nofun
  · assumption

theorem close_closed (c : Conn) : c.close.ws = .closed ↔ c.ws = .closed := by
  unfold Conn.close
  split
  · next h => simp [h]
  · rfl

theorem close_close (c : Conn) : c.close.close = c.close := if_neg (close_ws c)

theorem onMessage_queue (c : Conn) : ∃ n, c.onMessage = { c with queue := n } := by
  unfold Conn.onMessage
  split
  · exact ⟨c.queue, rfl⟩
  · split
    · exact ⟨c.queue, rfl⟩
    · exact ⟨c.queue + 1, rfl⟩
  · split
    · exact ⟨c.queue, rfl⟩
    · exact ⟨c.queue + 1, rfl⟩

/-- What a step can do. -/
inductive Moves (c : Conn) : Event → Conn → Prop
  | fail (e : Event) : Moves c e c.fail
  | engine : c.stage = .engine →
      Moves c (.engine true) { c with stage := .object, handler := c.handler || c.kind = .results }
  | object (stage : Stage) : c.stage = .object → stage = .finished ∨ stage = .messages →
      Moves c (.object true)
        { c with stage := stage, handler := c.handler || c.kind = .sync, wrapper := true, remote := .opened }
  | sent (n : Nat) : c.stage = .messages → Moves c (.sent true) { c with queue := n }
  | finish : c.stage = .messages → Moves c .finish { c with stage := .finished }
  | message (n : Nat) : c.ws ≠ .closed → Moves c .message { c with queue := n }
  | close : Moves c .close c.close
  /-- The handler knows of the object. -/
  | told : c.ws ≠ .closed → c.wrapper = true → Moves c .closed { c with ws := .closed, remote := .told }
  | closed : c.ws ≠ .closed → ¬ (c.handler && c.wrapper) = true → Moves c .closed { c with ws := .closed }
  | destroyed : c.remote = .told → Moves c .destroyed { c with wrapper := false }

theorem step_moves {e : Event} (hs : c.step e = some c') : Moves c e c' := by
  cases e with
  | engine ok =>
    simp only [Conn.step] at hs
    split at hs <;> cases hs
    next hstage =>
    cases ok with
    | true => exact .engine hstage
    | false => exact .fail _
  | object ok =>
    simp only [Conn.step] at hs
    split at hs <;> cases hs
    next hstage =>
    cases ok with
    | true =>
      refine .object _ hstage ?_
      split
      · exact .inl rfl
      · exact .inr rfl
    | false => exact .fail _
  | sent ok =>
    simp only [Conn.step] at hs
    split at hs <;> cases hs
    next n hstage hq =>
    split
    · next hok =>
      obtain ⟨rfl, -⟩ := Bool.and_eq_true_iff.mp hok
      exact .sent n hstage
    · exact .fail _
  | finish =>
    simp only [Conn.step] at hs
    split at hs <;> cases hs
    next hstage => exact .finish hstage.1
  | message =>
    simp only [Conn.step] at hs
    split at hs <;> cases hs
    next hw =>
    obtain ⟨n, hn⟩ := onMessage_queue c
    rw [hn]
    exact .message n hw
  | close =>
    cases hs
    exact .close
  | closed =>
    simp only [Conn.step] at hs
    split at hs <;> cases hs
    next hw =>
    unfold Conn.onClose
    split
    · next hk => exact .told hw (Bool.and_eq_true_iff.mp hk).2
    · next hk => exact .closed hw hk
  | destroyed =>
    simp only [Conn.step] at hs
    split at hs <;> cases hs
    next ht => exact .destroyed ht.1

/-- What holds of every connection. -/
structure ConnOk (c : Conn) : Prop where
  attached : c.kind = .conversation ∨ c.kind = .results ∧ c.stage = .object → c.handler = true
  fresh : c.stage = .engine ∨ c.stage = .object → c.remote = .none ∧ c.wrapper = false
  opened : c.remote = .opened → c.handler = true ∧ c.wrapper = true
  failed : c.stage = .failed → c.ws ≠ .opened

theorem start_ok (kind : Kind) (user : Nat) : ConnOk (.start kind user) := by
  refine ⟨fun h => ?_, fun _ => ⟨rfl, rfl⟩, nofun, nofun⟩
  rcases h with rfl | ⟨-, hs⟩
  · rfl
  · cases hs

theorem ConnOk.close (h : ConnOk c) : ConnOk c.close := by
  refine ⟨?_, ?_, ?_, fun _ => close_ws c⟩
  · simpa using h.attached
  · simpa using h.fresh
  · simpa using h.opened

theorem ConnOk.fail (h : ConnOk c) : ConnOk c.fail := by
  refine ⟨fun hk => ?_, by simp [Conn.fail], by simpa [Conn.fail] using h.opened, fun _ => close_ws c⟩
  rcases hk with hk | ⟨-, hs⟩
  · simpa [Conn.fail] using h.attached (.inl (by simpa [Conn.fail] using hk))
  · cases hs

theorem ConnOk.step (h : ConnOk c) {e : Event} (hs : c.step e = some c') : ConnOk c' := by
  cases step_moves hs with
  | fail => exact h.fail
  | engine hstage =>
    have hfresh := h.fresh (.inl hstage)
    refine ⟨fun hk => ?_, fun _ => hfresh, fun hr => ?_, nofun⟩
    · rcases hk with hk | ⟨hk, -⟩
      · simp [h.attached (.inl hk)]
      · simp [show c.kind = .results from hk]
    · cases hfresh.1.symm.trans hr
  | object stage hobj hstage =>
    have hh : (c.handler || decide (c.kind = .sync)) = true := by
      cases hk : c.kind with
      | results => simp [h.attached (.inr ⟨hk, hobj⟩)]
      | conversation => simp [h.attached (.inl hk)]
      | sync => simp
    rcases hstage with rfl | rfl
    · exact ⟨fun _ => hh, nofun, fun _ => ⟨hh, rfl⟩, nofun⟩
    · exact ⟨fun _ => hh, nofun, fun _ => ⟨hh, rfl⟩, nofun⟩
  | sent n hstage => exact ⟨h.attached, h.fresh, h.opened, h.failed⟩
  | finish hstage =>
    refine ⟨fun hk => ?_, nofun, h.opened, nofun⟩
    rcases hk with hk | ⟨-, hstage⟩
    · exact h.attached (.inl hk)
    · cases hstage
  | message n hw => exact ⟨h.attached, h.fresh, h.opened, h.failed⟩
  | close => exact h.close
  | told hw hk =>
    refine ⟨h.attached, fun hstage => ?_, nofun, nofun⟩
    cases hk.symm.trans (h.fresh hstage).2
  | closed hw hk => exact ⟨h.attached, h.fresh, h.opened, nofun⟩
  | destroyed ht =>
    refine ⟨h.attached, fun hstage => ⟨(h.fresh hstage).1, rfl⟩, fun hr => ?_, h.failed⟩
    cases ht.symm.trans hr

/-- An object that is there and was not told: the websocket has not closed, unless it had
    when the object opened. -/
theorem step_opened (h : ConnOk c) {e : Event} (hs : c.step e = some c') (hc : e = .object true → c.ws ≠ .closed)
    (ho : c.remote = .opened → c.ws ≠ .closed) (hr : c'.remote = .opened) : c'.ws ≠ .closed := by
  cases step_moves hs with
  | fail =>
    have hr : c.remote = .opened := by simpa [Conn.fail] using hr
    exact fun hw => ho hr ((close_closed c).mp hw)
  | engine hstage => exact ho hr
  | object stage hobj hstage => exact hc rfl
  | sent n hstage => exact ho hr
  | finish hstage => exact ho hr
  | message n hw => exact hw
  | close =>
    rw [close_remote] at hr
    exact fun hw => ho hr ((close_closed c).mp hw)
  | told hw hk => cases hr
  | closed hw hk => exact absurd (by simp [h.opened hr]) hk
  | destroyed ht => exact ho hr

/-- An open websocket past `getEngine` was open and past it, or `getEngine` returns just now. -/
theorem step_open {e : Event} (hs : c.step e = some c') (hw : c'.ws = .opened) (hstage : c'.stage ≠ .engine) :
    c.ws = .opened ∧ (c.stage ≠ .engine ∨ e = .engine true) := by
  cases step_moves hs with
  | fail => exact absurd hw (close_ws c)
  | engine hst => exact ⟨hw, .inr rfl⟩
  | object stage hobj hst => exact ⟨hw, .inl (by rw [hobj]; nofun)⟩
  | sent n hst => exact ⟨hw, .inl hstage⟩
  | finish hst => exact ⟨hw, .inl (by rw [hst]; nofun)⟩
  | message n hopen => exact ⟨hw, .inl hstage⟩
  | close => exact absurd hw (close_ws c)
  | told hopen hk => cases hw
  | closed hopen hk => cases hw
  | destroyed ht => exact ⟨hw, .inl hstage⟩

/-! ## The emitter -/

theorem foldl_listeners (u : Nat) (l : List Nat) (s : St) (h : s.listeners = l) :
    (l.foldl (onclosed u) s).listeners = [] := by
  induction l generalizing s with
  | nil => exact h
  | cons i l ih =>
    apply ih
    rw [onclosed, h, List.erase_cons_head]

theorem foldl_conns (u : Nat) (l : List Nat) (s : St) (j : Nat) :
    (l.foldl (onclosed u) s).conns[j]? = s.conns[j]?.map fun c => if j ∈ l ∧ u = c.user then c.close else c := by
  induction l generalizing s with
  | nil =>
    rw [List.foldl_nil]
    cases s.conns[j]? with
    | none => rfl
    | some c => simp
  | cons i l ih =>
    rw [List.foldl_cons, ih]
    simp only [onclosed, List.getElem?_modify]
    cases s.conns[j]? with
    | none => rfl
    | some c =>
      by_cases hij : i = j
      · by_cases hu : u = c.user
        · simp [hij, hu, close_close]
        · simp [hij, hu]
      · simp [hij, Ne.symm hij]

/-- After an event nobody listens. -/
theorem emit_listeners (s : St) (u : Nat) : (emit s u).listeners = [] := foldl_listeners u s.listeners s rfl

/-- An event closes the user's websockets that listen, and leaves the others. -/
theorem emit_conns (s : St) (u j : Nat) :
    (emit s u).conns[j]? = s.conns[j]?.map fun c => if j ∈ s.listeners ∧ u = c.user then c.close else c :=
  foldl_conns u s.listeners s j

/-! ## Runs -/

structure Inv (s : St) : Prop where
  conn : ∀ (i : Nat) (c : Conn), s.conns[i]? = some c → ConnOk c
  /-- An object whose websocket has closed was told. -/
  told : ∀ (i : Nat) (c : Conn), s.conns[i]? = some c → c.remote = .opened → c.ws ≠ .closed
  listens : ∀ (i : Nat) (c : Conn), s.conns[i]? = some c → c.ws = .opened → c.stage ≠ .engine → i ∈ s.listeners

theorem Inv.step {e : Ev} (h : Inv s) (hc : Careful s e) (hs : step s e = some t) : Inv t := by
  cases e with
  | connect kind user =>
    cases hs
    refine ⟨fun i c hi => ?_, fun i c hi => ?_, fun i c hi => ?_⟩
    · rw [getElem?_created] at hi
      split at hi
      · cases hi
        exact start_ok kind user
      · exact h.conn i c hi
    · rw [getElem?_created] at hi
      split at hi
      · cases hi
        nofun
      · exact h.told i c hi
    · rw [getElem?_created] at hi
      split at hi
      · cases hi
        exact fun _ hst => absurd rfl hst
      · exact h.listens i c hi
  | conn i e =>
    simp only [Websockets.step] at hs
    split at hs
    · next c hi =>
      split at hs
      · next c' hc' =>
        cases hs
        have hat : ∀ (j : Nat) (d : Conn), (s.conns.set i c')[j]? = some d →
            i = j ∧ c' = d ∨ i ≠ j ∧ s.conns[j]? = some d := by
          intro j d hj
          rw [getElem?_updated hi] at hj
          split at hj
          · next hij => exact .inl ⟨hij, Option.some.inj hj⟩
          · next hij => exact .inr ⟨hij, hj⟩
        refine ⟨fun j d hj => ?_, fun j d hj => ?_, fun j d hj hw hst => ?_⟩
        · rcases hat j d hj with ⟨-, rfl⟩ | ⟨-, hj⟩
          · exact (h.conn i c hi).step hc'
          · exact h.conn j d hj
        · rcases hat j d hj with ⟨-, rfl⟩ | ⟨-, hj⟩
          · refine step_opened (h.conn i c hi) hc' (fun he => ?_) (h.told i c hi)
            subst he
            exact hc c hi
          · exact h.told j d hj
        · rcases hat j d hj with ⟨rfl, rfl⟩ | ⟨-, hj⟩
          · obtain ⟨hwc, hstc | he⟩ := step_open hc' hw hst
            · have hmem := h.listens i c hi hwc hstc
              dsimp only
              split
              · exact List.mem_append_left _ hmem
              · exact hmem
            · dsimp only
              rw [if_pos he]
              exact List.mem_append_right _ (List.mem_singleton.mpr rfl)
          · have hmem := h.listens j d hj hw hst
            dsimp only
            split
            · exact List.mem_append_left _ hmem
            · exact hmem
      · cases hs
    · cases hs
  | socketClosed u =>
    cases hs
    -- every open websocket that listens is the user's, and is closed
    have hat : ∀ (j : Nat) (d : Conn), (emit s u).conns[j]? = some d → ∃ c, s.conns[j]? = some c ∧
        (d = c ∨ d = c.close) ∧ (c.ws = .opened → c.stage ≠ .engine → d.ws ≠ .opened) := by
      intro j d hj
      rw [emit_conns, Option.map_eq_some_iff] at hj
      obtain ⟨c, hjc, hd⟩ := hj
      refine ⟨c, hjc, ?_, fun hw hst => ?_⟩
      · split at hd
        · exact .inr hd.symm
        · exact .inl hd.symm
      · have hmem := h.listens j c hjc hw hst
        have huser := hc j hmem c hjc hw
        rw [if_pos ⟨hmem, huser.symm⟩] at hd
        exact hd ▸ close_ws c
    refine ⟨fun j d hj => ?_, fun j d hj hr => ?_, fun j d hj hw hst => ?_⟩
    · obtain ⟨c, hjc, rfl | rfl, -⟩ := hat j d hj
      · exact h.conn j d hjc
      · exact (h.conn j c hjc).close
    · obtain ⟨c, hjc, rfl | rfl, -⟩ := hat j d hj
      · exact h.told j d hjc hr
      · rw [close_remote] at hr
        exact fun hw => h.told j c hjc hr ((close_closed c).mp hw)
    · obtain ⟨c, hjc, rfl | rfl, hclosed⟩ := hat j d hj
      · exact absurd hw (hclosed hw hst)
      · exact absurd hw (close_ws c)

theorem reach_inv (h : Reach system Careful s) : Inv s := by
  apply h.inv
  · intro s0 h0
    rw [show s0 = ⟨[], []⟩ from h0]
    have hnone : ∀ (i : Nat) (c : Conn), (⟨[], []⟩ : St).conns[i]? ≠ some c := by
      intro i c hi
      cases hi
    exact ⟨fun i c hi => absurd hi (hnone i c), fun i c hi => absurd hi (hnone i c), fun i c hi => absurd hi (hnone i c)⟩
  · intro s e t hi hc hs
    exact hi.step hc hs

theorem follows_of_inv (h : Inv s) : Follows s := by
  refine ⟨fun i c hi _ hw hr => h.told i c hi hr hw, fun u t hs i c c' hi hst hu hi' => ?_⟩
  cases hs
  rw [emit_conns, hi, Option.map_some, Option.some.injEq] at hi'
  subst hi'
  split
  · exact close_ws c
  · next hn =>
    intro hw
    exact hn ⟨h.listens i c hi hw (by rw [hst]; nofun), hu.symm⟩

/-! ## What one careless event leaves -/

/-- An object without a websocket stays as it is. -/
theorem leaked_step {e : Event} (hw : c.ws = .closed) (hr : c.remote = .opened) (hs : c.step e = some c') :
    c'.ws = .closed ∧ c'.remote = .opened := by
  have hclose : c.close = c := if_neg (by rw [hw]; nofun)
  cases step_moves hs with
  | fail =>
    rw [Conn.fail, hclose]
    exact ⟨hw, hr⟩
  | engine hstage => exact ⟨hw, hr⟩
  | object stage hobj hstage => exact ⟨hw, rfl⟩
  | sent n hstage => exact ⟨hw, hr⟩
  | finish hstage => exact ⟨hw, hr⟩
  | message n hopen => exact absurd hw hopen
  | close =>
    rw [hclose]
    exact ⟨hw, hr⟩
  | told hopen hk => exact absurd hw hopen
  | closed hopen hk => exact absurd hw hopen
  | destroyed ht => cases hr.symm.trans ht

/-- The connections of a run that go on to meet `P` while each step of theirs keeps it. -/
theorem path_conn {P : Conn → Prop} {i : Nat} (hstep : ∀ c c' e, P c → c.step e = some c' → P c')
    (hclose : ∀ c, P c → P c.close) (hp : Path system any s t) :
    (∃ c, s.conns[i]? = some c ∧ P c) → ∃ c, t.conns[i]? = some c ∧ P c := by
  refine hp.rel (R := fun s t => (∃ c, s.conns[i]? = some c ∧ P c) → ∃ c, t.conns[i]? = some c ∧ P c)
    (fun _ => id) (fun _ _ _ h1 h2 h => h2 (h1 h)) ?_
  intro s e t _ hs h
  obtain ⟨c, hi, hP⟩ := h
  cases e with
  | connect kind user =>
    cases hs
    exact ⟨c, getElem?_kept _ hi, hP⟩
  | conn j e =>
    simp only [system, Websockets.step] at hs
    split at hs
    · next d hj =>
      split at hs
      · next d' hd =>
        cases hs
        by_cases hij : j = i
        · subst hij
          cases hi.symm.trans hj
          exact ⟨d', getElem?_updated_self hj d', hstep c d' e hP hd⟩
        · refine ⟨c, ?_, hP⟩
          show (s.conns.set j d')[i]? = some c
          rw [getElem?_updated hj, if_neg hij, hi]
      · cases hs
    · cases hs
  | socketClosed u =>
    cases hs
    refine ⟨_, by rw [emit_conns, hi, Option.map_some], ?_⟩
    split
    · exact hclose c hP
    · exact hP

/-- An object that opens for a websocket that has closed is never told. -/
theorem opened_late_leaks {i : Nat} {u : St} (hi : s.conns[i]? = some c) (hw : c.ws = .closed)
    (hs : step s (.conn i (.object true)) = some t) (hp : Path system any t u) :
    ∃ d, u.conns[i]? = some d ∧ d.ws = .closed ∧ d.remote = .opened := by
  refine path_conn (P := fun c => c.ws = .closed ∧ c.remote = .opened) (fun c c' e h => leaked_step h.1 h.2) ?_ hp ?_
  · intro c h
    exact ⟨(close_closed c).mpr h.1, by rw [close_remote]; exact h.2⟩
  · simp only [step, hi, Conn.step] at hs
    split at hs
    · next c' hc' =>
      cases hs
      split at hc'
      · cases hc'
        exact ⟨_, getElem?_updated_self hi _, hw, rfl⟩
      · cases hc'
    · cases hs

/-- A setup passes `getEngine` once. -/
theorem past_engine {e : Event} (hst : c.stage ≠ .engine) (hs : c.step e = some c') :
    c'.stage ≠ .engine ∧ e ≠ .engine true := by
  by_cases he : e = .engine true
  · simp [he, Conn.step, hst] at hs
  · refine ⟨?_, he⟩
    cases step_moves hs with
    | fail => nofun
    | engine hstage => exact absurd hstage hst
    | object stage hobj hstage => obtain rfl | rfl := hstage <;> nofun
    | sent n hstage => exact hst
    | finish hstage => nofun
    | message n hopen => exact hst
    | close =>
      rw [close_stage]
      exact hst
    | told hopen hk => exact hst
    | closed hopen hk => exact hst
    | destroyed ht => exact hst

/-- The `i`th websocket is past `getEngine`, and its listener is gone. -/
def Deaf (i : Nat) (s : St) : Prop := i ∉ s.listeners ∧ ∃ c, s.conns[i]? = some c ∧ c.stage ≠ .engine

theorem Deaf.step {i : Nat} {e : Ev} (h : Deaf i s) (hs : step s e = some t) : Deaf i t := by
  obtain ⟨hl, c, hi, hst⟩ := h
  cases e with
  | connect kind user =>
    cases hs
    exact ⟨hl, c, getElem?_kept _ hi, hst⟩
  | conn j e =>
    simp only [Websockets.step] at hs
    split at hs
    · next d hj =>
      split at hs
      · next d' hd =>
        cases hs
        by_cases hij : j = i
        · subst hij
          cases hi.symm.trans hj
          obtain ⟨hst', hne⟩ := past_engine hst hd
          refine ⟨?_, d', getElem?_updated_self hj d', hst'⟩
          rw [if_neg hne]
          exact hl
        · refine ⟨?_, c, ?_, hst⟩
          · dsimp only
            split
            · exact fun hm => (List.mem_append.mp hm).elim hl fun hm => hij (List.mem_singleton.mp hm).symm
            · exact hl
          · show (s.conns.set j d')[i]? = some c
            rw [getElem?_updated hj, if_neg hij, hi]
      · cases hs
    · cases hs
  | socketClosed u =>
    cases hs
    refine ⟨by rw [emit_listeners]; exact List.not_mem_nil, _, by rw [emit_conns, hi, Option.map_some], ?_⟩
    rw [if_neg fun h => hl h.1]
    exact hst

/-- After the event of another user no event closes a websocket that was set up before it. -/
theorem deaf_stays_open {i v : Nat} {u w : St} (hi : s.conns[i]? = some c) (hst : c.stage ≠ .engine) (hv : c.user ≠ v)
    (hs : step s (.socketClosed v) = some t) (hp : Path system any t u) (hw : step u (.socketClosed c.user) = some w) :
    t.conns[i]? = some c ∧ w.conns[i]? = u.conns[i]? := by
  cases hs
  cases hw
  have hkept : (emit s v).conns[i]? = some c := by
    rw [emit_conns, hi, Option.map_some, if_neg fun h => hv h.2.symm]
  have hdeaf : Deaf i (emit s v) := ⟨by rw [emit_listeners]; exact List.not_mem_nil, c, hkept, hst⟩
  have hdeaf' : Deaf i u :=
    hp.rel (R := fun s t => Deaf i s → Deaf i t) (fun _ => id) (fun _ _ _ h1 h2 h => h2 (h1 h))
      (fun _ _ _ _ hs h => h.step hs) hdeaf
  obtain ⟨hl, d, hd, -⟩ := hdeaf'
  refine ⟨hkept, ?_⟩
  rw [emit_conns, hd, Option.map_some, if_neg fun h => hl h.1]

/-- In a run without such events both sides follow each other. After an object opened for
    a websocket that had closed it is never told; and after the event of another user a
    websocket past `getEngine` is closed by no event of its own user any more. -/
theorem follows_careful (h : Reach system Careful s) :
    Follows s ∧
    (∀ (i : Nat) (c : Conn) (t u : St), s.conns[i]? = some c → c.ws = .closed →
      step s (.conn i (.object true)) = some t → Path system any t u →
      ∃ d, u.conns[i]? = some d ∧ d.ws = .closed ∧ d.remote = .opened) ∧
    ∀ (i v : Nat) (c : Conn) (t u w : St), s.conns[i]? = some c → c.stage ≠ .engine → c.user ≠ v →
      step s (.socketClosed v) = some t → Path system any t u → step u (.socketClosed c.user) = some w →
      t.conns[i]? = some c ∧ w.conns[i]? = u.conns[i]? :=
  ⟨follows_of_inv (reach_inv h), fun _ _ _ _ hi hw hs hp => opened_late_leaks hi hw hs hp,
    fun _ _ _ _ _ _ hi hst hv hs hp hw => deaf_stays_open hi hst hv hs hp hw⟩

/-- A notification websocket that closes while the engine opens its output, and one of
    another user: the first output is never destroyed, and when first the engine socket of
    user 1 closes and then that of user 2, the second websocket stays open. -/
theorem careless :
    ∃ s, run system ⟨[], []⟩ [.connect .results 1, .conn 0 (.engine true), .conn 0 .closed, .conn 0 (.object true),
        .connect .results 2, .conn 1 (.engine true), .conn 1 (.object true), .socketClosed 1, .socketClosed 2] = some s ∧
      s.conns[0]?.map (fun c => (c.stage, c.ws, c.remote)) = some (.finished, .closed, .opened) ∧
      s.conns[1]?.map (fun c => (c.stage, c.ws, c.user)) = some (.finished, .opened, 2) := by
  refine ⟨_, rfl, ?_⟩
  decide

/-- A conversation that waits for its object. -/
def waiting : St := ⟨[⟨.conversation, 1, .opened, .object, true, false, .none, 0⟩], [0]⟩

theorem waiting_reach : Reach system Careful waiting := by
  have hconnect : Reach system Careful ⟨[.start .conversation 1], []⟩ :=
    .step (.connect .conversation 1) (.init rfl) trivial rfl
  exact .step (.conn 0 (.engine true)) hconnect trivial rfl

theorem follows_careful_conversation :
    Follows ⟨[⟨.conversation, 1, .closed, .finished, true, true, .told, 0⟩], [0]⟩ := by
  have hopen : Reach system Careful ⟨[⟨.conversation, 1, .opened, .messages, true, true, .opened, 0⟩], [0]⟩ := by
    refine .step (.conn 0 (.object true)) waiting_reach (fun c hc => ?_) rfl
    cases hc
    nofun
  have hfinish : Reach system Careful ⟨[⟨.conversation, 1, .opened, .finished, true, true, .opened, 0⟩], [0]⟩ :=
    .step (.conn 0 .finish) hopen trivial rfl
  exact (follows_careful (.step (.conn 0 .closed) hfinish trivial rfl)).1

end GenieCloud.Routes.Websockets
