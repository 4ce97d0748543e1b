/-
  GenieCloud.Routes.MyConversation — the relay of a conversation websocket to its engine
  (`anonymous` and `doConversation` of `routes/my_conversation.ts`, `getAnonymousUser` of
  `util/user.ts`).

  `doConversation` registers the listener of messages, and then waits for the engine and for the
  conversation. A message is parsed in a later task, which puts it on the initial queue until
  the conversation is opened. The loop that sends this queue sees what is put on it meanwhile,
  and opens the conversation when it comes to the end. An anonymous conversation waits for its
  user first, without a listener.

  - `inv_listening`, `inv_user`: from the listener on no message is lost, and before it all are.
  - `settles`: when no more messages come, the queues run empty.
  - `relayed_iff`: the engine is called with exactly the messages that arrived, in order, exactly
    if none arrived before the user of an anonymous conversation was found.
-/

import GenieCloud.Lib.Runs
import Mathlib.Data.List.Infix

namespace GenieCloud.Routes.MyConversation

open GenieCloud.Lib.Runs

variable {Data Value : Type} (parse : Data → Option Value)

/-! ## The conversation -/

/-- What the handler of the route waits for. -/
inductive Phase where
  /-- `getAnonymousUser` -/
  | user
  | engine
  /-- `getOrOpenConversationWebSocket` -/
  | wrapper
  /-- A call of the loop. -/
  | draining
  | opened
  deriving DecidableEq, Repr

structure Conversation (Data Value : Type) where
  phase : Phase
  initQueue : List Value
  /-- The position of the loop in the queue. -/
  index : Nat
  /-- The tasks of the messages that have been received. -/
  tasks : List Data
  terminated : Bool
  /-- The messages that arrived, and those that `handle` was called with. -/
  received : List Value
  handled : List Value
  deriving DecidableEq, Repr

def create (anonymous : Bool) : Conversation Data Value :=
  ⟨if anonymous then .user else .engine, [], 0, [], false, [], []⟩

inductive Event (Data : Type) where
  | message (data : Data)
  /-- The promises of `anonymous` and `doConversation` are fulfilled. -/
  | user
  | engine
  | wrapper
  /-- The call that the loop awaits resolves. -/
  | resolved
  /-- The first task runs. -/
  | task
  deriving DecidableEq, Repr

/-- The loop over the initial queue, and what follows it. -/
def sendNext (c : Conversation Data Value) : Conversation Data Value :=
  match c.initQueue[c.index]? with
  | some msg => { c with phase := .draining, index := c.index + 1, handled := c.handled ++ [msg] }
  | none => { c with phase := .opened, initQueue := [] }

def onMessage (c : Conversation Data Value) (data : Data) : Conversation Data Value :=
  match parse data with
  | some parsed =>
    if c.phase = .opened then { c with handled := c.handled ++ [parsed] }
    else { c with initQueue := c.initQueue ++ [parsed] }
  | none => { c with terminated := true }

def step (c : Conversation Data Value) : Event Data → Option (Conversation Data Value)
  | .message data =>
    let c := { c with received := c.received ++ (parse data).toList }
    some (if c.phase = .user then c else { c with tasks := c.tasks ++ [data] })
  | .user => if c.phase = .user then some { c with phase := .engine } else none
  | .engine => if c.phase = .engine then some { c with phase := .wrapper } else none
  | .wrapper => if c.phase = .wrapper then some (sendNext c) else none
  | .resolved => if c.phase = .draining then some (sendNext c) else none
  | .task =>
    match c.tasks with
    | data :: rest => some (onMessage parse { c with tasks := rest } data)
    | [] => none

def relay (anonymous : Bool) : System (Conversation Data Value) (Event Data) := ⟨fun c => c = create anonymous, step parse⟩

/-! ## What the relay is for -/

def Quiet (es : List (Event Data)) : Prop := ∀ e ∈ es, ∀ data, e ≠ .message data

/-- Nothing that has arrived is under way. -/
def Settled (c : Conversation Data Value) : Prop := c.phase = .opened ∧ c.tasks = []

structure Relayed (anonymous : Bool) (c : Conversation Data Value) : Prop where
  ordered : c.handled <+: c.received
  /-- When no more messages come, the engine has been called with all of them in the end. -/
  complete : ∀ es t, Quiet es → run (relay parse anonymous) c es = some t → Settled t → t.handled = c.received
  settles : ∃ es t, Quiet es ∧ run (relay parse anonymous) c es = some t ∧ Settled t

/-- The messages that arrive before the user is found. -/
def early : List (Event Data) → List Value
  | [] => []
  | .user :: _ => []
  | .message data :: es => (parse data).toList ++ early es
  | _ :: es => early es

/-- The messages that arrive when there is no listener. -/
def unheard (anonymous : Bool) (es : List (Event Data)) : List Value := if anonymous then early parse es else []

/-! ## The invariant -/

variable {parse} {anonymous : Bool} {lost : List Value} {c t : Conversation Data Value} {e : Event Data}
  {es : List (Event Data)}

/-- But for the lost ones, every message is handled, on the queue or in a task. -/
structure Inv (parse : Data → Option Value) (lost : List Value) (c : Conversation Data Value) : Prop where
  ordered : c.received = lost ++ (c.handled ++ (c.initQueue.drop c.index ++ c.tasks.filterMap parse))
  index : c.phase ≠ .opened → c.index ≤ c.initQueue.length
  opened : c.phase = .opened → c.initQueue = []
  /-- Without a listener there is nothing but the lost messages. -/
  user : c.phase = .user → c.handled = [] ∧ c.initQueue = [] ∧ c.tasks = []

theorem inv_create : Inv parse [] (create anonymous) := by
  refine ⟨rfl, fun _ => Nat.le_refl _, fun _ => rfl, fun _ => ⟨rfl, rfl, rfl⟩⟩

theorem inv_sendNext (h : Inv parse lost c) : Inv parse lost (sendNext c) ∧ (sendNext c).phase ≠ .user := by
  rw [sendNext]
  split
  · rename_i msg hmsg
    refine ⟨⟨?_, ?_, ?_, ?_⟩, ?_⟩
    · have hdrop : c.initQueue.drop c.index = msg :: c.initQueue.drop (c.index + 1) := by
        obtain ⟨hlt, heq⟩ := List.getElem?_eq_some_iff.mp hmsg
        rw [List.drop_eq_getElem_cons hlt, heq]
      rw [h.ordered, hdrop]
      simp
    · intro _
      exact (List.getElem?_eq_some_iff.mp hmsg).1
    · intro hopened
      cases hopened
    · intro huser
      cases huser
    · intro huser
      cases huser
  · rename_i hmsg
    refine ⟨⟨?_, fun hne => absurd rfl hne, fun _ => rfl, ?_⟩, ?_⟩
    · have hdrop : c.initQueue.drop c.index = [] := List.drop_eq_nil_of_le (List.getElem?_eq_none_iff.mp hmsg)
      rw [h.ordered, hdrop]
      simp
    · intro huser
      cases huser
    · intro huser
      cases huser

theorem inv_task {data : Data} {rest : List Data} (h : Inv parse lost c) (htasks : c.tasks = data :: rest) :
    Inv parse lost (onMessage parse { c with tasks := rest } data) ∧
      (onMessage parse { c with tasks := rest } data).phase = c.phase := by
  have hordered := h.ordered
  have huser : c.phase ≠ .user := by
    intro hphase
    have := (h.user hphase).2.2
    rw [htasks] at this
    cases this
  rw [onMessage]
  split
  · rename_i parsed hparse
    rw [htasks, List.filterMap_cons_some hparse] at hordered
    by_cases hopened : c.phase = .opened
    · rw [if_pos hopened]
      refine ⟨⟨?_, h.index, h.opened, fun hphase => absurd hphase huser⟩, rfl⟩
      have hqueue := h.opened hopened
      simp only [hqueue, List.drop_nil, List.nil_append] at hordered ⊢
      rw [hordered]
      simp
    · rw [if_neg hopened]
      refine ⟨⟨?_, ?_, fun hphase => absurd hphase hopened, fun hphase => absurd hphase huser⟩, rfl⟩
      · show c.received = lost ++ (c.handled ++ ((c.initQueue ++ [parsed]).drop c.index ++ rest.filterMap parse))
        rw [hordered, List.drop_append_of_le_length (h.index hopened)]
        simp
      · intro _
        have := h.index hopened
        show c.index ≤ (c.initQueue ++ [parsed]).length
        rw [List.length_append]
        omega
  · rename_i hparse
    rw [htasks, List.filterMap_cons_none hparse] at hordered
    exact ⟨⟨hordered, h.index, h.opened, fun hphase => absurd hphase huser⟩, rfl⟩

theorem guarded {p : Prop} [Decidable p] {d : Conversation Data Value} (h : (if p then some d else none) = some t) :
    p ∧ d = t := by
  obtain ⟨hp, heq⟩ := Option.ite_none_right_eq_some.mp h
  exact ⟨hp, Option.some.inj heq⟩

/-- With a listener, a step loses nothing. -/
theorem inv_listening (h : Inv parse lost c) (hphase : c.phase ≠ .user) (hs : step parse c e = some t) :
    Inv parse lost t ∧ t.phase ≠ .user := by
  cases e with
  | message data =>
    simp only [step, if_neg hphase, Option.some.injEq] at hs
    subst hs
    refine ⟨⟨?_, h.index, h.opened, fun hphase' => absurd hphase' hphase⟩, hphase⟩
    show c.received ++ (parse data).toList = _
    rw [h.ordered, List.filterMap_append]
    cases hparse : parse data with
    | none => simp [hparse]
    | some parsed => simp [hparse]
  | user => simp [step, hphase] at hs
  | engine =>
    obtain ⟨hengine, rfl⟩ := guarded hs
    exact ⟨⟨h.ordered, fun _ => h.index (by rw [hengine]; nofun), nofun, nofun⟩, nofun⟩
  | wrapper =>
    obtain ⟨-, rfl⟩ := guarded hs
    exact inv_sendNext h
  | resolved =>
    obtain ⟨-, rfl⟩ := guarded hs
    exact inv_sendNext h
  | task =>
    rw [step] at hs
    split at hs
    · rename_i data rest htasks
      cases hs
      obtain ⟨hinv, hsame⟩ := inv_task h htasks
      exact ⟨hinv, by rwa [hsame]⟩
    · cases hs

/-- Without one, a message is lost. -/
theorem inv_user (h : Inv parse lost c) (hphase : c.phase = .user) (hs : step parse c e = some t) :
    (e = .user ∧ t.phase ≠ .user ∧ Inv parse lost t) ∨
      ∃ data, e = .message data ∧ t.phase = .user ∧ Inv parse (lost ++ (parse data).toList) t := by
  obtain ⟨hhandled, hqueue, htasks⟩ := h.user hphase
  cases e with
  | message data =>
    simp only [step, if_pos hphase, Option.some.injEq] at hs
    subst hs
    refine .inr ⟨data, rfl, hphase, ?_, h.index, h.opened, fun _ => ⟨hhandled, hqueue, htasks⟩⟩
    have hordered := h.ordered
    simp only [hhandled, hqueue, htasks, List.drop_nil, List.filterMap_nil, List.append_nil] at hordered ⊢
    rw [hordered]
  | user =>
    simp only [step, if_pos hphase, Option.some.injEq] at hs
    subst hs
    exact .inl ⟨rfl, nofun, h.ordered, fun _ => h.index (by rw [hphase]; nofun), nofun, nofun⟩
  | engine => simp [step, hphase] at hs
  | wrapper => simp [step, hphase] at hs
  | resolved => simp [step, hphase] at hs
  | task => simp [step, htasks] at hs

theorem run_cons {es : List (Event Data)} : run (relay parse anonymous) c (e :: es) = some t ↔
    ∃ d, step parse c e = some d ∧ run (relay parse anonymous) d es = some t := by
  rw [run, List.foldlM_cons, Option.bind_eq_bind, Option.bind_eq_some_iff]
  rfl

theorem run_listening (h : Inv parse lost c) (hphase : c.phase ≠ .user) (hs : run (relay parse anonymous) c es = some t) :
    Inv parse lost t := by
  induction es generalizing c with
  | nil =>
    cases hs
    exact h
  | cons e es ih =>
    obtain ⟨d, hd, hrest⟩ := run_cons.mp hs
    obtain ⟨hinv, hphase'⟩ := inv_listening h hphase hd
    exact ih hinv hphase' hrest

theorem run_user (h : Inv parse lost c) (hphase : c.phase = .user) (hs : run (relay parse anonymous) c es = some t) :
    Inv parse (lost ++ early parse es) t := by
  induction es generalizing c lost with
  | nil =>
    cases hs
    rwa [early, List.append_nil]
  | cons e es ih =>
    obtain ⟨d, hd, hrest⟩ := run_cons.mp hs
    rcases inv_user h hphase hd with ⟨rfl, hphase', hinv⟩ | ⟨data, rfl, hphase', hinv⟩
    · rw [early, List.append_nil]
      exact run_listening hinv hphase' hrest
    · have := ih hinv hphase' hrest
      rwa [List.append_assoc] at this

theorem run_inv (hs : run (relay parse anonymous) (create anonymous) es = some c) :
    Inv parse (unheard parse anonymous es) c := by
  cases anonymous with
  | true => exact run_user inv_create rfl hs
  | false => exact run_listening (c := create false) inv_create (show Phase.engine ≠ .user from nofun) hs

/-! ## When no more messages come -/

theorem sendNext_received (c : Conversation Data Value) : (sendNext c).received = c.received := by
  rw [sendNext]
  split
  · rfl
  · rfl

theorem step_received (he : ∀ data, e ≠ .message data) (hs : step parse c e = some t) : t.received = c.received := by
  cases e with
  | message data => exact absurd rfl (he data)
  | user =>
    obtain ⟨-, rfl⟩ := guarded hs
    rfl
  | engine =>
    obtain ⟨-, rfl⟩ := guarded hs
    rfl
  | wrapper =>
    obtain ⟨-, rfl⟩ := guarded hs
    exact sendNext_received c
  | resolved =>
    obtain ⟨-, rfl⟩ := guarded hs
    exact sendNext_received c
  | task =>
    rw [step] at hs
    split at hs
    · cases hs
      rw [onMessage]
      split
      · split
        · rfl
        · rfl
      · rfl
    · cases hs

theorem run_received (hes : Quiet es) (hs : run (relay parse anonymous) c es = some t) : t.received = c.received := by
  induction es generalizing c with
  | nil =>
    cases hs
    rfl
  | cons e es ih =>
    obtain ⟨d, hd, hrest⟩ := run_cons.mp hs
    rw [ih (fun e' he' => hes e' (List.mem_cons_of_mem _ he')) hrest, step_received (hes e (List.mem_cons_self ..)) hd]

def phaseWeight : Phase → Nat
  | .user => 4
  | .engine => 3
  | .wrapper => 2
  | .draining => 1
  | .opened => 0

/-- What is still to be done: a task can add one message to the queue. -/
def weight (c : Conversation Data Value) : Nat :=
  2 * c.tasks.length + (c.initQueue.length - c.index) + phaseWeight c.phase

theorem weight_sendNext (h : c.phase ≠ .opened) : weight (sendNext c) < weight c := by
  have hpos : 0 < phaseWeight c.phase := by
    cases hphase : c.phase with
    | opened => exact absurd hphase h
    | user | engine | wrapper | draining => simp [phaseWeight]
  rw [sendNext]
  split
  · rename_i msg hmsg
    obtain ⟨hlt, -⟩ := List.getElem?_eq_some_iff.mp hmsg
    have hdraining : phaseWeight .draining = 1 := rfl
    simp only [weight, hdraining]
    omega
  · have hopened : phaseWeight .opened = 0 := rfl
    simp only [weight, hopened, List.length_nil]
    omega

theorem weight_onMessage {data : Data} {rest : List Data} (htasks : c.tasks = data :: rest) :
    weight (onMessage parse { c with tasks := rest } data) < weight c := by
  rw [onMessage]
  split
  · split
    · simp only [weight, htasks, List.length_cons]
      omega
    · simp only [weight, htasks, List.length_cons, List.length_append, List.length_nil]
      omega
  · simp only [weight, htasks, List.length_cons]
    omega

/-- As long as something is under way, a step without a message brings it on. -/
theorem exists_step (hsettled : ¬Settled c) : ∃ (e : Event Data) (d : Conversation Data Value),
    (∀ data, e ≠ .message data) ∧ step parse c e = some d ∧ weight d < weight c := by
  cases htasks : c.tasks with
  | cons data rest =>
    refine ⟨.task, onMessage parse { c with tasks := rest } data, nofun, ?_, weight_onMessage htasks⟩
    simp only [step, htasks]
  | nil =>
    cases hphase : c.phase with
    | user =>
      exact ⟨.user, { c with phase := .engine }, nofun, by rw [step, if_pos hphase], by simp [weight, phaseWeight, hphase]⟩
    | engine =>
      exact ⟨.engine, { c with phase := .wrapper }, nofun, by rw [step, if_pos hphase], by simp [weight, phaseWeight, hphase]⟩
    | wrapper =>
      exact ⟨.wrapper, _, nofun, by rw [step, if_pos hphase], weight_sendNext (by rw [hphase]; nofun)⟩
    | draining =>
      exact ⟨.resolved, _, nofun, by rw [step, if_pos hphase], weight_sendNext (by rw [hphase]; nofun)⟩
    | opened => exact absurd ⟨hphase, htasks⟩ hsettled

theorem settles (c : Conversation Data Value) : ∃ (es : List (Event Data)) (t : Conversation Data Value),
    Quiet es ∧ run (relay parse anonymous) c es = some t ∧ Settled t := by
  induction hn : weight c using Nat.strongRecOn generalizing c with
  | ind n ih =>
    by_cases hsettled : Settled c
    · exact ⟨[], c, nofun, rfl, hsettled⟩
    · obtain ⟨e, d, he, hd, hlt⟩ : ∃ (e : Event Data) (d : Conversation Data Value),
          (∀ data, e ≠ .message data) ∧ step parse c e = some d ∧ weight d < weight c := exists_step hsettled
      obtain ⟨es, t, hes, hrun, ht⟩ := ih (weight d) (hn ▸ hlt) d rfl
      refine ⟨e :: es, t, ?_, run_cons.mpr ⟨d, hd, hrun⟩, ht⟩
      intro e' he'
      rcases List.mem_cons.mp he' with rfl | he'
      · exact he
      · exact hes e' he'

/-! ## Every message, once and in order -/

/-- When everything has been handled, only the lost messages were not. -/
theorem settled_handled (h : Inv parse lost c) (hsettled : Settled c) : c.received = lost ++ c.handled := by
  have hordered := h.ordered
  rwa [hsettled.2, h.opened hsettled.1, List.drop_nil, List.filterMap_nil, List.append_nil, List.append_nil] at hordered

theorem early_quiet (h : Quiet es) : early parse es = [] := by
  induction es with
  | nil => rfl
  | cons e es ih =>
    have hrest := ih fun e' he' => h e' (List.mem_cons_of_mem _ he')
    cases e with
    | message data => exact absurd rfl (h _ (List.mem_cons_self ..) data)
    | user => rfl
    | engine | wrapper | resolved | task => exact hrest

theorem early_append {more : List (Event Data)} (h : Quiet more) : early parse (es ++ more) = early parse es := by
  induction es with
  | nil => exact early_quiet h
  | cons e es ih =>
    cases e with
    | message data =>
      show (parse data).toList ++ early parse (es ++ more) = (parse data).toList ++ early parse es
      rw [ih]
    | user => rfl
    | engine | wrapper | resolved | task => exact ih

/-- What has arrived in a run are the messages that nobody heard, then those that are handled in the end. -/
theorem received_eq {more : List (Event Data)} (hs : run (relay parse anonymous) (create anonymous) es = some c)
    (hmore : Quiet more) (hrun : run (relay parse anonymous) c more = some t) (hsettled : Settled t) :
    c.received = unheard parse anonymous es ++ t.handled := by
  have hwhole : run (relay parse anonymous) (create anonymous) (es ++ more) = some t := by
    rw [run, List.foldlM_append]
    exact Option.bind_eq_some_iff.mpr ⟨c, hs, hrun⟩
  have hsame : unheard parse anonymous (es ++ more) = unheard parse anonymous es := by
    rw [unheard, unheard, early_append hmore]
  rw [← run_received hmore hrun, ← hsame]
  exact settled_handled (run_inv hwhole) hsettled

theorem relayed_iff (hs : run (relay parse anonymous) (create anonymous) es = some c) :
    Relayed parse anonymous c ↔ unheard parse anonymous es = [] := by
  constructor
  · intro hrelayed
    obtain ⟨more, t, hmore, hrun, hsettled⟩ := hrelayed.settles
    have hreceived := received_eq hs hmore hrun hsettled
    rw [hrelayed.complete more t hmore hrun hsettled] at hreceived
    exact List.self_eq_append_left.mp hreceived
  · intro hlost
    have hinv := run_inv hs
    rw [hlost] at hinv
    refine ⟨?_, ?_, settles c⟩
    · rw [hinv.ordered, List.nil_append]
      exact List.prefix_append _ _
    · intro more t hmore hrun hsettled
      have hreceived := received_eq hs hmore hrun hsettled
      rw [hlost, List.nil_append] at hreceived
      exact hreceived.symm

/-- Parsing for the proofs: a text is its own value. -/
def plain (data : String) : Option String := some data

/-- A message that comes while the engine is awaited, one while the first is being handled, and one after that. -/
def heardRun : List (Event String) :=
  [.user, .message "a", .engine, .task, .wrapper, .message "b", .task, .resolved, .resolved, .message "c", .task]

theorem relayed_iff_heard :
    run (relay plain true) (create true) heardRun = some ⟨.opened, [], 2, [], false, ["a", "b", "c"], ["a", "b", "c"]⟩ ∧
      (Relayed plain true ⟨.opened, [], 2, [], false, ["a", "b", "c"], ["a", "b", "c"]⟩ ↔
        unheard plain true heardRun = []) := by
  have hrun : run (relay plain true) (create true) heardRun =
      some ⟨.opened, [], 2, [], false, ["a", "b", "c"], ["a", "b", "c"]⟩ := rfl
  exact ⟨hrun, relayed_iff hrun⟩

/-- A message comes before the user is found. -/
def unheardRun : List (Event String) := [.message "a", .user, .engine, .wrapper]

theorem first_message_lost :
    run (relay plain true) (create true) unheardRun = some ⟨.opened, [], 0, [], false, ["a"], []⟩ ∧
      ¬Relayed plain true ⟨.opened, [], 0, [], false, ["a"], []⟩ := by
  refine ⟨rfl, ?_⟩
  intro h
  have hall : [] = ["a"] := h.complete [] _ nofun rfl ⟨rfl, rfl⟩
  cases hall

end GenieCloud.Routes.MyConversation
