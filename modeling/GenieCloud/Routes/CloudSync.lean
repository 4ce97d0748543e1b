/-
  GenieCloud.Routes.CloudSync — the relay of a cloud-sync websocket to its engine
  (`CloudSyncWebsocketDelegate` of `routes/cloud-sync.ts`).

  Until there is a remote, a message goes to the buffer. `setRemote` sets the remote, and then
  sends the buffered messages one by one, each when the call for the one before it has resolved.
  From the remote on, a message that arrives is sent at once.

  - `relayed_settled`: as long as no message arrives while buffered ones are unsent, the remote
    is called with the messages in the order of arrival, and with all of them in the end.
  - `overtaken`: after one that does, which is not the text of the next buffered one, the calls
    are never in order again.
-/

import GenieCloud.Lib.Runs
import Mathlib.Data.List.Infix

namespace GenieCloud.Routes.CloudSync

open GenieCloud.Lib.Runs

/-! ## The delegate -/

inductive Data where
  | text (data : String)
  | binary
  deriving DecidableEq, Repr

structure Delegate where
  /-- `_remote` is set. -/
  remote : Bool
  buffer : List String
  /-- While `setRemote` awaits a call: the buffered messages after it. -/
  unsent : Option (List String)
  /-- The text messages that arrived, and the messages that the remote was called with. -/
  received : List String
  calls : List String
  deriving DecidableEq, Repr

def create : Delegate := ⟨false, [], none, [], []⟩

inductive Event where
  | message (data : Data)
  | setRemote
  /-- The call that `setRemote` awaits resolves. -/
  | resolved
  deriving DecidableEq, Repr

def onMessage (d : Delegate) (data : String) : Delegate := { d with calls := d.calls ++ [data] }

/-- The loop of `setRemote`, from some message on. -/
def sendNext (d : Delegate) : List String → Delegate
  | [] => { d with unsent := none }
  | data :: rest => onMessage { d with unsent := some rest } data

def step (d : Delegate) : Event → Option Delegate
  | .message .binary => some d
  | .message (.text data) =>
    let d := { d with received := d.received ++ [data] }
    some (if d.remote then onMessage d data else { d with buffer := d.buffer ++ [data] })
  | .setRemote => if d.remote then none else some (sendNext { d with remote := true } d.buffer)
  | .resolved => d.unsent.map (sendNext d)

def relay : System Delegate Event := ⟨fun d => d = create, step⟩

/-! ## What the relay is for -/

structure Relayed (d : Delegate) : Prop where
  ordered : d.calls <+: d.received
  /-- When the awaited calls have resolved, every message that has arrived has been sent. -/
  complete : d.remote = true → ∃ n t, run relay d (List.replicate n .resolved) = some t ∧ t.unsent = none ∧
    t.received = d.received ∧ t.calls = d.received

/-- No text message arrives while buffered ones are unsent. -/
def Settled (d : Delegate) (e : Event) : Prop :=
  ∀ data, e = .message (.text data) → d.unsent = none ∨ d.unsent = some []

/-! ## In order -/

/-- The messages that have arrived and are unsent. -/
def waiting (d : Delegate) : List String := if d.remote then d.unsent.getD [] else d.buffer

structure Inv (d : Delegate) : Prop where
  ordered : d.calls ++ waiting d = d.received
  idle : d.remote = false → d.unsent = none

theorem inv_create : Inv create := ⟨rfl, fun _ => rfl⟩

theorem step_buffered {d : Delegate} (h : d.remote = false) (data : String) : step d (.message (.text data)) =
    some { d with received := d.received ++ [data], buffer := d.buffer ++ [data] } := by
  simp [step, h]

theorem step_direct {d : Delegate} (h : d.remote = true) (data : String) : step d (.message (.text data)) =
    some { d with received := d.received ++ [data], calls := d.calls ++ [data] } := by
  simp [step, h, onMessage]

/-- The loop sends what was waiting. -/
theorem inv_sendNext {d : Delegate} {rest : List String} (hremote : d.remote = true)
    (hordered : d.calls ++ rest = d.received) : Inv (sendNext d rest) := by
  cases rest with
  | nil =>
    refine ⟨?_, fun _ => rfl⟩
    simpa [waiting, sendNext, hremote] using hordered
  | cons data rest =>
    refine ⟨?_, fun h => absurd (hremote.symm.trans h) (by simp)⟩
    simpa [waiting, sendNext, onMessage, hremote] using hordered

theorem inv_step {d t : Delegate} {e : Event} (h : Inv d) (hsettled : Settled d e) (hs : step d e = some t) : Inv t := by
  cases e with
  | message data =>
    cases data with
    | binary =>
      cases hs
      exact h
    | text data =>
      have hordered := h.ordered
      cases hremote : d.remote with
      | false =>
        rw [step_buffered hremote, Option.some.injEq] at hs
        subst hs
        refine ⟨?_, h.idle⟩
        simp only [waiting, hremote, Bool.false_eq_true, if_false] at hordered ⊢
        rw [← hordered, List.append_assoc]
      | true =>
        rw [step_direct hremote, Option.some.injEq] at hs
        subst hs
        have hwaiting : waiting d = [] := by
          rcases hsettled data rfl with hnone | hnil
          · simp [waiting, hremote, hnone]
          · simp [waiting, hremote, hnil]
        have hsame : waiting { d with received := d.received ++ [data], calls := d.calls ++ [data] } = waiting d := rfl
        refine ⟨?_, fun hfalse => absurd (hremote.symm.trans hfalse) (by simp)⟩
        rw [hsame, hwaiting, List.append_nil]
        rw [hwaiting, List.append_nil] at hordered
        rw [hordered]
  | setRemote =>
    cases hremote : d.remote with
    | true => simp [step, hremote] at hs
    | false =>
      simp only [step, hremote, Bool.false_eq_true, if_false, Option.some.injEq] at hs
      subst hs
      refine inv_sendNext rfl ?_
      have hordered := h.ordered
      simpa [waiting, hremote] using hordered
  | resolved =>
    rw [step, Option.map_eq_some_iff] at hs
    obtain ⟨rest, hunsent, rfl⟩ := hs
    have hremote : d.remote = true := by
      by_contra hfalse
      have := h.idle (Bool.eq_false_iff.mpr hfalse)
      rw [hunsent] at this
      cases this
    refine inv_sendNext hremote ?_
    have hordered := h.ordered
    simpa [waiting, hremote, hunsent] using hordered

theorem inv_reach {d : Delegate} (h : Reach relay Settled d) : Inv d :=
  h.inv (fun _ hd => hd ▸ inv_create) fun _ _ _ => inv_step

/-- As the awaited calls resolve, the loop sends the rest. -/
theorem resolved_all {d : Delegate} {rest : List String} (h : d.unsent = some rest) :
    run relay d (List.replicate (rest.length + 1) .resolved) = some { d with unsent := none, calls := d.calls ++ rest } := by
  induction rest generalizing d with
  | nil =>
    rw [List.append_nil]
    simp [run, relay, step, h, sendNext]
  | cons data rest ih =>
    have hfirst : step d .resolved = some (onMessage { d with unsent := some rest } data) := by
      rw [step, h]
      rfl
    have hrest := ih (d := onMessage { d with unsent := some rest } data) rfl
    rw [run] at hrest ⊢
    rw [List.length_cons, List.replicate_succ, List.foldlM_cons]
    show (step d .resolved >>= _) = _
    rw [hfirst]
    show List.foldlM relay.step _ _ = _
    rw [hrest]
    simp [onMessage]

theorem relayed_inv {d : Delegate} (h : Inv d) : Relayed d := by
  refine ⟨⟨waiting d, h.ordered⟩, ?_⟩
  intro hremote
  have hordered := h.ordered
  cases hunsent : d.unsent with
  | none =>
    refine ⟨0, d, rfl, hunsent, rfl, ?_⟩
    simpa [waiting, hremote, hunsent] using hordered
  | some rest =>
    refine ⟨rest.length + 1, _, resolved_all hunsent, rfl, rfl, ?_⟩
    simpa [waiting, hremote, hunsent] using hordered

theorem relayed_settled {d : Delegate} (h : Reach relay Settled d) : Relayed d := relayed_inv (inv_reach h)

/-- The second message comes before the call for the only buffered one has resolved. -/
theorem relayed_settled_direct : run relay create [.message (.text "a"), .setRemote, .message (.text "b"), .resolved] =
    some ⟨true, ["a"], none, ["a", "b"], ["a", "b"]⟩ ∧ Relayed ⟨true, ["a"], none, ["a", "b"], ["a", "b"]⟩ := by
  have hother : ∀ d e, (∀ data, e ≠ .message (.text data)) → Settled d e := fun _ _ h data heq => absurd heq (h data)
  have hfirst : Reach relay Settled ⟨false, ["a"], none, ["a"], []⟩ :=
    .step (.message (.text "a")) (.init rfl) (fun _ _ => .inl rfl) rfl
  have hremote : Reach relay Settled ⟨true, ["a"], some [], ["a"], ["a"]⟩ := .step .setRemote hfirst (hother _ _ nofun) rfl
  have hsecond : Reach relay Settled ⟨true, ["a"], some [], ["a", "b"], ["a", "b"]⟩ :=
    .step (.message (.text "b")) hremote (fun _ _ => .inr rfl) rfl
  exact ⟨rfl, relayed_settled (.step .resolved hsecond (hother _ _ nofun) rfl)⟩

/-! ## Out of order -/

theorem sendNext_grows (d : Delegate) (rest : List String) :
    d.calls <+: (sendNext d rest).calls ∧ d.received <+: (sendNext d rest).received := by
  cases rest with
  | nil => exact ⟨List.prefix_refl _, List.prefix_refl _⟩
  | cons data rest => exact ⟨List.prefix_append _ _, List.prefix_refl _⟩

theorem step_grows {d t : Delegate} {e : Event} (hs : step d e = some t) :
    d.calls <+: t.calls ∧ d.received <+: t.received := by
  cases e with
  | message data =>
    cases data with
    | binary =>
      cases hs
      exact ⟨List.prefix_refl _, List.prefix_refl _⟩
    | text data =>
      cases hremote : d.remote with
      | false =>
        rw [step_buffered hremote, Option.some.injEq] at hs
        subst hs
        exact ⟨List.prefix_refl _, List.prefix_append _ _⟩
      | true =>
        rw [step_direct hremote, Option.some.injEq] at hs
        subst hs
        exact ⟨List.prefix_append _ _, List.prefix_append _ _⟩
  | setRemote =>
    cases hremote : d.remote with
    | true => simp [step, hremote] at hs
    | false =>
      simp only [step, hremote, Bool.false_eq_true, if_false, Option.some.injEq] at hs
      subst hs
      exact sendNext_grows { d with remote := true } d.buffer
  | resolved =>
    rw [step, Option.map_eq_some_iff] at hs
    obtain ⟨rest, -, rfl⟩ := hs
    exact sendNext_grows d rest

theorem path_grows {d t : Delegate} (h : Path relay any d t) : d.calls <+: t.calls ∧ d.received <+: t.received := by
  induction h with
  | refl => exact ⟨List.prefix_refl _, List.prefix_refl _⟩
  | step e _ _ hs ih => exact ⟨ih.1.trans (step_grows hs).1, ih.2.trans (step_grows hs).2⟩

/-- Once a message has overtaken a buffered one of another text, no later state is in order. -/
theorem overtaken {d t u : Delegate} {data next : String} {rest : List String} (h : Reach relay Settled d)
    (hunsent : d.unsent = some (next :: rest)) (hne : data ≠ next) (hs : step d (.message (.text data)) = some t)
    (hpath : Path relay any t u) : ¬Relayed u := by
  intro hrelayed
  have hinv := inv_reach h
  have hremote : d.remote = true := by
    by_contra hfalse
    have := hinv.idle (Bool.eq_false_iff.mpr hfalse)
    rw [hunsent] at this
    cases this
  have hordered : d.calls ++ next :: rest = d.received := by
    have := hinv.ordered
    simpa [waiting, hremote, hunsent] using this
  rw [step_direct hremote, Option.some.injEq] at hs
  subst hs
  obtain ⟨hcalls, hreceived⟩ := path_grows hpath
  have hshort : (d.calls ++ [data]).length ≤ (d.received ++ [data]).length := by
    rw [← hordered]
    simp
  have hbefore := List.prefix_of_prefix_length_le (hcalls.trans hrelayed.ordered) hreceived hshort
  rw [← hordered, List.append_assoc, List.prefix_append_right_inj, List.cons_append, List.cons_prefix_cons] at hbefore
  exact hne hbefore.1

/-- The third message comes when the second is still to be sent. -/
def overtakingRun : List Event :=
  [.message (.text "a"), .message (.text "b"), .setRemote, .message (.text "c"), .resolved, .resolved]

theorem third_overtakes :
    run relay create overtakingRun = some ⟨true, ["a", "b"], none, ["a", "b", "c"], ["a", "c", "b"]⟩ ∧
      Reach relay any ⟨true, ["a", "b"], none, ["a", "b", "c"], ["a", "c", "b"]⟩ ∧
      ¬Relayed ⟨true, ["a", "b"], none, ["a", "b", "c"], ["a", "c", "b"]⟩ := by
  have hrun : run relay create overtakingRun = some ⟨true, ["a", "b"], none, ["a", "b", "c"], ["a", "c", "b"]⟩ := rfl
  refine ⟨hrun, Reach.path (.init rfl) (run_path hrun), ?_⟩
  intro h
  have hordered : ["a", "c", "b"] <+: ["a", "b", "c"] := h.ordered
  revert hordered
  decide

end GenieCloud.Routes.CloudSync
