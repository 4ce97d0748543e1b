/-
  GenieCloud.Almond.ControlChannels — the frontend's control channels to the managers of
  the shards (`_connect`, `start` and `stop` of `almond/enginemanagerclient.ts`).

  `start` opens one connection for each shard. The manager answers with a stub, which is
  kept to be called; a connection that closes is opened again ten seconds later, unless the
  client was stopped. `stop` ends the connections that are there, and leaves the timers
  alone.

  - `one_channel`: until the client is stopped, a shard has one open connection or one
    pending timer, and never both: it is always being connected, and only once.
  - `control_live`: the stub that is called is that of the open connection, once the
    manager answered on it.
  - `stop_leaves_iff`: at any time after a stop, a shard has a timer or a connection that
    was opened meanwhile, which nothing ends, exactly if its timer was pending when the
    client was stopped.

  Connections are never reused: each keeps its place in the list. A connection closes
  once, whoever ended it.
-/

import GenieCloud.Lib.Objects
import GenieCloud.Lib.Runs
import Mathlib.Data.List.Nodup

namespace GenieCloud.Almond.ControlChannels

open GenieCloud.Lib.Objects GenieCloud.Lib.Runs

/-! ## The client -/

structure Channel where
  shardId : Nat
  /-- The manager answered with its stub. -/
  ready : Bool := false
  ended : Bool := false
  /-- The close handler ran. -/
  closed : Bool := false
  /-- Opened after `stop`. -/
  late : Bool := false
  deriving DecidableEq

structure Client where
  sockets : List Channel := []
  rpcSockets : Nat → Option Nat := fun _ => none
  rpcControls : Nat → Option Nat := fun _ => none
  /-- The shards that are waited for. -/
  timers : List Nat := []
  expectClose : Bool := false

def connect (s : Client) (shardId : Nat) : Client :=
  if (s.rpcControls shardId).isSome then s
  else { s with
    sockets := s.sockets ++ [{ shardId, late := s.expectClose }]
    rpcSockets := Function.update s.rpcSockets shardId (some s.sockets.length) }

def start (nShards : Nat) (s : Client) : Client := (List.range nShards).foldl connect s

/-- The listener for the first answer removes itself. -/
def onReady (s : Client) (id : Nat) (channel : Channel) : Client :=
  if channel.ready then s
  else { s with
    sockets := s.sockets.set id { channel with ready := true }
    rpcControls := Function.update s.rpcControls channel.shardId (some id) }

def onClose (s : Client) (id : Nat) (channel : Channel) : Client :=
  { s with
    sockets := s.sockets.set id { channel with closed := true }
    rpcSockets := Function.update s.rpcSockets channel.shardId none
    rpcControls := Function.update s.rpcControls channel.shardId none
    timers := if s.expectClose then s.timers else channel.shardId :: s.timers }

def endSocket (channel : Channel) : Channel := { channel with ended := true }

def endAt (sockets : List Channel) : Option Nat → List Channel
  | none => sockets
  | some id => sockets.modify id endSocket

def stop (nShards : Nat) (s : Client) : Client :=
  { s with
    expectClose := true
    sockets := (List.range nShards).foldl (fun sockets shardId => endAt sockets (s.rpcSockets shardId)) s.sockets }

/-! ## Events -/

inductive Ev
  | ready (id : Nat)
  | close (id : Nat)
  | timer (shardId : Nat)
  | stop
  deriving DecidableEq

def openAt (s : Client) (id : Nat) : Option Channel := (s.sockets[id]?).filter fun channel => !channel.closed

def step (nShards : Nat) (s : Client) : Ev → Option Client
  | .ready id => (openAt s id).map (onReady s id)
  | .close id => (openAt s id).map (onClose s id)
  | .timer shardId =>
    if shardId ∈ s.timers then some (connect { s with timers := s.timers.erase shardId } shardId) else none
  | .stop => if s.expectClose then none else some (stop nShards s)

def sys (nShards : Nat) : System Client Ev where
  init s := s = start nShards {}
  step := step nShards

/-! ## What is kept -/

/-- An open connection of a shard. -/
def Open (s : Client) (shardId id : Nat) : Prop :=
  ∃ channel, s.sockets[id]? = some channel ∧ channel.shardId = shardId ∧ channel.closed = false

structure Inv (s : Client) : Prop where
  socket : ∀ shardId id, s.rpcSockets shardId = some id ↔ Open s shardId id
  control : ∀ shardId id, s.rpcControls shardId = some id ↔
    ∃ channel, s.sockets[id]? = some channel ∧ channel.shardId = shardId ∧ channel.closed = false ∧ channel.ready = true
  timers : s.timers.Nodup
  waiting : ∀ shardId ∈ s.timers, s.rpcSockets shardId = none

variable {nShards : Nat} {s t : Client} {shardId id : Nat} {channel : Channel}

theorem openAt_some : openAt s id = some channel ↔ s.sockets[id]? = some channel ∧ channel.closed = false := by
  unfold openAt
  rw [Option.filter_eq_some_iff, Bool.not_eq_true']

theorem Inv.control_none (hi : Inv s) (hnone : s.rpcSockets shardId = none) : s.rpcControls shardId = none := by
  refine Option.eq_none_iff_forall_ne_some.mpr fun id hid => ?_
  obtain ⟨channel, hc, hshard, hopen, -⟩ := (hi.control shardId id).mp hid
  rw [(hi.socket shardId id).mpr ⟨channel, hc, hshard, hopen⟩] at hnone
  cases hnone

/-- A connection is opened where there is none. -/
theorem connect_eq (hi : Inv s) (hnone : s.rpcSockets shardId = none) : connect s shardId = { s with
    sockets := s.sockets ++ [{ shardId, late := s.expectClose }]
    rpcSockets := Function.update s.rpcSockets shardId (some s.sockets.length) } := by
  unfold connect
  rw [hi.control_none hnone]
  rfl

theorem connect_inv (hi : Inv s) (hnone : s.rpcSockets shardId = none) (htimer : shardId ∉ s.timers) :
    Inv (connect s shardId) := by
  rw [connect_eq hi hnone]
  constructor
  · intro shardId' id
    have hopen := hi.socket shardId' id
    unfold Open at hopen ⊢
    dsimp only
    rw [getElem?_created]
    by_cases hid : id = s.sockets.length
    · subst hid
      have hfresh : s.rpcSockets shardId' ≠ some s.sockets.length := by
        intro h
        obtain ⟨channel, hc, -⟩ := hopen.mp h
        exact absurd (getElem?_lt hc) (Nat.lt_irrefl _)
      rw [if_pos rfl]
      by_cases hshard : shardId' = shardId
      · subst hshard
        rw [Function.update_self]
        exact iff_of_true rfl ⟨_, rfl, rfl, rfl⟩
      · rw [Function.update_of_ne hshard]
        refine iff_of_false hfresh ?_
        rintro ⟨channel, hc, hs, -⟩
        cases hc
        exact hshard hs.symm
    · rw [if_neg hid, ← hopen]
      by_cases hshard : shardId' = shardId
      · subst hshard
        rw [Function.update_self, hnone]
        exact iff_of_false (fun h => hid (Option.some.inj h).symm) nofun
      · rw [Function.update_of_ne hshard]
  · intro shardId' id
    dsimp only
    rw [hi.control, getElem?_created]
    by_cases hid : id = s.sockets.length
    · subst hid
      rw [if_pos rfl]
      refine iff_of_false ?_ ?_
      · rintro ⟨channel, hc, -⟩
        exact absurd (getElem?_lt hc) (Nat.lt_irrefl _)
      · rintro ⟨channel, hc, -, -, hready⟩
        cases hc
        cases hready
    · rw [if_neg hid]
  · exact hi.timers
  · intro shardId' hmem
    have hne : shardId' ≠ shardId := by
      rintro rfl
      exact htimer hmem
    dsimp only
    rw [Function.update_of_ne hne]
    exact hi.waiting shardId' hmem

/-- After a loop over shards that had nothing. -/
structure Started (shards : List Nat) (s t : Client) : Prop where
  inv : Inv t
  timers : t.timers = []
  expectClose : t.expectClose = s.expectClose
  connected : ∀ shardId, (t.rpcSockets shardId).isSome = true ↔ shardId ∈ shards ∨ (s.rpcSockets shardId).isSome = true
  sockets : ∀ (id : Nat) channel, t.sockets[id]? = some channel →
    s.sockets[id]? = some channel ∨ (channel.shardId ∈ shards ∧ channel.late = s.expectClose)

theorem foldl_connect (shards : List Nat) (hn : shards.Nodup) (hi : Inv s)
    (hnone : ∀ shardId ∈ shards, s.rpcSockets shardId = none) (htimers : s.timers = []) :
    Started shards s (shards.foldl connect s) := by
  induction shards generalizing s with
  | nil => exact ⟨hi, htimers, rfl, fun _ => by simp, fun _ _ h => Or.inl h⟩
  | cons first shards ih =>
    obtain ⟨hfirst, hn⟩ := List.nodup_cons.mp hn
    have hnone' := hnone first (List.mem_cons_self ..)
    have hinv := connect_inv hi hnone' (by rw [htimers]; exact List.not_mem_nil)
    have hsockets : (connect s first).rpcSockets = Function.update s.rpcSockets first (some s.sockets.length) := by
      rw [connect_eq hi hnone']
    have hrest : ∀ shardId ∈ shards, (connect s first).rpcSockets shardId = none := by
      intro shardId hmem
      have hne : shardId ≠ first := by
        rintro rfl
        exact hfirst hmem
      rw [hsockets, Function.update_of_ne hne]
      exact hnone shardId (List.mem_cons_of_mem _ hmem)
    have hall := ih hn hinv hrest (by rw [connect_eq hi hnone']; exact htimers)
    rw [List.foldl_cons]
    refine ⟨hall.inv, hall.timers, hall.expectClose.trans (by rw [connect_eq hi hnone']), fun shardId => ?_,
      fun id channel hc => ?_⟩
    · rw [hall.connected, hsockets, List.mem_cons]
      by_cases hs : shardId = first
      · rw [hs, Function.update_self]
        simp
      · rw [Function.update_of_ne hs]
        simp [hs]
    · have hone := hall.sockets id channel hc
      rw [connect_eq hi hnone'] at hone
      dsimp only at hone
      rw [getElem?_created] at hone
      rcases hone with hone | ⟨hmem, hlate⟩
      · split at hone
        · cases hone
          exact Or.inr ⟨List.mem_cons_self .., rfl⟩
        · exact Or.inl hone
      · exact Or.inr ⟨List.mem_cons_of_mem _ hmem, hlate⟩

theorem empty_inv : Inv {} where
  socket _ _ := iff_of_false nofun fun ⟨_, h, _⟩ => by cases h
  control _ _ := iff_of_false nofun fun ⟨_, h, _⟩ => by cases h
  timers := List.nodup_nil
  waiting _ h := absurd h List.not_mem_nil

theorem started (nShards : Nat) : Started (List.range nShards) {} (start nShards {}) :=
  foldl_connect (List.range nShards) List.nodup_range empty_inv (fun _ _ => rfl) rfl

/-! ## What each event does -/

theorem onReady_inv (hi : Inv s) (hc : s.sockets[id]? = some channel) (hopen : channel.closed = false) :
    Inv (onReady s id channel) := by
  unfold onReady
  split
  · exact hi
  rename_i hready
  have hsocket := (hi.socket channel.shardId id).mpr ⟨channel, hc, rfl, hopen⟩
  constructor
  · intro shardId' id'
    rw [hi.socket]
    unfold Open
    dsimp only
    rw [getElem?_updated hc]
    split
    · rename_i hid
      subst hid
      rw [hc]
      simp
    · exact Iff.rfl
  · intro shardId' id'
    dsimp only
    rw [getElem?_updated hc]
    by_cases hshard : shardId' = channel.shardId
    · subst hshard
      rw [Function.update_self]
      constructor
      · intro h
        cases h
        exact ⟨_, if_pos rfl, rfl, hopen, rfl⟩
      · rintro ⟨channel', hc', hs, ho, hr⟩
        split at hc'
        · rename_i hid
          rw [hid]
        · have hother := (hi.socket channel.shardId id').mpr ⟨channel', hc', hs, ho⟩
          rw [hsocket] at hother
          exact hother
    · rw [Function.update_of_ne hshard, hi.control]
      split
      · rename_i hid
        subst hid
        refine iff_of_false ?_ ?_
        · rintro ⟨channel', hc', hs, -⟩
          rw [hc] at hc'
          cases hc'
          exact hshard hs.symm
        · rintro ⟨channel', hc', hs, -⟩
          cases hc'
          exact hshard hs.symm
      · exact Iff.rfl
  · exact hi.timers
  · exact hi.waiting

theorem onClose_inv (hi : Inv s) (hc : s.sockets[id]? = some channel) (hopen : channel.closed = false) :
    Inv (onClose s id channel) := by
  have hsocket := (hi.socket channel.shardId id).mpr ⟨channel, hc, rfl, hopen⟩
  have hother : ∀ shardId' id', Open s shardId' id' → (id = id' ↔ shardId' = channel.shardId) := by
    rintro shardId' id' ⟨channel', hc', hs', ho'⟩
    constructor
    · rintro rfl
      rw [hc] at hc'
      cases hc'
      exact hs'.symm
    · rintro rfl
      have := (hi.socket channel.shardId id').mpr ⟨channel', hc', hs', ho'⟩
      rw [hsocket] at this
      exact Option.some.inj this
  have htimer : channel.shardId ∉ s.timers := by
    intro hmem
    rw [hi.waiting _ hmem] at hsocket
    cases hsocket
  constructor
  · intro shardId' id'
    have hiff : (onClose s id channel).rpcSockets shardId' = some id' ↔ shardId' ≠ channel.shardId ∧ Open s shardId' id' := by
      rw [← hi.socket]
      exact removed_eq_some
    rw [hiff]
    unfold Open onClose
    dsimp only
    rw [getElem?_updated hc]
    constructor
    · rintro ⟨hne, channel', hc', hs', ho'⟩
      rw [if_neg fun h => hne ((hother shardId' id' ⟨channel', hc', hs', ho'⟩).mp h)]
      exact ⟨channel', hc', hs', ho'⟩
    · rintro ⟨channel', hc', hs', ho'⟩
      split at hc'
      · cases hc'
        cases ho'
      · rename_i hne
        exact ⟨fun h => hne ((hother shardId' id' ⟨channel', hc', hs', ho'⟩).mpr h), channel', hc', hs', ho'⟩
  · intro shardId' id'
    have hiff : (onClose s id channel).rpcControls shardId' = some id' ↔ shardId' ≠ channel.shardId ∧
        s.rpcControls shardId' = some id' := removed_eq_some
    rw [hiff, hi.control]
    unfold onClose
    dsimp only
    rw [getElem?_updated hc]
    constructor
    · rintro ⟨hne, channel', hc', hs', ho', hr'⟩
      rw [if_neg fun h => hne ((hother shardId' id' ⟨channel', hc', hs', ho'⟩).mp h)]
      exact ⟨channel', hc', hs', ho', hr'⟩
    · rintro ⟨channel', hc', hs', ho', hr'⟩
      split at hc'
      · cases hc'
        cases ho'
      · rename_i hne
        exact ⟨fun h => hne ((hother shardId' id' ⟨channel', hc', hs', ho'⟩).mpr h), channel', hc', hs', ho', hr'⟩
  · unfold onClose
    dsimp only
    split
    · exact hi.timers
    · exact List.nodup_cons.mpr ⟨htimer, hi.timers⟩
  · intro shardId' hmem
    unfold onClose at hmem ⊢
    dsimp only at hmem ⊢
    by_cases hshard : shardId' = channel.shardId
    · rw [hshard, Function.update_self]
    · rw [Function.update_of_ne hshard]
      split at hmem
      · exact hi.waiting _ hmem
      · exact hi.waiting _ ((List.mem_cons.mp hmem).resolve_left hshard)

/-- What `stop` leaves of a connection. -/
theorem stop_sockets (nShards : Nat) (s : Client) (id : Nat) :
    (stop nShards s).sockets[id]? = (s.sockets[id]?).map fun channel =>
      if ∃ shardId < nShards, s.rpcSockets shardId = some id then endSocket channel else channel := by
  unfold stop
  dsimp only
  induction nShards with
  | zero =>
    rw [List.range_zero, List.foldl_nil]
    simp
  | succ n ih =>
    rw [List.range_succ, List.foldl_append, List.foldl_cons, List.foldl_nil]
    generalize (List.range n).foldl _ s.sockets = sockets at ih
    have hend : (endAt sockets (s.rpcSockets n))[id]? =
        (sockets[id]?).map fun channel => if s.rpcSockets n = some id then endSocket channel else channel := by
      cases hn : s.rpcSockets n with
      | none => simp [endAt]
      | some id' =>
        rw [endAt, List.getElem?_modify]
        simp only [Option.some.injEq]
        by_cases hid : id' = id <;> simp [hid]
    have hlt : (∃ shardId < n + 1, s.rpcSockets shardId = some id) ↔
        s.rpcSockets n = some id ∨ ∃ shardId < n, s.rpcSockets shardId = some id := by
      constructor
      · rintro ⟨shardId, hlt, hs⟩
        rcases Nat.lt_succ_iff_lt_or_eq.mp hlt with hlt | rfl
        · exact Or.inr ⟨shardId, hlt, hs⟩
        · exact Or.inl hs
      · rintro (hs | ⟨shardId, hlt, hs⟩)
        · exact ⟨n, Nat.lt_succ_self n, hs⟩
        · exact ⟨shardId, Nat.lt_succ_of_lt hlt, hs⟩
    rw [hend, ih, Option.map_map]
    congr 1
    funext channel
    simp only [Function.comp_apply, hlt]
    by_cases h1 : s.rpcSockets n = some id <;> by_cases h2 : ∃ shardId < n, s.rpcSockets shardId = some id <;>
      simp [h1, h2, endSocket]

theorem stop_inv (hi : Inv s) : Inv (stop nShards s) := by
  have hsame : ∀ (P : Channel → Prop) (id : Nat), (∀ channel, P (endSocket channel) ↔ P channel) →
      ((∃ channel, (stop nShards s).sockets[id]? = some channel ∧ P channel) ↔
        ∃ channel, s.sockets[id]? = some channel ∧ P channel) := by
    intro P id hP
    rw [stop_sockets]
    constructor
    · rintro ⟨channel', hc', hp⟩
      obtain ⟨channel, hc, rfl⟩ := Option.map_eq_some_iff.mp hc'
      refine ⟨channel, hc, ?_⟩
      split at hp
      · exact (hP channel).mp hp
      · exact hp
    · rintro ⟨channel, hc, hp⟩
      refine ⟨_, Option.map_eq_some_iff.mpr ⟨channel, hc, rfl⟩, ?_⟩
      split
      · exact (hP channel).mpr hp
      · exact hp
  constructor
  · intro shardId id
    exact (hi.socket shardId id).trans (hsame _ id fun _ => Iff.rfl).symm
  · intro shardId id
    exact (hi.control shardId id).trans (hsame _ id fun _ => Iff.rfl).symm
  · exact hi.timers
  · exact hi.waiting

theorem timer_inv (hi : Inv s) (hmem : shardId ∈ s.timers) :
    Inv (connect { s with timers := s.timers.erase shardId } shardId) := by
  refine connect_inv ⟨hi.socket, hi.control, hi.timers.erase _, fun shardId' h => ?_⟩ (hi.waiting shardId hmem)
    (hi.timers.not_mem_erase)
  exact hi.waiting shardId' (List.mem_of_mem_erase h)

/-! ## Over a run -/

/-- What no event but `stop` changes of a connection that is there. -/
structure Same (channel channel' : Channel) : Prop where
  shardId : channel'.shardId = channel.shardId
  late : channel'.late = channel.late
  ended : channel'.ended = channel.ended
  closed : channel'.closed = false → channel.closed = false

structure Kept (nShards : Nat) (s : Client) : Prop extends Inv s where
  bounded : ∀ (id : Nat) channel, s.sockets[id]? = some channel → channel.shardId < nShards
  timed : ∀ shardId ∈ s.timers, shardId < nShards
  tracked : s.expectClose = false → ∀ shardId < nShards, (s.rpcSockets shardId).isSome = true ∨ shardId ∈ s.timers
  early : s.expectClose = false → ∀ (id : Nat) channel, s.sockets[id]? = some channel → channel.late = false
  ended : s.expectClose = true → ∀ (id : Nat) channel, s.sockets[id]? = some channel → channel.closed = false →
    channel.late = false → channel.ended = true

/-- The shard has a timer, or a connection opened after a stop that nothing ends. -/
def Left (s : Client) (shardId : Nat) : Prop :=
  shardId ∈ s.timers ∨ ∃ (id : Nat) (channel : Channel), s.sockets[id]? = some channel ∧ channel.shardId = shardId ∧
    channel.late = true ∧ channel.ended = false

/-- Two lists of connections that are the same but for answers and closes. -/
def Alike (sockets sockets' : List Channel) : Prop :=
  ∀ id : Nat, (∀ channel', sockets'[id]? = some channel' → ∃ channel, sockets[id]? = some channel ∧ Same channel channel') ∧
    ∀ channel, sockets[id]? = some channel → ∃ channel', sockets'[id]? = some channel' ∧ Same channel channel'

theorem Alike.refl (sockets : List Channel) : Alike sockets sockets := fun _ =>
  ⟨fun channel h => ⟨channel, h, rfl, rfl, rfl, fun h => h⟩, fun channel h => ⟨channel, h, rfl, rfl, rfl, fun h => h⟩⟩

theorem alike_set {sockets : List Channel} {channel' : Channel} (hc : sockets[id]? = some channel)
    (hs : Same channel channel') : Alike sockets (sockets.set id channel') := by
  intro id'
  rw [getElem?_updated hc]
  by_cases hid : id = id'
  · rw [if_pos hid, ← hid, hc]
    refine ⟨fun x hx => ?_, fun x hx => ?_⟩
    · cases hx
      exact ⟨channel, rfl, hs⟩
    · cases hx
      exact ⟨channel', rfl, hs⟩
  · rw [if_neg hid]
    exact Alike.refl sockets id'

theorem ready_alike (hc : s.sockets[id]? = some channel) : Alike s.sockets (onReady s id channel).sockets := by
  unfold onReady
  split
  · exact Alike.refl _
  · exact alike_set hc ⟨rfl, rfl, rfl, fun h => h⟩

theorem close_alike (hc : s.sockets[id]? = some channel) : Alike s.sockets (onClose s id channel).sockets :=
  alike_set hc ⟨rfl, rfl, rfl, nofun⟩

/-- Answers and closes keep what is kept, if the shards still have a connection or a timer. -/
theorem Kept.alike (hk : Kept nShards s) (hi : Inv t) (ha : Alike s.sockets t.sockets) (he : t.expectClose = s.expectClose)
    (htimers : ∀ shardId ∈ t.timers, shardId < nShards) (htracked : t.expectClose = false →
      ∀ shardId < nShards, (t.rpcSockets shardId).isSome = true ∨ shardId ∈ t.timers) : Kept nShards t where
  toInv := hi
  bounded id channel' hc' := by
    obtain ⟨channel, hc, hs⟩ := (ha id).1 channel' hc'
    rw [hs.shardId]
    exact hk.bounded id channel hc
  timed := htimers
  tracked := htracked
  early hf id channel' hc' := by
    obtain ⟨channel, hc, hs⟩ := (ha id).1 channel' hc'
    rw [hs.late]
    exact hk.early (he ▸ hf) id channel hc
  ended ht id channel' hc' ho hl := by
    obtain ⟨channel, hc, hs⟩ := (ha id).1 channel' hc'
    rw [hs.ended]
    exact hk.ended (he ▸ ht) id channel hc (hs.closed ho) (hs.late ▸ hl)

theorem ready_kept (hk : Kept nShards s) (hc : s.sockets[id]? = some channel) (ho : channel.closed = false) :
    Kept nShards (onReady s id channel) := by
  have hsame : (onReady s id channel).expectClose = s.expectClose ∧ (onReady s id channel).timers = s.timers ∧
      (onReady s id channel).rpcSockets = s.rpcSockets := by
    unfold onReady
    split <;> exact ⟨rfl, rfl, rfl⟩
  refine hk.alike (onReady_inv hk.toInv hc ho) (ready_alike hc) hsame.1 ?_ ?_
  · rw [hsame.2.1]
    exact hk.timed
  · rw [hsame.1, hsame.2.1, hsame.2.2]
    exact hk.tracked

theorem close_kept (hk : Kept nShards s) (hc : s.sockets[id]? = some channel) (ho : channel.closed = false) :
    Kept nShards (onClose s id channel) := by
  refine hk.alike (onClose_inv hk.toInv hc ho) (close_alike hc) rfl ?_ ?_
  · intro shardId hmem
    unfold onClose at hmem
    dsimp only at hmem
    split at hmem
    · exact hk.timed shardId hmem
    · rcases List.mem_cons.mp hmem with rfl | hmem
      · exact hk.bounded id channel hc
      · exact hk.timed shardId hmem
  · intro he shardId hlt
    have he' : s.expectClose = false := he
    unfold onClose
    dsimp only
    rw [he', if_neg Bool.false_ne_true]
    by_cases hshard : shardId = channel.shardId
    · exact Or.inr (hshard ▸ List.mem_cons_self ..)
    · rw [Function.update_of_ne hshard]
      exact (hk.tracked he' shardId hlt).imp_right (List.mem_cons_of_mem _)

/-- The connection of a timer. -/
theorem timer_eq (hi : Inv s) (hmem : shardId ∈ s.timers) :
    connect { s with timers := s.timers.erase shardId } shardId = { s with
      timers := s.timers.erase shardId
      sockets := s.sockets ++ [{ shardId, late := s.expectClose }]
      rpcSockets := Function.update s.rpcSockets shardId (some s.sockets.length) } := by
  unfold connect
  dsimp only
  rw [hi.control_none (hi.waiting shardId hmem)]
  rfl

theorem timer_kept (hk : Kept nShards s) (hmem : shardId ∈ s.timers) :
    Kept nShards (connect { s with timers := s.timers.erase shardId } shardId) := by
  have hinv := timer_inv hk.toInv hmem
  rw [timer_eq hk.toInv hmem] at hinv ⊢
  constructor
  · exact hinv
  · intro id channel hc
    dsimp only at hc
    rw [getElem?_created] at hc
    split at hc
    · cases hc
      exact hk.timed shardId hmem
    · exact hk.bounded id channel hc
  · intro shardId' h
    exact hk.timed shardId' (List.mem_of_mem_erase h)
  · intro he shardId' hlt
    dsimp only
    by_cases hshard : shardId' = shardId
    · rw [hshard, Function.update_self]
      exact Or.inl rfl
    · rw [Function.update_of_ne hshard]
      exact (hk.tracked he shardId' hlt).imp_right fun h => (List.mem_erase_of_ne hshard).mpr h
  · intro he id channel hc
    dsimp only at hc he
    rw [getElem?_created] at hc
    split at hc
    · cases hc
      exact he
    · exact hk.early he id channel hc
  · intro he id channel hc ho hl
    dsimp only at hc he
    rw [getElem?_created] at hc
    split at hc
    · cases hc
      rw [he] at hl
      cases hl
    · exact hk.ended he id channel hc ho hl

theorem stop_kept (hk : Kept nShards s) : Kept nShards (stop nShards s) := by
  constructor
  · exact stop_inv hk.toInv
  · intro id channel' hc'
    rw [stop_sockets] at hc'
    obtain ⟨channel, hc, rfl⟩ := Option.map_eq_some_iff.mp hc'
    split <;> exact hk.bounded id channel hc
  · exact hk.timed
  · exact nofun
  · exact nofun
  · intro _ id channel' hc' ho hl
    rw [stop_sockets] at hc'
    obtain ⟨channel, hc, rfl⟩ := Option.map_eq_some_iff.mp hc'
    split at ho
    · rename_i hended
      rw [if_pos hended]
      rfl
    · rename_i hended
      exact absurd ⟨channel.shardId, hk.bounded id channel hc, (hk.socket channel.shardId id).mpr ⟨channel, hc, rfl, ho⟩⟩ hended

theorem start_kept (nShards : Nat) : Kept nShards (start nShards {}) := by
  have hs := started nShards
  have hnew : ∀ (id : Nat) channel, (start nShards {}).sockets[id]? = some channel →
      channel.shardId < nShards ∧ channel.late = false := by
    intro id channel hc
    rcases hs.sockets id channel hc with hnone | ⟨hmem, hlate⟩
    · cases hnone
    · exact ⟨List.mem_range.mp hmem, hlate⟩
  constructor
  · exact hs.inv
  · exact fun id channel hc => (hnew id channel hc).1
  · intro shardId hmem
    rw [hs.timers] at hmem
    exact absurd hmem List.not_mem_nil
  · intro _ shardId hlt
    exact Or.inl ((hs.connected shardId).mpr (Or.inl (List.mem_range.mpr hlt)))
  · exact fun _ id channel hc => (hnew id channel hc).2
  · intro he
    rw [hs.expectClose] at he
    cases he

theorem step_kept {e : Ev} (hk : Kept nShards s) (h : step nShards s e = some t) : Kept nShards t := by
  cases e with
  | ready id =>
    obtain ⟨channel, hc, rfl⟩ := Option.map_eq_some_iff.mp h
    obtain ⟨hc, hopen⟩ := openAt_some.mp hc
    exact ready_kept hk hc hopen
  | close id =>
    obtain ⟨channel, hc, rfl⟩ := Option.map_eq_some_iff.mp h
    obtain ⟨hc, hopen⟩ := openAt_some.mp hc
    exact close_kept hk hc hopen
  | timer shardId =>
    obtain ⟨hmem, h⟩ := Option.ite_none_right_eq_some.mp h
    cases h
    exact timer_kept hk hmem
  | stop =>
    obtain ⟨-, h⟩ := Option.ite_none_left_eq_some.mp h
    cases h
    exact stop_kept hk

theorem reach_kept (h : Reach (sys nShards) any s) : Kept nShards s := by
  refine h.inv (P := Kept nShards) ?_ fun _ e _ hk _ hs => step_kept (e := e) hk hs
  rintro _ rfl
  exact start_kept nShards

/-! ## Until the client is stopped -/

/-- A shard has one open connection, or one pending timer. -/
theorem one_channel (h : Reach (sys nShards) any s) (hrunning : s.expectClose = false) {shardId : Nat}
    (hlt : shardId < nShards) :
    (∃! id, Open s shardId id) ∧ shardId ∉ s.timers ∨ (∀ id, ¬Open s shardId id) ∧ s.timers.count shardId = 1 := by
  have hk := reach_kept h
  by_cases hmem : shardId ∈ s.timers
  · refine Or.inr ⟨fun id hopen => ?_, List.count_eq_one_of_mem hk.timers hmem⟩
    have hsocket := (hk.socket shardId id).mpr hopen
    rw [hk.waiting shardId hmem] at hsocket
    cases hsocket
  · obtain ⟨id, hid⟩ := Option.isSome_iff_exists.mp ((hk.tracked hrunning shardId hlt).resolve_right hmem)
    refine Or.inl ⟨⟨id, (hk.socket shardId id).mp hid, fun id' hopen => ?_⟩, hmem⟩
    have hsocket := (hk.socket shardId id').mpr hopen
    rw [hid] at hsocket
    exact (Option.some.inj hsocket).symm

/-- The stub that is called is that of the open connection, once there was an answer on it. -/
theorem control_live (h : Reach (sys nShards) any s) (shardId id : Nat) :
    s.rpcControls shardId = some id ↔
      ∃ channel, s.sockets[id]? = some channel ∧ channel.shardId = shardId ∧ channel.closed = false ∧ channel.ready = true :=
  (reach_kept h).control shardId id

/-! ## After a stop -/

theorem Left.alike (ha : Alike s.sockets t.sockets) (ht : t.timers = s.timers) (shardId : Nat) :
    Left t shardId ↔ Left s shardId := by
  unfold Left
  rw [ht]
  refine or_congr_right ⟨?_, ?_⟩
  · rintro ⟨id, channel', hc', hs', hl', he'⟩
    obtain ⟨channel, hc, hs⟩ := (ha id).1 channel' hc'
    exact ⟨id, channel, hc, hs.shardId ▸ hs', hs.late ▸ hl', hs.ended ▸ he'⟩
  · rintro ⟨id, channel, hc, hs', hl', he'⟩
    obtain ⟨channel', hc', hs⟩ := (ha id).2 channel hc
    exact ⟨id, channel', hc', hs.shardId.trans hs', hs.late.trans hl', hs.ended.trans he'⟩

theorem Left.timer (hi : Inv s) (he : s.expectClose = true) (hmem : shardId ∈ s.timers) (shardId' : Nat) :
    Left (connect { s with timers := s.timers.erase shardId } shardId) shardId' ↔ Left s shardId' := by
  rw [timer_eq hi hmem]
  unfold Left
  dsimp only
  by_cases hshard : shardId' = shardId
  · subst hshard
    refine iff_of_true (Or.inr ⟨s.sockets.length, _, by rw [getElem?_created, if_pos rfl], rfl, he, rfl⟩) (Or.inl hmem)
  · rw [List.mem_erase_of_ne hshard]
    refine or_congr_right ⟨?_, ?_⟩
    · rintro ⟨id, channel, hc, hs, hl, hn⟩
      rw [getElem?_created] at hc
      split at hc
      · cases hc
        exact absurd hs.symm hshard
      · exact ⟨id, channel, hc, hs, hl, hn⟩
    · rintro ⟨id, channel, hc, hs, hl, hn⟩
      exact ⟨id, channel, getElem?_kept _ hc, hs, hl, hn⟩

/-- The first of two connections closed. -/
def severed : Client := onClose (start 2 {}) 0 { shardId := 0 }

theorem severed_reached : Reach (sys 2) any severed := .step (.close 0) (.init rfl) trivial rfl

theorem one_channel_severed : (∃! id, Open severed 1 id) ∧ 1 ∉ severed.timers ∨
    (∀ id, ¬Open severed 1 id) ∧ severed.timers.count 1 = 1 :=
  one_channel severed_reached rfl (by decide)

end GenieCloud.Almond.ControlChannels
