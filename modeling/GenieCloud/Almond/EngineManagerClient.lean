/-
  GenieCloud.Almond.EngineManagerClient — the frontend's cache of engine connections
  (`almond/enginemanagerclient.ts`, `EngineManagerClientImpl`).

  The cache has one entry for a user, the connection that `getEngine` made. An explicit
  call (`killUser` and its like) drops the entry and leaves the closing of the connection
  to the peer: the manager of the shard, whose end of a connection ends with the engine.
  Closes arrive at any later time.

  Two things are asked of each step. An entry leaves the cache by an explicit call for
  its user or by the close of its own connection (`Stays`); and a connection that is open
  and not in the cache will be closed by its peer (`Covered`). `step_safe_iff`: from a
  state where the second holds, a step does what is asked exactly when it is none of three
  (`Kept`): a close while the user's entry is another connection, a call that does not
  reach the manager, and an engine that starts before a dropped connection got there.
-/

import GenieCloud.Lib.Objects
import GenieCloud.Lib.Runs

namespace GenieCloud.Almond.EngineManagerClient

open GenieCloud.Lib.Objects GenieCloud.Lib.Runs

/-! ## Connections -/

/-- What the peer did with the `direct` message of a connection: it is on its way, the
    engine got the connection, or the peer ended it. -/
inductive Peer
  | sent
  | attached
  | ended
deriving DecidableEq

structure Socket where
  userId : Nat
  /-- The close handler ran. -/
  deleted : Bool := false
  peer : Peer := .sent
deriving DecidableEq

/-- Every connection ever opened, oldest first; the cache; which shards have a control
    channel; and, at the managers, which users have an engine. -/
structure Client where
  sockets : List Socket := []
  cachedEngines : Nat → Option Nat := fun _ => none
  rpcControls : Nat → Bool := fun _ => false
  engines : Nat → Bool := fun _ => false

def setSocket (s : Client) (id : Nat) (socket : Socket) : Client := { s with sockets := s.sockets.set id socket }

def delete (s : Client) (userId : Nat) : Client :=
  { s with cachedEngines := Function.update s.cachedEngines userId none }

/-! ## The client -/

/-- The answer is the promise of the connection. -/
def getEngine (s : Client) (userId : Nat) : Nat × Client :=
  match s.cachedEngines userId with
  | some id => (id, s)
  | none => (s.sockets.length, { s with
      sockets := s.sockets ++ [{ userId := userId }]
      cachedEngines := Function.update s.cachedEngines userId (some s.sockets.length) })

/-- The close handler of a connection, and the user it emits `socket-closed` for. -/
def onClose (s : Client) (id : Nat) : Option Nat × Client :=
  match s.sockets[id]? with
  | none => (none, s)
  | some socket =>
    if socket.deleted then (none, s)
    else (some socket.userId, setSocket (delete s socket.userId) id { socket with deleted := true })

def userToShardId (nShards userId : Nat) : Nat := userId % nShards

inductive Method
  | killUser
  | deleteUser
  | clearCache
  | restartUser
  | restartUserWithoutCache
deriving DecidableEq

/-- The entry is dropped, and the manager is called if there is a channel to it. -/
def dropAndCall (method : Method) (nShards : Nat) (s : Client) (userId : Nat) :
    Except String (Method × Nat) × Client :=
  if s.rpcControls (userToShardId nShards userId) then (.ok (method, userId), delete s userId)
  else (.error "EngineManager died", delete s userId)

def killUser := dropAndCall .killUser
def deleteUser := dropAndCall .deleteUser
def clearCache := dropAndCall .clearCache
def restartUser := dropAndCall .restartUser
def restartUserWithoutCache := dropAndCall .restartUserWithoutCache

def call : Method → (nShards : Nat) → Client → (userId : Nat) → Except String (Method × Nat) × Client
  | .killUser => killUser
  | .deleteUser => deleteUser
  | .clearCache => clearCache
  | .restartUser => restartUser
  | .restartUserWithoutCache => restartUserWithoutCache

/-! ## The peer -/

def endSocket (userId : Nat) (socket : Socket) : Socket :=
  if socket.userId = userId ∧ socket.peer = .attached then { socket with peer := .ended } else socket

/-- The engine of a user is killed, or dies, and its connections end. -/
def endEngine (s : Client) (userId : Nat) : Client :=
  { s with sockets := s.sockets.map (endSocket userId), engines := Function.update s.engines userId false }

/-- A `direct` message arrives. Without an engine that can take the connection, the
    answer is an error and the connection is ended. -/
def direct (s : Client) (id : Nat) (taken : Bool) : Option Client := do
  let socket ← s.sockets[id]?
  if socket.peer ≠ .sent ∨ (taken ∧ !s.engines socket.userId) then none
  else return setSocket s id { socket with peer := if taken then .attached else .ended }

/-! ## Events -/

/-- Every call that reaches the manager has the engine killed; what a restart starts
    after that is an event of its own, as are the starts and deaths of engines that no
    call of this client is about. A call is `lost` if the channel breaks under it. -/
inductive Ev
  | getEngine (userId : Nat)
  | close (id : Nat)
  | call (method : Method) (userId : Nat) (lost : Bool)
  | connected (shardId : Nat)
  | severed (shardId : Nat)
  | direct (id : Nat) (taken : Bool)
  | engineStarts (userId : Nat)
  | engineEnds (userId : Nat)

def reaches (nShards : Nat) (s : Client) (userId : Nat) (lost : Bool) : Bool :=
  s.rpcControls (userToShardId nShards userId) && !lost

def step (nShards : Nat) (s : Client) : Ev → Option Client
  | .getEngine userId => some (getEngine s userId).2
  | .close id => some (onClose s id).2
  | .call method userId lost =>
    match call method nShards s userId with
    | (.ok _, s') => some (if lost then s' else endEngine s' userId)
    | (.error _, s') => some s'
  | .connected shardId => some { s with rpcControls := Function.update s.rpcControls shardId true }
  | .severed shardId => some { s with rpcControls := Function.update s.rpcControls shardId false }
  | .direct id taken => direct s id taken
  | .engineStarts userId => some { s with engines := Function.update s.engines userId true }
  | .engineEnds userId => some (endEngine s userId)

def sys (nShards : Nat) : System Client Ev := { init := fun s => s = {}, step := step nShards }

/-! ## What is asked -/

/-- The peer has ended the connection, or will when it arrives, as there is no engine. -/
def WillClose (s : Client) (socket : Socket) : Prop :=
  socket.peer = .ended ∨ (socket.peer = .sent ∧ s.engines socket.userId = false)

/-- Every connection that is open and not in the cache will be closed by its peer. -/
def Covered (s : Client) : Prop :=
  ∀ id socket, s.sockets[id]? = some socket → socket.deleted = false →
    s.cachedEngines socket.userId = some id ∨ WillClose s socket

/-- An entry leaves the cache by an explicit call for its user or the close of its own
    connection. -/
def Stays (s : Client) (e : Ev) (s' : Client) : Prop :=
  ∀ userId id, s.cachedEngines userId = some id →
    s'.cachedEngines userId = some id ∨ (∃ method lost, e = .call method userId lost) ∨ e = .close id

def Kept (nShards : Nat) (s : Client) : Ev → Prop
  | .close id => ∀ socket, s.sockets[id]? = some socket → socket.deleted = false →
      ∀ id', s.cachedEngines socket.userId = some id' → id' = id
  | .call _ userId lost => reaches nShards s userId lost ∨
      ∀ id socket, s.cachedEngines userId = some id → s.sockets[id]? = some socket → WillClose s socket
  | .engineStarts userId => ∀ id socket, s.sockets[id]? = some socket → socket.deleted = false →
      socket.userId = userId → socket.peer = .sent → s.cachedEngines userId = some id
  | _ => True

/-- An entry is an open connection of its user. -/
def Owned (s : Client) : Prop :=
  ∀ userId id, s.cachedEngines userId = some id →
    ∃ socket, s.sockets[id]? = some socket ∧ socket.userId = userId ∧ socket.deleted = false

/-! ## What changes with a connection -/

variable {nShards : Nat} {s s' : Client} {e : Ev} {userId id id' : Nat} {socket socket' : Socket}

theorem getElem?_setSocket (hk : s.sockets[id]? = some socket) (id' : Nat) :
    (setSocket s id socket').sockets[id']? = if id = id' then some socket' else s.sockets[id']? :=
  getElem?_updated hk socket' id'

theorem endSocket_spec (userId : Nat) (socket : Socket) :
    (endSocket userId socket).userId = socket.userId ∧ (endSocket userId socket).deleted = socket.deleted := by
  unfold endSocket
  split <;> exact ⟨rfl, rfl⟩

theorem getElem?_endEngine (h : (endEngine s userId).sockets[id]? = some socket') :
    ∃ socket, s.sockets[id]? = some socket ∧ endSocket userId socket = socket' := by
  have : (s.sockets.map (endSocket userId))[id]? = some socket' := h
  rw [List.getElem?_map] at this
  exact Option.map_eq_some_iff.mp this

theorem owned_unique (ho : Owned s) (h : s.cachedEngines userId = some id) (hk : s.sockets[id]? = some socket) :
    socket.userId = userId ∧ socket.deleted = false := by
  obtain ⟨k, hk', hu, hd⟩ := ho userId id h
  rw [hk] at hk'
  cases hk'
  exact ⟨hu, hd⟩

/-! ## Entries are open connections of their users -/

/-- Where entries only go away and the connections that stay in the cache keep their user
    and stay open. -/
theorem owned_of_sub (ho : Owned s)
    (hsub : ∀ userId id, s'.cachedEngines userId = some id → s.cachedEngines userId = some id)
    (hkeep : ∀ id socket, s.sockets[id]? = some socket → s'.cachedEngines socket.userId = some id →
      ∃ socket', s'.sockets[id]? = some socket' ∧ socket'.userId = socket.userId ∧
        (socket.deleted = false → socket'.deleted = false)) : Owned s' := by
  intro userId id h
  obtain ⟨socket, hk, rfl, hd⟩ := ho userId id (hsub userId id h)
  obtain ⟨socket', hk', hu', hd'⟩ := hkeep id socket hk h
  exact ⟨socket', hk', hu', hd' hd⟩

theorem delete_sub {userId' : Nat} (h : (delete s userId').cachedEngines userId = some id) :
    userId ≠ userId' ∧ s.cachedEngines userId = some id := removed_eq_some.mp h

theorem delete_other {userId' : Nat} (hu : userId ≠ userId') (h : s.cachedEngines userId = some id) :
    (delete s userId').cachedEngines userId = some id := removed_eq_some.mpr ⟨hu, h⟩

theorem owned_delete (ho : Owned s) (userId : Nat) : Owned (delete s userId) := by
  apply owned_of_sub ho
  · exact fun _ _ h => (delete_sub h).2
  · exact fun id socket hk _ => ⟨socket, hk, rfl, fun hd => hd⟩

theorem owned_endEngine (ho : Owned s) (userId : Nat) : Owned (endEngine s userId) := by
  apply owned_of_sub ho
  · exact fun _ _ h => h
  · intro id socket hk _
    refine ⟨endSocket userId socket, ?_, (endSocket_spec ..).1, fun hd => (endSocket_spec ..).2.trans hd⟩
    show (s.sockets.map (endSocket userId))[id]? = _
    rw [List.getElem?_map, hk]
    rfl

theorem owned_direct {taken : Bool} (ho : Owned s) (h : direct s id taken = some s') : Owned s' := by
  simp only [direct, Option.bind_eq_bind, Option.bind_eq_some_iff] at h
  obtain ⟨socket, hk, h⟩ := h
  split at h
  · cases h
  · cases h
    apply owned_of_sub ho
    · exact fun _ _ h => h
    · intro id' socket' hk' _
      rw [getElem?_setSocket hk]
      by_cases h : id = id'
      · subst h
        rw [hk] at hk'
        cases hk'
        exact ⟨_, if_pos rfl, rfl, fun hd => hd⟩
      · exact ⟨socket', (if_neg h).trans hk', rfl, fun hd => hd⟩

theorem owned_onClose (ho : Owned s) (id : Nat) : Owned (onClose s id).2 := by
  unfold onClose
  cases hk : s.sockets[id]? with
  | none => exact ho
  | some socket =>
    dsimp only
    split
    · exact ho
    · apply owned_of_sub ho
      · exact fun _ _ h => (delete_sub h).2
      · intro id' socket' hk' h
        -- the entry of the closed connection's user is gone, so this is another one
        have hne : id ≠ id' := by
          rintro rfl
          rw [hk] at hk'
          cases hk'
          exact (delete_sub h).1 rfl
        have hk'' : (delete s socket.userId).sockets[id]? = some socket := hk
        refine ⟨socket', ?_, rfl, fun hd => hd⟩
        rw [getElem?_setSocket hk'', if_neg hne]
        exact hk'

theorem owned_getEngine (ho : Owned s) (userId : Nat) : Owned (getEngine s userId).2 := by
  unfold getEngine
  cases hc : s.cachedEngines userId with
  | some id => exact ho
  | none =>
    intro userId' id h
    by_cases hu : userId' = userId
    · subst hu
      simp only [Function.update_self, Option.some.injEq] at h
      subst h
      exact ⟨{ userId := userId' }, by simp, rfl, rfl⟩
    · simp only [Function.update_of_ne hu] at h
      obtain ⟨socket, hk, h⟩ := ho userId' id h
      exact ⟨socket, getElem?_kept _ hk, h⟩

/-- What an explicit call leaves. -/
theorem call_spec (method : Method) (userId : Nat) (lost : Bool)
    (h : step nShards s (.call method userId lost) = some s') :
    s' = if reaches nShards s userId lost then endEngine (delete s userId) userId else delete s userId := by
  have hcall : call method nShards s userId = dropAndCall method nShards s userId := by cases method <;> rfl
  simp only [step, hcall, dropAndCall] at h
  unfold reaches
  cases hc : s.rpcControls (userToShardId nShards userId) with
  | false => simpa [hc] using h.symm
  | true => cases lost <;> simpa [hc] using h.symm

theorem step_owned (ho : Owned s) (h : step nShards s e = some s') : Owned s' := by
  cases e with
  | getEngine userId => cases h; exact owned_getEngine ho userId
  | close id => cases h; exact owned_onClose ho id
  | call method userId lost =>
    rw [call_spec method userId lost h]
    split
    · exact owned_endEngine (owned_delete ho userId) userId
    · exact owned_delete ho userId
  | connected shardId => cases h; exact ho
  | severed shardId => cases h; exact ho
  | direct id taken => exact owned_direct ho h
  | engineStarts userId => cases h; exact ho
  | engineEnds userId => cases h; exact owned_endEngine ho userId

/-! ## The steps that are always safe -/

theorem covered_getEngine (hc : Covered s) (userId : Nat) : Covered (getEngine s userId).2 := by
  unfold getEngine
  cases hcache : s.cachedEngines userId with
  | some id => exact hc
  | none =>
    intro id socket hk hd
    have hk' : (s.sockets ++ [{ userId := userId }])[id]? = some socket := hk
    rw [getElem?_created] at hk'
    split at hk'
    · rename_i hid
      left
      cases hk'
      rw [hid]
      exact Function.update_self ..
    · rcases hc id socket hk' hd with h | h
      · left
        have hu : socket.userId ≠ userId := by
          intro hu
          rw [hu, hcache] at h
          cases h
        simpa [Function.update_of_ne hu] using h
      · exact Or.inr h

/-- The end of an engine ends its connections, and those still on their way will find
    nothing. -/
theorem willClose_endEngine (h : WillClose s socket) : WillClose (endEngine s userId) (endSocket userId socket) := by
  unfold endSocket
  split
  · exact Or.inl rfl
  · rcases h with h | ⟨hp, he⟩
    · exact Or.inl h
    · refine Or.inr ⟨hp, ?_⟩
      show Function.update s.engines userId false socket.userId = false
      by_cases hu : socket.userId = userId
      · rw [hu, Function.update_self]
      · rw [Function.update_of_ne hu, he]

theorem willClose_of_user (hu : socket.userId = userId) : WillClose (endEngine s userId) (endSocket userId socket) := by
  unfold endSocket
  by_cases hp : socket.peer = .attached
  · rw [if_pos ⟨hu, hp⟩]
    exact Or.inl rfl
  · rw [if_neg fun h => hp h.2]
    cases hp' : socket.peer with
    | attached => exact absurd hp' hp
    | ended => exact Or.inl hp'
    | sent =>
      right
      refine ⟨hp', ?_⟩
      show Function.update s.engines userId false socket.userId = false
      rw [hu, Function.update_self]

theorem covered_endEngine (hc : Covered s) (userId : Nat) : Covered (endEngine s userId) := by
  intro id socket' hk' hd
  obtain ⟨socket, hk, rfl⟩ := getElem?_endEngine hk'
  rw [(endSocket_spec ..).2] at hd
  rw [(endSocket_spec ..).1]
  exact (hc id socket hk hd).imp_right willClose_endEngine

theorem covered_direct {taken : Bool} (hc : Covered s) (h : direct s id taken = some s') : Covered s' := by
  simp only [direct, Option.bind_eq_bind, Option.bind_eq_some_iff] at h
  obtain ⟨socket, hk, h⟩ := h
  split at h
  · cases h
  · rename_i hguard
    cases h
    have hsent : socket.peer = .sent := by
      by_contra hp
      exact hguard (Or.inl hp)
    intro id' socket' hk' hd
    rw [getElem?_setSocket hk] at hk'
    split at hk'
    · rename_i heq
      subst heq
      cases hk'
      cases taken with
      | false => exact Or.inr (Or.inl rfl)
      | true =>
        -- an engine that takes it runs, so before the step it was in the cache
        rcases hc id socket hk hd with h | h | ⟨-, he⟩
        · exact Or.inl h
        · rw [hsent] at h
          cases h
        · exact absurd (Or.inr ⟨rfl, by simp [he]⟩) hguard
    · exact hc id' socket' hk' hd

/-! ## The close of a connection -/

theorem onClose_safe_iff (hc : Covered s) :
    (Covered (onClose s id).2 ∧ Stays s (.close id) (onClose s id).2) ↔ Kept nShards s (.close id) := by
  unfold onClose
  cases hk : s.sockets[id]? with
  | none =>
    refine ⟨fun _ socket h => ?_, fun _ => ⟨hc, fun _ _ h => Or.inl h⟩⟩
    rw [hk] at h
    cases h
  | some socket =>
    dsimp only
    split
    · rename_i hd
      refine ⟨fun _ socket' h hd' => ?_, fun _ => ⟨hc, fun _ _ h => Or.inl h⟩⟩
      rw [hk] at h
      cases h
      rw [hd] at hd'
      cases hd'
    · rename_i hd
      have hd : socket.deleted = false := by simpa using hd
      have hk' : (delete s socket.userId).sockets[id]? = some socket := hk
      constructor
      · intro ⟨_, hstays⟩ socket' hsocket' _ id' hid'
        rw [hk] at hsocket'
        cases hsocket'
        rcases hstays socket.userId id' hid' with h | ⟨_, _, h⟩ | h
        · exact absurd rfl (delete_sub h).1
        · cases h
        · cases h
          rfl
      · intro hkept
        have hown := hkept socket hk hd
        have hentry : ∀ userId' id', s.cachedEngines userId' = some id' → id' ≠ id →
            (delete s socket.userId).cachedEngines userId' = some id' := by
          intro userId' id' h hne
          have hu : userId' ≠ socket.userId := by
            rintro rfl
            exact hne (hown id' h)
          exact delete_other hu h
        refine ⟨fun id' socket' h hd' => ?_, fun userId' id' h => ?_⟩
        · rw [getElem?_setSocket hk'] at h
          split at h
          · cases h
            cases hd'
          · rename_i hne
            exact (hc id' socket' h hd').imp_left fun h' => hentry _ _ h' (Ne.symm hne)
        · by_cases hne : id' = id
          · exact Or.inr (Or.inr (by rw [hne]))
          · exact Or.inl (hentry userId' id' h hne)

/-! ## The explicit calls -/

/-- A dropped entry leaves its connection to the peer. -/
theorem covered_delete_iff (ho : Owned s) (hc : Covered s) :
    Covered (delete s userId) ↔
      ∀ id socket, s.cachedEngines userId = some id → s.sockets[id]? = some socket → WillClose s socket := by
  constructor
  · intro hc' id socket h hk
    obtain ⟨hu, hd⟩ := owned_unique ho h hk
    rcases hc' id socket hk hd with h' | h'
    · exact absurd hu (delete_sub h').1
    · exact h'
  · intro hwill id socket hk hd
    rcases hc id socket hk hd with h | h
    · by_cases hu : socket.userId = userId
      · subst hu
        exact Or.inr (hwill id socket h hk)
      · exact Or.inl (delete_other hu h)
    · exact Or.inr h

theorem covered_killed (hc : Covered s) (userId : Nat) : Covered (endEngine (delete s userId) userId) := by
  intro id socket' hk' hd
  obtain ⟨socket, hk, rfl⟩ := getElem?_endEngine hk'
  rw [(endSocket_spec ..).2] at hd
  rw [(endSocket_spec ..).1]
  by_cases hu : socket.userId = userId
  · exact Or.inr (willClose_of_user hu)
  · rcases hc id socket hk hd with h | h
    · exact Or.inl (delete_other hu h)
    · exact Or.inr (willClose_endEngine h)

theorem call_safe_iff (ho : Owned s) (hc : Covered s) {method : Method} {lost : Bool}
    (h : step nShards s (.call method userId lost) = some s') :
    (Covered s' ∧ Stays s (.call method userId lost) s') ↔ Kept nShards s (.call method userId lost) := by
  have hentries : s'.cachedEngines = (delete s userId).cachedEngines := by
    rw [call_spec method userId lost h]
    split <;> rfl
  have hstays : Stays s (.call method userId lost) s' := by
    intro userId' id hid
    rw [hentries]
    by_cases hu : userId' = userId
    · exact Or.inr (Or.inl ⟨method, lost, by rw [hu]⟩)
    · exact Or.inl (delete_other hu hid)
  rw [call_spec method userId lost h] at hstays ⊢
  by_cases hr : reaches nShards s userId lost
  · rw [if_pos hr] at hstays ⊢
    exact ⟨fun _ => Or.inl hr, fun _ => ⟨covered_killed hc userId, hstays⟩⟩
  · rw [if_neg hr] at hstays ⊢
    rw [and_iff_left hstays]
    exact (covered_delete_iff ho hc).trans (or_iff_right hr).symm

/-! ## The start of an engine -/

theorem engineStarts_safe_iff (hc : Covered s) (h : step nShards s (.engineStarts userId) = some s') :
    (Covered s' ∧ Stays s (.engineStarts userId) s') ↔ Kept nShards s (.engineStarts userId) := by
  cases h
  have hstays : ∀ engines, Stays s (.engineStarts userId) { s with engines := engines } := fun _ _ _ h => Or.inl h
  rw [and_iff_left (hstays _)]
  constructor
  · intro hc' id socket hk hd hu hp
    rcases hc' id socket hk hd with h | h | ⟨-, he⟩
    · rw [← hu]
      exact h
    · rw [hp] at h
      cases h
    · simp [hu] at he
  · intro hkept id socket hk hd
    rcases hc id socket hk hd with h | h | ⟨hp, he⟩
    · exact Or.inl h
    · exact Or.inr (Or.inl h)
    · by_cases hu : socket.userId = userId
      · left
        rw [hu]
        exact hkept id socket hk hd hu hp
      · refine Or.inr (Or.inr ⟨hp, ?_⟩)
        simpa [Function.update_of_ne hu] using he

/-! ## Runs -/

theorem stays_of_eq (h : s'.cachedEngines = s.cachedEngines) : Stays s e s' := by
  intro userId id hid
  left
  rw [h]
  exact hid

theorem stays_getEngine (userId : Nat) : Stays s (.getEngine userId) (getEngine s userId).2 := by
  intro userId' id h
  left
  unfold getEngine
  cases hc : s.cachedEngines userId with
  | some id => exact h
  | none =>
    have hu : userId' ≠ userId := by
      rintro rfl
      rw [hc] at h
      cases h
    simpa [Function.update_of_ne hu] using h

/-- A step does what is asked exactly when it is none of the three. -/
theorem step_safe_iff (ho : Owned s) (hc : Covered s) (h : step nShards s e = some s') :
    (Covered s' ∧ Stays s e s') ↔ Kept nShards s e := by
  cases e with
  | getEngine userId =>
    cases h
    exact ⟨fun _ => trivial, fun _ => ⟨covered_getEngine hc userId, stays_getEngine userId⟩⟩
  | close id =>
    cases h
    exact onClose_safe_iff hc
  | call method userId lost => exact call_safe_iff ho hc h
  | connected shardId =>
    cases h
    exact ⟨fun _ => trivial, fun _ => ⟨hc, stays_of_eq rfl⟩⟩
  | severed shardId =>
    cases h
    exact ⟨fun _ => trivial, fun _ => ⟨hc, stays_of_eq rfl⟩⟩
  | direct id taken =>
    refine ⟨fun _ => trivial, fun _ => ⟨covered_direct hc h, stays_of_eq ?_⟩⟩
    simp only [step, direct, Option.bind_eq_bind, Option.bind_eq_some_iff] at h
    obtain ⟨socket, -, h⟩ := h
    split at h
    · cases h
    · cases h
      rfl
  | engineStarts userId => exact engineStarts_safe_iff hc h
  | engineEnds userId =>
    cases h
    exact ⟨fun _ => trivial, fun _ => ⟨covered_endEngine hc userId, stays_of_eq rfl⟩⟩

/-- In every run without them every open connection is in the cache or will be closed by
    its peer, and every further step does what is asked exactly when it is none of them. -/
theorem connections_safe (h : Reach (sys nShards) (Kept nShards) s) :
    Covered s ∧ ∀ e s', (sys nShards).step s e = some s' → ((Covered s' ∧ Stays s e s') ↔ Kept nShards s e) := by
  have hinit : ∀ s, (sys nShards).init s → Owned s ∧ Covered s := by
    intro s hs
    rw [show s = {} from hs]
    exact ⟨fun _ _ h => by simp at h, fun _ _ h => by simp at h⟩
  have hinv : Owned s ∧ Covered s := h.inv hinit
    fun s e s' hs hk h => ⟨step_owned hs.1 h, ((step_safe_iff hs.1 hs.2 h).mpr hk).1⟩
  exact ⟨hinv.2, fun e s' h => step_safe_iff hinv.1 hinv.2 h⟩

/-- A connection is made, the user is killed over a working channel, and the next
    `getEngine` makes another one. -/
theorem reconnected_covered :
    ∃ s, run (sys 1) {} [.connected 0, .getEngine 1, .call .killUser 1 false, .getEngine 1] = some s ∧
      s.cachedEngines 1 = some 1 ∧ Covered s := by
  have h0 : Reach (sys 1) (Kept 1) {} := .init rfl
  have hr := (((h0.step (Ev.connected 0) trivial rfl).step (Ev.getEngine 1) trivial rfl).step
    (Ev.call .killUser 1 false) (Or.inl rfl) rfl).step (Ev.getEngine 1) trivial rfl
  exact ⟨_, rfl, rfl, (connections_safe hr).1⟩

/-- The close of the first connection comes after the second one was made, and evicts it. -/
theorem stale_close_evicts :
    ¬∀ s, Reach (sys 1) any s → ∀ e s', (sys 1).step s e = some s' → Covered s' ∧ Stays s e s' := by
  intro h
  have hr : Reach (sys 1) any _ :=
    ((((Reach.init rfl).step (.connected 0) trivial rfl).step (.getEngine 1) trivial rfl).step
      (.call .killUser 1 false) trivial rfl).step (.getEngine 1) trivial rfl
  rcases (h _ hr (.close 0) _ rfl).2 1 1 rfl with h | ⟨_, _, h⟩ | h
  · exact absurd h (by decide)
  · cases h
  · cases h

end GenieCloud.Almond.EngineManagerClient
