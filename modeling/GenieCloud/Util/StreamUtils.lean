/-
  GenieCloud.Util.StreamUtils — a chain of streams with a separator (`ChainStream` of
  `util/stream-utils.ts`).

  `_read` runs whenever the consumer reads, a source of the chain is readable, or a call that it
  deferred to the next tick is due. A push may emit what it pushes at once, so another `_read` may
  start before it returns: the stack holds what is left of each `_read` that is within a push.

  - `reach_faithful`: as long as no `_read` starts within the push of what is left of an ended
    source before the last one, the chain pushes the sources in order, with one separator between
    two of them, and `null` after all of them.
  - `skipped_source`: a `_read` that starts there switches to the next source, and the first one
    switches once more.
-/

import GenieCloud.Lib.Runs
import Mathlib.Data.List.Infix
import Mathlib.Data.List.Induction

namespace GenieCloud.Util.StreamUtils

open GenieCloud.Lib.Runs

abbrev Bytes := List UInt8

/-! ## The sources -/

/-- A readable stream: what it has buffered, and what it has yet to receive. -/
structure Source where
  buffer : Bytes
  rest : Bytes
  /-- `_readableState.ended` -/
  ended : Bool
  complete : ended = true → rest = []
  deriving DecidableEq

def Source.create (content : Bytes) : Source := ⟨[], content, false, nofun⟩

/-- `null` if it has not enough data, be it open or ended. -/
def Source.read (next : Source) (n : Int) : Option (Bytes × Source) :=
  if 0 < n ∧ n ≤ next.buffer.length then
    some (next.buffer.take n.toNat, { next with buffer := next.buffer.drop n.toNat })
  else none

def Source.arrive (source : Source) (length : Nat) : Option Source :=
  if h : source.ended = false then
    some { source with
      buffer := source.buffer ++ source.rest.take length, rest := source.rest.drop length, complete := by simp [h] }
  else none

def Source.finish (source : Source) : Option Source :=
  if h : source.rest = [] then some { source with ended := true, complete := fun _ => h } else none

/-! ## The chain -/

inductive Push where
  | data (stream : Nat) (chunk : Bytes)
  | separator
  | null
  deriving DecidableEq, Repr

/-- What is left of a `_read` when its push returns. -/
inductive Frame where
  | done
  /-- It is to switch to the next source, and read without the bytes that it has pushed. -/
  | switch (n : Int) (length : Nat)
  | defer (n : Int)
  deriving DecidableEq, Repr

structure ChainStream where
  chain : List Source
  /-- `_separator`, `none` if it is falsy. -/
  separator : Option Bytes
  i : Nat
  pushed : List Push
  /-- The calls of `_read` for the next tick. -/
  ticks : List Int
  /-- The calls of `_read` when a source is readable. -/
  listeners : List (Nat × Int)
  stack : List Frame
  deriving DecidableEq

def create (streams : List Bytes) (separator : Option Bytes) : ChainStream :=
  ⟨streams.map Source.create, separator, 0, [], [], [], []⟩

namespace ChainStream

def push (c : ChainStream) (item : Push) (frame : Frame) : ChainStream :=
  { c with pushed := c.pushed ++ [item], stack := frame :: c.stack }

/-- Switch to the next source, and read from it in the next tick. -/
def switch (c : ChainStream) (n : Int) : ChainStream :=
  let c := { c with i := c.i + 1 }
  if c.i < c.chain.length ∧ c.separator.isSome then c.push .separator (.defer n) else { c with ticks := c.ticks ++ [n] }

/-- `_read`, up to its first push; `none` if its assertion fails. -/
def read (c : ChainStream) (n : Int) : Option ChainStream :=
  match c.chain[c.i]? with
  | none => some (c.push .null .done)
  | some next =>
    match next.read n with
    | some (chunk, next) => some ({ c with chain := c.chain.set c.i next }.push (.data c.i chunk) .done)
    | none =>
      if next.ended = false then some { c with listeners := c.listeners ++ [(c.i, n)] }
      else if 0 < next.buffer.length then
        (next.read next.buffer.length).map fun (chunk, next) =>
          { c with chain := c.chain.set c.i next }.push (.data c.i chunk) (.switch n chunk.length)
      else some (c.switch n)

/-- The push that was called last returns. -/
def resume (c : ChainStream) : Option ChainStream :=
  match c.stack with
  | [] => none
  | .done :: stack => some { c with stack }
  | .switch n length :: stack => some ({ c with stack }.switch (n - length))
  | .defer n :: stack => some { c with stack, ticks := c.ticks ++ [n] }

end ChainStream

inductive Event where
  /-- The consumer reads. -/
  | read (n : Int)
  /-- A source emits `readable`, to the listener. -/
  | readable (listener : Nat)
  | tick
  | resume
  /-- So many bytes arrive at a source. -/
  | arrive (source length : Nat)
  | finish (source : Nat)
  deriving DecidableEq, Repr

def update (c : ChainStream) (k : Nat) (f : Source → Option Source) : Option ChainStream :=
  (c.chain[k]?.bind f).map fun source => { c with chain := c.chain.set k source }

def step (c : ChainStream) : Event → Option ChainStream
  | .read n => c.read n
  | .readable listener =>
    c.listeners[listener]?.bind fun (_, n) => { c with listeners := c.listeners.eraseIdx listener }.read n
  | .tick =>
    match c.stack, c.ticks with
    | [], n :: ticks => { c with ticks }.read n
    | _, _ => none
  | .resume => c.resume
  | .arrive k length => update c k fun source => source.arrive length
  | .finish k => update c k Source.finish

def bytes (separator : Bytes) : Push → Bytes
  | .data _ chunk => chunk
  | .separator => separator
  | .null => []

/-- So many separators have been pushed when the chain has switched so often. -/
def separators (separator : Option Bytes) (switches : Nat) : Nat := if separator.isSome then switches else 0

structure Faithful (streams : List Bytes) (separator : Option Bytes) (pushed : List Push) : Prop where
  data : pushed.flatMap (bytes (separator.getD [])) <+: (separator.getD []).intercalate streams
  /-- One separator for each source before that of the chunk. -/
  between : ∀ before k chunk after, pushed = before ++ .data k chunk :: after →
    before.count .separator = separators separator k
  most : pushed.count .separator ≤ separators separator (streams.length - 1)
  null : ∀ before after, pushed = before ++ .null :: after →
    before.flatMap (bytes (separator.getD [])) = (separator.getD []).intercalate streams ∧
      before.count .separator = separators separator (streams.length - 1)

def Frame.isSwitch : Frame → Bool
  | .switch _ _ => true
  | _ => false

/-- Is what is left of an ended source being pushed, and not of the last one? -/
def Switching (c : ChainStream) : Prop := c.i + 1 < c.chain.length ∧ c.stack.any Frame.isSwitch = true

/-- No `_read` starts then. -/
def NotReentered (c : ChainStream) : Event → Prop
  | .read _ => ¬Switching c
  | .readable _ => ¬Switching c
  | _ => True

/-! ## The concatenation -/

section
variable (separator : Bytes)

/-- What comes before a stream. -/
def preceding (streams : List Bytes) (i : Nat) : Bytes := (streams.take i).flatMap (· ++ separator)

variable {separator} {streams : List Bytes} {i : Nat} {stream : Bytes}

theorem preceding_succ (h : streams[i]? = some stream) :
    preceding separator streams (i + 1) = preceding separator streams i ++ (stream ++ separator) := by
  obtain ⟨hi, hstream⟩ := List.getElem?_eq_some_iff.mp h
  rw [preceding, List.take_succ_eq_append_getElem hi, List.flatMap_append, hstream, List.flatMap_singleton, preceding]

/-- The concatenation from a stream on. -/
theorem intercalate_eq (h : i < streams.length) :
    separator.intercalate streams = preceding separator streams i ++ separator.intercalate (streams.drop i) := by
  induction i generalizing streams with
  | zero => rfl
  | succ i ih =>
    cases streams with
    | nil => exact absurd h (Nat.not_lt_zero _)
    | cons first rest =>
      have hrest : i < rest.length := Nat.lt_of_succ_lt_succ h
      cases rest with
      | nil => exact absurd hrest (Nat.not_lt_zero _)
      | cons second rest =>
        rw [List.intercalate_cons_cons, ih hrest, preceding, preceding, List.take_succ_cons, List.flatMap_cons, List.drop_succ_cons]
        simp only [List.append_assoc]

theorem prefix_intercalate {sent unsent : Bytes} (h : streams[i]? = some (sent ++ unsent)) :
    preceding separator streams i ++ sent <+: separator.intercalate streams := by
  obtain ⟨hi, hstream⟩ := List.getElem?_eq_some_iff.mp h
  rw [intercalate_eq hi, List.prefix_append_right_inj, List.drop_eq_getElem_cons hi, hstream]
  cases List.drop (i + 1) streams with
  | nil =>
    rw [List.intercalate_singleton]
    exact List.prefix_append ..
  | cons second rest =>
    rw [List.intercalate_cons_cons, List.append_assoc, List.append_assoc]
    exact List.prefix_append ..

theorem intercalate_last (h : streams[i]? = some stream) (hlast : streams.length ≤ i + 1) :
    separator.intercalate streams = preceding separator streams i ++ stream := by
  obtain ⟨hi, hstream⟩ := List.getElem?_eq_some_iff.mp h
  rw [intercalate_eq hi, List.drop_eq_getElem_cons hi, hstream, List.drop_eq_nil_of_le hlast, List.intercalate_singleton]

end

/-! ## One push more -/

theorem concat_eq_iff {α : Type} {xs pre post : List α} {x y : α} : xs ++ [x] = pre ++ y :: post ↔
    (xs = pre ∧ x = y ∧ post = []) ∨ ∃ rest, post = rest ++ [x] ∧ xs = pre ++ y :: rest := by
  induction post using List.reverseRecOn with
  | nil => simp [List.append_singleton_inj]
  | append_singleton rest z _ =>
    have hassoc : pre ++ y :: (rest ++ [z]) = (pre ++ y :: rest) ++ [z] := by simp
    rw [hassoc, List.append_singleton_inj]
    constructor
    · rintro ⟨hrest, rfl⟩
      exact Or.inr ⟨rest, rfl, hrest⟩
    · rintro (⟨-, -, hnil⟩ | ⟨rest', hrest, heq⟩)
      · exact absurd hnil (by simp)
      · obtain ⟨rfl, rfl⟩ := List.append_singleton_inj.mp hrest
        exact ⟨heq, rfl⟩

section
variable (streams : List Bytes) (separator : Option Bytes) (pushed : List Push)

/-- The push continues the concatenation. -/
def Continues : Push → Prop
  | .data k chunk =>
    pushed.flatMap (bytes (separator.getD [])) ++ chunk <+: (separator.getD []).intercalate streams ∧
      pushed.count .separator = separators separator k
  | .separator =>
    pushed.flatMap (bytes (separator.getD [])) ++ separator.getD [] <+: (separator.getD []).intercalate streams ∧
      pushed.count .separator < separators separator (streams.length - 1)
  | .null =>
    pushed.flatMap (bytes (separator.getD [])) = (separator.getD []).intercalate streams ∧
      pushed.count .separator = separators separator (streams.length - 1)

variable {streams separator pushed}

theorem Faithful.concat {item : Push} (h : Faithful streams separator pushed) (hnext : Continues streams separator pushed item) :
    Faithful streams separator (pushed ++ [item]) := by
  refine ⟨?_, ?_, ?_, ?_⟩
  · rw [List.flatMap_append, List.flatMap_singleton]
    cases item with
    | data k chunk => exact hnext.1
    | separator => exact hnext.1
    | null => exact (List.append_nil _).symm ▸ h.data
  · intro before k chunk after heq
    rcases concat_eq_iff.mp heq with ⟨rfl, rfl, -⟩ | ⟨rest, -, hrest⟩
    · exact hnext.2
    · exact h.between before k chunk rest hrest
  · rw [List.count_append]
    cases item with
    | data k chunk => exact h.most
    | separator => exact hnext.2
    | null => exact h.most
  · intro before after heq
    rcases concat_eq_iff.mp heq with ⟨rfl, rfl, -⟩ | ⟨rest, -, hrest⟩
    · exact hnext
    · exact h.null before rest hrest

end

/-! ## What a read does -/

theorem Source.read_some {next next' : Source} {n : Int} {chunk : Bytes} (h : next.read n = some (chunk, next')) :
    next.buffer ≠ [] ∧ next.buffer ++ next.rest = chunk ++ (next'.buffer ++ next'.rest) := by
  rw [Source.read] at h
  split at h
  · rename_i hn
    simp only [Option.some.injEq, Prod.mk.injEq] at h
    obtain ⟨rfl, rfl⟩ := h
    refine ⟨List.ne_nil_of_length_pos (by omega), ?_⟩
    rw [← List.append_assoc, List.take_append_drop]
  · cases h

theorem Source.read_length {next : Source} (h : next.buffer ≠ []) :
    next.read next.buffer.length = some (next.buffer, { next with buffer := [] }) := by
  have hpos := List.length_pos_iff.mpr h
  rw [Source.read, if_pos (by omega), Int.toNat_natCast, List.take_length, List.drop_length]

/-- Its four cases, for the chain and then for the three in which the source gives `null`. -/
theorem ChainStream.read_cases {c t : ChainStream} {n : Int} (h : c.read n = some t) :
    (c.chain.length ≤ c.i ∧ t = c.push .null .done) ∨ ∃ next, c.chain[c.i]? = some next ∧
      ((∃ chunk next', next.read n = some (chunk, next') ∧
          t = { c with chain := c.chain.set c.i next' }.push (.data c.i chunk) .done) ∨
        t = { c with listeners := c.listeners ++ [(c.i, n)] } ∨
        (next.ended = true ∧ next.buffer ≠ [] ∧ t = { c with chain := c.chain.set c.i { next with buffer := [] } }.push
          (.data c.i next.buffer) (.switch n next.buffer.length)) ∨
        (next.ended = true ∧ next.buffer = [] ∧ t = c.switch n)) := by
  rw [ChainStream.read] at h
  split at h
  · rename_i hnone
    exact Or.inl ⟨List.getElem?_eq_none_iff.mp hnone, (Option.some.inj h).symm⟩
  · rename_i next hnext
    refine Or.inr ⟨next, hnext, ?_⟩
    split at h
    · rename_i chunk next' hread
      exact Or.inl ⟨chunk, next', hread, (Option.some.inj h).symm⟩
    · by_cases hended : next.ended = false
      · rw [if_pos hended] at h
        exact Or.inr (Or.inl (Option.some.inj h).symm)
      · rw [if_neg hended] at h
        rw [Bool.not_eq_false] at hended
        by_cases hbuffer : next.buffer = []
        · rw [if_neg (by simp [hbuffer])] at h
          exact Or.inr (Or.inr (Or.inr ⟨hended, hbuffer, (Option.some.inj h).symm⟩))
        · rw [if_pos (List.length_pos_iff.mpr hbuffer), Source.read_length hbuffer] at h
          exact Or.inr (Or.inr (Or.inl ⟨hended, hbuffer, (Option.some.inj h).symm⟩))

/-- The assertion of the second case never fails. -/
theorem ChainStream.read_isSome (c : ChainStream) (n : Int) : (c.read n).isSome = true := by
  rw [ChainStream.read]
  split
  · rfl
  · rename_i next _
    split
    · rfl
    · split
      · rfl
      · split
        · rename_i hpos
          rw [Source.read_length (List.ne_nil_of_length_pos hpos)]
          rfl
        · rfl

theorem ChainStream.switch_separator {c : ChainStream} {n : Int} (h : c.i + 1 < c.chain.length ∧ c.separator.isSome = true) :
    c.switch n = { c with i := c.i + 1 }.push .separator (.defer n) := if_pos h

theorem ChainStream.switch_tick {c : ChainStream} {n : Int} (h : ¬(c.i + 1 < c.chain.length ∧ c.separator.isSome = true)) :
    c.switch n = { c with i := c.i + 1, ticks := c.ticks ++ [n] } := if_neg h

/-! ## The invariant -/

structure Inv (streams : List Bytes) (separator : Option Bytes) (c : ChainStream) : Prop where
  faithful : Faithful streams separator c.pushed
  length : c.chain.length = streams.length
  same : c.separator = separator
  later : ∀ k source, c.i < k → c.chain[k]? = some source → streams[k]? = some (source.buffer ++ source.rest)
  current : ∀ source, c.chain[c.i]? = some source → ∃ sent, streams[c.i]? = some (sent ++ (source.buffer ++ source.rest)) ∧
    c.pushed.flatMap (bytes (separator.getD [])) = preceding (separator.getD []) streams c.i ++ sent
  past : c.chain.length ≤ c.i → c.pushed.flatMap (bytes (separator.getD [])) = (separator.getD []).intercalate streams
  count : c.pushed.count .separator = separators separator (min c.i (streams.length - 1))
  /-- Only the `_read` that runs is to switch, but for the last source. -/
  switches : c.i + 1 < c.chain.length → c.stack.tail.any Frame.isSwitch = false
  /-- When one is, the source has nothing left. -/
  drained : c.stack.any Frame.isSwitch = true → ∀ source, c.chain[c.i]? = some source →
    source.ended = true ∧ source.buffer = []

section
variable {streams : List Bytes} {separator : Option Bytes} {c : ChainStream}

theorem any_tail {stack : List Frame} (h : stack.any Frame.isSwitch = false) : stack.tail.any Frame.isSwitch = false := by
  rw [List.any_eq_false] at h ⊢
  exact fun frame hframe => h frame (List.mem_of_mem_tail hframe)

theorem inv_create : Inv streams separator (create streams separator) := by
  have hsource : ∀ (k : Nat) (source : Source), (create streams separator).chain[k]? = some source →
      streams[k]? = some (source.buffer ++ source.rest) := by
    intro k source h
    rw [create, List.getElem?_map, Option.map_eq_some_iff] at h
    obtain ⟨content, hcontent, rfl⟩ := h
    exact hcontent
  refine ⟨⟨List.nil_prefix, ?_, Nat.zero_le _, ?_⟩, List.length_map _, rfl, fun k source _ => hsource k source, ?_, ?_, ?_,
    fun _ => rfl, nofun⟩
  · intro before k chunk after h
    exact absurd h (by simp [create])
  · intro before after h
    exact absurd h (by simp [create])
  · intro source h
    exact ⟨[], hsource 0 source h, rfl⟩
  · intro h
    rw [create, List.length_map] at h
    rw [List.eq_nil_of_length_eq_zero (Nat.le_zero.mp h)]
    rfl
  · rw [create, Nat.zero_min, separators]
    exact (ite_self 0).symm

theorem Inv.count_current (h : Inv streams separator c) (hi : c.i < c.chain.length) :
    c.pushed.count .separator = separators separator c.i := by
  have hmin : min c.i (streams.length - 1) = c.i := by
    have := h.length
    omega
  exact hmin ▸ h.count

/-- A chunk of the source at hand. -/
theorem inv_data {next next' : Source} {chunk : Bytes} {frame : Frame} (h : Inv streams separator c)
    (hnext : c.chain[c.i]? = some next) (hne : next.buffer ≠ [])
    (hsplit : next.buffer ++ next.rest = chunk ++ (next'.buffer ++ next'.rest))
    (hframe : frame.isSwitch = true → next'.ended = true ∧ next'.buffer = []) :
    Inv streams separator ({ c with chain := c.chain.set c.i next' }.push (.data c.i chunk) frame) := by
  have hi : c.i < c.chain.length := (List.getElem?_eq_some_iff.mp hnext).1
  have hstack : c.stack.any Frame.isSwitch = false := by
    rw [← Bool.not_eq_true]
    exact fun hany => hne (h.drained hany next hnext).2
  obtain ⟨sent, hsent, hdata⟩ := h.current next hnext
  rw [hsplit, ← List.append_assoc] at hsent
  have hchain : (c.chain.set c.i next')[c.i]? = some next' := List.getElem?_set_self hi
  have hpush : Continues streams separator c.pushed (.data c.i chunk) := by
    refine ⟨?_, h.count_current hi⟩
    rw [hdata, List.append_assoc]
    exact prefix_intercalate hsent
  refine ⟨h.faithful.concat hpush, (List.length_set ..).trans h.length, h.same, ?_, ?_, ?_, ?_, fun _ => hstack, ?_⟩
  · intro k source hk hsource
    have hother : (c.chain.set c.i next')[k]? = c.chain[k]? := List.getElem?_set_ne (Nat.ne_of_lt hk)
    exact h.later k source hk (hother.symm.trans hsource)
  · intro source hsource
    obtain rfl : next' = source := Option.some.inj (hchain.symm.trans hsource)
    refine ⟨sent ++ chunk, hsent, ?_⟩
    show List.flatMap _ (c.pushed ++ [.data c.i chunk]) = _
    rw [List.flatMap_append, List.flatMap_singleton, hdata, List.append_assoc]
    rfl
  · intro hle
    exact absurd hi (Nat.not_lt.mpr ((List.length_set ..) ▸ hle))
  · show List.count _ (c.pushed ++ [.data c.i chunk]) = _
    rw [List.count_append]
    exact h.count
  · intro hany source hsource
    obtain rfl : next' = source := Option.some.inj (hchain.symm.trans hsource)
    have hor : (frame.isSwitch || c.stack.any Frame.isSwitch) = true := hany
    rw [hstack, Bool.or_false] at hor
    exact hframe hor

/-- All of a source that has nothing left has been pushed. -/
theorem pushed_drained (h : Inv streams separator c)
    (hdrained : ∀ source, c.chain[c.i]? = some source → source.ended = true ∧ source.buffer = []) {stream : Bytes}
    (hstream : streams[c.i]? = some stream) :
    c.pushed.flatMap (bytes (separator.getD [])) = preceding (separator.getD []) streams c.i ++ stream := by
  have hi : c.i < c.chain.length := h.length ▸ (List.getElem?_eq_some_iff.mp hstream).1
  have hnext := List.getElem?_eq_getElem hi
  obtain ⟨sent, hsent, hdata⟩ := h.current _ hnext
  obtain ⟨hended, hbuffer⟩ := hdrained _ hnext
  rw [hbuffer, c.chain[c.i].complete hended, List.append_nil, List.append_nil, hstream] at hsent
  rw [hdata, Option.some.inj hsent]

theorem preceding_drained (h : Inv streams separator c)
    (hdrained : ∀ source, c.chain[c.i]? = some source → source.ended = true ∧ source.buffer = [])
    (hi : c.i < c.chain.length) : preceding (separator.getD []) streams (c.i + 1) =
      c.pushed.flatMap (bytes (separator.getD [])) ++ separator.getD [] := by
  have hstream := List.getElem?_eq_getElem (h.length ▸ hi)
  rw [preceding_succ hstream, ← List.append_assoc, ← pushed_drained h hdrained hstream]

theorem inv_separator {n : Int} (h : Inv streams separator c)
    (hdrained : ∀ source, c.chain[c.i]? = some source → source.ended = true ∧ source.buffer = [])
    (hmore : c.i + 1 < c.chain.length) (hsome : c.separator.isSome = true) (hstack : c.stack.any Frame.isSwitch = false) :
    Inv streams separator ({ c with i := c.i + 1 }.push .separator (.defer n)) := by
  have hlength := h.length
  have hi := Nat.lt_of_succ_lt hmore
  have hpreceding := preceding_drained h hdrained hi
  have hcount := h.count_current hi
  have hone : ∀ k, separators separator k = k := fun k => if_pos (h.same ▸ hsome)
  have hpush : Continues streams separator c.pushed .separator := by
    refine ⟨?_, ?_⟩
    · have hstream := h.later (c.i + 1) _ (Nat.lt_succ_self _) (List.getElem?_eq_getElem hmore)
      have hprefix : preceding (separator.getD []) streams (c.i + 1) ++ [] <+: _ := prefix_intercalate hstream
      rwa [List.append_nil, hpreceding] at hprefix
    · rw [hcount, hone, hone]
      omega
  refine ⟨h.faithful.concat hpush, hlength, h.same, ?_, ?_, ?_, ?_, fun _ => hstack, ?_⟩
  · intro k source hk
    exact h.later k source (Nat.lt_of_succ_lt hk)
  · intro source hsource
    refine ⟨[], h.later (c.i + 1) source (Nat.lt_succ_self _) hsource, ?_⟩
    show List.flatMap _ (c.pushed ++ [.separator]) = preceding (separator.getD []) streams (c.i + 1) ++ []
    rw [hpreceding, List.flatMap_append, List.flatMap_singleton, List.append_nil]
    rfl
  · exact fun hle => absurd hmore (Nat.not_lt.mpr hle)
  · have hmin : min (c.i + 1) (streams.length - 1) = c.i + 1 := by omega
    show List.count _ (c.pushed ++ [.separator]) = separators separator (min (c.i + 1) (streams.length - 1))
    rw [List.count_append, List.count_singleton_self, hcount, hmin, hone, hone]
  · intro hany
    exact absurd (hstack.symm.trans hany) Bool.false_ne_true

/-- Without a separator. -/
theorem inv_next (n : Int) (h : Inv streams separator c)
    (hdrained : ∀ source, c.chain[c.i]? = some source → source.ended = true ∧ source.buffer = [])
    (hmore : c.i + 1 < c.chain.length) (hnone : c.separator = none) (hstack : c.stack.any Frame.isSwitch = false) :
    Inv streams separator { c with i := c.i + 1, ticks := c.ticks ++ [n] } := by
  have hi := Nat.lt_of_succ_lt hmore
  have hseparator : separator = none := h.same ▸ hnone
  have hzero : ∀ k, separators separator k = 0 := fun k => by rw [hseparator]; rfl
  refine ⟨h.faithful, h.length, h.same, ?_, ?_, ?_, ?_, fun _ => any_tail hstack, ?_⟩
  · intro k source hk
    exact h.later k source (Nat.lt_of_succ_lt hk)
  · intro source hsource
    refine ⟨[], h.later (c.i + 1) source (Nat.lt_succ_self _) hsource, ?_⟩
    show c.pushed.flatMap _ = preceding (separator.getD []) streams (c.i + 1) ++ []
    rw [preceding_drained h hdrained hi, hseparator, List.append_assoc, Option.getD_none, List.append_nil, List.append_nil]
  · exact fun hle => absurd hmore (Nat.not_lt.mpr hle)
  · exact (h.count_current hi).trans ((hzero _).trans (hzero _).symm)
  · intro hany
    exact absurd (hstack.symm.trans hany) Bool.false_ne_true

/-- From the last source, or from the end. -/
theorem inv_end (n : Int) (h : Inv streams separator c)
    (hdrained : ∀ source, c.chain[c.i]? = some source → source.ended = true ∧ source.buffer = [])
    (hmore : ¬c.i + 1 < c.chain.length) : Inv streams separator { c with i := c.i + 1, ticks := c.ticks ++ [n] } := by
  have hlength := h.length
  have hmin : min (c.i + 1) (streams.length - 1) = min c.i (streams.length - 1) := by omega
  have hnone : c.chain[c.i + 1]? = none := List.getElem?_eq_none (Nat.le_of_not_lt hmore)
  refine ⟨h.faithful, hlength, h.same, ?_, ?_, ?_, hmin ▸ h.count, ?_, ?_⟩
  · intro k source hk
    exact h.later k source (Nat.lt_of_succ_lt hk)
  · intro source hsource
    exact absurd (hnone.symm.trans hsource) (by simp)
  · intro _
    by_cases hi : c.i < streams.length
    · rw [intercalate_last (List.getElem?_eq_getElem hi) (by omega)]
      exact pushed_drained h hdrained (List.getElem?_eq_getElem hi)
    · exact h.past (by omega)
  · exact fun hlt => absurd (Nat.lt_of_succ_lt hlt) hmore
  · intro _ source hsource
    exact absurd (hnone.symm.trans hsource) (by simp)

/-- The switch from a source that has nothing left, or from the end. -/
theorem inv_switch (n : Int) (h : Inv streams separator c)
    (hdrained : ∀ source, c.chain[c.i]? = some source → source.ended = true ∧ source.buffer = [])
    (hstack : c.i + 1 < c.chain.length → c.stack.any Frame.isSwitch = false) : Inv streams separator (c.switch n) := by
  by_cases hmore : c.i + 1 < c.chain.length
  · by_cases hsome : c.separator.isSome = true
    · rw [ChainStream.switch_separator ⟨hmore, hsome⟩]
      exact inv_separator h hdrained hmore hsome (hstack hmore)
    · rw [ChainStream.switch_tick fun hboth => hsome hboth.2]
      exact inv_next n h hdrained hmore (Option.not_isSome_iff_eq_none.mp hsome) (hstack hmore)
  · rw [ChainStream.switch_tick fun hboth => hmore hboth.1]
    exact inv_end n h hdrained hmore

theorem inv_null (h : Inv streams separator c) (hend : c.chain.length ≤ c.i) : Inv streams separator (c.push .null .done) := by
  have hlength := h.length
  have hnone : c.chain[c.i]? = none := List.getElem?_eq_none hend
  have hcount : c.pushed.count .separator = separators separator (streams.length - 1) := by
    have hmin : min c.i (streams.length - 1) = streams.length - 1 := by omega
    exact hmin ▸ h.count
  have hpush : Continues streams separator c.pushed .null := ⟨h.past hend, hcount⟩
  refine ⟨h.faithful.concat hpush, hlength, h.same, h.later, ?_, ?_, ?_, ?_, ?_⟩
  · intro source hsource
    exact absurd (hnone.symm.trans hsource) (by simp)
  · intro _
    show List.flatMap _ (c.pushed ++ [.null]) = _
    rw [List.flatMap_append, List.flatMap_singleton, h.past hend]
    exact List.append_nil _
  · show List.count _ (c.pushed ++ [.null]) = _
    rw [List.count_append]
    exact h.count
  · intro hlt
    exact absurd (Nat.lt_of_succ_lt hlt) (Nat.not_lt.mpr hend)
  · intro _ source hsource
    exact absurd (hnone.symm.trans hsource) (by simp)

theorem inv_read {t : ChainStream} {n : Int} (h : Inv streams separator c) (hsettled : ¬Switching c)
    (hread : c.read n = some t) : Inv streams separator t := by
  rcases ChainStream.read_cases hread with ⟨hend, rfl⟩ | ⟨next, hnext, hcase⟩
  · exact inv_null h hend
  · rcases hcase with ⟨chunk, next', hchunk, rfl⟩ | rfl | ⟨hended, hne, rfl⟩ | ⟨hended, hnil, rfl⟩
    · obtain ⟨hne, hsplit⟩ := Source.read_some hchunk
      exact inv_data h hnext hne hsplit nofun
    · exact ⟨h.faithful, h.length, h.same, h.later, h.current, h.past, h.count, h.switches, h.drained⟩
    · exact inv_data h hnext hne rfl fun _ => ⟨hended, rfl⟩
    · refine inv_switch n h ?_ ?_
      · intro source hsource
        obtain rfl : next = source := Option.some.inj (hnext.symm.trans hsource)
        exact ⟨hended, hnil⟩
      · intro hmore
        rw [← Bool.not_eq_true]
        exact fun hany => hsettled ⟨hmore, hany⟩

/-- A `_read` that starts within the push of what was left finds nothing, and switches. -/
theorem read_switching (n : Int) (h : Inv streams separator c) (hswitching : Switching c) : c.read n = some (c.switch n) := by
  have hi := Nat.lt_of_succ_lt hswitching.1
  have hnext := List.getElem?_eq_getElem hi
  obtain ⟨hended, hnil⟩ := h.drained hswitching.2 _ hnext
  have hread : c.chain[c.i].read n = none := by
    rw [Source.read, hnil, if_neg]
    simp
  rw [ChainStream.read, hnext]
  simp [hread, hended, hnil]

theorem inv_resume {t : ChainStream} (h : Inv streams separator c) (hresume : c.resume = some t) : Inv streams separator t := by
  have hpop : ∀ {frame : Frame} {stack : List Frame}, c.stack = frame :: stack → Inv streams separator { c with stack } := by
    intro frame stack hstack
    have hswitches : c.i + 1 < c.chain.length → stack.any Frame.isSwitch = false := by
      intro hmore
      have htail := h.switches hmore
      rwa [hstack, List.tail_cons] at htail
    refine ⟨h.faithful, h.length, h.same, h.later, h.current, h.past, h.count, ?_, ?_⟩
    · exact fun hmore => any_tail (hswitches hmore)
    · intro hany
      refine h.drained ?_
      rw [hstack, List.any_cons, hany, Bool.or_true]
  rw [ChainStream.resume] at hresume
  split at hresume
  · cases hresume
  · rename_i stack hstack
    obtain rfl := Option.some.inj hresume
    exact hpop hstack
  · rename_i n length stack hstack
    obtain rfl := Option.some.inj hresume
    refine inv_switch _ (hpop hstack) ?_ ?_
    · refine h.drained ?_
      rw [hstack]
      rfl
    · intro hmore
      have htail := h.switches hmore
      rwa [hstack, List.tail_cons] at htail
  · rename_i n stack hstack
    obtain rfl := Option.some.inj hresume
    have hinv := hpop hstack
    exact ⟨hinv.faithful, hinv.length, hinv.same, hinv.later, hinv.current, hinv.past, hinv.count, hinv.switches, hinv.drained⟩

/-- A source that receives something, and not if it has ended. -/
theorem inv_update {t : ChainStream} {k : Nat} {f : Source → Option Source} (h : Inv streams separator c)
    (hf : ∀ source source', f source = some source' →
      source'.buffer ++ source'.rest = source.buffer ++ source.rest ∧
        (source.ended = true → source'.ended = true ∧ source'.buffer = source.buffer))
    (hupdate : update c k f = some t) : Inv streams separator t := by
  obtain ⟨source', hbind, rfl⟩ := Option.map_eq_some_iff.mp hupdate
  obtain ⟨source, hsource, hsource'⟩ := Option.bind_eq_some_iff.mp hbind
  obtain ⟨hcontent, hended⟩ := hf source source' hsource'
  -- every source has the content it had
  have hall : ∀ (j : Nat) (next : Source), (c.chain.set k source')[j]? = some next → ∃ old, c.chain[j]? = some old ∧
      next.buffer ++ next.rest = old.buffer ++ old.rest ∧
      (old.ended = true → next.ended = true ∧ next.buffer = old.buffer) := by
    intro j next hnext
    by_cases hj : k = j
    · subst hj
      have hself : (c.chain.set k source')[k]? = some source' :=
        List.getElem?_set_self (List.getElem?_eq_some_iff.mp hsource).1
      obtain rfl : source' = next := Option.some.inj (hself.symm.trans hnext)
      exact ⟨source, hsource, hcontent, hended⟩
    · rw [List.getElem?_set_ne hj] at hnext
      exact ⟨next, hnext, rfl, fun hend => ⟨hend, rfl⟩⟩
  have hlength : (c.chain.set k source').length = c.chain.length := List.length_set ..
  refine ⟨h.faithful, hlength.trans h.length, h.same, ?_, ?_, ?_, h.count, ?_, ?_⟩
  · intro j next hj hnext
    obtain ⟨old, hold, hsame, -⟩ := hall j next hnext
    exact hsame ▸ h.later j old hj hold
  · intro next hnext
    obtain ⟨old, hold, hsame, -⟩ := hall c.i next hnext
    exact hsame ▸ h.current old hold
  · exact fun hle => h.past (hlength ▸ hle)
  · exact fun hlt => h.switches (hlength ▸ hlt)
  · intro hany next hnext
    obtain ⟨old, hold, -, hkept⟩ := hall c.i next hnext
    obtain ⟨hend, hnil⟩ := h.drained hany old hold
    exact ⟨(hkept hend).1, (hkept hend).2.trans hnil⟩

theorem arrive_keeps {source source' : Source} {length : Nat} (h : source.arrive length = some source') :
    source'.buffer ++ source'.rest = source.buffer ++ source.rest ∧
      (source.ended = true → source'.ended = true ∧ source'.buffer = source.buffer) := by
  rw [Source.arrive] at h
  split at h
  · rename_i hopen
    obtain rfl := Option.some.inj h
    refine ⟨?_, fun hended => absurd (hopen.symm.trans hended) Bool.false_ne_true⟩
    show (source.buffer ++ source.rest.take length) ++ source.rest.drop length = _
    rw [List.append_assoc, List.take_append_drop]
  · cases h

theorem finish_keeps {source source' : Source} (h : source.finish = some source') :
    source'.buffer ++ source'.rest = source.buffer ++ source.rest ∧
      (source.ended = true → source'.ended = true ∧ source'.buffer = source.buffer) := by
  rw [Source.finish] at h
  split at h
  · obtain rfl := Option.some.inj h
    exact ⟨rfl, fun _ => ⟨rfl, rfl⟩⟩
  · cases h

theorem inv_step {t : ChainStream} {e : Event} (h : Inv streams separator c) (hok : NotReentered c e)
    (hs : step c e = some t) : Inv streams separator t := by
  cases e with
  | read n => exact inv_read h hok hs
  | readable listener =>
    obtain ⟨⟨k, n⟩, -, hread⟩ := Option.bind_eq_some_iff.mp hs
    have hinv : Inv streams separator { c with listeners := c.listeners.eraseIdx listener } :=
      ⟨h.faithful, h.length, h.same, h.later, h.current, h.past, h.count, h.switches, h.drained⟩
    exact inv_read hinv hok hread
  | tick =>
    rw [step] at hs
    split at hs
    · rename_i n ticks hstack _
      have hinv : Inv streams separator { c with ticks } :=
        ⟨h.faithful, h.length, h.same, h.later, h.current, h.past, h.count, h.switches, h.drained⟩
      refine inv_read hinv ?_ hs
      intro hswitching
      have hany : c.stack.any Frame.isSwitch = true := hswitching.2
      rw [hstack] at hany
      cases hany
    · cases hs
  | resume => exact inv_resume h hs
  | arrive k length => exact inv_update h (fun source source' => arrive_keeps) hs
  | finish k => exact inv_update h (fun source source' => finish_keeps) hs

end

end GenieCloud.Util.StreamUtils
