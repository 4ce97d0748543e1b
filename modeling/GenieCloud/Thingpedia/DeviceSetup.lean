/-
  GenieCloud.Thingpedia.DeviceSetup — how the requested kinds are set up
  (`_ensureDeviceFactory` and `getDeviceSetup` of `util/thingpedia-client.ts`).

  The rows of the query are grouped by the kind they are for, in one pass: the first factory
  of a kind is its entry, and with the second the entry becomes a choice of both. A kind
  without a factory is given an empty choice at the end.

  The result is a plain object, in which the names that every object inherits are there from
  the start, and the entry `messaging` is the last factory of the messaging device and not its
  entry. `getDeviceSetup_iff`: every requested kind has its answer, and `messaging` that of the
  messaging device, exactly if no requested kind is such a name and, if `messaging` was
  requested, the messaging device has one factory.
-/

import GenieCloud.Lib.Record
import GenieCloud.Thingpedia.Queries
import GenieCloud.Util.Utterance
import Mathlib.Data.List.Induction

namespace GenieCloud.Thingpedia.DeviceSetup

open GenieCloud.Lib
open Util.Utterance (objectPrototype)

/-! ## The rows -/

/-- The column: a text stands for what `JSON.parse` makes of it. -/
inductive FactoryColumn where
  | null
  | text (parsed : Except String (Option Factory))
  | object (factory : Factory)

structure Row where
  primary_kind : String
  name : String
  for_kind : String
  factory : FactoryColumn

def ensureDeviceFactory (device : Row) : Except String (Option Factory) :=
  match device.factory with
  | .null => .ok none
  | .text parsed => parsed
  | .object factory => .ok (some factory)

/-! ## The result -/

/-- A text out of `names`, which is a plain object too. -/
inductive Text where
  | string (text : String)
  | member (name : String)
  deriving DecidableEq

inductive Choice where
  | factory (f : Factory)
  | member (name : String)
  deriving DecidableEq

/-- What an object has at a key; a member is inherited. -/
inductive Entry where
  | factory (f : Factory)
  | multiple (text : Text) (choices : List Choice)
  | member (name : String)
  deriving DecidableEq

/-- A choice that is assigned to `__proto__` becomes what the object inherits from. -/
structure Result where
  own : Record Entry
  proto : Option (Text × List Choice)

namespace Result

def empty : Result := ⟨Record.empty, none⟩

/-- `result[kind]` -/
def property (result : Result) (kind : String) : Option Entry :=
  if kind = "__proto__" then
    match result.proto with
    | some (text, choices) => some (.multiple text choices)
    | none => some (.member kind)
  else
    match result.own.get? kind with
    | some entry => some entry
    | none =>
      if (result.proto.isSome && ["type", "text", "choices"].contains kind) || objectPrototype.contains kind then
        some (.member kind)
      else none

/-- `result[kind] = entry` at a kind other than `__proto__`. -/
def set (result : Result) (kind : String) (entry : Entry) : Result := { result with own := result.own.set kind entry }

def setMultiple (result : Result) (kind : String) (text : Text) (choices : List Choice) : Result :=
  if kind = "__proto__" then { result with proto := some (text, choices) } else result.set kind (.multiple text choices)

end Result

/-! ## The passes -/

/-- `names[d.primary_kind] = d.name`; a text cannot be assigned to `__proto__`. -/
def namesOf (devices : List Row) : Record String :=
  devices.foldl (fun names d => if d.primary_kind = "__proto__" then names else names.set d.primary_kind d.name) Record.empty

/-- `names[kind] || kind` -/
def textOf (names : Record String) (kind : String) : Text :=
  match names.get? kind with
  | some name => .string (if name = "" then kind else name)
  | none => if objectPrototype.contains kind then .member kind else .string kind

section

variable (MESSAGING_DEVICE : String)

/-- The factory takes its place. A factory that says it is multiple has no choices to add to. -/
def addChoice (names : Record String) (result : Result) (kind : String) (factory : Factory) : Except String Result :=
  match result.property kind with
  | none => .ok (result.set kind (.factory factory))
  | some (.multiple text choices) => .ok (result.setMultiple kind text (choices ++ [.factory factory]))
  | some (.factory first) =>
    if first.type = "multiple" then .error "TypeError"
    else .ok (result.setMultiple kind (textOf names kind) [.factory first, .factory factory])
  | some (.member name) => .ok (result.setMultiple kind (textOf names kind) [.member name, .factory factory])

/-- The body of the loop over the devices. What is thrown in it is ignored. -/
def addDevice (names : Record String) (result : Result) (d : Row) : Result :=
  match ensureDeviceFactory d with
  | .ok (some factory) =>
    match addChoice names result d.for_kind factory with
    | .ok result => if d.for_kind = MESSAGING_DEVICE then result.set "messaging" (.factory factory) else result
    | .error _ => result
  | .ok none => result
  | .error _ => result

def fillEmpty (names : Record String) (result : Result) (kind : String) : Result :=
  if (result.property kind).isSome then result else result.set kind (.multiple (textOf names kind) [])

/-- The requested kinds, with the messaging device for `messaging`. -/
def requested (kinds : List String) : List String :=
  kinds.map fun kind => if kind = "messaging" then MESSAGING_DEVICE else kind

def getDeviceSetup (getDevicesForSetup : List String → List Row) (kinds : List String) : Result :=
  if kinds.isEmpty then Result.empty
  else
    let kinds := requested MESSAGING_DEVICE kinds
    let devices := getDevicesForSetup kinds
    let names := namesOf devices
    kinds.foldl (fillEmpty names) (devices.foldl (addDevice MESSAGING_DEVICE names) Result.empty)

end

/-! ## What is wanted -/

/-- The factories for a kind, in the order of their rows. -/
def factoriesFor (devices : List Row) (kind : String) : List Factory :=
  devices.filterMap fun d => if d.for_kind = kind then (ensureDeviceFactory d).toOption.join else none

/-- The entry of a kind that has these factories. -/
def Answers (entry : Entry) : List Factory → Prop
  | [] => ∃ text, entry = .multiple text []
  | [factory] => entry = .factory factory
  | factories => ∃ text, entry = .multiple text (factories.map .factory)

structure SetUp (MESSAGING_DEVICE : String) (kinds : List String) (devices : List Row) (result : Result) : Prop where
  answers : ∀ kind ∈ requested MESSAGING_DEVICE kinds,
    ∃ entry, result.property kind = some entry ∧ Answers entry (factoriesFor devices kind)
  messaging : "messaging" ∈ kinds → result.property "messaging" = result.property MESSAGING_DEVICE

/-- What the query returns: rows for requested kinds, with factories that parse and are not
    themselves multiple. -/
structure Queried (MESSAGING_DEVICE : String) (kinds : List String) (devices : List Row) : Prop where
  for_kind : ∀ d ∈ devices, d.for_kind ∈ requested MESSAGING_DEVICE kinds
  parses : ∀ d ∈ devices, ∃ factory, ensureDeviceFactory d = .ok factory ∧ ∀ f, factory = some f → f.type ≠ "multiple"

structure Ordinary (MESSAGING_DEVICE : String) (kinds : List String) (devices : List Row) : Prop where
  own : ∀ kind ∈ requested MESSAGING_DEVICE kinds, kind ∉ objectPrototype
  atMostOne : "messaging" ∈ kinds → (factoriesFor devices MESSAGING_DEVICE).length ≤ 1
  one : "messaging" ∈ kinds → factoriesFor devices MESSAGING_DEVICE ≠ [] ∨ MESSAGING_DEVICE = "messaging"

/-! ## In the database -/

/-- A row as the query reads it. -/
def row (r : SetupRow) : Row :=
  ⟨r.primary_kind, r.name, r.for_kind, match r.factory with | some factory => .object factory | none => .null⟩

theorem setupRows_for_kind {V : Type} {db : Db V} {names : List String} {org : Option Org}
    {forKinds : Nat → DeviceRow → List String} {r : SetupRow} (h : r ∈ setupRows db names org forKinds) :
    r.for_kind ∈ names := by
  obtain ⟨x, -, hx⟩ := List.mem_flatMap.mp h
  split at hx
  · obtain ⟨kind, hkind, rfl⟩ := List.mem_map.mp hx
    exact List.contains_iff_mem.mp (List.mem_filter.mp hkind).2
  · cases hx

/-- Every row of the query is for one of its names. -/
theorem getDevicesForSetup_queried {V : Type} (db : Db V) (org : Option Org) (MESSAGING_DEVICE : String) (kinds : List String)
    (h : ∀ r ∈ getDevicesForSetup db (requested MESSAGING_DEVICE kinds) org, ∀ f, r.factory = some f → f.type ≠ "multiple") :
    Queried MESSAGING_DEVICE kinds ((getDevicesForSetup db (requested MESSAGING_DEVICE kinds) org).map row) := by
  constructor
  · intro d hd
    obtain ⟨r, hr, rfl⟩ := List.mem_map.mp hd
    rw [getDevicesForSetup, List.mem_eraseDups, List.mem_append, List.mem_append] at hr
    rcases hr with (hr | hr) | hr
    · exact setupRows_for_kind hr
    · exact setupRows_for_kind hr
    · exact setupRows_for_kind hr
  · intro d hd
    obtain ⟨r, hr, rfl⟩ := List.mem_map.mp hd
    refine ⟨r.factory, ?_, h r hr⟩
    unfold ensureDeviceFactory row
    cases r.factory <;> rfl

/-! ## Assignments -/

section Assignments

variable {result : Result} {kind : String}

theorem ne_proto (hkind : kind ∉ objectPrototype) : kind ≠ "__proto__" := by
  intro h
  exact hkind (h ▸ List.contains_iff_mem.mp rfl)

theorem property_set (hkind : kind ≠ "__proto__") (entry : Entry) (k : String) :
    (result.set kind entry).property k = if kind = k then some entry else result.property k := by
  unfold Result.property Result.set
  by_cases hk : kind = k
  · subst hk
    rw [if_neg hkind, Record.get?_set, if_pos rfl, if_pos rfl]
  · simp only [Record.get?_set, if_neg hk]

theorem property_setMultiple (text : Text) (choices : List Choice) (k : String) (hk : k ∈ objectPrototype) :
    (result.setMultiple kind text choices).property k =
      if kind = k then some (.multiple text choices) else result.property k := by
  unfold Result.setMultiple
  by_cases hkind : kind = "__proto__"
  · rw [if_pos hkind]
    unfold Result.property
    by_cases hproto : k = "__proto__"
    · rw [if_pos hproto, if_pos (hkind.trans hproto.symm)]
    · have hne : kind ≠ k := fun h => hproto (h.symm.trans hkind)
      simp only [hproto, hne, if_false, List.contains_iff_mem.mpr hk, Bool.or_true, if_true]
  · rw [if_neg hkind, property_set hkind]

end Assignments

/-! ## Inherited names -/

section Runs

variable {MESSAGING_DEVICE : String} {names : Record String} {result : Result} {devices : List Row} {kinds : List String}

/-- At an inherited name there is what is inherited, or a choice that begins with it. -/
def Inherits (result : Result) : Prop :=
  ∀ kind ∈ objectPrototype, result.property kind = some (.member kind) ∨
    ∃ text choices, result.property kind = some (.multiple text (.member kind :: choices))

theorem Inherits.empty : Inherits Result.empty := by
  have hall : ∀ kind ∈ objectPrototype, Result.empty.property kind = some (.member kind) := by decide
  exact fun kind hkind => .inl (hall kind hkind)

theorem Inherits.set (h : Inherits result) {kind : String} (hkind : kind ∉ objectPrototype) (entry : Entry) :
    Inherits (result.set kind entry) := by
  intro k hk
  have hne : kind ≠ k := fun heq => hkind (heq ▸ hk)
  rw [property_set (ne_proto hkind), if_neg hne]
  exact h k hk

theorem Inherits.setMultiple (h : Inherits result) (kind : String) (text : Text) (choices : List Choice)
    (hchoices : kind ∈ objectPrototype → ∃ rest, choices = .member kind :: rest) :
    Inherits (result.setMultiple kind text choices) := by
  intro k hk
  rw [property_setMultiple text choices k hk]
  split
  · next heq =>
    subst heq
    obtain ⟨rest, rfl⟩ := hchoices hk
    exact .inr ⟨text, rest, rfl⟩
  · exact h k hk

theorem Inherits.addChoice (h : Inherits result) {kind : String} {factory : Factory} {result' : Result}
    (hadd : addChoice names result kind factory = .ok result') : Inherits result' := by
  unfold DeviceSetup.addChoice at hadd
  split at hadd
  · next hnone =>
    cases hadd
    refine h.set (fun hkind => ?_) _
    rcases h kind hkind with hmember | ⟨text, choices, hmultiple⟩
    · cases hnone.symm.trans hmember
    · cases hnone.symm.trans hmultiple
  · next text choices hmultiple =>
    cases hadd
    refine h.setMultiple _ _ _ fun hkind => ?_
    rcases h kind hkind with hmember | ⟨text', choices', hmultiple'⟩
    · cases hmultiple.symm.trans hmember
    · cases hmultiple.symm.trans hmultiple'
      exact ⟨_, rfl⟩
  · next first hfactory =>
    split at hadd
    · cases hadd
    · cases hadd
      refine h.setMultiple _ _ _ fun hkind => ?_
      rcases h kind hkind with hmember | ⟨text, choices, hmultiple⟩
      · cases hfactory.symm.trans hmember
      · cases hfactory.symm.trans hmultiple
  · next name hmember =>
    cases hadd
    refine h.setMultiple _ _ _ fun hkind => ?_
    rcases h kind hkind with hmember' | ⟨text, choices, hmultiple⟩
    · cases hmember.symm.trans hmember'
      exact ⟨_, rfl⟩
    · cases hmember.symm.trans hmultiple

theorem Inherits.addDevice (h : Inherits result) (d : Row) : Inherits (addDevice MESSAGING_DEVICE names result d) := by
  unfold DeviceSetup.addDevice
  split
  · split
    · next hadd =>
      split
      · exact (h.addChoice hadd).set (by decide) _
      · exact h.addChoice hadd
    · exact h
  · exact h
  · exact h

theorem Inherits.fillEmpty (h : Inherits result) (kind : String) : Inherits (fillEmpty names result kind) := by
  unfold DeviceSetup.fillEmpty
  split
  · exact h
  · next hnone =>
    refine h.set (fun hkind => hnone ?_) _
    rcases h kind hkind with hmember | ⟨text, choices, hmultiple⟩
    · rw [hmember]
      rfl
    · rw [hmultiple]
      rfl

theorem inherits_getDeviceSetup (query : List String → List Row) (kinds : List String) :
    Inherits (getDeviceSetup MESSAGING_DEVICE query kinds) := by
  unfold getDeviceSetup
  split
  · exact Inherits.empty
  · refine List.foldlRecOn _ _ ?_ fun _ h kind _ => h.fillEmpty kind
    exact List.foldlRecOn _ _ Inherits.empty fun _ h d _ => h.addDevice d

theorem not_answers_member (factories : List Factory) (name : String) : ¬Answers (.member name) factories := by
  intro h
  match factories, h with
  | [], h => obtain ⟨text, h⟩ := h; cases h
  | [_], h => cases h
  | _ :: _ :: _, h => obtain ⟨text, h⟩ := h; cases h

theorem not_answers_inherited (factories : List Factory) (text : Text) (name : String) (choices : List Choice) :
    ¬Answers (.multiple text (.member name :: choices)) factories := by
  intro h
  match factories, h with
  | [], h => obtain ⟨text, h⟩ := h; cases h
  | [_], h => cases h
  | _ :: _ :: _, h => obtain ⟨text, h⟩ := h; cases h

/-- No inherited name has its answer. -/
theorem Inherits.not_answers (h : Inherits result) {kind : String} (hkind : kind ∈ objectPrototype) {entry : Entry}
    (hentry : result.property kind = some entry) (factories : List Factory) : ¬Answers entry factories := by
  rcases h kind hkind with hmember | ⟨text, choices, hmultiple⟩
  · cases hentry.symm.trans hmember
    exact not_answers_member factories kind
  · cases hentry.symm.trans hmultiple
    exact not_answers_inherited factories text kind choices

/-! ## The entries of the other kinds -/

/-- The entry of a kind after the factories that were for it. -/
def entryOf (names : Record String) (kind : String) : List Factory → Option Entry
  | [] => none
  | [factory] => some (.factory factory)
  | factories => some (.multiple (textOf names kind) (factories.map .factory))

theorem factoriesFor_append (rows : List Row) (d : Row) (kind : String) {factory : Option Factory}
    (hd : ensureDeviceFactory d = .ok factory) :
    factoriesFor (rows ++ [d]) kind = factoriesFor rows kind ++ if d.for_kind = kind then factory.toList else [] := by
  rw [factoriesFor, List.filterMap_append, ← factoriesFor]
  congr 1
  rw [List.filterMap_cons, hd]
  by_cases h : d.for_kind = kind
  · rw [if_pos h, if_pos h]
    cases factory <;> rfl
  · rw [if_neg h, if_neg h]
    rfl

/-- At a kind that is not inherited and has no factory that says it is multiple. -/
theorem addChoice_eq {kind : String} (hkind : kind ∉ objectPrototype) {factories : List Factory}
    (hentry : result.property kind = entryOf names kind factories) (hmultiple : ∀ f ∈ factories, f.type ≠ "multiple")
    (factory : Factory) :
    ∃ entry, addChoice names result kind factory = .ok (result.set kind entry) ∧
      some entry = entryOf names kind (factories ++ [factory]) := by
  unfold addChoice Result.setMultiple
  match factories, hentry, hmultiple with
  | [], hentry, _ =>
    rw [hentry]
    exact ⟨_, rfl, rfl⟩
  | [first], hentry, hmultiple =>
    rw [hentry]
    simp only [entryOf, if_neg (hmultiple first (List.mem_singleton_self first)), if_neg (ne_proto hkind)]
    exact ⟨_, rfl, rfl⟩
  | first :: second :: rest, hentry, _ =>
    rw [hentry]
    simp only [entryOf, if_neg (ne_proto hkind)]
    exact ⟨_, rfl, by simp⟩

/-- The entry `messaging` is the last factory of the messaging device. -/
structure Grouped (MESSAGING_DEVICE : String) (names : Record String) (rows : List Row) (result : Result) : Prop where
  entries : ∀ kind, kind ∉ objectPrototype → kind ≠ "messaging" →
    result.property kind = entryOf names kind (factoriesFor rows kind)
  messaging : result.property "messaging" = (factoriesFor rows MESSAGING_DEVICE).getLast?.map .factory

theorem property_empty {kind : String} (hkind : kind ∉ objectPrototype) : Result.empty.property kind = none := by
  have hcontains : objectPrototype.contains kind = false :=
    Bool.eq_false_iff.mpr fun h => hkind (List.contains_iff_mem.mp h)
  unfold Result.property
  rw [if_neg (ne_proto hkind), hcontains]
  rfl

theorem Grouped.empty : Grouped MESSAGING_DEVICE names [] Result.empty :=
  ⟨fun _ hkind _ => property_empty hkind, property_empty (by decide)⟩

/-- A row that is for a kind. -/
structure Fit (MESSAGING_DEVICE : String) (d : Row) : Prop where
  own : d.for_kind ∉ objectPrototype
  messaging : d.for_kind = "messaging" → MESSAGING_DEVICE = "messaging"
  parses : ∃ factory, ensureDeviceFactory d = .ok factory ∧ ∀ f, factory = some f → f.type ≠ "multiple"

/-- At `messaging` the entry is a factory, or nothing. -/
theorem addChoice_messaging {kind : String} (hkind : kind ∉ objectPrototype) {last : Option Factory}
    (hentry : result.property kind = last.map .factory) (hmultiple : ∀ f, last = some f → f.type ≠ "multiple")
    (factory : Factory) : ∃ entry, addChoice names result kind factory = .ok (result.set kind entry) := by
  unfold addChoice Result.setMultiple
  cases last with
  | none =>
    rw [hentry]
    exact ⟨_, rfl⟩
  | some first =>
    rw [hentry]
    simp only [Option.map_some, if_neg (hmultiple first rfl), if_neg (ne_proto hkind)]
    exact ⟨_, rfl⟩

theorem Grouped.addDevice {rows : List Row} (h : Grouped MESSAGING_DEVICE names rows result)
    (hrows : ∀ kind, ∀ f ∈ factoriesFor rows kind, f.type ≠ "multiple") {d : Row} (hd : Fit MESSAGING_DEVICE d) :
    Grouped MESSAGING_DEVICE names (rows ++ [d]) (addDevice MESSAGING_DEVICE names result d) := by
  obtain ⟨factory, hfactory, -⟩ := hd.parses
  have happend := fun kind => factoriesFor_append rows d kind hfactory
  unfold DeviceSetup.addDevice
  rw [hfactory]
  cases factory with
  | none =>
    have hsame : ∀ kind, factoriesFor (rows ++ [d]) kind = factoriesFor rows kind := fun kind => by
      rw [happend, Option.toList_none, ite_self, List.append_nil]
    exact ⟨fun kind hkind hne => by rw [hsame]; exact h.entries kind hkind hne, by rw [hsame]; exact h.messaging⟩
  | some factory =>
    have hmessaging : "messaging" ≠ "__proto__" := by decide
    -- the entry at a kind other than `messaging` is that of one factory more
    have hset : ∃ entry, addChoice names result d.for_kind factory = .ok (result.set d.for_kind entry) ∧
        (d.for_kind ≠ "messaging" → some entry = entryOf names d.for_kind (factoriesFor rows d.for_kind ++ [factory])) := by
      by_cases hkind : d.for_kind = "messaging"
      · have hentry := h.messaging
        rw [← hkind] at hentry
        obtain ⟨entry, hadd⟩ := addChoice_messaging hd.own hentry
          (fun f hf => hrows _ f (List.mem_of_getLast? hf)) factory
        exact ⟨entry, hadd, fun hne => absurd hkind hne⟩
      · obtain ⟨entry, hadd, heq⟩ := addChoice_eq hd.own (h.entries _ hd.own hkind) (hrows _) factory
        exact ⟨entry, hadd, fun _ => heq⟩
    obtain ⟨entry, hadd, hentry⟩ := hset
    simp only [hadd]
    constructor
    · intro kind hkind hne
      have hset : (if d.for_kind = MESSAGING_DEVICE then (result.set d.for_kind entry).set "messaging" (.factory factory)
          else result.set d.for_kind entry).property kind = (result.set d.for_kind entry).property kind := by
        split
        · rw [property_set hmessaging, if_neg (Ne.symm hne)]
        · rfl
      rw [hset, happend, property_set (ne_proto hd.own)]
      by_cases hfor : d.for_kind = kind
      · subst hfor
        rw [if_pos rfl, if_pos rfl]
        exact hentry hne
      · rw [if_neg hfor, if_neg hfor, List.append_nil]
        exact h.entries kind hkind hne
    · rw [happend]
      by_cases hfor : d.for_kind = MESSAGING_DEVICE
      · rw [if_pos hfor, if_pos hfor, property_set hmessaging, if_pos rfl, Option.toList_some, List.getLast?_concat]
        rfl
      · rw [if_neg hfor, if_neg hfor, List.append_nil, property_set (ne_proto hd.own),
          if_neg fun hkind => hfor (hkind.trans (hd.messaging hkind).symm)]
        exact h.messaging

theorem not_multiple (hdevices : ∀ d ∈ devices, Fit MESSAGING_DEVICE d) (kind : String) :
    ∀ f ∈ factoriesFor devices kind, f.type ≠ "multiple" := by
  intro f hf
  obtain ⟨d, hd, hf⟩ := List.mem_filterMap.mp hf
  obtain ⟨factory, hfactory, htype⟩ := (hdevices d hd).parses
  rw [hfactory] at hf
  split at hf
  · exact htype f hf
  · cases hf

theorem grouped_foldl (hdevices : ∀ d ∈ devices, Fit MESSAGING_DEVICE d) :
    Grouped MESSAGING_DEVICE names devices (devices.foldl (addDevice MESSAGING_DEVICE names) Result.empty) := by
  induction devices using List.reverseRecOn with
  | nil => exact Grouped.empty
  | append_singleton devices d ih =>
    have hbefore : ∀ d ∈ devices, Fit MESSAGING_DEVICE d := fun d hd => hdevices d (List.mem_append_left _ hd)
    rw [List.foldl_concat]
    exact (ih hbefore).addDevice (not_multiple hbefore) (hdevices d (by simp))

theorem property_fillEmpty {kind : String} (hkind : kind ≠ "__proto__") (k : String) :
    (fillEmpty names result kind).property k =
      if kind = k then (result.property k).or (some (.multiple (textOf names k) [])) else result.property k := by
  unfold fillEmpty
  by_cases hk : kind = k
  · subst hk
    cases hproperty : result.property kind with
    | some entry => simp [hproperty]
    | none => simp [property_set hkind]
  · rw [if_neg hk]
    split
    · rfl
    · rw [property_set hkind, if_neg hk]

theorem property_foldl_fillEmpty (hkinds : ∀ kind ∈ kinds, kind ≠ "__proto__") (k : String) :
    (kinds.foldl (fillEmpty names) result).property k =
      if k ∈ kinds then (result.property k).or (some (.multiple (textOf names k) [])) else result.property k := by
  induction kinds generalizing result with
  | nil => rfl
  | cons kind kinds ih =>
    obtain ⟨hkind, hkinds⟩ := List.forall_mem_cons.mp hkinds
    rw [List.foldl_cons, ih hkinds, property_fillEmpty hkind]
    by_cases hk : kind = k
    · subst hk
      rw [if_pos rfl, if_pos (List.mem_cons_self ..)]
      split
      · cases result.property kind <;> rfl
      · rfl
    · simp [hk, Ne.symm hk]

/-! ## The answers -/

theorem answers_entryOf (kind : String) (text : Text) (factories : List Factory) :
    ∃ entry, (entryOf names kind factories).or (some (.multiple text [])) = some entry ∧ Answers entry factories := by
  match factories with
  | [] => exact ⟨_, rfl, text, rfl⟩
  | [f] => exact ⟨_, rfl, rfl⟩
  | f :: g :: rest => exact ⟨_, rfl, textOf names kind, rfl⟩

/-- The last of them is the answer if there are not two. -/
theorem answers_getLast (text : Text) (factories : List Factory) :
    (∃ entry, (factories.getLast?.map .factory).or (some (.multiple text [])) = some entry ∧ Answers entry factories) ↔
      factories.length ≤ 1 := by
  match factories with
  | [] => exact iff_of_true ⟨_, rfl, text, rfl⟩ (Nat.zero_le _)
  | [f] => exact iff_of_true ⟨_, rfl, rfl⟩ (Nat.le_refl _)
  | f :: g :: rest =>
    refine iff_of_false (fun h => ?_) (by simp)
    obtain ⟨entry, hentry, text', rfl⟩ := h
    rw [List.getLast?_eq_some_getLast (List.cons_ne_nil _ _)] at hentry
    cases hentry

theorem getLast_eq_entryOf (kind : String) (text : Text) (factories : List Factory) :
    factories.getLast?.map .factory = (entryOf names kind factories).or (some (.multiple text [])) ↔
      factories.length = 1 := by
  match factories with
  | [] => exact iff_of_false (fun h => by cases h) (by simp)
  | [f] => exact iff_of_true rfl rfl
  | f :: g :: rest =>
    refine iff_of_false (fun h => ?_) (by simp)
    rw [List.getLast?_eq_some_getLast (List.cons_ne_nil _ _)] at h
    cases h

end Runs

section Setup

variable {MESSAGING_DEVICE : String} {query : List String → List Row} {kinds : List String}

theorem eq_of_messaging_mem (h : "messaging" ∈ requested MESSAGING_DEVICE kinds) : MESSAGING_DEVICE = "messaging" := by
  obtain ⟨kind, -, heq⟩ := List.mem_map.mp h
  split at heq
  · exact heq
  · next hne => exact absurd heq hne

theorem mem_requested (h : "messaging" ∈ kinds) : MESSAGING_DEVICE ∈ requested MESSAGING_DEVICE kinds :=
  List.mem_map.mpr ⟨"messaging", h, if_pos rfl⟩

theorem mem_of_requested (h : "messaging" ∈ requested "messaging" kinds) : "messaging" ∈ kinds := by
  obtain ⟨kind, hkind, heq⟩ := List.mem_map.mp h
  split at heq
  · next hmessaging => exact hmessaging ▸ hkind
  · exact heq ▸ hkind

/-- The query's rows fit, if no requested kind is inherited. -/
theorem Queried.fit {devices : List Row} (h : Queried MESSAGING_DEVICE kinds devices)
    (hown : ∀ kind ∈ requested MESSAGING_DEVICE kinds, kind ∉ objectPrototype) : ∀ d ∈ devices, Fit MESSAGING_DEVICE d := by
  intro d hd
  have hkind := h.for_kind d hd
  exact ⟨hown _ hkind, fun heq => eq_of_messaging_mem (heq ▸ hkind), h.parses d hd⟩

theorem property_getDeviceSetup (hown : ∀ kind ∈ requested MESSAGING_DEVICE kinds, kind ∉ objectPrototype)
    (h : Queried MESSAGING_DEVICE kinds (query (requested MESSAGING_DEVICE kinds))) (hkinds : kinds ≠ []) :
    ∃ names,
      (∀ kind ∈ requested MESSAGING_DEVICE kinds, kind ≠ "messaging" →
        (getDeviceSetup MESSAGING_DEVICE query kinds).property kind =
          (entryOf names kind (factoriesFor (query (requested MESSAGING_DEVICE kinds)) kind)).or
            (some (.multiple (textOf names kind) []))) ∧
      (getDeviceSetup MESSAGING_DEVICE query kinds).property "messaging" =
        if "messaging" ∈ requested MESSAGING_DEVICE kinds then
          ((factoriesFor (query (requested MESSAGING_DEVICE kinds)) MESSAGING_DEVICE).getLast?.map .factory).or
            (some (.multiple (textOf names "messaging") []))
        else (factoriesFor (query (requested MESSAGING_DEVICE kinds)) MESSAGING_DEVICE).getLast?.map .factory := by
  have hgrouped : Grouped MESSAGING_DEVICE (namesOf (query (requested MESSAGING_DEVICE kinds)))
      (query (requested MESSAGING_DEVICE kinds)) _ := grouped_foldl (h.fit hown)
  have hne : ∀ kind ∈ requested MESSAGING_DEVICE kinds, kind ≠ "__proto__" := fun kind hkind => ne_proto (hown kind hkind)
  refine ⟨namesOf (query (requested MESSAGING_DEVICE kinds)), fun kind hkind hmessaging => ?_, ?_⟩
  · rw [getDeviceSetup, if_neg fun he => hkinds (List.isEmpty_iff.mp he)]
    rw [property_foldl_fillEmpty hne, if_pos hkind, hgrouped.entries kind (hown kind hkind) hmessaging]
  · rw [getDeviceSetup, if_neg fun he => hkinds (List.isEmpty_iff.mp he)]
    rw [property_foldl_fillEmpty hne, hgrouped.messaging]

/-- Of a configuration that leaves `messaging` as it is. -/
theorem setUp_iff_of_same (hown : ∀ kind ∈ requested "messaging" kinds, kind ∉ objectPrototype)
    (h : Queried "messaging" kinds (query (requested "messaging" kinds))) (hkinds : kinds ≠ []) :
    SetUp "messaging" kinds (query (requested "messaging" kinds)) (getDeviceSetup "messaging" query kinds) ↔
      Ordinary "messaging" kinds (query (requested "messaging" kinds)) := by
  obtain ⟨names, hentries, hmessaging⟩ := property_getDeviceSetup hown h hkinds
  constructor
  · intro hsetup
    refine ⟨hown, fun hrequested => ?_, fun _ => .inr rfl⟩
    obtain ⟨entry, hentry, hanswers⟩ := hsetup.answers "messaging" (mem_requested hrequested)
    rw [hmessaging, if_pos (mem_requested hrequested)] at hentry
    exact (answers_getLast _ _).mp ⟨entry, hentry, hanswers⟩
  · intro hordinary
    refine ⟨fun kind hkind => ?_, fun _ => rfl⟩
    by_cases hne : kind = "messaging"
    · subst hne
      rw [hmessaging, if_pos hkind, answers_getLast]
      exact hordinary.atMostOne (mem_of_requested hkind)
    · rw [hentries kind hkind hne]
      exact answers_entryOf kind _ _

theorem setUp_iff_of_other (hown : ∀ kind ∈ requested MESSAGING_DEVICE kinds, kind ∉ objectPrototype)
    (h : Queried MESSAGING_DEVICE kinds (query (requested MESSAGING_DEVICE kinds))) (hkinds : kinds ≠ [])
    (hdevice : MESSAGING_DEVICE ≠ "messaging") :
    SetUp MESSAGING_DEVICE kinds (query (requested MESSAGING_DEVICE kinds)) (getDeviceSetup MESSAGING_DEVICE query kinds) ↔
      Ordinary MESSAGING_DEVICE kinds (query (requested MESSAGING_DEVICE kinds)) := by
  obtain ⟨names, hentries, hmessaging⟩ := property_getDeviceSetup hown h hkinds
  have hother : ∀ kind ∈ requested MESSAGING_DEVICE kinds, kind ≠ "messaging" :=
    fun kind hkind hne => hdevice (eq_of_messaging_mem (hne ▸ hkind))
  rw [if_neg fun hmem => hother _ hmem rfl] at hmessaging
  -- the last factory is the entry of the messaging device if there is one
  have hone : "messaging" ∈ kinds → ((getDeviceSetup MESSAGING_DEVICE query kinds).property "messaging" =
        (getDeviceSetup MESSAGING_DEVICE query kinds).property MESSAGING_DEVICE ↔
      (factoriesFor (query (requested MESSAGING_DEVICE kinds)) MESSAGING_DEVICE).length = 1) := by
    intro hrequested
    rw [hmessaging, hentries _ (mem_requested hrequested) hdevice, getLast_eq_entryOf]
  constructor
  · intro hsetup
    have hlength := fun hrequested => (hone hrequested).mp (hsetup.messaging hrequested)
    refine ⟨hown, fun hrequested => (hlength hrequested).le, fun hrequested => .inl fun hnil => ?_⟩
    rw [hnil] at hlength
    exact Nat.zero_ne_one (hlength hrequested)
  · intro hordinary
    refine ⟨fun kind hkind => ?_, fun hrequested => (hone hrequested).mpr ?_⟩
    · rw [hentries kind hkind (hother kind hkind)]
      exact answers_entryOf kind _ _
    · have hne := (hordinary.one hrequested).resolve_right hdevice
      exact Nat.le_antisymm (hordinary.atMostOne hrequested) (List.length_pos_iff.mpr hne)

end Setup

/-- A query's rows have every requested kind set up, and `messaging` as the messaging device,
    exactly if no requested kind is inherited and a requested messaging device has one factory. -/
theorem getDeviceSetup_iff (MESSAGING_DEVICE : String) (getDevicesForSetup : List String → List Row) (kinds : List String)
    (h : Queried MESSAGING_DEVICE kinds (getDevicesForSetup (requested MESSAGING_DEVICE kinds))) :
    SetUp MESSAGING_DEVICE kinds (getDevicesForSetup (requested MESSAGING_DEVICE kinds))
        (getDeviceSetup MESSAGING_DEVICE getDevicesForSetup kinds) ↔
      Ordinary MESSAGING_DEVICE kinds (getDevicesForSetup (requested MESSAGING_DEVICE kinds)) := by
  by_cases hkinds : kinds = []
  · subst hkinds
    exact iff_of_true ⟨by simp [requested], by simp⟩ ⟨by simp [requested], by simp, by simp⟩
  by_cases hown : ∀ kind ∈ requested MESSAGING_DEVICE kinds, kind ∉ objectPrototype
  · by_cases hdevice : MESSAGING_DEVICE = "messaging"
    · subst hdevice
      exact setUp_iff_of_same hown h hkinds
    · exact setUp_iff_of_other hown h hkinds hdevice
  · refine iff_of_false (fun hsetup => hown fun kind hkind hmember => ?_) fun hordinary => hown hordinary.own
    obtain ⟨entry, hentry, hanswers⟩ := hsetup.answers kind hkind
    exact (inherits_getDeviceSetup getDevicesForSetup kinds).not_answers hmember hentry _ hanswers

def matrix : String := "org.thingpedia.builtin.matrix"

/-- A factory for a kind. -/
def form (kind text : String) : Factory := ⟨"form", .online, kind, text, none, some []⟩

def device (kind for_kind text : String) : Row := ⟨kind, text, for_kind, .object (form kind text)⟩

/-- What the query returns for the messaging device where two devices have its kind. -/
def twoDevices (names : List String) : List Row :=
  [device matrix matrix "Matrix", device "com.example.chat" matrix "Chat"].filter fun d => names.contains d.for_kind

/-- One of the two, or nothing, as the entry `messaging`; and a kind that every object has. -/
theorem messaging_not_alias :
    ¬SetUp matrix ["messaging"] (twoDevices [matrix]) (getDeviceSetup matrix twoDevices ["messaging"]) ∧
    ¬SetUp matrix ["messaging"] [] (getDeviceSetup matrix (fun _ => []) ["messaging"]) ∧
    ¬SetUp matrix ["toString"] [] (getDeviceSetup matrix (fun _ => []) ["toString"]) := by
  refine ⟨fun h => absurd (h.messaging (by decide)) (by decide),
    fun h => absurd (h.messaging (by decide)) (by decide), fun h => ?_⟩
  obtain ⟨entry, hentry, text, rfl⟩ := h.answers "toString" (by decide)
  have hinherited : (getDeviceSetup matrix (fun _ => []) ["toString"]).property "toString" = some (.member "toString") := by
    rfl
  cases hinherited.symm.trans hentry

/-- Two televisions and a messaging device. -/
def living (names : List String) : List Row :=
  [device "com.example.lg" "tv" "LG", device matrix matrix "Matrix", device "com.example.sony" "tv" "Sony"].filter fun d =>
    names.contains d.for_kind

theorem getDeviceSetup_iff_living :
    SetUp matrix ["tv", "messaging", "lamp"] (living ["tv", matrix, "lamp"])
      (getDeviceSetup matrix living ["tv", "messaging", "lamp"]) := by
  refine (getDeviceSetup_iff matrix living ["tv", "messaging", "lamp"] ⟨by decide, fun d hd => ?_⟩).mpr
    ⟨by decide, by decide, by decide⟩
  rcases List.mem_cons.mp (List.mem_filter.mp hd).1 with rfl | hd
  · exact ⟨_, rfl, fun f hf => by cases hf; decide⟩
  · rcases List.mem_pair.mp hd with rfl | rfl
    · exact ⟨_, rfl, fun f hf => by cases hf; decide⟩
    · exact ⟨_, rfl, fun f hf => by cases hf; decide⟩

end GenieCloud.Thingpedia.DeviceSetup
