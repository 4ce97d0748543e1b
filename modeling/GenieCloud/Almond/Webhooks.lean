/-
  GenieCloud.Almond.Webhooks — the webhooks of an engine (`WebhookApi` of `almond/platform.ts`).

  The callbacks are in a plain object, by their ids. A request for an id is looked up in a job
  of its own, after the call that brought it has returned; what registers and unregisters
  meanwhile has its effect. The ids of requests are part of the URL (`dispatchWebhook` of
  `almond/enginemanagerclient.ts`), so they are any strings.

  `mapStep` is what is wanted, with a map from ids to callbacks in the place of the object.
  - `step_eq` / `step_ne`: a step does what it does to the map, but for an id that every object
    inherits, where it does something else.
  - `outcomes_eq_iff`: so do the steps of a history exactly if none asks for such an id.

  `Callback` stands for the callbacks, `Request` for the method, the query, the headers and the
  payload of a request.
-/

import GenieCloud.Util.Utterance
import Mathlib.Logic.Function.Basic

namespace GenieCloud.Almond.Webhooks

open Util.Utterance (objectPrototype)

variable {Callback Request : Type}

/-! ## The object -/

structure WebhookApi (Callback Request : Type) where
  /-- The object's own properties. -/
  hooks : String → Option Callback
  /-- The jobs of `handleCallback`, first come first. -/
  jobs : List (String × Request)

def WebhookApi.new : WebhookApi Callback Request := ⟨fun _ => none, []⟩

inductive Event (Callback Request : Type) where
  | registerWebhook (id : String) (callback : Callback)
  | unregisterWebhook (id : String)
  | handleCallback (id : String) (request : Request)
  /-- The first of the jobs runs. -/
  | job
  deriving DecidableEq, Repr

inductive Outcome (Callback Request : Type) where
  | done
  | thrown (message : String)
  /-- The callback is called, and the request gets its answer. -/
  | called (callback : Callback) (id : String) (request : Request)
  /-- A member that every object inherits is called in its place. -/
  | member (name : String)
  /-- Nothing is called, and the promise resolves to nothing. -/
  | ignored
  deriving DecidableEq, Repr

/-- `id in this._hooks` -/
def isRegistered (hooks : String → Option Callback) (id : String) : Bool := (hooks id).isSome || objectPrototype.contains id

def registerWebhook (api : WebhookApi Callback Request) (id : String) (callback : Callback) :
    WebhookApi Callback Request × Outcome Callback Request :=
  if isRegistered api.hooks id then (api, .thrown ("Duplicate webhook " ++ id ++ " registered"))
  else ({ api with hooks := Function.update api.hooks id (some callback) }, .done)

def unregisterWebhook (api : WebhookApi Callback Request) (id : String) : WebhookApi Callback Request :=
  { api with hooks := Function.update api.hooks id none }

/-- What the job of a request does. -/
def callHook (hooks : String → Option Callback) (id : String) (request : Request) : Outcome Callback Request :=
  if isRegistered hooks id then
    match hooks id with
    | some callback => .called callback id request
    | none => .member id
  else .ignored

def step (api : WebhookApi Callback Request) :
    Event Callback Request → WebhookApi Callback Request × Outcome Callback Request
  | .registerWebhook id callback => registerWebhook api id callback
  | .unregisterWebhook id => (unregisterWebhook api id, .done)
  | .handleCallback id request => ({ api with jobs := api.jobs ++ [(id, request)] }, .done)
  | .job =>
    match api.jobs with
    | [] => (api, .done)
    | (id, request) :: jobs => ({ api with jobs := jobs }, callHook api.hooks id request)

/-! ## The map -/

/-- The same with a map: an id has what was last registered for it and not unregistered. -/
def mapStep (api : WebhookApi Callback Request) :
    Event Callback Request → WebhookApi Callback Request × Outcome Callback Request
  | .registerWebhook id callback =>
    if (api.hooks id).isSome then (api, .thrown ("Duplicate webhook " ++ id ++ " registered"))
    else ({ api with hooks := Function.update api.hooks id (some callback) }, .done)
  | .unregisterWebhook id => ({ api with hooks := Function.update api.hooks id none }, .done)
  | .handleCallback id request => ({ api with jobs := api.jobs ++ [(id, request)] }, .done)
  | .job =>
    match api.jobs with
    | [] => (api, .done)
    | (id, request) :: jobs =>
      ({ api with jobs := jobs }, ((api.hooks id).map fun callback => .called callback id request).getD .ignored)

/-- What happens at each event of a history. -/
def outcomes
    (step : WebhookApi Callback Request → Event Callback Request → WebhookApi Callback Request × Outcome Callback Request)
    (api : WebhookApi Callback Request) : List (Event Callback Request) → List (Outcome Callback Request)
  | [] => []
  | event :: events => (step api event).2 :: outcomes step (step api event).1 events

/-- The id that an event looks up. -/
def asked (api : WebhookApi Callback Request) : Event Callback Request → Option String
  | .registerWebhook id _ => some id
  | .job => api.jobs.head?.map (·.1)
  | _ => none

/-- No event of the history looks up an id that every object inherits. -/
def NeverAsks (api : WebhookApi Callback Request) : List (Event Callback Request) → Prop
  | [] => True
  | event :: events => (∀ id ∈ asked api event, id ∉ objectPrototype) ∧ NeverAsks (step api event).1 events

/-! ## Steps -/

theorem isRegistered_eq {hooks : String → Option Callback} {id : String} (h : id ∉ objectPrototype) :
    isRegistered hooks id = (hooks id).isSome := by
  simp [isRegistered, h]

theorem step_eq {api : WebhookApi Callback Request} {event : Event Callback Request}
    (h : ∀ id ∈ asked api event, id ∉ objectPrototype) : step api event = mapStep api event := by
  cases event with
  | registerWebhook id callback =>
    have hid : id ∉ objectPrototype := h id rfl
    simp only [step, mapStep, registerWebhook, isRegistered_eq hid]
  | unregisterWebhook id => rfl
  | handleCallback id request => rfl
  | job =>
    obtain ⟨hooks, jobs⟩ := api
    cases jobs with
    | nil => rfl
    | cons job jobs =>
      obtain ⟨id, request⟩ := job
      have hid : id ∉ objectPrototype := h id rfl
      simp only [step, mapStep, callHook, isRegistered_eq hid]
      cases hooks id with
      | none => rfl
      | some callback => rfl

/-- An inherited name is never the object's own. -/
def NoneInherited (api : WebhookApi Callback Request) : Prop := ∀ name ∈ objectPrototype, api.hooks name = none

theorem step_noneInherited {api : WebhookApi Callback Request} (h : NoneInherited api) (event : Event Callback Request) :
    NoneInherited (step api event).1 := by
  cases event with
  | registerWebhook id callback =>
    simp only [step, registerWebhook]
    split
    · exact h
    · rename_i hnew
      intro name hname
      have hne : name ≠ id := by
        rintro rfl
        exact hnew (by simp [isRegistered, hname])
      show Function.update api.hooks id (some callback) name = none
      rw [Function.update_of_ne hne]
      exact h name hname
  | unregisterWebhook id =>
    intro name hname
    show Function.update api.hooks id none name = none
    by_cases hne : name = id
    · rw [hne, Function.update_self]
    · rw [Function.update_of_ne hne]
      exact h name hname
  | handleCallback id request => exact h
  | job =>
    obtain ⟨hooks, jobs⟩ := api
    cases jobs with
    | nil => exact h
    | cons job jobs => exact h

/-- It throws for an id that nothing is registered for, or calls what is no callback. -/
theorem step_ne {api : WebhookApi Callback Request} (hapi : NoneInherited api) {event : Event Callback Request} {id : String}
    (hid : id ∈ asked api event) (h : id ∈ objectPrototype) : (step api event).2 ≠ (mapStep api event).2 := by
  have hnone : api.hooks id = none := hapi id h
  have hregistered : isRegistered api.hooks id = true := by simp [isRegistered, h]
  cases event with
  | registerWebhook id' callback =>
    obtain rfl := Option.some.inj hid
    simp [step, mapStep, registerWebhook, hregistered, hnone]
  | unregisterWebhook id' => cases hid
  | handleCallback id' request => cases hid
  | job =>
    obtain ⟨hooks, jobs⟩ := api
    cases jobs with
    | nil => cases hid
    | cons job jobs =>
      obtain ⟨id', request⟩ := job
      obtain rfl := Option.some.inj hid
      have hnone : hooks id' = none := hnone
      simp [step, mapStep, callHook, hregistered, hnone]

/-! ## Histories -/

theorem outcomes_eq_of_noneInherited {api : WebhookApi Callback Request} (hapi : NoneInherited api)
    (events : List (Event Callback Request)) :
    outcomes step api events = outcomes mapStep api events ↔ NeverAsks api events := by
  induction events generalizing api with
  | nil => exact iff_of_true rfl trivial
  | cons event events ih =>
    have ih := ih (step_noneInherited hapi event)
    by_cases hasked : ∀ id ∈ asked api event, id ∉ objectPrototype
    · rw [outcomes, outcomes, ← step_eq hasked, List.cons_inj_right, ih]
      exact (and_iff_right hasked).symm
    · refine iff_of_false ?_ fun h => hasked h.1
      simp only [not_forall, not_not] at hasked
      obtain ⟨id, hid, hinherited⟩ := hasked
      intro heq
      exact step_ne hapi hid hinherited (List.cons.inj heq).1

theorem outcomes_eq_iff (events : List (Event Callback Request)) :
    outcomes step .new events = outcomes mapStep .new events ↔ NeverAsks .new events :=
  outcomes_eq_of_noneInherited (fun _ _ => rfl) events

/-- The first webhook with this id is refused, and a request for another one calls what is no callback. -/
theorem constructor_registered : ∃ events : List (Event Nat Unit),
    outcomes step .new events = [.thrown "Duplicate webhook constructor registered", .done, .member "toString"] ∧
    outcomes mapStep .new events = [.done, .done, .ignored] :=
  ⟨[.registerWebhook "constructor" 1, .handleCallback "toString" (), .job], rfl, rfl⟩

end GenieCloud.Almond.Webhooks
