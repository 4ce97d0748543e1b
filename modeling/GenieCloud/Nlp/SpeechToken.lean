/-
  GenieCloud.Nlp.SpeechToken — the access token of the speech service (`TextToSpeech` of
  `nlp/voice/backend-microsoft.ts`).

  The constructor requests a token, and keeps the promise of this first request. Each token
  that comes sets a timer, at which the next one is requested. A request that fails sets none.

  - `run_spread`: there is one request or timer as long as no request failed, and none after.
  - `live_iff`: the token is refreshed, and what `getAccessToken` answers is the last token or
    the promise of the first one, exactly as long as no request failed.
  - `step_stopped`: after that, nothing happens any more.
-/

import GenieCloud.Lib.Runs
import Mathlib.Data.List.Induction

namespace GenieCloud.Nlp.SpeechToken

open GenieCloud.Lib.Runs

/-! ## The object -/

inductive TokenPromise where
  | pending
  | fulfilled (accessToken : String)
  | rejected
  deriving DecidableEq, Repr

structure TextToSpeech where
  accessToken : Option String
  /-- `_accessTokenPromise`, of request 0. -/
  accessTokenPromise : TokenPromise
  tokenRefresh_ms : Nat
  /-- The token requests that have no response yet. -/
  requests : List Nat
  /-- The timers that are set, by their delays. -/
  timers : List Nat
  /-- The number of the next request. -/
  next : Nat
  deriving DecidableEq, Repr

def TTS_DEFAULT_TOKEN_REFRESH_MS : Nat := 8 * 60 * 1000

def retrieveAccessToken (t : TextToSpeech) : TextToSpeech := { t with requests := t.requests ++ [t.next], next := t.next + 1 }

def create (tokenRefresh_ms : Nat) : TextToSpeech := retrieveAccessToken ⟨none, .pending, tokenRefresh_ms, [], [], 0⟩

inductive Event where
  | response (request : Nat) (accessToken : String)
  | failure (request : Nat)
  | timer
  | getAccessToken
  deriving DecidableEq, Repr

def settle (t : TextToSpeech) (request : Nat) (outcome : TokenPromise) : TextToSpeech :=
  { t with
    requests := t.requests.erase request
    accessTokenPromise := if request = 0 then outcome else t.accessTokenPromise }

def step (t : TextToSpeech) : Event → Option TextToSpeech
  | .response request accessToken =>
    if request ∈ t.requests then
      some { settle t request (.fulfilled accessToken) with
        accessToken := some accessToken, timers := t.timers ++ [t.tokenRefresh_ms] }
    else none
  | .failure request => if request ∈ t.requests then some (settle t request .rejected) else none
  | .timer =>
    match t.timers with
    | [] => none
    | _ :: timers => some (retrieveAccessToken { t with timers := timers })
  | .getAccessToken => some t

def system (tokenRefresh_ms : Nat) : System TextToSpeech Event := ⟨(· = create tokenRefresh_ms), step⟩

/-- The promise of the first request stands for what `getAccessToken` answers as well. -/
def getAccessToken (t : TextToSpeech) : TokenPromise :=
  match t.accessToken with
  | some accessToken => .fulfilled accessToken
  | none => t.accessTokenPromise

/-! ## What is wanted -/

def Event.isFailure : Event → Bool
  | .failure _ => true
  | _ => false

def Event.token? : Event → Option String
  | .response _ accessToken => some accessToken
  | _ => none

/-- The token of the last request that succeeded. -/
def lastToken (events : List Event) : Option String := events.reverse.findSome? Event.token?

def Refreshing (t : TextToSpeech) : Prop := t.requests ≠ [] ∨ t.timers ≠ []

structure Live (events : List Event) (t : TextToSpeech) : Prop where
  refreshing : Refreshing t
  answer : getAccessToken t = ((lastToken events).map .fulfilled).getD .pending

/-! ## Steps -/

/-- The requests and timers there are. -/
def spread (t : TextToSpeech) : Nat := t.requests.length + t.timers.length

theorem step_spread {t u : TextToSpeech} {event : Event} (h : step t event = some u) :
    spread u = if event.isFailure then spread t - 1 else spread t := by
  cases event with
  | response request accessToken =>
    rw [step] at h
    split at h
    · rename_i hrequest
      cases h
      have hlength := List.length_erase_of_mem hrequest
      have hpos := List.length_pos_of_mem hrequest
      simp only [spread, settle, List.length_append, List.length_singleton, Event.isFailure]
      simp only [Bool.false_eq_true, if_false]
      omega
    · cases h
  | failure request =>
    rw [step] at h
    split at h
    · rename_i hrequest
      cases h
      have hlength := List.length_erase_of_mem hrequest
      have hpos := List.length_pos_of_mem hrequest
      simp only [spread, settle, Event.isFailure, if_true]
      omega
    · cases h
  | timer =>
    rw [step] at h
    split at h
    · cases h
    · rename_i delay timers htimers
      cases h
      simp [spread, retrieveAccessToken, htimers, Event.isFailure]
      omega
  | getAccessToken =>
    cases h
    rfl

theorem step_accessToken {t u : TextToSpeech} {event : Event} (h : step t event = some u) :
    u.accessToken = event.token?.or t.accessToken := by
  cases event with
  | response request accessToken =>
    rw [step] at h
    split at h
    · cases h
      rfl
    · cases h
  | failure request =>
    rw [step] at h
    split at h
    · cases h
      rfl
    · cases h
  | timer =>
    rw [step] at h
    split at h
    · cases h
    · cases h
      rfl
  | getAccessToken =>
    cases h
    rfl

/-- Until a token comes or a request fails, the first promise is pending. -/
theorem step_promise {t u : TextToSpeech} {event : Event} (h : step t event = some u) (hfailure : event.isFailure = false)
    (htoken : u.accessToken = none) : t.accessToken = none ∧ u.accessTokenPromise = t.accessTokenPromise := by
  cases event with
  | response request accessToken =>
    rw [step] at h
    split at h
    · cases h
      cases htoken
    · cases h
  | failure request => cases hfailure
  | timer =>
    rw [step] at h
    split at h
    · cases h
    · cases h
      exact ⟨htoken, rfl⟩
  | getAccessToken =>
    cases h
    exact ⟨htoken, rfl⟩

/-- Nothing comes after the last request and the last timer. -/
theorem step_stopped {t : TextToSpeech} (h : ¬Refreshing t) {event : Event} (hevent : event ≠ .getAccessToken) :
    step t event = none := by
  rw [Refreshing, not_or, not_not, not_not] at h
  obtain ⟨hrequests, htimers⟩ := h
  cases event with
  | response request accessToken => simp [step, hrequests]
  | failure request => simp [step, hrequests]
  | timer => simp [step, htimers]
  | getAccessToken => exact absurd rfl hevent

/-! ## Runs -/

theorem refreshing_iff (t : TextToSpeech) : Refreshing t ↔ spread t ≠ 0 := by
  have hlength : spread t = 0 ↔ t.requests = [] ∧ t.timers = [] := by
    rw [spread, Nat.add_eq_zero_iff, List.length_eq_zero_iff, List.length_eq_zero_iff]
  rw [Refreshing, ne_eq, ne_eq, ne_eq, hlength, not_and_or]

variable {tokenRefresh_ms : Nat} {events : List Event} {t : TextToSpeech}

theorem run_spread (h : run (system tokenRefresh_ms) (create tokenRefresh_ms) events = some t) :
    spread t = if events.any Event.isFailure then 0 else 1 := by
  induction events using List.reverseRecOn generalizing t with
  | nil =>
    cases h
    rfl
  | append_singleton events event ih =>
    obtain ⟨u, hu, hstep⟩ := run_concat.mp h
    have hspread : spread t = if event.isFailure then spread u - 1 else spread u := step_spread hstep
    rw [ih hu] at hspread
    rw [hspread, List.any_append]
    cases hevent : event.isFailure with
    | false => simp [hevent]
    | true => cases events.any Event.isFailure <;> simp [hevent]

theorem run_accessToken (h : run (system tokenRefresh_ms) (create tokenRefresh_ms) events = some t) :
    t.accessToken = lastToken events := by
  induction events using List.reverseRecOn generalizing t with
  | nil =>
    cases h
    rfl
  | append_singleton events event ih =>
    obtain ⟨u, hu, hstep⟩ := run_concat.mp h
    have htoken : t.accessToken = event.token?.or u.accessToken := step_accessToken hstep
    rw [htoken, ih hu, lastToken, lastToken, List.reverse_append, List.reverse_singleton, List.singleton_append,
      List.findSome?_cons]
    cases event.token? with
    | none => rfl
    | some token => rfl

theorem run_promise (h : run (system tokenRefresh_ms) (create tokenRefresh_ms) events = some t)
    (hfailure : events.any Event.isFailure = false) (htoken : t.accessToken = none) : t.accessTokenPromise = .pending := by
  induction events using List.reverseRecOn generalizing t with
  | nil =>
    cases h
    rfl
  | append_singleton events event ih =>
    obtain ⟨u, hu, hstep⟩ := run_concat.mp h
    rw [List.any_append, Bool.or_eq_false_iff] at hfailure
    obtain ⟨hnone, hsame⟩ := step_promise hstep (by simpa using hfailure.2) htoken
    rw [hsame]
    exact ih hu hfailure.1 hnone

theorem live_iff (tokenRefresh_ms : Nat) (events : List Event) (t : TextToSpeech)
    (h : run (system tokenRefresh_ms) (create tokenRefresh_ms) events = some t) :
    Live events t ↔ ∀ event ∈ events, event.isFailure = false := by
  have hspread := run_spread h
  have hevents : events.any Event.isFailure = false ↔ ∀ event ∈ events, event.isFailure = false := by simp
  rw [← hevents]
  constructor
  · intro hlive
    have hne := (refreshing_iff t).mp hlive.refreshing
    by_contra hfailed
    rw [Bool.not_eq_false] at hfailed
    rw [hfailed, if_pos rfl] at hspread
    exact hne hspread
  · intro hfailure
    rw [hfailure] at hspread
    have htoken := run_accessToken h
    refine ⟨(refreshing_iff t).mpr (by simp [hspread]), ?_⟩
    rw [getAccessToken, ← htoken]
    cases hnone : t.accessToken with
    | none => exact run_promise h hfailure hnone
    | some token => rfl

theorem live_iff_first_token : ∃ t, run (system 480000) (create 480000) [.response 0 "a", .timer] = some t ∧
    (Live [.response 0 "a", .timer] t ↔ ∀ event ∈ [Event.response 0 "a", .timer], event.isFailure = false) :=
  ⟨_, rfl, live_iff 480000 [.response 0 "a", .timer] _ rfl⟩

/-- A token comes, the request for the next one fails, and the first one is answered ever after. -/
theorem refresh_stops : ∃ t, run (system 480000) (create 480000) [.response 0 "a", .timer, .failure 1] = some t ∧
    ¬Refreshing t ∧ getAccessToken t = .fulfilled "a" ∧ ∀ event, event ≠ .getAccessToken → step t event = none := by
  have hstopped : ¬Refreshing ⟨some "a", .fulfilled "a", 480000, [], [], 2⟩ := by simp [Refreshing]
  exact ⟨_, rfl, hstopped, rfl, fun event hevent => step_stopped hstopped hevent⟩

end GenieCloud.Nlp.SpeechToken
