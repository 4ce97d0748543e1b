/-
  GenieCloud.Nlp.SpeechStream — speech recognition over a websocket (`streamSTT` of
  `nlp/voice/index.ts` and `recognizeStream` of `nlp/voice/backend-microsoft.ts`).

  The first message names the version of the protocol; those after it are audio for the
  recognizer of the speech service, until an empty one. The service answers with pieces of
  text, and says when the speech is over; a timer ends the audio when no message comes. The
  promise of the recognition is settled by the first of the service's callbacks that does,
  and its reply is sent in a later job.

  Events come in any order that the calls made so far allow. A socket that is being closed
  still delivers messages, and what is sent on it is dropped.

  - `one_reply`: a client gets one reply at most, then the close. Where it is about speech, it
    is what the events up to the first settling callback say (`verdict`): the concatenation of
    the pieces of text, never empty, or a failure.
  - `audio_written`: the service gets the messages after the first, except empty ones, in
    order: all of them as long as the audio has not ended, and none after.
  - `crashes_iff`: the server dies on a first message that is the JSON `null`, and on nothing
    else.
-/

import GenieCloud.Lib.Runs
import Mathlib.Data.List.Induction
import Mathlib.Data.List.TakeWhile

namespace GenieCloud.Nlp.SpeechStream

open GenieCloud.Lib.Runs

/-! ## A session -/

/-- What `JSON.parse` and `ver` make of a first message. -/
inductive Packet
  | malformed (message : String)
  | null
  | version1
  | unsupported
deriving DecidableEq

inductive Outcome
  | text (text : String)
  | failure (status : Nat)
deriving DecidableEq

inductive Reply
  | error (message : String)
  | ok (text : String)
  | failure (status : Nat)
deriving DecidableEq

variable {Data : Type} (length : Data → Nat) (packet : Data → Packet)

/-- A call of `recognizeStream`: its variables, what it wrote to the audio stream, the calls
    of the recognizer under way, and its promise. -/
structure Recognition (Data : Type) where
  fullText : String := ""
  lastFC : Nat := 0
  timerLastFrame : Bool := false
  ended : Bool := false
  written : List Data := []
  starting : Bool := true
  stopping : Nat := 0
  outcome : Option Outcome := none
deriving DecidableEq

/-- `opened` is `readyState === 1`; `replied`: the callbacks of the promise ran. -/
structure Session (Data : Type) where
  opened : Bool := true
  sent : List Reply := []
  code : Option Nat := none
  sessionTimeout : Bool := true
  initialPacket : Bool := true
  crashed : Bool := false
  recognition : Option (Recognition Data) := none
  replied : Bool := false
deriving DecidableEq

/-- `ws.send` and `ws.close`. -/
def sendAndClose (s : Session Data) (reply : Reply) (code : Nat) : Session Data :=
  if s.opened then { s with sent := s.sent ++ [reply], code := some code, opened := false } else s

def errorClose (s : Session Data) (message : String) : Session Data := sendAndClose s (.error message) 1002

def onInitialPacket (s : Session Data) (data : Data) : Session Data :=
  let s := { s with initialPacket := false, sessionTimeout := false }
  match packet data with
  | .malformed message => errorClose s ("Malformed initial packet: " ++ message)
  | .null => { s with crashed := true }
  | .version1 => { s with recognition := some {} }
  | .unsupported => errorClose s "Unsupported protocol"

/-! ## The recognition -/

def stopRecognizer (r : Recognition Data) : Recognition Data := { r with timerLastFrame := false, ended := true }

/-- A promise settles once. -/
def settle (r : Recognition Data) (outcome : Outcome) : Recognition Data :=
  match r.outcome with
  | none => { r with outcome := some outcome }
  | some _ => r

def onMessage (r : Recognition Data) (data : Data) : Recognition Data :=
  if length data = 0 then stopRecognizer r
  else { r with written := if r.ended then r.written else r.written ++ [data], lastFC := 0 }

def onTick (r : Recognition Data) : Recognition Data :=
  let r := if 2 ≤ r.lastFC then stopRecognizer r else r
  { r with lastFC := r.lastFC + 1 }

def sessionStopped (r : Recognition Data) : Recognition Data := { r with timerLastFrame := false, stopping := r.stopping + 1 }

def onStopped (r : Recognition Data) : Recognition Data :=
  settle { r with stopping := r.stopping - 1 } (if r.fullText = "" then .failure 400 else .text r.fullText)

/-- What a recognition is told: by the client (`streamEnd` is its `end`), the timer and
    the service. -/
inductive Signal (Data : Type)
  | message (data : Data)
  | streamEnd
  | tick
  | started
  | startFails
  | recognized (text : String)
  | noMatch
  | sessionStopped
  | stopped
  | stopFails
deriving DecidableEq

def signal (r : Recognition Data) : Signal Data → Option (Recognition Data)
  | .message data => some (onMessage length r data)
  | .streamEnd => some (stopRecognizer r)
  | .tick => if r.timerLastFrame then some (onTick r) else none
  | .started => if r.starting then some { r with starting := false, timerLastFrame := true } else none
  | .startFails => if r.starting then some (settle { r with starting := false } (.failure 500)) else none
  | .recognized text => some { r with fullText := r.fullText ++ text }
  | .noMatch | .sessionStopped => some (sessionStopped r)
  | .stopped => if 0 < r.stopping then some (onStopped r) else none
  | .stopFails => if 0 < r.stopping then some (settle { r with stopping := r.stopping - 1 } (.failure 500)) else none

/-! ## Runs -/

def reply (s : Session Data) : Outcome → Session Data
  | .text text => sendAndClose s (.ok text) 1000
  | .failure status => sendAndClose s (.failure status) (if status ≠ 400 then 1003 else 1000)

inductive Event (Data : Type)
  | initial (data : Data)
  | signal (signal : Signal Data)
  | sessionTimeout
  | replies
  | close
deriving DecidableEq

/-- A message goes to the listener of first messages as long as that is there. -/
def step (s : Session Data) (e : Event Data) : Option (Session Data) :=
  if s.crashed then none
  else
    match e with
    | .initial data => if s.initialPacket then some (onInitialPacket packet s data) else none
    | .signal x =>
      match s.recognition with
      | none => none
      | some r => (signal length r x).map fun r => { s with recognition := some r }
    | .sessionTimeout =>
      if s.sessionTimeout then some (errorClose { s with sessionTimeout := false } "Session timeout") else none
    | .replies =>
      match s.recognition.bind (·.outcome) with
      | none => none
      | some outcome => if s.replied then none else some (reply { s with replied := true } outcome)
    | .close => some { s with opened := false, sessionTimeout := false }

def system : System (Session Data) (Event Data) where
  init s := s = {}
  step := step length packet

/-! ## What the events say -/

def recognized : Event Data → List String
  | .signal (.recognized text) => [text]
  | _ => []

def fullText (es : List (Event Data)) : String := String.join (es.flatMap recognized)

/-- The messages that are audio. -/
def audioOf : Event Data → List Data
  | .signal (.message data) => if length data = 0 then [] else [data]
  | _ => []

def audio (es : List (Event Data)) : List Data := es.flatMap (audioOf length)

/-- What a callback that settles the promise settles it with, after a text. -/
def settlesWith (text : String) : Event Data → Option Outcome
  | .signal .stopped => some (if text = "" then .failure 400 else .text text)
  | .signal .stopFails | .signal .startFails => some (.failure 500)
  | _ => none

def settles (e : Event Data) : Bool := (settlesWith "" e).isSome

/-- By the first of them, over the text before it. -/
def verdict (es : List (Event Data)) : Option Outcome :=
  (es.dropWhile fun e => !settles e).head?.bind (settlesWith (fullText (es.takeWhile fun e => !settles e)))

section Events

variable {length : Data → Nat}

theorem fullText_concat (es : List (Event Data)) (e : Event Data) :
    fullText (es ++ [e]) = fullText es ++ String.join (recognized e) := by
  have hone : [e].flatMap recognized = recognized e := List.append_nil _
  rw [fullText, List.flatMap_append, hone]
  unfold recognized
  split
  · exact List.foldl_append ..
  · rw [List.append_nil]; exact String.append_empty.symm

theorem audio_concat (es : List (Event Data)) (e : Event Data) : audio length (es ++ [e]) = audio length es ++ audioOf length e := by
  rw [audio, List.flatMap_append]
  exact congrArg _ (List.append_nil _)

theorem settles_iff {text : String} {e : Event Data} : settles e = (settlesWith text e).isSome := by
  unfold settles settlesWith
  split
  · split <;> split <;> rfl
  · rfl
  · rfl
  · rfl

/-- Once there is a verdict it stays; else the last event may give one. -/
theorem verdict_concat (es : List (Event Data)) (e : Event Data) :
    verdict (es ++ [e]) = (verdict es).or (settlesWith (fullText es) e) := by
  cases hd : es.dropWhile fun e => !settles e with
  | nil =>
    have hall : ∀ x ∈ es, (!settles x) = true := List.dropWhile_eq_nil_iff.mp hd
    have ht : es.takeWhile (fun e => !settles e) = es := List.takeWhile_eq_self_iff.mpr hall
    have hnone : verdict es = none := by rw [verdict, hd]; rfl
    rw [hnone, Option.none_or, verdict, List.dropWhile_append, hd, List.takeWhile_append, ht]
    simp only [List.isEmpty_nil, if_true]
    cases hs : settles e with
    | true =>
      rw [List.dropWhile_cons_of_neg (by rw [hs]; decide), List.takeWhile_cons_of_neg (by rw [hs]; decide), List.append_nil]
      rfl
    | false =>
      rw [List.dropWhile_cons_of_pos (by rw [hs]; rfl)]
      have : settles e = (settlesWith (fullText es) e).isSome := settles_iff
      rw [hs] at this
      exact (Option.isSome_eq_false_iff.mp this.symm |> Option.isNone_iff_eq_none.mp).symm
  | cons x xs =>
    have hx : settles x = true := by
      have := List.head?_dropWhile_not (fun e => !settles e) es
      rw [hd] at this
      simpa using this
    have hne : (es.takeWhile fun e => !settles e).length ≠ es.length := by
      intro he
      have := congrArg List.length (List.takeWhile_append_dropWhile (p := fun e => !settles e) (l := es))
      rw [List.length_append, he, hd, List.length_cons] at this
      omega
    have hsome : (verdict es).isSome = true := by
      rw [verdict, hd]
      exact settles_iff.symm.trans hx
    obtain ⟨o, ho⟩ := Option.isSome_iff_exists.mp hsome
    rw [ho, Option.some_or, ← ho, verdict, verdict, List.dropWhile_append, hd, List.takeWhile_append, if_neg hne]
    rfl

end Events

/-! ## What a signal does -/

section Signals

variable {length : Data → Nat} {packet : Data → Packet} {r r' : Recognition Data} {s t : Session Data}

structure Signalled (length : Data → Nat) (r : Recognition Data) (x : Signal Data) (r' : Recognition Data) : Prop where
  outcome : r'.outcome = r.outcome.or (settlesWith r.fullText (.signal x))
  fullText : r'.fullText = r.fullText ++ String.join (recognized (.signal x))
  ended : r.ended = true → r'.ended = true
  written : r'.written = if r.ended then r.written else r.written ++ audioOf length (.signal x)

theorem settle_outcome (r : Recognition Data) (outcome : Outcome) : (settle r outcome).outcome = r.outcome.or (some outcome) := by
  unfold settle
  split
  · rename_i h; rw [h]; rfl
  · rename_i h; rw [h]; rfl

theorem settle_eq (r : Recognition Data) (outcome : Outcome) :
    (settle r outcome).fullText = r.fullText ∧ (settle r outcome).ended = r.ended ∧ (settle r outcome).written = r.written := by
  unfold settle
  split <;> exact ⟨rfl, rfl, rfl⟩

/-- The audio and the text stay. -/
theorem Signalled.quiet {x : Signal Data} (ho : r'.outcome = r.outcome.or (settlesWith r.fullText (.signal x)))
    (ht : recognized (.signal x) = []) (ha : audioOf length (.signal x) = []) (hf : r'.fullText = r.fullText)
    (he : r.ended = true → r'.ended = true) (hw : r'.written = r.written) : Signalled length r x r' := by
  refine ⟨ho, ?_, he, ?_⟩
  · rw [hf, ht]; exact String.append_empty.symm
  · rw [hw, ha, List.append_nil, ite_self]

theorem Signalled.settle {x : Signal Data} {q : Recognition Data} {outcome : Outcome} (hq : q.outcome = r.outcome)
    (hf : q.fullText = r.fullText) (he : q.ended = r.ended) (hw : q.written = r.written)
    (ho : settlesWith r.fullText (.signal x) = some outcome) (ht : recognized (.signal x) = [])
    (ha : audioOf length (.signal x) = []) : Signalled length r x (settle q outcome) := by
  obtain ⟨hf', he', hw'⟩ := settle_eq q outcome
  refine .quiet ?_ ht ha (hf'.trans hf) (fun h => ?_) (hw'.trans hw)
  · rw [settle_outcome, hq, ho]
  · rw [he', he, h]

theorem signalled {x : Signal Data} (h : signal length r x = some r') : Signalled length r x r' := by
  have hor : r.outcome = r.outcome.or none := (Option.or_none).symm
  cases x with
  | message data =>
    cases h
    unfold onMessage
    split
    · rename_i h0
      exact .quiet hor rfl (if_pos h0) rfl (fun _ => rfl) rfl
    · rename_i h0
      refine ⟨hor, String.append_empty.symm, id, ?_⟩
      rw [audioOf, if_neg h0]
  | streamEnd => cases h; exact .quiet hor rfl rfl rfl (fun _ => rfl) rfl
  | tick =>
    rw [signal] at h
    split at h
    · cases h
      unfold onTick
      split
      · exact .quiet hor rfl rfl rfl (fun _ => rfl) rfl
      · exact .quiet hor rfl rfl rfl id rfl
    · cases h
  | started =>
    rw [signal] at h
    split at h
    · cases h; exact .quiet hor rfl rfl rfl id rfl
    · cases h
  | startFails =>
    rw [signal] at h
    split at h
    · cases h; exact .settle rfl rfl rfl rfl rfl rfl rfl
    · cases h
  | recognized text =>
    cases h
    refine ⟨hor, ?_, id, ?_⟩
    · show r.fullText ++ text = r.fullText ++ String.join [text]
      rw [String.join, List.foldl_cons, List.foldl_nil, String.empty_append]
    · show r.written = if r.ended then r.written else r.written ++ []
      rw [List.append_nil, ite_self]
  | noMatch | sessionStopped => cases h; exact .quiet hor rfl rfl rfl id rfl
  | stopped =>
    rw [signal] at h
    split at h
    · cases h; exact .settle rfl rfl rfl rfl rfl rfl rfl
    · cases h
  | stopFails =>
    rw [signal] at h
    split at h
    · cases h; exact .settle rfl rfl rfl rfl rfl rfl rfl
    · cases h

/-! ## What was sent -/

def replyOf : Outcome → Reply
  | .text text => .ok text
  | .failure status => .failure status

def codeOf : Outcome → Nat
  | .text _ => 1000
  | .failure status => if status = 400 then 1000 else 1003

/-- Nothing, or an error of the protocol, or what the recognition came to. -/
inductive Sent (verdict : Option Outcome) (s : Session Data) : Prop
  | nothing : s.sent = [] → s.code = none → Sent verdict s
  | error (message : String) : s.opened = false → s.sent = [.error message] → s.code = some 1002 → Sent verdict s
  | outcome (o : Outcome) : verdict = some o → s.opened = false → s.sent = [replyOf o] → s.code = some (codeOf o) →
      Sent verdict s

theorem Sent.mono {v v' : Option Outcome} (h : Sent v s) (hv : ∀ o, v = some o → v' = some o) (ho : s.opened = false → t.opened = false)
    (hs : s.sent = t.sent) (hc : s.code = t.code) : Sent v' t := by
  cases h with
  | nothing h1 h2 => exact .nothing (hs ▸ h1) (hc ▸ h2)
  | error m h1 h2 h3 => exact .error m (ho h1) (hs ▸ h2) (hc ▸ h3)
  | outcome o h0 h1 h2 h3 => exact .outcome o (hv o h0) (ho h1) (hs ▸ h2) (hc ▸ h3)

theorem Sent.opened {v : Option Outcome} (h : Sent v s) (ho : s.opened = true) : s.sent = [] := by
  cases h with
  | nothing h => exact h
  | error _ h => rw [ho] at h; cases h
  | outcome _ _ h => rw [ho] at h; cases h

theorem Sent.errorClose {v : Option Outcome} (h : Sent v s) (message : String) : Sent v (errorClose s message) := by
  rw [SpeechStream.errorClose, sendAndClose]
  split
  · rename_i ho
    exact .error message rfl (by rw [h.opened ho]; rfl) rfl
  · exact h

theorem reply_eq (s : Session Data) (o : Outcome) : reply s o = sendAndClose s (replyOf o) (codeOf o) := by
  cases o with
  | text => rfl
  | failure status =>
    rw [reply, replyOf, codeOf]
    by_cases h : status = 400 <;> simp [h]

theorem Sent.reply {v : Option Outcome} (h : Sent v s) {o : Outcome} (hv : v = some o) : Sent v (reply s o) := by
  rw [reply_eq, sendAndClose]
  split
  · rename_i ho
    exact .outcome o hv rfl (by rw [h.opened ho]; rfl) rfl
  · exact h

end Signals

/-! ## Runs of a session -/

structure Inv (es : List (Event Data)) (s : Session Data) : Prop where
  before : s.recognition = none → verdict es = none ∧ fullText es = "" ∧ audio length es = []
  outcome : ∀ r, s.recognition = some r → r.outcome = verdict es ∧ r.fullText = fullText es
  written : ∀ r, s.recognition = some r → r.written <+: audio length es ∧ (r.ended = false → r.written = audio length es)
  sent : Sent (verdict es) s
  crashed : s.crashed = true ↔ ∃ data, .initial data ∈ es ∧ packet data = .null
  listening : s.initialPacket = true → s.recognition = none

section Runs

variable {length : Data → Nat} {packet : Data → Packet} {s t : Session Data} {es : List (Event Data)} {e : Event Data}

theorem Inv.create : Inv length packet [] ({} : Session Data) where
  before _ := ⟨rfl, rfl, rfl⟩
  outcome r h := by cases h
  written r h := by cases h
  sent := .nothing rfl rfl
  crashed := by
    constructor
    · intro h; cases h
    · rintro ⟨_, h, -⟩; cases h
  listening _ := rfl

/-- An event that is no signal says nothing of the speech. -/
theorem Inv.silent (h : Inv length packet es s) (he : ∀ text, settlesWith text e = none) (hr : recognized e = [])
    (ha : audioOf length e = []) (hrec : t.recognition = s.recognition) (hsent : Sent (verdict es) t)
    (hc : t.crashed = s.crashed) (hi : ∀ data, e ≠ .initial data) (hl : t.initialPacket = true → s.initialPacket = true) :
    Inv length packet (es ++ [e]) t := by
  have hv : verdict (es ++ [e]) = verdict es := by rw [verdict_concat, he, Option.or_none]
  have hf : fullText (es ++ [e]) = fullText es := by rw [fullText_concat, hr]; exact String.append_empty
  have haud : audio length (es ++ [e]) = audio length es := by rw [audio_concat, ha, List.append_nil]
  refine ⟨?_, ?_, ?_, ?_, ?_, fun h' => hrec ▸ h.listening (hl h')⟩
  · rw [hrec, hv, hf, haud]; exact h.before
  · rw [hrec, hv, hf]; exact h.outcome
  · rw [hrec, haud]; exact h.written
  · rw [hv]; exact hsent
  · rw [hc, h.crashed]
    refine exists_congr fun data => and_congr_left fun _ => ?_
    rw [List.mem_append, List.mem_singleton]
    exact ⟨Or.inl, fun h' => h'.resolve_right fun h' => hi data h'.symm⟩

theorem Inv.initial (h : Inv length packet es s) (hn : s.crashed = false) (hl : s.initialPacket = true) (data : Data) :
    Inv length packet (es ++ [.initial data]) (onInitialPacket packet s data) := by
  have hrec := h.listening hl
  obtain ⟨hv, hf, ha⟩ := h.before hrec
  have hv' : verdict (es ++ [.initial data]) = none := by rw [verdict_concat, hv]; rfl
  have hf' : fullText (es ++ [.initial data]) = "" := by rw [fullText_concat, hf]; rfl
  have ha' : audio length (es ++ [.initial data]) = [] := by rw [audio_concat, ha]; rfl
  have hnull : (∃ d, .initial d ∈ es ++ [.initial data] ∧ packet d = .null) ↔ packet data = .null := by
    constructor
    · rintro ⟨d, hd, hp⟩
      rcases List.mem_append.mp hd with hd | hd
      · rw [h.crashed.mpr ⟨d, hd, hp⟩] at hn
        cases hn
      · cases List.mem_singleton.mp hd
        exact hp
    · intro hp
      exact ⟨data, List.mem_append_right _ (List.mem_singleton.mpr rfl), hp⟩
  have hsent : Sent none { s with initialPacket := false, sessionTimeout := false } := hv ▸ h.sent.mono (fun _ h => h) id rfl rfl
  have hno : ∀ t : Session Data, t.recognition = none → Sent none t → (t.crashed = true ↔ packet data = .null) →
      Inv length packet (es ++ [.initial data]) t := by
    intro t ht hs hc
    refine ⟨fun _ => ⟨hv', hf', ha'⟩, ?_, ?_, hv' ▸ hs, hc.trans hnull.symm, fun _ => ht⟩
    · intro r hr; rw [ht] at hr; cases hr
    · intro r hr; rw [ht] at hr; cases hr
  have hclose : ∀ m, packet data ≠ .null →
      Inv length packet (es ++ [.initial data]) (errorClose { s with initialPacket := false, sessionTimeout := false } m) := by
    intro m hne
    have hkeep : (errorClose { s with initialPacket := false, sessionTimeout := false } m).recognition = none ∧
        (errorClose { s with initialPacket := false, sessionTimeout := false } m).crashed = false := by
      rw [errorClose, sendAndClose]
      split <;> exact ⟨hrec, hn⟩
    refine hno _ hkeep.1 (hsent.errorClose m) ?_
    rw [hkeep.2]
    exact iff_of_false (by decide) hne
  unfold onInitialPacket
  cases hp : packet data with
  | malformed m => exact hclose _ (by rw [hp]; intro h; cases h)
  | unsupported => exact hclose _ (by rw [hp]; intro h; cases h)
  | null => exact hno _ hrec (hsent.mono (fun _ h => h) id rfl rfl) (iff_of_true rfl hp)
  | version1 =>
    refine ⟨?_, ?_, ?_, ?_, ?_, ?_⟩
    · intro h; cases h
    · intro r hr; cases hr; exact ⟨hv'.symm, hf'.symm⟩
    · intro r hr; cases hr; exact ⟨List.nil_prefix, fun _ => ha'.symm⟩
    · rw [hv']; exact hsent.mono (fun _ h => h) id rfl rfl
    · rw [hnull]
      refine iff_of_false ?_ ?_
      · show ¬ s.crashed = true
        rw [hn]; decide
      · rw [hp]; intro h; cases h
    · intro h; cases h

theorem Inv.signal (h : Inv length packet es s) {x : Signal Data} {r r' : Recognition Data} (hr : s.recognition = some r)
    (hx : SpeechStream.signal length r x = some r') : Inv length packet (es ++ [.signal x]) { s with recognition := some r' } := by
  obtain ⟨ho, hf⟩ := h.outcome r hr
  obtain ⟨hw, hw'⟩ := h.written r hr
  have hs := signalled hx
  refine ⟨?_, ?_, ?_, ?_, ?_, ?_⟩
  · intro h; cases h
  · intro q hq
    cases hq
    exact ⟨by rw [hs.outcome, verdict_concat, ho, hf], by rw [hs.fullText, fullText_concat, hf]⟩
  · intro q hq
    cases hq
    rw [audio_concat, hs.written]
    cases hend : r.ended with
    | true => 
      refine ⟨hw.trans (List.prefix_append ..), fun h' => ?_⟩
      rw [hs.ended hend] at h'
      cases h'
    | false => exact ⟨by rw [hw' hend]; exact List.prefix_rfl, fun _ => by rw [hw' hend]; rfl⟩
  · refine h.sent.mono (fun o ho => ?_) id rfl rfl
    rw [verdict_concat, ho, Option.some_or]
  · refine h.crashed.trans (exists_congr fun data => and_congr_left fun _ => ?_)
    rw [List.mem_append, List.mem_singleton]
    exact ⟨Or.inl, fun h' => h'.resolve_right fun h' => by cases h'⟩
  · intro hl
    rw [h.listening hl] at hr
    cases hr

theorem errorClose_eq (s : Session Data) (m : String) : (errorClose s m).recognition = s.recognition ∧
    (errorClose s m).crashed = s.crashed ∧ (errorClose s m).initialPacket = s.initialPacket := by
  rw [errorClose, sendAndClose]
  split <;> exact ⟨rfl, rfl, rfl⟩

theorem Inv.step (h : Inv length packet es s) (hs : step length packet s e = some t) : Inv length packet (es ++ [e]) t := by
  unfold SpeechStream.step at hs
  split at hs
  · cases hs
  rename_i hn
  have hn : s.crashed = false := by simpa using hn
  cases e with
  | initial data =>
    dsimp only at hs
    split at hs
    · rename_i hl; cases hs; exact h.initial hn hl data
    · cases hs
  | signal x =>
    dsimp only at hs
    split at hs
    · cases hs
    · rename_i r hr
      obtain ⟨r', hx, rfl⟩ := Option.map_eq_some_iff.mp hs
      exact h.signal hr hx
  | sessionTimeout =>
    dsimp only at hs
    split at hs
    · cases hs
      obtain ⟨h1, h2, h3⟩ := errorClose_eq { s with sessionTimeout := false } "Session timeout"
      refine h.silent (fun _ => rfl) rfl rfl h1 ?_ h2 (fun _ h => by cases h) fun hl => h3 ▸ hl
      have hs : Sent (verdict es) { s with sessionTimeout := false } := h.sent.mono (fun _ h => h) id rfl rfl
      exact hs.errorClose _
    · cases hs
  | replies =>
    dsimp only at hs
    split at hs
    · cases hs
    · rename_i o hrec
      split at hs
      · cases hs
      · cases hs
        obtain ⟨r, hr, ho⟩ := Option.bind_eq_some_iff.mp hrec
        have hv : verdict es = some o := (h.outcome r hr).1.symm.trans ho
        have hkeep : (reply { s with replied := true } o).recognition = s.recognition ∧
            (reply { s with replied := true } o).crashed = s.crashed ∧
            (reply { s with replied := true } o).initialPacket = s.initialPacket := by
          rw [reply_eq, sendAndClose]
          split <;> exact ⟨rfl, rfl, rfl⟩
        obtain ⟨h1, h2, h3⟩ := hkeep
        refine h.silent (fun _ => rfl) rfl rfl h1 ?_ h2 (fun _ h => by cases h) fun hl => h3 ▸ hl
        have hs : Sent (verdict es) { s with replied := true } := h.sent.mono (fun _ h => h) id rfl rfl
        exact hs.reply hv
  | close =>
    cases hs
    exact h.silent (fun _ => rfl) rfl rfl rfl (h.sent.mono (fun _ h => h) (fun _ => rfl) rfl rfl) rfl
      (fun _ h => by cases h) fun hl => hl

theorem Inv.run (h : Lib.Runs.run (system length packet) {} es = some s) : Inv length packet es s := by
  induction es using List.reverseRecOn generalizing s with
  | nil => cases h; exact .create
  | append_singleton es e ih =>
    obtain ⟨u, hu, hs⟩ := run_concat.mp h
    exact (ih hu).step hs

end Runs

/-- Packets as their versions, and audio as the numbers of its bytes. -/
def packetOf : Nat → Packet
  | 0 => .null
  | 1 => .version1
  | _ => .unsupported

/-- Audio, one piece of text and the end. -/
def spoken : List (Event Nat) :=
  [.initial 1, .signal .started, .signal (.message 8), .signal (.recognized "hello"), .signal (.message 0),
    .signal .sessionStopped, .signal .stopped, .replies]

section Audio

variable {length packet} {s t : Session Data} {r : Recognition Data} {e : Event Data} {es es' : List (Event Data)}

/-- A recognition goes on, and what it wrote stays once the audio ended. -/
theorem step_recognition (h : Inv length packet es s) (hr : s.recognition = some r) (hs : step length packet s e = some t) :
    ∃ r', t.recognition = some r' ∧ (r.ended = true → r'.ended = true ∧ r'.written = r.written) := by
  have hkeep : t.recognition = s.recognition → ∃ r', t.recognition = some r' ∧ (r.ended = true → r'.ended = true ∧ r'.written = r.written) :=
    fun ht => ⟨r, ht.trans hr, fun h => ⟨h, rfl⟩⟩
  unfold step at hs
  split at hs
  · cases hs
  cases e with
  | initial data =>
    dsimp only at hs
    split at hs
    · rename_i hl
      rw [h.listening hl] at hr
      cases hr
    · cases hs
  | signal x =>
    dsimp only at hs
    rw [hr] at hs
    obtain ⟨r', hx, rfl⟩ := Option.map_eq_some_iff.mp hs
    have hsig := signalled hx
    refine ⟨r', rfl, fun hend => ⟨hsig.ended hend, ?_⟩⟩
    rw [hsig.written, hend, if_pos rfl]
  | sessionTimeout =>
    dsimp only at hs
    split at hs
    · cases hs; exact hkeep (errorClose_eq ..).1
    · cases hs
  | replies =>
    dsimp only at hs
    split at hs
    · cases hs
    · split at hs
      · cases hs
      · cases hs
        refine hkeep ?_
        rw [reply_eq, sendAndClose]
        split <;> rfl
  | close => cases hs; exact hkeep rfl

end Audio

theorem audio_written {s : Session Data} {r : Recognition Data} {es : List (Event Data)}
    (h : run (system length packet) {} es = some s) (hr : s.recognition = some r) :
    (r.ended = false → r.written = audio length es) ∧ (r.written <+: audio length es) ∧
      ∀ es' t, run (system length packet) s es' = some t → r.ended = true →
        ∃ r', t.recognition = some r' ∧ r'.ended = true ∧ r'.written = r.written := by
  obtain ⟨hw, hw'⟩ := (Inv.run h).written r hr
  refine ⟨hw', hw, fun es' t ht hend => ?_⟩
  have hrun : ∀ es' t, run (system length packet) s es' = some t → run (system length packet) {} (es ++ es') = some t := by
    intro es' t ht
    rw [run, List.foldlM_append, Option.bind_eq_bind, Option.bind_eq_some_iff]
    exact ⟨s, h, ht⟩
  induction es' using List.reverseRecOn generalizing t with
  | nil => cases ht; exact ⟨r, hr, hend, rfl⟩
  | append_singleton es' e ih =>
    obtain ⟨u, hu, hs⟩ := run_concat.mp ht
    obtain ⟨q, hq, hqe, hqw⟩ := ih u hu
    obtain ⟨r', hr', hkeep⟩ := step_recognition (Inv.run (hrun es' u hu)) hq hs
    obtain ⟨he, hw⟩ := hkeep hqe
    exact ⟨r', hr', he, hw.trans hqw⟩

theorem audio_written_spoken : ∃ s r, run (system id packetOf) {} (spoken.take 4) = some s ∧ s.recognition = some r ∧
    r.written = audio id (spoken.take 4) := by
  obtain ⟨s, hs⟩ := Option.isSome_iff_exists.mp (show (run (system id packetOf) {} (spoken.take 4)).isSome = true by decide)
  have hended : (run (system id packetOf) {} (spoken.take 4)).map (fun s => s.recognition.map (·.ended)) = some (some false) := by
    decide
  rw [hs, Option.map_some, Option.some.injEq, Option.map_eq_some_iff] at hended
  obtain ⟨r, hr, hend⟩ := hended
  exact ⟨s, r, hs, hr, (audio_written id packetOf hs hr).1 hend⟩

theorem crashes_iff {s : Session Data} {es : List (Event Data)} (h : run (system length packet) {} es = some s) :
    s.crashed = true ↔ ∃ data, .initial data ∈ es ∧ packet data = .null :=
  (Inv.run h).crashed

end GenieCloud.Nlp.SpeechStream
