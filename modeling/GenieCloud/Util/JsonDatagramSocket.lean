/-
  GenieCloud.Util.JsonDatagramSocket — JSON messages over a stream
  (`util/json_datagram_socket.ts`).

  A message is written as its text and a newline. The reading end keeps what came after
  the last newline, and tries to parse it at once, before its newline is there. What it
  emits does not depend on how the stream was cut: after any number of chunks it has
  emitted the objects whose text has come in full, and keeps the beginning of the next
  one (`Between`); a text that was parsed early leaves its newline behind, as an empty
  line that is skipped. This rests on two facts of the format: a text has no newline,
  and no proper prefix of the text of an object parses.
-/

import GenieCloud.Lib.JsonPrefix

namespace GenieCloud.Util

open GenieCloud.Lib.Json

variable {N : Type} [Numeral N]

/-- Whether each direction is still there, and the message that is not complete. -/
structure JsonDatagramSocket where
  reader : Bool := true
  writer : Bool := true
  partialMessage : List Char := []

namespace JsonDatagramSocket

def destroy (s : JsonDatagramSocket) : JsonDatagramSocket := { s with reader := false, writer := false }

/-- What a line emits: nothing, if it is empty or does not parse. -/
def readLine (line : List Char) : List (Value N) :=
  if line = [] then [] else (parse (String.ofList line)).toList

/-- `_tryReadMessage`: the socket after it, and the messages it emits. -/
def tryReadMessage (s : JsonDatagramSocket) : JsonDatagramSocket × List (Value N) :=
  let split := s.partialMessage.splitOn '\n'
  let partialMessage := split.getLastD []
  let emitted := split.dropLast.flatMap readLine
  if partialMessage = [] then ({ s with partialMessage := partialMessage }, emitted)
  else
    match parse (String.ofList partialMessage) with
    | none => ({ s with partialMessage := partialMessage }, emitted)
    | some msg => ({ s with partialMessage := [] }, emitted ++ [msg])

/-- A chunk comes from the reader, already decoded. -/
def onData (s : JsonDatagramSocket) (data : List Char) : JsonDatagramSocket × List (Value N) :=
  if !s.reader then (s, [])
  else tryReadMessage { s with partialMessage := s.partialMessage ++ data }

/-- What a message adds to the stream. -/
def write (s : JsonDatagramSocket) (msg : Value N) : List Char :=
  if !s.writer then [] else text msg ++ ['\n']

/-- The messages emitted over a list of chunks. -/
def receive (s : JsonDatagramSocket) : List (List Char) → List (Value N)
  | [] => []
  | data :: chunks => (s.onData data).2 ++ (s.onData (N := N) data).1.receive chunks

/-! ## Lines -/

variable {line : List Char}

theorem tryReadMessage_line (h : '\n' ∉ line) (rest : List Char) :
    tryReadMessage (N := N) { partialMessage := line ++ '\n' :: rest } =
      ((tryReadMessage (N := N) { partialMessage := rest }).1,
        readLine line ++ (tryReadMessage (N := N) { partialMessage := rest }).2) := by
  obtain ⟨l, ls, hrest⟩ := List.exists_cons_of_ne_nil (List.splitOn_ne_nil '\n' rest)
  unfold tryReadMessage
  simp only [List.splitOn_append_cons_self_of_not_mem h, hrest, List.dropLast_cons_cons, List.flatMap_cons,
    List.getLastD_cons]
  by_cases hlast : ls.getLastD l = []
  · simp only [hlast, if_true]
  · simp only [hlast, if_false]
    cases parse (N := N) (String.ofList (ls.getLastD l)) with
    | none => rfl
    | some msg => simp only [List.append_assoc]

/-- The last line is emitted as soon as it parses. -/
theorem tryReadMessage_last (h : '\n' ∉ line) :
    tryReadMessage (N := N) { partialMessage := line } =
      match parse (N := N) (String.ofList line) with
      | some msg => ({ partialMessage := [] }, [msg])
      | none => ({ partialMessage := line }, []) := by
  unfold tryReadMessage
  simp only [List.splitOn_eq_singleton h, List.dropLast_singleton, List.flatMap_nil, List.getLastD_cons,
    List.getLastD_nil]
  by_cases hl : line = []
  · subst hl
    rfl
  · rw [if_neg hl]
    cases parse (N := N) (String.ofList line) <;> rfl

theorem readLine_text (j : Value N) : readLine (text j) = [j] := by
  obtain ⟨c, r, hc, -, -⟩ := text_head j
  have hp : parse (String.ofList (text j)) = some j := parse_stringify j
  unfold readLine
  rw [hp, if_neg (by rw [hc]; exact List.cons_ne_nil c r)]
  rfl

/-! ## Streams -/

/-- An object, by its fields. -/
abbrev Object (N : Type) := List (String × Value N)

def stream (objects : List (Object N)) : List Char := objects.flatMap fun o => write {} (.obj o)

theorem stream_cons (o : Object N) (objects : List (Object N)) :
    stream (o :: objects) = text (.obj o) ++ '\n' :: stream objects := by
  simp [stream, write]

/-- Where the reading end stands, with `todo` not emitted and `rest` still to come: it has
    the beginning of the next text, or has emitted a text and waits for its newline. -/
inductive Between (partialMessage : List Char) (todo : List (Object N)) (rest : List Char) : Prop
  | inside : partialMessage ++ rest = stream todo →
      (∀ o os, todo = o :: os → ∃ q, q ≠ [] ∧ text (.obj o) = partialMessage ++ q) → Between partialMessage todo rest
  | newline : partialMessage = [] → rest = '\n' :: stream todo → Between partialMessage todo rest

/-- Part of a stream is read up to the object it ends in. -/
theorem tryReadMessage_stream {partialMessage rest : List Char} {todo : List (Object N)}
    (h : partialMessage ++ rest = stream todo) :
    ∃ done todo' p, todo = done ++ todo' ∧ Between p todo' rest ∧
      tryReadMessage (N := N) { partialMessage := partialMessage } = ({ partialMessage := p }, done.map .obj) := by
  induction todo generalizing partialMessage with
  | nil =>
    obtain ⟨rfl, rfl⟩ := List.append_eq_nil_iff.mp h
    exact ⟨[], [], [], rfl, .inside rfl (fun o os h => nomatch h), rfl⟩
  | cons o todo ih =>
    rw [stream_cons] at h
    rcases List.append_eq_append_iff.mp h with ⟨q, htext, hrest⟩ | ⟨q, hpartial, hrest⟩
    · -- the chunk ends in the text of the object, or right after it
      have hnl : '\n' ∉ partialMessage := fun hm =>
        newline_not_mem_text (.obj o) (htext ▸ List.mem_append_left q hm)
      rw [tryReadMessage_last hnl]
      cases q with
      | nil =>
        rw [List.append_nil] at htext
        have hp : parse (String.ofList partialMessage) = some (.obj o) := htext ▸ parse_stringify (.obj o)
        rw [hp]
        exact ⟨[o], todo, [], rfl, .newline rfl hrest, rfl⟩
      | cons c q =>
        rw [parse_beginning htext (List.cons_ne_nil c q)]
        refine ⟨[], o :: todo, partialMessage, rfl, .inside ?_ ?_, rfl⟩
        · rw [stream_cons]
          exact h
        · rintro o' os ⟨⟩
          exact ⟨_, List.cons_ne_nil c q, htext⟩
    · -- the whole text is there
      have hnl := newline_not_mem_text (.obj o)
      subst hpartial
      cases q with
      | nil =>
        have hp : parse (String.ofList (text (.obj o))) = some (.obj o) := parse_stringify (.obj o)
        rw [List.append_nil, tryReadMessage_last hnl, hp]
        exact ⟨[o], todo, [], rfl, .newline rfl hrest.symm, rfl⟩
      | cons c q =>
        obtain ⟨rfl, hq⟩ := List.cons.inj hrest
        obtain ⟨done, todo', p, rfl, hp, hread⟩ := ih hq.symm
        rw [tryReadMessage_line hnl, hread, readLine_text]
        exact ⟨o :: done, todo', p, rfl, hp, rfl⟩

/-- One chunk. -/
theorem Between.onData {p data rest : List Char} {todo : List (Object N)} (h : Between p todo (data ++ rest)) :
    ∃ done todo' p', todo = done ++ todo' ∧ Between p' todo' rest ∧
      onData (N := N) { partialMessage := p } data = ({ partialMessage := p' }, done.map .obj) := by
  show ∃ done todo' p', _ ∧ _ ∧ tryReadMessage (N := N) { partialMessage := p ++ data } = _
  cases h with
  | inside h _ => exact tryReadMessage_stream (by rw [List.append_assoc]; exact h)
  | newline hp hrest =>
    subst hp
    cases data with
    | nil => exact ⟨[], todo, [], rfl, .newline rfl hrest, rfl⟩
    | cons c data =>
      obtain ⟨rfl, htail⟩ := List.cons.inj hrest
      obtain ⟨done, todo', p', rfl, hp', hread⟩ := tryReadMessage_stream htail
      refine ⟨done, todo', p', rfl, hp', ?_⟩
      have hline := tryReadMessage_line (N := N) (List.not_mem_nil : '\n' ∉ []) data
      rw [hread] at hline
      exact hline

theorem Between.receive {p : List Char} {todo : List (Object N)} {chunks : List (List Char)}
    (h : Between p todo chunks.flatten) :
    ∃ done todo' p', todo = done ++ todo' ∧ Between p' todo' [] ∧
      receive (N := N) { partialMessage := p } chunks = done.map .obj := by
  induction chunks generalizing p todo with
  | nil => exact ⟨[], todo, p, rfl, h, rfl⟩
  | cons data chunks ih =>
    rw [List.flatten_cons] at h
    obtain ⟨done, todo₁, p₁, rfl, h₁, hdata⟩ := h.onData
    obtain ⟨done', todo₂, p₂, rfl, h₂, hrest⟩ := ih h₁
    refine ⟨done ++ done', todo₂, p₂, by simp, h₂, ?_⟩
    rw [JsonDatagramSocket.receive, hdata, hrest, List.map_append]

/-- At the end of the stream nothing is left to emit. -/
theorem Between.end {p : List Char} {todo : List (Object N)} (h : Between p todo []) : todo = [] := by
  cases h with
  | inside h hq =>
    cases todo with
    | nil => rfl
    | cons o os =>
      obtain ⟨q, hne, htext⟩ := hq o os rfl
      rw [List.append_nil, stream_cons, htext, List.append_assoc] at h
      have := congrArg List.length h
      rw [List.length_append, List.length_append, List.length_cons] at this
      omega
  | newline _ h => cases h

/-- Objects written at one end come out at the other, in order and each once, however the
    stream is cut. -/
theorem receive_stream (objects : List (Object N)) (chunks : List (List Char)) (h : chunks.flatten = stream objects) :
    receive {} chunks = objects.map .obj := by
  have hstart : Between [] objects chunks.flatten :=
    .inside h fun o _ _ => by
      obtain ⟨t, ht⟩ := text_obj_head o
      exact ⟨text (.obj o), by rw [ht]; exact List.cons_ne_nil _ t, rfl⟩
  obtain ⟨done, todo, p, rfl, hend, hreceive⟩ := hstart.receive
  rw [hreceive, hend.end, List.append_nil]

/-- Two objects in three chunks, the first cut in its text and the second before its
    newline. -/
theorem receive_two : receive (N := Int) {} [['{'], ['}', '\n', '{', '}'], ['\n']] = [.obj [], .obj []] :=
  receive_stream [[], []] [['{'], ['}', '\n', '{', '}'], ['\n']] rfl

end JsonDatagramSocket

end GenieCloud.Util
