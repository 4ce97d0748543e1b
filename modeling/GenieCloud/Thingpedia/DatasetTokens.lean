/-
  GenieCloud.Thingpedia.DatasetTokens — a small grammar of the documented kind.

  A text is cut into tokens, a literal or a character that is no blank; a program is any
  tokens without `#` and `;`. The examples of a dataset end with `;`, and their annotations
  start with `#`.

  Proved:
  - `lex_append`: a text that is cut by itself is cut the same before any other text.
  - `annotationText_tokens` / `annotations_tokens`: what is written of annotations is read.
  - `documented`: so the grammar is as documented.
-/

import GenieCloud.Thingpedia.DatasetGrammar

namespace GenieCloud.Thingpedia.DatasetTokens

open DatasetGrammar

/-! ## Tokens -/

inductive Token where
  | char (c : Char)
  | str (value : List Char)
  deriving DecidableEq, Repr

/-- Where the text is cut: outside a literal, or inside it with what was read of it, last first. -/
inductive Mode where
  | plain
  | inside (read : List Char)
  | escape (read : List Char)

def lexFrom : Mode → List Char → Option (List Token)
  | .plain, [] => some []
  | .inside _, [] => none
  | .escape _, [] => none
  | .plain, c :: cs =>
    if c = '"' then lexFrom (.inside []) cs
    else if isBlank c then lexFrom .plain cs
    else (lexFrom .plain cs).map (.char c :: ·)
  | .inside read, c :: cs =>
    if c = '"' then (lexFrom .plain cs).map (.str read.reverse :: ·)
    else if c = '\\' then lexFrom (.escape read) cs
    else if c = '\n' then none
    else lexFrom (.inside (c :: read)) cs
  | .escape read, c :: cs => lexFrom (.inside ((if c = 'n' then '\n' else c) :: read)) cs

def lex (text : List Char) : Option (List Token) := lexFrom .plain text

theorem lexFrom_append (text rest : List Char) : ∀ (mode : Mode) (tokens : List Token), lexFrom mode text = some tokens →
    lexFrom mode (text ++ rest) = (lex rest).map (tokens ++ ·) := by
  induction text with
  | nil =>
    intro mode tokens h
    cases mode with
    | plain =>
      cases h
      simp [lex]
    | inside read => cases h
    | escape read => cases h
  | cons c cs ih =>
    intro mode tokens h
    cases mode with
    | plain =>
      simp only [lexFrom, List.cons_append] at h ⊢
      split
      · rw [if_pos ‹_›] at h
        exact ih _ _ h
      · rw [if_neg ‹_›] at h
        split
        · rw [if_pos ‹_›] at h
          exact ih _ _ h
        · rw [if_neg ‹_›] at h
          obtain ⟨more, hmore, rfl⟩ := Option.map_eq_some_iff.mp h
          rw [ih _ _ hmore, Option.map_map]
          rfl
    | inside read =>
      simp only [lexFrom, List.cons_append] at h ⊢
      split
      · rw [if_pos ‹_›] at h
        obtain ⟨more, hmore, rfl⟩ := Option.map_eq_some_iff.mp h
        rw [ih _ _ hmore, Option.map_map]
        rfl
      · rw [if_neg ‹_›] at h
        split
        · rw [if_pos ‹_›] at h
          exact ih _ _ h
        · rw [if_neg ‹_›] at h
          split
          · rw [if_pos ‹_›] at h
            cases h
          · rw [if_neg ‹_›] at h
            exact ih _ _ h
    | escape read =>
      simp only [lexFrom, List.cons_append] at h ⊢
      exact ih _ _ h

theorem lex_append {text rest : List Char} {tokens more : List Token} (h : lex text = some tokens)
    (hmore : lex rest = some more) : lex (text ++ rest) = some (tokens ++ more) := by
  rw [lex, lexFrom_append text rest .plain tokens h, hmore, Option.map_some]

theorem lex_blank {blanks : List Char} (h : Blank blanks) : lex blanks = some [] := by
  induction blanks with
  | nil => rfl
  | cons c cs ih =>
    obtain ⟨hc, hcs⟩ := List.forall_mem_cons.mp h
    have hquote : c ≠ '"' := by
      rintro rfl
      cases hc
    simp only [lex, lexFrom, if_neg hquote, if_pos hc]
    exact ih hcs

theorem lex_blank_append {blanks : List Char} (h : Blank blanks) (rest : List Char) : lex (blanks ++ rest) = lex rest := by
  rw [lex, lexFrom_append blanks rest .plain [] (lex_blank h)]
  simp

/-- Characters that are tokens by themselves. -/
theorem lex_chars {cs : List Char} (h : ∀ c ∈ cs, c ≠ '"' ∧ isBlank c = false) : lex cs = some (cs.map Token.char) := by
  induction cs with
  | nil => rfl
  | cons c cs ih =>
    obtain ⟨⟨hquote, hblank⟩, hcs⟩ := List.forall_mem_cons.mp h
    have hrest : lexFrom .plain cs = some (cs.map Token.char) := ih hcs
    simp [lex, lexFrom, if_neg hquote, hblank, hrest]

theorem lexFrom_body {body value : List Char} (h : Body body value) : ∀ read,
    lexFrom (.inside read) (body ++ ['"']) = some [.str (read.reverse ++ value)] := by
  induction h with
  | nil =>
    intro read
    simp [lexFrom]
  | plain c text value hquote hbackslash hnewline _ ih =>
    intro read
    simp [lexFrom, hquote, hbackslash, hnewline, ih]
  | quote text value _ ih =>
    intro read
    simp [lexFrom, ih]
  | backslash text value _ ih =>
    intro read
    simp [lexFrom, ih]
  | newline text value _ ih =>
    intro read
    simp [lexFrom, ih]

theorem lex_literal {text value : List Char} (h : Literal text value) : lex text = some [.str value] := by
  obtain ⟨body, rfl, hbody⟩ := h
  show lexFrom (.inside []) (body ++ ['"']) = _
  rw [lexFrom_body hbody, List.reverse_nil, List.nil_append]

/-! ## Reading -/

def isChar (c : Char) (token : Token) : Bool := token = .char c

def charsOf (tokens : List Token) : Option (List Char) :=
  tokens.mapM fun
    | .char c => some c
    | .str _ => none

def readStrings : List Token → Option (List (List Char))
  | [.char ']', .char ']'] => some []
  | [.str value, .char ']', .char ']'] => some [value]
  | .str value :: .char ',' :: tokens => (readStrings tokens).map (value :: ·)
  | _ => none

def readNumber (key literal : List Token) : Option Annotation :=
  if literal.getLast? = some (.char ']') then do return .number (← charsOf key) (← charsOf literal.dropLast) else none

/-- What follows the `#`. -/
def readAnnotation : List Token → Option Annotation
  | .char '_' :: .char '[' :: tokens =>
    match tokens.splitOnP (isChar '=') with
    | [key, .char '[' :: values] => do return .strings (← charsOf key) (← readStrings values)
    | _ => none
  | .char '[' :: tokens =>
    match tokens.splitOnP (isChar '=') with
    | [key, [.str value, .char ']']] => do return .string (← charsOf key) value
    | [key, literal] => readNumber key literal
    | _ => none
  | _ => none

def readExample (tokens : List Token) : Option (ReadExample (List Token)) :=
  match tokens.splitOnP (isChar '#') with
  | [] => none
  | program :: annotations => if program = [] then none else do return ⟨program, ← annotations.mapM readAnnotation⟩

/-- What stands between the semicolons; nothing follows the last of them. -/
def readExamples : List (List Token) → Option (List (ReadExample (List Token)))
  | [] => none
  | [last] => if last = [] then some [] else none
  | tokens :: rest => do return (← readExample tokens) :: (← readExamples rest)

def isProgram (tokens : List Token) : Bool :=
  !tokens.isEmpty && tokens.all fun token => !isChar '#' token && !isChar ';' token

def grammar : Grammar (List Token) where
  program text := (lex text).filter isProgram
  dataset text := (lex text).bind fun tokens => readExamples (tokens.splitOnP (isChar ';'))

/-! ## What is written is read -/

theorem charsOf_map (cs : List Char) : charsOf (cs.map Token.char) = some cs := by
  induction cs with
  | nil => rfl
  | cons c cs ih =>
    rw [charsOf] at ih ⊢
    rw [List.map_cons, List.mapM_cons, ih]
    rfl

/-- None of the tokens is one of these characters. -/
def Free (cs : List Char) (tokens : List Token) : Prop := ∀ token ∈ tokens, ∀ c ∈ cs, isChar c token = false

theorem Free.append {cs : List Char} {tokens more : List Token} (h : Free cs tokens) (hmore : Free cs more) :
    Free cs (tokens ++ more) := by
  intro token htoken
  exact (List.mem_append.mp htoken).elim (h token) (hmore token)

theorem Free.cons {cs : List Char} {token : Token} {tokens : List Token} (h : ∀ c ∈ cs, isChar c token = false)
    (hmore : Free cs tokens) : Free cs (token :: tokens) := List.forall_mem_cons.mpr ⟨h, hmore⟩

theorem Free.mono {cs cs' : List Char} {tokens : List Token} (h : Free cs tokens) (hsub : cs' ⊆ cs) : Free cs' tokens :=
  fun token htoken c hc => h token htoken c (hsub hc)

/-- The characters that say where something ends. -/
def marks : List Char := ['#', ';', '=']

/-- And those that are no token by themselves. -/
def stops : List Char := ['"', ' ', '\r', '\n', '\t', Char.ofNat 11] ++ marks

/-- The text of a key or a number is its characters. -/
theorem chars_tokens {isPart : Char → Bool} (hpart : stops.any isPart = false) {cs : List Char}
    (h : ∀ c ∈ cs, isPart c = true) : lex cs = some (cs.map Token.char) ∧ Free marks (cs.map Token.char) := by
  have hne : ∀ c ∈ cs, ∀ d ∈ stops, c ≠ d := by
    intro c hc d hd hcd
    subst hcd
    exact List.any_eq_false.mp hpart c hd (h c hc)
  constructor
  · apply lex_chars
    intro c hc
    have hstops := hne c hc
    simp only [stops, List.cons_append, List.forall_mem_cons] at hstops
    simp [isBlank, hstops]
  · intro token htoken d hd
    obtain ⟨c, hc, rfl⟩ := List.mem_map.mp htoken
    have hcd : c ≠ d := hne c hc d (List.mem_append_right _ hd)
    simp [isChar, hcd]

theorem literals_tokens {texts : List Char} {values : List (List Char)} (h : Literals texts values) :
    ∃ tokens, lex texts = some tokens ∧ Free marks tokens ∧
      readStrings (tokens ++ [.char ']', .char ']']) = some values := by
  have hstr : ∀ value : List Char, ∀ c ∈ marks, isChar c (.str value) = false := by
    intro value c _
    simp [isChar]
  induction h with
  | nil => exact ⟨[], rfl, by simp [Free], rfl⟩
  | single text value htext => exact ⟨[.str value], lex_literal htext, .cons (hstr value) (by simp [Free]), rfl⟩
  | cons text value blanks texts v values htext hblanks _ ih =>
    obtain ⟨tokens, htokens, hfree, hread⟩ := ih
    refine ⟨.str value :: .char ',' :: tokens, ?_, .cons (hstr value) (.cons (by simp [marks, isChar]) hfree), ?_⟩
    · have hcomma : lex [','] = some [.char ','] := rfl
      exact lex_append (lex_literal htext) (lex_append hcomma (lex_append (lex_blank hblanks) htokens))
    · show (readStrings (tokens ++ [.char ']', .char ']'])).map (value :: ·) = _
      rw [hread, Option.map_some]

theorem key_tokens {key : List Char} (h : IsKey key) :
    lex key = some (key.map Token.char) ∧ Free marks (key.map Token.char) :=
  chars_tokens rfl h.2

theorem numeral_tokens {literal : List Char} (h : IsNumeral literal) :
    lex literal = some (literal.map Token.char) ∧ Free marks (literal.map Token.char) :=
  chars_tokens rfl h.2

/-- The opening, a key and a value: what ends the annotation is in none of them. -/
theorem free_annotation {opening value : List Token} {key : List Char} (hopening : Free ['#', ';'] opening)
    (hkey : Free marks (key.map Token.char)) (hvalue : Free marks value) :
    Free ['#', ';'] (opening ++ (key.map Token.char ++ .char '=' :: value)) := by
  have hends : (['#', ';'] : List Char) ⊆ marks := by simp [marks]
  exact hopening.append ((hkey.mono hends).append (.cons (by simp [isChar]) (hvalue.mono hends)))

theorem splitOnP_equals {key : List Char} {value : List Token} (hkey : Free marks (key.map Token.char))
    (hvalue : Free marks value) :
    (key.map Token.char ++ .char '=' :: value).splitOnP (isChar '=') = [key.map Token.char, value] := by
  have hequals : '=' ∈ marks := by simp [marks]
  rw [List.splitOnP_append_cons_of_forall_mem (fun token htoken => hkey token htoken '=' hequals) _ (by simp [isChar]),
    List.splitOnP_eq_singleton fun token htoken => hvalue token htoken '=' hequals]

theorem annotationText_tokens {text : List Char} {a : Annotation} (h : AnnotationText text a) :
    ∃ tokens, lex text = some (.char '#' :: tokens) ∧ Free ['#', ';'] tokens ∧ readAnnotation tokens = some a := by
  have hclose : Free marks [.char ']'] := .cons (by simp [marks, isChar]) (by simp [Free])
  have hopen : Free ['#', ';'] [.char '['] := .cons (by simp [isChar]) (by simp [Free])
  have hlexOpen : lex "#[".toList = some [.char '#', .char '['] := rfl
  have hlexEqual : lex ['='] = some [.char '='] := rfl
  have hlexClose : lex [']'] = some [.char ']'] := rfl
  cases h with
  | strings key texts values hkey htexts =>
    obtain ⟨hlex, hfree⟩ := key_tokens hkey
    obtain ⟨tokens, htokens, hfree', hread⟩ := literals_tokens htexts
    have hvalue : Free marks (.char '[' :: (tokens ++ [.char ']', .char ']'])) :=
      .cons (by simp [marks, isChar]) (hfree'.append (hclose.append hclose))
    have hlexOpens : lex "#_[".toList = some [.char '#', .char '_', .char '['] := rfl
    have hlexEquals : lex "=[".toList = some [.char '=', .char '['] := rfl
    have hlexCloses : lex "]]".toList = some [.char ']', .char ']'] := rfl
    refine ⟨[Token.char '_', Token.char '['] ++
        (key.map Token.char ++ Token.char '=' :: Token.char '[' :: (tokens ++ [Token.char ']', Token.char ']'])),
      lex_append hlexOpens (lex_append hlex (lex_append hlexEquals (lex_append htokens hlexCloses))),
      free_annotation (.cons (by simp [isChar]) hopen) hfree hvalue, ?_⟩
    simp [ readAnnotation, splitOnP_equals hfree hvalue, charsOf_map, hread]
  | number key literal hkey hliteral =>
    obtain ⟨hlex, hfree⟩ := key_tokens hkey
    obtain ⟨hlexLiteral, hfreeLiteral⟩ := numeral_tokens hliteral
    have hvalue : Free marks (literal.map Token.char ++ [.char ']']) := hfreeLiteral.append hclose
    refine ⟨[Token.char '['] ++ (key.map Token.char ++ Token.char '=' :: (literal.map Token.char ++ [Token.char ']'])),
      lex_append hlexOpen (lex_append hlex (lex_append hlexEqual (lex_append hlexLiteral hlexClose))),
      free_annotation hopen hfree hvalue, ?_⟩
    simp only [ readAnnotation, List.cons_append, List.nil_append, splitOnP_equals hfree hvalue]
    have hread : readNumber (key.map Token.char) (literal.map Token.char ++ [.char ']']) = some (.number key literal) := by
      simp [readNumber, charsOf_map]
    obtain ⟨c, cs, rfl⟩ := List.exists_cons_of_ne_nil hliteral.1
    exact hread
  | string key text value hkey htext =>
    obtain ⟨hlex, hfree⟩ := key_tokens hkey
    have hvalue : Free marks [.str value, .char ']'] := .cons (by simp [marks, isChar]) hclose
    refine ⟨[Token.char '['] ++ (key.map Token.char ++ Token.char '=' :: [Token.str value, Token.char ']']),
      lex_append hlexOpen (lex_append hlex (lex_append hlexEqual (lex_append (lex_literal htext) hlexClose))),
      free_annotation hopen hfree hvalue, ?_⟩
    simp [ readAnnotation, splitOnP_equals hfree hvalue, charsOf_map]

theorem annotations_tokens {texts : List Char} {annotations : List Annotation} (h : Annotations texts annotations) :
    ∃ parts : List (List Token), lex texts = some (parts.flatMap (.char '#' :: ·)) ∧ (∀ part ∈ parts, Free ['#', ';'] part) ∧
      parts.mapM readAnnotation = some annotations := by
  induction h with
  | nil blanks hblanks => exact ⟨[], lex_blank hblanks, by simp, rfl⟩
  | cons blanks text texts a annotations hblanks htext _ ih =>
    obtain ⟨part, hlex, hfree, hread⟩ := annotationText_tokens htext
    obtain ⟨parts, hlexes, hfrees, hreads⟩ := ih
    refine ⟨part :: parts, ?_, List.forall_mem_cons.mpr ⟨hfree, hfrees⟩, ?_⟩
    · rw [lex_blank_append hblanks]
      exact lex_append hlex hlexes
    · rw [List.mapM_cons, hread, hreads]
      rfl

theorem splitOnP_parts {program : List Token} (hprogram : Free ['#'] program) {parts : List (List Token)}
    (h : ∀ part ∈ parts, Free ['#'] part) :
    (program ++ parts.flatMap (.char '#' :: ·)).splitOnP (isChar '#') = program :: parts := by
  induction parts generalizing program with
  | nil =>
    rw [List.flatMap_nil, List.append_nil]
    exact List.splitOnP_eq_singleton fun token htoken => hprogram token htoken '#' List.mem_cons_self
  | cons part parts ih =>
    obtain ⟨hpart, hparts⟩ := List.forall_mem_cons.mp h
    rw [List.flatMap_cons, List.cons_append, List.splitOnP_append_cons_of_forall_mem
      (fun token htoken => hprogram token htoken '#' List.mem_cons_self) _ (by simp [isChar]), ih hpart hparts]

theorem free_parts {parts : List (List Token)} (h : ∀ part ∈ parts, Free ['#', ';'] part) :
    Free [';'] (parts.flatMap (.char '#' :: ·)) := by
  intro token htoken
  obtain ⟨part, hpart, htoken⟩ := List.mem_flatMap.mp htoken
  exact (Free.cons (by simp [isChar]) ((h part hpart).mono (by simp))) token htoken

theorem isProgram_free {tokens : List Token} (h : isProgram tokens = true) : tokens ≠ [] ∧ Free ['#', ';'] tokens := by
  simp only [isProgram, Bool.and_eq_true, Bool.not_eq_true', List.isEmpty_eq_false_iff, List.all_eq_true] at h
  refine ⟨h.1, fun token htoken => ?_⟩
  simpa using h.2 token htoken

theorem documented : Documented grammar where
  empty := rfl
  nil text htext := by
    show (lex text).bind _ = _
    rw [lex_blank htext]
    rfl
  cons blanks text program texts annotations rest examples hblanks htext htexts hrest := by
    obtain ⟨hlex, hprogram⟩ := Option.filter_eq_some_iff.mp htext
    obtain ⟨hne, hfree⟩ := isProgram_free hprogram
    obtain ⟨parts, hlexes, hfrees, hreads⟩ := annotations_tokens htexts
    obtain ⟨more, hmore, hread⟩ := Option.bind_eq_some_iff.mp hrest
    have hend : lex [';'] = some [.char ';'] := rfl
    have hall : lex (blanks ++ (text ++ '\n' :: (texts ++ ';' :: rest))) =
        some (program ++ parts.flatMap (.char '#' :: ·) ++ .char ';' :: more) := by
      have hannotations : lex ('\n' :: (texts ++ ';' :: rest)) =
          some (parts.flatMap (.char '#' :: ·) ++ .char ';' :: more) := by
        show lex (texts ++ ';' :: rest) = _
        exact lex_append hlexes (lex_append hend hmore)
      rw [lex_blank_append hblanks, lex_append hlex hannotations, List.append_assoc]
    have hexample : readExample (program ++ parts.flatMap (.char '#' :: ·)) = some ⟨program, annotations⟩ := by
      rw [readExample, splitOnP_parts (hfree.mono (by simp)) fun part hpart => (hfrees part hpart).mono (by simp)]
      show (if program = [] then none else _) = _
      rw [if_neg hne, hreads]
      rfl
    have hsplit : (program ++ parts.flatMap (.char '#' :: ·) ++ .char ';' :: more).splitOnP (isChar ';') =
        (program ++ parts.flatMap (.char '#' :: ·)) :: more.splitOnP (isChar ';') := by
      apply List.splitOnP_append_cons_of_forall_mem
      · intro token htoken
        exact ((hfree.mono (by simp)).append (free_parts hfrees)) token htoken ';' List.mem_cons_self
      · simp [isChar]
    show (lex (blanks ++ (text ++ '\n' :: (texts ++ ';' :: rest)))).bind _ = _
    rw [hall, Option.bind_some, hsplit]
    obtain ⟨first, others, hothers⟩ := List.exists_cons_of_ne_nil (List.splitOnP_ne_nil (isChar ';') more)
    rw [hothers] at hread ⊢
    show (do return (← readExample _) :: (← readExamples (first :: others))) = _
    rw [hexample, hread]
    rfl

end GenieCloud.Thingpedia.DatasetTokens
