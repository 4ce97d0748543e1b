/-
  GenieCloud.Util.Utterance — the placeholders of an utterance (`split`, `splitParams` and
  `PARAM_REGEX` of `util/tokenize.ts`, `validateUtterance` of `util/validation.ts`).

  An utterance names its arguments as `$name`, `${name}` or `${name:option}`; `$$` is a
  dollar. `Placeholders` reads an utterance by this grammar from the left; `split` finds
  the same placeholders with its regular expression (`found_iff`), and trimming the
  utterance loses none.

  `validateUtterance` asks whether a name is declared with `in`, which also finds the
  members that every object inherits: `${toString}` passes without being declared
  (`validateUtterance_iff`).
-/

import Mathlib.Data.List.TakeWhile
import GenieCloud.Lib.Result
import GenieCloud.Thingpedia.Dataset

namespace GenieCloud.Util.Utterance

open GenieCloud.Lib.Result
open Thingpedia (isSpace trim)

/-! ## The splitter -/

/-- `[a-zA-Z0-9_]` -/
def word (c : Char) : Bool := c.isAlphanum || c == '_'

/-- `[a-zA-Z0-9_-]` -/
def optionChar (c : Char) : Bool := word c || c == '-'

/-- A match of the expression: the text and the three groups. -/
structure Match where
  text : List Char
  param1 : Option (List Char)
  param2 : Option (List Char)
  opt : Option (List Char)
  deriving DecidableEq, Repr

/-- After `${`. -/
def braced (cs : List Char) : Option (Match × List Char) :=
  let name := cs.takeWhile word
  if name.isEmpty then none
  else
    match cs.dropWhile word with
    | '}' :: rest => some (⟨'$' :: '{' :: name ++ ['}'], none, some name, none⟩, rest)
    | ':' :: cs =>
      let opt := cs.takeWhile optionChar
      if opt.isEmpty then none
      else
        match cs.dropWhile optionChar with
        | '}' :: rest => some (⟨'$' :: '{' :: name ++ ':' :: opt ++ ['}'], none, some name, some opt⟩, rest)
        | _ => none
    | _ => none

/-- `PARAM_REGEX` at the start of a text, and what follows the match. -/
def paramRegex : List Char → Option (Match × List Char)
  | '$' :: cs =>
    match cs with
    | '$' :: rest => some (⟨['$', '$'], none, none, none⟩, rest)
    | '{' :: cs => braced cs
    | cs =>
      let name := cs.takeWhile word
      if name.isEmpty then none else some (⟨'$' :: name, some name, none, none⟩, cs.dropWhile word)
  | _ => none

/-- The first match, what stands before it and what follows. -/
def exec : List Char → Option (List Char × Match × List Char)
  | [] => none
  | c :: cs =>
    match paramRegex (c :: cs) with
    | some (m, rest) => some ([], m, rest)
    | none => (exec cs).map fun x => (c :: x.1, x.2)

inductive Chunk
  | text (s : List Char)
  | placeholder (m : Match)
  deriving DecidableEq, Repr

/-- Every match takes two characters or more. -/
def splitLoop : Nat → List Char → List Chunk
  | 0, _ => []
  | fuel + 1, s =>
    match exec s with
    | none => if s.isEmpty then [] else [.text s]
    | some (before, m, rest) => (if before.isEmpty then [] else [.text before]) ++ .placeholder m :: splitLoop fuel rest

def splitParams (utterance : List Char) : List Chunk := splitLoop (utterance.length + 1) utterance

/-! ## The validation -/

/-- The members of `Object.prototype`. -/
def objectPrototype : List String :=
  ["constructor", "__defineGetter__", "__defineSetter__", "hasOwnProperty", "__lookupGetter__", "__lookupSetter__",
    "isPrototypeOf", "propertyIsEnumerable", "toString", "valueOf", "__proto__", "toLocaleString"]

/-- `param in args`, on a plain object with these keys. -/
def isIn (param : String) (args : List String) : Bool := args.contains param || objectPrototype.contains param

/-- `/_{4}/` -/
def hasBlanks (utterance : List Char) : Bool := utterance.tails.any fun t => "____".toList.isPrefixOf t

/-- The body of the loop over the chunks: the placeholders so far. -/
def checkChunk (args : List String) (placeholders : List String) (chunk : Chunk) : Except String (List String) :=
  match chunk with
  | .text _ => pure placeholders
  | .placeholder m =>
    if m.text == ['$', '$'] then pure placeholders
    else
      let param := String.ofList ((m.param1.or m.param2).getD [])
      if !isIn param args then throw s!"Invalid placeholder {param}"
      else if m.opt.any fun opt => opt != "const".toList && opt != "no-undefined".toList then
        throw s!"Invalid placeholder option {String.ofList (m.opt.getD [])} for {param}"
      else pure (placeholders ++ [param])

def checkArg (placeholders : List String) (arg : String) : Except String Unit :=
  if !placeholders.contains arg then throw s!"Missing placeholder for argument {arg}" else pure ()

def validateUtterance (args : List String) (utterance : String) : Except String Unit := do
  if hasBlanks utterance.toList then
    throw "Do not use blanks (4 underscores or more) in utterance, use placeholders"
  let placeholders ← (splitParams (trim utterance.toList)).foldlM (checkChunk args) []
  args.forM (checkArg placeholders)

/-! ## The grammar -/

structure Placeholder where
  name : List Char
  option : Option (List Char)
  deriving DecidableEq, Repr

/-- What a text begins with, and what follows; `$$` is no placeholder. -/
inductive Reads : List Char → Option Placeholder → List Char → Prop
  | dollar (rest : List Char) : Reads ('$' :: '$' :: rest) none rest
  | short (name rest : List Char) : name ≠ [] → (∀ c ∈ name, word c = true) → (∀ c, rest.head? = some c → word c = false) →
      Reads ('$' :: (name ++ rest)) (some ⟨name, none⟩) rest
  | long (name rest : List Char) : name ≠ [] → (∀ c ∈ name, word c = true) →
      Reads ('$' :: '{' :: (name ++ '}' :: rest)) (some ⟨name, none⟩) rest
  | option (name opt rest : List Char) : name ≠ [] → (∀ c ∈ name, word c = true) → opt ≠ [] → (∀ c ∈ opt, optionChar c = true) →
      Reads ('$' :: '{' :: (name ++ ':' :: (opt ++ '}' :: rest))) (some ⟨name, some opt⟩) rest

/-- The placeholders of a text, from the left. -/
inductive Placeholders : List Char → List Placeholder → Prop
  | nil : Placeholders [] []
  | read {s rest : List Char} {p : Option Placeholder} {ps : List Placeholder} :
      Reads s p rest → Placeholders rest ps → Placeholders s (p.toList ++ ps)
  | text (c : Char) {s : List Char} {ps : List Placeholder} :
      (∀ p rest, ¬Reads (c :: s) p rest) → Placeholders s ps → Placeholders (c :: s) ps

example : splitParams "a $x ${y:const}$$".toList =
    [.text "a ".toList, .placeholder ⟨"$x".toList, some ['x'], none, none⟩, .text [' '],
      .placeholder ⟨"${y:const}".toList, none, some ['y'], some "const".toList⟩,
      .placeholder ⟨['$', '$'], none, none, none⟩] := by decide

/-! ## The expression reads the grammar -/

/-- What a match says. -/
def Match.placeholder (m : Match) : Option Placeholder := (m.param1.or m.param2).map fun name => ⟨name, m.opt⟩

theorem takeWhile_all {p : Char → Bool} {l : List Char} (rest : List Char) (hl : ∀ c ∈ l, p c = true)
    (hr : ∀ c, rest.head? = some c → p c = false) :
    (l ++ rest).takeWhile p = l ∧ (l ++ rest).dropWhile p = rest := by
  have hrest : rest.takeWhile p = [] ∧ rest.dropWhile p = rest := by
    rcases rest with _ | ⟨c, rest⟩
    · exact ⟨rfl, rfl⟩
    · have := hr c rfl
      exact ⟨List.takeWhile_cons_of_neg (by simp [this]), List.dropWhile_cons_of_neg (by simp [this])⟩
  rw [List.takeWhile_append_of_pos hl, List.dropWhile_append_of_pos hl, hrest.1, hrest.2, List.append_nil]
  exact ⟨rfl, rfl⟩

theorem head_dropWhile {p : Char → Bool} {l : List Char} {c : Char} (h : (l.dropWhile p).head? = some c) : p c = false := by
  have hnot := List.head?_dropWhile_not p l
  rw [h] at hnot
  simpa using hnot

theorem word_special {c : Char} (h : c = '}' ∨ c = ':' ∨ c = '{' ∨ c = '$') : word c = false := by
  rcases h with rfl | rfl | rfl | rfl <;> decide

/-- A match is a reading. -/
theorem reads_of_braced {cs rest : List Char} {m : Match} (h : braced cs = some (m, rest)) :
    Reads ('$' :: '{' :: cs) m.placeholder rest ∧ m.placeholder ≠ none ∧ m.text ≠ ['$', '$'] := by
  rw [braced] at h
  dsimp only at h
  split at h
  · cases h
  · next hname =>
    have hne : cs.takeWhile word ≠ [] := fun he => hname (by rw [he]; rfl)
    have hcs := (List.takeWhile_append_dropWhile (p := word) (l := cs)).symm
    split at h
    · next rest' hdrop =>
      cases h
      rw [hdrop] at hcs
      refine ⟨?_, nofun, by simp⟩
      have := Reads.long (cs.takeWhile word) rest hne (fun _ => List.mem_takeWhile_imp)
      rwa [← hcs] at this
    · next cs' hdrop =>
      split at h
      · cases h
      · next hopt =>
        have hne' : cs'.takeWhile optionChar ≠ [] := fun he => hopt (by rw [he]; rfl)
        have hcs' := (List.takeWhile_append_dropWhile (p := optionChar) (l := cs')).symm
        split at h
        · next rest' hdrop' =>
          cases h
          rw [hdrop'] at hcs'
          rw [hdrop] at hcs
          refine ⟨?_, nofun, by simp⟩
          have := Reads.option (cs.takeWhile word) (cs'.takeWhile optionChar) rest hne (fun _ => List.mem_takeWhile_imp) hne'
            fun _ => List.mem_takeWhile_imp
          rwa [← hcs', ← hcs] at this
        · cases h
    · cases h

theorem reads_of_paramRegex {s rest : List Char} {m : Match} (h : paramRegex s = some (m, rest)) :
    Reads s m.placeholder rest ∧ (m.placeholder = none ↔ m.text = ['$', '$']) := by
  unfold paramRegex at h
  split at h
  · next cs =>
    split at h
    · cases h
      exact ⟨Reads.dollar _, iff_of_true rfl rfl⟩
    · obtain ⟨hr, hp, ht⟩ := reads_of_braced h
      exact ⟨hr, iff_of_false hp ht⟩
    · next _ hdollar hbrace =>
      dsimp only at h
      split at h
      · cases h
      · next hname =>
        cases h
        have hne : cs.takeWhile word ≠ [] := fun he => hname (by rw [he]; rfl)
        refine ⟨?_, iff_of_false nofun ?_⟩
        · have := Reads.short (cs.takeWhile word) (cs.dropWhile word) hne (fun _ => List.mem_takeWhile_imp)
            fun c hc => head_dropWhile hc
          rwa [List.takeWhile_append_dropWhile] at this
        · intro ht
          have hmem : '$' ∈ cs.takeWhile word := by
            rw [(List.cons.inj ht).2]
            exact List.mem_singleton_self _
          exact absurd (List.mem_takeWhile_imp hmem) (by decide)
  · cases h

/-- A reading is found. -/
theorem paramRegex_of_reads {s rest : List Char} {p : Option Placeholder} (h : Reads s p rest) :
    ∃ m, paramRegex s = some (m, rest) ∧ m.placeholder = p := by
  cases h with
  | dollar => exact ⟨_, rfl, rfl⟩
  | short name _ hne hw hr =>
    obtain ⟨ht, hd⟩ := takeWhile_all rest hw hr
    obtain ⟨c, cs, rfl⟩ := List.exists_cons_of_ne_nil hne
    have hc := hw c (List.mem_cons_self ..)
    refine ⟨⟨'$' :: c :: cs, some (c :: cs), none, none⟩, ?_, rfl⟩
    rw [paramRegex]
    · simp only [ht, hd, List.isEmpty_cons, Bool.false_eq_true, if_false]
    · intro rest' hs
      rw [(List.cons.inj hs).1] at hc
      exact absurd hc (by decide)
    · intro rest' hs
      rw [(List.cons.inj hs).1] at hc
      exact absurd hc (by decide)
  | long name rest hne hw =>
    obtain ⟨ht, hd⟩ := takeWhile_all ('}' :: rest) hw fun c hc => word_special (Or.inl (Option.some.inj hc).symm)
    have hempty : name.isEmpty = false := by rwa [List.isEmpty_eq_false_iff]
    refine ⟨⟨'$' :: '{' :: name ++ ['}'], none, some name, none⟩, ?_, rfl⟩
    rw [paramRegex, braced, ht, hd, hempty]
    rfl
  | option name opt rest hne hw hone how =>
    obtain ⟨ht, hd⟩ := takeWhile_all (':' :: (opt ++ '}' :: rest)) hw fun c hc =>
      word_special (Or.inr (Or.inl (Option.some.inj hc).symm))
    obtain ⟨ht', hd'⟩ := takeWhile_all ('}' :: rest) how fun c hc => by rw [← Option.some.inj hc]; decide
    have hempty : name.isEmpty = false := by rwa [List.isEmpty_eq_false_iff]
    have hempty' : opt.isEmpty = false := by rwa [List.isEmpty_eq_false_iff]
    refine ⟨⟨'$' :: '{' :: name ++ ':' :: opt ++ ['}'], none, some name, some opt⟩, ?_, rfl⟩
    rw [paramRegex, braced, ht, hd, hempty]
    simp only [ht', hd', hempty', Bool.false_eq_true, if_false]

/-! ## The splitter finds the placeholders -/

theorem paramRegex_none {s : List Char} (h : paramRegex s = none) (p : Option Placeholder) (rest : List Char) :
    ¬Reads s p rest := by
  intro hr
  obtain ⟨m, hm, -⟩ := paramRegex_of_reads hr
  rw [h] at hm
  cases hm

theorem Reads.length_lt {s rest : List Char} {p : Option Placeholder} (h : Reads s p rest) : rest.length < s.length := by
  cases h with
  | dollar => simp only [List.length_cons]; omega
  | short => simp only [List.length_cons, List.length_append]; omega
  | long => simp only [List.length_cons, List.length_append]; omega
  | option => simp only [List.length_cons, List.length_append]; omega

theorem Reads.inj {s rest rest' : List Char} {p p' : Option Placeholder} (h : Reads s p rest) (h' : Reads s p' rest') :
    p = p' ∧ rest = rest' := by
  obtain ⟨m, hm, rfl⟩ := paramRegex_of_reads h
  obtain ⟨m', hm', rfl⟩ := paramRegex_of_reads h'
  rw [hm, Option.some.injEq, Prod.mk.injEq] at hm'
  exact ⟨congrArg _ hm'.1, hm'.2⟩

theorem Placeholders.inj {s : List Char} {ps ps' : List Placeholder} (h : Placeholders s ps)
    (h' : Placeholders s ps') : ps = ps' := by
  induction h generalizing ps' with
  | nil =>
    cases h' with
    | nil => rfl
    | read hr _ => cases hr
  | read hr _ ih =>
    cases h' with
    | nil => cases hr
    | read hr' hp =>
      obtain ⟨rfl, rfl⟩ := hr.inj hr'
      rw [ih hp]
    | text c hno _ => exact absurd hr (hno _ _)
  | text c hno _ ih =>
    cases h' with
    | read hr _ => exact absurd hr (hno _ _)
    | text _ _ hp => exact ih hp

theorem exec_none {s : List Char} (h : exec s = none) : Placeholders s [] := by
  induction s with
  | nil => exact .nil
  | cons c cs ih =>
    rw [exec] at h
    split at h
    · cases h
    · next hno => exact .text c (paramRegex_none hno) (ih (Option.map_eq_none_iff.mp h))

theorem exec_some {s before rest : List Char} {m : Match} (h : exec s = some (before, m, rest)) :
    rest.length < s.length ∧ (m.placeholder = none ↔ m.text = ['$', '$']) ∧
      ∀ ps, Placeholders rest ps → Placeholders s (m.placeholder.toList ++ ps) := by
  induction s generalizing before with
  | nil => cases h
  | cons c cs ih =>
    rw [exec] at h
    split at h
    · next hm =>
      cases h
      obtain ⟨hr, hd⟩ := reads_of_paramRegex hm
      exact ⟨hr.length_lt, hd, fun ps hp => .read hr hp⟩
    · next hno =>
      obtain ⟨⟨b, x⟩, hx, he⟩ := Option.map_eq_some_iff.mp h
      cases he
      obtain ⟨hlt, hd, hps⟩ := ih hx
      exact ⟨Nat.lt_succ_of_lt hlt, hd, fun ps hp => .text c (paramRegex_none hno) (hps ps hp)⟩

/-- The placeholders of the chunks. -/
def found : List Chunk → List Placeholder
  | [] => []
  | .text _ :: chunks => found chunks
  | .placeholder m :: chunks => m.placeholder.toList ++ found chunks

/-- Matches without a placeholder are `$$`. -/
def Dollars (chunks : List Chunk) : Prop := ∀ m, .placeholder m ∈ chunks → (m.placeholder = none ↔ m.text = ['$', '$'])

theorem splitLoop_spec {fuel : Nat} {s : List Char} (h : s.length < fuel) :
    Placeholders s (found (splitLoop fuel s)) ∧ Dollars (splitLoop fuel s) := by
  induction fuel generalizing s with
  | zero => omega
  | succ fuel ih =>
    rw [splitLoop]
    split
    · next hno =>
      have hp := exec_none hno
      split
      · exact ⟨hp, fun m hm => absurd hm List.not_mem_nil⟩
      · exact ⟨hp, fun m hm => absurd (List.mem_singleton.mp hm) nofun⟩
    · next before m rest hm =>
      obtain ⟨hlt, hd, hps⟩ := exec_some hm
      obtain ⟨hrest, hds⟩ := ih (s := rest) (by omega)
      have hcons : Dollars (.placeholder m :: splitLoop fuel rest) := by
        intro m' hm'
        rcases List.mem_cons.mp hm' with he | hm'
        · cases he
          exact hd
        · exact hds m' hm'
      split
      · exact ⟨hps _ hrest, hcons⟩
      · refine ⟨hps _ hrest, ?_⟩
        intro m' hm'
        rcases List.mem_cons.mp hm' with he | hm'
        · cases he
        · exact hcons m' hm'

/-- The placeholders found are those of the grammar. -/
theorem found_iff (s : List Char) (ps : List Placeholder) : Placeholders s ps ↔ found (splitParams s) = ps := by
  have h := (splitLoop_spec (Nat.lt_succ_self s.length)).1
  constructor
  · exact fun hp => h.inj hp
  · intro he
    rw [← he]
    exact h

/-! ## Trimming -/

theorem space_range {c : Char} (h : isSpace c = true) : c.toNat ≤ 32 ∨ 160 ≤ c.toNat := by
  simp only [isSpace, Bool.or_eq_true, List.contains_iff_mem, List.mem_cons, List.not_mem_nil, or_false, Bool.and_eq_true,
    decide_eq_true_eq] at h
  omega

theorem word_range {c : Char} (h : word c = true) : 48 ≤ c.toNat ∧ c.toNat ≤ 122 := by
  rw [word, Bool.or_eq_true, beq_iff_eq] at h
  rcases h with h | rfl
  · exact GenieCloud.Lib.Utf16.toNat_of_isAlphanum h
  · decide

/-- No character of a placeholder is a space. -/
theorem not_space {c : Char} (h : word c = true ∨ optionChar c = true ∨ c = '$' ∨ c = '{' ∨ c = '}' ∨ c = ':') :
    isSpace c = false := by
  rw [Bool.eq_false_iff]
  intro hs
  have hr := space_range hs
  rcases h with h | h | rfl | rfl | rfl | rfl
  · have := word_range h
    omega
  · rw [optionChar, Bool.or_eq_true, beq_iff_eq] at h
    rcases h with h | rfl
    · have := word_range h
      omega
    · revert hr; decide
  · revert hr; decide
  · revert hr; decide
  · revert hr; decide
  · revert hr; decide

theorem prefix_of_append {s ws : List Char} (t rest : List Char) (h : s ++ ws = t ++ rest) (ht : ∀ c ∈ t, isSpace c = false)
    (hw : ∀ c ∈ ws, isSpace c = true) : ∃ r, s = t ++ r ∧ rest = r ++ ws := by
  rcases List.append_eq_append_iff.mp h with ⟨as, hs, hr⟩ | ⟨bs, hs, hr⟩
  · rcases as with _ | ⟨c, as⟩
    · exact ⟨[], by rw [hs, List.append_nil, List.append_nil], by rw [List.nil_append, hr, List.nil_append]⟩
    · have h1 := ht c (hs ▸ List.mem_append_right _ (List.mem_cons_self ..))
      rw [hw c (hr ▸ List.mem_append_left _ (List.mem_cons_self ..))] at h1
      cases h1
  · exact ⟨bs, hs, hr⟩

theorem Reads.append {s rest : List Char} {p : Option Placeholder} (h : Reads s p rest) {ws : List Char}
    (hw : ∀ c ∈ ws, isSpace c = true) : Reads (s ++ ws) p (rest ++ ws) := by
  cases h with
  | dollar => exact .dollar _
  | short name rest hne hname hr =>
    rw [List.cons_append, List.append_assoc]
    refine .short name _ hne hname ?_
    intro c hc
    rcases rest with _ | ⟨d, rest⟩
    · have hs := hw c (List.mem_of_mem_head? hc)
      cases hword : word c with
      | false => rfl
      | true =>
        rw [not_space (Or.inl hword)] at hs
        cases hs
    · exact hr c hc
  | long name rest hne hname =>
    have := Reads.long name (rest ++ ws) hne hname
    simpa using this
  | option name opt rest hne hname hone hopt =>
    have := Reads.option name opt (rest ++ ws) hne hname hone hopt
    simpa using this

theorem Reads.of_append {s ws rest : List Char} {p : Option Placeholder} (h : Reads (s ++ ws) p rest)
    (hw : ∀ c ∈ ws, isSpace c = true) : ∃ r, Reads s p r := by
  generalize hx : s ++ ws = x at h
  cases h with
  | dollar =>
    obtain ⟨r, rfl, -⟩ := prefix_of_append ['$', '$'] _ hx (by
      intro c hc
      simp only [List.mem_cons, List.not_mem_nil, or_false, or_self] at hc
      exact not_space (by simp [hc])) hw
    exact ⟨r, .dollar r⟩
  | short name _ hne hname hr =>
    obtain ⟨r, rfl, rfl⟩ := prefix_of_append ('$' :: name) _ hx (by
      intro c hc
      rcases List.mem_cons.mp hc with rfl | hc
      · exact not_space (by simp)
      · exact not_space (Or.inl (hname c hc))) hw
    refine ⟨r, .short name r hne hname ?_⟩
    intro c hc
    rcases r with _ | ⟨d, r⟩
    · cases hc
    · exact hr c hc
  | long name rest hne hname =>
    obtain ⟨r, rfl, -⟩ := prefix_of_append ('$' :: '{' :: (name ++ ['}'])) rest (by simpa using hx) (by
      intro c hc
      simp only [List.mem_cons, List.mem_append, List.not_mem_nil, or_false] at hc
      rcases hc with rfl | rfl | hc | rfl
      · exact not_space (by simp)
      · exact not_space (by simp)
      · exact not_space (Or.inl (hname c hc))
      · exact not_space (by simp)) hw
    refine ⟨r, ?_⟩
    have := Reads.long name r hne hname
    simpa using this
  | option name opt rest hne hname hone hopt =>
    obtain ⟨r, rfl, -⟩ := prefix_of_append ('$' :: '{' :: (name ++ ':' :: (opt ++ ['}']))) rest (by simpa using hx) (by
      intro c hc
      simp only [List.mem_cons, List.mem_append, List.not_mem_nil, or_false] at hc
      rcases hc with rfl | rfl | hc | rfl | hc | rfl
      · exact not_space (by simp)
      · exact not_space (by simp)
      · exact not_space (Or.inl (hname c hc))
      · exact not_space (by simp)
      · exact not_space (Or.inr (Or.inl (hopt c hc)))
      · exact not_space (by simp)) hw
    refine ⟨r, ?_⟩
    have := Reads.option name opt r hne hname hone hopt
    simpa using this

theorem not_reads {c : Char} (h : isSpace c = true) (s : List Char) (p : Option Placeholder) (rest : List Char) :
    ¬Reads (c :: s) p rest := by
  intro hr
  have hc : c = '$' := by cases hr <;> rfl
  rw [not_space (by simp [hc])] at h
  cases h

theorem Placeholders.spaces {s : List Char} {ps : List Placeholder} (h : Placeholders s ps) {ws : List Char}
    (hw : ∀ c ∈ ws, isSpace c = true) : Placeholders (ws ++ s) ps := by
  induction ws with
  | nil => exact h
  | cons c ws ih => exact .text c (not_reads (hw c (List.mem_cons_self ..)) _) (ih fun d hd => hw d (List.mem_cons_of_mem _ hd))

theorem Placeholders.append {s : List Char} {ps : List Placeholder} (h : Placeholders s ps) {ws : List Char}
    (hw : ∀ c ∈ ws, isSpace c = true) : Placeholders (s ++ ws) ps := by
  induction h with
  | nil =>
    have := Placeholders.nil.spaces hw
    rwa [List.append_nil] at this
  | read hr _ ih => exact .read (hr.append hw) ih
  | text c hno _ ih =>
    refine .text c ?_ ih
    intro p rest hr
    obtain ⟨r, hr⟩ := Reads.of_append (s := c :: _) hr hw
    exact hno p r hr

/-- Trimming loses no placeholder. -/
theorem placeholders_trim {s : List Char} {ps : List Placeholder} (h : Placeholders (trim s) ps) : Placeholders s ps := by
  have hmid : s.dropWhile isSpace = trim s ++ ((s.dropWhile isSpace).reverse.takeWhile isSpace).reverse := by
    have := List.takeWhile_append_dropWhile (p := isSpace) (l := (s.dropWhile isSpace).reverse)
    rw [trim, ← List.reverse_append, this, List.reverse_reverse]
  have hs : s = s.takeWhile isSpace ++ s.dropWhile isSpace := List.takeWhile_append_dropWhile.symm
  rw [hs, hmid]
  refine Placeholders.spaces (Placeholders.append h ?_) fun _ => List.mem_takeWhile_imp
  intro c hc
  exact List.mem_takeWhile_imp (List.mem_reverse.mp hc)

/-! ## What is accepted -/

/-- No option, or one of the two. -/
def OptionAllowed (p : Placeholder) : Prop := ∀ opt, p.option = some opt → opt = "const".toList ∨ opt = "no-undefined".toList

theorem checkChunk_dollar {m : Match} (h : m.text = ['$', '$']) (args placeholders : List String) :
    checkChunk args placeholders (.placeholder m) = .ok placeholders := by
  simp [checkChunk, h, pure, Except.pure]

theorem checkChunk_placeholder {m : Match} {p : Placeholder} (hd : m.placeholder = none ↔ m.text = ['$', '$'])
    (hp : m.placeholder = some p) (args placeholders names : List String) :
    checkChunk args placeholders (.placeholder m) = .ok names ↔
      (isIn (String.ofList p.name) args = true ∧ OptionAllowed p) ∧ names = placeholders ++ [String.ofList p.name] := by
  have hne : (m.text == ['$', '$']) = false := by
    rw [beq_eq_false_iff_ne]
    exact fun ht => by rw [hd.mpr ht] at hp; cases hp
  obtain ⟨name, hname, rfl⟩ := Option.map_eq_some_iff.mp hp
  have hopt : m.opt.any (fun opt => opt != "const".toList && opt != "no-undefined".toList) = false ↔
      OptionAllowed ⟨name, m.opt⟩ := by
    unfold OptionAllowed
    cases m.opt with
    | none => exact iff_of_true rfl nofun
    | some opt =>
      simp only [Option.any_some, Bool.and_eq_false_iff, bne_eq_false_iff_eq, Option.some.injEq, forall_eq']
  rw [checkChunk, if_neg (by rw [hne]; exact Bool.false_ne_true), hname, Option.getD_some]
  dsimp only
  rw [throw_else_ok, throw_else_ok, Bool.not_eq_true', Bool.not_eq_false, Bool.not_eq_true, hopt, and_assoc]
  exact and_congr_right fun _ => and_congr_right fun _ => ⟨fun h => (Except.ok.inj h).symm, fun h => congrArg _ h.symm⟩

/-- The loop over the chunks. -/
theorem checkChunks_ok (args : List String) {chunks : List Chunk} (hd : Dollars chunks) (placeholders names : List String) :
    chunks.foldlM (checkChunk args) placeholders = .ok names ↔
      (∀ p ∈ found chunks, isIn (String.ofList p.name) args = true ∧ OptionAllowed p) ∧
        names = placeholders ++ (found chunks).map fun p => String.ofList p.name := by
  induction chunks generalizing placeholders with
  | nil =>
    rw [found, List.map_nil, List.append_nil]
    exact ⟨fun h => ⟨fun _ hp => absurd hp List.not_mem_nil, (Except.ok.inj h).symm⟩, fun h => congrArg _ h.2.symm⟩
  | cons chunk chunks ih =>
    have hd' : Dollars chunks := fun m hm => hd m (List.mem_cons_of_mem _ hm)
    rw [List.foldlM_cons]
    cases chunk with
    | text s => exact ih hd' placeholders
    | placeholder m =>
      have hm := hd m (List.mem_cons_self ..)
      rw [found]
      cases hp : m.placeholder with
      | none =>
        rw [checkChunk_dollar (hm.mp hp)]
        exact ih hd' placeholders
      | some p =>
        have hchunk := checkChunk_placeholder hm hp args placeholders
        cases hc : checkChunk args placeholders (.placeholder m) with
        | error e =>
          refine iff_of_false nofun fun h => ?_
          have := (hchunk _).mpr ⟨h.1 p (List.mem_append_left _ (Option.mem_toList.mpr rfl)), rfl⟩
          rw [hc] at this
          cases this
        | ok ns =>
          obtain ⟨hok, rfl⟩ := (hchunk ns).mp hc
          have := ih hd' (placeholders ++ [String.ofList p.name])
          rw [List.append_assoc] at this
          simp only [Option.toList_some, List.singleton_append, List.map_cons, List.forall_mem_cons, hok.1, hok.2, true_and]
          exact this

theorem checkArgs_ok (placeholders args : List String) :
    args.forM (checkArg placeholders) = .ok () ↔ ∀ arg ∈ args, arg ∈ placeholders := by
  rw [forM_ok]
  refine forall_congr' fun arg => imp_congr_right fun _ => ?_
  rw [checkArg, throw_else_ok, Bool.not_eq_true', Bool.not_eq_false, List.contains_iff_mem]
  exact and_iff_left rfl

/-- Placeholders and declared arguments go together. -/
structure Matches (declared : String → Prop) (args : List String) (ps : List Placeholder) : Prop where
  declared : ∀ p ∈ ps, declared (String.ofList p.name)
  options : ∀ p ∈ ps, OptionAllowed p
  used : ∀ arg ∈ args, ∃ p ∈ ps, String.ofList p.name = arg

/-- What the code accepts: names found by `in`. -/
theorem validateUtterance_ok {args : List String} {utterance : String} {ps : List Placeholder}
    (h : Placeholders utterance.toList ps) :
    validateUtterance args utterance = .ok () ↔
      hasBlanks utterance.toList = false ∧ Matches (isIn · args = true) args ps := by
  have hspec := splitLoop_spec (Nat.lt_succ_self (trim utterance.toList).length)
  have hps := h.inj (placeholders_trim hspec.1)
  have hloop := checkChunks_ok args hspec.2 []
  rw [← hps, List.nil_append] at hloop
  rw [validateUtterance]
  cases hb : hasBlanks utterance.toList with
  | true => exact iff_of_false nofun fun h => by cases h.1
  | false =>
    rw [and_iff_right rfl, splitParams]
    cases hc : (splitLoop ((trim utterance.toList).length + 1) (trim utterance.toList)).foldlM (checkChunk args) [] with
    | error e =>
      refine iff_of_false nofun fun hm => ?_
      have := (hloop _).mpr ⟨fun p hp => ⟨hm.declared p hp, hm.options p hp⟩, rfl⟩
      rw [hc] at this
      cases this
    | ok names =>
      obtain ⟨hok, rfl⟩ := (hloop names).mp hc
      refine (checkArgs_ok _ args).trans ?_
      simp only [List.mem_map]
      exact ⟨fun hu => ⟨fun p hp => (hok p hp).1, fun p hp => (hok p hp).2, hu⟩, fun hm => hm.used⟩

/-- Refused whatever objects inherit. -/
def RefusedAnyway (args : List String) (ps : List Placeholder) : Prop :=
  (∃ p ∈ ps, String.ofList p.name ∉ args ∧ String.ofList p.name ∉ objectPrototype) ∨ (∃ p ∈ ps, ¬OptionAllowed p) ∨
    ∃ arg ∈ args, ∀ p ∈ ps, String.ofList p.name ≠ arg

/-- Exactly the utterances whose placeholders and declared arguments go together are
    accepted if and only if no placeholder names an undeclared member of every object,
    or something else is wrong. -/
theorem validateUtterance_iff (args : List String) (utterance : String) (h : hasBlanks utterance.toList = false) :
    ∃ ps, Placeholders utterance.toList ps ∧
      ((validateUtterance args utterance = .ok () ↔ Matches (· ∈ args) args ps) ↔
        (∀ p ∈ ps, String.ofList p.name ∈ objectPrototype → String.ofList p.name ∈ args) ∨ RefusedAnyway args ps) := by
  have hps := (found_iff utterance.toList _).mpr rfl
  refine ⟨_, hps, ?_⟩
  rw [validateUtterance_ok hps, and_iff_right h]
  generalize found (splitParams utterance.toList) = ps
  have hin : ∀ name, isIn name args = true ↔ name ∈ args ∨ name ∈ objectPrototype := fun name => by
    rw [isIn, Bool.or_eq_true, List.contains_iff_mem, List.contains_iff_mem]
  constructor
  · intro hiff
    by_contra hno
    rw [not_or, RefusedAnyway, not_or, not_or] at hno
    obtain ⟨hinherit, hdecl, hopt, hused⟩ := hno
    -- nothing else is wrong, so the utterance is accepted
    have hm : Matches (isIn · args = true) args ps := by
      refine ⟨?_, ?_, ?_⟩
      · intro p hp
        rw [hin]
        by_contra hnot
        rw [not_or] at hnot
        exact hdecl ⟨p, hp, hnot⟩
      · intro p hp
        by_contra hnot
        exact hopt ⟨p, hp, hnot⟩
      · intro arg ha
        by_contra hnot
        exact hused ⟨arg, ha, fun p hp he => hnot ⟨p, hp, he⟩⟩
    exact hinherit fun p hp _ => (hiff.mp hm).declared p hp
  · intro hcond
    refine ⟨fun hm => ⟨?_, hm.options, hm.used⟩,
      fun hm => ⟨fun p hp => (hin _).mpr (Or.inl (hm.declared p hp)), hm.options, hm.used⟩⟩
    intro p hp
    rcases hcond with hinherit | ⟨q, hq, hna, hno⟩ | ⟨q, hq, hopt⟩ | ⟨arg, ha, hnone⟩
    · exact ((hin _).mp (hm.declared p hp)).elim id (hinherit p hp)
    · exact absurd ((hin _).mp (hm.declared q hq)) (not_or.mpr ⟨hna, hno⟩)
    · exact absurd (hm.options q hq) hopt
    · obtain ⟨q, hq, he⟩ := hm.used arg ha
      exact absurd he (hnone q hq)

theorem validateUtterance_iff_declared :
    ∃ ps, Placeholders "say $x".toList ps ∧
      ((validateUtterance ["x"] "say $x" = .ok () ↔ Matches (· ∈ ["x"]) ["x"] ps) ↔
        (∀ p ∈ ps, String.ofList p.name ∈ objectPrototype → String.ofList p.name ∈ ["x"]) ∨ RefusedAnyway ["x"] ps) :=
  validateUtterance_iff ["x"] "say $x" (by decide)

theorem inherited_name_accepted :
    ¬∀ (args : List String) (utterance : String) (ps : List Placeholder), hasBlanks utterance.toList = false →
      Placeholders utterance.toList ps → (validateUtterance args utterance = .ok () ↔ Matches (· ∈ args) args ps) := by
  intro h
  have hps : Placeholders "say $toString".toList [⟨"toString".toList, none⟩] := (found_iff _ _).mpr (by decide)
  have := ((h [] "say $toString" _ (by decide) hps).mp (by decide)).declared _ (List.mem_singleton_self _)
  exact absurd this List.not_mem_nil

end GenieCloud.Util.Utterance
