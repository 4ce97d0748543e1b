/-
  GenieCloud.Lib.Regex — regular expressions of characters.

  The part that extended expressions and those of scripts have in common: literals, escaped
  punctuation, character classes, groups, alternatives, one or more, and the end of the
  text. `Matches r cs rest` says that `r` matches a beginning of `cs` that leaves `rest`;
  `ends` computes what is left, and `test` searches a text.

  - `mem_ends`, `test_iff`: the computed matches are the matches.
  - `matches_ofAtoms_append`, `matches_literals`, `matches_plus_set`: what a sequence, a name
    and a repeated class match.
  - `parse` reads an expression character by character, with the groups that are open on a stack;
    `read_literal` and `foldlM_read_escaped` are its steps in a name.
-/

import Mathlib.Data.List.Infix
import Mathlib.Tactic.Common

namespace GenieCloud.Lib

inductive Regex where
  | empty
  | set (ranges : List (Char × Char))
  | seq (r s : Regex)
  | alt (r s : Regex)
  | plus (r : Regex)
  | eol
  deriving DecidableEq

namespace Regex

/-! ## Matches -/

def inRanges (ranges : List (Char × Char)) (c : Char) : Bool := ranges.any fun x => x.1 ≤ c && c ≤ x.2

def lit (c : Char) : Regex := .set [(c, c)]

inductive Matches : Regex → List Char → List Char → Prop where
  | empty (cs : List Char) : Matches .empty cs cs
  | set {ranges : List (Char × Char)} {c : Char} (h : inRanges ranges c = true) (cs : List Char) :
    Matches (.set ranges) (c :: cs) cs
  | seq {r s : Regex} {cs mid rest : List Char} (hr : Matches r cs mid) (hs : Matches s mid rest) : Matches (.seq r s) cs rest
  | left {r s : Regex} {cs rest : List Char} (h : Matches r cs rest) : Matches (.alt r s) cs rest
  | right {r s : Regex} {cs rest : List Char} (h : Matches s cs rest) : Matches (.alt r s) cs rest
  | one {r : Regex} {cs rest : List Char} (h : Matches r cs rest) : Matches (.plus r) cs rest
  | more {r : Regex} {cs mid rest : List Char} (h : Matches r cs mid) (hmore : Matches (.plus r) mid rest) :
    Matches (.plus r) cs rest
  | eol : Matches .eol [] []

/-- What is left after one step or more, of which each but the last takes something. -/
def plusEnds (step : List Char → List (List Char)) : Nat → List Char → List (List Char)
  | 0, _ => []
  | n + 1, cs => (step cs).flatMap fun rest => rest :: if rest.length < cs.length then plusEnds step n rest else []

def ends : Regex → List Char → List (List Char)
  | .empty, cs => [cs]
  | .set ranges, cs =>
    match cs with
    | [] => []
    | c :: cs => if inRanges ranges c then [cs] else []
  | .seq r s, cs => (ends r cs).flatMap (ends s)
  | .alt r s, cs => ends r cs ++ ends s cs
  | .plus r, cs => plusEnds (ends r) (cs.length + 1) cs
  | .eol, cs => if cs.isEmpty then [[]] else []

/-- The expression matches somewhere in the text. -/
def test (r : Regex) (text : List Char) : Bool := text.tails.any fun cs => !(r.ends cs).isEmpty

variable {r s : Regex} {cs rest : List Char}

theorem Matches.suffix (h : Matches r cs rest) : rest <:+ cs := by
  induction h with
  | empty cs => exact List.suffix_refl cs
  | set _ cs => exact List.suffix_cons _ cs
  | seq _ _ ihr ihs => exact ihs.trans ihr
  | left _ ih => exact ih
  | right _ ih => exact ih
  | one _ ih => exact ih
  | more _ _ ih ihmore => exact ihmore.trans ih
  | eol => exact List.suffix_refl []

theorem matches_of_mem_plusEnds (hr : ∀ cs rest, rest ∈ r.ends cs ↔ Matches r cs rest) (n : Nat)
    (h : rest ∈ plusEnds r.ends n cs) : Matches (.plus r) cs rest := by
  induction n generalizing cs with
  | zero => cases h
  | succ n ih =>
    obtain ⟨mid, hmid, h⟩ := List.mem_flatMap.mp h
    rcases List.mem_cons.mp h with rfl | h
    · exact .one ((hr cs rest).mp hmid)
    · split at h
      · exact .more ((hr cs mid).mp hmid) (ih h)
      · cases h

theorem mem_plusEnds (hr : ∀ cs rest, rest ∈ r.ends cs ↔ Matches r cs rest) (h : Matches (.plus r) cs rest) (n : Nat)
    (hn : cs.length < n) : rest ∈ plusEnds r.ends n cs := by
  generalize hplus : Regex.plus r = p at h
  induction h generalizing n with
  | one hone =>
    cases hplus
    obtain ⟨n, rfl⟩ := Nat.exists_eq_succ_of_ne_zero (Nat.ne_of_gt (Nat.zero_lt_of_lt hn))
    exact List.mem_flatMap.mpr ⟨_, (hr _ _).mpr hone, List.mem_cons_self ..⟩
  | @more r' cs mid rest hone hmore _ ih =>
    cases hplus
    have hle := hone.suffix.length_le
    by_cases hlt : mid.length < cs.length
    · obtain ⟨n, rfl⟩ := Nat.exists_eq_succ_of_ne_zero (Nat.ne_of_gt (Nat.zero_lt_of_lt hn))
      refine List.mem_flatMap.mpr ⟨mid, (hr _ _).mpr hone, List.mem_cons_of_mem _ ?_⟩
      rw [if_pos hlt]
      exact ih n (by omega) rfl
    · -- a step that takes nothing is no step
      obtain rfl := hone.suffix.eq_of_length (Nat.le_antisymm hle (Nat.le_of_not_lt hlt))
      exact ih n hn rfl
  | _ => cases hplus

theorem mem_ends : rest ∈ r.ends cs ↔ Matches r cs rest := by
  induction r generalizing cs rest with
  | empty =>
    rw [ends, List.mem_singleton]
    constructor
    · rintro rfl
      exact .empty rest
    · intro h
      cases h
      rfl
  | set ranges =>
    cases cs with
    | nil => exact iff_of_false List.not_mem_nil fun h => by cases h
    | cons c cs =>
      unfold ends
      dsimp only
      split
      · next hc =>
        rw [List.mem_singleton]
        constructor
        · rintro rfl
          exact .set hc rest
        · intro h
          cases h
          rfl
      · next hc =>
        refine iff_of_false List.not_mem_nil fun h => ?_
        cases h with
        | set h => exact hc h
  | seq r s ihr ihs =>
    rw [ends, List.mem_flatMap]
    constructor
    · intro h
      obtain ⟨mid, hmid, hrest⟩ := h
      exact .seq (ihr.mp hmid) (ihs.mp hrest)
    · intro h
      cases h with
      | seq hr hs => exact ⟨_, ihr.mpr hr, ihs.mpr hs⟩
  | alt r s ihr ihs =>
    rw [ends, List.mem_append, ihr, ihs]
    constructor
    · intro h
      exact h.elim .left .right
    · intro h
      cases h with
      | left h => exact .inl h
      | right h => exact .inr h
  | plus r ih =>
    constructor
    · exact matches_of_mem_plusEnds (fun cs rest => ih) _
    · exact fun h => mem_plusEnds (fun cs rest => ih) h _ (Nat.lt_succ_self _)
  | eol =>
    cases cs with
    | nil =>
      constructor
      · intro h
        cases List.mem_singleton.mp h
        exact .eol
      · intro h
        cases h
        exact List.mem_singleton_self _
    | cons c cs => exact iff_of_false List.not_mem_nil fun h => by cases h

theorem test_iff {text : List Char} : r.test text = true ↔ ∃ before cs rest, text = before ++ cs ∧ Matches r cs rest := by
  rw [test, List.any_eq_true]
  constructor
  · intro h
    obtain ⟨cs, hcs, h⟩ := h
    obtain ⟨before, hbefore⟩ := (List.mem_tails _ _).mp hcs
    obtain ⟨rest, hrest⟩ := List.exists_mem_of_ne_nil (r.ends cs) (by simpa using h)
    exact ⟨before, cs, rest, hbefore.symm, mem_ends.mp hrest⟩
  · intro h
    obtain ⟨before, cs, rest, rfl, hmatches⟩ := h
    have hmem := mem_ends.mpr hmatches
    exact ⟨cs, (List.mem_tails _ _).mpr (List.suffix_append _ _), by simp [List.ne_nil_of_mem hmem]⟩

/-! ## Sequences and alternatives -/

def ofAtoms : List Regex → Regex
  | [] => .empty
  | atom :: atoms => .seq atom (ofAtoms atoms)

/-- Some alternatives, and a last one. -/
def ofAlternatives (alternatives : List (List Regex)) (atoms : List Regex) : Regex :=
  alternatives.foldr (fun atoms r => .alt (ofAtoms atoms) r) (ofAtoms atoms)

theorem matches_seq : Matches (.seq r s) cs rest ↔ ∃ mid, Matches r cs mid ∧ Matches s mid rest := by
  constructor
  · intro h
    cases h with
    | seq hr hs => exact ⟨_, hr, hs⟩
  · intro h
    obtain ⟨mid, hr, hs⟩ := h
    exact .seq hr hs

theorem matches_alt : Matches (.alt r s) cs rest ↔ Matches r cs rest ∨ Matches s cs rest := by
  constructor
  · intro h
    cases h with
    | left h => exact .inl h
    | right h => exact .inr h
  · intro h
    exact h.elim .left .right

theorem matches_empty : Matches .empty cs rest ↔ cs = rest := by
  constructor
  · intro h
    cases h
    rfl
  · rintro rfl
    exact .empty cs

theorem matches_eol : Matches .eol cs rest ↔ cs = [] ∧ rest = [] := by
  constructor
  · intro h
    cases h
    exact ⟨rfl, rfl⟩
  · rintro ⟨rfl, rfl⟩
    exact .eol

theorem matches_set {ranges : List (Char × Char)} :
    Matches (.set ranges) cs rest ↔ ∃ c, inRanges ranges c = true ∧ cs = c :: rest := by
  constructor
  · intro h
    cases h with
    | set h => exact ⟨_, h, rfl⟩
  · rintro ⟨c, h, rfl⟩
    exact .set h rest

theorem inRanges_single (c d : Char) : inRanges [(c, c)] d = true ↔ d = c := by
  simp only [inRanges, List.any_cons, List.any_nil, Bool.or_false, Bool.and_eq_true, decide_eq_true_eq]
  constructor
  · intro h
    exact Char.le_antisymm h.2 h.1
  · rintro rfl
    exact ⟨Char.le_refl d, Char.le_refl d⟩

theorem matches_lit {c : Char} : Matches (lit c) cs rest ↔ cs = c :: rest := by
  rw [lit, matches_set]
  simp only [inRanges_single, exists_eq_left]

theorem matches_ofAtoms_append {as bs : List Regex} :
    Matches (ofAtoms (as ++ bs)) cs rest ↔ ∃ mid, Matches (ofAtoms as) cs mid ∧ Matches (ofAtoms bs) mid rest := by
  induction as generalizing cs with
  | nil => simp only [ofAtoms, List.nil_append, matches_empty, exists_eq_left']
  | cons a as ih =>
    simp only [ofAtoms, List.cons_append, matches_seq, ih]
    constructor
    · rintro ⟨mid, ha, mid', has, hbs⟩
      exact ⟨mid', ⟨mid, ha, has⟩, hbs⟩
    · rintro ⟨mid', ⟨mid, ha, has⟩, hbs⟩
      exact ⟨mid, ha, mid', has, hbs⟩

theorem matches_ofAtoms_singleton {a : Regex} : Matches (ofAtoms [a]) cs rest ↔ Matches a cs rest := by
  simp only [ofAtoms, matches_seq, matches_empty, exists_eq_right]

/-- A name matches itself. -/
theorem matches_literals {name : List Char} : Matches (ofAtoms (name.map lit)) cs rest ↔ cs = name ++ rest := by
  induction name generalizing cs with
  | nil => exact matches_empty
  | cons c name ih =>
    simp only [List.map_cons, ofAtoms, matches_seq, matches_lit, ih, List.cons_append]
    constructor
    · rintro ⟨mid, rfl, rfl⟩
      rfl
    · rintro rfl
      exact ⟨_, rfl, rfl⟩

theorem matches_ofAlternatives {alternatives : List (List Regex)} {atoms : List Regex} :
    Matches (ofAlternatives alternatives atoms) cs rest ↔ ∃ as ∈ alternatives ++ [atoms], Matches (ofAtoms as) cs rest := by
  induction alternatives with
  | nil => simp [ofAlternatives]
  | cons as alternatives ih =>
    rw [ofAlternatives, List.foldr_cons, matches_alt, ← ofAlternatives, ih]
    simp

/-- A class, once or more. -/
theorem matches_plus_set {ranges : List (Char × Char)} : Matches (.plus (.set ranges)) cs rest ↔
    ∃ name, name ≠ [] ∧ (∀ c ∈ name, inRanges ranges c = true) ∧ cs = name ++ rest := by
  constructor
  · intro h
    generalize hplus : Regex.plus (.set ranges) = p at h
    induction h with
    | one h =>
      cases hplus
      obtain ⟨c, hc, rfl⟩ := matches_set.mp h
      exact ⟨[c], by simp, by simpa using hc, rfl⟩
    | more h _ _ ih =>
      cases hplus
      obtain ⟨c, hc, rfl⟩ := matches_set.mp h
      obtain ⟨name, -, hname, rfl⟩ := ih rfl
      exact ⟨c :: name, by simp, List.forall_mem_cons.mpr ⟨hc, hname⟩, rfl⟩
    | _ => cases hplus
  · rintro ⟨name, hne, hname, rfl⟩
    induction name with
    | nil => exact absurd rfl hne
    | cons c name ih =>
      obtain ⟨hc, hname⟩ := List.forall_mem_cons.mp hname
      by_cases hnil : name = []
      · subst hnil
        exact .one (.set hc rest)
      · exact .more (.set hc _) (ih hnil hname)

/-! ## Reading -/

/-- What was read of a group: the alternatives before the last, and the atoms of the last. -/
structure Frame where
  alternatives : List (List Regex)
  atoms : List Regex

namespace Frame

def start : Frame := ⟨[], []⟩

def push (f : Frame) (atom : Regex) : Frame := { f with atoms := f.atoms ++ [atom] }

def next (f : Frame) : Frame := ⟨f.alternatives ++ [f.atoms], []⟩

def repeatLast (f : Frame) : Option Frame :=
  f.atoms.getLast?.map fun atom => { f with atoms := f.atoms.dropLast ++ [.plus atom] }

def toRegex (f : Frame) : Regex := ofAlternatives f.alternatives f.atoms

end Frame

/-- Within a class, `range` says that a dash was read after the last of the ranges. -/
inductive Mode where
  | plain
  | escaped
  | charClass (ranges : List (Char × Char)) (range : Bool)

structure Reader where
  mode : Mode
  frame : Frame
  /-- The groups around this one. -/
  stack : List Frame

/-- What does not stand for itself outside a class. -/
def metachars : List Char := ['\\', '(', ')', '|', '[', '+', '$', '*', '?', '.', '{', '}', '^', ']']

def readClass (ranges : List (Char × Char)) (range : Bool) (s : Reader) (c : Char) : Option Reader :=
  if range then
    match ranges.getLast? with
    | some (low, _) => if c = ']' then none else some { s with mode := .charClass (ranges.dropLast ++ [(low, c)]) false }
    | none => none
  else if c = ']' then some { s with mode := .plain, frame := s.frame.push (.set ranges) }
  else if c = '-' then some { s with mode := .charClass ranges true }
  else if c = '\\' || c = '[' || c = '^' then none
  else some { s with mode := .charClass (ranges ++ [(c, c)]) false }

def readPlain (s : Reader) (c : Char) : Option Reader :=
  if c = '\\' then some { s with mode := .escaped }
  else if c = '(' then some { s with frame := .start, stack := s.frame :: s.stack }
  else if c = ')' then
    match s.stack with
    | [] => none
    | frame :: stack => some { s with frame := frame.push s.frame.toRegex, stack := stack }
  else if c = '|' then some { s with frame := s.frame.next }
  else if c = '[' then some { s with mode := .charClass [] false }
  else if c = '+' then s.frame.repeatLast.map fun frame => { s with frame := frame }
  else if c = '$' then some { s with frame := s.frame.push .eol }
  else if metachars.contains c then none
  else some { s with frame := s.frame.push (lit c) }

/-- One character; what is not in the part is refused. -/
def read (s : Reader) (c : Char) : Option Reader :=
  match s.mode with
  | .plain => readPlain s c
  | .escaped => if c.isAlphanum then none else some { s with mode := .plain, frame := s.frame.push (lit c) }
  | .charClass ranges range => readClass ranges range s c

def parse (pattern : List Char) : Option Regex := do
  let s ← pattern.foldlM read ⟨.plain, .start, []⟩
  match s.mode, s.stack with
  | .plain, [] => return s.frame.toRegex
  | _, _ => none

/-- What was read before. -/
theorem foldlM_read_append {text : List Char} {s s' : Reader} (h : text.foldlM read s = some s') (rest : List Char) :
    (text ++ rest).foldlM read s = rest.foldlM read s' := by
  rw [List.foldlM_append, h]
  rfl

theorem read_literal {c : Char} (hc : c ∉ metachars) (frame : Frame) (stack : List Frame) :
    read ⟨.plain, frame, stack⟩ c = some ⟨.plain, frame.push (lit c), stack⟩ := by
  simp only [metachars, List.mem_cons, List.not_mem_nil, or_false, not_or] at hc
  simp [read, readPlain, metachars, hc]

theorem foldlM_read_escaped {c : Char} (hc : c.isAlphanum = false) (frame : Frame) (stack : List Frame) (rest : List Char) :
    ('\\' :: c :: rest).foldlM read ⟨.plain, frame, stack⟩ =
      rest.foldlM read ⟨.plain, frame.push (lit c), stack⟩ := by
  have hread : read ⟨.escaped, frame, stack⟩ c = some ⟨.plain, frame.push (lit c), stack⟩ := by
    simp [read, hc]
  have hescaped : ['\\', c].foldlM read ⟨.plain, frame, stack⟩ = some ⟨.plain, frame.push (lit c), stack⟩ := by
    show (read ⟨.escaped, frame, stack⟩ c).bind some = _
    rw [hread]
    rfl
  exact foldlM_read_append hescaped rest

end Regex

end GenieCloud.Lib
