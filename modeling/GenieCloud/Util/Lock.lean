/-
  GenieCloud.Util.Lock — the promise-based lock (`util/lock.ts`).

  A lock is the list of its turns, oldest first, each unlocked or not. `acquire` puts a
  new turn at the back and returns once the queue before it has drained, that is once
  every older turn is unlocked (`Granted`); the callback it returns unlocks the turn.

  `granted_unique`: one lock has at most one granted turn that is not unlocked.
  `granted_acquire`, `granted_unlock`: a granted turn stays granted.
  `exists_granted`: while some turn is not unlocked, the oldest such turn is granted.
-/

import Mathlib.Data.List.Basic

namespace GenieCloud.Util

/-- The turns, oldest first; `true` once unlocked. -/
abbrev Lock := List Bool

namespace Lock

def acquire (l : Lock) : Nat × Lock := (l.length, l ++ [false])

def unlockCallback (l : Lock) (turn : Nat) : Lock := l.set turn true

/-- The queue in front of a turn has drained. -/
def Granted (l : Lock) (turn : Nat) : Prop := ∀ j < turn, l[j]? = some true

instance (l : Lock) (turn : Nat) : Decidable (Granted l turn) :=
  inferInstanceAs (Decidable (∀ j < turn, l[j]? = some true))

variable {l : Lock} {i j : Nat}

theorem granted_unique (hi : Granted l i) (hj : Granted l j) (ui : l[i]? = some false) (uj : l[j]? = some false) :
    i = j := by
  rcases Nat.lt_trichotomy i j with h | h | h
  · have := hj i h
    rw [ui] at this; cases this
  · exact h
  · have := hi j h
    rw [uj] at this; cases this

theorem exists_granted (h : l[j]? = some false) : ∃ i, l[i]? = some false ∧ Granted l i := by
  induction j using Nat.strongRecOn with
  | ind j ih =>
    by_cases hg : Granted l j
    · exact ⟨j, h, hg⟩
    · obtain ⟨k, hk, hne⟩ : ∃ k < j, l[k]? ≠ some true := by simpa [Granted] using hg
      obtain ⟨hl, -⟩ := List.getElem?_eq_some_iff.mp h
      refine ih k hk ?_
      rw [List.getElem?_eq_getElem (by omega)] at hne ⊢
      simpa using hne

theorem getElem?_acquire (l : Lock) (i : Nat) :
    (acquire l).2[i]? = if i = l.length then some false else l[i]? := by
  rw [acquire, List.getElem?_append]
  split
  · rw [if_neg (by omega)]
  · split
    · subst i; simp
    · rw [List.getElem?_eq_none (by simp; omega), List.getElem?_eq_none (by omega)]

theorem getElem?_unlock (h : i < l.length) (j : Nat) :
    (unlockCallback l i)[j]? = if j = i then some true else l[j]? := by
  rw [unlockCallback, List.getElem?_set]
  split
  · rename_i he; rw [if_pos he.symm]
  · rename_i he; rw [if_neg (Ne.symm he)]

/-- A turn stays granted when another is taken. -/
theorem granted_acquire (h : Granted l i) (hi : i < l.length) : Granted (acquire l).2 i := by
  intro j hj
  rw [getElem?_acquire, if_neg (by omega)]
  exact h j hj

theorem granted_unlock (h : Granted l i) (hj : j < l.length) : Granted (unlockCallback l j) i := by
  intro k hk
  rw [getElem?_unlock hj]
  split
  · rfl
  · exact h k hk

end Lock

end GenieCloud.Util
