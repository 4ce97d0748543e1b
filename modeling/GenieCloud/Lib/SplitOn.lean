/-
  GenieCloud.Lib.SplitOn — the parts of a list between its separators.

  `List.splitOn` and `List.intercalate` undo each other (Mathlib has both directions). What
  else is known of the parts:

  - `not_of_mem_splitOnP`, `notMem_of_mem_splitOn`: no part has a separator in it.
  - `mem_intercalate_singleton`: what is not the separator is in the whole if it is in a part.
  - `mem_tail_iff`: a part that is not the first stands between two separators, or a separator
    and the end.
-/

import Mathlib.Data.List.Basic
import Mathlib.Tactic.Common

namespace GenieCloud.Lib.SplitOn

variable {α : Type} {a x : α} {xs l : List α} {parts : List (List α)}

theorem not_of_mem_splitOnP {p : α → Bool} (h : l ∈ xs.splitOnP p) : ∀ x ∈ l, p x = false := by
  induction xs generalizing l with
  | nil =>
    rw [List.splitOnP_nil, List.mem_singleton] at h
    rw [h]
    exact List.forall_mem_nil _
  | cons x xs ih =>
    rw [List.splitOnP_cons_eq_if_modifyHead] at h
    split at h
    · rcases List.mem_cons.mp h with rfl | h
      · exact List.forall_mem_nil _
      · exact ih h
    · next hx =>
      obtain ⟨head, rest, hsplit⟩ := List.exists_cons_of_ne_nil (List.splitOnP_ne_nil p xs)
      rw [hsplit, List.modifyHead_cons] at h
      rcases List.mem_cons.mp h with rfl | h
      · exact List.forall_mem_cons.mpr ⟨Bool.eq_false_iff.mpr hx, ih (by rw [hsplit]; exact List.mem_cons_self ..)⟩
      · exact ih (by rw [hsplit]; exact List.mem_cons_of_mem _ h)

theorem notMem_of_mem_splitOn [BEq α] [LawfulBEq α] (h : l ∈ xs.splitOn a) : a ∉ l := by
  rw [List.splitOn_eq_splitOnP] at h
  intro ha
  have := not_of_mem_splitOnP h a ha
  rw [beq_self_eq_true] at this
  cases this

theorem mem_intercalate_singleton (hx : x ≠ a) : x ∈ [a].intercalate parts ↔ ∃ part ∈ parts, x ∈ part := by
  induction parts with
  | nil => simp
  | cons part parts ih =>
    by_cases hn : parts = []
    · subst hn
      simp
    · rw [List.intercalate_cons_of_ne_nil hn]
      simp [ih, hx]

theorem intercalate_append_cons (a : α) (l : List α) (after : List (List α)) {before : List (List α)}
    (hbefore : before ≠ []) :
    [a].intercalate (before ++ l :: after) = [a].intercalate before ++ a :: [a].intercalate (l :: after) := by
  induction before with
  | nil => exact absurd rfl hbefore
  | cons part before ih =>
    rw [List.cons_append, List.intercalate_cons_of_ne_nil (List.append_ne_nil_of_right_ne_nil _ (List.cons_ne_nil _ _))]
    by_cases hnil : before = []
    · subst hnil
      rw [List.intercalate_singleton, List.nil_append, List.append_assoc]
      rfl
    · rw [ih hnil, List.intercalate_cons_of_ne_nil hnil]
      simp only [List.append_assoc, List.cons_append, List.nil_append]

theorem mem_tail_iff [BEq α] [LawfulBEq α] (hparts : ∀ part ∈ parts, a ∉ part) (hl : a ∉ l) : l ∈ parts.tail ↔
    ∃ before rest, [a].intercalate parts = before ++ a :: (l ++ rest) ∧ (rest = [] ∨ ∃ after, rest = a :: after) := by
  constructor
  · intro h
    cases parts with
    | nil => cases h
    | cons part parts =>
      obtain ⟨before, after, rfl⟩ := List.append_of_mem h
      have hwhole := intercalate_append_cons a l after (List.cons_ne_nil part before)
      cases after with
      | nil =>
        rw [List.intercalate_singleton] at hwhole
        exact ⟨_, [], by rw [List.append_nil]; exact hwhole, .inl rfl⟩
      | cons part' after =>
        rw [List.intercalate_cons_cons, List.append_assoc] at hwhole
        exact ⟨_, _, hwhole, .inr ⟨_, rfl⟩⟩
  · intro h
    obtain ⟨before, rest, heq, hrest⟩ := h
    by_cases hnil : parts = []
    · subst hnil
      exact absurd heq.symm (List.append_ne_nil_of_right_ne_nil _ (List.cons_ne_nil _ _))
    · have hsplit := List.splitOn_intercalate a hparts hnil
      rw [heq, List.splitOn_append_cons_self] at hsplit
      have hmem : l ∈ (l ++ rest).splitOn a := by
        rcases hrest with rfl | ⟨after, rfl⟩
        · rw [List.append_nil, List.splitOn_eq_singleton hl]
          exact List.mem_singleton_self l
        · rw [List.splitOn_append_cons_self, List.splitOn_eq_singleton hl]
          exact List.mem_cons_self ..
      rw [← hsplit, List.tail_append_of_ne_nil (List.splitOn_ne_nil a before)]
      exact List.mem_append_right _ hmem

end GenieCloud.Lib.SplitOn
