/-
  GenieCloud.Lib.Objects — objects that live in a list, by their positions, and maps to
  them.

  A new object goes to the end, where its position is the length of the list before, and
  an object that changes stays where it is. An entry that is removed leaves the others.
-/

import Mathlib.Data.List.Basic
import Mathlib.Logic.Function.Basic

namespace GenieCloud.Lib.Objects

variable {α : Type} {objs : List α} {obj obj' : α} {id : Nat}

theorem getElem?_created (objs : List α) (obj : α) (id : Nat) :
    (objs ++ [obj])[id]? = if id = objs.length then some obj else objs[id]? := by
  rw [List.getElem?_append]
  by_cases h : id = objs.length
  · rw [if_neg (by omega), if_pos h, h, Nat.sub_self]
    rfl
  · rw [if_neg h]
    split
    · rfl
    · rw [List.getElem?_eq_none (by rw [List.length_singleton]; omega), List.getElem?_eq_none (by omega)]

/-- The objects that were there still are. -/
theorem getElem?_kept (obj' : α) (h : objs[id]? = some obj) : (objs ++ [obj'])[id]? = some obj := by
  rw [List.getElem?_append_left (List.getElem?_eq_some_iff.mp h).1, h]

theorem getElem?_updated (h : objs[id]? = some obj) (obj' : α) (id' : Nat) :
    (objs.set id obj')[id']? = if id = id' then some obj' else objs[id']? := by
  rw [List.getElem?_set, if_pos (List.getElem?_eq_some_iff.mp h).1]

theorem getElem?_updated_self (h : objs[id]? = some obj) (obj' : α) : (objs.set id obj')[id]? = some obj' := by
  rw [getElem?_updated h, if_pos rfl]

theorem getElem?_lt (h : objs[id]? = some obj) : id < objs.length := (List.getElem?_eq_some_iff.mp h).1

theorem removed_eq_some {κ : Type} [DecidableEq κ] {entries : κ → Option α} {k k' : κ} :
    Function.update entries k none k' = some obj ↔ k' ≠ k ∧ entries k' = some obj := by
  by_cases h : k' = k
  · rw [h, Function.update_self]
    simp
  · rw [Function.update_of_ne h]
    simp [h]

end GenieCloud.Lib.Objects
