/-
  GenieCloud.Lib.Assoc — maps that remember the order of insertion.

  A map is the list of its entries, oldest first, each key once (`Keyed`). `find` looks
  a key up, `put` replaces the value of a key in its place, `add` puts a new key at the
  end and `remove` takes a key out.
-/

import Mathlib.Data.List.Nodup

namespace GenieCloud.Lib.Assoc

variable {κ α : Type} [DecidableEq κ]

def find (m : List (κ × α)) (k : κ) : Option α :=
  match m with
  | [] => none
  | (k', a) :: m => if k' = k then some a else find m k

def put (m : List (κ × α)) (k : κ) (a : α) : List (κ × α) := m.map fun e => if e.1 = k then (k, a) else e

def add (m : List (κ × α)) (k : κ) (a : α) : List (κ × α) := m ++ [(k, a)]

def remove (m : List (κ × α)) (k : κ) : List (κ × α) := m.filter (·.1 ≠ k)

def keys (m : List (κ × α)) : List κ := m.map Prod.fst

/-- No key is there twice. -/
def Keyed (m : List (κ × α)) : Prop := (keys m).Nodup

variable {m : List (κ × α)} {k k' : κ} {a b : α}

@[simp] theorem find_nil (k : κ) : find ([] : List (κ × α)) k = none := rfl

theorem find_none : find m k = none ↔ k ∉ keys m := by
  induction m with
  | nil => simp [keys]
  | cons e m ih =>
    obtain ⟨k', a⟩ := e
    by_cases h : k' = k
    · simp [find, keys, h]
    · simp only [find, if_neg h, ih, keys, List.map_cons, List.mem_cons, not_or]
      exact ⟨fun hm => ⟨fun hk => h hk.symm, hm⟩, fun hm => hm.2⟩

theorem mem_of_find (h : find m k = some a) : (k, a) ∈ m := by
  induction m with
  | nil => cases h
  | cons e m ih =>
    obtain ⟨k', b⟩ := e
    by_cases hk : k' = k
    · simp only [find, if_pos hk, Option.some.injEq] at h
      rw [hk, h]
      exact List.mem_cons_self ..
    · simp only [find, if_neg hk] at h
      exact List.mem_cons_of_mem _ (ih h)

theorem find_of_mem (hm : Keyed m) (h : (k, a) ∈ m) : find m k = some a := by
  induction m with
  | nil => cases h
  | cons e m ih =>
    obtain ⟨k', b⟩ := e
    obtain ⟨hnot, hm'⟩ := List.nodup_cons.mp hm
    rcases List.mem_cons.mp h with he | he
    · cases he
      simp [find]
    · have hk : k' ≠ k := by
        intro hk
        subst hk
        exact hnot (List.mem_map.mpr ⟨_, he, rfl⟩)
      rw [find, if_neg hk]
      exact ih hm' he

theorem find_add (hk : find m k = none) (k' : κ) : find (add m k a) k' = if k = k' then some a else find m k' := by
  induction m with
  | nil => rfl
  | cons e m ih =>
    obtain ⟨k'', b⟩ := e
    by_cases h : k'' = k
    · simp [find, h] at hk
    · simp only [find, if_neg h] at hk
      have := ih hk
      simp only [add, List.cons_append, find] at this ⊢
      by_cases h' : k'' = k'
      · subst h'
        rw [if_pos rfl, if_neg (fun e => h e.symm), if_pos rfl]
      · rw [if_neg h', this, if_neg h']

theorem find_put_ne (m : List (κ × α)) (a : α) (h : k ≠ k') : find (put m k a) k' = find m k' := by
  induction m with
  | nil => rfl
  | cons e m ih =>
    simp only [put] at ih
    simp only [put, List.map_cons]
    by_cases he : e.1 = k
    · rw [if_pos he, find, if_neg h, ih, find, he, if_neg h]
    · rw [if_neg he, find, find, ih]

theorem find_put_self (hk : find m k = some b) : find (put m k a) k = some a := by
  induction m with
  | nil => cases hk
  | cons e m ih =>
    obtain ⟨k', c⟩ := e
    by_cases h : k' = k
    · simp [put, find, h]
    · simp only [find, if_neg h] at hk
      have := ih hk
      simp only [put, List.map_cons, if_neg h, find] at this ⊢
      exact this

theorem find_put (hk : find m k = some b) (k' : κ) : find (put m k a) k' = if k = k' then some a else find m k' := by
  by_cases h : k = k'
  · subst h
    rw [if_pos rfl, find_put_self hk]
  · rw [if_neg h, find_put_ne m a h]

theorem find_remove (m : List (κ × α)) (k k' : κ) : find (remove m k) k' = if k = k' then none else find m k' := by
  induction m with
  | nil => simp [remove]
  | cons e m ih =>
    obtain ⟨k'', b⟩ := e
    simp only [remove] at ih
    by_cases h : k'' = k
    · subst h
      simp only [remove, List.filter_cons, ne_eq, not_true, decide_false, Bool.false_eq_true, if_false, find]
      rw [ih]
      by_cases h' : k'' = k'
      · rw [if_pos h', if_pos h']
      · rw [if_neg h', if_neg h', if_neg h']
    · simp only [remove, List.filter_cons, ne_eq, h, not_false_eq_true, decide_true, if_true, find]
      rw [ih]
      by_cases h' : k'' = k'
      · subst h'
        rw [if_pos rfl, if_neg (fun e => h e.symm), if_pos rfl]
      · rw [if_neg h', if_neg h']

omit [DecidableEq κ] in
theorem keyed_nil : Keyed ([] : List (κ × α)) := List.nodup_nil

theorem Keyed.add (hm : Keyed m) (hk : find m k = none) : Keyed (add m k a) := by
  unfold Keyed keys Assoc.add
  rw [List.map_append, List.nodup_append]
  refine ⟨hm, List.nodup_singleton _, fun x hx y hy => ?_⟩
  rw [List.map_singleton, List.mem_singleton] at hy
  rintro rfl
  subst hy
  exact find_none.mp hk hx

theorem keys_put (m : List (κ × α)) (k : κ) (a : α) : keys (put m k a) = keys m := by
  unfold keys put
  rw [List.map_map]
  apply List.map_congr_left
  intro e _
  by_cases h : e.1 = k <;> simp [h]

theorem Keyed.put (hm : Keyed m) : Keyed (put m k a) := by
  unfold Keyed
  rw [keys_put]
  exact hm

theorem Keyed.remove (hm : Keyed m) : Keyed (remove m k) :=
  hm.sublist (List.filter_sublist.map _)

end GenieCloud.Lib.Assoc
