/-
  GenieCloud.Lib.Chunks — an array kept as a list of chunks.

  `overwrite l n bs` is `l` with `bs` in place of its entries from `n` on; `start cs i`
  is where the chunk `i` begins in the array `cs.flatten`.

  - `flatten_set`: overwriting inside a chunk overwrites the array.
  - `flatten_straddle`: so does overwriting the end of a chunk and the beginning of the
    next one.
  - `locate`: every position of the array is in a chunk, and in no other
    (`locate_unique`).
-/

import Mathlib.Tactic.Common

namespace GenieCloud.Lib.Chunks

variable {α : Type}

/-! ## Overwriting -/

def overwrite (l : List α) (n : Nat) (bs : List α) : List α := l.take n ++ bs ++ l.drop (n + bs.length)

theorem length_overwrite {l bs : List α} {n : Nat} (h : n + bs.length ≤ l.length) :
    (overwrite l n bs).length = l.length := by
  simp only [overwrite, List.length_append, List.length_take, List.length_drop]
  omega

theorem getElem?_overwrite {l bs : List α} {n : Nat} (h : n + bs.length ≤ l.length) (i : Nat) :
    (overwrite l n bs)[i]? = if n ≤ i ∧ i < n + bs.length then bs[i - n]? else l[i]? := by
  have hl : (l.take n).length = n := by rw [List.length_take]; omega
  unfold overwrite
  rw [List.append_assoc, List.getElem?_append, hl, List.getElem?_append]
  by_cases h1 : i < n
  · rw [if_pos h1, List.getElem?_take_of_lt h1, if_neg (by omega)]
  · rw [if_neg h1]
    by_cases h2 : i < n + bs.length
    · rw [if_pos (by omega), if_pos (by omega)]
    · rw [if_neg (by omega), if_neg (by omega), List.getElem?_drop]
      congr 1
      omega

/-- Bytes written one after the other are written at once. -/
theorem overwrite_append {l bs cs : List α} {n : Nat} (h : n + (bs ++ cs).length ≤ l.length) :
    overwrite (overwrite l n bs) (n + bs.length) cs = overwrite l n (bs ++ cs) := by
  rw [List.length_append] at h
  have h1 : n + bs.length ≤ l.length := by omega
  apply List.ext_getElem?
  intro i
  rw [getElem?_overwrite (by rw [length_overwrite h1]; omega), getElem?_overwrite h1,
    getElem?_overwrite (by rw [List.length_append]; omega), List.length_append, List.getElem?_append]
  by_cases h2 : n ≤ i ∧ i < n + (bs.length + cs.length)
  · rw [if_pos h2]
    by_cases h3 : i < n + bs.length
    · rw [if_neg (by omega), if_pos (by omega), if_pos (by omega)]
    · rw [if_pos (by omega), if_neg (by omega)]
      congr 1
      omega
  · rw [if_neg h2, if_neg (by omega), if_neg (by omega)]

theorem overwrite_left {l bs : List α} {n : Nat} (h : n + bs.length ≤ l.length) (r : List α) :
    overwrite (l ++ r) n bs = overwrite l n bs ++ r := by
  unfold overwrite
  rw [List.take_append_of_le_length (by omega), List.drop_append_of_le_length h]
  simp

theorem overwrite_right (l r bs : List α) (n : Nat) :
    overwrite (l ++ r) (l.length + n) bs = l ++ overwrite r n bs := by
  unfold overwrite
  rw [List.take_length_add_append, Nat.add_assoc, List.drop_length_add_append]
  simp

/-! ## Chunks -/

def start (cs : List (List α)) (i : Nat) : Nat := (cs.take i).flatten.length

@[simp] theorem start_zero (cs : List (List α)) : start cs 0 = 0 := rfl

theorem start_succ {cs : List (List α)} {i : Nat} {c : List α} (h : cs[i]? = some c) :
    start cs (i + 1) = start cs i + c.length := by
  unfold start
  rw [List.take_add_one, h]
  simp

theorem start_length (cs : List (List α)) : start cs cs.length = cs.flatten.length := by
  rw [start, List.take_length]

theorem start_append {cs ds : List (List α)} {i : Nat} (h : i ≤ cs.length) : start (cs ++ ds) i = start cs i := by
  rw [start, List.take_append_of_le_length h, start]

theorem start_mono {cs : List (List α)} {i j : Nat} (h : i ≤ j) : start cs i ≤ start cs j := by
  unfold start
  rw [← List.take_append_drop i (cs.take j), List.take_take, Nat.min_eq_left h, List.flatten_append, List.length_append]
  omega

theorem start_le {cs : List (List α)} {i : Nat} : start cs i ≤ cs.flatten.length := by
  by_cases h : i ≤ cs.length
  · rw [← start_length]
    exact start_mono h
  · have hall : start cs i = cs.flatten.length := by rw [start, List.take_of_length_le (by omega)]
    exact Nat.le_of_eq hall

/-- Chunks keep their places when one is replaced by another of its length. -/
theorem start_set {cs : List (List α)} {i : Nat} {c c' : List α} (h : cs[i]? = some c) (hl : c'.length = c.length)
    (j : Nat) : start (cs.set i c') j = start cs j := by
  induction cs generalizing i j with
  | nil => simp at h
  | cons d cs ih =>
    cases j with
    | zero => rfl
    | succ j =>
      cases i with
      | zero =>
        obtain rfl : d = c := by simpa using h
        simp [start, hl]
      | succ i =>
        have := ih (j := j) (by simpa using h)
        simp only [start, List.set_cons_succ, List.take_succ_cons, List.flatten_cons, List.length_append] at this ⊢
        omega

theorem flatten_set {cs : List (List α)} {i n : Nat} {c bs : List α} (hc : cs[i]? = some c)
    (hn : n + bs.length ≤ c.length) :
    (cs.set i (overwrite c n bs)).flatten = overwrite cs.flatten (start cs i + n) bs := by
  induction cs generalizing i with
  | nil => simp at hc
  | cons d cs ih =>
    cases i with
    | zero =>
      obtain rfl : d = c := by simpa using hc
      rw [List.set_cons_zero, List.flatten_cons, List.flatten_cons, start_zero, Nat.zero_add, overwrite_left hn]
    | succ i =>
      have hs : start (d :: cs) (i + 1) = d.length + start cs i := by simp [start]
      rw [List.set_cons_succ, List.flatten_cons, List.flatten_cons, hs, Nat.add_assoc, overwrite_right,
        ih (by simpa using hc)]

theorem flatten_straddle {cs : List (List α)} {i n : Nat} {c d bs bs' : List α} (hc : cs[i]? = some c)
    (hd : cs[i + 1]? = some d) (hn : n + bs.length = c.length) (hn' : bs'.length ≤ d.length) :
    ((cs.set i (overwrite c n bs)).set (i + 1) (overwrite d 0 bs')).flatten =
      overwrite cs.flatten (start cs i + n) (bs ++ bs') := by
  have hlen : (overwrite c n bs).length = c.length := length_overwrite (by omega)
  have hd' : (cs.set i (overwrite c n bs))[i + 1]? = some d := by
    rw [List.getElem?_set_ne (by omega)]
    exact hd
  have hend : start cs i + n + bs.length = start cs (i + 1) := by
    rw [start_succ hc]
    omega
  have hroom : start cs (i + 1) + d.length ≤ cs.flatten.length := by
    rw [← start_succ hd]
    exact start_le
  rw [flatten_set hd' (by omega), start_set hc hlen, Nat.add_zero, flatten_set hc (by omega), ← hend]
  apply overwrite_append
  rw [List.length_append]
  omega

theorem locate {cs : List (List α)} {n : Nat} (h : n < cs.flatten.length) :
    ∃ i c, cs[i]? = some c ∧ start cs i ≤ n ∧ n < start cs i + c.length := by
  induction cs generalizing n with
  | nil => simp at h
  | cons d cs ih =>
    by_cases hn : n < d.length
    · exact ⟨0, d, rfl, by simp, by simpa using hn⟩
    · rw [List.flatten_cons, List.length_append] at h
      obtain ⟨i, c, hc, h1, h2⟩ := ih (n := n - d.length) (by omega)
      have hs : start (d :: cs) (i + 1) = d.length + start cs i := by simp [start]
      exact ⟨i + 1, c, hc, by omega, by omega⟩

theorem locate_unique {cs : List (List α)} {i j n : Nat} {c d : List α} (hc : cs[i]? = some c) (hd : cs[j]? = some d)
    (hi : start cs i ≤ n ∧ n < start cs i + c.length) (hj : start cs j ≤ n ∧ n < start cs j + d.length) : i = j := by
  rcases Nat.lt_trichotomy i j with h | h | h
  · have : start cs (i + 1) ≤ start cs j := start_mono h
    rw [start_succ hc] at this
    omega
  · exact h
  · have : start cs (j + 1) ≤ start cs i := start_mono h
    rw [start_succ hd] at this
    omega

end GenieCloud.Lib.Chunks
