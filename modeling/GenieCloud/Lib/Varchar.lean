/-
  GenieCloud.Lib.Varchar — texts in columns: what a comparison sees of them, and what a
  column keeps.

  Blanks at the end do not count in a comparison, and they are all that a column cuts off a
  text that is too long; any other text that is too long is refused. What is kept
  compares like the text that was to be stored (`unpadded_varchar`).

  A `varchar` counts characters and a `text` counts bytes. A column of the three-byte
  character set takes characters of the basic plane only (`basicPlane`). A column keeps a
  text as it is when the text fits (`varchar_eq_self`, `text_eq_self`).
-/

import Mathlib.Algebra.GroupWithZero.Nat
import Mathlib.Data.List.DropRight
import Mathlib.Data.List.TakeDrop

namespace GenieCloud.Lib

/-- What a comparison of texts sees: not the blanks at the end. -/
def unpadded (text : String) : List Char := text.toList.rdropWhile (· = ' ')

def varchar (n : Nat) (text : String) : Option String :=
  if (unpadded text).length ≤ n then some (String.ofList (text.toList.take n)) else none

def bytes (cs : List Char) : Nat := (cs.map Char.utf8Size).sum

/-- The blanks cut off take a byte each. -/
def text (n : Nat) (s : String) : Option String :=
  if bytes (unpadded s) ≤ n then some (String.ofList (s.toList.take (s.length - (bytes s.toList - n)))) else none

def basicPlane (s : String) : Bool := s.toList.all (·.toNat < 0x10000)

/-- A column of the three-byte character set. -/
def basicColumn (keep : String → Option String) (s : String) : Option String := if basicPlane s then keep s else none

theorem ofList_take_eq {s : String} {m : Nat} : String.ofList (s.toList.take m) = s ↔ s.length ≤ m := by
  rw [← String.toList_inj, String.toList_ofList, List.take_eq_self_iff, String.length_toList]

theorem bytes_unpadded_le (s : String) : bytes (unpadded s) ≤ bytes s.toList := by
  obtain ⟨blanks, h⟩ := List.rdropWhile_prefix (p := (· = ' ')) s.toList
  have hsum : bytes s.toList = bytes (unpadded s) + bytes blanks := by
    rw [bytes, bytes, bytes, ← List.sum_append, ← List.map_append, unpadded, h]
  omega

theorem varchar_eq_self {n : Nat} {s : String} : varchar n s = some s ↔ s.length ≤ n := by
  have hlen : (unpadded s).length ≤ s.length := by
    rw [← String.length_toList]
    exact (List.rdropWhile_prefix (p := (· = ' ')) s.toList).length_le
  unfold varchar
  split
  · rw [Option.some.injEq]
    exact ofList_take_eq
  · constructor
    · intro h; cases h
    · intro h; omega

theorem text_eq_self {n : Nat} {s : String} : text n s = some s ↔ bytes s.toList ≤ n := by
  have hlen := bytes_unpadded_le s
  unfold text
  split
  · rw [Option.some.injEq, ofList_take_eq]
    constructor
    · intro h
      by_cases hs : s.length = 0
      · obtain rfl : s = "" := by simpa using hs
        exact Nat.zero_le n
      · omega
    · intro h; omega
  · constructor
    · intro h; cases h
    · intro h; omega

theorem varchar_isSome {n : Nat} {s : String} : (varchar n s).isSome = true ↔ (unpadded s).length ≤ n := by
  unfold varchar
  split <;> simp [*]

theorem varchar_length {n : Nat} {s t : String} (h : varchar n s = some t) : t.length ≤ n := by
  unfold varchar at h
  split at h
  · obtain rfl := Option.some.inj h
    rw [← String.length_toList, String.toList_ofList]
    exact List.length_take_le n s.toList
  · cases h

theorem basicPlane_varchar {n : Nat} {s t : String} (hs : basicPlane s = true) (h : varchar n s = some t) : basicPlane t = true := by
  unfold varchar at h
  split at h
  · obtain rfl := Option.some.inj h
    unfold basicPlane
    rw [String.toList_ofList]
    apply List.all_eq_true.mpr
    intro c hc
    exact List.all_eq_true.mp hs c (List.mem_of_mem_take hc)
  · cases h

theorem bytes_blanks {cs : List Char} (h : ∀ c ∈ cs, c = ' ') : bytes cs = cs.length := by
  unfold bytes
  induction cs with
  | nil => rfl
  | cons c cs ih =>
    obtain rfl := h c (List.mem_cons_self ..)
    rw [List.map_cons, List.sum_cons, ih fun d hd => h d (List.mem_cons_of_mem _ hd), List.length_cons]
    exact Nat.add_comm 1 cs.length

theorem unpadded_append_blanks (s : String) :
    ∃ blanks, s.toList = unpadded s ++ blanks ∧ ∀ c ∈ blanks, c = ' ' :=
  ⟨s.toList.rtakeWhile (· = ' '), List.rdropWhile_append_rtakeWhile.symm, fun c hc => by simpa using List.mem_rtakeWhile_imp hc⟩

/-- Only blanks are cut off, a byte each, and as many as do not fit. -/
theorem text_bytes {n : Nat} {s t : String} (h : text n s = some t) : bytes t.toList ≤ n := by
  unfold text at h
  split at h
  · rename_i hfits
    obtain rfl := Option.some.inj h
    obtain ⟨blanks, hs, hblanks⟩ := unpadded_append_blanks s
    have hbytes : bytes s.toList = bytes (unpadded s) + blanks.length := by
      rw [← bytes_blanks hblanks, bytes, bytes, bytes, ← List.sum_append, ← List.map_append, hs]
    have hlength : s.length = (unpadded s).length + blanks.length := by
      rw [← String.length_toList, ← List.length_append, hs]
    have hcount : s.length - (bytes s.toList - n) = (unpadded s).length + (blanks.length - (bytes s.toList - n)) := by
      omega
    have hkept : s.toList.take (s.length - (bytes s.toList - n)) =
        unpadded s ++ blanks.take (blanks.length - (bytes s.toList - n)) := by
      rw [hcount, List.take_add, hs, List.take_left, List.drop_left]
    have hcut : bytes (blanks.take (blanks.length - (bytes s.toList - n))) = blanks.length - (bytes s.toList - n) := by
      rw [bytes_blanks fun c hc => hblanks c (List.mem_of_mem_take hc), List.length_take]
      omega
    rw [String.toList_ofList, hkept, bytes, List.map_append, List.sum_append]
    unfold bytes at hcut hbytes hfits ⊢
    omega
  · cases h

theorem basicColumn_isSome {keep : String → Option String} {s : String} :
    (basicColumn keep s).isSome = true ↔ basicPlane s = true ∧ (keep s).isSome = true := by
  unfold basicColumn
  split <;> simp [*]

theorem basicColumn_eq_some {keep : String → Option String} {s t : String} :
    basicColumn keep s = some t ↔ basicPlane s = true ∧ keep s = some t := by
  unfold basicColumn
  split <;> simp [*]

/-- A column keeps what it kept. -/
theorem basicColumn_varchar_kept {n : Nat} {s t : String} (h : basicColumn (varchar n) s = some t) :
    basicColumn (varchar n) t = some t := by
  obtain ⟨hplane, hkept⟩ := basicColumn_eq_some.mp h
  exact basicColumn_eq_some.mpr ⟨basicPlane_varchar hplane hkept, varchar_eq_self.mpr (varchar_length hkept)⟩

theorem rdropWhile_take {p : Char → Bool} {n : Nat} (l : List Char) (h : (l.rdropWhile p).length ≤ n) :
    (l.take n).rdropWhile p = l.rdropWhile p := by
  induction l using List.reverseRecOn with
  | nil => rw [List.take_nil]
  | append_singleton l c ih =>
    by_cases hlen : (l ++ [c]).length ≤ n
    · rw [List.take_of_length_le hlen]
    · rw [List.length_append, List.length_singleton] at hlen
      rw [List.take_append_of_le_length (by omega)]
      by_cases hc : p c
      · rw [List.rdropWhile_concat_pos _ _ _ hc] at h ⊢
        exact ih h
      · rw [List.rdropWhile_concat_neg _ _ _ hc, List.length_append, List.length_singleton] at h
        omega

theorem unpadded_varchar {n : Nat} {text kept : String} (h : varchar n text = some kept) :
    unpadded kept = unpadded text := by
  unfold varchar at h
  split at h
  · rename_i hlen
    obtain rfl := Option.some.inj h
    show (String.ofList _).toList.rdropWhile _ = _
    rw [String.toList_ofList]
    exact rdropWhile_take _ hlen
  · cases h

theorem rdropWhile_append {p : Char → Bool} {l : List Char} (h : l.rdropWhile p = l) (m : List Char) :
    (l ++ m).rdropWhile p = l ++ m.rdropWhile p := by
  induction m using List.reverseRecOn with
  | nil => rw [List.append_nil, List.rdropWhile_nil, List.append_nil, h]
  | append_singleton m c ih =>
    rw [← List.append_assoc]
    by_cases hc : p c
    · rw [List.rdropWhile_concat_pos _ _ _ hc, List.rdropWhile_concat_pos _ _ _ hc, ih]
    · rw [List.rdropWhile_concat_neg _ _ _ hc, List.rdropWhile_concat_neg _ _ _ hc, List.append_assoc]

/-- After a text that does not end in a blank. -/
theorem unpadded_append {s : String} (h : unpadded s = s.toList) (t : String) : unpadded (s ++ t) = s.toList ++ unpadded t := by
  rw [unpadded, String.toList_append]
  exact rdropWhile_append h t.toList

end GenieCloud.Lib
