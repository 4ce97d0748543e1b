/-
  GenieCloud.Lib.Utf16 — strings as UTF-16 code units: what a script's `\u` escapes name
  and what its `sort` compares.

  - `decode_encode`: the code units of a string decode to it.
  - `sort_eq_sort_iff`: sorting two lists without repetitions gives one list exactly when they
    have the same elements.
-/

import Mathlib.Data.List.Lex
import Mathlib.Data.List.Sort
import Mathlib.Order.Basic

namespace GenieCloud.Lib.Utf16

/-! ## Code units -/

def units (c : Char) : List Nat :=
  if c.toNat < 0x10000 then [c.toNat]
  else [0xD800 + (c.toNat - 0x10000) / 0x400, 0xDC00 + (c.toNat - 0x10000) % 0x400]

def encode (cs : List Char) : List Nat := cs.flatMap units

def isHigh (u : Nat) : Bool := decide (0xD800 ≤ u ∧ u < 0xDC00)

def isLow (u : Nat) : Bool := decide (0xDC00 ≤ u ∧ u < 0xE000)

/-- `none` at a lone surrogate, which no `Char` is. -/
def decode : List Nat → Option (List Char)
  | [] => some []
  | [u] => if isHigh u || isLow u then none else some [Char.ofNat u]
  | u :: v :: us =>
    if isHigh u then
      if isLow v then
        (decode us).map (Char.ofNat (0x10000 + (u - 0xD800) * 0x400 + (v - 0xDC00)) :: ·)
      else none
    else if isLow u then none
    else (decode (v :: us)).map (Char.ofNat u :: ·)

theorem units_small {c : Char} (h : c.toNat < 0x10000) : units c = [c.toNat] := if_pos h

theorem toNat_of_isAlphanum {c : Char} (h : c.isAlphanum = true) : 48 ≤ c.toNat ∧ c.toNat ≤ 122 := by
  delta Char.isAlphanum Char.isAlpha Char.isUpper Char.isLower Char.isDigit at h
  simp only [Bool.or_eq_true, Bool.and_eq_true, decide_eq_true_eq, ge_iff_le, UInt32.le_iff_toNat_le] at h
  rcases h with (h | h) | h
  · exact ⟨Nat.le_trans (by decide) h.1, Nat.le_trans h.2 (by decide)⟩
  · exact ⟨Nat.le_trans (by decide) h.1, Nat.le_trans h.2 (by decide)⟩
  · exact ⟨Nat.le_trans (by decide) h.1, Nat.le_trans h.2 (by decide)⟩

theorem toNat_not_surrogate (c : Char) : isHigh c.toNat = false ∧ isLow c.toNat = false := by
  have h := c.valid
  simp only [isHigh, isLow, decide_eq_false_iff_not]
  rcases h with h | ⟨h, h'⟩
  · have : c.toNat < 0xD800 := h
    omega
  · have : 0xDFFF < c.toNat := h
    omega

theorem decode_cons {u : Nat} (hh : isHigh u = false) (hl : isLow u = false) (us : List Nat) :
    decode (u :: us) = (decode us).map (Char.ofNat u :: ·) := by
  cases us with
  | nil => simp only [decode, hh, hl, Bool.or_self, Bool.false_eq_true, if_false, Option.map_some]
  | cons v us => rw [decode, hh, hl]; rfl

theorem decode_units_append (c : Char) (us : List Nat) : decode (units c ++ us) = (decode us).map (c :: ·) := by
  by_cases hc : c.toNat < 0x10000
  · obtain ⟨hh, hl⟩ := toNat_not_surrogate c
    rw [units_small hc, List.singleton_append, decode_cons hh hl, Char.ofNat_toNat]
  · have hmax : c.toNat < 0x110000 := by
      have h := c.valid
      rcases h with h | ⟨-, h⟩
      · exact Nat.lt_trans h (by decide)
      · exact h
    have hhigh : isHigh (0xD800 + (c.toNat - 0x10000) / 0x400) = true := by
      simp only [isHigh, decide_eq_true_eq]; omega
    have hlow : isLow (0xDC00 + (c.toNat - 0x10000) % 0x400) = true := by
      simp only [isLow, decide_eq_true_eq]; omega
    have hnat : 0x10000 + (0xD800 + (c.toNat - 0x10000) / 0x400 - 0xD800) * 0x400 +
        (0xDC00 + (c.toNat - 0x10000) % 0x400 - 0xDC00) = c.toNat := by omega
    rw [units, if_neg hc, List.cons_append, List.singleton_append, decode, if_pos hhigh, if_pos hlow, hnat,
      Char.ofNat_toNat]

theorem decode_encode (cs : List Char) : decode (encode cs) = some cs := by
  induction cs with
  | nil => rfl
  | cons c cs ih =>
    rw [encode, List.flatMap_cons, decode_units_append]
    rw [encode] at ih
    rw [ih, Option.map_some]

theorem encode_injective {cs ds : List Char} (h : encode cs = encode ds) : cs = ds :=
  Option.some.inj ((decode_encode cs).symm.trans (h ▸ decode_encode ds))

/-! ## Sorting by code units -/

/-- The order of a script's `sort()` on strings. -/
def le (s t : String) : Prop := encode s.toList ≤ encode t.toList

instance : DecidableRel le := fun s t => inferInstanceAs (Decidable (encode s.toList ≤ encode t.toList))

instance : Std.Total le := ⟨fun s t => le_total (encode s.toList) (encode t.toList)⟩

instance : IsTrans String le :=
  ⟨fun s t u (h : encode s.toList ≤ encode t.toList) (h' : encode t.toList ≤ encode u.toList) => le_trans h h'⟩

instance : Std.Antisymm le :=
  ⟨fun _ _ h h' => String.toList_injective (encode_injective (le_antisymm h h'))⟩

def sort (xs : List String) : List String := xs.insertionSort le

theorem sort_perm (xs : List String) : (sort xs).Perm xs := List.perm_insertionSort le xs

theorem mem_sort {xs : List String} {x : String} : x ∈ sort xs ↔ x ∈ xs := (sort_perm xs).mem_iff

/-- Sorting tells apart exactly the sets. -/
theorem sort_eq_sort_iff {xs ys : List String} (hx : xs.Nodup) (hy : ys.Nodup) :
    sort xs = sort ys ↔ ∀ x, x ∈ xs ↔ x ∈ ys := by
  constructor
  · intro h x
    rw [← mem_sort, h, mem_sort]
  · intro h
    have hp : (sort xs).Perm (sort ys) :=
      (sort_perm xs).trans (((List.perm_ext_iff_of_nodup hx hy).2 h).trans (sort_perm ys).symm)
    exact List.Perm.eq_of_pairwise' (List.pairwise_insertionSort le xs) (List.pairwise_insertionSort le ys) hp

end GenieCloud.Lib.Utf16
