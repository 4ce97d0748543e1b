/-
  GenieCloud.Lib.Json — JSON values, `JSON.stringify` and `JSON.parse`.

  Numbers are a parameter (`Numeral`): a type whose members have a literal that reads back
  to them, as every number that JSON can carry has in the language. An object is the list
  of its fields in enumeration order. A string value holds no lone surrogate.

  - `parse_stringify`: a value written is the value read (`value_text` is the induction:
    the reader takes exactly the text of a value off the front of its input, given as much
    fuel as the text is long).
  - `stringify_injective`: so two values with one text are one value.
-/

import GenieCloud.Lib.Utf16
import Mathlib.Data.List.TakeWhile

namespace GenieCloud.Lib.Json

open GenieCloud.Lib.Utf16

/-! ## Values and their text -/

def isNumeral (c : Char) : Bool := c.isDigit || c == '-' || c == '+' || c == '.' || c == 'e' || c == 'E'

class Numeral (N : Type) where
  text : N → List Char
  ofText : List Char → Option N
  ofText_text : ∀ n, ofText (text n) = some n
  text_ne_nil : ∀ n, text n ≠ []
  isNumeral_of_mem : ∀ n, ∀ c ∈ text n, isNumeral c = true

inductive Value (N : Type)
  | null
  | bool (b : Bool)
  | num (n : N)
  | str (s : String)
  | arr (elements : List (Value N))
  | obj (fields : List (String × Value N))

/-- The quotation mark and the backslash. -/
def mark : Char := '\x22'
def backslash : Char := '\x5c'

def hexDigit (n : Nat) : Char := if n < 10 then Char.ofNat (0x30 + n) else Char.ofNat (0x57 + n)

def escape (c : Char) : List Char :=
  if c = mark then [backslash, mark]
  else if c = backslash then [backslash, backslash]
  else if c = '\x08' then [backslash, 'b']
  else if c = '\x0c' then [backslash, 'f']
  else if c = '\n' then [backslash, 'n']
  else if c = '\r' then [backslash, 'r']
  else if c = '\t' then [backslash, 't']
  else if c.toNat < 0x20 then [backslash, 'u', '0', '0', hexDigit (c.toNat / 16), hexDigit (c.toNat % 16)]
  else [c]

def quote (s : String) : List Char := mark :: (s.toList.flatMap escape ++ [mark])

variable {N : Type} [Numeral N]

mutual

def text : Value N → List Char
  | .null => ['n', 'u', 'l', 'l']
  | .bool true => ['t', 'r', 'u', 'e']
  | .bool false => ['f', 'a', 'l', 's', 'e']
  | .num n => Numeral.text n
  | .str s => quote s
  | .arr [] => ['[', ']']
  | .arr (x :: xs) => '[' :: (text x ++ textElements xs)
  | .obj [] => ['{', '}']
  | .obj ((k, x) :: fs) => '{' :: (quote k ++ ':' :: (text x ++ textFields fs))

/-- The elements after the first, and the bracket. -/
def textElements : List (Value N) → List Char
  | [] => [']']
  | x :: xs => ',' :: (text x ++ textElements xs)

def textFields : List (String × Value N) → List Char
  | [] => ['}']
  | (k, x) :: fs => ',' :: (quote k ++ ':' :: (text x ++ textFields fs))

end

def stringify (j : Value N) : String := String.ofList (text j)

/-! ## Reading -/

def isSpace (c : Char) : Bool := c == ' ' || c == '\n' || c == '\r' || c == '\t'

def skip (cs : List Char) : List Char := cs.dropWhile isSpace

def hexValue (c : Char) : Option Nat :=
  if 0x30 ≤ c.toNat ∧ c.toNat ≤ 0x39 then some (c.toNat - 0x30)
  else if 0x61 ≤ c.toNat ∧ c.toNat ≤ 0x66 then some (c.toNat - 0x57)
  else if 0x41 ≤ c.toNat ∧ c.toNat ≤ 0x46 then some (c.toNat - 0x37)
  else none

def unescape (c : Char) : Option Nat :=
  if c = mark ∨ c = backslash ∨ c = '/' then some c.toNat
  else if c = 'b' then some 0x08
  else if c = 'f' then some 0x0c
  else if c = 'n' then some 0x0a
  else if c = 'r' then some 0x0d
  else if c = 't' then some 0x09
  else none

/-- The code units of a character `c` of a string, or of the escape it starts. -/
def unit (c : Char) (r : List Char) : Option (List Nat × List Char) :=
  if c = backslash then
    match r with
    | 'u' :: x :: y :: z :: w :: r => do
      let u := (← hexValue x) * 0x1000 + (← hexValue y) * 0x100 + (← hexValue z) * 0x10 + (← hexValue w)
      return ([u], r)
    | e :: r => do return ([← unescape e], r)
    | [] => none
  else if c.toNat < 0x20 then none
  else some (units c, r)

/-- The code units of a string, after its opening mark, and what follows it. -/
def body : Nat → List Char → Option (List Nat × List Char)
  | 0, _ => none
  | _, [] => none
  | fuel + 1, c :: r =>
    if c = mark then some ([], r)
    else do
      let (us, r) ← unit c r
      let (vs, r) ← body fuel r
      return (us ++ vs, r)

def string (cs : List Char) : Option (String × List Char) := do
  let (us, r) ← body cs.length cs
  return (String.ofList (← decode us), r)

/-- The name of a field, and its colon. -/
def name (cs : List Char) : Option (String × List Char) :=
  match skip cs with
  | [] => none
  | c :: r =>
    if c = mark then do
      let (k, r) ← string r
      match skip r with
      | ':' :: r => return (k, r)
      | _ => none
    else none

def word : List Char → Option (Value N × List Char)
  | 'n' :: 'u' :: 'l' :: 'l' :: r => some (.null, r)
  | 't' :: 'r' :: 'u' :: 'e' :: r => some (.bool true, r)
  | 'f' :: 'a' :: 'l' :: 's' :: 'e' :: r => some (.bool false, r)
  | _ => none

def number (cs : List Char) : Option (Value N × List Char) := do
  let n ← Numeral.ofText (cs.takeWhile isNumeral)
  return (.num n, cs.dropWhile isNumeral)

mutual

/-- The value at the front, and what follows it. -/
def value : Nat → List Char → Option (Value N × List Char)
  | 0, _ => none
  | fuel + 1, cs =>
    match skip cs with
    | [] => none
    | c :: r =>
      if c = mark then do
        let (s, r) ← string r
        return (.str s, r)
      else if c = '[' then
        if (skip r).head? = some ']' then some (.arr [], (skip r).tail)
        else do
          let (x, r) ← value fuel r
          let (xs, r) ← elements fuel r
          return (.arr (x :: xs), r)
      else if c = '{' then
        if (skip r).head? = some '}' then some (.obj [], (skip r).tail)
        else do
          let (k, r) ← name r
          let (x, r) ← value fuel r
          let (fs, r) ← fields fuel r
          return (.obj ((k, x) :: fs), r)
      else if isNumeral c then number (c :: r)
      else word (c :: r)

def elements : Nat → List Char → Option (List (Value N) × List Char)
  | 0, _ => none
  | fuel + 1, cs =>
    match skip cs with
    | ']' :: r => some ([], r)
    | ',' :: r => do
      let (x, r) ← value fuel r
      let (xs, r) ← elements fuel r
      return (x :: xs, r)
    | _ => none

def fields : Nat → List Char → Option (List (String × Value N) × List Char)
  | 0, _ => none
  | fuel + 1, cs =>
    match skip cs with
    | '}' :: r => some ([], r)
    | ',' :: r => do
      let (k, r) ← name r
      let (x, r) ← value fuel r
      let (fs, r) ← fields fuel r
      return ((k, x) :: fs, r)
    | _ => none

end

def parse (s : String) : Option (Value N) := do
  let (j, r) ← value s.toList.length s.toList
  if (skip r).isEmpty then some j else none

/-! ## Strings -/

theorem hexValue_hexDigit : ∀ n < 16, hexValue (hexDigit n) = some n := by decide

theorem unit_escape (c : Char) (r : List Char) :
    ∃ d r', escape c ++ r = d :: r' ∧ d ≠ mark ∧ unit d r' = some (units c, r) := by
  unfold escape
  split
  · next h => subst h; exact ⟨backslash, _, rfl, by decide, rfl⟩
  split
  · next h => subst h; exact ⟨backslash, _, rfl, by decide, rfl⟩
  split
  · next h => subst h; exact ⟨backslash, _, rfl, by decide, rfl⟩
  split
  · next h => subst h; exact ⟨backslash, _, rfl, by decide, rfl⟩
  split
  · next h => subst h; exact ⟨backslash, _, rfl, by decide, rfl⟩
  split
  · next h => subst h; exact ⟨backslash, _, rfl, by decide, rfl⟩
  split
  · next h => subst h; exact ⟨backslash, _, rfl, by decide, rfl⟩
  split
  · next hmark hback _ _ _ _ _ hlt =>
    have hx := hexValue_hexDigit (c.toNat / 16) (by omega)
    have hy := hexValue_hexDigit (c.toNat % 16) (by omega)
    have hz : hexValue '0' = some 0 := by decide
    have hc : 0 * 0x1000 + 0 * 0x100 + c.toNat / 16 * 0x10 + c.toNat % 16 = c.toNat := by omega
    refine ⟨backslash, 'u' :: '0' :: '0' :: hexDigit (c.toNat / 16) :: hexDigit (c.toNat % 16) :: r, rfl,
      by decide, ?_⟩
    simp only [unit, if_true, hx, hy, hz, Option.bind_eq_bind, Option.bind_some,
      hc, Option.pure_def, units_small (Nat.lt_trans hlt (by decide : 0x20 < 0x10000))]
  · next hmark hback _ _ _ _ _ hlt =>
    exact ⟨c, r, rfl, hmark, by simp only [unit, hback, hlt, if_false]⟩

theorem length_le_flatMap_escape (cs : List Char) : cs.length ≤ (cs.flatMap escape).length := by
  induction cs with
  | nil => exact Nat.le_refl 0
  | cons c cs ih =>
    obtain ⟨d, r, h, -⟩ := unit_escape c []
    have hpos : 0 < (escape c).length := by
      rw [List.append_nil] at h
      rw [h]; exact Nat.zero_lt_succ _
    rw [List.flatMap_cons, List.length_append, List.length_cons]
    omega

theorem body_flatMap {cs : List Char} {fuel : Nat} (h : cs.length < fuel) (r : List Char) :
    body fuel (cs.flatMap escape ++ mark :: r) = some (encode cs, r) := by
  induction cs generalizing fuel with
  | nil =>
    obtain ⟨n, rfl⟩ := Nat.exists_eq_add_one_of_ne_zero (Nat.ne_of_gt h)
    rw [List.flatMap_nil, List.nil_append, body, if_pos rfl]
    rfl
  | cons c cs ih =>
    obtain ⟨n, rfl⟩ := Nat.exists_eq_add_one_of_ne_zero (Nat.ne_of_gt (Nat.zero_lt_of_lt h))
    obtain ⟨d, r', heq, hd, hu⟩ := unit_escape c (cs.flatMap escape ++ mark :: r)
    rw [List.flatMap_cons, List.append_assoc, heq, body, if_neg hd, hu]
    simp only [Option.bind_eq_bind, Option.bind_some, ih (Nat.lt_of_succ_lt_succ h)]
    rfl

theorem string_flatMap (s : String) (r : List Char) :
    string (s.toList.flatMap escape ++ mark :: r) = some (s, r) := by
  have hlen : s.toList.length < (s.toList.flatMap escape ++ mark :: r).length := by
    have := length_le_flatMap_escape s.toList
    rw [List.length_append, List.length_cons]
    omega
  simp only [string, body_flatMap hlen, Option.bind_eq_bind, Option.bind_some, decode_encode, Option.pure_def,
    String.ofList_toList]

theorem skip_of_not_isSpace {c : Char} (h : isSpace c = false) (r : List Char) : skip (c :: r) = c :: r := by
  simp only [skip, List.dropWhile_cons, h, Bool.false_eq_true, if_false]

theorem name_quote (k : String) (r : List Char) : name (quote k ++ ':' :: r) = some (k, r) := by
  simp only [name, quote, List.cons_append, List.append_assoc, List.nil_append]
  rw [skip_of_not_isSpace (by decide)]
  simp only [if_true, string_flatMap, Option.bind_eq_bind, Option.bind_some]
  rw [skip_of_not_isSpace (by decide)]
  rfl

/-! ## Values -/

theorem isNumeral_ne {c : Char} (h : isNumeral c = true) :
    isSpace c = false ∧ c ≠ mark ∧ c ≠ '[' ∧ c ≠ ']' ∧ c ≠ '{' := by
  refine ⟨?_, ?_, ?_, ?_, ?_⟩
  · rw [← Bool.not_eq_true]
    intro hs
    simp only [isSpace, Bool.or_eq_true, beq_iff_eq] at hs
    rcases hs with ((rfl | rfl) | rfl) | rfl <;> exact absurd h (by decide)
  all_goals (rintro rfl; exact absurd h (by decide))

/-- The first character of a value. -/
theorem text_head (j : Value N) : ∃ c r, text j = c :: r ∧ isSpace c = false ∧ c ≠ ']' := by
  cases j with
  | null => exact ⟨'n', _, rfl, by decide, by decide⟩
  | bool b =>
    cases b with
    | false => exact ⟨'f', _, rfl, by decide, by decide⟩
    | true => exact ⟨'t', _, rfl, by decide, by decide⟩
  | num n =>
    obtain ⟨c, r, h⟩ := List.exists_cons_of_ne_nil (Numeral.text_ne_nil n)
    obtain ⟨hs, -, -, hb, -⟩ := isNumeral_ne (Numeral.isNumeral_of_mem n c (h ▸ List.mem_cons_self ..))
    exact ⟨c, r, by rw [text, h], hs, hb⟩
  | str s => exact ⟨mark, _, rfl, by decide, by decide⟩
  | arr xs =>
    cases xs with
    | nil => exact ⟨'[', _, rfl, by decide, by decide⟩
    | cons x xs => exact ⟨'[', _, rfl, by decide, by decide⟩
  | obj fs =>
    cases fs with
    | nil => exact ⟨'{', _, rfl, by decide, by decide⟩
    | cons f fs => exact ⟨'{', _, rfl, by decide, by decide⟩

/-- What follows a value does not go on with a number. -/
def Ends (r : List Char) : Prop := ∀ c ∈ r.head?, isNumeral c = false

theorem ends_textElements (xs : List (Value N)) (r : List Char) : Ends (textElements xs ++ r) := by
  cases xs <;> (intro c hc; cases hc; decide)

theorem ends_textFields (fs : List (String × Value N)) (r : List Char) : Ends (textFields fs ++ r) := by
  cases fs <;> (intro c hc; cases hc; decide)

theorem Ends.takeWhile {r : List Char} (h : Ends r) : r.takeWhile isNumeral = [] ∧ r.dropWhile isNumeral = r := by
  cases r with
  | nil => exact ⟨rfl, rfl⟩
  | cons c r =>
    have hc : isNumeral c = false := h c rfl
    simp only [List.takeWhile_cons, List.dropWhile_cons, hc, Bool.false_eq_true, if_false, and_self]

theorem number_text {n : N} {r : List Char} (h : Ends r) :
    number (Numeral.text n ++ r) = some (Value.num n, r) := by
  have hall := Numeral.isNumeral_of_mem n
  rw [number, List.takeWhile_append_of_pos hall, List.dropWhile_append_of_pos hall, h.takeWhile.1, h.takeWhile.2,
    List.append_nil, Numeral.ofText_text]
  rfl

theorem exists_succ {m n : Nat} (h : m + 1 ≤ n) : ∃ k, n = k + 1 ∧ m ≤ k :=
  ⟨n - 1, by omega, by omega⟩

mutual

theorem value_text (j : Value N) (fuel : Nat) (r : List Char) (h : (text j).length ≤ fuel) (hr : Ends r) :
    value fuel (text j ++ r) = some (j, r) := by
  cases j with
  | null =>
    obtain ⟨k, rfl, -⟩ := exists_succ h
    rfl
  | bool b =>
    cases b <;> (obtain ⟨k, rfl, -⟩ := exists_succ h; rfl)
  | num n =>
    obtain ⟨c, t, ht⟩ := List.exists_cons_of_ne_nil (Numeral.text_ne_nil n)
    have hc : isNumeral c = true := Numeral.isNumeral_of_mem n c (ht ▸ List.mem_cons_self ..)
    obtain ⟨hs, hm, hb, -, ho⟩ := isNumeral_ne hc
    have hnum := number_text (n := n) hr
    rw [text, ht] at h ⊢
    rw [ht] at hnum
    obtain ⟨k, rfl, -⟩ := exists_succ h
    rw [List.cons_append, value, skip_of_not_isSpace hs]
    simp only [hm, hb, ho, hc, if_false, if_true]
    exact hnum
  | str s =>
    obtain ⟨k, rfl, -⟩ := exists_succ h
    rw [text, quote, List.cons_append, List.append_assoc, List.singleton_append, value,
      skip_of_not_isSpace (by decide)]
    simp only [if_true, string_flatMap]
    rfl
  | arr xs =>
    cases xs with
    | nil => obtain ⟨k, rfl, -⟩ := exists_succ h; rfl
    | cons x xs =>
      obtain ⟨k, rfl, hk⟩ := exists_succ h
      rw [List.length_append] at hk
      obtain ⟨c, t, ht, hs, hb⟩ := text_head x
      have hx := value_text x k (textElements xs ++ r) (by omega) (ends_textElements xs r)
      have hxs := elements_text xs k r (by omega)
      rw [text, List.cons_append, List.append_assoc, value, skip_of_not_isSpace (by decide)]
      have hskip : skip (text x ++ (textElements xs ++ r)) = text x ++ (textElements xs ++ r) := by
        rw [ht, List.cons_append, skip_of_not_isSpace hs]
      have hhead : (text x ++ (textElements xs ++ r)).head? ≠ some ']' := by
        rw [ht, List.cons_append, List.head?_cons]
        exact fun e => hb (Option.some.inj e)
      dsimp only
      rw [if_neg (by decide), if_pos rfl, hskip, if_neg hhead, hx]
      simp only [Option.bind_eq_bind, Option.bind_some, hxs]
      rfl
  | obj fs =>
    cases fs with
    | nil => obtain ⟨k, rfl, -⟩ := exists_succ h; rfl
    | cons f fs =>
      obtain ⟨key, x⟩ := f
      obtain ⟨k, rfl, hk⟩ := exists_succ h
      simp only [List.length_append, List.length_cons] at hk
      have hx := value_text x k (textFields fs ++ r) (by omega) (ends_textFields fs r)
      have hfs := fields_text fs k r (by omega)
      have hname := name_quote key (text x ++ (textFields fs ++ r))
      rw [text, List.cons_append, List.append_assoc, List.cons_append, List.append_assoc, value,
        skip_of_not_isSpace (by decide)]
      have hhead : (skip (quote key ++ ':' :: (text x ++ (textFields fs ++ r)))).head? ≠ some '}' := by
        rw [quote, List.cons_append, skip_of_not_isSpace (by decide), List.head?_cons]
        decide
      dsimp only
      rw [if_neg (by decide), if_neg (by decide), if_pos rfl, if_neg hhead, hname]
      simp only [Option.bind_eq_bind, Option.bind_some, hx, hfs]
      rfl

theorem elements_text (xs : List (Value N)) (fuel : Nat) (r : List Char) (h : (textElements xs).length ≤ fuel) :
    elements fuel (textElements xs ++ r) = some (xs, r) := by
  cases xs with
  | nil => obtain ⟨k, rfl, -⟩ := exists_succ h; rfl
  | cons x xs =>
    obtain ⟨k, rfl, hk⟩ := exists_succ h
    rw [List.length_append] at hk
    have hx := value_text x k (textElements xs ++ r) (by omega) (ends_textElements xs r)
    have hxs := elements_text xs k r (by omega)
    rw [textElements, List.cons_append, List.append_assoc, elements, skip_of_not_isSpace (by decide)]
    simp only [Option.bind_eq_bind, Option.bind_some, hx, hxs]
    rfl

theorem fields_text (fs : List (String × Value N)) (fuel : Nat) (r : List Char)
    (h : (textFields fs).length ≤ fuel) : fields fuel (textFields fs ++ r) = some (fs, r) := by
  cases fs with
  | nil => obtain ⟨k, rfl, -⟩ := exists_succ h; rfl
  | cons f fs =>
    obtain ⟨key, x⟩ := f
    obtain ⟨k, rfl, hk⟩ := exists_succ h
    simp only [List.length_append, List.length_cons] at hk
    have hx := value_text x k (textFields fs ++ r) (by omega) (ends_textFields fs r)
    have hfs := fields_text fs k r (by omega)
    have hname := name_quote key (text x ++ (textFields fs ++ r))
    rw [textFields, List.cons_append, List.append_assoc, List.cons_append, List.append_assoc, fields,
      skip_of_not_isSpace (by decide)]
    simp only [Option.bind_eq_bind, Option.bind_some, hname, hx, hfs]
    rfl

end

/-- `JSON.parse(JSON.stringify(j))` is `j`. -/
theorem parse_stringify (j : Value N) : parse (stringify j) = some j := by
  have h := value_text j (text j).length [] (Nat.le_refl _) nofun
  rw [List.append_nil] at h
  simp only [parse, stringify, String.toList_ofList, h, Option.bind_eq_bind, Option.bind_some]
  rfl

theorem stringify_injective {i j : Value N} (h : stringify i = stringify j) : i = j :=
  Option.some.inj ((parse_stringify i).symm.trans (h ▸ parse_stringify j))

/-! ## Integers -/

def ofDigits (cs : List Char) : Option Nat :=
  if cs ≠ [] ∧ cs.all Char.isDigit then some (Nat.ofDigitChars 10 cs 0) else none

theorem ofDigits_toDigits (n : Nat) : ofDigits (Nat.toDigits 10 n) = some n := by
  have hall : (Nat.toDigits 10 n).all Char.isDigit = true :=
    List.all_eq_true.2 fun c hc => Nat.isDigit_of_mem_toDigits (by decide) (by decide) hc
  rw [ofDigits, if_pos ⟨Nat.toDigits_ne_nil, hall⟩, Nat.ofDigitChars_ten_toDigits]

theorem isNumeral_of_mem_toDigits {n : Nat} {c : Char} (h : c ∈ Nat.toDigits 10 n) : isNumeral c = true := by
  have hd : c.isDigit = true := Nat.isDigit_of_mem_toDigits (by decide) (by decide) h
  simp only [isNumeral, hd, Bool.true_or]

def textInt : Int → List Char
  | .ofNat n => Nat.toDigits 10 n
  | .negSucc n => '-' :: Nat.toDigits 10 (n + 1)

def ofTextInt (cs : List Char) : Option Int :=
  if cs.head? = some '-' then (ofDigits cs.tail).map fun n => -(n : Int) else (ofDigits cs).map Int.ofNat

instance : Numeral Int where
  text := textInt
  ofText := ofTextInt
  ofText_text n := by
    cases n with
    | ofNat n =>
      have hne : (Nat.toDigits 10 n).head? ≠ some '-' := by
        intro h
        have hd := Nat.isDigit_of_mem_toDigits (by decide) (by decide) (List.mem_of_head? h)
        exact absurd hd (by decide)
      rw [textInt, ofTextInt, if_neg hne, ofDigits_toDigits, Option.map_some]
    | negSucc n => rw [textInt, ofTextInt, List.head?_cons, if_pos rfl, List.tail_cons, ofDigits_toDigits]; rfl
  text_ne_nil n := by
    cases n with
    | ofNat n => exact Nat.toDigits_ne_nil
    | negSucc n => exact List.cons_ne_nil _ _
  isNumeral_of_mem n c hc := by
    cases n with
    | ofNat n => exact isNumeral_of_mem_toDigits hc
    | negSucc n =>
      rcases List.mem_cons.1 hc with rfl | hc
      · decide
      · exact isNumeral_of_mem_toDigits hc

end GenieCloud.Lib.Json
