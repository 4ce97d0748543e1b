/-
  GenieCloud.Util.KfInferenceUrl — the URL of the inference service of a model
  (`util/kf_inference_url.ts`).

  The name of the service is the id of the model with each unsupported code unit as `x` and its
  number in hexadecimal, and `-` for the dots. A name of more than 45 characters is cut, and ends
  with the beginning of the hash of the id.

  - `replaceDots_escape`: the escaped id has supported characters only.
  - `escapedId_head`: cut or not, it starts as the escaped id does.
  - `validName_iff`: the name is valid exactly if the id starts, and with neither a digit nor a
    dot, which are not escaped at the start either.
  - `getKfInferenceUrl_eq_iff`: two models have the same URL exactly if they have the same name.
  - `distinct_iff`: two ids have the same name exactly if they are the same up to hexadecimal
    digits that follow an escape, which has neither a fixed width nor an end.
-/

import Mathlib.Data.List.Basic
import Mathlib.Data.List.Forall2

namespace GenieCloud.Util.KfInferenceUrl

/-- `createHash('sha1')`: the digest of a string of code units, in hexadecimal. -/
structure Sha1 where
  hex : List UInt16 → List Char
  hex_length : ∀ id, (hex id).length = 40
  hex_digits : ∀ id, ∀ c ∈ hex id, c ∈ "0123456789abcdef".toList

/-! ## The name -/

/-- `[a-wyz0-9.]` -/
def supported (unit : UInt16) : Bool :=
  (97 ≤ unit.toNat && unit.toNat ≤ 119) || unit.toNat = 121 || unit.toNat = 122 || (48 ≤ unit.toNat && unit.toNat ≤ 57) ||
    unit.toNat = 46

def escapeUnit (unit : UInt16) : List Char :=
  if supported unit then [Char.ofNat unit.toNat] else 'x' :: Nat.toDigits 16 unit.toNat

def replaceDots (cs : List Char) : List Char := cs.map fun c => if c = '.' then '-' else c

def escapedId (sha1 : Sha1) (id : List UInt16) : List Char :=
  let escapedId := replaceDots (id.flatMap escapeUnit)
  if escapedId.length > 45 then escapedId.take 40 ++ (sha1.hex id).take 5 else escapedId

def getKfInferenceUrl (sha1 : Sha1) (id : List UInt16) (namespace_ : String) : String :=
  let escapedId := String.ofList (escapedId sha1 id)
  "http://" ++ escapedId ++ "." ++ namespace_ ++ ".svc.cluster.local/v1/models/" ++ escapedId ++ ":predict"

/-! ## What the comment states -/

def isLower (c : Char) : Bool := "abcdefghijklmnopqrstuvwxyz".toList.contains c

/-- Lower case alphanumeric, or a dash. -/
def isNameChar (c : Char) : Bool := isLower c || "0123456789".toList.contains c || c == '-'

structure ValidName (name : List Char) : Prop where
  short : name.length ≤ 45
  chars : ∀ c ∈ name, isNameChar c = true
  start : ∃ c, name.head? = some c ∧ isLower c = true

/-- The code unit of a digit or a dot. -/
def isDigitOrDot (unit : UInt16) : Bool := (48 ≤ unit.toNat && unit.toNat ≤ 57) || unit.toNat = 46

/-! ## Characters -/

theorem mem_toDigits (n : Nat) : ∀ c ∈ Nat.toDigits 16 n, c ∈ "0123456789abcdef".toList := by
  have hdigit : ∀ d, d < 16 → Nat.digitChar d ∈ "0123456789abcdef".toList := by decide
  induction n using Nat.strongRecOn with
  | ind n ih =>
    intro c hc
    by_cases hn : n < 16
    · rw [Nat.toDigits_of_lt_base hn, List.mem_singleton] at hc
      exact hc ▸ hdigit n hn
    · rw [Nat.toDigits_of_base_le (by decide) (Nat.le_of_not_lt hn), List.mem_append, List.mem_singleton] at hc
      rcases hc with hc | rfl
      · exact ih (n / 16) (by omega) c hc
      · exact hdigit _ (Nat.mod_lt _ (by decide))

theorem replaceDots_toDigits (n : Nat) : replaceDots (Nat.toDigits 16 n) = Nat.toDigits 16 n := by
  have hhex : ∀ c ∈ Nat.toDigits 16 n, (if c = '.' then '-' else c) = c := by
    intro c hc
    have hdot : '.' ∉ "0123456789abcdef".toList := by decide
    rw [if_neg]
    rintro rfl
    exact hdot (mem_toDigits _ _ hc)
  rw [replaceDots, List.map_congr_left hhex, List.map_id']

theorem isNameChar_hex {c : Char} (h : c ∈ "0123456789abcdef".toList) : isNameChar c = true := by
  have hall : ("0123456789abcdef".toList.all isNameChar) = true := rfl
  exact List.all_eq_true.mp hall c h

/-- A supported code unit is a letter, a digit or a dot. -/
theorem replaceDots_supported {unit : UInt16} (h : supported unit = true) :
    ∃ c, replaceDots [Char.ofNat unit.toNat] = [c] ∧ isNameChar c = true ∧
      (isLower c = true ↔ isDigitOrDot unit = false) := by
  have hall : ∀ n, n < 123 → supported (UInt16.ofNat n) = true →
      isNameChar (if Char.ofNat n = '.' then '-' else Char.ofNat n) = true ∧
      (isLower (if Char.ofNat n = '.' then '-' else Char.ofNat n) = true ↔ isDigitOrDot (UInt16.ofNat n) = false) := by
    decide
  have hlt : unit.toNat < 123 := by
    simp only [supported, Bool.or_eq_true, Bool.and_eq_true, decide_eq_true_eq] at h
    omega
  have hunit : UInt16.ofNat unit.toNat = unit := UInt16.ofNat_toNat
  obtain ⟨hchar, hlower⟩ := hall unit.toNat hlt (by rwa [hunit])
  rw [hunit] at hlower
  exact ⟨_, rfl, hchar, hlower⟩

/-- The escape of a code unit has supported characters only, and starts with a letter but for a
    digit or a dot. -/
theorem replaceDots_escapeUnit (unit : UInt16) : (∀ c ∈ replaceDots (escapeUnit unit), isNameChar c = true) ∧
    ∃ c, (replaceDots (escapeUnit unit)).head? = some c ∧ (isLower c = true ↔ isDigitOrDot unit = false) := by
  rw [escapeUnit]
  split
  · rename_i hsupported
    obtain ⟨c, hc, hchar, hlower⟩ := replaceDots_supported hsupported
    rw [hc]
    exact ⟨by simpa using hchar, c, rfl, hlower⟩
  · rename_i hsupported
    have hescape : replaceDots ('x' :: Nat.toDigits 16 unit.toNat) = 'x' :: Nat.toDigits 16 unit.toNat :=
      congrArg (List.cons 'x') (replaceDots_toDigits unit.toNat)
    rw [hescape]
    refine ⟨?_, 'x', rfl, ?_⟩
    · intro c hc
      rcases List.mem_cons.mp hc with rfl | hc
      · rfl
      · exact isNameChar_hex (mem_toDigits _ c hc)
    · refine iff_of_true rfl ?_
      simp only [supported, Bool.or_eq_true, Bool.and_eq_true, decide_eq_true_eq] at hsupported
      simp only [isDigitOrDot, Bool.or_eq_false_iff, Bool.and_eq_false_iff, decide_eq_false_iff_not]
      omega

/-! ## The whole name -/

theorem replaceDots_flatMap (id : List UInt16) :
    replaceDots (id.flatMap escapeUnit) = id.flatMap fun unit => replaceDots (escapeUnit unit) := List.map_flatMap

theorem replaceDots_escape (id : List UInt16) : ∀ c ∈ replaceDots (id.flatMap escapeUnit), isNameChar c = true := by
  intro c hc
  rw [replaceDots_flatMap] at hc
  obtain ⟨unit, -, hc⟩ := List.mem_flatMap.mp hc
  exact (replaceDots_escapeUnit unit).1 c hc

theorem escapedId_chars (sha1 : Sha1) (id : List UInt16) : ∀ c ∈ escapedId sha1 id, isNameChar c = true := by
  intro c hc
  rw [escapedId] at hc
  split at hc
  · rcases List.mem_append.mp hc with hc | hc
    · exact replaceDots_escape id c (List.mem_of_mem_take hc)
    · exact isNameChar_hex (sha1.hex_digits id c (List.mem_of_mem_take hc))
  · exact replaceDots_escape id c hc

theorem escapedId_length (sha1 : Sha1) (id : List UInt16) : (escapedId sha1 id).length ≤ 45 := by
  rw [escapedId]
  split
  · rw [List.length_append, List.length_take, List.length_take, sha1.hex_length]
    omega
  · omega

theorem escapedId_head (sha1 : Sha1) (id : List UInt16) :
    (escapedId sha1 id).head? = (replaceDots (id.flatMap escapeUnit)).head? := by
  rw [escapedId]
  split
  · rename_i hlong
    obtain ⟨c, cs, hcs⟩ := List.exists_cons_of_ne_nil (List.ne_nil_of_length_pos (Nat.lt_trans (by decide) hlong))
    rw [hcs]
    rfl
  · rfl

theorem validName_iff (sha1 : Sha1) (id : List UInt16) :
    ValidName (escapedId sha1 id) ↔ ∃ unit rest, id = unit :: rest ∧ isDigitOrDot unit = false := by
  cases id with
  | nil =>
    refine iff_of_false ?_ nofun
    intro h
    obtain ⟨c, hc, -⟩ := h.start
    rw [escapedId_head] at hc
    cases hc
  | cons unit rest =>
    obtain ⟨-, c, hc, hlower⟩ := replaceDots_escapeUnit unit
    have hhead : (escapedId sha1 (unit :: rest)).head? = some c := by
      rw [escapedId_head, replaceDots_flatMap, List.flatMap_cons, List.head?_append, hc]
      rfl
    constructor
    · intro h
      obtain ⟨c', hc', hstart⟩ := h.start
      obtain rfl := Option.some.inj (hhead.symm.trans hc')
      exact ⟨unit, rest, rfl, hlower.mp hstart⟩
    · intro h
      obtain ⟨unit', rest', heq, hunit⟩ := h
      obtain ⟨rfl, rfl⟩ := List.cons.inj heq
      exact ⟨escapedId_length sha1 _, escapedId_chars sha1 _, c, hhead, hlower.mpr hunit⟩

def zeros : Sha1 where
  hex _ := List.replicate 40 '0'
  hex_length _ := rfl
  hex_digits _ c hc := List.eq_of_mem_replicate hc ▸ by decide

/-- The name of the model `7b`, which is not hashed, starts with the digit. -/
theorem starts_with_digit : escapedId zeros [55, 98] = "7b".toList ∧ ¬ValidName (escapedId zeros [55, 98]) := by
  have hname : escapedId zeros [55, 98] = "7b".toList := rfl
  refine ⟨hname, fun h => ?_⟩
  obtain ⟨c, hc, hlower⟩ := h.start
  rw [hname] at hc
  obtain rfl : '7' = c := Option.some.inj hc
  exact absurd hlower (by decide)

/-! ## Ids with the same name -/

/-- The value of a hexadecimal digit, as `toString(16)` writes it. -/
def hexValue (unit : UInt16) : Option Nat :=
  if 48 ≤ unit.toNat ∧ unit.toNat ≤ 57 then some (unit.toNat - 48)
  else if 97 ≤ unit.toNat ∧ unit.toNat ≤ 102 then some (unit.toNat - 87)
  else none

/-- A number with the digits written after it. -/
def appendHex : Nat → List UInt16 → Option Nat
  | n, [] => some n
  | n, digit :: rest => (hexValue digit).bind fun value => appendHex (16 * n + value) rest

/-- The supported code units at the start, and each other code unit with the supported ones after it. -/
def blocks : List UInt16 → List UInt16 × List (UInt16 × List UInt16)
  | [] => ([], [])
  | unit :: rest =>
    if supported unit then (unit :: (blocks rest).1, (blocks rest).2) else ([], (unit, (blocks rest).1) :: (blocks rest).2)

/-- The first escape with hexadecimal digits after it reads as the second one does. -/
def Absorbs (block block' : UInt16 × List UInt16) : Prop :=
  ∃ digits, block.2 = digits ++ block'.2 ∧ appendHex block.1.toNat digits = some block'.1.toNat ∧
    (block.1.toNat = 0 → digits = [])

/-- The ids are the same but for digits that follow an escape in the one and belong to it in the other. -/
def Confusable (id id' : List UInt16) : Prop :=
  (blocks id).1 = (blocks id').1 ∧
    List.Forall₂ (fun block block' => Absorbs block block' ∨ Absorbs block' block) (blocks id).2 (blocks id').2

def literalChar (unit : UInt16) : Char := if Char.ofNat unit.toNat = '.' then '-' else Char.ofNat unit.toNat

def literal (units : List UInt16) : List Char := units.map literalChar

theorem lt_of_supported {unit : UInt16} (h : supported unit = true) : unit.toNat < 123 := by
  simp only [supported, Bool.or_eq_true, Bool.and_eq_true, decide_eq_true_eq] at h
  omega

/-- What a supported code unit is read back from, that it is not the escape, and which digit it is. -/
theorem literalChar_facts {unit : UInt16} (h : supported unit = true) :
    (if literalChar unit = '-' then 46 else (literalChar unit).toNat) = unit.toNat ∧ literalChar unit ≠ 'x' ∧
      ∀ d, d < 16 → (literalChar unit = Nat.digitChar d ↔ hexValue unit = some d) := by
  have hall : ∀ n, n < 123 → supported (UInt16.ofNat n) = true →
      (if literalChar (UInt16.ofNat n) = '-' then 46 else (literalChar (UInt16.ofNat n)).toNat) = n ∧
        literalChar (UInt16.ofNat n) ≠ 'x' ∧
        ∀ d, d < 16 → (literalChar (UInt16.ofNat n) = Nat.digitChar d ↔ hexValue (UInt16.ofNat n) = some d) := by
    decide +kernel
  have hunit : UInt16.ofNat unit.toNat = unit := UInt16.ofNat_toNat
  have hfacts := hall unit.toNat (lt_of_supported h)
  rw [hunit] at hfacts
  exact hfacts h

theorem literal_inj {units units' : List UInt16} (h : ∀ unit ∈ units, supported unit = true)
    (h' : ∀ unit ∈ units', supported unit = true) (heq : literal units = literal units') : units = units' := by
  induction units generalizing units' with
  | nil =>
    rw [literal, literal, List.map_nil, eq_comm, List.map_eq_nil_iff] at heq
    exact heq.symm
  | cons unit units ih =>
    cases units' with
    | nil => cases heq
    | cons unit' units' =>
      rw [literal, literal, List.map_cons, List.map_cons, List.cons.injEq] at heq
      have hunit := (literalChar_facts (h unit (List.mem_cons_self ..))).1
      have hunit' := (literalChar_facts (h' unit' (List.mem_cons_self ..))).1
      rw [heq.1, hunit'] at hunit
      have hrest := ih (fun u hu => h u (List.mem_cons_of_mem _ hu)) (fun u hu => h' u (List.mem_cons_of_mem _ hu)) heq.2
      rw [UInt16.toNat_inj.mp hunit.symm, hrest]

/-! ### Hexadecimal numbers -/

theorem digitChar_inj {d e : Nat} (hd : d < 16) (he : e < 16) (h : Nat.digitChar d = Nat.digitChar e) : d = e := by
  have hall : ∀ d, d < 16 → ∀ e, e < 16 → Nat.digitChar d = Nat.digitChar e → d = e := by decide
  exact hall d hd e he h

theorem toDigits_inj {u v : Nat} (h : Nat.toDigits 16 u = Nat.toDigits 16 v) : u = v := by
  induction u using Nat.strongRecOn generalizing v with
  | ind u ih =>
    have hlong : ∀ n, 16 ≤ n → 1 < (Nat.toDigits 16 n).length := by
      intro n hn
      have hpos := @Nat.length_toDigits_pos 16 (n / 16)
      rw [Nat.toDigits_of_base_le (by decide) hn, List.length_append, List.length_singleton]
      omega
    by_cases hu : u < 16
    · by_cases hv : v < 16
      · rw [Nat.toDigits_of_lt_base hu, Nat.toDigits_of_lt_base hv, List.singleton_inj] at h
        exact digitChar_inj hu hv h
      · have hlength := hlong v (by omega)
        rw [← h, Nat.toDigits_of_lt_base hu, List.length_singleton] at hlength
        omega
    · by_cases hv : v < 16
      · have hlength := hlong u (by omega)
        rw [h, Nat.toDigits_of_lt_base hv, List.length_singleton] at hlength
        omega
      · rw [Nat.toDigits_of_base_le (by decide) (Nat.le_of_not_lt hu), Nat.toDigits_of_base_le (by decide)
          (Nat.le_of_not_lt hv)] at h
        obtain ⟨hdiv, hmod⟩ := List.append_inj' h rfl
        have hquot := ih (u / 16) (by omega) hdiv
        have hrem := digitChar_inj (Nat.mod_lt u (by decide)) (Nat.mod_lt v (by decide)) (List.singleton_inj.mp hmod)
        omega

/-- A number starts with a zero only if it is zero. -/
theorem toDigits_head_zero {n : Nat} (h : (Nat.toDigits 16 n).head? = some '0') : n = 0 := by
  induction n using Nat.strongRecOn with
  | ind n ih =>
    by_cases hn : n < 16
    · rw [Nat.toDigits_of_lt_base hn] at h
      exact digitChar_inj hn (by decide) (Option.some.inj h)
    · have hne : Nat.toDigits 16 (n / 16) ≠ [] := List.ne_nil_of_length_pos Nat.length_toDigits_pos
      rw [Nat.toDigits_of_base_le (by decide) (Nat.le_of_not_lt hn), List.head?_append_of_ne_nil _ hne] at h
      have := ih (n / 16) (by omega) h
      omega

theorem exists_digit {c : Char} (h : c ∈ "0123456789abcdef".toList) : ∃ d, d < 16 ∧ c = Nat.digitChar d := by
  have hall : ("0123456789abcdef".toList.all fun c => (List.range 16).any fun d => c == Nat.digitChar d) = true := by decide
  have hc := List.all_eq_true.mp hall c h
  obtain ⟨d, hd, heq⟩ := List.any_eq_true.mp hc
  exact ⟨d, List.mem_range.mp hd, eq_of_beq heq⟩

theorem hexValue_lt {unit : UInt16} {value : Nat} (h : hexValue unit = some value) : value < 16 := by
  rw [hexValue] at h
  split at h
  · cases h
    omega
  · split at h
    · cases h
      omega
    · cases h

theorem toDigits_literal_iff {u v : Nat} (hu : 0 < u) {digits : List UInt16} (h : ∀ digit ∈ digits, supported digit = true) :
    Nat.toDigits 16 v = Nat.toDigits 16 u ++ literal digits ↔ appendHex u digits = some v := by
  induction digits generalizing u with
  | nil =>
    rw [literal, List.map_nil, List.append_nil, appendHex, Option.some.injEq]
    exact ⟨fun heq => (toDigits_inj heq).symm, fun heq => by rw [heq]⟩
  | cons digit rest ih =>
    obtain ⟨-, -, hdigit⟩ := literalChar_facts (h digit (List.mem_cons_self ..))
    have hrest : ∀ digit ∈ rest, supported digit = true := fun d hd => h d (List.mem_cons_of_mem _ hd)
    have hstep : ∀ value, hexValue digit = some value →
        Nat.toDigits 16 u ++ literal (digit :: rest) = Nat.toDigits 16 (16 * u + value) ++ literal rest := by
      intro value hvalue
      have hlt := hexValue_lt hvalue
      rw [← Nat.toDigits_append_toDigits (by decide) hu hlt, Nat.toDigits_of_lt_base hlt, ← (hdigit value hlt).mpr hvalue,
        List.append_assoc]
      rfl
    rw [appendHex]
    constructor
    · intro heq
      have hmem : literalChar digit ∈ Nat.toDigits 16 v := by
        rw [heq]
        exact List.mem_append_right _ (List.mem_cons_self ..)
      obtain ⟨value, hlt, hchar⟩ := exists_digit (mem_toDigits v _ hmem)
      have hvalue := (hdigit value hlt).mp hchar
      rw [hvalue, Option.bind_some, ← ih (by omega) hrest, heq, hstep value hvalue]
    · intro heq
      obtain ⟨value, hvalue, happend⟩ := Option.bind_eq_some_iff.mp heq
      rw [hstep value hvalue]
      exact (ih (by omega) hrest).mpr happend

/-! ### Blocks -/

def blockText (block : UInt16 × List UInt16) : List Char := Nat.toDigits 16 block.1.toNat ++ literal block.2

/-- The one text continues where the other one ends. -/
theorem absorbs_iff {block block' : UInt16 × List UInt16} (h : ∀ unit ∈ block.2, supported unit = true)
    (h' : ∀ unit ∈ block'.2, supported unit = true) : Absorbs block block' ↔ ∃ rest,
      Nat.toDigits 16 block'.1.toNat = Nat.toDigits 16 block.1.toNat ++ rest ∧ literal block.2 = rest ++ literal block'.2 := by
  constructor
  · intro habsorbs
    obtain ⟨digits, hdigits, happend, hzero⟩ := habsorbs
    have hsupported : ∀ digit ∈ digits, supported digit = true := by
      intro digit hdigit
      exact h digit (hdigits ▸ List.mem_append_left _ hdigit)
    refine ⟨literal digits, ?_, by rw [hdigits, literal, literal, literal, List.map_append]⟩
    by_cases hpos : block.1.toNat = 0
    · have hnil := hzero hpos
      rw [hnil, appendHex, Option.some.injEq] at happend
      rw [hnil, ← happend, literal, List.map_nil, List.append_nil]
    · exact (toDigits_literal_iff (Nat.pos_of_ne_zero hpos) hsupported).mpr happend
  · intro hrest
    obtain ⟨rest, hnumber, htext⟩ := hrest
    obtain ⟨digits, after, hunits, hdigits, hafter⟩ := List.map_eq_append_iff.mp htext
    have hsupported : ∀ digit ∈ digits, supported digit = true := fun d hd => h d (hunits ▸ List.mem_append_left _ hd)
    have hsame := literal_inj (fun u hu => h u (hunits ▸ List.mem_append_right _ hu)) h' hafter
    have hliteral : literal digits = rest := hdigits
    rw [← hliteral] at hnumber
    refine ⟨digits, by rw [hunits, hsame], ?_, ?_⟩
    · by_cases hpos : block.1.toNat = 0
      · -- a zero is not continued: the other number would start with it
        have hhead : (Nat.toDigits 16 block'.1.toNat).head? = some '0' := by
          rw [hnumber, hpos, Nat.toDigits_zero]
          rfl
        have hzero := toDigits_head_zero hhead
        rw [hpos, hzero, List.self_eq_append_right, literal, List.map_eq_nil_iff] at hnumber
        rw [hnumber, appendHex, hpos, hzero]
      · exact (toDigits_literal_iff (Nat.pos_of_ne_zero hpos) hsupported).mp hnumber
    · intro hpos
      have hhead : (Nat.toDigits 16 block'.1.toNat).head? = some '0' := by
        rw [hnumber, hpos, Nat.toDigits_zero]
        rfl
      rw [hpos, toDigits_head_zero hhead, List.self_eq_append_right, literal, List.map_eq_nil_iff] at hnumber
      exact hnumber

theorem blockText_eq_iff {block block' : UInt16 × List UInt16} (h : ∀ unit ∈ block.2, supported unit = true)
    (h' : ∀ unit ∈ block'.2, supported unit = true) :
    blockText block = blockText block' ↔ Absorbs block block' ∨ Absorbs block' block := by
  rw [absorbs_iff h h', absorbs_iff h' h, blockText, blockText, List.append_eq_append_iff]

theorem supported_blocks (id : List UInt16) : (∀ unit ∈ (blocks id).1, supported unit = true) ∧
    ∀ block ∈ (blocks id).2, ∀ unit ∈ block.2, supported unit = true := by
  induction id with
  | nil => exact ⟨nofun, nofun⟩
  | cons unit rest ih =>
    rw [blocks]
    split
    · rename_i hunit
      refine ⟨?_, ih.2⟩
      intro u hu
      rcases List.mem_cons.mp hu with rfl | hu
      · exact hunit
      · exact ih.1 u hu
    · refine ⟨nofun, ?_⟩
      intro block hblock
      rcases List.mem_cons.mp hblock with rfl | hblock
      · exact ih.1
      · exact ih.2 block hblock

theorem intercalate_append (before first : List Char) (rest : List (List Char)) :
    ['x'].intercalate ((before ++ first) :: rest) = before ++ ['x'].intercalate (first :: rest) := by
  cases rest with
  | nil => rw [List.intercalate_singleton, List.intercalate_singleton]
  | cons second rest => simp only [List.intercalate_cons_cons, List.append_assoc]

/-- The escape begins each block but the first. -/
theorem replaceDots_blocks (id : List UInt16) : replaceDots (id.flatMap escapeUnit) =
    ['x'].intercalate (literal (blocks id).1 :: (blocks id).2.map blockText) := by
  rw [replaceDots_flatMap]
  induction id with
  | nil => rfl
  | cons unit rest ih =>
    rw [List.flatMap_cons, ih, escapeUnit, blocks]
    split
    · exact (intercalate_append [literalChar unit] (literal (blocks rest).1) _).symm
    · have hescape : replaceDots ('x' :: Nat.toDigits 16 unit.toNat) = 'x' :: Nat.toDigits 16 unit.toNat :=
        congrArg (List.cons 'x') (replaceDots_toDigits unit.toNat)
      dsimp only
      rw [hescape, List.map_cons, List.intercalate_cons_cons, blockText, intercalate_append]
      rfl

theorem x_notMem_literal {units : List UInt16} (h : ∀ unit ∈ units, supported unit = true) : 'x' ∉ literal units := by
  intro hmem
  obtain ⟨unit, hunit, hx⟩ := List.mem_map.mp hmem
  exact (literalChar_facts (h unit hunit)).2.1 hx

theorem splitOn_replaceDots (id : List UInt16) : (replaceDots (id.flatMap escapeUnit)).splitOn 'x' =
    literal (blocks id).1 :: (blocks id).2.map blockText := by
  obtain ⟨hleading, hblocks⟩ := supported_blocks id
  rw [replaceDots_blocks]
  refine List.splitOn_intercalate 'x' ?_ (List.cons_ne_nil _ _)
  intro text htext
  rcases List.mem_cons.mp htext with rfl | htext
  · exact x_notMem_literal hleading
  · obtain ⟨block, hblock, rfl⟩ := List.mem_map.mp htext
    have hx : 'x' ∉ "0123456789abcdef".toList := by decide
    rw [blockText, List.mem_append, not_or]
    exact ⟨fun hmem => hx (mem_toDigits _ _ hmem), x_notMem_literal (hblocks block hblock)⟩

theorem map_blockText_iff {bs bs' : List (UInt16 × List UInt16)} (h : ∀ block ∈ bs, ∀ unit ∈ block.2, supported unit = true)
    (h' : ∀ block ∈ bs', ∀ unit ∈ block.2, supported unit = true) : bs.map blockText = bs'.map blockText ↔
      List.Forall₂ (fun block block' => Absorbs block block' ∨ Absorbs block' block) bs bs' := by
  induction bs generalizing bs' with
  | nil =>
    rw [List.map_nil, List.forall₂_nil_left_iff, eq_comm, List.map_eq_nil_iff]
  | cons block bs ih =>
    cases bs' with
    | nil => exact iff_of_false nofun nofun
    | cons block' bs' =>
      rw [List.map_cons, List.map_cons, List.cons.injEq, List.forall₂_cons,
        blockText_eq_iff (h block (List.mem_cons_self ..)) (h' block' (List.mem_cons_self ..)),
        ih (fun b hb => h b (List.mem_cons_of_mem _ hb)) fun b hb => h' b (List.mem_cons_of_mem _ hb)]

theorem replaceDots_eq_iff (id id' : List UInt16) :
    replaceDots (id.flatMap escapeUnit) = replaceDots (id'.flatMap escapeUnit) ↔ Confusable id id' := by
  obtain ⟨hleading, hblocks⟩ := supported_blocks id
  obtain ⟨hleading', hblocks'⟩ := supported_blocks id'
  rw [Confusable, ← map_blockText_iff hblocks hblocks']
  constructor
  · intro heq
    have hsplit := congrArg (List.splitOn 'x') heq
    rw [splitOn_replaceDots, splitOn_replaceDots, List.cons.injEq] at hsplit
    exact ⟨literal_inj hleading hleading' hsplit.1, hsplit.2⟩
  · intro hsame
    rw [replaceDots_blocks, replaceDots_blocks, hsame.1, hsame.2]

theorem escapedId_short (sha1 : Sha1) {id : List UInt16} (h : (replaceDots (id.flatMap escapeUnit)).length ≤ 45) :
    escapedId sha1 id = replaceDots (id.flatMap escapeUnit) := if_neg (Nat.not_lt.mpr h)

/-- The name ends at the first dot of the URL. -/
theorem getKfInferenceUrl_eq_iff (sha1 : Sha1) (id id' : List UInt16) (namespace_ : String) :
    getKfInferenceUrl sha1 id namespace_ = getKfInferenceUrl sha1 id' namespace_ ↔ escapedId sha1 id = escapedId sha1 id' := by
  have hname : ∀ id, ((getKfInferenceUrl sha1 id namespace_).toList.drop 7).takeWhile (· ≠ '.') = escapedId sha1 id := by
    intro id
    have hdot : ∀ c ∈ escapedId sha1 id, decide (c ≠ '.') = true := by
      intro c hc
      have hchar := escapedId_chars sha1 id c hc
      rw [decide_eq_true_iff]
      intro heq
      rw [heq] at hchar
      cases hchar
    have hurl : (getKfInferenceUrl sha1 id namespace_).toList.drop 7 = escapedId sha1 id ++ '.' ::
        (namespace_ ++ ".svc.cluster.local/v1/models/" ++ String.ofList (escapedId sha1 id) ++ ":predict").toList := by
      simp [getKfInferenceUrl]
    rw [hurl, List.takeWhile_append_of_pos hdot, List.takeWhile_cons_of_neg (by decide), List.append_nil]
  constructor
  · intro h
    rw [← hname id, ← hname id', h]
  · intro h
    rw [getKfInferenceUrl, getKfInferenceUrl, h]

/-- Two ids that are not cut have different names exactly if they are not confusable. -/
theorem distinct_iff (sha1 : Sha1) (id id' : List UInt16) (h : (replaceDots (id.flatMap escapeUnit)).length ≤ 45)
    (h' : (replaceDots (id'.flatMap escapeUnit)).length ≤ 45) :
    (id ≠ id' → escapedId sha1 id ≠ escapedId sha1 id') ↔ id = id' ∨ ¬Confusable id id' := by
  rw [escapedId_short sha1 h, escapedId_short sha1 h', ← replaceDots_eq_iff]
  exact Decidable.imp_iff_not_or.trans (or_congr_left Decidable.not_not)

theorem distinct_iff_models : (([97] : List UInt16) ≠ [98] → escapedId zeros [97] ≠ escapedId zeros [98]) ↔
    ([97] : List UInt16) = [98] ∨ ¬Confusable [97] [98] := distinct_iff zeros [97] [98] (by decide) (by decide)

/-- The ids `@org.A1/en` and `@org.Б/en`. -/
theorem same_name : ([64, 111, 114, 103, 46, 65, 49, 47, 101, 110] : List UInt16) ≠
      [64, 111, 114, 103, 46, 0x411, 47, 101, 110] ∧
    escapedId zeros [64, 111, 114, 103, 46, 65, 49, 47, 101, 110] = "x40org-x411x2fen".toList ∧
    escapedId zeros [64, 111, 114, 103, 46, 0x411, 47, 101, 110] = "x40org-x411x2fen".toList := ⟨by decide, rfl, rfl⟩

/-! ### Escapes of two digits -/

theorem blocks_flatMap (id : List UInt16) :
    (blocks id).1 ++ (blocks id).2.flatMap (fun block => block.1 :: block.2) = id := by
  induction id with
  | nil => rfl
  | cons unit rest ih =>
    rw [blocks]
    split
    · exact congrArg (List.cons unit) ih
    · exact congrArg (List.cons unit) ih

theorem mem_of_mem_blocks {id : List UInt16} {block : UInt16 × List UInt16} (h : block ∈ (blocks id).2) : block.1 ∈ id := by
  rw [← blocks_flatMap id]
  exact List.mem_append_right _ (List.mem_flatMap.mpr ⟨block, h, List.mem_cons_self ..⟩)

theorem le_appendHex {digits : List UInt16} {n m : Nat} (h : appendHex n digits = some m) : n ≤ m := by
  induction digits generalizing n with
  | nil => exact Nat.le_of_eq (Option.some.inj h)
  | cons digit rest ih =>
    obtain ⟨value, -, happend⟩ := Option.bind_eq_some_iff.mp h
    have := ih happend
    omega

/-- A number of two digits does not continue another one. -/
theorem eq_of_absorbs {block block' : UInt16 × List UInt16} (h : 16 ≤ block.1.toNat) (h' : block'.1.toNat < 256)
    (habsorbs : Absorbs block block') : block = block' := by
  obtain ⟨digits, hdigits, happend, -⟩ := habsorbs
  cases digits with
  | nil =>
    have hnumber : block.1 = block'.1 := UInt16.toNat_inj.mp (Option.some.inj happend)
    exact Prod.ext hnumber hdigits
  | cons digit rest =>
    obtain ⟨value, -, hrest⟩ := Option.bind_eq_some_iff.mp happend
    have := le_appendHex hrest
    omega

theorem eq_of_confusable {id id' : List UInt16} (h : ∀ unit ∈ id, 16 ≤ unit.toNat ∧ unit.toNat < 256)
    (h' : ∀ unit ∈ id', 16 ≤ unit.toNat ∧ unit.toNat < 256) (hsame : Confusable id id') : id = id' := by
  obtain ⟨hleading, hblocks⟩ := hsame
  have hall : ∀ bs bs' : List (UInt16 × List UInt16),
      List.Forall₂ (fun block block' => Absorbs block block' ∨ Absorbs block' block) bs bs' →
      (∀ block ∈ bs, 16 ≤ block.1.toNat ∧ block.1.toNat < 256) → (∀ block ∈ bs', 16 ≤ block.1.toNat ∧ block.1.toNat < 256) →
      bs = bs' := by
    intro bs bs' hforall
    induction hforall with
    | nil => intro _ _; rfl
    | @cons block block' bs bs' hblock _ ih =>
      intro hbs hbs'
      obtain ⟨hlow, hhigh⟩ := hbs block (List.mem_cons_self ..)
      obtain ⟨hlow', hhigh'⟩ := hbs' block' (List.mem_cons_self ..)
      have heq : block = block' := by
        rcases hblock with habsorbs | habsorbs
        · exact eq_of_absorbs hlow hhigh' habsorbs
        · exact (eq_of_absorbs hlow' hhigh habsorbs).symm
      rw [heq, ih (fun b hb => hbs b (List.mem_cons_of_mem _ hb)) fun b hb => hbs' b (List.mem_cons_of_mem _ hb)]
  have hsecond := hall _ _ hblocks (fun block hblock => h _ (mem_of_mem_blocks hblock)) fun block hblock =>
    h' _ (mem_of_mem_blocks hblock)
  rw [← blocks_flatMap id, ← blocks_flatMap id', hleading, hsecond]

/-- No two ids of code units with two hexadecimal digits have the same name. -/
theorem latin1_distinct (sha1 : Sha1) {id id' : List UInt16} (h : ∀ unit ∈ id, 16 ≤ unit.toNat ∧ unit.toNat < 256)
    (h' : ∀ unit ∈ id', 16 ≤ unit.toNat ∧ unit.toNat < 256) (hshort : (replaceDots (id.flatMap escapeUnit)).length ≤ 45)
    (hshort' : (replaceDots (id'.flatMap escapeUnit)).length ≤ 45) (hne : id ≠ id') :
    escapedId sha1 id ≠ escapedId sha1 id' := by
  rw [escapedId_short sha1 hshort, escapedId_short sha1 hshort', Ne, replaceDots_eq_iff]
  exact fun hsame => hne (eq_of_confusable h h' hsame)

end GenieCloud.Util.KfInferenceUrl
