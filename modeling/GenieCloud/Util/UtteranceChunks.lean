/-
  GenieCloud.Util.UtteranceChunks — the two readers of an utterance.

  `Utterance` reads the placeholders of a list of characters with a scanner. `Tokenize` runs the
  expression itself on the code units.

  - `ends_paramRegex`: where a character starts, the expression matches what the scanner reads.
  - `splitParams_units`: the chunks are the same.
-/

import GenieCloud.Lib.Utf16
import GenieCloud.Util.Tokenize
import GenieCloud.Util.Utterance

namespace GenieCloud.Util.UtteranceChunks

open GenieCloud.Lib

/-! ## Code units -/

def units (cs : List Char) : List UInt16 := (Utf16.encode cs).map UInt16.ofNat

def unit (c : Char) : UInt16 := UInt16.ofNat c.toNat

theorem units_append (cs ds : List Char) : units (cs ++ ds) = units cs ++ units ds := by
  rw [units, Utf16.encode, List.flatMap_append, List.map_append]
  rfl

/-- A character is its unit, or two surrogates. -/
theorem units_cons (c : Char) (cs : List Char) : (c.toNat < 0x10000 ∧ units (c :: cs) = unit c :: units cs) ∨
    (0x10000 ≤ c.toNat ∧ ∃ u v, units (c :: cs) = u :: v :: units cs ∧ 128 ≤ u.toNat ∧ 128 ≤ v.toNat) := by
  have hcons : units (c :: cs) = (Utf16.units c).map UInt16.ofNat ++ units cs := by
    rw [units, Utf16.encode, List.flatMap_cons, List.map_append]
    rfl
  by_cases hsmall : c.toNat < 0x10000
  · rw [Utf16.units_small hsmall] at hcons
    exact Or.inl ⟨hsmall, hcons⟩
  · have hmax : c.toNat < 0x110000 := by
      rcases c.valid with h | ⟨-, h⟩
      · exact Nat.lt_trans h (by decide)
      · exact h
    rw [Utf16.units, if_neg hsmall] at hcons
    refine Or.inr ⟨Nat.le_of_not_lt hsmall, _, _, hcons, ?_, ?_⟩
    · rw [UInt16.toNat_ofNat']
      omega
    · rw [UInt16.toNat_ofNat']
      omega

/-- A class of code units and one of characters, both of ASCII, that are the same. -/
structure SameClass (p : UInt16 → Bool) (q : Char → Bool) : Prop where
  below : ∀ u, p u = true → u.toNat < 128
  ascii : ∀ c, q c = true → c.toNat < 128
  same : ∀ n, n < 128 → p (UInt16.ofNat n) = q (Char.ofNat n)

variable {p : UInt16 → Bool} {q : Char → Bool}

theorem SameClass.of_mem (h : SameClass p q) {c : Char} (hc : q c = true) (cs : List Char) :
    units (c :: cs) = unit c :: units cs ∧ p (unit c) = true := by
  have hascii := h.ascii c hc
  rcases units_cons c cs with ⟨-, hcons⟩ | ⟨hlarge, -⟩
  · refine ⟨hcons, ?_⟩
    rw [unit, h.same _ hascii, Char.ofNat_toNat, hc]
  · omega

theorem SameClass.of_notMem (h : SameClass p q) {c : Char} (hc : q c = false) (cs : List Char) :
    ∃ u us, units (c :: cs) = u :: us ∧ p u = false := by
  rcases units_cons c cs with ⟨hsmall, hcons⟩ | ⟨-, u, v, hcons, hu, -⟩
  · refine ⟨_, _, hcons, ?_⟩
    by_cases hascii : c.toNat < 128
    · rw [unit, h.same _ hascii, Char.ofNat_toNat, hc]
    · rw [← Bool.not_eq_true]
      intro hp
      have hunit := h.below _ hp
      rw [unit, UInt16.toNat_ofNat'] at hunit
      omega
  · refine ⟨_, _, hcons, ?_⟩
    rw [← Bool.not_eq_true]
    intro hp
    have := h.below _ hp
    omega

theorem SameClass.while_eq (h : SameClass p q) (cs : List Char) :
    (units cs).takeWhile p = units (cs.takeWhile q) ∧ (units cs).dropWhile p = units (cs.dropWhile q) := by
  induction cs with
  | nil => exact ⟨rfl, rfl⟩
  | cons c cs ih =>
    cases hc : q c with
    | true =>
      obtain ⟨hcons, hp⟩ := h.of_mem hc cs
      obtain ⟨hcons', -⟩ := h.of_mem hc (cs.takeWhile q)
      rw [hcons, List.takeWhile_cons_of_pos hp, List.dropWhile_cons_of_pos hp, List.takeWhile_cons_of_pos hc,
        List.dropWhile_cons_of_pos hc, hcons', ih.1, ih.2]
      exact ⟨rfl, rfl⟩
    | false =>
      obtain ⟨u, us, hcons, hp⟩ := h.of_notMem hc cs
      rw [hcons, List.takeWhile_cons_of_neg (by simp [hp]), List.dropWhile_cons_of_neg (by simp [hp]),
        List.takeWhile_cons_of_neg (by simp [hc]), List.dropWhile_cons_of_neg (by simp [hc]), hcons]
      exact ⟨rfl, rfl⟩

theorem word_same : SameClass Tokenize.word Utterance.word := by
  refine ⟨?_, ?_, ?_⟩
  · intro u hu
    simp only [Tokenize.word, Bool.or_eq_true, Bool.and_eq_true, decide_eq_true_eq, beq_iff_eq, UInt16.le_iff_toNat_le] at hu
    rcases hu with (((hu | hu) | hu) | rfl)
    · exact Nat.lt_of_le_of_lt hu.2 (by decide)
    · exact Nat.lt_of_le_of_lt hu.2 (by decide)
    · exact Nat.lt_of_le_of_lt hu.2 (by decide)
    · decide
  · intro c hc
    have := (Utterance.word_range hc).2
    omega
  · decide

theorem optionChar_same : SameClass Tokenize.optionChar Utterance.optionChar := by
  refine ⟨?_, ?_, ?_⟩
  · intro u hu
    rw [Tokenize.optionChar, Bool.or_eq_true, beq_iff_eq] at hu
    rcases hu with hu | rfl
    · exact word_same.below u hu
    · decide
  · intro c hc
    rw [Utterance.optionChar, Bool.or_eq_true, beq_iff_eq] at hc
    rcases hc with hc | rfl
    · exact word_same.ascii c hc
    · decide
  · decide

theorem literal_same (u : UInt16) (d : Char) (hu : u.toNat < 128) (hd : d.toNat < 128)
    (hsame : ∀ n, n < 128 → (UInt16.ofNat n == u) = (Char.ofNat n == d)) : SameClass (· == u) (· == d) := by
  refine ⟨?_, ?_, hsame⟩
  · intro v hv
    rwa [eq_of_beq hv]
  · intro c hc
    rwa [eq_of_beq hc]

theorem dollar_same : SameClass (· == 36) (· == '$') := literal_same 36 '$' (by decide) (by decide) (by decide)

theorem open_same : SameClass (· == 123) (· == '\x7b') := literal_same 123 '\x7b' (by decide) (by decide) (by decide)

theorem colon_same : SameClass (· == 58) (· == ':') := literal_same 58 ':' (by decide) (by decide) (by decide)

theorem close_same : SameClass (· == 125) (· == '\x7d') := literal_same 125 '\x7d' (by decide) (by decide) (by decide)

/-! ## The expression at a character -/

theorem ends_set_units (h : SameClass p q) (c : Char) (cs : List Char) (captures : RegExp.Captures UInt16) :
    RegExp.ends (.set p) (units (c :: cs), captures) = if q c then [(units cs, captures)] else [] := by
  cases hc : q c with
  | true =>
    obtain ⟨hcons, hp⟩ := h.of_mem hc cs
    rw [hcons, RegExp.ends_set_cons, if_pos hp, if_pos rfl]
  | false =>
    obtain ⟨u, us, hcons, hp⟩ := h.of_notMem hc cs
    rw [hcons, RegExp.ends_set_cons, if_neg (by simp [hp]), if_neg Bool.false_ne_true]

theorem ends_literal {u : UInt16} {d : Char} (h : SameClass (· == u) (· == d)) (c : Char) (cs : List Char)
    (captures : RegExp.Captures UInt16) :
    RegExp.ends (Tokenize.literal u) (units (c :: cs), captures) = if c == d then [(units cs, captures)] else [] :=
  ends_set_units h c cs captures

theorem ends_literal_other {u : UInt16} {d : Char} (hsame : SameClass (· == u) (· == d)) {cs : List Char}
    (h : ∀ rest, cs = d :: rest → False) (captures : RegExp.Captures UInt16) :
    RegExp.ends (Tokenize.literal u) (units cs, captures) = [] := by
  cases cs with
  | nil => rfl
  | cons c cs =>
    rw [ends_literal hsame, if_neg]
    intro hc
    exact h cs (congrArg (List.cons · cs) (eq_of_beq hc))

theorem isEmpty_units (cs : List Char) : (units cs).isEmpty = cs.isEmpty := by
  cases cs with
  | nil => rfl
  | cons c cs =>
    rcases units_cons c cs with ⟨-, hcons⟩ | ⟨-, u, v, hcons, -⟩
    · rw [hcons]
      rfl
    · rw [hcons]
      rfl

/-- The groups of a match, the last one first. -/
def captures (m : Utterance.Match) : RegExp.Captures UInt16 :=
  m.opt.toList.map (fun opt => (3, units opt)) ++ (m.param2.toList.map (fun name => (2, units name)) ++
    m.param1.toList.map fun name => (1, units name))

/-- What a match of the scanner is for the expression. -/
def found (x : Option (Utterance.Match × List Char)) : List (RegExp.State UInt16) :=
  x.toList.map fun y => (units y.2, captures y.1)

/-- After the name between braces. -/
def afterName : RegExp UInt16 :=
  .seq (.optional (.seq (Tokenize.literal 58) (.group 3 (RegExp.plus (.set Tokenize.optionChar))))) (Tokenize.literal 125)

/-- The option, and the brace. -/
theorem ends_option (cs : List UInt16) (captures : RegExp.Captures UInt16) :
    RegExp.ends afterName (cs, captures) =
      ((RegExp.ends (Tokenize.literal 58) (cs, captures.filter fun capture => !([3].contains capture.1))).flatMap fun y =>
        (RegExp.ends (.group 3 (RegExp.plus (.set Tokenize.optionChar))) y).flatMap (RegExp.ends (Tokenize.literal 125))) ++
      RegExp.ends (Tokenize.literal 125) (cs, captures) := by
  rw [afterName, RegExp.ends, RegExp.ends, List.flatMap_append, List.flatMap_singleton, RegExp.advances_eq]
  · exact congrArg (· ++ _) List.flatMap_assoc
  · intro y hy
    obtain ⟨c, rest, hcs, -, hsuffix⟩ := RegExp.mem_seq_set hy
    obtain rfl : cs = c :: rest := hcs
    exact Nat.lt_succ_of_le hsuffix.length_le

/-- It starts with neither a character of the name. -/
theorem ends_afterName_word (c : UInt16) (cs : List UInt16) (captures : RegExp.Captures UInt16) (h : Tokenize.word c = true) :
    RegExp.ends afterName (c :: cs, captures) = [] := by
  have hcolon : (c == 58) = false := by
    rw [beq_eq_false_iff_ne]
    rintro rfl
    cases h
  have hclose : (c == 125) = false := by
    rw [beq_eq_false_iff_ne]
    rintro rfl
    cases h
  rw [ends_option, Tokenize.literal, Tokenize.literal, RegExp.ends_set_cons, RegExp.ends_set_cons, hcolon, hclose]
  rfl

theorem ends_close (rest : List Char) (captures : RegExp.Captures UInt16) :
    RegExp.ends (Tokenize.literal 125) (units ('\x7d' :: rest), captures) = [(units rest, captures)] := by
  rw [ends_literal close_same, if_pos (show ('\x7d' == '\x7d') = true from rfl)]

/-- Without an option, the brace. -/
theorem ends_afterName {cs : List Char} (h : ∀ rest, cs = ':' :: rest → False) (captures : RegExp.Captures UInt16) :
    RegExp.ends afterName (units cs, captures) = RegExp.ends (Tokenize.literal 125) (units cs, captures) := by
  rw [ends_option, ends_literal_other colon_same h]
  rfl

theorem ends_afterName_option (cs name : List Char) :
    RegExp.ends afterName (units (':' :: cs), [(2, units name)]) =
      if (cs.takeWhile Utterance.optionChar).isEmpty then []
      else RegExp.ends (Tokenize.literal 125) (units (cs.dropWhile Utterance.optionChar),
        [(3, units (cs.takeWhile Utterance.optionChar)), (2, units name)]) := by
  have hclose : ∀ (d : UInt16) ds captures, Tokenize.optionChar d = true →
      RegExp.ends (Tokenize.literal 125) (d :: ds, captures) = [] := by
    intro d ds captures hd
    rw [Tokenize.literal, RegExp.ends_set_cons, if_neg]
    intro heq
    rw [eq_of_beq heq] at hd
    cases hd
  have hcolon : ∀ rest, ':' :: cs = '\x7d' :: rest → False := by
    intro rest heq
    cases heq
  obtain ⟨htake, hdrop⟩ := optionChar_same.while_eq cs
  rw [ends_option, ends_literal colon_same, if_pos (show (':' == ':') = true from rfl), List.flatMap_singleton,
    RegExp.flatMap_group_plus hclose, htake, hdrop, isEmpty_units, ends_literal_other close_same hcolon]
  exact List.append_nil _

theorem ends_braced (cs : List Char) :
    (RegExp.ends (.group 2 (RegExp.plus (.set Tokenize.word))) (units cs, [])).flatMap (RegExp.ends afterName) =
      found (Utterance.braced cs) := by
  obtain ⟨htake, hdrop⟩ := word_same.while_eq cs
  rw [RegExp.flatMap_group_plus ends_afterName_word, htake, hdrop, isEmpty_units, Utterance.braced]
  dsimp only
  by_cases hname : (cs.takeWhile Utterance.word).isEmpty = true
  · rw [if_pos hname, if_pos hname]
    rfl
  · rw [if_neg hname, if_neg hname]
    split
    · rename_i heq
      rw [heq, ends_afterName, ends_close]
      · rfl
      · intro rest hrest
        cases hrest
    · rename_i ds heq
      rw [heq, ends_afterName_option]
      by_cases hopt : (ds.takeWhile Utterance.optionChar).isEmpty = true
      · rw [if_pos hopt, if_pos hopt]
        rfl
      · rw [if_neg hopt, if_neg hopt]
        split
        · rename_i hrest
          rw [hrest, ends_close]
          rfl
        · rename_i hother
          rw [ends_literal_other close_same hother]
          rfl
    · rename_i hclose hcolon
      rw [ends_afterName hcolon, ends_literal_other close_same hclose]
      rfl

/-- Without braces, the lookahead does not see more of the name. -/
theorem ends_short (cs : List Char) :
    RegExp.ends (.group 1 (.seq (RegExp.plus (.set Tokenize.word)) (.notAhead (.set Tokenize.word)))) (units cs, []) =
      if (cs.takeWhile Utterance.word).isEmpty then []
      else [(units (cs.dropWhile Utterance.word), [(1, units (cs.takeWhile Utterance.word))])] := by
  have hword : ∀ (c : UInt16) ds captures, Tokenize.word c = true →
      RegExp.ends (.notAhead (.set Tokenize.word)) (c :: ds, captures) = [] := by
    intro c ds captures hc
    rw [RegExp.ends, RegExp.ends_set_cons, if_pos hc]
    rfl
  have hrest : RegExp.ends (.notAhead (.set Tokenize.word)) ((units cs).dropWhile Tokenize.word, []) =
      [((units cs).dropWhile Tokenize.word, [])] := by
    have hnone : RegExp.ends (.set Tokenize.word) ((units cs).dropWhile Tokenize.word, []) = [] := by
      cases hdrop : (units cs).dropWhile Tokenize.word with
      | nil => rfl
      | cons c ds =>
        have hnot := List.head?_dropWhile_not Tokenize.word (units cs)
        rw [hdrop] at hnot
        rw [RegExp.ends_set_cons, if_neg (by simpa using hnot)]
    rw [RegExp.ends, hnone]
    rfl
  obtain ⟨htake, hdrop⟩ := word_same.while_eq cs
  rw [RegExp.ends, RegExp.ends, RegExp.flatMap_plus hword, hrest, htake, isEmpty_units]
  split
  · rfl
  · rw [List.map_singleton, RegExp.take_length_sub_dropWhile, htake, hdrop]

/-- Where a character starts, the matches of the expression are what the scanner reads. -/
theorem ends_paramRegex (cs : List Char) : Tokenize.paramRegex.ends (units cs, []) = found (Utterance.paramRegex cs) := by
  cases cs with
  | nil => rfl
  | cons c cs =>
    rw [Tokenize.paramRegex, RegExp.ends, ends_literal dollar_same]
    by_cases hdollar : c = '$'
    · subst hdollar
      rw [if_pos (show ('$' == '$') = true from rfl), List.flatMap_singleton, RegExp.ends, RegExp.ends, ends_short, RegExp.ends]
      cases cs with
      | nil => rfl
      | cons d cs =>
        rw [ends_literal dollar_same, ends_literal open_same]
        by_cases hd : d = '$'
        · subst hd
          rfl
        · by_cases hopen : d = '\x7b'
          · subst hopen
            exact (List.append_nil _).symm ▸ ends_braced cs
          · rw [if_neg (show ¬(d == '$') = true by simpa using hd), if_neg (show ¬(d == '\x7b') = true by simpa using hopen),
              Utterance.paramRegex]
            · split
              · rfl
              · rfl
            · intro ds hds
              exact hd (List.cons.inj hds).1
            · intro ds hds
              exact hopen (List.cons.inj hds).1
    · rw [if_neg (by simpa using hdollar), Utterance.paramRegex]
      · rfl
      · intro ds hds
        exact hdollar (List.cons.inj hds).1

/-! ## The search -/

theorem braced_text {cs rest : List Char} {m : Utterance.Match} (h : Utterance.braced cs = some (m, rest)) :
    '$' :: '\x7b' :: cs = m.text ++ rest := by
  rw [Utterance.braced] at h
  dsimp only at h
  split at h
  · cases h
  · have hname := List.takeWhile_append_dropWhile (p := Utterance.word) (l := cs)
    split at h
    · rename_i _ hdrop
      obtain ⟨rfl, rfl⟩ := Prod.mk.inj (Option.some.inj h)
      rw [hdrop] at hname
      conv_lhs => rw [← hname]
      simp
    · rename_i ds hdrop
      split at h
      · cases h
      · have hopt := List.takeWhile_append_dropWhile (p := Utterance.optionChar) (l := ds)
        split at h
        · rename_i _ hrest
          obtain ⟨rfl, rfl⟩ := Prod.mk.inj (Option.some.inj h)
          rw [hdrop] at hname
          rw [hrest] at hopt
          conv_lhs => rw [← hname, ← hopt]
          simp
        · cases h
    · cases h

theorem paramRegex_text {cs rest : List Char} {m : Utterance.Match} (h : Utterance.paramRegex cs = some (m, rest)) :
    cs = m.text ++ rest := by
  unfold Utterance.paramRegex at h
  split at h
  · split at h
    · obtain ⟨rfl, rfl⟩ := Prod.mk.inj (Option.some.inj h)
      rfl
    · exact braced_text h
    · rename_i ds _ _
      dsimp only at h
      split at h
      · cases h
      · obtain ⟨rfl, rfl⟩ := Prod.mk.inj (Option.some.inj h)
        exact congrArg (List.cons '$') List.takeWhile_append_dropWhile.symm
  · cases h

/-- Within a pair of surrogates nothing starts. -/
theorem ends_surrogate {v : UInt16} (h : 128 ≤ v.toNat) (us : List UInt16) : Tokenize.paramRegex.ends (v :: us, []) = [] := by
  have hne : (v == 36) = false := by
    rw [beq_eq_false_iff_ne]
    rintro rfl
    exact absurd h (by decide)
  rw [Tokenize.paramRegex, RegExp.ends, Tokenize.literal, RegExp.ends_set_cons, hne]
  rfl

/-- What the scanner finds, as the search gives it. -/
def located (index : Nat) (x : List Char × Utterance.Match × List Char) : Nat × Nat × RegExp.Captures UInt16 :=
  (index + (units x.1).length, index + (units x.1).length + (units x.2.1.text).length, captures x.2.1)

theorem search_units (index : Nat) (cs : List Char) :
    RegExp.search Tokenize.paramRegex index (units cs) = (Utterance.exec cs).map (located index) := by
  induction cs generalizing index with
  | nil => exact RegExp.search_nil index rfl
  | cons c cs ih =>
    have hends := ends_paramRegex (c :: cs)
    rw [Utterance.exec]
    cases hread : Utterance.paramRegex (c :: cs) with
    | some x =>
      obtain ⟨m, rest⟩ := x
      rw [hread] at hends
      rw [RegExp.search_found index hends, paramRegex_text hread, units_append, List.length_append, Nat.add_sub_cancel]
      rfl
    | none =>
      rw [hread] at hends
      have hmap : ((Utterance.exec cs).map fun x => (c :: x.1, x.2)).map (located index) =
          (Utterance.exec cs).map (located (index + (units [c]).length)) := by
        rw [Option.map_map]
        congr 1
        funext x
        have happend : units (c :: x.1) = units [c] ++ units x.1 := units_append [c] x.1
        simp only [Function.comp_apply, located, happend, List.length_append, Nat.add_assoc]
      dsimp only
      rw [hmap]
      rcases units_cons c cs with ⟨hsmall, hcons⟩ | ⟨hlarge, u, v, hcons, -, hv⟩
      · have hone : (units [c]).length = 1 := by
          rcases units_cons c [] with ⟨-, hsingle⟩ | ⟨hlarge, -⟩
          · rw [hsingle]
            rfl
          · omega
        rw [hcons] at hends ⊢
        rw [RegExp.search_next index hends, ih, hone]
      · have htwo : (units [c]).length = 2 := by
          rcases units_cons c [] with ⟨hsmall, -⟩ | ⟨-, u', v', hpair, -⟩
          · omega
          · rw [hpair]
            rfl
        rw [hcons] at hends ⊢
        rw [RegExp.search_next index hends, RegExp.search_next (index + 1) (ends_surrogate hv _), ih, htwo]

/-! ## The chunks -/

theorem exec_text {cs before rest : List Char} {m : Utterance.Match} (h : Utterance.exec cs = some (before, m, rest)) :
    cs = before ++ (m.text ++ rest) := by
  induction cs generalizing before with
  | nil => cases h
  | cons c cs ih =>
    rw [Utterance.exec] at h
    split at h
    · rename_i hread
      obtain ⟨rfl, hfound⟩ := Prod.mk.inj (Option.some.inj h)
      obtain ⟨rfl, rfl⟩ := Prod.mk.inj hfound
      exact paramRegex_text hread
    · obtain ⟨x, hx, heq⟩ := Option.map_eq_some_iff.mp h
      obtain ⟨rfl, hfound⟩ := Prod.mk.inj heq
      rw [List.cons_append, ih (hx.trans (congrArg some (Prod.ext rfl hfound)))]

theorem exec_units_none (searched : List UInt16) {cs : List Char} (h : Utterance.exec cs = none) :
    RegExp.exec Tokenize.paramRegex (searched ++ units cs) searched.length = (none, 0) := by
  have hle : ¬(searched ++ units cs).length < searched.length := by
    rw [List.length_append]
    omega
  rw [RegExp.exec, if_neg hle, List.drop_left, search_units, h]
  rfl

theorem exec_units_some (searched : List UInt16) {cs before rest : List Char} {m : Utterance.Match}
    (h : Utterance.exec cs = some (before, m, rest)) :
    RegExp.exec Tokenize.paramRegex (searched ++ units cs) searched.length =
      (some ⟨searched.length + (units before).length, units m.text, captures m⟩,
        searched.length + (units before).length + (units m.text).length) := by
  have hle : ¬(searched ++ units cs).length < searched.length := by
    rw [List.length_append]
    omega
  have hsubstring : RegExp.substring (searched ++ units cs) (searched.length + (units before).length)
      (searched.length + (units before).length + (units m.text).length) = units m.text := by
    have hsplit : searched ++ units cs = (searched ++ units before) ++ (units m.text ++ units rest) := by
      rw [exec_text h, units_append, units_append, List.append_assoc]
    rw [hsplit, ← List.length_append]
    exact Tokenize.substring_searched _ _ _
  rw [RegExp.exec, if_neg hle, List.drop_left, search_units, h]
  exact congrArg (fun text => (some (RegExp.Match.mk _ text _), _)) hsubstring

/-- A chunk: a text, or a match with its groups. -/
abbrev View := List UInt16 ⊕ List UInt16 × RegExp.Captures UInt16

def view : Tokenize.Chunk UInt16 → View
  | .text s => .inl s
  | .matched m => .inr (m.text, m.captures)

def viewOf : Utterance.Chunk → View
  | .text s => .inl (units s)
  | .placeholder m => .inr (units m.text, captures m)

theorem view_text (searched rest : List UInt16) (cs : List Char) {p : Prop} [Decidable p] (hp : p ↔ units cs ≠ []) :
    (if p then [Tokenize.Chunk.text (RegExp.substring (searched ++ (units cs ++ rest)) searched.length
        (searched.length + (units cs).length))] else []).map view =
      (if cs.isEmpty then [] else [Utterance.Chunk.text cs]).map viewOf := by
  rw [Tokenize.substring_searched]
  by_cases hne : units cs = []
  · have hempty : cs.isEmpty = true := by rw [← isEmpty_units, hne]; rfl
    rw [if_neg (by simp [hp, hne]), if_pos hempty]
    rfl
  · have hempty : ¬cs.isEmpty = true := by rwa [← isEmpty_units, List.isEmpty_iff]
    rw [if_pos (hp.mpr hne), if_neg hempty]
    rfl

theorem splitLoop_units (fuel fuel' : Nat) (searched : List UInt16) (cs : List Char) (hfuel : cs.length < fuel)
    (hfuel' : cs.length ≤ fuel') :
    ∃ chunks, Tokenize.splitLoop (searched ++ units cs) Tokenize.paramRegex fuel'
        (RegExp.exec Tokenize.paramRegex (searched ++ units cs) searched.length).1
        (RegExp.exec Tokenize.paramRegex (searched ++ units cs) searched.length).2 searched.length = some chunks ∧
      chunks.map view = (Utterance.splitLoop fuel cs).map viewOf := by
  induction fuel generalizing fuel' searched cs with
  | zero => exact absurd hfuel (Nat.not_lt_zero _)
  | succ fuel ih =>
    rw [Utterance.splitLoop]
    cases hexec : Utterance.exec cs with
    | none =>
      rw [exec_units_none searched hexec]
      have hp : searched.length < (searched ++ units cs).length ↔ units cs ≠ [] := by
        rw [List.length_append, ← List.length_pos_iff]
        omega
      have hview := view_text searched [] cs hp
      rw [List.append_nil, ← List.length_append] at hview
      refine ⟨_, ?_, hview⟩
      cases fuel' with
      | zero => rfl
      | succ fuel' => rfl
    | some x =>
      obtain ⟨before, m, rest⟩ := x
      have hlt := (Utterance.exec_some hexec).1
      have hp : searched.length + (units before).length > searched.length ↔ units before ≠ [] := by
        rw [← List.length_pos_iff]
        omega
      obtain ⟨fuel', rfl⟩ := Nat.exists_eq_add_of_le' (Nat.le_trans (Nat.zero_lt_of_lt hlt) hfuel')
      obtain ⟨chunks, hloop, hchunks⟩ := ih fuel' (searched ++ (units before ++ units m.text)) rest (by omega) (by omega)
      have hsplit : searched ++ units cs = searched ++ (units before ++ (units m.text ++ units rest)) := by
        rw [exec_text hexec, units_append, units_append]
      have hsearched : searched ++ (units before ++ units m.text) ++ units rest = searched ++ units cs := by
        rw [hsplit]
        simp only [List.append_assoc]
      rw [hsearched, List.length_append, List.length_append, ← Nat.add_assoc] at hloop
      rw [exec_units_some searched hexec, Tokenize.splitLoop, hloop]
      refine ⟨_, rfl, ?_⟩
      rw [List.map_append, List.map_append, List.map_cons, List.map_cons, hchunks, hsplit, view_text searched _ before hp]
      rfl

/-- The two readers give the same chunks, with the same groups. -/
theorem splitParams_units (utterance : List Char) {fuel : Nat} (hfuel : utterance.length ≤ fuel) :
    ∃ chunks, Tokenize.splitParams fuel (units utterance) = some chunks ∧
      chunks.map view = (Utterance.splitParams utterance).map viewOf :=
  splitLoop_units _ fuel [] utterance (Nat.lt_succ_self _) hfuel

end GenieCloud.Util.UtteranceChunks
