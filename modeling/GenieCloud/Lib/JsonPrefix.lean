/-
  GenieCloud.Lib.JsonPrefix — the text of a JSON value among other characters.

  - `newline_not_mem_text`: it has no newline in it.
  - `value_append`: what the reader takes off the front of its input does not depend on
    what is appended to it, numbers apart, and neither do its parts.
  - `parse_beginning`: so no proper prefix of the text of an object is the text of anything.
-/

import GenieCloud.Lib.Json

namespace GenieCloud.Lib.Json

variable {N : Type} [Numeral N]

/-! ## No newline -/

theorem newline_not_mem_escape (c : Char) : '\n' ∉ escape c := by
  have hdigit : ∀ n < 16, hexDigit n ≠ '\n' := by decide
  unfold escape
  repeat' split
  case _ => decide
  case _ => decide
  case _ => decide
  case _ => decide
  case _ => decide
  case _ => decide
  case _ => decide
  case _ h =>
    have h1 := hdigit (c.toNat / 16) (by omega)
    have h2 := hdigit (c.toNat % 16) (by omega)
    simp only [List.mem_cons, List.not_mem_nil, or_false, not_or]
    exact ⟨by decide, by decide, by decide, by decide, h1.symm, h2.symm⟩
  case _ h _ _ _ =>
    rw [List.mem_singleton]
    rintro rfl
    exact h rfl

theorem newline_not_mem_quote (s : String) : '\n' ∉ quote s := by
  unfold quote
  rw [List.mem_cons, List.mem_append, List.mem_flatMap, List.mem_singleton]
  rintro (h | ⟨c, -, hc⟩ | h)
  · exact absurd h (by decide)
  · exact newline_not_mem_escape c hc
  · exact absurd h (by decide)

mutual

theorem newline_not_mem_text (j : Value N) : '\n' ∉ text j := by
  cases j with
  | null => simp only [text]; decide
  | bool b => cases b <;> (simp only [text]; decide)
  | num n =>
    rw [text]
    intro h
    exact absurd (Numeral.isNumeral_of_mem n _ h) (by decide)
  | str s => exact newline_not_mem_quote s
  | arr xs =>
    cases xs with
    | nil => simp only [text]; decide
    | cons x xs =>
      have h1 := newline_not_mem_text x
      have h2 := newline_not_mem_textElements xs
      rw [text, List.mem_cons, List.mem_append]
      rintro (h | h | h)
      · exact absurd h (by decide)
      · exact h1 h
      · exact h2 h
  | obj fs =>
    cases fs with
    | nil => simp only [text]; decide
    | cons f fs =>
      obtain ⟨k, x⟩ := f
      have h1 := newline_not_mem_text x
      have h2 := newline_not_mem_textFields fs
      rw [text, List.mem_cons, List.mem_append, List.mem_cons, List.mem_append]
      rintro (h | h | h | h | h)
      · exact absurd h (by decide)
      · exact newline_not_mem_quote k h
      · exact absurd h (by decide)
      · exact h1 h
      · exact h2 h

theorem newline_not_mem_textElements (xs : List (Value N)) : '\n' ∉ textElements xs := by
  cases xs with
  | nil => simp only [textElements]; decide
  | cons x xs =>
    have h1 := newline_not_mem_text x
    have h2 := newline_not_mem_textElements xs
    rw [textElements, List.mem_cons, List.mem_append]
    rintro (h | h | h)
    · exact absurd h (by decide)
    · exact h1 h
    · exact h2 h

theorem newline_not_mem_textFields (fs : List (String × Value N)) : '\n' ∉ textFields fs := by
  cases fs with
  | nil => simp only [textFields]; decide
  | cons f fs =>
    obtain ⟨k, x⟩ := f
    have h1 := newline_not_mem_text x
    have h2 := newline_not_mem_textFields fs
    rw [textFields, List.mem_cons, List.mem_append, List.mem_cons, List.mem_append]
    rintro (h | h | h | h | h)
    · exact absurd h (by decide)
    · exact newline_not_mem_quote k h
    · exact absurd h (by decide)
    · exact h1 h
    · exact h2 h

end

/-! ## Reading with more input -/

theorem skip_append {cs : List Char} {c : Char} {r : List Char} (h : skip cs = c :: r) (q : List Char) :
    skip (cs ++ q) = c :: (r ++ q) := by
  have hne : ¬ (cs.dropWhile isSpace).isEmpty = true := by
    rw [show cs.dropWhile isSpace = c :: r from h]
    simp
  rw [skip, List.dropWhile_append, if_neg hne, show cs.dropWhile isSpace = c :: r from h]
  rfl

theorem unit_backslash {e : Char} (he : e ≠ 'u') (r : List Char) :
    unit backslash (e :: r) = (unescape e).map fun u => ([u], r) := by
  unfold unit
  rw [if_pos rfl]
  split
  · rename_i heq
    exact absurd (List.cons.inj heq).1 he
  · rename_i heq
    cases heq
    cases unescape e <;> rfl
  · rename_i heq
    cases heq

theorem unit_append {c : Char} {r r' : List Char} {us : List Nat} (h : unit c r = some (us, r')) (q : List Char) :
    unit c (r ++ q) = some (us, r' ++ q) := by
  by_cases hc : c = backslash
  · subst hc
    cases r with
    | nil => cases h
    | cons e r =>
      by_cases he : e = 'u'
      · subst he
        -- four more characters, or this is no escape
        match r with
        | x :: y :: z :: w :: r =>
          simp only [unit, if_true, Option.bind_eq_bind, Option.bind_eq_some_iff, Option.pure_def, Option.some.injEq] at h
          obtain ⟨a, ha, b, hb, c, hc, d, hd, heq⟩ := h
          cases heq
          simp only [List.cons_append, unit, if_true, ha, hb, hc, hd, Option.bind_eq_bind, Option.bind_some]
          rfl
        | [] | [_] | [_, _] | [_, _, _] => exact absurd h (by simp [unit, unescape, mark, backslash])
      · rw [unit_backslash he] at h
        rw [List.cons_append, unit_backslash he]
        obtain ⟨u, hu, heq⟩ := Option.map_eq_some_iff.mp h
        cases heq
        rw [hu]
        rfl
  · unfold unit at h ⊢
    rw [if_neg hc] at h ⊢
    split at h
    · cases h
    · rename_i hlt
      rw [if_neg hlt]
      cases h
      rfl

theorem body_append {fuel fuel' : Nat} {cs r : List Char} {us : List Nat} (h : body fuel cs = some (us, r))
    (hf : fuel ≤ fuel') (q : List Char) : body fuel' (cs ++ q) = some (us, r ++ q) := by
  induction fuel generalizing fuel' cs us with
  | zero => cases h
  | succ fuel ih =>
    obtain ⟨k, rfl, hk⟩ := exists_succ hf
    cases cs with
    | nil => cases h
    | cons c cs =>
      rw [body] at h
      rw [List.cons_append, body]
      by_cases hc : c = mark
      · rw [if_pos hc] at h ⊢
        cases h
        rfl
      · rw [if_neg hc] at h ⊢
        simp only [Option.bind_eq_bind, Option.bind_eq_some_iff, Prod.exists, Option.pure_def, Option.some.injEq,
          Prod.mk.injEq] at h
        obtain ⟨us, r', hu, vs, r₂, hb, rfl, rfl⟩ := h
        simp only [unit_append hu, Option.bind_eq_bind, Option.bind_some, ih hb hk]
        rfl

theorem string_append {cs r : List Char} {s : String} (h : string cs = some (s, r)) (q : List Char) :
    string (cs ++ q) = some (s, r ++ q) := by
  unfold string at h ⊢
  simp only [Option.bind_eq_bind, Option.bind_eq_some_iff, Prod.exists, Option.pure_def, Option.some.injEq,
    Prod.mk.injEq] at h
  obtain ⟨us, r', hb, ds, hd, rfl, rfl⟩ := h
  have hlen : cs.length ≤ (cs ++ q).length := by rw [List.length_append]; omega
  simp only [body_append hb hlen, Option.bind_eq_bind, Option.bind_some, hd]
  rfl

theorem name_append {cs r : List Char} {k : String} (h : name cs = some (k, r)) (q : List Char) :
    name (cs ++ q) = some (k, r ++ q) := by
  unfold name at h ⊢
  cases hs : skip cs with
  | nil =>
    rw [hs] at h
    cases h
  | cons c r' =>
    rw [hs] at h
    rw [skip_append hs]
    by_cases hc : c = mark
    · simp only [hc, if_true, Option.bind_eq_bind, Option.bind_eq_some_iff, Prod.exists] at h ⊢
      obtain ⟨k', r₂, hstr, h⟩ := h
      refine ⟨k', r₂ ++ q, string_append hstr q, ?_⟩
      cases hs' : skip r₂ with
      | nil =>
        rw [hs'] at h
        cases h
      | cons d r₃ =>
        rw [hs'] at h
        rw [skip_append hs']
        by_cases hd : d = ':'
        · subst hd
          cases h
          rfl
        · exact absurd h (by simp [hd])
    · simp only [hc, if_false] at h
      cases h

/-- A number that something follows ends there. -/
theorem number_append {cs r : List Char} {j : Value N} (h : number cs = some (j, r)) (hr : r ≠ []) (q : List Char) :
    number (cs ++ q) = some (j, r ++ q) := by
  unfold number at h ⊢
  simp only [Option.bind_eq_bind, Option.bind_eq_some_iff, Option.pure_def, Option.some.injEq, Prod.mk.injEq] at h
  obtain ⟨n, hn, rfl, rfl⟩ := h
  have hne : (cs.takeWhile isNumeral).length ≠ cs.length := by
    intro hlen
    have := congrArg List.length (List.takeWhile_append_dropWhile (p := isNumeral) (l := cs))
    rw [List.length_append] at this
    exact hr (List.eq_nil_of_length_eq_zero (by omega))
  have hne' : ¬ (cs.dropWhile isNumeral).isEmpty = true := by simpa using hr
  rw [List.takeWhile_append, if_neg hne, List.dropWhile_append, if_neg hne', hn]
  rfl

omit [Numeral N] in
theorem word_append {cs r : List Char} {j : Value N} (h : word cs = some (j, r)) (q : List Char) :
    word (cs ++ q) = some (j, r ++ q) := by
  unfold word at h
  split at h
  · cases h
    rfl
  · cases h
    rfl
  · cases h
    rfl
  · cases h

theorem skip_of_value {fuel : Nat} {cs r : List Char} {j : Value N} (h : value fuel cs = some (j, r)) :
    ∃ c t, skip cs = c :: t := by
  cases fuel with
  | zero => cases h
  | succ fuel =>
    cases hs : skip cs with
    | nil => simp only [value, hs] at h; cases h
    | cons c t => exact ⟨c, t, rfl⟩

theorem skip_of_name {cs r : List Char} {k : String} (h : name cs = some (k, r)) : ∃ c t, skip cs = c :: t := by
  cases hs : skip cs with
  | nil => simp only [name, hs] at h; cases h
  | cons c t => exact ⟨c, t, rfl⟩

theorem ne_nil_of_elements {fuel : Nat} {cs r : List Char} {xs : List (Value N)}
    (h : elements fuel cs = some (xs, r)) : cs ≠ [] := by
  rintro rfl
  cases fuel <;> cases h

theorem ne_nil_of_fields {fuel : Nat} {cs r : List Char} {fs : List (String × Value N)}
    (h : fields fuel cs = some (fs, r)) : cs ≠ [] := by
  rintro rfl
  cases fuel <;> cases h

mutual

theorem value_append {fuel fuel' : Nat} {cs r : List Char} {j : Value N} (h : value fuel cs = some (j, r))
    (hf : fuel ≤ fuel') (hr : r ≠ [] ∨ ∀ n, j ≠ .num n) (q : List Char) :
    value fuel' (cs ++ q) = some (j, r ++ q) := by
  cases fuel with
  | zero => cases h
  | succ fuel =>
    obtain ⟨k, rfl, hk⟩ := exists_succ hf
    obtain ⟨c, t, hs⟩ := skip_of_value h
    simp only [value, hs] at h
    simp only [value, skip_append hs]
    by_cases hm : c = mark
    · simp only [hm, if_true, Option.bind_eq_bind, Option.bind_eq_some_iff, Prod.exists, Option.pure_def,
        Option.some.injEq, Prod.mk.injEq] at h ⊢
      obtain ⟨s, r', hstr, rfl, rfl⟩ := h
      exact ⟨s, r' ++ q, string_append hstr q, rfl, rfl⟩
    simp only [hm, if_false] at h ⊢
    by_cases ha : c = '['
    · simp only [ha, if_true] at h ⊢
      by_cases hclose : (skip t).head? = some ']'
      · rw [if_pos hclose] at h
        obtain ⟨d, t', hs'⟩ : ∃ d t', skip t = d :: t' := List.exists_cons_of_ne_nil (by rintro e; simp [e] at hclose)
        rw [hs', List.head?_cons] at hclose
        rw [hs'] at h
        rw [skip_append hs', List.head?_cons, if_pos hclose]
        cases h
        rfl
      · rw [if_neg hclose] at h
        simp only [Option.bind_eq_bind, Option.bind_eq_some_iff, Prod.exists, Option.pure_def, Option.some.injEq,
          Prod.mk.injEq] at h
        obtain ⟨x, r₁, hx, xs, r₂, hxs, rfl, rfl⟩ := h
        obtain ⟨d, t', hs'⟩ := skip_of_value hx
        rw [hs', List.head?_cons] at hclose
        have hx' := value_append hx hk (Or.inl (ne_nil_of_elements hxs)) q
        have hxs' := elements_append hxs hk q
        rw [skip_append hs', List.head?_cons, if_neg hclose]
        simp only [hx', hxs', Option.bind_eq_bind, Option.bind_some]
        rfl
    simp only [ha, if_false] at h ⊢
    by_cases ho : c = '{'
    · simp only [ho, if_true] at h ⊢
      by_cases hclose : (skip t).head? = some '}'
      · rw [if_pos hclose] at h
        obtain ⟨d, t', hs'⟩ : ∃ d t', skip t = d :: t' := List.exists_cons_of_ne_nil (by rintro e; simp [e] at hclose)
        rw [hs', List.head?_cons] at hclose
        rw [hs'] at h
        rw [skip_append hs', List.head?_cons, if_pos hclose]
        cases h
        rfl
      · rw [if_neg hclose] at h
        simp only [Option.bind_eq_bind, Option.bind_eq_some_iff, Prod.exists, Option.pure_def, Option.some.injEq,
          Prod.mk.injEq] at h
        obtain ⟨key, r₁, hname, x, r₂, hx, fs, r₃, hfs, rfl, rfl⟩ := h
        obtain ⟨d, t', hs'⟩ := skip_of_name hname
        rw [hs', List.head?_cons] at hclose
        have hx' := value_append hx hk (Or.inl (ne_nil_of_fields hfs)) q
        have hfs' := fields_append hfs hk q
        rw [skip_append hs', List.head?_cons, if_neg hclose]
        simp only [name_append hname, hx', hfs', Option.bind_eq_bind, Option.bind_some]
        rfl
    simp only [ho, if_false] at h ⊢
    by_cases hn : isNumeral c = true
    · simp only [hn, if_true] at h ⊢
      refine number_append h ?_ q
      rcases hr with hr | hr
      · exact hr
      · simp only [number, Option.bind_eq_bind, Option.bind_eq_some_iff, Option.pure_def, Option.some.injEq,
          Prod.mk.injEq] at h
        obtain ⟨n, -, rfl, -⟩ := h
        exact absurd rfl (hr n)
    · simp only [hn, Bool.false_eq_true, if_false] at h ⊢
      exact word_append h q
termination_by fuel

theorem elements_append {fuel fuel' : Nat} {cs r : List Char} {xs : List (Value N)}
    (h : elements fuel cs = some (xs, r)) (hf : fuel ≤ fuel') (q : List Char) :
    elements fuel' (cs ++ q) = some (xs, r ++ q) := by
  cases fuel with
  | zero => cases h
  | succ fuel =>
    obtain ⟨k, rfl, hk⟩ := exists_succ hf
    unfold elements at h ⊢
    split at h
    · rename_i t hs
      cases h
      rw [skip_append hs]
      rfl
    · rename_i t hs
      simp only [Option.bind_eq_bind, Option.bind_eq_some_iff, Prod.exists, Option.pure_def, Option.some.injEq,
        Prod.mk.injEq] at h
      obtain ⟨x, r₁, hx, ys, r₂, hys, rfl, rfl⟩ := h
      have hx' := value_append hx hk (Or.inl (ne_nil_of_elements hys)) q
      have hys' := elements_append hys hk q
      rw [skip_append hs]
      simp only [hx', hys', Option.bind_eq_bind, Option.bind_some]
      rfl
    · cases h
termination_by fuel

theorem fields_append {fuel fuel' : Nat} {cs r : List Char} {fs : List (String × Value N)}
    (h : fields fuel cs = some (fs, r)) (hf : fuel ≤ fuel') (q : List Char) :
    fields fuel' (cs ++ q) = some (fs, r ++ q) := by
  cases fuel with
  | zero => cases h
  | succ fuel =>
    obtain ⟨k, rfl, hk⟩ := exists_succ hf
    unfold fields at h ⊢
    split at h
    · rename_i t hs
      cases h
      rw [skip_append hs]
      rfl
    · rename_i t hs
      simp only [Option.bind_eq_bind, Option.bind_eq_some_iff, Prod.exists, Option.pure_def, Option.some.injEq,
        Prod.mk.injEq] at h
      obtain ⟨key, r₁, hname, x, r₂, hx, gs, r₃, hgs, rfl, rfl⟩ := h
      have hx' := value_append hx hk (Or.inl (ne_nil_of_fields hgs)) q
      have hgs' := fields_append hgs hk q
      rw [skip_append hs]
      simp only [name_append hname, hx', hgs', Option.bind_eq_bind, Option.bind_some]
      rfl
    · cases h
termination_by fuel

end

theorem text_obj_head (fs : List (String × Value N)) : ∃ t, text (.obj fs) = '{' :: t := by
  cases fs with
  | nil => exact ⟨_, rfl⟩
  | cons f fs => exact ⟨_, rfl⟩

/-- What begins with a brace is not a number. -/
theorem value_brace {fuel : Nat} {t r : List Char} {j : Value N} (h : value fuel ('{' :: t) = some (j, r)) (n : N) :
    j ≠ .num n := by
  cases fuel with
  | zero => cases h
  | succ fuel =>
    rw [value, skip_of_not_isSpace (by decide)] at h
    dsimp only at h
    rw [if_neg (by decide), if_neg (by decide), if_pos rfl] at h
    split at h
    · cases h
      exact fun e => nomatch e
    · simp only [Option.bind_eq_bind, Option.bind_eq_some_iff, Prod.exists, Option.pure_def, Option.some.injEq,
        Prod.mk.injEq] at h
      obtain ⟨_, _, _, _, _, _, _, _, _, rfl, _⟩ := h
      exact fun e => nomatch e

/-- A proper prefix of the text of an object does not parse. -/
theorem parse_beginning {fs : List (String × Value N)} {p q : List Char} (h : text (.obj fs) = p ++ q) (hq : q ≠ []) :
    parse (N := N) (String.ofList p) = none := by
  rw [← Option.not_isSome_iff_eq_none, Option.isSome_iff_exists]
  rintro ⟨j, hj⟩
  simp only [parse, String.toList_ofList, Option.bind_eq_bind, Option.bind_eq_some_iff, Prod.exists] at hj
  obtain ⟨j', r, hv, -⟩ := hj
  have hnum : ∀ n, j' ≠ .num n := by
    cases p with
    | nil => cases hv
    | cons c t =>
      obtain ⟨t', ht'⟩ := text_obj_head fs
      obtain ⟨rfl, -⟩ := List.cons.inj (ht'.symm.trans h)
      exact value_brace hv
  have hlen : p.length ≤ (text (.obj fs)).length := by
    rw [h, List.length_append]
    omega
  have hall := value_text (.obj fs) (text (.obj fs)).length [] (Nat.le_refl _) (by intro c hc; cases hc)
  have hmore := value_append hv hlen (Or.inr hnum) q
  rw [List.append_nil, h] at hall
  rw [h, hall] at hmore
  simp only [Option.some.injEq, Prod.mk.injEq] at hmore
  exact hq (List.append_eq_nil_iff.mp hmore.2.symm).2

end GenieCloud.Lib.Json
