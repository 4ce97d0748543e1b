/-
  GenieCloud.Lib.Groups — assembling rows into entries in one pass.

  A `Pass` reads rows one by one: a row whose key is not that of the last entry opens a
  new entry, and every row is added to the last one. Rows are `Grouped` when those of one
  key come one after another.

  - `run_inv`: what the pass returns after any rows. Its entries have the keys of the
    rows, each once if and only if the rows are grouped, and then the entry of a key is
    made of all the rows with that key, in their order.
  - `grouped_perms_iff`: every order of the rows is grouped if and only if there is one
    key only or no key comes twice.
-/

import Mathlib.Data.List.Nodup
import Mathlib.Data.List.Perm.Basic
import Mathlib.Tactic.Common

namespace GenieCloud.Lib.Groups

variable {α ρ ε κ : Type}

/-! ## Grouped rows -/

/-- No row of another key stands between two rows of one key. -/
def Grouped (key : α → κ) (l : List α) : Prop := ∀ a b c, [a, b, c].Sublist l → key a = key c → key b = key c

variable {key : α → κ} {l : List α}

theorem grouped_nil : Grouped key [] := by
  intro a b c h
  simp at h

theorem grouped_of_nodup (h : (l.map key).Nodup) : Grouped key l := by
  intro a b c hs hac
  have hp := List.pairwise_map.mp h
  exact absurd hac (List.pairwise_iff_forall_sublist.mp hp (List.Sublist.trans (by simp) hs))

theorem grouped_append {l₁ l₂ : List α} (h₁ : ∀ a ∈ l₁, ∀ b ∈ l₁, key a = key b) (h₂ : Grouped key l₂)
    (hd : ∀ a ∈ l₁, ∀ b ∈ l₂, key a ≠ key b) : Grouped key (l₁ ++ l₂) := by
  intro a b c hs hac
  obtain ⟨x, y, hxy, hx, hy⟩ := List.sublist_append_iff.mp hs
  rcases x with _ | ⟨a', x⟩
  · rw [List.nil_append] at hxy
    exact h₂ a b c (hxy ▸ hy) hac
  · rw [List.cons_append] at hxy
    obtain ⟨rfl, hbc⟩ := List.cons.inj hxy
    have ha := hx.subset (List.mem_cons_self ..)
    -- what follows a row of the first list and has its key is in the first list too
    have hy' : y = [] := by
      rcases List.eq_nil_or_concat y with hnil | ⟨y', c', rfl⟩
      · exact hnil
      · rw [List.concat_eq_append, ← List.append_assoc] at hbc
        obtain ⟨-, hc⟩ := List.append_inj' (show [b] ++ [c] = x ++ y' ++ [c'] from hbc) rfl
        cases hc
        exact absurd hac (hd a ha c (hy.subset (by simp)))
    rw [hy', List.append_nil] at hbc
    subst hbc
    exact h₁ b (hx.subset (by simp)) c (hx.subset (by simp))

theorem grouped_concat {r : α} :
    Grouped key (l ++ [r]) ↔ Grouped key l ∧ (key r ∈ l.map key → l.getLast?.map key = some (key r)) := by
  constructor
  · intro h
    refine ⟨fun a b c hs => h a b c (hs.trans (List.sublist_append_left _ _)), ?_⟩
    intro hk
    obtain ⟨a, ha, hka⟩ := List.mem_map.mp hk
    obtain ⟨m, b, rfl⟩ : ∃ m b, l = m ++ [b] :=
      ⟨_, _, (List.dropLast_append_getLast (List.ne_nil_of_mem ha)).symm⟩
    rw [List.getLast?_concat, Option.map_some, Option.some.injEq]
    rcases List.mem_append.mp ha with hm | hb
    · refine h a b r ?_ hka
      have hsub : [a].Sublist m := List.singleton_sublist.mpr hm
      simpa using (hsub.append (List.Sublist.refl [b])).append (List.Sublist.refl [r])
    · rw [← hka, List.mem_singleton.mp hb]
  · intro ⟨h, hlast⟩ a b c hs hac
    obtain ⟨x, y, hxy, hx, hy⟩ := List.sublist_append_iff.mp hs
    rcases List.sublist_cons_iff.mp hy with hy | ⟨z, rfl, hz⟩
    · rw [List.sublist_nil.mp hy, List.append_nil] at hxy
      exact h a b c (hxy ▸ hx) hac
    · rw [List.sublist_nil.mp hz] at hxy
      obtain ⟨hx', hc⟩ : x = [a, b] ∧ r = c := by
        have := List.append_inj' (show [a, b] ++ [c] = x ++ [r] from hxy) rfl
        exact ⟨this.1.symm, (List.cons.inj this.2).1.symm⟩
      subst hx' hc
      -- the last row of `l` has the key of `r`: either it is `b` or it comes after it
      have hm := hlast (hac ▸ List.mem_map_of_mem (hx.subset (by simp)))
      obtain ⟨m, d, rfl⟩ : ∃ m d, l = m ++ [d] :=
        ⟨_, _, (List.dropLast_append_getLast (List.ne_nil_of_mem (hx.subset (List.mem_cons_self ..)))).symm⟩
      rw [List.getLast?_concat, Option.map_some, Option.some.injEq] at hm
      obtain ⟨u, v, huv, hu, hv⟩ := List.sublist_append_iff.mp hx
      rcases List.sublist_cons_iff.mp hv with hv | ⟨w, rfl, hw⟩
      · rw [List.sublist_nil.mp hv, List.append_nil] at huv
        rw [← hm]
        refine h a b d ?_ (hac.trans hm.symm)
        simpa using (huv ▸ hu).append (List.Sublist.refl [d])
      · rw [List.sublist_nil.mp hw] at huv
        have := List.append_inj' (show [a] ++ [b] = u ++ [d] from huv) rfl
        rw [(List.cons.inj this.2).1, hm]

theorem grouped_perms_iff :
    (∀ l', l'.Perm l → Grouped key l') ↔ (∀ a ∈ l, ∀ b ∈ l, key a = key b) ∨ (l.map key).Nodup := by
  constructor
  · intro h
    by_contra hn
    rw [not_or] at hn
    obtain ⟨hsame, htwice⟩ := hn
    -- two rows of one key, and a third one of another
    obtain ⟨a, c, hac, hkey⟩ : ∃ a c, [a, c].Sublist l ∧ key a = key c := by
      by_contra hno
      refine htwice (List.pairwise_map.mpr (List.pairwise_iff_forall_sublist.mpr ?_))
      intro a c hs he
      exact hno ⟨a, c, hs, he⟩
    obtain ⟨b, hb, hkb⟩ : ∃ b ∈ l, key b ≠ key c := by
      by_contra hno
      simp only [not_exists, not_and, not_not] at hno
      exact hsame fun x hx y hy => (hno x hx).trans (hno y hy).symm
    obtain ⟨l', hl'⟩ := hac.exists_perm_append
    have hb' : b ∈ l' := by
      have := hl'.mem_iff.mp hb
      simp only [List.cons_append, List.nil_append, List.mem_cons] at this
      rcases this with rfl | rfl | h
      · exact absurd hkey hkb
      · exact absurd rfl hkb
      · exact h
    obtain ⟨m, n, rfl⟩ := List.append_of_mem hb'
    have hp : (a :: b :: c :: (m ++ n)).Perm l := by
      refine List.Perm.trans ?_ hl'.symm
      refine List.Perm.cons a ((List.Perm.swap c b _).trans (List.Perm.cons c ?_))
      exact List.perm_middle.symm
    exact hkb (h _ hp a b c (by simp) hkey)
  · intro h l' hp
    rcases h with h | h
    · intro a b c hs _
      have hmem := hs.subset
      exact h b (hp.mem_iff.mp (hmem (by simp))) c (hp.mem_iff.mp (hmem (by simp)))
    · exact grouped_of_nodup ((hp.map key).nodup_iff.mpr h)

/-! ## The pass -/

structure Pass (ρ ε κ : Type) where
  rowKey : ρ → κ
  key : ε → κ
  start : ρ → ε
  add : ε → ρ → ε
  key_start : ∀ row, key (start row) = rowKey row
  key_add : ∀ e row, key (add e row) = key e

namespace Pass

variable [DecidableEq κ] (p : Pass ρ ε κ)

/-- The finished entries, and the one rows are added to. -/
def step (s : List ε × Option ε) (row : ρ) : List ε × Option ε :=
  match s.2 with
  | none => (s.1, some (p.add (p.start row) row))
  | some current =>
    if p.key current ≠ p.rowKey row then (s.1 ++ [current], some (p.add (p.start row) row))
    else (s.1, some (p.add current row))

def out (s : List ε × Option ε) : List ε := s.1 ++ s.2.toList

def run (rows : List ρ) : List ε := out (rows.foldl p.step ([], none))

/-- All the rows with a key, put into one entry. -/
def Made (rows : List ρ) (e : ε) : Prop :=
  ∃ row rest, rows.filter (fun r => p.rowKey r = p.key e) = row :: rest ∧ e = (row :: rest).foldl p.add (p.start row)

structure Inv (rows : List ρ) (s : List ε × Option ε) : Prop where
  last : s.2.map p.key = rows.getLast?.map p.rowKey
  keys : ∀ k, k ∈ (out s).map p.key ↔ k ∈ rows.map p.rowKey
  nodup : ((out s).map p.key).Nodup ↔ Grouped p.rowKey rows
  made : Grouped p.rowKey rows → ∀ e ∈ out s, p.Made rows e

variable {p} {rows : List ρ} {s : List ε × Option ε} {row : ρ}

theorem inv_nil : p.Inv [] ([], none) where
  last := rfl
  keys _ := Iff.rfl
  nodup := ⟨fun _ => grouped_nil, fun _ => List.nodup_nil⟩
  made _ _ h := absurd h List.not_mem_nil

theorem made_other {e : ε} (h : p.Made rows e) (hk : p.rowKey row ≠ p.key e) : p.Made (rows ++ [row]) e := by
  obtain ⟨r, rest, hf, he⟩ := h
  refine ⟨r, rest, ?_, he⟩
  rw [List.filter_append, hf]
  simp [hk]

theorem made_add {e : ε} (h : p.Made rows e) (hk : p.rowKey row = p.key e) : p.Made (rows ++ [row]) (p.add e row) := by
  obtain ⟨r, rest, hf, he⟩ := h
  refine ⟨r, rest ++ [row], ?_, ?_⟩
  · rw [List.filter_append, p.key_add, hf]
    simp [hk]
  · rw [← List.cons_append, List.foldl_append, ← he]
    rfl

theorem made_start (h : p.rowKey row ∉ rows.map p.rowKey) : p.Made (rows ++ [row]) (p.add (p.start row) row) := by
  refine ⟨row, [], ?_, rfl⟩
  have hnone : rows.filter (fun r => p.rowKey r = p.rowKey row) = [] := by
    rw [List.filter_eq_nil_iff]
    intro r hr he
    exact h (of_decide_eq_true he ▸ List.mem_map_of_mem hr)
  rw [List.filter_append, p.key_add, p.key_start, hnone]
  simp

/-- A row that opens a new entry. -/
theorem inv_open (row : ρ) (h : p.Inv rows s) (hk : rows.getLast?.map p.rowKey ≠ some (p.rowKey row)) :
    p.Inv (rows ++ [row]) (out s, some (p.add (p.start row) row)) := by
  have hg : Grouped p.rowKey (rows ++ [row]) ↔ Grouped p.rowKey rows ∧ p.rowKey row ∉ rows.map p.rowKey := by
    rw [grouped_concat]
    exact and_congr_right fun _ => ⟨fun hl hm => hk (hl hm), fun hm hl => absurd hl hm⟩
  refine ⟨?_, ?_, ?_, ?_⟩
  · rw [List.getLast?_concat, Option.map_some, Option.map_some, p.key_add, p.key_start]
  · intro k
    simp only [out, Option.toList_some, List.map_append, List.mem_append, List.map_cons, List.map_nil, p.key_add, p.key_start]
    exact or_congr_left (by simpa [out] using h.keys k)
  · rw [hg, ← h.nodup, ← h.keys]
    simp only [out, Option.toList_some, List.map_append, List.map_cons, List.map_nil, p.key_add, p.key_start,
      List.nodup_append, List.nodup_cons, List.not_mem_nil, not_false_eq_true, List.nodup_nil, and_self, true_and,
      List.mem_singleton, forall_eq]
    exact and_congr_right fun _ => ⟨fun hm hc => hm _ hc rfl, fun hc k hm he => hc (he ▸ hm)⟩
  · intro hgr e he
    obtain ⟨hgr, hnew⟩ := hg.mp hgr
    rcases List.mem_append.mp he with he | he
    · refine made_other (h.made hgr e he) fun hke => hnew ?_
      rw [hke, ← h.keys]
      exact List.mem_map_of_mem he
    · rw [List.mem_singleton.mp he]
      exact made_start hnew

/-- A row that is added to the last entry. -/
theorem inv_add {closed : List ε} {current : ε} (h : p.Inv rows (closed, some current)) (hk : p.key current = p.rowKey row) :
    p.Inv (rows ++ [row]) (closed, some (p.add current row)) := by
  have hlast : rows.getLast?.map p.rowKey = some (p.rowKey row) := by
    rw [← h.last, Option.map_some, hk]
  have hg : Grouped p.rowKey (rows ++ [row]) ↔ Grouped p.rowKey rows := by
    rw [grouped_concat]
    exact and_iff_left fun _ => hlast
  have hkeys : (out (closed, some (p.add current row))).map p.key = (out (closed, some current)).map p.key := by
    simp [out, p.key_add]
  have hmem : p.rowKey row ∈ rows.map p.rowKey := by
    rw [← h.keys, ← hk]
    exact List.mem_map_of_mem (by simp [out])
  refine ⟨?_, ?_, ?_, ?_⟩
  · rw [List.getLast?_concat, Option.map_some, Option.map_some, p.key_add, hk]
  · intro k
    rw [hkeys, h.keys, List.map_append, List.mem_append]
    refine ⟨Or.inl, fun hm => hm.elim id fun hm => ?_⟩
    rw [List.mem_singleton.mp hm]
    exact hmem
  · rw [hkeys, hg, h.nodup]
  · intro hgr e he
    have hn := h.nodup.mpr (hg.mp hgr)
    rcases List.mem_append.mp he with he | he
    · refine made_other (h.made (hg.mp hgr) e (List.mem_append_left _ he)) fun hke => ?_
      rw [out, List.map_append] at hn
      refine (List.nodup_append.mp hn).2.2 _ (List.mem_map_of_mem he) _ (List.mem_map_of_mem (List.mem_singleton_self current)) ?_
      rw [hk, hke]
    · rw [List.mem_singleton.mp he]
      exact made_add (h.made (hg.mp hgr) current (by simp [out])) hk.symm

theorem step_inv (h : p.Inv rows s) (row : ρ) : p.Inv (rows ++ [row]) (p.step s row) := by
  obtain ⟨closed, current⟩ := s
  cases current with
  | none =>
    have hl : rows.getLast?.map p.rowKey = none := h.last.symm
    have hnew := inv_open row h (by rw [hl]; exact nofun)
    rwa [out, Option.toList_none, List.append_nil] at hnew
  | some current =>
    by_cases hk : p.key current = p.rowKey row
    · have hs : p.step (closed, some current) row = (closed, some (p.add current row)) := if_neg (not_not_intro hk)
      rw [hs]
      exact inv_add h hk
    · have hs : p.step (closed, some current) row = (closed ++ [current], some (p.add (p.start row) row)) := if_pos hk
      rw [hs]
      refine inv_open row h ?_
      rw [← h.last]
      exact fun he => hk (Option.some.inj he)

theorem foldl_inv (more : List ρ) (h : p.Inv rows s) : p.Inv (rows ++ more) (more.foldl p.step s) := by
  induction more generalizing rows s with
  | nil => rwa [List.append_nil]
  | cons row more ih =>
    rw [List.append_cons]
    exact ih (step_inv h row)

variable (p) in
theorem run_inv (rows : List ρ) : p.Inv rows (rows.foldl p.step ([], none)) := foldl_inv rows inv_nil

variable (p) in
theorem mem_keys_run (rows : List ρ) (k : κ) : k ∈ (p.run rows).map p.key ↔ k ∈ rows.map p.rowKey := (run_inv p rows).keys k

variable (p) in
theorem nodup_run_iff (rows : List ρ) : ((p.run rows).map p.key).Nodup ↔ Grouped p.rowKey rows := (run_inv p rows).nodup

theorem made_of_mem (hg : Grouped p.rowKey rows) {e : ε} (he : e ∈ p.run rows) :
    p.Made rows e := (run_inv p rows).made hg e he

end Pass

end GenieCloud.Lib.Groups
