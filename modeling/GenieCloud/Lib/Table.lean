/-
  GenieCloud.Lib.Table — an SQL table with an auto-increment primary key.

  The rows stand in the order of their ids, each below the next id to be handed out;
  the table carries both facts. `insert` appends a row under the next id, `update`
  rewrites the rows that meet a condition and leaves every id alone, `delete` drops rows
  and never hands their ids out again. `first?` is `order by id asc limit 1`.

  `get?` reads a row by id, and every operation is said in its terms: `get?_insert`,
  `get?_update`, `get?_delete`. `mem_rows` goes back and forth between the two views.
  `Rewritten R` relates a table to one with its rows rewritten in place; `Unique key` says
  that a key names one row at most.
-/

import Mathlib.Data.List.Sort

namespace GenieCloud.Lib

structure Table (ρ : Type) where
  rows : List (Nat × ρ)
  next : Nat
  sorted : rows.Pairwise fun a b => a.1 < b.1
  below : ∀ r ∈ rows, r.1 < next

variable {ρ : Type}

namespace Table

def empty : Table ρ := ⟨[], 1, List.Pairwise.nil, nofun⟩

def get? (t : Table ρ) (i : Nat) : Option ρ := (t.rows.find? (·.1 = i)).map (·.2)

def select (t : Table ρ) (p : Nat → ρ → Bool) : List (Nat × ρ) := t.rows.filter fun r => p r.1 r.2

def first? (t : Table ρ) (p : Nat → ρ → Bool) : Option (Nat × ρ) := t.rows.find? fun r => p r.1 r.2

def insert (t : Table ρ) (r : ρ) : Table ρ where
  rows := t.rows ++ [(t.next, r)]
  next := t.next + 1
  sorted := by
    refine List.pairwise_append.mpr ⟨t.sorted, List.pairwise_singleton .., fun a ha b hb => ?_⟩
    rw [List.mem_singleton.mp hb]
    exact t.below a ha
  below := by
    intro a ha
    rcases List.mem_append.mp ha with ha | ha
    · have := t.below a ha; omega
    · rw [List.mem_singleton.mp ha]; exact Nat.lt_succ_self _

def update (t : Table ρ) (p : Nat → ρ → Bool) (f : ρ → ρ) : Table ρ where
  rows := t.rows.map fun r => if p r.1 r.2 then (r.1, f r.2) else r
  next := t.next
  sorted := by
    refine List.pairwise_map.mpr (t.sorted.imp fun {a b} hab => ?_)
    split <;> split <;> exact hab
  below := by
    intro a ha
    obtain ⟨r, hr, rfl⟩ := List.mem_map.mp ha
    split <;> exact t.below r hr

def delete (t : Table ρ) (p : Nat → ρ → Bool) : Table ρ where
  rows := t.rows.filter fun r => !p r.1 r.2
  next := t.next
  sorted := t.sorted.filter _
  below := fun a ha => t.below a (List.mem_filter.mp ha).1

/-! ## Reading a row by its id -/

theorem mem_rows {t : Table ρ} {i : Nat} {r : ρ} : (i, r) ∈ t.rows ↔ t.get? i = some r := by
  unfold get?
  have hs := t.sorted
  generalize t.rows = l at hs ⊢
  induction l with
  | nil => simp
  | cons a l ih =>
    obtain ⟨ha, hl⟩ := List.pairwise_cons.mp hs
    rw [List.mem_cons, List.find?_cons]
    by_cases hi : a.1 = i
    · simp only [hi, decide_true, Option.map_some, Option.some.injEq]
      constructor
      · rintro (rfl | hm)
        · rfl
        · have := ha _ hm; simp only [hi] at this; omega
      · intro h; subst h; subst hi; exact Or.inl rfl
    · simp only [hi, decide_false, ← ih hl]
      constructor
      · rintro (rfl | hm)
        · exact absurd rfl hi
        · exact hm
      · exact Or.inr

theorem lt_next {t : Table ρ} {i : Nat} {r : ρ} (h : t.get? i = some r) : i < t.next :=
  t.below _ (mem_rows.mpr h)

theorem get?_next (t : Table ρ) : t.get? t.next = none := by
  cases h : t.get? t.next with
  | none => rfl
  | some r => exact absurd (lt_next h) (Nat.lt_irrefl _)

theorem mem_select {t : Table ρ} {p : Nat → ρ → Bool} {i : Nat} {r : ρ} :
    (i, r) ∈ t.select p ↔ t.get? i = some r ∧ p i r = true := by
  rw [select, List.mem_filter, mem_rows]

/-- Two conditions that select the same rows. -/
theorem select_eq_select_iff {t : Table ρ} {p q : Nat → ρ → Bool} :
    t.select p = t.select q ↔ ∀ i r, t.get? i = some r → (p i r = true ↔ q i r = true) := by
  constructor
  · intro h i r hr
    have hmem : (i, r) ∈ t.select p ↔ (i, r) ∈ t.select q := by rw [h]
    rw [mem_select, mem_select] at hmem
    exact (and_iff_right hr).symm.trans (hmem.trans (and_iff_right hr))
  · intro h
    exact List.filter_congr fun x hx => Bool.eq_iff_iff.mpr (h x.1 x.2 (mem_rows.mp hx))

theorem first?_eq_some {t : Table ρ} {p : Nat → ρ → Bool} {i : Nat} {r : ρ} (h : t.first? p = some (i, r)) :
    t.get? i = some r ∧ p i r = true := by
  have hp := List.find?_some h
  exact ⟨mem_rows.mp (List.mem_of_find?_eq_some h), hp⟩

theorem head?_select {t : Table ρ} {p : Nat → ρ → Bool} : (t.select p).head? = t.first? p := List.head?_filter

/-- A first row that meets another condition as well. -/
theorem first?_and {t : Table ρ} {p q : Nat → ρ → Bool} {i : Nat} {r : ρ} (h : t.first? p = some (i, r)) (hq : q i r = true) :
    t.first? (fun i r => p i r && q i r) = some (i, r) := by
  obtain ⟨hp, before, after, hrows, hbefore⟩ := List.find?_eq_some_iff_append.mp h
  refine List.find?_eq_some_iff_append.mpr ⟨by simpa [hq] using hp, before, after, hrows, fun x hx => ?_⟩
  have := hbefore x hx
  simp only [Bool.not_eq_true'] at this ⊢
  rw [this, Bool.false_and]

theorem first?_eq_none {t : Table ρ} {p : Nat → ρ → Bool} :
    t.first? p = none ↔ ∀ i r, t.get? i = some r → p i r = false := by
  rw [first?, List.find?_eq_none]
  constructor
  · intro h i r hr
    simpa using h (i, r) (mem_rows.mpr hr)
  · intro h x hx
    simpa using h x.1 x.2 (mem_rows.mp hx)

@[simp] theorem get?_empty (i : Nat) : (empty : Table ρ).get? i = none := rfl

@[simp] theorem next_update (t : Table ρ) (p : Nat → ρ → Bool) (f : ρ → ρ) : (t.update p f).next = t.next := rfl

@[simp] theorem next_insert (t : Table ρ) (r : ρ) : (t.insert r).next = t.next + 1 := rfl

theorem get?_update (t : Table ρ) (p : Nat → ρ → Bool) (f : ρ → ρ) (i : Nat) :
    (t.update p f).get? i = (t.get? i).map fun r => if p i r then f r else r := by
  show Option.map _ (List.find? _ (t.rows.map _)) = _
  unfold get?
  generalize t.rows = l
  induction l with
  | nil => rfl
  | cons a l ih =>
    rw [List.map_cons, List.find?_cons, List.find?_cons]
    have hfst : (if p a.1 a.2 = true then (a.1, f a.2) else a).1 = a.1 := by split <;> rfl
    rw [hfst]
    by_cases hi : a.1 = i
    · subst hi
      simp only [decide_true, Option.map_some]
      split <;> rfl
    · simp only [hi, decide_false]
      exact ih

theorem get?_insert (t : Table ρ) (r : ρ) (i : Nat) :
    (t.insert r).get? i = if i = t.next then some r else t.get? i := by
  split
  · rename_i hi
    subst hi
    exact mem_rows.mp (List.mem_append_right _ (List.mem_singleton.mpr rfl))
  · rename_i hi
    unfold get? insert
    rw [List.find?_append]
    have : List.find? (fun x => decide (x.1 = i)) [(t.next, r)] = none := by
      simp [Ne.symm hi]
    rw [this, Option.or_none]

/-- A rewriting that changes no row it applies to. -/
theorem update_eq_self {t : Table ρ} {p : Nat → ρ → Bool} {f : ρ → ρ}
    (h : ∀ i r, t.get? i = some r → p i r = true → f r = r) :
    t.update p f = t := by
  have : t.rows.map (fun r => if p r.1 r.2 then (r.1, f r.2) else r) = t.rows := by
    rw [List.map_congr_left (g := id), List.map_id]
    intro r hr
    split
    · rename_i hp; rw [h r.1 r.2 (mem_rows.mp hr) hp]; rfl
    · rfl
  cases t
  simp only [update, mk.injEq, and_true]
  exact this

/-- A rewriting that the condition does not see. -/
theorem first?_update {t : Table ρ} {p q : Nat → ρ → Bool} {f : ρ → ρ} (h : ∀ i r, q i r = true → p i (f r) = p i r) :
    (t.update q f).first? p = (t.first? p).map fun x => if q x.1 x.2 then (x.1, f x.2) else x := by
  show List.find? _ (t.rows.map _) = Option.map _ (List.find? _ t.rows)
  generalize t.rows = l
  induction l with
  | nil => rfl
  | cons a l ih =>
    have hp : p (if q a.1 a.2 = true then (a.1, f a.2) else a).1 (if q a.1 a.2 = true then (a.1, f a.2) else a).2 = p a.1 a.2 := by
      split
      · rename_i hq; exact h a.1 a.2 hq
      · rfl
    rw [List.map_cons, List.find?_cons, List.find?_cons, hp]
    cases p a.1 a.2 with
    | true => rfl
    | false => exact ih

theorem first?_insert (t : Table ρ) (p : Nat → ρ → Bool) (r : ρ) :
    (t.insert r).first? p = (t.first? p).or (if p t.next r then some (t.next, r) else none) := by
  show List.find? _ (t.rows ++ [(t.next, r)]) = _
  rw [List.find?_append, List.find?_singleton]
  rfl

theorem get?_delete (t : Table ρ) (p : Nat → ρ → Bool) (i : Nat) :
    (t.delete p).get? i = (t.get? i).filter fun r => !p i r := by
  apply Option.ext
  intro r
  rw [← mem_rows, delete, List.mem_filter, mem_rows, Option.filter_eq_some_iff]

theorem delete_eq_self {t : Table ρ} {p : Nat → ρ → Bool} (h : ∀ i r, t.get? i = some r → p i r = false) :
    t.delete p = t := by
  have : t.rows.filter (fun r => !p r.1 r.2) = t.rows := by
    apply List.filter_eq_self.mpr
    intro r hr
    rw [h r.1 r.2 (mem_rows.mp hr)]
    rfl
  cases t
  simp only [delete, mk.injEq, and_true]
  exact this

theorem nodup_select (t : Table ρ) (p : Nat → ρ → Bool) : (t.select p).Nodup := by
  have hrows : t.rows.Nodup := t.sorted.imp fun hab he => absurd (congrArg Prod.fst he) (Nat.ne_of_lt hab)
  exact hrows.filter _

theorem get?_insertAll_of_lt (rows : List ρ) {t : Table ρ} {i : Nat} (hi : i < t.next) :
    (rows.foldl insert t).get? i = t.get? i := by
  induction rows generalizing t with
  | nil => rfl
  | cons r rows ih =>
    rw [List.foldl_cons, ih (Nat.lt_succ_of_lt hi), get?_insert, if_neg (Nat.ne_of_lt hi)]

theorem get?_insertAll {rows : List ρ} {t : Table ρ} {i : Nat} {r : ρ} (h : (rows.foldl insert t).get? i = some r) :
    t.get? i = some r ∨ r ∈ rows := by
  induction rows generalizing t with
  | nil => exact Or.inl h
  | cons a rows ih =>
    rcases ih h with h | h
    · rw [get?_insert] at h
      split at h
      · obtain rfl := Option.some.inj h
        exact Or.inr (List.mem_cons_self ..)
      · exact Or.inl h
    · exact Or.inr (List.mem_cons_of_mem _ h)

theorem exists_get?_insertAll {rows : List ρ} {t : Table ρ} {r : ρ} (hr : r ∈ rows) :
    ∃ i, t.next ≤ i ∧ (rows.foldl insert t).get? i = some r := by
  induction rows generalizing t with
  | nil => cases hr
  | cons a rows ih =>
    rcases List.mem_cons.mp hr with rfl | hr
    · refine ⟨t.next, Nat.le_refl _, ?_⟩
      rw [List.foldl_cons, get?_insertAll_of_lt rows (Nat.lt_succ_self _), get?_insert, if_pos rfl]
    · obtain ⟨i, hi, hget⟩ := ih (t := t.insert a) hr
      exact ⟨i, Nat.le_of_succ_le hi, hget⟩

theorem select_insertAll (rows : List ρ) (t : Table ρ) (q : ρ → Bool) :
    ((rows.foldl insert t).select fun _ r => q r).map (·.2) =
      ((t.select fun _ r => q r).map (·.2)) ++ rows.filter q := by
  induction rows generalizing t with
  | nil => exact (List.append_nil _).symm
  | cons r rows ih =>
    have hinsert : ((t.insert r).select fun _ r => q r).map (·.2) =
        ((t.select fun _ r => q r).map (·.2)) ++ [r].filter q := by
      simp only [select, insert, List.filter_append, List.map_append, List.filter_cons, List.filter_nil]
      split <;> rfl
    rw [List.foldl_cons, ih, hinsert, List.append_assoc, ← List.filter_append]
    rfl

/-- What is read of the rows that are selected is told id by id, if it tells the id. -/
theorem select_map_eq_iff {β : Type} {t t' : Table ρ} {p q : Nat → ρ → Bool} {f : Nat × ρ → β} (id : β → Nat)
    (hid : ∀ x, id (f x) = x.1) : (t.select p).map f = (t'.select q).map f ↔
      ∀ i b, (∃ r, t.get? i = some r ∧ p i r = true ∧ f (i, r) = b) ↔ ∃ r, t'.get? i = some r ∧ q i r = true ∧ f (i, r) = b := by
  have hmem : ∀ (t : Table ρ) (p : Nat → ρ → Bool) b, b ∈ (t.select p).map f ↔
      ∃ r, t.get? (id b) = some r ∧ p (id b) r = true ∧ f (id b, r) = b := by
    intro t p b
    rw [List.mem_map]
    constructor
    · rintro ⟨⟨i, r⟩, hx, rfl⟩
      obtain ⟨hr, hp⟩ := mem_select.mp hx
      rw [hid]
      exact ⟨r, hr, hp, rfl⟩
    · rintro ⟨r, hr, hp, hb⟩
      exact ⟨(id b, r), mem_select.mpr ⟨hr, hp⟩, hb⟩
  constructor
  · intro h i b
    by_cases hb : id b = i
    · subst hb
      rw [← hmem, ← hmem, h]
    · refine iff_of_false ?_ ?_
      · rintro ⟨r, -, -, rfl⟩
        exact hb (hid _)
      · rintro ⟨r, -, -, rfl⟩
        exact hb (hid _)
  · intro h
    have hs : ∀ (t : Table ρ) (p : Nat → ρ → Bool), ((t.select p).map f).Pairwise fun a b => id a < id b := by
      intro t p
      refine List.pairwise_map.mpr ((t.sorted.filter _).imp fun {a b} hab => ?_)
      rw [hid, hid]
      exact hab
    have : Std.Irrefl fun a b : β => id a < id b := ⟨fun a => Nat.lt_irrefl (id a)⟩
    have : Std.Antisymm fun a b : β => id a < id b := ⟨fun a b h h' => absurd h' (Nat.lt_asymm h)⟩
    refine (hs t p).eq_of_mem_iff (hs t' q) fun b => ?_
    rw [hmem, hmem]
    exact h (id b) b

/-- Two tables with the same rows of a kind. -/
theorem select_congr {t t' : Table ρ} {p : Nat → ρ → Bool}
    (h : ∀ i r, p i r = true → (t.get? i = some r ↔ t'.get? i = some r)) :
    t.select p = t'.select p := by
  have hmap : (t.select p).map (fun x => x) = (t'.select p).map fun x => x := by
    refine (select_map_eq_iff Prod.fst fun _ => rfl).mpr ?_
    intro i b
    refine exists_congr fun r => ?_
    constructor
    · intro ⟨hr, hp, hb⟩
      exact ⟨(h i r hp).mp hr, hp, hb⟩
    · intro ⟨hr, hp, hb⟩
      exact ⟨(h i r hp).mpr hr, hp, hb⟩
  rwa [List.map_id', List.map_id'] at hmap

theorem ext_get? {t t' : Table ρ} (hnext : t.next = t'.next) (h : ∀ i, t.get? i = t'.get? i) : t = t' := by
  have hrows : t.select (fun _ _ => true) = t'.select fun _ _ => true := select_congr fun i r _ => by rw [h i]
  rw [select, select, List.filter_true, List.filter_true] at hrows
  cases t
  cases t'
  simp only [mk.injEq]
  exact ⟨hrows, hnext⟩

/-- One row, those before it and those after it. -/
theorem rows_split {t : Table ρ} {i : Nat} {r : ρ} (h : t.get? i = some r) :
    ∃ A B, t.rows = A ++ (i, r) :: B ∧ (∀ x ∈ A, x.1 < i) ∧ (∀ x ∈ B, i < x.1) ∧
      ∀ r', (t.update (fun k _ => k = i) fun _ => r').rows = A ++ (i, r') :: B := by
  obtain ⟨A, B, hAB⟩ := List.append_of_mem (mem_rows.mpr h)
  have hs := t.sorted
  rw [hAB] at hs
  obtain ⟨-, hB, hA⟩ := List.pairwise_append.mp hs
  have hlt : ∀ x ∈ A, x.1 < i := fun x hx => hA x hx (i, r) (List.mem_cons_self ..)
  have hgt : ∀ x ∈ B, i < x.1 := (List.pairwise_cons.mp hB).1
  refine ⟨A, B, hAB, hlt, hgt, fun r' => ?_⟩
  show t.rows.map _ = _
  have hkeep : ∀ l : List (Nat × ρ), (∀ x ∈ l, x.1 ≠ i) →
      l.map (fun x => if decide (x.1 = i) = true then (x.1, r') else x) = l := by
    intro l hl
    rw [List.map_congr_left (g := id), List.map_id]
    intro x hx
    rw [if_neg (by simpa using hl x hx)]
    rfl
  rw [hAB, List.map_append, List.map_cons, if_pos (decide_eq_true rfl), hkeep A fun x hx => Nat.ne_of_lt (hlt x hx),
    hkeep B fun x hx => Nat.ne_of_gt (hgt x hx)]

theorem select_map {β : Type} (t : Table ρ) (p : Nat → ρ → Bool) (f : Nat × ρ → β) :
    (t.select p).map f = t.rows.filterMap fun x => if p x.1 x.2 then some (f x) else none := by
  show (t.rows.filter _).map f = _
  generalize t.rows = l
  induction l with
  | nil => rfl
  | cons x l ih =>
    rw [List.filter_cons, List.filterMap_cons]
    cases p x.1 x.2 with
    | false => exact ih
    | true => exact congrArg (f x :: ·) ih

/-- Lists that differ in one element at most are told apart by what that is read as. -/
theorem filterMap_replace_iff {α β : Type} {A B : List α} {a a' : α} {f f' : α → Option β} (hA : ∀ x ∈ A, f' x = f x)
    (hB : ∀ x ∈ B, f' x = f x) : (A ++ a' :: B).filterMap f' = (A ++ a :: B).filterMap f ↔ f' a' = f a := by
  have hcons : ∀ (g : α → Option β) (x : α) (l : List α), (x :: l).filterMap g = (g x).toList ++ l.filterMap g := by
    intro g x l
    rw [List.filterMap_cons]
    cases g x <;> rfl
  rw [List.filterMap_append, List.filterMap_append, List.filterMap_congr hA, hcons, hcons, List.filterMap_congr hB,
    List.append_cancel_left_eq, List.append_cancel_right_eq]
  cases f' a' <;> cases f a <;> simp

/-! ## Unique keys -/

/-- No two rows have the same key. -/
def Unique {κ : Type} (key : ρ → κ) (t : Table ρ) : Prop :=
  ∀ i j r r', t.get? i = some r → t.get? j = some r' → key r = key r' → i = j

section Unique

variable {κ : Type} {key : ρ → κ} {t : Table ρ}

theorem Unique.insert (h : t.Unique key) {r : ρ} (hr : ∀ i r', t.get? i = some r' → key r' ≠ key r) :
    (t.insert r).Unique key := by
  intro i j a b hi hj hk
  rw [get?_insert] at hi hj
  split at hi <;> split at hj
  · rename_i hi' hj'; rw [hi', hj']
  · cases hi; exact absurd hk.symm (hr j b hj)
  · cases hj; exact absurd hk (hr i a hi)
  · exact h i j a b hi hj hk

theorem Unique.nodup_select (h : t.Unique key) (p : Nat → ρ → Bool) : ((t.select p).map fun x => key x.2).Nodup := by
  rw [List.Nodup, List.pairwise_map]
  refine (t.sorted.filter _).imp_of_mem ?_
  intro a b ha hb hlt he
  have := h _ _ _ _ (mem_select.mp ha).1 (mem_select.mp hb).1 he
  omega

theorem Unique.update (h : t.Unique key) {p : Nat → ρ → Bool} {f : ρ → ρ}
    (hf : ∀ i r, t.get? i = some r → p i r = true → key (f r) = key r) : (t.update p f).Unique key := by
  intro i j a b hi hj hk
  rw [get?_update] at hi hj
  obtain ⟨a', ha, rfl⟩ := Option.map_eq_some_iff.mp hi
  obtain ⟨b', hb, rfl⟩ := Option.map_eq_some_iff.mp hj
  refine h i j a' b' ha hb ?_
  have ha' : key (if p i a' then f a' else a') = key a' := by
    split
    · rename_i hp; exact hf i a' ha hp
    · rfl
  have hb' : key (if p j b' then f b' else b') = key b' := by
    split
    · rename_i hp; exact hf j b' hb hp
    · rfl
  rw [← ha', ← hb', hk]

/-- The row with a key is the first one with it. -/
theorem Unique.first? (h : t.Unique key) {i : Nat} {r : ρ} (hr : t.get? i = some r) {p : Nat → ρ → Bool}
    (hp : ∀ j r', p j r' = true ↔ key r' = key r) : t.first? p = some (i, r) := by
  cases hf : t.first? p with
  | none =>
    have := first?_eq_none.mp hf i r hr
    rw [(hp i r).mpr rfl] at this
    cases this
  | some x =>
    obtain ⟨j, r'⟩ := x
    obtain ⟨hr', hk⟩ := first?_eq_some hf
    obtain rfl := h j i r' r hr' hr ((hp j r').mp hk)
    rw [hr] at hr'
    cases hr'
    rfl

end Unique

/-! ## Rewriting rows -/

/-- `t'` is `t` with each row rewritten by `R`; no row came or went. -/
structure Rewritten (R : Nat → ρ → ρ → Prop) (t t' : Table ρ) : Prop where
  next : t'.next = t.next
  none : ∀ i, t.get? i = none → t'.get? i = none
  some : ∀ i r, t.get? i = some r → ∃ r', t'.get? i = some r' ∧ R i r r'

variable {R S T : Nat → ρ → ρ → Prop} {t t' t'' : Table ρ}

theorem Rewritten.refl (h : ∀ i r, R i r r) (t : Table ρ) : Rewritten R t t :=
  ⟨rfl, fun _ hi => hi, fun i r hr => ⟨r, hr, h i r⟩⟩

theorem Rewritten.mono (h : ∀ i r r', R i r r' → S i r r') (ht : Rewritten R t t') : Rewritten S t t' :=
  ⟨ht.next, ht.none, fun i r hr => let ⟨r', hr', hR⟩ := ht.some i r hr; ⟨r', hr', h i r r' hR⟩⟩

theorem Rewritten.trans (h : ∀ i r r' r'', R i r r' → S i r' r'' → T i r r'') (ht : Rewritten R t t')
    (ht' : Rewritten S t' t'') : Rewritten T t t'' := by
  refine ⟨ht'.next.trans ht.next, fun i hi => ht'.none i (ht.none i hi), fun i r hr => ?_⟩
  obtain ⟨r', hr', hR⟩ := ht.some i r hr
  obtain ⟨r'', hr'', hS⟩ := ht'.some i r' hr'
  exact ⟨r'', hr'', h i r r' r'' hR hS⟩

theorem Rewritten.back (ht : Rewritten R t t') {i : Nat} {r' : ρ} (h : t'.get? i = Option.some r') :
    ∃ r, t.get? i = Option.some r ∧ R i r r' := by
  cases hr : t.get? i with
  | none => rw [ht.none i hr] at h; cases h
  | some r =>
    obtain ⟨q, hq, hR⟩ := ht.some i r hr
    rw [hq] at h
    cases h
    exact ⟨r, rfl, hR⟩

theorem Rewritten.update {p : Nat → ρ → Bool} {f : ρ → ρ} (hf : ∀ i r, p i r = true → R i r (f r))
    (hr : ∀ i r, p i r = false → R i r r) (t : Table ρ) : Rewritten R t (t.update p f) := by
  refine ⟨rfl, fun i hi => by rw [get?_update, hi]; rfl, fun i r hi => ?_⟩
  refine ⟨if p i r then f r else r, by rw [get?_update, hi]; rfl, ?_⟩
  cases hp : p i r with
  | true => exact hf i r hp
  | false => exact hr i r hp

end Table

end GenieCloud.Lib
