/-
  GenieCloud.Lib.OrderBy — `order by` a text column, under a collation.

  A collation is a total preorder: two texts may differ and have one place. Rows whose
  texts have one place stay in the order they came in.

  `orderBy_split`: where one row of a list ends up among the others. Two rows put into one
  list at one place are then told apart by what comes before them (`filterMap_orderBy_iff`):
  what is read off the rows in order does not tell which of the two was there exactly if
  the rows that only one of them comes after read as the two do.
-/

import Mathlib.Data.List.Sort

namespace GenieCloud.Lib

structure Collation where
  le : String → String → Bool
  total : ∀ a b, le a b = true ∨ le b a = true
  trans : ∀ a b c, le a b = true → le b c = true → le a c = true

variable {α β : Type}

def orderBy (C : Collation) (name : α → String) (l : List α) : List α :=
  l.insertionSort fun a b => C.le (name a) (name b) = true

/-! ## Insertion into two lists -/

section Insert

variable {r : α → α → Prop} [DecidableRel r]

theorem orderedInsert_append_left {a : α} {l₁ : List α} (h : ∃ b ∈ l₁, r a b) (l₂ : List α) :
    (l₁ ++ l₂).orderedInsert r a = l₁.orderedInsert r a ++ l₂ := by
  induction l₁ with
  | nil => obtain ⟨b, hb, -⟩ := h; cases hb
  | cons c l₁ ih =>
    rw [List.cons_append, List.orderedInsert_cons, List.orderedInsert_cons]
    by_cases hc : r a c
    · rw [if_pos hc, if_pos hc]; rfl
    · obtain ⟨b, hb, hab⟩ := h
      rcases List.mem_cons.mp hb with rfl | hb
      · exact absurd hab hc
      · rw [if_neg hc, if_neg hc, ih ⟨b, hb, hab⟩]; rfl

theorem orderedInsert_append_right {a : α} {l₁ : List α} (h : ∀ b ∈ l₁, ¬r a b) (l₂ : List α) :
    (l₁ ++ l₂).orderedInsert r a = l₁ ++ l₂.orderedInsert r a := by
  induction l₁ with
  | nil => rfl
  | cons c l₁ ih =>
    rw [List.cons_append, List.orderedInsert_cons, if_neg (h c (List.mem_cons_self ..)),
      ih fun b hb => h b (List.mem_cons_of_mem _ hb)]
    rfl

/-- Into a list in order, after the elements that are below. -/
theorem orderedInsert_split (htrans : ∀ a b c, r a b → r b c → r a c) (x : α) {l : List α} (h : l.Pairwise r) :
    ∃ l₁ l₂, l.orderedInsert r x = l₁ ++ x :: l₂ ∧ l = l₁ ++ l₂ ∧ (∀ y ∈ l₁, ¬r x y) ∧ ∀ y ∈ l₂, r x y := by
  induction l with
  | nil => exact ⟨[], [], rfl, rfl, by simp, by simp⟩
  | cons c l ih =>
    obtain ⟨hc, hl⟩ := List.pairwise_cons.mp h
    rw [List.orderedInsert_cons]
    by_cases hx : r x c
    · refine ⟨[], c :: l, if_pos hx, rfl, by simp, fun y hy => ?_⟩
      rcases List.mem_cons.mp hy with rfl | hy
      · exact hx
      · exact htrans x c y hx (hc y hy)
    · obtain ⟨l₁, l₂, hins, rfl, h1, h2⟩ := ih hl
      refine ⟨c :: l₁, l₂, by rw [if_neg hx, hins]; rfl, rfl, fun y hy => ?_, h2⟩
      rcases List.mem_cons.mp hy with rfl | hy
      · exact hx
      · exact h1 y hy

end Insert

/-! ## One row among others -/

section Split

variable {C : Collation} {name : α → String}

/-- What a row comes after, and what it comes before: rows that were before it in the list
    if they are up to it, rows that were after it if they are below it. -/
structure Split (C : Collation) (name : α → String) (A B : List α) (x : α) (l₁ l₂ : List α) : Prop where
  whole : orderBy C name (A ++ x :: B) = l₁ ++ x :: l₂
  others : orderBy C name (A ++ B) = l₁ ++ l₂
  before : ∀ y ∈ l₁, (y ∈ A ∧ C.le (name y) (name x) = true) ∨ (y ∈ B ∧ C.le (name x) (name y) = false)
  after : ∀ y ∈ l₂, (y ∈ A ∧ C.le (name y) (name x) = false) ∨ (y ∈ B ∧ C.le (name x) (name y) = true)

theorem orderBy_cons (C : Collation) (name : α → String) (a : α) (l : List α) :
    orderBy C name (a :: l) = (orderBy C name l).orderedInsert (fun a b => C.le (name a) (name b) = true) a := rfl

theorem mem_orderBy {l : List α} {a : α} : a ∈ orderBy C name l ↔ a ∈ l := List.mem_insertionSort _

theorem orderBy_pairwise (C : Collation) (name : α → String) (l : List α) :
    (orderBy C name l).Pairwise fun a b => C.le (name a) (name b) = true := by
  have : Std.Total fun a b : α => C.le (name a) (name b) = true := ⟨fun a b => C.total _ _⟩
  have : IsTrans α fun a b => C.le (name a) (name b) = true := ⟨fun a b c => C.trans _ _ _⟩
  exact List.pairwise_insertionSort _ l

theorem orderBy_split (C : Collation) (name : α → String) (A B : List α) (x : α) : ∃ l₁ l₂, Split C name A B x l₁ l₂ := by
  induction A with
  | nil =>
    obtain ⟨l₁, l₂, hins, hl, h1, h2⟩ := orderedInsert_split (fun a b c => C.trans (name a) (name b) (name c)) x
      (orderBy_pairwise C name B)
    refine ⟨l₁, l₂, hins, hl, fun y hy => Or.inr ⟨?_, by simpa using h1 y hy⟩, fun y hy => Or.inr ⟨?_, h2 y hy⟩⟩
    · exact mem_orderBy.mp (hl ▸ List.mem_append_left _ hy)
    · exact mem_orderBy.mp (hl ▸ List.mem_append_right _ hy)
  | cons a A ih =>
    obtain ⟨l₁, l₂, hwhole, hothers, h1, h2⟩ := ih
    have h1' : ∀ y ∈ l₁, (y ∈ a :: A ∧ C.le (name y) (name x) = true) ∨ (y ∈ B ∧ C.le (name x) (name y) = false) :=
      fun y hy => (h1 y hy).imp (fun h => ⟨List.mem_cons_of_mem _ h.1, h.2⟩) id
    have h2' : ∀ y ∈ l₂, (y ∈ a :: A ∧ C.le (name y) (name x) = false) ∨ (y ∈ B ∧ C.le (name x) (name y) = true) :=
      fun y hy => (h2 y hy).imp (fun h => ⟨List.mem_cons_of_mem _ h.1, h.2⟩) id
    -- what is below `x` or comes before it is up to it
    have hup : ∀ y ∈ l₁, C.le (name y) (name x) = true := by
      intro y hy
      rcases h1 y hy with ⟨-, h⟩ | ⟨-, h⟩
      · exact h
      · exact (C.total _ _).resolve_left (by rw [h]; exact Bool.false_ne_true)
    have hdown : ∀ y ∈ l₂, C.le (name x) (name y) = true := by
      intro y hy
      rcases h2 y hy with ⟨-, h⟩ | ⟨-, h⟩
      · exact (C.total _ _).resolve_left (by rw [h]; exact Bool.false_ne_true)
      · exact h
    have hmem : a ∈ a :: A := List.mem_cons_self ..
    by_cases hins : ∃ b ∈ l₁, C.le (name a) (name b) = true
    · -- into the part before `x`
      obtain ⟨b, hb, hab⟩ := id hins
      have hax := C.trans _ _ _ hab (hup b hb)
      refine ⟨l₁.orderedInsert (fun a b => C.le (name a) (name b) = true) a, l₂, ?_, ?_, fun y hy => ?_, h2'⟩
      · rw [List.cons_append, orderBy_cons, hwhole, orderedInsert_append_left hins]
      · rw [List.cons_append, orderBy_cons, hothers, orderedInsert_append_left hins]
      · rcases (List.mem_orderedInsert _).mp hy with rfl | hy
        · exact Or.inl ⟨hmem, hax⟩
        · exact h1' y hy
    · have hnone : ∀ b ∈ l₁, ¬C.le (name a) (name b) = true := fun b hb hab => hins ⟨b, hb, hab⟩
      by_cases hax : C.le (name a) (name x) = true
      · -- right before `x`
        refine ⟨l₁ ++ [a], l₂, ?_, ?_, fun y hy => ?_, h2'⟩
        · rw [List.cons_append, orderBy_cons, hwhole, orderedInsert_append_right hnone, List.orderedInsert_cons, if_pos hax]
          simp
        · rw [List.cons_append, orderBy_cons, hothers, orderedInsert_append_right hnone]
          have : l₂.orderedInsert (fun a b => C.le (name a) (name b) = true) a = a :: l₂ := by
            cases l₂ with
            | nil => rfl
            | cons c l₂ => exact if_pos (C.trans _ _ _ hax (hdown c (List.mem_cons_self ..)))
          rw [this]
          simp
        · rcases List.mem_append.mp hy with hy | hy
          · exact h1' y hy
          · rw [List.mem_singleton.mp hy]
            exact Or.inl ⟨hmem, hax⟩
      · -- into the part after `x`
        refine ⟨l₁, l₂.orderedInsert (fun a b => C.le (name a) (name b) = true) a, ?_, ?_, h1', fun y hy => ?_⟩
        · rw [List.cons_append, orderBy_cons, hwhole, orderedInsert_append_right hnone, List.orderedInsert_cons, if_neg hax]
        · rw [List.cons_append, orderBy_cons, hothers, orderedInsert_append_right hnone]
        · rcases (List.mem_orderedInsert _).mp hy with rfl | hy
          · exact Or.inl ⟨hmem, by simpa using hax⟩
          · exact h2' y hy

end Split

/-! ## Reading rows before and after -/

section FilterMap

variable {C : Collation} {name : α → String} {name' : β → String} {h : α → Option β}

theorem filterMap_orderedInsert (hname : ∀ a b, h a = some b → name' b = name a) (a : α) {l : List α}
    (hl : l.Pairwise fun a b => C.le (name a) (name b) = true) :
    (l.orderedInsert (fun a b => C.le (name a) (name b) = true) a).filterMap h =
      (h a).elim (l.filterMap h) ((l.filterMap h).orderedInsert fun a b => C.le (name' a) (name' b) = true) := by
  induction l with
  | nil =>
    rw [List.orderedInsert_nil, List.filterMap_cons, List.filterMap_nil]
    cases h a <;> rfl
  | cons c l ih =>
    obtain ⟨hc, hl'⟩ := List.pairwise_cons.mp hl
    rw [List.orderedInsert_cons]
    by_cases hac : C.le (name a) (name c) = true
    · rw [if_pos hac, List.filterMap_cons (a := a)]
      cases ha : h a with
      | none => rfl
      | some b =>
        -- what is left of the list is all above
        have hall : ∀ y ∈ (c :: l).filterMap h, C.le (name' b) (name' y) = true := by
          intro y hy
          obtain ⟨x, hx, hxy⟩ := List.mem_filterMap.mp hy
          rw [hname a b ha, hname x y hxy]
          rcases List.mem_cons.mp hx with rfl | hx
          · exact hac
          · exact C.trans _ _ _ hac (hc x hx)
        rw [Option.elim_some]
        cases hl2 : (c :: l).filterMap h with
        | nil => rfl
        | cons y l2 =>
          rw [List.orderedInsert_cons, if_pos (hall y (hl2 ▸ List.mem_cons_self ..))]
    · rw [if_neg hac, List.filterMap_cons (a := c), List.filterMap_cons (a := c), ih hl']
      cases hcc : h c with
      | none => rfl
      | some d =>
        cases ha : h a with
        | none => rfl
        | some b =>
          dsimp only
          rw [Option.elim_some, Option.elim_some, List.orderedInsert_cons, if_neg]
          rw [hname a b ha, hname c d hcc]
          exact hac

/-- Rows that are read with their names may be ordered first. -/
theorem orderBy_filterMap (hname : ∀ a b, h a = some b → name' b = name a) (l : List α) :
    orderBy C name' (l.filterMap h) = (orderBy C name l).filterMap h := by
  induction l with
  | nil => rfl
  | cons a l ih =>
    rw [orderBy_cons, filterMap_orderedInsert hname a (orderBy_pairwise C name l), ← ih, List.filterMap_cons]
    cases h a <;> rfl

theorem length_filterMap_orderBy (l : List α) : ((orderBy C name l).filterMap h).length = (l.filterMap h).length :=
  ((List.perm_insertionSort _ l).filterMap h).length_eq

end FilterMap

/-! ## One of two rows among others -/

section Replace

variable {C : Collation} {name : α → String} {A B : List α} {x x' : α} {g : α → Option β} {f : β}

theorem cons_eq_concat_iff {l : List β} : f :: l = l ++ [f] ↔ ∀ b ∈ l, b = f := by
  induction l with
  | nil => simp
  | cons c l ih =>
    rw [List.cons_append, List.cons_eq_cons, List.forall_mem_cons]
    constructor
    · rintro ⟨rfl, h⟩
      exact ⟨rfl, ih.mp h⟩
    · rintro ⟨rfl, h⟩
      exact ⟨rfl, ih.mpr h⟩

/-- The rows that read otherwise have their places on the same sides of the two. -/
def SamePlace (C : Collation) (name : α → String) (A B : List α) (g : α → Option β) (f : β) (x x' : α) : Prop :=
  (∀ y ∈ A, ∀ b, g y = some b → b ≠ f → C.le (name y) (name x) = C.le (name y) (name x')) ∧
    ∀ y ∈ B, ∀ b, g y = some b → b ≠ f → C.le (name x) (name y) = C.le (name x') (name y)

theorem SamePlace.symm (h : SamePlace C name A B g f x x') : SamePlace C name A B g f x' x :=
  ⟨fun y hy b hb hne => (h.1 y hy b hb hne).symm, fun y hy b hb hne => (h.2 y hy b hb hne).symm⟩

/-- The second row further down. -/
theorem filterMap_down_iff {l₁ m l₂ : List α} (hAB : ∀ y ∈ A, y ∉ B) (hx : g x = some f) (hx' : g x' = some f)
    (hs : Split C name A B x l₁ (m ++ l₂)) (hs' : Split C name A B x' (l₁ ++ m) l₂) :
    (orderBy C name (A ++ x :: B)).filterMap g = (orderBy C name (A ++ x' :: B)).filterMap g ↔ SamePlace C name A B g f x x' := by
  have hseq : (orderBy C name (A ++ x :: B)).filterMap g = (orderBy C name (A ++ x' :: B)).filterMap g ↔
      ∀ b ∈ m.filterMap g, b = f := by
    rw [hs.whole, hs'.whole, ← cons_eq_concat_iff]
    simp only [List.filterMap_append, List.filterMap_cons, hx, hx', List.append_assoc]
    rw [List.append_cancel_left_eq, ← List.cons_append, ← List.singleton_append (l := List.filterMap g l₂), ← List.append_assoc,
      List.append_cancel_right_eq]
  have hT : ∀ y, y ∈ A ∨ y ∈ B → y ∈ l₁ ∨ y ∈ m ∨ y ∈ l₂ := by
    intro y hy
    have : y ∈ orderBy C name (A ++ B) := mem_orderBy.mpr (List.mem_append.mpr hy)
    rw [hs.others] at this
    simpa only [List.mem_append] using this
  rw [hseq]
  constructor
  · intro h
    have hf : ∀ y ∈ m, ∀ b, g y = some b → b = f := fun y hy b hb => h b (List.mem_filterMap.mpr ⟨y, hy, hb⟩)
    refine ⟨fun y hy b hb hne => ?_, fun y hy b hb hne => ?_⟩
    · rcases hT y (Or.inl hy) with hm | hm | hm
      · have h1 := (hs.before y hm).resolve_right fun h => hAB y hy h.1
        have h2 := (hs'.before y (List.mem_append_left _ hm)).resolve_right fun h => hAB y hy h.1
        rw [h1.2, h2.2]
      · exact absurd (hf y hm b hb) hne
      · have h1 := (hs.after y (List.mem_append_right _ hm)).resolve_right fun h => hAB y hy h.1
        have h2 := (hs'.after y hm).resolve_right fun h => hAB y hy h.1
        rw [h1.2, h2.2]
    · rcases hT y (Or.inr hy) with hm | hm | hm
      · have h1 := (hs.before y hm).resolve_left fun h => hAB y h.1 hy
        have h2 := (hs'.before y (List.mem_append_left _ hm)).resolve_left fun h => hAB y h.1 hy
        rw [h1.2, h2.2]
      · exact absurd (hf y hm b hb) hne
      · have h1 := (hs.after y (List.mem_append_right _ hm)).resolve_left fun h => hAB y h.1 hy
        have h2 := (hs'.after y hm).resolve_left fun h => hAB y h.1 hy
        rw [h1.2, h2.2]
  · intro h b hb
    obtain ⟨y, hy, hyb⟩ := List.mem_filterMap.mp hb
    by_contra hne
    rcases hs.after y (List.mem_append_left _ hy) with ⟨hyA, h1⟩ | ⟨hyB, h1⟩
    · have h2 := (hs'.before y (List.mem_append_right _ hy)).resolve_right fun h => hAB y hyA h.1
      rw [h.1 y hyA b hyb hne, h2.2] at h1
      cases h1
    · have h2 := (hs'.before y (List.mem_append_right _ hy)).resolve_left fun h => hAB y h.1 hyB
      rw [h.2 y hyB b hyb hne, h2.2] at h1
      cases h1

theorem filterMap_orderBy_iff (hAB : ∀ y ∈ A, y ∉ B) (hx : g x = some f) (hx' : g x' = some f) :
    (orderBy C name (A ++ x :: B)).filterMap g = (orderBy C name (A ++ x' :: B)).filterMap g ↔ SamePlace C name A B g f x x' := by
  obtain ⟨l₁, l₂, hs⟩ := orderBy_split C name A B x
  obtain ⟨l₁', l₂', hs'⟩ := orderBy_split C name A B x'
  rcases List.append_eq_append_iff.mp (hs.others.symm.trans hs'.others) with ⟨m, rfl, rfl⟩ | ⟨m, rfl, rfl⟩
  · exact filterMap_down_iff hAB hx hx' hs hs'
  · rw [eq_comm, filterMap_down_iff hAB hx' hx hs' hs]
    exact ⟨SamePlace.symm, SamePlace.symm⟩

/-- A row that reads as nothing leaves no trace. -/
theorem filterMap_orderBy_none (hx : g x = none) :
    (orderBy C name (A ++ x :: B)).filterMap g = (orderBy C name (A ++ B)).filterMap g := by
  obtain ⟨l₁, l₂, hs⟩ := orderBy_split C name A B x
  rw [hs.whole, hs.others, List.filterMap_append, List.filterMap_append, List.filterMap_cons_none hx]

end Replace

end GenieCloud.Lib
