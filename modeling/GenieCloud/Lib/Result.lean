/-
  GenieCloud.Lib.Result — peeling apart handlers that can fail: what a bind or a loop
  that succeeded went through, what a caught failure leaves, and what a list of results
  that are all there holds.
-/

import Mathlib.Data.List.Basic
import Mathlib.Data.Option.Basic

namespace GenieCloud.Lib.Result

variable {ε α β : Type}

@[simp] theorem ok_bind (a : α) (f : α → Except ε β) : (Except.ok a >>= f) = f a := rfl

@[simp] theorem error_bind (e : ε) (f : α → Except ε β) : (Except.error e >>= f) = .error e := rfl

theorem bind_ok {x : Except ε α} {f : α → Except ε β} {b : β} (h : (x >>= f) = .ok b) :
    ∃ a, x = .ok a ∧ f a = .ok b := by
  cases x with
  | ok a => exact ⟨a, rfl, h⟩
  | error e => cases h

theorem toOption_eq_some {x : Except ε α} {a : α} : x.toOption = some a ↔ x = .ok a := by
  cases x with
  | ok b => exact ⟨fun h => congrArg Except.ok (Option.some.inj h), fun h => congrArg some (Except.ok.inj h)⟩
  | error e => exact ⟨nofun, nofun⟩

/-- What every step of a loop keeps holds after a loop that did not fail. -/
theorem foldlM_ok {f : β → α → Except ε β} {P : β → Prop} {l : List α} {b c : β} (h0 : P b)
    (hstep : ∀ b x c, x ∈ l → P b → f b x = .ok c → P c) (h : l.foldlM f b = .ok c) : P c := by
  induction l generalizing b with
  | nil =>
    cases h
    exact h0
  | cons x l ih =>
    rw [List.foldlM_cons] at h
    obtain ⟨d, hd, h⟩ := bind_ok h
    exact ih (hstep b x d (List.mem_cons_self ..) h0 hd) (fun b y c hy => hstep b y c (List.mem_cons_of_mem _ hy)) h

/-- A check that throws. -/
theorem throw_else_ok {c : Prop} [Decidable c] {e : ε} {x : Except ε α} {a : α} :
    (if c then throw e else x) = .ok a ↔ ¬c ∧ x = .ok a := by
  by_cases h : c
  · rw [if_pos h]
    exact iff_of_false nofun fun hc => hc.1 h
  · rw [if_neg h, and_iff_right h]

/-- A check, and what comes after it. -/
theorem seq_ok {x : Except ε Unit} {y : Except ε α} {a : α} : (x >>= fun _ => y) = .ok a ↔ x = .ok () ∧ y = .ok a := by
  cases x with
  | ok u => exact (and_iff_right rfl).symm
  | error e => exact iff_of_false nofun fun h => absurd h.1 nofun

/-- A loop of checks. -/
theorem forM_ok {f : α → Except ε Unit} {l : List α} : l.forM f = .ok () ↔ ∀ a ∈ l, f a = .ok () := by
  induction l with
  | nil => exact iff_of_true rfl fun _ h => absurd h List.not_mem_nil
  | cons a l ih =>
    have hcons : (a :: l).forM f = f a >>= fun _ => l.forM f := rfl
    rw [hcons, List.forall_mem_cons, ← ih]
    cases f a with
    | error e => exact iff_of_false nofun fun h => absurd h.1 nofun
    | ok u => exact (and_iff_right rfl).symm

/-- The results of a loop, each in its place. -/
theorem mapM_ok {f : α → Except ε β} {l : List α} {bs : List β} (h : l.mapM f = .ok bs) : l.map f = bs.map .ok := by
  induction l generalizing bs with
  | nil =>
    cases h
    rfl
  | cons a l ih =>
    rw [List.mapM_cons] at h
    obtain ⟨b, hb, h⟩ := bind_ok h
    obtain ⟨cs, hcs, h⟩ := bind_ok h
    cases h
    rw [List.map_cons, List.map_cons, hb, ih hcs]

/-! ## Errors that are not thrown -/

theorem bind_ne {x : Except ε α} {f : α → Except ε β} {e : ε} (hx : x ≠ .error e) (hf : ∀ a, f a ≠ .error e) :
    (x >>= f) ≠ .error e := by
  cases x with
  | ok a => exact hf a
  | error e' => exact fun h => hx (congrArg Except.error (Except.error.inj h))

theorem map_ne {x : Except ε α} {f : α → β} {e : ε} (hx : x ≠ .error e) : x.map f ≠ .error e := by
  cases x with
  | ok a => exact nofun
  | error e' => exact fun h => hx (congrArg Except.error (Except.error.inj h))

theorem mapM_ne {f : α → Except ε β} {e : ε} (hf : ∀ a, f a ≠ .error e) (l : List α) : l.mapM f ≠ .error e := by
  induction l with
  | nil => exact nofun
  | cons a l ih =>
    rw [List.mapM_cons]
    exact bind_ne (hf a) fun _ => bind_ne ih fun _ => nofun

theorem foldlM_ne {f : β → α → Except ε β} {e : ε} (hf : ∀ b a, f b a ≠ .error e) (l : List α) (b : β) :
    l.foldlM f b ≠ .error e := by
  induction l generalizing b with
  | nil => exact nofun
  | cons a l ih =>
    rw [List.foldlM_cons]
    exact bind_ne (hf b a) ih

/-! ## Lists of values that may be missing -/

variable {f : α → Option β} {l : List α} {bs : List β}

theorem mapM_eq_some : l.mapM f = some bs ↔ l.map f = bs.map some := by
  induction l generalizing bs with
  | nil => cases bs <;> simp
  | cons a l ih =>
    rw [List.mapM_cons, List.map_cons]
    constructor
    · intro h
      obtain ⟨b, hb, h⟩ := Option.bind_eq_some_iff.mp h
      obtain ⟨cs, hcs, h⟩ := Option.bind_eq_some_iff.mp h
      obtain rfl := Option.some.inj h
      rw [hb, ih.mp hcs, List.map_cons]
    · intro h
      cases bs with
      | nil => cases h
      | cons b cs =>
        obtain ⟨hb, hcs⟩ := List.cons.inj h
        rw [hb, ih.mpr hcs]
        rfl

theorem mem_of_mapM (h : l.mapM f = some bs) {b : β} : b ∈ bs ↔ ∃ a ∈ l, f a = some b := by
  rw [← List.mem_map, mapM_eq_some.mp h]
  exact (List.mem_map_of_injective (Option.some_injective β)).symm

/-- What each result keeps of its argument, the list of results keeps of the list. -/
theorem map_of_mapM {γ : Type} {g : α → γ} {k : β → γ} (hk : ∀ a b, f a = some b → k b = g a) (h : l.mapM f = some bs) :
    bs.map k = l.map g := by
  have heq := mapM_eq_some.mp h
  clear h
  induction l generalizing bs with
  | nil =>
    obtain rfl := List.map_eq_nil_iff.mp heq.symm
    rfl
  | cons a l ih =>
    cases bs with
    | nil => cases heq
    | cons b bs =>
      obtain ⟨hb, hbs⟩ := List.cons.inj heq
      rw [List.map_cons, List.map_cons, hk a b hb, ih hbs]

theorem mapM_isSome : (∃ bs, l.mapM f = some bs) ↔ ∀ a ∈ l, (f a).isSome = true := by
  constructor
  · intro ⟨bs, h⟩ a ha
    have hmem : f a ∈ bs.map some := mapM_eq_some.mp h ▸ List.mem_map_of_mem ha
    obtain ⟨b, -, hb⟩ := List.mem_map.mp hmem
    rw [← hb, Option.isSome_some]
  · intro h
    induction l with
    | nil => exact ⟨[], rfl⟩
    | cons a l ih =>
      obtain ⟨b, hb⟩ := Option.isSome_iff_exists.mp (h a (List.mem_cons_self ..))
      obtain ⟨cs, hcs⟩ := ih fun x hx => h x (List.mem_cons_of_mem a hx)
      refine ⟨b :: cs, mapM_eq_some.mpr ?_⟩
      rw [List.map_cons, hb, mapM_eq_some.mp hcs, List.map_cons]

end GenieCloud.Lib.Result
