/-
  GenieCloud.Lib.Router — a router as a list of layers that a request goes through in the
  order they were added.

  A layer says which requests it is for, and what it does with one of them in a state that
  the layers share: pass it on (`next`), answer it (`done`), or leave the router (`exit`).
  A router is itself a layer of another one (`mount`).

  - `run_append`: a router in two parts is the second part after the first.
  - `run_of_not_applies`: layers that are for other requests do nothing.
  - `Answers.run`: if every answer of a layer meets a condition, so does the answer of the
    router; `Answers.append`: a part of a router may narrow the states the next part sees.
-/

import Mathlib.Data.List.Basic

namespace GenieCloud.Lib.Router

/-- What a layer does with a request. -/
inductive Outcome (σ ο : Type)
  | next (s : σ)
  | done (o : ο)
  | exit (s : σ)

variable {ρ σ ο : Type}

structure Layer (ρ σ ο : Type) where
  applies : ρ → Bool
  handle : ρ → σ → Outcome σ ο

def run (r : ρ) : List (Layer ρ σ ο) → σ → Outcome σ ο
  | [], s => .next s
  | l :: ls, s =>
    if l.applies r then
      match l.handle r s with
      | .next t => run r ls t
      | .done o => .done o
      | .exit t => .exit t
    else run r ls s

def Outcome.andThen (f : σ → Outcome σ ο) : Outcome σ ο → Outcome σ ο
  | .next s => f s
  | .done o => .done o
  | .exit s => .exit s

/-- A router as a layer: it sees the request as `view` shows it, and leaving it is going on. -/
def mount (applies : ρ → Bool) (view : ρ → ρ) (ls : List (Layer ρ σ ο)) : Layer ρ σ ο where
  applies := applies
  handle r s :=
    match run (view r) ls s with
    | .next t => .next t
    | .done o => .done o
    | .exit t => .next t

theorem run_cons_of_applies {r : ρ} {l : Layer ρ σ ο} (ls : List (Layer ρ σ ο)) {s : σ} (h : l.applies r = true) :
    run r (l :: ls) s = (l.handle r s).andThen (run r ls) := by
  simp only [run, h, if_true]
  cases l.handle r s <;> rfl

theorem run_cons_of_not_applies {r : ρ} {l : Layer ρ σ ο} (ls : List (Layer ρ σ ο)) {s : σ}
    (h : l.applies r = false) : run r (l :: ls) s = run r ls s := by
  simp only [run, h, Bool.false_eq_true, if_false]

theorem run_append (r : ρ) (ls ls' : List (Layer ρ σ ο)) (s : σ) :
    run r (ls ++ ls') s = (run r ls s).andThen (run r ls') := by
  induction ls generalizing s with
  | nil => rfl
  | cons l ls ih =>
    cases h : l.applies r with
    | false => rw [List.cons_append, run_cons_of_not_applies _ h, run_cons_of_not_applies _ h, ih]
    | true =>
      rw [List.cons_append, run_cons_of_applies _ h, run_cons_of_applies _ h]
      cases l.handle r s with
      | next t => exact ih t
      | done o => rfl
      | exit t => rfl

theorem run_of_not_applies {r : ρ} {ls : List (Layer ρ σ ο)} (h : ∀ l ∈ ls, l.applies r = false) (s : σ) :
    run r ls s = .next s := by
  induction ls with
  | nil => rfl
  | cons l ls ih =>
    rw [run_cons_of_not_applies _ (h l (List.mem_cons_self ..))]
    exact ih fun l' hl' => h l' (List.mem_cons_of_mem _ hl')

/-! ## What a router answers -/

/-- From a state where `I` holds, every answer meets `Q`, and the request is passed on in a
    state where `I'` holds. -/
def Answers (I I' : σ → Prop) (Q : ο → Prop) (f : σ → Outcome σ ο) : Prop :=
  ∀ s, I s → (∀ o, f s = .done o → Q o) ∧ ∀ t, f s = .next t → I' t

variable {r : ρ} {I I' I'' : σ → Prop} {Q : ο → Prop}

theorem Answers.append {ls ls' : List (Layer ρ σ ο)} (h : Answers I I' Q (run r ls))
    (h' : Answers I' I'' Q (run r ls')) : Answers I I'' Q (run r (ls ++ ls')) := by
  intro s hs
  obtain ⟨hdone, hnext⟩ := h s hs
  rw [run_append]
  cases hr : run r ls s with
  | next t => exact h' t (hnext t hr)
  | done o =>
    refine ⟨fun o' ho => ?_, fun t ht => by cases ht⟩
    cases ho
    exact hdone o hr
  | exit t => exact ⟨fun o ho => (by cases ho), fun t ht => by cases ht⟩

/-- A layer that is for the request. -/
theorem Answers.gate {l : Layer ρ σ ο} (ha : l.applies r = true) (h : Answers I I' Q (l.handle r)) :
    Answers I I' Q (run r [l]) := by
  intro s hs
  obtain ⟨hdone, hnext⟩ := h s hs
  rw [run_cons_of_applies _ ha]
  cases hr : l.handle r s with
  | next t =>
    refine ⟨fun o ho => (by cases ho), fun u hu => ?_⟩
    cases hu
    exact hnext t hr
  | done o =>
    refine ⟨fun o' ho => ?_, fun t ht => by cases ht⟩
    cases ho
    exact hdone o hr
  | exit t => exact ⟨fun o ho => (by cases ho), fun t ht => by cases ht⟩

theorem Answers.layer {l : Layer ρ σ ο} (hI : ∀ s, I s → I' s)
    (h : l.applies r = true → Answers I I' Q (l.handle r)) : Answers I I' Q (run r [l]) := by
  cases ha : l.applies r with
  | true => exact .gate ha (h ha)
  | false =>
    intro s hs
    rw [run_cons_of_not_applies _ ha]
    refine ⟨fun o ho => (by cases ho), fun t ht => ?_⟩
    cases ht
    exact hI s hs

/-- If every layer that is for the request does, the router does. -/
theorem Answers.run {ls : List (Layer ρ σ ο)}
    (h : ∀ l ∈ ls, l.applies r = true → Answers I I Q (l.handle r)) : Answers I I Q (Router.run r ls) := by
  induction ls with
  | nil =>
    intro s hs
    refine ⟨fun o ho => (by cases ho), fun t ht => ?_⟩
    cases ht
    exact hs
  | cons l ls ih =>
    have hl : Answers I I Q (Router.run r [l]) :=
      .layer (fun _ hs => hs) (h l (List.mem_cons_self ..))
    exact hl.append (ih fun l' hl' => h l' (List.mem_cons_of_mem _ hl'))

/-- A mounted router answers what it does on its own. -/
theorem Answers.mount {ls : List (Layer ρ σ ο)} (applies : ρ → Bool) (view : ρ → ρ)
    (h : Answers I I' Q (Router.run (view r) ls)) :
    Answers I (fun _ => True) Q ((Router.mount applies view ls).handle r) := by
  intro s hs
  refine ⟨fun o ho => ?_, fun _ _ => trivial⟩
  simp only [Router.mount] at ho
  split at ho
  · cases ho
  · next o' hr =>
    cases ho
    exact (h s hs).1 o hr
  · cases ho

end GenieCloud.Lib.Router
