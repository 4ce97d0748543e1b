/-
  GenieCloud.Lib.Runs — runs of a system of guarded events.

  A system says where it can start and what each event does to a state (`none`: the
  event cannot happen there). `Reach S ok` holds the states reached by runs whose
  every step meets `ok`, a condition on the event and the state before it;
  `Path S ok` relates the two ends of such a run. `any` puts no condition.

  - `Reach.inv`: what holds at the start and is kept by every step meeting `ok` holds
    in every state reached.
  - `Path.rel`: a reflexive and transitive relation that every step meeting `ok`
    respects relates the two ends of a run.
  - `run_path`: a list of events that all happen is a run; `run_concat` takes its last event off.
-/

import Mathlib.Logic.Function.Basic

namespace GenieCloud.Lib.Runs

structure System (σ ε : Type) where
  init : σ → Prop
  step : σ → ε → Option σ

variable {σ ε : Type} (S : System σ ε)

def any (_ : σ) (_ : ε) : Prop := True

inductive Reach (ok : σ → ε → Prop) : σ → Prop
  | init {s : σ} : S.init s → Reach ok s
  | step {s t : σ} (e : ε) : Reach ok s → ok s e → S.step s e = some t → Reach ok t

inductive Path (ok : σ → ε → Prop) (s : σ) : σ → Prop
  | refl : Path ok s s
  | step {t u : σ} (e : ε) : Path ok s t → ok t e → S.step t e = some u → Path ok s u

/-- The state after a list of events, `none` if one of them cannot happen. -/
def run (s : σ) (es : List ε) : Option σ := es.foldlM S.step s

variable {S} {ok ok' : σ → ε → Prop}

theorem Reach.inv {P : σ → Prop} (h0 : ∀ s, S.init s → P s)
    (hstep : ∀ s e t, P s → ok s e → S.step s e = some t → P t) {s : σ} (h : Reach S ok s) : P s := by
  induction h with
  | init hi => exact h0 _ hi
  | step e _ ho hs ih => exact hstep _ e _ ih ho hs

theorem Reach.mono (hle : ∀ s e, ok s e → ok' s e) {s : σ} (h : Reach S ok s) : Reach S ok' s := by
  induction h with
  | init hi => exact .init hi
  | step e _ ho hs ih => exact .step e ih (hle _ e ho) hs

theorem Reach.path {s t : σ} (h : Reach S ok s) (hp : Path S ok s t) : Reach S ok t := by
  induction hp with
  | refl => exact h
  | step e _ ho hs ih => exact .step e ih ho hs

theorem Path.rel {R : σ → σ → Prop} (hrefl : ∀ s, R s s) (htrans : ∀ s t u, R s t → R t u → R s u)
    (hstep : ∀ s e t, ok s e → S.step s e = some t → R s t) {s t : σ} (h : Path S ok s t) : R s t := by
  induction h with
  | refl => exact hrefl _
  | step e _ ho hs ih => exact htrans _ _ _ ih (hstep _ e _ ho hs)

theorem Path.head {s t u : σ} (e : ε) (ho : ok s e) (hs : S.step s e = some t) (h : Path S ok t u) :
    Path S ok s u := by
  induction h with
  | refl => exact .step e .refl ho hs
  | step e' _ ho' hs' ih => exact .step e' ih ho' hs'

theorem run_path {s t : σ} {es : List ε} (h : run S s es = some t) : Path S any s t := by
  induction es generalizing s with
  | nil => cases h; exact .refl
  | cons e es ih =>
    simp only [run, List.foldlM_cons, Option.bind_eq_bind, Option.bind_eq_some_iff] at h
    obtain ⟨u, hu, h⟩ := h
    exact Path.head e trivial hu (ih h)

theorem run_concat {s t : σ} {es : List ε} {e : ε} :
    run S s (es ++ [e]) = some t ↔ ∃ u, run S s es = some u ∧ S.step u e = some t := by
  rw [run, List.foldlM_append, Option.bind_eq_bind, Option.bind_eq_some_iff]
  have hlast : ∀ u, [e].foldlM S.step u = S.step u e := fun u => by simp
  simp only [hlast]
  rfl

/-- Events that meet the condition anywhere extend a run. -/
theorem Reach.run {s t : σ} (h : Reach S ok s) (es : List ε) (hok : ∀ e ∈ es, ∀ s, ok s e)
    (hr : run S s es = some t) : Reach S ok t := by
  induction es generalizing s with
  | nil => cases hr; exact h
  | cons e es ih =>
    simp only [Runs.run, List.foldlM_cons, Option.bind_eq_bind, Option.bind_eq_some_iff] at hr
    obtain ⟨u, hu, hr⟩ := hr
    exact ih (h.step e (hok e (List.mem_cons_self ..) s) hu) (fun e' he' => hok e' (List.mem_cons_of_mem _ he')) hr

end GenieCloud.Lib.Runs
