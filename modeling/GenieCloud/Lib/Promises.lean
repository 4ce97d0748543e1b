/-
  GenieCloud.Lib.Promises — JavaScript promises that are never rejected, and the jobs
  they leave behind.

  A promise is pending or fulfilled. What waits for a pending promise is registered
  with it as a reaction; when it is fulfilled, each of its reactions becomes a job, in
  the order they were registered. Jobs run one at a time, first in first out, each to
  its end.

  A reaction resumes the code after an `await` (`resume`), runs a `then` callback that
  returns another promise (`chain`), or hands the outcome over to a promise that
  follows this one (`forward`). A promise is made to follow the one its callback
  returned in a job of its own (`follow`).
-/

import GenieCloud.Lib.Objects

namespace GenieCloud.Lib.Promises

inductive Reaction (κ : Type) where
  | resume (k : κ)
  | chain (inner target : Nat)
  | forward (target : Nat)
  deriving DecidableEq, Repr

inductive Job (κ : Type) where
  | react (r : Reaction κ)
  | follow (inner target : Nat)
  deriving DecidableEq, Repr

structure Promise (κ : Type) where
  fulfilled : Bool
  reactions : List (Reaction κ)
  deriving DecidableEq, Repr

def Promise.pending {κ : Type} (rs : List (Reaction κ)) : Promise κ := ⟨false, rs⟩

def Promise.done {κ : Type} : Promise κ := ⟨true, []⟩

/-- The promises, by number, and the jobs still to run. -/
structure Heap (κ : Type) where
  promises : List (Promise κ)
  jobs : List (Job κ)
  deriving DecidableEq, Repr

namespace Heap

variable {κ : Type}

/-- `new Promise(..)` -/
def create (h : Heap κ) : Nat × Heap κ := (h.promises.length, { h with promises := h.promises ++ [.pending []] })

/-- The `resolve` function of a promise; a second call does nothing. -/
def fulfill (h : Heap κ) (p : Nat) : Heap κ :=
  match h.promises[p]? with
  | some ⟨false, rs⟩ => { promises := h.promises.set p .done, jobs := h.jobs ++ rs.map .react }
  | _ => h

def register (h : Heap κ) (p : Nat) (r : Reaction κ) : Heap κ :=
  match h.promises[p]? with
  | some ⟨false, rs⟩ => { h with promises := h.promises.set p (.pending (rs ++ [r])) }
  | some ⟨true, _⟩ => { h with jobs := h.jobs ++ [.react r] }
  | none => h

/-- `p.then(() => inner)` -/
def thenReturn (h : Heap κ) (p inner : Nat) : Nat × Heap κ :=
  (h.create.1, h.create.2.register p (.chain inner h.create.1))

/-- `await p`, with `k` for the code after it -/
def await (h : Heap κ) (p : Nat) (k : κ) : Heap κ := h.register p (.resume k)

/-- Runs the first job; also says which code it resumed. -/
def runJob (h : Heap κ) : Option (Heap κ × Option κ) :=
  match h.jobs with
  | [] => none
  | .react (.resume k) :: jobs => some ({ h with jobs := jobs }, some k)
  | .react (.chain inner target) :: jobs => some ({ h with jobs := jobs ++ [.follow inner target] }, none)
  | .react (.forward target) :: jobs => some (fulfill { h with jobs := jobs } target, none)
  | .follow inner target :: jobs => some (register { h with jobs := jobs } inner (.forward target), none)

/-! ## What each operation does to the promises and to the jobs -/

variable {h : Heap κ} {p : Nat} {rs : List (Reaction κ)}

theorem fulfill_pending (hp : h.promises[p]? = some (.pending rs)) :
    h.fulfill p = { promises := h.promises.set p .done, jobs := h.jobs ++ rs.map .react } := by
  rw [fulfill, hp]
  rfl

theorem fulfill_done (hp : h.promises[p]? = some .done) : h.fulfill p = h := by
  rw [fulfill, hp]
  rfl

theorem register_pending (hp : h.promises[p]? = some (.pending rs)) (r : Reaction κ) :
    h.register p r = { h with promises := h.promises.set p (.pending (rs ++ [r])) } := by
  rw [register, hp]
  rfl

theorem register_done (hp : h.promises[p]? = some .done) (r : Reaction κ) :
    h.register p r = { h with jobs := h.jobs ++ [.react r] } := by
  rw [register, hp]
  rfl

theorem getElem?_create (h : Heap κ) (p : Nat) :
    h.create.2.promises[p]? = if p = h.promises.length then some (.pending []) else h.promises[p]? :=
  Objects.getElem?_created ..

end Heap

end GenieCloud.Lib.Promises
