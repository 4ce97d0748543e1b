/-
  GenieCloud.Lib.Transaction — transactions whose statements can fail.

  A piece of a transaction (`Tx`) reads and writes the tables and meets its `fates`: how
  each of its round trips to the database ends. One that fails, an error of the
  database itself or a panic of the caller ends the transaction, and `transaction` rolls
  it back. A commit can also be lost: it took effect, but its answer did not arrive.

  - `Triple`: what holds once a piece has run to its end, with the rules to compose it.
  - `Works`: what a piece does while every statement works.
  - `Runs`, `Breaks`: what a piece does by the number of its round trips, or that it fails.
  - `Respects`: a relation between two databases that a piece cannot tell apart.
  - `transaction_spec`: a transaction leaves the tables as they were or as its body left
    them, and returns what its body returned or an error.
-/

import Mathlib.Logic.Basic

namespace GenieCloud.Lib.Transaction

inductive Fate where
  | works
  | fails
  | lost
  deriving DecidableEq, Repr

inductive Failure (ε : Type) where
  | database
  | panic
  | error (e : ε)
  deriving DecidableEq, Repr

def Tx (σ ε α : Type) : Type := σ → List Fate → Except (Failure ε) (α × σ) × List Fate

/-- The next fate; round trips past the list work. -/
def next : List Fate → Fate × List Fate
  | [] => (.works, [])
  | fate :: fates => (fate, fates)

variable {σ ε α β : Type}

instance : Monad (Tx σ ε) where
  pure a s fates := (.ok (a, s), fates)
  bind m k s fates :=
    match m s fates with
    | (.ok (a, s), fates) => k a s fates
    | (.error e, fates) => (.error e, fates)

def statement (f : σ → Except ε (α × σ)) : Tx σ ε α := fun s fates =>
  match next fates with
  | (.works, fates) =>
    match f s with
    | .ok r => (.ok r, fates)
    | .error e => (.error (.error e), fates)
  | (_, fates) => (.error .database, fates)

/-- A statement that only reads. -/
def query (f : σ → α) : Tx σ ε α := statement fun s => .ok (f s, s)

def panic : Tx σ ε α := fun _ fates => (.error .panic, fates)

/-- The caller gives up. -/
def fail (e : ε) : Tx σ ε α := fun _ fates => (.error (.error e), fates)

/-- Begin, the body, and commit; any error rolls back. -/
def transaction (m : Tx σ ε α) (s : σ) (fates : List Fate) : σ × Except (Failure ε) α :=
  match next fates with
  | (.works, fates) =>
    match m s fates with
    | (.error e, _) => (s, .error e)
    | (.ok (a, t), fates) =>
      match (next fates).1 with
      | .works => (t, .ok a)
      | .fails => (s, .error .database)
      | .lost => (t, .error .database)
  | _ => (s, .error .database)

/-- Statements that only read, sent on their own. -/
def ask (m : Tx σ ε α) (s : σ) (fates : List Fate) : Except (Failure ε) α :=
  match (m s fates).1 with
  | .ok (a, _) => .ok a
  | .error e => .error e

theorem bind_ok {m : Tx σ ε α} {k : α → Tx σ ε β} {s t : σ} {a : α} {fates fates' : List Fate}
    (h : m s fates = (.ok (a, t), fates')) : (m >>= k) s fates = k a t fates' := by
  show (match m s fates with
    | (.ok (a, t), fates) => k a t fates
    | (.error e, fates) => (.error e, fates)) = k a t fates'
  rw [h]

theorem bind_error {m : Tx σ ε α} {k : α → Tx σ ε β} {s : σ} {e : Failure ε} {fates fates' : List Fate}
    (h : m s fates = (.error e, fates')) : (m >>= k) s fates = (.error e, fates') := by
  show (match m s fates with
    | (.ok (a, t), fates) => k a t fates
    | (.error e, fates) => (.error e, fates)) = (.error e, fates')
  rw [h]

/-! ## Runs to the end -/

/-- From a state that meets `P`, whatever the fates, `m` fails or ends in `Q`. -/
def Triple (P : σ → Prop) (m : Tx σ ε α) (Q : α → σ → Prop) : Prop :=
  ∀ s fates a t fates', P s → m s fates = (.ok (a, t), fates') → Q a t

variable {P P' : σ → Prop} {m : Tx σ ε α} {k : α → Tx σ ε β} {Q : α → σ → Prop} {R : β → σ → Prop}

theorem Triple.pure {a : α} (h : ∀ s, P s → Q a s) : Triple P (pure a : Tx σ ε α) Q := by
  intro s fates b t fates' hs he
  cases he
  exact h s hs

theorem Triple.bind (h : Triple P m Q) (hk : ∀ a, Triple (Q a) (k a) R) : Triple P (m >>= k) R := by
  intro s fates b u fates'' hs he
  have he' : (match m s fates with
      | (.ok (a, t), fates) => k a t fates
      | (.error e, fates) => (.error e, fates)) = (.ok (b, u), fates'') := he
  split at he'
  · rename_i a t fates' hm
    exact hk a t fates' b u fates'' (h s fates a t fates' hs hm) he'
  · cases he'

theorem Triple.statement {f : σ → Except ε (α × σ)} (h : ∀ s a t, P s → f s = .ok (a, t) → Q a t) :
    Triple P (statement f) Q := by
  intro s fates a t fates' hs he
  unfold Transaction.statement at he
  split at he
  · split at he
    · rename_i r hr
      cases he
      exact h s a t hs hr
    · cases he
  · cases he

theorem Triple.query {f : σ → α} (h : ∀ s, P s → Q (f s) s) : Triple P (query f : Tx σ ε α) Q := by
  apply Triple.statement
  intro s a t hs he
  cases he
  exact h s hs

theorem Triple.panic : Triple P (panic : Tx σ ε α) Q := by
  intro s fates a t fates' _ he
  cases he

theorem Triple.fail {e : ε} : Triple P (fail e : Tx σ ε α) Q := by
  intro s fates a t fates' _ he
  cases he

theorem Triple.pre (h : Triple P m Q) (hP : ∀ s, P' s → P s) : Triple P' m Q := by
  intro s fates a t fates' hs he
  exact h s fates a t fates' (hP s hs) he

theorem Triple.post (h : Triple P m Q) {Q' : α → σ → Prop} (hQ : ∀ a t, Q a t → Q' a t) : Triple P m Q' := by
  intro s fates a t fates' hs he
  exact hQ a t (h s fates a t fates' hs he)

/-- It is enough to look at one starting state at a time. -/
theorem Triple.each (h : ∀ s, P s → Triple (· = s) m Q) : Triple P m Q := by
  intro s fates a t fates' hs he
  exact h s hs s fates a t fates' rfl he

theorem Triple.ite {c : Prop} [Decidable c] {n : Tx σ ε α} (hm : c → Triple P m Q) (hn : ¬ c → Triple P n Q) :
    Triple P (if c then m else n) Q := by
  split
  · exact hm (by assumption)
  · exact hn (by assumption)

/-- What a transaction leaves and returns: nothing and an error, or what its body does,
    the answer perhaps lost. -/
theorem transaction_spec {s : σ} (h : Triple (· = s) m Q) (fates : List Fate) :
    (transaction m s fates).1 = s ∧ (∃ e, (transaction m s fates).2 = .error e) ∨
    ∃ a, Q a (transaction m s fates).1 ∧
      ((transaction m s fates).2 = .ok a ∨ ∃ e, (transaction m s fates).2 = .error e) := by
  unfold transaction
  split
  · split
    · exact .inl ⟨rfl, _, rfl⟩
    · rename_i a t fates' hm
      have hQ := h _ _ _ _ _ rfl hm
      split
      · exact .inr ⟨a, hQ, .inl rfl⟩
      · exact .inl ⟨rfl, _, rfl⟩
      · exact .inr ⟨a, hQ, .inr ⟨_, rfl⟩⟩
  · exact .inl ⟨rfl, _, rfl⟩

/-- The body ran to its end and was committed, and the answer to the commit did not arrive. -/
def answerLost (m : Tx σ ε α) (s : σ) (fates : List Fate) : Bool :=
  match next fates with
  | (.works, fates) =>
    match m s fates with
    | (.ok _, fates) => (next fates).1 = .lost
    | (.error _, _) => false
  | _ => false

/-- The same, told apart by whether the answer to the commit was lost. -/
theorem transaction_cases {s : σ} (h : Triple (· = s) m Q) (fates : List Fate) :
    answerLost m s fates = false ∧ (transaction m s fates).1 = s ∧ (∃ e, (transaction m s fates).2 = .error e) ∨
    (∃ a, Q a (transaction m s fates).1) ∧ answerLost m s fates = true ∧ (∃ e, (transaction m s fates).2 = .error e) ∨
    ∃ a, Q a (transaction m s fates).1 ∧ answerLost m s fates = false ∧ (transaction m s fates).2 = .ok a := by
  cases hn : next fates with
  | mk fate rest =>
    cases fate with
    | fails =>
      simp only [transaction, answerLost, hn]
      exact .inl ⟨trivial, trivial, _, rfl⟩
    | lost =>
      simp only [transaction, answerLost, hn]
      exact .inl ⟨trivial, trivial, _, rfl⟩
    | works =>
      cases hm : m s rest with
      | mk r rest' =>
        simp only [transaction, answerLost, hn, hm]
        cases r with
        | error e => exact .inl ⟨rfl, rfl, e, rfl⟩
        | ok x =>
          have hQ := h s rest x.1 x.2 rest' rfl hm
          dsimp only
          cases (next rest').1 with
          | works => exact .inr (.inr ⟨x.1, hQ, rfl, rfl⟩)
          | fails => exact .inl ⟨rfl, rfl, _, rfl⟩
          | lost => exact .inr (.inl ⟨⟨x.1, hQ⟩, rfl, _, rfl⟩)

theorem ask_spec {s : σ} (h : Triple (· = s) m Q) {fates : List Fate} {a : α} (ha : ask m s fates = .ok a) :
    ∃ t, Q a t := by
  unfold ask at ha
  split at ha
  · rename_i b t hm
    cases ha
    exact ⟨t, h s fates _ t (m s fates).2 rfl (Prod.ext hm rfl)⟩
  · cases ha

/-- A transaction of one statement that returns did what the statement does. -/
theorem transaction_statement {f : σ → Except ε (α × σ)} {s t : σ} {fates : List Fate} {a : α}
    (h : transaction (statement f) s fates = (t, .ok a)) : f s = .ok (a, t) := by
  unfold transaction at h
  split at h
  · next fates' _ =>
    cases hn : next fates' with
    | mk fate rest =>
      simp only [statement, hn] at h
      cases fate with
      | works =>
        cases hf : f s with
        | error e =>
          simp only [hf] at h
          cases h
        | ok r =>
          simp only [hf] at h
          split at h
          · cases h; rfl
          · cases h
          · cases h
      | fails => cases h
      | lost => cases h
  · cases h

theorem ask_statement {f : σ → Except ε (α × σ)} {s : σ} {fates : List Fate} (h : (next fates).1 = .works) :
    ask (statement f) s fates = match f s with
      | .ok (a, _) => .ok a
      | .error e => .error (.error e) := by
  cases hn : next fates with
  | mk fate rest =>
    rw [hn] at h
    subst h
    simp only [ask, statement, hn]
    cases f s with
    | ok r => rfl
    | error e => rfl

/-! ## Runs in which everything works -/

/-- With no fault to come, `m` returns `a` and leaves `t`. -/
def Works (m : Tx σ ε α) (s : σ) (a : α) (t : σ) : Prop := m s [] = (.ok (a, t), [])

theorem Works.pure (a : α) (s : σ) : Works (pure a : Tx σ ε α) s a s := rfl

theorem Works.bind {s t u : σ} {a : α} {b : β} (h : Works m s a t) (hk : Works (k a) t b u) : Works (m >>= k) s b u := by
  show (match m s [] with
    | (.ok (a, t), fates) => k a t fates
    | (.error e, fates) => (.error e, fates)) = (.ok (b, u), [])
  rw [h]
  exact hk

theorem Works.statement {f : σ → Except ε (α × σ)} {s t : σ} {a : α} (h : f s = .ok (a, t)) :
    Works (statement f) s a t := by
  simp only [Works, Transaction.statement, next, h]

theorem Works.query (f : σ → α) (s : σ) : Works (query f : Tx σ ε α) s (f s) s := Works.statement rfl

theorem transaction_works {s t : σ} {a : α} (h : Works m s a t) : transaction m s [] = (t, .ok a) := by
  have hm : m s [] = (.ok (a, t), []) := h
  simp only [transaction, next, hm]

/-! ## Runs by the number of round trips -/

def faultless (n : Nat) (fates : List Fate) : Bool := (fates.take n).all (· = .works)

/-- `m` returns `a` and leaves `t` if the next `n` round trips work, and fails if one of them does not. -/
def Runs (m : Tx σ ε α) (s : σ) (n : Nat) (a : α) (t : σ) : Prop :=
  ∀ fates, (faultless n fates = true → m s fates = (.ok (a, t), fates.drop n)) ∧
    (faultless n fates = false → ∃ e rest, m s fates = (.error e, rest))

/-- `m` fails, whatever the fates. -/
def Breaks (m : Tx σ ε α) (s : σ) : Prop := ∀ fates, ∃ e rest, m s fates = (.error e, rest)

theorem faultless_add (n k : Nat) (fates : List Fate) :
    faultless (n + k) fates = (faultless n fates && faultless k (fates.drop n)) := by
  rw [faultless, List.take_add, List.all_append]
  rfl

theorem next_eq (fates : List Fate) : next fates = (fates.headD .works, fates.drop 1) := by
  cases fates <;> rfl

theorem faultless_one (fates : List Fate) : faultless 1 fates = decide ((next fates).1 = .works) := by
  cases fates with
  | nil => rfl
  | cons fate fates => exact Bool.and_true _

theorem Runs.pure (a : α) (s : σ) : Runs (pure a : Tx σ ε α) s 0 a s := fun _ => ⟨fun _ => rfl, nofun⟩

theorem Breaks.fail (e : ε) (s : σ) : Breaks (fail e : Tx σ ε α) s := fun fates => ⟨_, fates, rfl⟩

section Steps

variable {s t u : σ} {a : α} {b : β} {n p : Nat} {e : ε} {f : σ → Except ε (α × σ)}

theorem Runs.statement (h : f s = .ok (a, t)) : Runs (statement f) s 1 a t := by
  intro fates
  unfold Transaction.statement
  rw [faultless_one, next_eq]
  cases fates.headD .works with
  | works => exact ⟨fun _ => by simp only [h], nofun⟩
  | fails => exact ⟨nofun, fun _ => ⟨_, _, rfl⟩⟩
  | lost => exact ⟨nofun, fun _ => ⟨_, _, rfl⟩⟩

theorem Runs.query (f : σ → α) (s : σ) : Runs (query f : Tx σ ε α) s 1 (f s) s := Runs.statement rfl

theorem Breaks.statement (h : f s = .error e) : Breaks (statement f) s := by
  intro fates
  unfold Transaction.statement
  split
  · rw [h]
    exact ⟨_, _, rfl⟩
  · exact ⟨_, _, rfl⟩

theorem Runs.bind (h : Runs m s n a t) (hk : Runs (k a) t p b u) : Runs (m >>= k) s (n + p) b u := by
  intro fates
  rw [faultless_add]
  cases hn : faultless n fates with
  | true =>
    rw [bind_ok ((h fates).1 hn), Bool.true_and, ← List.drop_drop]
    exact hk _
  | false =>
    obtain ⟨e, rest, he⟩ := (h fates).2 hn
    exact ⟨nofun, fun _ => ⟨e, rest, bind_error he⟩⟩

theorem Breaks.bind (h : Breaks m s) : Breaks (m >>= k) s := by
  intro fates
  obtain ⟨e, rest, he⟩ := h fates
  exact ⟨e, rest, bind_error he⟩

theorem Runs.bind_breaks (h : Runs m s n a t) (hk : Breaks (k a) t) : Breaks (m >>= k) s := by
  intro fates
  cases hn : faultless n fates with
  | true =>
    rw [bind_ok ((h fates).1 hn)]
    exact hk _
  | false =>
    obtain ⟨e, rest, he⟩ := (h fates).2 hn
    exact ⟨e, rest, bind_error he⟩

end Steps

/-- How a transaction ends whose body makes `n` round trips: the fate of the commit, if it comes to it. -/
def ending (n : Nat) (fates : List Fate) : Fate :=
  if faultless (n + 1) fates then (next (fates.drop (n + 1))).1 else .fails

@[simp] theorem ending_nil (n : Nat) : ending n [] = .works := by
  simp [ending, faultless, next]

theorem Runs.transaction {s t : σ} {n : Nat} {a : α} (h : Runs m s n a t) (fates : List Fate) :
    match ending n fates with
    | .works => transaction m s fates = (t, .ok a)
    | .fails => ∃ e, transaction m s fates = (s, .error e)
    | .lost => ∃ e, transaction m s fates = (t, .error e) := by
  unfold ending
  rw [Nat.add_comm, faultless_add, faultless_one, ← List.drop_drop]
  unfold Transaction.transaction
  rw [next_eq fates]
  cases fates.headD .works with
  | fails => exact ⟨_, rfl⟩
  | lost => exact ⟨_, rfl⟩
  | works =>
    cases hn : faultless n (fates.drop 1) with
    | false =>
      obtain ⟨e, rest, he⟩ := (h _).2 hn
      simp only [he]
      exact ⟨e, rfl⟩
    | true =>
      simp only [(h _).1 hn, decide_true, Bool.true_and, if_true]
      cases (next ((fates.drop 1).drop n)).1 with
      | works => rfl
      | fails => exact ⟨_, rfl⟩
      | lost => exact ⟨_, rfl⟩

theorem Breaks.transaction {s : σ} (h : Breaks m s) (fates : List Fate) : ∃ e, transaction m s fates = (s, .error e) := by
  unfold Transaction.transaction
  split
  · rename_i rest _
    obtain ⟨e, rest', he⟩ := h rest
    simp only [he]
    exact ⟨e, rfl⟩
  · exact ⟨_, rfl⟩

/-! ## Databases that a transaction cannot tell apart -/

/-- Two outcomes that differ at most in the tables, which are related. -/
inductive Alike (R : σ → σ → Prop) : Except (Failure ε) (α × σ) × List Fate →
    Except (Failure ε) (α × σ) × List Fate → Prop
  | ok (a : α) {t t' : σ} (fates : List Fate) : R t t' → Alike R (.ok (a, t), fates) (.ok (a, t'), fates)
  | error (e : Failure ε) (fates : List Fate) : Alike R (.error e, fates) (.error e, fates)

def Respects (R : σ → σ → Prop) (m : Tx σ ε α) : Prop := ∀ s s' fates, R s s' → Alike R (m s fates) (m s' fates)

variable {S : σ → σ → Prop}

theorem Respects.pure (a : α) : Respects S (pure a : Tx σ ε α) := fun _ _ fates h => .ok a fates h

theorem Respects.panic : Respects S (panic : Tx σ ε α) := fun _ _ fates _ => .error .panic fates

theorem Respects.bind (h : Respects S m) (hk : ∀ a, Respects S (k a)) : Respects S (m >>= k) := by
  intro s s' fates hs
  have hm := h s s' fates hs
  show Alike S
    (match m s fates with
      | (.ok (a, t), fates) => k a t fates
      | (.error e, fates) => (.error e, fates))
    (match m s' fates with
      | (.ok (a, t), fates) => k a t fates
      | (.error e, fates) => (.error e, fates))
  generalize m s fates = x at hm
  generalize m s' fates = x' at hm
  cases hm with
  | ok a fates' ht => exact hk a _ _ fates' ht
  | error e fates' => exact .error e fates'

/-- The statement has the same answer on related databases and relates what it leaves. -/
theorem Respects.statement {f : σ → Except ε (α × σ)}
    (h : ∀ s s', S s s' → (∃ a t t', f s = .ok (a, t) ∧ f s' = .ok (a, t') ∧ S t t') ∨
      ∃ e, f s = .error e ∧ f s' = .error e) : Respects S (statement f) := by
  intro s s' fates hs
  unfold Transaction.statement
  split
  · rcases h s s' hs with ⟨a, t, t', h1, h2, ht⟩ | ⟨e, h1, h2⟩
    · rw [h1, h2]
      exact .ok a _ ht
    · rw [h1, h2]
      exact .error _ _
  · exact .error _ _

theorem Respects.query {f : σ → α} (h : ∀ s s', S s s' → f s = f s') : Respects S (query f : Tx σ ε α) := by
  apply Respects.statement
  intro s s' hs
  exact .inl ⟨f s, s, s', rfl, by rw [h s s' hs], hs⟩

theorem Respects.ite {c : Prop} [Decidable c] {n : Tx σ ε α} (hm : Respects S m) (hn : Respects S n) :
    Respects S (if c then m else n) := by
  split
  · exact hm
  · exact hn

theorem transaction_respects (h : Respects S m) {s s' : σ} (hs : S s s') (fates : List Fate) :
    S (transaction m s fates).1 (transaction m s' fates).1 ∧
      (transaction m s fates).2 = (transaction m s' fates).2 := by
  unfold transaction
  split
  · rename_i fates' _
    have hm := h s s' fates' hs
    generalize m s fates' = x at hm
    generalize m s' fates' = x' at hm
    cases hm with
    | ok a fates'' ht =>
      dsimp only
      cases (next fates'').1 with
      | works => exact ⟨ht, rfl⟩
      | fails => exact ⟨hs, rfl⟩
      | lost => exact ⟨ht, rfl⟩
    | error e fates'' => exact ⟨hs, rfl⟩
  · exact ⟨hs, rfl⟩

theorem ask_respects (h : Respects S m) {s s' : σ} (hs : S s s') (fates : List Fate) :
    ask m s fates = ask m s' fates := by
  have hm := h s s' fates hs
  unfold ask
  generalize m s fates = x at hm
  generalize m s' fates = x' at hm
  cases hm with
  | ok a fates' ht => rfl
  | error e fates' => rfl

end GenieCloud.Lib.Transaction
