/-
  GenieCloud.Util.Random — drawing without replacement (`choose` of `util/random.ts`).

  Each draw scales a random number to an index among the positions that are free, and scans for
  it. The number of free positions is taken to be what the length of the array of marks leaves,
  and that array is as long as the last position that was ever taken.

  - `choose_distinct`: what is drawn comes from distinct positions, and the scan never runs out.
  - `drawn_iff`: the selections that can be drawn.
-/

import GenieCloud.Lib.Result
import Mathlib.Algebra.Order.Floor.Ring
import Mathlib.Data.Nat.Count
import Mathlib.Data.Rat.Floor

namespace GenieCloud.Util.Random

open GenieCloud.Lib

/-! ## choose -/

/-- The product of numbers, which may be rounded, for a random number and a length. -/
structure Product where
  mul : ℚ → Int → ℚ
  zero : ∀ r, mul r 0 = 0
  nonneg : ∀ r (k : Nat), 0 ≤ r → 0 ≤ mul r k
  lt : ∀ r (k : Nat), 0 ≤ r → r < 1 → 0 < k → mul r k < k
  onto : ∀ i k : Nat, i < k → ∃ r, 0 ≤ r ∧ r < 1 ∧ ⌊mul r k⌋ = i

inductive Failure where
  /-- `code should not be reached` -/
  | assertion
  deriving DecidableEq, Repr

/-- `taken[i]` of a sparse array. -/
def isTaken (taken : List Bool) (i : Nat) : Bool := taken.getD i false

/-- `taken[i] = true` -/
def take (taken : List Bool) (i : Nat) : List Bool :=
  if i < taken.length then taken.set i true else taken ++ List.replicate (i - taken.length) false ++ [true]

variable {α : Type}

/-- The loop of `next`, from position `i` on. -/
def scan (taken : List Bool) : List α → Nat → Int → Option (Nat × α)
  | [], _, _ => none
  | x :: rest, i, idx =>
    if isTaken taken i then scan taken rest (i + 1) idx
    else if idx = 0 then some (i, x)
    else scan taken rest (i + 1) (idx - 1)

variable (times : Product)

def next (from_ : List α) (taken : List Bool) (random : ℚ) : Except Failure (α × List Bool) :=
  match scan taken from_ 0 ⌊times.mul random (from_.length - taken.length)⌋ with
  | some (i, x) => .ok (x, take taken i)
  | none => .error .assertion

/-- The loop of `choose`: `k` is the number of calls of the generator so far. -/
def draw (from_ : List α) (rng : Nat → ℚ) : Nat → Nat → List Bool → Except Failure (List α)
  | 0, _, _ => .ok []
  | n + 1, k, taken => do
    let (x, taken) ← next times from_ taken (rng k)
    let rest ← draw from_ rng n (k + 1) taken
    return x :: rest

def choose (from_ : List α) (n : Nat) (rng : Nat → ℚ) : Except Failure (List α) :=
  if n = 0 then .ok []
  else if n ≥ from_.length then .ok from_
  else draw times from_ rng n 0 []

/-- A generator with values in `[0,1)`. -/
def Generator (rng : Nat → ℚ) : Prop := ∀ k, 0 ≤ rng k ∧ rng k < 1

/-! ## The marks -/

theorem isTaken_take (taken : List Bool) (i j : Nat) : isTaken (take taken i) j = true ↔ j = i ∨ isTaken taken j = true := by
  simp only [isTaken, take, List.getD_eq_getElem?_getD]
  split
  · rename_i hlt
    rw [List.getElem?_set]
    by_cases hij : i = j
    · subst hij
      simp [hlt]
    · simp [hij, Ne.symm hij]
  · rename_i hle
    rw [List.append_assoc, List.getElem?_append]
    split
    · have hne : j ≠ i := by omega
      simp [hne]
    · rename_i hj
      rw [List.getElem?_append, List.length_replicate]
      have hnone : taken[j]? = none := List.getElem?_eq_none (by omega)
      split
      · rename_i hhole
        have hne : j ≠ i := by omega
        rw [List.getElem?_replicate, if_pos hhole]
        simp [hnone, hne]
      · by_cases hij : j = i
        · subst hij
          simp
        · rw [List.getElem?_eq_none (by simp; omega)]
          simp [hnone, hij]

theorem length_take (taken : List Bool) (i : Nat) : (take taken i).length = max taken.length (i + 1) := by
  rw [take]
  split
  · rw [List.length_set]
    omega
  · simp only [List.length_append, List.length_replicate, List.length_singleton]
    omega

/-- One past the last of the positions. -/
def extent : List Nat → Nat
  | [] => 0
  | p :: ps => max (p + 1) (extent ps)

theorem extent_concat (ps : List Nat) (p : Nat) : extent (ps ++ [p]) = max (extent ps) (p + 1) := by
  induction ps with
  | nil => simp [extent]
  | cons q ps ih =>
    rw [List.cons_append, extent, ih, extent]
    omega

theorem lt_extent {ps : List Nat} {p : Nat} (h : p ∈ ps) : p < extent ps := by
  induction ps with
  | nil => cases h
  | cons q ps ih =>
    rw [extent]
    rcases List.mem_cons.mp h with rfl | h
    · omega
    · have := ih h
      omega

theorem extent_le {ps : List Nat} {m : Nat} (h : ∀ p ∈ ps, p < m) : extent ps ≤ m := by
  induction ps with
  | nil => exact Nat.zero_le m
  | cons q ps ih =>
    have hq := h q (List.mem_cons_self ..)
    have hps := ih fun p hp => h p (List.mem_cons_of_mem _ hp)
    rw [extent]
    omega

/-- The marks of the positions taken so far. -/
structure Marks (taken : List Bool) (ps : List Nat) : Prop where
  taken_iff : ∀ i, isTaken taken i = true ↔ i ∈ ps
  length : taken.length = extent ps

theorem marks_nil : Marks [] [] := ⟨fun i => by simp [isTaken], rfl⟩

theorem Marks.take {taken : List Bool} {ps : List Nat} (h : Marks taken ps) (p : Nat) : Marks (take taken p) (ps ++ [p]) := by
  refine ⟨fun i => ?_, ?_⟩
  · rw [isTaken_take, h.taken_iff, List.mem_append, List.mem_singleton, or_comm]
  · rw [length_take, h.length, extent_concat]

/-! ## The scan -/

/-- The number of free positions before one. -/
def before (ps : List Nat) (p : Nat) : Nat := Nat.count (· ∉ ps) p

variable {taken : List Bool} {ps : List Nat}

theorem scan_iff (h : Marks taken ps) {xs : List α} {i p : Nat} {idx : Int} {x : α} : scan taken xs i idx = some (p, x) ↔
    ∃ d, p = i + d ∧ xs[d]? = some x ∧ p ∉ ps ∧ (Nat.count (fun e => i + e ∉ ps) d : Int) = idx := by
  induction xs generalizing i idx with
  | nil => simp [scan]
  | cons y rest ih =>
    have hshift : ∀ d, Nat.count (fun e => i + (e + 1) ∉ ps) d = Nat.count (fun e => i + 1 + e ∉ ps) d := by
      intro d
      congr 1
      funext e
      rw [Nat.add_right_comm, Nat.add_assoc]
    rw [scan]
    by_cases htaken : i ∈ ps
    · rw [if_pos ((h.taken_iff i).mpr htaken), ih]
      constructor
      · intro hd
        obtain ⟨d, rfl, hx, hfree, hcount⟩ := hd
        refine ⟨d + 1, by omega, hx, hfree, ?_⟩
        rw [Nat.count_succ', hshift, if_neg (by simpa using htaken)]
        exact hcount
      · intro hd
        obtain ⟨d, rfl, hx, hfree, hcount⟩ := hd
        cases d with
        | zero => exact absurd htaken hfree
        | succ d =>
          refine ⟨d, by omega, hx, hfree, ?_⟩
          rw [Nat.count_succ', hshift, if_neg (by simpa using htaken)] at hcount
          exact hcount
    · rw [if_neg (fun htrue => htaken ((h.taken_iff i).mp htrue))]
      have hsucc : ∀ d, Nat.count (fun e => i + e ∉ ps) (d + 1) = Nat.count (fun e => i + 1 + e ∉ ps) d + 1 := by
        intro d
        rw [Nat.count_succ', hshift, if_pos (by simpa using htaken)]
      split
      · rename_i hidx
        constructor
        · intro hsome
          cases hsome
          exact ⟨0, rfl, rfl, htaken, by simp [hidx]⟩
        · intro hd
          obtain ⟨d, rfl, hx, -, hcount⟩ := hd
          cases d with
          | zero =>
            cases hx
            rfl
          | succ d =>
            rw [hsucc] at hcount
            omega
      · rename_i hidx
        rw [ih]
        constructor
        · intro hd
          obtain ⟨d, rfl, hx, hfree, hcount⟩ := hd
          refine ⟨d + 1, by omega, hx, hfree, ?_⟩
          rw [hsucc]
          omega
        · intro hd
          obtain ⟨d, rfl, hx, hfree, hcount⟩ := hd
          cases d with
          | zero =>
            rw [Nat.count_zero] at hcount
            exact absurd hcount.symm hidx
          | succ d =>
            rw [hsucc] at hcount
            exact ⟨d, by omega, hx, hfree, by omega⟩

/-- What `next` draws is the free position with as many free ones before it as the index says. -/
theorem next_iff (h : Marks taken ps) {from_ : List α} {random : ℚ} {x : α} {taken' : List Bool} :
    next times from_ taken random = .ok (x, taken') ↔ ∃ p, from_[p]? = some x ∧ p ∉ ps ∧ taken' = take taken p ∧
      (before ps p : Int) = ⌊times.mul random (from_.length - extent ps)⌋ := by
  have hscan : ∀ p idx, scan taken from_ 0 idx = some (p, x) ↔ from_[p]? = some x ∧ p ∉ ps ∧ (before ps p : Int) = idx := by
    intro p idx
    rw [scan_iff h]
    simp [before]
  rw [next, h.length]
  constructor
  · intro hnext
    split at hnext
    · rename_i i y hsome
      cases hnext
      obtain ⟨hx, hfree, hcount⟩ := (hscan _ _).mp hsome
      exact ⟨i, hx, hfree, rfl, hcount⟩
    · cases hnext
  · intro hp
    obtain ⟨p, hx, hfree, rfl, hcount⟩ := hp
    rw [(hscan p _).mpr ⟨hx, hfree, hcount⟩]

/-! ## The draws -/

/-- The positions `qs` are drawn from `m` of them, with the calls of the generator from `k` on, when
    `ps` were drawn. -/
def Drawn (m : Nat) (rng : Nat → ℚ) : Nat → List Nat → List Nat → Prop
  | _, _, [] => True
  | k, ps, q :: qs => q < m ∧ q ∉ ps ∧ (before ps q : Int) = ⌊times.mul (rng k) (m - extent ps)⌋ ∧
    Drawn m rng (k + 1) (ps ++ [q]) qs

variable {times} {m k n : Nat} {rng : Nat → ℚ} {qs : List Nat}

theorem draw_iff (h : Marks taken ps) {from_ res : List α} : draw times from_ rng n k taken = .ok res ↔
    ∃ qs, qs.length = n ∧ Drawn times from_.length rng k ps qs ∧ qs.map (from_[·]?) = res.map some := by
  induction n generalizing k taken ps res with
  | zero =>
    rw [draw]
    constructor
    · intro hres
      cases hres
      exact ⟨[], rfl, trivial, rfl⟩
    · intro hqs
      obtain ⟨qs, hlength, -, hmap⟩ := hqs
      rw [List.length_eq_zero_iff.mp hlength, List.map_nil, eq_comm, List.map_eq_nil_iff] at hmap
      rw [hmap]
  | succ n ih =>
    rw [draw]
    constructor
    · intro hres
      obtain ⟨⟨x, taken'⟩, hnext, hrest⟩ := Result.bind_ok hres
      obtain ⟨rest, hdraw, hcons⟩ := Result.bind_ok hrest
      cases hcons
      obtain ⟨p, hx, hfree, rfl, hcount⟩ := (next_iff times h).mp hnext
      obtain ⟨qs, hlength, hdrawn, hmap⟩ := (ih (h.take p)).mp hdraw
      have hlt := (List.getElem?_eq_some_iff.mp hx).1
      exact ⟨p :: qs, by rw [List.length_cons, hlength], ⟨hlt, hfree, hcount, hdrawn⟩, by
        rw [List.map_cons, List.map_cons, hx, hmap]⟩
    · intro hqs
      obtain ⟨qs, hlength, hdrawn, hmap⟩ := hqs
      cases qs with
      | nil => cases hlength
      | cons p qs =>
        obtain ⟨hlt, hfree, hcount, hdrawn⟩ := hdrawn
        cases res with
        | nil => cases hmap
        | cons x rest =>
          rw [List.map_cons, List.map_cons, List.cons.injEq] at hmap
          have hnext := (next_iff times h).mpr ⟨p, hmap.1, hfree, rfl, hcount⟩
          have hdraw := (ih (h.take p)).mpr ⟨qs, Nat.succ.inj hlength, hdrawn, hmap.2⟩
          rw [hnext, Result.ok_bind]
          simp only [hdraw, Result.ok_bind]
          rfl

theorem Drawn.lt (h : Drawn times m rng k ps qs) : ∀ q ∈ qs, q < m := by
  induction qs generalizing k ps with
  | nil => exact nofun
  | cons q qs ih =>
    obtain ⟨hlt, -, -, hdrawn⟩ := h
    intro p hp
    rcases List.mem_cons.mp hp with rfl | hp
    · exact hlt
    · exact ih hdrawn p hp

/-- No position is drawn twice. -/
theorem Drawn.nodup (h : Drawn times m rng k ps qs) (hps : ps.Nodup) : (ps ++ qs).Nodup := by
  induction qs generalizing k ps with
  | nil => rwa [List.append_nil]
  | cons q qs ih =>
    obtain ⟨-, hfree, -, hdrawn⟩ := h
    have hconcat : (ps ++ [q]).Nodup := List.nodup_append.mpr ⟨hps, List.nodup_singleton q, by
      intro a ha b hb
      rw [List.mem_singleton.mp hb]
      exact fun heq => hfree (heq ▸ ha)⟩
    have := ih hdrawn hconcat
    rwa [List.append_assoc, List.singleton_append] at this

/-! ## Without replacement -/

theorem exists_of_lt_count {p : Nat → Prop} [DecidablePred p] {j m : Nat} (h : j < Nat.count p m) :
    ∃ q, q < m ∧ p q ∧ Nat.count p q = j := by
  induction m with
  | zero => cases h
  | succ m ih =>
    by_cases hj : j < Nat.count p m
    · obtain ⟨q, hq, hpq, hcount⟩ := ih hj
      exact ⟨q, by omega, hpq, hcount⟩
    · rw [Nat.count_succ] at h
      split at h
      · rename_i hp
        exact ⟨m, by omega, hp, by omega⟩
      · omega

/-- What is not taken is free. -/
theorem le_before (ps : List Nat) (m : Nat) : m - ps.length ≤ before ps m := by
  have hsplit := Finset.card_filter_add_card_filter_not (s := Finset.range m) (· ∉ ps)
  have htaken : ((Finset.range m).filter fun p => ¬p ∉ ps).card ≤ ps.length := by
    refine le_trans (Finset.card_le_card fun p hp => ?_) (List.toFinset_card_le ps)
    rw [Finset.mem_filter, not_not] at hp
    exact List.mem_toFinset.mpr hp.2
  rw [before, Nat.count_eq_card_filter_range]
  rw [Finset.card_range] at hsplit
  omega

/-- And everything past the marks is. -/
theorem sub_extent_le_before (ps : List Nat) (m : Nat) : m - extent ps ≤ before ps m := by
  by_cases hm : extent ps ≤ m
  · have hadd := Nat.count_add (p := (· ∉ ps)) (extent ps) (m - extent ps)
    have hall : Nat.count (fun e => extent ps + e ∉ ps) (m - extent ps) = m - extent ps :=
      Nat.count_of_forall fun e _ hmem => by
        have := lt_extent hmem
        omega
    rw [Nat.add_sub_cancel' hm] at hadd
    rw [before]
    omega
  · omega

/-- Whatever the generator says, there is a position to draw. -/
theorem exists_drawn (hrng : Generator rng) (hlt : ∀ p ∈ ps, p < m) (hn : ps.length + n ≤ m) :
    ∃ qs, qs.length = n ∧ Drawn times m rng k ps qs := by
  induction n generalizing k ps with
  | zero => exact ⟨[], rfl, trivial⟩
  | succ n ih =>
    have hextent := extent_le hlt
    obtain ⟨hnonneg, hone⟩ := hrng k
    have hcast : ((m : Int) - extent ps) = ((m - extent ps : Nat) : Int) := by omega
    obtain ⟨j, hj, hfloor⟩ : ∃ j : Nat, j < before ps m ∧ (j : Int) = ⌊times.mul (rng k) (m - extent ps)⌋ := by
      have hfree := le_before ps m
      have hpast := sub_extent_le_before ps m
      rw [hcast]
      by_cases hzero : m - extent ps = 0
      · refine ⟨0, by omega, ?_⟩
        rw [hzero, Nat.cast_zero, times.zero, Int.floor_zero]
      · have hfloor := Int.floor_nonneg.mpr (times.nonneg (rng k) (m - extent ps) hnonneg)
        have hless : ⌊times.mul (rng k) ((m - extent ps : Nat) : Int)⌋ < (m - extent ps : Nat) := by
          rw [Int.floor_lt]
          exact_mod_cast times.lt (rng k) (m - extent ps) hnonneg hone (Nat.pos_of_ne_zero hzero)
        refine ⟨⌊times.mul (rng k) ((m - extent ps : Nat) : Int)⌋.toNat, by omega, by omega⟩
    obtain ⟨q, hq, hfree, hcount⟩ := exists_of_lt_count hj
    have hlt' : ∀ p ∈ ps ++ [q], p < m := by
      intro p hp
      rcases List.mem_append.mp hp with hp | hp
      · exact hlt p hp
      · exact List.mem_singleton.mp hp ▸ hq
    obtain ⟨qs, hlength, hdrawn⟩ := ih (k := k + 1) hlt' (by rw [List.length_append, List.length_singleton]; omega)
    exact ⟨q :: qs, by rw [List.length_cons, hlength], hq, hfree, by rw [← hfloor, before, hcount], hdrawn⟩

/-- The elements at the positions. -/
theorem exists_elements {from_ : List α} (h : ∀ q ∈ qs, q < from_.length) :
    ∃ res : List α, qs.map (from_[·]?) = res.map some := by
  refine ⟨qs.pmap (fun q hq => from_[q]) h, ?_⟩
  rw [List.map_pmap, ← List.pmap_eq_map (p := fun q => q < from_.length) h]
  exact List.pmap_congr_left _ fun q _ hq _ => List.getElem?_eq_getElem hq

theorem choose_distinct (times : Product) (from_ : List α) (n : Nat) (rng : Nat → ℚ) (hrng : Generator rng) :
    ∃ (res : List α) (positions : List Nat), choose times from_ n rng = .ok res ∧ positions.Nodup ∧
      positions.length = min n from_.length ∧ positions.map (from_[·]?) = res.map some := by
  rw [choose]
  split
  · rename_i hn
    exact ⟨[], [], rfl, List.nodup_nil, by rw [hn, Nat.zero_min]; rfl, rfl⟩
  · split
    · rename_i hlong
      refine ⟨from_, List.range from_.length, rfl, List.nodup_range, ?_, ?_⟩
      · rw [List.length_range, Nat.min_eq_right hlong]
      · refine List.ext_getElem (by simp) fun i hi hi' => ?_
        have hlt : i < from_.length := by simpa using hi'
        simp [hlt]
    · rename_i hshort
      obtain ⟨qs, hlength, hdrawn⟩ : ∃ qs, qs.length = n ∧ Drawn times from_.length rng 0 [] qs :=
        exists_drawn hrng (fun _ hp => absurd hp List.not_mem_nil) (by rw [List.length_nil]; omega)
      obtain ⟨res, hres⟩ := exists_elements hdrawn.lt
      exact ⟨res, qs, (draw_iff marks_nil).mpr ⟨qs, hlength, hdrawn, hres⟩, hdrawn.nodup List.nodup_nil, by omega, hres⟩

/-- Numbers without rounding. -/
def exact : Product where
  mul r k := r * k
  zero r := by simp
  nonneg r k hr := by
    rw [Int.cast_natCast]
    exact mul_nonneg hr k.cast_nonneg
  lt r k hr hone hk := by
    have hpos : (0 : ℚ) < k := by exact_mod_cast hk
    rw [Int.cast_natCast]
    exact mul_lt_of_lt_one_left hpos hone
  onto i k hi := by
    have hpos : (0 : ℚ) < k := by exact_mod_cast Nat.zero_lt_of_lt hi
    have hlt : (i : ℚ) < k := by exact_mod_cast hi
    refine ⟨i / k, div_nonneg i.cast_nonneg hpos.le, (div_lt_one hpos).mpr hlt, ?_⟩
    rw [Int.cast_natCast, div_mul_cancel₀ _ hpos.ne', Int.floor_natCast]

theorem choose_distinct_half : ∃ (res : List Char) (positions : List Nat),
    choose exact ['a', 'b', 'c'] 2 (fun _ => 1 / 2) = .ok res ∧ positions.Nodup ∧
      positions.length = min 2 ['a', 'b', 'c'].length ∧ positions.map (['a', 'b', 'c'][·]?) = res.map some :=
  choose_distinct exact ['a', 'b', 'c'] 2 (fun _ => 1 / 2) fun _ => ⟨by norm_num, by norm_num⟩

/-! ## What can be drawn -/

/-- An ordered selection of `n` positions out of `m`. -/
structure Selection (m n : Nat) (selection : List Nat) : Prop where
  length : selection.length = n
  nodup : selection.Nodup
  lt : ∀ p ∈ selection, p < m

/-- Some generator makes `choose` take these positions of any array of length `m`. -/
def Reachable (times : Product) (m n : Nat) (selection : List Nat) : Prop :=
  ∃ rng, Generator rng ∧ ∀ (α : Type) (from_ : List α), from_.length = m →
    ∃ res, choose times from_ n rng = .ok res ∧ selection.map (from_[·]?) = res.map some

/-- After the positions `earlier`, each one is the first that is free, or has fewer free ones before
    it than there are positions past the last that was taken. -/
def Possible (m : Nat) : List Nat → List Nat → Prop
  | _, [] => True
  | earlier, p :: rest => (before earlier p = 0 ∨ before earlier p + extent earlier < m) ∧ Possible m (earlier ++ [p]) rest

theorem Drawn.congr {rng' : Nat → ℚ} (h : Drawn times m rng k ps qs) (hsame : ∀ j, k ≤ j → rng' j = rng j) :
    Drawn times m rng' k ps qs := by
  induction qs generalizing k ps with
  | nil => trivial
  | cons q qs ih =>
    obtain ⟨hlt, hfree, hcount, hdrawn⟩ := h
    exact ⟨hlt, hfree, by rw [hsame k (Nat.le_refl k), hcount], ih hdrawn fun j hj => hsame j (by omega)⟩

/-- The generator can give an index exactly if there are so many positions past the marks, or it is zero. -/
theorem exists_random_iff (times : Product) {extent m j : Nat} (h : extent ≤ m) :
    (∃ r, 0 ≤ r ∧ r < 1 ∧ (j : Int) = ⌊times.mul r (m - extent)⌋) ↔ j = 0 ∨ j + extent < m := by
  have hcast : ((m : Int) - extent) = ((m - extent : Nat) : Int) := by omega
  rw [hcast]
  constructor
  · intro hr
    obtain ⟨r, hnonneg, hone, hj⟩ := hr
    by_cases hzero : m - extent = 0
    · rw [hzero, Nat.cast_zero, times.zero, Int.floor_zero] at hj
      exact .inl (by omega)
    · have hless : ⌊times.mul r ((m - extent : Nat) : Int)⌋ < (m - extent : Nat) := by
        rw [Int.floor_lt]
        exact_mod_cast times.lt r (m - extent) hnonneg hone (Nat.pos_of_ne_zero hzero)
      exact .inr (by omega)
  · intro hj
    by_cases hlt : j < m - extent
    · obtain ⟨r, hnonneg, hone, hfloor⟩ := times.onto j (m - extent) hlt
      exact ⟨r, hnonneg, hone, hfloor.symm⟩
    · obtain rfl : j = 0 := by omega
      have hzero : m - extent = 0 := by omega
      refine ⟨0, le_refl 0, zero_lt_one, ?_⟩
      rw [hzero, Nat.cast_zero, times.zero, Int.floor_zero]

theorem exists_generator_iff (times : Product) (hps : ∀ p ∈ ps, p < m) (hqs : ∀ q ∈ qs, q < m) (hnodup : (ps ++ qs).Nodup) :
    (∃ rng, Generator rng ∧ Drawn times m rng k ps qs) ↔ Possible m ps qs := by
  induction qs generalizing k ps with
  | nil => exact iff_of_true ⟨fun _ => 0, fun _ => ⟨le_refl 0, zero_lt_one⟩, trivial⟩ trivial
  | cons q qs ih =>
    have hq := hqs q (List.mem_cons_self ..)
    have hps' : ∀ p ∈ ps ++ [q], p < m := by
      intro p hp
      rcases List.mem_append.mp hp with hp | hp
      · exact hps p hp
      · exact List.mem_singleton.mp hp ▸ hq
    have hnodup' : (ps ++ [q] ++ qs).Nodup := by rwa [List.append_assoc, List.singleton_append]
    have hrest := ih (k := k + 1) hps' (fun p hp => hqs p (List.mem_cons_of_mem _ hp)) hnodup'
    rw [Possible, ← hrest, ← exists_random_iff times (extent_le hps)]
    constructor
    · intro h
      obtain ⟨rng, hrng, -, -, hcount, hdrawn⟩ := h
      exact ⟨⟨rng k, (hrng k).1, (hrng k).2, hcount⟩, rng, hrng, hdrawn⟩
    · intro h
      obtain ⟨⟨r, hnonneg, hone, hcount⟩, rng, hrng, hdrawn⟩ := h
      have hfree : q ∉ ps := by
        intro hmem
        exact (List.nodup_append.mp hnodup).2.2 q hmem q (List.mem_cons_self ..) rfl
      refine ⟨Function.update rng k r, ?_, hq, hfree, by rw [Function.update_self, hcount], ?_⟩
      · intro j
        by_cases hj : j = k
        · rw [hj, Function.update_self]
          exact ⟨hnonneg, hone⟩
        · rw [Function.update_of_ne hj]
          exact hrng j
      · exact hdrawn.congr fun j hj => Function.update_of_ne (by omega) _ _

theorem choose_draw {from_ : List α} (hn : n < from_.length) (rng : Nat → ℚ) :
    choose times from_ n rng = draw times from_ rng n 0 [] := by
  rw [choose]
  split
  · rename_i hzero
    rw [hzero, draw]
  · rw [if_neg (by omega)]

theorem reachable_iff (times : Product) (hn : n < m) {selection : List Nat} (h : Selection m n selection) :
    Reachable times m n selection ↔ Possible m [] selection := by
  rw [← exists_generator_iff (k := 0) times (fun _ hp => absurd hp List.not_mem_nil) h.lt h.nodup]
  refine exists_congr fun rng => and_congr_right fun _ => ?_
  constructor
  · intro hall
    obtain ⟨res, hres, hselection⟩ := hall Nat (List.range m) List.length_range
    rw [choose_draw (by rwa [List.length_range]), draw_iff marks_nil, List.length_range] at hres
    obtain ⟨qs, -, hdrawn, hqs⟩ := hres
    -- the elements of this array are their own positions
    have hself : ∀ ps : List Nat, (∀ p ∈ ps, p < m) → ps.map ((List.range m)[·]?) = ps.map some :=
      fun ps hps => List.map_congr_left fun p hp => List.getElem?_range (hps p hp)
    rw [← hselection, hself qs hdrawn.lt, hself selection h.lt] at hqs
    rw [List.map_inj_right fun _ _ => Option.some.inj] at hqs
    exact hqs ▸ hdrawn
  · intro hdrawn α from_ hlength
    subst hlength
    obtain ⟨res, hres⟩ : ∃ res : List α, selection.map (from_[·]?) = res.map some := exists_elements h.lt
    refine ⟨res, ?_, hres⟩
    rw [choose_draw hn]
    exact (draw_iff marks_nil).mpr ⟨selection, h.length, hdrawn, hres⟩

/-- The first `n` positions from the last one on. -/
theorem selection_descending (hn : n ≤ m) : Selection m n ((List.range m).reverse.take n) := by
  refine ⟨?_, ?_, ?_⟩
  · rw [List.length_take, List.length_reverse, List.length_range, Nat.min_eq_left hn]
  · exact (List.nodup_reverse.mpr List.nodup_range).sublist (List.take_sublist _ _)
  · intro p hp
    exact List.mem_range.mp (List.mem_reverse.mp (List.mem_of_mem_take hp))

theorem not_possible_descending {m n : Nat} : ¬Possible (m + 3) [] ((List.range (m + 3)).reverse.take (n + 2)) := by
  have hlist : (List.range (m + 3)).reverse.take (n + 2) = (m + 2) :: (m + 1) :: (List.range (m + 1)).reverse.take n := by
    rw [List.range_succ, List.reverse_concat, List.range_succ, List.reverse_concat]
    rfl
  have hbefore : before [m + 2] (m + 1) = m + 1 := by
    refine Nat.count_of_forall fun p hp hmem => ?_
    rw [List.mem_singleton.mp hmem] at hp
    omega
  rw [hlist]
  intro h
  obtain ⟨-, hsecond, -⟩ := h
  rw [List.nil_append, hbefore] at hsecond
  simp only [extent] at hsecond
  omega

/-- Of the selections of fewer positions than there are, the possible ones are drawn by some generator,
    and all are possible only if no more than one position is drawn. -/
theorem drawn_iff (times : Product) (m n : Nat) (hn : n < m) :
    (∀ selection, Selection m n selection → (Reachable times m n selection ↔ Possible m [] selection)) ∧
      ((∀ selection, Selection m n selection → Reachable times m n selection) ↔ n ≤ 1) := by
  refine ⟨fun selection h => reachable_iff times hn h, ?_⟩
  constructor
  · intro hall
    by_contra hlong
    obtain ⟨j, rfl⟩ : ∃ j, n = j + 2 := ⟨n - 2, by omega⟩
    obtain ⟨i, rfl⟩ : ∃ i, m = i + 3 := ⟨m - 3, by omega⟩
    have hselection := selection_descending (Nat.le_of_lt hn)
    exact not_possible_descending ((reachable_iff times hn hselection).mp (hall _ hselection))
  · intro hshort selection h
    rw [reachable_iff times hn h]
    cases selection with
    | nil => trivial
    | cons p rest =>
      have hlength := h.length
      rw [List.length_cons] at hlength
      obtain rfl : rest = [] := List.eq_nil_of_length_eq_zero (by omega)
      have hp := h.lt p (List.mem_singleton_self p)
      have hbefore : before [] p = p := Nat.count_of_forall fun _ _ hmem => absurd hmem List.not_mem_nil
      exact ⟨.inr (by rw [hbefore]; exact hp), trivial⟩

theorem drawn_iff_three : (∀ selection, Selection 3 2 selection →
    (Reachable exact 3 2 selection ↔ Possible 3 [] selection)) ∧
      ((∀ selection, Selection 3 2 selection → Reachable exact 3 2 selection) ↔ 2 ≤ 1) :=
  drawn_iff exact 3 2 (by decide)

/-- After the last of three positions, the middle one is not drawn. -/
theorem middle_after_last : Selection 3 2 [2, 1] ∧ ¬Reachable exact 3 2 [2, 1] := by
  have hselection : Selection 3 2 [2, 1] := selection_descending (by decide)
  refine ⟨hselection, fun hreach => ?_⟩
  have hpossible := (reachable_iff exact (by decide) hselection).mp hreach
  exact not_possible_descending (m := 0) (n := 0) hpossible

end GenieCloud.Util.Random
