/-
  GenieCloud.Nlp.ModelReload — reloading a model of the inference server
  (`load` and `reload` of `nlp/nlp_model.ts`, `download` and `removeTemporary` of
  `util/abstract_fs.ts`).

  A `reload` remembers the model's directory and predictor, loads new ones, and only then
  stops the predictor and removes the directory it remembers. Nothing keeps two reloads
  apart: they run at the same time and can finish loading in any order. A download can fail,
  and so can the making of a predictor.

  - `serves_iff`: in every run the predictor in place runs and its directory is there,
    exactly if the model is not a local directory under `/var/tmp`, which a reload takes for
    a temporary one.
  - `nothing_left`: when reloads come one after the other and none fails to load, a finished
    one leaves no other predictor running and no other directory. `overlap_leaves` runs two
    at the same time.
-/

import GenieCloud.Lib.Runs

namespace GenieCloud.Nlp.ModelReload

open GenieCloud.Lib.Runs

/-! ## The model -/

/-- What the URL of a model is: `http(s):` or `kf+http(s):`, `s3:`, or a local path. -/
inductive Source
  | remote
  | s3
  | file (path : String)
deriving DecidableEq

/-- `tmp.dir` makes a new one under `/var/tmp`; a local path is used where it is. -/
inductive Dir
  | temporary (id : Nat)
  | path (path : String)
deriving DecidableEq

/-- What `removeTemporary` removes. -/
def isTemporary : Dir → Bool
  | .temporary _ => true
  | .path path => "/var/tmp".toList.isPrefixOf path.toList

/-- Of a `reload`: its download is under way, or the `stop` and the removal are (`true`). -/
inductive Phase
  | downloading (dir : Dir)
  | clearing (stop remove : Bool)
deriving DecidableEq

structure Reload where
  oldlocaldir : Option Dir
  oldpredictor : Nat
  phase : Phase
deriving DecidableEq

/-- Every predictor ever made, oldest first, with the directory it reads; the model's own
    fields; and what was stopped and removed. -/
structure Model where
  predictors : List (Option Dir)
  predictor : Nat
  localdir : Option Dir
  temporaries : Nat
  stopped : List Nat := []
  removed : List Dir := []
  reloads : List Reload := []
deriving DecidableEq

def getPredictor (s : Model) (dir : Option Dir) : Model :=
  { s with predictors := s.predictors ++ [dir], predictor := s.predictors.length }

/-- After the first `load`. -/
def loaded : Source → Model
  | .remote => { predictors := [none], predictor := 0, localdir := none, temporaries := 0 }
  | .s3 => { predictors := [some (.temporary 0)], predictor := 0, localdir := some (.temporary 0), temporaries := 1 }
  | .file path => { predictors := [some (.path path)], predictor := 0, localdir := some (.path path), temporaries := 0 }

/-- `reload` up to its first `await`. -/
def reload (source : Source) (s : Model) : Model :=
  let begin phase := { s with reloads := s.reloads ++ [⟨s.localdir, s.predictor, phase⟩] }
  match source with
  | .remote => getPredictor (begin (.clearing true s.localdir.isSome)) none
  | .s3 => { begin (.downloading (.temporary s.temporaries)) with temporaries := s.temporaries + 1 }
  | .file path => begin (.downloading (.path path))

inductive Event
  | reload
  | downloaded (k : Nat)
  /-- `aws s3 sync` fails. -/
  | downloadFails (k : Nat)
  /-- `Genie.ParserClient.get` throws. -/
  | getFails (k : Nat)
  | stopped (k : Nat)
  | removed (k : Nat)
deriving DecidableEq

def step (source : Source) (s : Model) : Event → Option Model
  | .reload => some (reload source s)
  | .downloaded k =>
    match s.reloads[k]? with
    | some ⟨olddir, old, .downloading dir⟩ =>
      some (getPredictor
        { s with localdir := some dir, reloads := s.reloads.set k ⟨olddir, old, .clearing true olddir.isSome⟩ } (some dir))
    | _ => none
  | .downloadFails k =>
    match s.reloads[k]? with
    | some ⟨_, _, .downloading (.temporary _)⟩ => some { s with reloads := s.reloads.eraseIdx k }
    | _ => none
  | .getFails k =>
    match s.reloads[k]? with
    | some ⟨_, _, .downloading dir⟩ => some { s with localdir := some dir, reloads := s.reloads.eraseIdx k }
    | _ => none
  | .stopped k =>
    match s.reloads[k]? with
    | some ⟨olddir, old, .clearing true remove⟩ =>
      some { s with stopped := old :: s.stopped, reloads := s.reloads.set k ⟨olddir, old, .clearing false remove⟩ }
    | _ => none
  | .removed k =>
    match s.reloads[k]? with
    | some ⟨some dir, old, .clearing stop true⟩ =>
      some { s with
        removed := if isTemporary dir then dir :: s.removed else s.removed
        reloads := s.reloads.set k ⟨some dir, old, .clearing stop false⟩ }
    | _ => none

def system (source : Source) : System Model Event where
  init s := s = loaded source
  step := step source

/-- The directory of the predictor in place. -/
def current (s : Model) : Option Dir := (s.predictors[s.predictor]?).join

def Serves (s : Model) : Prop := s.predictor ∉ s.stopped ∧ ∀ dir, current s = some dir → dir ∉ s.removed

instance (s : Model) : Decidable (Serves s) :=
  inferInstanceAs (Decidable (_ ∧ ∀ dir, current s = some dir → dir ∉ s.removed))

/-! ## What a step can do -/

section Step

variable {source : Source} {s t : Model} {e : Event}

/-- The reload that goes on, and what becomes of it. -/
inductive Stepped (source : Source) (s : Model) : Model → Prop
  | reload : Stepped source s (reload source s)
  | downloaded {k : Nat} {olddir : Option Dir} {old : Nat} {dir : Dir} : s.reloads[k]? = some ⟨olddir, old, .downloading dir⟩ →
      Stepped source s (getPredictor
        { s with localdir := some dir, reloads := s.reloads.set k ⟨olddir, old, .clearing true olddir.isSome⟩ } (some dir))
  | downloadFails {k : Nat} : Stepped source s { s with reloads := s.reloads.eraseIdx k }
  | getFails {k : Nat} {olddir : Option Dir} {old : Nat} {dir : Dir} : s.reloads[k]? = some ⟨olddir, old, .downloading dir⟩ →
      Stepped source s { s with localdir := some dir, reloads := s.reloads.eraseIdx k }
  | stopped {k : Nat} {olddir : Option Dir} {old : Nat} {remove : Bool} :
      s.reloads[k]? = some ⟨olddir, old, .clearing true remove⟩ →
      Stepped source s { s with
        stopped := old :: s.stopped, reloads := s.reloads.set k ⟨olddir, old, .clearing false remove⟩ }
  | removed {k : Nat} {dir : Dir} {old : Nat} {stop : Bool} : s.reloads[k]? = some ⟨some dir, old, .clearing stop true⟩ →
      Stepped source s { s with
        removed := if isTemporary dir then dir :: s.removed else s.removed
        reloads := s.reloads.set k ⟨some dir, old, .clearing stop false⟩ }

theorem stepped (h : step source s e = some t) : Stepped source s t := by
  cases e with
  | reload => cases h; exact .reload
  | downloaded k =>
    rw [step] at h
    split at h
    · rename_i hk; cases h; exact .downloaded hk
    · cases h
  | downloadFails k =>
    rw [step] at h
    split at h
    · cases h; exact .downloadFails
    · cases h
  | getFails k =>
    rw [step] at h
    split at h
    · rename_i hk; cases h; exact .getFails hk
    · cases h
  | stopped k =>
    rw [step] at h
    split at h
    · rename_i hk; cases h; exact .stopped hk
    · cases h
  | removed k =>
    rw [step] at h
    split at h
    · rename_i hk; cases h; exact .removed hk
    · cases h

end Step

/-! ## Predictors -/

/-- A reload remembers an earlier predictor than its own. -/
structure Ordered (s : Model) : Prop where
  last : s.predictor + 1 = s.predictors.length
  stopped : ∀ p ∈ s.stopped, p < s.predictor
  reloads : ∀ r ∈ s.reloads, r.oldpredictor ≤ s.predictor ∧ ∀ stop remove, r.phase = .clearing stop remove → r.oldpredictor < s.predictor

theorem last_getPredictor (s : Model) (dir : Option Dir) :
    (getPredictor s dir).predictor + 1 = (getPredictor s dir).predictors.length := by
  simp [getPredictor]

theorem Ordered.loaded (source : Source) : Ordered (loaded source) := by
  cases source <;> exact ⟨rfl, fun _ h => (List.not_mem_nil h).elim, fun _ h => (List.not_mem_nil h).elim⟩

theorem Ordered.step {source : Source} {s t : Model} (h : Ordered s) (hs : Stepped source s t) : Ordered t := by
  have hlt : s.predictor < s.predictors.length := by have := h.last; omega
  -- a reload that goes on is one that was there
  have hset : ∀ {k r}, s.reloads[k]? = some r → ∀ phase, r.oldpredictor < s.predictors.length →
      ∀ q ∈ s.reloads.set k { r with phase := phase }, q.oldpredictor < s.predictors.length := by
    intro k r hk phase hr q hq
    rcases List.mem_or_eq_of_mem_set hq with hq | rfl
    · exact Nat.lt_of_le_of_lt (h.reloads q hq).1 hlt
    · exact hr
  cases hs with
  | reload =>
    cases source with
    | remote =>
      refine ⟨last_getPredictor .., fun p hp => Nat.lt_trans (h.stopped p hp) hlt, fun r hr => ?_⟩
      have hr' : r.oldpredictor < s.predictors.length := by
        rcases List.mem_append.mp hr with hr | hr
        · exact Nat.lt_of_le_of_lt (h.reloads r hr).1 hlt
        · rw [List.mem_singleton.mp hr]; exact hlt
      exact ⟨Nat.le_of_lt hr', fun _ _ _ => hr'⟩
    | s3 | file =>
      refine ⟨h.last, h.stopped, fun r hr => ?_⟩
      rcases List.mem_append.mp hr with hr | hr
      · exact h.reloads r hr
      · rw [List.mem_singleton.mp hr]
        exact ⟨Nat.le_refl _, fun _ _ hp => by cases hp⟩
  | downloaded hk =>
    refine ⟨last_getPredictor .., fun p hp => Nat.lt_trans (h.stopped p hp) hlt, fun r hr => ?_⟩
    have hr' := hset hk _ (Nat.lt_of_le_of_lt (h.reloads _ (List.mem_of_getElem? hk)).1 hlt) r hr
    exact ⟨Nat.le_of_lt hr', fun _ _ _ => hr'⟩
  | downloadFails | getFails => exact ⟨h.last, h.stopped, fun r hr => h.reloads r (List.mem_of_mem_eraseIdx hr)⟩
  | stopped hk =>
    obtain ⟨-, hlt⟩ := h.reloads _ (List.mem_of_getElem? hk)
    refine ⟨h.last, fun p hp => ?_, fun r hr => ?_⟩
    · rcases List.mem_cons.mp hp with rfl | hp
      · exact hlt _ _ rfl
      · exact h.stopped p hp
    · rcases List.mem_or_eq_of_mem_set hr with hr | rfl
      · exact h.reloads r hr
      · exact ⟨Nat.le_of_lt (hlt _ _ rfl), fun _ _ _ => hlt _ _ rfl⟩
  | removed hk =>
    obtain ⟨-, hlt⟩ := h.reloads _ (List.mem_of_getElem? hk)
    refine ⟨h.last, h.stopped, fun r hr => ?_⟩
    rcases List.mem_or_eq_of_mem_set hr with hr | rfl
    · exact h.reloads r hr
    · exact ⟨Nat.le_of_lt (hlt _ _ rfl), fun _ _ _ => hlt _ _ rfl⟩

/-! ## Directories -/

/-- One element of a list, those before it and those after it. -/
theorem getElem?_split {α : Type} {l : List α} {k : Nat} {a : α} (h : l[k]? = some a) :
    ∃ A B, l = A ++ a :: B ∧ (∀ b, l.set k b = A ++ b :: B) ∧ l.eraseIdx k = A ++ B := by
  obtain ⟨hk, rfl⟩ := List.getElem?_eq_some_iff.mp h
  refine ⟨l.take k, l.drop (k + 1), ?_, fun b => List.set_eq_take_append_cons_drop .. |>.trans (if_pos hk), ?_⟩
  · rw [List.getElem_cons_drop, List.take_append_drop]
  · exact List.eraseIdx_eq_take_drop_succ ..

def Pending (s : Model) (dir : Dir) : Prop := ∃ r ∈ s.reloads, r.phase = .downloading dir

/-- The model, its predictor or a reload knows the directory, or it was removed. -/
def Known (s : Model) (dir : Dir) : Prop :=
  s.localdir = some dir ∨ current s = some dir ∨ dir ∈ s.removed ∨ ∃ r ∈ s.reloads, r.oldlocaldir = some dir

/-- It was removed, or will be. -/
def Retired (s : Model) (dir : Dir) : Prop :=
  dir ∈ s.removed ∨ ∃ r ∈ s.reloads, r.oldlocaldir = some dir ∧ ∃ stop remove, r.phase = .clearing stop remove

/-- Directories downloaded to: all new ones, each in one place. -/
structure Separate (s : Model) : Prop where
  known : ∀ dir, Known s dir → ∃ n, dir = .temporary n ∧ n < s.temporaries
  pending : ∀ dir, Pending s dir → (∃ n, dir = .temporary n ∧ n < s.temporaries) ∧ ¬ Known s dir
  once : s.reloads.Pairwise fun a b => ∀ dir, a.phase = .downloading dir → b.phase ≠ .downloading dir
  retired : ∀ dir, Retired s dir → current s ≠ some dir

@[simp] theorem current_getPredictor (s : Model) (dir : Option Dir) : current (getPredictor s dir) = dir := by
  rw [current, getPredictor, List.getElem?_concat_length]
  rfl

theorem Separate.loaded : Separate (loaded .s3) where
  known := by
    rintro dir (h | h | h | ⟨r, h, -⟩)
    · cases h; exact ⟨0, rfl, by decide⟩
    · cases h; exact ⟨0, rfl, by decide⟩
    · cases h
    · cases h
  pending := by
    rintro dir ⟨r, h, -⟩
    cases h
  once := .nil
  retired := by
    rintro dir (h | ⟨r, h, -⟩)
    · cases h
    · cases h

theorem known_reload {s : Model} {dir : Dir} (h : Known (reload .s3 s) dir) : Known s dir := by
  rcases h with h | h | h | ⟨r, hr, hd⟩
  · exact Or.inl h
  · exact Or.inr (Or.inl h)
  · exact Or.inr (Or.inr (Or.inl h))
  · rcases List.mem_append.mp hr with hr | hr
    · exact Or.inr (Or.inr (Or.inr ⟨r, hr, hd⟩))
    · rw [List.mem_singleton.mp hr] at hd
      exact Or.inl hd

theorem Separate.reload {s : Model} (h : Separate s) : Separate (reload .s3 s) where
  known := by
    intro dir hk
    obtain ⟨n, rfl, hn⟩ := h.known dir (known_reload hk)
    exact ⟨n, rfl, Nat.lt_succ_of_lt hn⟩
  pending := by
    rintro dir ⟨r, hr, hp⟩
    rcases List.mem_append.mp hr with hr | hr
    · obtain ⟨⟨n, rfl, hn⟩, hk⟩ := h.pending dir ⟨r, hr, hp⟩
      exact ⟨⟨n, rfl, Nat.lt_succ_of_lt hn⟩, fun hk' => hk (known_reload hk')⟩
    · rw [List.mem_singleton.mp hr] at hp
      cases hp
      refine ⟨⟨s.temporaries, rfl, Nat.lt_succ_self _⟩, fun hk => ?_⟩
      obtain ⟨n, he, hn⟩ := h.known _ (known_reload hk)
      cases he
      exact Nat.lt_irrefl _ hn
  once := by
    refine List.pairwise_append.mpr ⟨h.once, List.pairwise_singleton .., fun a ha b hb dir hp hq => ?_⟩
    rw [List.mem_singleton.mp hb] at hq
    obtain ⟨⟨n, rfl, hn⟩, -⟩ := h.pending dir ⟨a, ha, hp⟩
    cases hq
    exact Nat.lt_irrefl _ hn
  retired := by
    rintro dir (hr | ⟨r, hr, hd, stop, remove, hp⟩)
    · exact h.retired dir (Or.inl hr)
    · rcases List.mem_append.mp hr with hr | hr
      · exact h.retired dir (Or.inr ⟨r, hr, hd, stop, remove, hp⟩)
      · rw [List.mem_singleton.mp hr] at hp; cases hp

/-- Of reloads, each downloads to a directory that the others do not. -/
theorem once_split {A B : List Reload} {r : Reload} {dir : Dir}
    (h : (A ++ r :: B).Pairwise fun a b => ∀ dir, a.phase = .downloading dir → b.phase ≠ .downloading dir)
    (hr : r.phase = .downloading dir) : ∀ q ∈ A ++ B, q.phase ≠ .downloading dir := by
  obtain ⟨-, hB, hA⟩ := List.pairwise_append.mp h
  intro q hq hp
  rcases List.mem_append.mp hq with hq | hq
  · exact hA q hq r (List.mem_cons_self ..) dir hp hr
  · exact (List.pairwise_cons.mp hB).1 q hq dir hr hp

/-- The other reloads, with one that does not download or without it. -/
theorem once_replace {A B : List Reload} {r r' : Reload}
    (h : (A ++ r :: B).Pairwise fun a b => ∀ dir, a.phase = .downloading dir → b.phase ≠ .downloading dir)
    (hr : ∀ dir, r'.phase ≠ .downloading dir) :
    (A ++ r' :: B).Pairwise fun a b => ∀ dir, a.phase = .downloading dir → b.phase ≠ .downloading dir := by
  obtain ⟨hA, hB, hAB⟩ := List.pairwise_append.mp h
  refine List.pairwise_append.mpr ⟨hA, List.pairwise_cons.mpr ⟨fun b _ dir hp => absurd hp (hr dir), (List.pairwise_cons.mp hB).2⟩, ?_⟩
  intro a ha b hb dir hp hq
  rcases List.mem_cons.mp hb with rfl | hb
  · exact hr dir hq
  · exact hAB a ha b (List.mem_cons_of_mem _ hb) dir hp hq

/-- No new directory: what comes to be known was downloaded to, and is not any more. -/
theorem Separate.of {s t : Model} (h : Separate s) (htmp : t.temporaries = s.temporaries)
    (hk : ∀ dir, Known t dir → Known s dir ∨ (Pending s dir ∧ ¬ Pending t dir)) (hp : ∀ dir, Pending t dir → Pending s dir)
    (honce : t.reloads.Pairwise fun a b => ∀ dir, a.phase = .downloading dir → b.phase ≠ .downloading dir)
    (hret : ∀ dir, Retired t dir → current t ≠ some dir) : Separate t where
  known := by
    intro dir hd
    rw [htmp]
    rcases hk dir hd with hd | ⟨hd, -⟩
    · exact h.known dir hd
    · exact (h.pending dir hd).1
  pending := by
    intro dir hd
    obtain ⟨hn, hnot⟩ := h.pending dir (hp dir hd)
    rw [htmp]
    refine ⟨hn, fun hd' => ?_⟩
    rcases hk dir hd' with hd' | ⟨-, hd'⟩
    · exact hnot hd'
    · exact hd' hd
  once := honce
  retired := hret

/-- One reload changes its phase, and its download has ended. -/
theorem pending_set {s : Model} {A B : List Reload} {r r' : Reload} (hl : s.reloads = A ++ r :: B)
    (hr' : ∀ dir, r'.phase ≠ .downloading dir) {dir : Dir} {q : Reload} (hq : q ∈ A ++ r' :: B) (hp : q.phase = .downloading dir) :
    q ∈ A ++ B ∧ q ∈ s.reloads := by
  rw [hl]
  rcases List.mem_append.mp hq with hq | hq
  · exact ⟨List.mem_append_left _ hq, List.mem_append_left _ hq⟩
  · rcases List.mem_cons.mp hq with rfl | hq
    · exact absurd hp (hr' dir)
    · exact ⟨List.mem_append_right _ hq, List.mem_append_right _ (List.mem_cons_of_mem _ hq)⟩

/-- And goes on remembering the same directory. -/
theorem olddir_set {s : Model} {A B : List Reload} {r r' : Reload} (hl : s.reloads = A ++ r :: B)
    (hold : r'.oldlocaldir = r.oldlocaldir) {dir : Dir} {q : Reload} (hq : q ∈ A ++ r' :: B) (hd : q.oldlocaldir = some dir) :
    ∃ q ∈ s.reloads, q.oldlocaldir = some dir := by
  rw [hl]
  rcases List.mem_append.mp hq with hq | hq
  · exact ⟨q, List.mem_append_left _ hq, hd⟩
  · rcases List.mem_cons.mp hq with rfl | hq
    · exact ⟨r, List.mem_append_right _ (List.mem_cons_self ..), hold ▸ hd⟩
    · exact ⟨q, List.mem_append_right _ (List.mem_cons_of_mem _ hq), hd⟩

theorem Separate.downloaded {s : Model} (h : Separate s) {k : Nat} {olddir : Option Dir} {old : Nat} {dir : Dir}
    (hk : s.reloads[k]? = some ⟨olddir, old, .downloading dir⟩) :
    Separate (getPredictor
      { s with localdir := some dir, reloads := s.reloads.set k ⟨olddir, old, .clearing true olddir.isSome⟩ } (some dir)) := by
  obtain ⟨A, B, hl, hset, -⟩ := getElem?_split hk
  rw [hset]
  have hpend : Pending s dir := ⟨_, List.mem_of_getElem? hk, rfl⟩
  have honce := hl ▸ h.once
  have hothers := once_split honce rfl
  have hset' := @pending_set s A B _ ⟨olddir, old, .clearing true olddir.isSome⟩ hl fun _ h => by cases h
  have holdset := @olddir_set s A B _ ⟨olddir, old, .clearing true olddir.isSome⟩ hl rfl
  have hknown : ∀ d, d ∈ s.removed ∨ (∃ r ∈ A ++ ⟨olddir, old, .clearing true olddir.isSome⟩ :: B, r.oldlocaldir = some d) →
      Known s d := by
    rintro d (hd | ⟨r, hr, hd⟩)
    · exact Or.inr (Or.inr (Or.inl hd))
    · exact Or.inr (Or.inr (Or.inr (holdset hr hd)))
  have hgone : ¬ Pending (getPredictor
      { s with localdir := some dir, reloads := A ++ ⟨olddir, old, .clearing true olddir.isSome⟩ :: B } (some dir)) dir := by
    rintro ⟨q, hq, hp⟩
    exact hothers q (hset' hq hp).1 hp
  refine h.of rfl ?_ ?_ (once_replace honce fun _ h => by cases h) ?_
  · rintro d (hd | hd | hd)
    · cases hd; exact Or.inr ⟨hpend, hgone⟩
    · rw [current_getPredictor] at hd; cases hd; exact Or.inr ⟨hpend, hgone⟩
    · exact Or.inl (hknown d hd)
  · rintro d ⟨q, hq, hp⟩
    exact ⟨q, (hset' hq hp).2, hp⟩
  · intro d hd hcur
    rw [current_getPredictor] at hcur
    cases hcur
    refine (h.pending dir hpend).2 (hknown dir ?_)
    rcases hd with hd | ⟨r, hr, hd, -⟩
    · exact Or.inl hd
    · exact Or.inr ⟨r, hr, hd⟩

theorem Separate.erase {s : Model} (h : Separate s) (k : Nat) : Separate { s with reloads := s.reloads.eraseIdx k } := by
  have hmem : ∀ {r}, r ∈ s.reloads.eraseIdx k → r ∈ s.reloads := List.mem_of_mem_eraseIdx
  refine h.of rfl ?_ ?_ (h.once.sublist (List.eraseIdx_sublist ..)) ?_
  · rintro d (hd | hd | hd | ⟨r, hr, hd⟩)
    · exact Or.inl (Or.inl hd)
    · exact Or.inl (Or.inr (Or.inl hd))
    · exact Or.inl (Or.inr (Or.inr (Or.inl hd)))
    · exact Or.inl (Or.inr (Or.inr (Or.inr ⟨r, hmem hr, hd⟩)))
  · rintro d ⟨r, hr, hp⟩
    exact ⟨r, hmem hr, hp⟩
  · rintro d (hd | ⟨r, hr, hd⟩)
    · exact h.retired d (Or.inl hd)
    · exact h.retired d (Or.inr ⟨r, hmem hr, hd⟩)

theorem Separate.getFails {s : Model} (h : Separate s) {k : Nat} {olddir : Option Dir} {old : Nat} {dir : Dir}
    (hk : s.reloads[k]? = some ⟨olddir, old, .downloading dir⟩) :
    Separate { s with localdir := some dir, reloads := s.reloads.eraseIdx k } := by
  have he := h.erase k
  obtain ⟨A, B, hl, -, herase⟩ := getElem?_split hk
  have hothers := once_split (hl ▸ h.once) rfl
  have hpend : Pending s dir := ⟨_, List.mem_of_getElem? hk, rfl⟩
  refine h.of rfl ?_ ?_ he.once he.retired
  · rintro d (hd | hd | hd | ⟨r, hr, hd⟩)
    · cases hd
      refine Or.inr ⟨hpend, ?_⟩
      rintro ⟨q, hq, hp⟩
      exact hothers q (herase ▸ hq) hp
    · exact Or.inl (Or.inr (Or.inl hd))
    · exact Or.inl (Or.inr (Or.inr (Or.inl hd)))
    · exact Or.inl (Or.inr (Or.inr (Or.inr ⟨r, List.mem_of_mem_eraseIdx hr, hd⟩)))
  · rintro d ⟨r, hr, hp⟩
    exact ⟨r, List.mem_of_mem_eraseIdx hr, hp⟩

/-- The stop or the removal of a reload is done; only what it remembers is removed. -/
theorem Separate.cleared {s : Model} (h : Separate s) {k : Nat} {olddir : Option Dir} {old : Nat} {a b a' b' : Bool}
    (hk : s.reloads[k]? = some ⟨olddir, old, .clearing a b⟩) {stopped : List Nat} {removed : List Dir}
    (hrem : ∀ dir ∈ removed, dir ∈ s.removed ∨ olddir = some dir) :
    Separate { s with
      stopped := stopped, removed := removed, reloads := s.reloads.set k ⟨olddir, old, .clearing a' b'⟩ } := by
  obtain ⟨A, B, hl, hset, -⟩ := getElem?_split hk
  rw [hset]
  have hset' := @pending_set s A B _ ⟨olddir, old, .clearing a' b'⟩ hl fun _ h => by cases h
  have holdset := @olddir_set s A B _ ⟨olddir, old, .clearing a' b'⟩ hl rfl
  have hret : ∀ d, d ∈ removed ∨ (∃ r ∈ A ++ ⟨olddir, old, .clearing a' b'⟩ :: B, r.oldlocaldir = some d ∧
      ∃ stop remove, r.phase = .clearing stop remove) → Retired s d := by
    have hself : ∀ {d}, olddir = some d → Retired s d :=
      fun hd => Or.inr ⟨_, List.mem_of_getElem? hk, hd, a, b, rfl⟩
    rintro d (hd | ⟨r, hr, hd, hp⟩)
    · rcases hrem d hd with hd | hd
      · exact Or.inl hd
      · exact hself hd
    · rcases List.mem_append.mp hr with hr | hr
      · exact Or.inr ⟨r, hl ▸ List.mem_append_left _ hr, hd, hp⟩
      · rcases List.mem_cons.mp hr with rfl | hr
        · exact hself hd
        · exact Or.inr ⟨r, hl ▸ List.mem_append_right _ (List.mem_cons_of_mem _ hr), hd, hp⟩
  refine h.of rfl ?_ ?_ (once_replace (hl ▸ h.once) fun _ h => by cases h) fun d hd => h.retired d (hret d hd)
  · rintro d (hd | hd | hd | ⟨r, hr, hd⟩)
    · exact Or.inl (Or.inl hd)
    · exact Or.inl (Or.inr (Or.inl hd))
    · refine Or.inl (Or.inr (Or.inr ?_))
      rcases hret d (Or.inl hd) with hd | ⟨r, hr, hd, -⟩
      · exact Or.inl hd
      · exact Or.inr ⟨r, hr, hd⟩
    · exact Or.inl (Or.inr (Or.inr (Or.inr (holdset hr hd))))
  · rintro d ⟨q, hq, hp⟩
    exact ⟨q, (hset' hq hp).2, hp⟩

theorem Separate.step {s t : Model} (h : Separate s) (hs : Stepped .s3 s t) : Separate t := by
  cases hs with
  | reload => exact h.reload
  | downloaded hk => exact h.downloaded hk
  | downloadFails => exact h.erase _
  | getFails hk => exact h.getFails hk
  | stopped hk => exact h.cleared hk fun _ hd => Or.inl hd
  | removed hk =>
    refine h.cleared hk fun d hd => ?_
    split at hd
    · rcases List.mem_cons.mp hd with rfl | hd
      · exact Or.inr rfl
      · exact Or.inl hd
    · exact Or.inl hd

/-! ## The predictor in place -/

/-- The directory of a model that is not downloaded. -/
def fixedDir : Source → Option Dir
  | .file path => some (.path path)
  | _ => none

structure Fixed (dir : Option Dir) (s : Model) : Prop where
  current : current s = dir
  pending : ∀ d, Pending s d → dir = some d
  removed : ∀ d ∈ s.removed, isTemporary d = true

theorem Fixed.step {source : Source} (hsrc : source ≠ .s3) {s t : Model} (h : Fixed (fixedDir source) s)
    (hs : Stepped source s t) : Fixed (fixedDir source) t := by
  -- a reload that is cleared does not download
  have hset : ∀ {k d r'}, (∃ r ∈ s.reloads.set k r', r.phase = .downloading d) → (∀ d, r'.phase ≠ .downloading d) →
      fixedDir source = some d := by
    rintro k d r' ⟨r, hr, hp⟩ hr'
    rcases List.mem_or_eq_of_mem_set hr with hr | rfl
    · exact h.pending d ⟨r, hr, hp⟩
    · exact absurd hp (hr' d)
  cases hs with
  | reload =>
    cases source with
    | remote =>
      refine ⟨current_getPredictor .., ?_, h.removed⟩
      rintro d ⟨r, hr, hp⟩
      rcases List.mem_append.mp hr with hr | hr
      · exact h.pending d ⟨r, hr, hp⟩
      · rw [List.mem_singleton.mp hr] at hp; cases hp
    | s3 => exact absurd rfl hsrc
    | file path =>
      refine ⟨h.current, ?_, h.removed⟩
      rintro d ⟨r, hr, hp⟩
      rcases List.mem_append.mp hr with hr | hr
      · exact h.pending d ⟨r, hr, hp⟩
      · rw [List.mem_singleton.mp hr] at hp; cases hp; rfl
  | @downloaded k olddir old dir hk =>
    refine ⟨?_, fun d hd => hset hd (by intro _ h; cases h), h.removed⟩
    rw [current_getPredictor]
    exact (h.pending dir ⟨_, List.mem_of_getElem? hk, rfl⟩).symm
  | downloadFails | getFails =>
    exact ⟨h.current, fun d ⟨r, hr, hp⟩ => h.pending d ⟨r, List.mem_of_mem_eraseIdx hr, hp⟩, h.removed⟩
  | stopped => exact ⟨h.current, fun d hd => hset hd (by intro _ h; cases h), h.removed⟩
  | removed =>
    refine ⟨h.current, fun d hd => hset hd (by intro _ h; cases h), fun d hd => ?_⟩
    split at hd
    · rename_i htmp
      rcases List.mem_cons.mp hd with rfl | hd
      · exact htmp
      · exact h.removed d hd
    · exact h.removed d hd

theorem Fixed.loaded {source : Source} (hsrc : source ≠ .s3) : Fixed (fixedDir source) (loaded source) := by
  cases source with
  | s3 => exact absurd rfl hsrc
  | remote | file =>
    refine ⟨rfl, ?_, fun d hd => (List.not_mem_nil hd).elim⟩
    rintro d ⟨r, hr, -⟩
    cases hr

section Reach

variable {source : Source} {ok : Model → Event → Prop} {s : Model}

theorem Ordered.reach (h : Reach (system source) ok s) : Ordered s :=
  h.inv (fun _ h0 => h0 ▸ .loaded source) fun _ _ _ hP _ hs => hP.step (stepped hs)

theorem Separate.reach (h : Reach (system .s3) ok s) : Separate s :=
  h.inv (fun _ h0 => h0 ▸ .loaded) fun _ _ _ hP _ hs => hP.step (stepped hs)

theorem Fixed.reach (hsrc : source ≠ .s3) (h : Reach (system source) ok s) : Fixed (fixedDir source) s :=
  h.inv (fun _ h0 => h0 ▸ .loaded hsrc) fun _ _ _ hP _ hs => hP.step hsrc (stepped hs)

theorem reach_serves (hdir : ∀ dir, fixedDir source = some dir → isTemporary dir = false) (h : Reach (system source) ok s) :
    Serves s := by
  refine ⟨fun hst => Nat.lt_irrefl _ ((Ordered.reach h).stopped _ hst), fun dir hc hr => ?_⟩
  by_cases hsrc : source = .s3
  · subst hsrc
    exact (Separate.reach h).retired dir (Or.inl hr) hc
  · have hf := Fixed.reach hsrc h
    have := hdir dir (hf.current.symm.trans hc)
    rw [hf.removed dir hr] at this
    cases this

end Reach

theorem serves_iff (source : Source) : (∀ s, Reach (system source) any s → Serves s) ↔
    ∀ path, source = .file path → isTemporary (.path path) = false := by
  constructor
  · rintro h path rfl
    cases htmp : isTemporary (.path path) with
    | false => rfl
    | true =>
      -- the reload removes the directory it has just loaded
      have hr := (((Reach.init rfl : Reach (system (.file path)) any _).step .reload trivial rfl).step
        (.downloaded 0) trivial rfl).step (.removed 0) trivial rfl
      refine absurd ?_ ((h _ hr).2 (.path path) rfl)
      show Dir.path path ∈ if isTemporary (.path path) then [Dir.path path] else []
      rw [htmp]
      exact List.mem_singleton.mpr rfl
  · intro h s hr
    refine reach_serves (fun dir hd => ?_) hr
    cases source with
    | file path => cases hd; exact h path rfl
    | remote => cases hd
    | s3 => cases hd

/-! ## Reloads one after the other -/

def Done (r : Reload) : Prop := r.phase = .clearing false false

instance (r : Reload) : Decidable (Done r) := inferInstanceAs (Decidable (_ = _))

/-- No reload begins before the last one is done, and none fails to load. -/
def Alone (s : Model) : Event → Prop
  | .reload => ∀ r ∈ s.reloads, Done r
  | .downloadFails _ | .getFails _ => False
  | _ => True

/-- A predictor that was replaced is stopped, or will be; so is a directory. -/
structure Tidy (s : Model) : Prop where
  last : s.predictor + 1 = s.predictors.length
  current : current s = s.localdir
  busy : ∀ (i j : Nat) r q, s.reloads[i]? = some r → s.reloads[j]? = some q → ¬ Done r → ¬ Done q → i = j
  loading : ∀ r ∈ s.reloads, ∀ dir, r.phase = .downloading dir → r.oldpredictor = s.predictor ∧ r.oldlocaldir = s.localdir
  predictors : ∀ p < s.predictor, p ∈ s.stopped ∨ ∃ r ∈ s.reloads, r.oldpredictor = p ∧ ∃ remove, r.phase = .clearing true remove
  dirs : ∀ n < s.temporaries, .temporary n ∈ s.removed ∨ s.localdir = some (.temporary n) ∨ Pending s (.temporary n) ∨
    ∃ r ∈ s.reloads, r.oldlocaldir = some (.temporary n) ∧ ∃ stop, r.phase = .clearing stop true

section Tidy

variable {source : Source} {s t : Model}

theorem Tidy.loaded (source : Source) : Tidy (loaded source) := by
  have hbusy : ∀ (i j : Nat) (r q : Reload), ([] : List Reload)[i]? = some r → ([] : List Reload)[j]? = some q → ¬ Done r → ¬ Done q →
      i = j := by
    intro i j r q h
    cases h
  cases source with
  | remote | file =>
    exact ⟨rfl, rfl, hbusy, fun _ h => (List.not_mem_nil h).elim, fun _ h => (Nat.not_lt_zero _ h).elim,
      fun _ h => (Nat.not_lt_zero _ h).elim⟩
  | s3 =>
    refine ⟨rfl, rfl, hbusy, fun _ h => (List.not_mem_nil h).elim, fun _ h => (Nat.not_lt_zero _ h).elim, fun n hn => ?_⟩
    obtain rfl : n = 0 := Nat.lt_one_iff.mp hn
    exact Or.inr (Or.inl rfl)

/-- Among reloads that are done, a new one is the only one that is not. -/
theorem busy_append {l : List Reload} (h : ∀ r ∈ l, Done r) (r₀ : Reload) {i j : Nat} {r q : Reload}
    (hi : (l ++ [r₀])[i]? = some r) (hj : (l ++ [r₀])[j]? = some q) (hr : ¬ Done r) (hq : ¬ Done q) : i = j := by
  have hlast : ∀ {i : Nat} {r}, (l ++ [r₀])[i]? = some r → ¬ Done r → i = l.length := by
    intro i r hi hr
    by_cases hlt : i < l.length
    · rw [List.getElem?_append_left hlt] at hi
      exact absurd (h r (List.mem_of_getElem? hi)) hr
    · have := (List.getElem?_eq_some_iff.mp hi).1
      rw [List.length_append, List.length_singleton] at this
      omega
  exact (hlast hi hr).trans (hlast hj hq).symm

/-- What is or will be stopped and removed, with other reloads that are at least as far. -/
theorem Tidy.accounts (h : Tidy s) {reloads : List Reload}
    (hmem : ∀ r ∈ s.reloads, (∀ dir, r.phase ≠ .downloading dir) → r ∈ reloads) {p : Nat} (hp : p < s.predictor) :
    p ∈ s.stopped ∨ ∃ r ∈ reloads, r.oldpredictor = p ∧ ∃ remove, r.phase = .clearing true remove := by
  rcases h.predictors p hp with hp | ⟨r, hr, ho, remove, hph⟩
  · exact Or.inl hp
  · refine Or.inr ⟨r, hmem r hr fun dir hd => ?_, ho, remove, hph⟩
    rw [hph] at hd
    cases hd

theorem Tidy.reload (h : Tidy s) (hdone : ∀ r ∈ s.reloads, Done r) (hremote : source = .remote → ModelReload.current s = none) :
    Tidy (reload source s) := by
  have hmem : ∀ {r₀}, ∀ r ∈ s.reloads, r ∈ s.reloads ++ [r₀] := fun r hr => List.mem_append_left _ hr
  have hload : ∀ r ∈ s.reloads, ∀ dir, r.phase ≠ .downloading dir := fun r hr dir hd => by
    rw [hdone r hr] at hd
    cases hd
  have hdirs : ∀ {r₀}, ∀ n < s.temporaries, .temporary n ∈ s.removed ∨ s.localdir = some (.temporary n) ∨
      ∃ r ∈ s.reloads ++ [r₀], r.oldlocaldir = some (.temporary n) ∧ ∃ stop, r.phase = .clearing stop true := by
    intro r₀ n hn
    rcases h.dirs n hn with hd | hd | ⟨r, hr, hd⟩ | ⟨r, hr, hd⟩
    · exact Or.inl hd
    · exact Or.inr (Or.inl hd)
    · exact absurd hd (hload r hr _)
    · exact Or.inr (Or.inr ⟨r, hmem r hr, hd⟩)
  cases source with
  | remote =>
    refine ⟨last_getPredictor .., ?_, fun _ _ _ _ => busy_append hdone _, fun r hr dir hd => ?_, fun p hp => ?_, fun n hn => ?_⟩
    · exact (current_getPredictor ..).trans ((hremote rfl).symm.trans h.current)
    · rcases List.mem_append.mp hr with hr | hr
      · exact absurd hd (hload r hr dir)
      · rw [List.mem_singleton.mp hr] at hd; cases hd
    · by_cases hp' : p < s.predictor
      · exact h.accounts (fun r hr _ => hmem r hr) hp'
      · refine Or.inr ⟨_, List.mem_append_right _ (List.mem_singleton.mpr rfl), ?_, _, rfl⟩
        have : p < s.predictors.length := hp
        have := h.last
        show s.predictor = p
        omega
    · rcases hdirs n hn with hd | hd | hd
      · exact Or.inl hd
      · exact Or.inr (Or.inl hd)
      · exact Or.inr (Or.inr (Or.inr hd))
  | s3 =>
    refine ⟨h.last, h.current, fun _ _ _ _ => busy_append hdone _, fun r hr dir hd => ?_, fun p hp => h.accounts (fun r hr _ => hmem r hr) hp,
      fun n hn => ?_⟩
    · rcases List.mem_append.mp hr with hr | hr
      · exact absurd hd (hload r hr dir)
      · rw [List.mem_singleton.mp hr]; exact ⟨rfl, rfl⟩
    · by_cases hn' : n < s.temporaries
      · rcases hdirs n hn' with hd | hd | hd
        · exact Or.inl hd
        · exact Or.inr (Or.inl hd)
        · exact Or.inr (Or.inr (Or.inr hd))
      · obtain rfl : n = s.temporaries := Nat.le_antisymm (Nat.le_of_lt_succ hn) (Nat.le_of_not_lt hn')
        exact Or.inr (Or.inr (Or.inl ⟨_, List.mem_append_right _ (List.mem_singleton.mpr rfl), rfl⟩))
  | file path =>
    refine ⟨h.last, h.current, fun _ _ _ _ => busy_append hdone _, fun r hr dir hd => ?_, fun p hp => h.accounts (fun r hr _ => hmem r hr) hp,
      fun n hn => ?_⟩
    · rcases List.mem_append.mp hr with hr | hr
      · exact absurd hd (hload r hr dir)
      · rw [List.mem_singleton.mp hr]; exact ⟨rfl, rfl⟩
    · rcases hdirs n hn with hd | hd | hd
      · exact Or.inl hd
      · exact Or.inr (Or.inl hd)
      · exact Or.inr (Or.inr (Or.inr hd))

/-- The reload that goes on is the only one that is not done, before and after. -/
theorem Tidy.alone (h : Tidy s) {k : Nat} {r : Reload} (hk : s.reloads[k]? = some r) (hr : ¬ Done r) (r' : Reload) :
    ∀ (i : Nat) q, (s.reloads.set k r')[i]? = some q → ¬ Done q → i = k ∧ q = r' := by
  intro i q hi hq
  rw [List.getElem?_set] at hi
  split at hi
  · rename_i hik
    split at hi
    · cases hi; exact ⟨hik.symm, rfl⟩
    · cases hi
  · rename_i hik
    exact absurd (h.busy k i r q hk hi hr hq) hik

theorem Tidy.busy_set (h : Tidy s) {k : Nat} {r : Reload} (hk : s.reloads[k]? = some r) (hr : ¬ Done r) (r' : Reload) :
    ∀ (i j : Nat) p q, (s.reloads.set k r')[i]? = some p → (s.reloads.set k r')[j]? = some q → ¬ Done p → ¬ Done q → i = j :=
  fun i j p q hi hj hp hq => ((h.alone hk hr r' i p hi hp).1).trans (h.alone hk hr r' j q hj hq).1.symm

/-- The other reloads are still there. -/
theorem mem_set {l : List Reload} {k : Nat} {r r' q : Reload} (hk : l[k]? = some r) (hq : q ∈ l) (hne : q ≠ r) : q ∈ l.set k r' := by
  obtain ⟨A, B, hl, hset, -⟩ := getElem?_split hk
  rw [hset]
  rw [hl] at hq
  rcases List.mem_append.mp hq with hq | hq
  · exact List.mem_append_left _ hq
  · rcases List.mem_cons.mp hq with rfl | hq
    · exact absurd rfl hne
    · exact List.mem_append_right _ (List.mem_cons_of_mem _ hq)

theorem self_mem_set {l : List Reload} {k : Nat} {r : Reload} (hk : l[k]? = some r) (r' : Reload) : r' ∈ l.set k r' :=
  List.mem_set (List.getElem?_eq_some_iff.mp hk).1 _

theorem Tidy.downloaded (h : Tidy s) {k : Nat} {olddir : Option Dir} {old : Nat} {dir : Dir}
    (hk : s.reloads[k]? = some ⟨olddir, old, .downloading dir⟩) :
    Tidy (getPredictor
      { s with localdir := some dir, reloads := s.reloads.set k ⟨olddir, old, .clearing true olddir.isSome⟩ } (some dir)) := by
  have hr : ¬ Done ⟨olddir, old, .downloading dir⟩ := by intro hd; cases hd
  obtain ⟨hold, hdir⟩ := h.loading _ (List.mem_of_getElem? hk) dir rfl
  dsimp only at hold hdir
  refine ⟨last_getPredictor .., current_getPredictor .., h.busy_set hk hr _, fun q hq d hd => ?_, fun p hp => ?_, fun n hn => ?_⟩
  · obtain ⟨i, hi⟩ := List.mem_iff_getElem?.mp hq
    obtain ⟨-, rfl⟩ := h.alone hk hr _ i q hi fun hdone => by rw [hdone] at hd; cases hd
    cases hd
  · by_cases hp' : p < s.predictor
    · refine h.accounts (fun q hq hnot => mem_set hk hq ?_) hp'
      rintro rfl
      exact hnot dir rfl
    · refine Or.inr ⟨_, self_mem_set hk _, ?_, _, rfl⟩
      have : p < s.predictors.length := hp
      have := h.last
      show old = p
      omega
  · rcases h.dirs n hn with hd | hd | ⟨q, hq, hd⟩ | ⟨q, hq, hd, stop, hph⟩
    · exact Or.inl hd
    · refine Or.inr (Or.inr (Or.inr ⟨_, self_mem_set hk _, hdir.trans hd, true, ?_⟩))
      show Phase.clearing true olddir.isSome = _
      rw [hdir, hd, Option.isSome_some]
    · by_cases hne : q = ⟨olddir, old, .downloading dir⟩
      · subst hne
        cases hd
        exact Or.inr (Or.inl rfl)
      · exact Or.inr (Or.inr (Or.inl ⟨q, mem_set hk hq hne, hd⟩))
    · refine Or.inr (Or.inr (Or.inr ⟨q, mem_set hk hq ?_, hd, stop, hph⟩))
      rintro rfl
      cases hph

/-- The predictor that the reload remembers is stopped, or the directory removed. -/
theorem Tidy.cleared (h : Tidy s) {k : Nat} {olddir : Option Dir} {old : Nat} {a b a' b' : Bool}
    (hk : s.reloads[k]? = some ⟨olddir, old, .clearing a b⟩) (hr : ¬ Done ⟨olddir, old, .clearing a b⟩)
    {stopped : List Nat} {removed : List Dir} (hst : ∀ p, p ∈ s.stopped → p ∈ stopped) (hrem : ∀ d, d ∈ s.removed → d ∈ removed)
    (hstop : a = true → old ∈ stopped ∨ a' = true)
    (hremove : b = true → ∀ n, olddir = some (.temporary n) → .temporary n ∈ removed ∨ b' = true) :
    Tidy { s with
      stopped := stopped, removed := removed, reloads := s.reloads.set k ⟨olddir, old, .clearing a' b'⟩ } := by
  refine ⟨h.last, h.current, h.busy_set hk hr _, fun q hq d hd => ?_, fun p hp => ?_, fun n hn => ?_⟩
  · rcases List.mem_or_eq_of_mem_set hq with hq | rfl
    · exact h.loading q hq d hd
    · cases hd
  · rcases h.predictors p hp with hp | ⟨q, hq, ho, remove, hph⟩
    · exact Or.inl (hst p hp)
    · by_cases hne : q = ⟨olddir, old, .clearing a b⟩
      · subst hne
        cases ho
        cases hph
        rcases hstop rfl with hs | rfl
        · exact Or.inl hs
        · exact Or.inr ⟨_, self_mem_set hk _, rfl, _, rfl⟩
      · exact Or.inr ⟨q, mem_set hk hq hne, ho, remove, hph⟩
  · rcases h.dirs n hn with hd | hd | ⟨q, hq, hd⟩ | ⟨q, hq, hd, stop, hph⟩
    · exact Or.inl (hrem _ hd)
    · exact Or.inr (Or.inl hd)
    · refine Or.inr (Or.inr (Or.inl ⟨q, mem_set hk hq ?_, hd⟩))
      rintro rfl
      cases hd
    · by_cases hne : q = ⟨olddir, old, .clearing a b⟩
      · subst hne
        cases hph
        rcases hremove rfl n hd with hr' | rfl
        · exact Or.inl hr'
        · exact Or.inr (Or.inr (Or.inr ⟨_, self_mem_set hk _, hd, _, rfl⟩))
      · exact Or.inr (Or.inr (Or.inr ⟨q, mem_set hk hq hne, hd, stop, hph⟩))

theorem Tidy.step {e : Event} (h : Tidy s) (hremote : source = .remote → ModelReload.current s = none) (ha : Alone s e)
    (hs : step source s e = some t) : Tidy t := by
  cases e with
  | reload => cases hs; exact h.reload ha hremote
  | downloadFails | getFails => exact ha.elim
  | downloaded k =>
    rw [ModelReload.step] at hs
    split at hs
    · rename_i hk; cases hs; exact h.downloaded hk
    · cases hs
  | stopped k =>
    rw [ModelReload.step] at hs
    split at hs
    · rename_i hk
      cases hs
      exact h.cleared hk (by intro hd; cases hd) (fun _ => List.mem_cons_of_mem _) (fun _ hd => hd)
        (fun _ => Or.inl (List.mem_cons_self ..)) fun hb _ _ => Or.inr hb
    · cases hs
  | removed k =>
    rw [ModelReload.step] at hs
    split at hs
    · rename_i hk
      cases hs
      refine h.cleared hk (by intro hd; cases hd) (fun _ hp => hp) (fun d hd => ?_) Or.inr fun _ n hn => ?_
      · split
        · exact List.mem_cons_of_mem _ hd
        · exact hd
      · cases hn
        exact Or.inl (List.mem_cons_self ..)
    · cases hs

theorem Tidy.reach (h : Reach (system source) Alone s) : Tidy s := by
  have hboth : Tidy s ∧ (source = .remote → ModelReload.current s = none) := by
    induction h with
    | init h0 => exact ⟨h0 ▸ .loaded source, fun hsrc => by subst hsrc; rw [h0]; rfl⟩
    | step e hr ha hs ih =>
      refine ⟨ih.1.step ih.2 ha hs, fun hsrc => ?_⟩
      subst hsrc
      exact (Fixed.reach (by intro h; cases h) (hr.step e ha hs)).current
  exact hboth.1

end Tidy

theorem nothing_left {source : Source} {s : Model} (h : Reach (system source) Alone s) (hdone : ∀ r ∈ s.reloads, Done r) :
    (∀ p < s.predictors.length, p ∉ s.stopped → p = s.predictor) ∧
      ∀ n < s.temporaries, .temporary n ∉ s.removed → current s = some (.temporary n) := by
  have ht := Tidy.reach h
  refine ⟨fun p hp hst => ?_, fun n hn hrem => ?_⟩
  · by_cases hlt : p < s.predictor
    · rcases ht.predictors p hlt with h | ⟨r, hr, -, remove, hph⟩
      · exact absurd h hst
      · rw [hdone r hr] at hph; cases hph
    · have := ht.last
      omega
  · rw [ht.current]
    rcases ht.dirs n hn with h | h | ⟨r, hr, hd⟩ | ⟨r, hr, -, stop, hph⟩
    · exact absurd h hrem
    · exact h
    · rw [hdone r hr] at hd; cases hd
    · rw [hdone r hr] at hph; cases hph

theorem nothing_left_once : ∃ s, run (system .s3) (loaded .s3) [.reload, .downloaded 0, .removed 0, .stopped 0] = some s ∧
    (∀ p < s.predictors.length, p ∉ s.stopped → p = s.predictor) ∧
      ∀ n < s.temporaries, .temporary n ∉ s.removed → current s = some (.temporary n) := by
  have h0 : Reach (system .s3) Alone (loaded .s3) := .init rfl
  have h1 := h0.step Event.reload (fun r hr => by cases hr) rfl
  have h2 := ((h1.step (Event.downloaded 0) trivial rfl).step (Event.removed 0) trivial rfl).step (Event.stopped 0) trivial rfl
  exact ⟨_, rfl, nothing_left h2 (by decide)⟩

/-- Two reloads at the same time, each of the model as it was at first. -/
theorem overlap_leaves : ∃ s, run (system .s3) (loaded .s3)
      [.reload, .reload, .downloaded 0, .downloaded 1, .stopped 0, .stopped 1, .removed 0, .removed 1] = some s ∧
    (∀ r ∈ s.reloads, Done r) ∧ s.predictor = 2 ∧ 1 ∉ s.stopped ∧ .temporary 1 ∉ s.removed :=
  ⟨_, rfl, by decide⟩

end GenieCloud.Nlp.ModelReload
