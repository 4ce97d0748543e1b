/-
  GenieCloud.Almond.WorkerK8s — the map of engines of a Kubernetes worker
  (`almond/worker_k8s.ts`).

  An engine goes through a chain of promises that nobody waits for: its platform is
  initialized, it is opened, run and closed. Requests and the steps of the chains come in
  any order, and each pending promise can fail.

  The map should have exactly the live engines: the entry of a user is the engine created
  last for it, if that one was neither killed nor has failed or finished (`Exact`). Two
  steps break this. A chain that fails removes the entry of its user, whoever's engine
  that is; a chain that ends well removes nothing. `step_exact_iff`: from a state where
  the map is exact, these are all: a step keeps it exact and leaves the entries of newer
  engines alone exactly when it is neither (`Kept`). `engines_exact`: so in runs without
  them the map is always exact.
-/

import GenieCloud.Lib.Objects
import GenieCloud.Lib.Runs

namespace GenieCloud.Almond.WorkerK8s

open GenieCloud.Lib.Objects GenieCloud.Lib.Runs

/-! ## Engines and requests -/

/-- Where the chain of an engine stands; `skipped` ones do not open or run because the
    engine was stopped before. -/
inductive Phase
  | initializing
  | opening (skipped : Bool)
  | running (skipped : Bool)
  | closing
  | finished
  | failed
deriving DecidableEq

structure EngineState where
  userId : Nat
  running : Bool := false
  stopped : Bool := false
  /-- `obj.engine` is set. -/
  engine : Bool := false
  phase : Phase := .initializing
deriving DecidableEq

/-- Every engine ever created, oldest first, and the map from users to engines. -/
structure Worker where
  objs : List EngineState := []
  engines : Nat → Option Nat := fun _ => none

def setObj (w : Worker) (id : Nat) (obj : EngineState) : Worker := { w with objs := w.objs.set id obj }

def delete (w : Worker) (userId : Nat) : Worker := { w with engines := Function.update w.engines userId none }

/-- The chain is started before the entry is set, but takes no step before. -/
def runEngine (w : Worker) (userId : Nat) : Bool × Worker :=
  if (w.engines userId).isSome then (true, w)
  else (true, {
    objs := w.objs ++ [{ userId := userId }]
    engines := Function.update w.engines userId (some w.objs.length) })

def killEngine (w : Worker) (userId : Nat) : Bool × Worker :=
  match w.engines userId with
  | none => (false, w)
  | some id =>
    match w.objs[id]? with
    | none => (false, w)
    | some obj => (obj.engine, setObj (delete w userId) id { obj with stopped := true })

def engineStatus (w : Worker) (activityMonitor : Nat → Option String) (userId : Nat) : String :=
  match (w.engines userId).bind fun id => w.objs[id]?.map (id, ·) with
  | none => "stopped"
  | some (id, obj) =>
    if !obj.running then "stopped"
    else if obj.engine then (activityMonitor id).getD "running"
    else "running"

/-- The pending promise of a chain is fulfilled. -/
def advance (obj : EngineState) : Option EngineState :=
  match obj.phase with
  | .initializing => some { obj with engine := true, phase := .opening obj.stopped }
  | .opening _ =>
    if obj.stopped then some { obj with phase := .running true }
    else some { obj with running := true, phase := .running false }
  | .running _ => some { obj with phase := .closing }
  | .closing => some { obj with phase := .finished }
  | .finished | .failed => none

/-- The pending promise can be rejected; a skipped step resolves at once. -/
def canFail : Phase → Bool
  | .initializing | .opening false | .running false | .closing => true
  | _ => false

inductive Ev
  | runEngine (userId : Nat)
  | killEngine (userId : Nat)
  | advance (id : Nat)
  | fail (id : Nat)

def step (w : Worker) : Ev → Option Worker
  | .runEngine userId => some (runEngine w userId).2
  | .killEngine userId => some (killEngine w userId).2
  | .advance id => do
    let obj ← w.objs[id]?
    let obj ← advance obj
    return setObj w id obj
  | .fail id => do
    let obj ← w.objs[id]?
    if canFail obj.phase then return delete (setObj w id { obj with phase := .failed }) obj.userId
    else none

def sys : System Worker Ev := { init := fun w => w = {}, step := step }

/-! ## The map is exact -/

def EngineState.Live (obj : EngineState) : Prop :=
  obj.stopped = false ∧ obj.phase ≠ .failed ∧ obj.phase ≠ .finished

/-- The engine is there and live. -/
def Live (w : Worker) (id : Nat) : Prop := ∃ obj, w.objs[id]? = some obj ∧ obj.Live

def userOf (w : Worker) (id : Nat) : Option Nat := w.objs[id]?.map (·.userId)

/-- The engine is the one created last for the user. -/
def Latest (w : Worker) (userId id : Nat) : Prop :=
  userOf w id = some userId ∧ ∀ id', id < id' → userOf w id' ≠ some userId

def Exact (w : Worker) : Prop := ∀ userId id, w.engines userId = some id ↔ Latest w userId id ∧ Live w id

/-- A step of the chain of an engine leaves the entries of other engines alone. -/
def Leaves (w w' : Worker) : Ev → Prop
  | .advance id | .fail id => ∀ userId id', w.engines userId = some id' → id' ≠ id → w'.engines userId = some id'
  | _ => True

/-- After `runEngine` the user has a live engine. -/
def Runs (w' : Worker) : Ev → Prop
  | .runEngine userId => ∃ id, w'.engines userId = some id ∧ Live w' id
  | _ => True

/-- No engine fails while a newer one has its user's entry, and none that has the entry
    ends without failing. -/
def Kept (w : Worker) : Ev → Prop
  | .advance id => ∀ obj, w.objs[id]? = some obj → obj.phase = .closing → w.engines obj.userId ≠ some id
  | .fail id => ∀ obj, w.objs[id]? = some obj → ∀ id', w.engines obj.userId = some id' → id' = id
  | _ => True

/-! ## What changes with an engine -/

variable {w w' : Worker} {userId id id' : Nat} {obj obj' : EngineState} {e : Ev}

theorem getElem?_setObj (ho : w.objs[id]? = some obj) (id' : Nat) :
    (setObj w id obj').objs[id']? = if id = id' then some obj' else w.objs[id']? := getElem?_updated ho obj' id'

theorem userOf_setObj (ho : w.objs[id]? = some obj) (hu : obj'.userId = obj.userId) :
    userOf (setObj w id obj') = userOf w := by
  funext j
  unfold userOf
  rw [getElem?_setObj ho]
  by_cases h : id = j
  · subst h
    rw [if_pos rfl, ho, Option.map_some, Option.map_some, hu]
  · rw [if_neg h]

theorem live_setObj (ho : w.objs[id]? = some obj) :
    Live (setObj w id obj') id' ↔ if id = id' then obj'.Live else Live w id' := by
  unfold Live
  rw [getElem?_setObj ho]
  split
  · simp
  · rfl

theorem live_iff_obj (ho : w.objs[id]? = some obj) : Live w id ↔ obj.Live := by
  unfold Live
  simp [ho]

theorem entry_obj (hx : Exact w) (h : w.engines userId = some id) :
    ∃ obj, w.objs[id]? = some obj ∧ obj.userId = userId := by
  have := ((hx userId id).mp h).1.1
  simpa [userOf] using this

/-- An engine reported otherwise than stopped is live. -/
theorem live_of_status (hx : Exact w) {activityMonitor : Nat → Option String}
    (h : engineStatus w activityMonitor userId ≠ "stopped") : ∃ id, w.engines userId = some id ∧ Live w id := by
  unfold engineStatus at h
  cases he : w.engines userId with
  | none =>
    rw [he] at h
    exact absurd rfl h
  | some id => exact ⟨id, rfl, ((hx userId id).mp he).2⟩

/-! ## The steps -/

theorem advance_spec (h : advance obj = some obj') :
    obj'.userId = obj.userId ∧ obj'.stopped = obj.stopped ∧
      ((obj.phase ≠ .closing ∧ (obj'.Live ↔ obj.Live)) ∨ (obj.phase = .closing ∧ obj'.phase = .finished)) := by
  unfold advance at h
  cases hp : obj.phase with
  | initializing | running =>
    rw [hp] at h
    cases h
    simp [EngineState.Live, hp]
  | opening =>
    simp only [hp] at h
    split at h <;> (cases h; simp [EngineState.Live, hp])
  | closing =>
    rw [hp] at h
    cases h
    exact ⟨rfl, rfl, Or.inr ⟨rfl, rfl⟩⟩
  | finished | failed =>
    rw [hp] at h
    cases h

/-- An engine whose state changes, but not whether it is live. -/
theorem exact_setObj (hx : Exact w) (ho : w.objs[id]? = some obj) (hu : obj'.userId = obj.userId)
    (hl : obj'.Live ↔ obj.Live) : Exact (setObj w id obj') := by
  intro userId j
  unfold Latest
  rw [userOf_setObj ho hu, live_setObj ho]
  refine (hx userId j).trans (and_congr_right fun _ => ?_)
  by_cases h : id = j
  · subst h
    rw [if_pos rfl, hl]
    exact live_iff_obj ho
  · rw [if_neg h]

/-- An engine that is live no more: the map is exact if its user's entry, where it was
    this engine's, is gone. -/
theorem exact_ended (hx : Exact w) (ho : w.objs[id]? = some obj) (hu : obj'.userId = obj.userId) (hl : ¬obj'.Live)
    (hobjs : w'.objs = (setObj w id obj').objs)
    (hmap : ∀ userId j, w'.engines userId = some j ↔ w.engines userId = some j ∧ j ≠ id) : Exact w' := by
  intro userId j
  have huser : userOf w' = userOf w := by
    rw [← userOf_setObj ho hu]
    unfold userOf
    rw [hobjs]
  have hlive : Live w' j ↔ Live w j ∧ j ≠ id := by
    have : Live w' j ↔ Live (setObj w id obj') j := by
      unfold Live
      rw [hobjs]
    rw [this, live_setObj ho]
    by_cases h : id = j
    · rw [if_pos h]
      exact ⟨fun hl' => absurd hl' hl, fun h' => absurd h.symm h'.2⟩
    · rw [if_neg h]
      exact ⟨fun hl' => ⟨hl', fun e => h e.symm⟩, And.left⟩
  rw [hmap, hx, hlive, and_assoc]
  unfold Latest
  rw [huser]

/-- The worker with a new engine. -/
theorem exact_created (hx : Exact w) (userId : Nat) :
    Exact {
      objs := w.objs ++ [{ userId := userId }]
      engines := Function.update w.engines userId (some w.objs.length) } := by
  intro v j
  unfold Latest Live userOf
  simp only [getElem?_created]
  by_cases hv : v = userId
  · -- the new engine is the last one of its user
    subst hv
    rw [Function.update_self, Option.some.injEq]
    constructor
    · rintro rfl
      refine ⟨⟨by simp, fun i hi => ?_⟩, _, if_pos rfl, rfl, by simp, by simp⟩
      rw [if_neg (by omega), List.getElem?_eq_none (by omega)]
      simp
    · rintro ⟨⟨hj, hlast⟩, -⟩
      rcases Nat.lt_trichotomy j w.objs.length with h | h | h
      · exact absurd (by simp) (hlast _ h)
      · exact h.symm
      · rw [if_neg (by omega), List.getElem?_eq_none (by omega)] at hj
        simp at hj
  · rw [Function.update_of_ne hv, hx]
    have huser : ∀ i, ((if i = w.objs.length then some { userId := userId } else w.objs[i]?).map (·.userId) = some v) ↔
        userOf w i = some v := by
      intro i
      by_cases hi : i = w.objs.length
      · subst hi
        simp [userOf, Ne.symm hv]
      · rw [if_neg hi]
        rfl
    simp only [huser, ne_eq]
    unfold Latest
    apply and_congr_right
    rintro ⟨hj, -⟩
    have hne : j ≠ w.objs.length := by
      rintro rfl
      simp [userOf] at hj
    simp only [if_neg hne]
    rfl

theorem exact_runEngine (hx : Exact w) (userId : Nat) :
    Exact (runEngine w userId).2 ∧ Runs (runEngine w userId).2 (.runEngine userId) := by
  have hrun : Exact (runEngine w userId).2 ∧ ∃ id, (runEngine w userId).2.engines userId = some id := by
    unfold runEngine
    by_cases hs : (w.engines userId).isSome
    · rw [if_pos hs]
      exact ⟨hx, Option.isSome_iff_exists.mp hs⟩
    · rw [if_neg hs]
      exact ⟨exact_created hx userId, _, Function.update_self ..⟩
  obtain ⟨hx', id, hid⟩ := hrun
  exact ⟨hx', id, hid, ((hx' userId id).mp hid).2⟩

/-- Removing the entry of a user removes the one of the engine it belongs to. -/
theorem delete_engines (hx : Exact w) (ho : w.objs[id]? = some obj)
    (hentry : ∀ j, w.engines obj.userId = some j → j = id) (v j : Nat) :
    (delete w obj.userId).engines v = some j ↔ w.engines v = some j ∧ j ≠ id := by
  show Function.update w.engines obj.userId none v = some j ↔ _
  rw [removed_eq_some]
  constructor
  · rintro ⟨hv, h⟩
    refine ⟨h, ?_⟩
    rintro rfl
    obtain ⟨obj', ho', hu⟩ := entry_obj hx h
    rw [ho] at ho'
    cases ho'
    exact hv hu.symm
  · rintro ⟨h, hne⟩
    refine ⟨?_, h⟩
    rintro rfl
    exact hne (hentry j h)

theorem exact_killEngine (hx : Exact w) (userId : Nat) : Exact (killEngine w userId).2 := by
  unfold killEngine
  cases he : w.engines userId with
  | none => exact hx
  | some id =>
    obtain ⟨obj, ho, rfl⟩ := entry_obj hx he
    simp only [ho]
    have hu : EngineState.userId { obj with stopped := true } = obj.userId := rfl
    refine exact_ended hx ho hu (fun hl => Bool.noConfusion hl.1) rfl ?_
    exact delete_engines hx ho fun j hj => Option.some.inj (hj.symm.trans he)

theorem exact_advance (hx : Exact w) (ho : w.objs[id]? = some obj) (ha : advance obj = some obj') :
    Exact (setObj w id obj') ↔ (obj.phase = .closing → w.engines obj.userId ≠ some id) := by
  obtain ⟨hu, -, ⟨hp, hl⟩ | ⟨hp, hp'⟩⟩ := advance_spec ha
  · exact ⟨fun _ h => absurd h hp, fun _ => exact_setObj hx ho hu hl⟩
  · have hdead : ¬obj'.Live := fun hl => hl.2.2 hp'
    constructor
    · intro hx' _ he
      have := ((hx' obj.userId id).mp he).2
      rw [live_setObj ho, if_pos rfl] at this
      exact hdead this
    · intro hk
      refine exact_ended hx ho hu hdead rfl fun v j => ⟨fun h => ⟨h, ?_⟩, And.left⟩
      rintro rfl
      obtain ⟨o, ho', rfl⟩ := entry_obj hx h
      rw [ho] at ho'
      cases ho'
      exact hk hp h

theorem exact_fail (hx : Exact w) (ho : w.objs[id]? = some obj) :
    (Exact (delete (setObj w id { obj with phase := .failed }) obj.userId) ∧
        Leaves w (delete (setObj w id { obj with phase := .failed }) obj.userId) (.fail id)) ↔
      ∀ id', w.engines obj.userId = some id' → id' = id := by
  have hdelete : (delete (setObj w id { obj with phase := .failed }) obj.userId).engines =
      (delete w obj.userId).engines := rfl
  constructor
  · rintro ⟨-, hleaves⟩ id' he
    by_contra hne
    have := hleaves obj.userId id' he hne
    rw [hdelete] at this
    simp [delete] at this
  · intro hk
    have hmap := delete_engines hx ho hk
    have hu : EngineState.userId { obj with phase := .failed } = obj.userId := rfl
    refine ⟨exact_ended hx ho hu (fun hl => hl.2.1 rfl) rfl hmap, fun v j hj hne => ?_⟩
    rw [hdelete]
    exact (hmap v j).mpr ⟨hj, hne⟩

/-! ## Runs -/

/-- A step from an exact map keeps it exact and leaves the entries of others alone exactly
    when it is neither the failure of an engine that was replaced nor the end of one that
    is in the map. -/
theorem step_exact_iff (hx : Exact w) (h : step w e = some w') : (Exact w' ∧ Leaves w w' e ∧ Runs w' e) ↔ Kept w e := by
  cases e with
  | runEngine userId =>
    cases h
    obtain ⟨h1, h2⟩ := exact_runEngine hx userId
    exact ⟨fun _ => trivial, fun _ => ⟨h1, trivial, h2⟩⟩
  | killEngine userId =>
    cases h
    exact ⟨fun _ => trivial, fun _ => ⟨exact_killEngine hx userId, trivial, trivial⟩⟩
  | advance id =>
    simp only [step, Option.bind_eq_bind, Option.bind_eq_some_iff, Option.pure_def, Option.some.injEq] at h
    obtain ⟨obj, ho, obj', ha, rfl⟩ := h
    have hleaves : Leaves w (setObj w id obj') (.advance id) := fun _ _ hj _ => hj
    have hiff := exact_advance hx ho ha
    simp only [hleaves, Runs, and_true, hiff, Kept, ho, Option.some.injEq, forall_eq']
  | fail id =>
    simp only [step, Option.bind_eq_bind, Option.bind_eq_some_iff, Option.pure_def] at h
    obtain ⟨obj, ho, h⟩ := h
    split at h
    · cases h
      simp only [Runs, and_true, exact_fail hx ho, Kept, ho, Option.some.injEq, forall_eq']
    · cases h

theorem exact_init : Exact {} := by
  intro userId id
  simp [Latest, userOf]

/-- In every run without such steps the map is exact, and every further step keeps it so
    exactly when it is not one. -/
theorem engines_exact (h : Reach sys Kept w) :
    Exact w ∧ ∀ e w', sys.step w e = some w' → ((Exact w' ∧ Leaves w w' e ∧ Runs w' e) ↔ Kept w e) := by
  have hx : Exact w := h.inv (fun w hw => by rw [show w = {} from hw]; exact exact_init)
    (fun w e w' hx hk hs => ((step_exact_iff hx hs).mpr hk).1)
  exact ⟨hx, fun e w' hs => step_exact_iff hx hs⟩

/-- One user's engine is there to be found. -/
theorem first_engine_exact : Exact (runEngine {} 1).2 :=
  (engines_exact (.step (.runEngine 1) (.init rfl) trivial rfl)).1

/-- An engine is killed while it is initialized, a new one is started, and then the old
    one fails: the new one is live and not in the map. -/
theorem replaced_failure_evicts : ¬∀ w, Reach sys any w → Exact w := by
  intro h
  have hr : Reach sys any _ :=
    ((((Reach.init rfl).step (.runEngine 1) trivial rfl).step (.killEngine 1) trivial rfl).step
      (.runEngine 1) trivial rfl).step (.fail 0) trivial rfl
  refine absurd ((h _ hr 1 1).mpr ⟨⟨rfl, fun id hid => ?_⟩, _, rfl, rfl, by decide, by decide⟩) (fun e => nomatch e)
  match id, hid with
  | id + 2, _ => exact fun e => nomatch e

end GenieCloud.Almond.WorkerK8s
