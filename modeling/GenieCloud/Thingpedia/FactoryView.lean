/-
  GenieCloud.Thingpedia.FactoryView — what an upload that is not approved does to the list
  of factories that others get.

  The list is in the order of the devices' names. The category, the subcategory and the
  name of a device have no versions, so an upload may move its device to another list, or
  to another place of the same one: `factories_iff` says that every list stays exactly if
  the factory of the device, where one is shown, stays at its place.
-/

import GenieCloud.Thingpedia.DeviceView

namespace GenieCloud.Thingpedia

open GenieCloud.Lib

variable {V : Type} {db db' : Db V} {u : Upload V} {o : Option Nat} {C : Collation}

/-! ## Classes -/

/-- The condition that a class parameter stands for, if it is one. -/
def classOf (klass : Option String) : Option (DeviceRow → Bool) :=
  match klass.filter (· ≠ "") with
  | some klass =>
    match categories.find? (·.text = klass) with
    | some category => some fun d => d.category = category
    | none => (subcategories.find? (·.text = klass)).map fun category d => d.subcategory = category
  | none => some fun _ => true

/-- The factories of the devices that meet a condition. -/
def factoriesOf (C : Collation) (db : Db V) (org : Option Int) (p : DeviceRow → Bool) : List Factory :=
  (orderBy C (·.name) ((joinCode db org p).map factoryRow)).filterMap (·.factory)

theorem getDeviceFactories_eq (C : Collation) (db : Db V) (c : Client) (klass : Option String) :
    getDeviceFactories C db c klass = match classOf klass with
      | some p => .ok (factoriesOf C db (getOrgId (c.getOrg db)) p)
      | none => .error (.badRequest "Invalid class parameter") := by
  rw [getDeviceFactories, classOf]
  cases klass.filter (· ≠ "") with
  | none => rfl
  | some k =>
    cases hcat : categories.find? (·.text = k) with
    | some category => simp only [hcat]; rfl
    | none =>
      cases hsub : subcategories.find? (·.text = k) with
      | some category => simp only [hcat, hsub]; rfl
      | none => simp only [hcat, hsub]; rfl

theorem classOf_category (category : Category) : classOf (some category.text) =
    some fun d : DeviceRow => decide (d.category = category) := by
  cases category <;> rfl

theorem classOf_subcategory (category : Subcategory) : classOf (some category.text) =
    some fun d : DeviceRow => decide (d.subcategory = category) := by
  cases category <;> rfl

/-- A class is a category, a subcategory, or anything. -/
theorem classOf_congr {klass : Option String} {p : DeviceRow → Bool} (h : classOf klass = some p) {d d1 : DeviceRow}
    (hcat : d.category = d1.category) (hsub : d.subcategory = d1.subcategory) : p d = p d1 := by
  unfold classOf at h
  split at h
  · split at h
    · cases h
      dsimp only
      rw [hcat]
    · obtain ⟨category, -, rfl⟩ := Option.map_eq_some_iff.mp h
      dsimp only
      rw [hsub]
  · cases h
    rfl

/-! ## Places -/

/-- The factory that is shown of a device. -/
def shownFactory (org : Option Int) (db : Db V) (x : Nat × DeviceRow) : Option Factory :=
  (x.2.version org).bind fun version => (db.device_code_version x.1 version).bind (·.factory)

/-- The rows of the table, in order by their names, read as factories. -/
theorem factoriesOf_eq (C : Collation) (db : Db V) (org : Option Int) (p : DeviceRow → Bool) :
    factoriesOf C db org p = (orderBy C (·.2.name) db.device_class.rows).filterMap fun x =>
      if p x.2 then shownFactory org db x else none := by
  have hjoin : (joinCode db org p).map factoryRow = db.device_class.rows.filterMap fun x => (joinOf org p db x).map factoryRow :=
    List.map_filterMap
  have hname : ∀ (x : Nat × DeviceRow) y, (joinOf org p db x).map factoryRow = some y → y.name = x.2.name := by
    intro x y hy
    obtain ⟨⟨d, v, dcv⟩, hx, rfl⟩ := Option.map_eq_some_iff.mp hy
    rw [joinOf] at hx
    split at hx
    · obtain ⟨v1, -, hx⟩ := Option.bind_eq_some_iff.mp hx
      obtain ⟨dcv1, -, hx⟩ := Option.map_eq_some_iff.mp hx
      cases hx
      rfl
    · cases hx
  rw [factoriesOf, hjoin, orderBy_filterMap hname, List.filterMap_filterMap]
  refine List.filterMap_congr fun x _ => ?_
  rw [joinOf, shownFactory]
  split
  · cases x.2.version org with
    | none => rfl
    | some v =>
      rw [Option.bind_some, Option.bind_some]
      cases db.device_code_version x.1 v <;> rfl
  · rfl

/-- By its new name, a device has its old place among those with other factories. -/
def KeepsPlace (C : Collation) (db : Db V) (org : Option Int) (i : Nat) (old : DeviceRow) (name : String) (f : Factory) : Prop :=
  ∀ k d g, db.device_class.get? k = some d → shownFactory org db (k, d) = some g → g ≠ f →
    (k < i → C.le d.name old.name = C.le d.name name) ∧ (i < k → C.le old.name d.name = C.le name d.name)

/-- The factory that is shown of the device stays where it is. -/
def FactoryKept (C : Collation) (db : Db V) (u : Upload V) (org : Option Int) : Prop :=
  ∀ i old f, getByPrimaryKind db u.primary_kind = some (i, old) → shownFactory org db (i, old) = some f →
    getCategory u.classDef = old.category ∧ u.subcategory = old.subcategory ∧ KeepsPlace C db org i old u.name f

section Place

variable {org : Option Int} {i : Nat} {old new : DeviceRow} {f : Option Factory} {p : DeviceRow → Bool}

/-- The devices that meet a condition, with one factory for the device of the upload. -/
def reading (org : Option Int) (db : Db V) (i : Nat) (f : Option Factory) (p : DeviceRow → Bool) (x : Nat × DeviceRow) :
    Option Factory :=
  if p x.2 then if x.1 = i then f else shownFactory org db x else none

/-- The others, above and below, and the factories with them. -/
structure Placed (C : Collation) (db db' : Db V) (org : Option Int) (i : Nat) (old new : DeviceRow) (f : Option Factory)
    (A B : List (Nat × DeviceRow)) : Prop where
  above : ∀ x, x ∈ A ↔ x ∈ db.device_class.rows ∧ x.1 < i
  below : ∀ x, x ∈ B ↔ x ∈ db.device_class.rows ∧ i < x.1
  old : ∀ p, factoriesOf C db org p = (orderBy C (·.2.name) (A ++ (i, old) :: B)).filterMap (reading org db i f p)
  new : ∀ p, factoriesOf C db' org p = (orderBy C (·.2.name) (A ++ (i, new) :: B)).filterMap (reading org db i f p)

theorem placed (C : Collation) (hi : db.device_class.get? i = some old)
    (hrow : db'.device_class = db.device_class.update (fun k _ => k = i) fun _ => new)
    (hcode : ∀ k, k ≠ i → db'.device_code_version k = db.device_code_version k)
    (hold : shownFactory org db (i, old) = f) (hnew : shownFactory org db' (i, new) = f) :
    ∃ A B, Placed C db db' org i old new f A B := by
  obtain ⟨A, B, hrows, hA, hB, hrows'⟩ := Table.rows_split hi
  refine ⟨A, B, fun x => ?_, fun x => ?_, fun p => ?_, fun p => ?_⟩
  · rw [hrows, List.mem_append, List.mem_cons]
    constructor
    · intro hx
      exact ⟨Or.inl hx, hA x hx⟩
    · rintro ⟨hx | rfl | hx, hlt⟩
      · exact hx
      · exact absurd hlt (Nat.lt_irrefl _)
      · exact absurd (hB x hx) (Nat.lt_asymm hlt)
  · rw [hrows, List.mem_append, List.mem_cons]
    constructor
    · intro hx
      exact ⟨Or.inr (Or.inr hx), hB x hx⟩
    · rintro ⟨hx | rfl | hx, hlt⟩
      · exact absurd (hA x hx) (Nat.lt_asymm hlt)
      · exact absurd hlt (Nat.lt_irrefl _)
      · exact hx
  · rw [factoriesOf_eq, ← hrows]
    refine List.filterMap_congr fun x hx => ?_
    have hx' := Table.mem_rows.mp (mem_orderBy.mp hx)
    rw [reading]
    by_cases hxi : x.1 = i
    · obtain ⟨k, d⟩ := x
      obtain rfl : k = i := hxi
      rw [hi] at hx'
      cases hx'
      rw [hold, if_pos rfl]
    · rw [if_neg hxi]
  · rw [factoriesOf_eq, hrow, ← hrows']
    refine List.filterMap_congr fun x hx => ?_
    have hx' := Table.mem_rows.mp (mem_orderBy.mp hx)
    rw [Table.get?_update] at hx'
    rw [reading]
    by_cases hxi : x.1 = i
    · obtain ⟨k, d⟩ := x
      obtain rfl : k = i := hxi
      rw [hi, Option.map_some, if_pos (decide_eq_true rfl)] at hx'
      cases hx'
      rw [hnew, if_pos rfl]
    · rw [if_neg hxi, shownFactory, hcode x.1 hxi]
      rfl

variable {A B : List (Nat × DeviceRow)}

/-- A row that is no factory before and after leaves the others. -/
theorem Placed.same_of_none (h : Placed C db db' org i old new f A B) (hold : reading org db i f p (i, old) = none)
    (hnew : reading org db i f p (i, new) = none) : factoriesOf C db' org p = factoriesOf C db org p := by
  rw [h.old, h.new, filterMap_orderBy_none hold, filterMap_orderBy_none hnew]

/-- A factory that comes or goes is one more or one less. -/
theorem Placed.length (h : Placed C db db' org i old new f A B) :
    (factoriesOf C db' org p).length + (reading org db i f p (i, old)).toList.length =
      (factoriesOf C db org p).length + (reading org db i f p (i, new)).toList.length := by
  rw [h.old, h.new, length_filterMap_orderBy, length_filterMap_orderBy]
  simp only [List.filterMap_append, List.filterMap_cons, List.length_append]
  cases reading org db i f p (i, old) <;> cases reading org db i f p (i, new) <;> simp <;> omega

theorem Placed.same_iff {g : Factory} (h : Placed C db db' org i old new (some g) A B) (hold : p old = true) (hnew : p new = true) :
    factoriesOf C db' org p = factoriesOf C db org p ↔
      SamePlace C (fun x : Nat × DeviceRow => x.2.name) A B (reading org db i (some g) p) g (i, old) (i, new) := by
  have hdisj : ∀ x ∈ A, x ∉ B := by
    intro x hx hx'
    exact absurd ((h.above x).mp hx).2 (Nat.lt_asymm ((h.below x).mp hx').2)
  rw [h.old, h.new, eq_comm]
  refine filterMap_orderBy_iff hdisj ?_ ?_
  · rw [reading, if_pos hold, if_pos rfl]
  · rw [reading, if_pos hnew, if_pos rfl]

theorem Placed.samePlace {g : Factory} (h : Placed C db db' org i old new (some g) A B) (hk : KeepsPlace C db org i old new.name g) :
    SamePlace C (fun x : Nat × DeviceRow => x.2.name) A B (reading org db i (some g) p) g (i, old) (i, new) := by
  have hread : ∀ (x : Nat × DeviceRow) b, x.1 ≠ i → reading org db i (some g) p x = some b → shownFactory org db x = some b := by
    intro x b hx hb
    rw [reading, if_neg hx] at hb
    split at hb
    · exact hb
    · cases hb
  constructor
  · intro x hx b hb hne
    obtain ⟨hx, hlt⟩ := (h.above x).mp hx
    exact (hk x.1 x.2 b (Table.mem_rows.mp hx) (hread x b (Nat.ne_of_lt hlt) hb) hne).1 hlt
  · intro x hx b hb hne
    obtain ⟨hx, hlt⟩ := (h.below x).mp hx
    exact (hk x.1 x.2 b (Table.mem_rows.mp hx) (hread x b (Nat.ne_of_gt hlt) hb) hne).2 hlt

theorem Placed.keepsPlace {g : Factory} (h : Placed C db db' org i old new (some g) A B)
    (hs : SamePlace C (fun x : Nat × DeviceRow => x.2.name) A B (reading org db i (some g) fun _ => true) g (i, old) (i, new)) :
    KeepsPlace C db org i old new.name g := by
  intro k d b hk hb hne
  constructor
  · intro hlt
    refine hs.1 (k, d) ((h.above _).mpr ⟨Table.mem_rows.mpr hk, hlt⟩) b ?_ hne
    rw [reading, if_pos rfl, if_neg (Nat.ne_of_lt hlt)]
    exact hb
  · intro hlt
    refine hs.2 (k, d) ((h.below _).mpr ⟨Table.mem_rows.mpr hk, hlt⟩) b ?_ hne
    rw [reading, if_pos rfl, if_neg (Nat.ne_of_gt hlt)]
    exact hb

end Place

/-! ## The lists -/

theorem factories_iff (h : DeviceEffect db u db') (hna : u.approves = false) (hown : OwnDevice db u)
    (ho : o ≠ some u.developer_org) (hkept : CodeKept db u) {c : Client} (hc : c.getOrg db = asOrg o) (hc' : c.getOrg db' = asOrg o) :
    (∀ klass, getDeviceFactories C db' c klass = getDeviceFactories C db c klass) ↔ FactoryKept C db u (getOrgId (asOrg o)) := by
  have hclass : (∀ klass, getDeviceFactories C db' c klass = getDeviceFactories C db c klass) ↔
      ∀ klass p, classOf klass = some p → factoriesOf C db' (getOrgId (asOrg o)) p = factoriesOf C db (getOrgId (asOrg o)) p := by
    refine forall_congr' fun klass => ?_
    rw [getDeviceFactories_eq, getDeviceFactories_eq, hc, hc']
    cases classOf klass with
    | none => simp
    | some p => simp
  rw [hclass]
  cases hget : getByPrimaryKind db u.primary_kind with
  | none =>
    refine iff_of_true (fun klass p _ => ?_) fun i old f hget1 => ?_
    · have hno : ∀ {q : Prop} i old, getByPrimaryKind db u.primary_kind = some (i, old) → q := by
        intro q i old hget1
        rw [hget] at hget1
        cases hget1
      rw [factoriesOf, factoriesOf, joinCode_map_eq h hna hown ho hkept (fun i old => hno i old) fun i old _ _ => hno i old]
    · rw [hget] at hget1
      cases hget1
  | some x =>
    obtain ⟨i, old⟩ := x
    obtain ⟨hv', hv⟩ := updated_version hna hown ho hget
    cases h with
    | created hnone =>
      rw [hget] at hnone
      cases hnone
    | updated _ _ hget1 hrow hkeep _ _ _ hcode =>
      rw [hget] at hget1
      cases hget1
      have hshown : shownFactory (getOrgId (asOrg o)) db' (i, u.generalInfo (some old)) =
          shownFactory (getOrgId (asOrg o)) db (i, old) := by
        rw [shownFactory, shownFactory, hv, hv']
        cases ha : old.approved_version with
        | none => rfl
        | some v =>
          have hne : v ≠ old.developer_version + 1 := fun he => hkept i old hget (by rw [ha, he])
          rw [Option.bind_some, Option.bind_some, hcode v hne]
      obtain ⟨A, B, hplaced⟩ := placed C (getByPrimaryKind_some hget).1 hrow (fun k hk => (hkeep k hk).2) rfl hshown
      cases hf : shownFactory (getOrgId (asOrg o)) db (i, old) with
      | none =>
        rw [hf] at hplaced
        refine iff_of_true (fun klass p _ => hplaced.same_of_none ?_ ?_) fun i1 old1 f hget1 hf1 => ?_
        · rw [reading, if_pos rfl, ite_self]
        · rw [reading, if_pos rfl, ite_self]
        · rw [hget] at hget1
          cases hget1
          rw [hf] at hf1
          cases hf1
      | some f =>
        rw [hf] at hplaced
        -- a condition that holds of one of the two rows alone shows
        have hcond : ∀ p, factoriesOf C db' (getOrgId (asOrg o)) p = factoriesOf C db (getOrgId (asOrg o)) p →
            p old = true → p (u.generalInfo (some old)) = true := by
          intro p hsame hold
          by_contra hnew
          have hlen := hplaced.length (p := p)
          rw [hsame, reading, reading, if_pos hold, if_neg hnew, if_pos rfl] at hlen
          simp at hlen
        constructor
        · intro hall i1 old1 f1 hget1 hf1
          rw [hget] at hget1
          cases hget1
          rw [hf] at hf1
          cases hf1
          have hcat := hcond _ (hall _ _ (classOf_category old.category)) (decide_eq_true rfl)
          have hsub := hcond _ (hall _ _ (classOf_subcategory old.subcategory)) (decide_eq_true rfl)
          refine ⟨of_decide_eq_true hcat, of_decide_eq_true hsub, ?_⟩
          exact hplaced.keepsPlace ((hplaced.same_iff rfl rfl).mp (hall none _ rfl))
        · intro hkeeps klass p hp
          obtain ⟨hcat, hsub, hplace⟩ := hkeeps i old f hget hf
          have hpeq : p (u.generalInfo (some old)) = p old := classOf_congr hp hcat hsub
          cases hpo : p old with
          | true => exact (hplaced.same_iff hpo (hpeq.trans hpo)).mpr (hplaced.samePlace hplace)
          | false =>
            refine hplaced.same_of_none ?_ ?_
            · rw [reading, if_neg (by simp [hpo])]
            · rw [reading, if_neg (by simp [hpeq, hpo])]

end GenieCloud.Thingpedia
