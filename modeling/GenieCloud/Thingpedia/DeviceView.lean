/-
  GenieCloud.Thingpedia.DeviceView — what an upload that is not approved shows of its
  device to those that do not own it.

  They are joined with the approved version, which the upload leaves alone unless it is the
  very next one. The codes and the downloads are then those of before (`codes_eq`,
  `getDownloadVersion_eq`). The kinds of a device have no versions: examples are found by
  the same kinds exactly if those that show stay (`ofKinds_kept_iff`).
-/

import GenieCloud.Thingpedia.Client
import GenieCloud.Thingpedia.ImportDevice

namespace GenieCloud.Thingpedia

open GenieCloud.Lib

variable {V : Type} {P : Packages V} {db db1 db' : Db V} {u : Upload V} {o : Option Nat}

/-- What is done to the device by an upload. -/
inductive DeviceEffect (db : Db V) (u : Upload V) (db' : Db V) : Prop
  | created : getByPrimaryKind db u.primary_kind = none → db'.device_class = db.device_class.insert (u.generalInfo none) →
      (∀ k, k ≠ db.device_class.next → db'.device_class_kind k = db.device_class_kind k ∧
        db'.device_code_version k = db.device_code_version k) → DeviceEffect db u db'
  | updated (i : Nat) (old : DeviceRow) : getByPrimaryKind db u.primary_kind = some (i, old) →
      db'.device_class = db.device_class.update (fun k _ => k = i) (fun _ => u.generalInfo (some old)) →
      (∀ k, k ≠ i → db'.device_class_kind k = db.device_class_kind k ∧ db'.device_code_version k = db.device_code_version k) →
      (∀ k, (db'.device_class_kind i).get? k = some false ↔ k ∈ u.classDef.extends_) →
      db.device_code_version i (old.developer_version + 1) = none →
      (db'.device_code_version i (old.developer_version + 1)).isSome = true →
      (∀ v, v ≠ old.developer_version + 1 → db'.device_code_version i v = db.device_code_version i v) → DeviceEffect db u db'

/-- The tables that the schema and the dataset of an upload leave alone. -/
structure SameDevices (db db1 : Db V) : Prop where
  organizations : db1.organizations = db.organizations
  device_class : db1.device_class = db.device_class
  device_class_kind : db1.device_class_kind = db.device_class_kind
  device_code_version : db1.device_code_version = db.device_code_version

theorem Ensured.devices {classDef : ClassDef V} {developer_org j : Nat} {admin approve changed : Bool}
    (h : Ensured P db classDef developer_org admin approve db1 j changed) : SameDevices db db1 := by
  cases h with
  | alone => split <;> exact ⟨rfl, rfl, rfl, rfl⟩
  | version => exact ⟨rfl, rfl, rfl, rfl⟩
  | created => exact ⟨rfl, rfl, rfl, rfl⟩

theorem SameDevices.getByPrimaryKind (h : SameDevices db db1) (kind : String) :
    getByPrimaryKind db1 kind = getByPrimaryKind db kind := by
  rw [Thingpedia.getByPrimaryKind, h.device_class]
  rfl

theorem mem_kinds {u : Upload V} {kinds : Record Bool} (h : Record.empty.append u.kinds = some kinds) (k : String) :
    kinds.get? k = some false ↔ k ∈ u.classDef.extends_ := by
  rw [Record.empty_append h, Upload.kinds]
  simp

theorem Upload.generalInfo_approved {u : Upload V} (hna : u.approves = false) (old : DeviceRow) :
    (u.generalInfo (some old)).approved_version = old.approved_version := by
  simp [generalInfo, hna]

/-- The device is one of the organization that uploads. -/
def OwnDevice (db : Db V) (u : Upload V) : Prop :=
  ∀ i old, getByPrimaryKind db u.primary_kind = some (i, old) → old.owner = u.developer_org

theorem created_version (hna : u.approves = false) (ho : o ≠ some u.developer_org) :
    (u.generalInfo none).version (getOrgId (asOrg o)) = none := by
  rw [DeviceRow.version_of_other (by exact ho)]
  simp [Upload.generalInfo, hna]

theorem updated_version (hna : u.approves = false) (hown : OwnDevice db u) (ho : o ≠ some u.developer_org) {i : Nat} {old : DeviceRow}
    (hget : getByPrimaryKind db u.primary_kind = some (i, old)) :
    (u.generalInfo (some old)).version (getOrgId (asOrg o)) = old.approved_version ∧
      old.version (getOrgId (asOrg o)) = old.approved_version := by
  have ho' : o ≠ some old.owner := by rw [hown i old hget]; exact ho
  rw [DeviceRow.version_of_other ho', DeviceRow.version_of_other (by exact ho'), u.generalInfo_approved hna]
  exact ⟨rfl, rfl⟩

/-- What is read off the devices, row by row, tells an upload by its device alone. -/
theorem DeviceEffect.read_iff {β : Type} (F : Db V → Nat × DeviceRow → Option β) (h : DeviceEffect db u db')
    (hothers : ∀ x : Nat × DeviceRow, db'.device_class_kind x.1 = db.device_class_kind x.1 →
      db'.device_code_version x.1 = db.device_code_version x.1 → F db' x = F db x)
    (hcreated : ∀ i, F db' (i, u.generalInfo none) = none) :
    db'.device_class.rows.filterMap (F db') = db.device_class.rows.filterMap (F db) ↔
      ∀ i old, getByPrimaryKind db u.primary_kind = some (i, old) → F db' (i, u.generalInfo (some old)) = F db (i, old) := by
  cases h with
  | created hnone hrow hkeep =>
    refine iff_of_true ?_ fun i old hget => ?_
    · rw [hrow]
      show (db.device_class.rows ++ [(db.device_class.next, _)]).filterMap _ = _
      rw [List.filterMap_append, List.filterMap_cons_none (hcreated _), List.filterMap_nil, List.append_nil]
      refine List.filterMap_congr fun x hx => ?_
      obtain ⟨hk, hc⟩ := hkeep x.1 (Nat.ne_of_lt (db.device_class.below x hx))
      exact hothers x hk hc
    · rw [hget] at hnone
      cases hnone
  | updated i old hget hrow hkeep =>
    obtain ⟨A, B, hrows, hA, hB, hrows'⟩ := Table.rows_split (getByPrimaryKind_some hget).1
    rw [hrow, hrows', hrows, Table.filterMap_replace_iff]
    · constructor
      · intro he i1 old1 hget1
        rw [hget] at hget1
        cases hget1
        exact he
      · intro he
        exact he i old hget
    · intro x hx
      obtain ⟨hk, hc⟩ := hkeep x.1 (Nat.ne_of_lt (hA x hx))
      exact hothers x hk hc
    · intro x hx
      obtain ⟨hk, hc⟩ := hkeep x.1 (Nat.ne_of_gt (hB x hx))
      exact hothers x hk hc

/-! ## Code -/

/-- No version of the device is approved ahead of time. -/
def CodeKept (db : Db V) (u : Upload V) : Prop :=
  ∀ i old, getByPrimaryKind db u.primary_kind = some (i, old) → old.approved_version ≠ some (old.developer_version + 1)

/-- What the join gives for one row. -/
def joinOf (org : Option Int) (p : DeviceRow → Bool) (db : Db V) (x : Nat × DeviceRow) : Option (DeviceRow × Nat × VersionedRow) :=
  if p x.2 then (x.2.version org).bind fun version => (db.device_code_version x.1 version).map (x.2, version, ·) else none

theorem joinOf_congr (org : Option Int) (p : DeviceRow → Bool) {x : Nat × DeviceRow}
    (h : db'.device_code_version x.1 = db.device_code_version x.1) : joinOf org p db' x = joinOf org p db x := by
  rw [joinOf, joinOf, h]

theorem created_joinOf (hna : u.approves = false) (ho : o ≠ some u.developer_org) (p : DeviceRow → Bool) (db : Db V) (i : Nat) :
    joinOf (getOrgId (asOrg o)) p db (i, u.generalInfo none) = none := by
  rw [joinOf, created_version hna ho]
  split <;> rfl

section Other

variable (h : DeviceEffect db u db') (hna : u.approves = false) (hown : OwnDevice db u) (ho : o ≠ some u.developer_org)
include h hna hown ho

/-- The row of the device, joined: another row with the version it had. -/
theorem updated_joinOf (hkept : CodeKept db u) (p : DeviceRow → Bool) {i : Nat} {old : DeviceRow}
    (hget : getByPrimaryKind db u.primary_kind = some (i, old)) :
    joinOf (getOrgId (asOrg o)) p db (i, old) = (if p old then old.approved_version.bind fun version =>
      (db.device_code_version i version).map (old, version, ·) else none) ∧
    joinOf (getOrgId (asOrg o)) p db' (i, u.generalInfo (some old)) = if p (u.generalInfo (some old)) then
      old.approved_version.bind fun version => (db.device_code_version i version).map (u.generalInfo (some old), version, ·)
      else none := by
  obtain ⟨hv', hv⟩ := updated_version hna hown ho hget
  rw [joinOf, joinOf, hv, hv']
  refine ⟨rfl, ?_⟩
  cases h with
  | created hnone =>
    rw [hget] at hnone
    cases hnone
  | updated _ _ hget1 _ _ _ _ _ hcode =>
    rw [hget] at hget1
    cases hget1
    cases ha : old.approved_version with
    | none => rfl
    | some v =>
      have hne : v ≠ old.developer_version + 1 := fun he => hkept i old hget (by rw [ha, he])
      rw [Option.bind_some, Option.bind_some, hcode v hne]

/-- What is read of the devices with their versions, but for what has no versions. -/
theorem joinCode_map_eq (hkept : CodeKept db u) {β : Type} {p : DeviceRow → Bool} {g : DeviceRow × Nat × VersionedRow → β}
    (hp : ∀ i old, getByPrimaryKind db u.primary_kind = some (i, old) → p (u.generalInfo (some old)) = p old)
    (hg : ∀ i old v dcv, getByPrimaryKind db u.primary_kind = some (i, old) → g (u.generalInfo (some old), v, dcv) = g (old, v, dcv)) :
    (joinCode db' (getOrgId (asOrg o)) p).map g = (joinCode db (getOrgId (asOrg o)) p).map g := by
  show (db'.device_class.rows.filterMap (joinOf _ p db')).map g = (db.device_class.rows.filterMap (joinOf _ p db)).map g
  rw [List.map_filterMap, List.map_filterMap]
  refine (h.read_iff (fun db x => (joinOf _ p db x).map g) (fun x _ hc => ?_) fun i => ?_).mpr fun i old hget => ?_
  · rw [joinOf_congr _ _ hc]
  · rw [created_joinOf hna ho]
    rfl
  · obtain ⟨h1, h2⟩ := updated_joinOf h hna hown ho hkept p hget
    rw [h1, h2, hp i old hget]
    split
    · cases old.approved_version with
      | none => rfl
      | some v =>
        rw [Option.bind_some, Option.bind_some, Option.map_map, Option.map_map]
        refine Option.map_congr fun dcv _ => ?_
        exact hg i old v dcv hget
    · rfl

theorem getDownloadVersion_eq (hkept : CodeKept db u) (kind : String) :
    getDownloadVersion db' kind (asOrg o) = getDownloadVersion db kind (asOrg o) := by
  rw [getDownloadVersion, getDownloadVersion]
  refine congrArg selectOne (joinCode_map_eq h hna hown ho hkept (fun i old hget => ?_) fun i old v dcv hget => ?_)
  · have hkind := (getByPrimaryKind_some hget).2
    simp [Upload.generalInfo, hkind]
  · dsimp only
    rw [u.generalInfo_approved hna]
    rfl

/-- The kinds and codes that are served. -/
theorem codes_eq (hkept : CodeKept db u) (kinds : List String) :
    (getFullCodeByPrimaryKinds db' kinds (getOrgId (asOrg o))).map (fun dev => (dev.primary_kind, dev.code)) =
      (getFullCodeByPrimaryKinds db kinds (getOrgId (asOrg o))).map fun dev => (dev.primary_kind, dev.code) := by
  rw [getFullCodeByPrimaryKinds, getFullCodeByPrimaryKinds, List.map_map, List.map_map]
  refine joinCode_map_eq h hna hown ho hkept (fun i old hget => ?_) fun i old v dcv hget => ?_
  · have hkind := (getByPrimaryKind_some hget).2
    simp [Upload.generalInfo, hkind]
  · have hkind := (getByPrimaryKind_some hget).2
    simp [Upload.generalInfo, basicVersionedRow, hkind]

end Other

/-! ## Downloads -/

theorem getModuleLocation_notFound {c : Client} {kind : String} :
    getModuleLocation db c kind none = .error .notFound ↔ joinCode db (getOrgId (c.getOrg db)) (fun d => d.primary_kind = kind) = [] := by
  rw [getModuleLocation, getDownloadVersion]
  cases joinCode db (getOrgId (c.getOrg db)) (fun d => d.primary_kind = kind) with
  | nil => exact iff_of_true rfl rfl
  | cons x l =>
    refine iff_of_false (fun he => ?_) (List.cons_ne_nil x l)
    cases l with
    | nil =>
      obtain ⟨d, v, dcv⟩ := x
      cases hd : dcv.downloadable <;> simp [selectOne, bind, Except.bind, hd] at he
    | cons y l => cases he

/-- A version that is approved ahead of time is not found before it is there. -/
theorem codeKept_of_downloads (h : DeviceEffect db u db') (hna : u.approves = false) (hown : OwnDevice db u)
    (ho : o ≠ some u.developer_org) (hunique : db.device_class.Unique (·.primary_kind)) {c : Client} (hc : c.getOrg db = asOrg o)
    (hc' : c.getOrg db' = asOrg o) (hsame : ∀ kind version, getModuleLocation db' c kind version = getModuleLocation db c kind version) :
    CodeKept db u := by
  intro i old hget ha
  obtain ⟨hi, hkind⟩ := getByPrimaryKind_some hget
  obtain ⟨hv', hv⟩ := updated_version hna hown ho hget
  cases h with
  | created hnone =>
    rw [hget] at hnone
    cases hnone
  | updated _ _ hget1 hrow _ _ hfresh hstored =>
    rw [hget] at hget1
    cases hget1
    have hbefore : getModuleLocation db c u.primary_kind none = .error .notFound := by
      rw [getModuleLocation_notFound, hc, List.eq_nil_iff_forall_not_mem]
      rintro ⟨d, v, dcv⟩ hmem
      obtain ⟨k, hk, hp, hdv, hcode⟩ := mem_joinCode hmem
      obtain rfl := hunique k i d old hk hi ((of_decide_eq_true hp).trans hkind.symm)
      rw [hi] at hk
      cases hk
      rw [hv, ha] at hdv
      cases hdv
      rw [hfresh] at hcode
      cases hcode
    have hafter : getModuleLocation db' c u.primary_kind none ≠ .error .notFound := by
      rw [ne_eq, getModuleLocation_notFound, hc', List.eq_nil_iff_forall_not_mem]
      intro hnone
      obtain ⟨dcv, hdcv⟩ := Option.isSome_iff_exists.mp hstored
      refine hnone (u.generalInfo (some old), old.developer_version + 1, dcv) (List.mem_filterMap.mpr
        ⟨(i, u.generalInfo (some old)), ?_, ?_⟩)
      · rw [Table.mem_rows, hrow, Table.get?_update, hi, Option.map_some, if_pos (decide_eq_true rfl)]
      · show (if decide (u.primary_kind = u.primary_kind) = true then _ else none) = _
        rw [if_pos (decide_eq_true rfl)]
        dsimp only
        rw [hv', ha, Option.bind_some, hdcv]
        rfl
    exact hafter ((hsame _ _).trans hbefore)

/-! ## Kinds -/

/-- The kinds that examples are looked up by. -/
theorem ofKinds_iff {org : Option Int} {kinds : List String} {kind : String} : ofKinds db org kinds kind = true ↔
    kind ∈ kinds ∨ ∃ i d, db.device_class.get? i = some d ∧ (db.device_class_kind i).get? kind = some false ∧
      d.primary_kind ∈ kinds ∧ visible org d.approved_version (some d.owner) = true := by
  rw [ofKinds, Bool.or_eq_true, List.any_eq_true]
  simp only [List.contains_iff_mem, Bool.and_eq_true, decide_eq_true_eq, and_assoc]
  refine or_congr Iff.rfl ⟨?_, ?_⟩
  · rintro ⟨x, hx, hk⟩
    exact ⟨x.1, x.2, Table.mem_rows.mp hx, hk⟩
  · rintro ⟨i, d, hd, hk⟩
    exact ⟨(i, d), Table.mem_rows.mpr hd, hk⟩

/-- The kind stays one of the device, or stays none, if that shows. -/
def KindKept (db : Db V) (u : Upload V) (kind : String) : Prop :=
  ∀ i old, getByPrimaryKind db u.primary_kind = some (i, old) → old.approved_version.isSome = true →
    kind = u.primary_kind ∨ ((db.device_class_kind i).get? kind = some false ↔ kind ∈ u.classDef.extends_)

/-- For one kind, the kinds of its device. -/
theorem ofKinds_singleton {org : Option Int} (hunique : db.device_class.Unique (·.primary_kind)) {i : Nat} {d : DeviceRow}
    (hi : db.device_class.get? i = some d) (hv : visible org d.approved_version (some d.owner) = true) {kind : String}
    (hne : kind ≠ d.primary_kind) :
    ofKinds db org [d.primary_kind] kind = true ↔ (db.device_class_kind i).get? kind = some false := by
  rw [ofKinds_iff, List.mem_singleton]
  constructor
  · rintro (he | ⟨k, d1, hk, hkind, hd, -⟩)
    · exact absurd he hne
    · obtain rfl := hunique k i d1 d hk hi (List.mem_singleton.mp hd)
      exact hkind
  · intro hkind
    exact Or.inr ⟨i, d, hi, hkind, List.mem_singleton_self _, hv⟩

theorem ofKinds_kept_iff (h : DeviceEffect db u db') (hna : u.approves = false) (hown : OwnDevice db u)
    (ho : o ≠ some u.developer_org) (hunique : db.device_class.Unique (·.primary_kind)) (kind : String) :
    (∀ kinds, ofKinds db' (getOrgId (asOrg o)) kinds kind = ofKinds db (getOrgId (asOrg o)) kinds kind) ↔ KindKept db u kind := by
  cases h with
  | created hnone hrow hkeep =>
    refine iff_of_true (fun kinds => ?_) fun i old hget => ?_
    · -- the new device is hidden
      have hrows : ∀ k d, visible (getOrgId (asOrg o)) d.approved_version (some d.owner) = true →
          (db'.device_class.get? k = some d ↔ db.device_class.get? k = some d) := by
        intro k d hv
        rw [hrow, Table.get?_insert]
        by_cases hk : k = db.device_class.next
        · subst hk
          rw [if_pos rfl, Table.get?_next, Option.some.injEq]
          refine iff_of_false (fun he => ?_) (Option.some_ne_none d).symm
          subst he
          rw [show (u.generalInfo none).owner = u.developer_org from rfl, visible_of_other _ ho] at hv
          simp [Upload.generalInfo, hna] at hv
        · rw [if_neg hk]
      rw [Bool.eq_iff_iff, ofKinds_iff, ofKinds_iff]
      refine or_congr Iff.rfl ⟨?_, ?_⟩
      · rintro ⟨k, d, hd, hk, hd', hv⟩
        have hd1 := (hrows k d hv).mp hd
        rw [(hkeep k (Nat.ne_of_lt (Table.lt_next hd1))).1] at hk
        exact ⟨k, d, hd1, hk, hd', hv⟩
      · rintro ⟨k, d, hd, hk, hd', hv⟩
        rw [← (hkeep k (Nat.ne_of_lt (Table.lt_next hd))).1] at hk
        exact ⟨k, d, (hrows k d hv).mpr hd, hk, hd', hv⟩
    · rw [hget] at hnone
      cases hnone
  | updated i old hget hrow hkeep hkinds =>
    obtain ⟨hi, hkind⟩ := getByPrimaryKind_some hget
    have hi' : db'.device_class.get? i = some (u.generalInfo (some old)) := by
      rw [hrow, Table.get?_update, hi, Option.map_some, if_pos (decide_eq_true rfl)]
    have hrows : ∀ k d, k ≠ i → (db'.device_class.get? k = some d ↔ db.device_class.get? k = some d) := by
      intro k d hk
      rw [hrow, Table.get?_update]
      simp [hk]
    have hv : ∀ d : DeviceRow, d = old ∨ d = u.generalInfo (some old) →
        visible (getOrgId (asOrg o)) d.approved_version (some d.owner) = old.approved_version.isSome := by
      have ho' : o ≠ some old.owner := by rw [hown i old hget]; exact ho
      rintro d (rfl | rfl)
      · exact visible_of_other _ ho'
      · rw [u.generalInfo_approved hna]
        exact visible_of_other _ ho'
    constructor
    · intro hsame i1 old1 hget1 happ
      rw [hget] at hget1
      cases hget1
      by_cases hne : kind = u.primary_kind
      · exact Or.inl hne
      · have hunique' : db'.device_class.Unique (·.primary_kind) := by
          rw [hrow]
          refine hunique.update fun k d hd hk => ?_
          obtain rfl := of_decide_eq_true hk
          rw [hi] at hd
          cases hd
          exact hkind.symm
        have hbefore := ofKinds_singleton hunique hi ((hv old (Or.inl rfl)).trans happ) (hkind ▸ hne)
        have hafter := ofKinds_singleton hunique' hi' ((hv _ (Or.inr rfl)).trans happ) hne
        rw [hkind] at hbefore
        rw [← hbefore, ← hsame, ← hkinds kind]
        exact Or.inr hafter
    · intro hkept kinds
      rw [Bool.eq_iff_iff, ofKinds_iff, ofKinds_iff]
      constructor
      · rintro (hk | ⟨k, d, hd, hk, hd', hvis⟩)
        · exact Or.inl hk
        · by_cases hki : k = i
          · subst hki
            rw [hi'] at hd
            cases hd
            rcases hkept k old hget (by rw [← hv _ (Or.inr rfl)]; exact hvis) with rfl | he
            · exact Or.inl hd'
            · refine Or.inr ⟨k, old, hi, he.mpr ((hkinds kind).mp hk), hkind ▸ hd', ?_⟩
              rw [hv old (Or.inl rfl), ← hv _ (Or.inr rfl)]
              exact hvis
          · rw [(hkeep k hki).1] at hk
            exact Or.inr ⟨k, d, (hrows k d hki).mp hd, hk, hd', hvis⟩
      · rintro (hk | ⟨k, d, hd, hk, hd', hvis⟩)
        · exact Or.inl hk
        · by_cases hki : k = i
          · subst hki
            rw [hi] at hd
            cases hd
            have hmem : u.primary_kind ∈ kinds := hkind ▸ hd'
            rcases hkept k old hget (by rw [← hv _ (Or.inl rfl)]; exact hvis) with rfl | he
            · exact Or.inl hmem
            · refine Or.inr ⟨k, _, hi', (hkinds kind).mpr (he.mp hk), hmem, ?_⟩
              rw [hv _ (Or.inr rfl), ← hv old (Or.inl rfl)]
              exact hvis
          · rw [← (hkeep k hki).1] at hk
            exact Or.inr ⟨k, d, (hrows k d hki).mpr hd, hk, hd', hvis⟩

end GenieCloud.Thingpedia
