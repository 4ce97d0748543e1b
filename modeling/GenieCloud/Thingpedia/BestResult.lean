/-
  GenieCloud.Thingpedia.BestResult — which of the devices that a lookup found answers an
  advertisement (`getBestResult` of `util/discovery/bluetooth.ts` and
  `util/discovery/upnp.ts`).

  `Best` is what is wanted: a device that declares exactly the advertised services, else one
  that declares all of them, else the first. Both functions compare two sorted lists
  position by position. For lists of the same length that is exact, but a device that
  declares more matches only if all it declares beyond sorts after what is advertised; and
  a service that is advertised twice matches none.

  `bestResult_iff`: the answer is a best one exactly if the first device is one anyway, or
  what is advertised is distinct and the rows of some device begin with it.
-/

import GenieCloud.Thingpedia.Discovery

namespace GenieCloud.Thingpedia.BestResult

open GenieCloud.Lib
open Discovery (uuidService uuidService_le Device DiscoveryType)

/-! ## The rows and the functions -/

/-- A device that `tryWithService` returns, with its services, which are a key of their
    table. -/
structure DiscoveryRow where
  kinds : List String
  sorted : kinds.Pairwise Utf16.le
  distinct : kinds.Nodup

/-- `services.every((u, j) => toService(u) === kinds[j])` -/
def every (toService : String → String) : (services kinds : List String) → Bool
  | [], _ => true
  | _ :: _, [] => false
  | u :: us, k :: ks => toService u == k && every toService us ks

def getBestResult (toService : String → String) (results : List DiscoveryRow) (services : List String) :
    Option DiscoveryRow :=
  match results.find? fun d => services.length == d.kinds.length && every toService services d.kinds with
  | some d => some d
  | none =>
    match results.find? fun d => every toService services d.kinds with
    | some d => some d
    | none => results.head?

def bluetoothBestResult (results : List DiscoveryRow) (uuids : List String) : Option DiscoveryRow :=
  getBestResult uuidService results uuids

def upnpBestResult (results : List DiscoveryRow) (st : List String) : Option DiscoveryRow := getBestResult id results st

/-! ## What is wanted -/

def Exactly (advertised : List String) (d : DiscoveryRow) : Prop := ∀ s, s ∈ d.kinds ↔ s ∈ advertised

def Covers (advertised : List String) (d : DiscoveryRow) : Prop := ∀ s ∈ advertised, s ∈ d.kinds

instance (advertised : List String) (d : DiscoveryRow) : Decidable (Covers advertised d) :=
  inferInstanceAs (Decidable (∀ s ∈ advertised, s ∈ d.kinds))

structure Best (results : List DiscoveryRow) (advertised : List String) (result : Option DiscoveryRow) : Prop where
  exact : (∃ d ∈ results, Exactly advertised d) → ∃ d ∈ results, result = some d ∧ Exactly advertised d
  covering : (¬∃ d ∈ results, Exactly advertised d) → (∃ d ∈ results, Covers advertised d) →
    ∃ d ∈ results, result = some d ∧ Covers advertised d
  first : (¬∃ d ∈ results, Covers advertised d) → result = results.head?

variable {toService : String → String} {results : List DiscoveryRow} {services advertised : List String} {d : DiscoveryRow}

theorem every_iff (toService : String → String) (services kinds : List String) :
    every toService services kinds = true ↔ services.map toService <+: kinds := by
  induction services generalizing kinds with
  | nil => exact iff_of_true rfl List.nil_prefix
  | cons u us ih =>
    cases kinds with
    | nil => exact iff_of_false Bool.false_ne_true fun h => by cases List.prefix_nil.mp h
    | cons k ks =>
      rw [every, Bool.and_eq_true, beq_iff_eq, ih, List.map_cons, List.cons_prefix_cons]

theorem exact_covers (h : Exactly advertised d) : Covers advertised d := fun s hs => (h s).mpr hs

theorem prefix_covers (h : advertised <+: d.kinds) : Covers advertised d := fun _ hs => h.subset hs

theorem exactly_of_eq (h : d.kinds = advertised) : Exactly advertised d := fun s => by rw [h]

/-- Of a sorted list without repetitions. -/
theorem eq_of_exactly (hsorted : advertised.Pairwise Utf16.le) (hdistinct : advertised.Nodup)
    (h : Exactly advertised d) : d.kinds = advertised :=
  ((List.perm_ext_iff_of_nodup d.distinct hdistinct).mpr h).eq_of_pairwise' d.sorted hsorted

/-! ## The best of them -/

/-- Without rows that begin with the services it is the first device. -/
theorem getBestResult_head (h : ∀ d ∈ results, ¬services.map toService <+: d.kinds) :
    getBestResult toService results services = results.head? := by
  have hno : ∀ d ∈ results, ¬every toService services d.kinds = true := fun d hd he => h d hd ((every_iff ..).mp he)
  have hprefix := List.find?_eq_none.mpr hno
  have hexact : (results.find? fun d => services.length == d.kinds.length && every toService services d.kinds) = none :=
    List.find?_eq_none.mpr fun d hd he => hno d hd (Bool.and_eq_true_iff.mp he).2
  simp only [getBestResult, hexact, hprefix]

/-- Of distinct services some rows begin with, it is a device whose rows are these if there
    is one, and else one whose rows begin with them. -/
theorem getBestResult_prefix (h : ∃ d ∈ results, services.map toService <+: d.kinds) :
    ∃ d ∈ results, getBestResult toService results services = some d ∧ services.map toService <+: d.kinds ∧
      ((∃ e ∈ results, e.kinds = services.map toService) → d.kinds = services.map toService) := by
  cases hexact : results.find? fun d => services.length == d.kinds.length && every toService services d.kinds with
  | some d =>
    have hd := List.find?_some hexact
    rw [Bool.and_eq_true, beq_iff_eq, every_iff] at hd
    refine ⟨d, List.mem_of_find?_eq_some hexact, by simp only [getBestResult, hexact], hd.2, fun _ => ?_⟩
    exact (hd.2.eq_of_length (by rw [List.length_map, hd.1])).symm
  | none =>
    have hnone : ¬∃ e ∈ results, e.kinds = services.map toService := by
      intro ⟨e, he, heq⟩
      have := List.find?_eq_none.mp hexact e he
      rw [Bool.and_eq_true, beq_iff_eq, every_iff, heq, List.length_map] at this
      exact this ⟨rfl, List.prefix_rfl⟩
    cases hprefix : results.find? fun d => every toService services d.kinds with
    | some d =>
      have hd := List.find?_some hprefix
      rw [every_iff] at hd
      exact ⟨d, List.mem_of_find?_eq_some hprefix, by simp only [getBestResult, hexact, hprefix], hd,
        fun he => absurd he hnone⟩
    | none =>
      obtain ⟨d, hd, hstart⟩ := h
      exact absurd ((every_iff ..).mpr hstart) (List.find?_eq_none.mp hprefix d hd)

theorem getBestResult_iff (hsorted : (services.map toService).Pairwise Utf16.le) :
    Best results (services.map toService) (getBestResult toService results services) ↔
      Best results (services.map toService) results.head? ∨
        ((services.map toService).Nodup ∧ ∃ d ∈ results, services.map toService <+: d.kinds) := by
  constructor
  · intro h
    by_cases hex : ∃ d ∈ results, services.map toService <+: d.kinds
    · obtain ⟨d, -, hstart⟩ := id hex
      exact .inr ⟨d.distinct.sublist hstart.sublist, hex⟩
    · have hhead := getBestResult_head fun d hd hstart => hex ⟨d, hd, hstart⟩
      exact .inl (hhead ▸ h)
  · intro h
    by_cases hex : ∃ d ∈ results, services.map toService <+: d.kinds
    · obtain ⟨d, hd, hbest, hstart, hexact⟩ := getBestResult_prefix hex
      have hdistinct := d.distinct.sublist hstart.sublist
      refine ⟨fun he => ?_, fun _ _ => ⟨d, hd, hbest, prefix_covers hstart⟩,
        fun hno => absurd ⟨d, hd, prefix_covers hstart⟩ hno⟩
      obtain ⟨e, he, heq⟩ := he
      exact ⟨d, hd, hbest, exactly_of_eq (hexact ⟨e, he, eq_of_exactly hsorted hdistinct heq⟩)⟩
    · have hhead := getBestResult_head fun d hd hstart => hex ⟨d, hd, hstart⟩
      rw [hhead]
      exact h.resolve_right fun h => hex h.2

/-- Of both functions, for any devices and any sorted list of services. -/
theorem bestResult_iff (results : List DiscoveryRow) {services : List String} (hsorted : services.Pairwise Utf16.le) :
    (Best results (services.map uuidService) (bluetoothBestResult results services) ↔
      Best results (services.map uuidService) results.head? ∨
        ((services.map uuidService).Nodup ∧ ∃ d ∈ results, services.map uuidService <+: d.kinds)) ∧
    (Best results services (upnpBestResult results services) ↔
      Best results services results.head? ∨ (services.Nodup ∧ ∃ d ∈ results, services <+: d.kinds)) := by
  constructor
  · exact getBestResult_iff (List.pairwise_map.mpr (hsorted.imp uuidService_le))
  · have hid : services.map id = services := List.map_id services
    have hmapped : (services.map id).Pairwise Utf16.le := by rw [hid]; exact hsorted
    have h : Best results (services.map id) (getBestResult id results services) ↔ _ := getBestResult_iff hmapped
    rwa [hid] at h

/-! ## In a lookup -/

section Lookup

variable {toLowerCase : String → String}

/-- A device as a lookup reads it. -/
def row (discoveryType : DiscoveryType) (d : Device toLowerCase) : DiscoveryRow where
  kinds := Discovery.kinds discoveryType d
  sorted := List.pairwise_insertionSort _ _
  distinct := Discovery.kinds_nodup discoveryType d

/-- What `Thingpedia.Discovery` answers with. -/
theorem getBestResult_row (discoveryType : DiscoveryType) (toService : String → String) (services : List String)
    (results : List (Device toLowerCase)) :
    (Discovery.getBestResult discoveryType (services.map toService) results).map (row discoveryType) =
      getBestResult toService (results.map (row discoveryType)) services := by
  have hevery : ∀ d : Device toLowerCase, every toService services (row discoveryType d).kinds =
      (services.map toService).isPrefixOf (Discovery.kinds discoveryType d) := fun d => by
    rw [Bool.eq_iff_iff, every_iff, List.isPrefixOf_iff_prefix]
    exact Iff.rfl
  have hprefix : (results.map (row discoveryType)).find? (fun d => every toService services d.kinds) =
      (results.find? fun d => (services.map toService).isPrefixOf (Discovery.kinds discoveryType d)).map
        (row discoveryType) := by
    rw [List.find?_map]
    exact congrArg (Option.map _) (congrArg (results.find? ·) (funext hevery))
  have hexact : (results.map (row discoveryType)).find?
        (fun d => services.length == d.kinds.length && every toService services d.kinds) =
      (results.find? fun d => (services.map toService).length = (Discovery.kinds discoveryType d).length &&
        (services.map toService).isPrefixOf (Discovery.kinds discoveryType d)).map (row discoveryType) := by
    rw [List.find?_map]
    refine congrArg (Option.map _) (congrArg (results.find? ·) (funext fun d => ?_))
    rw [Function.comp_apply, hevery, List.length_map]
    rfl
  rw [getBestResult, hexact, hprefix, Discovery.getBestResult, List.head?_map]
  cases results.find? fun d => (services.map toService).length = (Discovery.kinds discoveryType d).length &&
      (services.map toService).isPrefixOf (Discovery.kinds discoveryType d) with
  | some d => rfl
  | none =>
    cases results.find? fun d => (services.map toService).isPrefixOf (Discovery.kinds discoveryType d) with
    | some d => rfl
    | none => rfl

end Lookup

/-! ## Services that sort before -/

/-- A device that has one service. -/
def headset (service : String) : DiscoveryRow := ⟨[service], by simp, by simp⟩

def hub : DiscoveryRow := ⟨["a", "b", "c"], by decide, by decide⟩

def phone : DiscoveryRow := ⟨["class-phone", "uuid-a", "uuid-b"], by decide, by decide⟩

/-- The second device declares both of the advertised services, and one that sorts before. -/
theorem covering_device_passed_by :
    ¬Best [headset "b", hub] ["b", "c"] (upnpBestResult [headset "b", hub] ["b", "c"]) ∧
    ¬Best [headset "uuid-a", phone] ["uuid-a", "uuid-b"] (bluetoothBestResult [headset "uuid-a", phone] ["a", "b"]) := by
  constructor
  · intro h
    have hno : ¬∃ d ∈ [headset "b", hub], Exactly ["b", "c"] d := by
      intro ⟨d, hd, he⟩
      rcases List.mem_pair.mp hd with rfl | rfl
      · exact absurd ((he "c").mpr (by decide)) (by decide)
      · exact absurd ((he "a").mp (by decide)) (by decide)
    obtain ⟨d, -, hd, hcovers⟩ := h.covering hno ⟨hub, by simp, by decide⟩
    cases hd
    exact absurd (hcovers "c" (by decide)) (by decide)
  · intro h
    have hno : ¬∃ d ∈ [headset "uuid-a", phone], Exactly ["uuid-a", "uuid-b"] d := by
      intro ⟨d, hd, he⟩
      rcases List.mem_pair.mp hd with rfl | rfl
      · exact absurd ((he "uuid-b").mpr (by decide)) (by decide)
      · exact absurd ((he "class-phone").mp (by decide)) (by decide)
    obtain ⟨d, -, hd, hcovers⟩ := h.covering hno ⟨phone, by simp, by decide⟩
    cases hd
    exact absurd (hcovers "uuid-b" (by decide)) (by decide)

/-- Advertised with a service that sorts first, the hub is found. -/
theorem bestResult_iff_hub : Best [headset "b", hub] ["a", "b"] (upnpBestResult [headset "b", hub] ["a", "b"]) := by
  have hsorted : ["a", "b"].Pairwise Utf16.le := by decide
  exact (bestResult_iff [headset "b", hub] hsorted).2.mpr (.inr ⟨by decide, hub, by simp, ⟨["c"], rfl⟩⟩)

end GenieCloud.Thingpedia.BestResult
