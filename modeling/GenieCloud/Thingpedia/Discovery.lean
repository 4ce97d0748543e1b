/-
  GenieCloud.Thingpedia.Discovery — devices found by what they advertise on the local
  network (`getDiscoveryServices` of `util/device_factories.ts`, `util/discovery/`).

  A class declares service identifiers, and for Bluetooth perhaps a device class; both are
  stored with it, as rows of one table. A lookup takes the advertised identifiers in
  order. The first that some device has a row for decides: among those devices, one
  whose sorted rows are the advertised identifiers, else one whose rows begin with
  them, else the first. With no such identifier a Bluetooth device is looked up by its
  class, and then it is the generic one.

  `discovery_found_iff` says when this finds what was declared:
  - among the rows of a device its class comes before its identifiers, so a device that
    declares both matches no advertisement position by position;
  - an identifier advertised twice makes the advertisement longer than the rows;
  - the mask of the major class lets its neighbour bits through (`a_headset_is_generic`).
-/

import GenieCloud.Lib.Utf16
import GenieCloud.Lib.Varchar
import GenieCloud.Thingpedia.Dataset

namespace GenieCloud.Thingpedia.Discovery

open GenieCloud.Lib

/-! ## Declarations -/

inductive Config where
  | bluetooth (uuids : List String) (device_class : Option String)
  | upnp (search_target : List String)
  | other
  deriving DecidableEq, Repr

structure ClassDef where
  primary_kind : String
  is_abstract : Bool
  config : Config
  deriving DecidableEq, Repr

inductive DiscoveryType where
  | bluetooth
  | upnp
  deriving DecidableEq, Repr

structure Service where
  discovery_type : DiscoveryType
  service : String
  deriving DecidableEq, Repr

section Lower

-- how a script lowers the letters of a text
variable (toLowerCase : String → String)

/-- `.replace(/^urn:/, '').replace(/:/g, '-')` -/
def replaceColons (text : String) : String :=
  let chars := text.toList
  String.ofList ((if "urn:".toList.isPrefixOf chars then chars.drop 4 else chars).map fun c => if c = ':' then '-' else c)

def upnpService (st : String) : String := replaceColons (toLowerCase st)

def uuidService (uuid : String) : String := "uuid-" ++ uuid

def classService (deviceClass : String) : String := "class-" ++ deviceClass

/-- No class is declared by an empty text. -/
def classServices : Option String → List Service
  | some deviceClass => if deviceClass = "" then [] else [⟨.bluetooth, classService deviceClass⟩]
  | none => []

def getDiscoveryServices (classDef : ClassDef) : List Service :=
  if classDef.is_abstract then []
  else match classDef.config with
    | .bluetooth uuids device_class =>
      uuids.map (fun u => ⟨.bluetooth, uuidService (toLowerCase u)⟩) ++ classServices device_class
    | .upnp search_target => search_target.map fun st => ⟨.upnp, upnpService toLowerCase st⟩
    | .other => []

/-- What the key and the column of the table take: no service twice, none that is too
    long. -/
def insertable (services : List Service) : Prop :=
  (services.map fun s => (s.discovery_type, unpadded s.service)).Nodup ∧
    ∀ s ∈ services, varchar 128 s.service = some s.service

/-- A class whose services are stored. -/
structure Device where
  classDef : ClassDef
  stored : insertable (getDiscoveryServices toLowerCase classDef)

/-! ## Lookups -/

variable {toLowerCase} (devices : List (Device toLowerCase))

/-- Every device, in the order in which the database happens to list them. -/
def getByDiscoveryService (discoveryType : DiscoveryType) (service : String) : List (Device toLowerCase) :=
  devices.filter fun d => (getDiscoveryServices toLowerCase d.classDef).any fun s =>
    s.discovery_type = discoveryType && unpadded s.service = unpadded service

def getAllDiscoveryServices (discoveryType : DiscoveryType) (d : Device toLowerCase) : List String :=
  ((getDiscoveryServices toLowerCase d.classDef).filter (·.discovery_type = discoveryType)).map (·.service)

def getByPrimaryKind (kind : String) : Except String (Device toLowerCase) :=
  match devices.find? (·.classDef.primary_kind = kind) with
  | some d => .ok d
  | none => .error "Not Found"

/-- The rows of a device, as a lookup sorts them. -/
def kinds (discoveryType : DiscoveryType) (d : Device toLowerCase) : List String :=
  Utf16.sort (getAllDiscoveryServices discoveryType d)

/-- The `getBestResult` of both modules. -/
def getBestResult (discoveryType : DiscoveryType) (services : List String) (results : List (Device toLowerCase)) :
    Option (Device toLowerCase) :=
  ((results.find? fun d =>
      services.length = (kinds discoveryType d).length && services.isPrefixOf (kinds discoveryType d)).or
    (results.find? fun d => services.isPrefixOf (kinds discoveryType d))).or results.head?

/-- The loop over the services: the first that finds a device. -/
def firstResults (discoveryType : DiscoveryType) : List String → List (Device toLowerCase)
  | [] => []
  | service :: services =>
    match getByDiscoveryService devices discoveryType service with
    | [] => firstResults discoveryType services
    | results => results

def decodeUpnp (name : String) (st : List String) : Except String (Option (Device toLowerCase)) :=
  if isSubstring "hue".toList name.toList then (getByPrimaryKind devices "com.hue").map some
  else
    let st := Utf16.sort (st.map (upnpService toLowerCase))
    match firstResults devices .upnp st with
    | [] => .ok none
    | results => .ok (getBestResult .upnp st results)

def decodeClass (btClass : Nat) : Option String :=
  let devicePart := btClass &&& 0x1FFF
  if devicePart = 0x900 then some "health"
  else if devicePart = 0x400 then some "audio-video"
  else if devicePart = 0x200 then some "phone"
  else none

def classResults (btClass : Nat) : List (Device toLowerCase) :=
  match decodeClass btClass with
  | some classKind => getByDiscoveryService devices .bluetooth (classService classKind)
  | none => []

/-- The advertised identifiers, as the rows of a device would stand. -/
def advertised (toLowerCase : String → String) (uuids : List String) : List String :=
  (Utf16.sort (uuids.map toLowerCase)).map uuidService

def decodeBluetooth (btClass : Nat) (uuids : List String) : Except String (Option (Device toLowerCase)) :=
  let services := advertised toLowerCase uuids
  match firstResults devices .bluetooth services with
  | [] =>
    match classResults devices btClass with
    | [] => (getByPrimaryKind devices "org.thingpedia.builtin.bluetooth.generic").map some
    | results => .ok (getBestResult .bluetooth services results)
  | results => .ok (getBestResult .bluetooth services results)

/-! ## What is asked -/

section Asked

variable (d : Device toLowerCase)

/-- The device declares the advertised services and no others. -/
def DeclaresSt (st : List String) : Prop := d.classDef.is_abstract = false ∧ ∃ search_target,
  d.classDef.config = .upnp search_target ∧
    ∀ s, s ∈ search_target.map (upnpService toLowerCase) ↔ s ∈ st.map (upnpService toLowerCase)

def DeclaresUuids (uuids : List String) : Prop := d.classDef.is_abstract = false ∧ ∃ declared device_class,
  d.classDef.config = .bluetooth declared device_class ∧
    ∀ u, u ∈ declared.map toLowerCase ↔ u ∈ uuids.map toLowerCase

def DeclaresClass (deviceClass : String) : Prop := d.classDef.is_abstract = false ∧ ∃ uuids declared,
  d.classDef.config = .bluetooth uuids (some declared) ∧ unpadded declared = unpadded deviceClass

def Classless : Prop := ∀ uuids device_class,
  d.classDef.config = .bluetooth uuids device_class → classServices device_class = []

end Asked

/-- The major device class, of those that have a profile. -/
def majorClass (btClass : Nat) : Option String :=
  let devicePart := btClass &&& 0x1F00
  if devicePart = 0x900 then some "health"
  else if devicePart = 0x400 then some "audio-video"
  else if devicePart = 0x200 then some "phone"
  else none

def FoundSt (name : String) (st : List String) : Prop :=
  (∃ d ∈ devices, DeclaresSt d st) → ∃ d, decodeUpnp devices name st = .ok (some d) ∧ DeclaresSt d st

def FoundUuids (btClass : Nat) (uuids : List String) : Prop :=
  (∃ d ∈ devices, DeclaresUuids d uuids) →
    ∃ d, decodeBluetooth devices btClass uuids = .ok (some d) ∧ DeclaresUuids d uuids

/-- No device has a row for an advertised identifier, and some device declares the class. -/
def OnlyClass (btClass : Nat) (uuids : List String) (deviceClass : String) : Prop :=
  majorClass btClass = some deviceClass ∧
    (∀ u ∈ uuids, getByDiscoveryService devices .bluetooth (uuidService (toLowerCase u)) = []) ∧
      ∃ d ∈ devices, DeclaresClass d deviceClass

def FoundClass (btClass : Nat) (uuids : List String) : Prop :=
  ∀ deviceClass, OnlyClass devices btClass uuids deviceClass →
    ∃ d, decodeBluetooth devices btClass uuids = .ok (some d) ∧ DeclaresClass d deviceClass

/-! ## When it is so -/

/-- No service is advertised twice, or the device listed first for the first one declares
    them all. -/
def PlainSt (st : List String) : Prop :=
  (∃ d ∈ devices, DeclaresSt d st) → match Utf16.sort (st.map (upnpService toLowerCase)) with
    | [] => False
    | first :: rest => (first :: rest).Nodup ∨
        ∃ d, (getByDiscoveryService devices .upnp first).head? = some d ∧ DeclaresSt d st

/-- The device of an advertisement without identifiers. -/
def fallback (btClass : Nat) : Option (Device toLowerCase) :=
  (classResults devices btClass).head?.or
    (getByPrimaryKind devices "org.thingpedia.builtin.bluetooth.generic").toOption

/-- No identifier is advertised twice, and one of the devices has no class; or no device
    listed for the first identifier has rows that begin with the advertised ones, and the
    first of them declares them all. -/
def PlainUuids (btClass : Nat) (uuids : List String) : Prop :=
  (∃ d ∈ devices, DeclaresUuids d uuids) → match advertised toLowerCase uuids with
    | [] => ∃ d, fallback devices btClass = some d ∧ DeclaresUuids d uuids
    | first :: rest =>
      ((first :: rest).Nodup ∧ ∃ d ∈ devices, DeclaresUuids d uuids ∧ Classless d) ∨
      ((∀ d ∈ getByDiscoveryService devices .bluetooth first, ¬(first :: rest) <+: kinds .bluetooth d) ∧
        ∃ d, (getByDiscoveryService devices .bluetooth first).head? = some d ∧ DeclaresUuids d uuids)

/-- The minor class is zero, or the generic device declares the class itself. -/
def PlainClass (btClass : Nat) (uuids : List String) : Prop :=
  ∀ deviceClass, OnlyClass devices btClass uuids deviceClass →
    btClass &&& 0xFF = 0 ∨
      ∃ d, getByPrimaryKind devices "org.thingpedia.builtin.bluetooth.generic" = .ok d ∧ DeclaresClass d deviceClass

/-! ## Rows and the best of them -/

variable {devices} {d : Device toLowerCase} {discoveryType : DiscoveryType} {services : List String}
variable {results : List (Device toLowerCase)}

theorem mem_getAll {service : String} : service ∈ getAllDiscoveryServices discoveryType d ↔
    ⟨discoveryType, service⟩ ∈ getDiscoveryServices toLowerCase d.classDef := by
  rw [getAllDiscoveryServices, List.mem_map]
  constructor
  · intro ⟨s, hs, heq⟩
    obtain ⟨hs, htype⟩ := List.mem_filter.mp hs
    rw [← heq, ← of_decide_eq_true htype]
    exact hs
  · intro hs
    exact ⟨_, List.mem_filter.mpr ⟨hs, decide_eq_true rfl⟩, rfl⟩

theorem getAll_nodup (discoveryType : DiscoveryType) (d : Device toLowerCase) :
    (getAllDiscoveryServices discoveryType d).Nodup := by
  have hkey := d.stored.1.sublist ((List.filter_sublist (p := (·.discovery_type = discoveryType))).map _)
  apply List.Nodup.of_map fun service => (discoveryType, unpadded service)
  rw [getAllDiscoveryServices, List.map_map]
  refine (congrArg List.Nodup (List.map_congr_left ?_)).mp hkey
  intro s hs
  rw [of_decide_eq_true (List.mem_filter.mp hs).2]
  rfl

theorem mem_kinds {service : String} : service ∈ kinds discoveryType d ↔
    ⟨discoveryType, service⟩ ∈ getDiscoveryServices toLowerCase d.classDef :=
  Utf16.mem_sort.trans mem_getAll

theorem kinds_nodup (discoveryType : DiscoveryType) (d : Device toLowerCase) : (kinds discoveryType d).Nodup :=
  (Utf16.sort_perm _).nodup_iff.mpr (getAll_nodup discoveryType d)

theorem mem_getBy (h : d ∈ devices) {service : String} (hs : service ∈ getAllDiscoveryServices discoveryType d) :
    d ∈ getByDiscoveryService devices discoveryType service := by
  refine List.mem_filter.mpr ⟨h, List.any_eq_true.mpr ⟨_, mem_getAll.mp hs, ?_⟩⟩
  simp only [decide_true, Bool.and_true]

/-- Of a list sorted without repetitions, the rows are all the same services exactly if they
    are the same list. -/
theorem kinds_eq_iff {sorted : List String} (hsorted : sorted.Pairwise Utf16.le) (hnodup : sorted.Nodup) :
    kinds discoveryType d = sorted ↔ ∀ s, s ∈ getAllDiscoveryServices discoveryType d ↔ s ∈ sorted := by
  have hsort : Utf16.sort sorted = sorted := List.Pairwise.insertionSort_eq hsorted
  rw [← Utf16.sort_eq_sort_iff (getAll_nodup discoveryType d) hnodup, hsort]
  rfl

theorem best_exact (h : ∃ d ∈ results, kinds discoveryType d = services) :
    ∃ d ∈ results, getBestResult discoveryType services results = some d ∧ kinds discoveryType d = services := by
  obtain ⟨d, hd, hkinds⟩ := h
  cases hfind : results.find? fun d => services.length = (kinds discoveryType d).length &&
      services.isPrefixOf (kinds discoveryType d) with
  | none =>
    have hno := List.find?_eq_none.mp hfind d hd
    rw [hkinds] at hno
    simp at hno
  | some best =>
    have hbest := List.find?_some hfind
    simp only [Bool.and_eq_true, decide_eq_true_eq] at hbest
    have hstart := List.isPrefixOf_iff_prefix.mp hbest.2
    refine ⟨best, List.mem_of_find?_eq_some hfind, ?_, (hstart.eq_of_length hbest.1).symm⟩
    rw [getBestResult, hfind]
    rfl

theorem best_head (discoveryType : DiscoveryType) (services : List String)
    (h : ∀ d ∈ results, ¬services <+: kinds discoveryType d) :
    getBestResult discoveryType services results = results.head? := by
  have hno (d : Device toLowerCase) (hd : d ∈ results) : ¬services.isPrefixOf (kinds discoveryType d) = true :=
    fun hp => h d hd (List.isPrefixOf_iff_prefix.mp hp)
  have hfind := List.find?_eq_none.mpr hno
  have hfind' : (results.find? fun d => services.length = (kinds discoveryType d).length &&
      services.isPrefixOf (kinds discoveryType d)) = none := by
    apply List.find?_eq_none.mpr
    intro d hd hp
    exact hno d hd (Bool.and_eq_true_iff.mp hp).2
  rw [getBestResult, hfind, hfind']
  rfl

/-- Any match begins with the services, if there is one. -/
theorem best_prefix {best : Device toLowerCase} (h : getBestResult discoveryType services results = some best)
    (hex : ∃ d ∈ results, services <+: kinds discoveryType d) : services <+: kinds discoveryType best := by
  simp only [getBestResult, Option.or_eq_some_iff, Option.or_eq_none_iff] at h
  rcases h with (hfind | ⟨-, hfind⟩) | ⟨⟨-, hnone⟩, -⟩
  · have hbest := List.find?_some hfind
    exact List.isPrefixOf_iff_prefix.mp (Bool.and_eq_true_iff.mp hbest).2
  · have hbest := List.find?_some hfind
    exact List.isPrefixOf_iff_prefix.mp hbest
  · obtain ⟨d, hd, hp⟩ := hex
    exact absurd (List.isPrefixOf_iff_prefix.mpr hp) (List.find?_eq_none.mp hnone d hd)

theorem best_mem (discoveryType : DiscoveryType) (services : List String) (h : results ≠ []) :
    ∃ d ∈ results, getBestResult discoveryType services results = some d := by
  cases hbest : getBestResult discoveryType services results with
  | none =>
    simp only [getBestResult, Option.or_eq_none_iff, List.head?_eq_none_iff] at hbest
    exact absurd hbest.2 h
  | some best =>
    refine ⟨best, ?_, rfl⟩
    simp only [getBestResult, Option.or_eq_some_iff] at hbest
    rcases hbest with (hfind | ⟨-, hfind⟩) | ⟨-, hhead⟩
    · exact List.mem_of_find?_eq_some hfind
    · exact List.mem_of_find?_eq_some hfind
    · exact List.mem_of_head? hhead

theorem firstResults_cons {first : String} {rest : List String}
    (h : getByDiscoveryService devices discoveryType first ≠ []) :
    firstResults devices discoveryType (first :: rest) = getByDiscoveryService devices discoveryType first := by
  rw [firstResults]
  split
  · rename_i hnil
    exact absurd hnil h
  · rfl

theorem firstResults_nil (h : ∀ s ∈ services, getByDiscoveryService devices discoveryType s = []) :
    firstResults devices discoveryType services = [] := by
  induction services with
  | nil => rfl
  | cons service services ih =>
    rw [firstResults, h service (List.mem_cons_self ..)]
    exact ih fun s hs => h s (List.mem_cons_of_mem _ hs)

/-! ## UPnP -/

variable {st : List String} {name : String}

theorem upnp_of_row {s : String} (h : s ∈ getAllDiscoveryServices .upnp d) : d.classDef.is_abstract = false ∧
    ∃ search_target, d.classDef.config = .upnp search_target := by
  have hrow := mem_getAll.mp h
  unfold getDiscoveryServices at hrow
  split at hrow
  · cases hrow
  · rename_i habstract
    refine ⟨Bool.eq_false_iff.mpr habstract, ?_⟩
    split at hrow
    · rename_i uuids device_class _
      exfalso
      cases device_class <;> simp [classServices] at hrow
    · rename_i search_target hconfig
      exact ⟨search_target, hconfig⟩
    · cases hrow

theorem mem_upnp {search_target : List String} (habstract : d.classDef.is_abstract = false)
    (hconfig : d.classDef.config = .upnp search_target) (s : String) :
    s ∈ getAllDiscoveryServices .upnp d ↔ s ∈ search_target.map (upnpService toLowerCase) := by
  rw [mem_getAll, getDiscoveryServices, habstract, if_neg Bool.false_ne_true, hconfig]
  simp [Service.mk.injEq]

theorem declaresSt_iff {s : String} (hs : s ∈ st.map (upnpService toLowerCase)) :
    DeclaresSt d st ↔
      ∀ s, s ∈ getAllDiscoveryServices .upnp d ↔ s ∈ Utf16.sort (st.map (upnpService toLowerCase)) := by
  constructor
  · intro ⟨habstract, search_target, hconfig, hst⟩ s
    rw [mem_upnp habstract hconfig, Utf16.mem_sort]
    exact hst s
  · intro hrows
    obtain ⟨habstract, search_target, hconfig⟩ := upnp_of_row ((hrows s).mpr (Utf16.mem_sort.mpr hs))
    refine ⟨habstract, search_target, hconfig, ?_⟩
    intro s
    rw [← mem_upnp habstract hconfig, hrows s, Utf16.mem_sort]

theorem upnp_found_iff (devices : List (Device toLowerCase)) (hname : isSubstring "hue".toList name.toList = false)
    (st : List String) : FoundSt devices name st ↔ PlainSt devices st := by
  unfold FoundSt PlainSt decodeUpnp
  rw [hname]
  refine imp_congr_right ?_
  intro ⟨e, he, hexact⟩
  have hsorted : (Utf16.sort (st.map (upnpService toLowerCase))).Pairwise Utf16.le := List.pairwise_insertionSort _ _
  cases hsort : Utf16.sort (st.map (upnpService toLowerCase)) with
  | nil => simp [firstResults]
  | cons first rest =>
    have hfirst : first ∈ st.map (upnpService toLowerCase) := by
      rw [← Utf16.mem_sort, hsort]
      exact List.mem_cons_self ..
    have hrows (d : Device toLowerCase) := declaresSt_iff (d := d) hfirst
    rw [hsort] at hsorted
    simp only [hsort] at hrows
    have hmem : e ∈ getByDiscoveryService devices .upnp first :=
      mem_getBy he (((hrows e).mp hexact first).mpr (List.mem_cons_self ..))
    have hne : getByDiscoveryService devices .upnp first ≠ [] := List.ne_nil_of_mem hmem
    have hdecode : (match firstResults devices .upnp (first :: rest) with
        | [] => (Except.ok none : Except String (Option (Device toLowerCase)))
        | results => .ok (getBestResult .upnp (first :: rest) results)) =
        .ok (getBestResult .upnp (first :: rest) (getByDiscoveryService devices .upnp first)) := by
      rw [firstResults_cons hne]
      split
      · rename_i hnil
        exact absurd hnil hne
      · rfl
    simp only [Bool.false_eq_true, if_false, hdecode, Except.ok.injEq]
    by_cases hnodup : (first :: rest).Nodup
    · refine iff_of_true ?_ (.inl hnodup)
      obtain ⟨d, -, hbest, hkinds⟩ := best_exact ⟨e, hmem, (kinds_eq_iff hsorted hnodup).mpr ((hrows e).mp hexact)⟩
      exact ⟨d, hbest, (hrows d).mpr ((kinds_eq_iff hsorted hnodup).mp hkinds)⟩
    · have hno : ∀ d ∈ getByDiscoveryService devices .upnp first, ¬(first :: rest) <+: kinds .upnp d :=
        fun d _ hp => hnodup ((kinds_nodup .upnp d).sublist hp.sublist)
      rw [best_head _ _ hno, or_iff_right hnodup]

/-! ## Bluetooth -/

variable {uuids : List String} {btClass : Nat}

theorem encode_append (s t : String) : Utf16.encode (s ++ t).toList = Utf16.encode s.toList ++ Utf16.encode t.toList := by
  rw [String.toList_append, Utf16.encode, List.flatMap_append]
  rfl

theorem append_le_append {us vs : List Nat} (h : us ≤ vs) (ws : List Nat) : ws ++ us ≤ ws ++ vs := by
  induction ws with
  | nil => exact h
  | cons w ws ih => exact List.cons_le_cons w ih

theorem uuidService_le {u v : String} (h : Utf16.le u v) : Utf16.le (uuidService u) (uuidService v) := by
  show Utf16.encode ("uuid-" ++ u).toList ≤ Utf16.encode ("uuid-" ++ v).toList
  rw [encode_append, encode_append]
  exact append_le_append h _

theorem uuidService_injective {u v : String} (h : uuidService u = uuidService v) : u = v := by
  have hlist := congrArg String.toList h
  rw [uuidService, uuidService, String.toList_append, String.toList_append] at hlist
  exact String.toList_injective (List.append_cancel_left hlist)

/-- A class comes before every identifier. -/
theorem not_uuidService_le (u c : String) : ¬Utf16.le (uuidService u) (classService c) := by
  apply not_le_of_gt
  show Utf16.encode ("class-" ++ c).toList < Utf16.encode ("uuid-" ++ u).toList
  rw [encode_append, encode_append]
  exact List.Lex.rel (show 99 < 117 by decide)

theorem uuidService_ne (u c : String) : uuidService u ≠ classService c := by
  intro h
  apply not_uuidService_le u c
  rw [h]
  exact Std.Refl.refl (r := Utf16.le) _

theorem bluetooth_of_row {s : String} (h : s ∈ getAllDiscoveryServices .bluetooth d) : d.classDef.is_abstract = false ∧
    ∃ uuids device_class, d.classDef.config = .bluetooth uuids device_class := by
  have hrow := mem_getAll.mp h
  unfold getDiscoveryServices at hrow
  split at hrow
  · cases hrow
  · rename_i habstract
    refine ⟨Bool.eq_false_iff.mpr habstract, ?_⟩
    split at hrow
    · rename_i uuids device_class hconfig
      exact ⟨uuids, device_class, hconfig⟩
    · simp at hrow
    · cases hrow

theorem mem_bluetooth {declared : List String} {device_class : Option String} (habstract : d.classDef.is_abstract = false)
    (hconfig : d.classDef.config = .bluetooth declared device_class) (s : String) :
    s ∈ getAllDiscoveryServices .bluetooth d ↔
      (∃ u ∈ declared.map toLowerCase, s = uuidService u) ∨ ⟨.bluetooth, s⟩ ∈ classServices device_class := by
  rw [mem_getAll, getDiscoveryServices, habstract, if_neg Bool.false_ne_true, hconfig]
  simp only [List.mem_append, List.mem_map, Service.mk.injEq, true_and, exists_exists_and_eq_and]
  refine or_congr_left (exists_congr fun u => and_congr_right fun _ => eq_comm)

theorem classServices_cases (device_class : Option String) : classServices device_class = [] ∨
    ∃ c, device_class = some c ∧ classServices device_class = [⟨.bluetooth, classService c⟩] := by
  cases device_class with
  | none => exact .inl rfl
  | some c =>
    by_cases hc : c = ""
    · exact .inl (if_pos hc)
    · exact .inr ⟨c, rfl, if_neg hc⟩

theorem mem_uuid {declared : List String} {device_class : Option String} (habstract : d.classDef.is_abstract = false)
    (hconfig : d.classDef.config = .bluetooth declared device_class) (u : String) :
    uuidService u ∈ getAllDiscoveryServices .bluetooth d ↔ u ∈ declared.map toLowerCase := by
  rw [mem_bluetooth habstract hconfig]
  constructor
  · intro h
    rcases h with ⟨v, hv, heq⟩ | h
    · rw [uuidService_injective heq]
      exact hv
    · rcases classServices_cases device_class with hnone | ⟨c, -, hclass⟩
      · rw [hnone] at h
        exact (List.not_mem_nil h).elim
      · rw [hclass, List.mem_singleton] at h
        exact absurd (congrArg Service.service h) (uuidService_ne u c)
  · intro h
    exact .inl ⟨u, h, rfl⟩

theorem advertised_sorted (toLowerCase : String → String) (uuids : List String) :
    (advertised toLowerCase uuids).Pairwise Utf16.le :=
  List.pairwise_map.mpr ((List.pairwise_insertionSort Utf16.le _).imp uuidService_le)

theorem mem_advertised {s : String} :
    s ∈ advertised toLowerCase uuids ↔ ∃ u ∈ uuids.map toLowerCase, s = uuidService u := by
  rw [advertised, List.mem_map]
  refine exists_congr fun u => ?_
  rw [Utf16.mem_sort, eq_comm]

theorem uuidService_mem_advertised {u : String} :
    uuidService u ∈ advertised toLowerCase uuids ↔ u ∈ uuids.map toLowerCase := by
  rw [mem_advertised]
  constructor
  · intro ⟨v, hv, heq⟩
    rw [uuidService_injective heq]
    exact hv
  · intro h
    exact ⟨u, h, rfl⟩

theorem declaresUuids_rows (h : DeclaresUuids d uuids) (u : String) :
    uuidService u ∈ getAllDiscoveryServices .bluetooth d ↔ uuidService u ∈ advertised toLowerCase uuids := by
  obtain ⟨habstract, declared, device_class, hconfig, huuids⟩ := h
  rw [mem_uuid habstract hconfig, huuids, uuidService_mem_advertised]

/-- Its rows are the advertised identifiers if the device declares them and no class. -/
theorem declaresUuids_classless_iff {s : String} (hs : s ∈ advertised toLowerCase uuids) :
    DeclaresUuids d uuids ∧ Classless d ↔
      ∀ s, s ∈ getAllDiscoveryServices .bluetooth d ↔ s ∈ advertised toLowerCase uuids := by
  constructor
  · intro ⟨⟨habstract, declared, device_class, hconfig, huuids⟩, hclassless⟩ s
    rw [mem_bluetooth habstract hconfig, hclassless declared device_class hconfig, mem_advertised]
    simp only [huuids, List.not_mem_nil, or_false]
  · intro hrows
    obtain ⟨habstract, declared, device_class, hconfig⟩ := bluetooth_of_row ((hrows s).mpr hs)
    refine ⟨⟨habstract, declared, device_class, hconfig, ?_⟩, ?_⟩
    · intro u
      rw [← mem_uuid habstract hconfig, hrows, uuidService_mem_advertised]
    · intro declared' device_class' hconfig'
      rw [hconfig] at hconfig'
      cases hconfig'
      rcases classServices_cases device_class with hnone | ⟨c, -, hclass⟩
      · exact hnone
      · have hmem : ⟨.bluetooth, classService c⟩ ∈ classServices device_class := by
          rw [hclass]
          exact List.mem_cons_self ..
        obtain ⟨u, -, heq⟩ := mem_advertised.mp ((hrows _).mp ((mem_bluetooth habstract hconfig _).mpr (.inr hmem)))
        exact absurd heq.symm (uuidService_ne u c)

/-- No rows of a device with a class begin with an identifier. -/
theorem classless_of_prefix {first : String} {rest : List String} (h : (first :: rest) <+: kinds .bluetooth d)
    (hfirst : first ∈ advertised toLowerCase uuids) : Classless d := by
  intro declared device_class hconfig
  obtain ⟨u, -, rfl⟩ := mem_advertised.mp hfirst
  have hmem (s : String) : s ∈ kinds .bluetooth d ↔ s ∈ getAllDiscoveryServices .bluetooth d := Utf16.mem_sort
  obtain ⟨habstract, -⟩ := bluetooth_of_row ((hmem _).mp (h.subset (List.mem_cons_self ..)))
  have hsorted : (kinds .bluetooth d).Pairwise Utf16.le := List.pairwise_insertionSort _ _
  obtain ⟨tail, htail⟩ := h
  rcases classServices_cases device_class with hnone | ⟨c, -, hclass⟩
  · exact hnone
  · have hrow : classService c ∈ kinds .bluetooth d := by
      rw [hmem, mem_bluetooth habstract hconfig, hclass]
      exact .inr (List.mem_cons_self ..)
    rw [← htail, List.cons_append] at hsorted hrow
    rcases List.mem_cons.mp hrow with heq | hrow
    · exact absurd heq.symm (uuidService_ne u c)
    · exact absurd ((List.pairwise_cons.mp hsorted).1 _ hrow) (not_uuidService_le u c)

theorem getBy_kinds_ne_nil {service : String} (h : d ∈ getByDiscoveryService devices discoveryType service) :
    kinds discoveryType d ≠ [] := by
  obtain ⟨s, hs, hrow⟩ := List.any_eq_true.mp (List.mem_filter.mp h).2
  rw [Bool.and_eq_true, decide_eq_true_eq] at hrow
  apply List.ne_nil_of_mem (a := s.service)
  rw [mem_kinds, ← hrow.1]
  exact hs

theorem best_nil (h : ∀ d ∈ results, kinds discoveryType d ≠ []) :
    getBestResult discoveryType [] results = results.head? := by
  cases results with
  | nil => rfl
  | cons d results =>
    have hfind : ((d :: results).find? fun d => ([] : List String).length = (kinds discoveryType d).length &&
        ([] : List String).isPrefixOf (kinds discoveryType d)) = none := by
      apply List.find?_eq_none.mpr
      intro d' hd' hp
      have hlen := of_decide_eq_true (Bool.and_eq_true_iff.mp hp).1
      exact h d' hd' (List.eq_nil_of_length_eq_zero hlen.symm)
    rw [getBestResult, hfind]
    rfl

theorem mem_classResults (h : d ∈ classResults devices btClass) : kinds .bluetooth d ≠ [] := by
  unfold classResults at h
  split at h
  · exact getBy_kinds_ne_nil h
  · exact (List.not_mem_nil h).elim

/-- An advertisement that no device has an identifier of. -/
theorem decode_unmatched (h : firstResults devices .bluetooth (advertised toLowerCase uuids) = []) :
    decodeBluetooth devices btClass uuids = match classResults devices btClass with
      | [] => (getByPrimaryKind devices "org.thingpedia.builtin.bluetooth.generic").map some
      | results => .ok (getBestResult .bluetooth (advertised toLowerCase uuids) results) := by
  simp only [decodeBluetooth, h]

theorem decode_nil (huuids : advertised toLowerCase uuids = []) :
    decodeBluetooth devices btClass uuids = .ok (some d) ↔ fallback devices btClass = some d := by
  have hunmatched : firstResults devices .bluetooth (advertised toLowerCase uuids) = [] := by
    rw [huuids]
    rfl
  rw [decode_unmatched hunmatched, huuids, fallback]
  cases hclass : classResults devices btClass with
  | nil =>
    cases hgeneric : getByPrimaryKind devices "org.thingpedia.builtin.bluetooth.generic" with
    | error err => simp [Except.map, Except.toOption]
    | ok generic => simp [Except.map, Except.toOption]
  | cons best results =>
    have hbest : getBestResult .bluetooth [] (best :: results) = some best :=
      best_nil fun d hd => mem_classResults (by rw [hclass]; exact hd)
    show Except.ok (getBestResult .bluetooth [] (best :: results)) = _ ↔ _
    rw [hbest]
    simp

theorem decode_cons {first : String} {rest : List String} (huuids : advertised toLowerCase uuids = first :: rest)
    (h : getByDiscoveryService devices .bluetooth first ≠ []) : decodeBluetooth devices btClass uuids =
      .ok (getBestResult .bluetooth (first :: rest) (getByDiscoveryService devices .bluetooth first)) := by
  simp only [decodeBluetooth, huuids, firstResults_cons h]

theorem uuids_found_iff (devices : List (Device toLowerCase)) (btClass : Nat) (uuids : List String) :
    FoundUuids devices btClass uuids ↔ PlainUuids devices btClass uuids := by
  unfold FoundUuids PlainUuids
  refine imp_congr_right ?_
  intro ⟨e, he, hexact⟩
  have hsorted := advertised_sorted toLowerCase uuids
  cases huuids : advertised toLowerCase uuids with
  | nil => simp only [decode_nil huuids]
  | cons first rest =>
    have hfirst : first ∈ advertised toLowerCase uuids := by
      rw [huuids]
      exact List.mem_cons_self ..
    have hmem : e ∈ getByDiscoveryService devices .bluetooth first := by
      obtain ⟨u, -, rfl⟩ := mem_advertised.mp hfirst
      exact mem_getBy he ((declaresUuids_rows hexact u).mpr hfirst)
    have hplain (d : Device toLowerCase) := declaresUuids_classless_iff (d := d) hfirst
    rw [decode_cons huuids (List.ne_nil_of_mem hmem)]
    simp only [Except.ok.injEq]
    rw [huuids] at hsorted
    simp only [huuids] at hplain
    constructor
    · intro ⟨d, hbest, hd⟩
      by_cases hp : ∃ d ∈ getByDiscoveryService devices .bluetooth first, first :: rest <+: kinds .bluetooth d
      · have hstart := best_prefix hbest hp
        have hne := List.ne_nil_of_mem hmem
        obtain ⟨d', hd', hbest'⟩ := best_mem .bluetooth (first :: rest) hne
        obtain rfl := Option.some.inj (hbest.symm.trans hbest')
        exact .inl ⟨(kinds_nodup .bluetooth d).sublist hstart.sublist, d, (List.mem_filter.mp hd').1, hd,
          classless_of_prefix hstart hfirst⟩
      · have hno : ∀ d ∈ getByDiscoveryService devices .bluetooth first, ¬first :: rest <+: kinds .bluetooth d :=
          fun d hd hp' => hp ⟨d, hd, hp'⟩
        refine .inr ⟨hno, d, ?_, hd⟩
        rw [← best_head _ _ hno]
        exact hbest
    · intro h
      rcases h with ⟨hnodup, d, hd, hdeclares, hclassless⟩ | ⟨hno, d, hhead, hd⟩
      · have hrows := (hplain d).mp ⟨hdeclares, hclassless⟩
        have hlisted := mem_getBy hd ((hrows first).mpr (List.mem_cons_self ..))
        obtain ⟨best, -, hbest, hkinds⟩ := best_exact ⟨d, hlisted, (kinds_eq_iff hsorted hnodup).mpr hrows⟩
        exact ⟨best, hbest, ((hplain best).mpr ((kinds_eq_iff hsorted hnodup).mp hkinds)).1⟩
      · refine ⟨d, ?_, hd⟩
        rw [best_head _ _ hno]
        exact hhead

/-! ## Classes -/

theorem unpadded_uuidService (u : String) : unpadded (uuidService u) = "uuid-".toList ++ unpadded u :=
  unpadded_append (by decide) u

theorem unpadded_classService (c : String) : unpadded (classService c) = "class-".toList ++ unpadded c :=
  unpadded_append (by decide) c

theorem mem_of_declaresClass {deviceClass : String} (h : d ∈ devices) (hne : unpadded deviceClass ≠ [])
    (hclass : DeclaresClass d deviceClass) : d ∈ getByDiscoveryService devices .bluetooth (classService deviceClass) := by
  obtain ⟨habstract, uuids, c, hconfig, hc⟩ := hclass
  have hempty : c ≠ "" := by
    intro hempty
    subst hempty
    exact hne hc.symm
  have hrow : ⟨.bluetooth, classService c⟩ ∈ getDiscoveryServices toLowerCase d.classDef := by
    rw [getDiscoveryServices, habstract, if_neg Bool.false_ne_true, hconfig]
    refine List.mem_append_right _ ?_
    rw [classServices, if_neg hempty]
    exact List.mem_cons_self ..
  refine List.mem_filter.mpr ⟨h, List.any_eq_true.mpr ⟨_, hrow, ?_⟩⟩
  rw [unpadded_classService, unpadded_classService, hc]
  simp only [decide_true, Bool.and_true]

theorem declaresClass_of_mem {deviceClass : String}
    (h : d ∈ getByDiscoveryService devices .bluetooth (classService deviceClass)) : DeclaresClass d deviceClass := by
  obtain ⟨s, hs, hrow⟩ := List.any_eq_true.mp (List.mem_filter.mp h).2
  simp only [Bool.and_eq_true, decide_eq_true_eq] at hrow
  obtain ⟨ty, service⟩ := s
  obtain ⟨rfl, hservice⟩ := hrow
  have hmem := mem_getAll.mpr hs
  obtain ⟨habstract, uuids, device_class, hconfig⟩ := bluetooth_of_row hmem
  refine ⟨habstract, ?_⟩
  rcases (mem_bluetooth habstract hconfig service).mp hmem with ⟨u, -, rfl⟩ | hclass
  · rw [unpadded_uuidService, unpadded_classService] at hservice
    exact absurd (List.cons.inj hservice).1 (by decide)
  · rcases classServices_cases device_class with hnone | ⟨c, rfl, hone⟩
    · rw [hnone] at hclass
      exact (List.not_mem_nil hclass).elim
    · rw [hone, List.mem_singleton] at hclass
      cases hclass
      rw [unpadded_classService, unpadded_classService] at hservice
      exact ⟨uuids, c, hconfig, List.append_cancel_left hservice⟩

/-- The mask takes in the minor class, so a class with one is none that is known. -/
theorem decodeClass_eq (btClass : Nat) :
    decodeClass btClass = if btClass &&& 0xFF = 0 then majorClass btClass else none := by
  have hmask : btClass &&& 0x1FFF = (btClass &&& 0x1F00) ||| (btClass &&& 0xFF) :=
    Nat.and_or_distrib_left btClass 0x1F00 0xFF
  by_cases hminor : btClass &&& 0xFF = 0
  · rw [if_pos hminor, decodeClass, majorClass, hmask, hminor, Nat.or_zero]
  · have hne {n : Nat} (hn : n &&& 0xFF = 0) : btClass &&& 0x1FFF ≠ n := by
      intro heq
      apply hminor
      have hassoc : (btClass &&& 0x1FFF) &&& 0xFF = btClass &&& 0xFF := Nat.and_assoc btClass 0x1FFF 0xFF
      rw [← hassoc, heq, hn]
    rw [if_neg hminor, decodeClass, if_neg (hne (by decide)), if_neg (hne (by decide)), if_neg (hne (by decide))]

theorem majorClass_ne {deviceClass : String} (h : majorClass btClass = some deviceClass) : unpadded deviceClass ≠ [] := by
  unfold majorClass at h
  dsimp only at h
  split at h
  · cases h
    decide
  · split at h
    · cases h
      decide
    · split at h
      · cases h
        decide
      · cases h

theorem class_found_iff (devices : List (Device toLowerCase)) (btClass : Nat) (uuids : List String) :
    FoundClass devices btClass uuids ↔ PlainClass devices btClass uuids := by
  unfold FoundClass PlainClass
  refine forall_congr' fun deviceClass => imp_congr_right ?_
  intro ⟨hmajor, hnone, e, he, hdeclares⟩
  have hunmatched : firstResults devices .bluetooth (advertised toLowerCase uuids) = [] := by
    apply firstResults_nil
    intro s hs
    obtain ⟨u, hu, rfl⟩ := mem_advertised.mp hs
    obtain ⟨v, hv, rfl⟩ := List.mem_map.mp hu
    exact hnone v hv
  rw [decode_unmatched hunmatched]
  by_cases hminor : btClass &&& 0xFF = 0
  · refine iff_of_true ?_ (.inl hminor)
    have hresults : classResults devices btClass = getByDiscoveryService devices .bluetooth (classService deviceClass) := by
      rw [classResults, decodeClass_eq, if_pos hminor, hmajor]
    have hne := List.ne_nil_of_mem (mem_of_declaresClass he (majorClass_ne hmajor) hdeclares)
    obtain ⟨best, hmem, hbest⟩ := best_mem .bluetooth (advertised toLowerCase uuids) hne
    refine ⟨best, ?_, declaresClass_of_mem hmem⟩
    rw [hresults]
    split
    · rename_i hnil
      exact absurd hnil hne
    · rw [hbest]
  · have hresults : classResults devices btClass = [] := by
      rw [classResults, decodeClass_eq, if_neg hminor]
    rw [hresults, or_iff_right hminor]
    cases hgeneric : getByPrimaryKind devices "org.thingpedia.builtin.bluetooth.generic" with
    | error err => simp [Except.map]
    | ok generic => simp [Except.map]

/-! ## Every advertisement -/

theorem discovery_found_iff (devices : List (Device toLowerCase)) :
    (∀ name st, isSubstring "hue".toList name.toList = false → (FoundSt devices name st ↔ PlainSt devices st)) ∧
      ∀ btClass uuids, (FoundUuids devices btClass uuids ↔ PlainUuids devices btClass uuids) ∧
        (FoundClass devices btClass uuids ↔ PlainClass devices btClass uuids) :=
  ⟨fun _ st hname => upnp_found_iff devices hname st, fun btClass uuids =>
    ⟨uuids_found_iff devices btClass uuids, class_found_iff devices btClass uuids⟩⟩

/-- Every declaration is found by what it declares. -/
def FindsDeclared (devices : List (Device toLowerCase)) : Prop :=
  (∀ name st, isSubstring "hue".toList name.toList = false → FoundSt devices name st) ∧
    ∀ btClass uuids, FoundUuids devices btClass uuids ∧ FoundClass devices btClass uuids

end Lower

def speaker : Device id where
  classDef := ⟨"org.thingpedia.bluetooth.speaker.a2dp", false, .bluetooth ["0000110b"] none⟩
  stored := by unfold insertable; decide

def audio : Device id where
  classDef := ⟨"org.thingpedia.bluetooth.audio", false, .bluetooth [] (some "audio-video")⟩
  stored := by unfold insertable; decide

def generic : Device id where
  classDef := ⟨"org.thingpedia.builtin.bluetooth.generic", false, .bluetooth [] none⟩
  stored := by unfold insertable; decide

/-- A headset, of the major class audio and video and of a minor class of its own, is taken
    for the generic device. -/
theorem a_headset_is_generic : ¬∀ devices : List (Device id), FindsDeclared devices := by
  intro hclaim
  have honly : OnlyClass [speaker, audio, generic] 0x240404 ["0000111e"] "audio-video" := by
    refine ⟨by decide, by decide, audio, ?_, rfl, [], "audio-video", rfl, rfl⟩
    exact List.mem_cons_of_mem _ (List.mem_cons_self ..)
  obtain ⟨d, hdecode, -, uuids, c, hconfig, -⟩ := ((hclaim [speaker, audio, generic]).2 0x240404 ["0000111e"]).2 _ honly
  have hgeneric : decodeBluetooth [speaker, audio, generic] 0x240404 ["0000111e"] = .ok (some generic) := rfl
  rw [hgeneric] at hdecode
  cases hdecode
  cases hconfig

theorem discovery_found_speaker : FoundUuids [speaker, audio, generic] 0x240404 ["0000110b"] := by
  apply ((discovery_found_iff [speaker, audio, generic]).2 0x240404 ["0000110b"]).1.mpr
  intro _
  have hrow : advertised id ["0000110b"] = ["uuid-0000110b"] := by decide
  rw [hrow]
  refine .inl ⟨by decide, speaker, List.mem_cons_self .., ⟨rfl, _, _, rfl, fun _ => Iff.rfl⟩, ?_⟩
  intro uuids device_class hconfig
  cases hconfig
  rfl

end GenieCloud.Thingpedia.Discovery
