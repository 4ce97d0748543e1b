/-
  GenieCloud.Lib.Record — string keys to values, each key once, in the order they came.

  It stands for an object of a script used as a table, and for the rows of an SQL table
  that agree on all of a primary key but a name. `append` adds entries and fails on a key
  that is there already, as an insert does; `get?` reads, and `mem_entries` goes back and
  forth between the two views. Two records with the same sorted keys have the same keys
  (`mem_keys_of_sort_eq`).
-/

import GenieCloud.Lib.Utf16

namespace GenieCloud.Lib

structure Record (α : Type) where
  entries : List (String × α)
  nodup : (entries.map Prod.fst).Nodup

namespace Record

variable {α β : Type}

def empty : Record α := ⟨[], List.nodup_nil⟩

def keys (r : Record α) : List String := r.entries.map Prod.fst

def get? (r : Record α) (k : String) : Option α := r.entries.lookup k

def map (r : Record α) (f : String → α → β) : Record β where
  entries := r.entries.map fun x => (x.1, f x.1 x.2)
  nodup := by
    rw [List.map_map]
    exact r.nodup

def append (r : Record α) (l : List (String × α)) : Option (Record α) :=
  if h : ((r.entries ++ l).map Prod.fst).Nodup then some ⟨r.entries ++ l, h⟩ else none

/-- `r[k] = a`: in place when the key is there, else at the end. -/
def set (r : Record α) (k : String) (a : α) : Record α where
  entries := if r.keys.contains k then r.entries.map fun x => if x.1 = k then (k, a) else x else r.entries ++ [(k, a)]
  nodup := by
    have hn := r.nodup
    split
    · rw [List.map_map]
      convert hn using 2
      funext x
      by_cases hx : x.1 = k
      · simp [hx]
      · simp [hx]
    · next hk =>
      have hk' : k ∉ r.entries.map Prod.fst := fun h => hk (List.contains_iff_mem.mpr h)
      rw [List.map_append]
      exact hn.append (List.nodup_singleton k) (List.disjoint_singleton.mpr hk')

/-- Each entry of a list in its turn. -/
def setAll (r : Record α) (l : List (String × α)) : Record α := l.foldl (fun r x => r.set x.1 x.2) r

/-- The entries of one kind, under a new value. -/
def filterMap (r : Record α) (f : String → α → Option β) : Record β where
  entries := r.entries.filterMap fun x => (f x.1 x.2).map (x.1, ·)
  nodup := by
    refine List.Nodup.sublist ?_ r.nodup
    generalize r.entries = l
    induction l with
    | nil => exact List.Sublist.refl _
    | cons x l ih =>
      rw [List.filterMap_cons]
      cases f x.1 x.2 with
      | none => exact ih.cons x.1
      | some b => exact ih.cons_cons x.1

/-- Every entry under a new value, or none of them. -/
def traverse (r : Record α) (f : String → α → Option β) : Option (Record β) :=
  if r.entries.all fun x => (f x.1 x.2).isSome then some (r.filterMap f) else none

theorem mem_entries {r : Record α} {k : String} {a : α} : (k, a) ∈ r.entries ↔ r.get? k = some a := by
  unfold get?
  have hn := r.nodup
  generalize r.entries = l at hn ⊢
  induction l with
  | nil => simp
  | cons x l ih =>
    obtain ⟨hx, hl⟩ := List.nodup_cons.mp (List.map_cons (f := Prod.fst) ▸ hn)
    rw [List.mem_cons, List.lookup_cons]
    by_cases hk : k = x.1
    · subst hk
      simp only [BEq.rfl, Option.some.injEq]
      constructor
      · rintro (h | h)
        · exact congrArg Prod.snd h.symm
        · exact absurd (List.mem_map_of_mem h) hx
      · intro h; subst h; exact Or.inl rfl
    · simp only [beq_eq_false_iff_ne.mpr hk, ← ih hl]
      constructor
      · rintro (h | h)
        · exact absurd (congrArg Prod.fst h) hk
        · exact h
      · exact Or.inr

theorem mem_keys {r : Record α} {k : String} : k ∈ r.keys ↔ ∃ a, r.get? k = some a := by
  rw [keys, List.mem_map]
  constructor
  · rintro ⟨⟨k', a⟩, h, rfl⟩
    exact ⟨a, mem_entries.mp h⟩
  · rintro ⟨a, h⟩
    exact ⟨(k, a), mem_entries.mpr h, rfl⟩

theorem get?_set (r : Record α) (k : String) (a : α) (k' : String) :
    (r.set k a).get? k' = if k = k' then some a else r.get? k' := by
  apply Option.ext
  intro b
  rw [← mem_entries, set]
  dsimp only
  split
  · next hk =>
    obtain ⟨a', ha⟩ := mem_keys.mp (List.contains_iff_mem.mp hk)
    rw [List.mem_map]
    split
    · next h =>
      subst h
      constructor
      · rintro ⟨x, hx, he⟩
        split at he
        · exact congrArg (fun y => some y.2) he
        · next hne => exact absurd (congrArg Prod.fst he) hne
      · intro h
        cases h
        exact ⟨(k, a'), mem_entries.mpr ha, if_pos rfl⟩
    · next h =>
      rw [← mem_entries]
      constructor
      · rintro ⟨x, hx, he⟩
        split at he
        · exact absurd (congrArg Prod.fst he) h
        · exact he ▸ hx
      · intro hb
        exact ⟨(k', b), hb, if_neg fun he => h he.symm⟩
  · next hk =>
    have hk' : r.get? k = none := by
      rw [Option.eq_none_iff_forall_not_mem]
      intro c hc
      exact hk (List.contains_iff_mem.mpr (mem_keys.mpr ⟨c, hc⟩))
    rw [List.mem_append, mem_entries, List.mem_singleton, Prod.mk.injEq]
    split
    · next h =>
      subst h
      simp [hk', eq_comm]
    · next h => simp [Ne.symm h]

theorem set_eq_self {r : Record α} {k : String} {a : α} (h : r.get? k = some a) : r.set k a = r := by
  have hk : r.keys.contains k = true := List.contains_iff_mem.mpr (mem_keys.mpr ⟨a, h⟩)
  have hentries : (r.set k a).entries = r.entries := by
    unfold set
    dsimp only
    rw [if_pos hk]
    refine (List.map_congr_left fun x hx => ?_).trans (List.map_id _)
    split
    · next hx' =>
      have ha : r.get? k = some x.2 := mem_entries.mp (hx' ▸ hx)
      rw [h] at ha
      rw [Option.some.inj ha, ← hx']
      rfl
    · rfl
  cases r
  cases hs : (set _ k a)
  rw [hs] at hentries
  cases hentries
  rfl

theorem mem_keys_set {r : Record α} {k k' : String} {a : α} : k' ∈ (r.set k a).keys ↔ k' = k ∨ k' ∈ r.keys := by
  rw [mem_keys, mem_keys, get?_set]
  split
  · next h => exact iff_of_true ⟨a, rfl⟩ (Or.inl h.symm)
  · next h => exact (or_iff_right fun h' => h h'.symm).symm

/-- Of a list that has each key once. -/
theorem get?_setAll {l : List (String × α)} (hl : (l.map Prod.fst).Nodup) (r : Record α) (k : String) :
    (r.setAll l).get? k = (l.lookup k).or (r.get? k) := by
  induction l generalizing r with
  | nil => rfl
  | cons x l ih =>
    obtain ⟨hx, hl⟩ := List.nodup_cons.mp (List.map_cons (f := Prod.fst) ▸ hl)
    have hset : (r.setAll (x :: l)).get? k = ((r.set x.1 x.2).setAll l).get? k := rfl
    rw [hset, ih hl, get?_set, List.lookup_cons]
    by_cases hk : k = x.1
    · have hnone : l.lookup k = none := by
        rw [List.lookup_eq_none_iff]
        intro y hy
        refine bne_iff_ne.mpr fun h => hx ?_
        rw [← hk, h]
        exact List.mem_map_of_mem hy
      rw [hnone, if_pos hk.symm, hk, BEq.rfl]
      rfl
    · rw [beq_eq_false_iff_ne.mpr hk, if_neg (Ne.symm hk)]

theorem get?_setAll_entries (r t : Record α) (k : String) : (r.setAll t.entries).get? k = (t.get? k).or (r.get? k) :=
  get?_setAll t.nodup r k

theorem get?_map (r : Record α) (f : String → α → β) (k : String) : (r.map f).get? k = (r.get? k).map (f k) := by
  apply Option.ext
  intro b
  rw [← mem_entries, map, List.mem_map, Option.map_eq_some_iff]
  constructor
  · rintro ⟨⟨k', a⟩, h, hb⟩
    cases hb
    exact ⟨a, mem_entries.mp h, rfl⟩
  · rintro ⟨a, h, rfl⟩
    exact ⟨(k, a), mem_entries.mpr h, rfl⟩

theorem keys_map (r : Record α) (f : String → α → β) : (r.map f).keys = r.keys := by
  rw [keys, map, List.map_map]
  rfl

theorem get?_filterMap (r : Record α) (f : String → α → Option β) (k : String) :
    (r.filterMap f).get? k = (r.get? k).bind (f k) := by
  apply Option.ext
  intro b
  rw [← mem_entries, filterMap, List.mem_filterMap, Option.bind_eq_some_iff]
  constructor
  · rintro ⟨⟨k', a⟩, h, hb⟩
    obtain ⟨b', hf, hb⟩ := Option.map_eq_some_iff.mp hb
    cases hb
    exact ⟨a, mem_entries.mp h, hf⟩
  · rintro ⟨a, h, hf⟩
    exact ⟨(k, a), mem_entries.mpr h, by rw [hf]; rfl⟩

theorem map_filterMap {γ : Type} (r : Record α) (f : String → α → Option β) (g : String → β → γ) :
    (r.filterMap f).map g = r.filterMap fun k a => (f k a).map (g k) := by
  unfold filterMap map
  simp only [List.map_filterMap, Option.map_map, mk.injEq]
  rfl

theorem traverse_eq_some {r : Record α} {f : String → α → Option β} {t : Record β} :
    r.traverse f = some t ↔ (∀ k a, r.get? k = some a → (f k a).isSome = true) ∧ r.filterMap f = t := by
  have hall : r.entries.all (fun x => (f x.1 x.2).isSome) = true ↔ ∀ k a, r.get? k = some a → (f k a).isSome = true := by
    rw [List.all_eq_true]
    constructor
    · intro h k a hk
      exact h (k, a) (mem_entries.mpr hk)
    · intro h x hx
      exact h x.1 x.2 (mem_entries.mp hx)
  rw [← hall, traverse]
  split <;> simp [*]

theorem traverse_empty (f : String → α → Option β) : (empty : Record α).traverse f = some empty := rfl

theorem append_entries {r t : Record α} {l : List (String × α)} (h : r.append l = some t) : t.entries = r.entries ++ l := by
  unfold append at h
  split at h
  · cases h; rfl
  · cases h

theorem append_isSome {r : Record α} {l : List (String × α)} :
    (∃ t, r.append l = some t) ↔ ((r.entries ++ l).map Prod.fst).Nodup := by
  unfold append
  split
  · rename_i h
    exact ⟨fun _ => h, fun _ => ⟨_, rfl⟩⟩
  · rename_i h
    constructor
    · intro ⟨t, ht⟩
      cases ht
    · intro hn
      exact absurd hn h

theorem append_nil {r t : Record α} (h : r.append [] = some t) : t = r := by
  have he := append_entries h
  rw [List.append_nil] at he
  cases r
  cases t
  cases he
  rfl

theorem empty_append {l : List (String × α)} {t : Record α} (h : empty.append l = some t) {k : String} {a : α} :
    t.get? k = some a ↔ (k, a) ∈ l := by
  rw [← mem_entries, append_entries h]
  rfl

theorem mem_keys_of_sort_eq {r : Record α} {t : Record β} (h : Utf16.sort r.keys = Utf16.sort t.keys) (k : String) :
    k ∈ r.keys ↔ k ∈ t.keys :=
  (Utf16.sort_eq_sort_iff r.nodup t.nodup).mp h k

end Record

end GenieCloud.Lib
