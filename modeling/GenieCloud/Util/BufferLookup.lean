/-
  GenieCloud.Util.BufferLookup — what the search finds (`util/binary_search.ts`), and the chunk
  of an offset (`_findBuffer` of `util/growable_buffer.ts`).

  - `binarySearch_spec`: in an ascending array that is not empty, the first index whose entry is
    not smaller than the value, or the last index.
  - `findBuffer_exact`: the chunk that an offset below the capacity is in.
-/

import GenieCloud.Util.GrowableBuffer

namespace GenieCloud.Util

open GenieCloud.Lib GenieCloud.Lib.Chunks GenieCloud.Lib.Result

/-! ## The search -/

section
variable {α : Type} [LE α] [DecidableLE α] {cumsum : List α} {value : α}

/-- The last index, if every entry is smaller. -/
def FirstOrLast (cumsum : List α) (value : α) (i : Nat) : Prop :=
  FirstNotSmaller cumsum value i ∨ (∀ c ∈ cumsum, ¬value ≤ c) ∧ i + 1 = cumsum.length

theorem binarySearch.loop_last {a b : Nat} {hab : a < b} {hb : b ≤ cumsum.length} (h : ∀ c ∈ cumsum, ¬value ≤ c) :
    binarySearch.loop cumsum value a b hab hb + 1 = b := by
  fun_induction binarySearch.loop cumsum value a b hab hb with
  | case1 a b hab hb h1 => omega
  | case2 a b hab hb h1 h2 hle => exact absurd hle (h _ (List.getElem_mem _))
  | case3 a b hab hb h1 h2 hle => omega
  | case4 a b hab hb h1 h2 m hle ih => exact absurd hle (h _ (List.getElem_mem _))
  | case5 a b hab hb h1 h2 m hle ih => exact ih

theorem binarySearch_spec [IsTrans α (· ≤ ·)] (hne : cumsum ≠ []) (hs : cumsum.Pairwise (· ≤ ·)) (value : α) :
    ∃ i, binarySearch cumsum value = some i ∧ FirstOrLast cumsum value i := by
  have hpos : 0 < cumsum.length := List.length_pos_iff.mpr hne
  refine ⟨_, dif_neg (Nat.ne_of_gt hpos), ?_⟩
  by_cases hlast : value ≤ cumsum[cumsum.length - 1]
  · exact Or.inl (binarySearch.loop_spec hs hlast fun j c hj => absurd hj (Nat.not_lt_zero j))
  · refine Or.inr ?_
    have hall : ∀ c ∈ cumsum, ¬value ≤ c := by
      intro c hc hvalue
      obtain ⟨j, hj, rfl⟩ := List.mem_iff_getElem.mp hc
      by_cases hj' : j = cumsum.length - 1
      · subst hj'
        exact hlast hvalue
      · have hsorted := List.pairwise_iff_getElem.mp hs j (cumsum.length - 1) hj (by omega) (by omega)
        exact hlast (IsTrans.trans _ _ _ hvalue hsorted)
    exact ⟨hall, binarySearch.loop_last hall⟩

end

/-! ## The states of a buffer -/

namespace GrowableBuffer

/-- What calls leave, also those that fail: each grows the buffer first, and then changes bytes of
    its chunks. -/
inductive Reachable : GrowableBuffer → Prop
  | new : Reachable {}
  | ensureSize {g g' : GrowableBuffer} (requested : Nat) : Reachable g → g.ensureSize requested = .ok g' → Reachable g'
  | store {g : GrowableBuffer} {i : Nat} {c d : Buffer} : Reachable g → g.buffers[i]? = some c → d.length = c.length →
    Reachable (g.setBuffer i d)

/-- The offset is in the range of the chunk. -/
def Contains (g : GrowableBuffer) (i offset : Nat) : Prop :=
  ∃ c o, g.buffers[i]? = some c ∧ g.offsets[i]? = some o ∧ o ≤ offset ∧ offset < o + c.length

variable {g g' : GrowableBuffer} {offset i j : Nat} {c : Buffer}

theorem Reachable.inv (h : Reachable g) : Inv g := by
  induction h with
  | new => exact inv_new
  | ensureSize requested _ hensure ih =>
    rw [ih.ensureSize_eq] at hensure
    exact Except.ok.inj hensure ▸ ih.grow requested
  | store _ hc hlength ih => exact ih.setBuffer hc hlength

/-! ### Calls that do not fail -/

theorem length_of_writeUIntLE {width : Nat} {b b' : Buffer} {value : ℚ} (h : Buffer.writeUIntLE width b value offset = .ok b') :
    b'.length = b.length := by
  rw [Buffer.writeUIntLE] at h
  split at h
  · cases h
  · split at h
    · cases h
    · rename_i hroom
      obtain rfl := Except.ok.inj h
      exact length_overwrite (by rw [Buffer.length_littleEndian]; omega)

theorem bufferAt_ok (h : g.bufferAt i = .ok c) : g.buffers[i]? = some c := by
  rw [bufferAt] at h
  split at h
  · cases h
  · rename_i hc
    rw [hc, Except.ok.inj h]

theorem chunkAt_ok {found : Nat × Buffer × Nat} (h : g.chunkAt offset = .ok found) : g.buffers[found.1]? = some found.2.1 := by
  obtain ⟨i, -, h⟩ := bind_ok h
  obtain ⟨c, hc, h⟩ := bind_ok h
  rw [← Except.ok.inj h]
  exact bufferAt_ok hc

theorem Reachable.store_two (h : Reachable g) {c' d d' : Buffer} (hc : g.buffers[i]? = some c) (hd : g.buffers[i + 1]? = some d)
    (hc' : c'.length = c.length) (hd' : d'.length = d.length) : Reachable ((g.setBuffer i c').setBuffer (i + 1) d') := by
  refine (h.store hc hc').store (c := d) ?_ hd'
  show (g.buffers.set i c')[i + 1]? = some d
  rw [List.getElem?_set_ne (Nat.ne_of_lt (Nat.lt_succ_self i))]
  exact hd

theorem Reachable.writeUInt8 {value : ℚ} (h : Reachable g) (hw : g.writeUInt8 value offset = .ok g') : Reachable g' := by
  obtain ⟨g₁, hensure, hw⟩ := bind_ok hw
  obtain ⟨found, hfound, hw⟩ := bind_ok hw
  obtain ⟨_, -, hw⟩ := bind_ok hw
  obtain ⟨b, hb, hw⟩ := bind_ok hw
  rw [← Except.ok.inj hw]
  exact (h.ensureSize _ hensure).store (chunkAt_ok hfound) (length_of_writeUIntLE hb)

theorem Reachable.writeUInt16LE {value : ℚ} (h : Reachable g) (hw : g.writeUInt16LE value offset = .ok g') : Reachable g' := by
  obtain ⟨_, -, hw⟩ := bind_ok hw
  obtain ⟨g₁, hensure, hw⟩ := bind_ok hw
  obtain ⟨found, hfound, hw⟩ := bind_ok hw
  obtain ⟨_, -, hw⟩ := bind_ok hw
  have hg := h.ensureSize _ hensure
  have hc := chunkAt_ok hfound
  dsimp only at hw
  split at hw
  · obtain ⟨d, hd, hw⟩ := bind_ok hw
    obtain ⟨b, hb, hw⟩ := bind_ok hw
    obtain ⟨b', hb', hw⟩ := bind_ok hw
    rw [← Except.ok.inj hw]
    exact hg.store_two hc (bufferAt_ok hd) (length_of_writeUIntLE hb) (length_of_writeUIntLE hb')
  · obtain ⟨b, hb, hw⟩ := bind_ok hw
    rw [← Except.ok.inj hw]
    exact hg.store hc (length_of_writeUIntLE hb)

theorem Reachable.writeUInt32LE {value : ℚ} (h : Reachable g) (hw : g.writeUInt32LE value offset = .ok g') : Reachable g' := by
  obtain ⟨_, -, hw⟩ := bind_ok hw
  obtain ⟨g₁, hensure, hw⟩ := bind_ok hw
  obtain ⟨found, hfound, hw⟩ := bind_ok hw
  obtain ⟨_, -, hw⟩ := bind_ok hw
  have hg := h.ensureSize _ hensure
  have hc := chunkAt_ok hfound
  dsimp only at hw
  split at hw
  · obtain ⟨_, -, hw⟩ := bind_ok hw
    obtain ⟨d, hd, hw⟩ := bind_ok hw
    obtain ⟨_, -, hw⟩ := bind_ok hw
    have hd := bufferAt_ok hd
    split at hw
    · obtain ⟨b, hb, hw⟩ := bind_ok hw
      obtain ⟨b₁, hb₁, hw⟩ := bind_ok hw
      obtain ⟨b₂, hb₂, hw⟩ := bind_ok hw
      have hlength := (length_of_writeUIntLE hb₂).trans (length_of_writeUIntLE hb₁)
      exact Except.ok.inj hw ▸ hg.store_two hc hd (length_of_writeUIntLE hb) hlength
    · obtain ⟨b, hb, hw⟩ := bind_ok hw
      obtain ⟨b₁, hb₁, hw⟩ := bind_ok hw
      exact Except.ok.inj hw ▸ hg.store_two hc hd (length_of_writeUIntLE hb) (length_of_writeUIntLE hb₁)
    · obtain ⟨b, hb, hw⟩ := bind_ok hw
      obtain ⟨b₁, hb₁, hw⟩ := bind_ok hw
      obtain ⟨b₂, hb₂, hw⟩ := bind_ok hw
      have hlength := (length_of_writeUIntLE hb₁).trans (length_of_writeUIntLE hb)
      exact Except.ok.inj hw ▸ hg.store_two hc hd hlength (length_of_writeUIntLE hb₂)
    · exact Except.ok.inj hw ▸ hg
  · obtain ⟨b, hb, hw⟩ := bind_ok hw
    exact Except.ok.inj hw ▸ hg.store hc (length_of_writeUIntLE hb)

theorem length_copy (source target : Buffer) (targetStart sourceStart sourceEnd : Nat)
    (h : targetStart ≤ target.length) : (source.copy target targetStart sourceStart sourceEnd).length = target.length := by
  rw [Buffer.copy]
  refine length_overwrite ?_
  rw [List.length_take]
  omega

theorem Reachable.writeBuffer {fromBuffer : Buffer} (h : Reachable g) (hw : g.writeBuffer fromBuffer offset = .ok g') :
    Reachable g' := by
  obtain ⟨g₁, hensure, hw⟩ := bind_ok hw
  obtain ⟨found, hfound, hw⟩ := bind_ok hw
  obtain ⟨_, hinside, hw⟩ := bind_ok hw
  have hg := h.ensureSize _ hensure
  have hc := chunkAt_ok hfound
  have hstart : offset - found.2.2 ≤ found.2.1.length := by
    by_cases hlt : offset - found.2.2 < found.2.1.length
    · exact Nat.le_of_lt hlt
    · rw [assert_not fun hboth => hlt hboth.2] at hinside
      cases hinside
  dsimp only at hw
  split at hw
  · obtain ⟨_, -, hw⟩ := bind_ok hw
    obtain ⟨d, hd, hw⟩ := bind_ok hw
    obtain ⟨_, -, hw⟩ := bind_ok hw
    exact Except.ok.inj hw ▸ hg.store_two hc (bufferAt_ok hd) (length_copy _ _ _ _ _ hstart)
      (length_copy _ _ _ _ _ (Nat.zero_le _))
  · exact Except.ok.inj hw ▸ hg.store hc (length_copy _ _ _ _ _ hstart)

theorem Reachable.write {w : Write} (h : Reachable g) (hw : g.write w = .ok g') : Reachable g' := by
  cases w with
  | uint8 value offset => exact h.writeUInt8 hw
  | uint16LE value offset => exact h.writeUInt16LE hw
  | uint32LE value offset => exact h.writeUInt32LE hw
  | buffer fromBuffer offset => exact h.writeBuffer hw

/-- Every sequence of writes into a new buffer. -/
theorem reachable_writes {ws : List Write} (hw : writes ws = .ok g) : Reachable g :=
  foldlM_ok (P := Reachable) .new (fun _ _ _ _ h hstep => h.write hstep) hw

/-! ### The lookup -/

theorem Inv.contains_iff (h : Inv g) : g.Contains i offset ↔
    ∃ c, g.buffers[i]? = some c ∧ start g.buffers i ≤ offset ∧ offset < start g.buffers i + c.length := by
  constructor
  · rintro ⟨c, o, hc, ho, hrange⟩
    obtain rfl := Option.some.inj ((h.offset_at hc).symm.trans ho)
    exact ⟨c, hc, hrange⟩
  · rintro ⟨c, hc, hrange⟩
    exact ⟨c, _, hc, h.offset_at hc, hrange⟩

theorem findBuffer_exact (h : Reachable g) (ho : offset < g.capacity) :
    ∃ i, g.findBuffer offset = .ok i ∧ g.Contains i offset ∧ ∀ j, g.Contains j offset → j = i := by
  have hi := h.inv
  obtain ⟨i, c, hc, hlow, hhigh⟩ := locate (hi.capacity ▸ ho)
  refine ⟨i, hi.findBuffer_eq hc hlow hhigh, hi.contains_iff.mpr ⟨c, hc, hlow, hhigh⟩, ?_⟩
  intro j hj
  obtain ⟨d, hd, hrange⟩ := hi.contains_iff.mp hj
  exact locate_unique hd hc hrange ⟨hlow, hhigh⟩

end GrowableBuffer

/-- The search of every array, and the lookup in every state. -/
theorem lookup_exact {α : Type} [LE α] [DecidableLE α] [IsTrans α (· ≤ ·)] :
    (∀ (cumsum : List α) (value : α), cumsum ≠ [] → cumsum.Pairwise (· ≤ ·) →
      ∃ i, binarySearch cumsum value = some i ∧ FirstOrLast cumsum value i) ∧
    ∀ (g : GrowableBuffer) (offset : Nat), g.Reachable → offset < g.capacity →
      ∃ i, g.findBuffer offset = .ok i ∧ g.Contains i offset ∧ ∀ j, g.Contains j offset → j = i :=
  ⟨fun _ value hne hs => binarySearch_spec hne hs value, fun _ _ h ho => GrowableBuffer.findBuffer_exact h ho⟩

theorem lookup_exact_small : (∃ i, binarySearch [1, 3] 2 = some i ∧ FirstOrLast [1, 3] 2 i) ∧
    ∃ i, (GrowableBuffer.grow {} 10).findBuffer 5 = .ok i ∧ (GrowableBuffer.grow {} 10).Contains i 5 ∧
      ∀ j, (GrowableBuffer.grow {} 10).Contains j 5 → j = i := by
  have hreach : (GrowableBuffer.grow {} 10).Reachable := .ensureSize 10 .new (GrowableBuffer.inv_new.ensureSize_eq 10)
  have hcapacity := GrowableBuffer.inv_new.end_le_grow 10
  exact ⟨(lookup_exact (α := Nat)).1 [1, 3] 2 (by decide) (by decide),
    (lookup_exact (α := Nat)).2 _ 5 hreach (by omega)⟩

end GenieCloud.Util
