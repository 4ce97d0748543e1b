/-
  GenieCloud.Util.StraddlingWrites — an integer over the end of a chunk, and one within it
  (`writeUInt16LE` and `writeUInt32LE` of `util/growable_buffer.ts`).

  Within a chunk the platform writes the integer, and checks its range. Over the end of one the
  method takes it apart with `&` and `>>>`, which see its integer part modulo 2^32, and its
  assertion admits 65536 and 2^32.

  - `straddling_iff`: the two accept the same values and store the same bytes, but for the values
    between 65535 and 65536 and those past 2^32 - 1.
-/

import GenieCloud.Util.BufferLookup

namespace GenieCloud.Util.GrowableBuffer

open GenieCloud.Lib.Chunks GenieCloud.Lib.Result

/-- The range does not end in the chunk that it begins in. -/
def Straddles (g : GrowableBuffer) (offset width : Nat) : Prop :=
  ∃ i c, g.buffers[i]? = some c ∧ start g.buffers i ≤ offset ∧ offset < start g.buffers i + c.length ∧
    start g.buffers i + c.length < offset + width

/-- The method raises an error if the platform does on a buffer with the bytes of the grown one,
    and otherwise leaves the bytes that it leaves. -/
def Agrees (method : Except Error GrowableBuffer) (platform : Except Error Buffer) : Prop :=
  (method.toOption.map fun g => g.buffers.flatten) = platform.toOption

variable {g g' g₁ : GrowableBuffer} {offset width i n : Nat} {c : Buffer} {value : ℚ}

/-! ## Within a chunk -/

theorem straddles_iff (hc : g.buffers[i]? = some c) (hn : offset = start g.buffers i + n) (hlt : n < c.length) :
    g.Straddles offset width ↔ c.length < n + width := by
  constructor
  · rintro ⟨j, d, hd, hlow, hhigh, hend⟩
    obtain rfl := locate_unique hd hc ⟨hlow, hhigh⟩ ⟨by omega, by omega⟩
    obtain rfl : d = c := Option.some.inj (hd.symm.trans hc)
    omega
  · intro hover
    exact ⟨i, c, hc, by omega, by omega, by omega⟩

/-- What the platform makes of the bytes of a buffer. -/
theorem Wrote.agrees {method : Except Error GrowableBuffer} (hi : Inv g₁) (hroom : offset + width ≤ g₁.capacity)
    (h0 : 0 ≤ value) (hv : value ≤ 2 ^ (8 * width) - 1) (hok : method = .ok g')
    (hw : Wrote g₁ (Buffer.littleEndian width (Buffer.toUint32 value)) offset g') :
    Agrees method (Buffer.writeUIntLE width g₁.buffers.flatten value offset) := by
  have hroom' : offset + width ≤ List.length g₁.buffers.flatten := hi.capacity ▸ hroom
  have hplatform := Buffer.writeUIntLE_of_le h0 hv hroom'
  rw [Agrees, hok, hplatform]
  exact congrArg some hw.flatten

/-- Past the range the platform refuses. -/
theorem agrees_high {method : Except Error GrowableBuffer} (hv : 2 ^ (8 * width) - 1 < value) (b : Buffer) :
    Agrees method (Buffer.writeUIntLE width b value offset) ↔ ∃ e, method = .error e := by
  rw [Agrees, Buffer.writeUIntLE_of_lt hv]
  cases method with
  | error e => exact iff_of_true rfl ⟨e, rfl⟩
  | ok g => exact iff_of_false nofun nofun

theorem agrees_inside (hi : Inv g₁) (hroom : offset + width ≤ g₁.capacity) (h0 : 0 ≤ value) (hc : g₁.buffers[i]? = some c)
    (hn : offset = start g₁.buffers i + n) (hin : n + width ≤ c.length) :
    Agrees ((c.writeUIntLE width value n).map (g₁.setBuffer i)) (Buffer.writeUIntLE width g₁.buffers.flatten value offset) := by
  by_cases hv : value ≤ 2 ^ (8 * width) - 1
  · rw [Buffer.writeUIntLE_of_le h0 hv hin]
    have hlength : n + (Buffer.littleEndian width (Buffer.toUint32 value)).length ≤ c.length := by
      rw [Buffer.length_littleEndian]
      exact hin
    have hwrote := hi.wrote hc hlength
    rw [← hn] at hwrote
    exact hwrote.agrees hi hroom h0 hv rfl
  · rw [Buffer.writeUIntLE_of_lt (not_le.mp hv) c]
    exact (agrees_high (not_le.mp hv) _).mpr ⟨_, rfl⟩

/-! ## Over the end of a chunk -/

theorem writeUInt16LE_agrees_iff (hi : Inv g) (hv : 0 ≤ value ∧ value ≤ 65536) (offset : Nat) :
    Agrees (g.writeUInt16LE value offset) (Buffer.writeUInt16LE (g.grow (offset + 2)).buffers.flatten value offset) ↔
      ¬(g.grow (offset + 2)).Straddles offset 2 ∨ value ≤ 65535 ∨ value = 65536 := by
  have hi' := hi.grow (offset + 2)
  have hroom := hi.end_le_grow (offset + 2)
  have hmax : (2 : ℚ) ^ (8 * 2) - 1 = 65535 := by norm_num
  obtain ⟨i, c, n, hc, hn, hlt, hinside | ⟨hover, hsmall, hlarge⟩⟩ := writeUInt16LE_cases hi hv offset
  · have hstays : ¬(g.grow (offset + 2)).Straddles offset 2 := by
      rw [straddles_iff hc hn hlt]
      omega
    rw [hinside.2]
    exact iff_of_true (agrees_inside hi' hroom hv.1 hc hn hinside.1) (Or.inl hstays)
  · rw [or_iff_right (not_not.mpr ((straddles_iff hc hn hlt).mpr hover))]
    by_cases hle : value ≤ 65535
    · have hbits := Buffer.toUint32_lt_of_lt (n := 2 ^ 16) hv.1 (by norm_num; linarith) (by decide)
      obtain ⟨g', hok, hwrote⟩ := hsmall hbits
      exact iff_of_true (hwrote.agrees hi' hroom hv.1 (hmax.symm ▸ hle) hok) (Or.inl hle)
    · have hhigh : (2 : ℚ) ^ (8 * 2) - 1 < value := by
        rw [hmax]
        exact not_le.mp hle
      rw [Buffer.writeUInt16LE, agrees_high hhigh, or_iff_right hle]
      by_cases heq : value = 65536
      · have hbits : 2 ^ 16 ≤ Buffer.toUint32 value := by
          have hcast : value = ((65536 : Nat) : ℚ) := by rw [heq]; norm_num
          rw [hcast, Buffer.toUint32_natCast]
          decide
        exact iff_of_true ⟨_, hlarge hbits⟩ heq
      · have hbits := Buffer.toUint32_lt_of_lt (n := 2 ^ 16) hv.1 (by norm_num; exact lt_of_le_of_ne hv.2 heq) (by decide)
        obtain ⟨g', hok, -⟩ := hsmall hbits
        refine iff_of_false ?_ heq
        rintro ⟨e, herror⟩
        cases hok.symm.trans herror

theorem writeUInt32LE_agrees_iff (hi : Inv g) (hv : 0 ≤ value ∧ value ≤ 2 ^ 32) (offset : Nat) :
    Agrees (g.writeUInt32LE value offset) (Buffer.writeUInt32LE (g.grow (offset + 4)).buffers.flatten value offset) ↔
      ¬(g.grow (offset + 4)).Straddles offset 4 ∨ value ≤ 2 ^ 32 - 1 := by
  have hi' := hi.grow (offset + 4)
  have hroom := hi.end_le_grow (offset + 4)
  obtain ⟨i, c, n, hc, hn, hlt, hinside | ⟨hover, g', hok, hwrote⟩⟩ := writeUInt32LE_cases hi hv offset
  · have hstays : ¬(g.grow (offset + 4)).Straddles offset 4 := by
      rw [straddles_iff hc hn hlt]
      omega
    rw [hinside.2]
    exact iff_of_true (agrees_inside hi' hroom hv.1 hc hn hinside.1) (Or.inl hstays)
  · rw [or_iff_right (not_not.mpr ((straddles_iff hc hn hlt).mpr hover))]
    by_cases hle : value ≤ 2 ^ 32 - 1
    · exact iff_of_true (hwrote.agrees hi' hroom hv.1 hle hok) hle
    · have hhigh : (2 : ℚ) ^ (8 * 4) - 1 < value := not_le.mp hle
      rw [Buffer.writeUInt32LE, agrees_high hhigh]
      refine iff_of_false ?_ hle
      rintro ⟨e, herror⟩
      cases hok.symm.trans herror

/-- In every state, for every offset and every value that the assertions admit. -/
theorem straddling_iff (h : Reachable g) (offset : Nat) (h0 : 0 ≤ value) :
    (value ≤ 65536 →
      (Agrees (g.writeUInt16LE value offset) (Buffer.writeUInt16LE (g.grow (offset + 2)).buffers.flatten value offset) ↔
        ¬(g.grow (offset + 2)).Straddles offset 2 ∨ value ≤ 65535 ∨ value = 65536)) ∧
    (value ≤ 2 ^ 32 →
      (Agrees (g.writeUInt32LE value offset) (Buffer.writeUInt32LE (g.grow (offset + 4)).buffers.flatten value offset) ↔
        ¬(g.grow (offset + 4)).Straddles offset 4 ∨ value ≤ 2 ^ 32 - 1)) :=
  ⟨fun hv => writeUInt16LE_agrees_iff h.inv ⟨h0, hv⟩ offset, fun hv => writeUInt32LE_agrees_iff h.inv ⟨h0, hv⟩ offset⟩

theorem reachable_first : Reachable (grow {} 4096) := .ensureSize 4096 .new (inv_new.ensureSize_eq 4096)

theorem straddling_iff_five :
    (Agrees ((grow {} 4096).writeUInt16LE 5 4095)
        (Buffer.writeUInt16LE ((grow {} 4096).grow 4097).buffers.flatten 5 4095) ↔
      ¬((grow {} 4096).grow 4097).Straddles 4095 2 ∨ (5 : ℚ) ≤ 65535 ∨ (5 : ℚ) = 65536) ∧
    (Agrees ((grow {} 4096).writeUInt32LE 5 4095)
        (Buffer.writeUInt32LE ((grow {} 4096).grow 4099).buffers.flatten 5 4095) ↔
      ¬((grow {} 4096).grow 4099).Straddles 4095 4 ∨ (5 : ℚ) ≤ 2 ^ 32 - 1) :=
  ⟨(straddling_iff reachable_first 4095 (by norm_num)).1 (by norm_num),
    (straddling_iff reachable_first 4095 (by norm_num)).2 (by norm_num)⟩

/-- 2^32 two bytes before the end of the first chunk, and the same on one buffer. -/
theorem overflow_accepted : Reachable (grow {} 4096) ∧ (∃ g', (grow {} 4096).writeUInt32LE (2 ^ 32) 4094 = .ok g') ∧
    Buffer.writeUInt32LE ((grow {} 4096).grow 4098).buffers.flatten (2 ^ 32) 4094 = .error .outOfRange := by
  have hfirst : (grow {} 4096).buffers[0]? = some (Buffer.alloc 4096) := rfl
  have hchunk := grow_buffers hfirst (4094 + 4)
  refine ⟨reachable_first, ?_, Buffer.writeUIntLE_of_lt (by norm_num) _ _⟩
  obtain ⟨i, c, n, hc, hn, hlt, hinside | ⟨-, g', hok, -⟩⟩ :=
    writeUInt32LE_cases (inv_new.grow 4096) (show (0 : ℚ) ≤ 2 ^ 32 ∧ (2 ^ 32 : ℚ) ≤ 2 ^ 32 by norm_num) 4094
  · have hend := hinside.1
    clear hinside
    generalize grow (grow {} 4096) (4094 + 4) = grown at hchunk hc hn
    -- the chunk is the first one, and ends after two bytes
    have hrange : start grown.buffers 0 ≤ 4094 ∧ 4094 < start grown.buffers 0 + (Buffer.alloc 4096).length := by
      rw [length_alloc, start_zero]
      decide
    obtain rfl := locate_unique hc hchunk ⟨by omega, by omega⟩ hrange
    obtain rfl := Option.some.inj (hc.symm.trans hchunk)
    rw [start_zero] at hn
    rw [length_alloc] at hend
    omega
  · exact ⟨g', hok⟩

end GenieCloud.Util.GrowableBuffer
