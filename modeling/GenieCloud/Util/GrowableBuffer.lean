/-
  GenieCloud.Util.GrowableBuffer — a buffer that grows (`util/growable_buffer.ts`,
  `util/binary_search.ts`).

  The bytes are kept in chunks, each allocated when a write ends past the capacity, and
  a write goes to the chunk of its first byte and to the next one. Integers always fit:
  a chunk has at least 4096 bytes. A buffer of bytes does not always: `writeBuffer`
  fails an assertion when a chunk lies inside the range it writes, and when an empty
  buffer is written where no chunk is (at the very end of the last one, or far past it).
  The numbers that integers are written from are rationals: `toUint32` is what `&` and `>>>` see.
  `Fits` is what a write needs of the buffer before it; `Refines.write` says that it is
  exact, and that a write that fits does to the bytes what it does to a flat array.
-/

import Mathlib.Data.Nat.Bitwise
import Mathlib.Data.Rat.Floor
import GenieCloud.Lib.Chunks
import GenieCloud.Lib.Result

namespace GenieCloud.Util

open GenieCloud.Lib GenieCloud.Lib.Chunks GenieCloud.Lib.Result

/-! ## binary_search.ts -/

section
variable {α : Type} [LE α] [DecidableLE α]

/-- The loop: `a` and `b` bound the entries left to look at. -/
def binarySearch.loop (cumsum : List α) (value : α) (a b : Nat) (hab : a < b) (hb : b ≤ cumsum.length) : Nat :=
  if _ : b - a = 1 then a
  else if _ : b - a = 2 then
    if value ≤ cumsum[a] then a else a + 1
  else
    let m := (a + b) / 2
    if value ≤ cumsum[m] then loop cumsum value a (m + 1) (by omega) (by omega)
    else loop cumsum value m b (by omega) hb
termination_by b - a

def binarySearch (cumsum : List α) (value : α) : Option Nat :=
  if h : cumsum.length = 0 then none
  else some (binarySearch.loop cumsum value 0 cumsum.length (by omega) (Nat.le_refl _))

/-- The first entry that is not smaller than the value. -/
def FirstNotSmaller (cumsum : List α) (value : α) (i : Nat) : Prop :=
  (∃ c, cumsum[i]? = some c ∧ value ≤ c) ∧ ∀ j c, j < i → cumsum[j]? = some c → ¬value ≤ c

/-- In a sorted list the loop finds the first entry of its range that is not smaller than
    the value, when there is one. -/
theorem binarySearch.loop_spec [IsTrans α (· ≤ ·)] {cumsum : List α} {value : α} {a b : Nat} {hab : a < b}
    {hb : b ≤ cumsum.length} (hs : cumsum.Pairwise (· ≤ ·)) (hlast : value ≤ cumsum[b - 1])
    (hlow : ∀ j c, j < a → cumsum[j]? = some c → ¬value ≤ c) :
    FirstNotSmaller cumsum value (binarySearch.loop cumsum value a b hab hb) := by
  fun_induction binarySearch.loop cumsum value a b hab hb with
  | case1 a b hab hb h1 =>
    obtain rfl : b = a + 1 := by omega
    exact ⟨⟨_, List.getElem?_eq_getElem (by omega), hlast⟩, hlow⟩
  | case2 a b hab hb h1 h2 hle => exact ⟨⟨_, List.getElem?_eq_getElem (by omega), hle⟩, hlow⟩
  | case3 a b hab hb h1 h2 hle =>
    obtain rfl : b = a + 2 := by omega
    refine ⟨⟨_, List.getElem?_eq_getElem (by omega), hlast⟩, fun j c hj hc => ?_⟩
    by_cases hj' : j < a
    · exact hlow j c hj' hc
    · obtain rfl : j = a := by omega
      rw [List.getElem?_eq_getElem (by omega)] at hc
      exact Option.some.inj hc ▸ hle
  | case4 a b hab hb h1 h2 m hle ih => exact ih hle hlow
  | case5 a b hab hb h1 h2 m hle ih =>
    refine ih hlast (fun j c hj hc hvalue => ?_)
    obtain ⟨hjl, rfl⟩ := List.getElem?_eq_some_iff.mp hc
    have hsorted := List.pairwise_iff_getElem.mp hs j m hjl (by omega) hj
    exact hle (IsTrans.trans _ _ _ hvalue hsorted)

end

/-! ## Node buffers -/

abbrev Buffer := List UInt8

inductive Error
  | assertion
  | outOfRange
  | typeError
deriving DecidableEq, Repr

def assert (p : Prop) [Decidable p] : Except Error Unit := if p then .ok () else .error .assertion

theorem assert_of {p : Prop} [Decidable p] (h : p) : assert p = .ok () := if_pos h

theorem assert_not {p : Prop} [Decidable p] (h : ¬p) : assert p = .error .assertion := if_neg h

namespace Buffer

def alloc (size : Nat) : Buffer := List.replicate size 0

def concat (list : List Buffer) (totalLength : Nat) : Buffer :=
  let bytes := list.flatten.take totalLength
  bytes ++ alloc (totalLength - bytes.length)

/-- The least significant bytes of a value, in order. -/
def littleEndian : Nat → Nat → Buffer
  | 0, _ => []
  | n + 1, value => UInt8.ofNat value :: littleEndian n (value >>> 8)

/-- The bits that `&` and `>>>` see of a number: its integer part, modulo 2^32. -/
def toUint32 (value : ℚ) : Nat := (value.num.tdiv value.den % 2 ^ 32).toNat

/-- An unsigned integer of at most four bytes written in place, after the checks of the range
    of the value and of the offset. -/
def writeUIntLE (width : Nat) (b : Buffer) (value : ℚ) (offset : Nat) : Except Error Buffer :=
  if 2 ^ (8 * width) - 1 < value ∨ value < 0 then .error .outOfRange
  else if b.length < offset + width then .error .outOfRange
  else .ok (overwrite b offset (littleEndian width (toUint32 value)))

def writeUInt8 := writeUIntLE 1
def writeUInt16LE := writeUIntLE 2
def writeUInt32LE := writeUIntLE 4

@[simp] theorem length_littleEndian (n value : Nat) : (littleEndian n value).length = n := by
  induction n generalizing value with
  | zero => rfl
  | succ n ih => simp only [littleEndian, List.length_cons, ih]

theorem littleEndian_add (m n value : Nat) :
    littleEndian (m + n) value = littleEndian m value ++ littleEndian n (value >>> (8 * m)) := by
  induction m generalizing value with
  | zero => simp [littleEndian]
  | succ m ih =>
    rw [show m + 1 + n = m + n + 1 by omega]
    simp only [littleEndian, List.cons_append, ih]
    rw [← Nat.shiftRight_add, show 8 + 8 * m = 8 * (m + 1) by omega]

/-- Only the bytes that are written count. -/
theorem littleEndian_mod (n value : Nat) : littleEndian n (value % 2 ^ (8 * n)) = littleEndian n value := by
  induction n generalizing value with
  | zero => rfl
  | succ n ih =>
    have hpow : 2 ^ (8 * (n + 1)) = 2 ^ 8 * 2 ^ (8 * n) := by rw [← Nat.pow_add]; congr 1; omega
    have hlow : UInt8.ofNat (value % 2 ^ (8 * (n + 1))) = UInt8.ofNat value := by
      apply UInt8.toNat_inj.mp
      rw [UInt8.toNat_ofNat', UInt8.toNat_ofNat', hpow, Nat.mod_mul_right_mod]
    simp only [littleEndian, hlow]
    rw [Nat.shiftRight_eq_div_pow, hpow, Nat.mod_mul_right_div_self, ih, Nat.shiftRight_eq_div_pow]

theorem toUint32_natCast (n : Nat) : toUint32 n = n % 2 ^ 32 := by
  have hnum : (n : ℚ).num.tdiv (n : ℚ).den = n := by
    rw [Rat.num_natCast, Rat.den_natCast, Nat.cast_one, Int.tdiv_one]
  rw [toUint32, hnum]
  exact Int.toNat_natCast (n % 2 ^ 32)

theorem toUint32_lt (value : ℚ) : toUint32 value < 2 ^ 32 := by
  have hmod := Int.emod_lt_of_pos (value.num.tdiv value.den) (show (0 : Int) < 2 ^ 32 by decide)
  rw [toUint32]
  omega

theorem toUint32_lt_of_lt {value : ℚ} {n : Nat} (h0 : 0 ≤ value) (h : value < n) (hn : n ≤ 2 ^ 32) : toUint32 value < n := by
  have hfloor : value.num.tdiv value.den = ⌊value⌋ := by
    rw [Rat.floor_def', Int.tdiv_eq_ediv_of_nonneg (Rat.num_nonneg.mpr h0)]
  have hnonneg : 0 ≤ ⌊value⌋ := Int.floor_nonneg.mpr h0
  have hlt : ⌊value⌋ < n := Int.floor_lt.mpr h
  rw [toUint32, hfloor, Int.emod_eq_of_lt hnonneg (by omega)]
  omega

theorem writeUIntLE_of_le {width offset : Nat} {value : ℚ} {b : Buffer} (h0 : 0 ≤ value) (hv : value ≤ 2 ^ (8 * width) - 1)
    (ho : offset + width ≤ b.length) :
    writeUIntLE width b value offset = .ok (overwrite b offset (littleEndian width (toUint32 value))) := by
  unfold writeUIntLE
  rw [if_neg (not_or.mpr ⟨not_lt.mpr hv, not_lt.mpr h0⟩), if_neg (by omega)]

theorem writeUIntLE_of_lt {width : Nat} {value : ℚ} (hv : 2 ^ (8 * width) - 1 < value) (b : Buffer) (offset : Nat) :
    writeUIntLE width b value offset = .error .outOfRange := if_pos (Or.inl hv)

theorem natCast_le {width value : Nat} (hv : value < 2 ^ (8 * width)) : (value : ℚ) ≤ 2 ^ (8 * width) - 1 := by
  have hle : (value : ℚ) + 1 ≤ 2 ^ (8 * width) := by exact_mod_cast hv
  linarith

theorem writeUIntLE_eq {width value offset : Nat} {b : Buffer} (hw : width ≤ 4) (hv : value < 2 ^ (8 * width))
    (ho : offset + width ≤ b.length) :
    writeUIntLE width b value offset = .ok (overwrite b offset (littleEndian width value)) := by
  have hpow : 2 ^ (8 * width) ≤ 2 ^ 32 := Nat.pow_le_pow_right (by decide) (by omega)
  rw [writeUIntLE_of_le (Nat.cast_nonneg value) (natCast_le hv) ho, toUint32_natCast,
    Nat.mod_eq_of_lt (Nat.lt_of_lt_of_le hv hpow)]

/-- `source.copy(target, targetStart, sourceStart, sourceEnd)`, which stops at the end of
    the target. -/
def copy (source target : Buffer) (targetStart sourceStart sourceEnd : Nat) : Buffer :=
  overwrite target targetStart (((source.take sourceEnd).drop sourceStart).take (target.length - targetStart))

/-- Two integers one after the other. -/
theorem writeUIntLE_twice {w w' v v' offset offset' : Nat} {b : Buffer} (hw : w ≤ 4) (hw' : w' ≤ 4)
    (hv : v < 2 ^ (8 * w)) (hv' : v' < 2 ^ (8 * w'))
    (ho' : offset' = offset + w) (ho : offset' + w' ≤ b.length) {β : Type} (f : Buffer → Except Error β) :
    (writeUIntLE w b (v : ℚ) offset >>= fun b => writeUIntLE w' b (v' : ℚ) offset' >>= f) =
      f (overwrite b offset (littleEndian w v ++ littleEndian w' v')) := by
  subst ho'
  have hl : (overwrite b offset (littleEndian w v)).length = b.length :=
    length_overwrite (by rw [length_littleEndian]; omega)
  have happ : overwrite (overwrite b offset (littleEndian w v)) (offset + (littleEndian w v).length) (littleEndian w' v') =
      overwrite b offset (littleEndian w v ++ littleEndian w' v') :=
    overwrite_append (by simp only [List.length_append, length_littleEndian]; omega)
  rw [length_littleEndian] at happ
  rw [writeUIntLE_eq hw hv (by omega), Result.ok_bind, writeUIntLE_eq hw' hv' (by omega), Result.ok_bind, happ]

end Buffer

/-! ## growable_buffer.ts -/

structure GrowableBuffer where
  size : Nat := 0
  capacity : Nat := 0
  buffers : List Buffer := []
  offsets : List Nat := []
deriving DecidableEq

namespace GrowableBuffer

def toBuffer (g : GrowableBuffer) : Buffer := Buffer.concat g.buffers g.size

def ensureSize (g : GrowableBuffer) (requested : Nat) : Except Error GrowableBuffer := do
  if g.size ≥ requested then
    return g
  if g.capacity ≥ requested then
    assert (g.capacity ≥ requested)
    return { g with size := requested }
  let newBuffer := Buffer.alloc (max (requested - g.capacity) 4096)
  let grown : GrowableBuffer := {
    size := requested
    capacity := g.capacity + newBuffer.length
    buffers := g.buffers ++ [newBuffer]
    offsets := g.offsets ++ [g.capacity] }
  assert (grown.capacity ≥ grown.size)
  assert (grown.buffers.length = grown.offsets.length)
  return grown

/-- The index of the chunk an offset is in. -/
def findBuffer (g : GrowableBuffer) (offset : Nat) : Except Error Nat := do
  assert (g.offsets.length > 0)
  if offset ≥ g.offsets.getLastD 0 then
    return g.offsets.length - 1
  match binarySearch g.offsets offset with
  | none => throw .typeError
  | some index =>
    if g.offsets.getD index 0 > offset then
      match index with
      | 0 => throw .typeError -- the caller reads `_buffers[-1].length`
      | index + 1 => return index
    else
      return index

/-- `this._buffers[index]`, of which every caller reads a property. -/
def bufferAt (g : GrowableBuffer) (index : Nat) : Except Error Buffer :=
  match g.buffers[index]? with
  | none => .error .typeError
  | some buffer => .ok buffer

/-- The lines every write begins with: the chunk of the offset, its index and its own
    offset. -/
def chunkAt (g : GrowableBuffer) (offset : Nat) : Except Error (Nat × Buffer × Nat) := do
  let bufferIndex ← g.findBuffer offset
  let buffer ← g.bufferAt bufferIndex
  return (bufferIndex, buffer, g.offsets.getD bufferIndex 0)

def setBuffer (g : GrowableBuffer) (index : Nat) (buffer : Buffer) : GrowableBuffer :=
  { g with buffers := g.buffers.set index buffer }

def writeUInt8 (g : GrowableBuffer) (value : ℚ) (offset : Nat) : Except Error GrowableBuffer := do
  let g ← g.ensureSize (offset + 1)
  let (bufferIndex, buffer, bufferOffset) ← g.chunkAt offset
  assert (offset - bufferOffset < buffer.length)
  let buffer ← buffer.writeUInt8 value (offset - bufferOffset)
  return g.setBuffer bufferIndex buffer

def writeUInt16LE (g : GrowableBuffer) (value : ℚ) (offset : Nat) : Except Error GrowableBuffer := do
  assert (0 ≤ value ∧ value ≤ 65536)
  let g ← g.ensureSize (offset + 2)
  let (bufferIndex, buffer, bufferOffset) ← g.chunkAt offset
  assert (offset - bufferOffset < buffer.length)
  if offset - bufferOffset + 2 > buffer.length then
    let nextBuffer ← g.bufferAt (bufferIndex + 1)
    let bits := Buffer.toUint32 value
    let buffer ← buffer.writeUInt8 (bits &&& 0xFF : Nat) (offset - bufferOffset)
    let nextBuffer ← nextBuffer.writeUInt8 (bits >>> 8 : Nat) 0
    return (g.setBuffer bufferIndex buffer).setBuffer (bufferIndex + 1) nextBuffer
  else
    let buffer ← buffer.writeUInt16LE value (offset - bufferOffset)
    return g.setBuffer bufferIndex buffer

def writeUInt32LE (g : GrowableBuffer) (value : ℚ) (offset : Nat) : Except Error GrowableBuffer := do
  assert (0 ≤ value ∧ value ≤ 2 ^ 32)
  let g ← g.ensureSize (offset + 4)
  let (bufferIndex, buffer, bufferOffset) ← g.chunkAt offset
  assert (offset - bufferOffset < buffer.length)
  if offset - bufferOffset + 4 > buffer.length then
    let firstPartLength := buffer.length - (offset - bufferOffset)
    assert (firstPartLength ≤ 3)
    let nextBuffer ← g.bufferAt (bufferIndex + 1)
    assert (nextBuffer.length ≥ 4 - firstPartLength)
    let bits := Buffer.toUint32 value
    match firstPartLength with
    | 1 =>
      let buffer ← buffer.writeUInt8 (bits &&& 0xFF : Nat) (offset - bufferOffset)
      let nextBuffer ← nextBuffer.writeUInt8 ((bits >>> 8) &&& 0xFF : Nat) 0
      let nextBuffer ← nextBuffer.writeUInt16LE (bits >>> 16 : Nat) 1
      return (g.setBuffer bufferIndex buffer).setBuffer (bufferIndex + 1) nextBuffer
    | 2 =>
      let buffer ← buffer.writeUInt16LE (bits &&& 0xFFFF : Nat) (offset - bufferOffset)
      let nextBuffer ← nextBuffer.writeUInt16LE (bits >>> 16 : Nat) 0
      return (g.setBuffer bufferIndex buffer).setBuffer (bufferIndex + 1) nextBuffer
    | 3 =>
      let buffer ← buffer.writeUInt8 (bits &&& 0xFF : Nat) (offset - bufferOffset)
      let buffer ← buffer.writeUInt16LE ((bits >>> 8) &&& 0xFFFF : Nat) (offset - bufferOffset + 1)
      let nextBuffer ← nextBuffer.writeUInt8 (bits >>> 24 : Nat) 0
      return (g.setBuffer bufferIndex buffer).setBuffer (bufferIndex + 1) nextBuffer
    | _ => return g
  else
    let buffer ← buffer.writeUInt32LE value (offset - bufferOffset)
    return g.setBuffer bufferIndex buffer

def writeBuffer (g : GrowableBuffer) (fromBuffer : Buffer) (offset : Nat) : Except Error GrowableBuffer := do
  let g ← g.ensureSize (offset + fromBuffer.length)
  let (bufferIndex, buffer, bufferOffset) ← g.chunkAt offset
  assert (offset ≥ bufferOffset ∧ offset - bufferOffset < buffer.length)
  if offset - bufferOffset + fromBuffer.length > buffer.length then
    let firstPartLength := buffer.length - (offset - bufferOffset)
    assert (firstPartLength < fromBuffer.length)
    let nextBuffer ← g.bufferAt (bufferIndex + 1)
    assert (nextBuffer.length ≥ fromBuffer.length - firstPartLength)
    let buffer := fromBuffer.copy buffer (offset - bufferOffset) 0 firstPartLength
    let nextBuffer := fromBuffer.copy nextBuffer 0 firstPartLength fromBuffer.length
    return (g.setBuffer bufferIndex buffer).setBuffer (bufferIndex + 1) nextBuffer
  else
    return g.setBuffer bufferIndex (fromBuffer.copy buffer (offset - bufferOffset) 0 fromBuffer.length)

/-! ## Writes -/

/-- A call: integers fit the width they are written in. -/
inductive Write
  | uint8 (value : UInt8) (offset : Nat)
  | uint16LE (value : UInt16) (offset : Nat)
  | uint32LE (value : UInt32) (offset : Nat)
  | buffer (fromBuffer : Buffer) (offset : Nat)

namespace Write

def offset : Write → Nat
  | .uint8 _ offset | .uint16LE _ offset | .uint32LE _ offset | .buffer _ offset => offset

def bytes : Write → Buffer
  | .uint8 value _ => Buffer.littleEndian 1 value.toNat
  | .uint16LE value _ => Buffer.littleEndian 2 value.toNat
  | .uint32LE value _ => Buffer.littleEndian 4 value.toNat
  | .buffer fromBuffer _ => fromBuffer

end Write

def write (g : GrowableBuffer) : Write → Except Error GrowableBuffer
  | .uint8 value offset => g.writeUInt8 value.toNat offset
  | .uint16LE value offset => g.writeUInt16LE value.toNat offset
  | .uint32LE value offset => g.writeUInt32LE value.toNat offset
  | .buffer fromBuffer offset => g.writeBuffer fromBuffer offset

/-- Writes into a new buffer, one after the other. -/
def writes (ws : List Write) : Except Error GrowableBuffer := ws.foldlM write {}

/-! ## The chunks -/

/-- The offsets are where the chunks start, and no chunk is small. -/
structure Inv (g : GrowableBuffer) : Prop where
  offsets : g.offsets = (List.range g.buffers.length).map (start g.buffers)
  capacity : g.capacity = g.buffers.flatten.length
  size : g.size ≤ g.capacity
  chunk : ∀ c ∈ g.buffers, 4096 ≤ c.length

variable {g g' : GrowableBuffer} {offset requested i : Nat} {c d : Buffer}

theorem inv_new : Inv {} := ⟨rfl, rfl, Nat.le_refl _, by simp⟩

theorem Inv.chunk_at (hi : Inv g) (hc : g.buffers[i]? = some c) : 4096 ≤ c.length :=
  hi.chunk c (List.mem_of_getElem? hc)

theorem Inv.offset_at (hi : Inv g) (hc : g.buffers[i]? = some c) : g.offsets[i]? = some (start g.buffers i) := by
  obtain ⟨h, -⟩ := List.getElem?_eq_some_iff.mp hc
  rw [hi.offsets, List.getElem?_map, List.getElem?_range h]
  rfl

theorem Inv.length_offsets (hi : Inv g) : g.offsets.length = g.buffers.length := by
  rw [hi.offsets, List.length_map, List.length_range]

theorem Inv.end_le (hi : Inv g) (hc : g.buffers[i]? = some c) : start g.buffers i + c.length ≤ g.capacity := by
  rw [← start_succ hc, hi.capacity]
  exact start_le

theorem Inv.sorted (hi : Inv g) : g.offsets.Pairwise (· ≤ ·) := by
  rw [hi.offsets]
  apply List.pairwise_map.mpr
  exact List.pairwise_lt_range.imp fun h => start_mono (Nat.le_of_lt h)

/-- What `_ensureSize` makes of a buffer. -/
def grow (g : GrowableBuffer) (requested : Nat) : GrowableBuffer :=
  if requested ≤ g.size then g
  else if requested ≤ g.capacity then { g with size := requested }
  else
    let newBuffer := Buffer.alloc (max (requested - g.capacity) 4096)
    { size := requested
      capacity := g.capacity + newBuffer.length
      buffers := g.buffers ++ [newBuffer]
      offsets := g.offsets ++ [g.capacity] }

@[simp] theorem length_alloc (n : Nat) : (Buffer.alloc n).length = n := List.length_replicate

theorem Inv.ensureSize_eq (hi : Inv g) (requested : Nat) : g.ensureSize requested = .ok (g.grow requested) := by
  unfold ensureSize grow
  by_cases h1 : requested ≤ g.size
  · simp only [ge_iff_le, h1, if_true]
    rfl
  · by_cases h2 : requested ≤ g.capacity
    · simp only [ge_iff_le, h1, h2, if_true, if_false]
      rw [assert_of trivial]
      rfl
    · have h3 : requested ≤ g.capacity + max (requested - g.capacity) 4096 := by omega
      simp only [ge_iff_le, h1, h2, if_false, length_alloc]
      rw [assert_of h3, assert_of (by simp [hi.length_offsets])]
      rfl

theorem grow_size (g : GrowableBuffer) (requested : Nat) : (g.grow requested).size = max g.size requested := by
  unfold grow
  split
  · omega
  · split <;> (simp only; omega)

theorem grow_capacity (hi : Inv g) (requested : Nat) :
    (g.grow requested).capacity =
      if requested ≤ g.capacity then g.capacity else max requested (g.capacity + 4096) := by
  have := hi.size
  unfold grow
  by_cases h1 : requested ≤ g.size
  · rw [if_pos h1, if_pos (by omega)]
  · rw [if_neg h1]
    by_cases h2 : requested ≤ g.capacity
    · rw [if_pos h2, if_pos h2]
    · rw [if_neg h2, if_neg h2]
      simp only [length_alloc]
      omega

/-- The bytes stay, and new ones are zero. -/
theorem grow_flatten (g : GrowableBuffer) (requested : Nat) :
    (g.grow requested).buffers.flatten =
      g.buffers.flatten ++ Buffer.alloc ((g.grow requested).capacity - g.capacity) := by
  unfold grow
  split
  · simp [Buffer.alloc]
  · split
    · simp [Buffer.alloc]
    · simp only [List.flatten_append, length_alloc, Nat.add_sub_cancel_left]
      simp

/-- A chunk that was there is where it was. -/
theorem grow_buffers (hc : g.buffers[i]? = some c) (requested : Nat) : (g.grow requested).buffers[i]? = some c := by
  obtain ⟨h, -⟩ := List.getElem?_eq_some_iff.mp hc
  unfold grow
  split
  · exact hc
  · split
    · exact hc
    · rw [List.getElem?_append_left h]
      exact hc

theorem grow_start (h : i ≤ g.buffers.length) (requested : Nat) :
    start (g.grow requested).buffers i = start g.buffers i := by
  unfold grow
  split
  · rfl
  · split
    · rfl
    · exact start_append h

/-- A chunk that was not there begins at the old capacity and ends at the new one. -/
theorem grow_new (hc : (g.grow requested).buffers[i]? = some c) (h : g.buffers.length ≤ i) :
    i = g.buffers.length ∧ (g.grow requested).capacity = g.capacity + c.length := by
  unfold grow at hc ⊢
  by_cases h1 : requested ≤ g.size
  · rw [if_pos h1, List.getElem?_eq_none h] at hc
    cases hc
  · rw [if_neg h1] at hc ⊢
    by_cases h2 : requested ≤ g.capacity
    · rw [if_pos h2, List.getElem?_eq_none h] at hc
      cases hc
    · rw [if_neg h2] at hc ⊢
      rw [List.getElem?_append_right h, List.getElem?_singleton] at hc
      split at hc
      · cases hc
        exact ⟨by omega, rfl⟩
      · cases hc

theorem Inv.grow (hi : Inv g) (requested : Nat) : Inv (g.grow requested) := by
  have hs := hi.size
  unfold GrowableBuffer.grow
  by_cases h1 : requested ≤ g.size
  · rw [if_pos h1]
    exact hi
  · rw [if_neg h1]
    by_cases h2 : requested ≤ g.capacity
    · rw [if_pos h2]
      exact ⟨hi.offsets, hi.capacity, h2, hi.chunk⟩
    · rw [if_neg h2]
      refine ⟨?_, ?_, ?_, ?_⟩
      · simp only [List.length_append, List.length_singleton, List.range_succ, List.map_append, List.map_singleton]
        rw [start_append (Nat.le_refl _), start_length, ← hi.capacity, hi.offsets]
        congr 1
        apply List.map_congr_left
        intro j hj
        rw [start_append (Nat.le_of_lt (List.mem_range.mp hj))]
      · simp only [List.flatten_append, List.length_append, hi.capacity]
        simp
      · simp only [length_alloc]
        omega
      · intro c hc
        rcases List.mem_append.mp hc with hc | hc
        · exact hi.chunk c hc
        · rw [List.mem_singleton.mp hc, length_alloc]
          omega

/-! ## The chunk of an offset -/

theorem Inv.last (hi : Inv g) (h : g.buffers ≠ []) :
    g.offsets.getLastD 0 = start g.buffers (g.buffers.length - 1) := by
  have hl : 0 < g.buffers.length := List.length_pos_iff.mpr h
  have := hi.offset_at (List.getElem?_eq_getElem (show g.buffers.length - 1 < g.buffers.length by omega))
  rw [← hi.length_offsets] at this ⊢
  rw [List.getLastD_eq_getLast?, List.getLast?_eq_getElem?, this]
  rfl

theorem bufferAt_eq (hc : g.buffers[i]? = some c) : g.bufferAt i = .ok c := by
  unfold bufferAt
  rw [hc]

theorem Inv.findBuffer_last (hi : Inv g) (h : g.buffers ≠ []) (ho : start g.buffers (g.buffers.length - 1) ≤ offset) :
    g.findBuffer offset = .ok (g.buffers.length - 1) := by
  unfold findBuffer
  rw [assert_of (by rw [hi.length_offsets]; exact List.length_pos_iff.mpr h), hi.last h, hi.length_offsets]
  simp only [ge_iff_le, ho, if_true]
  rfl

theorem Inv.findBuffer_eq (hi : Inv g) (hc : g.buffers[i]? = some c) (h1 : start g.buffers i ≤ offset)
    (h2 : offset < start g.buffers i + c.length) : g.findBuffer offset = .ok i := by
  obtain ⟨hil, -⟩ := List.getElem?_eq_some_iff.mp hc
  have hne : g.buffers ≠ [] := List.length_pos_iff.mp (by omega)
  have hunique : ∀ j d, g.buffers[j]? = some d → start g.buffers j ≤ offset → offset < start g.buffers j + d.length → j = i :=
    fun j d hd h3 h4 => locate_unique hd hc ⟨h3, h4⟩ ⟨h1, h2⟩
  have hlast := List.getElem?_eq_getElem (show g.buffers.length - 1 < g.buffers.length by omega)
  have hcap : g.buffers.flatten.length = start g.buffers (g.buffers.length - 1) + g.buffers[g.buffers.length - 1].length := by
    rw [← start_succ hlast, ← start_length]
    congr 1
    omega
  by_cases ho : start g.buffers (g.buffers.length - 1) ≤ offset
  · have := hi.end_le hc
    rw [hi.findBuffer_last hne ho, hunique _ _ hlast ho (by rw [← hcap, ← hi.capacity]; omega)]
  · have hl : g.offsets.length ≠ 0 := by rw [hi.length_offsets]; omega
    have hol := hi.offset_at hlast
    obtain ⟨hol', hol⟩ := List.getElem?_eq_some_iff.mp hol
    have hfound : FirstNotSmaller g.offsets offset
        (binarySearch.loop g.offsets offset 0 g.offsets.length (by omega) (Nat.le_refl _)) :=
      binarySearch.loop_spec hi.sorted (by simp only [hi.length_offsets, hol]; omega) (fun j c hj => absurd hj (by omega))
    obtain ⟨⟨o, hr, hro⟩, hlow⟩ := hfound
    unfold findBuffer binarySearch
    rw [assert_of (by omega), hi.last hne]
    simp only [ge_iff_le, ho, if_false, hl, dif_neg, not_false_eq_true]
    generalize binarySearch.loop g.offsets offset 0 g.offsets.length _ _ = r at hr hlow ⊢
    obtain ⟨hrl, -⟩ := List.getElem?_eq_some_iff.mp hr
    rw [hi.length_offsets] at hrl
    have hrc := List.getElem?_eq_getElem hrl
    obtain rfl : start g.buffers r = o := Option.some.inj ((hi.offset_at hrc).symm.trans hr)
    rw [List.getD_eq_getElem?_getD, hr, Option.getD_some]
    by_cases hlt : offset < start g.buffers r
    · cases r with
      | zero => exact absurd hlt (by simp)
      | succ k =>
        have hkc := List.getElem?_eq_getElem (show k < g.buffers.length by omega)
        rw [start_succ hkc] at hlt
        simp only [gt_iff_lt, start_succ hkc, hlt, if_true]
        have := hunique k _ hkc (Nat.le_of_not_le (hlow k _ (by omega) (hi.offset_at hkc))) hlt
        exact congrArg Except.ok this
    · have := hi.chunk_at hrc
      simp only [gt_iff_lt, hlt, if_false]
      exact congrArg Except.ok (hunique r _ hrc (by omega) (by omega))

theorem Inv.chunkAt_eq (hi : Inv g) (hc : g.buffers[i]? = some c) (h1 : start g.buffers i ≤ offset)
    (h2 : offset < start g.buffers i + c.length) : g.chunkAt offset = .ok (i, c, start g.buffers i) := by
  unfold chunkAt
  rw [hi.findBuffer_eq hc h1 h2, ok_bind, bufferAt_eq hc, ok_bind, List.getD_eq_getElem?_getD, hi.offset_at hc]
  rfl

/-- The chunk of an offset below the capacity, and the offset in it. -/
theorem Inv.locate (hi : Inv g) (ho : offset < g.capacity) :
    ∃ i c n, g.buffers[i]? = some c ∧ offset = start g.buffers i + n ∧ n < c.length ∧
      g.chunkAt offset = .ok (i, c, start g.buffers i) := by
  obtain ⟨i, c, hc, h1, h2⟩ := Chunks.locate (hi.capacity ▸ ho)
  exact ⟨i, c, offset - start g.buffers i, hc, by omega, by omega, hi.chunkAt_eq hc h1 h2⟩

/-- A chunk that ends before the capacity is followed by another. -/
theorem Inv.next (hi : Inv g) (hc : g.buffers[i]? = some c) (h : start g.buffers i + c.length < g.capacity) :
    ∃ d, g.buffers[i + 1]? = some d := by
  by_cases hl : i + 1 < g.buffers.length
  · exact ⟨_, List.getElem?_eq_getElem hl⟩
  · obtain ⟨hil, -⟩ := List.getElem?_eq_some_iff.mp hc
    have : i + 1 = g.buffers.length := by omega
    rw [← start_succ hc, this, start_length, hi.capacity] at h
    omega

/-! ## Bytes written into chunks -/

theorem Inv.setBuffer (hi : Inv g) (hc : g.buffers[i]? = some c) (hl : d.length = c.length) :
    Inv (g.setBuffer i d) := by
  have hs : start (g.buffers.set i d) = start g.buffers := funext (start_set hc hl)
  refine ⟨?_, ?_, hi.size, fun b hb => ?_⟩
  · show g.offsets = (List.range (g.buffers.set i d).length).map (start (g.buffers.set i d))
    rw [hs, List.length_set]
    exact hi.offsets
  · show g.capacity = (g.buffers.set i d).flatten.length
    rw [hi.capacity, ← start_length, ← start_length, hs, List.length_set]
  · rcases List.mem_or_eq_of_mem_set hb with hb | rfl
    · exact hi.chunk b hb
    · rw [hl]
      exact hi.chunk_at hc

/-- The buffer with some bytes overwritten and everything else as it was. -/
structure Wrote (g : GrowableBuffer) (bytes : Buffer) (offset : Nat) (g' : GrowableBuffer) : Prop where
  inv : Inv g'
  size : g'.size = g.size
  capacity : g'.capacity = g.capacity
  flatten : g'.buffers.flatten = overwrite g.buffers.flatten offset bytes

variable {n : Nat} {bs bs' : Buffer}

theorem Inv.wrote (hi : Inv g) (hc : g.buffers[i]? = some c) (hn : n + bs.length ≤ c.length) :
    Wrote g bs (start g.buffers i + n) (g.setBuffer i (overwrite c n bs)) :=
  ⟨hi.setBuffer hc (length_overwrite hn), rfl, rfl, flatten_set hc hn⟩

theorem Inv.wrote_straddle (hi : Inv g) (hc : g.buffers[i]? = some c) (hd : g.buffers[i + 1]? = some d)
    (hn : n + bs.length = c.length) (hn' : bs'.length ≤ d.length) :
    Wrote g (bs ++ bs') (start g.buffers i + n)
      ((g.setBuffer i (overwrite c n bs)).setBuffer (i + 1) (overwrite d 0 bs')) := by
  have hd' : (g.setBuffer i (overwrite c n bs)).buffers[i + 1]? = some d := by
    show (g.buffers.set i _)[i + 1]? = some d
    rw [List.getElem?_set_ne (by omega)]
    exact hd
  refine ⟨Inv.setBuffer ?_ hd' (length_overwrite (by omega)), rfl, rfl, flatten_straddle hc hd hn hn'⟩
  exact hi.setBuffer hc (length_overwrite (by omega))

/-! ## Integers -/

theorem Inv.end_le_grow (hi : Inv g) (requested : Nat) : requested ≤ (g.grow requested).capacity := by
  have := (hi.grow requested).size
  rw [grow_size] at this
  omega

theorem writeUInt8_wrote (hi : Inv g) {value : Nat} (hv : value < 2 ^ 8) (offset : Nat) :
    ∃ g', g.writeUInt8 value offset = .ok g' ∧ Wrote (g.grow (offset + 1)) (Buffer.littleEndian 1 value) offset g' := by
  have hi' := hi.grow (offset + 1)
  have hend := hi.end_le_grow (offset + 1)
  obtain ⟨i, c, n, hc, hn, hlt, hat⟩ := hi'.locate (show offset < _ by omega)
  have hsub : offset - start (g.grow (offset + 1)).buffers i = n := by omega
  simp only [writeUInt8, hi.ensureSize_eq, ok_bind, hat, hsub, assert_of hlt]
  generalize g.grow (offset + 1) = g₁ at hi' hc hn ⊢
  rw [Buffer.writeUInt8, Buffer.writeUIntLE_eq (by decide) (by omega) (by omega), ok_bind]
  refine ⟨_, rfl, ?_⟩
  rw [hn]
  exact hi'.wrote hc (by simp; omega)

/-- Within a chunk, or over the end of one. -/
theorem writeUInt16LE_cases (hi : Inv g) {value : ℚ} (hv : 0 ≤ value ∧ value ≤ 65536) (offset : Nat) :
    ∃ i c n, (g.grow (offset + 2)).buffers[i]? = some c ∧ offset = start (g.grow (offset + 2)).buffers i + n ∧ n < c.length ∧
      ((n + 2 ≤ c.length ∧
          g.writeUInt16LE value offset = (c.writeUInt16LE value n).map ((g.grow (offset + 2)).setBuffer i)) ∨
        (c.length < n + 2 ∧
          (Buffer.toUint32 value < 2 ^ 16 → ∃ g', g.writeUInt16LE value offset = .ok g' ∧
            Wrote (g.grow (offset + 2)) (Buffer.littleEndian 2 (Buffer.toUint32 value)) offset g') ∧
          (2 ^ 16 ≤ Buffer.toUint32 value → g.writeUInt16LE value offset = .error .outOfRange))) := by
  have hi' := hi.grow (offset + 2)
  have hend := hi.end_le_grow (offset + 2)
  obtain ⟨i, c, n, hc, hn, hlt, hat⟩ := hi'.locate (show offset < _ by omega)
  refine ⟨i, c, n, hc, hn, hlt, ?_⟩
  have hsub : offset - start (g.grow (offset + 2)).buffers i = n := by omega
  simp only [writeUInt16LE, assert_of hv, hi.ensureSize_eq, ok_bind, hat, hsub, assert_of hlt]
  generalize g.grow (offset + 2) = g₁ at hi' hend hc hn ⊢
  generalize Buffer.toUint32 value = bits
  by_cases hs : n + 2 > c.length
  · obtain ⟨d, hd⟩ := hi'.next hc (by omega)
    have hdl := hi'.chunk_at hd
    have hb := Nat.shiftRight_eq_div_pow bits 8
    refine Or.inr ⟨hs, ?_, ?_⟩
    · intro hbits
      rw [if_pos hs, bufferAt_eq hd, ok_bind, Buffer.writeUInt8, Nat.and_two_pow_sub_one_eq_mod bits 8,
        Buffer.writeUIntLE_eq (by decide) (by omega) (by omega), ok_bind,
        Buffer.writeUIntLE_eq (by decide) (by omega) (by omega), ok_bind]
      refine ⟨_, rfl, ?_⟩
      rw [Buffer.littleEndian_add 1 1 bits, hn, ← Buffer.littleEndian_mod 1 bits]
      exact hi'.wrote_straddle hc hd (by simp; omega) (by simp; omega)
    · intro hbits
      -- the second byte is out of range
      have hhigh : (2 : ℚ) ^ (8 * 1) - 1 < (bits >>> 8 : Nat) := by
        have hle : 2 ^ 8 ≤ bits >>> 8 := by omega
        have hcast : ((2 ^ 8 : Nat) : ℚ) ≤ (bits >>> 8 : Nat) := Nat.cast_le.mpr hle
        rw [Nat.cast_pow] at hcast
        norm_num at hcast ⊢
        linarith
      rw [if_pos hs, bufferAt_eq hd, ok_bind, Buffer.writeUInt8, Nat.and_two_pow_sub_one_eq_mod bits 8,
        Buffer.writeUIntLE_eq (by decide) (by omega) (by omega), ok_bind, Buffer.writeUIntLE_of_lt hhigh, error_bind]
  · refine Or.inl ⟨by omega, ?_⟩
    rw [if_neg hs]
    cases Buffer.writeUInt16LE c value n with
    | error e => rfl
    | ok c' => rfl

theorem writeUInt16LE_wrote (hi : Inv g) {value : Nat} (hv : value < 2 ^ 16) (offset : Nat) :
    ∃ g', g.writeUInt16LE value offset = .ok g' ∧ Wrote (g.grow (offset + 2)) (Buffer.littleEndian 2 value) offset g' := by
  have hle : (value : ℚ) ≤ 65536 := by exact_mod_cast (Nat.le_of_lt hv)
  have hbits : Buffer.toUint32 value = value := by
    rw [Buffer.toUint32_natCast]
    omega
  obtain ⟨i, c, n, hc, hn, hlt, hinside | hstraddles⟩ := writeUInt16LE_cases hi ⟨Nat.cast_nonneg value, hle⟩ offset
  · rw [hinside.2, Buffer.writeUInt16LE, Buffer.writeUIntLE_eq (by decide) (by omega) hinside.1]
    refine ⟨_, rfl, ?_⟩
    have hroom : n + (Buffer.littleEndian 2 value).length ≤ c.length := by rw [Buffer.length_littleEndian]; exact hinside.1
    have hwrote := (hi.grow (offset + 2)).wrote hc hroom
    rwa [← hn] at hwrote
  · have hwrote := hstraddles.2.1
    rw [hbits] at hwrote
    exact hwrote hv

theorem writeUInt32LE_cases (hi : Inv g) {value : ℚ} (hv : 0 ≤ value ∧ value ≤ 2 ^ 32) (offset : Nat) :
    ∃ i c n, (g.grow (offset + 4)).buffers[i]? = some c ∧ offset = start (g.grow (offset + 4)).buffers i + n ∧ n < c.length ∧
      ((n + 4 ≤ c.length ∧
          g.writeUInt32LE value offset = (c.writeUInt32LE value n).map ((g.grow (offset + 4)).setBuffer i)) ∨
        (c.length < n + 4 ∧ ∃ g', g.writeUInt32LE value offset = .ok g' ∧
          Wrote (g.grow (offset + 4)) (Buffer.littleEndian 4 (Buffer.toUint32 value)) offset g')) := by
  have hi' := hi.grow (offset + 4)
  have hend := hi.end_le_grow (offset + 4)
  obtain ⟨i, c, n, hc, hn, hlt, hat⟩ := hi'.locate (show offset < _ by omega)
  refine ⟨i, c, n, hc, hn, hlt, ?_⟩
  have hsub : offset - start (g.grow (offset + 4)).buffers i = n := by omega
  simp only [writeUInt32LE, assert_of hv, hi.ensureSize_eq, ok_bind, hat, hsub, assert_of hlt]
  generalize g.grow (offset + 4) = g₁ at hi' hend hc hn ⊢
  have hbits := Buffer.toUint32_lt value
  generalize Buffer.toUint32 value = bits at hbits ⊢
  have hb8 := Nat.shiftRight_eq_div_pow bits 8
  have hb16 := Nat.shiftRight_eq_div_pow bits 16
  have hb24 := Nat.shiftRight_eq_div_pow bits 24
  by_cases hs : n + 4 > c.length
  · obtain ⟨d, hd⟩ := hi'.next hc (by omega)
    have hdl := hi'.chunk_at hd
    obtain ⟨k, hk⟩ : ∃ k, c.length - n = k := ⟨_, rfl⟩
    refine Or.inr ⟨hs, ?_⟩
    rw [if_pos hs, hk, assert_of (by omega), ok_bind, bufferAt_eq hd, ok_bind, assert_of (by omega), ok_bind, hn]
    -- one, two or three of the bytes go to the first chunk
    obtain rfl | rfl | rfl : k = 1 ∨ k = 2 ∨ k = 3 := by omega
    · have hsplit := Buffer.littleEndian_add 1 3 bits
      rw [Buffer.littleEndian_add 1 2 (bits >>> 8), ← Nat.shiftRight_add] at hsplit
      simp only [Buffer.writeUInt8, Buffer.writeUInt16LE, Nat.and_two_pow_sub_one_eq_mod _ 8]
      rw [Buffer.writeUIntLE_eq (by decide) (by omega) (by omega), ok_bind,
        Buffer.writeUIntLE_twice (by decide) (by decide) (by omega) (by omega) rfl (by omega)]
      refine ⟨_, rfl, ?_⟩
      rw [hsplit, ← Buffer.littleEndian_mod 1 bits, ← Buffer.littleEndian_mod 1 (bits >>> 8)]
      exact hi'.wrote_straddle hc hd (by simp; omega) (by simp; omega)
    · have hsplit := Buffer.littleEndian_add 2 2 bits
      simp only [Buffer.writeUInt16LE, Nat.and_two_pow_sub_one_eq_mod _ 16]
      rw [Buffer.writeUIntLE_eq (by decide) (by omega) (by omega), ok_bind,
        Buffer.writeUIntLE_eq (by decide) (by omega) (by omega), ok_bind]
      refine ⟨_, rfl, ?_⟩
      rw [hsplit, ← Buffer.littleEndian_mod 2 bits]
      exact hi'.wrote_straddle hc hd (by simp; omega) (by simp; omega)
    · have hsplit := Buffer.littleEndian_add 1 3 bits
      rw [Buffer.littleEndian_add 2 1 (bits >>> 8), ← Nat.shiftRight_add, ← List.append_assoc] at hsplit
      simp only [Buffer.writeUInt8, Buffer.writeUInt16LE, Nat.and_two_pow_sub_one_eq_mod _ 8,
        Nat.and_two_pow_sub_one_eq_mod _ 16]
      rw [Buffer.writeUIntLE_twice (by decide) (by decide) (by omega) (by omega) rfl (by omega),
        Buffer.writeUIntLE_eq (by decide) (by omega) (by omega), ok_bind]
      refine ⟨_, rfl, ?_⟩
      rw [hsplit, ← Buffer.littleEndian_mod 1 bits, ← Buffer.littleEndian_mod 2 (bits >>> 8)]
      exact hi'.wrote_straddle hc hd (by simp; omega) (by simp; omega)
  · refine Or.inl ⟨by omega, ?_⟩
    rw [if_neg hs]
    cases Buffer.writeUInt32LE c value n with
    | error e => rfl
    | ok c' => rfl

theorem writeUInt32LE_wrote (hi : Inv g) {value : Nat} (hv : value < 2 ^ 32) (offset : Nat) :
    ∃ g', g.writeUInt32LE value offset = .ok g' ∧ Wrote (g.grow (offset + 4)) (Buffer.littleEndian 4 value) offset g' := by
  have hle : (value : ℚ) ≤ 2 ^ 32 := by exact_mod_cast (Nat.le_of_lt hv)
  have hbits : Buffer.toUint32 value = value := by
    rw [Buffer.toUint32_natCast, Nat.mod_eq_of_lt hv]
  obtain ⟨i, c, n, hc, hn, hlt, hinside | hstraddles⟩ := writeUInt32LE_cases hi ⟨Nat.cast_nonneg value, hle⟩ offset
  · rw [hinside.2, Buffer.writeUInt32LE, Buffer.writeUIntLE_eq (by decide) hv hinside.1]
    refine ⟨_, rfl, ?_⟩
    have hroom : n + (Buffer.littleEndian 4 value).length ≤ c.length := by rw [Buffer.length_littleEndian]; exact hinside.1
    have hwrote := (hi.grow (offset + 4)).wrote hc hroom
    rwa [← hn] at hwrote
  · have hwrote := hstraddles.2
    rwa [hbits] at hwrote

/-! ## Bytes -/

/-- No chunk lies inside the range: one that begins after its first byte ends no sooner
    than it does. -/
def Clear (g : GrowableBuffer) (offset length : Nat) : Prop :=
  ∀ j < g.buffers.length, offset < g.offsets.getD j 0 →
    offset + length ≤ g.offsets.getD j 0 + (g.buffers.getD j []).length

instance (g : GrowableBuffer) (offset length : Nat) : Decidable (g.Clear offset length) :=
  inferInstanceAs (Decidable (∀ j < g.buffers.length, offset < g.offsets.getD j 0 →
    offset + length ≤ g.offsets.getD j 0 + (g.buffers.getD j []).length))

theorem Inv.clear_iff (hi : Inv g) {length : Nat} :
    g.Clear offset length ↔ ∀ j c, g.buffers[j]? = some c → offset < start g.buffers j →
      offset + length ≤ start g.buffers j + c.length := by
  unfold Clear
  constructor
  · intro h j c hc hlt
    obtain ⟨hj, -⟩ := List.getElem?_eq_some_iff.mp hc
    have := h j hj
    rw [List.getD_eq_getElem?_getD, hi.offset_at hc, List.getD_eq_getElem?_getD, hc] at this
    exact this hlt
  · intro h j hj hlt
    have hc := List.getElem?_eq_getElem hj
    rw [List.getD_eq_getElem?_getD, hi.offset_at hc] at hlt ⊢
    rw [List.getD_eq_getElem?_getD, hc]
    exact h j _ hc hlt

/-- A new chunk ends where the write does or later, and does not stand in its way. -/
theorem Inv.clear_grow (hi : Inv g) {length : Nat} :
    (g.grow (offset + length)).Clear offset length ↔ g.Clear offset length := by
  have hi' := hi.grow (offset + length)
  have hend := hi.end_le_grow (offset + length)
  rw [hi.clear_iff, hi'.clear_iff]
  constructor
  · intro h j c hc
    obtain ⟨hj, -⟩ := List.getElem?_eq_some_iff.mp hc
    have := h j c (grow_buffers hc _)
    rw [grow_start (Nat.le_of_lt hj)] at this
    exact this
  · intro h j c hc
    by_cases hj : j < g.buffers.length
    · have hg := List.getElem?_eq_getElem hj
      obtain rfl : g.buffers[j] = c := Option.some.inj ((grow_buffers hg _).symm.trans hc)
      rw [grow_start (Nat.le_of_lt hj)]
      exact h j _ hg
    · obtain ⟨rfl, hcap⟩ := grow_new hc (by omega)
      rw [grow_start (Nat.le_refl _), start_length, ← hi.capacity, ← hcap]
      exact fun _ => hend

/-- What a write needs of the buffer before it. -/
def Fits (g : GrowableBuffer) : Write → Prop
  | .buffer [] offset => offset ≠ g.capacity ∧ offset < g.capacity + 4096
  | .buffer fromBuffer offset => g.Clear offset fromBuffer.length
  | _ => True

/-- No chunk is at or past the capacity. -/
theorem Inv.chunkAt_past (hi : Inv g) (ho : g.capacity ≤ offset) :
    g.chunkAt offset = .error .assertion ∨
      ∃ i c, g.chunkAt offset = .ok (i, c, start g.buffers i) ∧ c.length ≤ offset - start g.buffers i := by
  by_cases hne : g.buffers = []
  · left
    unfold chunkAt findBuffer
    rw [assert_not (by rw [hi.length_offsets, hne]; simp)]
    rfl
  · right
    have hpos := List.length_pos_iff.mpr hne
    have hlast := List.getElem?_eq_getElem (show g.buffers.length - 1 < g.buffers.length by omega)
    have hcap := hi.end_le hlast
    have hend : g.capacity = start g.buffers (g.buffers.length - 1) + g.buffers[g.buffers.length - 1].length := by
      rw [hi.capacity, ← start_succ hlast, ← start_length]
      congr 1
      omega
    refine ⟨g.buffers.length - 1, g.buffers[g.buffers.length - 1], ?_, by omega⟩
    unfold chunkAt
    rw [hi.findBuffer_last hne (by omega), ok_bind, bufferAt_eq hlast, ok_bind, List.getD_eq_getElem?_getD,
      hi.offset_at hlast]
    rfl

theorem writeBuffer_past (hi : Inv g) (ho : (g.grow (offset + bs.length)).capacity ≤ offset) :
    g.writeBuffer bs offset = .error .assertion := by
  rcases (hi.grow (offset + bs.length)).chunkAt_past ho with h | ⟨i, c, h, hlen⟩
  · simp only [writeBuffer, hi.ensureSize_eq, ok_bind, h, error_bind]
  · simp only [writeBuffer, hi.ensureSize_eq, ok_bind, h]
    rw [assert_not (by omega)]
    rfl

@[simp] theorem copy_eq {source target : Buffer} {n m : Nat} (hm : m ≤ source.length) (hn : n + m ≤ target.length) :
    source.copy target n 0 m = overwrite target n (source.take m) := by
  unfold Buffer.copy
  rw [List.drop_zero, List.take_of_length_le]
  rw [List.length_take]
  omega

theorem copy_rest {source target : Buffer} {m : Nat} (hn : source.length - m ≤ target.length) :
    source.copy target 0 m source.length = overwrite target 0 (source.drop m) := by
  unfold Buffer.copy
  rw [List.take_length, List.take_of_length_le]
  rw [List.length_drop]
  omega

/-- Where the offset is in a chunk, the write needs the chunk and the one after it. -/
theorem writeBuffer_inside (hi : Inv g) (ho : offset < (g.grow (offset + bs.length)).capacity) :
    ((∃ g', g.writeBuffer bs offset = .ok g') ↔ g.Clear offset bs.length) ∧
      ∀ g', g.writeBuffer bs offset = .ok g' → Wrote (g.grow (offset + bs.length)) bs offset g' := by
  have hi' := hi.grow (offset + bs.length)
  have hend := hi.end_le_grow (offset + bs.length)
  obtain ⟨i, c, n, hc, hn, hlt, hat⟩ := hi'.locate ho
  have hsub : offset - start (g.grow (offset + bs.length)).buffers i = n := by omega
  have hin : offset ≥ start (g.grow (offset + bs.length)).buffers i ∧ n < c.length := ⟨by omega, hlt⟩
  rw [← hi.clear_grow, hi'.clear_iff]
  simp only [writeBuffer, hi.ensureSize_eq, ok_bind, hat, hsub, assert_of hin]
  generalize g.grow (offset + bs.length) = g₁ at hi' hend hc hn ⊢
  -- the chunks that begin after the offset are the ones after its own
  have hafter : ∀ j, offset < start g₁.buffers j → i + 1 ≤ j := by
    intro j hj
    by_cases h : i + 1 ≤ j
    · exact h
    · have : start g₁.buffers j ≤ start g₁.buffers i := start_mono (by omega)
      omega
  by_cases hs : n + bs.length > c.length
  · obtain ⟨d, hd⟩ := hi'.next hc (by omega)
    have hdstart := start_succ hc
    rw [if_pos hs, assert_of (show c.length - n < bs.length by omega), ok_bind, bufferAt_eq hd, ok_bind,
      copy_eq (by omega) (by omega)]
    by_cases hfit : bs.length - (c.length - n) ≤ d.length
    · rw [assert_of hfit, ok_bind, copy_rest hfit]
      refine ⟨⟨fun _ j e he hj => ?_, fun _ => ⟨_, rfl⟩⟩, fun g' hg' => ?_⟩
      · have : start g₁.buffers (i + 1 + 1) ≤ start g₁.buffers (j + 1) := start_mono (Nat.succ_le_succ (hafter j hj))
        rw [start_succ he, start_succ hd] at this
        omega
      · obtain rfl := Except.ok.inj hg'
        have hfirst : n + (bs.take (c.length - n)).length = c.length := by rw [List.length_take]; omega
        have hrest : (bs.drop (c.length - n)).length ≤ d.length := by rw [List.length_drop]; omega
        have hw := hi'.wrote_straddle hc hd hfirst hrest
        rw [List.take_append_drop, ← hn] at hw
        exact hw
    · rw [assert_not hfit, error_bind]
      refine ⟨⟨fun h => ?_, fun h => ?_⟩, fun g' hg' => ?_⟩
      · obtain ⟨g', hg'⟩ := h
        cases hg'
      · have := h (i + 1) d hd (by omega)
        omega
      · cases hg'
  · rw [if_neg hs, copy_eq (Nat.le_refl _) (by omega), List.take_length]
    refine ⟨⟨fun _ j e he hj => ?_, fun _ => ⟨_, rfl⟩⟩, fun g' hg' => ?_⟩
    · have : start g₁.buffers (i + 1) ≤ start g₁.buffers j := start_mono (hafter j hj)
      rw [start_succ hc] at this
      omega
    · obtain rfl := Except.ok.inj hg'
      rw [hn]
      exact hi'.wrote hc (by omega)

/-! ## The flat array -/

/-- An array of bytes without end, and how much of it is used. -/
structure Flat where
  bytes : Nat → UInt8 := fun _ => 0
  length : Nat := 0

namespace Flat

def write (f : Flat) (w : Write) : Flat where
  bytes i := if w.offset ≤ i ∧ i < w.offset + w.bytes.length then w.bytes.getD (i - w.offset) 0 else f.bytes i
  length := max f.length (w.offset + w.bytes.length)

def toBuffer (f : Flat) : Buffer := (List.range f.length).map f.bytes

/-- The writes performed on a zero-filled array. -/
def writes (ws : List Write) : Flat := ws.foldl write {}

end Flat

/-- The buffer holds what the flat array does, and zeros up to its capacity. -/
structure Refines (g : GrowableBuffer) (f : Flat) : Prop where
  inv : Inv g
  size : g.size = f.length
  bytes : ∀ i < g.capacity, g.buffers.flatten[i]? = some (f.bytes i)
  zero : ∀ i, f.length ≤ i → f.bytes i = 0

variable {f : Flat} {w : Write}

theorem refines_new : Refines {} {} := ⟨inv_new, rfl, fun i hi => absurd hi (by simp), fun _ _ => rfl⟩

theorem Refines.toBuffer_eq (h : Refines g f) : g.toBuffer = f.toBuffer := by
  have hsize := h.inv.size
  have hcap := h.inv.capacity
  have hlen : (g.buffers.flatten.take g.size).length = g.size := by rw [List.length_take]; omega
  unfold toBuffer Buffer.concat Flat.toBuffer
  simp only [hlen, Nat.sub_self]
  rw [show Buffer.alloc 0 = [] from rfl, List.append_nil]
  apply List.ext_getElem?
  intro i
  by_cases hi : i < g.size
  · rw [List.getElem?_take_of_lt hi, h.bytes i (by omega), List.getElem?_map, List.getElem?_range (h.size ▸ hi)]
    rfl
  · rw [List.getElem?_eq_none (by omega), List.getElem?_eq_none]
    rw [List.length_map, List.length_range, ← h.size]
    omega

/-- What is written on the grown buffer is written on the array. -/
theorem Refines.wrote (h : Refines g f) (hw : Wrote (g.grow (w.offset + w.bytes.length)) w.bytes w.offset g') :
    Refines g' (f.write w) := by
  have hi' := h.inv.grow (w.offset + w.bytes.length)
  have hend := h.inv.end_le_grow (w.offset + w.bytes.length)
  have hflat := grow_flatten g (w.offset + w.bytes.length)
  have hcap := h.inv.capacity
  have hsize := h.inv.size
  refine ⟨hw.inv, ?_, fun i hi => ?_, fun i hi => ?_⟩
  · rw [hw.size, grow_size, h.size]
    rfl
  · rw [hw.flatten, getElem?_overwrite (by rw [← hi'.capacity]; exact hend)]
    unfold Flat.write
    simp only
    by_cases hin : w.offset ≤ i ∧ i < w.offset + w.bytes.length
    · rw [if_pos hin, if_pos hin, List.getElem?_eq_getElem (by omega), List.getD_eq_getElem _ _ (by omega)]
    · rw [if_neg hin, if_neg hin, hflat, List.getElem?_append]
      by_cases hold : i < g.capacity
      · rw [if_pos (by omega)]
        exact h.bytes i hold
      · rw [hw.capacity] at hi
        rw [if_neg (by omega), Buffer.alloc, List.getElem?_replicate, if_pos (by omega), h.zero i (by rw [← h.size]; omega)]
  · unfold Flat.write at hi ⊢
    simp only at hi ⊢
    rw [if_neg (by omega)]
    exact h.zero i (by omega)

/-- An empty buffer needs a chunk where it is written. -/
theorem Inv.fits_nil (hi : Inv g) (offset : Nat) :
    g.Fits (.buffer [] offset) ↔ offset < (g.grow (offset + 0)).capacity := by
  rw [grow_capacity hi]
  show (offset ≠ g.capacity ∧ offset < g.capacity + 4096) ↔ _
  split <;> omega

/-- A write that fits does what it does to a flat array, and one that does not fails. -/
theorem Refines.write (h : Refines g f) (w : Write) :
    ((∃ g', g.write w = .ok g') ↔ g.Fits w) ∧ ∀ g', g.write w = .ok g' → Refines g' (f.write w) := by
  cases w with
  | uint8 value offset =>
    obtain ⟨g', hg', hw⟩ := writeUInt8_wrote h.inv (UInt8.toNat_lt value) offset
    exact ⟨⟨fun _ => trivial, fun _ => ⟨g', hg'⟩⟩, fun g'' hg'' => Except.ok.inj (hg'.symm.trans hg'') ▸ h.wrote hw⟩
  | uint16LE value offset =>
    obtain ⟨g', hg', hw⟩ := writeUInt16LE_wrote h.inv (UInt16.toNat_lt value) offset
    exact ⟨⟨fun _ => trivial, fun _ => ⟨g', hg'⟩⟩, fun g'' hg'' => Except.ok.inj (hg'.symm.trans hg'') ▸ h.wrote hw⟩
  | uint32LE value offset =>
    obtain ⟨g', hg', hw⟩ := writeUInt32LE_wrote h.inv (UInt32.toNat_lt value) offset
    exact ⟨⟨fun _ => trivial, fun _ => ⟨g', hg'⟩⟩, fun g'' hg'' => Except.ok.inj (hg'.symm.trans hg'') ▸ h.wrote hw⟩
  | buffer bs offset =>
    have hi := h.inv
    by_cases ho : offset < (g.grow (offset + bs.length)).capacity
    · obtain ⟨hok, hwrote⟩ := writeBuffer_inside hi ho
      refine ⟨hok.trans ?_, fun g' hg' => h.wrote (hwrote g' hg')⟩
      cases bs with
      | cons b bs => exact Iff.rfl
      | nil =>
        refine ⟨fun _ => (hi.fits_nil offset).mpr ho, fun _ => hi.clear_iff.mpr fun j c _ hj => ?_⟩
        simp only [List.length_nil]
        omega
    · have hend := hi.end_le_grow (offset + bs.length)
      have hfail := writeBuffer_past hi (Nat.le_of_not_lt ho)
      obtain rfl : bs = [] := List.eq_nil_of_length_eq_zero (by omega)
      refine ⟨⟨fun ⟨g', hg'⟩ => ?_, fun hf => absurd ((hi.fits_nil offset).mp hf) ho⟩, fun g' hg' => ?_⟩
      · cases hfail.symm.trans hg'
      · cases hfail.symm.trans hg'

/-! ## Runs -/

/-- Every write fits the buffer it comes to. -/
def AllFit (g : GrowableBuffer) : List Write → Prop
  | [] => True
  | w :: ws => g.Fits w ∧ ∀ g', g.write w = .ok g' → g'.AllFit ws

theorem Refines.run (h : Refines g f) (ws : List Write) :
    ((∃ g', ws.foldlM GrowableBuffer.write g = .ok g') ↔ g.AllFit ws) ∧
      ∀ g', ws.foldlM GrowableBuffer.write g = .ok g' → Refines g' (ws.foldl Flat.write f) := by
  induction ws generalizing g f with
  | nil => exact ⟨⟨fun _ => trivial, fun _ => ⟨g, rfl⟩⟩, fun g' hg' => Except.ok.inj hg' ▸ h⟩
  | cons w ws ih =>
    obtain ⟨hok, href⟩ := h.write w
    rw [List.foldlM_cons, List.foldl_cons]
    refine ⟨⟨fun ⟨g', hg'⟩ => ?_, fun ⟨hfit, hrest⟩ => ?_⟩, fun g' hg' => ?_⟩
    · obtain ⟨g₁, hw, hrun⟩ := bind_ok hg'
      refine ⟨hok.mp ⟨g₁, hw⟩, fun g₂ hw' => ?_⟩
      obtain rfl := Except.ok.inj (hw.symm.trans hw')
      exact (ih (href g₁ hw)).1.mp ⟨g', hrun⟩
    · obtain ⟨g₁, hw⟩ := hok.mpr hfit
      rw [hw, ok_bind]
      exact (ih (href g₁ hw)).1.mpr (hrest g₁ hw)
    · obtain ⟨g₁, hw, hrun⟩ := bind_ok hg'
      exact (ih (href g₁ hw)).2 g' hrun

/-- Writes into a new buffer raise nothing and leave what they leave in a flat array
    exactly when each of them fits. -/
theorem writes_refine_iff (ws : List Write) :
    (∃ g, writes ws = .ok g ∧ g.toBuffer = (Flat.writes ws).toBuffer) ↔ AllFit {} ws := by
  obtain ⟨hok, href⟩ := refines_new.run ws
  rw [← hok]
  constructor
  · rintro ⟨g, hg, -⟩
    exact ⟨g, hg⟩
  · rintro ⟨g, hg⟩
    exact ⟨g, hg, (href g hg).toBuffer_eq⟩

/-- An empty buffer written into a new one. -/
theorem write_nothing_fails :
    ¬∃ g, writes [.buffer [] 0] = .ok g ∧ g.toBuffer = (Flat.writes [.buffer [] 0]).toBuffer := by
  rintro ⟨g, hg, -⟩
  cases hg

end GrowableBuffer

end GenieCloud.Util
