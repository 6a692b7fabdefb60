import Lhatove.Graphics.SpriteBatch
import Lhatove.Lib.Bits

/-!
# Clears of buffers

`Buffer::clear` of a buffer of the GPU, with `glClearBufferSubData` and on an older
OpenGL. A clear does what it says exactly if its end does not wrap and, on an older
OpenGL, the rest of the buffer has nothing to lose.
-/

namespace Lhatove.Opengl

open Graphics (BufferDataUsage)
open List

/-- A buffer of the GPU. Its size is a `GLsizeiptr`. -/
structure Buffer where
  data : List Byte
  dataUsage : BufferDataUsage
  immutable : Bool
  mapped : Bool
  fits : data.length < 2 ^ 63

/-- Where the program runs: `GLAD_VERSION_4_3`, and the vectors that there is memory for. -/
structure Platform where
  version43 : Bool
  allocates : Nat → Bool

/-- Bytes that are all zero. -/
def emptydata (size : Nat) : List Byte := List.replicate size 0

@[simp] theorem emptydata_length (size : Nat) : (emptydata size).length = size :=
  length_replicate

namespace Buffer

def getSize (b : Buffer) : Nat := b.data.length

/-- OpenGL does nothing but note an error if bytes would lie outside of the buffer. -/
def subData (data : List Byte) (offset : Nat) (bytes : List Byte) : List Byte :=
  if offset + bytes.length ≤ data.length then overwrite data offset bytes else data

theorem subData_length (data : List Byte) (offset : Nat) (bytes : List Byte) :
    (subData data offset bytes).length = data.length := by
  rw [subData]
  split_ifs with h
  · exact overwrite_length h
  · rfl

/-- The same buffer with other bytes in it. -/
def store (b : Buffer) (offset : Nat) (bytes : List Byte) : Buffer :=
  { b with
    data := subData b.data offset bytes
    fits := (subData_length b.data offset bytes).symm ▸ b.fits }

/-- `glClearBufferSubData`, without data -/
def clearBufferSubData (b : Buffer) (offset size : Nat) : Buffer := b.store offset (emptydata size)

/-- `fill`; the new memory that may replace that of the whole buffer is filled just the same. -/
def fill (b : Buffer) (offset size : Nat) (bytes : List Byte) : Buffer × Bool :=
  if size = 0 ∨ b.immutable = true ∨ b.dataUsage = .readback then
    (b, false)
  else if (Range.ofSize 0 b.getSize).contains (Range.ofSize offset size) = false then
    (b, false)
  else
    (b.store offset bytes, true)

def clearInternal (p : Platform) (b : Buffer) (offset size : Nat) : Except String Buffer :=
  if p.version43 = true then
    .ok (b.clearBufferSubData offset size)
  else if p.allocates b.getSize = true then
    .ok (b.fill 0 b.getSize (emptydata b.getSize)).1
  else
    .error "Out of memory."

/-- `clear`; the end of the range is a `size_t`. -/
def clear (p : Platform) (b : Buffer) (offset size : Nat) : Except String Buffer :=
  if b.immutable = true then
    .error "Cannot clear an immutable Buffer."
  else if b.mapped = true then
    .error "Cannot clear a mapped Buffer."
  else if b.getSize < (offset + size) % 2 ^ 64 then
    .error "The given offset and size parameters to clear() are not within the Buffer's size."
  else if offset % 4 ≠ 0 ∨ size % 4 ≠ 0 then
    .error "clear() must be used with offset and size parameters that are multiples of 4 bytes."
  else
    clearInternal p b offset size

/-! ## Bytes that are cleared -/

/-- The bytes of a range are zero, the others what they were. -/
structure Cleared (before after : List Byte) (offset size : Nat) : Prop where
  length : after.length = before.length
  inside : ∀ i, offset ≤ i → i < offset + size → after.getD i 0 = 0
  outside : ∀ i, i < offset ∨ offset + size ≤ i → after.getD i 0 = before.getD i 0

/-- All bytes of a range are zero. -/
def ZeroInside (data : List Byte) (offset size : Nat) : Prop :=
  ∀ i, offset ≤ i → i < offset + size → data.getD i 0 = 0

/-- All bytes that are not in a range are zero. -/
def ZeroOutside (data : List Byte) (offset size : Nat) : Prop :=
  ∀ i, i < offset ∨ offset + size ≤ i → data.getD i 0 = 0

variable {data : List Byte} {offset size : Nat}

theorem emptydata_getD (size i : Nat) : (emptydata size).getD i 0 = 0 := by
  rw [emptydata, getD_eq_getElem?_getD, getElem?_replicate]
  split_ifs <;> rfl

theorem overwrite_cleared (h : offset + size ≤ data.length) :
    Cleared data (overwrite data offset (emptydata size)) offset size := by
  have htake : (data.take offset).length = offset := length_take_of_le (by omega)
  have hfront : (data.take offset ++ emptydata size).length = offset + size := by
    rw [length_append, htake, emptydata_length]
  constructor
  · exact overwrite_length (by rwa [emptydata_length])
  · intro i hfirst hlast
    rw [overwrite, getD_append _ _ _ _ (by omega),
      getD_append_right _ _ _ _ (by omega)]
    exact emptydata_getD size _
  · intro i hi
    rcases hi with hi | hi
    · rw [overwrite, getD_append _ _ _ _ (by omega), getD_append _ _ _ _ (by omega),
        getD_eq_getElem?_getD, getElem?_take_of_lt hi, ← getD_eq_getElem?_getD]
    · rw [overwrite, getD_append_right _ _ _ _ (by omega), emptydata_length, hfront,
        getD_eq_getElem?_getD, getElem?_drop, ← getD_eq_getElem?_getD,
        show offset + size + (i - (offset + size)) = i by omega]

/-- Bytes that stay as they are are cleared if they were zero. -/
theorem cleared_self_iff : Cleared data data offset size ↔ ZeroInside data offset size := by
  constructor
  · intro h
    exact h.inside
  · intro h
    exact ⟨rfl, h, fun _ _ => rfl⟩

/-- Zeros in place of all bytes are a clear of a range if there was nothing else. -/
theorem cleared_all_iff :
    Cleared data (emptydata data.length) offset size ↔ ZeroOutside data offset size := by
  constructor
  · intro h i hi
    rw [← h.outside i hi]
    exact emptydata_getD data.length i
  · intro h
    constructor
    · exact emptydata_length data.length
    · intro i _ _
      exact emptydata_getD data.length i
    · intro i hi
      rw [h i hi]
      exact emptydata_getD data.length i

/-! ## One clear -/

/-- What `clear` itself looks at before it goes on. -/
def Refuses (b : Buffer) (offset size : Nat) : Prop :=
  b.immutable = true ∨ b.mapped = true ∨ b.getSize < (offset + size) % 2 ^ 64 ∨
    offset % 4 ≠ 0 ∨ size % 4 ≠ 0

/-- The older OpenGL, and no memory for the zeros. -/
def OutOfMemory (p : Platform) (b : Buffer) : Prop :=
  p.version43 = false ∧ p.allocates b.getSize = false

/-- What the older OpenGL makes of a range is what is asked for. -/
def FallbackFits (b : Buffer) (offset size : Nat) : Prop :=
  if b.dataUsage = .readback then
    ZeroInside b.data offset size
  else
    ZeroOutside b.data offset size

/-- A range is cleared exactly: if it lies outside of the buffer it is refused, if it is not
refused its bytes are zero and the others what they were. -/
structure ClearsExactly (p : Platform) (b : Buffer) (offset size : Nat) : Prop where
  refused : b.getSize < offset + size → ∃ message, b.clear p offset size = .error message
  cleared : ∀ b', b.clear p offset size = .ok b' → Cleared b.data b'.data offset size

variable {b : Buffer}

theorem clear_of_refuses (p : Platform) (h : b.Refuses offset size) :
    ∃ message, b.clear p offset size = .error message := by
  rw [clear]
  split_ifs with himmutable hmapped hsize haligned
  · exact ⟨_, rfl⟩
  · exact ⟨_, rfl⟩
  · exact ⟨_, rfl⟩
  · exact ⟨_, rfl⟩
  · simp only [Refuses, himmutable, hmapped, hsize, Bool.false_eq_true, false_or] at h
    exact absurd h haligned

theorem clear_of_not_refuses (p : Platform) (h : ¬ b.Refuses offset size) :
    b.clear p offset size = clearInternal p b offset size := by
  simp only [Refuses, not_or] at h
  obtain ⟨himmutable, hmapped, hsize, hoffset, hfour⟩ := h
  rw [clear, if_neg himmutable, if_neg hmapped, if_neg hsize, if_neg (not_or.mpr ⟨hoffset, hfour⟩)]

theorem contains_all (h : b.getSize ≠ 0) :
    (Range.ofSize 0 b.getSize).contains (Range.ofSize 0 b.getSize) = true := by
  have hfits := b.fits
  have hsize : b.getSize = b.data.length := rfl
  exact Range.ofSize_contains (by omega) (Nat.pos_of_ne_zero h) (Nat.zero_add _).le

theorem fill_all_data (himmutable : b.immutable = false) :
    (b.fill 0 b.getSize (emptydata b.getSize)).1.data =
      if b.dataUsage = .readback then b.data else emptydata b.getSize := by
  by_cases hreadback : b.dataUsage = .readback
  · rw [fill, if_pos (.inr (.inr hreadback)), if_pos hreadback]
  rw [if_neg hreadback]
  by_cases hsize : b.getSize = 0
  · rw [fill, if_pos (.inl hsize), hsize]
    exact eq_nil_of_length_eq_zero hsize
  · rw [fill, if_neg (by simp [hsize, himmutable, hreadback]), contains_all hsize,
      if_neg Bool.noConfusion]
    show subData b.data 0 (emptydata b.getSize) = emptydata b.getSize
    rw [subData, if_pos (by rw [emptydata_length, Nat.zero_add]; exact le_rfl), overwrite,
      take_zero, nil_append, emptydata_length, Nat.zero_add]
    exact (congrArg _ (drop_eq_nil_of_le le_rfl)).trans (append_nil _)

theorem clearInternal_cleared_iff (p : Platform) (himmutable : b.immutable = false)
    (h : offset + size ≤ b.getSize) :
    (∀ b', b.clearInternal p offset size = .ok b' → Cleared b.data b'.data offset size) ↔
      p.version43 = true ∨ OutOfMemory p b ∨ b.FallbackFits offset size := by
  cases hversion : p.version43 with
  | true =>
    rw [clearInternal, if_pos hversion]
    refine iff_of_true ?_ (.inl rfl)
    intro b' hb'
    cases hb'
    show Cleared b.data (subData b.data offset (emptydata size)) offset size
    rw [subData, if_pos (by rwa [emptydata_length])]
    exact overwrite_cleared h
  | false =>
    rw [clearInternal, if_neg (by rw [hversion]; exact Bool.false_ne_true)]
    cases hmemory : p.allocates b.getSize with
    | false =>
      exact iff_of_true (fun b' hb' => by cases hb') (.inr (.inl ⟨hversion, hmemory⟩))
    | true =>
      have hfits : Cleared b.data (b.fill 0 b.getSize (emptydata b.getSize)).1.data offset size ↔
          b.FallbackFits offset size := by
        rw [fill_all_data himmutable, FallbackFits]
        split_ifs with hreadback
        · exact cleared_self_iff
        · exact cleared_all_iff
      constructor
      · intro hcleared
        exact .inr (.inr (hfits.mp (hcleared _ rfl)))
      · rintro (hfalse | hnone | hfallback)
        · exact absurd hfalse Bool.false_ne_true
        · exact absurd (hmemory.symm.trans hnone.2) (Ne.symm Bool.false_ne_true)
        · intro b' hb'
          cases hb'
          exact hfits.mpr hfallback

theorem end_le_getSize (hcheck : ¬ b.getSize < (offset + size) % 2 ^ 64)
    (hend : offset + size < 2 ^ 64) : offset + size ≤ b.getSize := by
  rw [Nat.mod_eq_of_lt hend] at hcheck
  exact not_lt.mp hcheck

/-- A clear is exact if it is refused, or its end does not wrap and its way fits the range. -/
theorem clear_exact_iff (p : Platform) (b : Buffer) (offset size : Nat) :
    b.ClearsExactly p offset size ↔
      b.Refuses offset size ∨ OutOfMemory p b ∨
        offset + size < 2 ^ 64 ∧ (p.version43 = true ∨ b.FallbackFits offset size) := by
  by_cases hrefuses : b.Refuses offset size
  · refine iff_of_true ?_ (.inl hrefuses)
    obtain ⟨message, hmessage⟩ := clear_of_refuses p hrefuses
    exact ⟨fun _ => ⟨message, hmessage⟩, fun b' hb' => by rw [hmessage] at hb'; cases hb'⟩
  have hclear := clear_of_not_refuses p hrefuses
  have himmutable : b.immutable = false := Bool.eq_false_iff.mpr fun h => hrefuses (.inl h)
  have hcheck : ¬ b.getSize < (offset + size) % 2 ^ 64 := fun h => hrefuses (.inr (.inr (.inl h)))
  by_cases hmemory : OutOfMemory p b
  · refine iff_of_true ?_ (.inr (.inl hmemory))
    have hout : b.clear p offset size = .error "Out of memory." := by
      rw [hclear, clearInternal, if_neg (Bool.eq_false_iff.mp hmemory.1),
        if_neg (Bool.eq_false_iff.mp hmemory.2)]
    exact ⟨fun _ => ⟨_, hout⟩, fun b' hb' => by rw [hout] at hb'; cases hb'⟩
  by_cases hend : offset + size < 2 ^ 64
  · have hinside := end_le_getSize hcheck hend
    have hinternal := clearInternal_cleared_iff p himmutable hinside
    rw [← hclear] at hinternal
    constructor
    · intro h
      rcases hinternal.mp h.cleared with hversion | hout | hfallback
      · exact .inr (.inr ⟨hend, .inl hversion⟩)
      · exact absurd hout hmemory
      · exact .inr (.inr ⟨hend, .inr hfallback⟩)
    · rintro (h | h | ⟨-, h⟩)
      · exact absurd h hrefuses
      · exact absurd h hmemory
      · refine ⟨fun houtside => absurd hinside (not_le.mpr houtside), hinternal.mpr ?_⟩
        exact h.imp id .inr
  · -- the wrapped range is outside of the buffer, and the call goes on
    refine iff_of_false ?_ ?_
    · intro h
      have hfits := b.fits
      have hsize : b.getSize = b.data.length := rfl
      obtain ⟨message, hmessage⟩ := h.refused (by omega)
      rw [hclear, clearInternal] at hmessage
      split_ifs at hmessage with hversion hallocates
      exact hmemory ⟨Bool.eq_false_iff.mpr hversion, Bool.eq_false_iff.mpr hallocates⟩
    · rintro (h | h | ⟨h, -⟩)
      · exact hrefuses h
      · exact hmemory h
      · exact hend h

/-- An older OpenGL. -/
def version33 : Platform := ⟨false, fun _ => true⟩

/-- A buffer of eight bytes. -/
def eightOnes : Buffer := ⟨List.replicate 8 1, .dynamic, false, false, by decide⟩

/-- The last four bytes of eight are cleared, and with them the first four. -/
theorem not_clearsExactly_lastFour : ¬ eightOnes.ClearsExactly version33 4 4 := by
  intro h
  have hcleared := h.cleared ⟨replicate 8 0, .dynamic, false, false, by decide⟩ (by rfl)
  exact absurd (hcleared.outside 0 (.inl (by norm_num))) (by decide)

end Buffer

end Lhatove.Opengl
