import Lhatove.Graphics.SpriteBatch

/-!
# Copies between buffers

`Graphics::copyBuffer`: what it checks before the bytes of a buffer are copied to
a buffer, possibly the same one.
-/

namespace Lhatove.Graphics

/-- What `copyBuffer` asks of a buffer; the `size` is a `size_t`. -/
structure CopyBuffer where
  dataUsage : BufferDataUsage
  size : Nat
  immutable : Bool
  fits : size < 2 ^ 64

/-- The call of `copyTo`. -/
structure BufferCopy (β : Type) where
  source : β
  dest : β
  sourceoffset : Nat
  destoffset : Nat
  size : Nat
  deriving DecidableEq

/-- `Graphics::copyBuffer`, on pointers to buffers. -/
def copyBuffer {β : Type} [DecidableEq β] (buffers : β → CopyBuffer) (source dest : β)
    (sourceoffset destoffset size : Nat) : Except String (BufferCopy β) :=
  let sourcerange := Range.ofSize sourceoffset size
  let destrange := Range.ofSize destoffset size
  if (buffers dest).dataUsage = .stream then
    .error "Buffers created with 'stream' data usage cannot be used as a copy destination."
  else if (buffers source).dataUsage = .readback then
    .error "Buffers created with 'readback' data usage cannot be used as a copy source."
  else if (buffers source).size ≤ sourcerange.last then
    .error "Buffer copy source offset and size doesn't fit within the source Buffer's size."
  else if (buffers dest).size ≤ destrange.last then
    .error
      "Buffer copy destination offset and size doesn't fit within the destination buffer's size."
  else if source = dest ∧ sourcerange.intersects destrange = true then
    .error ("Copying a portion of a buffer to the same buffer requires non-overlapping source " ++
      "and destination offsets.")
  else if (buffers dest).immutable then
    .error "Cannot copy to an immutable buffer."
  else if sourceoffset % 4 ≠ 0 ∨ destoffset % 4 ≠ 0 ∨ size % 4 ≠ 0 then
    .error ("Buffer copy source offset, destination offset, and size parameters must be " ++
      "multiples of 4 bytes.")
  else
    .ok ⟨source, dest, sourceoffset, destoffset, size⟩

/-- Both ranges are inside their buffers; in one buffer they have no byte in common. -/
structure BufferCopy.InBounds {β : Type} (buffers : β → CopyBuffer) (copy : BufferCopy β) :
    Prop where
  source : copy.sourceoffset + copy.size ≤ (buffers copy.source).size
  dest : copy.destoffset + copy.size ≤ (buffers copy.dest).size
  apart : copy.source = copy.dest → copy.sourceoffset + copy.size ≤ copy.destoffset ∨
    copy.destoffset + copy.size ≤ copy.sourceoffset

section

variable {β : Type} [DecidableEq β] {buffers : β → CopyBuffer} {source dest : β}
  {sourceoffset destoffset size : Nat} {copy : BufferCopy β}

theorem copyBuffer_eq_ok
    (h : copyBuffer buffers source dest sourceoffset destoffset size = .ok copy) :
    copy = ⟨source, dest, sourceoffset, destoffset, size⟩ ∧
      (Range.ofSize sourceoffset size).last < (buffers source).size ∧
      (Range.ofSize destoffset size).last < (buffers dest).size ∧
      (source = dest →
        (Range.ofSize sourceoffset size).intersects (Range.ofSize destoffset size) = false) := by
  simp only [copyBuffer] at h
  split_ifs at h with hstream hreadback hsource hdest hsame himmutable hfour
  refine ⟨(Except.ok.inj h).symm, not_le.mp hsource, not_le.mp hdest, ?_⟩
  intro heq
  exact Bool.eq_false_iff.mpr fun hintersects => hsame ⟨heq, hintersects⟩

theorem end_le_of_last_lt {offset total : Nat} (htotal : total < 2 ^ 64)
    (hend : offset + size ≤ 2 ^ 64) (hlast : (Range.ofSize offset size).last < total) :
    offset + size ≤ total := by
  by_cases hpos : 0 < offset + size
  · have := Range.ofSize_last hpos hend
    omega
  · omega

/-- A copy that is made is in the bounds of the buffers exactly if neither range wraps. -/
theorem copyBuffer_inBounds_iff
    (h : copyBuffer buffers source dest sourceoffset destoffset size = .ok copy) :
    copy.InBounds buffers ↔ sourceoffset + size ≤ 2 ^ 64 ∧ destoffset + size ≤ 2 ^ 64 := by
  obtain ⟨rfl, hsource, hdest, hsame⟩ := copyBuffer_eq_ok h
  have hsourcefits := (buffers source).fits
  have hdestfits := (buffers dest).fits
  constructor
  · intro hin
    have hs := hin.source
    have hd := hin.dest
    dsimp only at hs hd
    exact ⟨by omega, by omega⟩
  · rintro ⟨hs, hd⟩
    refine ⟨end_le_of_last_lt hsourcefits hs hsource, end_le_of_last_lt hdestfits hd hdest, ?_⟩
    intro heq
    dsimp only at heq ⊢
    -- the range of no byte is apart from any other
    by_cases hempty : size = 0
    · omega
    · have hslast := Range.ofSize_last (by omega : 0 < sourceoffset + size) hs
      have hdlast := Range.ofSize_last (by omega : 0 < destoffset + size) hd
      have hapart := Range.not_intersects_iff.mp (hsame heq)
      simp only [Range.ofSize] at hapart hslast hdlast
      omega

end

/-- Two buffers of 16 bytes. -/
def sixteenBytes (_ : Bool) : CopyBuffer := ⟨.static, 16, false, by norm_num⟩

theorem copyBuffer_inBounds_iff_aligned :
    ∃ copy, copyBuffer sixteenBytes true false 4 8 8 = .ok copy ∧ copy.InBounds sixteenBytes := by
  have h : copyBuffer sixteenBytes true false 4 8 8 = .ok ⟨true, false, 4, 8, 8⟩ := by decide
  exact ⟨_, h, (copyBuffer_inBounds_iff h).mpr (by norm_num)⟩

/-- Eight bytes from four bytes before the end of all addresses: the last byte is byte 3. -/
theorem copyBuffer_wraps :
    ∃ copy, copyBuffer sixteenBytes true false (2 ^ 64 - 4) 0 8 = .ok copy ∧
      ¬ copy.InBounds sixteenBytes := by
  refine ⟨⟨true, false, 2 ^ 64 - 4, 0, 8⟩, by decide, ?_⟩
  intro h
  have hsource := h.source
  simp only [sixteenBytes] at hsource
  omega

end Lhatove.Graphics
