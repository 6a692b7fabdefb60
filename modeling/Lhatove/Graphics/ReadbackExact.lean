import Lhatove.Graphics.GraphicsReadback

/-!
# Which readbacks are exact

- `BufferRequest.sound_iff`: those of buffers, unless a sum wraps;
- `TextureRequest.sound_iff`: those of textures, if they are fine;
- `readbacks_sound_iff`: both.
-/

namespace Lhatove.Graphics

/-! ## Buffers -/

namespace BufferRequest

section

variable (sys : ReadbackSystem) (q : BufferRequest)

/-- The readback is not refused with an exception. -/
def Accepted : Prop := ∀ message, q.create sys ≠ .error (.exception message)

/-- The ranges are inside the buffer and the destination. -/
structure Valid : Prop where
  source : q.offset + q.size ≤ q.buffer.size
  dest : ∀ dest, q.dest = some dest → dest.offset + q.size ≤ dest.size

/-- It is valid, and once it is complete the range of the destination has the bytes of the
buffer's, and no other byte is changed. A new destination is as long as the range. -/
structure Sound : Prop where
  created : q.create sys = .ok ()
  valid : q.Valid
  length : q.dest = none → q.target.1 = q.size
  exact : ∀ (dest bytes : Memory Byte) (old : Nat → Byte) (mapped room : Bool),
    dest.size = q.target.1 → ∃ status dest',
      q.readback dest bytes old mapped room = some (status, dest') ∧
      (status = .complete → Memory.HasRows dest dest' bytes q.target.2 q.offset q.size q.size 1) ∧
      (status = .error → dest' = dest)

/-- The sums of the checks do not wrap. -/
structure SumsFit : Prop where
  source : q.offset + q.size < 2 ^ 64
  dest : ∀ dest, q.dest = some dest → dest.offset + q.size < 2 ^ 64

end

variable {sys : ReadbackSystem} {q : BufferRequest}

theorem check_ok (h : q.check = .ok ()) :
    (q.offset + q.size) % 2 ^ 64 ≤ q.buffer.size ∧
      ∀ dest, q.dest = some dest → (dest.offset + q.size) % 2 ^ 64 ≤ dest.size := by
  rw [check] at h
  split_ifs at h with hsource
  refine ⟨not_lt.mp hsource, ?_⟩
  intro dest hdest
  rw [hdest] at h
  dsimp only at h
  split_ifs at h with hout
  exact not_lt.mp hout

theorem copyBuffer_four {β : Type} [DecidableEq β] {buffers : β → CopyBuffer} {source dest : β}
    {sourceoffset destoffset size : Nat} {copy : BufferCopy β}
    (h : copyBuffer buffers source dest sourceoffset destoffset size = .ok copy) :
    size % 4 = 0 := by
  simp only [copyBuffer] at h
  split_ifs at h with hstream hreadback hsource hdest hsame himmutable hfour
  omega

theorem create_ok (h : q.create sys = .ok ()) :
    q.check = .ok () ∧ (q.isStaged = true → q.size % 4 = 0) := by
  rw [create] at h
  cases hcheck : q.check with
  | error fault =>
    rw [hcheck] at h
    cases h
  | ok _ =>
    refine ⟨rfl, fun hstaged => ?_⟩
    rw [hcheck] at h
    simp only [bind, Except.bind, hstaged, if_true] at h
    split_ifs at h
    cases hcopy : Graphics.copyBuffer (fun source => if source then q.buffer else q.staging) true
        false q.offset 0 q.size with
    | error message =>
      rw [hcopy] at h
      cases h
    | ok copy => exact copyBuffer_four hcopy

theorem check_defined : q.check ≠ .error .undefined := by
  rw [check]
  split_ifs
  · simp
  · cases q.dest with
    | none => simp
    | some dest =>
      dsimp only
      split_ifs <;> simp

theorem Accepted.create_eq (h : q.Accepted sys) : q.create sys = .ok () := by
  cases hcreate : q.create sys with
  | ok _ => rfl
  | error fault =>
    cases fault with
    | exception message => exact absurd hcreate (h message)
    | undefined =>
      -- no sum of its checks is undefined
      exfalso
      rw [create] at hcreate
      cases hcheck : q.check with
      | error fault =>
        rw [hcheck] at hcreate
        cases hcreate
        exact check_defined hcheck
      | ok _ =>
        rw [hcheck] at hcreate
        simp only [bind, Except.bind] at hcreate
        split_ifs at hcreate
        · cases hcreate
        cases hcopy : Graphics.copyBuffer (fun source => if source then q.buffer else q.staging)
            true false q.offset 0 q.size with
        | error message =>
          rw [hcopy] at hcreate
          cases hcreate
        | ok copy =>
          rw [hcopy] at hcreate
          cases hcreate

theorem Valid.sumsFit (h : q.Valid) : q.SumsFit :=
  ⟨h.source.trans_lt q.buffer.fits, fun dest hdest => (h.dest dest hdest).trans_lt dest.fits⟩

theorem SumsFit.valid (h : q.SumsFit) (hcheck : q.check = .ok ()) : q.Valid := by
  obtain ⟨hsource, hdest⟩ := check_ok hcheck
  rw [Nat.mod_eq_of_lt h.source] at hsource
  refine ⟨hsource, fun dest heq => ?_⟩
  have hin := hdest dest heq
  rwa [Nat.mod_eq_of_lt (h.dest dest heq)] at hin

/-- What is mapped is the range, as a staging buffer is only used for whole `float`s. -/
theorem mappedSize_eq (hsize : q.size < 2 ^ 64) (hcreate : q.create sys = .ok ()) :
    q.mappedSize = q.size := by
  rw [mappedSize]
  cases hmethod : q.method with
  | immediate => rfl
  | async =>
    have hfour := (create_ok hcreate).2 (by simp [isStaged, hmethod])
    change (q.size + 3) / 4 * 4 % 2 ^ 64 = q.size
    omega

theorem SumsFit.sound (h : q.SumsFit) (hcreate : q.create sys = .ok ()) : q.Sound sys := by
  have hvalid := h.valid (create_ok hcreate).1
  have hmapped := mappedSize_eq (by have := h.source; omega) hcreate
  have htarget : q.target.2 + q.size ≤ q.target.1 := by
    rw [target]
    cases hdest : q.dest with
    | none =>
      dsimp only
      omega
    | some dest => exact hvalid.dest dest hdest
  refine ⟨hcreate, hvalid, ?_, ?_⟩
  · intro hdest
    rw [target, hdest]
    exact hmapped
  · intro dest bytes old mapped room hsize
    rw [readback]
    split_ifs with herror
    · exact ⟨.error, dest, rfl, by simp, fun _ => rfl⟩
    · obtain ⟨dest', hcopy, hrows⟩ := @Memory.copy_rows _ dest (q.mappedBytes bytes old)
        q.target.2 0 q.size 1 (by omega) (by
          show 0 + 1 * q.size ≤ q.mappedSize
          omega)
      rw [Nat.one_mul] at hcopy
      rw [show min q.mappedSize dest.size = q.size by omega, hcopy]
      refine ⟨.complete, dest', rfl, fun _ => ?_, by simp⟩
      refine ⟨hrows.size, fun i hi k hk => ?_, hrows.kept⟩
      obtain rfl : i = 0 := by omega
      rw [hrows.copied 0 hi k hk]
      show (if 0 + 0 * q.size + k < q.size then _ else _) = _
      rw [if_pos (by omega)]
      congr 1
      omega

/-- A readback of a buffer that is accepted is sound exactly if no sum wraps. -/
theorem sound_iff (h : q.Accepted sys) : q.Sound sys ↔ q.SumsFit := by
  constructor
  · intro hsound
    exact hsound.valid.sumsFit
  · intro hfit
    exact hfit.sound h.create_eq

end BufferRequest

/-! ## Textures -/

namespace TextureRequest

section

variable (sys : ReadbackSystem) (q : TextureRequest)

/-- The readback is not refused with an exception. -/
def Accepted : Prop := ∀ message, q.create sys ≠ .error (.exception message)

/-- How many slices a level has. -/
def sliceCount : Int :=
  match q.texture.texType with
  | .texture2D => 1
  | .cube => 6
  | .array => q.texture.layers
  | .volume => mipSize q.texture.depth q.mipmap

/-- The level and the slice exist, and the rectangle is in the level and in the image. -/
structure Valid : Prop where
  level : 0 ≤ q.mipmap ∧ q.mipmap < q.texture.mipmapCount
  slice : 0 ≤ q.slice ∧ q.slice < q.sliceCount
  inside : q.rect.Inside (mipSize q.texture.pixelWidth q.mipmap)
    (mipSize q.texture.pixelHeight q.mipmap)
  dest : ∀ image x y, q.dest = some (image, x, y) →
    0 ≤ x ∧ 0 ≤ y ∧ x + q.rect.w ≤ image.width ∧ y + q.rect.h ≤ image.height

/-- The first byte of the rectangle in the image. -/
def first : Nat :=
  q.textureFormat.blockSize * (q.target.2.2 * q.target.1.width + q.target.2.1).toNat

/-- It is valid, and once it is complete the rows of the rectangle in the image have the
pixels, and no other byte is changed. -/
structure Sound : Prop where
  created : q.create sys = .ok ()
  valid : q.Valid
  exact : ∀ (image pixels : Memory Byte) (old : Nat → Byte) (mapped : Bool),
    image.size = q.textureFormat.blockSize * (q.target.1.width * q.target.1.height) →
    pixels.size = q.rect.h.toNat * q.rowsize → ∃ status image',
      q.readback sys image pixels old mapped = some (status, image') ∧
      (status = .complete →
        Memory.HasRows image image' pixels q.first 0 q.stride q.rowsize q.rect.h.toNat) ∧
      (status = .error → image' = image)

/-- The level exists, a texture with one layer is asked for that, no sum is too large for an
`int`, and OpenGL is told that there is enough room for the rows. -/
structure Fine : Prop where
  level : 0 ≤ q.mipmap ∧ q.mipmap < q.texture.mipmapCount
  layer : q.texture.texType = .texture2D → q.slice = 0
  sums : q.rect.x + q.rect.w < 2 ^ 31 ∧ q.rect.y + q.rect.h < 2 ^ 31
  destSums : ∀ image x y, q.dest = some (image, x, y) →
    x + q.rect.w < 2 ^ 31 ∧ y + q.rect.h < 2 ^ 31
  first : q.target.2.2 * q.target.1.width + q.target.2.1 < 2 ^ 31
  immediate : q.method = .immediate → sys.copyTextureToBuffer = true →
    q.rect.w = q.target.1.width ∨ q.rect.h = 1
  async : q.method = .async → q.rect.w * q.rect.h < 2 ^ 31 ∧
    (q.rect.w = q.target.1.width → q.target.1.width * q.target.1.height < 2 ^ 31)

end

variable {sys : ReadbackSystem} {q : TextureRequest}

theorem linear_blockSize (format : Image.DataFormat) :
    format.linear.blockSize = format.blockSize := by
  cases format with
  | plain format => cases format <;> rfl
  | compressed format => rfl

/-- What a request has passed. -/
structure Passed (q : TextureRequest) : Prop where
  shift : 0 ≤ q.mipmap ∧ q.mipmap < 32
  rect : q.rect.check (mipSize q.texture.pixelWidth q.mipmap)
    (mipSize q.texture.pixelHeight q.mipmap) = .ok ()
  slice : ¬ q.texture.toCopy.sliceInvalid q.slice q.mipmap
  format : q.textureFormat.valid = true
  dest : q.checkDest = .ok ()

/-- A check is not defined. -/
def Undefined (q : TextureRequest) : Prop :=
  (q.mipmap < 0 ∨ 32 ≤ q.mipmap) ∨
    q.rect.check (mipSize q.texture.pixelWidth q.mipmap)
      (mipSize q.texture.pixelHeight q.mipmap) = .error .undefined ∨
    q.checkDest = .error .undefined

/-- How the checks end. -/
inductive Ends (sys : ReadbackSystem) (q : TextureRequest) : Except CopyFault Unit → Prop
  | refused (message : String) : Ends sys q (.error (.exception message))
  | passed (h : q.Passed) : Ends sys q (.ok ())
  | undefined (h : q.Undefined) : Ends sys q (.error .undefined)

theorem check_ends (sys : ReadbackSystem) (q : TextureRequest) : q.Ends sys (q.check sys) := by
  rw [check]
  split
  · exact .refused _
  split
  · exact .refused _
  split
  next hshift =>
    exact .undefined (.inl hshift)
  cases hrect : q.rect.check (mipSize q.texture.pixelWidth q.mipmap)
      (mipSize q.texture.pixelHeight q.mipmap) with
  | error fault =>
    cases fault with
    | exception message => exact .refused _
    | undefined => exact .undefined (.inr (.inl hrect))
  | ok _ =>
    dsimp only
    by_cases hslice : q.texture.toCopy.sliceInvalid q.slice q.mipmap
    · rw [if_pos hslice]
      exact .refused _
    rw [if_neg hslice]
    split
    · exact .refused _
    rename_i hformat
    split
    · cases q.method with
      | immediate | async => exact .refused _
    cases hdest : q.checkDest with
    | ok _ => exact .passed ⟨by omega, hrect, hslice, (Bool.not_eq_false _).mp hformat, hdest⟩
    | error fault =>
      cases fault with
      | exception message => exact .refused _
      | undefined => exact .undefined (.inr (.inr hdest))

theorem checkDest_ok (h : q.checkDest = .ok ()) {image : ReadbackImage} {x y : Int}
    (hdest : q.dest = some (image, x, y)) :
    (0 ≤ x ∧ 0 ≤ y ∧ x + q.rect.w ≤ image.width ∧ y + q.rect.h ≤ image.height) ∧
      x + q.rect.w < 2 ^ 31 ∧ y + q.rect.h < 2 ^ 31 := by
  rw [checkDest, hdest] at h
  dsimp only at h
  split_ifs at h
  omega

theorem checkDest_undefined (h : q.checkDest = .error .undefined) :
    ∃ image x y, q.dest = some (image, x, y) ∧
      ¬ (x + q.rect.w < 2 ^ 31 ∧ y + q.rect.h < 2 ^ 31) := by
  rw [checkDest] at h
  cases hdest : q.dest with
  | none =>
    rw [hdest] at h
    cases h
  | some dest =>
    obtain ⟨image, x, y⟩ := dest
    rw [hdest] at h
    dsimp only at h
    refine ⟨image, x, y, rfl, ?_⟩
    split_ifs at h with hformat hsign hx hright hy hbottom
    · cases h
    · cases h
    · exact fun hfit => absurd hfit.1 (not_lt.mpr hx)
    · cases h
    · exact fun hfit => absurd hfit.2 (not_lt.mpr hy)
    · cases h

/-- What a copy to a staging buffer has passed as well. -/
structure Staged (q : TextureRequest) : Prop where
  level : 0 ≤ q.mipmap ∧ q.mipmap < q.texture.mipmapCount
  pixels : q.rect.w * q.rect.h < 2 ^ 31
  aligned : q.textureFormat.blockSize * (q.rect.w * q.rect.h).toNat % 4 = 0

/-- How the copy to a staging buffer ends. -/
inductive CopyEnds (q : TextureRequest) : Except CopyFault TextureCopy → Prop
  | refused (message : String) : CopyEnds q (.error (.exception message))
  | copied (copy : TextureCopy) (h : q.Staged) : CopyEnds q (.ok copy)
  | undefined (h : 2 ^ 31 ≤ q.rect.w * q.rect.h) : CopyEnds q (.error .undefined)

theorem Passed.plain (h : q.Passed) : ∃ format, q.texture.format = .plain format := by
  have hformat := h.format
  cases hplain : q.texture.format with
  | plain format => exact ⟨format, rfl⟩
  | compressed format =>
    rw [textureFormat, hplain] at hformat
    cases hformat

theorem Passed.copy_ends (h : q.Passed) (supported : Bool) :
    q.CopyEnds (Graphics.copyTextureToBuffer supported q.texture.toCopy q.staging q.slice q.mipmap
      q.rect 0 0) := by
  obtain ⟨format, hplain⟩ := h.plain
  have hcopy : q.texture.toCopy.format =
      .uncompressed q.textureFormat.blockSize (!format.formatInfo.color) := by
    rw [textureFormat, linear_blockSize, ReadbackTexture.toCopy, hplain]
    rfl
  have hpixels : (q.rect.h - 1) * q.rect.w + q.rect.w = q.rect.w * q.rect.h := by ring
  rw [copyTextureToBuffer]
  split
  · exact .refused _
  cases hformat : checkFormat toBufferTexts q.texture.toCopy with
  | error fault =>
    rw [checkFormat] at hformat
    split_ifs at hformat
    all_goals
      cases hformat
      exact .refused _
  | ok _ =>
    simp only [bind, Except.bind]
    rw [if_neg (by simp [staging]), if_neg (by simp [staging]), checkRegion]
    split
    · exact .refused _
    by_cases hlevel : q.mipmap < 0 ∨ q.texture.toCopy.mipmapCount ≤ q.mipmap
    · rw [if_pos hlevel]
      exact .refused _
    rw [if_neg hlevel, if_neg h.slice]
    dsimp only
    rw [show q.rect.check (q.texture.toCopy.getPixelWidth q.mipmap)
      (q.texture.toCopy.getPixelHeight q.mipmap) = .ok () from h.rect]
    simp only [bind, Except.bind, le_refl, if_true]
    rw [hcopy, CopyRect.byteSize]
    rw [hpixels]
    by_cases hmany : 2 ^ 31 ≤ q.rect.w * q.rect.h
    · rw [if_pos hmany]
      exact .undefined hmany
    rw [if_neg hmany]
    dsimp only
    by_cases haligned : 0 % 4 ≠ 0 ∨
        q.textureFormat.blockSize * (q.rect.w * q.rect.h).toNat % 4 ≠ 0
    · rw [if_pos haligned]
      exact .refused _
    have hstaged : q.Staged :=
      ⟨⟨by omega, not_le.mp fun hle => hlevel (.inr hle)⟩, not_le.mp hmany, by omega⟩
    split_ifs
    · exact .refused _
    · exact .copied _ hstaged

/-- How a request ends. -/
inductive Created (q : TextureRequest) : Except CopyFault Unit → Prop
  | refused (message : String) : Created q (.error (.exception message))
  | made (h : q.Passed) (hasync : q.method = .async → q.Staged) : Created q (.ok ())
  | undefined (h : q.Undefined ∨ (q.method = .async ∧ 2 ^ 31 ≤ q.rect.w * q.rect.h)) :
    Created q (.error .undefined)

theorem create_spec (sys : ReadbackSystem) (q : TextureRequest) : q.Created (q.create sys) := by
  rw [create]
  have hends := q.check_ends sys
  cases hcheck : q.check sys with
  | error fault =>
    rw [hcheck] at hends
    cases hends with
    | refused message => exact .refused message
    | undefined h => exact .undefined (.inl h)
  | ok _ =>
    rw [hcheck] at hends
    cases hends with
    | passed h =>
      cases hmethod : q.method with
      | immediate =>
        dsimp only
        split_ifs
        · exact .refused _
        · exact .made h fun hasync => by rw [hmethod] at hasync; cases hasync
      | async =>
        dsimp only
        by_cases hbuffer : sys.temporaryBuffer q.size = false
        · rw [if_pos hbuffer]
          exact .refused _
        rw [if_neg hbuffer]
        have hcopy := h.copy_ends sys.copyTextureToBuffer
        cases hresult : Graphics.copyTextureToBuffer sys.copyTextureToBuffer q.texture.toCopy
            q.staging q.slice q.mipmap q.rect 0 0 with
        | ok copy =>
          rw [hresult] at hcopy
          cases hcopy with
          | copied copy hstaged => exact .made h fun _ => hstaged
        | error fault =>
          rw [hresult] at hcopy
          cases hcopy with
          | refused message => exact .refused message
          | undefined hmany => exact .undefined (.inr ⟨hmethod, hmany⟩)

/-! ### The rectangle, and where it goes -/

theorem mipSize_le {size : Int} (h : 0 < size) (mip : Int) : mipSize size mip ≤ size := by
  rw [mipSize, Int.shiftRight_eq_div_pow]
  have hle := Int.ediv_le_self (2 ^ mip.toNat : Nat) h.le
  omega

/-- The rectangle and its place, without signs: it is in the texture, and in the image. -/
structure Placed (q : TextureRequest) (x y w h : Nat) : Prop where
  column : q.target.2.1 = x
  row : q.target.2.2 = y
  width : q.rect.w = w
  height : q.rect.h = h
  w_pos : 0 < w
  h_pos : 0 < h
  right : x + w ≤ q.target.1.width
  bottom : y + h ≤ q.target.1.height
  bytes : q.textureFormat.blockSize * (w * h) < 2 ^ 64

theorem Passed.inside (h : q.Passed) :
    q.rect.Inside (mipSize q.texture.pixelWidth q.mipmap)
      (mipSize q.texture.pixelHeight q.mipmap) ∧
    q.rect.SumsFit (mipSize q.texture.pixelWidth q.mipmap) := by
  have hspec := q.rect.check_spec (mipSize q.texture.pixelWidth q.mipmap)
    (mipSize q.texture.pixelHeight q.mipmap)
  rw [h.rect] at hspec
  cases hspec with
  | inside hin hfit => exact ⟨hin, hfit⟩

theorem Passed.sums (h : q.Passed) :
    q.rect.x + q.rect.w < 2 ^ 31 ∧ q.rect.y + q.rect.h < 2 ^ 31 := by
  obtain ⟨hin, hfit⟩ := h.inside
  obtain ⟨hx, hy⟩ := hfit ⟨hin.x, hin.y, hin.w, hin.h⟩
  exact ⟨hx, hy hin.right⟩

theorem Passed.placed (h : q.Passed) : ∃ x y w k, q.Placed x y w k := by
  obtain ⟨hin, -⟩ := h.inside
  obtain ⟨hx, hy, hw, hh, hright, hbottom⟩ := hin
  obtain ⟨w, hwidth⟩ := Int.eq_ofNat_of_zero_le hw.le
  obtain ⟨k, hheight⟩ := Int.eq_ofNat_of_zero_le hh.le
  have hwide := mipSize_le q.texture.width_pos q.mipmap
  have htall := mipSize_le q.texture.height_pos q.mipmap
  have hbytes : q.textureFormat.blockSize * (w * k) < 2 ^ 64 := by
    rw [textureFormat, linear_blockSize]
    refine lt_of_le_of_lt (Nat.mul_le_mul_left _ (Nat.mul_le_mul ?_ ?_)) q.texture.memory
    · omega
    · omega
  cases hdest : q.dest with
  | none =>
    refine ⟨0, 0, w, k, ?_, ?_, hwidth, hheight, by omega, by omega, ?_, ?_, hbytes⟩
    · rw [target, hdest]
      rfl
    · rw [target, hdest]
      rfl
    · rw [target, hdest]
      show 0 + w ≤ q.rect.w.toNat
      omega
    · rw [target, hdest]
      show 0 + k ≤ q.rect.h.toNat
      omega
  | some dest =>
    obtain ⟨image, column, row⟩ := dest
    obtain ⟨⟨hcolumn, hrow, hend, hlast⟩, -⟩ := checkDest_ok h.dest hdest
    have htarget : q.target = (image, column, row) := by
      rw [target, hdest]
      rfl
    refine ⟨column.toNat, row.toNat, w, k, ?_, ?_, hwidth, hheight, by omega, by omega, ?_, ?_,
      hbytes⟩
    · rw [htarget]
      exact (Int.toNat_of_nonneg hcolumn).symm
    · rw [htarget]
      exact (Int.toNat_of_nonneg hrow).symm
    · rw [htarget]
      show column.toNat + w ≤ image.width
      omega
    · rw [htarget]
      show row.toNat + k ≤ image.height
      omega

section

variable {x y w k : Nat}

theorem Placed.rowsize_eq (h : q.Placed x y w k) :
    q.rowsize = q.textureFormat.blockSize * w := by
  rw [rowsize, h.width, Int.toNat_natCast]

theorem Placed.first_eq (h : q.Placed x y w k) :
    q.first = q.textureFormat.blockSize * (y * q.target.1.width + x) := by
  rw [first, h.column, h.row]
  norm_cast

theorem Placed.last_le (h : q.Placed x y w k) :
    q.first + (k - 1) * q.stride + q.rowsize ≤
      q.textureFormat.blockSize * (q.target.1.width * q.target.1.height) := by
  have hrows : (y + (k - 1) + 1) * q.target.1.width ≤ q.target.1.height * q.target.1.width :=
    Nat.mul_le_mul_right _ (by have := h.h_pos; have := h.bottom; omega)
  calc q.first + (k - 1) * q.stride + q.rowsize
      = q.textureFormat.blockSize *
          ((y + (k - 1)) * q.target.1.width + (x + w)) := by
        rw [h.first_eq, h.rowsize_eq, stride]
        ring
    _ ≤ q.textureFormat.blockSize * (q.target.1.width * q.target.1.height) := by
        refine Nat.mul_le_mul_left _ ?_
        have := h.right
        rw [Nat.succ_mul] at hrows
        rw [Nat.mul_comm q.target.1.width]
        omega

theorem Placed.size_eq (h : q.Placed x y w k) (hplain : q.textureFormat.valid = true) :
    q.size = k * q.rowsize := by
  have hblocks : q.textureFormat.blockWidth = 1 ∧ q.textureFormat.blockHeight = 1 := by
    cases hformat : q.textureFormat with
    | plain format => exact ⟨rfl, rfl⟩
    | compressed format =>
      rw [hformat] at hplain
      cases hplain
  have hbytes := h.bytes
  rw [size, Image.DataFormat.sliceSize, hblocks.1, hblocks.2, h.width, h.height, h.rowsize_eq]
  simp only [Int.toNat_natCast, Nat.add_sub_cancel, Nat.div_one]
  rw [Nat.mul_assoc, Nat.mod_eq_of_lt hbytes]
  ring

theorem Placed.staging_eq (h : q.Placed x y w k) (hplain : q.textureFormat.valid = true)
    (hstaged : q.Staged) : q.staging.size = q.size := by
  have hbytes := h.bytes
  have hfour := hstaged.aligned
  have hsize : q.size = q.textureFormat.blockSize * (w * k) := by
    rw [h.size_eq hplain, h.rowsize_eq]
    ring
  rw [h.width, h.height, show ((w : Int) * (k : Int)).toNat = w * k by norm_cast, ← hsize]
    at hfour
  change (q.size + 3) / 4 * 4 % 2 ^ 64 = q.size
  omega

/-- `glGetTextureSubImage` is told of enough room if the rows are next to each other, or there
is only one of them. -/
theorem Placed.room_iff (h : q.Placed x y w k) (hplain : q.textureFormat.valid = true) :
    q.textureFormat.blockSize * ((q.rect.h.toNat - 1) * q.target.1.width + q.rect.w.toNat) ≤
      q.size ↔ q.rect.w = q.target.1.width ∨ q.rect.h = 1 := by
  have hpos : 0 < q.textureFormat.blockSize := by
    rw [textureFormat, linear_blockSize]
    exact q.texture.pixels
  have hright := h.right
  obtain ⟨rows, rfl⟩ : ∃ rows, k = rows + 1 := ⟨k - 1, by have := h.h_pos; omega⟩
  rw [h.size_eq hplain, h.rowsize_eq, h.width, h.height, Int.toNat_natCast, Int.toNat_natCast,
    Nat.add_sub_cancel, show (rows + 1) * (q.textureFormat.blockSize * w) =
      q.textureFormat.blockSize * (rows * w + w) by ring, Nat.mul_le_mul_left_iff hpos]
  constructor
  · intro hle
    rcases Nat.eq_zero_or_pos rows with hone | hmore
    · right
      omega
    · left
      have hwidth : q.target.1.width ≤ w :=
        Nat.le_of_mul_le_mul_left (Nat.le_of_add_le_add_right hle) hmore
      omega
  · rintro (hwidth | hone)
    · have hwidth : q.target.1.width = w := by omega
      rw [hwidth]
    · have hone : rows = 0 := by omega
      rw [hone]
      omega

end

/-! ### What is copied -/

section

variable {x y w k : Nat} {image pixels : Memory Byte} {old : Nat → Byte} {mapped : Bool}

theorem destOffset_eq (h : q.target.2.2 * q.target.1.width + q.target.2.1 < 2 ^ 31) :
    q.destOffset = some q.first := if_pos h

theorem Placed.stride_le (h : q.Placed x y w k) : q.rowsize ≤ q.stride := by
  rw [h.rowsize_eq, stride]
  exact Nat.mul_le_mul_left _ (by have := h.right; omega)

theorem Placed.copyRows (h : q.Placed x y w k)
    (hsize : image.size = q.textureFormat.blockSize * (q.target.1.width * q.target.1.height))
    (hpixels : k * q.rowsize ≤ pixels.size) :
    ∃ image', image.copyRows q.first pixels 0 q.stride q.rowsize k = some image' ∧
      Memory.HasRows image image' pixels q.first 0 q.stride q.rowsize k := by
  refine Memory.copyRows_rows h.stride_le (.inr ?_) (by omega)
  rw [hsize]
  exact h.last_le

theorem Placed.of_staged (h : q.Placed x y w k) (hplain : q.textureFormat.valid = true)
    {image' : Memory Byte}
    (hrows : Memory.HasRows image image' (q.staged pixels old) q.first 0 q.stride q.rowsize k) :
    Memory.HasRows image image' pixels q.first 0 q.stride q.rowsize k := by
  refine ⟨hrows.size, ?_, hrows.kept⟩
  intro i hi b hb
  rw [hrows.copied i hi b hb]
  refine if_pos ?_
  have hrow : (i + 1) * q.rowsize ≤ k * q.rowsize := Nat.mul_le_mul_right _ hi
  rw [Nat.succ_mul] at hrow
  rw [h.size_eq hplain]
  omega

theorem Fine.readbackInternal (hfine : q.Fine sys) (h : q.Placed x y w k)
    (hplain : q.textureFormat.valid = true) (hmethod : q.method = .immediate)
    (hsize : image.size = q.textureFormat.blockSize * (q.target.1.width * q.target.1.height))
    (hpixels : pixels.size = k * q.rowsize) :
    ∃ image', q.readbackInternal sys image pixels = some image' ∧
      Memory.HasRows image image' pixels q.first 0 q.stride q.rowsize k := by
  rw [TextureRequest.readbackInternal, destOffset_eq hfine.first]
  simp only [bind, Option.bind]
  rw [if_neg]
  · rw [h.height, Int.toNat_natCast]
    exact h.copyRows hsize hpixels.ge
  · rintro ⟨hsupported, hless⟩
    have hroom := (h.room_iff hplain).mpr (hfine.immediate hmethod hsupported)
    omega

theorem Fine.readbackBuffer (hfine : q.Fine sys) (h : q.Placed x y w k)
    (hplain : q.textureFormat.valid = true) (hmethod : q.method = .async) (hstaged : q.Staged)
    (hsize : image.size = q.textureFormat.blockSize * (q.target.1.width * q.target.1.height)) :
    ∃ status image', q.readbackBuffer sys image pixels old mapped = some (status, image') ∧
      (status = .complete →
        Memory.HasRows image image' pixels q.first 0 q.stride q.rowsize k) ∧
      (status = .error → image' = image) := by
  have hstaging : (q.staged pixels old).size = k * q.rowsize := by
    rw [← h.size_eq hplain]
    exact h.staging_eq hplain hstaged
  rw [TextureRequest.readbackBuffer]
  split
  · exact ⟨.error, image, rfl, by simp, fun _ => rfl⟩
  rw [destOffset_eq hfine.first]
  simp only [bind, Option.bind]
  by_cases hwidth : (q.target.1.width : Int) ≠ q.rect.w
  · rw [if_pos hwidth, h.height, Int.toNat_natCast]
    obtain ⟨image', hcopy, hrows⟩ :=
      @Placed.copyRows q x y w k image (q.staged pixels old) h hsize hstaging.ge
    rw [hcopy]
    exact ⟨.complete, image', rfl, fun _ => h.of_staged hplain hrows, by simp⟩
  · -- the rows are next to each other in the image as well
    have hwidth := not_not.mp hwidth
    have hmany := (hfine.async hmethod).2 hwidth.symm
    have hrow : q.stride = q.rowsize := by
      rw [stride, h.rowsize_eq]
      have := h.width
      rw [show q.target.1.width = w by omega]
    rw [if_neg (fun hne => hne hwidth), if_neg (not_le.mpr hmany)]
    have hlast := h.last_le
    have hpos := h.h_pos
    obtain ⟨rows, rfl⟩ : ∃ rows, k = rows + 1 := ⟨k - 1, by omega⟩
    rw [Nat.add_sub_cancel, hrow] at hlast
    have hmin : min q.staging.size (q.target.1.width * q.target.1.height *
        q.textureFormat.blockSize) = (rows + 1) * q.rowsize := by
      rw [show q.staging.size = (rows + 1) * q.rowsize from hstaging]
      refine min_eq_left ?_
      rw [Nat.succ_mul, Nat.mul_comm _ q.textureFormat.blockSize]
      omega
    obtain ⟨image', hcopy, hrows⟩ := @Memory.copy_rows _ image (q.staged pixels old) q.first 0
      q.rowsize (rows + 1) (by rw [hsize, Nat.succ_mul]; omega) (by omega)
    rw [hmin, hcopy]
    refine ⟨.complete, image', rfl, fun _ => ?_, by simp⟩
    rw [← hrow] at hrows
    refine @Placed.of_staged q x y w (rows + 1) image pixels old h hplain image' ?_
    rwa [hrow] at hrows ⊢

end

/-! ### The readbacks that are sound -/

theorem Fine.valid (hfine : q.Fine sys) (h : q.Passed) : q.Valid := by
  refine ⟨hfine.level, ?_, h.inside.1, fun image x y hdest => (checkDest_ok h.dest hdest).1⟩
  have hslice := h.slice
  rw [CopyTexture.sliceInvalid] at hslice
  rw [sliceCount]
  have hlayer := hfine.layer
  constructor
  · by_contra hneg
    exact hslice (.inl (not_le.mp hneg))
  · cases htype : q.texture.texType with
    | texture2D =>
      rw [hlayer htype]
      norm_num
    | cube => exact not_le.mp fun hle => hslice (.inr (.inl ⟨htype, hle⟩))
    | volume => exact not_le.mp fun hle => hslice (.inr (.inr (.inl ⟨htype, hle⟩)))
    | array => exact not_le.mp fun hle => hslice (.inr (.inr (.inr ⟨htype, hle⟩)))

theorem Fine.create_ne (hfine : q.Fine sys) : q.create sys ≠ .error .undefined := by
  intro hcreate
  have hspec := q.create_spec sys
  rw [hcreate] at hspec
  cases hspec with
  | undefined h =>
    obtain (hshift | hrect | hdest) | ⟨hmethod, hmany⟩ := h
    · have hlevel := hfine.level
      have hcount := q.texture.shift
      omega
    · have hcheck := q.rect.check_spec (mipSize q.texture.pixelWidth q.mipmap)
        (mipSize q.texture.pixelHeight q.mipmap)
      rw [hrect] at hcheck
      cases hcheck with
      | undefined hfit => exact hfit fun _ => ⟨hfine.sums.1, fun _ => hfine.sums.2⟩
    · obtain ⟨image, x, y, heq, hfit⟩ := checkDest_undefined hdest
      exact hfit (hfine.destSums image x y heq)
    · exact absurd (hfine.async hmethod).1 (not_lt.mpr hmany)

theorem Accepted.create_eq (h : q.Accepted sys) (hne : q.create sys ≠ .error .undefined) :
    q.create sys = .ok () := by
  cases hcreate : q.create sys with
  | ok _ => rfl
  | error fault =>
    cases fault with
    | exception message => exact absurd hcreate (h message)
    | undefined => exact absurd hcreate hne

theorem passed_of_create (h : q.create sys = .ok ()) :
    q.Passed ∧ (q.method = .async → q.Staged) := by
  have hspec := q.create_spec sys
  rw [h] at hspec
  cases hspec with
  | made hpassed hasync => exact ⟨hpassed, hasync⟩

theorem Fine.sound (hfine : q.Fine sys) (hcreate : q.create sys = .ok ()) : q.Sound sys := by
  obtain ⟨hpassed, hasync⟩ := passed_of_create hcreate
  obtain ⟨x, y, w, k, hplaced⟩ := hpassed.placed
  have hrows : q.rect.h.toNat = k := by rw [hplaced.height, Int.toNat_natCast]
  refine ⟨hcreate, hfine.valid hpassed, ?_⟩
  intro image pixels old mapped hsize hpixels
  rw [hrows] at hpixels ⊢
  rw [readback]
  cases hmethod : q.method with
  | immediate =>
    obtain ⟨image', hread, hrows⟩ :=
      hfine.readbackInternal hplaced hpassed.format hmethod hsize hpixels
    refine ⟨.complete, image', ?_, fun _ => hrows, by simp⟩
    rw [hread]
    rfl
  | async => exact hfine.readbackBuffer hplaced hpassed.format hmethod (hasync hmethod) hsize

/-- An image of the right size. -/
def emptyImage (q : TextureRequest) : Memory Byte :=
  ⟨q.textureFormat.blockSize * (q.target.1.width * q.target.1.height), fun _ => 0⟩

/-- Pixels that are not those of the empty image. -/
def fullPixels (q : TextureRequest) : Memory Byte := ⟨q.rect.h.toNat * q.rowsize, fun _ => 1⟩

theorem Sound.first_lt (hsound : q.Sound sys) :
    q.target.2.2 * q.target.1.width + q.target.2.1 < 2 ^ 31 := by
  by_contra hmany
  have hnone : q.destOffset = none := if_neg hmany
  obtain ⟨status, image', hread, -⟩ := hsound.exact q.emptyImage q.fullPixels 0 true rfl rfl
  rw [readback] at hread
  cases hmethod : q.method with
  | immediate =>
    rw [hmethod] at hread
    rw [TextureRequest.readbackInternal, hnone] at hread
    cases hread
  | async =>
    rw [hmethod] at hread
    rw [TextureRequest.readbackBuffer] at hread
    cases hdest : q.dest with
    | none =>
      -- a new image is written to from its start
      rw [target, hdest] at hmany
      exact hmany (by norm_num)
    | some dest =>
      rw [if_neg (by simp [hdest]), hnone] at hread
      cases hread

theorem Sound.room (hsound : q.Sound sys) (hmethod : q.method = .immediate)
    (hsupported : sys.copyTextureToBuffer = true) :
    q.textureFormat.blockSize * ((q.rect.h.toNat - 1) * q.target.1.width + q.rect.w.toNat) ≤
      q.size := by
  by_contra hless
  obtain ⟨hpassed, -⟩ := passed_of_create hsound.created
  obtain ⟨x, y, w, k, hplaced⟩ := hpassed.placed
  obtain ⟨status, image', hread, hcomplete, -⟩ :=
    hsound.exact q.emptyImage q.fullPixels 0 true rfl rfl
  rw [readback, hmethod] at hread
  rw [TextureRequest.readbackInternal, destOffset_eq hsound.first_lt] at hread
  simp only [bind, Option.bind] at hread
  rw [if_pos ⟨hsupported, not_le.mp hless⟩] at hread
  cases hread
  have hcopied := (hcomplete rfl).copied 0 (by
    rw [hplaced.height, Int.toNat_natCast]
    exact hplaced.h_pos) 0 (by
    rw [hplaced.rowsize_eq, textureFormat, linear_blockSize]
    exact Nat.mul_pos q.texture.pixels hplaced.w_pos)
  exact absurd (show (0 : Byte) = 1 from hcopied) (by decide)

theorem Sound.fine (hsound : q.Sound sys) : q.Fine sys := by
  obtain ⟨hpassed, hasync⟩ := passed_of_create hsound.created
  obtain ⟨x, y, w, k, hplaced⟩ := hpassed.placed
  refine ⟨hsound.valid.level, ?_, hpassed.sums, ?_, hsound.first_lt, ?_, ?_⟩
  · intro htype
    have hslice := hsound.valid.slice
    rw [sliceCount, htype] at hslice
    dsimp only at hslice
    omega
  · intro image x y hdest
    exact (checkDest_ok hpassed.dest hdest).2
  · intro hmethod hsupported
    exact (hplaced.room_iff hpassed.format).mp (hsound.room hmethod hsupported)
  · intro hmethod
    refine ⟨(hasync hmethod).pixels, fun hwidth => ?_⟩
    by_contra hmany
    have hmany := not_lt.mp hmany
    obtain ⟨status, image', hread, -⟩ := hsound.exact q.emptyImage q.fullPixels 0 true rfl rfl
    rw [readback, hmethod] at hread
    rw [TextureRequest.readbackBuffer] at hread
    cases hdest : q.dest with
    | none =>
      -- a new image has no more pixels than the rectangle
      have hpixels := (hasync hmethod).pixels
      rw [target, hdest] at hmany
      rw [hplaced.width, hplaced.height] at hmany hpixels
      rw [Int.toNat_natCast, Int.toNat_natCast] at hmany
      norm_cast at hpixels
      exact absurd hpixels (not_lt.mpr hmany)
    | some dest =>
      rw [if_neg (by simp [hdest]), destOffset_eq hsound.first_lt] at hread
      simp only [bind, Option.bind] at hread
      rw [if_neg (fun hne => hne hwidth.symm), if_pos hmany] at hread
      cases hread

/-- A readback of a texture that is accepted is sound exactly if it is fine. -/
theorem sound_iff (h : q.Accepted sys) : q.Sound sys ↔ q.Fine sys := by
  constructor
  · intro hsound
    exact hsound.fine
  · intro hfine
    exact hfine.sound (h.create_eq hfine.create_ne)

end TextureRequest

/-! ## All readbacks -/

/-- Of the readbacks that are accepted those of textures are sound exactly if they are fine,
and those of buffers exactly if their sums fit. -/
theorem readbacks_sound_iff {sys : ReadbackSystem} {t : TextureRequest} {b : BufferRequest}
    (ht : t.Accepted sys) (hb : b.Accepted sys) :
    (t.Sound sys ↔ t.Fine sys) ∧ (b.Sound sys ↔ b.SumsFit) :=
  ⟨TextureRequest.sound_iff ht, BufferRequest.sound_iff hb⟩

def fullSystem : ReadbackSystem where
  copyTextureToBuffer := true
  newImageData := true
  temporaryBuffer _ := true
  formatName _ := "rgba8"

/-- Four by four pixels, with all levels. -/
def threeLevels : ReadbackTexture where
  format := .plain .rgba8Unorm
  texType := .texture2D
  renderTarget := false
  readable := true
  active := false
  mipmapCount := 3
  layers := 1
  depth := 1
  pixelWidth := 4
  pixelHeight := 4
  shift := by norm_num
  pixels := by decide
  width_pos := by norm_num
  height_pos := by norm_num
  memory := by decide

/-- One pixel of the fourth level. -/
def fourthLevel : TextureRequest where
  method := .immediate
  texture := threeLevels
  slice := 0
  mipmap := 3
  rect := ⟨0, 0, 1, 1, by norm_num⟩
  dest := none

/-- All bytes of a buffer, to the end of more. -/
def wholeBytes : BufferRequest where
  method := .async
  buffer := ⟨.static, 96, false, by norm_num⟩
  offset := 0
  size := 96
  dest := some ⟨224, 128, by norm_num⟩

theorem fourthLevel_accepted : fourthLevel.Accepted fullSystem := by
  intro message h
  cases h

theorem wholeBytes_accepted : wholeBytes.Accepted fullSystem := by
  intro message h
  cases h

theorem readbacks_sound_iff_levels :
    ¬ fourthLevel.Sound fullSystem ∧ wholeBytes.Sound fullSystem := by
  obtain ⟨htexture, hbuffer⟩ := readbacks_sound_iff fourthLevel_accepted wholeBytes_accepted
  constructor
  · rw [htexture]
    intro hfine
    exact absurd hfine.level.2 (by decide)
  · rw [hbuffer]
    refine ⟨by norm_num [wholeBytes], ?_⟩
    intro dest hdest
    cases hdest
    norm_num [wholeBytes]

/-- The level of a readback that is accepted need not exist. -/
theorem not_sound_fourthLevel :
    ¬ ∀ (sys : ReadbackSystem) (t : TextureRequest), t.Accepted sys → t.Sound sys := by
  intro h
  have hsound := h fullSystem fourthLevel fourthLevel_accepted
  exact absurd hsound.valid.level.2 (by decide)

end Lhatove.Graphics
