import Lhatove.Graphics.BufferCopies
import Lhatove.Graphics.RenderTargets
import Lhatove.Image.SliceSizes

/-!
# Copies between textures and buffers

`Graphics::copyTextureToBuffer` and `Graphics::copyBufferToTexture`: what they check
before pixels are copied.

- `checkRegion`: the checks that both make of the part of the texture;
- `CopyRect.Whole`: the rectangle covers whole blocks, but for the last ones of the level;
- `decides_iff`: for which rectangles the checks are those.
-/

namespace Lhatove.Graphics

open Image (CompressedFormat getPixelFormatSliceSize)

/-! ## What is copied -/

/-- `Rect`, of four `int`s -/
structure CopyRect where
  x : Int
  y : Int
  w : Int
  h : Int
  fits : x < 2 ^ 31 ∧ y < 2 ^ 31 ∧ w < 2 ^ 31 ∧ h < 2 ^ 31

/-- What a copy asks of the format of a texture. -/
inductive CopyFormat
  | compressed (format : CompressedFormat)
  | uncompressed (blockSize : Nat) (depthStencil : Bool)

def CopyFormat.isDepthStencil : CopyFormat → Bool
  | .compressed _ => false
  | .uncompressed _ depthStencil => depthStencil

/-- `getPixelFormatName` -/
def formatName : CompressedFormat → String
  | .dxt1Unorm => "DXT1"
  | .dxt1Srgb => "DXT1srgb"
  | .dxt3Unorm => "DXT3"
  | .dxt3Srgb => "DXT3srgb"
  | .dxt5Unorm => "DXT5"
  | .dxt5Srgb => "DXT5srgb"
  | .bc4Unorm => "BC4"
  | .bc4Snorm => "BC4s"
  | .bc5Unorm => "BC5"
  | .bc5Snorm => "BC5s"
  | .bc6hUfloat => "BC6h"
  | .bc6hFloat => "BC6hs"
  | .bc7Unorm => "BC7"
  | .bc7Srgb => "BC7srgb"
  | .pvr1Rgb2Unorm => "PVR1rgb2"
  | .pvr1Rgb2Srgb => "PVR1rgb2srgb"
  | .pvr1Rgb4Unorm => "PVR1rgb4"
  | .pvr1Rgb4Srgb => "PVR1rgb4srgb"
  | .pvr1Rgba2Unorm => "PVR1rgba2"
  | .pvr1Rgba2Srgb => "PVR1rgba2srgb"
  | .pvr1Rgba4Unorm => "PVR1rgba4"
  | .pvr1Rgba4Srgb => "PVR1rgba4srgb"
  | .etc1Unorm => "ETC1"
  | .etc2RgbUnorm => "ETC2rgb"
  | .etc2RgbSrgb => "ETC2srgb"
  | .etc2RgbaUnorm => "ETC2rgba"
  | .etc2RgbaSrgb => "ETC2srgba"
  | .etc2Rgba1Unorm => "ETC2rgba1"
  | .etc2Rgba1Srgb => "ETC2srgba1"
  | .eacRUnorm => "EACr"
  | .eacRSnorm => "EACrs"
  | .eacRgUnorm => "EACrg"
  | .eacRgSnorm => "EACrgs"
  | .astc4x4Unorm => "ASTC4x4"
  | .astc5x4Unorm => "ASTC5x4"
  | .astc5x5Unorm => "ASTC5x5"
  | .astc6x5Unorm => "ASTC6x5"
  | .astc6x6Unorm => "ASTC6x6"
  | .astc8x5Unorm => "ASTC8x5"
  | .astc8x6Unorm => "ASTC8x6"
  | .astc8x8Unorm => "ASTC8x8"
  | .astc10x5Unorm => "ASTC10x5"
  | .astc10x6Unorm => "ASTC10x6"
  | .astc10x8Unorm => "ASTC10x8"
  | .astc10x10Unorm => "ASTC10x10"
  | .astc12x10Unorm => "ASTC12x10"
  | .astc12x12Unorm => "ASTC12x12"
  | .astc4x4Srgb => "ASTC4x4srgb"
  | .astc5x4Srgb => "ASTC5x4srgb"
  | .astc5x5Srgb => "ASTC5x5srgb"
  | .astc6x5Srgb => "ASTC6x5srgb"
  | .astc6x6Srgb => "ASTC6x6srgb"
  | .astc8x5Srgb => "ASTC8x5srgb"
  | .astc8x6Srgb => "ASTC8x6srgb"
  | .astc8x8Srgb => "ASTC8x8srgb"
  | .astc10x5Srgb => "ASTC10x5srgb"
  | .astc10x6Srgb => "ASTC10x6srgb"
  | .astc10x8Srgb => "ASTC10x8srgb"
  | .astc10x10Srgb => "ASTC10x10srgb"
  | .astc12x10Srgb => "ASTC12x10srgb"
  | .astc12x12Srgb => "ASTC12x12srgb"

/-- What a copy asks of a texture. A shift by any level of it is defined. -/
structure CopyTexture where
  format : CopyFormat
  texType : TextureType
  renderTarget : Bool
  readable : Bool
  /-- `isRenderTargetActive`, of this texture -/
  active : Bool
  mipmapCount : Int
  layers : Int
  depth : Int
  pixelWidth : Int
  pixelHeight : Int
  shift : mipmapCount ≤ 32

namespace CopyTexture

variable (t : CopyTexture)

def getPixelWidth (mip : Int) : Int := mipSize t.pixelWidth mip

def getPixelHeight (mip : Int) : Int := mipSize t.pixelHeight mip

def getDepth (mip : Int) : Int := mipSize t.depth mip

/-- The check of the slice, as both copies make it. -/
def sliceInvalid (slice mipmap : Int) : Prop :=
  slice < 0 ∨ (t.texType = .cube ∧ 6 ≤ slice) ∨
    (t.texType = .volume ∧ t.getDepth mipmap ≤ slice) ∨
    (t.texType = .array ∧ t.layers ≤ slice)

instance (slice mipmap : Int) : Decidable (t.sliceInvalid slice mipmap) :=
  inferInstanceAs (Decidable (_ ∨ _ ∨ _ ∨ _))

end CopyTexture

/-- The call of `copyToBuffer` or `copyFromBuffer`. -/
structure TextureCopy where
  slice : Int
  mipmap : Int
  rect : CopyRect
  offset : Nat
  width : Int
  size : Nat

inductive CopyFault
  | exception (message : String)
  | undefined
  deriving DecidableEq

/-! ## The checks -/

/-- The texts that are not the same for both copies. -/
structure CopyTexts where
  depthStencil : String
  unreadable : String
  active : String
  customWidth : String
  unaligned : String
  outside : String

def toBufferTexts : CopyTexts where
  depthStencil := "Copying a depth/stencil Texture to a Buffer is not supported."
  unreadable := "copyTextureToBuffer can only be called on readable Textures."
  active := "copyTextureToBuffer cannot be called while the Texture is an active render target."
  customWidth :=
    "Copying a compressed texture to a buffer cannot use a custom destination width."
  unaligned :=
    "Buffer copy destination offset and computed byte size must be multiples of 4 bytes."
  outside :=
    "Buffer copy destination offset and width/height doesn't fit within the destination Buffer."

def fromBufferTexts : CopyTexts where
  depthStencil := "Copying a Buffer to a depth/stencil Texture is not supported."
  unreadable := "copyBufferToTexture can only be called on readable Textures."
  active := "copyBufferToTexture cannot be called while the Texture is an active render target."
  customWidth := "Copying a buffer to a compressed texture cannot use a custom source width."
  unaligned := "Buffer copy source offset and computed byte size must be multiples of 4 bytes."
  outside := "Buffer copy source offset and width/height doesn't fit within the source Buffer."

namespace CopyRect

variable (rect : CopyRect)

/-- The rectangle's check against a level. A sum that overflows has no value. -/
def check (mipw miph : Int) : Except CopyFault Unit :=
  let invalid : CopyFault := .exception
    (s!"Invalid rectangle dimensions (x={rect.x}, y={rect.y}, w={rect.w}, h={rect.h}) " ++
      s!"for {mipw}x{miph} texture.")
  if rect.x < 0 ∨ rect.y < 0 ∨ rect.w ≤ 0 ∨ rect.h ≤ 0 then .error invalid
  else if 2 ^ 31 ≤ rect.x + rect.w then .error .undefined
  else if mipw < rect.x + rect.w then .error invalid
  else if 2 ^ 31 ≤ rect.y + rect.h then .error .undefined
  else if miph < rect.y + rect.h then .error invalid
  else .ok ()

/-- The bytes of a rectangle. Those of a compressed format are whole blocks. -/
def byteSize (texts : CopyTexts) (format : CopyFormat) (mipw width : Int) :
    Except CopyFault Nat :=
  match format with
  | .compressed format =>
    if width ≠ rect.w then .error (.exception texts.customWidth)
    else
      let bw : Int := format.formatInfo.blockWidth
      let bh : Int := format.formatInfo.blockHeight
      if rect.x % bw ≠ 0 ∨ rect.y % bh ≠ 0 ∨
          ((rect.w % bw ≠ 0 ∨ rect.h % bh ≠ 0) ∧ rect.x + rect.w ≠ mipw) then
        .error (.exception
          (s!"Compressed texture format {formatName format} only supports copying a " ++
            "sub-rectangle with offset and dimensions that are a multiple of " ++
            s!"{bw} x {bh}."))
      else .ok (getPixelFormatSliceSize format width.toNat rect.h.toNat)
  | .uncompressed blockSize _ =>
    let pixels := (rect.h - 1) * width + rect.w
    if 2 ^ 31 ≤ pixels then .error .undefined
    else .ok (blockSize * pixels.toNat)

end CopyRect

def checkFormat (texts : CopyTexts) (t : CopyTexture) : Except CopyFault Unit :=
  if t.format.isDepthStencil then .error (.exception texts.depthStencil)
  else if t.readable = false then .error (.exception texts.unreadable)
  else .ok ()

/-- From the check of the active targets to the copy. -/
def checkRegion (texts : CopyTexts) (t : CopyTexture) (buffer : CopyBuffer)
    (slice mipmap : Int) (rect : CopyRect) (offset : Nat) (width : Int) :
    Except CopyFault TextureCopy := do
  if t.active then .error (.exception texts.active)
  else if mipmap < 0 ∨ t.mipmapCount ≤ mipmap then
    .error (.exception s!"Invalid texture mipmap index {mipmap + 1}.")
  else if t.sliceInvalid slice mipmap then
    .error (.exception s!"Invalid texture slice index {slice + 1}.")
  else
    let mipw := t.getPixelWidth mipmap
    let miph := t.getPixelHeight mipmap
    rect.check mipw miph
    let width := if width ≤ 0 then rect.w else width
    let size ← rect.byteSize texts t.format mipw width
    if offset % 4 ≠ 0 ∨ size % 4 ≠ 0 then .error (.exception texts.unaligned)
    else if buffer.size ≤ (Range.ofSize offset size).last then .error (.exception texts.outside)
    else .ok ⟨slice, mipmap, rect, offset, width, size⟩

/-- `Graphics::copyTextureToBuffer`; `supported` is `FEATURE_COPY_TEXTURE_TO_BUFFER`. -/
def copyTextureToBuffer (supported : Bool) (source : CopyTexture) (dest : CopyBuffer)
    (slice mipmap : Int) (rect : CopyRect) (destoffset : Nat) (destwidth : Int) :
    Except CopyFault TextureCopy := do
  if supported = false ∧ source.renderTarget = false then
    .error (.exception
      "Copying a non-render target Texture to a Buffer is not supported on this system.")
  else
    checkFormat toBufferTexts source
    if dest.dataUsage = .stream then
      .error (.exception
        "Buffers created with 'stream' data usage cannot be used as a copy destination.")
    else if dest.immutable then .error (.exception "Cannot copy to an immutable buffer.")
    else checkRegion toBufferTexts source dest slice mipmap rect destoffset destwidth

/-- `Graphics::copyBufferToTexture` -/
def copyBufferToTexture (source : CopyBuffer) (dest : CopyTexture) (sourceoffset : Nat)
    (sourcewidth : Int) (slice mipmap : Int) (rect : CopyRect) :
    Except CopyFault TextureCopy := do
  if source.dataUsage = .readback then
    .error (.exception
      "Buffers created with 'readback' data usage cannot be used as a copy source.")
  else
    checkFormat fromBufferTexts dest
    checkRegion fromBufferTexts dest source slice mipmap rect sourceoffset sourcewidth

/-! ## The rectangles that are accepted -/

namespace CopyRect

/-- The rectangle has pixels, and all of them are in the level. -/
structure Inside (rect : CopyRect) (mipw miph : Int) : Prop where
  x : 0 ≤ rect.x
  y : 0 ≤ rect.y
  w : 0 < rect.w
  h : 0 < rect.h
  right : rect.x + rect.w ≤ mipw
  bottom : rect.y + rect.h ≤ miph

/-- **Whole blocks**, but for those that the level's edge cuts off. -/
structure Whole (rect : CopyRect) (info : CompressedFormat.Info) (mipw miph : Int) : Prop where
  x : (info.blockWidth : Int) ∣ rect.x
  y : (info.blockHeight : Int) ∣ rect.y
  w : (info.blockWidth : Int) ∣ rect.w ∨ rect.x + rect.w = mipw
  h : (info.blockHeight : Int) ∣ rect.h ∨ rect.y + rect.h = miph

/-- The sums that the check computes are `int`s. -/
def SumsFit (rect : CopyRect) (mipw : Int) : Prop :=
  0 ≤ rect.x ∧ 0 ≤ rect.y ∧ 0 < rect.w ∧ 0 < rect.h →
    rect.x + rect.w < 2 ^ 31 ∧ (rect.x + rect.w ≤ mipw → rect.y + rect.h < 2 ^ 31)

/-- For a height that is no multiple of the block's: the right edge, which is the one
that the check looks at, is reached where it says as much as the bottom edge. -/
def EdgesAgree (rect : CopyRect) (info : CompressedFormat.Info) (mipw miph : Int) : Prop :=
  (info.blockWidth : Int) ∣ rect.x → (info.blockHeight : Int) ∣ rect.y →
    ¬ (info.blockHeight : Int) ∣ rect.h →
      (rect.x + rect.w = mipw → rect.y + rect.h = miph) ∧
      (rect.y + rect.h = miph → (info.blockWidth : Int) ∣ rect.w → rect.x + rect.w = mipw)

/-- How the check of a rectangle ends. -/
inductive Checked (rect : CopyRect) (mipw miph : Int) : Except CopyFault Unit → Prop
  | inside (hin : rect.Inside mipw miph) (hfit : rect.SumsFit mipw) : Checked rect mipw miph (.ok ())
  | outside (message : String) (hout : ¬ rect.Inside mipw miph) (hfit : rect.SumsFit mipw) :
    Checked rect mipw miph (.error (.exception message))
  | undefined (hfit : ¬ rect.SumsFit mipw) : Checked rect mipw miph (.error .undefined)

theorem check_spec (rect : CopyRect) (mipw miph : Int) :
    Checked rect mipw miph (rect.check mipw miph) := by
  unfold check
  dsimp only
  split_ifs with hsign hx hright hy hbottom
  · refine .outside _ ?_ ?_
    · intro hin
      have := hin.x
      have := hin.y
      have := hin.w
      have := hin.h
      omega
    · rintro ⟨h0, h1, h2, h3⟩
      omega
  · refine .undefined fun hfit => ?_
    have := (hfit (by omega)).1
    omega
  · refine .outside _ (fun hin => absurd hin.right (not_le.mpr hright)) ?_
    intro _
    exact ⟨not_le.mp hx, fun hle => absurd hle (not_le.mpr hright)⟩
  · refine .undefined fun hfit => ?_
    have := (hfit (by omega)).2 (not_lt.mp hright)
    omega
  · refine .outside _ (fun hin => absurd hin.bottom (not_le.mpr hbottom)) ?_
    intro _
    exact ⟨not_le.mp hx, fun _ => not_le.mp hy⟩
  · refine .inside ⟨by omega, by omega, by omega, by omega, by omega, by omega⟩ ?_
    intro _
    exact ⟨not_le.mp hx, fun _ => not_le.mp hy⟩

/-- What the check of the blocks lets through. -/
def BlocksPass (rect : CopyRect) (info : CompressedFormat.Info) (mipw : Int) : Prop :=
  (info.blockWidth : Int) ∣ rect.x ∧ (info.blockHeight : Int) ∣ rect.y ∧
    (((info.blockWidth : Int) ∣ rect.w ∧ (info.blockHeight : Int) ∣ rect.h) ∨
      rect.x + rect.w = mipw)

theorem byteSize_compressed {rect : CopyRect} (texts : CopyTexts) (f : CompressedFormat)
    (mipw : Int) :
    (rect.BlocksPass f.formatInfo mipw ∧ rect.byteSize texts (.compressed f) mipw rect.w =
      .ok (getPixelFormatSliceSize f rect.w.toNat rect.h.toNat)) ∨
    (¬ rect.BlocksPass f.formatInfo mipw ∧
      ∃ message, rect.byteSize texts (.compressed f) mipw rect.w =
        .error (.exception message)) := by
  simp only [byteSize, BlocksPass, ne_eq, not_true_eq_false, if_false, Int.dvd_iff_emod_eq_zero]
  split_ifs with hblocks
  · right
    refine ⟨?_, _, rfl⟩
    tauto
  · left
    refine ⟨?_, rfl⟩
    tauto

/-- The check of the blocks asks for whole blocks exactly if the edges agree. -/
theorem blocksPass_iff_whole {rect : CopyRect} {info : CompressedFormat.Info}
    {mipw miph : Int} :
    (rect.BlocksPass info mipw ↔ rect.Whole info mipw miph) ↔
      rect.EdgesAgree info mipw miph := by
  have hwhole : rect.Whole info mipw miph ↔ (info.blockWidth : Int) ∣ rect.x ∧
      (info.blockHeight : Int) ∣ rect.y ∧
      ((info.blockWidth : Int) ∣ rect.w ∨ rect.x + rect.w = mipw) ∧
      ((info.blockHeight : Int) ∣ rect.h ∨ rect.y + rect.h = miph) := by
    constructor
    · intro h
      exact ⟨h.x, h.y, h.w, h.h⟩
    · rintro ⟨hx, hy, hw, hh⟩
      exact ⟨hx, hy, hw, hh⟩
  rw [hwhole, EdgesAgree, BlocksPass]
  tauto

end CopyRect

/-- A result that says whether `P` holds: a copy if it does, an exception if not. -/
def Decides {α : Type} (result : Except CopyFault α) (P : Prop) : Prop :=
  match result with
  | .ok _ => P
  | .error (.exception _) => ¬ P
  | .error .undefined => False

/-- The checks that are not about the rectangle are passed: all but those of the
rectangle's level and blocks. -/
structure RegionFine (t : CopyTexture) (f : CompressedFormat) (buffer : CopyBuffer)
    (slice mipmap : Int) (rect : CopyRect) (offset : Nat) (width : Int) : Prop where
  format : t.format = .compressed f
  readable : t.readable = true
  active : t.active = false
  level : 0 ≤ mipmap ∧ mipmap < t.mipmapCount
  layer : ¬ t.sliceInvalid slice mipmap
  usual : width ≤ 0 ∨ width = rect.w
  aligned : offset % 4 = 0
  size : getPixelFormatSliceSize f rect.w.toNat rect.h.toNat % 4 = 0
  room : (Range.ofSize offset (getPixelFormatSliceSize f rect.w.toNat rect.h.toNat)).last <
    buffer.size

section

variable {t : CopyTexture} {f : CompressedFormat} {buffer : CopyBuffer} {slice mipmap : Int}
  {rect : CopyRect} {offset : Nat} {width : Int}

section

variable (h : RegionFine t f buffer slice mipmap rect offset width)
include h

theorem RegionFine.checkFormat (texts : CopyTexts) : checkFormat texts t = .ok () := by
  have hcolor : t.format.isDepthStencil = false := by
    rw [h.format]
    rfl
  rw [Graphics.checkFormat, if_neg (by simp [hcolor]), if_neg (by simp [h.readable])]

/-- With everything else in order, the checks of the rectangle and of its bytes are left. -/
theorem RegionFine.checkRegion_eq (texts : CopyTexts) :
    checkRegion texts t buffer slice mipmap rect offset width = (do
      rect.check (t.getPixelWidth mipmap) (t.getPixelHeight mipmap)
      let size ← rect.byteSize texts (.compressed f) (t.getPixelWidth mipmap) rect.w
      if offset % 4 ≠ 0 ∨ size % 4 ≠ 0 then .error (.exception texts.unaligned)
      else if buffer.size ≤ (Range.ofSize offset size).last then .error (.exception texts.outside)
      else .ok ⟨slice, mipmap, rect, offset, rect.w, size⟩) := by
  have hlevel := h.level
  have hwidth : (if width ≤ 0 then rect.w else width) = rect.w := by
    rcases h.usual with hle | heq
    · rw [if_pos hle]
    · rw [heq, ite_self]
  rw [checkRegion, if_neg (by simp [h.active]), if_neg (by omega), if_neg h.layer]
  simp only [hwidth, h.format]

theorem RegionFine.room_of :
    ¬ (offset % 4 ≠ 0 ∨ getPixelFormatSliceSize f rect.w.toNat rect.h.toNat % 4 ≠ 0) ∧
      ¬ buffer.size ≤
        (Range.ofSize offset (getPixelFormatSliceSize f rect.w.toNat rect.h.toNat)).last := by
  have hsize := h.size
  have haligned := h.aligned
  exact ⟨by omega, not_le.mpr h.room⟩

/-- **The rectangle decides**, with everything else in order, exactly if its sums fit and
the edges agree. -/
theorem RegionFine.decides_iff (texts : CopyTexts) :
    Decides (checkRegion texts t buffer slice mipmap rect offset width)
        (rect.Inside (t.getPixelWidth mipmap) (t.getPixelHeight mipmap) ∧
          rect.Whole f.formatInfo (t.getPixelWidth mipmap) (t.getPixelHeight mipmap)) ↔
      rect.SumsFit (t.getPixelWidth mipmap) ∧
        (rect.Inside (t.getPixelWidth mipmap) (t.getPixelHeight mipmap) →
          rect.EdgesAgree f.formatInfo (t.getPixelWidth mipmap) (t.getPixelHeight mipmap)) := by
  rw [h.checkRegion_eq]
  generalize t.getPixelWidth mipmap = mipw
  generalize t.getPixelHeight mipmap = miph
  have hcheck := rect.check_spec mipw miph
  revert hcheck
  generalize rect.check mipw miph = checked
  intro hcheck
  cases hcheck with
  | undefined hfit =>
    constructor
    · exact False.elim
    · rintro ⟨hsums, -⟩
      exact hfit hsums
  | outside message hout hfit =>
    constructor
    · intro _
      exact ⟨hfit, fun hin => absurd hin hout⟩
    · rintro - ⟨hin, -⟩
      exact hout hin
  | inside hin hfit =>
    have hedges := @CopyRect.blocksPass_iff_whole rect f.formatInfo mipw miph
    rcases rect.byteSize_compressed texts f mipw with ⟨hpass, hsize⟩ | ⟨hnot, message, hsize⟩
    · -- a copy is made: right if the blocks are whole
      simp only [hsize, Except.bind, bind]
      rw [if_neg h.room_of.1, if_neg h.room_of.2]
      constructor
      · rintro ⟨-, hwhole⟩
        exact ⟨hfit, fun _ => hedges.mp ⟨fun _ => hwhole, fun _ => hpass⟩⟩
      · rintro ⟨-, hagree⟩
        exact ⟨hin, (hedges.mpr (hagree hin)).mp hpass⟩
    · -- none is made: right if they are not
      simp only [hsize, Except.bind, bind, Decides]
      constructor
      · intro hwhole
        refine ⟨hfit, fun _ => hedges.mp ⟨fun hpass => absurd hpass hnot, ?_⟩⟩
        exact fun hw => absurd ⟨hin, hw⟩ hwhole
      · rintro ⟨-, hagree⟩ ⟨-, hwhole⟩
        exact hnot ((hedges.mpr (hagree hin)).mpr hwhole)

end

/-- What `copyTextureToBuffer` checks of the system, the texture's format and the buffer. -/
structure ToBufferFine (supported : Bool) (source : CopyTexture) (dest : CopyBuffer) : Prop where
  supported : supported = true ∨ source.renderTarget = true
  stream : dest.dataUsage ≠ .stream
  mutable : dest.immutable = false

theorem copyTextureToBuffer_eq {supported : Bool} (h : ToBufferFine supported t buffer)
    (hfine : RegionFine t f buffer slice mipmap rect offset width) :
    copyTextureToBuffer supported t buffer slice mipmap rect offset width =
      checkRegion toBufferTexts t buffer slice mipmap rect offset width := by
  rw [copyTextureToBuffer, if_neg (by have := h.supported; grind), hfine.checkFormat]
  simp only [Except.bind, bind]
  rw [if_neg h.stream, if_neg (by simp [h.mutable])]

theorem copyBufferToTexture_eq (h : buffer.dataUsage ≠ .readback)
    (hfine : RegionFine t f buffer slice mipmap rect offset width) :
    copyBufferToTexture buffer t offset width slice mipmap rect =
      checkRegion fromBufferTexts t buffer slice mipmap rect offset width := by
  rw [copyBufferToTexture, if_neg h, hfine.checkFormat]
  rfl

/-- **Both copies accept the rectangles that they should**, with everything else in order,
exactly if the sums fit and the edges agree. -/
theorem copies_decide_iff (hfine : RegionFine t f buffer slice mipmap rect offset width) :
    (∀ supported, ToBufferFine supported t buffer →
      (Decides (copyTextureToBuffer supported t buffer slice mipmap rect offset width)
          (rect.Inside (t.getPixelWidth mipmap) (t.getPixelHeight mipmap) ∧
            rect.Whole f.formatInfo (t.getPixelWidth mipmap) (t.getPixelHeight mipmap)) ↔
        rect.SumsFit (t.getPixelWidth mipmap) ∧
          (rect.Inside (t.getPixelWidth mipmap) (t.getPixelHeight mipmap) →
            rect.EdgesAgree f.formatInfo (t.getPixelWidth mipmap) (t.getPixelHeight mipmap)))) ∧
    (buffer.dataUsage ≠ .readback →
      (Decides (copyBufferToTexture buffer t offset width slice mipmap rect)
          (rect.Inside (t.getPixelWidth mipmap) (t.getPixelHeight mipmap) ∧
            rect.Whole f.formatInfo (t.getPixelWidth mipmap) (t.getPixelHeight mipmap)) ↔
        rect.SumsFit (t.getPixelWidth mipmap) ∧
          (rect.Inside (t.getPixelWidth mipmap) (t.getPixelHeight mipmap) →
            rect.EdgesAgree f.formatInfo (t.getPixelWidth mipmap)
              (t.getPixelHeight mipmap)))) := by
  constructor
  · intro supported hto
    rw [copyTextureToBuffer_eq hto hfine]
    exact hfine.decides_iff toBufferTexts
  · intro hfrom
    rw [copyBufferToTexture_eq hfrom hfine]
    exact hfine.decides_iff fromBufferTexts

end

/-- A level of 8 by 6 pixels, in blocks of 4 by 4. -/
def eightBySix : CopyTexture where
  format := .compressed .dxt1Unorm
  texType := .texture2D
  renderTarget := false
  readable := true
  active := false
  mipmapCount := 1
  layers := 1
  depth := 1
  pixelWidth := 8
  pixelHeight := 6
  shift := by norm_num

/-- The lower row of blocks. -/
def lowerRow : CopyRect := ⟨0, 4, 8, 2, by norm_num⟩

/-- Three rows of pixels of the block at the right, which has four. -/
def rightBlock : CopyRect := ⟨4, 0, 4, 3, by norm_num⟩

/-- The block at the left, which the bottom edge cuts off. -/
def cutBlock : CopyRect := ⟨0, 4, 4, 2, by norm_num⟩

def sixtyFourBytes : CopyBuffer := ⟨.static, 64, false, by norm_num⟩

theorem copies_decide_iff_lowerRow :
    Decides (copyTextureToBuffer true eightBySix sixtyFourBytes 0 0 lowerRow 0 0)
        (lowerRow.Inside 8 6 ∧ lowerRow.Whole CompressedFormat.dxt1Unorm.formatInfo 8 6) ∧
      Decides (copyBufferToTexture sixtyFourBytes eightBySix 0 0 0 0 lowerRow)
        (lowerRow.Inside 8 6 ∧ lowerRow.Whole CompressedFormat.dxt1Unorm.formatInfo 8 6) := by
  have hfine : RegionFine eightBySix .dxt1Unorm sixtyFourBytes 0 0 lowerRow 0 0 :=
    ⟨rfl, rfl, rfl, by decide, by decide, by decide, by decide, by decide, by decide⟩
  have hfit : lowerRow.SumsFit 8 := by
    intro _
    decide
  have hagree : lowerRow.EdgesAgree CompressedFormat.dxt1Unorm.formatInfo 8 6 := by
    intro _ _ _
    decide
  obtain ⟨hto, hfrom⟩ := copies_decide_iff hfine
  exact ⟨(hto true ⟨.inl rfl, by decide, rfl⟩).mpr ⟨hfit, fun _ => hagree⟩,
    (hfrom (by decide)).mpr ⟨hfit, fun _ => hagree⟩⟩

/-- Three of the four rows of a block at the right edge are copied, in both directions;
a block that the bottom edge cuts off is not. -/
theorem copies_mixEdges :
    (∃ copy, copyTextureToBuffer true eightBySix sixtyFourBytes 0 0 rightBlock 0 0 = .ok copy) ∧
      (∃ copy, copyBufferToTexture sixtyFourBytes eightBySix 0 0 0 0 rightBlock = .ok copy) ∧
      ¬ rightBlock.Whole CompressedFormat.dxt1Unorm.formatInfo 8 6 ∧
      (∃ message, copyTextureToBuffer true eightBySix sixtyFourBytes 0 0 cutBlock 0 0 =
        .error (.exception message)) ∧
      (∃ message, copyBufferToTexture sixtyFourBytes eightBySix 0 0 0 0 cutBlock =
        .error (.exception message)) ∧
      cutBlock.Inside 8 6 ∧ cutBlock.Whole CompressedFormat.dxt1Unorm.formatInfo 8 6 := by
  refine ⟨⟨_, rfl⟩, ⟨_, rfl⟩, ?_, ⟨_, rfl⟩, ⟨_, rfl⟩, ?_, ?_⟩
  · intro hwhole
    exact absurd hwhole.h (by decide)
  · exact ⟨by decide, by decide, by decide, by decide, by decide, by decide⟩
  · exact ⟨by decide, by decide, by decide, by decide⟩

end Lhatove.Graphics
