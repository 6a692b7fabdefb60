import Lhatove.Image.ASTCHandler
import Lhatove.Image.PVRBounds

/-!
# The sizes of compressed slices

`getPixelFormatSliceSize`, for the formats that are compressed, and the sizes that
`PVRHandler` and `ASTCHandler` compute for a level of the same format.

- `formatInfo`: the table;
- `Agrees`: all sizes are those of the blocks;
- `agrees_iff`: for which formats they are.
-/

namespace Lhatove.Image

open PVR (sizeOfInt)
open BlockFormat

/-- The formats of `PixelFormat` that are compressed. -/
inductive CompressedFormat
  | dxt1Unorm
  | dxt1Srgb
  | dxt3Unorm
  | dxt3Srgb
  | dxt5Unorm
  | dxt5Srgb
  | bc4Unorm
  | bc4Snorm
  | bc5Unorm
  | bc5Snorm
  | bc6hUfloat
  | bc6hFloat
  | bc7Unorm
  | bc7Srgb
  | pvr1Rgb2Unorm
  | pvr1Rgb2Srgb
  | pvr1Rgb4Unorm
  | pvr1Rgb4Srgb
  | pvr1Rgba2Unorm
  | pvr1Rgba2Srgb
  | pvr1Rgba4Unorm
  | pvr1Rgba4Srgb
  | etc1Unorm
  | etc2RgbUnorm
  | etc2RgbSrgb
  | etc2RgbaUnorm
  | etc2RgbaSrgb
  | etc2Rgba1Unorm
  | etc2Rgba1Srgb
  | eacRUnorm
  | eacRSnorm
  | eacRgUnorm
  | eacRgSnorm
  | astc4x4Unorm
  | astc5x4Unorm
  | astc5x5Unorm
  | astc6x5Unorm
  | astc6x6Unorm
  | astc8x5Unorm
  | astc8x6Unorm
  | astc8x8Unorm
  | astc10x5Unorm
  | astc10x6Unorm
  | astc10x8Unorm
  | astc10x10Unorm
  | astc12x10Unorm
  | astc12x12Unorm
  | astc4x4Srgb
  | astc5x4Srgb
  | astc5x5Srgb
  | astc6x5Srgb
  | astc6x6Srgb
  | astc8x5Srgb
  | astc8x6Srgb
  | astc8x8Srgb
  | astc10x5Srgb
  | astc10x6Srgb
  | astc10x8Srgb
  | astc10x10Srgb
  | astc12x10Srgb
  | astc12x12Srgb
  deriving DecidableEq

namespace CompressedFormat

/-- The columns of `PixelFormatInfo` that say what a slice is like. -/
structure Info where
  blockWidth : Nat
  blockHeight : Nat
  blockSize : Nat
  sRGB : Bool

def formatInfo : CompressedFormat → Info
  | .dxt1Unorm => ⟨4, 4, 8, false⟩
  | .dxt1Srgb => ⟨4, 4, 8, true⟩
  | .dxt3Unorm => ⟨4, 4, 16, false⟩
  | .dxt3Srgb => ⟨4, 4, 16, true⟩
  | .dxt5Unorm => ⟨4, 4, 16, false⟩
  | .dxt5Srgb => ⟨4, 4, 16, true⟩
  | .bc4Unorm => ⟨4, 4, 8, false⟩
  | .bc4Snorm => ⟨4, 4, 8, false⟩
  | .bc5Unorm => ⟨4, 4, 16, false⟩
  | .bc5Snorm => ⟨4, 4, 16, false⟩
  | .bc6hUfloat => ⟨4, 4, 16, false⟩
  | .bc6hFloat => ⟨4, 4, 16, false⟩
  | .bc7Unorm => ⟨4, 4, 16, false⟩
  | .bc7Srgb => ⟨4, 4, 16, true⟩
  | .pvr1Rgb2Unorm => ⟨16, 8, 32, false⟩
  | .pvr1Rgb2Srgb => ⟨16, 8, 32, true⟩
  | .pvr1Rgb4Unorm => ⟨8, 8, 32, false⟩
  | .pvr1Rgb4Srgb => ⟨8, 8, 32, true⟩
  | .pvr1Rgba2Unorm => ⟨16, 8, 32, false⟩
  | .pvr1Rgba2Srgb => ⟨16, 8, 32, true⟩
  | .pvr1Rgba4Unorm => ⟨8, 8, 32, false⟩
  | .pvr1Rgba4Srgb => ⟨8, 8, 32, true⟩
  | .etc1Unorm => ⟨4, 4, 8, false⟩
  | .etc2RgbUnorm => ⟨4, 4, 8, false⟩
  | .etc2RgbSrgb => ⟨4, 4, 8, true⟩
  | .etc2RgbaUnorm => ⟨4, 4, 16, false⟩
  | .etc2RgbaSrgb => ⟨4, 4, 16, true⟩
  | .etc2Rgba1Unorm => ⟨4, 4, 8, false⟩
  | .etc2Rgba1Srgb => ⟨4, 4, 8, true⟩
  | .eacRUnorm => ⟨4, 4, 8, false⟩
  | .eacRSnorm => ⟨4, 4, 8, false⟩
  | .eacRgUnorm => ⟨4, 4, 16, false⟩
  | .eacRgSnorm => ⟨4, 4, 16, false⟩
  | .astc4x4Unorm => ⟨4, 4, 1, false⟩
  | .astc5x4Unorm => ⟨5, 4, 1, false⟩
  | .astc5x5Unorm => ⟨5, 5, 1, false⟩
  | .astc6x5Unorm => ⟨6, 5, 1, false⟩
  | .astc6x6Unorm => ⟨6, 6, 1, false⟩
  | .astc8x5Unorm => ⟨8, 5, 1, false⟩
  | .astc8x6Unorm => ⟨8, 6, 1, false⟩
  | .astc8x8Unorm => ⟨8, 8, 1, false⟩
  | .astc10x5Unorm => ⟨8, 5, 1, false⟩
  | .astc10x6Unorm => ⟨10, 6, 1, false⟩
  | .astc10x8Unorm => ⟨10, 8, 1, false⟩
  | .astc10x10Unorm => ⟨10, 10, 1, false⟩
  | .astc12x10Unorm => ⟨12, 10, 1, false⟩
  | .astc12x12Unorm => ⟨12, 12, 1, false⟩
  | .astc4x4Srgb => ⟨4, 4, 1, true⟩
  | .astc5x4Srgb => ⟨5, 4, 1, true⟩
  | .astc5x5Srgb => ⟨5, 5, 1, true⟩
  | .astc6x5Srgb => ⟨6, 5, 1, true⟩
  | .astc6x6Srgb => ⟨6, 6, 1, true⟩
  | .astc8x5Srgb => ⟨8, 5, 1, true⟩
  | .astc8x6Srgb => ⟨8, 6, 1, true⟩
  | .astc8x8Srgb => ⟨8, 8, 1, true⟩
  | .astc10x5Srgb => ⟨8, 5, 1, true⟩
  | .astc10x6Srgb => ⟨10, 6, 1, true⟩
  | .astc10x8Srgb => ⟨10, 8, 1, true⟩
  | .astc10x10Srgb => ⟨10, 10, 1, true⟩
  | .astc12x10Srgb => ⟨12, 10, 1, true⟩
  | .astc12x12Srgb => ⟨12, 12, 1, true⟩

def getLinearPixelFormat : CompressedFormat → PixelFormat
  | .dxt1Unorm => .dxt1Unorm
  | .dxt1Srgb => .dxt1Unorm
  | .dxt3Unorm => .dxt3Unorm
  | .dxt3Srgb => .dxt3Unorm
  | .dxt5Unorm => .dxt5Unorm
  | .dxt5Srgb => .dxt5Unorm
  | .bc4Unorm => .bc4Unorm
  | .bc4Snorm => .bc4Snorm
  | .bc5Unorm => .bc5Unorm
  | .bc5Snorm => .bc5Snorm
  | .bc6hUfloat => .bc6hUfloat
  | .bc6hFloat => .bc6hFloat
  | .bc7Unorm => .bc7Unorm
  | .bc7Srgb => .bc7Unorm
  | .pvr1Rgb2Unorm => .pvr1Rgb2Unorm
  | .pvr1Rgb2Srgb => .pvr1Rgb2Unorm
  | .pvr1Rgb4Unorm => .pvr1Rgb4Unorm
  | .pvr1Rgb4Srgb => .pvr1Rgb4Unorm
  | .pvr1Rgba2Unorm => .pvr1Rgba2Unorm
  | .pvr1Rgba2Srgb => .pvr1Rgba2Unorm
  | .pvr1Rgba4Unorm => .pvr1Rgba4Unorm
  | .pvr1Rgba4Srgb => .pvr1Rgba4Unorm
  | .etc1Unorm => .etc1Unorm
  | .etc2RgbUnorm => .etc2RgbUnorm
  | .etc2RgbSrgb => .etc2RgbUnorm
  | .etc2RgbaUnorm => .etc2RgbaUnorm
  | .etc2RgbaSrgb => .etc2RgbaUnorm
  | .etc2Rgba1Unorm => .etc2Rgba1Unorm
  | .etc2Rgba1Srgb => .etc2Rgba1Unorm
  | .eacRUnorm => .eacRUnorm
  | .eacRSnorm => .eacRSnorm
  | .eacRgUnorm => .eacRgUnorm
  | .eacRgSnorm => .eacRgSnorm
  | .astc4x4Unorm => .astc4x4Unorm
  | .astc5x4Unorm => .astc5x4Unorm
  | .astc5x5Unorm => .astc5x5Unorm
  | .astc6x5Unorm => .astc6x5Unorm
  | .astc6x6Unorm => .astc6x6Unorm
  | .astc8x5Unorm => .astc8x5Unorm
  | .astc8x6Unorm => .astc8x6Unorm
  | .astc8x8Unorm => .astc8x8Unorm
  | .astc10x5Unorm => .astc10x5Unorm
  | .astc10x6Unorm => .astc10x6Unorm
  | .astc10x8Unorm => .astc10x8Unorm
  | .astc10x10Unorm => .astc10x10Unorm
  | .astc12x10Unorm => .astc12x10Unorm
  | .astc12x12Unorm => .astc12x12Unorm
  | .astc4x4Srgb => .astc4x4Unorm
  | .astc5x4Srgb => .astc5x4Unorm
  | .astc5x5Srgb => .astc5x5Unorm
  | .astc6x5Srgb => .astc6x5Unorm
  | .astc6x6Srgb => .astc6x6Unorm
  | .astc8x5Srgb => .astc8x5Unorm
  | .astc8x6Srgb => .astc8x6Unorm
  | .astc8x8Srgb => .astc8x8Unorm
  | .astc10x5Srgb => .astc10x5Unorm
  | .astc10x6Srgb => .astc10x6Unorm
  | .astc10x8Srgb => .astc10x8Unorm
  | .astc10x10Srgb => .astc10x10Unorm
  | .astc12x10Srgb => .astc12x10Unorm
  | .astc12x12Srgb => .astc12x12Unorm

/-- The format, as the readers of containers have it. -/
def format (f : CompressedFormat) : PVR.Format := ⟨f.getLinearPixelFormat, f.formatInfo.sRGB⟩

/-- The blocks of a format, as its standard has them. -/
def block (f : CompressedFormat) : BlockFormat := f.getLinearPixelFormat.block

def isASTC : CompressedFormat → Bool
  | .dxt1Unorm | .dxt1Srgb | .dxt3Unorm | .dxt3Srgb | .dxt5Unorm | .dxt5Srgb => false
  | .bc4Unorm | .bc4Snorm | .bc5Unorm | .bc5Snorm | .bc6hUfloat | .bc6hFloat => false
  | .bc7Unorm | .bc7Srgb => false
  | .pvr1Rgb2Unorm | .pvr1Rgb2Srgb | .pvr1Rgb4Unorm | .pvr1Rgb4Srgb => false
  | .pvr1Rgba2Unorm | .pvr1Rgba2Srgb | .pvr1Rgba4Unorm | .pvr1Rgba4Srgb => false
  | .etc1Unorm | .etc2RgbUnorm | .etc2RgbSrgb | .etc2RgbaUnorm | .etc2RgbaSrgb => false
  | .etc2Rgba1Unorm | .etc2Rgba1Srgb | .eacRUnorm | .eacRSnorm | .eacRgUnorm => false
  | .eacRgSnorm => false
  | _ => true

end CompressedFormat

/-- `getPixelFormatSliceSize`, of two numbers that are not negative. -/
def getPixelFormatSliceSize (f : CompressedFormat) (width height : Nat) : Nat :=
  let info := f.formatInfo
  let blockW := (width + info.blockWidth - 1) / info.blockWidth
  let blockH := (height + info.blockHeight - 1) / info.blockHeight
  info.blockSize * blockW * blockH % 2 ^ 64

/-- **All sizes are those of the blocks**: the one of the table, and those of a level of
the same format in a PVR file, where 32 bits are enough for it, and of the picture of an
ASTC file with one layer. -/
structure Agrees (f : CompressedFormat) (width height : Nat) : Prop where
  slice : getPixelFormatSliceSize f width height = f.block.sliceBytes width height
  pvr : ∀ (header : PVR.Header) (level : Nat),
    header.pixelFormat.toNat < 2 ^ 32 → header.Supported → header.format = f.format →
    PVR.mipDimension header.width level = width → PVR.mipDimension header.height level = height →
    (if 27 ≤ header.pixelFormat.toNat then 1 else 8) * f.block.sliceBytes width height < 2 ^ 31 →
    PVR.getMipLevelSize header level = f.block.sliceBytes width height
  astc : ∀ (file : List Byte) (room : Nat → Bool) (p : ASTC.Parsed),
    ASTC.parseCompressed file room = some (.ok p) → (ASTC.readHeader file).sizeZ = 1 →
    ⟨p.format, false⟩ = f.format → p.width = width → p.height = height →
    p.size = f.block.sliceBytes width height

/-! ## The readers -/

theorem pvr_agrees {f : CompressedFormat} {width height : Nat} (header : PVR.Header) (level : Nat)
    (hlow : header.pixelFormat.toNat < 2 ^ 32) (hsupported : header.Supported)
    (hformat : header.format = f.format) (hw : PVR.mipDimension header.width level = width)
    (hh : PVR.mipDimension header.height level = height)
    (hfits : (if 27 ≤ header.pixelFormat.toNat then 1 else 8) *
      f.block.sliceBytes width height < 2 ^ 31) :
    PVR.getMipLevelSize header level = f.block.sliceBytes width height := by
  have hlinear : header.format.linear = f.getLinearPixelFormat := by
    rw [hformat]
    rfl
  have hknown := hsupported.format
  have htabled : PVR.Tabled header.pixelFormat.toNat f.block := by
    rw [CompressedFormat.block, ← hlinear]
    unfold PVR.Header.format at hknown ⊢
    rw [Nat.mod_eq_of_lt hlow] at hknown ⊢
    split at hknown
    · next hcolor =>
      rw [if_pos hcolor, PVR.block_getSRGBPixelFormat]
      exact PVR.tabled (mt PVR.getSRGBPixelFormat_unknown.mpr hknown)
    · next hcolor =>
      rw [if_neg hcolor]
      exact PVR.tabled hknown
  have husual : f.block.Usual := by
    rw [hlinear] at hknown
    exact usual hknown
  exact PVR.getMipLevelSize_of_dimensions htabled husual hw hh
    (PVR.mipDimension_depth hsupported.depth level) hfits

variable {f : CompressedFormat} {width height : Nat}

theorem astc_agrees (file : List Byte) (room : Nat → Bool) (p : ASTC.Parsed)
    (h : ASTC.parseCompressed file room = some (.ok p)) (hlayer : (ASTC.readHeader file).sizeZ = 1)
    (hformat : ⟨p.format, false⟩ = f.format) (hw : p.width = width) (hh : p.height = height) :
    p.size = f.block.sliceBytes width height := by
  have hlinear : p.format = f.getLinearPixelFormat := congrArg PVR.Format.linear hformat
  rw [(ASTC.parse_size h hlayer).2, hw, hh, hlinear]
  rfl

/-! ## The table -/

theorem block_usual (f : CompressedFormat) : f.block.Usual := by
  refine usual ?_
  cases f <;> decide

theorem formatInfo_block (h : f.isASTC = false) :
    f.formatInfo.blockWidth = f.block.width ∧ f.formatInfo.blockHeight = f.block.height ∧
      f.formatInfo.blockSize = f.block.bytes := by
  cases f <;> first
    | exact ⟨rfl, rfl, rfl⟩
    | cases h

/-- The rows of ASTC have one byte for a block, and one has the width of another. -/
theorem formatInfo_astc (h : f.isASTC = true) :
    f.block.width ≤ 2 * f.formatInfo.blockWidth ∧ 0 < f.formatInfo.blockWidth ∧
      f.formatInfo.blockHeight = f.block.height ∧ f.formatInfo.blockSize = 1 ∧
      f.block.bytes = 16 := by
  cases f <;> first
    | decide
    | cases h

/-- **The table has the size** of a format that is not ASTC. -/
theorem sliceSize_eq (h : f.isASTC = false) (hw : width < 2 ^ 31) (hh : height < 2 ^ 31) :
    getPixelFormatSliceSize f width height = f.block.sliceBytes width height := by
  obtain ⟨hwidth, hheight, hsize⟩ := formatInfo_block h
  have husual := block_usual f
  have hbw := husual.width
  have hbh := husual.height
  have hx : blocks width f.block.width ≤ 2 ^ 29 :=
    blocks_le (by omega) (by omega)
  have hy : blocks height f.block.height ≤ 2 ^ 29 :=
    blocks_le (by omega) (by omega)
  have hproduct := Nat.mul_le_mul (Nat.mul_le_mul hx hy) husual.bytes.2.2.2
  rw [getPixelFormatSliceSize, hwidth, hheight, hsize, ← blocks, ← blocks,
    Nat.mul_assoc, Nat.mul_comm, sliceBytes]
  exact Nat.mod_eq_of_lt (by omega)

theorem eight_sliceSize_le (h : f.isASTC = true) (width height : Nat) :
    8 * getPixelFormatSliceSize f width height ≤ f.block.sliceBytes width height := by
  obtain ⟨hwide, hpos, hheight, hsize, hbytes⟩ := formatInfo_astc h
  have husual := block_usual f
  have hbw := husual.width
  have hx : blocks width f.formatInfo.blockWidth ≤
      2 * blocks width f.block.width := by
    refine blocks_le hpos ?_
    calc width ≤ blocks width f.block.width * f.block.width :=
          blocks_mul_le (by omega)
      _ ≤ blocks width f.block.width * (2 * f.formatInfo.blockWidth) :=
          Nat.mul_le_mul_left _ hwide
      _ = 2 * blocks width f.block.width * f.formatInfo.blockWidth := by ring
  rw [getPixelFormatSliceSize, hheight, hsize, ← blocks, ← blocks,
    sliceBytes, hbytes, Nat.one_mul]
  have hproduct := Nat.mul_le_mul_right (blocks height f.block.height) hx
  rw [Nat.mul_assoc] at hproduct
  omega

theorem sliceSize_lt (h : f.isASTC = true) (hw : 0 < width) (hh : 0 < height) :
    getPixelFormatSliceSize f width height < f.block.sliceBytes width height := by
  have heighth := eight_sliceSize_le h width height
  have hpos := sliceBytes_pos (block_usual f) hw hh
  omega

/-- **The sizes agree** for the formats that are not ASTC, and for no others. -/
theorem agrees_iff (f : CompressedFormat) {width height : Nat} (hw : 0 < width ∧ width < 2 ^ 31)
    (hh : 0 < height ∧ height < 2 ^ 31) : Agrees f width height ↔ f.isASTC = false := by
  constructor
  · intro h
    cases hastc : f.isASTC with
    | false => rfl
    | true => exact absurd h.slice (Nat.ne_of_lt (sliceSize_lt hastc hw.1 hh.1))
  · intro h
    exact ⟨sliceSize_eq h hw.2 hh.2, pvr_agrees, astc_agrees⟩

theorem agrees_dxt1 : Agrees .dxt1Unorm 5 7 :=
  (agrees_iff .dxt1Unorm (by decide) (by decide)).mpr rfl

/-- A picture of one block of 4 by 4 pixels has 16 bytes, but one in the table. -/
theorem not_always_agrees :
    ¬ ∀ f width height, 0 < width ∧ width < 2 ^ 31 → 0 < height ∧ height < 2 ^ 31 →
      Agrees f width height := by
  intro hall
  have hslice := (hall .astc4x4Unorm 4 4 (by decide) (by decide)).slice
  exact absurd hslice (by decide)

end Lhatove.Image
