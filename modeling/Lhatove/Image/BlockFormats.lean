import Lhatove.Image.KTXHandler

/-!
# Formats of blocks

How many bytes a picture has in a format that is made of blocks: each block is of
some pixels by some pixels, has as many bytes whatever it shows, and the blocks at
the right and at the bottom may be shown in part only.

- `sliceBytes`: the bytes of a picture;
- `mipSize`: the size of a mip level.
-/

namespace Lhatove.Image

/-- A kind of block. -/
structure BlockFormat where
  width : Nat
  height : Nat
  bytes : Nat

/-- The blocks of a format, as its standard has them. -/
def PixelFormat.block : PixelFormat → BlockFormat
  | .unknown => ⟨1, 1, 0⟩
  | .pvr1Rgb2Unorm | .pvr1Rgba2Unorm => ⟨16, 8, 32⟩
  | .pvr1Rgb4Unorm | .pvr1Rgba4Unorm => ⟨8, 8, 32⟩
  | .etc1Unorm | .etc2RgbUnorm | .etc2RgbSrgb | .etc2Rgba1Unorm | .etc2Rgba1Srgb => ⟨4, 4, 8⟩
  | .etc2RgbaUnorm | .etc2RgbaSrgb => ⟨4, 4, 16⟩
  | .eacRUnorm | .eacRSnorm => ⟨4, 4, 8⟩
  | .eacRgUnorm | .eacRgSnorm => ⟨4, 4, 16⟩
  | .dxt1Unorm | .dxt1Srgb => ⟨4, 4, 8⟩
  | .dxt3Unorm | .dxt3Srgb | .dxt5Unorm | .dxt5Srgb => ⟨4, 4, 16⟩
  | .bc4Unorm | .bc4Snorm => ⟨4, 4, 8⟩
  | .bc5Unorm | .bc5Snorm => ⟨4, 4, 16⟩
  | .bc6hFloat | .bc6hUfloat | .bc7Unorm | .bc7Srgb => ⟨4, 4, 16⟩
  | .astc4x4Unorm | .astc4x4Srgb => ⟨4, 4, 16⟩
  | .astc5x4Unorm | .astc5x4Srgb => ⟨5, 4, 16⟩
  | .astc5x5Unorm | .astc5x5Srgb => ⟨5, 5, 16⟩
  | .astc6x5Unorm | .astc6x5Srgb => ⟨6, 5, 16⟩
  | .astc6x6Unorm | .astc6x6Srgb => ⟨6, 6, 16⟩
  | .astc8x5Unorm | .astc8x5Srgb => ⟨8, 5, 16⟩
  | .astc8x6Unorm | .astc8x6Srgb => ⟨8, 6, 16⟩
  | .astc8x8Unorm | .astc8x8Srgb => ⟨8, 8, 16⟩
  | .astc10x5Unorm | .astc10x5Srgb => ⟨10, 5, 16⟩
  | .astc10x6Unorm | .astc10x6Srgb => ⟨10, 6, 16⟩
  | .astc10x8Unorm | .astc10x8Srgb => ⟨10, 8, 16⟩
  | .astc10x10Unorm | .astc10x10Srgb => ⟨10, 10, 16⟩
  | .astc12x10Unorm | .astc12x10Srgb => ⟨12, 10, 16⟩
  | .astc12x12Unorm | .astc12x12Srgb => ⟨12, 12, 16⟩

namespace BlockFormat

/-- How many blocks cover a number of pixels. -/
def blocks (size block : Nat) : Nat := (size + block - 1) / block

/-- The bytes of a picture. -/
def sliceBytes (b : BlockFormat) (width height : Nat) : Nat :=
  blocks width b.width * blocks height b.height * b.bytes

/-- What all formats of blocks have in common. -/
structure Usual (b : BlockFormat) : Prop where
  width : 4 ≤ b.width ∧ b.width ≤ 16
  height : 4 ≤ b.height ∧ b.height ≤ 16
  bytes : b.width ≤ b.bytes ∧ b.height ≤ b.bytes ∧ 8 ≤ b.bytes ∧ b.bytes ≤ 32
  large : 16 < b.bytes → 8 ≤ b.width ∧ 8 ≤ b.height
  even : b.bytes ≠ 16 → b.bytes ≤ 8 ∨ 16 < b.bytes

theorem usual {format : PixelFormat} (h : format ≠ .unknown) : format.block.Usual := by
  cases format with
  | unknown => exact absurd rfl h
  | _ => exact ⟨by decide, by decide, by decide, by decide, by decide⟩

variable {size block : Nat}

theorem blocks_mul_le (hblock : 0 < block) : size ≤ blocks size block * block := by
  have hdiv := Nat.div_add_mod (size + block - 1) block
  have hmod := Nat.mod_lt (size + block - 1) hblock
  rw [blocks, Nat.mul_comm]
  omega

theorem blocks_pos (hsize : 0 < size) (hblock : 0 < block) : 0 < blocks size block :=
  Nat.div_pos (by omega) hblock

theorem blocks_mono {size' : Nat} (block : Nat) (h : size ≤ size') :
    blocks size block ≤ blocks size' block :=
  Nat.div_le_div_right (by omega)

theorem blocks_eq_one_iff (hsize : 0 < size) (hblock : 0 < block) :
    blocks size block = 1 ↔ size ≤ block := by
  constructor
  · intro h
    have hle := @blocks_mul_le size block hblock
    rwa [h, Nat.one_mul] at hle
  · intro h
    have hlt : blocks size block < 2 := (Nat.div_lt_iff_lt_mul hblock).mpr (by omega)
    have hpos := blocks_pos hsize hblock
    omega

theorem sliceBytes_mono (b : BlockFormat) {width width' height height' : Nat}
    (hwidth : width ≤ width') (hheight : height ≤ height') :
    b.sliceBytes width height ≤ b.sliceBytes width' height' :=
  Nat.mul_le_mul_right _ (Nat.mul_le_mul (blocks_mono _ hwidth) (blocks_mono _ hheight))

end BlockFormat

/-! ## Mip levels -/

/-- The size of a mip level of a picture. -/
def mipSize (size level : Nat) : Nat := max (size / 2 ^ level) 1

theorem mipSize_pos (size level : Nat) : 0 < mipSize size level :=
  Nat.lt_of_lt_of_le Nat.zero_lt_one (le_max_right _ _)

theorem mipSize_le (size level : Nat) : mipSize size level ≤ mipSize size 0 := by
  rw [mipSize, mipSize, Nat.pow_zero, Nat.div_one]
  exact max_le_max (Nat.div_le_self _ _) le_rfl

theorem mipSize_of_lt {size level : Nat} (h : size < 2 ^ level) : mipSize size level = 1 := by
  rw [mipSize, Nat.div_eq_of_lt h]
  rfl

namespace BlockFormat

variable {b : BlockFormat}

variable {width height : Nat}

section

variable (hb : b.Usual) (hwidth : 0 < width) (hheight : 0 < height)
include hb hwidth hheight

theorem side_le : width ≤ b.sliceBytes width height ∧ height ≤ b.sliceBytes width height := by
  obtain ⟨hw, hh, -, -⟩ := hb.bytes
  have hw0 : 0 < b.width := by have := hb.width.1; omega
  have hh0 : 0 < b.height := by have := hb.height.1; omega
  have hx := blocks_pos hwidth hw0
  have hy := blocks_pos hheight hh0
  constructor
  · calc width ≤ blocks width b.width * b.width := blocks_mul_le hw0
      _ ≤ blocks width b.width * blocks height b.height * b.bytes :=
        Nat.mul_le_mul (Nat.le_mul_of_pos_right _ hy) hw
  · calc height ≤ blocks height b.height * b.height := blocks_mul_le hh0
      _ ≤ blocks width b.width * blocks height b.height * b.bytes :=
        Nat.mul_le_mul (Nat.le_mul_of_pos_left _ hx) hh

theorem sliceBytes_pos : 0 < b.sliceBytes width height :=
  Nat.lt_of_lt_of_le hwidth (side_le hb hwidth hheight).1

theorem bytes_le : b.bytes ≤ b.sliceBytes width height := by
  have hw := hb.width
  have hh := hb.height
  exact Nat.le_mul_of_pos_left _
    (Nat.mul_pos (blocks_pos hwidth (by omega)) (blocks_pos hheight (by omega)))

theorem sliceBytes_eq_iff :
    b.sliceBytes width height = b.bytes ↔ width ≤ b.width ∧ height ≤ b.height := by
  have hw0 : 0 < b.width := by have := hb.width.1; omega
  have hh0 : 0 < b.height := by have := hb.height.1; omega
  have hbytes : 0 < b.bytes := by have := hb.bytes.2.2.1; omega
  rw [sliceBytes, ← blocks_eq_one_iff hwidth hw0, ← blocks_eq_one_iff hheight hh0]
  constructor
  · intro h
    exact mul_eq_one.mp (Nat.eq_of_mul_eq_mul_right hbytes (by rw [h, Nat.one_mul]))
  · intro h
    rw [h.1, h.2, Nat.one_mul]

end

theorem blocks_le {size block n : Nat} (hblock : 0 < block) (h : size ≤ n * block) :
    blocks size block ≤ n := by
  refine Nat.le_of_lt_succ ((Nat.div_lt_iff_lt_mul hblock).mpr ?_)
  rw [Nat.succ_mul]
  omega

/-- A picture with sides below `2 ^ 32` that has less than `2 ^ 64` bytes has many less. -/
theorem sliceBytes_lt (hb : b.Usual) (hwidth : width < 2 ^ 32) (hheight : height < 2 ^ 32)
    (h : b.sliceBytes width height < 2 ^ 64) :
    b.sliceBytes width height < 2 ^ 64 - 2 ^ 31 := by
  have hw := hb.width
  have hh := hb.height
  have hx : blocks width b.width ≤ 2 ^ 30 := blocks_le (by omega) (by omega)
  have hy : blocks height b.height ≤ 2 ^ 30 := blocks_le (by omega) (by omega)
  rw [sliceBytes] at h ⊢
  by_cases hbytes : b.bytes = 16
  · -- Only the largest picture of all has as many as `2 ^ 64` bytes.
    rw [hbytes] at h ⊢
    rcases Nat.lt_or_ge (blocks width b.width) (2 ^ 30) with hlt | hge
    · have := Nat.mul_le_mul (Nat.le_sub_one_of_lt hlt) hy
      omega
    · rcases Nat.lt_or_ge (blocks height b.height) (2 ^ 30) with hlt | hge'
      · have := Nat.mul_le_mul hx (Nat.le_sub_one_of_lt hlt)
        omega
      · have := Nat.mul_le_mul hge hge'
        omega
  · rcases hb.even hbytes with hsmall | hlarge
    · have := Nat.mul_le_mul (Nat.mul_le_mul hx hy) hsmall
      omega
    · have hx : blocks width b.width ≤ 2 ^ 29 := blocks_le (by have := hb.large hlarge; omega)
        (by have := hb.large hlarge; omega)
      have hy : blocks height b.height ≤ 2 ^ 29 := blocks_le (by have := hb.large hlarge; omega)
        (by have := hb.large hlarge; omega)
      have := Nat.mul_le_mul (Nat.mul_le_mul hx hy) hb.bytes.2.2.2
      omega

end BlockFormat

end Lhatove.Image
