import Lhatove.Image.BlockFormats
import Lhatove.Image.KTXBounds
import Lhatove.Image.PVRHandler

/-!
# What a PVR file has, and what is read

- `fileHeader`: the header in the terms of the file, whatever its version and byte order;
- `Exact`: the slices of a file that is parsed as it should be;
- `exact_iff`: which accepted files are.
-/

namespace Lhatove.Image.PVR

open KTX (byteAt wordAt swapuint32 addSize copyBytes wordAt_eq swapuint32_loadLE loadLE_inj
  addSize_of_lt)

/-! ## The format -/

section Format

variable (file : List Byte)

/-- The file has a header of version 3. -/
def version3 : Bool := file.take 4 = [0x50, 0x56, 0x52, 3] ∨ file.take 4 = [3, 0x52, 0x56, 0x50]

/-- The file has its high-order bytes first. -/
def bigEndian : Bool :=
  if version3 file then file.take 4 = [3, 0x52, 0x56, 0x50]
  else (file.drop 44).take 4 = [0x21, 0x52, 0x56, 0x50]

/-- The number of some bytes, in the byte order of the file. -/
def number (bytes offset : Nat) : Nat :=
  let field := (file.drop offset).take bytes
  (loadLE (8 * bytes) (if bigEndian file then field.reverse else field)).toNat

/-- What a file says about its pictures. -/
structure FileHeader where
  pixelFormat : Nat
  colorSpace : Nat
  channelType : Nat
  width : Nat
  height : Nat
  levels : Nat
  dataStart : Nat

def fileHeader : FileHeader :=
  if version3 file then
    { pixelFormat := number file 8 8
      colorSpace := number file 4 16
      channelType := number file 4 20
      width := number file 4 28
      height := number file 4 24
      levels := number file 4 44
      dataStart := 52 + number file 4 48 }
  else
    { pixelFormat := (pixelFormatV2 (number file 4 16 % 256)).toNat
      colorSpace := 0
      channelType := 0
      width := number file 4 8
      height := number file 4 4
      levels := number file 4 12
      dataStart := 52 }

end Format

namespace FileHeader

variable (header : FileHeader)

/-- The format of the pictures: the high-order half of the number is not looked at. -/
def format : PixelFormat :=
  let format := convertFormat (header.pixelFormat % 2 ^ 32) header.channelType
  if header.colorSpace = 1 then (getSRGBPixelFormat format).linear else format

/-- The bytes of a level. -/
def levelBytes (level : Nat) : Nat :=
  header.format.block.sliceBytes (mipSize header.width level) (mipSize header.height level)

/-- **The sizes can be computed**: there are no more levels than distances of a shift,
unless all are of one block, and the first has few enough bytes. For a format that gives
its bits per pixel, the bits are those of the blocks. -/
def Measured : Prop :=
  (header.levels ≤ 32 ∨ (mipSize header.width 0 ≤ header.format.block.width ∧
      mipSize header.height 0 ≤ header.format.block.height)) ∧
    if header.pixelFormat < 2 ^ 32 then
      (if 27 ≤ header.pixelFormat then 1 else 8) * header.levelBytes 0 < 2 ^ 31
    else
      ∀ level < header.levels, level < 32 →
        (int32 (getBitsPerPixel (BitVec.ofNat 64 header.pixelFormat) *
          mipSize header.width level * mipSize header.height level)).tdiv 8 =
            header.levelBytes level

end FileHeader

/-- **Exact**: there is a slice for every level, with as many bytes as the blocks of the
level have, in the file and in the memory, behind the slice before it, and with the bytes
of the file. -/
structure Exact (file : List Byte) (p : Parsed) : Prop where
  levels : p.images.length = (fileHeader file).levels
  size : ∀ i (s : Slice), p.images[i]? = some s → s.size = s.format.linear.block.sliceBytes
    (mipSize (fileHeader file).width i) (mipSize (fileHeader file).height i)
  inFile : ∀ s ∈ p.images, (fileHeader file).dataStart + s.offset + s.size ≤ file.length
  inMemory : ∀ s ∈ p.images, s.offset + s.size ≤ p.memorySize
  apart : p.images.Pairwise fun s t => s.offset + s.size ≤ t.offset
  bytes : ∀ s ∈ p.images, ∀ k < s.size,
    file[(fileHeader file).dataStart + s.offset + k]? = some (p.memory (s.offset + k))

/-! ## The header -/

section Reading

variable {file : List Byte} {behind : Nat → Byte}

variable {offset : Nat}

theorem longAt_eq (h : offset + 8 ≤ file.length) :
    longAt file behind offset = loadLE 64 ((file.drop offset).take 8) := by
  rw [longAt]
  congr 1
  refine List.ext_getElem (by simp; omega) fun k hk _ => ?_
  have hk : k < 8 := by simpa using hk
  simp [byteAt, show offset + k < file.length by omega]

theorem swapuint64_getLsbD (x : BitVec 64) {i : Nat} (hi : i < 64) :
    (swapuint64 x).getLsbD i = x.getLsbD (8 * (7 - i / 8) + i % 8) := by
  interval_cases i <;> simp [swapuint64]

theorem swapuint64_loadLE {bytes : List Byte} (h : bytes.length = 8) :
    swapuint64 (loadLE 64 bytes) = loadLE 64 bytes.reverse := by
  refine eq_of_bits fun i hi => ?_
  rw [swapuint64_getLsbD _ hi, loadLE_getLsbD _ _ (by omega), loadLE_getLsbD _ _ hi,
    reverse_getD (by omega), h, show (8 * (7 - i / 8) + i % 8) / 8 = 8 - 1 - i / 8 by omega,
    show (8 * (7 - i / 8) + i % 8) % 8 = i % 8 by omega]

/-- A word is one of the identifiers if its bytes are. -/
theorem wordAt_eq_iff (h : offset + 4 ≤ file.length) {ident : BitVec 32} {bytes : List Byte}
    (hlength : bytes.length = 4) (hident : ident = loadLE 32 bytes) :
    wordAt file behind offset = ident ↔ (file.drop offset).take 4 = bytes := by
  rw [wordAt_eq h, hident, loadLE_inj (by simp; omega) hlength]

/-- A word of which the bytes are swapped in a file that has them the other way round. -/
theorem word_toNat (h : offset + 4 ≤ file.length) :
    (if bigEndian file then swapuint32 (wordAt file behind offset)
      else wordAt file behind offset).toNat = number file 4 offset := by
  unfold number
  dsimp only
  by_cases hbig : bigEndian file = true
  · rw [if_pos hbig, if_pos hbig, wordAt_eq h, swapuint32_loadLE (by simp; omega)]
  · rw [if_neg hbig, if_neg hbig, wordAt_eq h]

theorem long_toNat (h : offset + 8 ≤ file.length) :
    (if bigEndian file then swapuint64 (longAt file behind offset)
      else longAt file behind offset).toNat = number file 8 offset := by
  unfold number
  dsimp only
  by_cases hbig : bigEndian file = true
  · rw [if_pos hbig, if_pos hbig, longAt_eq h, swapuint64_loadLE (by simp; omega)]
  · rw [if_neg hbig, if_neg hbig, longAt_eq h]

/-- The header that is read has what the file says. -/
structure Header.Reads (header : Header) (said : FileHeader) : Prop where
  pixelFormat : header.pixelFormat.toNat = said.pixelFormat
  colorSpace : header.colorSpace.toNat = said.colorSpace
  channelType : header.channelType.toNat = said.channelType
  width : header.width.toNat = said.width
  height : header.height.toNat = said.height
  levels : header.numMipmaps.toNat = said.levels
  dataStart : headerSize + header.metaDataSize.toNat = said.dataStart

theorem length_of_canParse (h : canParseCompressed file behind = true) : 52 ≤ file.length := by
  unfold canParseCompressed at h
  split at h
  · cases h
  · next hlength => exact Nat.le_of_not_gt hlength

/-- **The header is read** as the file has it. -/
theorem readHeader_reads (h : canParseCompressed file behind = true) :
    (readHeader file behind).Reads (fileHeader file) := by
  have hlength := length_of_canParse h
  have h3 := @wordAt_eq_iff file behind 0 (by omega) ident3 [0x50, 0x56, 0x52, 3] rfl (by decide)
  have h3' := @wordAt_eq_iff file behind 0 (by omega) ident3Rev [3, 0x52, 0x56, 0x50] rfl
    (by decide)
  have h2 := @wordAt_eq_iff file behind 44 (by omega) ident2Rev [0x21, 0x52, 0x56, 0x50] rfl
    (by decide)
  rw [List.drop_zero] at h3 h3'
  have hversion : version3 file = true ↔
      (wordAt file behind 0 = ident3 ∨ wordAt file behind 0 = ident3Rev) := by
    rw [version3, decide_eq_true_iff, h3, h3']
  unfold readHeader fileHeader
  by_cases hv : version3 file = true
  · have hbig : wordAt file behind 0 = ident3Rev ↔ bigEndian file = true := by
      rw [bigEndian, if_pos hv, decide_eq_true_iff, h3']
    have hword : ∀ offset, offset + 4 ≤ 52 →
        (wordV3 file behind offset).toNat = number file 4 offset := by
      intro offset hoffset
      rw [wordV3, ← @word_toNat file behind offset (by omega)]
      simp only [hbig]
    rw [if_neg (by rw [← not_or]; exact not_not.mpr (hversion.mp hv)), if_pos hv]
    refine ⟨?_, hword _ (by omega), hword _ (by omega), hword _ (by omega), hword _ (by omega),
      hword _ (by omega), congrArg _ (hword _ (by omega))⟩
    rw [pixelFormatV3, ← @long_toNat file behind 8 (by omega)]
    simp only [hbig]
  · have hbig : wordAt file behind 44 = ident2Rev ↔ bigEndian file = true := by
      rw [bigEndian, if_neg hv, decide_eq_true_iff, h2]
    have hword : ∀ offset, offset + 4 ≤ 52 →
        (wordV2 file behind offset).toNat = number file 4 offset := by
      intro offset hoffset
      rw [wordV2, ← @word_toNat file behind offset (by omega)]
      simp only [hbig]
    rw [if_pos (by rw [← not_or]; exact mt hversion.mpr hv), if_neg hv]
    refine ⟨?_, rfl, rfl, hword _ (by omega), hword _ (by omega), hword _ (by omega), rfl⟩
    change (pixelFormatV2 (wordV2 file behind 16 &&& 0xFF).toNat).toNat = _
    rw [BitVec.toNat_and, hword _ (by omega), show (0xFF : BitVec 32).toNat = 2 ^ 8 - 1 from rfl,
      Nat.and_two_pow_sub_one_eq_mod]

end Reading

/-! ## Numbers -/

theorem int32_of_fits {x : Int} (h : -2147483648 ≤ x ∧ x < 2147483648) : int32 x = x := by
  rw [int32]
  omega

theorem int32_bounds (x : Int) : -2147483648 ≤ int32 x ∧ int32 x < 2147483648 := by
  rw [int32]
  omega

theorem eighth_bounds (x : Int) :
    -268435456 ≤ (int32 x).tdiv 8 ∧ (int32 x).tdiv 8 < 268435456 := by
  have h := int32_bounds x
  rcases Int.le_total 0 (int32 x) with hpos | hneg
  · rw [Int.tdiv_eq_ediv_of_nonneg hpos]
    omega
  · have hflip : (int32 x).tdiv 8 = -(-int32 x / 8) := by
      rw [← Int.tdiv_eq_ediv_of_nonneg (by omega), Int.neg_tdiv, Int.neg_neg]
    omega

theorem int32_mul (x y : Int) : int32 (int32 x * y) = int32 (x * y) := by
  have hround : int32 x = x - 4294967296 * ((x + 2147483648) / 4294967296) := by
    rw [int32]
    omega
  have hproduct : int32 x * y + 2147483648 =
      x * y + 2147483648 + 4294967296 * (-((x + 2147483648) / 4294967296) * y) := by
    rw [hround]
    ring
  calc int32 (int32 x * y) = (int32 x * y + 2147483648) % 4294967296 - 2147483648 := rfl
    _ = int32 (x * y) := by rw [hproduct, Int.add_mul_emod_self_left, int32]

/-- The size of a level that is computed is small, or one of the largest there are. -/
theorem sizeOfInt_cases {x bound : Int} (h : -bound ≤ x ∧ x < bound)
    (hbound : bound ≤ 2147483648) :
    (x = (sizeOfInt x : Int) ∧ (sizeOfInt x : Int) < bound) ∨ 2 ^ 64 - 2 ^ 31 ≤ sizeOfInt x := by
  rw [sizeOfInt]
  omega

theorem sizeOfInt_natCast {n : Nat} (h : n < 2 ^ 64) : sizeOfInt n = n := by
  rw [sizeOfInt]
  omega

theorem mipDimension_eq {x : BitVec 32} (h : x.toNat < 2 ^ 31) (level : Nat) :
    mipDimension x level = mipSize x.toNat (level % 32) := by
  have hshift : (x.sshiftRight (level % 32)).toInt = (x.toNat / 2 ^ (level % 32) : Nat) := by
    rw [BitVec.toInt_sshiftRight, BitVec.toInt_eq_toNat_of_lt (by omega),
      Int.shiftRight_eq_div_pow]
    norm_cast
  rw [mipDimension, mipSize, hshift]
  omega

theorem mipDimension_bounds (x : BitVec 32) (level : Nat) :
    1 ≤ mipDimension x level ∧ mipDimension x level < 2147483648 := by
  have hlt := BitVec.toInt_lt (x := x.sshiftRight (level % 32))
  rw [mipDimension]
  omega

theorem padDimension_one (x : BitVec 32) (level : Nat) :
    padDimension (mipDimension x level) 1 = mipDimension x level := by
  have h := mipDimension_bounds x level
  rw [padDimension, Int.tdiv_one, Int.mul_one]
  simp only [int32]
  omega

theorem padDimension_eq {size block : Nat} (hblock : 0 < block) (hsum : size + block < 2 ^ 31)
    (h : BlockFormat.blocks size block * block < 2 ^ 31) :
    padDimension size block = (BlockFormat.blocks size block * block : Nat) := by
  have hsum : int32 (int32 ((size : Int) + block) - 1) = (size + block - 1 : Nat) := by
    rw [@int32_of_fits ((size : Int) + block) (by omega), int32_of_fits (by omega)]
    omega
  have hdiv : ((size + block - 1 : Nat) : Int).tdiv block * block =
      (BlockFormat.blocks size block * block : Nat) := by
    rw [Int.tdiv_eq_ediv_of_nonneg (by omega), BlockFormat.blocks, Int.natCast_mul,
      Int.natCast_ediv]
  rw [padDimension, hsum, hdiv, int32_of_fits (by omega)]

/-! ## Formats -/

theorem block_getSRGBPixelFormat (format : PixelFormat) :
    (getSRGBPixelFormat format).linear.block = format.block := by
  cases format <;> rfl

theorem getSRGBPixelFormat_unknown {format : PixelFormat} :
    (getSRGBPixelFormat format).linear = .unknown ↔ format = .unknown := by
  cases format <;> simp [getSRGBPixelFormat]

/-- What the tables have for a format that is supported. -/
structure Tabled (pixelformat : Nat) (b : BlockFormat) : Prop where
  le : pixelformat ≤ 40
  dimensions : getFormatMinDimensions pixelformat = (b.width, b.height)
  astc : 27 ≤ pixelformat → b.bytes = 16 ∧ b.width ≤ 12 ∧ b.height ≤ 12
  bits : pixelformat < 27 →
    getBitsPerPixel (BitVec.ofNat 64 pixelformat) * (b.width * b.height) = 8 * b.bytes

variable {format channeltype : Nat}

theorem convertFormat_le (h : convertFormat format channeltype ≠ .unknown) : format ≤ 40 := by
  by_contra hlarge
  apply h
  unfold convertFormat
  dsimp only
  split <;> first | rfl | omega

/-- **The tables agree** with the blocks of the format. -/
theorem tabled (h : convertFormat format channeltype ≠ .unknown) :
    Tabled format (convertFormat format channeltype).block := by
  have hle := convertFormat_le h
  unfold convertFormat at h ⊢
  by_cases hsnorm : channeltype = 1 ∨ channeltype = 5 ∨ channeltype = 9
  · simp only [if_pos hsnorm] at h ⊢
    interval_cases format <;> first
      | exact absurd rfl h
      | exact ⟨by decide, rfl, by decide, by decide⟩
  · simp only [if_neg hsnorm] at h ⊢
    interval_cases format <;> first
      | exact absurd rfl h
      | exact ⟨by decide, rfl, by decide, by decide⟩

/-! ## Sizes -/

section Sizes

variable {header : Header} {said : FileHeader}

/-- The header of a file that is not refused: its format is supported, and it has one
layer. -/
structure Header.Supported (header : Header) : Prop where
  format : header.format.linear ≠ .unknown
  depth : header.depth.toNat ≤ 1

theorem format_eq (hread : header.Reads said) : header.format.linear = said.format := by
  have hcolor : header.colorSpace = 1 ↔ said.colorSpace = 1 := by
    rw [← hread.colorSpace, ← BitVec.toNat_inj]
    rfl
  unfold Header.format FileHeader.format
  rw [hread.pixelFormat, hread.channelType]
  by_cases h : said.colorSpace = 1
  · rw [if_pos (hcolor.mpr h), if_pos h]
  · rw [if_neg (mt hcolor.mp h), if_neg h]

theorem tabled_format (hformat : said.format ≠ .unknown) :
    Tabled (said.pixelFormat % 2 ^ 32) said.format.block := by
  unfold FileHeader.format at hformat ⊢
  split at hformat
  · next h =>
    rw [if_pos h, block_getSRGBPixelFormat]
    exact tabled (mt getSRGBPixelFormat_unknown.mpr hformat)
  · next h =>
    rw [if_neg h]
    exact tabled hformat

theorem mipDimension_depth (h : header.depth.toNat ≤ 1) (level : Nat) :
    mipDimension header.depth level = 1 := by
  rw [mipDimension_eq (by omega), mipSize]
  have hle := Nat.div_le_self header.depth.toNat (2 ^ (level % 32))
  omega

theorem getMipLevelSize_mod (header : Header) (level : Nat) :
    getMipLevelSize header level = getMipLevelSize header (level % 32) := by
  unfold getMipLevelSize mipDimension
  rw [Nat.mod_mod]

theorem getMipLevelSize_bounds (header : Header) (level : Nat) :
    ∃ x, getMipLevelSize header level = sizeOfInt x ∧
      if isASTC header.pixelFormat then -2147483648 ≤ x ∧ x < 2147483648
      else -268435456 ≤ x ∧ x < 268435456 := by
  unfold getMipLevelSize
  dsimp only
  by_cases h : isASTC header.pixelFormat = true
  · rw [if_pos h]
    refine ⟨_, rfl, ?_⟩
    rw [if_pos h]
    exact int32_bounds _
  · rw [if_neg h]
    refine ⟨_, rfl, ?_⟩
    rw [if_neg h]
    exact eighth_bounds _

/-- **The size of a level**, where 32 bits are enough for it. -/
theorem getMipLevelSize_of_dimensions {b : BlockFormat} {level width height : Nat}
    (htabled : Tabled header.pixelFormat.toNat b) (husual : b.Usual)
    (hw : mipDimension header.width level = width) (hh : mipDimension header.height level = height)
    (hd : mipDimension header.depth level = 1)
    (hfits : (if 27 ≤ header.pixelFormat.toNat then 1 else 8) * b.sliceBytes width height < 2 ^ 31) :
    getMipLevelSize header level = b.sliceBytes width height := by
  have hw0 : 0 < width := by have := mipDimension_bounds header.width level; omega
  have hh0 : 0 < height := by have := mipDimension_bounds header.height level; omega
  unfold getMipLevelSize
  rw [hw, hh, hd, htabled.dimensions]
  dsimp only
  have hbw := husual.width
  have hbh := husual.height
  have hcolumns : width ≤ BlockFormat.blocks width b.width * b.width :=
    BlockFormat.blocks_mul_le (by omega)
  have hrows : height ≤ BlockFormat.blocks height b.height * b.height :=
    BlockFormat.blocks_mul_le (by omega)
  have hx0 : 0 < BlockFormat.blocks width b.width := BlockFormat.blocks_pos hw0 (by omega)
  have hy0 : 0 < BlockFormat.blocks height b.height := BlockFormat.blocks_pos hh0 (by omega)
  rw [BlockFormat.sliceBytes] at hfits ⊢
  have hone : padDimension 1 1 = 1 := by decide
  have hle := htabled.le
  by_cases hastc : 27 ≤ header.pixelFormat.toNat
  · obtain ⟨hbytes, hbw', hbh'⟩ := htabled.astc hastc
    rw [if_pos hastc, hbytes] at hfits
    have hx : BlockFormat.blocks width b.width * 16 < 2 ^ 31 := by
      have := Nat.le_mul_of_pos_right (BlockFormat.blocks width b.width) hy0
      omega
    have hy : BlockFormat.blocks height b.height * 16 < 2 ^ 31 := by
      have := Nat.le_mul_of_pos_left (BlockFormat.blocks height b.height) hx0
      omega
    have hcolumns' := Nat.mul_le_mul_left (BlockFormat.blocks width b.width) hbw'
    have hrows' := Nat.mul_le_mul_left (BlockFormat.blocks height b.height) hbh'
    have his : isASTC header.pixelFormat = true := by
      rw [isASTC, decide_eq_true_iff]
      exact ⟨hastc, hle⟩
    rw [if_pos his, padDimension_eq (by omega) (by omega) (by omega),
      padDimension_eq (by omega) (by omega) (by omega), hone, Int.natCast_mul, Int.natCast_mul,
      Int.mul_tdiv_cancel _ (by omega), Int.mul_tdiv_cancel _ (by omega), hbytes, Int.tdiv_one,
      Int.mul_one, int32_mul, int32_mul, ← Int.natCast_mul]
    have hsize : ((BlockFormat.blocks width b.width * BlockFormat.blocks height b.height : Nat) : Int)
        * 16 = (BlockFormat.blocks width b.width * BlockFormat.blocks height b.height * 16 : Nat) := by
      omega
    rw [hsize, int32_of_fits (by omega), sizeOfInt_natCast (by omega)]
  · have hbits := htabled.bits (by omega)
    rw [if_neg hastc] at hfits
    have hx : BlockFormat.blocks width b.width * b.width < 2 ^ 28 := by
      have := Nat.mul_le_mul (Nat.le_mul_of_pos_right (BlockFormat.blocks width b.width) hy0)
        husual.bytes.1
      omega
    have hy : BlockFormat.blocks height b.height * b.height < 2 ^ 28 := by
      have := Nat.mul_le_mul (Nat.le_mul_of_pos_left (BlockFormat.blocks height b.height) hx0)
        husual.bytes.2.1
      omega
    have his : ¬ isASTC header.pixelFormat = true := by
      rw [isASTC, decide_eq_true_iff]
      omega
    have hnumber : header.pixelFormat = BitVec.ofNat 64 header.pixelFormat.toNat := by
      rw [BitVec.ofNat_toNat, BitVec.setWidth_eq]
    have hsize : getBitsPerPixel header.pixelFormat * (BlockFormat.blocks width b.width * b.width) *
        (BlockFormat.blocks height b.height * b.height) =
          8 * (BlockFormat.blocks width b.width * BlockFormat.blocks height b.height * b.bytes) := by
      rw [hnumber]
      calc _ = BlockFormat.blocks width b.width * BlockFormat.blocks height b.height *
            (getBitsPerPixel (BitVec.ofNat 64 header.pixelFormat.toNat) *
              (b.width * b.height)) := by ring
        _ = _ := by rw [hbits]; ring
    rw [if_neg his, padDimension_eq (by omega) (by omega) (by omega),
      padDimension_eq (by omega) (by omega) (by omega), hone, Int.mul_one, int32_mul,
      ← Int.natCast_mul, ← Int.natCast_mul, hsize]
    rw [int32_of_fits (int32_bounds _), int32_of_fits (by omega),
      Int.tdiv_eq_ediv_of_nonneg (by omega), Int.natCast_mul, Nat.cast_ofNat,
      Int.mul_ediv_cancel_left _ (by omega), sizeOfInt_natCast (by omega)]

theorem getMipLevelSize_eq (hread : header.Reads said) (hsupported : header.Supported)
    (hlow : said.pixelFormat < 2 ^ 32) {level : Nat}
    (hwidth : said.width < 2 ^ 31) (hheight : said.height < 2 ^ 31)
    (hfits : (if 27 ≤ said.pixelFormat then 1 else 8) * said.levelBytes (level % 32) < 2 ^ 31) :
    getMipLevelSize header level = said.levelBytes (level % 32) := by
  have hformat : said.format ≠ .unknown := format_eq hread ▸ hsupported.format
  have htabled := tabled_format hformat
  rw [Nat.mod_eq_of_lt hlow, ← hread.pixelFormat] at htabled
  rw [← hread.pixelFormat] at hfits
  refine getMipLevelSize_of_dimensions htabled (BlockFormat.usual hformat) ?_ ?_
    (mipDimension_depth hsupported.depth level) hfits
  · rw [mipDimension_eq (hread.width ▸ hwidth), hread.width]
  · rw [mipDimension_eq (hread.height ▸ hheight), hread.height]

theorem levelBytes_le (said : FileHeader) (level : Nat) :
    said.levelBytes level ≤ said.levelBytes 0 :=
  BlockFormat.sliceBytes_mono _ (mipSize_le _ _) (mipSize_le _ _)

theorem sides_lt (hread : header.Reads said) : said.width < 2 ^ 32 ∧ said.height < 2 ^ 32 :=
  ⟨hread.width ▸ header.width.isLt, hread.height ▸ header.height.isLt⟩

theorem sides_le (hformat : said.format ≠ .unknown) :
    said.width ≤ said.levelBytes 0 ∧ said.height ≤ said.levelBytes 0 := by
  have hsides := BlockFormat.side_le (BlockFormat.usual hformat)
    (mipSize_pos said.width 0) (mipSize_pos said.height 0)
  have hw : said.width ≤ mipSize said.width 0 := by
    rw [mipSize, Nat.pow_zero, Nat.div_one]
    exact le_max_left _ _
  have hh : said.height ≤ mipSize said.height 0 := by
    rw [mipSize, Nat.pow_zero, Nat.div_one]
    exact le_max_left _ _
  exact ⟨hw.trans hsides.1, hh.trans hsides.2⟩

theorem levelBytes_lt (hread : header.Reads said) (hformat : said.format ≠ .unknown) {level : Nat}
    {x : Int} (h : sizeOfInt x = said.levelBytes level) :
    said.levelBytes level < 2 ^ 64 - 2 ^ 31 := by
  have hside : ∀ size, size < 2 ^ 32 → mipSize size level < 2 ^ 32 := by
    intro size hsize
    refine (mipSize_le size level).trans_lt ?_
    rw [mipSize, Nat.pow_zero, Nat.div_one]
    omega
  refine BlockFormat.sliceBytes_lt (BlockFormat.usual hformat) (hside _ (sides_lt hread).1)
    (hside _ (sides_lt hread).2) ?_
  change said.levelBytes level < _
  rw [← h, sizeOfInt]
  omega

theorem sizes_low_iff (hread : header.Reads said) (hsupported : header.Supported)
    (hlow : said.pixelFormat < 2 ^ 32) (hlevels : 0 < said.levels) :
    (∀ level < said.levels, level < 32 → getMipLevelSize header level = said.levelBytes level) ↔
      (if 27 ≤ said.pixelFormat then 1 else 8) * said.levelBytes 0 < 2 ^ 31 := by
  have hformat : said.format ≠ .unknown := format_eq hread ▸ hsupported.format
  have htabled := tabled_format hformat
  rw [Nat.mod_eq_of_lt hlow] at htabled
  constructor
  · intro h
    obtain ⟨x, hx, hbounds⟩ := getMipLevelSize_bounds header 0
    have hzero := h 0 hlevels (by omega)
    rw [hx] at hzero
    have hlt := levelBytes_lt hread hformat hzero
    have hle := htabled.le
    by_cases hastc : 27 ≤ said.pixelFormat
    · have his : isASTC header.pixelFormat = true := by
        rw [isASTC, hread.pixelFormat, decide_eq_true_iff]
        exact ⟨hastc, hle⟩
      rw [if_pos his] at hbounds
      rw [if_pos hastc]
      have := sizeOfInt_cases hbounds (by omega)
      omega
    · have his : ¬ isASTC header.pixelFormat = true := by
        rw [isASTC, hread.pixelFormat, decide_eq_true_iff]
        omega
      rw [if_neg his] at hbounds
      rw [if_neg hastc]
      have := sizeOfInt_cases hbounds (by omega)
      omega
  · intro h level _ hshift
    obtain ⟨hwidth, hheight⟩ := sides_le hformat
    have hzero : said.levelBytes 0 < 2 ^ 31 := by
      split at h <;> omega
    have heq := @getMipLevelSize_eq header said hread hsupported hlow level (by omega) (by omega)
    rw [Nat.mod_eq_of_lt hshift] at heq
    apply heq
    exact (Nat.mul_le_mul_left _ (levelBytes_le said level)).trans_lt h

/-- A format whose number has bytes in its high-order half: they are the bits of a pixel. -/
theorem getMipLevelSize_high (hread : header.Reads said) (hsupported : header.Supported)
    (hhigh : 2 ^ 32 ≤ said.pixelFormat) (level : Nat) :
    getMipLevelSize header level = sizeOfInt ((int32 (getBitsPerPixel header.pixelFormat *
      mipDimension header.width level * mipDimension header.height level)).tdiv 8) := by
  have hother : getFormatMinDimensions said.pixelFormat = (1, 1) := by
    unfold getFormatMinDimensions
    split <;> first | rfl | omega
  have his : ¬ isASTC header.pixelFormat = true := by
    rw [isASTC, hread.pixelFormat, decide_eq_true_iff]
    omega
  unfold getMipLevelSize
  rw [hread.pixelFormat, hother]
  rw [if_neg his, Nat.cast_one, padDimension_one, padDimension_one, padDimension_one,
    mipDimension_depth hsupported.depth, Int.mul_one, int32_mul, int32_of_fits (int32_bounds _)]

theorem sizes_high_iff (hread : header.Reads said) (hsupported : header.Supported)
    (hhigh : 2 ^ 32 ≤ said.pixelFormat) (hlevels : 0 < said.levels) :
    (∀ level < said.levels, level < 32 → getMipLevelSize header level = said.levelBytes level) ↔
      ∀ level < said.levels, level < 32 →
        (int32 (getBitsPerPixel (BitVec.ofNat 64 said.pixelFormat) * mipSize said.width level *
          mipSize said.height level)).tdiv 8 = said.levelBytes level := by
  have hformat : said.format ≠ .unknown := format_eq hread ▸ hsupported.format
  obtain ⟨hwidth, hheight⟩ := sides_le hformat
  have hnumber : header.pixelFormat = BitVec.ofNat 64 said.pixelFormat := by
    rw [← hread.pixelFormat, BitVec.ofNat_toNat, BitVec.setWidth_eq]
  -- With the first level the sides are below `2 ^ 31`, and the levels are as large as they look.
  have hside : said.levelBytes 0 < 2 ^ 31 → ∀ level < 32,
      getMipLevelSize header level = sizeOfInt ((int32 (getBitsPerPixel
        (BitVec.ofNat 64 said.pixelFormat) * mipSize said.width level *
          mipSize said.height level)).tdiv 8) := by
    intro hzero level hshift
    have hw := @mipDimension_eq header.width (by rw [hread.width]; omega) level
    have hh := @mipDimension_eq header.height (by rw [hread.height]; omega) level
    rw [getMipLevelSize_high hread hsupported hhigh, hw, hh, hread.width, hread.height, hnumber,
      Nat.mod_eq_of_lt hshift]
  constructor
  · intro h level hlevel hshift
    have hzero : said.levelBytes 0 < 2 ^ 31 := by
      have heq := h 0 hlevels (by omega)
      rw [getMipLevelSize_high hread hsupported hhigh] at heq
      have hlt := levelBytes_lt hread hformat heq
      have := sizeOfInt_cases (eighth_bounds (getBitsPerPixel header.pixelFormat *
        mipDimension header.width 0 * mipDimension header.height 0)) (by omega)
      omega
    have heq := h level hlevel hshift
    rw [hside hzero level hshift] at heq
    have hle := levelBytes_le said level
    have := sizeOfInt_cases (eighth_bounds (getBitsPerPixel (BitVec.ofNat 64 said.pixelFormat) *
      mipSize said.width level * mipSize said.height level)) (by omega)
    omega
  · intro h level hlevel hshift
    have hzero : said.levelBytes 0 < 2 ^ 31 := by
      have heq := h 0 hlevels (by omega)
      have := eighth_bounds (getBitsPerPixel (BitVec.ofNat 64 said.pixelFormat) *
        mipSize said.width 0 * mipSize said.height 0)
      omega
    rw [hside hzero level hshift, h level hlevel hshift]
    exact sizeOfInt_natCast (by have := levelBytes_le said level; omega)

/-- **Which sizes are right**, of all the levels. -/
theorem sizes_iff (hread : header.Reads said) (hsupported : header.Supported)
    (hlevels : 0 < said.levels) :
    (∀ level < said.levels, getMipLevelSize header level = said.levelBytes level) ↔
      said.Measured := by
  have hformat : said.format ≠ .unknown := format_eq hread ▸ hsupported.format
  have husual := BlockFormat.usual hformat
  have hsides := sides_lt hread
  -- From level 32 on a picture has one pixel.
  have hlast : ∀ level, 32 ≤ level → said.levelBytes level = said.format.block.bytes := by
    intro level hlevel
    have hpow := Nat.pow_le_pow_right (n := 2) (by omega) hlevel
    have hw := husual.width
    have hh := husual.height
    refine (BlockFormat.sliceBytes_eq_iff husual (mipSize_pos _ _) (mipSize_pos _ _)).mpr ?_
    rw [mipSize_of_lt (by omega), mipSize_of_lt (by omega)]
    omega
  have hone := BlockFormat.sliceBytes_eq_iff husual (mipSize_pos said.width 0)
    (mipSize_pos said.height 0)
  have hshort : (∀ level < said.levels, level < 32 →
      getMipLevelSize header level = said.levelBytes level) ↔
      if said.pixelFormat < 2 ^ 32 then
        (if 27 ≤ said.pixelFormat then 1 else 8) * said.levelBytes 0 < 2 ^ 31
      else
        ∀ level < said.levels, level < 32 →
          (int32 (getBitsPerPixel (BitVec.ofNat 64 said.pixelFormat) *
            mipSize said.width level * mipSize said.height level)).tdiv 8 =
              said.levelBytes level := by
    split
    · next hlow => exact sizes_low_iff hread hsupported hlow hlevels
    · next hhigh => exact sizes_high_iff hread hsupported (Nat.le_of_not_gt hhigh) hlevels
  rw [FileHeader.Measured, ← hshort, ← hone]
  constructor
  · intro h
    refine ⟨?_, fun level hlevel _ => h level hlevel⟩
    by_cases hmany : said.levels ≤ 32
    · exact .inl hmany
    · right
      have hwrap := getMipLevelSize_mod header 32
      rw [h 32 (by omega), h 0 hlevels, hlast 32 (by omega)] at hwrap
      exact hwrap.symm
  · rintro ⟨hmany, h⟩ level hlevel
    by_cases hshift : level < 32
    · exact h level hlevel hshift
    · have hsingle : said.levelBytes 0 = said.format.block.bytes :=
        hmany.resolve_left (by omega)
      have hmod : level % 32 < 32 := Nat.mod_lt _ (by omega)
      have hle := levelBytes_le said (level % 32)
      have hge := BlockFormat.bytes_le husual (mipSize_pos said.width (level % 32))
        (mipSize_pos said.height (level % 32))
      rw [← FileHeader.levelBytes] at hge
      rw [getMipLevelSize_mod, h _ (by omega) hmod, hlast level (by omega)]
      omega

end Sizes

/-! ## The two passes -/

section Passes

variable (file : List Byte) (behind : Nat → Byte) (header : Header) (cformat : Format)
  (fileoffset : Nat) (fresh : Nat → Byte)

/-- The memory, with the first levels copied. -/
def memoryAt : Nat → Nat → Byte
  | 0 => fresh
  | i + 1 => copyBytes file behind (memoryAt i) (totalSize header i)
      (fileoffset + totalSize header i) (getMipLevelSize header i)

/-- The slice of level `i`. -/
def sliceAt (i : Nat) : Slice :=
  ⟨cformat, mipDimension header.width i, mipDimension header.height i, totalSize header i,
    getMipLevelSize header i⟩

/-- The second pass, when the first levels are copied. -/
def copiedAt (i : Nat) : Copying :=
  ⟨totalSize header i, memoryAt file behind header fileoffset fresh i,
    (List.range i).map (sliceAt header cformat)⟩

theorem totalSize_succ (i : Nat) :
    totalSize header (i + 1) = addSize (totalSize header i) (getMipLevelSize header i) := by
  rw [totalSize, List.range_succ, List.foldl_append]
  rfl

variable {file behind header cformat fileoffset fresh}

/-- **The second pass** copies some of the levels one after another, and all of them when
the first pass found room for each. -/
theorem copyLevels_eq {totalsize : Nat} : ∀ n i,
    ∃ m ≤ n, copyLevels file behind header cformat fileoffset totalsize n i
        (copiedAt file behind header cformat fileoffset fresh i) =
          copiedAt file behind header cformat fileoffset fresh (i + m) ∧
      ((∀ j ≤ n, totalSize header (i + j) ≤ totalsize) → m = n) := by
  intro n
  induction n with
  | zero => exact fun i => ⟨0, le_rfl, rfl, fun _ => rfl⟩
  | succ n ih =>
    intro i
    rw [copyLevels]
    split
    · next hbreak =>
      refine ⟨0, Nat.zero_le _, rfl, fun hroom => ?_⟩
      have hnext := hroom 1 (by omega)
      rw [totalSize_succ] at hnext
      exact absurd hbreak (Nat.not_lt.mpr hnext)
    · obtain ⟨m, hm, heq, hall⟩ := ih (i + 1)
      refine ⟨m + 1, by omega, ?_, fun hroom => ?_⟩
      · rw [show i + (m + 1) = i + 1 + m by omega, ← heq]
        congr 1
        rw [copiedAt, copiedAt, totalSize_succ, List.range_succ, List.map_append]
        rfl
      · have := hall fun j hj => by
          rw [show i + 1 + j = i + (j + 1) by omega]
          exact hroom (j + 1) (by omega)
        omega

/-- What has been done with a file that is accepted. -/
structure Done (file : List Byte) (behind : Nat → Byte) (header : Header) (fresh : Nat → Byte)
    (p : Parsed) : Prop where
  supported : header.Supported
  some : 0 < totalSize header header.levels
  fits : addSize (addSize headerSize header.metaDataSize.toNat) (totalSize header header.levels) ≤
    file.length
  memorySize : p.memorySize = totalSize header header.levels
  copied : ∃ m ≤ header.levels,
    p.memory = memoryAt file behind header (addSize headerSize header.metaDataSize.toNat) fresh m ∧
    p.images = (List.range m).map (sliceAt header header.format) ∧
    ((∀ j ≤ header.levels, totalSize header j ≤ totalSize header header.levels) →
      m = header.levels)

theorem parse_ok {room : Nat → Bool} {p : Parsed}
    (h : parseCompressed file behind fresh room = .ok p) :
    canParseCompressed file behind = true ∧ Done file behind (readHeader file behind) fresh p := by
  unfold parseCompressed at h
  split at h
  · cases h
  · next hcan =>
    refine ⟨by simpa using hcan, ?_⟩
    generalize readHeader file behind = header at h ⊢
    dsimp only at h
    split_ifs at h with hdepth hformat hfits hzero hroom
    cases h
    obtain ⟨m, hm, heq, hall⟩ := @copyLevels_eq file behind header header.format
      (addSize headerSize header.metaDataSize.toNat) fresh (totalSize header header.levels)
      header.levels 0
    rw [Nat.zero_add] at heq
    refine ⟨⟨hformat, ?_⟩, Nat.pos_of_ne_zero hzero, Nat.le_of_not_gt hfits, rfl, m, hm, ?_, ?_, ?_⟩
    · have hle := Nat.le_of_not_gt hdepth
      exact hle
    · exact congrArg Copying.memory heq
    · exact congrArg Copying.images heq
    · intro hroom
      exact hall fun j hj => by
        rw [Nat.zero_add]
        exact hroom j hj

end Passes

/-! ## Bounds -/

section Bounds

variable {file : List Byte} {behind : Nat → Byte} {header : Header} {said : FileHeader}
  {fresh : Nat → Byte} {p : Parsed}

theorem levels_eq (hread : header.Reads said) (hdone : Done file behind header fresh p) :
    header.levels = said.levels ∧ 0 < said.levels ∧ said.levels < 2 ^ 31 := by
  have hpos : header.levels ≠ 0 := by
    intro hzero
    have hsome := hdone.some
    rw [hzero] at hsome
    exact absurd hsome (Nat.lt_irrefl 0)
  rw [Header.levels] at hpos ⊢
  rw [← hread.levels]
  have hint := BitVec.toInt_eq_toNat_cond header.numMipmaps
  split at hint <;> omega

section

variable (hlevels : said.levels < 2 ^ 31)
  (hsmall : ∀ level < said.levels, getMipLevelSize header level < 2 ^ 31)
include hlevels hsmall

theorem totalSize_le : ∀ i ≤ said.levels, totalSize header i ≤ i * 2147483648 := by
  intro i
  induction i with
  | zero => exact fun _ => Nat.zero_le _
  | succ i ih =>
    intro hi
    have hlevel := hsmall i (by omega)
    rw [totalSize_succ, addSize_of_lt (by omega)]
    omega

theorem totalSize_step {i : Nat} (hi : i < said.levels) :
    totalSize header (i + 1) = totalSize header i + getMipLevelSize header i := by
  have hle := totalSize_le hlevels hsmall i (by omega)
  have hlevel := hsmall i hi
  rw [totalSize_succ, addSize_of_lt (by omega)]

theorem totalSize_mono {i j : Nat} (hij : i ≤ j)
    (hj : j ≤ said.levels) : totalSize header i ≤ totalSize header j := by
  induction j, hij using Nat.le_induction with
  | base => exact le_rfl
  | succ j hij ih =>
    have hstep := totalSize_step hlevels hsmall (show j < said.levels by omega)
    omega

end

theorem memoryAt_eq {fileoffset : Nat} (hlevels : said.levels < 2 ^ 31)
    (hsmall : ∀ level < said.levels, getMipLevelSize header level < 2 ^ 31) :
    ∀ i ≤ said.levels, ∀ a < totalSize header i,
      memoryAt file behind header fileoffset fresh i a = byteAt file behind (fileoffset + a) := by
  intro i
  induction i with
  | zero => exact fun _ a ha => absurd ha (Nat.not_lt_zero a)
  | succ i ih =>
    intro hi a ha
    rw [totalSize_step hlevels hsmall (by omega)] at ha
    rw [memoryAt, copyBytes]
    split
    · next hin =>
      congr 1
      omega
    · next hout => exact ih (by omega) a (by omega)

theorem exact_of_sizes (hread : header.Reads (fileHeader file))
    (hdone : Done file behind header fresh p)
    (h : ∀ level < (fileHeader file).levels,
      getMipLevelSize header level = (fileHeader file).levelBytes level)
    (hsmall : ∀ level < (fileHeader file).levels, getMipLevelSize header level < 2 ^ 31) :
    Exact file p := by
  obtain ⟨hlevels, -, hfew⟩ := levels_eq hread hdone
  obtain ⟨m, -, hmemory, himages, hall⟩ := hdone.copied
  have hmono := @totalSize_mono header (fileHeader file) hfew hsmall
  have hm : m = (fileHeader file).levels := by
    rw [← hlevels]
    exact hall fun j hj => hmono hj (by omega)
  subst hm
  have htotal := totalSize_le hfew hsmall _ le_rfl
  have hstart : addSize headerSize header.metaDataSize.toNat = (fileHeader file).dataStart := by
    rw [addSize_of_lt (by rw [headerSize]; omega), hread.dataStart]
  have hfits := hdone.fits
  have hsaid := hread.dataStart
  rw [headerSize] at hsaid
  rw [hstart, hlevels, addSize_of_lt (by omega)] at hfits
  have hslice : ∀ s ∈ p.images, ∃ i < (fileHeader file).levels,
      s = sliceAt header header.format i := by
    intro s hs
    rw [himages, List.mem_map] at hs
    obtain ⟨i, hi, rfl⟩ := hs
    exact ⟨i, List.mem_range.mp hi, rfl⟩
  have hend : ∀ i < (fileHeader file).levels,
      totalSize header i + getMipLevelSize header i ≤
        totalSize header (fileHeader file).levels := by
    intro i hi
    rw [← totalSize_step hfew hsmall hi]
    exact hmono hi le_rfl
  constructor
  · rw [himages, List.length_map, List.length_range]
  · intro i s hs
    rw [himages, List.getElem?_map, Option.map_eq_some_iff] at hs
    obtain ⟨j, hj, rfl⟩ := hs
    obtain ⟨hi, hji⟩ := List.getElem?_eq_some_iff.mp hj
    rw [List.getElem_range] at hji
    subst hji
    rw [List.length_range] at hi
    change getMipLevelSize header i = header.format.linear.block.sliceBytes _ _
    rw [format_eq hread, h i hi]
    rfl
  · intro s hs
    obtain ⟨i, hi, rfl⟩ := hslice s hs
    have := hend i hi
    change _ + totalSize header i + getMipLevelSize header i ≤ _
    omega
  · intro s hs
    obtain ⟨i, hi, rfl⟩ := hslice s hs
    rw [hdone.memorySize, hlevels]
    exact hend i hi
  · rw [himages, List.pairwise_map]
    refine List.pairwise_lt_range.imp_of_mem ?_
    intro i j hi hj hij
    rw [List.mem_range] at hi hj
    change totalSize header i + getMipLevelSize header i ≤ totalSize header j
    rw [← totalSize_step hfew hsmall hi]
    exact hmono hij (by omega)
  · intro s hs k hk
    obtain ⟨i, hi, rfl⟩ := hslice s hs
    have hin := hend i hi
    change k < getMipLevelSize header i at hk
    change file[_ + totalSize header i + k]? = some (p.memory (totalSize header i + k))
    rw [hmemory, hstart, memoryAt_eq hfew hsmall _ le_rfl _ (by omega), byteAt,
      ← Nat.add_assoc, dif_pos (by omega)]
    exact List.getElem?_eq_getElem (by omega)

theorem sizes_of_exact (hread : header.Reads (fileHeader file))
    (hdone : Done file behind header fresh p) (h : Exact file p) :
    ∀ level < (fileHeader file).levels,
      getMipLevelSize header level = (fileHeader file).levelBytes level := by
  intro level hlevel
  obtain ⟨m, -, -, himages, -⟩ := hdone.copied
  have hm := h.levels
  rw [himages, List.length_map, List.length_range] at hm
  have hat : p.images[level]? = some (sliceAt header header.format level) := by
    rw [himages, List.getElem?_map, List.getElem?_range (by omega)]
    rfl
  have hsize := h.size level _ hat
  change getMipLevelSize header level = header.format.linear.block.sliceBytes _ _ at hsize
  rw [hsize, format_eq hread]
  rfl

theorem small_of_measured (hread : header.Reads said) (hsupported : header.Supported)
    (h : ∀ level < said.levels, getMipLevelSize header level = said.levelBytes level) :
    ∀ level < said.levels, getMipLevelSize header level < 2 ^ 31 := by
  intro level hlevel
  have hformat : said.format ≠ .unknown := format_eq hread ▸ hsupported.format
  obtain ⟨x, hx, hbounds⟩ := getMipLevelSize_bounds header level
  have heq := h level hlevel
  rw [hx] at heq
  have hlt := levelBytes_lt hread hformat heq
  have hcases := @sizeOfInt_cases x 2147483648 (by split at hbounds <;> omega) le_rfl
  omega

end Bounds

/-- **A file is parsed as it should be** if and only if the sizes of its levels can be
computed in 32 bits. -/
theorem exact_iff {file : List Byte} {behind fresh : Nat → Byte} {room : Nat → Bool} {p : Parsed}
    (h : parseCompressed file behind fresh room = .ok p) :
    Exact file p ↔ (fileHeader file).Measured := by
  obtain ⟨hcan, hdone⟩ := parse_ok h
  have hread := @readHeader_reads file behind hcan
  obtain ⟨-, hpos, -⟩ := levels_eq hread hdone
  rw [← sizes_iff hread hdone.supported hpos]
  constructor
  · exact sizes_of_exact hread hdone
  · intro hsizes
    exact exact_of_sizes hread hdone hsizes
      (small_of_measured hread hdone.supported hsizes)

/-- A file of one level in DXT1, without metadata. -/
def oneLevel (width height data : List Byte) : List Byte :=
  [0x50, 0x56, 0x52, 3] ++ List.replicate 4 0 ++ [7, 0, 0, 0, 0, 0, 0, 0] ++ List.replicate 8 0 ++
    height ++ width ++ [1, 0, 0, 0] ++ [1, 0, 0, 0] ++ [1, 0, 0, 0] ++ [1, 0, 0, 0] ++
    List.replicate 4 0 ++ data

theorem exact_oneLevel :
    ∃ p, parseCompressed (oneLevel [4, 0, 0, 0] [4, 0, 0, 0] [1, 2, 3, 4, 5, 6, 7, 8]) (fun _ => 0)
        (fun _ => 0) (fun _ => true) = .ok p ∧
      Exact (oneLevel [4, 0, 0, 0] [4, 0, 0, 0] [1, 2, 3, 4, 5, 6, 7, 8]) p := by
  have hparse : ∃ p, parseCompressed (oneLevel [4, 0, 0, 0] [4, 0, 0, 0] [1, 2, 3, 4, 5, 6, 7, 8])
      (fun _ => 0) (fun _ => 0) (fun _ => true) = .ok p := ⟨_, rfl⟩
  obtain ⟨p, hp⟩ := hparse
  refine ⟨p, hp, (exact_iff hp).mpr ?_⟩
  unfold FileHeader.Measured
  decide +kernel

/-- The size of 12 by 178956972 pixels goes round to that of one block. -/
theorem not_always_exact :
    ¬ ∀ file behind fresh room p,
      parseCompressed file behind fresh room = .ok p → Exact file p := by
  intro hall
  have hexact := hall (oneLevel [12, 0, 0, 0] [0xAC, 0xAA, 0xAA, 0x0A] [1, 2, 3, 4, 5, 6, 7, 8])
    (fun _ => 0) (fun _ => 0) (fun _ => true) _ rfl
  have hsize := hexact.size 0 ⟨⟨.dxt1Unorm, false⟩, 12, 178956972, 0, 8⟩ rfl
  exact absurd hsize (by decide +kernel)

end Lhatove.Image.PVR
