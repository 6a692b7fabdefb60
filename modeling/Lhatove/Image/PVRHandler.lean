import Lhatove.Image.KTXHandler

/-!
# PVR files

`PVRHandler::parseCompressed`: a header of version 2 or 3, and two passes over the
mip levels. The first adds up their sizes, the second copies them.

The file and the memory are bytes at addresses from 0, as for KTX files. Arithmetic
of `int` goes round, a shift is by the last five bits of its distance, and a number
that is made an enumeration is cut to 32 bits, as on the machines that the engine is
built for.
-/

namespace Lhatove.Image.PVR

open KTX (byteAt wordAt swapuint32 addSize copyBytes)

/-! ## Numbers -/

/-- An `int`. -/
def int32 (x : Int) : Int := (x + 2147483648) % 4294967296 - 2147483648

/-- An `int` made a `size_t`. -/
def sizeOfInt (x : Int) : Nat := (x % 18446744073709551616).toNat

/-- `*(uint64 *) (filebytes + offset)`. -/
def longAt (file : List Byte) (behind : Nat → Byte) (offset : Nat) : BitVec 64 :=
  loadLE 64 ((List.range 8).map fun k => byteAt file behind (offset + k))

def swapuint64 (x : BitVec 64) : BitVec 64 :=
  ((x <<< 56) &&& 0xFF00000000000000) ||| ((x <<< 40) &&& 0x00FF000000000000) |||
    ((x <<< 24) &&& 0x0000FF0000000000) ||| ((x <<< 8) &&& 0x000000FF00000000) |||
    ((x >>> 8) &&& 0x00000000FF000000) ||| ((x >>> 24) &&& 0x0000000000FF0000) |||
    ((x >>> 40) &&& 0x000000000000FF00) ||| ((x >>> 56) &&& 0x00000000000000FF)

/-! ## The header -/

/-- The fields of `PVRTexHeaderV3` that are looked at. -/
structure Header where
  pixelFormat : BitVec 64
  colorSpace : BitVec 32
  channelType : BitVec 32
  height : BitVec 32
  width : BitVec 32
  depth : BitVec 32
  numMipmaps : BitVec 32
  metaDataSize : BitVec 32

/-- `PVRTEX3_IDENT` -/
def ident3 : BitVec 32 := 0x03525650

/-- `PVRTEX3_IDENT_REV` -/
def ident3Rev : BitVec 32 := 0x50565203

/-- `PVRTEX2_IDENT` -/
def ident2 : BitVec 32 := 0x21525650

/-- `PVRTEX2_IDENT_REV` -/
def ident2Rev : BitVec 32 := 0x50565221

/-- The size of both headers. -/
def headerSize : Nat := 52

/-- `PVRPixelTypeV2`, as `PVRV3PixelFormat`. -/
def pixelFormatV2 (pixelType : Nat) : BitVec 64 :=
  match pixelType with
  | 0x18 => 1
  | 0x19 => 3
  | 0x1C => 4
  | 0x1D => 5
  | 0x20 => 7
  | 0x22 => 9
  | 0x24 => 11
  | 0x36 => 6
  | _ => 0x7F

section Read

variable (file : List Byte) (behind : Nat → Byte)

def canParseCompressed : Bool :=
  if file.length < headerSize then false
  else if wordAt file behind 0 = ident3 || wordAt file behind 0 = ident3Rev then true
  else wordAt file behind 44 = ident2 || wordAt file behind 44 = ident2Rev

/-- A word of a header of version 2, whose bytes may be the other way round. -/
def wordV2 (offset : Nat) : BitVec 32 :=
  if wordAt file behind 44 = ident2Rev then swapuint32 (wordAt file behind offset)
  else wordAt file behind offset

/-- `ConvertPVRHeader` -/
def convertHeader : Header where
  pixelFormat := pixelFormatV2 (wordV2 file behind 16 &&& 0xFF).toNat
  colorSpace := 0
  channelType := 0
  height := wordV2 file behind 4
  width := wordV2 file behind 8
  depth := 1
  numMipmaps := wordV2 file behind 12
  metaDataSize := 0

/-- A word of a header of version 3. -/
def wordV3 (offset : Nat) : BitVec 32 :=
  if wordAt file behind 0 = ident3Rev then swapuint32 (wordAt file behind offset)
  else wordAt file behind offset

/-- The pixel format of a header of version 3. -/
def pixelFormatV3 : BitVec 64 :=
  if wordAt file behind 0 = ident3Rev then swapuint64 (longAt file behind 8)
  else longAt file behind 8

/-- The header, of version 3 or made so, in the byte order of the machine. -/
def readHeader : Header :=
  if wordAt file behind 0 ≠ ident3 ∧ wordAt file behind 0 ≠ ident3Rev then
    convertHeader file behind
  else
    { pixelFormat := pixelFormatV3 file behind
      colorSpace := wordV3 file behind 16
      channelType := wordV3 file behind 20
      height := wordV3 file behind 24
      width := wordV3 file behind 28
      depth := wordV3 file behind 32
      numMipmaps := wordV3 file behind 44
      metaDataSize := wordV3 file behind 48 }

end Read

/-! ## Formats -/

/-- A format of slices: one with linear colors, or its sRGB variant. -/
structure Format where
  linear : PixelFormat
  sRGB : Bool
  deriving DecidableEq

/-- `convertFormat`, of a `PVRV3PixelFormat` and a `PVRV3ChannelType`. -/
def convertFormat (format : Nat) (channeltype : Nat) : PixelFormat :=
  let snorm := channeltype = 1 ∨ channeltype = 5 ∨ channeltype = 9
  match format with
  | 0 => .pvr1Rgb2Unorm
  | 1 => .pvr1Rgba2Unorm
  | 2 => .pvr1Rgb4Unorm
  | 3 => .pvr1Rgba4Unorm
  | 6 => .etc1Unorm
  | 7 => .dxt1Unorm
  | 9 => .dxt3Unorm
  | 11 => .dxt5Unorm
  | 12 => if snorm then .bc4Snorm else .bc4Unorm
  | 13 => if snorm then .bc5Snorm else .bc5Unorm
  | 14 => if snorm then .bc6hFloat else .bc6hUfloat
  | 15 => .bc7Unorm
  | 22 => .etc2RgbUnorm
  | 23 => .etc2RgbaUnorm
  | 24 => .etc2Rgba1Unorm
  | 25 => if snorm then .eacRSnorm else .eacRUnorm
  | 26 => if snorm then .eacRgSnorm else .eacRgUnorm
  | 27 => .astc4x4Unorm
  | 28 => .astc5x4Unorm
  | 29 => .astc5x5Unorm
  | 30 => .astc6x5Unorm
  | 31 => .astc6x6Unorm
  | 32 => .astc8x5Unorm
  | 33 => .astc8x6Unorm
  | 34 => .astc8x8Unorm
  | 35 => .astc10x5Unorm
  | 36 => .astc10x6Unorm
  | 37 => .astc10x8Unorm
  | 38 => .astc10x10Unorm
  | 39 => .astc12x10Unorm
  | 40 => .astc12x12Unorm
  | _ => .unknown

/-- `getSRGBPixelFormat`, of what `convertFormat` gives. The variant of ETC1 is that of
ETC2. -/
def getSRGBPixelFormat : PixelFormat → Format
  | .etc1Unorm => ⟨.etc2RgbUnorm, true⟩
  | .bc4Snorm => ⟨.bc4Snorm, false⟩
  | .bc4Unorm => ⟨.bc4Unorm, false⟩
  | .bc5Snorm => ⟨.bc5Snorm, false⟩
  | .bc5Unorm => ⟨.bc5Unorm, false⟩
  | .bc6hFloat => ⟨.bc6hFloat, false⟩
  | .bc6hUfloat => ⟨.bc6hUfloat, false⟩
  | .eacRSnorm => ⟨.eacRSnorm, false⟩
  | .eacRUnorm => ⟨.eacRUnorm, false⟩
  | .eacRgSnorm => ⟨.eacRgSnorm, false⟩
  | .eacRgUnorm => ⟨.eacRgUnorm, false⟩
  | .unknown => ⟨.unknown, false⟩
  | format => ⟨format, true⟩

/-- `getBitsPerPixel`. Formats that are not compressed have them in the high bytes. -/
def getBitsPerPixel (pixelformat : BitVec 64) : Nat :=
  if 0xFFFFFFFF < pixelformat.toNat then
    pixelformat.toNat / 2 ^ 32 % 256 + pixelformat.toNat / 2 ^ 40 % 256 +
      pixelformat.toNat / 2 ^ 48 % 256 + pixelformat.toNat / 2 ^ 56
  else
    match pixelformat.toNat with
    | 0 | 1 | 4 => 2
    | 2 | 3 | 5 | 6 | 7 | 12 | 22 | 24 | 25 => 4
    | 8 | 9 | 10 | 11 | 13 | 14 | 15 | 23 | 26 => 8
    | _ => 0

/-- `getFormatMinDimensions`, but for the depth, which is 1. -/
def getFormatMinDimensions (pixelformat : Nat) : Nat × Nat :=
  match pixelformat with
  | 0 | 1 => (16, 8)
  | 2 | 3 => (8, 8)
  | 4 => (8, 4)
  | 5 => (4, 4)
  | 7 | 8 | 9 | 10 | 11 | 12 | 13 | 14 | 15 | 6 | 22 | 23 | 24 | 25 | 26 => (4, 4)
  | 27 => (4, 4)
  | 28 => (5, 4)
  | 29 => (5, 5)
  | 30 => (6, 5)
  | 31 => (6, 6)
  | 32 => (8, 5)
  | 33 => (8, 6)
  | 34 => (8, 8)
  | 35 => (10, 5)
  | 36 => (10, 6)
  | 37 => (10, 8)
  | 38 => (10, 10)
  | 39 => (12, 10)
  | 40 => (12, 12)
  | _ => (1, 1)

/-! ## Sizes -/

/-- `std::max((int) x >> miplevel, 1)` -/
def mipDimension (x : BitVec 32) (miplevel : Nat) : Int :=
  max (x.sshiftRight (miplevel % 32)).toInt 1

/-- `((x + smallest - 1) / smallest) * smallest` -/
def padDimension (x smallest : Int) : Int :=
  int32 ((int32 (int32 (x + smallest) - 1)).tdiv smallest * smallest)

def isASTC (pixelformat : BitVec 64) : Bool :=
  27 ≤ pixelformat.toNat ∧ pixelformat.toNat ≤ 40

def getMipLevelSize (header : Header) (miplevel : Nat) : Nat :=
  let smallest := getFormatMinDimensions header.pixelFormat.toNat
  let width := padDimension (mipDimension header.width miplevel) smallest.1
  let height := padDimension (mipDimension header.height miplevel) smallest.2
  let depth := padDimension (mipDimension header.depth miplevel) 1
  if isASTC header.pixelFormat then
    sizeOfInt (int32 (int32 (int32 (width.tdiv smallest.1 * height.tdiv smallest.2) *
      depth.tdiv 1) * 16))
  else
    sizeOfInt ((int32 (int32 (int32 (getBitsPerPixel header.pixelFormat * width) * height) *
      depth)).tdiv 8)

/-! ## The two passes -/

/-- A `CompressedSlice`: `size` bytes of the memory from `offset` on. -/
structure Slice where
  format : Format
  width : Int
  height : Int
  offset : Nat
  size : Nat

/-- What `parseCompressed` answers: the slices, the format, and the memory, of which
`memorySize` bytes were asked for. -/
structure Parsed where
  memorySize : Nat
  memory : Nat → Byte
  images : List Slice
  format : Format

/-- How often `for (int i = 0; i < (int) header3.numMipmaps; i++)` turns. -/
def Header.levels (header : Header) : Nat := header.numMipmaps.toInt.toNat

/-- The first pass. -/
def totalSize (header : Header) (levels : Nat) : Nat :=
  (List.range levels).foldl (fun totalsize i => addSize totalsize (getMipLevelSize header i)) 0

/-- What the second pass has got to. -/
structure Copying where
  curoffset : Nat
  memory : Nat → Byte
  images : List Slice

section Parse

variable (file : List Byte) (behind : Nat → Byte)

/-- The second pass, from level `i` on, with `n` levels to go. -/
def copyLevels (header : Header) (cformat : Format) (fileoffset totalsize : Nat) :
    (n i : Nat) → Copying → Copying
  | 0, _, c => c
  | n + 1, i, c =>
    let mipsize := getMipLevelSize header i
    if totalsize < addSize c.curoffset mipsize then c
    else
      copyLevels header cformat fileoffset totalsize n (i + 1)
        { curoffset := addSize c.curoffset mipsize
          memory := copyBytes file behind c.memory c.curoffset (fileoffset + c.curoffset) mipsize
          images := c.images ++ [⟨cformat, mipDimension header.width i,
            mipDimension header.height i, c.curoffset, mipsize⟩] }

/-- The format of the slices. -/
def Header.format (header : Header) : Format :=
  let cformat := convertFormat (header.pixelFormat.toNat % 2 ^ 32) header.channelType.toNat
  if header.colorSpace = 1 then getSRGBPixelFormat cformat else ⟨cformat, false⟩

/-- `PVRHandler::parseCompressed`. `fresh` is what new memory holds, `room` whether
there is so much. -/
def parseCompressed (fresh : Nat → Byte) (room : Nat → Bool) : Except String Parsed :=
  if !canParseCompressed file behind then
    .error "Could not decode compressed data (not a PVR file?)"
  else
    let header := readHeader file behind
    if header.depth > 1 then
      .error "Image depths greater than 1 in PVR files are unsupported."
    else if header.format.linear = .unknown then
      .error "Could not parse PVR file: unsupported image format."
    else
      let totalsize := totalSize header header.levels
      let fileoffset := addSize headerSize header.metaDataSize.toNat
      if file.length < addSize fileoffset totalsize then
        .error "Could not parse PVR file: invalid size calculation."
      else if totalsize = 0 then .error "ByteData size must be greater than 0."
      else if !room totalsize then .error "Out of memory."
      else
        let c := copyLevels file behind header header.format fileoffset totalsize header.levels 0
          ⟨0, fresh, []⟩
        .ok ⟨totalsize, c.memory, c.images, header.format⟩

end Parse

end Lhatove.Image.PVR
