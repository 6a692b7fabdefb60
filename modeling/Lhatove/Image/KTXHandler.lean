import Lhatove.Lib.Bits

/-!
# KTX files

`KTXHandler::parseCompressed`: two passes over the mip levels of a file. The
first adds up how much memory they need, the second copies them into it.

The file and the memory are bytes at addresses from 0. What lies behind the
file is what the surroundings happen to hold, and every read is written down.
The machine is little-endian and has 64 bit addresses.
-/

namespace Lhatove.Image

/-- The formats of `PixelFormat` that a KTX file can have. -/
inductive PixelFormat
  | unknown
  | etc1Unorm
  | eacRUnorm
  | eacRSnorm
  | eacRgUnorm
  | eacRgSnorm
  | etc2RgbUnorm
  | etc2RgbSrgb
  | etc2Rgba1Unorm
  | etc2Rgba1Srgb
  | etc2RgbaUnorm
  | etc2RgbaSrgb
  | pvr1Rgb4Unorm
  | pvr1Rgb2Unorm
  | pvr1Rgba4Unorm
  | pvr1Rgba2Unorm
  | dxt1Srgb
  | dxt1Unorm
  | dxt3Srgb
  | dxt3Unorm
  | dxt5Srgb
  | dxt5Unorm
  | bc4Unorm
  | bc4Snorm
  | bc5Unorm
  | bc5Snorm
  | bc7Srgb
  | bc7Unorm
  | bc6hFloat
  | bc6hUfloat
  | astc4x4Srgb
  | astc4x4Unorm
  | astc5x4Srgb
  | astc5x4Unorm
  | astc5x5Srgb
  | astc5x5Unorm
  | astc6x5Srgb
  | astc6x5Unorm
  | astc6x6Srgb
  | astc6x6Unorm
  | astc8x5Srgb
  | astc8x5Unorm
  | astc8x6Srgb
  | astc8x6Unorm
  | astc8x8Srgb
  | astc8x8Unorm
  | astc10x5Srgb
  | astc10x5Unorm
  | astc10x6Srgb
  | astc10x6Unorm
  | astc10x8Srgb
  | astc10x8Unorm
  | astc10x10Srgb
  | astc10x10Unorm
  | astc12x10Srgb
  | astc12x10Unorm
  | astc12x12Srgb
  | astc12x12Unorm
  deriving DecidableEq

namespace KTX

/-- `KTXGLInternalFormat`, with the format of each. -/
def formats : List (Nat × PixelFormat) :=
  [ (0x8D64, .etc1Unorm), (0x9270, .eacRUnorm), (0x9271, .eacRSnorm),
    (0x9272, .eacRgUnorm), (0x9273, .eacRgSnorm), (0x9274, .etc2RgbUnorm),
    (0x9275, .etc2RgbSrgb), (0x9276, .etc2Rgba1Unorm), (0x9277, .etc2Rgba1Srgb),
    (0x9278, .etc2RgbaUnorm), (0x9279, .etc2RgbaSrgb), (0x8C00, .pvr1Rgb4Unorm),
    (0x8C01, .pvr1Rgb2Unorm), (0x8C02, .pvr1Rgba4Unorm), (0x8C03, .pvr1Rgba2Unorm),
    (0x8C4C, .dxt1Srgb), (0x83F0, .dxt1Unorm), (0x8C4E, .dxt3Srgb),
    (0x83F2, .dxt3Unorm), (0x8C4F, .dxt5Srgb), (0x83F3, .dxt5Unorm),
    (0x8DBB, .bc4Unorm), (0x8DBC, .bc4Snorm), (0x8DBD, .bc5Unorm),
    (0x8DBE, .bc5Snorm), (0x8E8D, .bc7Srgb), (0x8E8C, .bc7Unorm),
    (0x8E8E, .bc6hFloat), (0x8E8F, .bc6hUfloat), (0x93D0, .astc4x4Srgb),
    (0x93B0, .astc4x4Unorm), (0x93D1, .astc5x4Srgb), (0x93B1, .astc5x4Unorm),
    (0x93D2, .astc5x5Srgb), (0x93B2, .astc5x5Unorm), (0x93D3, .astc6x5Srgb),
    (0x93B3, .astc6x5Unorm), (0x93D4, .astc6x6Srgb), (0x93B4, .astc6x6Unorm),
    (0x93D5, .astc8x5Srgb), (0x93B5, .astc8x5Unorm), (0x93D6, .astc8x6Srgb),
    (0x93B6, .astc8x6Unorm), (0x93D7, .astc8x8Srgb), (0x93B7, .astc8x8Unorm),
    (0x93D8, .astc10x5Srgb), (0x93B8, .astc10x5Unorm), (0x93D9, .astc10x6Srgb),
    (0x93B9, .astc10x6Unorm), (0x93DA, .astc10x8Srgb), (0x93BA, .astc10x8Unorm),
    (0x93DB, .astc10x10Srgb), (0x93BB, .astc10x10Unorm), (0x93DC, .astc12x10Srgb),
    (0x93BC, .astc12x10Unorm), (0x93DD, .astc12x12Srgb), (0x93BD, .astc12x12Unorm) ]

def convertFormat (glformat : BitVec 32) : PixelFormat :=
  ((formats.find? fun entry => entry.1 = glformat.toNat).map Prod.snd).getD .unknown

/-! ## Memory -/

/-- `size` bytes read from `offset` on. -/
structure Read where
  offset : Nat
  size : Nat
  deriving DecidableEq

/-- The byte of the file at an address, or what lies behind it. -/
def byteAt (file : List Byte) (behind : Nat → Byte) (address : Nat) : Byte :=
  if h : address < file.length then file[address] else behind address

/-- `*(uint32 *) (filebytes + offset)`. -/
def wordAt (file : List Byte) (behind : Nat → Byte) (offset : Nat) : BitVec 32 :=
  loadLE 32 ((List.range 4).map fun k => byteAt file behind (offset + k))

def swapuint32 (x : BitVec 32) : BitVec 32 :=
  ((x &&& 0x000000FF) <<< 24) ||| ((x &&& 0x0000FF00) <<< 8) |||
    ((x &&& 0x00FF0000) >>> 8) ||| ((x &&& 0xFF000000) >>> 24)

/-- `std::max`. -/
def stdMax (a b : BitVec 32) : BitVec 32 := if a < b then b else a

/-- Addition of `size_t`. -/
def addSize (a b : Nat) : Nat := (a + b) % 2 ^ 64

/-- `memcpy` of `size` bytes of the file. -/
def copyBytes (file : List Byte) (behind : Nat → Byte) (memory : Nat → Byte)
    (destination source size : Nat) : Nat → Byte := fun address =>
  if destination ≤ address ∧ address < destination + size then
    byteAt file behind (source + (address - destination))
  else memory address

/-! ## The header -/

/-- The fields of `KTXHeader` that are looked at. -/
structure Header where
  endianness : BitVec 32
  glInternalFormat : BitVec 32
  pixelWidth : BitVec 32
  pixelHeight : BitVec 32
  pixelDepth : BitVec 32
  numberOfArrayElements : BitVec 32
  numberOfFaces : BitVec 32
  numberOfMipmapLevels : BitVec 32
  bytesOfKeyValueData : BitVec 32

def identifierRef : List Byte :=
  [0xAB, 0x4B, 0x54, 0x58, 0x20, 0x31, 0x31, 0xBB, 0x0D, 0x0A, 0x1A, 0x0A]

def endianRef : BitVec 32 := 0x04030201

def endianRefRev : BitVec 32 := 0x01020304

def headerSize : Nat := 64

section Parse

variable (file : List Byte) (behind : Nat → Byte)

def canParseCompressed : Bool :=
  if file.length < headerSize then false
  else if file.take 12 ≠ identifierRef then false
  else if wordAt file behind 12 ≠ endianRef && wordAt file behind 12 ≠ endianRefRev then false
  else true

/-- A field of the file, in the machine's byte order. -/
def fieldAt (endianness : BitVec 32) (offset : Nat) : BitVec 32 :=
  if endianness = endianRefRev then swapuint32 (wordAt file behind offset)
  else wordAt file behind offset

/-- The header, its fields swapped when the file needs it. -/
def readHeader : Header :=
  let endianness := wordAt file behind 12
  let field := fieldAt file behind endianness
  { endianness
    glInternalFormat := field 28
    pixelWidth := field 36
    pixelHeight := field 40
    pixelDepth := field 44
    numberOfArrayElements := field 48
    numberOfFaces := field 52
    numberOfMipmapLevels := stdMax (field 56) 1
    bytesOfKeyValueData := field 60 }

/-- How often `for (int i = 0; i < (int) header.numberOfMipmapLevels; i++)` turns. -/
def Header.levels (header : Header) : Nat := header.numberOfMipmapLevels.toInt.toNat

/-- `(mipsize + 3) & ~uint32(3)`. -/
def padSize (mipsize : BitVec 32) : BitVec 32 := (mipsize + 3) &&& ~~~3

/-! ## The two passes -/

/-- A `CompressedSlice`: `size` bytes of the memory from `offset` on. -/
structure Slice where
  format : PixelFormat
  width : Int
  height : Int
  offset : Nat
  size : Nat

/-- What `parseCompressed` answers: the slices, the format, and the memory, of
which `memorySize` bytes were asked for. `reads` are those of the file. -/
structure Parsed where
  memorySize : Nat
  memory : Nat → Byte
  images : List Slice
  format : PixelFormat
  reads : List Read

/-- The first pass, `n` levels before its end: the total, and the reads. -/
def sizeLevels (endianness : BitVec 32) : Nat → (fileoffset totalsize : Nat) → List Read →
    Except String (Nat × List Read)
  | 0, _, totalsize, reads => .ok (totalsize, reads)
  | n + 1, fileoffset, totalsize, reads =>
    if addSize fileoffset 4 > file.length then .error "Could not parse KTX file: unexpected EOF."
    else
      let mipsizepadded := padSize (fieldAt file behind endianness fileoffset)
      sizeLevels endianness n (addSize (addSize fileoffset 4) mipsizepadded.toNat)
        (addSize totalsize mipsizepadded.toNat) (reads ++ [⟨fileoffset, 4⟩])

/-- What the second pass has got to at level `i`. -/
structure Copying where
  fileoffset : Nat
  dataoffset : Nat
  memory : Nat → Byte
  images : List Slice
  reads : List Read

/-- The second pass at level `i`. A shift by 32 or more is one by its last five
bits on the machines that the engine is built for; it only makes the size that
the slice is said to have. -/
def copyLevel (header : Header) (cformat : PixelFormat) (i : Nat) (c : Copying) : Copying :=
  let mipsize := fieldAt file behind header.endianness c.fileoffset
  let fileoffset := addSize c.fileoffset 4
  let mipsizepadded := padSize mipsize
  let width := stdMax (header.pixelWidth >>> (i % 32)) 1
  let height := stdMax (header.pixelHeight >>> (i % 32)) 1
  { fileoffset := addSize fileoffset mipsizepadded.toNat
    dataoffset := addSize c.dataoffset mipsizepadded.toNat
    memory := copyBytes file behind c.memory c.dataoffset fileoffset mipsize.toNat
    images := c.images ++ [⟨cformat, width.toInt, height.toInt, c.dataoffset, mipsize.toNat⟩]
    reads := c.reads ++ [⟨c.fileoffset, 4⟩, ⟨fileoffset, mipsize.toNat⟩] }

/-- `KTXHandler::parseCompressed`. `fresh` is what new memory holds, `room`
whether there is so much. -/
def parseCompressed (fresh : Nat → Byte) (room : Nat → Bool) : Except String Parsed :=
  if !canParseCompressed file behind then
    .error "Could not decode compressed data (not a KTX file?)"
  else
    let header := readHeader file behind
    let cformat := convertFormat header.glInternalFormat
    if cformat = .unknown then .error "Unsupported image format in KTX file."
    else if header.numberOfArrayElements > 0 then
      .error "Texture arrays in KTX files are not supported."
    else if header.pixelDepth > 1 then .error "3D textures in KTX files are not supported."
    else if header.numberOfFaces > 1 then .error "Cubemap textures in KTX files are not supported."
    else
      let fileoffset := addSize headerSize header.bytesOfKeyValueData.toNat
      match sizeLevels file behind header.endianness header.levels fileoffset 0
        [⟨0, 12⟩, ⟨12, 4⟩, ⟨0, headerSize⟩] with
      | .error message => .error message
      | .ok (totalsize, reads) =>
        if totalsize = 0 then .error "ByteData size must be greater than 0."
        else if !room totalsize then .error "Out of memory."
        else
          let c := (List.range header.levels).foldl
            (fun c i => copyLevel file behind header cformat i c)
            ⟨fileoffset, 0, fresh, [], reads⟩
          .ok ⟨totalsize, c.memory, c.images, cformat, c.reads⟩

end Parse

end KTX

end Lhatove.Image
