import Lhatove.Image.SliceSizes
import Lhatove.Image.ImageData

/-!
# Where pixels are

`love::image::ImageData`, as far as sizes and addresses go: how many bytes the
constructors allocate, how many `getSize` says there are, and which of them
`setPixel` and `getPixel` take for a pixel.

- What is allocated is a product of `size_t`s, `getSize` and the addresses have
  products of `int`s. One that overflows leaves the behaviour undefined.
- `addressable_iff`: all of them agree if the number of pixels is an `int`.
-/

namespace Lhatove.Image

/-! ## Formats -/

/-- The formats of `love::PixelFormat` that are not compressed. -/
inductive PlainFormat
  | unknown
  | normal
  | hdr
  | r8Unorm
  | r8Int
  | r8Uint
  | r16Unorm
  | r16Float
  | r16Int
  | r16Uint
  | r32Float
  | r32Int
  | r32Uint
  | rg8Unorm
  | rg8Int
  | rg8Uint
  | la8Unorm
  | rg16Unorm
  | rg16Float
  | rg16Int
  | rg16Uint
  | rg32Float
  | rg32Int
  | rg32Uint
  | rgba8Unorm
  | rgba8Srgb
  | bgra8Unorm
  | bgra8Srgb
  | rgba8Int
  | rgba8Uint
  | rgba16Unorm
  | rgba16Float
  | rgba16Int
  | rgba16Uint
  | rgba32Float
  | rgba32Int
  | rgba32Uint
  | rgba4Unorm
  | rgb5a1Unorm
  | rgb565Unorm
  | rgb10a2Unorm
  | rgb10a2Uint
  | rg11b10Float
  | stencil8
  | depth16Unorm
  | depth24Unorm
  | depth32Float
  | depth24UnormStencil8
  | depth32FloatStencil8
  deriving DecidableEq

/-- The columns of `PixelFormatInfo` that are read here; blocks are pixels. -/
structure PlainFormat.Info where
  blockSize : Nat
  color : Bool

def PlainFormat.formatInfo : PlainFormat → PlainFormat.Info
  | .unknown => ⟨0, false⟩
  | .normal => ⟨0, true⟩
  | .hdr => ⟨0, true⟩
  | .r8Unorm => ⟨1, true⟩
  | .r8Int => ⟨1, true⟩
  | .r8Uint => ⟨1, true⟩
  | .r16Unorm => ⟨2, true⟩
  | .r16Float => ⟨2, true⟩
  | .r16Int => ⟨2, true⟩
  | .r16Uint => ⟨2, true⟩
  | .r32Float => ⟨4, true⟩
  | .r32Int => ⟨4, true⟩
  | .r32Uint => ⟨4, true⟩
  | .rg8Unorm => ⟨2, true⟩
  | .rg8Int => ⟨2, true⟩
  | .rg8Uint => ⟨2, true⟩
  | .la8Unorm => ⟨2, true⟩
  | .rg16Unorm => ⟨4, true⟩
  | .rg16Float => ⟨4, true⟩
  | .rg16Int => ⟨4, true⟩
  | .rg16Uint => ⟨4, true⟩
  | .rg32Float => ⟨8, true⟩
  | .rg32Int => ⟨8, true⟩
  | .rg32Uint => ⟨8, true⟩
  | .rgba8Unorm => ⟨4, true⟩
  | .rgba8Srgb => ⟨4, true⟩
  | .bgra8Unorm => ⟨4, true⟩
  | .bgra8Srgb => ⟨4, true⟩
  | .rgba8Int => ⟨4, true⟩
  | .rgba8Uint => ⟨4, true⟩
  | .rgba16Unorm => ⟨8, true⟩
  | .rgba16Float => ⟨8, true⟩
  | .rgba16Int => ⟨8, true⟩
  | .rgba16Uint => ⟨8, true⟩
  | .rgba32Float => ⟨16, true⟩
  | .rgba32Int => ⟨16, true⟩
  | .rgba32Uint => ⟨16, true⟩
  | .rgba4Unorm => ⟨2, true⟩
  | .rgb5a1Unorm => ⟨2, true⟩
  | .rgb565Unorm => ⟨2, true⟩
  | .rgb10a2Unorm => ⟨4, true⟩
  | .rgb10a2Uint => ⟨4, true⟩
  | .rg11b10Float => ⟨4, true⟩
  | .stencil8 => ⟨1, false⟩
  | .depth16Unorm => ⟨2, false⟩
  | .depth24Unorm => ⟨3, false⟩
  | .depth32Float => ⟨4, false⟩
  | .depth24UnormStencil8 => ⟨4, false⟩
  | .depth32FloatStencil8 => ⟨5, false⟩

/-- `love::PixelFormat` -/
inductive DataFormat
  | plain (format : PlainFormat)
  | compressed (format : CompressedFormat)
  deriving DecidableEq

namespace DataFormat

def blockWidth : DataFormat → Nat
  | .plain _ => 1
  | .compressed f => f.formatInfo.blockWidth

def blockHeight : DataFormat → Nat
  | .plain _ => 1
  | .compressed f => f.formatInfo.blockHeight

/-- `getPixelFormatBlockSize` -/
def blockSize : DataFormat → Nat
  | .plain f => f.formatInfo.blockSize
  | .compressed f => f.formatInfo.blockSize

/-- `isPixelFormatColor`; all compressed formats have colors. -/
def isColor : DataFormat → Bool
  | .plain f => f.formatInfo.color
  | .compressed _ => true

/-- `isPixelFormatCompressed` -/
def isCompressed : DataFormat → Bool
  | .plain _ => false
  | .compressed _ => true

/-- `getPixelFormatSliceSize` -/
def sliceSize (format : DataFormat) (width height : Nat) : Nat :=
  let blockW := (width + format.blockWidth - 1) / format.blockWidth
  let blockH := (height + format.blockHeight - 1) / format.blockHeight
  format.blockSize * blockW * blockH % 2 ^ 64

/-- `getLinearPixelFormat`, for formats of image data. -/
def linear : DataFormat → DataFormat
  | .plain .rgba8Srgb => .plain .rgba8Unorm
  | .plain .bgra8Srgb => .plain .bgra8Unorm
  | format => format

/-- `ImageData::validPixelFormat` -/
def valid (format : DataFormat) : Bool := format.isColor && !format.isCompressed

end DataFormat

/-! ## Image data -/

/-- `ImageData`; `allocated` is the number of bytes that `data` points to. -/
structure PixelStore where
  format : DataFormat
  width : Nat
  height : Nat
  allocated : Nat
  deriving DecidableEq

/-- `FormatHandler::DecodedImage`: `data` has `size` bytes. -/
structure DecodedImage where
  format : DataFormat
  width : Nat
  height : Nat
  size : Nat

def unsupportedFormat (name : String) : String :=
  "ImageData does not support the " ++ name ++ " pixel format."

def outOfPixelMemory : String := "Out of memory"

def couldNotConvert : String := "Could not convert image!"

namespace PixelStore

/-- `create`; `room` tells which sizes there is memory for. -/
def create (room : Nat → Bool) (width height : Nat) (format : DataFormat) :
    Except String PixelStore :=
  let datasize := format.sliceSize width height
  if room datasize then .ok ⟨format, width, height, datasize⟩ else .error outOfPixelMemory

/-- The constructors from dimensions and a format, up to what they put in the memory:
zeros, or what the caller has. `name` is `getPixelFormatName`. -/
def new (name : DataFormat → String) (room : Nat → Bool) (width height : Nat)
    (format : DataFormat) : Except String PixelStore :=
  if format.valid then create room width height format
  else .error (unsupportedFormat (name format))

/-- The copy constructor. -/
def copy (room : Nat → Bool) (c : PixelStore) : Except String PixelStore :=
  create room c.width c.height c.format

/-- `decode`, after a decoder made an image of the data. -/
def decode (decodedimage : DecodedImage) : Except String PixelStore :=
  if decodedimage.size = decodedimage.format.sliceSize decodedimage.width decodedimage.height then
    .ok ⟨decodedimage.format.linear, decodedimage.width, decodedimage.height, decodedimage.size⟩
  else .error couldNotConvert

def getSize (img : PixelStore) : Option Nat :=
  if img.width * img.height < 2 ^ 31 then
    some (img.width * img.height * img.format.blockSize % 2 ^ 64)
  else none

def inside (img : PixelStore) (x y : Int) : Prop :=
  0 ≤ x ∧ x < img.width ∧ 0 ≤ y ∧ y < img.height

/-- `(y * width + x) * pixelsize`, from where on `setPixel` and `getPixel` take the
bytes of a pixel that is inside. -/
def pixelOffset (img : PixelStore) (x y : Int) : Option Nat :=
  if y * img.width < 2 ^ 31 ∧ y * img.width + x < 2 ^ 31 then
    some ((y * img.width + x).toNat * img.format.blockSize % 2 ^ 64)
  else none

end PixelStore

/-- Image data that there can be. The formats that decoders have are valid ones. -/
inductive Constructed : PixelStore → Prop
  | new {name : DataFormat → String} {room : Nat → Bool} {width height : Nat} {format : DataFormat}
      {img : PixelStore} (hwidth : width < 2 ^ 31) (hheight : height < 2 ^ 31)
      (h : PixelStore.new name room width height format = .ok img) : Constructed img
  | copy {room : Nat → Bool} {c img : PixelStore} (hc : Constructed c)
      (h : c.copy room = .ok img) : Constructed img
  | decode {decodedimage : DecodedImage} {img : PixelStore} (hvalid : decodedimage.format.valid = true)
      (hwidth : decodedimage.width < 2 ^ 31) (hheight : decodedimage.height < 2 ^ 31)
      (h : PixelStore.decode decodedimage = .ok img) : Constructed img

/-- What all of them have. -/
structure Stored (img : PixelStore) : Prop where
  valid : img.format.valid = true
  width : img.width < 2 ^ 31
  height : img.height < 2 ^ 31
  allocated : img.allocated = img.format.sliceSize img.width img.height

theorem stored_create {room : Nat → Bool} {width height : Nat} {format : DataFormat}
    {img : PixelStore} (hvalid : format.valid = true) (hwidth : width < 2 ^ 31)
    (hheight : height < 2 ^ 31) (h : PixelStore.create room width height format = .ok img) :
    Stored img := by
  unfold PixelStore.create at h
  dsimp only at h
  split at h
  · cases h
    exact ⟨hvalid, hwidth, hheight, rfl⟩
  · cases h

theorem linear_valid {format : DataFormat} (h : format.valid = true) :
    format.linear.valid = true ∧ ∀ width height, format.linear.sliceSize width height =
      format.sliceSize width height := by
  cases format with
  | plain f => cases f <;> exact ⟨h, fun _ _ => rfl⟩
  | compressed f => cases h

theorem Constructed.stored {img : PixelStore} (h : Constructed img) : Stored img := by
  induction h with
  | new hwidth hheight h =>
    unfold PixelStore.new at h
    split at h
    · next hvalid => exact stored_create hvalid hwidth hheight h
    · cases h
  | copy hc h ih => exact stored_create ih.valid ih.width ih.height h
  | decode hvalid hwidth hheight h =>
    unfold PixelStore.decode at h
    split at h
    · next hsize =>
      cases h
      exact ⟨(linear_valid hvalid).1, hwidth, hheight, hsize.trans ((linear_valid hvalid).2 _ _).symm⟩
    · cases h

/-! ## Addresses -/

/-- **Sizes and addresses agree**: `getSize` is what was allocated, and the bytes of the
pixels that are inside are within it, apart from each other. -/
structure Addressable (img : PixelStore) : Prop where
  size : img.getSize = some img.allocated
  within : ∀ x y, img.inside x y →
    ∃ offset, img.pixelOffset x y = some offset ∧ offset + img.format.blockSize ≤ img.allocated
  apart : ∀ x y x' y', img.inside x y → img.inside x' y' → (x, y) ≠ (x', y') →
    ∀ offset offset', img.pixelOffset x y = some offset → img.pixelOffset x' y' = some offset' →
      offset + img.format.blockSize ≤ offset' ∨ offset' + img.format.blockSize ≤ offset

theorem blockSize_le {format : DataFormat} (h : format.valid = true) :
    format.blockWidth = 1 ∧ format.blockHeight = 1 ∧ format.blockSize ≤ 16 := by
  cases format with
  | plain f => cases f <;> exact ⟨rfl, rfl, by decide⟩
  | compressed f => cases h

theorem index_inj {width x y x' y' : Nat} (hx : x < width) (hx' : x' < width)
    (heq : y * width + x = y' * width + x') : x = x' ∧ y = y' := by
  have hmod := congrArg (· % width) heq
  have hdiv := congrArg (· / width) heq
  have hpos : 0 < width := by omega
  simp only [Nat.mul_comm _ width, Nat.mul_add_mod, Nat.mod_eq_of_lt hx, Nat.mod_eq_of_lt hx',
    Nat.mul_add_div hpos, Nat.div_eq_of_lt hx, Nat.div_eq_of_lt hx', Nat.add_zero] at hmod hdiv
  exact ⟨hmod, hdiv⟩

namespace Stored

variable {img : PixelStore} (h : Stored img)

include h

/-- What is allocated, if the number of pixels is an `int`. -/
theorem allocated_eq (hfits : img.width * img.height < 2 ^ 31) :
    img.allocated = img.width * img.height * img.format.blockSize ∧
      img.allocated < 2 ^ 64 := by
  obtain ⟨hwidth, hheight, hsize⟩ := blockSize_le h.valid
  have hprod : img.width * img.height * img.format.blockSize ≤ 2 ^ 31 * 16 :=
    Nat.mul_le_mul hfits.le hsize
  have hcomm : img.format.blockSize * img.width * img.height =
      img.width * img.height * img.format.blockSize := by ring
  rw [h.allocated, DataFormat.sliceSize, hwidth, hheight, Nat.add_sub_cancel,
    Nat.add_sub_cancel, Nat.div_one, Nat.div_one, hcomm, Nat.mod_eq_of_lt (by omega)]
  exact ⟨rfl, by omega⟩

theorem pixelOffset_eq (hfits : img.width * img.height < 2 ^ 31) {x y : Int}
    (hinside : img.inside x y) :
    img.pixelOffset x y = some ((y.toNat * img.width + x.toNat) * img.format.blockSize) ∧
      y.toNat * img.width + x.toNat < img.width * img.height := by
  obtain ⟨hx, hxw, hy, hyh⟩ := hinside
  obtain ⟨-, -, hsize⟩ := blockSize_le h.valid
  lift x to ℕ using hx
  lift y to ℕ using hy
  rw [Int.toNat_natCast, Int.toNat_natCast]
  have hrow : (y + 1) * img.width ≤ img.height * img.width :=
    Nat.mul_le_mul_right _ (by exact_mod_cast hyh)
  have hindex : y * img.width + x < img.width * img.height := by
    rw [Nat.add_mul, one_mul, Nat.mul_comm img.height] at hrow
    omega
  have hprod : (y * img.width + x) * img.format.blockSize ≤ 2 ^ 31 * 16 :=
    Nat.mul_le_mul (by omega) hsize
  refine ⟨?_, hindex⟩
  have hcast : (y : Int) * img.width + x = ((y * img.width + x : Nat) : Int) := by norm_cast
  rw [PixelStore.pixelOffset, hcast, Int.toNat_natCast, Nat.mod_eq_of_lt (by omega), if_pos]
  refine ⟨?_, by omega⟩
  have : (y : Int) * img.width = ((y * img.width : Nat) : Int) := by norm_cast
  omega

end Stored

/-- **Addressing**: sizes and addresses agree if and only if the number of pixels is an
`int`. -/
theorem addressable_iff {img : PixelStore} (h : Constructed img) :
    Addressable img ↔ img.width * img.height < 2 ^ 31 := by
  have hstored := h.stored
  constructor
  · intro haddressable
    by_contra hlarge
    have hsize := haddressable.size
    rw [PixelStore.getSize, if_neg hlarge] at hsize
    cases hsize
  · intro hfits
    obtain ⟨hallocated, hlt⟩ := hstored.allocated_eq hfits
    constructor
    · rw [PixelStore.getSize, if_pos hfits, hallocated, Nat.mod_eq_of_lt (hallocated ▸ hlt)]
    · intro x y hinside
      obtain ⟨hoffset, hindex⟩ := hstored.pixelOffset_eq hfits hinside
      refine ⟨_, hoffset, ?_⟩
      rw [hallocated, ← Nat.succ_mul]
      exact Nat.mul_le_mul_right _ hindex
    · intro x y x' y' hinside hinside' hne offset offset' hoffset hoffset'
      rw [(hstored.pixelOffset_eq hfits hinside).1] at hoffset
      rw [(hstored.pixelOffset_eq hfits hinside').1] at hoffset'
      cases hoffset
      cases hoffset'
      obtain ⟨hx, hxw, hy, hyh⟩ := hinside
      obtain ⟨hx', hxw', hy', hyh'⟩ := hinside'
      rw [← Nat.succ_mul, ← Nat.succ_mul]
      rcases Nat.lt_trichotomy (y.toNat * img.width + x.toNat) (y'.toNat * img.width + x'.toNat) with
        hlt | heq | hgt
      · exact .inl (Nat.mul_le_mul_right _ hlt)
      · obtain ⟨hxx, hyy⟩ := index_inj (by omega) (by omega) heq
        refine absurd ?_ hne
        rw [Prod.mk.injEq]
        omega
      · exact .inr (Nat.mul_le_mul_right _ hgt)

/-- A picture of three rows with two pixels each. -/
theorem addressable_small : Addressable ⟨.plain .rgba16Unorm, 2, 3, 48⟩ :=
  (addressable_iff (.new (by decide) (by decide)
    (show PixelStore.new (fun _ => "") (fun _ => true) 2 3 (.plain .rgba16Unorm) =
      .ok ⟨.plain .rgba16Unorm, 2, 3, 48⟩ from rfl))).mpr (by decide)

/-- A picture of 2³¹ pixels: 8 GiB, which `getSize` does not know. -/
theorem large_not_addressable :
    PixelStore.new (fun _ => "rgba8") (fun _ => true) 65536 32768 (.plain .rgba8Unorm) =
        .ok ⟨.plain .rgba8Unorm, 65536, 32768, 8589934592⟩ ∧
      ¬ Addressable ⟨.plain .rgba8Unorm, 65536, 32768, 8589934592⟩ := by
  refine ⟨by decide +kernel, fun h => ?_⟩
  have hsize := h.size
  cases hsize

end Lhatove.Image
