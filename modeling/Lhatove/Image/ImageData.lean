import Lhatove.Lib.Bits
import Lhatove.Lib.Quantize

/-!
# Pixels of image data

`love::image::ImageData::setPixel` and `getPixel`, for the formats whose channels
are stored as levels between 0 and 1.

- Colors are rational numbers. A cast to an unsigned integer cuts off what is
  behind the point.
- A pixel is the bytes that its format takes, with the low-order byte of a number
  first.
- Formats with floating-point channels are left out, and those which `setPixel`
  has no function for.
-/

namespace Lhatove.Image

structure Colorf where
  r : ℚ
  g : ℚ
  b : ℚ
  a : ℚ
  deriving DecidableEq

/-- The pixel formats of unsigned normalized numbers that have a function to set
and one to get a pixel. -/
inductive UnormFormat
  | r8
  | rg8
  | rgba8
  | r16
  | rg16
  | rgba16
  | rgba4
  | rgb5a1
  | rgb565
  | rgb10a2
  deriving DecidableEq

/-- `getPixelFormatBlockSize` -/
def UnormFormat.pixelSize : UnormFormat → Nat
  | .r8 => 1
  | .rg8 => 2
  | .rgba8 => 4
  | .r16 => 2
  | .rg16 => 4
  | .rgba16 => 8
  | .rgba4 => 2
  | .rgb5a1 => 2
  | .rgb565 => 2
  | .rgb10a2 => 4

/-! ## The members of `Pixel` -/

/-- `p->rgba8[i]` -/
def rgba8 (p : List Byte) (i : Nat) : Nat := (p.getD i 0).toNat

/-- `p->rgba16[i]` -/
def rgba16 (p : List Byte) (i : Nat) : Nat := (loadLE 16 ((p.drop (2 * i)).take 2)).toNat

/-- `p->packed16` -/
def packed16 (p : List Byte) : Nat := (loadLE 16 (p.take 2)).toNat

/-- `p->packed32` -/
def packed32 (p : List Byte) : Nat := (loadLE 32 (p.take 4)).toNat

/-- The members of `rgba8`, from the first on, set to numbers between 0 and 1. -/
def putRgba8 (values : List ℚ) : List Byte := values.map fun x => BitVec.ofNat 8 (quantize 255 x)

/-- The members of `rgba16`, from the first on. -/
def putRgba16 (values : List ℚ) : List Byte :=
  values.flatMap fun x => storeLE 2 (BitVec.ofNat 16 (quantize 65535 x))

def putPacked16 (word : Nat) : List Byte := storeLE 2 (BitVec.ofNat 16 word)

def putPacked32 (word : Nat) : List Byte := storeLE 4 (BitVec.ofNat 32 word)

/-! ## Setting -/

def setPixelR8 (c : Colorf) : List Byte := putRgba8 [c.r]

def setPixelRG8 (c : Colorf) : List Byte := putRgba8 [c.r, c.g]

def setPixelRGBA8 (c : Colorf) : List Byte := putRgba8 [c.r, c.g, c.b, c.a]

def setPixelR16 (c : Colorf) : List Byte := putRgba16 [c.r]

def setPixelRG16 (c : Colorf) : List Byte := putRgba16 [c.r, c.g]

/-- Blue goes to the second place, and green to the third. -/
def setPixelRGBA16 (c : Colorf) : List Byte := putRgba16 [c.r, c.b, c.g, c.a]

def setPixelRGBA4 (c : Colorf) : List Byte :=
  let r := quantize 0xF c.r
  let g := quantize 0xF c.g
  let b := quantize 0xF c.b
  let a := quantize 0xF c.a
  putPacked16 (r <<< 12 ||| g <<< 8 ||| b <<< 4 ||| a <<< 0)

def setPixelRGB5A1 (c : Colorf) : List Byte :=
  let r := quantize 0x1F c.r
  let g := quantize 0x1F c.g
  let b := quantize 0x1F c.b
  let a := quantize 0x1 c.a
  putPacked16 (r <<< 11 ||| g <<< 6 ||| b <<< 1 ||| a <<< 0)

def setPixelRGB565 (c : Colorf) : List Byte :=
  let r := quantize 0x1F c.r
  let g := quantize 0x3F c.g
  let b := quantize 0x1F c.b
  putPacked16 (r <<< 11 ||| g <<< 5 ||| b <<< 0)

def setPixelRGB10A2 (c : Colorf) : List Byte :=
  let r := quantize 0x3FF c.r
  let g := quantize 0x3FF c.g
  let b := quantize 0x3FF c.b
  let a := quantize 0x3 c.a
  putPacked32 (r <<< 0 ||| g <<< 10 ||| b <<< 20 ||| a <<< 30)

/-! ## Getting -/

def getPixelR8 (p : List Byte) : Colorf := ⟨rgba8 p 0 / 255, 0, 0, 1⟩

def getPixelRG8 (p : List Byte) : Colorf := ⟨rgba8 p 0 / 255, rgba8 p 1 / 255, 0, 1⟩

def getPixelRGBA8 (p : List Byte) : Colorf :=
  ⟨rgba8 p 0 / 255, rgba8 p 1 / 255, rgba8 p 2 / 255, rgba8 p 3 / 255⟩

def getPixelR16 (p : List Byte) : Colorf := ⟨rgba16 p 0 / 65535, 0, 0, 1⟩

def getPixelRG16 (p : List Byte) : Colorf := ⟨rgba16 p 0 / 65535, rgba16 p 1 / 65535, 0, 1⟩

def getPixelRGBA16 (p : List Byte) : Colorf :=
  ⟨rgba16 p 0 / 65535, rgba16 p 1 / 65535, rgba16 p 2 / 65535, rgba16 p 3 / 65535⟩

/-- The bits of a word behind `shift` others, as a number between 0 and 1. -/
def getBits (word shift mask : Nat) : ℚ := ((word >>> shift &&& mask : Nat) : ℚ) / mask

def getPixelRGBA4 (p : List Byte) : Colorf :=
  ⟨getBits (packed16 p) 12 0xF, getBits (packed16 p) 8 0xF, getBits (packed16 p) 4 0xF,
    getBits (packed16 p) 0 0xF⟩

def getPixelRGB5A1 (p : List Byte) : Colorf :=
  ⟨getBits (packed16 p) 11 0x1F, getBits (packed16 p) 6 0x1F, getBits (packed16 p) 1 0x1F,
    getBits (packed16 p) 0 0x1⟩

def getPixelRGB565 (p : List Byte) : Colorf :=
  ⟨getBits (packed16 p) 11 0x1F, getBits (packed16 p) 5 0x3F, getBits (packed16 p) 0 0x1F, 1⟩

def getPixelRGB10A2 (p : List Byte) : Colorf :=
  ⟨getBits (packed32 p) 0 0x3FF, getBits (packed32 p) 10 0x3FF, getBits (packed32 p) 20 0x3FF,
    getBits (packed32 p) 30 0x3⟩

/-! ## Image data -/

/-- `getPixelSetFunction` -/
def UnormFormat.pixelSetFunction : UnormFormat → Colorf → List Byte
  | .r8 => setPixelR8
  | .rg8 => setPixelRG8
  | .rgba8 => setPixelRGBA8
  | .r16 => setPixelR16
  | .rg16 => setPixelRG16
  | .rgba16 => setPixelRGBA16
  | .rgba4 => setPixelRGBA4
  | .rgb5a1 => setPixelRGB5A1
  | .rgb565 => setPixelRGB565
  | .rgb10a2 => setPixelRGB10A2

/-- `getPixelGetFunction` -/
def UnormFormat.pixelGetFunction : UnormFormat → List Byte → Colorf
  | .r8 => getPixelR8
  | .rg8 => getPixelRG8
  | .rgba8 => getPixelRGBA8
  | .r16 => getPixelR16
  | .rg16 => getPixelRG16
  | .rgba16 => getPixelRGBA16
  | .rgba4 => getPixelRGBA4
  | .rgb5a1 => getPixelRGB5A1
  | .rgb565 => getPixelRGB565
  | .rgb10a2 => getPixelRGB10A2

theorem pixelSetFunction_length (format : UnormFormat) (c : Colorf) :
    (format.pixelSetFunction c).length = format.pixelSize := by
  cases format <;> rfl

/-- Image data has the bytes that `create` allocates. -/
structure ImageData where
  format : UnormFormat
  width : Nat
  height : Nat
  data : List Byte
  size_eq : data.length = format.pixelSize * (width * height)

/-- Why a call has no result: an exception, or a number that an `int` cannot be,
which leaves the behaviour undefined. -/
inductive PixelFault
  | exception (message : String)
  | overflow
  deriving DecidableEq

namespace ImageData

def inside (img : ImageData) (x y : Int) : Prop := 0 ≤ x ∧ x < img.width ∧ 0 ≤ y ∧ y < img.height

instance (img : ImageData) (x y : Int) : Decidable (img.inside x y) :=
  inferInstanceAs (Decidable (_ ∧ _))

/-- `y * width + x` -/
def pixelIndex (img : ImageData) (x y : Int) : Int := y * img.width + x

theorem pixelIndex_lt {img : ImageData} {x y : Int} (h : img.inside x y) :
    0 ≤ img.pixelIndex x y ∧ (img.pixelIndex x y).toNat < img.width * img.height := by
  obtain ⟨hx, hxw, hy, hyh⟩ := h
  lift x to ℕ using hx
  lift y to ℕ using hy
  have hrow : (y + 1) * img.width ≤ img.height * img.width :=
    Nat.mul_le_mul_right _ (by exact_mod_cast hyh)
  have heq : img.pixelIndex x y = ((y * img.width + x : Nat) : Int) := by
    rw [pixelIndex]
    norm_cast
  rw [heq, Int.toNat_natCast]
  rw [Nat.add_mul, one_mul, Nat.mul_comm img.height] at hrow
  exact ⟨Int.natCast_nonneg _, by omega⟩

/-- The pixel at an index. -/
def pixel (img : ImageData) (index : Nat) : List Byte :=
  (img.data.drop (index * img.format.pixelSize)).take img.format.pixelSize

theorem pixel_end_le {img : ImageData} {index : Nat} (h : index < img.width * img.height) :
    index * img.format.pixelSize + img.format.pixelSize ≤ img.data.length := by
  rw [img.size_eq, ← Nat.succ_mul, Nat.mul_comm]
  exact Nat.mul_le_mul_left _ h

/-- The bytes of a pixel written. -/
def putPixel (img : ImageData) (index : Nat) (h : index < img.width * img.height) (c : Colorf) :
    ImageData :=
  { img with
    data := overwrite img.data (index * img.format.pixelSize) (img.format.pixelSetFunction c)
    size_eq := by
      rw [overwrite_length, img.size_eq]
      rw [pixelSetFunction_length]
      exact pixel_end_le h }

def setPixel (img : ImageData) (x y : Int) (c : Colorf) : Except PixelFault ImageData :=
  if h : img.inside x y then
    if 2 ^ 31 ≤ img.pixelIndex x y then .error .overflow
    else .ok (img.putPixel (img.pixelIndex x y).toNat (pixelIndex_lt h).2 c)
  else .error (.exception "Attempt to set out-of-range pixel!")

def getPixel (img : ImageData) (x y : Int) : Except PixelFault Colorf :=
  if img.inside x y then
    if 2 ^ 31 ≤ img.pixelIndex x y then .error .overflow
    else .ok (img.format.pixelGetFunction (img.pixel (img.pixelIndex x y).toNat))
  else .error (.exception "Attempt to get out-of-range pixel!")

end ImageData

end Lhatove.Image
