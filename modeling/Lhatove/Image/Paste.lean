import Lhatove.Common.FloatTypes
import Lhatove.Image.ImageData

/-!
# Pasting image data

`love::image::ImageData::paste`, for image data of all formats.

- The area is clipped to both images, one axis like the other. Sums are those of
  integers that do not overflow.
- Colors have channels of type `float`, with exact arithmetic.
- A copy that leaves the memory of an image has no result.
-/

namespace Lhatove.Image

/-! ## Formats -/

inductive FloatFormat
  | r16
  | rg16
  | rgba16
  | r32
  | rg32
  | rgba32
  | rg11b10
  deriving DecidableEq

/-- The formats without functions to set and get a pixel. -/
inductive OtherFormat
  | normal
  | hdr
  | r8Int
  | r8Uint
  | r16Int
  | r16Uint
  | r32Int
  | r32Uint
  | rg8Int
  | rg8Uint
  | la8Unorm
  | rg16Int
  | rg16Uint
  | rg32Int
  | rg32Uint
  | rgba8Srgb
  | bgra8Unorm
  | bgra8Srgb
  | rgba8Int
  | rgba8Uint
  | rgba16Int
  | rgba16Uint
  | rgba32Int
  | rgba32Uint
  | rgb10a2Uint
  deriving DecidableEq

/-- The formats for which `validPixelFormat` is true. -/
inductive ColorFormat
  | unorm (format : UnormFormat)
  | float (format : FloatFormat)
  | other (format : OtherFormat)
  deriving DecidableEq

def FloatFormat.pixelSize : FloatFormat → Nat
  | .r16 => 2
  | .rg16 => 4
  | .rgba16 => 8
  | .r32 => 4
  | .rg32 => 8
  | .rgba32 => 16
  | .rg11b10 => 4

def OtherFormat.pixelSize : OtherFormat → Nat
  | .normal | .hdr => 0
  | .r8Int | .r8Uint => 1
  | .r16Int | .r16Uint | .rg8Int | .rg8Uint | .la8Unorm => 2
  | .r32Int | .r32Uint | .rg16Int | .rg16Uint | .rgba8Srgb | .bgra8Unorm | .bgra8Srgb | .rgba8Int
  | .rgba8Uint | .rgb10a2Uint => 4
  | .rg32Int | .rg32Uint | .rgba16Int | .rgba16Uint => 8
  | .rgba32Int | .rgba32Uint => 16

/-- `getPixelFormatBlockSize` -/
def ColorFormat.pixelSize : ColorFormat → Nat
  | .unorm format => format.pixelSize
  | .float format => format.pixelSize
  | .other format => format.pixelSize

/-- `getPixelFormatName` -/
def ColorFormat.name : ColorFormat → String
  | .unorm .r8 => "r8"
  | .unorm .rg8 => "rg8"
  | .unorm .rgba8 => "rgba8"
  | .unorm .r16 => "r16"
  | .unorm .rg16 => "rg16"
  | .unorm .rgba16 => "rgba16"
  | .unorm .rgba4 => "rgba4"
  | .unorm .rgb5a1 => "rgb5a1"
  | .unorm .rgb565 => "rgb565"
  | .unorm .rgb10a2 => "rgb10a2"
  | .float .r16 => "r16f"
  | .float .rg16 => "rg16f"
  | .float .rgba16 => "rgba16f"
  | .float .r32 => "r32f"
  | .float .rg32 => "rg32f"
  | .float .rgba32 => "rgba32f"
  | .float .rg11b10 => "rg11b10f"
  | .other .normal => "normal"
  | .other .hdr => "hdr"
  | .other .r8Int => "r8i"
  | .other .r8Uint => "r8ui"
  | .other .r16Int => "r16i"
  | .other .r16Uint => "r16ui"
  | .other .r32Int => "r32i"
  | .other .r32Uint => "r32ui"
  | .other .rg8Int => "rg8i"
  | .other .rg8Uint => "rg8ui"
  | .other .la8Unorm => "la8"
  | .other .rg16Int => "rg16i"
  | .other .rg16Uint => "rg16ui"
  | .other .rg32Int => "rg32i"
  | .other .rg32Uint => "rg32ui"
  | .other .rgba8Srgb => "srgba8"
  | .other .bgra8Unorm => "bgra8"
  | .other .bgra8Srgb => "bgra8srgb"
  | .other .rgba8Int => "rgba8i"
  | .other .rgba8Uint => "rgba8ui"
  | .other .rgba16Int => "rgba16i"
  | .other .rgba16Uint => "rgba16ui"
  | .other .rgba32Int => "rgba32i"
  | .other .rgba32Uint => "rgba32ui"
  | .other .rgb10a2Uint => "rgb10a2ui"

/-! ## Colors of all formats -/

/-- `Colorf`, with channels of type `float`. -/
structure FloatColorf where
  r : FloatValue
  g : FloatValue
  b : FloatValue
  a : FloatValue

open FloatValue (asuint32 asfloat32)

/-- `clamp01(x) * max + 0.5f`, as an integer. -/
def level (max : Nat) (x : FloatValue) : Nat := quantize max x.toRat

def UnormFormat.setFloat (format : UnormFormat) (c : FloatColorf) : List Byte :=
  format.pixelSetFunction ⟨c.r.toRat, c.g.toRat, c.b.toRat, c.a.toRat⟩

def UnormFormat.getFloat (format : UnormFormat) (p : List Byte) : FloatColorf :=
  let c := format.pixelGetFunction p
  ⟨.num c.r, .num c.g, .num c.b, .num c.a⟩

/-- `u8[i]` -/
def u8 (row : List Byte) (i : Nat) : Byte := row.getD i 0

/-- `u16[i]` and `f16[i]` -/
def u16 (row : List Byte) (i : Nat) : BitVec 16 := loadLE 16 ((row.drop (2 * i)).take 2)

/-- `f32[i]` -/
def f32 (row : List Byte) (i : Nat) : FloatValue :=
  asfloat32 (loadLE 32 ((row.drop (4 * i)).take 4))

/-- The members of `rgba16f`, from the first on. -/
def putRgba16f (values : List FloatValue) : List Byte :=
  values.flatMap fun x => storeLE 2 (float32to16 x)

/-- The members of `rgba32f`, from the first on. -/
def putRgba32f (values : List FloatValue) : List Byte :=
  values.flatMap fun x => storeLE 4 (asuint32 x)

def setPixelR16F (c : FloatColorf) : List Byte := putRgba16f [c.r]

def setPixelRG16F (c : FloatColorf) : List Byte := putRgba16f [c.r, c.g]

def setPixelRGBA16F (c : FloatColorf) : List Byte := putRgba16f [c.r, c.g, c.b, c.a]

def setPixelR32F (c : FloatColorf) : List Byte := putRgba32f [c.r]

def setPixelRG32F (c : FloatColorf) : List Byte := putRgba32f [c.r, c.g]

def setPixelRGBA32F (c : FloatColorf) : List Byte := putRgba32f [c.r, c.g, c.b, c.a]

def setPixelRG11B10F (c : FloatColorf) : List Byte :=
  putPacked32 (float32to11 c.r <<< 0 ||| float32to11 c.g <<< 11 ||| float32to10 c.b <<< 22)

def getPixelR16F (p : List Byte) : FloatColorf := ⟨float16to32 (u16 p 0), .num 0, .num 0, .num 1⟩

def getPixelRG16F (p : List Byte) : FloatColorf :=
  ⟨float16to32 (u16 p 0), float16to32 (u16 p 1), .num 0, .num 1⟩

def getPixelRGBA16F (p : List Byte) : FloatColorf :=
  ⟨float16to32 (u16 p 0), float16to32 (u16 p 1), float16to32 (u16 p 2), float16to32 (u16 p 3)⟩

def getPixelR32F (p : List Byte) : FloatColorf := ⟨f32 p 0, .num 0, .num 0, .num 1⟩

def getPixelRG32F (p : List Byte) : FloatColorf := ⟨f32 p 0, f32 p 1, .num 0, .num 1⟩

def getPixelRGBA32F (p : List Byte) : FloatColorf := ⟨f32 p 0, f32 p 1, f32 p 2, f32 p 3⟩

def getPixelRG11B10F (p : List Byte) : FloatColorf :=
  ⟨float11to32 (packed32 p >>> 0 &&& 0x7FF), float11to32 (packed32 p >>> 11 &&& 0x7FF),
    float10to32 (packed32 p >>> 22 &&& 0x3FF), .num 1⟩

/-- `getPixelSetFunction` -/
def ColorFormat.pixelSetFunction : ColorFormat → Option (FloatColorf → List Byte)
  | .unorm format => some format.setFloat
  | .float .r16 => some setPixelR16F
  | .float .rg16 => some setPixelRG16F
  | .float .rgba16 => some setPixelRGBA16F
  | .float .r32 => some setPixelR32F
  | .float .rg32 => some setPixelRG32F
  | .float .rgba32 => some setPixelRGBA32F
  | .float .rg11b10 => some setPixelRG11B10F
  | .other _ => none

/-- `getPixelGetFunction` -/
def ColorFormat.pixelGetFunction : ColorFormat → Option (List Byte → FloatColorf)
  | .unorm format => some format.getFloat
  | .float .r16 => some getPixelR16F
  | .float .rg16 => some getPixelRG16F
  | .float .rgba16 => some getPixelRGBA16F
  | .float .r32 => some getPixelR32F
  | .float .rg32 => some getPixelRG32F
  | .float .rgba32 => some getPixelRGBA32F
  | .float .rg11b10 => some getPixelRG11B10F
  | .other _ => none

/-! ## Rows -/

/-- The channels of `w` pixels, one after the other. -/
def pasteChannels (w : Nat) (channel : Nat → List Byte) : List Byte :=
  (List.range (w * 4)).flatMap channel

def pasteRGBA8toRGBA16 (src : List Byte) (w : Nat) : List Byte :=
  pasteChannels w fun i => storeLE 2 ((u8 src i).setWidth 16 <<< 8)

def pasteRGBA8toRGBA16F (src : List Byte) (w : Nat) : List Byte :=
  pasteChannels w fun i => storeLE 2 (float32to16 (.num ((u8 src i).toNat / 255)))

def pasteRGBA8toRGBA32F (src : List Byte) (w : Nat) : List Byte :=
  pasteChannels w fun i => storeLE 4 (asuint32 (.num ((u8 src i).toNat / 255)))

def pasteRGBA16toRGBA8 (src : List Byte) (w : Nat) : List Byte :=
  pasteChannels w fun i => [(u16 src i >>> 8).setWidth 8]

def pasteRGBA16toRGBA16F (src : List Byte) (w : Nat) : List Byte :=
  pasteChannels w fun i => storeLE 2 (float32to16 (.num ((u16 src i).toNat / 65535)))

def pasteRGBA16toRGBA32F (src : List Byte) (w : Nat) : List Byte :=
  pasteChannels w fun i => storeLE 4 (asuint32 (.num ((u16 src i).toNat / 65535)))

def pasteRGBA16FtoRGBA8 (src : List Byte) (w : Nat) : List Byte :=
  pasteChannels w fun i => [BitVec.ofNat 8 (level 255 (float16to32 (u16 src i)))]

def pasteRGBA16FtoRGBA16 (src : List Byte) (w : Nat) : List Byte :=
  pasteChannels w fun i => storeLE 2 (BitVec.ofNat 16 (level 65535 (float16to32 (u16 src i))))

def pasteRGBA16FtoRGBA32F (src : List Byte) (w : Nat) : List Byte :=
  pasteChannels w fun i => storeLE 4 (asuint32 (float16to32 (u16 src i)))

def pasteRGBA32FtoRGBA8 (src : List Byte) (w : Nat) : List Byte :=
  pasteChannels w fun i => [BitVec.ofNat 8 (level 255 (f32 src i))]

def pasteRGBA32FtoRGBA16 (src : List Byte) (w : Nat) : List Byte :=
  pasteChannels w fun i => storeLE 2 (BitVec.ofNat 16 (level 65535 (f32 src i)))

def pasteRGBA32FtoRGBA16F (src : List Byte) (w : Nat) : List Byte :=
  pasteChannels w fun i => storeLE 2 (float32to16 (f32 src i))

/-- The row function of two formats. -/
def rowFunction : ColorFormat → ColorFormat → Option (List Byte → Nat → List Byte)
  | .unorm .rgba8, .unorm .rgba16 => some pasteRGBA8toRGBA16
  | .unorm .rgba8, .float .rgba16 => some pasteRGBA8toRGBA16F
  | .unorm .rgba8, .float .rgba32 => some pasteRGBA8toRGBA32F
  | .unorm .rgba16, .unorm .rgba8 => some pasteRGBA16toRGBA8
  | .unorm .rgba16, .float .rgba16 => some pasteRGBA16toRGBA16F
  | .unorm .rgba16, .float .rgba32 => some pasteRGBA16toRGBA32F
  | .float .rgba16, .unorm .rgba8 => some pasteRGBA16FtoRGBA8
  | .float .rgba16, .unorm .rgba16 => some pasteRGBA16FtoRGBA16
  | .float .rgba16, .float .rgba32 => some pasteRGBA16FtoRGBA32F
  | .float .rgba32, .unorm .rgba8 => some pasteRGBA32FtoRGBA8
  | .float .rgba32, .unorm .rgba16 => some pasteRGBA32FtoRGBA16
  | .float .rgba32, .float .rgba16 => some pasteRGBA32FtoRGBA16F
  | _, _ => none

/-- The slow path: each pixel to a color, and that to a pixel. -/
def slowRow (getfunction : List Byte → FloatColorf) (setfunction : FloatColorf → List Byte)
    (srcpixelsize : Nat) (src : List Byte) (w : Nat) : List Byte :=
  (List.range w).flatMap fun x =>
    setfunction (getfunction ((src.drop (x * srcpixelsize)).take srcpixelsize))

/-- Why a paste has no result. -/
inductive PasteFault
  | exception (message : String)
  | outOfBounds
  deriving DecidableEq

/-- A row of `w` pixels in another format. -/
def pasteRow (srcformat dstformat : ColorFormat) (src : List Byte) (w : Nat) :
    Except PasteFault (List Byte) :=
  if srcformat = dstformat then .ok src
  else
    match rowFunction srcformat dstformat with
    | some function => .ok (function src w)
    | none =>
      match srcformat.pixelGetFunction, dstformat.pixelSetFunction with
      | some getfunction, some setfunction =>
        .ok (slowRow getfunction setfunction srcformat.pixelSize src w)
      | none, _ =>
        .error (.exception ("ImageData:paste does not currently support converting from the " ++
          srcformat.name ++ " pixel format."))
      | some _, none =>
        .error (.exception ("ImageData:paste does not currently support converting to the " ++
          dstformat.name ++ " pixel format."))

/-! ## Areas -/

/-- One axis of what is pasted: `n` pixels from `s` on, to `d`. -/
structure Span where
  d : Int
  s : Int
  n : Int

/-- Nothing of the span is in both images. -/
def Span.outside (a : Span) (dst src : Int) : Prop :=
  a.s ≥ src ∨ a.s + a.n < 0 ∨ a.d ≥ dst ∨ a.d + a.n < 0

instance (a : Span) (dst src : Int) : Decidable (a.outside dst src) :=
  inferInstanceAs (Decidable (_ ∨ _))

/-- The span inside of both images. -/
def Span.normalize (a : Span) (dst src : Int) : Span :=
  let a := if a.d < 0 then { n := a.n + a.d, s := a.s - a.d, d := 0 } else a
  let a := if a.s < 0 then { n := a.n + a.s, d := a.d - a.s, s := 0 } else a
  let a := if a.d + a.n > dst then { a with n := dst - a.d } else a
  if a.s + a.n > src then { a with n := src - a.s } else a

/-! ## Images -/

/-- `ImageData`, of any format. -/
structure ColorImageData where
  format : ColorFormat
  width : Nat
  height : Nat
  data : List Byte
  size_eq : data.length = format.pixelSize * (width * height)

namespace ColorImageData

/-- Bytes of an image, from an offset on. -/
def read (img : ColorImageData) (offset : Int) (size : Nat) : Except PasteFault (List Byte) :=
  if 0 ≤ offset ∧ offset.toNat + size ≤ img.data.length then
    .ok ((img.data.drop offset.toNat).take size)
  else .error .outOfBounds

/-- Bytes written into an image, from an offset on. -/
def write (img : ColorImageData) (offset : Int) (bytes : List Byte) :
    Except PasteFault ColorImageData :=
  if h : 0 ≤ offset ∧ offset.toNat + bytes.length ≤ img.data.length then
    .ok { img with
      data := overwrite img.data offset.toNat bytes
      size_eq := (overwrite_length h.2).trans img.size_eq }
  else .error .outOfBounds

/-- A row of the area. -/
def pasteRowAt (src : ColorImageData) (x y : Span) (i : Nat) (dst : ColorImageData) :
    Except PasteFault ColorImageData := do
  let rowsrc ← src.read ((x.s + (i + y.s) * src.width) * src.format.pixelSize)
    (src.format.pixelSize * x.n.toNat)
  let row ← pasteRow src.format dst.format rowsrc x.n.toNat
  dst.write ((x.d + (i + y.d) * dst.width) * dst.format.pixelSize) row

/-- The first rows of the area. -/
def pasteRows (src : ColorImageData) (x y : Span) :
    Nat → ColorImageData → Except PasteFault ColorImageData
  | 0, dst => .ok dst
  | i + 1, dst => do
    let dst ← pasteRows src x y i dst
    pasteRowAt src x y i dst

/-- `paste`, from another image. -/
def paste (dst src : ColorImageData) (dx dy sx sy sw sh : Int) :
    Except PasteFault ColorImageData :=
  let x : Span := ⟨dx, sx, sw⟩
  let y : Span := ⟨dy, sy, sh⟩
  if x.outside dst.width src.width ∨ y.outside dst.height src.height then .ok dst
  else
    let x := x.normalize dst.width src.width
    let y := y.normalize dst.height src.height
    -- If the dimensions match up, the entire memory is copied in one go.
    if src.format = dst.format ∧ (x.n = dst.width ∧ dst.width = src.width ∧
        y.n = dst.height ∧ dst.height = src.height) then do
      let bytes ← src.read 0 (src.format.pixelSize * x.n.toNat * y.n.toNat)
      dst.write 0 bytes
    else if x.n > 0 then pasteRows src x y y.n.toNat dst
    else .ok dst

end ColorImageData

end Lhatove.Image
