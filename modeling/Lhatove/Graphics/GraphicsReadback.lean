import Lhatove.Graphics.TextureCopies
import Lhatove.Image.Addressing
import Lhatove.Lib.Rows

/-!
# Readbacks

`love::graphics::GraphicsReadback`, and what `love::graphics::opengl::GraphicsReadback`
makes of it: the pixels of a texture are copied to image data, or the bytes of a buffer to
byte data.

- A sum of `int`s that overflows, and a shift by no mipmap level, are not defined.
- The pixels of a texture are given as tight rows of the rectangle, as OpenGL reads them.
-/

namespace Lhatove.Graphics

inductive ReadbackMethod
  | immediate
  | async
  deriving DecidableEq

/-- `GraphicsReadback::Status`, without `STATUS_WAITING`. -/
inductive ReadbackStatus
  | complete
  | error
  deriving DecidableEq

/-! ## Textures -/

/-- What a readback asks of a texture. Its pixels have some bytes and are in memory, and a
shift by any level of it is defined. -/
structure ReadbackTexture where
  format : Image.DataFormat
  texType : TextureType
  renderTarget : Bool
  readable : Bool
  /-- `isRenderTargetActive`, of this texture -/
  active : Bool
  mipmapCount : Int
  layers : Int
  depth : Int
  pixelWidth : Int
  pixelHeight : Int
  shift : mipmapCount ≤ 32
  pixels : 0 < format.blockSize
  width_pos : 0 < pixelWidth
  height_pos : 0 < pixelHeight
  memory : format.blockSize * (pixelWidth.toNat * pixelHeight.toNat) < 2 ^ 64

/-- `ImageData`, without its bytes. -/
structure ReadbackImage where
  format : Image.DataFormat
  width : Nat
  height : Nat

/-- The arguments of `readbackTexture` and `readbackTextureAsync`. -/
structure TextureRequest where
  method : ReadbackMethod
  texture : ReadbackTexture
  slice : Int
  mipmap : Int
  rect : CopyRect
  dest : Option (ReadbackImage × Int × Int)

/-- What the system is able to do. -/
structure ReadbackSystem where
  /-- `FEATURE_COPY_TEXTURE_TO_BUFFER`, and that of OpenGL -/
  copyTextureToBuffer : Bool
  /-- `newImageData`, if it is called -/
  newImageData : Bool
  /-- There are temporary buffers of so many bytes. -/
  temporaryBuffer : Nat → Bool
  /-- `getPixelFormatName` -/
  formatName : Image.DataFormat → String

/-- A texture, as a copy to a buffer asks for it. -/
def ReadbackTexture.toCopy (t : ReadbackTexture) : CopyTexture where
  format :=
    match t.format with
    | .compressed format => .compressed format
    | .plain format => .uncompressed format.formatInfo.blockSize (!format.formatInfo.color)
  texType := t.texType
  renderTarget := t.renderTarget
  readable := t.readable
  active := t.active
  mipmapCount := t.mipmapCount
  layers := t.layers
  depth := t.depth
  pixelWidth := t.pixelWidth
  pixelHeight := t.pixelHeight
  shift := t.shift

section Textures

variable (sys : ReadbackSystem) (q : TextureRequest)

namespace TextureRequest

def textureFormat : Image.DataFormat := q.texture.format.linear

/-- The check of a destination. -/
def checkDest : Except CopyFault Unit :=
  match q.dest with
  | none => .ok ()
  | some (dest, destx, desty) =>
    if dest.format.linear ≠ q.textureFormat then
      .error (.exception
        "Destination ImageData pixel format must match the source Texture's format.")
    else if destx < 0 ∨ desty < 0 then
      .error (.exception "Invalid destination ImageData x/y coordinates.")
    else
      let outside : CopyFault := .exception
        "The specified rectangle does not fit within the destination ImageData's dimensions."
      if 2 ^ 31 ≤ destx + q.rect.w then .error .undefined
      else if dest.width < destx + q.rect.w then .error outside
      else if 2 ^ 31 ≤ desty + q.rect.h then .error .undefined
      else if dest.height < desty + q.rect.h then .error outside
      else .ok ()

/-- `GraphicsReadback::GraphicsReadback`, of a texture. -/
def check : Except CopyFault Unit :=
  if q.texture.active then
    .error (.exception
      "readbackTexture cannot be called while that Texture is an active render target.")
  else if q.texture.readable = false then
    .error (.exception "readbackTexture requires a readable Texture.")
  else if q.mipmap < 0 ∨ 32 ≤ q.mipmap then .error .undefined
  else
    match q.rect.check (mipSize q.texture.pixelWidth q.mipmap)
      (mipSize q.texture.pixelHeight q.mipmap) with
    | .error .undefined => .error .undefined
    | .error (.exception _) => .error (.exception "Invalid rectangle dimensions.")
    | .ok () =>
      if q.texture.toCopy.sliceInvalid q.slice q.mipmap then
        .error (.exception "Invalid slice index.")
      else if q.textureFormat.valid = false then
        .error (.exception ("ImageData with the '" ++ sys.formatName q.textureFormat ++
          "' pixel format is not supported."))
      else if q.texture.renderTarget = false ∧ sys.copyTextureToBuffer = false then
        match q.method with
        | .async =>
          .error (.exception ("readbackTextureAsync with a non-render-target texture is not " ++
            "supported on this system."))
        | .immediate =>
          .error (.exception ("readbackTexture with a non-render-target texture is not " ++
            "supported on this system."))
      else q.checkDest

/-- The image that is written to, and where: a new one has the size of the rectangle. -/
def target : ReadbackImage × Int × Int :=
  q.dest.getD (⟨q.textureFormat, q.rect.w.toNat, q.rect.h.toNat⟩, 0, 0)

/-- `getPixelFormatSliceSize` of the rectangle -/
def size : Nat := q.textureFormat.sliceSize q.rect.w.toNat q.rect.h.toNat

/-- `prepareReadbackDest`: where in the image the first pixel is. -/
def destOffset : Option Nat :=
  let (image, x, y) := q.target
  let pixels := y * image.width + x
  if pixels < 2 ^ 31 then some (q.textureFormat.blockSize * pixels.toNat) else none

/-- The staging buffer; its size is a multiple of that of a `float`. -/
def staging : CopyBuffer :=
  ⟨.readback, (q.size + 3) / 4 * 4 % 2 ^ 64, false, Nat.mod_lt _ (Nat.two_pow_pos 64)⟩

/-- The constructor of the OpenGL readback, but for the copy of `readbackTexture`. -/
def create : Except CopyFault Unit := do
  q.check sys
  match q.method with
  | .immediate =>
    if q.dest.isNone ∧ sys.newImageData = false then
      .error (.exception "The love.image module must be loaded for readbackTexture.")
    else .ok ()
  | .async =>
    if sys.temporaryBuffer q.size = false then .error (.exception "Could not create buffer.")
    else
      let _ ← Graphics.copyTextureToBuffer sys.copyTextureToBuffer q.texture.toCopy q.staging
        q.slice q.mipmap q.rect 0 0
      .ok ()

/-- `getPixelFormatUncompressedRowSize` of the rectangle -/
def rowsize : Nat := q.textureFormat.blockSize * q.rect.w.toNat

/-- `getPixelFormatUncompressedRowSize` of the image -/
def stride : Nat := q.textureFormat.blockSize * q.target.1.width

/-- `Texture::readbackInternal`. `glGetTextureSubImage` does nothing if the rows, which are
as far apart as `GL_PACK_ROW_LENGTH` says, need more bytes than it is told that there
are. -/
def readbackInternal (image pixels : Memory Byte) : Option (Memory Byte) := do
  let offset ← q.destOffset
  let needed := q.textureFormat.blockSize *
    ((q.rect.h.toNat - 1) * q.target.1.width + q.rect.w.toNat)
  if sys.copyTextureToBuffer ∧ q.size < needed then some image
  else image.copyRows offset pixels 0 q.stride q.rowsize q.rect.h.toNat

/-- The bytes of the staging buffer: the pixels, and what was there before. -/
def staged (pixels : Memory Byte) (old : Nat → Byte) : Memory Byte :=
  ⟨q.staging.size, fun a => if a < q.size then pixels.cell a else old a⟩

/-- `readbackBuffer` of the staging buffer; `mapped` is whether it can be mapped. -/
def readbackBuffer (image pixels : Memory Byte) (old : Nat → Byte) (mapped : Bool) :
    Option (ReadbackStatus × Memory Byte) := do
  if mapped = false ∨ q.dest.isNone ∧ sys.newImageData = false then some (.error, image)
  else
    let offset ← q.destOffset
    let (target, _) := q.target
    if (target.width : Int) ≠ q.rect.w then
      let image ← image.copyRows offset (q.staged pixels old) 0 q.stride q.rowsize q.rect.h.toNat
      some (.complete, image)
    else if 2 ^ 31 ≤ target.width * target.height then none
    else
      let getSize := target.width * target.height * q.textureFormat.blockSize
      let image ← image.copy offset (q.staged pixels old) 0 (min q.staging.size getSize)
      some (.complete, image)

/-- The readback, at once or later. -/
def readback (image pixels : Memory Byte) (old : Nat → Byte) (mapped : Bool) :
    Option (ReadbackStatus × Memory Byte) :=
  match q.method with
  | .immediate => (q.readbackInternal sys image pixels).map fun image => (.complete, image)
  | .async => q.readbackBuffer sys image pixels old mapped

end TextureRequest

end Textures

/-! ## Buffers -/

/-- A `ByteData`, and the offset in it. -/
structure ByteDest where
  size : Nat
  offset : Nat
  fits : size < 2 ^ 64

/-- The arguments of `readbackBuffer` and `readbackBufferAsync`. -/
structure BufferRequest where
  method : ReadbackMethod
  buffer : CopyBuffer
  offset : Nat
  size : Nat
  dest : Option ByteDest

section Buffers

variable (sys : ReadbackSystem) (q : BufferRequest)

namespace BufferRequest

/-- `GraphicsReadback::GraphicsReadback`, of a buffer. -/
def check : Except CopyFault Unit :=
  if q.buffer.size < (q.offset + q.size) % 2 ^ 64 then
    .error (.exception "Invalid offset or size for the given Buffer.")
  else
    match q.dest with
    | none => .ok ()
    | some dest =>
      if dest.size < (dest.offset + q.size) % 2 ^ 64 then
        .error (.exception "Invalid destination offset or size for the given ByteData.")
      else .ok ()

def staging : CopyBuffer :=
  ⟨.readback, (q.size + 3) / 4 * 4 % 2 ^ 64, false, Nat.mod_lt _ (Nat.two_pow_pos 64)⟩

/-- Whether there is a staging buffer. -/
def isStaged : Bool := !(q.method = .immediate ∧ q.buffer.dataUsage = .readback)

/-- The constructor of the OpenGL readback, but for the copy of `readbackBuffer`. -/
def create : Except CopyFault Unit := do
  q.check
  if q.isStaged then
    if sys.temporaryBuffer q.size = false then .error (.exception "Could not create buffer.")
    else
      match Graphics.copyBuffer (fun source => if source then q.buffer else q.staging) true false
        q.offset 0 q.size with
      | .error message => .error (.exception message)
      | .ok _ => .ok ()
  else .ok ()

/-- The size of the part of a buffer that is mapped. -/
def mappedSize : Nat :=
  match q.method with
  | .immediate => q.size
  | .async => q.staging.size

/-- The destination's size, and the offset in it: a new one is as long as what is mapped. -/
def target : Nat × Nat :=
  match q.dest with
  | none => (q.mappedSize, 0)
  | some dest => (dest.size, dest.offset)

/-- The bytes that are mapped: those of the buffer, or, behind them, what was in the staging
buffer before. -/
def mappedBytes (bytes : Memory Byte) (old : Nat → Byte) : Memory Byte :=
  ⟨q.mappedSize, fun a => if a < q.size then bytes.cell (q.offset + a) else old a⟩

/-- `readbackBuffer`; `mapped` is whether the buffer can be mapped, and `room` whether there
is memory for a new destination. -/
def readback (dest bytes : Memory Byte) (old : Nat → Byte) (mapped room : Bool) :
    Option (ReadbackStatus × Memory Byte) := do
  if mapped = false ∨ q.dest.isNone ∧ room = false then some (.error, dest)
  else
    let dest ← dest.copy q.target.2 (q.mappedBytes bytes old) 0 (min q.mappedSize dest.size)
    some (.complete, dest)

end BufferRequest

end Buffers

end Lhatove.Graphics
