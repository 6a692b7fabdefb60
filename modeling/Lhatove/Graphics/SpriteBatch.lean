import Lhatove.Common.Range
import Lhatove.Graphics.Mesh
import Lhatove.Lib.Cells

/-!
# Sprite batches

`love::graphics::SpriteBatch`: the vertices of sprites, in memory and in a buffer
of the GPU, with the range of the sprites that were modified since they were
uploaded.

- Vertices are bytes. What a quad under a transform gives is left to `Sprites`.
- A sprite takes at most 96 bytes and sizes are `int`, so that no number of bytes
  is out of the range of `size_t`.
- Textures and draw ranges that are set, and what is drawn behind the upload, do
  not matter here.
-/

namespace Lhatove.Graphics

/-! ## Sprites and buffers -/

/-- Quads with a transform, and the vertices they give: position, texture
coordinates, the layer of an array texture, and the color. -/
structure Sprites (Q : Type) where
  /-- `Quad::getLayer` -/
  layer : Q → Int
  flat : Q → BitVec 32 → List UInt8
  layered : Int → Q → BitVec 32 → List UInt8
  flat_length : ∀ q color, (flat q color).length = 20 * 4
  layered_length : ∀ layer q color, (layered layer q color).length = 24 * 4

inductive BufferDataUsage
  | stream
  | dynamic
  | static
  | readback
  deriving DecidableEq

/-- A buffer of the GPU. -/
structure ArrayBuffer where
  size : Nat
  usage : BufferDataUsage
  bytes : Nat → UInt8

/-- `Buffer::fill`, with `data` being what there is at some pointer. A buffer of
vertices is never immutable. -/
def ArrayBuffer.fill (buffer : ArrayBuffer) (offset size : Nat) (data : Nat → UInt8) :
    Bool × ArrayBuffer :=
  if size = 0 ∨ buffer.usage = .readback then (false, buffer)
  else if (Range.ofSize 0 buffer.size).contains (Range.ofSize offset size) = false then
    (false, buffer)
  else
    (true, { buffer with
      bytes := writeCells buffer.bytes buffer.size offset (readCells data 0 size) })

/-- Allocated memory. -/
structure Block where
  size : Nat
  bytes : Nat → UInt8

/-- What `realloc` may do. -/
inductive Realloc
  | failed
  | moved
  | inPlace
  deriving DecidableEq

/-- What a change of the size meets with. -/
structure Resize where
  block : Realloc
  /-- what is in memory behind the old vertices -/
  fresh : Nat → UInt8
  /-- what `newBuffer` throws, if it does -/
  newBuffer : Option String
  /-- what is in the new buffer -/
  junk : Nat → UInt8

def Block.realloc (block : Block) (size : Nat) (fresh : Nat → UInt8) : Block where
  size := size
  bytes address := if address < block.size then block.bytes address else fresh address

/-! ## The batch -/

/-- The texture of a batch, as far as it matters: whether it is an array texture,
and its layers. -/
structure BatchTexture where
  array : Bool
  layerCount : Int

/-- `SpriteBatch::AttachedAttribute` -/
structure AttachedAttribute where
  buffer : VertexBuffer
  index : Nat
  bindingIndex : Int

structure SpriteBatch where
  texture : BatchTexture
  size : Nat
  next : Nat
  color : BitVec 32
  /-- the memory that `vertex_data` points to; no byte when it points nowhere -/
  vertexData : Block
  arrayBuf : ArrayBuffer
  modifiedSprites : Range
  attachedAttributes : List (String × AttachedAttribute)

def invalidBatchSize : String := "Invalid SpriteBatch size."

def noBatchTexture : String := "A texture must be used when creating a SpriteBatch."

def outOfBatchMemory : String := "Out of memory."

def invalidSpriteIndex (index : Int) : String :=
  "Invalid sprite index: " ++ toString (index + 1)

def notLayered : String :=
  "addLayer can only be called on a SpriteBatch that uses an Array Texture."

def invalidLayer (layer layerCount : Int) : String :=
  "Invalid layer: " ++ toString (layer + 1) ++ " (Texture has " ++ toString layerCount ++ " layers)"

def noBatchVertexSupport : String :=
  "GraphicsBuffer must be created with vertex buffer support to be used as a SpriteBatch vertex attribute."

def tooFewVertices (next : Nat) : String :=
  "Buffer has too few vertices to be attached to this SpriteBatch (at least " ++
    toString (next * 4) ++ " vertices are required)"

def noBatchMember (name : String) : String :=
  "The specified Buffer does not have a vertex attribute named '" ++ cString name ++ "'"

def tooFewAttributeVertices (name : String) : String :=
  "Buffer with attribute '" ++ cString name ++ "' attached to this SpriteBatch has too few vertices"

namespace SpriteBatch

/-- `vertex_stride` -/
def vertexStride (s : SpriteBatch) : Nat := if s.texture.array then 24 else 20

/-- The bytes of a sprite. -/
def spriteSize (s : SpriteBatch) : Nat := s.vertexStride * 4

/-- The constructor. `newBuffer` is what that throws, if it does; `junk` is what
is in the buffer it makes. -/
def new (texture : Option BatchTexture) (size : Int) (usage : BufferDataUsage) (memory : Bool)
    (newBuffer : Option String) (junk : Nat → UInt8) : Except String SpriteBatch :=
  if size ≤ 0 then .error invalidBatchSize
  else
    match texture with
    | none => .error noBatchTexture
    | some texture =>
      let bytes := (if texture.array then 24 else 20) * 4 * size.toNat
      if memory = false then .error outOfBatchMemory
      else
        match newBuffer with
        | some message => .error message
        | none =>
          .ok ⟨texture, size.toNat, 0, 0xFFFFFFFF, ⟨bytes, fun _ => 0⟩, ⟨bytes, usage, junk⟩,
            .invalid, []⟩

/-- `setBufferSize`, with the text of the exception. When `newBuffer` throws,
`vertex_data` still is the pointer from before `realloc`. -/
def setBufferSize (env : Resize) (newsize : Int) (s : SpriteBatch) : Option String × SpriteBatch :=
  if newsize ≤ 0 then (some invalidBatchSize, s)
  else if newsize.toNat = s.size then (none, s)
  else if env.block = .failed then (some outOfBatchMemory, s)
  else
    let vertexSize := s.spriteSize * newsize.toNat
    let newVertexData := s.vertexData.realloc vertexSize env.fresh
    match env.newBuffer with
    | some message =>
      (some message, { s with
        vertexData := if env.block = .moved then ⟨0, env.fresh⟩ else newVertexData })
    | none =>
      let newNext := min s.next newsize.toNat
      let buffer : ArrayBuffer := ⟨vertexSize, s.arrayBuf.usage, env.junk⟩
      (none, { s with
        vertexData := newVertexData
        arrayBuf := (buffer.fill 0 (s.spriteSize * newNext) newVertexData.bytes).2
        size := newsize.toNat
        next := newNext })

/-- The vertices of a sprite written. -/
def put (spriteindex : Nat) (vertices : List UInt8) (s : SpriteBatch) : SpriteBatch :=
  { s with
    vertexData := { s.vertexData with
      bytes := writeCells s.vertexData.bytes s.vertexData.size (spriteindex * s.spriteSize) vertices }
    modifiedSprites := s.modifiedSprites.encapsulate spriteindex }

/-- The size that is asked for when all sprites are taken. -/
def doubledSize (s : SpriteBatch) : Int := (s.size * 2 : Int).bmod (2 ^ 32)

/-- What `add` and `addLayer` do once their arguments were checked. -/
def place (env : Resize) (index : Int) (vertices : BitVec 32 → List UInt8) (s : SpriteBatch) :
    Except String Int × SpriteBatch :=
  if index = -1 then
    if s.size ≤ s.next then
      match s.setBufferSize env s.doubledSize with
      | (some message, s') => (.error message, s')
      | (none, s') => (.ok s'.next, { s'.put s'.next (vertices s'.color) with next := s'.next + 1 })
    else (.ok s.next, { s.put s.next (vertices s.color) with next := s.next + 1 })
  else (.ok index, s.put index.toNat (vertices s.color))

def addLayer {Q : Type} (sprites : Sprites Q) (env : Resize) (layer : Int) (q : Q) (index : Int)
    (s : SpriteBatch) : Except String Int × SpriteBatch :=
  if s.texture.array = false then (.error notLayered, s)
  else if index < -1 ∨ s.size ≤ index then (.error (invalidSpriteIndex index), s)
  else if layer < 0 ∨ s.texture.layerCount ≤ layer then
    (.error (invalidLayer layer s.texture.layerCount), s)
  else s.place env index (sprites.layered layer q)

/-- `add`; with an index other than -1, the sprite there is set. -/
def add {Q : Type} (sprites : Sprites Q) (env : Resize) (q : Q) (index : Int) (s : SpriteBatch) :
    Except String Int × SpriteBatch :=
  if s.texture.array = true then s.addLayer sprites env (sprites.layer q) q index
  else if index < -1 ∨ s.size ≤ index then (.error (invalidSpriteIndex index), s)
  else s.place env index (sprites.flat q)

def clear (s : SpriteBatch) : SpriteBatch := { s with next := 0 }

/-- The bytes that `flush` hands to the buffer: the offset and the size. -/
def upload (s : SpriteBatch) : Option (Nat × Nat) :=
  if s.modifiedSprites.isValid = true then
    if s.arrayBuf.usage = .stream then some (0, s.arrayBuf.size)
    else some (s.modifiedSprites.getOffset * s.spriteSize, s.modifiedSprites.getSize * s.spriteSize)
  else none

def flush (s : SpriteBatch) : SpriteBatch :=
  match s.upload with
  | none => s
  | some (offset, size) =>
    { s with
      arrayBuf := (s.arrayBuf.fill offset size fun a => s.vertexData.bytes (offset + a)).2
      modifiedSprites := .invalid }

/-- `setColor`, with the color as it is stored. -/
def setColor (color : BitVec 32) (s : SpriteBatch) : SpriteBatch := { s with color := color }

def attachAttribute (name : String) (buffer : VertexBuffer) (s : SpriteBatch) :
    Except String SpriteBatch :=
  if buffer.vertex = false then .error noBatchVertexSupport
  else if buffer.arrayLength < s.next * 4 then .error (tooFewVertices s.next)
  else
    match buffer.memberByName name with
    | none => .error (noBatchMember name)
    | some index =>
      let location := buffer.declaredLocation index
      let bindingIndex :=
        if location < 0 then (builtinVertexAttribute name).getD location else location
      .ok { s with attachedAttributes :=
        (name, ⟨buffer, index, bindingIndex⟩) :: s.attachedAttributes.filter (·.1 ≠ name) }

/-- `draw`, up to the draw itself. `invalid` is what is thrown before the
upload, if something is. -/
def draw (invalid : Option String) (s : SpriteBatch) : Except String Unit × SpriteBatch :=
  if s.next = 0 then (.ok (), s)
  else
    match invalid with
    | some message => (.error message, s)
    | none =>
      match s.attachedAttributes.find? fun a => a.2.buffer.arrayLength < s.next * 4 with
      | some a => (.error (tooFewAttributeVertices a.1), s.flush)
      | none => (.ok (), s.flush)

end SpriteBatch

/-! ## Runs -/

/-- A call of a member function. -/
inductive SpriteBatchOp (Q : Type)
  | add (env : Resize) (q : Q) (index : Int)
  | addLayer (env : Resize) (layer : Int) (q : Q) (index : Int)
  | clear
  | setBufferSize (env : Resize) (newsize : Int32)
  | attachAttribute (name : String) (buffer : VertexBuffer)
  | setColor (color : BitVec 32)
  | flush
  | draw (invalid : Option String)

open SpriteBatch

/-- What a call leaves, whether it throws or not. -/
def spriteBatchStep {Q : Type} (sprites : Sprites Q) (s : SpriteBatch) : SpriteBatchOp Q → Option SpriteBatch
  | .add env q index => some (s.add sprites env q index).2
  | .addLayer env layer q index => some (s.addLayer sprites env layer q index).2
  | .clear => some s.clear
  | .setBufferSize env newsize => some (s.setBufferSize env newsize.toInt).2
  | .attachAttribute name buffer =>
    match s.attachAttribute name buffer with
    | .ok s' => some s'
    | .error _ => some s
  | .setColor color => some (s.setColor color)
  | .flush => some s.flush
  | .draw invalid => some (s.draw invalid).2

/-- Calls of a sprite batch, in any order. Buffers of vertices cannot be read
back. -/
def spriteBatches {Q : Type} (sprites : Sprites Q) : System SpriteBatch (SpriteBatchOp Q) :=
  System.ofStep
    (fun s => ∃ texture size usage memory newBuffer junk, usage ≠ .readback ∧
      SpriteBatch.new texture (Int32.toInt size) usage memory newBuffer junk = .ok s)
    (spriteBatchStep sprites)

end Lhatove.Graphics
