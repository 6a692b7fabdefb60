import Lhatove.Graphics.SpriteBatch
import Lhatove.Lib.Bits

/-!
# What meshes upload

`love::graphics::Mesh` with vertices of its own: they are in memory and in a
buffer of the GPU, with the range of the bytes that were modified since they were
uploaded; the vertex map is in memory and in another buffer, with a flag.

- Vertices and indices are bytes. Such a mesh has the default vertex format.
- The map may be in a buffer of someone else (`setIndexBuffer`); then nothing of
  it is in memory.
- Blocks of memory, and with them lists, have less than `2 ^ 63` bytes.
- What the mesh is drawn with (attributes, texture, draw range) does not matter here.
-/

namespace Lhatove.Graphics

/-! ## Vertices and indices -/

/-- `Vertex`: position, texture coordinates and color. -/
structure Vertex where
  bytes : List UInt8
  length_bytes : bytes.length = 20

/-- The stride of the default vertex format, which is `sizeof(Vertex)`. -/
def vertexSize : Nat := 20

inductive IndexDataType
  | uint16
  | uint32
  deriving DecidableEq

/-- `getIndexDataSize` -/
def IndexDataType.size : IndexDataType → Nat
  | .uint16 => 2
  | .uint32 => 4

/-- `getIndexDataTypeFromMax` -/
def indexDataTypeFromMax (maxvalue : Nat) : IndexDataType :=
  if 0xFFFF < maxvalue then .uint32 else .uint16

/-- A `Buffer` that may hold indices; `format` is that of its first member, in
buffers that do. -/
structure IndexBuffer where
  data : ArrayBuffer
  format : IndexDataType
  arrayLength : Nat
  /-- `BUFFERUSAGEFLAG_INDEX` -/
  index : Bool

/-- The size of a buffer: whole elements. -/
def bufferSize (size stride : Nat) : Nat :=
  if 0 < size % stride then size + (stride - size % stride) else size

/-- The bytes of an index, converted to a type of `width` bytes. -/
def indexBytes (width : Nat) (index : UInt32) : List UInt8 :=
  (storeLE width index.toBitVec).map UInt8.ofBitVec

/-- The index at a position. -/
def readIndex (memory : Nat → UInt8) (width position : Nat) : Nat :=
  (loadLE 32 ((readCells memory (position * width) width).map UInt8.toBitVec)).toNat

def readIndices (memory : Nat → UInt8) (type : IndexDataType) (count : Nat) : List Nat :=
  (List.range count).map (readIndex memory type.size)

/-! ## The mesh -/

/-- `Mesh`, if `vertexData` is not null. -/
structure OwnedMesh where
  vertexCount : Nat
  vertexData : Block
  vertexBuffer : ArrayBuffer
  modifiedVertexData : Range
  /-- what `indexData` points to, unless it is null -/
  indexData : Option Block
  indexBuffer : Option IndexBuffer
  indexDataModified : Bool
  useIndexBuffer : Bool
  indexCount : Nat
  indexDataType : IndexDataType

def outOfIndexMemory : String := "Out of memory."

def bufferSizeRequired : String := "Size or array length must be specified."

def invalidVertexIndex (vertindex : Nat) : String :=
  "Invalid vertex index: " ++ toString (Int64.ofNat (vertindex + 1))

def tooManyVertices : String := "Too many vertices for this Mesh."

def emptyVertexMap : String := "Vertex map array must not be empty."

def invalidMapValue (index : UInt32) : String :=
  "Invalid vertex map value: " ++ toString (index + 1).toInt32

def notIndexBuffer : String := "setIndexBuffer requires a Buffer created as an index buffer."

namespace OwnedMesh

/-- The constructor from vertices. `newBuffer` is what that throws, if it does. -/
def newVertices (vertices : List Vertex) (usage : BufferDataUsage) (memory : Bool)
    (newBuffer : Option String) : Except String OwnedMesh :=
  let data := vertices.flatMap Vertex.bytes
  if memory = false then .error outOfMeshMemory
  else if data.length = 0 then .error bufferSizeRequired
  else
    match newBuffer with
    | some message => .error message
    | none =>
      let vertexCount := data.length / vertexSize
      .ok {
        vertexCount
        vertexData := ⟨data.length, fun a => data.getD a 0⟩
        vertexBuffer := ⟨bufferSize data.length vertexSize, usage, fun a => data.getD a 0⟩
        modifiedVertexData := .invalid
        indexData := none
        indexBuffer := none
        indexDataModified := false
        useIndexBuffer := false
        indexCount := 0
        indexDataType := indexDataTypeFromMax vertexCount }

/-- The constructor from a number of vertices. `junk` is what is in the buffer
that `newBuffer` makes. -/
def newCount (vertexcount : Int) (usage : BufferDataUsage) (memory : Bool)
    (newBuffer : Option String) (junk : Nat → UInt8) : Except String OwnedMesh :=
  if vertexcount ≤ 0 then .error (invalidVertexCount vertexcount)
  else
    match newBuffer with
    | some message => .error message
    | none =>
      if memory = false then .error outOfMeshMemory
      else
        let size := vertexcount.toNat * vertexSize
        let buffer : ArrayBuffer := ⟨size, usage, junk⟩
        .ok {
          vertexCount := vertexcount.toNat
          vertexData := ⟨size, fun _ => 0⟩
          vertexBuffer := (buffer.fill 0 size fun _ => 0).2
          modifiedVertexData := .invalid
          indexData := none
          indexBuffer := none
          indexDataModified := false
          useIndexBuffer := false
          indexCount := 0
          indexDataType := indexDataTypeFromMax vertexcount.toNat }

/-! ### Vertices -/

def checkVertexDataOffset (vertindex : Nat) (m : OwnedMesh) : Except String Nat :=
  if m.vertexCount ≤ vertindex then .error (invalidVertexIndex vertindex)
  else .ok (vertindex * vertexSize)

def setVertexDataModified (offset size : Nat) (m : OwnedMesh) : OwnedMesh :=
  { m with modifiedVertexData := m.modifiedVertexData.encapsulateBytes offset size }

/-- `memcpy` to the vertices. -/
def writeVertexData (offset : Nat) (data : List UInt8) (m : OwnedMesh) : OwnedMesh :=
  { m with vertexData := { m.vertexData with
      bytes := writeCells m.vertexData.bytes m.vertexData.size offset data } }

/-- `setVertex`; the index counts from 0. -/
def setVertex (index : UInt64) (v : Vertex) (m : OwnedMesh) : Except String OwnedMesh :=
  match m.checkVertexDataOffset index.toNat with
  | .error message => .error message
  | .ok offset => .ok ((m.writeVertexData offset v.bytes).setVertexDataModified offset vertexSize)

def setVertices (vertices : List Vertex) (start : UInt64) (m : OwnedMesh) : Except String OwnedMesh :=
  if m.vertexCount < (start.toNat + vertices.length) % 2 ^ 64 then .error tooManyVertices
  else
    match m.checkVertexDataOffset start.toNat with
    | .error message => .error message
    | .ok offset =>
      .ok ((m.writeVertexData offset (vertices.flatMap Vertex.bytes)).setVertexDataModified offset
        (vertices.length * vertexSize))

/-! ### The vertex map -/

/-- Whether the memory and the buffer for indices are replaced: `recreate`. -/
def recreates (type : IndexDataType) (size : Nat) (m : OwnedMesh) : Bool :=
  match m.indexData, m.indexBuffer with
  | some _, some buffer => buffer.data.size < size || buffer.format ≠ type
  | _, _ => true

/-- The memory and the buffer for indices, if the size and the format are not right. -/
def prepareIndexData (env : Resize) (type : IndexDataType) (size : Nat) (m : OwnedMesh) :
    Except String OwnedMesh :=
  if m.recreates type size = false then .ok m
  else if size = 0 then .error bufferSizeRequired
  else
    match env.newBuffer with
    | some message => .error message
    | none =>
      if env.block = .failed then .error outOfIndexMemory
      else
        let data : ArrayBuffer := ⟨bufferSize size type.size, m.vertexBuffer.usage, env.junk⟩
        .ok { m with
          indexData := some ((m.indexData.getD ⟨0, env.fresh⟩).realloc size env.fresh)
          indexBuffer := some ⟨data, type, data.size / type.size, true⟩ }

/-- A map of some length and type, that is used from here on. -/
def useIndices (count : Nat) (type : IndexDataType) (m : OwnedMesh) : OwnedMesh :=
  { m with indexCount := count, useIndexBuffer := true, indexDataType := type }

/-- The memory for indices. -/
def indexBlock (m : OwnedMesh) : Block := m.indexData.getD ⟨0, fun _ => 0⟩

def setIndexBlock (block : Block) (m : OwnedMesh) : OwnedMesh := { m with indexData := some block }

def setIndexDataModified (m : OwnedMesh) : OwnedMesh := { m with indexDataModified := true }

/-- `memcpy` to a block. -/
def copyBytes (block : Block) (offset : Nat) (data : List UInt8) : Block :=
  { block with bytes := writeCells block.bytes block.size offset data }

/-- `copyToIndexBuffer`, from some position on, with the text of the exception. -/
def copyToIndexBuffer (width maxval : Nat) :
    List UInt32 → Nat → Block → Option String × Block
  | [], _, data => (none, data)
  | index :: indices, position, data =>
    if maxval ≤ index.toNat then (some (invalidMapValue index), data)
    else copyToIndexBuffer width maxval indices (position + 1)
      (copyBytes data (position * width) (indexBytes width index))

/-- `setVertexMap` of a list, with the text of the exception. -/
def setVertexMap (env : Resize) (map : List UInt32) (m : OwnedMesh) : Option String × OwnedMesh :=
  if map = [] then (some emptyVertexMap, m)
  else
    let type := indexDataTypeFromMax m.vertexCount
    match m.prepareIndexData env type (map.length * type.size) with
    | .error message => (some message, m)
    | .ok m₁ =>
      let m₂ := m₁.useIndices map.length type
      match copyToIndexBuffer type.size m.vertexCount map 0 m₂.indexBlock with
      | (some message, block) => (some message, m₂.setIndexBlock block)
      | (none, block) => (none, (m₂.setIndexBlock block).setIndexDataModified)

/-- `setVertexMap` of index data. -/
def setVertexMapData (env : Resize) (type : IndexDataType) (data : List UInt8) (m : OwnedMesh) :
    Option String × OwnedMesh :=
  match m.prepareIndexData env type data.length with
  | .error message => (some message, m)
  | .ok m₁ =>
    let m₂ := m₁.useIndices (data.length / type.size) type
    if data.length / type.size = 0 then (none, m₂)
    else (none, (m₂.setIndexBlock (copyBytes m₂.indexBlock 0 data)).setIndexDataModified)

/-- `setVertexMap` of nothing. -/
def clearVertexMap (m : OwnedMesh) : OwnedMesh := { m with useIndexBuffer := false }

def setIndexBuffer (buffer : Option IndexBuffer) (m : OwnedMesh) : Except String OwnedMesh :=
  match buffer with
  | none => .ok { m with
      indexBuffer := none, useIndexBuffer := false, indexCount := 0, indexData := none }
  | some buffer =>
    if buffer.index = false then .error notIndexBuffer
    else .ok { m with
      indexBuffer := some buffer, useIndexBuffer := true, indexCount := buffer.arrayLength,
      indexDataType := buffer.format, indexData := none }

/-! ### Uploads -/

/-- The bytes that `flush` hands to the buffer of the vertices: the offset and the
size. -/
def vertexUpload (m : OwnedMesh) : Option (Nat × Nat) :=
  if m.modifiedVertexData.isValid = true then
    if m.vertexBuffer.usage = .stream then some (0, m.vertexBuffer.size)
    else some (m.modifiedVertexData.getOffset, m.modifiedVertexData.getSize % 2 ^ 64)
  else none

/-- The memory and the buffer that `flush` takes indices from and hands them to. -/
def indexUpload (m : OwnedMesh) : Option (Block × IndexBuffer) :=
  match m.indexDataModified, m.indexData, m.indexBuffer with
  | true, some block, some buffer => some (block, buffer)
  | _, _, _ => none

/-- The first part of `flush`. -/
def flushVertices (m : OwnedMesh) : OwnedMesh :=
  match m.vertexUpload with
  | none => m
  | some (offset, size) =>
    { m with
      vertexBuffer := (m.vertexBuffer.fill offset size fun a => m.vertexData.bytes (offset + a)).2
      modifiedVertexData := .invalid }

/-- The second part of `flush`. -/
def flushIndices (m : OwnedMesh) : OwnedMesh :=
  match m.indexUpload with
  | none => m
  | some (block, buffer) =>
    { m with
      indexBuffer := some { buffer with
        data := (buffer.data.fill 0 buffer.data.size block.bytes).2 }
      indexDataModified := false }

def flush (m : OwnedMesh) : OwnedMesh := m.flushVertices.flushIndices

end OwnedMesh

/-! ## Runs -/

/-- A call of a member function, or of the functions of scripts that write vertices. -/
inductive OwnedMeshOp
  | setVertex (index : UInt64) (v : Vertex)
  | setVertices (vertices : List Vertex) (start : UInt64)
  | setVertexMap (env : Resize) (map : List UInt32)
  | setVertexMapData (env : Resize) (type : IndexDataType) (data : List UInt8)
  | clearVertexMap
  | setIndexBuffer (buffer : Option IndexBuffer)
  | flush

/-- A mesh, and the vertex map that was set last. -/
structure MeshRun where
  mesh : OwnedMesh
  lastMap : List Nat

open OwnedMesh

def exceptMesh (s : MeshRun) : Except String OwnedMesh → MeshRun
  | .ok m => ⟨m, s.lastMap⟩
  | .error _ => s

def mapMesh (s : MeshRun) (map : List Nat) : Option String × OwnedMesh → MeshRun
  | (none, m) => ⟨m, map⟩
  | (some _, m) => ⟨m, s.lastMap⟩

/-- What a call leaves, whether it throws or not. Lists are in memory. -/
def ownedMeshStep (s : MeshRun) : OwnedMeshOp → Option MeshRun
  | .setVertex index v => some (exceptMesh s (s.mesh.setVertex index v))
  | .setVertices vertices start =>
    if vertices.length * vertexSize < 2 ^ 63 then
      some (exceptMesh s (s.mesh.setVertices vertices start))
    else none
  | .setVertexMap env map =>
    if map.length * 4 < 2 ^ 63 then
      some (mapMesh s (map.map UInt32.toNat) (s.mesh.setVertexMap env map))
    else none
  | .setVertexMapData env type data =>
    if data.length < 2 ^ 63 then
      some (mapMesh s (readIndices (fun a => data.getD a 0) type (data.length / type.size))
        (s.mesh.setVertexMapData env type data))
    else none
  | .clearVertexMap => some { s with mesh := s.mesh.clearVertexMap }
  | .setIndexBuffer buffer => some (exceptMesh s (s.mesh.setIndexBuffer buffer))
  | .flush => some { s with mesh := s.mesh.flush }

/-- Calls of a mesh, in any order. Buffers of vertices cannot be read back. -/
def ownedMeshes : System MeshRun OwnedMeshOp :=
  System.ofStep
    (fun s => s.lastMap = [] ∧ ∃ usage memory newBuffer, usage ≠ .readback ∧
      ((∃ vertices : List Vertex, vertices.length * vertexSize < 2 ^ 63 ∧
          newVertices vertices usage memory newBuffer = .ok s.mesh) ∨
        ∃ (vertexcount : Int32) (junk : Nat → UInt8),
          newCount vertexcount.toInt usage memory newBuffer junk = .ok s.mesh))
    ownedMeshStep

end Lhatove.Graphics
