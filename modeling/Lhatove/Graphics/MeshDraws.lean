import Lhatove.Graphics.BatchedDraws
import Lhatove.Graphics.MeshUploads

/-!
# What a mesh draws

`Mesh::drawInternal`: a draw of vertices, or of indices from a buffer. Where a
backend has an index buffer for fans, a fan is a part of that.

- The buffer is 16 bits wide and has the fan of 65535 vertices.
- Where an `int` overflows, C++ does not say what a draw is: `undefined`.
- `triangles`: what a backend makes of a draw in the fan mode. One takes each three
  vertices for a triangle, another makes a fan of them.
-/

namespace Lhatove.Graphics

/-! ## The mesh -/

/-- What `Mesh::drawInternal` reads of a mesh. -/
structure MeshDraw where
  vertexCount : Nat
  primitiveType : PrimitiveType
  useIndexBuffer : Bool
  indexBuffer : Option IndexBuffer
  indexCount : Nat
  indexDataType : IndexDataType
  drawRange : Range

def invalidDrawRange : String := "Invalid draw range."

def fanInIndirect : String := "The fan draw mode is not supported in indirect draws."

def fanWithMap : String :=
  "The 'fan' Mesh draw mode cannot be used with an index buffer / vertex map."

namespace MeshDraw

/-- `setDrawRange`, with two `int`s. -/
def setDrawRange (start count : Int) (m : MeshDraw) : Except String MeshDraw :=
  if start < 0 ∨ count ≤ 0 then .error invalidDrawRange
  else .ok { m with drawRange := .ofSize start.toNat count.toNat }

/-- `setDrawRange`, without arguments. -/
def resetDrawRange (m : MeshDraw) : MeshDraw := { m with drawRange := .invalid }

def getDrawRange (m : MeshDraw) : Option (Int × Int) :=
  if m.drawRange.isValid then
    some (wrapInt m.drawRange.getOffset, wrapInt m.drawRange.getSize)
  else none

end MeshDraw

/-! ## Draws -/

structure DrawIndexedCommand where
  primitiveType : PrimitiveType
  indexType : IndexDataType
  instanceCount : Int
  indexBuffer : IndexBuffer
  indexBufferOffset : Nat
  indexCount : Int
  indirectBufferOffset : Nat

structure DrawCommand where
  primitiveType : PrimitiveType
  vertexStart : Int
  vertexCount : Int
  instanceCount : Int
  indirectBufferOffset : Nat

/-- What `drawInternal` ends with. -/
inductive DrawOutcome
  | throws (message : String)
  | undefined
  | nothing
  | indexed (cmd : DrawIndexedCommand)
  | plain (cmd : DrawCommand)

/-- What `drawInternal` is given; of the buffer for indirect draws, its stride. What
the checks that are not its own throw is given as well: `validateIndirectArgsBuffer`,
for indices or for vertices, and `validateDrawState`. -/
structure DrawArgs where
  instancecount : Int
  indirectargs : Option Nat
  argsindex : Int
  validateIndirect : Bool → Option String
  validateDrawState : Option String

/-- The index count of a fan, where it is an `int`. -/
def fanIndexCount (vertexCount : Int) : Option Int :=
  if - 2 ^ 31 ≤ 3 * (vertexCount - 2) ∧ 3 * (vertexCount - 2) < 2 ^ 31 then
    some (getIndexCount .fan vertexCount)
  else none

/-- `indexbuffer`, `indexcount` and `range`. -/
structure DrawSource where
  indexbuffer : Option IndexBuffer
  indexcount : Int
  range : Range

namespace MeshDraw

/-- The index buffer of the mesh, if it is to be used. -/
def ownIndexBuffer (m : MeshDraw) : Option IndexBuffer :=
  if m.useIndexBuffer then m.indexBuffer else none

/-- What `drawInternal` throws. -/
def drawError (m : MeshDraw) (args : DrawArgs) : Option String :=
  if args.indirectargs.isSome ∧ m.primitiveType = .triangleFan then some fanInIndirect
  else
    (if args.indirectargs.isSome then args.validateIndirect m.ownIndexBuffer.isSome else none).or
    ((if m.primitiveType = .triangleFan ∧ m.ownIndexBuffer.isSome then some fanWithMap
      else none).or args.validateDrawState)

/-- Where the indices come from, with `fanIndexBuffer` of the backend. -/
def drawSource (fanIndexBuffer : Option IndexBuffer) (m : MeshDraw) : Option DrawSource :=
  match m.ownIndexBuffer, fanIndexBuffer with
  | none, some fan =>
    if m.primitiveType = .triangleFan then do
      let indexcount ← fanIndexCount m.vertexCount
      if m.drawRange.isValid then
        let start ← fanIndexCount (wrapInt m.drawRange.getOffset)
        let count ← fanIndexCount (wrapInt m.drawRange.getSize)
        some ⟨some fan, indexcount, .ofSize (sizeT start) (sizeT count)⟩
      else some ⟨some fan, indexcount, m.drawRange⟩
    else some ⟨none, wrapInt m.indexCount, m.drawRange⟩
  | own, _ => some ⟨own, wrapInt m.indexCount, m.drawRange⟩

end MeshDraw

/-- `Range r(0, count)`, with `range` taken from it. -/
def clipRange (count : Nat) (range : Range) : Range :=
  if range.isValid then (Range.ofSize 0 count).intersect range else .ofSize 0 count

/-- `(int) r.getSize()`, also where the range ends before it begins. -/
def sizeAsInt (r : Range) : Int := wrapInt (sizeT ((r.last : Int) - r.first + 1))

namespace MeshDraw

/-- `cmd.indirectBufferOffset` -/
def indirectOffset (args : DrawArgs) : Nat :=
  match args.indirectargs with
  | none => 0
  | some stride => sizeT (args.argsindex * stride)

/-- `Mesh::drawInternal` -/
def drawInternal (fanIndexBuffer : Option IndexBuffer) (m : MeshDraw) (args : DrawArgs) :
    DrawOutcome :=
  if m.vertexCount = 0 ∨ (args.instancecount ≤ 0 ∧ args.indirectargs = none) then .nothing
  else
    match m.drawError args, m.drawSource fanIndexBuffer with
    | some message, _ => .throws message
    | none, none => .undefined
    | none, some source =>
      match source.indexbuffer with
      | some buffer =>
        if 0 < source.indexcount ∨ args.indirectargs.isSome then
          let r := clipRange (sizeT source.indexcount) source.range
          if 0 < sizeAsInt r then .indexed {
            primitiveType := m.primitiveType
            indexType := m.indexDataType
            instanceCount := args.instancecount
            indexBuffer := buffer
            indexBufferOffset := r.getOffset * buffer.format.size % 2 ^ 64
            indexCount := sizeAsInt r
            indirectBufferOffset := indirectOffset args }
          else .nothing
        else plainDraw source.range
      | none => plainDraw source.range
where
  /-- The draw without indices. -/
  plainDraw (range : Range) : DrawOutcome :=
    let r := clipRange m.vertexCount range
    if 0 < sizeAsInt r then .plain {
      primitiveType := m.primitiveType
      vertexStart := wrapInt r.getOffset
      vertexCount := sizeAsInt r
      instanceCount := args.instancecount
      indirectBufferOffset := indirectOffset args }
    else .nothing

end MeshDraw

/-- `LOVE_UINT16_MAX` -/
def uint16Max : Nat := 65535

/-- `createFanIndexBuffer`, as far as memory goes. -/
def createFanIndexBuffer : IndexBuffer where
  data := {
    size := 2 * (getIndexCount .fan uint16Max).toNat
    usage := .static
    bytes a := (((fillIndices .fan 0 (.ofNat 16 uint16Max)).flatMap (storeLE 2)).map
      UInt8.ofBitVec).getD a 0 }
  format := .uint16
  arrayLength := (getIndexCount .fan uint16Max).toNat
  index := true

/-! ## Triangles -/

/-- The corners of a triangle are vertices of the mesh, by their number. -/
structure Corners where
  a : Int
  b : Int
  c : Int
  deriving DecidableEq

/-- A triangle that covers something. -/
def Corners.Proper (t : Corners) : Prop := t.a ≠ t.b ∧ t.a ≠ t.c ∧ t.b ≠ t.c

instance (t : Corners) : Decidable t.Proper := inferInstanceAs (Decidable (_ ∧ _ ∧ _))

/-- Each three vertices are a triangle. -/
def trianglesOf : List Int → List Corners
  | a :: b :: c :: rest => ⟨a, b, c⟩ :: trianglesOf rest
  | _ => []

/-- Each two neighbours are a triangle with the center. -/
def fanAround (center : Int) : List Int → List Corners
  | a :: b :: rest => ⟨center, a, b⟩ :: fanAround center (b :: rest)
  | _ => []

/-- A native fan: the first vertex is the center. -/
def fanOf : List Int → List Corners
  | [] => []
  | center :: rest => fanAround center rest

/-- How a backend assembles the vertices of a draw in the fan mode. -/
inductive FanTopology
  | triangleList
  | triangleFan
  deriving DecidableEq

def FanTopology.assemble (vertices : List Int) : FanTopology → List Corners
  | .triangleList => (trianglesOf vertices).filter (·.Proper)
  | .triangleFan => (fanOf vertices).filter (·.Proper)

/-- `count` vertices from `start` on. -/
def verticesFrom (start : Int) (count : Nat) : List Int :=
  (List.range count).map fun (i : Nat) => start + i

/-- The indices that a draw reads, if there are that many. -/
def DrawIndexedCommand.indices (cmd : DrawIndexedCommand) : Option (List Nat) :=
  if cmd.indexBufferOffset + cmd.indexCount.toNat * cmd.indexType.size ≤ cmd.indexBuffer.data.size
  then some (readIndices (fun a => cmd.indexBuffer.data.bytes (cmd.indexBufferOffset + a))
    cmd.indexType cmd.indexCount.toNat)
  else none

/-- The triangles of a draw in the fan mode, if it is a defined one. -/
def DrawOutcome.triangles (topology : FanTopology) : DrawOutcome → Option (List Corners)
  | .nothing => some []
  | .plain cmd => some (topology.assemble (verticesFrom cmd.vertexStart cmd.vertexCount.toNat))
  | .indexed cmd => cmd.indices.map fun indices => topology.assemble (indices.map Int.ofNat)
  | _ => none

/-- The fan over the vertices of the draw range that the mesh has. -/
def MeshDraw.nativeFan (m : MeshDraw) : List Corners :=
  match m.getDrawRange with
  | none => fanOf (verticesFrom 0 m.vertexCount)
  | some (start, count) =>
    fanOf (verticesFrom start (min (m.vertexCount : Int) (start + count) - start).toNat)

end Lhatove.Graphics
