import Lhatove.Lib.Cells
import Lhatove.Lib.Transition

/-!
# Batched drawing

`Graphics::requestBatchedDraw` and `flushBatchedDraws`: draws that have the same
state are put behind each other in stream buffers, and issued as one when
something else has to be drawn.

The caller of a request fills the memory that it is given before anything else
is drawn. A stream buffer is the section of it that the current frame may write;
a draw has the vertices and indices that the buffers hold when it is issued.
`int` is 32 bits wide and wraps, `size_t` is 64.
-/

namespace Lhatove.Graphics

inductive PrimitiveType
  | triangles
  | triangleStrip
  | triangleFan
  | points
  deriving DecidableEq

inductive TriangleIndexMode
  | none
  | strip
  | fan
  | quads
  deriving DecidableEq

inductive CommonFormat
  | none
  | XYf
  | XYZf
  | RGBAub
  | STf_RGBAub
  | STPf_RGBAub
  | XYf_STf
  | XYf_STPf
  | XYf_STf_RGBAub
  | XYf_STus_RGBAub
  | XYf_STPf_RGBAub
  deriving DecidableEq

inductive StandardShader
  | default
  | video
  | array
  | points
  deriving DecidableEq

def getFormatStride : CommonFormat → Nat
  | .none => 0
  | .XYf => 8
  | .XYZf => 12
  | .RGBAub => 4
  | .STf_RGBAub => 12
  | .STPf_RGBAub => 16
  | .XYf_STf => 16
  | .XYf_STPf => 20
  | .XYf_STf_RGBAub => 20
  | .XYf_STus_RGBAub => 16
  | .XYf_STPf_RGBAub => 24

/-! ## Numbers -/

/-- An `int`, after it wrapped. -/
def wrapInt (n : Int) : Int := n.bmod (2 ^ 32)

/-- A number as `size_t`. -/
def sizeT (n : Int) : Nat := (n % 2 ^ 64).toNat

abbrev Index := BitVec 16

def getIndexCount (mode : TriangleIndexMode) (vertexCount : Int) : Int :=
  match mode with
  | .none => 0
  | .strip => wrapInt (3 * wrapInt (vertexCount - 2))
  | .fan => wrapInt (3 * wrapInt (vertexCount - 2))
  | .quads => (wrapInt (vertexCount * 6)).tdiv 4

/-- `fillIndices` for `uint16`: what is written from `indices[0]` on. -/
def fillIndices (mode : TriangleIndexMode) (vertexStart vertexCount : Index) : List Index :=
  match mode with
  | .none => []
  | .strip => (List.range (vertexCount.toNat - 2)).flatMap fun index =>
      [vertexStart + .ofNat 16 index, vertexStart + .ofNat 16 (index + 1 + index % 2),
        vertexStart + .ofNat 16 (index + 2 - index % 2)]
  | .fan => (List.range' 2 (vertexCount.toNat - 2)).flatMap fun index =>
      [vertexStart, vertexStart + .ofNat 16 (index - 1), vertexStart + .ofNat 16 index]
  | .quads => (List.range (vertexCount.toNat / 4)).flatMap fun i =>
      let vi := vertexStart + .ofNat 16 (i * 4)
      [vi, vi + 1, vi + 2, vi + 2, vi + 1, vi + 3]

/-! ## Stream buffers -/

/-- A `StreamBuffer`, of `size` bytes. `offset` is its `frameGPUReadOffset`,
which client memory never moves: its `advances` is false. -/
structure StreamBuffer (α : Type) where
  size : Nat
  offset : Nat
  advances : Bool
  memory : Nat → α

/-- `StreamBuffer::MapInfo`, with the address of `data` in the section. -/
structure MapInfo where
  data : Nat
  size : Nat

namespace StreamBuffer

variable {α : Type}

def getUsableSize (b : StreamBuffer α) : Nat := b.size - b.offset

def map (b : StreamBuffer α) : MapInfo := ⟨b.offset, b.size - b.offset⟩

def markUsed (usedsize : Nat) (b : StreamBuffer α) : StreamBuffer α :=
  if b.advances then { b with offset := b.offset + usedsize } else b

/-- `newStreamBuffer`, in the place of another; its memory holds anything, as
far as the draws go. No buffer is larger than memory can be. -/
def renew (room : Bool) (size : Nat) (b : StreamBuffer α) : Option (StreamBuffer α) :=
  if room && decide (size < 2 ^ 63) then some { b with size, offset := 0 } else none

/-- Bytes that the caller puts where it was told. -/
def fill (address : Option Nat) (data : List α) (b : StreamBuffer α) : StreamBuffer α :=
  match address with
  | none => b
  | some address => { b with memory := writeCells b.memory b.size address data }

end StreamBuffer

/-! ## Draws -/

variable {Texture : Type}

/-- What all draws of a batch have in common. -/
structure Modes (Texture : Type) where
  primitiveMode : PrimitiveType
  indexedDraw : Bool
  formats : Fin 2 → CommonFormat
  texture : Option Texture
  standardShaderType : StandardShader
  deriving DecidableEq

/-- `BatchedDrawCommand`. -/
structure BatchedDrawCommand (Texture : Type) where
  primitiveMode : PrimitiveType
  formats : Fin 2 → CommonFormat
  indexMode : TriangleIndexMode
  vertexCount : Int
  texture : Option Texture
  standardShaderType : StandardShader

def BatchedDrawCommand.modes (cmd : BatchedDrawCommand Texture) : Modes Texture :=
  ⟨cmd.primitiveMode, cmd.indexMode ≠ .none, cmd.formats, cmd.texture, cmd.standardShaderType⟩

/-- A draw as it is issued: a `DrawCommand` or a `DrawIndexedCommand`, with what
its buffers hold for it. -/
structure GpuDraw (Texture : Type) where
  modes : Modes Texture
  vertexCount : Int
  streams : Fin 2 → List (BitVec 8)
  indices : List Index

/-- `BatchedDrawState`, and the draws issued so far. -/
structure BatchedDrawState (Texture : Type) where
  vb : Fin 2 → StreamBuffer (BitVec 8)
  indexBuffer : StreamBuffer Index
  modes : Modes Texture
  vertexCount : Int
  indexCount : Int
  vbMap : Fin 2 → Option MapInfo
  indexBufferMap : Option MapInfo
  draws : List (GpuDraw Texture)

namespace BatchedDrawState

/-- `Graphics::setMode`, with what the memory of the buffers happens to hold. -/
def start (advances : Bool) (bytes : Nat → BitVec 8) (indices : Nat → Index) :
    BatchedDrawState Texture where
  vb i := ⟨if i = 0 then 1024 * 1024 else 256 * 1024, 0, advances, bytes⟩
  indexBuffer := ⟨2 * 65535, 0, advances, indices⟩
  modes := ⟨.triangles, false, fun _ => .none, none, .default⟩
  vertexCount := 0
  indexCount := 0
  vbMap _ := none
  indexBufferMap := none
  draws := []

/-- `usedsizes[i]` for the vertices. -/
def usedSize (s : BatchedDrawState Texture) (i : Fin 2) : Nat :=
  sizeT (getFormatStride (s.modes.formats i) * s.vertexCount)

/-- `usedsizes[2]`. -/
def usedIndexSize (s : BatchedDrawState Texture) : Nat := sizeT (2 * s.indexCount)

/-- The draw that a flush issues. -/
def batchedDraw (s : BatchedDrawState Texture) : GpuDraw Texture where
  modes := s.modes
  vertexCount := s.vertexCount
  streams i :=
    if s.modes.formats i = .none then []
    else readCells (s.vb i).memory (s.vb i).offset (s.usedSize i)
  indices :=
    if s.modes.indexedDraw then
      readCells s.indexBuffer.memory (s.indexBuffer.offset / 2) s.indexCount.toNat
    else []

/-- `Graphics::flushBatchedDraws`. Without any vertex attribute it stops before
it draws. (`flushing` only keeps what `draw` calls from flushing again.) -/
def flushBatchedDraws (s : BatchedDrawState Texture) : BatchedDrawState Texture :=
  if s.vertexCount = 0 ∧ s.indexCount = 0 then s
  else
    let unmapped : BatchedDrawState Texture :=
      { s with vbMap := fun i => if s.modes.formats i = .none then s.vbMap i else none }
    if ∀ i, s.modes.formats i = .none then unmapped
    else
      { unmapped with
        draws := s.draws ++ [s.batchedDraw]
        vb := fun i =>
          if s.modes.formats i = .none then s.vb i else (s.vb i).markUsed (s.usedSize i)
        indexBuffer :=
          if s.modes.indexedDraw then s.indexBuffer.markUsed s.usedIndexSize else s.indexBuffer
        indexBufferMap := if s.modes.indexedDraw then none else s.indexBufferMap
        vertexCount := 0
        indexCount := 0 }

variable [DecidableEq Texture]

/-! ## Requests -/

section Request

variable (cmd : BatchedDrawCommand Texture) (s : BatchedDrawState Texture)

/-- The bytes of stream `i`, with the vertices that there are already. -/
def dataSize (i : Fin 2) : Nat :=
  sizeT (getFormatStride (cmd.formats i) * wrapInt (s.vertexCount + cmd.vertexCount))

/-- The bytes of the indices, with those that there are already. -/
def indexDataSize : Nat :=
  sizeT (2 * wrapInt (s.indexCount + getIndexCount cmd.indexMode cmd.vertexCount))

/-- `newdatasizes[i]`. -/
def newDataSize (i : Fin 2) : Nat :=
  if cmd.formats i = .none then 0 else sizeT (getFormatStride (cmd.formats i) * cmd.vertexCount)

/-- `reqIndexSize`. -/
def reqIndexSize : Nat := sizeT (2 * getIndexCount cmd.indexMode cmd.vertexCount)

/-- `buffersizes[i]` for the vertices. -/
def bufferSize (i : Fin 2) : Nat :=
  if cmd.formats i ≠ .none ∧ dataSize cmd s i > (s.vb i).getUsableSize then
    max (dataSize cmd s i) ((s.vb i).size * 2)
  else 0

/-- `buffersizes[2]`. -/
def indexBufferSize : Nat :=
  if cmd.indexMode ≠ .none ∧ indexDataSize cmd s > s.indexBuffer.getUsableSize then
    max (indexDataSize cmd s) (s.indexBuffer.size * 2)
  else 0

def shouldFlush : Bool :=
  decide (cmd.modes ≠ s.modes) ||
    (decide (wrapInt (s.vertexCount + cmd.vertexCount) > 65535) &&
      decide (cmd.indexMode ≠ .none)) ||
    decide (∃ i, cmd.formats i ≠ .none ∧ ∃ m ∈ s.vbMap i, dataSize cmd s i > m.size) ||
    decide (cmd.indexMode ≠ .none ∧ ∃ m ∈ s.indexBufferMap, indexDataSize cmd s > m.size)

def shouldResize : Bool :=
  decide (∃ i, cmd.formats i ≠ .none ∧ dataSize cmd s i > (s.vb i).getUsableSize) ||
    decide (cmd.indexMode ≠ .none ∧ indexDataSize cmd s > s.indexBuffer.getUsableSize)

/-- The flush before the request's vertices, if there is to be one. -/
def flushFor : BatchedDrawState Texture :=
  if shouldFlush cmd s || shouldResize cmd s then { s.flushBatchedDraws with modes := cmd.modes }
  else s

end Request

/-- A larger buffer in the place of one that is smaller than `size`. -/
def grow {α : Type} (room : Bool) (size : Nat) (b : StreamBuffer α) : Option (StreamBuffer α) :=
  if b.size < size then b.renew room size else some b

/-- The buffers, grown. `sizes` are the `buffersizes` from before the flush. -/
def resize (room : Bool) (sizes : Fin 2 → Nat) (indexSize : Nat) (s : BatchedDrawState Texture) :
    Option (BatchedDrawState Texture) :=
  match grow room (sizes 0) (s.vb 0), grow room (sizes 1) (s.vb 1),
    grow room indexSize s.indexBuffer with
  | some vb₀, some vb₁, some indexBuffer =>
    some { s with vb := fun i => if i = 0 then vb₀ else vb₁, indexBuffer }
  | _, _, _ => none

/-- The indices that `fillIndices` writes for a request. -/
def newIndices (cmd : BatchedDrawCommand Texture) (s : BatchedDrawState Texture) : List Index :=
  fillIndices cmd.indexMode (.ofInt 16 s.vertexCount) (.ofInt 16 cmd.vertexCount)

/-- The indices of a request written, and the streams mapped for its vertices:
where the caller is to put them. -/
def append (cmd : BatchedDrawCommand Texture) (s : BatchedDrawState Texture) :
    (Fin 2 → Option Nat) × BatchedDrawState Texture :=
  let indexMap := s.indexBufferMap.getD s.indexBuffer.map
  let maps := fun i => (s.vbMap i).getD (s.vb i).map
  let indexed : BatchedDrawState Texture :=
    if cmd.indexMode = .none then s
    else
      { s with
        indexBuffer :=
          { s.indexBuffer with
            memory := writeCells s.indexBuffer.memory (s.indexBuffer.size / 2) (indexMap.data / 2)
              (newIndices cmd s) }
        indexBufferMap := some ⟨sizeT (indexMap.data + reqIndexSize cmd), indexMap.size⟩ }
  (fun i => if 0 < newDataSize cmd i then some (maps i).data else none,
    { indexed with
      vbMap := fun i =>
        if 0 < newDataSize cmd i then
          some ⟨sizeT ((maps i).data + newDataSize cmd i), (maps i).size⟩
        else s.vbMap i
      vertexCount := wrapInt (s.vertexCount + cmd.vertexCount)
      indexCount := wrapInt (s.indexCount + getIndexCount cmd.indexMode cmd.vertexCount) })

/-- How a request ends: with memory for the vertices, and the indices that were
written for it, or thrown out by `validateDrawState`. -/
inductive Outcome (Texture : Type)
  | requested (stream : Fin 2 → Option Nat) (indices : List Index) (s : BatchedDrawState Texture)
  | refused (s : BatchedDrawState Texture)

/-- `Graphics::requestBatchedDraw`. `valid` is whether `validateDrawState` lets
it pass, `room` whether `newStreamBuffer` succeeds; `none` when it does not,
which leaves a buffer that was released in the state. -/
def requestBatchedDraw (cmd : BatchedDrawCommand Texture) (valid room : Bool)
    (s : BatchedDrawState Texture) : Option (Outcome Texture) :=
  let flushed := flushFor cmd s
  if flushed.vertexCount = 0 ∧ !valid then some (.refused flushed)
  else if shouldResize cmd s then
    match resize room (bufferSize cmd s) (indexBufferSize cmd s) flushed with
    | none => none
    | some resized =>
      some (.requested (append cmd resized).1 (newIndices cmd resized) (append cmd resized).2)
  else some (.requested (append cmd flushed).1 (newIndices cmd flushed) (append cmd flushed).2)

/-- The caller puts its vertices where it was told. -/
def fillStreams (stream : Fin 2 → Option Nat) (data : Fin 2 → List (BitVec 8))
    (s : BatchedDrawState Texture) : BatchedDrawState Texture :=
  { s with vb := fun i => (s.vb i).fill (stream i) (data i) }

end BatchedDrawState

/-! ## Steps -/

/-- A request, and the vertices that its caller has for each stream. -/
structure Request (Texture : Type) where
  cmd : BatchedDrawCommand Texture
  data : Fin 2 → List (BitVec 8)
  data_length : ∀ i, ((data i).length : Int) = getFormatStride (cmd.formats i) * cmd.vertexCount

inductive BatchOp (Texture : Type)
  | request (r : Request Texture) (valid room : Bool)
  | flush

/-- A request that was met, and the indices that were written for it. -/
structure Met (Texture : Type) extends Request Texture where
  indices : List Index

/-- The state, and the requests that were met. -/
structure Batching (Texture : Type) where
  state : BatchedDrawState Texture
  requests : List (Met Texture)

namespace Batching

variable [DecidableEq Texture]

def step (b : Batching Texture) : BatchOp Texture → Option (Batching Texture)
  | .request r valid room =>
    match b.state.requestBatchedDraw r.cmd valid room with
    | none => none
    | some (.refused s) => some { b with state := s }
    | some (.requested stream indices s) =>
      some ⟨s.fillStreams stream r.data, b.requests ++ [⟨r, indices⟩]⟩
  | .flush => some { b with state := b.state.flushBatchedDraws }

/-- Requests and flushes, in any order. -/
def batching : System (Batching Texture) (BatchOp Texture) :=
  System.ofStep
    (fun b => ∃ advances bytes indices, b = ⟨BatchedDrawState.start advances bytes indices, []⟩) step

end Batching

end Lhatove.Graphics
