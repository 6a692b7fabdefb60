import Lhatove.Graphics.MeshUploads
import Lhatove.Graphics.SpriteBatchRuns

/-!
# Runs of a mesh and its uploads

- `VerticesReady`, `IndicesReady`: the invariant; bytes that were not modified are
  in the buffer as they are in memory;
- `copyToIndexBuffer_spec`: indices that are copied are read back;
- `mesh_uploads`: all runs in which no empty list is written to the first vertex,
  and vertex maps are valid.
-/

namespace Lhatove.Graphics

open OwnedMesh List

/-! ## Indices in memory -/

theorem IndexDataType.size_pos (type : IndexDataType) : 0 < type.size := by
  cases type <;> decide

theorem IndexDataType.size_le (type : IndexDataType) : type.size ≤ 4 := by
  cases type <;> decide

theorem indexBytes_length (width : Nat) (index : UInt32) : (indexBytes width index).length = width := by
  rw [indexBytes, length_map, storeLE_length]

theorem map_toBitVec_indexBytes (width : Nat) (index : UInt32) :
    (indexBytes width index).map UInt8.toBitVec = storeLE width index.toBitVec := by
  rw [indexBytes, map_map]
  exact map_id _

theorem loadLE_storeLE_of_lt {n : Nat} {word : BitVec 32} (hn : 8 * n ≤ 32)
    (h : word.toNat < 2 ^ (8 * n)) : loadLE 32 (storeLE n word) = word := by
  refine BitVec.eq_of_getLsbD_eq fun i hi => ?_
  rw [loadLE_getLsbD _ _ hi]
  by_cases hin : i < 8 * n
  · rw [storeLE_getD_getLsbD _ (by omega) (by omega)]
    congr 1
    omega
  · have hnone : (storeLE n word).getD (i / 8) 0 = 0 :=
      getD_eq_default _ _ (by rw [storeLE_length]; omega)
    have hzero : word.getLsbD i = false :=
      Nat.testBit_lt_two_pow (lt_of_lt_of_le h (Nat.pow_le_pow_right (by decide) (by omega)))
    rw [hnone, hzero]
    exact BitVec.getLsbD_zero

variable {memory memory' : Nat → UInt8} {width : Nat}

theorem readIndex_congr {position : Nat}
    (h : ∀ a, position * width ≤ a → a < (position + 1) * width → memory a = memory' a) :
    readIndex memory width position = readIndex memory' width position := by
  rw [readIndex, readIndex]
  congr 3
  refine map_congr_left fun k hk => h _ (Nat.le_add_right ..) ?_
  rw [Nat.succ_mul]
  have hk := mem_range.mp hk
  omega

variable {type : IndexDataType}

theorem readIndices_congr {count : Nat} (h : ∀ a < count * type.size, memory a = memory' a) :
    readIndices memory type count = readIndices memory' type count := by
  refine map_congr_left fun position hposition => readIndex_congr fun a _ ha => h a ?_
  have hposition := mem_range.mp hposition
  exact lt_of_lt_of_le ha (Nat.mul_le_mul_right _ hposition)

/-! ## Copies of vertex maps -/

/-- **Indices that are copied** are read back; those before them are as they were. -/
theorem copyToIndexBuffer_spec {maxval : Nat} (hwidth : width ≤ 4) {map : List UInt32}
    (hmap : ∀ index ∈ map, index.toNat < maxval)
    (hfit : ∀ index ∈ map, index.toNat < 2 ^ (8 * width)) (position : Nat) (block : Block)
    (hroom : (position + map.length) * width ≤ block.size) :
    ∃ block', copyToIndexBuffer width maxval map position block = (none, block') ∧
      block'.size = block.size ∧
      (∀ a < position * width, block'.bytes a = block.bytes a) ∧
      ∀ k (hk : k < map.length), readIndex block'.bytes width (position + k) = map[k].toNat := by
  induction map generalizing position block with
  | nil => exact ⟨block, rfl, rfl, fun _ _ => rfl, nofun⟩
  | cons index map ih =>
    have hindex := hmap index mem_cons_self
    have hlength := indexBytes_length width index
    rw [length_cons] at hroom
    have hnext : (position + 1) * width ≤ (position + (map.length + 1)) * width :=
      Nat.mul_le_mul_right _ (by omega)
    have hsucc := Nat.succ_mul position width
    rw [Nat.succ_eq_add_one] at hsucc
    obtain ⟨block', hcopy, hsize, hbefore, hread⟩ := ih
      (fun i hi => hmap i (mem_cons_of_mem _ hi))
      (fun i hi => hfit i (mem_cons_of_mem _ hi)) (position + 1)
      (copyBytes block (position * width) (indexBytes width index))
      (by rw [show position + 1 + map.length = position + (map.length + 1) by omega]; exact hroom)
    refine ⟨block', ?_, hsize, ?_, ?_⟩
    · rw [copyToIndexBuffer, if_neg (not_le.mpr hindex)]
      exact hcopy
    · intro a ha
      rw [hbefore a (by omega)]
      exact writeCells_of_outside (.inl ha)
    · intro k hk
      cases k with
      | zero =>
        -- The copies that follow leave this index as it was written.
        have hwritten : readCells block'.bytes (position * width) width = indexBytes width index := by
          have hread := @readCells_writeCells _ block.bytes block.size (position * width)
            (indexBytes width index) (by omega)
          rw [hlength] at hread
          rw [← hread]
          refine map_congr_left fun k hk => hbefore _ ?_
          have hk := mem_range.mp hk
          omega
        rw [Nat.add_zero, readIndex, hwritten, map_toBitVec_indexBytes,
          loadLE_storeLE_of_lt (by omega) (hfit index mem_cons_self)]
        rfl
      | succ k =>
        rw [show position + (k + 1) = position + 1 + k by omega]
        exact hread k (Nat.lt_of_succ_lt_succ hk)

/-! ## The invariant -/

/-- The vertices that were not modified are in the buffer as they are in memory. -/
structure VerticesReady (m : OwnedMesh) : Prop where
  count_pos : 0 < m.vertexCount
  data_size : m.vertexData.size = m.vertexCount * vertexSize
  data_lt : m.vertexData.size < 2 ^ 63
  buffer_size : m.vertexBuffer.size = m.vertexData.size
  usage : m.vertexBuffer.usage ≠ .readback
  last_lt : m.vertexBuffer.usage ≠ .stream → m.modifiedVertexData.last < m.vertexData.size
  agrees : ∀ a < m.vertexData.size, ¬ m.modifiedVertexData.Mem a →
    m.vertexBuffer.bytes a = m.vertexData.bytes a

/-- Memory for indices with a buffer that may be filled from it. -/
structure IndexRoom (block : Block) (buffer : IndexBuffer) : Prop where
  size_pos : 0 < buffer.data.size
  size_lt : buffer.data.size ≤ 2 ^ 64
  size_le : buffer.data.size ≤ block.size
  usage : buffer.data.usage ≠ .readback

/-- A vertex map that is in memory is the one that was set last, and in the buffer
unless it was modified. -/
structure Mapped (m : OwnedMesh) (lastMap : List Nat) (block : Block) (buffer : IndexBuffer) : Prop
    extends IndexRoom block buffer where
  room : m.useIndexBuffer = true → m.indexCount * m.indexDataType.size ≤ buffer.data.size
  map : m.useIndexBuffer = true →
    readIndices block.bytes m.indexDataType m.indexCount = lastMap
  agrees : m.useIndexBuffer = true → m.indexDataModified = false →
    ∀ a < m.indexCount * m.indexDataType.size, buffer.data.bytes a = block.bytes a

def IndicesReady (m : OwnedMesh) (lastMap : List Nat) : Prop :=
  ∀ block, m.indexData = some block →
    ∃ buffer, m.indexBuffer = some buffer ∧ Mapped m lastMap block buffer

structure MeshReady (s : MeshRun) : Prop where
  vertices : VerticesReady s.mesh
  indices : IndicesReady s.mesh s.lastMap

/-! ## Flushes of vertices -/

variable {m : OwnedMesh} {offset : Nat}

theorem VerticesReady.upload_le (hm : VerticesReady m) {n : Nat}
    (h : m.vertexUpload = some (offset, n)) :
    0 < n ∧ offset + n ≤ m.vertexData.size ∧ offset + n ≤ m.vertexBuffer.size := by
  have hpos := hm.count_pos
  have hsize := hm.data_size
  have hlt := hm.data_lt
  rw [vertexSize] at hsize
  rw [hm.buffer_size]
  rw [vertexUpload, hm.buffer_size] at h
  split_ifs at h with hvalid hstream
  · cases h
    omega
  · cases h
    have hlast := hm.last_lt hstream
    have hfirst := Range.isValid_iff.mp hvalid
    rw [Range.getOffset, Range.getSize]
    omega

/-- **A flush** leaves the vertices in the buffer as they are in memory. -/
theorem VerticesReady.flushVertices_agrees (hm : VerticesReady m) {a : Nat}
    (ha : a < m.vertexData.size) : m.flushVertices.vertexBuffer.bytes a = m.vertexData.bytes a := by
  rw [flushVertices]
  cases hupload : m.vertexUpload with
  | none =>
    refine hm.agrees a ha (mem_invalid ?_)
    rw [vertexUpload] at hupload
    split_ifs at hupload with hvalid
    exact (Bool.not_eq_true _).mp hvalid
  | some interval =>
    obtain ⟨offset, n⟩ := interval
    obtain ⟨hn, -, hbuffer⟩ := hm.upload_le hupload
    have hlt := hm.data_lt
    have hbound : m.vertexBuffer.size ≤ 2 ^ 64 := by
      rw [hm.buffer_size]
      omega
    dsimp only
    rw [ArrayBuffer.fill_eq hn hm.usage hbound hbuffer]
    dsimp only
    by_cases hin : offset ≤ a ∧ a < offset + n
    · rw [writeCells_readCells hbuffer hin.1 hin.2, zero_add, Nat.add_sub_cancel' hin.1]
    · -- The byte is not in the upload, so it was not modified.
      rw [writeCells_of_outside (by rw [readCells_length]; omega)]
      refine hm.agrees a ha fun hmem => hin ?_
      rw [vertexUpload, if_pos (Range.isValid_of_mem hmem)] at hupload
      split_ifs at hupload with hstream
      · cases hupload
        rw [hm.buffer_size]
        omega
      · cases hupload
        have hlast := hm.last_lt hstream
        obtain ⟨hfirst, hend⟩ := hmem
        rw [Range.getOffset, Range.getSize]
        omega

theorem VerticesReady.flushVertices (hm : VerticesReady m) : VerticesReady m.flushVertices := by
  have hagrees : ∀ a < m.vertexData.size, m.flushVertices.vertexBuffer.bytes a =
      m.vertexData.bytes a := fun _ => hm.flushVertices_agrees
  rw [OwnedMesh.flushVertices] at hagrees ⊢
  cases hupload : m.vertexUpload with
  | none => exact hm
  | some interval =>
    rw [hupload] at hagrees
    obtain ⟨hn, -, hbuffer⟩ := hm.upload_le hupload
    have hlt := hm.data_lt
    have hbound : m.vertexBuffer.size ≤ 2 ^ 64 := by
      rw [hm.buffer_size]
      omega
    dsimp only at hagrees ⊢
    rw [ArrayBuffer.fill_eq hn hm.usage hbound hbuffer] at hagrees ⊢
    refine { hm with last_lt := ?_, agrees := fun a ha _ => hagrees a ha }
    intro _
    have hpos := hm.count_pos
    rw [hm.data_size]
    exact Nat.mul_pos hpos (by decide)

/-! ## Writes of vertices -/

theorem flatMap_bytes_length (vertices : List Vertex) :
    (vertices.flatMap Vertex.bytes).length = vertices.length * vertexSize := by
  induction vertices with
  | nil => rfl
  | cons v vertices ih =>
    rw [flatMap_cons, length_append, length_cons, ih, v.length_bytes, vertexSize]
    omega

/-- **Vertices that are written** are modified; an empty list is written to the
first vertex only if the whole buffer is uploaded. -/
theorem VerticesReady.write (hm : VerticesReady m) {data : List UInt8}
    (hend : offset + data.length ≤ m.vertexData.size)
    (hempty : m.vertexBuffer.usage ≠ .stream → 0 < offset + data.length) :
    VerticesReady ((m.writeVertexData offset data).setVertexDataModified offset data.length) := by
  have hlt := hm.data_lt
  refine ⟨hm.count_pos, hm.data_size, hlt, hm.buffer_size, hm.usage, ?_, ?_⟩
  · intro hstream
    exact Range.encapsulateBytes_last_lt (hm.last_lt hstream) (le_of_lt (lt_trans hlt (by decide)))
      hend (hempty hstream)
  · intro a ha hmem
    have hout : a < offset ∨ offset + data.length ≤ a := by
      by_contra hin
      rw [not_or, not_lt, not_le] at hin
      exact hmem (Range.encapsulateBytes_mem _ (le_trans hend (le_of_lt (lt_trans hlt (by decide))))
        hin.1 hin.2)
    refine .trans ?_ (writeCells_of_outside hout).symm
    exact hm.agrees a ha fun hin => hmem (hin.encapsulateBytes _ _)

theorem checkVertexDataOffset_spec {vertindex : Nat}
    (h : m.checkVertexDataOffset vertindex = .ok offset) :
    vertindex < m.vertexCount ∧ offset = vertindex * vertexSize := by
  rw [checkVertexDataOffset] at h
  split_ifs at h with hinvalid
  cases h
  exact ⟨not_le.mp hinvalid, rfl⟩

variable {m' : OwnedMesh}

theorem VerticesReady.setVertex (hm : VerticesReady m) {index : UInt64} {v : Vertex}
    (h : m.setVertex index v = .ok m') : VerticesReady m' := by
  rw [OwnedMesh.setVertex] at h
  split at h
  · cases h
  next offset hcheck =>
    cases h
    obtain ⟨hindex, rfl⟩ := checkVertexDataOffset_spec hcheck
    have hend : index.toNat * vertexSize + v.bytes.length ≤ m.vertexData.size := by
      rw [hm.data_size, v.length_bytes]
      exact (Nat.succ_mul _ _).symm.trans_le (Nat.mul_le_mul_right _ hindex)
    have hwrite := hm.write hend fun _ => by
      rw [v.length_bytes]
      omega
    rw [v.length_bytes] at hwrite
    exact hwrite

theorem VerticesReady.setVertices (hm : VerticesReady m) {vertices : List Vertex} {start : UInt64}
    (hlist : vertices.length * vertexSize < 2 ^ 63)
    (hkept : vertices = [] → start = 0 → m.vertexBuffer.usage = .stream)
    (h : m.setVertices vertices start = .ok m') : VerticesReady m' := by
  rw [OwnedMesh.setVertices] at h
  split_ifs at h with hmany
  split at h
  · cases h
  next offset hcheck =>
    cases h
    obtain ⟨hstart, rfl⟩ := checkVertexDataOffset_spec hcheck
    have hsize := hm.data_size
    have hlt := hm.data_lt
    have hlength := flatMap_bytes_length vertices
    rw [vertexSize] at hsize hlist hlength
    -- Neither the list nor the mesh is so long that the sum wraps.
    have hend : start.toNat * vertexSize + (vertices.flatMap Vertex.bytes).length ≤
        m.vertexData.size := by
      rw [hlength, hsize, vertexSize]
      omega
    have hwrite := hm.write hend fun hstream => by
      by_contra hzero
      rw [hlength, vertexSize] at hzero
      refine hstream (hkept (length_eq_zero_iff.mp (by omega)) ?_)
      exact UInt64.toNat_inj.mp (show start.toNat = 0 by omega)
    rw [hlength] at hwrite
    exact hwrite

/-! ## Flushes of indices -/

variable {lastMap : List Nat}

theorem IndicesReady.congr (hi : IndicesReady m lastMap) (hdata : m'.indexData = m.indexData)
    (hbuffer : m'.indexBuffer = m.indexBuffer)
    (hmodified : m'.indexDataModified = m.indexDataModified)
    (huse : m'.useIndexBuffer = m.useIndexBuffer) (hcount : m'.indexCount = m.indexCount)
    (htype : m'.indexDataType = m.indexDataType) : IndicesReady m' lastMap := by
  intro block hblock
  rw [hdata] at hblock
  obtain ⟨buffer, heq, hmapped⟩ := hi block hblock
  refine ⟨buffer, hbuffer.trans heq, hmapped.toIndexRoom, ?_, ?_, ?_⟩
  · rw [huse, hcount, htype]
    exact hmapped.room
  · rw [huse, hcount, htype]
    exact hmapped.map
  · rw [huse, hcount, htype, hmodified]
    exact hmapped.agrees

theorem IndicesReady.flushVertices
    (hi : IndicesReady m lastMap) : IndicesReady m.flushVertices lastMap := by
  rw [OwnedMesh.flushVertices]
  cases m.vertexUpload with
  | none => exact hi
  | some interval => exact hi.congr rfl rfl rfl rfl rfl rfl

variable {block : Block} {buffer : IndexBuffer}

theorem indexUpload_spec (h : m.indexUpload = some (block, buffer)) :
    m.indexData = some block ∧ m.indexBuffer = some buffer := by
  rw [indexUpload] at h
  split at h
  · next _ hdata hbuffer =>
      cases h
      exact ⟨hdata, hbuffer⟩
  · cases h

theorem indexUpload_eq_none (hdata : m.indexData = some block)
    (hbuffer : m.indexBuffer = some buffer)
    (h : m.indexUpload = none) : m.indexDataModified = false := by
  rw [indexUpload, hdata, hbuffer] at h
  cases hmodified : m.indexDataModified with
  | false => rfl
  | true =>
    rw [hmodified] at h
    cases h

theorem IndexRoom.fill (h : IndexRoom block buffer) :
    (buffer.data.fill 0 buffer.data.size block.bytes).2.size = buffer.data.size ∧
    (buffer.data.fill 0 buffer.data.size block.bytes).2.usage = buffer.data.usage ∧
    ∀ a < buffer.data.size,
      (buffer.data.fill 0 buffer.data.size block.bytes).2.bytes a = block.bytes a := by
  have hend : 0 + buffer.data.size ≤ buffer.data.size := by omega
  rw [ArrayBuffer.fill_eq h.size_pos h.usage h.size_lt hend]
  refine ⟨rfl, rfl, fun a ha => ?_⟩
  dsimp only
  rw [writeCells_readCells hend (Nat.zero_le _) (by omega), zero_add, Nat.sub_zero]

/-- **A flush** leaves the vertex map in the buffer as it is in memory. -/
theorem IndicesReady.flushIndices (hi : IndicesReady m lastMap) :
    IndicesReady m.flushIndices lastMap ∧ ∀ block, m.indexData = some block →
      ∃ buffer, m.flushIndices.indexBuffer = some buffer ∧
        (m.useIndexBuffer = true →
          readIndices buffer.data.bytes m.indexDataType m.indexCount = lastMap) := by
  rw [OwnedMesh.flushIndices]
  cases hupload : m.indexUpload with
  | none =>
    refine ⟨hi, fun block hblock => ?_⟩
    obtain ⟨buffer, hbuffer, hmapped⟩ := hi block hblock
    refine ⟨buffer, hbuffer, fun huse => ?_⟩
    rw [readIndices_congr (hmapped.agrees huse (indexUpload_eq_none hblock hbuffer hupload))]
    exact hmapped.map huse
  | some upload =>
    obtain ⟨block, buffer⟩ := upload
    obtain ⟨hblock, hbuffer⟩ := indexUpload_spec hupload
    obtain ⟨buffer', hbuffer', hmapped⟩ := hi block hblock
    obtain rfl : buffer = buffer' := Option.some.inj (hbuffer.symm.trans hbuffer')
    obtain ⟨hsize, husage, hbytes⟩ := hmapped.toIndexRoom.fill
    constructor
    · intro block' hblock'
      obtain rfl : block = block' := Option.some.inj (hblock.symm.trans hblock')
      refine ⟨_, rfl, ⟨?_, ?_, ?_, ?_⟩, ?_, hmapped.map, ?_⟩
      · exact hsize.symm ▸ hmapped.size_pos
      · exact hsize.symm ▸ hmapped.size_lt
      · exact hsize.symm ▸ hmapped.size_le
      · exact husage.symm ▸ hmapped.usage
      · exact hsize.symm ▸ hmapped.room
      · intro huse _ a ha
        exact hbytes a (lt_of_lt_of_le ha (hmapped.room huse))
    · intro block' hblock'
      obtain rfl : block = block' := Option.some.inj (hblock.symm.trans hblock')
      refine ⟨_, rfl, fun huse => ?_⟩
      rw [← hmapped.map huse]
      exact readIndices_congr fun a ha => hbytes a (lt_of_lt_of_le ha (hmapped.room huse))

theorem VerticesReady.flushIndices (hm : VerticesReady m) : VerticesReady m.flushIndices := by
  rw [OwnedMesh.flushIndices]
  cases m.indexUpload with
  | none => exact hm
  | some upload => exact { hm with }

/-! ## Vertex maps -/

/-- Whether memory and buffer for indices are to be had, where they are replaced. -/
def OwnedMesh.Prepares (env : Resize) (type : IndexDataType) (size : Nat) (m : OwnedMesh) : Prop :=
  m.recreates type size = true → env.newBuffer = none ∧ env.block ≠ .failed

variable {m₁ : OwnedMesh} {env : Resize} {size : Nat}

theorem prepares_of_ok
    (h : m.prepareIndexData env type size = .ok m₁) : m.Prepares env type size := by
  intro hrecreates
  rw [prepareIndexData, if_neg (by rw [hrecreates]; decide)] at h
  cases hbuffer : env.newBuffer with
  | some message =>
    rw [hbuffer] at h
    split_ifs at h
  | none =>
    rw [hbuffer] at h
    split_ifs at h with hzero hfailed
    exact ⟨rfl, hfailed⟩

theorem recreates_eq_false (h : m.recreates type size = false) :
    ∃ block buffer, m.indexData = some block ∧ m.indexBuffer = some buffer ∧
      size ≤ buffer.data.size := by
  rw [recreates] at h
  split at h
  · next block buffer hblock hbuffer =>
      rw [Bool.or_eq_false_iff, decide_eq_false_iff_not, not_lt] at h
      exact ⟨block, buffer, hblock, hbuffer, h.1⟩
  · cases h

/-- **Memory for indices** has room for what its buffer has; when it is replaced,
whole indices are asked for. -/
theorem IndicesReady.prepareIndexData (hm : VerticesReady m) (hi : IndicesReady m lastMap)
    (hsize : size < 2 ^ 63) (hwhole : m.recreates type size = true → size % type.size = 0)
    (h : m.prepareIndexData env type size = .ok m₁) :
    ∃ block buffer, m₁ = { m with indexData := some block, indexBuffer := some buffer } ∧
      IndexRoom block buffer ∧ size ≤ buffer.data.size := by
  rw [OwnedMesh.prepareIndexData] at h
  split at h
  next hrecreates =>
    cases h
    obtain ⟨block, buffer, hblock, hbuffer, hle⟩ := recreates_eq_false hrecreates
    obtain ⟨buffer', hbuffer', hmapped⟩ := hi block hblock
    obtain rfl : buffer = buffer' := Option.some.inj (hbuffer.symm.trans hbuffer')
    refine ⟨block, buffer, ?_, hmapped.toIndexRoom, hle⟩
    rw [← hblock, ← hbuffer]
  next hrecreates =>
    cases hbuffer : env.newBuffer with
    | some message =>
      rw [hbuffer] at h
      split_ifs at h
    | none =>
      rw [hbuffer] at h
      split_ifs at h with hzero hfailed
      cases h
      have heq : bufferSize size type.size = size := by
        rw [bufferSize, hwhole ((Bool.not_eq_false _).mp hrecreates), if_neg (by decide)]
      refine ⟨_, _, rfl, ⟨?_, ?_, ?_, hm.usage⟩, ?_⟩
      · exact heq.symm ▸ Nat.pos_of_ne_zero hzero
      · show bufferSize size type.size ≤ 2 ^ 64
        omega
      · exact heq.le
      · exact heq.ge

/-- **A vertex map that is set** is in memory, and will be uploaded if there is
an index in it. -/
theorem IndicesReady.mapped (hroom : IndexRoom block buffer) (hdata : m.indexData = some block)
    (hbuffer : m.indexBuffer = some buffer)
    (hmodified : m.indexCount ≠ 0 → m.indexDataModified = true)
    (hfit : m.indexCount * m.indexDataType.size ≤ buffer.data.size) {map : List Nat}
    (hmap : readIndices block.bytes m.indexDataType m.indexCount = map) :
    IndicesReady m map := by
  intro block' hblock'
  obtain rfl : block = block' := Option.some.inj (hdata.symm.trans hblock')
  refine ⟨buffer, hbuffer, hroom, fun _ => hfit, fun _ => hmap, ?_⟩
  intro _ hclean a ha
  by_cases hcount : m.indexCount = 0
  · rw [hcount, zero_mul] at ha
    exact absurd ha (Nat.not_lt_zero a)
  · rw [hmodified hcount] at hclean
    cases hclean

theorem IndexRoom.of_size {block' : Block} (h : IndexRoom block buffer)
    (hsize : block'.size = block.size) : IndexRoom block' buffer :=
  ⟨h.size_pos, h.size_lt, hsize.symm ▸ h.size_le, h.usage⟩

theorem lt_of_vertexCount {index : UInt32} {vertexCount : Nat} (h : index.toNat < vertexCount) :
    index.toNat < 2 ^ (8 * (indexDataTypeFromMax vertexCount).size) := by
  rw [indexDataTypeFromMax]
  split_ifs with hlong
  · exact index.toNat_lt
  · show index.toNat < 2 ^ (8 * 2)
    omega

theorem MeshReady.setVertexMap {s : MeshRun} (hs : MeshReady s) {env : Resize} {map : List UInt32}
    (hlist : map.length * 4 < 2 ^ 63)
    (hvalid : map ≠ [] → s.mesh.Prepares env (indexDataTypeFromMax s.mesh.vertexCount)
      (map.length * (indexDataTypeFromMax s.mesh.vertexCount).size) →
      ∀ index ∈ map, index.toNat < s.mesh.vertexCount) :
    MeshReady (mapMesh s (map.map UInt32.toNat) (s.mesh.setVertexMap env map)) := by
  rw [OwnedMesh.setVertexMap]
  by_cases hempty : map = []
  · rw [if_pos hempty]
    exact hs
  rw [if_neg hempty]
  dsimp only
  generalize htype : indexDataTypeFromMax s.mesh.vertexCount = type at hvalid ⊢
  cases hprepare : s.mesh.prepareIndexData env type (map.length * type.size) with
  | error message => exact hs
  | ok m₁ =>
    have hle : map.length * type.size ≤ map.length * 4 := Nat.mul_le_mul_left _ type.size_le
    obtain ⟨block, buffer, rfl, hroom, hfit⟩ := hs.indices.prepareIndexData hs.vertices
      (by omega) (fun _ => Nat.mul_mod_left ..) hprepare
    have hmap := hvalid hempty (prepares_of_ok hprepare)
    obtain ⟨block', hcopy, hsize, -, hread⟩ := copyToIndexBuffer_spec type.size_le hmap
      (fun index hindex => htype ▸ lt_of_vertexCount (hmap index hindex)) 0 block
      (by rw [zero_add]; exact le_trans hfit hroom.size_le)
    have hindices : readIndices block'.bytes type map.length = map.map UInt32.toNat := by
      refine ext_getElem (by simp [readIndices]) fun k hk hk' => ?_
      rw [length_map] at hk'
      have hvalue := hread k hk'
      rw [zero_add] at hvalue
      simp only [readIndices, getElem_map, getElem_range]
      exact hvalue
    dsimp only [useIndices, indexBlock, Option.getD_some]
    rw [hcopy]
    refine ⟨{ hs.vertices with }, ?_⟩
    exact .mapped (hroom.of_size hsize) rfl rfl (fun _ => rfl) hfit hindices

theorem MeshReady.setVertexMapData {s : MeshRun} (hs : MeshReady s) {env : Resize}
    {type : IndexDataType} {data : List UInt8} (hlist : data.length < 2 ^ 63)
    (hwhole : s.mesh.Prepares env type data.length → s.mesh.recreates type data.length = true →
      data.length % type.size = 0) :
    MeshReady (mapMesh s (readIndices (fun a => data.getD a 0) type (data.length / type.size))
      (s.mesh.setVertexMapData env type data)) := by
  rw [OwnedMesh.setVertexMapData]
  cases hprepare : s.mesh.prepareIndexData env type data.length with
  | error message => exact hs
  | ok m₁ =>
    obtain ⟨block, buffer, rfl, hroom, hfit⟩ := hs.indices.prepareIndexData hs.vertices hlist
      (hwhole (prepares_of_ok hprepare)) hprepare
    have hcount : data.length / type.size * type.size ≤ data.length := Nat.div_mul_le_self ..
    dsimp only
    by_cases hzero : data.length / type.size = 0
    · rw [if_pos hzero]
      refine ⟨{ hs.vertices with }, ?_⟩
      refine .mapped hroom rfl rfl (fun hne => absurd hzero hne) (le_trans hcount hfit) ?_
      dsimp only [useIndices]
      rw [hzero]
      rfl
    · rw [if_neg hzero]
      refine ⟨{ hs.vertices with }, ?_⟩
      have hroom' : IndexRoom (copyBytes block 0 data) buffer := hroom.of_size rfl
      refine .mapped hroom' rfl rfl
        (fun _ => rfl) (le_trans hcount hfit) ?_
      refine readIndices_congr fun a ha => ?_
      have hin : a < data.length := lt_of_lt_of_le ha hcount
      have hblock : a < block.size := lt_of_lt_of_le hin (le_trans hfit hroom.size_le)
      show writeCells block.bytes block.size 0 data a = data.getD a 0
      rw [writeCells, dif_pos ⟨Nat.zero_le _, by omega, hblock⟩]
      simp [hin]

theorem IndicesReady.setIndexBuffer {buffer : Option IndexBuffer}
    (h : m.setIndexBuffer buffer = .ok m') (lastMap : List Nat) : IndicesReady m' lastMap := by
  cases buffer with
  | none =>
    cases h
    nofun
  | some buffer =>
    rw [OwnedMesh.setIndexBuffer] at h
    split_ifs at h
    cases h
    nofun

theorem VerticesReady.setIndexBuffer (hm : VerticesReady m) {buffer : Option IndexBuffer}
    (h : m.setIndexBuffer buffer = .ok m') : VerticesReady m' := by
  cases buffer with
  | none =>
    cases h
    exact { hm with }
  | some buffer =>
    rw [OwnedMesh.setIndexBuffer] at h
    split_ifs at h
    cases h
    exact { hm with }

/-! ## Runs -/

/-- A call that does not meet what the range and the maps are wrong about: an
empty list of vertices that is written to the first vertex, unless the whole
buffer is uploaded; a vertex map that has values which are not indices of
vertices, once it is copied; new index data that does not end with an index. -/
def OwnedMeshOp.Kept (s : MeshRun) : OwnedMeshOp → Prop
  | .setVertices vertices start =>
    vertices = [] → start = 0 → s.mesh.vertexBuffer.usage = .stream
  | .setVertexMap env map =>
    map ≠ [] → s.mesh.Prepares env (indexDataTypeFromMax s.mesh.vertexCount)
      (map.length * (indexDataTypeFromMax s.mesh.vertexCount).size) →
      ∀ index ∈ map, index.toNat < s.mesh.vertexCount
  | .setVertexMapData env type data =>
    s.mesh.Prepares env type data.length → s.mesh.recreates type data.length = true →
      data.length % type.size = 0
  | _ => True

/-- **Any call** keeps the invariant. -/
theorem ownedMeshStep_ready {s s' : MeshRun} {op : OwnedMeshOp} (hs : MeshReady s)
    (hkept : op.Kept s) (h : ownedMeshStep s op = some s') : MeshReady s' := by
  cases op with
  | setVertex index v =>
    cases h
    cases hset : s.mesh.setVertex index v with
    | error message => exact hs
    | ok m =>
      refine ⟨hs.vertices.setVertex hset, ?_⟩
      rw [OwnedMesh.setVertex] at hset
      split at hset
      · cases hset
      · cases hset
        exact hs.indices.congr rfl rfl rfl rfl rfl rfl
  | setVertices vertices start =>
    rw [ownedMeshStep] at h
    split_ifs at h with hlist
    cases h
    cases hset : s.mesh.setVertices vertices start with
    | error message => exact hs
    | ok m =>
      refine ⟨hs.vertices.setVertices hlist hkept hset, ?_⟩
      rw [OwnedMesh.setVertices] at hset
      split_ifs at hset
      split at hset
      · cases hset
      · cases hset
        exact hs.indices.congr rfl rfl rfl rfl rfl rfl
  | setVertexMap env map =>
    rw [ownedMeshStep] at h
    split_ifs at h with hlist
    cases h
    exact hs.setVertexMap hlist hkept
  | setVertexMapData env type data =>
    rw [ownedMeshStep] at h
    split_ifs at h with hlist
    cases h
    exact hs.setVertexMapData hlist hkept
  | clearVertexMap =>
    cases h
    refine ⟨{ hs.vertices with }, fun block hblock => ?_⟩
    obtain ⟨buffer, hbuffer, hmapped⟩ := hs.indices block hblock
    exact ⟨buffer, hbuffer, hmapped.toIndexRoom, nofun, nofun, nofun⟩
  | setIndexBuffer buffer =>
    cases h
    cases hset : s.mesh.setIndexBuffer buffer with
    | error message => exact hs
    | ok m => exact ⟨hs.vertices.setIndexBuffer hset, .setIndexBuffer hset _⟩
  | flush =>
    cases h
    exact ⟨hs.vertices.flushVertices.flushIndices, hs.indices.flushVertices.flushIndices.1⟩

variable {usage : BufferDataUsage} {newBuffer : Option String}

theorem newVertices_ready {vertices : List Vertex} {memory : Bool}
    (hlist : vertices.length * vertexSize < 2 ^ 63) (husage : usage ≠ .readback)
    (h : newVertices vertices usage memory newBuffer = .ok m) :
    VerticesReady m ∧ m.indexData = none := by
  have hlength := flatMap_bytes_length vertices
  have hwhole : (vertices.flatMap Vertex.bytes).length % vertexSize = 0 :=
    hlength ▸ Nat.mul_mod_left ..
  rw [newVertices.eq_def] at h
  dsimp only at h
  cases newBuffer with
  | some message => split_ifs at h
  | none =>
    split_ifs at h with hmemory hzero
    cases h
    refine ⟨⟨?_, ?_, ?_, ?_, husage, fun _ => ?_, fun _ _ _ => rfl⟩, rfl⟩
    · rw [hlength] at hzero ⊢
      rw [Nat.mul_div_cancel _ (by decide)]
      exact Nat.pos_of_mul_pos_right (Nat.pos_of_ne_zero hzero)
    · exact (Nat.div_mul_cancel (Nat.dvd_of_mod_eq_zero hwhole)).symm
    · exact hlength.trans_lt hlist
    · show bufferSize _ _ = _
      rw [bufferSize, hwhole, if_neg (by decide)]
    · exact Nat.pos_of_ne_zero hzero

theorem newCount_ready {vertexcount : Int32} {memory : Bool} {junk : Nat → UInt8}
    (husage : usage ≠ .readback)
    (h : newCount vertexcount.toInt usage memory newBuffer junk = .ok m) :
    VerticesReady m ∧ m.indexData = none := by
  have hcount := vertexcount.toInt_lt
  rw [newCount.eq_def] at h
  cases newBuffer with
  | some message => split_ifs at h
  | none =>
    split_ifs at h with hpos hmemory
    dsimp only at h
    have hsize : 0 < vertexcount.toInt.toNat * vertexSize := by
      rw [vertexSize]
      omega
    have hlt : vertexcount.toInt.toNat * vertexSize < 2 ^ 63 := by
      rw [vertexSize]
      omega
    have hend : 0 + vertexcount.toInt.toNat * vertexSize ≤
        vertexcount.toInt.toNat * vertexSize := by omega
    have hbound : vertexcount.toInt.toNat * vertexSize ≤ 2 ^ 64 := by omega
    rw [ArrayBuffer.fill_eq hsize husage hbound hend] at h
    cases h
    refine ⟨⟨?_, rfl, hlt, rfl, husage, fun _ => hsize, fun a ha _ => ?_⟩, rfl⟩
    · exact Nat.pos_of_mul_pos_right hsize
    · show writeCells _ _ 0 (readCells _ 0 _) a = 0
      rw [writeCells_readCells hend (Nat.zero_le _) (by rw [zero_add]; exact ha)]

/-- What the next flush does: it reads and writes what is there; after it the
vertices are in the buffer, and so is the vertex map that was set last, if the mesh
uses a map of its own. -/
structure Uploads (s : MeshRun) : Prop where
  vertices_inside : ∀ offset n, s.mesh.vertexUpload = some (offset, n) →
    offset + n ≤ s.mesh.vertexData.size ∧ offset + n ≤ s.mesh.vertexBuffer.size
  indices_inside : ∀ block buffer, s.mesh.indexUpload = some (block, buffer) →
    buffer.data.size ≤ block.size
  vertices_size : s.mesh.flush.vertexBuffer.size = s.mesh.flush.vertexData.size
  vertices : ∀ a < s.mesh.flush.vertexData.size,
    s.mesh.flush.vertexBuffer.bytes a = s.mesh.flush.vertexData.bytes a
  indices : s.mesh.flush.useIndexBuffer = true → s.mesh.flush.indexData ≠ none →
    ∃ buffer, s.mesh.flush.indexBuffer = some buffer ∧
      s.mesh.flush.indexCount * s.mesh.flush.indexDataType.size ≤ buffer.data.size ∧
      readIndices buffer.data.bytes s.mesh.flush.indexDataType s.mesh.flush.indexCount = s.lastMap

theorem flushIndices_vertices (m : OwnedMesh) : m.flushIndices.vertexBuffer = m.vertexBuffer ∧
    m.flushIndices.vertexData = m.vertexData := by
  rw [OwnedMesh.flushIndices]
  cases m.indexUpload <;> exact ⟨rfl, rfl⟩

theorem flushIndices_map (m : OwnedMesh) : m.flushIndices.useIndexBuffer = m.useIndexBuffer ∧
    m.flushIndices.indexData = m.indexData ∧ m.flushIndices.indexCount = m.indexCount ∧
    m.flushIndices.indexDataType = m.indexDataType := by
  rw [OwnedMesh.flushIndices]
  cases m.indexUpload <;> exact ⟨rfl, rfl, rfl, rfl⟩

theorem flushVertices_data (m : OwnedMesh) : m.flushVertices.vertexData = m.vertexData := by
  rw [OwnedMesh.flushVertices]
  cases m.vertexUpload <;> rfl

theorem MeshReady.uploads {s : MeshRun} (hs : MeshReady s) : Uploads s := by
  have hflushed := hs.indices.flushVertices.flushIndices
  obtain ⟨hbuffer, hdata⟩ := flushIndices_vertices s.mesh.flushVertices
  obtain ⟨huse, hblock, hcount, htype⟩ := flushIndices_map s.mesh.flushVertices
  refine ⟨?_, ?_, ?_, ?_, ?_⟩
  · intro offset n hupload
    exact (hs.vertices.upload_le hupload).2
  · intro block buffer hupload
    obtain ⟨hblock, hbuffer⟩ := indexUpload_spec hupload
    obtain ⟨buffer', hbuffer', hmapped⟩ := hs.indices block hblock
    obtain rfl : buffer = buffer' := Option.some.inj (hbuffer.symm.trans hbuffer')
    exact hmapped.size_le
  · exact hs.vertices.flushVertices.flushIndices.buffer_size
  · intro a ha
    rw [OwnedMesh.flush, hdata, flushVertices_data] at ha ⊢
    rw [hbuffer]
    exact hs.vertices.flushVertices_agrees ha
  · intro hused howned
    rw [OwnedMesh.flush] at hused howned ⊢
    obtain ⟨block, heq⟩ := Option.ne_none_iff_exists'.mp howned
    obtain ⟨buffer, hin, hmapped⟩ := hflushed.1 block heq
    refine ⟨buffer, hin, hmapped.room hused, ?_⟩
    rw [hblock] at heq
    rw [huse] at hused
    obtain ⟨buffer', hin', hread⟩ := hflushed.2 block heq
    obtain rfl : buffer = buffer' := Option.some.inj (hin.symm.trans hin')
    rw [hcount, htype]
    exact hread hused

/-- **Uploads of a mesh**, in the runs of calls that do not meet what the range
and the maps are wrong about. -/
theorem mesh_uploads {s : MeshRun} (h : (ownedMeshes.restrict fun s op => op.Kept s).Reachable s) :
    Uploads s := by
  have hs : MeshReady s := by
    refine h.invariant_restrict ?_ fun s op s' hs hkept hstep => ownedMeshStep_ready hs hkept hstep
    rintro s ⟨-, usage, memory, newBuffer, husage, ⟨vertices, hlist, hnew⟩ | ⟨count, junk, hnew⟩⟩
    · obtain ⟨hvertices, hnone⟩ := newVertices_ready hlist husage hnew
      exact ⟨hvertices, fun block hblock => by rw [hnone] at hblock; cases hblock⟩
    · obtain ⟨hvertices, hnone⟩ := newCount_ready husage hnew
      exact ⟨hvertices, fun block hblock => by rw [hnone] at hblock; cases hblock⟩
  exact hs.uploads

/-! ### A mesh of two vertices -/

/-- A vertex whose bytes are all the same. -/
def byteVertex (byte : UInt8) : Vertex := ⟨List.replicate 20 byte, List.length_replicate⟩

def smallMesh (usage : BufferDataUsage) : MeshRun where
  mesh := {
    vertexCount := 2
    vertexData := ⟨40, fun a => (List.replicate 40 0).getD a 0⟩
    vertexBuffer := ⟨40, usage, fun a => (List.replicate 40 0).getD a 0⟩
    modifiedVertexData := .invalid
    indexData := none
    indexBuffer := none
    indexDataModified := false
    useIndexBuffer := false
    indexCount := 0
    indexDataType := .uint16 }
  lastMap := []

theorem smallMesh_init (h : usage ≠ .readback) : ownedMeshes.init (smallMesh usage) :=
  ⟨rfl, usage, true, none, h, .inl ⟨[byteVertex 0, byteVertex 0], by decide, rfl⟩⟩

/-- A vertex that is written, and a map of both. -/
def mappedMesh : MeshRun :=
  mapMesh (exceptMesh (smallMesh .dynamic) ((smallMesh .dynamic).mesh.setVertex 1 (byteVertex 7)))
    [1, 0] ((exceptMesh (smallMesh .dynamic)
      ((smallMesh .dynamic).mesh.setVertex 1 (byteVertex 7))).mesh.setVertexMap plainResize [1, 0])

theorem mesh_uploads_mapped : Uploads mappedMesh := by
  refine mesh_uploads (.restrict_step (.restrict_step
    (.init (smallMesh_init (by decide))) (.setVertex 1 (byteVertex 7)) trivial rfl)
    (.setVertexMap plainResize [1, 0]) ?_ rfl)
  intro _ _ index hindex
  rcases mem_cons.mp hindex with rfl | hindex
  · decide
  · rw [mem_singleton.mp hindex]
    decide

/-- A vertex that is written, and then an empty list. -/
def lostMesh : MeshRun :=
  exceptMesh (exceptMesh (smallMesh .dynamic) ((smallMesh .dynamic).mesh.setVertex 1 (byteVertex 7)))
    ((exceptMesh (smallMesh .dynamic)
      ((smallMesh .dynamic).mesh.setVertex 1 (byteVertex 7))).mesh.setVertices [] 0)

/-- The range that is to be uploaded is all of the address space, whose size is 0;
the buffer refuses that. -/
theorem not_always_uploaded : ¬ ∀ s, ownedMeshes.Reachable s → Uploads s := by
  intro hall
  have hreach : ownedMeshes.Reachable lostMesh :=
    .step (e := .setVertices [] 0)
      (.step (e := .setVertex 1 (byteVertex 7)) (.init (smallMesh_init (by decide))) rfl) rfl
  have hbyte := (hall lostMesh hreach).vertices 20 (by decide +kernel)
  revert hbyte
  decide +kernel

end Lhatove.Graphics
