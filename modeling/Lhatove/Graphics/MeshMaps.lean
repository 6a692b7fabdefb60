import Lhatove.Graphics.MeshUploadRuns

/-!
# Vertex maps that are refused

`setVertexMap` checks the indices of a list while it copies them into the memory
that the mesh uses. By then it has set the count, the type and the flag.

- `MapIntact`: the vertex map of a mesh is what it was;
- `copyToIndexBuffer_eq`: what is copied when an index is refused;
- `OwnedMesh.Harmless`, `refused_map_intact_iff`: when a map that is refused
  leaves no trace.

A mesh of attributes of other buffers is like one whose own buffer is dynamic:
nothing else of its vertices but their number is used here.
-/

namespace Lhatove.Graphics

open OwnedMesh

/-! ## Copies -/

/-- The indices before the first one that is no vertex, as they are stored. -/
def acceptedBytes (width maxval : Nat) (map : List UInt32) : List UInt8 :=
  (map.takeWhile fun index => index.toNat < maxval).flatMap (indexBytes width)

/-- **A copy** throws at the first index that is no vertex, and what comes before
it has been written. -/
theorem copyToIndexBuffer_eq (width maxval : Nat) (map : List UInt32) (position : Nat)
    (block : Block) :
    copyToIndexBuffer width maxval map position block =
      ((map.find? fun index => maxval ≤ index.toNat).map invalidMapValue,
        copyBytes block (position * width) (acceptedBytes width maxval map)) := by
  induction map generalizing position block with
  | nil =>
    have hnothing : writeCells block.bytes block.size (position * width) [] = block.bytes := by
      funext a
      refine writeCells_of_outside ?_
      rw [List.length_nil]
      omega
    rw [copyToIndexBuffer, acceptedBytes, List.takeWhile_nil, List.flatMap_nil, copyBytes, hnothing]
    rfl
  | cons index map ih =>
    rw [copyToIndexBuffer, acceptedBytes]
    by_cases hindex : maxval ≤ index.toNat
    · rw [if_pos hindex, List.find?_cons_of_pos (by simpa using hindex),
        List.takeWhile_cons_of_neg (by simpa using hindex), List.flatMap_nil]
      have hnothing : writeCells block.bytes block.size (position * width) [] = block.bytes := by
        funext a
        refine writeCells_of_outside ?_
        rw [List.length_nil]
        omega
      rw [copyBytes, hnothing]
      rfl
    · rw [if_neg hindex, List.find?_cons_of_neg (by simpa using hindex),
        List.takeWhile_cons_of_pos (by simpa using hindex), List.flatMap_cons, ih]
      have hwritten := writeCells_append block.bytes block.size (position * width)
        (indexBytes width index) (acceptedBytes width maxval map)
      rw [indexBytes_length, ← Nat.succ_mul] at hwritten
      rw [copyBytes, copyBytes, copyBytes]
      exact congrArg (fun bytes => (_, Block.mk block.size bytes)) hwritten

/-! ## What a refused map leaves -/

/-- The index data are the same: of the same size, with the same bytes. -/
structure SameData (old new : Option Block) : Prop where
  size : old.map Block.size = new.map Block.size
  bytes : ∀ block ∈ old, ∀ block' ∈ new, ∀ a < block.size, block'.bytes a = block.bytes a

/-- The vertex map of a mesh is what it was. -/
structure MapIntact (m m' : OwnedMesh) : Prop where
  indexCount : m'.indexCount = m.indexCount
  useIndexBuffer : m'.useIndexBuffer = m.useIndexBuffer
  indexDataType : m'.indexDataType = m.indexDataType
  indexData : SameData m.indexData m'.indexData

theorem MapIntact.refl (m : OwnedMesh) : MapIntact m m := by
  refine ⟨rfl, rfl, rfl, rfl, fun block hblock block' hblock' a _ => ?_⟩
  obtain rfl : block = block' := Option.some.inj (hblock.symm.trans hblock')
  rfl

/-- What the mesh would store of a map. -/
def OwnedMesh.acceptedBytes (map : List UInt32) (m : OwnedMesh) : List UInt8 :=
  Graphics.acceptedBytes (indexDataTypeFromMax m.vertexCount).size m.vertexCount map

/-- The size of the memory for a map. -/
def OwnedMesh.mapSize (map : List UInt32) (m : OwnedMesh) : Nat :=
  map.length * (indexDataTypeFromMax m.vertexCount).size

/-- A map with an index that is no vertex, for which there is memory, is one of
the length and the type of the present one, which is in use, and agrees with it
up to that index; and the memory is not replaced, or by as much. -/
def OwnedMesh.Harmless (env : Resize) (map : List UInt32) (m : OwnedMesh) : Prop :=
  map ≠ [] → m.Prepares env (indexDataTypeFromMax m.vertexCount) (m.mapSize map) →
    (∃ index ∈ map, m.vertexCount ≤ index.toNat) →
    m.indexCount = map.length ∧ m.useIndexBuffer = true ∧
      m.indexDataType = indexDataTypeFromMax m.vertexCount ∧
      ∃ block, m.indexData = some block ∧
        (m.recreates (indexDataTypeFromMax m.vertexCount) (m.mapSize map) = true →
          block.size = m.mapSize map) ∧
        ∀ k (hk : k < (m.acceptedBytes map).length), k < block.size →
          block.bytes k = (m.acceptedBytes map)[k]

variable {m : OwnedMesh} {env : Resize} {type : IndexDataType} {size : Nat}

theorem prepareIndexData_ok (hsize : size ≠ 0) (hprepares : m.Prepares env type size) :
    ∃ m₁, m.prepareIndexData env type size = .ok m₁ ∧
      ((m.recreates type size = false ∧ m₁ = m) ∨
        (m.recreates type size = true ∧ m₁.indexData =
          some ((m.indexData.getD ⟨0, env.fresh⟩).realloc size env.fresh))) := by
  rw [prepareIndexData]
  cases hrecreates : m.recreates type size with
  | false => exact ⟨m, if_pos rfl, .inl ⟨rfl, rfl⟩⟩
  | true =>
    obtain ⟨hbuffer, hblock⟩ := hprepares hrecreates
    rw [if_neg (by decide), if_neg hsize, hbuffer]
    rw [if_neg hblock]
    exact ⟨_, rfl, .inr ⟨rfl, rfl⟩⟩

theorem prepareIndexData_of_not (hprepares : ¬ m.Prepares env type size) :
    ∃ message, m.prepareIndexData env type size = .error message := by
  cases h : m.prepareIndexData env type size with
  | ok m₁ => exact absurd (prepares_of_ok h) hprepares
  | error message => exact ⟨message, rfl⟩

/-- Indices copied into the memory that is prepared are the data there was, if
they are the bytes there were. -/
theorem sameData_copy_iff {m m₁ : OwnedMesh} {env : Resize} {type : IndexDataType} {size : Nat}
    (data : List UInt8)
    (h : (m.recreates type size = false ∧ m₁ = m) ∨
      (m.recreates type size = true ∧ m₁.indexData =
        some ((m.indexData.getD ⟨0, env.fresh⟩).realloc size env.fresh))) :
    SameData m.indexData (some (copyBytes m₁.indexBlock 0 data)) ↔
      ∃ block, m.indexData = some block ∧
        (m.recreates type size = true → block.size = size) ∧
        ∀ k (hk : k < data.length), k < block.size → block.bytes k = data[k] := by
  cases hdata : m.indexData with
  | none =>
    constructor
    · intro hsame
      cases hsame.size
    · rintro ⟨block, hblock, -⟩
      cases hblock
  | some block =>
    have hcopied : SameData (some block) (some (copyBytes m₁.indexBlock 0 data)) ↔
        m₁.indexBlock.size = block.size ∧ ∀ a < block.size,
          writeCells m₁.indexBlock.bytes m₁.indexBlock.size 0 data a = block.bytes a := by
      constructor
      · intro hsame
        exact ⟨(Option.some.inj hsame.size).symm, hsame.bytes block rfl _ rfl⟩
      · rintro ⟨hsize, hbytes⟩
        refine ⟨congrArg some hsize.symm, fun block' hblock' block'' hblock'' => ?_⟩
        cases hblock'
        cases hblock''
        exact hbytes
    rw [hcopied]
    rcases h with ⟨hkeeps, rfl⟩ | ⟨hrecreates, hnew⟩
    · have hblock : m₁.indexBlock = block := by rw [indexBlock, hdata, Option.getD_some]
      rw [hblock, writeCells_eq_self_iff]
      constructor
      · rintro ⟨-, hbytes⟩
        refine ⟨block, rfl, fun hrecreates => ?_, hbytes⟩
        rw [hkeeps] at hrecreates
        cases hrecreates
      · rintro ⟨block', hblock', -, hbytes⟩
        cases hblock'
        exact ⟨rfl, hbytes⟩
    · have hblock : m₁.indexBlock = block.realloc size env.fresh := by
        rw [indexBlock, hnew, Option.getD_some, hdata, Option.getD_some]
      rw [hblock]
      -- `realloc` keeps the bytes, as far as there are as many as before
      have hbytes : ∀ a < block.size,
          writeCells (block.realloc size env.fresh).bytes size 0 data a =
            writeCells block.bytes size 0 data a := by
        intro a ha
        rw [writeCells, writeCells]
        split_ifs
        · rfl
        · exact realloc_bytes _ ha
      constructor
      · rintro ⟨hsize, hsame⟩
        have hsize : size = block.size := hsize
        refine ⟨block, rfl, fun _ => hsize.symm, ?_⟩
        rw [← writeCells_eq_self_iff]
        intro a ha
        rw [← hsame a ha, ← hsize]
        exact (hbytes a ha).symm
      · rintro ⟨block', hblock', hsize, hsame⟩
        cases hblock'
        have hsize := hsize hrecreates
        refine ⟨hsize.symm, fun a ha => ?_⟩
        refine (hbytes a ha).trans ?_
        rw [← hsize]
        exact writeCells_eq_self_iff.mpr hsame a ha

/-! ## Both overloads -/

/-- **Refused vertex maps.** A `setVertexMap` of a list that throws leaves the
vertex map as it was just if the list is harmless; one of index data always does. -/
theorem refused_map_intact_iff (m : OwnedMesh) (env : Resize) :
    (∀ map, ((m.setVertexMap env map).1 ≠ none → MapIntact m (m.setVertexMap env map).2) ↔
      m.Harmless env map) ∧
    ∀ type data, (m.setVertexMapData env type data).1 ≠ none →
      MapIntact m (m.setVertexMapData env type data).2 := by
  refine ⟨fun map => ?_, fun type data => ?_⟩
  · rw [setVertexMap.eq_def]
    by_cases hnil : map = []
    · rw [if_pos hnil]
      exact ⟨fun _ hmap => absurd hnil hmap, fun _ _ => .refl m⟩
    rw [if_neg hnil]
    dsimp only
    have hsize : m.mapSize map ≠ 0 :=
      (Nat.mul_pos (List.length_pos_of_ne_nil hnil) (IndexDataType.size_pos _)).ne'
    by_cases hprepares : m.Prepares env (indexDataTypeFromMax m.vertexCount) (m.mapSize map)
    swap
    · obtain ⟨message, hmessage⟩ := prepareIndexData_of_not hprepares
      rw [mapSize] at hmessage
      rw [hmessage]
      exact ⟨fun _ _ hprepared => absurd hprepared hprepares, fun _ _ => .refl m⟩
    obtain ⟨m₁, hm₁, hcase⟩ := prepareIndexData_ok hsize hprepares
    have hcopied := sameData_copy_iff (m.acceptedBytes map) hcase
    rw [mapSize] at hm₁
    rw [hm₁]
    dsimp only
    rw [copyToIndexBuffer_eq, Nat.zero_mul]
    cases hfind : map.find? fun index => m.vertexCount ≤ index.toNat with
    | none =>
      rw [List.find?_eq_none] at hfind
      refine ⟨fun _ _ _ hinvalid => ?_, fun _ hthrows => absurd rfl hthrows⟩
      obtain ⟨index, hindex, hlarge⟩ := hinvalid
      exact absurd hlarge (by simpa using hfind index hindex)
    | some index =>
      have hinvalid : ∃ index ∈ map, m.vertexCount ≤ index.toNat :=
        ⟨index, List.mem_of_find?_eq_some hfind, by simpa using List.find?_some hfind⟩
      rw [Option.map_some]
      constructor
      · intro hintact _ _ _
        have hintact := hintact (Option.some_ne_none _)
        exact ⟨hintact.indexCount.symm, hintact.useIndexBuffer.symm, hintact.indexDataType.symm,
          hcopied.mp hintact.indexData⟩
      · intro hharmless _
        obtain ⟨hcount, huse, htype, hsame⟩ := hharmless hnil hprepares hinvalid
        exact ⟨hcount.symm, huse.symm, htype.symm, hcopied.mpr hsame⟩
  · rw [setVertexMapData.eq_def]
    intro hthrows
    cases hprepared : m.prepareIndexData env type data.length with
    | error message => exact .refl m
    | ok m₁ =>
      rw [hprepared] at hthrows
      split_ifs at hthrows
      all_goals exact absurd rfl hthrows

/-- A mesh of two vertices with the map of both; then a map with a value that is
no vertex, at its end. -/
theorem refused_map_not_intact : ownedMeshes.Reachable mappedMesh ∧
    (mappedMesh.mesh.setVertexMap plainResize [0, 1, 5]).1 = some "Invalid vertex map value: 6" ∧
    ¬ MapIntact mappedMesh.mesh (mappedMesh.mesh.setVertexMap plainResize [0, 1, 5]).2 := by
  refine ⟨?_, by decide +kernel, fun hintact => ?_⟩
  · exact .step (e := .setVertexMap plainResize [1, 0])
      (.step (e := .setVertex 1 (byteVertex 7)) (.init (smallMesh_init (by decide))) rfl) rfl
  · have hcount := hintact.indexCount
    revert hcount
    decide +kernel

end Lhatove.Graphics
