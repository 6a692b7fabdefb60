import Lhatove.Graphics.FanTriangles

/-!
# Meshes as fans

The draw range of a mesh is turned into one of the index buffer for fans by the
function that gives index counts, which takes two vertices off both its ends.

- `clip_below`, `clip_fourth`, `clip_proper`, `clip_whole`: what becomes of a draw range;
- `fan_triangles_iff`: when the mesh is drawn as a native fan would be.
-/

namespace Lhatove.Graphics

open MeshDraw Range

/-- The draw ranges that the two forms of `setDrawRange` leave. -/
def IsDrawRange (r : Range) : Prop :=
  r = .invalid ∨ ∃ start count : Nat, start < 2 ^ 31 ∧ 0 < count ∧ count < 2 ^ 31 ∧
    r = .ofSize start count

/-- A draw range as it is turned into one of the index buffer. -/
def converted (o c : Nat) : Range := .ofSize (sizeT (3 * ((o : Int) - 2))) (sizeT (3 * ((c : Int) - 2)))

/-- An index count of a fan as `size_t`: of less than two vertices, below zero. -/
theorem sizeT_fanIndices {n : Nat} (h : n ≤ 715827884) :
    sizeT (3 * ((n : Int) - 2)) =
      if n = 0 then 18446744073709551610 else if n = 1 then 18446744073709551613
      else 3 * (n - 2) := by
  match n with
  | 0 | 1 => decide
  | n + 2 =>
    rw [if_neg (by omega), if_neg (by omega), sizeT_eq (by omega) (by omega)]
    omega

variable {a b : Nat}

/-- A range by its last index, which may be before the first one, or come round to it. -/
theorem ofSize_eq (h : a + b ≤ 36893488147419103231) :
    ofSize a b = ⟨a, if a + b = 0 then 18446744073709551615
      else if a + b ≤ 18446744073709551616 then a + b - 1 else a + b - 18446744073709551617⟩ := by
  rw [ofSize, Range.mk.injEq]
  refine ⟨rfl, ?_⟩
  have hword : 2 ^ 64 = 18446744073709551616 := by norm_num
  rw [hword]
  split_ifs with hzero hle
  · omega
  · rw [show a + b + (18446744073709551616 - 1) = a + b - 1 + 18446744073709551616 by omega,
      Nat.add_mod_right, Nat.mod_eq_of_lt (by omega)]
  · rw [show a + b + (18446744073709551616 - 1) =
      a + b - 18446744073709551617 + 18446744073709551616 + 18446744073709551616 by omega,
      Nat.add_mod_right, Nat.add_mod_right, Nat.mod_eq_of_lt (by omega)]

theorem clipRange_mk {n : Nat} (hn : 0 < n) (hn' : n < 4294967296) :
    clipRange n ⟨a, b⟩ = if a ≤ b then ⟨a, min (n - 1) b⟩ else ⟨0, n - 1⟩ := by
  have hwhole : ofSize 0 n = ⟨0, n - 1⟩ := by
    rw [ofSize_eq (by omega), if_neg (by omega), if_pos (by omega), Nat.zero_add]
  rw [clipRange, hwhole]
  by_cases h : a ≤ b
  · rw [if_pos (isValid_iff.mpr h), if_pos h, intersect, Nat.zero_max]
  · rw [if_neg fun heq => h (isValid_iff.mp heq), if_neg h]

variable {o c : Nat}

/-- A count of at least three vertices, and a start that is not before the third one. -/
theorem converted_proper (ho : o ≤ 715827884) (hc : c ≤ 715827884) (ho2 : 2 ≤ o)
    (hc3 : 3 ≤ c) : converted o c = ⟨3 * (o - 2), 3 * (o - 2) + 3 * (c - 2) - 1⟩ := by
  rw [converted, sizeT_fanIndices ho, sizeT_fanIndices hc, if_neg (by omega), if_neg (by omega),
    if_neg (by omega), if_neg (by omega), ofSize_eq (by omega), if_neg (by omega),
    if_pos (by omega)]

/-- A start before the third vertex, and a count that makes the range end past zero. -/
theorem converted_around (ho : o < 2) (hc5 : 5 ≤ c + o) (hc : c ≤ 715827884) :
    converted o c = ⟨18446744073709551610 + 3 * o, 3 * c + 3 * o - 13⟩ := by
  have hstart : (if o = 0 then 18446744073709551610 else if o = 1 then 18446744073709551613
      else 3 * (o - 2)) = 18446744073709551610 + 3 * o := by
    split_ifs <;> omega
  rw [converted, sizeT_fanIndices (by omega), sizeT_fanIndices hc, hstart, if_neg (by omega),
    if_neg (by omega), ofSize_eq (by omega), if_neg (by omega), if_neg (by omega), Range.mk.injEq]
  omega

theorem converted_short (ho : o ≤ 715827884) (ho2 : 3 ≤ o) (hc : 0 < c) (hc2 : c < 3)
    (hne : ¬ (o = 3 ∧ c = 1)) : (converted o c).last < (converted o c).first := by
  rw [converted, sizeT_fanIndices ho, sizeT_fanIndices (by omega), if_neg (by omega),
    if_neg (by omega), if_neg (by omega)]
  obtain rfl | rfl : c = 1 ∨ c = 2 := by omega
  · rw [if_pos rfl, ofSize_eq (by omega), if_neg (by omega), if_neg (by omega)]
    show 3 * (o - 2) + 18446744073709551613 - 18446744073709551617 < 3 * (o - 2)
    omega
  · rw [if_neg (by decide), ofSize_eq (by omega), if_neg (by omega), if_pos (by omega)]
    show 3 * (o - 2) + 3 * (2 - 2) - 1 < 3 * (o - 2)
    omega

section Clipped

variable {n : Nat} (hn : 0 < n) (hn' : n < 4294967296)

include hn hn'

variable {o c : Nat}

/-- The two starts and the counts for which the range begins before zero and ends there. -/
theorem clip_below (h : (o = 0 ∧ (c = 3 ∨ c = 4)) ∨ (o = 1 ∧ c = 3)) :
    clipRange n (converted o c) = ⟨18446744073709551610 + 3 * o, n - 1⟩ := by
  have hconverted : ∃ last, 18446744073709551610 + 3 * o ≤ last ∧
      converted o c = ⟨18446744073709551610 + 3 * o, last⟩ := by
    rcases h with ⟨rfl, rfl | rfl⟩ | ⟨rfl, rfl⟩
    · exact ⟨18446744073709551612, by decide, by decide⟩
    all_goals exact ⟨18446744073709551615, by decide, by decide⟩
  obtain ⟨last, hle, heq⟩ := hconverted
  rw [heq, clipRange_mk hn hn', if_pos hle, min_eq_left (by omega)]

theorem clip_fourth : clipRange n (converted 3 1) = ⟨3, n - 1⟩ := by
  have heq : converted 3 1 = ⟨3, 18446744073709551615⟩ := by decide
  rw [heq, clipRange_mk hn hn', if_pos (by decide), min_eq_left (by omega)]

theorem clip_proper (ho : o ≤ 715827884) (hc : c ≤ 715827884) (ho2 : 2 ≤ o) (hc3 : 3 ≤ c) :
    clipRange n (converted o c) = ⟨3 * (o - 2), min (n - 1) (3 * (o - 2) + 3 * (c - 2) - 1)⟩ := by
  rw [converted_proper ho hc ho2 hc3, clipRange_mk hn hn', if_pos (by omega)]

/-- All other draw ranges become ranges of all indices, or are not valid any more. -/
theorem clip_whole (ho : o ≤ 715827884) (hc : 0 < c) (hc' : c ≤ 715827884)
    (hbelow : ¬ ((o = 0 ∧ (c = 3 ∨ c = 4)) ∨ (o = 1 ∧ c = 3))) (hfourth : ¬ (o = 3 ∧ c = 1))
    (hproper : ¬ (2 ≤ o ∧ 3 ≤ c)) : clipRange n (converted o c) = ⟨0, n - 1⟩ := by
  by_cases htwo : o = 2
  · -- the range begins at zero
    subst htwo
    obtain rfl | rfl : c = 1 ∨ c = 2 := by omega
    · have heq : converted 2 1 = ⟨0, 18446744073709551612⟩ := by decide
      rw [heq, clipRange_mk hn hn', if_pos (by decide), min_eq_left (by omega)]
    · have heq : converted 2 2 = ⟨0, 18446744073709551615⟩ := by decide
      rw [heq, clipRange_mk hn hn', if_pos (by decide), min_eq_left (by omega)]
  · have hinvalid : (converted o c).last < (converted o c).first := by
      by_cases ho3 : 3 ≤ o
      · exact converted_short ho ho3 hc (by omega) hfourth
      · by_cases hc5 : 5 ≤ c + o
        · rw [converted_around (by omega) hc5 hc']
          show 3 * c + 3 * o - 13 < 18446744073709551610 + 3 * o
          omega
        · obtain ⟨rfl | rfl, rfl | rfl⟩ : (o = 0 ∨ o = 1) ∧ (c = 1 ∨ c = 2) := by omega
          all_goals decide
    exact (clipRange_mk hn hn').trans (if_neg (not_le.mpr hinvalid))

end Clipped

/-! ## Sizes of ranges -/

theorem wrapInt_sizeT (n : Int) : wrapInt (sizeT n) = wrapInt n := by
  have hcast : ((sizeT n : Nat) : Int) = n + 2 ^ 32 * (- (2 ^ 32 * (n / 2 ^ 64))) := by
    rw [sizeT, Int.toNat_of_nonneg (Int.emod_nonneg _ (by norm_num)), Int.emod_def]
    ring
  rw [wrapInt, hcast, wrapInt]
  exact Int.add_mul_bmod_self_left n (2 ^ 32) _

theorem sizeAsInt_eq (h : (a : Int) ≤ b + 2147483649) (h' : (b : Int) < a + 2147483647) :
    sizeAsInt ⟨a, b⟩ = (b : Int) - a + 1 := by
  rw [sizeAsInt, wrapInt_sizeT]
  exact wrapInt_eq (by norm_num; omega) (by norm_num; omega)

theorem fanIndexCount_eq {n : Nat} :
    fanIndexCount n = if n ≤ 715827884 then some (3 * ((n : Int) - 2)) else none := by
  rw [fanIndexCount]
  by_cases hn : n ≤ 715827884
  · have hinner : wrapInt ((n : Int) - 2) = n - 2 := wrapInt_eq (by omega) (by omega)
    have houter : wrapInt (3 * ((n : Int) - 2)) = 3 * (n - 2) := wrapInt_eq (by omega) (by omega)
    rw [if_pos (by norm_num; omega), if_pos hn, getIndexCount, hinner, houter]
  · rw [if_neg (by norm_num; omega), if_neg hn]

theorem sizeAsInt_below (o last : Nat) :
    sizeAsInt ⟨18446744073709551610 + 3 * o, last⟩ = wrapInt (last + 7 - 3 * o) := by
  have hround : ((last : Int) - (18446744073709551610 + 3 * o : Nat) + 1) =
      (last + 7 - 3 * o) + 2 ^ 32 * (- 4294967296) := by
    norm_num
    ring
  rw [sizeAsInt, wrapInt_sizeT, hround, wrapInt, wrapInt]
  exact Int.add_mul_bmod_self_left _ (2 ^ 32) _

theorem getRange_ofSize (ho : o < 2147483648) (hc : 0 < c) (hc' : c < 2147483648) :
    (ofSize o c).isValid = true ∧ wrapInt (ofSize o c).getOffset = o ∧
      wrapInt (ofSize o c).getSize = c := by
  have hr : ofSize o c = ⟨o, o + c - 1⟩ := by
    rw [ofSize_eq (by omega), if_neg (by omega), if_pos (by omega)]
  have hsize : (⟨o, o + c - 1⟩ : Range).getSize = c := by
    show o + c - 1 - o + 1 = c
    omega
  rw [hr, hsize]
  refine ⟨isValid_iff.mpr ?_, wrapInt_eq ?_ ?_, wrapInt_eq (by omega) (by omega)⟩
  · show o ≤ o + c - 1
    omega
  · show -2 ^ 31 ≤ (o : Int)
    omega
  · show (o : Int) < 2 ^ 31
    omega

/-! ## What is drawn -/

/-- A mesh in the fan mode without a vertex map, and a draw of it that no check stops. -/
structure DrawsFan (m : MeshDraw) (args : DrawArgs) : Prop where
  mode : m.primitiveType = .triangleFan
  map : m.useIndexBuffer = false ∨ m.indexBuffer = none
  instances : 0 < args.instancecount
  direct : args.indirectargs = none
  drawState : args.validateDrawState = none

namespace DrawsFan

variable {m : MeshDraw} {args : DrawArgs} (h : DrawsFan m args)

include h

theorem ownIndexBuffer : m.ownIndexBuffer = none := by
  rw [MeshDraw.ownIndexBuffer]
  rcases h.map with huse | hnone
  · rw [huse]
    rfl
  · rw [hnone, ite_self]

theorem drawError : m.drawError args = none := by
  rw [MeshDraw.drawError, h.ownIndexBuffer, h.direct, h.drawState]
  simp

section

variable {indexcount : Int} {range : Range} (hcount : m.vertexCount ≠ 0)
  (hsource : m.drawSource (some createFanIndexBuffer) = some ⟨some createFanIndexBuffer, indexcount, range⟩)
include hcount hsource

/-- The indices that are drawn, if there are any. -/
theorem drawInternal_indexed (hpos : 0 < indexcount) :
    m.drawInternal (some createFanIndexBuffer) args =
      if 0 < sizeAsInt (clipRange (sizeT indexcount) range) then .indexed {
        primitiveType := m.primitiveType
        indexType := m.indexDataType
        instanceCount := args.instancecount
        indexBuffer := createFanIndexBuffer
        indexBufferOffset := (clipRange (sizeT indexcount) range).first * 2 % 2 ^ 64
        indexCount := sizeAsInt (clipRange (sizeT indexcount) range)
        indirectBufferOffset := indirectOffset args }
      else .nothing := by
  have hinstances := h.instances
  rw [drawInternal, if_neg (by rintro (hzero | ⟨hle, -⟩); exacts [hcount hzero, by omega]),
    h.drawError, hsource]
  exact if_pos (.inl hpos)

theorem drawInternal_plain (hnone : indexcount ≤ 0) :
    m.drawInternal (some createFanIndexBuffer) args =
      if 0 < sizeAsInt (clipRange m.vertexCount range) then .plain {
        primitiveType := m.primitiveType
        vertexStart := wrapInt (clipRange m.vertexCount range).first
        vertexCount := sizeAsInt (clipRange m.vertexCount range)
        instanceCount := args.instancecount
        indirectBufferOffset := indirectOffset args }
      else .nothing := by
  have hinstances := h.instances
  rw [drawInternal, if_neg (by rintro (hzero | ⟨hle, -⟩); exacts [hcount hzero, by omega]),
    h.drawError, hsource]
  dsimp only
  rw [if_neg (by rw [h.direct]; rintro (hlt | hfalse); exacts [by omega, by cases hfalse])]
  rfl

end

theorem drawSource_none {n : Int} (hrange : m.drawRange = .invalid)
    (hindices : fanIndexCount m.vertexCount = some n) :
    m.drawSource (some createFanIndexBuffer) = some ⟨some createFanIndexBuffer, n, .invalid⟩ := by
  unfold drawSource
  rw [h.ownIndexBuffer]
  dsimp only
  rw [if_pos h.mode, hindices, hrange]
  rfl

theorem drawSource_some {o c : Nat} {n : Int} (ho : o ≤ 715827884) (hc : 0 < c)
    (hc' : c ≤ 715827884) (hrange : m.drawRange = .ofSize o c)
    (hindices : fanIndexCount m.vertexCount = some n) :
    m.drawSource (some createFanIndexBuffer) = some ⟨some createFanIndexBuffer, n, converted o c⟩ := by
  obtain ⟨hvalid, hoffset, hsize⟩ := getRange_ofSize (show o < 2147483648 by omega) hc
    (by omega)
  unfold drawSource
  rw [h.ownIndexBuffer]
  dsimp only
  rw [if_pos h.mode, hindices, hrange, hvalid, hoffset, hsize, fanIndexCount_eq,
    fanIndexCount_eq, if_pos ho, if_pos hc']
  rfl

end DrawsFan

/-! ## Triangles -/

theorem DrawsFan.triangles_undefined {m : MeshDraw} {args : DrawArgs} (h : DrawsFan m args)
    (topology : FanTopology) (hcount : m.vertexCount ≠ 0)
    (hsource : m.drawSource (some createFanIndexBuffer) = none) :
    (m.drawInternal (some createFanIndexBuffer) args).triangles topology = none := by
  have hinstances := h.instances
  rw [drawInternal, if_neg (by rintro (hzero | ⟨hle, -⟩); exacts [hcount hzero, by omega]),
    h.drawError, hsource]
  rfl

/-- A mesh with a triangle at least, whose draw range is `range` by now; `r` is what is
left of the indices. -/
structure DrawsIndices (m : MeshDraw) (args : DrawArgs) (range r : Range) : Prop
    extends DrawsFan m args where
  count : 3 ≤ m.vertexCount
  fits : m.vertexCount ≤ 715827884
  source : m.drawSource (some createFanIndexBuffer) =
    some ⟨some createFanIndexBuffer, 3 * ((m.vertexCount : Int) - 2), range⟩
  clip : clipRange (3 * (m.vertexCount - 2)) range = r

namespace DrawsIndices

variable {m : MeshDraw} {args : DrawArgs} {range : Range} (topology : FanTopology)

theorem drawInternal_eq {r : Range} (h : DrawsIndices m args range r) :
    m.drawInternal (some createFanIndexBuffer) args =
      if 0 < sizeAsInt r then .indexed {
        primitiveType := m.primitiveType
        indexType := m.indexDataType
        instanceCount := args.instancecount
        indexBuffer := createFanIndexBuffer
        indexBufferOffset := r.first * 2 % 2 ^ 64
        indexCount := sizeAsInt r
        indirectBufferOffset := indirectOffset args }
      else .nothing := by
  have hthree := h.count
  have hsize : sizeT (3 * ((m.vertexCount : Int) - 2)) = 3 * (m.vertexCount - 2) := by
    rw [sizeT_fanIndices h.fits, if_neg (by omega), if_neg (by omega)]
  rw [h.toDrawsFan.drawInternal_indexed (by omega) h.source (by omega), hsize, h.clip]

variable {last o : Nat}

theorem triangles_iff {t k n : Nat} (h : DrawsIndices m args range ⟨3 * t, last⟩)
    (hlast : last + 1 = 3 * t + 3 * k) (hk : 1 ≤ k) (hsmall : last < 2147483648) (ho : o ≤ t + 2) :
    (m.drawInternal (some createFanIndexBuffer) args).triangles topology =
        some (fanOf (verticesFrom o n)) ↔
      m.indexDataType = .uint16 ∧ k ≤ 65533 ∧ t = 0 ∧ o = 0 ∧ n = k + 2 := by
  have hsize : sizeAsInt ⟨3 * t, last⟩ = 3 * k := by
    rw [sizeAsInt_eq (by omega) (by omega)]
    omega
  rw [h.drawInternal_eq, hsize, if_pos (by omega)]
  refine indexed_triangles_iff topology rfl ?_ rfl hk ho
  show 3 * t * 2 % 2 ^ 64 = 6 * t
  omega

theorem triangles_nil {first : Nat} (h : DrawsIndices m args range ⟨first, last⟩)
    (hlast : last < first) (hsmall : first < 2147483648) :
    (m.drawInternal (some createFanIndexBuffer) args).triangles topology = some [] := by
  rw [h.drawInternal_eq, sizeAsInt_eq (by omega) (by omega), if_neg (by omega)]
  rfl

theorem triangles_ne {n : Nat} (h : DrawsIndices m args range ⟨18446744073709551610 + 3 * o, last⟩)
    (ho : o ≤ 1) (hlast : last + 1 = 3 * (m.vertexCount - 2)) (hn : 2147483640 ≤ last → 3 ≤ n) :
    (m.drawInternal (some createFanIndexBuffer) args).triangles topology ≠
      some (fanOf (verticesFrom o n)) := by
  have hthree := h.count
  rw [h.drawInternal_eq, sizeAsInt_below]
  by_cases hpos : 0 < wrapInt (last + 7 - 3 * o)
  · rw [if_pos hpos, DrawOutcome.triangles, DrawIndexedCommand.indices, if_neg]
    · exact (Option.some_ne_none _).symm
    · have hoffset : (18446744073709551610 + 3 * o) * 2 % 18446744073709551616 =
          18446744073709551604 + 6 * o := by
        rw [show (18446744073709551610 + 3 * o) * 2 =
          18446744073709551604 + 6 * o + 18446744073709551616 by omega, Nat.add_mod_right,
          Nat.mod_eq_of_lt (by omega)]
      show ¬ (18446744073709551610 + 3 * o) * 2 % 18446744073709551616 + _ ≤ 393198
      omega
  · rw [if_neg hpos]
    intro heq
    have hlarge : 2147483640 ≤ last := by
      by_contra hlt
      rw [wrapInt_eq (by omega) (by omega)] at hpos
      omega
    rw [fanOf_verticesFrom] at heq
    obtain ⟨j, rfl⟩ : ∃ j, n = j + 3 := ⟨n - 3, by omega⟩
    rw [show j + 3 - 2 = j + 1 by omega, List.range_succ_eq_map, List.map_cons] at heq
    cases heq

end DrawsIndices

theorem assemble_short (topology : FanTopology) {vertices : List Int} (h : vertices.length ≤ 2) :
    topology.assemble vertices = [] := by
  match vertices with
  | [] => cases topology <;> rfl
  | [a] => cases topology <;> rfl
  | [a, b] => cases topology <;> rfl

/-- A mesh without a triangle, whose draw range is `range` by now; `r` is what is left
of the vertices. -/
structure DrawsVertices (m : MeshDraw) (args : DrawArgs) (range r : Range) : Prop
    extends DrawsFan m args where
  count : m.vertexCount = 1 ∨ m.vertexCount = 2
  source : m.drawSource (some createFanIndexBuffer) =
    some ⟨some createFanIndexBuffer, 3 * ((m.vertexCount : Int) - 2), range⟩
  clip : clipRange m.vertexCount range = r

namespace DrawsVertices

variable {m : MeshDraw} {args : DrawArgs} {range : Range} (topology : FanTopology)

theorem drawInternal_eq {r : Range} (h : DrawsVertices m args range r) :
    m.drawInternal (some createFanIndexBuffer) args =
      if 0 < sizeAsInt r then .plain {
        primitiveType := m.primitiveType
        vertexStart := wrapInt r.first
        vertexCount := sizeAsInt r
        instanceCount := args.instancecount
        indirectBufferOffset := indirectOffset args }
      else .nothing := by
  have hcount := h.count
  rw [h.toDrawsFan.drawInternal_plain (by omega) h.source (by omega), h.clip]

theorem triangles_nil {first last : Nat} (h : DrawsVertices m args range ⟨first, last⟩)
    (hlast : last + 1 ≤ first + 2) (hsmall : first < 2147483648) (hlast' : last < 2147483648) :
    (m.drawInternal (some createFanIndexBuffer) args).triangles topology = some [] := by
  rw [h.drawInternal_eq, sizeAsInt_eq (by omega) (by omega)]
  split
  · rw [DrawOutcome.triangles, assemble_short topology (by
      rw [verticesFrom, List.length_map, List.length_range]
      dsimp only
      omega)]
  · rfl

theorem triangles_ne {o last : Nat}
    (h : DrawsVertices m args range ⟨18446744073709551610 + 3 * o, last⟩) (ho : o ≤ 1)
    (hlast : last < 2) :
    (m.drawInternal (some createFanIndexBuffer) args).triangles topology ≠ some [] := by
  have hsize : wrapInt ((last : Int) + 7 - 3 * o) = last + 7 - 3 * o :=
    wrapInt_eq (by omega) (by omega)
  rw [h.drawInternal_eq, sizeAsInt_below, hsize, if_pos (by omega), DrawOutcome.triangles,
    show ((last : Int) + 7 - 3 * o).toNat = (last + 4 - 3 * o) + 1 + 1 + 1 by omega,
    verticesFrom_succ, verticesFrom_succ, verticesFrom_succ]
  generalize wrapInt _ = start
  have hproper : (Corners.mk start (start + 1) (start + 1 + 1)).Proper := by
    refine ⟨?_, ?_, ?_⟩ <;> simp only [ne_eq] <;> omega
  obtain ⟨others, hassemble⟩ := assemble_cons topology
    (verticesFrom (start + 1 + 1 + 1) (last + 4 - 3 * o)) hproper
  rw [hassemble]
  exact fun heq => List.cons_ne_nil _ _ (Option.some.inj heq)

end DrawsVertices

/-! ## The result -/

theorem fanOf_short (start : Int) {n : Nat} (h : n ≤ 2) : fanOf (verticesFrom start n) = [] := by
  rw [fanOf_verticesFrom, show n - 2 = 0 by omega]
  rfl

theorem DrawsFan.whole_iff {m : MeshDraw} {args : DrawArgs} (h : DrawsFan m args)
    (topology : FanTopology) (hcount : m.vertexCount ≠ 0) (hrange : m.drawRange = .invalid) :
    (m.drawInternal (some createFanIndexBuffer) args).triangles topology =
        some (fanOf (verticesFrom (0 : Nat) m.vertexCount)) ↔
      m.vertexCount ≤ 2 ∨ (m.indexDataType = .uint16 ∧ m.vertexCount ≤ 65535) := by
  have hclip (n : Nat) (hn : 0 < n) (hn' : n < 4294967296) : clipRange n .invalid = ⟨0, n - 1⟩ := by
    rw [clipRange, if_neg (by rw [invalid_isValid]; exact Bool.false_ne_true), ofSize_eq
      (by omega), if_neg (by omega), if_pos (by omega), Nat.zero_add]
  by_cases hfits : m.vertexCount ≤ 715827884
  · have hsource := h.drawSource_none hrange (fanIndexCount_eq.trans (if_pos hfits))
    by_cases htwo : m.vertexCount ≤ 2
    · have hdraws : DrawsVertices m args .invalid ⟨0, m.vertexCount - 1⟩ :=
        ⟨h, by omega, hsource, hclip _ (by omega) (by omega)⟩
      rw [hdraws.triangles_nil topology (by omega) (by omega) (by omega), fanOf_short _ htwo]
      exact iff_of_true rfl (.inl htwo)
    · have hdraws : DrawsIndices m args .invalid ⟨3 * 0, 3 * (m.vertexCount - 2) - 1⟩ :=
        ⟨h, by omega, hfits, hsource, hclip _ (by omega) (by omega)⟩
      rw [hdraws.triangles_iff topology (by omega) (show 1 ≤ m.vertexCount - 2 by omega) (by omega)
        (Nat.zero_le _)]
      constructor
      · rintro ⟨htype, hle, -⟩
        exact .inr ⟨htype, by omega⟩
      · rintro (hle | ⟨htype, hle⟩)
        · exact absurd hle htwo
        · exact ⟨htype, by omega, rfl, rfl, by omega⟩
  · have hnone : m.drawSource (some createFanIndexBuffer) = none := by
      unfold drawSource
      rw [h.ownIndexBuffer]
      dsimp only
      rw [if_pos h.mode, fanIndexCount_eq, if_neg hfits]
      rfl
    rw [h.triangles_undefined topology hcount hnone]
    constructor
    · intro heq
      cases heq
    · intro hor
      omega

/-- The draw ranges for which a mesh is drawn as a native fan. -/
def RangeFits (vertexCount : Nat) (type : IndexDataType) (start count : Nat) : Prop :=
  vertexCount ≤ 715827884 ∧ start ≤ 715827884 ∧ count ≤ 715827884 ∧
    ((vertexCount ≤ 2 ∧ ¬ ((start = 0 ∧ (count = 3 ∨ count = 4)) ∨ (start = 1 ∧ count = 3))) ∨
    (3 ≤ vertexCount ∧ vertexCount ≤ start ∧ 3 ≤ count) ∨
    (vertexCount = 3 ∧ start = 3 ∧ count = 1) ∨
    (3 ≤ vertexCount ∧ start = 0 ∧ 5 ≤ count ∧ vertexCount ≤ count ∧ type = .uint16 ∧
      vertexCount ≤ 65535))

theorem DrawsFan.points_iff {m : MeshDraw} {args : DrawArgs} (h : DrawsFan m args)
    (topology : FanTopology) (hcount : m.vertexCount = 1 ∨ m.vertexCount = 2) (ho : o ≤ 715827884)
    (hc : 0 < c) (hc' : c ≤ 715827884) (hrange : m.drawRange = .ofSize o c) :
    (m.drawInternal (some createFanIndexBuffer) args).triangles topology = some [] ↔
      ¬ ((o = 0 ∧ (c = 3 ∨ c = 4)) ∨ (o = 1 ∧ c = 3)) := by
  have hfits : m.vertexCount ≤ 715827884 := by omega
  have hsource := h.drawSource_some ho hc hc' hrange (fanIndexCount_eq.trans (if_pos hfits))
  have hn : 0 < m.vertexCount := by omega
  have hn' : m.vertexCount < 4294967296 := by omega
  by_cases hbelow : (o = 0 ∧ (c = 3 ∨ c = 4)) ∨ (o = 1 ∧ c = 3)
  · have hdraws : DrawsVertices m args _ _ := ⟨h, hcount, hsource, clip_below hn hn' hbelow⟩
    exact iff_of_false (hdraws.triangles_ne topology (by omega) (by omega)) (not_not_intro hbelow)
  · refine iff_of_true ?_ hbelow
    by_cases hfourth : o = 3 ∧ c = 1
    · obtain ⟨rfl, rfl⟩ := hfourth
      have hdraws : DrawsVertices m args _ _ := ⟨h, hcount, hsource, clip_fourth hn hn'⟩
      exact hdraws.triangles_nil topology (by omega) (by omega) (by omega)
    · by_cases hproper : 2 ≤ o ∧ 3 ≤ c
      · have hdraws : DrawsVertices m args _ _ :=
          ⟨h, hcount, hsource, clip_proper hn hn' ho hc' hproper.1 hproper.2⟩
        exact hdraws.triangles_nil topology (by omega) (by omega) (by omega)
      · have hdraws : DrawsVertices m args _ _ :=
          ⟨h, hcount, hsource, clip_whole hn hn' ho hc hc' hbelow hfourth hproper⟩
        exact hdraws.triangles_nil topology (by omega) (by omega) (by omega)

theorem DrawsFan.triangles_iff {m : MeshDraw} {args : DrawArgs} (h : DrawsFan m args)
    (topology : FanTopology) (hcount : 3 ≤ m.vertexCount) (hfits : m.vertexCount ≤ 715827884)
    (ho : o ≤ 715827884) (hc : 0 < c) (hc' : c ≤ 715827884) (hrange : m.drawRange = .ofSize o c) :
    (m.drawInternal (some createFanIndexBuffer) args).triangles topology =
        some (fanOf (verticesFrom o (min m.vertexCount (o + c) - o))) ↔
      (m.vertexCount ≤ o ∧ 3 ≤ c) ∨ (m.vertexCount = 3 ∧ o = 3 ∧ c = 1) ∨
      (o = 0 ∧ 5 ≤ c ∧ m.vertexCount ≤ c ∧ m.indexDataType = .uint16 ∧ m.vertexCount ≤ 65535) := by
  have hsource := h.drawSource_some ho hc hc' hrange (fanIndexCount_eq.trans (if_pos hfits))
  have hn : 0 < 3 * (m.vertexCount - 2) := by omega
  have hn' : 3 * (m.vertexCount - 2) < 4294967296 := by omega
  by_cases hbelow : (o = 0 ∧ (c = 3 ∨ c = 4)) ∨ (o = 1 ∧ c = 3)
  · have hdraws : DrawsIndices m args _ _ := ⟨h, hcount, hfits, hsource, clip_below hn hn' hbelow⟩
    exact iff_of_false (hdraws.triangles_ne topology (by omega) (by omega) (by omega)) (by omega)
  by_cases hfourth : o = 3 ∧ c = 1
  · obtain ⟨rfl, rfl⟩ := hfourth
    have hdraws : DrawsIndices m args _ ⟨3 * 1, _⟩ := ⟨h, hcount, hfits, hsource, clip_fourth hn hn'⟩
    by_cases hthree : m.vertexCount = 3
    · rw [hdraws.triangles_nil topology (by omega) (by omega), fanOf_short _ (by omega)]
      exact iff_of_true rfl (.inr (.inl ⟨hthree, rfl, rfl⟩))
    · rw [hdraws.triangles_iff topology (show _ = 3 * 1 + 3 * (m.vertexCount - 3) by omega)
        (by omega) (by omega) (by omega)]
      omega
  by_cases hproper : 2 ≤ o ∧ 3 ≤ c
  · have hdraws : DrawsIndices m args _ _ :=
      ⟨h, hcount, hfits, hsource, clip_proper hn hn' ho hc' hproper.1 hproper.2⟩
    by_cases hbehind : m.vertexCount ≤ o
    · rw [hdraws.triangles_nil topology (by omega) (by omega), fanOf_short _ (by omega)]
      exact iff_of_true rfl (.inl ⟨hbehind, hproper.2⟩)
    · rw [hdraws.triangles_iff topology
        (show _ = 3 * (o - 2) + 3 * min (m.vertexCount - o) (c - 2) by omega) (by omega) (by omega)
        (by omega)]
      omega
  · have hdraws : DrawsIndices m args _ ⟨3 * 0, _⟩ :=
      ⟨h, hcount, hfits, hsource, clip_whole hn hn' ho hc hc' hbelow hfourth hproper⟩
    have hlast : 3 * (m.vertexCount - 2) - 1 + 1 = 3 * 0 + 3 * (m.vertexCount - 2) := by omega
    by_cases hshort : c < 3
    · -- all triangles are drawn, where there is none of the fan
      rw [fanOf_short _ (by omega), ← fanOf_short (0 : Nat) (Nat.zero_le 2),
        hdraws.triangles_iff topology hlast (by omega) (by omega) (by omega)]
      omega
    · rw [hdraws.triangles_iff topology hlast (by omega) (by omega) (by omega)]
      constructor
      · rintro ⟨htype, hle, -, rfl, heq⟩
        exact .inr (.inr ⟨rfl, by omega, by omega, htype, by omega⟩)
      · rintro (hbehind | hthree | ⟨rfl, -, hle, htype, hmax⟩)
        · omega
        · omega
        · exact ⟨htype, by omega, rfl, rfl, by omega⟩

theorem DrawsFan.drawSource_undefined {m : MeshDraw} {args : DrawArgs} (h : DrawsFan m args)
    (ho : o < 2147483648) (hc : 0 < c) (hc' : c < 2147483648) (hrange : m.drawRange = .ofSize o c)
    (hlarge : ¬ (m.vertexCount ≤ 715827884 ∧ o ≤ 715827884 ∧ c ≤ 715827884)) :
    m.drawSource (some createFanIndexBuffer) = none := by
  unfold drawSource
  rw [h.ownIndexBuffer]
  dsimp only
  rw [if_pos h.mode, hrange, (getRange_ofSize ho hc hc').1, (getRange_ofSize ho hc hc').2.1,
    (getRange_ofSize ho hc hc').2.2, fanIndexCount_eq, fanIndexCount_eq, fanIndexCount_eq]
  by_cases hv : m.vertexCount ≤ 715827884
  · by_cases hstart : o ≤ 715827884
    · have hcount : ¬ c ≤ 715827884 := fun hcount => hlarge ⟨hv, hstart, hcount⟩
      rw [if_pos hv, if_pos hstart, if_neg hcount]
      rfl
    · rw [if_pos hv, if_neg hstart]
      rfl
  · rw [if_neg hv]
    rfl

/-- The condition for a mesh: of a mesh that is drawn as a whole, the vertices have
to fit the index buffer, and its index type has to be that of the buffer. -/
def MeshDraw.FanFits (m : MeshDraw) : Prop :=
  match m.getDrawRange with
  | none => m.vertexCount ≤ 2 ∨ (m.indexDataType = .uint16 ∧ m.vertexCount ≤ 65535)
  | some (start, count) =>
    m.vertexCount = 0 ∨ RangeFits m.vertexCount m.indexDataType start.toNat count.toNat

/-- **Emulated fans.** In the fan mode, with any draw range, a mesh is drawn with the
triangles of a native fan over the vertices of the draw range if and only if `FanFits`
holds, for both kinds of backends. -/
theorem fan_triangles_iff {m : MeshDraw} {args : DrawArgs} (h : DrawsFan m args)
    (hrange : IsDrawRange m.drawRange) (topology : FanTopology) :
    (m.drawInternal (some createFanIndexBuffer) args).triangles topology = some m.nativeFan ↔
      m.FanFits := by
  have hempty : m.vertexCount = 0 →
      (m.drawInternal (some createFanIndexBuffer) args).triangles topology = some [] := by
    intro hzero
    rw [drawInternal, if_pos (.inl hzero)]
    rfl
  rcases hrange with hinvalid | ⟨o, c, ho, hc, hc', hr⟩
  · have hget : m.getDrawRange = none := by
      rw [getDrawRange, hinvalid]
      rfl
    rw [nativeFan, MeshDraw.FanFits, hget]
    by_cases hzero : m.vertexCount = 0
    · rw [hempty hzero, fanOf_short _ (by omega)]
      exact iff_of_true rfl (.inl (by omega))
    · exact h.whole_iff topology hzero hinvalid
  · obtain ⟨hvalid, hoffset, hsize⟩ := getRange_ofSize ho hc hc'
    have hget : m.getDrawRange = some ((o : Int), (c : Int)) := by
      rw [getDrawRange, hr, if_pos hvalid, hoffset, hsize]
    have hlength : (min (m.vertexCount : Int) (o + c) - o).toNat = min m.vertexCount (o + c) - o := by
      omega
    rw [nativeFan, MeshDraw.FanFits, hget]
    dsimp only
    rw [hlength, Int.toNat_natCast, Int.toNat_natCast, RangeFits]
    by_cases hzero : m.vertexCount = 0
    · rw [hempty hzero, fanOf_short _ (by omega)]
      exact iff_of_true rfl (.inl hzero)
    by_cases hlarge : m.vertexCount ≤ 715827884 ∧ o ≤ 715827884 ∧ c ≤ 715827884
    · obtain ⟨hv, ho, hc'⟩ := hlarge
      by_cases htwo : m.vertexCount ≤ 2
      · rw [fanOf_short _ (by omega), h.points_iff topology (by omega) ho hc hc' hr]
        omega
      · rw [h.triangles_iff topology (by omega) hv ho hc hc' hr]
        constructor
        · rintro (hbehind | hfourth | ⟨hstart, hfive, hle, htype, hmax⟩)
          · exact .inr ⟨hv, ho, hc', .inr (.inl ⟨by omega, hbehind⟩)⟩
          · exact .inr ⟨hv, ho, hc', .inr (.inr (.inl hfourth))⟩
          · exact .inr ⟨hv, ho, hc', .inr (.inr (.inr ⟨by omega, hstart, hfive, hle, htype, hmax⟩))⟩
        · rintro (heq | ⟨-, -, -, hle | hbehind | hfourth | ⟨-, hwhole⟩⟩)
          · exact absurd heq hzero
          · exact absurd hle.1 htwo
          · exact .inl hbehind.2
          · exact .inr (.inl hfourth)
          · exact .inr (.inr hwhole)
    · rw [h.triangles_undefined topology hzero (h.drawSource_undefined ho hc hc' hr hlarge)]
      constructor
      · intro heq
        cases heq
      · rintro (heq | ⟨hv, hstart, hcount, -⟩)
        · exact absurd heq hzero
        · exact absurd ⟨hv, hstart, hcount⟩ hlarge

/-- Five vertices, all of them to be drawn. -/
def fanOfFive : MeshDraw where
  vertexCount := 5
  primitiveType := .triangleFan
  useIndexBuffer := false
  indexBuffer := none
  indexCount := 0
  indexDataType := .uint16
  drawRange := .invalid

def plainArgs : DrawArgs := ⟨1, none, 0, fun _ => none, none⟩

theorem fanOfFive_drawn :
    (fanOfFive.drawInternal (some createFanIndexBuffer) plainArgs).triangles .triangleList =
      some [⟨0, 1, 2⟩, ⟨0, 2, 3⟩, ⟨0, 3, 4⟩] :=
  (fan_triangles_iff ⟨rfl, .inl rfl, by decide, rfl, rfl⟩ (.inl rfl) .triangleList).mpr
    (.inr ⟨rfl, by decide⟩)

/-- **A draw range from the first vertex on**: it becomes one that begins before the index
buffer. -/
theorem fan_range_not_drawn : ∃ m, fanOfFive.setDrawRange 0 4 = .ok m ∧
    m.nativeFan = [⟨0, 1, 2⟩, ⟨0, 2, 3⟩] ∧
    (m.drawInternal (some createFanIndexBuffer) plainArgs).triangles .triangleList = none :=
  ⟨_, rfl, by decide +kernel, by decide +kernel⟩

end Lhatove.Graphics
