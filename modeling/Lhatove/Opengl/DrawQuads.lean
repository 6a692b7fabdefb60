import Lhatove.Graphics.MeshDraws
import Lhatove.Opengl.VertexAttributes

/-!
# Quads in chunks

`Graphics::drawQuads` of the opengl backend: more quads than 16-bit indices reach are drawn
in several draws, with a base vertex or with the offsets of the buffers advanced.

- `advanceVertexOffsets_spec`: each buffer is advanced once;
- `baseDraws_spec`, `advancedDraws_spec`: the draws of the two loops;
- `drawQuads_exact_iff`: the quads are drawn, in order and once, if no `int` overflows.
-/

namespace Lhatove.Opengl

open Graphics (Index fillIndices uint16Max)
open List
open BitVec (getLsbD_zero ofNat toNat)

/-- `MAX_QUADS_PER_DRAW` -/
def maxQuadsPerDraw : Nat := uint16Max / 4

/-- What `createQuadIndexBuffer` fills the shared index buffer with. -/
def quadIndices : List Index := fillIndices .quads 0 (.ofNat 16 uint16Max)

/-- A draw with indices from the start of the index buffer, and the offsets of the buffers. -/
structure QuadDraw where
  indexCount : Nat
  basevertex : Nat
  offsets : Nat → Nat

/-- A number that is no `int`. -/
def Overflows (n : Nat) : Prop := 2 ^ 31 ≤ n

instance (n : Nat) : Decidable (Overflows n) := Nat.decLe ..

/-- The loop of `advanceVertexOffsets`, from an attribute on, with `touchedbuffers`. The
product is an `int`, the offset a `size_t`. -/
def advanceFrom (attributes : VertexAttributes) (vertexcount : Nat) :
    Nat → Nat → BitVec 32 → (Nat → Nat) → Option (Nat → Nat)
  | 0, _, _, offsets => some offsets
  | left + 1, i, touched, offsets =>
    if attributes.enableBits.getLsbD i = true then
      let buffer := (attributes.attribs i).bufferIndex
      let bufferbit := 1#32 <<< buffer
      if touched &&& bufferbit = 0#32 then
        let step := attributes.bufferLayouts buffer * vertexcount
        if Overflows step then
          none
        else
          advanceFrom attributes vertexcount left (i + 1) (touched ||| bufferbit)
            (Function.update offsets buffer ((offsets buffer + step) % 2 ^ 64))
      else
        advanceFrom attributes vertexcount left (i + 1) touched offsets
    else
      advanceFrom attributes vertexcount left (i + 1) touched offsets

/-- `advanceVertexOffsets`; there are 30 attributes. -/
def advanceVertexOffsets (attributes : VertexAttributes) (offsets : Nat → Nat) (vertexcount : Nat) :
    Option (Nat → Nat) :=
  advanceFrom attributes vertexcount 30 0 0#32 offsets

/-- The loop with a base vertex. Each turn is about a quad at least. -/
def baseDraws (offsets : Nat → Nat) (count : Nat) : Nat → Nat → Nat → Option (List QuadDraw)
  | 0, _, _ => some []
  | fuel + 1, quadindex, basevertex =>
    if quadindex < count then
      let quadcount := min maxQuadsPerDraw (count - quadindex)
      if Overflows (basevertex + quadcount * 4) ∨ Overflows (quadindex + maxQuadsPerDraw) then
        none
      else
        (baseDraws offsets count fuel (quadindex + maxQuadsPerDraw)
          (basevertex + quadcount * 4)).map (⟨quadcount * 6, basevertex, offsets⟩ :: ·)
    else
      some []

/-- The loop that advances the offsets. -/
def advancedDraws (attributes : VertexAttributes) (count : Nat) :
    Nat → Nat → (Nat → Nat) → Option (List QuadDraw)
  | 0, _, _ => some []
  | fuel + 1, quadindex, offsets =>
    if quadindex < count then
      let quadcount := min maxQuadsPerDraw (count - quadindex)
      let advanced :=
        if maxQuadsPerDraw < count then advanceVertexOffsets attributes offsets (quadcount * 4)
        else some offsets
      match advanced with
      | none => none
      | some offsets' =>
        if Overflows (quadindex + maxQuadsPerDraw) then
          none
        else
          (advancedDraws attributes count fuel (quadindex + maxQuadsPerDraw) offsets').map
            (⟨quadcount * 6, 0, offsets⟩ :: ·)
    else
      some []

/-- `drawQuads`, behind the checks of the shader: the draws, if no `int` overflows. -/
def drawQuads (isBaseVertexSupported : Bool) (start count : Nat) (attributes : VertexAttributes)
    (buffers : BufferBindings) : Option (List QuadDraw) :=
  let offsets := fun buffer => (buffers buffer).offset
  if isBaseVertexSupported = true then
    if Overflows (start * 4) then none else baseDraws offsets count count 0 (start * 4)
  else
    let advanced :=
      if 0 < start then
        if Overflows (start * 4) then none
        else advanceVertexOffsets attributes offsets (start * 4)
      else
        some offsets
    match advanced with
    | none => none
    | some offsets => advancedDraws attributes count count 0 offsets

/-! ## What is drawn -/

/-- The corners of the two triangles of a quad. -/
def quadVertices (q : Nat) : List Nat :=
  [4 * q, 4 * q + 1, 4 * q + 2, 4 * q + 2, 4 * q + 1, 4 * q + 3]

/-- The corners of the quads from `start` on. -/
def quadsFrom (start count : Nat) : List Nat := (List.range' start count).flatMap quadVertices

namespace QuadDraw

/-- The indices that the draw reads. -/
def indices (d : QuadDraw) : List Nat := (quadIndices.take d.indexCount).map BitVec.toNat

/-- Where the values of an attribute are fetched, for one index after the other; there is one
instance. -/
def fetches (attributes : VertexAttributes) (i : Nat) (d : QuadDraw) : List Nat :=
  let info := attributes.attribs i
  d.indices.map fun index =>
    let element :=
      if attributes.instanceBits.getLsbD info.bufferIndex = true then 0 else index + d.basevertex
    d.offsets info.bufferIndex + attributes.bufferLayouts info.bufferIndex * element +
      info.offsetFromVertex

end QuadDraw

/-- Where the value of an attribute is for a vertex of the buffers. -/
def attributeAddress (attributes : VertexAttributes) (buffers : BufferBindings) (i vertex : Nat) :
    Nat :=
  let info := attributes.attribs i
  (buffers info.bufferIndex).offset + attributes.bufferLayouts info.bufferIndex * vertex +
    info.offsetFromVertex

/-- The draws are those of the quads from `start` on: their indices are in the index buffer, and
each attribute is fetched for the corners of each quad in turn. -/
structure DrawsQuads (attributes : VertexAttributes) (buffers : BufferBindings) (start count : Nat)
    (draws : List QuadDraw) : Prop where
  indexCount : (draws.map QuadDraw.indexCount).sum = 6 * count
  indices : ∀ d ∈ draws, d.indexCount ≤ quadIndices.length
  fetches : ∀ i, attributes.enableBits.getLsbD i = true →
    draws.flatMap (QuadDraw.fetches attributes i) =
      (quadsFrom start count).map (attributeAddress attributes buffers i)

/-! ## The index buffer -/

theorem quadIndices_eq : quadIndices = (List.range 16383).flatMap fun i =>
    [ofNat 16 (4 * i), ofNat 16 (4 * i + 1), ofNat 16 (4 * i + 2),
      ofNat 16 (4 * i + 2), ofNat 16 (4 * i + 1), ofNat 16 (4 * i + 3)] := by
  have hcount : (ofNat 16 uint16Max).toNat / 4 = 16383 := rfl
  refine flatMap_congr fun i _ => ?_
  have hcorner : ∀ r, ofNat 16 (4 * i + r) = ofNat 16 (i * 4) + ofNat 16 r := by
    intro r
    rw [← BitVec.ofNat_add, Nat.mul_comm]
  have h0 := hcorner 0
  rw [Nat.add_zero] at h0
  rw [hcorner 1, hcorner 2, hcorner 3, h0]
  simp

theorem quadIndices_length : quadIndices.length = 16383 * 6 := by
  have hlength : ∀ (n : Nat) (f : Nat → List Index), (∀ i, (f i).length = 6) →
      ((List.range n).flatMap f).length = n * 6 := by
    intro n f hf
    rw [length_flatMap]
    simp [hf]
  rw [quadIndices_eq]
  exact hlength 16383 _ fun _ => rfl

/-- The first indices of the index buffer are the corners of the first quads. -/
theorem quadIndices_take {k : Nat} (hk : k ≤ 16383) :
    (quadIndices.take (k * 6)).map toNat = quadsFrom 0 k := by
  obtain ⟨rest, hrest⟩ := Nat.exists_eq_add_of_le hk
  rw [quadIndices_eq, hrest, range_add, flatMap_append, take_left'
    (by rw [length_flatMap]; simp), quadsFrom, ← range_eq_range', map_flatMap]
  refine flatMap_congr fun i hi => ?_
  have hi := mem_range.mp hi
  have hindex : ∀ r < 4, (ofNat 16 (4 * i + r)).toNat = 4 * i + r := by
    intro r hr
    rw [BitVec.toNat_ofNat, Nat.mod_eq_of_lt (by omega)]
  have h0 := hindex 0 (by norm_num)
  rw [Nat.add_zero] at h0
  simp only [map_cons, map_nil, h0, hindex 1 (by norm_num), hindex 2 (by norm_num),
    hindex 3 (by norm_num), quadVertices]

theorem quadsFrom_append (start k rest : Nat) :
    quadsFrom start k ++ quadsFrom (start + k) rest = quadsFrom start (k + rest) := by
  rw [quadsFrom, quadsFrom, quadsFrom, ← flatMap_append, range'_append_1]

theorem quadsFrom_shift (start k : Nat) :
    quadsFrom start k = (quadsFrom 0 k).map (· + start * 4) := by
  rw [quadsFrom, quadsFrom, map_flatMap, range'_eq_map_range, range'_eq_map_range,
    flatMap_map, flatMap_map]
  refine flatMap_congr fun q _ => ?_
  simp only [quadVertices, map_cons, map_nil, Nat.zero_add]
  have hshift : ∀ r, 4 * (start + q) + r = 4 * q + r + start * 4 := by
    intro r
    ring
  have h0 := hshift 0
  rw [Nat.add_zero, Nat.add_zero] at h0
  rw [hshift 1, hshift 2, hshift 3, h0]

/-- One draw of quads: the offsets are advanced, or the base vertex is, or both. -/
theorem fetches_quads {attributes : VertexAttributes} {buffers : BufferBindings} {i done k : Nat}
    (hvertex : attributes.instanceBits.getLsbD (attributes.attribs i).bufferIndex = false)
    {d : QuadDraw} (hk : k ≤ 16383) (hcount : d.indexCount = k * 6) {vertices : Nat}
    (hoffset : d.offsets (attributes.attribs i).bufferIndex =
      (buffers (attributes.attribs i).bufferIndex).offset +
        attributes.bufferLayouts (attributes.attribs i).bufferIndex * vertices)
    (hvertices : vertices + d.basevertex = done * 4) :
    d.fetches attributes i =
      (quadsFrom done k).map (attributeAddress attributes buffers i) := by
  rw [QuadDraw.fetches, QuadDraw.indices, hcount, quadIndices_take hk, quadsFrom_shift done,
    map_map]
  refine map_congr_left fun index _ => ?_
  rw [Function.comp_apply, attributeAddress, hvertex, if_neg Bool.false_ne_true, hoffset,
    ← hvertices]
  ring

/-! ## Offsets that are advanced -/

variable {attributes : VertexAttributes}

/-- No step of a buffer of an enabled attribute is too long for an `int`. -/
def StepsFit (attributes : VertexAttributes) (vertexcount : Nat) : Prop :=
  ∀ i, attributes.enableBits.getLsbD i = true →
    ¬ Overflows (attributes.bufferLayouts (attributes.attribs i).bufferIndex * vertexcount)

theorem touched_bit {touched : BitVec 32} {buffer : Nat} :
    touched &&& 1#32 <<< buffer = 0#32 ↔ touched.getLsbD buffer = false := by
  rw [← not_iff_not, ← ne_eq, VertexState.and_bit_ne_zero_iff, Bool.not_eq_false]

theorem getLsbD_touch {touched : BitVec 32} {buffer : Nat} (h : buffer < 32) (b : Nat) :
    (touched ||| 1#32 <<< buffer).getLsbD b = (touched.getLsbD b || decide (b = buffer)) := by
  have hbit := @VertexState.getLsbD_bit buffer b true h
  rw [if_pos rfl, Bool.true_and] at hbit
  rw [BitVec.getLsbD_or, hbit]

/-- The rest of the loop: what is touched stays, the buffers of the other attributes are
advanced, each of them once. -/
theorem advanceFrom_spec {vertexcount : Nat} (hfit : StepsFit attributes vertexcount) (left : Nat)
    {i : Nat} (hleft : left + i = 30) (touched : BitVec 32) (offsets : Nat → Nat) :
    ∃ offsets', advanceFrom attributes vertexcount left i touched offsets = some offsets' ∧
      (∀ b, touched.getLsbD b = true → offsets' b = offsets b) ∧
      ∀ j, i ≤ j → attributes.enableBits.getLsbD j = true →
        touched.getLsbD (attributes.attribs j).bufferIndex = false →
          offsets' (attributes.attribs j).bufferIndex =
            (offsets (attributes.attribs j).bufferIndex +
              attributes.bufferLayouts (attributes.attribs j).bufferIndex * vertexcount) % 2 ^ 64 := by
  induction left generalizing i touched offsets with
  | zero =>
    refine ⟨offsets, rfl, fun _ _ => rfl, ?_⟩
    intro j hj henable
    have := attributes.enabled_lt j henable
    omega
  | succ left ih =>
    rw [advanceFrom]
    dsimp only
    split_ifs with henable htouched hoverflow
    · exact absurd hoverflow (hfit i henable)
    · -- the first attribute of its buffer
      have hslot := attributes.bufferIndex_lt i henable
      obtain ⟨offsets', heq, hkept, hadvanced⟩ := ih (i := i + 1) (by omega)
        (touched ||| 1#32 <<< (attributes.attribs i).bufferIndex)
        (Function.update offsets (attributes.attribs i).bufferIndex
          ((offsets (attributes.attribs i).bufferIndex +
            attributes.bufferLayouts (attributes.attribs i).bufferIndex * vertexcount) % 2 ^ 64))
      have hclear := touched_bit.mp htouched
      have hsame := hkept (attributes.attribs i).bufferIndex
        (by rw [getLsbD_touch hslot, decide_eq_true rfl, Bool.or_true])
      rw [Function.update_self] at hsame
      refine ⟨offsets', heq, ?_, ?_⟩
      · intro b hb
        have hne : b ≠ (attributes.attribs i).bufferIndex := by
          rintro rfl
          exact Bool.false_ne_true (hclear.symm.trans hb)
        rw [hkept b (by rw [getLsbD_touch hslot, hb, Bool.true_or]), Function.update_of_ne hne]
      · intro j hj henable' hj'
        by_cases hbuffer : (attributes.attribs j).bufferIndex = (attributes.attribs i).bufferIndex
        · rw [hbuffer]
          exact hsame
        · have hlater : i + 1 ≤ j := by
            rcases hj.eq_or_lt with rfl | hlt
            · exact absurd rfl hbuffer
            · exact hlt
          rw [hadvanced j hlater henable'
            (by rw [getLsbD_touch hslot, hj', decide_eq_false hbuffer, Bool.or_false]),
            Function.update_of_ne hbuffer]
    · -- its buffer has been advanced
      obtain ⟨offsets', heq, hkept, hadvanced⟩ := ih (i := i + 1) (by omega) touched offsets
      refine ⟨offsets', heq, hkept, ?_⟩
      intro j hj henable' hj'
      rcases hj.eq_or_lt with rfl | hlt
      · exact absurd (touched_bit.mpr hj') htouched
      · exact hadvanced j hlt henable' hj'
    · obtain ⟨offsets', heq, hkept, hadvanced⟩ := ih (i := i + 1) (by omega) touched offsets
      refine ⟨offsets', heq, hkept, ?_⟩
      intro j hj henable' hj'
      rcases hj.eq_or_lt with rfl | hlt
      · exact absurd henable' henable
      · exact hadvanced j hlt henable' hj'

/-- A step that is too long is found, unless its buffer has been touched. -/
theorem advanceFrom_none {vertexcount : Nat} (left : Nat) {i : Nat} (hleft : left + i = 30)
    (touched : BitVec 32) (offsets : Nat → Nat) {j : Nat} (hj : i ≤ j)
    (henable : attributes.enableBits.getLsbD j = true)
    (htouched : touched.getLsbD (attributes.attribs j).bufferIndex = false)
    (hoverflow : Overflows
      (attributes.bufferLayouts (attributes.attribs j).bufferIndex * vertexcount)) :
    advanceFrom attributes vertexcount left i touched offsets = none := by
  induction left generalizing i touched offsets with
  | zero =>
    have := attributes.enabled_lt j henable
    omega
  | succ left ih =>
    rw [advanceFrom]
    dsimp only
    split_ifs with henable' htouched' hoverflow'
    · rfl
    · have hslot := attributes.bufferIndex_lt i henable'
      have hbuffer : (attributes.attribs j).bufferIndex ≠ (attributes.attribs i).bufferIndex := by
        intro h
        exact hoverflow' (h ▸ hoverflow)
      have hlater : i + 1 ≤ j := by
        rcases hj.eq_or_lt with rfl | hlt
        · exact absurd rfl hbuffer
        · exact hlt
      exact ih (by omega) _ _ hlater
        (by rw [getLsbD_touch hslot, htouched, decide_eq_false hbuffer, Bool.or_false])
    · rcases hj.eq_or_lt with rfl | hlt
      · exact absurd (touched_bit.mpr htouched) htouched'
      · exact ih (by omega) _ _ hlt htouched
    · rcases hj.eq_or_lt with rfl | hlt
      · exact absurd henable henable'
      · exact ih (by omega) _ _ hlt htouched

theorem advanceVertexOffsets_spec {vertexcount : Nat} (hfit : StepsFit attributes vertexcount)
    (offsets : Nat → Nat) :
    ∃ offsets', advanceVertexOffsets attributes offsets vertexcount = some offsets' ∧
      ∀ j, attributes.enableBits.getLsbD j = true →
        offsets' (attributes.attribs j).bufferIndex =
          (offsets (attributes.attribs j).bufferIndex +
            attributes.bufferLayouts (attributes.attribs j).bufferIndex * vertexcount) % 2 ^ 64 := by
  obtain ⟨offsets', heq, -, hadvanced⟩ := advanceFrom_spec hfit 30 (i := 0) rfl 0#32 offsets
  exact ⟨offsets', heq, fun j henable => hadvanced j (Nat.zero_le j) henable getLsbD_zero⟩

theorem advanceVertexOffsets_none {vertexcount : Nat} (h : ¬ StepsFit attributes vertexcount)
    (offsets : Nat → Nat) : advanceVertexOffsets attributes offsets vertexcount = none := by
  rw [StepsFit] at h
  push Not at h
  obtain ⟨j, henable, hoverflow⟩ := h
  exact advanceFrom_none 30 rfl 0#32 offsets (Nat.zero_le j) henable getLsbD_zero
    hoverflow

/-! ## The loops -/

theorem maxQuadsPerDraw_eq : maxQuadsPerDraw = 16383 := rfl

/-- `quadindex`, where the loops end. -/
def lastQuadindex (count : Nat) : Nat :=
  (count + maxQuadsPerDraw - 1) / maxQuadsPerDraw * maxQuadsPerDraw

/-- The attributes are all fetched for each vertex. -/
def PerVertex (attributes : VertexAttributes) : Prop :=
  ∀ i, attributes.enableBits.getLsbD i = true →
    attributes.instanceBits.getLsbD (attributes.attribs i).bufferIndex = false

variable {buffers : BufferBindings} {start count : Nat}

theorem drawsQuads_nil (h : count = 0) : DrawsQuads attributes buffers start count [] := by
  subst h
  exact ⟨rfl, fun _ hd => absurd hd not_mem_nil, fun _ _ => rfl⟩

theorem DrawsQuads.zero {draws : List QuadDraw} (h : DrawsQuads attributes buffers start 0 draws)
    (start' : Nat) : DrawsQuads attributes buffers start' 0 draws :=
  ⟨h.indexCount, h.indices, h.fetches⟩

theorem DrawsQuads.cons {k rest : Nat} {d : QuadDraw} {draws : List QuadDraw} (hk : k ≤ 16383)
    (hcount : d.indexCount = k * 6)
    (hfetches : ∀ i, attributes.enableBits.getLsbD i = true → d.fetches attributes i =
      (quadsFrom start k).map (attributeAddress attributes buffers i))
    (h : DrawsQuads attributes buffers (start + k) rest draws) :
    DrawsQuads attributes buffers start (k + rest) (d :: draws) := by
  constructor
  · rw [map_cons, sum_cons, h.indexCount, hcount]
    ring
  · intro d' hd'
    rcases mem_cons.mp hd' with rfl | hd'
    · rw [hcount, quadIndices_length]
      exact Nat.mul_le_mul_right 6 hk
    · exact h.indices d' hd'
  · intro i hi
    rw [flatMap_cons, hfetches i hi, h.fetches i hi, ← map_append, quadsFrom_append]

theorem turn_quads {quadindex : Nat} (hlt : quadindex < count) :
    count - quadindex = min maxQuadsPerDraw (count - quadindex) +
      (count - (quadindex + maxQuadsPerDraw)) ∧
    min maxQuadsPerDraw (count - quadindex) ≤ 16383 ∧
    (quadindex + maxQuadsPerDraw < count →
      min maxQuadsPerDraw (count - quadindex) = maxQuadsPerDraw) := by
  rw [maxQuadsPerDraw_eq]
  omega

theorem DrawsQuads.turn {quadindex : Nat} {d : QuadDraw} {draws : List QuadDraw}
    (hlt : quadindex < count)
    (hcount : d.indexCount = min maxQuadsPerDraw (count - quadindex) * 6)
    (hfetches : ∀ i, attributes.enableBits.getLsbD i = true → d.fetches attributes i =
      (quadsFrom (start + quadindex) (min maxQuadsPerDraw (count - quadindex))).map
        (attributeAddress attributes buffers i))
    (h : DrawsQuads attributes buffers (start + (quadindex + maxQuadsPerDraw))
      (count - (quadindex + maxQuadsPerDraw)) draws) :
    DrawsQuads attributes buffers (start + quadindex) (count - quadindex) (d :: draws) := by
  obtain ⟨hsplit, hle, hfull⟩ := turn_quads hlt
  have hrest : DrawsQuads attributes buffers
      (start + quadindex + min maxQuadsPerDraw (count - quadindex))
      (count - (quadindex + maxQuadsPerDraw)) draws := by
    by_cases hmore : quadindex + maxQuadsPerDraw < count
    · rw [hfull hmore, Nat.add_assoc]
      exact h
    · rw [show count - (quadindex + maxQuadsPerDraw) = 0 by omega] at h ⊢
      exact h.zero _
  have hcons := DrawsQuads.cons hle hcount hfetches hrest
  rwa [← hsplit] at hcons

theorem baseDraws_spec (hvertex : PerVertex attributes) (hfit : ¬ Overflows (4 * (start + count)))
    (fuel : Nat) {quadindex basevertex : Nat} (hfuel : count - quadindex ≤ fuel)
    (hbase : quadindex < count → basevertex = (start + quadindex) * 4) :
    ∃ draws, baseDraws (fun buffer => (buffers buffer).offset) count fuel quadindex basevertex =
      some draws ∧
        DrawsQuads attributes buffers (start + quadindex) (count - quadindex) draws := by
  rw [Overflows] at hfit
  induction fuel generalizing quadindex basevertex with
  | zero => exact ⟨[], rfl, drawsQuads_nil (Nat.le_zero.mp hfuel)⟩
  | succ fuel ih =>
    rw [baseDraws]
    dsimp only
    split_ifs with hlt hoverflow
    · exfalso
      have hb := hbase hlt
      rw [Overflows, Overflows, maxQuadsPerDraw_eq] at hoverflow
      omega
    · obtain ⟨hsplit, hle, hfull⟩ := turn_quads hlt
      have hb := hbase hlt
      obtain ⟨draws, hdraws, hrest⟩ := @ih (quadindex + maxQuadsPerDraw)
        (basevertex + min maxQuadsPerDraw (count - quadindex) * 4)
        (by rw [maxQuadsPerDraw_eq]; omega)
        (fun hmore => by rw [hfull hmore, hb]; ring)
      refine ⟨_, by rw [hdraws]; rfl, ?_⟩
      refine .turn hlt rfl ?_ hrest
      intro i hi
      have hoffset : (buffers (attributes.attribs i).bufferIndex).offset =
          (buffers (attributes.attribs i).bufferIndex).offset +
            attributes.bufferLayouts (attributes.attribs i).bufferIndex * 0 := by
        rw [Nat.mul_zero, Nat.add_zero]
      exact fetches_quads (hvertex i hi) hle rfl hoffset ((Nat.zero_add _).trans hb)
    · exact ⟨[], rfl, drawsQuads_nil (by omega)⟩

theorem baseDraws_none (hfit : Overflows (4 * (start + count))) (offsets : Nat → Nat) (fuel : Nat)
    {quadindex basevertex : Nat} (hfuel : count - quadindex ≤ fuel) (hlt : quadindex < count)
    (hbase : basevertex = (start + quadindex) * 4) :
    baseDraws offsets count fuel quadindex basevertex = none := by
  induction fuel generalizing quadindex basevertex with
  | zero => omega
  | succ fuel ih =>
    obtain ⟨-, -, hfull⟩ := turn_quads hlt
    rw [baseDraws]
    dsimp only
    rw [if_pos hlt]
    split_ifs with hoverflow
    · rfl
    · have hmore : quadindex + maxQuadsPerDraw < count := by
        by_contra hlast
        refine hoverflow (.inl ?_)
        rw [Overflows] at hfit ⊢
        have hrest : min maxQuadsPerDraw (count - quadindex) = count - quadindex := by omega
        omega
      rw [ih (by rw [maxQuadsPerDraw_eq]; omega) hmore (by rw [hfull hmore, hbase]; ring)]
      rfl

theorem advancedDraws_spec (hvertex : PerVertex attributes) (hstart : start < 2 ^ 31)
    (hcount : count < 2 ^ 31)
    (hsteps : maxQuadsPerDraw < count → StepsFit attributes (maxQuadsPerDraw * 4))
    (hlast : ¬ Overflows (lastQuadindex count)) (fuel : Nat) {quadindex : Nat}
    {offsets : Nat → Nat} (hfuel : count - quadindex ≤ fuel)
    (hmultiple : maxQuadsPerDraw ∣ quadindex)
    (hoffsets : quadindex < count → ∀ i, attributes.enableBits.getLsbD i = true →
      offsets (attributes.attribs i).bufferIndex =
        (buffers (attributes.attribs i).bufferIndex).offset +
          attributes.bufferLayouts (attributes.attribs i).bufferIndex * ((start + quadindex) * 4)) :
    ∃ draws, advancedDraws attributes count fuel quadindex offsets = some draws ∧
      DrawsQuads attributes buffers (start + quadindex) (count - quadindex) draws := by
  induction fuel generalizing quadindex offsets with
  | zero => exact ⟨[], rfl, drawsQuads_nil (Nat.le_zero.mp hfuel)⟩
  | succ fuel ih =>
    rw [advancedDraws]
    by_cases hlt : quadindex < count
    · obtain ⟨hsplit, hle, hfull⟩ := turn_quads hlt
      have hoff := hoffsets hlt
      -- the next quadindex is at most the last one
      have hnext : ¬ Overflows (quadindex + maxQuadsPerDraw) := by
        obtain ⟨t, rfl⟩ := hmultiple
        rw [Overflows, lastQuadindex, maxQuadsPerDraw_eq] at *
        omega
      -- the offsets of the next turn
      obtain ⟨offsets', hadvance, hoffsets'⟩ : ∃ offsets',
          (if maxQuadsPerDraw < count then
            advanceVertexOffsets attributes offsets (min maxQuadsPerDraw (count - quadindex) * 4)
          else some offsets) = some offsets' ∧
          (quadindex + maxQuadsPerDraw < count → ∀ i, attributes.enableBits.getLsbD i = true →
            offsets' (attributes.attribs i).bufferIndex =
              (buffers (attributes.attribs i).bufferIndex).offset +
                attributes.bufferLayouts (attributes.attribs i).bufferIndex *
                  ((start + (quadindex + maxQuadsPerDraw)) * 4)) := by
        split_ifs with hmany
        · have hfit : StepsFit attributes (min maxQuadsPerDraw (count - quadindex) * 4) := by
            intro i hi hoverflow
            refine hsteps hmany i hi (le_trans hoverflow (Nat.mul_le_mul_left _ ?_))
            exact Nat.mul_le_mul_right 4 (min_le_left ..)
          obtain ⟨offsets', heq, hadvanced⟩ := advanceVertexOffsets_spec hfit offsets
          refine ⟨offsets', heq, fun hmore i hi => ?_⟩
          have hfits := (buffers (attributes.attribs i).bufferIndex).fits
          have hstride := attributes.stride_lt (attributes.attribs i).bufferIndex
          have hbytes : attributes.bufferLayouts (attributes.attribs i).bufferIndex *
              ((start + (quadindex + maxQuadsPerDraw)) * 4) ≤ 2 ^ 16 * 2 ^ 34 :=
            Nat.mul_le_mul hstride.le (by omega)
          rw [hadvanced i hi, hoff i hi, hfull hmore, Nat.add_assoc, ← Nat.mul_add, ← Nat.add_mul,
            Nat.add_assoc start, Nat.mod_eq_of_lt]
          omega
        · exact ⟨offsets, rfl, fun hmore => by omega⟩
      dsimp only
      rw [if_pos hlt, hadvance]
      dsimp only
      rw [if_neg hnext]
      obtain ⟨draws, hdraws, hrest⟩ := ih (by rw [maxQuadsPerDraw_eq]; omega)
        (Dvd.dvd.add hmultiple dvd_rfl) hoffsets'
      refine ⟨_, by rw [hdraws]; rfl, ?_⟩
      refine .turn hlt rfl ?_ hrest
      intro i hi
      exact fetches_quads (hvertex i hi) hle rfl (hoff i hi) (Nat.add_zero _)
    · dsimp only
      rw [if_neg hlt]
      exact ⟨[], rfl, drawsQuads_nil (by omega)⟩

/-- A turn whose buffers cannot be advanced, or that is followed by no `int`. -/
theorem advancedDraws_none
    (h : (maxQuadsPerDraw < count ∧ ¬ StepsFit attributes (maxQuadsPerDraw * 4)) ∨
      Overflows (lastQuadindex count)) (fuel : Nat) {quadindex : Nat} (offsets : Nat → Nat)
    (hfuel : count - quadindex ≤ fuel) (hmultiple : maxQuadsPerDraw ∣ quadindex)
    (hlt : quadindex < count)
    (hfirst : maxQuadsPerDraw < count → ¬ StepsFit attributes (maxQuadsPerDraw * 4) →
      quadindex + maxQuadsPerDraw < count) :
    advancedDraws attributes count fuel quadindex offsets = none := by
  induction fuel generalizing quadindex offsets with
  | zero => omega
  | succ fuel ih =>
    obtain ⟨-, -, hfull⟩ := turn_quads hlt
    rw [advancedDraws]
    dsimp only
    rw [if_pos hlt]
    by_cases hsteps : maxQuadsPerDraw < count ∧ ¬ StepsFit attributes (maxQuadsPerDraw * 4)
    · rw [if_pos hsteps.1, hfull (hfirst hsteps.1 hsteps.2),
        advanceVertexOffsets_none hsteps.2]
    · have hover := h.resolve_left hsteps
      split
      · rfl
      · split_ifs with hnext
        · rfl
        · have hmore : quadindex + maxQuadsPerDraw < count := by
            by_contra hlast
            obtain ⟨t, rfl⟩ := hmultiple
            rw [Overflows, lastQuadindex, maxQuadsPerDraw_eq] at *
            omega
          rw [ih _ (by rw [maxQuadsPerDraw_eq]; omega) (Dvd.dvd.add hmultiple dvd_rfl) hmore
            fun hmany hno => absurd ⟨hmany, hno⟩ hsteps]
          rfl

/-! ## All quads -/

/-- No number that the path computes leaves its `int`: the vertex behind the last one; or the
bytes up to the first vertex, those of a full draw, and the quads of all draws. -/
def Fits (isBaseVertexSupported : Bool) (start count : Nat) (attributes : VertexAttributes) : Prop :=
  if isBaseVertexSupported = true then
    ¬ Overflows (4 * (start + count))
  else
    (0 < start → ¬ Overflows (start * 4) ∧ StepsFit attributes (start * 4)) ∧
      (maxQuadsPerDraw < count → StepsFit attributes (maxQuadsPerDraw * 4)) ∧
      ¬ Overflows (lastQuadindex count)

theorem count_le_lastQuadindex (count : Nat) : count ≤ lastQuadindex count := by
  rw [lastQuadindex, maxQuadsPerDraw_eq]
  omega

theorem drawQuads_base_iff (hvertex : PerVertex attributes) :
    (∃ draws, drawQuads true start count attributes buffers = some draws ∧
      DrawsQuads attributes buffers start count draws) ↔ Fits true start count attributes := by
  rw [Fits, if_pos rfl, drawQuads]
  rw [if_pos rfl]
  by_cases hfit : Overflows (4 * (start + count))
  · refine iff_of_false ?_ (not_not.mpr hfit)
    rintro ⟨draws, hdraws, -⟩
    split_ifs at hdraws with hstart
    have hpos : 0 < count := by
      rw [Overflows] at hfit hstart
      omega
    rw [baseDraws_none hfit _ count (Nat.sub_le ..) hpos
      (show start * 4 = (start + 0) * 4 from rfl)] at hdraws
    cases hdraws
  · refine iff_of_true ?_ hfit
    have hstart : ¬ Overflows (start * 4) := by
      rw [Overflows] at hfit ⊢
      omega
    rw [if_neg hstart]
    exact baseDraws_spec hvertex hfit count (Nat.sub_le ..) fun _ => rfl

theorem drawQuads_advanced_iff (hvertex : PerVertex attributes) :
    (∃ draws, drawQuads false start count attributes buffers = some draws ∧
      DrawsQuads attributes buffers start count draws) ↔ Fits false start count attributes := by
  have hzero : maxQuadsPerDraw ∣ 0 := dvd_zero _
  rw [Fits, if_neg Bool.false_ne_true, drawQuads]
  dsimp only
  rw [if_neg Bool.false_ne_true]
  by_cases hfirst : 0 < start → ¬ Overflows (start * 4) ∧ StepsFit attributes (start * 4)
  · have hlow : start < 2 ^ 31 := by
      rcases Nat.eq_zero_or_pos start with rfl | hpos
      · norm_num
      · have := (hfirst hpos).1
        rw [Overflows] at this
        omega
    by_cases hdraws : (maxQuadsPerDraw < count → StepsFit attributes (maxQuadsPerDraw * 4)) ∧
        ¬ Overflows (lastQuadindex count)
    · refine iff_of_true ?_ ⟨hfirst, hdraws⟩
      have hcount := count_le_lastQuadindex count
      have hlast := hdraws.2
      rw [Overflows] at hlast
      obtain ⟨offsets, hadvance, hoffsets⟩ : ∃ offsets,
          (if 0 < start then
            if Overflows (start * 4) then none
            else advanceVertexOffsets attributes (fun buffer => (buffers buffer).offset) (start * 4)
          else some fun buffer => (buffers buffer).offset) = some offsets ∧
          ∀ i, attributes.enableBits.getLsbD i = true →
            offsets (attributes.attribs i).bufferIndex =
              (buffers (attributes.attribs i).bufferIndex).offset +
                attributes.bufferLayouts (attributes.attribs i).bufferIndex * ((start + 0) * 4) := by
        split_ifs with hpos hoverflow
        · exact absurd hoverflow (hfirst hpos).1
        · obtain ⟨offsets, heq, hadvanced⟩ := advanceVertexOffsets_spec (hfirst hpos).2
            fun buffer => (buffers buffer).offset
          refine ⟨offsets, heq, fun i hi => ?_⟩
          have hfits := (buffers (attributes.attribs i).bufferIndex).fits
          have hstep := (hfirst hpos).2 i hi
          rw [Overflows] at hstep
          rw [hadvanced i hi, Nat.add_zero, Nat.mod_eq_of_lt (by omega)]
        · refine ⟨_, rfl, fun i _ => ?_⟩
          rw [show start = 0 by omega, Nat.zero_add, Nat.zero_mul, Nat.mul_zero, Nat.add_zero]
      rw [hadvance]
      exact advancedDraws_spec hvertex hlow (by omega) hdraws.1 hdraws.2 count (Nat.sub_le ..) hzero
        fun _ => hoffsets
    · refine iff_of_false ?_ fun h => hdraws h.2
      rintro ⟨draws, hsome, -⟩
      rw [not_and_or, not_not, Classical.not_imp] at hdraws
      have hpos : 0 < count := by
        rcases hdraws with ⟨hmany, -⟩ | hover
        · omega
        · by_contra hnone
          obtain rfl : count = 0 := by omega
          exact absurd hover (by decide)
      split at hsome
      · cases hsome
      · rw [advancedDraws_none hdraws count _ (Nat.sub_le ..) hzero hpos
          fun hmany _ => by rwa [Nat.zero_add]] at hsome
        cases hsome
  · refine iff_of_false ?_ fun h => hfirst h.1
    rintro ⟨draws, hsome, -⟩
    rw [Classical.not_imp] at hfirst
    obtain ⟨hpos, hno⟩ := hfirst
    rw [if_pos hpos] at hsome
    by_cases hoverflow : Overflows (start * 4)
    · rw [if_pos hoverflow] at hsome
      cases hsome
    · rw [if_neg hoverflow, advanceVertexOffsets_none fun h => hno ⟨hoverflow, h⟩] at hsome
      cases hsome

/-- **The quads that were asked for are drawn**, on both paths: in order, each once, with indices
of the index buffer, exactly if no number leaves its `int`. -/
theorem drawQuads_exact_iff (hvertex : PerVertex attributes) (isBaseVertexSupported : Bool) :
    (∃ draws, drawQuads isBaseVertexSupported start count attributes buffers = some draws ∧
      DrawsQuads attributes buffers start count draws) ↔
        Fits isBaseVertexSupported start count attributes := by
  cases isBaseVertexSupported with
  | false => exact drawQuads_advanced_iff hvertex
  | true => exact drawQuads_base_iff hvertex

/-- Positions, of two floats each. -/
def positions : VertexAttributes := VertexState.oneAttribute .floatVec2 rfl (by decide)

theorem drawQuads_exact_iff_twenty : ∃ draws,
    drawQuads false 3 20000 positions VertexState.oneBuffer = some draws ∧
      DrawsQuads positions VertexState.oneBuffer 3 20000 draws := by
  have hvertex : PerVertex positions := fun _ _ => getLsbD_zero
  have hfit : ∀ n ≤ 65532, StepsFit positions n := by
    intro n hn i _
    show ¬ 2 ^ 31 ≤ 8 * n
    omega
  refine (drawQuads_exact_iff hvertex false).mpr ⟨fun _ => ⟨by decide, hfit _ (by norm_num)⟩,
    fun _ => hfit _ (by decide), by decide⟩

/-- The vertex at the start is no `int`. -/
theorem not_drawn_far : ¬ ∃ draws,
    drawQuads true (2 ^ 29) 1 positions VertexState.oneBuffer = some draws ∧
      DrawsQuads positions VertexState.oneBuffer (2 ^ 29) 1 draws := by
  rintro ⟨draws, hdraws, -⟩
  rw [drawQuads] at hdraws
  cases hdraws

end Lhatove.Opengl
