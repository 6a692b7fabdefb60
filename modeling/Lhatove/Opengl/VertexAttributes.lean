import Lhatove.Graphics.BufferFormats

/-!
# Vertex attributes

`OpenGL::setVertexAttributes`: the state that vertices are fetched with. The enabled arrays
and their divisors are only sent to OpenGL where they differ from a shadow of them.

- `Agrees`: what the shadows say is so;
- `setVertexAttributes_fetches_iff`: after any calls, the state is that of the attributes,
  unless one of them has two or four SNORM16 components.
-/

namespace Lhatove.Opengl

open Graphics (DataFormat DataBaseType)
open Function

inductive BufferUsage where
  | vertex
  | index
  | texel
  | uniform
  | shaderStorage
  | indirectArguments
  deriving DecidableEq

/-- The types of the components of an array. -/
inductive GLDataType where
  | zero
  | byte
  | unsignedByte
  | short
  | unsignedShort
  | int
  | unsignedInt
  | float
  deriving DecidableEq

/-- The state of a generic vertex attribute. -/
structure GLAttribute where
  enabled : Bool
  divisor : Nat
  buffer : Nat
  pointer : Nat
  stride : Nat
  components : Nat
  type : GLDataType
  normalized : Bool
  integer : Bool

structure VertexAttributeInfo where
  offsetFromVertex : Nat
  format : DataFormat
  bufferIndex : Nat

/-- `VertexAttributes`, with the stride of each buffer, a `uint16`. There are 30 attributes and
32 buffers; what is enabled has a format that a vertex buffer may have. -/
structure VertexAttributes where
  enableBits : BitVec 32
  instanceBits : BitVec 32
  attribs : Nat → VertexAttributeInfo
  bufferLayouts : Nat → Nat
  enabled_lt : ∀ i, enableBits.getLsbD i = true → i < 30
  bufferIndex_lt : ∀ i, enableBits.getLsbD i = true → (attribs i).bufferIndex < 32
  stride_lt : ∀ buffer, bufferLayouts buffer < 2 ^ 16
  vertex : ∀ i, enableBits.getLsbD i = true →
    (attribs i).format.info.isMatrix = false ∧ (attribs i).format.info.baseType ≠ .bool

/-- A buffer that is loaded, and a place in it: the size of a buffer is a `GLsizeiptr`, so that
no place near it wraps. -/
structure BufferBinding where
  handle : Nat
  offset : Nat
  loaded : 0 < handle
  fits : offset < 2 ^ 63

abbrev BufferBindings := Nat → BufferBinding

/-- What OpenGL has, and the shadows: `state.enabledAttribArrays`,
`state.instancedAttribArrays` and `state.boundBuffers`. -/
structure VertexState where
  attributes : Nat → GLAttribute
  bound : BufferUsage → Nat
  constants : Nat → Int × Int × Int × Int
  enabledAttribArrays : BitVec 32
  instancedAttribArrays : BitVec 32
  boundBuffers : BufferUsage → Nat

/-- `getGLVertexDataType`: the type, the components, and if they are normalized or integers. -/
def getGLVertexDataType : DataFormat → GLDataType × Nat × Bool × Bool
  | .float => (.float, 1, false, false)
  | .floatVec2 => (.float, 2, false, false)
  | .floatVec3 => (.float, 3, false, false)
  | .floatVec4 => (.float, 4, false, false)
  | .floatMat2x2 | .floatMat2x3 | .floatMat2x4 => (.zero, 1, false, false)
  | .floatMat3x2 | .floatMat3x3 | .floatMat3x4 => (.zero, 1, false, false)
  | .floatMat4x2 | .floatMat4x3 | .floatMat4x4 => (.zero, 1, false, false)
  | .int32 => (.int, 1, false, true)
  | .int32Vec2 => (.int, 2, false, true)
  | .int32Vec3 => (.int, 3, false, true)
  | .int32Vec4 => (.int, 4, false, true)
  | .uint32 => (.unsignedInt, 1, false, true)
  | .uint32Vec2 => (.unsignedInt, 2, false, true)
  | .uint32Vec3 => (.unsignedInt, 3, false, true)
  | .uint32Vec4 => (.unsignedInt, 4, false, true)
  | .snorm8Vec4 => (.byte, 4, true, false)
  | .unorm8Vec4 => (.unsignedByte, 4, true, false)
  | .int8Vec4 => (.byte, 4, false, true)
  | .uint8Vec4 => (.unsignedByte, 4, false, true)
  | .snorm16Vec2 => (.byte, 2, true, false)
  | .snorm16Vec4 => (.byte, 4, true, false)
  | .unorm16Vec2 => (.unsignedShort, 2, true, false)
  | .unorm16Vec4 => (.unsignedShort, 4, true, false)
  | .int16Vec2 => (.short, 2, false, true)
  | .int16Vec4 => (.short, 4, false, true)
  | .uint16 => (.unsignedShort, 1, false, true)
  | .uint16Vec2 => (.unsignedShort, 2, false, true)
  | .uint16Vec4 => (.unsignedShort, 4, false, true)
  | .bool | .boolVec2 | .boolVec3 | .boolVec4 => (.zero, 1, false, false)

namespace VertexState

/-! ## The calls -/

/-- `glEnableVertexAttribArray`, `glDisableVertexAttribArray` -/
def enableArray (s : VertexState) (i : Nat) (enabled : Bool) : VertexState :=
  { s with attributes := Function.update s.attributes i { s.attributes i with enabled := enabled } }

/-- `glVertexAttribDivisor` -/
def attribDivisor (s : VertexState) (i divisor : Nat) : VertexState :=
  { s with attributes := Function.update s.attributes i { s.attributes i with divisor := divisor } }

/-- `glVertexAttribPointer` and `glVertexAttribIPointer`, on the buffer that is bound. Without a
type OpenGL notes an error. -/
def attribPointer (s : VertexState) (i components : Nat) (type : GLDataType)
    (normalized integer : Bool) (stride pointer : Nat) : VertexState :=
  if type = .zero then s
  else
    { s with
      attributes := Function.update s.attributes i
        { s.attributes i with
          buffer := s.bound .vertex
          pointer := pointer
          stride := stride
          components := components
          type := type
          normalized := normalized
          integer := integer } }

def bindBuffer (s : VertexState) (type : BufferUsage) (buffer : Nat) : VertexState :=
  if s.boundBuffers type ≠ buffer then
    { s with
      bound := Function.update s.bound type buffer
      boundBuffers := Function.update s.boundBuffers type buffer }
  else
    s

/-- `deleteBuffer`: OpenGL itself unbinds the buffer wherever it is bound. -/
def deleteBuffer (s : VertexState) (buffer : Nat) : VertexState :=
  { s with
    attributes := fun i =>
      if (s.attributes i).buffer = buffer then { s.attributes i with buffer := 0 }
      else s.attributes i
    bound := fun type => if s.bound type = buffer then 0 else s.bound type
    boundBuffers := fun type => if s.boundBuffers type = buffer then 0 else s.boundBuffers type }

/-- The body of the loop of `setVertexAttributes`, and `instanceattribbits`. -/
def setAttribute (attributes : VertexAttributes) (buffers : BufferBindings) (enablediff : BitVec 32)
    (i : Nat) (s : VertexState × BitVec 32) : VertexState × BitVec 32 :=
  let bit := 1#32 <<< i
  let gl :=
    if enablediff &&& bit ≠ 0#32 then s.1.enableArray i (attributes.enableBits &&& bit ≠ 0#32)
    else s.1
  if attributes.enableBits &&& bit ≠ 0#32 then
    let attrib := attributes.attribs i
    let layout := attributes.bufferLayouts attrib.bufferIndex
    let bufferinfo := buffers attrib.bufferIndex
    let bufferbit := 1#32 <<< attrib.bufferIndex
    let divisor := if attributes.instanceBits &&& bufferbit ≠ 0#32 then 1#32 else 0#32
    let divisorbit := divisor <<< i
    let gl :=
      if (gl.instancedAttribArrays &&& bit) ^^^ divisorbit ≠ 0#32 then
        gl.attribDivisor i divisor.toNat
      else gl
    let (gltype, components, normalized, intformat) := getGLVertexDataType attrib.format
    let gl := gl.bindBuffer .vertex bufferinfo.handle
    (gl.attribPointer i components gltype normalized intformat layout
      (bufferinfo.offset + attrib.offsetFromVertex), s.2 ||| divisorbit)
  else
    (gl, s.2)

/-- The loop, `fuel` times at most. -/
def setAttributes (attributes : VertexAttributes) (buffers : BufferBindings) (enablediff : BitVec 32) :
    Nat → Nat → BitVec 32 → VertexState × BitVec 32 → VertexState × BitVec 32
  | 0, _, _, s => s
  | fuel + 1, i, allbits, s =>
    if allbits = 0#32 then s
    else
      setAttributes attributes buffers enablediff fuel (i + 1) (allbits >>> 1)
        (setAttribute attributes buffers enablediff i s)

/-- `ATTRIB_COLOR`, `ATTRIBFLAG_COLOR` -/
def attribColor : Nat := 2

/-- `setVertexAttributes`; there are as many turns of the loop as bits in `allbits`. -/
def setVertexAttributes (s : VertexState) (attributes : VertexAttributes)
    (buffers : BufferBindings) : VertexState :=
  let enablediff := attributes.enableBits ^^^ s.enabledAttribArrays
  let allbits := attributes.enableBits ||| s.enabledAttribArrays
  let (gl, instanceattribbits) := setAttributes attributes buffers enablediff 32 0 allbits (s, 0#32)
  let colorflag := 1#32 <<< attribColor
  { gl with
    enabledAttribArrays := attributes.enableBits
    instancedAttribArrays := instanceattribbits ||| (gl.instancedAttribArrays &&& ~~~attributes.enableBits)
    constants :=
      if enablediff &&& colorflag ≠ 0#32 ∧ attributes.enableBits &&& colorflag = 0#32 then
        Function.update gl.constants attribColor (1, 1, 1, 1)
      else gl.constants }

end VertexState

theorem not_getLsbD_zero {p : Prop} (i : Nat) (h : (0#32).getLsbD i = true) : p := by
  rw [BitVec.getLsbD_zero] at h
  exact absurd h Bool.false_ne_true

/-- Attributes of which none is enabled. -/
def VertexAttributes.none : VertexAttributes where
  enableBits := 0#32
  instanceBits := 0#32
  attribs _ := ⟨0, .float, 0⟩
  bufferLayouts _ := 0
  enabled_lt i h := not_getLsbD_zero i h
  bufferIndex_lt i h := not_getLsbD_zero i h
  stride_lt _ := by norm_num
  vertex i h := not_getLsbD_zero i h

/-- A call that changes the vertex state. -/
inductive VertexCall where
  | setVertexAttributes (attributes : VertexAttributes) (buffers : BufferBindings)
  | bindBuffer (type : BufferUsage) (buffer : Nat)
  | deleteBuffer (buffer : Nat)

namespace VertexState

def call (s : VertexState) : VertexCall → VertexState
  | .setVertexAttributes attributes buffers => s.setVertexAttributes attributes buffers
  | .bindBuffer type buffer => s.bindBuffer type buffer
  | .deleteBuffer buffer => s.deleteBuffer buffer

/-- `setupContext`: a new context has no array enabled, but the shadow says that the first
`maxvertexattribs` are, so that all of them are disabled again. -/
def setupContext (maxvertexattribs : Nat) : VertexState :=
  let fresh : VertexState :=
    { attributes := fun _ => ⟨false, 0, 0, 0, 0, 4, .float, false, false⟩
      bound := fun _ => 0
      constants := fun _ => (0, 0, 0, 1)
      enabledAttribArrays := BitVec.ofNat 32 (2 ^ maxvertexattribs - 1)
      instancedAttribArrays := 0
      boundBuffers := fun _ => 0 }
  fresh.setVertexAttributes .none fun _ => ⟨1, 0, Nat.one_pos, by norm_num⟩

/-- What the calls so far have led to. -/
inductive Reached (maxvertexattribs : Nat) : VertexState → Prop where
  | setup : Reached maxvertexattribs (setupContext maxvertexattribs)
  | call {s : VertexState} (c : VertexCall) : Reached maxvertexattribs s →
    Reached maxvertexattribs (s.call c)

/-! ## What an attribute is to be -/

/-- What the components of a type are. -/
inductive NumberKind where
  | real
  | signed
  | unsigned
  deriving DecidableEq

def GLDataType.size : GLDataType → Nat
  | .zero => 0
  | .byte | .unsignedByte => 1
  | .short | .unsignedShort => 2
  | .int | .unsignedInt | .float => 4

def GLDataType.kind : GLDataType → Option NumberKind
  | .zero => none
  | .float => some .real
  | .byte | .short | .int => some .signed
  | .unsignedByte | .unsignedShort | .unsignedInt => some .unsigned

/-- The kind of numbers that a `Buffer` stores for a format. -/
def storedKind : DataBaseType → Option NumberKind
  | .float => some .real
  | .int | .snorm => some .signed
  | .uint | .unorm => some .unsigned
  | .bool => none

/-- An array is read as what its format says. -/
structure ReadsFormat (a : GLAttribute) (format : DataFormat) : Prop where
  components : a.components = format.info.components
  size : GLDataType.size a.type = format.info.componentSize
  kind : GLDataType.kind a.type = storedKind format.info.baseType
  normalized : a.normalized = true ↔
    format.info.baseType = .snorm ∨ format.info.baseType = .unorm
  integer : a.integer = true ↔ format.info.baseType = .int ∨ format.info.baseType = .uint

/-- The state is exactly that of the attributes. -/
structure Fetches (s : VertexState) (attributes : VertexAttributes) (buffers : BufferBindings) :
    Prop where
  enabled : ∀ i, (s.attributes i).enabled = attributes.enableBits.getLsbD i
  divisor : ∀ i, attributes.enableBits.getLsbD i = true → (s.attributes i).divisor =
    if attributes.instanceBits.getLsbD (attributes.attribs i).bufferIndex = true then 1 else 0
  buffer : ∀ i, attributes.enableBits.getLsbD i = true →
    (s.attributes i).buffer = (buffers (attributes.attribs i).bufferIndex).handle
  pointer : ∀ i, attributes.enableBits.getLsbD i = true → (s.attributes i).pointer =
    (buffers (attributes.attribs i).bufferIndex).offset + (attributes.attribs i).offsetFromVertex
  stride : ∀ i, attributes.enableBits.getLsbD i = true →
    (s.attributes i).stride = attributes.bufferLayouts (attributes.attribs i).bufferIndex
  format : ∀ i, attributes.enableBits.getLsbD i = true →
    ReadsFormat (s.attributes i) (attributes.attribs i).format

/-- What the shadows say is so. -/
structure Agrees (s : VertexState) : Prop where
  enabled : ∀ i, (s.attributes i).enabled = s.enabledAttribArrays.getLsbD i
  divisor : ∀ i, (s.attributes i).divisor =
    if s.instancedAttribArrays.getLsbD i = true then 1 else 0
  bound : ∀ type, s.boundBuffers type = s.bound type

/-! ## Bits -/

theorem and_bit_ne_zero_iff (x : BitVec 32) (i : Nat) :
    x &&& 1#32 <<< i ≠ 0#32 ↔ x.getLsbD i = true := by
  have hpow : x &&& 1#32 <<< i = if x.getLsbD i = true then BitVec.twoPow 32 i else 0#32 :=
    BitVec.and_twoPow x i
  rw [hpow]
  split_ifs with h
  · refine iff_of_true ?_ h
    intro hzero
    have hbit := congrArg (·.getLsbD i) hzero
    have hi := BitVec.lt_of_getLsbD h
    simp [hi] at hbit
  · exact iff_of_false (fun hne => hne rfl) h

theorem getLsbD_bit {i k : Nat} (b : Bool) (hi : i < 32) :
    ((if b = true then 1#32 else 0#32) <<< i).getLsbD k = (b && decide (k = i)) := by
  cases b with
  | false => simp
  | true =>
    show (BitVec.twoPow 32 i).getLsbD k = _
    by_cases hk : k = i
    · subst hk
      simp [hi]
    · simp [hk, Ne.symm hk]

theorem xor_bit_ne_zero_iff (x : BitVec 32) {i : Nat} (b : Bool) (hi : i < 32) :
    (x &&& 1#32 <<< i) ^^^ ((if b = true then 1#32 else 0#32) <<< i) ≠ 0#32 ↔
      x.getLsbD i ≠ b := by
  have hbit : ∀ k, ((x &&& 1#32 <<< i) ^^^ ((if b = true then 1#32 else 0#32) <<< i)).getLsbD k =
      ((x.getLsbD i != b) && decide (k = i)) := by
    intro k
    have hone := @getLsbD_bit i k true hi
    rw [if_pos rfl, Bool.true_and] at hone
    rw [BitVec.getLsbD_xor, BitVec.getLsbD_and, getLsbD_bit b hi, hone]
    by_cases hk : k = i
    · subst hk
      simp
    · simp [hk]
  constructor
  · intro hne heq
    refine hne (BitVec.eq_of_getLsbD_eq fun k _ => ?_)
    rw [hbit, heq]
    simp
  · intro hne hzero
    have h := hbit i
    rw [hzero, BitVec.getLsbD_zero] at h
    simp at h
    exact hne h

/-! ## One turn of the loop -/

variable {attributes : VertexAttributes} {buffers : BufferBindings}

/-- If the array of an attribute is instanced. -/
def instanced (attributes : VertexAttributes) (i : Nat) : Bool :=
  attributes.instanceBits.getLsbD (attributes.attribs i).bufferIndex

/-- What a turn makes of the attribute that it is about. -/
def attributeAfter (attributes : VertexAttributes) (buffers : BufferBindings) (s : VertexState)
    (i : Nat) : GLAttribute :=
  let a := s.attributes i
  if attributes.enableBits.getLsbD i = true then
    let info := attributes.attribs i
    let (type, components, normalized, integer) := getGLVertexDataType info.format
    { enabled := if s.enabledAttribArrays.getLsbD i = true then a.enabled else true
      divisor := if s.instancedAttribArrays.getLsbD i = instanced attributes i then a.divisor
        else if instanced attributes i = true then 1 else 0
      buffer := (buffers info.bufferIndex).handle
      pointer := (buffers info.bufferIndex).offset + info.offsetFromVertex
      stride := attributes.bufferLayouts info.bufferIndex
      components := components
      type := type
      normalized := normalized
      integer := integer }
  else if s.enabledAttribArrays.getLsbD i = true then { a with enabled := false }
  else a

theorem type_ne_zero {format : DataFormat} (hmatrix : format.info.isMatrix = false)
    (hbool : format.info.baseType ≠ .bool) : (getGLVertexDataType format).1 ≠ .zero := by
  cases format <;> first | decide | exact absurd hmatrix (by decide) | exact absurd rfl hbool

@[simp] theorem bindBuffer_attributes (s : VertexState) (type : BufferUsage) (buffer : Nat) :
    (s.bindBuffer type buffer).attributes = s.attributes := by
  rw [bindBuffer]
  split_ifs <;> rfl

@[simp] theorem bindBuffer_enabledAttribArrays (s : VertexState) (type : BufferUsage) (buffer : Nat) :
    (s.bindBuffer type buffer).enabledAttribArrays = s.enabledAttribArrays := by
  rw [bindBuffer]
  split_ifs <;> rfl

@[simp] theorem bindBuffer_instancedAttribArrays (s : VertexState) (type : BufferUsage)
    (buffer : Nat) :
    (s.bindBuffer type buffer).instancedAttribArrays = s.instancedAttribArrays := by
  rw [bindBuffer]
  split_ifs <;> rfl

theorem bindBuffer_bound {s : VertexState} (h : ∀ type, s.boundBuffers type = s.bound type)
    (type : BufferUsage) (buffer : Nat) :
    (s.bindBuffer type buffer).bound type = buffer ∧
      ∀ type', (s.bindBuffer type buffer).boundBuffers type' =
        (s.bindBuffer type buffer).bound type' := by
  rw [bindBuffer]
  split_ifs with hne
  · refine ⟨update_self .., fun type' => ?_⟩
    by_cases htype : type' = type
    · subst htype
      show update s.boundBuffers type' buffer type' =
        update s.bound type' buffer type'
      rw [update_self, update_self]
    · show update s.boundBuffers type buffer type' =
        update s.bound type buffer type'
      rw [update_of_ne htype, update_of_ne htype]
      exact h type'
  · exact ⟨(h type).symm.trans (not_not.mp hne), h⟩

theorem enableArray_if (s : VertexState) (p : Prop) [Decidable p] (i : Nat) (enabled : Bool) :
    (if p then s.enableArray i enabled else s) =
      { s with
        attributes := update s.attributes i
          { s.attributes i with enabled := if p then enabled else (s.attributes i).enabled } } := by
  split_ifs
  · rfl
  · rw [update_eq_self]

theorem attribDivisor_if (s : VertexState) (p : Prop) [Decidable p] (i divisor : Nat) :
    (if p then s.attribDivisor i divisor else s) =
      { s with
        attributes := update s.attributes i
          { s.attributes i with divisor := if p then divisor else (s.attributes i).divisor } } := by
  split_ifs
  · rfl
  · rw [update_eq_self]

theorem bindBuffer_attribPointer {s : VertexState}
    (hbound : ∀ type, s.boundBuffers type = s.bound type) (i handle components : Nat)
    {type : GLDataType} (htype : type ≠ .zero) (normalized integer : Bool) (stride pointer : Nat) :
    let t := (s.bindBuffer .vertex handle).attribPointer i components type normalized integer stride
      pointer
    t.attributes = update s.attributes i
      ⟨(s.attributes i).enabled, (s.attributes i).divisor, handle, pointer, stride, components, type,
        normalized, integer⟩ ∧
      t.enabledAttribArrays = s.enabledAttribArrays ∧
      t.instancedAttribArrays = s.instancedAttribArrays ∧
      ∀ type, t.boundBuffers type = t.bound type := by
  obtain ⟨hhandle, hagree⟩ := bindBuffer_bound hbound .vertex handle
  rw [attribPointer, if_neg htype]
  rw [hhandle, bindBuffer_attributes, bindBuffer_enabledAttribArrays,
    bindBuffer_instancedAttribArrays]
  exact ⟨rfl, rfl, rfl, hagree⟩

/-- What a turn of the loop has changed. -/
structure Turned (attributes : VertexAttributes) (buffers : BufferBindings) (i : Nat)
    (s t : VertexState × BitVec 32) : Prop where
  arrays : t.1.attributes =
    Function.update s.1.attributes i (attributeAfter attributes buffers s.1 i)
  enabledAttribArrays : t.1.enabledAttribArrays = s.1.enabledAttribArrays
  instancedAttribArrays : t.1.instancedAttribArrays = s.1.instancedAttribArrays
  bound : ∀ type, t.1.boundBuffers type = t.1.bound type
  bits : ∀ k, t.2.getLsbD k = (s.2.getLsbD k ||
    (attributes.enableBits.getLsbD i && instanced attributes i && decide (k = i)))

section

variable {s : VertexState × BitVec 32} {i : Nat}
  (hbound : ∀ type, s.1.boundBuffers type = s.1.bound type)
include hbound

theorem setAttribute_disabled (henable : attributes.enableBits.getLsbD i = false) :
    Turned attributes buffers i s
      (setAttribute attributes buffers (attributes.enableBits ^^^ s.1.enabledAttribArrays) i s) := by
  have hbit : ¬ (attributes.enableBits &&& 1#32 <<< i ≠ 0#32) :=
    fun h => Bool.false_ne_true (henable.symm.trans ((and_bit_ne_zero_iff ..).mp h))
  have hdiff : (attributes.enableBits ^^^ s.1.enabledAttribArrays) &&& 1#32 <<< i ≠ 0#32 ↔
      s.1.enabledAttribArrays.getLsbD i = true := by
    rw [and_bit_ne_zero_iff, BitVec.getLsbD_xor, henable, Bool.false_xor]
  rw [setAttribute]
  dsimp only
  rw [if_neg hbit, enableArray_if, decide_eq_false hbit]
  constructor
  · dsimp only
    rw [attributeAfter, henable, if_neg Bool.false_ne_true]
    congr 1
    by_cases hshadow : s.1.enabledAttribArrays.getLsbD i = true
    · rw [if_pos hshadow, if_pos (hdiff.mpr hshadow)]
    · rw [if_neg hshadow, if_neg (mt hdiff.mp hshadow)]
  · rfl
  · rfl
  · exact hbound
  · intro k
    rw [henable, Bool.false_and, Bool.false_and, Bool.or_false]

theorem setAttribute_enabled (hi : i < 32) (henable : attributes.enableBits.getLsbD i = true) :
    Turned attributes buffers i s
      (setAttribute attributes buffers (attributes.enableBits ^^^ s.1.enabledAttribArrays) i s) := by
  have hvertex := attributes.vertex i henable
  have htype := type_ne_zero hvertex.1 hvertex.2
  have hbit : attributes.enableBits &&& 1#32 <<< i ≠ 0#32 := (and_bit_ne_zero_iff ..).mpr henable
  have hdiff : (attributes.enableBits ^^^ s.1.enabledAttribArrays) &&& 1#32 <<< i ≠ 0#32 ↔
      ¬ s.1.enabledAttribArrays.getLsbD i = true := by
    rw [and_bit_ne_zero_iff, BitVec.getLsbD_xor, henable, Bool.true_xor, Bool.not_eq_true',
      Bool.not_eq_true]
  have hdivisor : (if attributes.instanceBits &&& 1#32 <<< (attributes.attribs i).bufferIndex ≠ 0#32
      then 1#32 else 0#32) = if instanced attributes i = true then 1#32 else 0#32 :=
    if_congr (and_bit_ne_zero_iff ..) rfl rfl
  rw [setAttribute]
  dsimp only
  rw [if_pos hbit, enableArray_if, attribDivisor_if, hdivisor, decide_eq_true hbit]
  dsimp only
  rw [update_self, update_idem]
  -- the array is enabled where it was not
  have henabled : (if (attributes.enableBits ^^^ s.1.enabledAttribArrays) &&& 1#32 <<< i ≠ 0#32 then true
      else (s.1.attributes i).enabled) =
        if s.1.enabledAttribArrays.getLsbD i = true then (s.1.attributes i).enabled else true := by
    by_cases hshadow : s.1.enabledAttribArrays.getLsbD i = true
    · rw [if_pos hshadow, if_neg fun h => hdiff.mp h hshadow]
    · rw [if_neg hshadow, if_pos (hdiff.mpr hshadow)]
  -- and the divisor set where it was another one
  have hset : (if (s.1.instancedAttribArrays &&& 1#32 <<< i) ^^^
      ((if instanced attributes i = true then 1#32 else 0#32) <<< i) ≠ 0#32 then
        (if instanced attributes i = true then 1#32 else 0#32).toNat
      else (s.1.attributes i).divisor) =
        if s.1.instancedAttribArrays.getLsbD i = instanced attributes i then
          (s.1.attributes i).divisor
        else if instanced attributes i = true then 1 else 0 := by
    by_cases hsame : s.1.instancedAttribArrays.getLsbD i = instanced attributes i
    · rw [if_pos hsame, if_neg fun h => (xor_bit_ne_zero_iff _ _ hi).mp h hsame]
    · rw [if_neg hsame, if_pos ((xor_bit_ne_zero_iff _ _ hi).mpr hsame)]
      cases instanced attributes i <;> rfl
  rw [henabled, hset]
  obtain ⟨harrays, hkept, hkept', hagree⟩ := bindBuffer_attribPointer
    (s := ⟨update s.1.attributes i { s.1.attributes i with
        enabled := if s.1.enabledAttribArrays.getLsbD i = true then (s.1.attributes i).enabled else true
        divisor := if s.1.instancedAttribArrays.getLsbD i = instanced attributes i then
          (s.1.attributes i).divisor else if instanced attributes i = true then 1 else 0 },
      s.1.bound, s.1.constants, s.1.enabledAttribArrays, s.1.instancedAttribArrays,
      s.1.boundBuffers⟩) hbound i (buffers (attributes.attribs i).bufferIndex).handle
    (getGLVertexDataType (attributes.attribs i).format).2.1 htype
    (getGLVertexDataType (attributes.attribs i).format).2.2.1
    (getGLVertexDataType (attributes.attribs i).format).2.2.2
    (attributes.bufferLayouts (attributes.attribs i).bufferIndex)
    ((buffers (attributes.attribs i).bufferIndex).offset + (attributes.attribs i).offsetFromVertex)
  constructor
  · refine harrays.trans ?_
    dsimp only
    rw [update_self, update_idem, attributeAfter, henable, if_pos rfl]
  · exact hkept
  · exact hkept'
  · exact hagree
  · intro k
    rw [BitVec.getLsbD_or, getLsbD_bit _ hi, henable, Bool.true_and]

theorem setAttribute_turned (hi : i < 32) :
    Turned attributes buffers i s
      (setAttribute attributes buffers (attributes.enableBits ^^^ s.1.enabledAttribArrays) i s) := by
  cases henable : attributes.enableBits.getLsbD i with
  | false => exact setAttribute_disabled hbound henable
  | true => exact setAttribute_enabled hbound hi henable

end

/-! ## The loop -/

theorem attributeAfter_congr {s t : VertexState} {i : Nat} (ha : s.attributes i = t.attributes i)
    (henabled : s.enabledAttribArrays = t.enabledAttribArrays)
    (hinstanced : s.instancedAttribArrays = t.instancedAttribArrays) :
    attributeAfter attributes buffers s i = attributeAfter attributes buffers t i := by
  rw [attributeAfter, attributeAfter, ha, henabled, hinstanced]

theorem attributeAfter_of_clear {s : VertexState} {i : Nat}
    (henable : attributes.enableBits.getLsbD i = false)
    (hshadow : s.enabledAttribArrays.getLsbD i = false) :
    attributeAfter attributes buffers s i = s.attributes i := by
  rw [attributeAfter, henable, hshadow, if_neg Bool.false_ne_true, if_neg Bool.false_ne_true]

/-- What the turns from `i` on have changed. -/
structure TurnedFrom (attributes : VertexAttributes) (buffers : BufferBindings) (i : Nat)
    (s t : VertexState × BitVec 32) : Prop where
  later : ∀ k, i ≤ k → t.1.attributes k = attributeAfter attributes buffers s.1 k
  before : ∀ k, k < i → t.1.attributes k = s.1.attributes k
  enabledAttribArrays : t.1.enabledAttribArrays = s.1.enabledAttribArrays
  instancedAttribArrays : t.1.instancedAttribArrays = s.1.instancedAttribArrays
  bound : ∀ type, t.1.boundBuffers type = t.1.bound type
  bits : ∀ k, t.2.getLsbD k = (s.2.getLsbD k ||
    (attributes.enableBits.getLsbD k && instanced attributes k && decide (i ≤ k)))

theorem turnedFrom_self {s : VertexState × BitVec 32} {i : Nat}
    (hbound : ∀ type, s.1.boundBuffers type = s.1.bound type)
    (hclear : ∀ k, i ≤ k → attributes.enableBits.getLsbD k = false ∧
      s.1.enabledAttribArrays.getLsbD k = false) : TurnedFrom attributes buffers i s s := by
  constructor
  · intro k hk
    exact (attributeAfter_of_clear (hclear k hk).1 (hclear k hk).2).symm
  · exact fun _ _ => rfl
  · rfl
  · rfl
  · exact hbound
  · intro k
    by_cases hk : i ≤ k
    · rw [(hclear k hk).1, Bool.false_and, Bool.false_and, Bool.or_false]
    · rw [decide_eq_false hk, Bool.and_false, Bool.or_false]

theorem Turned.trans {s t u : VertexState × BitVec 32} {i : Nat}
    (hturn : Turned attributes buffers i s t) (hrest : TurnedFrom attributes buffers (i + 1) t u) :
    TurnedFrom attributes buffers i s u := by
  constructor
  · intro k hk
    rcases hk.eq_or_lt with rfl | hlt
    · rw [hrest.before i (Nat.lt_succ_self i), hturn.arrays, update_self]
    · rw [hrest.later k hlt]
      refine attributeAfter_congr ?_ hturn.enabledAttribArrays hturn.instancedAttribArrays
      rw [hturn.arrays, update_of_ne hlt.ne']
  · intro k hk
    rw [hrest.before k (by omega), hturn.arrays, update_of_ne hk.ne]
  · exact hrest.enabledAttribArrays.trans hturn.enabledAttribArrays
  · exact hrest.instancedAttribArrays.trans hturn.instancedAttribArrays
  · exact hrest.bound
  · intro k
    rw [hrest.bits, hturn.bits, Bool.or_assoc]
    congr 1
    rcases Nat.lt_trichotomy k i with hlt | rfl | hgt
    · simp [hlt.ne, show ¬ i ≤ k by omega, show ¬ i + 1 ≤ k by omega]
    · simp
    · simp [hgt.ne', hgt.le, show i + 1 ≤ k from hgt]

theorem setAttributes_turned (fuel : Nat) {i : Nat} (hfuel : fuel + i = 32)
    {s : VertexState × BitVec 32} (hbound : ∀ type, s.1.boundBuffers type = s.1.bound type) :
    TurnedFrom attributes buffers i s
      (setAttributes attributes buffers (attributes.enableBits ^^^ s.1.enabledAttribArrays) fuel i
        ((attributes.enableBits ||| s.1.enabledAttribArrays) >>> i) s) := by
  induction fuel generalizing i s with
  | zero =>
    refine turnedFrom_self hbound fun k hk => ?_
    exact ⟨BitVec.getLsbD_of_ge _ _ (by omega), BitVec.getLsbD_of_ge _ _ (by omega)⟩
  | succ fuel ih =>
    rw [setAttributes]
    split_ifs with hzero
    · -- the loop ends at the last bit
      refine turnedFrom_self hbound fun k hk => ?_
      have hbit := congrArg (·.getLsbD (k - i)) hzero
      simp only [BitVec.getLsbD_ushiftRight, BitVec.getLsbD_zero, BitVec.getLsbD_or,
        Bool.or_eq_false_iff, Nat.add_sub_cancel' hk] at hbit
      exact hbit
    · have hturn := @setAttribute_turned attributes buffers s i hbound (by omega)
      have hrest := ih (i := i + 1) (by omega) hturn.bound
      rw [hturn.enabledAttribArrays, BitVec.shiftRight_add] at hrest
      exact hturn.trans hrest

/-! ## The whole call -/

/-- **One call**: each array, and what the shadows say. -/
theorem setVertexAttributes_spec {s : VertexState}
    (hbound : ∀ type, s.boundBuffers type = s.bound type) (attributes : VertexAttributes)
    (buffers : BufferBindings) :
    (∀ k, (s.setVertexAttributes attributes buffers).attributes k =
      attributeAfter attributes buffers s k) ∧
    (s.setVertexAttributes attributes buffers).enabledAttribArrays = attributes.enableBits ∧
    (∀ k, (s.setVertexAttributes attributes buffers).instancedAttribArrays.getLsbD k =
      if attributes.enableBits.getLsbD k = true then instanced attributes k
      else s.instancedAttribArrays.getLsbD k) ∧
    ∀ type, (s.setVertexAttributes attributes buffers).boundBuffers type =
      (s.setVertexAttributes attributes buffers).bound type := by
  have hloop := @setAttributes_turned attributes buffers 32 0 rfl (s, 0#32) hbound
  rw [BitVec.ushiftRight_zero] at hloop
  refine ⟨fun k => hloop.later k (Nat.zero_le k), rfl, fun k => ?_, hloop.bound⟩
  show ((setAttributes attributes buffers _ 32 0 _ (s, 0#32)).2 |||
    ((setAttributes attributes buffers _ 32 0 _ (s, 0#32)).1.instancedAttribArrays &&&
      ~~~attributes.enableBits)).getLsbD k = _
  rw [BitVec.getLsbD_or, hloop.bits, BitVec.getLsbD_and, hloop.instancedAttribArrays,
    BitVec.getLsbD_zero, Bool.false_or, BitVec.getLsbD_not, decide_eq_true (Nat.zero_le k),
    Bool.and_true]
  cases henable : attributes.enableBits.getLsbD k with
  | false =>
    rw [Bool.false_and, Bool.false_or, if_neg Bool.false_ne_true]
    by_cases hk : k < 32
    · rw [decide_eq_true hk, Bool.not_false, Bool.true_and, Bool.and_true]
    · rw [BitVec.getLsbD_of_ge _ _ (not_lt.mp hk), Bool.false_and]
  | true =>
    rw [if_pos rfl, Bool.true_and, Bool.not_true, Bool.and_false, Bool.and_false, Bool.or_false]

theorem Agrees.setVertexAttributes {s : VertexState} (h : s.Agrees) (attributes : VertexAttributes)
    (buffers : BufferBindings) : (s.setVertexAttributes attributes buffers).Agrees := by
  obtain ⟨harrays, hshadow, hinstances, hbound⟩ :=
    setVertexAttributes_spec h.bound attributes buffers
  constructor
  · intro i
    rw [harrays, hshadow, attributeAfter]
    cases henable : attributes.enableBits.getLsbD i with
    | false =>
      rw [if_neg Bool.false_ne_true]
      split_ifs with hwas
      · rfl
      · exact (h.enabled i).trans (Bool.eq_false_iff.mpr hwas)
    | true =>
      rw [if_pos rfl]
      dsimp only
      split_ifs with hwas
      · exact (h.enabled i).trans hwas
      · rfl
  · intro i
    rw [harrays, hinstances, attributeAfter]
    cases henable : attributes.enableBits.getLsbD i with
    | false =>
      rw [if_neg Bool.false_ne_true, if_neg Bool.false_ne_true, ← h.divisor]
      split_ifs <;> rfl
    | true =>
      rw [if_pos rfl, if_pos rfl]
      dsimp only
      split_ifs with hsame hinstanced hinstanced
      · rw [h.divisor, hsame, if_pos hinstanced]
      · rw [h.divisor, hsame, if_neg hinstanced]
      · rfl
      · rfl
  · exact hbound

theorem Agrees.bindBuffer {s : VertexState} (h : s.Agrees) (type : BufferUsage) (buffer : Nat) :
    (s.bindBuffer type buffer).Agrees := by
  constructor
  · intro i
    rw [bindBuffer_attributes, bindBuffer_enabledAttribArrays]
    exact h.enabled i
  · intro i
    rw [bindBuffer_attributes, bindBuffer_instancedAttribArrays]
    exact h.divisor i
  · exact (bindBuffer_bound h.bound type buffer).2

theorem Agrees.deleteBuffer {s : VertexState} (h : s.Agrees) (buffer : Nat) :
    (s.deleteBuffer buffer).Agrees := by
  constructor
  · intro i
    rw [← show (s.attributes i).enabled = (s.deleteBuffer buffer).enabledAttribArrays.getLsbD i from
      h.enabled i, VertexState.deleteBuffer]
    dsimp only
    split_ifs <;> rfl
  · intro i
    rw [← show (s.attributes i).divisor =
      if (s.deleteBuffer buffer).instancedAttribArrays.getLsbD i = true then 1 else 0 from
      h.divisor i, VertexState.deleteBuffer]
    dsimp only
    split_ifs <;> rfl
  · intro type
    show (if s.boundBuffers type = buffer then 0 else s.boundBuffers type) =
      if s.bound type = buffer then 0 else s.bound type
    rw [h.bound]

theorem Agrees.setupContext (maxvertexattribs : Nat) : (setupContext maxvertexattribs).Agrees := by
  rw [VertexState.setupContext]
  obtain ⟨harrays, hshadow, hinstances, hbound⟩ := setVertexAttributes_spec
    (s := ⟨fun _ => ⟨false, 0, 0, 0, 0, 4, .float, false, false⟩, fun _ => 0, fun _ => (0, 0, 0, 1),
      BitVec.ofNat 32 (2 ^ maxvertexattribs - 1), 0, fun _ => 0⟩) (fun _ => rfl) .none
    (fun _ => ⟨1, 0, Nat.one_pos, by norm_num⟩)
  have hnone : ∀ i, VertexAttributes.none.enableBits.getLsbD i = false :=
    fun i => BitVec.getLsbD_zero
  constructor
  · intro i
    rw [harrays, hshadow, attributeAfter, hnone, if_neg Bool.false_ne_true]
    split_ifs <;> rfl
  · intro i
    rw [harrays, hinstances, attributeAfter, hnone, if_neg Bool.false_ne_true,
      if_neg Bool.false_ne_true]
    have hzero : (0 : BitVec 32).getLsbD i = false := BitVec.getLsbD_zero
    rw [hzero, if_neg Bool.false_ne_true]
    split_ifs <;> rfl
  · exact hbound

theorem Reached.agrees {maxvertexattribs : Nat} {s : VertexState}
    (h : Reached maxvertexattribs s) : s.Agrees := by
  induction h with
  | setup => exact .setupContext maxvertexattribs
  | call c _ ih =>
    cases c with
    | setVertexAttributes attributes buffers => exact ih.setVertexAttributes attributes buffers
    | bindBuffer type buffer => exact ih.bindBuffer type buffer
    | deleteBuffer buffer => exact ih.deleteBuffer buffer

/-! ## What is fetched -/

theorem readsFormat_iff {format : DataFormat} (hmatrix : format.info.isMatrix = false)
    (hbool : format.info.baseType ≠ .bool) {a : GLAttribute}
    (ha : (a.type, a.components, a.normalized, a.integer) = getGLVertexDataType format) :
    ReadsFormat a format ↔ format ≠ .snorm16Vec2 ∧ format ≠ .snorm16Vec4 := by
  obtain ⟨enabled, divisor, buffer, pointer, stride, components, type, normalized, integer⟩ := a
  constructor
  · intro h
    have hsize := h.size
    constructor
    · rintro rfl
      cases ha
      dsimp only at hsize
      exact absurd hsize (by decide)
    · rintro rfl
      cases ha
      dsimp only at hsize
      exact absurd hsize (by decide)
  · rintro ⟨htwo, hfour⟩
    cases format <;> cases ha <;>
      first
      | exact ⟨rfl, rfl, rfl, by dsimp only; decide, by dsimp only; decide⟩
      | exact absurd rfl htwo
      | exact absurd rfl hfour
      | exact absurd hmatrix (by decide)
      | exact absurd rfl hbool

/-- **The attributes that were given are fetched**, whatever came before, exactly if none of them
has 16-bit signed normalized components. -/
theorem setVertexAttributes_fetches_iff {maxvertexattribs : Nat} {s : VertexState}
    (h : Reached maxvertexattribs s) (attributes : VertexAttributes) (buffers : BufferBindings) :
    (s.setVertexAttributes attributes buffers).Fetches attributes buffers ↔
      ∀ i, attributes.enableBits.getLsbD i = true →
        (attributes.attribs i).format ≠ .snorm16Vec2 ∧
          (attributes.attribs i).format ≠ .snorm16Vec4 := by
  have hagrees := h.agrees.setVertexAttributes attributes buffers
  obtain ⟨harrays, hshadow, hinstances, -⟩ :=
    setVertexAttributes_spec h.agrees.bound attributes buffers
  have hreads : ∀ i, attributes.enableBits.getLsbD i = true →
      (ReadsFormat ((s.setVertexAttributes attributes buffers).attributes i)
        (attributes.attribs i).format ↔ (attributes.attribs i).format ≠ .snorm16Vec2 ∧
          (attributes.attribs i).format ≠ .snorm16Vec4) := by
    intro i hi
    have hvertex := attributes.vertex i hi
    refine readsFormat_iff hvertex.1 hvertex.2 ?_
    rw [harrays, attributeAfter, if_pos hi]
  constructor
  · intro hfetches i hi
    exact (hreads i hi).mp (hfetches.format i hi)
  · intro hformats
    constructor
    · intro i
      rw [hagrees.enabled, hshadow]
    · intro i hi
      rw [hagrees.divisor, hinstances, if_pos hi]
      rfl
    · intro i hi
      rw [harrays, attributeAfter, if_pos hi]
    · intro i hi
      rw [harrays, attributeAfter, if_pos hi]
    · intro i hi
      rw [harrays, attributeAfter, if_pos hi]
    · intro i hi
      exact (hreads i hi).mpr (hformats i hi)

theorem eq_zero_of_getLsbD_one {i : Nat} (h : (1#32).getLsbD i = true) : i = 0 := by
  rw [BitVec.getLsbD_one] at h
  simpa using h

theorem info_size_lt (format : DataFormat) : format.info.size < 2 ^ 16 := by
  cases format <;> decide

/-- A vertex that is one value. -/
def oneAttribute (format : DataFormat) (hmatrix : format.info.isMatrix = false)
    (hbool : format.info.baseType ≠ .bool) : VertexAttributes where
  enableBits := 1#32
  instanceBits := 0#32
  attribs _ := ⟨0, format, 0⟩
  bufferLayouts _ := format.info.size
  enabled_lt i h := (eq_zero_of_getLsbD_one h).trans_lt (by norm_num)
  bufferIndex_lt _ _ := by norm_num
  stride_lt _ := info_size_lt format
  vertex _ _ := ⟨hmatrix, hbool⟩

def oneBuffer : BufferBindings := fun _ => ⟨1, 0, Nat.one_pos, by norm_num⟩

theorem setVertexAttributes_fetches_iff_colors :
    ((setupContext 16).setVertexAttributes (oneAttribute .unorm8Vec4 rfl (by decide))
      oneBuffer).Fetches (oneAttribute .unorm8Vec4 rfl (by decide)) oneBuffer :=
  (setVertexAttributes_fetches_iff (.setup : Reached 16 _) _ _).mpr
    fun _ _ => ⟨DataFormat.noConfusion, DataFormat.noConfusion⟩

/-- Two bytes for what is stored in four. -/
theorem not_fetches_snorm16 : Reached 16 (setupContext 16) ∧
    ¬ ((setupContext 16).setVertexAttributes (oneAttribute .snorm16Vec2 rfl (by decide))
      oneBuffer).Fetches (oneAttribute .snorm16Vec2 rfl (by decide)) oneBuffer := by
  refine ⟨.setup, fun h => ?_⟩
  have hsize := (h.format 0 (by decide)).size
  exact absurd hsize (by decide)

end VertexState

end Lhatove.Opengl
