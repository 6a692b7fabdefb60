import Lhatove.Lib.Align

/-!
# Formats of storage buffers

What shader reflection makes of a storage block (`AddFieldsToFormat`), and the layout that
`love::graphics::Buffer` gives to such a format.

- Types are those of glslang, as far as their shape, with the number of a basic type.
- A matrix has columns and rows, and may be `row_major`, which no format records.
- What else a buffer is used for is `packed`: its members must then be without padding.
-/

namespace Lhatove.Graphics

/-! ## Types of a shader -/

/-- `glslang::TBasicType` -/
inductive BasicType
  | float
  | int
  | uint
  | bool
  | other (number : Nat)
  deriving DecidableEq

/-- The number of a basic type, for an error. -/
def BasicType.number : BasicType → Nat
  | .float => 1
  | .int => 11
  | .uint => 12
  | .bool => 15
  | .other number => number

/-- A type that is no structure. -/
inductive LeafType
  | vector (type : BasicType) (components : Nat)
  | matrix (type : BasicType) (columns rows : Nat) (rowMajor : Bool)
  deriving DecidableEq

mutual

/-- A type of a member; `arraySize` of a member is its cumulative one, 0 for no array. -/
inductive GlslType
  | leaf (type : LeafType)
  | struct (fields : GlslFields)

inductive GlslFields
  | nil
  | cons (fieldName : String) (arraySize : Nat) (type : GlslType) (fields : GlslFields)

end

/-- A storage block that has passed the checks before its format is made: a single array
of unknown size. `inner` is the size of its elements if they are arrays, else 0. -/
structure StorageBlock where
  fieldName : String
  element : GlslType
  inner : Nat

/-! ## Data formats -/

inductive DataBaseType
  | float
  | int
  | uint
  | snorm
  | unorm
  | bool
  deriving DecidableEq

inductive DataFormat
  | float
  | floatVec2
  | floatVec3
  | floatVec4
  | floatMat2x2
  | floatMat2x3
  | floatMat2x4
  | floatMat3x2
  | floatMat3x3
  | floatMat3x4
  | floatMat4x2
  | floatMat4x3
  | floatMat4x4
  | int32
  | int32Vec2
  | int32Vec3
  | int32Vec4
  | uint32
  | uint32Vec2
  | uint32Vec3
  | uint32Vec4
  | snorm8Vec4
  | unorm8Vec4
  | int8Vec4
  | uint8Vec4
  | snorm16Vec2
  | snorm16Vec4
  | unorm16Vec2
  | unorm16Vec4
  | int16Vec2
  | int16Vec4
  | uint16
  | uint16Vec2
  | uint16Vec4
  | bool
  | boolVec2
  | boolVec3
  | boolVec4
  deriving DecidableEq

structure DataFormatInfo where
  baseType : DataBaseType
  isMatrix : Bool
  components : Nat
  matrixRows : Nat
  matrixColumns : Nat
  componentSize : Nat
  size : Nat

namespace DataFormat

/-- `getDataFormatInfo` -/
def info : DataFormat → DataFormatInfo
  | .float => ⟨.float, false, 1, 0, 0, 4, 4⟩
  | .floatVec2 => ⟨.float, false, 2, 0, 0, 4, 8⟩
  | .floatVec3 => ⟨.float, false, 3, 0, 0, 4, 12⟩
  | .floatVec4 => ⟨.float, false, 4, 0, 0, 4, 16⟩
  | .floatMat2x2 => ⟨.float, true, 4, 2, 2, 4, 16⟩
  | .floatMat2x3 => ⟨.float, true, 6, 2, 3, 4, 24⟩
  | .floatMat2x4 => ⟨.float, true, 8, 2, 4, 4, 32⟩
  | .floatMat3x2 => ⟨.float, true, 6, 3, 2, 4, 24⟩
  | .floatMat3x3 => ⟨.float, true, 9, 3, 3, 4, 36⟩
  | .floatMat3x4 => ⟨.float, true, 12, 3, 4, 4, 48⟩
  | .floatMat4x2 => ⟨.float, true, 8, 4, 2, 4, 32⟩
  | .floatMat4x3 => ⟨.float, true, 12, 4, 3, 4, 48⟩
  | .floatMat4x4 => ⟨.float, true, 16, 4, 4, 4, 64⟩
  | .int32 => ⟨.int, false, 1, 0, 0, 4, 4⟩
  | .int32Vec2 => ⟨.int, false, 2, 0, 0, 4, 8⟩
  | .int32Vec3 => ⟨.int, false, 3, 0, 0, 4, 12⟩
  | .int32Vec4 => ⟨.int, false, 4, 0, 0, 4, 16⟩
  | .uint32 => ⟨.uint, false, 1, 0, 0, 4, 4⟩
  | .uint32Vec2 => ⟨.uint, false, 2, 0, 0, 4, 8⟩
  | .uint32Vec3 => ⟨.uint, false, 3, 0, 0, 4, 12⟩
  | .uint32Vec4 => ⟨.uint, false, 4, 0, 0, 4, 16⟩
  | .snorm8Vec4 => ⟨.snorm, false, 4, 0, 0, 1, 4⟩
  | .unorm8Vec4 => ⟨.unorm, false, 4, 0, 0, 1, 4⟩
  | .int8Vec4 => ⟨.int, false, 4, 0, 0, 1, 4⟩
  | .uint8Vec4 => ⟨.uint, false, 4, 0, 0, 1, 4⟩
  | .snorm16Vec2 => ⟨.snorm, false, 2, 0, 0, 2, 4⟩
  | .snorm16Vec4 => ⟨.snorm, false, 4, 0, 0, 2, 8⟩
  | .unorm16Vec2 => ⟨.unorm, false, 2, 0, 0, 2, 4⟩
  | .unorm16Vec4 => ⟨.unorm, false, 4, 0, 0, 2, 8⟩
  | .int16Vec2 => ⟨.int, false, 2, 0, 0, 2, 4⟩
  | .int16Vec4 => ⟨.int, false, 4, 0, 0, 2, 8⟩
  | .uint16 => ⟨.uint, false, 1, 0, 0, 2, 2⟩
  | .uint16Vec2 => ⟨.uint, false, 2, 0, 0, 2, 4⟩
  | .uint16Vec4 => ⟨.uint, false, 4, 0, 0, 2, 8⟩
  | .bool => ⟨.bool, false, 1, 0, 0, 4, 4⟩
  | .boolVec2 => ⟨.bool, false, 2, 0, 0, 4, 8⟩
  | .boolVec3 => ⟨.bool, false, 3, 0, 0, 4, 12⟩
  | .boolVec4 => ⟨.bool, false, 4, 0, 0, 4, 16⟩

/-- `getConstant`, the name of a format -/
def name : DataFormat → String
  | .float => "float"
  | .floatVec2 => "floatvec2"
  | .floatVec3 => "floatvec3"
  | .floatVec4 => "floatvec4"
  | .floatMat2x2 => "floatmat2x2"
  | .floatMat2x3 => "floatmat2x3"
  | .floatMat2x4 => "floatmat2x4"
  | .floatMat3x2 => "floatmat3x2"
  | .floatMat3x3 => "floatmat3x3"
  | .floatMat3x4 => "floatmat3x4"
  | .floatMat4x2 => "floatmat4x2"
  | .floatMat4x3 => "floatmat4x3"
  | .floatMat4x4 => "floatmat4x4"
  | .int32 => "int32"
  | .int32Vec2 => "int32vec2"
  | .int32Vec3 => "int32vec3"
  | .int32Vec4 => "int32vec4"
  | .uint32 => "uint32"
  | .uint32Vec2 => "uint32vec2"
  | .uint32Vec3 => "uint32vec3"
  | .uint32Vec4 => "uint32vec4"
  | .snorm8Vec4 => "snorm8vec4"
  | .unorm8Vec4 => "unorm8vec4"
  | .int8Vec4 => "int8vec4"
  | .uint8Vec4 => "uint8vec4"
  | .snorm16Vec2 => "snorm16vec2"
  | .snorm16Vec4 => "snorm16vec4"
  | .unorm16Vec2 => "unorm16vec2"
  | .unorm16Vec4 => "unorm16vec4"
  | .int16Vec2 => "int16vec2"
  | .int16Vec4 => "int16vec4"
  | .uint16 => "uint16"
  | .uint16Vec2 => "uint16vec2"
  | .uint16Vec4 => "uint16vec4"
  | .bool => "bool"
  | .boolVec2 => "boolvec2"
  | .boolVec3 => "boolvec3"
  | .boolVec4 => "boolvec4"

end DataFormat

/-- `getDataFormat`; `none` is `DATAFORMAT_MAX_ENUM`. -/
def getDataFormat : LeafType → Option DataFormat
  | .matrix .float columns rows _ =>
    match rows, columns with
    | 2, 2 => some .floatMat2x2
    | 2, 3 => some .floatMat2x3
    | 2, 4 => some .floatMat2x4
    | 3, 2 => some .floatMat3x2
    | 3, 3 => some .floatMat3x3
    | 3, 4 => some .floatMat3x4
    | 4, 2 => some .floatMat4x2
    | 4, 3 => some .floatMat4x3
    | 4, 4 => some .floatMat4x4
    | _, _ => none
  | .vector .float components =>
    match components with
    | 1 => some .float
    | 2 => some .floatVec2
    | 3 => some .floatVec3
    | 4 => some .floatVec4
    | _ => none
  | .vector .int components =>
    match components with
    | 1 => some .int32
    | 2 => some .int32Vec2
    | 3 => some .int32Vec3
    | 4 => some .int32Vec4
    | _ => none
  | .vector .uint components | .vector .bool components =>
    match components with
    | 1 => some .uint32
    | 2 => some .uint32Vec2
    | 3 => some .uint32Vec3
    | 4 => some .uint32Vec4
    | _ => none
  | _ => none

/-! ## Reflection -/

/-- `Buffer::DataDeclaration`, without a binding location -/
structure DataDeclaration where
  name : String
  format : DataFormat
  arrayLength : Nat
  deriving DecidableEq

/-- The basic type of a type that is no structure. -/
def LeafType.basicType : LeafType → BasicType
  | .vector type _ => type
  | .matrix type _ _ _ => type

/-- The name of a structure's element, before the names of its fields. -/
def structName (level : Nat) (fieldName : String) (arraylength : Nat) (basename : String)
    (i : Nat) : String :=
  if 0 < level then
    basename ++ fieldName ++ (if 0 < arraylength then "[" ++ toString i ++ "]" else "") ++ "."
  else basename

mutual

/-- `AddFieldsToFormat`: what it adds to the format. -/
def GlslType.addFieldsToFormat (level : Nat) (fieldName : String) (arraylength : Nat)
    (basename : String) : GlslType → Except String (List DataDeclaration)
  | .struct fields => do
    let added ← (List.range (max arraylength 1)).mapM fun i =>
      fields.addFieldsToFormat (level + 1) (structName level fieldName arraylength basename i)
    return added.flatten
  | .leaf type =>
    match getDataFormat type with
    | none =>
      .error ("Shader validation error:\nUnhandled data format for type " ++
        toString type.basicType.number ++ " with name " ++ basename)
    | some format => .ok [⟨basename ++ fieldName, format, arraylength⟩]

/-- The loop over the fields of a structure. -/
def GlslFields.addFieldsToFormat (level : Nat) (basename : String) :
    GlslFields → Except String (List DataDeclaration)
  | .nil => .ok []
  | .cons fieldName arraySize type fields => do
    let added ← type.addFieldsToFormat level fieldName arraySize basename
    return added ++ (← fields.addFieldsToFormat level basename)

end

/-- `Shader::getBufferFormat`, of a block that reflection has accepted. -/
def StorageBlock.bufferFormat (block : StorageBlock) : Except String (List DataDeclaration) :=
  block.element.addFieldsToFormat 0 block.fieldName 0 ""

/-! ## Buffers -/

/-- `Buffer::DataMember` -/
structure BufferMember where
  decl : DataDeclaration
  offset : Nat
  size : Nat

/-- What the constructor of `Buffer` computes of a format. -/
structure BufferLayout where
  dataMembers : List BufferMember
  arrayStride : Nat

/-- `SHADER_STORAGE_BUFFER_MAX_STRIDE` -/
def maxStride : Nat := 2048

/-- The alignment of a format in a storage buffer. -/
def DataFormat.alignment (format : DataFormat) : Nat :=
  let info := format.info
  let c := if info.isMatrix then info.matrixRows else info.components
  if c = 3 then 4 * info.componentSize else c * info.componentSize

/-- The checks that a storage buffer makes of a member. -/
def DataDeclaration.check (decl : DataDeclaration) : Except String Unit :=
  let info := decl.format.info
  let c := if info.isMatrix then info.matrixRows else info.components
  if 0 < decl.arrayLength then
    .error "Arrays are not currently supported in shader storage buffers."
  else if info.baseType = .bool then
    .error "Bool types are not supported in shader storage buffers."
  else if info.baseType = .unorm ∨ info.baseType = .snorm then
    .error "Normalized formats are not supported in shader storage buffers."
  else if decl.format.alignment ≠ c * info.componentSize ∧
      (0 < decl.arrayLength ∨ info.isMatrix) then
    .error ("Data format " ++ decl.format.name ++ (if 0 < decl.arrayLength then " array" else "") ++
      " is not currently supported in shader storage buffers.")
  else .ok ()

/-- The loop over the format: the members, the offset and the alignment of the structure. -/
def layoutLoop (packed : Bool) :
    List DataDeclaration → Nat → Nat → Except String (List BufferMember × Nat × Nat)
  | [], offset, structurealignment => .ok ([], offset, structurealignment)
  | decl :: format, offset, structurealignment => do
    decl.check
    let memberoffset := alignUp offset decl.format.alignment
    if memberoffset ≠ offset ∧ packed then
      .error ("Cannot create Buffer:\nInternal alignment of member '" ++ decl.name ++
        "' is preventing Buffer from being created as both a shader storage buffer and other " ++
        "buffer types\nMember byte offset needed for shader storage buffer: " ++
        toString memberoffset ++ "\nMember byte offset needed for other buffer types: " ++
        toString offset)
    else
      let (members, rest) ← layoutLoop packed format (memberoffset + decl.format.info.size)
        (max structurealignment decl.format.alignment)
      return (⟨decl, memberoffset, decl.format.info.size⟩ :: members, rest)

/-- The layout of a storage buffer. -/
def bufferLayout (packed : Bool) (format : List DataDeclaration) : Except String BufferLayout := do
  if format.isEmpty then .error "Data format must contain values."
  else
    let (dataMembers, offset, structurealignment) ← layoutLoop packed format 0 1
    let stride := alignUp offset structurealignment
    if packed ∧ stride ≠ offset then
      .error ("Cannot create Buffer:\nBuffer used as a shader storage buffer would have a " ++
        "different number of bytes per array element (" ++ toString stride ++
        ") than when used as other buffer types (" ++ toString offset ++ ")")
    else if maxStride < stride then
      .error ("Shader storage buffers cannot have more than " ++ toString maxStride ++
        " bytes within each array element.")
    else return ⟨dataMembers, stride⟩

end Lhatove.Graphics
