import Lhatove.Lib.Transition

/-!
# Attributes of a mesh

`love::graphics::Mesh`, as far as its attached attributes go: the constructors,
and attaching, detaching and enabling attributes, each by a name or by a binding
location.

- A `Buffer` is what its constructor promises of it: in a vertex buffer, each
  member has a location below the maximum, or none and a name.
- The numbers in texts of exceptions are `int`, as the locations are.
-/

namespace Lhatove.Graphics

/-- `VertexAttributes::MAX` -/
def maxVertexAttributes : Int := 30

/-- `DataMember`: the name and the location of its declaration. -/
structure DataMember where
  name : String
  bindingLocation : Int
  deriving DecidableEq

/-- A member that a vertex buffer may have. -/
def DataMember.Valid (m : DataMember) : Prop :=
  (m.bindingLocation = -1 ∧ m.name ≠ "") ∨
    (0 ≤ m.bindingLocation ∧ m.bindingLocation < maxVertexAttributes)

instance (m : DataMember) : Decidable m.Valid := inferInstanceAs (Decidable (_ ∨ _))

/-- A buffer; `vertex` is its `BUFFERUSAGEFLAG_VERTEX`. -/
structure VertexBuffer where
  vertex : Bool
  arrayLength : Nat
  dataMembers : List DataMember
  valid : vertex = true → ∀ m ∈ dataMembers, m.Valid

namespace VertexBuffer

/-- `getDataMemberIndex(name)` -/
def memberByName (buffer : VertexBuffer) (name : String) : Option Nat :=
  buffer.dataMembers.findIdx? fun m => m.name = name

/-- `getDataMemberIndex(bindingLocation)` -/
def memberByLocation (buffer : VertexBuffer) (bindingLocation : Int) : Option Nat :=
  buffer.dataMembers.findIdx? fun m => m.bindingLocation = bindingLocation

/-- The declared location of a member. -/
def declaredLocation (buffer : VertexBuffer) (index : Nat) : Int :=
  (buffer.dataMembers[index]?.map (·.bindingLocation)).getD (-1)

end VertexBuffer

/-- What a C function sees of a `std::string`. -/
def cString (s : String) : String := String.ofList (s.toList.takeWhile (· ≠ Char.ofNat 0))

/-- `getConstant` for `BuiltinVertexAttribute` -/
def builtinVertexAttribute (name : String) : Option Int :=
  if cString name = "VertexPosition" then some 0
  else if cString name = "VertexTexCoord" then some 1
  else if cString name = "VertexColor" then some 2
  else none

inductive AttributeStep
  | perVertex
  | perInstance
  deriving DecidableEq

/-- `Mesh::BufferAttribute` -/
structure BufferAttribute where
  name : String
  buffer : VertexBuffer
  nameInBuffer : String
  bindingLocationInBuffer : Int
  indexInBuffer : Int
  startArrayIndex : Int
  step : AttributeStep
  bindingLocation : Int
  enabled : Bool

/-! ## Exceptions -/

def duplicateLocation (bindingLocation : Int) : String :=
  "Duplicate vertex attribute binding location: " ++ toString bindingLocation

def duplicateName (name : String) : String :=
  "Duplicate vertex attribute name: " ++ cString name

def noVertexSupport : String :=
  "Buffer must be created with vertex buffer support to be used as a Mesh vertex attribute."

def invalidStartIndex (startArrayIndex : Int) : String :=
  "Invalid start array index " ++ toString (startArrayIndex + 1) ++ "."

def noMemberAt (bindingLocation : Int) : String :=
  "Buffer does not have a vertex attribute with binding location " ++ toString bindingLocation ++ "."

def noMemberNamed (name : String) : String :=
  "Buffer does not have a vertex attribute with name '" ++ cString name ++ "'."

def invalidLocation : String :=
  "Vertex attributes must have a valid binding location value within [0, 30)."

def tooManyAttributes : String := "A maximum of 30 attributes can be attached at once."

def noAttributeNamed (name : String) : String :=
  "Mesh does not have an attached vertex attribute named '" ++ cString name ++ "'"

def noAttributeAt (bindingLocation : Int) : String :=
  "Mesh does not have an attached vertex attribute with binding location " ++
    toString bindingLocation

def noAttributes : String := "At least one buffer attribute must be specified in this constructor."

def invalidVertexCount (vertexcount : Int) : String :=
  "Invalid number of vertices (" ++ toString vertexcount ++ ")."

def outOfMeshMemory : String := "Out of memory"

/-! ## Resolution -/

namespace BufferAttribute

/-- The member of the buffer that an attribute is about. -/
def findMember (a : BufferAttribute) : Except String Nat :=
  if 0 ≤ a.bindingLocationInBuffer then
    match a.buffer.memberByLocation a.bindingLocationInBuffer with
    | some index => .ok index
    | none => .error (noMemberAt a.bindingLocationInBuffer)
  else
    match a.buffer.memberByName a.nameInBuffer with
    | some index => .ok index
    | none => .error (noMemberNamed a.nameInBuffer)

/-- A location that is missing is the one of the member, or else the one of a
builtin attribute of that name. -/
def resolve (a : BufferAttribute) (index : Nat) : Int :=
  let bindingLocation :=
    if a.bindingLocation < 0 then a.buffer.declaredLocation index else a.bindingLocation
  if bindingLocation < 0 then (builtinVertexAttribute a.name).getD bindingLocation
  else bindingLocation

/-- `Mesh::finalizeAttribute` -/
def finalize (a : BufferAttribute) : Except String BufferAttribute :=
  if a.buffer.vertex = false then .error noVertexSupport
  else if a.startArrayIndex < 0 ∨ (a.buffer.arrayLength : Int).bmod (2 ^ 32) ≤ a.startArrayIndex then
    .error (invalidStartIndex a.startArrayIndex)
  else
    match a.findMember with
    | .error message => .error message
    | .ok index =>
      if maxVertexAttributes ≤ a.resolve index ∨ (a.resolve index < 0 ∧ a.name = "") then
        .error invalidLocation
      else .ok { a with indexInBuffer := index, bindingLocation := a.resolve index }

/-- The location that an attribute will have. -/
def impliedLocation (a : BufferAttribute) : Int :=
  match a.findMember with
  | .ok index => a.resolve index
  | .error _ => a.bindingLocation

end BufferAttribute

/-- The location that a member of the mesh's own buffer gets. -/
def DataMember.impliedLocation (m : DataMember) : Int :=
  if m.bindingLocation < 0 then (builtinVertexAttribute m.name).getD m.bindingLocation
  else m.bindingLocation

/-! ## The mesh -/

/-- `getAttachedAttributeIndex(name)` -/
def indexOfName (attributes : List BufferAttribute) (name : String) : Option Nat :=
  attributes.findIdx? fun a => a.name = name

/-- `getAttachedAttributeIndex(bindingLocation)` -/
def indexOfLocation (attributes : List BufferAttribute) (bindingLocation : Int) : Option Nat :=
  attributes.findIdx? fun a => a.bindingLocation = bindingLocation

structure Mesh where
  /-- null for a mesh of attributes of other buffers -/
  vertexBuffer : Option VertexBuffer
  vertexCount : Nat
  attachedAttributes : List BufferAttribute

/-- The attribute of a member of the mesh's own buffer. -/
def ownAttribute (buffer : VertexBuffer) (index : Nat) (m : DataMember) : BufferAttribute where
  name := m.name
  buffer := buffer
  nameInBuffer := m.name
  bindingLocationInBuffer := m.impliedLocation
  indexInBuffer := index
  startArrayIndex := 0
  step := .perVertex
  bindingLocation := m.impliedLocation
  enabled := true

/-- `Mesh::setupAttachedAttributes`, from member `index` on. -/
def setupAttachedAttributes (buffer : VertexBuffer) :
    List DataMember → Nat → List BufferAttribute → Except String (List BufferAttribute)
  | [], _, attributes => .ok attributes
  | m :: members, index, attributes =>
    if 0 ≤ m.bindingLocation ∧ indexOfLocation attributes m.bindingLocation ≠ none then
      .error (duplicateLocation m.bindingLocation)
    else if m.name ≠ "" ∧ indexOfName attributes m.name ≠ none then
      .error (duplicateName m.name)
    else
      setupAttachedAttributes buffer members (index + 1)
        (attributes ++ [ownAttribute buffer index m])

/-- The loop of the constructor from attributes: those done, and those to do. -/
def finalizeAttributes :
    List BufferAttribute → List BufferAttribute → Except String (List BufferAttribute)
  | done, [] => .ok done
  | done, a :: rest =>
    match a.finalize with
    | .error message => .error message
    | .ok a =>
      -- A duplicate is found when it is not the first of its kind.
      if 0 ≤ a.bindingLocation ∧
          indexOfLocation (done ++ a :: rest) a.bindingLocation ≠ some done.length then
        .error (duplicateLocation a.bindingLocation)
      else if a.name ≠ "" ∧ indexOfName (done ++ a :: rest) a.name ≠ some done.length then
        .error (duplicateName a.name)
      else finalizeAttributes (done ++ [a]) rest

namespace Mesh

/-- The constructor from vertex data, with the buffer that was made of it. -/
def ofData (buffer : VertexBuffer) : Except String Mesh :=
  match setupAttachedAttributes buffer buffer.dataMembers 0 [] with
  | .error message => .error message
  | .ok attributes => .ok ⟨some buffer, buffer.arrayLength, attributes⟩

/-- The constructor from a number of vertices. `memory` says whether there is
room for their data. -/
def ofCount (vertexcount : Int) (buffer : VertexBuffer) (memory : Bool) : Except String Mesh :=
  if vertexcount ≤ 0 then .error (invalidVertexCount vertexcount)
  else
    match setupAttachedAttributes buffer buffer.dataMembers 0 [] with
    | .error message => .error message
    | .ok attributes =>
      if memory = false then .error outOfMeshMemory
      else .ok ⟨some buffer, vertexcount.toNat, attributes⟩

/-- The constructor from attributes. -/
def ofAttributes (attributes : List BufferAttribute) : Except String Mesh :=
  if attributes = [] then .error noAttributes
  else
    match finalizeAttributes [] attributes with
    | .error message => .error message
    | .ok attributes =>
      .ok ⟨none, attributes.foldl (fun n a => min n a.buffer.arrayLength) (2 ^ 32 - 1), attributes⟩

/-- Whether an attribute that takes the place of another one is enabled. -/
def enabledAt (mesh : Mesh) (oldindex : Option Nat) : Bool :=
  ((oldindex.bind fun i => mesh.attachedAttributes[i]?).map (·.enabled)).getD true

/-- The attribute that `attachAttribute(name, …)` makes. -/
def attributeNamed (mesh : Mesh) (name : String) (buffer : VertexBuffer) (attachname : String)
    (startindex : Int) (step : AttributeStep) : BufferAttribute where
  name := name
  buffer := buffer
  nameInBuffer := attachname
  bindingLocationInBuffer := -1
  indexInBuffer := -1
  startArrayIndex := startindex
  step := step
  bindingLocation := -1
  enabled := mesh.enabledAt (indexOfName mesh.attachedAttributes name)

/-- The attribute that `attachAttribute(bindingLocation, …)` makes. -/
def attributeAt (mesh : Mesh) (bindingLocation : Int) (buffer : VertexBuffer)
    (attachBindingLocation : Int) (startindex : Int) (step : AttributeStep) : BufferAttribute where
  name := ""
  buffer := buffer
  nameInBuffer := ""
  bindingLocationInBuffer := attachBindingLocation
  indexInBuffer := -1
  startArrayIndex := startindex
  step := step
  bindingLocation := bindingLocation
  enabled := mesh.enabledAt (indexOfLocation mesh.attachedAttributes bindingLocation)

/-- An attribute in the place of another one, or behind all others. -/
def place (attributes : List BufferAttribute) (oldindex : Option Nat) (a : BufferAttribute) :
    List BufferAttribute :=
  match oldindex with
  | some i => attributes.set i a
  | none => attributes ++ [a]

/-- What both `attachAttribute` do with the attribute they made. -/
def attach (mesh : Mesh) (oldindex : Option Nat) (a : BufferAttribute) : Except String Mesh :=
  if oldindex = none ∧ maxVertexAttributes < mesh.attachedAttributes.length + 1 then
    .error tooManyAttributes
  else
    match a.finalize with
    | .error message => .error message
    | .ok a => .ok { mesh with attachedAttributes := place mesh.attachedAttributes oldindex a }

/-- `attachAttribute(name, …)` -/
def attachNamed (mesh : Mesh) (name : String) (buffer : VertexBuffer) (attachname : String)
    (startindex : Int) (step : AttributeStep) : Except String Mesh :=
  mesh.attach (indexOfName mesh.attachedAttributes name)
    (mesh.attributeNamed name buffer attachname startindex step)

/-- `attachAttribute(bindingLocation, …)` -/
def attachAt (mesh : Mesh) (bindingLocation : Int) (buffer : VertexBuffer)
    (attachBindingLocation : Int) (startindex : Int) (step : AttributeStep) : Except String Mesh :=
  mesh.attach (indexOfLocation mesh.attachedAttributes bindingLocation)
    (mesh.attributeAt bindingLocation buffer attachBindingLocation startindex step)

/-- The mesh without an attribute. -/
def erase (mesh : Mesh) (index : Nat) : Mesh :=
  { mesh with attachedAttributes := mesh.attachedAttributes.eraseIdx index }

/-- What an exception leaves of the mesh, with the result. -/
def orElse (mesh : Mesh) : Except String Mesh → Except String Bool × Mesh
  | .ok mesh' => (.ok true, mesh')
  | .error message => (.error message, mesh)

/-- `detachAttribute(name)`: an attribute of the mesh's own buffer comes back. -/
def detachNamed (mesh : Mesh) (name : String) : Except String Bool × Mesh :=
  match indexOfName mesh.attachedAttributes name with
  | none => (.ok false, mesh)
  | some index =>
    match mesh.vertexBuffer with
    | none => (.ok true, mesh.erase index)
    | some buffer =>
      if buffer.memberByName name = none then (.ok true, mesh.erase index)
      else (mesh.erase index).orElse ((mesh.erase index).attachNamed name buffer name 0 .perVertex)

/-- `detachAttribute(bindingLocation)` -/
def detachAt (mesh : Mesh) (bindingLocation : Int) : Except String Bool × Mesh :=
  match indexOfLocation mesh.attachedAttributes bindingLocation with
  | none => (.ok false, mesh)
  | some index =>
    match mesh.vertexBuffer with
    | none => (.ok true, mesh.erase index)
    | some buffer =>
      if buffer.memberByLocation bindingLocation = none then (.ok true, mesh.erase index)
      else
        (mesh.erase index).orElse
          ((mesh.erase index).attachAt bindingLocation buffer bindingLocation 0 .perVertex)

/-- An attribute switched on or off. -/
def enable (mesh : Mesh) (index : Nat) (enabled : Bool) : Mesh :=
  { mesh with attachedAttributes :=
      mesh.attachedAttributes.modify index fun a => { a with enabled := enabled } }

/-- `setAttributeEnabled(name, enable)` -/
def setEnabledNamed (mesh : Mesh) (name : String) (enabled : Bool) : Except String Mesh :=
  match indexOfName mesh.attachedAttributes name with
  | none => .error (noAttributeNamed name)
  | some index => .ok (mesh.enable index enabled)

/-- `setAttributeEnabled(bindingLocation, enable)` -/
def setEnabledAt (mesh : Mesh) (bindingLocation : Int) (enabled : Bool) : Except String Mesh :=
  match indexOfLocation mesh.attachedAttributes bindingLocation with
  | none => .error (noAttributeAt bindingLocation)
  | some index => .ok (mesh.enable index enabled)

end Mesh

/-! ## Runs -/

/-- A constructor or a member function, with its arguments. -/
inductive MeshOp
  | ofData (buffer : VertexBuffer)
  | ofCount (vertexcount : Int) (buffer : VertexBuffer) (memory : Bool)
  | ofAttributes (attributes : List BufferAttribute)
  | attachNamed (name : String) (buffer : VertexBuffer) (attachname : String) (startindex : Int)
      (step : AttributeStep)
  | attachAt (bindingLocation : Int) (buffer : VertexBuffer) (attachBindingLocation : Int)
      (startindex : Int) (step : AttributeStep)
  | detachNamed (name : String)
  | detachAt (bindingLocation : Int)
  | setEnabledNamed (name : String) (enabled : Bool)
  | setEnabledAt (bindingLocation : Int) (enabled : Bool)

/-- The mesh after a call that may throw, and then leaves it as it is. -/
def Mesh.orSame (mesh : Mesh) (result : Except String Mesh) : Mesh := (mesh.orElse result).2

/-- A call: a constructor while there is no mesh, a member function when there
is one. -/
def meshStep : Option Mesh → MeshOp → Option (Option Mesh)
  | none, .ofData buffer => some (Mesh.ofData buffer).toOption
  | none, .ofCount vertexcount buffer memory =>
    some (Mesh.ofCount vertexcount buffer memory).toOption
  | none, .ofAttributes attributes => some (Mesh.ofAttributes attributes).toOption
  | some mesh, .attachNamed name buffer attachname startindex step =>
    some (some (mesh.orSame (mesh.attachNamed name buffer attachname startindex step)))
  | some mesh, .attachAt bindingLocation buffer attachBindingLocation startindex step =>
    some (some (mesh.orSame
      (mesh.attachAt bindingLocation buffer attachBindingLocation startindex step)))
  | some mesh, .detachNamed name => some (some (mesh.detachNamed name).2)
  | some mesh, .detachAt bindingLocation => some (some (mesh.detachAt bindingLocation).2)
  | some mesh, .setEnabledNamed name enabled =>
    some (some (mesh.orSame (mesh.setEnabledNamed name enabled)))
  | some mesh, .setEnabledAt bindingLocation enabled =>
    some (some (mesh.orSame (mesh.setEnabledAt bindingLocation enabled)))
  | _, _ => none

def meshes : System (Option Mesh) MeshOp := System.ofStep (· = none) meshStep

end Lhatove.Graphics
