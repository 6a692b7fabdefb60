import Lhatove.Common.Range
import Lhatove.Lib.Loop

/-!
# The interface of a Vulkan shader

`BindingMapper` of `vulkan/Shader.cpp`, and the part of `Shader::compileShaders` that gives
the resources of the stages their positions.

- SPIRV-Cross is what a stage says of its resources: the name, the type, the decoration of
  the SPIR-V as first parsed, and where in the words of the SPIR-V it stands.
- A mapper's table is a list, the entry made last in front: the search for a free position
  asks all entries, in whatever order.
- The search is a loop over a `uint32_t`, which need not end.
- `actions` lists what the loops over the resources of a stage do, in their order. The data
  of the uniforms and what is built of the positions are left out.
-/

namespace Lhatove.Vulkan

/-! ## SPIRV-Cross -/

/-- `spirv_cross::SPIRType`: sizes of an array, and the columns of a matrix. -/
structure SPIRType where
  array : List Nat := []
  isMatrix : Bool := false
  columns : Nat := 1

/-- `spirv_cross::Resource`: whether it is active, its decoration, and the offset that
`get_binary_offset_for_decoration` gives. -/
structure Resource where
  name : String
  active : Bool
  type : SPIRType
  decoration : Nat
  offset : Option Nat

/-- The type of `base_type_id`: without its arrays. -/
def Resource.baseType (r : Resource) : SPIRType := { r.type with array := [] }

/-- How many locations the resource occupies: one for each element and column. -/
def Resource.occupied (r : Resource) : Nat :=
  r.type.array.prod * if r.type.isMatrix then r.type.columns else 1

inductive ShaderStageType
  | vertex
  | pixel
  | compute
  deriving DecidableEq

/-- The code of a stage, with its `ShaderResources`. -/
structure StageCode where
  stage : ShaderStageType
  spirv : List Nat
  uniformBuffers : List Resource
  sampledImages : List Resource
  storageBuffers : List Resource
  storageImages : List Resource
  stageInputs : List Resource
  stageOutputs : List Resource

/-- What the reflection knows of the names: the count of a uniform, and the location of a
vertex input. -/
structure Reflection where
  allUniforms : String → Option Int
  storageBuffers : String → Option Int
  storageTextures : String → Option Int
  vertexInputs : String → Option Int

/-! ## The mapper -/

/-- `bindingMappings` -/
abbrev BindingMapper := List (String × Range)

/-- An `int` as a `size_t`. -/
def sizeOfInt (n : Int) : Nat := (n % 2 ^ 64).toNat

/-- `BindingMapper::isFreeBinding` -/
def BindingMapper.isFreeBinding (m : BindingMapper) (binding : Nat) (count : Int) : Bool :=
  m.all fun entry => !entry.2.intersects (.ofSize binding (sizeOfInt count))

/-- The three mappers of `compileShaders`. -/
inductive Mapper
  | binding
  | ioLocation
  | vertexInputLocation
  deriving DecidableEq

/-- What the mapping changes: the tables, the words of each stage, and the positions
answered last. -/
structure Interface where
  table : Mapper → BindingMapper
  spirv : Nat → List Nat
  answer : Mapper → String → Option Nat

/-- A function that maps. -/
abbrev Mapping (α : Type) := LoopM String Interface α

/-- `BindingMapper::getFreeBinding` -/
def getFreeBinding (m : BindingMapper) (count : Int) : Mapping Nat :=
  LoopM.repeatM (fun i =>
    if m.isFreeBinding i count then return .inr i else return .inl ((i + 1) % 2 ^ 32)) 0

namespace Interface

/-- `bindingMappings[name] = range` -/
def enter (s : Interface) (k : Mapper) (name : String) (range : Range) : Interface :=
  { s with table := Function.update s.table k ((name, range) :: s.table k) }

/-- `spirv[offset] = word`, in a stage -/
def write (s : Interface) (stage offset word : Nat) : Interface :=
  { s with spirv := Function.update s.spirv stage ((s.spirv stage).set offset word) }

/-- The position is answered. -/
def answered (s : Interface) (k : Mapper) (name : String) (position : Nat) : Interface :=
  { s with
    answer := Function.update s.answer k (Function.update (s.answer k) name (some position)) }

end Interface

/-- The word of the decoration, written. -/
def writeBinding (stage : Nat) (name : String) (r : Resource) (binding : Nat) :
    Mapping Unit :=
  match r.offset with
  | none => LoopM.throw ("could not get binary offset for uniform " ++ name ++ " binding")
  | some offset => LoopM.modify fun s => s.write stage offset binding

/-- `BindingMapper::operator()`, for a resource of a stage. -/
def place (k : Mapper) (stage : Nat) (name : String) (count : Int) (r : Resource) :
    Mapping Nat := do
  let s ← LoopM.get
  match (s.table k).lookup name with
  | none =>
    if (s.table k).isFreeBinding r.decoration count then
      LoopM.modify fun s => s.enter k name (.ofSize r.decoration (sizeOfInt count))
      return r.decoration
    else
      let freeBinding ← getFreeBinding (s.table k) count
      writeBinding stage name r freeBinding
      LoopM.modify fun s => s.enter k name (.ofSize freeBinding (sizeOfInt count))
      return freeBinding
  | some range =>
    let binding := range.getOffset % 2 ^ 32
    writeBinding stage name r binding
    return binding

/-! ## The resources of the stages -/

/-- `Shader::canonicaliizeUniformName` -/
def canonicaliizeUniformName (n : String) : String :=
  if 3 < n.length ∧ n.endsWith "[0]" then String.ofList (n.toList.dropLast.dropLast.dropLast)
  else n

/-- What is done with a resource: it is mapped with a count, or the shader is refused. -/
inductive Action
  | place (mapper : Mapper) (name : String) (count : Int) (r : Resource)
  | refuse (message : String)

/-- The loop over `uniform_buffers` -/
def uniformBufferActions (resources : List Resource) : List Action :=
  (resources.filter Resource.active).map fun r =>
    if r.name = "gl_DefaultUniformBlock" then .place .binding r.name 1 r
    else .refuse "unimplemented: non default uniform blocks."

/-- The loops over `sampled_images`, `storage_buffers` and `storage_images`. Unknown names
are skipped. -/
def uniformActions (known : String → Option Int) (resources : List Resource) : List Action :=
  (resources.filter Resource.active).filterMap fun r =>
    let name := canonicaliizeUniformName r.name
    (known name).map fun count => .place .binding name count r

/-- The loops over the `stage_inputs` of the vertex stage: the known ones first. -/
def vertexInputActions (known : String → Option Int) (resources : List Resource) :
    List Action :=
  ((resources.filter fun r => (known r.name).any fun location => 0 ≤ location) ++
    resources).map fun r => .place .vertexInputLocation r.name 1 r

/-- `count` of a variable between the stages -/
def ioCount (type : SPIRType) : Int :=
  let count : Int := type.array.headD 1
  if type.isMatrix then count * type.columns else count

/-- The loop over the outputs of the vertex stage, or the inputs of the pixel stage. -/
def ioActions (resources : List Resource) : List Action :=
  resources.map fun r => .place .ioLocation r.name (ioCount r.baseType) r

/-- What is done for a stage. -/
def actions (reflection : Reflection) (s : StageCode) : List Action :=
  uniformBufferActions s.uniformBuffers ++
    uniformActions reflection.allUniforms s.sampledImages ++
    uniformActions reflection.storageBuffers s.storageBuffers ++
    uniformActions reflection.storageTextures s.storageImages ++
    match s.stage with
    | .vertex =>
      vertexInputActions reflection.vertexInputs s.stageInputs ++ ioActions s.stageOutputs
    | .pixel => ioActions s.stageInputs
    | .compute => []

/-- An action in a stage. -/
def act (stage : Nat) : Action → Mapping Unit
  | .place k name count r => do
    let position ← place k stage name count r
    LoopM.modify fun s => s.answered k name position
  | .refuse message => LoopM.throw message

/-- Actions, one after the other. -/
def runActions : List (Nat × Action) → Mapping Unit
  | [] => return ()
  | (stage, action) :: rest => do
    act stage action
    runActions rest

/-- All actions of the stages, in their order. -/
def allActions (reflection : Reflection) (stages : List StageCode) : List (Nat × Action) :=
  (stages.zipIdx.map fun s => (actions reflection s.1).map fun action => (s.2, action)).flatten

/-- Before the mapping. -/
def fresh (stages : List StageCode) : Interface where
  table _ := []
  spirv stage := (stages[stage]?.map StageCode.spirv).getD []
  answer _ _ := none

/-- The mapping of `Shader::compileShaders`. -/
def mapInterface (reflection : Reflection) (stages : List StageCode) : Mapping Unit :=
  runActions (allActions reflection stages)

end Lhatove.Vulkan
