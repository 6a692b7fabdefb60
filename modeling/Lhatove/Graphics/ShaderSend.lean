import Lhatove.Graphics.UniformPacking
import Lhatove.Lib.Program

/-!
# Sending values to a shader

`send` and `sendColor` of `lh_Shader.cpp`, with `updateUniform` and `sendTextures` of
`love::graphics::opengl::Shader`.

- A write that is not within the data of the uniform is not defined, and nothing is said of what a
  program does then; nor is a read that is not.
- `Host`: how numbers become words, whether colours are gamma-correct, how the flush of batched
  draws ends, and which textures are accepted.
- The references to textures, and the units that OpenGL has, are left out.
-/

namespace Lhatove.Graphics.ShaderSend

inductive UniformType
  | float
  | matrix
  | int
  | uint
  | bool
  | sampler
  | storageTexture
  | texelBuffer
  | storageBuffer
  | unknown
  deriving DecidableEq

/-- `UniformInfo`, with its type. -/
structure TypedUniform extends UniformInfo where
  baseType : UniformType
  resourceIndex : Nat
  matrix_iff : baseType = .matrix ↔ toUniformInfo.isMatrix = true

namespace TypedUniform

/-- The words of one element. -/
def elementSize (info : TypedUniform) : Nat := info.columns * info.rows

/-- `getUniformDataSizePacked`, in words -/
def packedSize (info : TypedUniform) : Nat := info.elementSize * info.count

end TypedUniform

/-- The values of the language: tables have a length, and something at each number. -/
inductive Value (Number : Type)
  | number (x : Number)
  | boolean (b : Bool)
  | table (length : Nat) (get : Nat → Value Number)
  | transform (elements : Nat → UniformWord)
  | texture (texture : Nat)
  | other

/-- What the program around the shader does. -/
structure Host (Number : Type) where
  zero : Number
  toFloat : Number → UniformWord
  toInt : Number → UniformWord
  toUint : Number → UniformWord
  floatToInt : UniformWord → UniformWord
  floatToUint : UniformWord → UniformWord
  gammaToLinear : UniformWord → UniformWord
  gammaCorrect : Bool
  flushBatchedDraws : Except String Unit
  validateTexture : TypedUniform → Nat → Except String Unit

structure Shader where
  allUniforms : List TypedUniform
  data : String → Option (List UniformWord)
  pendingUniformUpdates : List (String × Nat)
  glUniforms : String → List UniformWord
  activeTextures : Nat → Option Nat
  textureUnits : UniformWord → Option Nat
  isCurrent : Bool

/-- How a call ends, when it does not return. -/
inductive Fault
  | undefined
  | raised (message : String)
  deriving DecidableEq

abbrev SendM := EStateM Fault Shader

/-! ## Arguments -/

section Arguments

variable {Number : Type} (host : Host Number)

def optNumber (args : List (Value Number)) (index : Nat) : Number :=
  match args[index]? with
  | some (.number x) => x
  | _ => host.zero

def optBool (args : List (Value Number)) (index : Nat) : Bool :=
  match args[index]? with
  | some (.boolean b) => b
  | _ => false

def numbersOf : Value Number → Option (List UniformWord)
  | .table length get =>
    some ((List.range length).map fun i => host.toFloat (optNumber host [get (i + 1)] 0))
  | _ => none

def isNumber : Value Number → Bool
  | .number _ => true
  | _ => false

def isTable : Value Number → Bool
  | .table _ _ => true
  | _ => false

def isTransform : Value Number → Bool
  | .transform _ => true
  | _ => false

def isTexture : Value Number → Bool
  | .texture _ => true
  | _ => false

/-- A value of the arguments, of which there are as many. -/
def argument (args : List (Value Number)) (i : Nat) : Value Number := args.getD i .other

def sendCount (given : Nat) (info : TypedUniform) : Nat := min given info.count

end Arguments

/-! ## What the elements are -/

/-- The words that are stored, and where. -/
abbrev Stores := List (Nat × UniformWord)

/-- The elements that a call goes through, and what it stores for each of them, or raises. -/
structure Elements where
  n : Nat
  element : Nat → Except String Stores

/-- The components of an element, one behind the other. -/
def componentsAt (i components : Nat) (f : Nat → UniformWord) : Stores :=
  (List.range components).map fun c => (i * components + c, f c)

section Elements

variable {Number : Type} (host : Host Number) (info : TypedUniform) (args : List (Value Number))

def needsNumbers : String :=
  "Shader uniform '" ++ info.name ++ "' needs a table of " ++ toString info.rows ++
    " numbers per element"

/-- The elements of `sendFloats` and `sendInts`, which store `ofNumber` of a number, and `ofFloat`
of what `numbersOf` gives. -/
def numberElements (ofNumber : Number → UniformWord) (ofFloat : UniformWord → UniformWord) :
    Elements :=
  if info.rows = 1 then
    ⟨sendCount args.length info, fun i => .ok [(i, ofNumber (optNumber host args i))]⟩
  else if isNumber (argument args 0) = true then
    -- the components of a single element
    ⟨1, fun _ => .ok (componentsAt 0 info.rows fun c => ofNumber (optNumber host args c))⟩
  else
    ⟨sendCount args.length info, fun i =>
      match numbersOf host (argument args i) with
      | none => .error (needsNumbers info)
      | some parts => .ok (componentsAt i info.rows fun c => ofFloat (parts.getD c 0))⟩

def boolWord (b : Bool) : UniformWord := if b = true then 1 else 0

def booleanElements : Elements :=
  if info.rows = 1 then
    ⟨sendCount args.length info, fun i => .ok [(i, boolWord (optBool args i))]⟩
  else
    ⟨sendCount args.length info, fun i =>
      match argument args i with
      | .table _ get =>
        .ok (componentsAt i info.rows fun c => boolWord (optBool [get (c + 1)] 0))
      | _ => .error ("Shader uniform '" ++ info.name ++ "' needs a table of booleans per element")⟩

/-- A table of rows, stored column by column. -/
def rowStores (i : Nat) (get : Nat → Value Number) : Stores :=
  (List.range info.rows).flatMap fun row =>
    (List.range info.columns).map fun column =>
      (i * info.elementSize + (column * info.rows + row),
        ((numbersOf host (get (row + 1))).getD []).getD column 0)

def matrixElements : Elements :=
  ⟨sendCount args.length info, fun i =>
    match argument args i with
    | .transform elements =>
      if info.columns = 4 ∧ info.rows = 4 then .ok (componentsAt i 16 elements)
      else .error ("Shader uniform '" ++ info.name ++ "' needs a table per matrix")
    | .table length get =>
      if isTable (get 1) = true then .ok (rowStores host info i get)
      else .ok (componentsAt i info.elementSize fun k =>
        ((numbersOf host (.table length get)).getD []).getD k 0)
    | _ => .error ("Shader uniform '" ++ info.name ++ "' needs a table per matrix")⟩

end Elements

/-! ## The shader -/

namespace Shader

def getUniformInfo (s : Shader) (name : String) : Option TypedUniform :=
  s.allUniforms.find? fun info => info.name = name

def withData (s : Shader) (name : String) (data : List UniformWord) : Shader :=
  { s with data := fun n => if n = name then some data else s.data n }

/-- The data that `mapActiveUniforms` allocates for a uniform of the linked program: its initial
values, as far as there are any. -/
def allocated (info : TypedUniform) (initial : List UniformWord) : List UniformWord :=
  initial.take info.packedSize ++ List.replicate (info.packedSize - initial.length) 0

/-- `info->floats[k] = word`, and the same of `ints` and `uints` -/
def store (info : TypedUniform) (k : Nat) (word : UniformWord) : SendM Unit := fun s =>
  match s.data info.name with
  | none => .error .undefined s
  | some data =>
    if k < data.length then .ok () (s.withData info.name (data.set k word))
    else .error .undefined s

def load (info : TypedUniform) (k : Nat) : SendM UniformWord := fun s =>
  match s.data info.name with
  | none => .error .undefined s
  | some data =>
    match data[k]? with
    | none => .error .undefined s
    | some word => .ok word s

def storeAll (info : TypedUniform) : Stores → SendM Unit
  | [] => pure ()
  | p :: rest => do
    store info p.1 p.2
    storeAll info rest

/-- The loop over the elements. -/
def sendElements (info : TypedUniform) (element : Nat → Except String Stores) :
    List Nat → SendM Unit
  | [] => pure ()
  | i :: rest =>
    match element i with
    | .error message => throw (.raised message)
    | .ok stores => do
      storeAll info stores
      sendElements info element rest

section Host

variable {Number : Type} (host : Host Number) (info : TypedUniform)

/-- `flushBatchedDraws`, within `guard` -/
def flush : SendM Unit :=
  match host.flushBatchedDraws with
  | .error message => throw (.raised message)
  | .ok _ => pure ()

def updateUniform (count : Nat) : SendM Unit := do
  let s ← get
  if s.isCurrent = false then
    set { s with pendingUniformUpdates := s.pendingUniformUpdates ++ [(info.name, count)] }
  else
    flush host
    let words ← (List.range (count * info.elementSize)).mapM (load info)
    modify fun s => { s with
      glUniforms := fun name =>
        if name = info.name then words ++ (s.glUniforms name).drop words.length
        else s.glUniforms name }

/-- `gammaToLinear`, of what is stored at these places -/
def linearize : List Nat → SendM Unit
  | [] => pure ()
  | k :: rest => do
    let word ← load info k
    store info k (host.gammaToLinear word)
    linearize rest

/-- The components of colours that are not linear. -/
def gammaComponents (n : Nat) : List Nat :=
  (List.range n).flatMap fun i =>
    (List.range (min info.rows 3)).map fun j => i * info.rows + j

def sendNumbers (elements : Elements) (linear : Bool) : SendM Unit := do
  sendElements info elements.element (List.range elements.n)
  if linear = true then
    linearize host info (gammaComponents info elements.n)
  updateUniform host info elements.n

def sendFloats (args : List (Value Number)) (colors : Bool) : SendM Unit :=
  sendNumbers host info (numberElements host info args host.toFloat id)
    (colors && host.gammaCorrect)

def sendInts (args : List (Value Number)) : SendM Unit :=
  if info.baseType = .uint then
    sendNumbers host info (numberElements host info args host.toUint host.floatToUint) false
  else sendNumbers host info (numberElements host info args host.toInt host.floatToInt) false

def sendBooleans (args : List (Value Number)) : SendM Unit :=
  sendNumbers host info (booleanElements info args) false

def sendMatrices (args : List (Value Number)) : SendM Unit :=
  sendNumbers host info (matrixElements host info args) false

/-- `checkTexture`, of each of the values -/
def checkTextures : List (Value Number) → SendM (List Nat)
  | [] => pure []
  | .texture t :: rest => do
    let textures ← checkTextures rest
    return t :: textures
  | _ :: _ => throw (.raised "Expected a Texture")

/-- The loop of `sendTextures`, from the element `i` on. -/
def applyTextures (i : Nat) : List Nat → SendM Unit
  | [] => pure ()
  | t :: rest =>
    match host.validateTexture info t with
    | .error message => throw (.raised message)
    | .ok _ => do
      modify fun s => { s with
        activeTextures := fun k => if k = info.resourceIndex + i then some t else s.activeTextures k }
      let unit ← load info i
      modify fun s => { s with
        textureUnits := fun u => if u = unit then some t else s.textureUnits u }
      applyTextures (i + 1) rest

/-- `sendTextures`, of `lh_Shader.cpp` and of the shader -/
def sendTextures (args : List (Value Number)) : SendM Unit := do
  let textures ← checkTextures (args.take (sendCount args.length info))
  let s ← get
  if s.isCurrent = true then
    flush host
  applyTextures host info 0 textures

def sendCannotFill (name : String) : SendM Unit :=
  throw (.raised ("Shader uniform '" ++ name ++ "' has a type send cannot fill"))

/-- The `switch` of `sendTo` -/
def sendByType (name : String) (args : List (Value Number)) (colors : Bool) : SendM Unit :=
  match info.baseType with
  | .float => sendFloats host info args colors
  | .matrix => sendMatrices host info args
  | .int => sendInts host info args
  | .uint => sendInts host info args
  | .bool => sendBooleans host info args
  | .sampler => sendTextures host info args
  | .storageTexture => sendTextures host info args
  | .texelBuffer => sendCannotFill name
  | .storageBuffer => sendCannotFill name
  | .unknown => sendCannotFill name

def sendTo (name : String) (args : List (Value Number)) (colors : Bool) : SendM Unit := do
  let s ← get
  match s.getUniformInfo name with
  | none =>
    throw (.raised ("Shader uniform '" ++ name ++
      "' does not exist.\nA common error is to define but not use the variable."))
  | some info =>
    if args = [] then
      throw (.raised ("Shader uniform '" ++ name ++ "' needs a value"))
    else
      sendByType host info name args colors

end Host

end Shader

end Lhatove.Graphics.ShaderSend
