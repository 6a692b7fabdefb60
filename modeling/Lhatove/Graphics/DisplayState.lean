import Mathlib.Tactic

/-!
# The display state

What `love::graphics::Graphics` keeps for drawing (`DisplayState`), and what its
setters do with it, but for render targets.

- Numbers and matrices are of any types `F` and `M` with the operations that the
  setters use (`Arithmetic`): nothing depends on how they round.
- Objects are numbers that stand for their addresses.
- Drawing what is batched before a setter takes effect is left out: it leaves the
  display state as it finds it.
-/

namespace Lhatove.Graphics

/-! ## Parts of the state -/

inductive CompareMode
  | less
  | lequal
  | equal
  | gequal
  | greater
  | notEqual
  | always
  | never
  deriving DecidableEq

inductive StencilAction
  | keep
  | zero
  | replace
  | increment
  | decrement
  | incrementWrap
  | decrementWrap
  | invert
  deriving DecidableEq

structure StencilState where
  compare : CompareMode := .always
  action : StencilAction := .keep
  value : Int := 0
  readMask : BitVec 32 := 0xFFFFFFFF
  writeMask : BitVec 32 := 0xFFFFFFFF
  deriving DecidableEq

inductive StencilMode
  | off
  | draw
  | test
  | custom
  deriving DecidableEq

def stencilStates : StencilMode → StencilState
  | .off => {}
  | .draw => { compare := .always, action := .replace }
  | .test => { compare := .equal, action := .keep }
  | .custom => {}

def computeStencilState (mode : StencilMode) (value : Int) : StencilState :=
  { stencilStates mode with value }

structure ColorChannelMask where
  r : Bool := true
  g : Bool := true
  b : Bool := true
  a : Bool := true
  deriving DecidableEq

inductive BlendMode
  | alpha
  | add
  | subtract
  | multiply
  | lighten
  | darken
  | screen
  | replace
  | none
  | custom
  deriving DecidableEq

inductive BlendAlpha
  | multiply
  | premultiplied
  deriving DecidableEq

inductive BlendFactor
  | zero
  | one
  | srcColor
  | oneMinusSrcColor
  | srcAlpha
  | oneMinusSrcAlpha
  | dstColor
  | oneMinusDstColor
  | dstAlpha
  | oneMinusDstAlpha
  | srcAlphaSaturated
  deriving DecidableEq

inductive BlendOperation
  | add
  | subtract
  | reverseSubtract
  | min
  | max
  deriving DecidableEq

structure BlendState where
  operationRGB : BlendOperation := .add
  operationA : BlendOperation := .add
  srcFactorRGB : BlendFactor := .one
  srcFactorA : BlendFactor := .one
  dstFactorRGB : BlendFactor := .zero
  dstFactorA : BlendFactor := .zero
  enable : Bool := false
  deriving DecidableEq

def blendStates : BlendMode → BlendState
  | .alpha => ⟨.add, .add, .one, .one, .oneMinusSrcAlpha, .oneMinusSrcAlpha, true⟩
  | .add => ⟨.add, .add, .one, .zero, .one, .one, true⟩
  | .subtract => ⟨.reverseSubtract, .reverseSubtract, .one, .zero, .one, .one, true⟩
  | .multiply => ⟨.add, .add, .dstColor, .dstColor, .zero, .zero, true⟩
  | .lighten => ⟨.max, .max, .zero, .zero, .one, .one, true⟩
  | .darken => ⟨.min, .min, .zero, .zero, .one, .one, true⟩
  | .screen => ⟨.add, .add, .one, .one, .oneMinusSrcColor, .oneMinusSrcColor, true⟩
  | .replace => ⟨.add, .add, .one, .one, .zero, .zero, true⟩
  | .none => {}
  | .custom => {}

def computeBlendState (mode : BlendMode) (alphamode : BlendAlpha) : BlendState :=
  let s := blendStates mode
  if s.srcFactorRGB = .one ∧ alphamode = .multiply ∧ mode ≠ .none then
    { s with srcFactorRGB := .srcAlpha }
  else s

def isAlphaMultiplyBlendSupported : BlendMode → Bool
  | .lighten => false
  | .darken => false
  | .multiply => false
  | _ => true

/-- The names of `love::graphics::getConstant`. -/
def BlendMode.name : BlendMode → String
  | .alpha => "alpha"
  | .add => "add"
  | .subtract => "subtract"
  | .multiply => "multiply"
  | .lighten => "lighten"
  | .darken => "darken"
  | .screen => "screen"
  | .replace => "replace"
  | .none => "none"
  | .custom => "custom"

inductive LineStyle
  | rough
  | smooth
  deriving DecidableEq

inductive LineJoin
  | none
  | miter
  | bevel
  deriving DecidableEq

inductive CullMode
  | none
  | back
  | front
  deriving DecidableEq

inductive Winding
  | cw
  | ccw
  deriving DecidableEq

inductive WrapMode
  | clamp
  | clampZero
  | clampOne
  | repeat
  | mirroredRepeat
  deriving DecidableEq

inductive FilterMode
  | linear
  | nearest
  deriving DecidableEq

inductive MipmapFilterMode
  | none
  | linear
  | nearest
  deriving DecidableEq

structure SamplerState (F : Type) where
  minFilter : FilterMode := .linear
  magFilter : FilterMode := .linear
  mipmapFilter : MipmapFilterMode := .none
  wrapU : WrapMode := .clamp
  wrapV : WrapMode := .clamp
  wrapW : WrapMode := .clamp
  lodBias : F
  maxAnisotropy : BitVec 8 := 1
  minLod : BitVec 8 := 0
  maxLod : BitVec 8 := 255
  depthSampleMode : Option CompareMode := none

structure Color (F : Type) where
  r : F
  g : F
  b : F
  a : F
  deriving BEq

structure FRect (F : Type) where
  x : F
  y : F
  w : F
  h : F
  deriving BEq

/-- What the setters do with numbers and matrices. -/
structure Arithmetic (F M : Type) where
  zero : F
  one : F
  /-- `std::numeric_limits<int>::max()` -/
  intMax : F
  add : F → F → F
  sub : F → F → F
  min : F → F → F
  max : F → F → F
  identity : M
  rotate : M → F → M
  scale : M → F → F → M
  translate : M → F → F → M
  shear : M → F → F → M
  mul : M → M → M
  /-- Half of the sum that `getApproximateScale` gives. -/
  approximateScale : M → F
  /-- `p * (fabs(x) + fabs(y)) / 2` -/
  scaled : F → F → F → F
  /-- `Matrix4::ortho(0, w, h, 0, -10, 10)` -/
  ortho : Int → Int → M

/-! ## The state -/

/-- `RenderTarget`, and `RenderTargetStrongRef`. -/
structure RenderTarget where
  texture : Option Nat := none
  slice : Int := 0
  mipmap : Int := 0
  deriving DecidableEq

/-- `RenderTargets`, and `RenderTargetsStrongRef`. -/
structure RenderTargets where
  colors : List RenderTarget := []
  depthStencil : RenderTarget := {}
  temporaryRTFlags : BitVec 32 := 0
  deriving DecidableEq

/-- `getFirstTarget` -/
def RenderTargets.firstTarget (rts : RenderTargets) : RenderTarget :=
  rts.colors.head?.getD rts.depthStencil

structure DisplayState (F M : Type) where
  color : Color F
  backgroundColor : Color F
  blend : BlendState
  lineWidth : F
  lineStyle : LineStyle
  lineJoin : LineJoin
  pointSize : F
  scissor : Bool
  scissorRect : FRect F
  stencil : StencilState
  depthTest : CompareMode
  depthWrite : Bool
  meshCullMode : CullMode
  winding : Winding
  font : Option Nat
  shader : Option Nat
  renderTargets : RenderTargets
  colorMask : ColorChannelMask
  wireframe : Bool
  useCustomProjection : Bool
  customProjection : M
  defaultSamplerState : SamplerState F

/-- `DisplayState()` -/
def DisplayState.new {F M : Type} (ops : Arithmetic F M) : DisplayState F M where
  color := ⟨ops.one, ops.one, ops.one, ops.one⟩
  backgroundColor := ⟨ops.zero, ops.zero, ops.zero, ops.one⟩
  blend := computeBlendState .alpha .multiply
  lineWidth := ops.one
  lineStyle := .smooth
  lineJoin := .miter
  pointSize := ops.one
  scissor := false
  scissorRect := ⟨ops.zero, ops.zero, ops.zero, ops.zero⟩
  stencil := {}
  depthTest := .always
  depthWrite := false
  meshCullMode := .none
  winding := .ccw
  font := none
  shader := none
  renderTargets := {}
  colorMask := {}
  wireframe := false
  useCustomProjection := false
  customProjection := ops.identity
  defaultSamplerState := { lodBias := ops.zero, mipmapFilter := .linear }

/-- Pixel formats, with one for all that hold colors. -/
inductive PixelFormat
  | color (sRGB : Bool)
  | stencil8
  | depth16Unorm
  | depth24Unorm
  | depth32Float
  | depth24UnormStencil8
  | depth32FloatStencil8
  deriving DecidableEq

/-- What the backend was told to draw to: the targets of a set, and, if it has no
depth and stencil target but asks for a temporary one, what `getTemporaryTexture`
was asked for. -/
structure BoundTargets where
  targets : RenderTargets := {}
  temporary : Option (PixelFormat × Int × Int × Int) := none
  deriving DecidableEq

/-- `states.back()`, the projection that is in use, and what is drawn to. -/
structure Display (F M : Type) where
  state : DisplayState F M
  deviceProjection : M
  bound : BoundTargets

/-- Why a call has no result: an exception, or behaviour that is not defined. -/
inductive DisplayFault
  | exception (message : String)
  | undefined
  deriving DecidableEq

/-- What a setter does; the display is what it left when it throws. -/
abbrev Setting (F M : Type) := EStateM DisplayFault (Display F M)

end Lhatove.Graphics
