import Lhatove.Graphics.RenderTargets
import Lhatove.Lib.Transition

/-!
# The stack of display states

The setters of `love::graphics::Graphics`, `push` and `pop`, and the transforms.

- The stacks are lists with the last element first; `states` is its last element
  (`Display.state`) and the others (`saved`).
- What is on top of an empty stack is not defined.
-/

namespace Lhatove.Graphics

variable {F M : Type}

/-! ## Setters -/

def noWindowStencil : String :=
  "The window must have stenciling enabled to draw to the main screen's stencil buffer."

def noCanvasStencil : String :=
  "Drawing to the stencil buffer with a Canvas active requires either stencil=true or a custom stencil-type Canvas to be used, in setCanvas."

def noWindowDepth : String :=
  "The window must have depth enabled to draw to the main screen's depth buffer."

def noCanvasDepth : String :=
  "Drawing to the depth buffer with a Canvas active requires either depth=true or a custom depth-type Canvas to be used, in setCanvas."

def noAlphaMultiply (mode : BlendMode) : String :=
  s!"The '{mode.name}' blend mode must be used with premultiplied alpha."

namespace Device

variable (device : Device F M)

/-- The format of the depth and stencil texture of a set passes a test. -/
def depthStencilIs (rts : RenderTargets) (test : PixelFormat → Bool) : Bool :=
  match rts.depthStencil.texture with
  | none => false
  | some texture => test (device.texture texture).format

/-- `validateStencilState`, with the targets that are set. -/
def validateStencilState (rts : RenderTargets) (s : StencilState) : Option String :=
  if s.action = .keep then none
  else if !rts.active then if device.stencil then none else some noWindowStencil
  else if rts.temporaryRTFlags &&& temporaryStencil = 0 ∧
      !device.depthStencilIs rts isPixelFormatStencil then some noCanvasStencil
  else none

/-- `validateDepthState`, with the targets that are set. -/
def validateDepthState (rts : RenderTargets) (depthwrite : Bool) : Option String :=
  if !depthwrite then none
  else if !rts.active then if device.depth then none else some noWindowDepth
  else if rts.temporaryRTFlags &&& temporaryDepth = 0 ∧
      !device.depthStencilIs rts isPixelFormatDepth then some noCanvasDepth
  else none

end Device

/-- A rectangle cut to another; none is as large as an `int` can be. -/
def Arithmetic.intersect (ops : Arithmetic F M) (currect : Option (FRect F)) (rect : FRect F) :
    FRect F :=
  let cur := currect.getD ⟨ops.zero, ops.zero, ops.intMax, ops.intMax⟩
  let x1 := ops.max cur.x rect.x
  let y1 := ops.max cur.y rect.y
  let x2 := ops.min (ops.add cur.x cur.w) (ops.add rect.x rect.w)
  let y2 := ops.min (ops.add cur.y cur.h) (ops.add rect.y rect.h)
  ⟨x1, y1, ops.max ops.zero (ops.sub x2 x1), ops.max ops.zero (ops.sub y2 y1)⟩

namespace Display

/-- A setter that assigns. -/
def assign (f : DisplayState F M → DisplayState F M) : Setting F M Unit := fun display =>
  .ok () { display with state := f display.state }

/-- A setter that is called if the state is to change. -/
def onlyIf (changes : DisplayState F M → Bool) (setter : Setting F M Unit) : Setting F M Unit :=
  fun display => if changes display.state then setter display else .ok () display

variable (device : Device F M)

def clamp01 (x : F) : F := device.ops.min (device.ops.max x device.ops.zero) device.ops.one

def setColor (c : Color F) : Setting F M Unit :=
  assign fun s => { s with color :=
    ⟨clamp01 device c.r, clamp01 device c.g, clamp01 device c.b, clamp01 device c.a⟩ }

def setBackgroundColor (c : Color F) : Setting F M Unit :=
  assign fun s => { s with backgroundColor := c }

def setBlendState (blend : BlendState) : Setting F M Unit :=
  assign fun s => { s with blend }

def setBlendMode (mode : BlendMode) (alphamode : BlendAlpha) : Setting F M Unit := fun display =>
  if alphamode = .multiply ∧ !isAlphaMultiplyBlendSupported mode then
    .error (.exception (noAlphaMultiply mode)) display
  else setBlendState (computeBlendState mode alphamode) display

def setLineWidth (width : F) : Setting F M Unit :=
  assign fun s => { s with lineWidth := width }

def setLineStyle (style : LineStyle) : Setting F M Unit :=
  assign fun s => { s with lineStyle := style }

def setLineJoin (join : LineJoin) : Setting F M Unit :=
  assign fun s => { s with lineJoin := join }

def setPointSize (size : F) : Setting F M Unit :=
  assign fun s => { s with pointSize := size }

def setScissor (rect : FRect F) : Setting F M Unit :=
  assign fun s => { s with scissor := true, scissorRect := rect }

def setScissorNone : Setting F M Unit :=
  assign fun s => { s with scissor := false }

def intersectScissor (rect : FRect F) : Setting F M Unit := fun display =>
  let s := display.state
  let currect := if s.scissor then some s.scissorRect else none
  setScissor (device.ops.intersect currect rect) display

def setMeshCullMode (cull : CullMode) : Setting F M Unit :=
  assign fun s => { s with meshCullMode := cull }

def setFrontFaceWinding (winding : Winding) : Setting F M Unit :=
  assign fun s => { s with winding }

def setFont (font : Option Nat) : Setting F M Unit :=
  assign fun s => { s with font }

def setShader (shader : Option Nat) : Setting F M Unit :=
  assign fun s => { s with shader }

def setColorMask (mask : ColorChannelMask) : Setting F M Unit :=
  assign fun s => { s with colorMask := mask }

/-- Not supported in OpenGL ES. -/
def setWireframe (enable : Bool) : Setting F M Unit := fun display =>
  if device.es then .ok () display
  else assign (fun s => { s with wireframe := enable }) display

def setDefaultSamplerState (s : SamplerState F) : Setting F M Unit :=
  assign fun state => { state with defaultSamplerState := s }

def setStencilState (s : StencilState) : Setting F M Unit := fun display =>
  match device.validateStencilState display.state.renderTargets s with
  | some message => .error (.exception message) display
  | none => assign (fun state => { state with stencil := s }) display

def setStencilMode (mode : StencilMode) (value : Int) : Setting F M Unit := do
  setStencilState device (computeStencilState mode value)
  if mode = .draw then setColorMask ⟨false, false, false, false⟩
  else setColorMask ⟨true, true, true, true⟩

/-- `setStencilMode()` -/
def setStencilModeNone : Setting F M Unit := do
  setStencilState device (computeStencilState .off 0)
  setColorMask ⟨true, true, true, true⟩

def setDepthMode (compare : CompareMode) (write : Bool) : Setting F M Unit := fun display =>
  match device.validateDepthState display.state.renderTargets write with
  | some message => .error (.exception message) display
  | none => assign (fun s => { s with depthTest := compare, depthWrite := write }) display

def setProjection (m : M) : Setting F M Unit := fun display =>
  .ok () { display with
    state.useCustomProjection := true
    state.customProjection := m
    deviceProjection := m }

def updateDeviceProjection (projection : M) : Setting F M Unit := fun display =>
  .ok () { display with deviceProjection := projection }

/-! ## States that are restored -/

/-- The scissor of a state, or none. -/
def restoreScissor (s : DisplayState F M) : Setting F M Unit :=
  if s.scissor then setScissor s.scissorRect else setScissorNone

def restoreState (s : DisplayState F M) : Setting F M Unit := do
  setColor device s.color
  setBackgroundColor s.backgroundColor
  setBlendState s.blend
  setLineWidth s.lineWidth
  setLineStyle s.lineStyle
  setLineJoin s.lineJoin
  setPointSize s.pointSize
  restoreScissor s
  setMeshCullMode s.meshCullMode
  setFrontFaceWinding s.winding
  setFont s.font
  setShader s.shader
  setRenderTargetsRef device s.renderTargets
  setStencilState device s.stencil
  setDepthMode device s.depthTest s.depthWrite
  setColorMask s.colorMask
  setWireframe device s.wireframe
  setDefaultSamplerState s.defaultSamplerState
  if s.useCustomProjection then updateDeviceProjection s.customProjection
  else resetProjection device

/-- `reset`, but for the transform. -/
def reset : Setting F M Unit := restoreState device (DisplayState.new device.ops)

variable [BEq F]

/-- What `restoreStateChecked` restores before the targets; no setter of it throws. -/
def restoreLook (s : DisplayState F M) : Setting F M Unit := do
  onlyIf (fun cur => s.color != cur.color) (setColor device s.color)
  setBackgroundColor s.backgroundColor
  onlyIf (fun cur => s.blend ≠ cur.blend) (setBlendState s.blend)
  setLineWidth s.lineWidth
  setLineStyle s.lineStyle
  setLineJoin s.lineJoin
  onlyIf (fun cur => s.pointSize != cur.pointSize) (setPointSize s.pointSize)
  onlyIf (fun cur => s.scissor != cur.scissor || (s.scissor && !(s.scissorRect == cur.scissorRect)))
    (restoreScissor s)
  setMeshCullMode s.meshCullMode
  onlyIf (fun cur => s.winding ≠ cur.winding) (setFrontFaceWinding s.winding)
  setFont s.font
  setShader s.shader

/-- The state that is compared with is the one that the setters change. -/
def restoreStateChecked (s : DisplayState F M) : Setting F M Unit := do
  restoreLook device s
  onlyIf (fun cur => s.renderTargets ≠ cur.renderTargets)
    (setRenderTargetsRef device s.renderTargets)
  onlyIf (fun cur => s.stencil ≠ cur.stencil) (setStencilState device s.stencil)
  onlyIf (fun cur => s.depthTest ≠ cur.depthTest ∨ s.depthWrite ≠ cur.depthWrite)
    (setDepthMode device s.depthTest s.depthWrite)
  onlyIf (fun cur => s.colorMask ≠ cur.colorMask) (setColorMask s.colorMask)
  onlyIf (fun cur => s.wireframe ≠ cur.wireframe) (setWireframe device s.wireframe)
  setDefaultSamplerState s.defaultSamplerState
  if s.useCustomProjection then setProjection s.customProjection
  else onlyIf (fun cur => cur.useCustomProjection) (resetProjection device)

end Display

/-! ## Stacks -/

inductive StackType
  | all
  | transform
  deriving DecidableEq

/-- `MAX_USER_STACK_DEPTH` -/
def maxUserStackDepth : Nat := 128

def maximumStackDepth : DisplayFault :=
  .exception "Maximum stack depth reached (more pushes than pops?)"

def minimumStackDepth : DisplayFault :=
  .exception "Minimum stack depth reached (more pops than pushes?)"

structure StateStack (F M : Type) where
  display : Display F M
  saved : List (DisplayState F M)
  transformStack : List M
  pixelScaleStack : List F
  stackTypeStack : List StackType

/-- What a call does; the stacks are what it left when it throws. -/
abbrev Operation (F M : Type) := EStateM DisplayFault (StateStack F M)

namespace StateStack

/-- With a window and before any other call. -/
def new (device : Device F M) : StateStack F M where
  display :=
    { state := DisplayState.new device.ops
      deviceProjection := device.ops.ortho device.width device.height
      bound := {} }
  saved := []
  transformStack := [device.ops.identity]
  pixelScaleStack := [device.ops.one]
  stackTypeStack := []

/-- A setter of the display state. -/
def onDisplay (setter : Setting F M Unit) : Operation F M Unit := fun g =>
  match setter g.display with
  | .ok _ display => .ok () { g with display }
  | .error e display => .error e { g with display }

/-- `transformStack.back()` -/
def onTransform (f : M → M) : Operation F M Unit := fun g =>
  match g.transformStack with
  | [] => .error .undefined g
  | current :: transforms => .ok () { g with transformStack := f current :: transforms }

/-- `pixelScaleStack.back()` -/
def onPixelScale (f : F → F) : Operation F M Unit := fun g =>
  match g.pixelScaleStack with
  | [] => .error .undefined g
  | current :: scales => .ok () { g with pixelScaleStack := f current :: scales }

/-- The pixel scale of the transform that is on top. -/
def measureScale (device : Device F M) : Operation F M Unit := fun g =>
  match g.transformStack with
  | [] => .error .undefined g
  | current :: _ => onPixelScale (fun _ => device.ops.approximateScale current) g

section Transforms

variable (device : Device F M)

def rotate (r : F) : Operation F M Unit :=
  onTransform fun current => device.ops.rotate current r

def scale (x y : F) : Operation F M Unit := do
  onTransform fun current => device.ops.scale current x y
  onPixelScale fun current => device.ops.scaled current x y

def translate (x y : F) : Operation F M Unit :=
  onTransform fun current => device.ops.translate current x y

def shear (kx ky : F) : Operation F M Unit :=
  onTransform fun current => device.ops.shear current kx ky

def origin : Operation F M Unit := do
  onTransform fun _ => device.ops.identity
  onPixelScale fun _ => device.ops.one

def applyTransform (m : M) : Operation F M Unit := do
  onTransform fun current => device.ops.mul current m
  measureScale device

def replaceTransform (m : M) : Operation F M Unit := do
  onTransform fun _ => m
  measureScale device

end Transforms

def push (type : StackType) : Operation F M Unit := fun g =>
  if g.stackTypeStack.length = maxUserStackDepth then .error maximumStackDepth g
  else
    match g.transformStack, g.pixelScaleStack with
    | transform :: _, pixelScale :: _ =>
      .ok () { g with
        transformStack := transform :: g.transformStack
        pixelScaleStack := pixelScale :: g.pixelScaleStack
        saved := if type = .all then g.display.state :: g.saved else g.saved
        stackTypeStack := type :: g.stackTypeStack }
    | _, _ => .error .undefined g

variable [BEq F]

/-- The transform and the pixel scale are gone before the state is restored, and
the type of the push after it. -/
def pop (device : Device F M) : Operation F M Unit := fun g =>
  match g.stackTypeStack with
  | [] => .error minimumStackDepth g
  | type :: types =>
    match g.transformStack, g.pixelScaleStack with
    | _ :: transforms, _ :: scales =>
      let popped := { g with transformStack := transforms, pixelScaleStack := scales }
      match type with
      | .transform => .ok () { popped with stackTypeStack := types }
      | .all =>
        match g.saved with
        | [] => .error .undefined popped
        | newstate :: saved =>
          match Display.restoreStateChecked device newstate g.display with
          | .error e display => .error e { popped with display }
          | .ok _ display =>
            .ok () { popped with
              display := { display with state := newstate }
              saved
              stackTypeStack := types }
    | _, _ => .error .undefined g

end StateStack

/-! ## Calls -/

/-- A call of a setter. -/
inductive SettingCall (F M : Type)
  | setColor (c : Color F)
  | setBackgroundColor (c : Color F)
  | setBlendState (blend : BlendState)
  | setBlendMode (mode : BlendMode) (alphamode : BlendAlpha)
  | setLineWidth (width : F)
  | setLineStyle (style : LineStyle)
  | setLineJoin (join : LineJoin)
  | setPointSize (size : F)
  | setScissor (rect : FRect F)
  | setScissorNone
  | intersectScissor (rect : FRect F)
  | setStencilState (s : StencilState)
  | setStencilMode (mode : StencilMode) (value : Int)
  | setStencilModeNone
  | setDepthMode (compare : CompareMode) (write : Bool)
  | setMeshCullMode (cull : CullMode)
  | setFrontFaceWinding (winding : Winding)
  | setFont (font : Option Nat)
  | setShader (shader : Option Nat)
  | setRenderTarget (rt : RenderTarget) (temporaryRTFlags : BitVec 32)
  | setRenderTargets (rts : RenderTargets)
  | setRenderTargetNone
  | setColorMask (mask : ColorChannelMask)
  | setWireframe (enable : Bool)
  | setDefaultSamplerState (s : SamplerState F)
  | setProjection (m : M)
  | resetProjection

def SettingCall.run (device : Device F M) : SettingCall F M → Setting F M Unit
  | .setColor c => Display.setColor device c
  | .setBackgroundColor c => Display.setBackgroundColor c
  | .setBlendState blend => Display.setBlendState blend
  | .setBlendMode mode alphamode => Display.setBlendMode mode alphamode
  | .setLineWidth width => Display.setLineWidth width
  | .setLineStyle style => Display.setLineStyle style
  | .setLineJoin join => Display.setLineJoin join
  | .setPointSize size => Display.setPointSize size
  | .setScissor rect => Display.setScissor rect
  | .setScissorNone => Display.setScissorNone
  | .intersectScissor rect => Display.intersectScissor device rect
  | .setStencilState s => Display.setStencilState device s
  | .setStencilMode mode value => Display.setStencilMode device mode value
  | .setStencilModeNone => Display.setStencilModeNone device
  | .setDepthMode compare write => Display.setDepthMode device compare write
  | .setMeshCullMode cull => Display.setMeshCullMode cull
  | .setFrontFaceWinding winding => Display.setFrontFaceWinding winding
  | .setFont font => Display.setFont font
  | .setShader shader => Display.setShader shader
  | .setRenderTarget rt flags => Display.setRenderTarget device rt flags
  | .setRenderTargets rts => Display.setRenderTargets device rts
  | .setRenderTargetNone => Display.setRenderTargetNone device
  | .setColorMask mask => Display.setColorMask mask
  | .setWireframe enable => Display.setWireframe device enable
  | .setDefaultSamplerState s => Display.setDefaultSamplerState s
  | .setProjection m => Display.setProjection m
  | .resetProjection => Display.resetProjection device

/-- A call that changes the transform. -/
inductive TransformCall (F M : Type)
  | rotate (r : F)
  | scale (x y : F)
  | translate (x y : F)
  | shear (kx ky : F)
  | origin
  | applyTransform (m : M)
  | replaceTransform (m : M)

def TransformCall.run (device : Device F M) : TransformCall F M → Operation F M Unit
  | .rotate r => StateStack.rotate device r
  | .scale x y => StateStack.scale device x y
  | .translate x y => StateStack.translate device x y
  | .shear kx ky => StateStack.shear device kx ky
  | .origin => StateStack.origin device
  | .applyTransform m => StateStack.applyTransform device m
  | .replaceTransform m => StateStack.replaceTransform device m

inductive GraphicsCall (F M : Type)
  | push (type : StackType)
  | pop
  | setting (call : SettingCall F M)
  | transform (call : TransformCall F M)
  | reset

def GraphicsCall.run [BEq F] (device : Device F M) : GraphicsCall F M → Operation F M Unit
  | .push type => StateStack.push type
  | .pop => StateStack.pop device
  | .setting call => StateStack.onDisplay (call.run device)
  | .transform call => call.run device
  | .reset => do
    StateStack.onDisplay (Display.reset device)
    StateStack.origin device

/-- The stacks after a call, also after an exception. -/
def stacksAfter {σ : Type} : EStateM.Result DisplayFault σ Unit → Option σ
  | .ok _ s => some s
  | .error (.exception _) s => some s
  | .error .undefined _ => none

/-- The stacks that a program can reach. -/
def stateStacks [BEq F] (device : Device F M) : System (StateStack F M) (GraphicsCall F M) :=
  .ofStep (fun g => g = .new device) fun g call => stacksAfter (call.run device g)

end Lhatove.Graphics
