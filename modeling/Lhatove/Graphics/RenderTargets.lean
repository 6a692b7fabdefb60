import Lhatove.Graphics.DisplayState

/-!
# Render targets

`setRenderTargets`, `setRenderTarget` and `getRenderTargets` of
`love::graphics::Graphics`.

- Textures are numbers; what they are does not change (`Device.texture`).
- What the backend throws for textures that it is told to draw to is
  `Device.bind`. The window's buffers are always accepted.
- A shift by a mipmap level that is no level of any texture is not defined.
-/

namespace Lhatove.Graphics

inductive TextureType
  | texture2D
  | volume
  | array
  | cube
  deriving DecidableEq

/-- What render targets are checked for. -/
structure TextureInfo where
  texType : TextureType
  format : PixelFormat
  isRenderTarget : Bool
  mipmapCount : Int
  layers : Int
  depth : Int
  width : Int
  height : Int
  pixelWidth : Int
  pixelHeight : Int
  requestedMSAA : Int

def isPixelFormatDepth : PixelFormat → Bool
  | .color _ => false
  | .stencil8 => false
  | _ => true

def isPixelFormatStencil : PixelFormat → Bool
  | .stencil8 => true
  | .depth24UnormStencil8 => true
  | .depth32FloatStencil8 => true
  | _ => false

def isPixelFormatDepthStencil (format : PixelFormat) : Bool :=
  isPixelFormatDepth format || isPixelFormatStencil format

/-- The size of a mipmap level. -/
def mipSize (size mip : Int) : Int := max (size >>> mip.toNat) 1

theorem mipSize_one (mip : Int) : mipSize 1 mip = 1 := by
  unfold mipSize
  have hle : (1 : Int) >>> mip.toNat ≤ 1 := by
    rw [Int.shiftRight_eq_div_pow]
    exact Int.ediv_le_self _ (by norm_num)
  omega

theorem mipSize_mipSize (size : Int) {start mip : Int} (hstart : 0 ≤ start) (hmip : 0 ≤ mip) :
    mipSize (mipSize size start) mip = mipSize size (start + mip) := by
  have hadd : (start + mip).toNat = start.toNat + mip.toNat := by omega
  rcases le_or_gt 1 (size >>> start.toNat) with hpos | hpos
  · have hmax : mipSize size start = size >>> start.toNat := by
      unfold mipSize
      omega
    rw [hmax]
    unfold mipSize
    rw [hadd, Int.shiftRight_add]
  · -- nothing is left of the size
    have hmax : mipSize size start = 1 := by
      unfold mipSize
      omega
    have hle : size >>> (start + mip).toNat ≤ 0 := by
      rw [hadd, Int.shiftRight_add, Int.shiftRight_eq_div_pow (size >>> start.toNat)]
      exact Int.ediv_nonpos_of_nonpos_of_neg (by omega) (by positivity)
    rw [hmax, mipSize_one]
    unfold mipSize
    omega

namespace TextureInfo

def getWidth (c : TextureInfo) (mip : Int) : Int := mipSize c.width mip

def getHeight (c : TextureInfo) (mip : Int) : Int := mipSize c.height mip

def getPixelWidth (c : TextureInfo) (mip : Int) : Int := mipSize c.pixelWidth mip

def getPixelHeight (c : TextureInfo) (mip : Int) : Int := mipSize c.pixelHeight mip

def getSliceCount (c : TextureInfo) (mip : Int) : Int :=
  match c.texType with
  | .texture2D => 1
  | .cube => 6
  | .array => c.layers
  | .volume => mipSize c.depth mip

def isValidSlice (c : TextureInfo) (slice mip : Int) : Bool :=
  0 ≤ slice ∧ slice < c.getSliceCount mip

end TextureInfo

/-- What does not change from call to call: textures, the window's buffers and what
the system supports. -/
structure Device (F M : Type) where
  ops : Arithmetic F M
  texture : Nat → TextureInfo
  /-- `LIMIT_RENDER_TARGETS` -/
  limitRenderTargets : Int
  width : Int
  height : Int
  stencil : Bool
  depth : Bool
  /-- `isPixelFormatSupported` for render targets -/
  supported : PixelFormat → Bool
  bind : BoundTargets → Option String
  /-- `GLAD_ES_VERSION_2_0` -/
  es : Bool

/-! ## Exceptions -/

def tooManyTargets (rtcount : Nat) : DisplayFault :=
  .exception s!"This system can't simultaneously render to {rtcount} textures."

def noRenderTarget : DisplayFault :=
  .exception "Texture must be created as a canvas to be used in setCanvas."

def invalidMipmap (mip : Int) : DisplayFault :=
  .exception s!"Invalid mipmap level {mip + 1}."

def invalidSlice (slice : Int) : DisplayFault :=
  .exception s!"Invalid slice index: {slice + 1}."

def differentSizes : DisplayFault :=
  .exception "All textures must have the same pixel dimensions."

def differentMSAA : DisplayFault :=
  .exception "All textures must have the same MSAA value."

def depthStencilColor : DisplayFault :=
  .exception "Depth/stencil format textures must be used with the 'depthstencil' field of the table passed into setCanvas."

def noDepthStencilFormat : DisplayFault :=
  .exception "Only depth/stencil format textures can be used with the 'depthstencil' field of the table passed into setCanvas."

def differentDepthSizes : DisplayFault :=
  .exception "All Textures must have the same pixel dimensions."

def differentDepthMSAA : DisplayFault :=
  .exception "All Textures must have the same MSAA value."

def noDepthStencilBuffers : DisplayFault :=
  .exception "Combined depth and stencil buffers are not supported on this system."

def noDepthBuffers : DisplayFault :=
  .exception "Depth buffers are not supported on this system."

def noStencilBuffers : DisplayFault :=
  .exception "Stencil buffers are not supported on this system."

/-! ## Sets of targets -/

/-- `TEMPORARY_RT_DEPTH` -/
def temporaryDepth : BitVec 32 := 1 <<< 0

/-- `TEMPORARY_RT_STENCIL` -/
def temporaryStencil : BitVec 32 := 1 <<< 1

/-- A set without targets is drawn to the window. -/
def RenderTargets.active (rts : RenderTargets) : Bool :=
  rts.colors ≠ [] ∨ rts.depthStencil.texture ≠ none

/-- A mipmap level that a size can be shifted by. -/
def Shift (mip : Int) : Prop := 0 ≤ mip ∧ mip < 32

instance (mip : Int) : Decidable (Shift mip) := inferInstanceAs (Decidable (_ ∧ _))

namespace Device

variable {F M : Type} (device : Device F M)

/-- The checks of a color target, against the sizes and the MSAA of the first. -/
def checkColor (pixelw pixelh reqmsaa : Int) (rt : RenderTarget) : Except DisplayFault Unit :=
  match rt.texture with
  | none => .error .undefined
  | some texture =>
    let c := device.texture texture
    if !c.isRenderTarget then .error noRenderTarget
    else if rt.mipmap < 0 ∨ c.mipmapCount ≤ rt.mipmap then .error (invalidMipmap rt.mipmap)
    else if !c.isValidSlice rt.slice rt.mipmap then .error (invalidSlice rt.slice)
    else if c.getPixelWidth rt.mipmap ≠ pixelw ∨ c.getPixelHeight rt.mipmap ≠ pixelh then
      .error differentSizes
    else if c.requestedMSAA ≠ reqmsaa then .error differentMSAA
    else if isPixelFormatDepthStencil c.format then .error depthStencilColor
    else .ok ()

/-- The checks of the color targets, up to the first that fails. -/
def checkColors (pixelw pixelh reqmsaa : Int) : List RenderTarget → Except DisplayFault Unit
  | [] => .ok ()
  | rt :: rts =>
    match device.checkColor pixelw pixelh reqmsaa rt with
    | .error e => .error e
    | .ok _ => checkColors pixelw pixelh reqmsaa rts

/-- The checks of the depth and stencil target. -/
def checkDepthStencil (pixelw pixelh reqmsaa : Int) (rt : RenderTarget) :
    Except DisplayFault Unit :=
  match rt.texture with
  | none => .ok ()
  | some texture =>
    let c := device.texture texture
    if !c.isRenderTarget then .error noRenderTarget
    else if !isPixelFormatDepthStencil c.format then .error noDepthStencilFormat
    else if ¬Shift rt.mipmap then .error .undefined
    else if c.getPixelWidth rt.mipmap ≠ pixelw ∨ c.getPixelHeight rt.mipmap ≠ pixelh then
      .error differentDepthSizes
    else if c.requestedMSAA ≠ reqmsaa then .error differentDepthMSAA
    else if rt.mipmap < 0 ∨ c.mipmapCount ≤ rt.mipmap then .error (invalidMipmap rt.mipmap)
    else if !c.isValidSlice rt.slice rt.mipmap then .error (invalidSlice rt.slice)
    else .ok ()

/-- The first format that is supported. -/
def firstSupported (formats : List PixelFormat) (e : DisplayFault) :
    Except DisplayFault PixelFormat :=
  match formats.find? device.supported with
  | some format => .ok format
  | none => .error e

/-- The format of a temporary depth and stencil buffer, `dsformat`. -/
def temporaryFormat (flags : BitVec 32) : Except DisplayFault PixelFormat :=
  let wantsdepth := flags &&& temporaryDepth ≠ 0
  let wantsstencil := flags &&& temporaryStencil ≠ 0
  if wantsdepth ∧ wantsstencil then
    device.firstSupported [.depth24UnormStencil8, .depth32FloatStencil8] noDepthStencilBuffers
  else if wantsdepth then
    device.firstSupported [.depth24Unorm, .depth32Float, .depth16Unorm, .depth24UnormStencil8,
      .depth32FloatStencil8] noDepthBuffers
  else if wantsstencil then
    device.firstSupported [.stencil8, .depth24UnormStencil8, .depth32FloatStencil8]
      noStencilBuffers
  else .ok .stencil8

/-- `setRenderTargetsInternal` -/
def bound (targets : BoundTargets) : Except DisplayFault BoundTargets :=
  match device.bind targets with
  | some message => .error (.exception message)
  | none => .ok targets

/-- What is drawn to for a set whose first target is a texture, if the set passes
all checks. -/
def realTargets (rts : RenderTargets) (firsttex : Nat) : Except DisplayFault BoundTargets :=
  let firsttarget := rts.firstTarget
  let c := device.texture firsttex
  if device.limitRenderTargets < rts.colors.length then .error (tooManyTargets rts.colors.length)
  else if ¬Shift firsttarget.mipmap then .error .undefined
  else
    let pixelw := c.getPixelWidth firsttarget.mipmap
    let pixelh := c.getPixelHeight firsttarget.mipmap
    let reqmsaa := c.requestedMSAA
    match device.checkColors pixelw pixelh reqmsaa rts.colors with
    | .error e => .error e
    | .ok _ =>
      match device.checkDepthStencil pixelw pixelh reqmsaa rts.depthStencil with
      | .error e => .error e
      | .ok _ =>
        if rts.depthStencil.texture = none ∧ rts.temporaryRTFlags ≠ 0 then
          match device.temporaryFormat rts.temporaryRTFlags with
          | .error e => .error e
          | .ok dsformat =>
            device.bound ⟨{ rts with depthStencil.slice := 0 },
              some (dsformat, pixelw, pixelh, reqmsaa)⟩
        else device.bound ⟨rts, none⟩

/-- The set in the form that is kept. The mipmap level of the depth and stencil
target is not passed on. -/
def strongRefs (rts : RenderTargets) : RenderTargets where
  colors := rts.colors.map fun c => ⟨c.texture, c.slice, c.mipmap⟩
  depthStencil := { texture := rts.depthStencil.texture, slice := rts.depthStencil.slice }
  temporaryRTFlags := rts.temporaryRTFlags

/-- The projection without a custom one: the size of the first target, or else of
the window. -/
def orthoProjection (rts : RenderTargets) : M :=
  match rts.firstTarget.texture with
  | some texture =>
    device.ops.ortho ((device.texture texture).getWidth rts.firstTarget.mipmap)
      ((device.texture texture).getHeight rts.firstTarget.mipmap)
  | none => device.ops.ortho device.width device.height

end Device

/-! ## Setting and getting -/

namespace Display

variable {F M : Type} (device : Device F M)

def resetProjection : Setting F M Unit := fun display =>
  .ok () { display with
    state.useCustomProjection := false
    deviceProjection := device.orthoProjection display.state.renderTargets }

/-- `setRenderTarget()` -/
def setRenderTargetNone : Setting F M Unit := fun display =>
  if !display.state.renderTargets.active then .ok () display
  else resetProjection device { display with state.renderTargets := {}, bound := {} }

/-- `setRenderTargets(const RenderTargets &)` -/
def setRenderTargets (rts : RenderTargets) : Setting F M Unit := fun display =>
  match rts.firstTarget.texture with
  | none => setRenderTargetNone device display
  | some firsttex =>
    if rts = display.state.renderTargets then .ok () display
    else
      match device.realTargets rts firsttex with
      | .error e => .error e display
      | .ok bound =>
        resetProjection device { display with
          state.renderTargets := Device.strongRefs rts
          bound := bound }

/-- `setRenderTargets(const RenderTargetsStrongRef &)` -/
def setRenderTargetsRef (refs : RenderTargets) : Setting F M Unit :=
  setRenderTargets device
    { colors := refs.colors.map fun rt => ⟨rt.texture, rt.slice, rt.mipmap⟩
      depthStencil :=
        ⟨refs.depthStencil.texture, refs.depthStencil.slice, refs.depthStencil.mipmap⟩
      temporaryRTFlags := refs.temporaryRTFlags }

/-- `setRenderTarget(RenderTarget, uint32)` -/
def setRenderTarget (rt : RenderTarget) (temporaryRTFlags : BitVec 32) : Setting F M Unit :=
  if rt.texture = none then setRenderTargetNone device
  else setRenderTargets device { colors := [rt], temporaryRTFlags }

def getRenderTargets (display : Display F M) : RenderTargets :=
  let curRTs := display.state.renderTargets
  { colors := curRTs.colors.map fun rt => ⟨rt.texture, rt.slice, rt.mipmap⟩
    depthStencil :=
      ⟨curRTs.depthStencil.texture, curRTs.depthStencil.slice, curRTs.depthStencil.mipmap⟩
    temporaryRTFlags := curRTs.temporaryRTFlags }

end Display

end Lhatove.Graphics
