import Lhatove.Graphics.RenderTargets
import Lhatove.Lib.Tables

/-!
# Framebuffers of the opengl backend

What `love::graphics::opengl` keeps of framebuffers: the objects of OpenGL itself and the
shadow of their bindings (`OpenGL`), the objects of each texture, the framebuffers that are
cached by sets of targets, and the set that is recorded.

- Textures are addresses; an address is free again when its texture is destroyed.
- OpenGL and `new` choose any name that is not in use (`LoadAnswers`, `BindAnswers`), and
  OpenGL says whether a framebuffer is complete.
- The system's framebuffer is 0, as everywhere but on iOS.
-/

namespace Lhatove.Opengl

open Graphics

/-! ## OpenGL -/

/-- A point that an image is attached to. -/
inductive AttachmentPoint
  | color (index : Nat)
  | depth
  | stencil
  | depthStencil
  deriving DecidableEq

/-- `framebufferAttachments[0]` of a format, with the number of color targets before. -/
def framebufferAttachment : PixelFormat → Nat → AttachmentPoint
  | .color _, ncolortargets => .color ncolortargets
  | .stencil8, _ => .stencil
  | .depth16Unorm, _ | .depth24Unorm, _ | .depth32Float, _ => .depth
  | .depth24UnormStencil8, _ | .depth32FloatStencil8, _ => .depthStencil

/-- What is attached: a renderbuffer, or a level, layer and face of a texture. -/
inductive Image
  | renderbuffer (handle : Nat)
  | texture (texType : TextureType) (handle : Nat) (level layer face : Int)
  deriving DecidableEq

/-- The images of a framebuffer. -/
abbrev Attachments := AttachmentPoint → Option Image

/-- The framebuffers that are drawn to and read from. -/
structure Binding where
  draw : Nat := 0
  read : Nat := 0
  deriving DecidableEq

/-- The objects of OpenGL, its bindings, and the shadow of them. -/
structure OpenGL where
  framebuffers : Table Nat Attachments := ∅
  textures : Finset Nat := ∅
  renderbuffers : Finset Nat := ∅
  bound : Binding := {}
  boundFramebuffers : Binding := {}

inductive FramebufferTarget
  | draw
  | read
  | all
  deriving DecidableEq

def FramebufferTarget.set (framebuffer : Nat) (binding : Binding) : FramebufferTarget → Binding
  | .draw => { binding with draw := framebuffer }
  | .read => { binding with read := framebuffer }
  | .all => ⟨framebuffer, framebuffer⟩

namespace OpenGL

/-- `glGenFramebuffers` -/
def genFramebuffer (choice : Nat) (gl : OpenGL) : Nat × OpenGL :=
  let framebuffer := unused gl.framebuffers.names choice
  (framebuffer, { gl with framebuffers := gl.framebuffers.insert framebuffer fun _ => none })

/-- `OpenGL::bindFramebuffer` -/
def bindFramebuffer (target : FramebufferTarget) (framebuffer : Nat) (gl : OpenGL) : OpenGL :=
  let drawmodified := target ≠ .read ∧ gl.boundFramebuffers.draw ≠ framebuffer
  let readmodified := target ≠ .draw ∧ gl.boundFramebuffers.read ≠ framebuffer
  if drawmodified ∨ readmodified then
    { gl with
      bound := target.set framebuffer gl.bound
      boundFramebuffers := target.set framebuffer gl.boundFramebuffers }
  else gl

/-- A binding to a framebuffer that is deleted is reset. -/
def reset (framebuffer : Nat) (binding : Binding) : Binding where
  draw := if binding.draw = framebuffer then 0 else binding.draw
  read := if binding.read = framebuffer then 0 else binding.read

/-- `OpenGL::deleteFramebuffer` -/
def deleteFramebuffer (framebuffer : Nat) (gl : OpenGL) : OpenGL :=
  { gl with
    framebuffers := gl.framebuffers.erase framebuffer
    bound := reset framebuffer gl.bound
    boundFramebuffers := reset framebuffer gl.boundFramebuffers }

/-- Something is attached to the framebuffer that is drawn to; 0 has no such points. -/
def attach (point : AttachmentPoint) (image : Option Image) (gl : OpenGL) : OpenGL :=
  match gl.framebuffers.lookup gl.bound.draw with
  | none => gl
  | some attachments =>
    { gl with framebuffers :=
        gl.framebuffers.insert gl.bound.draw (Function.update attachments point image) }

/-- `glFramebufferRenderbuffer`; a name of nothing is an error. -/
def framebufferRenderbuffer (point : AttachmentPoint) (handle : Nat) (gl : OpenGL) : OpenGL :=
  if handle = 0 then gl.attach point none
  else if handle ∈ gl.renderbuffers then gl.attach point (some (.renderbuffer handle))
  else gl

/-- `OpenGL::framebufferTexture` -/
def framebufferTexture (point : AttachmentPoint) (texType : TextureType) (handle : Nat)
    (level layer face : Int) (gl : OpenGL) : OpenGL :=
  if handle = 0 then gl.attach point none
  else if handle ∈ gl.textures then
    gl.attach point (some (.texture texType handle level layer face))
  else gl

end OpenGL

/-! ## Textures -/

/-- What `love::graphics::opengl::Texture` keeps. `parents` are the textures that it is a view
of, from `parentView` to `rootView`. -/
structure Texture where
  info : TextureInfo
  readable : Bool
  parents : List Nat := []
  fbo : Nat := 0
  texture : Nat := 0
  renderbuffer : Nat := 0
  actualSamples : Int := 1

def Texture.getRenderTargetHandle (t : Texture) : Nat :=
  if t.info.isRenderTarget then (if t.renderbuffer ≠ 0 then t.renderbuffer else t.texture) else 0

structure TemporaryTexture where
  texture : Nat
  framesSinceUse : Int := -1
  deriving DecidableEq

/-- `MAX_TEMPORARY_RESOURCE_UNUSED_FRAMES` -/
def maxTemporaryResourceUnusedFrames : Int := 16

/-- What `love::graphics::opengl::Graphics` keeps. `renderTargets` are those of
`states.back()`. -/
structure Context where
  gl : OpenGL := {}
  textures : Table Nat Texture := ∅
  framebufferObjects : Table RenderTargets Nat := ∅
  renderTargets : RenderTargets := {}
  temporaryTextures : List TemporaryTexture := []
  internalBackbuffer : RenderTargets := {}
  internalBackbufferFBO : Nat := 0

/-- A program of the backend. -/
abbrev Action := EStateM DisplayFault Context

/-- Whether a set has a texture. -/
def hasTexture (texture : Nat) (rts : RenderTargets) : Bool :=
  rts.colors.any (fun rt => rt.texture = some texture) || rts.depthStencil.texture = some texture

/-- What OpenGL answers when a texture is loaded: names, what `glCheckFramebufferStatus` says
of the framebuffers if they are not complete, and what `glGetError` says. A renderbuffer has
at least the samples that were asked for. -/
structure LoadAnswers where
  texture : Nat := 0
  fbo : Nat := 0
  renderbuffer : Nat := 0
  temporary : Nat := 0
  fboStatus : Option String := none
  renderbufferStatus : Option String := none
  moreSamples : Nat := 0
  error : Option String := none

namespace Context

/-- `Graphics::cleanupRenderTexture` -/
def cleanupRenderTexture (texture : Nat) (s : Context) : Context :=
  let fbos := s.framebufferObjects.entries.filter fun entry => hasTexture texture entry.1
  { s with
    gl := fbos.foldl (fun gl entry => gl.deleteFramebuffer entry.2) s.gl
    framebufferObjects := s.framebufferObjects.without (hasTexture texture) }

/-- `Texture::unloadVolatile` -/
def unloadVolatile (texture : Nat) (s : Context) : Context :=
  match s.textures.lookup texture with
  | none => s
  | some t =>
    let s :=
      if t.info.isRenderTarget ∧ (t.fbo ≠ 0 ∨ t.renderbuffer ≠ 0 ∨ t.texture ≠ 0) then
        s.cleanupRenderTexture texture
      else s
    let gl := if t.fbo ≠ 0 then s.gl.deleteFramebuffer t.fbo else s.gl
    { s with
      gl := { gl with
        renderbuffers := gl.renderbuffers.erase t.renderbuffer
        textures := gl.textures.erase t.texture }
      textures := s.textures.insert texture { t with fbo := 0, renderbuffer := 0, texture := 0 } }

/-- `createFBO`, behind the loops of which the first image of the texture is attached. -/
def createFBO (t : Texture) (choice : Nat) (gl : OpenGL) : Nat × OpenGL :=
  let current := gl.boundFramebuffers.draw
  let (framebuffer, gl) := gl.genFramebuffer choice
  let gl := gl.bindFramebuffer .all framebuffer
  let gl := gl.framebufferTexture (framebufferAttachment t.info.format 0) t.info.texType t.texture
    0 0 0
  (framebuffer, gl.bindFramebuffer .all current)

/-- `Texture::createTexture` -/
def createTexture (texture : Nat) (t : Texture) (answers : LoadAnswers) (s : Context) :
    Texture × Context :=
  let handle := unused s.gl.textures answers.texture
  let t := { t with texture := handle }
  let gl := { s.gl with textures := insert handle s.gl.textures }
  if t.parents = [] ∧ t.info.isRenderTarget then
    let (fbo, gl) := createFBO t answers.fbo gl
    let t := { t with fbo := fbo }
    (t, { s with gl := gl, textures := s.textures.insert texture t })
  else (t, { s with gl := gl, textures := s.textures.insert texture t })

/-- The temporary framebuffer that a renderbuffer is cleared with. -/
def clearRenderbuffer (point : AttachmentPoint) (buffer choice : Nat) (gl : OpenGL) : OpenGL :=
  let current := gl.boundFramebuffers.draw
  let (fbo, gl) := gl.genFramebuffer choice
  let gl := (gl.bindFramebuffer .all fbo).framebufferRenderbuffer point buffer
  (gl.bindFramebuffer .all current).deleteFramebuffer fbo

/-- `newRenderbuffer`. Its renderbuffer is made first, and deleted last if its framebuffer is
not complete. -/
def newRenderbuffer (t : Texture) (answers : LoadAnswers) (gl : OpenGL) : Texture × OpenGL :=
  let buffer := unused gl.renderbuffers answers.renderbuffer
  let gl := clearRenderbuffer (framebufferAttachment t.info.format 0) buffer answers.temporary
    { gl with renderbuffers := insert buffer gl.renderbuffers }
  let samples :=
    if 1 < t.actualSamples then max 1 (t.actualSamples + answers.moreSamples) else t.actualSamples
  match answers.renderbufferStatus with
  | none => ({ t with renderbuffer := buffer, actualSamples := samples }, gl)
  | some _ =>
    ({ t with renderbuffer := 0, actualSamples := 1 },
      { gl with renderbuffers := gl.renderbuffers.erase buffer })

/-- The first half of `Texture::loadVolatile`, with the status of the framebuffer. -/
def loadTexture (maxSamples : Int) (answers : LoadAnswers) (texture : Nat) (t : Texture)
    (s : Context) : Option String × Texture × Context :=
  let t := { t with actualSamples := max 1 (min t.info.requestedMSAA maxSamples) }
  let status := if t.parents = [] ∧ t.info.isRenderTarget then answers.fboStatus else none
  if t.readable then (status, createTexture texture t answers s)
  else (none, t, { s with textures := s.textures.insert texture t })

/-- `Texture::loadVolatile` of a texture that is not loaded, behind that of its parent; what
it throws if it was called by the constructor. -/
def load (maxSamples : Int) (answers : LoadAnswers) (texture : Nat) (t : Texture) (s : Context) :
    Option String × Context :=
  let (status, t, s) := loadTexture maxSamples answers texture t s
  let renderbuffered := status = none ∧ (¬t.readable ∨ 1 < t.actualSamples)
  let s :=
    if renderbuffered then
      let (t, gl) := newRenderbuffer t answers s.gl
      { s with gl := gl, textures := s.textures.insert texture t }
    else s
  let status := if renderbuffered then answers.renderbufferStatus else status
  let cannot := "Cannot create " ++ if t.parents = [] then "Texture" else "texture view"
  match status, answers.error with
  | some status, _ =>
    (some (cannot ++ " (OpenGL framebuffer error: " ++ status ++ ")"), s.unloadVolatile texture)
  | none, some error =>
    (some (cannot ++ " (OpenGL error: " ++ error ++ ")"), s.unloadVolatile texture)
  | none, none => (none, s)

/-- `Texture::loadVolatile`; what a parent returns is ignored. -/
def loadVolatile (maxSamples : Int) (answers : Nat → LoadAnswers) :
    List Nat → Nat → Context → Option String × Context
  | parents, texture, s =>
    match s.textures.lookup texture with
    | none => (none, s)
    | some t =>
      if t.texture ≠ 0 ∨ t.renderbuffer ≠ 0 then (none, s)
      else
        load maxSamples (answers texture) texture t <|
          match parents with
          | [] => s
          | parent :: parents => (loadVolatile maxSamples answers parents parent s).2

/-- The textures that a view of `base` is a view of. -/
def parentsOf (base : Option Nat) (s : Context) : List Nat :=
  match base with
  | none => []
  | some base => base :: ((s.textures.lookup base).map Texture.parents).getD []

/-- The settings as a texture keeps them. -/
def normalized (info : TextureInfo) : TextureInfo :=
  { info with requestedMSAA := if 1 < info.requestedMSAA then info.requestedMSAA else 0 }

/-- The constructor of a texture, or of a view of `base`. -/
def newTexture (maxSamples : Int) (info : TextureInfo) (readable : Bool) (base : Option Nat)
    (address : Nat) (answers : Nat → LoadAnswers) : Action Nat := fun s =>
  let texture := unused s.textures.names address
  let parents := s.parentsOf base
  let s := { s with
    textures := s.textures.insert texture { info := normalized info, readable, parents } }
  match loadVolatile maxSamples answers parents texture s with
  | (none, s) => .ok texture s
  | (some message, s) =>
    .error (.exception message) { s with textures := s.textures.erase texture }

/-- The destructor of a texture. -/
def destroy (texture : Nat) (s : Context) : Context :=
  let s := s.unloadVolatile texture
  { s with textures := s.textures.erase texture }

/-! ## Cached framebuffers -/

/-- What OpenGL answers when a framebuffer is made. -/
structure BindAnswers where
  fbo : Nat := 0
  status : Option String := none

/-- `attachRT`, with the number of color targets so far. -/
def attachRT (textures : Table Nat Texture) (msaa : Int) (rt : RenderTarget) (so_far : Nat × OpenGL) :
    Nat × OpenGL :=
  match rt.texture.bind textures.lookup with
  | none => so_far
  | some t =>
    let (ncolortargets, gl) := so_far
    let renderbuffer := 1 < msaa ∨ ¬t.readable
    let point := framebufferAttachment t.info.format ncolortargets
    let ncolortargets :=
      if point = .color ncolortargets then ncolortargets + 1 else ncolortargets
    let handle := t.getRenderTargetHandle
    if renderbuffer then (ncolortargets, gl.framebufferRenderbuffer point handle)
    else
      let layer := if t.info.texType = .cube then 0 else rt.slice
      let face := if t.info.texType = .cube then rt.slice else 0
      (ncolortargets, gl.framebufferTexture point t.info.texType handle rt.mipmap layer face)

/-- `Graphics::bindCachedFBO` -/
def bindCachedFBO (targets : RenderTargets) (answers : BindAnswers) : Action Nat := fun s =>
  let fbo := (s.framebufferObjects.lookup targets).getD 0
  if fbo ≠ 0 then .ok fbo { s with gl := s.gl.bindFramebuffer .all fbo }
  else
    let msaa := ((targets.firstTarget.texture.bind s.textures.lookup).map
      Texture.actualSamples).getD 1
    let (fbo, gl) := s.gl.genFramebuffer answers.fbo
    let gl := gl.bindFramebuffer .all fbo
    let colors := targets.colors.foldl (fun so_far rt => attachRT s.textures msaa rt so_far) (0, gl)
    let (_, gl) := attachRT s.textures msaa targets.depthStencil colors
    match answers.status with
    | some status =>
      .error (.exception ("Could not create Framebuffer Object! " ++ status))
        { s with
          gl := gl.deleteFramebuffer fbo
          framebufferObjects := s.framebufferObjects.insert targets 0 }
    | none =>
      .ok fbo { s with
        gl := gl
        framebufferObjects := s.framebufferObjects.insert targets fbo }

/-- `getSystemBackbufferFBO` -/
def systemBackbufferFBO : Nat := 0

def getInternalBackbufferFBO (s : Context) : Nat :=
  if s.internalBackbufferFBO ≠ 0 then s.internalBackbufferFBO else systemBackbufferFBO

/-- The framebuffer of a texture that is resolved: one with more than one sample, that is
readable. -/
def resolvedFBO (textures : Table Nat Texture) (rt : RenderTarget) : Option Nat :=
  (rt.texture.bind textures.lookup).bind fun t => if t.readable then some t.fbo else none

/-- `Graphics::endPass`, as far as it binds framebuffers. -/
def endPass (s : Context) : Context :=
  let rts := s.renderTargets
  let msaa (rt : RenderTarget) : Int :=
    ((rt.texture.bind s.textures.lookup).map Texture.actualSamples).getD 1
  let colors := if 1 < (rts.colors.head?.map msaa).getD 1 then rts.colors else []
  let depthStencil := if 1 < msaa rts.depthStencil then [rts.depthStencil] else []
  let fbos := (colors ++ depthStencil).filterMap (resolvedFBO s.textures)
  { s with gl := fbos.foldl (fun gl fbo => gl.bindFramebuffer .draw fbo) s.gl }

/-- `Graphics::setRenderTargetsInternal`, as far as it binds framebuffers. -/
def setRenderTargetsInternal (rts : RenderTargets) (answers : BindAnswers) : Action Unit := fun s =>
  let s := s.endPass
  if rts.firstTarget.texture = none then
    .ok () { s with gl := s.gl.bindFramebuffer .all s.getInternalBackbufferFBO }
  else
    match bindCachedFBO rts answers s with
    | .ok _ s => .ok () s
    | .error e s => .error e s

/-! ## Render targets -/

section Targets

variable {F M : Type} (device : Device F M) (maxSamples : Int)

/-- The textures as they are checked. -/
def checked (s : Context) : Device F M :=
  { device with
    texture := fun a => ((s.textures.lookup a).map Texture.info).getD (device.texture a)
    bind := fun _ => none }

/-- What is asked of the temporary texture of a set. -/
structure TemporaryAnswers where
  address : Nat := 0
  load : Nat → LoadAnswers := fun _ => {}

/-- Whether a temporary texture can be used. -/
def fitsTemporary (s : Context) (format : PixelFormat) (w h samples : Int)
    (temp : TemporaryTexture) : Bool :=
  match s.textures.lookup temp.texture with
  | none => false
  | some c => 0 ≤ temp.framesSinceUse ∧ c.info.format = format ∧ c.info.getPixelWidth 0 = w ∧
      c.info.getPixelHeight 0 = h ∧ c.info.requestedMSAA = samples

/-- The settings of a temporary texture. -/
def temporaryInfo (format : PixelFormat) (w h samples : Int) : TextureInfo where
  texType := .texture2D
  format := format
  isRenderTarget := true
  mipmapCount := 1
  layers := 1
  depth := 1
  width := w
  height := h
  pixelWidth := w
  pixelHeight := h
  requestedMSAA := samples

/-- `getTemporaryTexture` and `releaseTemporaryTexture` right behind it. -/
def getTemporaryTexture (format : PixelFormat) (w h samples : Int) (answers : TemporaryAnswers) :
    Action Nat := fun s =>
  match s.temporaryTextures.find? (s.fitsTemporary format w h samples) with
  | some temp =>
    .ok temp.texture { s with
      temporaryTextures := s.temporaryTextures.map fun t =>
        if t.texture = temp.texture then { t with framesSinceUse := 0 } else t }
  | none =>
    match newTexture maxSamples (temporaryInfo format w h samples)
        (!isPixelFormatDepthStencil format) none answers.address answers.load s with
    | .error e s => .error e s
    | .ok texture s =>
      .ok texture { s with temporaryTextures := s.temporaryTextures ++ [⟨texture, 0⟩] }

/-- `setRenderTarget()` -/
def setRenderTargetNone : Action Unit := fun s =>
  if !s.renderTargets.active then .ok () s
  else
    match setRenderTargetsInternal {} {} s with
    | .error e s => .error e s
    | .ok _ s => .ok () { s with renderTargets := {} }

/-- The set that is bound for one that is set: its checks, and its temporary texture. -/
def realTargets (rts : RenderTargets) (firsttex : Nat) (temporary : TemporaryAnswers) :
    Action RenderTargets := fun s =>
  match (s.checked device).realTargets rts firsttex with
  | .error e => .error e s
  | .ok real =>
    match real.temporary with
    | none => .ok real.targets s
    | some (dsformat, pixelw, pixelh, reqmsaa) =>
      match getTemporaryTexture maxSamples dsformat pixelw pixelh reqmsaa temporary s with
      | .error e s => .error e s
      | .ok texture s => .ok { real.targets with depthStencil.texture := some texture } s

/-- `setRenderTargets`. The set is bound, and only then recorded. -/
def setRenderTargets (rts : RenderTargets) (temporary : TemporaryAnswers)
    (answers : BindAnswers) : Action Unit := fun s =>
  match rts.firstTarget.texture with
  | none => setRenderTargetNone s
  | some firsttex =>
    if rts = s.renderTargets then .ok () s
    else
      match realTargets device maxSamples rts firsttex temporary s with
      | .error e s => .error e s
      | .ok real s =>
        match setRenderTargetsInternal real answers s with
        | .error e s => .error e s
        | .ok _ s => .ok () { s with renderTargets := Device.strongRefs rts }

/-! ## Frames -/

/-- The loop of `updateTemporaryResources` over the textures, down from `i`. -/
def updateTemporaryResources : Nat → Context → Context
  | 0, s => s
  | i + 1, s =>
    match s.temporaryTextures[i]? with
    | none => updateTemporaryResources i s
    | some t =>
      if maxTemporaryResourceUnusedFrames ≤ t.framesSinceUse then
        let s := s.destroy t.texture
        updateTemporaryResources i
          { s with temporaryTextures := swapRemove s.temporaryTextures i }
      else
        updateTemporaryResources i { s with
          temporaryTextures :=
            if 0 ≤ t.framesSinceUse then
              s.temporaryTextures.set i { t with framesSinceUse := t.framesSinceUse + 1 }
            else s.temporaryTextures }

/-- `present`, as far as it binds framebuffers and destroys textures. -/
def present (screenshot : Bool) : Action Unit := fun s =>
  if s.renderTargets.active then
    .error (.exception "present cannot be called while a render target is active.") s
  else
    let s := s.endPass
    let gl := s.gl.bindFramebuffer .all s.getInternalBackbufferFBO
    let gl :=
      if s.internalBackbufferFBO ≠ 0 then gl.bindFramebuffer .draw systemBackbufferFBO
      else gl
    let gl := if screenshot then gl.bindFramebuffer .all systemBackbufferFBO else gl
    let s := { s with gl := gl.bindFramebuffer .all s.getInternalBackbufferFBO }
    .ok () (updateTemporaryResources s.temporaryTextures.length s)

/-! ## The start -/

/-- The textures of an internal backbuffer. -/
structure Backbuffer where
  color : TextureInfo
  depthStencil : Option TextureInfo
  target : color.isRenderTarget = true
  format : isPixelFormatDepthStencil color.format = false
  depthStencils : ∀ info ∈ depthStencil, info.isRenderTarget = true ∧
    isPixelFormatDepthStencil info.format = true ∧ info.requestedMSAA = color.requestedMSAA

/-- What OpenGL answers when an internal backbuffer is made. -/
structure BackbufferAnswers where
  color : TemporaryAnswers := {}
  depthStencil : TemporaryAnswers := {}
  bind : BindAnswers := {}

/-- `setMode`, as far as `backbufferChanged` makes an internal backbuffer. -/
def setMode (answers : BackbufferAnswers) : Option Backbuffer → Except DisplayFault Context
  | none => .ok {}
  | some backbuffer =>
    match newTexture maxSamples backbuffer.color false none answers.color.address
        answers.color.load {} with
    | .error e _ => .error e
    | .ok color s =>
      let depthStencil : EStateM.Result DisplayFault Context (Option Nat) :=
        match backbuffer.depthStencil with
        | none => .ok none s
        | some info =>
          match newTexture maxSamples info false none answers.depthStencil.address
              answers.depthStencil.load s with
          | .error e s => .error e s
          | .ok texture s => .ok (some texture) s
      match depthStencil with
      | .error e _ => .error e
      | .ok depthStencil s =>
        let rts : RenderTargets :=
          { colors := [⟨some color, 0, 0⟩], depthStencil := ⟨depthStencil, 0, 0⟩ }
        match bindCachedFBO rts answers.bind s with
        | .error e _ => .error e
        | .ok fbo s => .ok { s with internalBackbuffer := rts, internalBackbufferFBO := fbo }

end Targets

end Context

end Lhatove.Opengl
