import Lhatove.Graphics.RenderTargets

/-!
# Texture views

The constructor of `love::graphics::Texture` for views of other textures, which may be
views themselves.

- Pixel formats are of any type `F`.
- What a view takes over and nothing here reads is left out: flags, samplers, quads, names.
- `View.newView`: the constructor;
- `View.Texture.Inside`: a view shows a part of its root texture;
- `View.chainInside_iff`: when all accepted views of views do.
-/

namespace Lhatove.Graphics.View

/-- What a texture is. -/
structure Props (F : Type) where
  texType : TextureType
  format : F
  readable : Bool
  viewFormats : List F
  width : Int
  height : Int
  depth : Int
  layers : Int
  mipmapCount : Int
  pixelWidth : Int
  pixelHeight : Int

/-- A texture of its own, with what its constructor sees to. -/
structure Root (F : Type) extends Props F where
  mipmapCount_pos : 1 ≤ mipmapCount
  layers_pos : 1 ≤ layers
  layers_eq : texType ≠ .array → layers = 1
  depth_eq : texType ≠ .volume → depth = 1

/-- `Texture`: one of its own, or a view with `parentView`. -/
inductive Texture (F : Type)
  | root (own : Root F)
  | view (base : Texture F) (startMipmap startLayer : Int) (props : Props F)

structure ViewSettings (F : Type) where
  format : Option F := none
  texType : Option TextureType := none
  mipmapStart : Option Int := none
  mipmapCount : Option Int := none
  layerStart : Option Int := none
  layerCount : Option Int := none

inductive ViewFault
  | exception (message : String)
  | undefined
  deriving DecidableEq

/-- What the system supports. -/
structure ViewDevice (F : Type) where
  glsl4 : Bool
  textureTypes : TextureType → Bool
  /-- what `validatePixelFormat` throws -/
  validatePixelFormat : F → Bool → Option String

namespace Texture

variable {F : Type}

def props : Texture F → Props F
  | .root own => own.toProps
  | .view _ _ _ props => props

def texType (t : Texture F) : TextureType := t.props.texType

def getWidth (t : Texture F) (mip : Int) : Int := mipSize t.props.width mip

def getHeight (t : Texture F) (mip : Int) : Int := mipSize t.props.height mip

def getDepth (t : Texture F) (mip : Int) : Int := mipSize t.props.depth mip

def getPixelWidth (t : Texture F) (mip : Int) : Int := mipSize t.props.pixelWidth mip

def getPixelHeight (t : Texture F) (mip : Int) : Int := mipSize t.props.pixelHeight mip

def getLayerCount (t : Texture F) : Int := t.props.layers

def getMipmapCount (t : Texture F) : Int := t.props.mipmapCount

def getSliceCount (t : Texture F) (mip : Int) : Int :=
  match t.texType with
  | .texture2D => 1
  | .cube => 6
  | .array => t.props.layers
  | .volume => t.getDepth mip

/-- The layers that a view may be of: the faces of a cube. -/
def baseLayerCount (t : Texture F) : Int := if t.texType = .cube then 6 else t.getLayerCount

/-- The walk to the root texture, with what has been added up. -/
def walk : Texture F → Int × Int → Int × Int
  | .root _, start => start
  | .view base startMipmap startLayer _, start =>
    walk base (start.1 + startMipmap, start.2 + startLayer)

/-- `startMipmap` and `startLayer` of `rootView` -/
def rootView (t : Texture F) : Int × Int := t.walk (0, 0)

/-- The texture of `rootView` -/
def rootTexture : Texture F → Texture F
  | .root own => .root own
  | .view base _ _ _ => rootTexture base

end Texture

/-- `getConstant` -/
def typeName : TextureType → String
  | .texture2D => "2d"
  | .volume => "volume"
  | .array => "array"
  | .cube => "cube"

/-! ## The constructor -/

section

variable {F : Type}

/-- The types that a view of a texture may have. -/
def checkType (base view : TextureType) : Except ViewFault Unit :=
  match base with
  | .texture2D =>
    if view ≠ .texture2D ∧ view ≠ .array then
      .error (.exception
        "Texture views created from a 2D texture must use the 2d or array texture type.")
    else .ok ()
  | .array | .cube =>
    if view ≠ .texture2D ∧ view ≠ .array ∧ view ≠ .cube then
      .error (.exception ("Texture views created from an array or cube texture must use the " ++
        "2d, array, or cube texture type."))
    else .ok ()
  | .volume =>
    if view ≠ .volume then
      .error (.exception
        "Texture views created from a volume texture must use the volume texture type.")
    else .ok ()

namespace ViewSettings

def startMipmap (settings : ViewSettings F) : Int := settings.mipmapStart.getD 0

def startLayer (settings : ViewSettings F) : Int := settings.layerStart.getD 0

def getType (settings : ViewSettings F) (base : Texture F) : TextureType :=
  settings.texType.getD base.texType

def getMipmaps (settings : ViewSettings F) (base : Texture F) : Int :=
  settings.mipmapCount.getD (base.getMipmapCount - settings.startMipmap)

def getLayers (settings : ViewSettings F) (base : Texture F) : Int :=
  if settings.getType base = .array then
    settings.layerCount.getD (base.baseLayerCount - settings.startLayer)
  else 1

end ViewSettings

/-- The members of a view, as they are before its checks. -/
def viewProps (base : Texture F) (settings : ViewSettings F) : Props F :=
  { texType := settings.getType base
    format := settings.format.getD base.props.format
    readable := base.props.readable
    viewFormats := base.props.viewFormats
    width := base.getWidth settings.startMipmap
    height := base.getHeight settings.startMipmap
    depth := if settings.getType base = .volume then base.getDepth settings.startMipmap else 1
    layers := settings.getLayers base
    mipmapCount := settings.getMipmaps base
    pixelWidth := base.getPixelWidth settings.startMipmap
    pixelHeight := base.getPixelHeight settings.startMipmap }

/-- The checks of mipmap levels and layers. A sum that overflows has no value. -/
def checkRange (base : Texture F) (props : Props F) (startMipmap startLayer : Int) :
    Except ViewFault Unit :=
  if startMipmap < 0 then
    .error (.exception "Invalid mipmap start value for texture view (out of range).")
  else if 0 ≤ props.mipmapCount ∧ 2 ^ 31 ≤ startMipmap + props.mipmapCount then .error .undefined
  else if props.mipmapCount < 0 ∨ base.getMipmapCount < startMipmap + props.mipmapCount then
    .error (.exception "Invalid mipmap start or count value for texture view (out of range).")
  else if startLayer < 0 then
    .error (.exception "Invalid layer start value for texture view (out of range).")
  else if 0 ≤ props.layers ∧ 2 ^ 31 ≤ startLayer + props.layers then .error .undefined
  else if props.layers < 0 ∨ base.baseLayerCount < startLayer + props.layers then
    .error (.exception "Invalid layer start or count value for texture view (out of range).")
  else if props.texType = .cube ∧ 2 ^ 31 ≤ startLayer + 6 then .error .undefined
  else if props.texType = .cube ∧ base.baseLayerCount < startLayer + 6 then
    .error (.exception
      "Cube texture view cannot fit in the base texture's layers with the given start layer.")
  else .ok ()

/-- The checks of what the system supports, and of types and formats. -/
def checkSupport [DecidableEq F] (device : ViewDevice F) (base : Texture F) (props : Props F) :
    Except ViewFault Unit := do
  if device.glsl4 = false then
    .error (.exception
      "Texture views are not supported on this system (GLSL 4 support is necessary.)")
  else
    match device.validatePixelFormat props.format props.readable with
    | some message => .error (.exception message)
    | none =>
      if device.textureTypes props.texType = false then
        .error (.exception
          s!"{typeName props.texType} textures are not supported on this system.")
      else if props.readable = false then
        .error (.exception "Texture views are not supported for non-readable textures.")
      else
        checkType base.texType props.texType
        if props.format ≠ base.props.format ∧ props.format ∉ props.viewFormats then
          .error (.exception ("Using a different pixel format in a texture view requires the " ++
            "original texture to be created with a 'viewformats' setting that includes the " ++
            "given format in its list."))
        else .ok ()

/-- The constructor. A shift by a level that is no level of any texture is not defined, nor is
a difference that overflows. -/
def newView [DecidableEq F] (device : ViewDevice F) (base : Texture F)
    (settings : ViewSettings F) : Except ViewFault (Texture F) := do
  if ¬ Shift settings.startMipmap then .error .undefined
  else if settings.getType base = .array ∧
      2 ^ 31 ≤ base.baseLayerCount - settings.startLayer then
    .error .undefined
  else
    checkRange base (viewProps base settings) settings.startMipmap settings.startLayer
    checkSupport device base (viewProps base settings)
    .ok (.view base settings.startMipmap settings.startLayer (viewProps base settings))

end

/-! ## What a view shows -/

namespace Texture

variable {F : Type}

/-- A slice of a mipmap level, both from 0. -/
def Valid (t : Texture F) (place : Int × Int) : Prop :=
  (0 ≤ place.1 ∧ place.1 < t.getMipmapCount) ∧ 0 ≤ place.2 ∧ place.2 < t.getSliceCount place.1

/-- The place of the root texture that a place of the view is. -/
def toRoot (t : Texture F) (place : Int × Int) : Int × Int :=
  (t.rootView.1 + place.1, t.rootView.2 + place.2)

/-- The level is of the size that the root's level has. -/
structure SameSize (t : Texture F) (mip : Int) : Prop where
  width : t.getWidth mip = t.rootTexture.getWidth (t.rootView.1 + mip)
  height : t.getHeight mip = t.rootTexture.getHeight (t.rootView.1 + mip)
  depth : t.getDepth mip = t.rootTexture.getDepth (t.rootView.1 + mip)
  pixelWidth : t.getPixelWidth mip = t.rootTexture.getPixelWidth (t.rootView.1 + mip)
  pixelHeight : t.getPixelHeight mip = t.rootTexture.getPixelHeight (t.rootView.1 + mip)

/-- The texture shows a part of its root, which is not empty. -/
structure Inside (t : Texture F) : Prop where
  mipmaps : 1 ≤ t.getMipmapCount
  slices : ∀ mip, 0 ≤ mip → mip < t.getMipmapCount → 1 ≤ t.getSliceCount mip
  maps : Set.MapsTo t.toRoot {place | t.Valid place} {place | t.rootTexture.Valid place}
  injective : Set.InjOn t.toRoot {place | t.Valid place}
  size : ∀ mip, 0 ≤ mip → mip < t.getMipmapCount → t.SameSize mip

/-- What views of the texture rest on. -/
structure Within (t : Texture F) : Prop where
  startMipmap : 0 ≤ t.rootView.1
  startLayer : 0 ≤ t.rootView.2
  mipmaps : t.rootView.1 + t.getMipmapCount ≤ t.rootTexture.getMipmapCount
  layers : t.rootView.2 + t.baseLayerCount ≤ t.rootTexture.baseLayerCount
  layers_eq : t.texType ≠ .array → t.getLayerCount = 1
  volume : t.texType = .volume ↔ t.rootTexture.texType = .volume
  depth : t.texType ≠ .volume → ∀ mip, t.getDepth mip = 1
  size : ∀ mip, 0 ≤ mip → t.SameSize mip

end Texture

section

variable {F : Type}

namespace Texture

theorem walk_eq (t : Texture F) (start : Int × Int) :
    t.walk start = (start.1 + t.rootView.1, start.2 + t.rootView.2) := by
  induction t generalizing start with
  | root own => simp [rootView, walk]
  | view base startMipmap startLayer props ih =>
    unfold rootView
    simp only [walk]
    rw [ih, ih (0 + startMipmap, 0 + startLayer)]
    simp only [Prod.mk.injEq]
    omega

theorem rootView_view (base : Texture F) (startMipmap startLayer : Int) (props : Props F) :
    (Texture.view base startMipmap startLayer props).rootView =
      (base.rootView.1 + startMipmap, base.rootView.2 + startLayer) := by
  unfold rootView
  simp only [walk]
  rw [walk_eq, ← rootView]
  simp only [Prod.mk.injEq]
  omega

variable {t : Texture F}

theorem getSliceCount_eq (h : t.texType ≠ .volume)
    (hlayers : t.texType ≠ .array → t.getLayerCount = 1) (mip : Int) :
    t.getSliceCount mip = t.baseLayerCount := by
  unfold getSliceCount baseLayerCount
  cases htype : t.texType with
  | texture2D => simp [hlayers (by simp [htype])]
  | volume => exact absurd htype h
  | array => simp [getLayerCount]
  | cube => simp

theorem Within.root (own : Root F) : (Texture.root own).Within where
  startMipmap := le_refl _
  startLayer := le_refl _
  mipmaps := by simp [rootView, walk, rootTexture]
  layers := by simp [rootView, walk, rootTexture]
  layers_eq := own.layers_eq
  volume := .rfl
  depth h mip := by
    unfold getDepth
    rw [show (Texture.root own).props.depth = 1 from own.depth_eq h, mipSize_one]
  size mip _ := by
    constructor <;> simp [rootView, walk, rootTexture]

theorem rootTexture_eq (t : Texture F) : ∃ own, t.rootTexture = .root own := by
  induction t with
  | root own => exact ⟨own, rfl⟩
  | view _ _ _ _ ih => exact ih

theorem baseLayerCount_volume (h : t.texType = .volume)
    (hlayers : t.texType ≠ .array → t.getLayerCount = 1) : t.baseLayerCount = 1 := by
  unfold baseLayerCount
  rw [if_neg (by simp [h]), hlayers (by simp [h])]

theorem getSliceCount_pos (h : 1 ≤ t.getLayerCount) (mip : Int) : 1 ≤ t.getSliceCount mip := by
  unfold getSliceCount
  cases t.texType with
  | texture2D => exact le_refl _
  | volume => exact le_max_right _ _
  | array => exact h
  | cube => norm_num

theorem Within.valid (h : t.Within) {place : Int × Int} (hplace : t.Valid place) :
    t.rootTexture.Valid (t.toRoot place) := by
  obtain ⟨own, hown⟩ := t.rootTexture_eq
  have hlayers : t.rootTexture.texType ≠ .array → t.rootTexture.getLayerCount = 1 := by
    rw [hown]
    exact own.layers_eq
  obtain ⟨⟨hmip, hcount⟩, hslice, hslices⟩ := hplace
  have hstartMipmap := h.startMipmap
  have hstartLayer := h.startLayer
  have hmipmaps := h.mipmaps
  have hwithin := h.layers
  unfold toRoot
  refine ⟨⟨by dsimp only; omega, by dsimp only; omega⟩, by dsimp only; omega, ?_⟩
  by_cases hvolume : t.texType = .volume
  · -- there is one layer only, and the levels are equally deep
    have hroot := h.volume.mp hvolume
    rw [baseLayerCount_volume hvolume h.layers_eq,
      baseLayerCount_volume hroot hlayers] at hwithin
    have hdepth := (h.size place.1 hmip).depth
    unfold getSliceCount at hslices ⊢
    rw [hvolume] at hslices
    rw [hroot]
    dsimp only at hslices ⊢
    omega
  · have hroot : t.rootTexture.texType ≠ .volume := by
      intro hroot
      exact hvolume (h.volume.mpr hroot)
    rw [getSliceCount_eq hvolume h.layers_eq] at hslices
    rw [getSliceCount_eq hroot hlayers]
    omega

/-- Where views are within their root, nothing but a count of 0 takes a view out of it. -/
theorem Within.inside_iff (h : t.Within) (hmipmaps : 0 ≤ t.getMipmapCount)
    (hlayers : 0 ≤ t.getLayerCount) :
    t.Inside ↔ t.getMipmapCount ≠ 0 ∧ t.getLayerCount ≠ 0 := by
  constructor
  · intro hinside
    have hmip := hinside.mipmaps
    refine ⟨by omega, ?_⟩
    intro hnone
    have hslices := hinside.slices 0 (le_refl _) (by omega)
    by_cases harray : t.texType = .array
    · unfold getSliceCount at hslices
      rw [harray] at hslices
      unfold getLayerCount at hnone
      dsimp only at hslices
      omega
    · have hone := h.layers_eq harray
      omega
  · rintro ⟨hmip, hlayer⟩
    constructor
    · omega
    · intro mip _ _
      exact getSliceCount_pos (by omega) mip
    · intro place hplace
      exact h.valid hplace
    · intro place _ place' _ heq
      unfold toRoot at heq
      simp only [Prod.mk.injEq] at heq
      ext
      · omega
      · omega
    · intro mip hpos _
      exact h.size mip hpos

end Texture

end

/-! ## What is accepted -/

section

variable {F : Type}

/-- No number of the settings takes the arithmetic of the constructor out of its range. -/
structure NumbersFit (base : Texture F) (settings : ViewSettings F) : Prop where
  start : Shift settings.startMipmap
  rest : settings.getType base = .array → base.baseLayerCount - settings.startLayer < 2 ^ 31
  mipmaps : 0 ≤ settings.getMipmaps base →
    settings.startMipmap + settings.getMipmaps base < 2 ^ 31
  layers : 0 ≤ settings.getMipmaps base →
    settings.startMipmap + settings.getMipmaps base ≤ base.getMipmapCount →
    0 ≤ settings.startLayer → 0 ≤ settings.getLayers base →
    settings.startLayer + settings.getLayers base < 2 ^ 31
  faces : 0 ≤ settings.getMipmaps base →
    settings.startMipmap + settings.getMipmaps base ≤ base.getMipmapCount →
    0 ≤ settings.startLayer → settings.getType base = .cube →
    settings.startLayer + 1 ≤ base.baseLayerCount → settings.startLayer + 6 < 2 ^ 31

/-- What a view keeps to when it is accepted. -/
structure Accepted (base : Texture F) (settings : ViewSettings F) : Prop where
  start : 0 ≤ settings.startMipmap
  startLayer : 0 ≤ settings.startLayer
  mipmaps : 0 ≤ settings.getMipmaps base ∧
    settings.startMipmap + settings.getMipmaps base ≤ base.getMipmapCount
  layers : 0 ≤ settings.getLayers base ∧
    settings.startLayer + settings.getLayers base ≤ base.baseLayerCount
  faces : settings.getType base = .cube → settings.startLayer + 6 ≤ base.baseLayerCount
  types : checkType base.texType (settings.getType base) = .ok ()

theorem checkType_cases (base view : TextureType) :
    checkType base view = .ok () ∨ ∃ message, checkType base view = .error (.exception message) := by
  cases base <;> cases view <;> simp [checkType]

theorem checkType_volume {base view : TextureType} (h : checkType base view = .ok ()) :
    view = .volume ↔ base = .volume := by
  cases base <;> cases view <;> simp_all [checkType]

theorem check_cases {ε α : Type} {p : Prop} [Decidable p] {fault : ε} {rest result : Except ε α}
    (h : (if p then .error fault else rest) = result) :
    (p ∧ Except.error fault = result) ∨ (¬ p ∧ rest = result) := by
  split at h
  next hp =>
    exact .inl ⟨hp, h⟩
  next hp =>
    exact .inr ⟨hp, h⟩

/-- The number that does not fit, or the check that fails, or what all checks have seen. -/
theorem checkRange_cases (base : Texture F) (settings : ViewSettings F)
    (hstart : Shift settings.startMipmap)
    (hrest : settings.getType base = .array → base.baseLayerCount - settings.startLayer < 2 ^ 31)
    {check : Except ViewFault Unit}
    (h : checkRange base (viewProps base settings) settings.startMipmap settings.startLayer =
      check) :
    (check = .error .undefined ∧ ¬ NumbersFit base settings) ∨
      (NumbersFit base settings ∧ ((∃ message, check = .error (.exception message)) ∨
        (check = .ok () ∧ (checkType base.texType (settings.getType base) = .ok () →
          Accepted base settings)))) := by
  have hpos := hstart.1
  have hone : settings.getType base = .cube → settings.getLayers base = 1 := by
    intro htype
    unfold ViewSettings.getLayers
    rw [if_neg (by simp [htype])]
  unfold checkRange at h
  simp only [viewProps] at h
  rcases check_cases h with ⟨hneg, -⟩ | ⟨-, h⟩
  · omega
  rcases check_cases h with ⟨hover, rfl⟩ | ⟨hsum, h⟩
  · refine .inl ⟨rfl, ?_⟩
    intro hfit
    have hfits := hfit.mipmaps
    omega
  rcases check_cases h with ⟨hrange, rfl⟩ | ⟨hrange, h⟩
  · refine .inr ⟨⟨hstart, hrest, ?_, ?_, ?_⟩, .inl ⟨_, rfl⟩⟩ <;> omega
  rcases check_cases h with ⟨hlayer, rfl⟩ | ⟨hlayer, h⟩
  · refine .inr ⟨⟨hstart, hrest, ?_, ?_, ?_⟩, .inl ⟨_, rfl⟩⟩ <;> omega
  rcases check_cases h with ⟨hover, rfl⟩ | ⟨hlayerSum, h⟩
  · refine .inl ⟨rfl, ?_⟩
    intro hfit
    have hfits := hfit.layers
    omega
  rcases check_cases h with ⟨hlayers, rfl⟩ | ⟨hlayers, h⟩
  · refine .inr ⟨⟨hstart, hrest, ?_, ?_, ?_⟩, .inl ⟨_, rfl⟩⟩
    · omega
    · omega
    · intro _ _ _ hcube
      have hcubeLayers := hone hcube
      omega
  rcases check_cases h with ⟨⟨hcube, hover⟩, rfl⟩ | ⟨hfaceSum, h⟩
  · refine .inl ⟨rfl, ?_⟩
    intro hfit
    have hfits := hfit.faces
    have hcubeLayers := hone hcube
    exact absurd (hfits (by omega) (by omega) (by omega) hcube (by omega)) (by omega)
  have hfit : NumbersFit base settings := by
    refine ⟨hstart, hrest, ?_, ?_, ?_⟩
    · omega
    · omega
    · intro _ _ _ hcube _
      by_contra hover
      exact hfaceSum ⟨hcube, by omega⟩
  rcases check_cases h with ⟨hface, rfl⟩ | ⟨hface, rfl⟩
  · exact .inr ⟨hfit, .inl ⟨_, rfl⟩⟩
  · refine .inr ⟨hfit, .inr ⟨rfl, ?_⟩⟩
    intro htype
    refine ⟨hpos, by omega, by omega, by omega, ?_, htype⟩
    intro hcube
    by_contra hfaces
    exact hface ⟨hcube, by omega⟩

variable [DecidableEq F]

theorem checkSupport_cases (device : ViewDevice F) (base : Texture F) (props : Props F) :
    (checkSupport device base props = .ok () ∧ checkType base.texType props.texType = .ok ()) ∨
      ∃ message, checkSupport device base props = .error (.exception message) := by
  unfold checkSupport
  by_cases hglsl4 : device.glsl4 = false
  · exact .inr ⟨_, if_pos hglsl4⟩
  rw [if_neg hglsl4]
  cases device.validatePixelFormat props.format props.readable with
  | some message => exact .inr ⟨_, rfl⟩
  | none =>
    by_cases htypes : device.textureTypes props.texType = false
    · exact .inr ⟨_, if_pos htypes⟩
    rw [if_neg htypes]
    by_cases hreadable : props.readable = false
    · exact .inr ⟨_, if_pos hreadable⟩
    rw [if_neg hreadable]
    rcases checkType_cases base.texType props.texType with htype | ⟨message, htype⟩
    · rw [htype]
      by_cases hformat : props.format ≠ base.props.format ∧ props.format ∉ props.viewFormats
      · exact .inr ⟨_, if_pos hformat⟩
      · exact .inl ⟨if_neg hformat, rfl⟩
    · rw [htype]
      exact .inr ⟨_, rfl⟩

theorem newView_cases (device : ViewDevice F) (base : Texture F) (settings : ViewSettings F) :
    (newView device base settings = .error .undefined ∧ ¬ NumbersFit base settings) ∨
      (NumbersFit base settings ∧
        ((∃ message, newView device base settings = .error (.exception message)) ∨
          (newView device base settings = .ok (.view base settings.startMipmap
            settings.startLayer (viewProps base settings)) ∧ Accepted base settings))) := by
  unfold newView
  by_cases hstart : ¬ Shift settings.startMipmap
  · exact .inl ⟨if_pos hstart, fun hfit => hstart hfit.start⟩
  rw [if_neg hstart]
  by_cases hrest : settings.getType base = .array ∧
      2 ^ 31 ≤ base.baseLayerCount - settings.startLayer
  · refine .inl ⟨if_pos hrest, ?_⟩
    intro hfit
    exact absurd (hfit.rest hrest.1) (by omega)
  rw [if_neg hrest]
  have hfits : settings.getType base = .array →
      base.baseLayerCount - settings.startLayer < 2 ^ 31 := by
    intro harray
    by_contra hover
    exact hrest ⟨harray, by omega⟩
  rcases checkRange_cases base settings (not_not.mp hstart) hfits rfl with
    ⟨hcheck, hfit⟩ | ⟨hfit, ⟨message, hcheck⟩ | ⟨hcheck, haccepted⟩⟩
  · rw [hcheck]
    exact .inl ⟨rfl, hfit⟩
  · rw [hcheck]
    exact .inr ⟨hfit, .inl ⟨message, rfl⟩⟩
  · rw [hcheck]
    rcases checkSupport_cases device base (viewProps base settings) with
      ⟨hsupport, htype⟩ | ⟨message, hsupport⟩
    · rw [hsupport]
      exact .inr ⟨hfit, .inr ⟨rfl, haccepted htype⟩⟩
    · rw [hsupport]
      exact .inr ⟨hfit, .inl ⟨message, rfl⟩⟩

end

/-! ## Chains of views -/

section

variable {F : Type}

variable {base : Texture F} {settings : ViewSettings F}

theorem Texture.SameSize.trans (hbase : base.Within) (haccepted : Accepted base settings)
    {mip : Int} (hmip : 0 ≤ mip) :
    (Texture.view base settings.startMipmap settings.startLayer
      (viewProps base settings)).SameSize mip := by
  have hstart := haccepted.start
  have hsize := hbase.size (settings.startMipmap + mip) (by omega)
  have hroot : base.rootView.1 + settings.startMipmap + mip =
      base.rootView.1 + (settings.startMipmap + mip) := by omega
  constructor
  · rw [Texture.rootView_view, hroot]
    exact (mipSize_mipSize _ hstart hmip).trans hsize.width
  · rw [Texture.rootView_view, hroot]
    exact (mipSize_mipSize _ hstart hmip).trans hsize.height
  · rw [Texture.rootView_view, hroot]
    refine .trans ?_ hsize.depth
    unfold Texture.getDepth
    simp only [Texture.props, viewProps]
    by_cases hvolume : settings.getType base = .volume
    · rw [if_pos hvolume]
      exact mipSize_mipSize _ hstart hmip
    · -- neither the view nor its base has any depth
      rw [if_neg hvolume, mipSize_one]
      refine (hbase.depth ?_ _).symm
      intro hbaseVolume
      exact hvolume ((checkType_volume haccepted.types).mpr hbaseVolume)
  · rw [Texture.rootView_view, hroot]
    exact (mipSize_mipSize _ hstart hmip).trans hsize.pixelWidth
  · rw [Texture.rootView_view, hroot]
    exact (mipSize_mipSize _ hstart hmip).trans hsize.pixelHeight

theorem Texture.Within.view (hbase : base.Within) (haccepted : Accepted base settings) :
    (Texture.view base settings.startMipmap settings.startLayer
      (viewProps base settings)).Within := by
  have hstart := haccepted.start
  have hstartLayer := haccepted.startLayer
  have hbaseStart := hbase.startMipmap
  have hbaseLayer := hbase.startLayer
  have hmipmaps := hbase.mipmaps
  have hlayers := hbase.layers
  obtain ⟨-, hcount⟩ := haccepted.mipmaps
  obtain ⟨-, hlayerCount⟩ := haccepted.layers
  constructor
  · rw [Texture.rootView_view]
    omega
  · rw [Texture.rootView_view]
    omega
  · rw [Texture.rootView_view]
    change base.rootView.1 + settings.startMipmap + settings.getMipmaps base ≤
      base.rootTexture.getMipmapCount
    omega
  · rw [Texture.rootView_view]
    change base.rootView.2 + settings.startLayer +
      (if settings.getType base = .cube then 6 else settings.getLayers base) ≤
        base.rootTexture.baseLayerCount
    by_cases hcube : settings.getType base = .cube
    · have hfaces := haccepted.faces hcube
      omega
    · rw [if_neg hcube]
      omega
  · intro harray
    exact if_neg harray
  · exact (checkType_volume haccepted.types).trans hbase.volume
  · intro hvolume mip
    unfold Texture.getDepth
    change settings.getType base ≠ .volume at hvolume
    simp only [Texture.props, viewProps]
    rw [if_neg hvolume, mipSize_one]
  · intro mip hmip
    exact .trans hbase haccepted hmip

variable [DecidableEq F] (device : ViewDevice F)

/-- Each accepted view of a chain, which is made of the one before, is inside its root. A view
without a value need not be. -/
def ChainInside : Texture F → List (ViewSettings F) → Prop
  | _, [] => True
  | base, settings :: rest =>
    match newView device base settings with
    | .ok view => view.Inside ∧ ChainInside view rest
    | .error (.exception _) => True
    | .error .undefined => False

/-- No settings of a chain take the arithmetic out of its range, and none that are accepted
come to 0 mipmap levels or 0 layers. -/
def ChainMeets : Texture F → List (ViewSettings F) → Prop
  | _, [] => True
  | base, settings :: rest =>
    NumbersFit base settings ∧
      match newView device base settings with
      | .ok view =>
        settings.getMipmaps base ≠ 0 ∧ settings.getLayers base ≠ 0 ∧ ChainMeets view rest
      | .error _ => True

variable {device}

theorem chainInside_iff_of_within (hbase : base.Within) (chain : List (ViewSettings F)) :
    ChainInside device base chain ↔ ChainMeets device base chain := by
  induction chain generalizing base with
  | nil => exact .rfl
  | cons settings rest ih =>
    unfold ChainInside ChainMeets
    rcases newView_cases device base settings with
      ⟨hview, hfit⟩ | ⟨hfit, ⟨message, hview⟩ | ⟨hview, haccepted⟩⟩
    · rw [hview]
      simp [hfit]
    · rw [hview]
      simp [hfit]
    · have hwithin := hbase.view haccepted
      have hinside := hwithin.inside_iff haccepted.mipmaps.1 haccepted.layers.1
      rw [hview]
      dsimp only
      rw [hinside, ih hwithin]
      tauto

/-- Views of views are inside their root texture where none is empty. -/
theorem chainInside_iff (own : Root F) (chain : List (ViewSettings F)) :
    ChainInside device (.root own) chain ↔ ChainMeets device (.root own) chain :=
  chainInside_iff_of_within (.root own) chain

end

/-- A system where every type and format is supported. -/
def wholeDevice : ViewDevice Unit := ⟨true, fun _ => true, fun _ _ => none⟩

/-- Four by four pixels, with the two mipmap levels below. -/
def fourByFour : Root Unit where
  texType := .texture2D
  format := ()
  readable := true
  viewFormats := []
  width := 4
  height := 4
  depth := 1
  layers := 1
  mipmapCount := 3
  pixelWidth := 4
  pixelHeight := 4
  mipmapCount_pos := by norm_num
  layers_pos := le_refl _
  layers_eq _ := rfl
  depth_eq _ := rfl

/-- The levels below the last. -/
def belowLast : ViewSettings Unit := { mipmapStart := some 3 }

/-- No layers. -/
def noLayers : ViewSettings Unit := { texType := some .array, layerCount := some 0 }

/-- A view is accepted without mipmap levels, and another without layers. -/
theorem not_chainInside_empty :
    (∃ view, newView wholeDevice (.root fourByFour) belowLast = .ok view ∧
      view.getMipmapCount = 0) ∧
      (∃ view, newView wholeDevice (.root fourByFour) noLayers = .ok view ∧
        view.getSliceCount 0 = 0) ∧
      ¬ ChainInside wholeDevice (.root fourByFour) [belowLast] ∧
      ¬ ChainInside wholeDevice (.root fourByFour) [noLayers] := by
  refine ⟨⟨_, rfl, rfl⟩, ⟨_, rfl, rfl⟩, ?_, ?_⟩
  · intro hchain
    exact absurd hchain.1.mipmaps (by decide)
  · intro hchain
    exact absurd (hchain.1.slices 0 (by decide) (by decide)) (by decide)

end Lhatove.Graphics.View
