import Lhatove.Graphics.RenderTargets
import Lhatove.Image.SliceSizes

/-!
# The storage of textures

`OpenGL::rawTexStorage`. Without `glTexStorage` each image of each level is specified on its
own.

- `Storage.rawTexStorage`: the calls of OpenGL;
- `Storage.images`: the images that `glTexStorage` specifies;
- `Storage.fallback_iff`: when the calls for the single images specify the same.
-/

namespace Lhatove.Opengl

open Graphics (TextureType)

open Lhatove.Image (CompressedFormat getPixelFormatSliceSize)
open Lhatove.Image List

/-- A pixel format. -/
inductive StorageFormat
  | compressed (format : CompressedFormat)
  | r8Unorm
  | other

/-- `OpenGL::TextureFormat`, without its swizzles -/
structure TexFormat where
  internalformat : Nat
  externalformat : Nat
  type : Nat

/-- The arguments of `rawTexStorage`, and the format that `convertPixelFormat` makes of one.
`Texture` asks for sizes that are greater than zero. -/
structure Storage where
  target : TextureType
  levels : Nat
  pixelformat : StorageFormat
  fmt : TexFormat
  width : Nat
  height : Nat
  depth : Nat
  width_range : 0 < width ∧ width < 2 ^ 31
  height_range : 0 < height ∧ height < 2 ^ 31
  depth_range : 0 < depth ∧ depth < 2 ^ 31

/-- What OpenGL has. -/
structure StorageSupport where
  /-- `isTexStorageSupported` -/
  texStorage : Bool
  /-- `bugs.brokenR8PixelFormat`, with OpenGL ES 3 -/
  brokenR8PixelFormat : Bool

/-- A target: the one of a texture, or `GL_TEXTURE_CUBE_MAP_POSITIVE_X + face`. -/
inductive GLTarget
  | texture (type : TextureType)
  | cubeFace (face : Nat)
  deriving DecidableEq

inductive StorageCall
  | texStorage2D (levels internalformat width height : Nat)
  | texStorage3D (levels internalformat width height depth : Nat)
  | texImage2D (target : GLTarget) (level internalformat width height externalformat type : Nat)
  | texImage3D (target : GLTarget)
    (level internalformat width height depth externalformat type : Nat)
  | compressedTexImage2D (target : GLTarget) (level internalformat width height : Nat)
    (imageSize : Int)
  | compressedTexImage3D (target : GLTarget) (level internalformat width height depth : Nat)
    (imageSize : Int)

/-- A `size_t` as `GLsizei` -/
def toGLsizei (size : Nat) : Int := ((size % 2 ^ 64 : Nat) : Int).bmod (2 ^ 32)

namespace Storage

variable (s : Storage)

/-! ## The calls -/

/-- The loop over the faces of a level. -/
def faces (fmt : TexFormat) (level w h : Nat) : List StorageCall :=
  let faces := if s.target = .cube then 6 else 1
  (List.range faces).map fun face =>
    let gltarget : GLTarget := if s.target = .cube then .cubeFace face else .texture s.target
    match s.pixelformat with
    | .compressed format =>
      .compressedTexImage2D gltarget level fmt.internalformat w h
        (toGLsizei (faces * getPixelFormatSliceSize format w h))
    | _ => .texImage2D gltarget level fmt.internalformat w h fmt.externalformat fmt.type

/-- The body of the loop over the levels. -/
def level (fmt : TexFormat) (level w h d : Nat) : List StorageCall :=
  match s.target with
  | .texture2D | .cube => s.faces fmt level w h
  | .array | .volume =>
    match s.pixelformat with
    | .compressed format =>
      [.compressedTexImage3D (.texture s.target) level fmt.internalformat w h d
        (toGLsizei (d * getPixelFormatSliceSize format w h))]
    | _ =>
      [.texImage3D (.texture s.target) level fmt.internalformat w h d fmt.externalformat fmt.type]

/-- The loop over the levels, so many of which are left. -/
def fallback (fmt : TexFormat) : Nat → Nat → Nat → Nat → Nat → List StorageCall
  | 0, _, _, _, _ => []
  | left + 1, level, w, h, d =>
    s.level fmt level w h d ++ fallback fmt left (level + 1) (max (w / 2) 1) (max (h / 2) 1)
      (if s.target = .volume then max (d / 2) 1 else d)

def rawTexStorage (support : StorageSupport) : List StorageCall :=
  let broken := match s.pixelformat with
    | .r8Unorm => support.brokenR8PixelFormat
    | _ => false
  let fmt := if broken then { s.fmt with internalformat := s.fmt.externalformat } else s.fmt
  if support.texStorage && !broken then
    match s.target with
    | .texture2D | .cube => [.texStorage2D s.levels fmt.internalformat s.width s.height]
    | .array | .volume => [.texStorage3D s.levels fmt.internalformat s.width s.height s.depth]
  else s.fallback fmt s.levels 0 s.width s.height s.depth

end Storage

/-! ## The images -/

/-- An image of a texture. One that is compressed has a size in bytes. -/
structure TexImage where
  target : GLTarget
  level : Nat
  width : Nat
  height : Nat
  layers : Nat
  imageSize : Option Int
  deriving DecidableEq

/-- The image that a call specifies. -/
def StorageCall.image : StorageCall → Option TexImage
  | .texStorage2D .. => none
  | .texStorage3D .. => none
  | .texImage2D target level _ width height _ _ => some ⟨target, level, width, height, 1, none⟩
  | .texImage3D target level _ width height depth _ _ =>
    some ⟨target, level, width, height, depth, none⟩
  | .compressedTexImage2D target level _ width height imageSize =>
    some ⟨target, level, width, height, 1, some imageSize⟩
  | .compressedTexImage3D target level _ width height depth imageSize =>
    some ⟨target, level, width, height, depth, some imageSize⟩

namespace Storage

variable (s : Storage)

/-- The layers of an image: the depth of a level of a volume, and all layers of an array. -/
def layers (level : Nat) : Nat :=
  match s.target with
  | .texture2D | .cube => 1
  | .array => s.depth
  | .volume => Image.mipSize s.depth level

/-- The image of a level, for a target. Its bytes are those of its blocks. -/
def imageAt (level : Nat) (target : GLTarget) : TexImage where
  target := target
  level := level
  width := Image.mipSize s.width level
  height := Image.mipSize s.height level
  layers := s.layers level
  imageSize :=
    match s.pixelformat with
    | .compressed format =>
      some (s.layers level *
        format.block.sliceBytes (Image.mipSize s.width level) (Image.mipSize s.height level) : Nat)
    | _ => none

/-- The images of a level: one, or one for each face. -/
def imagesAt (level : Nat) : List TexImage :=
  if s.target = .cube then (List.range 6).map fun face => s.imageAt level (.cubeFace face)
  else [s.imageAt level (.texture s.target)]

/-- The images that `glTexStorage` specifies. -/
def images : List TexImage := (List.range s.levels).flatMap s.imagesAt

/-! ## Sizes -/

theorem toGLsizei_of_lt {size : Nat} (h : size < 2 ^ 31) : toGLsizei size = size := by
  have hmod : size % 2 ^ 64 = size := Nat.mod_eq_of_lt (by omega)
  unfold toGLsizei
  rw [hmod]
  exact Int.bmod_eq_of_le (by omega) (by omega)

theorem toGLsizei_lt (size : Nat) : toGLsizei size < 2 ^ 31 := by
  have hlt := Int.bmod_lt (x := ((size % 2 ^ 64 : Nat) : Int)) (m := 2 ^ 32) (by norm_num)
  exact lt_of_lt_of_le hlt (by norm_num)

theorem toGLsizei_ne {passed bytes : Nat} (h : passed < bytes) : toGLsizei passed ≠ bytes := by
  intro heq
  have hlt := toGLsizei_lt passed
  rw [toGLsizei_of_lt (by omega)] at heq
  omega

theorem toGLsizei_emod (size : Nat) :
    toGLsizei size % (2 ^ 32 : Nat) = ((size % 2 ^ 64 : Nat) : Int) % (2 ^ 32 : Nat) :=
  Int.bmod_emod

theorem toGLsizei_six_ne {bytes : Nat} (h : 0 < bytes) : toGLsizei (6 * bytes) ≠ bytes := by
  intro heq
  have hlt := toGLsizei_lt (6 * bytes)
  have hsmall : 6 * bytes % 2 ^ 64 = 6 * bytes := Nat.mod_eq_of_lt (by omega)
  have hsub : 6 * bytes - bytes = 5 * bytes := by omega
  have hle : bytes ≤ 6 * bytes := by omega
  have hless : bytes < 2 ^ 32 := by omega
  have hmod := toGLsizei_emod (6 * bytes)
  rw [heq, hsmall] at hmod
  -- five times the size is a multiple of `2 ^ 32`, and so is the size
  have hdvd : 2 ^ 32 ∣ 6 * bytes - bytes := (Nat.modEq_iff_dvd' hle).mp (by exact_mod_cast hmod)
  rw [hsub] at hdvd
  have hbytes : 2 ^ 32 ∣ bytes := Nat.Coprime.dvd_of_dvd_mul_left (by norm_num) hdvd
  exact absurd (Nat.le_of_dvd h hbytes) (not_le.mpr hless)

theorem toGLsizei_iff {bytes : Nat} : toGLsizei bytes = bytes ↔ bytes < 2 ^ 31 := by
  constructor
  · intro heq
    have hlt := toGLsizei_lt bytes
    omega
  · exact toGLsizei_of_lt

/-! ## The levels -/

theorem mipSize_succ (size level : Nat) :
    max (mipSize size level / 2) 1 = mipSize size (level + 1) := by
  rw [mipSize, mipSize, Nat.pow_succ, ← Nat.div_div_eq_div_mul]
  omega

theorem mipSize_zero {size : Nat} (h : 0 < size) : mipSize size 0 = size := by
  rw [mipSize, Nat.pow_zero, Nat.div_one]
  omega

/-- The depth that the loop has at a level. -/
def depthAt (level : Nat) : Nat :=
  if s.target = .volume then Image.mipSize s.depth level else s.depth

/-- The calls for a level. -/
def callsAt (fmt : TexFormat) (level : Nat) : List StorageCall :=
  s.level fmt level (Image.mipSize s.width level) (Image.mipSize s.height level) (s.depthAt level)

theorem fallback_eq (fmt : TexFormat) (left level : Nat) :
    s.fallback fmt left level (mipSize s.width level) (mipSize s.height level)
      (s.depthAt level) = (range' level left).flatMap (s.callsAt fmt) := by
  induction left generalizing level with
  | zero => rfl
  | succ left ih =>
    have hdepth : (if s.target = .volume then max (s.depthAt level / 2) 1 else s.depthAt level) =
        s.depthAt (level + 1) := by
      simp only [depthAt]
      split_ifs
      · exact mipSize_succ s.depth level
      · rfl
    rw [fallback, mipSize_succ, mipSize_succ, hdepth, ih, range'_succ, flatMap_cons]
    rfl

/-- Pieces of the same lengths are the same exactly if all that is made of them is. -/
theorem flatMap_eq_iff {α β : Type*} {f g : α → List β} {l : List α}
    (h : ∀ a, (f a).length = (g a).length) : l.flatMap f = l.flatMap g ↔ ∀ a ∈ l, f a = g a := by
  induction l with
  | nil => simp
  | cons a l ih =>
    rw [flatMap_cons, flatMap_cons, forall_mem_cons, ← ih]
    constructor
    · intro heq
      exact append_inj heq (h a)
    · intro heq
      rw [heq.1, heq.2]

/-! ## The images of a level -/

/-- At a level the sizes of the images are those that are passed. -/
def SizesRight (level : Nat) : Prop :=
  ∀ format, s.pixelformat = .compressed format →
    toGLsizei ((if s.target = .cube then 6 else s.layers level) *
      getPixelFormatSliceSize format (Image.mipSize s.width level)
        (Image.mipSize s.height level)) =
    (s.layers level * format.block.sliceBytes (Image.mipSize s.width level)
      (Image.mipSize s.height level) : Nat)

theorem callsAt_length (fmt : TexFormat) (level : Nat) :
    ((s.callsAt fmt level).filterMap StorageCall.image).length = (s.imagesAt level).length := by
  cases htarget : s.target with
  | texture2D =>
    cases hformat : s.pixelformat <;>
      simp [callsAt, Storage.level, faces, htarget, hformat, StorageCall.image, imagesAt]
  | cube =>
    cases hformat : s.pixelformat <;>
      simp [callsAt, Storage.level, faces, htarget, hformat, StorageCall.image, imagesAt,
        range_succ]
  | array =>
    cases hformat : s.pixelformat <;>
      simp [callsAt, Storage.level, htarget, hformat, StorageCall.image, imagesAt]
  | volume =>
    cases hformat : s.pixelformat <;>
      simp [callsAt, Storage.level, htarget, hformat, StorageCall.image, imagesAt]

theorem callsAt_iff (fmt : TexFormat) (level : Nat) :
    (s.callsAt fmt level).filterMap StorageCall.image = s.imagesAt level ↔ s.SizesRight level := by
  cases htarget : s.target with
  | texture2D =>
    cases hformat : s.pixelformat <;>
      simp [callsAt, Storage.level, faces, htarget, hformat, StorageCall.image, imagesAt, imageAt,
        layers, SizesRight, range_succ]
  | cube =>
    cases hformat : s.pixelformat <;>
      simp [callsAt, Storage.level, faces, htarget, hformat, StorageCall.image, imagesAt, imageAt,
        layers, SizesRight, range_succ]
  | array =>
    cases hformat : s.pixelformat <;>
      simp [callsAt, Storage.level, htarget, hformat, StorageCall.image, imagesAt, imageAt, layers,
        SizesRight, depthAt]
  | volume =>
    cases hformat : s.pixelformat <;>
      simp [callsAt, Storage.level, htarget, hformat, StorageCall.image, imagesAt, imageAt, layers,
        SizesRight, depthAt]

/-! ## The calls that specify the same -/

theorem mip_range {size : Nat} (h : 0 < size ∧ size < 2 ^ 31) (level : Nat) :
    0 < mipSize size level ∧ mipSize size level < 2 ^ 31 := by
  have hle := mipSize_le size level
  rw [mipSize_zero h.1] at hle
  exact ⟨mipSize_pos size level, by omega⟩

theorem layers_pos (level : Nat) : 0 < s.layers level := by
  have hdepth := s.depth_range.1
  rw [layers]
  cases s.target with
  | texture2D | cube => exact Nat.one_pos
  | array => exact hdepth
  | volume => exact mipSize_pos s.depth level

theorem layers_cube (h : s.target = .cube) (level : Nat) : s.layers level = 1 := by
  rw [layers, h]

/-- The sizes of a compressed format are right if it has the sizes of its blocks, the texture
is no cube, and its level has fewer than `2 ^ 31` bytes. -/
theorem sizesRight_iff (level : Nat) : s.SizesRight level ↔
    ∀ format, s.pixelformat = .compressed format →
      format.isASTC = false ∧ s.target ≠ .cube ∧
        s.layers level * format.block.sliceBytes (mipSize s.width level)
          (mipSize s.height level) < 2 ^ 31 := by
  obtain ⟨hw, hw'⟩ := mip_range s.width_range level
  obtain ⟨hh, hh'⟩ := mip_range s.height_range level
  refine forall₂_congr fun format _ => ?_
  have hbytes := Image.BlockFormat.sliceBytes_pos (block_usual format) hw hh
  have hlayers := s.layers_pos level
  cases hastc : format.isASTC with
  | true =>
    -- the sizes of the table are too small
    have heighth := eight_sliceSize_le hastc (mipSize s.width level)
      (mipSize s.height level)
    have hless := sliceSize_lt hastc hw hh
    constructor
    · intro hright
      refine absurd hright (toGLsizei_ne ?_)
      split_ifs with hcube
      · rw [s.layers_cube hcube level, Nat.one_mul]
        omega
      · exact Nat.mul_lt_mul_of_pos_left hless hlayers
    · intro hright
      cases hright.1
  | false =>
    rw [sliceSize_eq hastc hw' hh']
    split_ifs with hcube
    · rw [s.layers_cube hcube level, Nat.one_mul]
      constructor
      · intro hright
        exact absurd hright (toGLsizei_six_ne hbytes)
      · intro hright
        exact absurd hcube hright.2.1
    · rw [toGLsizei_iff]
      constructor
      · intro hsmall
        exact ⟨rfl, hcube, hsmall⟩
      · intro hright
        exact hright.2.2

theorem bytes_le (format : CompressedFormat) (level : Nat) :
    s.layers level * format.block.sliceBytes (mipSize s.width level)
        (mipSize s.height level) ≤
      s.layers 0 * format.block.sliceBytes (mipSize s.width 0)
        (mipSize s.height 0) := by
  refine Nat.mul_le_mul ?_ (Image.BlockFormat.sliceBytes_mono _ (mipSize_le _ _)
    (mipSize_le _ _))
  rw [layers, layers]
  cases s.target with
  | texture2D | cube | array => exact le_rfl
  | volume => exact mipSize_le s.depth level

/-- **The fallback specifies the images of `glTexStorage`** exactly for the textures without
levels, those that are not compressed, and those whose format is not ASTC, that are no cubes
and have fewer than `2 ^ 31` bytes in their first level. -/
theorem fallback_iff (fmt : TexFormat) :
    (s.fallback fmt s.levels 0 s.width s.height s.depth).filterMap StorageCall.image = s.images ↔
      s.levels = 0 ∨ ∀ format, s.pixelformat = .compressed format →
        format.isASTC = false ∧ s.target ≠ .cube ∧
          s.layers 0 * format.block.sliceBytes s.width s.height < 2 ^ 31 := by
  have hlevels := s.fallback_eq fmt s.levels 0
  have hdepth : s.depthAt 0 = s.depth := by
    rw [depthAt, mipSize_zero s.depth_range.1, ite_self]
  have hfirst := s.sizesRight_iff 0
  rw [mipSize_zero s.width_range.1, mipSize_zero s.height_range.1] at hfirst hlevels
  rw [hdepth] at hlevels
  rw [hlevels, images, range_eq_range', filterMap_flatMap, flatMap_eq_iff, ← hfirst]
  · constructor
    · intro hall
      rcases Nat.eq_zero_or_pos s.levels with hzero | hpos
      · exact .inl hzero
      · exact .inr ((s.callsAt_iff fmt 0).mp (hall 0 (by simpa using hpos)))
    · rintro (hzero | hright) level hlevel
      · rw [hzero] at hlevel
        cases hlevel
      · refine (s.callsAt_iff fmt level).mpr ((s.sizesRight_iff level).mpr ?_)
        intro format hformat
        obtain ⟨hastc, hcube, hsmall⟩ := (s.sizesRight_iff 0).mp hright format hformat
        exact ⟨hastc, hcube, lt_of_le_of_lt (s.bytes_le format level) hsmall⟩
  · intro level
    exact s.callsAt_length fmt level

/-- One block of 8 bytes for each face. -/
def blockCube : Storage where
  target := .cube
  levels := 1
  pixelformat := .compressed .dxt1Unorm
  fmt := ⟨33776, 0, 0⟩
  width := 4
  height := 4
  depth := 1
  width_range := by norm_num
  height_range := by norm_num
  depth_range := by norm_num

/-- Each face of it is specified with 48 bytes. -/
theorem blockCube_differs :
    ((blockCube.rawTexStorage ⟨false, false⟩).filterMap StorageCall.image) ≠ blockCube.images := by
  decide

end Storage

end Lhatove.Opengl
