import Lhatove.Opengl.Framebuffers

/-!
# The cache of framebuffers

- `attachments`: what the framebuffer of a set has attached, by the texture, slice and mipmap
  level of each target.
- `Good`: each cached framebuffer has the attachments of its set, whose textures are loaded,
  and the one in use is that of the recorded set.
- `Grows`: what loading a texture does to the objects of OpenGL.
-/

namespace Lhatove.Opengl

open Graphics

/-! ## The attachments of a set -/

/-- What a target stands for: the renderbuffer of its texture, or a slice and a mipmap level
of its texture. -/
def Texture.image (t : Texture) (rt : RenderTarget) : Image :=
  if t.renderbuffer ≠ 0 then .renderbuffer t.renderbuffer
  else .texture t.info.texType t.texture rt.mipmap
    (if t.info.texType = .cube then 0 else rt.slice) (if t.info.texType = .cube then rt.slice else 0)

def imageOf (textures : Table Nat Texture) (rt : RenderTarget) : Option Image :=
  (rt.texture.bind textures.lookup).map fun t => t.image rt

/-- The attachments of a set. -/
def attachments (textures : Table Nat Texture) (targets : RenderTargets) : Attachments
  | .color i => targets.colors[i]?.bind (imageOf textures)
  | point =>
    (targets.depthStencil.texture.bind textures.lookup).bind fun t =>
      if framebufferAttachment t.info.format 0 = point then some (t.image targets.depthStencil)
      else none

/-- An image of something that is there. -/
def Image.Alive (gl : OpenGL) : Image → Prop
  | .renderbuffer handle => handle ∈ gl.renderbuffers
  | .texture _ handle _ _ _ => handle ∈ gl.textures

/-! ## OpenGL -/

namespace OpenGL

variable {gl gl' gl'' : OpenGL}

theorem bindFramebuffer_eq (h : gl.boundFramebuffers = gl.bound) (target : FramebufferTarget)
    (n : Nat) :
    gl.bindFramebuffer target n =
      { gl with bound := target.set n gl.bound, boundFramebuffers := target.set n gl.bound } := by
  obtain ⟨framebuffers, textures, renderbuffers, ⟨draw, read⟩, boundFramebuffers⟩ := gl
  obtain rfl : boundFramebuffers = ⟨draw, read⟩ := h
  rw [bindFramebuffer]
  split_ifs with hmodified
  · rfl
  · push Not at hmodified
    dsimp only at hmodified
    cases target with
    | draw =>
      obtain rfl := hmodified.1 (by decide)
      rfl
    | read =>
      obtain rfl := hmodified.2 (by decide)
      rfl
    | all =>
      obtain rfl := hmodified.1 (by decide)
      obtain rfl := hmodified.2 (by decide)
      rfl

/-- Objects are added, and the framebuffer that is drawn to is as before. -/
structure Grows (gl gl' : OpenGL) : Prop where
  synced : gl'.boundFramebuffers = gl'.bound
  draw : gl'.bound.draw = gl.bound.draw
  framebuffers : ∀ n fb, gl.framebuffers.lookup n = some fb → gl'.framebuffers.lookup n = some fb
  zero : gl'.framebuffers.lookup 0 = none
  textures : gl.textures ⊆ gl'.textures
  renderbuffers : gl.renderbuffers ⊆ gl'.renderbuffers

/-- 0 is no framebuffer, the shadow is right, and what is drawn to is there. -/
structure Sane (gl : OpenGL) : Prop where
  synced : gl.boundFramebuffers = gl.bound
  zero : gl.framebuffers.lookup 0 = none
  bound : gl.bound.draw = 0 ∨ (gl.framebuffers.lookup gl.bound.draw).isSome = true

theorem Grows.trans (h : Grows gl gl') (h' : Grows gl' gl'') : Grows gl gl'' where
  synced := h'.synced
  draw := h'.draw.trans h.draw
  framebuffers := fun n fb hn => h'.framebuffers n fb (h.framebuffers n fb hn)
  zero := h'.zero
  textures := h.textures.trans h'.textures
  renderbuffers := h.renderbuffers.trans h'.renderbuffers

theorem Sane.refl (h : Sane gl) : Grows gl gl where
  synced := h.synced
  draw := rfl
  framebuffers := fun _ _ hn => hn
  zero := h.zero
  textures := subset_rfl
  renderbuffers := subset_rfl

theorem Sane.grows (h : Sane gl) (h' : Grows gl gl') : Sane gl' where
  synced := h'.synced
  zero := h'.zero
  bound := by
    rw [h'.draw]
    refine h.bound.imp_right fun hsome => ?_
    obtain ⟨fb, hfb⟩ := Option.isSome_iff_exists.mp hsome
    rw [h'.framebuffers _ _ hfb]
    rfl

theorem lookup_attach {fb : Attachments} (h : gl.framebuffers.lookup gl.bound.draw = some fb)
    (point : AttachmentPoint) (image : Option Image) :
    gl.attach point image = { gl with
      framebuffers := gl.framebuffers.insert gl.bound.draw (Function.update fb point image) } := by
  rw [attach, h]

/-- A framebuffer is new, whatever is attached to it. -/
structure Made (gl gl' : OpenGL) (fbo : Nat) (fb : Attachments) : Prop where
  bound : gl'.bound = ⟨fbo, fbo⟩
  shadow : gl'.boundFramebuffers = ⟨fbo, fbo⟩
  framebuffers : ∀ n, gl'.framebuffers.lookup n =
    if n = fbo then some fb else gl.framebuffers.lookup n
  textures : gl'.textures = gl.textures
  renderbuffers : gl'.renderbuffers = gl.renderbuffers

theorem made_genFramebuffer (h : gl.boundFramebuffers = gl.bound) (choice : Nat) :
    Made gl ((gl.genFramebuffer choice).2.bindFramebuffer .all (gl.genFramebuffer choice).1)
      (gl.genFramebuffer choice).1 fun _ => none := by
  rw [@bindFramebuffer_eq (gl.genFramebuffer choice).2 h]
  exact ⟨rfl, rfl, fun n => Table.lookup_insert_eq .., rfl, rfl⟩

theorem genFramebuffer_new (gl : OpenGL) (choice : Nat) :
    (gl.genFramebuffer choice).1 ≠ 0 ∧
      gl.framebuffers.lookup (gl.genFramebuffer choice).1 = none :=
  ⟨unused_ne_zero _ _, Table.lookup_unused _ _⟩

section Made

variable {fbo : Nat} {fb : Attachments}

theorem Made.attach (h : Made gl gl' fbo fb) (point : AttachmentPoint) (image : Option Image) :
    Made gl (gl'.attach point image) fbo (Function.update fb point image) := by
  have hlookup : gl'.framebuffers.lookup gl'.bound.draw = some fb := by
    rw [h.bound, h.framebuffers, if_pos rfl]
  rw [lookup_attach hlookup]
  refine ⟨h.bound, h.shadow, fun n => ?_, h.textures, h.renderbuffers⟩
  rw [Table.lookup_insert_eq, h.framebuffers, h.bound]
  split_ifs <;> rfl

theorem Made.framebufferRenderbuffer (h : Made gl gl' fbo fb) {handle : Nat} (hzero : handle ≠ 0)
    (hmem : handle ∈ gl'.renderbuffers) (point : AttachmentPoint) :
    Made gl (gl'.framebufferRenderbuffer point handle) fbo
      (Function.update fb point (some (.renderbuffer handle))) := by
  rw [OpenGL.framebufferRenderbuffer, if_neg hzero, if_pos hmem]
  exact h.attach _ _

theorem Made.framebufferTexture (h : Made gl gl' fbo fb) {handle : Nat} (hzero : handle ≠ 0)
    (hmem : handle ∈ gl'.textures) (point : AttachmentPoint) (texType : TextureType)
    (level layer face : Int) :
    Made gl (gl'.framebufferTexture point texType handle level layer face) fbo
      (Function.update fb point (some (.texture texType handle level layer face))) := by
  rw [OpenGL.framebufferTexture, if_neg hzero, if_pos hmem]
  exact h.attach _ _

theorem Made.restore (h : Made gl gl' fbo fb) (hgl : Sane gl)
    (hnew : gl.framebuffers.lookup fbo = none) (hzero : fbo ≠ 0) :
    Grows gl (gl'.bindFramebuffer .all gl.bound.draw) := by
  rw [bindFramebuffer_eq (h.shadow.trans h.bound.symm)]
  refine ⟨rfl, rfl, fun n fb' hn => ?_, ?_, h.textures.ge, h.renderbuffers.ge⟩
  · rw [h.framebuffers, if_neg]
    · exact hn
    · rintro rfl
      cases hnew.symm.trans hn
  · rw [h.framebuffers, if_neg hzero.symm]
    exact hgl.zero

end Made

theorem lookup_deleteFramebuffer (gl : OpenGL) (fbo n : Nat) :
    (gl.deleteFramebuffer fbo).framebuffers.lookup n =
      if n = fbo then none else gl.framebuffers.lookup n :=
  Table.lookup_erase_eq ..

theorem deleteFramebuffer_synced (h : gl.boundFramebuffers = gl.bound) (fbo : Nat) :
    (gl.deleteFramebuffer fbo).boundFramebuffers = (gl.deleteFramebuffer fbo).bound :=
  congrArg (reset fbo) h

theorem deleteFramebuffer_draw {fbo : Nat} (h : gl.bound.draw ≠ fbo ∨ gl.bound.draw = 0) :
    (gl.deleteFramebuffer fbo).bound.draw = gl.bound.draw := by
  show (if gl.bound.draw = fbo then 0 else gl.bound.draw) = gl.bound.draw
  split_ifs with heq
  · exact (h.resolve_left (not_not_intro heq)).symm
  · rfl

end OpenGL

/-! ## Loading a texture -/

namespace Context

theorem createFBO_grows {gl : OpenGL} (h : gl.Sane) (t : Texture) (choice : Nat)
    (hzero : t.texture ≠ 0) (hmem : t.texture ∈ gl.textures) :
    gl.Grows (createFBO t choice gl).2 ∧ (createFBO t choice gl).1 ≠ 0 ∧
      gl.framebuffers.lookup (createFBO t choice gl).1 = none ∧
      ((createFBO t choice gl).2.framebuffers.lookup (createFBO t choice gl).1).isSome = true := by
  obtain ⟨hnew, hnone⟩ := gl.genFramebuffer_new choice
  have hmade := OpenGL.made_genFramebuffer h.synced choice
  have hmade := hmade.framebufferTexture hzero (hmade.textures ▸ hmem)
    (framebufferAttachment t.info.format 0) t.info.texType 0 0 0
  have hcurrent : gl.boundFramebuffers.draw = gl.bound.draw := by rw [h.synced]
  refine ⟨?_, hnew, hnone, ?_⟩
  · have := hmade.restore h hnone hnew
    rw [← hcurrent] at this
    exact this
  · have hlookup := hmade.framebuffers (gl.genFramebuffer choice).1
    rw [if_pos rfl] at hlookup
    have hsame : (createFBO t choice gl).2.framebuffers = _ :=
      congrArg OpenGL.framebuffers (OpenGL.bindFramebuffer_eq
        (hmade.shadow.trans hmade.bound.symm) .all gl.boundFramebuffers.draw)
    rw [hsame]
    exact Option.isSome_iff_exists.mpr ⟨_, hlookup⟩

theorem clearRenderbuffer_grows {gl : OpenGL} (h : gl.Sane) (point : AttachmentPoint)
    {buffer : Nat} (choice : Nat) (hzero : buffer ≠ 0) (hmem : buffer ∈ gl.renderbuffers) :
    gl.Grows (clearRenderbuffer point buffer choice gl) ∧
      (clearRenderbuffer point buffer choice gl).renderbuffers = gl.renderbuffers := by
  obtain ⟨hnew, hnone⟩ := gl.genFramebuffer_new choice
  have hmade := OpenGL.made_genFramebuffer h.synced choice
  have hmade := hmade.framebufferRenderbuffer hzero (hmade.renderbuffers ▸ hmem) point
  have hcurrent : gl.boundFramebuffers.draw = gl.bound.draw := by rw [h.synced]
  rw [clearRenderbuffer, hcurrent]
  generalize gl.genFramebuffer choice = gen at hnew hnone hmade
  obtain ⟨fbo, made⟩ := gen
  dsimp only at hnew hnone hmade ⊢
  have hgrows := hmade.restore h hnone hnew
  have hsame := congrArg OpenGL.renderbuffers (OpenGL.bindFramebuffer_eq
    (hmade.shadow.trans hmade.bound.symm) .all gl.bound.draw)
  generalize OpenGL.bindFramebuffer .all gl.bound.draw _ = restored at hgrows hsame ⊢
  refine ⟨⟨OpenGL.deleteFramebuffer_synced hgrows.synced fbo, ?_, fun n fb hn => ?_, ?_,
    hgrows.textures, hgrows.renderbuffers⟩, hsame.trans hmade.renderbuffers⟩
  · rw [OpenGL.deleteFramebuffer_draw, hgrows.draw]
    rw [hgrows.draw]
    refine (em (gl.bound.draw = 0)).symm.imp_left fun hdraw => ?_
    rintro rfl
    have := h.bound.resolve_left hdraw
    rw [hnone] at this
    cases this
  · rw [OpenGL.lookup_deleteFramebuffer, if_neg]
    · exact hgrows.framebuffers n fb hn
    · rintro rfl
      cases hnone.symm.trans hn
  · rw [OpenGL.lookup_deleteFramebuffer, if_neg hnew.symm]
    exact hgrows.zero

theorem newRenderbuffer_grows {gl : OpenGL} (h : gl.Sane) (t : Texture) (answers : LoadAnswers) :
    gl.Grows (newRenderbuffer t answers gl).2 ∧
      ((answers.renderbufferStatus ≠ none ∧
          (newRenderbuffer t answers gl).1 = { t with renderbuffer := 0, actualSamples := 1 }) ∨
        ∃ buffer samples, answers.renderbufferStatus = none ∧
          (newRenderbuffer t answers gl).1 =
            { t with renderbuffer := buffer, actualSamples := samples } ∧
          (1 < samples ↔ 1 < t.actualSamples) ∧ buffer ≠ 0 ∧ buffer ∉ gl.renderbuffers ∧
          buffer ∈ (newRenderbuffer t answers gl).2.renderbuffers) := by
  have hbuffer := unused_notMem gl.renderbuffers answers.renderbuffer
  have hzero := unused_ne_zero gl.renderbuffers answers.renderbuffer
  rw [newRenderbuffer]
  generalize unused gl.renderbuffers answers.renderbuffer = buffer at hbuffer hzero ⊢
  have hinsert : gl.Grows { gl with renderbuffers := insert buffer gl.renderbuffers } :=
    { h.refl with renderbuffers := Finset.subset_insert _ _ }
  obtain ⟨hgrows, hsame⟩ := clearRenderbuffer_grows (h.grows hinsert)
    (framebufferAttachment t.info.format 0) answers.temporary hzero (Finset.mem_insert_self _ _)
  have hgrows' := hinsert.trans hgrows
  cases hstatus : answers.renderbufferStatus with
  | none =>
    refine ⟨hgrows', .inr ⟨buffer, _, rfl, rfl, ?_, hzero, hbuffer, ?_⟩⟩
    · split_ifs with hmany
      · refine iff_of_true (lt_max_of_lt_right ?_) hmany
        omega
      · exact .rfl
    · dsimp only
      rw [hsame]
      exact Finset.mem_insert_self _ _
  | some status =>
    refine ⟨{ hgrows' with renderbuffers := ?_ }, .inl ⟨Option.some_ne_none _, rfl⟩⟩
    rw [hsame, Finset.erase_insert hbuffer]

end Context

/-! ## Names of textures -/

/-- The names that textures have are there, and no two have the same one. -/
def Owned (name : Texture → Nat) (live : Nat → Prop) (textures : Table Nat Texture) : Prop :=
  ∀ a t, textures.lookup a = some t → name t ≠ 0 →
    live (name t) ∧ ∀ b t', textures.lookup b = some t' → name t' = name t → b = a

namespace Owned

variable {name : Texture → Nat} {live live' : Nat → Prop} {textures : Table Nat Texture} {a : Nat}
  {t : Texture}

theorem imp (h : Owned name live textures)
    (hlive : ∀ a t, textures.lookup a = some t → name t ≠ 0 → live (name t) → live' (name t)) :
    Owned name live' textures :=
  fun b t' ht hzero => ⟨hlive b t' ht hzero (h b t' ht hzero).1, (h b t' ht hzero).2⟩

theorem insert (h : Owned name live textures) (hnew : name t ≠ 0 → live (name t) ∧
    ∀ b t', b ≠ a → textures.lookup b = some t' → name t' ≠ name t) :
    Owned name live (textures.insert a t) := by
  intro b t' ht hzero
  rw [Table.lookup_insert_eq] at ht
  split_ifs at ht with hb
  · cases ht
    refine ⟨(hnew hzero).1, fun c t'' ht'' hsame => ?_⟩
    rw [Table.lookup_insert_eq] at ht''
    split_ifs at ht'' with hc
    · exact hc.trans hb.symm
    · exact absurd hsame ((hnew hzero).2 c t'' hc ht'')
  · obtain ⟨hlive, hunique⟩ := h b t' ht hzero
    refine ⟨hlive, fun c t'' ht'' hsame => ?_⟩
    rw [Table.lookup_insert_eq] at ht''
    split_ifs at ht'' with hc
    · cases ht''
      rw [hc]
      by_contra hne
      exact (hnew (hsame ▸ hzero)).2 b t' (.symm hne) ht hsame.symm
    · exact hunique c t'' ht'' hsame

theorem erase (h : Owned name live textures) : Owned name live (textures.erase a) := by
  intro b t' ht hzero
  rw [Table.lookup_erase_eq] at ht
  split_ifs at ht with hb
  obtain ⟨hlive, hunique⟩ := h b t' ht hzero
  refine ⟨hlive, fun c t'' ht'' hsame => ?_⟩
  rw [Table.lookup_erase_eq] at ht''
  split_ifs at ht'' with hc
  exact hunique c t'' ht'' hsame

end Owned

/-! ## Sets that have a framebuffer -/

/-- A texture without objects of OpenGL. -/
structure Texture.Idle (t : Texture) : Prop where
  fbo : t.fbo = 0
  texture : t.texture = 0
  renderbuffer : t.renderbuffer = 0

/-- A texture with all objects that `loadVolatile` makes for it. -/
structure Texture.Whole (maxSamples : Int) (t : Texture) : Prop where
  renderbuffer : t.renderbuffer ≠ 0 ↔
    t.readable = false ∨ 1 < min t.info.requestedMSAA maxSamples
  texture : t.texture ≠ 0 ↔ t.readable = true
  samples : 1 < t.actualSamples ↔ 1 < min t.info.requestedMSAA maxSamples

theorem Texture.Whole.not_idle {maxSamples : Int} {t : Texture} (h : t.Whole maxSamples) :
    ¬t.Idle := by
  intro hidle
  have hreadable : ¬t.readable = true := fun hr => h.texture.mpr hr hidle.texture
  exact h.renderbuffer.mpr (.inl (Bool.eq_false_of_not_eq_true hreadable)) hidle.renderbuffer

theorem Texture.Idle.not_loaded {t : Texture} (h : t.Idle) :
    ¬(t.texture ≠ 0 ∨ t.renderbuffer ≠ 0) :=
  not_or.mpr ⟨not_not_intro h.texture, not_not_intro h.renderbuffer⟩

theorem Texture.Whole.loaded {maxSamples : Int} {t : Texture} (h : t.Whole maxSamples) :
    t.texture ≠ 0 ∨ t.renderbuffer ≠ 0 := by
  by_cases hreadable : t.readable = true
  · exact .inl (h.texture.mpr hreadable)
  · exact .inr (h.renderbuffer.mpr (.inl (Bool.eq_false_of_not_eq_true hreadable)))

/-- A texture that can be drawn to, with more than one sample or not. -/
structure Drawable (maxSamples : Int) (many : Prop) (t : Texture) : Prop where
  target : t.info.isRenderTarget = true
  whole : t.Whole maxSamples
  samples : 1 < min t.info.requestedMSAA maxSamples ↔ many

/-- A set whose textures can be drawn to together; none of them is `busy`. -/
structure Ready (maxSamples : Int) (busy : Option Nat) (many : Prop)
    (textures : Table Nat Texture) (targets : RenderTargets) : Prop where
  first : targets.firstTarget.texture ≠ none
  colors : ∀ rt ∈ targets.colors, ∃ a t, rt.texture = some a ∧ some a ≠ busy ∧
    textures.lookup a = some t ∧ Drawable maxSamples many t ∧
    isPixelFormatDepthStencil t.info.format = false
  depthStencil : ∀ a, targets.depthStencil.texture = some a → some a ≠ busy ∧
    ∃ t, textures.lookup a = some t ∧ Drawable maxSamples many t ∧
      isPixelFormatDepthStencil t.info.format = true

theorem hasTexture_iff {a : Nat} {targets : RenderTargets} :
    hasTexture a targets = true ↔
      (∃ rt ∈ targets.colors, rt.texture = some a) ∨ targets.depthStencil.texture = some a := by
  simp [hasTexture]

theorem hasTexture_first {a : Nat} {targets : RenderTargets}
    (h : targets.firstTarget.texture = some a) : hasTexture a targets = true := by
  rw [hasTexture_iff]
  rw [RenderTargets.firstTarget] at h
  cases hcolors : targets.colors with
  | nil =>
    rw [hcolors] at h
    exact .inr h
  | cons rt colors =>
    rw [hcolors] at h
    exact .inl ⟨rt, List.mem_cons_self, h⟩

section Congr

variable {maxSamples : Int} {busy busy' : Option Nat} {many : Prop}
  {textures textures' : Table Nat Texture} {targets : RenderTargets}

theorem imageOf_congr {rt : RenderTarget}
    (h : ∀ b, rt.texture = some b → textures'.lookup b = textures.lookup b) :
    imageOf textures' rt = imageOf textures rt := by
  rw [imageOf, imageOf]
  cases htexture : rt.texture with
  | none => rfl
  | some b => rw [Option.bind_some, Option.bind_some, h b htexture]

theorem attachments_congr
    (h : ∀ b, hasTexture b targets = true → textures'.lookup b = textures.lookup b) :
    attachments textures' targets = attachments textures targets := by
  have hdepth : targets.depthStencil.texture.bind textures'.lookup =
      targets.depthStencil.texture.bind textures.lookup := by
    cases htexture : targets.depthStencil.texture with
    | none => rfl
    | some b => exact h b (hasTexture_iff.mpr (.inr htexture))
  funext point
  cases point with
  | color i =>
    rw [attachments, attachments]
    cases hrt : targets.colors[i]? with
    | none => rfl
    | some rt =>
      refine imageOf_congr fun b hb => h b (hasTexture_iff.mpr (.inl ⟨rt, ?_, hb⟩))
      exact List.mem_of_getElem? hrt
  | depth | stencil | depthStencil => rw [attachments, attachments, hdepth] <;> simp

theorem Ready.living (h : Ready maxSamples busy many textures targets) {a : Nat}
    (ha : hasTexture a targets = true) :
    some a ≠ busy ∧ ∃ t, textures.lookup a = some t ∧ Drawable maxSamples many t := by
  rcases hasTexture_iff.mp ha with ⟨rt, hrt, hb⟩ | hb
  · obtain ⟨b, t, hb', hbusy, hlookup, hdrawable, -⟩ := h.colors rt hrt
    cases hb'.symm.trans hb
    exact ⟨hbusy, t, hlookup, hdrawable⟩
  · obtain ⟨hbusy, t, hlookup, hdrawable, -⟩ := h.depthStencil a hb
    exact ⟨hbusy, t, hlookup, hdrawable⟩

theorem Ready.congr (h : Ready maxSamples busy many textures targets)
    (hsame : ∀ b, hasTexture b targets = true →
      textures'.lookup b = textures.lookup b ∧ some b ≠ busy') :
    Ready maxSamples busy' many textures' targets where
  first := h.first
  colors := by
    intro rt hrt
    obtain ⟨a, t, ha, -, hlookup, hdrawable⟩ := h.colors rt hrt
    obtain ⟨hsame, hbusy⟩ := hsame a (hasTexture_iff.mpr (.inl ⟨rt, hrt, ha⟩))
    exact ⟨a, t, ha, hbusy, hsame.trans hlookup, hdrawable⟩
  depthStencil := by
    intro a ha
    obtain ⟨-, t, hlookup, hdrawable⟩ := h.depthStencil a ha
    obtain ⟨hsame, hbusy⟩ := hsame a (hasTexture_iff.mpr (.inr ha))
    exact ⟨hbusy, t, hsame.trans hlookup, hdrawable⟩

end Congr

/-! ## The invariant -/

/-- The cached framebuffers and the textures, of which `busy` is being loaded. -/
structure Good (maxSamples : Int) (busy : Option Nat) (s : Context) : Prop where
  synced : s.gl.boundFramebuffers = s.gl.bound
  zero : s.gl.framebuffers.lookup 0 = none
  cached : ∀ targets fbo, s.framebufferObjects.lookup targets = some fbo → fbo ≠ 0 →
    s.gl.framebuffers.lookup fbo = some (attachments s.textures targets) ∧
      ∃ many, Ready maxSamples busy many s.textures targets
  distinct : ∀ targets targets' fbo, s.framebufferObjects.lookup targets = some fbo →
    s.framebufferObjects.lookup targets' = some fbo → fbo ≠ 0 → targets = targets'
  apart : ∀ a t targets, s.textures.lookup a = some t → t.fbo ≠ 0 →
    s.framebufferObjects.lookup targets ≠ some t.fbo
  fbos : Owned Texture.fbo (fun n => (s.gl.framebuffers.lookup n).isSome = true) s.textures
  handles : Owned Texture.texture (· ∈ s.gl.textures) s.textures
  renderbuffers : Owned Texture.renderbuffer (· ∈ s.gl.renderbuffers) s.textures
  whole : ∀ a t, s.textures.lookup a = some t → some a ≠ busy → t.Idle ∨ t.Whole maxSamples

/-- A texture is not drawn to by any cached framebuffer. -/
def Free (a : Nat) (s : Context) : Prop :=
  ∀ targets fbo, s.framebufferObjects.lookup targets = some fbo → fbo ≠ 0 →
    hasTexture a targets = false

namespace Good

variable {maxSamples : Int} {busy : Option Nat} {s s' : Context} {a : Nat} {t : Texture}

theorem free_of_idle (h : Good maxSamples busy s)
    (hidle : ∀ t, s.textures.lookup a = some t → t.Idle) : Free a s := by
  intro targets fbo hfbo hzero
  by_contra hhas
  obtain ⟨-, many, hready⟩ := h.cached targets fbo hfbo hzero
  obtain ⟨-, t, hlookup, hdrawable⟩ := hready.living (Bool.eq_true_of_not_eq_false hhas)
  exact hdrawable.whole.not_idle (hidle t hlookup)

theorem busy_of_free (h : Good maxSamples none s) (hfree : Free a s) :
    Good maxSamples (some a) s where
  synced := h.synced
  zero := h.zero
  cached := by
    intro targets fbo hfbo hzero
    obtain ⟨hlookup, many, hready⟩ := h.cached targets fbo hfbo hzero
    refine ⟨hlookup, many, hready.congr fun b hb => ⟨rfl, ?_⟩⟩
    rintro ⟨⟩
    rw [hfree targets fbo hfbo hzero] at hb
    cases hb
  distinct := h.distinct
  apart := h.apart
  fbos := h.fbos
  handles := h.handles
  renderbuffers := h.renderbuffers
  whole := fun b t ht _ => h.whole b t ht (Option.some_ne_none b)

theorem done (h : Good maxSamples (some a) s)
    (hwhole : ∀ t, s.textures.lookup a = some t → t.Idle ∨ t.Whole maxSamples) :
    Good maxSamples none s where
  synced := h.synced
  zero := h.zero
  cached := by
    intro targets fbo hfbo hzero
    obtain ⟨hlookup, many, hready⟩ := h.cached targets fbo hfbo hzero
    exact ⟨hlookup, many, hready.congr fun b _ => ⟨rfl, Option.some_ne_none b⟩⟩
  distinct := h.distinct
  apart := h.apart
  fbos := h.fbos
  handles := h.handles
  renderbuffers := h.renderbuffers
  whole := by
    intro b t ht _
    by_cases hb : b = a
    · subst hb
      exact hwhole t ht
    · exact h.whole b t ht fun hsome => hb (Option.some.inj hsome)

/-- A name that a texture is given: the one that it has, or a new one. -/
def Given (old new : Nat → Prop) (kept : Option Nat) (n : Nat) : Prop :=
  n ≠ 0 → kept = some n ∨ (new n ∧ ¬old n)

theorem owned_given {name : Texture → Nat} {old new : Nat → Prop} {textures : Table Nat Texture}
    (h : Owned name old textures) (hmono : ∀ n, old n → new n)
    (hgiven : Given old new ((textures.lookup a).map name) (name t)) :
    Owned name new (textures.insert a t) := by
  refine (h.imp fun _ _ _ _ => hmono _).insert fun hzero => ?_
  rcases hgiven hzero with hkept | ⟨hnew, hold⟩
  · obtain ⟨t', ht', hsame⟩ := Option.map_eq_some_iff.mp hkept
    have hzero' : name t' ≠ 0 := hsame ▸ hzero
    rw [← hsame]
    refine ⟨hmono _ (h a t' ht' hzero').1, fun b t'' hb ht'' hsame' => ?_⟩
    exact hb ((h a t' ht' hzero').2 b t'' ht'' hsame')
  · refine ⟨hnew, fun b t' _ ht' hsame => ?_⟩
    exact hold (hsame ▸ (h b t' ht' (hsame ▸ hzero)).1)

theorem setTexture (h : Good maxSamples (some a) s) {gl : OpenGL} (hgrows : s.gl.Grows gl)
    (hfbo : Given (fun n => (s.gl.framebuffers.lookup n).isSome = true)
      (fun n => (gl.framebuffers.lookup n).isSome = true)
      ((s.textures.lookup a).map Texture.fbo) t.fbo)
    (htexture : Given (· ∈ s.gl.textures) (· ∈ gl.textures)
      ((s.textures.lookup a).map Texture.texture) t.texture)
    (hrenderbuffer : Given (· ∈ s.gl.renderbuffers) (· ∈ gl.renderbuffers)
      ((s.textures.lookup a).map Texture.renderbuffer) t.renderbuffer) :
    Good maxSamples (some a) { s with gl := gl, textures := s.textures.insert a t } where
  synced := hgrows.synced
  zero := hgrows.zero
  cached := by
    intro targets fbo hfbo hzero
    obtain ⟨hlookup, many, hready⟩ := h.cached targets fbo hfbo hzero
    have hsame : ∀ b, hasTexture b targets = true →
        (s.textures.insert a t).lookup b = s.textures.lookup b ∧ some b ≠ some a := by
      intro b hb
      have hne := (hready.living hb).1
      exact ⟨AList.lookup_insert_ne fun heq => hne (congrArg some heq), hne⟩
    rw [attachments_congr fun b hb => (hsame b hb).1]
    exact ⟨hgrows.framebuffers _ _ hlookup, many, hready.congr hsame⟩
  distinct := h.distinct
  apart := by
    intro b t' targets ht' hzero htargets
    rw [Table.lookup_insert_eq] at ht'
    split_ifs at ht' with hb
    · cases ht'
      rcases hfbo hzero with hkept | ⟨-, hold⟩
      · obtain ⟨t', ht', hsame⟩ := Option.map_eq_some_iff.mp hkept
        exact h.apart a t' targets ht' (hsame ▸ hzero) (hsame ▸ htargets)
      · refine hold ?_
        show (s.gl.framebuffers.lookup t.fbo).isSome = true
        rw [(h.cached targets _ htargets hzero).1]
        rfl
    · exact h.apart b t' targets ht' hzero htargets
  fbos := by
    refine owned_given h.fbos (fun n hn => ?_) hfbo
    obtain ⟨fb, hfb⟩ := Option.isSome_iff_exists.mp hn
    rw [hgrows.framebuffers n fb hfb]
    rfl
  handles := owned_given h.handles (fun n hn => hgrows.textures hn) htexture
  renderbuffers := owned_given h.renderbuffers (fun n hn => hgrows.renderbuffers hn) hrenderbuffer
  whole := by
    intro b t' ht' hb
    rw [AList.lookup_insert_ne fun heq => hb (congrArg some heq)] at ht'
    exact h.whole b t' ht' hb

end Good

/-! ## Unloading a texture -/

section Deleted

variable {fbos : List (Sigma fun _ : RenderTargets => Nat)} {gl : OpenGL}

/-- Framebuffers are deleted one after the other. -/
def deleteAll (fbos : List (Sigma fun _ : RenderTargets => Nat)) (gl : OpenGL) : OpenGL :=
  fbos.foldl (fun gl entry => gl.deleteFramebuffer entry.2) gl

theorem lookup_deleteAll (n : Nat) :
    (deleteAll fbos gl).framebuffers.lookup n =
      if n ∈ fbos.map Sigma.snd then none else gl.framebuffers.lookup n := by
  induction fbos generalizing gl with
  | nil => rfl
  | cons entry fbos ih =>
    refine ih.trans ?_
    simp only [OpenGL.lookup_deleteFramebuffer, List.map_cons, List.mem_cons]
    by_cases hfbos : n ∈ fbos.map Sigma.snd
    · simp only [hfbos, or_true, if_true]
    · by_cases hentry : n = entry.2 <;> simp [hfbos, hentry]

theorem deleteAll_synced (h : gl.boundFramebuffers = gl.bound) :
    (deleteAll fbos gl).boundFramebuffers = (deleteAll fbos gl).bound := by
  induction fbos generalizing gl with
  | nil => exact h
  | cons entry fbos ih => exact ih (OpenGL.deleteFramebuffer_synced h entry.2)

theorem deleteAll_draw (h : gl.bound.draw = 0 ∨ gl.bound.draw ∉ fbos.map Sigma.snd) :
    (deleteAll fbos gl).bound.draw = gl.bound.draw := by
  induction fbos generalizing gl with
  | nil => rfl
  | cons entry fbos ih =>
    have hfirst : (gl.deleteFramebuffer entry.2).bound.draw = gl.bound.draw := by
      refine OpenGL.deleteFramebuffer_draw ?_
      rcases h with h | h
      · exact .inr h
      · exact .inl fun heq => h (heq ▸ List.mem_cons_self)
    refine (ih (h.imp hfirst.trans fun h => ?_)).trans hfirst
    rw [hfirst]
    exact fun hmem => h (List.mem_cons_of_mem _ hmem)

theorem deleteAll_objects :
    (deleteAll fbos gl).textures = gl.textures ∧
      (deleteAll fbos gl).renderbuffers = gl.renderbuffers := by
  induction fbos generalizing gl with
  | nil => exact ⟨rfl, rfl⟩
  | cons entry fbos ih => exact ih

end Deleted

/-- What unloading a texture leaves. -/
structure Unloaded (a : Nat) (t : Texture) (s s' : Context) : Prop where
  synced : s.gl.boundFramebuffers = s.gl.bound → s'.gl.boundFramebuffers = s'.gl.bound
  dropped : ∀ targets fbo, s'.framebufferObjects.lookup targets = some fbo →
    s.framebufferObjects.lookup targets = some fbo
  kept : ∀ targets, hasTexture a targets = false →
    s'.framebufferObjects.lookup targets = s.framebufferObjects.lookup targets
  free : t.info.isRenderTarget = true → ¬t.Idle → ∀ targets, hasTexture a targets = true →
    s'.framebufferObjects.lookup targets = none
  absent : ∀ n, s.gl.framebuffers.lookup n = none → s'.gl.framebuffers.lookup n = none
  framebuffers : ∀ n, n ≠ 0 → n ≠ t.fbo →
    (∀ targets, s.framebufferObjects.lookup targets = some n → hasTexture a targets = false) →
    s'.gl.framebuffers.lookup n = s.gl.framebuffers.lookup n
  draw : (s.gl.bound.draw = 0 ∨ s.gl.bound.draw ≠ t.fbo ∧
    ∀ targets, s.framebufferObjects.lookup targets = some s.gl.bound.draw →
      hasTexture a targets = false) → s'.gl.bound.draw = s.gl.bound.draw
  handles : s'.gl.textures = s.gl.textures.erase t.texture
  renderbuffers : s'.gl.renderbuffers = s.gl.renderbuffers.erase t.renderbuffer
  textures : s'.textures =
    s.textures.insert a { t with fbo := 0, renderbuffer := 0, texture := 0 }
  renderTargets : s'.renderTargets = s.renderTargets
  temporaryTextures : s'.temporaryTextures = s.temporaryTextures
  internalBackbuffer : s'.internalBackbuffer = s.internalBackbuffer
  internalBackbufferFBO : s'.internalBackbufferFBO = s.internalBackbufferFBO

theorem unloaded_of_gl {a : Nat} {t : Texture} {s : Context} {gl : OpenGL}
    {fbos : List (Sigma fun _ : RenderTargets => Nat)} {cache : Table RenderTargets Nat}
    (hfbos : ∀ entry ∈ fbos, s.framebufferObjects.lookup entry.1 = some entry.2 ∧
      hasTexture a entry.1 = true)
    (hcache : ∀ targets, cache.lookup targets = s.framebufferObjects.lookup targets ∨
      cache.lookup targets = none ∧ hasTexture a targets = true)
    (hfree : t.info.isRenderTarget = true → ¬t.Idle → ∀ targets, hasTexture a targets = true →
      cache.lookup targets = none)
    (hgl : gl = if t.fbo ≠ 0 then (deleteAll fbos s.gl).deleteFramebuffer t.fbo
      else deleteAll fbos s.gl) :
    Unloaded a t s { s with
      gl := { gl with
        renderbuffers := gl.renderbuffers.erase t.renderbuffer
        textures := gl.textures.erase t.texture }
      framebufferObjects := cache
      textures := s.textures.insert a { t with fbo := 0, renderbuffer := 0, texture := 0 } } := by
  have hobjects := @deleteAll_objects fbos s.gl
  have hgl' : gl.textures = s.gl.textures ∧ gl.renderbuffers = s.gl.renderbuffers := by
    rw [hgl]
    split_ifs <;> exact hobjects
  have hlookup : ∀ n, n ≠ 0 → gl.framebuffers.lookup n =
      if n = t.fbo ∨ n ∈ fbos.map Sigma.snd then none else s.gl.framebuffers.lookup n := by
    intro n hn
    rw [hgl]
    split_ifs with hfbo hor hor
    · rw [OpenGL.lookup_deleteFramebuffer, lookup_deleteAll]
      rcases hor with hor | hor <;> simp [hor]
    · rw [OpenGL.lookup_deleteFramebuffer, lookup_deleteAll, if_neg (fun h => hor (.inl h)),
        if_neg (fun h => hor (.inr h))]
    · rw [lookup_deleteAll, if_pos]
      refine hor.resolve_left fun h => ?_
      rw [not_not] at hfbo
      exact hn (h.trans hfbo)
    · rw [lookup_deleteAll, if_neg (fun h => hor (.inr h))]
  have hmem : ∀ n, (∀ targets, s.framebufferObjects.lookup targets = some n →
      hasTexture a targets = false) → n ∉ fbos.map Sigma.snd := by
    intro n hn hmem
    obtain ⟨entry, hentry, rfl⟩ := List.mem_map.mp hmem
    have hhas := hn entry.1 (hfbos entry hentry).1
    rw [(hfbos entry hentry).2] at hhas
    cases hhas
  refine { synced := fun h => ?_, dropped := fun targets fbo hfbo => ?_, kept := fun targets h => ?_,
           free := hfree, absent := fun n hn => ?_, framebuffers := fun n hn hfbo h => ?_,
           draw := fun h => ?_, handles := ?_, renderbuffers := ?_, textures := rfl,
           renderTargets := rfl, temporaryTextures := rfl, internalBackbuffer := rfl,
           internalBackbufferFBO := rfl }
  · show gl.boundFramebuffers = gl.bound
    rw [hgl]
    split_ifs
    · exact OpenGL.deleteFramebuffer_synced (deleteAll_synced h) _
    · exact deleteAll_synced h
  · rcases hcache targets with heq | ⟨hnone, -⟩
    · exact heq.symm.trans hfbo
    · cases hnone.symm.trans hfbo
  · refine (hcache targets).resolve_right ?_
    rw [h]
    exact fun hfalse => Bool.false_ne_true hfalse.2
  · show gl.framebuffers.lookup n = none
    rw [hgl]
    split_ifs
    · rw [OpenGL.lookup_deleteFramebuffer, lookup_deleteAll, hn]
      split_ifs <;> rfl
    · rw [lookup_deleteAll, hn]
      split_ifs <;> rfl
  · show gl.framebuffers.lookup n = _
    rw [hlookup n hn, if_neg]
    rintro (heq | hin)
    · exact hfbo heq
    · exact hmem n h hin
  · have hall : (deleteAll fbos s.gl).bound.draw = s.gl.bound.draw :=
      deleteAll_draw (h.imp_right fun h => hmem _ h.2)
    rw [hgl]
    split_ifs with hfbo
    · refine (OpenGL.deleteFramebuffer_draw ?_).trans hall
      rw [hall]
      exact (h.imp_right fun h => h.1).symm
    · exact hall
  · show gl.textures.erase t.texture = _
    rw [hgl'.1]
  · show gl.renderbuffers.erase t.renderbuffer = _
    rw [hgl'.2]

theorem unloadVolatile_unloaded {a : Nat} {t : Texture} {s : Context}
    (ht : s.textures.lookup a = some t) : Unloaded a t s (s.unloadVolatile a) := by
  rw [Context.unloadVolatile, ht]
  dsimp only
  by_cases hcleanup : t.info.isRenderTarget = true ∧
      (t.fbo ≠ 0 ∨ t.renderbuffer ≠ 0 ∨ t.texture ≠ 0)
  · rw [if_pos hcleanup]
    refine @unloaded_of_gl _ _ _ _
      (s.framebufferObjects.entries.filter fun entry => hasTexture a entry.1)
      (s.framebufferObjects.without (hasTexture a)) ?_ ?_ ?_ rfl
    · intro entry hentry
      obtain ⟨hmem, hhas⟩ := List.mem_filter.mp hentry
      exact ⟨AList.mem_lookup_iff.mpr hmem, hhas⟩
    · intro targets
      rw [Table.lookup_without]
      split_ifs with hhas
      · exact .inr ⟨rfl, hhas⟩
      · exact .inl rfl
    · intro _ _ targets hhas
      rw [Table.lookup_without, if_pos hhas]
  · rw [if_neg hcleanup]
    refine @unloaded_of_gl _ _ _ _ [] s.framebufferObjects ?_ ?_ ?_ rfl
    · exact fun _ h => absurd h List.not_mem_nil
    · exact fun _ => .inl rfl
    · intro htarget hidle
      refine absurd ⟨htarget, ?_⟩ hcleanup
      by_contra hzero
      push Not at hzero
      exact hidle ⟨hzero.1, hzero.2.2, hzero.2.1⟩

end Lhatove.Opengl
