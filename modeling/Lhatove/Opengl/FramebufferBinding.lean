import Lhatove.Opengl.TextureObjects

/-!
# Framebuffers of sets

What `bindCachedFBO` and `setRenderTargetsInternal` make of a set of targets.

- `Ready.made`: a new framebuffer has attached what the set says;
- `Good.bindCachedFBO`: the framebuffer of the set is in use, or none is;
- `Good.setRenderTargetsInternal`: the same for all sets, or the window's is in use.
-/

namespace Lhatove.Opengl

open Graphics

/-! ## Making a framebuffer -/

section Made

variable {maxSamples : Int} {busy : Option Nat} {many : Prop} {s : Context} {t : Texture}
  {targets : RenderTargets} {gl : OpenGL} {fbo : Nat} {fb : Attachments}

theorem framebufferAttachment_color {format : PixelFormat}
    (h : isPixelFormatDepthStencil format = false) (n : Nat) :
    framebufferAttachment format n = .color n := by
  cases format with
  | color sRGB => rfl
  | _ => cases h

theorem framebufferAttachment_depthStencil {format : PixelFormat}
    (h : isPixelFormatDepthStencil format = true) (n i : Nat) :
    framebufferAttachment format n = framebufferAttachment format 0 ∧
      framebufferAttachment format n ≠ .color i := by
  cases format with
  | color sRGB => cases h
  | _ => exact ⟨rfl, by simp [framebufferAttachment]⟩

theorem Drawable.attached (h : Drawable maxSamples many t) (hgood : Good maxSamples busy s)
    {a : Nat} {rt : RenderTarget} (hrt : rt.texture = some a)
    (ht : s.textures.lookup a = some t) {msaa : Int} (hmsaa : 1 < msaa ↔ many)
    (hmade : OpenGL.Made s.gl gl fbo fb) (n : Nat) :
    ∃ gl', Context.attachRT s.textures msaa rt (n, gl) =
        (if framebufferAttachment t.info.format n = .color n then n + 1 else n, gl') ∧
      OpenGL.Made s.gl gl' fbo
        (Function.update fb (framebufferAttachment t.info.format n) (some (t.image rt))) := by
  have hlookup : rt.texture.bind s.textures.lookup = some t := by rw [hrt, Option.bind_some, ht]
  rw [Context.attachRT, hlookup]
  dsimp only
  have hflag : 1 < msaa ∨ ¬t.readable = true ↔ t.renderbuffer ≠ 0 := by
    rw [h.whole.renderbuffer, hmsaa, ← h.samples, Bool.not_eq_true, or_comm]
  by_cases hrenderbuffer : t.renderbuffer ≠ 0
  · rw [if_pos (hflag.mpr hrenderbuffer)]
    have hhandle : t.getRenderTargetHandle = t.renderbuffer := by
      rw [Texture.getRenderTargetHandle, if_pos h.target, if_pos hrenderbuffer]
    rw [hhandle]
    refine ⟨_, rfl, ?_⟩
    have hmem := (hgood.renderbuffers a t ht hrenderbuffer).1
    rw [← hmade.renderbuffers] at hmem
    rw [Texture.image, if_pos hrenderbuffer]
    exact hmade.framebufferRenderbuffer hrenderbuffer hmem _
  · rw [if_neg fun hor => hrenderbuffer (hflag.mp hor)]
    have hreadable : t.readable = true := by
      by_contra hne
      exact hrenderbuffer (h.whole.renderbuffer.mpr (.inl (Bool.eq_false_of_not_eq_true hne)))
    have htexture := h.whole.texture.mpr hreadable
    have hhandle : t.getRenderTargetHandle = t.texture := by
      rw [Texture.getRenderTargetHandle, if_pos h.target, if_neg hrenderbuffer]
    rw [hhandle]
    refine ⟨_, rfl, ?_⟩
    have hmem := (hgood.handles a t ht htexture).1
    rw [← hmade.textures] at hmem
    rw [Texture.image, if_neg hrenderbuffer]
    exact hmade.framebufferTexture htexture hmem _ _ _ _ _

/-- The images of color targets from a number on. -/
def colorsFrom (textures : Table Nat Texture) : Nat → List RenderTarget → Attachments → Attachments
  | _, [], fb => fb
  | n, rt :: rts, fb =>
    colorsFrom textures (n + 1) rts (Function.update fb (.color n) (imageOf textures rt))

theorem colorsFrom_color (textures : Table Nat Texture) (rts : List RenderTarget) (n i : Nat)
    (fb : Attachments) : colorsFrom textures n rts fb (.color i) =
      if n ≤ i ∧ i < n + rts.length then rts[i - n]?.bind (imageOf textures) else fb (.color i) := by
  induction rts generalizing n fb with
  | nil =>
    rw [if_neg (by simp only [List.length_nil]; omega)]
    rfl
  | cons rt rts ih =>
    rw [colorsFrom, ih, List.length_cons]
    by_cases hi : i = n
    · subst hi
      rw [if_neg (by omega), if_pos (by omega), Function.update_self, Nat.sub_self]
      rfl
    · split
      · rw [if_pos (by omega), show i - n = (i - (n + 1)) + 1 by omega]
        rfl
      · rw [if_neg (by omega), Function.update_of_ne]
        exact fun heq => hi (AttachmentPoint.color.inj heq)

theorem colorsFrom_other (textures : Table Nat Texture) (rts : List RenderTarget) (n : Nat)
    (fb : Attachments) {point : AttachmentPoint} (h : ∀ i, point ≠ .color i) :
    colorsFrom textures n rts fb point = fb point := by
  induction rts generalizing n fb with
  | nil => rfl
  | cons rt rts ih => rw [colorsFrom, ih, Function.update_of_ne (h n)]

theorem Ready.colors_made (hgood : Good maxSamples busy s) {msaa : Int} (hmsaa : 1 < msaa ↔ many)
    {rts : List RenderTarget} :
    (∀ rt ∈ rts, ∃ a t, rt.texture = some a ∧ s.textures.lookup a = some t ∧
      Drawable maxSamples many t ∧ isPixelFormatDepthStencil t.info.format = false) →
    ∀ {n : Nat} {gl : OpenGL} {fb : Attachments}, OpenGL.Made s.gl gl fbo fb →
      ∃ n' gl', rts.foldl (fun so_far rt => Context.attachRT s.textures msaa rt so_far) (n, gl) =
          (n', gl') ∧ OpenGL.Made s.gl gl' fbo (colorsFrom s.textures n rts fb) := by
  induction rts with
  | nil => exact fun _ n gl fb hmade => ⟨n, gl, rfl, hmade⟩
  | cons rt rts ih =>
    intro hrts n gl fb hmade
    obtain ⟨a, t, hrt, ht, hdrawable, hformat⟩ := hrts rt List.mem_cons_self
    obtain ⟨gl', heq, hmade'⟩ := hdrawable.attached hgood hrt ht hmsaa hmade n
    rw [framebufferAttachment_color hformat, if_pos rfl] at heq
    rw [framebufferAttachment_color hformat] at hmade'
    have himage : imageOf s.textures rt = some (t.image rt) := by
      rw [imageOf, hrt, Option.bind_some, ht]
      rfl
    rw [List.foldl_cons, heq, colorsFrom, himage]
    exact ih (fun rt hrt => hrts rt (List.mem_cons_of_mem _ hrt)) hmade'

/-- **`bindCachedFBO`** attaches what the set says. -/
theorem Ready.made (hready : Ready maxSamples busy many s.textures targets)
    (hgood : Good maxSamples busy s) {msaa : Int} (hmsaa : 1 < msaa ↔ many)
    (hmade : OpenGL.Made s.gl gl fbo fun _ => none) :
    OpenGL.Made s.gl (Context.attachRT s.textures msaa targets.depthStencil
      (targets.colors.foldl (fun so_far rt => Context.attachRT s.textures msaa rt so_far)
        (0, gl))).2 fbo (attachments s.textures targets) := by
  obtain ⟨n', gl', heq, hmade'⟩ := Ready.colors_made hgood hmsaa (fun rt hrt => by
    obtain ⟨a, t, ha, -, hrest⟩ := hready.colors rt hrt
    exact ⟨a, t, ha, hrest⟩) hmade
  rw [heq]
  -- the points of colors
  have hcolor : ∀ i, colorsFrom s.textures 0 targets.colors (fun _ => none) (.color i) =
      attachments s.textures targets (.color i) := by
    intro i
    rw [colorsFrom_color, attachments, Nat.sub_zero, Nat.zero_add]
    split_ifs with hi
    · rfl
    · rw [List.getElem?_eq_none (by omega)]
      rfl
  cases hdepth : targets.depthStencil.texture with
  | none =>
    have hattach : Context.attachRT s.textures msaa targets.depthStencil (n', gl') = (n', gl') := by
      rw [Context.attachRT, hdepth]
      rfl
    rw [hattach]
    convert hmade' using 1
    funext point
    cases point with
    | color i => exact (hcolor i).symm
    | _ =>
      rw [colorsFrom_other _ _ _ _ (by simp), attachments, hdepth]
      · rfl
      · simp
  | some a =>
    obtain ⟨-, t, ht, hdrawable, hformat⟩ := hready.depthStencil a hdepth
    obtain ⟨gl'', heq', hmade''⟩ := hdrawable.attached hgood hdepth ht hmsaa hmade' n'
    rw [heq']
    convert hmade'' using 1
    rw [(framebufferAttachment_depthStencil hformat n' 0).1]
    have hne := fun i => (framebufferAttachment_depthStencil hformat 0 i).2
    funext point
    cases point with
    | color i => rw [Function.update_of_ne (hne i).symm, hcolor]
    | _ =>
      rw [attachments, hdepth, Option.bind_some, ht, Option.bind_some]
      · rw [Function.update_apply]
        split_ifs with h h' h'
        · rfl
        · exact absurd h.symm h'
        · exact absurd h'.symm h
        · rw [colorsFrom_other _ _ _ _ (by simp)]
      · simp

theorem OpenGL.Made.attached_renderbuffer (hmade : OpenGL.Made s.gl gl fbo fb)
    (point : AttachmentPoint) (handle : Nat) :
    ∃ fb', OpenGL.Made s.gl (gl.framebufferRenderbuffer point handle) fbo fb' := by
  rw [OpenGL.framebufferRenderbuffer]
  split_ifs
  · exact ⟨_, hmade.attach _ _⟩
  · exact ⟨_, hmade.attach _ _⟩
  · exact ⟨_, hmade⟩

theorem OpenGL.Made.attached_texture (hmade : OpenGL.Made s.gl gl fbo fb)
    (point : AttachmentPoint) (texType : TextureType) (handle : Nat) (level layer face : Int) :
    ∃ fb', OpenGL.Made s.gl (gl.framebufferTexture point texType handle level layer face) fbo
      fb' := by
  rw [OpenGL.framebufferTexture]
  split_ifs
  · exact ⟨_, hmade.attach _ _⟩
  · exact ⟨_, hmade.attach _ _⟩
  · exact ⟨_, hmade⟩

theorem OpenGL.Made.attachRT (hmade : OpenGL.Made s.gl gl fbo fb) (textures : Table Nat Texture)
    (msaa : Int) (rt : RenderTarget) (so_far : Nat × OpenGL) (hgl : so_far.2 = gl) :
    ∃ fb', OpenGL.Made s.gl (Context.attachRT textures msaa rt so_far).2 fbo fb' := by
  subst hgl
  rw [Context.attachRT]
  cases rt.texture.bind textures.lookup with
  | none => exact ⟨fb, hmade⟩
  | some t =>
    dsimp only
    by_cases hrenderbuffer : 1 < msaa ∨ ¬t.readable = true
    · rw [if_pos hrenderbuffer]
      exact hmade.attached_renderbuffer _ _
    · rw [if_neg hrenderbuffer]
      exact hmade.attached_texture _ _ _ _ _ _

theorem OpenGL.Made.attachRTs (textures : Table Nat Texture) (msaa : Int)
    (rts : List RenderTarget) : ∀ {fb : Attachments} {so_far : Nat × OpenGL},
    OpenGL.Made s.gl so_far.2 fbo fb → ∃ fb', OpenGL.Made s.gl
      (rts.foldl (fun so_far rt => Context.attachRT textures msaa rt so_far) so_far).2 fbo fb' := by
  induction rts with
  | nil => exact fun hmade => ⟨_, hmade⟩
  | cons rt rts ih =>
    intro fb so_far hmade
    obtain ⟨fb', hmade'⟩ := hmade.attachRT textures msaa rt so_far rfl
    exact ih hmade'

end Made

/-! ## Binding a set -/

section Binding

variable {maxSamples : Int} {busy : Option Nat} {many : Prop} {s s' s'' : Context}
  {targets : RenderTargets}

/-- Only framebuffers change, and the cached ones are kept. -/
structure Rebound (s s' : Context) : Prop where
  renderTargets : s'.renderTargets = s.renderTargets
  temporaryTextures : s'.temporaryTextures = s.temporaryTextures
  internalBackbuffer : s'.internalBackbuffer = s.internalBackbuffer
  internalBackbufferFBO : s'.internalBackbufferFBO = s.internalBackbufferFBO
  textures : s'.textures = s.textures
  framebufferObjects : ∀ targets fbo, fbo ≠ 0 → s.framebufferObjects.lookup targets = some fbo →
    s'.framebufferObjects.lookup targets = some fbo

theorem Rebound.trans (h : Rebound s s') (h' : Rebound s' s'') : Rebound s s'' where
  renderTargets := h'.renderTargets.trans h.renderTargets
  temporaryTextures := h'.temporaryTextures.trans h.temporaryTextures
  internalBackbuffer := h'.internalBackbuffer.trans h.internalBackbuffer
  internalBackbufferFBO := h'.internalBackbufferFBO.trans h.internalBackbufferFBO
  textures := h'.textures.trans h.textures
  framebufferObjects := fun targets fbo hzero hlookup =>
    h'.framebufferObjects targets fbo hzero (h.framebufferObjects targets fbo hzero hlookup)

theorem Good.bind (h : Good maxSamples busy s) (bound : Binding) :
    Good maxSamples busy { s with gl := { s.gl with bound := bound, boundFramebuffers := bound } } ∧
      Rebound s { s with gl := { s.gl with bound := bound, boundFramebuffers := bound } } :=
  ⟨⟨rfl, h.zero, h.cached, h.distinct, h.apart, h.fbos, h.handles, h.renderbuffers, h.whole⟩,
    ⟨rfl, rfl, rfl, rfl, rfl, fun _ _ _ hlookup => hlookup⟩⟩

theorem foldl_bindFramebuffer (fbos : List Nat) : ∀ {gl : OpenGL},
    gl.boundFramebuffers = gl.bound → ∃ bound,
      fbos.foldl (fun gl fbo => gl.bindFramebuffer .draw fbo) gl =
        { gl with bound := bound, boundFramebuffers := bound } := by
  induction fbos with
  | nil =>
    rintro ⟨framebuffers, textures, renderbuffers, bound, shadow⟩ h
    obtain rfl : shadow = bound := h
    exact ⟨shadow, rfl⟩
  | cons fbo fbos ih =>
    intro gl h
    rw [List.foldl_cons, OpenGL.bindFramebuffer_eq h]
    exact ih rfl

theorem Good.endPass (h : Good maxSamples busy s) :
    Good maxSamples busy s.endPass ∧ Rebound s s.endPass := by
  obtain ⟨bound, heq⟩ := foldl_bindFramebuffer _ h.synced
  rw [Context.endPass]
  rw [heq]
  exact h.bind bound

/-- A set has a framebuffer, which is in use. -/
structure InUseFor (targets : RenderTargets) (s : Context) : Prop where
  zero : s.gl.bound.draw ≠ 0
  lookup : s.framebufferObjects.lookup targets = some s.gl.bound.draw

/-- A framebuffer that the cache did not have. -/
structure Fresh (maxSamples : Int) (s : Context) (gl : OpenGL) (targets : RenderTargets)
    (fbo : Nat) : Prop where
  new : s.gl.framebuffers.lookup fbo = none
  lookup : gl.framebuffers.lookup fbo = some (attachments s.textures targets)
  ready : ∃ many, Ready maxSamples none many s.textures targets

theorem Good.cache (h : Good maxSamples none s) (targets : RenderTargets) {gl : OpenGL}
    {cache : Table RenderTargets Nat}
    (hsynced : gl.boundFramebuffers = gl.bound) (hzero : gl.framebuffers.lookup 0 = none)
    (hframebuffers : ∀ n fb, s.gl.framebuffers.lookup n = some fb →
      gl.framebuffers.lookup n = some fb)
    (htextures : gl.textures = s.gl.textures) (hrenderbuffers : gl.renderbuffers = s.gl.renderbuffers)
    (hcache : ∀ targets' fbo, cache.lookup targets' = some fbo → fbo ≠ 0 →
      s.framebufferObjects.lookup targets' = some fbo ∨
        targets' = targets ∧ Fresh maxSamples s gl targets fbo) :
    Good maxSamples none { s with gl := gl, framebufferObjects := cache } where
  synced := hsynced
  zero := hzero
  cached := by
    intro targets' fbo hlookup hne
    rcases hcache targets' fbo hlookup hne with hold | ⟨rfl, hfresh⟩
    · obtain ⟨hfb, hready⟩ := h.cached targets' fbo hold hne
      exact ⟨hframebuffers _ _ hfb, hready⟩
    · exact ⟨hfresh.lookup, hfresh.ready⟩
  distinct := by
    intro targets₁ targets₂ fbo hlookup₁ hlookup₂ hne
    rcases hcache targets₁ fbo hlookup₁ hne with hold₁ | ⟨rfl, hfresh₁⟩
    · rcases hcache targets₂ fbo hlookup₂ hne with hold₂ | ⟨rfl, hfresh₂⟩
      · exact h.distinct targets₁ targets₂ fbo hold₁ hold₂ hne
      · cases hfresh₂.new.symm.trans (h.cached targets₁ fbo hold₁ hne).1
    · rcases hcache targets₂ fbo hlookup₂ hne with hold₂ | ⟨rfl, -⟩
      · cases hfresh₁.new.symm.trans (h.cached targets₂ fbo hold₂ hne).1
      · rfl
  apart := by
    intro a t targets' ht hne hlookup
    rcases hcache targets' t.fbo hlookup hne with hold | ⟨-, hfresh⟩
    · exact h.apart a t targets' ht hne hold
    · have hlive := (h.fbos a t ht hne).1
      dsimp only at hlive
      rw [hfresh.new] at hlive
      cases hlive
  fbos := by
    refine h.fbos.imp fun a t _ _ hlive => ?_
    obtain ⟨fb, hfb⟩ := Option.isSome_iff_exists.mp hlive
    exact Option.isSome_iff_exists.mpr ⟨fb, hframebuffers _ _ hfb⟩
  handles := by
    rw [htextures]
    exact h.handles
  renderbuffers := by
    rw [hrenderbuffers]
    exact h.renderbuffers
  whole := h.whole

/-- **`bindCachedFBO`**: the framebuffer of the set is in use, or none is. -/
theorem Good.bindCachedFBO (h : Good maxSamples none s) {answers : Context.BindAnswers}
    (hready : (s.framebufferObjects.lookup targets).getD 0 = 0 → answers.status = none →
      ∃ many, Ready maxSamples none many s.textures targets) :
    (∃ s', Context.bindCachedFBO targets answers s = .ok s'.gl.bound.draw s' ∧
        Good maxSamples none s' ∧ Rebound s s' ∧ InUseFor targets s') ∨
      ∃ e s', Context.bindCachedFBO targets answers s = .error e s' ∧
        ((s.framebufferObjects.lookup targets).getD 0 = 0 ∧ answers.status ≠ none) ∧
        Good maxSamples none s' ∧ Rebound s s' ∧ s'.gl.bound.draw = 0 := by
  rw [Context.bindCachedFBO]
  by_cases hcached : (s.framebufferObjects.lookup targets).getD 0 = 0
  · rw [if_neg (not_not_intro hcached)]
    have hnone : ∀ fbo, fbo ≠ 0 → s.framebufferObjects.lookup targets ≠ some fbo := by
      intro fbo hzero hlookup
      rw [hlookup] at hcached
      exact hzero hcached
    obtain ⟨hnew, hfresh⟩ := s.gl.genFramebuffer_new answers.fbo
    have hmade := OpenGL.made_genFramebuffer h.synced answers.fbo
    generalize s.gl.genFramebuffer answers.fbo = gen at hnew hfresh hmade ⊢
    obtain ⟨fbo, gl⟩ := gen
    dsimp only at hnew hfresh hmade ⊢
    have hrebound : ∀ gl fbo, Rebound s { s with
        gl := gl, framebufferObjects := s.framebufferObjects.insert targets fbo } := by
      refine fun gl fbo => ⟨rfl, rfl, rfl, rfl, rfl, fun targets' fbo' hzero hlookup => ?_⟩
      dsimp only
      rw [AList.lookup_insert_ne]
      · exact hlookup
      · rintro rfl
        exact hnone fbo' hzero hlookup
    cases hstatus : answers.status with
    | none =>
      obtain ⟨many, hready⟩ := hready hcached hstatus
      have hmsaa : 1 < ((targets.firstTarget.texture.bind s.textures.lookup).map
          Texture.actualSamples).getD 1 ↔ many := by
        obtain ⟨a, ha⟩ := Option.ne_none_iff_exists'.mp hready.first
        obtain ⟨-, t, ht, hdrawable⟩ := hready.living (hasTexture_first ha)
        rw [ha, Option.bind_some, ht]
        exact hdrawable.whole.samples.trans hdrawable.samples
      have hmade' := hready.made h hmsaa hmade
      generalize Context.attachRT s.textures _ targets.depthStencil _ = attached at hmade' ⊢
      obtain ⟨n, gl'⟩ := attached
      dsimp only at hmade' ⊢
      have hdraw : gl'.bound.draw = fbo := by rw [hmade'.bound]
      refine .inl ⟨_, by rw [hdraw], h.cache targets ?_ ?_ ?_ hmade'.textures
        hmade'.renderbuffers ?_, hrebound gl' fbo, ?_, ?_⟩
      · exact hmade'.shadow.trans hmade'.bound.symm
      · rw [hmade'.framebuffers, if_neg hnew.symm]
        exact h.zero
      · intro n fb hn
        rw [hmade'.framebuffers, if_neg]
        · exact hn
        · rintro rfl
          cases hfresh.symm.trans hn
      · intro targets' fbo' hlookup _
        rw [Table.lookup_insert_eq] at hlookup
        split_ifs at hlookup with heq
        · cases hlookup
          refine .inr ⟨heq, hfresh, ?_, many, hready⟩
          rw [hmade'.framebuffers, if_pos rfl]
        · exact .inl hlookup
      · exact hdraw ▸ hnew
      · dsimp only
        rw [AList.lookup_insert, hdraw]
    | some status =>
      generalize ((targets.firstTarget.texture.bind s.textures.lookup).map
        Texture.actualSamples).getD 1 = msaa
      obtain ⟨fb, hmade'⟩ := @OpenGL.Made.attachRTs s fbo s.textures msaa
        targets.colors _ (0, .bindFramebuffer .all fbo gl) hmade
      obtain ⟨fb', hmade''⟩ := hmade'.attachRT s.textures msaa targets.depthStencil _ rfl
      generalize Context.attachRT s.textures msaa targets.depthStencil
        (List.foldl (fun so_far rt => Context.attachRT s.textures msaa rt so_far)
          (0, .bindFramebuffer .all fbo gl) targets.colors) = attached at hmade'' ⊢
      obtain ⟨n, gl'⟩ := attached
      have hlookup : ∀ n, (gl'.deleteFramebuffer fbo).framebuffers.lookup n =
          s.gl.framebuffers.lookup n := by
        intro n
        rw [OpenGL.lookup_deleteFramebuffer, hmade''.framebuffers]
        split_ifs with hn
        · rw [hn, hfresh]
        · rfl
      refine .inr ⟨_, _, rfl, ⟨hcached, Option.some_ne_none _⟩, h.cache targets ?_ ?_
        ?_ hmade''.textures hmade''.renderbuffers ?_, hrebound _ 0, ?_⟩
      · exact OpenGL.deleteFramebuffer_synced (hmade''.shadow.trans hmade''.bound.symm) fbo
      · exact (hlookup 0).trans h.zero
      · exact fun n fb hn => (hlookup n).trans hn
      · intro targets' fbo' hlookup' hne
        rw [Table.lookup_insert_eq] at hlookup'
        split_ifs at hlookup' with heq
        · exact absurd (Option.some.inj hlookup').symm hne
        · exact .inl hlookup'
      · show (OpenGL.reset fbo gl'.bound).draw = 0
        rw [hmade''.bound]
        exact if_pos rfl
  · rw [if_pos hcached, OpenGL.bindFramebuffer_eq h.synced]
    obtain ⟨hgood, hrebound⟩ := h.bind
      ⟨(s.framebufferObjects.lookup targets).getD 0, (s.framebufferObjects.lookup targets).getD 0⟩
    refine .inl ⟨_, rfl, hgood, hrebound, hcached, ?_⟩
    cases hlookup : s.framebufferObjects.lookup targets with
    | none =>
      rw [hlookup] at hcached
      exact absurd rfl hcached
    | some fbo => rfl

theorem Good.setRenderTargetsInternal_window (h : Good maxSamples none s)
    (hfirst : targets.firstTarget.texture = none) (answers : Context.BindAnswers) :
    ∃ s', Context.setRenderTargetsInternal targets answers s = .ok () s' ∧
      Good maxSamples none s' ∧ Rebound s s' ∧ s'.gl.bound.draw = s.internalBackbufferFBO := by
  obtain ⟨hgood, hrebound⟩ := h.endPass
  rw [Context.setRenderTargetsInternal, if_pos hfirst, OpenGL.bindFramebuffer_eq hgood.synced]
  obtain ⟨hgood', hrebound'⟩ := hgood.bind (FramebufferTarget.all.set
    s.endPass.getInternalBackbufferFBO s.endPass.gl.bound)
  refine ⟨_, rfl, hgood', hrebound.trans hrebound', ?_⟩
  exact (getInternalBackbufferFBO_eq _).trans hrebound.internalBackbufferFBO

/-- **`setRenderTargetsInternal`** for a set with targets. -/
theorem Good.setRenderTargetsInternal (h : Good maxSamples none s)
    (hfirst : targets.firstTarget.texture ≠ none) {answers : Context.BindAnswers}
    (hready : (s.framebufferObjects.lookup targets).getD 0 = 0 → answers.status = none →
      ∃ many, Ready maxSamples none many s.textures targets) :
    (∃ s', Context.setRenderTargetsInternal targets answers s = .ok () s' ∧
        Good maxSamples none s' ∧ Rebound s s' ∧ InUseFor targets s') ∨
      ∃ e s', Context.setRenderTargetsInternal targets answers s = .error e s' ∧
        ((s.framebufferObjects.lookup targets).getD 0 = 0 ∧ answers.status ≠ none) ∧
        Good maxSamples none s' ∧ Rebound s s' ∧ s'.gl.bound.draw = 0 := by
  obtain ⟨hgood, hrebound⟩ := h.endPass
  have hcache : s.endPass.framebufferObjects = s.framebufferObjects := rfl
  have htextures : s.endPass.textures = s.textures := rfl
  rw [Context.setRenderTargetsInternal, if_neg hfirst]
  rcases hgood.bindCachedFBO hready with ⟨s', heq, hgood', hrebound', huse⟩ |
    ⟨e, s', heq, hasked, hgood', hrebound', hdraw⟩
  · rw [heq]
    exact .inl ⟨s', rfl, hgood', hrebound.trans hrebound', huse⟩
  · rw [heq]
    exact .inr ⟨e, s', rfl, hasked, hgood', hrebound.trans hrebound', hdraw⟩

end Binding

end Lhatove.Opengl
