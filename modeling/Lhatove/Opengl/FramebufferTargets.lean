import Lhatove.Opengl.FramebufferBinding
import Lhatove.Graphics.TargetSets

/-!
# Sets that are bound and recorded

What a set is like that passes its checks, what its temporary texture is, and what is in use
after it was set.

- `Accepted`: what the checks say of the textures;
- `Private`: the temporary textures are nobody else's;
- `InOrder.setRenderTargets`, `InOrder.setRenderTargetNone`.
-/

namespace Lhatove.Opengl

open Graphics Device List RenderTargets
open Option (map_eq_some_iff some_ne_none)

section Accepted

variable {F M : Type} {device : Device F M}

/-- What the checks of a set say of its textures, against the first one. -/
structure Accepted (device : Device F M) (rts : RenderTargets) (first : TextureInfo) : Prop where
  colors : ∀ rt ∈ rts.colors, ∃ a, rt.texture = some a ∧ (device.texture a).isRenderTarget = true ∧
    (device.texture a).requestedMSAA = first.requestedMSAA ∧
    isPixelFormatDepthStencil (device.texture a).format = false
  depthStencil : ∀ a, rts.depthStencil.texture = some a →
    (device.texture a).isRenderTarget = true ∧
    (device.texture a).requestedMSAA = first.requestedMSAA ∧
    isPixelFormatDepthStencil (device.texture a).format = true

variable {pixelw pixelh reqmsaa : Int} {rt : RenderTarget}

theorem checkColor_ok
    (h : device.checkColor pixelw pixelh reqmsaa rt = .ok ()) : ∃ a, rt.texture = some a ∧
      (device.texture a).isRenderTarget = true ∧ (device.texture a).requestedMSAA = reqmsaa ∧
      isPixelFormatDepthStencil (device.texture a).format = false := by
  rw [checkColor] at h
  cases hrt : rt.texture with
  | none =>
    rw [hrt] at h
    cases h
  | some a =>
    rw [hrt] at h
    dsimp only at h
    split_ifs at h with htarget _ _ _ hmsaa hformat
    exact ⟨a, rfl, by simpa using htarget, not_not.mp hmsaa, Bool.eq_false_iff.mpr hformat⟩

theorem checkColors_ok {rts : List RenderTarget}
    (h : device.checkColors pixelw pixelh reqmsaa rts = .ok ()) :
    ∀ rt ∈ rts, device.checkColor pixelw pixelh reqmsaa rt = .ok () := by
  induction rts with
  | nil => exact fun _ hrt => absurd hrt not_mem_nil
  | cons rt rts ih =>
    rw [checkColors] at h
    split at h
    · cases h
    next _ hrt =>
      exact forall_mem_cons.mpr ⟨hrt, ih h⟩

theorem checkDepthStencil_ok (h : device.checkDepthStencil pixelw pixelh reqmsaa rt = .ok ())
    {a : Nat} (hrt : rt.texture = some a) : (device.texture a).isRenderTarget = true ∧
      (device.texture a).requestedMSAA = reqmsaa ∧
      isPixelFormatDepthStencil (device.texture a).format = true := by
  rw [checkDepthStencil, hrt] at h
  dsimp only at h
  split_ifs at h with htarget hformat _ _ hmsaa
  exact ⟨by simpa using htarget, not_not.mp hmsaa, by simpa using hformat⟩

theorem temporaryFormat_depthStencil {flags : BitVec 32} {format : PixelFormat}
    (h : device.temporaryFormat flags = .ok format) : isPixelFormatDepthStencil format = true := by
  have hfirst : ∀ {formats : List PixelFormat} {e : DisplayFault},
      (∀ format ∈ formats, isPixelFormatDepthStencil format = true) →
      device.firstSupported formats e = .ok format → isPixelFormatDepthStencil format = true := by
    intro formats e hall hok
    rw [firstSupported] at hok
    split at hok
    next format' hfind =>
      cases hok
      exact hall _ (mem_of_find?_eq_some hfind)
    · cases hok
  rw [temporaryFormat] at h
  split_ifs at h
  · exact hfirst (by decide) h
  · exact hfirst (by decide) h
  · exact hfirst (by decide) h
  · cases h
    rfl

/-- The set that is bound, or the settings of its temporary texture. -/
def Bound (device : Device F M) (rts : RenderTargets) (first : TextureInfo)
    (bound : BoundTargets) : Prop :=
  if rts.depthStencil.texture = none ∧ rts.temporaryRTFlags ≠ 0 then
    ∃ dsformat, device.temporaryFormat rts.temporaryRTFlags = .ok dsformat ∧
      bound = ⟨{ rts with depthStencil.slice := 0 },
        some (dsformat, first.getPixelWidth rts.firstTarget.mipmap,
          first.getPixelHeight rts.firstTarget.mipmap, first.requestedMSAA)⟩
  else bound = ⟨rts, none⟩

theorem realTargets_ok {rts : RenderTargets} {firsttex : Nat} {bound : BoundTargets}
    (h : device.realTargets rts firsttex = .ok bound) :
    Accepted device rts (device.texture firsttex) ∧
      Bound device rts (device.texture firsttex) bound := by
  rw [Device.realTargets] at h
  dsimp only at h
  by_cases hlimit : device.limitRenderTargets < rts.colors.length
  · rw [if_pos hlimit] at h
    cases h
  by_cases hshift : ¬Shift rts.firstTarget.mipmap
  · rw [if_neg hlimit, if_pos hshift] at h
    cases h
  rw [if_neg hlimit, if_neg hshift] at h
  cases hcolors : device.checkColors ((device.texture firsttex).getPixelWidth rts.firstTarget.mipmap)
      ((device.texture firsttex).getPixelHeight rts.firstTarget.mipmap)
      (device.texture firsttex).requestedMSAA rts.colors with
  | error e =>
    rw [hcolors] at h
    cases h
  | ok _ =>
    rw [hcolors] at h
    cases hdepth : device.checkDepthStencil
        ((device.texture firsttex).getPixelWidth rts.firstTarget.mipmap)
        ((device.texture firsttex).getPixelHeight rts.firstTarget.mipmap)
        (device.texture firsttex).requestedMSAA rts.depthStencil with
    | error e =>
      rw [hdepth] at h
      cases h
    | ok _ =>
      rw [hdepth] at h
      have haccepted : Accepted device rts (device.texture firsttex) :=
        ⟨fun rt hrt => checkColor_ok (checkColors_ok hcolors rt hrt), fun a ha =>
          checkDepthStencil_ok hdepth ha⟩
      have hbound : ∀ targets, device.bound targets = .ok bound → bound = targets := by
        intro targets hok
        rw [Device.bound] at hok
        cases hbind : device.bind targets with
        | none =>
          rw [hbind] at hok
          cases hok
          rfl
        | some message =>
          rw [hbind] at hok
          cases hok
      refine ⟨haccepted, ?_⟩
      rw [Bound]
      split_ifs at h ⊢
      · cases hformat : device.temporaryFormat rts.temporaryRTFlags with
        | error e =>
          rw [hformat] at h
          cases h
        | ok dsformat =>
          rw [hformat] at h
          exact ⟨dsformat, rfl, hbound _ h⟩
      · exact hbound _ h

end Accepted

/-! ## Temporary textures -/

section Temporary

variable {F M : Type} {device : Device F M} {maxSamples : Int} {s s' : Context} {a : Nat}

/-- The temporary textures are drawn to, and neither viewed nor drawn to by anyone else. -/
structure Private (s : Context) : Prop where
  target : ∀ temp ∈ s.temporaryTextures, ∀ t, s.textures.lookup temp.texture = some t →
    t.info.isRenderTarget = true
  unviewed : ∀ b t, s.textures.lookup b = some t → ∀ temp ∈ s.temporaryTextures,
    temp.texture ∉ t.parents
  internal : ∀ temp ∈ s.temporaryTextures, hasTexture temp.texture s.internalBackbuffer = false
  window : s.internalBackbufferFBO = 0 → s.internalBackbuffer = {}

theorem Private.same (hsame : Same s s') (h : Private s) : Private s' where
  target := by
    rw [hsame.temporaryTextures]
    intro temp htemp t' ht'
    obtain ⟨t, ht, hkind⟩ := hsame.symm.info ht'
    have hinfo : t.info = t'.info := congrArg Prod.fst hkind
    exact hinfo ▸ h.target temp htemp t ht
  unviewed := by
    rw [hsame.temporaryTextures]
    intro b t' ht' temp htemp
    obtain ⟨t, ht, hkind⟩ := hsame.symm.info ht'
    have hparents : t.parents = t'.parents := congrArg (fun kind => kind.2.2) hkind
    exact hparents ▸ h.unviewed b t ht temp htemp
  internal := by
    rw [hsame.temporaryTextures, hsame.internalBackbuffer]
    exact h.internal
  window := by
    rw [hsame.internalBackbufferFBO, hsame.internalBackbuffer]
    exact h.window

theorem Private.apart (hapart : Apart a s s') (h : Private s)
    (ha : ∀ temp ∈ s.temporaryTextures, temp.texture ≠ a)
    (hparents : ∀ t, s'.textures.lookup a = some t → ∀ temp ∈ s.temporaryTextures,
      temp.texture ∉ t.parents) : Private s' where
  target := by
    rw [hapart.temporaryTextures]
    intro temp htemp t' ht'
    have hsame := hapart.textures _ (ha temp htemp)
    rw [ht'] at hsame
    obtain ⟨t, ht, hkind⟩ := map_eq_some_iff.mp hsame.symm
    have hinfo : t.info = t'.info := congrArg Prod.fst hkind
    exact hinfo ▸ h.target temp htemp t ht
  unviewed := by
    rw [hapart.temporaryTextures]
    intro b t' ht' temp htemp
    by_cases hb : b = a
    · exact hparents t' (hb ▸ ht') temp htemp
    · have hsame := hapart.textures b hb
      rw [ht'] at hsame
      obtain ⟨t, ht, hkind⟩ := map_eq_some_iff.mp hsame.symm
      have hparents : t.parents = t'.parents := congrArg (fun kind => kind.2.2) hkind
      exact hparents ▸ h.unviewed b t ht temp htemp
  internal := by
    rw [hapart.temporaryTextures, hapart.internalBackbuffer]
    exact h.internal
  window := by
    rw [hapart.internalBackbufferFBO, hapart.internalBackbuffer]
    exact h.window

theorem Private.temporaries (h : Private s) {temps : List TemporaryTexture}
    (hsub : ∀ temp ∈ temps, ∃ temp' ∈ s.temporaryTextures, temp'.texture = temp.texture) :
    Private { s with temporaryTextures := temps } where
  target := by
    intro temp htemp
    obtain ⟨temp', htemp', heq⟩ := hsub temp htemp
    exact heq ▸ h.target temp' htemp'
  unviewed := by
    intro b t ht temp htemp
    obtain ⟨temp', htemp', heq⟩ := hsub temp htemp
    exact heq ▸ h.unviewed b t ht temp' htemp'
  internal := by
    intro temp htemp
    obtain ⟨temp', htemp', heq⟩ := hsub temp htemp
    exact heq ▸ h.internal temp' htemp'
  window := h.window

theorem active_of_first {rts : RenderTargets} (h : rts.firstTarget.texture ≠ none) :
    rts.active = true := by
  rw [active, decide_eq_true_iff]
  rw [firstTarget] at h
  cases hcolors : rts.colors with
  | nil =>
    rw [hcolors] at h
    exact .inr h
  | cons rt rest => exact .inl (cons_ne_nil rt rest)

/-- Other temporary textures are kept; those that the recorded set needs stay. -/
theorem InOrder.temporaries (h : InOrder device maxSamples s) {temps : List TemporaryTexture}
    (hliving : ∀ temp ∈ temps, ∃ t, s.textures.lookup temp.texture = some t)
    (hnodup : (temps.map TemporaryTexture.texture).Nodup)
    (hkept : s.renderTargets.active = true → ∀ temp ∈ s.temporaryTextures,
      ∃ temp' ∈ temps, temp'.texture = temp.texture) :
    InOrder device maxSamples { s with temporaryTextures := temps } where
  good := ⟨h.good.synced, h.good.zero, h.good.cached, h.good.distinct, h.good.apart, h.good.fbos,
    h.good.handles, h.good.renderbuffers, h.good.whole⟩
  recorded := by
    refine ⟨h.recorded.window, fun hfirst => ?_, hliving, hnodup, h.recorded.internal⟩
    obtain ⟨depthStencil, hasked, hrest⟩ := h.recorded.targets hfirst
    refine ⟨depthStencil, ?_, hrest⟩
    rw [Asked] at hasked ⊢
    split_ifs at hasked ⊢
    · obtain ⟨a, t, ha, ⟨temp, htemp, rfl⟩, hrest⟩ := hasked
      exact ⟨temp.texture, t, ha, hkept (active_of_first hfirst) temp htemp, hrest⟩
    · exact hasked
  kin := h.kin

/-- The texture that stands in for a depth and stencil target. -/
structure TemporaryFor (maxSamples : Int) (format : PixelFormat) (w h samples : Int)
    (s s' : Context) (a : Nat) : Prop where
  renderTargets : s'.renderTargets = s.renderTargets
  internalBackbufferFBO : s'.internalBackbufferFBO = s.internalBackbufferFBO
  textures : ∀ b t, s.textures.lookup b = some t → s'.textures.lookup b = some t
  member : ∃ temp ∈ s'.temporaryTextures, temp.texture = a
  texture : ∃ t, s'.textures.lookup a = some t ∧ t.info.isRenderTarget = true ∧
    t.info.format = format ∧ t.info.getPixelWidth 0 = w ∧ t.info.getPixelHeight 0 = h ∧
    max 1 t.info.requestedMSAA = max 1 samples ∧
    (1 < min t.info.requestedMSAA maxSamples ↔ 1 < min samples maxSamples)

theorem mipSize_zero {size : Int} (h : 1 ≤ size) : mipSize size 0 = size := by
  rw [mipSize, Int.toNat_zero, Int.shiftRight_zero]
  exact max_eq_left h

theorem InOrder.internal_living (h : InOrder device maxSamples s) (hp : Private s)
    (ha : s.textures.lookup a = none) : hasTexture a s.internalBackbuffer = false := by
  by_cases hzero : s.internalBackbufferFBO = 0
  · rw [hp.window hzero]
    rfl
  · by_contra hhas
    obtain ⟨-, many, hready⟩ := h.good.cached _ _ (h.recorded.internal hzero) hzero
    obtain ⟨-, t, ht, -⟩ := hready.living (Bool.eq_true_of_not_eq_false hhas)
    cases ha.symm.trans ht

/-- **`getTemporaryTexture`** -/
theorem InOrder.getTemporaryTexture (h : InOrder device maxSamples s) (hp : Private s)
    {format : PixelFormat} {w height samples : Int} (hw : 1 ≤ w) (hh : 1 ≤ height)
    (answers : Context.TemporaryAnswers) :
    (∃ a s', Context.getTemporaryTexture maxSamples format w height samples answers s = .ok a s' ∧
        InOrder device maxSamples s' ∧ Private s' ∧
        TemporaryFor maxSamples format w height samples s s' a) ∨
      ∃ e s', Context.getTemporaryTexture maxSamples format w height samples answers s =
          .error e s' ∧ InOrder device maxSamples s' ∧ Private s' := by
  rw [Context.getTemporaryTexture]
  cases hfind : s.temporaryTextures.find? (s.fitsTemporary format w height samples) with
  | some temp =>
    left
    have hmem := mem_of_find?_eq_some hfind
    have hfits := find?_some hfind
    obtain ⟨t, ht⟩ := h.recorded.temporary temp hmem
    rw [Context.fitsTemporary, ht] at hfits
    obtain ⟨-, hformat, hpw, hph, hmsaa⟩ := of_decide_eq_true hfits
    -- the names of the textures are the same
    have hmap : (s.temporaryTextures.map fun t =>
        if t.texture = temp.texture then { t with framesSinceUse := 0 } else t).map
          TemporaryTexture.texture = s.temporaryTextures.map TemporaryTexture.texture := by
      rw [map_map]
      refine map_congr_left fun t _ => ?_
      rw [Function.comp]
      split_ifs <;> rfl
    have hsub : ∀ temp' ∈ s.temporaryTextures.map (fun t =>
        if t.texture = temp.texture then { t with framesSinceUse := 0 } else t),
        ∃ temp'' ∈ s.temporaryTextures, temp''.texture = temp'.texture := by
      intro temp' htemp'
      have hname := mem_map_of_mem (f := TemporaryTexture.texture) htemp'
      rw [hmap] at hname
      exact mem_map.mp hname
    have hkept : ∀ temp' ∈ s.temporaryTextures, ∃ temp'' ∈ s.temporaryTextures.map (fun t =>
        if t.texture = temp.texture then { t with framesSinceUse := 0 } else t),
        temp''.texture = temp'.texture := by
      intro temp' htemp'
      have hname := mem_map_of_mem (f := TemporaryTexture.texture) htemp'
      rw [← hmap] at hname
      exact mem_map.mp hname
    refine ⟨_, _, rfl, h.temporaries (fun temp' htemp' => ?_) (hmap ▸ h.recorded.nodup)
      fun _ => hkept, hp.temporaries hsub, rfl, rfl, fun _ _ ht => ht, hkept temp hmem, t, ht,
      hp.target temp hmem t ht, hformat, hpw, hph, by rw [hmsaa], by rw [hmsaa]⟩
    obtain ⟨temp'', htemp'', heq⟩ := hsub temp' htemp'
    exact heq ▸ h.recorded.temporary temp'' htemp''
  | none =>
    rcases @InOrder.newTexture F M device maxSamples s h none (fun b hb => by cases hb)
        (Context.temporaryInfo format w height samples) (!isPixelFormatDepthStencil format)
        answers.address answers.load with
      ⟨a, t, s', heq, hinOrder, ha, hapart, ht, -, hkind, hother⟩ |
      ⟨a, e, s', heq, hinOrder, ha, hapart, hgone⟩
    · left
      rw [heq]
      have hinfo : t.info = Context.normalized (Context.temporaryInfo format w height samples) :=
        congrArg Prod.fst hkind
      have hparents : t.parents = [] := congrArg (fun kind => kind.2.2) hkind
      have hnew : ∀ temp ∈ s.temporaryTextures, temp.texture ≠ a := by
        rintro temp htemp rfl
        obtain ⟨t, ht⟩ := h.recorded.temporary temp htemp
        cases ha.symm.trans ht
      have hp' : Private s' := hp.apart hapart hnew fun t' ht' temp _ => by
        rw [ht] at ht'
        cases ht'
        rw [hparents]
        exact not_mem_nil
      have hunviewed : ∀ b t', s'.textures.lookup b = some t' → a ∉ t'.parents := by
        intro b t' ht' hmem
        by_cases hb : b = a
        · rw [hb, ht] at ht'
          cases ht'
          rw [hparents] at hmem
          cases hmem
        · -- its parents were there before
          have hsame := hapart.textures b hb
          rw [ht'] at hsame
          obtain ⟨t'', ht'', hkind'⟩ := map_eq_some_iff.mp hsame.symm
          have hparents' : t''.parents = t'.parents := congrArg (fun kind => kind.2.2) hkind'
          obtain ⟨p, hpa⟩ := (h.kin b t'' ht'').2 a (hparents' ▸ hmem)
          cases ha.symm.trans hpa
      have htemps := hapart.temporaryTextures
      refine ⟨a, _, rfl, hinOrder.temporaries ?_ ?_ ?_, ⟨?_, ?_, ?_, hp'.window⟩,
        hapart.renderTargets, hapart.internalBackbufferFBO, fun b t' ht' => ?_,
        ⟨⟨a, 0⟩, mem_append_right _ (mem_singleton_self _), rfl⟩, t, ht, ?_, ?_, ?_, ?_,
        ?_, ?_⟩
      · intro temp htemp
        rcases mem_append.mp htemp with htemp | htemp
        · exact hinOrder.recorded.temporary temp htemp
        · rw [mem_singleton.mp htemp]
          exact ⟨t, ht⟩
      · rw [map_append, htemps]
        refine nodup_append.mpr ⟨h.recorded.nodup, nodup_singleton _, ?_⟩
        rintro b hb c hc rfl
        obtain ⟨temp, htemp, hname⟩ := mem_map.mp hb
        exact hnew temp htemp (hname.trans (mem_singleton.mp hc))
      · exact fun _ temp htemp => ⟨temp, mem_append_left _ htemp, rfl⟩
      · intro temp htemp t' ht'
        rcases mem_append.mp htemp with htemp | htemp
        · exact hp'.target temp htemp t' ht'
        · rw [mem_singleton.mp htemp] at ht'
          cases ht.symm.trans ht'
          rw [hinfo]
          rfl
      · intro b t' ht' temp htemp
        rcases mem_append.mp htemp with htemp | htemp
        · exact hp'.unviewed b t' ht' temp htemp
        · rw [mem_singleton.mp htemp]
          exact hunviewed b t' ht'
      · intro temp htemp
        rcases mem_append.mp htemp with htemp | htemp
        · exact hp'.internal temp htemp
        · rw [mem_singleton.mp htemp]
          rw [hapart.internalBackbuffer]
          exact h.internal_living hp ha
      · refine (hother b ?_ not_mem_nil).trans ht'
        rintro rfl
        cases ha.symm.trans ht'
      · rw [hinfo]
        rfl
      · rw [hinfo]
        rfl
      · rw [hinfo]
        exact mipSize_zero hw
      · rw [hinfo]
        exact mipSize_zero hh
      · rw [hinfo]
        show max 1 (if 1 < samples then samples else 0) = max 1 samples
        split_ifs <;> omega
      · rw [hinfo]
        show 1 < min (if 1 < samples then samples else 0) maxSamples ↔ 1 < min samples maxSamples
        split_ifs <;> omega
    · right
      rw [heq]
      refine ⟨e, s', rfl, hinOrder, hp.apart hapart ?_ fun t ht => by cases hgone.symm.trans ht⟩
      rintro temp htemp rfl
      obtain ⟨t, ht⟩ := h.recorded.temporary temp htemp
      cases ha.symm.trans ht

end Temporary

/-! ## The set that is bound -/

section Chosen

variable {F M : Type} {device : Device F M} {maxSamples : Int} {s s' : Context}
  {rts real : RenderTargets}

/-- The textures of a set are there. -/
def Living (rts : RenderTargets) (s : Context) : Prop :=
  ∀ a, hasTexture a rts = true → ∃ t, s.textures.lookup a = some t

/-- The textures of a set are loaded. -/
def Loaded (rts : RenderTargets) (s : Context) : Prop :=
  ∀ a, hasTexture a rts = true → ∃ t, s.textures.lookup a = some t ∧ ¬t.Idle

/-- A set is bound for one that is set. -/
structure Chosen (device : Device F M) (maxSamples : Int) (rts real : RenderTargets)
    (s s' : Context) : Prop where
  renderTargets : s'.renderTargets = s.renderTargets
  internalBackbufferFBO : s'.internalBackbufferFBO = s.internalBackbufferFBO
  kept : real = { Device.strongRefs rts with depthStencil := real.depthStencil }
  first : real.firstTarget.texture ≠ none
  asked : (rts.depthStencil.texture ≠ none → rts.depthStencil.mipmap = 0) →
    ∀ s'', s''.textures = s'.textures → s''.temporaryTextures = s'.temporaryTextures →
      s''.renderTargets = Device.strongRefs rts → Asked device s'' real.depthStencil
  ready : Loaded real s' → ∃ many, Ready maxSamples none many s'.textures real

theorem checked_texture {a : Nat} {t : Texture} (ht : s.textures.lookup a = some t) :
    (s.checked device).texture a = t.info := by
  show ((s.textures.lookup a).map Texture.info).getD _ = t.info
  rw [ht]
  rfl

theorem mipSize_pos (size mip : Int) : 1 ≤ mipSize size mip := le_max_right _ _

theorem InOrder.drawable (h : InOrder device maxSamples s) {a : Nat} {t : Texture} {samples : Int}
    (ht : s.textures.lookup a = some t) (hidle : ¬t.Idle) (htarget : t.info.isRenderTarget = true)
    (hmsaa : 1 < min t.info.requestedMSAA maxSamples ↔ 1 < min samples maxSamples) :
    Drawable maxSamples (1 < min samples maxSamples) t :=
  ⟨htarget, (h.good.whole a t ht (some_ne_none a)).resolve_left hidle, hmsaa⟩

theorem Accepted.ready_colors (h : InOrder device maxSamples s') {first : TextureInfo}
    (haccepted : Accepted (s.checked device) rts first) (hliving : Living rts s)
    (htextures : ∀ b t, s.textures.lookup b = some t → s'.textures.lookup b = some t)
    (hcolors : real.colors = rts.colors) (hloaded : Loaded real s') :
    ∀ rt ∈ real.colors, ∃ a t, rt.texture = some a ∧ some a ≠ none ∧
      s'.textures.lookup a = some t ∧
      Drawable maxSamples (1 < min first.requestedMSAA maxSamples) t ∧
      isPixelFormatDepthStencil t.info.format = false := by
  intro rt hrt
  obtain ⟨a, ha, htarget, hmsaa, hformat⟩ := haccepted.colors rt (hcolors ▸ hrt)
  obtain ⟨t, ht⟩ := hliving a (hasTexture_iff.mpr (.inl ⟨rt, hcolors ▸ hrt, ha⟩))
  obtain ⟨t', ht', hidle⟩ := hloaded a (hasTexture_iff.mpr (.inl ⟨rt, hrt, ha⟩))
  cases (htextures a t ht).symm.trans ht'
  rw [checked_texture ht] at htarget hmsaa hformat
  exact ⟨a, t, ha, some_ne_none a, ht', h.drawable ht' hidle htarget (by rw [hmsaa]),
    hformat⟩

/-- **The set that is bound** has the targets that were asked for, and what stands in for a
depth and stencil target. -/
theorem InOrder.realTargets (h : InOrder device maxSamples s) (hp : Private s) {firsttex : Nat}
    (hfirst : rts.firstTarget.texture = some firsttex) (hliving : Living rts s)
    (temporary : Context.TemporaryAnswers) :
    (∃ real s', Context.realTargets device maxSamples rts firsttex temporary s = .ok real s' ∧
        InOrder device maxSamples s' ∧ Private s' ∧ Chosen device maxSamples rts real s s') ∨
      ∃ e s', Context.realTargets device maxSamples rts firsttex temporary s = .error e s' ∧
        InOrder device maxSamples s' ∧ Private s' := by
  rw [Context.realTargets]
  cases hreal : (s.checked device).realTargets rts firsttex with
  | error e => exact .inr ⟨e, s, rfl, h, hp⟩
  | ok bound =>
    obtain ⟨haccepted, hbound⟩ := realTargets_ok hreal
    obtain ⟨firstTexture, hfirstTexture⟩ := hliving firsttex (hasTexture_first hfirst)
    rw [checked_texture hfirstTexture] at haccepted hbound
    rw [Bound] at hbound
    split_ifs at hbound with hflags
    · -- a temporary texture
      obtain ⟨dsformat, hformat, rfl⟩ := hbound
      have hcolors : ∃ rt rest, rts.colors = rt :: rest := by
        rw [firstTarget] at hfirst
        cases hcolors : rts.colors with
        | nil =>
          rw [hcolors] at hfirst
          cases hflags.1.symm.trans hfirst
        | cons rt rest => exact ⟨rt, rest, rfl⟩
      obtain ⟨rt, rest, hcolors⟩ := hcolors
      have hsameFirst : ∀ rts' : RenderTargets, rts'.colors = rts.colors →
          rts'.firstTarget = rts.firstTarget := by
        intro rts' heq
        rw [firstTarget, firstTarget, heq, hcolors]
        rfl
      have hfirstOf : ∀ rts' : RenderTargets, rts'.colors = rts.colors →
          rts'.firstTarget.texture ≠ none := by
        intro rts' heq
        rw [hsameFirst rts' heq, hfirst]
        exact some_ne_none firsttex
      rcases @InOrder.getTemporaryTexture F M device maxSamples s h hp dsformat
          (firstTexture.info.getPixelWidth rts.firstTarget.mipmap)
          (firstTexture.info.getPixelHeight rts.firstTarget.mipmap) firstTexture.info.requestedMSAA
          (mipSize_pos _ _) (mipSize_pos _ _) temporary with
        ⟨a, s', heq, hinOrder, hp', htemp⟩ | ⟨e, s', heq, hinOrder, hp'⟩
      · left
        dsimp only
        rw [heq]
        obtain ⟨t, ht, htarget, hformat', hwidth, hheight, hmsaa, hmany⟩ := htemp.texture
        refine ⟨_, s', rfl, hinOrder, hp', htemp.renderTargets, htemp.internalBackbufferFBO, ?_, ?_,
          ?_, ?_⟩
        · rw [RenderTargets.mk.injEq]
          exact ⟨(strongRefs_colors rts).symm, rfl, rfl⟩
        · exact hfirstOf _ rfl
        · intro _ s'' htextures htemps hrecorded
          rw [Asked, hrecorded, if_pos (show (strongRefs rts).depthStencil.texture = none ∧
            (strongRefs rts).temporaryRTFlags ≠ 0 from hflags)]
          refine ⟨a, t, rfl, htemps ▸ htemp.member, htextures ▸ ht, hformat' ▸ hformat,
            fun b first hb hfirst' => ?_⟩
          rw [hsameFirst _ (strongRefs_colors rts)] at hb ⊢
          cases hfirst.symm.trans hb
          rw [htextures, htemp.textures _ _ hfirstTexture] at hfirst'
          cases hfirst'
          exact ⟨hwidth, hheight, hmsaa⟩
        · intro hloaded
          refine ⟨_, ?_, haccepted.ready_colors hinOrder hliving htemp.textures rfl hloaded, ?_⟩
          · exact hfirstOf _ rfl
          · intro b hb
            cases hb
            obtain ⟨t', ht', hidle⟩ := hloaded _ (hasTexture_iff.mpr (.inr rfl))
            cases ht.symm.trans ht'
            exact ⟨some_ne_none _, t, ht, hinOrder.drawable ht hidle htarget hmany,
              hformat' ▸ temporaryFormat_depthStencil hformat⟩
      · right
        dsimp only
        rw [heq]
        exact ⟨e, s', rfl, hinOrder, hp'⟩
    · subst hbound
      refine .inl ⟨rts, s, rfl, h, hp, rfl, rfl, ?_, ?_, ?_, ?_⟩
      · rw [RenderTargets.mk.injEq]
        exact ⟨(strongRefs_colors rts).symm, rfl, rfl⟩
      · rw [hfirst]
        exact some_ne_none firsttex
      · intro hmipmap s'' _ _ hrecorded
        rw [Asked, hrecorded, if_neg (show ¬((strongRefs rts).depthStencil.texture = none ∧
          (strongRefs rts).temporaryRTFlags ≠ 0) from hflags)]
        refine ⟨rfl, fun hne => ?_⟩
        exact congrArg RenderTargets.depthStencil ((strongRefs_eq_iff rts).mpr (hmipmap hne)).symm
      · intro hloaded
        refine ⟨_, ?_, haccepted.ready_colors h hliving (fun _ _ ht => ht) rfl hloaded, ?_⟩
        · rw [hfirst]
          exact some_ne_none firsttex
        · intro a ha
          obtain ⟨htarget, hmsaa, hformat⟩ := haccepted.depthStencil a ha
          obtain ⟨t, ht, hidle⟩ := hloaded a (hasTexture_iff.mpr (.inr ha))
          rw [checked_texture ht] at htarget hmsaa hformat
          exact ⟨some_ne_none a, t, ht, h.drawable ht hidle htarget (by rw [hmsaa]), hformat⟩

/-! ## What is in use -/

theorem Rebound.private (h : Rebound s s') (rts : RenderTargets) (hp : Private s) :
    Private { s' with renderTargets := rts } where
  target := by
    rw [h.temporaryTextures, h.textures]
    exact hp.target
  unviewed := by
    rw [h.temporaryTextures, h.textures]
    exact hp.unviewed
  internal := by
    rw [h.temporaryTextures, h.internalBackbuffer]
    exact hp.internal
  window := by
    rw [h.internalBackbufferFBO, h.internalBackbuffer]
    exact hp.window

theorem Rebound.window (h : Rebound s s') (hinOrder : InOrder device maxSamples s)
    (hgood : Good maxSamples none s') (hactive : rts.active = false)
    (hdraw : s'.gl.bound.draw = s.internalBackbufferFBO) :
    InOrder device maxSamples { s' with renderTargets := rts } where
  good := ⟨hgood.synced, hgood.zero, hgood.cached, hgood.distinct, hgood.apart, hgood.fbos,
    hgood.handles, hgood.renderbuffers, hgood.whole⟩
  recorded := by
    refine ⟨fun _ => ⟨hactive, ?_⟩, fun hfirst => ?_, ?_, ?_, fun hzero => ?_⟩
    · rw [getInternalBackbufferFBO_eq]
      exact hdraw.trans h.internalBackbufferFBO.symm
    · rw [active_of_first hfirst] at hactive
      cases hactive
    · dsimp only
      rw [h.temporaryTextures, h.textures]
      exact hinOrder.recorded.temporary
    · dsimp only
      rw [h.temporaryTextures]
      exact hinOrder.recorded.nodup
    · dsimp only at hzero ⊢
      rw [h.internalBackbufferFBO] at hzero ⊢
      rw [h.internalBackbuffer]
      exact h.framebufferObjects _ _ hzero (hinOrder.recorded.internal hzero)
  kin := by
    rw [h.textures]
    exact hinOrder.kin

theorem Rebound.targets (h : Rebound s s') (hinOrder : InOrder device maxSamples s)
    (hgood : Good maxSamples none s') (hfirst : rts.firstTarget.texture ≠ none)
    (hkept : real = { rts with depthStencil := real.depthStencil }) (huse : InUseFor real s')
    (hasked : Asked device { s' with renderTargets := rts } real.depthStencil) :
    InOrder device maxSamples { s' with renderTargets := rts } where
  good := ⟨hgood.synced, hgood.zero, hgood.cached, hgood.distinct, hgood.apart, hgood.fbos,
    hgood.handles, hgood.renderbuffers, hgood.whole⟩
  recorded := by
    refine ⟨fun hnone => absurd hnone hfirst, fun _ => ⟨real.depthStencil, hasked, huse.zero, ?_⟩,
      ?_, ?_, fun hzero => ?_⟩
    · dsimp only
      rw [← hkept]
      exact huse.lookup
    · dsimp only
      rw [h.temporaryTextures, h.textures]
      exact hinOrder.recorded.temporary
    · dsimp only
      rw [h.temporaryTextures]
      exact hinOrder.recorded.nodup
    · dsimp only at hzero ⊢
      rw [h.internalBackbufferFBO] at hzero ⊢
      rw [h.internalBackbuffer]
      exact h.framebufferObjects _ _ hzero (hinOrder.recorded.internal hzero)
  kin := by
    rw [h.textures]
    exact hinOrder.kin

theorem InOrder.setRenderTargetNone (h : InOrder device maxSamples s) (hp : Private s) :
    InOrder device maxSamples (Program.final (Context.setRenderTargetNone s)) ∧
      Private (Program.final (Context.setRenderTargetNone s)) := by
  rw [Context.setRenderTargetNone]
  split_ifs
  · exact ⟨h, hp⟩
  · obtain ⟨s', heq, hgood, hrebound, hdraw⟩ :=
      @Good.setRenderTargetsInternal_window maxSamples s {} h.good rfl {}
    rw [heq]
    exact ⟨hrebound.window h hgood rfl hdraw, hrebound.private {} hp⟩

/-- The mipmap level of a depth and stencil target is recorded; the textures of the set are
loaded, or OpenGL finds its framebuffer incomplete; and it does that only while the system's
framebuffer is in use. -/
def SoundTargets (device : Device F M) (maxSamples : Int) (rts : RenderTargets)
    (temporary : Context.TemporaryAnswers) (answers : Context.BindAnswers) (s : Context) : Prop :=
  ∀ first real s', rts.firstTarget.texture = some first → rts ≠ s.renderTargets →
    Context.realTargets device maxSamples rts first temporary s = .ok real s' →
    (rts.depthStencil.texture ≠ none → rts.depthStencil.mipmap = 0) ∧
      ((s'.framebufferObjects.lookup real).getD 0 = 0 →
        (answers.status = none → Loaded real s') ∧
        (answers.status ≠ none → s.renderTargets.active = false ∧ s.internalBackbufferFBO = 0))

theorem InOrder.setRenderTargets (h : InOrder device maxSamples s) (hp : Private s)
    (hliving : Living rts s) {temporary : Context.TemporaryAnswers} {answers : Context.BindAnswers}
    (hsound : SoundTargets device maxSamples rts temporary answers s) :
    InOrder device maxSamples
        (Program.final (Context.setRenderTargets device maxSamples rts temporary answers s)) ∧
      Private
        (Program.final (Context.setRenderTargets device maxSamples rts temporary answers s)) := by
  rw [Context.setRenderTargets]
  cases hfirst : rts.firstTarget.texture with
  | none => exact h.setRenderTargetNone hp
  | some first =>
    dsimp only
    by_cases hsame : rts = s.renderTargets
    · rw [if_pos hsame]
      exact ⟨h, hp⟩
    rw [if_neg hsame]
    rcases h.realTargets hp hfirst hliving temporary with
      ⟨real, s', heq, hinOrder, hp', hchosen⟩ | ⟨e, s', heq, hinOrder, hp'⟩
    · obtain ⟨hmipmap, hstatus⟩ := hsound first real s' hfirst hsame heq
      rw [heq]
      dsimp only
      rcases @Good.setRenderTargetsInternal maxSamples s' real hinOrder.good hchosen.first answers
          (fun hnew hok => hchosen.ready ((hstatus hnew).1 hok)) with
        ⟨s'', heq', hgood, hrebound, huse⟩ | ⟨e, s'', heq', hasked, hgood, hrebound, hdraw⟩
      · rw [heq']
        refine ⟨hrebound.targets hinOrder hgood ?_ hchosen.kept huse
          (hchosen.asked hmipmap _ hrebound.textures hrebound.temporaryTextures rfl),
          hrebound.private _ hp'⟩
        rw [strongRefs_firstTarget, hfirst]
        exact some_ne_none first
      · -- nothing was recorded for the new set, and the system's framebuffer is in use
        obtain ⟨hactive, hzero⟩ := (hstatus hasked.1).2 hasked.2
        rw [heq']
        have hactive' : s''.renderTargets.active = false := by
          rw [hrebound.renderTargets, hchosen.renderTargets]
          exact hactive
        have hdraw' : s''.gl.bound.draw = s'.internalBackbufferFBO := by
          rw [hdraw, hchosen.internalBackbufferFBO, hzero]
        exact ⟨hrebound.window hinOrder hgood hactive' hdraw', hrebound.private _ hp'⟩
    · rw [heq]
      exact ⟨hinOrder, hp'⟩

end Chosen

end Lhatove.Opengl
