import Lhatove.Opengl.FramebufferCache

/-!
# Textures and the framebuffer in use

What creating, loading, unloading and destroying a texture does to the cached framebuffers
(`Good`) and to the one in use (`Recorded`).

- `InOrder`: what holds between calls.
- `Ended`: what loading leaves, whatever OpenGL answers.
- `InOrder.destroy`: a texture that is not needed takes no framebuffer in use with it.
-/

namespace Lhatove.Opengl

open Graphics AList Context List

/-! ## Textures -/

section Textures

variable {maxSamples : Int} {busy : Option Nat} {s s' : Context} {a : Nat} {t : Texture}

/-- The names of the other textures are kept when a texture gives up its own. -/
theorem Owned.unloaded {name : Texture → Nat} {old new : Nat → Prop} (h : Owned name old s.textures)
    (ht : s.textures.lookup a = some t) (hunloaded : Unloaded a t s s')
    (hname : name { t with fbo := 0, renderbuffer := 0, texture := 0 } = 0)
    (hnew : ∀ b t', s.textures.lookup b = some t' → name t' ≠ 0 → name t' ≠ name t →
      old (name t') → new (name t')) : Owned name new s'.textures := by
  have howned := h.insert (a := a) (absurd hname)
  rw [hunloaded.textures]
  refine howned.imp fun b t' ht' hzero hlive => ?_
  rw [Table.lookup_insert_eq] at ht'
  split_ifs at ht' with hb
  · exact absurd (Option.some.inj ht' ▸ hname) hzero
  · exact hnew b t' ht' hzero (fun heq => hb ((h a t ht (heq ▸ hzero)).2 b t' ht' heq)) hlive

theorem Unloaded.good (hunloaded : Unloaded a t s s') (ht : s.textures.lookup a = some t)
    (hbusy : ∀ b, some b = busy → b = a) (h : Good maxSamples busy s) :
    Good maxSamples none s' := by
  have hother : ∀ b, b ≠ a → s'.textures.lookup b = s.textures.lookup b := by
    intro b hb
    rw [hunloaded.textures, lookup_insert_ne hb]
  have hself : ∀ t', s'.textures.lookup a = some t' → t'.Idle := by
    intro t' ht'
    rw [hunloaded.textures, lookup_insert] at ht'
    cases ht'
    exact ⟨rfl, rfl, rfl⟩
  -- no cached set that is left has the texture
  have hfree : Free a s' := by
    intro targets fbo hfbo hzero
    by_contra hhas
    have hhas := Bool.eq_true_of_not_eq_false hhas
    obtain ⟨-, many, hready⟩ := h.cached targets fbo (hunloaded.dropped _ _ hfbo) hzero
    obtain ⟨-, t', ht', hdrawable⟩ := hready.living hhas
    cases ht'.symm.trans ht
    cases (hunloaded.free hdrawable.target hdrawable.whole.not_idle targets hhas).symm.trans hfbo
  refine { synced := hunloaded.synced h.synced, zero := hunloaded.absent 0 h.zero,
           cached := ?_, distinct := ?_, apart := ?_, fbos := ?_, handles := ?_,
           renderbuffers := ?_, whole := ?_ }
  · intro targets fbo hfbo hzero
    have hfbo' := hunloaded.dropped _ _ hfbo
    obtain ⟨hlookup, many, hready⟩ := h.cached targets fbo hfbo' hzero
    have hhas := hfree targets fbo hfbo hzero
    have hsame : ∀ b, hasTexture b targets = true →
        s'.textures.lookup b = s.textures.lookup b ∧ some b ≠ none := by
      intro b hb
      refine ⟨hother b ?_, Option.some_ne_none b⟩
      rintro rfl
      rw [hhas] at hb
      cases hb
    refine ⟨?_, many, hready.congr hsame⟩
    rw [attachments_congr fun b hb => (hsame b hb).1, hunloaded.framebuffers fbo hzero, hlookup]
    · rintro rfl
      exact h.apart a t targets ht hzero hfbo'
    · intro targets' hfbo''
      rw [h.distinct targets' targets fbo hfbo'' hfbo' hzero]
      exact hhas
  · intro targets targets' fbo hfbo hfbo' hzero
    exact h.distinct targets targets' fbo (hunloaded.dropped _ _ hfbo)
      (hunloaded.dropped _ _ hfbo') hzero
  · intro b t' targets ht' hzero htargets
    by_cases hb : b = a
    · subst hb
      exact hzero (hself t' ht').fbo
    · rw [hother b hb] at ht'
      exact h.apart b t' targets ht' hzero (hunloaded.dropped _ _ htargets)
  · refine h.fbos.unloaded ht hunloaded rfl fun b t' ht' hzero hne hlive => ?_
    rw [hunloaded.framebuffers _ hzero hne fun targets htargets => ?_]
    · exact hlive
    · exact absurd htargets (h.apart b t' targets ht' hzero)
  · refine h.handles.unloaded ht hunloaded rfl fun b t' _ _ hne hlive => ?_
    rw [hunloaded.handles]
    exact Finset.mem_erase.mpr ⟨hne, hlive⟩
  · refine h.renderbuffers.unloaded ht hunloaded rfl fun b t' _ _ hne hlive => ?_
    rw [hunloaded.renderbuffers]
    exact Finset.mem_erase.mpr ⟨hne, hlive⟩
  · intro b t' ht' _
    by_cases hb : b = a
    · subst hb
      exact .inl (hself t' ht')
    · rw [hother b hb] at ht'
      refine h.whole b t' ht' fun heq => hb (hbusy b heq)

/-- What loading a texture leaves as it is. -/
structure Loads (a : Nat) (s s' : Context) : Prop where
  grows : s.gl.Grows s'.gl
  framebufferObjects : s'.framebufferObjects = s.framebufferObjects
  renderTargets : s'.renderTargets = s.renderTargets
  temporaryTextures : s'.temporaryTextures = s.temporaryTextures
  internalBackbuffer : s'.internalBackbuffer = s.internalBackbuffer
  internalBackbufferFBO : s'.internalBackbufferFBO = s.internalBackbufferFBO
  textures : ∀ b, b ≠ a → s'.textures.lookup b = s.textures.lookup b

theorem Loads.trans {s'' : Context} (h : Loads a s s') (h' : Loads a s' s'') : Loads a s s'' where
  grows := h.grows.trans h'.grows
  framebufferObjects := h'.framebufferObjects.trans h.framebufferObjects
  renderTargets := h'.renderTargets.trans h.renderTargets
  temporaryTextures := h'.temporaryTextures.trans h.temporaryTextures
  internalBackbuffer := h'.internalBackbuffer.trans h.internalBackbuffer
  internalBackbufferFBO := h'.internalBackbufferFBO.trans h.internalBackbufferFBO
  textures := fun b hb => (h'.textures b hb).trans (h.textures b hb)

theorem loads_setTexture {gl : OpenGL} (h : s.gl.Grows gl) :
    Loads a s { s with gl := gl, textures := s.textures.insert a t } where
  grows := h
  framebufferObjects := rfl
  renderTargets := rfl
  temporaryTextures := rfl
  internalBackbuffer := rfl
  internalBackbufferFBO := rfl
  textures := fun _ hb => lookup_insert_ne hb

theorem Good.given_zero {old new : Nat → Prop} {kept : Option Nat} {n : Nat} (h : n = 0) :
    Good.Given old new kept n := fun hzero => absurd h hzero

theorem createTexture_good (h : Good maxSamples (some a) s) (hsane : s.gl.Sane)
    (hidle : t.Idle) (answers : LoadAnswers) :
    ∃ handle fbo, (createTexture a t answers s).1 =
        { t with texture := handle, fbo := fbo } ∧ handle ≠ 0 ∧
      Good maxSamples (some a) (createTexture a t answers s).2 ∧
      Loads a s (createTexture a t answers s).2 ∧
      (createTexture a t answers s).2.textures.lookup a =
        some (createTexture a t answers s).1 := by
  have hnew := unused_notMem s.gl.textures answers.texture
  have hzero := unused_ne_zero s.gl.textures answers.texture
  rw [createTexture]
  generalize unused s.gl.textures answers.texture = handle at hnew hzero ⊢
  have hinsert : s.gl.Grows { s.gl with textures := insert handle s.gl.textures } :=
    { hsane.refl with textures := Finset.subset_insert _ _ }
  split_ifs with hfbo
  · obtain ⟨hgrows, hfbozero, hnone, hsome⟩ := createFBO_grows (hsane.grows hinsert)
      { t with texture := handle } answers.fbo hzero (Finset.mem_insert_self _ _)
    have hgrows' := hinsert.trans hgrows
    refine ⟨handle, _, rfl, hzero, ?_, loads_setTexture hgrows', lookup_insert _⟩
    refine h.setTexture hgrows' (fun _ => .inr ⟨hsome, ?_⟩)
      (fun _ => .inr ⟨hgrows.textures (Finset.mem_insert_self _ _), hnew⟩)
      (Good.given_zero hidle.renderbuffer)
    intro hold
    cases hold.symm.trans (congrArg Option.isSome hnone)
  · refine ⟨handle, t.fbo, rfl, hzero, ?_, loads_setTexture hinsert, lookup_insert _⟩
    exact h.setTexture hinsert (Good.given_zero hidle.fbo)
      (fun _ => .inr ⟨Finset.mem_insert_self _ _, hnew⟩) (Good.given_zero hidle.renderbuffer)

/-- A texture on its way through `loadVolatile`. -/
structure Loading (maxSamples : Int) (a : Nat) (t : Texture) (s : Context) (t' : Texture)
    (s' : Context) : Prop where
  good : Good maxSamples (some a) s'
  loads : Loads a s s'
  lookup : s'.textures.lookup a = some t'
  info : t'.info = t.info
  readable : t'.readable = t.readable
  parents : t'.parents = t.parents
  texture : t'.texture ≠ 0 ↔ t.readable = true

theorem Context.loadTexture_loading (h : Good maxSamples none s) (hsane : s.gl.Sane)
    (ht : s.textures.lookup a = some t) (hidle : t.Idle) (answers : LoadAnswers) :
    Loading maxSamples a t s (loadTexture maxSamples answers a t s).2.1
        (loadTexture maxSamples answers a t s).2.2 ∧
      (loadTexture maxSamples answers a t s).2.1.renderbuffer = 0 ∧
      (loadTexture maxSamples answers a t s).2.1.actualSamples =
        max 1 (min t.info.requestedMSAA maxSamples) := by
  have hfree : Free a s := h.free_of_idle fun t' ht' => by
    cases ht.symm.trans ht'
    exact hidle
  have hbusy := h.busy_of_free hfree
  have hidle' : Texture.Idle
      { t with actualSamples := max 1 (min t.info.requestedMSAA maxSamples) } :=
    ⟨hidle.fbo, hidle.texture, hidle.renderbuffer⟩
  rw [loadTexture]
  split
  next hreadable =>
    obtain ⟨handle, fbo, heq, hzero, hgood, hloads, hlookup⟩ :=
      createTexture_good hbusy hsane hidle' answers
    refine ⟨⟨hgood, hloads, hlookup, ?_, ?_, ?_, ?_⟩, ?_, ?_⟩
    all_goals rw [heq]
    · exact ⟨fun _ => hreadable, fun _ => hzero⟩
    · exact hidle.renderbuffer
  next hreadable =>
    have hgood := hbusy.setTexture hsane.refl (Good.given_zero hidle'.fbo)
      (Good.given_zero hidle'.texture) (Good.given_zero hidle'.renderbuffer)
    refine ⟨⟨hgood, loads_setTexture hsane.refl, lookup_insert _, rfl, rfl, rfl,
      ?_⟩, hidle.renderbuffer, rfl⟩
    exact ⟨fun hne => absurd hidle.texture hne, fun hr => absurd hr hreadable⟩

theorem Loading.newRenderbuffer {t' : Texture} (h : Loading maxSamples a t s t' s')
    (hsane : s.gl.Sane) (answers : LoadAnswers) :
    Loading maxSamples a t s (Context.newRenderbuffer t' answers s'.gl).1
      { s' with
        gl := (Context.newRenderbuffer t' answers s'.gl).2
        textures := s'.textures.insert a (Context.newRenderbuffer t' answers s'.gl).1 } ∧
      (answers.renderbufferStatus = none →
        (Context.newRenderbuffer t' answers s'.gl).1.renderbuffer ≠ 0 ∧
        (1 < (Context.newRenderbuffer t' answers s'.gl).1.actualSamples ↔ 1 < t'.actualSamples)) := by
  obtain ⟨hgrows, hresult⟩ := newRenderbuffer_grows (hsane.grows h.loads.grows) t' answers
  have hkept : ∀ {name : Texture → Nat} {old new : Nat → Prop},
      Good.Given old new ((s'.textures.lookup a).map name) (name t') := by
    intro name old new _
    rw [h.lookup]
    exact .inl rfl
  rcases hresult with ⟨hstatus, heq⟩ | ⟨buffer, samples, hstatus, heq, hsamples, hbuffer, hnew, hin⟩
  · refine ⟨?_, fun h => absurd h hstatus⟩
    have hgood := h.good.setTexture (t := (Context.newRenderbuffer t' answers s'.gl).1) hgrows
      (by rw [heq]; exact hkept) (by rw [heq]; exact hkept) (by rw [heq]; exact fun h => absurd rfl h)
    refine ⟨hgood, h.loads.trans (loads_setTexture hgrows), lookup_insert _, ?_, ?_, ?_, ?_⟩
    all_goals rw [heq]
    · exact h.info
    · exact h.readable
    · exact h.parents
    · exact h.texture
  · have hgood := h.good.setTexture (t := (Context.newRenderbuffer t' answers s'.gl).1) hgrows
      (by rw [heq]; exact hkept) (by rw [heq]; exact hkept)
      (by rw [heq]; exact fun _ => .inr ⟨hin, hnew⟩)
    refine ⟨⟨hgood, h.loads.trans (loads_setTexture hgrows), lookup_insert _, ?_, ?_, ?_, ?_⟩,
      fun _ => ⟨?_, ?_⟩⟩
    all_goals rw [heq]
    · exact h.info
    · exact h.readable
    · exact h.parents
    · exact h.texture
    · exact hbuffer
    · exact hsamples

/-- **Loading a texture**: it is whole, or it is unloaded again. -/
theorem Context.load_good (h : Good maxSamples none s) (hsane : s.gl.Sane)
    (ht : s.textures.lookup a = some t) (hidle : t.Idle) (answers : LoadAnswers) :
    ∃ t' s', Loading maxSamples a t s t' s' ∧
      (load maxSamples answers a t s = (none, s') ∧ t'.Whole maxSamples ∨
        ∃ message, load maxSamples answers a t s = (some message, s'.unloadVolatile a)) := by
  obtain ⟨hloading, hzero, hsamples⟩ :=
    loadTexture_loading h hsane ht hidle answers
  rw [load]
  generalize loadTexture maxSamples answers a t s = loaded at hloading hzero hsamples ⊢
  obtain ⟨status, t', s'⟩ := loaded
  have hmany : 1 < t'.actualSamples ↔ 1 < min t.info.requestedMSAA maxSamples := by
    rw [hsamples]
    omega
  have hreadable := hloading.readable
  by_cases hbuffer : status = none ∧ (¬t'.readable = true ∨ 1 < t'.actualSamples)
  · simp only [if_pos hbuffer]
    obtain ⟨hloading', hwhole⟩ := hloading.newRenderbuffer hsane answers
    refine ⟨_, _, hloading', ?_⟩
    cases hstatus : answers.renderbufferStatus with
    | some status => exact .inr ⟨_, rfl⟩
    | none =>
      cases answers.error with
      | some error => exact .inr ⟨_, rfl⟩
      | none =>
        refine .inl ⟨rfl, ?_, ?_, ?_⟩
        · rw [hloading'.readable, hloading'.info]
          refine iff_of_true (hwhole hstatus).1 ?_
          rw [← hmany, ← hreadable]
          exact hbuffer.2.imp_left Bool.eq_false_of_not_eq_true
        · rw [hloading'.readable]
          exact hloading'.texture
        · rw [hloading'.info, ← hmany]
          exact (hwhole hstatus).2
  · simp only [if_neg hbuffer]
    refine ⟨_, _, hloading, ?_⟩
    cases status with
    | some status => exact .inr ⟨_, rfl⟩
    | none =>
      cases answers.error with
      | some error => exact .inr ⟨_, rfl⟩
      | none =>
        have hbuffer : ¬(¬t'.readable = true ∨ 1 < t'.actualSamples) := fun h =>
          hbuffer ⟨rfl, h⟩
        push Not at hbuffer
        refine .inl ⟨rfl, ?_, ?_, ?_⟩
        · refine iff_of_false (not_not_intro hzero) ?_
          rw [hloading.info, ← hmany]
          rintro (hr | hs)
          · rw [hbuffer.1] at hr
            cases hr
          · omega
        · rw [hreadable]
          exact hloading.texture
        · rw [hloading.info]
          exact hmany

theorem Good.insert_idle (h : Good maxSamples none s) (ht : s.textures.lookup a = none)
    (hidle : t.Idle) : Good maxSamples none { s with textures := s.textures.insert a t } := by
  have hfree : Free a s := h.free_of_idle fun t' ht' => absurd (ht.symm.trans ht') (by simp)
  have hgrows : s.gl.Grows s.gl := ⟨h.synced, rfl, fun _ _ hn => hn, h.zero, subset_rfl, subset_rfl⟩
  refine ((h.busy_of_free hfree).setTexture hgrows (given_zero hidle.fbo)
    (given_zero hidle.texture) (given_zero hidle.renderbuffer)).done fun t' ht' => ?_
  rw [lookup_insert] at ht'
  cases ht'
  exact .inl hidle

theorem Good.erase (h : Good maxSamples none s)
    (hidle : ∀ t, s.textures.lookup a = some t → t.Idle) :
    Good maxSamples none { s with textures := s.textures.erase a } where
  synced := h.synced
  zero := h.zero
  cached := by
    intro targets fbo hfbo hzero
    obtain ⟨hlookup, many, hready⟩ := h.cached targets fbo hfbo hzero
    have hhas := h.free_of_idle hidle targets fbo hfbo hzero
    have hsame : ∀ b, hasTexture b targets = true →
        (s.textures.erase a).lookup b = s.textures.lookup b ∧ some b ≠ none := by
      intro b hb
      refine ⟨lookup_erase_ne ?_, Option.some_ne_none b⟩
      rintro rfl
      rw [hhas] at hb
      cases hb
    refine ⟨?_, many, hready.congr hsame⟩
    rw [attachments_congr fun b hb => (hsame b hb).1]
    exact hlookup
  distinct := h.distinct
  apart := by
    intro b t targets ht hzero
    rw [Table.lookup_erase_eq] at ht
    split_ifs at ht with hb
    exact h.apart b t targets ht hzero
  fbos := h.fbos.erase
  handles := h.handles.erase
  renderbuffers := h.renderbuffers.erase
  whole := by
    intro b t ht hb
    rw [Table.lookup_erase_eq] at ht
    split_ifs at ht with hne
    exact h.whole b t ht hb

end Textures

/-! ## What is in use -/

/-- What a texture is, whether it is loaded or not. -/
def Texture.kind (t : Texture) : TextureInfo × Bool × List Nat := (t.info, t.readable, t.parents)

/-- The same sets, and the same textures. -/
structure Same (s s' : Context) : Prop where
  renderTargets : s'.renderTargets = s.renderTargets
  temporaryTextures : s'.temporaryTextures = s.temporaryTextures
  internalBackbuffer : s'.internalBackbuffer = s.internalBackbuffer
  internalBackbufferFBO : s'.internalBackbufferFBO = s.internalBackbufferFBO
  textures : ∀ b, (s'.textures.lookup b).map Texture.kind = (s.textures.lookup b).map Texture.kind

theorem Same.refl (s : Context) : Same s s := ⟨rfl, rfl, rfl, rfl, fun _ => rfl⟩

theorem Same.trans {s s' s'' : Context} (h : Same s s') (h' : Same s' s'') : Same s s'' where
  renderTargets := h'.renderTargets.trans h.renderTargets
  temporaryTextures := h'.temporaryTextures.trans h.temporaryTextures
  internalBackbuffer := h'.internalBackbuffer.trans h.internalBackbuffer
  internalBackbufferFBO := h'.internalBackbufferFBO.trans h.internalBackbufferFBO
  textures := fun b => (h'.textures b).trans (h.textures b)

theorem Same.symm {s s' : Context} (h : Same s s') : Same s' s where
  renderTargets := h.renderTargets.symm
  temporaryTextures := h.temporaryTextures.symm
  internalBackbuffer := h.internalBackbuffer.symm
  internalBackbufferFBO := h.internalBackbufferFBO.symm
  textures := fun b => (h.textures b).symm

theorem Same.info {s s' : Context} (h : Same s s') {b : Nat} {t : Texture}
    (ht : s.textures.lookup b = some t) :
    ∃ t', s'.textures.lookup b = some t' ∧ t'.kind = t.kind := by
  have hsame := h.textures b
  rw [ht] at hsame
  exact Option.map_eq_some_iff.mp hsame

section Recorded

variable {F M : Type} (device : Device F M)

/-- The depth and stencil target of the framebuffer in use: the recorded one, or a temporary
texture of the format that the flags ask for, as large as the first target. -/
def Asked (s : Context) (depthStencil : RenderTarget) : Prop :=
  if s.renderTargets.depthStencil.texture = none ∧ s.renderTargets.temporaryRTFlags ≠ 0 then
    ∃ a t, depthStencil.texture = some a ∧ (∃ temp ∈ s.temporaryTextures, temp.texture = a) ∧
      s.textures.lookup a = some t ∧
      device.temporaryFormat s.renderTargets.temporaryRTFlags = .ok t.info.format ∧
      ∀ b first, s.renderTargets.firstTarget.texture = some b →
        s.textures.lookup b = some first →
        t.info.getPixelWidth 0 = first.info.getPixelWidth s.renderTargets.firstTarget.mipmap ∧
        t.info.getPixelHeight 0 = first.info.getPixelHeight s.renderTargets.firstTarget.mipmap ∧
        max 1 t.info.requestedMSAA = max 1 first.info.requestedMSAA
  else depthStencil.texture = s.renderTargets.depthStencil.texture ∧
    (depthStencil.texture ≠ none → depthStencil = s.renderTargets.depthStencil)

/-- The framebuffer in use is that of the recorded set, or of the window. -/
structure Recorded (s : Context) : Prop where
  window : s.renderTargets.firstTarget.texture = none →
    s.renderTargets.active = false ∧ s.gl.bound.draw = s.getInternalBackbufferFBO
  targets : s.renderTargets.firstTarget.texture ≠ none → ∃ depthStencil,
    Asked device s depthStencil ∧ s.gl.bound.draw ≠ 0 ∧
      s.framebufferObjects.lookup { s.renderTargets with depthStencil } = some s.gl.bound.draw
  temporary : ∀ temp ∈ s.temporaryTextures, ∃ t, s.textures.lookup temp.texture = some t
  nodup : (s.temporaryTextures.map TemporaryTexture.texture).Nodup
  internal : s.internalBackbufferFBO ≠ 0 →
    s.framebufferObjects.lookup s.internalBackbuffer = some s.internalBackbufferFBO

variable {device} {maxSamples : Int} {s s' : Context} {a : Nat} {t : Texture}

theorem getInternalBackbufferFBO_eq (s : Context) :
    s.getInternalBackbufferFBO = s.internalBackbufferFBO := by
  rw [getInternalBackbufferFBO]
  split_ifs with h
  · rfl
  · rw [not_not] at h
    exact h.symm

theorem Recorded.draw_cached (h : Recorded device s) : s.gl.bound.draw = 0 ∨
    ∃ targets, s.framebufferObjects.lookup targets = some s.gl.bound.draw := by
  by_cases hfirst : s.renderTargets.firstTarget.texture = none
  · have hdraw := (h.window hfirst).2
    rw [getInternalBackbufferFBO_eq] at hdraw
    by_cases hzero : s.internalBackbufferFBO = 0
    · exact .inl (hdraw.trans hzero)
    · rw [hdraw]
      exact .inr ⟨_, h.internal hzero⟩
  · obtain ⟨depthStencil, -, -, hlookup⟩ := h.targets hfirst
    exact .inr ⟨_, hlookup⟩

theorem Recorded.sane (h : Recorded device s) (hgood : Good maxSamples none s) : s.gl.Sane where
  synced := hgood.synced
  zero := hgood.zero
  bound := by
    by_cases hzero : s.gl.bound.draw = 0
    · exact .inl hzero
    · obtain ⟨targets, htargets⟩ := h.draw_cached.resolve_left hzero
      rw [(hgood.cached targets _ htargets hzero).1]
      exact .inr rfl

theorem Asked.same {depthStencil : RenderTarget} (hsame : Same s s')
    (h : Asked device s depthStencil) : Asked device s' depthStencil := by
  rw [Asked] at h ⊢
  rw [hsame.renderTargets, hsame.temporaryTextures]
  split_ifs at h ⊢ with hflags
  · obtain ⟨a, t, ha, htemp, ht, hformat, hsize⟩ := h
    obtain ⟨t', ht', hkind⟩ := hsame.info ht
    have hinfo : t'.info = t.info := congrArg Prod.fst hkind
    refine ⟨a, t', ha, htemp, ht', hinfo ▸ hformat, fun b first hb hfirst => ?_⟩
    obtain ⟨first', hfirst', hkind'⟩ := hsame.symm.info hfirst
    have hinfo' : first'.info = first.info := congrArg Prod.fst hkind'
    rw [hinfo, ← hinfo']
    exact hsize b first' hb hfirst'
  · exact h

theorem Recorded.same (hsame : Same s s') (hdraw : s'.gl.bound.draw = s.gl.bound.draw)
    (hcached : ∀ targets fbo, fbo ≠ 0 → fbo = s.gl.bound.draw ∨ fbo = s.internalBackbufferFBO →
      s.framebufferObjects.lookup targets = some fbo →
      s'.framebufferObjects.lookup targets = some fbo)
    (h : Recorded device s) : Recorded device s' where
  window := by
    rw [hsame.renderTargets, hdraw, getInternalBackbufferFBO_eq, hsame.internalBackbufferFBO,
      ← getInternalBackbufferFBO_eq]
    exact h.window
  targets := by
    rw [hsame.renderTargets, hdraw]
    intro hfirst
    obtain ⟨depthStencil, hasked, hzero, hlookup⟩ := h.targets hfirst
    exact ⟨depthStencil, hasked.same hsame, hzero, hcached _ _ hzero (.inl rfl) hlookup⟩
  temporary := by
    rw [hsame.temporaryTextures]
    intro temp htemp
    obtain ⟨t, ht⟩ := h.temporary temp htemp
    obtain ⟨t', ht', -⟩ := hsame.info ht
    exact ⟨t', ht'⟩
  nodup := by
    rw [hsame.temporaryTextures]
    exact h.nodup
  internal := by
    rw [hsame.internalBackbufferFBO, hsame.internalBackbuffer]
    exact fun hzero => hcached _ _ hzero (.inr rfl) (h.internal hzero)

/-! ### Loading and unloading -/

theorem Loads.recorded (h : Loads a s s') (hsame : Same s s') (hrecorded : Recorded device s) :
    Recorded device s' :=
  hrecorded.same hsame h.grows.draw fun _ _ _ _ hlookup => by
    rw [h.framebufferObjects]
    exact hlookup

theorem Loading.same {t' : Texture} (h : Loading maxSamples a t s t' s')
    (ht : s.textures.lookup a = some t) : Same s s' where
  renderTargets := h.loads.renderTargets
  temporaryTextures := h.loads.temporaryTextures
  internalBackbuffer := h.loads.internalBackbuffer
  internalBackbufferFBO := h.loads.internalBackbufferFBO
  textures := by
    intro b
    by_cases hb : b = a
    · subst hb
      rw [h.lookup, ht]
      exact congrArg some (congrArg₂ Prod.mk h.info (congrArg₂ Prod.mk h.readable h.parents))
    · rw [h.loads.textures b hb]

theorem Unloaded.same (h : Unloaded a t s s') (ht : s.textures.lookup a = some t) :
    Same s s' where
  renderTargets := h.renderTargets
  temporaryTextures := h.temporaryTextures
  internalBackbuffer := h.internalBackbuffer
  internalBackbufferFBO := h.internalBackbufferFBO
  textures := by
    intro b
    rw [h.textures, Table.lookup_insert_eq]
    split_ifs with hb
    · rw [hb, ht]
      rfl
    · rfl

/-- A texture is drawn to neither by the framebuffer in use nor by that of the window. -/
def Unused (a : Nat) (s : Context) : Prop :=
  ∀ targets fbo, fbo ≠ 0 → fbo = s.gl.bound.draw ∨ fbo = s.internalBackbufferFBO →
    s.framebufferObjects.lookup targets = some fbo → hasTexture a targets = false

theorem Free.unused (h : Free a s) : Unused a s :=
  fun targets fbo hzero _ hfbo => h targets fbo hfbo hzero

theorem Unloaded.recorded {busy : Option Nat} (h : Unloaded a t s s')
    (ht : s.textures.lookup a = some t) (hgood : Good maxSamples busy s) (hunused : Unused a s)
    (hrecorded : Recorded device s) : Recorded device s' := by
  refine hrecorded.same (h.same ht) (h.draw ?_) fun targets fbo hzero hfbo hlookup => ?_
  · by_cases hzero : s.gl.bound.draw = 0
    · exact .inl hzero
    · obtain ⟨targets, htargets⟩ := hrecorded.draw_cached.resolve_left hzero
      refine .inr ⟨fun heq => ?_, fun targets' => hunused targets' _ hzero (.inl rfl)⟩
      rw [heq] at hzero htargets
      exact hgood.apart a t targets ht hzero htargets
  · rw [h.kept targets (hunused targets fbo hzero hfbo hlookup)]
    exact hlookup

/-- A texture is not among those that it is a view of, and those are there. -/
def Kin (textures : Table Nat Texture) : Prop :=
  ∀ a t, textures.lookup a = some t → (a :: t.parents).Nodup ∧
    ∀ parent ∈ t.parents, ∃ t', textures.lookup parent = some t'

theorem Same.kin (h : Same s s') (hkin : Kin s.textures) : Kin s'.textures := by
  intro a t' ht'
  obtain ⟨t, ht, hkind⟩ := h.symm.info ht'
  have hparents : t.parents = t'.parents := congrArg (fun kind => kind.2.2) hkind
  rw [← hparents]
  refine ⟨(hkin a t ht).1, fun parent hparent => ?_⟩
  obtain ⟨p, hp⟩ := (hkin a t ht).2 parent hparent
  obtain ⟨p', hp', -⟩ := h.info hp
  exact ⟨p', hp'⟩

/-- The invariant of all calls. -/
structure InOrder (device : Device F M) (maxSamples : Int) (s : Context) : Prop where
  good : Good maxSamples none s
  recorded : Recorded device s
  kin : Kin s.textures

theorem InOrder.sane (h : InOrder device maxSamples s) : s.gl.Sane := h.recorded.sane h.good

theorem InOrder.unloadVolatile (h : InOrder device maxSamples s) (hunused : Unused a s) :
    InOrder device maxSamples (s.unloadVolatile a) ∧ Same s (s.unloadVolatile a) ∧
      ∀ t, (s.unloadVolatile a).textures.lookup a = some t → t.Idle := by
  cases ht : s.textures.lookup a with
  | none =>
    rw [Context.unloadVolatile, ht]
    exact ⟨h, .refl s, fun t ht' => absurd (ht.symm.trans ht') (by simp)⟩
  | some t =>
    have hunloaded := unloadVolatile_unloaded ht
    have hsame := hunloaded.same ht
    refine ⟨⟨hunloaded.good ht (fun b hb => absurd hb (Option.some_ne_none b)) h.good,
      hunloaded.recorded ht h.good hunused h.recorded, hsame.kin h.kin⟩, hsame, fun t' ht' => ?_⟩
    rw [hunloaded.textures, lookup_insert] at ht'
    cases ht'
    exact ⟨rfl, rfl, rfl⟩

/-- What loading a texture leaves: it is whole, or what went wrong is known. -/
structure Ended (device : Device F M) (maxSamples : Int) (a : Nat) (s : Context)
    (result : Option String × Context) : Prop where
  inOrder : InOrder device maxSamples result.2
  same : Same s result.2
  whole : result.1 = none → ∀ t, result.2.textures.lookup a = some t → t.Whole maxSamples
  idle : result.1 ≠ none → ∀ t, result.2.textures.lookup a = some t → t.Idle

theorem InOrder.load (h : InOrder device maxSamples s) (ht : s.textures.lookup a = some t)
    (hidle : t.Idle) (answers : LoadAnswers) :
    Ended device maxSamples a s (Context.load maxSamples answers a t s) ∧
      ∀ b, b ≠ a →
        (Context.load maxSamples answers a t s).2.textures.lookup b = s.textures.lookup b := by
  have hfree : Free a s := h.good.free_of_idle fun t' ht' => by
    cases ht.symm.trans ht'
    exact hidle
  obtain ⟨t', s', hloading, hresult⟩ :=
    load_good h.good h.sane ht hidle answers
  have hsame := hloading.same ht
  have hrecorded := hloading.loads.recorded hsame h.recorded
  rcases hresult with ⟨heq, hwhole⟩ | ⟨message, heq⟩
  · rw [heq]
    have hself : ∀ t'', s'.textures.lookup a = some t'' → t''.Whole maxSamples := by
      intro t'' ht''
      cases hloading.lookup.symm.trans ht''
      exact hwhole
    exact ⟨⟨⟨hloading.good.done fun t'' ht'' => .inr (hself t'' ht''), hrecorded,
      hsame.kin h.kin⟩, hsame, fun _ => hself, fun hne => absurd rfl hne⟩, hloading.loads.textures⟩
  · -- it is unloaded again
    rw [heq]
    have hunloaded := unloadVolatile_unloaded hloading.lookup
    have hfree' : Free a s' := by
      rw [Free, hloading.loads.framebufferObjects]
      exact hfree
    have hsame' := hsame.trans (hunloaded.same hloading.lookup)
    refine ⟨⟨⟨hunloaded.good hloading.lookup (fun b hb => Option.some.inj hb) hloading.good,
      hunloaded.recorded hloading.lookup hloading.good hfree'.unused hrecorded,
      hsame'.kin h.kin⟩, hsame', fun hne => absurd hne (Option.some_ne_none _), fun _ t'' ht'' => ?_⟩,
      fun b hb => ?_⟩
    · dsimp only at ht''
      rw [hunloaded.textures, lookup_insert] at ht''
      cases ht''
      exact ⟨rfl, rfl, rfl⟩
    · dsimp only
      rw [hunloaded.textures, lookup_insert_ne hb, hloading.loads.textures b hb]

theorem Ended.rest (h : InOrder device maxSamples s)
    (hwhole : ∀ t, s.textures.lookup a = some t → t.Whole maxSamples) :
    Ended device maxSamples a s (none, s) :=
  ⟨h, .refl s, fun _ => hwhole, fun hne => absurd rfl hne⟩

theorem InOrder.loadVolatile (answers : Nat → LoadAnswers) (parents : List Nat) :
    ∀ {a : Nat} {s : Context}, (a :: parents).Nodup → InOrder device maxSamples s →
      Ended device maxSamples a s (Context.loadVolatile maxSamples answers parents a s) ∧
        ∀ b, b ∉ a :: parents →
          (Context.loadVolatile maxSamples answers parents a s).2.textures.lookup b =
            s.textures.lookup b := by
  induction parents with
  | nil =>
    intro a s _ h
    rw [Context.loadVolatile]
    cases ht : s.textures.lookup a with
    | none => exact ⟨.rest h fun t ht' => absurd (ht.symm.trans ht') (by simp), fun _ _ => rfl⟩
    | some t =>
      dsimp only
      rcases h.good.whole a t ht (Option.some_ne_none a) with hidle | hwhole
      · rw [if_neg hidle.not_loaded]
        obtain ⟨hended, hother⟩ := h.load ht hidle (answers a)
        exact ⟨hended, fun b hb => hother b fun heq => hb (heq ▸ mem_cons_self)⟩
      · rw [if_pos hwhole.loaded]
        exact ⟨.rest h fun t' ht' => Option.some.inj (ht.symm.trans ht') ▸ hwhole, fun _ _ => rfl⟩
  | cons parent parents ih =>
    intro a s hnodup h
    rw [Context.loadVolatile]
    cases ht : s.textures.lookup a with
    | none => exact ⟨.rest h fun t ht' => absurd (ht.symm.trans ht') (by simp), fun _ _ => rfl⟩
    | some t =>
      dsimp only
      rcases h.good.whole a t ht (Option.some_ne_none a) with hidle | hwhole
      · rw [if_neg hidle.not_loaded]
        rw [nodup_cons] at hnodup
        obtain ⟨hended, hother⟩ := ih hnodup.2 h
        -- the parents have left the texture alone
        have ht' := (hother a hnodup.1).trans ht
        obtain ⟨hended', hother'⟩ := hended.inOrder.load ht' hidle (answers a)
        refine ⟨⟨hended'.inOrder, hended.same.trans hended'.same, hended'.whole, hended'.idle⟩,
          fun b hb => ?_⟩
        rw [mem_cons, not_or] at hb
        exact (hother' b hb.1).trans (hother b hb.2)
      · rw [if_pos hwhole.loaded]
        exact ⟨.rest h fun t' ht' => Option.some.inj (ht.symm.trans ht') ▸ hwhole, fun _ _ => rfl⟩

/-! ### Creating and destroying -/

/-- The texture goes, and nothing else changes. -/
structure Gone (a : Nat) (s s' : Context) : Prop where
  renderTargets : s'.renderTargets = s.renderTargets
  temporaryTextures : s'.temporaryTextures = s.temporaryTextures
  internalBackbuffer : s'.internalBackbuffer = s.internalBackbuffer
  internalBackbufferFBO : s'.internalBackbufferFBO = s.internalBackbufferFBO
  framebufferObjects : s'.framebufferObjects = s.framebufferObjects
  gl : s'.gl = s.gl
  textures : ∀ b, b ≠ a → s'.textures.lookup b = s.textures.lookup b

/-- A texture that is in use: recorded, temporary, or viewed by another one. -/
def Needed (a : Nat) (s : Context) : Prop :=
  hasTexture a s.renderTargets = true ∨ a ∈ s.temporaryTextures.map TemporaryTexture.texture ∨
    ∃ b t, s.textures.lookup b = some t ∧ a ∈ t.parents

theorem Gone.recorded (h : Gone a s s') (hneeded : ¬Needed a s) (hrecorded : Recorded device s) :
    Recorded device s' where
  window := by
    rw [h.renderTargets, h.gl, getInternalBackbufferFBO_eq, h.internalBackbufferFBO,
      ← getInternalBackbufferFBO_eq]
    exact hrecorded.window
  targets := by
    rw [h.renderTargets, h.gl, h.framebufferObjects]
    intro hfirst
    obtain ⟨depthStencil, hasked, hrest⟩ := hrecorded.targets hfirst
    refine ⟨depthStencil, ?_, hrest⟩
    rw [Asked] at hasked ⊢
    rw [h.renderTargets, h.temporaryTextures]
    split_ifs at hasked ⊢ with hflags
    · obtain ⟨b, t, hb, ⟨temp, htemp, rfl⟩, ht, hformat, hsize⟩ := hasked
      refine ⟨temp.texture, t, hb, ⟨temp, htemp, rfl⟩, ?_, hformat, fun c first hc hfirst' => ?_⟩
      · rw [h.textures _ fun heq => hneeded (.inr (.inl (heq ▸ mem_map_of_mem htemp)))]
        exact ht
      · rw [h.textures c fun heq => hneeded (.inl (heq ▸ hasTexture_first hc))] at hfirst'
        exact hsize c first hc hfirst'
    · exact hasked
  temporary := by
    rw [h.temporaryTextures]
    intro temp htemp
    rw [h.textures _ fun heq => hneeded (.inr (.inl (heq ▸ mem_map_of_mem htemp)))]
    exact hrecorded.temporary temp htemp
  nodup := by
    rw [h.temporaryTextures]
    exact hrecorded.nodup
  internal := by
    rw [h.internalBackbufferFBO, h.internalBackbuffer, h.framebufferObjects]
    exact hrecorded.internal

theorem InOrder.erase (h : InOrder device maxSamples s) (hneeded : ¬Needed a s)
    (hidle : ∀ t, s.textures.lookup a = some t → t.Idle) :
    InOrder device maxSamples { s with textures := s.textures.erase a } where
  good := h.good.erase hidle
  recorded := by
    have hgone : Gone a s { s with textures := s.textures.erase a } :=
      ⟨rfl, rfl, rfl, rfl, rfl, rfl, fun _ hb => lookup_erase_ne hb⟩
    exact hgone.recorded hneeded h.recorded
  kin := by
    intro b t ht
    rw [Table.lookup_erase_eq] at ht
    split_ifs at ht with hb
    refine ⟨(h.kin b t ht).1, fun parent hparent => ?_⟩
    have hne : parent ≠ a := by
      rintro rfl
      exact hneeded (.inr (.inr ⟨b, t, ht, hparent⟩))
    rw [lookup_erase_ne hne]
    exact (h.kin b t ht).2 parent hparent

theorem InOrder.living (h : InOrder device maxSamples s) (hneeded : Needed a s) :
    ∃ t, s.textures.lookup a = some t := by
  rcases hneeded with hhas | htemp | ⟨b, t, ht, hparent⟩
  · by_cases hfirst : s.renderTargets.firstTarget.texture = none
    · -- the window has no textures
      have hactive := (h.recorded.window hfirst).1
      rw [RenderTargets.active, decide_eq_false_iff_not, not_or, not_not, not_not] at hactive
      rcases hasTexture_iff.mp hhas with ⟨rt, hrt, -⟩ | hdepth
      · rw [hactive.1] at hrt
        cases hrt
      · cases hactive.2.symm.trans hdepth
    · obtain ⟨depthStencil, hasked, hzero, hlookup⟩ := h.recorded.targets hfirst
      obtain ⟨-, many, hready⟩ := h.good.cached _ _ hlookup hzero
      rcases hasTexture_iff.mp hhas with hcolor | hdepth
      · exact (hready.living (hasTexture_iff.mpr (.inl hcolor))).2.imp fun _ h => h.1
      · rw [Asked, if_neg fun hflags => by cases hflags.1.symm.trans hdepth] at hasked
        refine (hready.living (hasTexture_iff.mpr (.inr ?_))).2.imp fun _ h => h.1
        rw [hasked.1]
        exact hdepth
  · obtain ⟨temp, hmem, rfl⟩ := mem_map.mp htemp
    exact h.recorded.temporary temp hmem
  · exact (h.kin b t ht).2 a hparent

theorem Same.needed (h : Same s s') (hneeded : Needed a s') : Needed a s := by
  rw [Needed, h.renderTargets, h.temporaryTextures] at hneeded
  refine hneeded.imp_right (.imp_right fun ⟨b, t', ht', hparent⟩ => ?_)
  obtain ⟨t, ht, hkind⟩ := h.symm.info ht'
  have hparents : t.parents = t'.parents := congrArg (fun kind => kind.2.2) hkind
  exact ⟨b, t, ht, hparents ▸ hparent⟩

theorem InOrder.insert_idle (h : InOrder device maxSamples s) (ha : s.textures.lookup a = none)
    (hidle : t.Idle) (hparents : ∀ parent ∈ t.parents, ∃ t', s.textures.lookup parent = some t')
    (hnodup : t.parents.Nodup) :
    InOrder device maxSamples { s with textures := s.textures.insert a t } ∧
      ¬Needed a { s with textures := s.textures.insert a t } := by
  have hliving : ¬∃ t, s.textures.lookup a = some t := by
    rintro ⟨t, ht⟩
    cases ha.symm.trans ht
  have hself : a ∉ t.parents := fun hmem => hliving (hparents a hmem)
  have hneeded : ¬Needed a s := fun hneeded => hliving (h.living hneeded)
  have hgone : Gone a s { s with textures := s.textures.insert a t } :=
    ⟨rfl, rfl, rfl, rfl, rfl, rfl, fun _ hb => lookup_insert_ne hb⟩
  refine ⟨⟨h.good.insert_idle ha hidle, hgone.recorded hneeded h.recorded, ?_⟩, ?_⟩
  · intro b t' ht'
    have hliving' : ∀ parent, (∃ t', s.textures.lookup parent = some t') →
        ∃ t', (s.textures.insert a t).lookup parent = some t' := by
      rintro parent ⟨p, hp⟩
      refine ⟨p, ?_⟩
      rw [lookup_insert_ne]
      · exact hp
      · rintro rfl
        exact hliving ⟨p, hp⟩
    rw [Table.lookup_insert_eq] at ht'
    split_ifs at ht' with hb
    · cases ht'
      rw [hb]
      exact ⟨nodup_cons.mpr ⟨hself, hnodup⟩, fun parent hp => hliving' _ (hparents parent hp)⟩
    · exact ⟨(h.kin b t' ht').1, fun parent hp => hliving' _ ((h.kin b t' ht').2 parent hp)⟩
  · rintro (hhas | htemp | ⟨b, t', ht', hparent⟩)
    · exact hneeded (.inl hhas)
    · exact hneeded (.inr (.inl htemp))
    · dsimp only at ht'
      rw [Table.lookup_insert_eq] at ht'
      split_ifs at ht' with hb
      · cases ht'
        exact hself hparent
      · exact hneeded (.inr (.inr ⟨b, t', ht', hparent⟩))

/-- The other textures are as before. -/
structure Apart (a : Nat) (s s' : Context) : Prop where
  renderTargets : s'.renderTargets = s.renderTargets
  temporaryTextures : s'.temporaryTextures = s.temporaryTextures
  internalBackbuffer : s'.internalBackbuffer = s.internalBackbuffer
  internalBackbufferFBO : s'.internalBackbufferFBO = s.internalBackbufferFBO
  textures : ∀ b, b ≠ a →
    (s'.textures.lookup b).map Texture.kind = (s.textures.lookup b).map Texture.kind

/-- A view is of a texture that is there. -/
def Based (base : Option Nat) (s : Context) : Prop :=
  ∀ b, base = some b → ∃ t, s.textures.lookup b = some t

theorem InOrder.parentsOf (h : InOrder device maxSamples s) {base : Option Nat}
    (hbase : Based base s) : (s.parentsOf base).Nodup ∧
      ∀ parent ∈ s.parentsOf base, ∃ t, s.textures.lookup parent = some t := by
  cases base with
  | none => exact ⟨nodup_nil, fun _ hmem => absurd hmem not_mem_nil⟩
  | some b =>
    obtain ⟨t, ht⟩ := hbase b rfl
    obtain ⟨hnodup, hliving⟩ := h.kin b t ht
    rw [Context.parentsOf, ht]
    exact ⟨hnodup, forall_mem_cons.mpr ⟨⟨t, ht⟩, hliving⟩⟩

theorem InOrder.newTexture (h : InOrder device maxSamples s) {base : Option Nat}
    (hbase : Based base s) (info : TextureInfo) (readable : Bool) (address : Nat)
    (answers : Nat → LoadAnswers) :
    (∃ a t s', Context.newTexture maxSamples info readable base address answers s = .ok a s' ∧
        InOrder device maxSamples s' ∧ s.textures.lookup a = none ∧ Apart a s s' ∧
        s'.textures.lookup a = some t ∧ t.Whole maxSamples ∧
        t.kind = (normalized info, readable, s.parentsOf base) ∧
        ∀ b, b ≠ a → b ∉ s.parentsOf base → s'.textures.lookup b = s.textures.lookup b) ∨
      ∃ a e s', Context.newTexture maxSamples info readable base address answers s = .error e s' ∧
        InOrder device maxSamples s' ∧ s.textures.lookup a = none ∧ Apart a s s' ∧
        s'.textures.lookup a = none := by
  have ha := Table.lookup_unused s.textures address
  obtain ⟨hnodup, hliving⟩ := h.parentsOf hbase
  unfold Context.newTexture
  generalize unused s.textures.names address = a at ha ⊢
  dsimp only
  have hself : a ∉ s.parentsOf base := by
    intro hmem
    obtain ⟨t, ht⟩ := hliving a hmem
    cases ha.symm.trans ht
  obtain ⟨hinsert, hneeded⟩ := h.insert_idle (t := {
    info := normalized info, readable, parents := s.parentsOf base }) ha ⟨rfl, rfl, rfl⟩
    hliving hnodup
  obtain ⟨hended, hother⟩ := hinsert.loadVolatile answers _ (nodup_cons.mpr ⟨hself, hnodup⟩)
  generalize Context.loadVolatile maxSamples answers (s.parentsOf base) a _ = result
    at hended hother ⊢
  obtain ⟨message, s'⟩ := result
  have hapart : Apart a s s' :=
    ⟨hended.same.renderTargets, hended.same.temporaryTextures, hended.same.internalBackbuffer,
      hended.same.internalBackbufferFBO, fun b hb =>
        (hended.same.textures b).trans (by rw [lookup_insert_ne hb])⟩
  cases message with
  | none =>
    obtain ⟨t, ht, hkind⟩ := hended.same.info (lookup_insert _)
    exact .inl ⟨a, t, s', rfl, hended.inOrder, ha, hapart, ht, hended.whole rfl t ht,
      hkind, fun b hb hparent =>
        (hother b (not_mem_cons_of_ne_of_not_mem hb hparent)).trans (lookup_insert_ne hb)⟩
  | some message =>
    have hneeded' : ¬Needed a s' := fun h => hneeded (hended.same.needed h)
    refine .inr ⟨a, _, _, rfl, hended.inOrder.erase hneeded' (hended.idle (Option.some_ne_none _)),
      ha, ⟨hapart.renderTargets, hapart.temporaryTextures, hapart.internalBackbuffer,
        hapart.internalBackbufferFBO, fun b hb => ?_⟩, lookup_erase _ _⟩
    rw [lookup_erase_ne hb]
    exact hapart.textures b hb

theorem InOrder.destroy (h : InOrder device maxSamples s) (hneeded : ¬Needed a s)
    (hinternal : hasTexture a s.internalBackbuffer = false) :
    InOrder device maxSamples (s.destroy a) ∧ Apart a s (s.destroy a) := by
  have hunused : Unused a s := by
    intro targets fbo hzero hfbo hlookup
    have hwindow : fbo = s.internalBackbufferFBO → hasTexture a targets = false := by
      rintro rfl
      rw [h.good.distinct targets _ _ hlookup (h.recorded.internal hzero) hzero]
      exact hinternal
    rcases hfbo with rfl | hfbo
    · by_cases hfirst : s.renderTargets.firstTarget.texture = none
      · refine hwindow ?_
        rw [(h.recorded.window hfirst).2, getInternalBackbufferFBO_eq]
      · -- the recorded set holds its textures, and the temporary ones are kept
        obtain ⟨depthStencil, hasked, -, hlookup'⟩ := h.recorded.targets hfirst
        rw [h.good.distinct targets _ _ hlookup hlookup' hzero]
        by_contra hhas
        rcases hasTexture_iff.mp (Bool.eq_true_of_not_eq_false hhas) with hcolor | hdepth
        · exact hneeded (.inl (hasTexture_iff.mpr (.inl hcolor)))
        · dsimp only at hdepth
          rw [Asked] at hasked
          split_ifs at hasked with hflags
          · obtain ⟨b, t, hb, ⟨temp, htemp, rfl⟩, -⟩ := hasked
            cases hb.symm.trans hdepth
            exact hneeded (.inr (.inl (mem_map_of_mem htemp)))
          · rw [hasked.1] at hdepth
            exact hneeded (.inl (hasTexture_iff.mpr (.inr hdepth)))
    · exact hwindow hfbo
  obtain ⟨hinOrder, hsame, hidle⟩ := h.unloadVolatile hunused
  refine ⟨hinOrder.erase (fun h => hneeded (hsame.needed h)) hidle, hsame.renderTargets,
    hsame.temporaryTextures, hsame.internalBackbuffer, hsame.internalBackbufferFBO, fun b hb => ?_⟩
  rw [Context.destroy]
  rw [lookup_erase_ne hb]
  exact hsame.textures b

end Recorded

end Lhatove.Opengl
