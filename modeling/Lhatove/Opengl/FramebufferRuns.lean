import Lhatove.Opengl.FramebufferTargets

/-!
# Runs of the framebuffer cache

The framebuffer in use is the one that is recorded, and no cached framebuffer has an image that
is gone, in every run whose calls are sound.

- `Call`, `system`: the calls on the backend, and the states that they lead to;
- `InUse`, `NoneDeleted`: what is claimed of a state;
- `inUse_reachable`: the result, by the invariant `InOrder` with `Private`.
-/

namespace Lhatove.Opengl

open Graphics Context List

/-! ## Frames -/

section Frames

variable {F M : Type} {device : Device F M} {maxSamples : Int} {s : Context} {a : Nat}

theorem destroy_temporaries (s : Context) (a : Nat) (temps : List TemporaryTexture) :
    { s.destroy a with temporaryTextures := temps } =
      .destroy a { s with temporaryTextures := temps } := by
  unfold Context.destroy Context.unloadVolatile
  cases s.textures.lookup a with
  | none => rfl
  | some t =>
    dsimp only
    split_ifs <;> rfl

theorem temporaryTextures_destroy (s : Context) (a : Nat) :
    (s.destroy a).temporaryTextures = s.temporaryTextures := by
  unfold Context.destroy Context.unloadVolatile
  cases s.textures.lookup a with
  | none => rfl
  | some t =>
    dsimp only
    split_ifs <;> rfl

theorem hasTexture_inactive {rts : RenderTargets} (h : rts.active = false) (a : Nat) :
    hasTexture a rts = false := by
  rw [RenderTargets.active, decide_eq_false_iff_not, not_or, not_not, not_not] at h
  by_contra hhas
  rcases hasTexture_iff.mp (Bool.eq_true_of_not_eq_false hhas) with ⟨rt, hrt, -⟩ | hdepth
  · rw [h.1] at hrt
    cases hrt
  · cases h.2.symm.trans hdepth

theorem InOrder.dropTemporary (h : InOrder device maxSamples s) (hp : Private s)
    (hactive : s.renderTargets.active = false) {i : Nat} {t : TemporaryTexture}
    (ht : s.temporaryTextures[i]? = some t) :
    InOrder device maxSamples (Context.destroy t.texture
        { s with temporaryTextures := swapRemove s.temporaryTextures i }) ∧
      Private (.destroy t.texture
        { s with temporaryTextures := swapRemove s.temporaryTextures i }) ∧
      (Context.destroy t.texture { s with
        temporaryTextures := swapRemove s.temporaryTextures i }).renderTargets.active = false := by
  have hmem := mem_of_getElem? ht
  have hperm := swapRemove_perm ht
  have hrest : ∀ temp ∈ swapRemove s.temporaryTextures i, temp ∈ s.temporaryTextures :=
    fun temp htemp => hperm.subset (mem_cons_of_mem _ htemp)
  have hnodup : ((t :: swapRemove s.temporaryTextures i).map TemporaryTexture.texture).Nodup :=
    (hperm.map _).nodup_iff.mpr h.recorded.nodup
  rw [map_cons, nodup_cons] at hnodup
  have hinOrder : InOrder device maxSamples
      { s with temporaryTextures := swapRemove s.temporaryTextures i } :=
    h.temporaries (fun temp htemp => h.recorded.temporary temp (hrest temp htemp)) hnodup.2
      fun htrue => absurd (hactive.symm.trans htrue) Bool.false_ne_true
  have hp' : Private { s with temporaryTextures := swapRemove s.temporaryTextures i } :=
    hp.temporaries fun temp htemp => ⟨temp, hrest temp htemp, rfl⟩
  have hneeded : ¬Needed t.texture
      { s with temporaryTextures := swapRemove s.temporaryTextures i } := by
    rintro (hhas | htemp | ⟨b, t', ht', hparent⟩)
    · cases (hasTexture_inactive hactive t.texture).symm.trans hhas
    · exact hnodup.1 htemp
    · exact hp.unviewed b t' ht' t hmem hparent
  obtain ⟨hdestroyed, hapart⟩ := hinOrder.destroy hneeded (hp.internal t hmem)
  refine ⟨hdestroyed, hp'.apart hapart ?_ ?_, ?_⟩
  · intro temp htemp heq
    exact hnodup.1 (heq ▸ mem_map_of_mem htemp)
  · intro t' ht'
    cases ht'.symm.trans (AList.lookup_erase _ _)
  · rw [hapart.renderTargets]
    exact hactive

theorem InOrder.updateTemporaryResources (i : Nat) : ∀ {s : Context},
    InOrder device maxSamples s → Private s → s.renderTargets.active = false →
      InOrder device maxSamples (Context.updateTemporaryResources i s) ∧
        Private (Context.updateTemporaryResources i s) := by
  induction i with
  | zero => exact fun h hp _ => ⟨h, hp⟩
  | succ i ih =>
    intro s h hp hactive
    rw [Context.updateTemporaryResources]
    cases ht : s.temporaryTextures[i]? with
    | none => exact ih h hp hactive
    | some t =>
      dsimp only
      by_cases hold : maxTemporaryResourceUnusedFrames ≤ t.framesSinceUse
      · rw [if_pos hold, temporaryTextures_destroy, destroy_temporaries]
        obtain ⟨h', hp', hactive'⟩ := h.dropTemporary hp hactive ht
        exact ih h' hp' hactive'
      · rw [if_neg hold]
        -- only the age of the texture changes
        split
        · have hmap : (s.temporaryTextures.set i
              { t with framesSinceUse := t.framesSinceUse + 1 }).map TemporaryTexture.texture =
              s.temporaryTextures.map TemporaryTexture.texture := by
            obtain ⟨hi, rfl⟩ := List.getElem?_eq_some_iff.mp ht
            have hi' : i < (s.temporaryTextures.map TemporaryTexture.texture).length := by
              rwa [length_map]
            rw [map_set]
            refine (congrArg (set _ i) ?_).trans (set_getElem_self hi')
            rw [getElem_map]
          have hsub : ∀ temp ∈ s.temporaryTextures.set i
              { t with framesSinceUse := t.framesSinceUse + 1 },
              ∃ temp' ∈ s.temporaryTextures, temp'.texture = temp.texture := by
            intro temp htemp
            have hname := mem_map_of_mem (f := TemporaryTexture.texture) htemp
            rw [hmap] at hname
            exact mem_map.mp hname
          refine ih (h.temporaries ?_ (hmap ▸ h.recorded.nodup) ?_) (hp.temporaries hsub) hactive
          · intro temp htemp
            obtain ⟨temp', htemp', heq⟩ := hsub temp htemp
            exact heq ▸ h.recorded.temporary temp' htemp'
          · exact fun htrue => absurd (hactive.symm.trans htrue) Bool.false_ne_true
        · exact ih h hp hactive

/-- Only the bindings of OpenGL differ. -/
def OnlyBinds (gl gl' : OpenGL) : Prop :=
  ∃ bound, gl' = { gl with bound := bound, boundFramebuffers := bound }

theorem OnlyBinds.refl {gl : OpenGL} (h : gl.boundFramebuffers = gl.bound) : OnlyBinds gl gl := by
  obtain ⟨framebuffers, textures, renderbuffers, bound, shadow⟩ := gl
  obtain rfl : shadow = bound := h
  exact ⟨shadow, rfl⟩

theorem OnlyBinds.bind {gl gl' : OpenGL} (h : OnlyBinds gl gl') (target : FramebufferTarget)
    (n : Nat) : OnlyBinds gl (gl'.bindFramebuffer target n) := by
  obtain ⟨bound, rfl⟩ := h
  exact ⟨_, OpenGL.bindFramebuffer_eq rfl target n⟩

theorem InOrder.present (h : InOrder device maxSamples s) (hp : Private s) (screenshot : Bool) :
    InOrder device maxSamples (Program.final (Context.present screenshot s)) ∧
      Private (Program.final (Context.present screenshot s)) := by
  rw [Context.present]
  by_cases hactive : s.renderTargets.active = true
  · rw [if_pos hactive]
    exact ⟨h, hp⟩
  rw [if_neg hactive]
  have hactive := Bool.eq_false_of_not_eq_true hactive
  obtain ⟨hgood, hrebound⟩ := h.good.endPass
  dsimp only
  have hbinds : OnlyBinds s.endPass.gl
      (if screenshot then
        (if s.endPass.internalBackbufferFBO ≠ 0 then
          (s.endPass.gl.bindFramebuffer .all s.endPass.getInternalBackbufferFBO).bindFramebuffer
            .draw systemBackbufferFBO
        else s.endPass.gl.bindFramebuffer .all s.endPass.getInternalBackbufferFBO).bindFramebuffer
          .all systemBackbufferFBO
      else
        if s.endPass.internalBackbufferFBO ≠ 0 then
          (s.endPass.gl.bindFramebuffer .all s.endPass.getInternalBackbufferFBO).bindFramebuffer
            .draw systemBackbufferFBO
        else s.endPass.gl.bindFramebuffer .all s.endPass.getInternalBackbufferFBO) := by
    have hfirst := (OnlyBinds.refl hgood.synced).bind .all s.endPass.getInternalBackbufferFBO
    split_ifs
    · exact (hfirst.bind _ _).bind _ _
    · exact hfirst.bind _ _
    · exact hfirst.bind _ _
    · exact hfirst
  generalize (if screenshot then _ else _ : OpenGL) = gl at hbinds ⊢
  obtain ⟨bound, rfl⟩ := hbinds
  rw [OpenGL.bindFramebuffer_eq rfl]
  obtain ⟨hgood', hrebound'⟩ := hgood.bind
    ⟨s.endPass.getInternalBackbufferFBO, s.endPass.getInternalBackbufferFBO⟩
  have hrebound'' := hrebound.trans hrebound'
  refine InOrder.updateTemporaryResources _ ?_ (hrebound''.private s.renderTargets hp) hactive
  refine hrebound''.window h hgood' hactive ?_
  exact (getInternalBackbufferFBO_eq _).trans hrebound.internalBackbufferFBO

end Frames

/-! ## The start -/

section Start

variable {F M : Type} {device : Device F M} {maxSamples : Int} {s s' : Context}

theorem inOrder_new : InOrder device maxSamples {} ∧ Private {} := by
  have hempty : ∀ {κ α : Type} [DecidableEq κ] {k : κ} {a : α},
      AList.lookup k (∅ : Table κ α) ≠ some a := by
    intro κ α _ k a h
    cases h
  refine ⟨⟨⟨rfl, rfl, ?_, ?_, ?_, ?_, ?_, ?_, ?_⟩, ⟨?_, ?_, ?_, ?_, ?_⟩, ?_⟩, ⟨?_, ?_, ?_, ?_⟩⟩
  · exact fun _ _ h => absurd h hempty
  · exact fun _ _ _ h => absurd h hempty
  · exact fun _ _ _ h => absurd h hempty
  · exact fun _ _ h => absurd h hempty
  · exact fun _ _ h => absurd h hempty
  · exact fun _ _ h => absurd h hempty
  · exact fun _ _ h => absurd h hempty
  · exact fun _ => ⟨rfl, rfl⟩
  · exact fun h => absurd rfl h
  · exact fun _ h => absurd h not_mem_nil
  · exact nodup_nil
  · exact fun h => absurd rfl h
  · exact fun _ _ h => absurd h hempty
  · exact fun _ h => absurd h not_mem_nil
  · exact fun _ _ h => absurd h hempty
  · exact fun _ h => absurd h not_mem_nil
  · exact fun _ => rfl

/-- Nothing is recorded yet. -/
structure Started (s : Context) : Prop where
  renderTargets : s.renderTargets = {}
  temporaryTextures : s.temporaryTextures = []

theorem Started.apart {a : Nat} (h : Started s) (hapart : Apart a s s') : Started s' :=
  ⟨hapart.renderTargets.trans h.renderTargets, hapart.temporaryTextures.trans h.temporaryTextures⟩

/-- A texture of the internal backbuffer. -/
def BackbufferTexture (maxSamples : Int) (info : TextureInfo) (a : Nat) (s : Context) : Prop :=
  ∃ t, s.textures.lookup a = some t ∧ t.Whole maxSamples ∧ t.info = Context.normalized info

/-- The set of an internal backbuffer. -/
abbrev backbufferTargets (color : Nat) (depthStencil : Option Nat) : RenderTargets :=
  { colors := [⟨some color, 0, 0⟩], depthStencil := ⟨depthStencil, 0, 0⟩ }

theorem Backbuffer.ready (backbuffer : Context.Backbuffer) {color : Nat}
    {depthStencil : Option Nat} (hcolor : BackbufferTexture maxSamples backbuffer.color color s)
    (hdepth : ∀ a, depthStencil = some a → ∃ info, backbuffer.depthStencil = some info ∧
      BackbufferTexture maxSamples info a s) :
    Ready maxSamples none (1 < min (normalized backbuffer.color).requestedMSAA maxSamples)
      s.textures (backbufferTargets color depthStencil) where
  first := Option.some_ne_none color
  colors := by
    intro rt hrt
    rw [mem_singleton.mp hrt]
    obtain ⟨t, ht, hwhole, hinfo⟩ := hcolor
    refine ⟨color, t, rfl, Option.some_ne_none color, ht, ⟨?_, hwhole, by rw [hinfo]⟩, ?_⟩
    · rw [hinfo]
      exact backbuffer.target
    · rw [hinfo]
      exact backbuffer.format
  depthStencil := by
    intro a ha
    obtain ⟨info, hbackbuffer, hdepth⟩ := hdepth a ha
    obtain ⟨t, ht, hwhole, hinfo⟩ := hdepth
    obtain ⟨htarget, hformat, hmsaa⟩ := backbuffer.depthStencils info hbackbuffer
    refine ⟨Option.some_ne_none a, t, ht, ⟨?_, hwhole, ?_⟩, ?_⟩
    · rw [hinfo]
      exact htarget
    · rw [hinfo, normalized, normalized, hmsaa]
    · rw [hinfo]
      exact hformat

theorem InOrder.bindBackbuffer (h : InOrder device maxSamples s) (hstarted : Started s)
    {rts : RenderTargets} {many : Prop} (hready : Ready maxSamples none many s.textures rts)
    {answers : Context.BindAnswers} {fbo : Nat}
    (hbind : bindCachedFBO rts answers s = .ok fbo s') :
    InOrder device maxSamples
        { s' with internalBackbuffer := rts, internalBackbufferFBO := fbo } ∧
      Private { s' with internalBackbuffer := rts, internalBackbufferFBO := fbo } := by
  rcases @Good.bindCachedFBO maxSamples s rts h.good answers (fun _ _ => ⟨many, hready⟩) with
    ⟨s'', heq, hgood, hrebound, huse⟩ | ⟨e, s'', heq, -⟩
  · cases hbind.symm.trans heq
    have htemps : s'.temporaryTextures = [] :=
      hrebound.temporaryTextures.trans hstarted.temporaryTextures
    have htargets : s'.renderTargets = {} := hrebound.renderTargets.trans hstarted.renderTargets
    refine ⟨⟨⟨hgood.synced, hgood.zero, hgood.cached, hgood.distinct, hgood.apart, hgood.fbos,
      hgood.handles, hgood.renderbuffers, hgood.whole⟩, ⟨fun _ => ?_, fun hfirst => ?_, ?_, ?_,
      fun _ => huse.lookup⟩, ?_⟩, ⟨?_, ?_, ?_, fun hzero => absurd hzero huse.zero⟩⟩
    · rw [getInternalBackbufferFBO_eq]
      rw [htargets]
      exact ⟨rfl, rfl⟩
    · rw [htargets] at hfirst
      exact absurd rfl hfirst
    · rw [htemps]
      exact fun _ hmem => absurd hmem not_mem_nil
    · rw [htemps]
      exact nodup_nil
    · dsimp only
      rw [hrebound.textures]
      exact h.kin
    · rw [htemps]
      exact fun _ hmem => absurd hmem not_mem_nil
    · rw [htemps]
      exact fun _ _ _ _ hmem => absurd hmem not_mem_nil
    · rw [htemps]
      exact fun _ hmem => absurd hmem not_mem_nil
  · cases hbind.symm.trans heq

theorem setMode_inOrder {answers : Context.BackbufferAnswers}
    {backbuffer : Option Context.Backbuffer}
    (h : setMode maxSamples answers backbuffer = .ok s) :
    InOrder device maxSamples s ∧ Private s := by
  obtain ⟨hnew, hprivate⟩ := @inOrder_new F M device maxSamples
  cases backbuffer with
  | none =>
    cases h
    exact ⟨hnew, hprivate⟩
  | some backbuffer =>
    rw [setMode] at h
    rcases @InOrder.newTexture F M device maxSamples {} hnew none (fun b hb => by cases hb)
        backbuffer.color false answers.color.address answers.color.load with
      ⟨color, t, s₁, heq, h₁, -, hapart, ht, hwhole, hkind, -⟩ | ⟨-, e, s₁, heq, -⟩
    · have hstarted : Started s₁ := .apart ⟨rfl, rfl⟩ hapart
      have hcolor : BackbufferTexture maxSamples backbuffer.color color s₁ :=
        ⟨t, ht, hwhole, congrArg Prod.fst hkind⟩
      rw [heq] at h
      cases hdepth : backbuffer.depthStencil with
      | none =>
        rw [hdepth] at h
        dsimp only at h
        split at h
        · cases h
        next fbo s₂ hbind =>
          cases h
          exact h₁.bindBackbuffer hstarted
            (Backbuffer.ready backbuffer hcolor fun a ha => by cases ha) hbind
      | some info =>
        rw [hdepth] at h
        dsimp only at h
        rcases @InOrder.newTexture F M device maxSamples s₁ h₁ none (fun b hb => by cases hb)
            info false answers.depthStencil.address answers.depthStencil.load with
          ⟨a, t', s₂, heq', h₂, hnone, hapart', ht', hwhole', hkind', hother⟩ | ⟨-, e, s₂, heq', -⟩
        · rw [heq'] at h
          dsimp only at h
          have hcolor' : BackbufferTexture maxSamples backbuffer.color color s₂ := by
            refine ⟨t, (hother color ?_ not_mem_nil).trans ht, hwhole, congrArg Prod.fst hkind⟩
            rintro rfl
            cases hnone.symm.trans ht
          split at h
          · cases h
          next fbo s₃ hbind =>
            cases h
            refine h₂.bindBackbuffer (hstarted.apart hapart')
              (Backbuffer.ready backbuffer hcolor' fun b hb => ?_) hbind
            cases hb
            exact ⟨info, hdepth, t', ht', hwhole', congrArg Prod.fst hkind'⟩
        · rw [heq'] at h
          cases h
    · rw [heq] at h
      cases h

end Start

/-! ## Calls -/

/-- The calls that change what is in use, with what OpenGL and `new` answer. -/
inductive Call
  | setRenderTargets (rts : RenderTargets) (temporary : Context.TemporaryAnswers)
      (answers : Context.BindAnswers)
  | setRenderTargetNone
  | newTexture (info : TextureInfo) (readable : Bool) (base : Option Nat) (address : Nat)
      (answers : Nat → LoadAnswers)
  | loadVolatile (texture : Nat) (answers : Nat → LoadAnswers)
  | unloadVolatile (texture : Nat)
  | release (texture : Nat)
  | present (screenshot : Bool)

section Runs

variable {F M : Type} (device : Device F M) (maxSamples : Int)

/-- What a call leaves. -/
def Call.run (call : Call) (s : Context) : Context :=
  match call with
  | .setRenderTargets rts temporary answers =>
    Program.final (s.setRenderTargets device maxSamples rts temporary answers)
  | .setRenderTargetNone => Program.final (Context.setRenderTargetNone s)
  | .newTexture info readable base address answers =>
    Program.final (Context.newTexture maxSamples info readable base address answers s)
  | .loadVolatile texture answers =>
    let parents := ((s.textures.lookup texture).map Texture.parents).getD []
    (s.loadVolatile maxSamples answers parents texture).2
  | .unloadVolatile texture => s.unloadVolatile texture
  | .release texture => s.destroy texture
  | .present screenshot => Program.final (s.present screenshot)

/-- Textures that are passed are there, and none is a temporary one; a texture is destroyed when
nothing needs it any more. -/
def Possible (s : Context) : Call → Prop
  | .setRenderTargets rts _ _ => Living rts s
  | .newTexture _ _ base _ _ =>
    Based base s ∧ ∀ temp ∈ s.temporaryTextures, base ≠ some temp.texture
  | .release texture => ¬Needed texture s ∧ hasTexture texture s.internalBackbuffer = false
  | _ => True

/-- A set is sound, and no texture is unloaded that is drawn to. -/
def Sound (s : Context) : Call → Prop
  | .setRenderTargets rts temporary answers =>
    SoundTargets device maxSamples rts temporary answers s
  | .unloadVolatile texture => Unused texture s
  | _ => True

/-- The states of the backend. -/
def system : System Context Call where
  init s := ∃ answers backbuffer, Context.setMode maxSamples answers backbuffer = .ok s
  step s call s' := Possible s call ∧ s' = call.run device maxSamples s

variable {device maxSamples} {s : Context}

/-- **A sound call** keeps the invariant. -/
theorem InOrder.run (h : InOrder device maxSamples s) (hp : Private s) {call : Call}
    (hpossible : Possible s call) (hsound : Sound device maxSamples s call) :
    InOrder device maxSamples (call.run device maxSamples s) ∧
      Private (call.run device maxSamples s) := by
  cases call with
  | setRenderTargets rts temporary answers => exact h.setRenderTargets hp hpossible hsound
  | setRenderTargetNone => exact h.setRenderTargetNone hp
  | newTexture info readable base address answers =>
    rw [Call.run]
    have hnew : ∀ a, s.textures.lookup a = none → ∀ temp ∈ s.temporaryTextures,
        temp.texture ≠ a := by
      rintro a ha temp htemp rfl
      obtain ⟨t, ht⟩ := h.recorded.temporary temp htemp
      cases ha.symm.trans ht
    rcases h.newTexture hpossible.1 info readable address answers with
      ⟨a, t, s', heq, h', ha, hapart, ht, -, hkind, -⟩ | ⟨a, e, s', heq, h', ha, hapart, hgone⟩
    · rw [heq]
      refine ⟨h', hp.apart hapart (hnew a ha) fun t' ht' temp htemp hparent => ?_⟩
      cases ht.symm.trans ht'
      have hparents : t.parents = s.parentsOf base := congrArg (fun kind => kind.2.2) hkind
      rw [hparents] at hparent
      -- neither its base nor a texture that its base is a view of is temporary
      cases base with
      | none => cases hparent
      | some b =>
        obtain ⟨p, hb⟩ := hpossible.1 b rfl
        rw [Context.parentsOf, hb] at hparent
        rcases List.mem_cons.mp hparent with heq | hmem
        · exact hpossible.2 temp htemp (congrArg some heq.symm)
        · exact hp.unviewed b p hb temp htemp hmem
    · rw [heq]
      exact ⟨h', hp.apart hapart (hnew a ha) fun t ht => by cases hgone.symm.trans ht⟩
  | loadVolatile texture answers =>
    have hnodup : (texture ::
        ((s.textures.lookup texture).map Texture.parents).getD []).Nodup := by
      cases ht : s.textures.lookup texture with
      | none => exact nodup_singleton _
      | some t => exact (h.kin texture t ht).1
    obtain ⟨hended, -⟩ := h.loadVolatile answers _ hnodup
    exact ⟨hended.inOrder, hp.same hended.same⟩
  | unloadVolatile texture =>
    obtain ⟨h', hsame, -⟩ := h.unloadVolatile hsound
    exact ⟨h', hp.same hsame⟩
  | release texture =>
    obtain ⟨hneeded, hinternal⟩ := hpossible
    obtain ⟨h', hapart⟩ := h.destroy hneeded hinternal
    refine ⟨h', hp.apart hapart (fun temp htemp heq => ?_) fun t ht => ?_⟩
    · exact hneeded (.inr (.inl (heq ▸ mem_map_of_mem htemp)))
    · cases ht.symm.trans (AList.lookup_erase _ _)
  | present screenshot => exact h.present hp screenshot

theorem inOrder_reachable
    (h : ((system device maxSamples).restrict (Sound device maxSamples)).Reachable s) :
    InOrder device maxSamples s ∧ Private s := by
  refine System.Reachable.invariant_restrict
    (I := fun s => InOrder device maxSamples s ∧ Private s) ?_ ?_ h
  · rintro s ⟨answers, backbuffer, hmode⟩
    exact setMode_inOrder hmode
  · rintro s call _ ⟨h, hp⟩ hsound ⟨hpossible, rfl⟩
    exact h.run hp hpossible hsound

/-! ## What is in use -/

/-- The framebuffer in use has the attachments of the recorded set, with the depth and stencil
target that it asks for; without a set it is the window's. -/
def InUse (device : Device F M) (s : Context) : Prop :=
  if s.renderTargets.active then
    ∃ depthStencil, Asked device s depthStencil ∧ s.gl.framebuffers.lookup s.gl.bound.draw =
      some (attachments s.textures { s.renderTargets with depthStencil })
  else
    s.gl.bound.draw = s.getInternalBackbufferFBO ∧ (s.internalBackbufferFBO ≠ 0 →
      s.gl.framebuffers.lookup s.gl.bound.draw =
        some (attachments s.textures s.internalBackbuffer))

/-- The cached framebuffers are there, and what they have attached is there. -/
def NoneDeleted (s : Context) : Prop :=
  ∀ targets fbo, s.framebufferObjects.lookup targets = some fbo → fbo ≠ 0 →
    ∃ fb, s.gl.framebuffers.lookup fbo = some fb ∧
      ∀ point image, fb point = some image → image.Alive s.gl

theorem InOrder.inUse (h : InOrder device maxSamples s) : InUse device s := by
  rw [InUse]
  by_cases hfirst : s.renderTargets.firstTarget.texture = none
  · obtain ⟨hactive, hdraw⟩ := h.recorded.window hfirst
    rw [hactive, if_neg Bool.false_ne_true]
    refine ⟨hdraw, fun hzero => ?_⟩
    rw [hdraw, getInternalBackbufferFBO_eq]
    exact (h.good.cached _ _ (h.recorded.internal hzero) hzero).1
  · rw [active_of_first hfirst, if_pos rfl]
    obtain ⟨depthStencil, hasked, hzero, hlookup⟩ := h.recorded.targets hfirst
    exact ⟨depthStencil, hasked, (h.good.cached _ _ hlookup hzero).1⟩

theorem Drawable.alive {many : Prop} {a : Nat} {t : Texture} (h : Drawable maxSamples many t)
    (hgood : Good maxSamples none s) (ht : s.textures.lookup a = some t) (rt : RenderTarget) :
    (t.image rt).Alive s.gl := by
  rw [Texture.image]
  split_ifs with hrenderbuffer
  · exact (hgood.renderbuffers a t ht hrenderbuffer).1
  all_goals
    have hreadable : t.readable = true := by
      by_contra hne
      exact hrenderbuffer (h.whole.renderbuffer.mpr (.inl (Bool.eq_false_of_not_eq_true hne)))
    exact (hgood.handles a t ht (h.whole.texture.mpr hreadable)).1

theorem InOrder.noneDeleted (h : InOrder device maxSamples s) : NoneDeleted s := by
  intro targets fbo hlookup hzero
  obtain ⟨hfb, many, hready⟩ := h.good.cached targets fbo hlookup hzero
  refine ⟨_, hfb, fun point image himage => ?_⟩
  -- an image of a target is that of its texture
  have halive : ∀ rt a t, rt.texture = some a → s.textures.lookup a = some t →
      hasTexture a targets = true → (t.image rt).Alive s.gl := by
    intro rt a t _ ht hhas
    obtain ⟨-, t', ht', hdrawable⟩ := hready.living hhas
    cases ht.symm.trans ht'
    exact hdrawable.alive h.good ht rt
  have hdepth : (targets.depthStencil.texture.bind s.textures.lookup).bind (fun t =>
      if framebufferAttachment t.info.format 0 = point then some (t.image targets.depthStencil)
      else none) = some image → image.Alive s.gl := by
    intro heq
    obtain ⟨t, ht, heq⟩ := Option.bind_eq_some_iff.mp heq
    obtain ⟨a, ha, ht⟩ := Option.bind_eq_some_iff.mp ht
    split_ifs at heq
    cases heq
    exact halive _ a t ha ht (hasTexture_iff.mpr (.inr ha))
  cases point with
  | color i =>
    obtain ⟨rt, hrt, himage⟩ := Option.bind_eq_some_iff.mp himage
    obtain ⟨t, ht, rfl⟩ := Option.map_eq_some_iff.mp himage
    obtain ⟨a, ha, ht⟩ := Option.bind_eq_some_iff.mp ht
    exact halive rt a t ha ht (hasTexture_iff.mpr (.inl ⟨rt, mem_of_getElem? hrt, ha⟩))
  | depth | stencil | depthStencil => exact hdepth himage

/-- **The framebuffer in use is the one recorded**, and no cached framebuffer has an image that is
gone: in every run whose sets are sound and that unloads no texture that is drawn to. -/
theorem inUse_reachable
    (h : ((system device maxSamples).restrict (Sound device maxSamples)).Reachable s) :
    InUse device s ∧ NoneDeleted s :=
  have hinOrder := (inOrder_reachable h).1
  ⟨hinOrder.inUse, hinOrder.noneDeleted⟩

end Runs

/-- The state after calls, without an internal backbuffer. -/
def contextAfter (calls : List Call) : Context :=
  calls.foldl (fun s call => call.run smallDevice 8 s) {}

/-- A texture at address 1 that can be drawn to. -/
def newCanvas (info : TextureInfo) : Call := .newTexture info true none 1 fun _ => { texture := 1 }

theorem newCanvas_reachable (info : TextureInfo) :
    ((system smallDevice 8).restrict (Sound smallDevice 8)).Reachable
      (contextAfter [newCanvas info]) := by
  have hnew : ((system smallDevice 8).restrict (Sound smallDevice 8)).Reachable {} :=
    .init ⟨{}, none, rfl⟩
  refine hnew.restrict_step (newCanvas info) trivial ⟨⟨fun b hb => (by cases hb), ?_⟩, rfl⟩
  exact fun _ hmem => absurd hmem not_mem_nil

/-- A canvas is drawn to. -/
def canvasCalls : List Call :=
  [newCanvas (smallDevice.texture 0), .setRenderTargets { colors := [{ texture := some 1 }] } {} {}]

theorem inUse_canvas :
    InUse smallDevice (contextAfter canvasCalls) ∧ NoneDeleted (contextAfter canvasCalls) := by
  have hliving : ∀ a, hasTexture a { colors := [{ texture := some 1 }] } = true → a = 1 := by
    intro a ha
    rcases hasTexture_iff.mp ha with ⟨rt, hrt, hb⟩ | hb
    · rw [mem_singleton.mp hrt] at hb
      exact (Option.some.inj hb).symm
    · cases hb
  refine inUse_reachable ((newCanvas_reachable (smallDevice.texture 0)).restrict_step
    (.setRenderTargets { colors := [{ texture := some 1 }] } {} {}) ?_ ⟨?_, rfl⟩)
  · rintro first real s' hfirst - hreal
    cases hfirst
    cases hreal
    refine ⟨fun h => absurd rfl h, fun _ => ⟨fun _ a ha => ?_, fun h => absurd rfl h⟩⟩
    rw [hliving a ha]
    exact ⟨_, rfl, fun hidle => by cases hidle.texture⟩
  · intro a ha
    rw [hliving a ha]
    exact ⟨_, rfl⟩

/-- The second mipmap level of a depth and stencil buffer is drawn to. -/
def mipmapCalls : List Call :=
  [newCanvas (smallDevice.texture 1), .setRenderTargets mipmapTargets {} {}]

/-- Its first level is recorded. -/
theorem not_inUse_mipmap :
    (system smallDevice 8).Reachable (contextAfter mipmapCalls) ∧
      ¬InUse smallDevice (contextAfter mipmapCalls) := by
  constructor
  · refine .step (newCanvas_reachable (smallDevice.texture 1)).of_restrict
      (e := .setRenderTargets mipmapTargets {} {}) ⟨fun a ha => ?_, rfl⟩
    rcases hasTexture_iff.mp ha with ⟨rt, hrt, -⟩ | hb
    · cases hrt
    · cases hb
      exact ⟨_, rfl⟩
  · intro h
    have hrecorded : (contextAfter mipmapCalls).renderTargets =
        { depthStencil := { texture := some 1 } } := rfl
    obtain ⟨depthStencil, hasked, hlookup⟩ := h
    obtain rfl := hasked.2 (by rw [hasked.1]; decide)
    have hlevel : ((contextAfter mipmapCalls).gl.framebuffers.lookup
        (contextAfter mipmapCalls).gl.bound.draw).bind (fun fb => fb .depthStencil) =
          some (.texture .texture2D 1 1 0 0) := rfl
    rw [hlookup] at hlevel
    cases hlevel

end Lhatove.Opengl
