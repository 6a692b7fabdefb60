import Lhatove.Graphics.TargetSets

/-!
# Pushes and pops

What a pop restores, and what the sizes of the stacks are, in the runs in which no
set of targets asks for a mipmap level of the depth and stencil target and every pop
can restore the modes that were pushed (`Clear`).

- `Exact`: the projection and what is drawn to are those of the display state.
- `Sized`: the sizes of the stacks fit the pushes that are open.
- `pop_push`: what the matching pop of a push does.
-/

namespace Lhatove.Graphics

open Program Display List

variable {F M : Type}

/-! ## Targets as the display state says -/

/-- What is drawn to for a set. -/
def Device.targetsOf (device : Device F M) (rts : RenderTargets) :
    Except DisplayFault BoundTargets :=
  match rts.firstTarget.texture with
  | none => .ok {}
  | some firsttex => device.realTargets rts firsttex

/-- The projection of a state. -/
def Device.projectionOf (device : Device F M) (t : TargetState M) : M :=
  if t.useCustomProjection then t.customProjection else device.orthoProjection t.renderTargets

/-- The projection and what is drawn to are those of the display state. -/
structure Exact (device : Device F M) (t : TargetState M) : Prop where
  kept : KeptTargets t.renderTargets
  projection : t.deviceProjection = device.projectionOf t
  bound : device.targetsOf t.renderTargets = .ok t.bound

/-- A set that can be set again. -/
structure Accepted (device : Device F M) (rts : RenderTargets) : Prop where
  kept : KeptTargets rts
  real : ∃ bound, device.targetsOf rts = .ok bound

theorem Exact.accepted {device : Device F M} {t : TargetState M} (h : Exact device t) :
    Accepted device t.renderTargets :=
  ⟨h.kept, _, h.bound⟩

theorem Exact.ext {device : Device F M} {a b : Display F M} (hstate : a.state = b.state)
    (ha : Exact device a.targets) (hb : Exact device b.targets) : a = b := by
  obtain ⟨state, projection, bound⟩ := a
  obtain ⟨_, projection', bound'⟩ := b
  obtain rfl : state = _ := hstate
  have hprojection : projection = projection' := ha.projection.trans hb.projection.symm
  have hbound : bound = bound' := Except.ok.inj (ha.bound.symm.trans hb.bound)
  rw [hprojection, hbound]

theorem resetProjection_exact (device : Device F M) (display : Display F M)
    (hkept : KeptTargets display.state.renderTargets)
    (hbound : device.targetsOf display.state.renderTargets = .ok display.bound) :
    Exact device (final (resetProjection device display)).targets where
  kept := hkept
  projection := rfl
  bound := hbound

theorem exact_stable (device : Device F M) :
    Stable device (fun rts => rts.depthStencil.mipmap = 0) (Exact device) where
  reset := fun display hdisplay => resetProjection_exact device display hdisplay.kept hdisplay.bound
  none := by
    intro display hdisplay
    rw [setRenderTargetNone]
    split_ifs with hactive
    · exact hdisplay
    · exact resetProjection_exact device _ window_kept rfl
  project := fun _ display hdisplay => ⟨hdisplay.kept, rfl, hdisplay.bound⟩
  set := by
    intro rts hmipmap display hdisplay
    rw [setRenderTargets]
    split
    · rw [setRenderTargetNone]
      split_ifs with hactive
      · exact hdisplay
      · exact resetProjection_exact device _ window_kept rfl
    · next firsttex hfirst =>
      split_ifs with hsame
      · exact hdisplay
      · cases hreal : device.realTargets rts firsttex with
        | error e => exact hdisplay
        | ok bound =>
          refine resetProjection_exact device _ (strongRefs_kept hfirst) ?_
          rw [(strongRefs_eq_iff rts).mpr hmipmap, Device.targetsOf, hfirst]
          exact hreal

/-! ## States that can be restored -/

/-- The modes of a state are those that are set, or its targets have buffers for
them. -/
structure Restorable (device : Device F M) (s cur : DisplayState F M) : Prop where
  stencil : s.stencil ≠ cur.stencil →
    device.validateStencilState s.renderTargets s.stencil = none
  depth : s.depthTest ≠ cur.depthTest ∨ s.depthWrite ≠ cur.depthWrite →
    device.validateDepthState s.renderTargets s.depthWrite = none

section Restore

variable {device : Device F M} {s : DisplayState F M}

/-- The targets are those of `s`. -/
structure OnTargets (device : Device F M) (s : DisplayState F M) (display : Display F M) :
    Prop where
  exact : Exact device display.targets
  renderTargets : display.state.renderTargets = s.renderTargets

theorem OnTargets.same {a b : Display F M} (h : SameTargets a b) (ha : OnTargets device s a) :
    OnTargets device s b where
  exact := Stable.same a b h ha.exact
  renderTargets := by
    have htargets : a.state.renderTargets = b.state.renderTargets :=
      congrArg TargetState.renderTargets h
    rw [← htargets, ha.renderTargets]

variable {display : Display F M}

theorem setRenderTargets_accepted {rts : RenderTargets} (h : Accepted device rts)
    (hdisplay : Exact device display.targets) :
    ∃ display', setRenderTargets device rts display = .ok () display' ∧
      Exact device display'.targets ∧ display'.state.renderTargets = rts ∧
      display'.bufferModes = display.bufferModes := by
  have hexact := (exact_stable device).set rts h.kept.mipmap display hdisplay
  have hok : ∃ display', setRenderTargets device rts display = .ok () display' ∧
      display'.bufferModes = display.bufferModes := by
    obtain ⟨bound, hbound⟩ := h.real
    rw [setRenderTargets]
    rw [Device.targetsOf] at hbound
    split
    · rw [setRenderTargetNone]
      split_ifs with hactive
      all_goals exact ⟨_, rfl, rfl⟩
    · next firsttex hfirst =>
      rw [hfirst] at hbound
      have hreal : device.realTargets rts firsttex = .ok bound := hbound
      split_ifs with hsame
      · exact ⟨_, rfl, rfl⟩
      · rw [hreal]
        exact ⟨_, rfl, rfl⟩
  obtain ⟨display', hset, hmodes⟩ := hok
  rw [hset] at hexact
  refine ⟨display', hset, hexact, ?_, hmodes⟩
  rw [setRenderTargets_kept hdisplay.kept hset]
  split_ifs with hfirst
  · rw [h.kept.window hfirst]
  · exact (strongRefs_eq_iff rts).mpr h.kept.mipmap

variable {modes : StencilState × CompareMode × Bool}

theorem restoreTargets_ends (h : Accepted device s.renderTargets) :
    Ends (fun display => Exact device display.targets ∧ display.bufferModes = modes)
      (onlyIf (fun cur => s.renderTargets ≠ cur.renderTargets)
        (setRenderTargetsRef device s.renderTargets))
      (fun display => OnTargets device s display ∧ display.bufferModes = modes) := by
  rintro display ⟨hexact, hmodes⟩
  rw [onlyIf]
  split_ifs with hchanges
  · rw [setRenderTargetsRef_eq]
    obtain ⟨display', hset, hexact', htargets, hmodes'⟩ := setRenderTargets_accepted h hexact
    exact ⟨display', hset, ⟨hexact', htargets⟩, hmodes'.trans hmodes⟩
  · have hsame : s.renderTargets = display.state.renderTargets :=
      not_not.mp (of_decide_eq_false (Bool.not_eq_true _ ▸ hchanges))
    exact ⟨display, rfl, ⟨hexact, hsame.symm⟩, hmodes⟩

theorem restoreFirst [BEq F] (h : Accepted device s.renderTargets)
    (hexact : Exact device display.targets) :
    ∃ look display', restoreLook device s display = .ok () look ∧
      onlyIf (fun cur => s.renderTargets ≠ cur.renderTargets)
        (setRenderTargetsRef device s.renderTargets) look = .ok () display' ∧
      OnTargets device s display' ∧ display'.bufferModes = display.bufferModes := by
  obtain ⟨look, hlook, htargets, hmodes⟩ := restoreLook_quiet device s display
  obtain ⟨display', hset, hon, hmodes'⟩ :=
    restoreTargets_ends h look ⟨Stable.same display look htargets hexact, hmodes.symm⟩
  exact ⟨look, display', hlook, hset, hon, hmodes'⟩

/-- A mode that is set if it is to change, after a check. -/
theorem onlyIf_checked_iff (changes : DisplayState F M → Bool) (check : Option String)
    (f : DisplayState F M → DisplayState F M) {setter : Setting F M Unit}
    (hsetter : setter display = match check with
      | some message => .error (.exception message) display | none => assign f display)
    (display' : Display F M) :
    onlyIf changes setter display = .ok () display' ↔
      (changes display.state → check = none) ∧
        display' = if changes display.state then { display with state := f display.state }
          else display := by
  rw [onlyIf]
  by_cases hchanges : changes display.state = true
  · rw [if_pos hchanges, if_pos hchanges, hsetter]
    cases check with
    | some message =>
      constructor
      · intro h
        cases h
      · rintro ⟨hnone, -⟩
        cases hnone hchanges
    | none =>
      constructor
      · intro h
        cases h
        exact ⟨fun _ => rfl, rfl⟩
      · rintro ⟨-, rfl⟩
        rfl
  · rw [if_neg hchanges, if_neg hchanges]
    constructor
    · intro h
      cases h
      exact ⟨fun h => absurd h hchanges, rfl⟩
    · rintro ⟨-, rfl⟩
      rfl

theorem restoreStencil_iff (h : OnTargets device s display) :
    (∃ display', onlyIf (fun cur => s.stencil ≠ cur.stencil)
      (setStencilState device s.stencil) display = .ok () display') ↔
    (s.stencil ≠ display.state.stencil →
      device.validateStencilState s.renderTargets s.stencil = none) := by
  have hiff := onlyIf_checked_iff (fun cur => s.stencil ≠ cur.stencil)
    (device.validateStencilState s.renderTargets s.stencil)
    (fun state => { state with stencil := s.stencil })
    (show setStencilState device s.stencil display = _ by rw [← h.renderTargets]; rfl)
  simp only [hiff, decide_eq_true_eq, exists_and_left, exists_eq, and_true]

theorem restoreStencil_on {display display' : Display F M} (h : OnTargets device s display)
    (hok : onlyIf (fun cur => s.stencil ≠ cur.stencil)
      (setStencilState device s.stencil) display = .ok () display') :
    OnTargets device s display' ∧ display'.bufferModes.2 = display.bufferModes.2 := by
  obtain ⟨-, rfl⟩ := (onlyIf_checked_iff (fun cur => s.stencil ≠ cur.stencil)
    (device.validateStencilState s.renderTargets s.stencil)
    (fun state => { state with stencil := s.stencil })
    (show setStencilState device s.stencil display = _ by rw [← h.renderTargets]; rfl) _).mp hok
  split_ifs with hchanges
  · exact ⟨.same (a := display) rfl h, rfl⟩
  · exact ⟨h, rfl⟩

theorem restoreDepth_iff (h : OnTargets device s display) :
    (∃ display', onlyIf
      (fun cur => s.depthTest ≠ cur.depthTest ∨ s.depthWrite ≠ cur.depthWrite)
      (setDepthMode device s.depthTest s.depthWrite) display = .ok () display') ↔
    (s.depthTest ≠ display.state.depthTest ∨ s.depthWrite ≠ display.state.depthWrite →
      device.validateDepthState s.renderTargets s.depthWrite = none) := by
  have hiff := onlyIf_checked_iff
    (fun cur => s.depthTest ≠ cur.depthTest ∨ s.depthWrite ≠ cur.depthWrite)
    (device.validateDepthState s.renderTargets s.depthWrite)
    (fun state => { state with depthTest := s.depthTest, depthWrite := s.depthWrite })
    (show setDepthMode device s.depthTest s.depthWrite display = _ by rw [← h.renderTargets]; rfl)
  simp only [hiff, decide_eq_true_eq, exists_and_left, exists_eq, and_true]

theorem restoreDepth_on {display display' : Display F M} (h : OnTargets device s display)
    (hok : onlyIf (fun cur => s.depthTest ≠ cur.depthTest ∨ s.depthWrite ≠ cur.depthWrite)
      (setDepthMode device s.depthTest s.depthWrite) display = .ok () display') :
    OnTargets device s display' := by
  obtain ⟨-, rfl⟩ := (onlyIf_checked_iff
    (fun cur => s.depthTest ≠ cur.depthTest ∨ s.depthWrite ≠ cur.depthWrite)
    (device.validateDepthState s.renderTargets s.depthWrite)
    (fun state => { state with depthTest := s.depthTest, depthWrite := s.depthWrite })
    (show setDepthMode device s.depthTest s.depthWrite display = _ by
      rw [← h.renderTargets]; rfl) _).mp hok
  split_ifs with hchanges
  · exact .same (a := display) rfl h
  · exact h

/-- The rest of restoring a state: the display is that of the state, but for what is
left as it is on top. -/
theorem restoreLast_ends :
    Ends (OnTargets device s)
      (do
        onlyIf (fun cur => s.colorMask ≠ cur.colorMask) (setColorMask s.colorMask)
        onlyIf (fun cur => s.wireframe ≠ cur.wireframe) (setWireframe device s.wireframe)
        setDefaultSamplerState s.defaultSamplerState
        if s.useCustomProjection then setProjection s.customProjection
        else onlyIf (fun cur => cur.useCustomProjection) (resetProjection device))
      (fun display => Exact device { display with state := s }.targets) := by
  have hlook : ∀ {setter : Setting F M Unit}, Quiet SameBase setter →
      Ends (OnTargets device s) setter (OnTargets device s) :=
    fun hquiet => Quiet.ends hquiet fun hab ha => ha.same hab.targets
  have honly : ∀ {changes : DisplayState F M → Bool} {setter : Setting F M Unit},
      Quiet SameBase setter → Quiet SameBase (onlyIf changes setter) :=
    onlyIf_quiet fun _ => ⟨rfl, rfl⟩
  refine .bind (hlook (honly (assign_quiet fun _ => ⟨rfl, rfl⟩))) ?_
  refine .bind (hlook (honly (setWireframe_quiet device _))) ?_
  refine .bind (hlook (assign_quiet fun _ => ⟨rfl, rfl⟩)) ?_
  intro display h
  have hkept : KeptTargets s.renderTargets := h.renderTargets ▸ h.exact.kept
  have hbound : device.targetsOf s.renderTargets = .ok display.bound :=
    h.renderTargets ▸ h.exact.bound
  split_ifs with hcustom
  · refine ⟨_, rfl, hkept, ?_, hbound⟩
    exact (if_pos hcustom).symm
  · have hortho : device.projectionOf { display with state := s }.targets =
        device.orthoProjection s.renderTargets := if_neg hcustom
    rw [onlyIf]
    split_ifs with hcur
    · refine ⟨_, rfl, hkept, ?_, hbound⟩
      rw [h.renderTargets]
      exact hortho.symm
    · refine ⟨display, rfl, hkept, ?_, hbound⟩
      rw [hortho, ← h.renderTargets]
      exact h.exact.projection.trans (if_neg hcur)

theorem restoreStateChecked_steps [BEq F] (h : Accepted device s.renderTargets)
    {display' : Display F M} (hexact : Exact device display.targets)
    (hok : restoreStateChecked device s display = .ok () display') :
    Restorable device s display.state ∧ Exact device { display' with state := s }.targets := by
  obtain ⟨look, onTargets, hlook, htargets, hon, hmodes⟩ := restoreFirst h hexact
  have hstencilMode : onTargets.state.stencil = display.state.stencil := congrArg Prod.fst hmodes
  rw [restoreStateChecked, bind_ok hlook, bind_ok htargets] at hok
  obtain ⟨_, onStencil, hstencil, hok⟩ := of_bind_ok hok
  obtain ⟨_, onDepth, hdepth, hlast⟩ := of_bind_ok hok
  obtain ⟨hon', hsame⟩ := restoreStencil_on hon hstencil
  obtain ⟨hdepthTest, hdepthWrite⟩ := Prod.mk.inj (hsame.trans (congrArg Prod.snd hmodes))
  have hstencilValid := (restoreStencil_iff hon).mp ⟨_, hstencil⟩
  have hdepthValid := (restoreDepth_iff hon').mp ⟨_, hdepth⟩
  rw [hstencilMode] at hstencilValid
  rw [hdepthTest, hdepthWrite] at hdepthValid
  obtain ⟨display'', hlast', hexact'⟩ := restoreLast_ends onDepth (restoreDepth_on hon' hdepth)
  have hsameResult := hlast'.symm.trans hlast
  cases hsameResult
  exact ⟨⟨hstencilValid, hdepthValid⟩, hexact'⟩

theorem restoreStateChecked_ok [BEq F] (h : Accepted device s.renderTargets)
    (hexact : Exact device display.targets) (hrestorable : Restorable device s display.state) :
    ∃ display', restoreStateChecked device s display = .ok () display' := by
  obtain ⟨look, onTargets, hlook, htargets, hon, hmodes⟩ := restoreFirst h hexact
  have hstencilMode : onTargets.state.stencil = display.state.stencil := congrArg Prod.fst hmodes
  have hstencilValid := restoreStencil_iff hon
  rw [hstencilMode] at hstencilValid
  obtain ⟨onStencil, hstencil⟩ := hstencilValid.mpr hrestorable.stencil
  obtain ⟨hon', hsame⟩ := restoreStencil_on hon hstencil
  obtain ⟨hdepthTest, hdepthWrite⟩ := Prod.mk.inj (hsame.trans (congrArg Prod.snd hmodes))
  have hdepthValid := restoreDepth_iff hon'
  rw [hdepthTest, hdepthWrite] at hdepthValid
  obtain ⟨onDepth, hdepth⟩ := hdepthValid.mpr hrestorable.depth
  obtain ⟨display', hlast, -⟩ := restoreLast_ends onDepth (restoreDepth_on hon' hdepth)
  refine ⟨display', ?_⟩
  rw [restoreStateChecked, bind_ok hlook, bind_ok htargets, bind_ok hstencil, bind_ok hdepth]
  exact hlast

end Restore

/-! ## Sizes -/

/-- The sizes of the stacks fit the pushes that are open. -/
structure Sized (g : StateStack F M) (opened : List StackType) : Prop where
  stackTypes : g.stackTypeStack = opened
  transforms : g.transformStack.length = opened.length + 1
  pixelScales : g.pixelScaleStack.length = opened.length + 1
  saved : g.saved.length = opened.count .all

/-- What holds in every state of a run whose calls are clear. -/
structure WholeStacks (device : Device F M) (g : StateStack F M) : Prop where
  sized : Sized g g.stackTypeStack
  exact : Exact device g.display.targets
  accepted : ∀ s ∈ g.saved, Accepted device s.renderTargets

/-- The pushes that are open after a call. -/
def openedBy {σ : Type} (call : GraphicsCall F M) (result : EStateM.Result DisplayFault σ Unit)
    (opened : List StackType) : List StackType :=
  match call, result with
  | .push type, .ok _ _ => type :: opened
  | .pop, .ok _ _ => opened.tail
  | _, _ => opened

/-- What the calls of a run have to meet: no set asks for a mipmap level of its depth
and stencil target, and what a pop has to restore can be restored. -/
def Clear (device : Device F M) (g : StateStack F M) : GraphicsCall F M → Prop
  | .setting call => ∀ rts ∈ call.sets, rts.depthStencil.mipmap = 0
  | .pop => ∀ types s saved, g.stackTypeStack = .all :: types → g.saved = s :: saved →
      Restorable device s g.display.state
  | _ => True

/-- The pushes below are as they were, and what they saved. -/
structure Framed (g g' : StateStack F M) : Prop where
  saved : g'.saved = g.saved
  transforms : g'.transformStack.tail = g.transformStack.tail
  pixelScales : g'.pixelScaleStack.tail = g.pixelScaleStack.tail
  stackTypes : g'.stackTypeStack = g.stackTypeStack

/-- What a pop leaves of the stacks `g` before the push and `g'` before the pop: a
push of everything is undone as a whole, and one of the transform but for the
display. -/
def restored (type : StackType) (g g' : StateStack F M) : StateStack F M :=
  match type with
  | .all => g
  | .transform => { g with display := g'.display }

open StateStack

section Steps

variable {device : Device F M} {g g' : StateStack F M}

theorem Framed.refl (g : StateStack F M) : Framed g g := ⟨rfl, rfl, rfl, rfl⟩

theorem Framed.trans {g'' : StateStack F M} (h : Framed g g') (h' : Framed g' g'') :
    Framed g g'' :=
  ⟨h'.saved.trans h.saved, h'.transforms.trans h.transforms,
    h'.pixelScales.trans h.pixelScales, h'.stackTypes.trans h.stackTypes⟩

/-! ### Setters and transforms -/

theorem framed_of_top (h : TopChanges g g') : Framed g g' :=
  ⟨h.saved.symm, h.transforms.symm, h.pixelScales.symm, h.stackTypes.symm⟩

theorem whole_of_top (h : TopChanges g g') (hg : WholeStacks device g) : WholeStacks device g' where
  sized :=
    { stackTypes := rfl
      transforms := by rw [← h.transformCount, ← h.stackTypes, hg.sized.transforms]
      pixelScales := by rw [← h.pixelScaleCount, ← h.stackTypes, hg.sized.pixelScales]
      saved := by rw [← h.saved, ← h.stackTypes, hg.sized.saved] }
  exact := h.display ▸ hg.exact
  accepted := h.saved ▸ hg.accepted

/-- A call that keeps the stacks whole and what is below. -/
def Steps (device : Device F M) (x : Operation F M Unit) : Prop :=
  ∀ g, WholeStacks device g → WholeStacks device (final (x g)) ∧ Framed g (final (x g))

theorem steps_of_top {x : Operation F M Unit} (h : Within TopChanges x) : Steps device x :=
  fun g hg => ⟨whole_of_top (h g) hg, framed_of_top (h g)⟩

theorem steps_onDisplay {setter : Setting F M Unit}
    (h : Keeps (fun display : Display F M => Exact device display.targets) setter) :
    Steps device (onDisplay setter) := by
  intro g hg
  rw [onDisplay_final]
  exact ⟨⟨⟨rfl, hg.sized.transforms, hg.sized.pixelScales, hg.sized.saved⟩,
    h g.display hg.exact, hg.accepted⟩, ⟨rfl, rfl, rfl, rfl⟩⟩

theorem Steps.bind {x : Operation F M Unit} {f : Unit → Operation F M Unit} (hx : Steps device x)
    (hf : Steps device (f ())) : Steps device (x >>= f) := by
  intro g hg
  obtain ⟨hwhole, hframed⟩ := hx g hg
  cases h : x g with
  | error e g' =>
    rw [bind_error h]
    rw [h] at hwhole hframed
    exact ⟨hwhole, hframed⟩
  | ok _ g' =>
    rw [bind_ok h]
    rw [h] at hwhole hframed
    obtain ⟨hwhole', hframed'⟩ := hf g' hwhole
    exact ⟨hwhole', hframed.trans hframed'⟩

/-! ### Pushes and pops -/

/-- What is on the stacks after a push. -/
structure Pushed (type : StackType) (g g' : StateStack F M) : Prop where
  display : g'.display = g.display
  transforms : g'.transformStack.tail = g.transformStack
  pixelScales : g'.pixelScaleStack.tail = g.pixelScaleStack
  stackTypes : g'.stackTypeStack = type :: g.stackTypeStack
  saved : g'.saved = if type = .all then g.display.state :: g.saved else g.saved

variable {type : StackType}

theorem push_pushed (h : push type g = .ok () g') : Pushed type g g' := by
  rcases push_cases type g with ⟨e, hpush⟩ | ⟨_, _, _, _, -, -, -, hpush⟩
  · rw [hpush] at h
    cases h
  · rw [hpush] at h
    cases h
    exact ⟨rfl, rfl, rfl, rfl, rfl⟩

theorem push_whole (hg : WholeStacks device g) (h : push type g = .ok () g') :
    WholeStacks device g' := by
  rcases push_cases type g with ⟨e, hpush⟩ | ⟨_, _, _, _, -, -, -, hpush⟩
  · rw [hpush] at h
    cases h
  · rw [hpush] at h
    cases h
    refine ⟨⟨rfl, ?_, ?_, ?_⟩, hg.exact, ?_⟩
    · exact congrArg (· + 1) hg.sized.transforms
    · exact congrArg (· + 1) hg.sized.pixelScales
    · cases type with
      | all => exact (congrArg (· + 1) hg.sized.saved).trans count_cons_self.symm
      | transform => exact hg.sized.saved.trans (count_cons_of_ne (by decide)).symm
    · cases type with
      | all =>
        intro s hs
        rcases mem_cons.mp hs with rfl | hs
        · exact hg.exact.accepted
        · exact hg.accepted s hs
      | transform => exact hg.accepted

/-- What is on the stacks after a pop. -/
structure Popped (type : StackType) (g g' : StateStack F M) : Prop where
  transforms : g'.transformStack = g.transformStack.tail
  pixelScales : g'.pixelScaleStack = g.pixelScaleStack.tail
  stackTypes : g.stackTypeStack = type :: g'.stackTypeStack
  saved : g.saved = if type = .all then g'.display.state :: g'.saved else g'.saved
  display : type = .transform → g'.display = g.display

theorem WholeStacks.tops (hg : WholeStacks device g) {types : List StackType}
    (htypes : g.stackTypeStack = type :: types) :
    (∃ transform transforms, g.transformStack = transform :: transforms) ∧
      (∃ pixelScale scales, g.pixelScaleStack = pixelScale :: scales) ∧
      (type = .all → ∃ s saved, g.saved = s :: saved) := by
  refine ⟨?_, ?_, ?_⟩
  · exact exists_cons_of_length_eq_add_one hg.sized.transforms
  · exact exists_cons_of_length_eq_add_one hg.sized.pixelScales
  · rintro rfl
    have hsaved := hg.sized.saved
    rw [htypes, count_cons_self] at hsaved
    exact exists_cons_of_length_eq_add_one hsaved

theorem pop_ok [BEq F] (hg : WholeStacks device g) (hclear : Clear device g .pop)
    {types : List StackType} (htypes : g.stackTypeStack = type :: types) :
    ∃ g', pop device g = .ok () g' ∧ Popped type g g' ∧ Exact device g'.display.targets := by
  obtain ⟨⟨transform, transforms, htransforms⟩, ⟨pixelScale, scales, hscales⟩, hsaved⟩ :=
    hg.tops htypes
  rw [pop, htypes, htransforms, hscales]
  cases type with
  | transform =>
    refine ⟨_, rfl, ⟨?_, ?_, htypes, rfl, fun _ => rfl⟩, hg.exact⟩
    · rw [htransforms]
      rfl
    · rw [hscales]
      rfl
  | all =>
    obtain ⟨s, saved, hsaved⟩ := hsaved rfl
    have haccepted := hg.accepted s (hsaved ▸ mem_cons_self)
    obtain ⟨display', hrestore⟩ := restoreStateChecked_ok haccepted hg.exact
      (hclear types s saved htypes hsaved)
    obtain ⟨-, hexact⟩ := restoreStateChecked_steps haccepted hg.exact hrestore
    rw [hsaved]
    dsimp only
    rw [hrestore]
    refine ⟨_, rfl, ⟨?_, ?_, htypes, hsaved, fun h => absurd h (by decide)⟩, hexact⟩
    · rw [htransforms]
      rfl
    · rw [hscales]
      rfl

theorem popped_whole (hg : WholeStacks device g) (h : Popped type g g')
    (hexact : Exact device g'.display.targets) : WholeStacks device g' := by
  have htransforms := hg.sized.transforms
  have hscales := hg.sized.pixelScales
  have hsaved := hg.sized.saved
  rw [h.stackTypes, length_cons] at htransforms hscales
  rw [h.stackTypes] at hsaved
  refine ⟨⟨rfl, ?_, ?_, ?_⟩, hexact, ?_⟩
  · rw [h.transforms, length_tail]
    omega
  · rw [h.pixelScales, length_tail]
    omega
  · have hrest := h.saved
    cases type with
    | all =>
      rw [if_pos rfl] at hrest
      rw [hrest, length_cons, count_cons_self] at hsaved
      omega
    | transform =>
      rw [if_neg (by decide)] at hrest
      rw [hrest, count_cons_of_ne (by decide)] at hsaved
      exact hsaved
  · intro s hs
    refine hg.accepted s ?_
    rw [h.saved]
    split_ifs
    · exact mem_cons_of_mem _ hs
    · exact hs

/-- **What a pop leaves** of the stacks before its push. -/
theorem popped_restored {pushed popped : StateStack F M} (hg : WholeStacks device g)
    (hpush : Pushed type g pushed) (hframed : Framed pushed g') (hpop : Popped type g' popped)
    (hexact : Exact device popped.display.targets) :
    popped = restored type g g' := by
  have htransforms : popped.transformStack = g.transformStack :=
    hpop.transforms.trans (hframed.transforms.trans hpush.transforms)
  have hscales : popped.pixelScaleStack = g.pixelScaleStack :=
    hpop.pixelScales.trans (hframed.pixelScales.trans hpush.pixelScales)
  have htypes : popped.stackTypeStack = g.stackTypeStack := by
    have hcons := hpop.stackTypes.symm.trans (hframed.stackTypes.trans hpush.stackTypes)
    exact (List.cons.inj hcons).2
  have hsaved := hpop.saved.symm.trans (hframed.saved.trans hpush.saved)
  obtain ⟨display, saved, transforms, scales, types⟩ := popped
  cases type with
  | all =>
    obtain ⟨hstate, hrest⟩ := List.cons.inj hsaved
    have hdisplay : display = g.display := Exact.ext hstate hexact hg.exact
    rw [StateStack.mk.injEq]
    exact ⟨hdisplay, hrest, htransforms, hscales, htypes⟩
  | transform =>
    have hdisplay : display = g'.display := hpop.display rfl
    rw [StateStack.mk.injEq]
    exact ⟨hdisplay, hsaved, htransforms, hscales, htypes⟩

/-! ### Any call -/

/-- The call neither opens nor closes a push. -/
def Level {σ : Type} (call : GraphicsCall F M) (result : EStateM.Result DisplayFault σ Unit) :
    Prop :=
  ∀ opened, openedBy call result opened = opened

theorem steps_call [BEq F] {call : GraphicsCall F M} (hclear : Clear device g call)
    (hcall : (∀ type, call ≠ .push type) ∧ call ≠ .pop) : Steps device (call.run device) := by
  have hstable := exact_stable device
  cases call with
  | push type => exact absurd rfl (hcall.1 type)
  | pop => exact absurd rfl hcall.2
  | setting call => exact steps_onDisplay (hstable.run call hclear)
  | transform call => exact steps_of_top (transform_within device call)
  | reset =>
    exact .bind (steps_onDisplay (hstable.restoreState rfl rfl))
      (steps_of_top (transform_within device .origin))

theorem pop_empty [BEq F] (h : g.stackTypeStack = []) :
    pop device g = .error minimumStackDepth g := by
  rw [pop, h]

theorem run_whole [BEq F] (hg : WholeStacks device g) {call : GraphicsCall F M}
    (hclear : Clear device g call) (hnext : stacksAfter (call.run device g) = some g') :
    WholeStacks device g' ∧ g'.stackTypeStack = openedBy call (call.run device g) g.stackTypeStack ∧
      (Level call (call.run device g) → Framed g g') := by
  have hsteps : (∀ type, call ≠ .push type) ∧ call ≠ .pop → WholeStacks device g' ∧
      g'.stackTypeStack = openedBy call (call.run device g) g.stackTypeStack ∧
      (Level call (call.run device g) → Framed g g') := by
    intro hcall
    obtain ⟨hwhole, hframed⟩ := steps_call hclear hcall g hg
    rw [stacksAfter_final hnext] at hwhole hframed
    refine ⟨hwhole, ?_, fun _ => hframed⟩
    rw [hframed.stackTypes]
    cases call with
    | push type => exact absurd rfl (hcall.1 type)
    | pop => exact absurd rfl hcall.2
    | _ => rfl
  cases call with
  | push type =>
    rw [GraphicsCall.run] at hnext ⊢
    cases hpush : push type g with
    | error e pushed =>
      -- Nothing is pushed.
      have hsame : final (push type g) = g := by
        rcases push_cases type g with ⟨e', herror⟩ | ⟨_, _, _, _, -, -, -, hok⟩
        · rw [herror]
          rfl
        · rw [hok] at hpush
          cases hpush
      have hfinal := stacksAfter_final hnext
      rw [hsame] at hfinal
      subst hfinal
      exact ⟨hg, rfl, fun _ => .refl g⟩
    | ok _ pushed =>
      have hfinal := stacksAfter_final hnext
      rw [hpush] at hfinal
      obtain rfl : pushed = g' := hfinal
      refine ⟨push_whole hg hpush, (push_pushed hpush).stackTypes, ?_⟩
      intro hlevel
      exact absurd (hlevel []) (cons_ne_nil type [])
  | pop =>
    rw [GraphicsCall.run] at hnext ⊢
    cases htypes : g.stackTypeStack with
    | nil =>
      rw [pop_empty htypes] at hnext ⊢
      cases hnext
      exact ⟨hg, htypes, fun _ => .refl g⟩
    | cons type types =>
      obtain ⟨popped, hpop, hpopped, hexact⟩ := pop_ok hg hclear htypes
      rw [hpop] at hnext ⊢
      cases hnext
      refine ⟨popped_whole hg hpopped hexact, ?_, ?_⟩
      · exact (List.cons.inj (hpopped.stackTypes.symm.trans htypes)).2
      · intro hlevel
        exact absurd (hlevel [.all]) (cons_ne_nil _ _).symm
  | _ => exact hsteps ⟨nofun, nofun⟩

end Steps

/-! ## Runs -/

/-- Calls between a push and its matching pop. -/
inductive Balanced [BEq F] (device : Device F M) : StateStack F M → StateStack F M → Prop
  | none (g : StateStack F M) : Balanced device g g
  | call {g g₁ g₂ : StateStack F M} {call : GraphicsCall F M} :
      Balanced device g g₁ → Clear device g₁ call → Level call (call.run device g₁) →
      stacksAfter (call.run device g₁) = some g₂ → Balanced device g g₂
  | block {g g₁ g₂ g₃ g₄ : StateStack F M} {type : StackType} :
      Balanced device g g₁ → push type g₁ = .ok () g₂ → Balanced device g₂ g₃ →
      Clear device g₃ .pop → pop device g₃ = .ok () g₄ → Balanced device g g₄

theorem balanced_framed [BEq F] {device : Device F M} {g g' : StateStack F M}
    (h : Balanced device g g') (hg : WholeStacks device g) : WholeStacks device g' ∧ Framed g g' := by
  induction h with
  | none g => exact ⟨hg, .refl g⟩
  | call _ hclear hlevel hnext ih =>
    obtain ⟨hwhole, hframed⟩ := ih hg
    obtain ⟨hwhole', -, hframed'⟩ := run_whole hwhole hclear hnext
    exact ⟨hwhole', hframed.trans (hframed' hlevel)⟩
  | block _ hpush _ hclear hpop ih ih' =>
    obtain ⟨hwhole, hframed⟩ := ih hg
    have hpushed := push_pushed hpush
    obtain ⟨hwhole₃, hframed₃⟩ := ih' (push_whole hwhole hpush)
    obtain ⟨popped, hpop', hpopped, hexact⟩ := pop_ok hwhole₃ hclear
      (hframed₃.stackTypes.trans hpushed.stackTypes)
    cases hpop.symm.trans hpop'
    refine ⟨popped_whole hwhole₃ hpopped hexact, hframed.trans ?_⟩
    rw [popped_restored hwhole hpushed hframed₃ hpopped hexact]
    rename_i type _ _
    cases type with
    | all => exact .refl _
    | transform => exact ⟨rfl, rfl, rfl, rfl⟩

/-- The stacks that a program can reach, with the pushes that are open. -/
def sessions [BEq F] (device : Device F M) :
    System (StateStack F M × List StackType) (GraphicsCall F M) :=
  .ofStep (fun p => p = (.new device, [])) fun p call =>
    (stacksAfter (call.run device p.1)).map fun g => (g, openedBy call (call.run device p.1) p.2)

theorem whole_new (device : Device F M) : WholeStacks device (.new device) where
  sized := ⟨rfl, rfl, rfl, rfl⟩
  exact := ⟨window_kept, rfl, rfl⟩
  accepted _ hs := absurd hs not_mem_nil

theorem whole_reachable [BEq F] {device : Device F M} {p : StateStack F M × List StackType}
    (h : ((sessions device).restrict fun p call => Clear device p.1 call).Reachable p) :
    WholeStacks device p.1 ∧ p.1.stackTypeStack = p.2 := by
  refine System.Reachable.invariant_restrict
    (I := fun p => WholeStacks device p.1 ∧ p.1.stackTypeStack = p.2) ?_ ?_ h
  · rintro _ rfl
    exact ⟨whole_new device, rfl⟩
  · rintro ⟨g, opened⟩ call ⟨g', opened'⟩ ⟨hg, htypes⟩ hclear hstep
    obtain ⟨next, hnext, hpair⟩ := Option.map_eq_some_iff.mp hstep
    cases hpair
    obtain ⟨hwhole, htypes', -⟩ := run_whole hg hclear hnext
    exact ⟨hwhole, htypes'.trans (congrArg _ htypes)⟩

theorem clear_of_pop_sized [BEq F] {device : Device F M} {g g' : StateStack F M}
    (hg : WholeStacks device g) (hpop : stacksAfter (pop device g) = some g') {opened : List StackType}
    (hsized : Sized g' opened) : Clear device g .pop := by
  intro types s saved htypes hsaved
  have haccepted := hg.accepted s (hsaved ▸ mem_cons_self)
  obtain ⟨⟨transform, transforms, htransforms⟩, ⟨pixelScale, scales, hscales⟩, -⟩ :=
    hg.tops htypes
  cases hrestore : restoreStateChecked device s g.display with
  | ok _ display => exact (restoreStateChecked_steps haccepted hg.exact hrestore).1
  | error e display =>
    have hfinal : final (pop device g) =
        { g with display, transformStack := transforms, pixelScaleStack := scales } := by
      rw [pop, htypes, htransforms, hscales]
      rw [hsaved]
      dsimp only
      rw [hrestore]
      rfl
    rw [stacksAfter_final hpop] at hfinal
    subst hfinal
    -- The transform is gone, and the push is still open.
    have hopened : g.stackTypeStack = opened := hsized.stackTypes
    have hcount : transforms.length = opened.length + 1 := hsized.transforms
    have hbefore := hg.sized.transforms
    rw [htransforms, length_cons, hopened] at hbefore
    omega

/-- **Pushes and pops.** In every run whose calls are clear, the sizes of the stacks
fit the pushes that are open, and the matching pop of a push restores all that was
pushed; a pop keeps the sizes exactly if it is clear. -/
theorem pop_push [BEq F] {device : Device F M} {g : StateStack F M} {opened : List StackType}
    (h : ((sessions device).restrict fun p call => Clear device p.1 call).Reachable (g, opened)) :
    Sized g opened ∧
      (Clear device g .pop ↔
        ∃ g', stacksAfter (pop device g) = some g' ∧ ∃ opened', Sized g' opened') ∧
      ∀ type g₁ g₂, push type g = .ok () g₁ → Balanced device g₁ g₂ → Clear device g₂ .pop →
        pop device g₂ = .ok () (restored type g g₂) := by
  obtain ⟨hg, htypes⟩ := whole_reachable h
  refine ⟨?_, ⟨?_, ?_⟩, ?_⟩
  · have hsized : Sized g g.stackTypeStack := hg.sized
    rwa [show g.stackTypeStack = opened from htypes] at hsized
  · intro hclear
    cases hstack : g.stackTypeStack with
    | nil =>
      refine ⟨g, ?_, _, hg.sized⟩
      rw [pop_empty hstack]
      rfl
    | cons type types =>
      obtain ⟨g', hpop, hpopped, hexact⟩ := pop_ok hg hclear hstack
      refine ⟨g', ?_, _, (popped_whole hg hpopped hexact).sized⟩
      rw [hpop]
      rfl
  · rintro ⟨g', hpop, opened', hsized⟩
    exact clear_of_pop_sized hg hpop hsized
  · intro type g₁ g₂ hpush hbalanced hclear
    have hpushed := push_pushed hpush
    obtain ⟨hwhole, hframed⟩ := balanced_framed hbalanced (push_whole hg hpush)
    obtain ⟨popped, hpop, hpopped, hexact⟩ := pop_ok hwhole hclear
      (hframed.stackTypes.trans hpushed.stackTypes)
    rw [hpop, popped_restored hg hpushed hframed hpopped hexact]

/-- The stacks after calls. -/
def stacksOf (calls : List (GraphicsCall Unit Unit)) : StateStack Unit Unit :=
  (System.run (fun g call => stacksAfter (call.run smallDevice g)) (.new smallDevice) calls).getD
    (.new smallDevice)

theorem pop_push_lineStyle :
    pop smallDevice (stacksOf [.push .all, .setting (.setLineStyle .rough)]) =
      .ok () (stacksOf []) := by
  refine (pop_push (.init rfl)).2.2 .all
    (stacksOf [.push .all]) _ rfl ?_ ?_
  · have hclear : Clear smallDevice (stacksOf [.push .all]) (.setting (.setLineStyle .rough)) := nofun
    exact .call (.none _) hclear (fun _ => rfl) rfl
  · rintro types s saved - hsaved
    cases hsaved
    exact ⟨fun hne => absurd rfl hne, fun hne => absurd hne (by decide)⟩

/-- Writing depth is set for a canvas, pushed with the window, and not set for the
window: the pop that is to restore it throws. -/
def thrownCalls : List (GraphicsCall Unit Unit) :=
  [.setting (.setRenderTarget { texture := some 0 } temporaryDepth),
    .setting (.setDepthMode .less true), .setting .setRenderTargetNone, .push .all,
    .setting (.setDepthMode .always false), .pop]

theorem thrownCalls_unsized :
    (stateStacks smallDevice).Reachable (stacksOf thrownCalls) ∧
      ¬∃ opened, Sized (stacksOf thrownCalls) opened := by
  constructor
  · have hrun : System.run (fun g call => stacksAfter (call.run smallDevice g))
        (.new smallDevice) thrownCalls = some (stacksOf thrownCalls) := rfl
    exact .of_run (.init rfl) hrun
  · rintro ⟨opened, hsized⟩
    have htypes : [.all] = opened := hsized.stackTypes
    have htransforms : 1 = opened.length + 1 := hsized.transforms
    rw [← htypes] at htransforms
    cases htransforms

end Lhatove.Graphics
