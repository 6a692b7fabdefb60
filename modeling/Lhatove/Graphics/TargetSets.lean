import Lhatove.Graphics.StateStack
import Lhatove.Lib.Program

/-!
# Render targets that are set and got

- `KeptTargets`: what a set is like that is kept, in any state that is reached
  (`keptTargets_reachable`);
- `getRenderTargets_setRenderTargets`: which sets are got as they were set.
-/

namespace Lhatove.Graphics

open Program

variable {F M : Type}

/-! ## Setters that leave the targets alone -/

/-- What is drawn to, and the projection. -/
structure TargetState (M : Type) where
  renderTargets : RenderTargets
  useCustomProjection : Bool
  customProjection : M
  deviceProjection : M
  bound : BoundTargets

namespace Display

def targets (display : Display F M) : TargetState M where
  renderTargets := display.state.renderTargets
  useCustomProjection := display.state.useCustomProjection
  customProjection := display.state.customProjection
  deviceProjection := display.deviceProjection
  bound := display.bound

/-- The modes that the targets have to have buffers for. -/
def bufferModes (display : Display F M) : StencilState × CompareMode × Bool :=
  (display.state.stencil, display.state.depthTest, display.state.depthWrite)

end Display

/-- Another display with the same targets. -/
def SameTargets (a b : Display F M) : Prop := a.targets = b.targets

/-- Another display with the same targets and the same modes of their buffers. -/
def SameBase (a b : Display F M) : Prop := a.targets = b.targets ∧ a.bufferModes = b.bufferModes

instance : IsTrans (Display F M) SameTargets where
  trans _ _ _ := Eq.trans

instance : IsTrans (Display F M) SameBase where
  trans _ _ _ hab hbc := ⟨hab.1.trans hbc.1, hab.2.trans hbc.2⟩

theorem SameBase.targets {a b : Display F M} (h : SameBase a b) : SameTargets a b := h.1

namespace Display

section Looks

variable (device : Device F M)

theorem assign_quiet {f : DisplayState F M → DisplayState F M}
    (h : ∀ display : Display F M, SameBase display { display with state := f display.state }) :
    Quiet SameBase (assign f) :=
  fun display => ⟨_, rfl, h display⟩

variable {changes : DisplayState F M → Bool} {setter : Setting F M Unit}

theorem onlyIf_quiet {R : Display F M → Display F M → Prop} (hrefl : ∀ display, R display display)
    (h : Quiet R setter) :
    Quiet R (onlyIf changes setter) := by
  intro display
  rw [onlyIf]
  split_ifs with hchanges
  · exact h display
  · exact ⟨display, rfl, hrefl display⟩

theorem onlyIf_keeps {P : Display F M → Prop}
    (h : Keeps P setter) : Keeps P (onlyIf changes setter) := by
  intro display hdisplay
  rw [onlyIf]
  split_ifs with hchanges
  · exact h display hdisplay
  · exact hdisplay

theorem restoreScissor_quiet (s : DisplayState F M) : Quiet SameBase (restoreScissor s) := by
  rw [restoreScissor]
  split_ifs with hscissor
  all_goals exact fun _ => ⟨_, rfl, rfl, rfl⟩

theorem setWireframe_quiet (enable : Bool) : Quiet SameBase (setWireframe device enable) := by
  intro display
  rw [setWireframe]
  split_ifs with hes
  · exact ⟨display, rfl, rfl, rfl⟩
  · exact ⟨_, rfl, rfl, rfl⟩

theorem setStencilState_within (s : StencilState) :
    Within SameTargets (setStencilState device s) := by
  intro display
  rw [setStencilState]
  cases device.validateStencilState display.state.renderTargets s with
  | none | some message => rfl

theorem setDepthMode_within (compare : CompareMode) (write : Bool) :
    Within SameTargets (setDepthMode device compare write) := by
  intro display
  rw [setDepthMode]
  cases device.validateDepthState display.state.renderTargets write with
  | none | some message => rfl

theorem restoreLook_quiet [BEq F] (s : DisplayState F M) :
    Quiet SameBase (restoreLook device s) := by
  have hassign : ∀ {f : DisplayState F M → DisplayState F M},
      (∀ display : Display F M, SameBase display { display with state := f display.state }) →
      Quiet SameBase (assign f) := assign_quiet
  have honly : ∀ {changes : DisplayState F M → Bool} {setter : Setting F M Unit},
      Quiet SameBase setter → Quiet SameBase (onlyIf changes setter) :=
    onlyIf_quiet fun _ => ⟨rfl, rfl⟩
  refine .bind (honly (hassign fun _ => ⟨rfl, rfl⟩)) ?_
  refine .bind (hassign fun _ => ⟨rfl, rfl⟩) ?_
  refine .bind (honly (hassign fun _ => ⟨rfl, rfl⟩)) ?_
  refine .bind (hassign fun _ => ⟨rfl, rfl⟩) ?_
  refine .bind (hassign fun _ => ⟨rfl, rfl⟩) ?_
  refine .bind (hassign fun _ => ⟨rfl, rfl⟩) ?_
  refine .bind (honly (hassign fun _ => ⟨rfl, rfl⟩)) ?_
  refine .bind (honly (restoreScissor_quiet s)) ?_
  refine .bind (hassign fun _ => ⟨rfl, rfl⟩) ?_
  refine .bind (honly (hassign fun _ => ⟨rfl, rfl⟩)) ?_
  refine .bind (hassign fun _ => ⟨rfl, rfl⟩) ?_
  exact hassign fun _ => ⟨rfl, rfl⟩

end Looks

/-! ## Setters of targets -/

/-- A property that the setters of targets keep, for sets with `sets`. -/
structure Stable (device : Device F M) (sets : RenderTargets → Prop)
    (P : TargetState M → Prop) : Prop where
  reset : Keeps (fun display : Display F M => P display.targets) (resetProjection device)
  none : Keeps (fun display : Display F M => P display.targets) (setRenderTargetNone device)
  project : ∀ m, Keeps (fun display : Display F M => P display.targets) (setProjection m)
  set : ∀ rts, sets rts →
    Keeps (fun display : Display F M => P display.targets) (setRenderTargets device rts)

end Display

theorem Display.setRenderTargetsRef_eq (device : Device F M) (refs : RenderTargets) :
    setRenderTargetsRef device refs = setRenderTargets device refs := by
  have hcolors : refs.colors.map (fun rt => (⟨rt.texture, rt.slice, rt.mipmap⟩ : RenderTarget)) =
      refs.colors := List.map_id _
  rw [setRenderTargetsRef, hcolors]

/-- The set that a call sets. -/
def SettingCall.sets : SettingCall F M → Option RenderTargets
  | .setRenderTarget rt flags => some { colors := [rt], temporaryRTFlags := flags }
  | .setRenderTargets rts => some rts
  | _ => none

namespace Display

namespace Stable

variable {device : Device F M} {sets : RenderTargets → Prop} {P : TargetState M → Prop}

theorem same (a b : Display F M) (h : SameTargets a b) (ha : P a.targets) : P b.targets := by
  rw [SameTargets] at h
  rwa [← h]

theorem look {setter : Setting F M Unit} (h : Quiet SameBase setter) :
    Keeps (fun display : Display F M => P display.targets) setter :=
  Within.keeps (Quiet.within h) fun hab => same _ _ hab.targets

theorem within {setter : Setting F M Unit} (h : Within SameTargets setter) :
    Keeps (fun display : Display F M => P display.targets) setter :=
  Within.keeps h fun hab => same _ _ hab

theorem assign {f : DisplayState F M → DisplayState F M}
    (h : ∀ display : Display F M, SameTargets display { display with state := f display.state }) :
    Keeps (fun display : Display F M => P display.targets) (assign f) :=
  within h

variable (hP : Stable device sets P)
include hP

theorem setRenderTargetsRef {refs : RenderTargets} (h : sets refs) :
    Keeps (fun display : Display F M => P display.targets) (setRenderTargetsRef device refs) := by
  rw [setRenderTargetsRef_eq]
  exact hP.set refs h

theorem restoreStateChecked [BEq F] {s : DisplayState F M} (h : sets s.renderTargets) :
    Keeps (fun display : Display F M => P display.targets) (restoreStateChecked device s) := by
  refine .bind (look (restoreLook_quiet device s)) fun _ => ?_
  refine .bind (onlyIf_keeps (hP.setRenderTargetsRef h)) fun _ => ?_
  refine .bind (onlyIf_keeps (within (setStencilState_within device _))) fun _ => ?_
  refine .bind (onlyIf_keeps (within (setDepthMode_within device _ _))) fun _ => ?_
  refine .bind (onlyIf_keeps (assign fun _ => rfl)) fun _ => ?_
  refine .bind (onlyIf_keeps (look (setWireframe_quiet device _))) fun _ => ?_
  refine .bind (assign fun _ => rfl) fun _ => ?_
  split_ifs with hcustom
  · exact hP.project _
  · exact onlyIf_keeps hP.reset

theorem restoreState {s : DisplayState F M} (h : sets s.renderTargets)
    (hcustom : s.useCustomProjection = false) :
    Keeps (fun display : Display F M => P display.targets) (restoreState device s) := by
  refine .bind (assign fun _ => rfl) fun _ => ?_
  refine .bind (assign fun _ => rfl) fun _ => ?_
  refine .bind (assign fun _ => rfl) fun _ => ?_
  refine .bind (assign fun _ => rfl) fun _ => ?_
  refine .bind (assign fun _ => rfl) fun _ => ?_
  refine .bind (assign fun _ => rfl) fun _ => ?_
  refine .bind (assign fun _ => rfl) fun _ => ?_
  refine .bind (look (restoreScissor_quiet s)) fun _ => ?_
  refine .bind (assign fun _ => rfl) fun _ => ?_
  refine .bind (assign fun _ => rfl) fun _ => ?_
  refine .bind (assign fun _ => rfl) fun _ => ?_
  refine .bind (assign fun _ => rfl) fun _ => ?_
  refine .bind (hP.setRenderTargetsRef h) fun _ => ?_
  refine .bind (within (setStencilState_within device _)) fun _ => ?_
  refine .bind (within (setDepthMode_within device _ _)) fun _ => ?_
  refine .bind (assign fun _ => rfl) fun _ => ?_
  refine .bind (look (setWireframe_quiet device _)) fun _ => ?_
  refine .bind (assign fun _ => rfl) fun _ => ?_
  rw [hcustom]
  exact hP.reset

theorem setRenderTarget {rt : RenderTarget} {flags : BitVec 32}
    (h : sets { colors := [rt], temporaryRTFlags := flags }) :
    Keeps (fun display : Display F M => P display.targets)
      (setRenderTarget device rt flags) := by
  rw [Display.setRenderTarget]
  split_ifs with htexture
  · exact hP.none
  · exact hP.set _ h

/-- Any call of a setter, if the set of targets that it sets is one of `sets`. -/
theorem run (call : SettingCall F M) (h : ∀ rts ∈ call.sets, sets rts) :
    Keeps (fun display : Display F M => P display.targets) (call.run device) := by
  cases call with
  | setBlendMode mode alphamode =>
    intro display hdisplay
    rw [SettingCall.run, setBlendMode]
    split_ifs with hmultiply
    all_goals exact hdisplay
  | intersectScissor rect => exact fun display hdisplay => hdisplay
  | setStencilState s => exact within (setStencilState_within device s)
  | setStencilMode mode value =>
    refine .bind (within (setStencilState_within device _)) fun _ => ?_
    split_ifs with hdraw
    all_goals exact assign fun _ => rfl
  | setStencilModeNone =>
    exact .bind (within (setStencilState_within device _)) fun _ => assign fun _ => rfl
  | setDepthMode compare write => exact within (setDepthMode_within device compare write)
  | setRenderTarget rt flags => exact hP.setRenderTarget (h _ rfl)
  | setRenderTargets rts => exact hP.set rts (h rts rfl)
  | setRenderTargetNone => exact hP.none
  | setWireframe enable => exact look (setWireframe_quiet device enable)
  | setProjection m => exact hP.project m
  | resetProjection => exact hP.reset
  | _ => exact fun _ hdisplay => hdisplay

end Stable

end Display

/-! ## Sets that are kept -/

/-- What a set is like that is kept. -/
structure KeptTargets (rts : RenderTargets) : Prop where
  mipmap : rts.depthStencil.mipmap = 0
  window : rts.firstTarget.texture = none → rts = {}

theorem strongRefs_colors (rts : RenderTargets) :
    (Device.strongRefs rts).colors = rts.colors := List.map_id _

theorem strongRefs_eq_iff (rts : RenderTargets) :
    Device.strongRefs rts = rts ↔ rts.depthStencil.mipmap = 0 := by
  constructor
  · intro h
    rw [← h]
    rfl
  · intro h
    have hcolors := strongRefs_colors rts
    obtain ⟨colors, ⟨texture, slice, mipmap⟩, flags⟩ := rts
    obtain rfl : mipmap = 0 := h
    rw [RenderTargets.mk.injEq]
    exact ⟨hcolors, rfl, rfl⟩

theorem strongRefs_firstTarget (rts : RenderTargets) :
    (Device.strongRefs rts).firstTarget.texture = rts.firstTarget.texture := by
  rw [RenderTargets.firstTarget, strongRefs_colors, RenderTargets.firstTarget]
  cases rts.colors with
  | nil | cons rt rts => rfl

theorem strongRefs_kept {rts : RenderTargets} {firsttex : Nat}
    (h : rts.firstTarget.texture = some firsttex) : KeptTargets (Device.strongRefs rts) where
  mipmap := rfl
  window hnone := by
    rw [strongRefs_firstTarget, h] at hnone
    cases hnone

theorem window_kept : KeptTargets {} := ⟨rfl, fun _ => rfl⟩

theorem keptTargets_stable (device : Device F M) :
    Display.Stable device (fun _ => True) fun t => KeptTargets t.renderTargets where
  reset := fun _ hdisplay => hdisplay
  none := by
    intro display hdisplay
    rw [Display.setRenderTargetNone]
    split_ifs with hactive
    · exact hdisplay
    · exact window_kept
  project := fun _ _ hdisplay => hdisplay
  set := by
    intro rts _ display hdisplay
    rw [Display.setRenderTargets]
    split
    · rw [Display.setRenderTargetNone]
      split_ifs with hactive
      · exact hdisplay
      · exact window_kept
    · next firsttex hfirst =>
      split_ifs with hsame
      · exact hdisplay
      · cases device.realTargets rts firsttex with
        | error e => exact hdisplay
        | ok bound => exact strongRefs_kept hfirst

/-! ## Every state that is reached -/

/-- All sets of the stack are kept ones. -/
structure AllKept (g : StateStack F M) : Prop where
  display : KeptTargets g.display.state.renderTargets
  saved : ∀ s ∈ g.saved, KeptTargets s.renderTargets

namespace StateStack

/-- Only what is on top of the transforms and the pixel scales changes. -/
structure TopChanges (g g' : StateStack F M) : Prop where
  display : g.display = g'.display
  saved : g.saved = g'.saved
  transforms : g.transformStack.tail = g'.transformStack.tail
  transformCount : g.transformStack.length = g'.transformStack.length
  pixelScales : g.pixelScaleStack.tail = g'.pixelScaleStack.tail
  pixelScaleCount : g.pixelScaleStack.length = g'.pixelScaleStack.length
  stackTypes : g.stackTypeStack = g'.stackTypeStack

theorem TopChanges.refl (g : StateStack F M) : TopChanges g g :=
  ⟨rfl, rfl, rfl, rfl, rfl, rfl, rfl⟩

instance : IsTrans (StateStack F M) TopChanges where
  trans _ _ _ hab hbc :=
    ⟨hab.1.trans hbc.1, hab.2.trans hbc.2, hab.3.trans hbc.3, hab.4.trans hbc.4,
      hab.5.trans hbc.5, hab.6.trans hbc.6, hab.7.trans hbc.7⟩

theorem onTransform_within (f : M → M) :
    Within TopChanges (onTransform f : Operation F M Unit) := by
  intro g
  rw [onTransform]
  cases htransforms : g.transformStack with
  | nil => exact .refl g
  | cons current transforms =>
    exact ⟨rfl, rfl, by rw [htransforms]; rfl, by rw [htransforms]; rfl, rfl, rfl, rfl⟩

theorem onPixelScale_within (f : F → F) :
    Within TopChanges (onPixelScale f : Operation F M Unit) := by
  intro g
  rw [onPixelScale]
  cases hscales : g.pixelScaleStack with
  | nil => exact .refl g
  | cons current scales =>
    exact ⟨rfl, rfl, rfl, rfl, by rw [hscales]; rfl, by rw [hscales]; rfl, rfl⟩

theorem measureScale_within (device : Device F M) : Within TopChanges (measureScale device) := by
  intro g
  rw [measureScale]
  cases g.transformStack with
  | nil => exact .refl g
  | cons current transforms => exact onPixelScale_within _ g

theorem transform_within (device : Device F M) (call : TransformCall F M) :
    Within TopChanges (call.run device) := by
  cases call with
  | rotate r => exact onTransform_within _
  | scale x y => exact .bind (onTransform_within _) fun _ => onPixelScale_within _
  | translate x y | shear kx ky => exact onTransform_within _
  | origin => exact .bind (onTransform_within _) fun _ => onPixelScale_within _
  | applyTransform m | replaceTransform m =>
    exact .bind (onTransform_within _) fun _ => measureScale_within _

theorem onDisplay_final (setter : Setting F M Unit) (g : StateStack F M) :
    final (onDisplay setter g) = { g with display := final (setter g.display) } := by
  rw [onDisplay]
  cases setter g.display with
  | ok _ display | error e display => rfl

end StateStack

open StateStack

theorem onDisplay_allKept {setter : Setting F M Unit}
    (h : Keeps (fun display : Display F M => KeptTargets display.targets.renderTargets) setter) :
    Keeps AllKept (onDisplay setter) := by
  intro g hg
  rw [onDisplay_final]
  exact ⟨h g.display hg.display, hg.saved⟩

theorem within_allKept {x : Operation F M Unit} (h : Within TopChanges x) : Keeps AllKept x := by
  refine Within.keeps h ?_
  intro g g' hsame hg
  exact ⟨hsame.display ▸ hg.display, hsame.saved ▸ hg.saved⟩

theorem push_cases (type : StackType) (g : StateStack F M) :
    (∃ e, push type g = .error e g) ∨
    ∃ transform transforms pixelScale scales, g.stackTypeStack.length ≠ maxUserStackDepth ∧
      g.transformStack = transform :: transforms ∧ g.pixelScaleStack = pixelScale :: scales ∧
      push type g = .ok () { g with
        transformStack := transform :: g.transformStack
        pixelScaleStack := pixelScale :: g.pixelScaleStack
        saved := if type = .all then g.display.state :: g.saved else g.saved
        stackTypeStack := type :: g.stackTypeStack } := by
  by_cases hdepth : g.stackTypeStack.length = maxUserStackDepth
  · exact .inl ⟨_, by rw [push, if_pos hdepth]⟩
  · rw [push, if_neg hdepth]
    cases htransform : g.transformStack with
    | nil => exact .inl ⟨_, rfl⟩
    | cons transform transforms =>
      cases hscale : g.pixelScaleStack with
      | nil => exact .inl ⟨_, rfl⟩
      | cons pixelScale scales =>
        exact .inr ⟨transform, transforms, pixelScale, scales, hdepth, rfl, rfl, rfl⟩

theorem push_allKept (type : StackType) : Keeps AllKept (push type : Operation F M Unit) := by
  intro g hg
  rcases push_cases type g with ⟨e, hpush⟩ | ⟨_, _, _, _, -, -, -, hpush⟩
  · rw [hpush]
    exact hg
  · rw [hpush]
    refine ⟨hg.display, ?_⟩
    cases type with
    | transform => exact hg.saved
    | all =>
      intro s hs
      rcases List.mem_cons.mp hs with rfl | hs
      · exact hg.display
      · exact hg.saved s hs

theorem pop_allKept [BEq F] (device : Device F M) : Keeps AllKept (pop device) := by
  intro g hg
  rw [pop]
  cases g.stackTypeStack with
  | nil => exact hg
  | cons type types =>
    cases g.transformStack with
    | nil => exact hg
    | cons transform transforms =>
      cases g.pixelScaleStack with
      | nil => exact hg
      | cons pixelScale scales =>
        cases type with
        | transform => exact ⟨hg.display, hg.saved⟩
        | all =>
          cases hsaved : g.saved with
          | nil => exact ⟨hg.display, fun s hs => absurd hs List.not_mem_nil⟩
          | cons newstate saved =>
            have hnew : ∀ s ∈ newstate :: saved, KeptTargets s.renderTargets := hsaved ▸ hg.saved
            have hrestored := (keptTargets_stable device).restoreStateChecked (s := newstate)
              trivial g.display hg.display
            dsimp only
            cases hrestore : Display.restoreStateChecked device newstate g.display with
            | error e display =>
              rw [hrestore] at hrestored
              exact ⟨hrestored, hnew⟩
            | ok _ display =>
              exact ⟨hnew _ List.mem_cons_self, fun s hs => hnew s (List.mem_cons_of_mem _ hs)⟩

theorem run_allKept [BEq F] (device : Device F M) (call : GraphicsCall F M) :
    Keeps AllKept (call.run device) := by
  have hstable := keptTargets_stable device
  cases call with
  | push type => exact push_allKept type
  | pop => exact pop_allKept device
  | setting call => exact onDisplay_allKept (hstable.run call fun _ _ => trivial)
  | transform call => exact within_allKept (transform_within device call)
  | reset =>
    refine .bind (onDisplay_allKept (hstable.restoreState trivial rfl)) fun _ => ?_
    exact within_allKept (transform_within device .origin)

theorem stacksAfter_final {σ : Type} {r : EStateM.Result DisplayFault σ Unit} {s : σ}
    (h : stacksAfter r = some s) : final r = s := by
  cases r with
  | ok _ s' => exact Option.some.inj h
  | error e s' =>
    cases e with
    | exception message => exact Option.some.inj h
    | undefined => cases h

/-- **In every state that is reached**, also after exceptions, the sets are kept
ones. -/
theorem keptTargets_reachable [BEq F] {device : Device F M} {g : StateStack F M}
    (h : (stateStacks device).Reachable g) : AllKept g := by
  refine System.Reachable.invariant ?_ ?_ h
  · rintro _ rfl
    exact ⟨window_kept, fun s hs => absurd hs List.not_mem_nil⟩
  · intro g call g' hg hstep
    have hnext := run_allKept device call g hg
    rwa [stacksAfter_final hstep] at hnext

/-! ## What is got -/

namespace Display

variable {device : Device F M} {display display' : Display F M} {rts : RenderTargets}

theorem getRenderTargets_eq (display : Display F M) :
    display.getRenderTargets = display.state.renderTargets := by
  have hcolors : display.state.renderTargets.colors.map
      (fun rt => (⟨rt.texture, rt.slice, rt.mipmap⟩ : RenderTarget)) =
      display.state.renderTargets.colors := List.map_id _
  rw [getRenderTargets, hcolors]

theorem setRenderTargets_kept (hkept : KeptTargets display.state.renderTargets)
    (h : setRenderTargets device rts display = .ok () display') :
    display'.state.renderTargets =
      if rts.firstTarget.texture = none then {} else Device.strongRefs rts := by
  rw [setRenderTargets] at h
  split at h
  · next hfirst =>
    rw [if_pos hfirst]
    rw [setRenderTargetNone] at h
    split_ifs at h with hactive
    · -- The window is drawn to already.
      cases h
      refine hkept.window ?_
      rw [Bool.not_eq_true', RenderTargets.active, decide_eq_false_iff_not, not_or, not_not,
        not_not] at hactive
      rw [RenderTargets.firstTarget, hactive.1]
      exact hactive.2
    · cases h
      rfl
  · next firsttex hfirst =>
    rw [if_neg (by rw [hfirst]; exact Option.some_ne_none _)]
    split_ifs at h with hsame
    · cases h
      rw [(strongRefs_eq_iff rts).mpr (hsame ▸ hkept.mipmap), hsame]
    · split at h
      · cases h
      next bound hreal =>
        cases h
        rfl

theorem setRenderTargets_again (hkept : KeptTargets display.state.renderTargets) :
    setRenderTargets device display.state.renderTargets display = .ok () display := by
  rw [setRenderTargets]
  split
  · next hfirst =>
    have hwindow : display.state.renderTargets.active = false := by
      rw [hkept.window hfirst]
      rfl
    rw [setRenderTargetNone, hwindow]
    rfl
  · rw [if_pos rfl]

end Display

open Display

/-- **A set that is set without an exception** is got as it was set, and can be set
again without a change, exactly if it is the one for the window, or its first target
is a texture and no mipmap level of the depth and stencil target is asked for. -/
theorem getRenderTargets_setRenderTargets [BEq F] {device : Device F M} {g : StateStack F M}
    (hg : (stateStacks device).Reachable g) {rts : RenderTargets} {display : Display F M}
    (h : setRenderTargets device rts g.display = .ok () display) :
    (display.getRenderTargets = rts ∧
      setRenderTargets device display.getRenderTargets display = .ok () display) ↔
    (rts = {} ∨ rts.firstTarget.texture ≠ none ∧ rts.depthStencil.mipmap = 0) := by
  have hkept := (keptTargets_reachable hg).display
  have hset := setRenderTargets_kept hkept h
  have hkept' : KeptTargets display.state.renderTargets := by
    have hnext := (keptTargets_stable device).set rts trivial g.display hkept
    rwa [h] at hnext
  have hagain := @setRenderTargets_again _ _ device _ hkept'
  rw [getRenderTargets_eq, and_iff_left hagain, hset]
  split
  next hfirst =>
    constructor
    · rintro rfl
      exact .inl rfl
    · rintro (rfl | ⟨htexture, -⟩)
      · rfl
      · exact absurd hfirst htexture
  next hfirst =>
    rw [strongRefs_eq_iff]
    constructor
    · intro hmipmap
      exact .inr ⟨hfirst, hmipmap⟩
    · rintro (rfl | ⟨-, hmipmap⟩)
      · rfl
      · exact hmipmap

/-- Numbers and matrices that nothing depends on. -/
def unitArithmetic : Arithmetic Unit Unit :=
  ⟨(), (), (), fun _ _ => (), fun _ _ => (), fun _ _ => (), fun _ _ => (), (), fun _ _ => (),
    fun _ _ _ => (), fun _ _ _ => (), fun _ _ _ => (), fun _ _ => (), fun _ => (),
    fun _ _ _ => (), fun _ _ => ()⟩

/-- A device with a window without a depth and stencil buffer, and with canvases of
two by two pixels with two mipmap levels: 0 has colors, the others are depth and
stencil buffers. -/
def smallDevice : Device Unit Unit where
  ops := unitArithmetic
  texture
    | 0 => ⟨.texture2D, .color false, true, 2, 1, 1, 2, 2, 2, 2, 0⟩
    | _ => ⟨.texture2D, .depth24UnormStencil8, true, 2, 1, 1, 2, 2, 2, 2, 0⟩
  limitRenderTargets := 4
  width := 800
  height := 600
  stencil := false
  depth := false
  supported _ := true
  bind _ := none
  es := false

/-- The display after a set is set in the first state. -/
def shown (rts : RenderTargets) : Display Unit Unit :=
  final (setRenderTargets smallDevice rts (StateStack.new smallDevice).display)

/-- A canvas and a depth and stencil buffer. -/
def canvasTargets : RenderTargets :=
  { colors := [{ texture := some 0 }], depthStencil := { texture := some 1 } }

/-- The second mipmap level of a depth and stencil buffer. -/
def mipmapTargets : RenderTargets := { depthStencil := { texture := some 1, mipmap := 1 } }

theorem getRenderTargets_setRenderTargets_canvas :
    (shown canvasTargets).getRenderTargets = canvasTargets ∧
      setRenderTargets smallDevice (shown canvasTargets).getRenderTargets (shown canvasTargets) =
        .ok () (shown canvasTargets) := by
  have hset : setRenderTargets smallDevice canvasTargets (StateStack.new smallDevice).display =
      .ok () (shown canvasTargets) := rfl
  exact (getRenderTargets_setRenderTargets (.init rfl) hset).mpr
    (.inr ⟨by decide, rfl⟩)

/-- The mipmap level is not got. -/
theorem mipmapTargets_lost :
    setRenderTargets smallDevice mipmapTargets (StateStack.new smallDevice).display =
        .ok () (shown mipmapTargets) ∧
      (shown mipmapTargets).getRenderTargets ≠ mipmapTargets :=
  ⟨rfl, by decide⟩

end Lhatove.Graphics
