import Lhatove.Physics.WorldCalls

/-!
# Runs of a world

- `Safe`: the invariant;
- `Safe.userStep`, `Safe.box2dStep`: what scripts call, and how Box2D goes on;
- `destruction_safe`: all runs in which no procedure that is called while Box2D is
  not locked interferes with what is in progress.
-/

namespace Lhatove.Physics

open World Physics.Frame

/-! ## The invariant -/

/-- An object that is in the lists of what was marked. -/
def Listed (s : World) : Obj → Prop
  | .body b => b ∈ s.destructBodies
  | .shape f => f ∈ s.destructShapes
  | .joint j => j ∈ s.destructJoints

/-- An object that the loops of an update have not come to. -/
def Left (bodies shapes joints : List Nat) : Obj → Prop
  | .body b => b ∈ bodies
  | .shape f => f ∈ shapes
  | .joint j => j ∈ joints

/-- An object that an update in progress is going to destroy. -/
def Pending (s : World) (o : Obj) : Prop :=
  (s.locked = true ∧ Listed s o) ∨
    ∃ bodies shapes joints, .drain bodies shapes joints ∈ s.stack ∧
      (Left bodies shapes joints o ∨ s.stack.any (Frame.destroys o) = true)

/-- The invariant; `due` is an object whose turn it is to be destroyed. -/
structure Safe (due : Option Obj) (s : World) : Prop where
  fault : s.fault = false
  counted : Counted s
  attached : Attached s
  logged : Logged s
  contacts : (s.contacts.map B2Contact.id).Nodup
  calls : Calls s
  marked : ∀ o ∈ s.marked, o ∈ s.valid → due = some o ∨ Pending s o
  marked_created : ∀ o ∈ s.marked, o ∈ s.created
  world : s.destructWorld = true → s.alive = false ∨ s.stack.any Frame.inUpdate = true
  dead : s.alive = false → s.stack = [] ∧ s.objects = []

variable {s' : World} {o : Obj}

theorem Pending.mono {s : World} (h : Pending s o) (hlocked : s'.locked = s.locked)
    (hstack : ∀ f ∈ s.stack, f ∈ s'.stack) (hlisted : Listed s o → Listed s' o) : Pending s' o := by
  rcases h with ⟨hl, hin⟩ | ⟨bodies, shapes, joints, hmem, hin⟩
  · exact .inl ⟨hlocked.trans hl, hlisted hin⟩
  · refine .inr ⟨bodies, shapes, joints, hstack _ hmem, hin.imp_right fun hany => ?_⟩
    obtain ⟨f, hf, hdestroys⟩ := List.any_eq_true.mp hany
    exact List.any_eq_true.mpr ⟨f, hstack f hf, hdestroys⟩

theorem Safe.alive_of_valid {s : World} (hs : Safe due s) (ho : o ∈ s.valid) : s.alive = true := by
  cases halive : s.alive with
  | true => rfl
  | false =>
    obtain ⟨x, hx, -⟩ := hs.counted.exists_of_valid ho
    rw [(hs.dead halive).2] at hx
    cases hx

section Calls

variable {due : Option Obj}

/-! ## Calls from scripts -/

/-- **An object is made.** -/
theorem Safe.make {s : World} (hs : Safe due s) {o : Obj} {bodies : List Nat} (hnew : o ∉ s.created)
    (halive : s.alive = true) (hkind : B2Object.Kind ⟨o, bodies⟩)
    (hbodies : ∀ b ∈ bodies, .body b ∈ s.valid)
    (hjoint : B2Object.isJoint ⟨o, bodies⟩ = true → ∀ b ∈ bodies,
      ∀ body current next, Frame.destroying (.body b) body current next ∉ s.stack) :
    Safe due (s.make o bodies) where
  fault := hs.fault
  counted := hs.counted.make bodies hnew
  attached := hs.attached.make hkind hbodies
  logged := hs.logged
  contacts := hs.contacts
  calls := hs.calls.mono rfl rfl (keeps_make hjoint)
  marked o' ho' hvalid := by
    rcases List.mem_cons.mp hvalid with rfl | hvalid
    · exact absurd (hs.marked_created o' ho') hnew
    · exact hs.marked o' ho' hvalid
  marked_created o' ho' := List.mem_cons_of_mem _ (hs.marked_created o' ho')
  world := hs.world
  dead hdead := absurd (halive.symm.trans hdead) (by decide)

/-- **An object is marked**, during a step. -/
theorem Safe.mark {s s' : World} (hs : Safe due s) (hlocked : s.locked = true) {o : Obj}
    (ho : o ∈ s.valid) (hsame : s' = { s with
      destructBodies := s'.destructBodies, destructShapes := s'.destructShapes,
      destructJoints := s'.destructJoints, marked := o :: s.marked })
    (hlisted : Listed s' o ∧ ∀ o', Listed s o' → Listed s' o') : Safe due s' := by
  have hlocked' : s'.locked = s.locked := by rw [hsame]
  have hstack : s'.stack = s.stack := by rw [hsame]
  have hvalid : s'.valid = s.valid := by rw [hsame]
  have hmarked : s'.marked = o :: s.marked := by rw [hsame]
  refine ⟨?_, ?_, ?_, ?_, ?_, ?_, ?_, ?_, ?_, ?_⟩
  · rw [hsame]
    exact hs.fault
  · exact hs.counted.congr (by rw [hsame]) hvalid (by rw [hsame]) (by rw [hsame])
  · exact hs.attached.congr (by rw [hsame]) hvalid
  · rw [hsame]
    exact hs.logged
  · rw [hsame]
    exact hs.contacts
  · exact hs.calls.mono hlocked' hstack
      (keeps_of_same _ (by rw [hsame]) (by rw [hsame]) hvalid)
  · intro o' ho' hvalid'
    rw [hmarked] at ho'
    rw [hvalid] at hvalid'
    rcases List.mem_cons.mp ho' with rfl | ho'
    · exact .inr (.inl ⟨hlocked'.trans hlocked, hlisted.1⟩)
    · exact (hs.marked o' ho' hvalid').imp_right fun hpending =>
        hpending.mono hlocked' (fun f hf => hstack.symm ▸ hf) (hlisted.2 o')
  · intro o' ho'
    have hcreated : s'.created = s.created := by rw [hsame]
    rw [hmarked] at ho'
    rw [hcreated]
    rcases List.mem_cons.mp ho' with rfl | ho'
    · exact hs.counted.created o' ho
    · exact hs.marked_created o' ho'
  · rw [hsame]
    exact hs.world
  · rw [hsame]
    exact hs.dead

/-- **Objects go** that no call in progress destroys, where Box2D does not step. -/
theorem Safe.dropAll {s : World} (hs : Safe due s)
    (ht : Tower s s.stack) {os : List Obj} (hnodup : os.Nodup) (hvalid : ∀ o ∈ os, o ∈ s.valid)
    (hbodies : ∀ b, .body b ∉ os)
    (hout : ∀ target body current next, Frame.destroying target body current next ∈ s.stack →
      TargetIn s target body → target ∉ os) : Safe due (dropAll os s) := by
  have hsame := dropAll_same os s
  have hkeeps := keeps_dropAll hout
  refine ⟨?_, hs.counted.dropAll hnodup hvalid, hs.attached.dropAll hbodies,
    hs.logged.dropAll os ht.not_inStep, ?_, ?_, ?_, ?_, ?_, ?_⟩
  · exact hsame.fault.trans hs.fault
  · exact hsame.contacts.symm ▸ hs.contacts
  · exact hs.calls.mono hsame.locked hsame.stack hkeeps
  · intro o ho hvalid'
    rw [hsame.marked] at ho
    refine (hs.marked o ho (mem_dropAll_valid.mp hvalid').1).imp_right fun hpending =>
      hpending.mono hsame.locked (fun f hf => hsame.stack.symm ▸ hf) fun hlisted => ?_
    cases o with
    | body b =>
      rw [Listed, hsame.destructBodies]
      exact hlisted
    | shape f =>
      rw [Listed, hsame.destructShapes]
      exact hlisted
    | joint j =>
      rw [Listed, hsame.destructJoints]
      exact hlisted
  · rw [hsame.marked, hsame.created]
    exact hs.marked_created
  · rw [hsame.destructWorld, hsame.alive, hsame.stack]
    exact hs.world
  · intro hdead
    rw [hsame.alive] at hdead
    refine ⟨hsame.stack.trans (hs.dead hdead).1, ?_⟩
    rw [dropAll_eq]
    rw [(hs.dead hdead).2]
    rfl

variable {target : Obj} {body : Nat} {next : Option Nat}

theorem FrameOk.start {s : World} {t : List Frame} (hin : TargetIn s target body)
    (hjoint : JointFree s target)
    (hnext : ∀ c, next = some c → ∃ x ∈ s.contacts, x.id = c ∧ x.involves (.body body) = true)
    (hown : ∀ x ∈ s.contacts, x.involves target = true → x.id ∉ hands t) :
    FrameOk s target body none next t where
  target_in := hin
  joint_free := hjoint
  current_in c hc := by cases hc
  next_in c hc := ⟨(Option.some_ne_none c).symm, hnext c hc⟩
  own := hown

/-- **A destruction begins.** -/
theorem Safe.pushDestroying {s : World} (hs : Safe due s) (hlocked : s.locked = false)
    (ht : Tower s s.stack) (halive : s.alive = true)
    (hok : FrameOk s target body none next s.stack) :
    Safe due (s.push (.destroying target body none next)) where
  fault := hs.fault
  counted := hs.counted.congr rfl rfl rfl rfl
  attached := hs.attached.congr rfl rfl
  logged := hs.logged
  contacts := hs.contacts
  calls := .destroying hlocked rfl
    (hok.mono (keeps_of_same _ rfl rfl rfl)) (ht.mono (keeps_of_same _ rfl rfl rfl))
  marked o ho hvalid := (hs.marked o ho hvalid).imp_right fun hpending =>
    hpending.mono rfl (fun _ hf => List.mem_cons_of_mem _ hf) id
  marked_created := hs.marked_created
  world hworld := (hs.world hworld).imp_right fun hany => by
    rw [push, List.any_cons, hany, Bool.or_true]
  dead hdead := absurd (halive.symm.trans hdead) (by decide)

/-- What is to be destroyed has no contact that a call in progress goes on with. -/
def Apart (s : World) (o : Obj) : Prop :=
  ∀ c ∈ s.contacts, c.involves o = true → c.id ∉ hands s.stack

theorem joint_not_target {s : World} {j : Nat}
    (h : TargetIn s target body) : target ≠ .joint j := by
  rcases h with ⟨rfl, -⟩ | ⟨f, rfl, -⟩ <;> nofun

theorem target_not_mem_jointsOf {s : World} {b : Nat}
    (h : TargetIn s target body) : target ∉ s.jointsOf b := by
  intro hmem
  obtain ⟨x, -, hjoint, -, rfl⟩ := mem_jointsOf.mp hmem
  rw [B2Object.isJoint] at hjoint
  split at hjoint
  · next heq => exact joint_not_target h heq
  · cases hjoint

/-- **`Body::destroy`**, where Box2D does not step. -/
theorem Safe.destroyBody {s : World} (hs : Safe due s) {b : Nat} (hvalid : .body b ∈ s.valid)
    (hfree : s.locked = false → Tower s s.stack ∧ Apart s (.body b)) : Safe due (s.destroyBody b) := by
  rw [World.destroyBody]
  split
  next hlocked =>
    refine hs.mark hlocked hvalid rfl ⟨?_, ?_⟩
    · exact List.mem_append_right _ (List.mem_singleton_self b)
    · intro o ho
      cases o with
      | body b' => exact List.mem_append_left _ ho
      | shape f | joint j => exact ho
  next hlocked =>
    have hlocked := (Bool.not_eq_true _).mp hlocked
    obtain ⟨ht, hapart⟩ := hfree hlocked
    obtain ⟨hnodup, hjoints⟩ := hs.counted.jointsOf b
    have hsame := dropAll_same (s.jointsOf b) s
    have hs' := hs.dropAll ht hnodup hjoints (body_not_mem_jointsOf s b)
      fun _ _ _ _ _ htarget => target_not_mem_jointsOf htarget
    have ht' : Tower (World.dropAll (s.jointsOf b) s) (World.dropAll (s.jointsOf b) s).stack := by
      rw [hsame.stack]
      exact ht.mono (keeps_dropAll fun _ _ _ _ _ htarget => target_not_mem_jointsOf htarget)
    have hvalid' : .body b ∈ (World.dropAll (s.jointsOf b) s).valid :=
      mem_dropAll_valid.mpr ⟨hvalid, body_not_mem_jointsOf s b b⟩
    refine hs'.pushDestroying (hsame.locked.trans hlocked) ht' (hs'.alive_of_valid hvalid') ?_
    refine .start (.inl ⟨rfl, hvalid'⟩) ?_ (fun c hc => firstContact_spec hc) ?_
    · intro b' hb' x hx hjoint
      cases hb'
      exact not_mem_bodies_of_dropAll_jointsOf hx hjoint
    · rw [hsame.contacts, hsame.stack]
      exact hapart

/-- **`Shape::destroy`**, where Box2D does not step. -/
theorem Safe.destroyShape {s s' : World} (hs : Safe due s) {f : Nat} (h : s.destroyShape f = some s')
    (hfree : .shape f ∈ s.valid → s.locked = false → Tower s s.stack ∧ Apart s (.shape f)) :
    Safe due s' := by
  rw [World.destroyShape] at h
  split at h
  · cases h
    exact hs
  rename_i hvalid
  have hvalid := not_not.mp hvalid
  split at h
  next hlocked =>
    cases h
    refine hs.mark hlocked hvalid rfl ⟨?_, ?_⟩
    · exact List.mem_append_right _ (List.mem_singleton_self f)
    · intro o ho
      cases o with
      | body b => exact ho
      | shape f' => exact List.mem_append_left _ ho
      | joint j => exact ho
  next hlocked =>
    have hlocked := (Bool.not_eq_true _).mp hlocked
    obtain ⟨ht, hapart⟩ := hfree hvalid hlocked
    split at h
    · cases h
    next b hbody =>
      split_ifs at h
      cases h
      have hobject : (⟨.shape f, [b]⟩ : B2Object) ∈ s.objects := by
        rw [bodyOf, Option.bind_eq_some_iff] at hbody
        obtain ⟨x, hfind, hhead⟩ := hbody
        have hx := List.mem_of_find?_eq_some hfind
        have hobj : x.obj = .shape f := by simpa using List.find?_some hfind
        have hkind := hs.attached.kind x hx
        rw [B2Object.Kind, hobj] at hkind
        obtain ⟨b', hb'⟩ := hkind
        rw [hb'] at hhead
        cases hhead
        rw [← hobj, ← hb']
        exact hx
      refine hs.pushDestroying hlocked ht (hs.alive_of_valid hvalid) ?_
      refine .start (.inr ⟨f, rfl, hobject⟩) ?_ (fun c hc => firstContact_spec hc) hapart
      intro b' hb'
      cases hb'

/-- **`Joint::destroyJoint`**, where Box2D does not step. -/
theorem Safe.destroyJoint {s : World} (hs : Safe due s) {j : Nat} (hvalid : .joint j ∈ s.valid)
    (hfree : s.locked = false → Tower s s.stack) : Safe due (s.destroyJoint j) := by
  rw [World.destroyJoint]
  split
  next hlocked =>
    refine hs.mark hlocked hvalid rfl ⟨?_, ?_⟩
    · exact List.mem_append_right _ (List.mem_singleton_self j)
    · intro o ho
      cases o with
      | body b | shape f => exact ho
      | joint j' => exact List.mem_append_left _ ho
  next hlocked =>
    have hlocked := (Bool.not_eq_true _).mp hlocked
    refine hs.dropAll (hfree hlocked) (List.nodup_singleton _) ?_ ?_ ?_
    · intro o ho
      rw [List.mem_singleton.mp ho]
      exact hvalid
    · intro b hb
      cases List.mem_singleton.mp hb
    · intro target body current next _ htarget hin
      exact joint_not_target htarget (List.mem_singleton.mp hin)

/-- **`World::destroy`**, where no call is in progress. -/
theorem destroyWorld_safe {s : World} (halive : s.alive = true) (hfault : s.fault = false)
    (hc : Counted s) (ha : Attached s) (hlogged : Logged s)
    (hmarked : ∀ o ∈ s.marked, o ∈ s.created) (hlocked : s.locked = false)
    (hstack : s.stack = []) : Safe none s.destroyWorld := by
  rw [World.destroyWorld, if_neg (by rw [halive]; decide), if_neg (by rw [hlocked]; decide)]
  obtain ⟨hcounted, hnone⟩ := dropBodies_spec hc ha (bodyIds_nodup hc) (bodiesAre_bodyIds hc)
  have hsame := dropBodies_same s.bodyIds s
  have hstack' : (dropBodies s.bodyIds s).stack = [] := hsame.stack.trans hstack
  have hempty : ∀ x, x ∉ (dropBodies s.bodyIds s).objects := by
    rw [hnone]
    exact fun _ => List.not_mem_nil
  refine ⟨hsame.fault.trans hfault, hcounted.congr rfl rfl rfl rfl, ⟨?_, ?_⟩, ?_, List.nodup_nil,
    ?_, ?_, ?_, fun _ => .inl rfl, fun _ => ⟨hstack', hnone⟩⟩
  · intro x hx
    exact absurd hx (hempty x)
  · intro x hx
    exact absurd hx (hempty x)
  · exact hlogged.dropBodies (by rw [hstack]; rfl)
  · refine .tower (hsame.locked.trans hlocked) ?_
    rw [hstack']
    exact .nil
  · intro o _ hvalid
    obtain ⟨x, hx, -⟩ := hcounted.exists_of_valid hvalid
    exact absurd hx (hempty x)
  · show ∀ o ∈ (dropBodies s.bodyIds s).marked, o ∈ (dropBodies s.bodyIds s).created
    rw [hsame.marked, hsame.created]
    exact hmarked

end Calls

/-! ## Conditions -/

/-- A call from a script that leaves alone what is in progress:
- a world is not updated from a procedure that it calls;
- where Box2D is not locked, nothing is destroyed by the filter, and no procedure
  that is told of the end of a contact destroys what has a contact that a destruction
  in progress goes on with, or the world;
- no joint is made for a body that is being destroyed. -/
def WorldOp.Kept (s : World) : WorldOp → Prop
  | .newJoint _ bodies => ∀ b ∈ bodies, s.stack.any (Frame.destroys (.body b)) = false
  | .destroyBody b => .body b ∈ s.valid → s.locked = false →
    .preStep ∉ s.stack ∧ Apart s (.body b)
  | .destroyShape f => .shape f ∈ s.valid → s.locked = false →
    .preStep ∉ s.stack ∧ Apart s (.shape f)
  | .destroyJoint j => .joint j ∈ s.valid → s.locked = false → .preStep ∉ s.stack
  | .destroyWorld => s.alive = true → s.locked = false →
    .preStep ∉ s.stack ∧ ∀ o, s.stack.any (Frame.destroys o) = false
  | .update => s.alive = true → s.stack = []
  | _ => True

/-! ## What scripts call -/

theorem not_mem_of_any_destroys {s : World} (h : s.stack.any (destroys o) = false)
    (body : Nat) (current next : Option Nat) :
    Frame.destroying o body current next ∉ s.stack := by
  intro hmem
  have hany : s.stack.any (destroys o) = true :=
    List.any_eq_true.mpr ⟨_, hmem, by simp [destroys]⟩
  rw [h] at hany
  cases hany

theorem Safe.update {s : World} (hs : Safe none s) (halive : s.alive = true) (hstack : s.stack = []) :
    Safe none (s.push .preStep) := by
  have hlocked : s.locked = false := by
    cases hs.calls with
    | step _ h | stepCallback _ h | preStep _ h | preStepCallback _ h =>
      cases hstack.symm.trans h
    | tower hl | destroying hl => exact hl
  refine ⟨hs.fault, hs.counted.congr rfl rfl rfl rfl, hs.attached.congr rfl rfl, hs.logged,
    hs.contacts, ?_, ?_, hs.marked_created, fun _ => .inr rfl, ?_⟩
  · refine .preStep hlocked ?_
    show .preStep :: s.stack = _
    rw [hstack]
  · intro o ho hvalid
    exact (hs.marked o ho hvalid).imp_right fun hpending =>
      hpending.mono rfl (fun _ hf => List.mem_cons_of_mem _ hf) id
  · exact fun hdead => absurd (halive.symm.trans hdead) (by decide)

/-- What is known of the calls in progress, below the frame on top. -/
def TopOk (s : World) (t : List Frame) : Frame → Prop
  | .preStep | .drain _ _ _ => s.locked = false ∧ t = []
  | .step => s.locked = true ∧ t = []
  | .destroying target body current next =>
    s.locked = false ∧ FrameOk s target body current next t ∧ Tower s t
  | .callback => s.locked = true ∧ t = [.step] ∨ s.locked = false ∧ t = [.preStep] ∨
    ∃ target body c next t', s.locked = false ∧ t = .destroying target body (some c) next :: t' ∧
      FrameOk s target body (some c) next t' ∧ Tower s t'

theorem Calls.top {s : World} {t : List Frame} (h : Calls s) {f : Frame} (hstack : s.stack = f :: t) : TopOk s t f := by
  cases h with
  | step hl h => cases hstack.symm.trans h; exact ⟨hl, rfl⟩
  | stepCallback hl h => cases hstack.symm.trans h; exact .inl ⟨hl, rfl⟩
  | preStep hl h => cases hstack.symm.trans h; exact ⟨hl, rfl⟩
  | preStepCallback hl h => cases hstack.symm.trans h; exact .inr (.inl ⟨hl, rfl⟩)
  | tower hl ht =>
    rw [hstack] at ht
    cases ht with
    | drain => exact ⟨hl, rfl⟩
    | callback hok ht => exact .inr (.inr ⟨_, _, _, _, _, hl, rfl, hok, ht⟩)
  | destroying hl h hok ht => cases hstack.symm.trans h; exact ⟨hl, hok, ht⟩

theorem Safe.pop_callback {s : World} (hs : Safe none s) {t : List Frame}
    (hstack : s.stack = .callback :: t) : Safe none s.pop := by
  have htail : s.pop.stack = t := by
    show s.stack.tail = t
    rw [hstack]
    rfl
  have hkeeps : ∀ t, Keeps s s.pop t := fun t => keeps_of_same t rfl rfl rfl
  refine ⟨hs.fault, hs.counted.congr rfl rfl rfl rfl, hs.attached.congr rfl rfl, hs.logged,
    hs.contacts, ?_, ?_, hs.marked_created, ?_, ?_⟩
  · rcases hs.calls.top hstack with
      ⟨hl, rfl⟩ | ⟨hl, rfl⟩ | ⟨target, body, c, next, t', hl, rfl, hok, ht⟩
    · exact .step hl htail
    · exact .preStep hl htail
    · exact .destroying hl htail (hok.mono (hkeeps _)) (ht.mono (hkeeps _))
  · -- A procedure is not what destroys.
    intro o ho hvalid
    rcases hs.marked o ho hvalid with hdue | hlisted | ⟨bodies, shapes, joints, hmem, hin⟩
    · exact .inl hdue
    · exact .inr (.inl hlisted)
    · rw [hstack] at hmem hin
      refine .inr (.inr ⟨bodies, shapes, joints, htail.symm ▸ ?_, htail.symm ▸ hin⟩)
      rcases List.mem_cons.mp hmem with heq | hmem
      · cases heq
      · exact hmem
  · intro hworld
    refine (hs.world hworld).imp_right fun hany => ?_
    rw [hstack] at hany
    rw [htail]
    exact hany
  · intro hdead
    rw [(hs.dead hdead).1] at hstack
    cases hstack

theorem Safe.userStep {s : World} {op : WorldOp} (hs : Safe none s) (huser : s.userControl = true)
    (hkept : op.Kept s) (h : userStep s op = some s') : Safe none s' := by
  cases op with
  | newBody b =>
    rw [Physics.userStep] at h
    split_ifs at h with hnew hno
    · cases h
      exact hs
    · cases h
      rw [not_or] at hno
      exact hs.make hnew ((Bool.not_eq_false _).mp hno.1) rfl nofun nofun
  | newShape f b =>
    rw [Physics.userStep] at h
    split_ifs at h with hnew hno
    · cases h
      exact hs
    · cases h
      rw [not_or, not_not] at hno
      refine hs.make hnew (hs.alive_of_valid hno.1) ⟨b, rfl⟩ (fun b' hb' => ?_) nofun
      rw [List.mem_singleton.mp hb']
      exact hno.1
  | newJoint j bodies =>
    rw [Physics.userStep] at h
    split_ifs at h with hnew hno
    · cases h
      exact hs
    · cases h
      rw [not_or] at hnew hno
      have hbodies : ∀ b ∈ bodies, .body b ∈ s.valid := by
        intro b hb
        by_contra hout
        exact hno.1 ⟨b, hb, hout⟩
      obtain ⟨b, hb⟩ := List.exists_mem_of_ne_nil _ hnew.2
      refine hs.make hnew.1 (hs.alive_of_valid (hbodies b hb)) hnew.2 hbodies ?_
      intro _ b' hb' body current next
      exact not_mem_of_any_destroys (hkept b' hb') body current next
  | destroyBody b =>
    rw [Physics.userStep] at h
    split_ifs at h with hvalid
    · cases h
      refine hs.destroyBody hvalid fun hlocked => ?_
      obtain ⟨hpre, hapart⟩ := hkept hvalid hlocked
      exact ⟨hs.calls.tower_of_user huser hlocked hpre, hapart⟩
    · cases h
      exact hs
  | destroyShape f =>
    cases h
    cases hdestroy : s.destroyShape f with
    | none => exact hs
    | some s' =>
      refine hs.destroyShape hdestroy fun hvalid hlocked => ?_
      obtain ⟨hpre, hapart⟩ := hkept hvalid hlocked
      exact ⟨hs.calls.tower_of_user huser hlocked hpre, hapart⟩
  | destroyJoint j =>
    rw [Physics.userStep] at h
    split_ifs at h with hvalid
    · cases h
      exact hs.destroyJoint hvalid fun hlocked =>
        hs.calls.tower_of_user huser hlocked (hkept hvalid hlocked)
    · cases h
      exact hs
  | destroyWorld =>
    cases h
    by_cases halive : s.alive = true
    · by_cases hlocked : s.locked = true
      · -- The world is marked; a step is in progress.
        rw [World.destroyWorld, if_neg (by rw [halive]; decide), if_pos hlocked]
        have hupdate : s.stack.any inUpdate = true := by
          cases hs.calls with
          | step _ h | stepCallback _ h | preStep _ h | preStepCallback _ h => rw [h]; rfl
          | tower hl | destroying hl => cases hlocked.symm.trans hl
        exact ⟨hs.fault, hs.counted.congr rfl rfl rfl rfl, hs.attached.congr rfl rfl, hs.logged,
          hs.contacts, hs.calls.mono rfl rfl (keeps_of_same _ rfl rfl rfl),
          fun o ho hvalid => (hs.marked o ho hvalid).imp_right fun hpending =>
            hpending.mono rfl (fun _ hf => hf) id,
          hs.marked_created, fun _ => .inr hupdate, hs.dead⟩
      · have hlocked := (Bool.not_eq_true _).mp hlocked
        obtain ⟨hpre, hnone⟩ := hkept halive hlocked
        have ht := hs.calls.tower_of_user huser hlocked hpre
        exact destroyWorld_safe halive hs.fault hs.counted hs.attached hs.logged hs.marked_created
          hlocked (ht.eq_nil huser hnone)
    · rw [World.destroyWorld, if_pos ((Bool.not_eq_true _).mp halive)]
      exact hs
  | update =>
    rw [Physics.userStep] at h
    split_ifs at h with halive
    · cases h
      exact hs.update halive (hkept halive)
    · cases h
      exact hs
  | ret =>
    rw [Physics.userStep] at h
    split at h
    · next t hstack =>
        cases h
        exact hs.pop_callback hstack
    · cases h
  | filter | lock | contact | collide contacts | unlock | next notify => cases h

/-! ## Box2D goes on -/

section Box2D

variable {s : World} {t : List Frame}

variable {bodies shapes joints : List Nat} {target : Obj} {body : Nat} {current next : Option Nat}

variable {contacts : List B2Contact}

theorem Safe.withCalls {due due' : Option Obj} (hs : Safe due s) (locked : Bool)
    (halive : s.alive = true) (hcontacts : (contacts.map B2Contact.id).Nodup)
    (hcalls : Calls { s with stack := t, locked := locked, contacts := contacts })
    (hmarked : ∀ o ∈ s.marked, o ∈ s.valid → due' = some o ∨
      Pending { s with stack := t, locked := locked, contacts := contacts } o)
    (hworld : s.destructWorld = true → t.any inUpdate = true) :
    Safe due' { s with stack := t, locked := locked, contacts := contacts } where
  fault := hs.fault
  counted := hs.counted.congr rfl rfl rfl rfl
  attached := hs.attached.congr rfl rfl
  logged := hs.logged
  contacts := hcontacts
  calls := hcalls
  marked := hmarked
  marked_created := hs.marked_created
  world hworld' := .inr (hworld hworld')
  dead hdead := absurd (halive.symm.trans hdead) (by decide)

theorem Safe.none_marked (hs : Safe none s) (hlocked : s.locked = false)
    (hdrain : ∀ bodies shapes joints, .drain bodies shapes joints ∉ s.stack) :
    ∀ o ∈ s.marked, o ∉ s.valid := by
  intro o ho hvalid
  rcases hs.marked o ho hvalid with hdue | ⟨hl, -⟩ | ⟨bodies, shapes, joints, hmem, -⟩
  · cases hdue
  · rw [hlocked] at hl
    cases hl
  · exact hdrain bodies shapes joints hmem

/-- **Before the lock.** -/
theorem Safe.preStep (hs : Safe none s) (halive : s.alive = true) (hstack : s.stack = .preStep :: t)
    {t' : List Frame} (locked : Bool) (hcontacts : (contacts.map B2Contact.id).Nodup)
    (hcalls : Calls { s with stack := t', locked := locked, contacts := contacts })
    (hupdate : t'.any inUpdate = true) :
    Safe none { s with stack := t', locked := locked, contacts := contacts } := by
  obtain ⟨hlocked, rfl⟩ := hs.calls.top hstack
  refine hs.withCalls locked halive hcontacts hcalls ?_ fun _ => hupdate
  intro o ho hvalid
  refine absurd hvalid (hs.none_marked hlocked ?_ o ho)
  intro bodies shapes joints hmem
  rw [hstack] at hmem
  cases List.mem_singleton.mp hmem

/-- **In a step.** -/
theorem Safe.step (hs : Safe none s) (halive : s.alive = true) (hstack : s.stack = .step :: t)
    {t' : List Frame} (hcontacts : (contacts.map B2Contact.id).Nodup)
    (hcalls : Calls { s with stack := t', contacts := contacts })
    (hupdate : t'.any inUpdate = true) :
    Safe none { s with stack := t', contacts := contacts } := by
  obtain ⟨hlocked, rfl⟩ := hs.calls.top hstack
  refine hs.withCalls s.locked halive hcontacts hcalls ?_ fun _ => hupdate
  intro o ho hvalid
  rcases hs.marked o ho hvalid with hdue | ⟨hl, hlisted⟩ | ⟨bodies, shapes, joints, hmem, -⟩
  · exact .inl hdue
  · exact .inr (.inl ⟨hl, hlisted⟩)
  · rw [hstack] at hmem
    cases List.mem_singleton.mp hmem

/-- **A step ends**, and the loops begin. -/
theorem Safe.unlock (hs : Safe none s) (halive : s.alive = true) (hstack : s.stack = .step :: t) :
    Safe none { s.replace (.drain s.destructBodies s.destructShapes s.destructJoints) with
      locked := false } := by
  obtain ⟨hlocked, rfl⟩ := hs.calls.top hstack
  have htail : s.stack.tail = [] := by
    rw [hstack]
    rfl
  refine hs.withCalls false halive hs.contacts ?_ ?_ fun _ => rfl
  · refine .tower rfl ?_
    show Tower _ (.drain s.destructBodies s.destructShapes s.destructJoints :: s.stack.tail)
    rw [htail]
    exact .drain _ _ _
  · intro o ho hvalid
    rcases hs.marked o ho hvalid with hdue | ⟨-, hlisted⟩ | ⟨bodies, shapes, joints, hmem, -⟩
    · exact .inl hdue
    · refine .inr (.inr ⟨_, _, _, List.mem_cons_self, .inl ?_⟩)
      cases o <;> exact hlisted
    · rw [hstack] at hmem
      cases List.mem_singleton.mp hmem

/-! ### The loops of an update -/

theorem Safe.drained (hs : Safe none s) (halive : s.alive = true)
    (bodies' shapes' joints' : List Nat) {o : Obj}
    (hstack : s.stack = .drain bodies shapes joints :: t)
    (hleft : ∀ o', Left bodies shapes joints o' → o' = o ∨ Left bodies' shapes' joints' o') :
    Safe (some o) (s.replace (.drain bodies' shapes' joints')) ∧
      Tower (s.replace (.drain bodies' shapes' joints'))
        (s.replace (.drain bodies' shapes' joints')).stack := by
  obtain ⟨hlocked, rfl⟩ := hs.calls.top hstack
  have hstack' : (s.replace (.drain bodies' shapes' joints')).stack =
      [.drain bodies' shapes' joints'] := by
    show _ :: s.stack.tail = _
    rw [hstack]
    rfl
  have htower : Tower (s.replace (.drain bodies' shapes' joints'))
      (s.replace (.drain bodies' shapes' joints')).stack := by
    rw [hstack']
    exact .drain _ _ _
  refine ⟨hs.withCalls s.locked halive hs.contacts
    (.tower hlocked htower) ?_ fun _ => rfl, htower⟩
  intro o' ho' hvalid
  rcases hs.marked o' ho' hvalid with hdue | ⟨hl, -⟩ | ⟨bs, fs, js, hmem, hin⟩
  · cases hdue
  · rw [hlocked] at hl
    cases hl
  · rw [hstack] at hmem hin
    cases List.mem_singleton.mp hmem
    rcases hin with hin | hany
    · rcases hleft o' hin with rfl | hin
      · exact .inl rfl
      · exact .inr (.inr ⟨_, _, _, List.mem_cons_self, .inl hin⟩)
    · cases hany

theorem Safe.settled {o : Obj} (hs : Safe (some o) s) (h : o ∈ s.valid → Pending s o) :
    Safe none s where
  fault := hs.fault
  counted := hs.counted
  attached := hs.attached
  logged := hs.logged
  contacts := hs.contacts
  calls := hs.calls
  marked o' ho' hvalid := by
    rcases hs.marked o' ho' hvalid with hdue | hpending
    · cases hdue
      exact .inr (h hvalid)
    · exact .inr hpending
  marked_created := hs.marked_created
  world := hs.world
  dead := hs.dead

theorem hands_drain (bodies shapes joints : List Nat) : hands [.drain bodies shapes joints] = [] := rfl

theorem bodyOf_isSome {s : World} (hc : Counted s) (ha : Attached s) {f : Nat}
    (hvalid : .shape f ∈ s.valid) : ∃ b, s.bodyOf (.shape f) = some b := by
  obtain ⟨x, hx, hobj⟩ := hc.exists_of_valid hvalid
  have hkind := ha.kind x hx
  rw [B2Object.Kind, hobj] at hkind
  obtain ⟨b, hb⟩ := hkind
  refine ⟨b, ?_⟩
  rw [bodyOf, Option.bind_eq_some_iff]
  obtain ⟨y, hfind⟩ : ∃ y, s.objects.find? (·.obj = .shape f) = some y :=
    Option.isSome_iff_exists.mp (List.find?_isSome.mpr ⟨x, hx, by simp [hobj]⟩)
  have hy : y.obj = .shape f := by simpa using List.find?_some hfind
  refine ⟨y, hfind, ?_⟩
  rw [hc.eq_of_obj (List.mem_of_find?_eq_some hfind) hx (hy.trans hobj.symm), hb]
  rfl

theorem Safe.drainNext (hs : Safe none s) (halive : s.alive = true)
    (hstack : s.stack = .drain bodies shapes joints :: t) :
    Safe none (s.drainNext bodies shapes joints) := by
  obtain ⟨hlocked, ht⟩ := hs.calls.top hstack
  have htail : s.stack.tail = [] := by
    rw [hstack, ht]
    rfl
  have hunlocked : ∀ f, ¬ (s.replace f).locked = true := by
    intro f
    show ¬ s.locked = true
    rw [hlocked]
    decide
  cases bodies with
  | cons b bodies =>
    rw [World.drainNext]
    obtain ⟨hs', htower⟩ := hs.drained halive bodies shapes joints hstack fun o' ho' => by
        cases o' with
        | body b' => exact (List.mem_cons.mp ho').imp (congrArg Obj.body) id
        | shape f | joint j => exact .inr ho'
    split_ifs with hvalid
    · have hapart : Apart (s.replace (.drain bodies shapes joints)) (.body b) := by
        intro c _ _
        show c.id ∉ hands (.drain bodies shapes joints :: s.stack.tail)
        rw [htail, hands_drain]
        exact List.not_mem_nil
      refine (hs'.destroyBody hvalid fun _ => ⟨htower, hapart⟩).settled fun _ => ?_
      rw [World.destroyBody, if_neg (hunlocked _)]
      refine .inr ⟨bodies, shapes, joints, ?_, .inr ?_⟩
      · refine List.mem_cons_of_mem _ ?_
        rw [(dropAll_same _ _).stack]
        exact List.mem_cons_self
      · simp [push, destroys]
    · exact hs'.settled fun h => absurd h hvalid
  | nil =>
  cases shapes with
  | cons f shapes =>
    rw [World.drainNext]
    obtain ⟨hs', htower⟩ := hs.drained halive [] shapes joints hstack fun o' ho' => by
        cases o' with
        | body b => exact .inr ho'
        | shape f' => exact (List.mem_cons.mp ho').imp (congrArg Obj.shape) id
        | joint j => exact .inr ho'
    have hapart : Apart (s.replace (.drain [] shapes joints)) (.shape f) := by
      intro c _ _
      show c.id ∉ hands (.drain [] shapes joints :: s.stack.tail)
      rw [htail, hands_drain]
      exact List.not_mem_nil
    have hnone : (s.replace (.drain [] shapes joints)).stack.any (destroys (.shape f)) =
        false := by
      show (drain [] shapes joints :: s.stack.tail).any _ = false
      rw [htail]
      rfl
    by_cases hvalid : .shape f ∈ (s.replace (.drain [] shapes joints)).valid
    · obtain ⟨b, hb⟩ := bodyOf_isSome hs'.counted hs'.attached hvalid
      have hdestroy : (s.replace (.drain [] shapes joints)).destroyShape f =
          some ((s.replace (.drain [] shapes joints)).push (.destroying (.shape f) b none
            ((s.replace (.drain [] shapes joints)).firstContact b))) := by
        rw [World.destroyShape, if_neg (not_not.mpr hvalid),
          if_neg (hunlocked _), hb]
        dsimp only
        rw [hnone, if_neg (by decide)]
      rw [hdestroy]
      refine (hs'.destroyShape hdestroy fun _ _ => ⟨htower, hapart⟩).settled fun _ => ?_
      refine .inr ⟨[], shapes, joints, List.mem_cons_of_mem _ List.mem_cons_self, .inr ?_⟩
      simp [push, destroys]
    · rw [World.destroyShape, if_pos hvalid]
      exact hs'.settled fun h => absurd h hvalid
  | nil =>
  cases joints with
  | cons j joints =>
    rw [World.drainNext]
    obtain ⟨hs', htower⟩ := hs.drained halive [] [] joints hstack fun o' ho' => by
        cases o' with
        | body b | shape f => exact .inr ho'
        | joint j' => exact (List.mem_cons.mp ho').imp (congrArg Obj.joint) id
    split_ifs with hvalid
    · refine (hs'.destroyJoint hvalid fun _ => htower).settled fun h => ?_
      rw [World.destroyJoint, if_neg (hunlocked _)] at h
      have hout := (List.mem_filter.mp h).2
      simp at hout
    · exact hs'.settled fun h => absurd h hvalid
  | nil =>
    rw [World.drainNext]
    have hgone : ∀ o ∈ s.marked, o ∉ s.valid := by
      intro o ho hvalid
      rcases hs.marked o ho hvalid with hdue | ⟨hl, -⟩ | ⟨bs, fs, js, hmem, hin⟩
      · cases hdue
      · rw [hlocked] at hl
        cases hl
      · rw [hstack, ht] at hmem hin
        cases List.mem_singleton.mp hmem
        rcases hin with hin | hany
        · cases o <;> cases hin
        · cases hany
    split_ifs with hworld
    · exact destroyWorld_safe halive hs.fault (hs.counted.congr rfl rfl rfl rfl)
        (hs.attached.congr rfl rfl) hs.logged hs.marked_created hlocked htail
    · refine ⟨hs.fault, hs.counted.congr rfl rfl rfl rfl, hs.attached.congr rfl rfl, hs.logged,
        hs.contacts, .tower hlocked ?_, fun o ho hvalid => absurd hvalid (hgone o ho),
        hs.marked_created, fun h => absurd h hworld, ?_⟩
      · show Tower _ s.stack.tail
        rw [htail]
        exact .nil
      · exact fun hdead => absurd (halive.symm.trans hdead) (by decide)

/-! ### Destructions -/

variable {s' : World} {current' next' : Option Nat}

/-- What is pending below a destruction in progress, or by this one. -/
theorem Pending.below {s : World} {o : Obj} (h : Pending s o) (hlocked : s.locked = false)
    (hstack : s.stack = .destroying target body current next :: t) :
    ∃ bodies shapes joints, .drain bodies shapes joints ∈ t ∧ (Left bodies shapes joints o ∨
      (Frame.destroying target body current next :: t).any (Frame.destroys o) = true) := by
  rcases h with ⟨hl, -⟩ | ⟨bodies, shapes, joints, hmem, hin⟩
  · cases hlocked.symm.trans hl
  · rw [hstack] at hmem hin
    exact ⟨bodies, shapes, joints, (List.mem_cons.mp hmem).resolve_left nofun, hin⟩

theorem Pending.destroying {s : World} {body' : Nat} {t t' : List Frame} {o : Obj} (h : Pending s o)
    (hlocked : s.locked = false) (hstack : s.stack = .destroying target body current next :: t)
    (hstack' : s'.stack = t' ++ .destroying target body' current' next' :: t) : Pending s' o := by
  obtain ⟨bodies, shapes, joints, hmem, hin⟩ := h.below hlocked hstack
  refine .inr ⟨bodies, shapes, joints, ?_, hin.imp_right fun hany => ?_⟩
  · rw [hstack']
    exact List.mem_append_right _ (List.mem_cons_of_mem _ hmem)
  · rw [hstack', List.any_append, Bool.or_eq_true]
    exact .inr hany

theorem Pending.destroyed {s : World} {t : List Frame} {o : Obj} (h : Pending s o)
    (hlocked : s.locked = false) (hstack : s.stack = .destroying target body current next :: t)
    (hstack' : s'.stack = t) (hne : o ≠ target) : Pending s' o := by
  obtain ⟨bodies, shapes, joints, hmem, hin⟩ := h.below hlocked hstack
  refine .inr ⟨bodies, shapes, joints, hstack' ▸ hmem, hin.imp_right fun hany => ?_⟩
  rw [List.any_cons, Bool.or_eq_true] at hany
  rw [hstack']
  exact hany.resolve_left fun htarget => hne (of_decide_eq_true htarget).symm

theorem Safe.continued (hs : Safe none s) (halive : s.alive = true)
    (hstack : s.stack = .destroying target body current next :: t) (t' : List Frame)
    (hcontacts : (contacts.map B2Contact.id).Nodup)
    (hcalls : Calls { s with stack := t' ++ .destroying target body current' next' :: t, contacts := contacts })
    (ht' : t'.any inUpdate = false) :
    Safe none { s with
      stack := t' ++ .destroying target body current' next' :: t, contacts := contacts } := by
  obtain ⟨hlocked, -, -⟩ := hs.calls.top hstack
  refine hs.withCalls s.locked halive hcontacts hcalls ?_ fun hworld => ?_
  · intro o ho hvalid
    exact (hs.marked o ho hvalid).imp_right fun hpending =>
      hpending.destroying hlocked hstack rfl
  · have hupdate := (hs.world hworld).resolve_left (by rw [halive]; decide)
    rw [hstack, List.any_cons] at hupdate
    rw [List.any_append, ht', List.any_cons]
    exact hupdate

/-- **A body or a fixture goes**, when its contacts have ended. -/
theorem Safe.finished (hs : Safe none s) (halive : s.alive = true)
    (hstack : s.stack = .destroying target body none none :: t) {os : List Obj} (hnodup : os.Nodup)
    (hvalid : ∀ o ∈ os, o ∈ s.valid) (htarget : target ∈ os)
    (hattached : Attached (World.dropAll os s.pop))
    (htower : Tower (World.dropAll os s.pop) t) : Safe none (World.dropAll os s.pop) := by
  obtain ⟨hlocked, -, ht⟩ := hs.calls.top hstack
  have hsame := dropAll_same os s.pop
  have htail : s.pop.stack = t := by
    show s.stack.tail = t
    rw [hstack]
    rfl
  have hstack' := hsame.stack.trans htail
  have hcounted : Counted s.pop := hs.counted.congr rfl rfl rfl rfl
  have hlogged : Logged s.pop := hs.logged
  refine ⟨hsame.fault.trans hs.fault, hcounted.dropAll hnodup hvalid, hattached,
    hlogged.dropAll os (by rw [htail]; exact ht.not_inStep), hsame.contacts.symm ▸ hs.contacts,
    .tower (hsame.locked.trans hlocked) (hstack'.symm ▸ htower), ?_, ?_, ?_, ?_⟩
  · intro o ho hvalid'
    rw [hsame.marked] at ho
    obtain ⟨hin, hout⟩ := mem_dropAll_valid.mp hvalid'
    refine (hs.marked o ho hin).imp_right fun hpending =>
      hpending.destroyed hlocked hstack hstack' fun heq => hout (heq ▸ htarget)
  · rw [hsame.marked, hsame.created]
    exact hs.marked_created
  · intro hworld
    rw [hsame.destructWorld] at hworld
    have hupdate := (hs.world hworld).resolve_left (by rw [halive]; decide)
    rw [hstack, List.any_cons] at hupdate
    rw [hstack']
    exact .inr hupdate
  · exact fun hdead => absurd (halive.symm.trans (hsame.alive.symm.trans hdead)) (by decide)

/-- **The end of a destruction.** -/
theorem Safe.finish (hs : Safe none s) (halive : s.alive = true)
    (hstack : s.stack = .destroying target body none none :: t) (notify : Bool) :
    Safe none (s.endContacts notify target body none none) := by
  obtain ⟨-, hok, ht⟩ := hs.calls.top hstack
  have hcounted : Counted s.pop := hs.counted.congr rfl rfl rfl rfl
  have hattached : Attached s.pop := hs.attached.congr rfl rfl
  have htower : Tower s.pop t := ht.mono (keeps_of_same t rfl rfl rfl)
  rcases hok.target_in with ⟨rfl, hvalid⟩ | ⟨f, rfl, hobject⟩
  · obtain ⟨hnodup, hshapes⟩ := hcounted.shapesOf body
    have hall := hnodup.concat (body_not_mem_shapesOf s.pop body body)
    rw [List.concat_eq_append] at hall
    have hattached' := hattached.dropBody (hok.joint_free body rfl)
    have htower' := htower.dropBody hcounted hok.own
    rw [endContacts]
    rw [dropBody_eq] at hattached' htower' ⊢
    refine hs.finished halive hstack hall ?_ (List.mem_append_right _ (List.mem_singleton_self _))
      hattached' htower'
    intro o ho
    rcases List.mem_append.mp ho with ho | ho
    · exact hshapes o ho
    · rw [List.mem_singleton.mp ho]
      exact hvalid
  · show Safe none (s.pop.drop (.shape f))
    refine hs.finished halive hstack (List.nodup_singleton (Obj.shape f)) ?_
      (List.mem_singleton_self _) (hattached.dropAll fun b hb => ?_) (htower.dropShape hok.own)
    · intro o ho
      rw [List.mem_singleton.mp ho]
      exact hs.counted.valid_of_mem hobject
    · cases List.mem_singleton.mp hb

theorem removeContact_nodup (h : (s.contacts.map B2Contact.id).Nodup) (c : Nat) :
    ((s.removeContact c).contacts.map B2Contact.id).Nodup :=
  h.sublist (List.Sublist.map _ List.filter_sublist)

theorem FrameOk.removed {target : Obj} {body c : Nat} {current next : Option Nat}
    (h : FrameOk s target body current next t)
    (hc : ∃ x ∈ s.contacts, x.id = c ∧ x.involves target = true) {next' : Option Nat}
    (hnext : ∀ c', next' = some c' →
      c' ≠ c ∧ ∃ x ∈ s.contacts, x.id = c' ∧ x.involves (.body body) = true) :
    c ∉ hands t ∧ FrameOk (s.removeContact c) target body none next' t := by
  obtain ⟨x, hx, rfl, hinvolves⟩ := hc
  refine ⟨h.own x hx hinvolves, h.target_in, h.joint_free,
    fun c hc => absurd hc.symm (Option.some_ne_none c), ?_, ?_⟩
  · intro c' hc'
    obtain ⟨hne, y, hy, hid, hbody⟩ := hnext c' hc'
    refine ⟨(Option.some_ne_none c').symm, y,
      List.mem_filter.mpr ⟨hy, decide_eq_true fun heq => hne ?_⟩, hid, hbody⟩
    exact hid.symm.trans heq
  · intro y hy
    exact h.own y (List.mem_of_mem_filter hy)

theorem Safe.endContacts (hs : Safe none s) (halive : s.alive = true)
    (hstack : s.stack = .destroying target body current next :: t)
    (notify : Bool) : Safe none (s.endContacts notify target body current next) := by
  obtain ⟨hlocked, hok, ht⟩ := hs.calls.top hstack
  have htail : s.stack.tail = t := by
    rw [hstack]
    rfl
  -- A contact goes, and the loop goes on with the next one.
  have hremoved : ∀ c next', (∃ x ∈ s.contacts, x.id = c ∧ x.involves target = true) →
      (∀ c', next' = some c' →
        c' ≠ c ∧ ∃ x ∈ s.contacts, x.id = c' ∧ x.involves (.body body) = true) →
      Safe none ((s.removeContact c).replace (.destroying target body none next')) := by
    intro c next' hc hnext
    obtain ⟨hout, hok'⟩ := hok.removed hc hnext
    rw [replace, show (s.removeContact c).stack.tail = t from htail]
    refine hs.continued halive hstack [] (removeContact_nodup hs.contacts c) ?_ rfl
    refine .destroying hlocked rfl (hok'.mono (keeps_of_same _ rfl rfl rfl)) ?_
    exact (ht.mono (keeps_removeContact hout)).mono (keeps_of_same t rfl rfl rfl)
  cases current with
  | some c =>
    obtain ⟨x, hx, hid, hinvolves, -⟩ := hok.current_in c rfl
    rw [World.endContacts]
    rw [if_pos (hid ▸ List.mem_map_of_mem hx)]
    refine hremoved c next ⟨x, hx, hid, hinvolves⟩ fun c' hc' => ?_
    obtain ⟨hne, hin⟩ := hok.next_in c' hc'
    exact ⟨fun heq => hne (congrArg some heq.symm), hin⟩
  | none =>
    cases next with
    | none => exact hs.finish halive hstack notify
    | some c =>
      obtain ⟨-, x, hx, hid, hbody⟩ := hok.next_in c rfl
      obtain ⟨y, hfind⟩ : ∃ y, s.contacts.find? (·.id = c) = some y :=
        Option.isSome_iff_exists.mp (List.find?_isSome.mpr ⟨x, hx, decide_eq_true hid⟩)
      have hy := List.mem_of_find?_eq_some hfind
      have hyid : y.id = c := by simpa using List.find?_some hfind
      have hyx : y = x := List.inj_on_of_nodup_map hs.contacts hy hx (hyid.trans hid.symm)
      subst hyx
      have hnext : ∀ c', s.nextContact body c = some c' →
          c' ≠ c ∧ ∃ x ∈ s.contacts, x.id = c' ∧ x.involves (.body body) = true :=
        fun c' => nextContact_spec hs.contacts
      rw [World.endContacts]
      rw [hfind]
      dsimp only
      by_cases hinvolves : y.involves target = false
      · -- A contact of another fixture of the body.
        rw [if_pos hinvolves, replace, htail]
        refine hs.continued halive hstack [] hs.contacts ?_ rfl
        refine .destroying hlocked rfl ?_ (ht.mono (keeps_of_same t rfl rfl rfl))
        exact ⟨hok.target_in, hok.joint_free, fun c hc => absurd hc.symm (Option.some_ne_none c),
          fun c' hc' => ⟨(Option.some_ne_none c').symm, (hnext c' hc').2⟩, hok.own⟩
      rw [if_neg hinvolves]
      have hinvolves := (Bool.not_eq_false _).mp hinvolves
      split
      · rw [push, replace, htail]
        refine hs.continued halive hstack [.callback] hs.contacts ?_ rfl
        refine .tower hlocked (.callback ?_ (ht.mono (keeps_of_same t rfl rfl rfl)))
        refine ⟨hok.target_in, hok.joint_free, ?_, ?_, hok.own⟩
        · intro c' hc'
          cases hc'
          exact ⟨y, hy, hyid, hinvolves, hbody⟩
        · intro c' hc'
          obtain ⟨hne, hin⟩ := hnext c' hc'
          exact ⟨fun heq => hne (Option.some.inj heq).symm, hin⟩
      · exact hremoved c _ ⟨y, hy, hyid, hinvolves⟩ hnext

theorem Safe.box2dStep {op : WorldOp} (hs : Safe none s) (halive : s.alive = true)
    (h : box2dStep s op = some s') : Safe none s' := by
  cases op with
  | filter =>
    rw [Physics.box2dStep] at h
    split at h
    · next t hstack =>
        cases h
        obtain ⟨hlocked, rfl⟩ := hs.calls.top hstack
        exact hs.preStep halive hstack s.locked hs.contacts
          (.preStepCallback hlocked (congrArg _ hstack)) (hstack ▸ rfl)
    · next t hstack =>
        cases h
        obtain ⟨hlocked, rfl⟩ := hs.calls.top hstack
        exact hs.step halive hstack hs.contacts (.stepCallback hlocked (congrArg _ hstack))
          (hstack ▸ rfl)
    · cases h
  | lock =>
    rw [Physics.box2dStep] at h
    split at h
    · next t hstack =>
        cases h
        obtain ⟨hlocked, rfl⟩ := hs.calls.top hstack
        refine hs.preStep halive hstack true hs.contacts ?_ rfl
        refine .step rfl ?_
        show .step :: s.stack.tail = _
        rw [hstack]
        rfl
    · cases h
  | contact =>
    rw [Physics.box2dStep] at h
    split at h
    · next t hstack =>
        cases h
        obtain ⟨hlocked, rfl⟩ := hs.calls.top hstack
        exact hs.step halive hstack hs.contacts (.stepCallback hlocked (congrArg _ hstack))
          (hstack ▸ rfl)
    · cases h
  | collide contacts =>
    rw [Physics.box2dStep] at h
    split at h
    · next t hstack =>
        split_ifs at h with hnodup
        cases h
        obtain ⟨hlocked, rfl⟩ := hs.calls.top hstack
        refine hs.preStep halive hstack s.locked hnodup (.preStep hlocked hstack) ?_
        rw [hstack]
        rfl
    · next t hstack =>
        split_ifs at h with hnodup
        cases h
        obtain ⟨hlocked, rfl⟩ := hs.calls.top hstack
        refine hs.step halive hstack hnodup (.step hlocked hstack) ?_
        rw [hstack]
        rfl
    · cases h
  | unlock =>
    rw [Physics.box2dStep] at h
    split at h
    · next t hstack =>
        cases h
        exact hs.unlock halive hstack
    · cases h
  | next notify =>
    rw [Physics.box2dStep] at h
    split at h
    · next bodies shapes joints t hstack =>
        cases h
        exact hs.drainNext halive hstack
    · next target body current next t hstack =>
        cases h
        exact hs.endContacts halive hstack notify
    · cases h
  | newBody | newShape | newJoint | destroyBody | destroyShape | destroyJoint | destroyWorld
  | update | ret => cases h

end Box2D

/-! ## All runs -/

/-- **Any step** keeps the invariant. -/
theorem worldStep_safe {s : World} {op : WorldOp} (hs : Safe none s) (hkept : op.Kept s)
    (h : worldStep s op = some s') : Safe none s' := by
  rw [worldStep, if_neg (by rw [hs.fault]; decide)] at h
  split at h
  next huser =>
    exact hs.userStep huser hkept h
  next huser =>
    have halive : s.alive = true := by
      cases halive : s.alive with
      | true => rfl
      | false =>
        rw [userControl, (hs.dead halive).1] at huser
        exact absurd rfl huser
    rw [if_neg (by rw [halive]; decide)] at h
    exact hs.box2dStep halive h

/-- What is promised of destruction: nothing is destroyed while a step is in progress;
the reference that Box2D holds is released once, when the object is destroyed; where
no update is in progress, all that was marked is destroyed; and Box2D goes on with
nothing that is not there anymore. -/
structure DestructionSafe (s : World) : Prop where
  not_in_step : ∀ o inStep, (o, inStep) ∈ s.destroyed → inStep = false
  released_once : ∀ o ∈ s.created,
    (o ∈ s.objects.map B2Object.obj ∧ s.released.count o = 0) ∨
      (o ∉ s.objects.map B2Object.obj ∧ s.released.count o = 1)
  after_update : s.stack.any Frame.inUpdate = false →
    (∀ o ∈ s.marked, o ∉ s.objects.map B2Object.obj) ∧ (s.destructWorld = true → s.alive = false)
  intact : s.fault = false

theorem Safe.destructionSafe {s : World} (hs : Safe none s) : DestructionSafe s where
  not_in_step o inStep hmem := hs.logged (o, inStep) hmem
  released_once o ho := by
    rw [← hs.counted.valid_iff]
    by_cases hvalid : o ∈ s.valid
    · exact .inl ⟨hvalid, hs.counted.held o (.inr hvalid)⟩
    · exact .inr ⟨hvalid, hs.counted.released o ho hvalid⟩
  after_update hnone := by
    constructor
    · intro o ho hin
      have hvalid := (hs.counted.valid_iff o).mpr hin
      rcases hs.marked o ho hvalid with hdue | ⟨hlocked, -⟩ | ⟨bodies, shapes, joints, hmem, -⟩
      · cases hdue
      · cases hs.calls with
        | step _ h | stepCallback _ h => rw [h] at hnone; cases hnone
        | preStep hl _ | preStepCallback hl _ | tower hl _ | destroying hl =>
          rw [hlocked] at hl; cases hl
      · have hany : s.stack.any inUpdate = true := List.any_eq_true.mpr ⟨_, hmem, rfl⟩
        rw [hnone] at hany
        cases hany
    · intro hworld
      refine (hs.world hworld).resolve_right ?_
      rw [hnone]
      decide
  intact := hs.fault

/-- **Destruction**, in all runs of calls that leave alone what is in progress. -/
theorem destruction_safe {s : World} (h : (worlds.restrict fun s op => op.Kept s).Reachable s) :
    DestructionSafe s := by
  have hs : Safe none s := by
    refine h.invariant_restrict ?_ fun s op s' hs hkept hstep => worldStep_safe hs hkept hstep
    rintro s rfl
    refine ⟨rfl, ⟨List.nodup_nil, fun o => Iff.rfl, nofun, fun _ _ => rfl, nofun⟩, ⟨nofun, nofun⟩,
      nofun, List.nodup_nil, .tower rfl .nil, nofun, nofun, nofun, nofun⟩
  exact hs.destructionSafe

/-! ### Bodies that touch -/

def emptyWorld : World :=
  ⟨true, false, [], [], [], [], [], [], false, [], [], [], [], [], false⟩

/-- A body is destroyed by a procedure that is told of a contact; that takes place
after the step. -/
def destroyInContact : List WorldOp :=
  [.newBody 0, .update, .lock, .contact, .destroyBody 0, .ret, .unlock, .next false, .next false,
    .next false]

theorem destruction_safe_marked : ∃ s, System.run worldStep emptyWorld destroyInContact = some s ∧
    s.marked = [.body 0] ∧ s.released = [.body 0] ∧ DestructionSafe s := by
  have h₀ : (worlds.restrict fun s op => op.Kept s).Reachable emptyWorld := .init rfl
  have h₁ := h₀.restrict_step (.newBody 0) trivial rfl
  have h₂ := h₁.restrict_step .update (fun _ => rfl) rfl
  have h₃ := h₂.restrict_step .lock trivial rfl
  have h₄ := h₃.restrict_step .contact trivial rfl
  have h₅ := h₄.restrict_step (.destroyBody 0) (fun _ => nofun) rfl
  have h₆ := h₅.restrict_step .ret trivial rfl
  have h₇ := h₆.restrict_step .unlock trivial rfl
  have h₈ := h₇.restrict_step (.next false) trivial rfl
  have h₉ := h₈.restrict_step (.next false) trivial rfl
  exact ⟨_, rfl, rfl, rfl, destruction_safe (h₉.restrict_step (.next false) trivial rfl)⟩

/-- The procedure destroys a body and updates the world: the step within ends, and the
lock of both. -/
def updateInContact : List WorldOp :=
  [.newBody 0, .update, .lock, .contact, .destroyBody 0, .update, .lock, .unlock, .next false,
    .next false]

theorem not_always_safe : ¬ ∀ s, worlds.Reachable s → DestructionSafe s := by
  intro hall
  have hrun : System.run worldStep emptyWorld updateInContact =
      some ((System.run worldStep emptyWorld updateInContact).getD emptyWorld) := rfl
  have hsafe := hall _ (.of_run (.init rfl) hrun)
  have hstep := hsafe.not_in_step (.body 0) true (by decide +kernel)
  cases hstep

end Lhatove.Physics
