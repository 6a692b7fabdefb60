import Lhatove.Physics.World

/-!
# The objects of a world

- `Counted`: the pointers of the objects and the references of Box2D agree with
  what is in Box2D; `Attached`: the bodies of fixtures and joints are there;
- `dropAll_eq`: what goes from Box2D at once;
- `Counted.dropBody`, `Attached.dropBody`, `dropBodies_spec`: a body with what goes
  with it, and all bodies.
-/

namespace Lhatove.Physics

open World

/-! ## What agrees -/

/-- Pointers and references: an object that is in Box2D is valid and its reference
was not released; one that was made and is not in Box2D was released once. -/
structure Counted (s : World) : Prop where
  nodup : (s.objects.map B2Object.obj).Nodup
  valid_iff : ∀ o, o ∈ s.valid ↔ o ∈ s.objects.map B2Object.obj
  created : ∀ o ∈ s.valid, o ∈ s.created
  held : ∀ o, o ∉ s.created ∨ o ∈ s.valid → s.released.count o = 0
  released : ∀ o ∈ s.created, o ∉ s.valid → s.released.count o = 1

/-- What an object is attached to. -/
def B2Object.Kind (x : B2Object) : Prop :=
  match x.obj with
  | .body _ => x.bodies = []
  | .shape _ => ∃ b, x.bodies = [b]
  | .joint _ => x.bodies ≠ []

structure Attached (s : World) : Prop where
  kind : ∀ x ∈ s.objects, x.Kind
  bodies : ∀ x ∈ s.objects, ∀ b ∈ x.bodies, .body b ∈ s.valid

variable {s s' : World}

theorem Counted.congr (hs : Counted s) (hobjects : s'.objects = s.objects)
    (hvalid : s'.valid = s.valid) (hcreated : s'.created = s.created)
    (hreleased : s'.released = s.released) : Counted s' := by
  constructor
  · rw [hobjects]
    exact hs.nodup
  · rw [hobjects, hvalid]
    exact hs.valid_iff
  · rw [hvalid, hcreated]
    exact hs.created
  · rw [hvalid, hcreated, hreleased]
    exact hs.held
  · rw [hvalid, hcreated, hreleased]
    exact hs.released

theorem Attached.congr (hs : Attached s) (hobjects : s'.objects = s.objects)
    (hvalid : s'.valid = s.valid) : Attached s' := by
  constructor
  · rw [hobjects]
    exact hs.kind
  · rw [hobjects, hvalid]
    exact hs.bodies

variable {x : B2Object}

theorem Counted.valid_of_mem (hs : Counted s) (hx : x ∈ s.objects) : x.obj ∈ s.valid :=
  (hs.valid_iff _).mpr (List.mem_map_of_mem hx)

variable {o : Obj}

theorem Counted.exists_of_valid (hs : Counted s) (ho : o ∈ s.valid) : ∃ x ∈ s.objects, x.obj = o :=
  List.mem_map.mp ((hs.valid_iff o).mp ho)

theorem Counted.eq_of_obj (hs : Counted s) {y : B2Object} (hx : x ∈ s.objects) (hy : y ∈ s.objects)
    (h : x.obj = y.obj) : x = y :=
  List.inj_on_of_nodup_map hs.nodup hx hy h

/-! ## Objects that are made -/

theorem Counted.make (hs : Counted s) (bodies : List Nat)
    (hnew : o ∉ s.created) : Counted (s.make o bodies) := by
  have hinvalid : o ∉ s.valid := fun hvalid => hnew (hs.created o hvalid)
  refine ⟨?_, ?_, ?_, ?_, ?_⟩
  · exact List.nodup_cons.mpr ⟨fun hmem => hinvalid ((hs.valid_iff o).mpr hmem), hs.nodup⟩
  · intro o'
    show o' ∈ o :: s.valid ↔ o' ∈ o :: s.objects.map B2Object.obj
    rw [List.mem_cons, List.mem_cons, hs.valid_iff]
  · intro o' ho'
    rcases List.mem_cons.mp ho' with rfl | ho'
    · exact List.mem_cons_self
    · exact List.mem_cons_of_mem _ (hs.created o' ho')
  · rintro o' (hother | hvalid)
    · exact hs.held o' (.inl fun hmem => hother (List.mem_cons_of_mem _ hmem))
    · rcases List.mem_cons.mp hvalid with rfl | hvalid
      · exact hs.held o' (.inl hnew)
      · exact hs.held o' (.inr hvalid)
  · intro o' hcreated hgone
    rcases List.mem_cons.mp hcreated with rfl | hcreated
    · exact absurd List.mem_cons_self hgone
    · exact hs.released o' hcreated fun hvalid => hgone (List.mem_cons_of_mem _ hvalid)

theorem Attached.make (hs : Attached s) {bodies : List Nat} (hkind : B2Object.Kind ⟨o, bodies⟩)
    (hbodies : ∀ b ∈ bodies, .body b ∈ s.valid) :
    Attached (s.make o bodies) := by
  constructor
  · intro x hx
    rcases List.mem_cons.mp hx with rfl | hx
    · exact hkind
    · exact hs.kind x hx
  · intro x hx b hb
    refine List.mem_cons_of_mem _ ?_
    rcases List.mem_cons.mp hx with rfl | hx
    · exact hbodies b hb
    · exact hs.bodies x hx b hb

/-! ## Objects that go -/

theorem dropAll_eq (os : List Obj) (s : World) : dropAll os s = { s with
    objects := s.objects.filter (·.obj ∉ os)
    valid := s.valid.filter (· ∉ os)
    released := os.reverse ++ s.released
    destroyed := (os.map fun o => (o, s.stack.any Frame.inStep)).reverse ++ s.destroyed } := by
  induction os generalizing s with
  | nil =>
    rw [dropAll]
    simp
  | cons o os ih =>
    rw [dropAll, ih]
    simp [drop, List.filter_filter, Bool.and_comm]

variable {os : List Obj}

theorem Counted.dropAll (hs : Counted s) (hnodup : os.Nodup)
    (hvalid : ∀ o ∈ os, o ∈ s.valid) : Counted (dropAll os s) := by
  rw [dropAll_eq]
  have hmem : ∀ o, o ∈ s.valid.filter (· ∉ os) ↔ o ∈ s.valid ∧ o ∉ os := by
    intro o
    rw [List.mem_filter, decide_eq_true_iff]
  refine ⟨?_, ?_, ?_, ?_, ?_⟩
  · exact hs.nodup.sublist (List.Sublist.map _ List.filter_sublist)
  · intro o
    rw [hmem, hs.valid_iff]
    simp only [List.mem_map, List.mem_filter, decide_eq_true_iff]
    constructor
    · rintro ⟨⟨x, hx, rfl⟩, hout⟩
      exact ⟨x, ⟨hx, hout⟩, rfl⟩
    · rintro ⟨x, ⟨hx, hout⟩, rfl⟩
      exact ⟨⟨x, hx, rfl⟩, hout⟩
  · intro o ho
    exact hs.created o ((hmem o).mp ho).1
  · intro o ho
    have hout : o ∉ os := by
      rcases ho with hnew | ho
      · exact fun hin => hnew (hs.created o (hvalid o hin))
      · exact ((hmem o).mp ho).2
    rw [List.count_append, List.count_reverse, List.count_eq_zero_of_not_mem hout, zero_add]
    exact hs.held o (ho.imp_right fun ho => ((hmem o).mp ho).1)
  · intro o hcreated hgone
    rw [List.count_append, List.count_reverse]
    by_cases hin : o ∈ os
    · rw [List.count_eq_one_of_mem hnodup hin, hs.held o (.inr (hvalid o hin))]
    · rw [List.count_eq_zero_of_not_mem hin, zero_add]
      exact hs.released o hcreated fun hvalid' => hgone ((hmem o).mpr ⟨hvalid', hin⟩)

/-- What goes leaves the others attached, if no bodies are among it. -/
theorem Attached.dropAll (hs : Attached s)
    (hbodies : ∀ b, .body b ∉ os) : Attached (dropAll os s) := by
  rw [dropAll_eq]
  constructor
  · intro x hx
    exact hs.kind x (List.mem_of_mem_filter hx)
  · intro x hx b hb
    refine List.mem_filter.mpr ⟨hs.bodies x (List.mem_of_mem_filter hx) b hb, ?_⟩
    exact decide_eq_true (hbodies b)

/-! ### Bodies -/

variable {b : Nat}

theorem mem_jointsOf :
    o ∈ s.jointsOf b ↔ ∃ x ∈ s.objects, x.isJoint = true ∧ b ∈ x.bodies ∧ x.obj = o := by
  simp [jointsOf, and_assoc]

theorem mem_shapesOf :
    o ∈ s.shapesOf b ↔ ∃ x ∈ s.objects, x.isShape = true ∧ b ∈ x.bodies ∧ x.obj = o := by
  simp [shapesOf, and_assoc]

theorem Counted.jointsOf (hs : Counted s) (b : Nat) :
    (s.jointsOf b).Nodup ∧ ∀ o ∈ s.jointsOf b, o ∈ s.valid := by
  constructor
  · exact hs.nodup.sublist (List.Sublist.map _ List.filter_sublist)
  · intro o ho
    obtain ⟨x, hx, -, -, rfl⟩ := mem_jointsOf.mp ho
    exact hs.valid_of_mem hx

theorem Counted.shapesOf (hs : Counted s) (b : Nat) :
    (s.shapesOf b).Nodup ∧ ∀ o ∈ s.shapesOf b, o ∈ s.valid := by
  constructor
  · exact hs.nodup.sublist (List.Sublist.map _ List.filter_sublist)
  · intro o ho
    obtain ⟨x, hx, -, -, rfl⟩ := mem_shapesOf.mp ho
    exact hs.valid_of_mem hx

theorem body_not_mem_jointsOf (s : World) (b b' : Nat) : .body b' ∉ s.jointsOf b := by
  intro hmem
  obtain ⟨x, -, hjoint, -, hobj⟩ := mem_jointsOf.mp hmem
  rw [B2Object.isJoint, hobj] at hjoint
  cases hjoint

theorem body_not_mem_shapesOf (s : World) (b b' : Nat) : .body b' ∉ s.shapesOf b := by
  intro hmem
  obtain ⟨x, -, hshape, -, hobj⟩ := mem_shapesOf.mp hmem
  rw [B2Object.isShape, hobj] at hshape
  cases hshape

theorem dropBody_eq (b : Nat) (s : World) :
    s.dropBody b = dropAll (s.shapesOf b ++ [.body b]) s := by
  rw [dropBody]
  generalize s.shapesOf b = os
  induction os generalizing s with
  | nil => rfl
  | cons o os ih => exact ih (s.drop o)

theorem Counted.dropBody (hs : Counted s) (hvalid : .body b ∈ s.valid) :
    Counted (s.dropBody b) := by
  obtain ⟨hnodup, hshapes⟩ := hs.shapesOf b
  rw [dropBody_eq]
  have hall := hnodup.concat (body_not_mem_shapesOf s b b)
  rw [List.concat_eq_append] at hall
  refine hs.dropAll hall fun o ho => ?_
  rcases List.mem_append.mp ho with ho | ho
  · exact hshapes o ho
  · rw [List.mem_singleton.mp ho]
    exact hvalid

theorem Attached.dropBody (hs : Attached s)
    (hjoints : ∀ x ∈ s.objects, x.isJoint = true → b ∉ x.bodies) : Attached (s.dropBody b) := by
  rw [dropBody_eq, dropAll_eq]
  constructor
  · intro x hx
    exact hs.kind x (List.mem_of_mem_filter hx)
  · intro x hx b' hb'
    have hin : x ∈ s.objects := List.mem_of_mem_filter hx
    have hout := of_decide_eq_true (List.mem_filter.mp hx).2
    refine List.mem_filter.mpr ⟨hs.bodies x hin b' hb', decide_eq_true fun hmem => hout ?_⟩
    have hne : b' = b := by
      rcases List.mem_append.mp hmem with hmem | hmem
      · exact absurd hmem (body_not_mem_shapesOf s b b')
      · exact Obj.body.inj (List.mem_singleton.mp hmem)
    subst hne
    refine List.mem_append_left _ (mem_shapesOf.mpr ⟨x, hin, ?_, hb', rfl⟩)
    -- Only fixtures are left to be attached to the body.
    have hkind := hs.kind x hin
    have hjoint := hjoints x hin
    rw [B2Object.Kind] at hkind
    rw [B2Object.isJoint] at hjoint
    rw [B2Object.isShape]
    cases hobj : x.obj with
    | body b =>
      rw [hobj] at hkind
      rw [hkind] at hb'
      cases hb'
    | shape f => rfl
    | joint j =>
      rw [hobj] at hjoint
      exact absurd hb' (hjoint rfl)

theorem mem_dropAll_valid : o ∈ (dropAll os s).valid ↔ o ∈ s.valid ∧ o ∉ os := by
  rw [dropAll_eq]
  exact List.mem_filter.trans (by rw [decide_eq_true_iff])

theorem mem_dropAll_objects : x ∈ (dropAll os s).objects ↔ x ∈ s.objects ∧ x.obj ∉ os := by
  rw [dropAll_eq]
  exact List.mem_filter.trans (by rw [decide_eq_true_iff])

theorem not_mem_bodies_of_dropAll_jointsOf (hx : x ∈ (dropAll (s.jointsOf b) s).objects)
    (hjoint : x.isJoint = true) : b ∉ x.bodies := by
  obtain ⟨hin, hout⟩ := mem_dropAll_objects.mp hx
  exact fun hb => hout (mem_jointsOf.mpr ⟨x, hin, hjoint, hb, rfl⟩)

/-! ### All bodies -/

/-- The bodies that are there are those of a list. -/
def BodiesAre (bs : List Nat) (s : World) : Prop := ∀ b, .body b ∈ s.valid ↔ b ∈ bs

theorem bodiesAre_bodyIds (hs : Counted s) : BodiesAre s.bodyIds s := by
  intro b
  rw [hs.valid_iff, bodyIds, List.mem_map, List.mem_filterMap]
  refine exists_congr fun x => and_congr_right fun _ => ?_
  cases x.obj <;> simp

theorem bodyIds_nodup (hs : Counted s) : s.bodyIds.Nodup := by
  have hapart := List.pairwise_map.mp hs.nodup
  rw [bodyIds, List.Nodup, List.pairwise_filterMap]
  refine hapart.imp fun {x y} hne b hb b' hb' => ?_
  rintro rfl
  obtain ⟨o, _⟩ := x
  obtain ⟨o', _⟩ := y
  cases o <;> cases o' <;> simp_all

theorem dropBody_spec (hs : Counted s) (ha : Attached s) {bs : List Nat} (hnodup : (b :: bs).Nodup)
    (hbodies : BodiesAre (b :: bs) s) :
    Counted (dropBody b (dropAll (s.jointsOf b) s)) ∧
    Attached (dropBody b (dropAll (s.jointsOf b) s)) ∧
    BodiesAre bs (dropBody b (dropAll (s.jointsOf b) s)) := by
  obtain ⟨hjoints, hvalid⟩ := hs.jointsOf b
  have hs' := hs.dropAll hjoints hvalid
  have hb : .body b ∈ (dropAll (s.jointsOf b) s).valid :=
    mem_dropAll_valid.mpr ⟨(hbodies b).mpr List.mem_cons_self, body_not_mem_jointsOf s b b⟩
  refine ⟨hs'.dropBody hb, ?_, fun b' => ?_⟩
  · exact (ha.dropAll (body_not_mem_jointsOf s b)).dropBody fun x hx hjoint =>
      not_mem_bodies_of_dropAll_jointsOf hx hjoint
  · rw [dropBody_eq, mem_dropAll_valid, mem_dropAll_valid, hbodies b', List.mem_cons,
      List.mem_append, List.mem_singleton]
    have hout := body_not_mem_jointsOf s b b'
    have hout' := body_not_mem_shapesOf (dropAll (s.jointsOf b) s) b b'
    constructor
    · rintro ⟨⟨rfl | hin, -⟩, hne⟩
      · exact absurd (.inr rfl) hne
      · exact hin
    · intro hin
      refine ⟨⟨.inr hin, hout⟩, ?_⟩
      rintro (hshape | hbody)
      · exact hout' hshape
      · rw [Obj.body.inj hbody] at hin
        exact (List.nodup_cons.mp hnodup).1 hin

/-- **With all bodies** everything goes. -/
theorem dropBodies_spec {bs : List Nat} (hs : Counted s) (ha : Attached s) (hnodup : bs.Nodup)
    (hbodies : BodiesAre bs s) :
    Counted (dropBodies bs s) ∧ (dropBodies bs s).objects = [] := by
  induction bs generalizing s with
  | nil =>
    refine ⟨hs, List.eq_nil_iff_forall_not_mem.mpr fun x hx => ?_⟩
    have hvalid := hs.valid_of_mem hx
    have hnone : ∀ b, b ∉ x.bodies := fun b hb =>
      List.not_mem_nil ((hbodies b).mp (ha.bodies x hx b hb))
    have hkind := ha.kind x hx
    rw [B2Object.Kind] at hkind
    cases hobj : x.obj with
    | body b =>
      rw [hobj] at hvalid
      exact List.not_mem_nil ((hbodies b).mp hvalid)
    | shape f =>
      rw [hobj] at hkind
      obtain ⟨b, hb⟩ := hkind
      exact hnone b (hb ▸ List.mem_singleton_self b)
    | joint j =>
      rw [hobj] at hkind
      exact hkind (List.eq_nil_iff_forall_not_mem.mpr hnone)
  | cons b bs ih =>
    obtain ⟨hs', ha', hbodies'⟩ := dropBody_spec hs ha hnodup hbodies
    exact ih hs' ha' (List.nodup_cons.mp hnodup).2 hbodies'

/-- What else is in a world stays as it is. -/
structure SameCalls (s s' : World) : Prop where
  alive : s'.alive = s.alive
  locked : s'.locked = s.locked
  contacts : s'.contacts = s.contacts
  destructBodies : s'.destructBodies = s.destructBodies
  destructShapes : s'.destructShapes = s.destructShapes
  destructJoints : s'.destructJoints = s.destructJoints
  destructWorld : s'.destructWorld = s.destructWorld
  stack : s'.stack = s.stack
  created : s'.created = s.created
  marked : s'.marked = s.marked
  fault : s'.fault = s.fault

theorem dropAll_same (os : List Obj) (s : World) : SameCalls s (dropAll os s) := by
  rw [dropAll_eq]
  exact ⟨rfl, rfl, rfl, rfl, rfl, rfl, rfl, rfl, rfl, rfl, rfl⟩

theorem SameCalls.trans {s'' : World} (h : SameCalls s s') (h' : SameCalls s' s'') :
    SameCalls s s'' :=
  ⟨h'.alive.trans h.alive, h'.locked.trans h.locked, h'.contacts.trans h.contacts,
    h'.destructBodies.trans h.destructBodies, h'.destructShapes.trans h.destructShapes,
    h'.destructJoints.trans h.destructJoints, h'.destructWorld.trans h.destructWorld,
    h'.stack.trans h.stack, h'.created.trans h.created, h'.marked.trans h.marked,
    h'.fault.trans h.fault⟩

theorem dropBodies_same (bs : List Nat) (s : World) : SameCalls s (dropBodies bs s) := by
  induction bs generalizing s with
  | nil => exact ⟨rfl, rfl, rfl, rfl, rfl, rfl, rfl, rfl, rfl, rfl, rfl⟩
  | cons b bs ih =>
    have hbody : SameCalls (dropAll (s.jointsOf b) s) (dropBody b (dropAll (s.jointsOf b) s)) := by
      rw [dropBody_eq]
      exact dropAll_same ..
    exact ((dropAll_same _ s).trans hbody).trans (ih _)

/-- Nothing is destroyed in a step, if none is in progress. -/
def Logged (s : World) : Prop := ∀ d ∈ s.destroyed, d.2 = false

theorem Logged.dropAll (hs : Logged s) (os : List Obj)
    (hstep : s.stack.any Frame.inStep = false) : Logged (dropAll os s) := by
  rw [dropAll_eq]
  intro d hd
  rcases List.mem_append.mp hd with hd | hd
  · obtain ⟨o, -, rfl⟩ := List.mem_map.mp (List.mem_reverse.mp hd)
    exact hstep
  · exact hs d hd

theorem Logged.dropBodies {bs : List Nat} (hs : Logged s)
    (hstep : s.stack.any Frame.inStep = false) : Logged (World.dropBodies bs s) := by
  induction bs generalizing s with
  | nil => exact hs
  | cons b bs ih =>
    have hsame := dropAll_same (s.jointsOf b) s
    have hstep' : (World.dropAll (s.jointsOf b) s).stack.any Frame.inStep = false :=
      hsame.stack.symm ▸ hstep
    have hlogged : Logged (dropBody b (.dropAll (s.jointsOf b) s)) := by
      rw [dropBody_eq]
      exact (hs.dropAll _ hstep).dropAll _ hstep'
    refine ih hlogged ?_
    rw [dropBody_eq, (dropAll_same _ _).stack]
    exact hstep'

end Lhatove.Physics
