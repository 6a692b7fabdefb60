import Lhatove.Physics.WorldObjects

/-!
# The calls in progress

- `FrameOk`: a destruction in progress; what it goes on with is there, and no
  call below it goes on with a contact that it ends;
- `Tower`: the calls where Box2D is not locked and a procedure or a loop of an
  update has control; `Calls`: all ways the calls may be nested;
- `Tower.mono`, `Tower.dropBody`, `Tower.dropShape`: changes that leave what is in
  hand.
-/

namespace Lhatove.Physics

open World List

/-! ## Destructions -/

/-- The contacts that calls go on with. -/
def hands (t : List Frame) : List Nat := t.flatMap Frame.hand

/-- What is destroyed is there, with the body whose contacts end. -/
def TargetIn (s : World) (target : Obj) (body : Nat) : Prop :=
  (target = .body body ∧ .body body ∈ s.valid) ∨
    ∃ f, target = .shape f ∧ ⟨.shape f, [body]⟩ ∈ s.objects

def JointFree (s : World) (target : Obj) : Prop :=
  ∀ b, target = .body b → ∀ x ∈ s.objects, x.isJoint = true → b ∉ x.bodies

structure FrameOk (s : World) (target : Obj) (body : Nat) (current next : Option Nat)
    (below : List Frame) : Prop where
  target_in : TargetIn s target body
  joint_free : JointFree s target
  current_in : ∀ c, current = some c →
    ∃ x ∈ s.contacts, x.id = c ∧ x.involves target = true ∧ x.involves (.body body) = true
  next_in : ∀ c, next = some c →
    current ≠ some c ∧ ∃ x ∈ s.contacts, x.id = c ∧ x.involves (.body body) = true
  own : ∀ x ∈ s.contacts, x.involves target = true → x.id ∉ hands below

/-- The calls in progress, where a procedure that Box2D called, a script, or a loop
of an update has control and Box2D is not locked. -/
inductive Tower (s : World) : List Frame → Prop
  | nil : Tower s []
  | drain (bodies shapes joints : List Nat) : Tower s [.drain bodies shapes joints]
  | callback {target : Obj} {body c : Nat} {next : Option Nat} {t : List Frame} :
    FrameOk s target body (some c) next t → Tower s t →
    Tower s (.callback :: .destroying target body (some c) next :: t)

variable {s : World} {t : List Frame} {target : Obj} {body : Nat} {current next : Option Nat}

theorem Tower.frames (h : Tower s t) (hmem : Frame.destroying target body current next ∈ t) :
    TargetIn s target body ∧ ∃ x ∈ s.contacts, x.id ∈ hands t ∧ x.involves target = true ∧
      x.involves (.body body) = true := by
  induction h with
  | nil => cases hmem
  | drain bodies shapes joints => cases mem_singleton.mp hmem
  | @callback target' body' c next' t hok ht ih =>
    rcases mem_cons.mp hmem with hmem | hmem
    · cases hmem
    rcases mem_cons.mp hmem with heq | hmem
    · cases heq
      obtain ⟨x, hx, hid, hinvolves⟩ := hok.current_in c rfl
      exact ⟨hok.target_in, x, hx, hid ▸ mem_cons_self, hinvolves⟩
    · obtain ⟨htarget, x, hx, hhand, hinvolves⟩ := ih hmem
      refine ⟨htarget, x, hx, ?_, hinvolves⟩
      exact mem_cons_of_mem _ (mem_append_right _ hhand)

/-- No step is in progress there, and nothing is left to be drained but at the bottom. -/
theorem Tower.not_inStep (h : Tower s t) : t.any Frame.inStep = false := by
  induction h with
  | nil | drain => rfl
  | callback _ _ ih => exact ih

/-! ## Changes that leave what is in hand -/

/-- What a change has to leave for the calls in progress. -/
structure Keeps (s s' : World) (t : List Frame) : Prop where
  contacts : ∀ x ∈ s.contacts, x.id ∈ hands t → x ∈ s'.contacts
  subset : ∀ x ∈ s'.contacts, x ∈ s.contacts
  target : ∀ target body current next, Frame.destroying target body current next ∈ t →
    TargetIn s target body → TargetIn s' target body
  joints : ∀ target body current next, Frame.destroying target body current next ∈ t →
    JointFree s target → JointFree s' target

variable {s' : World}

theorem FrameOk.mono {below : List Frame} (h : FrameOk s target body current next below)
    (hkeeps : Keeps s s' (.destroying target body current next :: below)) :
    FrameOk s' target body current next below := by
  have hhand : ∀ c ∈ current.toList ++ next.toList,
      c ∈ hands (.destroying target body current next :: below) :=
    fun c hc => mem_append_left _ hc
  refine ⟨?_, ?_, ?_, ?_, ?_⟩
  · exact hkeeps.target _ _ _ _ mem_cons_self h.target_in
  · exact hkeeps.joints _ _ _ _ mem_cons_self h.joint_free
  · intro c hc
    obtain ⟨x, hx, hid, hinvolves⟩ := h.current_in c hc
    refine ⟨x, hkeeps.contacts x hx (hhand _ ?_), hid, hinvolves⟩
    rw [hc, hid]
    exact mem_append_left _ (mem_singleton_self c)
  · intro c hc
    obtain ⟨hne, x, hx, hid, hinvolves⟩ := h.next_in c hc
    refine ⟨hne, x, hkeeps.contacts x hx (hhand _ ?_), hid, hinvolves⟩
    rw [hc, hid]
    exact mem_append_right _ (mem_singleton_self c)
  · intro x hx
    exact h.own x (hkeeps.subset x hx)

theorem Keeps.tail {f : Frame} (h : Keeps s s' (f :: t)) :
    Keeps s s' t where
  contacts x hx hhand := h.contacts x hx (mem_append_right _ hhand)
  subset := h.subset
  target _ _ _ _ hmem := h.target _ _ _ _ (mem_cons_of_mem _ hmem)
  joints _ _ _ _ hmem := h.joints _ _ _ _ (mem_cons_of_mem _ hmem)

theorem Tower.mono (h : Tower s t) (hkeeps : Keeps s s' t) : Tower s' t := by
  induction h with
  | nil => exact .nil
  | drain bodies shapes joints => exact .drain bodies shapes joints
  | callback hok _ ih => exact .callback (hok.mono hkeeps.tail) (ih hkeeps.tail.tail)

theorem keeps_of_same (t : List Frame) (hcontacts : s'.contacts = s.contacts)
    (hobjects : s'.objects = s.objects) (hvalid : s'.valid = s.valid) : Keeps s s' t where
  contacts _ hx _ := hcontacts.symm ▸ hx
  subset _ hx := hcontacts ▸ hx
  target _ _ _ _ _ h := by
    rw [TargetIn, hobjects, hvalid]
    exact h
  joints _ _ _ _ _ h := by
    rw [JointFree, hobjects]
    exact h

/-- An object is made that is not attached to a body that is being destroyed. -/
theorem keeps_make {s : World} {t : List Frame} {o : Obj} {bodies : List Nat}
    (hjoint : B2Object.isJoint ⟨o, bodies⟩ = true → ∀ b ∈ bodies,
      ∀ body current next, Frame.destroying (.body b) body current next ∉ t) :
    Keeps s (s.make o bodies) t where
  contacts _ hx _ := hx
  subset _ hx := hx
  target _ _ _ _ _ h :=
    h.imp (.imp_right (mem_cons_of_mem _))
      (.imp fun _ => .imp_right (mem_cons_of_mem _))
  joints _ body current next hmem h b hb x hx hxjoint hbody := by
    rcases mem_cons.mp hx with rfl | hx
    · exact hjoint hxjoint b hbody body current next (hb ▸ hmem)
    · exact h b hb x hx hxjoint hbody

theorem keeps_dropAll {os : List Obj}
    (hout : ∀ target body current next, Frame.destroying target body current next ∈ t →
      TargetIn s target body → target ∉ os) :
    Keeps s (dropAll os s) t where
  contacts _ hx _ := (dropAll_same os s).contacts.symm ▸ hx
  subset _ hx := (dropAll_same os s).contacts ▸ hx
  target target body current next hmem h := by
    have hne := hout target body current next hmem h
    rcases h with ⟨rfl, hvalid⟩ | ⟨f, rfl, hobject⟩
    · exact .inl ⟨rfl, mem_dropAll_valid.mpr ⟨hvalid, hne⟩⟩
    · exact .inr ⟨f, rfl, mem_dropAll_objects.mpr ⟨hobject, hne⟩⟩
  joints _ _ _ _ _ h b hb x hx := h b hb x (mem_dropAll_objects.mp hx).1

theorem keeps_removeContact {c : Nat} (hc : c ∉ hands t) :
    Keeps s (s.removeContact c) t where
  contacts x hx hhand :=
    mem_filter.mpr ⟨hx, decide_eq_true fun heq => hc (heq ▸ hhand)⟩
  subset _ hx := mem_of_mem_filter hx
  target _ _ _ _ _ h := h
  joints _ _ _ _ _ h := h

/-- **A body goes**, with its fixtures, under the calls that have none of its contacts
in hand. -/
theorem Tower.dropBody (h : Tower s t) (hs : Counted s) {b : Nat}
    (hown : ∀ x ∈ s.contacts, x.involves (.body b) = true → x.id ∉ hands t) :
    Tower (s.dropBody b) t := by
  rw [dropBody_eq]
  refine h.mono (keeps_dropAll fun target body current next hmem htarget hin => ?_)
  obtain ⟨-, x, hx, hhand, hinvolves, hbody⟩ := h.frames hmem
  rcases mem_append.mp hin with hin | hin
  · -- A fixture that is being destroyed, with a contact of the body in hand.
    obtain ⟨y, hy, -, hattached, hobj⟩ := mem_shapesOf.mp hin
    rcases htarget with ⟨rfl, -⟩ | ⟨f, rfl, hobject⟩
    · exact body_not_mem_shapesOf s b body hin
    · rw [hs.eq_of_obj hy hobject hobj, mem_singleton] at hattached
      subst hattached
      exact hown x hx hbody hhand
  · rw [mem_singleton.mp hin] at hinvolves
    exact hown x hx hinvolves hhand

/-- **A fixture goes**, under the calls that have none of its contacts in hand. -/
theorem Tower.dropShape (h : Tower s t) {f : Nat}
    (hown : ∀ x ∈ s.contacts, x.involves (.shape f) = true → x.id ∉ hands t) :
    Tower (s.drop (.shape f)) t := by
  show Tower (.dropAll [.shape f] s) t
  refine h.mono (keeps_dropAll fun target body current next hmem _ hin => ?_)
  obtain ⟨-, x, hx, hhand, hinvolves, -⟩ := h.frames hmem
  rw [mem_singleton.mp hin] at hinvolves
  exact hown x hx hinvolves hhand

/-! ## All calls -/

/-- How calls are nested: a step, with a procedure that it called; before the lock or
in it; or destructions that called procedures, over a loop of an update or not. -/
inductive Calls (s : World) : Prop
  | step : s.locked = true → s.stack = [.step] → Calls s
  | stepCallback : s.locked = true → s.stack = [.callback, .step] → Calls s
  | preStep : s.locked = false → s.stack = [.preStep] → Calls s
  | preStepCallback : s.locked = false → s.stack = [.callback, .preStep] → Calls s
  | tower : s.locked = false → Tower s s.stack → Calls s
  | destroying {target : Obj} {body : Nat} {current next : Option Nat} {t : List Frame} :
    s.locked = false → s.stack = .destroying target body current next :: t →
    FrameOk s target body current next t → Tower s t → Calls s

theorem Calls.mono (h : Calls s) (hlocked : s'.locked = s.locked) (hstack : s'.stack = s.stack)
    (hkeeps : Keeps s s' s.stack) : Calls s' := by
  cases h with
  | step hl hs => exact .step (hlocked.trans hl) (hstack.trans hs)
  | stepCallback hl hs => exact .stepCallback (hlocked.trans hl) (hstack.trans hs)
  | preStep hl hs => exact .preStep (hlocked.trans hl) (hstack.trans hs)
  | preStepCallback hl hs => exact .preStepCallback (hlocked.trans hl) (hstack.trans hs)
  | tower hl ht => exact .tower (hlocked.trans hl) (hstack.symm ▸ ht.mono hkeeps)
  | destroying hl hs hok ht =>
    rw [hs] at hkeeps
    exact .destroying (hlocked.trans hl) (hstack.trans hs) (hok.mono hkeeps) (ht.mono hkeeps.tail)

theorem Calls.tower_of_user (h : Calls s) (huser : s.userControl = true)
    (hlocked : s.locked = false) (hpre : .preStep ∉ s.stack) : Tower s s.stack := by
  cases h with
  | step hl hs =>
    rw [hlocked] at hl
    cases hl
  | stepCallback hl hs =>
    rw [hlocked] at hl
    cases hl
  | preStep hl hs =>
    rw [hs] at hpre
    exact absurd mem_cons_self hpre
  | preStepCallback hl hs =>
    rw [hs] at hpre
    exact absurd (mem_cons_of_mem _ mem_cons_self) hpre
  | tower hl ht => exact ht
  | destroying hl hs hok ht =>
    rw [userControl, hs] at huser
    cases huser

/-- A script has control, Box2D does not step, and nothing is being destroyed. -/
theorem Tower.eq_nil (h : Tower s s.stack) (huser : s.userControl = true)
    (hnone : ∀ o, s.stack.any (Frame.destroys o) = false) : s.stack = [] := by
  rw [userControl] at huser
  generalize s.stack = t at h huser hnone
  cases h with
  | nil => rfl
  | drain bodies shapes joints => cases huser
  | @callback target body c next t hok ht =>
    have hsome := hnone target
    simp [Frame.destroys] at hsome

/-! ## Contacts of a body -/

theorem firstContact_spec {b c : Nat} (h : s.firstContact b = some c) :
    ∃ x ∈ s.contacts, x.id = c ∧ x.involves (.body b) = true := by
  rw [firstContact, Option.map_eq_some_iff] at h
  obtain ⟨x, hfind, rfl⟩ := h
  have hinvolves := find?_some hfind
  exact ⟨x, mem_of_find?_eq_some hfind, rfl, hinvolves⟩

theorem nextContact_spec (hnodup : (s.contacts.map B2Contact.id).Nodup) {b c c' : Nat}
    (h : s.nextContact b c = some c') :
    c' ≠ c ∧ ∃ x ∈ s.contacts, x.id = c' ∧ x.involves (.body b) = true := by
  rw [nextContact, Option.map_eq_some_iff] at h
  obtain ⟨x, hfind, rfl⟩ := h
  have htail := mem_of_find?_eq_some hfind
  generalize hrest : s.contacts.dropWhile (·.id ≠ c) = rest at htail
  have hsuffix : rest <:+ s.contacts := hrest ▸ dropWhile_suffix _
  cases rest with
  | nil => cases htail
  | cons y rest =>
    have hy : y.id = c := by
      have hhead := head?_dropWhile_not (p := fun x : B2Contact => decide (x.id ≠ c)) s.contacts
      rw [hrest] at hhead
      simpa using hhead
    have hinvolves := find?_some hfind
    refine ⟨?_, x, hsuffix.subset (mem_cons_of_mem _ htail), rfl, hinvolves⟩
    have hnodup' : ((y :: rest).map B2Contact.id).Nodup :=
      hnodup.sublist (.map _ hsuffix.sublist)
    rw [map_cons, nodup_cons] at hnodup'
    intro heq
    exact hnodup'.1 (hy.trans heq.symm ▸ mem_map_of_mem htail)

end Lhatove.Physics
