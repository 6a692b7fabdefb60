import Lhatove.Lib.Transition

/-!
# Worlds and what is destroyed in them

`love::physics::box2d::World`, with the calls in progress: a step of Box2D calls
the callbacks, which may call the world again, and so does the end of contacts
that go with a body or a shape that is destroyed.

- Box2D: bodies, fixtures, joints and contacts with the lists they are in, and the
  lock. Which contacts a step makes and ends, and which callbacks it calls, is left
  to the run.
- The functions of `World`, `Body`, `Shape` and `Joint` that destroy, with the
  lists of what was marked during a step.
- Exceptions of calls from scripts are caught there and leave no trace. Other
  references to the objects than the one that Box2D holds, user data and the ground
  body are left out.
-/

namespace Lhatove.Physics

/-! ## Box2D -/

/-- A `Body`, a `Shape` or a `Joint`, or what it is in Box2D. -/
inductive Obj
  | body (b : Nat)
  | shape (f : Nat)
  | joint (j : Nat)
  deriving DecidableEq

/-- A body, a fixture or a joint of Box2D. -/
structure B2Object where
  obj : Obj
  /-- the bodies that a fixture or a joint is attached to, but for the ground body -/
  bodies : List Nat
  deriving DecidableEq

def B2Object.isJoint (x : B2Object) : Bool :=
  match x.obj with
  | .joint _ => true
  | _ => false

def B2Object.isShape (x : B2Object) : Bool :=
  match x.obj with
  | .shape _ => true
  | _ => false

structure B2Contact where
  id : Nat
  fixtureA : Nat
  bodyA : Nat
  fixtureB : Nat
  bodyB : Nat
  deriving DecidableEq

/-- Whether a contact is one of a body's, or of a fixture's. -/
def B2Contact.involves (c : B2Contact) : Obj → Bool
  | .body b => c.bodyA = b || c.bodyB = b
  | .shape f => c.fixtureA = f || c.fixtureB = f
  | .joint _ => false

/-! ## Calls in progress -/

/-- A call in progress. -/
inductive Frame
  /-- `World::update`, in `b2World::Step` before that is locked -/
  | preStep
  /-- `World::update`, in `b2World::Step` -/
  | step
  /-- `World::update`, with what its loops have not come to -/
  | drain (bodies shapes joints : List Nat)
  /-- a procedure that was set as callback or filter -/
  | callback
  /-- `b2World::DestroyBody` or `b2Body::DestroyFixture`, in the loop over the contacts
  of a body: the contact that ends, and where the loop goes on -/
  | destroying (target : Obj) (body : Nat) (current next : Option Nat)
  deriving DecidableEq

/-- Whether a call is in progress that is a step of Box2D. -/
def Frame.inStep : Frame → Bool
  | .preStep => true
  | .step => true
  | _ => false

/-- Whether a call is in progress that is an update. -/
def Frame.inUpdate : Frame → Bool
  | .drain .. => true
  | f => f.inStep

def Frame.destroys (target : Obj) : Frame → Bool
  | .destroying target' _ _ _ => target' = target
  | _ => false

/-- The contacts that a call in progress goes on with. -/
def Frame.hand : Frame → List Nat
  | .destroying _ _ current next => current.toList ++ next.toList
  | _ => []

/-- `World`; the last parts are what happened so far. -/
structure World where
  /-- whether `world` is not null -/
  alive : Bool
  /-- `m_locked` -/
  locked : Bool
  /-- what is in the lists of bodies, fixtures and joints -/
  objects : List B2Object
  /-- `m_contactList` -/
  contacts : List B2Contact
  /-- the objects whose pointer to Box2D is not null -/
  valid : List Obj
  destructBodies : List Nat
  destructShapes : List Nat
  destructJoints : List Nat
  destructWorld : Bool
  /-- the calls in progress, the last one first -/
  stack : List Frame
  /-- the objects that were made -/
  created : List Obj
  /-- the objects for which the reference of Box2D was released -/
  released : List Obj
  /-- what was destroyed in Box2D, and whether in a step -/
  destroyed : List (Obj × Bool)
  /-- the objects that were marked for destruction -/
  marked : List Obj
  /-- whether Box2D went on with what is not there anymore -/
  fault : Bool

namespace World

/-- Whether a procedure may be called next. -/
def userControl (s : World) : Bool :=
  match s.stack with
  | [] => true
  | .callback :: _ => true
  | _ => false

def push (f : Frame) (s : World) : World := { s with stack := f :: s.stack }

def pop (s : World) : World := { s with stack := s.stack.tail }

/-- The last call goes on as another. -/
def replace (f : Frame) (s : World) : World := { s with stack := f :: s.stack.tail }

/-- Box2D went on with what is not there. -/
def raiseFault (s : World) : World := { s with fault := true }

/-! ### Objects -/

/-- An object that is made; Box2D holds a reference. -/
def make (o : Obj) (bodies : List Nat) (s : World) : World :=
  { s with
    objects := ⟨o, bodies⟩ :: s.objects
    valid := o :: s.valid
    created := o :: s.created }

/-- An object that goes from Box2D; its pointer is null then, and the reference of
Box2D is released. -/
def drop (o : Obj) (s : World) : World :=
  { s with
    objects := s.objects.filter (·.obj ≠ o)
    valid := s.valid.filter (· ≠ o)
    released := o :: s.released
    destroyed := (o, s.stack.any Frame.inStep) :: s.destroyed }

def dropAll : List Obj → World → World
  | [], s => s
  | o :: os, s => dropAll os (s.drop o)

/-- The joints of a body. -/
def jointsOf (b : Nat) (s : World) : List Obj :=
  (s.objects.filter fun x => x.isJoint && b ∈ x.bodies).map B2Object.obj

/-- The fixtures of a body. -/
def shapesOf (b : Nat) (s : World) : List Obj :=
  (s.objects.filter fun x => x.isShape && b ∈ x.bodies).map B2Object.obj

/-- The body of a fixture. -/
def bodyOf (o : Obj) (s : World) : Option Nat :=
  (s.objects.find? (·.obj = o)).bind (·.bodies.head?)

def removeContact (c : Nat) (s : World) : World :=
  { s with contacts := s.contacts.filter (·.id ≠ c) }

/-- The first contact of a body. -/
def firstContact (b : Nat) (s : World) : Option Nat :=
  (s.contacts.find? (·.involves (.body b))).map B2Contact.id

/-- The contact of a body that is behind another in its list. -/
def nextContact (b : Nat) (c : Nat) (s : World) : Option Nat :=
  (((s.contacts.dropWhile (·.id ≠ c)).tail).find? (·.involves (.body b))).map B2Contact.id

/-! ### What destroys -/

/-- `Body::destroy`, up to the contacts; `SayGoodbye` is called for the joints. -/
def destroyBody (b : Nat) (s : World) : World :=
  if s.locked = true then
    { s with destructBodies := s.destructBodies ++ [b], marked := .body b :: s.marked }
  else
    let s' := dropAll (s.jointsOf b) s
    s'.push (.destroying (.body b) b none (s'.firstContact b))

/-- `Shape::destroy`, up to the contacts. A fixture that is being destroyed is not in
the list of its body anymore, and that is asserted. -/
def destroyShape (f : Nat) (s : World) : Option World :=
  if .shape f ∉ s.valid then some s
  else if s.locked = true then
    some { s with destructShapes := s.destructShapes ++ [f], marked := .shape f :: s.marked }
  else
    match s.bodyOf (.shape f) with
    | none => none
    | some b =>
      if s.stack.any (Frame.destroys (.shape f)) = true then none
      else some (s.push (.destroying (.shape f) b none (s.firstContact b)))

/-- `Joint::destroyJoint` -/
def destroyJoint (j : Nat) (s : World) : World :=
  if s.locked = true then
    { s with destructJoints := s.destructJoints ++ [j], marked := .joint j :: s.marked }
  else s.drop (.joint j)

/-- What goes with a body: its fixtures, for which `SayGoodbye` is called, and then
the body. -/
def dropBody (b : Nat) (s : World) : World := (dropAll (s.shapesOf b) s).drop (.body b)

/-- The bodies of the world. -/
def bodyIds (s : World) : List Nat :=
  s.objects.filterMap fun x =>
    match x.obj with
    | .body b => some b
    | _ => none

/-- Every body destroyed, with its joints and fixtures. -/
def dropBodies : List Nat → World → World
  | [], s => s
  | b :: bs, s => dropBodies bs (dropBody b (dropAll (s.jointsOf b) s))

/-- `World::destroy`; no callbacks are left when the contacts end. -/
def destroyWorld (s : World) : World :=
  if s.alive = false then s
  else if s.locked = true then { s with destructWorld := true }
  else { dropBodies s.bodyIds s with alive := false, contacts := [] }

/-! ### Box2D goes on -/

/-- The loop over the contacts of a body. `notify` is whether a procedure is called
when a contact ends. -/
def endContacts (notify : Bool) (target : Obj) (body : Nat) (current next : Option Nat)
    (s : World) : World :=
  match current with
  | some c =>
    if c ∈ s.contacts.map B2Contact.id then
      (s.removeContact c).replace (.destroying target body none next)
    else s.raiseFault
  | none =>
    match next with
    | none =>
      match target with
      | .body b => (s.pop).dropBody b
      | o => (s.pop).drop o
    | some c =>
      match s.contacts.find? (·.id = c) with
      | none => s.raiseFault
      | some contact =>
        if contact.involves target = false then
          s.replace (.destroying target body none (s.nextContact body c))
        else if notify = true then
          (s.replace (.destroying target body (some c) (s.nextContact body c))).push .callback
        else
          (s.removeContact c).replace (.destroying target body none (s.nextContact body c))

/-- The loops of `World::update` behind the step. -/
def drainNext (bodies shapes joints : List Nat) (s : World) : World :=
  match bodies, shapes, joints with
  | b :: bodies, shapes, joints =>
    let s' := s.replace (.drain bodies shapes joints)
    if .body b ∈ s.valid then s'.destroyBody b else s'
  | [], f :: shapes, joints =>
    let s' := s.replace (.drain [] shapes joints)
    match s'.destroyShape f with
    | some s'' => s''
    | none => s.pop
  | [], [], j :: joints =>
    let s' := s.replace (.drain [] [] joints)
    if .joint j ∈ s.valid then s'.destroyJoint j else s'
  | [], [], [] =>
    let s' := { s.pop with destructBodies := [], destructShapes := [], destructJoints := [] }
    if s.destructWorld = true then s'.destroyWorld else s'

end World

/-! ## Runs -/

/-- A call from a script, the return of one that Box2D called, or what Box2D and
`World::update` do next. -/
inductive WorldOp
  | newBody (b : Nat)
  | newShape (f b : Nat)
  | newJoint (j : Nat) (bodies : List Nat)
  | destroyBody (b : Nat)
  | destroyShape (f : Nat)
  | destroyJoint (j : Nat)
  | destroyWorld
  | update
  /-- the procedure that was called last returns -/
  | ret
  /-- the filter is asked for a pair -/
  | filter
  | lock
  /-- a contact begins, ends, or is solved -/
  | contact
  /-- contacts are made, and end -/
  | collide (contacts : List B2Contact)
  | unlock
  | next (notify : Bool)

open World

/-- A call from a script. Objects that are made are not those that were made
before. -/
def userStep (s : World) : WorldOp → Option World
  | .newBody b =>
    if .body b ∈ s.created then none
    else if s.alive = false ∨ s.locked = true then some s
    else some (s.make (.body b) [])
  | .newShape f b =>
    if .shape f ∈ s.created then none
    else if .body b ∉ s.valid ∨ s.locked = true then some s
    else some (s.make (.shape f) [b])
  | .newJoint j bodies =>
    if .joint j ∈ s.created ∨ bodies = [] then none
    else if (∃ b ∈ bodies, .body b ∉ s.valid) ∨ s.locked = true then some s
    else some (s.make (.joint j) bodies)
  | .destroyBody b => if .body b ∈ s.valid then some (s.destroyBody b) else some s
  | .destroyShape f => some ((s.destroyShape f).getD s)
  | .destroyJoint j => if .joint j ∈ s.valid then some (s.destroyJoint j) else some s
  | .destroyWorld => some s.destroyWorld
  | .update => if s.alive = true then some (s.push .preStep) else some s
  | .ret =>
    match s.stack with
    | .callback :: _ => some s.pop
    | _ => none
  | _ => none

/-- What Box2D or `World::update` does. Contacts have different addresses. -/
def box2dStep (s : World) : WorldOp → Option World
  | .filter =>
    match s.stack with
    | .preStep :: _ => some (s.push .callback)
    | .step :: _ => some (s.push .callback)
    | _ => none
  | .lock =>
    match s.stack with
    | .preStep :: _ => some { s.replace .step with locked := true }
    | _ => none
  | .contact =>
    match s.stack with
    | .step :: _ => some (s.push .callback)
    | _ => none
  | .collide contacts =>
    match s.stack with
    | .preStep :: _ => if (contacts.map B2Contact.id).Nodup then some { s with contacts } else none
    | .step :: _ => if (contacts.map B2Contact.id).Nodup then some { s with contacts } else none
    | _ => none
  | .unlock =>
    match s.stack with
    | .step :: _ =>
      some { s.replace (.drain s.destructBodies s.destructShapes s.destructJoints) with
        locked := false }
    | _ => none
  | .next notify =>
    match s.stack with
    | .drain bodies shapes joints :: _ => some (s.drainNext bodies shapes joints)
    | .destroying target body current next :: _ =>
      some (s.endContacts notify target body current next)
    | _ => none
  | _ => none

/-- A step of a run. Nothing goes on where Box2D went on with what is not there, or
with a world that was deleted. -/
def worldStep (s : World) (op : WorldOp) : Option World :=
  if s.fault = true then none
  else if s.userControl = true then userStep s op
  else if s.alive = false then some s.raiseFault
  else box2dStep s op

/-- Calls of a world and of what is in it, in any order and from callbacks. -/
def worlds : System World WorldOp :=
  System.ofStep
    (fun s => s = ⟨true, false, [], [], [], [], [], [], false, [], [], [], [], [], false⟩)
    worldStep

end Lhatove.Physics
