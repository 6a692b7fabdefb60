import Lhatove.Lib.Transition

/-!
# Contacts and their objects

`love::physics::box2d::Contact`: objects for contacts of Box2D, which `World` finds by
the address of the contact.

- Contacts are made, begin and cease to touch, and are destroyed, in a step or with a
  body or a shape; when, is left to the run. An address is used again.
- Procedures are called with the object of a contact, which is made if there is none,
  and so does `getContacts`. While a procedure runs, anything may happen.
- An object is deleted when nothing has it anymore.
-/

namespace Lhatove.Physics

open Function List

/-! ## The world -/

/-- A `b2Contact`; `serial` tells it from others that were at its address. -/
structure LiveContact where
  address : Nat
  serial : Nat
  /-- `e_touchingFlag` -/
  touching : Bool
  deriving DecidableEq

/-- A `Contact`, with the `b2Contact` that it was made for. -/
structure ContactObject where
  /-- `contact`; null when there is none -/
  contact : Option Nat
  serial : Nat
  deriving DecidableEq

/-- What `World` does when a procedure returns. -/
inductive Afterwards
  | nothing
  /-- the rest of `EndContact` -/
  | ended (address : Nat)
  /-- the rest of `EndContact`, and of `b2ContactManager::Destroy` -/
  | destroyed (address serial : Nat)
  deriving DecidableEq

/-- A procedure that was called for a contact; `holds` is the object that it was
called with. -/
structure ContactCall where
  holds : Nat
  afterwards : Afterwards
  deriving DecidableEq

structure ContactWorld where
  /-- `m_contactList` -/
  contacts : List LiveContact
  /-- how many contacts were made -/
  serials : Nat
  /-- the objects that are not deleted -/
  objects : Nat → Option ContactObject
  nextObject : Nat
  /-- `box2dObjectMap` -/
  box2dObjectMap : Nat → Option Nat
  /-- the procedures that run, the last one called first -/
  calls : List ContactCall

namespace ContactWorld

/-- The contact at an address. -/
def contactAt (address : Nat) (s : ContactWorld) : Option LiveContact :=
  s.contacts.find? (·.address = address)

def setTouching (address : Nat) (touching : Bool) (s : ContactWorld) : ContactWorld :=
  { s with contacts := s.contacts.map fun c =>
      if c.address = address then { c with touching } else c }

def findObject (address : Nat) (s : ContactWorld) : Option Nat := s.box2dObjectMap address

/-- The constructor of `Contact`, which registers it. -/
def newObject (c : LiveContact) (s : ContactWorld) : ContactWorld :=
  { s with
    objects := Function.update s.objects s.nextObject (some ⟨some c.address, c.serial⟩)
    nextObject := s.nextObject + 1
    box2dObjectMap := Function.update s.box2dObjectMap c.address (some s.nextObject) }

/-- The object for a contact, which is made if there is none. -/
def objectFor (c : LiveContact) (s : ContactWorld) : Nat × ContactWorld :=
  match s.findObject c.address with
  | some w => (w, s)
  | none => (s.nextObject, s.newObject c)

/-- `Contact::invalidate` -/
def invalidate (w : Nat) (s : ContactWorld) : ContactWorld :=
  match s.objects w with
  | some ⟨some address, serial⟩ =>
    { s with
      objects := Function.update s.objects w (some ⟨none, serial⟩)
      box2dObjectMap := Function.update s.box2dObjectMap address none }
  | _ => s

/-- The destructor of `Contact`. -/
def delete (w : Nat) (s : ContactWorld) : ContactWorld :=
  { s.invalidate w with objects := Function.update (s.invalidate w).objects w none }

/-- `ContactCallback::process`: the procedure is called, if there is one. -/
def process (listener : Bool) (c : LiveContact) (afterwards : Afterwards) (s : ContactWorld) :
    Option ContactWorld :=
  if listener = true then
    some { (s.objectFor c).2 with calls := ⟨(s.objectFor c).1, afterwards⟩ :: s.calls }
  else none

/-- The rest of `EndContact`. -/
def endContact (address : Nat) (s : ContactWorld) : ContactWorld :=
  match s.findObject address with
  | some w => s.invalidate w
  | none => s

/-- The rest of `b2ContactManager::Destroy`. -/
def removeContact (address : Nat) (s : ContactWorld) : ContactWorld :=
  { s with contacts := s.contacts.filter (·.address ≠ address) }

/-- What is done when a procedure returns; Box2D does not find a contact that was
destroyed meanwhile. -/
def after (s : ContactWorld) : Afterwards → Option ContactWorld
  | .nothing => some s
  | .ended address => some (s.endContact address)
  | .destroyed address serial =>
    match s.contactAt address with
    | some c => if c.serial = serial then some ((s.endContact address).removeContact address) else none
    | none => none

/-- `getContacts`: the objects of some contacts. -/
def getContacts : List Nat → ContactWorld → ContactWorld
  | [], s => s
  | address :: addresses, s =>
    match s.contactAt address with
    | some c => getContacts addresses (s.objectFor c).2
    | none => getContacts addresses s

end ContactWorld

open ContactWorld

/-! ## Runs -/

/-- What happens to contacts; `listener` is whether there is a procedure for it. -/
inductive ContactOp
  | create (address : Nat)
  | begin (address : Nat) (listener : Bool)
  /-- before and after a contact is solved -/
  | solve (address : Nat) (listener : Bool)
  /-- a contact does not touch anymore -/
  | separate (address : Nat) (listener : Bool)
  | destroy (address : Nat) (listener : Bool)
  /-- a procedure returns -/
  | ret
  | getContacts (addresses : List Nat)
  /-- nothing has an object anymore -/
  | delete (w : Nat)

def contactStep (s : ContactWorld) : ContactOp → Option ContactWorld
  | .create address =>
    match s.contactAt address with
    | some _ => none
    | none => some { s with
        contacts := ⟨address, s.serials, false⟩ :: s.contacts, serials := s.serials + 1 }
  | .begin address listener =>
    match s.contactAt address with
    | some c =>
      if c.touching = true then none
      else some (((s.setTouching address true).process listener c .nothing).getD
        (s.setTouching address true))
    | none => none
  | .solve address listener =>
    match s.contactAt address with
    | some c => if c.touching = true then some ((s.process listener c .nothing).getD s) else none
    | none => none
  | .separate address listener =>
    match s.contactAt address with
    | some c =>
      if c.touching = true then
        ((s.setTouching address false).process listener c (.ended address)).orElse fun _ =>
          (s.setTouching address false).after (.ended address)
      else none
    | none => none
  | .destroy address listener =>
    match s.contactAt address with
    | some c =>
      if c.touching = true then
        (s.process listener c (.destroyed address c.serial)).orElse fun _ =>
          s.after (.destroyed address c.serial)
      else some (s.removeContact address)
    | none => none
  | .ret =>
    match s.calls with
    | call :: calls => { s with calls }.after call.afterwards
    | [] => none
  | .getContacts addresses => some (s.getContacts addresses)
  | .delete w => if s.calls.any (·.holds = w) = true then none else some (s.delete w)

/-- Contacts of a world, with the procedures that are called for them. -/
def contactWorlds : System ContactWorld ContactOp :=
  System.ofStep (fun s => s = ⟨[], 0, fun _ => none, 0, fun _ => none, []⟩) contactStep

/-! ## The invariant -/

/-- Valid objects and the map belong together, and to contacts that are there. -/
structure Registered (s : ContactWorld) : Prop where
  addresses : (s.contacts.map LiveContact.address).Nodup
  object : ∀ w object address, s.objects w = some object → object.contact = some address →
    s.box2dObjectMap address = some w ∧
      ∃ c ∈ s.contacts, c.address = address ∧ c.serial = object.serial
  found : ∀ address w, s.box2dObjectMap address = some w →
    ∃ object, s.objects w = some object ∧ object.contact = some address
  fresh : ∀ w, s.nextObject ≤ w → s.objects w = none

variable {s : ContactWorld} {address : Nat} {c : LiveContact}

theorem contactAt_spec
    (h : s.contactAt address = some c) : c ∈ s.contacts ∧ c.address = address := by
  refine ⟨mem_of_find?_eq_some h, ?_⟩
  simpa using find?_some h

theorem contactAt_eq_none (h : s.contactAt address = none) :
    address ∉ s.contacts.map LiveContact.address := by
  intro hmem
  obtain ⟨c, hc, rfl⟩ := mem_map.mp hmem
  have hout := find?_eq_none.mp h c hc
  simp at hout

@[simp] theorem newObject_objects (c : LiveContact) (s : ContactWorld) :
    (s.newObject c).objects =
      update s.objects s.nextObject (some ⟨some c.address, c.serial⟩) := rfl

@[simp] theorem newObject_map (c : LiveContact) (s : ContactWorld) :
    (s.newObject c).box2dObjectMap =
      update s.box2dObjectMap c.address (some s.nextObject) := rfl

@[simp] theorem delete_objects (w : Nat) (s : ContactWorld) :
    (s.delete w).objects = update (s.invalidate w).objects w none := rfl

/-- **Contacts change** but for their addresses and serials. -/
theorem Registered.setTouching (hs : Registered s) (address : Nat)
    (touching : Bool) : Registered (s.setTouching address touching) where
  addresses := by
    have heq : (s.setTouching address touching).contacts.map LiveContact.address =
        s.contacts.map LiveContact.address := by
      rw [ContactWorld.setTouching, map_map]
      refine map_congr_left fun c _ => ?_
      simp only [comp_apply]
      split <;> rfl
    rw [heq]
    exact hs.addresses
  object w object address' hw hcontact := by
    obtain ⟨hmap, c, hc, haddress, hserial⟩ := hs.object w object address' hw hcontact
    refine ⟨hmap, _, mem_map_of_mem hc, ?_, ?_⟩
    · split <;> exact haddress
    · split <;> exact hserial
  found := hs.found
  fresh := hs.fresh

theorem Registered.newObject (hs : Registered s) (hc : c ∈ s.contacts)
    (hnone : s.findObject c.address = none) : Registered (s.newObject c) where
  addresses := hs.addresses
  object w object address hw hcontact := by
    by_cases heq : w = s.nextObject
    · subst heq
      rw [newObject_objects, update_self] at hw
      cases hw
      cases hcontact
      exact ⟨update_self .., c, hc, rfl, rfl⟩
    · rw [newObject_objects, update_of_ne heq] at hw
      obtain ⟨hmap, hin⟩ := hs.object w object address hw hcontact
      refine ⟨?_, hin⟩
      rw [newObject_map, update_of_ne]
      · exact hmap
      · rintro rfl
        rw [findObject, hmap] at hnone
        cases hnone
  found address w hmap := by
    by_cases heq : address = c.address
    · subst heq
      rw [newObject_map, update_self] at hmap
      cases hmap
      exact ⟨_, update_self .., rfl⟩
    · rw [newObject_map, update_of_ne heq] at hmap
      obtain ⟨object, hw, hcontact⟩ := hs.found address w hmap
      refine ⟨object, ?_, hcontact⟩
      rw [newObject_objects, update_of_ne]
      · exact hw
      · rintro rfl
        rw [hs.fresh _ (le_refl _)] at hw
        cases hw
  fresh w hw := by
    have hw : s.nextObject + 1 ≤ w := hw
    rw [newObject_objects, update_of_ne (by omega)]
    exact hs.fresh w (by omega)

theorem Registered.objectFor (hs : Registered s)
    (hc : c ∈ s.contacts) : Registered (s.objectFor c).2 := by
  rw [ContactWorld.objectFor]
  cases hfind : s.findObject c.address with
  | some w => exact hs
  | none => exact hs.newObject hc hfind

/-- **An object that is invalidated** is not registered anymore. -/
theorem Registered.invalidate (hs : Registered s) (w : Nat) :
    Registered (s.invalidate w) ∧
      ∀ object address, (s.invalidate w).objects w = some object → object.contact ≠ some address := by
  rw [ContactWorld.invalidate]
  split
  · next address serial hw =>
      refine ⟨⟨hs.addresses, ?_, ?_, ?_⟩, ?_⟩
      · intro w' object address' hw' hcontact
        dsimp only at hw'
        by_cases heq : w' = w
        · subst heq
          rw [update_self] at hw'
          cases hw'
          cases hcontact
        · rw [update_of_ne heq] at hw'
          obtain ⟨hmap, hin⟩ := hs.object w' object address' hw' hcontact
          refine ⟨?_, hin⟩
          dsimp only
          rw [update_of_ne]
          · exact hmap
          · rintro rfl
            rw [(hs.object w _ _ hw rfl).1] at hmap
            exact heq (Option.some.inj hmap).symm
      · intro address' w' hmap
        dsimp only at hmap
        by_cases heq : address' = address
        · subst heq
          rw [update_self] at hmap
          cases hmap
        · rw [update_of_ne heq] at hmap
          obtain ⟨object, hw', hcontact⟩ := hs.found address' w' hmap
          refine ⟨object, ?_, hcontact⟩
          dsimp only
          rw [update_of_ne]
          · exact hw'
          · rintro rfl
            rw [hw] at hw'
            cases hw'
            cases hcontact
            exact heq rfl
      · intro w' hw'
        dsimp only
        rw [update_of_ne]
        · exact hs.fresh w' hw'
        · rintro rfl
          rw [hs.fresh w' hw'] at hw
          cases hw
      · intro object address' hobject hcontact
        dsimp only at hobject
        rw [update_self] at hobject
        cases hobject
        cases hcontact
  · next hother =>
      refine ⟨hs, fun object address hobject hcontact => ?_⟩
      obtain ⟨contact, serial⟩ := object
      cases hcontact
      exact hother address serial hobject

theorem Registered.delete (hs : Registered s) (w : Nat) : Registered (s.delete w) := by
  obtain ⟨hs', hnone⟩ := hs.invalidate w
  refine ⟨hs'.addresses, ?_, ?_, ?_⟩
  · intro w' object address hw' hcontact
    by_cases heq : w' = w
    · subst heq
      rw [delete_objects, update_self] at hw'
      cases hw'
    · rw [delete_objects, update_of_ne heq] at hw'
      exact hs'.object w' object address hw' hcontact
  · intro address w' hmap
    obtain ⟨object, hw', hcontact⟩ := hs'.found address w' hmap
    refine ⟨object, ?_, hcontact⟩
    rw [delete_objects, update_of_ne]
    · exact hw'
    · rintro rfl
      exact hnone object address hw' hcontact
  · intro w' hw'
    by_cases heq : w' = w
    · subst heq
      exact update_self ..
    · rw [delete_objects, update_of_ne heq]
      exact hs'.fresh w' hw'

theorem Registered.endContact (hs : Registered s) (address : Nat) :
    Registered (s.endContact address) ∧ (s.endContact address).findObject address = none := by
  rw [ContactWorld.endContact]
  cases hfind : s.findObject address with
  | none => exact ⟨hs, hfind⟩
  | some w =>
    obtain ⟨hs', hnone⟩ := hs.invalidate w
    refine ⟨hs', ?_⟩
    obtain ⟨⟨contact, serial⟩, hw, hcontact⟩ := hs.found address w hfind
    cases hcontact
    show (s.invalidate w).box2dObjectMap address = none
    rw [ContactWorld.invalidate, hw]
    exact update_self ..

/-- **A contact without an object** is removed. -/
theorem Registered.removeContact (hs : Registered s)
    (hnone : s.findObject address = none) : Registered (s.removeContact address) where
  addresses := hs.addresses.sublist (.map _ filter_sublist)
  object w object address' hw hcontact := by
    obtain ⟨hmap, c, hc, haddress, hserial⟩ := hs.object w object address' hw hcontact
    refine ⟨hmap, c, mem_filter.mpr ⟨hc, decide_eq_true fun heq => ?_⟩, haddress, hserial⟩
    rw [findObject, ← heq, haddress, hmap] at hnone
    cases hnone
  found := hs.found
  fresh := hs.fresh

variable {s' : ContactWorld} {afterwards : Afterwards}

theorem Registered.after (hs : Registered s)
    (h : s.after afterwards = some s') : Registered s' := by
  cases afterwards with
  | nothing =>
    cases h
    exact hs
  | ended address =>
    cases h
    exact (hs.endContact address).1
  | destroyed address serial =>
    rw [ContactWorld.after] at h
    split at h
    · split_ifs at h
      cases h
      obtain ⟨hs', hnone⟩ := hs.endContact address
      exact hs'.removeContact hnone
    · cases h

theorem Registered.process (hs : Registered s) {listener : Bool}
    (hc : ∃ c' ∈ s.contacts, c'.address = c.address ∧ c'.serial = c.serial)
    (h : s.process listener c afterwards = some s') : Registered s' := by
  obtain ⟨c', hc', haddress, hserial⟩ := hc
  have heq : s.objectFor c = s.objectFor c' := by
    rw [ContactWorld.objectFor, ContactWorld.objectFor, ContactWorld.newObject,
      ContactWorld.newObject, haddress, hserial]
  rw [ContactWorld.process] at h
  split_ifs at h
  cases h
  rw [heq]
  exact { hs.objectFor hc' with }

theorem Registered.getContacts (hs : Registered s) (addresses : List Nat) :
    Registered (s.getContacts addresses) := by
  induction addresses generalizing s with
  | nil => exact hs
  | cons address addresses ih =>
    rw [ContactWorld.getContacts]
    cases hat : s.contactAt address with
    | none => exact ih hs
    | some c => exact ih (hs.objectFor (contactAt_spec hat).1)

/-! ## All runs -/

/-- A contact that is destroyed without touching has no object. -/
def ContactOp.Kept (s : ContactWorld) : ContactOp → Prop
  | .destroy address _ => ∀ c, s.contactAt address = some c → c.touching = false →
    s.findObject address = none
  | _ => True

theorem exists_setTouching (hc : s.contactAt address = some c) (touching : Bool) :
    ∃ c' ∈ (s.setTouching address touching).contacts,
      c'.address = c.address ∧ c'.serial = c.serial := by
  refine ⟨_, mem_map_of_mem (contactAt_spec hc).1, ?_, ?_⟩ <;> split <;> rfl

/-- **Any step** keeps the invariant. -/
theorem contactStep_registered {op : ContactOp} (hs : Registered s) (hkept : op.Kept s)
    (h : contactStep s op = some s') : Registered s' := by
  cases op with
  | create address =>
    rw [contactStep] at h
    split at h
    · cases h
    next hat =>
      cases h
      refine { hs with addresses := ?_, object := fun w object address' hw hcontact => ?_ }
      · exact nodup_cons.mpr ⟨contactAt_eq_none hat, hs.addresses⟩
      · obtain ⟨hmap, c, hc, hin⟩ := hs.object w object address' hw hcontact
        exact ⟨hmap, c, mem_cons_of_mem _ hc, hin⟩
  | begin address listener =>
    rw [contactStep] at h
    split at h
    next c hat =>
      split_ifs at h
      cases h
      cases hprocess : (s.setTouching address true).process listener c .nothing with
      | none => exact hs.setTouching address true
      | some s' => exact (hs.setTouching address true).process (exists_setTouching hat true) hprocess
    · cases h
  | solve address listener =>
    rw [contactStep] at h
    split at h
    next c hat =>
      split_ifs at h
      cases h
      cases hprocess : s.process listener c .nothing with
      | none => exact hs
      | some s' => exact hs.process ⟨c, (contactAt_spec hat).1, rfl, rfl⟩ hprocess
    · cases h
  | separate address listener =>
    rw [contactStep] at h
    split at h
    next c hat =>
      split_ifs at h
      have hs' := hs.setTouching address false
      cases hprocess : (s.setTouching address false).process listener c (.ended address) with
      | none =>
        rw [hprocess] at h
        have h : (s.setTouching address false).after (.ended address) = some s' := h
        exact hs'.after h
      | some s₁ =>
        rw [hprocess] at h
        cases h
        exact hs'.process (exists_setTouching hat false) hprocess
    · cases h
  | destroy address listener =>
    rw [contactStep] at h
    split at h
    next c hat =>
      split_ifs at h with htouching
      · cases hprocess : s.process listener c (.destroyed address c.serial) with
        | none =>
          rw [hprocess] at h
          have h : s.after (.destroyed address c.serial) = some s' := h
          exact hs.after h
        | some s₁ =>
          rw [hprocess] at h
          cases h
          exact hs.process ⟨c, (contactAt_spec hat).1, rfl, rfl⟩ hprocess
      · cases h
        exact hs.removeContact (hkept c hat ((Bool.not_eq_true _).mp htouching))
    · cases h
  | ret =>
    rw [contactStep] at h
    split at h
    · next call calls _ =>
        have hs' : Registered { s with calls } := { hs with }
        exact hs'.after h
    · cases h
  | getContacts addresses =>
    cases h
    exact hs.getContacts addresses
  | delete w =>
    rw [contactStep] at h
    split_ifs at h
    cases h
    exact hs.delete w

/-- **Objects of contacts**, in all runs in which no contact that has an object is
destroyed without touching: a valid object has a contact that is there, the one it was
made for, and what is found for a contact was made for it. -/
theorem contacts_living {s : ContactWorld}
    (h : (contactWorlds.restrict fun s op => op.Kept s).Reachable s) :
    (∀ w object address, s.objects w = some object → object.contact = some address →
      ∃ c ∈ s.contacts, c.address = address ∧ c.serial = object.serial) ∧
    ∀ c ∈ s.contacts, ∀ w, s.findObject c.address = some w →
      ∃ object, s.objects w = some object ∧ object.contact = some c.address ∧
        object.serial = c.serial := by
  have hs : Registered s := by
    refine h.invariant_restrict ?_ fun s op s' hs hkept hstep =>
      contactStep_registered hs hkept hstep
    rintro s rfl
    exact ⟨nodup_nil, nofun, nofun, fun _ _ => rfl⟩
  refine ⟨fun w object address hw hcontact => (hs.object w object address hw hcontact).2, ?_⟩
  intro c hc w hfind
  obtain ⟨object, hw, hcontact⟩ := hs.found c.address w hfind
  obtain ⟨-, c', hc', haddress, hserial⟩ := hs.object w object c.address hw hcontact
  have heq : c' = c := inj_on_of_nodup_map hs.addresses hc' hc haddress
  exact ⟨object, hw, hcontact, heq ▸ hserial.symm⟩

/-! ### An address that is used again -/

def noContacts : ContactWorld := ⟨[], 0, fun _ => none, 0, fun _ => none, []⟩

/-- A contact that touches is destroyed; the next one at its address has an object of
its own. -/
def touched : List ContactOp :=
  [.create 0, .begin 0 true, .ret, .destroy 0 true, .ret, .create 0, .getContacts [0]]

theorem contacts_living_touched : ∃ s, System.run contactStep noContacts touched = some s ∧
    ∃ object, s.objects 1 = some object ∧ object.contact = some 0 ∧ object.serial = 1 := by
  have h₀ : (contactWorlds.restrict fun s op => op.Kept s).Reachable noContacts := .init rfl
  have h₁ := h₀.restrict_step (.create 0) trivial rfl
  have h₂ := h₁.restrict_step (.begin 0 true) trivial rfl
  have h₃ := h₂.restrict_step .ret trivial rfl
  have h₄ := h₃.restrict_step (.destroy 0 true) (by rintro c hc; cases hc; nofun) rfl
  have h₅ := h₄.restrict_step .ret trivial rfl
  have h₆ := h₅.restrict_step (.create 0) trivial rfl
  have h₇ := h₆.restrict_step (.getContacts [0]) trivial rfl
  exact ⟨_, rfl, (contacts_living h₇).2 ⟨0, 1, false⟩ mem_cons_self 1 rfl⟩

/-- A contact that never touched is destroyed without `EndContact`: its object stays
valid, and is found for the next contact at the address. -/
theorem not_always_living : ¬ ∀ s, contactWorlds.Reachable s →
    (∀ w object address, s.objects w = some object → object.contact = some address →
      ∃ c ∈ s.contacts, c.address = address ∧ c.serial = object.serial) ∧
    ∀ c ∈ s.contacts, ∀ w, s.findObject c.address = some w →
      ∃ object, s.objects w = some object ∧ object.contact = some c.address ∧
        object.serial = c.serial := by
  intro hall
  have h₀ : contactWorlds.Reachable noContacts := .init rfl
  have h₁ : contactWorlds.Reachable _ := .step (e := .create 0) h₀ rfl
  have h₂ : contactWorlds.Reachable _ := .step (e := .getContacts [0]) h₁ rfl
  have h₃ : contactWorlds.Reachable _ := .step (e := .destroy 0 false) h₂ rfl
  obtain ⟨c, hc, -⟩ := (hall _ h₃).1 0 ⟨some 0, 0⟩ 0 rfl rfl
  cases hc

end Lhatove.Physics
