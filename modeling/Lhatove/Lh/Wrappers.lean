import Lhatove.Lh.TypeRegistry
import Lhatove.Lib.Transition

/-!
# Objects and their wrappers

A native `love::Object` counts its references. On each machine it has at most
one cached wrapper (a hostdata), which holds one reference until its `dispose`
runs: by name, or from the collector. The cache is keyed by the object's
address and does not keep a wrapper alive.

The collector is the L^ runtime's. At the end of a marking it takes the entries
of the wrappers it found unreachable out of the cache (`drop`); the program
cannot name those wrappers any more, and their `dispose` runs later
(`finalise`). A carried value holds one reference of its own, and one more for
every wrapper rebuilt from it.
-/

namespace Lhatove.Lh

/-- `love::Object`: its count, and which of the objects ever made it is. -/
structure Object where
  count : UInt32
  serial : Nat

/-- `LhatHostData` on machine `machine`. `serial` is the object it was made for,
`releases` how often it has released it, and `dropped` whether the collector
has found it unreachable. -/
structure Wrapper (Tag : Type) where
  machine : Nat
  tag : Tag
  pointer : Option Nat
  released : Bool
  serial : Nat
  releases : Nat
  dropped : Bool

/-- The objects by address; the wrappers in the order they were made; the weak
cache of each machine. `natives` and `carried` count the references that native
owners and carried values hold of the object at an address. -/
structure Heap (Tag : Type) where
  objects : Nat → Option Object
  objectsMade : Nat
  wrappers : List (Wrapper Tag)
  cache : Nat → Nat → Option Nat
  natives : Nat → Nat
  carried : Nat → Nat

namespace Heap

variable {Ty Tag : Type} [DecidableEq Ty]

def start : Heap Tag where
  objects _ := none
  objectsMade := 0
  wrappers := []
  cache _ _ := none
  natives _ := 0
  carried _ := 0

/-! ## Reference counts -/

/-- `Object::Object()`, at an address the allocator chose; its maker holds the
one reference. -/
def objectNew (address : Nat) (h : Heap Tag) : Heap Tag :=
  { h with
    objects := Function.update h.objects address (some ⟨1, h.objectsMade⟩)
    objectsMade := h.objectsMade + 1
    natives := Function.update h.natives address 1 }

/-- `Object::retain()`. -/
def retain (address : Nat) (h : Heap Tag) : Heap Tag :=
  { h with
    objects := Function.update h.objects address
      ((h.objects address).map fun o => { o with count := o.count + 1 }) }

/-- `Object::release()`: the object goes with its last reference. -/
def release (address : Nat) (h : Heap Tag) : Heap Tag :=
  { h with
    objects := Function.update h.objects address
      ((h.objects address).bind fun o =>
        if o.count = 1 then none else some { o with count := o.count - 1 }) }

/-! ## The weak cache -/

/-- `lhat_machine_weak_cache_put`; it may find no room. -/
def cachePut (machine address wrapper : Nat) (room : Bool) (h : Heap Tag) : Heap Tag :=
  if room then
    { h with
      cache := Function.update h.cache machine
        (Function.update (h.cache machine) address (some wrapper)) }
  else h

/-- `lhat_machine_weak_cache_forget`. -/
def cacheForget (machine address : Nat) (h : Heap Tag) : Heap Tag :=
  { h with
    cache := Function.update h.cache machine (Function.update (h.cache machine) address none) }

/-! ## Wrappers -/

/-- A new hostdata for the object at an address. -/
def wrapperNew (machine : Nat) (tag : Tag) (address : Nat) (h : Heap Tag) : Heap Tag :=
  { h with
    wrappers := h.wrappers ++ [⟨machine, tag, some address, false,
      ((h.objects address).map Object.serial).getD 0, 0, false⟩] }

/-- `pushObject(machine, registry, type, object)`: the wrapper answered, `none`
for nil. `made` is whether the machine makes the hostdata, `room` whether the
cache takes it. -/
def pushObject (F : Forest Ty) (registry : TypeRegistry Ty Tag) (machine : Nat) (type : Ty)
    (object : Option Nat) (made room : Bool) (h : Heap Tag) : Option Nat × Heap Tag :=
  match object with
  | none => (none, h)
  | some address =>
    match h.cache machine address with
    | some known => (some known, h)
    | none =>
      match registry.tagFor F type with
      | none => (none, h)
      | some tag =>
        if !made then (none, h)
        else
          (some h.wrappers.length,
            ((h.wrapperNew machine tag address).retain address).cachePut machine address
              h.wrappers.length room)

/-- `checkObject(value, registry, type)` on a wrapper. -/
def checkObject (F : Forest Ty) (registry : TypeRegistry Ty Tag) (type : Ty) (wrapper : Nat)
    (h : Heap Tag) : Option Nat :=
  match h.wrappers[wrapper]? with
  | none => none
  | some data =>
    if data.released || data.pointer.isNone then none
    else
      match registry.typeFor data.tag with
      | none => none
      | some own => if !F.isa own type then none else data.pointer

/-- `lh_object_dispose`, and the mark the runtime may leave on the wrapper. -/
def dispose (wrapper : Nat) (mark : Bool) (h : Heap Tag) : Heap Tag :=
  match h.wrappers[wrapper]? with
  | none => h
  | some data =>
    match data.pointer with
    | none => h
    | some address =>
      let h := (h.cacheForget data.machine address).release address
      { h with
        wrappers := h.wrappers.set wrapper
          { data with pointer := none, released := mark, releases := data.releases + 1 } }

/-! ## Steps -/

inductive HeapOp (Ty Tag : Type)
  | objectNew (address : Nat)
  | nativeRetain (address : Nat)
  | nativeRelease (address : Nat)
  | push (machine : Nat) (type : Ty) (object : Option Nat) (made room : Bool)
  | dispose (wrapper : Nat) (mark : Bool)
  | drop (wrapper : Nat)
  | finalise (wrapper : Nat) (mark : Bool)
  | carry (wrapper : Nat)
  | rebuild (machine address : Nat) (tag : Tag) (room : Bool)
  | letGo (address : Nat)

/-- The collector decides against a wrapper: no cache has it any more. -/
def drop (wrapper : Nat) (h : Heap Tag) : Heap Tag :=
  match h.wrappers[wrapper]? with
  | none => h
  | some data =>
    { h with
      wrappers := h.wrappers.set wrapper { data with dropped := true }
      cache := fun machine address =>
        if h.cache machine address = some wrapper then none else h.cache machine address }

/-- One step; `none` where it is not possible. Native code only releases what
it holds, the program only names wrappers that are reachable, and a wrapper is
only rebuilt from a carried value. -/
def step (F : Forest Ty) (registry : TypeRegistry Ty Tag) (h : Heap Tag) :
    HeapOp Ty Tag → Option (Heap Tag)
  | .objectNew address => if (h.objects address).isNone then some (h.objectNew address) else none
  | .nativeRetain address =>
    if (h.objects address).isSome then
      some { h.retain address with
        natives := Function.update h.natives address (h.natives address + 1) }
    else none
  | .nativeRelease address =>
    if 0 < h.natives address then
      some { h.release address with
        natives := Function.update h.natives address (h.natives address - 1) }
    else none
  | .push machine type object made room =>
    if ∀ address ∈ object, (h.objects address).isSome then
      some (h.pushObject F registry machine type object made room).2
    else none
  | .dispose wrapper mark =>
    match h.wrappers[wrapper]? with
    | some data => if !data.dropped then some (h.dispose wrapper mark) else none
    | none => none
  | .drop wrapper => some (h.drop wrapper)
  | .finalise wrapper mark =>
    match h.wrappers[wrapper]? with
    | some data => if data.dropped then some (h.dispose wrapper mark) else none
    | none => none
  | .carry wrapper =>
    match h.wrappers[wrapper]? with
    | some data =>
      match data.pointer with
      | some address =>
        if !data.dropped then
          some { h.retain address with
            carried := Function.update h.carried address (h.carried address + 1) }
        else none
      | none => none
    | none => none
  | .rebuild machine address tag room =>
    if 0 < h.carried address then
      some (((h.wrapperNew machine tag address).retain address).cachePut machine address
        h.wrappers.length room)
    else none
  | .letGo address =>
    if 0 < h.carried address then
      some { h.release address with
        carried := Function.update h.carried address (h.carried address - 1) }
    else none

/-- Objects and wrappers under all steps. -/
def heap (F : Forest Ty) (registry : TypeRegistry Ty Tag) : System (Heap Tag) (HeapOp Ty Tag) :=
  System.ofStep (· = start) (step F registry)

end Heap

end Lhatove.Lh
