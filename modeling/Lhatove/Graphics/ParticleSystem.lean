import Mathlib.Tactic

/-!
# The particle system

`ParticleSystem` keeps its particles in one array, `pMem`, used from the front,
and threads a doubly linked list through the used slots: the list order is the
drawing order, the array order is the order of nothing. The class splits into
the pool (array, list and their counters) and the emitter on top of it.

Floats are a type `F` with the operations the code uses and no laws at all;
what a particle carries besides its links and its life is a type `D` that only
`initParticle` and `update` write. What the random generator and the emitter's
parameters make of a new particle is an argument of the operation that adds it.
-/

namespace Lhatove.Graphics

/-- A particle slot: which allocation, and where in it. -/
structure Addr where
  block : Nat
  slot : Nat
  deriving DecidableEq, Repr

/-- A pointer to a particle; `none` is `nullptr`. -/
abbrev Ptr := Option Addr

/-- Pointer arithmetic: `p + n`. -/
def Ptr.add (p : Ptr) (n : Nat) : Ptr := p.map fun a => { a with slot := a.slot + n }

/-- `p - 1`. -/
def Ptr.pred (p : Ptr) : Ptr := p.map fun a => { a with slot := a.slot - 1 }

/-- `ParticleSystem::Particle`. -/
structure Particle (F D : Type) where
  prev : Ptr
  next : Ptr
  life : F
  body : D

/-- `uint32` addition. -/
def u32Add (a b : Nat) : Nat := (a + b) % 2 ^ 32

/-- `uint32` subtraction. -/
def u32Sub (a b : Nat) : Nat := (a + 2 ^ 32 - b) % 2 ^ 32

inductive InsertMode
  | top
  | bottom
  | random
  deriving DecidableEq

/-- `ParticleSystem::MAX_PARTICLES`. -/
def maxParticlesLimit : Nat := 0x7FFFFFFF / 4

/-- The allocations and the list threaded through the last of them. Only the
block that `pMem` points to is allocated, and `maxParticles` is its length. -/
structure Pool (F D : Type) where
  mem : Addr → Particle F D
  blocks : Nat
  pMem : Ptr
  pFree : Ptr
  pHead : Ptr
  pTail : Ptr
  maxParticles : Nat
  activeParticles : Nat

namespace Pool

variable {F D : Type}

/-! ## Memory accesses

An access through a null or dangling pointer, or past the end of the block, is
a fault: the operation has no result. -/

/-- The address is one of the allocated slots. -/
def Allocated (s : Pool F D) (a : Addr) : Prop :=
  s.pMem = some ⟨a.block, 0⟩ ∧ a.slot < s.maxParticles

instance (s : Pool F D) (a : Addr) : Decidable (s.Allocated a) := by
  unfold Allocated; infer_instance

/-- `*p`. -/
def load (s : Pool F D) : Ptr → Option (Particle F D)
  | none => none
  | some a => if s.Allocated a then some (s.mem a) else none

/-- Change the particle at an address. -/
def modify (s : Pool F D) (a : Addr) (f : Particle F D → Particle F D) : Pool F D :=
  { s with mem := Function.update s.mem a (f (s.mem a)) }

/-- `p->… = …`. -/
def store (s : Pool F D) (f : Particle F D → Particle F D) : Ptr → Option (Pool F D)
  | none => none
  | some a => if s.Allocated a then some (s.modify a f) else none

/-- `p->next = v`. -/
def storeNext (s : Pool F D) (p v : Ptr) : Option (Pool F D) :=
  s.store (fun q => { q with next := v }) p

/-- `p->prev = v`. -/
def storePrev (s : Pool F D) (p v : Ptr) : Option (Pool F D) :=
  s.store (fun q => { q with prev := v }) p

/-! ## Insertion and removal -/

def insertTop (s : Pool F D) (p : Addr) : Option (Pool F D) := do
  let s ←
    if s.pHead = none then
      storePrev { s with pHead := some p } (some p) none
    else do
      let s ← s.storeNext s.pTail (some p)
      s.storePrev (some p) s.pTail
  let s ← s.storeNext (some p) none
  pure { s with pTail := some p }

def insertBottom (s : Pool F D) (p : Addr) : Option (Pool F D) := do
  let s ←
    if s.pTail = none then
      storeNext { s with pTail := some p } (some p) none
    else do
      let s ← s.storePrev s.pHead (some p)
      s.storeNext (some p) s.pHead
  let s ← s.storePrev (some p) none
  pure { s with pHead := some p }

/-- `rand` is what `rng.rand()` returns. -/
def insertRandom (s : Pool F D) (rand : Nat) (p : Addr) : Option (Pool F D) := do
  let pos := rand % (s.activeParticles + 1)
  if pos = s.activeParticles then
    let pA := s.pHead
    let s ← if pA = none then pure s else s.storePrev pA (some p)
    let s ← s.storePrev (some p) none
    let s ← s.storeNext (some p) pA
    pure { s with pHead := some p }
  else
    let pA := Ptr.add s.pMem pos
    let pB := (← s.load pA).next
    let s ← s.storeNext pA (some p)
    let s ← if pB = none then pure { s with pTail := some p } else s.storePrev pB (some p)
    let s ← s.storePrev (some p) pA
    s.storeNext (some p) pB

/-- The switch over `insertMode` in `addParticle`. -/
def insert (s : Pool F D) (mode : InsertMode) (rand : Nat) (p : Addr) : Option (Pool F D) :=
  match mode with
  | .top => s.insertTop p
  | .bottom => s.insertBottom p
  | .random => s.insertRandom rand p

/-- `if (p->prev) p->prev->next = v; else pHead = v;` -/
def linkFromPrev (s : Pool F D) (p : Addr) (v : Ptr) : Option (Pool F D) := do
  let q ← s.load (some p)
  if q.prev = none then pure { s with pHead := v } else s.storeNext q.prev v

/-- `if (p->next) p->next->prev = v; else pTail = v;` -/
def linkFromNext (s : Pool F D) (p : Addr) (v : Ptr) : Option (Pool F D) := do
  let q ← s.load (some p)
  if q.next = none then pure { s with pTail := v } else s.storePrev q.next v

/-- The new pool, and the pointer to the particle after the removed one. -/
def removeParticle (s : Pool F D) (p : Addr) : Option (Pool F D × Ptr) := do
  let s ← s.linkFromPrev p (← s.load (some p)).next
  let s ← s.linkFromNext p (← s.load (some p)).prev
  let pNext := (← s.load (some p)).next
  let s := { s with pFree := Ptr.pred s.pFree }
  if some p ≠ s.pFree then
    -- the last slot of the array moves into the hole
    let last ← s.load s.pFree
    let s ← s.store (fun _ => last) (some p)
    let pNext := if pNext = s.pFree then some p else pNext
    let s ← s.linkFromPrev p (some p)
    let s ← s.linkFromNext p (some p)
    pure ({ s with activeParticles := u32Sub s.activeParticles 1 }, pNext)
  else
    pure ({ s with activeParticles := u32Sub s.activeParticles 1 }, pNext)

def isFull (s : Pool F D) : Bool := s.activeParticles == s.maxParticles

/-! ## Buffers -/

def deleteBuffers (s : Pool F D) : Pool F D :=
  { s with pMem := none, maxParticles := 0, activeParticles := 0 }

/-- How an attempt to allocate ends: `new Particle[size]` or the vertex buffer
runs out of memory, or creating the vertex buffer fails for another reason. -/
inductive Alloc
  | ok
  | badAlloc
  | particlesThenBadAlloc
  | bufferError (message : String)
  deriving DecidableEq

/-- The new pool, and the text of the exception thrown, if any. The new block's
contents are whatever its memory holds. -/
def createBuffers (s : Pool F D) (size : Nat) (alloc : Alloc) : Pool F D × Option String :=
  let fresh : Pool F D :=
    { s with blocks := s.blocks + 1, pMem := some ⟨s.blocks, 0⟩, pFree := some ⟨s.blocks, 0⟩,
             maxParticles := size }
  match alloc with
  | .ok => (fresh, none)
  | .badAlloc => (s.deleteBuffers, some "Out of memory")
  | .particlesThenBadAlloc => (fresh.deleteBuffers, some "Out of memory")
  | .bufferError message => (fresh, some message)

end Pool

/-! ## The emitter -/

structure ParticleSystem (F D : Type) extends Pool F D where
  active : Bool
  insertMode : InsertMode
  emissionRate : F
  emitCounter : F
  lifetime : F
  life : F

/-- What one call of `addParticle(t)` gets from the random generator and the
emitter's parameters: the particle's life and body, and where `insertRandom`
puts it. -/
structure Spawn (F D : Type) where
  initial : F → F × D
  rand : Nat

namespace ParticleSystem

open Pool

variable {F D : Type}

def addParticle (t : F) (spawn : Spawn F D) (s : ParticleSystem F D) :
    Option (ParticleSystem F D) := do
  if s.isFull then
    pure s
  else
    let p ← s.pFree
    let pool ← Pool.store { s.toPool with pFree := Ptr.add s.pFree 1 }
      (fun q => { q with life := (spawn.initial t).1, body := (spawn.initial t).2 }) (some p)
    let pool ← pool.insert s.insertMode spawn.rand p
    pure { s with toPool := { pool with activeParticles := u32Add pool.activeParticles 1 } }

section Floats

variable [Zero F] [One F] [Neg F] [Add F] [Sub F] [Div F] [LT F] [LE F] [BEq F]
variable [DecidableLT F] [DecidableLE F]

def reset (s : ParticleSystem F D) : ParticleSystem F D :=
  if s.pMem = none then s
  else
    { s with pFree := s.pMem, pHead := none, pTail := none, activeParticles := 0,
             life := s.lifetime, emitCounter := 0 }

def start (s : ParticleSystem F D) : ParticleSystem F D := { s with active := true }

def stop (s : ParticleSystem F D) : ParticleSystem F D :=
  { s with active := false, life := s.lifetime, emitCounter := 0 }

def pause (s : ParticleSystem F D) : ParticleSystem F D := { s with active := false }

def setInsertMode (mode : InsertMode) (s : ParticleSystem F D) : ParticleSystem F D :=
  { s with insertMode := mode }

def setEmissionRate (rate : F) (s : ParticleSystem F D) : ParticleSystem F D × Option String :=
  if rate < 0 then (s, some "Invalid emission rate")
  else
    -- std::min
    let counter := if 1 / rate < s.emitCounter then 1 / rate else s.emitCounter
    ({ s with emissionRate := rate, emitCounter := counter }, none)

def setEmitterLifetime (life : F) (s : ParticleSystem F D) : ParticleSystem F D :=
  { s with lifetime := life, life := life }

def setBufferSize (size : Nat) (alloc : Pool.Alloc) (s : ParticleSystem F D) :
    ParticleSystem F D × Option String :=
  if size = 0 ∨ maxParticlesLimit < size then (s, some "Invalid buffer size")
  else
    let made := s.deleteBuffers.createBuffers size alloc
    match made.2 with
    | none => (reset { s with toPool := made.1 }, none)
    | some message => ({ s with toPool := made.1 }, some message)

/-- Memory before anything has been allocated. -/
def noBuffers (mem : Addr → Particle F D) : Pool F D where
  mem := mem
  blocks := 0
  pMem := none
  pFree := none
  pHead := none
  pTail := none
  maxParticles := 0
  activeParticles := 0

/-- The constructor; an exception leaves no object. -/
def construct (mem : Addr → Particle F D) (texture2D : Bool) (size : Nat) (alloc : Pool.Alloc) :
    Except String (ParticleSystem F D) :=
  if size = 0 ∨ maxParticlesLimit < size then .error "Invalid ParticleSystem size."
  else if !texture2D then .error "Only 2D textures can be used with ParticleSystems."
  else
    let made := setBufferSize size alloc
      { toPool := noBuffers mem, active := true, insertMode := .top, emissionRate := 0,
        emitCounter := 0, lifetime := -1, life := 0 }
    match made.2 with
    | none => .ok made.1
    | some message => .error message

/-- The copy constructor, with memory of its own. -/
def clone (mem : Addr → Particle F D) (alloc : Pool.Alloc) (p : ParticleSystem F D) :
    Except String (ParticleSystem F D) :=
  let made := setBufferSize p.maxParticles alloc
    { toPool := { noBuffers mem with maxParticles := p.maxParticles }, active := p.active,
      insertMode := p.insertMode, emissionRate := p.emissionRate, emitCounter := 0,
      lifetime := p.lifetime, life := p.lifetime }
  match made.2 with
  | none => .ok made.1
  | some message => .error message

/-- The loop `while (num--) addParticle(1.0f)`. -/
def addParticles (spawn : Nat → Spawn F D) : Nat → ParticleSystem F D → Option (ParticleSystem F D)
  | 0, s => some s
  | num + 1, s => do addParticles spawn num (← addParticle 1 (spawn num) s)

def emit (num : Nat) (spawn : Nat → Spawn F D) (s : ParticleSystem F D) :
    Option (ParticleSystem F D) :=
  if !s.active then some s
  else addParticles spawn (min num (u32Sub s.maxParticles s.activeParticles)) s

/-- The first loop of `update`: every particle ages, the dead ones are removed
and the others move on. -/
def age (dt : F) (move : F → D → D) : Nat → Ptr → Pool F D → Option (Pool F D)
  | _, none, s => some s
  | 0, some _, _ => none
  | fuel + 1, some p, s => do
    let s ← s.store (fun q => { q with life := q.life - dt }) (some p)
    let q ← s.load (some p)
    if q.life ≤ 0 then
      let (s, pNext) ← s.removeParticle p
      age dt move fuel pNext s
    else
      let s ← s.store (fun q => { q with body := move q.life q.body }) (some p)
      age dt move fuel (← s.load (some p)).next s

/-- The loop `while (emitCounter > rate)`; `n` counts its rounds. -/
def emitDue (rate total : F) (spawn : Nat → Spawn F D) :
    Nat → Nat → ParticleSystem F D → Option (ParticleSystem F D)
  | 0, _, _ => none
  | fuel + 1, n, s =>
    if rate < s.emitCounter then do
      let s ← addParticle (1 - (s.emitCounter - rate) / total) (spawn n) s
      emitDue rate total spawn fuel (n + 1) { s with emitCounter := s.emitCounter - rate }
    else some s

/-- `update(dt)`: no result when a pointer faults, or when `fuel` rounds are not
enough for one of the loops. -/
def update (fuel : Nat) (dt : F) (move : F → D → D) (spawn : Nat → Spawn F D)
    (s : ParticleSystem F D) : Option (ParticleSystem F D) :=
  if s.pMem = none || dt == 0 then some s
  else do
    let pool ← age dt move fuel s.pHead s.toPool
    let s := { s with toPool := pool }
    if s.active then
      let rate := 1 / s.emissionRate
      let s := { s with emitCounter := s.emitCounter + dt }
      let s ← emitDue rate (s.emitCounter - rate) spawn fuel 0 s
      let s := { s with life := s.life - dt }
      pure (if s.lifetime != -1 && decide (s.life < 0) then s.stop else s)
    else
      pure s

/-! ## Operations -/

/-- A call on a particle system, with its arguments and what the environment
chooses during it. -/
inductive Op (F D : Type)
  | setBufferSize (size : Nat) (alloc : Pool.Alloc)
  | setInsertMode (mode : InsertMode)
  | setEmissionRate (rate : F)
  | setEmitterLifetime (life : F)
  | emit (num : Nat) (spawn : Nat → Spawn F D)
  | update (fuel : Nat) (dt : F) (move : F → D → D) (spawn : Nat → Spawn F D)
  | reset
  | start
  | stop
  | pause

/-- The state after a call, whether it returned or threw. -/
def step (s : ParticleSystem F D) : Op F D → Option (ParticleSystem F D)
  | .setBufferSize size alloc => some (setBufferSize size alloc s).1
  | .setInsertMode mode => some (setInsertMode mode s)
  | .setEmissionRate rate => some (setEmissionRate rate s).1
  | .setEmitterLifetime life => some (setEmitterLifetime life s)
  | .emit num spawn => emit num spawn s
  | .update fuel dt move spawn => update fuel dt move spawn s
  | .reset => some (reset s)
  | .start => some (start s)
  | .stop => some (stop s)
  | .pause => some (pause s)

/-- A new object: constructed, or cloned from another. -/
def Created (s : ParticleSystem F D) : Prop :=
  (∃ mem texture2D size alloc, construct mem texture2D size alloc = .ok s) ∨
  (∃ mem alloc p, clone mem alloc p = .ok s)

end Floats

end ParticleSystem

end Lhatove.Graphics
