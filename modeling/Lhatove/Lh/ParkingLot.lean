import Mathlib.Tactic

/-!
# Parking lots

A value of the L^ program that the engine keeps is parked in a table of the
machine, under a slot number. A `ParkingLot` hands out the slots of one such
table; a `Parked` object holds one slot and gives it back when it dies, which
may be inside the collector, so the table is only written at the next sweep.

The L^ runtime is not part of this repository. Its values are `Option α`, with
`none` for nil, and its tables any type with `TableOps`: a get after an
accepted set answers what was set. Whether a set is refused is an argument.
-/

namespace Lhatove.Lh

/-- What the engine relies on in a table of the L^ runtime, keyed by integers. -/
structure TableOps (T α : Type) where
  get : T → Int → Option α
  set : T → Int → Option α → T
  get_set : ∀ t k v, get (set t k v) k = v
  get_set_ne : ∀ t k k' v, k' ≠ k → get (set t k v) k' = get t k'

/-- The tables on the machines' heaps, and how often a machine was asked to
read or write one. -/
structure Memory (Tb T : Type) where
  tables : Tb → T
  touches : Nat

section Memory

variable {Tb T α : Type} [DecidableEq Tb]

/-- `lhat_machine_table_set(machine, table, lhat_integer(slot), value, &refused)`. -/
def Memory.set (ops : TableOps T α) (mem : Memory Tb T) (table : Option Tb) (slot : UInt32)
    (value : Option α) (refused : Bool) : Memory Tb T where
  tables :=
    match table with
    | none => mem.tables
    | some t =>
      if refused then mem.tables
      else Function.update mem.tables t (ops.set (mem.tables t) slot.toNat value)
  touches := mem.touches + 1

/-- `lhat_table_get(table, lhat_integer(slot))`. -/
def Memory.get (ops : TableOps T α) (mem : Memory Tb T) (table : Option Tb) (slot : UInt32) :
    Option α × Memory Tb T :=
  (table.bind fun t => ops.get (mem.tables t) slot.toNat, { mem with touches := mem.touches + 1 })

end Memory

/-! ## The lot -/

/-- `free_` is a vector used as a stack; its back is the head of the list. -/
structure ParkingLot (M Tb : Type) where
  machine_ : Option M
  table_ : Option Tb
  next_ : UInt32
  free_ : List UInt32
  pending_ : List UInt32

namespace ParkingLot

variable {M Tb T α : Type} [DecidableEq Tb]

/-- `ParkingLot::ParkingLot()`. -/
def new : ParkingLot M Tb where
  machine_ := none
  table_ := none
  next_ := 1
  free_ := []
  pending_ := []

/-- The part of `attach` and `detach` that changes the lot itself. -/
def attachTo (lot : ParkingLot M Tb) (machine : M) (table : Tb) : ParkingLot M Tb :=
  { lot with machine_ := some machine, table_ := some table }

def detached (lot : ParkingLot M Tb) : ParkingLot M Tb :=
  { lot with machine_ := none, table_ := none, pending_ := [] }

/-- The loop of `sweep`; `refused n` is whether its `n`-th write is. -/
def sweepLoop (ops : TableOps T α) (table : Option Tb) (refused : Nat → Bool) :
    Nat → List UInt32 → List UInt32 → Memory Tb T → List UInt32 × Memory Tb T
  | _, [], free, mem => (free, mem)
  | n, slot :: pending, free, mem =>
    sweepLoop ops table refused (n + 1) pending (slot :: free)
      (mem.set ops table slot none (refused n))

def sweep (ops : TableOps T α) (refused : Nat → Bool) (lot : ParkingLot M Tb)
    (mem : Memory Tb T) : ParkingLot M Tb × Memory Tb T :=
  if lot.machine_.isNone then ({ lot with pending_ := [] }, mem)
  else
    let swept := sweepLoop ops lot.table_ refused 0 lot.pending_ lot.free_ mem
    ({ lot with free_ := swept.1, pending_ := [] }, swept.2)

/-- The next slot: the last one freed, else a fresh one. -/
def takeSlot (lot : ParkingLot M Tb) : UInt32 × ParkingLot M Tb :=
  match lot.free_ with
  | slot :: rest => (slot, { lot with free_ := rest })
  | [] => (lot.next_, { lot with next_ := lot.next_ + 1 })

def park (ops : TableOps T α) (value : Option α) (refused : Bool) (sweepRefused : Nat → Bool)
    (lot : ParkingLot M Tb) (mem : Memory Tb T) : UInt32 × ParkingLot M Tb × Memory Tb T :=
  if lot.machine_.isNone || value.isNone then (0, lot, mem)
  else
    let swept := sweep ops sweepRefused lot mem
    let taken := takeSlot swept.1
    let mem := swept.2.set ops taken.2.table_ taken.1 value refused
    if refused then (0, { taken.2 with free_ := taken.1 :: taken.2.free_ }, mem)
    else (taken.1, taken.2, mem)

def get (ops : TableOps T α) (slot : UInt32) (lot : ParkingLot M Tb) (mem : Memory Tb T) :
    Option α × Memory Tb T :=
  if lot.machine_.isNone || slot == 0 then (none, mem) else mem.get ops lot.table_ slot

def releaseLater (slot : UInt32) (lot : ParkingLot M Tb) : ParkingLot M Tb :=
  if lot.machine_.isNone || slot == 0 then lot
  else { lot with pending_ := lot.pending_ ++ [slot] }

end ParkingLot

/-! ## Parked values -/

/-- A `Parked` object; `lot_` is whether it has a lot at all. -/
structure Parked where
  lot_ : Bool
  slot_ : UInt32

/-- `Parked::ok`. -/
def Parked.ok (parked : Parked) : Bool := parked.slot_ != 0

/-- A `Parked` object that is alive, with the value it was made for and whether
the lot took it. Only `parked` is there in the code. -/
structure Live (α : Type) where
  parked : Parked
  value : Option α
  accepted : Bool

/-- What happens to a slot, seen from outside. -/
inductive SlotEvent (α : Type)
  | given (slot : UInt32) (value : Option α)
  | swept (slot : UInt32)

/-- One lot, the heap its table is on, and the `Parked` objects made on it.
`log` is everything that happened to the slots, the latest first, and `closed`
the heap as it was when the lot was detached. -/
structure ParkingWorld (M Tb T α : Type) where
  lot : ParkingLot M Tb
  mem : Memory Tb T
  live : List (Live α)
  log : List (SlotEvent α)
  closed : Option (Memory Tb T)

/-- An operation, with what the runtime refuses during it. -/
inductive ParkingOp (α : Type)
  | make (withLot : Bool) (value : Option α) (refused : Bool) (sweepRefused : Nat → Bool)
  | copy (i : Nat)
  | destroy (i : Nat)
  | get (i : Nat)
  | sweep (refused : Nat → Bool)
  | detach

namespace ParkingWorld

variable {M Tb T α : Type} [DecidableEq Tb]

/-- The slots a sweep gives back now. -/
def sweptNow (w : ParkingWorld M Tb T α) : List (SlotEvent α) :=
  if w.lot.machine_.isNone then [] else w.lot.pending_.reverse.map .swept

/-- `Parked::Parked(lot, value)`. -/
def make (ops : TableOps T α) (withLot : Bool) (value : Option α) (refused : Bool)
    (sweepRefused : Nat → Bool) (w : ParkingWorld M Tb T α) : ParkingWorld M Tb T α :=
  if withLot then
    let parked := w.lot.park ops value refused sweepRefused w.mem
    let asked := !w.lot.machine_.isNone && !value.isNone
    { w with
      lot := parked.2.1
      mem := parked.2.2
      live := ⟨⟨true, parked.1⟩, value, asked && !refused⟩ :: w.live
      log :=
        if asked then
          (if refused then [] else [.given parked.1 value]) ++ w.sweptNow ++ w.log
        else w.log }
  else { w with live := ⟨⟨false, 0⟩, value, false⟩ :: w.live }

/-- `Parked::~Parked()`. -/
def destroy (h : Live α) (rest : List (Live α)) (w : ParkingWorld M Tb T α) :
    ParkingWorld M Tb T α :=
  { w with
    lot := if h.parked.lot_ then w.lot.releaseLater h.parked.slot_ else w.lot
    live := rest }

/-- `Parked::get()`. -/
def read (ops : TableOps T α) (parked : Parked) (w : ParkingWorld M Tb T α) :
    Option α × Memory Tb T :=
  if parked.lot_ then w.lot.get ops parked.slot_ w.mem else (none, w.mem)

/-- One operation; `none` when there is no such object. `Parked` has only the
implicit copy constructor, which is also what a move of one runs. -/
def step (ops : TableOps T α) (w : ParkingWorld M Tb T α) :
    ParkingOp α → Option (ParkingWorld M Tb T α)
  | .make withLot value refused sweepRefused => some (w.make ops withLot value refused sweepRefused)
  | .copy i => w.live[i]?.map fun h => { w with live := h :: w.live }
  | .destroy i => w.live[i]?.map fun h => w.destroy h (w.live.eraseIdx i)
  | .get i => w.live[i]?.map fun h => { w with mem := (w.read ops h.parked).2 }
  | .sweep refused =>
    let swept := w.lot.sweep ops refused w.mem
    some { w with lot := swept.1, mem := swept.2, log := w.sweptNow ++ w.log }
  | .detach =>
    some { w with lot := w.lot.detached, closed := some (w.closed.getD w.mem) }

/-- A lot just attached to a machine. -/
def Attached (w : ParkingWorld M Tb T α) : Prop :=
  ∃ machine table mem, w = ⟨ParkingLot.new.attachTo machine table, mem, [], [], none⟩

end ParkingWorld

end Lhatove.Lh
