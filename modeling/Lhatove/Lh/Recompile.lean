import Lhatove.Lh.ParkingRuns

/-!
# Compiling again

`Runtime::compile` with the lot of the runtime: each time it gets as far as the
lot, the lot is given a new table, while its slots, its free list and its counter
stay.

- `attach_inv`: where no object holds a slot, a new table is as good as the old one.
- `recompiling_keeps`: the runs in which nothing is held when a table is replaced.
-/

namespace Lhatove.Lh

/-- What the L^ runtime does during `compile`: `lhat_program_compile`,
`lhat_machine_new`, `lhat_program_install`, `lhat_machine_make_table` and
`lhat_machine_register`. -/
structure CompileAnswers (M Tb : Type) where
  compiled : Bool
  machine : Option M
  installed : Bool
  table : Option Tb
  registered : Bool

/-- A table of the L^ runtime as it is made. -/
structure EmptyTable {T α : Type} (ops : TableOps T α) where
  empty : T
  get_empty : ∀ k, ops.get empty k = none

/-- A `Runtime` with a program: its machine, and its lot with the objects made on it. -/
structure RuntimeParking (M Tb T α : Type) where
  machine_ : Option M
  parking : ParkingWorld M Tb T α

/-- The log of slots that are in use and have nothing. -/
def nothingIn {α : Type} (slots : List UInt32) : List (SlotEvent α) :=
  slots.map fun slot => .given slot none

namespace ParkingWorld

variable {M Tb T α : Type} [DecidableEq Tb]

/-- A new table on the heap. -/
def makeTable (empty : T) (table : Tb) (w : ParkingWorld M Tb T α) : ParkingWorld M Tb T α :=
  { w with mem := ⟨Function.update w.mem.tables table empty, w.mem.touches + 1⟩ }

/-- The lot takes a table. In the new table no slot has anything, which is what
the log says of those that are in use. -/
def takeTable (machine : M) (table : Tb) (w : ParkingWorld M Tb T α) : ParkingWorld M Tb T α :=
  { w with
    lot := w.lot.attachTo machine table
    log := nothingIn (heldSlots w.live ++ w.lot.pending_) }

/-- `ParkingLot::attach` -/
def attach (empty : T) (machine : M) (table : Option Tb) (registered : Bool)
    (w : ParkingWorld M Tb T α) : Bool × ParkingWorld M Tb T α :=
  match table with
  | none => (false, w)
  | some table =>
    if !registered then (false, w.makeTable empty table)
    else (true, (w.makeTable empty table).takeTable machine table)

end ParkingWorld

namespace RuntimeParking

open ParkingWorld

variable {M Tb T α : Type} [DecidableEq Tb]

/-- `Runtime::compile` -/
def compile (empty : T) (a : CompileAnswers M Tb) (s : RuntimeParking M Tb T α) :
    Bool × RuntimeParking M Tb T α :=
  if !a.compiled then (false, s)
  else
    match s.machine_ <|> a.machine with
    | none => (false, s)
    | some machine =>
      let s := { s with machine_ := some machine }
      if !a.installed then (false, s)
      else
        let attached := s.parking.attach empty machine a.table a.registered
        (attached.1, { s with parking := attached.2 })

inductive RuntimeOp (M Tb α : Type)
  | compile (a : CompileAnswers M Tb)
  | park (value : Option α) (refused : Bool) (sweepRefused : Nat → Bool)
  | get (i : Nat)
  | release (i : Nat)
  | sweep (refused : Nat → Bool)

/-- One operation; `none` where there is no such object, and where a table is said to be made at
the address of the one in use. -/
def step (ops : TableOps T α) (empty : T) (s : RuntimeParking M Tb T α) :
    RuntimeOp M Tb α → Option (RuntimeParking M Tb T α)
  | .compile a =>
    if a.table.isSome ∧ a.table = s.parking.lot.table_ then none else some (s.compile empty a).2
  | .park value refused sweepRefused =>
    (s.parking.step ops (.make true value refused sweepRefused)).map ({ s with parking := · })
  | .get i => (s.parking.step ops (.get i)).map ({ s with parking := · })
  | .release i => (s.parking.step ops (.destroy i)).map ({ s with parking := · })
  | .sweep refused => (s.parking.step ops (.sweep refused)).map ({ s with parking := · })

/-- The constructor of `Runtime`, on a heap. -/
def new (mem : Memory Tb T) : RuntimeParking M Tb T α :=
  ⟨none, ⟨ParkingLot.new, mem, [], [], none⟩⟩

def runtime (ops : TableOps T α) (empty : T) :
    System (RuntimeParking M Tb T α) (RuntimeOp M Tb α) :=
  System.ofStep (fun s => ∃ mem, s = new mem) (step ops empty)

/-- `compile` gets as far as giving the lot a table. -/
def Reattaches (a : CompileAnswers M Tb) (s : RuntimeParking M Tb T α) : Prop :=
  a.compiled = true ∧ (s.machine_ <|> a.machine).isSome ∧ a.installed = true ∧ a.table.isSome ∧
    a.registered = true

/-- No table is replaced while an object holds a slot, and no slot is made once the fresh counter
has wrapped to zero. -/
def NothingHeld (s : RuntimeParking M Tb T α) : RuntimeOp M Tb α → Prop
  | .compile a => s.Reattaches a → heldSlots s.parking.live = []
  | .park value refused sweepRefused => s.parking.SafeOp (.make true value refused sweepRefused)
  | _ => True

/-- Every object whose value was accepted reads that value. -/
def Keeps (ops : TableOps T α) (w : ParkingWorld M Tb T α) : Prop :=
  ∀ h ∈ w.live, h.accepted = true → (w.read ops h.parked).1 = h.value

end RuntimeParking

/-! ## The log of a new table -/

section Log

variable {α : Type} {slot : UInt32}

theorem outstanding_nothingIn (slots : List UInt32) :
    Outstanding slot (nothingIn slots : List (SlotEvent α)) ↔ slot ∈ slots := by
  induction slots with
  | nil => simp [nothingIn, Outstanding]
  | cons other slots ih =>
    change other = slot ∨ Outstanding slot (nothingIn slots) ↔ _
    rw [ih, List.mem_cons, eq_comm]

theorem parkedIn_nothingIn (slots : List UInt32) :
    parkedIn slot (nothingIn slots : List (SlotEvent α)) = none := by
  induction slots with
  | nil => rfl
  | cons other slots ih =>
    change (if other = slot then none else parkedIn slot (nothingIn slots)) = none
    rw [ih, ite_self]

theorem sweptBeforeReuse_nothingIn {slots : List UInt32} (h : slots.Nodup) :
    SweptBeforeReuse (nothingIn slots : List (SlotEvent α)) := by
  induction slots with
  | nil => trivial
  | cons other slots ih =>
    obtain ⟨hother, hslots⟩ := List.nodup_cons.mp h
    exact ⟨fun hout => hother ((outstanding_nothingIn slots).mp hout), ih hslots⟩

end Log

namespace ParkingWorld

variable {M Tb T α : Type} [DecidableEq Tb] {ops : TableOps T α} {w : ParkingWorld M Tb T α}

theorem makeTable_inv (hw : w.Inv ops) (hopen : w.closed = none) (empty : T) {table : Tb}
    (hne : w.lot.table_ ≠ some table) : (w.makeTable empty table).Inv ops := by
  refine { hw with value := ?_, closed := ?_ }
  · intro hm slot hout
    refine .trans ?_ (hw.value hm slot hout)
    change (w.lot.table_.bind fun t =>
        ops.get (Function.update w.mem.tables table empty t) slot.toNat) =
      w.lot.table_.bind fun t => ops.get (w.mem.tables t) slot.toNat
    cases htable : w.lot.table_ with
    | none => rfl
    | some t =>
      have ht : t ≠ table := fun heq => hne (by rw [htable, heq])
      simp only [Option.bind_some, Function.update_of_ne ht]
  · intro mem hmem
    exact absurd (hopen.symm.trans hmem) (by simp)

theorem takeTable_inv (hw : w.Inv ops) (hopen : w.closed = none) (fresh : EmptyTable ops)
    (machine : M) (table : Tb) (hheld : heldSlots w.live = []) :
    ((w.makeTable fresh.empty table).takeTable machine table).Inv ops := by
  have hlog : ((w.makeTable fresh.empty table).takeTable machine table).log =
      nothingIn (heldSlots w.live ++ w.lot.pending_) := rfl
  have hnoneAccepted : ∀ h ∈ w.live, h.accepted ≠ true := by
    intro h hmem hacc
    have := mem_heldSlots hmem hacc
    rw [hheld] at this
    cases this
  refine ⟨fun _ => rfl, hw.slots, hw.refused, hw.withLot, ?_, ?_, ?_, ?_, ?_⟩
  · intro h hmem hacc
    exact absurd hacc (hnoneAccepted h hmem)
  · intro _ slot _
    rw [hlog, parkedIn_nothingIn]
    change ops.get (Function.update w.mem.tables table fresh.empty table) slot.toNat = none
    rw [Function.update_self]
    exact fresh.get_empty _
  · exact sweptBeforeReuse_nothingIn (List.nodup_append.mp hw.slots.nodup).1
  · intro _ slot
    exact outstanding_nothingIn _
  · intro mem hmem
    exact absurd (hopen.symm.trans hmem) (by simp)

/-- A lot without a machine accepts nothing, and none accepts nil. -/
structure Attachable (ops : TableOps T α) (w : ParkingWorld M Tb T α) : Prop where
  inv : w.Inv ops
  opened : w.closed = none
  accepted : ∀ h ∈ w.live, h.accepted = true → w.lot.machine_.isSome ∧ h.value.isSome

omit [DecidableEq Tb] in
theorem Attachable.keeps (h : w.Attachable ops) : RuntimeParking.Keeps ops w := by
  intro handle hmem hacc
  exact h.inv.safe.value (h.accepted handle hmem hacc).1 handle hmem hacc

omit [DecidableEq Tb] in
theorem new_attachable (mem : Memory Tb T) :
    (⟨ParkingLot.new, mem, [], [], none⟩ : ParkingWorld M Tb T α).Attachable ops where
  inv := by
    refine ⟨?_, ⟨List.nodup_nil, ?_⟩, ?_, ?_, ?_, ?_, trivial, ?_, ?_⟩
    all_goals simp [ParkingLot.new, heldSlots]
  opened := rfl
  accepted := by simp

theorem sweep_machine (lot : ParkingLot M Tb) (refused : Nat → Bool) (mem : Memory Tb T) :
    (lot.sweep ops refused mem).1.machine_ = lot.machine_ := by
  unfold ParkingLot.sweep
  split_ifs <;> rfl

theorem park_machine (lot : ParkingLot M Tb) (value : Option α) (refused : Bool)
    (sweepRefused : Nat → Bool) (mem : Memory Tb T) :
    (lot.park ops value refused sweepRefused mem).2.1.machine_ = lot.machine_ := by
  unfold ParkingLot.park
  split_ifs
  · rfl
  all_goals exact (takeSlot_same _).1.trans (sweep_machine lot sweepRefused mem)

omit [DecidableEq Tb] in
theorem releaseLater_machine (lot : ParkingLot M Tb) (slot : UInt32) :
    (lot.releaseLater slot).machine_ = lot.machine_ := by
  unfold ParkingLot.releaseLater
  split_ifs <;> rfl

/-- Whatever is done to the objects, the lot stays where it is; only one with a machine accepts
a value, and not nil. -/
structure Stays (w w' : ParkingWorld M Tb T α) : Prop where
  closed : w'.closed = w.closed
  machine : w'.lot.machine_ = w.lot.machine_
  accepted : ∀ h ∈ w'.live, h.accepted = true →
    h ∈ w.live ∨ w.lot.machine_.isSome ∧ h.value.isSome

theorem make_stays (value : Option α) (refused : Bool) (sweepRefused : Nat → Bool) :
    w.Stays (w.make ops true value refused sweepRefused) where
  closed := rfl
  machine := park_machine w.lot value refused sweepRefused w.mem
  accepted := by
    intro h hmem hacc
    rcases List.mem_cons.mp hmem with rfl | hmem
    · right
      simp only [Bool.and_eq_true, Bool.not_eq_true', Option.isNone_eq_false_iff] at hacc
      exact hacc.1
    · exact .inl hmem

omit [DecidableEq Tb] in
theorem destroy_stays (h : Live α) (i : Nat) : w.Stays (w.destroy h (w.live.eraseIdx i)) where
  closed := rfl
  machine := by
    unfold destroy
    split_ifs
    · exact releaseLater_machine w.lot h.parked.slot_
    · rfl
  accepted _ hmem _ := Or.inl (List.mem_of_mem_eraseIdx hmem)

omit [DecidableEq Tb] in
theorem Attachable.stays {w' : ParkingWorld M Tb T α} (h : w.Attachable ops) (hinv : w'.Inv ops)
    (hstays : w.Stays w') : w'.Attachable ops where
  inv := hinv
  opened := hstays.closed.trans h.opened
  accepted := by
    intro handle hmem hacc
    rw [hstays.machine]
    rcases hstays.accepted handle hmem hacc with hold | hmachine
    · exact h.accepted handle hold hacc
    · exact hmachine

theorem Attachable.attach (h : w.Attachable ops) (fresh : EmptyTable ops) (machine : M)
    {table : Option Tb} (hnew : ¬ (table.isSome ∧ table = w.lot.table_)) {registered : Bool}
    (hheld : table.isSome → registered = true → heldSlots w.live = []) :
    (w.attach fresh.empty machine table registered).2.Attachable ops := by
  cases table with
  | none => exact h
  | some table =>
    have hne : w.lot.table_ ≠ some table := fun heq => hnew ⟨rfl, heq.symm⟩
    unfold ParkingWorld.attach
    split_ifs with hregistered
    · exact ⟨makeTable_inv h.inv h.opened fresh.empty hne, h.opened, h.accepted⟩
    · have hempty := hheld rfl (by simpa using hregistered)
      refine ⟨takeTable_inv h.inv h.opened fresh machine table hempty, h.opened, ?_⟩
      intro handle hmem hacc
      exact ⟨rfl, (h.accepted handle hmem hacc).2⟩

end ParkingWorld

/-! ## Runs -/

namespace RuntimeParking

open ParkingWorld

variable {M Tb T α : Type} [DecidableEq Tb] {ops : TableOps T α} {s s' : RuntimeParking M Tb T α}

theorem compile_attachable (h : s.parking.Attachable ops) (fresh : EmptyTable ops)
    {a : CompileAnswers M Tb} (hnew : ¬ (a.table.isSome ∧ a.table = s.parking.lot.table_))
    (hheld : s.Reattaches a → heldSlots s.parking.live = []) :
    (s.compile fresh.empty a).2.parking.Attachable ops := by
  unfold compile
  split
  · exact h
  next hcompiled =>
    cases hmachine : (s.machine_ <|> a.machine) with
    | none => exact h
    | some machine =>
      split_ifs with hinstalled
      · exact h
      · refine h.attach fresh machine hnew fun htable hregistered => hheld ?_
        refine ⟨by simpa using hcompiled, ?_, by simpa using hinstalled, htable, hregistered⟩
        rw [hmachine]
        rfl

theorem step_attachable (h : s.parking.Attachable ops) (fresh : EmptyTable ops)
    {op : RuntimeOp M Tb α} (hgood : s.NothingHeld op) (hstep : s.step ops fresh.empty op = some s') :
    s'.parking.Attachable ops := by
  cases op with
  | compile a =>
    simp only [step] at hstep
    split_ifs at hstep with hnew
    cases Option.some.inj hstep
    exact compile_attachable h fresh hnew hgood
  | park value refused sweepRefused =>
    simp only [step] at hstep
    obtain ⟨w', hw', rfl⟩ := Option.map_eq_some_iff.mp hstep
    refine h.stays (step_inv h.inv
      (show s.parking.SafeOp (.make true value refused sweepRefused) from hgood) hw') ?_
    cases Option.some.inj hw'
    exact make_stays value refused sweepRefused
  | get i =>
    obtain ⟨w', hw', rfl⟩ := Option.map_eq_some_iff.mp hstep
    refine h.stays (step_inv h.inv (show s.parking.SafeOp (.get i) from trivial) hw') ?_
    obtain ⟨handle, -, rfl⟩ := Option.map_eq_some_iff.mp hw'
    exact ⟨rfl, rfl, fun _ hmem _ => .inl hmem⟩
  | release i =>
    obtain ⟨w', hw', rfl⟩ := Option.map_eq_some_iff.mp hstep
    refine h.stays (step_inv h.inv (show s.parking.SafeOp (.destroy i) from trivial) hw') ?_
    obtain ⟨handle, -, rfl⟩ := Option.map_eq_some_iff.mp hw'
    exact destroy_stays handle i
  | sweep refused =>
    simp only [step] at hstep
    obtain ⟨w', hw', rfl⟩ := Option.map_eq_some_iff.mp hstep
    refine h.stays (step_inv h.inv (show s.parking.SafeOp (.sweep refused) from trivial) hw') ?_
    cases Option.some.inj hw'
    exact ⟨rfl, sweep_machine s.parking.lot refused s.parking.mem, fun _ hmem _ => .inl hmem⟩

/-- In every state of a run in which no table is replaced while an object holds a slot, every
object reads the value it was made for. -/
theorem recompiling_keeps (fresh : EmptyTable ops)
    (h : ((runtime ops fresh.empty).restrict NothingHeld).Reachable s) : Keeps ops s.parking := by
  have hattachable : s.parking.Attachable ops := by
    refine h.invariant_restrict (I := fun s => s.parking.Attachable ops) ?_ ?_
    · rintro _ ⟨mem, rfl⟩
      exact new_attachable mem
    · intro s op s' hs hgood hstep
      exact step_attachable hs fresh hgood hstep
  exact hattachable.keeps

/-! ## Two compiles -/

/-- A table of units as it is made. -/
def emptyUnits : EmptyTable (functionTable Unit) where
  empty _ := none
  get_empty _ := rfl

/-- The runtime of a heap of such tables. -/
abbrev UnitRuntime := RuntimeParking Unit Nat (Int → Option Unit) Unit

/-- Nothing fails, and the table is at this address. -/
def compileAt (table : Nat) : RuntimeOp Unit Nat Unit :=
  .compile ⟨true, some (), true, some table, true⟩

def parkOne : RuntimeOp Unit Nat Unit := .park (some ()) false fun _ => false

/-- A value is parked after two compiles. -/
theorem recompiling_keeps_parked :
    ∃ s : UnitRuntime, s.parking.live.length = 1 ∧ Keeps (functionTable Unit) s.parking := by
  have hreach₁ := System.Reachable.step (e := compileAt 0)
    (S := (runtime (functionTable Unit) emptyUnits.empty).restrict NothingHeld)
    (.init ⟨⟨fun _ => emptyUnits.empty, 0⟩, rfl⟩) ⟨fun _ => rfl, rfl⟩
  have hreach₂ := System.Reachable.step (e := compileAt 1) hreach₁ ⟨fun _ => rfl, rfl⟩
  have hreach₃ := System.Reachable.step (e := parkOne) hreach₂ ⟨fun _ _ _ _ _ => by decide, rfl⟩
  exact ⟨_, rfl, recompiling_keeps emptyUnits hreach₃⟩

/-- A value is parked between two compiles: its object reads nil. -/
theorem recompiling_forgets :
    ∃ s : UnitRuntime, (runtime (functionTable Unit) emptyUnits.empty).Reachable s ∧
      ∃ h ∈ s.parking.live, h.accepted = true ∧ h.value = some () ∧
        (s.parking.read (functionTable Unit) h.parked).1 = none := by
  have hreach₁ := System.Reachable.step (e := compileAt 0)
    (S := runtime (functionTable Unit) emptyUnits.empty)
    (.init ⟨⟨fun _ => emptyUnits.empty, 0⟩, rfl⟩) rfl
  have hreach₂ := System.Reachable.step (e := parkOne) hreach₁ rfl
  have hreach₃ := System.Reachable.step (e := compileAt 1) hreach₂ rfl
  exact ⟨_, hreach₃, ⟨⟨true, 1⟩, some (), true⟩, List.mem_cons_self, rfl, rfl, rfl⟩

end RuntimeParking

end Lhatove.Lh
