import Lhatove.Lh.ParkingLot
import Lhatove.Lib.Transition

/-!
# Slots over whole runs

The slots of a lot are in three places: held by `Parked` objects, given back
and not swept, and free. `Inv` is that the three together have no slot twice
and all lie below the fresh counter; every operation moves slots between them.

- `swept_inv`, `give_inv`, `destroy_inv`: the three ways a slot moves;
- `parking_slots_safe`: what a program sees of it, in every state of every run
  in which no `Parked` is copied and the fresh counter has not wrapped.
-/

namespace Lhatove.Lh

open List
open List.Sublist (append)

/-! ## Table contents -/

namespace Memory

variable {Tb T α : Type} [DecidableEq Tb] (ops : TableOps T α) (mem : Memory Tb T)

theorem get_set_self (t : Tb) (slot : UInt32) (value : Option α) :
    ((mem.set ops (some t) slot value false).get ops (some t) slot).1 = value := by
  simp [set, get, ops.get_set]

theorem get_set_ne (table : Option Tb) {slot slot' : UInt32} (h : slot' ≠ slot)
    (value : Option α) (refused : Bool) :
    ((mem.set ops table slot value refused).get ops table slot').1 =
      (mem.get ops table slot').1 := by
  cases table with
  | none => rfl
  | some t =>
    have hkey : (slot'.toNat : Int) ≠ slot.toNat := fun heq =>
      h (UInt32.toNat_inj.mp (Int.ofNat_inj.mp heq))
    cases refused <;> simp [set, get, ops.get_set_ne _ _ _ _ hkey]

theorem get_set_refused (table : Option Tb) (slot slot' : UInt32) (value : Option α) :
    ((mem.set ops table slot value true).get ops table slot').1 =
      (mem.get ops table slot').1 := by
  cases table <;> rfl

end Memory

namespace ParkingLot

variable {Tb T α : Type} [DecidableEq Tb] (ops : TableOps T α) (table : Option Tb)
variable (refused : Nat → Bool)

theorem sweepLoop_free : ∀ (n : Nat) (pending free : List UInt32) (mem : Memory Tb T),
    (sweepLoop ops table refused n pending free mem).1 = pending.reverse ++ free
  | _, [], _, _ => rfl
  | n, slot :: pending, free, mem => by
    rw [sweepLoop, sweepLoop_free (n + 1) pending, reverse_cons, append_assoc]
    rfl

theorem sweepLoop_get {slot : UInt32} :
    ∀ (n : Nat) (pending free : List UInt32) (mem : Memory Tb T), slot ∉ pending →
      ((sweepLoop ops table refused n pending free mem).2.get ops table slot).1 =
        (mem.get ops table slot).1
  | _, [], _, _, _ => rfl
  | n, other :: pending, free, mem, h => by
    rw [mem_cons, not_or] at h
    rw [sweepLoop, sweepLoop_get (n + 1) pending _ _ h.2, Memory.get_set_ne _ _ _ h.1]

end ParkingLot

/-! ## The log -/

section Log

variable {α : Type} {log : List (SlotEvent α)} {slot : UInt32}

/-- The slot was given out, and not swept since. -/
def Outstanding (slot : UInt32) : List (SlotEvent α) → Prop
  | [] => False
  | .given other _ :: log => other = slot ∨ Outstanding slot log
  | .swept other :: log => other ≠ slot ∧ Outstanding slot log

/-- The value that the slot was last given out for. -/
def parkedIn (slot : UInt32) : List (SlotEvent α) → Option α
  | [] => none
  | .given other value :: log => if other = slot then value else parkedIn slot log
  | .swept _ :: log => parkedIn slot log

/-- Between any two times that a slot was given out, it was swept. -/
def SweptBeforeReuse : List (SlotEvent α) → Prop
  | [] => True
  | .given slot _ :: log => ¬ Outstanding slot log ∧ SweptBeforeReuse log
  | .swept _ :: log => SweptBeforeReuse log

theorem outstanding_swept :
    ∀ slots : List UInt32, Outstanding slot (slots.map .swept ++ log) ↔
      slot ∉ slots ∧ Outstanding slot log
  | [] => by simp
  | other :: slots => by
    change other ≠ slot ∧ Outstanding slot (slots.map .swept ++ log) ↔ _
    rw [outstanding_swept slots, mem_cons, not_or, ne_comm, and_assoc]

theorem parkedIn_swept :
    ∀ slots : List UInt32, parkedIn slot (slots.map .swept ++ log) = parkedIn slot log
  | [] => rfl
  | _ :: slots => parkedIn_swept slots

theorem sweptBeforeReuse_swept :
    ∀ slots : List UInt32, SweptBeforeReuse (slots.map .swept ++ log) ↔ SweptBeforeReuse log
  | [] => .rfl
  | _ :: slots => sweptBeforeReuse_swept slots

end Log

namespace ParkingWorld

variable {M Tb T α : Type} [DecidableEq Tb] {ops : TableOps T α}

/-- The slots that accepted objects hold. -/
def heldSlots (live : List (Live α)) : List UInt32 :=
  (live.filter (·.accepted)).map (·.parked.slot_)

/-- **What a run keeps**: an accepted object has a slot, and no other object
and neither list of the lot has it; a refused one has no slot, says so, and
reads nil. From when it is given out until it is swept a slot reads what it was
given out for, and it is swept before it is given out again. A detached lot has
not touched the machine. -/
structure SlotsSafe (ops : TableOps T α) (w : ParkingWorld M Tb T α) : Prop where
  accepted_ok : ∀ h ∈ w.live, h.accepted = true → h.parked.ok = true
  refused_not_ok : ∀ h ∈ w.live, h.accepted = false →
    h.parked.ok = false ∧ (w.read ops h.parked).1 = none
  distinct : (heldSlots w.live ++ w.lot.pending_ ++ w.lot.free_).Nodup
  value : w.lot.machine_.isSome → ∀ h ∈ w.live, h.accepted = true →
    (w.read ops h.parked).1 = h.value
  outstanding : w.lot.machine_.isSome → ∀ slot, Outstanding slot w.log ↔
    slot ∈ heldSlots w.live ++ w.lot.pending_
  outstanding_value : w.lot.machine_.isSome → ∀ slot, Outstanding slot w.log →
    (w.lot.get ops slot w.mem).1 = parkedIn slot w.log
  reuse : SweptBeforeReuse w.log
  closed_untouched : ∀ mem, w.closed = some mem → w.mem = mem

/-- Where the fresh counter stands; past the last slot when it has wrapped. -/
def bound (next : UInt32) : Nat := if next = 0 then 2 ^ 32 else next.toNat

/-- No slot twice, none of them null, all below the fresh counter. -/
structure Slots (next : UInt32) (slots : List UInt32) : Prop where
  nodup : slots.Nodup
  bounds : ∀ slot ∈ slots, slot ≠ 0 ∧ slot.toNat < bound next

theorem Slots.subperm {next : UInt32} {slots slots' : List UInt32} (h : Slots next slots)
    (hsub : slots'.Subperm slots) : Slots next slots' :=
  have ⟨_, hperm, hsublist⟩ := hsub
  ⟨hperm.nodup_iff.mp (hsublist.nodup h.nodup), fun slot hslot => h.bounds slot (hsub.subset hslot)⟩

/-- The invariant of the slots. -/
structure Inv (ops : TableOps T α) (w : ParkingWorld M Tb T α) : Prop where
  table : w.lot.machine_.isSome → w.lot.table_.isSome
  slots : Slots w.lot.next_ (heldSlots w.live ++ w.lot.pending_ ++ w.lot.free_)
  refused : ∀ h ∈ w.live, h.accepted = false → h.parked.slot_ = 0
  withLot : ∀ h ∈ w.live, h.accepted = true → h.parked.lot_ = true
  held : ∀ h ∈ w.live, h.accepted = true → parkedIn h.parked.slot_ w.log = h.value
  value : w.lot.machine_.isSome → ∀ slot, Outstanding slot w.log →
    (w.mem.get ops w.lot.table_ slot).1 = parkedIn slot w.log
  reuse : SweptBeforeReuse w.log
  outstanding : w.lot.machine_.isSome → ∀ slot, Outstanding slot w.log ↔
    slot ∈ heldSlots w.live ++ w.lot.pending_
  closed : ∀ mem, w.closed = some mem → w.mem = mem ∧ w.lot.machine_ = none

theorem mem_heldSlots {live : List (Live α)} {h : Live α} (hmem : h ∈ live)
    (hacc : h.accepted = true) : h.parked.slot_ ∈ heldSlots live :=
  mem_map_of_mem (mem_filter.mpr ⟨hmem, hacc⟩)

omit [DecidableEq Tb] in
theorem Inv.get_eq {w : ParkingWorld M Tb T α} (hw : w.Inv ops) (hm : w.lot.machine_.isSome)
    {slot : UInt32} (hout : Outstanding slot w.log) :
    (w.lot.get ops slot w.mem).1 = parkedIn slot w.log := by
  have hne := (hw.slots.bounds slot (mem_append_left _ ((hw.outstanding hm slot).mp hout))).1
  rw [← hw.value hm slot hout]
  unfold ParkingLot.get
  rw [if_neg]
  rw [Option.isSome_iff_ne_none] at hm
  simp [hne, hm]

omit [DecidableEq Tb] in
theorem Inv.safe {w : ParkingWorld M Tb T α} (hw : w.Inv ops) : w.SlotsSafe ops where
  accepted_ok h hmem hacc := by
    have hne := (hw.slots.bounds _ (mem_append_left _ (mem_append_left _
      (mem_heldSlots hmem hacc)))).1
    rw [Parked.ok, bne_iff_ne]
    exact hne
  refused_not_ok h hmem hacc := by
    have hzero := hw.refused h hmem hacc
    refine ⟨by rw [Parked.ok, hzero]; rfl, ?_⟩
    unfold read ParkingLot.get
    rw [hzero]
    cases h.parked.lot_ <;> simp
  distinct := hw.slots.nodup
  value hm h hmem hacc := by
    have hheld := mem_append_left w.lot.pending_ (mem_heldSlots hmem hacc)
    have hout := (hw.outstanding hm _).mpr hheld
    unfold read
    rw [if_pos (hw.withLot h hmem hacc), hw.get_eq hm hout, hw.held h hmem hacc]
  outstanding := hw.outstanding
  outstanding_value hm slot hout := hw.get_eq hm hout
  reuse := hw.reuse
  closed_untouched mem hc := (hw.closed mem hc).1

/-! ## The steps -/

/-- The world after a sweep. -/
def afterSweep (ops : TableOps T α) (refused : Nat → Bool) (w : ParkingWorld M Tb T α) :
    ParkingWorld M Tb T α :=
  { w with
    lot := (w.lot.sweep ops refused w.mem).1
    mem := (w.lot.sweep ops refused w.mem).2
    log := w.sweptNow ++ w.log }

variable {w : ParkingWorld M Tb T α}

theorem afterSweep_detached (hm : w.lot.machine_ = none) (refused : Nat → Bool) :
    w.afterSweep ops refused = { w with lot := { w.lot with pending_ := [] } } := by
  have hnone : w.lot.machine_.isNone = true := by rw [hm]; rfl
  unfold afterSweep ParkingLot.sweep sweptNow
  rw [if_pos hnone, if_pos hnone]
  rfl

theorem afterSweep_attached (hm : w.lot.machine_.isSome) (refused : Nat → Bool) :
    w.afterSweep ops refused =
      { w with
        lot := { w.lot with free_ := w.lot.pending_.reverse ++ w.lot.free_, pending_ := [] }
        mem := (ParkingLot.sweepLoop ops w.lot.table_ refused 0 w.lot.pending_ w.lot.free_ w.mem).2
        log := w.lot.pending_.reverse.map .swept ++ w.log } := by
  have hnone : ¬ w.lot.machine_.isNone = true := by
    rw [Option.isNone_iff_eq_none, ← Ne, ← Option.isSome_iff_ne_none]
    exact hm
  unfold afterSweep ParkingLot.sweep sweptNow
  rw [if_neg hnone, if_neg hnone]
  simp only [ParkingLot.sweepLoop_free]

/-- **Sweeping** moves every slot given back to the free ones. -/
theorem swept_inv (hw : w.Inv ops) (refused : Nat → Bool) : (w.afterSweep ops refused).Inv ops := by
  by_cases hm : w.lot.machine_.isSome
  · rw [afterSweep_attached hm]
    have hperm : (heldSlots w.live ++ [] ++ (w.lot.pending_.reverse ++ w.lot.free_)).Perm
        (heldSlots w.live ++ w.lot.pending_ ++ w.lot.free_) := by
      rw [append_nil, append_assoc]
      exact .append_left _ (.append_right _ (reverse_perm _))
    refine ⟨hw.table, hw.slots.subperm hperm.subperm, hw.refused, hw.withLot,
      fun h hmem hacc => ?_, fun hsome slot hout => ?_, ?_, fun hsome slot => ?_, fun mem hc => ?_⟩
    · exact (parkedIn_swept _).trans (hw.held h hmem hacc)
    · obtain ⟨hnot, hout⟩ := (outstanding_swept _).mp hout
      refine .trans ?_ ((hw.value hm slot hout).trans (parkedIn_swept _).symm)
      exact ParkingLot.sweepLoop_get ops _ refused 0 _ _ _ (mt mem_reverse.mpr hnot)
    · exact (sweptBeforeReuse_swept _).mpr hw.reuse
    · -- what is held is not among what is swept
      have hdis := (nodup_append.mp (nodup_append.mp hw.slots.nodup).1).2.2
      change Outstanding slot (w.lot.pending_.reverse.map .swept ++ w.log) ↔
        slot ∈ heldSlots w.live ++ []
      rw [outstanding_swept, mem_reverse, hw.outstanding hm slot, append_nil,
        mem_append]
      constructor
      · rintro ⟨hnot, hheld | hp⟩
        · exact hheld
        · exact absurd hp hnot
      · exact fun hheld => ⟨fun hp => hdis _ hheld _ hp rfl, .inl hheld⟩
    · rw [(hw.closed mem hc).2] at hm
      cases hm
  · have hnone : w.lot.machine_ = none := by
      rwa [Option.isSome_iff_ne_none, not_not] at hm
    rw [afterSweep_detached hnone]
    refine ⟨hw.table, hw.slots.subperm ?_, hw.refused, hw.withLot, hw.held,
      fun hsome => absurd hsome hm, hw.reuse, fun hsome => absurd hsome hm, hw.closed⟩
    exact (append (append (.refl _) (nil_sublist _))
      (.refl _)).subperm

omit [DecidableEq Tb] in
/-- The slot taken is nobody's, if the fresh counter has not wrapped. -/
theorem takeSlot_slots {lot : ParkingLot M Tb} {held : List UInt32}
    (h : Slots lot.next_ (held ++ lot.free_)) (hfresh : lot.free_ = [] → lot.next_ ≠ 0) :
    Slots lot.takeSlot.2.next_ (lot.takeSlot.1 :: (held ++ lot.takeSlot.2.free_)) := by
  unfold ParkingLot.takeSlot
  cases hfree : lot.free_ with
  | cons slot rest =>
    refine h.subperm ?_
    rw [hfree]
    exact perm_middle.symm.subperm
  | nil =>
    have hne := hfresh hfree
    have hlt : lot.next_.toNat < 2 ^ 32 := lot.next_.toNat_lt
    rw [hfree, append_nil] at h
    -- one more slot below the counter
    have hbound : bound (lot.next_ + 1) = lot.next_.toNat + 1 := by
      have hadd : (lot.next_ + 1).toNat = (lot.next_.toNat + 1) % 2 ^ 32 := UInt32.toNat_add _ _
      unfold bound
      by_cases hlast : lot.next_.toNat + 1 = 2 ^ 32
      · rw [if_pos (UInt32.toNat_inj.mp (by rw [hadd, hlast]; rfl)), hlast]
      · have hval : (lot.next_ + 1).toNat = lot.next_.toNat + 1 := by
          rw [hadd, Nat.mod_eq_of_lt (by omega)]
        have hne' : lot.next_ + 1 ≠ 0 := fun hzero => by
          rw [hzero] at hval
          exact absurd hval (Nat.succ_ne_zero _).symm
        rw [if_neg hne', hval]
    have hold : bound lot.next_ = lot.next_.toNat := if_neg hne
    refine ⟨nodup_cons.mpr ⟨fun hmem => ?_, by rw [append_nil]; exact h.nodup⟩,
      fun slot hslot => ?_⟩
    · rw [append_nil] at hmem
      have := (h.bounds _ hmem).2
      rw [hold] at this
      exact lt_irrefl _ this
    · change slot ≠ 0 ∧ slot.toNat < bound (lot.next_ + 1)
      rw [hbound]
      rcases mem_cons.mp hslot with rfl | hslot
      · exact ⟨hne, Nat.lt_succ_self _⟩
      · rw [append_nil] at hslot
        have := h.bounds slot hslot
        rw [hold] at this
        exact ⟨this.1, Nat.lt_succ_of_lt this.2⟩

/-- What `park` does after its sweep, for a value the table takes or refuses. -/
def give (ops : TableOps T α) (value : Option α) (refused : Bool) (w : ParkingWorld M Tb T α) :
    ParkingWorld M Tb T α :=
  let taken := w.lot.takeSlot
  { w with
    lot := if refused then { taken.2 with free_ := taken.1 :: taken.2.free_ } else taken.2
    mem := w.mem.set ops taken.2.table_ taken.1 value refused
    live := ⟨⟨true, if refused then 0 else taken.1⟩, value, !refused⟩ :: w.live
    log := (if refused then [] else [.given taken.1 value]) ++ w.log }

omit [DecidableEq Tb] in
theorem takeSlot_same (lot : ParkingLot M Tb) : lot.takeSlot.2.machine_ = lot.machine_ ∧
    lot.takeSlot.2.table_ = lot.table_ ∧ lot.takeSlot.2.pending_ = lot.pending_ := by
  unfold ParkingLot.takeSlot
  cases lot.free_ <;> exact ⟨rfl, rfl, rfl⟩

/-- **Parking** gives out a slot that nobody has. -/
theorem give_inv (hw : w.Inv ops) (hm : w.lot.machine_.isSome) (hpending : w.lot.pending_ = [])
    (hfresh : w.lot.free_ = [] → w.lot.next_ ≠ 0) (value : Option α)
    (refused : Bool) : (w.give ops value refused).Inv ops := by
  obtain ⟨hmachine, htable, hpend⟩ := takeSlot_same w.lot
  have hslots : Slots w.lot.takeSlot.2.next_
      (w.lot.takeSlot.1 :: (heldSlots w.live ++ w.lot.takeSlot.2.free_)) := by
    refine takeSlot_slots ?_ hfresh
    have := hw.slots
    rwa [hpending, append_nil] at this
  have hclosed : ∀ mem, w.closed ≠ some mem := by
    intro mem hc
    rw [(hw.closed mem hc).2] at hm
    cases hm
  -- nobody holds the new slot, so nobody's value changes
  have hnot : w.lot.takeSlot.1 ∉ heldSlots w.live := fun hmem =>
    (nodup_cons.mp hslots.nodup).1 (mem_append_left _ hmem)
  cases refused with
  | true =>
    refine ⟨fun _ => ?_, ?_, fun h hmem hacc => ?_, fun h hmem hacc => ?_, fun h hmem hacc => ?_,
      fun _ slot hout => ?_, hw.reuse, fun _ slot => ?_, fun mem hc => absurd hc (hclosed mem)⟩
    · change w.lot.takeSlot.2.table_.isSome = true
      rw [htable]
      exact hw.table hm
    · change Slots w.lot.takeSlot.2.next_
        (heldSlots w.live ++ w.lot.takeSlot.2.pending_ ++
          (w.lot.takeSlot.1 :: w.lot.takeSlot.2.free_))
      refine hslots.subperm ?_
      rw [hpend, hpending, append_nil]
      exact perm_middle.subperm
    · rcases mem_cons.mp hmem with rfl | hmem
      · rfl
      · exact hw.refused h hmem hacc
    · rcases mem_cons.mp hmem with rfl | hmem
      · cases hacc
      · exact hw.withLot h hmem hacc
    · rcases mem_cons.mp hmem with rfl | hmem
      · cases hacc
      · exact hw.held h hmem hacc
    · change ((w.mem.set ops w.lot.takeSlot.2.table_ w.lot.takeSlot.1 value true).get ops
        w.lot.takeSlot.2.table_ slot).1 = parkedIn slot w.log
      rw [Memory.get_set_refused, htable]
      exact hw.value hm slot hout
    · change Outstanding slot w.log ↔ slot ∈ heldSlots w.live ++ w.lot.takeSlot.2.pending_
      rw [hpend]
      exact hw.outstanding hm slot
  | false =>
    have hout : ∀ slot, Outstanding slot w.log ↔ slot ∈ heldSlots w.live := by
      intro slot
      have := hw.outstanding hm slot
      rwa [hpending, append_nil] at this
    refine ⟨fun _ => ?_, ?_, fun h hmem hacc => ?_, fun h hmem hacc => ?_, fun h hmem hacc => ?_,
      fun _ slot hslot => ?_, ⟨mt (hout _).mp hnot, hw.reuse⟩, fun _ slot => ?_,
      fun mem hc => absurd hc (hclosed mem)⟩
    · change w.lot.takeSlot.2.table_.isSome = true
      rw [htable]
      exact hw.table hm
    · change Slots w.lot.takeSlot.2.next_
        (w.lot.takeSlot.1 :: heldSlots w.live ++ w.lot.takeSlot.2.pending_ ++
          w.lot.takeSlot.2.free_)
      rw [hpend, hpending, append_nil]
      exact hslots
    · rcases mem_cons.mp hmem with rfl | hmem
      · cases hacc
      · exact hw.refused h hmem hacc
    · rcases mem_cons.mp hmem with rfl | hmem
      · rfl
      · exact hw.withLot h hmem hacc
    · rcases mem_cons.mp hmem with rfl | hmem
      · exact if_pos rfl
      · have hne : w.lot.takeSlot.1 ≠ h.parked.slot_ := fun heq =>
          hnot (heq ▸ mem_heldSlots hmem hacc)
        exact (if_neg hne).trans (hw.held h hmem hacc)
    · change ((w.mem.set ops w.lot.takeSlot.2.table_ w.lot.takeSlot.1 value false).get ops
          w.lot.takeSlot.2.table_ slot).1 =
        if w.lot.takeSlot.1 = slot then value else parkedIn slot w.log
      rw [htable]
      split
      next hslot' =>
        rw [← hslot']
        obtain ⟨t, ht⟩ := Option.isSome_iff_exists.mp (hw.table hm)
        rw [ht]
        exact Memory.get_set_self ops w.mem t _ value
      next hslot' =>
        rw [Memory.get_set_ne _ _ _ (.symm hslot')]
        exact hw.value hm slot (hslot.resolve_left hslot')
    · change w.lot.takeSlot.1 = slot ∨ Outstanding slot w.log ↔
        slot ∈ w.lot.takeSlot.1 :: heldSlots w.live ++ w.lot.takeSlot.2.pending_
      rw [hpend, hpending, append_nil, mem_cons, hout, eq_comm]

omit [DecidableEq Tb] in
theorem heldSlots_eraseIdx {live : List (Live α)} {i : Nat} {h : Live α} (hi : live[i]? = some h) :
    (heldSlots live).Perm
      ((if h.accepted then [h.parked.slot_] else []) ++ heldSlots (live.eraseIdx i)) := by
  obtain ⟨hlt, rfl⟩ := List.getElem?_eq_some_iff.mp hi
  have hperm := (List.getElem_cons_eraseIdx_perm hlt).symm
  refine ((hperm.filter _).map _).trans ?_
  cases hacc : live[i].accepted with
  | true => rw [filter_cons_of_pos hacc]; rfl
  | false => rw [filter_cons_of_neg (by rw [hacc]; exact Bool.false_ne_true)]; rfl

omit [DecidableEq Tb] in
/-- **Releasing** moves the slot of an object to those to be swept. -/
theorem destroy_inv {w : ParkingWorld M Tb T α} (hw : w.Inv ops) {i : Nat} {h : Live α}
    (hi : w.live[i]? = some h) : (w.destroy h (w.live.eraseIdx i)).Inv ops := by
  have hmem : h ∈ w.live := mem_of_getElem? hi
  have hperm := heldSlots_eraseIdx hi
  have hsub : ∀ h' ∈ w.live.eraseIdx i, h' ∈ w.live := fun h' => mem_of_mem_eraseIdx
  unfold destroy
  -- the slot goes to `pending_`, or nowhere
  have hlot : (if h.parked.lot_ then w.lot.releaseLater h.parked.slot_ else w.lot) =
      if w.lot.machine_.isSome ∧ h.accepted = true then
        { w.lot with pending_ := w.lot.pending_ ++ [h.parked.slot_] } else w.lot := by
    unfold ParkingLot.releaseLater
    cases hacc : h.accepted with
    | true =>
      have hne := (hw.slots.bounds _ (mem_append_left _ (mem_append_left _
        (mem_heldSlots hmem hacc)))).1
      rw [if_pos (hw.withLot h hmem hacc)]
      cases hm : w.lot.machine_ <;> simp [hne, hm]
    | false =>
      rw [hw.refused h hmem hacc]
      simp
  rw [hlot]
  split
  next hgive =>
    rw [hgive.2, if_pos rfl] at hperm
    have hmove : (heldSlots (w.live.eraseIdx i) ++ (w.lot.pending_ ++ [h.parked.slot_])).Perm
        (heldSlots w.live ++ w.lot.pending_) := by
      refine List.Perm.trans ?_ (List.Perm.append_right _ hperm).symm
      rw [← append_assoc]
      exact perm_append_singleton _ _
    refine ⟨hw.table, hw.slots.subperm ?_, fun h' hmem' => hw.refused h' (hsub h' hmem'),
      fun h' hmem' => hw.withLot h' (hsub h' hmem'), fun h' hmem' => hw.held h' (hsub h' hmem'),
      hw.value, hw.reuse, fun hm slot => (hw.outstanding hm slot).trans ?_, hw.closed⟩
    · exact (List.Perm.append_right _ hmove).subperm
    · exact hmove.mem_iff.symm
  next hgive =>
    refine ⟨hw.table, hw.slots.subperm ?_, fun h' hmem' => hw.refused h' (hsub h' hmem'),
      fun h' hmem' => hw.withLot h' (hsub h' hmem'), fun h' hmem' => hw.held h' (hsub h' hmem'),
      hw.value, hw.reuse, fun hm slot => (hw.outstanding hm slot).trans ?_, hw.closed⟩
    · have hheld : (heldSlots (w.live.eraseIdx i)).Sublist (heldSlots w.live) :=
        ((eraseIdx_sublist _ _).filter _).map _
      exact ((hheld.append_right _).append_right _).subperm
    · have hacc : h.accepted = false := Bool.eq_false_iff.mpr fun hacc => hgive ⟨hm, hacc⟩
      rw [hacc] at hperm
      exact (List.Perm.append_right _ hperm).mem_iff

omit [DecidableEq Tb] in
theorem get_inv {w : ParkingWorld M Tb T α} (hw : w.Inv ops) (parked : Parked) :
    ParkingWorld.Inv ops { w with mem := (w.read ops parked).2 } := by
  have htables : (w.read ops parked).2.tables = w.mem.tables := by
    unfold read ParkingLot.get
    split
    · split <;> rfl
    · rfl
  refine ⟨hw.table, hw.slots, hw.refused, hw.withLot, hw.held, fun hm slot hout => ?_, hw.reuse,
    hw.outstanding, fun mem hc => ⟨?_, (hw.closed mem hc).2⟩⟩
  · rw [← hw.value hm slot hout]
    simp only [Memory.get, htables]
  · -- a detached lot does not ask the machine
    rw [← (hw.closed mem hc).1]
    unfold read ParkingLot.get
    rw [(hw.closed mem hc).2]
    split <;> rfl

omit [DecidableEq Tb] in
theorem detach_inv {w : ParkingWorld M Tb T α} (hw : w.Inv ops) :
    ParkingWorld.Inv ops
      { w with lot := w.lot.detached, closed := some (w.closed.getD w.mem) } := by
  refine ⟨fun hm => absurd hm Bool.false_ne_true, hw.slots.subperm ?_, hw.refused, hw.withLot,
    hw.held, fun hm => absurd hm Bool.false_ne_true, hw.reuse, fun hm => absurd hm Bool.false_ne_true,
    fun mem hc => ⟨?_, rfl⟩⟩
  · exact (append (append (.refl _) (nil_sublist _))
      (.refl _)).subperm
  · cases hold : w.closed with
    | none =>
      rw [hold] at hc
      exact Option.some.inj hc
    | some mem' =>
      rw [hold] at hc
      exact (hw.closed mem' hold).1.trans (Option.some.inj hc)

/-- **Construction**: refused before the lot is asked, or a sweep and a slot. -/
theorem make_inv {w : ParkingWorld M Tb T α} (hw : w.Inv ops) (withLot : Bool) (value : Option α)
    (refused : Bool) (sweepRefused : Nat → Bool)
    (hfresh : withLot = true → value.isSome → w.lot.machine_.isSome → w.lot.pending_ = [] →
      w.lot.free_ = [] → w.lot.next_ ≠ 0) :
    (w.make ops withLot value refused sweepRefused).Inv ops := by
  -- an object the lot knows nothing of
  have hplain : ∀ lot_, ParkingWorld.Inv ops
      { w with live := ⟨⟨lot_, 0⟩, value, false⟩ :: w.live } := by
    intro lot_
    refine ⟨hw.table, hw.slots, fun h hmem hacc => ?_, fun h hmem hacc => ?_,
      fun h hmem hacc => ?_, hw.value, hw.reuse, hw.outstanding, hw.closed⟩
    all_goals rcases mem_cons.mp hmem with rfl | hmem
    · rfl
    · exact hw.refused h hmem hacc
    · cases hacc
    · exact hw.withLot h hmem hacc
    · cases hacc
    · exact hw.held h hmem hacc
  cases withLot with
  | false => exact hplain false
  | true =>
    by_cases hasked : w.lot.machine_.isSome ∧ value.isSome
    · have hm := hasked.1
      have hswept := swept_inv hw sweepRefused
      have hgive : w.make ops true value refused sweepRefused =
          (w.afterSweep ops sweepRefused).give ops value refused := by
        have hmachine : w.lot.machine_.isNone = false := Option.isNone_eq_false_iff.mpr hm
        have hvalue : value.isNone = false := Option.isNone_eq_false_iff.mpr hasked.2
        unfold make ParkingLot.park
        rw [hmachine, hvalue]
        cases refused <;> rfl
      rw [hgive]
      rw [afterSweep_attached hm] at hswept ⊢
      refine give_inv hswept hm rfl (fun hfree => ?_) value refused
      obtain ⟨hp, hf⟩ := append_eq_nil_iff.mp hfree
      exact hfresh rfl hasked.2 hm (reverse_eq_nil_iff.mp hp) hf
    · have hpark : w.make ops true value refused sweepRefused =
          { w with live := ⟨⟨true, 0⟩, value, false⟩ :: w.live } := by
        unfold make ParkingLot.park
        cases hmachine : w.lot.machine_ with
        | none => rfl
        | some machine =>
          cases value with
          | none => simp
          | some v => exact absurd ⟨by rw [hmachine]; rfl, rfl⟩ hasked
      rw [hpark]
      exact hplain true

/-! ## Runs -/

/-- No `Parked` is copied or moved, and no slot is made once the fresh counter
has wrapped to zero. -/
def SafeOp (w : ParkingWorld M Tb T α) : ParkingOp α → Prop
  | .copy _ => False
  | .make withLot value _ _ =>
    withLot = true → value.isSome → w.lot.machine_.isSome → w.lot.pending_ = [] →
      w.lot.free_ = [] → w.lot.next_ ≠ 0
  | _ => True

/-- A lot and its objects under all operations. -/
def parking (M : Type) (ops : TableOps T α) : System (ParkingWorld M Tb T α) (ParkingOp α) :=
  System.ofStep Attached (step ops)

omit [DecidableEq Tb] in
theorem attached_inv {w : ParkingWorld M Tb T α} (h : w.Attached) : w.Inv ops := by
  obtain ⟨machine, table, mem, rfl⟩ := h
  refine ⟨fun _ => rfl, ⟨nodup_nil, fun _ h => by cases h⟩, fun _ h => ?_, fun _ h => ?_,
    fun _ h => ?_, fun _ _ h => h.elim, trivial, fun _ _ => ⟨fun h => h.elim, fun h => ?_⟩,
    fun _ h => ?_⟩
  all_goals cases h

theorem step_inv {w' : ParkingWorld M Tb T α} {op : ParkingOp α} (hw : w.Inv ops)
    (hsafe : w.SafeOp op) (hstep : w.step ops op = some w') : w'.Inv ops := by
  cases op with
  | make withLot value refused sweepRefused =>
    cases Option.some.inj hstep
    exact make_inv hw withLot value refused sweepRefused hsafe
  | copy i => exact hsafe.elim
  | destroy i =>
    obtain ⟨h, hi, rfl⟩ := Option.map_eq_some_iff.mp hstep
    exact destroy_inv hw hi
  | get i =>
    obtain ⟨h, hi, rfl⟩ := Option.map_eq_some_iff.mp hstep
    exact get_inv hw h.parked
  | sweep refused =>
    cases Option.some.inj hstep
    exact swept_inv hw refused
  | detach =>
    cases Option.some.inj hstep
    exact detach_inv hw

/-- **Parking is safe** in every state of every run of safe operations. -/
theorem parking_slots_safe {w : ParkingWorld M Tb T α}
    (h : ((parking M ops).restrict SafeOp).Reachable w) : w.SlotsSafe ops :=
  Inv.safe (h.invariant_restrict (fun _ => attached_inv) fun _ _ _ hw hsafe hstep =>
    step_inv hw hsafe hstep)

end ParkingWorld

/-! ## Runs on a table that is a function -/

def functionTable (α : Type) : TableOps (Int → Option α) α where
  get t k := t k
  set t k v := Function.update t k v
  get_set := fun t k v => Function.update_self k v t
  get_set_ne := fun t _ _ v h => Function.update_of_ne h v t

namespace ParkingWorld

/-- One machine, one table, values that are units. -/
abbrev UnitWorld := ParkingWorld Unit Unit (Int → Option Unit) Unit

def attachedUnit : UnitWorld :=
  ⟨ParkingLot.new.attachTo () (), ⟨fun _ _ => none, 0⟩, [], [], none⟩

theorem attachedUnit_attached : attachedUnit.Attached := ⟨(), (), ⟨fun _ _ => none, 0⟩, rfl⟩

/-- Park a value, with nothing refused. -/
def parkUnit : ParkingOp Unit := .make true (some ()) false fun _ => false

/-- Two values parked and one of them released. -/
theorem parking_slots_safe_released : ∃ w : UnitWorld, w.live.length = 1 ∧
    w.lot.pending_ = [2] ∧ w.SlotsSafe (functionTable Unit) := by
  have hreach₁ := System.Reachable.step (S := (parking Unit (functionTable Unit)).restrict SafeOp)
    (e := parkUnit) (.init attachedUnit_attached) ⟨fun _ _ _ _ _ => by decide, rfl⟩
  have hreach₂ := System.Reachable.step (e := parkUnit) hreach₁
    ⟨fun _ _ _ _ _ => by decide, rfl⟩
  have hreach₃ := System.Reachable.step (e := (.destroy 0 : ParkingOp Unit)) hreach₂
    ⟨trivial, rfl⟩
  exact ⟨_, rfl, rfl, parking_slots_safe hreach₃⟩

theorem fresh_slots_run : ∀ n < 2 ^ 32, ∃ w : UnitWorld,
    (parking Unit (functionTable Unit)).Reachable w ∧ w.lot.machine_ = some () ∧
      w.lot.pending_ = [] ∧ w.lot.free_ = [] ∧ w.lot.next_.toNat = (n + 1) % 2 ^ 32
  | 0, _ => ⟨attachedUnit, .init attachedUnit_attached, rfl, rfl, rfl, rfl⟩
  | n + 1, hn => by
    obtain ⟨w, hreach, hm, hp, hf, hnext⟩ := fresh_slots_run n (by omega)
    obtain ⟨lot, mem, live, log, closed⟩ := w
    obtain ⟨machine, table, next, free, pending⟩ := lot
    cases hm
    cases hp
    cases hf
    refine ⟨_, .step hreach (e := parkUnit) rfl, rfl, rfl, rfl, ?_⟩
    change (next + 1).toNat = _
    rw [UInt32.toNat_add, show next.toNat = (n + 1) % 2 ^ 32 from hnext]
    change ((n + 1) % 2 ^ 32 + 1) % 2 ^ 32 = _
    omega

/-- A refused value leaves an object without a slot; a copied object shares its
slot; and after `2 ^ 32 - 1` fresh slots the next value taken is parked under
slot 0. -/
theorem parking_not_always_safe :
    (∃ w : UnitWorld, (parking Unit (functionTable Unit)).Reachable w ∧
      ∃ h ∈ w.live, h.accepted = false ∧ h.parked.slot_ = 0) ∧
    (∃ w : UnitWorld, (parking Unit (functionTable Unit)).Reachable w ∧
      ¬ (heldSlots w.live).Nodup) ∧
    (∃ w : UnitWorld, (parking Unit (functionTable Unit)).Reachable w ∧
      ∃ h ∈ w.live, h.accepted = true ∧ h.parked.slot_ = 0) := by
  refine ⟨?_, ?_, ?_⟩
  · refine ⟨_, .step (.init attachedUnit_attached) (e := .make true none false fun _ => false) rfl,
      ⟨⟨true, 0⟩, none, false⟩, mem_cons_self, rfl, rfl⟩
  · refine ⟨_, .step (.step (.init attachedUnit_attached)
      (e := parkUnit) rfl) (e := .copy 0) rfl, ?_⟩
    decide
  · obtain ⟨w, hreach, hm, hp, hf, hnext⟩ := fresh_slots_run (2 ^ 32 - 1) (by omega)
    obtain ⟨lot, mem, live, log, closed⟩ := w
    obtain ⟨machine, table, next, free, pending⟩ := lot
    cases hm
    cases hp
    cases hf
    have hzero : next = 0 := UInt32.toNat_inj.mp hnext
    refine ⟨_, .step hreach (e := parkUnit) rfl,
      ⟨⟨true, next⟩, some (), true⟩, mem_cons_self, rfl, hzero⟩

end ParkingWorld

end Lhatove.Lh
