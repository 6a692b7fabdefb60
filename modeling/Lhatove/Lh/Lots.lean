import Lhatove.Lh.ParkingLot
import Lhatove.Lib.Transition

/-!
# Which lot is attached to which machine

`lots()` is keyed by the machine's address and outlives the machine: an entry
goes when its lot is detached. `Runtime` and `disposeMachine` detach; a machine
of `std.thread` gets its lot on demand, in `lotOf`, and ends without a word to
the engine, and a later machine may be made at the same address.

Machines are numbered in the order they are made, which no two share; a table
is named by the machine whose heap it is on.

- `MadeClean`: the steps that make no machine at an address with an entry,
  unless they replace the entry;
- `lotOf_current`: over such runs `lotOf` answers for the machine that is there;
- `lotOf_stale`: two workers at one address, and the second is given the
  first one's lot.
-/

namespace Lhatove.Lh

open Function

/-- Who made a machine and ends it. -/
inductive Keeper
  | runtime (r : Nat)
  | spawned
  | worker
  deriving DecidableEq

/-- A machine that is alive: its number, and who ends it. -/
structure Machine where
  number : Nat
  keeper : Keeper

/-- `Runtime::machine_` and `Runtime::lot_`. -/
structure RuntimeState where
  machine_ : Option Nat
  lot_ : Nat

/-- The machines by address, `lots()`, the lots by number, and the runtimes.
`attachments` is every machine that a lot was ever attached to. -/
structure Lots where
  machines : Nat → Option Machine
  machinesMade : Nat
  lots : Nat → Option Nat
  objects : Nat → ParkingLot Nat Nat
  lotsMade : Nat
  runtimes : Nat → Option RuntimeState
  attachments : Nat → List Nat

namespace Lots

/-- Before `main`. -/
def start : Lots where
  machines _ := none
  machinesMade := 0
  lots _ := none
  objects _ := ParkingLot.new
  lotsMade := 0
  runtimes _ := none
  attachments _ := []

/-- `lhat_machine_new`, at an address the allocator chose. -/
def machineNew (address : Nat) (keeper : Keeper) (w : Lots) : Lots :=
  { w with
    machines := Function.update w.machines address (some ⟨w.machinesMade, keeper⟩)
    machinesMade := w.machinesMade + 1 }

/-- `lhat_machine_dispose`. -/
def machineDispose (address : Nat) (w : Lots) : Lots :=
  { w with machines := Function.update w.machines address none }

/-- `new ParkingLot()`. -/
def lotNew (w : Lots) : Nat × Lots :=
  (w.lotsMade, { w with lotsMade := w.lotsMade + 1 })

/-- What `attach` does when it succeeds. -/
def attached (lot address number : Nat) (w : Lots) : Lots :=
  { w with
    objects := Function.update w.objects lot ((w.objects lot).attachTo address number)
    lots := Function.update w.lots address (some lot)
    attachments := Function.update w.attachments lot (number :: w.attachments lot) }

/-- `ParkingLot::attach(machine)`; `granted` is whether the machine makes the
table and registers it. -/
def attach (lot address : Nat) (granted : Bool) (w : Lots) : Bool × Lots :=
  match granted, w.machines address with
  | true, some machine => (true, w.attached lot address machine.number)
  | _, _ => (false, w)

/-- `ParkingLot::detach()`. -/
def detach (lot : Nat) (w : Lots) : Lots :=
  { w with
    lots :=
      match (w.objects lot).machine_ with
      | some address => Function.update w.lots address none
      | none => w.lots
    objects := Function.update w.objects lot (w.objects lot).detached }

/-- `ParkingLot::lotOf(machine)`. -/
def lotOf (address : Nat) (granted : Bool) (w : Lots) : Option Nat × Lots :=
  match w.lots address with
  | some lot => (some lot, w)
  | none =>
    let made := w.lotNew
    let attached := made.2.attach made.1 address granted
    (if attached.1 then some made.1 else none, attached.2)

inductive LotsOp
  | runtimeNew (r : Nat)
  | compile (r : Nat) (address : Nat) (granted : Bool)
  | runtimeDelete (r : Nat)
  | spawnMachine (address : Nat) (granted : Bool)
  | disposeMachine (address : Nat) (granted : Bool)
  | workerStart (address : Nat)
  | workerEnd (address : Nat)
  | binding (address : Nat) (granted : Bool)

def setRuntime (r : Nat) (rt : Option RuntimeState) (w : Lots) : Lots :=
  { w with runtimes := Function.update w.runtimes r rt }

/-- `Runtime::Runtime()`. -/
def runtimeNew (r : Nat) (w : Lots) : Lots :=
  w.lotNew.2.setRuntime r (some ⟨none, w.lotNew.1⟩)

/-- `Runtime::compile()`, once the program is compiled and installed. -/
def compile (r : Nat) (rt : RuntimeState) (address : Nat) (granted : Bool) (w : Lots) : Lots :=
  match rt.machine_ with
  | some old => (w.attach rt.lot_ old granted).2
  | none =>
    (((w.machineNew address (.runtime r)).setRuntime r
      (some { rt with machine_ := some address })).attach rt.lot_ address granted).2

/-- `Runtime::~Runtime()`. -/
def runtimeDelete (r : Nat) (rt : RuntimeState) (w : Lots) : Lots :=
  let w := w.detach rt.lot_
  let w :=
    match rt.machine_ with
    | some address => w.machineDispose address
    | none => w
  w.setRuntime r none

/-- `Runtime::spawnMachine(program)`. -/
def spawnMachine (address : Nat) (granted : Bool) (w : Lots) : Lots :=
  let made := (w.machineNew address .spawned).lotNew
  let attached := made.2.attach made.1 address granted
  if attached.1 then attached.2 else attached.2.machineDispose address

/-- `Runtime::disposeMachine(machine)`. -/
def disposeMachine (address : Nat) (granted : Bool) (w : Lots) : Lots :=
  let found := w.lotOf address granted
  let w :=
    match found.1 with
    | some lot => found.2.detach lot
    | none => found.2
  w.machineDispose address

/-- One step; `none` where it is not possible: a machine is made at an address
where none lives, ended by its keeper, and asked for its lot while it lives. -/
def step (w : Lots) : LotsOp → Option Lots
  | .runtimeNew r => if (w.runtimes r).isNone then some (w.runtimeNew r) else none
  | .compile r address granted =>
    (w.runtimes r).bind fun rt =>
      if rt.machine_.isSome ∨ (w.machines address).isNone then
        some (w.compile r rt address granted)
      else none
  | .runtimeDelete r => (w.runtimes r).map fun rt => w.runtimeDelete r rt
  | .spawnMachine address granted =>
    if (w.machines address).isNone then some (w.spawnMachine address granted) else none
  | .disposeMachine address granted =>
    if (w.machines address).map Machine.keeper = some .spawned then
      some (w.disposeMachine address granted)
    else none
  | .workerStart address =>
    if (w.machines address).isNone then some (w.machineNew address .worker) else none
  | .workerEnd address =>
    -- `threadFinished` is told, and does nothing about lots
    if (w.machines address).map Machine.keeper = some .worker then
      some (w.machineDispose address)
    else none
  | .binding address granted =>
    if (w.machines address).isSome then some (w.lotOf address granted).2 else none

def calls : System Lots LotsOp := System.ofStep (· = start) step

/-! ## The invariant -/

/-- The lot is attached to the machine at this address: it knows the address,
its table is on that machine's heap, and no other machine has ever had it. -/
def Current (w : Lots) (address number lot : Nat) : Prop :=
  (w.objects lot).machine_ = some address ∧ (w.objects lot).table_ = some number ∧
    ∀ n ∈ w.attachments lot, n = number

/-- The steps that make no machine where an entry was left behind, unless they
replace the entry. -/
def MadeClean (w : Lots) : LotsOp → Prop
  | .workerStart address => w.lots address = none
  | .compile r address granted =>
    granted = false → (∀ rt, w.runtimes r = some rt → rt.machine_ = none) → w.lots address = none
  | _ => True

/-- The entries are of lots attached there, an entry of a living machine is
current except where `stale` says otherwise, and the lot of a runtime has never
been on another machine than the runtime's. -/
structure Inv (stale : Nat → Prop) (w : Lots) : Prop where
  current : ∀ address lot machine, ¬ stale address → w.lots address = some lot →
    w.machines address = some machine → w.Current address machine.number lot
  entry : ∀ address lot, w.lots address = some lot → (w.objects lot).machine_ = some address
  lotsMade : ∀ address lot, w.lots address = some lot → lot < w.lotsMade
  fresh : ∀ lot, w.lotsMade ≤ lot → w.objects lot = ParkingLot.new ∧ w.attachments lot = []
  runtimeLot : ∀ r rt, w.runtimes r = some rt → rt.lot_ < w.lotsMade
  runtimeInj : ∀ r r' rt rt', w.runtimes r = some rt → w.runtimes r' = some rt' →
    rt.lot_ = rt'.lot_ → r = r'
  runtimeIdle : ∀ r rt, w.runtimes r = some rt → rt.machine_ = none →
    (w.objects rt.lot_).machine_ = none ∧ w.attachments rt.lot_ = []
  runtimeMachine : ∀ r rt address, w.runtimes r = some rt → rt.machine_ = some address →
    ∃ number, w.machines address = some ⟨number, .runtime r⟩ ∧
      (∀ n ∈ w.attachments rt.lot_, n = number) ∧
      ∀ other, (w.objects rt.lot_).machine_ = some other → other = address

/-- No entry is stale. -/
abbrev Clean (w : Lots) : Prop := w.Inv fun _ => False

variable {w : Lots}

variable {address : Nat}

theorem Inv.clean (h : w.Inv (· = address)) (hentry : w.lots address = none) : w.Clean := by
  refine { h with current := fun a lot machine _ hlot hm => ?_ }
  refine h.current a lot machine (fun ha => ?_) hlot hm
  rw [ha, hentry] at hlot
  cases hlot

theorem start_clean : start.Clean := by
  refine ⟨?_, ?_, ?_, fun lot _ => ⟨rfl, rfl⟩, ?_, ?_, ?_, ?_⟩
  all_goals intros; contradiction

/-- A new machine, where an entry may have been left behind. -/
theorem machineNew_inv (h : w.Clean) (hfree : w.machines address = none)
    (keeper : Keeper) : (w.machineNew address keeper).Inv (· = address) := by
  have hother : ∀ a, a ≠ address → (w.machineNew address keeper).machines a = w.machines a :=
    fun a ha => update_of_ne ha _ _
  refine { h with current := fun a lot machine ha hlot hm => ?_, runtimeMachine := ?_ }
  · rw [hother a ha] at hm
    exact h.current a lot machine id hlot hm
  · intro r rt a hr ha
    obtain ⟨number, hm, hrest⟩ := h.runtimeMachine r rt a hr ha
    refine ⟨number, ?_, hrest⟩
    rw [hother a fun heq => by rw [heq, hfree] at hm; cases hm]
    exact hm

theorem lotNew_inv {stale : Nat → Prop} (h : w.Inv stale) : w.lotNew.2.Inv stale := by
  refine { h with lotsMade := ?_, fresh := ?_, runtimeLot := ?_ }
  · exact fun a lot hlot => Nat.lt_succ_of_lt (h.lotsMade a lot hlot)
  · exact fun lot hlot => h.fresh lot (Nat.le_of_succ_le hlot)
  · exact fun r rt hr => Nat.lt_succ_of_lt (h.runtimeLot r rt hr)

variable {lot : Nat} {machine : Machine}

/-- **Attaching** makes the entry current, whatever it was. -/
theorem attached_inv (h : w.Inv (· = address)) (hm : w.machines address = some machine)
    (hobject : ∀ other, (w.objects lot).machine_ = some other → other = address)
    (hattach : ∀ n ∈ w.attachments lot, n = machine.number) (hlot : lot < w.lotsMade)
    (hruntime : ∀ r rt, w.runtimes r = some rt → rt.lot_ = lot → rt.machine_ = some address) :
    (w.attached lot address machine.number).Clean := by
  set w' := w.attached lot address machine.number with hw'
  have hself : w'.lots address = some lot := update_self ..
  have hother : ∀ a, a ≠ address → w'.lots a = w.lots a :=
    fun a ha => update_of_ne ha _ _
  have hobjSelf : w'.objects lot = (w.objects lot).attachTo address machine.number :=
    update_self ..
  have hobj : ∀ l, l ≠ lot → w'.objects l = w.objects l :=
    fun l hl => update_of_ne hl _ _
  have hatt : ∀ l, l ≠ lot → w'.attachments l = w.attachments l :=
    fun l hl => update_of_ne hl _ _
  have hnumber : ∀ n ∈ w'.attachments lot, n = machine.number := by
    rw [show w'.attachments lot = _ from update_self ..]
    exact fun n hn => (List.mem_cons.mp hn).elim id (hattach n)
  -- the lot attached now has no entry elsewhere
  have hne : ∀ a l, a ≠ address → w.lots a = some l → l ≠ lot := by
    rintro a l ha hl rfl
    exact ha (hobject a (h.entry a l hl))
  refine ⟨?_, ?_, ?_, ?_, h.runtimeLot, h.runtimeInj, ?_, ?_⟩
  · intro a l m _ hl hma
    by_cases ha : a = address
    · subst ha
      obtain rfl : lot = l := Option.some.inj (hself.symm.trans hl)
      obtain rfl : machine = m := Option.some.inj (hm.symm.trans hma)
      exact ⟨by rw [hobjSelf]; rfl, by rw [hobjSelf]; rfl, hnumber⟩
    · rw [hother a ha] at hl
      have hcur := h.current a l m ha hl hma
      unfold Current at hcur ⊢
      rwa [hobj l (hne a l ha hl), hatt l (hne a l ha hl)]
  · intro a l hl
    by_cases ha : a = address
    · subst ha
      obtain rfl : lot = l := Option.some.inj (hself.symm.trans hl)
      rw [hobjSelf]
      rfl
    · rw [hother a ha] at hl
      rw [hobj l (hne a l ha hl)]
      exact h.entry a l hl
  · intro a l hl
    by_cases ha : a = address
    · subst ha
      obtain rfl : lot = l := Option.some.inj (hself.symm.trans hl)
      exact hlot
    · rw [hother a ha] at hl
      exact h.lotsMade a l hl
  · intro l hl
    have hne' : l ≠ lot := by
      rintro rfl
      exact absurd hlot (Nat.not_lt.mpr hl)
    rw [hobj l hne', hatt l hne']
    exact h.fresh l hl
  · intro r rt hr hnone
    have hne' : rt.lot_ ≠ lot := fun heq => by
      rw [hruntime r rt hr heq] at hnone
      cases hnone
    rw [hobj _ hne', hatt _ hne']
    exact h.runtimeIdle r rt hr hnone
  · intro r rt a hr ha
    obtain ⟨number, hma, hnum, honly⟩ := h.runtimeMachine r rt a hr ha
    refine ⟨number, hma, ?_⟩
    by_cases heq : rt.lot_ = lot
    · obtain rfl : a = address := Option.some.inj (ha.symm.trans (hruntime r rt hr heq))
      cases hm.symm.trans hma
      rw [heq, hobjSelf]
      exact ⟨hnumber, fun other ho => (Option.some.inj ho).symm⟩
    · rw [hobj _ heq, hatt _ heq]
      exact ⟨hnum, honly⟩

/-- **Detaching** takes the entry out. -/
theorem detach_inv (h : w.Clean) (lot : Nat) : (w.detach lot).Clean := by
  set w' := w.detach lot with hw'
  have hobjSelf : w'.objects lot = (w.objects lot).detached := update_self ..
  have hobj : ∀ l, l ≠ lot → w'.objects l = w.objects l :=
    fun l hl => update_of_ne hl _ _
  -- what is still there was there before, and is not of this lot
  have hlots : ∀ a l, w'.lots a = some l → w.lots a = some l ∧ l ≠ lot := by
    intro a l hl
    change (match (w.objects lot).machine_ with
      | some address => update w.lots address none
      | none => w.lots) a = some l at hl
    cases hm : (w.objects lot).machine_ with
    | none =>
      rw [hm] at hl
      refine ⟨hl, ?_⟩
      rintro rfl
      rw [h.entry a l hl] at hm
      cases hm
    | some address =>
      rw [hm] at hl
      change update w.lots address none a = some l at hl
      by_cases ha : a = address
      · subst ha
        rw [update_self] at hl
        cases hl
      · rw [update_of_ne ha] at hl
        refine ⟨hl, ?_⟩
        rintro rfl
        rw [h.entry a l hl] at hm
        exact ha (Option.some.inj hm)
  refine ⟨?_, ?_, ?_, ?_, h.runtimeLot, h.runtimeInj, ?_, ?_⟩
  · intro a l m _ hl hma
    obtain ⟨hl, hne⟩ := hlots a l hl
    have hcur := h.current a l m id hl hma
    unfold Current at hcur ⊢
    rwa [hobj l hne]
  · intro a l hl
    obtain ⟨hl, hne⟩ := hlots a l hl
    rw [hobj l hne]
    exact h.entry a l hl
  · exact fun a l hl => h.lotsMade a l (hlots a l hl).1
  · intro l hl
    refine ⟨?_, (h.fresh l hl).2⟩
    by_cases heq : l = lot
    · subst heq
      rw [hobjSelf, (h.fresh l hl).1]
      rfl
    · rw [hobj l heq]
      exact (h.fresh l hl).1
  · intro r rt hr hnone
    refine ⟨?_, (h.runtimeIdle r rt hr hnone).2⟩
    by_cases heq : rt.lot_ = lot
    · rw [heq, hobjSelf]
      rfl
    · rw [hobj _ heq]
      exact (h.runtimeIdle r rt hr hnone).1
  · intro r rt a hr ha
    obtain ⟨number, hma, hnum, honly⟩ := h.runtimeMachine r rt a hr ha
    refine ⟨number, hma, hnum, ?_⟩
    by_cases heq : rt.lot_ = lot
    · rw [heq, hobjSelf]
      intro other ho
      cases ho
    · rw [hobj _ heq]
      exact honly

theorem machineDispose_inv (h : w.Clean)
    (hkeeper : ∀ r rt, w.runtimes r = some rt → rt.machine_ ≠ some address) :
    (w.machineDispose address).Clean := by
  have hother : ∀ a, a ≠ address → (w.machineDispose address).machines a = w.machines a :=
    fun a ha => update_of_ne ha _ _
  refine { h with current := fun a lot machine _ hlot hm => ?_, runtimeMachine := ?_ }
  · by_cases ha : a = address
    · subst ha
      rw [show (w.machineDispose a).machines a = none from update_self ..] at hm
      cases hm
    · rw [hother a ha] at hm
      exact h.current a lot machine id hlot hm
  · intro r rt a hr ha
    rw [hother a fun heq => hkeeper r rt hr (heq ▸ ha)]
    exact h.runtimeMachine r rt a hr ha

theorem Inv.not_runtime (h : w.Clean) {keeper : Keeper}
    (hm : (w.machines address).map Machine.keeper = some keeper)
    (hkeeper : ∀ r, keeper ≠ .runtime r) (r : Nat) (rt : RuntimeState)
    (hr : w.runtimes r = some rt) : rt.machine_ ≠ some address := by
  intro ha
  obtain ⟨number, hma, -⟩ := h.runtimeMachine r rt address hr ha
  rw [hma] at hm
  exact hkeeper r (Option.some.inj hm).symm

theorem attach_refused (lot address : Nat) (w : Lots) :
    w.attach lot address false = (false, w) := rfl

theorem attach_granted (hm : w.machines address = some machine) :
    w.attach lot address true = (true, w.attached lot address machine.number) := by
  unfold attach
  rw [hm]

theorem lotNew_attach_inv (h : w.Inv (· = address)) (hm : w.machines address = some machine) :
    (w.lotNew.2.attached w.lotNew.1 address machine.number).Clean := by
  obtain ⟨hnew, hnone⟩ := h.fresh w.lotsMade le_rfl
  refine attached_inv (lotNew_inv h) hm (fun other ho => ?_) (fun n hn => ?_) (Nat.lt_succ_self _)
    fun r rt hr heq => ?_
  · change (w.objects w.lotsMade).machine_ = some other at ho
    rw [hnew] at ho
    cases ho
  · change n ∈ w.attachments w.lotsMade at hn
    rw [hnone] at hn
    cases hn
  · exact absurd (h.runtimeLot r rt hr) (Nat.not_lt.mpr (heq ▸ le_rfl))

/-- **`lotOf`** keeps the entries, and answers a current one. -/
theorem lotOf_spec (h : w.Clean) (hm : w.machines address = some machine) (granted : Bool) :
    (w.lotOf address granted).2.Clean ∧
      (w.lotOf address granted).2.machines = w.machines ∧
      (w.lotOf address granted).2.runtimes = w.runtimes ∧
      ∀ lot, (w.lotOf address granted).1 = some lot →
        (w.lotOf address granted).2.Current address machine.number lot := by
  unfold lotOf
  cases hl : w.lots address with
  | some lot =>
    refine ⟨h, rfl, rfl, fun lot' hlot' => ?_⟩
    obtain rfl : lot = lot' := Option.some.inj hlot'
    exact h.current address lot machine id hl hm
  | none =>
    dsimp only
    cases granted with
    | false =>
      exact ⟨lotNew_inv h, rfl, rfl, fun lot' hlot' => by cases hlot'⟩
    | true =>
      rw [attach_granted (w := w.lotNew.2) hm]
      have hstale : w.Inv (· = address) :=
        { h with current := fun a lot m _ => h.current a lot m id }
      have hclean := lotNew_attach_inv hstale hm
      refine ⟨hclean, rfl, rfl, fun lot' hlot' => ?_⟩
      obtain rfl : w.lotNew.1 = lot' := Option.some.inj hlot'
      exact hclean.current address _ machine id (update_self ..) hm

/-! ## The steps -/

variable {r : Nat} {rt : RuntimeState}

theorem runtimes_setRuntime {r' : Nat} {rt' : RuntimeState}
    (h : (w.setRuntime r (some rt)).runtimes r' = some rt') :
    (r' = r ∧ rt' = rt) ∨ (r' ≠ r ∧ w.runtimes r' = some rt') := by
  by_cases heq : r' = r
  · subst heq
    rw [show (w.setRuntime r' (some rt)).runtimes r' = _ from update_self ..] at h
    exact .inl ⟨rfl, (Option.some.inj h).symm⟩
  · exact .inr ⟨heq, (update_of_ne heq _ _).symm.trans h⟩

/-- A runtime whose lot is no other's, and has not been on another machine. -/
theorem Inv.setRuntime {stale : Nat → Prop} (h : w.Inv stale) (hlot : rt.lot_ < w.lotsMade)
    (hinj : ∀ r' rt', r' ≠ r → w.runtimes r' = some rt' → rt'.lot_ ≠ rt.lot_)
    (hobject : (w.objects rt.lot_).machine_ = none) (hattach : w.attachments rt.lot_ = [])
    (hmachine : ∀ a, rt.machine_ = some a →
      ∃ number, w.machines a = some ⟨number, .runtime r⟩) :
    (w.setRuntime r (some rt)).Inv stale := by
  refine ⟨h.current, h.entry, h.lotsMade, h.fresh, ?_, ?_, ?_, ?_⟩
  · intro r' rt' hr'
    rcases runtimes_setRuntime hr' with ⟨-, rfl⟩ | ⟨-, hold⟩
    · exact hlot
    · exact h.runtimeLot r' rt' hold
  · intro r₁ r₂ rt₁ rt₂ hr₁ hr₂ heq
    rcases runtimes_setRuntime hr₁ with ⟨rfl, rfl⟩ | ⟨hne₁, hold₁⟩ <;>
      rcases runtimes_setRuntime hr₂ with ⟨rfl, rfl⟩ | ⟨hne₂, hold₂⟩
    · rfl
    · exact absurd heq.symm (hinj _ _ hne₂ hold₂)
    · exact absurd heq (hinj _ _ hne₁ hold₁)
    · exact h.runtimeInj _ _ rt₁ rt₂ hold₁ hold₂ heq
  · intro r' rt' hr' hidle
    rcases runtimes_setRuntime hr' with ⟨-, rfl⟩ | ⟨-, hold⟩
    · exact ⟨hobject, hattach⟩
    · exact h.runtimeIdle r' rt' hold hidle
  · intro r' rt' a hr' ha
    rcases runtimes_setRuntime hr' with ⟨rfl, rfl⟩ | ⟨-, hold⟩
    · obtain ⟨number, hm⟩ := hmachine a ha
      refine ⟨number, hm, fun n hn => ?_, fun other ho => ?_⟩
      · cases hattach ▸ hn
      · cases hobject.symm.trans ho
    · exact h.runtimeMachine r' rt' a hold ha

theorem compile_inv (h : w.Clean) {granted : Bool} (hr : w.runtimes r = some rt)
    (hfree : rt.machine_.isSome ∨ (w.machines address).isNone)
    (hclean : granted = false → rt.machine_ = none → w.lots address = none) :
    (w.compile r rt address granted).Clean := by
  unfold compile
  cases hmachine : rt.machine_ with
  | some old =>
    obtain ⟨number, hm, hnum, honly⟩ := h.runtimeMachine r rt old hr hmachine
    dsimp only
    cases granted with
    | false => exact h
    | true =>
      rw [attach_granted hm]
      refine attached_inv { h with current := fun a lot m _ => h.current a lot m id } hm honly hnum
        (h.runtimeLot r rt hr) fun r' rt' hr' heq => ?_
      obtain rfl := h.runtimeInj r' r rt' rt hr' hr heq
      cases hr'.symm.trans hr
      exact hmachine
  | none =>
    have hnone : w.machines address = none := by
      rw [hmachine] at hfree
      exact Option.isNone_iff_eq_none.mp (hfree.resolve_left Bool.false_ne_true)
    obtain ⟨hobj, hatt⟩ := h.runtimeIdle r rt hr hmachine
    set w₁ := (w.machineNew address (.runtime r)).setRuntime r
      (some { rt with machine_ := some address }) with hw₁
    have hm₁ : w₁.machines address = some ⟨w.machinesMade, .runtime r⟩ := update_self ..
    have hnew := machineNew_inv h hnone (.runtime r)
    have hinj : ∀ r' rt', r' ≠ r → w.runtimes r' = some rt' → rt'.lot_ ≠ rt.lot_ :=
      fun r' rt' hne hold heq => hne (h.runtimeInj r' r rt' rt hold hr heq)
    have h₁ : w₁.Inv (· = address) := hnew.setRuntime (h.runtimeLot r rt hr) hinj hobj hatt
      fun a ha => ⟨w.machinesMade, Option.some.inj ha ▸ hm₁⟩
    cases granted with
    | false => exact h₁.clean (hclean rfl hmachine)
    | true =>
      rw [attach_granted hm₁]
      refine attached_inv h₁ hm₁ (fun other ho => ?_) (fun n hn => ?_) (h.runtimeLot r rt hr)
        fun r' rt' hr' heq => ?_
      · change (w.objects rt.lot_).machine_ = some other at ho
        rw [hobj] at ho
        cases ho
      · change n ∈ w.attachments rt.lot_ at hn
        rw [hatt] at hn
        cases hn
      · rcases runtimes_setRuntime hr' with ⟨-, rfl⟩ | ⟨hne, hold⟩
        · rfl
        · exact absurd heq (hinj r' rt' hne hold)

theorem runtimeNew_inv (h : w.Clean) (hr : w.runtimes r = none) : (w.runtimeNew r).Clean := by
  obtain ⟨hobj, hatt⟩ := h.fresh w.lotsMade le_rfl
  exact (lotNew_inv h).setRuntime (Nat.lt_succ_self _)
    (fun r' rt' _ hold => (h.runtimeLot r' rt' hold).ne)
    ((congrArg ParkingLot.machine_ hobj).trans rfl) hatt nofun

theorem forget_inv (h : w.Clean) (r : Nat) : (w.setRuntime r none).Clean := by
  have hruntimes : ∀ r' rt', (w.setRuntime r none).runtimes r' = some rt' →
      r' ≠ r ∧ w.runtimes r' = some rt' := by
    intro r' rt' hr'
    by_cases heq : r' = r
    · subst heq
      rw [show (w.setRuntime r' none).runtimes r' = none from update_self ..] at hr'
      cases hr'
    · exact ⟨heq, (update_of_ne heq _ _).symm.trans hr'⟩
  refine ⟨h.current, h.entry, h.lotsMade, h.fresh, ?_, ?_, ?_, ?_⟩
  · exact fun r' rt' hr' => h.runtimeLot r' rt' (hruntimes r' rt' hr').2
  · exact fun r₁ r₂ rt₁ rt₂ hr₁ hr₂ =>
      h.runtimeInj r₁ r₂ rt₁ rt₂ (hruntimes r₁ rt₁ hr₁).2 (hruntimes r₂ rt₂ hr₂).2
  · exact fun r' rt' hr' => h.runtimeIdle r' rt' (hruntimes r' rt' hr').2
  · exact fun r' rt' a hr' => h.runtimeMachine r' rt' a (hruntimes r' rt' hr').2

theorem runtimeDelete_inv (h : w.Clean) (hr : w.runtimes r = some rt) :
    (w.runtimeDelete r rt).Clean := by
  have hdetach := detach_inv h rt.lot_
  unfold runtimeDelete
  cases hmachine : rt.machine_ with
  | none => exact forget_inv hdetach r
  | some address =>
    -- forgetting the runtime and ending its machine are independent
    refine machineDispose_inv (forget_inv hdetach r) fun r' rt' hr' ha => ?_
    by_cases heq : r' = r
    · subst heq
      rw [show ((w.detach rt.lot_).setRuntime r' none).runtimes r' = none from
        update_self ..] at hr'
      cases hr'
    · have hold : w.runtimes r' = some rt' := (update_of_ne heq _ _).symm.trans hr'
      obtain ⟨n, hm, -⟩ := h.runtimeMachine r rt address hr hmachine
      obtain ⟨n', hm', -⟩ := h.runtimeMachine r' rt' address hold ha
      rw [hm] at hm'
      exact heq (Keeper.runtime.inj (Machine.mk.inj (Option.some.inj hm')).2).symm

theorem spawnMachine_inv (h : w.Clean) (hfree : w.machines address = none)
    (granted : Bool) : (w.spawnMachine address granted).Clean := by
  have hnew := machineNew_inv h hfree .spawned
  have hm : (w.machineNew address .spawned).machines address = some ⟨w.machinesMade, .spawned⟩ :=
    update_self ..
  unfold spawnMachine
  dsimp only
  cases granted with
  | true =>
    rw [attach_granted (w := (w.machineNew address .spawned).lotNew.2) hm]
    exact lotNew_attach_inv hnew hm
  | false =>
    -- the machine goes again, and the entry at its address is nobody's
    rw [attach_refused]
    have hback : ((w.machineNew address .spawned).lotNew.2.machineDispose address).machines =
        w.machines := by
      funext a
      by_cases ha : a = address
      · subst ha
        exact (update_self ..).trans hfree.symm
      · exact (update_of_ne ha _ _).trans (update_of_ne ha _ _)
    have hlot := lotNew_inv h
    refine { hlot with current := fun a lot m _ hl hma => ?_, runtimeMachine := ?_ }
    · rw [if_neg Bool.false_ne_true, hback] at hma
      exact h.current a lot m id hl hma
    · rw [if_neg Bool.false_ne_true, hback]
      exact hlot.runtimeMachine

theorem disposeMachine_inv (h : w.Clean)
    (hm : (w.machines address).map Machine.keeper = some .spawned) (granted : Bool) :
    (w.disposeMachine address granted).Clean := by
  obtain ⟨machine, hmachine, -⟩ := Option.map_eq_some_iff.mp hm
  obtain ⟨hclean, hmachines, hruntimes, -⟩ := lotOf_spec h hmachine granted
  have hkeeper : ∀ r rt, w.runtimes r = some rt → rt.machine_ ≠ some address :=
    h.not_runtime hm fun r heq => by cases heq
  unfold disposeMachine
  dsimp only
  cases (w.lotOf address granted).1 with
  | some lot =>
    refine machineDispose_inv (detach_inv hclean lot) fun r rt hr => hkeeper r rt ?_
    rw [← hruntimes]
    exact hr
  | none => exact machineDispose_inv hclean (by rw [hruntimes]; exact hkeeper)

theorem step_inv {w' : Lots} {op : LotsOp} (h : w.Clean) (hsafe : w.MadeClean op)
    (hstep : w.step op = some w') : w'.Clean := by
  cases op with
  | runtimeNew r =>
    obtain ⟨hr, heq⟩ := Option.ite_none_right_eq_some.mp hstep
    cases heq
    exact runtimeNew_inv h (Option.isNone_iff_eq_none.mp hr)
  | compile r address granted =>
    obtain ⟨rt, hr, hstep⟩ := Option.bind_eq_some_iff.mp hstep
    obtain ⟨hfree, heq⟩ := Option.ite_none_right_eq_some.mp hstep
    cases heq
    refine compile_inv h hr hfree fun hrefused hidle => hsafe hrefused fun rt' hr' => ?_
    rw [hr] at hr'
    cases hr'
    exact hidle
  | runtimeDelete r =>
    obtain ⟨rt, hr, rfl⟩ := Option.map_eq_some_iff.mp hstep
    exact runtimeDelete_inv h hr
  | spawnMachine address granted =>
    obtain ⟨hfree, heq⟩ := Option.ite_none_right_eq_some.mp hstep
    cases heq
    exact spawnMachine_inv h (Option.isNone_iff_eq_none.mp hfree) granted
  | disposeMachine address granted =>
    obtain ⟨hm, heq⟩ := Option.ite_none_right_eq_some.mp hstep
    cases heq
    exact disposeMachine_inv h hm granted
  | workerStart address =>
    obtain ⟨hfree, heq⟩ := Option.ite_none_right_eq_some.mp hstep
    cases heq
    exact (machineNew_inv h (Option.isNone_iff_eq_none.mp hfree) .worker).clean hsafe
  | workerEnd address =>
    obtain ⟨hm, heq⟩ := Option.ite_none_right_eq_some.mp hstep
    cases heq
    exact machineDispose_inv h (h.not_runtime hm fun r heq => by cases heq)
  | binding address granted =>
    obtain ⟨hm, heq⟩ := Option.ite_none_right_eq_some.mp hstep
    cases heq
    obtain ⟨machine, hmachine⟩ := Option.isSome_iff_exists.mp hm
    exact (lotOf_spec h hmachine granted).1

/-- **`lotOf` answers for the machine that is there**, in every state of every
run that makes no machine over an entry left behind. -/
theorem lotOf_current (h : (calls.restrict MadeClean).Reachable w) {address : Nat}
    {machine : Machine} (hm : w.machines address = some machine) (granted : Bool) (lot : Nat)
    (hlot : (w.lotOf address granted).1 = some lot) :
    (w.lotOf address granted).2.Current address machine.number lot := by
  have hclean : w.Clean := h.invariant_restrict (fun _ hs => hs ▸ start_clean)
    fun _ _ _ hw hsafe hstep => step_inv hw hsafe hstep
  exact (lotOf_spec hclean hm granted).2.2.2 lot hlot

/-- A worker's first binding is given a lot of its own. -/
theorem lotOf_current_worker : ∃ w : Lots, (calls.restrict MadeClean).Reachable w ∧
    (w.lotOf 0 true).1 = some 0 ∧ (w.lotOf 0 true).2.Current 0 0 0 := by
  have hreach := System.Reachable.step (S := calls.restrict MadeClean) (e := .workerStart 0)
    (.init rfl) ⟨rfl, rfl⟩
  exact ⟨_, hreach, rfl, lotOf_current hreach (show _ = some ⟨0, .worker⟩ from rfl) true 0 rfl⟩

/-- A worker parks something and ends; the next one is made at its address and
asks for its lot: the answer is the lot of the first. -/
theorem lotOf_stale : ∃ (w : Lots) (machine : Machine), calls.Reachable w ∧
    w.machines 0 = some machine ∧ ∃ lot, (w.lotOf 0 true).1 = some lot ∧
      ¬ (w.lotOf 0 true).2.Current 0 machine.number lot := by
  obtain ⟨w, hrun, hm, hlot, htable⟩ : ∃ w, System.run step start
      [.workerStart 0, .binding 0 true, .workerEnd 0, .workerStart 0] = some w ∧
      w.machines 0 = some ⟨1, .worker⟩ ∧ (w.lotOf 0 true).1 = some 0 ∧
      ((w.lotOf 0 true).2.objects 0).table_ = some 0 := ⟨_, rfl, rfl, rfl, rfl⟩
  refine ⟨w, ⟨1, .worker⟩, .of_run (.init rfl) hrun, hm, 0, hlot, ?_⟩
  rintro ⟨-, htable', -⟩
  rw [htable] at htable'
  cases htable'

end Lots

end Lhatove.Lh
