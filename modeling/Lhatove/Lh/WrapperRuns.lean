import Lhatove.Lh.Wrappers

/-!
# Wrappers over whole runs

- `Sound`: what every run keeps, of the caches and of each wrapper by itself;
- `pushObject_fit`: for which types `checkObject` takes what `pushObject` gave;
- `Counted`: what the counts are, in the runs that never overflow one;
- `disciplined`: what follows for wrappers and their objects;
- `alive_iff_held`: which objects are alive.
-/

namespace Lhatove.Lh.Heap

open Function List

variable {Ty Tag : Type} [DecidableEq Ty]

/-- **What every run keeps.** A cache only has wrappers that are reachable, not
disposed, and of its own machine and address; no wrapper has released its
object more than once. -/
structure Sound (h : Heap Tag) : Prop where
  cached : ∀ machine address wrapper, h.cache machine address = some wrapper →
    ∃ data, h.wrappers[wrapper]? = some data ∧ data.machine = machine ∧
      data.pointer = some address ∧ data.dropped = false
  once : ∀ data ∈ h.wrappers, data.releases = if data.pointer.isSome then 0 else 1
  unmarked : ∀ data ∈ h.wrappers, data.pointer.isSome → data.released = false

section Sound

variable {h : Heap Tag} {machine address wrapper : Nat} {tag : Tag} {room : Bool}
  {data data' : Wrapper Tag}

theorem start_sound : Sound (start : Heap Tag) where
  cached _ _ _ hmem := by cases hmem
  once _ hmem := by cases hmem
  unmarked _ hmem := by cases hmem

theorem Sound.congr {h' : Heap Tag} (hs : Sound h) (hcache : h'.cache = h.cache)
    (hwrappers : h'.wrappers = h.wrappers) : Sound h' where
  cached := by
    rw [hcache, hwrappers]
    exact hs.cached
  once := hwrappers ▸ hs.once
  unmarked := hwrappers ▸ hs.unmarked

theorem wrapperNew_sound (hs : Sound h) : Sound (h.wrapperNew machine tag address) where
  cached m a w hcache := by
    obtain ⟨data, hdata, hrest⟩ := hs.cached m a w hcache
    have hlt : w < h.wrappers.length := (List.getElem?_eq_some_iff.mp hdata).1
    exact ⟨data, (List.getElem?_append_left hlt).trans hdata, hrest⟩
  once data hmem := by
    rcases mem_append.mp hmem with hmem | hmem
    · exact hs.once data hmem
    · cases mem_singleton.mp hmem
      rfl
  unmarked data hmem hpointer := by
    rcases mem_append.mp hmem with hmem | hmem
    · exact hs.unmarked data hmem hpointer
    · cases mem_singleton.mp hmem
      rfl

theorem cachePut_sound (hs : Sound h) (hdata : h.wrappers[wrapper]? = some data)
    (hmachine : data.machine = machine) (hpointer : data.pointer = some address)
    (hdropped : data.dropped = false) : Sound (h.cachePut machine address wrapper room) := by
  cases room with
  | false => exact hs
  | true =>
    refine ⟨fun m a w hcache => ?_, hs.once, hs.unmarked⟩
    change update h.cache machine _ m a = some w at hcache
    by_cases hm : m = machine
    · subst hm
      rw [update_self] at hcache
      by_cases ha : a = address
      · subst ha
        rw [update_self] at hcache
        cases hcache
        exact ⟨data, hdata, hmachine, hpointer, hdropped⟩
      · rw [update_of_ne ha] at hcache
        exact hs.cached m a w hcache
    · rw [update_of_ne hm] at hcache
      exact hs.cached m a w hcache

/-- One wrapper is replaced, and the caches forget it if they had it. -/
theorem Sound.set {h' : Heap Tag} (hs : Sound h)
    (hwrappers : h'.wrappers = h.wrappers.set wrapper data')
    (hcache : ∀ m a w, h'.cache m a = some w → w ≠ wrapper ∧ h.cache m a = some w)
    (honce : data'.releases = if data'.pointer.isSome then 0 else 1)
    (hunmarked : data'.pointer.isSome → data'.released = false) : Sound h' where
  cached m a w hmem := by
    obtain ⟨hne, hmem⟩ := hcache m a w hmem
    rw [hwrappers, getElem?_set_ne hne.symm]
    exact hs.cached m a w hmem
  once other hmem := by
    rcases mem_or_eq_of_mem_set (hwrappers ▸ hmem) with hmem | rfl
    · exact hs.once other hmem
    · exact honce
  unmarked other hmem := by
    rcases mem_or_eq_of_mem_set (hwrappers ▸ hmem) with hmem | rfl
    · exact hs.unmarked other hmem
    · exact hunmarked

theorem dispose_sound (hs : Sound h) {mark : Bool} : Sound (h.dispose wrapper mark) := by
  unfold dispose
  cases hdata : h.wrappers[wrapper]? with
  | none => exact hs
  | some data =>
    cases hpointer : data.pointer with
    | none =>
      simp only [hpointer]
      exact hs
    | some address =>
      simp only [hpointer]
      have hmem := mem_of_getElem? hdata
      have honce := hs.once data hmem
      rw [hpointer] at honce
      refine hs.set rfl (fun m a w hcache => ?_) (by simpa using honce) (by simp)
      change update h.cache data.machine _ m a = some w at hcache
      -- the entry that goes is the only one there can be for this wrapper
      have hkeep : ¬ (m = data.machine ∧ a = address) ∧ h.cache m a = some w := by
        by_cases hm : m = data.machine
        · subst hm
          rw [update_self] at hcache
          by_cases ha : a = address
          · subst ha
            rw [update_self] at hcache
            cases hcache
          · rw [update_of_ne ha] at hcache
            exact ⟨fun hboth => ha hboth.2, hcache⟩
        · rw [update_of_ne hm] at hcache
          exact ⟨fun hboth => hm hboth.1, hcache⟩
      refine ⟨fun heq => hkeep.1 ?_, hkeep.2⟩
      obtain ⟨known, hknown, hmachine, haddress, -⟩ := hs.cached m a w hkeep.2
      rw [heq, hdata] at hknown
      cases hknown
      exact ⟨hmachine.symm, Option.some.inj (haddress.symm.trans hpointer)⟩

theorem drop_sound (hs : Sound h) : Sound (h.drop wrapper) := by
  unfold drop
  cases hdata : h.wrappers[wrapper]? with
  | none => exact hs
  | some data =>
    have hmem := mem_of_getElem? hdata
    refine hs.set rfl (fun m a w hcache => ?_) (hs.once data hmem) (hs.unmarked data hmem)
    change (if h.cache m a = some wrapper then none else h.cache m a) = some w at hcache
    by_cases heq : h.cache m a = some wrapper
    · rw [if_pos heq] at hcache
      cases hcache
    · rw [if_neg heq] at hcache
      refine ⟨fun hw => heq ?_, hcache⟩
      rw [hcache, hw]

theorem wrap_last (h : Heap Tag) (machine address : Nat) (tag : Tag) (room : Bool) :
    (((h.wrapperNew machine tag address).retain address).cachePut machine address
      h.wrappers.length room).wrappers[h.wrappers.length]? =
        some ⟨machine, tag, some address, false,
          ((h.objects address).map Object.serial).getD 0, 0, false⟩ := by
  cases room <;> exact getElem?_concat_length

theorem wrap_sound (hs : Sound h) :
    Sound (((h.wrapperNew machine tag address).retain address).cachePut machine address
      h.wrappers.length room) := by
  have hnew : Sound ((h.wrapperNew machine tag address).retain address) :=
    (wrapperNew_sound hs).congr rfl rfl
  exact cachePut_sound hnew getElem?_concat_length rfl rfl rfl

end Sound

/-! ## What a push answers -/

section Push

variable {F : Forest Ty} {registry : TypeRegistry Ty Tag} {h : Heap Tag}
  {machine wrapper : Nat} {type : Ty} {object : Option Nat} {made room : Bool}

/-- A push answers nil and changes nothing, answers what the cache has and
changes nothing, or makes a wrapper. -/
theorem pushObject_spec (F : Forest Ty) (registry : TypeRegistry Ty Tag) (h : Heap Tag)
    (machine : Nat) (type : Ty) (object : Option Nat) (made room : Bool) :
    h.pushObject F registry machine type object made room = (none, h) ∨
      (∃ address known, object = some address ∧ h.cache machine address = some known ∧
        h.pushObject F registry machine type object made room = (some known, h)) ∨
      ∃ address tag, object = some address ∧ h.cache machine address = none ∧
        registry.tagFor F type = some tag ∧ made = true ∧
        h.pushObject F registry machine type object made room =
          (some h.wrappers.length,
            ((h.wrapperNew machine tag address).retain address).cachePut machine address
              h.wrappers.length room) := by
  cases object with
  | none => exact .inl rfl
  | some address =>
    cases hcache : h.cache machine address with
    | some known =>
      refine .inr (.inl ⟨address, known, rfl, hcache, ?_⟩)
      simp [pushObject, hcache]
    | none =>
      cases htag : registry.tagFor F type with
      | none =>
        left
        simp [pushObject, hcache, htag]
      | some tag =>
        cases made with
        | false =>
          left
          simp [pushObject, hcache, htag]
        | true =>
          refine .inr (.inr ⟨address, tag, rfl, hcache, rfl, rfl, ?_⟩)
          simp [pushObject, hcache, htag]

theorem pushObject_sound (hs : Sound h) :
    Sound (h.pushObject F registry machine type object made room).2 := by
  obtain heq | ⟨_, _, -, -, heq⟩ | ⟨_, _, -, -, -, -, heq⟩ :=
    pushObject_spec F registry h machine type object made room
  · exact heq ▸ hs
  · exact heq ▸ hs
  · exact heq ▸ wrap_sound hs

/-- **The wrapper answered** is reachable and not disposed, and is for the
object asked for. -/
theorem pushObject_wrapper (hs : Sound h)
    (hpush : (h.pushObject F registry machine type object made room).1 = some wrapper) :
    ∃ data, (h.pushObject F registry machine type object made room).2.wrappers[wrapper]? =
        some data ∧ data.machine = machine ∧ data.pointer = object ∧ data.released = false ∧
        data.dropped = false := by
  obtain heq | ⟨address, known, rfl, hcache, heq⟩ | ⟨address, tag, rfl, -, -, -, heq⟩ :=
    pushObject_spec F registry h machine type object made room
  · rw [heq] at hpush
    cases hpush
  · rw [heq] at hpush ⊢
    cases hpush
    obtain ⟨data, hdata, hmachine, hpointer, hdropped⟩ := hs.cached _ _ _ hcache
    refine ⟨data, hdata, hmachine, hpointer, ?_, hdropped⟩
    exact hs.unmarked data (mem_of_getElem? hdata) (by rw [hpointer, Option.isSome_some])
  · rw [heq] at hpush ⊢
    cases hpush
    exact ⟨_, wrap_last h machine address tag room, rfl, rfl, rfl, rfl⟩

end Push

/-! ## Steps keep them sound -/

section Runs

variable {F : Forest Ty} {registry : TypeRegistry Ty Tag} {h h' : Heap Tag} {op : HeapOp Ty Tag}

theorem step_sound (hs : Sound h) (hstep : step F registry h op = some h') : Sound h' := by
  cases op with
  | objectNew address =>
    simp only [step] at hstep
    split at hstep
    · cases hstep
      exact hs.congr rfl rfl
    · cases hstep
  | nativeRetain address =>
    simp only [step] at hstep
    split at hstep
    · cases hstep
      exact hs.congr rfl rfl
    · cases hstep
  | nativeRelease address =>
    simp only [step] at hstep
    split at hstep
    · cases hstep
      exact hs.congr rfl rfl
    · cases hstep
  | push machine type object made room =>
    simp only [step] at hstep
    split at hstep
    · cases hstep
      exact pushObject_sound hs
    · cases hstep
  | dispose wrapper mark =>
    simp only [step] at hstep
    split at hstep
    · split at hstep
      · cases hstep
        exact dispose_sound hs
      · cases hstep
    · cases hstep
  | drop wrapper =>
    cases hstep
    exact drop_sound hs
  | finalise wrapper mark =>
    simp only [step] at hstep
    split at hstep
    · split at hstep
      · cases hstep
        exact dispose_sound hs
      · cases hstep
    · cases hstep
  | carry wrapper =>
    simp only [step] at hstep
    split at hstep
    · split at hstep
      · split at hstep
        · cases hstep
          exact hs.congr rfl rfl
        · cases hstep
      · cases hstep
    · cases hstep
  | rebuild machine address tag room =>
    simp only [step] at hstep
    split at hstep
    · cases hstep
      exact wrap_sound hs
    · cases hstep
  | letGo address =>
    simp only [step] at hstep
    split at hstep
    · cases hstep
      exact hs.congr rfl rfl
    · cases hstep

theorem reachable_sound (hr : (heap F registry).Reachable h) : Sound h :=
  System.Reachable.invariant (I := Sound) (fun _ hinit => Eq.symm hinit ▸ start_sound)
    (fun _ _ _ hs hstep => step_sound hs hstep) hr

/-! ## The type asked for -/

/-- **A wrapper fit for the type**: unless the machine already had one that is
not, what `pushObject` answers for a type passes `checkObject` for the nearest
registered type (the type itself, when it is registered) and for all that it
derives from. -/
theorem pushObject_fit (hr : (heap F registry).Reachable h) {machine wrapper : Nat}
    {type own ancestor : Ty} {object : Option Nat} {made room : Bool}
    (hown : registry.Nearest F type own)
    (hknown : ∀ address known data, object = some address →
      h.cache machine address = some known → h.wrappers[known]? = some data →
        ∃ had, registry.typeFor data.tag = some had ∧ F.IsA had own)
    (hpush : (h.pushObject F registry machine type object made room).1 = some wrapper)
    (hancestor : F.IsA own ancestor) :
    (h.pushObject F registry machine type object made room).2.checkObject F registry ancestor
      wrapper = object := by
  obtain ⟨data, hdata, -, hpointer, hreleased, -⟩ := pushObject_wrapper (reachable_sound hr) hpush
  have hhad : ∃ had, registry.typeFor data.tag = some had ∧ F.IsA had own := by
    obtain heq | ⟨address, known, rfl, hcache, heq⟩ | ⟨address, tag, rfl, -, htag, -, heq⟩ :=
      pushObject_spec F registry h machine type object made room
    · rw [heq] at hpush
      cases hpush
    · rw [heq] at hpush hdata
      cases hpush
      exact hknown address wrapper data rfl hcache hdata
    · rw [heq] at hpush hdata
      cases hpush
      cases (wrap_last h machine address tag room).symm.trans hdata
      obtain ⟨nearest, hnearest, htype⟩ := TypeRegistry.tagFor_nearest htag
      refine ⟨nearest, htype, ?_⟩
      rw [hnearest.unique hown]
      exact .refl own
  obtain ⟨had, htype, hisa⟩ := hhad
  cases object with
  | none => cases hpush
  | some address =>
    unfold checkObject
    rw [hdata]
    simp [hreleased, hpointer, htype, Forest.isa_iff.mpr (hisa.trans hancestor)]

end Runs

/-- Types by how far they are from the root. -/
def line : Forest Nat where
  parent type := if type = 0 then none else some (type - 1)
  depth type := type
  depth_parent := by
    intro type parent hparent
    split at hparent
    · cases hparent
    · cases hparent
      omega

/-- The types 1 and 2 are registered. -/
def twoTypes : TypeRegistry Nat Nat where
  tags := [(1, 10), (2, 20)]
  types tag := if tag = 10 then some 1 else if tag = 20 then some 2 else none
  types_tags := by decide

theorem objectNew_reachable : (heap line twoTypes).Reachable (start.objectNew 0) :=
  .step (e := .objectNew 0) (.init rfl) rfl

theorem pushObject_fit_parent :
    ((start.objectNew 0).pushObject line twoTypes 0 2 (some 0) true true).2.checkObject line
      twoTypes 1 0 = some 0 :=
  pushObject_fit objectNew_reachable (.of_registered ⟨(2, 20), by decide, rfl⟩)
    (fun _ _ _ _ hcache => by cases hcache) rfl (.single rfl)

/-- A type without a tag is given its parent's, and a wrapper that the machine
has is answered whatever type it was made for. -/
theorem pushObject_not_always_fit :
    (¬ ∀ h, (heap line twoTypes).Reachable h → ∀ machine type object made room wrapper,
      (h.pushObject line twoTypes machine type object made room).1 = some wrapper →
      (h.pushObject line twoTypes machine type object made room).2.checkObject line twoTypes type
        wrapper = object) ∧
    ¬ ∀ h, (heap line twoTypes).Reachable h → ∀ machine type object made room wrapper,
      twoTypes.Registered type →
      (h.pushObject line twoTypes machine type object made room).1 = some wrapper →
      (h.pushObject line twoTypes machine type object made room).2.checkObject line twoTypes type
        wrapper = object := by
  refine ⟨fun hfit => ?_, fun hfit => ?_⟩
  · have := hfit _ objectNew_reachable 0 3 (some 0) true true 0 rfl
    exact absurd this (by decide)
  · have hpushed : (heap line twoTypes).Reachable
        ((start.objectNew 0).pushObject line twoTypes 0 1 (some 0) true true).2 :=
      .step (e := .push 0 1 (some 0) true true) objectNew_reachable rfl
    have := hfit _ hpushed 0 2 (some 0) true true 0 ⟨(2, 20), by decide, rfl⟩ rfl
    exact absurd this (by decide)

/-! ## Counts -/

/-- What `getReferenceCount` answers for the object at an address; 0 for none. -/
def count (address : Nat) (h : Heap Tag) : Nat :=
  ((h.objects address).map fun object => object.count.toNat).getD 0

/-- The wrappers at hand of the object at an address that were not disposed. -/
def holding (address : Nat) (h : Heap Tag) : Nat :=
  h.wrappers.countP fun data => data.pointer = some address

/-- All that hold a reference of the object at an address. -/
def references (address : Nat) (h : Heap Tag) : Nat :=
  h.natives address + h.carried address + h.holding address

/-- **What counts are**: the references that there are. A wrapper that was not
disposed has the object that it was made for. -/
structure Counted (h : Heap Tag) : Prop where
  counted : ∀ address, h.count address = h.references address
  serials : ∀ data ∈ h.wrappers, ∀ address object, data.pointer = some address →
    h.objects address = some object → object.serial = data.serial

section Counts

variable {h h' : Heap Tag} {address other machine wrapper : Nat} {tag : Tag} {data : Wrapper Tag}

theorem retain_count (other : Nat) (halive : (h.objects address).isSome)
    (hfull : h.count address < 2 ^ 32 - 1) :
    (h.retain address).count other = h.count other + if other = address then 1 else 0 := by
  by_cases heq : other = address
  · subst heq
    obtain ⟨object, hobject⟩ := Option.isSome_iff_exists.mp halive
    have hcount : h.count other = object.count.toNat := by simp [count, hobject]
    rw [hcount] at hfull ⊢
    have hadd : (object.count + 1).toNat = object.count.toNat + 1 := by
      exact Nat.mod_eq_of_lt (Nat.add_lt_of_lt_sub hfull)
    simp [count, retain, hobject, hadd]
  · simp [count, retain, heq]

theorem release_count (other : Nat) (hheld : 0 < h.count address) :
    (h.release address).count other = h.count other - if other = address then 1 else 0 := by
  by_cases heq : other = address
  · subst heq
    cases hobject : h.objects other with
    | none => simp [count, hobject] at hheld
    | some object =>
      have hcount : h.count other = object.count.toNat := by simp [count, hobject]
      rw [hcount] at hheld ⊢
      by_cases hlast : object.count = 1
      · simp [count, release, hobject, hlast]
      · have hle : (1 : UInt32) ≤ object.count := by
          exact hheld
        simp [count, release, hobject, hlast, UInt32.toNat_sub_of_le _ _ hle]
  · simp [count, release, heq]

theorem retain_serial {object : Object} (hobject : (h.retain address).objects other = some object) :
    ∃ before, h.objects other = some before ∧ before.serial = object.serial := by
  change update h.objects address _ other = _ at hobject
  by_cases heq : other = address
  · subst heq
    rw [update_self] at hobject
    obtain ⟨before, hbefore, rfl⟩ := Option.map_eq_some_iff.mp hobject
    exact ⟨before, hbefore, rfl⟩
  · rw [update_of_ne heq] at hobject
    exact ⟨object, hobject, rfl⟩

theorem release_serial {object : Object}
    (hobject : (h.release address).objects other = some object) :
    ∃ before, h.objects other = some before ∧ before.serial = object.serial := by
  change update h.objects address _ other = _ at hobject
  by_cases heq : other = address
  · subst heq
    rw [update_self] at hobject
    obtain ⟨before, hbefore, hrest⟩ := Option.bind_eq_some_iff.mp hobject
    split at hrest
    · cases hrest
    · cases hrest
      exact ⟨before, hbefore, rfl⟩
  · rw [update_of_ne heq] at hobject
    exact ⟨object, hobject, rfl⟩

theorem wrapperNew_holding : (h.wrapperNew machine tag address).holding other =
    h.holding other + if other = address then 1 else 0 := by
  simp [holding, wrapperNew, countP_append, countP_singleton, eq_comm]

theorem pos_holding (hdata : h.wrappers[wrapper]? = some data)
    (hpointer : data.pointer = some address) : 0 < h.holding address :=
  countP_pos_iff.mpr ⟨data, mem_of_getElem? hdata, by simp [hpointer]⟩

theorem Counted.pos_count (hc : Counted h) (hdata : h.wrappers[wrapper]? = some data)
    (hpointer : data.pointer = some address) : 0 < h.count address := by
  have hpos := pos_holding hdata hpointer
  rw [hc.counted, references]
  omega

theorem isSome_of_pos_count (hpos : 0 < h.count address) : (h.objects address).isSome := by
  cases hobject : h.objects address with
  | none => simp [count, hobject] at hpos
  | some object => rfl

end Counts

/-! ## Steps keep the counts -/

section Steps

variable {F : Forest Ty} {registry : TypeRegistry Ty Tag} {h h' : Heap Tag}
  {address machine wrapper : Nat} {tag : Tag} {room : Bool}

/-- The object that a step takes a reference of. -/
def taken (F : Forest Ty) (registry : TypeRegistry Ty Tag) (h : Heap Tag) :
    HeapOp Ty Tag → Option Nat
  | .nativeRetain address => some address
  | .push machine type (some address) made _ =>
    if (h.cache machine address).isNone && (registry.tagFor F type).isSome && made then
      some address
    else none
  | .carry wrapper => (h.wrappers[wrapper]?).bind Wrapper.pointer
  | .rebuild _ address _ _ => some address
  | _ => none

/-- The reference that a step takes is not one more than the count can count. -/
def Countable (F : Forest Ty) (registry : TypeRegistry Ty Tag) (h : Heap Tag)
    (op : HeapOp Ty Tag) : Prop :=
  ∀ address ∈ taken F registry h op, h.references address < 2 ^ 32 - 1

theorem start_counted : Counted (start : Heap Tag) where
  counted _ := rfl
  serials _ hmem := by cases hmem

theorem Counted.step (hc : Counted h) (hcounted : ∀ address, h'.count address = h'.references address)
    (hobjects : ∀ address object, h'.objects address = some object →
      ∃ before, h.objects address = some before ∧ before.serial = object.serial)
    (hwrappers : ∀ data ∈ h'.wrappers, ∀ address, data.pointer = some address →
      ∃ before ∈ h.wrappers, before.pointer = some address ∧ before.serial = data.serial) :
    Counted h' where
  counted := hcounted
  serials data hmem address object hpointer hobject := by
    obtain ⟨was, hwas, hserial⟩ := hobjects address object hobject
    obtain ⟨before, hbefore, hpointer', hserial'⟩ := hwrappers data hmem address hpointer
    rw [← hserial, ← hserial']
    exact hc.serials before hbefore address was hpointer' hwas

theorem objectNew_counted (hc : Counted h) (hfree : h.objects address = none) :
    Counted (h.objectNew address) := by
  have hzero : h.references address = 0 := by
    rw [← hc.counted, count, hfree]
    rfl
  refine ⟨fun other => ?_, fun data hmem other object hpointer hobject => ?_⟩
  · have hother := hc.counted other
    by_cases heq : other = address
    · subst heq
      simp only [references] at hzero
      have hholding : (h.objectNew other).holding other = h.holding other := rfl
      simp only [references, hholding]
      simp [count, objectNew]
      omega
    · simpa [count, references, holding, objectNew, heq] using hother
  · have hne : other ≠ address := by
      rintro rfl
      have : 0 < h.holding other := countP_pos_iff.mpr ⟨data, hmem, by simp [hpointer]⟩
      simp only [references] at hzero
      omega
    have hobject : h.objects other = some object := by
      simpa [objectNew, update_of_ne hne] using hobject
    exact hc.serials data hmem other object hpointer hobject

theorem retain_counted (hc : Counted h) (halive : (h.objects address).isSome)
    (hfull : h.references address < 2 ^ 32 - 1) {natives carried : Nat → Nat}
    (hholders : ∀ other, natives other + carried other =
      h.natives other + h.carried other + if other = address then 1 else 0) :
    Counted { h.retain address with natives := natives, carried := carried } := by
  refine hc.step (fun other => ?_) (fun _ _ => retain_serial) fun data hmem _ hpointer =>
    ⟨data, hmem, hpointer, rfl⟩
  have hcount := retain_count other halive ((hc.counted address).trans_lt hfull)
  change (h.retain address).count other = natives other + carried other + h.holding other
  rw [hcount, hc.counted, hholders, references]
  omega

theorem release_counted (hc : Counted h) {natives carried : Nat → Nat}
    (hheld : 0 < h.references address)
    (hholders : ∀ other, natives other + carried other +
      (if other = address then 1 else 0) = h.natives other + h.carried other) :
    Counted { h.release address with natives := natives, carried := carried } := by
  refine hc.step (fun other => ?_) (fun _ _ => release_serial) fun data hmem _ hpointer =>
    ⟨data, hmem, hpointer, rfl⟩
  have hcount := release_count other (hheld.trans_eq (hc.counted address).symm)
  have hother := hholders other
  change (h.release address).count other = natives other + carried other + h.holding other
  rw [hcount, hc.counted, references]
  omega

theorem update_add_one (holders : Nat → Nat) (other : Nat) :
    update holders address (holders address + 1) other =
      holders other + if other = address then 1 else 0 := by
  by_cases heq : other = address
  · subst heq
    rw [update_self, if_pos rfl]
  · rw [update_of_ne heq, if_neg heq, Nat.add_zero]

theorem update_sub_one {holders : Nat → Nat} (hpos : 0 < holders address) (other : Nat) :
    update holders address (holders address - 1) other +
      (if other = address then 1 else 0) = holders other := by
  by_cases heq : other = address
  · subst heq
    rw [update_self, if_pos rfl]
    omega
  · rw [update_of_ne heq, if_neg heq, Nat.add_zero]

theorem wrap_counted (hc : Counted h) (halive : (h.objects address).isSome)
    (hfull : h.references address < 2 ^ 32 - 1) :
    Counted (((h.wrapperNew machine tag address).retain address).cachePut machine address
      h.wrappers.length room) := by
  have hnew : Counted ((h.wrapperNew machine tag address).retain address) := by
    refine ⟨fun other => ?_, fun data hmem other object hpointer hobject => ?_⟩
    · have hcount := retain_count other halive ((hc.counted address).trans_lt hfull)
      change (h.retain address).count other = h.natives other + h.carried other +
        (h.wrapperNew machine tag address).holding other
      rw [hcount, hc.counted, wrapperNew_holding, references]
      omega
    · obtain ⟨before, hbefore, hserial⟩ := retain_serial hobject
      change h.objects other = some before at hbefore
      rw [← hserial]
      rcases mem_append.mp hmem with hmem | hmem
      · exact hc.serials data hmem other before hpointer hbefore
      · cases mem_singleton.mp hmem
        cases hpointer
        rw [hbefore]
        rfl
  cases room with
  | false => exact hnew
  | true => exact ⟨hnew.counted, hnew.serials⟩

theorem dispose_counted (hc : Counted h) {mark : Bool} : Counted (h.dispose wrapper mark) := by
  unfold dispose
  cases hdata : h.wrappers[wrapper]? with
  | none => exact hc
  | some data =>
    cases hpointer : data.pointer with
    | none =>
      simp only [hpointer]
      exact hc
    | some address =>
      simp only [hpointer]
      have hpos := hc.pos_count hdata hpointer
      obtain ⟨hlt, hget⟩ := List.getElem?_eq_some_iff.mp hdata
      refine hc.step (fun other => ?_) (fun other object hobject => ?_)
        fun data' hmem' other hpointer' => ?_
      · -- the wrapper's reference goes from the count and from the holders
        have hcount := release_count other hpos
        change (h.release address).count other =
          h.natives other + h.carried other + (h.wrappers.set wrapper _).countP _
        rw [hcount, hc.counted, references, holding, countP_set hlt, hget, hpointer]
        have hholding := pos_holding hdata hpointer
        by_cases heq : other = address
        · subst heq
          simp only [holding] at hholding
          simp
          omega
        · simp [heq, Ne.symm heq]
      · exact release_serial hobject
      · rcases mem_or_eq_of_mem_set hmem' with hmem' | rfl
        · exact ⟨data', hmem', hpointer', rfl⟩
        · cases hpointer'

theorem drop_counted (hc : Counted h) : Counted (h.drop wrapper) := by
  unfold drop
  cases hdata : h.wrappers[wrapper]? with
  | none => exact hc
  | some data =>
    obtain ⟨hlt, hget⟩ := List.getElem?_eq_some_iff.mp hdata
    refine hc.step (fun other => ?_) (fun _ object hobject => ⟨object, hobject, rfl⟩)
      fun data' hmem' other hpointer' => ?_
    · change h.count other =
        h.natives other + h.carried other + (h.wrappers.set wrapper _).countP _
      rw [hc.counted, references, holding, countP_set hlt, hget]
      have hle : (if data.pointer = some other then 1 else 0) ≤
          h.wrappers.countP fun data => data.pointer = some other := by
        split
        · next hpointer => exact pos_holding hdata hpointer
        · exact Nat.zero_le _
      simp only [decide_eq_true_eq]
      omega
    · rcases mem_or_eq_of_mem_set hmem' with hmem' | rfl
      · exact ⟨data', hmem', hpointer', rfl⟩
      · exact ⟨data, mem_of_getElem? hdata, hpointer', rfl⟩

theorem pushObject_counted (hc : Counted h) {type : Ty} {object : Option Nat} {made : Bool}
    (halive : ∀ address ∈ object, (h.objects address).isSome)
    (hfull : Countable F registry h (.push machine type object made room)) :
    Counted (h.pushObject F registry machine type object made room).2 := by
  obtain heq | ⟨_, _, -, -, heq⟩ | ⟨address, tag, rfl, hcache, htag, hmade, heq⟩ :=
    pushObject_spec F registry h machine type object made room
  · exact heq ▸ hc
  · exact heq ▸ hc
  · rw [heq]
    refine wrap_counted hc (halive address rfl) (hfull address ?_)
    simp [taken, hcache, htag, hmade]

theorem step_counted (hc : Counted h) {op : HeapOp Ty Tag} (hfull : Countable F registry h op)
    (hstep : step F registry h op = some h') : Counted h' := by
  cases op with
  | objectNew address =>
    simp only [step] at hstep
    split at hstep
    · next hfree =>
      cases hstep
      exact objectNew_counted hc (Option.isNone_iff_eq_none.mp hfree)
    · cases hstep
  | nativeRetain address =>
    simp only [step] at hstep
    split at hstep
    · next halive =>
      cases hstep
      refine retain_counted hc halive (hfull address rfl) fun other => ?_
      rw [update_add_one]
      exact Nat.add_right_comm ..
    · cases hstep
  | nativeRelease address =>
    simp only [step] at hstep
    split at hstep
    · next hheld =>
      cases hstep
      refine release_counted hc (by rw [references]; omega) fun other => ?_
      have hother := update_sub_one hheld other
      change _ + h.carried other + _ = _
      omega
    · cases hstep
  | push machine type object made room =>
    simp only [step] at hstep
    split at hstep
    · next halive =>
      cases hstep
      exact pushObject_counted hc halive hfull
    · cases hstep
  | dispose wrapper mark =>
    simp only [step] at hstep
    split at hstep
    · split at hstep
      · cases hstep
        exact dispose_counted hc
      · cases hstep
    · cases hstep
  | drop wrapper =>
    cases hstep
    exact drop_counted hc
  | finalise wrapper mark =>
    simp only [step] at hstep
    split at hstep
    · split at hstep
      · cases hstep
        exact dispose_counted hc
      · cases hstep
    · cases hstep
  | carry wrapper =>
    simp only [step] at hstep
    split at hstep
    · next data hdata =>
      split at hstep
      · next address hpointer =>
        split at hstep
        · cases hstep
          have hpos := hc.pos_count hdata hpointer
          refine retain_counted hc (isSome_of_pos_count hpos) (hfull address ?_) fun other => ?_
          · simp [taken, hdata, hpointer]
          · rw [update_add_one]
            exact (Nat.add_assoc ..).symm
        · cases hstep
      · cases hstep
    · cases hstep
  | rebuild machine address tag room =>
    simp only [step] at hstep
    split at hstep
    · next hcarried =>
      cases hstep
      have hpos : 0 < h.count address := by
        rw [hc.counted, references]
        omega
      exact wrap_counted hc (isSome_of_pos_count hpos) (hfull address rfl)
    · cases hstep
  | letGo address =>
    simp only [step] at hstep
    split at hstep
    · next hcarried =>
      cases hstep
      refine release_counted hc (by rw [references]; omega) fun other => ?_
      have hother := update_sub_one hcarried other
      change h.natives other + _ + _ = _
      omega
    · cases hstep

end Steps

/-! ## Wrappers and their objects -/

section Discipline

variable {F : Forest Ty} {registry : TypeRegistry Ty Tag} {h : Heap Tag}

/-- **Wrapper discipline**: an object's count is the references that native
owners, carried values and the wrappers not yet disposed hold of it, one each;
such a wrapper has the object it was made for, alive; a wrapper has released it
once, when it was disposed, and not before; and a push answers a reachable
wrapper of the very object that lives at the address. -/
structure Disciplined (F : Forest Ty) (registry : TypeRegistry Ty Tag) (h : Heap Tag) : Prop where
  counted : ∀ address,
    h.count address = h.natives address + h.carried address + h.holding address
  alive : ∀ data ∈ h.wrappers, ∀ address, data.pointer = some address →
    ∃ object, h.objects address = some object ∧ object.serial = data.serial
  once : ∀ data ∈ h.wrappers, data.releases = if data.pointer.isSome then 0 else 1
  answered : ∀ machine type address made room wrapper object,
    h.objects address = some object →
    (h.pushObject F registry machine type (some address) made room).1 = some wrapper →
    ∃ data,
      (h.pushObject F registry machine type (some address) made room).2.wrappers[wrapper]? =
        some data ∧
      data.pointer = some address ∧ data.serial = object.serial ∧ data.dropped = false

theorem disciplined_of (hs : Sound h) (hc : Counted h) : Disciplined F registry h where
  counted := hc.counted
  alive data hmem address hpointer := by
    obtain ⟨wrapper, hdata⟩ := mem_iff_getElem?.mp hmem
    obtain ⟨object, hobject⟩ :=
      Option.isSome_iff_exists.mp (isSome_of_pos_count (hc.pos_count hdata hpointer))
    exact ⟨object, hobject, hc.serials data hmem address object hpointer hobject⟩
  once := hs.once
  answered machine type address made room wrapper object hobject hpush := by
    obtain ⟨data, hdata, -, hpointer, -, hdropped⟩ := pushObject_wrapper hs hpush
    refine ⟨data, hdata, hpointer, ?_, hdropped⟩
    obtain heq | ⟨_, known, hsome, -, heq⟩ | ⟨_, tag, hsome, -, -, -, heq⟩ :=
      pushObject_spec F registry h machine type (some address) made room
    · rw [heq] at hpush
      cases hpush
    · rw [heq] at hdata
      exact (hc.serials data (mem_of_getElem? hdata) address object hpointer hobject).symm
    · cases hsome
      rw [heq] at hdata hpush
      cases hpush
      cases (wrap_last h machine address tag room).symm.trans hdata
      rw [hobject]
      rfl

/-- **Wrapper discipline**, in every state of every run in which no object is
retained when 2^32 - 1 references to it are held. -/
theorem disciplined (hr : ((heap F registry).restrict (Countable F registry)).Reachable h) :
    Disciplined F registry h :=
  disciplined_of (reachable_sound hr.of_restrict) <|
    System.Reachable.invariant_restrict (I := Counted) (fun _ hinit => Eq.symm hinit ▸ start_counted)
      (fun _ _ _ hc hfull hstep => step_counted hc hfull hstep) hr

end Discipline

/-- A wrapper made, carried and rebuilt elsewhere, and the first one disposed. -/
theorem disciplined_carried :
    ∃ h, ((heap line twoTypes).restrict (Countable line twoTypes)).Reachable h ∧
      Disciplined line twoTypes h ∧ h.count 0 = 3 := by
  have next : ∀ {h h' : Heap Nat} (op : HeapOp Nat Nat),
      ((heap line twoTypes).restrict (Countable line twoTypes)).Reachable h →
      Countable line twoTypes h op → step line twoTypes h op = some h' →
      ((heap line twoTypes).restrict (Countable line twoTypes)).Reachable h' :=
    fun _ hr hfull hstep => .step hr ⟨hfull, hstep⟩
  have hnew := next (.objectNew 0) (.init rfl) (fun _ hmem => by cases hmem) rfl
  have hpush := next (.push 0 2 (some 0) true true) hnew
    (fun _ hmem => by cases hmem; decide) rfl
  have hcarry := next (.carry 0) hpush (fun _ hmem => by cases hmem; decide) rfl
  have hrebuild := next (.rebuild 1 0 20 true) hcarry (fun _ hmem => by cases hmem; decide) rfl
  have hdispose := next (.dispose 0 true) hrebuild (fun _ hmem => by cases hmem) rfl
  exact ⟨_, hdispose, disciplined hdispose, by decide⟩

theorem nativeRetain_run {h : Heap Nat} (object : Object) (hobject : h.objects 0 = some object) :
    ∀ n, ∃ h', System.run (step line twoTypes) h (replicate n (.nativeRetain 0)) = some h' ∧
      h'.objects 0 = some { object with count := object.count + .ofNat n } ∧
      h'.wrappers = h.wrappers ∧ h'.natives 0 = h.natives 0 + n
  | 0 => ⟨h, rfl, by simpa using hobject, rfl, rfl⟩
  | n + 1 => by
    obtain ⟨h', hrun, hobject', hwrappers, hnatives⟩ := nativeRetain_run object hobject n
    refine ⟨{ h'.retain 0 with natives := update h'.natives 0 (h'.natives 0 + 1) },
      ?_, ?_, hwrappers, ?_⟩
    · rw [replicate_succ', System.run_append, hrun]
      simp [System.run, step, hobject']
    · simp [retain, hobject', UInt32.ofNat_add, UInt32.add_assoc]
    · simp [hnatives, Nat.add_assoc]

theorem nativeRetain_overflow (n : Nat) (hn : 2 + UInt32.ofNat n = 1) :
    ∃ h, (heap line twoTypes).Reachable h ∧ h.objects 0 = none ∧
      ∃ data ∈ h.wrappers, data.pointer = some 0 := by
  have hpushed : (heap line twoTypes).Reachable
      ((start.objectNew 0).pushObject line twoTypes 0 2 (some 0) true true).2 :=
    .step (e := .push 0 2 (some 0) true true) objectNew_reachable rfl
  obtain ⟨h, hrun, hobject, hwrappers, hnatives⟩ :=
    nativeRetain_run (h := ((start.objectNew 0).pushObject line twoTypes 0 2 (some 0) true true).2)
      ⟨2, 0⟩ rfl n
  have hreleased : step line twoTypes h (.nativeRelease 0) =
      some { h.release 0 with natives := update h.natives 0 (h.natives 0 - 1) } := by
    have hpos : 0 < h.natives 0 := by
      rw [hnatives]
      exact Nat.add_pos_left Nat.one_pos n
    exact if_pos hpos
  refine ⟨_, .step (.of_run hpushed hrun) hreleased, ?_, ?_⟩
  · simp [release, hobject, hn]
  · change ∃ data ∈ h.wrappers, _
    rw [hwrappers]
    exact ⟨_, mem_cons_self, rfl⟩

/-- 2^32 - 1 more references are one too many. -/
theorem not_always_disciplined :
    ¬ ∀ h, (heap line twoTypes).Reachable h → Disciplined line twoTypes h := by
  intro hall
  obtain ⟨h, hr, hnone, data, hmem, hpointer⟩ := nativeRetain_overflow (2 ^ 32 - 1) (by decide)
  obtain ⟨object, hobject, -⟩ := (hall h hr).alive data hmem 0 hpointer
  rw [hnone] at hobject
  cases hobject

/-! ## Objects and their holders -/

section Holders

variable {F : Forest Ty} {registry : TypeRegistry Ty Tag} {h h' : Heap Tag}

/-- No object is kept with a count of zero. -/
def Owned (h : Heap Tag) : Prop :=
  ∀ address object, h.objects address = some object → object.count ≠ 0

theorem cachePut_objects (machine address wrapper : Nat) (room : Bool) (h : Heap Tag) :
    (h.cachePut machine address wrapper room).objects = h.objects := by
  cases room <;> rfl

theorem dispose_objects (h : Heap Tag) (wrapper : Nat) (mark : Bool) :
    (h.dispose wrapper mark).objects = h.objects ∨
      ∃ address, (h.dispose wrapper mark).objects = (h.release address).objects := by
  unfold dispose
  split
  · exact .inl rfl
  · split
    · exact .inl rfl
    · next address _ => exact .inr ⟨address, rfl⟩

/-- All that a step can do to the objects. -/
theorem step_objects {op : HeapOp Ty Tag} (hstep : step F registry h op = some h') :
    h'.objects = h.objects ∨ (∃ address, h'.objects = (h.objectNew address).objects) ∨
      (∃ address ∈ taken F registry h op, h'.objects = (h.retain address).objects) ∨
      ∃ address, h'.objects = (h.release address).objects := by
  cases op <;> simp only [step, Option.ite_none_right_eq_some, Option.some.injEq] at hstep
  case objectNew address => exact .inr (.inl ⟨address, by rw [← hstep.2]⟩)
  case nativeRetain address => exact .inr (.inr (.inl ⟨address, rfl, by rw [← hstep.2]⟩))
  case nativeRelease address | letGo address =>
    exact .inr (.inr (.inr ⟨address, by rw [← hstep.2]⟩))
  case push machine type object made room =>
    obtain ⟨-, rfl⟩ := hstep
    obtain heq | ⟨_, _, -, -, heq⟩ | ⟨address, tag, rfl, hcache, htag, hmade, heq⟩ :=
      pushObject_spec F registry h machine type object made room
    · exact .inl (by rw [heq])
    · exact .inl (by rw [heq])
    · refine .inr (.inr (.inl ⟨address, by simp [taken, hcache, htag, hmade], ?_⟩))
      rw [heq, cachePut_objects]
      rfl
  case dispose wrapper mark | finalise wrapper mark =>
    split at hstep
    · obtain ⟨-, ⟨⟩⟩ := Option.ite_none_right_eq_some.mp hstep
      exact (dispose_objects h wrapper mark).imp_right (.inr ∘ .inr)
    · cases hstep
  case drop wrapper =>
    refine .inl (hstep ▸ ?_)
    unfold drop
    split <;> rfl
  case carry wrapper =>
    split at hstep
    · next data hdata =>
      split at hstep
      · next address hpointer =>
        obtain ⟨-, ⟨⟩⟩ := Option.ite_none_right_eq_some.mp hstep
        exact .inr (.inr (.inl ⟨address, by simp [taken, hdata, hpointer], rfl⟩))
      · cases hstep
    · cases hstep
  case rebuild machine address tag room =>
    obtain ⟨-, rfl⟩ := hstep
    exact .inr (.inr (.inl ⟨address, rfl, by rw [cachePut_objects]; rfl⟩))

theorem step_owned (hc : Counted h) (ho : Owned h) {op : HeapOp Ty Tag}
    (hfull : Countable F registry h op) (hstep : step F registry h op = some h') : Owned h' := by
  intro other object
  obtain heq | ⟨address, heq⟩ | ⟨address, htaken, heq⟩ | ⟨address, heq⟩ := step_objects hstep <;>
    rw [heq]
  · exact ho other object
  all_goals by_cases hother : other = address
  all_goals try simp only [objectNew, retain, release, update_of_ne hother]; exact ho other object
  all_goals subst hother
  · simp only [objectNew, update_self]
    rintro ⟨⟩ hone
    exact absurd (show (1 : UInt32) = 0 from hone) (by decide)
  · have hcount := (hc.counted other).trans_lt (hfull other htaken)
    simp only [retain, update_self, Option.map_eq_some_iff]
    rintro ⟨before, hbefore, rfl⟩ hzero
    have hbefore : h.count other = before.count.toNat := by simp [count, hbefore]
    have hsum : (before.count + 1).toNat = before.count.toNat + 1 :=
      Nat.mod_eq_of_lt (Nat.add_lt_of_lt_sub (hbefore.symm.trans_lt hcount))
    exact absurd ((congrArg UInt32.toNat hzero).symm.trans hsum) (Nat.succ_ne_zero _).symm
  · simp only [release, update_self, Option.bind_eq_some_iff]
    rintro ⟨before, -, hafter⟩
    split at hafter
    · cases hafter
    · next hne =>
      cases hafter
      exact fun hzero => hne ((UInt32.sub_eq_iff_eq_add.mp hzero).trans (UInt32.zero_add 1))

/-- **No leak, nothing dangling**: in every state of every run in which no count
overflows, an object is alive exactly while a native owner, a carried value or
a wrapper not yet disposed holds it. -/
theorem alive_iff_held (hr : ((heap F registry).restrict (Countable F registry)).Reachable h)
    (address : Nat) : (h.objects address).isSome ↔
      0 < h.natives address ∨ 0 < h.carried address ∨
        ∃ data ∈ h.wrappers, data.pointer = some address := by
  have ⟨hc, ho⟩ : Counted h ∧ Owned h :=
    System.Reachable.invariant_restrict (I := fun h => Counted h ∧ Owned h)
      (fun _ hinit => Eq.symm hinit ▸ ⟨start_counted, fun _ _ hnone => by cases hnone⟩)
      (fun _ _ _ hi hfull hstep => ⟨step_counted hi.1 hfull hstep, step_owned hi.1 hi.2 hfull hstep⟩)
      hr
  have halive : (h.objects address).isSome ↔ 0 < h.count address := by
    refine ⟨fun hsome => ?_, isSome_of_pos_count⟩
    obtain ⟨object, hobject⟩ := Option.isSome_iff_exists.mp hsome
    have hcount : h.count address = object.count.toNat := by simp [count, hobject]
    have hne : object.count.toNat ≠ 0 := fun hzero =>
      ho address object hobject (UInt32.toNat_inj.mp hzero)
    omega
  have hholding : 0 < h.holding address ↔ ∃ data ∈ h.wrappers, data.pointer = some address := by
    simp [holding, countP_pos_iff]
  rw [halive, hc.counted, references, ← hholding]
  omega

end Holders

/-- An object that only a wrapper holds, and that goes when it is disposed. -/
theorem alive_iff_held_disposed :
    ∃ h, ((heap line twoTypes).restrict (Countable line twoTypes)).Reachable h ∧
      (h.objects 0).isSome = false ∧ ((h.objects 0).isSome ↔
        0 < h.natives 0 ∨ 0 < h.carried 0 ∨ ∃ data ∈ h.wrappers, data.pointer = some 0) := by
  have hstart : ((heap line twoTypes).restrict (Countable line twoTypes)).Reachable start :=
    .init rfl
  have hnew := hstart.restrict_step (.objectNew 0) (fun _ hmem => by cases hmem) rfl
  have hpush := hnew.restrict_step (.push 0 2 (some 0) true true)
    (fun _ hmem => by cases hmem; decide) rfl
  have hrelease := hpush.restrict_step (.nativeRelease 0) (fun _ hmem => by cases hmem) rfl
  have hdispose := hrelease.restrict_step (.dispose 0 true) (fun _ hmem => by cases hmem) rfl
  exact ⟨_, hdispose, by decide, alive_iff_held hdispose 0⟩

end Lhatove.Lh.Heap
