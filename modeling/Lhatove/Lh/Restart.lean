import Lhatove.Lh.TypeRegistry

/-!
# Values that survive a restart

`love.event.restart` hands a value to the next run, as a `Variant`. Tables and closures
cross as the copy that `lhat_carry` makes.

- Values of a machine are a heap: tables may hold each other.
- `lhat_carry` is a parameter. `CarryContract` is what is relied on: the host data in a
  copy are those that the value reaches.
- `restartsClean_iff`: for which values no object of the run crosses.
-/

namespace Lhatove.Lh

/-! ## Values of a machine -/

/-- `LhatValue`; a string is its text, and other objects are on the heap. -/
inductive LhatValue (R : Type)
  | nil
  | bool (b : Bool)
  | integer (n : Int)
  | real (x : R)
  | string (text : String)
  | object (id : Nat)

/-- The objects of a heap. `other` are those that cannot be copied: coroutines,
definitions, errors. -/
inductive LhatObject (Tag R : Type)
  | table (entries : List (LhatValue R × LhatValue R))
  | closure (captured : List (LhatValue R))
  | hostdata (tag : Tag) (pointer : Option Nat) (released : Bool)
  | other

abbrev LhatHeap (Tag R : Type) := Nat → LhatObject Tag R

section Reach

variable {Tag R : Type}

/-- The objects that a value is, or holds at some depth. -/
inductive Within (heap : LhatHeap Tag R) : LhatValue R → Nat → Prop
  | self (id : Nat) : Within heap (.object id) id
  | key {id j : Nat} {entries : List (LhatValue R × LhatValue R)} {key value : LhatValue R} :
      heap id = .table entries → (key, value) ∈ entries → Within heap key j →
      Within heap (.object id) j
  | value {id j : Nat} {entries : List (LhatValue R × LhatValue R)} {key value : LhatValue R} :
      heap id = .table entries → (key, value) ∈ entries → Within heap value j →
      Within heap (.object id) j
  | captured {id j : Nat} {captured : List (LhatValue R)} {value : LhatValue R} :
      heap id = .closure captured → value ∈ captured → Within heap value j →
      Within heap (.object id) j

/-- The value is, or holds at some depth, live host data with this pointer. -/
def Nested (heap : LhatHeap Tag R) (value : LhatValue R) (tag : Tag) (pointer : Nat) : Prop :=
  ∃ id, Within heap value id ∧ heap id = .hostdata tag (some pointer) false

end Reach

/-! ## Variants -/

/-- `Variant`, as far as `variantOf` makes any. `carried` is an object of type
`Carried`, which holds a copy of `lhat_carry`. -/
inductive Variant (Ty R Carried : Type)
  | nil
  | boolean (b : Bool)
  | number (x : R)
  | string (text : String)
  | loveobject (type : Ty) (object : Nat)
  | carried (copy : Carried)

/-- `event::Message` -/
structure Message (Ty R Carried : Type) where
  name : String
  args : List (Variant Ty R Carried)

/-- What `dispatch` makes of a quit message. -/
inductive Quit (Ty R Carried : Type)
  | vetoed
  | restarts (payload : Variant Ty R Carried) (gamePath : Option String)
  | exits (code : Option R)

section Restart

variable {Ty Tag R Carried : Type} [DecidableEq Ty]
variable (F : Forest Ty) (carriedType : Ty) (registry : TypeRegistry Ty Tag) (toReal : Int → R)
variable (carry : LhatHeap Tag R → LhatValue R → Except (Option String) Carried)

/-- `variantOf`; an error says why. -/
def variantOf (heap : LhatHeap Tag R) : LhatValue R → Except String (Variant Ty R Carried)
  | .nil => .ok .nil
  | .bool b => .ok (.boolean b)
  | .integer n => .ok (.number (toReal n))
  | .real x => .ok (.number x)
  | .string text => .ok (.string text)
  | .object id =>
    match heap id with
    | .hostdata tag pointer released =>
      match registry.typeFor tag, pointer, released with
      | some type, some object, false => .ok (.loveobject type object)
      | _, _, _ => .error "the object is not one LOVE can carry"
    | _ =>
      match carry heap (.object id) with
      | .error refused => .error (refused.getD "out of memory")
      | .ok copy => .ok (.carried copy)

/-- `love.event.restart`: the message that it pushes, or what it raises. -/
def restart (heap : LhatHeap Tag R) (arguments : List (LhatValue R)) :
    Except String (Message Ty R Carried) :=
  match arguments with
  | [] | .nil :: _ => .ok ⟨"quit", [.string "restart", .nil]⟩
  | value :: _ =>
    match variantOf registry toReal carry heap value with
    | .error why => .error ("The restart payload cannot cross: " ++ why)
    | .ok (.loveobject type object) =>
      if F.isa type carriedType then
        .ok ⟨"quit", [.string "restart", .loveobject type object]⟩
      else .error "A LOVE object cannot be a restart payload"
    | .ok payload => .ok ⟨"quit", [.string "restart", payload]⟩

/-- `love.event.dispatch`, for a quit message; `vetoed` is what `love.quit` answers. -/
def dispatchQuit (m : Message Ty R Carried) (vetoed : Bool) : Quit Ty R Carried :=
  let first := m.args.getD 0 .nil
  let second := m.args.getD 1 .nil
  let third := m.args.getD 2 .nil
  let forced := match third with
    | .boolean forced => forced
    | _ => false
  if !forced && vetoed then .vetoed
  else
    match first with
    | .string _ =>
      .restarts second (match third with
        | .string path => some path
        | _ => none)
    | .number code => .exits (some code)
    | _ => .exits none

/-! ## What crosses -/

variable (hostdata : Carried → Tag → Nat → Prop)

/-- `lhat_carry` copies what a value holds at any depth, with the host data in it. -/
structure CarryContract : Prop where
  copies : ∀ heap value copy, carry heap value = .ok copy → ∀ tag pointer,
    hostdata copy tag pointer ↔ Nested heap value tag pointer

/-- There is a LOVE object in what is handed to the next run. -/
def HoldsObject : Variant Ty R Carried → Prop
  | .loveobject _ _ => True
  | .carried copy => ∃ tag pointer, hostdata copy tag pointer ∧ (registry.typeFor tag).isSome = true
  | _ => False

/-- If the call is accepted, no LOVE object is handed to the next run. -/
def RestartsClean (heap : LhatHeap Tag R) (arguments : List (LhatValue R)) : Prop :=
  ∀ m, restart F carriedType registry toReal carry heap arguments = .ok m →
    ∀ vetoed payload gamePath, dispatchQuit m vetoed = .restarts payload gamePath →
      ¬ HoldsObject registry hostdata payload

/-- A value that can cross: a table or a closure, or what else `lhat_carry` is asked for,
that it refuses or that holds no LOVE object at any depth; and no wrapper of a `Carried`. -/
def CanCross (heap : LhatHeap Tag R) : LhatValue R → Prop
  | .object id =>
    match heap id with
    | .hostdata tag (some _) false =>
      ∀ type, registry.typeFor tag = some type → F.isa type carriedType = false
    | .hostdata .. => True
    | _ =>
      (∃ refused, carry heap (.object id) = .error refused) ∨
        ∀ tag pointer, Nested heap (.object id) tag pointer → registry.typeFor tag = none
  | _ => True

variable {F carriedType registry toReal carry hostdata}

omit [DecidableEq Ty] in
/-- `dispatch` hands that payload over, if `love.quit` has no veto. -/
theorem dispatchQuit_restart (payload : Variant Ty R Carried) (vetoed : Bool) :
    dispatchQuit (⟨"quit", [.string "restart", payload]⟩ : Message Ty R Carried) vetoed
      = if vetoed then .vetoed else .restarts payload none := rfl

theorem restartsClean_of_error {heap : LhatHeap Tag R} {arguments : List (LhatValue R)}
    {why : String} (h : restart F carriedType registry toReal carry heap arguments = .error why) :
    RestartsClean F carriedType registry toReal carry hostdata heap arguments := by
  intro m hm
  rw [h] at hm
  cases hm

theorem restartsClean_of_ok {heap : LhatHeap Tag R} {arguments : List (LhatValue R)}
    {payload : Variant Ty R Carried}
    (h : restart F carriedType registry toReal carry heap arguments
      = .ok ⟨"quit", [.string "restart", payload]⟩) :
    RestartsClean F carriedType registry toReal carry hostdata heap arguments ↔
      ¬ HoldsObject registry hostdata payload := by
  constructor
  · intro hclean
    exact hclean _ h false payload none (dispatchQuit_restart payload false)
  · intro hholds m hm vetoed payload' gamePath hquit
    rw [h] at hm
    cases hm
    cases vetoed with
    | true => cases hquit
    | false =>
      cases hquit
      exact hholds

/-- A wrapper is accepted only if it is one of a `Carried`. -/
theorem restartsClean_wrapper {heap : LhatHeap Tag R} {id pointer : Nat} {tag : Tag}
    {rest : List (LhatValue R)} (hid : heap id = .hostdata tag (some pointer) false) :
    RestartsClean F carriedType registry toReal carry hostdata heap (.object id :: rest) ↔
      ∀ type, registry.typeFor tag = some type → F.isa type carriedType = false := by
  cases htype : registry.typeFor tag with
  | none =>
    have hraises : ∃ why,
        restart F carriedType registry toReal carry heap (.object id :: rest) = .error why :=
      ⟨_, by simp only [restart, variantOf, hid, htype]; rfl⟩
    obtain ⟨why, hraises⟩ := hraises
    exact iff_of_true (restartsClean_of_error hraises) (fun type h => by cases h)
  | some type =>
    cases hisa : F.isa type carriedType with
    | false =>
      have hraises : restart F carriedType registry toReal carry heap (.object id :: rest)
          = .error "A LOVE object cannot be a restart payload" := by
        simp [restart, variantOf, hid, htype, hisa]
      refine iff_of_true (restartsClean_of_error hraises) (fun type' h => ?_)
      cases h
      exact hisa
    | true =>
      have hpushed : restart F carriedType registry toReal carry heap (.object id :: rest)
          = .ok ⟨"quit", [.string "restart", .loveobject type pointer]⟩ := by
        simp [restart, variantOf, hid, htype, hisa]
      rw [restartsClean_of_ok hpushed]
      constructor
      · intro hholds
        exact absurd trivial hholds
      · intro hnot
        rw [hnot type rfl] at hisa
        cases hisa

/-- What `lhat_carry` is asked for: the check at the top level does not look into it. -/
theorem restartsClean_carried (hcontract : CarryContract carry hostdata)
    {heap : LhatHeap Tag R} {id : Nat} {rest : List (LhatValue R)}
    (hid : ∀ tag pointer released, heap id ≠ .hostdata tag pointer released) :
    RestartsClean F carriedType registry toReal carry hostdata heap (.object id :: rest) ↔
      (∃ refused, carry heap (.object id) = .error refused) ∨
        ∀ tag pointer, Nested heap (.object id) tag pointer → registry.typeFor tag = none := by
  have hvariant : variantOf registry toReal carry heap (.object id)
      = match carry heap (.object id) with
        | .error refused => .error (refused.getD "out of memory")
        | .ok copy => .ok (.carried copy) := by
    simp only [variantOf]
  cases hcarry : carry heap (.object id) with
  | error refused =>
    rw [hcarry] at hvariant
    have hraises : restart F carriedType registry toReal carry heap (.object id :: rest)
        = .error ("The restart payload cannot cross: " ++ refused.getD "out of memory") := by
      simp [restart, hvariant]
    exact iff_of_true (restartsClean_of_error hraises) (.inl ⟨refused, rfl⟩)
  | ok copy =>
    rw [hcarry] at hvariant
    have hpushed : restart F carriedType registry toReal carry heap (.object id :: rest)
        = .ok ⟨"quit", [.string "restart", .carried copy]⟩ := by
      simp [restart, hvariant]
    have hcopies := hcontract.copies heap (.object id) copy hcarry
    rw [restartsClean_of_ok hpushed]
    constructor
    · intro hholds
      refine .inr fun tag pointer hnested => ?_
      by_contra hshared
      exact hholds ⟨tag, pointer, (hcopies tag pointer).mpr hnested,
        Option.isSome_iff_ne_none.mpr hshared⟩
    · rintro (⟨refused, hrefused⟩ | hnone)
      · cases hrefused
      · rintro ⟨tag, pointer, hcopied, hshared⟩
        rw [hnone tag pointer ((hcopies tag pointer).mp hcopied)] at hshared
        cases hshared

/-- **A restart hands no object over** exactly for a value that can cross. -/
theorem restartsClean_iff (hcontract : CarryContract carry hostdata) (heap : LhatHeap Tag R)
    (arguments : List (LhatValue R)) :
    RestartsClean F carriedType registry toReal carry hostdata heap arguments ↔
      ∀ value rest, arguments = value :: rest →
        CanCross F carriedType registry carry heap value := by
  -- no scalar is an object, and one that is not live is refused
  have hscalar : ∀ payload : Variant Ty R Carried, ¬ HoldsObject registry hostdata payload →
      restart F carriedType registry toReal carry heap arguments
        = .ok ⟨"quit", [.string "restart", payload]⟩ →
      RestartsClean F carriedType registry toReal carry hostdata heap arguments :=
    fun _ hholds h => (restartsClean_of_ok h).mpr hholds
  cases arguments with
  | nil => exact iff_of_true (hscalar .nil id rfl) (fun value rest h => by cases h)
  | cons value rest =>
    have hall : (∀ value' rest', value :: rest = value' :: rest' →
        CanCross F carriedType registry carry heap value') ↔
        CanCross F carriedType registry carry heap value :=
      ⟨fun h => h value rest rfl, fun h value' rest' heq => by cases heq; exact h⟩
    rw [hall]
    cases value with
    | nil => exact iff_of_true (hscalar .nil id rfl) trivial
    | bool b => exact iff_of_true (hscalar (.boolean b) id rfl) trivial
    | integer n => exact iff_of_true (hscalar (.number (toReal n)) id rfl) trivial
    | real x => exact iff_of_true (hscalar (.number x) id rfl) trivial
    | string text => exact iff_of_true (hscalar (.string text) id rfl) trivial
    | object id =>
      cases hid : heap id with
      | hostdata tag pointer released =>
        have hdead : pointer = none ∨ released = true →
            RestartsClean F carriedType registry toReal carry hostdata heap (.object id :: rest) := by
          intro hdead
          have hvariant : variantOf registry toReal carry heap (.object id)
              = .error "the object is not one LOVE can carry" := by
            rcases hdead with rfl | rfl <;> simp [variantOf, hid]
          have hraises : restart F carriedType registry toReal carry heap (.object id :: rest)
              = .error ("The restart payload cannot cross: "
                  ++ "the object is not one LOVE can carry") := by
            simp only [restart, hvariant]
          exact restartsClean_of_error hraises
        cases pointer with
        | none => exact iff_of_true (hdead (.inl rfl)) (by simp only [CanCross, hid])
        | some pointer =>
          cases released with
          | true => exact iff_of_true (hdead (.inr rfl)) (by simp only [CanCross, hid])
          | false =>
            rw [restartsClean_wrapper hid]
            simp only [CanCross, hid]
      | table entries =>
        rw [restartsClean_carried hcontract (by simp [hid])]
        simp only [CanCross, hid]
      | closure captured =>
        rw [restartsClean_carried hcontract (by simp [hid])]
        simp only [CanCross, hid]
      | other =>
        rw [restartsClean_carried hcontract (by simp [hid])]
        simp only [CanCross, hid]

end Restart

/-! ### A value in a table -/

/-- `Image` is `false` and `lh.Carried` is `true`; only the first has a tag. -/
def imageRegistry : TypeRegistry Bool Unit where
  tags := [(false, ())]
  types _ := some false
  types_tags := by decide

def imageForest : Forest Bool where
  parent _ := none
  depth _ := 0
  depth_parent h := by cases h

/-- A copy: the heap as it was. -/
def snapshot (heap : LhatHeap Unit Int) : LhatValue Int →
    Except (Option String) (LhatHeap Unit Int × LhatValue Int)
  | .object id =>
    match heap id with
    | .other => .error (some "a coroutine cannot be carried")
    | _ => .ok (heap, .object id)
  | value => .ok (heap, value)

def snapshotHostdata (copy : LhatHeap Unit Int × LhatValue Int) : Unit → Nat → Prop :=
  Nested copy.1 copy.2

theorem snapshot_contract : CarryContract snapshot snapshotHostdata where
  copies heap value copy h tag pointer := by
    have hcopy : copy = (heap, value) := by
      unfold snapshot at h
      split at h
      · split at h
        · cases h
        · exact (Except.ok.inj h).symm
      · exact (Except.ok.inj h).symm
    rw [hcopy]
    rfl

/-- The table at 0 has one value under the key 1; the object at 1 is an `Image`. -/
def oneEntry (value : LhatValue Int) : LhatHeap Unit Int
  | 0 => .table [(.integer 1, value)]
  | _ => .hostdata () (some 7) false

theorem restartsClean_number :
    RestartsClean imageForest true imageRegistry (fun n => n) snapshot snapshotHostdata
      (oneEntry (.integer 5)) [.object 0] := by
  refine (restartsClean_iff snapshot_contract _ _).mpr fun value rest h => ?_
  cases h
  refine .inr fun tag pointer hnested => ?_
  obtain ⟨id, hwithin, hid⟩ := hnested
  cases hwithin with
  | self => cases hid
  | key hentries hmem hwithin =>
    cases hentries
    cases List.mem_singleton.mp hmem
    cases hwithin
  | value hentries hmem hwithin =>
    cases hentries
    cases List.mem_singleton.mp hmem
    cases hwithin
  | captured hcaptured => cases hcaptured

/-- An object is accepted when it is in a table. -/
theorem not_always_restartsClean :
    ¬ ∀ (hostdata : LhatHeap Unit Int × LhatValue Int → Unit → Nat → Prop),
      CarryContract snapshot hostdata → ∀ heap arguments,
      RestartsClean imageForest true imageRegistry (fun n => n) snapshot hostdata heap
        arguments := by
  intro h
  have hpushed : restart imageForest true imageRegistry (fun n => n) snapshot
      (oneEntry (.object 1)) [.object 0]
      = .ok ⟨"quit", [.string "restart", .carried (oneEntry (.object 1), .object 0)]⟩ := rfl
  refine (restartsClean_of_ok hpushed).mp (h snapshotHostdata snapshot_contract _ _) ?_
  refine ⟨(), 7, ⟨1, ?_, rfl⟩, rfl⟩
  exact .value rfl (List.mem_singleton.mpr rfl) (.self 1)

end Lhatove.Lh
