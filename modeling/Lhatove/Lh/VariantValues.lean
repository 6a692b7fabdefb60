import Lhatove.Lib.Significands

/-!
# Values in a Variant

`variantOf` and `pushVariant`: a value of the L^ program as a `love::Variant`, and
back. A `Variant` has one kind of number, `double`, and two of strings, those of
at most 15 bytes inside of it.
-/

namespace Lhatove.Lh.Carrier

/-! ## Numbers -/

/-- A number of type `double`: a rational number, or the bits of what is none (the infinities,
those that are no number, minus zero). -/
inductive Double
  | num (q : ℚ)
  | special (bits : BitVec 64)
  deriving DecidableEq

/-- The cast of an `int64_t` to `double`. -/
def Double.ofInt (n : Int64) : Double :=
  let magnitude : ℚ := roundTo 53 n.toInt.natAbs
  .num (if n.toInt < 0 then -magnitude else magnitude)

/-! ## Values -/

/-- `LhatValue`; a string is its bytes. -/
inductive Value
  | nil
  | bool (b : Bool)
  | integer (n : Int64)
  | real (x : Double)
  | string (text : List UInt8)
  | object (id : Nat)
  deriving DecidableEq

mutual

/-- `Variant`, the `type` with the part of `data` that it names. -/
inductive Variant (Ty : Type)
  | unknown
  | boolean (boolean : Bool)
  | number (number : Double)
  /-- `SharedString` -/
  | string (str : List UInt8) (len : Nat)
  | smallstring (str : List UInt8) (len : UInt8)
  | luserdata (userdata : Int64)
  | loveobject (type : Option Ty) (object : Option Nat)
  | nil
  | table (pairs : Pairs Ty)

/-- The `pairs` of a `SharedTable`. -/
inductive Pairs (Ty : Type)
  | nil
  | cons (key value : Variant Ty) (rest : Pairs Ty)

end

/-- `MAX_SMALL_STRING_LENGTH` -/
def maxSmallStringLength : Nat := 15

/-- `Variant::Variant(str, len)`; `junk` is what is in the 15 bytes before. -/
def Variant.ofText {Ty : Type} (junk str : List UInt8) : Variant Ty :=
  if str.length ≤ maxSmallStringLength then
    .smallstring (str ++ junk.drop str.length) (UInt8.ofNat str.length)
  else .string (str ++ [0]) str.length

/-- What the two functions ask of the L^ runtime, of the registry and of `pushObject`. -/
structure Machine (Ty Tag : Type) where
  /-- `lhat_machine_make_string` is not out of memory. -/
  makesString : List UInt8 → Bool
  /-- `lhat_machine_make_table`, with these entries set one after another. -/
  makeTable : List (Value × Value) → Option Nat
  /-- The tag, the pointer and `released` of host data. -/
  hostdata : Nat → Option (Tag × Option Nat × Bool)
  typeFor : Tag → Option Ty
  carriedType : Ty
  isCarried : Ty → Bool
  /-- `lhat_carry`, and the `Carried` that holds the copy. -/
  carry : Nat → Except (Option String) Nat
  /-- `Carried::get` -/
  uncarry : Nat → Value
  pushObject : Ty → Nat → Value

section

variable {Ty Tag : Type} (machine : Machine Ty Tag)

def variantOf (junk : List UInt8) : Value → Except String (Variant Ty)
  | .nil => .ok .nil
  | .bool b => .ok (.boolean b)
  | .integer n => .ok (.number (Double.ofInt n))
  | .real x => .ok (.number x)
  | .string text => .ok (.ofText junk text)
  | .object id =>
    match machine.hostdata id with
    | some (tag, pointer, released) =>
      match machine.typeFor tag, pointer, released with
      | some type, some object, false => .ok (.loveobject (some type) (some object))
      | _, _, _ => .error "the object is not one LOVE can carry"
    | none =>
      match machine.carry id with
      | .error refused => .error (refused.getD "out of memory")
      | .ok copy => .ok (.loveobject (some machine.carriedType) (some copy))

/-- `makeString`, from the bytes of a `std::string`; nil where it fails. -/
def makeString (text : List UInt8) : Value :=
  if machine.makesString text then .string text else .nil

mutual

def pushVariant : Variant Ty → Value
  | .boolean boolean => .bool boolean
  | .number number => .real number
  | .string str len => makeString machine (str.take len)
  | .smallstring str len => makeString machine (str.take len.toNat)
  | .loveobject type object =>
    match type, object with
    | some type, some object =>
      if machine.isCarried type then machine.uncarry object else machine.pushObject type object
    | _, _ => .nil
  | .table pairs =>
    match machine.makeTable (pushPairs pairs) with
    | none => .nil
    | some id => .object id
  | .luserdata userdata => .integer userdata
  | .nil => .nil
  | .unknown => .nil

/-- The entries that are set; those with a key of nil are not. -/
def pushPairs : Pairs Ty → List (Value × Value)
  | .nil => []
  | .cons key value rest =>
    let key := pushVariant key
    let value := pushVariant value
    if key = .nil then pushPairs rest else (key, value) :: pushPairs rest

end

end

/-! ## What comes back -/

/-- The number that a value is. -/
def Value.number : Value → Option Double
  | .integer n => some (.num n.toInt)
  | .real x => some x
  | _ => none

/-- Nil, a boolean, a number or a string. -/
def Value.Plain : Value → Prop
  | .object _ => False
  | _ => True

/-- The same nil, boolean, number or bytes. -/
def Survives (v w : Value) : Prop :=
  match v with
  | .nil => w = .nil
  | .bool b => w = .bool b
  | .string text => w = .string text
  | v => v.number.isSome ∧ w.number = v.number

/-- An integer of at most 53 significant bits, a string that there is memory for. -/
def Carries {Ty Tag : Type} (machine : Machine Ty Tag) : Value → Prop
  | .integer n => FitsIn 53 n.toInt.natAbs
  | .string text => machine.makesString text = true
  | _ => True

theorem ofInt_eq_iff (n : Int64) :
    Double.ofInt n = .num n.toInt ↔ FitsIn 53 n.toInt.natAbs := by
  rw [← roundTo_eq_iff]
  obtain ⟨m, hm⟩ : ∃ m, m = n.toInt := ⟨_, rfl⟩
  rw [Double.ofInt, ← hm]
  rw [Double.num.injEq]
  split_ifs with hneg
  · have habs : (m : ℚ) = -((m.natAbs : ℕ) : ℚ) := by
      rw [Nat.cast_natAbs, abs_of_neg hneg, Int.cast_neg, neg_neg]
    rw [habs, neg_inj, Nat.cast_inj]
  · have habs : (m : ℚ) = ((m.natAbs : ℕ) : ℚ) := by
      rw [Nat.cast_natAbs, abs_of_nonneg (not_lt.mp hneg)]
    rw [habs, Nat.cast_inj]

variable {Ty Tag : Type} {machine : Machine Ty Tag} {junk : List UInt8}

theorem push_ofText (text : List UInt8) :
    pushVariant machine (.ofText junk text) = makeString machine text := by
  unfold Variant.ofText
  split_ifs with hsmall
  · have hlen : (UInt8.ofNat text.length).toNat = text.length := by
      unfold maxSmallStringLength at hsmall
      rw [UInt8.toNat_ofNat', Nat.mod_eq_of_lt (by omega)]
    rw [pushVariant, hlen, List.take_left]
  · rw [pushVariant, List.take_left]

theorem survives_string_iff (text : List UInt8) :
    Survives (.string text) (makeString machine text) ↔ machine.makesString text = true := by
  unfold makeString Survives
  split_ifs with hmade <;> simp [hmade]

/-- A plain value comes back as it was exactly if it is one that the carrier can carry. -/
theorem survives_iff_carries {v : Value} {variant : Variant Ty} (hplain : v.Plain)
    (h : variantOf machine junk v = .ok variant) :
    Survives v (pushVariant machine variant) ↔ Carries machine v := by
  cases v with
  | nil =>
    cases h
    exact ⟨fun _ => trivial, fun _ => rfl⟩
  | bool b =>
    cases h
    exact ⟨fun _ => trivial, fun _ => rfl⟩
  | integer n =>
    cases h
    rw [pushVariant, Carries, ← ofInt_eq_iff]
    simp [Survives, Value.number]
  | real x =>
    cases h
    rw [pushVariant]
    simp [Survives, Value.number, Carries]
  | string text =>
    cases h
    rw [push_ofText]
    exact survives_string_iff text
  | object id => exact hplain.elim

/-! ## Examples -/

/-- A machine with memory, without objects. -/
def plainMachine : Machine Unit Unit where
  makesString _ := true
  makeTable _ := none
  hostdata _ := none
  typeFor _ := none
  carriedType := ()
  isCarried _ := true
  carry _ := .error none
  uncarry _ := .nil
  pushObject _ _ := .nil

/-- Two to the power of 53. -/
theorem survives_iff_carries_large : ∃ variant,
    variantOf plainMachine [] (.integer 9007199254740992) = .ok variant ∧
      Survives (.integer 9007199254740992) (pushVariant plainMachine variant) :=
  ⟨_, rfl, (@survives_iff_carries _ _ plainMachine [] (.integer 9007199254740992) _ trivial rfl).mpr
    ⟨1, 53, by norm_num, by decide⟩⟩

/-- The integer after it comes back as that power. -/
theorem integer_not_survives : ∃ variant,
    variantOf plainMachine [] (.integer 9007199254740993) = .ok variant ∧
      pushVariant plainMachine variant = .real (.num 9007199254740992) ∧
      ¬ Survives (.integer 9007199254740993) (pushVariant plainMachine variant) := by
  have hpush : pushVariant plainMachine (.number (.ofInt 9007199254740993)) =
      .real (.num 9007199254740992) := by decide +kernel
  refine ⟨_, rfl, hpush, ?_⟩
  rw [hpush]
  rintro ⟨-, hnumber⟩
  exact absurd hnumber (by decide +kernel)

end Lhatove.Lh.Carrier
