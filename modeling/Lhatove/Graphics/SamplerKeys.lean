import Lhatove.Graphics.DisplayState
import Lhatove.Lib.BitFields
import Lhatove.Lib.Tables

/-!
# Keys of sampler states

`SamplerState::toKey` and `SamplerState::fromKey`, and the samplers that the vulkan backend keeps
by these keys.

- A number of type `float` is its bits.
- `fromKey` has no result where a field holds no value of its enumeration.
- `fromKey_toKey`: what of a state is left; `fromKey_toKey_iff`: when it is all.
- `getCachedSamplers_eq`: which samplers are got.
-/

namespace Lhatove.Graphics

open BitFields

/-! ## Enumerations -/

def FilterMode.value : FilterMode → BitVec 1
  | .linear => 0
  | .nearest => 1

def FilterMode.ofValue : Nat → Option FilterMode
  | 0 => some .linear
  | 1 => some .nearest
  | _ => none

def MipmapFilterMode.value : MipmapFilterMode → BitVec 2
  | .none => 0
  | .linear => 1
  | .nearest => 2

def MipmapFilterMode.ofValue : Nat → Option MipmapFilterMode
  | 0 => some .none
  | 1 => some .linear
  | 2 => some .nearest
  | _ => none

def WrapMode.value : WrapMode → BitVec 3
  | .clamp => 0
  | .clampZero => 1
  | .clampOne => 2
  | .repeat => 3
  | .mirroredRepeat => 4

def WrapMode.ofValue : Nat → Option WrapMode
  | 0 => some .clamp
  | 1 => some .clampZero
  | 2 => some .clampOne
  | 3 => some .repeat
  | 4 => some .mirroredRepeat
  | _ => none

def CompareMode.value : CompareMode → BitVec 4
  | .less => 0
  | .lequal => 1
  | .equal => 2
  | .gequal => 3
  | .greater => 4
  | .notEqual => 5
  | .always => 6
  | .never => 7

def CompareMode.ofValue : Nat → Option CompareMode
  | 0 => some .less
  | 1 => some .lequal
  | 2 => some .equal
  | 3 => some .gequal
  | 4 => some .greater
  | 5 => some .notEqual
  | 6 => some .always
  | 7 => some .never
  | _ => none

theorem FilterMode.ofValue_value (mode : FilterMode) :
    ofValue (mode.value.setWidth 64).toNat = some mode := by
  cases mode <;> rfl

theorem MipmapFilterMode.ofValue_value (mode : MipmapFilterMode) :
    ofValue (mode.value.setWidth 64).toNat = some mode := by
  cases mode <;> rfl

theorem WrapMode.ofValue_value (mode : WrapMode) :
    ofValue (mode.value.setWidth 64).toNat = some mode := by
  cases mode <;> rfl

theorem CompareMode.ofValue_value (mode : CompareMode) :
    ofValue (mode.value.setWidth 64).toNat = some mode := by
  cases mode <;> rfl

/-! ## Keys -/

namespace SamplerState

/-- `toKey`. Without a depth sample mode, the value of the optional one is the first. -/
def toKey (s : SamplerState (BitVec 32)) : BitVec 64 :=
  place 64 0 s.minFilter.value ||| place 64 1 s.magFilter.value ||| place 64 2 s.mipmapFilter.value
    ||| place 64 4 s.wrapU.value ||| place 64 7 s.wrapV.value ||| place 64 10 s.wrapW.value
    ||| place 64 13 s.maxAnisotropy ||| place 64 17 (0xF &&& s.minLod)
    ||| place 64 21 (0xF &&& s.maxLod)
    ||| place 64 25 (BitVec.ofBool s.depthSampleMode.isSome)
    ||| place 64 26 (s.depthSampleMode.getD .less).value
    ||| place 64 32 s.lodBias

/-- `BITS_1` -/
def bits1 : BitVec 64 := 0x1

/-- `BITS_2` -/
def bits2 : BitVec 64 := 0x3

/-- `BITS_3` -/
def bits3 : BitVec 64 := 0x7

/-- `BITS_4` -/
def bits4 : BitVec 64 := 0xF

def fromKey (key : BitVec 64) : Option (SamplerState (BitVec 32)) := do
  let minFilter ← FilterMode.ofValue (key >>> 0 &&& bits1).toNat
  let magFilter ← FilterMode.ofValue (key >>> 1 &&& bits1).toNat
  let mipmapFilter ← MipmapFilterMode.ofValue (key >>> 2 &&& bits2).toNat
  let wrapU ← WrapMode.ofValue (key >>> 4 &&& bits3).toNat
  let wrapV ← WrapMode.ofValue (key >>> 7 &&& bits3).toNat
  let wrapW ← WrapMode.ofValue (key >>> 10 &&& bits3).toNat
  let hasValue := key >>> 25 &&& bits1 ≠ 0
  let value ← CompareMode.ofValue (key >>> 26 &&& bits4).toNat
  return {
    minFilter, magFilter, mipmapFilter, wrapU, wrapV, wrapW
    lodBias := (key >>> 32).setWidth 32
    maxAnisotropy := (key >>> 13 &&& bits4).setWidth 8
    minLod := (key >>> 17 &&& bits4).setWidth 8
    maxLod := (key >>> 21 &&& bits4).setWidth 8
    depthSampleMode := if hasValue then some value else none }

/-! ### The fields of a key -/

theorem and_bits1 (key : BitVec 64) (k : Nat) :
    key >>> k &&& bits1 = (field k 1 key).setWidth 64 := shiftRight_and k 1 key

theorem and_bits2 (key : BitVec 64) (k : Nat) :
    key >>> k &&& bits2 = (field k 2 key).setWidth 64 := shiftRight_and k 2 key

theorem and_bits3 (key : BitVec 64) (k : Nat) :
    key >>> k &&& bits3 = (field k 3 key).setWidth 64 := shiftRight_and k 3 key

theorem and_bits4 (key : BitVec 64) (k : Nat) :
    key >>> k &&& bits4 = (field k 4 key).setWidth 64 := shiftRight_and k 4 key

section Fields

variable (s : SamplerState (BitVec 32))

theorem masked (level : BitVec 8) : 0xF &&& level = (level.setWidth 4).setWidth 8 := by
  revert level
  decide

theorem toKey_eq :
    s.toKey = place 64 0 s.minFilter.value ||| place 64 1 s.magFilter.value
      ||| place 64 2 s.mipmapFilter.value ||| place 64 4 s.wrapU.value ||| place 64 7 s.wrapV.value
      ||| place 64 10 s.wrapW.value ||| place 64 13 s.maxAnisotropy
      ||| place 64 17 (s.minLod.setWidth 4) ||| place 64 21 (s.maxLod.setWidth 4)
      ||| place 64 25 (BitVec.ofBool s.depthSampleMode.isSome)
      ||| place 64 26 (s.depthSampleMode.getD .less).value
      ||| place 64 32 s.lodBias := by
  rw [toKey, masked, masked, place_setWidth 17 (by decide), place_setWidth 21 (by decide)]

theorem field_minFilter : field 0 1 s.toKey = s.minFilter.value := by
  simp [toKey_eq]

theorem field_magFilter : field 1 1 s.toKey = s.magFilter.value := by
  simp [toKey_eq]

theorem field_mipmapFilter : field 2 2 s.toKey = s.mipmapFilter.value := by
  simp [toKey_eq]

theorem field_wrapU : field 4 3 s.toKey = s.wrapU.value := by
  simp [toKey_eq]

theorem field_wrapV : field 7 3 s.toKey = s.wrapV.value := by
  simp [toKey_eq]

theorem field_wrapW : field 10 3 s.toKey = s.wrapW.value := by
  simp [toKey_eq]

theorem field_maxAnisotropy : field 13 4 s.toKey = s.maxAnisotropy.setWidth 4 := by
  simp [toKey_eq, field_place_wide]

theorem field_minLod :
    field 17 4 s.toKey = field 4 4 s.maxAnisotropy ||| s.minLod.setWidth 4 := by
  simp [toKey_eq, field_place_high]

theorem field_maxLod : field 21 4 s.toKey = s.maxLod.setWidth 4 := by
  simp [toKey_eq]

theorem field_hasValue : field 25 1 s.toKey = BitVec.ofBool s.depthSampleMode.isSome := by
  simp [toKey_eq]

theorem field_value : field 26 4 s.toKey = (s.depthSampleMode.getD .less).value := by
  simp [toKey_eq]

theorem field_lodBias : field 32 32 s.toKey = s.lodBias := by
  simp [toKey_eq]

end Fields

/-! ## What a key keeps -/

theorem low_bits (level : BitVec 8) :
    ((level.setWidth 4).setWidth 64).setWidth 8 = level &&& 0xF := by
  revert level
  decide

theorem high_bits (level : BitVec 8) :
    ((field 4 4 level).setWidth 64).setWidth 8 = level >>> 4 := by
  revert level
  decide

/-- What is left of a state: four bits of each number, and the high bits of the anisotropy added
to the least level. -/
def kept (s : SamplerState (BitVec 32)) : SamplerState (BitVec 32) :=
  { s with
    maxAnisotropy := s.maxAnisotropy &&& 0xF
    minLod := s.maxAnisotropy >>> 4 ||| s.minLod &&& 0xF
    maxLod := s.maxLod &&& 0xF }

/-- **What `fromKey` makes of a key.** -/
theorem fromKey_toKey (s : SamplerState (BitVec 32)) : fromKey s.toKey = some s.kept := by
  have hdepth : (if (BitVec.ofBool s.depthSampleMode.isSome).setWidth 64 ≠ 0 then
      some (s.depthSampleMode.getD .less) else none) = s.depthSampleMode := by
    cases s.depthSampleMode <;> rfl
  have hbias : (s.toKey >>> 32).setWidth 32 = s.lodBias := field_lodBias s
  simp only [fromKey, and_bits1, and_bits2, and_bits3, and_bits4, field_minFilter,
    field_magFilter, field_mipmapFilter, field_wrapU, field_wrapV, field_wrapW, field_hasValue,
    field_value, field_maxAnisotropy, field_minLod, field_maxLod, FilterMode.ofValue_value,
    MipmapFilterMode.ofValue_value, WrapMode.ofValue_value, CompareMode.ofValue_value, hbias,
    BitVec.setWidth_or, low_bits, high_bits, Option.bind_eq_bind, Option.bind_some, Option.pure_def]
  rw [hdepth]
  rfl

/-- The numbers of a state need four bits each. -/
structure Fits (s : SamplerState (BitVec 32)) : Prop where
  maxAnisotropy : s.maxAnisotropy < 16
  minLod : s.minLod < 16
  maxLod : s.maxLod < 16

theorem and_eq_self_iff (level : BitVec 8) : level &&& 0xF = level ↔ level < 16 := by
  revert level
  decide

theorem shiftRight_eq_zero (level : BitVec 8) (h : level < 16) : level >>> 4 = 0 := by
  revert level
  decide

theorem kept_eq_iff (s : SamplerState (BitVec 32)) : s.kept = s ↔ s.Fits := by
  constructor
  · intro h
    have hmaxAnisotropy := (and_eq_self_iff _).mp (congrArg SamplerState.maxAnisotropy h)
    have hminLod : s.maxAnisotropy >>> 4 ||| s.minLod &&& 0xF = s.minLod :=
      congrArg SamplerState.minLod h
    rw [shiftRight_eq_zero _ hmaxAnisotropy] at hminLod
    exact ⟨hmaxAnisotropy, (and_eq_self_iff _).mp ((BitVec.zero_or).symm.trans hminLod),
      (and_eq_self_iff _).mp (congrArg SamplerState.maxLod h)⟩
  · rintro ⟨hmaxAnisotropy, hminLod, hmaxLod⟩
    obtain ⟨minFilter, magFilter, mipmapFilter, wrapU, wrapV, wrapW, lodBias, maxAnisotropy, minLod,
      maxLod, depthSampleMode⟩ := s
    rw [kept, shiftRight_eq_zero _ hmaxAnisotropy, (and_eq_self_iff _).mpr hmaxAnisotropy,
      (and_eq_self_iff _).mpr hminLod, (and_eq_self_iff _).mpr hmaxLod]
    congr 1
    exact BitVec.zero_or

/-- A state is got back from its key exactly if its numbers need four bits each; and two such
states have one key only if they are the same. -/
theorem fromKey_toKey_iff (s : SamplerState (BitVec 32)) :
    (fromKey s.toKey = some s ↔ s.Fits) ∧
      (s.Fits → ∀ s' : SamplerState (BitVec 32), s'.Fits → s.toKey = s'.toKey → s = s') := by
  constructor
  · rw [fromKey_toKey, Option.some_inj, kept_eq_iff]
  · intro hs s' hs' hkey
    have hkept := fromKey_toKey s
    rw [hkey, fromKey_toKey s', Option.some_inj] at hkept
    rw [← (kept_eq_iff s).mpr hs, ← (kept_eq_iff s').mpr hs', hkept]

/-- An anisotropy of 16 is a least level of 1. -/
theorem toKey_collides :
    ¬∀ s : SamplerState (BitVec 32), fromKey s.toKey = some s ∧
      ∀ s' : SamplerState (BitVec 32), s.toKey = s'.toKey → s = s' := by
  intro h
  have hsame := (h { lodBias := 0, maxAnisotropy := 16 }).2
    { lodBias := 0, maxAnisotropy := 0, minLod := 1 } (by decide)
  cases congrArg SamplerState.minLod hsame

/-! ## Cached samplers -/

/-- The states that samplers were created for, by their keys. -/
abbrev Samplers := Table (BitVec 64) (SamplerState (BitVec 32))

/-- `getCachedSampler`: the state of the sampler that is got. -/
def getCachedSampler (s : SamplerState (BitVec 32)) (samplers : Samplers) :
    SamplerState (BitVec 32) × Samplers :=
  match samplers.lookup s.toKey with
  | some sampler => (sampler, samplers)
  | none => (s, samplers.insert s.toKey s)

/-- The states of the samplers that are got, one after the other. -/
def getCachedSamplers : List (SamplerState (BitVec 32)) → Samplers → List (SamplerState (BitVec 32))
  | [], _ => []
  | s :: states, samplers =>
    (getCachedSampler s samplers).1 :: getCachedSamplers states (getCachedSampler s samplers).2

/-- Each sampler was created for the state with its key, whose numbers fit. -/
def Faithful (samplers : Samplers) : Prop :=
  ∀ key s, samplers.lookup key = some s → s.toKey = key ∧ s.Fits

/-- The first state with a key. -/
def firstOf (states : List (SamplerState (BitVec 32))) (key : BitVec 64) :
    Option (SamplerState (BitVec 32)) :=
  states.find? fun s => s.toKey = key

/-- One request: the table still has the first state of each key. -/
theorem getCachedSampler_firstOf {before : List (SamplerState (BitVec 32))} {samplers : Samplers}
    (h : ∀ key, samplers.lookup key = firstOf before key) (s : SamplerState (BitVec 32)) :
    (getCachedSampler s samplers).1 = (firstOf before s.toKey).getD s ∧
      ∀ key, (getCachedSampler s samplers).2.lookup key = firstOf (before ++ [s]) key := by
  unfold getCachedSampler
  rw [h]
  cases hfirst : firstOf before s.toKey with
  | some sampler =>
    refine ⟨rfl, fun key => ?_⟩
    rw [h, firstOf, firstOf, List.find?_append]
    by_cases hkey : s.toKey = key
    · subst hkey
      rw [← firstOf, hfirst]
      rfl
    · simp [hkey]
  | none =>
    refine ⟨rfl, fun key => ?_⟩
    rw [Table.lookup_insert_eq, h, firstOf, firstOf, List.find?_append]
    by_cases hkey : s.toKey = key
    · subst hkey
      rw [← firstOf, hfirst]
      simp
    · simp [hkey, Ne.symm hkey]

theorem getCachedSamplers_firstOf (states : List (SamplerState (BitVec 32))) :
    ∀ (before : List (SamplerState (BitVec 32))) (samplers : Samplers),
      (∀ key, samplers.lookup key = firstOf before key) →
      getCachedSamplers states samplers =
        states.map fun s => (firstOf (before ++ states) s.toKey).getD s := by
  induction states with
  | nil => exact fun _ _ _ => rfl
  | cons s states ih =>
    intro before samplers hlookup
    obtain ⟨hgot, hnext⟩ := getCachedSampler_firstOf hlookup s
    have hfirst : (firstOf (before ++ s :: states) s.toKey).getD s =
        (firstOf before s.toKey).getD s := by
      simp only [firstOf, List.find?_append, List.find?_cons, decide_true]
      cases before.find? fun s' => decide (s'.toKey = s.toKey) <;> rfl
    rw [getCachedSamplers, List.map_cons, hgot, hfirst, ih _ _ hnext, List.append_assoc]
    rfl

end SamplerState

end Lhatove.Graphics
