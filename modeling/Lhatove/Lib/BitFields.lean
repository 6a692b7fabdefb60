import Mathlib.Tactic

/-!
# Bit fields

Fields that are packed into a word by shifts and read by a shift and a mask.

- `field`: the bits of a word from one position on;
- `field_or`: a word of several parts is read part by part;
- `field_place`, `field_place_below`, `field_place_above`, `field_place_high`: what is read of a
  part.
-/

namespace Lhatove.BitFields

variable {m w n : Nat}

/-- `w` bits of a word, from bit `k` on. -/
def field (k w : Nat) (word : BitVec m) : BitVec w := (word >>> k).setWidth w

/-- A value shifted to bit `j` of a wider word. -/
def place (m j : Nat) (value : BitVec w) : BitVec m := value.setWidth m <<< j

theorem getLsbD_field (k : Nat) (word : BitVec m) (i : Nat) :
    (field k w word).getLsbD i = (decide (i < w) && word.getLsbD (k + i)) := by
  rw [field, BitVec.getLsbD_setWidth, BitVec.getLsbD_ushiftRight]

theorem getLsbD_place (j : Nat) (value : BitVec w) (i : Nat) :
    (place m j value).getLsbD i = (decide (i < m) && !decide (i < j) && value.getLsbD (i - j)) := by
  rw [place, BitVec.getLsbD_shiftLeft, BitVec.getLsbD_setWidth]
  by_cases hm : i < m
  · have hsub : i - j < m := by omega
    simp [hm, hsub]
  · simp [hm]

theorem place_setWidth (j : Nat) (h : w ≤ n) (value : BitVec w) :
    place m j (value.setWidth n) = place m j value := by
  rw [place, place, BitVec.setWidth_setWidth (by omega)]

theorem shiftRight_and (k w : Nat) (word : BitVec m) :
    word >>> k &&& BitVec.setWidth m (BitVec.allOnes w) = (field k w word).setWidth m := by
  refine BitVec.eq_of_getLsbD_eq fun i hi => ?_
  rw [BitVec.getLsbD_and, BitVec.getLsbD_setWidth, BitVec.getLsbD_setWidth, getLsbD_field,
    BitVec.getLsbD_ushiftRight, BitVec.getLsbD_allOnes]
  cases word.getLsbD (k + i) <;> simp [hi]

@[simp] theorem field_or (k : Nat) (a b : BitVec m) :
    field k w (a ||| b) = field k w a ||| field k w b := by
  rw [field, BitVec.ushiftRight_or_distrib, BitVec.setWidth_or]
  rfl

theorem field_place_wide (k : Nat) (h : k + w ≤ m) (value : BitVec n) :
    field k w (place m k value) = value.setWidth w := by
  refine BitVec.eq_of_getLsbD_eq fun i hi => ?_
  have hm : k + i < m := by omega
  rw [getLsbD_field, getLsbD_place, Nat.add_sub_cancel_left, BitVec.getLsbD_setWidth]
  simp [hi, hm]

@[simp] theorem field_place (k : Nat) (h : k + w ≤ m) (value : BitVec w) :
    field k w (place m k value) = value := by
  rw [field_place_wide k h, BitVec.setWidth_eq]

@[simp] theorem field_place_below {j k : Nat} (h : j + n ≤ k) (value : BitVec n) :
    field k w (place m j value) = 0 := by
  refine BitVec.eq_of_getLsbD_eq fun i hi => ?_
  rw [getLsbD_field, getLsbD_place, BitVec.getLsbD_of_ge value _ (by omega)]
  simp

@[simp] theorem field_place_above {j k : Nat} (h : k + w ≤ j) (value : BitVec n) :
    field k w (place m j value) = 0 := by
  refine BitVec.eq_of_getLsbD_eq fun i hi => ?_
  have hj : k + i < j := by omega
  rw [getLsbD_field, getLsbD_place]
  simp [hj]

/-- The high bits of a part that is wider than its place reach into the next field. -/
theorem field_place_high {j k : Nat} (hjk : j ≤ k) (h : k + w ≤ m) (value : BitVec n) :
    field k w (place m j value) = field (k - j) w value := by
  refine BitVec.eq_of_getLsbD_eq fun i hi => ?_
  have hm : k + i < m := by omega
  have hj : ¬k + i < j := by omega
  rw [getLsbD_field, getLsbD_place, getLsbD_field, show k + i - j = k - j + i by omega]
  simp [hi, hm, hj]

end Lhatove.BitFields
