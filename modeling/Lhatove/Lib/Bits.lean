import Mathlib.Data.List.GetD
import Mathlib.Tactic

/-!
# Bytes, bits and words

- `bits`: the bits of a byte string, the high-order bit of each byte first;
- `wordOf`: the word that a bit string is, the high-order bit first;
- `loadLE`, `storeLE`: words in the memory of a little-endian machine;
- `overwrite`: bytes replaced in a buffer.
-/

namespace Lhatove

open List
open BitVec (getLsbD_setWidth getMsbD_eq_getLsbD ofBoolListBE ofNat)

abbrev Byte := BitVec 8

/-! ## Bits -/

/-- The bits of a word, the high-order bit first. -/
def bitsOf {w : Nat} (word : BitVec w) : List Bool := (List.range w).map word.getMsbD

/-- The bits of a byte string. -/
def bits (bytes : List Byte) : List Bool := bytes.flatMap bitsOf

/-- The word of `w` bits that a bit string starts with. -/
def wordOf (w : Nat) (string : List Bool) : BitVec w :=
  (BitVec.ofBoolListBE (string.take w)).setWidth w

/-! ## Memory -/

/-- The word whose low-order byte comes first. -/
def loadLE (w : Nat) (bytes : List Byte) : BitVec w :=
  bytes.foldr (fun byte word => word <<< 8 ||| byte.setWidth w) 0

/-- The first `n` bytes of a word, the low-order byte first. -/
def storeLE {w : Nat} (n : Nat) (word : BitVec w) : List Byte :=
  (List.range n).map fun k => (word >>> (8 * k)).setWidth 8

/-- A buffer with `bytes` written from `offset` on. -/
def overwrite (buffer : List Byte) (offset : Nat) (bytes : List Byte) : List Byte :=
  buffer.take offset ++ bytes ++ buffer.drop (offset + bytes.length)

/-! ## Bit strings -/

@[simp] theorem bitsOf_length {w : Nat} (word : BitVec w) : (bitsOf word).length = w := by
  simp [bitsOf]

theorem bitsOf_getD {w i : Nat} (word : BitVec w) : (bitsOf word).getD i false = word.getMsbD i := by
  by_cases hi : i < w
  · simp [bitsOf, hi]
  · rw [getD_eq_default _ _ (by rw [bitsOf_length]; omega)]
    exact (BitVec.getMsbD_of_ge word i (by omega)).symm

theorem bitsOf_ofNat_getElem {w l i : Nat} (hi : i < (bitsOf (ofNat w l)).length) :
    (bitsOf (ofNat w l))[i] = l.testBit (w - 1 - i) := by
  have hw : i < w := by simpa using hi
  simp only [bitsOf, getElem_map, getElem_range]
  rw [getMsbD_eq_getLsbD, BitVec.getLsbD_ofNat,
    decide_eq_true hw, decide_eq_true (by omega), Bool.true_and, Bool.true_and]

theorem bitsOf_ofNat_add {k w l : Nat} (h : l < 2 ^ w) :
    bitsOf (ofNat (k + w) l) = replicate k false ++ bitsOf (ofNat w l) := by
  refine ext_getElem (by simp) fun i hi _ => ?_
  rw [bitsOf_ofNat_getElem]
  by_cases hlow : i < k
  · rw [getElem_append_left (by simpa using hlow), getElem_replicate]
    exact Nat.testBit_lt_two_pow (h.trans_le (Nat.pow_le_pow_right Nat.two_pos (by omega)))
  · rw [getElem_append_right (by simpa using hlow), bitsOf_ofNat_getElem,
      length_replicate, show k + w - 1 - i = w - 1 - (i - k) by omega]

theorem flatMap_bitsOf_take {w : Nat} : ∀ (count : Nat) (words : List (BitVec w)),
    (words.flatMap bitsOf).take (w * count) = (words.take count).flatMap bitsOf
  | 0, _ => by simp
  | _ + 1, [] => by simp
  | count + 1, word :: words => by
    rw [flatMap_cons, Nat.mul_succ, Nat.add_comm, take_add,
      take_append_of_le_length (bitsOf_length word).ge,
      take_of_length_le (bitsOf_length word).le,
      List.drop_append_of_le_length (bitsOf_length word).ge,
      drop_of_length_le (bitsOf_length word).le, nil_append,
      flatMap_bitsOf_take count words, take_succ_cons, flatMap_cons]

theorem bits_append (xs ys : List Byte) : bits (xs ++ ys) = bits xs ++ bits ys :=
  flatMap_append

theorem bits_cons (x : Byte) (xs : List Byte) : bits (x :: xs) = bitsOf x ++ bits xs := rfl

@[simp] theorem bits_length : ∀ bytes : List Byte, (bits bytes).length = 8 * bytes.length
  | [] => rfl
  | x :: xs => by
    rw [bits_cons, length_append, bitsOf_length, bits_length xs, length_cons]
    omega

theorem bits_replicate_zero : ∀ n, bits (replicate n 0) = replicate (8 * n) false
  | 0 => rfl
  | n + 1 => by
    rw [List.replicate_succ, bits_cons, bits_replicate_zero n, Nat.mul_succ, Nat.add_comm (8 * n) 8,
      ← List.replicate_append_replicate]
    rfl

theorem bits_drop : ∀ (n : Nat) (bytes : List Byte), bits (bytes.drop n) = (bits bytes).drop (8 * n)
  | 0, _ => rfl
  | n + 1, [] => by simp [bits]
  | n + 1, x :: xs => by
    rw [List.drop_succ_cons, bits_drop n xs, bits_cons, Nat.mul_succ, Nat.add_comm (8 * n) 8,
      ← List.drop_drop, List.drop_append_of_le_length (bitsOf_length x).ge,
      drop_of_length_le (bitsOf_length x).le, nil_append]

theorem bits_getD : ∀ (bytes : List Byte) (k i : Nat), i < 8 →
    (bits bytes).getD (8 * k + i) false = (bytes.getD k 0).getMsbD i
  | [], k, i, _ => by simp [bits]
  | x :: xs, 0, i, hi => by
    rw [bits_cons, Nat.mul_zero, Nat.zero_add, getD_append _ _ _ _ (by simpa using hi),
      bitsOf_getD]
    rfl
  | x :: xs, k + 1, i, hi => by
    rw [bits_cons, getD_append_right _ _ _ _ (by rw [bitsOf_length]; omega), bitsOf_length,
      show 8 * (k + 1) + i - 8 = 8 * k + i by omega, bits_getD xs k i hi]
    rfl

theorem wordOf_getLsbD {w i : Nat} {string : List Bool} (hlength : w ≤ string.length) (hi : i < w) :
    (wordOf w string).getLsbD i = string.getD (w - 1 - i) false := by
  have htake : (string.take w).length = w := length_take_of_le hlength
  have hmsb : (ofBoolListBE (string.take w)).getLsbD i =
      (ofBoolListBE (string.take w)).getMsbD (w - 1 - i) := by
    have hi' : (string.take w).length - 1 - (w - 1 - i) = i := by omega
    rw [getMsbD_eq_getLsbD, hi', decide_eq_true (by omega), Bool.true_and]
  rw [wordOf, getLsbD_setWidth, decide_eq_true hi, Bool.true_and, hmsb,
    BitVec.getMsbD_ofBoolListBE]
  simp [getD_eq_getElem?_getD, show w - 1 - i < w by omega]

theorem eq_of_bits {w : Nat} {x y : BitVec w} (h : ∀ i < w, x.getLsbD i = y.getLsbD i) : x = y :=
  BitVec.eq_of_getLsbD_eq h

/-! ## Bytes of words -/

theorem loadLE_getLsbD {w : Nat} : ∀ (bytes : List Byte) (i : Nat), i < w →
    (loadLE w bytes).getLsbD i = (bytes.getD (i / 8) 0).getLsbD (i % 8)
  | [], i, _ => by simp [loadLE]
  | x :: xs, i, hi => by
    change ((loadLE w xs <<< 8) ||| x.setWidth w).getLsbD i = _
    rw [BitVec.getLsbD_or, BitVec.getLsbD_shiftLeft, getLsbD_setWidth]
    by_cases hlow : i < 8
    · simp [hlow, hi, Nat.div_eq_of_lt hlow, Nat.mod_eq_of_lt hlow]
    · have hx : x.getLsbD i = false := BitVec.getLsbD_of_ge x i (by omega)
      rw [loadLE_getLsbD xs (i - 8) (by omega), show i / 8 = (i - 8) / 8 + 1 by omega,
        show i % 8 = (i - 8) % 8 by omega]
      simp [hlow, hi, hx]

@[simp] theorem storeLE_length {w : Nat} (n : Nat) (word : BitVec w) :
    (storeLE n word).length = n := by
  simp [storeLE]

/-- The word that the bits of a byte string are, read from memory the other way round. -/
theorem wordOf_bits {w n : Nat} {bytes : List Byte} (hw : 8 * n = w) (hlength : n ≤ bytes.length) :
    wordOf w (bits bytes) = loadLE w (bytes.take n).reverse := by
  refine eq_of_bits fun i hi => ?_
  rw [wordOf_getLsbD (by rw [bits_length]; omega) hi, loadLE_getLsbD _ _ hi,
    show w - 1 - i = 8 * (n - 1 - i / 8) + (7 - i % 8) by omega,
    bits_getD _ _ _ (by omega), getMsbD_eq_getLsbD, show 8 - 1 - (7 - i % 8) = i % 8 by omega,
    decide_eq_true (by omega), Bool.true_and]
  congr 1
  rw [getD_eq_getElem _ _ (by omega),
    getD_eq_getElem _ _ (by rw [length_reverse, length_take]; omega),
    getElem_reverse, getElem_take]
  congr 1
  rw [length_take_of_le hlength]

theorem storeLE_getD {w : Nat} {n k : Nat} (word : BitVec w) (hk : k < n) :
    (storeLE n word).getD k 0 = (word >>> (8 * k)).setWidth 8 := by
  rw [getD_eq_getElem _ _ (by rwa [storeLE_length])]
  simp [storeLE]

theorem storeLE_getD_getLsbD {w n k i : Nat} (word : BitVec w) (hk : k < n) (hi : i < 8) :
    ((storeLE n word).getD k 0).getLsbD i = word.getLsbD (8 * k + i) := by
  rw [storeLE_getD word hk, getLsbD_setWidth, BitVec.getLsbD_ushiftRight,
    decide_eq_true hi, Bool.true_and]

theorem eq_of_getD {α : Type} {xs ys : List α} (d : α) (hlength : xs.length = ys.length)
    (h : ∀ i < xs.length, xs.getD i d = ys.getD i d) : xs = ys := by
  refine ext_getElem hlength fun i hx hy => ?_
  have := h i hx
  rwa [getD_eq_getElem _ _ hx, getD_eq_getElem _ _ hy] at this

theorem getD_flatMap {α β : Type} {n : Nat} {f : α → List β} (hf : ∀ x, (f x).length = n) (d : β)
    {r : Nat} (hr : r < n) : ∀ {l : List α} {i : Nat} (hi : i < l.length),
    (l.flatMap f).getD (n * i + r) d = (f l[i]).getD r d
  | x :: l, 0, _ => by
    rw [flatMap_cons, Nat.mul_zero, Nat.zero_add,
      getD_append _ _ _ _ (by rw [hf]; exact hr)]
    rfl
  | x :: l, i + 1, hi => by
    rw [flatMap_cons, getD_append_right _ _ _ _ (by rw [hf, Nat.mul_succ]; omega), hf,
      show n * (i + 1) + r - n = n * i + r by rw [Nat.mul_succ]; omega,
      getD_flatMap hf d hr (Nat.lt_of_succ_lt_succ hi)]
    rfl

theorem storeLE_loadLE {w n : Nat} {bytes : List Byte} (hw : 8 * n = w)
    (hlength : bytes.length = n) : storeLE n (loadLE w bytes) = bytes := by
  refine eq_of_getD 0 (by rw [storeLE_length, hlength]) fun k hk => eq_of_bits fun i hi => ?_
  rw [storeLE_length] at hk
  rw [storeLE_getD_getLsbD _ hk hi, loadLE_getLsbD _ _ (by omega),
    show (8 * k + i) / 8 = k by omega, show (8 * k + i) % 8 = i by omega]

theorem reverse_getD {α : Type} {xs : List α} {d : α} {i : Nat} (hi : i < xs.length) :
    xs.reverse.getD i d = xs.getD (xs.length - 1 - i) d := by
  rw [getD_eq_getElem _ _ (by rwa [length_reverse]), getElem_reverse,
    getD_eq_getElem _ _ (by omega)]

theorem bits_storeLE_reverse {w n : Nat} (word : BitVec w) (hw : 8 * n = w) :
    bits (storeLE n word).reverse = bitsOf word := by
  refine eq_of_getD false (by simp [hw]) fun i hi => ?_
  rw [bits_length, length_reverse, storeLE_length, hw] at hi
  have hbyte := bits_getD (storeLE n word).reverse (i / 8) (i % 8) (by omega)
  rw [Nat.div_add_mod] at hbyte
  rw [hbyte, bitsOf_getD, reverse_getD (by rw [storeLE_length]; omega), storeLE_length,
    getMsbD_eq_getLsbD, getMsbD_eq_getLsbD,
    storeLE_getD_getLsbD _ (by omega) (by omega), decide_eq_true (by omega),
    decide_eq_true hi, show 8 * (n - 1 - i / 8) + (8 - 1 - i % 8) = w - 1 - i by omega]

/-! ## Buffers -/

theorem overwrite_length {buffer bytes : List Byte} {offset : Nat}
    (h : offset + bytes.length ≤ buffer.length) :
    (overwrite buffer offset bytes).length = buffer.length := by
  simp [overwrite]
  omega

theorem overwrite_take {buffer bytes : List Byte} {offset : Nat}
    (h : offset + bytes.length ≤ buffer.length) :
    (overwrite buffer offset bytes).take (offset + bytes.length) = buffer.take offset ++ bytes := by
  have hlength : (buffer.take offset ++ bytes).length = offset + bytes.length := by
    rw [length_append, length_take_of_le (by omega)]
  rw [overwrite, take_append_of_le_length hlength.ge, take_of_length_le hlength.le]

theorem overwrite_append {xs ys bytes : List Byte} (h : ys.length = bytes.length) :
    overwrite (xs ++ ys) xs.length bytes = xs ++ bytes := by
  rw [overwrite, take_left, ← h, drop_of_length_le (by simp), append_nil]

/-! ## Bits between others -/

theorem shift_and_mask_same {v n : Nat} (s : Nat) (h : v < 2 ^ n) :
    (v <<< s) >>> s &&& (2 ^ n - 1) = v := by
  rw [Nat.shiftLeft_shiftRight, Nat.and_two_pow_sub_one_eq_mod, Nat.mod_eq_of_lt h]

theorem shift_and_mask_above {v n s s' : Nat} (h : s + n ≤ s') :
    (v <<< s') >>> s &&& (2 ^ n - 1) = 0 := by
  obtain ⟨d, rfl⟩ := Nat.exists_eq_add_of_le h
  rw [Nat.and_two_pow_sub_one_eq_mod, Nat.shiftRight_eq_div_pow, Nat.shiftLeft_eq, Nat.add_assoc,
    pow_add, Nat.mul_left_comm, Nat.mul_div_cancel_left _ (by positivity), pow_add,
    Nat.mul_left_comm, Nat.mul_mod_right]

theorem shift_and_mask_below {v n n' s s' : Nat} (hv : v < 2 ^ n') (h : s' + n' ≤ s) :
    (v <<< s') >>> s &&& (2 ^ n - 1) = 0 := by
  have hlt : v <<< s' < 2 ^ s := by
    rw [Nat.shiftLeft_eq]
    calc v * 2 ^ s' < 2 ^ n' * 2 ^ s' := Nat.mul_lt_mul_of_pos_right hv (by positivity)
      _ = 2 ^ (s' + n') := by rw [← pow_add, Nat.add_comm]
      _ ≤ 2 ^ s := Nat.pow_le_pow_right (by decide) h
  rw [Nat.shiftRight_eq_div_pow, Nat.div_eq_of_lt hlt, Nat.zero_and]

theorem shiftLeft_lt_two_pow {v n s k : Nat} (hv : v < 2 ^ n) (h : s + n ≤ k) : v <<< s < 2 ^ k := by
  rw [Nat.shiftLeft_eq]
  calc v * 2 ^ s < 2 ^ n * 2 ^ s := Nat.mul_lt_mul_of_pos_right hv (by positivity)
    _ = 2 ^ (s + n) := by rw [← pow_add, Nat.add_comm]
    _ ≤ 2 ^ k := Nat.pow_le_pow_right (by decide) h

/-- A number in `width` bits of a word, behind `shift` others. -/
structure BitField where
  shift : Nat
  width : Nat
  value : Nat

namespace BitField

/-- The word with some fields. -/
def word : List BitField → Nat
  | [] => 0
  | f :: fields => f.value <<< f.shift ||| word fields

/-- A number that its field has room for. -/
def Fits (f : BitField) (k : Nat) : Prop := f.value < 2 ^ f.width ∧ f.shift + f.width ≤ k

/-- Fields without a common bit. -/
def Apart (f g : BitField) : Prop := f.shift + f.width ≤ g.shift ∨ g.shift + g.width ≤ f.shift

theorem word_lt {k : Nat} {fields : List BitField} (h : ∀ f ∈ fields, f.Fits k) :
    word fields < 2 ^ k := by
  induction fields with
  | nil => exact Nat.two_pow_pos k
  | cons f fields ih =>
    obtain ⟨hvalue, hroom⟩ := h f mem_cons_self
    exact Nat.or_lt_two_pow (shiftLeft_lt_two_pow hvalue hroom)
      (ih fun g hg => h g (mem_cons_of_mem _ hg))

theorem word_apart {k : Nat} {f : BitField} {fields : List BitField}
    (hfit : ∀ g ∈ fields, g.Fits k) (h : ∀ g ∈ fields, f.Apart g) :
    word fields >>> f.shift &&& (2 ^ f.width - 1) = 0 := by
  induction fields with
  | nil => rw [word, Nat.zero_shiftRight, Nat.zero_and]
  | cons g fields ih =>
    rw [word, Nat.shiftRight_or_distrib, Nat.and_or_distrib_right,
      ih (fun g hg => hfit g (mem_cons_of_mem _ hg)) fun g hg => h g (mem_cons_of_mem _ hg),
      Nat.or_zero]
    rcases h g mem_cons_self with habove | hbelow
    · exact shift_and_mask_above habove
    · exact shift_and_mask_below (hfit g mem_cons_self).1 hbelow

/-- **A field of a word** is what was put there. -/
theorem word_get {k : Nat} {f : BitField} {fields : List BitField}
    (hfit : ∀ g ∈ fields, g.Fits k) (h : fields.Pairwise Apart) (hf : f ∈ fields) :
    word fields >>> f.shift &&& (2 ^ f.width - 1) = f.value := by
  induction fields with
  | nil => cases hf
  | cons g fields ih =>
    obtain ⟨hg, hrest⟩ := pairwise_cons.mp h
    have hfit' : ∀ g ∈ fields, g.Fits k := fun g hg => hfit g (mem_cons_of_mem _ hg)
    rw [word, Nat.shiftRight_or_distrib, Nat.and_or_distrib_right]
    rcases mem_cons.mp hf with rfl | hf
    · rw [word_apart hfit' hg, shift_and_mask_same _ (hfit f mem_cons_self).1, Nat.or_zero]
    · rw [ih hfit' hrest hf]
      rcases hg f hf with hbelow | habove
      · rw [shift_and_mask_below (hfit g mem_cons_self).1 hbelow, Nat.zero_or]
      · rw [shift_and_mask_above habove, Nat.zero_or]

end BitField

theorem loadLE_storeLE {w n : Nat} (word : BitVec w) (hw : 8 * n = w) :
    loadLE w (storeLE n word) = word := by
  refine eq_of_bits fun i hi => ?_
  rw [loadLE_getLsbD _ _ hi, storeLE_getD_getLsbD _ (by omega) (by omega)]
  congr 1
  omega

theorem toNat_loadLE {w : Nat} {bytes : List Byte} (h : 8 * bytes.length ≤ w) :
    (loadLE w bytes).toNat = bytes.foldr (fun byte n => byte.toNat + 256 * n) 0 ∧
      (loadLE w bytes).toNat < 2 ^ (8 * bytes.length) := by
  induction bytes with
  | nil => simp [loadLE]
  | cons byte bytes ih =>
    rw [length_cons] at h
    obtain ⟨heq, hlt⟩ := ih (by omega)
    have hbyte : byte.toNat < 2 ^ 8 := byte.isLt
    have hpow : 2 ^ (8 * (bytes.length + 1)) = 2 ^ (8 * bytes.length) * 2 ^ 8 := by
      rw [Nat.mul_succ, Nat.pow_add]
    have hle : 2 ^ (8 * (bytes.length + 1)) ≤ 2 ^ w := Nat.pow_le_pow_right (by decide) h
    have hshift : (loadLE w bytes).toNat <<< 8 < 2 ^ w := by
      omega
    have hvalue : (loadLE w (byte :: bytes)).toNat =
        byte.toNat + 256 * (loadLE w bytes).toNat := by
      have hfold : loadLE w (byte :: bytes) = loadLE w bytes <<< 8 ||| byte.setWidth w := rfl
      rw [hfold, BitVec.toNat_or, BitVec.toNat_shiftLeft, Nat.mod_eq_of_lt hshift,
        BitVec.toNat_setWidth, Nat.mod_eq_of_lt (by omega),
        ← Nat.shiftLeft_add_eq_or_of_lt hbyte, Nat.shiftLeft_eq]
      omega
    refine ⟨by rw [hvalue, heq, foldr_cons], ?_⟩
    rw [hvalue, length_cons]
    omega

theorem drop_flatMap_storeLE {α : Type} {w n : Nat} (f : α → BitVec w) :
    ∀ (values : List α) (i : Nat) (hi : i < values.length),
      ((values.flatMap fun x => storeLE n (f x)).drop (n * i)).take n = storeLE n (f values[i])
  | x :: values, 0, _ => by
    rw [Nat.mul_zero, drop_zero, flatMap_cons, take_left' (storeLE_length ..)]
    rfl
  | x :: values, i + 1, hi => by
    have hdrop : (storeLE n (f x) ++ values.flatMap fun x => storeLE n (f x)).drop (n * (i + 1)) =
        (values.flatMap fun x => storeLE n (f x)).drop (n * i) := by
      rw [Nat.mul_succ, Nat.add_comm, ← List.drop_drop, drop_left' (storeLE_length ..)]
    rw [flatMap_cons, hdrop, drop_flatMap_storeLE f values i (Nat.lt_of_succ_lt_succ hi)]
    rfl

theorem flatMap_pieces {n : Nat} : ∀ (count : Nat) (bytes : List Byte), bytes.length = n * count →
    ((List.range count).flatMap fun i => (bytes.drop (n * i)).take n) = bytes
  | 0, bytes, h => (length_eq_zero_iff.mp h).symm
  | count + 1, bytes, h => by
    have hrest := flatMap_pieces count (bytes.drop n) (by
      rw [length_drop, h, Nat.mul_succ, Nat.add_sub_cancel])
    rw [range_succ_eq_map, flatMap_cons, flatMap_map, Nat.mul_zero, drop_zero]
    conv_rhs => rw [← take_append_drop n bytes, ← hrest]
    congr 2
    funext i
    rw [List.drop_drop, Nat.mul_succ, Nat.add_comm]

/-! ## Pieces of buffers -/

theorem overwrite_piece {buffer bytes : List Byte} {offset : Nat} (h : offset ≤ buffer.length) :
    ((overwrite buffer offset bytes).drop offset).take bytes.length = bytes := by
  rw [overwrite, append_assoc, drop_left' (length_take_of_le h), take_left]

theorem overwrite_piece_before {buffer bytes : List Byte} {offset start n : Nat}
    (h : offset ≤ buffer.length) (hend : start + n ≤ offset) :
    ((overwrite buffer offset bytes).drop start).take n = (buffer.drop start).take n := by
  have hlength : (buffer.take offset).length = offset := length_take_of_le h
  have hdrop : start ≤ (buffer.take offset).length := by omega
  have hroom : n ≤ ((buffer.take offset).drop start).length := by
    rw [length_drop]
    omega
  rw [overwrite, append_assoc, List.drop_append_of_le_length hdrop,
    take_append_of_le_length hroom, drop_take, take_take,
    Nat.min_eq_left (by omega)]

theorem overwrite_piece_behind {buffer bytes : List Byte} {offset start : Nat}
    (h : offset ≤ buffer.length) (hstart : offset + bytes.length ≤ start) :
    (overwrite buffer offset bytes).drop start = buffer.drop start := by
  obtain ⟨d, rfl⟩ := Nat.exists_eq_add_of_le hstart
  rw [overwrite, ← List.drop_drop, drop_left'
    (by rw [length_append, length_take_of_le h]), List.drop_drop]

theorem overwrite_piece_inside {buffer bytes : List Byte} {offset start n : Nat}
    (h : offset ≤ buffer.length) (hstart : offset ≤ start) (hend : start + n ≤ offset + bytes.length) :
    ((overwrite buffer offset bytes).drop start).take n = (bytes.drop (start - offset)).take n := by
  obtain ⟨d, rfl⟩ := Nat.exists_eq_add_of_le hstart
  have hdrop : d ≤ bytes.length := by omega
  have hroom : n ≤ (bytes.drop d).length := by
    rw [length_drop]
    omega
  rw [overwrite, append_assoc, ← List.drop_drop, drop_left' (length_take_of_le h),
    List.drop_append_of_le_length hdrop, take_append_of_le_length hroom, Nat.add_sub_cancel_left]

theorem overwrite_same (buffer : List Byte) (offset n : Nat)
    (h : offset + n ≤ buffer.length) :
    overwrite buffer offset ((buffer.drop offset).take n) = buffer := by
  have hlength : ((buffer.drop offset).take n).length = n := by
    rw [length_take, length_drop]
    omega
  rw [overwrite, hlength, append_assoc, ← List.drop_drop, take_append_drop,
    take_append_drop]

theorem overwrite_nil (buffer : List Byte) (offset : Nat) : overwrite buffer offset [] = buffer := by
  rw [overwrite, append_nil, length_nil, Nat.add_zero, take_append_drop]

theorem overwrite_next {buffer bytes next : List Byte} {offset : Nat}
    (h : offset + bytes.length + next.length ≤ buffer.length) :
    overwrite (overwrite buffer offset bytes) (offset + bytes.length) next =
      overwrite buffer offset (bytes ++ next) := by
  have htake := @overwrite_take buffer bytes offset (by omega)
  have hdrop := @overwrite_piece_behind buffer bytes offset
    (offset + bytes.length + next.length) (by omega) (by omega)
  conv_lhs => rw [overwrite, htake, hdrop]
  rw [overwrite, length_append, ← Nat.add_assoc, append_assoc (buffer.take offset)]

end Lhatove
