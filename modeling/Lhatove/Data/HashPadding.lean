import Lhatove.Data.HashStandard

/-!
# Padding and words

What the buffer holds is the padded message of the standards, bit for bit, and
its words, as they are read, are the words of the blocks.

- `padded_bits`: the buffer;
- `iterate_chunks`: the chunks of the buffer are the blocks, in order.
-/

namespace Lhatove.Data

open List
open BitVec (ofNat toNat_add toNat_ofNat toNat_umod)

/-! ## The buffer -/

section Padding

variable {block field : BitVec 64} {input : List Byte} {lengthBytes : BitVec 64 → List Byte}

theorem extendMultiple_toNat {a n : BitVec 64} (hn : 0 < n.toNat) (h : a.toNat + n.toNat < 2 ^ 64) :
    (extendMultiple a n).toNat = a.toNat + (n.toNat - a.toNat % n.toNat) % n.toNat := by
  have hlt := Nat.mod_lt a.toNat hn
  unfold extendMultiple
  by_cases hzero : a % n = 0
  · have hmod : a.toNat % n.toNat = 0 := by
      rw [← toNat_umod, hzero]
      rfl
    rw [if_pos hzero, hmod, Nat.sub_zero, Nat.mod_self, Nat.add_zero]
  · have hmod : a.toNat % n.toNat ≠ 0 := by
      exact fun heq => hzero (BitVec.eq_of_toNat_eq heq)
    rw [if_neg hzero, toNat_add, BitVec.toNat_sub, toNat_umod,
      Nat.mod_eq_of_lt (show n.toNat - a.toNat % n.toNat < n.toNat by omega)]
    omega

/-- The two sizes that there are. -/
def Sizes (block field : BitVec 64) : Prop := block = 64 ∧ field = 8 ∨ block = 128 ∧ field = 16

/-- The zero bytes before the bytes kept for the length. -/
def zeroBytes (block field length : Nat) : Nat := (block - (length + 1 + field) % block) % block

theorem zeros_eq (hsizes : Sizes block field) (length : Nat) :
    Standard.zeros (8 * block.toNat) (8 * field.toNat) (8 * length) =
      7 + 8 * zeroBytes block.toNat field.toNat length := by
  rcases hsizes with ⟨rfl, rfl⟩ | ⟨rfl, rfl⟩
  · change (2 * (8 * 64) - 8 * 8 - 1 - 8 * length % (8 * 64)) % (8 * 64) =
      7 + 8 * ((64 - (length + 1 + 8) % 64) % 64)
    omega
  · change (2 * (8 * 128) - 8 * 16 - 1 - 8 * length % (8 * 128)) % (8 * 128) =
      7 + 8 * ((128 - (length + 1 + 16) % 128) % 128)
    omega

theorem paddedLength_toNat (hsizes : Sizes block field) (hinput : input.length < 2 ^ 61) :
    (extendMultiple (ofNat 64 input.length + 1 + field) block).toNat =
      input.length + 1 + field.toNat + zeroBytes block.toNat field.toNat input.length := by
  have hfield : field.toNat ≤ 16 ∧ 0 < block.toNat ∧ block.toNat ≤ 128 := by
    rcases hsizes with ⟨rfl, rfl⟩ | ⟨rfl, rfl⟩ <;> decide
  have hone : (1 : BitVec 64).toNat = 1 := rfl
  have hsum : (ofNat 64 input.length + 1 + field).toNat =
      input.length + 1 + field.toNat := by
    rw [toNat_add, toNat_add, toNat_ofNat, hone]
    omega
  rw [extendMultiple_toNat hfield.2.1 (by rw [hsum]; omega), hsum]
  rfl

/-- **The buffer**: the message, the byte with the one bit, zeros, the length. -/
theorem padded_eq (hsizes : Sizes block field) (hinput : input.length < 2 ^ 61)
    (hbytes : ∀ x, (lengthBytes x).length = 8) :
    padded block field lengthBytes input =
      input ++ 0x80 :: replicate
        (zeroBytes block.toNat field.toNat input.length + (field.toNat - 8)) 0 ++
        lengthBytes (ofNat 64 input.length * 8) := by
  have hpadded := paddedLength_toNat hsizes hinput
  generalize hz : zeroBytes block.toNat field.toNat input.length = z at hpadded ⊢
  have hfield : 8 ≤ field.toNat := by
    rcases hsizes with ⟨-, rfl⟩ | ⟨-, rfl⟩ <;> decide
  have hlength : (ofNat 64 input.length).toNat = input.length := by
    exact Nat.mod_eq_of_lt (by omega)
  have hrest : (extendMultiple (ofNat 64 input.length + 1 + field) block -
      ofNat 64 input.length).toNat = (z + (field.toNat - 8)) + 8 + 1 := by
    rw [BitVec.toNat_sub_of_le (by rw [BitVec.le_def, hpadded, hlength]; omega), hpadded, hlength]
    omega
  unfold padded
  dsimp only
  rw [hrest, hlength, hpadded, replicate_succ, set_append_right _ _ le_rfl, Nat.sub_self,
    set_cons_zero, ← replicate_append_replicate, ← cons_append, ← append_assoc]
  have hoffset : input.length + 1 + field.toNat + z - 8 =
      (input ++ 0x80 :: replicate (z + (field.toNat - 8)) (0 : Byte)).length := by
    rw [length_append, length_cons, length_replicate]
    omega
  rw [hoffset, overwrite_append (by rw [length_replicate, hbytes])]

/-- **The buffer holds the padded message.** -/
theorem padded_bits (hsizes : Sizes block field) (hinput : input.length < 2 ^ 61)
    (hbytes : ∀ x, (lengthBytes x).length = 8) (encode : Nat → List Bool)
    (hencode : encode (8 * input.length) = replicate (8 * (field.toNat - 8)) false ++
      bits (lengthBytes (ofNat 64 (8 * input.length)))) :
    bits (padded block field lengthBytes input) =
      Standard.pad (8 * block.toNat) (8 * field.toNat) encode (bits input) := by
  have hlength : ofNat 64 input.length * 8 = ofNat 64 (8 * input.length) := by
    rw [Nat.mul_comm, BitVec.ofNat_mul]
    rfl
  rw [padded_eq hsizes hinput hbytes, Standard.pad, bits_length, hencode, zeros_eq hsizes, hlength,
    bits_append, bits_append, bits_cons, bits_replicate_zero, Nat.mul_add,
    ← replicate_append_replicate, ← replicate_append_replicate,
    show bitsOf (0x80 : Byte) = true :: replicate 7 false from rfl]
  simp only [append_assoc, cons_append]

theorem padded_length (hsizes : Sizes block field) (hinput : input.length < 2 ^ 61)
    (hbytes : ∀ x, (lengthBytes x).length = 8) :
    (padded block field lengthBytes input).length % block.toNat = 0 := by
  rw [padded_eq hsizes hinput hbytes]
  simp only [length_append, length_cons, length_replicate, hbytes, zeroBytes]
  rcases hsizes with ⟨rfl, rfl⟩ | ⟨rfl, rfl⟩
  · change (input.length + ((64 - (input.length + 1 + 8) % 64) % 64 + (8 - 8) + 1) + 8) % 64 = 0
    omega
  · change (input.length + ((128 - (input.length + 1 + 16) % 128) % 128 + (16 - 8) + 1) + 8) % 128 =
      0
    omega

end Padding

/-! ## Chunks and blocks -/

section Chunks

variable {w n : Nat} {buffer : List Byte}

theorem bytesDown_eq (hw : 8 * n = w) (word : BitVec w) : bytesDown word = (storeLE n word).reverse := by
  have hdiv : w / 8 = n := by omega
  refine eq_of_getD 0 (by simp [bytesDown, hdiv]) fun k hk => eq_of_bits fun i hi => ?_
  have hk : k < n := by simpa [bytesDown, hdiv] using hk
  rw [reverse_getD (by rwa [storeLE_length]), storeLE_length,
    storeLE_getD_getLsbD _ (by omega) hi, getD_eq_getElem _ _ (by simpa [bytesDown, hdiv])]
  have hmask : (255#w).getLsbD i = true := by
    rw [BitVec.getLsbD_ofNat, decide_eq_true (by omega), Bool.true_and,
      show 255 = 2 ^ 8 - 1 by rfl, Nat.testBit_two_pow_sub_one, decide_eq_true hi]
  simp [bytesDown, hi, hmask, show w - 8 - 8 * k + i = 8 * (n - 1 - k) + i by omega]

theorem bytesDown_length (hw : 8 * n = w) (word : BitVec w) : (bytesDown word).length = n := by
  rw [bytesDown_eq hw, length_reverse, storeLE_length]

theorem bits_bytesDown (hw : 8 * n = w) (word : BitVec w) : bits (bytesDown word) = bitsOf word := by
  rw [bytesDown_eq hw, bits_storeLE_reverse word hw]

theorem swapped_chunkWord (hw : 8 * n = w) {i j : Nat} (hin : n * (i + j + 1) ≤ buffer.length) :
    swapped (chunkWord w buffer i j) = wordOf w ((bits buffer).drop (w * (i + j))) := by
  have hdiv : w / 8 = n := by omega
  have hlength : ((buffer.drop (n * (i + j))).take n).length = n := by
    rw [Nat.mul_succ] at hin
    rw [length_take, length_drop]
    omega
  rw [swapped, bytesDown_eq hw, chunkWord, hdiv, storeLE_loadLE hw hlength, ← hw, Nat.mul_assoc,
    ← bits_drop, wordOf_bits rfl (by rw [length_drop]; rw [Nat.mul_succ] at hin; omega)]

theorem chunkStarts_eq : ∀ count, range' 0 count 16 = (List.range count).map (16 * ·)
  | 0 => rfl
  | count + 1 => by
    rw [range'_concat, chunkStarts_eq count, range_succ, map_append, Nat.zero_add]
    rfl

/-- A loop that computes, for a state, what another does for what it stands for. -/
theorem foldl_rep {σ τ ι : Type} (rep : σ → τ) {f : σ → ι → σ} {g : τ → ι → τ} :
    ∀ {l : List ι}, (∀ s, ∀ j ∈ l, rep (f s j) = g (rep s) j) → ∀ s : σ,
      rep (l.foldl f s) = l.foldl g (rep s)
  | [], _, _ => rfl
  | j :: l, h, s => by
    rw [foldl_cons, foldl_cons, ← h s j mem_cons_self]
    exact foldl_rep rep (fun s j hj => h s j (mem_cons_of_mem _ hj)) (f s j)

/-- **The chunks are the blocks**, in order: what is computed for each is what
the standard computes for the bits of the buffer. -/
theorem iterate_chunks {σ τ : Type} (hw : 8 * n = w) (hn : 0 < n)
    (hbuffer : buffer.length % (16 * n) = 0) (rep : σ → τ) {process : σ → Nat → σ}
    {compute : (Nat → List Bool) → τ → τ}
    (hprocess : ∀ s i, n * (16 * i + 16) ≤ buffer.length →
      rep (process s (16 * i)) =
        compute (fun t => (bits buffer).drop (16 * w * i + w * t)) (rep s)) (start : σ) :
    rep ((chunkStarts (buffer.length / (w / 8))).foldl process start) =
      Standard.iterate w compute (bits buffer) (rep start) := by
  obtain ⟨count, hcount⟩ := Nat.dvd_of_mod_eq_zero hbuffer
  have hwords : buffer.length / (w / 8) = 16 * count := by
    rw [show w / 8 = n by omega, hcount, Nat.mul_right_comm, Nat.mul_div_cancel _ hn]
  have hblocks : (bits buffer).length / (16 * w) = count := by
    rw [bits_length, hcount, ← hw, show 8 * (16 * n * count) = 16 * (8 * n) * count by ring]
    exact Nat.mul_div_cancel_left _ (by omega)
  rw [Standard.iterate, hwords, hblocks, chunkStarts, chunkStarts_eq,
    show (16 * count + 15) / 16 = count by omega, foldl_map]
  refine foldl_rep rep (fun s i hi => hprocess s i ?_) start
  rw [hcount, Nat.mul_right_comm]
  calc n * (16 * i + 16) = 16 * (i + 1) * n := by ring
    _ ≤ 16 * count * n :=
      Nat.mul_le_mul_right n (Nat.mul_le_mul_left 16 (mem_range.mp hi))

/-- **The extended words** are the schedule of a standard, when their first
sixteen are and each is made as the standard makes it. -/
theorem extendedWords_getD (rounds : Nat) (extend : (Nat → BitVec w) → Nat → BitVec w)
    (first : List (BitVec w)) {W : Nat → BitVec w} (hlength : first.length = 16)
    (hfirst : ∀ t < 16, first.getD t 0 = W t)
    (hextend : ∀ words t, 16 ≤ t → (∀ s < t, words s = W s) → extend words t = W t) :
    ∀ t < rounds, (extendedWords rounds extend first).getD t 0 = W t := by
  suffices hall : ∀ count, ((range' 16 count).foldl
      (fun words j => words ++ [extend (fun index => words.getD index 0) j]) first).length =
        16 + count ∧ ∀ t < 16 + count, ((range' 16 count).foldl
      (fun words j => words ++ [extend (fun index => words.getD index 0) j]) first).getD t 0 = W t from
    fun t ht => (hall (rounds - 16)).2 t (by omega)
  intro count
  induction count with
  | zero => exact ⟨hlength, hfirst⟩
  | succ count ih =>
    obtain ⟨hlast, hwords⟩ := ih
    rw [range'_concat, foldl_append, Nat.one_mul]
    generalize (range' 16 count).foldl
      (fun words j => words ++ [extend (fun index => words.getD index 0) j]) first = words
      at hlast hwords
    refine ⟨by simp [hlast, Nat.add_assoc], fun t ht => ?_⟩
    rw [foldl_cons, foldl_nil]
    by_cases hnew : t < 16 + count
    · rw [getD_append _ _ _ _ (hlast ▸ hnew), hwords t hnew]
    · have heq : t = 16 + count := by omega
      subst heq
      rw [getD_append_right _ _ _ _ hlast.le, hlast, Nat.sub_self]
      exact hextend _ _ (Nat.le_add_right ..) hwords

end Chunks

/-! ## The result -/

section Result

variable {w n : Nat}

theorem putWords_take (hw : 8 * n = w) {words : List (BitVec w)} {data : List Byte} :
    ∀ count, n * count ≤ data.length → count ≤ words.length →
      ((List.range count).foldl
        (fun data k => overwrite data (k * n) (bytesDown (words.getD k 0))) data).length =
          data.length ∧
      ((List.range count).foldl
        (fun data k => overwrite data (k * n) (bytesDown (words.getD k 0))) data).take
          (n * count) = (words.take count).flatMap bytesDown
  | 0, _, _ => by simp
  | count + 1, hdata, hcount => by
    rw [Nat.mul_succ] at hdata
    have hcount' : count ≤ words.length := by omega
    have hdata' : n * count ≤ data.length := by omega
    obtain ⟨hlength, htake⟩ := putWords_take hw count hdata' hcount'
    rw [range_succ, foldl_append]
    generalize (List.range count).foldl
      (fun data k => overwrite data (k * n) (bytesDown (words.getD k 0))) data = before
      at hlength htake
    have hnew : (bytesDown (words.getD count 0)).length = n := bytesDown_length hw _
    have hroom : n * count + (bytesDown (words.getD count 0)).length ≤ before.length := by
      rw [hnew, hlength]
      exact hdata
    rw [foldl_cons, foldl_nil, Nat.mul_comm count n]
    refine ⟨(overwrite_length hroom).trans hlength, ?_⟩
    have hafter := overwrite_take hroom
    rw [hnew, htake] at hafter
    rw [Nat.mul_succ, hafter, take_succ_eq_append_getElem (by omega), flatMap_append,
      getD_eq_getElem _ _ (by omega)]
    simp

/-- **The result** is the words, from their top bytes down. -/
theorem putWords_bits (hw : 8 * n = w) (hn : 0 < n) (words : List (BitVec w)) (count : Nat)
    {output : Value} (houtput : n * count ≤ output.data.length) (hcount : count ≤ words.length) :
    bits ((output.putWords (n * count) words).data.take (n * count)) =
      (words.take count).flatMap bitsOf := by
  have hdiv : w / 8 = n := by omega
  have htake := (putWords_take hw count houtput hcount).2
  rw [Value.putWords, hdiv, Nat.mul_div_cancel_left _ hn]
  rw [htake, bits, flatMap_assoc]
  exact flatMap_congr fun word _ => bits_bytesDown hw word

end Result

end Lhatove.Data
