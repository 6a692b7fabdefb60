import Lhatove.Data.HashPadding
import Lhatove.Data.HashSines

/-!
# Rounds and digests

Each class computes, for a chunk, what its standard computes for a block.

- `SHA1.process_words`, `SHA2.process_words`, `MD5.process_registers`: one chunk;
- `hash_digest`: the digest of every message of fewer than 2^61 bytes.
-/

namespace Lhatove.Data

open List Standard.MD5

section Rotate

variable {w : Nat} (x y z : BitVec w) {amount : Nat}

theorem leftrot_eq (h : amount < w) : leftrot x amount = x.rotateLeft amount := by
  rw [leftrot, BitVec.rotateLeft, BitVec.rotateLeftAux, Nat.mod_eq_of_lt h]

theorem rightrot_eq (h : amount < w) : rightrot x amount = x.rotateRight amount := by
  rw [rightrot, BitVec.rotateRight, BitVec.rotateRightAux, Nat.mod_eq_of_lt h]

theorem or_eq_Ch : (x &&& y) ||| (~~~x &&& z) = Standard.Ch x y z := by
  refine eq_of_bits fun i hi => ?_
  rw [Standard.Ch, BitVec.getLsbD_or, BitVec.getLsbD_xor, BitVec.getLsbD_and, BitVec.getLsbD_and,
    BitVec.getLsbD_not]
  cases x.getLsbD i <;> simp [hi]

theorem or_eq_Maj : (x &&& y) ||| (x &&& z) ||| (y &&& z) = Standard.Maj x y z := by
  refine eq_of_bits fun i hi => ?_
  simp only [Standard.Maj, BitVec.getLsbD_or, BitVec.getLsbD_xor, BitVec.getLsbD_and]
  cases x.getLsbD i <;> cases y.getLsbD i <;> cases z.getLsbD i <;> rfl

end Rotate

theorem chunkWords_getD {w n i : Nat} {buffer : List Byte} (hw : 8 * n = w)
    (hin : n * (16 * i + 16) ≤ buffer.length) (t : Nat) (ht : t < 16) :
    ((List.range 16).map fun j => swapped (chunkWord w buffer (16 * i) j)).getD t 0 =
      wordOf w ((bits buffer).drop (16 * w * i + w * t)) := by
  have hword : n * (16 * i + t + 1) ≤ buffer.length :=
    (Nat.mul_le_mul_left n (by omega)).trans hin
  rw [getD_eq_getElem _ _ (by simpa using ht), getElem_map, getElem_range,
    swapped_chunkWord hw hword, Nat.mul_add, ← Nat.mul_assoc, Nat.mul_comm w 16]

/-! ## SHA-1 -/

namespace SHA1

def State.words (s : State) : List (BitVec 32) := [s.A, s.B, s.C, s.D, s.E]

theorem extend_eq {M : Nat → BitVec 32} {words : Nat → BitVec 32} {t : Nat} (ht : 16 ≤ t)
    (hwords : ∀ s < t, words s = Standard.SHA1.W M s) : extend words t = Standard.SHA1.W M t := by
  rw [Standard.SHA1.W, if_neg (by omega), extend, leftrot_eq _ (by decide), hwords _ (by omega),
    hwords _ (by omega), hwords _ (by omega), hwords _ (by omega)]

theorem round_words {W : Nat → BitVec 32} {words : List (BitVec 32)} (s : State) {t : Nat}
    (hword : words.getD t 0 = W t) :
    (round words s t).words = Standard.SHA1.round W s.words t := by
  have htemp : (round words s t).A = s.A.rotateLeft 5 + Standard.SHA1.f t s.B s.C s.D + s.E +
      Standard.SHA1.K t + W t := by
    simp only [round, leftrot_eq s.A (show 5 < 32 by decide), hword, Standard.SHA1.f,
      Standard.SHA1.K, or_eq_Ch, or_eq_Maj, show t < 20 ↔ t ≤ 19 by omega,
      show t < 40 ↔ t ≤ 39 by omega, show t < 60 ↔ t ≤ 59 by omega]
    split
    · ac_rfl
    · split
      · simp only [Standard.Parity]
        ac_rfl
      · split
        · ac_rfl
        · simp only [Standard.Parity]
          ac_rfl
  change [_, s.A, leftrot s.B 30, s.C, s.D] = _
  rw [htemp, leftrot_eq _ (by decide)]
  rfl

theorem process_words {buffer : List Byte} (s : State) {i : Nat}
    (hin : 4 * (16 * i + 16) ≤ buffer.length) :
    (process buffer s (16 * i)).words =
      Standard.SHA1.compute (fun t => (bits buffer).drop (16 * 32 * i + 32 * t)) s.words := by
  have hwords := extendedWords_getD 80 extend
    ((List.range 16).map fun j => swapped (chunkWord 32 buffer (16 * i) j))
    (by simp)
    (fun t ht => by
      rw [chunkWords_getD rfl hin t ht, Standard.SHA1.W, if_pos ht])
    (fun words t ht => extend_eq ht)
  rw [Standard.SHA1.compute, ← foldl_rep State.words
    (fun s j hj => round_words s (hwords j (mem_range.mp hj))) s]
  simp [process, State.words, BitVec.add_comm]

theorem hash_digest {input : List Byte} (hinput : input.length < 2 ^ 61) {output : Value}
    (houtput : output.data.length = 64) :
    ∃ v, hash .sha1 input output = .ok v ∧
      bits (v.data.take v.size) = Standard.SHA1.digest (bits input) := by
  have hsizes : Sizes 64 8 := .inl ⟨rfl, rfl⟩
  have hbytes : ∀ x : BitVec 64, (bytesDown x).length = 8 := bytesDown_length rfl
  refine ⟨_, rfl, ?_⟩
  have hlength := padded_length hsizes hinput hbytes
  have hbits : bits (padded 64 8 bytesDown input) =
      Standard.pad 512 64 (Standard.lengthBits 64) (bits input) :=
    padded_bits hsizes hinput hbytes _ (by rw [bits_bytesDown (n := 8) rfl]; rfl)
  have hiterate := iterate_chunks rfl (by decide) hlength State.words
    (fun s i hin => process_words s hin) initial
  rw [hbits] at hiterate
  have hput := putWords_bits rfl (by decide)
    (State.words ((chunkStarts ((padded 64 8 bytesDown input).length / (32 / 8))).foldl
      (process (padded 64 8 bytesDown input)) initial)) 5 (by omega : 4 * 5 ≤ output.data.length) le_rfl
  refine hput.trans ?_
  rw [take_of_length_le (show (State.words _).length ≤ 5 from le_rfl), hiterate]
  rfl

end SHA1

/-! ## SHA-2 -/

namespace SHA2

variable {w : Nat}

/-- The class computes what its function is defined by. -/
structure Follows (c : SHA2 w) (s : Standard.SHA2 w) : Prop where
  rounds : c.rounds = s.rounds
  constants : ∀ t < c.rounds, c.constants.getD t 0 = Standard.SHA2.K w t
  extend : ∀ (words : Nat → BitVec w) (t : Nat), c.extend words t =
    s.smallSigma1 (words (t - 2)) + words (t - 7) + s.smallSigma0 (words (t - 15)) + words (t - 16)
  mixE : ∀ x, c.mixE x = s.bigSigma1 x
  mixA : ∀ x, c.mixA x = s.bigSigma0 x

variable {c : SHA2 w} {s : Standard.SHA2 w}

theorem Follows.extend_eq (h : Follows c s) {M words : Nat → BitVec w} {t : Nat} (ht : 16 ≤ t)
    (hwords : ∀ i < t, words i = s.W M i) : c.extend words t = s.W M t := by
  rw [Standard.SHA2.W, if_neg (by omega), h.extend, hwords _ (by omega), hwords _ (by omega),
    hwords _ (by omega), hwords _ (by omega)]

theorem Follows.round_words (h : Follows c s) {W : Nat → BitVec w} {words : List (BitVec w)}
    (v : State w) {t : Nat} (ht : t < c.rounds) (hword : words.getD t 0 = W t) :
    (c.round words v t).words = s.round W v.words t := by
  have hT₁ : v.H + c.constants.getD t 0 + words.getD t 0 + c.mixE v.E +
      Standard.Ch v.E v.F v.G =
        v.H + s.bigSigma1 v.E + Standard.Ch v.E v.F v.G + Standard.SHA2.K w t + W t := by
    rw [h.constants t ht, hword, h.mixE]
    ac_rfl
  change [v.H + c.constants.getD t 0 + words.getD t 0 + c.mixE v.E + Standard.Ch v.E v.F v.G +
      (c.mixA v.A + Standard.Maj v.A v.B v.C), v.A, v.B, v.C,
    v.D + (v.H + c.constants.getD t 0 + words.getD t 0 + c.mixE v.E + Standard.Ch v.E v.F v.G),
    v.E, v.F, v.G] = _
  rw [hT₁, h.mixA]
  rfl

theorem Follows.process_words (h : Follows c s) {n : Nat} (hw : 8 * n = w) {buffer : List Byte}
    (v : State w) {i : Nat} (hin : n * (16 * i + 16) ≤ buffer.length) :
    (c.process buffer v (16 * i)).words =
      s.compute (fun t => (bits buffer).drop (16 * w * i + w * t)) v.words := by
  have hwords := extendedWords_getD c.rounds c.extend
    ((List.range 16).map fun j => swapped (chunkWord w buffer (16 * i) j))
    (by simp)
    (fun t ht => by
      rw [chunkWords_getD hw hin t ht, Standard.SHA2.W, if_pos ht])
    (fun words t ht => h.extend_eq ht)
  rw [Standard.SHA2.compute, ← h.rounds, ← foldl_rep State.words (fun v j hj =>
    h.round_words v (mem_range.mp hj) (hwords j (mem_range.mp hj))) v]
  simp [process, State.words, BitVec.add_comm]

theorem words_ofWords : ∀ {words : List (BitVec w)}, words.length = 8 →
    (State.ofWords words).words = words
  | [_, _, _, _, _, _, _, _], _ => rfl

theorem lengthBits_eq {k l : Nat} (h : l < 2 ^ 64) :
    Standard.lengthBits (k + 64) l =
      replicate k false ++ bits (bytesDown (BitVec.ofNat 64 l)) := by
  rw [Standard.lengthBits, bitsOf_ofNat_add h, bits_bytesDown (n := 8) rfl]

/-- **The digest** of a class that follows a standard. -/
theorem Follows.hash_digest (h : Follows c s) (count : Nat) {n : Nat} (hw : 8 * n = w) (hn : 0 < n)
    (hsizes : Sizes c.block c.field) (hblock : c.block.toNat = 16 * n)
    (hfield : 8 * c.field.toNat = s.field) {function : Function}
    (hsupported : c.isSupported function = true) (hinitial : c.initial function = s.H)
    (height : s.H.length = 8) (hlength : c.hashlength function = n * count)
    (hcount : count ≤ 8) (hsize : s.size = w * count)
    {input : List Byte} (hinput : input.length < 2 ^ 61) {output : Value}
    (houtput : n * count ≤ output.data.length) :
    ∃ v, c.hash function input output = .ok v ∧
      bits (v.data.take v.size) = s.digest (bits input) := by
  have hbytes : ∀ x : BitVec 64, (bytesDown x).length = 8 := bytesDown_length rfl
  have hlow : 8 * (c.field.toNat - 8) + 64 = s.field := by
    have : 8 ≤ c.field.toNat := by rcases hsizes with ⟨-, hf⟩ | ⟨-, hf⟩ <;> rw [hf] <;> decide
    omega
  have hpadded := padded_length hsizes hinput hbytes
  have hbits : bits (padded c.block c.field bytesDown input) =
      Standard.pad (16 * w) s.field (Standard.lengthBits s.field) (bits input) := by
    rw [padded_bits hsizes hinput hbytes (Standard.lengthBits s.field)
      (by rw [← hlow]; exact lengthBits_eq (by omega)), hfield, hblock,
      show 8 * (16 * n) = 16 * w by omega]
  have hiterate := iterate_chunks hw hn (hblock ▸ hpadded) State.words
    (fun v i hin => h.process_words hw v hin) (.ofWords (c.initial function))
  rw [hbits, hinitial, words_ofWords height] at hiterate
  rw [hash, hsupported, Bool.not_true, if_neg Bool.false_ne_true]
  refine ⟨_, rfl, ?_⟩
  rw [hlength, hinitial]
  refine (putWords_bits hw hn _ _ houtput (by exact hcount)).trans ?_
  rw [hiterate, Standard.SHA2.digest, hsize, flatMap_bitsOf_take]

end SHA2

/-! ### SHA-224 and SHA-256 -/

namespace SHA256

/-- The table has the cube roots of the first 64 primes, and both initial values are those
of the standard. -/
theorem tables_eq : (∀ t < 64, constants.getD t 0 = Standard.SHA2.K 32 t) ∧
    SHA256.initial .sha256 = Standard.SHA256.H ∧ SHA256.initial .sha224 = Standard.SHA224.H := by
  decide +kernel

theorem constants_eq : ∀ t < 64, constants.getD t 0 = Standard.SHA2.K 32 t := tables_eq.1

theorem initial256_eq : SHA256.initial .sha256 = Standard.SHA256.H := tables_eq.2.1

theorem initial224_eq : SHA256.initial .sha224 = Standard.SHA224.H := tables_eq.2.2

theorem extend_eq (words : Nat → BitVec 32) (t : Nat) :
    extend words t = Standard.SHA256.smallSigma1 (words (t - 2)) + words (t - 7) +
      Standard.SHA256.smallSigma0 (words (t - 15)) + words (t - 16) := by
  simp only [extend, Standard.SHA256, rightrot_eq _ (show 17 < 32 by decide),
    rightrot_eq _ (show 19 < 32 by decide), rightrot_eq _ (show 7 < 32 by decide),
    rightrot_eq _ (show 18 < 32 by decide)]
  ac_rfl

theorem mixE_eq (x : BitVec 32) : SHA256.mixE x = Standard.SHA256.bigSigma1 x := by
  simp only [SHA256, Standard.SHA256, rightrot_eq _ (show 6 < 32 by decide),
    rightrot_eq _ (show 11 < 32 by decide), rightrot_eq _ (show 25 < 32 by decide)]

theorem mixA_eq (x : BitVec 32) : SHA256.mixA x = Standard.SHA256.bigSigma0 x := by
  simp only [SHA256, Standard.SHA256, rightrot_eq _ (show 2 < 32 by decide),
    rightrot_eq _ (show 13 < 32 by decide), rightrot_eq _ (show 22 < 32 by decide)]

theorem follows256 : SHA256.Follows Standard.SHA256 :=
  ⟨rfl, constants_eq, extend_eq, mixE_eq, mixA_eq⟩

theorem follows224 : SHA256.Follows Standard.SHA224 :=
  ⟨rfl, constants_eq, extend_eq, mixE_eq, mixA_eq⟩

end SHA256

/-! ### SHA-384 and SHA-512 -/

namespace SHA512

/-- The table has the cube roots of the first 80 primes, and both initial values are those
of the standard. -/
theorem tables_eq : (∀ t < 80, constants.getD t 0 = Standard.SHA2.K 64 t) ∧
    SHA512.initial .sha512 = Standard.SHA512.H ∧ SHA512.initial .sha384 = Standard.SHA384.H := by
  decide +kernel

theorem constants_eq : ∀ t < 80, constants.getD t 0 = Standard.SHA2.K 64 t := tables_eq.1

theorem initial512_eq : SHA512.initial .sha512 = Standard.SHA512.H := tables_eq.2.1

theorem initial384_eq : SHA512.initial .sha384 = Standard.SHA384.H := tables_eq.2.2

theorem extend_eq (words : Nat → BitVec 64) (t : Nat) :
    extend words t = Standard.SHA512.smallSigma1 (words (t - 2)) + words (t - 7) +
      Standard.SHA512.smallSigma0 (words (t - 15)) + words (t - 16) := by
  simp only [extend, Standard.SHA512, rightrot_eq _ (show 19 < 64 by decide),
    rightrot_eq _ (show 61 < 64 by decide), rightrot_eq _ (show 1 < 64 by decide),
    rightrot_eq _ (show 8 < 64 by decide)]
  ac_rfl

theorem mixE_eq (x : BitVec 64) : SHA512.mixE x = Standard.SHA512.bigSigma1 x := by
  simp only [SHA512, Standard.SHA512, rightrot_eq _ (show 14 < 64 by decide),
    rightrot_eq _ (show 18 < 64 by decide), rightrot_eq _ (show 41 < 64 by decide)]

theorem mixA_eq (x : BitVec 64) : SHA512.mixA x = Standard.SHA512.bigSigma0 x := by
  simp only [SHA512, Standard.SHA512, rightrot_eq _ (show 28 < 64 by decide),
    rightrot_eq _ (show 34 < 64 by decide), rightrot_eq _ (show 39 < 64 by decide)]

theorem follows512 : SHA512.Follows Standard.SHA512 :=
  ⟨rfl, constants_eq, extend_eq, mixE_eq, mixA_eq⟩

theorem follows384 : SHA512.Follows Standard.SHA384 :=
  ⟨rfl, constants_eq, extend_eq, mixE_eq, mixA_eq⟩

end SHA512

/-! ## MD5 -/

namespace MD5

/-- The registers in the order A, B, C, D, when the operation `t` is next: the
variables are the letters that it calls `a b c d`. -/
def State.registers (s : State) (t : Nat) : List (BitVec 32) :=
  match t % 4 with
  | 0 => [s.A, s.B, s.C, s.D]
  | 1 => [s.B, s.C, s.D, s.A]
  | 2 => [s.C, s.D, s.A, s.B]
  | _ => [s.D, s.A, s.B, s.C]

/-- The word that an operation takes. -/
def index (j : Nat) : Nat :=
  if j < 16 then j
  else if j < 32 then (5 * j + 1) % 16
  else if j < 48 then (3 * j + 5) % 16
  else (7 * j) % 16

theorem index_eq : ∀ t < 64, indices.getD t 0 = index t := by decide

theorem index_lt (t : Nat) : t < 64 → index t < 16 := by
  unfold index
  split_ifs <;> omega

theorem shifts_eq : ∀ t < 64, (rotations.getD (t / 16) []).getD (t % 4) 0 =
    shifts.getD t 0 ∧ shifts.getD t 0 < 32 := by decide

theorem auxiliary_eq (t : Nat) (B C D : BitVec 32) :
    (if t < 16 then (B &&& C) ||| (~~~B &&& D)
    else if t < 32 then (D &&& B) ||| (~~~D &&& C)
    else if t < 48 then B ^^^ C ^^^ D
    else C ^^^ (B ||| ~~~D)) = auxiliary t B C D := by
  unfold auxiliary
  split_ifs
  · rfl
  · rw [Standard.MD5.G, BitVec.and_comm D B, BitVec.and_comm (~~~D) C]
  · rfl
  · rfl

variable {X chunk : Nat → BitVec 32}

theorem round_registers (hchunk : ∀ k < 16, chunk k = X k) (s : State) {t : Nat} (ht : t < 64) :
    (round chunk s t).registers (t + 1) = operation X (s.registers t) t := by
  obtain ⟨hshift, hlt⟩ := shifts_eq t ht
  have hB : (round chunk s t).B = s.B + (s.A + auxiliary t s.B s.C s.D +
      X (index t) + Standard.MD5.T (t + 1)).rotateLeft (shifts.getD t 0) := by
    change s.B + leftrot (s.A + _ + constants.getD t 0 + chunk (index t)) (shifts.getD t 0) = _
    rw [leftrot_eq _ hlt, auxiliary_eq, constants_eq ht, hchunk _ (index_lt t ht)]
    congr 2
    ac_rfl
  have hmod : t % 4 < 4 := Nat.mod_lt t (by decide)
  have hround : round chunk s t = ⟨s.D, (round chunk s t).B, s.B, s.C⟩ := rfl
  rw [hround, hB, operation, index_eq t ht, hshift]
  unfold State.registers letters
  rw [show (t + 1) % 4 = (t % 4 + 1) % 4 by omega]
  interval_cases t % 4 <;> rfl

theorem rounds_registers (hchunk : ∀ k < 16, chunk k = X k) (s : State) : ∀ n ≤ 64,
    ((List.range n).foldl (round chunk) s).registers n =
      (List.range n).foldl (operation X) (s.registers 0)
  | 0, _ => rfl
  | n + 1, hn => by
    rw [range_succ, foldl_append, foldl_append,
      ← rounds_registers hchunk s n (by omega)]
    exact round_registers hchunk _ (by omega)

theorem wordX_bits : ∀ {bytes : List Byte}, 4 ≤ bytes.length →
    wordX (bits bytes) = loadLE 32 (bytes.take 4)
  | b₀ :: b₁ :: b₂ :: b₃ :: rest, _ => by
    have hdown : wordX (bits (b₀ :: b₁ :: b₂ :: b₃ :: rest)) =
        wordOf 32 (bits [b₃, b₂, b₁, b₀]) := rfl
    rw [hdown, wordOf_bits (n := 4) rfl le_rfl]
    rfl

theorem chunkWord_eq {buffer : List Byte} {i k : Nat} (hin : 4 * (16 * i + k + 1) ≤ buffer.length) :
    chunkWord 32 buffer (16 * i) k =
      wordX ((bits buffer).drop (16 * 32 * i + 32 * k)) := by
  rw [show 16 * 32 * i + 32 * k = 8 * (4 * (16 * i + k)) by ring, ← bits_drop,
    wordX_bits (by rw [length_drop]; omega)]
  rfl

theorem process_registers {buffer : List Byte} (s : State) {i : Nat}
    (hin : 4 * (16 * i + 16) ≤ buffer.length) :
    (process buffer s (16 * i)).registers 0 =
      compute (fun t => (bits buffer).drop (16 * 32 * i + 32 * t))
        (s.registers 0) := by
  rw [compute, ← rounds_registers
    (fun k hk => chunkWord_eq (by omega)) s 64 le_rfl]
  simp [process, State.registers, BitVec.add_comm]

theorem overwrite_word {data : List Byte} (hdata : data.length = 64) {offset : Nat}
    (hoffset : offset + 4 ≤ 64) (word : BitVec 32) :
    (overwrite data offset (storeLE 4 word)).length = 64 ∧
      (overwrite data offset (storeLE 4 word)).take (offset + 4) =
        data.take offset ++ storeLE 4 word := by
  have hroom : offset + (storeLE 4 word).length ≤ data.length := by
    rw [storeLE_length, hdata]
    exact hoffset
  have htake := overwrite_take hroom
  exact ⟨(overwrite_length hroom).trans hdata, htake⟩

theorem overwrite_words {data : List Byte} (hdata : data.length = 64) (A B C D : BitVec 32) :
    (overwrite (overwrite (overwrite (overwrite data 0 (storeLE 4 A)) 4 (storeLE 4 B)) 8
      (storeLE 4 C)) 12 (storeLE 4 D)).take 16 =
        storeLE 4 A ++ storeLE 4 B ++ storeLE 4 C ++ storeLE 4 D := by
  obtain ⟨h₀, htake₀⟩ := overwrite_word hdata (show 0 + 4 ≤ 64 by decide) A
  obtain ⟨h₁, htake₁⟩ := overwrite_word h₀ (show 4 + 4 ≤ 64 by decide) B
  obtain ⟨h₂, htake₂⟩ := overwrite_word h₁ (show 8 + 4 ≤ 64 by decide) C
  obtain ⟨-, htake₃⟩ := overwrite_word h₂ (show 12 + 4 ≤ 64 by decide) D
  rw [htake₃, htake₂, htake₁, htake₀, take_zero, nil_append]

theorem hash_digest {input : List Byte} (hinput : input.length < 2 ^ 61) {output : Value}
    (houtput : output.data.length = 64) :
    ∃ v, hash .md5 input output = .ok v ∧
      bits (v.data.take v.size) = digest (bits input) := by
  have hsizes : Sizes 64 8 := .inl ⟨rfl, rfl⟩
  have hbytes : ∀ x : BitVec 64, (storeLE 8 x).length = 8 := storeLE_length 8
  refine ⟨_, rfl, ?_⟩
  have hlength := padded_length hsizes hinput hbytes
  have hbits : bits (padded 64 8 (storeLE 8) input) =
      Standard.pad 512 64 lengthBits (bits input) :=
    padded_bits hsizes hinput hbytes _ (nil_append (lengthBits _)).symm
  have hiterate := iterate_chunks rfl (by decide) hlength (fun s => s.registers 0)
    (fun s i hin => process_registers s hin) initial
  rw [hbits] at hiterate
  have hinitial : initial.registers 0 = [0x67452301, 0xefcdab89, 0x98badcfe, 0x10325476] := rfl
  rw [hinitial] at hiterate
  rw [overwrite_words houtput, digest, ← hiterate]
  simp only [State.registers, flatMap_cons, flatMap_nil, append_nil, bits_append,
    append_assoc]

end MD5

/-! ## All functions -/

/-- **The digest**: for every message of fewer than 2^61 bytes, each function
has an implementation, which returns the digest that its standard defines. -/
theorem getHashFunction_digest {function : Function} (hfunction : function ≠ .maxEnum)
    {input : List Byte} (hinput : input.length < 2 ^ 61) {output : Value}
    (houtput : output.data.length = 64) :
    ∃ implementation, getHashFunction function = some implementation ∧
      implementation.isSupported function = true ∧
      ∃ v, implementation.hash function input output = .ok v ∧
        bits (v.data.take v.size) = Standard.digest function (bits input) := by
  cases function with
  | md5 => exact ⟨md5, rfl, rfl, MD5.hash_digest hinput houtput⟩
  | sha1 => exact ⟨sha1, rfl, rfl, SHA1.hash_digest hinput houtput⟩
  | sha224 =>
    exact ⟨sha256, rfl, rfl, SHA256.follows224.hash_digest 7 (n := 4) rfl (by decide)
      (.inl ⟨rfl, rfl⟩) rfl rfl rfl SHA256.initial224_eq rfl rfl (by decide) rfl hinput (by omega)⟩
  | sha256 =>
    exact ⟨sha256, rfl, rfl, SHA256.follows256.hash_digest 8 (n := 4) rfl (by decide)
      (.inl ⟨rfl, rfl⟩) rfl rfl rfl SHA256.initial256_eq rfl rfl (by decide) rfl hinput (by omega)⟩
  | sha384 =>
    exact ⟨sha512, rfl, rfl, SHA512.follows384.hash_digest 6 (n := 8) rfl (by decide)
      (.inr ⟨rfl, rfl⟩) rfl rfl rfl SHA512.initial384_eq rfl rfl (by decide) rfl hinput (by omega)⟩
  | sha512 =>
    exact ⟨sha512, rfl, rfl, SHA512.follows512.hash_digest 8 (n := 8) rfl (by decide)
      (.inr ⟨rfl, rfl⟩) rfl rfl rfl SHA512.initial512_eq rfl rfl (by decide) rfl hinput (by omega)⟩
  | maxEnum => exact absurd rfl hfunction

theorem getHashFunction_digest_abc :
    ∃ implementation, getHashFunction .sha256 = some implementation ∧
      implementation.isSupported .sha256 = true ∧
      ∃ v, implementation.hash .sha256 [0x61, 0x62, 0x63] ⟨replicate 64 0, 0⟩ = .ok v ∧
        bits (v.data.take v.size) = Standard.digest .sha256 (bits [0x61, 0x62, 0x63]) :=
  getHashFunction_digest (by decide) (by decide) (by decide)

end Lhatove.Data
