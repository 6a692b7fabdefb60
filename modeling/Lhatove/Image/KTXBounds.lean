import Lhatove.Image.KTXHandler

/-!
# What a KTX file has, and what is read

- `number`, `levelStart`, `LevelsInside`: the levels of a file, in its own terms;
- `parse_ok`: what both passes do with a file that is accepted;
- `inBounds_iff`: which accepted files are parsed within bounds.
-/

namespace Lhatove.Image.KTX

open List

/-! ## The format -/

section Format

variable (file : List Byte)

/-- The file has its high-order bytes first. -/
def bigEndian : Bool := (file.drop 12).take 4 = [4, 3, 2, 1]

/-- The 32 bit number at an offset, in the byte order of the file. -/
def number (offset : Nat) : Nat :=
  let bytes := (file.drop offset).take 4
  (loadLE 32 (if bigEndian file then bytes.reverse else bytes)).toNat

/-- A file without mip levels has one. -/
def levelCount : Nat := max (number file 56) 1

/-- Where a level is: its size, and then its bytes up to a multiple of four. -/
def levelStart : Nat → Nat
  | 0 => 64 + number file 60
  | i + 1 => levelStart i + 4 + 4 * ((number file (levelStart i) + 3) / 4)

/-- **Every level is in the file**, and is small enough for its size to be
rounded up in 32 bits. -/
def LevelsInside : Prop := ∀ i < levelCount file,
  number file (levelStart file i) ≤ 2 ^ 32 - 4 ∧
    levelStart file i + 4 + number file (levelStart file i) ≤ file.length

end Format

/-- A slice has the byte at an address of the memory. -/
def Slice.Has (s : Slice) (address : Nat) : Prop := s.offset ≤ address ∧ address < s.offset + s.size

/-- **In bounds**: every byte read is one of the file, every slice is in the
memory, no two have a byte in common, and each has the bytes of its level. -/
structure InBounds (file : List Byte) (p : Parsed) : Prop where
  reads : ∀ r ∈ p.reads, ∀ k < r.size, r.offset + k < file.length
  inside : ∀ s ∈ p.images, s.offset + s.size ≤ p.memorySize
  disjoint : p.images.Pairwise fun s t => ∀ address, ¬ (s.Has address ∧ t.Has address)
  levels : p.images.length = levelCount file
  bytes : ∀ i s, p.images[i]? = some s → s.size = number file (levelStart file i) ∧
    ∀ k < s.size, file[levelStart file i + 4 + k]? = some (p.memory (s.offset + k))

/-! ## Numbers -/

section Numbers

variable {file : List Byte} {behind : Nat → Byte}

theorem wordAt_eq {offset : Nat} (h : offset + 4 ≤ file.length) :
    wordAt file behind offset = loadLE 32 ((file.drop offset).take 4) := by
  rw [wordAt]
  congr 1
  refine ext_getElem (by simp; omega) fun k hk _ => ?_
  have hk : k < 4 := by simpa using hk
  simp [byteAt, show offset + k < file.length by omega]

theorem swapuint32_getLsbD (x : BitVec 32) {i : Nat} (hi : i < 32) :
    (swapuint32 x).getLsbD i = x.getLsbD (8 * (3 - i / 8) + i % 8) := by
  interval_cases i <;> simp [swapuint32]

theorem swapuint32_loadLE {bytes : List Byte} (h : bytes.length = 4) :
    swapuint32 (loadLE 32 bytes) = loadLE 32 bytes.reverse := by
  refine eq_of_bits fun i hi => ?_
  rw [swapuint32_getLsbD _ hi, loadLE_getLsbD _ _ (by omega), loadLE_getLsbD _ _ hi,
    reverse_getD (by omega), h, show (8 * (3 - i / 8) + i % 8) / 8 = 4 - 1 - i / 8 by omega,
    show (8 * (3 - i / 8) + i % 8) % 8 = i % 8 by omega]

theorem loadLE_inj {bytes bytes' : List Byte} (h : bytes.length = 4) (h' : bytes'.length = 4) :
    loadLE 32 bytes = loadLE 32 bytes' ↔ bytes = bytes' := by
  refine ⟨fun heq => ?_, fun heq => heq ▸ rfl⟩
  rw [← storeLE_loadLE rfl h, heq, storeLE_loadLE rfl h']

theorem bigEndian_iff (hheader : 16 ≤ file.length) :
    wordAt file behind 12 = endianRefRev ↔ bigEndian file = true := by
  rw [wordAt_eq hheader, show endianRefRev = loadLE 32 [4, 3, 2, 1] by decide,
    loadLE_inj (by simp; omega) rfl, bigEndian, decide_eq_true_iff]

theorem fieldAt_toNat (hheader : 16 ≤ file.length) {offset : Nat} (h : offset + 4 ≤ file.length) :
    (fieldAt file behind (wordAt file behind 12) offset).toNat = number file offset := by
  unfold fieldAt number
  dsimp only
  by_cases hbig : bigEndian file = true
  · rw [if_pos ((bigEndian_iff hheader).mpr hbig), if_pos hbig, wordAt_eq h,
      swapuint32_loadLE (by simp; omega)]
  · rw [if_neg (mt (bigEndian_iff hheader).mp hbig), if_neg hbig, wordAt_eq h]

theorem padSize_toNat (mipsize : BitVec 32) :
    (padSize mipsize).toNat = 4 * ((mipsize.toNat + 3) % 2 ^ 32 / 4) := by
  have hshift : padSize mipsize = ((mipsize + 3) >>> 2) <<< 2 := by
    refine eq_of_bits fun i hi => ?_
    have hmask : (~~~3#32).getLsbD i = decide (2 ≤ i) := by
      interval_cases i <;> rfl
    rw [padSize, BitVec.getLsbD_and, BitVec.getLsbD_shiftLeft, BitVec.getLsbD_ushiftRight,
      show (~~~3 : BitVec 32) = ~~~3#32 from rfl, hmask]
    by_cases hlow : i < 2
    · simp [hlow, show ¬ 2 ≤ i by omega]
    · simp [hlow, hi, show 2 ≤ i by omega, show 2 + (i - 2) = i by omega]
  rw [hshift, BitVec.toNat_shiftLeft, BitVec.toNat_ushiftRight, BitVec.toNat_add,
    Nat.shiftLeft_eq, Nat.shiftRight_eq_div_pow, show (3 : BitVec 32).toNat = 3 from rfl]
  omega

end Numbers

/-! ## The two passes -/

section Passes

variable (file : List Byte) (behind : Nat → Byte) (header : Header)

/-- Where the passes find level `i`. -/
def offsetAt : Nat → Nat
  | 0 => addSize headerSize header.bytesOfKeyValueData.toNat
  | i + 1 => addSize (addSize (offsetAt i) 4)
      (padSize (fieldAt file behind header.endianness (offsetAt i))).toNat

/-- The size they read there. -/
def sizeAt (i : Nat) : BitVec 32 :=
  fieldAt file behind header.endianness (offsetAt file behind header i)

/-- Where the memory has level `i`. -/
def placeAt : Nat → Nat
  | 0 => 0
  | i + 1 => addSize (placeAt i) (padSize (sizeAt file behind header i)).toNat

/-- The memory, with the first levels copied. -/
def memoryAt (fresh : Nat → Byte) : Nat → Nat → Byte
  | 0 => fresh
  | i + 1 => copyBytes file behind (memoryAt fresh i) (placeAt file behind header i)
      (addSize (offsetAt file behind header i) 4) (sizeAt file behind header i).toNat

/-- The slice of level `i`. -/
def sliceAt (cformat : PixelFormat) (i : Nat) : Slice :=
  ⟨cformat, (stdMax (header.pixelWidth >>> (i % 32)) 1).toInt,
    (stdMax (header.pixelHeight >>> (i % 32)) 1).toInt, placeAt file behind header i,
    (sizeAt file behind header i).toNat⟩

/-- The reads of the second pass at level `i`. -/
def readsAt (i : Nat) : List Read :=
  [⟨offsetAt file behind header i, 4⟩,
    ⟨addSize (offsetAt file behind header i) 4, (sizeAt file behind header i).toNat⟩]

variable {file behind header}

/-- **The first pass** finds every size in the file, or throws. -/
theorem sizeLevels_ok {total : Nat} {reads' : List Read} : ∀ {n i : Nat} {reads : List Read},
    sizeLevels file behind header.endianness n (offsetAt file behind header i)
      (placeAt file behind header i) reads = .ok (total, reads') →
    (∀ j < n, addSize (offsetAt file behind header (i + j)) 4 ≤ file.length) ∧
      total = placeAt file behind header (i + n) ∧
      reads' = reads ++ (List.range n).map fun j => ⟨offsetAt file behind header (i + j), 4⟩
  | 0, i, reads, h => by
    cases h
    exact ⟨fun _ hj => absurd hj (Nat.not_lt_zero _), rfl, (append_nil _).symm⟩
  | n + 1, i, reads, h => by
    unfold sizeLevels at h
    split at h
    · cases h
    · next hfits =>
      obtain ⟨hall, htotal, hreads⟩ := sizeLevels_ok (i := i + 1) h
      refine ⟨fun j hj => ?_, ?_, ?_⟩
      · cases j with
        | zero => exact Nat.le_of_not_gt hfits
        | succ j =>
          rw [← Nat.add_assoc, Nat.add_right_comm]
          exact hall j (by omega)
      · rw [htotal, Nat.add_right_comm, Nat.add_assoc]
      · rw [hreads, range_succ_eq_map, map_cons, map_map, append_assoc]
        simp [Function.comp_def, Nat.add_assoc, Nat.add_comm 1]

/-- **The second pass** copies the levels one after another. -/
theorem copyLevels_eq (cformat : PixelFormat) (fresh : Nat → Byte) (reads : List Read) : ∀ n,
    (List.range n).foldl (fun c i => copyLevel file behind header cformat i c)
        ⟨offsetAt file behind header 0, 0, fresh, [], reads⟩ =
      ⟨offsetAt file behind header n, placeAt file behind header n,
        memoryAt file behind header fresh n,
        (List.range n).map (sliceAt file behind header cformat),
        reads ++ (List.range n).flatMap (readsAt file behind header)⟩
  | 0 => by
    rw [range_zero, foldl_nil, map_nil, flatMap_nil, append_nil]
    rfl
  | n + 1 => by
    rw [range_succ, foldl_append, copyLevels_eq cformat fresh reads n, map_append,
      flatMap_append, ← append_assoc]
    rfl

/-- What both passes have done for a file with `n` levels. -/
structure Done (file : List Byte) (behind : Nat → Byte) (header : Header) (fresh : Nat → Byte)
    (p : Parsed) (n : Nat) : Prop where
  fits : ∀ j < n, addSize (offsetAt file behind header j) 4 ≤ file.length
  memorySize : p.memorySize = placeAt file behind header n
  memory : p.memory = memoryAt file behind header fresh n
  images : p.images = (List.range n).map (sliceAt file behind header p.format)
  reads : p.reads = [⟨0, 12⟩, ⟨12, 4⟩, ⟨0, headerSize⟩] ++
    (List.range n).map (fun j => ⟨offsetAt file behind header j, 4⟩) ++
    (List.range n).flatMap (readsAt file behind header)

/-- **What is done** with a file that is accepted. -/
theorem parse_ok {fresh : Nat → Byte} {room : Nat → Bool} {p : Parsed}
    (h : parseCompressed file behind fresh room = .ok p) :
    canParseCompressed file behind = true ∧ p.memorySize ≠ 0 ∧
      Done file behind (readHeader file behind) fresh p (readHeader file behind).levels := by
  unfold parseCompressed at h
  split at h
  · cases h
  · next hcan =>
    refine ⟨by simpa using hcan, ?_⟩
    generalize readHeader file behind = header at h ⊢
    dsimp only at h
    split_ifs at h
    cases hsize : sizeLevels file behind header.endianness header.levels
        (addSize headerSize header.bytesOfKeyValueData.toNat) 0
        [⟨0, 12⟩, ⟨12, 4⟩, ⟨0, headerSize⟩] with
    | error message => rw [hsize] at h; cases h
    | ok result =>
      obtain ⟨total, reads⟩ := result
      rw [hsize] at h
      dsimp only at h
      split_ifs at h with hzero hroom
      obtain ⟨hall, htotal, hreads⟩ := sizeLevels_ok (i := 0) hsize
      have hcopy := @copyLevels_eq file behind header
        (convertFormat header.glInternalFormat) fresh reads header.levels
      change (List.range header.levels).foldl _ (Copying.mk
        (addSize headerSize header.bytesOfKeyValueData.toNat) 0 fresh [] reads) = _ at hcopy
      rw [hcopy] at h
      cases h
      simp only [Nat.zero_add] at hall htotal hreads
      exact ⟨hzero, hall, htotal, rfl, rfl, by rw [hreads]⟩

end Passes

/-! ## Bounds -/

section Bounds

variable {file : List Byte} {behind : Nat → Byte} {header : Header} {n : Nat}

theorem addSize_of_lt {a b : Nat} (h : a + b < 2 ^ 64) : addSize a b = a + b := Nat.mod_eq_of_lt h

section

variable (hfile : file.length < 2 ^ 63)
  (hfits : ∀ j < n, addSize (offsetAt file behind header j) 4 ≤ file.length)
include hfile hfits

theorem offsetAt_lt :
    ∀ j ≤ n, offsetAt file behind header j < 2 ^ 63 + 2 ^ 33
  | 0, _ => by
    rw [offsetAt, addSize_of_lt (by rw [headerSize]; omega), headerSize]
    omega
  | j + 1, hj => by
    have hlt := offsetAt_lt j (by omega)
    have hin := hfits j (by omega)
    rw [addSize_of_lt (by omega)] at hin
    rw [offsetAt, addSize_of_lt (show offsetAt file behind header j + 4 < 2 ^ 64 by omega),
      addSize_of_lt (by omega)]
    omega

theorem offsetAt_succ {j : Nat} (hj : j < n) : offsetAt file behind header j + 4 ≤ file.length ∧
      addSize (offsetAt file behind header j) 4 = offsetAt file behind header j + 4 ∧
      offsetAt file behind header (j + 1) =
        offsetAt file behind header j + 4 + (padSize (sizeAt file behind header j)).toNat := by
  have hlt := offsetAt_lt hfile hfits j (by omega)
  have hin := hfits j hj
  have hadd : addSize (offsetAt file behind header j) 4 = offsetAt file behind header j + 4 :=
    addSize_of_lt (by omega)
  rw [hadd] at hin
  refine ⟨hin, hadd, ?_⟩
  rw [offsetAt, hadd]
  exact addSize_of_lt (by change _ + (padSize (sizeAt file behind header j)).toNat < _; omega)

theorem placeAt_le :
    ∀ j ≤ n, placeAt file behind header j ≤ offsetAt file behind header j
  | 0, _ => Nat.zero_le _
  | j + 1, hj => by
    have hle := placeAt_le j (by omega)
    obtain ⟨hin, -, hnext⟩ := offsetAt_succ hfile hfits (show j < n by omega)
    rw [placeAt, hnext, addSize_of_lt (by omega)]
    omega

theorem placeAt_succ {j : Nat} (hj : j < n) : placeAt file behind header (j + 1) =
      placeAt file behind header j + (padSize (sizeAt file behind header j)).toNat := by
  have hle := placeAt_le hfile hfits j (by omega)
  obtain ⟨hin, -, -⟩ := offsetAt_succ hfile hfits hj
  rw [placeAt, addSize_of_lt (by omega)]

theorem placeAt_mono {i j : Nat} (hij : i ≤ j)
    (hj : j ≤ n) : placeAt file behind header i ≤ placeAt file behind header j := by
  induction j, hij using Nat.le_induction with
  | base => exact le_rfl
  | succ j hij ih =>
    have := placeAt_succ hfile hfits (show j < n by omega)
    have := ih (by omega)
    omega

theorem place_room {j : Nat} (hj : j < n)
    (hsize : (sizeAt file behind header j).toNat ≤ 2 ^ 32 - 4) :
    placeAt file behind header j + (sizeAt file behind header j).toNat ≤
      placeAt file behind header (j + 1) := by
  rw [placeAt_succ hfile hfits hj, padSize_toNat]
  omega

/-- Where levels follow each other in the memory, each stays as it was copied. -/
theorem memoryAt_apply (hsizes : ∀ j < n, (sizeAt file behind header j).toNat ≤ 2 ^ 32 - 4)
    {fresh : Nat → Byte} {j k : Nat}
    (hk : k < (sizeAt file behind header j).toNat) : ∀ m ≤ n, j < m →
      memoryAt file behind header fresh m (placeAt file behind header j + k) =
        byteAt file behind (offsetAt file behind header j + 4 + k)
  | m + 1, hm, hj => by
    obtain ⟨-, hadd, -⟩ := offsetAt_succ hfile hfits (show m < n by omega)
    rw [memoryAt, copyBytes, hadd]
    by_cases heq : j = m
    · subst heq
      rw [if_pos ⟨by omega, by omega⟩, Nat.add_sub_cancel_left]
    · have hroom := place_room hfile hfits (by omega) (hsizes j (by omega))
      have hmono := placeAt_mono hfile hfits (show j + 1 ≤ m by omega) (by omega)
      rw [if_neg (by omega)]
      exact memoryAt_apply hsizes hk m (by omega) (by omega)

end

end Bounds

/-! ## Accepted files -/

section Accepted

variable {file : List Byte} {behind : Nat → Byte}

theorem stdMax_toNat (a b : BitVec 32) : (stdMax a b).toNat = max a.toNat b.toNat := by
  unfold stdMax
  split
  next hlt =>
    rw [max_eq_right (BitVec.lt_def.mp hlt).le]
  next hlt =>
    rw [max_eq_left (Nat.le_of_not_lt (mt BitVec.lt_def.mpr hlt))]

theorem headerSize_le (hcan : canParseCompressed file behind = true) : 64 ≤ file.length := by
  unfold canParseCompressed at hcan
  split at hcan
  · cases hcan
  · next hsize => exact Nat.le_of_not_lt hsize

theorem levels_eq (hheader : 64 ≤ file.length) (hlevels : (readHeader file behind).levels ≠ 0) :
    (readHeader file behind).levels = levelCount file := by
  have hcount : (readHeader file behind).numberOfMipmapLevels.toNat = levelCount file := by
    change (stdMax (fieldAt file behind (wordAt file behind 12) 56) 1).toNat = _
    rw [stdMax_toNat, fieldAt_toNat (by omega) (by omega)]
    rfl
  rw [← hcount]
  unfold Header.levels at hlevels ⊢
  rw [BitVec.toInt_eq_toNat_cond] at hlevels ⊢
  split at hlevels
  · next hsmall => rw [if_pos hsmall, Int.toNat_natCast]
  · omega

variable {n : Nat} (hheader : 64 ≤ file.length) (hfile : file.length < 2 ^ 63)
  (hfits : ∀ j < n, addSize (offsetAt file behind (readHeader file behind) j) 4 ≤ file.length)

include hheader hfile hfits in
theorem sizeAt_toNat {j : Nat} (hj : j < n) :
    (sizeAt file behind (readHeader file behind) j).toNat =
      number file (offsetAt file behind (readHeader file behind) j) :=
  fieldAt_toNat (by omega) (offsetAt_succ hfile hfits hj).1

include hheader hfile hfits in
theorem offsetAt_eq : ∀ j ≤ n,
    (∀ i < j, (sizeAt file behind (readHeader file behind) i).toNat ≤ 2 ^ 32 - 4) →
      offsetAt file behind (readHeader file behind) j = levelStart file j
  | 0, _, _ => by
    have hdata : (readHeader file behind).bytesOfKeyValueData.toNat = number file 60 :=
      fieldAt_toNat (by omega) (by omega)
    rw [offsetAt, addSize_of_lt (by rw [headerSize]; omega), hdata]
    rfl
  | j + 1, hj, hsizes => by
    have hsize := hsizes j (by omega)
    have heq := offsetAt_eq j (by omega) fun i hi => hsizes i (by omega)
    rw [(offsetAt_succ hfile hfits (by omega)).2.2, padSize_toNat,
      Nat.mod_eq_of_lt (by omega), sizeAt_toNat hheader hfile hfits (by omega), heq]
    rfl

include hheader hfile hfits in
theorem sizeAt_le (hinside : LevelsInside file) (hn : n = levelCount file) :
    ∀ j ≤ n, ∀ i < j, (sizeAt file behind (readHeader file behind) i).toNat ≤ 2 ^ 32 - 4
  | 0, _, _, hi => absurd hi (Nat.not_lt_zero _)
  | j + 1, hj, i, hi => by
    have hbefore := sizeAt_le hinside hn j (by omega)
    rcases Nat.lt_succ_iff_lt_or_eq.mp hi with hlt | rfl
    · exact hbefore i hlt
    · rw [sizeAt_toNat hheader hfile hfits (by omega),
        offsetAt_eq hheader hfile hfits i (by omega) hbefore]
      exact (hinside i (by omega)).1

theorem exists_change {f : Nat → Nat} {a b : Nat} (hab : a ≤ b) (h : f b ≠ f a) :
    ∃ t, a ≤ t ∧ t < b ∧ f t = f a ∧ f (t + 1) ≠ f a := by
  induction b, hab using Nat.le_induction with
  | base => exact absurd rfl h
  | succ b hab ih =>
    by_cases heq : f b = f a
    · exact ⟨b, hab, Nat.lt_succ_self b, heq, h⟩
    · obtain ⟨t, hat, htb, ht⟩ := ih heq
      exact ⟨t, hat, by omega, ht⟩

include hfile hfits in
/-- A size that goes round leaves no place: its slice runs into the next one
that is not empty, or out of the memory. -/
theorem sizeAt_le_of_disjoint {cformat : PixelFormat}
    (hplaced : ∀ j < n, placeAt file behind (readHeader file behind) j +
      (sizeAt file behind (readHeader file behind) j).toNat ≤
        placeAt file behind (readHeader file behind) n)
    (hdisjoint : ∀ i j, i < j → j < n → ∀ address,
      ¬ ((sliceAt file behind (readHeader file behind) cformat i).Has address ∧
        (sliceAt file behind (readHeader file behind) cformat j).Has address)) {j : Nat}
    (hj : j < n) : (sizeAt file behind (readHeader file behind) j).toNat ≤ 2 ^ 32 - 4 := by
  generalize readHeader file behind = header at *
  by_contra hbig
  have hstay : placeAt file behind header (j + 1) = placeAt file behind header j := by
    rw [placeAt_succ hfile hfits hj, padSize_toNat]
    omega
  have hend := hplaced j hj
  obtain ⟨t, hjt, htn, ht, hchange⟩ :=
    exists_change (f := placeAt file behind header) (show j + 1 ≤ n by omega) (by omega)
  rw [placeAt_succ hfile hfits htn, padSize_toNat, ht] at hchange
  refine hdisjoint j t (by omega) htn (placeAt file behind header j) ⟨⟨le_rfl, ?_⟩, ?_, ?_⟩
  · change placeAt file behind header j <
      placeAt file behind header j + (sizeAt file behind header j).toNat
    omega
  · change placeAt file behind header t ≤ placeAt file behind header j
    omega
  · change placeAt file behind header j <
      placeAt file behind header t + (sizeAt file behind header t).toNat
    omega

theorem pairwise_map_range {α : Type} {f : Nat → α} {R : α → α → Prop} {n : Nat} :
    ((List.range n).map f).Pairwise R ↔ ∀ i j, i < j → j < n → R (f i) (f j) := by
  rw [pairwise_map, pairwise_iff_getElem]
  refine ⟨fun h i j hij hj => ?_, fun h i j hi hj hij => ?_⟩
  · have := h i j (by rw [List.length_range]; omega) (by rwa [List.length_range]) hij
    rwa [getElem_range, getElem_range] at this
  · rw [List.length_range] at hj
    rw [getElem_range, getElem_range]
    exact h i j hij hj

variable {fresh : Nat → Byte} {p : Parsed}

include hheader hfile in
/-- In bounds, no size goes round, and the last byte of a level is in the file
because it was read. -/
theorem Done.levelsInside (h : Done file behind (readHeader file behind) fresh p n)
    (hcount : n = levelCount file) (hin : InBounds file p) : LevelsInside file := by
  have hplaced : ∀ j < n, placeAt file behind (readHeader file behind) j +
      (sizeAt file behind (readHeader file behind) j).toNat ≤
        placeAt file behind (readHeader file behind) n := fun j hj => by
    rw [← h.memorySize]
    refine hin.inside (sliceAt file behind (readHeader file behind) p.format j) ?_
    rw [h.images]
    exact mem_map_of_mem (mem_range.mpr hj)
  have hdisjoint := hin.disjoint
  rw [h.images, pairwise_map_range] at hdisjoint
  have hsmall := fun j (hj : j < n) => sizeAt_le_of_disjoint hfile h.fits hplaced hdisjoint hj
  intro i hi
  rw [← hcount] at hi
  have heq := offsetAt_eq hheader hfile h.fits i hi.le fun j hj => hsmall j (hj.trans hi)
  have hnumber := sizeAt_toNat hheader hfile h.fits hi
  obtain ⟨hlevel, hadd, -⟩ := offsetAt_succ hfile h.fits hi
  rw [← heq, ← hnumber]
  refine ⟨hsmall i hi, ?_⟩
  have hread : ∀ k < (sizeAt file behind (readHeader file behind) i).toNat,
      offsetAt file behind (readHeader file behind) i + 4 + k < file.length := by
    rw [← hadd]
    refine hin.reads ⟨_, _⟩ ?_
    rw [h.reads]
    refine mem_append_right _ (mem_flatMap.mpr ⟨i, mem_range.mpr hi, ?_⟩)
    exact mem_cons_of_mem _ mem_cons_self
  generalize (sizeAt file behind (readHeader file behind) i).toNat = size at hread ⊢
  cases size with
  | zero => exact hlevel
  | succ size => exact hread size (Nat.lt_succ_self size)

/-- What is so of a file whose levels are in it: the passes find them. -/
structure Found (file : List Byte) (behind : Nat → Byte) (n : Nat) : Prop where
  offset : ∀ j < n, offsetAt file behind (readHeader file behind) j = levelStart file j
  small : ∀ j < n, (sizeAt file behind (readHeader file behind) j).toNat ≤ 2 ^ 32 - 4
  size : ∀ j < n, (sizeAt file behind (readHeader file behind) j).toNat =
    number file (levelStart file j)
  ends : ∀ j < n, levelStart file j + 4 +
    (sizeAt file behind (readHeader file behind) j).toNat ≤ file.length

include hheader hfile hfits in
theorem found (hinside : LevelsInside file) (hcount : n = levelCount file) :
    Found file behind n := by
  have hsmall := sizeAt_le hheader hfile hfits hinside hcount n le_rfl
  have hoffset := fun j (hj : j < n) =>
    offsetAt_eq hheader hfile hfits j hj.le fun i hi => hsmall i (hi.trans hj)
  have hsize : ∀ j < n, (sizeAt file behind (readHeader file behind) j).toNat =
      number file (levelStart file j) := fun j hj => by
    rw [← hoffset j hj]
    exact sizeAt_toNat hheader hfile hfits hj
  refine ⟨hoffset, hsmall, hsize, fun j hj => ?_⟩
  rw [hsize j hj]
  exact (hinside j (hcount ▸ hj)).2

include hheader in
theorem Done.reads_inside (h : Done file behind (readHeader file behind) fresh p n)
    (hfile : file.length < 2 ^ 63) (hfound : Found file behind n) :
    ∀ r ∈ p.reads, r.offset + r.size ≤ file.length := by
  intro r hr
  rw [h.reads] at hr
  rcases mem_append.mp hr with hr | hr
  · rcases mem_append.mp hr with hr | hr
    · simp only [mem_cons, not_mem_nil, or_false] at hr
      rcases hr with rfl | rfl | rfl
      all_goals exact le_trans (by decide) hheader
    · obtain ⟨j, hj, rfl⟩ := mem_map.mp hr
      exact (offsetAt_succ hfile h.fits (mem_range.mp hj)).1
  · obtain ⟨j, hj, hr⟩ := mem_flatMap.mp hr
    have hj := mem_range.mp hj
    obtain ⟨hlevel, hadd, -⟩ := offsetAt_succ hfile h.fits hj
    rw [readsAt, hadd] at hr
    simp only [mem_cons, not_mem_nil, or_false] at hr
    rcases hr with rfl | rfl
    · exact hlevel
    · have hend := hfound.ends j hj
      rw [← hfound.offset j hj] at hend
      exact hend

theorem Done.bytes (h : Done file behind (readHeader file behind) fresh p n)
    (hfile : file.length < 2 ^ 63) (hfound : Found file behind n) {i : Nat} (hi : i < n) {k : Nat}
    (hk : k < (sizeAt file behind (readHeader file behind) i).toNat) :
    file[levelStart file i + 4 + k]? =
      some (p.memory (placeAt file behind (readHeader file behind) i + k)) := by
  have hend := hfound.ends i hi
  have hlt : levelStart file i + 4 + k < file.length := by omega
  rw [h.memory, memoryAt_apply hfile h.fits hfound.small hk n le_rfl hi, hfound.offset i hi,
    byteAt, dif_pos hlt]
  exact getElem?_eq_getElem hlt

include hheader hfile in
theorem Done.inBounds (h : Done file behind (readHeader file behind) fresh p n)
    (hcount : n = levelCount file) (hinside : LevelsInside file) : InBounds file p := by
  have hfound := found hheader hfile h.fits hinside hcount
  refine ⟨fun r hr k hk => ?_, fun s hs => ?_, ?_, ?_, fun i s hs => ?_⟩
  · have := h.reads_inside hheader hfile hfound r hr
    omega
  · rw [h.images] at hs
    obtain ⟨j, hj, rfl⟩ := mem_map.mp hs
    have hj := mem_range.mp hj
    rw [h.memorySize]
    exact (place_room hfile h.fits hj (hfound.small j hj)).trans
      (placeAt_mono hfile h.fits hj le_rfl)
  · rw [h.images, pairwise_map_range]
    intro i j hij hj address hboth
    obtain ⟨⟨-, hbefore⟩, hafter, -⟩ := hboth
    have hroom := place_room hfile h.fits (hij.trans hj) (hfound.small i (hij.trans hj))
    have hmono := placeAt_mono hfile h.fits (Nat.succ_le_of_lt hij) hj.le
    exact absurd (hbefore.trans_le (hroom.trans (hmono.trans hafter))) (lt_irrefl _)
  · rw [h.images, List.length_map, List.length_range, hcount]
  · have hi : i < n := by
      have := (List.getElem?_eq_some_iff.mp hs).1
      rwa [h.images, List.length_map, List.length_range] at this
    rw [h.images, getElem?_map, getElem?_range hi] at hs
    cases hs
    exact ⟨hfound.size i hi, fun k hk => h.bytes hfile hfound hi hk⟩

/-- **Which accepted files are parsed within bounds**: those whose levels are
all in the file. -/
theorem inBounds_iff (hfile : file.length < 2 ^ 63) {room : Nat → Bool}
    (h : parseCompressed file behind fresh room = .ok p) :
    InBounds file p ↔ LevelsInside file := by
  obtain ⟨hcan, hzero, hdone⟩ := parse_ok h
  have hheader := headerSize_le hcan
  have hcount : (readHeader file behind).levels = levelCount file := by
    refine levels_eq hheader fun hnone => hzero ?_
    rw [hdone.memorySize, hnone]
    rfl
  exact ⟨hdone.levelsInside hheader hfile hcount, hdone.inBounds hheader hfile hcount⟩

/-- A file of one level, 4 pixels each way, that says it has `size` bytes. -/
def oneLevel (size : Byte) (data : List Byte) : List Byte :=
  identifierRef ++ [1, 2, 3, 4] ++ List.replicate 12 0 ++ [0xF0, 0x83, 0, 0] ++
    List.replicate 4 0 ++ [4, 0, 0, 0] ++ [4, 0, 0, 0] ++ List.replicate 8 0 ++ [1, 0, 0, 0] ++
    [1, 0, 0, 0] ++ List.replicate 4 0 ++ [size, 0, 0, 0] ++ data

theorem inBounds_oneLevel :
    ∃ p, parseCompressed (oneLevel 8 [1, 2, 3, 4, 5, 6, 7, 8]) (fun _ => 0) (fun _ => 0)
        (fun _ => true) = .ok p ∧ InBounds (oneLevel 8 [1, 2, 3, 4, 5, 6, 7, 8]) p := by
  have hparse : ∃ p, parseCompressed (oneLevel 8 [1, 2, 3, 4, 5, 6, 7, 8]) (fun _ => 0)
      (fun _ => 0) (fun _ => true) = .ok p := ⟨_, rfl⟩
  obtain ⟨p, hp⟩ := hparse
  refine ⟨p, hp, (inBounds_iff (by decide) hp).mpr ?_⟩
  unfold LevelsInside
  decide +kernel

/-- The data of the last level may be missing. -/
theorem not_always_inBounds :
    ¬ ∀ file behind fresh room p, file.length < 2 ^ 63 →
      parseCompressed file behind fresh room = .ok p → InBounds file p := by
  intro hall
  have hin := hall (oneLevel 8 []) (fun _ => 0) (fun _ => 0) (fun _ => true) _ (by decide) rfl
  have hread := hin.reads ⟨68, 8⟩ (by decide +kernel) 0 (by decide)
  exact absurd hread (by decide)

end Accepted

end Lhatove.Image.KTX
