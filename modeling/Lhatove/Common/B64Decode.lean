import Lhatove.Common.B64

/-!
# What `b64_decode` computes and where it looks

- `sextets`: the six-bit values of a source, in order; everything the decoder
  skips (padding, line breaks, garbage) is gone.
- `decodeSextets`: decoding on values, four at a time, an unpadded tail giving
  one byte less than it has values.
- `b64Decode_ok`: the loops of the source compute `decodeSextets ∘ sextets`,
  whatever byte lies behind the source, and they read `src[0..srclen]`, **both
  ends included**.
- `b64Decode_memorySafe_iff`: since `src[srclen]` is always read, a call that
  returns is never inside its bounds; the writes stay inside the block exactly
  when an unpadded tail of two or three characters is not the last group.
-/

namespace Lhatove.B64

open List
open Prod (snd)

/-! ## Decoding on values -/

/-- The value of a character that is not skipped. -/
def sextet (c : UInt8) : Option UInt8 :=
  if lookup c = 0 then none else some (lookup c - 1)

/-- The six-bit values of a source, in order. -/
def sextets (src : List UInt8) : List UInt8 := src.filterMap sextet

/-- Decoding on values: `n` values of an incomplete group give `n - 1` bytes. -/
def decodeSextets : List UInt8 → List UInt8
  | a :: b :: c :: d :: r => b64DecodeBlock [a, b, c, d] ++ decodeSextets r
  | [a, b, c] => (b64DecodeBlock [a, b, c, 0]).take 2
  | [a, b] => (b64DecodeBlock [a, b, 0, 0]).take 1
  | _ => []

@[simp] theorem b64DecodeBlock_length (g : List UInt8) : (b64DecodeBlock g).length = 3 := rfl

theorem decodeSextets_length :
    ∀ vs : List UInt8, (decodeSextets vs).length = vs.length / 4 * 3 + (vs.length % 4 - 1)
  | [] | [_] | [_, _] | [_, _, _] => by simp [decodeSextets]
  | a :: b :: c :: d :: r => by
    rw [decodeSextets, length_append, decodeSextets_length r, b64DecodeBlock_length]
    simp only [length_cons]
    omega

theorem sextets_length_le (src : List UInt8) : (sextets src).length ≤ src.length :=
  length_filterMap_le _ _

/-! ## One character -/

/-- The values still ahead: the last cell is behind the source and never
counts. -/
def pending (rest : List Cell) : List UInt8 := sextets (rest.dropLast.map Prod.fst)

theorem pending_cons_cons (x y : Cell) (t : List Cell) :
    pending (x :: y :: t) = (sextet x.1).toList ++ pending (y :: t) := by
  unfold pending sextets
  rw [dropLast_cons_cons, map_cons, filterMap_cons]
  cases sextet x.1 <;> rfl

theorem nextChar_reads :
    ∀ rest : List Cell,
      (nextChar rest).2.2 ++ (nextChar rest).2.1.map snd = rest.map snd
  | [] => rfl
  | (c, a) :: rest => by
    unfold nextChar
    split
    · simpa using nextChar_reads rest
    · rfl

theorem nextChar_length_lt {rest : List Cell} (h : rest ≠ []) :
    (nextChar rest).2.1.length < rest.length := by
  have hlen := congrArg length (nextChar_reads rest)
  rw [length_append, length_map, length_map] at hlen
  have hpos : 0 < (nextChar rest).2.2.length := by
    match rest, h with
    | (c, a) :: rest, _ =>
      unfold nextChar
      split
      · exact Nat.succ_pos _
      · exact Nat.one_pos
  omega

theorem nextChar_of_pending_nil :
    ∀ {rest : List Cell}, pending rest = [] → (nextChar rest).2.1 = []
  | [], _ => rfl
  | [(c, a)], _ => by
    unfold nextChar
    split
    · rfl
    · rfl
  | (c, a) :: y :: t, hp => by
    rw [pending_cons_cons, append_eq_nil_iff] at hp
    have hc : lookup c = 0 := by
      by_contra hc
      simp [sextet, hc] at hp
    unfold nextChar
    rw [if_pos hc]
    exact nextChar_of_pending_nil hp.2

theorem nextChar_of_pending_cons {v : UInt8} {vs : List UInt8} :
    ∀ {rest : List Cell}, pending rest = v :: vs →
      (nextChar rest).1 ≠ 0 ∧ (nextChar rest).1 - 1 = v ∧
        (nextChar rest).2.1 ≠ [] ∧ pending (nextChar rest).2.1 = vs
  | [], hp => nomatch hp
  | [_], hp => nomatch hp
  | (c, a) :: y :: t, hp => by
    rw [pending_cons_cons] at hp
    unfold nextChar
    split
    next hc =>
      refine nextChar_of_pending_cons ?_
      simpa [sextet, hc] using hp
    next hc =>
      have hv : lookup c - 1 = v ∧ pending (y :: t) = vs := by simpa [sextet, hc] using hp
      exact ⟨hc, hv.1, cons_ne_nil _ _, hv.2⟩

/-! ## One slot of a group -/

variable {s : DecodeState}

theorem readSlot_of_rest_nil (h : s.rest = []) (i : Nat) : readSlot s i = s := if_pos h

theorem readSlot_of_pending_nil (hne : s.rest ≠ []) (hp : pending s.rest = []) (i : Nat) :
    ∃ rd, readSlot s i =
      { s with rest := [], reads := s.reads ++ rd, group := s.group.set i 0 } := by
  refine ⟨(nextChar s.rest).2.2, ?_⟩
  simp [readSlot, hne, nextChar_of_pending_nil hp]

theorem readSlot_of_pending_cons {v : UInt8} {vs : List UInt8} (hp : pending s.rest = v :: vs)
    (i : Nat) :
    ∃ rest rd, rest ≠ [] ∧ pending rest = vs ∧ readSlot s i =
      { s with rest := rest, reads := s.reads ++ rd, len := s.len + 1,
               group := s.group.set i v } := by
  have hne : s.rest ≠ [] := by
    intro h
    rw [h] at hp
    exact nomatch hp
  obtain ⟨h0, hv, hrest, hvs⟩ := nextChar_of_pending_cons hp
  refine ⟨(nextChar s.rest).2.1, (nextChar s.rest).2.2, hrest, hvs, ?_⟩
  simp [readSlot, hne, hrest, h0, hv]

theorem readSlot_reads (s : DecodeState) (i : Nat) :
    (readSlot s i).reads ++ (readSlot s i).rest.map snd =
      s.reads ++ s.rest.map snd := by
  unfold readSlot
  split
  · rfl
  · have hr := nextChar_reads s.rest
    by_cases hn : (nextChar s.rest).2.1 = []
    · rw [hn, map_nil, append_nil] at hr
      simp [hn, hr]
    · simp [hn, append_assoc, hr]

theorem readSlot_rest_length_le (s : DecodeState) (i : Nat) :
    (readSlot s i).rest.length ≤ s.rest.length := by
  unfold readSlot
  split
  · rfl
  next h =>
    have hlt := nextChar_length_lt h
    by_cases hn : (nextChar s.rest).2.1 = []
    · simp [hn]
    · simpa [hn] using hlt.le

theorem readSlot_rest_length_lt (h : s.rest ≠ []) (i : Nat) :
    (readSlot s i).rest.length < s.rest.length := by
  unfold readSlot
  rw [if_neg h]
  by_cases hn : (nextChar s.rest).2.1 = []
  · simpa [hn] using length_pos_iff.mpr h
  · simpa [hn] using nextChar_length_lt h

theorem foldl_readSlot_of_rest_nil (h : s.rest = []) :
    ∀ is : List Nat, is.foldl readSlot s = s
  | [] => rfl
  | i :: is => by rw [foldl_cons, readSlot_of_rest_nil h, foldl_readSlot_of_rest_nil h is]

/-! ## One group -/

/-- Values stored in the slots of a group; the slot at which the source ran
out gets 0. -/
def storeSlots (group : List UInt8) (is : List Nat) (vs : List UInt8) : List UInt8 :=
  (is.zip (vs ++ [0])).foldl (fun g p => g.set p.1 p.2) group

/-- **A run of slots** takes the next values, one each, for as long as there
are any. -/
theorem foldl_readSlot_spec :
    ∀ (is : List Nat) (s : DecodeState), s.rest ≠ [] →
      (is.foldl readSlot s).dst = s.dst ∧
      pending (is.foldl readSlot s).rest = (pending s.rest).drop is.length ∧
      (is.foldl readSlot s).len = s.len + min is.length (pending s.rest).length ∧
      (is.foldl readSlot s).group = storeSlots s.group is (pending s.rest)
  | [], s, _ => by simp [storeSlots]
  | i :: is, s, hne => by
    rw [foldl_cons]
    match hp : pending s.rest with
    | [] =>
      obtain ⟨rd, h⟩ := readSlot_of_pending_nil hne hp i
      rw [foldl_readSlot_of_rest_nil (by rw [h]) is, h]
      simp [pending, sextets, storeSlots]
    | v :: vs =>
      obtain ⟨rest, rd, hrest, hvs, h⟩ := readSlot_of_pending_cons hp i
      have hn : (readSlot s i).rest ≠ [] := by
        rw [h]
        exact hrest
      obtain ⟨h1, h2, h3, h4⟩ := foldl_readSlot_spec is (readSlot s i) hn
      have hvs' : pending (readSlot s i).rest = vs := by
        rw [h]
        exact hvs
      rw [hvs'] at h2 h3 h4
      refine ⟨h1.trans (by rw [h]), by simpa using h2, ?_, ?_⟩
      · rw [h3, h]
        simp only [length_cons]
        omega
      · rw [h4, h]
        simp [storeSlots]

theorem readGroup_reads (s : DecodeState) :
    (readGroup s).reads ++ (readGroup s).rest.map snd =
      s.reads ++ s.rest.map snd := by
  have hfold : ∀ (is : List Nat) (s : DecodeState),
      (is.foldl readSlot s).reads ++ (is.foldl readSlot s).rest.map snd =
        s.reads ++ s.rest.map snd := by
    intro is
    induction is with
    | nil => intro s; rfl
    | cons i is ih =>
      intro s
      rw [foldl_cons, ih, readSlot_reads]
  exact hfold _ _

theorem readGroup_rest_length_lt (h : s.rest ≠ []) : (readGroup s).rest.length < s.rest.length :=
  (readSlot_rest_length_le _ 3).trans_lt ((readSlot_rest_length_le _ 2).trans_lt
    ((readSlot_rest_length_le _ 1).trans_lt
      (readSlot_rest_length_lt (s := { s with len := 0 }) h 0)))

theorem storeSlots_length (group : List UInt8) (is : List Nat) (vs : List UInt8) :
    (storeSlots group is vs).length = group.length := by
  unfold storeSlots
  induction is.zip (vs ++ [0]) generalizing group with
  | nil => rfl
  | cons p ps ih => rw [foldl_cons, ih, length_set]

theorem readGroup_group_length (h : s.group.length = 4) (hne : s.rest ≠ []) :
    (readGroup s).group.length = 4 := by
  obtain ⟨-, -, -, hg⟩ := foldl_readSlot_spec [0, 1, 2, 3] { s with len := 0 } hne
  unfold readGroup
  rw [hg, storeSlots_length]
  exact h

/-- **One round of the outer loop** decodes the next four values, or the
incomplete last group. -/
theorem decodeStep_dst (hg : s.group.length = 4) (hne : s.rest ≠ []) :
    (decodeStep s).dst ++ decodeSextets (pending (decodeStep s).rest) =
      s.dst ++ decodeSextets (pending s.rest) := by
  obtain ⟨g0, g1, g2, g3, hg'⟩ : ∃ g0 g1 g2 g3, s.group = [g0, g1, g2, g3] := by
    match hgr : s.group, hg with
    | [g0, g1, g2, g3], _ => exact ⟨g0, g1, g2, g3, rfl⟩
  obtain ⟨h1, h2, h3, h4⟩ := foldl_readSlot_spec [0, 1, 2, 3] { s with len := 0 } hne
  change (readGroup s).dst = s.dst at h1
  change pending (readGroup s).rest = _ at h2
  change (readGroup s).len = _ at h3
  change (readGroup s).group = storeSlots s.group _ _ at h4
  unfold decodeStep writeGroup
  simp only [h1, h2, h3, h4, hg']
  match pending s.rest with
  | [] => simp [decodeSextets]
  | [a] => simp [decodeSextets]
  | [a, b] => simp [decodeSextets, storeSlots, b64DecodeBlock]
  | [a, b, c] => simp [decodeSextets, storeSlots, b64DecodeBlock]
  | a :: b :: c :: d :: vs => simp [decodeSextets, storeSlots, b64DecodeBlock]

/-! ## The whole loop -/

/-- As many rounds as there are cells end the outer loop, and together they
decode everything that was ahead. -/
theorem decodeLoop_spec :
    ∀ (n : Nat) (s : DecodeState), s.rest.length ≤ n → s.group.length = 4 →
      (decodeLoop n s).rest = [] ∧
        (decodeLoop n s).dst = s.dst ++ decodeSextets (pending s.rest) ∧
        (decodeLoop n s).reads = s.reads ++ s.rest.map snd
  | 0, s, hn, _ => by
    have hs : s.rest = [] := length_eq_zero_iff.mp (Nat.le_zero.mp hn)
    simp [decodeLoop, hs, pending, sextets, decodeSextets]
  | n + 1, s, hn, hg => by
    unfold decodeLoop
    split
    next hs =>
      simp [hs, pending, sextets, decodeSextets]
    next hs =>
      have hlt : (decodeStep s).rest.length < s.rest.length := readGroup_rest_length_lt hs
      obtain ⟨h1, h2, h3⟩ :=
        decodeLoop_spec n (decodeStep s) (by omega) (readGroup_group_length hg hs)
      exact ⟨h1, h2.trans (decodeStep_dst hg hs), h3.trans (readGroup_reads s)⟩

theorem pending_cells (src : List UInt8) (past : UInt8) :
    pending (cells src past) = sextets src := by
  unfold pending cells
  rw [zipIdx_append, zipIdx_singleton, dropLast_concat, zipIdx_map_fst]

theorem cells_addresses (src : List UInt8) (past : UInt8) :
    (cells src past).map snd = List.range (src.length + 1) := by
  unfold cells
  rw [zipIdx_map_snd, range_eq_range', length_append]
  rfl

variable {alloc : Alloc} {src : List UInt8} {past : UInt8} {d : Decoded}

/-- **The decoder's specification**: a call that returns has decoded the values
of the source, and has read every address from 0 to `srclen`. -/
theorem b64Decode_ok (h : b64Decode alloc src past = .ok d) :
    d = ⟨decodeSextets (sextets src), src.length / 4 * 3, List.range (src.length + 1)⟩ := by
  unfold b64Decode at h
  by_cases ha : alloc (src.length / 4 * 3) = true
  · simp only [ha, if_true, Except.ok.injEq] at h
    obtain ⟨-, h2, h3⟩ := decodeLoop_spec (src.length + 1) { rest := cells src past }
      (by simp [cells]) rfl
    rw [← h, h2, h3, pending_cells, cells_addresses]
    rfl
  · simp [ha] at h

theorem b64Decode_returns_iff (alloc : Alloc) (src : List UInt8) (past : UInt8) :
    (∃ d, b64Decode alloc src past = .ok d) ↔ alloc (src.length / 4 * 3) = true := by
  unfold b64Decode
  by_cases ha : alloc (src.length / 4 * 3) = true <;> simp [ha]

/-! ## Memory safety -/

/-- The addresses read lie in `src[0..srclen)`. -/
def Decoded.ReadsInside (d : Decoded) (srclen : Nat) : Prop := ∀ a ∈ d.reads, a < srclen

/-- The bytes written lie in the block allocated for them. The write index
only moves forward, so this is also `size ≤ capacity`. -/
def Decoded.WritesInside (d : Decoded) : Prop := ∀ i < d.size, i < d.capacity

/-- What it means for a call to stay inside its memory: it throws before it
touches anything, or its reads and its writes are inside and it reports no
more than it allocated. -/
def MemorySafe (srclen : Nat) : Except String Decoded → Prop
  | .error _ => True
  | .ok d => d.ReadsInside srclen ∧ d.WritesInside ∧ d.size ≤ d.capacity

/-- The source ends in an unpadded group of two or three characters and has
nothing else in it that would pay for the extra bytes. -/
def Overhang (src : List UInt8) : Prop :=
  2 ≤ (sextets src).length % 4 ∧ (sextets src).length / 4 = src.length / 4

instance (src : List UInt8) : Decidable (Overhang src) := inferInstanceAs (Decidable (_ ∧ _))

theorem writesInside_iff
    (h : b64Decode alloc src past = .ok d) : d.WritesInside ↔ ¬ Overhang src := by
  have hle : d.WritesInside ↔ d.size ≤ d.capacity := by
    constructor
    · intro hw
      by_contra hc
      exact absurd (hw d.capacity (by omega)) (by omega)
    · intro hs i hi
      omega
  rw [hle, b64Decode_ok h]
  simp only [Decoded.size, decodeSextets_length, Overhang]
  have := sextets_length_le src
  omega

/-- **`b64_decode` never stays inside the source**: it is memory safe exactly
when it throws for want of memory, because the loops run to
`srcpos <= srclen`. When it returns, its writes are inside the block exactly
when the source has no overhang. -/
theorem b64Decode_memorySafe_iff (alloc : Alloc) (src : List UInt8) (past : UInt8) :
    (MemorySafe src.length (b64Decode alloc src past) ↔
        alloc (src.length / 4 * 3) = false) ∧
      ∀ d, b64Decode alloc src past = .ok d → (d.WritesInside ↔ ¬ Overhang src) := by
  refine ⟨⟨fun hs => ?_, fun ha => ?_⟩, fun d hd => writesInside_iff hd⟩
  · rw [← Bool.not_eq_true, ← b64Decode_returns_iff alloc src past]
    rintro ⟨d, hd⟩
    rw [hd] at hs
    have hmem : src.length ∈ d.reads := by
      rw [b64Decode_ok hd]
      exact mem_range.mpr (Nat.lt_succ_self _)
    exact Nat.lt_irrefl _ (hs.1 _ hmem)
  · unfold b64Decode
    simp [ha, MemorySafe]

/-- Two groups of four characters: the block is large enough, the source is
read one byte too far. -/
theorem b64Decode_padded_writesInside :
    ¬ MemorySafe 8 (b64Decode (fun _ => true) (chars "QUJDRA==") 0) ∧
      ∀ d, b64Decode (fun _ => true) (chars "QUJDRA==") 0 = .ok d → d.WritesInside := by
  obtain ⟨h, hw⟩ := b64Decode_memorySafe_iff (fun _ => true) (chars "QUJDRA==") 0
  exact ⟨fun hs => Bool.noConfusion (h.mp hs), fun d hd => (hw d hd).mpr (by decide)⟩

/-- Six characters without padding: seven addresses are read and four bytes
written to a block of three. -/
theorem b64Decode_unpadded_overflows :
    ¬ MemorySafe 6 (b64Decode (fun _ => true) (chars "QUJDRA") 0) := by
  intro h
  have hd : b64Decode (fun _ => true) (chars "QUJDRA") 0 =
      .ok ⟨[65, 66, 67, 68], 3, [0, 1, 2, 3, 4, 5, 6]⟩ := by rfl
  exact absurd h.2.2 (by decide)

end Lhatove.B64
