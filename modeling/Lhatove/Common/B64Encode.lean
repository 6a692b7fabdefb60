import Lhatove.Common.B64Decode

/-!
# What `b64_encode` writes, and when it can be decoded

The encoder computes its length in one place (`paddedlen + paddedlen / linelen`)
and places its line breaks in another (after every `linelen / 4` blocks, and at
the end). The model separates the two:

- `blocks` is the encoding without any line break, `layout` the text the loop
  would write if it had all the room it wants;
- `encodeLoop_eq`: what it does write is `layout` cut off at `dstlen`;
- `layout_length`: how many line breaks `layout` has;
- `b64Encode_roundTrips_iff`: the text decodes back, complete and initialised,
  exactly when the two calculations agree up to the line break at the very end.
-/

namespace Lhatove.B64

open List

/-! ## The text without a length limit -/

/-- The encoded blocks of a byte string. -/
def blocks : List UInt8 → List (List UInt8)
  | [] => []
  | [a] => [b64EncodeBlock a 0 0 1]
  | [a, b] => [b64EncodeBlock a b 0 2]
  | a :: b :: c :: src => b64EncodeBlock a b c 3 :: blocks src

/-- Blocks with a line break after every `perLine` of them and after the last
one; `blocksout` of them are on the current line already. -/
def layout (perLine : Nat) : (bs : List (List UInt8)) → (blocksout : Nat) → List UInt8
  | [], _ => []
  | b :: bs, blocksout =>
    b ++ if blocksout + 1 ≥ perLine ∨ bs = [] then newline :: layout perLine bs 0
         else layout perLine bs (blocksout + 1)

theorem blocks_eq_nil_iff (src : List UInt8) : blocks src = [] ↔ src = [] := by
  unfold blocks
  split <;> simp

theorem blocks_length :
    ∀ src : List UInt8, (blocks src).length = (src.length + 2) / 3
  | [] | [_] | [_, _] => by simp [blocks]
  | a :: b :: c :: src => by
    rw [blocks, length_cons, blocks_length src]
    simp only [length_cons]
    omega

theorem length_of_mem_blocks :
    ∀ {src b : List UInt8}, b ∈ blocks src → b.length = 4
  | [], _, h => by simp [blocks] at h
  | [_], _, h => by
    rw [mem_singleton.mp h]
    rfl
  | [_, _], _, h => by
    rw [mem_singleton.mp h]
    rfl
  | _ :: _ :: _ :: src, _, h => by
    rcases mem_cons.mp h with rfl | h
    · rfl
    · exact length_of_mem_blocks h

/-! ## The loop writes the layout, cut off -/

theorem writeBlock_take (n : Nat) (out text : List UInt8) :
    writeBlock n out (text.take n) = (text ++ out).take n := by
  unfold writeBlock
  rw [take_append, length_take]
  by_cases h : text.length ≤ n
  · rw [Nat.min_eq_right h]
  · rw [Nat.min_eq_left (by omega), Nat.sub_self, Nat.sub_eq_zero_of_le (by omega)]

theorem breakLine_take (linelen n blocksout : Nat) (last : Bool) (text : List UInt8) :
    breakLine linelen n (blocksout + 1) last (text.take n) =
      if blocksout + 1 ≥ linelen / 4 ∨ last then (0, (text ++ [newline]).take n)
      else (blocksout + 1, text.take n) := by
  unfold breakLine
  have hnl : (if blocksout + 1 > 0 ∧ (text.take n).length < n then text.take n ++ [newline]
      else text.take n) = (text ++ [newline]).take n := by
    rw [take_append, length_take]
    by_cases h : text.length < n
    · rw [if_pos ⟨Nat.succ_pos _, by omega⟩, take_of_length_le (l := [newline])]
      simp only [length_singleton]
      omega
    · rw [if_neg (by omega), Nat.sub_eq_zero_of_le (by omega), take_zero, append_nil]
  rw [hnl]

/-- **The loop invariant of `b64_encode`**: the block holds the text so far,
cut off at `dstlen`. -/
theorem encodeLoop_eq (linelen n : Nat) :
    ∀ (src : List UInt8) (blocksout : Nat) (text : List UInt8),
      encodeLoop linelen n src blocksout (text.take n) =
        (text ++ layout (linelen / 4) (blocks src) blocksout).take n
  | [], _, _ => by simp [encodeLoop, blocks, layout]
  | [_], _, _ => by
    rw [encodeLoop, writeBlock_take, breakLine_take]
    simp [blocks, layout]
  | [_, _], _, _ => by
    rw [encodeLoop, writeBlock_take, breakLine_take]
    simp [blocks, layout]
  | a :: b :: c :: src, blocksout, text => by
    rw [encodeLoop, writeBlock_take, breakLine_take, blocks, layout]
    have hlast : (src.isEmpty = true) ↔ blocks src = [] := by
      rw [blocks_eq_nil_iff, List.isEmpty_iff]
    simp only [hlast]
    by_cases h : blocksout + 1 ≥ linelen / 4 ∨ blocks src = []
    · simp only [if_pos h]
      rw [encodeLoop_eq linelen n src 0]
      simp
    · simp only [if_neg h]
      rw [encodeLoop_eq linelen n src (blocksout + 1)]
      simp

/-! ## How long the layout is -/

/-- **Counting line breaks**: `m > 0` blocks, the first of them at position
`blocksout` of its line, end `(blocksout + m - 1) / perLine + 1` lines. -/
theorem layout_length (perLine : Nat) :
    ∀ (bs : List (List UInt8)) (blocksout : Nat), bs ≠ [] → (∀ b ∈ bs, b.length = 4) →
      blocksout < max 1 perLine →
      (layout perLine bs blocksout).length =
        4 * bs.length + ((blocksout + bs.length - 1) / max 1 perLine + 1)
  | [], _, h, _, _ => absurd rfl h
  | [b], blocksout, _, hb, hn => by
    simp [layout, hb b mem_cons_self, Nat.div_eq_of_lt hn]
  | b :: b' :: bs, blocksout, _, hb, hn => by
    have hb' : ∀ x ∈ b' :: bs, x.length = 4 := fun x hx => hb x (mem_cons_of_mem _ hx)
    rw [layout, length_append, hb b mem_cons_self]
    by_cases h : blocksout + 1 ≥ perLine
    · rw [if_pos (.inl h), length_cons,
        layout_length perLine (b' :: bs) 0 (cons_ne_nil _ _) hb' (by omega)]
      have hdiv : (blocksout + (b :: b' :: bs).length - 1) / max 1 perLine =
          (0 + (b' :: bs).length - 1) / max 1 perLine + 1 := by
        rw [← Nat.add_div_right _ (by omega)]
        congr 1
        simp only [length_cons]
        omega
      rw [hdiv]
      simp only [length_cons]
      omega
    · have hne : ¬ (blocksout + 1 ≥ perLine ∨ b' :: bs = []) := by simp [h]
      rw [if_neg hne, layout_length perLine (b' :: bs) (blocksout + 1)
        (cons_ne_nil _ _) hb' (by omega)]
      simp only [length_cons]
      have harg : blocksout + 1 + (bs.length + 1) - 1 = blocksout + (bs.length + 1 + 1) - 1 := by
        omega
      rw [harg]
      omega

/-! ## What the characters decode to -/

theorem sextet_cb64At {i : UInt8} (h : i &&& 0x3f = i) : sextet (cb64At i) = some i := by
  have htab : ∀ n < 64, sextet (cb64.getD n 0) = some (.ofNat n) := by
    decide +kernel
  have hlt : i.toNat < 64 := by
    rw [← h, UInt8.toNat_and]
    exact Nat.and_lt_two_pow _ (n := 6) (by decide)
  unfold cb64At
  rw [htab i.toNat hlt, UInt8.ofNat_toNat]

theorem sextet_pad : sextet pad = none := by decide

theorem cb64At_ne_newline (i : UInt8) : cb64At i ≠ newline := by
  have htab : ∀ n < 64, cb64.getD n 0 ≠ newline := by decide +kernel
  unfold cb64At
  by_cases h : i.toNat < 64
  · exact htab _ h
  · have hlen : cb64.length = 64 := by decide
    rw [getD_eq_getElem?_getD, getElem?_eq_none (by omega)]
    decide

theorem newline_not_mem_b64EncodeBlock (a b c : UInt8) (len : Nat) :
    newline ∉ b64EncodeBlock a b c len := by
  have hpad : newline ≠ pad := by decide
  simp only [b64EncodeBlock, mem_cons, not_mem_nil, or_false, not_or]
  refine ⟨(cb64At_ne_newline _).symm, (cb64At_ne_newline _).symm, ?_, ?_⟩
  all_goals
    split
    · exact (cb64At_ne_newline _).symm
    · exact hpad

theorem newline_not_mem_of_mem_blocks :
    ∀ {src b : List UInt8}, b ∈ blocks src → newline ∉ b
  | [], _, h => by simp [blocks] at h
  | [_], _, h => mem_singleton.mp h ▸ newline_not_mem_b64EncodeBlock _ _ _ _
  | [_, _], _, h => mem_singleton.mp h ▸ newline_not_mem_b64EncodeBlock _ _ _ _
  | _ :: _ :: _ :: src, _, h => by
    rcases mem_cons.mp h with rfl | h
    · exact newline_not_mem_b64EncodeBlock _ _ _ _
    · exact newline_not_mem_of_mem_blocks h

theorem layout_filter (perLine : Nat) :
    ∀ (bs : List (List UInt8)) (blocksout : Nat), (∀ b ∈ bs, newline ∉ b) →
      (layout perLine bs blocksout).filter (· ≠ newline) = bs.flatten
  | [], _, _ => rfl
  | b :: bs, blocksout, h => by
    have hb : b.filter (· ≠ newline) = b := by
      rw [filter_eq_self]
      intro c hc
      simpa using fun he : c = newline => h b mem_cons_self (he ▸ hc)
    have ih := fun n => layout_filter perLine bs n fun x hx => h x (mem_cons_of_mem _ hx)
    rw [layout, filter_append, hb, flatten_cons]
    split
    · rw [filter_cons_of_neg (by simp), ih]
    · rw [ih]

theorem sextets_filter_newline (text : List UInt8) :
    sextets (text.filter (· ≠ newline)) = sextets text := by
  unfold sextets
  rw [filterMap_filter]
  refine filterMap_congr fun c _ => ?_
  by_cases h : c = newline
  · subst h
    decide
  · simp [h]

section Bits

variable (a b c : UInt8)

private theorem sextetBits0 : ((a &&& 0xfc) >>> 2) &&& (0x3f : UInt8) = (a &&& 0xfc) >>> 2 := by
  apply UInt8.toBitVec_inj.mp
  ext i hi
  interval_cases i <;> simp

private theorem sextetBits1 : (((a &&& 0x03) <<< 4) ||| ((b &&& 0xf0) >>> 4)) &&& (0x3f : UInt8) =
    ((a &&& 0x03) <<< 4) ||| ((b &&& 0xf0) >>> 4) := by
  apply UInt8.toBitVec_inj.mp
  ext i hi
  interval_cases i <;> simp

private theorem sextetBits2 : (((b &&& 0x0f) <<< 2) ||| ((c &&& 0xc0) >>> 6)) &&& (0x3f : UInt8) =
    ((b &&& 0x0f) <<< 2) ||| ((c &&& 0xc0) >>> 6) := by
  apply UInt8.toBitVec_inj.mp
  ext i hi
  interval_cases i <;> simp

private theorem sextetBits3 : (c &&& 0x3f) &&& 0x3f = c &&& 0x3f := by
  apply UInt8.toBitVec_inj.mp
  ext i hi
  interval_cases i <;> simp

private theorem byteBits0 : ((a &&& 0xfc) >>> 2) <<< 2 |||
    (((a &&& 0x03) <<< 4) ||| ((b &&& 0xf0) >>> 4)) >>> 4 = a := by
  apply UInt8.toBitVec_inj.mp
  ext i hi
  interval_cases i <;> simp

private theorem byteBits1 : (((a &&& 0x03) <<< 4) ||| ((b &&& 0xf0) >>> 4)) <<< 4 |||
    (((b &&& 0x0f) <<< 2) ||| ((c &&& 0xc0) >>> 6)) >>> 2 = b := by
  apply UInt8.toBitVec_inj.mp
  ext i hi
  interval_cases i <;> simp

private theorem byteBits2 : (((((b &&& 0x0f) <<< 2) ||| ((c &&& 0xc0) >>> 6)) <<< 6) &&& 0xc0) |||
    (c &&& 0x3f) = c := by
  apply UInt8.toBitVec_inj.mp
  ext i hi
  interval_cases i <;> simp

theorem sextets_b64EncodeBlock (len : Nat) :
    sextets (b64EncodeBlock a b c len) =
      [(a &&& 0xfc) >>> 2, ((a &&& 0x03) <<< 4) ||| ((b &&& 0xf0) >>> 4)] ++
        ((if len > 1 then [((b &&& 0x0f) <<< 2) ||| ((c &&& 0xc0) >>> 6)] else []) ++
          (if len > 2 then [c &&& 0x3f] else [])) := by
  have h0 := sextet_cb64At (sextetBits0 a)
  have h1 := sextet_cb64At (sextetBits1 a b)
  have h2 := sextet_cb64At (sextetBits2 b c)
  have h3 := sextet_cb64At (sextetBits3 c)
  unfold b64EncodeBlock sextets
  rw [filterMap_cons_some h0, filterMap_cons_some h1]
  congr 2
  by_cases hl1 : len > 1
  · rw [if_pos hl1, if_pos hl1, filterMap_cons_some h2]
    by_cases hl2 : len > 2
    · rw [if_pos hl2, if_pos hl2, filterMap_cons_some h3]
      rfl
    · rw [if_neg hl2, if_neg hl2, filterMap_cons_none sextet_pad]
      rfl
  · rw [if_neg hl1, if_neg hl1, if_neg (by omega), if_neg (by omega),
      filterMap_cons_none sextet_pad, filterMap_cons_none sextet_pad]
    rfl

theorem decodeSextets_block3 (r : List UInt8) :
    decodeSextets (sextets (b64EncodeBlock a b c 3) ++ r) = a :: b :: c :: decodeSextets r := by
  rw [sextets_b64EncodeBlock]
  change b64DecodeBlock _ ++ decodeSextets r = [a, b, c] ++ decodeSextets r
  congr 1
  exact congrArg₂ cons (byteBits0 a b)
    (congrArg₂ cons (byteBits1 a b c) (congrArg (fun x => [x]) (byteBits2 b c)))

theorem decodeSextets_block2 : decodeSextets (sextets (b64EncodeBlock a b 0 2)) = [a, b] := by
  rw [sextets_b64EncodeBlock]
  exact congrArg₂ cons (byteBits0 a b) (congrArg (fun x => [x]) (byteBits1 a b 0))

theorem decodeSextets_block1 : decodeSextets (sextets (b64EncodeBlock a 0 0 1)) = [a] := by
  rw [sextets_b64EncodeBlock]
  exact congrArg (fun x => [x]) (byteBits0 a 0)

end Bits

/-- **The blocks decode back.** -/
theorem decodeSextets_blocks :
    ∀ src : List UInt8, decodeSextets (sextets (blocks src).flatten) = src
  | [] => by simp [blocks, sextets, decodeSextets]
  | [a] => by simpa [blocks] using decodeSextets_block1 a
  | [a, b] => by simpa [blocks] using decodeSextets_block2 a b
  | a :: b :: c :: src => by
    rw [blocks, flatten_cons, sextets, filterMap_append]
    change decodeSextets (sextets _ ++ sextets _) = _
    rw [decodeSextets_block3, decodeSextets_blocks src]

/-! ## The reported length -/

theorem paddedlen_eq {srclen : Nat} (h : srclen < 2 ^ 63) :
    paddedlen srclen = 4 * ((srclen + 2) / 3) := by
  unfold paddedlen
  dsimp only
  by_cases h3 : srclen % 3 ≠ 0
  · rw [if_pos h3, sizeT_of_lt (n := srclen + _) (by omega), sizeT_of_lt (by omega)]
    omega
  · rw [if_neg h3, sizeT_of_lt (n := srclen + _) (by omega), sizeT_of_lt (by omega)]
    omega

theorem dstlenOf_eq {srclen : Nat} (h : srclen < 2 ^ 63) (linelen : Nat) :
    dstlenOf srclen linelen =
      sizeT (4 * ((srclen + 2) / 3) + 4 * ((srclen + 2) / 3) / linelen) := by
  rw [dstlenOf, paddedlen_eq h]

theorem effectiveLinelen_pos (linelen : Nat) : 0 < effectiveLinelen linelen := by
  unfold effectiveLinelen
  split <;> omega

variable {src : List UInt8} {e : Encoded}

/-- **What the encoder returns**, whichever way it returns: the layout cut off
at the reported length. -/
theorem b64Encode_ok {alloc : Alloc} {linelen : Nat} (h : b64Encode alloc src linelen = .ok e) :
    e.dstlen = dstlenOf src.length (effectiveLinelen linelen) ∧
      e.dst = (layout (effectiveLinelen linelen / 4) (blocks src) 0).take e.dstlen := by
  unfold b64Encode at h
  simp only at h
  split at h
  · next h0 =>
    cases h
    exact ⟨h0.symm, by simp⟩
  · split at h
    · cases h
      refine ⟨rfl, ?_⟩
      have := encodeLoop_eq (effectiveLinelen linelen)
        (dstlenOf src.length (effectiveLinelen linelen)) src 0 []
      simpa using this
    · cases h

/-! ## The round trip -/

theorem layout_concat (perLine : Nat) :
    ∀ (bs : List (List UInt8)) (blocksout : Nat), bs ≠ [] →
      (∀ b ∈ bs, b.length = 4 ∧ newline ∉ b) →
      ∃ front c, layout perLine bs blocksout = front ++ [c, newline] ∧ c ≠ newline
  | [], _, h, _ => absurd rfl h
  | [b], blocksout, _, hb => by
    obtain ⟨hlen, hnl⟩ := hb b mem_cons_self
    match b, hlen with
    | [b0, b1, b2, b3], _ =>
      refine ⟨[b0, b1, b2], b3, by simp [layout], fun he => hnl (he ▸ by simp)⟩
  | b :: b' :: bs, blocksout, _, hb => by
    have ih := fun n => layout_concat perLine (b' :: bs) n (cons_ne_nil _ _)
      fun x hx => hb x (mem_cons_of_mem _ hx)
    rw [layout]
    split
    · obtain ⟨front, c, h, hc⟩ := ih 0
      exact ⟨b ++ newline :: front, c, by rw [h]; simp, hc⟩
    · obtain ⟨front, c, h, hc⟩ := ih (blocksout + 1)
      exact ⟨b ++ front, c, by rw [h]; simp, hc⟩

/-- The round trip of one call: the reported length is the number of
characters written, none of the encoding is cut off or left uninitialised, and
decoding the reported bytes gives the source back. -/
def RoundTrips (src : List UInt8) (e : Encoded) : Prop :=
  e.dst.length = e.dstlen ∧
    e.dst.filter (· ≠ newline) = (blocks src).flatten ∧
    ∃ text, e.reported = text.map some ∧
      ∀ alloc past d, b64Decode alloc text past = .ok d → d.dst = src

/-- The room `dstlen` has for line breaks, `4 * B / linelen` for `B` blocks, is
the number of them that `b64_encode` writes, or lacks only the one at the very
end. -/
def RoomForBreaks (srclen linelen : Nat) : Prop :=
  let linelen := effectiveLinelen linelen
  let B := (srclen + 2) / 3
  B = 0 ∨ ((B - 1) / max 1 (linelen / 4) ≤ 4 * B / linelen ∧
    4 * B / linelen ≤ (B - 1) / max 1 (linelen / 4) + 1)

instance (srclen linelen : Nat) : Decidable (RoomForBreaks srclen linelen) :=
  inferInstanceAs (Decidable (_ ∨ _))

/-- The two calculations agree, in terms of the two lengths. `size_t` only
wraps for line lengths 1 and 2, where they disagree anyway. -/
theorem dstlen_fits_iff {B L : Nat} (hB : 0 < B) (hmax : B ≤ (2 ^ 63 + 1) / 3) (hL : 0 < L) :
    (4 * B + (B - 1) / max 1 (L / 4) ≤ sizeT (4 * B + 4 * B / L) ∧
      sizeT (4 * B + 4 * B / L) ≤ 4 * B + ((B - 1) / max 1 (L / 4) + 1)) ↔
    ((B - 1) / max 1 (L / 4) ≤ 4 * B / L ∧ 4 * B / L ≤ (B - 1) / max 1 (L / 4) + 1) := by
  by_cases h4 : 4 ≤ L
  · have hq : 4 * B / L ≤ 4 * B / 4 := Nat.div_le_div_left h4 (by decide)
    rw [sizeT_of_lt (by omega)]
    omega
  · have hk : max 1 (L / 4) = 1 := by omega
    have hL' : L = 1 ∨ L = 2 ∨ L = 3 := by omega
    rw [hk, Nat.div_one]
    unfold sizeT
    rcases hL' with rfl | rfl | rfl
    · rw [Nat.div_one]
      obtain hm | hm : (4 * B + 4 * B) % 2 ^ 64 = 4 * B + 4 * B ∨
          (4 * B + 4 * B) % 2 ^ 64 = 4 * B + 4 * B - 2 ^ 64 := by omega
      all_goals rw [hm]; omega
    · rw [show 4 * B / 2 = 2 * B by omega]
      obtain hm | hm : (4 * B + 2 * B) % 2 ^ 64 = 4 * B + 2 * B ∨
          (4 * B + 2 * B) % 2 ^ 64 = 4 * B + 2 * B - 2 ^ 64 := by omega
      all_goals rw [hm]; omega
    · rw [Nat.mod_eq_of_lt (by omega)]
      omega

theorem reported_of_length (h : e.dst.length = e.dstlen) : e.reported = e.dst.map some := by
  rw [Encoded.reported, ← h, map_append, append_assoc]
  exact take_left' (length_map _)

/-- Cutting the layout off keeps every character of the encoding exactly when
at most the last line break is lost. -/
theorem take_layout_filter_iff (hsrc : src ≠ []) (perLine n : Nat) :
    ((layout perLine (blocks src) 0).take n).filter (· ≠ newline) = (blocks src).flatten ↔
      (layout perLine (blocks src) 0).length ≤ n + 1 := by
  have hbs : blocks src ≠ [] := fun h => hsrc ((blocks_eq_nil_iff src).mp h)
  have hfull := layout_filter perLine (blocks src) 0 fun b hb => newline_not_mem_of_mem_blocks hb
  obtain ⟨front, c, hlay, hc⟩ := layout_concat perLine (blocks src) 0 hbs
    fun b hb => ⟨length_of_mem_blocks hb, newline_not_mem_of_mem_blocks hb⟩
  rw [← hfull, hlay]
  have hend : (front ++ [c, newline]).filter (· ≠ newline) = front.filter (· ≠ newline) ++ [c] := by
    rw [filter_append, filter_cons_of_pos (by simpa using hc),
      filter_cons_of_neg (by simp)]
    rfl
  rw [hend]
  constructor
  · intro h
    by_contra hn
    have htake : (front ++ [c, newline]).take n = front.take n := by
      refine take_append_of_le_length ?_
      simp only [length_append, length_cons, length_nil] at hn
      omega
    rw [htake] at h
    have hsub := ((take_sublist n front).filter (· ≠ newline)).length_le
    rw [h, length_append, length_singleton] at hsub
    omega
  · intro h
    simp only [length_append, length_cons, length_nil] at h
    obtain ⟨m, rfl⟩ := Nat.exists_eq_add_of_le (show front.length + 1 ≤ n by omega)
    rw [show front ++ [c, newline] = (front ++ [c]) ++ [newline] by simp,
      show front.length + 1 = (front ++ [c]).length by simp, take_length_add_append,
      filter_append, filter_append, filter_cons_of_pos (by simpa using hc)]
    cases m <;> simp

theorem sextets_take_layout {perLine n : Nat}
    (h : ((layout perLine (blocks src) 0).take n).filter (· ≠ newline) = (blocks src).flatten) :
    decodeSextets (sextets ((layout perLine (blocks src) 0).take n)) = src := by
  rw [← sextets_filter_newline, h, decodeSextets_blocks]

/-- **The Base64 round trip holds exactly where the reported length has room
for the line breaks.** -/
theorem b64Encode_roundTrips_iff (alloc : Alloc) (src : Block) (linelen : Nat) (e : Encoded)
    (h : b64Encode alloc src.bytes linelen = .ok e) :
    RoundTrips src.bytes e ↔ RoomForBreaks src.bytes.length linelen := by
  obtain ⟨src, hsize⟩ := src
  dsimp only at h ⊢
  obtain ⟨hlen, hdst⟩ := b64Encode_ok h
  rw [dstlenOf_eq hsize] at hlen
  by_cases hsrc : src = []
  · subst hsrc
    have hn : e.dstlen = 0 := by simpa [sizeT] using hlen
    have hd : e.dst = [] := by rw [hdst, hn, take_zero]
    refine ⟨fun _ => .inl (by simp), fun _ => ⟨by rw [hd, hn]; rfl, by rw [hd]; rfl, [], ?_, ?_⟩⟩
    · rw [Encoded.reported, hn, take_zero]
      rfl
    · intro alloc past d hdec
      rw [b64Decode_ok hdec]
      simp [sextets, decodeSextets]
  · have hbs : blocks src ≠ [] := fun hb => hsrc ((blocks_eq_nil_iff src).mp hb)
    have hB : 0 < (src.length + 2) / 3 := by
      have := length_pos_iff.mpr hsrc
      omega
    have hlay := layout_length (effectiveLinelen linelen / 4) (blocks src) 0 hbs
      (fun b hb => length_of_mem_blocks hb) (by omega)
    rw [blocks_length, Nat.zero_add] at hlay
    have hfits := dstlen_fits_iff hB (by omega) (effectiveLinelen_pos linelen)
    have hroom : RoomForBreaks src.length linelen ↔ _ := or_iff_right (by omega)
    rw [hroom, ← hfits]
    constructor
    · rintro ⟨hfull, hkeep, -⟩
      rw [hdst] at hfull hkeep
      have hup := (take_layout_filter_iff hsrc _ _).mp hkeep
      rw [length_take] at hfull
      omega
    · rintro ⟨hlo, hup⟩
      have hfull : e.dst.length = e.dstlen := by
        rw [hdst, length_take, hlay]
        omega
      have hkeep : e.dst.filter (· ≠ newline) = (blocks src).flatten := by
        rw [hdst]
        exact (take_layout_filter_iff hsrc _ _).mpr (by omega)
      refine ⟨hfull, hkeep, e.dst, reported_of_length hfull, fun alloc past d hdec => ?_⟩
      rw [b64Decode_ok hdec]
      rw [hdst] at hkeep ⊢
      exact sextets_take_layout hkeep

/-- Nine bytes at five characters a line: the last line break does not fit,
and nothing else is lost. -/
theorem b64Encode_roundTrips_nine :
    RoundTrips (replicate 9 0)
      ⟨encodeLoop 5 14 (replicate 9 0) 0 [], 14⟩ :=
  (b64Encode_roundTrips_iff (fun _ => true) ⟨replicate 9 0, by decide⟩ 5 _ rfl).mpr
    (by decide)

/-- Thirty bytes at five characters a line: ten blocks and nine line breaks
between them are 49 characters, and `dstlen` is 48. -/
theorem b64Encode_thirty_bytes_cut_off :
    ∃ e, b64Encode (fun _ => true) (replicate 30 0) 5 = .ok e ∧
      ¬ RoundTrips (replicate 30 0) e := by
  refine ⟨⟨encodeLoop 5 48 (replicate 30 0) 0 [], 48⟩, rfl, ?_⟩
  rintro ⟨-, hkeep, -⟩
  exact absurd hkeep (by decide)

end Lhatove.B64
